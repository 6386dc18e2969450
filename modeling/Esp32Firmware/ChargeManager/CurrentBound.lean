import Esp32Firmware.ChargeManager.PhaseWindow

/-!
# What user and charger allow

Up to the wake-up a charger gets no more than its minimum current or what its user and
the charger allow. A charger that is woken up gets its enable current instead.
-/

namespace Esp32Firmware.ChargeManager

variable {n : Nat}

/-- Currents are not negative, and what a charger may use once it has a current has
something left. -/
structure Supplied (env : StageEnv n) (sc : StageContext n) : Prop where
  active : ActiveOnly sc
  covered : ∀ i, 0 < sc.currentAllocation i ∨
    (sc.phaseAllocation i ≠ 1 ∧ sc.phaseAllocation i ≠ 3) → sc.Covered env i
  nonneg : ∀ i, 0 ≤ sc.currentAllocation i

section

variable {env : StageEnv n} {t : Period} {i : Fin n} {sc sc' : StageContext n}

section

variable (h : AllocationStep env t i sc sc')
include h

/-- What a step takes from the limits was left. -/
theorem AllocationStep.limits_eq :
    ∃ cost, sc'.limits.raw = sc.limits.raw - cost ∧ sc'.limits.min = sc.limits.min - cost ∧
      phasesExceeded cost sc.limits.raw = false := by
  have hnone : ∀ cost : Cost, (∀ p, cost.get p ≤ 0) →
      phasesExceeded cost sc.limits.raw = false := fun cost hcost =>
    phasesExceeded_eq_false.mpr fun p _ hpos => absurd hpos (not_lt.mpr (hcost p))
  have hsame : ∀ limit : Cost, limit = limit - 0 := by
    intro limit
    ext <;> exact (Int.sub_zero _).symm
  cases h with
  | keep writes _ | exceeds _ writes _ _ | connect _ writes _ _ _ | setPhases _ _ writes _ _ _ =>
    refine ⟨0, ?_, ?_, hnone 0 fun p => (Cost.get_zero p).le⟩
    · rw [writes.limits]
      exact hsame _
    · rw [writes.limits]
      exact hsame _
  | refund _ writes _ _ =>
    refine ⟨_, by rw [writes.limits]; rfl, by rw [writes.limits]; rfl, hnone _ fun p => ?_⟩
    rw [Cost.get_neg]
    have := minimumCost_nonneg env sc i p
    omega
  | minimum _ writes _ _ _ cost | additional _ writes _ _ _ cost _ _ _
  | wake _ _ _ _ writes _ _ _ _ cost =>
    exact ⟨_, by rw [writes.limits]; rfl, by rw [writes.limits]; rfl, cost⟩

theorem AllocationStep.raw_nonneg {p : GridPhase}
    (hp : p ≠ .pv) (hraw : 0 ≤ sc.limits.raw.get p) : 0 ≤ sc'.limits.raw.get p := by
  obtain ⟨cost, heq, -, hfits⟩ := h.limits_eq
  have hle := phasesExceeded_eq_false.mp hfits p hp
  rw [heq, Cost.get_sub]
  omega

theorem AllocationStep.covered {j : Fin n}
    (hphases : sc'.phaseAllocation j = sc.phaseAllocation j) (hcovered : sc.Covered env j) :
    sc'.Covered env j := by
  intro p hp hmay
  rw [hphases] at hmay
  exact h.raw_nonneg hp (hcovered p hp hmay)

end

/-- A positive amount on every grid phase of the charger is left over. -/
theorem covered_of_spent {x : Int} {cost : Cost} {phases : UInt8} (hx : 0 < x)
    (hvalid : phases = 1 ∨ phases = 3)
    (hcost : ∀ p, p ≠ .pv →
      cost.get p = (getPhaseFactors phases (env.chargerState i).phaseRotation).get p * x)
    (hfits : phasesExceeded cost sc.limits.raw = false)
    (hraw : sc'.limits.raw = sc.limits.raw - cost) (hphases : sc'.phaseAllocation i = phases) :
    sc'.Covered env i := by
  intro p hp hmay
  rw [hphases] at hmay
  have hfactor := (factor_eq_zero_or_one phases (env.chargerState i).phaseRotation hp).resolve_left
    (factor_of_mayUse hvalid hp hmay)
  have hget := hcost p hp
  rw [hfactor, one_mul] at hget
  have hle := phasesExceeded_eq_false.mp hfits p hp (by rw [hget]; exact hx)
  rw [hraw, Cost.get_sub]
  omega

theorem AllocationStep.supplied (h : AllocationStep env t i sc sc') (ht : t ≠ .first)
    (hsc : Supplied env sc) : Supplied env sc' := by
  have hactive := h.activeOnly hsc.active
  have hother : ∀ j, j ≠ i → (0 < sc'.currentAllocation j ∨
      (sc'.phaseAllocation j ≠ 1 ∧ sc'.phaseAllocation j ≠ 3) → sc'.Covered env j) ∧
      0 ≤ sc'.currentAllocation j := by
    intro j hj
    rw [h.current_of_ne hj, h.phases_of_ne hj]
    exact ⟨fun hc => h.covered (h.phases_of_ne hj) (hsc.covered j hc), hsc.nonneg j⟩
  suffices hself : (0 < sc'.currentAllocation i ∨
      (sc'.phaseAllocation i ≠ 1 ∧ sc'.phaseAllocation i ≠ 3) → sc'.Covered env i) ∧
      0 ≤ sc'.currentAllocation i by
    refine ⟨hactive, fun j => ?_, fun j => ?_⟩
    · rcases eq_or_ne j i with rfl | hj
      · exact hself.1
      · exact (hother j hj).1
    · rcases eq_or_ne j i with rfl | hj
      · exact hself.2
      · exact (hother j hj).2
  have hstep := h
  cases h with
  | keep writes _ | exceeds _ writes _ _ =>
    have hphases : sc'.phaseAllocation i = sc.phaseAllocation i := by
      rw [writes.phases, Function.update_self]
    rw [hphases, writes.current, Function.update_self]
    exact ⟨fun hc => hstep.covered hphases (hsc.covered i hc), hsc.nonneg i⟩
  | connect first => exact absurd first ht
  | setPhases phases _ writes _ idle valid =>
    have hphases : sc'.phaseAllocation i = phases := by
      rw [writes.phases, Function.update_self]
    rw [writes.current, Function.update_self, idle]
    refine ⟨fun hc p hp hmay => ?_, le_rfl⟩
    rw [hphases] at hc hmay
    rcases valid with rfl | hvalid
    · exact absurd rfl hmay.1
    · rcases hc with hlt | hne
      · exact absurd hlt (lt_irrefl 0)
      · exact absurd hvalid (not_or.mpr hne)
  | minimum _ writes _ idle active cost =>
    have hphases : sc'.phaseAllocation i = sc.phaseAllocation i := by
      rw [writes.phases, Function.update_self]
    have hmin := minimumCurrent_pos env.cfg (sc.phaseAllocation i)
    rw [writes.current, Function.update_self]
    refine ⟨fun _ => ?_, hmin.le⟩
    by_cases hvalid : sc.phaseAllocation i = 1 ∨ sc.phaseAllocation i = 3
    · exact covered_of_spent hmin hvalid (fun p _ => minimumCost_get i p) cost
        (by rw [writes.limits]; rfl) hphases
    · exact hstep.covered hphases (hsc.covered i (Or.inr (not_or.mp hvalid)))
  | refund _ writes _ current =>
    have hphases : sc'.phaseAllocation i = sc.phaseAllocation i := by
      rw [writes.phases, Function.update_self]
    have hmin := minimumCurrent_pos env.cfg (sc.phaseAllocation i)
    rw [writes.current, Function.update_self]
    exact ⟨fun _ => hstep.covered hphases (hsc.covered i (Or.inl (by omega))), le_rfl⟩
  | additional d writes _ _ positive _ _ lower _ =>
    have hphases : sc'.phaseAllocation i = sc.phaseAllocation i := by
      rw [writes.phases, Function.update_self]
    have hcovered := hsc.covered i (Or.inl positive)
    have hd := lower hcovered
    rw [writes.current, Function.update_self]
    exact ⟨fun _ => hstep.covered hphases hcovered, by omega⟩
  | wake phases cost haveActive _ writes _ idle valid enable affordable =>
    obtain ⟨hmin, _⟩ := @enableCurrent_mem _ env.cfg (env.chargerState i) phases haveActive valid
    have hpos : 0 < cost.enableCurrent := by
      rw [enable]
      exact (minimumCurrent_pos env.cfg phases).trans_le hmin
    rw [writes.current, Function.update_self]
    refine ⟨fun _ => covered_of_spent hpos valid (fun p hp => ?_) affordable
      (by rw [writes.limits]; rfl) (by rw [writes.phases, Function.update_self]), hpos.le⟩
    rw [enable]
    exact enable_get_phase valid hp

theorem Supplied.congr (hsc : Supplied env sc)
    (hphases : sc'.phaseAllocation = sc.phaseAllocation)
    (hcurrent : sc'.currentAllocation = sc.currentAllocation) (hlimits : sc'.limits = sc.limits) :
    Supplied env sc' := by
  refine ⟨fun i => ?_, fun i => ?_, fun i => ?_⟩
  · rw [hphases, hcurrent]
    exact hsc.active i
  · unfold StageContext.Covered
    rw [hphases, hcurrent, hlimits]
    exact hsc.covered i
  · rw [hcurrent]
    exact hsc.nonneg i

theorem Steps.supplied {g : Fin n → Prop} (h : Steps env t g sc sc') (ht : t ≠ .first)
    (hsc : Supplied env sc) : Supplied env sc' :=
  h.invariant (fun _ _ hp hc hl ha => ha.congr hp hc hl) (fun _ _ _ _ step => step.supplied ht) hsc

end

/-- A charger has at most its minimum current or what user and charger allow. -/
def WithinBound (env : StageEnv n) (sc : StageContext n) (i : Fin n) : Prop :=
  sc.currentAllocation i ≤
    max (minimumCurrent env.cfg (sc.phaseAllocation i)) (env.chargerState i).allowedByUser

section

variable {env : StageEnv n} {i : Fin n} {sc sc' : StageContext n}

theorem AllocationStep.withinBound (h : AllocationStep env .middle i sc sc')
    (hsc : ∀ j, WithinBound env sc j) (j : Fin n) : WithinBound env sc' j := by
  have hold := hsc j
  unfold WithinBound at hold ⊢
  rcases eq_or_ne j i with rfl | hj
  · cases h with
    | keep writes _ | exceeds _ writes _ _ =>
      rwa [writes.phases, writes.current, Function.update_self, Function.update_self]
    | connect first => cases first
    | setPhases phases _ writes _ idle _ =>
      rw [writes.phases, writes.current, Function.update_self, Function.update_self, idle]
      exact (minimumCurrent_pos env.cfg phases).le.trans (le_max_left _ _)
    | minimum _ writes _ _ _ _ =>
      rw [writes.phases, writes.current, Function.update_self, Function.update_self]
      exact le_max_left _ _
    | refund _ writes _ _ =>
      rw [writes.phases, writes.current, Function.update_self, Function.update_self]
      exact (minimumCurrent_pos env.cfg _).le.trans (le_max_left _ _)
    | additional _ writes _ _ _ _ upper _ _ =>
      rw [writes.phases, writes.current, Function.update_self, Function.update_self]
      exact upper.trans (max_le hold (le_max_right _ _))
    | wake _ _ _ last => cases last
  · rwa [h.phases_of_ne hj, h.current_of_ne hj]

theorem Steps.withinBound {g : Fin n → Prop} (h : Steps env .middle g sc sc')
    (hsc : ∀ j, WithinBound env sc j) : ∀ j, WithinBound env sc' j := by
  refine @Steps.invariant _ env .middle g sc sc' (fun c => ∀ j, WithinBound env c j)
    (fun a b hp hc _ ha j => ?_) (fun a b i _ step => step.withinBound) h hsc
  unfold WithinBound
  rw [hp, hc]
  exact ha j

end

/-- What the last stages do to a charger: they give more to one that is active, and
wake one up that is not. -/
structure Finished (env : StageEnv n) (haveActiveChargers : Bool) (sc sc' : StageContext n)
    (i : Fin n) : Prop where
  kept : sc.phaseAllocation i ≠ 0 → sc'.phaseAllocation i = sc.phaseAllocation i ∧
    sc.currentAllocation i ≤ sc'.currentAllocation i ∧
    sc'.currentAllocation i ≤ max (sc.currentAllocation i) (env.chargerState i).allowedByUser
  woken : sc.phaseAllocation i = 0 → sc'.phaseAllocation i = 0 ∨
    (sc'.phaseAllocation i = 1 ∨ sc'.phaseAllocation i = 3) ∧
      (getEnableCost (env.chargerState i) (sc'.phaseAllocation i == 3) haveActiveChargers
        env.cfg).enableCurrent ≤ sc'.currentAllocation i ∧
      sc'.currentAllocation i ≤ max (getEnableCost (env.chargerState i)
        (sc'.phaseAllocation i == 3) haveActiveChargers env.cfg).enableCurrent
        (env.chargerState i).allowedByUser

section

variable {env : StageEnv n} {haveActive : Bool} {i : Fin n} {start sc sc' : StageContext n}

theorem AllocationStep.finished (h : AllocationStep env (.last haveActive) i sc sc')
    (hsupplied : Supplied env sc) (hsc : ∀ j, Finished env haveActive start sc j) (j : Fin n) :
    Finished env haveActive start sc' j := by
  obtain ⟨hkept, hwoken⟩ := hsc j
  rcases eq_or_ne j i with rfl | hj
  · cases h with
    | exceeds middle | minimum middle | refund middle => cases middle
    | connect first => cases first
    | setPhases _ early => exact early.elim
    | keep writes _ =>
      have hphases : sc'.phaseAllocation j = sc.phaseAllocation j := by
        rw [writes.phases, Function.update_self]
      have hcurrent : sc'.currentAllocation j = sc.currentAllocation j := by
        rw [writes.current, Function.update_self]
      constructor <;> rw [hphases, hcurrent]
      · exact hkept
      · exact hwoken
    | additional d writes _ active positive _ upper _ grows =>
      have hphases : sc'.phaseAllocation j = sc.phaseAllocation j := by
        rw [writes.phases, Function.update_self]
      have hcurrent : sc'.currentAllocation j = sc.currentAllocation j + d := by
        rw [writes.current, Function.update_self]
      have hd := grows (hsupplied.covered j (Or.inl positive)) haveActive rfl
      constructor <;> rw [hphases, hcurrent]
      · intro hne
        obtain ⟨hsame, hlow, hhigh⟩ := hkept hne
        exact ⟨hsame, by omega, upper.trans (max_le hhigh (le_max_right _ _))⟩
      · intro hzero
        rcases hwoken hzero with h0 | ⟨hvalid, hlow, hhigh⟩
        · exact absurd h0 active
        · exact Or.inr ⟨hvalid, by omega, upper.trans (max_le hhigh (le_max_right _ _))⟩
    | wake phases cost haveActive' last writes _ idle valid enable _ =>
      cases last
      have hphases : sc'.phaseAllocation j = phases := by
        rw [writes.phases, Function.update_self]
      have hcurrent : sc'.currentAllocation j = cost.enableCurrent := by
        rw [writes.current, Function.update_self]
      constructor <;> rw [hphases, hcurrent]
      · intro hne
        exact absurd ((hkept hne).1.symm.trans idle) hne
      · intro _
        rw [← enable]
        exact Or.inr ⟨valid, le_rfl, le_max_left _ _⟩
  · have hphases := h.phases_of_ne hj
    have hcurrent := h.current_of_ne hj
    constructor <;> rw [hphases, hcurrent]
    · exact hkept
    · exact hwoken

theorem Finished.refl (env : StageEnv n) (haveActive : Bool) (sc : StageContext n) (i : Fin n) :
    Finished env haveActive sc sc i :=
  ⟨fun _ => ⟨rfl, le_rfl, le_max_left _ _⟩, fun h => Or.inl h⟩

theorem Steps.finished {g : Fin n → Prop} (h : Steps env (.last haveActive) g sc sc')
    (hsupplied : Supplied env sc) (hsc : ∀ j, Finished env haveActive start sc j) :
    Supplied env sc' ∧ ∀ j, Finished env haveActive start sc' j := by
  refine @Steps.invariant _ env (.last haveActive) g sc sc'
    (fun c => Supplied env c ∧ ∀ j, Finished env haveActive start c j)
    (fun a b hp hc hl ha => ⟨ha.1.congr hp hc hl, fun j => ?_⟩)
    (fun a b i _ step ha => ⟨step.supplied (by simp) ha.1, step.finished ha.1 ha.2⟩) h
    ⟨hsupplied, hsc⟩
  obtain ⟨hkept, hwoken⟩ := ha.2 j
  constructor <;> rw [hp, hc]
  · exact hkept
  · exact hwoken

end

section

variable {env : StageEnv n} {sc : StageContext n}

/-- Stage 9 calculates enable currents for a factor of one unless a charger is active. -/
def haveActiveChargers (env : StageEnv n) (sc : StageContext n) : Bool :=
  decide ((beforeWakeUp env sc).caState.controlWindowMin.pv ≠ 0)

theorem afterStage3_supplied (hsc : Fresh sc) : Supplied env (afterStage3 env sc) := by
  obtain ⟨_, hzero, _⟩ := @afterStage3_indexed _ env _ hsc
  refine ⟨fun i _ => hzero i, fun i _ p hp hmay => ?_, fun i => (hzero i).ge⟩
  rcases @afterStage3_spec _ env _ hsc p hp with hle | hnone
  · exact (window_nonneg env _ p).trans hle
  · exact absurd hmay (hnone i)

theorem runStages_finished (hsc : Fresh sc) :
    Supplied env (beforeWakeUp env sc) ∧ (∀ i, WithinBound env (beforeWakeUp env sc) i) ∧
      Supplied env (runStages env sc) ∧
      ∀ i, Finished env (haveActiveChargers env sc) (beforeWakeUp env sc) (runStages env sc) i := by
  obtain ⟨_, hzero, _⟩ := @afterStage3_indexed _ env _ hsc
  obtain ⟨_, hbefore⟩ := @beforeWakeUp_run _ env _ hsc
  obtain ⟨h9, h8, hpost, _⟩ := @runStages_run _ env _ hsc
  have hsupplied := hbefore.supplied (by simp) (afterStage3_supplied hsc)
  have hbound := hbefore.withinBound fun i => by
    unfold WithinBound
    rw [hzero]
    exact (minimumCurrent_pos env.cfg _).le.trans (le_max_left _ _)
  obtain ⟨hsupplied9, hfinished9⟩ := h9.steps.finished hsupplied
    (Finished.refl env (haveActiveChargers env sc) _)
  obtain ⟨hsupplied8, hfinished8⟩ := h8.steps.finished hsupplied9 hfinished9
  have hlast : Steps env (.last (haveActiveChargers env sc)) (fun _ => True) _ _ := hpost.steps
  exact ⟨hsupplied, hbound, hlast.finished hsupplied8 hfinished8⟩

end

variable (input : AllocatorInput n)

/-- Stage 9 wakes a charger up that has no phases yet. -/
def WakesUp (i : Fin n) (phases : UInt8) : Prop :=
  (beforeWakeUp input.env input.initialContext).phaseAllocation i = 0 ∧
    (stage9 input.env (beforeWakeUp input.env input.initialContext)).phaseAllocation i = phases ∧
    phases ≠ 0

/-- The current stage 9 wakes a charger up with. -/
def wakeUpCurrent (i : Fin n) (phases : UInt8) : Int :=
  (getEnableCost (input.env.chargerState i) (phases == 3)
    (haveActiveChargers input.env input.initialContext) input.cfg).enableCurrent

/-- What a charger may get at most: its minimum current or what user and charger allow. -/
def currentBound (i : Fin n) (phases : UInt8) : Int :=
  max (minimumCurrent input.cfg phases) (input.chargerState i).allowedByUser

variable (i : Fin n)

theorem env_allowedByUser :
    (input.env.chargerState i).allowedByUser = (input.chargerState i).allowedByUser := by
  obtain ⟨off, hoff⟩ := env_chargerState input i
  rw [hoff]
  rfl

theorem allowedByUser_lt (state : ChargerState) : state.allowedByUser < 65536 := by
  have := state.userCurrent.toNat_lt
  unfold ChargerState.allowedByUser
  omega

/-- The phases of a charger are written back as they are. -/
theorem allocatedPhases_eq :
    ((allocateCurrent input).chargerAllocationState i).allocatedPhases.toUInt8 =
      (runStages input.env input.initialContext).phaseAllocation i := UInt8.toUInt8_toInt8 _

/-- The current of a charger is written back in 16 bits. -/
theorem allocatedCurrent_eq :
    (((allocateCurrent input).chargerAllocationState i).allocatedCurrent.toNat : Int) =
      (runStages input.env input.initialContext).currentAllocation i % 65536 := toNat_ofInt _

theorem wakesUp_iff {i : Fin n} {phases : UInt8} :
    WakesUp input i phases ↔ (beforeWakeUp input.env input.initialContext).phaseAllocation i = 0 ∧
      (runStages input.env input.initialContext).phaseAllocation i = phases ∧ phases ≠ 0 := by
  unfold WakesUp
  rw [runStages_phases (initialContext_fresh input)]

/-- What a charger ends with: it is not woken up and stays within the bound, or it is
woken up and has its enable current or stays within the bound above it. -/
theorem finished_cases :
    ((∀ phases, ¬ WakesUp input i phases) ∧
      (runStages input.env input.initialContext).phaseAllocation i =
        (beforeWakeUp input.env input.initialContext).phaseAllocation i ∧
      (beforeWakeUp input.env input.initialContext).currentAllocation i ≤
        (runStages input.env input.initialContext).currentAllocation i ∧
      0 ≤ (runStages input.env input.initialContext).currentAllocation i ∧
      (runStages input.env input.initialContext).currentAllocation i ≤
        currentBound input i ((runStages input.env input.initialContext).phaseAllocation i)) ∨
    ∃ phases, (phases = 1 ∨ phases = 3) ∧
      (runStages input.env input.initialContext).phaseAllocation i = phases ∧
      (∀ phases', WakesUp input i phases' ↔ phases' = phases) ∧
      wakeUpCurrent input i phases ≤
        (runStages input.env input.initialContext).currentAllocation i ∧
      (runStages input.env input.initialContext).currentAllocation i ≤
        max (wakeUpCurrent input i phases) (input.chargerState i).allowedByUser := by
  obtain ⟨hsupplied0, hbound, hsupplied, hfinished⟩ :=
    @runStages_finished _ input.env _ (initialContext_fresh input)
  obtain ⟨hkept, hwoken⟩ := hfinished i
  have hstart := hbound i
  have hwakes := fun phases => @wakesUp_iff _ input i phases
  have henable : ∀ phases, (getEnableCost (input.env.chargerState i) (phases == 3)
      (haveActiveChargers input.env input.initialContext) input.env.cfg).enableCurrent =
      wakeUpCurrent input i phases := fun _ => rfl
  have hmin : ∀ phases x, x ≤ minimumCurrent input.env.cfg phases →
      x ≤ currentBound input i phases := fun _ _ h => h.trans (le_max_left _ _)
  have hallowed : ∀ phases, (input.chargerState i).allowedByUser ≤ currentBound input i phases :=
    fun _ => le_max_right _ _
  unfold WithinBound at hstart
  rw [env_allowedByUser] at hkept hwoken hstart
  simp only [henable] at hwoken
  generalize beforeWakeUp input.env input.initialContext = start at *
  generalize runStages input.env input.initialContext = last at *
  by_cases hphases : start.phaseAllocation i = 0
  · rcases hwoken hphases with hzero | ⟨hvalid, hlow, hhigh⟩
    · refine Or.inl ⟨fun phases h => ?_, hzero.trans hphases.symm, ?_, hsupplied.nonneg i, ?_⟩
      · obtain ⟨_, hsame, hne⟩ := (hwakes phases).mp h
        exact hne (hsame.symm.trans hzero)
      · rw [hsupplied0.active i hphases]
        exact hsupplied.nonneg i
      · rw [hsupplied.active i hzero]
        exact hmin _ 0 (minimumCurrent_pos _ _).le
    · refine Or.inr ⟨last.phaseAllocation i, hvalid, rfl, fun phases => ?_, hlow, hhigh⟩
      rw [hwakes]
      constructor
      · rintro ⟨_, hsame, _⟩
        exact hsame.symm
      · rintro rfl
        refine ⟨hphases, rfl, ?_⟩
        rcases hvalid with h | h <;> rw [h] <;> decide
  · obtain ⟨hsame, hlow, hhigh⟩ := hkept hphases
    refine Or.inl ⟨fun phases h => hphases ((hwakes phases).mp h).1, hsame, hlow,
      hsupplied.nonneg i, ?_⟩
    rw [hsame]
    exact hhigh.trans (max_le (hstart.trans (max_le (hmin _ _ le_rfl) (hallowed _))) (hallowed _))

/-- No charger gets more than user and charger allow if stage 9 wakes up no charger with a larger
enable current. -/
theorem allocated_le_of_wakeUps (hwakeUps : ∀ i phases, WakesUp input i phases →
    wakeUpCurrent input i phases % 65536 ≤ currentBound input i phases) (i : Fin n) :
    (((allocateCurrent input).chargerAllocationState i).allocatedCurrent.toNat : Int) ≤
      currentBound input i
        ((allocateCurrent input).chargerAllocationState i).allocatedPhases.toUInt8 := by
  rw [allocatedPhases_eq, allocatedCurrent_eq]
  rcases finished_cases input i with ⟨_, _, _, hnonneg, hhigh⟩ |
    ⟨phases, hvalid, hphases, hwakes, hlow, hhigh⟩
  · omega
  · have hwakeUp := hwakeUps i phases ((hwakes phases).mpr rfl)
    have hlt := allowedByUser_lt (input.chargerState i)
    have hmin := minimumCurrent_mem input.cfg phases
    obtain ⟨henable, _⟩ := @enableCurrent_mem _ input.cfg (input.env.chargerState i) phases
      (haveActiveChargers input.env input.initialContext) hvalid
    rw [hphases]
    unfold wakeUpCurrent currentBound at *
    -- up to what user and charger allow nothing is cut off, above it stage 8 adds nothing
    omega

end Esp32Firmware.ChargeManager
