import Esp32Firmware.ChargeManager.WakeUpCurrent

/-!
# The threshold of the wake-up

Stage 9 requires the enable current and not only the minimum current if other chargers
are active. Stage 4 looks at the phases of all chargers for that, stage 9 at the control
window, which was last calculated for the chargers of the lowest charge mode.
-/

namespace Esp32Firmware.ChargeManager

variable {n : Nat}

/-- `have_active_chargers` of stage 9. -/
def StageContext.haveActiveChargers (sc : StageContext n) : Bool :=
  decide (sc.caState.controlWindowMin.pv ≠ 0)

/-- The chargers stage 9 regards as probably full. -/
def mayWakeUp (env : StageEnv n) (sc : StageContext n) (i : Fin n) : Bool :=
  decide (sc.phaseAllocation i = 0) && ((env.chargerState i).wantsToChargeLowPriority ||
    ((env.chargerState i).wantsToCharge && (env.chargerState i).lastWakeup != 0))

/-- The context the loop of stage 9 starts with. -/
def wakeUpStart (env : StageEnv n) (sc : StageContext n) : StageContext n :=
  sortChargersImpl (fun i => stage9Group env (env.chargerState i))
    (fun left right => stage9Sort env (env.chargerState left) (env.chargerState right))
    (filterChargers (mayWakeUp env sc) sc).1 (filterChargers (mayWakeUp env sc) sc).2

/-- The chargers of the loop of stage 9, in its order. -/
def wakeUpCandidates (env : StageEnv n) (sc : StageContext n) : List (Fin n) :=
  (wakeUpStart env sc).idxArray.take (filterChargers (mayWakeUp env sc) sc).2

/-- In the context `c` stage 9 decides whether to wake up a charger. While the hysteresis is not
elapsed it skips chargers that had no current. -/
structure DecidesWakeUp (env : StageEnv n) (sc : StageContext n) (i : Fin n)
    (c : StageContext n) : Prop where
  reached : ∃ before after, wakeUpCandidates env sc = before ++ i :: after ∧
    c = before.foldl (stage9Charger env sc.haveActiveChargers) (wakeUpStart env sc)
  considered : c.caState.globalHysteresisElapsed = true ∨
    (env.chargerAllocationState i).allocatedCurrent ≠ 0

/-- Every wake-up is decided with the notion of activity of stage 4: a charger has phases at
that moment. -/
def WakesUpRightly (env : StageEnv n) (sc : StageContext n) : Prop :=
  ∀ i c, DecidesWakeUp env sc i c → (sc.haveActiveChargers = true ↔ ∃ j, c.phaseAllocation j ≠ 0)

/-- The control window is what the group still needs. -/
def WindowKnown (env : StageEnv n) (sc : StageContext n) : Prop :=
  ∀ p, sc.caState.controlWindowMin.get p = window env sc p

section

variable {env : StageEnv n} {sc : StageContext n}

theorem windowKnown_respectsBooks (env : StageEnv n) : RespectsBooks (WindowKnown env) := by
  intro a b hgroup hphases hcurrent _ hstate ha q
  rw [hstate, ha q, window_congr hgroup hphases hcurrent]

theorem WindowKnown.of_calculateWindow (hidx : Indexed sc) :
    WindowKnown env (calculateWindow env sc) := by
  intro p
  rw [calculateWindow_get hidx]
  exact (window_congr (fun _ => Iff.rfl) rfl rfl).symm

theorem WindowKnown.stage4 (hidx : Indexed sc) (hzero : ∀ i ∈ sc.group, sc.currentAllocation i = 0) :
    WindowKnown env (stage4 env sc) :=
  stage4_induction (windowKnown_respectsBooks env) hidx hzero
    (fun _ _ _ _ _ hrun _ _ _ _ _ _ _ => .of_calculateWindow ((hrun.sameGroup.indexed hidx).setPhases _ _))
    (.of_calculateWindow hidx)

theorem WindowKnown.stage5 (h : WindowKnown env sc) (hidx : Indexed sc)
    (hzero : ∀ i ∈ sc.group, sc.currentAllocation i = 0) : WindowKnown env (stage5 env sc) :=
  stage5_induction (windowKnown_respectsBooks env) hidx hzero
    (fun _ _ _ _ hrun _ _ _ _ _ _ => .of_calculateWindow ((hrun.sameGroup.indexed hidx).setPhases _ _)) h

end

section

variable {env : StageEnv n} {sc : StageContext n} {i : Fin n} {count : Nat} {mode : ChargeMode}

/-- Distributing current changes neither phases nor the control window. -/
structure Distributed (sc sc' : StageContext n) : Prop where
  phases : sc'.phaseAllocation = sc.phaseAllocation
  caState : sc'.caState = sc.caState

namespace Distributed

variable {a b c : StageContext n}

theorem refl (a : StageContext n) : Distributed a a := ⟨rfl, rfl⟩

theorem trans (h : Distributed a b) (h' : Distributed b c) : Distributed a c :=
  ⟨h'.phases.trans h.phases, h'.caState.trans h.caState⟩

theorem ite {p : Prop} [Decidable p] (h : Distributed a b) (h' : Distributed a c) :
    Distributed a (if p then b else c) := by
  split
  · exact h
  · exact h'

theorem foldl (f : StageContext n → Fin n → StageContext n) (hf : ∀ b i, Distributed b (f b i))
    (l : List (Fin n)) (init : StageContext n) : Distributed init (l.foldl f init) := by
  induction l generalizing init with
  | nil => exact .refl _
  | cons i rest ih => exact (hf init i).trans (ih (f init i))

end Distributed

theorem allocateChecked_distributed (stage : Nat) (current : Int) (cost : Cost) :
    Distributed sc (allocateChecked env sc stage i current cost) :=
  .ite ⟨rfl, rfl⟩ ⟨rfl, rfl⟩

theorem stage6_distributed (env : StageEnv n) (sc : StageContext n) :
    Distributed sc (stage6 env sc) := by
  have hselect : Distributed sc (filterChargers (fun i => decide (sc.phaseAllocation i > 0) &&
    decide (sc.currentAllocation i = 0)) sc).1 := ⟨rfl, rfl⟩
  exact hselect.trans (.foldl (stage6Charger env) (fun b i => .ite ⟨rfl, rfl⟩ ⟨rfl, rfl⟩) _ _)

theorem stage7_distributed (env : StageEnv n) (sc : StageContext n) :
    Distributed sc (stage7 env sc) := by
  have hcharger : ∀ (chargers : List (Fin n)) (i : Fin n) (c : StageContext n),
      Distributed c (stage7Charger env c chargers i) := by
    intro chargers i c
    refine .trans (b := if (stage7Min env c chargers i).current > 0 then _ else c) ?_
      (allocateChecked_distributed 7 _ _)
    exact .ite ⟨rfl, rfl⟩ (.refl c)
  have hloop : ∀ (l : List (Fin n)) (c : StageContext n), Distributed c (stage7Loop env l c) := by
    intro l
    induction l with
    | nil => exact fun c => .refl c
    | cons i rest ih =>
      exact fun c => (hcharger (i :: rest) i c).trans (ih (stage7Charger env c (i :: rest) i))
  unfold stage7
  simp only
  refine .ite ⟨rfl, rfl⟩ (.trans ?_ (hloop _ _))
  exact ⟨rfl, rfl⟩

theorem stage8_distributed (env : StageEnv n) (nonCharging : Bool) (sc : StageContext n) :
    Distributed sc (stage8 env nonCharging sc) := by
  have hcharger : ∀ (c : StageContext n) (i : Fin n),
      Distributed c (stage8Charger env nonCharging c i) := by
    intro c i
    refine .trans (b := if stage8Additional env c nonCharging i > 0 then _ else c) ?_
      (allocateChecked_distributed 8 _ _)
    exact .ite ⟨rfl, rfl⟩ (.refl c)
  unfold stage8
  simp only
  refine .trans ?_ (.foldl (stage8Charger env nonCharging) hcharger _ _)
  exact ⟨rfl, rfl⟩

theorem factor_pv_eq_zero_iff (phases : UInt8) (rot : PhaseRotation) :
    (getPhaseFactors phases rot).get .pv = 0 ↔ phases = 0 := by
  unfold getPhaseFactors
  split_ifs with hzero
  · exact ⟨fun _ => hzero, fun _ => rfl⟩
  · exact ⟨fun h => absurd h (by decide), fun h => absurd h hzero⟩
  · exact ⟨fun h => absurd h (by decide), fun h => absurd h hzero⟩
  · refine ⟨fun h => ?_, fun h => absurd h hzero⟩
    rw [Cost.get_set] at h
    split_ifs at h
    · cases h
    · cases h

/-- While no current is allocated, the group needs something exactly if one of it is active. -/
theorem window_pv_ne_zero_iff (hzero : ∀ i ∈ sc.group, sc.currentAllocation i = 0) :
    window env sc .pv ≠ 0 ↔ ∃ i ∈ sc.group, sc.phaseAllocation i ≠ 0 := by
  have hdemand : ∀ i ∈ sc.group, demand env sc i .pv = 0 ↔ sc.phaseAllocation i = 0 := by
    intro i hi
    unfold demand
    rw [hzero i hi, if_neg (lt_irrefl 0), minimumCost_get, mul_eq_zero]
    refine (or_iff_left ?_).trans (factor_pv_eq_zero_iff _ _)
    exact (minimumCurrent_pos env.cfg _).ne'
  have hsum : window env sc .pv = 0 ↔ ∀ i ∈ sc.group, demand env sc i .pv = 0 := by
    unfold window
    rw [Finset.sum_eq_zero_iff_of_nonneg fun i _ => demand_nonneg env sc i .pv]
    simp
  rw [ne_eq, hsum]
  push Not
  exact exists_congr fun i => and_congr_right fun hi => not_congr (hdemand i hi)

/-- After stages 4 and 5 of a charge mode the window shows whether one of its chargers is
active. -/
theorem activateMode_active_iff (hfront : Fronted env count sc)
    (hmin : ∀ i, ModeGroup env mode i → MinimumOnly env sc i) :
    (activateMode env count sc mode).haveActiveChargers = true ↔
      ∃ i, ModeGroup env mode i ∧ (activateMode env count sc mode).phaseAllocation i ≠ 0 := by
  obtain ⟨hundo, hzero, hrun⟩ := activateMode_run hfront hmin
  have hidx := hundo.indexed (@enterMode_indexed _ _ _ _ mode hfront)
  have hgroup : ∀ i, i ∈ (undoStage6 env (enterMode env count sc mode)).group ↔
      ModeGroup env mode i := fun i => hundo.sameGroup.mem_iff.trans (mem_enterMode hfront i)
  have h4 := @stage4_run _ env _ hidx fun i hi => hzero i ((hgroup i).mp hi)
  have hknown4 := @WindowKnown.stage4 _ env _ hidx fun i hi => hzero i ((hgroup i).mp hi)
  have hknown : WindowKnown env (activateMode env count sc mode) := by
    refine hknown4.stage5 (h4.sameGroup.indexed hidx) fun i hi => ?_
    rw [h4.current]
    exact hzero i ((hgroup i).mp (h4.sameGroup.mem_iff.mp hi))
  have hgroup' : ∀ i, i ∈ (activateMode env count sc mode).group ↔ ModeGroup env mode i :=
    fun i => hrun.sameGroup.mem_iff.trans (hgroup i)
  have hpv : (activateMode env count sc mode).caState.controlWindowMin.pv =
      window env (activateMode env count sc mode) .pv := hknown .pv
  rw [StageContext.haveActiveChargers, decide_eq_true_eq, hpv, window_pv_ne_zero_iff fun i hi => ?_]
  · exact exists_congr fun i => and_congr_left fun _ => hgroup' i
  · rw [hrun.current]
    exact hzero i ((hgroup' i).mp hi)

/-- Stage 9 takes the chargers for active exactly if one of the chargers in min or PV mode is
active when it starts. -/
theorem beforeWakeUp_active_iff (hsc : Fresh sc) :
    (beforeWakeUp env sc).haveActiveChargers = true ↔
      ∃ i, ModeGroup env .min i ∧ (beforeWakeUp env sc).phaseAllocation i ≠ 0 := by
  have hprep := @afterStage1_prepared _ env _ hsc
  have h3 := @afterStage3_run _ env _ hsc
  obtain ⟨hidx, hzero, _⟩ := @afterStage3_indexed _ env _ hsc
  have h6 := @stage6_run _ env _ hidx
  have hactive : ActiveOnly (stage6 env (afterStage3 env sc)) :=
    h6.steps.activeOnly fun i _ => hzero i
  obtain ⟨hfront, hsteps⟩ := @allocateModes_run _ env _ (afterStage1 env sc).chargerCount
    [.fast, .eco] (by decide) (by decide)
    (hprep.fronted.sameGroup (h3.sameGroup.trans h6.sameGroup) le_rfl) hactive
    fun _ _ i _ => firstMinimum hsc i
  have hmin : ∀ i, ModeGroup env .min i → MinimumOnly env
      ([ChargeMode.fast, .eco].foldl (allocateMode env (afterStage1 env sc).chargerCount)
        (stage6 env (afterStage3 env sc))) i := by
    intro i hi
    have hearlier : ¬ ∃ mode ∈ [ChargeMode.fast, .eco], ModeGroup env mode i := by
      rintro ⟨mode, hmode, hi'⟩
      have hallocated : ∀ m ∈ [ChargeMode.fast, .eco], m ∈ allocatedModes := by decide
      obtain rfl := modeGroup_unique (by decide) (hallocated mode hmode) hi hi'
      exact absurd hmode (by decide)
    obtain ⟨hphases, hcurrent⟩ := hsteps.outside hearlier
    rw [MinimumOnly, hphases, hcurrent]
    exact firstMinimum hsc i
  have hiff := activateMode_active_iff hfront hmin
  have hmodes : allocatedModes = [ChargeMode.fast, .eco] ++ [.min] := rfl
  rw [beforeWakeUp_eq, hmodes, List.foldl_append, List.foldl_cons, List.foldl_nil, allocateMode_eq]
  generalize activateMode env _ _ _ = last at hiff ⊢
  have hdistributed := ((stage6_distributed env last).trans (stage7_distributed env _)).trans
    (stage8_distributed env false _)
  generalize stage8 env false _ = final at hdistributed ⊢
  rw [StageContext.haveActiveChargers] at hiff ⊢
  simp only [hdistributed.caState, hdistributed.phases]
  exact hiff

end

variable (input : AllocatorInput n)

/-- The context in which stage 9 starts. -/
def AllocatorInput.beforeWakeUp : StageContext n :=
  ChargeManager.beforeWakeUp input.env input.initialContext

/-- A full vehicle at a charger that is not off. -/
def AllocatorInput.Wakeable (i : Fin n) : Prop :=
  (input.env.chargerState i).off = false ∧ (input.chargerState i).MayWakeUp

variable {input}

theorem beforeWakeUp_on {i : Fin n} (hi : input.beforeWakeUp.phaseAllocation i ≠ 0) :
    (input.env.chargerState i).off = false := by
  by_contra hoff
  obtain ⟨-, -, -, hfinished⟩ := @runStages_finished _ input.env _ (initialContext_fresh input)
  obtain ⟨hsame, -⟩ := (hfinished i).kept hi
  obtain ⟨hzero, -⟩ := @runStages_off _ input.env _ (initialContext_fresh input) i
    (Bool.eq_true_of_not_eq_false hoff)
  exact hi (hsame.symm.trans hzero)

/-- Stage 9 decides about full vehicles at chargers that are not off. Where there is only one, no
charger was woken up before. -/
theorem DecidesWakeUp.wakeable {i : Fin n} {c : StageContext n}
    (h : DecidesWakeUp input.env input.beforeWakeUp i c) :
    input.Wakeable i ∧ ((∀ j, input.Wakeable j → j = i) →
      c.phaseAllocation = input.beforeWakeUp.phaseAllocation) := by
  obtain ⟨hfront, -⟩ := @beforeWakeUp_run _ input.env _ (initialContext_fresh input)
  have hidx : Indexed input.beforeWakeUp := hfront.indexed le_rfl
  have hsel := (filterChargers_selected (mayWakeUp input.env input.beforeWakeUp)
    input.beforeWakeUp hidx.count_le).sort
      (fun i => stage9Group input.env (input.env.chargerState i))
      (fun left right => stage9Sort input.env (input.env.chargerState left)
        (input.env.chargerState right)) hidx.count_le
  have hmem : ∀ j ∈ wakeUpCandidates input.env input.beforeWakeUp, input.Wakeable j := by
    intro j hj
    obtain ⟨hgroup, hp⟩ := hsel.mem_iff.mp hj
    obtain ⟨off, hoff⟩ := env_chargerState input j
    have hfull : (input.env.chargerState j).MayWakeUp := by
      simpa [ChargerState.MayWakeUp] using ((Bool.and_eq_true _ _).mp hp).2
    exact ⟨(hfront.mem_take j).mp hgroup, by rwa [hoff] at hfull⟩
  obtain ⟨before, after, hcandidates, rfl⟩ := h.reached
  have hi : input.Wakeable i := hmem i (by rw [hcandidates]; simp)
  refine ⟨hi, fun hsingle => ?_⟩
  have hnodup : (before ++ i :: after).Nodup := hcandidates ▸ hsel.nodup hidx
  have hbefore : before = [] := by
    refine List.eq_nil_iff_forall_not_mem.mpr fun j hj => ?_
    obtain rfl := hsingle j (hmem j (by rw [hcandidates]; exact List.mem_append_left _ hj))
    exact (List.nodup_append.mp hnodup).2.2 _ hj _ List.mem_cons_self rfl
  obtain ⟨idx, hcontext⟩ := hsel.context
  rw [hbefore, List.foldl_nil, wakeUpStart, hcontext]

variable (input)

/-- The installation with two chargers on 40 A, with the vehicle that charges in fast mode. -/
def TwoChargers.fastInput : AllocatorInput 2 :=
  { TwoChargers.input 6000 TwoChargers.smallest_minimum 32000 with
    limits :=
      { TwoChargers.limits with
        raw := ⟨40000, 40000, 40000, 40000⟩
        min := ⟨40000, 40000, 40000, 40000⟩
        spread := ⟨40000, 40000, 40000, 40000⟩
        maxPv := 40000 }
    chargerState := fun i =>
      if i.val = 0 then { TwoChargers.charger 32000 true with chargeMode := 8 }
      else TwoChargers.charger 32000 false }

end Esp32Firmware.ChargeManager
