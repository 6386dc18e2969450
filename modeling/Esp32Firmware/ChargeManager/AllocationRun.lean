import Esp32Firmware.ChargeManager.DistributionSteps

/-!
# The allocation as a run of steps

All stages together are a run of steps. After stage 1 only chargers that are not off
are touched, and each charge mode touches only its own chargers.

A fatal error or a charger that does not react shuts all chargers down. A charger
that is off or unreachable is shut down in every run.
-/

namespace Esp32Firmware.ChargeManager

variable {n : Nat}

/-- Only active chargers have a current. -/
def ActiveOnly (sc : StageContext n) : Prop :=
  ∀ i, sc.phaseAllocation i = 0 → sc.currentAllocation i = 0

theorem AllocationStep.activeOnly {env : StageEnv n} {t : Period} {i : Fin n}
    {sc sc' : StageContext n} (h : AllocationStep env t i sc sc') (hsc : ActiveOnly sc) :
    ActiveOnly sc' := by
  intro j hj
  rcases eq_or_ne j i with rfl | hji
  · cases h with
    | keep writes _ | exceeds _ writes _ _ =>
      rw [writes.current, Function.update_self]
      rw [writes.phases, Function.update_self] at hj
      exact hsc j hj
    | connect _ writes _ _ idle | setPhases _ _ writes _ idle _ =>
      rw [writes.current, Function.update_self, idle]
    | refund _ writes _ _ => rw [writes.current, Function.update_self]
    | minimum _ writes _ _ active _ | additional _ writes _ active _ _ _ _ _ =>
      rw [writes.phases, Function.update_self] at hj
      exact absurd hj active
    | wake _ _ _ _ writes _ _ valid _ _ =>
      rw [writes.phases, Function.update_self] at hj
      subst hj
      exact absurd valid (by decide)
  · rw [h.current_of_ne hji]
    exact hsc j (by rwa [h.phases_of_ne hji] at hj)

theorem Steps.activeOnly {env : StageEnv n} {t : Period} {g : Fin n → Prop} {sc sc' : StageContext n}
    (h : Steps env t g sc sc') (hsc : ActiveOnly sc) : ActiveOnly sc' := by
  refine h.invariant (fun a b hp hc _ ha i hi => ?_) (fun _ _ _ _ step => step.activeOnly) hsc
  rw [hc]
  exact ha i (by rwa [hp] at hi)

theorem ActiveOnly.ne_zero {sc : StageContext n} (h : ActiveOnly sc) (i : Fin n)
    (hi : 0 < sc.currentAllocation i) : sc.phaseAllocation i ≠ 0 :=
  fun h0 => hi.ne' (h i h0)

section

variable (env : StageEnv n) (l : List (Fin n)) (sc : StageContext n)

theorem undoStage6_foldl (i : Fin n) :
    (l.foldl (undoStage6Charger env) sc).phaseAllocation = sc.phaseAllocation ∧
      (l.foldl (undoStage6Charger env) sc).currentAllocation i =
        if i ∈ l then 0 else sc.currentAllocation i := by
  induction l generalizing sc with
  | nil => simp
  | cons j rest ih =>
    obtain ⟨hphases, hcurrent⟩ := ih (undoStage6Charger env sc j)
    refine ⟨hphases, hcurrent.trans ?_⟩
    have hj : (undoStage6Charger env sc j).currentAllocation =
        Function.update sc.currentAllocation j 0 := rfl
    rw [hj]
    rcases eq_or_ne i j with rfl | hij
    · simp
    · simp [hij]

/-- Undoing stage 6 takes the current of the group back. -/
theorem undoStage6_current (hsc : Indexed sc) :
    (undoStage6 env sc).phaseAllocation = sc.phaseAllocation ∧
      ∀ i ∈ sc.group, (undoStage6 env sc).currentAllocation i = min 0 (sc.currentAllocation i) := by
  have hsel := filterChargers_selected (fun i => decide (sc.currentAllocation i > 0)) sc
    hsc.count_le
  have hfold := undoStage6_foldl env ((filterChargers (fun i =>
    decide (sc.currentAllocation i > 0)) sc).1.idxArray.take (filterChargers (fun i =>
    decide (sc.currentAllocation i > 0)) sc).2) (filterChargers (fun i =>
    decide (sc.currentAllocation i > 0)) sc).1
  refine ⟨funext fun i => congrFun (hfold i).1 i, fun i hi => (hfold i).2.trans ?_⟩
  have hmem := @Selected.mem_iff _ _ _ _ _ hsel i
  split_ifs with hin
  · have := of_decide_eq_true (hmem.mp hin).2
    exact (min_eq_left (le_of_lt this)).symm
  · have hle : ¬ 0 < sc.currentAllocation i :=
      fun h => hin (hmem.mpr ⟨hi, decide_eq_true h⟩)
    exact (min_eq_right (not_lt.mp hle)).symm

theorem stage6_foldl (hactive : ∀ i ∈ l, sc.phaseAllocation i ≠ 0) (i : Fin n) :
    (l.foldl (stage6Charger env) sc).phaseAllocation = sc.phaseAllocation ∧
      ((l.foldl (stage6Charger env) sc).currentAllocation i = sc.currentAllocation i ∨
        (l.foldl (stage6Charger env) sc).currentAllocation i =
          minimumCurrent env.cfg (sc.phaseAllocation i)) := by
  induction l generalizing sc with
  | nil => exact ⟨rfl, Or.inl rfl⟩
  | cons j rest ih =>
    have hrest : ∀ k ∈ rest, sc.phaseAllocation k ≠ 0 :=
      fun k hk => hactive k (List.mem_cons_of_mem j hk)
    rw [List.foldl_cons]
    rcases @stage6Charger_cases _ env sc j (hactive j List.mem_cons_self) with
      ⟨_, hsame⟩ | ⟨_, hmin⟩
    · rw [hsame]
      exact ih { sc with exceeded := sc.exceeded ++ [6] } hrest
    · rw [hmin]
      obtain ⟨hphases, hcurrent⟩ := ih (((sc.setCurrentDecision j .minimum).setCurrent j
        (minimumCurrent env.cfg (sc.phaseAllocation j))).applyCost (sc.minimumCost env j)) hrest
      refine ⟨hphases, ?_⟩
      rcases hcurrent with hcurrent | hcurrent
      · rw [hcurrent]
        rcases eq_or_ne i j with rfl | hij
        · exact Or.inr (Function.update_self i _ _)
        · exact Or.inl (Function.update_of_ne hij _ _)
      · exact Or.inr hcurrent

/-- Stage 6 allocates nothing but minimum currents. -/
theorem stage6_current (hsc : Indexed sc) (i : Fin n) :
    (stage6 env sc).phaseAllocation = sc.phaseAllocation ∧
      ((stage6 env sc).currentAllocation i = sc.currentAllocation i ∨
        (stage6 env sc).currentAllocation i = minimumCurrent env.cfg (sc.phaseAllocation i)) := by
  have hsel := filterChargers_selected
    (fun i => decide (sc.phaseAllocation i > 0) && decide (sc.currentAllocation i = 0)) sc
    hsc.count_le
  refine stage6_foldl env _ _ (fun j hj => ?_) i
  have hp := (hsel.mem_iff.mp hj).2
  rw [Bool.and_eq_true, decide_eq_true_eq] at hp
  exact UInt8.pos_iff_ne_zero.mp hp.1

end

/-- The chargers that are not off are in front of the index array. -/
structure Fronted (env : StageEnv n) (count : Nat) (sc : StageContext n) : Prop where
  perm : sc.idxArray.Perm (List.finRange n)
  count_le : count ≤ n
  mem_take : ∀ i, i ∈ sc.idxArray.take count ↔ (env.chargerState i).off = false

theorem SameGroup.take_perm {sc sc' : StageContext n} (h : SameGroup sc sc') {count : Nat}
    (hcount : sc.chargerCount ≤ count) : (sc'.idxArray.take count).Perm (sc.idxArray.take count) := by
  have hsplit : ∀ xs : List (Fin n), xs.take count =
      xs.take sc.chargerCount ++ (xs.drop sc.chargerCount).take (count - sc.chargerCount) := by
    intro xs
    rw [← List.take_add, Nat.add_sub_cancel' hcount]
  have hgroup := h.group
  rw [StageContext.group, StageContext.group, h.count] at hgroup
  rw [hsplit, hsplit, h.rest]
  exact hgroup.append_right _

theorem Fronted.sameGroup {env : StageEnv n} {count : Nat} {sc sc' : StageContext n}
    (h : Fronted env count sc) (hgroup : SameGroup sc sc') (hcount : sc.chargerCount ≤ count) :
    Fronted env count sc' where
  perm := (hgroup.indexed ⟨h.perm, hcount.trans h.count_le⟩).perm
  count_le := h.count_le
  mem_take i := (hgroup.take_perm hcount).mem_iff.trans (h.mem_take i)

/-- The group of a context is narrowed to the chargers that match. -/
def narrow (p : Fin n → Bool) (count : Nat) (sc : StageContext n) : StageContext n :=
  { (filterChargersImpl p sc count).1 with chargerCount := (filterChargersImpl p sc count).2 }

section

variable {p : Fin n → Bool} {count : Nat} {sc : StageContext n}

theorem narrow_selected (hcount : count ≤ sc.idxArray.length) :
    Selected p { sc with chargerCount := count }
      (filterChargers p { sc with chargerCount := count }).1 (narrow p count sc).chargerCount :=
  filterChargers_selected p { sc with chargerCount := count } hcount

theorem narrow_indexed (hperm : sc.idxArray.Perm (List.finRange n)) (hcount : count ≤ n) :
    Indexed (narrow p count sc) := by
  have hlen : count ≤ sc.idxArray.length := by rwa [hperm.length_eq, List.length_finRange]
  have hsel := @narrow_selected _ p _ _ hlen
  have hidx := @SameGroup.indexed _ _ _ hsel.sameGroup ⟨hperm, hcount⟩
  exact ⟨hidx.perm, hsel.matched_le.trans hcount⟩

theorem mem_narrow (hperm : sc.idxArray.Perm (List.finRange n)) (hcount : count ≤ n) {i : Fin n} :
    i ∈ (narrow p count sc).group ↔ i ∈ sc.idxArray.take count ∧ p i = true := by
  have hlen : count ≤ sc.idxArray.length := by rwa [hperm.length_eq, List.length_finRange]
  exact (@narrow_selected _ p _ _ hlen).mem_iff

theorem narrow_fronted {env : StageEnv n} (h : Fronted env count sc) :
    Fronted env count (narrow p count sc) := by
  have hlen : count ≤ sc.idxArray.length := by
    rw [h.perm.length_eq, List.length_finRange]
    exact h.count_le
  have hgroup := (@narrow_selected _ p _ _ hlen).sameGroup
  exact ⟨(narrow_indexed h.perm h.count_le).perm, h.count_le,
    fun i => (hgroup.take_perm le_rfl).mem_iff.trans (h.mem_take i)⟩

end

section

variable {env : StageEnv n} {i : Fin n}

/-- Stage 1 leaves no phases to chargers that are off, and explains it with a 0p decision. -/
theorem stage1_off (hoff : (env.chargerState i).off = true) {sc : StageContext n}
    (hcount : sc.chargerCount = n) (hzero : ∀ j, sc.currentAllocation j = 0) :
    (stage1 env sc).phaseAllocation i = 0 ∧
      ((stage1 env sc).chargerDecisions i).one = (sc.chargerDecisions i).one ∧
      ((stage1 env sc).chargerDecisions i).three = (sc.chargerDecisions i).three := by
  obtain ⟨rotationAllowed, waiting, c, hsame, hphases, hdecisions⟩ :=
    @stage1_visits _ env _ hcount hzero i
  rw [hphases, hdecisions, ← hsame hoff]
  unfold stage1Charger
  simp only [hoff, Bool.not_true, Bool.and_false, Bool.not_false, if_true]
  split
  · exact ⟨by assumption, rfl, rfl⟩
  · refine ⟨Function.update_self i _ _, ?_⟩
    have hzeroDecision : ∀ d, ((c.setZeroDecision i d).chargerDecisions i).one =
          (c.chargerDecisions i).one ∧
        ((c.setZeroDecision i d).chargerDecisions i).three = (c.chargerDecisions i).three := by
      intro d
      simp [StageContext.setZeroDecision, StageContext.modifyDecision]
    split_ifs <;> first | exact hzeroDecision _ | exact ⟨rfl, rfl⟩

end

/-- A context in which no current is allocated yet. -/
structure Fresh (sc : StageContext n) : Prop where
  perm : sc.idxArray.Perm (List.finRange n)
  count : sc.chargerCount = n
  current : ∀ i, sc.currentAllocation i = 0

/-- The context after stage 1. Its group are the chargers that are not off. -/
def afterStage1 (env : StageEnv n) (sc : StageContext n) : StageContext n :=
  let sc := stage1 env (decisionPreprocess env sc)
  narrow (fun i => !(env.chargerState i).off) sc.chargerCount sc

/-- What stage 1 leaves to the other stages. -/
structure Prepared (env : StageEnv n) (sc sc' : StageContext n) : Prop where
  fronted : Fronted env sc'.chargerCount sc'
  steps : Steps env .first (fun _ => True) sc sc'
  current : ∀ i, sc'.currentAllocation i = 0
  limits : sc'.limits = sc.limits
  exceeded : sc'.exceeded = sc.exceeded
  off : ∀ i, (env.chargerState i).off = true → sc'.phaseAllocation i = 0

section

variable {env : StageEnv n} {sc : StageContext n}

theorem Fronted.indexed {count : Nat} (h : Fronted env count sc) (hcount : sc.chargerCount ≤ count) :
    Indexed sc :=
  ⟨h.perm, hcount.trans h.count_le⟩

theorem afterStage1_prepared (hsc : Fresh sc) : Prepared env sc (afterStage1 env sc) := by
  have hpre := sameBooks_decisionPreprocess env sc
  have hzero : ∀ i, (decisionPreprocess env sc).currentAllocation i = 0 :=
    fun i => (congrFun hpre.current i).trans (hsc.current i)
  have hrun := (PhaseRun.of_sameBooks hpre).trans (stage1_run env hzero)
  have hidx := hrun.sameGroup.indexed ⟨hsc.perm, hsc.count.le⟩
  have hcount : (stage1 env (decisionPreprocess env sc)).chargerCount = n :=
    hrun.sameGroup.count.trans hsc.count
  refine ⟨⟨(narrow_indexed hidx.perm hidx.count).perm, (narrow_indexed hidx.perm hidx.count).count,
    fun i => ?_⟩, hrun.steps.trans (.context rfl rfl rfl rfl fun _ _ => rfl), fun i => ?_,
    hrun.limits, hrun.exceeded, fun i hoff => ?_⟩
  · refine (mem_narrow hidx.perm hidx.count).trans ?_
    rw [hcount, List.take_of_length_le hidx.length_eq.le, hidx.perm.mem_iff]
    simp
  · exact (congrFun hrun.current i).trans (hsc.current i)
  · exact (stage1_off hoff (hpre.count.trans hsc.count) hzero).1

/-- The context in which a charge mode is allocated. -/
def enterMode (env : StageEnv n) (count : Nat) (sc : StageContext n) (mode : ChargeMode) :
    StageContext n :=
  narrow (fun i => inModeGroup (modeFilter mode) (env.chargerState i)) count
    { sc with chargeModeFilter := modeFilter mode }

/-- The context of a charge mode before its minimum currents are allocated. -/
def activateMode (env : StageEnv n) (count : Nat) (sc : StageContext n) (mode : ChargeMode) :
    StageContext n :=
  stage5 env (stage4 env (undoStage6 env (enterMode env count sc mode)))

theorem allocateMode_eq (count : Nat) (mode : ChargeMode) :
    allocateMode env count sc mode =
      stage8 env false (stage7 env (stage6 env (activateMode env count sc mode))) := rfl

/-- The chargers a charge mode works on. -/
def ModeGroup (env : StageEnv n) (mode : ChargeMode) (i : Fin n) : Prop :=
  (env.chargerState i).off = false ∧ inModeGroup (modeFilter mode) (env.chargerState i) = true

/-- A charger that has at most the minimum current. -/
def MinimumOnly (env : StageEnv n) (sc : StageContext n) (i : Fin n) : Prop :=
  sc.currentAllocation i = 0 ∨
    sc.currentAllocation i = minimumCurrent env.cfg (sc.phaseAllocation i)

variable {count : Nat} {mode : ChargeMode}

section

variable (hfront : Fronted env count sc)
include hfront

theorem enterMode_indexed : Indexed (enterMode env count sc mode) :=
  narrow_indexed hfront.perm hfront.count_le

theorem enterMode_count_le : (enterMode env count sc mode).chargerCount ≤ count := by
  refine (@narrow_selected _ _ count { sc with chargeModeFilter := modeFilter mode } ?_).matched_le
  rw [hfront.perm.length_eq, List.length_finRange]
  exact hfront.count_le

theorem enterMode_fronted : Fronted env count (enterMode env count sc mode) := by
  have hfilter : Fronted env count { sc with chargeModeFilter := modeFilter mode } :=
    ⟨hfront.perm, hfront.count_le, hfront.mem_take⟩
  exact narrow_fronted hfilter

theorem mem_enterMode (i : Fin n) :
    i ∈ (enterMode env count sc mode).group ↔ ModeGroup env mode i := by
  refine (mem_narrow hfront.perm hfront.count_le).trans ?_
  exact and_congr_left fun _ => hfront.mem_take i

/-- Stages 4 and 5 of a charge mode find no current in the group and leave none. -/
theorem activateMode_run (hmin : ∀ i, ModeGroup env mode i → MinimumOnly env sc i) :
    StageRun env .middle (enterMode env count sc mode) (undoStage6 env (enterMode env count sc mode)) ∧
      (∀ i, ModeGroup env mode i →
        (undoStage6 env (enterMode env count sc mode)).currentAllocation i = 0) ∧
      PhaseRun env .middle (ModeGroup env mode) (undoStage6 env (enterMode env count sc mode))
        (activateMode env count sc mode) := by
  have hidx := @enterMode_indexed _ _ _ _ mode hfront
  have hmem := @mem_enterMode _ _ _ _ mode hfront
  have hundo : StageRun env .middle (enterMode env count sc mode)
      (undoStage6 env (enterMode env count sc mode)) := by
    refine undoStage6_run hidx fun i hi hpos => ?_
    rcases hmin i ((hmem i).mp hi) with h0 | hm
    · exact absurd h0 hpos.ne'
    · exact hm
  have hzero : ∀ i, ModeGroup env mode i →
      (undoStage6 env (enterMode env count sc mode)).currentAllocation i = 0 := by
    intro i hi
    refine ((undoStage6_current env _ hidx).2 i ((hmem i).mpr hi)).trans (min_eq_left ?_)
    rcases hmin i hi with h0 | hm
    · exact h0.ge
    · exact (minimumCurrent_pos env.cfg _).le.trans_eq hm.symm
  have hgroup : ∀ i, i ∈ (undoStage6 env (enterMode env count sc mode)).group ↔
      ModeGroup env mode i := fun i => hundo.sameGroup.mem_iff.trans (hmem i)
  have h4 := @stage4_run _ env _ (hundo.indexed hidx) fun i hi => hzero i ((hgroup i).mp hi)
  have hidx4 := h4.sameGroup.indexed (hundo.indexed hidx)
  have h5 := @stage5_run _ env _ hidx4 fun i hi => by
    rw [h4.current]
    exact hzero i ((hgroup i).mp (h4.sameGroup.mem_iff.mp hi))
  refine ⟨hundo, hzero, ?_⟩
  exact (h4.mono fun i => (hgroup i).mp).trans
    (h5.mono fun i hi => (hgroup i).mp (h4.sameGroup.mem_iff.mp hi))

/-- A charge mode takes steps of its own chargers only. -/
theorem allocateMode_run (hactive : ActiveOnly sc)
    (hmin : ∀ i, ModeGroup env mode i → MinimumOnly env sc i) :
    Fronted env count (allocateMode env count sc mode) ∧
      Steps env .middle (ModeGroup env mode) sc (allocateMode env count sc mode) := by
  obtain ⟨hundo, _, hactivate⟩ := activateMode_run hfront hmin
  have hidx := @enterMode_indexed _ _ _ _ mode hfront
  have hgroup := @mem_enterMode _ _ _ _ mode hfront
  have henter : Steps env .middle (ModeGroup env mode) sc (enterMode env count sc mode) :=
    .context rfl rfl rfl rfl fun _ _ => rfl
  have hsteps5 := (henter.trans (hundo.steps.mono fun i => (hgroup i).mp)).trans hactivate.steps
  have hsame5 := hundo.sameGroup.trans hactivate.sameGroup
  have h6 := @stage6_run _ env _ (hsame5.indexed hidx)
  have hsame6 := hsame5.trans h6.sameGroup
  have hsteps6 := hsteps5.trans (h6.steps.mono fun i hi => (hgroup i).mp (hsame5.mem_iff.mp hi))
  have h7 := @stage7_run _ env .middle _ (by simp) (hsame6.indexed hidx) (hsteps6.activeOnly hactive).ne_zero
  have hsame7 := hsame6.trans h7.sameGroup
  have hsteps7 := hsteps6.trans (h7.steps.mono fun i hi => (hgroup i).mp (hsame6.mem_iff.mp hi))
  have h8 := @stage8_run _ env .middle _ false (hsame7.indexed hidx)
    (hsteps7.activeOnly hactive).ne_zero
  refine ⟨(enterMode_fronted hfront).sameGroup (hsame7.trans h8.sameGroup)
    (enterMode_count_le hfront), ?_⟩
  exact hsteps7.trans (h8.steps.mono fun i hi => (hgroup i).mp (hsame7.mem_iff.mp hi))

end

/-- A charger belongs to one charge mode at most. -/
theorem modeGroup_unique {mode' : ChargeMode} (hmode : mode ∈ allocatedModes)
    (hmode' : mode' ∈ allocatedModes) {i : Fin n} (h : ModeGroup env mode i)
    (h' : ModeGroup env mode' i) : mode = mode' := by
  have hbit : getHighestChargeModeBit (env.chargerState i) ∈ [0, 1, 2, 4, 8] := by
    unfold getHighestChargeModeBit
    split_ifs <;> decide
  have hin := h.2
  have hin' := h'.2
  unfold inModeGroup at hin hin'
  generalize getHighestChargeModeBit (env.chargerState i) = bit at hbit hin hin'
  have hall : ∀ bit ∈ [0, 1, 2, 4, 8], ∀ m ∈ allocatedModes, ∀ m' ∈ allocatedModes,
      (bit &&& modeFilter m != 0) = true → (bit &&& modeFilter m' != 0) = true → m = m' := by
    decide
  exact hall bit hbit mode hmode mode' hmode' hin hin'

/-- A charge mode does not touch the chargers of another one. -/
theorem Steps.otherMode {mode' : ChargeMode} {sc' : StageContext n}
    (h : Steps env .middle (ModeGroup env mode) sc sc') (hmode : mode ∈ allocatedModes)
    (hmode' : mode' ∈ allocatedModes) (hne : mode' ≠ mode) {i : Fin n}
    (hi : ModeGroup env mode' i) :
    sc'.phaseAllocation i = sc.phaseAllocation i ∧
      sc'.currentAllocation i = sc.currentAllocation i :=
  h.outside fun hi' => hne (modeGroup_unique hmode' hmode hi hi')

theorem allocateModes_run {modes : List ChargeMode} (hnodup : modes.Nodup)
    (hmodes : ∀ mode ∈ modes, mode ∈ allocatedModes) (hfront : Fronted env count sc)
    (hactive : ActiveOnly sc)
    (hmin : ∀ mode ∈ modes, ∀ i, ModeGroup env mode i → MinimumOnly env sc i) :
    Fronted env count (modes.foldl (allocateMode env count) sc) ∧
      Steps env .middle (fun i => ∃ mode ∈ modes, ModeGroup env mode i) sc
        (modes.foldl (allocateMode env count) sc) := by
  induction modes generalizing sc with
  | nil => exact ⟨hfront, .refl sc⟩
  | cons mode rest ih =>
    obtain ⟨hnew, hrest⟩ := List.nodup_cons.mp hnodup
    rw [List.foldl_cons]
    obtain ⟨hfront', hsteps⟩ := allocateMode_run hfront hactive (hmin mode List.mem_cons_self)
    have htail := ih hrest (fun m hm => hmodes m (List.mem_cons_of_mem mode hm)) hfront'
      (hsteps.activeOnly hactive) fun m hm i hi => by
        obtain ⟨hphases, hcurrent⟩ := hsteps.otherMode (hmodes mode List.mem_cons_self)
          (hmodes m (List.mem_cons_of_mem mode hm)) (ne_of_mem_of_not_mem hm hnew) hi
        have hbefore := hmin m (List.mem_cons_of_mem mode hm) i hi
        rwa [MinimumOnly, hphases, hcurrent]
    exact ⟨htail.1, (hsteps.mono fun i hi => ⟨mode, List.mem_cons_self, hi⟩).trans
      (htail.2.mono fun i hi => hi.imp fun m hm => ⟨List.mem_cons_of_mem mode hm.1, hm.2⟩)⟩

/-- The context after stage 3. -/
def afterStage3 (env : StageEnv n) (sc : StageContext n) : StageContext n :=
  stage3 env (stage2 env (afterStage1 env sc))

theorem beforeWakeUp_eq (env : StageEnv n) (sc : StageContext n) :
    beforeWakeUp env sc =
      { allocatedModes.foldl (allocateMode env (afterStage1 env sc).chargerCount)
          (stage6 env (afterStage3 env sc)) with
        chargerCount := (afterStage1 env sc).chargerCount } := rfl

theorem afterStage3_run (hsc : Fresh sc) :
    PhaseRun env .middle (· ∈ (afterStage1 env sc).group) (afterStage1 env sc)
      (afterStage3 env sc) := by
  have hprep := @afterStage1_prepared _ env _ hsc
  have hidx := hprep.fronted.indexed le_rfl
  have h2 := @stage2_run _ env _ hidx fun i _ => hprep.current i
  have h3 := @stage3_run _ env _ (h2.sameGroup.indexed hidx) fun i _ => by
    rw [h2.current]
    exact hprep.current i
  exact h2.trans (h3.mono fun i hi => h2.sameGroup.mem_iff.mp hi)

theorem afterStage3_indexed (hsc : Fresh sc) :
    Indexed (afterStage3 env sc) ∧ (∀ i, (afterStage3 env sc).currentAllocation i = 0) ∧
      ∀ i, i ∈ (afterStage3 env sc).group ↔ (env.chargerState i).off = false := by
  have hprep := @afterStage1_prepared _ env _ hsc
  have hrun := @afterStage3_run _ env _ hsc
  refine ⟨hrun.sameGroup.indexed (hprep.fronted.indexed le_rfl), fun i => ?_, fun i => ?_⟩
  · rw [hrun.current]
    exact hprep.current i
  · exact hrun.sameGroup.mem_iff.trans (hprep.fronted.mem_take i)

theorem firstMinimum (hsc : Fresh sc) (i : Fin n) :
    MinimumOnly env (stage6 env (afterStage3 env sc)) i := by
  obtain ⟨hidx, hzero, _⟩ := @afterStage3_indexed _ env _ hsc
  obtain ⟨hphases, hcurrent⟩ := stage6_current env _ hidx i
  unfold MinimumOnly
  rwa [hphases, ← hzero i]

/-- Before the wake-up stage nothing is woken up, and chargers that are off are not touched. -/
theorem beforeWakeUp_run (hsc : Fresh sc) :
    Fronted env (beforeWakeUp env sc).chargerCount (beforeWakeUp env sc) ∧
      Steps env .middle (fun i => (env.chargerState i).off = false) (afterStage3 env sc)
        (beforeWakeUp env sc) := by
  have hprep := @afterStage1_prepared _ env _ hsc
  have h3 := @afterStage3_run _ env _ hsc
  obtain ⟨hidx, hzero, hgroup⟩ := @afterStage3_indexed _ env _ hsc
  have h6 := @stage6_run _ env _ hidx
  have hsteps := h6.steps.mono fun i => (hgroup i).mp
  have hactive : ActiveOnly (afterStage3 env sc) := fun i _ => hzero i
  obtain ⟨hfront, hmodes⟩ := @allocateModes_run _ env _ (afterStage1 env sc).chargerCount
    allocatedModes (by decide) (fun _ h => h)
    (hprep.fronted.sameGroup (h3.sameGroup.trans h6.sameGroup) le_rfl)
    (hsteps.activeOnly hactive) fun _ _ i _ => firstMinimum hsc i
  have hon : ∀ i, (∃ mode ∈ allocatedModes, ModeGroup env mode i) →
      (env.chargerState i).off = false := by
    rintro i ⟨_, _, hi⟩
    exact hi.1
  rw [beforeWakeUp_eq]
  generalize allocatedModes.foldl _ _ = last at hfront hmodes ⊢
  have hfront' : Fronted env (afterStage1 env sc).chargerCount
      { last with chargerCount := (afterStage1 env sc).chargerCount } :=
    ⟨hfront.perm, hfront.count_le, hfront.mem_take⟩
  exact ⟨hfront', (hsteps.trans (hmodes.mono hon)).trans (.context rfl rfl rfl rfl fun _ _ => rfl)⟩

/-- The period from the wake-up on. -/
def wakeUpPeriod (env : StageEnv n) (sc : StageContext n) : Period :=
  .last (decide ((beforeWakeUp env sc).caState.controlWindowMin.pv ≠ 0))

/-- The context before the repair of the decisions. -/
def beforePostprocess (env : StageEnv n) (sc : StageContext n) : StageContext n :=
  stage8 env true (stage9 env (beforeWakeUp env sc))

/-- The last stages wake chargers up and distribute what is left over. -/
theorem runStages_run (hsc : Fresh sc) :
    StageRun env (wakeUpPeriod env sc) (beforeWakeUp env sc) (stage9 env (beforeWakeUp env sc)) ∧
      StageRun env (wakeUpPeriod env sc) (stage9 env (beforeWakeUp env sc))
        (beforePostprocess env sc) ∧
      SameBooks (fun _ => True) (beforePostprocess env sc) (runStages env sc) ∧
      ∀ i, i ∈ (beforeWakeUp env sc).group ↔ (env.chargerState i).off = false := by
  obtain ⟨hfront, hsteps⟩ := @beforeWakeUp_run _ env _ hsc
  have hidx := hfront.indexed le_rfl
  have h9 := @stage9_run _ env _ hidx
  obtain ⟨_, hzero, _⟩ := @afterStage3_indexed _ env _ hsc
  have hactive : ActiveOnly (afterStage3 env sc) := fun i _ => hzero i
  have h8 := @stage8_run _ env (wakeUpPeriod env sc) _ true (h9.indexed hidx)
    (h9.steps.activeOnly (hsteps.activeOnly hactive)).ne_zero
  exact ⟨h9, h8, sameBooks_decisionPostprocess _, hfront.mem_take⟩

/-- After the wake-up phases do not change any more. -/
theorem runStages_phases (hsc : Fresh sc) :
    (runStages env sc).phaseAllocation = (stage9 env (beforeWakeUp env sc)).phaseAllocation := by
  obtain ⟨hfront, hsteps⟩ := @beforeWakeUp_run _ env _ hsc
  obtain ⟨h9, _, hpost, _⟩ := @runStages_run _ env _ hsc
  obtain ⟨_, hzero, _⟩ := @afterStage3_indexed _ env _ hsc
  have hactive : ActiveOnly (afterStage3 env sc) := fun i _ => hzero i
  have h8 := @stage8_run _ env .share _ true (h9.indexed (hfront.indexed le_rfl))
    (h9.steps.activeOnly (hsteps.activeOnly hactive)).ne_zero
  exact hpost.phases.trans h8.steps.share_phases

/-- After stage 1 a charger that is off is not touched until the decisions are repaired. -/
theorem beforePostprocess_off (hsc : Fresh sc) {i : Fin n} (hoff : (env.chargerState i).off = true) :
    (beforePostprocess env sc).phaseAllocation i = 0 ∧
      (beforePostprocess env sc).currentAllocation i = 0 ∧
      (beforePostprocess env sc).chargerDecisions i = (afterStage1 env sc).chargerDecisions i := by
  have hprep := @afterStage1_prepared _ env _ hsc
  have hout : ¬ (env.chargerState i).off = false := by simp [hoff]
  obtain ⟨_, hbefore⟩ := @beforeWakeUp_run _ env _ hsc
  obtain ⟨h9, h8, _, hgroup⟩ := @runStages_run _ env _ hsc
  have h3 := (@afterStage3_run _ env _ hsc).steps.mono fun j => (hprep.fronted.mem_take j).mp
  have hsteps9 := h9.steps.mono fun j => (hgroup j).mp
  have hsteps8 := h8.steps.mono fun j hj => (hgroup j).mp (h9.sameGroup.mem_iff.mp hj)
  obtain ⟨hphases3, hcurrent3⟩ := h3.outside hout
  obtain ⟨hphases, hcurrent⟩ := hbefore.outside hout
  obtain ⟨hphases9, hcurrent9⟩ := hsteps9.outside hout
  obtain ⟨hphases8, hcurrent8⟩ := hsteps8.outside hout
  rw [hphases8, hphases9, hphases, hphases3, hcurrent8, hcurrent9, hcurrent, hcurrent3,
    hsteps8.decisions_outside hout, hsteps9.decisions_outside hout, hbefore.decisions_outside hout,
    h3.decisions_outside hout]
  exact ⟨hprep.off i hoff, hprep.current i, rfl⟩

/-- A charger that is off gets neither phases nor current. -/
theorem runStages_off (hsc : Fresh sc) {i : Fin n} (hoff : (env.chargerState i).off = true) :
    (runStages env sc).phaseAllocation i = 0 ∧ (runStages env sc).currentAllocation i = 0 := by
  obtain ⟨_, _, hpost, _⟩ := @runStages_run _ env _ hsc
  obtain ⟨hphases, hcurrent, _⟩ := @beforePostprocess_off _ env _ hsc i hoff
  exact ⟨(congrFun hpost.phases i).trans hphases, (congrFun hpost.current i).trans hcurrent⟩

end

variable (input : AllocatorInput n)

theorem initialContext_fresh : Fresh input.initialContext := ⟨.refl _, rfl, fun _ => rfl⟩

/-- The error handling changes nothing but the off flag. -/
theorem env_chargerState (i : Fin n) :
    ∃ off, input.env.chargerState i = { input.chargerState i with off := off } := by
  have hhandled : ∃ off, (input.handled i).1 = { input.chargerState i with off := off } := by
    unfold AllocatorInput.handled handleErrors handleUnreachable
    split_ifs
    · exact ⟨true, rfl⟩
    all_goals exact ⟨_, rfl⟩
  obtain ⟨off, hoff⟩ := hhandled
  unfold AllocatorInput.env
  simp only
  split_ifs
  · exact ⟨true, by rw [hoff]⟩
  · exact ⟨off, hoff⟩

/-- The current of an allocation is stored in 16 bits. -/
theorem toNat_ofInt (x : Int) : ((UInt16.ofInt x).toNat : Int) = x % 65536 := by
  have hnonneg : 0 ≤ x % 2 ^ 16 := Int.emod_nonneg x (by decide)
  rw [UInt16.ofInt, UInt16.toNat_ofNat', Nat.mod_eq_of_lt (by omega), Int.toNat_of_nonneg hnonneg]
  rfl

theorem toNat_ofInt_le {x : Int} (hx : 0 ≤ x) : ((UInt16.ofInt x).toNat : Int) ≤ x := by
  rw [toNat_ofInt]
  omega

variable {n : Nat} (input : AllocatorInput n) (i : Fin n)

/-- A charger that may not charge. -/
def ChargerAllocationState.IsShutDown (alloc : ChargerAllocationState) : Prop :=
  alloc.allocatedPhases = 0 ∧ alloc.allocatedCurrent = 0

theorem shutDown_of_off (hoff : (input.env.chargerState i).off = true) :
    ((allocateCurrent input).chargerAllocationState i).IsShutDown := by
  obtain ⟨hphases, hcurrent⟩ := runStages_off (initialContext_fresh input) hoff
  exact ⟨congrArg UInt8.toInt8 hphases, congrArg UInt16.ofInt hcurrent⟩

section

variable {now : Int} {charger : ChargerState} {alloc : ChargerAllocationState}

/-- An unreachable charger is turned off. -/
theorem handleUnreachable_off (h : charger.off = true ∨ isUnreachable now charger = true) :
    (handleUnreachable now charger alloc).1.off = true := by
  unfold handleUnreachable
  split
  · split
    · rfl
    · next hreachable => exact h.resolve_right hreachable
  · next hrecent =>
      have hoff : charger.off = true := h.resolve_right fun hu =>
        hrecent (lt_trans (by decide) (of_decide_eq_true hu))
      split <;> exact hoff

/-- The error handling adds no fatal error. -/
theorem handleUnreachable_error :
    (handleUnreachable now charger alloc).2.error = alloc.error ∨
      (handleUnreachable now charger alloc).2.error.isFatal = false := by
  unfold handleUnreachable
  simp only
  split_ifs
  · exact Or.inr rfl
  · exact Or.inl rfl
  · exact Or.inl rfl
  · exact Or.inr rfl
  · exact Or.inl rfl

theorem handleNonreactive_error (chargerError : CASError) :
    (handleNonreactive now charger chargerError alloc).error = alloc.error ∨
      (handleNonreactive now charger chargerError alloc).error.isFatal = false := by
  unfold handleNonreactive
  split_ifs
  · exact Or.inr rfl
  · exact Or.inl rfl
  · exact Or.inr rfl
  · exact Or.inl rfl

theorem isNonreactive_handleUnreachable :
    isNonreactive now (handleUnreachable now charger alloc).1
      (handleUnreachable now charger alloc).2 = isNonreactive now charger alloc := by
  have hcases : ∃ off state error, handleUnreachable now charger alloc =
      ({ charger with off := off }, { alloc with state := state, error := error }) := by
    unfold handleUnreachable
    split_ifs <;> exact ⟨_, _, _, rfl⟩
  obtain ⟨off, state, error, hhandled⟩ := hcases
  rw [hhandled]
  rfl

end

theorem off_of_unreachable
    (h : (input.chargerState i).off = true ∨ isUnreachable input.now (input.chargerState i) = true) :
    (input.env.chargerState i).off = true := by
  have hhandled : (input.handled i).1.off = true := handleUnreachable_off h
  unfold AllocatorInput.env
  split_ifs
  · rfl
  · exact hhandled

theorem off_of_unreachableEvseFound (h : input.unreachableEvseFound = true) :
    (input.env.chargerState i).off = true := by
  unfold AllocatorInput.env
  simp only [h, if_true]

/-- A fatal error after the error handling was there before. -/
theorem isFatal_of_env (h : (input.env.chargerAllocationState i).error.isFatal = true) :
    (input.chargerAllocationState i).error.isFatal = true := by
  have hfatal : (input.handled i).2.1.error.isFatal = true := h
  rcases @handleNonreactive_error input.now (handleUnreachable input.now (input.chargerState i)
      (input.requestedAlloc i)).1 (handleUnreachable input.now (input.chargerState i)
      (input.requestedAlloc i)).2 (input.requestedAlloc i).error with hsame | hharmless
  · rcases @handleUnreachable_error input.now (input.chargerState i) (input.requestedAlloc i) with
      hsame' | hharmless
    · have herror : (input.handled i).2.1.error = (input.chargerAllocationState i).error :=
        hsame.trans hsame'
      rwa [herror] at hfatal
    · have herror : (input.handled i).2.1.error = (handleUnreachable input.now
          (input.chargerState i) (input.requestedAlloc i)).2.error := hsame
      rw [herror, hharmless] at hfatal
      exact absurd hfatal (by decide)
  · exact absurd (hfatal.symm.trans hharmless) (by decide)

/-- A fatal error and a charger that does not react turn all chargers off. -/
theorem unreachableEvseFound_of
    (h : (input.env.chargerAllocationState i).error.isFatal = true ∨
      isNonreactive input.now (input.chargerState i) (input.chargerAllocationState i) = true) :
    input.unreachableEvseFound = true := by
  refine List.any_eq_true.mpr ⟨i, List.mem_finRange i, Bool.or_eq_true_iff.mpr ?_⟩
  rcases h with hfatal | hnonreactive
  · exact Or.inl (isFatal_of_env input i hfatal)
  · exact Or.inr (isNonreactive_handleUnreachable.trans hnonreactive)

/-- Fail-safe shutdown. -/
theorem fail_safe_shutdown :
    ((∃ i, (input.env.chargerAllocationState i).error.isFatal = true ∨
        isNonreactive input.now (input.chargerState i) (input.chargerAllocationState i) = true) →
      (allocateCurrent input).result = 2 ∧
        ∀ i, ((allocateCurrent input).chargerAllocationState i).IsShutDown) ∧
    ∀ i, ((input.chargerState i).off = true ∨
        isUnreachable input.now (input.chargerState i) = true) →
      ((allocateCurrent input).chargerAllocationState i).IsShutDown := by
  constructor
  · rintro ⟨i, h⟩
    have hfound := unreachableEvseFound_of input i h
    refine ⟨?_, fun j => shutDown_of_off input j (off_of_unreachableEvseFound input j hfound)⟩
    exact if_pos hfound
  · intro i h
    exact shutDown_of_off input i (off_of_unreachable input i h)

end Esp32Firmware.ChargeManager
