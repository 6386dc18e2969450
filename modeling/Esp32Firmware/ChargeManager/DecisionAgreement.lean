import Esp32Firmware.ChargeManager.CurrentBound

/-!
# Clearing and repairing decisions

Before the stages run the decisions that are re-decided are cleared, after them decisions
that contradict the allocation are repaired.

The repair runs over the numbers below the count of chargers that are not off. It leaves out
the other ones: one that is off may keep a decision of an earlier allocation, and one that is
not off may get decisions that contradict its allocation.
-/

namespace Esp32Firmware.ChargeManager

variable {n : Nat}

/-- The decisions of a charger agree with the phases it is allocated. -/
structure ChargerDecision.Agrees (d : ChargerDecision) (phases : UInt8) : Prop where
  zero : phases = 0 → d.one.isYes = false ∧ d.three.isYes = false
  one : phases = 1 → d.one.isYes = true ∧ d.zero.isYes = false ∧ d.three.isYes = false
  three : phases = 3 → d.three.isYes = true ∧ d.zero.isYes = false ∧ d.one.isYes = false

/-- What the repair makes of the decisions of a charger. -/
def ChargerDecision.postprocessed (d : ChargerDecision) (allocd : UInt8) : ChargerDecision :=
  { d with
    zero := if (allocd = 1 ∨ allocd = 3) ∧ d.zero.isYes then .none else d.zero
    one :=
      if (allocd = 0 ∨ allocd = 3) ∧ d.one.isYes then .none
      else if allocd = 1 ∧ !d.one.isYes then .yesNormal
      else d.one
    three :=
      if (allocd = 0 ∨ allocd = 1) ∧ d.three.isYes then .none
      else if allocd = 3 ∧ !d.three.isYes then .yesNormal
      else d.three }

/-- What is kept of the decisions of the last allocation. -/
def ChargerDecision.preprocessed (d : ChargerDecision) (state : ChargerState) : ChargerDecision :=
  if !state.isCharging && !state.wantsToCharge && !state.wantsToChargeLowPriority then
    ⟨.none, .none, .none, .none⟩
  else
    { zero := d.zero.clearBlocks
      one := if d.one.toClearPre then .none else d.one
      three := if d.three.toClearPre then .none else d.three
      current := .none }

namespace ChargerDecision

variable (d : ChargerDecision) (allocd : UInt8)

/-- Repaired decisions agree with the allocation. -/
theorem postprocessed_agrees : (d.postprocessed allocd).Agrees allocd := by
  constructor
  · rintro rfl
    simp only [postprocessed]
    constructor
    · split_ifs <;> simp_all [OnePhaseDecision.isYes]
    · split_ifs <;> simp_all [ThreePhaseDecision.isYes]
  · rintro rfl
    simp only [postprocessed]
    refine ⟨?_, ?_, ?_⟩
    · split_ifs <;> simp_all [OnePhaseDecision.isYes]
    · split_ifs <;> simp_all [ZeroPhaseDecision.isYes]
    · split_ifs <;> simp_all [ThreePhaseDecision.isYes]
  · rintro rfl
    simp only [postprocessed]
    refine ⟨?_, ?_, ?_⟩
    · split_ifs <;> simp_all [ThreePhaseDecision.isYes]
    · split_ifs <;> simp_all [ZeroPhaseDecision.isYes]
    · split_ifs <;> simp_all [OnePhaseDecision.isYes]

end ChargerDecision

variable {env : StageEnv n} {sc : StageContext n} {i : Fin n}

/-- A change of the decisions of a charger that may be left out. -/
theorem modifyDecision_ite {c : StageContext n} {f : ChargerDecision → ChargerDecision}
    (hc : c = sc.modifyDecision i f) (p : Prop) {_ : Decidable p}
    (g : ChargerDecision → ChargerDecision) :
    (if p then c.modifyDecision i g else c) =
      sc.modifyDecision i fun d => if p then g (f d) else f d := by
  subst hc
  split
  · unfold StageContext.modifyDecision
    simp only [Function.update_self, Function.update_idem]
  · rfl

theorem modifyDecision_congr {f g : ChargerDecision → ChargerDecision}
    (h : f (sc.chargerDecisions i) = g (sc.chargerDecisions i)) :
    sc.modifyDecision i f = sc.modifyDecision i g := by
  unfold StageContext.modifyDecision
  rw [h]

/-- The body of `decision_postprocess` repairs the decisions of one charger. -/
theorem decisionPostprocessCharger_eq (sc : StageContext n) (i : Fin n) :
    decisionPostprocessCharger sc i =
      sc.modifyDecision i fun d => d.postprocessed (sc.phaseAllocation i) := by
  unfold decisionPostprocessCharger StageContext.setZeroDecision StageContext.setOneDecision
    StageContext.setThreeDecision
  refine (modifyDecision_ite (modifyDecision_ite (modifyDecision_ite (modifyDecision_ite
    (modifyDecision_ite (modifyDecision_id sc i) _ _) _ _) _ _) _ _) _ _).trans
    (modifyDecision_congr ?_)
  generalize sc.chargerDecisions i = d
  generalize sc.phaseAllocation i = allocd
  unfold ChargerDecision.postprocessed
  by_cases h0 : allocd = 0
  · subst h0
    cases hthree : d.three.isYes <;> cases hone : d.one.isYes <;> simp_all
  · by_cases h1 : allocd = 1
    · subst h1
      cases hthree : d.three.isYes <;> cases hzero : d.zero.isYes <;> cases hone : d.one.isYes <;>
        simp_all
    · by_cases h3 : allocd = 3
      · subst h3
        cases hthree : d.three.isYes <;> cases hzero : d.zero.isYes <;>
          cases hone : d.one.isYes <;> simp_all
      · simp [h0, h1, h3]

/-- A loop over distinct chargers that changes the decisions of one charger at a time. -/
theorem foldl_decisions {phases : Fin n → UInt8} {step : StageContext n → Fin n → StageContext n}
    {f : Fin n → ChargerDecision → ChargerDecision}
    (hstep : ∀ c j, c.phaseAllocation = phases → (step c j).phaseAllocation = phases ∧
        (step c j).chargerDecisions =
          Function.update c.chargerDecisions j (f j (c.chargerDecisions j)))
    {l : List (Fin n)} (hnodup : l.Nodup) (hsc : sc.phaseAllocation = phases) :
    (l.foldl step sc).chargerDecisions i =
      if i ∈ l then f i (sc.chargerDecisions i) else sc.chargerDecisions i := by
  induction l generalizing sc with
  | nil => rfl
  | cons j rest ih =>
    obtain ⟨hnew, hrest⟩ := List.nodup_cons.mp hnodup
    obtain ⟨hphases, hdecisions⟩ := hstep sc j hsc
    rw [List.foldl_cons, ih hrest hphases, hdecisions]
    rcases eq_or_ne i j with rfl | hij
    · rw [if_neg hnew, if_pos List.mem_cons_self, Function.update_self]
    · rw [Function.update_of_ne hij]
      simp [hij]

/-- The repair covers the chargers with a number below the count of the context. -/
theorem decisionPostprocess_decisions (sc : StageContext n) (i : Fin n) :
    (decisionPostprocess sc).chargerDecisions i =
      if i.val < sc.chargerCount then
        (sc.chargerDecisions i).postprocessed (sc.phaseAllocation i)
      else sc.chargerDecisions i := by
  have hloop := @foldl_decisions n sc i sc.phaseAllocation decisionPostprocessCharger
    (fun j d => d.postprocessed (sc.phaseAllocation j)) (fun c j hc => by
      rw [decisionPostprocessCharger_eq]
      exact ⟨hc, by rw [hc]; rfl⟩) sc.numbered (numbered_nodup sc) rfl
  unfold decisionPostprocess
  rw [hloop]
  simp only [mem_numbered]

/-- The clearing keeps the same 1p and 3p decisions of all chargers. -/
theorem decisionPreprocess_decisions (hcount : sc.chargerCount = n) (i : Fin n) :
    ((decisionPreprocess env sc).chargerDecisions i).one =
        ((sc.chargerDecisions i).preprocessed (env.chargerState i)).one ∧
      ((decisionPreprocess env sc).chargerDecisions i).three =
        ((sc.chargerDecisions i).preprocessed (env.chargerState i)).three := by
  have hcharger : ∀ (c : StageContext n) (j : Fin n),
      (decisionPreprocessCharger env c j).phaseAllocation = c.phaseAllocation ∧
        (decisionPreprocessCharger env c j).chargerDecisions = Function.update c.chargerDecisions j
          ((c.chargerDecisions j).preprocessed (env.chargerState j)) := by
    intro c j
    unfold decisionPreprocessCharger ChargerDecision.preprocessed StageContext.setZeroDecision
      StageContext.setOneDecision StageContext.setThreeDecision StageContext.setCurrentDecision
      StageContext.modifyDecision
    simp only
    split <;> simp
  have hmem : i ∈ sc.numbered := (mem_numbered sc i).mpr (i.isLt.trans_eq hcount.symm)
  have hfirst := @foldl_decisions n sc i sc.phaseAllocation (decisionPreprocessCharger env)
    (fun j d => d.preprocessed (env.chargerState j)) (fun c j hc =>
      ⟨(hcharger c j).1.trans hc, (hcharger c j).2⟩) sc.numbered (numbered_nodup sc) rfl
  unfold decisionPreprocess
  simp only
  generalize sc.numbered.foldl (decisionPreprocessCharger env) sc = c at hfirst ⊢
  have hsecond := @foldl_decisions n c i c.phaseAllocation
    (fun c j => c.modifyDecision j fun d => { d with zero := d.zero.clearWaitingForRotation })
    (fun _ d => { d with zero := d.zero.clearWaitingForRotation }) (fun _ _ hc => ⟨hc, rfl⟩)
    c.numbered (numbered_nodup c) rfl
  rw [hsecond, hfirst, if_pos hmem]
  split <;> exact ⟨rfl, rfl⟩

/-- The chargers that are not off are counted. -/
theorem Fronted.count_eq {count : Nat} (h : Fronted env count sc) :
    count = (List.finRange n).countP fun i => !(env.chargerState i).off := by
  have hnodup : (sc.idxArray.take count).Nodup :=
    (h.perm.nodup_iff.mpr (List.nodup_finRange n)).sublist (List.take_sublist _ _)
  have hperm : (sc.idxArray.take count).Perm
      ((List.finRange n).filter fun i => !(env.chargerState i).off) := by
    refine (List.perm_ext_iff_of_nodup hnodup ((List.nodup_finRange n).filter _)).mpr fun i => ?_
    rw [h.mem_take]
    simp
  have hlength := hperm.length_eq
  rw [List.length_take_of_le (h.count_le.trans_eq (by simp [h.perm.length_eq]))] at hlength
  rw [hlength, List.countP_eq_length_filter]

/-- The repair covers as many chargers as are not off, and a charger that is off has the 1p and
3p decisions that were kept of the last allocation. -/
theorem beforePostprocess_decisions (hsc : Fresh sc) :
    (beforePostprocess env sc).chargerCount =
        (List.finRange n).countP (fun i => !(env.chargerState i).off) ∧
      ∀ i, (env.chargerState i).off = true → ((beforePostprocess env sc).chargerDecisions i).one =
            ((sc.chargerDecisions i).preprocessed (env.chargerState i)).one ∧
          ((beforePostprocess env sc).chargerDecisions i).three =
            ((sc.chargerDecisions i).preprocessed (env.chargerState i)).three := by
  obtain ⟨hfront, _⟩ := @beforeWakeUp_run _ env _ hsc
  obtain ⟨h9, h8, _, _⟩ := @runStages_run _ env _ hsc
  refine ⟨h8.sameGroup.count.trans (h9.sameGroup.count.trans hfront.count_eq), fun i hoff => ?_⟩
  have hpre := sameBooks_decisionPreprocess env sc
  obtain ⟨_, hone, hthree⟩ := stage1_off hoff (hpre.count.trans hsc.count)
    fun j => (congrFun hpre.current j).trans (hsc.current j)
  obtain ⟨hone', hthree'⟩ := @decisionPreprocess_decisions _ env sc hsc.count i
  rw [(beforePostprocess_off hsc hoff).2.2]
  exact ⟨hone.trans hone', hthree.trans hthree'⟩

variable (input : AllocatorInput n)

namespace AllocatorInput

/-- `not_off_count`. -/
def notOffCount : Nat := (List.finRange n).countP fun i => !(input.env.chargerState i).off

/-- The clearing keeps a "yes" of the last allocation. -/
def keepsYes (i : Fin n) : Bool :=
  let kept := (input.chargerDecisions i).preprocessed (input.chargerState i)
  kept.one.isYes || kept.three.isYes

end AllocatorInput

/-- The decisions of a charger whose number is below the count of chargers that are not off agree
with its allocation. One that is off and not covered keeps the decisions of the last one. -/
theorem agrees_cases (i : Fin n) :
    (i.val < input.notOffCount → ((allocateCurrent input).chargerDecisions i).Agrees
        ((allocateCurrent input).chargerAllocationState i).allocatedPhases.toUInt8) ∧
      (input.notOffCount ≤ i.val → (input.env.chargerState i).off = true →
        (((allocateCurrent input).chargerDecisions i).Agrees
            ((allocateCurrent input).chargerAllocationState i).allocatedPhases.toUInt8 ↔
          input.keepsYes i = false)) := by
  have hfresh := initialContext_fresh input
  obtain ⟨hoffCount, hoffDecisions⟩ := @beforePostprocess_decisions _ input.env _ hfresh
  have hcount : (beforePostprocess input.env input.initialContext).chargerCount =
    input.notOffCount := hoffCount
  have hoff : ∀ i, (input.env.chargerState i).off = true →
      (beforePostprocess input.env input.initialContext).phaseAllocation i = 0 :=
    fun i hi => (beforePostprocess_off hfresh hi).1
  have hrun : runStages input.env input.initialContext =
      decisionPostprocess (beforePostprocess input.env input.initialContext) := rfl
  have hdecisions : (allocateCurrent input).chargerDecisions i =
      (runStages input.env input.initialContext).chargerDecisions i := by
    rw [allocateCurrent]
  rw [hdecisions, allocatedPhases_eq, hrun, decisionPostprocess_decisions,
    (sameBooks_decisionPostprocess _).phases, hcount]
  generalize beforePostprocess input.env input.initialContext = sc at hoffDecisions hoff ⊢
  constructor
  · intro hcovered
    rw [if_pos hcovered]
    exact ChargerDecision.postprocessed_agrees _ _
  · intro hlast hi
    have hkept : (input.initialContext.chargerDecisions i).preprocessed
        (input.env.chargerState i) =
          (input.chargerDecisions i).preprocessed (input.chargerState i) := by
      obtain ⟨off, hstate⟩ := env_chargerState input i
      rw [hstate]
      rfl
    obtain ⟨hone, hthree⟩ := hoffDecisions i hi
    rw [hkept] at hone hthree
    unfold AllocatorInput.keepsYes
    simp only
    rw [if_neg (not_lt.mpr hlast), hoff i hi, ← hone, ← hthree, Bool.or_eq_false_iff]
    constructor
    · exact fun h => h.zero rfl
    · exact fun h => ⟨fun _ => h, fun h => absurd h (by decide), fun h => absurd h (by decide)⟩

/-- The installation with two chargers after the second one, which had been charging on one
phase, was turned off. -/
def TwoChargers.offInput : AllocatorInput 2 :=
  { TwoChargers.input 6000 TwoChargers.smallest_minimum 32000 with
    chargerState := fun i =>
      { TwoChargers.charger 32000 true with off := i.val == 1 }
    chargerDecisions := fun _ => ⟨.none, .yesNormal, .none, .none⟩ }

end Esp32Firmware.ChargeManager
