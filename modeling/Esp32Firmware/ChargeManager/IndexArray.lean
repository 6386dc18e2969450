import Esp32Firmware.ChargeManager.AllocationRun
import Esp32Firmware.Library.Binary32.Special

/-!
# The index array

The filters and sorts of an allocation only permute the index array. Each comparison that is handed
to the sort compares keys, except among chargers that are just being woken up.

## Implementation notes

`calculate_window` filters a copy of the array. The sort of the model permutes with any comparison.
-/

namespace Esp32Firmware.ChargeManager

variable {n : Nat}

section

/-- A call that works on the index array. `calculate_window` puts the old array back. -/
inductive IndexCall (n : Nat)
  | filter (p : Fin n → Bool) (limit : Nat)
  | sort (group : Fin n → Int) (compare : Fin n → Fin n → Bool) (matched : Nat)
  | setCount (count : Nat)
  | calculateWindow (env : StageEnv n)

/-- Filters search no more than all chargers. -/
def IndexCall.InRange : IndexCall n → Prop
  | .filter _ limit => limit ≤ n
  | _ => True

def IndexCall.apply (sc : StageContext n) : IndexCall n → StageContext n
  | .filter p limit => (filterChargersImpl p sc limit).1
  | .sort group compare matched => sortChargersImpl group compare sc matched
  | .setCount count => { sc with chargerCount := count }
  | .calculateWindow env => ChargeManager.calculateWindow env sc

variable {sc : StageContext n} {calls : List (IndexCall n)} {p : Fin n → Bool} {limit : Nat}

theorem filterChargersImpl_perm (h : limit ≤ sc.idxArray.length) :
    (filterChargersImpl p sc limit).1.idxArray.Perm sc.idxArray := by
  have hfront := SwapFilter.take_run_perm p h
  have hrest := SwapFilter.drop_run p h
  change (SwapFilter.run p sc.idxArray limit).1.Perm sc.idxArray
  rw [← List.take_append_drop limit (SwapFilter.run p sc.idxArray limit).1, hrest]
  apply (hfront.append_right _).trans
  rw [List.take_append_drop]

theorem sortChargersImpl_perm (group : Fin n → Int) (compare : Fin n → Fin n → Bool)
    (matched : Nat) : (sortChargersImpl group compare sc matched).idxArray.Perm sc.idxArray := by
  apply ((List.perm_insertionSort _ (sc.idxArray.take matched)).append_right _).trans
  rw [List.take_append_drop]

theorem IndexCall.apply_perm {call : IndexCall n} (h : call.InRange)
    (hsc : sc.idxArray.Perm (List.finRange n)) :
    (call.apply sc).idxArray.Perm (List.finRange n) := by
  have hlength : sc.idxArray.length = n := by
    rw [hsc.length_eq, List.length_finRange]
  cases call with
  | filter p limit => exact (filterChargersImpl_perm (h.trans_eq hlength.symm)).trans hsc
  | sort group compare matched => exact (sortChargersImpl_perm group compare matched).trans hsc
  | setCount count | calculateWindow env => exact hsc

theorem foldl_apply_perm (h : ∀ call ∈ calls, call.InRange)
    (hsc : sc.idxArray.Perm (List.finRange n)) :
    (calls.foldl IndexCall.apply sc).idxArray.Perm (List.finRange n) := by
  induction calls generalizing sc with
  | nil => exact hsc
  | cons call rest ih =>
    rw [List.forall_mem_cons] at h
    exact ih h.2 (IndexCall.apply_perm h.1 hsc)

/-- The first charge modes of an allocation. -/
def afterModes (input : AllocatorInput n) (modes : List ChargeMode) : StageContext n :=
  let (sc, notOffCount) := allocateAll input.env input.initialContext
  modes.foldl (allocateMode input.env notOffCount) sc

theorem afterModes_fronted (input : AllocatorInput n) {modes : List ChargeMode}
    (h : modes <+: allocatedModes) :
    Fronted input.env (allocateAll input.env input.initialContext).2 (afterModes input modes) := by
  have hsc := initialContext_fresh input
  have hprep := @afterStage1_prepared _ input.env _ hsc
  have h3 := @afterStage3_run _ input.env _ hsc
  obtain ⟨hidx, hzero, -⟩ := @afterStage3_indexed _ input.env _ hsc
  have h6 := @stage6_run _ input.env _ hidx
  have hactive : ActiveOnly (afterStage3 input.env input.initialContext) := fun i _ => hzero i
  have hnodup : modes.Nodup := h.sublist.nodup (by decide)
  exact (allocateModes_run hnodup (fun _ hmode => h.subset hmode)
    (hprep.fronted.sameGroup (h3.sameGroup.trans h6.sameGroup) le_rfl)
    (h6.steps.activeOnly hactive) fun _ _ i _ => firstMinimum hsc i).1

/-- The index array stays a permutation of all chargers, a filter moves exactly the matching
chargers of the searched part to the front and counts them, and after each charge mode the
chargers that are not off are in front. -/
theorem index_array_discipline (input : AllocatorInput n) :
    (∀ calls : List (IndexCall n), (∀ call ∈ calls, call.InRange) →
      (calls.foldl IndexCall.apply input.initialContext).idxArray.Perm (List.finRange n) ∧
      ∀ p limit, limit ≤ n →
        let sc := calls.foldl IndexCall.apply input.initialContext
        (filterChargersImpl p sc limit).2 = (sc.idxArray.take limit).countP p ∧
          (filterChargersImpl p sc limit).1.idxArray.take (filterChargersImpl p sc limit).2 =
            (sc.idxArray.take limit).filter p) ∧
    ∀ modes, modes <+: allocatedModes → (allocateAll input.env input.initialContext).2 =
        (List.finRange n).countP (fun i => !(input.env.chargerState i).off) ∧
      ((afterModes input modes).idxArray.take (allocateAll input.env input.initialContext).2).Perm
        ((List.finRange n).filter fun i => !(input.env.chargerState i).off) := by
  constructor
  · intro calls hcalls
    have hperm := foldl_apply_perm hcalls (initialContext_fresh input).perm
    refine ⟨hperm, fun p limit hlimit => ?_⟩
    have hle : limit ≤ (calls.foldl IndexCall.apply input.initialContext).idxArray.length := by
      rwa [hperm.length_eq, List.length_finRange]
    constructor
    · rw [List.countP_eq_length_filter]
      exact SwapFilter.run_count p hle
    · exact SwapFilter.take_run p hle
  · intro modes hmodes
    have hfront := afterModes_fronted input hmodes
    have hnodup := (hfront.perm.nodup_iff.mpr (List.nodup_finRange n)).sublist
      (List.take_sublist (allocateAll input.env input.initialContext).2 _)
    have hperm : ((afterModes input modes).idxArray.take
        (allocateAll input.env input.initialContext).2).Perm
        ((List.finRange n).filter fun i => !(input.env.chargerState i).off) := by
      rw [List.perm_ext_iff_of_nodup hnodup ((List.nodup_finRange n).filter _)]
      intro i
      rw [hfront.mem_take]
      simp
    refine ⟨?_, hperm⟩
    have hlength := hperm.length_eq
    rw [List.length_take, hfront.perm.length_eq, List.length_finRange,
      min_eq_left hfront.count_le] at hlength
    rw [hlength, List.countP_eq_length_filter]

theorem index_array_discipline_two :
    let input := TwoChargers.input 6000 TwoChargers.smallest_minimum 32000
    let calls : List (IndexCall 2) := [.filter (fun i => i == 1) 2, .setCount 1]
    (calls.foldl IndexCall.apply input.initialContext).idxArray.Perm (List.finRange 2) ∧
      ((afterModes input (allocatedModes.take 1)).idxArray.take
        (allocateAll input.env input.initialContext).2).Perm
        ((List.finRange 2).filter fun i => !(input.env.chargerState i).off) := by
  have h := index_array_discipline (TwoChargers.input 6000 TwoChargers.smallest_minimum 32000)
  constructor
  · apply (h.1 [.filter (fun i => i == 1) 2, .setCount 1] ?_).1
    simp [IndexCall.InRange]
  · exact (h.2 (allocatedModes.take 1) (List.take_prefix 1 _)).2

end

/-- The comparison orders a set of elements strictly, up to incomparable ones. -/
structure StrictWeakOn {α : Type*} (S : Set α) (less : α → α → Bool) : Prop where
  irrefl : ∀ a ∈ S, less a a = false
  asymm : ∀ a ∈ S, ∀ b ∈ S, less a b = true → less b a = false
  trans : ∀ a ∈ S, ∀ b ∈ S, ∀ c ∈ S, less a b = true → less b c = true → less a c = true
  incomparable : ∀ a ∈ S, ∀ b ∈ S, ∀ c ∈ S, less a b = false → less b a = false →
    less b c = false → less c b = false → less a c = false ∧ less c a = false

/-- Comparing keys. -/
theorem StrictWeakOn.of_key {α κ : Type*} [LinearOrder κ] {S : Set α} {less : α → α → Bool}
    (key : α → κ) (h : ∀ a ∈ S, ∀ b ∈ S, less a b = true ↔ key a < key b) :
    StrictWeakOn S less := by
  have hnot : ∀ a ∈ S, ∀ b ∈ S, less a b = false ↔ key b ≤ key a := by
    intro a ha b hb
    rw [← Bool.not_eq_true, h a ha b hb, not_lt]
  constructor
  · intro a ha
    rw [hnot a ha a ha]
  · intro a ha b hb hab
    rw [h a ha b hb] at hab
    rw [hnot b hb a ha]
    exact hab.le
  · intro a ha b hb c hc hab hbc
    rw [h a ha b hb] at hab
    rw [h b hb c hc] at hbc
    rw [h a ha c hc]
    exact hab.trans hbc
  · intro a ha b hb c hc hab hba hbc hcb
    rw [hnot a ha b hb] at hab
    rw [hnot b hb a ha] at hba
    rw [hnot b hb c hc] at hbc
    rw [hnot c hc b hb] at hcb
    rw [hnot a ha c hc, hnot c hc a ha]
    exact ⟨hbc.trans hab, hba.trans hcb⟩

/-- The sorts of an allocation. -/
inductive SortingStage
  | stage2 | stage3 | stage4 | stage5 | stage7
  | stage8 (allocateToNonCharging : Bool)
  | stage9

namespace SortingStage

variable (env : StageEnv n) (sc : StageContext n)

def group : SortingStage → Fin n → Int
  | .stage2, _ => 0
  | .stage3, i => stage3Group env i
  | .stage4, i | .stage5, i => activationGroup env i
  | .stage7, i | .stage8 _, i => distributionGroup sc i
  | .stage9, i => stage9Group env (env.chargerState i)

def compare : SortingStage → Fin n → Fin n → Bool
  | .stage2, left, right => decide ((env.chargerState left).justPluggedInTimestamp <
      (env.chargerState right).justPluggedInTimestamp)
  | .stage3, left, right => stage3Compare env left right
  | .stage4, left, right | .stage5, left, right => activationCompare env left right
  | .stage7, left, right => distributionCompare env sc false left right
  | .stage8 toNonCharging, left, right => distributionCompare env sc toNonCharging left right
  | .stage9, left, right => stage9Sort env (env.chargerState left) (env.chargerState right)

/-- The relation of `sort_chargers_impl`. -/
def less (stage : SortingStage) (left right : Fin n) : Bool :=
  if stage.group env sc left ≠ stage.group env sc right then
    decide (stage.group env sc left < stage.group env sc right)
  else stage.compare env sc left right

variable {env sc} {stage : SortingStage} {S : Set (Fin n)}

/-- A comparison of keys within a group. -/
theorem strictWeakOn_of_key {κ : Type*} [LinearOrder κ] (key : Fin n → κ)
    (h : ∀ a ∈ S, ∀ b ∈ S, stage.group env sc a = stage.group env sc b →
      (stage.compare env sc a b = true ↔ key a < key b)) :
    StrictWeakOn S (stage.less env sc) := by
  apply StrictWeakOn.of_key fun i => toLex (stage.group env sc i, key i)
  intro a ha b hb
  rw [Prod.Lex.toLex_lt_toLex, less]
  by_cases hgroup : stage.group env sc a = stage.group env sc b
  · rw [if_neg (not_not.mpr hgroup), h a ha b hb hgroup]
    simp [hgroup]
  · rw [if_pos hgroup, decide_eq_true_eq]
    simp [hgroup]

theorem stage3Group_eq {a b : Fin n} (h : stage3Group env a = stage3Group env b) :
    wasJustPluggedIn (env.chargerState a) = wasJustPluggedIn (env.chargerState b) := by
  have hbit : ∀ state : ChargerState,
      (getHighestChargeModeBit state : Int) < (ChargeMode.maxBit : Int) + 1 := by
    intro state
    unfold getHighestChargeModeBit
    split_ifs <;> decide
  have ha := hbit (env.chargerState a)
  have hb := hbit (env.chargerState b)
  unfold stage3Group at h
  split_ifs at h with ha' hb' hb'
  · rw [ha', hb']
  · omega
  · omega
  · rw [Bool.not_eq_true] at ha' hb'
    rw [ha', hb']

/-- Only the sorts by average power and by wake up are left out. -/
theorem strictWeakOn_of_ne (h : stage ≠ .stage9) (h4 : stage ≠ .stage4) (h5 : stage ≠ .stage5) :
    StrictWeakOn S (stage.less env sc) := by
  cases stage with
  | stage2 =>
    apply strictWeakOn_of_key fun i => (env.chargerState i).justPluggedInTimestamp
    simp [compare]
  | stage3 =>
    apply strictWeakOn_of_key fun i =>
      if wasJustPluggedIn (env.chargerState i) then (env.chargerState i).justPluggedInTimestamp
      else (env.chargerState i).lastSwitchOn
    intro a _ b _ hgroup
    have hplugged := stage3Group_eq hgroup
    simp only [compare, stage3Compare, ← hplugged]
    split_ifs <;> exact decide_eq_true_iff
  | stage4 => exact absurd rfl h4
  | stage5 => exact absurd rfl h5
  | stage7 =>
    apply strictWeakOn_of_key fun i => (currentCapacity env sc.limits (env.chargerState i)
      (sc.currentAllocation i) (sc.phaseAllocation i) false).1
    simp [compare, distributionCompare]
  | stage8 toNonCharging =>
    apply strictWeakOn_of_key fun i => (currentCapacity env sc.limits (env.chargerState i)
      (sc.currentAllocation i) (sc.phaseAllocation i) toNonCharging).1
    simp [compare, distributionCompare]
  | stage9 => exact absurd rfl h

/-- No charger whose average power is NaN shares its group with two of different power. -/
def PowerComparable (env : StageEnv n) (S : Set (Fin n)) : Prop :=
  ∀ a ∈ S, (env.chargerState a).allocatedAveragePower.isNaN = true →
    ∀ b ∈ S, ∀ c ∈ S, activationGroup env b = activationGroup env a →
      activationGroup env c = activationGroup env a →
      ¬ (env.chargerState b).allocatedAveragePower < (env.chargerState c).allocatedAveragePower

open Classical in
theorem strictWeakOn_activation (h : stage = .stage4 ∨ stage = .stage5) :
    StrictWeakOn S (stage.less env sc) ↔ PowerComparable env S := by
  have hgroup : ∀ i, stage.group env sc i = activationGroup env i := by
    obtain rfl | rfl := h <;> exact fun i => rfl
  have hcompare : ∀ i j, stage.compare env sc i j = true ↔
      (env.chargerState i).allocatedAveragePower < (env.chargerState j).allocatedAveragePower := by
    obtain rfl | rfl := h <;> exact fun i j => decide_eq_true_iff
  constructor
  · intro hweak a ha hnan b hb c hc hgb hgc hlt
    have hless : ∀ i j, activationGroup env i = activationGroup env j →
        (stage.less env sc i j = true ↔ stage.compare env sc i j = true) := by
      intro i j hij
      rw [less, hgroup, hgroup, if_neg (not_not.mpr hij)]
    have hside : ∀ i, activationGroup env i = activationGroup env a →
        stage.less env sc i a = false ∧ stage.less env sc a i = false := by
      intro i hi
      simp [← Bool.not_eq_true, hless _ _ hi, hless _ _ hi.symm, hcompare,
        Binary32.lt_iff_orderKey, hnan]
    have hbc := (hweak.incomparable b hb a ha c hc (hside b hgb).1 (hside b hgb).2
      (hside c hgc).2 (hside c hgc).1).1
    rw [← Bool.not_eq_true, hless _ _ (hgb.trans hgc.symm), hcompare] at hbc
    exact hbc hlt
  · intro hpower
    apply strictWeakOn_of_key fun i =>
      if ∃ a ∈ S, activationGroup env a = activationGroup env i ∧
        (env.chargerState a).allocatedAveragePower.isNaN = true then 0
      else Binary32.orderKey (env.chargerState i).allocatedAveragePower.unpack
    intro b hb c hc hbc
    rw [hgroup, hgroup] at hbc
    rw [hcompare, hbc]
    split_ifs with hnan
    · obtain ⟨a, ha, hac, hnan⟩ := hnan
      simp [hpower a ha hnan b hb c hc (hbc.trans hac.symm) hac.symm]
    · push Not at hnan
      simp [Binary32.lt_iff_orderKey, hnan b hb hbc, hnan c hc rfl]

/-- A charger that is being woken up comes before itself. -/
theorem strictWeakOn_stage9 : StrictWeakOn S (stage9.less env sc) ↔
    ∀ i ∈ S, stage9Group env (env.chargerState i) ≠ currentlyWakingUpCar := by
  constructor
  · intro h i hi hwaking
    have hless := h.irrefl i hi
    simp [less, compare, stage9Sort, hwaking] at hless
  · intro h
    apply strictWeakOn_of_key fun i =>
      if stage9Group env (env.chargerState i) = neverAttemptedToWakeUp then
        (env.chargerState i).lastSwitchOn
      else (env.chargerState i).lastWakeup
    intro a ha b _ hgroup
    change stage9Group env (env.chargerState a) = stage9Group env (env.chargerState b) at hgroup
    simp only [compare, stage9Sort, ← hgroup, if_neg (h a ha)]
    split_ifs <;> exact decide_eq_true_iff

end SortingStage

/-- The relations that the stages sort a set of chargers with are strict weak orders if and only if
none of the chargers is being woken up and their average powers can be compared. -/
theorem sorting_strictWeak (env : StageEnv n) (sc : StageContext n) (S : Set (Fin n)) :
    (∀ stage : SortingStage, StrictWeakOn S (stage.less env sc)) ↔
      (∀ i ∈ S, stage9Group env (env.chargerState i) ≠ currentlyWakingUpCar) ∧
        SortingStage.PowerComparable env S := by
  have h9 := @SortingStage.strictWeakOn_stage9 n env sc S
  have h4 := @SortingStage.strictWeakOn_activation n env sc .stage4 S (.inl rfl)
  have h5 := @SortingStage.strictWeakOn_activation n env sc .stage5 S (.inr rfl)
  rw [← h9, ← h4]
  constructor
  · intro h
    exact ⟨h .stage9, h .stage4⟩
  · intro h stage
    by_cases hstage9 : stage = .stage9
    · rw [hstage9]
      exact h.1
    by_cases hstage4 : stage = .stage4
    · rw [hstage4]
      exact h.2
    by_cases hstage5 : stage = .stage5
    · rw [hstage5, h5, ← h4]
      exact h.2
    exact SortingStage.strictWeakOn_of_ne hstage9 hstage4 hstage5

def TwoChargers.wakingUp (charger : ChargerState) : ChargerState :=
  { charger with lastWakeup := 900000000 }

/-- The installation with two chargers, both of which are being woken up. -/
def TwoChargers.wakingInput : AllocatorInput 2 :=
  { TwoChargers.input 6000 TwoChargers.smallest_minimum 32000 with
    chargerState := fun _ => TwoChargers.wakingUp (TwoChargers.charger 32000 false) }

/-- A charger that is being woken up comes before itself. -/
theorem wakingUp_before_itself : ¬ ∀ stage : SortingStage,
    StrictWeakOn Set.univ (stage.less TwoChargers.wakingInput.env
      TwoChargers.wakingInput.initialContext) := by
  intro h
  have hirrefl := (h .stage9).irrefl 0 (Set.mem_univ 0)
  have hbefore : SortingStage.stage9.less TwoChargers.wakingInput.env
      TwoChargers.wakingInput.initialContext 0 0 = true := by decide
  rw [hbefore] at hirrefl
  cases hirrefl

end Esp32Firmware.ChargeManager
