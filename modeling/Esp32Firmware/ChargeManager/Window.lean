import Esp32Firmware.ChargeManager.State
import Esp32Firmware.Library.SwapFilter

/-!
# Costs, sorted chargers and the control window

A charger that is active on some phases costs its current on each grid phase it
may use. One-phase chargers with a known rotation use only the phase of their P1.

Every stage first moves the chargers it works on to the front of the index array
and sorts them there. Both only permute the chargers of the group.

The window is the range of current between throttling all active chargers to
their minimum and allocating all they request.

## Implementation notes

`std::stable_sort` is insertion sort: the sorted order of a strict weak order is
unique up to the order of equal elements, which both keep.
-/

namespace Esp32Firmware.ChargeManager

variable {n : Nat}

/-- `get_phase_factors`. -/
def getPhaseFactors (allocatedPhases : UInt8) (rotation : PhaseRotation) : Cost :=
  if allocatedPhases = 0 then ⟨0, 0, 0, 0⟩
  else if allocatedPhases = 3 then ⟨3, 1, 1, 1⟩
  else if rotation = .unknown then ⟨1, 1, 1, 1⟩
  else Cost.set ⟨1, 0, 0, 0⟩ (getPhase rotation .p1) 1

/-- `get_cost`: the current used by changing an allocation. -/
def getCost (currentToAllocate : Int) (phasesToAllocate : UInt8) (rot : PhaseRotation)
    (allocatedCurrent : Int) (allocatedPhases : UInt8) : Cost :=
  Cost.scale currentToAllocate (getPhaseFactors phasesToAllocate rot) -
    Cost.scale allocatedCurrent (getPhaseFactors allocatedPhases rot)

/-- A grid phase whose limit is less than a positive cost. -/
def phasesExceeded (cost limit : Cost) : Bool :=
  GridPhase.phases.any fun p => decide (cost.get p > 0 ∧ limit.get p < cost.get p)

/-- The PV excess is less than a positive cost that is not guaranteed. -/
def pvExcessExceeded (cost limit : Cost) (observePvLimit : Bool) (guaranteedPvCurrent : Int) :
    Bool :=
  observePvLimit && decide (cost.pv > 0 ∧ limit.pv < cost.pv ∧ cost.pv > guaranteedPvCurrent)

/-- `cost_exceeds_limits`; stages other than 6 to 9 fail an assertion. -/
def costExceedsLimits (cost : Cost) (limits : CurrentLimits) (stage : Nat)
    (observePvLimit : Bool) (guaranteedPvCurrent : Int) : Bool :=
  match stage with
  | 6 => phasesExceeded cost limits.raw
  | 7 | 8 =>
    phasesExceeded cost limits.raw ||
      pvExcessExceeded cost limits.raw observePvLimit guaranteedPvCurrent
  | 9 =>
    phasesExceeded cost limits.raw ||
      pvExcessExceeded cost limits.raw observePvLimit guaranteedPvCurrent ||
      phasesExceeded cost limits.min ||
      pvExcessExceeded cost limits.min observePvLimit guaranteedPvCurrent
  | _ => true

/-- `apply_cost`. -/
def applyCost (cost : Cost) (limits : CurrentLimits) : CurrentLimits :=
  { limits with
    raw := limits.raw - cost
    min := limits.min - cost
    spread := limits.spread - cost
    maxPv := limits.maxPv - cost.pv }

def StageContext.applyCost (sc : StageContext n) (cost : Cost) : StageContext n :=
  { sc with limits := ChargeManager.applyCost cost sc.limits }

/-- The configured minimum current for a number of phases. -/
def minimumCurrent (cfg : CurrentAllocatorConfig n) (allocatedPhases : UInt8) : Int :=
  if allocatedPhases = 3 then cfg.minimumCurrent3p else cfg.minimumCurrent1p

/-- `get_minimum_cost`. -/
def getMinimumCost (allocatedPhases : UInt8) (rotation : PhaseRotation)
    (cfg : CurrentAllocatorConfig n) : Cost :=
  Cost.scale (minimumCurrent cfg allocatedPhases) (getPhaseFactors allocatedPhases rotation)

/-- Results of `get_enable_cost`. -/
structure EnableCost where
  minimum : Cost
  enable : Cost
  enableCurrent : Int

/-- `get_enable_cost`. -/
def getEnableCost (state : ChargerState) (activate3p haveActiveChargers : Bool)
    (cfg : CurrentAllocatorConfig n) : EnableCost :=
  let newCost := getMinimumCost (if activate3p then 3 else 1) state.phaseRotation cfg
  let factor :=
    if haveActiveChargers then cfg.enableCurrentFactor.value else Float32.Model.ofInt 1
  let newEnableCost := Cost.scaleFloat factor newCost
  let enableCurrent :=
    if activate3p || state.phaseRotation == .unknown then newEnableCost.l1
    else newEnableCost.get (getPhase state.phaseRotation .p1)
  ⟨newCost, newEnableCost, enableCurrent⟩

variable {phases : UInt8} {rot : PhaseRotation} {p : GridPhase}

@[simp] theorem getPhaseFactors_zero : getPhaseFactors 0 rot = 0 := rfl

@[simp] theorem getPhaseFactors_three (hp : p ≠ .pv) : (getPhaseFactors 3 rot).get p = 1 := by
  cases p with
  | pv => exact absurd rfl hp
  | l1 | l2 | l3 => rfl

/-- A charger uses a grid phase fully or not at all. -/
theorem factor_eq_zero_or_one (phases : UInt8) (rot : PhaseRotation) (hp : p ≠ .pv) :
    (getPhaseFactors phases rot).get p = 0 ∨ (getPhaseFactors phases rot).get p = 1 := by
  unfold getPhaseFactors
  split_ifs
  · exact Or.inl (by cases p <;> rfl)
  · exact Or.inr (by cases p <;> first | rfl | exact absurd rfl hp)
  · exact Or.inr (by cases p <;> rfl)
  · rw [Cost.get_set]
    split_ifs
    · exact Or.inr rfl
    · exact Or.inl (by cases p <;> first | rfl | exact absurd rfl hp)

theorem factor_nonneg (phases : UInt8) (rot : PhaseRotation) (p : GridPhase) :
    0 ≤ (getPhaseFactors phases rot).get p := by
  unfold getPhaseFactors
  split_ifs
  · cases p <;> decide
  · cases p <;> decide
  · cases p <;> decide
  · rw [Cost.get_set]
    split_ifs
    · decide
    · cases p <;> decide

/-- An active charger uses the grid phase of its P1. -/
theorem factor_p1 (h : phases ≠ 0) (rot : PhaseRotation) :
    (getPhaseFactors phases rot).get (getPhase rot .p1) = 1 := by
  unfold getPhaseFactors
  rw [if_neg h]
  split_ifs
  · cases rot <;> rfl
  · cases rot <;> rfl
  · rw [Cost.get_set, if_pos rfl]

/-- The largest phase of a multiple of the factors is the multiple itself. -/
theorem maxPhase_scale (h : phases ≠ 0) (rot : PhaseRotation) {x : Int} (hx : 0 ≤ x) :
    (Cost.scale x (getPhaseFactors phases rot)).maxPhase = x := by
  have h1 := @factor_eq_zero_or_one .l1 phases rot (by decide)
  have h2 := @factor_eq_zero_or_one .l2 phases rot (by decide)
  have h3 := @factor_eq_zero_or_one .l3 phases rot (by decide)
  have hp1 := factor_p1 h rot
  have hpv : getPhase rot .p1 ≠ .pv := by cases rot <;> decide
  generalize getPhaseFactors phases rot = f at *
  obtain ⟨fpv, f1, f2, f3⟩ := f
  simp only [Cost.get] at h1 h2 h3
  simp only [Cost.maxPhase, Cost.scale]
  generalize getPhase rot .p1 = q at hp1 hpv
  rcases h1 with rfl | rfl <;> rcases h2 with rfl | rfl <;> rcases h3 with rfl | rfl <;>
    cases q <;> simp_all [Cost.get]

/-- `filter_chargers_impl`: the index array and the number of matches. -/
def filterChargersImpl (p : Fin n → Bool) (sc : StageContext n) (limit : Nat) :
    StageContext n × Nat :=
  let (idx, matches_) := SwapFilter.run p sc.idxArray limit
  ({ sc with idxArray := idx }, matches_)

/-- `filter_chargers`. -/
def filterChargers (p : Fin n → Bool) (sc : StageContext n) : StageContext n × Nat :=
  filterChargersImpl p sc sc.chargerCount

/-- `std::stable_sort` with the comparison `less`. -/
def stableSort (less : Fin n → Fin n → Bool) (xs : List (Fin n)) : List (Fin n) :=
  xs.insertionSort fun a b => less b a = false

/-- `sort_chargers_impl`: groups first, then the comparison within a group. -/
def sortChargersImpl (group : Fin n → Int) (compare : Fin n → Fin n → Bool)
    (sc : StageContext n) (matched : Nat) : StageContext n :=
  let less := fun left right =>
    if group left ≠ group right then decide (group left < group right) else compare left right
  { sc with
    idxArray := stableSort less (sc.idxArray.take matched) ++ sc.idxArray.drop matched }

variable {sc : StageContext n} {matched : Nat}

/-- What filtering and sorting leaves behind: the group is permuted and the
matching chargers are in front. -/
structure Selected (p : Fin n → Bool) (sc sc' : StageContext n) (matched : Nat) : Prop where
  matched_le : matched ≤ sc.chargerCount
  matching : (sc'.idxArray.take matched).Perm (sc.group.filter p)
  group : sc'.group.Perm sc.group
  rest : sc'.idxArray.drop sc.chargerCount = sc.idxArray.drop sc.chargerCount
  context : ∃ idx, sc' = { sc with idxArray := idx }

theorem Selected.allocation_eq {p : Fin n → Bool} {sc' : StageContext n}
    (h : Selected p sc sc' matched) : sc'.phaseAllocation = sc.phaseAllocation ∧
      sc'.currentAllocation = sc.currentAllocation ∧ sc'.limits = sc.limits ∧
      sc'.exceeded = sc.exceeded := by
  obtain ⟨_, rfl⟩ := h.context
  exact ⟨rfl, rfl, rfl, rfl⟩

theorem filterChargers_selected (p : Fin n → Bool) (sc : StageContext n)
    (h : sc.chargerCount ≤ sc.idxArray.length) :
    Selected p sc (filterChargers p sc).1 (filterChargers p sc).2 where
  matched_le := by
    refine (SwapFilter.run_count p h).trans_le ((List.length_filter_le _ _).trans ?_)
    exact List.length_take_le _ _
  matching := by
    rw [StageContext.group, ← SwapFilter.take_run p h]
    rfl
  group := SwapFilter.take_run_perm p h
  rest := SwapFilter.drop_run p h
  context := ⟨_, rfl⟩

/-- Sorting the matching chargers keeps the selection. -/
theorem Selected.sort {p : Fin n → Bool} {sc' : StageContext n} (h : Selected p sc sc' matched)
    (group : Fin n → Int) (compare : Fin n → Fin n → Bool)
    (hlen : sc.chargerCount ≤ sc.idxArray.length) :
    Selected p sc (sortChargersImpl group compare sc' matched) matched := by
  obtain ⟨idx, rfl⟩ := h.context
  have hidx : sc.chargerCount ≤ idx.length := by
    have := h.group.length_eq
    simp only [StageContext.group, List.length_take] at this
    omega
  unfold sortChargersImpl
  simp only
  generalize hsort : stableSort _ (idx.take matched) = sorted
  have hperm : sorted.Perm (idx.take matched) := hsort ▸ List.perm_insertionSort _ _
  have hcount : sorted.length = matched := by
    rw [hperm.length_eq, List.length_take_of_le (h.matched_le.trans hidx)]
  have hsplit : idx.take sc.chargerCount =
      idx.take matched ++ (idx.drop matched).take (sc.chargerCount - matched) := by
    rw [← List.take_append_drop matched idx, List.take_append, List.take_take,
      Nat.min_eq_right h.matched_le]
    simp [Nat.min_eq_left (h.matched_le.trans hidx)]
  constructor
  · exact h.matched_le
  · rw [List.take_left' hcount]
    exact hperm.trans h.matching
  · refine List.Perm.trans ?_ h.group
    simp only [StageContext.group]
    rw [List.take_append, List.take_of_length_le (hcount.trans_le h.matched_le), hcount, hsplit]
    exact hperm.append_right _
  · rw [List.drop_append, List.drop_of_length_le (hcount.trans_le h.matched_le), hcount,
      List.nil_append, List.drop_drop, Nat.add_sub_cancel' h.matched_le]
    exact h.rest
  · exact ⟨_, rfl⟩

inductive CurrentCapacityLimit where
  | supportedByCharger | fastRampUp | requestedByVehicle | limitedByPhase | guaranteed | userLimit
  deriving DecidableEq, Repr

/-- `get_requested_current`, with the limit that decided it. -/
def getRequestedCurrent (env : StageEnv n) (state : ChargerState) (allocatedPhases : UInt8) :
    Int × CurrentCapacityLimit :=
  let reqd : Int := state.requestedCurrent.toNat
  let limit : CurrentCapacityLimit :=
    if state.requestedCurrent < state.supportedCurrent then .requestedByVehicle
    else .supportedByCharger
  let (reqd, limit) :=
    if !env.elapsed (state.useSupportedCurrent +
        (env.cfg.requestedCurrentThreshold.toNat : Int) * 1000000) then
      ((state.supportedCurrent.toNat : Int), CurrentCapacityLimit.fastRampUp)
    else (reqd, limit)
  let (reqd, limit) :=
    if getHighestChargeModeBit state = ChargeMode.min.bit ∧
        state.chargeMode.toNat &&& ChargeMode.pv.bit = 0 then
      let guaranteedCurrent := state.guaranteedPvCurrent.tdiv allocatedPhases.toNat
      if guaranteedCurrent < reqd then (guaranteedCurrent, CurrentCapacityLimit.guaranteed)
      else (reqd, limit)
    else (reqd, limit)
  if (state.userCurrent.toNat : Int) < reqd then
    ((state.userCurrent.toNat : Int), .userLimit)
  else (reqd, limit)

/-- Minimum of the window over the active chargers that have no current yet: the
sum of their minimum costs, and the part of the one-phase chargers. -/
def windowMinimum (env : StageEnv n) (sc : StageContext n) :
    List (Fin n) → Cost × Cost → Cost × Cost
  | [], acc => acc
  | i :: rest, (wndMin, wndMin1p) =>
    if sc.currentAllocation i > 0 then windowMinimum env sc rest (wndMin, wndMin1p)
    else
      let factors := getPhaseFactors (sc.phaseAllocation i) (env.chargerState i).phaseRotation
      if sc.phaseAllocation i = 3 then
        windowMinimum env sc rest
          (wndMin + Cost.scale env.cfg.minimumCurrent3p factors, wndMin1p)
      else
        windowMinimum env sc rest
          (wndMin + Cost.scale env.cfg.minimumCurrent1p factors,
            wndMin1p + Cost.scale env.cfg.minimumCurrent1p factors.withoutPv)

/-- Maximum of the window of the three-phase chargers. -/
def windowMaximum3p (env : StageEnv n) (sc : StageContext n) (currentAvailFor3p : Int) :
    List (Fin n) → Cost → Cost
  | [], wndMax => wndMax
  | i :: rest, wndMax =>
    let state := env.chargerState i
    let allocPhases := sc.phaseAllocation i
    if allocPhases ≠ 3 then windowMaximum3p env sc currentAvailFor3p rest wndMax
    else
      let factors := getPhaseFactors allocPhases state.phaseRotation
      let requested := Cost.scale (getRequestedCurrent env state allocPhases).1 factors
      let alreadyAllocated := Cost.scale (sc.currentAllocation i) factors
      let wndMax := wndMax + (requested - alreadyAllocated)
      if wndMax.l1 > currentAvailFor3p then Cost.scale currentAvailFor3p factors
      else windowMaximum3p env sc currentAvailFor3p rest wndMax

/-- Adds the one-phase chargers with unknown rotation. -/
def windowMaximum1pUnknown (env : StageEnv n) (sc : StageContext n) (wndMax : Cost) (i : Fin n) :
    Cost :=
  let state := env.chargerState i
  let allocPhases := sc.phaseAllocation i
  if allocPhases = 3 ∨ state.phaseRotation ≠ .unknown then wndMax
  else
    let factors := getPhaseFactors allocPhases state.phaseRotation
    let current := (getRequestedCurrent env state allocPhases).1 - sc.currentAllocation i
    let availableCurrent := (sc.limits.raw - wndMax).minPhase
    wndMax + Cost.scale (min availableCurrent current) factors

/-- Adds the one-phase chargers with known rotation. -/
def windowMaximum1pKnown (env : StageEnv n) (sc : StageContext n) (wndMax : Cost) (i : Fin n) :
    Cost :=
  let state := env.chargerState i
  let allocPhases := sc.phaseAllocation i
  if allocPhases = 3 ∨ state.phaseRotation = .unknown then wndMax
  else
    let phase := getPhase state.phaseRotation .p1
    let current := min (sc.limits.raw.get phase - wndMax.get phase)
      ((getRequestedCurrent env state allocPhases).1 - sc.currentAllocation i)
    let wndMax := wndMax.set phase (wndMax.get phase + current)
    { wndMax with pv := wndMax.pv + current }

/-- `calculate_window`. The index array is filtered on a copy. -/
def calculateWindow (env : StageEnv n) (sc : StageContext n) : StageContext n :=
  let (copy, matched) := filterChargers (fun i => decide (sc.phaseAllocation i > 0)) sc
  let active := copy.idxArray.take matched
  let (wndMin, wndMin1p) := windowMinimum env sc active (0, 0)
  let currentAvailFor3p := (sc.limits.raw - wndMin1p).minPhase
  let wndMax := windowMaximum3p env sc currentAvailFor3p active 0
  let wndMax := active.foldl (windowMaximum1pUnknown env sc) wndMax
  let wndMax := active.foldl (windowMaximum1pKnown env sc) wndMax
  { sc with
    caState := { sc.caState with controlWindowMin := wndMin, controlWindowMax := wndMax } }

end Esp32Firmware.ChargeManager
