import Esp32Firmware.ChargeManager.Window

/-!
# Stages 6 to 8: distribution of current

Stage 6 allocates minimum currents, stage 7 fair currents and stage 8 what is left
over. An allocation whose cost exceeds the limits is logged and left out.
-/

namespace Esp32Firmware.ChargeManager

variable {n : Nat}

/-- Allocates a current at a cost, or logs that the cost exceeds the limits. -/
def allocateChecked (env : StageEnv n) (sc : StageContext n) (stage : Nat) (i : Fin n)
    (current : Int) (cost : Cost) : StageContext n :=
  let state := env.chargerState i
  if costExceedsLimits cost sc.limits stage state.observePvLimit state.guaranteedPvCurrent then
    { sc with exceeded := sc.exceeded ++ [stage] }
  else (sc.setCurrent i current).applyCost cost

def stage6Charger (env : StageEnv n) (sc : StageContext n) (i : Fin n) : StageContext n :=
  let state := env.chargerState i
  let cost := getMinimumCost (sc.phaseAllocation i) state.phaseRotation env.cfg
  if costExceedsLimits cost sc.limits 6 state.observePvLimit state.guaranteedPvCurrent then
    { sc with exceeded := sc.exceeded ++ [6] }
  else ((sc.setCurrentDecision i .minimum).setCurrent i cost.maxPhase).applyCost cost

/-- `stage_6`. -/
def stage6 (env : StageEnv n) (sc : StageContext n) : StageContext n :=
  let (sc, matched) := filterChargers
    (fun i => decide (sc.phaseAllocation i > 0) && decide (sc.currentAllocation i = 0)) sc
  (sc.idxArray.take matched).foldl (stage6Charger env) sc

def undoStage6Charger (env : StageEnv n) (sc : StageContext n) (i : Fin n) : StageContext n :=
  let cost := getMinimumCost (sc.phaseAllocation i) (env.chargerState i).phaseRotation env.cfg
  (sc.setCurrent i 0).applyCost (-cost)

/-- `undo_stage_6`. -/
def undoStage6 (env : StageEnv n) (sc : StageContext n) : StageContext n :=
  let (sc, matched) := filterChargers (fun i => decide (sc.currentAllocation i > 0)) sc
  (sc.idxArray.take matched).foldl (undoStage6Charger env) sc

/-- The smallest raw limit of the phases a charger uses, at most 32 A for a known
rotation. -/
def capacityMinPhase (limits : CurrentLimits) (state : ChargerState) (allocatedPhases : UInt8) :
    Int :=
  if allocatedPhases = 3 ∨ state.phaseRotation = .unknown then limits.raw.minPhase
  else
    (ChargerPhase.firstPhases allocatedPhases.toNat).foldl
      (fun acc phase => min acc (limits.raw.get (getPhase state.phaseRotation phase))) 32000

/-- `current_capacity`: the current that can be allocated additionally on all
allocated phases, with the limit that decided it. -/
def currentCapacity (env : StageEnv n) (limits : CurrentLimits) (state : ChargerState)
    (allocatedCurrent : Int) (allocatedPhases : UInt8) (ignoreRequestedCurrent : Bool) :
    Int × CurrentCapacityLimit :=
  let (requestedCurrent, limit) :=
    if ignoreRequestedCurrent then
      ((state.supportedCurrent.toNat : Int), CurrentCapacityLimit.supportedByCharger)
    else getRequestedCurrent env state allocatedPhases
  let (requestedCurrent, limit) :=
    if (state.userCurrent.toNat : Int) < requestedCurrent then
      ((state.userCurrent.toNat : Int), CurrentCapacityLimit.userLimit)
    else (requestedCurrent, limit)
  let capacity := max (requestedCurrent - allocatedCurrent) 0
  let minPhase := capacityMinPhase limits state allocatedPhases
  let (capacity, limit) :=
    if minPhase < capacity then (minPhase, CurrentCapacityLimit.limitedByPhase)
    else (capacity, limit)
  ((allocatedPhases.toNat : Int) * capacity, limit)

/-- Counts a charger on the phases it is active on. -/
def countActive (env : StageEnv n) (sc : StageContext n) (active : Cost) (i : Fin n) : Cost :=
  let state := env.chargerState i
  let allocatedPhases := sc.phaseAllocation i
  let active := { active with pv := active.pv + 1 }
  if allocatedPhases = 3 ∨ state.phaseRotation = .unknown then
    { active with l1 := active.l1 + 1, l2 := active.l2 + 1, l3 := active.l3 + 1 }
  else
    (ChargerPhase.firstPhases allocatedPhases.toNat).foldl
      (fun active p =>
        let phase := getPhase state.phaseRotation p
        active.set phase (active.get phase + 1))
      active

/-- `get_fair_current` of the chargers that are still to be served. -/
def getFairCurrent (env : StageEnv n) (sc : StageContext n) (chargers : List (Fin n)) : Cost :=
  let active := chargers.foldl (countActive env sc) 0
  let fair := fun p =>
    if active.get p = 0 then 0 else max 0 ((sc.limits.raw.get p).tdiv (active.get p))
  ⟨fair .pv, fair .l1, fair .l2, fair .l3⟩

structure MinWithDecision where
  current : Int
  desc : CurrentDecision

/-- `MinWithDecision::operator()`. -/
def MinWithDecision.apply (m : MinWithDecision) (newCurrent : Int) (decision : CurrentDecision) :
    MinWithDecision :=
  if m.current ≤ newCurrent then m else ⟨newCurrent, decision⟩

/-- The decision of a charger that gets all it requested. -/
def capacityDecision (state : ChargerState) : CurrentCapacityLimit → CurrentDecision
  | .supportedByCharger => .supportedByCharger
  | .fastRampUp => .fastRampUp
  | .requestedByVehicle => .requested
  | .limitedByPhase => .phaseLimit (state.phaseRotation == .unknown)
  | .guaranteed => .guaranteedPV
  | .userLimit => .userLimit

/-- Limits to the fair PV current, or the guaranteed one if it is more. -/
def minFairPv (state : ChargerState) (fair : Cost) (allocatedCurrent : Int)
    (allocatedPhases : UInt8) (m : MinWithDecision) : MinWithDecision :=
  if state.observePvLimit then
    let fairPv := fair.pv.tdiv allocatedPhases.toNat
    let guaranteedPv := state.guaranteedPvCurrent.tdiv allocatedPhases.toNat - allocatedCurrent
    if guaranteedPv > fairPv then m.apply guaranteedPv .guaranteedPV
    else m.apply fairPv (.fair false)
  else m

/-- Limits to the fair current of every phase the charger uses. -/
def minFairPhases (state : ChargerState) (fair : Cost) (allocatedPhases : UInt8)
    (m : MinWithDecision) : MinWithDecision :=
  if state.phaseRotation = .unknown then m.apply fair.minPhase (.fair true)
  else
    (ChargerPhase.firstPhases allocatedPhases.toNat).foldl
      (fun m p => m.apply (fair.get (getPhase state.phaseRotation p)) (.fair false)) m

/-- Limits a charger that does not charge to its enable current. -/
def minEnable (cfg : CurrentAllocatorConfig n) (state : ChargerState) (allocatedCurrent : Int)
    (allocatedPhases : UInt8) (m : MinWithDecision) : MinWithDecision :=
  if state.isCharging then m
  else
    let enableCurrent := (getEnableCost state (allocatedPhases == 3) true cfg).enableCurrent
    m.apply (max 0 (enableCurrent - allocatedCurrent)) .enableNotCharging

/-- The current stage 7 adds to the first of the remaining chargers. -/
def stage7Min (env : StageEnv n) (sc : StageContext n) (chargers : List (Fin n)) (i : Fin n) :
    MinWithDecision :=
  let fair := getFairCurrent env sc chargers
  let state := env.chargerState i
  let allocatedCurrent := sc.currentAllocation i
  let allocatedPhases := sc.phaseAllocation i
  let m : MinWithDecision := ⟨32000 - allocatedCurrent, .supportedByCharger⟩
  let m := minFairPv state fair allocatedCurrent allocatedPhases m
  let m := minFairPhases state fair allocatedPhases m
  let m := minEnable env.cfg state allocatedCurrent allocatedPhases m
  m.apply ((currentCapacity env sc.limits state allocatedCurrent allocatedPhases false).1.tdiv
    allocatedPhases.toNat) .requested

def stage7Charger (env : StageEnv n) (sc : StageContext n) (chargers : List (Fin n)) (i : Fin n) :
    StageContext n :=
  let state := env.chargerState i
  let allocatedCurrent := sc.currentAllocation i
  let allocatedPhases := sc.phaseAllocation i
  let m := stage7Min env sc chargers i
  let limit := (currentCapacity env sc.limits state allocatedCurrent allocatedPhases false).2
  let sc :=
    if m.current > 0 then
      sc.setCurrentDecision i (if m.desc = .requested then capacityDecision state limit else m.desc)
    else sc
  let current := allocatedCurrent + m.current
  allocateChecked env sc 7 i current
    (getCost current allocatedPhases state.phaseRotation allocatedCurrent allocatedPhases)

def stage7Loop (env : StageEnv n) : List (Fin n) → StageContext n → StageContext n
  | [], sc => sc
  | i :: rest, sc => stage7Loop env rest (stage7Charger env sc (i :: rest) i)

/-- Order of stages 7 and 8: three-phase chargers first, then by capacity. -/
def distributionGroup (sc : StageContext n) (i : Fin n) : Int :=
  3 - (sc.phaseAllocation i).toNat

def distributionCompare (env : StageEnv n) (sc : StageContext n) (ignoreRequestedCurrent : Bool)
    (left right : Fin n) : Bool :=
  let capacity := fun i => (currentCapacity env sc.limits (env.chargerState i)
    (sc.currentAllocation i) (sc.phaseAllocation i) ignoreRequestedCurrent).1
  decide (capacity left < capacity right)

/-- `stage_7`. -/
def stage7 (env : StageEnv n) (sc : StageContext n) : StageContext n :=
  let (sc, matched) := filterChargers (fun i => decide (sc.currentAllocation i > 0)) sc
  if matched = 0 then sc
  else
    let sc := sortChargersImpl (distributionGroup sc) (distributionCompare env sc false) sc matched
    stage7Loop env (sc.idxArray.take matched) sc

/-- The current stage 8 adds to a charger. -/
def stage8Additional (env : StageEnv n) (sc : StageContext n) (allocateToNonCharging : Bool)
    (i : Fin n) : Int :=
  let state := env.chargerState i
  let allocatedCurrent := sc.currentAllocation i
  let allocatedPhases := sc.phaseAllocation i
  let pvCurrent :=
    if state.observePvLimit then
      max (state.guaranteedPvCurrent.tdiv allocatedPhases.toNat - allocatedCurrent)
        (sc.limits.raw.pv.tdiv allocatedPhases.toNat)
    else 32000
  let capacity := (currentCapacity env sc.limits state allocatedCurrent allocatedPhases
    allocateToNonCharging).1.tdiv allocatedPhases.toNat
  let current := min (max 0 pvCurrent) capacity
  if state.phaseRotation = .unknown then min current sc.limits.raw.minPhase
  else
    (ChargerPhase.firstPhases allocatedPhases.toNat).foldl
      (fun current p => min current (sc.limits.raw.get (getPhase state.phaseRotation p))) current

def stage8Charger (env : StageEnv n) (allocateToNonCharging : Bool) (sc : StageContext n)
    (i : Fin n) : StageContext n :=
  let state := env.chargerState i
  let allocatedCurrent := sc.currentAllocation i
  let allocatedPhases := sc.phaseAllocation i
  let additional := stage8Additional env sc allocateToNonCharging i
  let sc :=
    if additional > 0 then
      sc.setCurrentDecision i
        (.leftOver (allocatedPhases == 3 && state.phaseRotation == .unknown))
    else sc
  let current := additional + allocatedCurrent
  allocateChecked env sc 8 i current
    (getCost current allocatedPhases state.phaseRotation allocatedCurrent allocatedPhases)

/-- `stage_8`. -/
def stage8 (env : StageEnv n) (allocateToNonCharging : Bool) (sc : StageContext n) :
    StageContext n :=
  let (sc, matched) := filterChargers (fun i => decide (sc.currentAllocation i > 0) &&
    (allocateToNonCharging || (env.chargerState i).isCharging)) sc
  let sc := sortChargersImpl (distributionGroup sc)
    (distributionCompare env sc allocateToNonCharging) sc matched
  (sc.idxArray.take matched).foldl (stage8Charger env allocateToNonCharging) sc

end Esp32Firmware.ChargeManager
