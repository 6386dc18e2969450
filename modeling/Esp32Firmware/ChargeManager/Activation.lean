import Esp32Firmware.ChargeManager.Window

/-!
# Stages 4, 5 and 9: activation, phase switch and wake-up

A charger is activated, or switched from one to three phases, only if the spread
or min limits leave room for its enable cost above the current window minimum.

Chargers with a probably full vehicle are activated with the enable current if it
is left over under all limits.
-/

namespace Esp32Firmware.ChargeManager

variable {n : Nat}

def checkMinWindowMin : Nat := 1

def checkMinWindowEnable : Nat := 2

def checkImprovement : Nat := 4

def checkImprovementAllPhase : Nat := 8

def checkSpread : Nat := 16

/-- What `can_activate` is asked to check. -/
structure ActivationRequest where
  checkPhase : GridPhase → Nat
  newCost : Cost
  newEnableCost : Cost
  wndMin : Cost
  wndMax : Cost
  isUnknownRotated1p3pSwitch : Bool
  guaranteedPvCurrent : Int
  is3pActivation : Bool

namespace ActivationRequest

variable (req : ActivationRequest)

/-- Whether a check is requested on some phase. -/
def checks (flags : Nat) : Bool :=
  ((req.checkPhase .pv ||| req.checkPhase .l1 ||| req.checkPhase .l2 ||| req.checkPhase .l3)
    &&& flags) != 0

/-- A phase the check skips. -/
def skips (flags : Nat) (p : GridPhase) : Bool :=
  req.checkPhase p &&& flags == 0 || decide (req.newCost.get p ≤ 0)

/-- The current on `p` once all active chargers and the new one are raised to their
enable current. -/
def requiredEnable (factor : Float32.Model) (p : GridPhase) : Float32.Model :=
  Float32.Model.ofInt (req.wndMin.get p) * factor + Float32.Model.ofInt (req.newEnableCost.get p)

def improvesAllSpread (limits : CurrentLimits) (factor : Float32.Model) : Bool :=
  (GridPhase.pv :: GridPhase.phases).all fun p =>
    req.skips checkSpread p ||
      !decide (Float32.Model.ofInt (limits.spread.get p) < req.requiredEnable factor p)

def improvesPv (limits : CurrentLimits) : Bool :=
  req.checkPhase .pv &&& (checkImprovement ||| checkImprovementAllPhase) == 0 ||
    decide (req.newCost.pv > 0 ∧
      (req.wndMax.pv < limits.min.pv ∨ req.newCost.pv ≤ req.guaranteedPvCurrent))

end ActivationRequest

/-- Result of comparing the window maximum with the min limits. -/
structure Improvement where
  anyPhase : Bool
  allPhases : Bool
  maxDiff : Int
  maxDiffPhase : GridPhase

def improvementStep (req : ActivationRequest) (limits : CurrentLimits) (acc : Improvement)
    (p : GridPhase) : Improvement :=
  if req.skips (checkImprovement ||| checkImprovementAllPhase) p then acc
  else
    let available := limits.min.get p
    let allocable := req.wndMax.get p
    if allocable < available then { acc with anyPhase := true }
    else
      let diff := available - allocable
      let acc := if diff > acc.maxDiff then { acc with maxDiff := diff, maxDiffPhase := p } else acc
      { acc with allPhases := false }

def phaseImprovement (req : ActivationRequest) (limits : CurrentLimits) : Improvement :=
  GridPhase.phases.foldl (improvementStep req limits) ⟨false, true, 0, .pv⟩

/-- The current the min limit of a phase has to cover. -/
def requiredMinimum (req : ActivationRequest) (factor : Float32.Model) (p : GridPhase) : Int :=
  if req.checkPhase p &&& checkMinWindowEnable ≠ 0 then
    (req.requiredEnable factor p).toInt32.toInt
  else if req.checkPhase p &&& checkMinWindowMin ≠ 0 then req.wndMin.get p + req.newCost.get p
  else 0

/-- Whether the min limit of a phase is checked and too small. A guaranteed PV
current that is sufficient replaces the PV check. -/
def minimumFails (req : ActivationRequest) (limits : CurrentLimits) (factor : Float32.Model)
    (p : GridPhase) : Bool :=
  !req.skips (checkMinWindowMin ||| checkMinWindowEnable) p &&
    !(p == .pv && decide (req.newCost.pv ≤ req.guaranteedPvCurrent)) &&
    decide (limits.min.get p < requiredMinimum req factor p)

def setNoPhaseImprovement (sc : StageContext n) (i : Fin n) (req : ActivationRequest)
    (p : GridPhase) : StageContext n :=
  if req.is3pActivation then
    sc.setThreeDecision i (.noPhaseImprovement (sc.limits.minExpirationTs p) (req.wndMax.get p)
      (sc.limits.min.get p) p.toNat)
  else
    sc.setOneDecision i (.noPhaseImprovement (sc.limits.minExpirationTs p) (req.wndMax.get p)
      (sc.limits.min.get p) p.toNat)

def setNoPhaseMinimum (sc : StageContext n) (i : Fin n) (req : ActivationRequest) (required : Int)
    (p : GridPhase) : StageContext n :=
  if req.is3pActivation then
    sc.setThreeDecision i (.noPhaseMinimum (sc.limits.minExpirationTs p) required
      (sc.limits.min.get p) p.toNat)
  else
    sc.setOneDecision i (.noPhaseMinimum (sc.limits.minExpirationTs p) required
      (sc.limits.min.get p) p.toNat)

/-- The phase that a failed improvement check names. -/
def failedImprovement (req : ActivationRequest) (limits : CurrentLimits)
    (factor : Float32.Model) : Option GridPhase :=
  let checkImprovement_ := req.checks (checkImprovement ||| checkImprovementAllPhase)
  if checkImprovement_ && (!req.checks checkSpread || !req.improvesAllSpread limits factor) then
    if !req.improvesPv limits then some .pv
    else
      let checkAllPhases := (req.checkPhase .l1 ||| req.checkPhase .l2 ||| req.checkPhase .l3)
        &&& checkImprovementAllPhase != 0
      let improvement := phaseImprovement req limits
      if ((checkAllPhases && !improvement.allPhases) ||
          (!checkAllPhases && !improvement.anyPhase)) && !req.isUnknownRotated1p3pSwitch then
        some improvement.maxDiffPhase
      else none
  else none

/-- `can_activate`. -/
def canActivate (env : StageEnv n) (sc : StageContext n) (i : Fin n) (req : ActivationRequest) :
    Bool × StageContext n :=
  let factor := env.cfg.enableCurrentFactor.value
  match failedImprovement req sc.limits factor with
  | some p => (false, setNoPhaseImprovement sc i req p)
  | none =>
    match (GridPhase.pv :: GridPhase.phases).find? (minimumFails req sc.limits factor) with
    | some p => (false, setNoPhaseMinimum sc i req (requiredMinimum req factor p) p)
    | none => (true, sc)

/-- The request of `try_activate`. -/
def activationRequest (env : StageEnv n) (sc : StageContext n) (state : ChargerState)
    (activate3p haveActiveChargers : Bool) : ActivationRequest :=
  let cost := getEnableCost state activate3p haveActiveChargers env.cfg
  let isMin := decide (state.guaranteedPvCurrent > 0)
  let usesMinNumberOfPhases := !state.phaseSwitchSupported || !activate3p
  let ignorePv := !state.observePvLimit || (isMin && usesMinNumberOfPhases)
  let improveCheck :=
    if state.guaranteedPvCurrent ≥ cost.minimum.pv then 0 else checkSpread ||| checkImprovement
  { checkPhase := fun p =>
      match p with
      | .pv =>
        if ignorePv then 0
        else improveCheck |||
          (if haveActiveChargers then checkMinWindowEnable else checkMinWindowMin)
      | _ => improveCheck ||| checkMinWindowEnable
    newCost := cost.minimum
    newEnableCost := cost.enable
    wndMin := sc.caState.controlWindowMin
    wndMax := sc.caState.controlWindowMax
    isUnknownRotated1p3pSwitch := false
    guaranteedPvCurrent := state.guaranteedPvCurrent
    is3pActivation := activate3p }

/-- `try_activate`. -/
def tryActivate (env : StageEnv n) (sc : StageContext n) (i : Fin n)
    (activate3p haveActiveChargers : Bool) : Bool × StageContext n :=
  canActivate env sc i
    (activationRequest env sc (env.chargerState i) activate3p haveActiveChargers)

/-- Which activations stages 4 and 9 try for a charger. -/
structure PhaseChoice where
  force3p : Bool
  force1p : Bool
  isFixed3p : Bool
  isUnknownRotSwitchable : Bool
  try3p : Bool
  try1p : Bool

def phaseChoice (env : StageEnv n) (state : ChargerState) : PhaseChoice :=
  let hystElapsed := env.elapsed (state.lastPhaseSwitch + env.cfg.globalHysteresis)
  let force3p := !hystElapsed && state.phases == 3
  let force1p := !hystElapsed && state.phases == 1
  let isFixed3p := state.phases == 3 && !state.phaseSwitchSupported
  let isUnknownRotSwitchable := state.phaseRotation == .unknown && state.phaseSwitchSupported
  { force3p := force3p
    force1p := force1p
    isFixed3p := isFixed3p
    isUnknownRotSwitchable := isUnknownRotSwitchable
    try3p := !force1p && (force3p || isFixed3p || isUnknownRotSwitchable)
    try1p := !force3p && !isFixed3p }

/-- Explains the activations stage 4 does not try. -/
def stage4Explain (env : StageEnv n) (sc : StageContext n) (i : Fin n) : StageContext n :=
  let state := env.chargerState i
  let choice := phaseChoice env state
  let phaseSwitchHyst := state.lastPhaseSwitch + env.cfg.globalHysteresis
  let sc :=
    if choice.force3p then sc.setOneDecision i (.noForced3pUntil phaseSwitchHyst) else sc
  let sc :=
    if choice.force1p then sc.setThreeDecision i (.noForced1pUntil phaseSwitchHyst) else sc
  let sc := if choice.isFixed3p then sc.setOneDecision i .noFixed3p else sc
  if state.phases == 1 && !state.phaseSwitchSupported then sc.setThreeDecision i .noFixed1p else sc

/-- The phases stage 4 activates, and the decision that says so. -/
def stage4Phases (env : StageEnv n) (sc : StageContext n) (i : Fin n)
    (haveActiveChargers : Bool) : UInt8 × StageContext n :=
  let choice := phaseChoice env (env.chargerState i)
  let (result3p, sc) :=
    if choice.try3p then tryActivate env sc i true haveActiveChargers else (false, sc)
  if result3p then
    (3, sc.setThreeDecision i
      (if choice.isUnknownRotSwitchable then .yesUnknownRotSwitchable else .yesNormal))
  else
    let (result1p, sc) :=
      if choice.try1p then tryActivate env sc i false haveActiveChargers else (false, sc)
    if result1p then (1, sc.setOneDecision i .yesNormal) else (0, sc)

def stage4Charger (env : StageEnv n) (acc : StageContext n × Bool) (i : Fin n) :
    StageContext n × Bool :=
  let (sc, haveActiveChargers) := acc
  let choice := phaseChoice env (env.chargerState i)
  let sc := stage4Explain env sc i
  if !sc.caState.globalHysteresisElapsed then
    let hyst := sc.caState.lastHysteresisReset + env.cfg.globalHysteresis
    let sc := if choice.try3p then sc.setThreeDecision i (.noHysteresisBlockedUntil hyst) else sc
    let sc := if choice.try1p then sc.setOneDecision i (.noHysteresisBlockedUntil hyst) else sc
    (sc, haveActiveChargers)
  else
    let (phaseAlloc, sc) := stage4Phases env sc i haveActiveChargers
    let sc := sc.setPhases i phaseAlloc
    if phaseAlloc > 0 then (calculateWindow env sc, true) else (sc, haveActiveChargers)

/-- Activation order of stages 4 and 5. -/
def activationGroup (env : StageEnv n) (i : Fin n) : Int :=
  -(getHighestChargeModeBit (env.chargerState i) : Int)

def activationCompare (env : StageEnv n) (left right : Fin n) : Bool :=
  decide ((env.chargerState left).allocatedAveragePower <
    (env.chargerState right).allocatedAveragePower)

/-- `stage_4`. -/
def stage4 (env : StageEnv n) (sc : StageContext n) : StageContext n :=
  let sc := calculateWindow env sc
  let (sc, matched) := filterChargers (fun i => decide (sc.phaseAllocation i = 0) &&
    ((env.chargerState i).wantsToCharge || (env.chargerState i).isCharging)) sc
  let sc := sortChargersImpl (activationGroup env) (activationCompare env) sc matched
  let haveActiveChargers := (List.finRange n).any fun i => decide (sc.phaseAllocation i > 0)
  ((sc.idxArray.take matched).foldl (stage4Charger env) (sc, haveActiveChargers)).1

/-- The request of stage 5: the cost of three phases minus the one-phase cost that
is already part of the window. -/
def phaseSwitchRequest (env : StageEnv n) (sc : StageContext n) (state : ChargerState)
    (checkPvMin : Nat) : ActivationRequest :=
  let factor := env.cfg.enableCurrentFactor.value
  let alreadyAllocated := getMinimumCost 1 state.phaseRotation env.cfg
  let oldFactors := getPhaseFactors 1 state.phaseRotation
  let newCost := Cost.scale env.cfg.minimumCurrent3p ⟨3, 1, 1, 1⟩ - alreadyAllocated
  let newEnableCost :=
    Cost.scaleFloat (Float32.Model.ofInt env.cfg.minimumCurrent3p * factor) ⟨3, 1, 1, 1⟩ -
      Cost.scaleFloat factor alreadyAllocated
  let improveCheck :=
    if state.guaranteedPvCurrent - alreadyAllocated.pv ≥ newCost.pv then 0
    else checkImprovementAllPhase
  { checkPhase := fun p =>
      match p with
      | .pv => if !state.observePvLimit then 0 else improveCheck ||| checkPvMin
      | p => (if oldFactors.get p > 0 then 0 else improveCheck) ||| checkMinWindowEnable
    newCost := newCost
    newEnableCost := newEnableCost
    wndMin := sc.caState.controlWindowMin
    wndMax := sc.caState.controlWindowMax
    isUnknownRotated1p3pSwitch := state.phaseRotation == .unknown
    guaranteedPvCurrent := state.guaranteedPvCurrent - alreadyAllocated.pv
    is3pActivation := true }

def stage5Charger (env : StageEnv n) (checkPvMin : Nat) (sc : StageContext n) (i : Fin n) :
    StageContext n :=
  let state := env.chargerState i
  let phaseSwitchHyst := state.lastPhaseSwitch + env.cfg.globalHysteresis
  if !env.elapsed phaseSwitchHyst then
    sc.setThreeDecision i (.noForced1pUntil phaseSwitchHyst)
  else if !sc.caState.globalHysteresisElapsed ∧
      (env.chargerAllocationState i).allocatedCurrent ≠ 0 then
    sc.setThreeDecision i
      (.noHysteresisBlockedUntil (sc.caState.lastHysteresisReset + env.cfg.globalHysteresis))
  else
    let (result, sc) := canActivate env sc i (phaseSwitchRequest env sc state checkPvMin)
    if result then
      calculateWindow env ((sc.setThreeDecision i .yesNormal).setPhases i 3)
    else sc

/-- `stage_5`. The window of the last activation is current when the stage starts. -/
def stage5 (env : StageEnv n) (sc : StageContext n) : StageContext n :=
  let activeChargers := (List.finRange n).countP fun i => decide (sc.phaseAllocation i ≠ 0)
  let checkPvMin := if activeChargers < 2 then checkMinWindowMin else checkMinWindowEnable
  let (sc, matched) := filterChargers (fun i => decide (sc.phaseAllocation i = 1) &&
    (env.chargerState i).phaseSwitchSupported) sc
  let sc := sortChargersImpl (activationGroup env) (activationCompare env) sc matched
  (sc.idxArray.take matched).foldl (stage5Charger env checkPvMin) sc

def currentlyWakingUpCar : Int := 0

def neverAttemptedToWakeUp : Int := 1

def carDidNotWakeUp : Int := 2

/-- `stage_9_group`. -/
def stage9Group (env : StageEnv n) (state : ChargerState) : Int :=
  if state.lastWakeup ≠ 0 then
    if env.elapsed (state.lastWakeup + env.cfg.wakeupTime) then carDidNotWakeUp
    else currentlyWakingUpCar
  else neverAttemptedToWakeUp

/-- `stage_9_sort`. -/
def stage9Sort (env : StageEnv n) (left right : ChargerState) : Bool :=
  if stage9Group env left = currentlyWakingUpCar then decide (left.lastWakeup ≥ right.lastWakeup)
  else if stage9Group env left = neverAttemptedToWakeUp then
    decide (left.lastSwitchOn < right.lastSwitchOn)
  else decide (left.lastWakeup < right.lastWakeup)

/-- The enable cost of a wake-up if it fits the limits. -/
def affordableWakeUp (env : StageEnv n) (sc : StageContext n) (i : Fin n)
    (activate3p haveActiveChargers : Bool) : Option EnableCost :=
  let state := env.chargerState i
  let cost := getEnableCost state activate3p haveActiveChargers env.cfg
  if costExceedsLimits cost.enable sc.limits 9 state.observePvLimit state.guaranteedPvCurrent then
    none
  else some cost

/-- The phases and the cost stage 9 wakes a charger up with. -/
def wakeUp (env : StageEnv n) (sc : StageContext n) (i : Fin n) (haveActiveChargers : Bool) :
    Option (UInt8 × EnableCost) :=
  let choice := phaseChoice env (env.chargerState i)
  let cost3p := if choice.try3p then affordableWakeUp env sc i true haveActiveChargers else none
  let cost1p := if choice.try1p then affordableWakeUp env sc i false haveActiveChargers else none
  match cost3p, cost1p with
  | some cost, _ => some (3, cost)
  | none, some cost => some (1, cost)
  | none, none => none

def stage9Charger (env : StageEnv n) (haveActiveChargers : Bool) (sc : StageContext n)
    (i : Fin n) : StageContext n :=
  if !sc.caState.globalHysteresisElapsed ∧
      (env.chargerAllocationState i).allocatedCurrent = 0 then sc
  else
    match wakeUp env sc i haveActiveChargers with
    | none => sc
    | some (phaseAlloc, cost) =>
      let sc :=
        if phaseAlloc = 3 then sc.setThreeDecision i .yesWakingUp
        else sc.setOneDecision i .yesWakingUp
      let sc := (sc.setCurrentDecision i .enableNotCharging).applyCost cost.enable
      calculateWindow env ((sc.setPhases i phaseAlloc).setCurrent i cost.enableCurrent)

/-- `stage_9`. -/
def stage9 (env : StageEnv n) (sc : StageContext n) : StageContext n :=
  let haveActiveChargers := decide (sc.caState.controlWindowMin.pv ≠ 0)
  let (sc, matched) := filterChargers (fun i => decide (sc.phaseAllocation i = 0) &&
    ((env.chargerState i).wantsToChargeLowPriority ||
      ((env.chargerState i).wantsToCharge && (env.chargerState i).lastWakeup != 0))) sc
  if matched = 0 then sc
  else
    let sc := sortChargersImpl (fun i => stage9Group env (env.chargerState i))
      (fun left right => stage9Sort env (env.chargerState left) (env.chargerState right)) sc matched
    (sc.idxArray.take matched).foldl (stage9Charger env haveActiveChargers) sc

end Esp32Firmware.ChargeManager
