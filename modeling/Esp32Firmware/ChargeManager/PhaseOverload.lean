import Esp32Firmware.ChargeManager.Window

/-!
# Stages 1 to 3: rotation, plugged-in chargers and overload

Before the stages run, decisions of the last allocation that are re-decided are
cleared. Stage 1 then takes the phases of chargers that are not active any more or
that make room for waiting chargers.

Stage 2 activates chargers where a vehicle was just plugged in and ignores limits.
Stage 3 shuts down chargers until the minimum of the window fits the raw limits.
-/

namespace Esp32Firmware.ChargeManager

variable {n : Nat}

/-- The chargers `0` to `charger_count - 1`, by number and not by `idx_array`. -/
def StageContext.numbered (sc : StageContext n) : List (Fin n) :=
  (List.finRange n).take sc.chargerCount

def decisionPreprocessCharger (env : StageEnv n) (sc : StageContext n) (i : Fin n) :
    StageContext n :=
  let sc := sc.setCurrentDecision i .none
  let state := env.chargerState i
  if !state.isCharging && !state.wantsToCharge && !state.wantsToChargeLowPriority then
    ((sc.setZeroDecision i .none).setOneDecision i .none).setThreeDecision i .none
  else
    sc.modifyDecision i fun d =>
      { d with
        zero := d.zero.clearBlocks
        one := if d.one.toClearPre then .none else d.one
        three := if d.three.toClearPre then .none else d.three }

/-- `decision_preprocess`. -/
def decisionPreprocess (env : StageEnv n) (sc : StageContext n) : StageContext n :=
  let sc := sc.numbered.foldl (decisionPreprocessCharger env) sc
  sc.numbered.foldl
    (fun sc i => sc.modifyDecision i fun d => { d with zero := d.zero.clearWaitingForRotation }) sc

def decisionPostprocessCharger (sc : StageContext n) (i : Fin n) : StageContext n :=
  let old := sc.chargerDecisions i
  let allocd := sc.phaseAllocation i
  let sc :=
    if (allocd = 0 ∨ allocd = 1) ∧ old.three.isYes then sc.setThreeDecision i .none else sc
  let sc := if (allocd = 0 ∨ allocd = 3) ∧ old.one.isYes then sc.setOneDecision i .none else sc
  let sc := if (allocd = 1 ∨ allocd = 3) ∧ old.zero.isYes then sc.setZeroDecision i .none else sc
  let sc := if allocd = 1 ∧ !old.one.isYes then sc.setOneDecision i .yesNormal else sc
  if allocd = 3 ∧ !old.three.isYes then sc.setThreeDecision i .yesNormal else sc

/-- `decision_postprocess`. -/
def decisionPostprocess (sc : StageContext n) : StageContext n :=
  sc.numbered.foldl decisionPostprocessCharger sc

/-- What the first loop of stage 1 finds out about waiting (B1) chargers. -/
structure WaitingChargers where
  haveB1 : Bool
  b1OnPhase : Cost
  highestChargeModeBitSeen : Nat

/-- A waiting charger that was plugged in at least one allocation ago. -/
def isB1 (env : StageEnv n) (sc : StageContext n) (i : Fin n) : Bool :=
  let state := env.chargerState i
  state.wantsToCharge && sc.phaseAllocation i == 0 &&
    env.elapsed (state.lastPlugIn + env.cfg.allocationInterval)

def stage1Scan (env : StageEnv n) (haveActiveChargers : Bool)
    (acc : StageContext n × WaitingChargers) (i : Fin n) : StageContext n × WaitingChargers :=
  let (sc, waiting) := acc
  let state := env.chargerState i
  if state.off then (sc, waiting)
  else
    let highestBit := getHighestChargeModeBit state
    let highestBit := if highestBit = ChargeMode.min.bit then ChargeMode.pv.bit else highestBit
    let waiting :=
      if state.wantsToCharge || state.isCharging then
        { waiting with
          highestChargeModeBitSeen := max waiting.highestChargeModeBitSeen highestBit }
      else waiting
    let b1 := isB1 env sc i
    let sc :=
      if b1 && haveActiveChargers then
        sc.setZeroDecision i (.yesWaitingForRotation sc.caState.nextRotation)
      else sc
    if b1 then
      let b1OnPhase :=
        if state.phases = 3 ∨ state.phaseRotation = .unknown then
          waiting.b1OnPhase + ⟨0, 1, 1, 1⟩
        else waiting.b1OnPhase.set (getPhase state.phaseRotation .p1) 1
      (sc, { waiting with haveB1 := true, b1OnPhase := b1OnPhase })
    else (sc, waiting)

/-- The next rotation, aligned to the wall clock if it is known. -/
def nextRotation (env : StageEnv n) : Int :=
  let interval := env.cfg.rotationInterval
  let next := env.now + interval * 1000000
  match env.wallClock with
  | none => next
  | some (now, midnight) =>
    let offset := (now - midnight).tmod interval
    let next := next - offset * 1000000 + 1000000
    if offset * 1000000 ≥ 2 * env.cfg.allocationInterval then next + interval * 1000000
    else next

/-- Deactivates a charger or keeps it, with the phases it is connected to if it can
not switch phases. -/
def stage1Charger (env : StageEnv n) (rotationAllowed : Bool) (waiting : WaitingChargers)
    (sc : StageContext n) (i : Fin n) : StageContext n :=
  if sc.phaseAllocation i = 0 then sc
  else
    let state := env.chargerState i
    let mayRotate := rotationAllowed && sc.caState.globalHysteresisElapsed
    let rotateForWaitingB1 := mayRotate && waiting.haveB1
    let rotateForHigherPrio :=
      mayRotate && decide (getHighestChargeModeBit state < waiting.highestChargeModeBitSeen)
    let rotateForWaitingB1 :=
      if rotateForWaitingB1 ∧ state.phases ≠ 3 ∧ state.phaseRotation ≠ .unknown then
        waiting.b1OnPhase.get (getPhase state.phaseRotation .p1) == 1
      else rotateForWaitingB1
    let active := isActive (sc.phaseAllocation i) state
    let keepActive := active && !rotateForWaitingB1 && !rotateForHigherPrio && !state.off
    if !keepActive then
      let sc :=
        if !active then sc.setZeroDecision i .yesNotActive
        else if rotateForWaitingB1 then sc.setZeroDecision i .yesRotatedForB1
        else if rotateForHigherPrio then sc.setZeroDecision i .yesRotatedForHigherPrio
        else sc
      sc.setPhases i 0
    else if !state.phaseSwitchSupported then
      let sc :=
        if sc.phaseAllocation i = 3 ∧ state.phases = 1 then
          (sc.setThreeDecision i .noFixed1p).setOneDecision i .yesSwitchedToFixed1p
        else if sc.phaseAllocation i = 1 ∧ state.phases = 3 then
          (sc.setOneDecision i .noFixed3p).setThreeDecision i .yesSwitchedToFixed3p
        else sc
      sc.setPhases i state.phases
    else sc

/-- `stage_1`. -/
def stage1 (env : StageEnv n) (sc : StageContext n) : StageContext n :=
  let haveActiveChargers := sc.numbered.any fun i => decide (sc.phaseAllocation i > 0)
  let (sc, waiting) :=
    sc.numbered.foldl (stage1Scan env haveActiveChargers) (sc, ⟨false, 0, 0⟩)
  let rotationAllowed :=
    decide (env.cfg.rotationInterval > 0) && env.elapsed sc.caState.nextRotation
  let sc :=
    if rotationAllowed then
      { sc with caState := { sc.caState with nextRotation := nextRotation env } }
    else sc
  sc.numbered.foldl (stage1Charger env rotationAllowed waiting) sc

def stage2Charger (env : StageEnv n) (sc : StageContext n) (i : Fin n) : StageContext n :=
  let state := env.chargerState i
  let activate3p : Bool := state.phases == 3 && !state.phaseSwitchSupported
  let sc :=
    if sc.phaseAllocation i = 0 then sc.setPhases i (if activate3p then 3 else 1) else sc
  let wcStart := if state.lastSwitchOn = 0 then env.now else state.lastSwitchOn
  let wcEnd := wcStart + env.cfg.plugInTime
  if activate3p then sc.setThreeDecision i (.yesWelcomeChargeUntil wcEnd)
  else sc.setOneDecision i (.yesWelcomeChargeUntil wcEnd)

/-- `stage_2`. -/
def stage2 (env : StageEnv n) (sc : StageContext n) : StageContext n :=
  let (sc, matched) := filterChargers (fun i => wasJustPluggedIn (env.chargerState i)) sc
  let sc := sortChargersImpl (fun _ => 0)
    (fun left right => decide ((env.chargerState left).justPluggedInTimestamp <
      (env.chargerState right).justPluggedInTimestamp)) sc matched
  (sc.idxArray.take matched).foldl (stage2Charger env) sc

/-- Shuts down chargers on phase `p` until the window minimum fits its raw limit. -/
def stage3Phase (env : StageEnv n) (p : GridPhase) :
    List (Fin n) → Cost × StageContext n → Cost × StageContext n
  | [], acc => acc
  | i :: rest, (wndMin, sc) =>
    if wndMin.get p ≤ sc.limits.raw.get p then (wndMin, sc)
    else
      let state := env.chargerState i
      let allocPhases := sc.phaseAllocation i
      if allocPhases = 0 then stage3Phase env p rest (wndMin, sc)
      else if allocPhases = 1 ∧ state.phaseRotation ≠ .unknown ∧
          p ≠ getPhase state.phaseRotation .p1 then
        stage3Phase env p rest (wndMin, sc)
      else
        let sc := sc.setZeroDecision i
          (.yesPhaseOverload (wndMin.get p - sc.limits.raw.get p) p.toNat)
        stage3Phase env p rest
          (wndMin - getMinimumCost allocPhases state.phaseRotation env.cfg, sc.setPhases i 0)

/-- Shuts down PV chargers while the PV excess is permanently too small. -/
def stage3Pv (env : StageEnv n) : List (Fin n) → Cost × StageContext n → Cost × StageContext n
  | [], acc => acc
  | i :: rest, (wndMin, sc) =>
    if sc.limits.raw.pv ≥ wndMin.pv then (wndMin, sc)
    else
      let state := env.chargerState i
      let allocPhases := sc.phaseAllocation i
      let minCost := getMinimumCost allocPhases state.phaseRotation env.cfg
      let isMin : Bool := decide (state.guaranteedPvCurrent > 0)
      let usesMinNumberOfPhases : Bool := !state.phaseSwitchSupported || state.phases == 1
      if allocPhases = 0 ∨ wasJustPluggedIn state ∨ !state.observePvLimit then
        stage3Pv env rest (wndMin, sc)
      else if isMin && usesMinNumberOfPhases then stage3Pv env rest (wndMin, sc)
      else if state.observePvLimit ∧ minCost.pv ≤ state.guaranteedPvCurrent then
        stage3Pv env rest (wndMin, sc)
      else if wndMin.pv < sc.limits.maxPv then
        stage3Pv env rest (wndMin, sc.setZeroDecision i
          (.noCloudFilterBlocksUntil sc.limits.maxPvExpirationTs sc.limits.maxPv))
      else if !sc.caState.globalHysteresisElapsed then
        stage3Pv env rest (wndMin, sc.setZeroDecision i
          (.noHysteresisBlocksUntil (sc.caState.lastHysteresisReset + env.cfg.globalHysteresis)))
      else
        let sc := sc.setZeroDecision i (.yesPVExcessOverload (wndMin.pv - sc.limits.maxPv))
        stage3Pv env rest (wndMin - minCost, sc.setPhases i 0)

/-- Shut down order: PV chargers first, just plugged-in chargers last. -/
def stage3Group (env : StageEnv n) (i : Fin n) : Int :=
  if wasJustPluggedIn (env.chargerState i) then (ChargeMode.maxBit : Int) + 1
  else (getHighestChargeModeBit (env.chargerState i) : Int)

def stage3Compare (env : StageEnv n) (left right : Fin n) : Bool :=
  if wasJustPluggedIn (env.chargerState left) then
    decide ((env.chargerState left).justPluggedInTimestamp <
      (env.chargerState right).justPluggedInTimestamp)
  else decide ((env.chargerState left).lastSwitchOn < (env.chargerState right).lastSwitchOn)

/-- `stage_3`. -/
def stage3 (env : StageEnv n) (sc : StageContext n) : StageContext n :=
  let sc := calculateWindow env sc
  let wndMin := sc.caState.controlWindowMin
  let (sc, matched) := filterChargers (fun i => decide (sc.phaseAllocation i > 0)) sc
  let sc := sortChargersImpl (stage3Group env) (stage3Compare env) sc matched
  let chargers := sc.idxArray.take matched
  let acc := GridPhase.phases.foldl (fun acc p => stage3Phase env p chargers acc) (wndMin, sc)
  (stage3Pv env chargers acc).2

end Esp32Firmware.ChargeManager
