import Esp32Firmware.ChargeManager.PhaseOverload
import Esp32Firmware.ChargeManager.Activation
import Esp32Firmware.ChargeManager.Distribution

/-!
# The allocator

`allocate_current` handles unreachable chargers, runs the stages once for all
chargers and once for each charge mode, and writes the allocation back.

## Implementation notes

Float expressions are evaluated operation by operation. Logging, the
notification of unresponsive chargers and the firmware update lock are left out.
-/

namespace Esp32Firmware.ChargeManager

variable {n : Nat}

/-- An error that shuts down all chargers. -/
def CASError.isFatal (e : CASError) : Bool :=
  e != .ok && e != .chargerUnreachable && e != .evseNonreactive && e.belowClientError

/-- A charger that did not react to the last configuration in time. -/
def isNonreactive (now : Int) (charger : ChargerState) (chargerAlloc : ChargerAllocationState) :
    Bool :=
  (decide (chargerAlloc.allocatedCurrent < charger.allowedCurrent) ||
    (chargerAlloc.allocatedPhases != 0 &&
      decide (chargerAlloc.allocatedPhases.toInt < charger.phases.toNat)) ||
    (chargerAlloc.allocatedPhases == 0 && charger.isCharging)) &&
  decide (chargerAlloc.lastSentConfig + chargerUnreachableTimeout < now)

/-- A charger that was not heard of for too long. -/
def isUnreachable (now : Int) (charger : ChargerState) : Bool :=
  decide (now - charger.lastUpdate > chargerUnreachableTimeout)

/-- The checks of one charger for unreachability. -/
def handleUnreachable (now : Int) (charger : ChargerState)
    (chargerAlloc : ChargerAllocationState) : ChargerState × ChargerAllocationState :=
  let chargerError := chargerAlloc.error
  if now - charger.lastUpdate > reResolveTimeout then
    if isUnreachable now charger then
      ({ charger with off := true },
        { chargerAlloc with
          state := .error
          error :=
            if chargerAlloc.state ≠ .error ∨ chargerError.belowClientError then
              .chargerUnreachable
            else chargerAlloc.error })
    else (charger, chargerAlloc)
  else if chargerAlloc.error = .chargerUnreachable then
    (charger, { chargerAlloc with error := .ok })
  else (charger, chargerAlloc)

/-- The check of one charger for a reaction; `chargerError` is its error before the
error handling. -/
def handleNonreactive (now : Int) (charger : ChargerState) (chargerError : CASError)
    (chargerAlloc : ChargerAllocationState) : ChargerAllocationState :=
  if isNonreactive now charger chargerAlloc then
    { chargerAlloc with
      state := .error
      error :=
        if chargerAlloc.state ≠ .error ∨ chargerError.belowClientError then .evseNonreactive
        else chargerAlloc.error }
  else if chargerAlloc.error = .evseNonreactive then { chargerAlloc with error := .ok }
  else chargerAlloc

/-- The error handling of one charger, and whether it shuts down all chargers. -/
def handleErrors (now : Int) (charger : ChargerState) (chargerAlloc : ChargerAllocationState) :
    ChargerState × ChargerAllocationState × Bool :=
  let chargerError := chargerAlloc.error
  let (charger, chargerAlloc) := handleUnreachable now charger chargerAlloc
  (charger, handleNonreactive now charger chargerError chargerAlloc,
    chargerError.isFatal || isNonreactive now charger chargerAlloc)

/-- Arguments of `allocate_current`. -/
structure AllocatorInput (n : Nat) where
  cfg : CurrentAllocatorConfig n
  limits : CurrentLimits
  cpDisconnectRequested : Bool
  chargerState : Fin n → ChargerState
  caState : CurrentAllocatorState
  chargerAllocationState : Fin n → ChargerAllocationState
  chargerDecisions : Fin n → ChargerDecision
  now : Int
  wallClock : Option (Int × Int)

namespace AllocatorInput

variable (input : AllocatorInput n)

def requestedAlloc (i : Fin n) : ChargerAllocationState :=
  { input.chargerAllocationState i with cpDisconnect := input.cpDisconnectRequested }

def handled (i : Fin n) : ChargerState × ChargerAllocationState × Bool :=
  handleErrors input.now (input.chargerState i) (input.requestedAlloc i)

def unreachableEvseFound : Bool := (List.finRange n).any fun i => (input.handled i).2.2

/-- What the stages read: the states after the error handling. -/
def env : StageEnv n where
  cfg := input.cfg
  chargerState i :=
    if input.unreachableEvseFound then { (input.handled i).1 with off := true }
    else (input.handled i).1
  chargerAllocationState i := (input.handled i).2.1
  now := input.now
  wallClock := input.wallClock

def globalHysteresisElapsed : Bool :=
  input.caState.lastHysteresisReset == 0 ||
    decide (input.caState.lastHysteresisReset + input.cfg.globalHysteresis < input.now)

def initialContext : StageContext n where
  idxArray := List.finRange n
  currentAllocation _ := 0
  phaseAllocation i := (input.chargerAllocationState i).allocatedPhases.toUInt8
  chargerDecisions := input.chargerDecisions
  limits := input.limits
  chargerCount := n
  caState :=
    { input.caState with globalHysteresisElapsed := input.globalHysteresisElapsed }
  chargeModeFilter := 255
  exceeded := []

end AllocatorInput

/-- Stages 1 to 3 and the first stage 6, with the number of chargers not off. -/
def allocateAll (env : StageEnv n) (sc : StageContext n) : StageContext n × Nat :=
  let sc := stage1 env (decisionPreprocess env sc)
  let (sc, notOffCount) := filterChargers (fun i => !(env.chargerState i).off) sc
  let sc := { sc with chargerCount := notOffCount }
  (stage6 env (stage3 env (stage2 env sc)), notOffCount)

/-- The charge modes that are allocated together with `mode`. -/
def modeFilter (mode : ChargeMode) : Nat :=
  if mode = .min then mode.bit ||| ChargeMode.pv.bit else mode.bit

def inModeGroup (filter : Nat) (state : ChargerState) : Bool :=
  getHighestChargeModeBit state &&& filter != 0

/-- Stages 4 to 8 for one charge mode. -/
def allocateMode (env : StageEnv n) (notOffCount : Nat) (sc : StageContext n) (mode : ChargeMode) :
    StageContext n :=
  let sc := { sc with chargeModeFilter := modeFilter mode }
  let (sc, count) := filterChargersImpl
    (fun i => inModeGroup (modeFilter mode) (env.chargerState i)) sc notOffCount
  let sc := { sc with chargerCount := count }
  stage8 env false (stage7 env (stage6 env (stage5 env (stage4 env (undoStage6 env sc)))))

/-- The charge modes in the order of the loop. -/
def allocatedModes : List ChargeMode := [.fast, .eco, .min]

/-- The context before the wake-up stage. -/
def beforeWakeUp (env : StageEnv n) (sc : StageContext n) : StageContext n :=
  let (sc, notOffCount) := allocateAll env sc
  { allocatedModes.foldl (allocateMode env notOffCount) sc with chargerCount := notOffCount }

/-- All stages. -/
def runStages (env : StageEnv n) (sc : StageContext n) : StageContext n :=
  decisionPostprocess (stage8 env true (stage9 env (beforeWakeUp env sc)))

/-- `float / double`, assigned to a float. -/
def divDouble (x : Float32.Model) (d : Int) : Float32.Model :=
  match Float.Model.UnpackedFloat.div .binary64 x.unpack
      (Float.Model.UnpackedFloat.ofInt .binary64 d) with
  | .finite s m e _ => .pack (Float.Model.UnpackedFloat.round .binary32 s m e)
  | u => .pack u

/-- The energy in kWh a charger gets until the next allocation. -/
def allocatedEnergy (env : StageEnv n) (charger : ChargerState) (currentToSet : UInt16)
    (phasesToSet : Int8) : Float32.Model :=
  let float := Float32.Model.ofInt
  let chargingTime := float (env.now - charger.lastPlugIn)
  let amps := float currentToSet.toNat * float phasesToSet.toInt / float 1000
  let allocTime :=
    if !env.elapsed (charger.lastPlugIn + env.cfg.allocationInterval) then chargingTime
    else float env.cfg.allocationInterval
  let ampHours := amps * (allocTime / float 3600000000)
  ampHours * float 230 / float 1000

/-- Charging at the guaranteed current in an expensive time slot. -/
def ecoMinPvHack (charger : ChargerState) (currentToSet : UInt16) (phasesToSet : Int8) : Bool :=
  let ecoMin := ChargeMode.eco.bit ||| ChargeMode.min.bit
  charger.chargeMode.toNat &&& ecoMin == ecoMin && !charger.ecoFast &&
    decide ((currentToSet.toNat : Int) * phasesToSet.toInt ≤ charger.guaranteedPvCurrent)

/-- Time stamps and energy of a charger after the allocation. -/
def applyToCharger (env : StageEnv n) (charger : ChargerState) (oldPhases : Int8)
    (currentToSet : UInt16) (phasesToSet : Int8) : ChargerState :=
  let charger :=
    if oldPhases ≠ phasesToSet ∧ oldPhases = 0 then { charger with lastSwitchOn := env.now }
    else charger
  let charger :=
    if (charger.phases.toNat : Int) ≠ phasesToSet.toInt ∧ phasesToSet ≠ 0 then
      { charger with lastPhaseSwitch := env.now }
    else charger
  let charger :=
    if charger.wantsToChargeLowPriority ∧ oldPhases = 0 ∧ phasesToSet ≠ 0 then
      { charger with lastWakeup := env.now }
    else charger
  let charger :=
    if currentToSet < charger.requestedCurrent then
      { charger with useSupportedCurrent := env.now }
    else charger
  let charger :=
    if charger.justPluggedInTimestamp ≠ 0 ∧ phasesToSet > 0 ∧
        env.elapsed (charger.lastSwitchOn + env.cfg.plugInTime) then
      { charger with justPluggedInTimestamp := 0 }
    else charger
  let charger :=
    if charger.justPluggedInTimestamp ≠ 0 ∧ oldPhases > 0 ∧ phasesToSet = 0 then
      { charger with justPluggedInTimestamp := 0 }
    else charger
  let charger :=
    if phasesToSet ≠ 0 then
      { charger with
        allocatedEnergy :=
          charger.allocatedEnergy + allocatedEnergy env charger currentToSet phasesToSet }
    else charger
  let chargingTime := divDouble (Float32.Model.ofInt (env.now - charger.lastPlugIn)) 3600000000
  let charger :=
    { charger with allocatedAveragePower := charger.allocatedEnergy / chargingTime }
  if phasesToSet ≠ 0 ∧ charger.isCharging ∧ !ecoMinPvHack charger currentToSet phasesToSet then
    { charger with timeInStateC := charger.timeInStateC + env.cfg.allocationInterval }
  else charger

/-- Writes an allocation into the allocation state of a charger. -/
def applyToAllocation (now : Int) (chargerAlloc : ChargerAllocationState) (currentToSet : UInt16)
    (phasesToSet : Int8) : ChargerAllocationState :=
  let change := chargerAlloc.allocatedCurrent ≠ currentToSet ∨
    chargerAlloc.allocatedPhases ≠ phasesToSet
  { chargerAlloc with
    allocatedCurrent := currentToSet
    allocatedPhases := phasesToSet
    lastSentConfig :=
      if change ∧ chargerAlloc.error ≠ .evseNonreactive then now else chargerAlloc.lastSentConfig }

/-- What `allocate_current` returns and writes. -/
structure AllocatorOutput (n : Nat) where
  result : Nat
  limits : CurrentLimits
  chargerState : Fin n → ChargerState
  caState : CurrentAllocatorState
  chargerAllocationState : Fin n → ChargerAllocationState
  chargerDecisions : Fin n → ChargerDecision
  exceeded : List Nat

/-- `allocate_current`. -/
def allocateCurrent (input : AllocatorInput n) : AllocatorOutput n :=
  let env := input.env
  let sc := runStages env input.initialContext
  let currentToSet := fun i => UInt16.ofInt (sc.currentAllocation i)
  let phasesToSet := fun i => (sc.phaseAllocation i).toInt8
  let oldPhases := fun i => (env.chargerAllocationState i).allocatedPhases
  let resetHysteresis := (List.finRange n).any fun i =>
    oldPhases i != phasesToSet i && phasesToSet i != 0
  { result := if input.unreachableEvseFound then 2 else 1
    limits := sc.limits
    chargerState := fun i =>
      applyToCharger env (env.chargerState i) (oldPhases i) (currentToSet i) (phasesToSet i)
    caState :=
      { sc.caState with
        lastHysteresisReset :=
          if resetHysteresis then env.now else sc.caState.lastHysteresisReset }
    chargerAllocationState := fun i =>
      applyToAllocation env.now (env.chargerAllocationState i) (currentToSet i) (phasesToSet i)
    chargerDecisions := sc.chargerDecisions
    exceeded := sc.exceeded }

namespace TwoChargers

def enableFactor3 : EnableCurrentFactor := ⟨Float32.Model.ofInt 3, by decide, by decide⟩

/-- An installation with two chargers on 1 phase each: a vehicle charges at the first one,
the vehicle at the second one is full and may be woken up. -/
def config (minimum : Int) (hmin : 6000 ≤ minimum ∧ minimum ≤ 32000) : CurrentAllocatorConfig 2 where
  allocationInterval := 10000000
  globalHysteresis := 180000000
  wakeupTime := 180000000
  plugInTime := 180000000
  rotationInterval := 10800
  minimumCurrent3p := minimum
  minimumCurrent1p := minimum
  enableCurrentFactor := enableFactor3
  requestedCurrentMargin := 3000
  requestedCurrentThreshold := 60
  enableCentralManagement := false
  chargerCount_pos := by decide
  chargerCount_le := by decide
  minimumCurrent3p_mem := hmin
  minimumCurrent1p_mem := hmin

def charger (userCurrent : UInt16) (charging : Bool) : ChargerState where
  lastUpdate := 1000000000
  uid := 0
  uptime := 0
  powerTotalCount := 0
  powerTotalSum := Float32.Model.ofInt 0
  energyAbs := Float32.Model.ofInt 0
  supportedCurrent := 32000
  allowedCurrent := 0
  requestedCurrent := 32000
  userCurrent := userCurrent
  chargerState := if charging then 3 else 1
  wantsToCharge := charging
  wantsToChargeLowPriority := !charging
  isCharging := charging
  cpDisconnectSupported := false
  cpDisconnectState := false
  meterSupported := false
  phaseSwitchSupported := false
  currentlySwitchingPhases := false
  phases := 1
  phaseRotation := .l123
  allocatedEnergy := Float32.Model.ofInt 0
  allocatedAveragePower := Float32.Model.ofInt 0
  lastSwitchOn := 0
  lastPhaseSwitch := 0
  justPluggedInTimestamp := 0
  lastPlugIn := 0
  lastPlugOut := 0
  lastWakeup := 0
  useSupportedCurrent := 0
  timeInStateC := 0
  chargeMode := 2
  off := false
  observePvLimit := false
  ecoFast := false
  guaranteedPvCurrent := 32000
  authenticatedUserId := -1
  lastAuthSuccessTimestamp := 0
  lastAuthFailTimestamp := 0
  authInfo := fun _ => ⟨0, 0, fun _ => 0⟩
  requestedCurrent_le := by decide

def allocationState (charging : Bool) : ChargerAllocationState where
  lastSentConfig := 1000000000
  allocatedCurrent := if charging then 22000 else 0
  allocatedPhases := if charging then 1 else 0
  cpDisconnect := false
  error := .ok
  state := .charging

def limits : CurrentLimits where
  minExpirationTs _ := 0
  maxPvExpirationTs := 0
  raw := ⟨200000, 200000, 200000, 200000⟩
  min := ⟨200000, 200000, 200000, 200000⟩
  spread := ⟨200000, 200000, 200000, 200000⟩
  maxPv := 200000

theorem smallest_minimum : (6000 : Int) ≤ 6000 ∧ (6000 : Int) ≤ 32000 := by decide

def input (minimum : Int) (hmin : 6000 ≤ minimum ∧ minimum ≤ 32000) (userCurrent : UInt16) :
    AllocatorInput 2 where
  cfg := config minimum hmin
  limits := limits
  cpDisconnectRequested := false
  chargerState i := if i = 0 then charger 32000 true else charger userCurrent false
  caState := ⟨false, 0, 0, 0, 0⟩
  chargerAllocationState i := allocationState (i == 0)
  chargerDecisions _ := ⟨.none, .none, .none, .none⟩
  now := 1001000000
  wallClock := none

end TwoChargers

end Esp32Firmware.ChargeManager
