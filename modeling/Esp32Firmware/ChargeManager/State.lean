import Esp32Firmware.Library.Binary32.Operations

/-!
# State of the charge manager

Configuration, charger states and the context the allocation stages work on.
Currents are integers in mA. A cost holds one value for the PV excess and one for
each grid phase.

The allocator explains every allocation with four decisions for each charger.
Phases and currents of a decision's payload are the ones the allocator compared.

## Implementation notes

`PhaseRotation::NotApplicable` is left out: `convert_phase_rotation`, the only
writer of a charger's rotation, never yields it.

Time stamps and durations are integers in microseconds, except for the rotation
interval and the thresholds that the source keeps in seconds. The arrays of
`MAX_CONTROLLED_CHARGERS` entries are functions on `Fin n`, where `n` is the number
of chargers. Fields that only logging uses are left out.
-/

namespace Esp32Firmware.ChargeManager

inductive GridPhase where
  | pv | l1 | l2 | l3
  deriving DecidableEq, Repr

inductive ChargerPhase where
  | pv | p1 | p2 | p3
  deriving DecidableEq, Repr

inductive PhaseRotation where
  | unknown | l123 | l132 | l231 | l213 | l321 | l312
  deriving DecidableEq, Repr

namespace GridPhase

/-- The phases L1 to L3, without the PV excess. -/
def phases : List GridPhase := [l1, l2, l3]

def toNat : GridPhase → Nat
  | pv => 0
  | l1 => 1
  | l2 => 2
  | l3 => 3

def ofBits : Nat → GridPhase
  | 1 => l1
  | 2 => l2
  | 3 => l3
  | _ => pv

end GridPhase

namespace ChargerPhase

def toNat : ChargerPhase → Nat
  | pv => 0
  | p1 => 1
  | p2 => 2
  | p3 => 3

/-- The phases a charger uses when it is active on `n` of them. -/
def firstPhases (n : Nat) : List ChargerPhase := [p1, p2, p3].take n

end ChargerPhase

namespace PhaseRotation

/-- The macro `PHASE_ROTATION`: two bits for each charger phase. -/
def encode (x y z : GridPhase) : Nat :=
  (0 <<< 6) ||| ((x.toNat <<< 4) ||| (y.toNat <<< 2) ||| z.toNat)

def toNat : PhaseRotation → Nat
  | unknown => 0
  | l123 => encode .l1 .l2 .l3
  | l132 => encode .l1 .l3 .l2
  | l231 => encode .l2 .l3 .l1
  | l213 => encode .l2 .l1 .l3
  | l321 => encode .l3 .l2 .l1
  | l312 => encode .l3 .l1 .l2

end PhaseRotation

/-- The grid phase a charger phase is connected to. An unknown rotation is
reported as a bug and maps every phase to its own number. -/
def getPhase (rot : PhaseRotation) (phase : ChargerPhase) : GridPhase :=
  if rot = .unknown then GridPhase.ofBits phase.toNat
  else GridPhase.ofBits ((rot.toNat >>> (6 - 2 * phase.toNat)) &&& 3)

/-- Only the PV slot of a rotation is the PV excess. -/
theorem getPhase_eq_pv (rot : PhaseRotation) (phase : ChargerPhase) :
    getPhase rot phase = .pv ↔ phase = .pv := by
  cases rot <;> cases phase <;> decide

/-- A rotation connects the three phases of a charger to the three grid phases. -/
theorem exists_getPhase (rot : PhaseRotation) {p : GridPhase} (hp : p ≠ .pv) :
    ∃ phase ∈ ChargerPhase.firstPhases 3, getPhase rot phase = p := by
  cases rot <;> cases p <;> first | exact absurd rfl hp | decide

structure Cost where
  pv : Int
  l1 : Int
  l2 : Int
  l3 : Int
  deriving DecidableEq, Repr

namespace Cost

@[ext] theorem ext {a b : Cost} (hpv : a.pv = b.pv) (h1 : a.l1 = b.l1) (h2 : a.l2 = b.l2)
    (h3 : a.l3 = b.l3) : a = b := by
  cases a
  cases b
  simp_all

def get (c : Cost) : GridPhase → Int
  | .pv => c.pv
  | .l1 => c.l1
  | .l2 => c.l2
  | .l3 => c.l3

def set (c : Cost) (p : GridPhase) (x : Int) : Cost :=
  match p with
  | .pv => { c with pv := x }
  | .l1 => { c with l1 := x }
  | .l2 => { c with l2 := x }
  | .l3 => { c with l3 := x }

instance : Zero Cost := ⟨⟨0, 0, 0, 0⟩⟩

instance : Add Cost := ⟨fun a b => ⟨a.pv + b.pv, a.l1 + b.l1, a.l2 + b.l2, a.l3 + b.l3⟩⟩

instance : Sub Cost := ⟨fun a b => ⟨a.pv - b.pv, a.l1 - b.l1, a.l2 - b.l2, a.l3 - b.l3⟩⟩

instance : Neg Cost := ⟨fun a => ⟨a.pv * -1, a.l1 * -1, a.l2 * -1, a.l3 * -1⟩⟩

/-- `int * Cost`. -/
def scale (x : Int) (c : Cost) : Cost := ⟨c.pv * x, c.l1 * x, c.l2 * x, c.l3 * x⟩

def minPhase (c : Cost) : Int := min (min c.l1 c.l2) c.l3

def maxPhase (c : Cost) : Int := max (max c.l1 c.l2) c.l3

def withoutPv (c : Cost) : Cost := ⟨0, c.l1, c.l2, c.l3⟩

variable (a b : Cost) (p q : GridPhase) (x : Int)

@[simp] theorem get_zero : (0 : Cost).get p = 0 := by cases p <;> rfl

@[simp] theorem get_add : (a + b).get p = a.get p + b.get p := by cases p <;> rfl

@[simp] theorem get_sub : (a - b).get p = a.get p - b.get p := by cases p <;> rfl

@[simp] theorem get_neg : (-a).get p = -a.get p := by
  cases p <;> exact Int.mul_neg_one _

@[simp] theorem get_scale : (scale x a).get p = a.get p * x := by cases p <;> rfl

theorem get_set : (a.set p x).get q = if q = p then x else a.get q := by
  cases p <;> cases q <;> rfl

/-- A bound on the smallest phase is a bound on every phase. -/
theorem le_minPhase : x ≤ a.minPhase ↔ ∀ p, p ≠ .pv → x ≤ a.get p := by
  constructor
  · intro h p hp
    have h' : x ≤ a.l1 ∧ x ≤ a.l2 ∧ x ≤ a.l3 := by simpa [minPhase] using h
    cases p with
    | pv => exact absurd rfl hp
    | l1 => exact h'.1
    | l2 => exact h'.2.1
    | l3 => exact h'.2.2
  · intro h
    have h1 := h .l1 (by decide)
    have h2 := h .l2 (by decide)
    have h3 := h .l3 (by decide)
    simp only [get] at h1 h2 h3
    simp [minPhase, h1, h2, h3]

/-- `float * Cost`: every component is converted, multiplied and truncated. -/
def scaleFloat (f : Float32.Model) (c : Cost) : Cost :=
  ⟨truncMul c.pv, truncMul c.l1, truncMul c.l2, truncMul c.l3⟩
where
  truncMul (x : Int) : Int := (Float32.Model.ofInt x * f).toInt32.toInt

theorem get_scaleFloat (f : Float32.Model) :
    (scaleFloat f a).get p = scaleFloat.truncMul f (a.get p) := by
  cases p <;> rfl

end Cost

/-- Limits passed to the allocator; time stamps are in microseconds. -/
structure CurrentLimits where
  minExpirationTs : GridPhase → Int
  maxPvExpirationTs : Int
  raw : Cost
  min : Cost
  spread : Cost
  maxPv : Int

inductive ZeroPhaseDecision where
  | none
  | yesWaitingForRotation (nextRotation : Int)
  | yesNotActive
  | yesRotatedForB1
  | yesRotatedForHigherPrio
  | yesPhaseOverload (overloadMA : Int) (phase : Nat)
  | yesPVExcessOverload (overloadMA : Int)
  | noCloudFilterBlocksUntil (timestamp maxPvMA : Int)
  | noHysteresisBlocksUntil (timestamp : Int)
  deriving DecidableEq, Repr

inductive OnePhaseDecision where
  | none
  | yesSwitchedToFixed1p
  | yesNormal
  | yesWelcomeChargeUntil (timestamp : Int)
  | yesWakingUp
  | noPhaseMinimum (timestamp requiredMA minMA : Int) (phase : Nat)
  | noPhaseImprovement (timestamp allocableMA availableMA : Int) (phase : Nat)
  | noForced3pUntil (timestamp : Int)
  | noFixed3p
  | noHysteresisBlockedUntil (timestamp : Int)
  deriving DecidableEq, Repr

inductive ThreePhaseDecision where
  | none
  | yesSwitchedToFixed3p
  | yesNormal
  | yesUnknownRotSwitchable
  | yesWelcomeChargeUntil (timestamp : Int)
  | yesWakingUp
  | noPhaseMinimum (timestamp requiredMA minMA : Int) (phase : Nat)
  | noPhaseImprovement (timestamp allocableMA availableMA : Int) (phase : Nat)
  | noForced1pUntil (timestamp : Int)
  | noFixed1p
  | noHysteresisBlockedUntil (timestamp : Int)
  deriving DecidableEq, Repr

inductive CurrentDecision where
  | none
  | minimum
  | enableNotCharging
  | phaseLimit (unknownRotation : Bool)
  | requested
  | fair (unknownRotation : Bool)
  | guaranteedPV
  | fastRampUp
  | supportedByCharger
  | leftOver (unknownRotation : Bool)
  | userLimit
  deriving DecidableEq, Repr

structure ChargerDecision where
  zero : ZeroPhaseDecision
  one : OnePhaseDecision
  three : ThreePhaseDecision
  current : CurrentDecision
  deriving DecidableEq, Repr

namespace ZeroPhaseDecision

/-- The tags of `yes_0p`. -/
def isYes : ZeroPhaseDecision → Bool
  | yesWaitingForRotation _ | yesNotActive | yesRotatedForB1 | yesRotatedForHigherPrio
  | yesPhaseOverload .. | yesPVExcessOverload _ => true
  | none | noCloudFilterBlocksUntil .. | noHysteresisBlocksUntil _ => false

/-- `clear_charger_decision` for the two tags that are re-decided every time. -/
def clearBlocks : ZeroPhaseDecision → ZeroPhaseDecision
  | noCloudFilterBlocksUntil .. | noHysteresisBlocksUntil _ => none
  | d => d

/-- `clear_charger_decision` for `YesWaitingForRotation`. -/
def clearWaitingForRotation : ZeroPhaseDecision → ZeroPhaseDecision
  | yesWaitingForRotation _ => none
  | d => d

end ZeroPhaseDecision

namespace OnePhaseDecision

/-- The tags of `yes_1p`. -/
def isYes : OnePhaseDecision → Bool
  | yesSwitchedToFixed1p | yesNormal | yesWelcomeChargeUntil _ | yesWakingUp => true
  | _ => false

/-- The tags of `to_clear_pre_1p`. -/
def toClearPre : OnePhaseDecision → Bool
  | none | yesSwitchedToFixed1p | yesNormal => false
  | _ => true

end OnePhaseDecision

namespace ThreePhaseDecision

/-- The tags of `yes_3p`. -/
def isYes : ThreePhaseDecision → Bool
  | yesSwitchedToFixed3p | yesNormal | yesUnknownRotSwitchable | yesWelcomeChargeUntil _
  | yesWakingUp => true
  | _ => false

/-- The tags of `to_clear_pre_3p`. -/
def toClearPre : ThreePhaseDecision → Bool
  | none | yesSwitchedToFixed3p | yesNormal | yesUnknownRotSwitchable => false
  | _ => true

end ThreePhaseDecision

def maxControlledChargers : Nat := 64

def reResolveTimeout : Int := 6 * 1000000

def chargerUnreachableTimeout : Int := 32 * 1000000

/-- Bits of a charge mode. -/
inductive ChargeMode where
  | pv | min | eco | fast
  deriving DecidableEq, Repr

namespace ChargeMode

def bit : ChargeMode → Nat
  | pv => 1
  | min => 2
  | eco => 4
  | fast => 8

/-- `ChargeMode::_max`. -/
def maxBit : Nat := 8

end ChargeMode

inductive CASState where
  | noVehicle | userBlocked | managerBlocked | carBlocked | charging | error | charged
  | unauthorized
  deriving DecidableEq, Repr

/-- Errors of the allocator, with the codes from 192 on for errors of the client. -/
structure CASError where
  code : UInt8
  deriving DecidableEq, Repr

namespace CASError

def ok : CASError := ⟨0⟩

def chargerUnreachable : CASError := ⟨128⟩

def evseNonreactive : CASError := ⟨130⟩

def clientErrorOK : CASError := ⟨192⟩

/-- `error < CASError::ClientErrorOK`. -/
def belowClientError (e : CASError) : Bool := e.code < clientErrorOK.code

end CASError

/-- `enable_current_factor`, a float between 1 and 3. -/
structure EnableCurrentFactor where
  value : Float32.Model
  one_le : Float32.Model.ofInt 1 ≤ value
  le_three : value ≤ Float32.Model.ofInt 3

/-- Configuration of the allocator for `n` chargers. -/
structure CurrentAllocatorConfig (n : Nat) where
  allocationInterval : Int
  globalHysteresis : Int
  wakeupTime : Int
  plugInTime : Int
  /-- In seconds. -/
  rotationInterval : Int
  minimumCurrent3p : Int
  minimumCurrent1p : Int
  enableCurrentFactor : EnableCurrentFactor
  requestedCurrentMargin : UInt16
  /-- In seconds. -/
  requestedCurrentThreshold : UInt16
  enableCentralManagement : Bool
  chargerCount_pos : 0 < n
  chargerCount_le : n ≤ maxControlledChargers
  minimumCurrent3p_mem : 6000 ≤ minimumCurrent3p ∧ minimumCurrent3p ≤ 32000
  minimumCurrent1p_mem : 6000 ≤ minimumCurrent1p ∧ minimumCurrent1p ≤ 32000

/-- State of the allocator that is kept between allocations. -/
structure CurrentAllocatorState where
  globalHysteresisElapsed : Bool
  lastHysteresisReset : Int
  nextRotation : Int
  controlWindowMin : Cost
  controlWindowMax : Cost

/-- What a charger reports about an authentication. -/
structure CmAuthInfo where
  authMethod : UInt8
  lastSeenS : UInt16
  /-- The union of NFC tag and EV address. -/
  payload : Fin 12 → UInt8

/-- State of a charger. The requested current is only ever written together with
the supported current that caps it. -/
structure ChargerState where
  lastUpdate : Int
  uid : UInt32
  uptime : UInt32
  powerTotalCount : UInt32
  powerTotalSum : Float32.Model
  energyAbs : Float32.Model
  supportedCurrent : UInt16
  allowedCurrent : UInt16
  requestedCurrent : UInt16
  userCurrent : UInt16
  chargerState : UInt8
  wantsToCharge : Bool
  wantsToChargeLowPriority : Bool
  isCharging : Bool
  cpDisconnectSupported : Bool
  cpDisconnectState : Bool
  meterSupported : Bool
  phaseSwitchSupported : Bool
  currentlySwitchingPhases : Bool
  phases : UInt8
  phaseRotation : PhaseRotation
  allocatedEnergy : Float32.Model
  allocatedAveragePower : Float32.Model
  lastSwitchOn : Int
  lastPhaseSwitch : Int
  justPluggedInTimestamp : Int
  lastPlugIn : Int
  lastPlugOut : Int
  lastWakeup : Int
  useSupportedCurrent : Int
  timeInStateC : Int
  chargeMode : UInt8
  off : Bool
  observePvLimit : Bool
  ecoFast : Bool
  guaranteedPvCurrent : Int
  authenticatedUserId : Int16
  lastAuthSuccessTimestamp : Int
  lastAuthFailTimestamp : Int
  authInfo : Fin 3 → CmAuthInfo
  requestedCurrent_le : requestedCurrent ≤ supportedCurrent

/-- What was last sent to a charger. -/
structure ChargerAllocationState where
  lastSentConfig : Int
  allocatedCurrent : UInt16
  allocatedPhases : Int8
  cpDisconnect : Bool
  error : CASError
  state : CASState

/-- The part of `StageContext` that the stages only read. `wallClock` holds the
synchronised clock and the last local midnight, both in seconds. -/
structure StageEnv (n : Nat) where
  cfg : CurrentAllocatorConfig n
  chargerState : Fin n → ChargerState
  chargerAllocationState : Fin n → ChargerAllocationState
  now : Int
  wallClock : Option (Int × Int)

/-- `StageContext::elapsed`. -/
def StageEnv.elapsed {n : Nat} (env : StageEnv n) (timestamp : Int) : Bool :=
  timestamp < env.now

/-- The part of `StageContext` that the stages write. `exceeded` collects the
stages that logged a cost over the limits. -/
structure StageContext (n : Nat) where
  idxArray : List (Fin n)
  currentAllocation : Fin n → Int
  phaseAllocation : Fin n → UInt8
  chargerDecisions : Fin n → ChargerDecision
  limits : CurrentLimits
  chargerCount : Nat
  caState : CurrentAllocatorState
  chargeModeFilter : Nat
  exceeded : List Nat

namespace StageContext

variable {n : Nat} (sc : StageContext n) (i : Fin n)

def setPhases (phases : UInt8) : StageContext n :=
  { sc with phaseAllocation := Function.update sc.phaseAllocation i phases }

def setCurrent (current : Int) : StageContext n :=
  { sc with currentAllocation := Function.update sc.currentAllocation i current }

/-- `set_charger_decision` and `clear_charger_decision`. -/
def modifyDecision (f : ChargerDecision → ChargerDecision) : StageContext n :=
  { sc with
    chargerDecisions := Function.update sc.chargerDecisions i (f (sc.chargerDecisions i)) }

def setZeroDecision (d : ZeroPhaseDecision) : StageContext n :=
  sc.modifyDecision i fun old => { old with zero := d }

def setOneDecision (d : OnePhaseDecision) : StageContext n :=
  sc.modifyDecision i fun old => { old with one := d }

def setThreeDecision (d : ThreePhaseDecision) : StageContext n :=
  sc.modifyDecision i fun old => { old with three := d }

def setCurrentDecision (d : CurrentDecision) : StageContext n :=
  sc.modifyDecision i fun old => { old with current := d }

/-- The chargers the current stage works on. -/
def group : List (Fin n) := sc.idxArray.take sc.chargerCount

end StageContext

/-- A charger is active if it has phases, wants to charge or is charging, and is
not being woken up. -/
def isActive (allocatedPhases : UInt8) (state : ChargerState) : Bool :=
  allocatedPhases > 0 && (state.wantsToCharge || state.isCharging) && state.lastWakeup == 0

/-- The highest bit of the charge mode; eco counts only in a cheap time slot. -/
def getHighestChargeModeBit (state : ChargerState) : Nat :=
  if state.chargeMode.toNat &&& ChargeMode.fast.bit ≠ 0 then ChargeMode.fast.bit
  else if state.chargeMode.toNat &&& ChargeMode.eco.bit ≠ 0 ∧ state.ecoFast then
    ChargeMode.eco.bit
  else if state.chargeMode.toNat &&& ChargeMode.min.bit ≠ 0 then ChargeMode.min.bit
  else if state.chargeMode.toNat &&& ChargeMode.pv.bit ≠ 0 then ChargeMode.pv.bit
  else 0

/-- A charger counts as just plugged in only while it wants to charge. -/
def wasJustPluggedIn (state : ChargerState) : Bool :=
  state.justPluggedInTimestamp != 0 && state.wantsToCharge

end Esp32Firmware.ChargeManager
