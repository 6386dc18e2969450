import Mathlib.Data.Int.Init
import Mathlib.Data.Option.Basic

/-!
# The EEBUS load power limit use case

An Energy Guard limits the power of the device, for consumption (LPC) or production (LPP). It
takes control with a heartbeat and a write on the limit; without heartbeats the failsafe limit
applies.

## Implementation notes

Times are in microseconds, durations in seconds. A timer is the deadline of its task; the task may
run at any time from its deadline on. The clock stands still while a function runs. What is only
shown or stored (the API state, the notifications, the file of the failsafe values) is left out.
-/

namespace Esp32Firmware.Eebus

inductive LoadcontrolState where
  | startup
  | init
  | unlimitedControlled
  | limited
  | failsafe
  | unlimitedAutonomous
deriving DecidableEq, Repr

def seconds (s : ℤ) : ℤ := s * 1000000

/-- `EEBUS_LPC_INITIAL_ACTIVE_POWER_CONSUMPTION` -/
def initialActivePowerConsumption : ℤ := 22000

def failsafeDurationMin : ℤ := 2 * 3600

def failsafeDurationMax : ℤ := 24 * 3600

def heartbeatWriteWindow : ℤ := 60

def initTimeout : ℤ := 120

def heartbeatTimeout : ℤ := 120

/-- A write on the limit; what is not given keeps its value. -/
structure LimitWrite where
  active : Option Bool := none
  valueW : Option ℤ := none
  duration : Option ℤ := none
  deleteDuration : Bool := false
deriving DecidableEq, Repr

structure LoadPowerLimit where
  limitIsPositive : Bool
  state : LoadcontrolState := .startup
  startTask : Option ℤ
  registered : Bool := false
  lastHeartbeat : ℤ := 0
  heartbeatTimeoutTimer : Option ℤ := none
  initTimer : Option ℤ := none
  limitActive : Bool := false
  currentActiveLimitW : ℤ := initialActivePowerConsumption
  configuredLimit : ℤ := initialActivePowerConsumption
  limitEndtime : ℤ := 0
  limitEndtimeTimer : Option ℤ := none
  failsafePowerLimitW : ℤ := initialActivePowerConsumption
  failsafePowerWritten : Bool := false
  failsafeDuration : ℤ := failsafeDurationMin
  failsafeExpiryTimer : Option ℤ := none
  powerMaxW : ℤ := 0
  powerContractMaxW : ℤ := 0
deriving DecidableEq, Repr

/-- The failsafe values of the last time, from flash. -/
structure PersistedFailsafe where
  powerSet : Bool
  powerW : ℤ
  durationS : ℤ
deriving DecidableEq, Repr

namespace LoadPowerLimit

def loadPersistedFailsafe (persisted : PersistedFailsafe) (u : LoadPowerLimit) : LoadPowerLimit :=
  let u :=
    if persisted.powerSet ∧ (!u.limitIsPositive ∨ 0 ≤ persisted.powerW) then
      { u with failsafePowerLimitW := persisted.powerW, failsafePowerWritten := true }
    else u
  if failsafeDurationMin ≤ persisted.durationS ∧ persisted.durationS ≤ failsafeDurationMax then
    { u with failsafeDuration := persisted.durationS }
  else u

/-- The constructor; the rest of the initialisation runs a second later. -/
def create (now : ℤ) (limitIsPositive : Bool) (persisted : PersistedFailsafe) : LoadPowerLimit :=
  loadPersistedFailsafe persisted
    { limitIsPositive := limitIsPositive, startTask := some (now + seconds 1) }

/-- An Energy Guard is in control. -/
def isControlled (u : LoadPowerLimit) : Bool :=
  u.state == .unlimitedControlled || u.state == .limited

def deadlineElapsed (now deadline : ℤ) : Bool := deadline ≤ now

def heartbeatInWriteWindow (now : ℤ) (u : LoadPowerLimit) : Bool :=
  u.lastHeartbeat ≠ 0 && !deadlineElapsed now (u.lastHeartbeat + seconds heartbeatWriteWindow)

/-- The seconds until an end time, rounded up; 0 if there is none or it elapsed. -/
def secondsLeft (now endtime : ℤ) : ℤ :=
  if endtime = 0 then 0
  else if endtime - now ≤ 0 then 0
  else (endtime - now + 999999) / 1000000

def initState (now : ℤ) (u : LoadPowerLimit) : LoadPowerLimit :=
  { u with
    state := .init
    limitActive := false
    currentActiveLimitW := u.failsafePowerLimitW
    initTimer := some (now + seconds initTimeout) }

def unlimitedControlledState (u : LoadPowerLimit) : LoadPowerLimit :=
  { u with
    state := .unlimitedControlled
    limitActive := false
    currentActiveLimitW := initialActivePowerConsumption }

def limitedState (u : LoadPowerLimit) : LoadPowerLimit :=
  { u with
    state := .limited
    currentActiveLimitW := u.configuredLimit
    limitActive := true }

/-- The duration of the limit keeps running. -/
def failsafeState (now : ℤ) (u : LoadPowerLimit) : LoadPowerLimit :=
  { u with
    state := .failsafe
    limitActive := false
    currentActiveLimitW := u.failsafePowerLimitW
    failsafeExpiryTimer := some (now + seconds u.failsafeDuration) }

def unlimitedAutonomousState (u : LoadPowerLimit) : LoadPowerLimit :=
  { u with
    state := .unlimitedAutonomous
    limitActive := false
    currentActiveLimitW := initialActivePowerConsumption }

/-- A write on the failsafe values, and whether it is accepted. -/
def updateFailsafe (powerLimitW duration : Option ℤ) (u : LoadPowerLimit) :
    LoadPowerLimit × Bool :=
  if !u.isControlled then (u, false)
  else if powerLimitW.any fun power => u.limitIsPositive && decide (power < 0) then (u, false)
  else if duration.any fun d => decide (failsafeDurationMax < d) then
    -- The value is rejected, and the maximum is used instead.
    ({ u with failsafeDuration := failsafeDurationMax }, false)
  else if duration.any fun d => decide (d < failsafeDurationMin) then (u, false)
  else
    ({ u with
        failsafePowerLimitW := powerLimitW.getD u.failsafePowerLimitW
        failsafePowerWritten := u.failsafePowerWritten || powerLimitW.isSome
        failsafeDuration := duration.getD u.failsafeDuration }, true)

def nominalMaxW (u : LoadPowerLimit) : ℤ :=
  if 0 < u.powerMaxW then u.powerMaxW
  else if 0 < u.powerContractMaxW then u.powerContractMaxW
  else initialActivePowerConsumption

def updateConstraints (powerMax powerContractMax : ℤ) (u : LoadPowerLimit) : LoadPowerLimit :=
  let powerMax := max powerMax 0
  let powerContractMax := max powerContractMax 0
  if powerMax = u.powerMaxW ∧ powerContractMax = u.powerContractMaxW then u
  else
    let u := { u with powerMaxW := powerMax, powerContractMaxW := powerContractMax }
    -- The failsafe limit is the nominal maximum until the Energy Guard writes one.
    if u.limitIsPositive ∧ !u.failsafePowerWritten ∧ u.failsafePowerLimitW ≠ u.nominalMaxW then
      let u := { u with failsafePowerLimitW := u.nominalMaxW }
      if u.state = .init ∨ u.state = .failsafe then
        { u with currentActiveLimitW := u.failsafePowerLimitW }
      else u
    else u

/-- Whether the limit is active after a write, and its end time. -/
def newActiveEndtime (now : ℤ) (write : LimitWrite) (u : LoadPowerLimit) : Bool × ℤ :=
  let newActive := write.active.getD u.limitActive
  -- A write without duration keeps the current duration, unless it already expired.
  let newEndtime := if 0 < secondsLeft now u.limitEndtime then u.limitEndtime else 0
  match write.duration with
  | some duration =>
    -- A duration of 0 deactivates the limit, even if the write activates it.
    if duration ≤ 0 then (false, 0) else (newActive, now + seconds duration)
  | none => if write.deleteDuration then (newActive, 0) else (newActive, newEndtime)

/-- Start the timer of the end time. -/
def startLimitEndtimeTimer (now : ℤ) (u : LoadPowerLimit) : LoadPowerLimit :=
  let u := { u with limitEndtimeTimer := none }
  if u.limitEndtime ≠ 0 then
    let left := u.limitEndtime - now
    if left ≤ 0 then { u with limitActive := false, limitEndtime := 0 }
    -- The delay is in milliseconds.
    else { u with limitEndtimeTimer := some (now + left / 1000 * 1000) }
  else u

def validLimit (limitIsPositive : Bool) (value : ℤ) : Bool :=
  if limitIsPositive then 0 ≤ value else value ≤ 0

/-- A write on the limit, and whether it is accepted. -/
def updateLimit (now : ℤ) (write : LimitWrite) (u : LoadPowerLimit) : LoadPowerLimit × Bool :=
  if !u.isControlled && !u.heartbeatInWriteWindow now then (u, false)
  else
    let new := newActiveEndtime now write u
    let newValue := write.valueW.getD u.configuredLimit
    if !validLimit u.limitIsPositive newValue then
      -- The communication with the Energy Guard is verified, although its limit cannot be applied.
      (if !u.isControlled then u.unlimitedControlledState else u, false)
    else
      let u :=
        startLimitEndtimeTimer now
          { u with limitActive := new.1, configuredLimit := newValue, limitEndtime := new.2 }
      (if u.limitActive then u.limitedState else u.unlimitedControlledState, true)

/-- Only the heartbeat of the device that is bound counts; before a binding, every one does. -/
def receiveHeartbeat (now : ℤ) (boundDevice : String) (sourceDevice : Option String)
    (u : LoadPowerLimit) : LoadPowerLimit :=
  if boundDevice ≠ "" ∧ sourceDevice.any fun device => device ≠ "" && device ≠ boundDevice then u
  else
    { u with
      lastHeartbeat := now
      heartbeatTimeoutTimer := some (now + seconds heartbeatTimeout) }

def heartbeatTimedOut (now : ℤ) (u : LoadPowerLimit) : LoadPowerLimit :=
  let u := { u with heartbeatTimeoutTimer := none }
  if u.isControlled then u.failsafeState now else u

def limitDurationExpired (u : LoadPowerLimit) : LoadPowerLimit :=
  let u := { u with limitEndtimeTimer := none, limitActive := false, limitEndtime := 0 }
  if u.state = .limited then u.unlimitedControlledState else u

def failsafeExpired (u : LoadPowerLimit) : LoadPowerLimit :=
  let u := { u with failsafeExpiryTimer := none }
  if u.state = .failsafe then u.unlimitedAutonomousState else u

def initTimedOut (u : LoadPowerLimit) : LoadPowerLimit :=
  let u := { u with initTimer := none }
  if u.state = .init then u.unlimitedAutonomousState else u

/-- From here on the use case gets heartbeats. -/
def start (now : ℤ) (u : LoadPowerLimit) : LoadPowerLimit :=
  { u with registered := true, startTask := none }.initState now

end LoadPowerLimit

/-- What happens to the use case. -/
inductive LimitEvent where
  | start
  | heartbeat (boundDevice : String) (sourceDevice : Option String)
  | write (write : LimitWrite)
  | writeFailsafe (powerLimitW duration : Option ℤ)
  | constraints (powerMax powerContractMax : ℤ)
  | limitEndtimeTimer
  | failsafeExpiryTimer
  | initTimer
  | heartbeatTimeoutTimer
deriving DecidableEq, Repr

/-- The task of a timer that is due. -/
def runDue (now : ℤ) (timer : Option ℤ) (task : LoadPowerLimit → LoadPowerLimit)
    (u : LoadPowerLimit) : LoadPowerLimit :=
  if timer.any fun deadline => decide (deadline ≤ now) then task u else u

/-- The use case after an event, and whether it was a write that was accepted. -/
def LoadPowerLimit.handle (now : ℤ) (u : LoadPowerLimit) : LimitEvent → LoadPowerLimit × Bool
  | .start => (runDue now u.startTask (·.start now) u, false)
  | .heartbeat boundDevice sourceDevice =>
    (if u.registered then u.receiveHeartbeat now boundDevice sourceDevice else u, false)
  | .write write => u.updateLimit now write
  | .writeFailsafe powerLimitW duration => u.updateFailsafe powerLimitW duration
  | .constraints powerMax powerContractMax => (u.updateConstraints powerMax powerContractMax, false)
  | .limitEndtimeTimer => (runDue now u.limitEndtimeTimer (·.limitDurationExpired) u, false)
  | .failsafeExpiryTimer => (runDue now u.failsafeExpiryTimer (·.failsafeExpired) u, false)
  | .initTimer => (runDue now u.initTimer (·.initTimedOut) u, false)
  | .heartbeatTimeoutTimer =>
    (runDue now u.heartbeatTimeoutTimer (·.heartbeatTimedOut now) u, false)

end Esp32Firmware.Eebus
