import Esp32Firmware.Library.Run

/-!
# Charge limits

A charge ends when it has taken its time, when it has charged its energy or when the vehicle has
reached its state of charge. A task that runs every second finds out that a charge has begun or
ended, and lets the charger charge or not.

## Implementation notes

The numbers of the meter are of any type with a comparison, and the sum of an energy and a limit in
Wh is a function on it. The uptime is the real one, of which the EVSE reports the lower 32 bits.
A state of charge is rounded down. When the running charge began, or was restarted, and which limits
were overridden since the previous charge are bookkeeping.
-/

namespace Esp32Firmware.ChargeLimits

def mapDuration (val : Nat) : Nat :=
  match val with
  | 1 => 15 * 60 * 1000
  | 2 => 30 * 60 * 1000
  | 3 => 45 * 60 * 1000
  | 4 => 60 * 60 * 1000
  | 5 => 2 * 60 * 60 * 1000
  | 6 => 3 * 60 * 60 * 1000
  | 7 => 4 * 60 * 60 * 1000
  | 8 => 6 * 60 * 60 * 1000
  | 9 => 8 * 60 * 60 * 1000
  | 10 => 12 * 60 * 60 * 1000
  | _ => 0

/-- `a_after_b` for times of 32 bits. -/
def aAfterB (a b : Nat) : Bool := (a + 2 ^ 32 - b) % 2 ^ 32 < 2147483647

structure Limits where
  duration : Nat
  energyWh : Nat
  socPct : Nat
deriving DecidableEq

/-- `current_charge`, as long as there is a user. -/
structure Charge (E : Type*) where
  evseUptimeStart : Nat
  meterStart : Option E

/-- The limits that were overridden. -/
structure Overrides where
  duration : Option Nat := none
  energyWh : Option Nat := none
  socPct : Option Nat := none
deriving DecidableEq

structure State (E : Type*) where
  config : Limits
  activeLimits : Limits
  startTimestampMs : Nat := 0
  startEnergyKwh : Option E := none
  targetTimestampMs : Nat := 0
  targetEnergyKwh : Option E := none
  targetSocPct : Nat := 0
  wasCharging : Bool := false
  wasTriggered : Bool := false
  slot : Nat := 32000
  charge : Option (Charge E) := none
  uptime : Nat := 0
  energy : Option E := none
  evMeterHasSoc : Bool := false
  soc : Option Int := none
  begun : Option (Nat × Option E) := none
  overrides : Overrides := {}

inductive Event (E : Type*) where
  | wait (ms : Nat)
  | meter (energy : Option E)
  | vehicleMeter
  | soc (soc : Option Int)
  | startCharge (age : Nat) (meterStart : Option E)
  | endCharge
  | overrideDuration (duration : Nat)
  | overrideEnergy (energyWh : Nat)
  | overrideSoc (socPct : Nat)
  | restart
  | updateDefaults (config : Limits)
  | tick

namespace State

variable {E : Type*}

/-- The state after `register_urls`. -/
def setup (config : Limits) : State E :=
  { config := config
    activeLimits := config
    targetTimestampMs := mapDuration config.duration }

def applyDurationOverride (s : State E) (duration : Nat) : State E :=
  { s with
    wasTriggered := false
    activeLimits := { s.activeLimits with duration := duration }
    targetTimestampMs :=
      if duration = 0 then 0 else (s.startTimestampMs + mapDuration duration) % 2 ^ 32 }

def applySocTargetOverride (s : State E) (socTarget : Nat) : State E :=
  { s with
    wasTriggered := false
    activeLimits := { s.activeLimits with socPct := socTarget }
    targetSocPct := socTarget }

/-- The end of a charge. -/
def reset (s : State E) : State E :=
  { s with
    activeLimits := s.config
    slot := 32000
    startTimestampMs := 0
    startEnergyKwh := none
    targetTimestampMs := mapDuration s.config.duration
    targetEnergyKwh := none
    targetSocPct := 0
    wasCharging := false
    wasTriggered := false }

/-- The first tick of a charge sets the target of the time. -/
def tickTargetTimestamp (s : State E) : Nat :=
  if s.wasCharging then s.targetTimestampMs
  else (s.startTimestampMs + mapDuration s.activeLimits.duration) % 2 ^ 32

def checkDuration (s : State E) : State E × Bool :=
  if s.activeLimits.duration > 0 then
    ({ s with targetTimestampMs := s.tickTargetTimestamp },
      aAfterB (s.uptime % 2 ^ 32) s.tickTargetTimestamp)
  else (s, false)

def checkSoc (s : State E) : State E × Bool :=
  if s.activeLimits.socPct > 0 && s.evMeterHasSoc then
    ({ s with
      targetSocPct := if s.wasCharging then s.targetSocPct else s.activeLimits.socPct },
      s.soc.any fun soc => (s.activeLimits.socPct : Int) ≤ soc)
  else (s, false)

/-- The first tick of a charge looks up how the charge was started. -/
def lookUpStart (s : State E) (charge : Charge E) : State E :=
  if s.wasCharging then s
  else
    { s with
      startTimestampMs := charge.evseUptimeStart
      startEnergyKwh := charge.meterStart.or s.startEnergyKwh }

variable (plusWh : E → Nat → E)

def applyEnergyOverride (s : State E) (energyWh : Nat) : State E :=
  { s with
    wasTriggered := false
    activeLimits := { s.activeLimits with energyWh := energyWh }
    targetEnergyKwh :=
      if energyWh = 0 then none else s.startEnergyKwh.map fun start => plusWh start energyWh }

def updateDefaultDuration (s : State E) (config : Limits) : State E :=
  if s.activeLimits.duration = s.config.duration then s.applyDurationOverride config.duration
  else s

def updateDefaultEnergy (s : State E) (config : Limits) : State E :=
  if s.activeLimits.energyWh = s.config.energyWh then s.applyEnergyOverride plusWh config.energyWh
  else s

def updateDefaultSoc (s : State E) (config : Limits) : State E :=
  if s.activeLimits.socPct = s.config.socPct then s.applySocTargetOverride config.socPct else s

/-- The validator of the default limits, and the update. -/
def updateDefaults (s : State E) (config : Limits) : State E :=
  let s := s.updateDefaultDuration config
  let s := s.updateDefaultEnergy plusWh config
  let s := s.updateDefaultSoc config
  { s with config := config }

def restart (s : State E) : State E :=
  match s.charge with
  | none => s
  | some _ =>
    let s := { s with
      wasTriggered := false
      startTimestampMs := s.uptime % 2 ^ 32
      targetTimestampMs :=
        (s.uptime % 2 ^ 32 + mapDuration s.activeLimits.duration) % 2 ^ 32 }
    let s :=
      match s.energy with
      | none => s
      | some energyNow => { s with
          startEnergyKwh := some energyNow
          targetEnergyKwh := some (plusWh energyNow s.activeLimits.energyWh) }
    { s with
      targetSocPct := s.activeLimits.socPct
      begun := some (s.uptime, s.energy) }

/-- The first tick of a charge sets the target of the energy, if the start is known. -/
def tickTargetEnergy (s : State E) : Option E :=
  if s.wasCharging then s.targetEnergyKwh
  else
    match s.startEnergyKwh with
    | none => s.targetEnergyKwh
    | some start => some (plusWh start s.activeLimits.energyWh)

variable [LE E] [DecidableLE E]

/-- Nothing happens as long as the meter cannot be read. -/
def checkEnergy (s : State E) : State E × Bool :=
  if s.activeLimits.energyWh > 0 then
    match s.energy with
    | none => (s, false)
    | some energyNow =>
      ({ s with targetEnergyKwh := s.tickTargetEnergy plusWh },
        (s.tickTargetEnergy plusWh).any fun target => target ≤ energyNow)
  else (s, false)

/-- The function of the task. -/
def tick (s : State E) : State E :=
  match s.charge with
  | none => if s.wasCharging then s.reset else s
  | some charge =>
    let s := s.lookUpStart charge
    let duration := s.checkDuration
    let energy := duration.1.checkEnergy plusWh
    let soc := energy.1.checkSoc
    let reached := duration.2 || energy.2 || soc.2
    { soc.1 with
      slot := if reached then 0 else 32000
      wasTriggered := soc.1.wasTriggered || reached
      wasCharging := true }

def step (s : State E) : Event E → State E
  | .wait ms => { s with uptime := s.uptime + ms }
  | .meter energy => { s with energy := energy }
  | .vehicleMeter => { s with evMeterHasSoc := true }
  | .soc soc => { s with soc := soc }
  | .startCharge age meterStart =>
    { s with
      charge := some ⟨(s.uptime - age) % 2 ^ 32, meterStart⟩
      begun := some (s.uptime - age, meterStart) }
  | .endCharge =>
    match s.charge with
    | none => s
    | some _ => { s with charge := none, begun := none, overrides := {} }
  | .overrideDuration duration =>
    { s.applyDurationOverride duration with
      overrides := { s.overrides with duration := some duration } }
  | .overrideEnergy energyWh =>
    { s.applyEnergyOverride plusWh energyWh with
      overrides := { s.overrides with energyWh := some energyWh } }
  | .overrideSoc socPct =>
    { s.applySocTargetOverride socPct with
      overrides := { s.overrides with socPct := some socPct } }
  | .restart => s.restart plusWh
  | .updateDefaults config => s.updateDefaults plusWh config
  | .tick => s.tick plusWh

end State

end Esp32Firmware.ChargeLimits
