import Mathlib.Data.Int.Init

/-!
# The external phase switcher

The energy manager switches the phases of a charger that cannot do it. It filters the packets in
both directions: no current is allocated while the contactor is switched, and the charge manager
sees the state from before.

## Implementation notes

Times are in microseconds. Of a packet only the fields are kept that the filters read or write.
What the energy manager's board reports is an input of each call.
-/

namespace Esp32Firmware.EmPhaseSwitcher

inductive SwitchingState where
  | idle
  | stopping
  | disconnectingCP
  | disconnectingCPSettle
  | togglingContactor
  | waitUntilSwitched
  | waitUntilCPReconnect
  | postSwitchStateFaking
deriving DecidableEq

/-- `PhaseSwitcherBackend::SwitchingState` -/
inductive Readiness where
  | ready
  | busy
  | error
deriving DecidableEq

structure CommandPacket where
  allocatedCurrent : Nat
  ignoreAllocation : Bool
  cpDisconnect : Bool
  allocatedPhases : Int
deriving DecidableEq

structure StatePacket where
  version : Nat
  hasPhaseSwitch : Bool
  hasCpDisconnect : Bool
  managed : Bool
  cpDisconnected : Bool
  allowedChargingCurrent : Nat
  iec61851State : Nat
  chargerState : Nat
  phases : UInt8
deriving DecidableEq

/-- What the board of the energy manager reports. -/
structure Board where
  contactorInstalled : Bool
  contactorError : Bool
  contactorValue : Bool
deriving DecidableEq

structure PhaseSwitcher where
  phaseSwitchDeadtime : Int := 0
  lastStatePacket : Int := -3600000000
  nextStateChangeAfter : Int := 0
  switchingState : SwitchingState := .idle
  chargerUsable : Bool := false
  allocatedCurrentAfterLastDisconnect : Bool := true
  skipCpDisconnect : Bool := false
  controlledChargerIdx : Nat
  lastIec61851State : Nat := 255
  lastChargerState : Nat := 255
  externalPhaseOverride : UInt8 := 0
deriving DecidableEq

def chargerStateNotPluggedIn : Nat := 0

def chargerStateReadyToCharge : Nat := 2

def iecStateB : Nat := 1

def Board.phases (board : Board) : Nat := if board.contactorValue then 3 else 1

namespace PhaseSwitcher

/-- `get_phase_switching_state_internal` -/
def phaseSwitchingState (s : PhaseSwitcher) (board : Board) (now : Int)
    (ignoreContactorError : Bool) : PhaseSwitcher × Readiness :=
  if board.contactorInstalled = false then (s, .ready)
  else if ignoreContactorError = false ∧ board.contactorError then (s, .error)
  else if s.phaseSwitchDeadtime = 0 then (s, .ready)
  else if now < s.phaseSwitchDeadtime then (s, .busy)
  else ({ s with phaseSwitchDeadtime := 0 }, .ready)

def canSwitchPhasesNow (s : PhaseSwitcher) (board : Board) (now : Int) (phasesWanted : Nat) :
    PhaseSwitcher × Bool :=
  if board.contactorInstalled = false then (s, false)
  else
    let (s, readiness) := s.phaseSwitchingState board now (phasesWanted = 1)
    (s, readiness = .ready)

/-- Called by the power manager. -/
def switchPhases (s : PhaseSwitcher) (board : Board) (now : Int) (phasesWanted : Nat) :
    PhaseSwitcher × Bool :=
  if 3 < phasesWanted then (s, false)
  else if board.contactorInstalled = false then (s, false)
  else
    let (s, readiness) := s.phaseSwitchingState board now false
    if readiness = .ready then
      ({ s with externalPhaseOverride := .ofNat phasesWanted }, true)
    else (s, false)

/-- The value that the contactor is set to, if it is. -/
def switchPhasesInternal (s : PhaseSwitcher) (board : Board) (now : Int) (phasesWanted : Nat) :
    PhaseSwitcher × Option Bool :=
  if board.contactorInstalled = false then (s, none)
  else
    let (s, readiness) := s.phaseSwitchingState board now (phasesWanted = 1)
    if readiness = .ready then
      ({ s with phaseSwitchDeadtime := now + 2000000 }, some (1 < phasesWanted))
    else (s, none)

/-- What a command leads to. The last part says whether the filter returns early. -/
structure Handled where
  switcher : PhaseSwitcher
  packet : CommandPacket
  contactor : Option Bool
  returned : Bool

/-- The phases that a command asks for. -/
def allocatedPhases (board : Board) (packet : CommandPacket) : Nat :=
  if board.contactorError then 1
  else if packet.allocatedPhases = 0 then 1
  else if packet.allocatedPhases = 2 then 3
  else if packet.allocatedPhases = 1 ∨ packet.allocatedPhases = 3 then packet.allocatedPhases.toNat
  else 1

/-- A contactor error stops the charger. -/
def stopOnError (board : Board) (packet : CommandPacket) : CommandPacket :=
  if board.contactorError then { packet with allocatedCurrent := 0 } else packet

/-- The control pilot is disconnected unless the sequence goes without it. -/
def hold (s : PhaseSwitcher) (packet : CommandPacket) : CommandPacket :=
  { packet with
    allocatedCurrent := 0
    cpDisconnect := packet.cpDisconnect || !s.skipCpDisconnect }

def onIdle (s : PhaseSwitcher) (board : Board) (now : Int) (phases : Nat)
    (packet : CommandPacket) : Handled :=
  if phases = board.phases then ⟨s, packet, none, false⟩
  else if board.contactorInstalled = false then ⟨s, packet, none, false⟩
  else
    let (s, canSwitch) := s.canSwitchPhasesNow board now phases
    if canSwitch = false then ⟨s, packet, none, true⟩
    -- The deadline is subtracted, so it has always elapsed.
    else if ¬ s.lastStatePacket - 3500000 ≤ now then ⟨s, packet, none, true⟩
    else if s.allocatedCurrentAfterLastDisconnect then
      ⟨{ s with skipCpDisconnect := false, switchingState := .stopping },
        { packet with allocatedCurrent := 0 }, none, false⟩
    else
      ⟨{ s with skipCpDisconnect := true, switchingState := .togglingContactor },
        { packet with allocatedCurrent := 0 }, none, false⟩

def onTogglingContactor (s : PhaseSwitcher) (board : Board) (now : Int) (phases : Nat)
    (packet : CommandPacket) : Handled :=
  match s.switchPhasesInternal board now phases with
  | (s', some value) =>
    ⟨{ s' with switchingState := .waitUntilSwitched }, s.hold packet, some value, false⟩
  | (s', none) => ⟨s', s.hold packet, none, false⟩

def onWaitUntilSwitched (s : PhaseSwitcher) (board : Board) (now : Int) (phases : Nat)
    (packet : CommandPacket) : Handled :=
  let (s', readiness) := s.phaseSwitchingState board now (phases = 1)
  if readiness = .ready then
    if board.phases = phases then
      if s.skipCpDisconnect then
        ⟨{ s' with switchingState := .idle }, s.hold packet, none, false⟩
      else ⟨{ s' with switchingState := .waitUntilCPReconnect }, s.hold packet, none, false⟩
    else ⟨{ s' with switchingState := .togglingContactor }, s.hold packet, none, false⟩
  else ⟨s', s.hold packet, none, false⟩

def onWaitUntilCPReconnect (s : PhaseSwitcher) (now : Int) (packet : CommandPacket) : Handled :=
  if s.nextStateChangeAfter ≤ now then
    ⟨{ s with
        switchingState := .postSwitchStateFaking
        nextStateChangeAfter := s.nextStateChangeAfter + 25000000 }, packet, none, false⟩
  else ⟨s, { packet with allocatedCurrent := 0, cpDisconnect := true }, none, false⟩

def onPostSwitchStateFaking (s : PhaseSwitcher) (now : Int) (packet : CommandPacket) : Handled :=
  if s.nextStateChangeAfter ≤ now ∨ packet.allocatedPhases = 0 then
    ⟨{ s with switchingState := .idle }, packet, none, false⟩
  else ⟨s, packet, none, false⟩

/-- The switch over the states. -/
def onCommand (s : PhaseSwitcher) (board : Board) (now : Int) (phases : Nat)
    (packet : CommandPacket) : Handled :=
  match s.switchingState with
  | .idle => s.onIdle board now phases packet
  | .stopping => ⟨s, { packet with allocatedCurrent := 0 }, none, false⟩
  | .disconnectingCP | .disconnectingCPSettle =>
    ⟨s, { packet with allocatedCurrent := 0, cpDisconnect := true }, none, false⟩
  | .togglingContactor => s.onTogglingContactor board now phases packet
  | .waitUntilSwitched => s.onWaitUntilSwitched board now phases packet
  | .waitUntilCPReconnect => s.onWaitUntilCPReconnect now packet
  | .postSwitchStateFaking => s.onPostSwitchStateFaking now packet

/-- Whether the vehicle may have been charged since it was disconnected. -/
def noteAllocation (s : PhaseSwitcher) (oldState : SwitchingState) (packet : CommandPacket) :
    PhaseSwitcher :=
  if s.lastChargerState = chargerStateNotPluggedIn ∧ packet.allocatedCurrent = 0 then
    { s with allocatedCurrentAfterLastDisconnect := false }
  else if oldState = .idle ∧ chargerStateReadyToCharge ≤ s.lastChargerState ∨
      packet.allocatedCurrent ≠ 0 then
    { s with allocatedCurrentAfterLastDisconnect := true }
  else s

/-- The command that is forwarded, and the value that the contactor is set to. -/
def filterCommandPacket (s : PhaseSwitcher) (board : Board) (now : Int) (chargerIdx : Nat)
    (packet : CommandPacket) : PhaseSwitcher × CommandPacket × Option Bool :=
  if chargerIdx ≠ s.controlledChargerIdx then (s, packet, none)
  else if packet.ignoreAllocation then (s, packet, none)
  else if s.chargerUsable = false then (s, packet, none)
  else
    let handled := s.onCommand board now (allocatedPhases board packet) (stopOnError board packet)
    if handled.returned then (handled.switcher, handled.packet, handled.contactor)
    else
      (handled.switcher.noteAllocation s.switchingState handled.packet, handled.packet,
        handled.contactor)

def usable (packet : StatePacket) : Bool :=
  3 ≤ packet.version && !packet.hasPhaseSwitch && packet.hasCpDisconnect && packet.managed

/-- The charge manager is told that the charger can switch phases. -/
def fakePhases (s : PhaseSwitcher) (board : Board) (packet : StatePacket) : StatePacket :=
  if s.externalPhaseOverride ≠ 0 then
    { packet with phases := (packet.phases &&& 0xFC) ||| s.externalPhaseOverride }
  else
    { packet with
      hasPhaseSwitch := true
      phases := (packet.phases &&& 0xFC) ||| .ofNat board.phases ||| 4 }

/-- The charge manager is told the state from before the sequence. -/
def fakeState (s : PhaseSwitcher) (packet : StatePacket) : StatePacket :=
  { packet with iec61851State := s.lastIec61851State, chargerState := s.lastChargerState }

def filterStatePacket (s : PhaseSwitcher) (board : Board) (now : Int) (chargerIdx : Nat)
    (packet : StatePacket) : PhaseSwitcher × StatePacket :=
  if chargerIdx ≠ s.controlledChargerIdx then (s, packet)
  else
    let s := { s with lastStatePacket := now, chargerUsable := usable packet }
    if usable packet = false then (s, packet)
    else
      let packet := s.fakePhases board packet
      match s.switchingState with
      | .idle =>
        ({ s with
            lastIec61851State := packet.iec61851State
            lastChargerState := packet.chargerState }, packet)
      | .stopping =>
        (if packet.allowedChargingCurrent = 0 then { s with switchingState := .disconnectingCP }
          else s, s.fakeState packet)
      | .disconnectingCP =>
        (if packet.cpDisconnected then
            { s with
              nextStateChangeAfter := now + 5000000
              switchingState := .disconnectingCPSettle
              allocatedCurrentAfterLastDisconnect := false }
          else s, s.fakeState packet)
      | .disconnectingCPSettle =>
        ({ s with switchingState := .togglingContactor }, s.fakeState packet)
      | .togglingContactor | .waitUntilSwitched | .waitUntilCPReconnect =>
        (s, s.fakeState packet)
      | .postSwitchStateFaking =>
        if packet.iec61851State = iecStateB then (s, s.fakeState packet)
        else ({ s with switchingState := .idle }, packet)

end PhaseSwitcher

end Esp32Firmware.EmPhaseSwitcher
