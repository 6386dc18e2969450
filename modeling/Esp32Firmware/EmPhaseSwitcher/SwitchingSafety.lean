import Esp32Firmware.EmPhaseSwitcher.Filter
import Esp32Firmware.Library.Run

/-!
# Switching the contactor without load

What the charger reported and what it was allowed is recorded beside the phase switcher. As long
as the switcher sees all commands, its sequence of states makes sure that the contactor is only
switched without load.
-/

namespace Esp32Firmware.EmPhaseSwitcher

open PhaseSwitcher

namespace SwitchingState

/-- From the start of a sequence to the end of the wait for the control pilot. -/
def inSequence : SwitchingState → Bool
  | .idle | .postSwitchStateFaking => false
  | _ => true

end SwitchingState

inductive Event where
  | wait (delay : Nat)
  | command (board : Board) (chargerIdx : Nat) (packet : CommandPacket)
  | state (board : Board) (chargerIdx : Nat) (packet : StatePacket)
  | poll (board : Board) (ignoreContactorError : Bool)
  | switchPhases (board : Board) (phasesWanted : Nat)

/-- The phase switcher and what was reported and allocated. -/
structure Installation where
  switcher : PhaseSwitcher
  now : Int
  /-- The time and the charger state of the last state packet. -/
  lastReport : Option (Int × Nat)
  /-- The current that the last command allocated. -/
  allocation : Nat
  /-- A current was allocated since the vehicle was last reported unplugged. -/
  loaded : Bool
  /-- Since the sequence left idle, the control pilot was reported disconnected. -/
  disconnected : Bool
  /-- Since the sequence left idle, the allowed current was reported to be 0. -/
  stopped : Bool
  /-- The switcher took the vehicle for disconnected without a report that it is unplugged. -/
  assumed : Bool
deriving DecidableEq

namespace Installation

def initial (controlledChargerIdx : Nat) (now : Nat) : Installation where
  switcher := { controlledChargerIdx := controlledChargerIdx }
  now := now
  lastReport := none
  allocation := 0
  loaded := true
  disconnected := false
  stopped := false
  assumed := false

/-- The command that is forwarded, and the value that the contactor is set to. -/
def forward (s : Installation) (board : Board) (chargerIdx : Nat) (packet : CommandPacket) :
    CommandPacket × Option Bool :=
  (s.switcher.filterCommandPacket board s.now chargerIdx packet).2

/-- What is recorded of a command and a state packet after the switcher has handled it. -/
def record (s : Installation) (switcher : PhaseSwitcher) (lastReport : Option (Int × Nat))
    (allocation : Nat) (disconnected stopped : Bool) : Installation :=
  let started := s.switcher.switchingState = .idle ∧ switcher.switchingState ≠ .idle
  let unplugged : Bool := lastReport.map Prod.snd = some chargerStateNotPluggedIn
  { s with
    switcher := switcher
    lastReport := lastReport
    allocation := allocation
    loaded := allocation ≠ 0 || s.loaded && !unplugged
    disconnected := disconnected && !started
    stopped := stopped && !started
    assumed :=
      (s.assumed || s.switcher.allocatedCurrentAfterLastDisconnect) &&
        !switcher.allocatedCurrentAfterLastDisconnect && !unplugged }

def step (s : Installation) : Event → Installation
  | .wait delay => { s with now := s.now + delay }
  | .command board chargerIdx packet =>
    if chargerIdx = s.switcher.controlledChargerIdx then
      let (switcher, forwarded, _) :=
        s.switcher.filterCommandPacket board s.now chargerIdx packet
      let allocation :=
        if packet.ignoreAllocation then s.allocation else forwarded.allocatedCurrent
      s.record switcher s.lastReport allocation s.disconnected s.stopped
    else s
  | .state board chargerIdx packet =>
    if chargerIdx = s.switcher.controlledChargerIdx then
      let (switcher, _) := s.switcher.filterStatePacket board s.now chargerIdx packet
      s.record switcher (some (s.now, packet.chargerState)) s.allocation
        (s.disconnected || packet.cpDisconnected)
        (s.stopped || packet.allowedChargingCurrent = 0)
    else s
  | .poll board ignoreContactorError =>
    { s with
      switcher := (s.switcher.phaseSwitchingState board s.now ignoreContactorError).1 }
  | .switchPhases board phasesWanted =>
    { s with switcher := (s.switcher.switchPhases board s.now phasesWanted).1 }

/-- The contactor is switched without load, no current is allocated during a sequence, and a
sequence is only started if the charger's state is known. -/
structure Safe (s : Installation) (event : Event) : Prop where
  toggle : ∀ board packet value, event = .command board s.switcher.controlledChargerIdx packet →
    (s.forward board s.switcher.controlledChargerIdx packet).2 = some value →
      s.disconnected = true ∧ s.stopped = true ∨ s.loaded = false
  forwarded : ∀ board packet, event = .command board s.switcher.controlledChargerIdx packet →
    (s.step event).switcher.switchingState.inSequence = true ∨
      s.switcher.switchingState.inSequence = true ∧
        (s.step event).switcher.switchingState ≠ .postSwitchStateFaking →
    packet.ignoreAllocation = true ∨
      (s.forward board s.switcher.controlledChargerIdx packet).1.allocatedCurrent = 0
  started : s.switcher.switchingState.inSequence = false →
    (s.step event).switcher.switchingState.inSequence = true →
      ∃ reported chargerState, s.lastReport = some (reported, chargerState) ∧
        s.now ≤ reported + 3500000

/-- A command in the idle state asks for other phases. -/
def Asks (s : Installation) (board : Board) (packet : CommandPacket) : Prop :=
  s.switcher.switchingState = .idle ∧ allocatedPhases board packet ≠ board.phases ∧
    board.contactorInstalled = true

/-- The contactor can be switched now. -/
def CanSwitch (s : Installation) (board : Board) (packet : CommandPacket) : Prop :=
  (s.switcher.canSwitchPhasesNow board s.now (allocatedPhases board packet)).2 = true

/-- The commands that the switcher handles without getting the state of the charger wrong. -/
@[mk_iff]
structure Handles (s : Installation) (board : Board) (packet : CommandPacket) : Prop where
  /-- An unusable charger gets no current, unless the switcher knows of one already. -/
  unusable : s.switcher.chargerUsable = false → packet.allocatedCurrent ≠ 0 →
    s.switcher.switchingState.inSequence = false ∧
      s.switcher.allocatedCurrentAfterLastDisconnect = true
  /-- Neither does one whose phases cannot be switched now. -/
  delayed : s.switcher.chargerUsable = true → s.Asks board packet → ¬ s.CanSwitch board packet →
    packet.allocatedCurrent ≠ 0 → s.switcher.allocatedCurrentAfterLastDisconnect = true
  /-- The state of the charger is known when a sequence is started. -/
  fresh : s.switcher.chargerUsable = true → s.Asks board packet → s.CanSwitch board packet →
    s.now ≤ s.switcher.lastStatePacket + 3500000
  /-- No sequence that leaves the control pilot connected relies on an assumption: on the control
  pilot that the sequence before disconnected, or on an outdated report. -/
  reported : s.switcher.chargerUsable = true → s.Asks board packet →
    s.CanSwitch board packet → s.switcher.allocatedCurrentAfterLastDisconnect = false →
    s.assumed = false

def HandlesEvent (s : Installation) : Event → Prop
  | .command board chargerIdx packet =>
    chargerIdx = s.switcher.controlledChargerIdx → packet.ignoreAllocation = false →
      s.Handles board packet
  | _ => True

end Installation

section

variable {s : PhaseSwitcher} {board : Board} {now : Int} {phases : Nat} {packet : CommandPacket}

theorem phaseSwitchingState_eq (s : PhaseSwitcher) (board : Board) (now : Int)
    (ignoreContactorError : Bool) :
    ∃ deadtime, (s.phaseSwitchingState board now ignoreContactorError).1 =
      { s with phaseSwitchDeadtime := deadtime } := by
  rw [phaseSwitchingState]
  split
  · exact ⟨_, rfl⟩
  · split
    · exact ⟨_, rfl⟩
    · split
      · exact ⟨_, rfl⟩
      · split
        · exact ⟨_, rfl⟩
        · exact ⟨0, rfl⟩

/-- The state after a command, whether the control pilot is left connected, the forwarded
current, the value that the contactor is set to and whether the filter returns early. -/
inductive Outcome (s : PhaseSwitcher) (board : Board) (now : Int) (phases : Nat)
    (packet : CommandPacket) : SwitchingState → Bool → Nat → Option Bool → Bool → Prop
  | stay (hstate : s.switchingState = .idle)
      (hasks : ¬ (phases ≠ board.phases ∧ board.contactorInstalled = true)) :
      Outcome s board now phases packet .idle s.skipCpDisconnect packet.allocatedCurrent none false
  | delayed (hstate : s.switchingState = .idle)
      (hasks : phases ≠ board.phases ∧ board.contactorInstalled = true)
      (hcan : (s.canSwitchPhasesNow board now phases).2 = false) :
      Outcome s board now phases packet .idle s.skipCpDisconnect packet.allocatedCurrent none true
  | start (hstate : s.switchingState = .idle)
      (hasks : phases ≠ board.phases ∧ board.contactorInstalled = true)
      (hcan : (s.canSwitchPhasesNow board now phases).2 = true)
      (hflag : s.allocatedCurrentAfterLastDisconnect = true) :
      Outcome s board now phases packet .stopping false 0 none false
  | startFree (hstate : s.switchingState = .idle)
      (hasks : phases ≠ board.phases ∧ board.contactorInstalled = true)
      (hcan : (s.canSwitchPhasesNow board now phases).2 = true)
      (hflag : s.allocatedCurrentAfterLastDisconnect = false) :
      Outcome s board now phases packet .togglingContactor true 0 none false
  | hold (hstate : s.switchingState.inSequence = true) :
      Outcome s board now phases packet s.switchingState s.skipCpDisconnect 0 none false
  | toggle (hstate : s.switchingState = .togglingContactor) (value : Bool) :
      Outcome s board now phases packet .waitUntilSwitched s.skipCpDisconnect 0 (some value) false
  | switched (hstate : s.switchingState = .waitUntilSwitched) (hskip : s.skipCpDisconnect = true) :
      Outcome s board now phases packet .idle s.skipCpDisconnect 0 none false
  | reconnect (hstate : s.switchingState = .waitUntilSwitched) :
      Outcome s board now phases packet .waitUntilCPReconnect s.skipCpDisconnect 0 none false
  | again (hstate : s.switchingState = .waitUntilSwitched) :
      Outcome s board now phases packet .togglingContactor s.skipCpDisconnect 0 none false
  | reconnected (hstate : s.switchingState = .waitUntilCPReconnect) :
      Outcome s board now phases packet .postSwitchStateFaking s.skipCpDisconnect
        packet.allocatedCurrent none false
  | fake (hstate : s.switchingState = .postSwitchStateFaking) :
      Outcome s board now phases packet .postSwitchStateFaking s.skipCpDisconnect
        packet.allocatedCurrent none false
  | faked (hstate : s.switchingState = .postSwitchStateFaking) :
      Outcome s board now phases packet .idle s.skipCpDisconnect packet.allocatedCurrent none false

/-- The switcher after a command: what else it keeps is unchanged. -/
def Leads (s : PhaseSwitcher) (board : Board) (now : Int) (phases : Nat)
    (packet : CommandPacket) (handled : Handled) : Prop :=
  ∃ deadtime after state skip, handled.switcher = { s with
      phaseSwitchDeadtime := deadtime
      nextStateChangeAfter := after
      skipCpDisconnect := skip
      switchingState := state } ∧
    Outcome s board now phases packet state skip handled.packet.allocatedCurrent
      handled.contactor handled.returned

theorem canSwitchPhasesNow_eq (s : PhaseSwitcher) (board : Board) (now : Int) (phases : Nat) :
    ∃ deadtime, (s.canSwitchPhasesNow board now phases).1 =
      { s with phaseSwitchDeadtime := deadtime } := by
  rw [canSwitchPhasesNow]
  split
  · exact ⟨_, rfl⟩
  · exact phaseSwitchingState_eq s board now _

theorem onIdle_leads (hstate : s.switchingState = .idle) (hlast : s.lastStatePacket ≤ now) :
    Leads s board now phases packet (s.onIdle board now phases packet) := by
  have hsame (h : ¬ (phases ≠ board.phases ∧ board.contactorInstalled = true)) :
      Leads s board now phases packet ⟨s, packet, none, false⟩ :=
    ⟨s.phaseSwitchDeadtime, s.nextStateChangeAfter, .idle, s.skipCpDisconnect, by rw [← hstate],
      .stay hstate h⟩
  rw [onIdle]
  by_cases hphases : phases = board.phases
  · rw [if_pos hphases]
    exact hsame fun hasks => hasks.1 hphases
  rw [if_neg hphases]
  by_cases hinstalled : board.contactorInstalled = false
  · rw [if_pos hinstalled]
    exact hsame fun hasks => absurd (hinstalled.symm.trans hasks.2) (by decide)
  rw [if_neg hinstalled]
  have hasks : phases ≠ board.phases ∧ board.contactorInstalled = true :=
    ⟨hphases, (Bool.not_eq_false _).mp hinstalled⟩
  obtain ⟨deadtime, hdeadtime⟩ := canSwitchPhasesNow_eq s board now phases
  cases hcan : (s.canSwitchPhasesNow board now phases).2 with
  | false =>
    dsimp only
    rw [if_pos hcan, hdeadtime]
    exact ⟨deadtime, s.nextStateChangeAfter, .idle, s.skipCpDisconnect, by rw [← hstate],
      .delayed hstate hasks hcan⟩
  | true =>
    dsimp only
    have helapsed : s.lastStatePacket - 3500000 ≤ now := by omega
    rw [if_neg (by simp [hcan]), hdeadtime, if_neg (not_not.mpr helapsed)]
    by_cases hflag : s.allocatedCurrentAfterLastDisconnect = true
    · rw [if_pos hflag]
      exact ⟨deadtime, s.nextStateChangeAfter, .stopping, false, rfl,
        .start hstate hasks hcan hflag⟩
    · rw [if_neg hflag]
      exact ⟨deadtime, s.nextStateChangeAfter, .togglingContactor, true, rfl,
        .startFree hstate hasks hcan ((Bool.not_eq_true _).mp hflag)⟩

theorem onTogglingContactor_leads (hstate : s.switchingState = .togglingContactor) :
    Leads s board now phases packet (s.onTogglingContactor board now phases packet) := by
  have hsame (deadtime : Int) : Leads s board now phases packet
      ⟨{ s with phaseSwitchDeadtime := deadtime }, s.hold packet, none, false⟩ :=
    ⟨deadtime, s.nextStateChangeAfter, s.switchingState, s.skipCpDisconnect, rfl,
      .hold (by rw [hstate]; rfl)⟩
  rw [onTogglingContactor, switchPhasesInternal]
  by_cases hinstalled : board.contactorInstalled = false
  · rw [if_pos hinstalled]
    exact hsame _
  rw [if_neg hinstalled]
  obtain ⟨deadtime, hdeadtime⟩ := phaseSwitchingState_eq s board now (phases = 1)
  dsimp only
  by_cases hready : (s.phaseSwitchingState board now (phases = 1)).2 = .ready
  · rw [if_pos hready, hdeadtime]
    exact ⟨_, s.nextStateChangeAfter, .waitUntilSwitched, s.skipCpDisconnect, rfl, .toggle hstate _⟩
  · rw [if_neg hready, hdeadtime]
    exact hsame deadtime

theorem onWaitUntilSwitched_leads (hstate : s.switchingState = .waitUntilSwitched) :
    Leads s board now phases packet (s.onWaitUntilSwitched board now phases packet) := by
  obtain ⟨deadtime, hdeadtime⟩ := phaseSwitchingState_eq s board now (phases = 1)
  rw [onWaitUntilSwitched]
  dsimp only
  rw [hdeadtime]
  by_cases hready : (s.phaseSwitchingState board now (phases = 1)).2 = .ready
  · rw [if_pos hready]
    by_cases hphases : board.phases = phases
    · rw [if_pos hphases]
      by_cases hskip : s.skipCpDisconnect = true
      · rw [if_pos hskip]
        exact ⟨deadtime, s.nextStateChangeAfter, .idle, s.skipCpDisconnect, rfl,
          .switched hstate hskip⟩
      · rw [if_neg hskip]
        exact ⟨deadtime, s.nextStateChangeAfter, .waitUntilCPReconnect, s.skipCpDisconnect, rfl,
          .reconnect hstate⟩
    · rw [if_neg hphases]
      exact ⟨deadtime, s.nextStateChangeAfter, .togglingContactor, s.skipCpDisconnect, rfl,
        .again hstate⟩
  · rw [if_neg hready]
    exact ⟨deadtime, s.nextStateChangeAfter, s.switchingState, s.skipCpDisconnect, rfl,
      .hold (by rw [hstate]; rfl)⟩

section

variable {state : SwitchingState} {skip returned : Bool} {current : Nat} {contactor : Option Bool}

section

variable (h : Outcome s board now phases packet state skip current contactor returned)
include h

/-- No current is allocated from the start of a sequence to its end. -/
theorem Outcome.current_eq
    (hsequence : state.inSequence = true ∨
      s.switchingState.inSequence = true ∧ state ≠ .postSwitchStateFaking) : current = 0 := by
  cases h with
  | stay hstate | delayed hstate | faked hstate =>
    rw [hstate] at hsequence
    simp [SwitchingState.inSequence] at hsequence
  | start | startFree | hold | toggle | switched | reconnect | again => rfl
  | reconnected | fake => simp [SwitchingState.inSequence] at hsequence

/-- A sequence starts with a command in the idle state that asks for other phases. -/
theorem Outcome.started
    (hbefore : s.switchingState.inSequence = false) (hafter : state.inSequence = true) :
    s.switchingState = .idle ∧ (phases ≠ board.phases ∧ board.contactorInstalled = true) ∧
      (s.canSwitchPhasesNow board now phases).2 = true := by
  cases h with
  | start hstate hasks hcan | startFree hstate hasks hcan => exact ⟨hstate, hasks, hcan⟩
  | hold hstate => exact absurd (hbefore.symm.trans hstate) (by decide)
  | toggle hstate | reconnect hstate | again hstate =>
    rw [hstate] at hbefore
    cases hbefore
  | stay | delayed | switched | reconnected | fake | faked => cases hafter

end

theorem Outcome.toggled {value : Bool}
    (h : Outcome s board now phases packet state skip current (some value) returned) :
    s.switchingState = .togglingContactor := by
  cases h with
  | toggle hstate => exact hstate

/-- The filter only returns early when the contactor cannot be switched. -/
theorem Outcome.delayed_of_returned
    (h : Outcome s board now phases packet state skip current contactor true) :
    s.switchingState = .idle ∧ (phases ≠ board.phases ∧ board.contactorInstalled = true) ∧
      (s.canSwitchPhasesNow board now phases).2 = false ∧ current = packet.allocatedCurrent := by
  cases h with
  | delayed hstate hasks hcan => exact ⟨hstate, hasks, hcan, rfl⟩

end

/-- What a command leads to, by the state it is handled in. -/
theorem onCommand_leads (board : Board) (phases : Nat) (packet : CommandPacket)
    (hlast : s.lastStatePacket ≤ now) :
    Leads s board now phases packet (s.onCommand board now phases packet) := by
  have hhold (hstate : s.switchingState.inSequence = true) (handled : Handled)
      (hswitcher : handled.switcher = s) (hcurrent : handled.packet.allocatedCurrent = 0)
      (hcontactor : handled.contactor = none) (hreturned : handled.returned = false) :
      Leads s board now phases packet handled := by
    refine ⟨s.phaseSwitchDeadtime, s.nextStateChangeAfter, s.switchingState, s.skipCpDisconnect,
      hswitcher, ?_⟩
    rw [hcurrent, hcontactor, hreturned]
    exact .hold hstate
  rw [onCommand]
  cases hstate : s.switchingState with
  | idle => exact onIdle_leads hstate hlast
  | stopping | disconnectingCP | disconnectingCPSettle =>
    exact hhold (by rw [hstate]; rfl) _ rfl rfl rfl rfl
  | togglingContactor => exact onTogglingContactor_leads hstate
  | waitUntilSwitched => exact onWaitUntilSwitched_leads hstate
  | waitUntilCPReconnect =>
    dsimp only
    rw [onWaitUntilCPReconnect]
    split
    · exact ⟨s.phaseSwitchDeadtime, _, .postSwitchStateFaking, s.skipCpDisconnect, rfl,
        .reconnected hstate⟩
    · exact hhold (by rw [hstate]; rfl) _ rfl rfl rfl rfl
  | postSwitchStateFaking =>
    dsimp only
    rw [onPostSwitchStateFaking]
    split
    · exact ⟨s.phaseSwitchDeadtime, s.nextStateChangeAfter, .idle, s.skipCpDisconnect, rfl,
        .faked hstate⟩
    · exact ⟨s.phaseSwitchDeadtime, s.nextStateChangeAfter, .postSwitchStateFaking,
        s.skipCpDisconnect, by rw [← hstate], .fake hstate⟩

theorem noteAllocation_eq (s : PhaseSwitcher) (oldState : SwitchingState)
    (packet : CommandPacket) :
    ∃ flag, s.noteAllocation oldState packet =
        { s with allocatedCurrentAfterLastDisconnect := flag } ∧
      (flag = false → packet.allocatedCurrent = 0) := by
  rw [noteAllocation]
  split
  · next h => exact ⟨false, rfl, fun _ => h.2⟩
  · split
    · exact ⟨true, rfl, fun h => by cases h⟩
    · next h =>
        exact ⟨s.allocatedCurrentAfterLastDisconnect, rfl, fun _ => not_not.mp (not_or.mp h).2⟩

/-- What a command leads to at a usable charger. -/
theorem filterCommandPacket_usable (board : Board) (hlast : s.lastStatePacket ≤ now)
    (hignore : packet.ignoreAllocation = false) (husable : s.chargerUsable = true) :
    ∃ deadtime after state skip flag returned,
      (s.filterCommandPacket board now s.controlledChargerIdx packet).1 = { s with
        phaseSwitchDeadtime := deadtime
        nextStateChangeAfter := after
        skipCpDisconnect := skip
        switchingState := state
        allocatedCurrentAfterLastDisconnect := flag } ∧
      Outcome s board now (allocatedPhases board packet) (stopOnError board packet) state skip
        (s.filterCommandPacket board now s.controlledChargerIdx packet).2.1.allocatedCurrent
        (s.filterCommandPacket board now s.controlledChargerIdx packet).2.2 returned ∧
      (returned = true → flag = s.allocatedCurrentAfterLastDisconnect) ∧
      (returned = false → flag = false →
        (s.filterCommandPacket board now s.controlledChargerIdx packet).2.1.allocatedCurrent =
          0) := by
  rw [filterCommandPacket, if_neg (not_not.mpr rfl), if_neg (by simp [hignore]),
    if_neg (by simp [husable])]
  obtain ⟨deadtime, after, state, skip, hswitcher, houtcome⟩ :=
    onCommand_leads board (allocatedPhases board packet) (stopOnError board packet) hlast
  generalize s.onCommand board now (allocatedPhases board packet) (stopOnError board packet) =
    handled at hswitcher houtcome
  dsimp only
  cases hreturned : handled.returned with
  | true =>
    rw [if_pos rfl, hswitcher]
    rw [hreturned] at houtcome
    exact ⟨deadtime, after, state, skip, _, true, rfl, houtcome, fun _ => rfl,
      fun h => by cases h⟩
  | false =>
    rw [if_neg Bool.false_ne_true, hswitcher]
    rw [hreturned] at houtcome
    obtain ⟨flag, hflag, hcleared⟩ := noteAllocation_eq { s with
      phaseSwitchDeadtime := deadtime
      nextStateChangeAfter := after
      skipCpDisconnect := skip
      switchingState := state } s.switchingState handled.packet
    rw [hflag]
    exact ⟨deadtime, after, state, skip, flag, false, rfl, houtcome,
      fun h => absurd h Bool.false_ne_true, fun _ => hcleared⟩

/-- The states before and after a state packet. -/
inductive Advance (packet : StatePacket) : SwitchingState → SwitchingState → Prop
  | same (state : SwitchingState) : Advance packet state state
  | stopped (h : packet.allowedChargingCurrent = 0) : Advance packet .stopping .disconnectingCP
  | disconnected (h : packet.cpDisconnected = true) :
      Advance packet .disconnectingCP .disconnectingCPSettle
  | settled : Advance packet .disconnectingCPSettle .togglingContactor
  | faked : Advance packet .postSwitchStateFaking .idle

/-- What a state packet of the controlled charger leads to. -/
theorem filterStatePacket_spec (s : PhaseSwitcher) (board : Board) (now : Int)
    (packet : StatePacket) :
    (s.filterStatePacket board now s.controlledChargerIdx packet).1.lastStatePacket = now ∧
    (s.filterStatePacket board now s.controlledChargerIdx packet).1.skipCpDisconnect =
      s.skipCpDisconnect ∧
    ((s.filterStatePacket board now
        s.controlledChargerIdx packet).1.allocatedCurrentAfterLastDisconnect =
        s.allocatedCurrentAfterLastDisconnect ∨ s.switchingState = .disconnectingCP) ∧
    Advance packet s.switchingState (s.filterStatePacket board now
        s.controlledChargerIdx packet).1.switchingState := by
  have hfaked : (s.fakePhases board packet).allowedChargingCurrent = packet.allowedChargingCurrent ∧
      (s.fakePhases board packet).cpDisconnected = packet.cpDisconnected := by
    rw [fakePhases]
    split <;> exact ⟨rfl, rfl⟩
  rw [filterStatePacket, if_neg (not_not.mpr rfl)]
  by_cases husable : usable packet = false
  · rw [if_pos husable]
    exact ⟨rfl, rfl, .inl rfl, .same _⟩
  rw [if_neg husable]
  cases s.switchingState with
  | idle | togglingContactor | waitUntilSwitched | waitUntilCPReconnect =>
    exact ⟨rfl, rfl, .inl rfl, .same _⟩
  | stopping =>
    dsimp only
    split
    · next hcurrent => exact ⟨rfl, rfl, .inl rfl, .stopped (hfaked.1.symm.trans hcurrent)⟩
    · exact ⟨rfl, rfl, .inl rfl, .same _⟩
  | disconnectingCP =>
    dsimp only
    split
    · next hdisconnected =>
        exact ⟨rfl, rfl, .inr rfl, .disconnected (hfaked.2.symm.trans hdisconnected)⟩
    · exact ⟨rfl, rfl, .inl rfl, .same _⟩
  | disconnectingCPSettle => exact ⟨rfl, rfl, .inl rfl, .settled⟩
  | postSwitchStateFaking =>
    dsimp only
    split
    · exact ⟨rfl, rfl, .inl rfl, .same _⟩
    · exact ⟨rfl, rfl, .inl rfl, .faked⟩

theorem Advance.inSequence {packet : StatePacket} {state state' : SwitchingState}
    (h : Advance packet state state') (hafter : state'.inSequence = true) :
    state.inSequence = true := by
  cases h with
  | same => exact hafter
  | stopped | disconnected | settled => rfl
  | faked => cases hafter

end

namespace Installation

variable {s : Installation}

/-- What a state of the sequence relies on. -/
def Prepared (state : SwitchingState) (skip disconnected stopped loaded : Bool) : Prop :=
  match state with
  | .stopping => skip = false
  | .disconnectingCP => skip = false ∧ stopped = true
  | .disconnectingCPSettle => skip = false ∧ disconnected = true ∧ stopped = true
  | .togglingContactor | .waitUntilSwitched =>
    disconnected = true ∧ stopped = true ∨ loaded = false
  | .idle | .waitUntilCPReconnect | .postSwitchStateFaking => True

theorem Prepared.mono {state : SwitchingState}
    {skip disconnected disconnected' stopped stopped' loaded loaded' : Bool}
    (h : Prepared state skip disconnected stopped loaded)
    (hdisconnected : disconnected = true → disconnected' = true)
    (hstopped : stopped = true → stopped' = true) (hloaded : loaded = false → loaded' = false) :
    Prepared state skip disconnected' stopped' loaded' := by
  cases state with
  | idle | waitUntilCPReconnect | postSwitchStateFaking => trivial
  | stopping => exact h
  | disconnectingCP => exact ⟨h.1, hstopped h.2⟩
  | disconnectingCPSettle => exact ⟨h.1, hdisconnected h.2.1, hstopped h.2.2⟩
  | togglingContactor | waitUntilSwitched =>
    exact h.imp (fun h => ⟨hdisconnected h.1, hstopped h.2⟩) hloaded

theorem Prepared.of_outside {state : SwitchingState} {skip disconnected stopped loaded : Bool}
    (h : ¬ state.inSequence = true) : Prepared state skip disconnected stopped loaded := by
  cases state <;> trivial

/-- What the switcher knows of the charger and the vehicle. -/
structure Known (s : Installation) : Prop where
  now_nonneg : 0 ≤ s.now
  lastReport : s.switcher.lastStatePacket = (s.lastReport.map Prod.fst).getD (-3600000000)
  upToNow : s.switcher.lastStatePacket ≤ s.now
  noLoad : s.switcher.allocatedCurrentAfterLastDisconnect = false →
    s.allocation = 0 ∧ (s.loaded = false ∨ s.assumed = true)
  inSequence : s.switcher.switchingState.inSequence = true → s.allocation = 0
  prepared : Prepared s.switcher.switchingState s.switcher.skipCpDisconnect s.disconnected
    s.stopped s.loaded

theorem known_initial (controlledChargerIdx now : Nat) :
    (initial controlledChargerIdx now).Known where
  now_nonneg := Int.natCast_nonneg now
  lastReport := rfl
  upToNow := by
    change (-3600000000 : Int) ≤ now
    omega
  noLoad := fun h => by cases h
  inSequence := fun h => by cases h
  prepared := trivial

/-- The switcher checks the deadtime of the contactor, and time passes. -/
theorem Known.wait (h : s.Known) {now : Int} (hnow : s.now ≤ now) (deadtime : Int)
    (phases : UInt8) :
    ({ s with
      now := now
      switcher := { s.switcher with
        phaseSwitchDeadtime := deadtime
        externalPhaseOverride := phases } } : Installation).Known where
  now_nonneg := h.now_nonneg.trans hnow
  lastReport := h.lastReport
  upToNow := h.upToNow.trans hnow
  noLoad := h.noLoad
  inSequence := h.inSequence
  prepared := h.prepared

/-- What is recorded of a packet agrees with what the switcher knows. -/
theorem Known.record (h : s.Known) {switcher : PhaseSwitcher} {lastReport : Option (Int × Nat)}
    {allocation : Nat} {disconnected stopped : Bool}
    (hlast : switcher.lastStatePacket = (lastReport.map Prod.fst).getD (-3600000000))
    (hnow : switcher.lastStatePacket ≤ s.now)
    (hflag : switcher.allocatedCurrentAfterLastDisconnect = false → allocation = 0)
    (hsequence : switcher.switchingState.inSequence = true → allocation = 0)
    (hprepared : (allocation = 0 → s.loaded = false →
        (s.record switcher lastReport allocation disconnected stopped).loaded = false) →
      Prepared switcher.switchingState switcher.skipCpDisconnect
        (s.record switcher lastReport allocation disconnected stopped).disconnected
        (s.record switcher lastReport allocation disconnected stopped).stopped
        (s.record switcher lastReport allocation disconnected stopped).loaded) :
    (s.record switcher lastReport allocation disconnected stopped).Known := by
  refine ⟨h.now_nonneg, hlast, hnow, fun hcleared => ⟨hflag hcleared, ?_⟩, hsequence, ?_⟩
  · have hcleared' : switcher.allocatedCurrentAfterLastDisconnect = false := hcleared
    rw [Installation.record]
    rw [hflag hcleared, hcleared']
    generalize decide (lastReport.map Prod.snd = some chargerStateNotPluggedIn) = unplugged
    cases unplugged with
    | true => simp
    | false =>
      cases hbefore : s.switcher.allocatedCurrentAfterLastDisconnect with
      | true => simp
      | false => simpa using (h.noLoad hbefore).2
  · apply hprepared
    intro hzero hloaded
    rw [Installation.record]
    simp [hzero, hloaded]

/-- What was reported counts unless the sequence has just left idle. -/
theorem record_reported (h : s.switcher.switchingState ≠ .idle) (switcher : PhaseSwitcher)
    (lastReport : Option (Int × Nat)) (allocation : Nat) (disconnected stopped : Bool) :
    (s.record switcher lastReport allocation disconnected stopped).disconnected = disconnected ∧
      (s.record switcher lastReport allocation disconnected stopped).stopped = stopped := by
  rw [Installation.record]
  simp [h]

theorem ne_idle {state : SwitchingState} (h : state.inSequence = true) : state ≠ .idle := by
  rintro rfl
  cases h

/-- An event that is no command for the charger and starts no sequence is safe. -/
theorem safe_of_no_command {event : Event}
    (hevent : ∀ board packet, event ≠ .command board s.switcher.controlledChargerIdx packet)
    (hstarted : (s.step event).switcher.switchingState.inSequence = true →
      s.switcher.switchingState.inSequence = true) : s.Safe event where
  toggle := fun board packet _ h => absurd h (hevent board packet)
  forwarded := fun board packet h => absurd h (hevent board packet)
  started := fun hbefore hafter => absurd (hbefore.symm.trans (hstarted hafter)) (by decide)

theorem switchPhases_eq (switcher : PhaseSwitcher) (board : Board) (now : Int)
    (phasesWanted : Nat) :
    ∃ deadtime phases, (switcher.switchPhases board now phasesWanted).1 =
      { switcher with phaseSwitchDeadtime := deadtime, externalPhaseOverride := phases } := by
  rw [switchPhases]
  split
  · exact ⟨_, _, rfl⟩
  · split
    · exact ⟨_, _, rfl⟩
    · obtain ⟨deadtime, hdeadtime⟩ :=
        phaseSwitchingState_eq switcher board now false
      dsimp only
      rw [hdeadtime]
      split <;> exact ⟨deadtime, _, rfl⟩

theorem Known.state (h : s.Known) (board : Board) (packet : StatePacket) :
    (s.step (.state board s.switcher.controlledChargerIdx packet)).Known ∧
      s.Safe (.state board s.switcher.controlledChargerIdx packet) := by
  obtain ⟨hlast, hskip, hflag, hstate⟩ :=
    filterStatePacket_spec s.switcher board s.now packet
  have hstep : s.step (.state board s.switcher.controlledChargerIdx packet) =
      s.record (s.switcher.filterStatePacket board s.now s.switcher.controlledChargerIdx packet).1
        (some (s.now, packet.chargerState)) s.allocation
        (s.disconnected || packet.cpDisconnected)
        (s.stopped || packet.allowedChargingCurrent = 0) := by
    rw [Installation.step, if_pos rfl]
  have hprepared := h.prepared
  have hallocation := h.inSequence
  generalize (s.switcher.filterStatePacket board s.now s.switcher.controlledChargerIdx
    packet).1 = switcher at hlast hskip hflag hstate hstep
  constructor
  · rw [hstep]
    apply h.record
    · rw [hlast]
      rfl
    · exact hlast.le
    · intro hcleared
      rcases hflag with hsame | hdisconnecting
      · exact (h.noLoad (hsame ▸ hcleared)).1
      · exact hallocation (by rw [hdisconnecting]; rfl)
    · exact fun hafter => hallocation (hstate.inSequence hafter)
    · intro hloaded
      by_cases hidle : s.switcher.switchingState = .idle
      · rw [hidle] at hstate
        generalize switcher.switchingState = after at hstate
        cases hstate with
        | same => trivial
      obtain ⟨hdisconnected, hstopped⟩ := record_reported hidle switcher
        (some (s.now, packet.chargerState)) s.allocation (s.disconnected || packet.cpDisconnected)
        (s.stopped || packet.allowedChargingCurrent = 0)
      rw [hdisconnected, hstopped, hskip]
      generalize s.switcher.switchingState = before at hprepared hstate hallocation
      generalize switcher.switchingState = after at hstate
      cases hstate with
      | same =>
        by_cases hsequence : before.inSequence = true
        · exact hprepared.mono (by simp +contextual) (by simp +contextual)
            (hloaded (hallocation hsequence))
        · exact .of_outside hsequence
      | stopped hcurrent =>
        refine ⟨hprepared, ?_⟩
        simp [hcurrent]
      | disconnected hdisconnected =>
        obtain ⟨hskipped, hreported⟩ := hprepared
        refine ⟨hskipped, ?_, ?_⟩
        · simp [hdisconnected]
        · simp [hreported]
      | settled =>
        obtain ⟨-, hreported, hcurrent⟩ := hprepared
        left
        constructor
        · simp [hreported]
        · simp [hcurrent]
      | faked => trivial
  · apply safe_of_no_command (fun board packet => by simp)
    rw [hstep]
    exact hstate.inSequence

/-- Without a look at the allocation the switcher stays as it is. -/
theorem filterCommandPacket_unfiltered {switcher : PhaseSwitcher} {packet : CommandPacket}
    (board : Board) (now : Int)
    (h : packet.ignoreAllocation = true ∨ switcher.chargerUsable = false) :
    switcher.filterCommandPacket board now switcher.controlledChargerIdx packet =
      (switcher, packet, none) := by
  rw [filterCommandPacket, if_neg (not_not.mpr rfl)]
  rcases h with hignore | hunusable
  · rw [if_pos hignore]
  · rw [if_pos hunusable, ite_self]

/-- A command that is not filtered allocates no current during a sequence. -/
theorem Known.unfiltered (h : s.Known) {board : Board} {packet : CommandPacket}
    (hpacket : packet.ignoreAllocation = true ∨ s.switcher.chargerUsable = false)
    (hcurrent : packet.ignoreAllocation = false → packet.allocatedCurrent ≠ 0 →
      s.switcher.switchingState.inSequence = false ∧
        s.switcher.allocatedCurrentAfterLastDisconnect = true) :
    (s.step (.command board s.switcher.controlledChargerIdx packet)).Known ∧
      s.Safe (.command board s.switcher.controlledChargerIdx packet) := by
  have hfilter := filterCommandPacket_unfiltered board s.now hpacket
  have hstep : s.step (.command board s.switcher.controlledChargerIdx packet) =
      s.record s.switcher s.lastReport
        (if packet.ignoreAllocation then s.allocation else packet.allocatedCurrent)
        s.disconnected s.stopped := by
    rw [Installation.step, if_pos rfl, hfilter]
  constructor
  · rw [hstep]
    apply h.record h.lastReport h.upToNow
    · intro hcleared
      cases hignore : packet.ignoreAllocation with
      | true => exact (h.noLoad hcleared).1
      | false =>
        by_contra hne
        exact absurd (hcleared.symm.trans (hcurrent hignore hne).2) (by decide)
    · intro hsequence
      cases hignore : packet.ignoreAllocation with
      | true => exact h.inSequence hsequence
      | false =>
        by_contra hne
        exact absurd (hsequence.symm.trans (hcurrent hignore hne).1) (by decide)
    · intro hloaded
      by_cases hsequence : s.switcher.switchingState.inSequence = true
      · obtain ⟨hdisconnected, hstopped⟩ := record_reported (ne_idle hsequence) s.switcher
          s.lastReport (if packet.ignoreAllocation then s.allocation else packet.allocatedCurrent)
          s.disconnected s.stopped
        rw [hdisconnected, hstopped]
        refine h.prepared.mono id id (hloaded ?_)
        cases hignore : packet.ignoreAllocation with
        | true => exact h.inSequence hsequence
        | false =>
          by_contra hne
          exact absurd (hsequence.symm.trans (hcurrent hignore hne).1) (by decide)
      · exact .of_outside hsequence
  · constructor
    · intro board' packet' value hevent hvalue
      cases hevent
      rw [Installation.forward, hfilter] at hvalue
      cases hvalue
    · intro board' packet' hevent hsequence
      cases hevent
      rw [hstep] at hsequence
      have hbefore : s.switcher.switchingState.inSequence = true := hsequence.elim id And.left
      rw [Installation.forward, hfilter]
      by_contra hload
      obtain ⟨hignore, hne⟩ := not_or.mp hload
      exact absurd (hbefore.symm.trans (hcurrent ((Bool.not_eq_true _).mp hignore) hne).1)
        (by decide)
    · intro hbefore hafter
      rw [hstep] at hafter
      exact absurd (hbefore.symm.trans hafter) (by decide)

/-- The current of the forwarded command, if the filter looks at it. -/
theorem stopOnError_current {board : Board} {packet : CommandPacket}
    (h : packet.allocatedCurrent = 0) : (stopOnError board packet).allocatedCurrent = 0 := by
  rw [stopOnError]
  split
  · rfl
  · exact h

/-- What the state after a command relies on holds. -/
theorem Known.prepared_command (h : s.Known) {board : Board} {packet forwarded : CommandPacket}
    {switcher : PhaseSwitcher} {state : SwitchingState} {skip returned : Bool} {current : Nat}
    {contactor : Option Bool} (hhandles : s.Handles board packet)
    (husable : s.switcher.chargerUsable = true)
    (houtcome : Outcome s.switcher board s.now (allocatedPhases board packet) forwarded state skip
      current contactor returned)
    (hloaded : current = 0 → s.loaded = false →
      (s.record switcher s.lastReport current s.disconnected s.stopped).loaded = false) :
    Prepared state skip
      (s.record switcher s.lastReport current s.disconnected s.stopped).disconnected
      (s.record switcher s.lastReport current s.disconnected s.stopped).stopped
      (s.record switcher s.lastReport current s.disconnected s.stopped).loaded := by
  have hprepared := h.prepared
  have hkeep (state' : SwitchingState) (hbefore : s.switcher.switchingState ≠ .idle)
      (hzero : current = 0)
      (hprepared : Prepared state' s.switcher.skipCpDisconnect s.disconnected s.stopped s.loaded) :
      Prepared state' s.switcher.skipCpDisconnect
        (s.record switcher s.lastReport current s.disconnected s.stopped).disconnected
        (s.record switcher s.lastReport current s.disconnected s.stopped).stopped
        (s.record switcher s.lastReport current s.disconnected s.stopped).loaded := by
    obtain ⟨hdisconnected, hstopped⟩ := record_reported hbefore switcher s.lastReport current
      s.disconnected s.stopped
    rw [hdisconnected, hstopped]
    exact hprepared.mono id id (hloaded hzero)
  cases houtcome with
  | stay | delayed | switched | reconnect | reconnected | fake | faked => trivial
  | start => rfl
  | startFree hstate hasks hcan hflag =>
    -- The vehicle was reported unplugged, and nothing was allocated since.
    have hassumed := hhandles.reported husable ⟨hstate, hasks⟩ hcan hflag
    rcases (h.noLoad hflag).2 with hfree | hfalse
    · exact .inr (hloaded rfl hfree)
    · exact absurd (hassumed.symm.trans hfalse) (by decide)
  | hold hsequence => exact hkeep _ (ne_idle hsequence) rfl hprepared
  | toggle hstate =>
    rw [hstate] at hprepared
    exact hkeep .waitUntilSwitched (by rw [hstate]; decide) rfl hprepared
  | again hstate =>
    rw [hstate] at hprepared
    exact hkeep .togglingContactor (by rw [hstate]; decide) rfl hprepared

theorem Known.usable (h : s.Known) {board : Board} {packet : CommandPacket}
    (hignore : packet.ignoreAllocation = false) (husable : s.switcher.chargerUsable = true)
    (hhandles : s.Handles board packet) :
    (s.step (.command board s.switcher.controlledChargerIdx packet)).Known ∧
      s.Safe (.command board s.switcher.controlledChargerIdx packet) := by
  obtain ⟨deadtime, after, state, skip, flag, returned, hswitcher, houtcome, hkept, hcleared⟩ :=
    filterCommandPacket_usable board h.upToNow hignore husable
  have hstep : s.step (.command board s.switcher.controlledChargerIdx packet) =
      s.record (s.switcher.filterCommandPacket board s.now s.switcher.controlledChargerIdx
        packet).1 s.lastReport (s.forward board s.switcher.controlledChargerIdx
          packet).1.allocatedCurrent s.disconnected s.stopped := by
    rw [Installation.step, if_pos rfl]
    dsimp only
    rw [if_neg (by simp [hignore])]
    rfl
  have hforward : s.forward board s.switcher.controlledChargerIdx packet =
      (s.switcher.filterCommandPacket board s.now s.switcher.controlledChargerIdx packet).2 := rfl
  rw [← hforward] at houtcome hcleared
  generalize (s.switcher.filterCommandPacket board s.now s.switcher.controlledChargerIdx
    packet).1 = switcher at hswitcher hstep
  have hlast : switcher.lastStatePacket = s.switcher.lastStatePacket := by rw [hswitcher]
  have hstate : switcher.switchingState = state := by rw [hswitcher]
  have hskip : switcher.skipCpDisconnect = skip := by rw [hswitcher]
  have hflag : switcher.allocatedCurrentAfterLastDisconnect = flag := by rw [hswitcher]
  have hnoLoad : flag = false →
      (s.forward board s.switcher.controlledChargerIdx packet).1.allocatedCurrent = 0 := by
    intro hflag
    cases hreturned : returned with
    | false => exact hcleared hreturned hflag
    | true =>
      rw [hreturned] at houtcome
      obtain ⟨hidle, hasks, hcan, hcurrent⟩ := houtcome.delayed_of_returned
      rw [hcurrent]
      apply stopOnError_current
      by_contra hne
      have hknown := hhandles.delayed husable ⟨hidle, hasks⟩
        (fun h => absurd (hcan.symm.trans h) (by decide)) hne
      exact absurd (hflag.symm.trans ((hkept hreturned).trans hknown)) (by decide)
  generalize hpacket : s.forward board s.switcher.controlledChargerIdx packet = forwarded
    at houtcome hcleared hstep hnoLoad
  constructor
  · rw [hstep]
    refine h.record (hlast.trans h.lastReport) (hlast.trans_le h.upToNow)
      (fun hzero => hnoLoad (hflag.symm.trans hzero))
      (fun hafter => houtcome.current_eq (.inl (hstate ▸ hafter))) ?_
    intro hloaded
    rw [hstate, hskip]
    exact h.prepared_command hhandles husable houtcome hloaded
  · constructor
    · intro board' packet' value hevent hvalue
      cases hevent
      rw [hpacket] at hvalue
      rw [hvalue] at houtcome
      have hprepared := h.prepared
      rw [houtcome.toggled] at hprepared
      exact hprepared
    · intro board' packet' hevent hsequence
      cases hevent
      rw [hstep] at hsequence
      rw [hpacket]
      have hafter : (s.record switcher s.lastReport forwarded.1.allocatedCurrent s.disconnected
        s.stopped).switcher.switchingState = state := hstate
      rw [hafter] at hsequence
      exact .inr (houtcome.current_eq hsequence)
    · intro hbefore hafter
      rw [hstep] at hafter
      obtain ⟨hidle, hasks, hcan⟩ := houtcome.started hbefore (hstate ▸ hafter)
      have hfresh := hhandles.fresh husable ⟨hidle, hasks⟩ hcan
      have hreport := h.lastReport
      have hnow := h.now_nonneg
      cases hlastReport : s.lastReport with
      | none =>
        rw [hlastReport] at hreport
        change s.switcher.lastStatePacket = -3600000000 at hreport
        omega
      | some report =>
        rw [hlastReport] at hreport
        rw [hreport] at hfresh
        exact ⟨report.1, report.2, rfl, hfresh⟩

/-- Each event keeps what the switcher knows and is safe, if the switcher handles it. -/
theorem Known.step (h : s.Known) {event : Event} (hevent : s.HandlesEvent event) :
    (s.step event).Known ∧ s.Safe event := by
  cases event with
  | wait delay =>
    refine ⟨?_, safe_of_no_command (fun board packet => by simp) id⟩
    exact h.wait (Int.le_add_of_nonneg_right (Int.natCast_nonneg delay))
      s.switcher.phaseSwitchDeadtime s.switcher.externalPhaseOverride
  | command board chargerIdx packet =>
    by_cases hidx : chargerIdx = s.switcher.controlledChargerIdx
    · subst hidx
      cases hignore : packet.ignoreAllocation with
      | true =>
        exact h.unfiltered (.inl hignore)
          fun hfalse => absurd (hfalse.symm.trans hignore) (by decide)
      | false =>
        have hhandles := hevent rfl hignore
        cases husable : s.switcher.chargerUsable with
        | true => exact h.usable hignore husable hhandles
        | false => exact h.unfiltered (.inr husable) fun _ => hhandles.unusable husable
    · have hsame : s.step (.command board chargerIdx packet) = s := by
        rw [Installation.step, if_neg hidx]
      refine ⟨hsame.symm ▸ h, safe_of_no_command ?_ (fun hafter => hsame ▸ hafter)⟩
      intro board' packet' heq
      cases heq
      exact hidx rfl
  | state board chargerIdx packet =>
    by_cases hidx : chargerIdx = s.switcher.controlledChargerIdx
    · subst hidx
      exact h.state board packet
    · have hsame : s.step (.state board chargerIdx packet) = s := by
        rw [Installation.step, if_neg hidx]
      exact ⟨hsame.symm ▸ h,
        safe_of_no_command (fun board packet => by simp) fun hafter => hsame ▸ hafter⟩
  | poll board ignoreContactorError =>
    obtain ⟨deadtime, hdeadtime⟩ :=
      phaseSwitchingState_eq s.switcher board s.now ignoreContactorError
    have hstep : s.step (.poll board ignoreContactorError) =
        { s with switcher := { s.switcher with phaseSwitchDeadtime := deadtime } } := by
      rw [Installation.step, hdeadtime]
    refine ⟨?_, safe_of_no_command (fun board packet => by simp) fun hafter => ?_⟩
    · rw [hstep]
      exact h.wait le_rfl deadtime s.switcher.externalPhaseOverride
    · rw [hstep] at hafter
      exact hafter
  | switchPhases board phasesWanted =>
    obtain ⟨deadtime, phases, hphases⟩ := switchPhases_eq s.switcher board s.now phasesWanted
    have hstep : s.step (.switchPhases board phasesWanted) = { s with switcher := { s.switcher with
          phaseSwitchDeadtime := deadtime, externalPhaseOverride := phases } } := by
      rw [Installation.step, hphases]
    refine ⟨?_, safe_of_no_command (fun board packet => by simp) fun hafter => ?_⟩
    · rw [hstep]
      exact h.wait le_rfl deadtime phases
    · rw [hstep] at hafter
      exact hafter

/-- As long as the switcher gets the state of the charger right, it switches the contactor without
load, lets no command allocate current during a sequence, and starts a sequence only on a state
packet of the last 3.5 seconds. -/
theorem contactor_safe (controlledChargerIdx now : Nat) (events : List Event) (event : Event)
    (h : Meets step HandlesEvent (initial controlledChargerIdx now) (events ++ [event])) :
    (run step (initial controlledChargerIdx now) events).Safe event := by
  obtain ⟨hevents, hevent⟩ := h.append
  have hknown := hevents.invariant (I := Known) (fun _ _ hs hok => (hs.step hok).1)
    (known_initial controlledChargerIdx now)
  exact (hknown.step hevent.1).2

instance (s : Installation) (board : Board) (packet : CommandPacket) :
    Decidable (s.Asks board packet) :=
  inferInstanceAs (Decidable (_ ∧ _ ∧ _))

instance (s : Installation) (board : Board) (packet : CommandPacket) :
    Decidable (s.CanSwitch board packet) :=
  inferInstanceAs (Decidable (_ = _))

set_option synthInstance.maxSize 512 in
instance (s : Installation) (board : Board) (packet : CommandPacket) :
    Decidable (s.Handles board packet) :=
  decidable_of_iff _ (Installation.handles_iff s board packet).symm

instance (s : Installation) : (event : Event) → Decidable (s.HandlesEvent event)
  | .wait _ => isTrue trivial
  | .command _ _ _ => inferInstanceAs (Decidable (_ → _ → _))
  | .state _ _ _ => isTrue trivial
  | .poll _ _ => isTrue trivial
  | .switchPhases _ _ => isTrue trivial

/-- The contactor is installed and off. -/
def onePhase : Board := ⟨true, false, false⟩

def report (cpDisconnected : Bool) (allowedChargingCurrent : Nat) : Event :=
  .state onePhase 0 ⟨3, false, true, true, cpDisconnected, allowedChargingCurrent, 2, 3, 1⟩

/-- A command with 16 ampere. -/
def allocate (phases : Int) : Event := .command onePhase 0 ⟨16000, false, false, phases⟩

/-- The vehicle charges with one phase, and three are allocated. -/
def switching : List Event :=
  [report false 16000, allocate 1, .wait 1000000, allocate 3, report false 0, allocate 3,
    report true 0, report true 0]

theorem contactor_safe_switching :
    ((run step (initial 0 0) switching).forward onePhase 0 ⟨16000, false, false, 3⟩).2 = some true ∧
      (run step (initial 0 0) switching).Safe (allocate 3) :=
  ⟨by decide, contactor_safe 0 0 switching (allocate 3) (by decide)⟩

/-- The sequence is started on a state packet that is ten seconds old. -/
theorem contactor_unsafe_outdated :
    ¬ (run step (initial 0 0)
      [report false 16000, allocate 1, .wait 10000000]).Safe (allocate 3) := by
  intro hsafe
  obtain ⟨reported, chargerState, hreport, hfresh⟩ :=
    hsafe.started (by decide) (by decide)
  obtain ⟨rfl, rfl⟩ := Prod.mk.inj (Option.some.inj hreport)
  exact absurd hfresh (by decide)

end Installation

end Esp32Firmware.EmPhaseSwitcher
