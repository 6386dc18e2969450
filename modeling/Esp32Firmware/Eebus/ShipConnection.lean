import Esp32Firmware.Eebus.ShipMessages
import Esp32Firmware.Library.Passes

/-!
# The state machine of a SHIP connection

Connection mode initialisation, hello, protocol handshake and PIN check, up to the data exchange.
Frames of the peer, scheduled steps and timers drive the machine.

## Implementation notes

A task is scheduled or not, and a scheduled one may run at any time. The trace records what a
connection does with its peer, the newest first; sending counts when it is issued. What is shown of
the peer, the JSON texts that are sent and the websocket are left out; whether a server's message
goes out is given for each message. A datagram is processed by a task of its own.
-/

namespace Esp32Firmware.Eebus

inductive ShipConnectionState where
  | cmiInitStart
  | cmiClientSend
  | cmiClientWait
  | cmiClientEvaluate
  | cmiServerWait
  | cmiServerEvaluate
  | smeConnectionDataPreparation
  | smeHello
  | smeHelloReadyInit
  | smeHelloReadyListen
  | smeHelloReadyTimeout
  | smeHelloPendingInit
  | smeHelloPendingListen
  | smeHelloPendingTimeout
  | smeHelloOk
  | smeHelloAbort
  | smeHelloAbortDone
  | smeHelloRemoteAbortDone
  | smeHelloRejected
  | smeProtocolHandshakeServerInit
  | smeProtocolHandshakeClientInit
  | smeProtocolHandshakeServerListenProposal
  | smeProtocolHandshakeServerListenConfirm
  | smeProtocolHandshakeClientListenChoice
  | smeProtocolHandshakeTimeout
  | smeProtocolHandshakeClientOk
  | smeProtocolHandshakeServerOk
  | smePinCheckInit
  | smePinCheckListen
  | smePinCheckError
  | smePinCheckBusyInit
  | smePinCheckBusyWait
  | smePinCheckOk
  | smePinAskInit
  | smePinAskProcess
  | smePinAskRestricted
  | smePinAskOk
  | smeAccessMethodRequest
  | done
deriving DecidableEq, Repr

/-- The states whose handlers read the incoming message. -/
def ShipConnectionState.isListeningState : ShipConnectionState → Bool
  | .cmiClientEvaluate
  | .cmiServerEvaluate
  | .smeHelloReadyListen
  | .smeHelloPendingListen
  | .smeProtocolHandshakeServerListenProposal
  | .smeProtocolHandshakeServerListenConfirm
  | .smeProtocolHandshakeClientListenChoice
  | .smeAccessMethodRequest
  | .done => true
  | _ => false

inductive Role where
  | client
  | server
deriving DecidableEq, Repr

/-- The tasks that are scheduled; the wait-for-ready timer with its target state. -/
structure ShipTasks where
  stateMachineTask : Bool := false
  timeoutTask : Bool := false
  helloWaitForReadyTimer : Option ShipConnectionState := none
  helloSendProlongationRequestTimer : Bool := false
  helloSendProlongationReplyTimer : Bool := false
  helloTrustCheckTimer : Bool := false
  protocolHandshakeTimer : Bool := false
deriving DecidableEq, Repr

/-- What a connection does with its peer. -/
inductive ShipAct where
  | foundTrusted
  | receivedHello (phase : ConnectionHelloPhase)
  | sentAnnounce (version : ProtocolVersion)
  | receivedAnnounce (version : ProtocolVersion)
  | sentSelect (version : ProtocolVersion)
  | receivedSelect (version : ProtocolVersion)
  | entered (state : ShipConnectionState)
  | processedDatagram
deriving DecidableEq, Repr

/-- `protocol_handshake_version_major`, `protocol_handshake_version_minor` -/
def ownVersion : ProtocolVersion := ⟨1, 0⟩

structure ShipConnection where
  role : Role
  peerTrusted : Bool := false
  connected : Bool := false
  state : ShipConnectionState := .cmiInitStart
  previousState : ShipConnectionState := .cmiInitStart
  connectionEstablished : Bool := false
  closingScheduled : Bool := false
  incomingMessagePending : Bool := false
  messageIncoming : Message := {}
  tasks : ShipTasks := {}
  helloTimerExpiry : ℕ := 0
  peerHelloPhase : ConnectionHello := {}
  thisHelloPhase : ConnectionHello := {}
  protocolHandshakeVersionSelected : ProtocolVersion := ⟨1, 0⟩
  sentMessages : ℕ := 0
  scheduledDatagrams : ℕ := 0
  trace : List ShipAct := []
deriving DecidableEq, Repr

/-- The JSON library, and whether the messages of a server go out. -/
structure ShipEnvironment where
  json : ShipJson
  sendSucceeds : ℕ → Bool

namespace ShipConnection

def record (act : ShipAct) (s : ShipConnection) : ShipConnection :=
  { s with trace := act :: s.trace }

def setState (newState : ShipConnectionState) (s : ShipConnection) : ShipConnection :=
  if newState = s.state then s
  else record (.entered newState) { s with previousState := s.state, state := newState }

def scheduleStateMachineNextStep (s : ShipConnection) : ShipConnection :=
  if s.closingScheduled then s else { s with tasks.stateMachineTask := true }

def setAndScheduleState (newState : ShipConnectionState) (s : ShipConnection) : ShipConnection :=
  (s.setState newState).scheduleStateMachineNextStep

/-- All tasks are cancelled. -/
def scheduleClose (s : ShipConnection) : ShipConnection :=
  if s.closingScheduled then s else { s with closingScheduled := true, tasks := {} }

/-- A client ignores that a message does not go out. -/
def sendRaw (env : ShipEnvironment) (s : ShipConnection) : ShipConnection :=
  let sent := { s with sentMessages := s.sentMessages + 1 }
  match s.role with
  | .server => if env.sendSucceeds s.sentMessages then sent else sent.scheduleClose
  | .client => sent

def stateCmeInitStart (s : ShipConnection) : ShipConnection :=
  match s.role with
  | .client => s.setAndScheduleState .cmiClientSend
  | .server => { s.setState .cmiServerWait with tasks.timeoutTask := true }

def stateCmiClientSend (env : ShipEnvironment) (s : ShipConnection) : ShipConnection :=
  { (s.sendRaw env).setState .cmiClientWait with tasks.timeoutTask := true }

def stateCmiClientWait (s : ShipConnection) : ShipConnection :=
  { s with tasks.timeoutTask := false }.setAndScheduleState .cmiClientEvaluate

def stateCmiClientEvaluate (s : ShipConnection) : ShipConnection :=
  if s.messageIncoming.getCmiMessage = some (0, 0) then
    s.setAndScheduleState .smeConnectionDataPreparation
  else s.scheduleClose

def stateCmiServerWait (s : ShipConnection) : ShipConnection :=
  { s with tasks.timeoutTask := false }.setAndScheduleState .cmiServerEvaluate

def stateCmiServerEvaluate (env : ShipEnvironment) (s : ShipConnection) : ShipConnection :=
  if s.messageIncoming.getCmiMessage = some (0, 0) then
    (s.setAndScheduleState .smeConnectionDataPreparation).sendRaw env
  else (s.sendRaw env).scheduleClose

def stateSmeConnectionDataPreparation (s : ShipConnection) : ShipConnection :=
  s.setAndScheduleState .smeHello

/-- The phase that follows from the trust in the peer. -/
def helloCheckTrustStatus (s : ShipConnection) : ConnectionHelloPhase × ShipConnection :=
  if s.peerTrusted then (.ready, s.record .foundTrusted) else (.pending, s)

def stateSmeHello (s : ShipConnection) : ShipConnection :=
  let phase := s.helloCheckTrustStatus.1
  let s :=
    { s.helloCheckTrustStatus.2 with
      thisHelloPhase :=
        { phase := phase, prolongationRequest := phase == ConnectionHelloPhase.pending } }
  match phase with
  | .pending => s.setAndScheduleState .smeHelloPendingInit
  | .ready => s.setAndScheduleState .smeHelloReadyInit
  | .aborted | .unknown => s.setAndScheduleState .smeHelloAbort

def helloSendSmeUpdate (env : ShipEnvironment) (s : ShipConnection) : ShipConnection :=
  { s with
    thisHelloPhase.waiting := 60000
    thisHelloPhase.waitingValid := true }.sendRaw env

def helloSetWaitForReadyTimer (target : ShipConnectionState) (s : ShipConnection) :
    ShipConnection :=
  { s with tasks.helloWaitForReadyTimer := some target }

/-- A request is always granted, so that the timer starts again. -/
def helloDecideProlongation (s : ShipConnection) : ShipConnection :=
  if s.peerHelloPhase.phase = .pending then
    if s.thisHelloPhase.phase = .pending then
      s.helloSetWaitForReadyTimer .smeHelloPendingTimeout
    else s.helloSetWaitForReadyTimer .smeHelloReadyTimeout
  else s

def helloStartTrustCheckTimer (s : ShipConnection) : ShipConnection :=
  { s with tasks.helloTrustCheckTimer := true }

/-- The peer is trusted now. -/
def becomeReady (s : ShipConnection) : ShipConnection :=
  { s.record .foundTrusted with thisHelloPhase.phase := .ready }.setAndScheduleState
    .smeHelloReadyInit

def helloTrustCheckTimerCallback (s : ShipConnection) : ShipConnection :=
  if s.peerTrusted then s.becomeReady else s.helloStartTrustCheckTimer

def notifyTrustChanged (s : ShipConnection) : ShipConnection :=
  if s.state ≠ .smeHelloPendingListen ∧ s.state ≠ .smeHelloPendingInit then s
  else if s.peerTrusted then { s with tasks.helloTrustCheckTimer := false }.becomeReady
  else s

def cancelProlongationTimers (s : ShipConnection) : ShipConnection :=
  { s with
    tasks.helloSendProlongationReplyTimer := false
    tasks.helloSendProlongationRequestTimer := false }

def stateSmeHelloReadyInit (env : ShipEnvironment) (s : ShipConnection) : ShipConnection :=
  let s := (s.helloSetWaitForReadyTimer .smeHelloReadyTimeout).cancelProlongationTimers
  let s := s.helloSendSmeUpdate env
  if s.peerHelloPhase.phase = .ready then s.setAndScheduleState .smeHelloOk
  else s.setState .smeHelloReadyListen

/-- A message that is no JSON text keeps what is known of the peer. -/
def jsonToTypeConnectionHello (env : ShipEnvironment) (s : ShipConnection) : ShipConnection :=
  match s.messageIncoming.hello env.json with
  | none => s
  | some objects =>
    let s := { s with peerHelloPhase := s.peerHelloPhase.jsonToType objects }
    if ConnectionHello.givesPhase objects then s.record (.receivedHello s.peerHelloPhase.phase)
    else s

def stateSmeHelloReadyListen (env : ShipEnvironment) (s : ShipConnection) : ShipConnection :=
  let s := s.jsonToTypeConnectionHello env
  match s.peerHelloPhase.phase with
  | .pending =>
    let s :=
      if s.peerHelloPhase.prolongationRequest ∧ s.peerHelloPhase.prolongationRequestValid then
        s.helloDecideProlongation
      else s
    s.helloSendSmeUpdate env
  | .ready => s.setAndScheduleState .smeHelloOk
  | .aborted | .unknown => s.setAndScheduleState .smeHelloAbort

def stateSmeHelloReadyTimeout (s : ShipConnection) : ShipConnection :=
  s.setAndScheduleState .smeHelloAbort

def stateSmeHelloPendingInit (env : ShipEnvironment) (s : ShipConnection) : ShipConnection :=
  let s := (s.helloSetWaitForReadyTimer .smeHelloPendingTimeout).cancelProlongationTimers
  (s.helloStartTrustCheckTimer.helloSendSmeUpdate env).setState .smeHelloPendingListen

/-- The request is sent some time before the peer stops waiting. -/
def helloArmProlongationRequestTimer (s : ShipConnection) : ShipConnection :=
  let s := { s with tasks.helloSendProlongationReplyTimer := false }
  if 30000 ≤ s.peerHelloPhase.waiting then
    { s with tasks.helloSendProlongationRequestTimer := true }
  else s

def stateSmeHelloPendingListen (env : ShipEnvironment) (s : ShipConnection) : ShipConnection :=
  let s := s.jsonToTypeConnectionHello env
  match s.peerHelloPhase.phase with
  | .ready =>
    -- A peer that is ready and does not wait any more gives up.
    if !s.peerHelloPhase.waitingValid then s.setAndScheduleState .smeHelloAbort
    else
      { s with tasks.helloWaitForReadyTimer := none }.helloArmProlongationRequestTimer
  | .pending =>
    if !s.peerHelloPhase.prolongationRequestValid ∧ s.peerHelloPhase.waitingValid then
      s.helloArmProlongationRequestTimer
    else if s.peerHelloPhase.prolongationRequestValid ∧ !s.peerHelloPhase.waitingValid then
      s.helloDecideProlongation.helloSendSmeUpdate env
    else s
  | .aborted | .unknown => s.setAndScheduleState .smeHelloAbort

/-- A request for prolongation goes back to the state before the timeout. -/
def stateSmeHelloPendingTimeout (env : ShipEnvironment) (s : ShipConnection) : ShipConnection :=
  if s.helloTimerExpiry = 2 then
    let s :=
      { s with
        thisHelloPhase.phase := .pending
        thisHelloPhase.waitingValid := false
        thisHelloPhase.prolongationRequest := true
        thisHelloPhase.prolongationRequestValid := true }
    let s := s.helloSendSmeUpdate env
    let s := { s with tasks.helloSendProlongationReplyTimer := true }
    s.setState s.previousState
  else s.setAndScheduleState .smeHelloAbort

def cancelHelloTimers (s : ShipConnection) : ShipConnection :=
  { s with
    tasks.helloWaitForReadyTimer := none
    tasks.helloSendProlongationRequestTimer := false
    tasks.helloSendProlongationReplyTimer := false
    tasks.helloTrustCheckTimer := false }

def stateSmeHelloOk (s : ShipConnection) : ShipConnection :=
  match s.role with
  | .client => s.cancelHelloTimers.setAndScheduleState .smeProtocolHandshakeClientInit
  | .server => s.cancelHelloTimers.setAndScheduleState .smeProtocolHandshakeServerInit

def stateSmeHelloAbort (env : ShipEnvironment) (s : ShipConnection) : ShipConnection :=
  (s.cancelHelloTimers.sendRaw env).setAndScheduleState .smeHelloAbortDone

def stateSmeHelloAbortDone (s : ShipConnection) : ShipConnection := s.scheduleClose

def stateSmeHelloRemoteAbortDone (s : ShipConnection) : ShipConnection :=
  s.setAndScheduleState .smeHelloAbortDone

def stateSmeHelloRejected (s : ShipConnection) : ShipConnection :=
  s.setAndScheduleState .smeHelloAbort

def startHandshakeTimeout (s : ShipConnection) : ShipConnection :=
  { s with tasks.protocolHandshakeTimer := true }

def cancelHandshakeTimeout (s : ShipConnection) : ShipConnection :=
  { s with tasks.protocolHandshakeTimer := false }

def smeProtocolAbortProcedure (env : ShipEnvironment) (s : ShipConnection) : ShipConnection :=
  (s.cancelHandshakeTimeout.sendRaw env).scheduleClose

def stateSmeProtocolHandshakeServerInit (s : ShipConnection) : ShipConnection :=
  s.startHandshakeTimeout.setState .smeProtocolHandshakeServerListenProposal

def stateSmeProtocolHandshakeClientInit (env : ShipEnvironment) (s : ShipConnection) :
    ShipConnection :=
  (((s.record (.sentAnnounce ownVersion)).sendRaw env).setState
    .smeProtocolHandshakeClientListenChoice).startHandshakeTimeout

/-- The version that a server selects. -/
def selectedVersion (announced : ProtocolVersion) : ProtocolVersion :=
  ⟨min ownVersion.major announced.major, min ownVersion.minor announced.minor⟩

def stateSmeProtocolHandshakeServerListenProposal (env : ShipEnvironment) (s : ShipConnection) :
    ShipConnection :=
  match s.messageIncoming.handshake env.json with
  | none => s.smeProtocolAbortProcedure env
  | some handshake =>
    match handshake.handshakeType with
    | .announceMax =>
      let s := (s.record (.receivedAnnounce handshake.version)).cancelHandshakeTimeout
      let selected := selectedVersion handshake.version
      let s := { s.record (.sentSelect selected) with
        protocolHandshakeVersionSelected := selected }
      ((s.setState .smeProtocolHandshakeServerListenConfirm).sendRaw env).startHandshakeTimeout
    | .select | .unknown => s.smeProtocolAbortProcedure env

/-- The step that follows is not scheduled here. -/
def stateSmeProtocolHandshakeServerListenConfirm (env : ShipEnvironment) (s : ShipConnection) :
    ShipConnection :=
  let s := s.cancelHandshakeTimeout
  match s.messageIncoming.handshake env.json with
  | none => s.smeProtocolAbortProcedure env
  | some handshake =>
    if handshake = ⟨.select, s.protocolHandshakeVersionSelected⟩ then
      (s.record (.receivedSelect handshake.version)).setState .smeProtocolHandshakeServerOk
    else s.smeProtocolAbortProcedure env

def stateSmeProtocolHandshakeClientListenChoice (env : ShipEnvironment) (s : ShipConnection) :
    ShipConnection :=
  match s.messageIncoming.handshake env.json with
  | none => s.smeProtocolAbortProcedure env
  | some handshake =>
    match handshake.handshakeType with
    | .select =>
      let s := (s.record (.receivedSelect handshake.version)).cancelHandshakeTimeout
      if handshake.version.Within ownVersion then
        ((s.record (.sentSelect handshake.version)).sendRaw env).setAndScheduleState
          .smeProtocolHandshakeClientOk
      else s.smeProtocolAbortProcedure env
    | .announceMax | .unknown => s.smeProtocolAbortProcedure env

def stateSmeProtocolHandshakeTimeout (env : ShipEnvironment) (s : ShipConnection) :
    ShipConnection :=
  s.smeProtocolAbortProcedure env

def stateSmeProtocolHandshakeClientOk (s : ShipConnection) : ShipConnection :=
  s.setAndScheduleState .smePinCheckInit

def stateSmeProtocolHandshakeServerOk (s : ShipConnection) : ShipConnection :=
  s.setAndScheduleState .smePinCheckInit

/-- There is no PIN verification. -/
def stateSmePinCheckInit (env : ShipEnvironment) (s : ShipConnection) : ShipConnection :=
  (s.setState .done).sendRaw env

def stateIsNotImplemented (s : ShipConnection) : ShipConnection := s.scheduleClose

def stateSmeAccessMethodRequest (env : ShipEnvironment) (s : ShipConnection) : ShipConnection :=
  if s.messageIncoming.getProtocolState = .accessMethodsRequest then
    ({ s with messageIncoming.length := 0 }.setState .done).sendRaw env
  else s

def stateDone (env : ShipEnvironment) (s : ShipConnection) : ShipConnection :=
  let s := { if s.connectionEstablished then s else s.sendRaw env with
    connectionEstablished := true }
  if !s.incomingMessagePending then s
  else
    match s.messageIncoming.getProtocolState with
    | .data =>
      if s.messageIncoming.isData env.json then
        { s with scheduledDatagrams := s.scheduledDatagrams + 1 }
      else s
    | .messageProtocolHandshake => s.setAndScheduleState .smeProtocolHandshakeClientInit
    | .accessMethodsRequest => s.sendRaw env
    | .terminate => (s.sendRaw env).scheduleClose
    | .connectionPinState | .accessMethods | .connectionHello | .none | .unknown => s

/-- The handler of the state. -/
def handleState (env : ShipEnvironment) (s : ShipConnection) : ShipConnection :=
  match s.state with
  | .cmiInitStart => s.stateCmeInitStart
  | .cmiClientSend => s.stateCmiClientSend env
  | .cmiClientWait => s.stateCmiClientWait
  | .cmiClientEvaluate => s.stateCmiClientEvaluate
  | .cmiServerWait => s.stateCmiServerWait
  | .cmiServerEvaluate => s.stateCmiServerEvaluate env
  | .smeConnectionDataPreparation => s.stateSmeConnectionDataPreparation
  | .smeHello => s.stateSmeHello
  | .smeHelloReadyInit => s.stateSmeHelloReadyInit env
  | .smeHelloReadyListen => s.stateSmeHelloReadyListen env
  | .smeHelloReadyTimeout => s.stateSmeHelloReadyTimeout
  | .smeHelloPendingInit => s.stateSmeHelloPendingInit env
  | .smeHelloPendingListen => s.stateSmeHelloPendingListen env
  | .smeHelloPendingTimeout => s.stateSmeHelloPendingTimeout env
  | .smeHelloOk => s.stateSmeHelloOk
  | .smeHelloAbort => s.stateSmeHelloAbort env
  | .smeHelloAbortDone => s.stateSmeHelloAbortDone
  | .smeHelloRemoteAbortDone => s.stateSmeHelloRemoteAbortDone
  | .smeHelloRejected => s.stateSmeHelloRejected
  | .smeProtocolHandshakeServerInit => s.stateSmeProtocolHandshakeServerInit
  | .smeProtocolHandshakeClientInit => s.stateSmeProtocolHandshakeClientInit env
  | .smeProtocolHandshakeServerListenProposal =>
    s.stateSmeProtocolHandshakeServerListenProposal env
  | .smeProtocolHandshakeServerListenConfirm => s.stateSmeProtocolHandshakeServerListenConfirm env
  | .smeProtocolHandshakeClientListenChoice => s.stateSmeProtocolHandshakeClientListenChoice env
  | .smeProtocolHandshakeTimeout => s.stateSmeProtocolHandshakeTimeout env
  | .smeProtocolHandshakeClientOk => s.stateSmeProtocolHandshakeClientOk
  | .smeProtocolHandshakeServerOk => s.stateSmeProtocolHandshakeServerOk
  | .smePinCheckInit => s.stateSmePinCheckInit env
  | .smePinCheckListen
  | .smePinCheckError
  | .smePinCheckBusyInit
  | .smePinCheckBusyWait
  | .smePinCheckOk
  | .smePinAskInit
  | .smePinAskProcess
  | .smePinAskRestricted
  | .smePinAskOk => s.stateIsNotImplemented
  | .smeAccessMethodRequest => s.stateSmeAccessMethodRequest env
  | .done => s.stateDone env

/-- One pass of `state_machine_next_step`, and whether it goes on with another one. -/
def nextStepPass (env : ShipEnvironment) (s : ShipConnection) : ShipConnection × Bool :=
  if s.closingScheduled then (s, false)
  else if s.state.isListeningState ∧ !s.incomingMessagePending ∧ s.state ≠ .done then (s, false)
  else if s.state.isListeningState then
    ({ s.handleState env with incomingMessagePending := false }, false)
  else
    let next := s.handleState env
    -- A message that came before its state is left for the states that follow.
    (next, next.incomingMessagePending && decide (next.state ≠ s.state))

/-- Twenty passes are enough for every message. -/
def stateMachineNextStep (env : ShipEnvironment) (s : ShipConnection) : ShipConnection :=
  passes (nextStepPass env) 20 s

def processFrame (env : ShipEnvironment) (data : List UInt8) (fin : Bool) (s : ShipConnection) :
    ShipConnection :=
  if s.closingScheduled then s
  else if data.length < 2 then s
  else
    let s' := { s with messageIncoming := (s.messageIncoming.append data fin).1 }
    if (s.messageIncoming.append data fin).2 then
      { s' with incomingMessagePending := true }.stateMachineNextStep env
    else s'

def startClientConfirm (s : ShipConnection) : ShipConnection := s.scheduleStateMachineNextStep

def initiateTermination (env : ShipEnvironment) (s : ShipConnection) : ShipConnection :=
  if s.closingScheduled then s else (s.sendRaw env).scheduleClose

/-- The constructors. A server finds its websocket connected. -/
def create (env : ShipEnvironment) : Role → ShipConnection
  | .client => { role := .client }
  | .server => { role := .server, connected := true : ShipConnection }.stateMachineNextStep env

inductive Event where
  | frame (data : List UInt8) (fin : Bool)
  | clientConnected
  | stateMachineTask
  | timeoutTask
  | helloWaitForReadyTimer
  | helloSendProlongationRequestTimer
  | helloSendProlongationReplyTimer
  | helloTrustCheckTimer
  | protocolHandshakeTimer
  | setTrusted (trusted : Bool)
  | notifyPeerUpdated
  | close
  | initiateTermination
  | processDatagram
deriving DecidableEq, Repr

/-- An event that can not happen changes nothing: a frame before the websocket is connected, a
client's second connect, a task that is not scheduled. -/
def step (env : ShipEnvironment) (s : ShipConnection) : Event → ShipConnection
  | .frame data fin => if s.connected then s.processFrame env data fin else s
  | .clientConnected =>
    if s.connected then s else { s with connected := true }.startClientConfirm
  | .stateMachineTask =>
    if s.tasks.stateMachineTask then
      { s with tasks.stateMachineTask := false }.stateMachineNextStep env
    else s
  | .timeoutTask =>
    if s.tasks.timeoutTask then { s with tasks.timeoutTask := false }.scheduleClose else s
  | .helloWaitForReadyTimer =>
    match s.tasks.helloWaitForReadyTimer with
    | none => s
    | some target =>
      { s with
        tasks.helloWaitForReadyTimer := none
        helloTimerExpiry := 1 }.setAndScheduleState target
  | .helloSendProlongationRequestTimer =>
    if s.tasks.helloSendProlongationRequestTimer then
      { { s with tasks.helloSendProlongationRequestTimer := false }.setAndScheduleState
          .smeHelloPendingTimeout with
        helloTimerExpiry := 2 }
    else s
  | .helloSendProlongationReplyTimer =>
    if s.tasks.helloSendProlongationReplyTimer then
      { s with
        tasks.helloSendProlongationReplyTimer := false
        helloTimerExpiry := 3 }.setAndScheduleState .smeHelloPendingTimeout
    else s
  | .helloTrustCheckTimer =>
    if s.tasks.helloTrustCheckTimer then
      { s with tasks.helloTrustCheckTimer := false }.helloTrustCheckTimerCallback
    else s
  | .protocolHandshakeTimer =>
    if s.tasks.protocolHandshakeTimer then
      { s with tasks.protocolHandshakeTimer := false }.setAndScheduleState
        .smeProtocolHandshakeTimeout
    else s
  | .setTrusted trusted => { s with peerTrusted := trusted }
  | .notifyPeerUpdated => if s.closingScheduled then s else s.notifyTrustChanged
  | .close => s.scheduleClose
  | .initiateTermination => s.initiateTermination env
  | .processDatagram =>
    if 0 < s.scheduledDatagrams then
      { s with scheduledDatagrams := s.scheduledDatagrams - 1 }.record .processedDatagram
    else s

end ShipConnection

end Esp32Firmware.Eebus
