import Esp32Firmware.Iso15118.SlacMessages

/-!
# The SLAC state machine

SLAC matches the vehicle on the cable with this charger over the power line. The machine is
driven by frames from the modem, by the IEC 61851 state of the charger and by timeouts.

## Implementation notes

A function returns the new state and the calls it makes outside of SLAC. `iec_temporary_active`
and `nonegotiation_pending` of the module are kept here because SLAC reads and writes them.
All of a function runs at one time. `log` has no counterpart in the code, it keeps what was
received, newest first. `write_burst` drops its frame while the modem is not verified, here the
call is what is kept. The debug mode skips SLAC and is left out.
-/

namespace Esp32Firmware.Iso15118

inductive SlacState where
  | modemReset
  | modemInitialization
  | cmSetKeyRequest
  | waitForCMSetKeyConfirmation
  | cmQualcommGetSwRequest
  | waitForCMQualcommGetSwResponse
  | cmQualcommLinkStatusRequest
  | waitForCMQualcommLinkStatusResponse
  | cmQualcommOpAttrRequest
  | waitForCMQualcommOpAttrResponse
  | waitForSlacParamRequest
  | waitForStartAttenCharIndication
  | waitForMNBCSound
  | waitForAttenChar
  | waitForSlacMatch
  | waitForSDP
  | linkDetected
  | modemDisabled
  | slacInitEF
  | slacInitFailed
deriving DecidableEq, Repr

/-- Calls of SLAC into the rest of the module -/
inductive SlacAction where
  | writeBurst (frame : Frame)
  | linkDown
  | linkUp
  | setChargingProtocol (cpDutyCycle : Nat)
  | beginIecTransition
  | endReslacGuard
  | startCommunicationSetup (deadline : Nat)
  | onEvConnected (mac : List UInt8)
deriving DecidableEq, Repr

/-- A frame that was dispatched, with what SLAC knew before, the calls it made and its state
afterwards. The type is the one that the header in the buffer shows. -/
structure Received where
  state : SlacState
  lastIecState : Nat
  tentative : Bool
  evseMac : List UInt8
  frame : List UInt8
  type : Option MessageType
  message : Message
  actions : List SlacAction
  after : SlacState
deriving DecidableEq, Repr

/-- Milliseconds as microseconds -/
def ms (n : Nat) : Nat := n * 1000

/-- Times are in microseconds, an 8 bit counter is a number below 256. -/
structure Slac where
  state : SlacState := .modemInitialization
  evseMac : List UInt8 := List.replicate 6 0
  nextTimeout : Option Nat := none
  setKeyTries : Nat := 0
  lastIecState : Nat := 0
  tentativeStateADeadline : Option Nat := none
  sessionStartedInStateA : Bool := false
  nextModemInitializationProbe : Nat := 0
  linkUpTask : Option Nat := none
  slacInitRetryCount : Nat := 0
  evConnectedReported : Bool := false
  reportedPevMac : List UInt8 := List.replicate 6 0
  aagList : List Nat := List.replicate slacAagListLength 0
  indicationNumSounds : Nat := 0
  nmk : List UInt8 := List.replicate 16 0
  nid : List UInt8 := List.replicate 7 0
  pevMac : List UInt8 := List.replicate 6 0
  pevRunId : List UInt8 := List.replicate 8 0
  bufferAllocated : Bool := false
  buffer : List UInt8 := []
  modemInitializationTries : Nat := 0
  attenCharIndicationTries : Nat := 0
  receivedAagLists : Nat := 0
  receivedSounds : Nat := 0
  modemDetected : Bool := false
  iecTemporaryActive : Bool := false
  nonegotiationPending : Bool := false
  log : List Received := []
deriving DecidableEq, Repr

/-- The settings of the module that SLAC asks for -/
structure SlacConfig where
  isAutochargeOnly : Bool := false
  useNonegotiationAutocharge : Bool := false
  isFastTimeout : Bool := false
deriving DecidableEq, Repr

/-- What a pass of the state machine finds: the time, the EVSE, the modem, random bytes and the
frames that wait in the tap. -/
structure SlacInputs where
  now : Nat
  config : SlacConfig := {}
  iecState : Nat := 0
  signatureGood : Bool := true
  writeSpaceGood : Bool := true
  mac : List UInt8 := List.replicate 6 0
  random : List UInt8 := List.replicate 16 0
  ipv6Received : Bool := false
  frames : List (List UInt8) := []
deriving DecidableEq, Repr

abbrev Reply := Slac × List SlacAction

def Reply.andThen (reply : Reply) (next : Slac → Reply) : Reply :=
  ((next reply.1).1, reply.2 ++ (next reply.1).2)

/-- `IEC_STATE_A` -/
abbrev iecStateA : Nat := 0

/-- `deadline_elapsed` of an optional deadline -/
def deadlineElapsed (now : Nat) (deadline : Option Nat) : Bool := deadline.any (· ≤ now)

namespace Slac

/-- `fill_n(aag_list, SLAC_AAG_LIST_LENGTH, 0)` with the counters of a sounding phase -/
def clearSounding (s : Slac) : Slac :=
  { s with
    receivedSounds := 0
    receivedAagLists := 0
    attenCharIndicationTries := 0
    aagList := List.replicate slacAagListLength 0 }

/-- `iso15118.set_charging_protocol` with the ISO 15118 protocol -/
def setChargingProtocol (s : Slac) (cpDutyCycle : Nat) : Reply :=
  ({ s with iecTemporaryActive := false }, [.setChargingProtocol cpDutyCycle])

/-- `iso15118.begin_iec_transition(ModemOff::Immediate)`, which disables the modem -/
def beginIecTransition (s : Slac) : Reply :=
  ({ s with iecTemporaryActive := true, state := .modemDisabled, modemDetected := false },
    [.beginIecTransition])

def handleModemReset (s : Slac) : Slac :=
  { s with
    modemDetected := false
    tentativeStateADeadline := none
    sessionStartedInStateA := false
    nextTimeout := none
    state := .modemInitialization }

/-- The buffer is zeroed when it is allocated. -/
def allocatedBuffer (s : Slac) : List UInt8 :=
  if s.bufferAllocated then s.buffer else List.replicate (slacEthernetFrameLengthMax + 1) 0

/-- The part of `handle_modem_initialization` behind the pace of the probes -/
def probeModem (inputs : SlacInputs) (s : Slac) : Slac :=
  if !inputs.signatureGood then
    let tries := (s.modemInitializationTries + 1) % 256
    { s with
      modemInitializationTries := tries
      state := if tries % 100 = 0 then .modemReset else s.state }
  else if !inputs.writeSpaceGood then { s with state := .modemReset }
  else
    { s with
      modemDetected := true
      evseMac := inputs.mac
      bufferAllocated := true
      buffer := s.allocatedBuffer
      setKeyTries := 0
      state := .cmSetKeyRequest }

def handleModemInitialization (inputs : SlacInputs) (s : Slac) : Slac :=
  if 200 < s.modemInitializationTries then s
  else if !deadlineElapsed inputs.now (some s.nextModemInitializationProbe) then s
  else
    probeModem inputs
      { s.clearSounding with
        nextModemInitializationProbe := inputs.now + ms 20
        nextTimeout := none }

/-- `generate_nid_from_nmk`, five rounds of the hash -/
def generateNidFromNmk (sha256 : List UInt8 → List UInt8) (nmk : List UInt8) : List UInt8 :=
  let hash := sha256^[5] nmk
  hash.take 6 ++ [hash.getD 6 0 >>> 4]

def handleCmSetKeyRequest (sha256 : List UInt8 → List UInt8) (inputs : SlacInputs) (s : Slac) :
    Reply :=
  let nid := generateNidFromNmk sha256 inputs.random
  ({ s with
      nmk := inputs.random
      nid := nid
      setKeyTries := (s.setKeyTries + 1) % 256
      nextTimeout := some (inputs.now + ms 1000)
      state := .waitForCMSetKeyConfirmation },
    [.writeBurst (.setKeyRequest inputs.random nid)])

/-- `handle_cm_qualcomm_…_request` -/
def qualcommRequest (frame : Frame) (next : SlacState) (now : Nat) (s : Slac) : Reply :=
  ({ s with nextTimeout := some (now + ms 2500), state := next }, [.writeBurst frame])

def handleCmQualcommGetSwRequest :=
  qualcommRequest .qualcommGetSwRequest .waitForCMQualcommGetSwResponse

def handleCmQualcommLinkStatusRequest :=
  qualcommRequest .qualcommLinkStatusRequest .waitForCMQualcommLinkStatusResponse

def handleCmQualcommOpAttrRequest :=
  qualcommRequest .qualcommOpAttrRequest .waitForCMQualcommOpAttrResponse

def handleCmSetKeyConfirmation (s : Slac) (result : Nat) : Slac :=
  if s.state ≠ .waitForCMSetKeyConfirmation then s
  else if result ≠ 0x01 then { s with state := .modemReset }
  else
    { s with
      nextTimeout := none
      slacInitRetryCount := 0
      state := .waitForSlacParamRequest }

def handleCmQualcommGetSwConfirmation (now : Nat) (s : Slac) : Slac :=
  if s.state ≠ .waitForCMQualcommGetSwResponse then s
  else { s with nextTimeout := some (now + ms 100), state := .cmQualcommLinkStatusRequest }

def handleCmQualcommLinkStatusConfirmation (now : Nat) (s : Slac) : Slac :=
  if s.state ≠ .waitForCMQualcommLinkStatusResponse then s
  else { s with nextTimeout := some (now + ms 100), state := .cmQualcommOpAttrRequest }

def handleCmQualcommOpAttrConfirmation (s : Slac) : Slac :=
  if s.state ≠ .waitForCMQualcommOpAttrResponse then s
  else { s with nextTimeout := none, state := .waitForSlacParamRequest }

/-- Not in state A, any tentative session is confirmed. -/
def confirmSession (s : Slac) : Slac :=
  { s with tentativeStateADeadline := none, sessionStartedInStateA := false }

/-- The guards of `handle_cm_slac_parm_request`: nothing if the request is ignored -/
def admitParmRequest (now : Nat) (s : Slac) (sourceMac : List UInt8) : Option Reply :=
  if s.lastIecState = iecStateA then
    if s.state = .waitForSlacParamRequest then
      some ({ s with
        tentativeStateADeadline := some (now + ms 1500)
        sessionStartedInStateA := true }, [])
    else if s.tentativeStateADeadline.isSome then some (s, [])
    else none
  else
    match s.state with
    | .waitForSlacParamRequest => some (s.confirmSession, [])
    | .slacInitEF =>
      some ({ (s.setChargingProtocol 50).1.confirmSession with slacInitRetryCount := 0 },
        (s.setChargingProtocol 50).2)
    | .waitForStartAttenCharIndication
    | .waitForMNBCSound
    | .waitForAttenChar
    | .waitForSlacMatch =>
      if sourceMac ≠ s.pevMac ∧ s.sessionStartedInStateA = false then none
      else some (s.confirmSession, [])
    | .waitForSDP
    | .linkDetected =>
      if sourceMac ≠ s.pevMac then none
      else if s.iecTemporaryActive then none
      else some (s.confirmSession, [])
    | _ => none

/-- The part of `handle_cm_slac_parm_request` behind the guards -/
def startMatching (now : Nat) (sourceMac runId : List UInt8) (s : Slac) : Reply :=
  ({ s with
      pevMac := sourceMac
      pevRunId := runId
      nextTimeout := some (now + ms 400)
      state := .waitForStartAttenCharIndication },
    [.linkDown, .writeBurst (.slacParmConfirmation sourceMac runId)])

def handleCmSlacParmRequest (now : Nat) (s : Slac) (sourceMac runId : List UInt8) : Reply :=
  match s.admitParmRequest now sourceMac with
  | some reply => reply.andThen (startMatching now sourceMac runId)
  | none => (s, [])

def handleCmStartAttenCharIndication (now : Nat) (s : Slac)
    (applicationType securityType numSounds respType : Nat) : Slac :=
  if s.state ≠ .waitForStartAttenCharIndication ∧ s.state ≠ .waitForMNBCSound then s
  else if applicationType ≠ 0x00 then s
  else if securityType ≠ 0x00 then s
  else if respType ≠ 0x01 then s
  else
    { s.clearSounding with
      indicationNumSounds := if numSounds = 0 then 10 else numSounds
      -- The indication is sent three times, the first one starts the timeout.
      nextTimeout :=
        if s.state = .waitForStartAttenCharIndication then some (now + ms 600)
        else s.nextTimeout
      state := .waitForMNBCSound }

def handleCmMnbcSoundIndication (s : Slac) : Slac :=
  if s.state ≠ .waitForMNBCSound then s
  else { s with receivedSounds := (s.receivedSounds + 1) % 256 }

/-- Averages the profiles and sends them to the vehicle. -/
def sendAttenCharIndication (now : Nat) (s : Slac) : Reply :=
  ({ s with
      nextTimeout := some (now + ms 200)
      state := .waitForAttenChar
      attenCharIndicationTries := (s.attenCharIndicationTries + 1) % 256 },
    [.writeBurst (.attenCharIndication s.pevMac s.pevRunId s.receivedAagLists
      (s.aagList.map fun sum => sum / s.receivedAagLists % 256))])

/-- `aag_list[i] += aag[i]` in 16 bits -/
def addProfile (aagList : List Nat) (aag : List UInt8) : List Nat :=
  List.zipWith (fun sum value => (sum + value.toNat) % 65536) aagList aag

def handleCmAttenProfileIndication (now : Nat) (s : Slac) (pevMac : List UInt8)
    (numGroups : Nat) (aag : List UInt8) : Reply :=
  if s.state ≠ .waitForMNBCSound then (s, [])
  else if pevMac ≠ s.pevMac then (s, [])
  else if numGroups ≠ slacAagListLength then (s, [])
  else
    let s := { s with
      aagList := addProfile s.aagList aag
      receivedAagLists := (s.receivedAagLists + 1) % 256 }
    if s.receivedAagLists = s.indicationNumSounds then s.sendAttenCharIndication now else (s, [])

def handleCmAttenCharResponse (now : Nat) (s : Slac) (applicationType securityType : Nat)
    (sourceAddress runId : List UInt8) (result : Nat) : Slac :=
  if s.state ≠ .waitForAttenChar then s
  else if applicationType ≠ 0x00 then s
  else if securityType ≠ 0x00 then s
  else if result ≠ 0x00 then s
  else if s.pevMac ≠ sourceAddress then s
  else if s.pevRunId ≠ runId then s
  else { s with nextTimeout := some (now + ms 10000), state := .waitForSlacMatch }

def handleCmValidateRequest (s : Slac) (signalType result : Nat) : Reply :=
  if s.state ≠ .waitForSlacMatch then (s, [])
  else if signalType ≠ 0x00 then (s, [])
  else if result ≠ 0x01 then (s, [])
  else (s, [.writeBurst (.validateConfirmation s.pevMac)])

/-- The vehicle is reported once for each time it is plugged in. -/
def reportEv (s : Slac) : Reply :=
  if !s.evConnectedReported || s.reportedPevMac ≠ s.pevMac then
    ({ s with evConnectedReported := true, reportedPevMac := s.pevMac }, [.onEvConnected s.pevMac])
  else (s, [])

/-- `CM_SLAC_MATCH.CNF` with the key of the network -/
def confirmMatch (now : Nat) (pevId pevMac evseId runId : List UInt8) (s : Slac) : Reply :=
  ({ s with
      nextTimeout := some (now + ms 13000)
      -- A retry in `WaitForSDP` leaves the task as it is.
      linkUpTask := if s.state = .waitForSDP then s.linkUpTask else some (now + ms 200)
      state := .waitForSDP },
    [.writeBurst (.slacMatchConfirmation s.pevMac pevId pevMac evseId s.evseMac runId s.nid s.nmk),
      .startCommunicationSetup (now + ms 30000)])

/-- SLAC is complete, but the vehicle shall not join the network. -/
def skipMatch (s : Slac) : Reply :=
  Reply.andThen
    ({ s with nonegotiationPending := false, nextTimeout := none, state := .linkDetected },
      [.endReslacGuard]) beginIecTransition

def handleCmSlacMatchRequest (now : Nat) (config : SlacConfig) (s : Slac)
    (sourceMac pevId pevMac evseId evseMac runId : List UInt8) : Reply :=
  if s.state ≠ .waitForSlacMatch ∧ s.state ≠ .waitForSDP then (s, [])
  else if s.pevMac ≠ sourceMac then (s, [])
  else if s.pevRunId ≠ runId then (s, [])
  else if s.evseMac ≠ evseMac then (s, [])
  else if s.tentativeStateADeadline.isSome ∧ s.lastIecState = iecStateA then (s, [])
  else if (config.isAutochargeOnly || s.nonegotiationPending) &&
      !config.useNonegotiationAutocharge then
    s.reportEv.andThen skipMatch
  else s.reportEv.andThen (confirmMatch now pevId pevMac evseId runId)

/-- The `switch` of `read_and_dispatch_tap_frame` -/
def dispatch (now : Nat) (config : SlacConfig) (s : Slac) : Message → Reply
  | .setKeyConfirmation result => (s.handleCmSetKeyConfirmation result, [])
  | .slacParmRequest sourceMac runId => s.handleCmSlacParmRequest now sourceMac runId
  | .startAttenCharIndication applicationType securityType numSounds respType =>
    (s.handleCmStartAttenCharIndication now applicationType securityType numSounds respType, [])
  | .mnbcSoundIndication => (s.handleCmMnbcSoundIndication, [])
  | .attenProfileIndication pevMac numGroups aag =>
    s.handleCmAttenProfileIndication now pevMac numGroups aag
  | .attenCharResponse applicationType securityType sourceAddress runId result =>
    (s.handleCmAttenCharResponse now applicationType securityType sourceAddress runId result, [])
  | .validateRequest signalType result => s.handleCmValidateRequest signalType result
  | .slacMatchRequest sourceMac pevId pevMac evseId evseMac runId =>
    s.handleCmSlacMatchRequest now config sourceMac pevId pevMac evseId evseMac runId
  | .qualcommGetSwConfirmation => (s.handleCmQualcommGetSwConfirmation now, [])
  | .qualcommLinkStatusConfirmation => (s.handleCmQualcommLinkStatusConfirmation now, [])
  | .qualcommOpAttrConfirmation => (s.handleCmQualcommOpAttrConfirmation, [])
  -- These two are traced or go to the parameter transfer.
  | .qualcommHostActionIndication => (s, [])
  | .moduleOperationConfirmation => (s, [])
  | .unhandled => (s, [])

/-- What the log keeps of a frame and its handling -/
def entry (s : Slac) (frame : List UInt8) (reply : Reply) : Received where
  state := s.state
  lastIecState := s.lastIecState
  tentative := s.tentativeStateADeadline.isSome
  evseMac := s.evseMac
  frame := frame
  type := messageType (readFrame s.buffer frame)
  message := Message.ofBuffer (readFrame s.buffer frame)
  actions := reply.2
  after := reply.1.state

/-- Reads a frame into the buffer and dispatches the message that is there now. -/
def handleFrame (now : Nat) (config : SlacConfig) (frame : List UInt8) (s : Slac) : Reply :=
  dispatch now config { s with buffer := readFrame s.buffer frame }
    (Message.ofBuffer (readFrame s.buffer frame))

def receive (now : Nat) (config : SlacConfig) (frame : List UInt8) (s : Slac) : Reply :=
  let reply := s.handleFrame now config frame
  ({ reply.1 with log := s.entry frame reply :: reply.1.log }, reply.2)

/-- `read_and_dispatch_tap_frame` -/
def readAndDispatchTapFrame (now : Nat) (config : SlacConfig) (frame : List UInt8) (s : Slac) :
    Reply :=
  if !s.bufferAllocated then (s, [])
  else if frame = [] then (s, [])
  else s.receive now config frame

def drainFrames (now : Nat) (config : SlacConfig) : List (List UInt8) → Slac → Reply
  | [], s => (s, [])
  | frame :: rest, s =>
    if frame = [] then (s, [])
    else (s.readAndDispatchTapFrame now config frame).andThen (drainFrames now config rest)

/-- `drain_tap`: not more than 16 frames, to not block the main loop -/
def drainTap (now : Nat) (config : SlacConfig) (frames : List (List UInt8)) (s : Slac) : Reply :=
  drainFrames now config (frames.take 16) s

def updateIecStateTracking (iecState : Nat) (s : Slac) : Slac := { s with lastIecState := iecState }

def checkModemDetectedInvariant (s : Slac) : Slac :=
  if s.modemDetected then s
  else
    match s.state with
    | .modemReset | .modemInitialization | .modemDisabled => s
    | _ => s.handleModemReset

def abortTentativeSession (s : Slac) : Reply :=
  ({ s.clearSounding with
      tentativeStateADeadline := none
      sessionStartedInStateA := false
      linkUpTask := none
      pevMac := List.replicate 6 0
      pevRunId := List.replicate 8 0
      nextTimeout := none
      state := .waitForSlacParamRequest },
    [.linkDown])

/-- The states between `CM_SLAC_PARM.REQ` and `CM_SLAC_MATCH.REQ` -/
def inMatching : SlacState → Bool
  | .waitForStartAttenCharIndication | .waitForMNBCSound | .waitForAttenChar
  | .waitForSlacMatch => true
  | _ => false

def handleTentativeStateA (now : Nat) (s : Slac) : Reply :=
  if s.tentativeStateADeadline = none then (s, [])
  else if inMatching s.state = false then ({ s with tentativeStateADeadline := none }, [])
  else if s.lastIecState ≠ iecStateA then ({ s with tentativeStateADeadline := none }, [])
  else if deadlineElapsed now s.tentativeStateADeadline then s.abortTentativeSession
  else (s, [])

/-- `TT_EVSE_SLAC_init` starts once a vehicle is there. -/
def startSlacInit (inputs : SlacInputs) (s : Slac) : Slac :=
  if s.state = .waitForSlacParamRequest ∧ s.nextTimeout = none ∧ inputs.iecState ≠ iecStateA then
    { s with nextTimeout := some (inputs.now + ms 7000) }
  else s

/-- The vehicle left during the retry cycle. -/
def abortSlacInit (inputs : SlacInputs) (s : Slac) : Reply :=
  if (s.state = .slacInitEF ∨ (s.state = .waitForSlacParamRequest ∧ s.nextTimeout.isSome)) ∧
      inputs.iecState = iecStateA then
    Reply.andThen (s.setChargingProtocol 50) fun s =>
      ({ s with
        nextTimeout := none
        slacInitRetryCount := 0
        state := .waitForSlacParamRequest }, [])
  else (s, [])

def detectLink (inputs : SlacInputs) (s : Slac) : Slac :=
  if s.state = .waitForSDP ∧ inputs.ipv6Received then
    { s with nextTimeout := none, state := .linkDetected }
  else s

/-- The states where the charger initiates a message -/
def initiate (sha256 : List UInt8 → List UInt8) (inputs : SlacInputs) (s : Slac) : Reply :=
  match s.state with
  | .modemReset => (s.handleModemReset, [])
  | .modemInitialization => (s.handleModemInitialization inputs, [])
  | .cmSetKeyRequest => s.handleCmSetKeyRequest sha256 inputs
  | .cmQualcommGetSwRequest => s.handleCmQualcommGetSwRequest inputs.now
  | .cmQualcommLinkStatusRequest => s.handleCmQualcommLinkStatusRequest inputs.now
  | .cmQualcommOpAttrRequest => s.handleCmQualcommOpAttrRequest inputs.now
  | _ => (s, [])

/-- The expiry of `TT_EVSE_SLAC_init`: the state E/F or the fallback -/
def handleSlacInitTimeout (inputs : SlacInputs) (s : Slac) : Reply :=
  let s := { s with slacInitRetryCount := (s.slacInitRetryCount + 1) % 256 }
  if (if inputs.config.isFastTimeout then 0 else 2) < s.slacInitRetryCount then
    beginIecTransition { s with nextTimeout := none, state := .slacInitFailed }
  else
    Reply.andThen (s.setChargingProtocol 0) fun s =>
      ({ s with nextTimeout := some (inputs.now + ms 4000), state := .slacInitEF }, [])

/-- Whether the profiles so far are averaged although an answer is missing -/
def averagesOnTimeout (s : Slac) : Bool :=
  (s.state = .waitForMNBCSound && 0 < s.receivedAagLists) ||
    (s.state = .waitForAttenChar && s.attenCharIndicationTries < 2)

def handleTimeout (inputs : SlacInputs) (s : Slac) : Reply :=
  if s.averagesOnTimeout then s.sendAttenCharIndication inputs.now
  else
    match s.state with
    | .waitForCMSetKeyConfirmation =>
      if s.setKeyTries < 3 then
        ({ s with nextTimeout := none, state := .cmSetKeyRequest }, [])
      else (s.handleModemReset, [])
    | .waitForCMQualcommGetSwResponse =>
      ({ s with nextTimeout := none, state := .cmQualcommLinkStatusRequest }, [])
    | .waitForCMQualcommLinkStatusResponse =>
      ({ s with nextTimeout := none, state := .cmQualcommOpAttrRequest }, [])
    | .waitForCMQualcommOpAttrResponse =>
      ({ s with nextTimeout := none, state := .waitForSlacParamRequest }, [])
    | .waitForSlacParamRequest => s.handleSlacInitTimeout inputs
    | .slacInitEF =>
      Reply.andThen (s.setChargingProtocol 50) fun s =>
        ({ s with
          nextTimeout := some (inputs.now + ms 7000)
          state := .waitForSlacParamRequest }, [])
    | _ => (s.handleModemReset, [])

/-- The end of `state_machine_loop`: frames that came in time are dispatched before a timeout
is acted on. -/
def handleTimeouts (inputs : SlacInputs) (s : Slac) : Reply :=
  if deadlineElapsed inputs.now s.nextTimeout then
    (s.drainTap inputs.now inputs.config inputs.frames).andThen fun s =>
      if deadlineElapsed inputs.now s.nextTimeout then s.handleTimeout inputs else (s, [])
  else (s, [])

/-- The start of `state_machine_loop`, up to the early returns -/
def observe (inputs : SlacInputs) (s : Slac) : Reply :=
  handleTentativeStateA inputs.now
    (s.updateIecStateTracking inputs.iecState).checkModemDetectedInvariant

def stateMachineLoop (sha256 : List UInt8 → List UInt8) (inputs : SlacInputs) (s : Slac) : Reply :=
  (s.observe inputs).andThen fun s =>
    if s.state = .linkDetected ∨ s.state = .modemDisabled then (s, [])
    else
      (abortSlacInit inputs (s.startSlacInit inputs)).andThen fun s =>
        (initiate sha256 inputs (s.detectLink inputs)).andThen (handleTimeouts inputs)

/-- The callback of `link_up_task` -/
def linkUpTaskCallback (s : Slac) : Reply :=
  if s.state ≠ .waitForSDP ∧ s.state ≠ .linkDetected then ({ s with linkUpTask := none }, [])
  else ({ s with linkUpTask := none }, [.linkUp])

/-- Changes of SLAC by the rest of the module -/
inductive Outside where
  | rearmForNextEv
  | sequenceTimeout
  | tapError
  | disablePlcModem
  | disable
  | prepareForPib
  | pibWritten
  | setFlags (iecTemporaryActive nonegotiationPending : Bool)
deriving DecidableEq, Repr

def outside (s : Slac) : Outside → Slac
  | .rearmForNextEv =>
    { s with
      linkUpTask := none
      state := .modemReset
      modemInitializationTries := 0
      slacInitRetryCount := 0
      evConnectedReported := false
      iecTemporaryActive := false
      nonegotiationPending := false }
  | .sequenceTimeout => { s with state := .modemReset }
  | .tapError => { s with state := .modemReset }
  | .disablePlcModem => { s with state := .modemDisabled, modemDetected := false }
  | .disable => { s with modemDetected := false }
  | .prepareForPib =>
    { s with modemDetected := false, modemInitializationTries := 0, state := .modemReset }
  | .pibWritten => { s with modemDetected := false, state := .modemDisabled }
  | .setFlags iecTemporaryActive nonegotiationPending =>
    { s with
      iecTemporaryActive := iecTemporaryActive
      nonegotiationPending := nonegotiationPending }

inductive Event where
  | loop (inputs : SlacInputs)
  | tap (now : Nat) (config : SlacConfig) (frame : List UInt8)
  | linkUpTask
  | outside (change : Outside)
deriving DecidableEq, Repr

def step (sha256 : List UInt8 → List UInt8) (s : Slac) : Event → Reply
  | .loop inputs => s.stateMachineLoop sha256 inputs
  | .tap now config frame => s.readAndDispatchTapFrame now config frame
  | .linkUpTask => s.linkUpTaskCallback
  | .outside change => (s.outside change, [])

end Slac

end Esp32Firmware.Iso15118
