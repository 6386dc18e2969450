import Esp32Firmware.Library.Run

/-!
# The charge log sender

Charge logs are uploaded on request of a user or every month. Packets of the management
server, the task that streams the log and the monthly task drive one state machine. A
lock allows one generation of a log at a time, also for local downloads.

## Implementation notes

A lock helper is counted by who holds it. The exits of the streaming task are single
steps. What is generated, the packets' content and the results pushed to the web
interface are left out. A monthly upload for a removed configuration is skipped.
-/

namespace Esp32Firmware.ChargeTracker

inductive ChargeLogSendState where
  | idle | requestSent | metadataSent | openingConnection | sendingData | waitingForFinalAck
  | done | error
  deriving DecidableEq, Repr

inductive ChargeLogSendError where
  | success | serverErrorAfterDataSend | sendRequestFailed | requestRejected
  | sendMetadataFailed | metadataRejected | connectionOpenFailed
  deriving DecidableEq, Repr

inductive GenerationState where
  | ready | localDownload | remoteSend | manualRemoteSend
  deriving DecidableEq, Repr

structure NackReason where
  code : UInt8
  deriving DecidableEq, Repr

def NackReason.alreadySent : NackReason := ⟨6⟩

/-- Packets other than Ack and Nack are never consumed. -/
inductive PacketType where
  | ack | nack | other
  deriving DecidableEq, Repr

inductive FileType where
  | pdf | csv
  deriving DecidableEq, Repr

/-- The defaults of a request hold for uploads by hand. -/
structure RemoteUploadRequest where
  configIndex : Int := 0
  cookie : UInt32 := 0
  fileType : FileType
  useFormatOverrides : Bool := false
  deriving DecidableEq, Repr

/-- A running `charge_log_send_tcp_task` with the request handed over to it. -/
structure TcpTask where
  uploadArgs : RemoteUploadRequest
  connected : Bool
  deriving DecidableEq, Repr

/-- An accepted request for an upload by hand that waits for the main task. It holds a
lock helper. -/
structure ScheduledUpload where
  cookie : UInt32
  fileType : FileType
  deriving DecidableEq, Repr

structure ChargeLogSender where
  sendState : ChargeLogSendState
  errorCode : ChargeLogSendError
  nackReason : NackReason
  remoteUploadRequest : Option RemoteUploadRequest
  /-- Whether `pending_generation_lock` holds a lock helper. -/
  pendingGenerationLock : Bool
  generationLockState : GenerationState
  tcpTasks : List TcpTask
  scheduledUploads : List ScheduledUpload
  /-- Local downloads in progress, each with a lock helper. -/
  downloads : Nat
  monthlyTaskRunning : Bool
  monthlyUploadUserIdx : Option Nat
  monthlyUploadConfigCount : Nat
  /-- `last_upload_timestamp_min` of the remote upload configurations. -/
  lastUploadTimestamps : List Nat

namespace ChargeLogSender

variable (s : ChargeLogSender)

/-- The state after a reboot. -/
def initial (lastUploadTimestamps : List Nat) : ChargeLogSender where
  sendState := .idle
  errorCode := .success
  nackReason := ⟨0⟩
  remoteUploadRequest := none
  pendingGenerationLock := false
  generationLockState := .ready
  tcpTasks := []
  scheduledUploads := []
  downloads := 0
  monthlyTaskRunning := !lastUploadTimestamps.isEmpty
  monthlyUploadUserIdx := none
  monthlyUploadConfigCount := 0
  lastUploadTimestamps := lastUploadTimestamps

/-- `try_lock`. -/
def tryLock (kind : GenerationState) : Option ChargeLogSender :=
  if s.generationLockState = .ready then some { s with generationLockState := kind } else none

/-- The destructor of a lock helper. -/
def unlock : ChargeLogSender := { s with generationLockState := .ready }

/-- `pending_generation_lock.reset()`. -/
def resetPendingLock : ChargeLogSender :=
  if s.pendingGenerationLock then { s.unlock with pendingGenerationLock := false } else s

/-- `pending_generation_lock = std::move(lock)`. -/
def adoptLock : ChargeLogSender :=
  if s.pendingGenerationLock then s.unlock else { s with pendingGenerationLock := true }

/-- `remote_upload_request.reset()` and `pending_generation_lock.reset()`. -/
def dropUpload : ChargeLogSender := { s with remoteUploadRequest := none }.resetPendingLock

def fail (code : ChargeLogSendError) : ChargeLogSender :=
  { s with errorCode := code, sendState := .error }

def setLastUpload (idx now : Nat) : ChargeLogSender :=
  { s with lastUploadTimestamps := s.lastUploadTimestamps.set idx now }

end ChargeLogSender

/-- No upload is in progress. -/
def ChargeLogSendState.isInactive (state : ChargeLogSendState) : Bool :=
  state = .idle || state = .done || state = .error

/-- What happens to the request packet of an upload. -/
structure RequestOutcome where
  mgmtConnected : Bool
  languageSupported : Bool
  requestSent : Bool

def RequestOutcome.succeeds (outcome : RequestOutcome) : Bool :=
  outcome.mgmtConnected && outcome.languageSupported && outcome.requestSent

namespace ChargeLogSender

variable (s : ChargeLogSender)

/-- `start_charge_log_send_sm`, with its result. -/
def startChargeLogSendSm (outcome : RequestOutcome) : ChargeLogSender × Bool :=
  if !outcome.mgmtConnected then (s, false)
  else if !s.sendState.isInactive then (s, false)
  else
    let s := { s with errorCode := .success, nackReason := ⟨0⟩ }
    if !outcome.languageSupported then (s, false)
    else if !outcome.requestSent then (s.fail .sendRequestFailed, false)
    else ({ s with sendState := .requestSent }, true)

/-- What a packet meets on the device. -/
structure PacketOutcome where
  now : Nat
  metadataSent : Bool
  taskCreated : Bool

/-- `handle_charge_log_send_packet`; the flag says whether the packet was consumed. -/
def handleChargeLogSendPacket (type : PacketType) (nackReason : NackReason)
    (outcome : PacketOutcome) : ChargeLogSender × Bool :=
  match s.sendState, type with
  | .requestSent, .nack =>
    if nackReason = .alreadySent then
      let s :=
        match s.remoteUploadRequest with
        | some request =>
          if !request.useFormatOverrides && request.configIndex ≥ 0 then
            s.setLastUpload request.configIndex.toNat outcome.now
          else s
        | none => s
      ({ s with sendState := .done }.dropUpload, true)
    else (({ s with nackReason := nackReason }.fail .requestRejected).dropUpload, true)
  | .requestSent, .ack =>
    if !outcome.metadataSent then ((s.fail .sendMetadataFailed).dropUpload, true)
    else ({ s with sendState := .metadataSent }, true)
  | .metadataSent, .ack => ({ s with sendState := .openingConnection }, true)
  | .metadataSent, .nack =>
    (({ s with nackReason := nackReason }.fail .metadataRejected).dropUpload, true)
  | .openingConnection, .ack =>
    match s.remoteUploadRequest with
    | none => (s.fail .connectionOpenFailed, true)
    | some request =>
      if !outcome.taskCreated then ((s.fail .connectionOpenFailed).dropUpload, true)
      else
        ({ s with remoteUploadRequest := none, tcpTasks := s.tcpTasks ++ [⟨request, false⟩] }, true)
  | .openingConnection, .nack =>
    (({ s with nackReason := nackReason }.fail .connectionOpenFailed).dropUpload, true)
  | .waitingForFinalAck, .ack => ({ s with sendState := .done }.dropUpload, true)
  | .waitingForFinalAck, .nack =>
    (({ s with nackReason := nackReason }.fail .serverErrorAfterDataSend).dropUpload, true)
  | _, _ => (s, false)

/-- What a streaming task does next: the socket can not be opened, bound or connected,
it is connected, the log is sent, or sending or generating it fails. -/
inductive TcpEvent where
  | connectFailed | connected | sent | sendFailed
  deriving DecidableEq, Repr

/-- `cleanup_and_delete_task` of the task with index `k`. -/
def cleanupAndDeleteTask (k : Nat) : ChargeLogSender :=
  let s := if s.sendState = .error then s.resetPendingLock else s
  { s with tcpTasks := s.tcpTasks.eraseIdx k }

/-- A step of the streaming task with index `k`. -/
def tcpStep (k : Nat) (event : TcpEvent) : ChargeLogSender :=
  match s.tcpTasks[k]?, event with
  | some ⟨_, false⟩, .connectFailed => (s.fail .connectionOpenFailed).cleanupAndDeleteTask k
  | some ⟨uploadArgs, false⟩, .connected =>
    { s with sendState := .sendingData, tcpTasks := s.tcpTasks.set k ⟨uploadArgs, true⟩ }
  | some ⟨_, true⟩, .sent => { s with sendState := .waitingForFinalAck }.cleanupAndDeleteTask k
  | some ⟨_, true⟩, .sendFailed => (s.fail .serverErrorAfterDataSend).cleanupAndDeleteTask k
  | _, _ => s

/-- A request for an upload by hand; the flag says whether it is well formed. -/
def requestUpload (upload : ScheduledUpload) (valid : Bool) : ChargeLogSender :=
  match s.tryLock .manualRemoteSend with
  | none => s
  | some s => if valid then { s with scheduledUploads := s.scheduledUploads ++ [upload] } else s.unlock

/-- `start_charge_log_upload_for_user` for the oldest scheduled upload. -/
def startChargeLogUploadForUser (uuidValid : Bool) (outcome : RequestOutcome) : ChargeLogSender :=
  match s.scheduledUploads with
  | [] => s
  | upload :: rest =>
    let s := { s with scheduledUploads := rest }
    if !uuidValid then s.unlock
    else
      let (s, started) := s.startChargeLogSendSm outcome
      if !started then s.unlock
      else
        { s with
          remoteUploadRequest := some
            { cookie := upload.cookie
              fileType := upload.fileType
              useFormatOverrides := true } }.adoptLock

/-- What the monthly task finds; per index where it depends on the configuration. -/
structure MonthlyInput where
  now : Nat
  sameMonth : Nat → Nat → Bool
  currentlyCharging : Bool
  clockSynced : Bool
  deadlineElapsed : Bool
  uuidValid : Nat → Bool
  fileType : Nat → FileType
  outcome : Nat → RequestOutcome

def MonthlyInput.wantsSend (input : MonthlyInput) (lastSendTime : Nat) : Bool :=
  lastSendTime = 0 || !input.sameMonth lastSendTime input.now

/-- `try_start_monthly_upload_for_user`. -/
def tryStartMonthlyUploadForUser (input : MonthlyInput) (idx : Nat) : ChargeLogSender × Bool :=
  match s.lastUploadTimestamps[idx]? with
  | none => (s, false)
  | some lastUpload =>
    if !input.wantsSend lastUpload then (s, false)
    else if !input.uuidValid idx then (s, false)
    else
      let request : RemoteUploadRequest := { configIndex := idx, fileType := input.fileType idx }
      let (s, started) :=
        { s with remoteUploadRequest := some request }.startChargeLogSendSm (input.outcome idx)
      if !started then ({ s with remoteUploadRequest := none }, false) else (s, true)

def finishMonthlyUpload : ChargeLogSender :=
  { s with monthlyUploadUserIdx := none, monthlyUploadConfigCount := 0 }.resetPendingLock

/-- The loop over the users that are left. -/
def startNextUser (input : MonthlyInput) : List Nat → ChargeLogSender → ChargeLogSender
  | [], s => s.finishMonthlyUpload
  | idx :: rest, s =>
    let (s, started) :=
      { s with monthlyUploadUserIdx := some idx }.tryStartMonthlyUploadForUser input idx
    if started then s else startNextUser input rest s

/-- The users after the one with index `idx`. -/
def usersAfter (idx : Nat) : List Nat :=
  List.range' (idx + 1) (s.monthlyUploadConfigCount - (idx + 1))

/-- The monthly task. -/
def monthlyTask (input : MonthlyInput) : ChargeLogSender :=
  if !s.monthlyTaskRunning then s
  else if s.lastUploadTimestamps.isEmpty then
    let s := if s.monthlyUploadUserIdx.isSome then s.finishMonthlyUpload else s
    { s with monthlyTaskRunning := false }
  else
    match s.monthlyUploadUserIdx with
    | some idx =>
      if s.sendState = .done then
        startNextUser input (s.usersAfter idx) (s.setLastUpload idx input.now)
      else if s.sendState = .error then startNextUser input (s.usersAfter idx) s
      else if input.deadlineElapsed then startNextUser input (s.usersAfter idx) s
      else s
    | none =>
      if input.currentlyCharging || !input.clockSynced then s
      else if !input.wantsSend (s.lastUploadTimestamps.foldl min 4294967295) then s
      else
        match s.tryLock .remoteSend with
        | none => s
        | some s =>
          let s := { s.adoptLock with monthlyUploadConfigCount := s.lastUploadTimestamps.length }
          startNextUser input (List.range s.monthlyUploadConfigCount) s

/-- What can happen to the sender. -/
inductive Label where
  | packet (type : PacketType) (nackReason : NackReason) (outcome : PacketOutcome)
  | tcp (k : Nat) (event : TcpEvent)
  | requestUpload (upload : ScheduledUpload) (valid : Bool)
  | startUpload (uuidValid : Bool) (outcome : RequestOutcome)
  | monthly (input : MonthlyInput)
  | updateConfig (lastUploadTimestamps : List Nat)
  | beginDownload
  | endDownload

def step (s : ChargeLogSender) : Label → ChargeLogSender
  | .packet type nackReason outcome => (s.handleChargeLogSendPacket type nackReason outcome).1
  | .tcp k event => s.tcpStep k event
  | .requestUpload upload valid => s.requestUpload upload valid
  | .startUpload uuidValid outcome => s.startChargeLogUploadForUser uuidValid outcome
  | .monthly input => s.monthlyTask input
  | .updateConfig lastUploadTimestamps => { s with lastUploadTimestamps := lastUploadTimestamps }
  | .beginDownload =>
    match s.tryLock .localDownload with
    | none => s
    | some s => { s with downloads := s.downloads + 1 }
  | .endDownload =>
    if s.downloads = 0 then s else { s.unlock with downloads := s.downloads - 1 }

end ChargeLogSender

end Esp32Firmware.ChargeTracker
