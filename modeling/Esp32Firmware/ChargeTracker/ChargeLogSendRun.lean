import Esp32Firmware.ChargeTracker.ChargeLogSend

/-!
# The lock of the charge log sender

While an upload is in progress the sender holds the generation lock, afterwards it holds
neither the lock nor a request. Two kinds of steps break this: a packet that arrives
while the upload task opens its connection, and a monthly upload that goes on to the next
user, is abandoned after its deadline or loses its configurations.
-/

namespace Esp32Firmware.ChargeTracker.ChargeLogSender

variable {s : ChargeLogSender}

/-- The number of lock helpers. -/
def holders (s : ChargeLogSender) : Nat :=
  (if s.pendingGenerationLock then 1 else 0) + s.scheduledUploads.length + s.downloads

/-- Without an upload the sender holds neither lock nor request, and the lock is released
unless somebody else holds it. An upload is the only holder of the lock. -/
def NeverBlocks (s : ChargeLogSender) : Prop :=
  if s.sendState.isInactive then
    s.pendingGenerationLock = false ∧ s.remoteUploadRequest = none ∧
      (s.scheduledUploads = [] → s.downloads = 0 → s.generationLockState = .ready)
  else
    s.pendingGenerationLock = true ∧ s.holders = 1 ∧ s.generationLockState ≠ .ready

/-- Helpers exclude each other. -/
structure LockSound (s : ChargeLogSender) : Prop where
  le_one : s.holders ≤ 1
  ready_iff : s.generationLockState = .ready ↔ s.holders = 0

/-- What the sender holds in each state. -/
def Holds (s : ChargeLogSender) : Prop :=
  match s.sendState with
  | .idle | .done | .error =>
    s.pendingGenerationLock = false ∧ s.remoteUploadRequest = none ∧ s.tcpTasks = []
  | .requestSent | .metadataSent =>
    s.pendingGenerationLock = true ∧ s.remoteUploadRequest ≠ none ∧ s.tcpTasks = []
  | .openingConnection =>
    s.pendingGenerationLock = true ∧ (s.remoteUploadRequest ≠ none ∧ s.tcpTasks = [] ∨
        s.remoteUploadRequest = none ∧ ∃ uploadArgs, s.tcpTasks = [⟨uploadArgs, false⟩])
  | .sendingData =>
    s.pendingGenerationLock = true ∧ s.remoteUploadRequest = none ∧
      ∃ uploadArgs, s.tcpTasks = [⟨uploadArgs, true⟩]
  | .waitingForFinalAck =>
    s.pendingGenerationLock = true ∧ s.remoteUploadRequest = none ∧ s.tcpTasks = []

structure Invariant (s : ChargeLogSender) : Prop where
  lock : LockSound s
  holds : Holds s

/-- Whether the monthly upload of a user can be started. -/
def canStart (s : ChargeLogSender) (input : MonthlyInput) (idx : Nat) : Bool :=
  match s.lastUploadTimestamps[idx]? with
  | none => false
  | some lastUpload =>
    input.wantsSend lastUpload && input.uuidValid idx && (input.outcome idx).succeeds

/-- No answer arrives while the upload task opens its connection. A monthly upload in
progress keeps its configurations and meets its deadline, and no further user is left
to upload for when it is over. -/
def Regular (s : ChargeLogSender) : Label → Prop
  | .packet type _ _ =>
    s.sendState = .openingConnection → s.remoteUploadRequest = none → type = .other
  | .monthly input =>
    ∀ idx, s.monthlyUploadUserIdx = some idx →
      if s.sendState.isInactive then ∀ j ∈ s.usersAfter idx, s.canStart input j = false
      else s.lastUploadTimestamps ≠ [] ∧ input.deadlineElapsed = false
  | _ => True

section

theorem holds_of_inactive (h : s.sendState.isInactive) :
    Holds s ↔ s.pendingGenerationLock = false ∧ s.remoteUploadRequest = none ∧ s.tcpTasks = [] := by
  rw [Holds]
  cases hstate : s.sendState <;> simp_all [ChargeLogSendState.isInactive]

theorem Holds.pending (h : Holds s) (hactive : s.sendState.isInactive = false) :
    s.pendingGenerationLock = true := by
  rw [Holds] at h
  cases hstate : s.sendState <;> simp_all [ChargeLogSendState.isInactive]

/-- The invariant is what was asked for. -/
theorem Invariant.neverBlocks (h : Invariant s) : NeverBlocks s := by
  rw [NeverBlocks]
  split
  · next hinactive =>
      obtain ⟨hpending, hrequest, _⟩ := (holds_of_inactive hinactive).mp h.holds
      refine ⟨hpending, hrequest, ?_⟩
      intro hscheduled hdownloads
      apply h.lock.ready_iff.mpr
      simp [holders, hpending, hscheduled, hdownloads]
  · next hactive =>
      have hpending := h.holds.pending (by simpa using hactive)
      have hle := h.lock.le_one
      have hone : s.holders = 1 := by
        rw [holders, if_pos hpending] at hle ⊢
        omega
      refine ⟨hpending, hone, ?_⟩
      rw [Ne, h.lock.ready_iff]
      omega

end

section

theorem LockSound.resetPendingLock (h : LockSound s) : LockSound s.resetPendingLock := by
  rw [ChargeLogSender.resetPendingLock]
  split
  · next hpending =>
      have hle := h.le_one
      have hzero : { s.unlock with pendingGenerationLock := false }.holders = 0 := by
        rw [holders, if_pos hpending] at hle
        simp only [holders, unlock, Bool.false_eq_true, if_false]
        omega
      exact ⟨by omega, iff_of_true rfl hzero⟩
  · exact h

@[simp] theorem resetPendingLock_pending : s.resetPendingLock.pendingGenerationLock = false := by
  rw [resetPendingLock]
  split
  · rfl
  · next h => simpa using h

@[simp] theorem resetPendingLock_sendState : s.resetPendingLock.sendState = s.sendState := by
  rw [resetPendingLock]
  split <;> rfl

@[simp] theorem resetPendingLock_request :
    s.resetPendingLock.remoteUploadRequest = s.remoteUploadRequest := by
  rw [resetPendingLock]
  split <;> rfl

@[simp] theorem resetPendingLock_tcpTasks : s.resetPendingLock.tcpTasks = s.tcpTasks := by
  rw [resetPendingLock]
  split <;> rfl

/-- An upload that is over and whose task is gone is dropped as a whole. -/
theorem LockSound.dropUpload (h : LockSound s) (hinactive : s.sendState.isInactive)
    (htasks : s.tcpTasks = []) : Invariant s.dropUpload := by
  have hlock : LockSound { s with remoteUploadRequest := none } := ⟨h.le_one, h.ready_iff⟩
  refine ⟨hlock.resetPendingLock, ?_⟩
  rw [ChargeLogSender.dropUpload]
  apply (holds_of_inactive (by simpa using hinactive)).mpr
  simp [htasks]

end

section

/-- A packet ends an upload, moves it on, or hands its request over to a new task. -/
theorem Invariant.handlePacket (h : Invariant s) {type : PacketType} (nackReason : NackReason)
    (outcome : PacketOutcome) (hregular : s.sendState = .openingConnection →
      s.remoteUploadRequest = none → type = .other) :
    Invariant (s.handleChargeLogSendPacket type nackReason outcome).1 := by
  have hlock : ∀ state code reason timestamps, LockSound { s with
      sendState := state, errorCode := code, nackReason := reason,
      lastUploadTimestamps := timestamps } := fun _ _ _ _ => ⟨h.lock.le_one, h.lock.ready_iff⟩
  have hholds := h.holds
  rw [handleChargeLogSendPacket.eq_def]
  split
  · next hstate =>
      rw [Holds, hstate] at hholds
      split
      · -- the log was sent before, which may be noted in the configuration
        split
        · split <;> exact (hlock .done s.errorCode s.nackReason _).dropUpload rfl hholds.2.2
        · exact (hlock .done s.errorCode s.nackReason _).dropUpload rfl hholds.2.2
      · exact (hlock .error _ _ s.lastUploadTimestamps).dropUpload rfl hholds.2.2
  · next hstate =>
      rw [Holds, hstate] at hholds
      split
      · exact (hlock .error _ s.nackReason s.lastUploadTimestamps).dropUpload rfl hholds.2.2
      · exact ⟨hlock _ s.errorCode s.nackReason s.lastUploadTimestamps, hholds⟩
  · next hstate =>
      rw [Holds, hstate] at hholds
      exact ⟨hlock _ s.errorCode s.nackReason s.lastUploadTimestamps, hholds.1, Or.inl hholds.2⟩
  · next hstate =>
      rw [Holds, hstate] at hholds
      exact (hlock .error _ _ s.lastUploadTimestamps).dropUpload rfl hholds.2.2
  · next hstate =>
      have hrequest : s.remoteUploadRequest ≠ none := by
        intro hnone
        exact absurd (hregular hstate hnone) (by decide)
      rw [Holds, hstate] at hholds
      have htasks := (hholds.2.resolve_right fun hright => hrequest hright.1).2
      split
      · next hnone => exact absurd hnone hrequest
      · next request _ =>
          split
          · exact (hlock .error _ s.nackReason s.lastUploadTimestamps).dropUpload rfl htasks
          · refine ⟨⟨h.lock.le_one, h.lock.ready_iff⟩, ?_⟩
            rw [Holds]
            simp only [hstate]
            exact ⟨hholds.1, Or.inr ⟨trivial, request, by rw [htasks, List.nil_append]⟩⟩
  · next hstate =>
      have hrequest : s.remoteUploadRequest ≠ none := by
        intro hnone
        exact absurd (hregular hstate hnone) (by decide)
      rw [Holds, hstate] at hholds
      have htasks := (hholds.2.resolve_right fun hright => hrequest hright.1).2
      exact (hlock .error _ _ s.lastUploadTimestamps).dropUpload rfl htasks
  · next hstate =>
      rw [Holds, hstate] at hholds
      exact (hlock .done s.errorCode s.nackReason s.lastUploadTimestamps).dropUpload rfl hholds.2.2
  · next hstate =>
      rw [Holds, hstate] at hholds
      exact (hlock .error _ _ s.lastUploadTimestamps).dropUpload rfl hholds.2.2
  · exact h

end

section

/-- At most one task runs, and the state tells how far it is. -/
theorem Holds.task_eq (h : Holds s) {k : Nat} {task : TcpTask} (hk : s.tcpTasks[k]? = some task) :
    k = 0 ∧ s.tcpTasks = [task] ∧ s.pendingGenerationLock = true ∧ s.remoteUploadRequest = none ∧
      s.sendState = if task.connected then .sendingData else .openingConnection := by
  have hsingle : ∀ t, s.tcpTasks = [t] → k = 0 ∧ t = task := by
    intro t ht
    rw [ht] at hk
    cases k with
    | zero => exact ⟨rfl, Option.some.inj hk⟩
    | succ k => simp at hk
  have hnonempty : s.tcpTasks ≠ [] := by
    intro hnil
    simp [hnil] at hk
  rw [Holds] at h
  cases hstate : s.sendState with
  | idle | done | error | requestSent | metadataSent | waitingForFinalAck =>
    rw [hstate] at h
    exact absurd h.2.2 hnonempty
  | openingConnection =>
    rw [hstate] at h
    obtain ⟨hpending, ⟨_, hnil⟩ | ⟨hrequest, uploadArgs, htasks⟩⟩ := h
    · exact absurd hnil hnonempty
    · obtain ⟨rfl, rfl⟩ := hsingle _ htasks
      exact ⟨rfl, htasks, hpending, hrequest, rfl⟩
  | sendingData =>
    rw [hstate] at h
    obtain ⟨hpending, hrequest, uploadArgs, htasks⟩ := h
    obtain ⟨rfl, rfl⟩ := hsingle _ htasks
    exact ⟨rfl, htasks, hpending, hrequest, rfl⟩

/-- A task that ends with an error releases the lock of its upload. -/
theorem Invariant.failTask (h : Invariant s) {k : Nat} {task : TcpTask}
    (hk : s.tcpTasks[k]? = some task) (code : ChargeLogSendError) :
    Invariant ((s.fail code).cleanupAndDeleteTask k) := by
  obtain ⟨rfl, htasks, _, hrequest, _⟩ := h.holds.task_eq hk
  have hlock : LockSound (s.fail code) := ⟨h.lock.le_one, h.lock.ready_iff⟩
  have hreset := hlock.resetPendingLock
  have hclean : (s.fail code).cleanupAndDeleteTask 0 =
      { (s.fail code).resetPendingLock with tcpTasks := [] } := by
    have hfail : (s.fail code).sendState = .error := rfl
    have herase : (s.fail code).tcpTasks.eraseIdx 0 = [] := by
      rw [fail, htasks]
      rfl
    rw [cleanupAndDeleteTask, if_pos hfail]
    simp only [resetPendingLock_tcpTasks, herase]
  rw [hclean]
  refine ⟨⟨hreset.le_one, hreset.ready_iff⟩, ?_⟩
  apply (holds_of_inactive (by simp [fail, ChargeLogSendState.isInactive])).mpr
  simp [fail, hrequest]

theorem Invariant.tcpStep (h : Invariant s) (k : Nat) (event : TcpEvent) :
    Invariant (s.tcpStep k event) := by
  rw [ChargeLogSender.tcpStep.eq_def]
  split
  · next hk => exact h.failTask hk _
  · next uploadArgs hk =>
      obtain ⟨rfl, htasks, hpending, hrequest, _⟩ := h.holds.task_eq hk
      refine ⟨⟨h.lock.le_one, h.lock.ready_iff⟩, hpending, hrequest, uploadArgs, ?_⟩
      rw [htasks]
      rfl
  · next hk =>
      obtain ⟨rfl, htasks, hpending, hrequest, _⟩ := h.holds.task_eq hk
      refine ⟨⟨h.lock.le_one, h.lock.ready_iff⟩, hpending, hrequest, ?_⟩
      rw [htasks]
      rfl
  · next hk => exact h.failTask hk _
  · exact h

end

section

/-- The state machine starts only without an upload, and changes nothing but its own
state. -/
theorem startChargeLogSendSm_eq (s : ChargeLogSender) (outcome : RequestOutcome) :
    ∃ state code reason, (s.startChargeLogSendSm outcome).1 =
        { s with sendState := state, errorCode := code, nackReason := reason } ∧
      if (s.startChargeLogSendSm outcome).2 then
        s.sendState.isInactive ∧ outcome.succeeds ∧ state = .requestSent
      else state = s.sendState ∨ s.sendState.isInactive ∧ state = .error := by
  rw [startChargeLogSendSm]
  split
  · exact ⟨s.sendState, s.errorCode, s.nackReason, rfl, Or.inl rfl⟩
  · split
    · exact ⟨s.sendState, s.errorCode, s.nackReason, rfl, Or.inl rfl⟩
    · next hconnected hinactive =>
        split
        · exact ⟨s.sendState, _, _, rfl, Or.inl rfl⟩
        · next hlanguage =>
            split
            · exact ⟨.error, _, _, rfl, Or.inr ⟨by simpa using hinactive, rfl⟩⟩
            · next hsent =>
                refine ⟨.requestSent, _, _, rfl, ?_⟩
                simp_all [RequestOutcome.succeeds]

theorem startChargeLogSendSm_started (s : ChargeLogSender) (outcome : RequestOutcome) :
    (s.startChargeLogSendSm outcome).2 = (s.sendState.isInactive && outcome.succeeds) := by
  rw [startChargeLogSendSm, RequestOutcome.succeeds]
  cases outcome.mgmtConnected <;> cases s.sendState.isInactive <;>
    cases outcome.languageSupported <;> cases outcome.requestSent <;> rfl

/-- A scheduled upload is the only holder of the lock. -/
theorem Invariant.of_scheduled (h : Invariant s) {upload : ScheduledUpload}
    {rest : List ScheduledUpload} (hscheduled : s.scheduledUploads = upload :: rest) :
    rest = [] ∧ s.downloads = 0 ∧ s.generationLockState ≠ .ready ∧
      s.pendingGenerationLock = false ∧ s.sendState.isInactive := by
  have hle := h.lock.le_one
  have hready := h.lock.ready_iff
  simp only [holders, hscheduled, List.length_cons] at hle hready
  have hpending : s.pendingGenerationLock = false := by
    by_contra hpending
    rw [if_pos (by simpa using hpending)] at hle
    omega
  refine ⟨List.eq_nil_of_length_eq_zero (by omega), by omega, ?_, hpending, ?_⟩
  · rw [Ne, hready]
    omega
  · by_contra hactive
    have := h.holds.pending (by simpa using hactive)
    exact absurd this (by simp [hpending])

theorem Invariant.startUpload (h : Invariant s) (uuidValid : Bool) (outcome : RequestOutcome) :
    Invariant (s.startChargeLogUploadForUser uuidValid outcome) := by
  rw [startChargeLogUploadForUser.eq_def]
  split
  · exact h
  · next upload rest hscheduled =>
      obtain ⟨rfl, hdownloads, hlocked, hpending, hinactive⟩ := h.of_scheduled hscheduled
      obtain ⟨_, hrequest, htasks⟩ := (holds_of_inactive hinactive).mp h.holds
      obtain ⟨state, code, reason, hsm, hcases⟩ :=
        startChargeLogSendSm_eq { s with scheduledUploads := [] } outcome
      -- the lock helper is destroyed on every early return
      have hunlock : ∀ state code reason, state = s.sendState ∨ state = .error → Invariant { s with
            scheduledUploads := [], generationLockState := .ready, sendState := state,
            errorCode := code, nackReason := reason } := by
        intro state code reason hstate
        have hzero : holders { s with
            scheduledUploads := [], generationLockState := .ready, sendState := state,
            errorCode := code, nackReason := reason } = 0 := by
          simp [holders, hpending, hdownloads]
        refine ⟨⟨by omega, iff_of_true rfl hzero⟩, (holds_of_inactive ?_).mpr
          ⟨hpending, hrequest, htasks⟩⟩
        rcases hstate with rfl | rfl
        · exact hinactive
        · rfl
      dsimp only
      split
      · exact hunlock s.sendState s.errorCode s.nackReason (Or.inl rfl)
      · split
        · next hstarted =>
            rw [if_neg (by simpa using hstarted)] at hcases
            rw [hsm]
            exact hunlock state code reason (hcases.imp_right And.right)
        · next hstarted =>
            rw [if_pos (by simpa using hstarted)] at hcases
            obtain ⟨_, _, rfl⟩ := hcases
            have hadopt : ∀ t : ChargeLogSender, t.pendingGenerationLock = false →
                t.adoptLock = { t with pendingGenerationLock := true } := by
              intro t ht
              rw [adoptLock, if_neg (by simp [ht])]
            rw [hsm, hadopt]
            · refine ⟨⟨?_, iff_of_false hlocked ?_⟩, rfl, by simp, htasks⟩
              · simp [holders, hdownloads]
              · simp [holders]
            · exact hpending

end

section

/-- What holds between two attempts to start a monthly upload. -/
structure Waiting (s : ChargeLogSender) : Prop where
  lock : LockSound s
  inactive : s.sendState.isInactive
  request : s.remoteUploadRequest = none
  tasks : s.tcpTasks = []

theorem Waiting.tryStart (h : Waiting s) (input : MonthlyInput) (idx : Nat) :
    ∃ state code reason request, s.tryStartMonthlyUploadForUser input idx = ({ s with
        sendState := state, errorCode := code, nackReason := reason,
        remoteUploadRequest := request }, s.canStart input idx) ∧
      if s.canStart input idx then state = .requestSent ∧ request ≠ none
      else state.isInactive ∧ request = none := by
  have hkeep : ∃ state code reason request, (s, false) = ({ s with
      sendState := state, errorCode := code, nackReason := reason,
      remoteUploadRequest := request }, false) ∧
      if false then state = .requestSent ∧ request ≠ none
      else state.isInactive ∧ request = none :=
    ⟨s.sendState, s.errorCode, s.nackReason, s.remoteUploadRequest, rfl, h.inactive, h.request⟩
  cases hlast : s.lastUploadTimestamps[idx]? with
  | none =>
    have hcan : s.canStart input idx = false := by simp only [canStart, hlast]
    rw [tryStartMonthlyUploadForUser, hcan, hlast]
    exact hkeep
  | some lastUpload =>
    have hcan : s.canStart input idx = (input.wantsSend lastUpload && input.uuidValid idx &&
        (input.outcome idx).succeeds) := by simp only [canStart, hlast]
    rw [tryStartMonthlyUploadForUser, hcan, hlast]
    dsimp only
    cases hwants : input.wantsSend lastUpload with
    | false => exact hkeep
    | true =>
      cases huuid : input.uuidValid idx with
      | false => exact hkeep
      | true =>
        obtain ⟨request, hrequest⟩ : ∃ request : RemoteUploadRequest,
            { configIndex := idx, fileType := input.fileType idx } = request := ⟨_, rfl⟩
        obtain ⟨state, code, reason, hsm, hcases⟩ := startChargeLogSendSm_eq
          { s with remoteUploadRequest := some request } (input.outcome idx)
        have hstarted := startChargeLogSendSm_started
          { s with remoteUploadRequest := some request } (input.outcome idx)
        simp only [h.inactive] at hstarted
        simp only [hrequest, hsm, hstarted, Bool.not_true, Bool.false_eq_true, if_false,
          Bool.true_and] at hcases ⊢
        cases hsucceeds : (input.outcome idx).succeeds with
        | false =>
          rw [hsucceeds] at hcases
          refine ⟨state, code, reason, none, by simp, ?_, rfl⟩
          rcases hcases with rfl | ⟨_, rfl⟩
          · exact h.inactive
          · rfl
        | true =>
          rw [hsucceeds] at hcases
          exact ⟨state, code, reason, some request, by simp, hcases.2.2, by simp⟩

/-- The loop over the users ends with an upload that owns the lock, or without one. -/
theorem Waiting.startNextUser (input : MonthlyInput) {users : List Nat} (h : Waiting s)
    (hlock : s.pendingGenerationLock = true ∨ ∀ j ∈ users, s.canStart input j = false) :
    Invariant (startNextUser input users s) := by
  induction users generalizing s with
  | nil =>
    rw [ChargeLogSender.startNextUser, finishMonthlyUpload]
    have hlock' : LockSound { s with
        monthlyUploadUserIdx := none, monthlyUploadConfigCount := 0 } :=
      ⟨h.lock.le_one, h.lock.ready_iff⟩
    refine ⟨hlock'.resetPendingLock, (holds_of_inactive ?_).mpr ?_⟩
    · simpa using h.inactive
    · simp [h.request, h.tasks]
  | cons idx rest ih =>
    have hwait : Waiting { s with monthlyUploadUserIdx := some idx } :=
      ⟨⟨h.lock.le_one, h.lock.ready_iff⟩, h.inactive, h.request, h.tasks⟩
    obtain ⟨state, code, reason, request, htry, hcases⟩ := hwait.tryStart input idx
    have hcan : canStart { s with monthlyUploadUserIdx := some idx } input idx =
        s.canStart input idx := rfl
    rw [ChargeLogSender.startNextUser, htry]
    rw [hcan] at hcases ⊢
    cases hstart : s.canStart input idx with
    | true =>
      rw [hstart] at hcases
      have hpending := hlock.resolve_right fun hnone =>
        absurd (hnone idx List.mem_cons_self) (by simp [hstart])
      obtain ⟨rfl, hrequest⟩ := hcases
      exact ⟨⟨h.lock.le_one, h.lock.ready_iff⟩, hpending, hrequest, h.tasks⟩
    | false =>
      rw [hstart] at hcases
      obtain ⟨hinactive, rfl⟩ := hcases
      refine ih ⟨⟨h.lock.le_one, h.lock.ready_iff⟩, hinactive, rfl, h.tasks⟩ ?_
      exact hlock.imp_right fun hnone j hj => hnone j (List.mem_cons_of_mem idx hj)

theorem Invariant.waiting (h : Invariant s) (hinactive : s.sendState.isInactive) : Waiting s := by
  obtain ⟨_, hrequest, htasks⟩ := (holds_of_inactive hinactive).mp h.holds
  exact ⟨h.lock, hinactive, hrequest, htasks⟩

/-- Going on after an upload needs no lock when nothing is left to do. -/
theorem Invariant.nextUser (h : Invariant s) (input : MonthlyInput) {idx : Nat}
    (hinactive : s.sendState.isInactive)
    (hnone : ∀ j ∈ s.usersAfter idx, s.canStart input j = false) :
    Invariant (startNextUser input (s.usersAfter idx) s) :=
  (h.waiting hinactive).startNextUser input (Or.inr hnone)

/-- A free lock means that nobody holds a helper. -/
theorem Invariant.of_ready (h : Invariant s) (hready : s.generationLockState = .ready) :
    s.scheduledUploads = [] ∧ s.downloads = 0 ∧ s.pendingGenerationLock = false ∧
      s.sendState.isInactive := by
  have hzero := h.lock.ready_iff.mp hready
  have hpending : s.pendingGenerationLock = false := by
    by_contra hpending
    rw [holders, if_pos (by simpa using hpending)] at hzero
    omega
  rw [holders] at hzero
  refine ⟨List.eq_nil_of_length_eq_zero (by omega), by omega, hpending, ?_⟩
  by_contra hactive
  have := h.holds.pending (by simpa using hactive)
  exact absurd this (by simp [hpending])

theorem tryLock_eq {kind : GenerationState} {locked : ChargeLogSender}
    (h : s.tryLock kind = some locked) :
    s.generationLockState = .ready ∧ locked = { s with generationLockState := kind } := by
  rw [tryLock] at h
  split at h
  · next hready => exact ⟨hready, (Option.some.inj h).symm⟩
  · simp at h

theorem canStart_setLastUpload (input : MonthlyInput) {idx j : Nat} (hne : idx ≠ j) (now : Nat) :
    (s.setLastUpload idx now).canStart input j = s.canStart input j := by
  rw [canStart, canStart, setLastUpload, List.getElem?_set_ne hne]

theorem Invariant.monthly (h : Invariant s) (input : MonthlyInput)
    (hregular : Regular s (.monthly input)) : Invariant (s.monthlyTask input) := by
  rw [monthlyTask.eq_def]
  split
  · exact h
  · split
    · next hempty =>
        have hnil : s.lastUploadTimestamps = [] := by simpa using hempty
        have hfinish : Invariant
            (if s.monthlyUploadUserIdx.isSome then s.finishMonthlyUpload else s) := by
          split
          · next hsome =>
              obtain ⟨idx, hidx⟩ := Option.isSome_iff_exists.mp hsome
              have hreg := hregular idx hidx
              by_cases hinactive : s.sendState.isInactive
              · have hnone : ∀ j ∈ ([] : List Nat), s.canStart input j = false := by simp
                exact (h.waiting hinactive).startNextUser input (Or.inr hnone)
              · rw [if_neg hinactive] at hreg
                exact absurd hnil hreg.1
          · exact h
        exact ⟨⟨hfinish.lock.le_one, hfinish.lock.ready_iff⟩, hfinish.holds⟩
    · next hempty =>
        split
        · next idx hidx =>
            have hreg := hregular idx hidx
            split
            · next hdone =>
                have hinactive : s.sendState.isInactive := by rw [hdone]; rfl
                rw [if_pos hinactive] at hreg
                have hset : Invariant (s.setLastUpload idx input.now) :=
                  ⟨⟨h.lock.le_one, h.lock.ready_iff⟩, h.holds⟩
                refine hset.nextUser input hinactive fun j hj => ?_
                have hlt : idx < j := by
                  have := List.left_le_of_mem_range' hj
                  omega
                rw [canStart_setLastUpload input hlt.ne]
                exact hreg j hj
            · split
              · next herror =>
                  have hinactive : s.sendState.isInactive := by rw [herror]; rfl
                  rw [if_pos hinactive] at hreg
                  exact h.nextUser input hinactive hreg
              · split
                · next hdeadline =>
                    by_cases hinactive : s.sendState.isInactive
                    · rw [if_pos hinactive] at hreg
                      exact h.nextUser input hinactive hreg
                    · rw [if_neg hinactive] at hreg
                      exact absurd hreg.2 (by simp [hdeadline])
                · exact h
        · split
          · exact h
          · split
            · exact h
            · split
              · exact h
              · next locked hlock =>
                  obtain ⟨hready, rfl⟩ := tryLock_eq hlock
                  obtain ⟨hscheduled, hdownloads, hpending, hinactive⟩ := h.of_ready hready
                  obtain ⟨_, hrequest, htasks⟩ := (holds_of_inactive hinactive).mp h.holds
                  rw [adoptLock, if_neg (by simp [hpending])]
                  refine Waiting.startNextUser input ⟨⟨?_, ?_⟩, hinactive, hrequest, htasks⟩
                    (Or.inl rfl)
                  · simp [holders, hscheduled, hdownloads]
                  · simp [holders]

end

theorem Invariant.requestUpload (h : Invariant s) (upload : ScheduledUpload) (valid : Bool) :
    Invariant (s.requestUpload upload valid) := by
  rw [ChargeLogSender.requestUpload.eq_def]
  split
  · exact h
  · next locked hlock =>
      obtain ⟨hready, rfl⟩ := tryLock_eq hlock
      obtain ⟨hscheduled, hdownloads, hpending, _⟩ := h.of_ready hready
      split
      · refine ⟨⟨?_, ?_⟩, h.holds⟩
        · simp [holders, hscheduled, hdownloads, hpending]
        · simp [holders]
      · exact ⟨⟨h.lock.le_one, iff_of_true rfl (h.lock.ready_iff.mp hready)⟩, h.holds⟩

theorem Invariant.beginDownload (h : Invariant s) : Invariant (s.step .beginDownload) := by
  rw [step]
  split
  · exact h
  · next locked hlock =>
      obtain ⟨hready, rfl⟩ := tryLock_eq hlock
      obtain ⟨hscheduled, hdownloads, hpending, _⟩ := h.of_ready hready
      refine ⟨⟨?_, ?_⟩, h.holds⟩
      · simp [holders, hscheduled, hdownloads, hpending]
      · simp [holders]

theorem Invariant.endDownload (h : Invariant s) : Invariant (s.step .endDownload) := by
  rw [step]
  split
  · exact h
  · have hle := h.lock.le_one
    have hzero : holders { s.unlock with downloads := s.downloads - 1 } = 0 := by
      cases hpending : s.pendingGenerationLock <;>
        simp only [holders, unlock, hpending] at hle ⊢ <;>
        omega
    exact ⟨⟨by omega, iff_of_true rfl hzero⟩, h.holds⟩

theorem Invariant.step (h : Invariant s) {label : Label} (hregular : Regular s label) :
    Invariant (s.step label) := by
  cases label with
  | packet type nackReason outcome => exact h.handlePacket nackReason outcome hregular
  | tcp k event => exact h.tcpStep k event
  | requestUpload upload valid => exact h.requestUpload upload valid
  | startUpload uuidValid outcome => exact h.startUpload uuidValid outcome
  | monthly input => exact h.monthly input hregular
  | updateConfig timestamps => exact ⟨⟨h.lock.le_one, h.lock.ready_iff⟩, h.holds⟩
  | beginDownload => exact h.beginDownload
  | endDownload => exact h.endDownload

theorem initial_invariant (lastUploadTimestamps : List Nat) :
    Invariant (initial lastUploadTimestamps) :=
  ⟨⟨by simp [initial, holders], by simp [initial, holders]⟩, rfl, rfl, rfl⟩

/-- Uploads never block later exports in runs of regular steps. -/
theorem run_neverBlocks (lastUploadTimestamps : List Nat) (labels : List Label)
    (h : Meets step Regular (initial lastUploadTimestamps) labels) :
    NeverBlocks (run step (initial lastUploadTimestamps) labels) := by
  have hrun := h.invariant (I := Invariant) (fun _ _ hs hok => hs.step hok)
    (initial_invariant lastUploadTimestamps)
  exact hrun.neverBlocks

/-- A request of a user that is accepted by the server, with the metadata. -/
def acceptedUpload : List Label :=
  let outcome : PacketOutcome := ⟨0, true, true⟩
  [.requestUpload ⟨1, .pdf⟩ true, .startUpload true ⟨true, true, true⟩,
    .packet .ack ⟨0⟩ outcome, .packet .ack ⟨0⟩ outcome, .packet .ack ⟨0⟩ outcome]

theorem acceptedUpload_neverBlocks : NeverBlocks (run step (initial []) acceptedUpload) := by
  apply run_neverBlocks
  simp [acceptedUpload, Meets, Regular, step, initial, ChargeLogSender.requestUpload, tryLock,
    startChargeLogUploadForUser, startChargeLogSendSm, ChargeLogSendState.isInactive, adoptLock,
    handleChargeLogSendPacket]

/-- A repeated Ack while the connection is opened ends in an error that keeps the lock. -/
theorem repeated_ack_keeps_lock :
    ¬ NeverBlocks (run step (initial [])
      (acceptedUpload ++ [.packet .ack ⟨0⟩ ⟨0, true, true⟩])) := by
  intro h
  have hpending := h.1
  exact absurd hpending (by decide)

end Esp32Firmware.ChargeTracker.ChargeLogSender
