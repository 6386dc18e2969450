import Esp32Firmware.Iso15118.Slac

/-!
# Reasoning about SLAC

A step of SLAC is put together from small functions. Most of them leave the vehicle that is being
matched alone or drop it; what is left are the frames and the averaging of profiles. A rule is a
statement about a state and a reply that is proved for these and then holds of every step.
-/

namespace Esp32Firmware.Iso15118

namespace Slac

/-- The states in which SLAC holds a vehicle that is being matched -/
def tracks (state : SlacState) : Bool := inMatching state || state = .waitForSDP

theorem tracks_of_match {state : SlacState} (h : state = .waitForSlacMatch ∨ state = .waitForSDP) :
    tracks state = true := by
  rcases h with h | h <;> rw [h] <;> rfl

/-- The states agree on what belongs to the vehicle that is being matched. -/
structure SameMatching (s s' : Slac) : Prop where
  state : s'.state = s.state
  pevMac : s'.pevMac = s.pevMac
  pevRunId : s'.pevRunId = s.pevRunId
  receivedAagLists : s'.receivedAagLists = s.receivedAagLists
  aagList : s'.aagList = s.aagList
  indicationNumSounds : s'.indicationNumSounds = s.indicationNumSounds
  log : s'.log = s.log

end Slac

/-- Calls other than sending the key or an average -/
def SlacAction.isQuiet : SlacAction → Bool
  | .writeBurst (.slacMatchConfirmation ..) => false
  | .writeBurst (.attenCharIndication ..) => false
  | _ => true

namespace Slac

/-- What has to be shown of a statement about steps, for frames of a kind -/
structure Rule (P : Slac → Reply → Prop) (ok : List UInt8 → Prop) : Prop where
  andThen : ∀ {s reply next}, P s reply → P reply.1 (next reply.1) → P s (Reply.andThen reply next)
  idle : ∀ {s reply}, tracks reply.1.state = false → reply.1.log = s.log →
    reply.2.all SlacAction.isQuiet = true → P s reply
  keep : ∀ {s reply}, SameMatching s reply.1 → reply.2.all SlacAction.isQuiet = true → P s reply
  average : ∀ s now, s.averagesOnTimeout = true → P s (s.sendAttenCharIndication now)
  receive : ∀ s now config frame, ok frame → P s (s.receive now config frame)

/-- The frames that an event brings -/
def Event.frames : Event → List (List UInt8)
  | .loop inputs => inputs.frames
  | .tap _ _ frame => [frame]
  | _ => []

section

variable {P : Slac → Reply → Prop} {ok : List UInt8 → Prop} (rule : Rule P ok)
include rule

variable (s : Slac) (sha256 : List UInt8 → List UInt8) (inputs : SlacInputs)

theorem Rule.refl : P s (s, []) :=
  rule.keep ⟨rfl, rfl, rfl, rfl, rfl, rfl, rfl⟩ rfl

/-- A function without calls in front of another one -/
theorem Rule.before {s t : Slac} {reply : Reply} (h : P s (t, [])) (hreply : P t reply) :
    P s reply :=
  @Rule.andThen P ok rule s (t, []) (fun _ => reply) h hreply

theorem Rule.handleModemReset : P s (s.handleModemReset, []) := rule.idle rfl rfl rfl

theorem Rule.readAndDispatch (now : Nat) (config : SlacConfig) {frame : List UInt8}
    (hframe : ok frame) : P s (s.readAndDispatchTapFrame now config frame) := by
  unfold readAndDispatchTapFrame
  split_ifs
  · exact rule.refl s
  · exact rule.refl s
  · exact rule.receive s now config frame hframe

theorem Rule.drainFrames (now : Nat) (config : SlacConfig) {frames : List (List UInt8)}
    (hframes : ∀ frame ∈ frames, ok frame) : P s (Slac.drainFrames now config frames s) := by
  induction frames generalizing s with
  | nil => exact rule.refl s
  | cons frame rest ih =>
    unfold Slac.drainFrames
    split_ifs
    · exact rule.refl s
    · exact rule.andThen (rule.readAndDispatch s now config (hframes _ (List.mem_cons_self ..)))
        (ih _ fun other hmem => hframes other (List.mem_cons_of_mem _ hmem))

theorem Rule.observe : P s (s.observe inputs) := by
  refine rule.before (t := s.updateIecStateTracking inputs.iecState)
    (rule.keep ⟨rfl, rfl, rfl, rfl, rfl, rfl, rfl⟩ rfl) ?_
  refine rule.before
    (t := (s.updateIecStateTracking inputs.iecState).checkModemDetectedInvariant) ?_ ?_
  · unfold checkModemDetectedInvariant
    split_ifs
    · exact rule.refl _
    · split
      · exact rule.refl _
      · exact rule.refl _
      · exact rule.refl _
      · exact rule.handleModemReset _
  · unfold Slac.observe handleTentativeStateA
    split_ifs
    · exact rule.refl _
    · exact rule.keep ⟨rfl, rfl, rfl, rfl, rfl, rfl, rfl⟩ rfl
    · exact rule.keep ⟨rfl, rfl, rfl, rfl, rfl, rfl, rfl⟩ rfl
    · exact rule.idle rfl rfl rfl
    · exact rule.refl _

theorem Rule.abortSlacInit :
    P s ((s.startSlacInit inputs).abortSlacInit inputs) := by
  refine rule.before (t := s.startSlacInit inputs) ?_ ?_
  · unfold startSlacInit
    split_ifs
    · exact rule.keep ⟨rfl, rfl, rfl, rfl, rfl, rfl, rfl⟩ rfl
    · exact rule.refl s
  · unfold Slac.abortSlacInit
    split_ifs
    · exact rule.idle rfl rfl rfl
    · exact rule.refl _

theorem Rule.handleModemInitialization {s : Slac} (hstate : s.state = .modemInitialization)
    (inputs : SlacInputs) : P s (s.handleModemInitialization inputs, []) := by
  have hidle : tracks s.state = false := by rw [hstate]; rfl
  unfold Slac.handleModemInitialization
  split_ifs
  · exact rule.refl s
  · exact rule.refl s
  · unfold probeModem
    split_ifs
    · refine rule.idle ?_ rfl rfl
      dsimp only
      split_ifs
      · rfl
      · exact hidle
    · exact rule.idle rfl rfl rfl
    · exact rule.idle rfl rfl rfl

theorem Rule.initiate :
    P s ((s.detectLink inputs).initiate sha256 inputs) := by
  refine rule.before (t := s.detectLink inputs) ?_ ?_
  · unfold detectLink
    split_ifs
    · exact rule.idle rfl rfl rfl
    · exact rule.refl s
  · unfold Slac.initiate
    split
    · exact rule.handleModemReset _
    · exact rule.handleModemInitialization (by assumption) inputs
    · exact rule.idle rfl rfl rfl
    · exact rule.idle rfl rfl rfl
    · exact rule.idle rfl rfl rfl
    · exact rule.idle rfl rfl rfl
    · exact rule.refl _

theorem Rule.handleTimeout : P s (s.handleTimeout inputs) := by
  unfold Slac.handleTimeout
  by_cases haverages : s.averagesOnTimeout = true
  · rw [if_pos haverages]
    exact rule.average s inputs.now haverages
  · rw [if_neg haverages]
    split
    · split_ifs
      · exact rule.idle rfl rfl rfl
      · exact rule.handleModemReset s
    · exact rule.idle rfl rfl rfl
    · exact rule.idle rfl rfl rfl
    · exact rule.idle rfl rfl rfl
    · unfold handleSlacInitTimeout
      dsimp only
      split_ifs <;> exact rule.idle rfl rfl rfl
    · exact rule.idle rfl rfl rfl
    · exact rule.handleModemReset s

theorem Rule.handleTimeouts {inputs : SlacInputs}
    (hframes : ∀ frame ∈ inputs.frames, ok frame) : P s (s.handleTimeouts inputs) := by
  unfold Slac.handleTimeouts
  split_ifs
  · refine rule.andThen (rule.drainFrames s _ _ fun frame hmem => hframes frame ?_) ?_
    · exact List.mem_of_mem_take hmem
    · split_ifs
      · exact rule.handleTimeout _ inputs
      · exact rule.refl _
  · exact rule.refl s

theorem Rule.stateMachineLoop {inputs : SlacInputs}
    (hframes : ∀ frame ∈ inputs.frames, ok frame) :
    P s (s.stateMachineLoop sha256 inputs) := by
  refine rule.andThen (rule.observe s inputs) ?_
  split_ifs
  · exact rule.refl _
  · refine rule.andThen (rule.abortSlacInit _ inputs) ?_
    exact rule.andThen (rule.initiate _ sha256 inputs) (rule.handleTimeouts _ hframes)

/-- A rule holds of every step that brings frames of its kind only. -/
theorem Rule.step {event : Event}
    (hframes : ∀ frame ∈ event.frames, ok frame) : P s (s.step sha256 event) := by
  cases event with
  | loop inputs => exact rule.stateMachineLoop s sha256 hframes
  | tap now config frame =>
    exact rule.readAndDispatch s now config (hframes frame (List.mem_singleton_self frame))
  | linkUpTask =>
    unfold Slac.step linkUpTaskCallback
    dsimp only
    split_ifs <;> exact rule.keep ⟨rfl, rfl, rfl, rfl, rfl, rfl, rfl⟩ rfl
  | outside change =>
    cases change with
    | disable | setFlags => exact rule.keep ⟨rfl, rfl, rfl, rfl, rfl, rfl, rfl⟩ rfl
    | _ => exact rule.idle rfl rfl rfl

end

theorem reportEv_fields (s : Slac) :
    s.reportEv.1.state = s.state ∧ s.reportEv.1.pevMac = s.pevMac ∧
      s.reportEv.1.pevRunId = s.pevRunId ∧ s.reportEv.1.receivedAagLists = s.receivedAagLists ∧
      s.reportEv.1.log = s.log := by
  unfold reportEv
  split <;> exact ⟨rfl, rfl, rfl, rfl, rfl⟩

/-- What a profile does: nothing, or it counts. -/
theorem attenProfile_cases (s : Slac) (now : Nat) (pevMac : List UInt8) (numGroups : Nat)
    (aag : List UInt8) :
    s.handleCmAttenProfileIndication now pevMac numGroups aag = (s, []) ∨
      s.state = .waitForMNBCSound ∧ pevMac = s.pevMac ∧ numGroups = slacAagListLength ∧
        ∃ counted : Slac, counted = { s with
            aagList := addProfile s.aagList aag
            receivedAagLists := (s.receivedAagLists + 1) % 256 } ∧
          ((counted.receivedAagLists = counted.indicationNumSounds ∧
              s.handleCmAttenProfileIndication now pevMac numGroups aag =
                counted.sendAttenCharIndication now) ∨
            (counted.receivedAagLists ≠ counted.indicationNumSounds ∧
              s.handleCmAttenProfileIndication now pevMac numGroups aag = (counted, []))) := by
  unfold handleCmAttenProfileIndication
  by_cases hstate : s.state = .waitForMNBCSound
  · by_cases hmac : pevMac = s.pevMac
    · by_cases hgroups : numGroups = slacAagListLength
      · simp only [hstate, hmac, hgroups, ne_eq, not_true_eq_false, if_false]
        refine .inr ⟨trivial, trivial, trivial, _, rfl, ?_⟩
        by_cases hall : (s.receivedAagLists + 1) % 256 = s.indicationNumSounds
        · exact .inl ⟨hall, if_pos hall⟩
        · exact .inr ⟨hall, if_neg hall⟩
      · left
        rw [if_neg (not_not_intro hstate), if_neg (not_not_intro hmac), if_pos hgroups]
    · left
      rw [if_neg (not_not_intro hstate), if_pos hmac]
  · left
    rw [if_pos hstate]

/-- What a request does: nothing, or it starts the matching of its vehicle. -/
theorem slacParm_cases (s : Slac) (now : Nat) (sourceMac runId : List UInt8) :
    s.handleCmSlacParmRequest now sourceMac runId = (s, []) ∨
      ∃ admitted, s.admitParmRequest now sourceMac = some admitted ∧
        s.handleCmSlacParmRequest now sourceMac runId =
          admitted.andThen (startMatching now sourceMac runId) := by
  unfold handleCmSlacParmRequest
  cases hadmitted : s.admitParmRequest now sourceMac with
  | none => exact .inl rfl
  | some admitted => exact .inr ⟨admitted, rfl, rfl⟩

/-- What an answer does: nothing, or it ends the characterisation of the vehicle. -/
theorem attenCharResponse_cases (s : Slac) (now applicationType securityType : Nat)
    (sourceAddress runId : List UInt8) (result : Nat) :
    s.handleCmAttenCharResponse now applicationType securityType sourceAddress runId result = s ∨
      s.state = .waitForAttenChar ∧ result = 0x00 ∧ s.pevMac = sourceAddress ∧
        s.pevRunId = runId ∧
        s.handleCmAttenCharResponse now applicationType securityType sourceAddress runId result =
          { s with nextTimeout := some (now + ms 10000), state := .waitForSlacMatch } := by
  unfold handleCmAttenCharResponse
  split_ifs with hstate happlication hsecurity hresult hmac hrunId
  · exact .inl rfl
  · exact .inl rfl
  · exact .inl rfl
  · exact .inl rfl
  · exact .inl rfl
  · exact .inl rfl
  · exact .inr ⟨not_not.mp hstate, not_not.mp hresult, not_not.mp hmac, not_not.mp hrunId, rfl⟩

/-- Only the flags of the session and of a retry cycle differ. -/
def Admits (s s' : Slac) : Prop :=
  ∃ deadline started retries temporary, s' = { s with
    tentativeStateADeadline := deadline
    sessionStartedInStateA := started
    slacInitRetryCount := retries
    iecTemporaryActive := temporary }

section

variable {s : Slac} {now : Nat} {sourceMac : List UInt8} {admitted : Reply}
  (h : s.admitParmRequest now sourceMac = some admitted)
include h

theorem admits_of_admitParmRequest : Admits s admitted.1 := by
  unfold admitParmRequest at h
  by_cases hiec : s.lastIecState = iecStateA
  · rw [if_pos hiec] at h
    split_ifs at h
    · cases h; exact ⟨_, _, _, _, rfl⟩
    · cases h; exact ⟨_, _, _, _, rfl⟩
  · rw [if_neg hiec] at h
    cases hstate : s.state <;> rw [hstate] at h <;> dsimp only at h
    case waitForSlacParamRequest => cases h; exact ⟨_, _, _, _, rfl⟩
    case slacInitEF => cases h; exact ⟨_, _, _, _, rfl⟩
    all_goals first
      | (split_ifs at h <;> cases h <;> exact ⟨_, _, _, _, rfl⟩)
      | cases h

/-- An admitted request sends nothing yet. -/
theorem admitted_actions (frame : Frame) : .writeBurst frame ∉ admitted.2 := by
  unfold admitParmRequest at h
  by_cases hiec : s.lastIecState = iecStateA
  · rw [if_pos hiec] at h
    split_ifs at h <;> cases h <;> exact List.not_mem_nil
  · rw [if_neg hiec] at h
    cases hstate : s.state <;> rw [hstate] at h <;> dsimp only at h
    case waitForSlacParamRequest => cases h; exact List.not_mem_nil
    case slacInitEF => cases h; simp [setChargingProtocol]
    all_goals first
      | (split_ifs at h <;> cases h <;> exact List.not_mem_nil)
      | cases h

end

/-- Dispatching leaves the log to `receive`. -/
theorem dispatch_log (s : Slac) (now : Nat) (config : SlacConfig) (message : Message) :
    (s.dispatch now config message).1.log = s.log := by
  cases message with
  | setKeyConfirmation result =>
    simp only [dispatch, handleCmSetKeyConfirmation]; split_ifs <;> rfl
  | slacParmRequest sourceMac runId =>
    rcases s.slacParm_cases now sourceMac runId with hnone | ⟨admitted, hadmitted, hsome⟩
    · simp only [dispatch, hnone]
    · obtain ⟨_, _, _, _, heq⟩ := admits_of_admitParmRequest hadmitted
      simp only [dispatch, hsome, Reply.andThen, startMatching, heq]
  | startAttenCharIndication =>
    simp only [dispatch, handleCmStartAttenCharIndication]; split_ifs <;> rfl
  | mnbcSoundIndication =>
    simp only [dispatch, handleCmMnbcSoundIndication]; split_ifs <;> rfl
  | attenProfileIndication pevMac numGroups aag =>
    rcases s.attenProfile_cases now pevMac numGroups aag with hnone | ⟨-, -, -, counted, hcounted,
      ⟨-, hsome⟩ | ⟨-, hsome⟩⟩
    · simp only [dispatch, hnone]
    · simp only [dispatch, hsome, sendAttenCharIndication, hcounted]
    · simp only [dispatch, hsome, hcounted]
  | attenCharResponse =>
    simp only [dispatch, handleCmAttenCharResponse]; split_ifs <;> rfl
  | validateRequest =>
    simp only [dispatch, handleCmValidateRequest]; split_ifs <;> rfl
  | slacMatchRequest =>
    have hreport := s.reportEv_fields.2.2.2.2
    simp only [dispatch, handleCmSlacMatchRequest]
    split_ifs
    · rfl
    · rfl
    · rfl
    · rfl
    · rfl
    · exact hreport
    · exact hreport
  | qualcommGetSwConfirmation =>
    simp only [dispatch, handleCmQualcommGetSwConfirmation]; split_ifs <;> rfl
  | qualcommLinkStatusConfirmation =>
    simp only [dispatch, handleCmQualcommLinkStatusConfirmation]; split_ifs <;> rfl
  | qualcommOpAttrConfirmation =>
    simp only [dispatch, handleCmQualcommOpAttrConfirmation]; split_ifs <;> rfl
  | qualcommHostActionIndication | moduleOperationConfirmation | unhandled => rfl

end Slac

end Esp32Firmware.Iso15118
