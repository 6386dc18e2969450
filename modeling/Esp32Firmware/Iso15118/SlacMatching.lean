import Esp32Firmware.Library.Unwinding
import Esp32Firmware.Iso15118.SlacRules

/-!
# Who gets the network key

The log of received frames tells which vehicle asked for matching last and how far it came. The
key of the network goes to that vehicle only, as long as every frame to which SLAC listens is
as long as its message.

## Implementation notes

Lists of received frames have the newest first. `Tracked` ties the state of the machine to the
log, it holds in every run. The length of the frames is only needed to read a message from the
bytes of its own frame.
-/

namespace Esp32Firmware.Iso15118

namespace Received

/-- The vehicle and run of a `CM_SLAC_PARM.REQ` that was accepted -/
def request (r : Received) : Option (List UInt8 × List UInt8) :=
  match r.message with
  | .slacParmRequest mac runId =>
    if .writeBurst (.slacParmConfirmation mac runId) ∈ r.actions then some (mac, runId) else none
  | _ => none

/-- An attenuation profile of the vehicle in a sounding phase -/
def isProfileOf (mac : List UInt8) (r : Received) : Bool :=
  match r.message with
  | .attenProfileIndication pevMac numGroups _ =>
    r.state = .waitForMNBCSound && pevMac = mac && numGroups = slacAagListLength
  | _ => false

/-- A successful answer to the attenuation characterisation -/
def answers (mac runId : List UInt8) (r : Received) : Bool :=
  match r.message with
  | .attenCharResponse _ _ sourceAddress id result =>
    r.state = .waitForAttenChar && sourceAddress = mac && id = runId && result = 0x00
  | _ => false

/-- The frame is shorter than the message it claims to be. -/
def isShort (r : Received) : Bool :=
  r.type.any fun type => (r.frame.take slacEthernetFrameLengthMax).length < type.size

end Received

def SlacAction.releasesKey : SlacAction → Bool
  | .writeBurst (.slacMatchConfirmation ..) => true
  | _ => false

/-- The `CM_SLAC_PARM.REQ` that was accepted last -/
def lastRequest : List Received → Option (List UInt8 × List UInt8)
  | [] => none
  | r :: older => r.request.or (lastRequest older)

/-- A profile of the vehicle came since the last request. -/
def profiled (mac : List UInt8) : List Received → Bool
  | [] => false
  | r :: older => r.request.isNone && (r.isProfileOf mac || profiled mac older)

/-- The characterisation was answered since the last request, behind a profile. -/
def answered (mac runId : List UInt8) : List Received → Bool
  | [] => false
  | r :: older =>
    r.request.isNone && ((r.answers mac runId && profiled mac older) || answered mac runId older)

/-- If this frame is answered with the key, it is a `CM_SLAC_MATCH.REQ` whose own bytes name the
vehicle and run of the last request and this charger, the characterisation of that vehicle was
answered and the session is not tentative without a vehicle. -/
def KeyToMatched (r : Received) (older : List Received) : Prop :=
  r.actions.any SlacAction.releasesKey = true → messageType r.frame = some .slacMatchRequest ∧
      lastRequest older = some (sourceMac r.frame, field r.frame 69 8) ∧
      field r.frame 63 6 = r.evseMac ∧
      answered (sourceMac r.frame) (field r.frame 69 8) older = true ∧
      ¬(r.tentative = true ∧ r.lastIecState = iecStateA)

/-- A frame that is too short changes no state and is not answered. -/
def ShortIgnored (r : Received) : Prop :=
  r.isShort = true → r.after = r.state ∧ r.actions = []

/-- Both hold of every frame in the log. -/
def Secure : List Received → Prop
  | [] => True
  | r :: older => KeyToMatched r older ∧ ShortIgnored r ∧ Secure older

instance (r : Received) (older : List Received) : Decidable (KeyToMatched r older) :=
  inferInstanceAs (Decidable (_ → _))

instance (r : Received) : Decidable (ShortIgnored r) := inferInstanceAs (Decidable (_ → _))

instance Secure.decidable : (log : List Received) → Decidable (Secure log)
  | [] => isTrue trivial
  | _ :: older => @instDecidableAnd _ _ _ (@instDecidableAnd _ _ _ (Secure.decidable older))

/-- The states in which a message of the type is looked at -/
def heeds (state : SlacState) (lastIecState : Nat) (tentative : Bool) : MessageType → Bool
  | .setKeyConfirmation => state = .waitForCMSetKeyConfirmation
  | .slacParmRequest =>
    if lastIecState = iecStateA then state = .waitForSlacParamRequest || tentative
    else
      state = .waitForSlacParamRequest || state = .slacInitEF || Slac.inMatching state ||
        state = .waitForSDP || state = .linkDetected
  | .startAttenCharIndication =>
    state = .waitForStartAttenCharIndication || state = .waitForMNBCSound
  | .mnbcSoundIndication => state = .waitForMNBCSound
  | .attenProfileIndication => state = .waitForMNBCSound
  | .attenCharResponse => state = .waitForAttenChar
  | .validateRequest => state = .waitForSlacMatch
  | .slacMatchRequest => state = .waitForSlacMatch || state = .waitForSDP
  | .qualcommGetSwConfirmation => state = .waitForCMQualcommGetSwResponse
  | .qualcommLinkStatusConfirmation => state = .waitForCMQualcommLinkStatusResponse
  | .qualcommOpAttrConfirmation => state = .waitForCMQualcommOpAttrResponse
  | .qualcommHostActionIndication => false
  | .moduleOperationConfirmation => false

/-- A frame of a type that SLAC listens to in its state -/
def Received.isHeeded (r : Received) : Bool :=
  r.type.any (heeds r.state r.lastIecState r.tentative)

namespace Slac

/-- The buffer is the only thing that changes for a message that is not listened to. -/
theorem dispatch_of_not_heeds (now : Nat) (config : SlacConfig) (s : Slac) (buffer : List UInt8)
    (h : (messageType buffer).all fun type =>
      !heeds s.state s.lastIecState s.tentativeStateADeadline.isSome type) :
    s.dispatch now config (Message.ofBuffer buffer) = (s, []) := by
  cases htype : messageType buffer with
  | none => simp only [Message.ofBuffer, htype, dispatch]
  | some type =>
    simp only [htype, Option.all_some, Bool.not_eq_true'] at h
    simp only [Message.ofBuffer, htype]
    cases type
    case slacParmRequest =>
      have hadmitted : s.admitParmRequest now (sourceMac buffer) = none := by
        by_cases hiec : s.lastIecState = iecStateA
        · simp only [heeds, if_pos hiec, Bool.or_eq_false_iff, decide_eq_false_iff_not] at h
          simp only [admitParmRequest, if_pos hiec, if_neg h.1, h.2, Bool.false_eq_true, if_false]
        · simp only [heeds] at h
          simp only [admitParmRequest]
          cases hstate : s.state <;> simp_all [inMatching]
      simp only [Message.parse, dispatch, handleCmSlacParmRequest, hadmitted]
    all_goals
      simp only [heeds, Bool.or_eq_false_iff, decide_eq_false_iff_not] at h
      simp [Message.parse, dispatch, handleCmSetKeyConfirmation,
        handleCmStartAttenCharIndication, handleCmMnbcSoundIndication,
        handleCmAttenProfileIndication, handleCmAttenCharResponse, handleCmValidateRequest,
        handleCmSlacMatchRequest, handleCmQualcommGetSwConfirmation,
        handleCmQualcommLinkStatusConfirmation, handleCmQualcommOpAttrConfirmation, h]

structure Tracked (s : Slac) : Prop where
  request : tracks s.state = true → lastRequest s.log = some (s.pevMac, s.pevRunId)
  sounded : s.state = .waitForMNBCSound → 0 < s.receivedAagLists → profiled s.pevMac s.log = true
  averaged : s.state = .waitForAttenChar → profiled s.pevMac s.log = true
  answered : s.state = .waitForSlacMatch ∨ s.state = .waitForSDP →
    answered s.pevMac s.pevRunId s.log = true

variable {s : Slac} {r : Received} {message : Message} {reply : Reply}

theorem Tracked.idle (h : tracks s.state = false) : Tracked s := by
  refine ⟨fun ht => ?_, fun hs => ?_, fun hs => ?_, fun hs => ?_⟩
  · rw [h] at ht; cases ht
  · rw [hs] at h; cases h
  · rw [hs] at h; cases h
  · rcases hs with hs | hs <;> rw [hs] at h <;> cases h

theorem Tracked.congr {s' : Slac} (h : Tracked s) (hsame : SameMatching s s') : Tracked s' := by
  refine ⟨?_, ?_, ?_, ?_⟩
  · rw [hsame.state, hsame.log, hsame.pevMac, hsame.pevRunId]; exact h.request
  · rw [hsame.state, hsame.log, hsame.pevMac, hsame.receivedAagLists]; exact h.sounded
  · rw [hsame.state, hsame.log, hsame.pevMac]; exact h.averaged
  · rw [hsame.state, hsame.log, hsame.pevMac, hsame.pevRunId]; exact h.answered

section

variable (h : Tracked s)
include h

/-- A frame that is no accepted request leaves what is known of the vehicle. -/
theorem Tracked.received (hr : r.request = none) : Tracked { s with log := r :: s.log } := by
  refine ⟨fun ht => ?_, fun hs hpos => ?_, fun hs => ?_, fun hs => ?_⟩
  · simp only [lastRequest, hr]; exact h.request ht
  · simp only [profiled, hr, h.sounded hs hpos, Option.isNone_none, Bool.or_true, Bool.and_true]
  · simp only [profiled, hr, h.averaged hs, Option.isNone_none, Bool.or_true, Bool.and_true]
  · simp only [Iso15118.answered, hr, h.answered hs, Option.isNone_none, Bool.or_true,
      Bool.and_true]

theorem Tracked.setKeyConfirmation (result : Nat) :
    Tracked (s.handleCmSetKeyConfirmation result) := by
  unfold handleCmSetKeyConfirmation
  split
  · exact h
  · split <;> exact .idle rfl

theorem Tracked.qualcommConfirmations (now : Nat) :
    Tracked (s.handleCmQualcommGetSwConfirmation now) ∧
      Tracked (s.handleCmQualcommLinkStatusConfirmation now) ∧
      Tracked s.handleCmQualcommOpAttrConfirmation := by
  refine ⟨?_, ?_, ?_⟩
  · unfold handleCmQualcommGetSwConfirmation
    split
    · exact h
    · exact .idle rfl
  · unfold handleCmQualcommLinkStatusConfirmation
    split
    · exact h
    · exact .idle rfl
  · unfold handleCmQualcommOpAttrConfirmation
    split
    · exact h
    · exact .idle rfl

/-- A new sounding phase starts without profiles. -/
theorem Tracked.startAttenChar (now : Nat) (applicationType securityType numSounds respType : Nat) :
    Tracked (s.handleCmStartAttenCharIndication now applicationType securityType numSounds
      respType) := by
  unfold handleCmStartAttenCharIndication
  split
  · exact h
  · rename_i hstate
    have ht : tracks s.state = true := by
      by_cases hs : s.state = .waitForStartAttenCharIndication
      · rw [hs]; rfl
      · have hs' : s.state = .waitForMNBCSound := by
          by_contra hne
          exact hstate ⟨hs, hne⟩
        rw [hs']; rfl
    split
    · exact h
    · split
      · exact h
      · split
        · exact h
        · refine ⟨fun _ => h.request ht, fun _ hpos => ?_, fun hs => ?_, fun hs => ?_⟩
          · exact absurd hpos (Nat.lt_irrefl 0)
          · cases hs
          · rcases hs with hs | hs <;> cases hs

theorem Tracked.mnbcSound : Tracked s.handleCmMnbcSoundIndication := by
  unfold handleCmMnbcSoundIndication
  split
  · exact h
  · exact h.congr ⟨rfl, rfl, rfl, rfl, rfl, rfl, rfl⟩

theorem Tracked.validate (signalType result : Nat) :
    Tracked (s.handleCmValidateRequest signalType result).1 := by
  unfold handleCmValidateRequest
  split
  · exact h
  · split
    · exact h
    · split <;> exact h

theorem Tracked.slacMatch (now : Nat) (config : SlacConfig)
    (sourceMac pevId pevMac evseId evseMac runId : List UInt8) :
    Tracked (s.handleCmSlacMatchRequest now config sourceMac pevId pevMac evseId evseMac
      runId).1 := by
  unfold handleCmSlacMatchRequest
  split
  · exact h
  · rename_i hstate
    have hs : s.state = .waitForSlacMatch ∨ s.state = .waitForSDP := by
      by_contra hne
      exact hstate ⟨fun hm => hne (.inl hm), fun hm => hne (.inr hm)⟩
    obtain ⟨hreport, hmac, hrunId, -, hlog⟩ := reportEv_fields s
    split_ifs
    · exact h
    · exact h
    · exact h
    · exact h
    · exact .idle rfl
    · -- The characterisation stays answered in `WaitForSDP`.
      have hanswered := h.answered hs
      have hrequest := h.request (tracks_of_match hs)
      refine ⟨fun _ => ?_, fun hm => ?_, fun hm => ?_, fun _ => ?_⟩
      · simpa only [Reply.andThen, confirmMatch, hmac, hrunId, hlog] using hrequest
      · cases hm
      · cases hm
      · simpa only [Reply.andThen, confirmMatch, hmac, hrunId, hlog] using hanswered

end

/-- The message is neither a request, nor a profile, nor an answer. -/
def isPlain : Message → Bool
  | .slacParmRequest .. => false
  | .attenProfileIndication .. => false
  | .attenCharResponse .. => false
  | _ => true

theorem Tracked.dispatch_plain (h : Tracked s) (now : Nat) (config : SlacConfig)
    (hplain : isPlain message = true) :
    Tracked (s.dispatch now config message).1 := by
  cases message with
  | setKeyConfirmation result => exact h.setKeyConfirmation result
  | slacParmRequest | attenProfileIndication | attenCharResponse => cases hplain
  | startAttenCharIndication => exact h.startAttenChar ..
  | mnbcSoundIndication => exact h.mnbcSound
  | validateRequest => exact h.validate ..
  | slacMatchRequest => exact h.slacMatch ..
  | qualcommGetSwConfirmation => exact (h.qualcommConfirmations now).1
  | qualcommLinkStatusConfirmation => exact (h.qualcommConfirmations now).2.1
  | qualcommOpAttrConfirmation => exact (h.qualcommConfirmations now).2.2
  | qualcommHostActionIndication | moduleOperationConfirmation | unhandled => exact h

/-- An accepted request is the last one, of the vehicle that SLAC now holds. -/
theorem Tracked.requested (hstate : s.state = .waitForStartAttenCharIndication)
    (hr : r.request = some (s.pevMac, s.pevRunId)) : Tracked { s with log := r :: s.log } := by
  refine ⟨fun _ => ?_, fun hs => ?_, fun hs => ?_, fun hs => ?_⟩
  · simp only [lastRequest, hr, Option.some_or]
  · rw [hstate] at hs; cases hs
  · rw [hstate] at hs; cases hs
  · rw [hstate] at hs; rcases hs with hs | hs <;> cases hs

/-- A profile that counts is a profile of the vehicle. -/
theorem Tracked.profile {s s' : Slac} {r : Received} (h : Tracked s)
    (hstate : s.state = .waitForMNBCSound)
    (hr : r.request = none) (hprofile : r.isProfileOf s.pevMac = true)
    (hmac : s'.pevMac = s.pevMac) (hrunId : s'.pevRunId = s.pevRunId) (hlog : s'.log = s.log)
    (hnext : s'.state = .waitForMNBCSound ∨ s'.state = .waitForAttenChar) :
    Tracked { s' with log := r :: s'.log } := by
  have hprofiled : profiled s.pevMac (r :: s.log) = true := by
    simp only [profiled, hr, hprofile, Option.isNone_none, Bool.true_or, Bool.and_true]
  refine ⟨fun _ => ?_, fun _ _ => ?_, fun _ => ?_, fun hs => ?_⟩
  · simp only [lastRequest, hr, hlog, hmac, hrunId]
    exact h.request (by rw [hstate]; rfl)
  · simp only [hmac, hlog]; exact hprofiled
  · simp only [hmac, hlog]; exact hprofiled
  · rcases hnext with hn | hn <;> rcases hs with hs | hs <;> rw [hn] at hs <;> cases hs

theorem Tracked.response (h : Tracked s) (hstate : s.state = .waitForAttenChar)
    (hr : r.request = none) (hanswers : r.answers s.pevMac s.pevRunId = true)
    (deadline : Option Nat) :
    Tracked { s with
      nextTimeout := deadline
      state := .waitForSlacMatch
      log := r :: s.log } := by
  refine ⟨fun _ => ?_, fun hs => ?_, fun hs => ?_, fun _ => ?_⟩
  · simp only [lastRequest, hr]
    exact h.request (by rw [hstate]; rfl)
  · cases hs
  · cases hs
  · simp only [Iso15118.answered, hr, hanswers, h.averaged hstate, Option.isNone_none,
      Bool.and_true, Bool.true_or]

theorem request_of_plain (h : isPlain r.message = true) : r.request = none := by
  unfold Received.request
  split
  · rename_i hmessage
    rw [hmessage] at h
    cases h
  · rfl

/-- A message and its entry in the log keep the state in line with the log. -/
theorem Tracked.dispatch (h : Tracked s) (now : Nat) (config : SlacConfig)
    (hstate : r.state = s.state) (hmessage : r.message = message)
    (hactions : r.actions = (s.dispatch now config message).2) :
    Tracked { (s.dispatch now config message).1 with
      log := r :: (s.dispatch now config message).1.log } := by
  by_cases hplain : isPlain message = true
  · exact (h.dispatch_plain now config hplain).received (request_of_plain (hmessage ▸ hplain))
  cases message
  case slacParmRequest mac runId =>
    rcases s.slacParm_cases now mac runId with hnone | ⟨admitted, hadmitted, hsome⟩
    · have hr : r.request = none := by
        simp only [Received.request, hmessage, hactions, Slac.dispatch, hnone, List.not_mem_nil,
          if_false]
      simp only [Slac.dispatch, hnone]
      exact h.received hr
    · obtain ⟨_, _, _, _, heq⟩ := admits_of_admitParmRequest hadmitted
      have hr : r.request = some (mac, runId) := by
        simp [Received.request, hmessage, hactions, Slac.dispatch, hsome, Reply.andThen,
          startMatching]
      simp only [Slac.dispatch, hsome]
      exact Tracked.requested (s := (admitted.andThen (startMatching now mac runId)).1) rfl hr
  case attenProfileIndication mac numGroups aag =>
    have hr : r.request = none := by simp only [Received.request, hmessage]
    rcases s.attenProfile_cases now mac numGroups aag with
      hnone | ⟨hsounding, rfl, rfl, counted, hcounted, ⟨-, hsome⟩ | ⟨-, hsome⟩⟩
    · simp only [Slac.dispatch, hnone]
      exact h.received hr
    all_goals
      have hprofile : r.isProfileOf s.pevMac = true := by
        simp [Received.isProfileOf, hmessage, hstate, hsounding]
      simp only [Slac.dispatch, hsome]
    · exact @Tracked.profile s (counted.sendAttenCharIndication now).1 r h hsounding hr hprofile
        (by rw [hcounted]; rfl) (by rw [hcounted]; rfl) (by rw [hcounted]; rfl) (.inr rfl)
    · exact h.profile hsounding hr hprofile (by rw [hcounted]) (by rw [hcounted])
        (by rw [hcounted]) (.inl (by rw [hcounted]; exact hsounding))
  case attenCharResponse applicationType securityType mac runId result =>
    have hr : r.request = none := by simp only [Received.request, hmessage]
    rcases s.attenCharResponse_cases now applicationType securityType mac runId result with
      hsame | ⟨hwait, hresult, hmac, hrunId, hnext⟩
    · simp only [Slac.dispatch, hsame]
      exact h.received hr
    · have hanswers : r.answers s.pevMac s.pevRunId = true := by
        simp [Received.answers, hmessage, hstate, hwait, hresult, hmac, hrunId]
      simp only [Slac.dispatch, hnext]
      exact h.response hwait hr hanswers _
  all_goals exact absurd rfl hplain

theorem Tracked.receive (h : Tracked s) (now : Nat) (config : SlacConfig) (frame : List UInt8) :
    Tracked (s.receive now config frame).1 := by
  have hs : Tracked { s with buffer := readFrame s.buffer frame } :=
    h.congr ⟨rfl, rfl, rfl, rfl, rfl, rfl, rfl⟩
  exact hs.dispatch (r := s.entry frame _) now config rfl rfl rfl

/-- The key is only sent by the handler of `CM_SLAC_MATCH.REQ`, behind its guards. -/
theorem key_guards {now : Nat} {config : SlacConfig}
    (h : (s.dispatch now config message).2.any SlacAction.releasesKey = true) :
    ∃ pevId pevMac evseId,
      message = .slacMatchRequest s.pevMac pevId pevMac evseId s.evseMac s.pevRunId ∧
        (s.state = .waitForSlacMatch ∨ s.state = .waitForSDP) ∧
        ¬(s.tentativeStateADeadline.isSome = true ∧ s.lastIecState = iecStateA) := by
  cases message with
  | slacMatchRequest sourceMac pevId pevMac evseId evseMac runId =>
    simp only [dispatch, handleCmSlacMatchRequest] at h
    split_ifs at h with hstate hmac hrunId hevse htentative
    · cases h
    · cases h
    · cases h
    · cases h
    · cases h
    all_goals
      refine ⟨pevId, pevMac, evseId, ?_, ?_, htentative⟩
      · rw [not_not.mp hmac, not_not.mp hrunId, not_not.mp hevse]
      · by_contra hne
        exact hstate ⟨fun hm => hne (.inl hm), fun hm => hne (.inr hm)⟩
  | slacParmRequest mac runId =>
    exfalso
    rcases s.slacParm_cases now mac runId with hnone | ⟨admitted, hadmitted, hsome⟩
    · simp only [dispatch, hnone, List.any_nil, Bool.false_eq_true] at h
    · obtain ⟨action, hmem, hkey⟩ := List.any_eq_true.mp h
      cases action with
      | writeBurst frame =>
        simp only [dispatch, hsome, Reply.andThen, startMatching, List.mem_append,
          List.mem_cons, List.not_mem_nil, or_false] at hmem
        rcases hmem with hmem | hmem | hmem
        · exact admitted_actions hadmitted frame hmem
        · cases hmem
        · cases hmem; cases hkey
      | _ => cases hkey
  | attenProfileIndication mac numGroups aag =>
    exfalso
    rcases s.attenProfile_cases now mac numGroups aag with
      hnone | ⟨-, -, -, counted, -, ⟨-, hsome⟩ | ⟨-, hsome⟩⟩
    · simp only [dispatch, hnone, List.any_nil, Bool.false_eq_true] at h
    · simp only [dispatch, hsome, sendAttenCharIndication, List.any_cons, List.any_nil,
        SlacAction.releasesKey, Bool.or_false, Bool.false_eq_true] at h
    · simp only [dispatch, hsome, List.any_nil, Bool.false_eq_true] at h
  | validateRequest signalType result =>
    exfalso
    simp only [dispatch, handleCmValidateRequest] at h
    split_ifs at h <;> cases h
  | _ => cases h

theorem messageType_of_slacMatchRequest {buffer : List UInt8}
    {sourceMac pevId pevMac evseId evseMac runId : List UInt8}
    (h : Message.ofBuffer buffer = .slacMatchRequest sourceMac pevId pevMac evseId evseMac runId) :
    messageType buffer = some .slacMatchRequest := by
  unfold Message.ofBuffer at h
  cases htype : messageType buffer with
  | none => rw [htype] at h; cases h
  | some type => rw [htype] at h; cases type <;> first | rfl | cases h

theorem isWholeFrame_of_not_short {frame : List UInt8} (h : (s.entry frame reply).isShort = false) :
    isWholeFrame s.buffer frame = true := by
  simp only [entry, isWholeFrame] at h ⊢
  cases htype : messageType (readFrame s.buffer frame) with
  | none => rfl
  | some type =>
    rw [htype] at h
    have hsize := of_decide_eq_false h
    simpa only [Option.all_some, decide_eq_true_eq, not_lt] using hsize

/-- With a frame that is long enough the key goes to the vehicle that SLAC holds. -/
theorem Tracked.keyToMatched (h : Tracked s) (now : Nat) (config : SlacConfig) (frame : List UInt8)
    (hr : r = s.entry frame (s.handleFrame now config frame))
    (hwhole : r.isHeeded = true → r.isShort = false) : KeyToMatched r s.log := by
  intro hkey
  have hactions : (s.handleFrame now config frame).2.any SlacAction.releasesKey = true := by
    rw [hr] at hkey
    exact hkey
  obtain ⟨pevId, pevMac, evseId, hmessage, hstate, htentative⟩ := key_guards hactions
  have htype := messageType_of_slacMatchRequest hmessage
  have hheeded : r.isHeeded = true := by
    simp only [hr, Received.isHeeded, entry, htype, Option.any_some, heeds, Bool.or_eq_true,
      decide_eq_true_eq]
    exact hstate
  have hshort : (s.entry frame _).isShort = false := hr ▸ hwhole hheeded
  obtain ⟨hframe, hown⟩ := Message.ofBuffer_readFrame (isWholeFrame_of_not_short hshort) htype
  rw [hown, Message.ofBuffer, hframe] at hmessage
  simp only [Message.parse, Message.slacMatchRequest.injEq] at hmessage
  obtain ⟨hmac, -, -, -, hevse, hrunId⟩ := hmessage
  subst hr
  refine ⟨hframe, ?_, hevse, ?_, htentative⟩
  · simp only [entry, hmac, hrunId]
    exact h.request (tracks_of_match hstate)
  · simp only [entry, hmac, hrunId]
    exact h.answered hstate

theorem shortIgnored (now : Nat) (config : SlacConfig) (frame : List UInt8)
    (hr : r = s.entry frame (s.handleFrame now config frame))
    (hwhole : r.isHeeded = true → r.isShort = false) : ShortIgnored r := by
  intro hshort
  have hheeded : r.isHeeded = false := by
    by_contra hne
    rw [hwhole (Bool.eq_true_of_not_eq_false hne)] at hshort
    cases hshort
  have hignored := dispatch_of_not_heeds now config { s with buffer := readFrame s.buffer frame }
    (readFrame s.buffer frame) (by
      rw [hr] at hheeded
      simp only [Received.isHeeded, entry] at hheeded
      cases htype : messageType (readFrame s.buffer frame) with
      | none => rfl
      | some type =>
        rw [htype] at hheeded
        simpa only [Option.all_some, Bool.not_eq_true', Option.any_some] using hheeded)
  rw [hr, Slac.handleFrame, hignored]
  exact ⟨rfl, rfl⟩

/-- The log grew, it holds every release of the key, and it is secure if the frames are. -/
structure Logs (s : Slac) (reply : Reply) : Prop where
  grows : s.log <:+ reply.1.log
  keys : ∀ action ∈ reply.2, action.releasesKey = true → ∃ r ∈ reply.1.log, action ∈ r.actions
  secure : (∀ r ∈ reply.1.log, r.isHeeded = true → r.isShort = false) → Secure s.log →
    Secure reply.1.log

theorem Logs.quiet (hlog : reply.1.log = s.log)
    (hactions : reply.2.all (fun action => !action.releasesKey) = true) : Logs s reply := by
  refine ⟨by rw [hlog], fun action hmem hkey => ?_, fun _ hsecure => by rw [hlog]; exact hsecure⟩
  have hnot := List.all_eq_true.mp hactions action hmem
  rw [hkey] at hnot
  cases hnot

theorem Logs.andThen {s : Slac} {reply : Reply} {next : Slac → Reply} (h : Logs s reply)
    (hnext : Logs reply.1 (next reply.1)) : Logs s (reply.andThen next) := by
  refine ⟨h.grows.trans hnext.grows, fun action hmem hkey => ?_, fun hwhole hsecure => ?_⟩
  · rcases List.mem_append.mp hmem with hfirst | hrest
    · obtain ⟨r, hr, haction⟩ := h.keys action hfirst hkey
      exact ⟨r, hnext.grows.subset hr, haction⟩
    · exact hnext.keys action hrest hkey
  · exact hnext.secure hwhole
      (h.secure (fun r hr => hwhole r (hnext.grows.subset hr)) hsecure)

theorem Tracked.logs_receive {s : Slac} (h : Tracked s) (now : Nat) (config : SlacConfig)
    (frame : List UInt8) : Logs s (s.receive now config frame) := by
  have hlog : (s.receive now config frame).1.log =
      s.entry frame (s.handleFrame now config frame) :: s.log :=
    congrArg (_ :: ·) (dispatch_log ..)
  refine ⟨?_, fun action hmem _ => ?_, fun hwhole hsecure => ?_⟩
  · rw [hlog]
    exact List.suffix_cons ..
  · exact ⟨_, List.mem_cons_self .., hmem⟩
  · have hown := hwhole _ (List.mem_cons_self ..)
    rw [hlog]
    exact ⟨h.keyToMatched now config frame rfl hown,
      shortIgnored now config frame rfl hown, hsecure⟩

/-- The average is sent only if the vehicle has sent a profile. -/
theorem Tracked.average (h : Tracked s) (haverages : s.averagesOnTimeout = true) (now : Nat) :
    Tracked (s.sendAttenCharIndication now).1 := by
  simp only [Slac.averagesOnTimeout, Bool.or_eq_true, Bool.and_eq_true, decide_eq_true_eq]
    at haverages
  rcases haverages with ⟨hstate, hpos⟩ | ⟨hstate, -⟩
  · refine ⟨fun _ => h.request (by rw [hstate]; rfl), fun hs => ?_, fun _ => h.sounded hstate hpos,
      fun hs => ?_⟩
    · cases hs
    · rcases hs with hs | hs <;> cases hs
  · refine ⟨fun _ => h.request (by rw [hstate]; rfl), fun hs => ?_, fun _ => h.averaged hstate,
      fun hs => ?_⟩
    · cases hs
    · rcases hs with hs | hs <;> cases hs

theorem not_releasesKey_of_isQuiet {actions : List SlacAction}
    (h : actions.all SlacAction.isQuiet = true) :
    actions.all (fun action => !action.releasesKey) = true := by
  rw [List.all_eq_true] at h ⊢
  intro action hmem
  have hquiet := h action hmem
  unfold SlacAction.releasesKey
  split
  · cases hquiet
  · rfl

/-- In every step the state stays in line with the log, and the log holds the releases. -/
theorem tracked_rule :
    Rule (fun s reply => Tracked s → Tracked reply.1 ∧ Logs s reply) fun _ => True where
  andThen hfirst hnext h := by
    obtain ⟨htracked, hlogs⟩ := hfirst h
    obtain ⟨htracked', hlogs'⟩ := hnext htracked
    exact ⟨htracked', hlogs.andThen hlogs'⟩
  idle hidle hlog hquiet _ := ⟨.idle hidle, .quiet hlog (not_releasesKey_of_isQuiet hquiet)⟩
  keep hsame hquiet h :=
    ⟨h.congr hsame, .quiet hsame.log (not_releasesKey_of_isQuiet hquiet)⟩
  average _ now haverages h := ⟨h.average haverages now, .quiet rfl rfl⟩
  receive _ now config frame _ h :=
    ⟨h.receive now config frame, h.logs_receive now config frame⟩

/-- All events of a run, with the calls that were made -/
def runFrom (sha256 : List UInt8 → List UInt8) (events : List Event) (s : Slac) : Reply :=
  trace (step sha256) s events

theorem Tracked.logs_runFrom (h : Tracked s) (sha256 : List UInt8 → List UInt8)
    (events : List Event) : Logs s (runFrom sha256 events s) := by
  induction events generalizing s with
  | nil => exact .quiet rfl rfl
  | cons event rest ih =>
    obtain ⟨htracked, hlogs⟩ :=
      tracked_rule.step s sha256 (fun (_ : List UInt8) (_ : _ ∈ event.frames) => trivial) h
    exact @Logs.andThen _ _ (runFrom sha256 rest) hlogs (ih htracked)

/-- The network key goes only to the matched vehicle, and frames that are too short do nothing,
as long as every frame of a type that SLAC listens to is as long as its message. -/
theorem network_key_to_matched_vehicle (sha256 : List UInt8 → List UInt8) (events : List Event)
    (hwhole : ∀ r ∈ (runFrom sha256 events {}).1.log, r.isHeeded = true → r.isShort = false) :
    Secure (runFrom sha256 events {}).1.log ∧
      ∀ action ∈ (runFrom sha256 events {}).2, action.releasesKey = true →
        ∃ r ∈ (runFrom sha256 events {}).1.log, action ∈ r.actions := by
  have hboot : Tracked {} := .idle rfl
  have hlogs := hboot.logs_runFrom sha256 events
  exact ⟨hlogs.secure hwhole trivial, hlogs.keys⟩

/-- A frame with the header of the modem's messages -/
def homeplugFrame (source : List UInt8) (code : Nat) (body : List UInt8) : List UInt8 :=
  List.replicate 6 0 ++ source ++
    [0x88, 0xE1, 0x01, UInt8.ofNat code, UInt8.ofNat (code / 256), 0, 0] ++ body

/-- The `CM_SLAC_MATCH.REQ` of a vehicle to a charger -/
def matchRequest (vehicle charger runId : List UInt8) : List UInt8 :=
  homeplugFrame vehicle 0x607C ([0, 0, 0x3E, 0] ++ List.replicate 17 0 ++ vehicle ++
    List.replicate 17 0 ++ charger ++ runId ++ List.replicate 8 0)

/-- The modem starts, then a vehicle is characterised with one profile and asks for the match. -/
def matching (vehicle charger runId : List UInt8) : List Event :=
  [.loop { now := 0, mac := charger }, .loop { now := 1 },
    .tap 2 {} (homeplugFrame charger 0x6009 (1 :: List.replicate 13 0)),
    .loop { now := 3, iecState := 1 },
    .tap 4 {} (homeplugFrame vehicle 0x6064 ([0, 0] ++ runId)),
    .tap 5 {} (homeplugFrame vehicle 0x606A ([0, 0, 1, 6, 1] ++ vehicle ++ runId)),
    .tap 6 {} (homeplugFrame charger 0x6086 (vehicle ++ [58, 0] ++ List.replicate 58 20)),
    .tap 7 {} (homeplugFrame vehicle 0x606F ([0, 0] ++ vehicle ++ runId ++ List.replicate 35 0)),
    .tap 8 {} (matchRequest vehicle charger runId)]

def matchingSample : List Event :=
  matching (List.replicate 6 1) (List.replicate 6 2) (List.replicate 8 3)

theorem network_key_to_matched_vehicle_sample :
    (runFrom id matchingSample {}).2.any SlacAction.releasesKey = true ∧
      Secure (runFrom id matchingSample {}).1.log :=
  ⟨by decide, (network_key_to_matched_vehicle id matchingSample (by decide)).1⟩

/-- The retry is cut off behind the source address, and the rest is still in the buffer. -/
def truncatedRetry : List Event :=
  matchingSample ++ [.tap 9 {} ((matchRequest (List.replicate 6 1) (List.replicate 6 2)
    (List.replicate 8 3)).take 20)]

theorem network_key_for_truncated_request :
    ¬∀ (sha256 : List UInt8 → List UInt8) (events : List Event),
      Secure (runFrom sha256 events {}).1.log := by
  intro h
  have hfails : ¬Secure (runFrom id truncatedRetry {}).1.log := by decide
  exact hfails (h id truncatedRetry)

end Slac

end Esp32Firmware.Iso15118
