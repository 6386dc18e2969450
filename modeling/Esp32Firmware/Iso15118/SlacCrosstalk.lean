import Esp32Firmware.Iso15118.SlacAverages

/-!
# Frames of other vehicles

While one vehicle is being matched, frames of vehicles at other chargers arrive as well. Two runs
are compared, one of them with such frames added.

## Implementation notes

Both runs differ in the buffer, the count of sounds and the log. `erase` forgets these, and
`Blind` says that a function does not look at them.
-/

namespace Esp32Firmware.Iso15118

theorem Complete.ne_nil {frame : List UInt8} (h : Complete frame) : frame ≠ [] := by
  rintro rfl
  exact absurd h.1 (by decide)

/-- A frame from another source. A profile is sent by the modem and belongs to the vehicle that
it names. -/
def isForeign (vehicle frame : List UInt8) : Bool :=
  match messageType frame with
  | some .attenProfileIndication => field frame 19 6 ≠ vehicle
  | _ => sourceMac frame ≠ vehicle

namespace Slac

/-- The vehicle is being matched or connected, and the session was confirmed. -/
structure InSession (vehicle : List UInt8) (s : Slac) : Prop where
  state : inMatching s.state = true ∨ s.state = .waitForSDP ∨ s.state = .linkDetected
  pevMac : s.pevMac = vehicle
  confirmed : s.tentativeStateADeadline = none
  notStartedInStateA : s.sessionStartedInStateA = false

/-- A message that its handler takes without a look at the sender -/
def disturbs (s : Slac) (frame : List UInt8) : Bool :=
  match Message.ofBuffer frame with
  | .startAttenCharIndication applicationType securityType _ respType =>
    (s.state = .waitForStartAttenCharIndication || s.state = .waitForMNBCSound) &&
      applicationType = 0x00 && securityType = 0x00 && respType = 0x01
  | .attenCharResponse applicationType securityType sourceAddress runId result =>
    s.state = .waitForAttenChar && applicationType = 0x00 && securityType = 0x00 &&
      result = 0x00 && sourceAddress = s.pevMac && runId = s.pevRunId
  | .validateRequest signalType result =>
    s.state = .waitForSlacMatch && signalType = 0x00 && result = 0x01
  | _ => false

/-- Forgets what frames of others may change. -/
def erase (s : Slac) : Slac := { s with buffer := [], receivedSounds := 0, log := [] }

/-- The states differ only in what is forgotten. -/
def Alike (s s' : Slac) : Prop := s.erase = s'.erase

/-- Alike states, and the same calls -/
def Agree (reply reply' : Reply) : Prop := Alike reply.1 reply'.1 ∧ reply.2 = reply'.2

variable {s s' : Slac} {frame vehicle : List UInt8}

theorem Alike.reply (h : Alike s s') : Agree (s, []) (s', []) := ⟨h, rfl⟩

/-- The function does not look at what is forgotten. -/
def Blind (f : Slac → Reply) : Prop := ∀ s, Agree (f s) (f s.erase)

theorem Blind.agree {f : Slac → Reply} (h : Blind f) (hs : Alike s s') : Agree (f s) (f s') := by
  obtain ⟨hstate, hactions⟩ := h s
  obtain ⟨hstate', hactions'⟩ := h s'
  refine ⟨?_, ?_⟩
  · exact hstate.trans (by rw [show s.erase = s'.erase from hs]; exact hstate'.symm)
  · rw [hactions, hactions', show s.erase = s'.erase from hs]

theorem Agree.andThen {reply reply' : Reply} {f : Slac → Reply} (h : Agree reply reply')
    (hf : Blind f) : Agree (reply.andThen f) (reply'.andThen f) := by
  obtain ⟨hstate, hactions⟩ := hf.agree h.1
  refine ⟨hstate, ?_⟩
  simp only [Reply.andThen]
  rw [h.2, hactions]

theorem Blind.comp {f : Slac → Slac} {g : Slac → Reply} (hg : Blind g)
    (hf : ∀ s, Alike (f s) (f s.erase)) : Blind fun s => g (f s) := fun s => hg.agree (hf s)

theorem blind_setKeyConfirmation (result : Nat) :
    Blind fun s => (s.handleCmSetKeyConfirmation result, []) := by
  intro s
  refine Alike.reply ?_
  unfold handleCmSetKeyConfirmation
  exact ite_related Iff.rfl rfl (ite_related Iff.rfl rfl rfl)

variable (now : Nat) (inputs : SlacInputs) (config : SlacConfig)

theorem blind_qualcommGetSw :
    Blind fun s => (s.handleCmQualcommGetSwConfirmation now, []) := by
  intro s
  refine Alike.reply ?_
  unfold handleCmQualcommGetSwConfirmation
  exact ite_related Iff.rfl rfl rfl

theorem blind_qualcommLinkStatus :
    Blind fun s => (s.handleCmQualcommLinkStatusConfirmation now, []) := by
  intro s
  refine Alike.reply ?_
  unfold handleCmQualcommLinkStatusConfirmation
  exact ite_related Iff.rfl rfl rfl

theorem blind_qualcommOpAttr : Blind fun s => (s.handleCmQualcommOpAttrConfirmation, []) := by
  intro s
  refine Alike.reply ?_
  unfold handleCmQualcommOpAttrConfirmation
  exact ite_related Iff.rfl rfl rfl

theorem agree_admitParmRequest (mac : List UInt8) (s : Slac) :
    Option.Rel Agree (s.admitParmRequest now mac) (s.erase.admitParmRequest now mac) := by
  unfold admitParmRequest
  refine ite_related Iff.rfl ?_ ?_
  · refine ite_related Iff.rfl (.some ⟨rfl, rfl⟩) ?_
    exact ite_related Iff.rfl (.some ⟨rfl, rfl⟩) .none
  · rw [show s.erase.state = s.state from rfl]
    generalize s.state = state
    cases state
    case waitForSlacParamRequest => exact .some ⟨rfl, rfl⟩
    case slacInitEF => exact .some ⟨rfl, rfl⟩
    case waitForSDP | linkDetected =>
      refine ite_related Iff.rfl .none ?_
      exact ite_related Iff.rfl .none (.some ⟨rfl, rfl⟩)
    case waitForStartAttenCharIndication | waitForMNBCSound | waitForAttenChar | waitForSlacMatch =>
      exact ite_related Iff.rfl .none (.some ⟨rfl, rfl⟩)
    all_goals exact .none

theorem blind_slacParm (mac runId : List UInt8) :
    Blind fun s => s.handleCmSlacParmRequest now mac runId := by
  intro s
  have hadmitted := agree_admitParmRequest now mac s
  dsimp only [handleCmSlacParmRequest]
  revert hadmitted
  generalize s.admitParmRequest now mac = admitted
  generalize s.erase.admitParmRequest now mac = admitted'
  rintro (hagree | _)
  · exact hagree.andThen fun s => ⟨rfl, rfl⟩
  · exact ⟨rfl, rfl⟩

theorem blind_startAttenChar (now applicationType securityType numSounds respType : Nat) :
    Blind fun s => (s.handleCmStartAttenCharIndication now applicationType securityType numSounds
      respType, []) := by
  intro s
  refine Alike.reply ?_
  unfold handleCmStartAttenCharIndication
  refine ite_related Iff.rfl rfl (ite_related Iff.rfl rfl (ite_related Iff.rfl rfl ?_))
  exact ite_related Iff.rfl rfl rfl

theorem blind_mnbcSound : Blind fun s => (s.handleCmMnbcSoundIndication, []) := by
  intro s
  refine Alike.reply ?_
  unfold handleCmMnbcSoundIndication
  exact ite_related Iff.rfl rfl rfl

theorem blind_attenProfile (mac : List UInt8) (numGroups : Nat) (aag : List UInt8) :
    Blind fun s => s.handleCmAttenProfileIndication now mac numGroups aag := by
  intro s
  dsimp only [handleCmAttenProfileIndication]
  refine ite_related Iff.rfl ⟨rfl, rfl⟩ (ite_related Iff.rfl ⟨rfl, rfl⟩
    (ite_related Iff.rfl ⟨rfl, rfl⟩ ?_))
  exact ite_related Iff.rfl ⟨rfl, rfl⟩ ⟨rfl, rfl⟩

theorem blind_attenCharResponse (now applicationType securityType : Nat)
    (sourceAddress runId : List UInt8) (result : Nat) :
    Blind fun s => (s.handleCmAttenCharResponse now applicationType securityType sourceAddress
      runId result, []) := by
  intro s
  refine Alike.reply ?_
  unfold handleCmAttenCharResponse
  refine ite_related Iff.rfl rfl (ite_related Iff.rfl rfl (ite_related Iff.rfl rfl ?_))
  exact ite_related Iff.rfl rfl (ite_related Iff.rfl rfl (ite_related Iff.rfl rfl rfl))

theorem blind_validate (signalType result : Nat) :
    Blind fun s => s.handleCmValidateRequest signalType result := by
  intro s
  dsimp only [handleCmValidateRequest]
  refine ite_related Iff.rfl ⟨rfl, rfl⟩ (ite_related Iff.rfl ⟨rfl, rfl⟩ ?_)
  exact ite_related Iff.rfl ⟨rfl, rfl⟩ ⟨rfl, rfl⟩

theorem blind_slacMatch (mac pevId pevMac evseId evseMac runId : List UInt8) :
    Blind fun s => s.handleCmSlacMatchRequest now config mac pevId pevMac evseId evseMac
      runId := by
  have hreport : Blind reportEv := fun s => ite_related Iff.rfl ⟨rfl, rfl⟩ ⟨rfl, rfl⟩
  have hskip : Blind skipMatch := fun s => ⟨rfl, rfl⟩
  have hconfirm : Blind (confirmMatch now pevId pevMac evseId runId) := fun s => ⟨rfl, rfl⟩
  intro s
  dsimp only [handleCmSlacMatchRequest]
  refine ite_related Iff.rfl ⟨rfl, rfl⟩ (ite_related Iff.rfl ⟨rfl, rfl⟩
    (ite_related Iff.rfl ⟨rfl, rfl⟩ (ite_related Iff.rfl ⟨rfl, rfl⟩
    (ite_related Iff.rfl ⟨rfl, rfl⟩ ?_))))
  exact ite_related Iff.rfl ((hreport s).andThen hskip) ((hreport s).andThen hconfirm)

theorem blind_dispatch (message : Message) :
    Blind fun s => s.dispatch now config message := by
  intro s
  cases message with
  | setKeyConfirmation => exact blind_setKeyConfirmation ..
  | slacParmRequest => exact blind_slacParm ..
  | startAttenCharIndication => exact blind_startAttenChar ..
  | mnbcSoundIndication => exact blind_mnbcSound s
  | attenProfileIndication => exact blind_attenProfile ..
  | attenCharResponse => exact blind_attenCharResponse ..
  | validateRequest => exact blind_validate ..
  | slacMatchRequest => exact blind_slacMatch ..
  | qualcommGetSwConfirmation => exact blind_qualcommGetSw now s
  | qualcommLinkStatusConfirmation => exact blind_qualcommLinkStatus now s
  | qualcommOpAttrConfirmation => exact blind_qualcommOpAttr s
  | qualcommHostActionIndication | moduleOperationConfirmation | unhandled => exact ⟨rfl, rfl⟩

/-- With a complete frame the old content of the buffer does not matter. -/
theorem blind_readAndDispatch (h : Complete frame) :
    Blind (readAndDispatchTapFrame now config frame) := by
  intro s
  have hdispatch :
      Agree (s.handleFrame now config frame) (s.erase.handleFrame now config frame) := by
    unfold handleFrame
    rw [h.ofBuffer, h.ofBuffer]
    exact (blind_dispatch now config _).agree rfl
  unfold readAndDispatchTapFrame
  refine ite_related Iff.rfl ⟨rfl, rfl⟩ (ite_related Iff.rfl ⟨rfl, rfl⟩ ?_)
  exact ⟨hdispatch.1, hdispatch.2⟩

theorem blind_observe : Blind fun s => s.observe inputs := by
  have hcheck : ∀ s : Slac,
      Alike s.checkModemDetectedInvariant s.erase.checkModemDetectedInvariant := by
    intro s
    unfold checkModemDetectedInvariant
    refine ite_related Iff.rfl rfl ?_
    rw [show s.erase.state = s.state from rfl]
    cases s.state <;> rfl
  have htentative : Blind (handleTentativeStateA inputs.now) := by
    intro s
    unfold handleTentativeStateA
    refine ite_related Iff.rfl ⟨rfl, rfl⟩ (ite_related Iff.rfl ⟨rfl, rfl⟩
      (ite_related Iff.rfl ⟨rfl, rfl⟩ ?_))
    exact ite_related Iff.rfl ⟨rfl, rfl⟩ ⟨rfl, rfl⟩
  exact htentative.comp fun s => hcheck (s.updateIecStateTracking inputs.iecState)

theorem blind_abortSlacInit :
    Blind fun s => (s.startSlacInit inputs).abortSlacInit inputs := by
  have habort : Blind (abortSlacInit inputs) := fun s => ite_related Iff.rfl ⟨rfl, rfl⟩ ⟨rfl, rfl⟩
  exact habort.comp fun s => ite_related Iff.rfl rfl rfl

theorem alike_handleModemInitialization (s : Slac) :
    Alike (s.handleModemInitialization inputs) (s.erase.handleModemInitialization inputs) := by
  unfold handleModemInitialization
  refine ite_related Iff.rfl rfl (ite_related Iff.rfl rfl ?_)
  unfold probeModem
  refine ite_related Iff.rfl ?_ (ite_related Iff.rfl rfl rfl)
  rfl

theorem blind_initiate (sha256 : List UInt8 → List UInt8) (inputs : SlacInputs) :
    Blind fun s => (s.detectLink inputs).initiate sha256 inputs := by
  have hinitiate : Blind (initiate sha256 inputs) := by
    intro s
    have hinit := alike_handleModemInitialization inputs s
    unfold initiate
    rw [show s.erase.state = s.state from rfl]
    generalize s.state = state
    cases state
    case modemInitialization => exact hinit.reply
    all_goals exact ⟨rfl, rfl⟩
  exact hinitiate.comp fun s => ite_related Iff.rfl rfl rfl

theorem blind_handleTimeout : Blind (handleTimeout inputs) := by
  intro s
  unfold handleTimeout
  refine ite_related Iff.rfl ⟨rfl, rfl⟩ ?_
  rw [show s.erase.state = s.state from rfl]
  generalize s.state = state
  cases state
  case waitForCMSetKeyConfirmation => exact ite_related Iff.rfl ⟨rfl, rfl⟩ ⟨rfl, rfl⟩
  case waitForSlacParamRequest => exact ite_related Iff.rfl ⟨rfl, rfl⟩ ⟨rfl, rfl⟩
  all_goals exact ⟨rfl, rfl⟩

/-- The frame of another vehicle that SLAC does not act on -/
structure Harmless (vehicle : List UInt8) (s : Slac) (frame : List UInt8) : Prop where
  inSession : InSession vehicle s
  isForeign : isForeign vehicle frame = true
  complete : Complete frame
  undisturbed : s.disturbs frame = false

theorem InSession.not_idle (h : InSession vehicle s) : s.state ≠ .waitForSlacParamRequest := by
  rintro hstate
  rcases h.state with hs | hs | hs <;> rw [hstate] at hs <;> cases hs

/-- Requests of other vehicles are ignored while a session is confirmed. -/
theorem InSession.ignores_request {mac : List UInt8} (h : InSession vehicle s)
    (hmac : mac ≠ vehicle) (now : Nat) (runId : List UInt8) :
    s.handleCmSlacParmRequest now mac runId = (s, []) := by
  have hother : mac ≠ s.pevMac := by rw [h.pevMac]; exact hmac
  have hadmitted : s.admitParmRequest now mac = none := by
    unfold admitParmRequest
    by_cases hiec : s.lastIecState = iecStateA
    · rw [if_pos hiec, if_neg h.not_idle, h.confirmed]
      rfl
    · rw [if_neg hiec]
      have hstate := h.state
      cases hs : s.state <;> rw [hs] at hstate <;> dsimp only
      case waitForSDP | linkDetected => rw [if_pos hother]
      case waitForStartAttenCharIndication | waitForMNBCSound | waitForAttenChar |
          waitForSlacMatch =>
        rw [if_pos ⟨hother, h.notStartedInStateA⟩]
      all_goals simp [inMatching] at hstate
  unfold handleCmSlacParmRequest
  rw [hadmitted]

theorem InSession.not_initializing (h : InSession vehicle s) :
    s.state ≠ .waitForCMSetKeyConfirmation ∧ s.state ≠ .waitForCMQualcommGetSwResponse ∧
      s.state ≠ .waitForCMQualcommLinkStatusResponse ∧
      s.state ≠ .waitForCMQualcommOpAttrResponse := by
  refine ⟨?_, ?_, ?_, ?_⟩ <;> rintro hstate <;> rcases h.state with hs | hs | hs <;>
    rw [hstate] at hs <;> cases hs

/-- The sender of a foreign frame is not the vehicle, and neither is the vehicle of a foreign
profile. -/
theorem isForeign_iff :
    isForeign vehicle frame = true ↔
      (messageType frame = some .attenProfileIndication → field frame 19 6 ≠ vehicle) ∧
        (messageType frame ≠ some .attenProfileIndication → sourceMac frame ≠ vehicle) := by
  unfold isForeign
  split
  · rename_i htype
    simp only [htype, decide_eq_true_eq, true_implies, ne_eq, not_true_eq_false, false_implies,
      and_true]
  · rename_i hne
    simp only [decide_eq_true_eq]
    exact ⟨fun h => ⟨fun htype => absurd htype hne, fun _ => h⟩, fun h => h.2 hne⟩

/-- Of a harmless frame only the count of sounds is seen. -/
theorem Harmless.dispatch (h : Harmless vehicle s frame) (now : Nat) (config : SlacConfig) :
    Agree (s.dispatch now config (Message.ofBuffer frame)) (s, []) := by
  obtain ⟨hsetKey, hgetSw, hlinkStatus, hopAttr⟩ := h.inSession.not_initializing
  obtain ⟨hprofile, hsource⟩ := isForeign_iff.mp h.isForeign
  have hundisturbed := h.undisturbed
  unfold disturbs at hundisturbed
  cases htype : messageType frame with
  | none =>
    simp only [Message.ofBuffer, htype, Slac.dispatch]
    exact ⟨rfl, rfl⟩
  | some type =>
    have hmessage : Message.ofBuffer frame = Message.parse frame type := by
      unfold Message.ofBuffer
      rw [htype]
    rw [hmessage] at hundisturbed ⊢
    cases type with
    | setKeyConfirmation =>
      simp only [Message.parse, Slac.dispatch, handleCmSetKeyConfirmation, if_pos hsetKey]
      exact ⟨rfl, rfl⟩
    | slacParmRequest =>
      have hmac := hsource (by rw [htype]; decide)
      simp only [Message.parse, Slac.dispatch, h.inSession.ignores_request hmac]
      exact ⟨rfl, rfl⟩
    | startAttenCharIndication =>
      simp only [Message.parse] at hundisturbed ⊢
      simp only [Slac.dispatch]
      refine Alike.reply ?_
      unfold handleCmStartAttenCharIndication
      split_ifs with hstate happlication hsecurity hresp
      · rfl
      · rfl
      · rfl
      · rfl
      all_goals
        exfalso
        simp only [Bool.and_eq_false_iff, Bool.or_eq_false_iff, decide_eq_false_iff_not]
          at hundisturbed
        rcases hundisturbed with ((hs | ha) | hs) | hr
        · exact hstate hs
        · exact happlication ha
        · exact hsecurity hs
        · exact hresp hr
    | mnbcSoundIndication =>
      simp only [Message.parse, Slac.dispatch]
      refine Alike.reply ?_
      unfold handleCmMnbcSoundIndication
      split_ifs <;> rfl
    | attenProfileIndication =>
      have hmac : field frame 19 6 ≠ s.pevMac := by
        rw [h.inSession.pevMac]
        exact hprofile htype
      simp only [Message.parse, Slac.dispatch, handleCmAttenProfileIndication, if_pos hmac]
      split_ifs <;> exact ⟨rfl, rfl⟩
    | attenCharResponse =>
      simp only [Message.parse] at hundisturbed ⊢
      simp only [Slac.dispatch]
      refine Alike.reply ?_
      unfold handleCmAttenCharResponse
      split_ifs with hstate happlication hsecurity hresult hmac hrunId
      · rfl
      · rfl
      · rfl
      · rfl
      · rfl
      · rfl
      · exfalso
        simp only [Bool.and_eq_false_iff, decide_eq_false_iff_not] at hundisturbed
        rcases hundisturbed with ((((hs | ha) | hs) | hr) | hm) | hi
        · exact hstate hs
        · exact happlication ha
        · exact hsecurity hs
        · exact hresult hr
        · exact hmac (Ne.symm hm)
        · exact hrunId (Ne.symm hi)
    | validateRequest =>
      simp only [Message.parse] at hundisturbed ⊢
      simp only [Slac.dispatch, handleCmValidateRequest]
      split_ifs with hstate hsignal hresult
      · exact ⟨rfl, rfl⟩
      · exact ⟨rfl, rfl⟩
      · exact ⟨rfl, rfl⟩
      · exfalso
        simp only [Bool.and_eq_false_iff, decide_eq_false_iff_not] at hundisturbed
        rcases hundisturbed with (hs | hs) | hr
        · exact hstate hs
        · exact hsignal hs
        · exact hresult hr
    | slacMatchRequest =>
      have hmac : s.pevMac ≠ sourceMac frame := by
        rw [h.inSession.pevMac]
        exact Ne.symm (hsource (by rw [htype]; decide))
      simp only [Message.parse, Slac.dispatch, handleCmSlacMatchRequest, if_pos hmac]
      split_ifs <;> exact ⟨rfl, rfl⟩
    | qualcommGetSwConfirmation =>
      simp only [Message.parse, Slac.dispatch, handleCmQualcommGetSwConfirmation, if_pos hgetSw]
      exact ⟨rfl, rfl⟩
    | qualcommLinkStatusConfirmation =>
      simp only [Message.parse, Slac.dispatch, handleCmQualcommLinkStatusConfirmation,
        if_pos hlinkStatus]
      exact ⟨rfl, rfl⟩
    | qualcommOpAttrConfirmation =>
      simp only [Message.parse, Slac.dispatch, handleCmQualcommOpAttrConfirmation, if_pos hopAttr]
      exact ⟨rfl, rfl⟩
    | qualcommHostActionIndication | moduleOperationConfirmation => exact ⟨rfl, rfl⟩

/-- A harmless frame that is read leaves no trace. -/
theorem Harmless.readAndDispatch (h : Harmless vehicle s frame) (now : Nat) (config : SlacConfig) :
    Agree (s.readAndDispatchTapFrame now config frame) (s, []) := by
  have hframe : Agree (s.handleFrame now config frame) (s, []) := by
    have hblind := (blind_dispatch now config (Message.ofBuffer frame)).agree
      (show Alike { s with buffer := readFrame s.buffer frame } s from rfl)
    have hdispatch := h.dispatch now config
    unfold handleFrame
    rw [h.complete.ofBuffer]
    exact ⟨hblind.1.trans hdispatch.1, hblind.2.trans hdispatch.2⟩
  unfold readAndDispatchTapFrame
  split_ifs
  · exact ⟨rfl, rfl⟩
  · exact ⟨rfl, rfl⟩
  · exact ⟨hframe.1, hframe.2⟩

end Slac

end Esp32Firmware.Iso15118
