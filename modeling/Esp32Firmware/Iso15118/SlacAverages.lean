import Esp32Firmware.Iso15118.SlacMatching

/-!
# The attenuation that is reported

The charger answers a sounding phase with the mean of the profiles that its modem measured for
the vehicle. The sums are kept in 16 bits and the count in 8 bits, and neither overflows.
-/

namespace Esp32Firmware.Iso15118

/-- The frame has a header and holds all of its message. -/
def Complete (frame : List UInt8) : Prop :=
  16 < (frame.take slacEthernetFrameLengthMax).length ∧ (messageType frame).all (fun type =>
      type.size ≤ (frame.take slacEthernetFrameLengthMax).length) = true

instance (frame : List UInt8) : Decidable (Complete frame) := inferInstanceAs (Decidable (_ ∧ _))

theorem Complete.size {frame : List UInt8} (h : Complete frame) {type : MessageType}
    (htype : messageType frame = some type) :
    type.size ≤ (frame.take slacEthernetFrameLengthMax).length := by
  simpa only [htype, Option.all_some, decide_eq_true_eq] using h.2

/-- A complete frame is read alike with any buffer. -/
theorem Complete.ofBuffer {frame : List UInt8} (h : Complete frame) (buffer : List UInt8) :
    Message.ofBuffer (readFrame buffer frame) = Message.ofBuffer frame := by
  unfold Message.ofBuffer
  rw [messageType_readFrame h.1]
  cases htype : messageType frame with
  | none => rfl
  | some type => exact Message.parse_readFrame (h.size htype)

namespace Received

/-- A `CM_START_ATTEN_CHAR.IND` that starts a sounding phase or starts it again -/
def startsSounding (r : Received) : Bool :=
  match r.message with
  | .startAttenCharIndication applicationType securityType _ respType =>
    (r.state = .waitForStartAttenCharIndication || r.state = .waitForMNBCSound) &&
      applicationType = 0x00 && securityType = 0x00 && respType = 0x01
  | _ => false

/-- The attenuation in a profile of the vehicle -/
def profileOf (vehicle : List UInt8) (r : Received) : Option (List UInt8) :=
  match r.message with
  | .attenProfileIndication pevMac numGroups aag =>
    if r.state = .waitForMNBCSound ∧ pevMac = vehicle ∧ numGroups = slacAagListLength then
      some aag
    else none
  | _ => none

end Received

/-- The profiles of the vehicle since the sounding phase started, newest first -/
def soundingProfiles (vehicle : List UInt8) : List Received → List (List UInt8)
  | [] => []
  | r :: older =>
    if r.startsSounding then []
    else (r.profileOf vehicle).toList ++ soundingProfiles vehicle older

/-- The sum of the profiles for one group of carriers -/
def groupSum (profiles : List (List UInt8)) (group : Nat) : Nat :=
  (profiles.map fun aag => (aag.getD group 0).toNat).sum

def groupSums (profiles : List (List UInt8)) : List Nat :=
  (List.range slacAagListLength).map (groupSum profiles)

/-- The frame reports the floor of the mean of the profiles of its vehicle, over a positive
count and without overflow. -/
def ReportsMean (log : List Received) : Frame → Prop
  | .attenCharIndication pevMac _ numSounds aag =>
    numSounds = (soundingProfiles pevMac log).length ∧ 0 < numSounds ∧ numSounds < 256 ∧
      (∀ group, groupSum (soundingProfiles pevMac log) group < 65536) ∧
      aag = (List.range slacAagListLength).map fun group =>
        groupSum (soundingProfiles pevMac log) group / numSounds
  | _ => True

theorem groupSum_le (profiles : List (List UInt8)) (group : Nat) :
    groupSum profiles group ≤ 255 * profiles.length := by
  induction profiles with
  | nil => exact Nat.zero_le _
  | cons aag rest ih =>
    have hvalue : (aag.getD group 0).toNat ≤ 255 := by
      have := (aag.getD group 0).toNat_lt
      omega
    simp only [groupSum, List.map_cons, List.sum_cons, List.length_cons] at ih ⊢
    omega

/-- Less than 256 profiles fit into 16 bits. -/
theorem groupSum_lt {profiles : List (List UInt8)} (h : profiles.length < 256) (group : Nat) :
    groupSum profiles group < 65536 := by
  have := groupSum_le profiles group
  omega

/-- Adding a profile adds it to every sum. -/
theorem addProfile_groupSums {profiles : List (List UInt8)} {aag : List UInt8}
    (hlength : aag.length = slacAagListLength) (hcount : profiles.length < 255) :
    Slac.addProfile (groupSums profiles) aag = groupSums (aag :: profiles) := by
  refine List.ext_getElem ?_ fun group hleft hright => ?_
  · simp [Slac.addProfile, groupSums, hlength]
  · have hgroup : group < aag.length := by
      rw [hlength]
      simpa [groupSums] using hright
    have hsum := groupSum_le profiles group
    have hvalue := aag[group].toNat_lt
    simp only [Slac.addProfile, groupSums, List.getElem_zipWith, List.getElem_map,
      List.getElem_range, groupSum, List.map_cons, List.sum_cons, List.getD_eq_getElem _ _ hgroup] at hsum ⊢
    rw [Nat.mod_eq_of_lt (by omega), Nat.add_comm]

namespace Slac

/-- In and behind a sounding phase the counters hold the profiles of the log. -/
structure Averages (s : Slac) : Prop where
  count : s.state = .waitForMNBCSound ∨ s.state = .waitForAttenChar →
    s.receivedAagLists = (soundingProfiles s.pevMac s.log).length
  sums : s.state = .waitForMNBCSound ∨ s.state = .waitForAttenChar →
    s.aagList = groupSums (soundingProfiles s.pevMac s.log)
  sounding : s.state = .waitForMNBCSound →
    s.receivedAagLists < s.indicationNumSounds ∧ s.indicationNumSounds < 256
  averaged : s.state = .waitForAttenChar → 0 < s.receivedAagLists ∧ s.receivedAagLists < 256

/-- Every average among the calls is the mean of the profiles at some point of the step. -/
structure Reported (s : Slac) (reply : Reply) : Prop where
  grows : s.log <:+ reply.1.log
  means : ∀ frame, .writeBurst frame ∈ reply.2 →
    ∃ log, s.log <:+ log ∧ log <:+ reply.1.log ∧ ReportsMean log frame

variable {s : Slac} {r : Received} {message : Message}
  {applicationType securityType numSounds respType numGroups : Nat} {mac aag : List UInt8}

theorem Averages.silent (hsounding : s.state ≠ .waitForMNBCSound)
    (haveraged : s.state ≠ .waitForAttenChar) : Averages s := by
  refine ⟨fun hs => ?_, fun hs => ?_, fun hs => absurd hs hsounding,
    fun hs => absurd hs haveraged⟩
  · exact (hs.elim hsounding haveraged).elim
  · exact (hs.elim hsounding haveraged).elim

theorem Averages.idle (h : tracks s.state = false) : Averages s := by
  refine .silent ?_ ?_ <;> rintro hs <;> rw [hs] at h <;> cases h

theorem Averages.congr {s' : Slac} (h : Averages s) (hsame : SameMatching s s') : Averages s' := by
  refine ⟨?_, ?_, ?_, ?_⟩
  · rw [hsame.state, hsame.log, hsame.pevMac, hsame.receivedAagLists]; exact h.count
  · rw [hsame.state, hsame.log, hsame.pevMac, hsame.aagList]; exact h.sums
  · rw [hsame.state, hsame.receivedAagLists, hsame.indicationNumSounds]; exact h.sounding
  · rw [hsame.state, hsame.receivedAagLists]; exact h.averaged

/-- A frame that is neither the start of a phase nor a profile leaves the profiles. -/
theorem Averages.received (h : Averages s) (hstart : r.startsSounding = false)
    (hprofile : r.profileOf s.pevMac = none) :
    Averages { s with log := r :: s.log } := by
  have hsame : soundingProfiles s.pevMac (r :: s.log) = soundingProfiles s.pevMac s.log := by
    simp only [soundingProfiles, hstart, hprofile, Bool.false_eq_true, if_false, Option.toList_none,
      List.nil_append]
  refine ⟨fun hs => ?_, fun hs => ?_, h.sounding, h.averaged⟩
  · exact (h.count hs).trans (by rw [hsame])
  · exact (h.sums hs).trans (by rw [hsame])

/-- Calls that send no average -/
theorem Reported.quiet {reply : Reply} (hgrows : s.log <:+ reply.1.log)
    (hquiet : ∀ frame, .writeBurst frame ∈ reply.2 → ReportsMean s.log frame) :
    Reported s reply :=
  ⟨hgrows, fun frame hmem => ⟨s.log, List.suffix_refl _, hgrows, hquiet frame hmem⟩⟩

theorem Reported.andThen {s : Slac} {reply : Reply} {next : Slac → Reply} (h : Reported s reply)
    (hnext : Reported reply.1 (next reply.1)) : Reported s (reply.andThen next) := by
  refine ⟨h.grows.trans hnext.grows, fun frame hmem => ?_⟩
  rcases List.mem_append.mp hmem with hfirst | hrest
  · obtain ⟨log, hsuffix, hgrows, hmean⟩ := h.means frame hfirst
    exact ⟨log, hsuffix, hgrows.trans hnext.grows, hmean⟩
  · obtain ⟨log, hsuffix, hgrows, hmean⟩ := hnext.means frame hrest
    exact ⟨log, h.grows.trans hsuffix, hgrows, hmean⟩

theorem reportsMean_of_isQuiet {actions : List SlacAction}
    (h : actions.all SlacAction.isQuiet = true) (log : List Received) {frame : Frame}
    (hmem : .writeBurst frame ∈ actions) : ReportsMean log frame := by
  have hquiet := List.all_eq_true.mp h _ hmem
  cases frame <;> first | exact trivial | cases hquiet

/-- With the counters in line the average that is sent is the mean of the profiles. -/
theorem reportsMean_of_counted {log : List Received}
    (hcount : s.receivedAagLists = (soundingProfiles s.pevMac log).length)
    (hsums : s.aagList = groupSums (soundingProfiles s.pevMac log)) (hpos : 0 < s.receivedAagLists)
    (hlt : s.receivedAagLists < 256) :
    ReportsMean log (.attenCharIndication s.pevMac s.pevRunId s.receivedAagLists
      (s.aagList.map fun sum => sum / s.receivedAagLists % 256)) := by
  refine ⟨hcount, hpos, hlt, groupSum_lt (hcount ▸ hlt), ?_⟩
  rw [hsums, groupSums, List.map_map]
  refine List.map_congr_left fun group _ => ?_
  have hle := groupSum_le (soundingProfiles s.pevMac log) group
  -- The mean of bytes is a byte.
  exact Nat.mod_eq_of_lt ((Nat.div_lt_iff_lt_mul hpos).mpr (by omega))

theorem Averages.average (h : Averages s) (haverages : s.averagesOnTimeout = true) (now : Nat) :
    Averages (s.sendAttenCharIndication now).1 ∧ Reported s (s.sendAttenCharIndication now) := by
  simp only [Slac.averagesOnTimeout, Bool.or_eq_true, Bool.and_eq_true, decide_eq_true_eq]
    at haverages
  have hstate : s.state = .waitForMNBCSound ∨ s.state = .waitForAttenChar :=
    haverages.imp And.left And.left
  have hbounds : 0 < s.receivedAagLists ∧ s.receivedAagLists < 256 := by
    rcases haverages with ⟨hsounding, hpos⟩ | ⟨haveraged, -⟩
    · have := h.sounding hsounding
      omega
    · exact h.averaged haveraged
  refine ⟨⟨fun _ => h.count hstate, fun _ => h.sums hstate, fun hs => ?_, fun _ => hbounds⟩,
    List.suffix_refl _, fun frame hmem => ?_⟩
  · cases hs
  · obtain rfl : frame = _ := SlacAction.writeBurst.inj (List.mem_singleton.mp hmem)
    exact ⟨s.log, List.suffix_refl _, List.suffix_refl _,
      reportsMean_of_counted (h.count hstate) (h.sums hstate) hbounds.1 hbounds.2⟩

/-- The message is neither the start of a sounding phase nor a profile. -/
def isSilent : Message → Bool
  | .startAttenCharIndication .. => false
  | .attenProfileIndication .. => false
  | _ => true

section

variable (s : Slac) (now : Nat) (config : SlacConfig) (hsilent : isSilent message = true)
include hsilent

/-- Such a message leaves the vehicle alone or ends in a state without sounding. -/
theorem dispatch_silent : SameMatching s (s.dispatch now config message).1 ∨
      ((s.dispatch now config message).1.state ≠ .waitForMNBCSound ∧
        (s.dispatch now config message).1.state ≠ .waitForAttenChar) := by
  have hrefl : SameMatching s s := ⟨rfl, rfl, rfl, rfl, rfl, rfl, rfl⟩
  cases message with
  | setKeyConfirmation =>
    simp only [dispatch, handleCmSetKeyConfirmation]
    split_ifs
    · exact .inl hrefl
    · exact .inr ⟨by rintro ⟨⟩, by rintro ⟨⟩⟩
    · exact .inr ⟨by rintro ⟨⟩, by rintro ⟨⟩⟩
  | slacParmRequest mac runId =>
    rcases s.slacParm_cases now mac runId with hnone | ⟨admitted, -, hsome⟩
    · simp only [dispatch, hnone]
      exact .inl hrefl
    · simp only [dispatch, hsome]
      exact .inr ⟨by rintro ⟨⟩, by rintro ⟨⟩⟩
  | startAttenCharIndication | attenProfileIndication => cases hsilent
  | mnbcSoundIndication =>
    simp only [dispatch, handleCmMnbcSoundIndication]
    split_ifs
    · exact .inl hrefl
    · exact .inl ⟨rfl, rfl, rfl, rfl, rfl, rfl, rfl⟩
  | attenCharResponse =>
    simp only [dispatch, handleCmAttenCharResponse]
    split_ifs
    · exact .inl hrefl
    · exact .inl hrefl
    · exact .inl hrefl
    · exact .inl hrefl
    · exact .inl hrefl
    · exact .inl hrefl
    · exact .inr ⟨by rintro ⟨⟩, by rintro ⟨⟩⟩
  | validateRequest =>
    simp only [dispatch, handleCmValidateRequest]
    split_ifs <;> exact .inl hrefl
  | slacMatchRequest =>
    simp only [dispatch, handleCmSlacMatchRequest]
    split_ifs
    · exact .inl hrefl
    · exact .inl hrefl
    · exact .inl hrefl
    · exact .inl hrefl
    · exact .inl hrefl
    · exact .inr ⟨by rintro ⟨⟩, by rintro ⟨⟩⟩
    · exact .inr ⟨by rintro ⟨⟩, by rintro ⟨⟩⟩
  | qualcommGetSwConfirmation =>
    simp only [dispatch, handleCmQualcommGetSwConfirmation]
    split_ifs
    · exact .inl hrefl
    · exact .inr ⟨by rintro ⟨⟩, by rintro ⟨⟩⟩
  | qualcommLinkStatusConfirmation =>
    simp only [dispatch, handleCmQualcommLinkStatusConfirmation]
    split_ifs
    · exact .inl hrefl
    · exact .inr ⟨by rintro ⟨⟩, by rintro ⟨⟩⟩
  | qualcommOpAttrConfirmation =>
    simp only [dispatch, handleCmQualcommOpAttrConfirmation]
    split_ifs
    · exact .inl hrefl
    · exact .inr ⟨by rintro ⟨⟩, by rintro ⟨⟩⟩
  | qualcommHostActionIndication | moduleOperationConfirmation | unhandled => exact .inl hrefl

/-- Such a message is not answered with an average. -/
theorem means_dispatch_silent (log : List Received) {frame : Frame}
    (hmem : .writeBurst frame ∈ (s.dispatch now config message).2) : ReportsMean log frame := by
  cases frame with
  | attenCharIndication =>
    exfalso
    cases message with
    | slacParmRequest mac runId =>
      rcases s.slacParm_cases now mac runId with hnone | ⟨admitted, hadmitted, hsome⟩
      · simp only [dispatch, hnone, List.not_mem_nil] at hmem
      · have hquiet := admitted_actions hadmitted
        simp only [dispatch, hsome, Reply.andThen, startMatching, List.mem_append,
          List.mem_cons, List.not_mem_nil, or_false] at hmem
        rcases hmem with hmem | hmem | hmem
        · exact hquiet _ hmem
        · cases hmem
        · cases hmem
    | startAttenCharIndication | attenProfileIndication => cases hsilent
    | validateRequest =>
      simp only [dispatch, handleCmValidateRequest] at hmem
      split_ifs at hmem <;> simp at hmem
    | slacMatchRequest =>
      simp only [dispatch, handleCmSlacMatchRequest] at hmem
      unfold reportEv at hmem
      split_ifs at hmem <;>
        simp [Reply.andThen, skipMatch, confirmMatch, beginIecTransition] at hmem
    | _ => exact absurd hmem List.not_mem_nil
  | _ => exact trivial

end

/-- What a new sounding phase finds: no profiles and no sums -/
theorem Averages.startAttenChar {s : Slac} (h : Averages s) (now : Nat)
    {applicationType securityType numSounds respType : Nat} (hnum : numSounds < 256)
    {r : Received} (hstate : r.state = s.state)
    (hmessage : r.message =
      .startAttenCharIndication applicationType securityType numSounds respType) :
    Averages { s.handleCmStartAttenCharIndication now applicationType securityType numSounds
      respType with log := r :: s.log } := by
  have hprofile : ∀ vehicle, r.profileOf vehicle = none := fun vehicle => by
    simp only [Received.profileOf, hmessage]
  by_cases hstart : r.startsSounding = true
  · have hnone : soundingProfiles s.pevMac (r :: s.log) = [] := by
      simp only [soundingProfiles, hstart, if_true]
    simp only [Received.startsSounding, hmessage, Bool.and_eq_true, Bool.or_eq_true,
      decide_eq_true_eq, hstate] at hstart
    obtain ⟨⟨⟨hlistens, happlication⟩, hsecurity⟩, hresp⟩ := hstart
    have hguard : ¬(s.state ≠ .waitForStartAttenCharIndication ∧ s.state ≠ .waitForMNBCSound) :=
      fun hnot => hlistens.elim hnot.1 hnot.2
    simp only [handleCmStartAttenCharIndication, if_neg hguard, if_neg (not_not_intro happlication),
      if_neg (not_not_intro hsecurity), if_neg (not_not_intro hresp)]
    refine ⟨fun _ => ?_, fun _ => ?_, fun _ => ?_, fun hs => ?_⟩
    · exact (congrArg List.length hnone).symm
    · exact (congrArg groupSums hnone).symm
    · dsimp only [clearSounding]
      split_ifs <;> omega
    · cases hs
  · have hignored : s.handleCmStartAttenCharIndication now applicationType securityType numSounds
        respType = s := by
      simp only [Received.startsSounding, hmessage, Bool.and_eq_true, Bool.or_eq_true,
        decide_eq_true_eq, hstate] at hstart
      unfold handleCmStartAttenCharIndication
      by_cases hlistens : s.state ≠ .waitForStartAttenCharIndication ∧ s.state ≠ .waitForMNBCSound
      · rw [if_pos hlistens]
      · by_cases happlication : applicationType = 0x00
        · by_cases hsecurity : securityType = 0x00
          · by_cases hresp : respType = 0x01
            · refine absurd ⟨⟨⟨?_, happlication⟩, hsecurity⟩, hresp⟩ hstart
              by_contra hnot
              exact hlistens ⟨fun hs => hnot (.inl hs), fun hs => hnot (.inr hs)⟩
            · simp only [if_neg hlistens, happlication, hsecurity, ne_eq, not_true_eq_false,
                if_false, if_pos hresp]
          · simp only [if_neg hlistens, happlication, ne_eq, not_true_eq_false, if_false,
              if_pos hsecurity]
        · rw [if_neg hlistens, if_pos happlication]
    rw [hignored]
    exact h.received (Bool.eq_false_iff.mpr hstart) (hprofile _)

/-- A profile is counted together with its entry in the log. -/
theorem Averages.attenProfile (h : Averages s) (now : Nat)
    (hlength : aag.length = slacAagListLength) (hstate : r.state = s.state)
    (hmessage : r.message = .attenProfileIndication mac numGroups aag) :
    Averages { (s.handleCmAttenProfileIndication now mac numGroups aag).1 with
        log := r :: s.log } ∧
      ∀ frame, .writeBurst frame ∈ (s.handleCmAttenProfileIndication now mac numGroups aag).2 →
        ReportsMean (r :: s.log) frame := by
  have hstart : r.startsSounding = false := by simp only [Received.startsSounding, hmessage]
  by_cases hcounts : s.state = .waitForMNBCSound ∧ mac = s.pevMac ∧ numGroups = slacAagListLength
  · have hprofile : r.profileOf s.pevMac = some aag := by
      simp only [Received.profileOf, hmessage, hstate, if_pos hcounts]
    obtain ⟨hsounding, rfl, rfl⟩ := hcounts
    have hprofiles : soundingProfiles s.pevMac (r :: s.log) =
        aag :: soundingProfiles s.pevMac s.log := by
      simp only [soundingProfiles, hstart, hprofile, Bool.false_eq_true, if_false,
        Option.toList_some, List.singleton_append]
    obtain ⟨hlt, hnum⟩ := h.sounding hsounding
    have hcount := h.count (.inl hsounding)
    have hcount' : (s.receivedAagLists + 1) % 256 =
        (soundingProfiles s.pevMac (r :: s.log)).length := by
      rw [hprofiles, List.length_cons, ← hcount, Nat.mod_eq_of_lt (by omega)]
    have hsums' :
        addProfile s.aagList aag = groupSums (soundingProfiles s.pevMac (r :: s.log)) := by
      rw [hprofiles, h.sums (.inl hsounding), addProfile_groupSums hlength (by omega)]
    have hbounds : 0 < (s.receivedAagLists + 1) % 256 ∧
        (s.receivedAagLists + 1) % 256 ≤ s.indicationNumSounds := by
      omega
    simp only [handleCmAttenProfileIndication, hsounding, ne_eq, not_true_eq_false, if_false]
    by_cases hall : (s.receivedAagLists + 1) % 256 = s.indicationNumSounds
    · rw [if_pos hall]
      refine ⟨⟨fun _ => hcount', fun _ => hsums', fun hs => ?_, fun _ => ?_⟩, fun frame hmem => ?_⟩
      · cases hs
      · exact ⟨hbounds.1, by simp only [sendAttenCharIndication]; omega⟩
      · obtain rfl : frame = _ := SlacAction.writeBurst.inj (List.mem_singleton.mp hmem)
        exact reportsMean_of_counted (s := { s with
            state := .waitForMNBCSound
            aagList := addProfile s.aagList aag
            receivedAagLists := (s.receivedAagLists + 1) % 256 })
          hcount' hsums' hbounds.1 (by dsimp only; omega)
    · rw [if_neg hall]
      refine ⟨⟨fun _ => hcount', fun _ => hsums', fun _ => ?_, fun hs => ?_⟩, fun frame hmem => ?_⟩
      · exact ⟨lt_of_le_of_ne hbounds.2 hall, hnum⟩
      · cases hs
      · exact absurd hmem List.not_mem_nil
  · have hprofile : r.profileOf s.pevMac = none := by
      simp only [Received.profileOf, hmessage, hstate, if_neg hcounts]
    have hignored : s.handleCmAttenProfileIndication now mac numGroups aag = (s, []) := by
      rcases s.attenProfile_cases now mac numGroups aag with hnone | ⟨hs, hm, hg, -⟩
      · exact hnone
      · exact absurd ⟨hs, hm, hg⟩ hcounts
    rw [hignored]
    exact ⟨h.received hstart hprofile, fun frame hmem => absurd hmem List.not_mem_nil⟩

theorem byteAt_lt (buffer : List UInt8) (offset : Nat) : byteAt buffer offset < 256 :=
  UInt8.toNat_lt _

/-- A complete profile holds all of its values. -/
theorem length_of_attenProfile {frame : List UInt8} (h : Complete frame)
    (hmessage : Message.ofBuffer frame = .attenProfileIndication mac numGroups aag) :
    aag.length = slacAagListLength := by
  unfold Message.ofBuffer at hmessage
  cases htype : messageType frame with
  | none =>
    rw [htype] at hmessage
    cases hmessage
  | some type =>
    have hsize := h.size htype
    rw [htype] at hmessage
    cases type <;> simp only [Message.parse, reduceCtorEq]
      at hmessage
    obtain ⟨-, -, rfl⟩ := hmessage
    simp only [MessageType.size, List.length_take] at hsize
    simp only [field, slacAagListLength, List.length_take, List.length_drop]
    omega

/-- The number of sounds is a byte. -/
theorem numSounds_lt {buffer : List UInt8} {applicationType securityType numSounds respType : Nat}
    (hmessage : Message.ofBuffer buffer =
      .startAttenCharIndication applicationType securityType numSounds respType) :
    numSounds < 256 := by
  unfold Message.ofBuffer at hmessage
  cases htype : messageType buffer with
  | none =>
    rw [htype] at hmessage
    cases hmessage
  | some type =>
    rw [htype] at hmessage
    cases type <;> simp only [Message.parse, reduceCtorEq,
      Message.startAttenCharIndication.injEq] at hmessage
    obtain ⟨-, -, rfl, -⟩ := hmessage
    exact byteAt_lt ..

section

variable (h : Averages s) (now : Nat) (config : SlacConfig)
include h

/-- A message that is neither the start of a phase nor a profile is only logged. -/
theorem Averages.silent_message
    (hsilent : isSilent message = true) (hmessage : r.message = message) :
    Averages { (s.dispatch now config message).1 with log := r :: s.log } := by
  have hstart : r.startsSounding = false := by
    unfold Received.startsSounding
    rw [hmessage]
    cases message <;> first | rfl | cases hsilent
  have hprofile : ∀ vehicle, r.profileOf vehicle = none := by
    intro vehicle
    unfold Received.profileOf
    rw [hmessage]
    cases message <;> first | rfl | cases hsilent
  rcases s.dispatch_silent now config hsilent with hsame | ⟨hsounding, haveraged⟩
  · have hlogged := (h.congr hsame).received hstart (hprofile _)
    rw [hsame.log] at hlogged
    exact hlogged
  · exact .silent hsounding haveraged

/-- A message and its entry in the log -/
theorem Averages.dispatch {frame : List UInt8}
    (hframe : Complete frame) (hstate : r.state = s.state)
    (hmessage : r.message = Message.ofBuffer frame) :
    Averages { (s.dispatch now config (Message.ofBuffer frame)).1 with log := r :: s.log } ∧
      ∀ sent, .writeBurst sent ∈ (s.dispatch now config (Message.ofBuffer frame)).2 →
        ReportsMean (r :: s.log) sent := by
  generalize hread : Message.ofBuffer frame = message at hmessage ⊢
  by_cases hsilent : isSilent message = true
  · exact ⟨h.silent_message now config hsilent hmessage,
      fun sent => s.means_dispatch_silent now config hsilent _⟩
  · cases message with
    | startAttenCharIndication =>
      exact ⟨h.startAttenChar now (numSounds_lt hread) hstate hmessage,
        fun sent hmem => absurd hmem List.not_mem_nil⟩
    | attenProfileIndication =>
      exact h.attenProfile now (length_of_attenProfile hframe hread) hstate hmessage
    | _ => exact absurd rfl hsilent

/-- A complete frame keeps the counters, and an average that answers it is a mean. -/
theorem Averages.receive {frame : List UInt8} (hframe : Complete frame) :
    Averages (s.receive now config frame).1 ∧ Reported s (s.receive now config frame) := by
  have hbuffer : Averages { s with buffer := readFrame s.buffer frame } :=
    h.congr ⟨rfl, rfl, rfl, rfl, rfl, rfl, rfl⟩
  have hofBuffer := hframe.ofBuffer s.buffer
  obtain ⟨haverages, hmeans⟩ := hbuffer.dispatch now config hframe
    (r := s.entry frame (s.handleFrame now config frame)) rfl hofBuffer
  have hlog : (s.handleFrame now config frame).1.log = s.log := dispatch_log ..
  have hreply : s.handleFrame now config frame =
      Slac.dispatch now config { s with buffer := readFrame s.buffer frame }
        (Message.ofBuffer frame) := by
    unfold handleFrame
    rw [hofBuffer]
  have hgrown : (s.receive now config frame).1.log =
      s.entry frame (s.handleFrame now config frame) :: s.log := congrArg (_ :: ·) hlog
  refine ⟨?_, ?_, fun sent hmem => ?_⟩
  · unfold Slac.receive
    dsimp only
    rw [hlog]
    rw [← hreply] at haverages
    exact haverages
  · rw [hgrown]
    exact List.suffix_cons ..
  · refine ⟨_, List.suffix_cons .., hgrown ▸ List.suffix_refl _, hmeans sent ?_⟩
    rw [← hreply]
    exact hmem

end

/-- In every step the counters hold the profiles and every average is a mean. -/
theorem averages_rule :
    Rule (fun s reply => Averages s → Averages reply.1 ∧ Reported s reply) Complete where
  andThen hfirst hnext h := by
    obtain ⟨haverages, hreported⟩ := hfirst h
    obtain ⟨haverages', hreported'⟩ := hnext haverages
    exact ⟨haverages', hreported.andThen hreported'⟩
  idle hidle hlog hquiet _ :=
    ⟨.idle hidle, .quiet (hlog ▸ List.suffix_refl _) fun _ => reportsMean_of_isQuiet hquiet _⟩
  keep hsame hquiet h :=
    ⟨h.congr hsame, .quiet (hsame.log ▸ List.suffix_refl _) fun _ =>
      reportsMean_of_isQuiet hquiet _⟩
  average _ now haverages h := h.average haverages now
  receive _ now config _ hframe h := h.receive now config hframe

/-- Every average that is sent in the run is the mean of the profiles received by then. -/
def ReportsMeans (sha256 : List UInt8 → List UInt8) : Slac → List Event → Prop
  | _, [] => True
  | s, event :: rest =>
    Reported s (s.step sha256 event) ∧ ReportsMeans sha256 (s.step sha256 event).1 rest

theorem Averages.reportsMeans (h : Averages s) (sha256 : List UInt8 → List UInt8)
    {events : List Event} (hframes : ∀ event ∈ events, ∀ frame ∈ event.frames, Complete frame) :
    ReportsMeans sha256 s events := by
  induction events generalizing s with
  | nil => exact trivial
  | cons event rest ih =>
    obtain ⟨haverages, hreported⟩ :=
      averages_rule.step s sha256 (hframes event (List.mem_cons_self ..)) h
    exact ⟨hreported, ih haverages fun other hmem => hframes other (List.mem_cons_of_mem _ hmem)⟩

end Slac

end Esp32Firmware.Iso15118
