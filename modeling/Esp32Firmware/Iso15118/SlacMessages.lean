import Mathlib

/-!
# HomePlug messages of SLAC

Every frame from the modem is read into one buffer, and the handlers read their message from
there. The buffer is not cleared between two frames.

## Implementation notes

A message keeps the fields that its handler reads. The frames that are sent keep the fields
that depend on the session.
-/

namespace Esp32Firmware.Iso15118

/-- `SLAC_ETHERNET_FRAME_LENGTH_MAX` -/
abbrev slacEthernetFrameLengthMax : Nat := 1518

/-- `SLAC_AAG_LIST_LENGTH` -/
abbrev slacAagListLength : Nat := 58

/-- `length` bytes of a packed structure from `offset` on -/
def field (buffer : List UInt8) (offset length : Nat) : List UInt8 :=
  (buffer.drop offset).take length

def byteAt (buffer : List UInt8) (offset : Nat) : Nat := (buffer.getD offset 0).toNat

/-- What `read` leaves in the buffer: the frame, then whatever was there before. -/
def readFrame (buffer frame : List UInt8) : List UInt8 :=
  frame.take slacEthernetFrameLengthMax ++
    buffer.drop (frame.take slacEthernetFrameLengthMax).length

variable {buffer frame : List UInt8} {offset : Nat}

/-- A field that the frame covers does not depend on what the buffer held. -/
theorem field_readFrame {length : Nat}
    (hlength : offset + length ≤ (frame.take slacEthernetFrameLengthMax).length) :
    field (readFrame buffer frame) offset length = field frame offset length := by
  have hmax : offset + length ≤ slacEthernetFrameLengthMax :=
    hlength.trans (List.length_take_le ..)
  have hdrop : offset ≤ (frame.take slacEthernetFrameLengthMax).length := by omega
  rw [field, readFrame, List.drop_append_of_le_length hdrop,
    List.take_append_of_le_length (by rw [List.length_drop]; omega), List.drop_take, List.take_take,
    min_eq_left (by omega)]
  rfl

theorem byteAt_readFrame (hlength : offset < (frame.take slacEthernetFrameLengthMax).length) :
    byteAt (readFrame buffer frame) offset = byteAt frame offset := by
  have hframe : offset < frame.length :=
    hlength.trans_le (by rw [List.length_take]; exact Nat.min_le_right ..)
  rw [byteAt, byteAt, readFrame, List.getD_append _ _ _ _ hlength, List.getD_eq_getElem _ _ hlength,
    List.getD_eq_getElem _ _ hframe, List.getElem_take]

/-- The messages that `read_and_dispatch_tap_frame` knows -/
inductive MessageType where
  | setKeyConfirmation
  | slacParmRequest
  | startAttenCharIndication
  | mnbcSoundIndication
  | attenProfileIndication
  | attenCharResponse
  | validateRequest
  | slacMatchRequest
  | qualcommGetSwConfirmation
  | qualcommLinkStatusConfirmation
  | qualcommOpAttrConfirmation
  | qualcommHostActionIndication
  | moduleOperationConfirmation
deriving DecidableEq, Repr

namespace MessageType

/-- The `mm_type` of a message with its mode -/
def ofCode (code : Nat) : Option MessageType :=
  if code = 0x6009 then some setKeyConfirmation
  else if code = 0x6064 then some slacParmRequest
  else if code = 0x606A then some startAttenCharIndication
  else if code = 0x6076 then some mnbcSoundIndication
  else if code = 0x6086 then some attenProfileIndication
  else if code = 0x606F then some attenCharResponse
  else if code = 0x6078 then some validateRequest
  else if code = 0x607C then some slacMatchRequest
  else if code = 0xA001 then some qualcommGetSwConfirmation
  else if code = 0xA0B9 then some qualcommLinkStatusConfirmation
  else if code = 0xA069 then some qualcommOpAttrConfirmation
  else if code = 0xA062 then some qualcommHostActionIndication
  else if code = 0xA0B1 then some moduleOperationConfirmation
  else none

/-- `sizeof` of the message. `PibManager::handle_confirmation` checks the length itself. -/
def size : MessageType → Nat
  | setKeyConfirmation => 33
  | slacParmRequest => 29
  | startAttenCharIndication => 38
  | mnbcSoundIndication => 71
  | attenProfileIndication => 85
  | attenCharResponse => 70
  | validateRequest => 22
  | slacMatchRequest => 85
  | qualcommGetSwConfirmation => 151
  | qualcommLinkStatusConfirmation => 22
  | qualcommOpAttrConfirmation => 109
  | qualcommHostActionIndication => 23
  | moduleOperationConfirmation => 22

end MessageType

/-- `mm_type` stands behind the addresses, the ethernet type and the version. -/
def messageType (buffer : List UInt8) : Option MessageType :=
  MessageType.ofCode (byteAt buffer 15 + 256 * byteAt buffer 16)

/-- `source_mac` of the header -/
def sourceMac (buffer : List UInt8) : List UInt8 := field buffer 6 6

inductive Message where
  | setKeyConfirmation (result : Nat)
  | slacParmRequest (sourceMac runId : List UInt8)
  | startAttenCharIndication (applicationType securityType numSounds respType : Nat)
  | mnbcSoundIndication
  | attenProfileIndication (pevMac : List UInt8) (numGroups : Nat) (aag : List UInt8)
  | attenCharResponse (applicationType securityType : Nat) (sourceAddress runId : List UInt8)
      (result : Nat)
  | validateRequest (signalType result : Nat)
  | slacMatchRequest (sourceMac pevId pevMac evseId evseMac runId : List UInt8)
  | qualcommGetSwConfirmation
  | qualcommLinkStatusConfirmation
  | qualcommOpAttrConfirmation
  | qualcommHostActionIndication
  | moduleOperationConfirmation
  | unhandled
deriving DecidableEq, Repr

namespace Message

/-- The casts of the buffer, one for each message -/
def parse (buffer : List UInt8) : MessageType → Message
  | .setKeyConfirmation => setKeyConfirmation (byteAt buffer 19)
  | .slacParmRequest => slacParmRequest (Iso15118.sourceMac buffer) (field buffer 21 8)
  | .startAttenCharIndication =>
    startAttenCharIndication (byteAt buffer 19) (byteAt buffer 20) (byteAt buffer 21)
      (byteAt buffer 23)
  | .mnbcSoundIndication => mnbcSoundIndication
  | .attenProfileIndication =>
    attenProfileIndication (field buffer 19 6) (byteAt buffer 25)
      (field buffer 27 slacAagListLength)
  | .attenCharResponse =>
    attenCharResponse (byteAt buffer 19) (byteAt buffer 20) (field buffer 21 6)
      (field buffer 27 8) (byteAt buffer 69)
  | .validateRequest => validateRequest (byteAt buffer 19) (byteAt buffer 21)
  | .slacMatchRequest =>
    slacMatchRequest (Iso15118.sourceMac buffer) (field buffer 23 17) (field buffer 40 6)
      (field buffer 46 17) (field buffer 63 6) (field buffer 69 8)
  | .qualcommGetSwConfirmation => qualcommGetSwConfirmation
  | .qualcommLinkStatusConfirmation => qualcommLinkStatusConfirmation
  | .qualcommOpAttrConfirmation => qualcommOpAttrConfirmation
  | .qualcommHostActionIndication => qualcommHostActionIndication
  | .moduleOperationConfirmation => moduleOperationConfirmation

/-- The message that the handlers find in the buffer -/
def ofBuffer (buffer : List UInt8) : Message :=
  match messageType buffer with
  | some type => parse buffer type
  | none => unhandled

end Message

/-- The frame holds the whole message that it claims to be. -/
def isWholeFrame (buffer frame : List UInt8) : Bool :=
  (messageType (readFrame buffer frame)).all fun type =>
    type.size ≤ (frame.take slacEthernetFrameLengthMax).length

theorem MessageType.header_le_size (type : MessageType) : 17 < type.size := by
  cases type <;> decide

/-- The type is read from the frame itself if the frame has a header. -/
theorem messageType_readFrame {buffer frame : List UInt8}
    (hlength : 16 < (frame.take slacEthernetFrameLengthMax).length) :
    messageType (readFrame buffer frame) = messageType frame := by
  rw [messageType, messageType, byteAt_readFrame (by omega), byteAt_readFrame hlength]

theorem Message.parse_readFrame {buffer frame : List UInt8} {type : MessageType}
    (hsize : type.size ≤ (frame.take slacEthernetFrameLengthMax).length) :
    parse (readFrame buffer frame) type = parse frame type := by
  have hfield : ∀ offset length, offset + length ≤ type.size →
      field (readFrame buffer frame) offset length = field frame offset length :=
    fun offset length h => field_readFrame (h.trans hsize)
  have hbyte : ∀ offset, offset < type.size →
      byteAt (readFrame buffer frame) offset = byteAt frame offset :=
    fun offset h => byteAt_readFrame (h.trans_le hsize)
  cases type <;> simp only [MessageType.size] at hfield hbyte <;>
    simp (disch := omega) only [parse, slacAagListLength, Iso15118.sourceMac, hfield, hbyte]

/-- A whole frame is understood from its own bytes. -/
theorem Message.ofBuffer_readFrame {buffer frame : List UInt8}
    (hwhole : isWholeFrame buffer frame = true) {type : MessageType}
    (htype : messageType (readFrame buffer frame) = some type) :
    messageType frame = some type ∧ ofBuffer (readFrame buffer frame) = ofBuffer frame := by
  have hsize : type.size ≤ (frame.take slacEthernetFrameLengthMax).length := by
    simpa only [isWholeFrame, htype, Option.all_some, decide_eq_true_eq] using hwhole
  have hframe : messageType frame = some type := by
    rw [← @messageType_readFrame buffer frame (by have := type.header_le_size; omega), htype]
  refine ⟨hframe, ?_⟩
  rw [ofBuffer, ofBuffer, htype, hframe]
  exact parse_readFrame hsize

inductive Frame where
  | setKeyRequest (nmk nid : List UInt8)
  | slacParmConfirmation (pevMac runId : List UInt8)
  | attenCharIndication (pevMac runId : List UInt8) (numSounds : Nat) (aag : List Nat)
  | validateConfirmation (pevMac : List UInt8)
  | slacMatchConfirmation (destination pevId pevMac evseId evseMac runId nid nmk : List UInt8)
  | qualcommGetSwRequest
  | qualcommLinkStatusRequest
  | qualcommOpAttrRequest
deriving DecidableEq, Repr

end Esp32Firmware.Iso15118
