import Mathlib.Data.List.Basic
import Mathlib.Algebra.Group.Int.Defs
import Mathlib.Algebra.Group.Nat.Defs

/-!
# V2GTP messages over TCP

A vehicle sends messages with a header of eight bytes in front, and TCP delivers their bytes in
reads. Each read goes to the protocol handler in use as if it were one message.

## Implementation notes

What the decoders and handlers make of a message is given by a function: the new state, the
protocol in use from then on, the response, and whether the connection stays open. The decoders
read the range that they are given. The stream position of a read is bookkeeping.
-/

namespace Esp32Firmware.Iso15118

/-- `EXI_DATA_SIZE` -/
abbrev exiDataSize : Nat := 10 * 1024

/-- `sizeof(V2GTP_Header)` -/
abbrev headerSize : Nat := 8

inductive ExiType where
  | appHand
  | din
  | iso2
  | iso20
  | iso20Ac
deriving DecidableEq, Repr

/-- The payload types of `V2GTPPayloadType` that `decode` accepts. -/
inductive PayloadType where
  | sap
  | iso20Common
  | iso20Ac
deriving DecidableEq, Repr

def PayloadType.ofCode (code : Nat) : Option PayloadType :=
  if code = 0x8001 then some .sap
  else if code = 0x8002 then some .iso20Common
  else if code = 0x8003 then some .iso20Ac
  else none

/-- What a handler makes of a message. -/
structure Reaction (σ : Type*) where
  state : σ
  exiInUse : ExiType
  response : Option (List UInt8)
  stays : Bool

/-- The decoders and handlers of all protocols. -/
abbrev Handlers (σ : Type*) := σ → ExiType → PayloadType → List UInt8 → Reaction σ

/-- A message that was handed to a decoder. -/
structure Delivery where
  protocol : ExiType
  payloadType : PayloadType
  position : Nat
  bytes : List UInt8
deriving DecidableEq, Repr

structure Socket (σ : Type*) where
  state : σ
  exiData : List UInt8
  exiInUse : ExiType := .appHand
  active : Bool := true
  position : Nat := 0
  delivered : List Delivery := []

section

variable {σ : Type*}

/-- `send_exi` fills the shared buffer. -/
def sendExi (response : List UInt8) : List UInt8 :=
  response ++ List.replicate (exiDataSize - response.length) 0

/-- The payload type of a header that passes the checks of `decode`. -/
def validHeader (data : List UInt8) : Option PayloadType :=
  if data.getD 0 0 ≠ 0x01 then none
  else if data.getD 1 0 ≠ 0xFE then none
  else PayloadType.ofCode ((data.getD 2 0).toNat * 256 + (data.getD 3 0).toNat)

def decode (react : Handlers σ) (s : Socket σ) (length : Nat) : Socket σ :=
  if length < headerSize then s
  else
    match validHeader s.exiData with
    | none => s
    | some payloadType =>
      let bytes := (s.exiData.take length).drop headerSize
      let reaction := react s.state s.exiInUse payloadType bytes
      { s with
        state := reaction.state
        exiData := match reaction.response with
          | none => s.exiData
          | some response => sendExi response
        exiInUse := if reaction.stays then reaction.exiInUse else .appHand
        active := reaction.stays
        delivered := s.delivered ++ [⟨s.exiInUse, payloadType, s.position, bytes⟩] }

/-- `handle_socket` with the bytes of one read, which overwrite the front of the shared buffer. -/
def handleSocket (react : Handlers σ) (s : Socket σ) (data : List UInt8) : Socket σ :=
  if s.active then
    let s := decode react { s with exiData := data ++ s.exiData.drop data.length } data.length
    { s with position := s.position + data.length }
  else s

/-- What is delivered of a connection that brings these reads. -/
def delivered (react : Handlers σ) (state : σ) (exiData : List UInt8) (reads : List (List UInt8)) :
    List Delivery :=
  (reads.foldl (handleSocket react) ⟨state, exiData, .appHand, true, 0, []⟩).delivered

end

/-- A message; the header names the length of the payload. -/
structure V2gtpMessage where
  protocolVersion : UInt8
  inverseProtocolVersion : UInt8
  payloadType : Nat
  payload : List UInt8
  payloadType_lt : payloadType < 2 ^ 16
  payload_length_lt : payload.length < 2 ^ 32

/-- The byte of a number in network order, `shift` bytes from the end. -/
def byteOf (n shift : Nat) : UInt8 := UInt8.ofNat (n / 256 ^ shift)

def V2gtpMessage.header (m : V2gtpMessage) : List UInt8 :=
  [m.protocolVersion, m.inverseProtocolVersion, byteOf m.payloadType 1, byteOf m.payloadType 0,
    byteOf m.payload.length 3, byteOf m.payload.length 2, byteOf m.payload.length 1,
    byteOf m.payload.length 0]

def V2gtpMessage.bytes (m : V2gtpMessage) : List UInt8 := m.header ++ m.payload

/-- The payload type of a message with a valid header. -/
def V2gtpMessage.valid (m : V2gtpMessage) : Option PayloadType :=
  if m.protocolVersion ≠ 0x01 then none
  else if m.inverseProtocolVersion ≠ 0xFE then none
  else PayloadType.ofCode m.payloadType

/-- Each message with a valid header is delivered once, in order, with its payload. -/
def expected {σ : Type*} (react : Handlers σ) (state : σ) (exiInUse : ExiType) (position : Nat) :
    List V2gtpMessage → List Delivery
  | [] => []
  | m :: rest =>
    match m.valid with
    | none => expected react state exiInUse (position + m.bytes.length) rest
    | some payloadType =>
      let reaction := react state exiInUse payloadType m.payload
      ⟨exiInUse, payloadType, position, m.payload⟩ ::
        if reaction.stays then
          expected react reaction.state reaction.exiInUse (position + m.bytes.length) rest
        else []

/-- The ways in which TCP can deliver the bytes of a sequence of messages. -/
structure Segmentation (messages : List V2gtpMessage) where
  reads : List (List UInt8)
  nonempty : ∀ data ∈ reads, data ≠ []
  fits : ∀ data ∈ reads, data.length ≤ exiDataSize
  flatten_eq : reads.flatten = (messages.map V2gtpMessage.bytes).flatten

/-- A part of a stream that starts with a valid header, with its position and payload. -/
structure V2gtpFrame where
  position : Nat
  payloadType : PayloadType
  bytes : List UInt8
deriving DecidableEq, Repr

/-- The part of a stream as a frame, if it is one. -/
def frameOf (position : Nat) (data : List UInt8) : Option V2gtpFrame :=
  if data.length < headerSize then none
  else (validHeader data).map fun payloadType => ⟨position, payloadType, data.drop headerSize⟩

/-- The frames among consecutive parts of a stream. -/
def frames (position : Nat) : List (List UInt8) → List V2gtpFrame
  | [] => []
  | data :: rest =>
    (frameOf position data).toList ++ frames (position + data.length) rest

/-- The frames handed to the handlers in turn, until one of them closes the connection. -/
def serve {σ : Type*} (react : Handlers σ) (state : σ) (exiInUse : ExiType) :
    List V2gtpFrame → List Delivery
  | [] => []
  | frame :: rest =>
    let reaction := react state exiInUse frame.payloadType frame.bytes
    ⟨exiInUse, frame.payloadType, frame.position, frame.bytes⟩ ::
      if reaction.stays then serve react reaction.state reaction.exiInUse rest else []

section

variable {σ : Type*}

theorem getD_append_left {data rest : List UInt8} {i : Nat} (h : i < data.length) :
    (data ++ rest).getD i 0 = data.getD i 0 := by
  rw [List.getD_eq_getElem?_getD, List.getD_eq_getElem?_getD, List.getElem?_append_left h]

/-- Only the first bytes count, not what an earlier message or response left behind. -/
theorem validHeader_append {data : List UInt8} (rest : List UInt8)
    (h : ¬ data.length < headerSize) : validHeader (data ++ rest) = validHeader data := by
  have hle : 8 ≤ data.length := Nat.le_of_not_lt h
  simp only [validHeader]
  rw [getD_append_left (by omega), getD_append_left (by omega), getD_append_left (by omega),
    getD_append_left (by omega)]

/-- A read is delivered if it is a frame, and changes nothing else than the buffer otherwise. -/
theorem handleSocket_of_active (react : Handlers σ) {s : Socket σ} (hactive : s.active = true)
    (data : List UInt8) :
    let s' := handleSocket react s data
    s'.position = s.position + data.length ∧
      match frameOf s.position data with
      | none => s'.state = s.state ∧ s'.exiInUse = s.exiInUse ∧ s'.active = true ∧
          s'.delivered = s.delivered
      | some frame =>
        let reaction := react s.state s.exiInUse frame.payloadType frame.bytes
        s'.state = reaction.state ∧ s'.active = reaction.stays ∧
          (reaction.stays = true → s'.exiInUse = reaction.exiInUse) ∧
          s'.delivered = s.delivered ++
            [⟨s.exiInUse, frame.payloadType, frame.position, frame.bytes⟩] := by
  simp only [handleSocket, hactive, if_true, decode, frameOf]
  by_cases hshort : data.length < headerSize
  · rw [if_pos hshort, if_pos hshort]
    exact ⟨rfl, rfl, rfl, rfl, rfl⟩
  · rw [if_neg hshort, if_neg hshort, validHeader_append _ hshort]
    cases validHeader data with
    | none => exact ⟨rfl, rfl, rfl, rfl, rfl⟩
    | some payloadType =>
      simp only [Option.map_some, List.take_left, true_and, and_true]
      exact fun hstays => if_pos hstays

variable (react : Handlers σ)

theorem handleSocket_closed {s : Socket σ} (h : s.active = false)
    (reads : List (List UInt8)) : reads.foldl (handleSocket react) s = s := by
  induction reads with
  | nil => rfl
  | cons data rest ih =>
    rw [List.foldl_cons, handleSocket, h, if_neg Bool.false_ne_true]
    exact ih

/-- The run of a connection serves the frames among its reads. -/
theorem foldl_handleSocket (reads : List (List UInt8)) {s : Socket σ}
    (hactive : s.active = true) :
    (reads.foldl (handleSocket react) s).delivered =
      s.delivered ++ serve react s.state s.exiInUse (frames s.position reads) := by
  induction reads generalizing s with
  | nil => exact (List.append_nil _).symm
  | cons data rest ih =>
    obtain ⟨hposition, hread⟩ := handleSocket_of_active react hactive data
    rw [List.foldl_cons, frames]
    generalize handleSocket react s data = s' at hposition hread ⊢
    cases hframe : frameOf s.position data with
    | none =>
      rw [hframe] at hread
      obtain ⟨hstate, hexi, hstays, hdelivered⟩ := hread
      rw [ih hstays, hstate, hexi, hdelivered, hposition]
      rfl
    | some frame =>
      rw [hframe] at hread
      obtain ⟨hstate, hstays, hexi, hdelivered⟩ := hread
      rw [Option.toList_some, List.singleton_append, serve]
      by_cases hopen : (react s.state s.exiInUse frame.payloadType frame.bytes).stays = true
      · rw [if_pos hopen, ih (hstays.trans hopen), hstate, hexi hopen, hdelivered, hposition,
          List.append_assoc, List.singleton_append]
      · rw [if_neg hopen, handleSocket_closed react
          (hstays.trans (Bool.not_eq_true _ ▸ hopen)), hdelivered]

theorem byteOf_pair {n : Nat} (h : n < 2 ^ 16) :
    (byteOf n 1).toNat * 256 + (byteOf n 0).toNat = n := by
  simp only [byteOf, UInt8.toNat_ofNat', Nat.pow_one, Nat.pow_zero, Nat.div_one]
  omega

/-- A message is a frame at its position if its header is valid. -/
theorem frameOf_bytes (position : Nat) (m : V2gtpMessage) :
    frameOf position m.bytes =
      m.valid.map fun payloadType => ⟨position, payloadType, m.payload⟩ := by
  have hlong : ¬ m.bytes.length < headerSize := by
    simp [V2gtpMessage.bytes, V2gtpMessage.header, headerSize]
  have hheader : validHeader m.bytes = m.valid := by
    have hcode := byteOf_pair m.payloadType_lt
    rw [validHeader, V2gtpMessage.valid, ← hcode]
    rfl
  rw [frameOf, if_neg hlong, hheader]
  rfl

theorem expected_eq_serve (messages : List V2gtpMessage) (state : σ)
    (exiInUse : ExiType) (position : Nat) :
    expected react state exiInUse position messages =
      serve react state exiInUse (frames position (messages.map V2gtpMessage.bytes)) := by
  induction messages generalizing state exiInUse position with
  | nil => rfl
  | cons m rest ih =>
    rw [expected, List.map_cons, frames, frameOf_bytes]
    cases m.valid with
    | none => exact ih _ _ _
    | some payloadType =>
      rw [Option.map_some, Option.toList_some, List.singleton_append, serve]
      simp only [ih]

/-- Handlers that keep the connection open see all frames. -/
theorem serve_injective {frames frames' : List V2gtpFrame}
    (h : serve (fun (_ : Unit) _ _ _ => ⟨(), .appHand, none, true⟩) () .appHand frames =
      serve (fun (_ : Unit) _ _ _ => ⟨(), .appHand, none, true⟩) () .appHand frames') :
    frames = frames' := by
  have hserve (fs : List V2gtpFrame) :
      serve (fun (_ : Unit) _ _ _ => ⟨(), .appHand, none, true⟩) () .appHand fs =
        fs.map fun frame => ⟨.appHand, frame.payloadType, frame.position, frame.bytes⟩ := by
    induction fs with
    | nil => rfl
    | cons frame rest ih => simp only [serve, if_true, ih, List.map_cons]
  rw [hserve, hserve] at h
  refine (List.map_injective_iff.mpr ?_) h
  intro frame frame' heq
  obtain ⟨-, htype, hposition, hbytes⟩ := Delivery.mk.inj heq
  cases frame
  cases frame'
  simp_all

theorem position_le_of_mem_frames {parts : List (List UInt8)} {position : Nat} {frame : V2gtpFrame}
    (h : frame ∈ frames position parts) : position ≤ frame.position := by
  induction parts generalizing position with
  | nil => exact absurd h List.not_mem_nil
  | cons data rest ih =>
    obtain h | h := List.mem_append.mp h
    · rw [frameOf] at h
      split at h
      · exact absurd h List.not_mem_nil
      · obtain ⟨payloadType, -, rfl⟩ := Option.map_eq_some_iff.mp (Option.mem_toList.mp h)
        exact Nat.le_refl _
    · exact Nat.le_trans (Nat.le_add_right _ _) (ih h)

/-- Where all messages have valid headers, only reads of one message each have the same frames. -/
theorem reads_eq_of_frames {messages : List V2gtpMessage} {reads : List (List UInt8)}
    {position : Nat}
    (hvalid : ∀ m ∈ messages, m.valid.isSome = true) (hnonempty : ∀ data ∈ reads, data ≠ [])
    (hflatten : reads.flatten = (messages.map V2gtpMessage.bytes).flatten)
    (hframes : frames position reads = frames position (messages.map V2gtpMessage.bytes)) :
    reads = messages.map V2gtpMessage.bytes := by
  induction messages generalizing reads position with
  | nil =>
    cases reads with
    | nil => rfl
    | cons data rest =>
      rw [List.flatten_cons] at hflatten
      exact absurd (List.append_eq_nil_iff.mp hflatten).1 (hnonempty data List.mem_cons_self)
  | cons m messages ih =>
    obtain ⟨payloadType, htype⟩ := Option.isSome_iff_exists.mp (hvalid m List.mem_cons_self)
    rw [List.map_cons, frames, frameOf_bytes, htype, Option.map_some, Option.toList_some,
      List.singleton_append] at hframes
    cases reads with
    | nil => exact nomatch hframes
    | cons data rest =>
      rw [frames] at hframes
      have hdata := hnonempty data List.mem_cons_self
      cases hframe : frameOf position data with
      | none =>
        -- the first frame would start behind the first message
        rw [hframe, Option.toList_none, List.nil_append] at hframes
        have hmem : (⟨position, payloadType, m.payload⟩ : V2gtpFrame) ∈
            frames (position + data.length) rest := hframes ▸ List.mem_cons_self
        have hle : position + data.length ≤ position := position_le_of_mem_frames hmem
        have hpos := List.length_pos_of_ne_nil hdata
        omega
      | some frame =>
        rw [hframe, Option.toList_some, List.singleton_append] at hframes
        obtain ⟨hhead, htail⟩ := List.cons.inj hframes
        rw [frameOf] at hframe
        split at hframe
        · exact nomatch hframe
        · rename_i hlong
          obtain ⟨type, -, rfl⟩ := Option.map_eq_some_iff.mp hframe
          obtain ⟨-, -, hpayload⟩ := V2gtpFrame.mk.inj hhead
          have hlength : data.length = m.bytes.length := by
            have hdrop := congrArg List.length hpayload
            rw [List.length_drop] at hdrop
            simp only [V2gtpMessage.bytes, V2gtpMessage.header, List.length_append,
              List.length_cons, List.length_nil]
            simp only [headerSize] at hlong hdrop
            omega
          rw [List.map_cons, List.flatten_cons, List.flatten_cons] at hflatten
          obtain ⟨rfl, hrest⟩ := List.append_inj hflatten hlength
          rw [List.map_cons]
          congr 1
          exact ih (fun m' hm' => hvalid m' (List.mem_cons_of_mem _ hm'))
            (fun d hd => hnonempty d (List.mem_cons_of_mem _ hd)) hrest htail

end

/-- Whatever the handlers make of the messages, each message with a valid header is delivered once,
in order and from its own bytes, if and only if the reads have the frames that the messages have.
If all headers are valid, that is if every read brings one message. -/
theorem delivers_messages_iff (messages : List V2gtpMessage) (segmentation : Segmentation messages)
    (exiData : List UInt8) :
    ((∀ (σ : Type) (react : Handlers σ) (state : σ),
        delivered react state exiData segmentation.reads =
          expected react state .appHand 0 messages) ↔
      frames 0 segmentation.reads = frames 0 (messages.map V2gtpMessage.bytes)) ∧
    ((∀ m ∈ messages, m.valid.isSome = true) →
      (frames 0 segmentation.reads = frames 0 (messages.map V2gtpMessage.bytes) ↔
        segmentation.reads = messages.map V2gtpMessage.bytes)) := by
  have hrun {σ : Type} (react : Handlers σ) (state : σ) :
      delivered react state exiData segmentation.reads =
        serve react state .appHand (frames 0 segmentation.reads) :=
    foldl_handleSocket react segmentation.reads
      (s := ⟨state, exiData, .appHand, true, 0, []⟩) rfl
  refine ⟨⟨fun h => ?_, fun h σ react state => ?_⟩, fun hvalid => ⟨fun h => ?_, fun h => ?_⟩⟩
  · apply serve_injective
    rw [← hrun, h, expected_eq_serve]
  · rw [hrun, h, expected_eq_serve]
  · exact reads_eq_of_frames hvalid segmentation.nonempty segmentation.flatten_eq h
  · rw [h]

/-- Two short messages that a vehicle sends one right after the other. -/
def twoMessages : List V2gtpMessage :=
  [⟨0x01, 0xFE, 0x8001, [0x80, 0x00], by decide, by decide⟩,
    ⟨0x01, 0xFE, 0x8001, [0x80, 0x04], by decide, by decide⟩]

/-- Both messages in one read. -/
def oneRead : Segmentation twoMessages where
  reads := [(twoMessages.map V2gtpMessage.bytes).flatten]
  nonempty := by decide
  fits := by decide
  flatten_eq := by decide

/-- Of two messages in one read the second is taken for a part of the first. -/
theorem one_read_loses_message :
    delivered (fun (_ : Unit) protocol _ _ => ⟨(), protocol, none, true⟩) ()
        (List.replicate exiDataSize 0) oneRead.reads ≠
      expected (fun (_ : Unit) protocol _ _ => ⟨(), protocol, none, true⟩) () .appHand 0
        twoMessages := by decide

end Esp32Firmware.Iso15118
