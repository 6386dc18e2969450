import Mathlib.Data.List.Basic
import Mathlib.Algebra.Group.Int.Defs
import Mathlib.Algebra.Group.Nat.Defs

/-!
# SHIP messages

What a SHIP connection reads from its incoming message: the assembled frames, the first two bytes
of the mode initialisation, the hello, the protocol handshake and the kind of a message in the data
exchange.

## Implementation notes

The JSON library is a parameter, as functions from the buffer behind the message type and the
length of the text. It gives the objects of the arrays that are read; a number is already converted
to the type it is read with. The bytes behind the written part of the buffer are 0.
-/

namespace Esp32Firmware.Eebus

/-- `SHIP_CONNECTION_MAX_BUFFER_SIZE` -/
def shipConnectionMaxBufferSize : ℕ := 8192 * 2

/-- An index of `none` means that no message is being assembled. -/
structure Message where
  data : List UInt8 := []
  length : ℕ := 0
  multipartIndex : Option ℕ := none
deriving DecidableEq, Repr

namespace Message

/-- The message after a frame, and whether the frame completes it. -/
def append (frame : List UInt8) (fin : Bool) (m : Message) : Message × Bool :=
  let index := m.multipartIndex.getD 0
  let m := if m.multipartIndex = none then { data := [], length := 0 } else m
  if shipConnectionMaxBufferSize ≤ index + frame.length then
    ({ m with multipartIndex := none, length := 0 }, false)
  else
    ({ data := m.data.take index ++ frame
       length := m.length + frame.length
       multipartIndex := if fin then none else some (index + frame.length) }, fin)

def byte (i : ℕ) (m : Message) : UInt8 := m.data.getD i 0

/-- The length of the JSON text, a `size_t`. -/
def textLength (m : Message) : ℕ := (m.length + (2 ^ 32 - 1)) % 2 ^ 32

/-- Type and value of a message of the connection mode initialisation. -/
def getCmiMessage (m : Message) : Option (UInt8 × UInt8) :=
  if m.length < 2 then none else some (m.byte 0, m.byte 1)

end Message

def ascii (s : String) : List UInt8 := s.toList.map fun c => UInt8.ofNat c.toNat

inductive ProtocolState where
  | connectionHello
  | messageProtocolHandshake
  | connectionPinState
  | accessMethodsRequest
  | accessMethods
  | data
  | terminate
  | none
  | unknown
deriving DecidableEq, Repr

/-- What stands between the first two quotation marks. -/
def firstKey (text : List UInt8) : Option (List UInt8) :=
  match text.dropWhile (· ≠ 34) with
  | [] => none
  | _ :: rest => if 34 ∈ rest then some (rest.takeWhile (· ≠ 34)) else none

def Message.getProtocolState (m : Message) : ProtocolState :=
  if m.byte 0 = 3 then .terminate
  else if (m.byte 0 ≠ 1 ∧ m.byte 0 ≠ 2) ∨ m.length < 3 then .none
  else
    match firstKey ((m.data.drop 1).take (m.length - 1)) with
    | none => .unknown
    | some key =>
      if key = ascii "connectionHello" then .connectionHello
      else if key = ascii "connectionPinState" then .connectionPinState
      else if key = ascii "messageHello" then .connectionHello
      else if key = ascii "accessMethodsRequest" then .accessMethodsRequest
      else if key = ascii "accessMethods" then .accessMethods
      else if key = ascii "data" then .data
      else .unknown

theorem Message.getProtocolState_ne_messageProtocolHandshake (m : Message) :
    m.getProtocolState ≠ .messageProtocolHandshake := by
  rw [getProtocolState]
  repeat' split
  all_goals exact ProtocolState.noConfusion

inductive ConnectionHelloPhase where
  | pending
  | ready
  | aborted
  | unknown
deriving DecidableEq, Repr

def ConnectionHelloPhase.fromStr (str : String) : ConnectionHelloPhase :=
  if str = "pending" then .pending
  else if str = "ready" then .ready
  else if str = "aborted" then .aborted
  else .unknown

structure ConnectionHello where
  phase : ConnectionHelloPhase := .pending
  waiting : ℕ := 0
  waitingValid : Bool := false
  prolongationRequest : Bool := false
  prolongationRequestValid : Bool := false
deriving DecidableEq, Repr

/-- An object of the array of a hello message. -/
structure HelloObject where
  phase : Option String := none
  waiting : Option ℕ := none
  prolongationRequest : Option Bool := none
deriving DecidableEq, Repr

namespace ConnectionHello

def read (hello : ConnectionHello) (obj : HelloObject) : ConnectionHello :=
  match obj.phase, obj.waiting, obj.prolongationRequest with
  | some phase, _, _ => { hello with phase := ConnectionHelloPhase.fromStr phase }
  | none, some waiting, _ => { hello with waiting := waiting, waitingValid := true }
  | none, none, some request =>
    { hello with prolongationRequest := request, prolongationRequestValid := true }
  | none, none, none => hello

/-- The optional fields are read anew, the phase stays until a message gives one. -/
def jsonToType (hello : ConnectionHello) (objects : List HelloObject) : ConnectionHello :=
  objects.foldl read { phase := hello.phase }

/-- The message gives a phase. -/
def givesPhase (objects : List HelloObject) : Bool := objects.any fun obj => obj.phase.isSome

theorem read_phase_of_isNone {hello : ConnectionHello} {obj : HelloObject}
    (h : obj.phase.isSome = false) : (hello.read obj).phase = hello.phase := by
  have hnone : obj.phase = none := by simpa using h
  rw [read, hnone]
  cases obj.waiting with
  | some waiting => rfl
  | none => cases obj.prolongationRequest <;> rfl

theorem jsonToType_phase_of_not_givesPhase {hello : ConnectionHello}
    {objects : List HelloObject} (h : givesPhase objects = false) :
    (hello.jsonToType objects).phase = hello.phase := by
  have hfold : ∀ start : ConnectionHello, (objects.foldl read start).phase = start.phase := by
    induction objects with
    | nil =>
      intro start
      rfl
    | cons obj rest ih =>
      intro start
      rw [givesPhase, List.any_cons, Bool.or_eq_false_iff] at h
      exact (ih h.2 _).trans (read_phase_of_isNone h.1)
  exact hfold _

end ConnectionHello

inductive ProtocolHandshakeKind where
  | announceMax
  | select
  | unknown
deriving DecidableEq, Repr

def ProtocolHandshakeKind.fromStr (str : String) : ProtocolHandshakeKind :=
  if str = "announceMax" then .announceMax
  else if str = "select" then .select
  else .unknown

structure ProtocolVersion where
  major : ℕ
  minor : ℕ
deriving DecidableEq, Repr

/-- Not above another version, in both parts. -/
def ProtocolVersion.Within (v w : ProtocolVersion) : Prop := v.major ≤ w.major ∧ v.minor ≤ w.minor

instance (v w : ProtocolVersion) : Decidable (v.Within w) := inferInstanceAs (Decidable (_ ∧ _))

structure ProtocolHandshake where
  handshakeType : ProtocolHandshakeKind := .unknown
  version : ProtocolVersion := ⟨0, 0⟩
deriving DecidableEq, Repr

/-- An object of the array of a version. -/
structure VersionObject where
  major : Option ℕ := none
  minor : Option ℕ := none
deriving DecidableEq, Repr

/-- An object of the array of a protocol handshake message. -/
structure HandshakeObject where
  handshakeType : Option String := none
  version : Option (List VersionObject) := none
deriving DecidableEq, Repr

def ProtocolVersion.read (v : ProtocolVersion) (obj : VersionObject) : ProtocolVersion :=
  match obj.major, obj.minor with
  | some major, _ => { v with major := major }
  | none, some minor => { v with minor := minor }
  | none, none => v

def ProtocolHandshake.read (handshake : ProtocolHandshake) (obj : HandshakeObject) :
    ProtocolHandshake :=
  match obj.handshakeType, obj.version with
  | some kind, _ => { handshake with handshakeType := ProtocolHandshakeKind.fromStr kind }
  | none, some parts =>
    { handshake with version := parts.foldl ProtocolVersion.read handshake.version }
  | none, none => handshake

def ProtocolHandshake.jsonToType (objects : List HandshakeObject) : ProtocolHandshake :=
  objects.foldl read {}

/-- The JSON library on the text of a message. Nothing is given if the text is not JSON, or for a
handshake if it has no `messageProtocolHandshake` array. -/
structure ShipJson where
  hello : List UInt8 → ℕ → Option (List HelloObject)
  handshake : List UInt8 → ℕ → Option (List HandshakeObject)
  isData : List UInt8 → ℕ → Bool

/-- The bytes behind the message type. -/
def Message.text (m : Message) : List UInt8 := m.data.drop 1

def Message.hello (json : ShipJson) (m : Message) : Option (List HelloObject) :=
  json.hello m.text m.textLength

def Message.handshake (json : ShipJson) (m : Message) : Option ProtocolHandshake :=
  (json.handshake m.text m.textLength).map ProtocolHandshake.jsonToType

def Message.isData (json : ShipJson) (m : Message) : Bool := json.isData m.text m.textLength

end Esp32Firmware.Eebus
