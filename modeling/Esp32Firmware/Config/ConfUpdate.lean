import Esp32Firmware.Config.Update

/-!
# Updating a configuration from memory

The firmware updates its own configurations with trees of values. Their visitor was written
apart from the one for JSON. Like a JSON node, such a tree acts on a configuration.
-/

namespace Esp32Firmware.Configuration

/-- An update in memory. Integers come in eight widths. -/
inductive ConfUpdate where
  | null
  | string (value : String)
  | float (value : UInt32)
  | uint32 (value : UInt32)
  | int32 (value : Int32)
  | bool (value : Bool)
  | array (elements : List ConfUpdate)
  | object (elements : List (String × ConfUpdate))
  | union (tag : UInt8) (value : ConfUpdate)
  | int64 (value : Int64)
  | uint64 (value : UInt64)
  | uint16 (value : UInt16)
  | int16 (value : Int16)
  | uint8 (value : UInt8)
  | int8 (value : Int8)

namespace ConfUpdate

/-- The number of the variant's type. -/
def which : ConfUpdate → Nat
  | .null => 0
  | .string _ => 1
  | .float _ => 2
  | .uint32 _ => 3
  | .int32 _ => 4
  | .bool _ => 5
  | .array _ => 6
  | .object _ => 7
  | .union .. => 8
  | .int64 _ => 9
  | .uint64 _ => 10
  | .uint16 _ => 11
  | .int16 _ => 12
  | .uint8 _ => 13
  | .int8 _ => 14

/-- The integer as 64 bits. An unsigned one that does not fit is only reported. -/
def extractInt : ConfUpdate → Option Int64
  | .int8 value => some (.ofInt value.toInt)
  | .uint8 value => some (.ofInt value.toNat)
  | .int16 value => some (.ofInt value.toInt)
  | .uint16 value => some (.ofInt value.toNat)
  | .int32 value => some (.ofInt value.toInt)
  | .uint32 value => some (.ofInt value.toNat)
  | .int64 value => some value
  | .uint64 value => some (.ofInt value.toNat)
  | _ => none

end ConfUpdate

section

/-- The update of a number. A value out of range is only reported, then cut to the width of the
node. -/
def fromExtracted (update : ConfUpdate) (message : String) (set : Int → Config) :
    Except String Config :=
  match update.extractInt with
  | some value => .ok (set value.toInt)
  | none => .error message

/-- The update of a leaf, and the error of a container, from an update that is no container of
the same kind. -/
def fromUpdateLeaf (update : ConfUpdate) : Visit
  | .string _ minChars maxChars =>
    match update with
    | .string value => .ok (.string value minChars maxChars)
    | _ => .error "ConfUpdate node was not a string."
  | .float _ =>
    match update with
    | .float value => .ok (.float value)
    | _ => .error "ConfUpdate node was not a float."
  | .int _ min max =>
    fromExtracted update "ConfUpdate node was not a signed integer."
      fun value => .int (.ofInt value) min max
  | .uint _ min max =>
    fromExtracted update "ConfUpdate node was not an unsigned integer."
      fun value => .uint (.ofInt value) min max
  | .int52 _ =>
    fromExtracted update "ConfUpdate node was not a signed integer."
      fun value => .int52 (.ofInt value)
  | .uint53 _ =>
    fromExtracted update "ConfUpdate node was not an unsigned integer."
      fun value => .uint53 (.ofInt value)
  | .uint32 _ =>
    fromExtracted update "ConfUpdate node was not an unsigned integer."
      fun value => .uint32 (.ofInt value)
  | .int32 _ =>
    fromExtracted update "ConfUpdate node was not a signed integer."
      fun value => .int32 (.ofInt value)
  | .uint16 _ =>
    fromExtracted update "ConfUpdate node was not an unsigned integer."
      fun value => .uint16 (.ofInt value)
  | .int16 _ =>
    fromExtracted update "ConfUpdate node was not a signed integer."
      fun value => .int16 (.ofInt value)
  | .uint8 _ max =>
    fromExtracted update "ConfUpdate node was not an unsigned integer."
      fun value => .uint8 (.ofInt value) max
  | .int8 _ =>
    fromExtracted update "ConfUpdate node was not a signed integer."
      fun value => .int8 (.ofInt value)
  | .bool _ =>
    match update with
    | .bool value => .ok (.bool value)
    | _ => .error "ConfUpdate node was not a boolean."
  | .empty => .error "JSON null node was not null"
  | .array .. | .tuple _ => .error "ConfUpdate node was not an array."
  | .object _ => .error s!"ConfUpdate node was variant {update.which}, not an object."
  | .union .. => .error s!"ConfUpdate node was variant {update.which}, not a union."

/-- The members in the order of the schema, up to the first error. -/
def updateNamed (visits : MemberVisits) :
    List (String × Config) → Except String (List (String × Config))
  | [] => .ok []
  | (key, value) :: rest =>
    match visits.lookup key with
    | none => .error s!"Key {key}not found in ConfUpdate object"
    | some visit => do
        let value ← withPrefix s!"[\"{key}\"] " (visit value)
        let rest ← updateNamed visits rest
        return (key, value) :: rest

/-- The tag and the value after `changeUnionVariant`, whose result is not checked: an unknown
tag changes nothing. -/
def selectVariant (tag' tag : UInt8) (val : Config) (prototypes : List (UInt8 × Config)) :
    UInt8 × Config :=
  if tag' ≠ tag then
    match prototypes.lookup tag' with
    | some config => (tag', config)
    | none => (tag, val)
  else (tag, val)

mutual

def fromUpdate : ConfUpdate → Visit
  | .null => .ok
  | .array updates => fun c =>
    let visits := fromUpdateElements updates
    match c with
    | .array val prototype minElements maxElements => do
        return .array (← updateArray visits val prototype) prototype minElements maxElements
    | .tuple values =>
      if updates.length = values.length then do
        return .tuple (← updateElements 0 visits values)
      else
        .error s!"Length mismatch: expected {values.length} but got {updates.length}"
    | c => fromUpdateLeaf (.array updates) c
  | .object updates => fun c =>
    let visits := fromUpdateMembers updates
    match c with
    | .object members =>
      if updates.length = members.length then do
        return .object (← updateNamed visits members)
      else
        .error <| s!"ConfUpdate object had {updates.length} entries instead of the expected " ++
          toString members.length
    | c => fromUpdateLeaf (.object updates) c
  | .union tag' update => fun c =>
    let visit := fromUpdate update
    match c with
    | .union tag val prototypes => do
        let (tag, val) := selectVariant tag' tag val prototypes
        return .union tag (← visit val) prototypes
    | c => fromUpdateLeaf (.union tag' update) c
  | .string value => fromUpdateLeaf (.string value)
  | .float value => fromUpdateLeaf (.float value)
  | .uint32 value => fromUpdateLeaf (.uint32 value)
  | .int32 value => fromUpdateLeaf (.int32 value)
  | .bool value => fromUpdateLeaf (.bool value)
  | .int64 value => fromUpdateLeaf (.int64 value)
  | .uint64 value => fromUpdateLeaf (.uint64 value)
  | .uint16 value => fromUpdateLeaf (.uint16 value)
  | .int16 value => fromUpdateLeaf (.int16 value)
  | .uint8 value => fromUpdateLeaf (.uint8 value)
  | .int8 value => fromUpdateLeaf (.int8 value)

def fromUpdateElements : List ConfUpdate → List Visit
  | [] => []
  | update :: rest => fromUpdate update :: fromUpdateElements rest

def fromUpdateMembers : List (String × ConfUpdate) → MemberVisits
  | [] => []
  | (key, update) :: rest => (key, fromUpdate update) :: fromUpdateMembers rest

end

end

namespace ConfigRoot

def update (root : ConfigRoot) (val : ConfUpdate) : Except String ConfigRoot := do
  let copy ← fromUpdate val root.config
  defaultValidator copy
  let copy ← root.validate copy .code
  return root.updateFromCopy copy

end ConfigRoot

variable (toDouble : UInt32 → UInt64)

mutual

/-- The JSON node that says the same as an update. A float is widened to a double. -/
def ConfUpdate.json : ConfUpdate → Json
  | .null => .null
  | .string value => .string value
  | .float value => .float (toDouble value)
  | .uint32 value => .int value.toNat
  | .int32 value => .int value.toInt
  | .bool value => .bool value
  | .array updates => .array (jsonElements updates)
  | .object updates => .object (jsonMembers updates)
  | .union tag update => .array [.int tag.toNat, json update]
  | .int64 value => .int value.toInt
  | .uint64 value => .int value.toNat
  | .uint16 value => .int value.toNat
  | .int16 value => .int value.toInt
  | .uint8 value => .int value.toNat
  | .int8 value => .int value.toInt

def ConfUpdate.jsonElements : List ConfUpdate → List Json
  | [] => []
  | update :: rest => json update :: jsonElements rest

def ConfUpdate.jsonMembers : List (String × ConfUpdate) → List (String × Json)
  | [] => []
  | (key, update) :: rest => (key, json update) :: jsonMembers rest

end

end Esp32Firmware.Configuration
