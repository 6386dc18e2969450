import Esp32Firmware.Config.Tree

/-!
# Configurations and JSON

An update copies the configuration, walks to the addressed node, updates it
from the JSON payload and validates the whole copy. A JSON node acts on a
configuration, so the recursion is on the JSON node.

The JSON document of a configuration is read by the backends, and it is what persistent
configurations are stored as. An object writes null for its members under the censored keys,
unless they are empty strings.

## Implementation notes

The JSON library is given the strings as C strings. What it makes of a float is a parameter.
Censored keys are compared as strings, the source compares the addresses of their literals.
-/

namespace Esp32Firmware.Configuration

/-- A parsed JSON node. A number that is not an integer of 64 bits is kept as the bit pattern
of a double. -/
inductive Json where
  | null
  | bool (value : Bool)
  | int (value : Int)
  | float (bits : UInt64)
  | string (value : String)
  | array (elements : List Json)
  | object (members : List (String × Json))

/-- What a JSON node does to a configuration: an error message, or the updated node. -/
abbrev Visit := Config → Except String Config

namespace Json

/-- The number is an integer between the two bounds. -/
def asInteger (lo hi : Int) : Json → Option Int
  | .int value => if lo ≤ value ∧ value ≤ hi then some value else none
  | _ => none

/-- `null`, `""`, `false`, `0`, `[]` and `{}`. -/
def isFalsy : Json → Bool
  | .null => true
  | .bool value => !value
  | .int value => value == 0
  | .float bits => bits <<< 1 == 0
  | .string value => value == ""
  | .array elements => elements.isEmpty
  | .object members => members.isEmpty

def isObject : Json → Bool
  | .object _ => true
  | _ => false

end Json

def withPrefix (text : String) (result : Except String α) : Except String α :=
  result.mapError (text ++ ·)

section

variable (asFloat : Json → UInt32) (forceSameKeys permitNullUpdates : Bool)

def permitNull (c : Config) : Except String Config :=
  if permitNullUpdates then .ok c else .error "Null updates not permitted."

/-- The update from a null node. -/
def fromNull : Visit
  | .empty => .ok .empty
  | c => permitNull permitNullUpdates c

/-- The update of a number from a node that must be an integer between the bounds. -/
def fromInteger (node : Json) (lo hi : Int) (message : String) (set : Int → Config) :
    Except String Config :=
  match node.asInteger lo hi with
  | some value => .ok (set value)
  | none => .error message

/-- The update of a leaf from a node that is not null. -/
def fromJsonLeaf (node : Json) : Visit
  | .string _ minChars maxChars =>
    match node with
    | .string value => .ok (.string value minChars maxChars)
    | _ => .error "JSON node was not a string."
  | .float _ =>
    match node with
    | .int _ | .float _ => .ok (.float (asFloat node))
    | _ => .error "JSON node was not a float."
  | .int _ min max =>
    fromInteger node (-2 ^ 31) (2 ^ 31 - 1) "JSON node was not a signed integer."
      fun value => .int (.ofInt value) min max
  | .uint _ min max =>
    fromInteger node 0 (2 ^ 32 - 1) "JSON node was not an unsigned integer."
      fun value => .uint (.ofInt value) min max
  | .int52 _ =>
    fromInteger node (-2 ^ 63) (2 ^ 63 - 1) "JSON node was not a signed integer."
      fun value => .int52 (.ofInt value)
  | .uint53 _ =>
    fromInteger node 0 (2 ^ 64 - 1) "JSON node was not an unsigned integer."
      fun value => .uint53 (.ofInt value)
  | .uint32 _ =>
    fromInteger node 0 (2 ^ 32 - 1)
      "JSON node was not an unsigned integer or too big (not in 0 - 4294967295)."
      fun value => .uint32 (.ofInt value)
  | .int32 _ =>
    fromInteger node (-2 ^ 31) (2 ^ 31 - 1)
      "JSON node was not a signed integer or too big (not in -2147483648 - 2147483647)."
      fun value => .int32 (.ofInt value)
  | .uint16 _ =>
    fromInteger node 0 (2 ^ 16 - 1)
      "JSON node was not an unsigned integer or too big (not in 0 - 65535)."
      fun value => .uint16 (.ofInt value)
  | .int16 _ =>
    fromInteger node (-2 ^ 15) (2 ^ 15 - 1)
      "JSON node was not a signed integer or too big (not in -32768 - 32767)."
      fun value => .int16 (.ofInt value)
  | .uint8 _ max =>
    fromInteger node 0 (2 ^ 8 - 1)
      "JSON node was not an unsigned integer or too big (not in 0 - 255)."
      fun value => .uint8 (.ofInt value) max
  | .int8 _ =>
    fromInteger node (-2 ^ 7) (2 ^ 7 - 1)
      "JSON node was not a signed integer or too big (not in -128 - 127)."
      fun value => .int8 (.ofInt value)
  | .bool _ =>
    match node with
    | .bool value => .ok (.bool value)
    | _ => .error "JSON node was not a boolean."
  | .empty =>
    if node.isFalsy then
      .ok .empty
    else
      .error <| "JSON null node was not null or a falsy value. " ++
        "Use null, \"\", false, 0, [] or \x7b\x7d."
  | c => .ok c

/-- The elements are updated in order, up to the first error. -/
def updateElements : Nat → List Visit → List Config → Except String (List Config)
  | i, visit :: visits, value :: values => do
      let value ← withPrefix s!"[{i}] " (visit value)
      let values ← updateElements (i + 1) visits values
      return value :: values
  | _, _, _ => .ok []

/-- An array is truncated or filled up with copies of the prototype, then updated. -/
def updateArray (visits : List Visit) (val : List Config) (prototype : Config) :
    Except String (List Config) :=
  updateElements 0 visits
    (val.take visits.length ++ List.replicate (visits.length - val.length) prototype)

/-- The error report of an object: its text and whether later errors were left out. -/
structure MemberErrors where
  text : String := ""
  moreErrors : Bool := false

def MemberErrors.add (errors : MemberErrors) (message : String) : MemberErrors :=
  if errors.text.utf8ByteSize < 1000 then
    { errors with text := errors.text ++ message }
  else
    { errors with moreErrors := true }

/-- What the members of a JSON object do, under their keys. -/
abbrev MemberVisits := List (String × Visit)

/-- The first member under a key is removed. -/
def removeMember (key : String) (visits : MemberVisits) : MemberVisits :=
  visits.eraseP fun m => key == m.1

/-- The member of a configuration object is updated, or kept and its error reported. -/
def updateMember (key : String) (visit : Visit) (value : Config) (errors : MemberErrors) :
    Config × MemberErrors :=
  match visit value with
  | .ok value => (value, errors)
  | .error message => (value, errors.add s!"[\"{key}\"] {message}\n")

/-- All members in the order of the schema. A key the JSON object does not have is skipped, or
reported and then visited as null. What remains of the JSON object are its unknown keys. -/
def updateMembers : MemberVisits → List (String × Config) → MemberErrors →
    List (String × Config) × MemberVisits × MemberErrors
  | visits, [], errors => ([], visits, errors)
  | visits, (key, value) :: rest, errors =>
    match visits.lookup key with
    | some visit =>
      let (value, errors) := updateMember key visit value errors
      let (members, visits, errors) := updateMembers (removeMember key visits) rest errors
      ((key, value) :: members, visits, errors)
    | none =>
      if forceSameKeys then
        let errors := errors.add s!"JSON object is missing key '{key}'\n"
        let (value, errors) := updateMember key (fromNull permitNullUpdates) value errors
        let (members, visits, errors) := updateMembers visits rest errors
        ((key, value) :: members, visits, errors)
      else
        let (members, visits, errors) := updateMembers visits rest errors
        ((key, value) :: members, visits, errors)

def addUnknownKeys (visits : MemberVisits) (errors : MemberErrors) : MemberErrors :=
  visits.foldl (fun errors m => errors.add s!"JSON object has unknown key '{m.1}'.\n") errors

def updateObject (visits : MemberVisits) (members : List (String × Config)) :
    Except String (List (String × Config)) :=
  let (members, visits, errors) :=
    updateMembers forceSameKeys permitNullUpdates visits members {}
  let errors := if forceSameKeys then addUnknownKeys visits errors else errors
  if 0 < errors.text.utf8ByteSize then
    .error <| if errors.moreErrors then
      errors.text ++ "More errors occurred that got filtered out.\n"
    else
      errors.text
  else
    .ok members

/-- The tag a union gets from the first element of its JSON array. -/
def newTag (tag : UInt8) : Json → Except String UInt8
  | .null => if permitNullUpdates then .ok tag else .error "[0] Null updates not permitted"
  | node =>
    match node.asInteger 0 (2 ^ 8 - 1) with
    | some value => .ok (.ofInt value)
    | none => .error "[0] JSON node was not an unsigned integer."

/-- The tag and the value of a union after `changeUnionVariant`. The value is a copy of the
prototype of the new tag. -/
def changeUnionVariant (tag : UInt8) (prototypes : List (UInt8 × Config)) : Except String Config :=
  match prototypes.lookup tag with
  | some config => .ok config
  | none => .error s!"[0] Unknown union tag: {tag}"

/-- The tag decides over the prototype of the value before the value is updated. -/
def updateUnion (first : Json) (visit : Visit) (tag : UInt8) (val : Config)
    (prototypes : List (UInt8 × Config)) : Except String Config := do
  let tag' ← newTag permitNullUpdates tag first
  let val ← (if tag' ≠ tag then changeUnionVariant tag' prototypes else .ok val)
  let val ← visit val
  return .union tag' val prototypes

/-- The update from a node that is neither null nor a container. -/
def fromJsonScalar (node : Json) : Visit
  | .object _ => .error "JSON node was not an object."
  | .array .. | .union .. | .tuple .. => .error "JSON node was not an array."
  | c => fromJsonLeaf asFloat node c

mutual

/-- The visitor that updates a node from JSON, below the root. -/
def fromJson : Json → Visit
  | .null => fromNull permitNullUpdates
  | .array nodes => fun c =>
    let visits := fromJsonElements nodes
    match c with
    | .array val prototype minElements maxElements => do
        return .array (← updateArray visits val prototype) prototype minElements maxElements
    | .object _ => .error "JSON node was not an object."
    | .union tag val prototypes =>
      match nodes, visits with
      | [first, _], [_, visit] => updateUnion permitNullUpdates first visit tag val prototypes
      | _, _ => .error "JSON array had length != 2."
    | .tuple values =>
      if nodes.length = values.length then do
        return .tuple (← updateElements 0 visits values)
      else
        .error s!"Length mismatch: expected {values.length} but got {nodes.length}"
    | c => fromJsonLeaf asFloat (.array nodes) c
  | .object nodes => fun c =>
    let visits := fromJsonMembers nodes
    match c with
    | .object members => do
        return .object (← updateObject forceSameKeys permitNullUpdates visits members)
    | .array .. | .union .. | .tuple .. => .error "JSON node was not an array."
    | c => fromJsonLeaf asFloat (.object nodes) c
  | .bool value => fromJsonScalar asFloat (.bool value)
  | .int value => fromJsonScalar asFloat (.int value)
  | .float bits => fromJsonScalar asFloat (.float bits)
  | .string value => fromJsonScalar asFloat (.string value)

def fromJsonElements : List Json → List Visit
  | [] => []
  | node :: rest => fromJson node :: fromJsonElements rest

def fromJsonMembers : List (String × Json) → MemberVisits
  | [] => []
  | (key, node) :: rest => (key, fromJson node) :: fromJsonMembers rest

end

def confirmKey : String :=
  "do_i_know_what_i_am_doing"

/-- At the addressed node, a JSON node that is no object stands for the only member of an
object, unless that member is the confirm key. -/
def fromJsonRoot (node : Json) : Visit
  | .object [(key, value)] =>
    match node with
    | .null => permitNull permitNullUpdates (.object [(key, value)])
    | _ =>
      if ¬ node.isObject ∧ confirmKey ≠ key then
        match fromJson asFloat forceSameKeys permitNullUpdates node value with
        | .ok value => .ok (.object [(key, value)])
        | .error message => .error s!"(inferred) [\"{key}\"] {message}\n"
      else
        fromJson asFloat forceSameKeys permitNullUpdates node (.object [(key, value)])
  | c => fromJson asFloat forceSameKeys permitNullUpdates node c

end

section

/-- The check that a value lies between a minimum and a maximum. -/
def validateRange [LE α] [DecidableLE α] [ToString α] (kind : String) (val min max : α) :
    Except String Unit :=
  if ¬ min ≤ val then
    .error s!"{kind} value {val} was less than the allowed minimum of {min}"
  else if ¬ val ≤ max then
    .error s!"{kind} value {val} was more than the allowed maximum of {max}"
  else
    .ok ()

def validateString (val : String) (minChars maxChars : UInt16) : Except String Unit :=
  if val.utf8ByteSize < minChars.toNat then
    .error s!"String of minimum length {minChars} was expected, but got {val.utf8ByteSize}"
  else if maxChars = 0 ∨ val.utf8ByteSize ≤ maxChars.toNat then
    .ok ()
  else
    .error s!"String of maximum length {maxChars} was expected, but got {val.utf8ByteSize}"

def validateLength (size : Nat) (minElements maxElements : UInt16) : Except String Unit :=
  if 0 < maxElements ∧ maxElements.toNat < size then
    .error s!"Array had {size} entries, but only {maxElements} are allowed."
  else if 0 < minElements ∧ size < minElements.toNat then
    .error s!"Array had {size} entries, but at least {minElements} are required."
  else
    .ok ()

/-- The number of a node's variant, in the order of the source's enumeration. -/
def Config.variantTag : Config → Nat
  | .empty => 0
  | .string .. => 1
  | .float .. => 2
  | .int .. => 3
  | .uint .. => 4
  | .bool .. => 5
  | .array .. => 6
  | .object .. => 7
  | .union .. => 8
  | .int52 .. => 9
  | .uint53 .. => 10
  | .uint32 .. => 11
  | .int32 .. => 12
  | .uint16 .. => 13
  | .int16 .. => 14
  | .uint8 .. => 15
  | .int8 .. => 16
  | .tuple .. => 17

def validateVariants (variantType : Nat) : Nat → List Config → Except String Unit
  | _, [] => .ok ()
  | i, value :: rest =>
    if value.variantTag ≠ variantType then
      .error s!"[{i}] has wrong type"
    else
      validateVariants variantType (i + 1) rest

mutual

/-- The limits of every node below a configuration. -/
def defaultValidator : Config → Except String Unit
  | .string val minChars maxChars => validateString val minChars maxChars
  | .int val min max => validateRange "Integer" val min max
  | .uint val min max => validateRange "Unsigned integer" val min max
  | .int52 val => validateRange "Integer" val.toInt (-2 ^ 52 - 1) (2 ^ 52 - 1)
  | .uint53 val => validateRange "Unsigned integer" val.toNat 0 (2 ^ 53 - 1)
  | .uint8 val max =>
    if ¬ val ≤ max then
      .error s!"Unsigned integer value {val} was more than the allowed maximum of {max}"
    else
      .ok ()
  | .array val prototype minElements maxElements => do
      validateLength val.length minElements maxElements
      validateVariants prototype.variantTag 0 val
      validateElements 0 val
  | .object members => validateMembers members
  | .union _ val _ => defaultValidator val
  | .tuple values => validateElements 0 values
  | _ => .ok ()

def validateElements : Nat → List Config → Except String Unit
  | _, [] => .ok ()
  | i, value :: rest => do
      withPrefix s!"[{i}] " (defaultValidator value)
      validateElements (i + 1) rest

def validateMembers : List (String × Config) → Except String Unit
  | [] => .ok ()
  | (key, value) :: rest => do
      withPrefix s!"[\"{key}\"] " (defaultValidator value)
      validateMembers rest

end

end

/-- Where an update comes from. -/
inductive ConfigSource where
  | file
  | api
  | code

/-- A configuration with the validator of its module. A validator sees the copy after the
default validator and may still write to it. -/
structure ConfigRoot where
  config : Config
  validator : Option (Config → ConfigSource → Except String Config)
  permitNullUpdates : Bool

namespace ConfigRoot

variable (asFloat : Json → UInt32)

def validate (root : ConfigRoot) (copy : Config) (source : ConfigSource) : Except String Config :=
  match root.validator with
  | some validator => validator copy source
  | none => .ok copy

def getUpdatedCopy (root : ConfigRoot) (node : Json) (forceSameKeys : Bool)
    (source : ConfigSource) (path : List Key) : Except String Config :=
  match root.config.walk path with
  | none => .error "path not found"
  | some subConfig => do
      let subConfig ← (fromJsonRoot asFloat forceSameKeys root.permitNullUpdates node
        subConfig).mapError fun message => message.trimAscii.copy
      let copy := root.config.writeAt path subConfig
      defaultValidator copy
      root.validate copy source

def updateFromCopy (root : ConfigRoot) (copy : Config) : ConfigRoot :=
  { root with config := copy }

def updateFromJson (root : ConfigRoot) (node : Json) (forceSameKeys : Bool)
    (source : ConfigSource) (path : List Key) : Except String ConfigRoot := do
  let copy ← root.getUpdatedCopy asFloat node forceSameKeys source path
  return root.updateFromCopy copy

end ConfigRoot

/-- What the JSON library sees of a string: the characters before the first NUL. -/
def cString (s : String) : String :=
  .ofList (s.toList.takeWhile (· ≠ '\x00'))

namespace Config

def isEmptyString : Config → Bool
  | .string val _ _ => val == ""
  | _ => false

/-- A member of an object is censored if it is set. -/
def isCensored (keysToCensor : List String) (key : String) (child : Config) : Bool :=
  keysToCensor.contains key && !child.isEmptyString

variable (floatJson : UInt32 → Json) (keysToCensor : List String)

mutual

def toJson : Config → Json
  | .empty => .null
  | .string val _ _ => .string (cString val)
  | .float val => floatJson val
  | .int val _ _ => .int val.toInt
  | .uint val _ _ => .int val.toNat
  | .int52 val => .int val.toInt
  | .uint53 val => .int val.toNat
  | .uint32 val => .int val.toNat
  | .int32 val => .int val.toInt
  | .uint16 val => .int val.toNat
  | .int16 val => .int val.toInt
  | .uint8 val _ => .int val.toNat
  | .int8 val => .int val.toInt
  | .bool val => .bool val
  | .array val _ _ _ => .array (toJsonElements val)
  | .object members => .object (toJsonMembers members)
  | .union tag val _ => .array [.int tag.toNat, toJson val]
  | .tuple values => .array (toJsonElements values)

def toJsonElements : List Config → List Json
  | [] => []
  | value :: rest => toJson value :: toJsonElements rest

def toJsonMembers : List (String × Config) → List (String × Json)
  | [] => []
  | (key, child) :: rest =>
    (key, if child.isCensored keysToCensor key then .null else toJson child) :: toJsonMembers rest

end

end Config

end Esp32Firmware.Configuration
