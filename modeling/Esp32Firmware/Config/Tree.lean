import Mathlib.Data.List.Basic
import Mathlib.Algebra.Group.Int.Defs
import Mathlib.Algebra.Group.Nat.Defs

/-!
# Configuration trees

A configuration is a tree whose nodes carry their own limits. Arrays and
unions also carry the prototypes from which new elements and new values are
copied. The schema of a configuration forgets its values and keeps the rest.
-/

namespace Esp32Firmware.Configuration

/-- A node of a configuration. A float is kept as its bit pattern, as in its slot. -/
inductive Config where
  | empty
  | string (val : String) (minChars maxChars : UInt16)
  | float (val : UInt32)
  | int (val min max : Int32)
  | uint (val min max : UInt32)
  | int52 (val : Int64)
  | uint53 (val : UInt64)
  | uint32 (val : UInt32)
  | int32 (val : Int32)
  | uint16 (val : UInt16)
  | int16 (val : Int16)
  | uint8 (val max : UInt8)
  | int8 (val : Int8)
  | bool (val : Bool)
  | array (val : List Config) (prototype : Config) (minElements maxElements : UInt16)
  | object (members : List (String × Config))
  | union (tag : UInt8) (val : Config) (prototypes : List (UInt8 × Config))
  | tuple (values : List Config)

/-- The limits, the keys and the prototypes of a configuration, without its values. -/
inductive Schema where
  | empty
  | string (minChars maxChars : UInt16)
  | float
  | int (min max : Int32)
  | uint (min max : UInt32)
  | int52
  | uint53
  | uint32
  | int32
  | uint16
  | int16
  | uint8 (max : UInt8)
  | int8
  | bool
  | array (element : Schema) (minElements maxElements : UInt16)
  | object (members : List (String × Schema))
  | union (prototypes : List (UInt8 × Schema))
  | tuple (elements : List Schema)

/-- A step of a path: the key of an object or the index into an array, a tuple or a union. -/
inductive Key where
  | name (key : String)
  | index (i : Nat)
deriving DecidableEq

namespace Config

mutual

/-- The schema of a configuration. The elements of an array have the schema of its prototype. -/
def schema : Config → Schema
  | .empty => .empty
  | .string _ minChars maxChars => .string minChars maxChars
  | .float _ => .float
  | .int _ min max => .int min max
  | .uint _ min max => .uint min max
  | .int52 _ => .int52
  | .uint53 _ => .uint53
  | .uint32 _ => .uint32
  | .int32 _ => .int32
  | .uint16 _ => .uint16
  | .int16 _ => .int16
  | .uint8 _ max => .uint8 max
  | .int8 _ => .int8
  | .bool _ => .bool
  | .array _ prototype minElements maxElements => .array prototype.schema minElements maxElements
  | .object members => .object (memberSchemas members)
  | .union _ _ prototypes => .union (prototypeSchemas prototypes)
  | .tuple values => .tuple (valueSchemas values)

def memberSchemas : List (String × Config) → List (String × Schema)
  | [] => []
  | (key, value) :: rest => (key, value.schema) :: memberSchemas rest

def prototypeSchemas : List (UInt8 × Config) → List (UInt8 × Schema)
  | [] => []
  | (tag, config) :: rest => (tag, config.schema) :: prototypeSchemas rest

def valueSchemas : List Config → List Schema
  | [] => []
  | value :: rest => value.schema :: valueSchemas rest

end

theorem memberSchemas_eq_map (members : List (String × Config)) :
    memberSchemas members = members.map fun m => (m.1, m.2.schema) := by
  induction members with
  | nil => rfl
  | cons m rest ih => rw [memberSchemas, ih, List.map_cons]

theorem valueSchemas_eq_map (values : List Config) : valueSchemas values = values.map schema := by
  induction values with
  | nil => rfl
  | cons value rest ih => rw [valueSchemas, ih, List.map_cons]

/-- The child a key selects, `none` where the source returns a null pointer. -/
def getOrNull : Config → Key → Option Config
  | .object members, .name key => members.lookup key
  | .array val _ _ _, .index i => val[i]?
  | .union tag _ _, .index 0 => some (.uint8 tag 255)
  | .union _ val _, .index 1 => some val
  | .tuple values, .index i => values[i]?
  | _, _ => none

def setMember (key : String) (value : Config) :
    List (String × Config) → List (String × Config)
  | [] => []
  | m :: rest => if key == m.1 then (m.1, value) :: rest else m :: setMember key value rest

/-- Writing through the pointer that `getOrNull` returns. -/
def assign : Config → Key → Config → Config
  | .object members, .name key, value => .object (setMember key value members)
  | .array val prototype minElements maxElements, .index i, value =>
    .array (val.set i value) prototype minElements maxElements
  | .union _ val prototypes, .index 0, .uint8 tag _ => .union tag val prototypes
  | .union tag _ prototypes, .index 1, value => .union tag value prototypes
  | .tuple values, .index i, value => .tuple (values.set i value)
  | c, _, _ => c

/-- The node a path leads to. -/
def walk : Config → List Key → Option Config
  | c, [] => some c
  | c, key :: path =>
    match c.getOrNull key with
    | some child => child.walk path
    | none => none

/-- Writing through the pointer that `walk` returns. -/
def writeAt : Config → List Key → Config → Config
  | _, [], value => value
  | c, key :: path, value =>
    match c.getOrNull key with
    | some child => c.assign key (child.writeAt path value)
    | none => c

def isLeaf : Config → Bool
  | .array .. | .object .. | .union .. | .tuple .. => false
  | _ => true

/-- A value is within the limits of its leaf. A maximum length of zero is no limit. -/
def LeafInLimits : Config → Prop
  | .string val minChars maxChars =>
    minChars.toNat ≤ val.utf8ByteSize ∧ (maxChars = 0 ∨ val.utf8ByteSize ≤ maxChars.toNat)
  | .int val min max => min ≤ val ∧ val ≤ max
  | .uint val min max => min ≤ val ∧ val ≤ max
  | .int52 val => -2 ^ 52 - 1 ≤ val.toInt ∧ val.toInt ≤ 2 ^ 52 - 1
  | .uint53 val => val.toNat ≤ 2 ^ 53 - 1
  | .uint8 val max => val ≤ max
  | _ => True

/-- Every node has the shape its parent asks for: the elements of an array have the schema of
its prototype, and the tag of a union belongs to a prototype with the schema of its value. -/
inductive WellFormed : Config → Prop
  | leaf {c : Config} (hleaf : c.isLeaf = true) : WellFormed c
  | array {val : List Config} {prototype : Config} {minElements maxElements : UInt16}
      (hprototype : WellFormed prototype) (hval : ∀ c ∈ val, WellFormed c)
      (hschema : ∀ c ∈ val, c.schema = prototype.schema) :
      WellFormed (.array val prototype minElements maxElements)
  | object {members : List (String × Config)} (hmembers : ∀ m ∈ members, WellFormed m.2) :
      WellFormed (.object members)
  | union {tag : UInt8} {val : Config} {prototypes : List (UInt8 × Config)}
      (hval : WellFormed val) (hprototypes : ∀ p ∈ prototypes, WellFormed p.2)
      (htag : (prototypes.lookup tag).map schema = some val.schema) :
      WellFormed (.union tag val prototypes)
  | tuple {values : List Config} (hvalues : ∀ c ∈ values, WellFormed c) :
      WellFormed (.tuple values)

/-- Every number, every string and every array is within its limits. -/
inductive InLimits : Config → Prop
  | leaf {c : Config} (hleaf : c.isLeaf = true) (hlimits : c.LeafInLimits) : InLimits c
  | array {val : List Config} {prototype : Config} {minElements maxElements : UInt16}
      (hmax : maxElements = 0 ∨ val.length ≤ maxElements.toNat)
      (hmin : minElements.toNat ≤ val.length) (hval : ∀ c ∈ val, InLimits c) :
      InLimits (.array val prototype minElements maxElements)
  | object {members : List (String × Config)} (hmembers : ∀ m ∈ members, InLimits m.2) :
      InLimits (.object members)
  | union {tag : UInt8} {val : Config} {prototypes : List (UInt8 × Config)}
      (hval : InLimits val) : InLimits (.union tag val prototypes)
  | tuple {values : List Config} (hvalues : ∀ c ∈ values, InLimits c) :
      InLimits (.tuple values)

/-- A configuration of this schema that is well formed and within its limits. -/
structure Conforms (c : Config) (σ : Schema) : Prop where
  schema : c.schema = σ
  wellFormed : c.WellFormed
  inLimits : c.InLimits

end Config

end Esp32Firmware.Configuration
