import Esp32Firmware.Config.Conformance

/-!
# Configurations with update flags

Every node has a flag for each API backend. A visitor sets all flags of the nodes it changes,
copies of a prototype come with all of them set. The visitors report a change to the parent, and
the parent sets the flags of its child.

## Implementation notes

A visitor that reports an error worked on a copy that is dropped. So the flags are described for
the JSON nodes that are accepted.
-/

namespace Esp32Firmware.Configuration

open Config

/-- Nodes without children. -/
abbrev Leaf := {c : Config // c.isLeaf = true}

/-- A configuration with the update flags of its nodes. The tag of a union is a node, too. -/
inductive Flagged where
  | leaf (updated : UInt8) (value : Leaf)
  | array (updated : UInt8) (val : List Flagged) (prototype : Config)
      (minElements maxElements : UInt16)
  | object (updated : UInt8) (members : List (String × Flagged))
  | union (updated tagUpdated : UInt8) (tag : UInt8) (val : Flagged)
      (prototypes : List (UInt8 × Config))
  | tuple (updated : UInt8) (values : List Flagged)

namespace Flagged

mutual

/-- The configuration without its flags. -/
def config : Flagged → Config
  | .leaf _ value => value
  | .array _ val prototype minElements maxElements =>
    .array (configElements val) prototype minElements maxElements
  | .object _ members => .object (configMembers members)
  | .union _ _ tag val prototypes => .union tag (config val) prototypes
  | .tuple _ values => .tuple (configElements values)

def configElements : List Flagged → List Config
  | [] => []
  | value :: rest => config value :: configElements rest

def configMembers : List (String × Flagged) → List (String × Config)
  | [] => []
  | (key, value) :: rest => (key, config value) :: configMembers rest

end

mutual

/-- A new configuration, as prototypes are. All flags are set. -/
def fresh : Config → Flagged
  | .array val prototype minElements maxElements =>
    .array 0xFF (freshElements val) prototype minElements maxElements
  | .object members => .object 0xFF (freshMembers members)
  | .union tag val prototypes => .union 0xFF 0xFF tag (fresh val) prototypes
  | .tuple values => .tuple 0xFF (freshElements values)
  | .empty => .leaf 0xFF ⟨.empty, rfl⟩
  | .string val minChars maxChars => .leaf 0xFF ⟨.string val minChars maxChars, rfl⟩
  | .float val => .leaf 0xFF ⟨.float val, rfl⟩
  | .int val min max => .leaf 0xFF ⟨.int val min max, rfl⟩
  | .uint val min max => .leaf 0xFF ⟨.uint val min max, rfl⟩
  | .int52 val => .leaf 0xFF ⟨.int52 val, rfl⟩
  | .uint53 val => .leaf 0xFF ⟨.uint53 val, rfl⟩
  | .uint32 val => .leaf 0xFF ⟨.uint32 val, rfl⟩
  | .int32 val => .leaf 0xFF ⟨.int32 val, rfl⟩
  | .uint16 val => .leaf 0xFF ⟨.uint16 val, rfl⟩
  | .int16 val => .leaf 0xFF ⟨.int16 val, rfl⟩
  | .uint8 val max => .leaf 0xFF ⟨.uint8 val max, rfl⟩
  | .int8 val => .leaf 0xFF ⟨.int8 val, rfl⟩
  | .bool val => .leaf 0xFF ⟨.bool val, rfl⟩

def freshElements : List Config → List Flagged
  | [] => []
  | value :: rest => fresh value :: freshElements rest

def freshMembers : List (String × Config) → List (String × Flagged)
  | [] => []
  | (key, value) :: rest => (key, fresh value) :: freshMembers rest

end

def updated : Flagged → UInt8
  | .leaf updated _ => updated
  | .array updated .. => updated
  | .object updated _ => updated
  | .union updated .. => updated
  | .tuple updated _ => updated

def withUpdated (updated : UInt8) : Flagged → Flagged
  | .leaf _ value => .leaf updated value
  | .array _ val prototype minElements maxElements =>
    .array updated val prototype minElements maxElements
  | .object _ members => .object updated members
  | .union _ tagUpdated tag val prototypes => .union updated tagUpdated tag val prototypes
  | .tuple _ values => .tuple updated values

def setUpdated (f : Flagged) (flags : UInt8) : Flagged :=
  f.withUpdated (f.updated ||| flags)

/-- The flags a node gets from the report of its visitor. -/
def changedFlags (changed : Bool) : UInt8 := if changed then 0xFF else 0

def getOrNull : Flagged → Key → Option Flagged
  | .object _ members, .name key => members.lookup key
  | .array _ val _ _ _, .index i => val[i]?
  | .union _ tagUpdated tag _ _, .index 0 => some (.leaf tagUpdated ⟨.uint8 tag 255, rfl⟩)
  | .union _ _ _ val _, .index 1 => some val
  | .tuple _ values, .index i => values[i]?
  | _, _ => none

def walk : Flagged → List Key → Option Flagged
  | f, [] => some f
  | f, key :: path =>
    match f.getOrNull key with
    | some child => child.walk path
    | none => none

/-- A union has its tag and its value. -/
theorem getOrNull_union {updated tagUpdated tag : UInt8} {val child : Flagged}
    {prototypes : List (UInt8 × Config)} {key : Key}
    (h : (Flagged.union updated tagUpdated tag val prototypes).getOrNull key = some child) :
    key = .index 0 ∧ child = .leaf tagUpdated ⟨.uint8 tag 255, rfl⟩ ∨
      key = .index 1 ∧ child = val := by
  cases key with
  | name key => cases h
  | index i =>
    rcases i with _ | _ | i
    · exact .inl ⟨rfl, (Option.some.inj h).symm⟩
    · exact .inr ⟨rfl, (Option.some.inj h).symm⟩
    · cases h

theorem configElements_eq_map (values : List Flagged) :
    configElements values = values.map config := by
  induction values with
  | nil => rfl
  | cons value rest ih => rw [configElements, ih, List.map_cons]

theorem configMembers_eq_map (members : List (String × Flagged)) :
    configMembers members = members.map fun m => (m.1, m.2.config) := by
  induction members with
  | nil => rfl
  | cons m rest ih => rw [configMembers, ih, List.map_cons]

variable (f : Flagged)

@[simp] theorem config_withUpdated (updated : UInt8) :
    (f.withUpdated updated).config = f.config := by
  cases f <;> simp only [withUpdated, config]

@[simp] theorem config_setUpdated (flags : UInt8) :
    (f.setUpdated flags).config = f.config :=
  f.config_withUpdated _

@[simp] theorem updated_setUpdated (flags : UInt8) :
    (f.setUpdated flags).updated = f.updated ||| flags := by
  cases f <;> rfl

theorem getOrNull_setUpdated (flags : UInt8) (key : Key) :
    (f.setUpdated flags).getOrNull key = f.getOrNull key := by
  match key with
  | .name _ => cases f <;> rfl
  | .index 0 => cases f <;> rfl
  | .index 1 => cases f <;> rfl
  | .index (_ + 2) => cases f <;> rfl

theorem config_fresh_leaf {c : Config} (hleaf : c.isLeaf = true) :
    fresh c = .leaf 0xFF ⟨c, hleaf⟩ := by
  cases c with
  | array | object | union | tuple => cases hleaf
  | _ => rfl

mutual

theorem config_fresh : (c : Config) → (fresh c).config = c
  | .array val _ _ _ => by rw [fresh, config, configElements_fresh val]
  | .object members => by rw [fresh, config, configMembers_fresh members]
  | .union _ val _ => by rw [fresh, config, config_fresh val]
  | .tuple values => by rw [fresh, config, configElements_fresh values]
  | .empty | .string .. | .float _ | .int .. | .uint .. | .int52 _ | .uint53 _ | .uint32 _
  | .int32 _ | .uint16 _ | .int16 _ | .uint8 .. | .int8 _ | .bool _ => rfl

theorem configElements_fresh : (values : List Config) →
    configElements (freshElements values) = values
  | [] => rfl
  | value :: rest => by
    rw [freshElements, configElements, config_fresh value, configElements_fresh rest]

theorem configMembers_fresh : (members : List (String × Config)) →
    configMembers (freshMembers members) = members
  | [] => rfl
  | (key, value) :: rest => by
    rw [freshMembers, configMembers, config_fresh value, configMembers_fresh rest]

end

end Flagged

end Esp32Firmware.Configuration
