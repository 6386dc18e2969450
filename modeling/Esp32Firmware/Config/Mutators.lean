import Esp32Firmware.Config.UpdateFlags

/-!
# Writing to a configuration in memory

The firmware writes to the nodes of its configurations. A write sets the flags of the node it
changes. Two writes do not: clearing a string, and writing to the tag of a union, whose flags
nobody reads.

## Implementation notes

A write to a node of another type aborts, which is a reboot. The model goes on with the tree as
it was.
-/

namespace Esp32Firmware.Configuration

open Config

/-- The overloads of `update_value`. Enumerations and uptimes are integers. -/
inductive LeafUpdate where
  | string (value : String)
  | int (value : Int32)
  | uint (value : UInt32)
  | float (bits : UInt32)
  | bool (value : Bool)
  | int52 (value : Int64)
  | uint53 (value : UInt64)

/-- The leaf with the new value, `none` where its type is another one. -/
def LeafUpdate.written : LeafUpdate → Config → Option Config
  | .string value, .string _ minChars maxChars => some (.string value minChars maxChars)
  | .int value, .int32 _ => some (.int32 value)
  | .int value, .int16 _ => some (.int16 value.toInt16)
  | .int value, .int8 _ => some (.int8 value.toInt8)
  | .int value, .int _ min max => some (.int value min max)
  | .uint value, .uint32 _ => some (.uint32 value)
  | .uint value, .uint16 _ => some (.uint16 value.toUInt16)
  | .uint value, .uint8 _ max => some (.uint8 value.toUInt8 max)
  | .uint value, .uint _ min max => some (.uint value min max)
  | .float bits, .float _ => some (.float bits)
  | .bool value, .bool _ => some (.bool value)
  | .int52 value, .int52 _ => some (.int52 value)
  | .uint53 value, .uint53 _ => some (.uint53 value)
  | _, _ => none

theorem LeafUpdate.written_isLeaf {update : LeafUpdate} {c c' : Config}
    (h : update.written c = some c') : c'.isLeaf = true := by
  cases update <;> cases c <;> cases h <;> rfl

namespace Flagged

def updateValue (update : LeafUpdate) : Flagged → Option Flagged
  | .leaf updated value =>
    match h : update.written value with
    | some new =>
      if leafChanged value new then some (.leaf 0xFF ⟨new, LeafUpdate.written_isLeaf h⟩)
      else some (.leaf updated value)
    | none => none
  | _ => none

def clearString : Flagged → Option Flagged
  | .leaf updated ⟨.string _ minChars maxChars, _⟩ =>
    some (.leaf updated ⟨.string "" minChars maxChars, rfl⟩)
  | _ => none

def add : Flagged → Option Flagged
  | .array updated val prototype minElements maxElements =>
    if maxElements.toNat ≤ val.length then none
    else
      some <| setUpdated
        (.array updated (val ++ [fresh prototype]) prototype minElements maxElements) 0xFF
  | _ => none

def removeLast : Flagged → Option Flagged
  | .array updated val prototype minElements maxElements =>
    if val.length = 0 then some (.array updated val prototype minElements maxElements)
    else
      some <| setUpdated (.array updated val.dropLast prototype minElements maxElements) 0xFF
  | _ => none

def removeAll : Flagged → Option Flagged
  | .array updated _ prototype minElements maxElements =>
    some <| setUpdated (.array updated [] prototype minElements maxElements) 0xFF
  | _ => none

def remove (i : Nat) : Flagged → Option Flagged
  | .array updated val prototype minElements maxElements =>
    if val.length ≤ i then some (.array updated val prototype minElements maxElements)
    else
      some <| setUpdated (.array updated (val.eraseIdx i) prototype minElements maxElements)
        0xFF
  | _ => none

def setCount (newSize : Nat) : Flagged → Option Flagged
  | .array updated val prototype minElements maxElements =>
    if newSize = val.length then some (.array updated val prototype minElements maxElements)
    else if newSize < val.length then
      some <| setUpdated
        (.array updated (val.take newSize) prototype minElements maxElements) 0xFF
    else if maxElements.toNat < newSize then none
    else
      some <| setUpdated
        (.array updated (val ++ List.replicate (newSize - val.length) (fresh prototype))
          prototype minElements maxElements) 0xFF
  | _ => none

/-- A tuple is replaced by a new one. -/
def replace (values : List Flagged) : Flagged → Option Flagged
  | .tuple .. => some (.tuple 0xFF values)
  | _ => none

/-- A tag without a prototype is refused. -/
def changeUnionVariant (tag' : UInt8) : Flagged → Option Flagged
  | .union updated tagUpdated tag val prototypes =>
    match prototypes.lookup tag' with
    | some config =>
      some (.union updated (if tag' = tag then tagUpdated else 0xFF) tag'
        ((fresh config).setUpdated 0xFF) prototypes)
    | none => some (.union updated tagUpdated tag val prototypes)
  | _ => none

end Flagged

/-- What the firmware does to a node. -/
inductive Mutator where
  | updateValue (update : LeafUpdate)
  | clearString
  | add
  | removeLast
  | removeAll
  | remove (i : Nat)
  | setCount (newSize : Nat)
  | replace (values : List Flagged)
  | changeUnionVariant (tag : UInt8)
  | setUpdated (flags : UInt8)

/-- A write to the node at a path. -/
structure Write where
  path : List Key
  mutator : Mutator

namespace Flagged

def mutate : Mutator → Flagged → Option Flagged
  | .updateValue update => updateValue update
  | .clearString => clearString
  | .add => add
  | .removeLast => removeLast
  | .removeAll => removeAll
  | .remove i => remove i
  | .setCount newSize => setCount newSize
  | .replace values => replace values
  | .changeUnionVariant tag => changeUnionVariant tag
  | .setUpdated flags => fun f => some (f.setUpdated flags)

def setMember (key : String) (value : Flagged) :
    List (String × Flagged) → List (String × Flagged)
  | [] => []
  | m :: rest => if key == m.1 then (m.1, value) :: rest else m :: setMember key value rest

/-- Writing through the pointer that `getOrNull` returns. -/
def assign : Flagged → Key → Flagged → Flagged
  | .object updated members, .name key, value => .object updated (setMember key value members)
  | .array updated val prototype minElements maxElements, .index i, value =>
    .array updated (val.set i value) prototype minElements maxElements
  | .union updated _ _ val prototypes, .index 0, .leaf tagUpdated ⟨.uint8 tag _, _⟩ =>
    .union updated tagUpdated tag val prototypes
  | .union updated tagUpdated tag _ prototypes, .index 1, value =>
    .union updated tagUpdated tag value prototypes
  | .tuple updated values, .index i, value => .tuple updated (values.set i value)
  | f, _, _ => f

/-- Writing through the pointer that `walk` returns. -/
def writeAt : Flagged → List Key → Flagged → Flagged
  | _, [], value => value
  | f, key :: path, value =>
    match f.getOrNull key with
    | some child => f.assign key (child.writeAt path value)
    | none => f

def write (f : Flagged) (w : Write) : Flagged :=
  match f.walk w.path with
  | some node =>
    match node.mutate w.mutator with
    | some node => f.writeAt w.path node
    | none => f
  | none => f

/-- The path leads to the tag of a union. -/
def ThroughTag : Flagged → List Key → Prop
  | _, [] => False
  | .union .., .index 0 :: _ => True
  | f, key :: path =>
    match f.getOrNull key with
    | some child => child.ThroughTag path
    | none => False

/-- A write that changes a value without a flag that is read: it clears a string, or writes
another tag to the node of a tag. -/
def Silent (f : Flagged) (w : Write) : Prop :=
  match w.mutator with
  | .clearString =>
    ∃ updated val minChars maxChars hleaf,
      f.walk w.path = some (.leaf updated ⟨.string val minChars maxChars, hleaf⟩) ∧ val ≠ ""
  | .updateValue (.uint value) =>
    f.ThroughTag w.path ∧ ∃ updated tag max hleaf,
      f.walk w.path = some (.leaf updated ⟨.uint8 tag max, hleaf⟩) ∧ value.toUInt8 ≠ tag
  | _ => False

/-- A write sets flags. It sets all of them, or the value stays the same. -/
def Announces (f f' : Flagged) : Prop :=
  ∃ set, f'.flags = f.flags ||| set ∧ (set = 0xFF ∨ f'.value = f.value)

theorem or_all (flags : UInt8) : flags ||| 0xFF = 0xFF := UInt8.or_neg_one

theorem all_or (flags : UInt8) : 0xFF ||| flags = 0xFF := UInt8.neg_one_or

theorem Announces.refl (f : Flagged) : f.Announces f :=
  ⟨0, UInt8.or_zero.symm, .inr rfl⟩

/-- All flags are set. -/
theorem Announces.of_all {f f' : Flagged} (h : f'.flags = 0xFF) : f.Announces f' :=
  ⟨0xFF, by rw [h, or_all], .inl rfl⟩

theorem Announces.of_same {f f' : Flagged} (hflags : f'.flags = f.flags)
    (hvalue : f'.value = f.value) : f.Announces f' :=
  ⟨0, by rw [hflags, UInt8.or_zero], .inr hvalue⟩

theorem flags_setUpdated_all (f : Flagged) : (f.setUpdated 0xFF).flags = 0xFF := by
  rw [flags_setUpdated, or_all]

section

variable {f f' : Flagged}

theorem leafChanged_value {c c' : Config} (hleaf : c.isLeaf = true)
    (hschema : c'.schema = c.schema) (h : leafChanged c c' = false) :
    c'.plusZeros = c.plusZeros := by
  cases c with
  | float old =>
    cases c' with
    | float new =>
      have hequal : isExactlyEqual old new = true := by
        simpa only [leafChanged, Bool.not_eq_false'] using h
      simp only [isExactlyEqual, Bool.and_eq_true, Bool.or_eq_true, beq_iff_eq] at hequal
      rw [plusZeros, plusZeros, plusZero, plusZero]
      rcases hequal.2 with hsame | ⟨hold, hnew⟩
      · rw [hsame]
      · rw [if_pos hold, if_pos hnew]
    | _ => cases hschema
  | array | object | union | tuple => cases hleaf
  | _ =>
    cases c' <;> cases hschema
    all_goals first
      | rfl
      | rw [bne_eq_false_iff_eq.mp h]

theorem updateValue_announces {update : LeafUpdate} (h : updateValue update f = some f') :
    f.Announces f' := by
  cases f with
  | leaf updated value =>
    rw [updateValue] at h
    split at h
    · split at h
      · cases h
        exact .of_all (flags_leaf _ _)
      · cases h
        exact .refl _
    · cases h
  | array | object | union | tuple => cases h

/-- Clearing keeps the flags. Only an empty string keeps its value, too. -/
theorem clearString_flags (h : clearString f = some f') :
    f'.flags = f.flags ∧ ∃ updated val minChars maxChars hleaf,
      f = .leaf updated ⟨.string val minChars maxChars, hleaf⟩ ∧
        (val = "" → f'.value = f.value) := by
  cases f with
  | leaf updated value =>
    obtain ⟨value, hleaf⟩ := value
    cases value with
    | string val minChars maxChars =>
      cases h
      refine ⟨?_, updated, val, minChars, maxChars, hleaf, rfl, ?_⟩
      · rw [flags_leaf, flags_leaf]
      · intro hempty
        rw [hempty]
    | _ => cases h
  | array | object | union | tuple => cases h

theorem add_announces (h : add f = some f') : f.Announces f' := by
  cases f with
  | array =>
    rw [add] at h
    split at h
    · cases h
    · cases h
      exact .of_all (flags_setUpdated_all _)
  | leaf | object | union | tuple => cases h

theorem removeLast_announces (h : removeLast f = some f') : f.Announces f' := by
  cases f with
  | array =>
    rw [removeLast] at h
    split at h
    · cases h
      exact .refl _
    · cases h
      exact .of_all (flags_setUpdated_all _)
  | leaf | object | union | tuple => cases h

theorem removeAll_announces (h : removeAll f = some f') : f.Announces f' := by
  cases f with
  | array =>
    cases h
    exact .of_all (flags_setUpdated_all _)
  | leaf | object | union | tuple => cases h

theorem remove_announces {i : Nat} (h : remove i f = some f') : f.Announces f' := by
  cases f with
  | array =>
    rw [remove] at h
    split at h
    · cases h
      exact .refl _
    · cases h
      exact .of_all (flags_setUpdated_all _)
  | leaf | object | union | tuple => cases h

theorem setCount_announces {newSize : Nat} (h : setCount newSize f = some f') : f.Announces f' := by
  cases f with
  | array =>
    rw [setCount] at h
    split at h
    · cases h
      exact .refl _
    · split at h
      · cases h
        exact .of_all (flags_setUpdated_all _)
      · split at h
        · cases h
        · cases h
          exact .of_all (flags_setUpdated_all _)
  | leaf | object | union | tuple => cases h

theorem replace_announces {values : List Flagged} (h : replace values f = some f') :
    f.Announces f' := by
  cases f with
  | tuple =>
    cases h
    apply Announces.of_all
    rw [flags_tuple, all_or]
  | leaf | array | object | union => cases h

theorem changeUnionVariant_announces {tag : UInt8} (h : changeUnionVariant tag f = some f') :
    f.Announces f' := by
  cases f with
  | union =>
    rw [changeUnionVariant] at h
    split at h
    · cases h
      apply Announces.of_all
      rw [flags_union, flags_setUpdated_all, or_all]
    · cases h
      exact .refl _
  | leaf | array | object | tuple => cases h

/-- Every mutator but one announces what it does to its node. -/
theorem mutate_announces {mutator : Mutator} (hclear : mutator ≠ .clearString)
    (h : f.mutate mutator = some f') : f.Announces f' := by
  cases mutator with
  | updateValue update => exact updateValue_announces h
  | clearString => exact absurd rfl hclear
  | add => exact add_announces h
  | removeLast => exact removeLast_announces h
  | removeAll => exact removeAll_announces h
  | remove i => exact remove_announces h
  | setCount newSize => exact setCount_announces h
  | replace values => exact replace_announces h
  | changeUnionVariant tag => exact changeUnionVariant_announces h
  | setUpdated flags =>
    cases h
    exact ⟨flags, flags_setUpdated f flags, .inr (congrArg plusZeros (config_setUpdated f flags))⟩

end

section

variable {f child child' node node' : Flagged} {key : Key} {path : List Key} {set : UInt8}

variable {values : List Flagged} {i : Nat} {name : String} {members : List (String × Flagged)}
  {tag : UInt8}

theorem listFlags_set (hchild : values[i]? = some child)
    (hflags : child'.flags = child.flags ||| set) :
    listFlags (values.set i child') = listFlags values ||| set := by
  induction values generalizing i with
  | nil => cases hchild
  | cons value rest ih =>
    cases i with
    | zero =>
      cases hchild
      rw [List.set_cons_zero, listFlags, listFlags, hflags, UInt8.or_assoc,
        UInt8.or_comm set, UInt8.or_assoc]
    | succ i =>
      rw [List.set_cons_succ, listFlags, listFlags, ih hchild, UInt8.or_assoc]

theorem memberFlags_setMember (hchild : members.lookup name = some child)
    (hflags : child'.flags = child.flags ||| set) :
    memberFlags (setMember name child' members) = memberFlags members ||| set := by
  induction members with
  | nil => cases hchild
  | cons m rest ih =>
    rw [List.lookup_cons] at hchild
    rw [setMember, memberFlags]
    split at hchild
    · rename_i hkey
      cases hchild
      rw [if_pos hkey, memberFlags, List.map_cons, List.map_cons, listFlags, listFlags, hflags,
        UInt8.or_assoc, UInt8.or_comm set, UInt8.or_assoc]
    · rename_i hkey
      rw [if_neg (by simp [hkey]), List.map_cons, listFlags, ← memberFlags, ih hchild,
        memberFlags, memberFlags, List.map_cons, listFlags, UInt8.or_assoc]

theorem map_setMember_value (hchild : members.lookup name = some child)
    (hvalue : child'.value = child.value) :
    (setMember name child' members).map (fun m => (m.1, m.2.value)) =
      members.map fun m => (m.1, m.2.value) := by
  induction members with
  | nil => cases hchild
  | cons m rest ih =>
    rw [List.lookup_cons] at hchild
    rw [setMember]
    split at hchild
    · rename_i hkey
      cases hchild
      rw [if_pos hkey, List.map_cons, List.map_cons, hvalue]
    · rename_i hkey
      rw [if_neg (by simp [hkey]), List.map_cons, List.map_cons, ih hchild]

theorem map_set_value (hchild : values[i]? = some child) (hvalue : child'.value = child.value) :
    (values.set i child').map value = values.map value := by
  induction values generalizing i with
  | nil => cases hchild
  | cons value rest ih =>
    cases i with
    | zero =>
      cases hchild
      rw [List.set_cons_zero, List.map_cons, List.map_cons, hvalue]
    | succ i => rw [List.set_cons_succ, List.map_cons, List.map_cons, ih hchild]

/-- The value of a tag is the tag. -/
theorem eq_tag_of_value {max : UInt8} (h : node.value = .uint8 tag max) :
    ∃ updated, node = .leaf updated ⟨.uint8 tag max, rfl⟩ := by
  cases node with
  | leaf updated value =>
    obtain ⟨value, hleaf⟩ := value
    cases value <;> cases h
    exact ⟨updated, rfl⟩
  | array | object | union | tuple => cases h

theorem assign_value (hchild : f.getOrNull key = some child)
    (hvalue : child'.value = child.value) : (f.assign key child').value = f.value := by
  cases f with
  | leaf => cases key <;> cases hchild
  | array updated val prototype minElements maxElements =>
    cases key with
    | name => cases hchild
    | index i => rw [assign, value_array, value_array, map_set_value hchild hvalue]
  | object updated members =>
    cases key with
    | name key => rw [assign, value_object, value_object, map_setMember_value hchild hvalue]
    | index => cases hchild
  | union updated tagUpdated tag val prototypes =>
    obtain ⟨rfl, rfl⟩ | ⟨rfl, rfl⟩ := getOrNull_union hchild
    · obtain ⟨tagUpdated', rfl⟩ := eq_tag_of_value hvalue
      have hassign : (union updated tagUpdated tag val prototypes).assign (.index 0)
          (.leaf tagUpdated' ⟨.uint8 tag 255, rfl⟩) =
            .union updated tagUpdated' tag val prototypes := rfl
      rw [hassign, value_union, value_union]
    · rw [assign, value_union, value_union, hvalue]
  | tuple updated values =>
    cases key with
    | name => cases hchild
    | index i => rw [assign, value_tuple, value_tuple, map_set_value hchild hvalue]

/-- The flags of a tag are not read. -/
theorem assign_tag_flags (updated tagUpdated tag : UInt8) (val : Flagged)
    (prototypes : List (UInt8 × Config)) (child' : Flagged) :
    ((union updated tagUpdated tag val prototypes).assign (.index 0) child').flags =
      (union updated tagUpdated tag val prototypes).flags := by
  cases child' with
  | leaf tagUpdated' value =>
    obtain ⟨value, hleaf⟩ := value
    cases value with
    | uint8 => exact (flags_union _ _ _ _ _).trans (flags_union _ _ _ _ _).symm
    | _ => rfl
  | _ => rfl

theorem assign_flags (hchild : f.getOrNull key = some child)
    (hflags : child'.flags = child.flags ||| set) :
    (f.assign key child').flags = f.flags ||| set ∨
      f.ThroughTag [key] ∧ (f.assign key child').flags = f.flags := by
  cases f with
  | leaf => cases key <;> cases hchild
  | array updated val prototype minElements maxElements =>
    cases key with
    | name => cases hchild
    | index i =>
      left
      rw [assign, flags_array, flags_array, listFlags_set hchild hflags, UInt8.or_assoc]
  | object updated members =>
    cases key with
    | name key =>
      left
      rw [assign, flags_object, flags_object, memberFlags_setMember hchild hflags, UInt8.or_assoc]
    | index => cases hchild
  | union updated tagUpdated tag val prototypes =>
    obtain ⟨rfl, rfl⟩ | ⟨rfl, rfl⟩ := getOrNull_union hchild
    · exact .inr ⟨trivial, assign_tag_flags _ _ _ _ _ _⟩
    · left
      rw [assign, flags_union, flags_union, hflags, UInt8.or_assoc]
  | tuple updated values =>
    cases key with
    | name => cases hchild
    | index i =>
      left
      rw [assign, flags_tuple, flags_tuple, listFlags_set hchild hflags, UInt8.or_assoc]

theorem walk_cons_eq (h : f.walk (key :: path) = some node) :
    ∃ child, f.getOrNull key = some child ∧ child.walk path = some node := by
  rw [walk] at h
  cases hchild : f.getOrNull key with
  | none =>
    rw [hchild] at h
    cases h
  | some child =>
    rw [hchild] at h
    exact ⟨child, rfl, h⟩

theorem throughTag_cons (hchild : f.getOrNull key = some child)
    (h : f.ThroughTag [key] ∨ child.ThroughTag path) : f.ThroughTag (key :: path) := by
  rw [ThroughTag.eq_def]
  split
  · rename_i hpath
    cases hpath
  · trivial
  · rename_i key' path' hother hpath
    cases hpath
    rw [hchild]
    rcases h with htag | htag
    · rw [ThroughTag.eq_def] at htag
      split at htag
      · rename_i hpath
        cases hpath
      · rename_i hpath
        cases hpath
        exact absurd rfl (hother _ _ _ _ _ rfl)
      · rename_i hpath
        cases hpath
        rw [hchild] at htag
        exact False.elim htag
    · exact htag

/-- The value at a path determines the value of the tree. -/
theorem writeAt_value (hnode : f.walk path = some node) (hvalue : node'.value = node.value) :
    (f.writeAt path node').value = f.value := by
  induction path generalizing f with
  | nil =>
    cases hnode
    exact hvalue
  | cons key path ih =>
    obtain ⟨child, hchild, hwalk⟩ := walk_cons_eq hnode
    rw [writeAt, hchild]
    exact assign_value hchild (ih hwalk)

/-- The flags that are set at a path are set in the tree, unless the path leads to a tag. -/
theorem writeAt_flags (hnode : f.walk path = some node)
    (hflags : node'.flags = node.flags ||| set) :
    (f.writeAt path node').flags = f.flags ||| set ∨
      f.ThroughTag path ∧ (f.writeAt path node').flags = f.flags := by
  induction path generalizing f with
  | nil =>
    cases hnode
    exact .inl hflags
  | cons key path ih =>
    obtain ⟨child, hchild, hwalk⟩ := walk_cons_eq hnode
    rw [writeAt, hchild]
    rcases ih hwalk with hset | ⟨htag, hkept⟩
    · rcases assign_flags hchild hset with hset | ⟨htag, hkept⟩
      · exact .inl hset
      · exact .inr ⟨throughTag_cons hchild (.inl htag), hkept⟩
    · right
      refine ⟨throughTag_cons hchild (.inr htag), ?_⟩
      have hzero : (child.writeAt path node').flags = child.flags ||| 0 := by
        rw [hkept, UInt8.or_zero]
      rcases assign_flags hchild hzero with hset | ⟨-, hkept⟩
      · rw [hset, UInt8.or_zero]
      · exact hkept

theorem throughTag_node (htag : f.ThroughTag path) (hnode : f.walk path = some node) :
    ∃ updated tag, node = .leaf updated ⟨.uint8 tag 255, rfl⟩ := by
  induction path generalizing f with
  | nil => exact False.elim htag
  | cons key path ih =>
    obtain ⟨child, hchild, hwalk⟩ := walk_cons_eq hnode
    rw [ThroughTag.eq_def] at htag
    split at htag
    · exact False.elim htag
    · rename_i hpath
      cases hpath
      cases hchild
      cases path with
      | nil =>
        cases hwalk
        exact ⟨_, _, rfl⟩
      | cons key path =>
        obtain ⟨_, hnone, -⟩ := walk_cons_eq hwalk
        cases key <;> cases hnone
    · rename_i hpath
      cases hpath
      rw [hchild] at htag
      exact ih htag hwalk

theorem tag_mutate_value {mutator : Mutator} {updated : UInt8}
    (hmutate : mutate mutator (.leaf updated ⟨.uint8 tag 255, rfl⟩) = some node')
    (hsame : ∀ value, mutator = .updateValue (.uint value) → value.toUInt8 = tag) :
    node'.value = .uint8 tag 255 := by
  cases mutator with
  | updateValue update =>
    cases update with
    | uint value =>
      have hold : leafChanged (.uint8 tag 255) (.uint8 value.toUInt8 255) = false := by
        rw [hsame value rfl]
        exact bne_self_eq_false tag
      rw [mutate, updateValue] at hmutate
      split at hmutate
      · rename_i hnew
        cases hnew
        rw [hold] at hmutate
        cases hmutate
        rfl
      · cases hmutate
    | _ => cases hmutate
  | setUpdated flags =>
    cases hmutate
    rfl
  | _ => cases hmutate

end

variable {f : Flagged} {w : Write}

/-- No write takes back a flag. -/
theorem write_flags (f : Flagged) (w : Write) : ∃ set, (f.write w).flags = f.flags ||| set := by
  rw [write]
  split
  · rename_i node hnode
    split
    · rename_i node' hnode'
      have hset : ∃ set, node'.flags = node.flags ||| set := by
        by_cases hclear : w.mutator = .clearString
        · rw [hclear] at hnode'
          exact ⟨0, by rw [(clearString_flags hnode').1, UInt8.or_zero]⟩
        · obtain ⟨set, hset, -⟩ := mutate_announces hclear hnode'
          exact ⟨set, hset⟩
      obtain ⟨set, hset⟩ := hset
      rcases writeAt_flags hnode hset with hset | ⟨-, hkept⟩
      · exact ⟨set, hset⟩
      · exact ⟨0, by rw [hkept, UInt8.or_zero]⟩
    · exact ⟨0, UInt8.or_zero.symm⟩
  · exact ⟨0, UInt8.or_zero.symm⟩

/-- A write announces what it changes, unless it is silent. -/
theorem write_announces (h : ¬ f.Silent w) : f.Announces (f.write w) := by
  rw [write]
  split
  · rename_i node hnode
    split
    · rename_i node' hnode'
      by_cases hclear : w.mutator = .clearString
      · rw [hclear] at hnode'
        obtain ⟨hflags, updated, val, minChars, maxChars, hleaf, rfl, hempty⟩ :=
          clearString_flags hnode'
        have hval : val = "" := by
          by_contra hne
          apply h
          rw [Silent, hclear]
          exact ⟨updated, val, minChars, maxChars, hleaf, hnode, hne⟩
        have hkept : node'.flags = flags _ ||| 0 := hflags.trans UInt8.or_zero.symm
        have hvalue := writeAt_value hnode (hempty hval)
        rcases writeAt_flags hnode hkept with hset | ⟨-, hkept⟩
        · exact ⟨0, hset, .inr hvalue⟩
        · exact .of_same hkept hvalue
      · obtain ⟨set, hset, hvalue⟩ := mutate_announces hclear hnode'
        rcases writeAt_flags hnode hset with hset | ⟨htag, hkept⟩
        · exact ⟨set, hset, hvalue.imp id (writeAt_value hnode)⟩
        · apply Announces.of_same hkept
          apply writeAt_value hnode
          obtain ⟨updated, tag, rfl⟩ := throughTag_node htag hnode
          apply tag_mutate_value hnode'
          intro value hvalue
          by_contra hne
          apply h
          rw [Silent, hvalue]
          exact ⟨htag, updated, tag, 255, rfl, hnode, hne⟩
    · exact .refl f
  · exact .refl f

end Flagged

end Esp32Firmware.Configuration
