import Esp32Firmware.Config.FlaggedUpdate
import Mathlib.Data.UInt

/-!
# Reading and clearing update flags

A backend asks for the flags of a whole tree and clears them after it got the value. The flag of
a union's tag is never read. Two trees hold the same value if they differ at most in the sign of
a zero.
-/

namespace Esp32Firmware.Configuration

open Config

namespace Config

/-- The pattern of a float, the same for both zeros. -/
def plusZero (bits : UInt32) : UInt32 := if bits <<< 1 = 0 then 0 else bits

mutual

/-- The configuration with one pattern for both zeros. -/
def plusZeros : Config → Config
  | .float val => .float (plusZero val)
  | .array val prototype minElements maxElements =>
    .array (plusZerosElements val) prototype minElements maxElements
  | .object members => .object (plusZerosMembers members)
  | .union tag val prototypes => .union tag (plusZeros val) prototypes
  | .tuple values => .tuple (plusZerosElements values)
  | c => c

def plusZerosElements : List Config → List Config
  | [] => []
  | value :: rest => plusZeros value :: plusZerosElements rest

def plusZerosMembers : List (String × Config) → List (String × Config)
  | [] => []
  | (key, value) :: rest => (key, plusZeros value) :: plusZerosMembers rest

end

/-- Two configurations have the same values, where numbers are compared. -/
def SameValue (c c' : Config) : Prop := c.plusZeros = c'.plusZeros

theorem plusZerosElements_eq_map (values : List Config) :
    plusZerosElements values = values.map plusZeros := by
  induction values with
  | nil => rfl
  | cons value rest ih => rw [plusZerosElements, ih, List.map_cons]

theorem plusZerosMembers_eq_map (members : List (String × Config)) :
    plusZerosMembers members = members.map fun m => (m.1, m.2.plusZeros) := by
  induction members with
  | nil => rfl
  | cons m rest ih => rw [plusZerosMembers, ih, List.map_cons]

end Config

namespace Flagged

mutual

/-- The flags of the nodes below a node. The tag of a union is left out. -/
def isUpdated (apiBackendFlag : UInt8) : Flagged → UInt8
  | .leaf .. => 0
  | .array _ val _ _ _ => isUpdatedElements apiBackendFlag val
  | .object _ members => isUpdatedMembers apiBackendFlag members
  | .union _ _ _ val _ =>
    val.updated &&& apiBackendFlag ||| isUpdated apiBackendFlag val
  | .tuple _ values => isUpdatedElements apiBackendFlag values

def isUpdatedElements (apiBackendFlag : UInt8) : List Flagged → UInt8
  | [] => 0
  | value :: rest =>
    value.updated &&& apiBackendFlag ||| isUpdated apiBackendFlag value |||
      isUpdatedElements apiBackendFlag rest

def isUpdatedMembers (apiBackendFlag : UInt8) : List (String × Flagged) → UInt8
  | [] => 0
  | (_, value) :: rest =>
    value.updated &&& apiBackendFlag ||| isUpdated apiBackendFlag value |||
      isUpdatedMembers apiBackendFlag rest

end

def wasUpdated (f : Flagged) (apiBackendFlag : UInt8) : UInt8 :=
  f.updated &&& apiBackendFlag ||| isUpdated apiBackendFlag f

/-- The flags of all backends in a tree. -/
abbrev flags (f : Flagged) : UInt8 := f.wasUpdated 0xFF

/-- The flags of the nodes in a list of trees. -/
def listFlags : List Flagged → UInt8
  | [] => 0
  | value :: rest => value.flags ||| listFlags rest

/-- The flags of the members of an object. -/
def memberFlags (members : List (String × Flagged)) : UInt8 :=
  listFlags (members.map Prod.snd)

theorem and_all (flags : UInt8) : flags &&& 0xFF = flags := UInt8.and_neg_one

theorem isUpdatedElements_all (values : List Flagged) :
    isUpdatedElements 0xFF values = listFlags values := by
  induction values with
  | nil => rfl
  | cons value rest ih => rw [isUpdatedElements, ih, listFlags, flags, wasUpdated]

theorem isUpdatedMembers_all (members : List (String × Flagged)) :
    isUpdatedMembers 0xFF members = memberFlags members := by
  induction members with
  | nil => rfl
  | cons m rest ih =>
    rw [isUpdatedMembers, ih, memberFlags, memberFlags, List.map_cons, listFlags, flags, wasUpdated]

theorem flags_leaf (updated : UInt8) (value : Leaf) : (leaf updated value).flags = updated := by
  rw [flags, wasUpdated, isUpdated, Flagged.updated, and_all, UInt8.or_zero]

mutual

/-- The flags below a node are cleared, those of tags are kept. -/
def setUpdatedFalse (apiBackendFlag : UInt8) : Flagged → Flagged
  | .leaf updated value => .leaf updated value
  | .array updated val prototype minElements maxElements =>
    .array updated (setUpdatedFalseElements apiBackendFlag val) prototype minElements
      maxElements
  | .object updated members => .object updated (setUpdatedFalseMembers apiBackendFlag members)
  | .union updated tagUpdated tag val prototypes =>
    .union updated tagUpdated tag
      ((setUpdatedFalse apiBackendFlag val).withUpdated (val.updated &&& ~~~apiBackendFlag))
      prototypes
  | .tuple updated values => .tuple updated (setUpdatedFalseElements apiBackendFlag values)

def setUpdatedFalseElements (apiBackendFlag : UInt8) : List Flagged → List Flagged
  | [] => []
  | value :: rest =>
    (setUpdatedFalse apiBackendFlag value).withUpdated (value.updated &&& ~~~apiBackendFlag) ::
      setUpdatedFalseElements apiBackendFlag rest

def setUpdatedFalseMembers (apiBackendFlag : UInt8) :
    List (String × Flagged) → List (String × Flagged)
  | [] => []
  | (key, value) :: rest =>
    (key, (setUpdatedFalse apiBackendFlag value).withUpdated
      (value.updated &&& ~~~apiBackendFlag)) :: setUpdatedFalseMembers apiBackendFlag rest

end

def clearUpdated (f : Flagged) (apiBackendFlag : UInt8) : Flagged :=
  (f.setUpdatedFalse apiBackendFlag).withUpdated (f.updated &&& ~~~apiBackendFlag)

theorem or_and (a b mask : UInt8) : (a ||| b) &&& mask = a &&& mask ||| b &&& mask := by
  apply UInt8.toBitVec_inj.mp
  ext i hi
  simp only [UInt8.toBitVec_and, UInt8.toBitVec_or, BitVec.getElem_and, BitVec.getElem_or,
    Bool.and_or_distrib_right]

variable (f : Flagged) (updated : UInt8)

@[simp] theorem updated_withUpdated :
    (f.withUpdated updated).updated = updated := by
  cases f <;> rfl

@[simp] theorem isUpdated_withUpdated (updated mask : UInt8) :
    isUpdated mask (f.withUpdated updated) = isUpdated mask f := by
  cases f <;> rfl

theorem flags_array (val : List Flagged) (prototype : Config)
    (minElements maxElements : UInt16) :
    (array updated val prototype minElements maxElements).flags = updated ||| listFlags val := by
  rw [flags, wasUpdated, isUpdated, Flagged.updated, and_all, isUpdatedElements_all]

theorem flags_object (members : List (String × Flagged)) :
    (object updated members).flags = updated ||| memberFlags members := by
  rw [flags, wasUpdated, isUpdated, Flagged.updated, and_all, isUpdatedMembers_all]

theorem flags_union (updated tagUpdated tag : UInt8) (val : Flagged)
    (prototypes : List (UInt8 × Config)) :
    (union updated tagUpdated tag val prototypes).flags = updated ||| val.flags := by
  rw [flags, wasUpdated, isUpdated, Flagged.updated, and_all, flags, wasUpdated]

theorem flags_tuple (values : List Flagged) :
    (tuple updated values).flags = updated ||| listFlags values := by
  rw [flags, wasUpdated, isUpdated, Flagged.updated, and_all, isUpdatedElements_all]

theorem flags_withUpdated :
    (f.withUpdated updated).flags = updated ||| isUpdated 0xFF f := by
  rw [flags, wasUpdated, updated_withUpdated, isUpdated_withUpdated, and_all]

theorem flags_setUpdated :
    (f.setUpdated updated).flags = f.flags ||| updated := by
  rw [setUpdated, flags_withUpdated, flags, wasUpdated, and_all, UInt8.or_assoc,
    UInt8.or_comm updated, UInt8.or_assoc]

theorem updated_fresh (c : Config) : (fresh c).updated = 0xFF := by
  cases c <;> rfl

mutual

/-- A mask selects among the flags. -/
theorem isUpdated_eq (mask : UInt8) : (f : Flagged) → isUpdated mask f = isUpdated 0xFF f &&& mask
  | .leaf .. => UInt8.zero_and.symm
  | .array _ val _ _ _ => isUpdatedElements_eq mask val
  | .object _ members => isUpdatedMembers_eq mask members
  | .union _ _ _ val _ => by
    rw [isUpdated, isUpdated, isUpdated_eq mask val, or_and, and_all]
  | .tuple _ values => isUpdatedElements_eq mask values

theorem isUpdatedElements_eq (mask : UInt8) : (values : List Flagged) →
    isUpdatedElements mask values = isUpdatedElements 0xFF values &&& mask
  | [] => UInt8.zero_and.symm
  | value :: rest => by
    rw [isUpdatedElements, isUpdatedElements, isUpdated_eq mask value,
      isUpdatedElements_eq mask rest, or_and,
      or_and, and_all]

theorem isUpdatedMembers_eq (mask : UInt8) : (members : List (String × Flagged)) →
    isUpdatedMembers mask members = isUpdatedMembers 0xFF members &&& mask
  | [] => UInt8.zero_and.symm
  | (_, value) :: rest => by
    rw [isUpdatedMembers, isUpdatedMembers, isUpdated_eq mask value,
      isUpdatedMembers_eq mask rest, or_and,
      or_and, and_all]

end

theorem wasUpdated_eq (f : Flagged) (mask : UInt8) : f.wasUpdated mask = f.flags &&& mask := by
  rw [flags, wasUpdated, wasUpdated, isUpdated_eq mask f, or_and, and_all]

mutual

theorem isUpdated_setUpdatedFalse (mask : UInt8) : (f : Flagged) →
    isUpdated 0xFF (f.setUpdatedFalse mask) = isUpdated 0xFF f &&& ~~~mask
  | .leaf .. => UInt8.zero_and.symm
  | .array _ val _ _ _ => by
    rw [setUpdatedFalse, isUpdated, isUpdatedElements_setUpdatedFalse mask val, isUpdated]
  | .object _ members => by
    rw [setUpdatedFalse, isUpdated, isUpdatedMembers_setUpdatedFalse mask members, isUpdated]
  | .union _ _ _ val _ => by
    rw [setUpdatedFalse, isUpdated, updated_withUpdated, isUpdated_withUpdated,
      isUpdated_setUpdatedFalse mask val, isUpdated, and_all, and_all,
      or_and]
  | .tuple _ values => by
    rw [setUpdatedFalse, isUpdated, isUpdatedElements_setUpdatedFalse mask values, isUpdated]

theorem isUpdatedElements_setUpdatedFalse (mask : UInt8) : (values : List Flagged) →
    isUpdatedElements 0xFF (setUpdatedFalseElements mask values) =
      isUpdatedElements 0xFF values &&& ~~~mask
  | [] => UInt8.zero_and.symm
  | value :: rest => by
    rw [setUpdatedFalseElements, isUpdatedElements, updated_withUpdated,
      isUpdated_withUpdated, isUpdated_setUpdatedFalse mask value,
      isUpdatedElements_setUpdatedFalse mask rest, isUpdatedElements, and_all, and_all,
      or_and, or_and]

theorem isUpdatedMembers_setUpdatedFalse (mask : UInt8) : (members : List (String × Flagged)) →
    isUpdatedMembers 0xFF (setUpdatedFalseMembers mask members) =
      isUpdatedMembers 0xFF members &&& ~~~mask
  | [] => UInt8.zero_and.symm
  | (_, value) :: rest => by
    rw [setUpdatedFalseMembers, isUpdatedMembers, updated_withUpdated,
      isUpdated_withUpdated, isUpdated_setUpdatedFalse mask value,
      isUpdatedMembers_setUpdatedFalse mask rest, isUpdatedMembers, and_all, and_all,
      or_and, or_and]

end

/-- Clearing reaches every flag that is read. -/
theorem flags_clearUpdated (f : Flagged) (mask : UInt8) :
    (f.clearUpdated mask).flags = f.flags &&& ~~~mask := by
  rw [clearUpdated, flags_withUpdated, isUpdated_setUpdatedFalse, flags, wasUpdated, and_all,
    or_and]

mutual

theorem config_setUpdatedFalse (mask : UInt8) : (f : Flagged) →
    (f.setUpdatedFalse mask).config = f.config
  | .leaf .. => rfl
  | .array _ val _ _ _ => by
    rw [setUpdatedFalse, config, configElements_setUpdatedFalse mask val, config]
  | .object _ members => by
    rw [setUpdatedFalse, config, configMembers_setUpdatedFalse mask members, config]
  | .union _ _ _ val _ => by
    rw [setUpdatedFalse, config, config_withUpdated, config_setUpdatedFalse mask val, config]
  | .tuple _ values => by
    rw [setUpdatedFalse, config, configElements_setUpdatedFalse mask values, config]

theorem configElements_setUpdatedFalse (mask : UInt8) : (values : List Flagged) →
    configElements (setUpdatedFalseElements mask values) = configElements values
  | [] => rfl
  | value :: rest => by
    rw [setUpdatedFalseElements, configElements, config_withUpdated,
      config_setUpdatedFalse mask value, configElements_setUpdatedFalse mask rest,
      configElements]

theorem configMembers_setUpdatedFalse (mask : UInt8) : (members : List (String × Flagged)) →
    configMembers (setUpdatedFalseMembers mask members) = configMembers members
  | [] => rfl
  | (_, value) :: rest => by
    rw [setUpdatedFalseMembers, configMembers, config_withUpdated,
      config_setUpdatedFalse mask value, configMembers_setUpdatedFalse mask rest,
      configMembers]

end

@[simp] theorem config_clearUpdated (f : Flagged) (mask : UInt8) :
    (f.clearUpdated mask).config = f.config := by
  rw [clearUpdated, config_withUpdated, config_setUpdatedFalse]

/-- The value of a tree, where numbers are compared. -/
abbrev value (f : Flagged) : Config := f.config.plusZeros

variable (updated : UInt8)

theorem value_array (val : List Flagged) (prototype : Config)
    (minElements maxElements : UInt16) :
    (array updated val prototype minElements maxElements).value =
      .array (val.map value) prototype minElements maxElements := by
  rw [value, config, plusZeros, plusZerosElements_eq_map, configElements_eq_map, List.map_map]
  rfl

theorem value_object (members : List (String × Flagged)) :
    (object updated members).value = .object (members.map fun m => (m.1, m.2.value)) := by
  rw [value, config, plusZeros, plusZerosMembers_eq_map, configMembers_eq_map, List.map_map]
  rfl

theorem value_union (updated tagUpdated tag : UInt8) (val : Flagged)
    (prototypes : List (UInt8 × Config)) :
    (union updated tagUpdated tag val prototypes).value = .union tag val.value prototypes := by
  rw [value, config, plusZeros]

theorem value_tuple (values : List Flagged) :
    (tuple updated values).value = .tuple (values.map value) := by
  rw [value, config, plusZeros, plusZerosElements_eq_map, configElements_eq_map, List.map_map]
  rfl

end Flagged

end Esp32Firmware.Configuration
