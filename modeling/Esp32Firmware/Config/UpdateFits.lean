import Esp32Firmware.Config.ConfUpdate
import Esp32Firmware.Config.ChangeDetection

/-!
# What updates from memory and from JSON fit

What the visitors for updates from memory and for JSON accept is described apart from them. At
the leaves both visitors set an integer in the same way, they differ in what they refuse.
-/

namespace Esp32Firmware.Configuration

open Config

def ConfUpdate.isScalar : ConfUpdate → Bool
  | .null | .array _ | .object _ | .union .. => false
  | _ => true

/-- Induction over the nodes of an update. -/
theorem ConfUpdate.induction {P : ConfUpdate → Prop} (null : P .null)
    (scalar : ∀ u, u.isScalar = true → P u)
    (array : ∀ updates, (∀ u ∈ updates, P u) → P (.array updates))
    (object : ∀ updates, (∀ m ∈ updates, P m.2) → P (.object updates))
    (union : ∀ tag u, P u → P (.union tag u)) (u : ConfUpdate) : P u :=
  match u with
  | .null => null
  | .array updates => array updates fun u hu =>
    have := List.sizeOf_lt_of_mem hu
    induction null scalar array object union u
  | .object updates => object updates fun m hm =>
    have := List.sizeOf_lt_of_mem hm
    induction null scalar array object union m.2
  | .union tag u => union tag u (induction null scalar array object union u)
  | .string _ | .float _ | .bool _ | .uint32 _ | .int32 _ | .int64 _ | .uint64 _ | .uint16 _
  | .int16 _ | .uint8 _ | .int8 _ => scalar _ rfl
termination_by sizeOf u
decreasing_by
  · simp only [ConfUpdate.array.sizeOf_spec]
    omega
  · obtain ⟨key, value⟩ := m
    simp only [ConfUpdate.object.sizeOf_spec, Prod.mk.sizeOf_spec] at *
    omega
  · simp only [ConfUpdate.union.sizeOf_spec]
    omega

def Json.isScalar : Json → Bool
  | .null | .array _ | .object _ => false
  | _ => true

/-- Induction over the nodes of a JSON document. -/
theorem Json.induction {P : Json → Prop} (null : P .null)
    (scalar : ∀ node, node.isScalar = true → P node)
    (array : ∀ nodes, (∀ node ∈ nodes, P node) → P (.array nodes))
    (object : ∀ nodes, (∀ m ∈ nodes, P m.2) → P (.object nodes)) (node : Json) : P node := by
  cases node with
  | null => exact null
  | array nodes =>
    apply array
    intro node hnode
    have := List.sizeOf_lt_of_mem hnode
    exact induction null scalar array object node
  | object nodes =>
    apply object
    intro m hm
    have := List.sizeOf_lt_of_mem hm
    exact induction null scalar array object m.2
  | _ => exact scalar _ rfl
termination_by sizeOf node
decreasing_by
  · simp only [Json.array.sizeOf_spec]
    omega
  · obtain ⟨key, value⟩ := m
    simp only [Json.object.sizeOf_spec, Prod.mk.sizeOf_spec] at *
    omega

/-- The integer an update gives. -/
def ConfUpdate.integer : ConfUpdate → Option Int
  | .uint32 value => some value.toNat
  | .int32 value => some value.toInt
  | .int64 value => some value.toInt
  | .uint64 value => some value.toNat
  | .uint16 value => some value.toNat
  | .int16 value => some value.toInt
  | .uint8 value => some value.toNat
  | .int8 value => some value.toInt
  | _ => none

/-- The integer a node holds. -/
def Config.integer : Config → Option Int
  | .int val _ _ => some val.toInt
  | .uint val _ _ => some val.toNat
  | .int52 val => some val.toInt
  | .uint53 val => some val.toNat
  | .uint32 val => some val.toNat
  | .int32 val => some val.toInt
  | .uint16 val => some val.toNat
  | .int16 val => some val.toInt
  | .uint8 val _ => some val.toNat
  | .int8 val => some val.toInt
  | _ => none

/-- The least and the greatest integer of the type of a node. -/
def Config.range : Config → Option (Int × Int)
  | .int .. | .int32 _ => some (-2 ^ 31, 2 ^ 31 - 1)
  | .uint .. | .uint32 _ => some (0, 2 ^ 32 - 1)
  | .int52 _ => some (-2 ^ 63, 2 ^ 63 - 1)
  | .uint53 _ => some (0, 2 ^ 64 - 1)
  | .uint16 _ => some (0, 2 ^ 16 - 1)
  | .int16 _ => some (-2 ^ 15, 2 ^ 15 - 1)
  | .uint8 .. => some (0, 2 ^ 8 - 1)
  | .int8 _ => some (-2 ^ 7, 2 ^ 7 - 1)
  | _ => none

/-- Every leaf that an update names holds the given value, and every union has the given tag. -/
inductive Holds : ConfUpdate → Config → Prop
  | null {c : Config} : Holds .null c
  | string {value : String} {minChars maxChars : UInt16} :
      Holds (.string value) (.string value minChars maxChars)
  | float {value : UInt32} : Holds (.float value) (.float value)
  | bool {value : Bool} : Holds (.bool value) (.bool value)
  | integer {u : ConfUpdate} {c : Config} {value : Int} (hu : u.integer = some value)
      (hc : c.integer = some value) : Holds u c
  | array {updates : List ConfUpdate} {val : List Config} {prototype : Config}
      {minElements maxElements : UInt16} (hlength : updates.length = val.length)
      (h : ∀ p ∈ updates.zip val, Holds p.1 p.2) :
      Holds (.array updates) (.array val prototype minElements maxElements)
  | object {updates : List (String × ConfUpdate)} {members : List (String × Config)}
      (hkeys : ∀ m ∈ updates, (members.lookup m.1).isSome)
      (h : ∀ m ∈ updates, ∀ c, members.lookup m.1 = some c → Holds m.2 c) :
      Holds (.object updates) (.object members)
  | union {tag : UInt8} {u : ConfUpdate} {val : Config} {prototypes : List (UInt8 × Config)}
      (h : Holds u val) : Holds (.union tag u) (.union tag val prototypes)
  | tuple {updates : List ConfUpdate} {values : List Config}
      (hlength : updates.length = values.length) (h : ∀ p ∈ updates.zip values, Holds p.1 p.2) :
      Holds (.array updates) (.tuple values)

/-- An array with the number of elements of its update. -/
def resized (n : Nat) (val : List Config) (prototype : Config) : List Config :=
  val.take n ++ List.replicate (n - val.length) prototype

/-- A leaf has the kind of its update. -/
def ConfUpdate.FitsLeaf : ConfUpdate → Config → Prop
  | .string _, .string .. => True
  | .float _, .float _ => True
  | .bool _, .bool _ => True
  | u, c => u.integer.isSome ∧ c.range.isSome

/-- What the visitor for updates from memory accepts: nodes of the kinds of the configuration,
with integers of any size and, as long as the present value of the union fits, unknown tags. -/
inductive UpdateTakes : ConfUpdate → Config → Prop
  | null {c : Config} : UpdateTakes .null c
  | leaf {u : ConfUpdate} {c : Config} (h : u.FitsLeaf c) : UpdateTakes u c
  | array {updates : List ConfUpdate} {val : List Config} {prototype : Config}
      {minElements maxElements : UInt16}
      (h : ∀ p ∈ updates.zip (resized updates.length val prototype), UpdateTakes p.1 p.2) :
      UpdateTakes (.array updates) (.array val prototype minElements maxElements)
  | object {updates : List (String × ConfUpdate)} {members : List (String × Config)}
      (hlength : updates.length = members.length)
      (hkeys : ∀ m ∈ members, (updates.lookup m.1).isSome)
      (h : ∀ m ∈ members, ∀ u, updates.lookup m.1 = some u → UpdateTakes u m.2) :
      UpdateTakes (.object updates) (.object members)
  | union {tag' tag : UInt8} {u : ConfUpdate} {val : Config} {prototypes : List (UInt8 × Config)}
      (h : UpdateTakes u (selectVariant tag' tag val prototypes).2) :
      UpdateTakes (.union tag' u) (.union tag val prototypes)
  | tuple {updates : List ConfUpdate} {values : List Config}
      (hlength : updates.length = values.length)
      (h : ∀ p ∈ updates.zip values, UpdateTakes p.1 p.2) :
      UpdateTakes (.array updates) (.tuple values)

/-- A leaf can hold what its JSON node says. -/
def Json.FitsLeaf : Json → Config → Prop
  | node, .empty => node.isFalsy = true
  | node, .float _ => node.isNumber = true
  | .string _, .string .. => True
  | .bool _, .bool _ => True
  | .int value, c => ∃ range, c.range = some range ∧ range.1 ≤ value ∧ value ≤ range.2
  | _, _ => False

/-- The tag of a union after a JSON node: null keeps it. -/
inductive NamesTag (permitNullUpdates : Bool) (tag : UInt8) : Json → UInt8 → Prop
  | null (h : permitNullUpdates = true) : NamesTag permitNullUpdates tag .null tag
  | int {tag' : UInt8} : NamesTag permitNullUpdates tag (.int tag'.toNat) tag'

/-- What the visitor for JSON accepts below the root, with the keys of the schema: integers in
the range of their leaf, known tags, and null where null updates are permitted. -/
inductive JsonTakes (permitNullUpdates : Bool) : Json → Config → Prop
  | null {c : Config} (h : permitNullUpdates = true ∨ c = .empty) :
      JsonTakes permitNullUpdates .null c
  | leaf {node : Json} {c : Config} (hnode : node ≠ .null) (h : node.FitsLeaf c) :
      JsonTakes permitNullUpdates node c
  | array {nodes : List Json} {val : List Config} {prototype : Config}
      {minElements maxElements : UInt16}
      (h : ∀ p ∈ nodes.zip (resized nodes.length val prototype),
        JsonTakes permitNullUpdates p.1 p.2) :
      JsonTakes permitNullUpdates (.array nodes) (.array val prototype minElements maxElements)
  | object {nodes : List (String × Json)} {members : List (String × Config)}
      (hlength : nodes.length = members.length)
      (hkeys : ∀ m ∈ members, (nodes.lookup m.1).isSome)
      (h : ∀ m ∈ members, ∀ node, nodes.lookup m.1 = some node →
        JsonTakes permitNullUpdates node m.2) :
      JsonTakes permitNullUpdates (.object nodes) (.object members)
  | union {first node : Json} {tag tag' : UInt8} {val val' : Config}
      {prototypes : List (UInt8 × Config)} (htag : NamesTag permitNullUpdates tag first tag')
      (hval : if tag' = tag then val' = val else prototypes.lookup tag' = some val')
      (h : JsonTakes permitNullUpdates node val') :
      JsonTakes permitNullUpdates (.array [first, node]) (.union tag val prototypes)
  | tuple {nodes : List Json} {values : List Config} (hlength : nodes.length = values.length)
      (h : ∀ p ∈ nodes.zip values, JsonTakes permitNullUpdates p.1 p.2) :
      JsonTakes permitNullUpdates (.array nodes) (.tuple values)

/-- Every node of an update means the same to both visitors: integers are in the range of their
leaf, tags are known, objects name every member, and null is permitted. -/
inductive Fits (permitNullUpdates : Bool) : ConfUpdate → Config → Prop
  | null {c : Config} (h : permitNullUpdates = true ∨ c = .empty) : Fits permitNullUpdates .null c
  | string {value val : String} {minChars maxChars : UInt16} :
      Fits permitNullUpdates (.string value) (.string val minChars maxChars)
  | float {value val : UInt32} : Fits permitNullUpdates (.float value) (.float val)
  | bool {value val : Bool} : Fits permitNullUpdates (.bool value) (.bool val)
  | integer {u : ConfUpdate} {c : Config} {value : Int} {range : Int × Int}
      (hu : u.integer = some value) (hc : c.range = some range) (hlo : range.1 ≤ value)
      (hhi : value ≤ range.2) : Fits permitNullUpdates u c
  | array {updates : List ConfUpdate} {val : List Config} {prototype : Config}
      {minElements maxElements : UInt16}
      (h : ∀ p ∈ updates.zip (resized updates.length val prototype),
        Fits permitNullUpdates p.1 p.2) :
      Fits permitNullUpdates (.array updates) (.array val prototype minElements maxElements)
  | object {updates : List (String × ConfUpdate)} {members : List (String × Config)}
      (hlength : updates.length = members.length)
      (hkeys : ∀ m ∈ members, (updates.lookup m.1).isSome)
      (h : ∀ m ∈ members, ∀ u, updates.lookup m.1 = some u → Fits permitNullUpdates u m.2) :
      Fits permitNullUpdates (.object updates) (.object members)
  | union {tag' tag : UInt8} {u : ConfUpdate} {val val' : Config}
      {prototypes : List (UInt8 × Config)}
      (hval : if tag' = tag then val' = val else prototypes.lookup tag' = some val')
      (h : Fits permitNullUpdates u val') :
      Fits permitNullUpdates (.union tag' u) (.union tag val prototypes)
  | tuple {updates : List ConfUpdate} {values : List Config}
      (hlength : updates.length = values.length)
      (h : ∀ p ∈ updates.zip values, Fits permitNullUpdates p.1 p.2) :
      Fits permitNullUpdates (.array updates) (.tuple values)

/-- At the root, a JSON node that is no object may stand for the only member. -/
def JsonTakesRoot (permitNullUpdates : Bool) (node : Json) (c : Config) : Prop :=
  JsonTakes permitNullUpdates node c ∨
    ∃ key value, c = .object [(key, value)] ∧ confirmKey ≠ key ∧ node ≠ .null ∧
      node.isObject = false ∧ JsonTakes permitNullUpdates node value

section

variable {permitNullUpdates : Bool}

theorem updateElements_eq_ok {visits : List Visit} {i : Nat} {values values' : List Config} :
    updateElements i visits values = .ok values' ↔
      List.Forall₂ (fun p value' => p.1 p.2 = .ok value') (visits.zip values) values' := by
  induction visits generalizing i values values' with
  | nil =>
    rw [updateElements, List.zip_nil_left, List.forall₂_nil_left_iff]
    · exact ⟨fun h => by cases h; rfl, fun h => by rw [h]⟩
    · intros
      contradiction
  | cons visit visits ih =>
    cases values with
    | nil =>
      rw [updateElements, List.zip_nil_right, List.forall₂_nil_left_iff]
      · exact ⟨fun h => by cases h; rfl, fun h => by rw [h]⟩
      · intros
        contradiction
    | cons value rest =>
      constructor
      · intro h
        obtain ⟨value', hvalue, h⟩ := bind_eq_ok h
        obtain ⟨rest', hrest, h⟩ := bind_eq_ok h
        cases h
        exact .cons (withPrefix_eq_ok.mp hvalue) (ih.mp hrest)
      · intro h
        cases h with
        | cons hvalue hrest =>
          rw [updateElements, withPrefix_eq_ok.mpr hvalue, ih.mpr hrest]
          rfl

/-- All updates of a list succeed if each of them does. -/
theorem exists_forall₂ {R : α → β → Prop} {as : List α} :
    (∃ bs, List.Forall₂ R as bs) ↔ ∀ a ∈ as, ∃ b, R a b := by
  induction as with
  | nil => simp
  | cons a rest ih =>
    rw [List.forall_mem_cons, ← ih]
    constructor
    · rintro ⟨bs, hbs⟩
      cases hbs with
      | cons hfirst hrest => exact ⟨⟨_, hfirst⟩, ⟨_, hrest⟩⟩
    · rintro ⟨⟨b, hb⟩, ⟨bs, hbs⟩⟩
      exact ⟨b :: bs, .cons hb hbs⟩

/-- A member is updated by the visitor under its key. -/
def Visited (visits : MemberVisits) (m m' : String × Config) : Prop :=
  m'.1 = m.1 ∧ ∃ visit, visits.lookup m.1 = some visit ∧ visit m.2 = .ok m'.2

variable {members members' : List (String × Config)} {key : String} {errors : MemberErrors}

section

variable {visits : MemberVisits}

theorem updateNamed_eq_ok :
    updateNamed visits members = .ok members' ↔ List.Forall₂ (Visited visits) members members' := by
  induction members generalizing members' with
  | nil =>
    rw [updateNamed, List.forall₂_nil_left_iff]
    exact ⟨fun h => by cases h; rfl, fun h => by rw [h]⟩
  | cons m rest ih =>
    obtain ⟨key, value⟩ := m
    rw [updateNamed]
    constructor
    · intro h
      cases hvisit : visits.lookup key with
      | none =>
        rw [hvisit] at h
        cases h
      | some visit =>
        rw [hvisit] at h
        obtain ⟨value', hvalue, h⟩ := bind_eq_ok h
        obtain ⟨rest', hrest, h⟩ := bind_eq_ok h
        cases h
        exact .cons ⟨rfl, visit, hvisit, withPrefix_eq_ok.mp hvalue⟩ (ih.mp hrest)
    · intro h
      cases h with
      | @cons _ m' _ rest' hfirst hrest =>
        obtain ⟨rfl, visit, hvisit, hvalue⟩ := hfirst
        rw [hvisit]
        dsimp only
        rw [withPrefix_eq_ok.mpr hvalue, ih.mpr hrest]
        rfl

theorem lookup_removeMember {key' : String} (h : key' ≠ key) :
    (removeMember key visits).lookup key' = visits.lookup key' := by
  induction visits with
  | nil => rfl
  | cons visit rest ih =>
    rw [removeMember, List.eraseP_cons]
    by_cases hkey : key = visit.1
    · subst hkey
      rw [beq_self_eq_true, cond_true, List.lookup_cons, beq_false_of_ne h]
    · rw [beq_false_of_ne hkey, cond_false, List.lookup_cons, List.lookup_cons, ← removeMember, ih]

theorem length_removeMember {visit : Visit} (h : visits.lookup key = some visit) :
    (removeMember key visits).length + 1 = visits.length := by
  rw [removeMember, List.length_eraseP_of_mem (mem_of_lookup h) (beq_self_eq_true key)]
  have hpos : 0 < visits.length := List.length_pos_of_mem (mem_of_lookup h)
  omega

theorem Visited.removeMember {m m' : String × Config} (hkey : m.1 ≠ key) :
    Visited (removeMember key visits) m m' ↔ Visited visits m m' := by
  rw [Visited, Visited, lookup_removeMember hkey]

theorem forall₂_removeMember (h : key ∉ members.map Prod.fst) :
    List.Forall₂ (Visited (Configuration.removeMember key visits)) members members' ↔
      List.Forall₂ (Visited visits) members members' := by
  induction members generalizing members' with
  | nil => rw [List.forall₂_nil_left_iff, List.forall₂_nil_left_iff]
  | cons m rest ih =>
    rw [List.map_cons, List.mem_cons, not_or] at h
    cases members' with
    | nil => exact iff_of_false (fun h => by cases h) fun h => by cases h
    | cons m' rest' =>
      rw [List.forall₂_cons, List.forall₂_cons, ih h.2, Visited.removeMember (Ne.symm h.1)]

end

theorem updateMembers_of_visited {forceSameKeys : Bool} {visits : MemberVisits}
    {members members' : List (String × Config)} (hdistinct : (members.map Prod.fst).Nodup)
    (h : List.Forall₂ (Visited visits) members members') (errors : MemberErrors) :
    ∃ left, updateMembers forceSameKeys permitNullUpdates visits members errors =
      (members', left, errors) ∧ left.length + members.length = visits.length := by
  induction members generalizing visits members' with
  | nil =>
    cases h
    exact ⟨visits, rfl, rfl⟩
  | cons m rest ih =>
    obtain ⟨key, value⟩ := m
    rw [List.map_cons, List.nodup_cons] at hdistinct
    cases h with
    | @cons _ m' _ rest' hfirst hrest =>
      obtain ⟨rfl, visit, hvisit, hvalue⟩ := hfirst
      dsimp only at hvisit hvalue
      obtain ⟨left, hleft, hlength⟩ := ih hdistinct.2
        ((forall₂_removeMember hdistinct.1).mpr hrest)
      refine ⟨left, ?_, ?_⟩
      · rw [updateMembers.eq_def]
        dsimp only
        rw [hvisit]
        dsimp only
        rw [updateMember, hvalue, hleft]
      · have hremoved := length_removeMember hvisit
        dsimp only at hlength
        rw [List.length_cons]
        omega

theorem visited_of_updateMembers {visits : MemberVisits} (hdistinct : (members.map Prod.fst).Nodup)
    (h : (updateMembers true permitNullUpdates visits members errors).2.2.text = "") :
    ∃ members', List.Forall₂ (Visited visits) members members' := by
  induction members generalizing visits errors with
  | nil => exact ⟨[], .nil⟩
  | cons m rest ih =>
    obtain ⟨key, value⟩ := m
    rw [List.map_cons, List.nodup_cons] at hdistinct
    rw [updateMembers.eq_def] at h
    dsimp only at h
    cases hvisit : visits.lookup key with
    | none =>
      rw [hvisit] at h
      have hadd := (Flagged.updateMember_ok (Flagged.updateMembers_text h)).2
      refine absurd hadd (Flagged.add_text_ne errors fun hempty => ?_)
      exact absurd (String.append_eq_empty_iff.mp hempty).2 (by decide)
    | some visit =>
      rw [hvisit] at h
      obtain ⟨hvalue, -⟩ := Flagged.updateMember_ok (Flagged.updateMembers_text h)
      obtain ⟨rest', hrest⟩ := ih hdistinct.2 h
      exact ⟨(key, (updateMember key visit value errors).1) :: rest',
        .cons ⟨rfl, visit, hvisit, hvalue⟩
        ((forall₂_removeMember hdistinct.1).mp hrest)⟩

theorem addUnknownKeys_nil_of_text {visits : MemberVisits}
    (h : (addUnknownKeys visits errors).text = "") : visits = [] := by
  cases visits with
  | nil => rfl
  | cons m rest =>
    rw [addUnknownKeys, List.foldl_cons] at h
    refine absurd (Flagged.addUnknownKeys_text h) (Flagged.add_text_ne errors fun hempty => ?_)
    exact absurd (String.append_eq_empty_iff.mp hempty).2 (by decide)

theorem updateObject_eq_ok {visits : MemberVisits} (hdistinct : (members.map Prod.fst).Nodup) :
    updateObject true permitNullUpdates visits members = .ok members' ↔
      visits.length = members.length ∧ List.Forall₂ (Visited visits) members members' := by
  have hempty : ∀ {text : String}, text = "" ↔ ¬ 0 < text.utf8ByteSize := by
    intro text
    rw [Nat.pos_iff_ne_zero, not_not, String.utf8ByteSize_eq_zero_iff]
  constructor
  · intro h
    rw [updateObject] at h
    dsimp only at h
    rw [if_pos rfl] at h
    split at h
    · cases h
    · rename_i htext
      have htext := hempty.mpr htext
      obtain ⟨ms, hms⟩ := visited_of_updateMembers hdistinct (Flagged.addUnknownKeys_text htext)
      obtain ⟨left, hleft, hlength⟩ := @updateMembers_of_visited permitNullUpdates true _ _ _
        hdistinct hms {}
      rw [hleft] at h htext
      cases h
      have hnil := addUnknownKeys_nil_of_text htext
      subst hnil
      rw [List.length_nil, Nat.zero_add] at hlength
      exact ⟨hlength.symm, hms⟩
  · rintro ⟨hlength, h⟩
    obtain ⟨left, hleft, hcount⟩ := @updateMembers_of_visited permitNullUpdates true _ _ _
      hdistinct h {}
    have hnil : left = [] := List.length_eq_zero_iff.mp (by omega)
    rw [updateObject, hleft, hnil]
    rfl

end

section

variable {a b value : Int}

section

variable (h : a % 2 ^ 64 = b % 2 ^ 64)
include h

theorem int8_ofInt_congr : Int8.ofInt a = Int8.ofInt b := by
  have hmod : a % 2 ^ 8 = b % 2 ^ 8 := by omega
  apply Int8.toInt.inj
  have hsize : ((Int8.size : Nat) : Int) = 2 ^ 8 := rfl
  rw [Int8.toInt_ofInt, Int8.toInt_ofInt, Int.bmod, Int.bmod, hsize, hmod]

theorem int16_ofInt_congr : Int16.ofInt a = Int16.ofInt b := by
  have hmod : a % 2 ^ 16 = b % 2 ^ 16 := by omega
  apply Int16.toInt.inj
  have hsize : ((Int16.size : Nat) : Int) = 2 ^ 16 := rfl
  rw [Int16.toInt_ofInt, Int16.toInt_ofInt, Int.bmod, Int.bmod, hsize, hmod]

theorem int32_ofInt_congr : Int32.ofInt a = Int32.ofInt b := by
  have hmod : a % 2 ^ 32 = b % 2 ^ 32 := by omega
  apply Int32.toInt.inj
  have hsize : ((Int32.size : Nat) : Int) = 2 ^ 32 := rfl
  rw [Int32.toInt_ofInt, Int32.toInt_ofInt, Int.bmod, Int.bmod, hsize, hmod]

theorem int64_ofInt_congr : Int64.ofInt a = Int64.ofInt b := by
  have hmod : a % 2 ^ 64 = b % 2 ^ 64 := by omega
  apply Int64.toInt.inj
  have hsize : ((Int64.size : Nat) : Int) = 2 ^ 64 := rfl
  rw [Int64.toInt_ofInt, Int64.toInt_ofInt, Int.bmod, Int.bmod, hsize, hmod]

theorem uint8_ofInt_congr : UInt8.ofInt a = UInt8.ofInt b := by
  have hmod : a % 2 ^ 8 = b % 2 ^ 8 := by omega
  rw [UInt8.ofInt, UInt8.ofInt, hmod]

end

theorem uint8_toNat_ofInt (hlo : 0 ≤ value) (hhi : value ≤ 2 ^ 8 - 1) :
    ((UInt8.ofInt value).toNat : Int) = value := by
  rw [UInt8.ofInt, UInt8.toNat_ofNat']
  omega

theorem uint16_ofInt_congr (h : a % 2 ^ 64 = b % 2 ^ 64) : UInt16.ofInt a = UInt16.ofInt b := by
  have hmod : a % 2 ^ 16 = b % 2 ^ 16 := by omega
  rw [UInt16.ofInt, UInt16.ofInt, hmod]

theorem uint16_toNat_ofInt (hlo : 0 ≤ value) (hhi : value ≤ 2 ^ 16 - 1) :
    ((UInt16.ofInt value).toNat : Int) = value := by
  rw [UInt16.ofInt, UInt16.toNat_ofNat']
  omega

theorem uint32_ofInt_congr (h : a % 2 ^ 64 = b % 2 ^ 64) : UInt32.ofInt a = UInt32.ofInt b := by
  have hmod : a % 2 ^ 32 = b % 2 ^ 32 := by omega
  rw [UInt32.ofInt, UInt32.ofInt, hmod]

theorem uint32_toNat_ofInt (hlo : 0 ≤ value) (hhi : value ≤ 2 ^ 32 - 1) :
    ((UInt32.ofInt value).toNat : Int) = value := by
  rw [UInt32.ofInt, UInt32.toNat_ofNat']
  omega

theorem uint64_ofInt_congr (h : a % 2 ^ 64 = b % 2 ^ 64) : UInt64.ofInt a = UInt64.ofInt b := by
  have hmod : a % 2 ^ 64 = b % 2 ^ 64 := by omega
  rw [UInt64.ofInt, UInt64.ofInt, hmod]

theorem uint64_toNat_ofInt (hlo : 0 ≤ value) (hhi : value ≤ 2 ^ 64 - 1) :
    ((UInt64.ofInt value).toNat : Int) = value := by
  rw [UInt64.ofInt, UInt64.toNat_ofNat']
  omega

/-- Both visitors set an integer leaf in the same way, whatever they cut off. -/
theorem integer_leaf {c : Config} {range : Int × Int} (h : c.range = some range) :
    ∃ (set : Int → Config) (messageJson messageUpdate : String),
      (∀ asFloat node, fromJsonLeaf asFloat node c =
        fromInteger node range.1 range.2 messageJson set) ∧
      (∀ u, fromUpdateLeaf u c = fromExtracted u messageUpdate set) ∧
      (∀ a b : Int, a % 2 ^ 64 = b % 2 ^ 64 → set a = set b) ∧
      ∀ value, range.1 ≤ value → value ≤ range.2 → (set value).integer = some value := by
  cases c with
  | int | int52 | int32 | int16 | int8 =>
    cases h
    refine ⟨_, _, _, fun _ _ => rfl, fun _ => rfl, ?_, ?_⟩
    · intro a b h
      simp only [int8_ofInt_congr h, int16_ofInt_congr h, int32_ofInt_congr h, int64_ofInt_congr h]
    · intro value hlo hhi
      dsimp only at hlo hhi
      simp (disch := omega) only [integer, Int8.toInt_ofInt_of_le, Int16.toInt_ofInt_of_le,
        Int32.toInt_ofInt_of_le, Int64.toInt_ofInt_of_le]
  | uint | uint53 | uint32 | uint16 | uint8 =>
    cases h
    refine ⟨_, _, _, fun _ _ => rfl, fun _ => rfl, ?_, ?_⟩
    · intro a b h
      simp only [uint8_ofInt_congr h, uint16_ofInt_congr h, uint32_ofInt_congr h,
        uint64_ofInt_congr h]
    · intro value hlo hhi
      dsimp only at hlo hhi
      simp (disch := omega) only [integer, uint8_toNat_ofInt, uint16_toNat_ofInt,
        uint32_toNat_ofInt, uint64_toNat_ofInt]
  | _ => cases h

end

variable {asFloat : Json → UInt32} {toDouble : UInt32 → UInt64} {u : ConfUpdate} {c : Config}

theorem extractInt_of_integer {value : Int} (h : u.integer = some value) :
    ∃ value', u.extractInt = some value' ∧ value'.toInt % 2 ^ 64 = value % 2 ^ 64 := by
  have hcut (value : Int) : (Int64.ofInt value).toInt % 2 ^ 64 = value % 2 ^ 64 := by
    have hsize : ((Int64.size : Nat) : Int) = 2 ^ 64 := rfl
    rw [Int64.toInt_ofInt, ← hsize, Int.bmod_emod]
  cases u with
  | int64 val =>
    cases h
    exact ⟨val, rfl, rfl⟩
  | uint32 | int32 | uint64 | uint16 | int16 | uint8 | int8 =>
    cases h
    exact ⟨_, rfl, hcut _⟩
  | _ => cases h

theorem extractInt_isSome : u.extractInt.isSome = u.integer.isSome := by
  cases u <;> rfl

theorem json_of_integer {value : Int} (h : u.integer = some value) :
    u.json toDouble = .int value := by
  cases u with
  | uint32 | int32 | int64 | uint64 | uint16 | int16 | uint8 | int8 =>
    cases h
    rfl
  | _ => cases h

variable {range : Int × Int} {message : String} {set : Int → Config} {node : Json}

theorem fitsLeaf_iff_integer (h : c.range = some range) :
    u.FitsLeaf c ↔ u.integer.isSome = true := by
  have hc : c.range.isSome = true := by rw [h]; rfl
  cases c with
  | int | uint | int52 | uint53 | uint32 | int32 | uint16 | int16 | uint8 | int8 =>
    cases u <;> exact and_iff_left hc
  | _ => cases h

theorem fromExtracted_ok_iff :
    (∃ c', fromExtracted u message set = .ok c') ↔ u.integer.isSome = true := by
  rw [← extractInt_isSome, fromExtracted]
  cases u.extractInt with
  | none => exact iff_of_false (fun h => by cases h.choose_spec) Bool.false_ne_true
  | some value => exact iff_of_true ⟨_, rfl⟩ rfl

theorem fromUpdateLeaf_ok_iff : (∃ c', fromUpdateLeaf u c = .ok c') ↔ u.FitsLeaf c := by
  cases hrange : c.range with
  | some range =>
    obtain ⟨set, messageJson, message, -, hupdate, -⟩ := integer_leaf hrange
    rw [hupdate, fromExtracted_ok_iff, fitsLeaf_iff_integer hrange]
  | none =>
    have hnone : ¬ (u.integer.isSome = true ∧ c.range.isSome = true) := by
      rw [hrange]
      exact fun h => Bool.false_ne_true h.2
    cases c with
    | string | float | bool =>
      cases u with
      | string | float | bool =>
        first
        | exact iff_of_true ⟨_, rfl⟩ trivial
        | exact iff_of_false (fun h => by cases h.choose_spec) hnone
      | _ => exact iff_of_false (fun h => by cases h.choose_spec) hnone
    | empty | array | object | union | tuple =>
      refine iff_of_false (fun h => by cases h.choose_spec) ?_
      cases u <;> exact hnone
    | _ => cases hrange

theorem asInteger_eq_some {lo hi value : Int} (h : node.asInteger lo hi = some value) :
    node = .int value ∧ lo ≤ value ∧ value ≤ hi := by
  cases node with
  | int value' =>
    rw [Json.asInteger] at h
    split at h
    · rename_i hrange
      cases h
      exact ⟨rfl, hrange⟩
    · cases h
  | _ => cases h

theorem fromInteger_ok_iff :
    (∃ c', fromInteger node range.1 range.2 message set = .ok c') ↔
      ∃ value, node = .int value ∧ range.1 ≤ value ∧ value ≤ range.2 := by
  constructor
  · rintro ⟨c', h⟩
    obtain ⟨value, hvalue, -⟩ := fromInteger_eq_ok h
    exact ⟨value, asInteger_eq_some hvalue⟩
  · rintro ⟨value, rfl, hlo, hhi⟩
    exact ⟨_, fromInteger_eq ⟨hlo, hhi⟩⟩

theorem json_fitsLeaf_iff_integer (h : c.range = some range) :
    node.FitsLeaf c ↔ ∃ value, node = .int value ∧ range.1 ≤ value ∧ value ≤ range.2 := by
  have hint (value : Int) : (∃ r, c.range = some r ∧ r.1 ≤ value ∧ value ≤ r.2) ↔
      ∃ value', Json.int value = .int value' ∧ range.1 ≤ value' ∧ value' ≤ range.2 := by
    rw [h]
    constructor
    · rintro ⟨_, ⟨⟩, hrange⟩
      exact ⟨value, rfl, hrange⟩
    · rintro ⟨_, ⟨⟩, hrange⟩
      exact ⟨range, rfl, hrange⟩
  cases c with
  | int | uint | int52 | uint53 | uint32 | int32 | uint16 | int16 | uint8 | int8 =>
    cases node with
    | int value => exact hint value
    | _ => exact iff_of_false id fun h => by cases h.choose_spec.1
  | _ => cases h

theorem fromJsonLeaf_ok_iff (hleaf : c.isLeaf = true) :
    (∃ c', fromJsonLeaf asFloat node c = .ok c') ↔ node.FitsLeaf c := by
  cases hrange : c.range with
  | some range =>
    obtain ⟨set, message, messageUpdate, hjson, -⟩ := integer_leaf hrange
    rw [hjson, fromInteger_ok_iff, json_fitsLeaf_iff_integer hrange]
  | none =>
    have hnone (value : Int) : ¬ ∃ r, c.range = some r ∧ r.1 ≤ value ∧ value ≤ r.2 := by
      rw [hrange]
      exact fun h => by cases h.choose_spec.1
    cases c with
    | empty =>
      rw [fromJsonLeaf]
      split
      · rename_i hfalsy
        exact iff_of_true ⟨_, rfl⟩ hfalsy
      · rename_i hfalsy
        exact iff_of_false (fun h => by cases h.choose_spec) hfalsy
    | float =>
      cases node with
      | int | float => exact iff_of_true ⟨_, rfl⟩ rfl
      | _ => exact iff_of_false (fun h => by cases h.choose_spec) Bool.false_ne_true
    | string | bool =>
      cases node with
      | int value => exact iff_of_false (fun h => by cases h.choose_spec) (hnone value)
      | _ => first
        | exact iff_of_true ⟨_, rfl⟩ trivial
        | exact iff_of_false (fun h => by cases h.choose_spec) id
    | array | object | union | tuple => cases hleaf
    | _ => cases hrange

/-- Where both visitors accept a leaf, they set what the update says. -/
theorem leaf_agree (hfloat : ∀ value, asFloat (.float (toDouble value)) = value)
    {c₁ c₂ : Config} (h₁ : fromUpdateLeaf u c = .ok c₁)
    (h₂ : fromJsonLeaf asFloat (u.json toDouble) c = .ok c₂) : c₁ = c₂ ∧ Holds u c₁ := by
  cases hrange : c.range with
  | some range =>
    obtain ⟨set, messageJson, message, hjson, hupdate, hcongr, hset⟩ := integer_leaf hrange
    rw [hjson] at h₂
    rw [hupdate, fromExtracted] at h₁
    obtain ⟨value, hvalue, rfl⟩ := fromInteger_eq_ok h₂
    obtain ⟨hnode, hlo, hhi⟩ := asInteger_eq_some hvalue
    cases hinteger : u.integer with
    | none =>
      have hextract : u.extractInt = none := by
        rw [← Option.not_isSome_iff_eq_none, extractInt_isSome, hinteger]
        exact Bool.false_ne_true
      rw [hextract] at h₁
      cases h₁
    | some value' =>
      rw [json_of_integer hinteger] at hnode
      cases hnode
      obtain ⟨extracted, hextract, hmod⟩ := extractInt_of_integer hinteger
      rw [hextract] at h₁
      cases h₁
      have hsame : set extracted.toInt = set value := hcongr _ _ hmod
      rw [hsame]
      exact ⟨rfl, .integer hinteger (hset value hlo hhi)⟩
  | none =>
    cases c with
    | string | bool =>
      cases u <;> cases h₁
      cases h₂
      exact ⟨rfl, by constructor⟩
    | float =>
      cases u with
      | float value =>
        cases h₁
        cases h₂
        rw [ConfUpdate.json, hfloat]
        exact ⟨rfl, .float⟩
      | _ => cases h₁
    | empty | array | object | union | tuple => cases h₁
    | _ => cases hrange

end Esp32Firmware.Configuration
