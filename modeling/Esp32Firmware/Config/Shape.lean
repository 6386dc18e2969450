import Esp32Firmware.Config.Update
import Mathlib.Data.List.Forall2

/-!
# Updates keep the schema

Each visitor keeps a well-formed node well formed and of the same schema, so
an accepted update does so for the addressed node. Limits play no part here:
the default validator checks them afterwards.
-/

namespace Esp32Firmware.Configuration

open Config

/-- The second node can take the place of the first one below any parent. -/
structure SameShape (c c' : Config) : Prop where
  wellFormed : c'.WellFormed
  schema : c'.schema = c.schema

/-- A visitor keeps the shape of the nodes it updates. -/
def Keeps (visit : Visit) : Prop :=
  ∀ ⦃c c' : Config⦄, c.WellFormed → visit c = .ok c' → SameShape c c'

theorem SameShape.refl {c : Config} (hc : c.WellFormed) : SameShape c c :=
  ⟨hc, rfl⟩

theorem bind_eq_ok {x : Except String α} {f : α → Except String β} {b : β}
    (h : (x >>= f) = .ok b) : ∃ a, x = .ok a ∧ f a = .ok b := by
  cases x with
  | error message => cases h
  | ok a => exact ⟨a, rfl, h⟩

theorem withPrefix_eq_ok {text : String} {result : Except String α} {a : α} :
    withPrefix text result = .ok a ↔ result = .ok a := by
  cases result with
  | error message =>
    constructor
    · intro h
      cases h
    · intro h
      cases h
  | ok b => exact Iff.rfl

section

variable {asFloat : Json → UInt32} {forceSameKeys permitNullUpdates : Bool}

variable {c c' : Config} {node : Json}

theorem permitNull_eq_ok (h : permitNull permitNullUpdates c = .ok c') : c' = c := by
  cases permitNullUpdates with
  | false => cases h
  | true =>
    cases h
    rfl

theorem fromNull_eq_ok (h : fromNull permitNullUpdates c = .ok c') : c' = c := by
  cases c with
  | empty =>
    cases h
    rfl
  | _ => exact permitNull_eq_ok h

theorem fromNull_keeps : Keeps (fromNull permitNullUpdates) := by
  intro c c' hc h
  rw [fromNull_eq_ok h]
  exact .refl hc

theorem fromInteger_eq_ok {lo hi : Int} {message : String} {set : Int → Config}
    (h : fromInteger node lo hi message set = .ok c') :
    ∃ value, node.asInteger lo hi = some value ∧ c' = set value := by
  rw [fromInteger] at h
  split at h
  · cases h
    exact ⟨_, by assumption, rfl⟩
  · cases h

/-- A leaf stays a leaf of its kind with its own limits. -/
theorem fromJsonLeaf_eq_ok (hleaf : c.isLeaf = true) (h : fromJsonLeaf asFloat node c = .ok c') :
    c'.isLeaf = true ∧ c'.schema = c.schema := by
  cases c with
  | empty =>
    rw [fromJsonLeaf] at h
    split at h
    · cases h
      exact ⟨rfl, rfl⟩
    · cases h
  | string val minChars maxChars =>
    cases node with
    | string value =>
      cases h
      exact ⟨rfl, rfl⟩
    | _ => cases h
  | float val =>
    cases node with
    | int value | float bits =>
      cases h
      exact ⟨rfl, rfl⟩
    | _ => cases h
  | bool val =>
    cases node with
    | bool value =>
      cases h
      exact ⟨rfl, rfl⟩
    | _ => cases h
  | array | object | union | tuple => cases hleaf
  | _ =>
    obtain ⟨value, -, rfl⟩ := fromInteger_eq_ok h
    exact ⟨rfl, rfl⟩

theorem fromJsonLeaf_keeps {node : Json} {c c' : Config} (hleaf : c.isLeaf = true)
    (h : fromJsonLeaf asFloat node c = .ok c') : SameShape c c' := by
  obtain ⟨hleaf', hschema⟩ := fromJsonLeaf_eq_ok hleaf h
  exact ⟨.leaf hleaf', hschema⟩

end

section

variable {forceSameKeys permitNullUpdates : Bool}

variable {values values' : List Config} {prototype : Config} {visit : Visit}

theorem updateElements_keeps {visits : List Visit} (hvisits : ∀ visit ∈ visits, Keeps visit)
    {i : Nat} (hlength : visits.length = values.length) (hvalues : ∀ c ∈ values, c.WellFormed)
    (h : updateElements i visits values = .ok values') :
    List.Forall₂ SameShape values values' := by
  induction values generalizing visits i values' with
  | nil =>
    have hnil : visits = [] := List.length_eq_zero_iff.mp hlength
    subst hnil
    cases h
    exact .nil
  | cons value rest ih =>
    cases visits with
    | nil => cases hlength
    | cons visit visits =>
      obtain ⟨value', hvalue, h⟩ := bind_eq_ok h
      obtain ⟨rest', hrest, h⟩ := bind_eq_ok h
      cases h
      apply List.Forall₂.cons
      · apply hvisits visit List.mem_cons_self (hvalues value List.mem_cons_self)
        exact withPrefix_eq_ok.mp hvalue
      · apply ih _ (Nat.succ.inj hlength) _ hrest
        · intro v hv
          exact hvisits v (List.mem_cons_of_mem _ hv)
        · intro c hc
          exact hvalues c (List.mem_cons_of_mem _ hc)

theorem forall₂_right {R : α → β → Prop} {P : β → Prop} {as : List α} {bs : List β}
    (h : List.Forall₂ R as bs) (himp : ∀ a ∈ as, ∀ b, R a b → P b) : ∀ b ∈ bs, P b := by
  induction h with
  | nil =>
    intro b hb
    cases hb
  | cons hab _ ih =>
    intro b hb
    rcases List.mem_cons.mp hb with rfl | hb
    · exact himp _ List.mem_cons_self _ hab
    · exact ih (fun a ha => himp a (List.mem_cons_of_mem _ ha)) b hb

theorem map_schema_eq (h : List.Forall₂ SameShape values values') :
    values'.map schema = values.map schema := by
  induction h with
  | nil => rfl
  | cons hshape _ ih => rw [List.map_cons, List.map_cons, hshape.schema, ih]

/-- The elements an array visits, after it was truncated or filled up. -/
theorem mem_resized {val : List Config} {c : Config} {n : Nat}
    (h : c ∈ val.take n ++ List.replicate (n - val.length) prototype) :
    c ∈ val ∨ c = prototype := by
  rcases List.mem_append.mp h with htake | hfill
  · left
    exact List.mem_of_mem_take htake
  · right
    exact List.eq_of_mem_replicate hfill

theorem updateArray_keeps {visits : List Visit} (hvisits : ∀ visit ∈ visits, Keeps visit)
    {val val' : List Config} {minElements maxElements : UInt16}
    (hc : (Config.array val prototype minElements maxElements).WellFormed)
    (h : updateArray visits val prototype = .ok val') :
    SameShape (.array val prototype minElements maxElements)
      (.array val' prototype minElements maxElements) := by
  obtain ⟨⟨⟩, -⟩ | ⟨hprototype, hval, hschema⟩ := hc
  have hresized : ∀ c ∈ val.take visits.length ++
      List.replicate (visits.length - val.length) prototype,
      c.WellFormed ∧ c.schema = prototype.schema := by
    intro c hc
    rcases mem_resized hc with hmem | rfl
    · exact ⟨hval c hmem, hschema c hmem⟩
    · exact ⟨hprototype, rfl⟩
  have hlength : visits.length = (val.take visits.length ++
      List.replicate (visits.length - val.length) prototype).length := by
    rw [List.length_append, List.length_take, List.length_replicate]
    omega
  have hshape := updateElements_keeps hvisits hlength (fun c hc => (hresized c hc).1) h
  have helements : ∀ c ∈ val', c.WellFormed ∧ c.schema = prototype.schema := by
    refine forall₂_right hshape fun a ha b hab => ?_
    exact ⟨hab.wellFormed, hab.schema.trans (hresized a ha).2⟩
  constructor
  · apply WellFormed.array hprototype
    · intro c hc
      exact (helements c hc).1
    · intro c hc
      exact (helements c hc).2
  · rfl

theorem updateTuple_keeps {visits : List Visit} (hvisits : ∀ visit ∈ visits, Keeps visit)
    (hlength : visits.length = values.length) (hc : (Config.tuple values).WellFormed)
    (h : updateElements 0 visits values = .ok values') :
    SameShape (.tuple values) (.tuple values') := by
  obtain ⟨⟨⟩, -⟩ | _ | _ | _ | hvalues := hc
  have hshape := updateElements_keeps hvisits hlength hvalues h
  constructor
  · exact .tuple (forall₂_right hshape fun _ _ _ hab => hab.wellFormed)
  · rw [schema, schema, valueSchemas_eq_map, valueSchemas_eq_map, map_schema_eq hshape]

/-- Members under the same keys, each of which can take the place of the other. -/
def SameMembers (members members' : List (String × Config)) : Prop :=
  List.Forall₂ (fun m m' => m'.1 = m.1 ∧ SameShape m.2 m'.2) members members'

theorem SameMembers.object {members members' : List (String × Config)}
    (h : SameMembers members members') : SameShape (.object members) (.object members') := by
  constructor
  · exact .object (forall₂_right h fun _ _ _ hab => hab.2.wellFormed)
  · rw [schema, schema, memberSchemas_eq_map, memberSchemas_eq_map]
    congr 1
    induction h with
    | nil => rfl
    | cons hab _ ih => rw [List.map_cons, List.map_cons, hab.1, hab.2.schema, ih]

theorem updateMember_keeps {key : String} (hvisit : Keeps visit) {value : Config}
    (hvalue : value.WellFormed) (errors : MemberErrors) :
    SameShape value (updateMember key visit value errors).1 := by
  rw [updateMember]
  split
  · rename_i value' h
    exact hvisit hvalue h
  · exact .refl hvalue

theorem mem_of_lookup {α β : Type*} [BEq α] [LawfulBEq α] {key : α} {value : β}
    {entries : List (α × β)} (h : entries.lookup key = some value) : (key, value) ∈ entries := by
  obtain ⟨l, r, rfl, -⟩ := List.lookup_eq_some_iff.mp h
  exact List.mem_append_right l List.mem_cons_self

theorem updateMembers_keeps {visits : MemberVisits} (hvisits : ∀ m ∈ visits, Keeps m.2)
    {members : List (String × Config)} (hmembers : ∀ m ∈ members, m.2.WellFormed)
    (errors : MemberErrors) :
    SameMembers members
      (updateMembers forceSameKeys permitNullUpdates visits members errors).1 := by
  induction members generalizing visits errors with
  | nil => exact .nil
  | cons m rest ih =>
    obtain ⟨key, value⟩ := m
    have hvalue : value.WellFormed := hmembers _ List.mem_cons_self
    have hrest : ∀ m ∈ rest, m.2.WellFormed := fun m hm =>
      hmembers m (List.mem_cons_of_mem _ hm)
    rw [updateMembers.eq_def]
    dsimp only
    split
    · rename_i visit hlookup
      have hvisit : Keeps visit := hvisits _ (mem_of_lookup hlookup)
      apply List.Forall₂.cons
      · exact ⟨rfl, updateMember_keeps hvisit hvalue errors⟩
      · apply ih _ hrest
        intro m hm
        exact hvisits m (List.mem_of_mem_eraseP hm)
    · split
      · apply List.Forall₂.cons
        · exact ⟨rfl, updateMember_keeps fromNull_keeps hvalue _⟩
        · exact ih hvisits hrest _
      · apply List.Forall₂.cons
        · exact ⟨rfl, .refl hvalue⟩
        · exact ih hvisits hrest _

theorem updateObject_keeps {visits : MemberVisits} (hvisits : ∀ m ∈ visits, Keeps m.2)
    {members members' : List (String × Config)} (hc : (Config.object members).WellFormed)
    (h : updateObject forceSameKeys permitNullUpdates visits members = .ok members') :
    SameShape (.object members) (.object members') := by
  obtain ⟨⟨⟩, -⟩ | _ | hmembers := hc
  have hkeeps := @updateMembers_keeps forceSameKeys permitNullUpdates visits hvisits members
    hmembers {}
  rw [updateObject] at h
  dsimp only at h
  generalize (if forceSameKeys = true then _ else _ : MemberErrors) = errors at h
  split at h
  · cases h
  · cases h
    exact hkeeps.object

theorem updateUnion_keeps {first : Json} (hvisit : Keeps visit) {tag : UInt8} {val c' : Config}
    {prototypes : List (UInt8 × Config)} (hc : (Config.union tag val prototypes).WellFormed)
    (h : updateUnion permitNullUpdates first visit tag val prototypes = .ok c') :
    SameShape (.union tag val prototypes) c' := by
  obtain ⟨⟨⟩, -⟩ | _ | _ | ⟨hval, hprototypes, htag⟩ := hc
  obtain ⟨tag', -, h⟩ := bind_eq_ok h
  obtain ⟨val', hval', h⟩ := bind_eq_ok h
  obtain ⟨val'', hvisited, h⟩ := bind_eq_ok h
  cases h
  have hnew : val'.WellFormed ∧ (prototypes.lookup tag').map schema = some val'.schema := by
    split at hval'
    · rw [changeUnionVariant] at hval'
      split at hval'
      · rename_i config hlookup
        cases hval'
        constructor
        · exact hprototypes _ (mem_of_lookup hlookup)
        · rw [hlookup, Option.map_some]
      · cases hval'
    · rename_i hsame
      cases hval'
      rw [not_ne_iff.mp hsame]
      exact ⟨hval, htag⟩
  have hshape := hvisit hnew.1 hvisited
  constructor
  · apply WellFormed.union hshape.wellFormed hprototypes
    rw [hnew.2, hshape.schema]
  · rfl

end

variable {asFloat : Json → UInt32} {forceSameKeys permitNullUpdates : Bool}

theorem fromJsonElements_length (nodes : List Json) :
    (fromJsonElements asFloat forceSameKeys permitNullUpdates nodes).length = nodes.length := by
  induction nodes with
  | nil => rfl
  | cons node rest ih => rw [fromJsonElements, List.length_cons, ih, List.length_cons]

theorem fromJsonScalar_keeps (node : Json) : Keeps (fromJsonScalar asFloat node) := by
  intro c c' hc h
  cases c with
  | object | array | union | tuple => cases h
  | _ => exact @fromJsonLeaf_keeps asFloat node _ c' rfl h

mutual

theorem fromJson_keeps : (node : Json) →
    Keeps (fromJson asFloat forceSameKeys permitNullUpdates node)
  | .null => fun c c' hc h => by
    rw [fromJson] at h
    exact fromNull_keeps hc h
  | .array nodes => fun c c' hc h => by
    have hvisits := fromJsonElements_keeps nodes
    rw [fromJson] at h
    cases c with
    | array val prototype minElements maxElements =>
      obtain ⟨val', hval', h⟩ := bind_eq_ok h
      cases h
      exact updateArray_keeps hvisits hc hval'
    | object members => cases h
    | union tag val prototypes =>
      dsimp only at h
      split at h
      · rename_i visit heq
        apply updateUnion_keeps _ hc h
        exact hvisits visit (heq ▸ by simp)
      · cases h
    | tuple values =>
      dsimp only at h
      split at h
      · rename_i hlength
        obtain ⟨values', hvalues', h⟩ := bind_eq_ok h
        cases h
        apply updateTuple_keeps hvisits _ hc hvalues'
        rw [fromJsonElements_length, hlength]
      · cases h
    | _ => exact fromJsonLeaf_keeps rfl h
  | .object nodes => fun c c' hc h => by
    have hvisits := fromJsonMembers_keeps nodes
    rw [fromJson] at h
    cases c with
    | object members =>
      obtain ⟨members', hmembers', h⟩ := bind_eq_ok h
      cases h
      exact updateObject_keeps hvisits hc hmembers'
    | array | union | tuple => cases h
    | _ => exact fromJsonLeaf_keeps rfl h
  | .bool value => fromJsonScalar_keeps (.bool value)
  | .int value => fromJsonScalar_keeps (.int value)
  | .float bits => fromJsonScalar_keeps (.float bits)
  | .string value => fromJsonScalar_keeps (.string value)

theorem fromJsonElements_keeps : (nodes : List Json) →
    ∀ visit ∈ fromJsonElements asFloat forceSameKeys permitNullUpdates nodes, Keeps visit
  | [] => by
    intro visit hvisit
    cases hvisit
  | node :: rest => by
    intro visit hvisit
    rw [fromJsonElements] at hvisit
    rcases List.mem_cons.mp hvisit with rfl | hvisit
    · exact fromJson_keeps node
    · exact fromJsonElements_keeps rest visit hvisit

theorem fromJsonMembers_keeps : (nodes : List (String × Json)) →
    ∀ m ∈ fromJsonMembers asFloat forceSameKeys permitNullUpdates nodes, Keeps m.2
  | [] => by
    intro m hm
    cases hm
  | (key, node) :: rest => by
    intro m hm
    rw [fromJsonMembers] at hm
    rcases List.mem_cons.mp hm with rfl | hm
    · exact fromJson_keeps node
    · exact fromJsonMembers_keeps rest m hm

end

/-- The only member of an object is updated in place of the object. -/
theorem fromJsonRoot_keeps (node : Json) :
    Keeps (fromJsonRoot asFloat forceSameKeys permitNullUpdates node) := by
  intro c c' hc h
  rw [fromJsonRoot.eq_def] at h
  split at h
  · rename_i key value
    split at h
    · rw [permitNull_eq_ok h]
      exact .refl hc
    · split at h
      · split at h
        · rename_i value' hvalue'
          cases h
          obtain ⟨⟨⟩, -⟩ | _ | hmembers := hc
          have hshape := fromJson_keeps node (hmembers _ List.mem_cons_self) hvalue'
          exact SameMembers.object (.cons ⟨rfl, hshape⟩ .nil)
        · cases h
      · exact fromJson_keeps node hc h
  · exact fromJson_keeps node hc h

end Esp32Firmware.Configuration
