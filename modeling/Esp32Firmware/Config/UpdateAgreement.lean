import Esp32Firmware.Config.UpdateAccepted
import Mathlib.Data.List.Perm.Subperm

/-!
# Updates from memory and from JSON

An update from memory and the JSON node that says the same lead to the same configuration if both
are accepted. They are accepted together exactly if the update fits, or neither of them is.
-/

namespace Esp32Firmware.Configuration

open Config

section

variable {asFloat : Json → UInt32} {toDouble : UInt32 → UInt64} {permitNullUpdates : Bool}

theorem jsonElements_eq_map (updates : List ConfUpdate) :
    ConfUpdate.jsonElements toDouble updates = updates.map (ConfUpdate.json toDouble) := by
  induction updates with
  | nil => rfl
  | cons u rest ih => rw [ConfUpdate.jsonElements, ih, List.map_cons]

theorem jsonMembers_lookup (updates : List (String × ConfUpdate)) (key : String) :
    (ConfUpdate.jsonMembers toDouble updates).lookup key =
      (updates.lookup key).map (ConfUpdate.json toDouble) := by
  induction updates with
  | nil => rfl
  | cons m rest ih =>
    rw [ConfUpdate.jsonMembers, List.lookup_cons, List.lookup_cons, ih]
    split <;> rfl

/-- The two visitors lead to the same configuration where both accept it, and it is the one the
update describes. -/
def Agree (asFloat : Json → UInt32) (toDouble : UInt32 → UInt64) (permitNullUpdates : Bool)
    (u : ConfUpdate) : Prop :=
  ∀ ⦃d c c₁ c₂ : Config⦄, IsValue d c → fromUpdate u c = .ok c₁ →
    fromJson asFloat true permitNullUpdates (u.json toDouble) c = .ok c₂ → c₁ = c₂ ∧ Holds u c₁

theorem elements_agree {updates : List ConfUpdate}
    (h : ∀ u ∈ updates, Agree asFloat toDouble permitNullUpdates u)
    {values vs₁ vs₂ : List Config} (hvalues : ∀ c ∈ values, ∃ d, IsValue d c)
    (hlength : updates.length = values.length)
    (h₁ : updateElements 0 (updates.map fromUpdate) values = .ok vs₁)
    (h₂ : updateElements 0 (updates.map fun u =>
      fromJson asFloat true permitNullUpdates (u.json toDouble)) values = .ok vs₂) :
    vs₁ = vs₂ ∧ updates.length = vs₁.length ∧ ∀ p ∈ updates.zip vs₁, Holds p.1 p.2 := by
  rw [updateElements_eq_ok] at h₁ h₂
  induction updates generalizing values vs₁ vs₂ with
  | nil =>
    cases h₁
    cases h₂
    exact ⟨rfl, rfl, fun p hp => by cases hp⟩
  | cons u rest ih =>
    cases values with
    | nil => cases hlength
    | cons value values =>
      rw [List.forall_mem_cons] at h hvalues
      cases h₁ with
      | cons hfirst₁ hrest₁ =>
        cases h₂ with
        | cons hfirst₂ hrest₂ =>
          obtain ⟨d, hd⟩ := hvalues.1
          obtain ⟨rfl, hholds⟩ := h.1 hd hfirst₁ hfirst₂
          obtain ⟨rfl, hcount, hall⟩ := ih h.2 hvalues.2 (Nat.succ.inj hlength) hrest₁
            hrest₂
          refine ⟨rfl, congrArg Nat.succ hcount, ?_⟩
          rw [List.zip_cons_cons, List.forall_mem_cons]
          exact ⟨hholds, hall⟩

theorem members_agree {updates : List (String × ConfUpdate)}
    (h : ∀ m ∈ updates, Agree asFloat toDouble permitNullUpdates m.2)
    {visits₁ visits₂ : MemberVisits}
    (hvisits₁ : ∀ key, visits₁.lookup key = (updates.lookup key).map fromUpdate)
    (hvisits₂ : ∀ key, visits₂.lookup key = (updates.lookup key).map fun u =>
      fromJson asFloat true permitNullUpdates (u.json toDouble))
    {members ms₁ ms₂ : List (String × Config)} (hmembers : ∀ m ∈ members, ∃ d, IsValue d m.2)
    (h₁ : List.Forall₂ (Visited visits₁) members ms₁)
    (h₂ : List.Forall₂ (Visited visits₂) members ms₂) :
    ms₁ = ms₂ ∧ ms₁.map Prod.fst = members.map Prod.fst ∧
      ∀ m ∈ ms₁, ∃ u, updates.lookup m.1 = some u ∧ Holds u m.2 := by
  induction h₁ generalizing ms₂ with
  | nil =>
    cases h₂
    exact ⟨rfl, rfl, fun m hm => by cases hm⟩
  | @cons m m₁ members ms₁ hfirst₁ hrest₁ ih =>
    cases h₂ with
    | @cons _ m₂ _ ms₂ hfirst₂ hrest₂ =>
      rw [List.forall_mem_cons] at hmembers
      obtain ⟨hkey₁, visit₁, hvisit₁, hvalue₁⟩ := hfirst₁
      obtain ⟨hkey₂, visit₂, hvisit₂, hvalue₂⟩ := hfirst₂
      rw [hvisits₁] at hvisit₁
      rw [hvisits₂] at hvisit₂
      cases hlookup : updates.lookup m.1 with
      | none =>
        rw [hlookup] at hvisit₁
        cases hvisit₁
      | some u =>
        rw [hlookup] at hvisit₁ hvisit₂
        cases hvisit₁
        cases hvisit₂
        obtain ⟨d, hd⟩ := hmembers.1
        obtain ⟨hvalue, hholds⟩ := h (m.1, u) (mem_of_lookup hlookup) hd hvalue₁ hvalue₂
        obtain ⟨rfl, hkeys, hall⟩ := ih hmembers.2 hrest₂
        refine ⟨?_, ?_, ?_⟩
        · rw [Prod.ext (hkey₁.trans hkey₂.symm) hvalue]
        · rw [List.map_cons, List.map_cons, hkeys, hkey₁]
        · rw [List.forall_mem_cons]
          exact ⟨⟨u, hkey₁ ▸ hlookup, hholds⟩, hall⟩

theorem lookup_of_mem {l : List (String × α)} (hdistinct : (l.map Prod.fst).Nodup)
    {m : String × α} (hm : m ∈ l) : l.lookup m.1 = some m.2 := by
  induction l with
  | nil => cases hm
  | cons first rest ih =>
    rw [List.map_cons, List.nodup_cons] at hdistinct
    rw [List.lookup_cons]
    rcases List.mem_cons.mp hm with rfl | hm
    · rw [beq_self_eq_true]
    · have hne : m.1 ≠ first.1 := fun heq =>
        hdistinct.1 (heq ▸ List.mem_map_of_mem hm)
      rw [beq_false_of_ne hne]
      exact ih hdistinct.2 hm

variable {members : List (String × Config)} {c c' val val' : Config} {tag' tag : UInt8}
  {prototypes : List (UInt8 × Config)} {node : Json}

/-- The keys of an update that names every member once are the keys of the members. -/
theorem holds_object {updates : List (String × ConfUpdate)}
    (hdistinct : (members.map Prod.fst).Nodup) (hlength : updates.length = members.length)
    (h : ∀ m ∈ members, ∃ u, updates.lookup m.1 = some u ∧ Holds u m.2) :
    Holds (.object updates) (.object members) := by
  have hsubset : members.map Prod.fst ⊆ updates.map Prod.fst := by
    intro key hkey
    obtain ⟨m, hm, rfl⟩ := List.mem_map.mp hkey
    obtain ⟨u, hu, -⟩ := h m hm
    exact List.mem_map.mpr ⟨(m.1, u), mem_of_lookup hu, rfl⟩
  have hperm : (members.map Prod.fst).Perm (updates.map Prod.fst) := by
    apply (List.subperm_of_subset hdistinct hsubset).perm_of_length_le
    rw [List.length_map, List.length_map, hlength]
  have hmem {m : String × ConfUpdate} (hm : m ∈ updates) : m.1 ∈ members.map Prod.fst :=
    hperm.mem_iff.mpr (List.mem_map_of_mem hm)
  apply Holds.object
  · intro m hm
    obtain ⟨m', hm', hkey⟩ := List.mem_map.mp (hmem hm)
    rw [← hkey, lookup_of_mem hdistinct hm']
    rfl
  · intro m hm c hc
    obtain ⟨u, hu, hholds⟩ := h (m.1, c) (mem_of_lookup hc)
    rw [lookup_of_mem (hperm.nodup_iff.mp hdistinct) hm] at hu
    cases hu
    exact hholds

theorem json_scalar {u : ConfUpdate} (hu : u.isScalar = true) : u.json toDouble ≠ .null := by
  cases u with
  | null | array | object | union => cases hu
  | _ => exact fun h => by cases h

theorem fromUpdateLeaf_isLeaf {u : ConfUpdate} (h : fromUpdateLeaf u c = .ok c') :
    c.isLeaf = true := by
  cases c with
  | array | object | union | tuple => cases h
  | _ => rfl

/-- No leaf takes a container from memory. -/
theorem not_fromUpdateLeaf {u : ConfUpdate} (hu : u.isScalar = false) :
    fromUpdateLeaf u c ≠ .ok c' :=
  fun h => not_fitsLeaf hu (fromUpdateLeaf_ok_iff.mp ⟨c', h⟩)

/-- Both visitors select the same variant of a known tag. -/
theorem selectVariant_known
    (h : (if tag' ≠ tag then changeUnionVariant tag' prototypes else .ok val) = .ok val') :
    selectVariant tag' tag val prototypes = (tag', val') ∧
      if tag' = tag then val' = val else prototypes.lookup tag' = some val' := by
  by_cases hsame : tag' = tag
  · rw [if_neg (not_not.mpr hsame)] at h
    cases h
    rw [selectVariant, if_neg (not_not.mpr hsame), if_pos hsame, hsame]
    exact ⟨rfl, rfl⟩
  · rw [if_pos hsame, changeUnionVariant] at h
    rw [selectVariant, if_pos hsame, if_neg hsame]
    split at h
    · rename_i config hlookup
      cases h
      rw [hlookup]
      exact ⟨rfl, rfl⟩
    · cases h

/-- Wherever both visitors accept an update, they agree. -/
theorem fromUpdate_agree (hfloat : ∀ value, asFloat (.float (toDouble value)) = value)
    (u : ConfUpdate) : Agree asFloat toDouble permitNullUpdates u := by
  induction u using ConfUpdate.induction with
  | null =>
    intro d c c₁ c₂ hc h₁ h₂
    cases h₁
    exact ⟨(fromNull_eq_ok h₂).symm, .null⟩
  | scalar u hu =>
    intro d c c₁ c₂ hc h₁ h₂
    rw [fromUpdate_scalar hu] at h₁
    rw [Flagged.fromJson_leaf_eq (json_scalar hu) (fromUpdateLeaf_isLeaf h₁)] at h₂
    exact leaf_agree hfloat h₁ h₂
  | array updates ih =>
    intro d c c₁ c₂ hc h₁ h₂
    rw [fromUpdate, fromUpdateElements_eq_map] at h₁
    rw [ConfUpdate.json, fromJson, fromJsonElements_eq_map, jsonElements_eq_map, List.map_map] at h₂
    cases c with
    | array val prototype minElements maxElements =>
      obtain ⟨val₁, hval₁, h₁⟩ := bind_eq_ok h₁
      obtain ⟨val₂, hval₂, h₂⟩ := bind_eq_ok h₂
      cases h₁
      cases h₂
      rw [updateArray, List.length_map, ← resized] at hval₁ hval₂
      obtain ⟨rfl, hlength, hholds⟩ := elements_agree ih
        (fun c' hc' => ⟨prototype, isValue_resized hc hc'⟩) (resized_length _ _ _).symm
        hval₁ hval₂
      exact ⟨rfl, .array hlength hholds⟩
    | tuple values =>
      dsimp only at h₁ h₂
      rw [List.length_map] at h₂
      split at h₁
      · rename_i hlength
        rw [if_pos hlength] at h₂
        obtain ⟨values₁, hvalues₁, h₁⟩ := bind_eq_ok h₁
        obtain ⟨values₂, hvalues₂, h₂⟩ := bind_eq_ok h₂
        cases h₁
        cases h₂
        obtain ⟨rfl, hlength, hholds⟩ := elements_agree ih
          (fun c' hc' => isValue_tuple hc hc') hlength hvalues₁ hvalues₂
        exact ⟨rfl, .tuple hlength hholds⟩
      · cases h₁
    | _ =>
      exact absurd h₁ (not_fromUpdateLeaf rfl)
  | object updates ih =>
    intro d c c₁ c₂ hc h₁ h₂
    rw [fromUpdate] at h₁
    cases c with
    | object members =>
      obtain ⟨hdistinct, hmembers⟩ := isValue_object hc
      dsimp only at h₁ h₂
      split at h₁
      · rename_i hlength
        obtain ⟨ms₁, hms₁, h₁⟩ := bind_eq_ok h₁
        obtain ⟨ms₂, hms₂, h₂⟩ := bind_eq_ok h₂
        cases h₁
        cases h₂
        obtain ⟨-, hvisited⟩ := (updateObject_eq_ok hdistinct).mp hms₂
        obtain ⟨rfl, hkeys, hholds⟩ := members_agree ih (fromUpdateMembers_lookup updates)
          (fun key => by rw [fromJsonMembers_lookup, jsonMembers_lookup, Option.map_map]; rfl)
          hmembers (updateNamed_eq_ok.mp hms₁) hvisited
        have hcount : updates.length = ms₁.length := by
          rw [hlength, ← List.length_map Prod.fst, ← hkeys, List.length_map]
        exact ⟨rfl, holds_object (hkeys ▸ hdistinct) hcount hholds⟩
      · cases h₁
    | _ =>
      exact absurd h₁ (not_fromUpdateLeaf rfl)
  | union tag' u ih =>
    intro d c c₁ c₂ hc h₁ h₂
    rw [fromUpdate] at h₁
    cases c with
    | union tag val prototypes =>
      dsimp only [List.map] at h₁ h₂
      obtain ⟨tag₂, htag₂, h₂⟩ := bind_eq_ok h₂
      obtain ⟨val₂, hval₂, h₂⟩ := bind_eq_ok h₂
      obtain ⟨c₂, hc₂, h₂⟩ := bind_eq_ok h₂
      obtain ⟨c₁, hc₁, h₁⟩ := bind_eq_ok h₁
      cases h₁
      cases h₂
      rw [Flagged.newTag_toJson] at htag₂
      cases htag₂
      obtain ⟨hselect, hvariant⟩ := selectVariant_known hval₂
      rw [hselect] at hc₁ ⊢
      obtain ⟨d', hd'⟩ := isValue_variant hc hvariant
      obtain ⟨rfl, hholds⟩ := ih hd' hc₁ hc₂
      exact ⟨rfl, .union hholds⟩
    | _ =>
      exact absurd h₁ (not_fromUpdateLeaf rfl)

theorem update_fitsLeaf_isLeaf {u : ConfUpdate} (h : u.FitsLeaf c) : c.isLeaf = true := by
  obtain ⟨c', hc'⟩ := fromUpdateLeaf_ok_iff.mpr h
  exact fromUpdateLeaf_isLeaf hc'

theorem jsonMembers_length (updates : List (String × ConfUpdate)) :
    (ConfUpdate.jsonMembers toDouble updates).length = updates.length := by
  induction updates with
  | nil => rfl
  | cons m rest ih => rw [ConfUpdate.jsonMembers, List.length_cons, ih, List.length_cons]

theorem selectVariant_eq {tag' tag : UInt8} {val val' : Config}
    {prototypes : List (UInt8 × Config)}
    (h : if tag' = tag then val' = val else prototypes.lookup tag' = some val') :
    (selectVariant tag' tag val prototypes).2 = val' := by
  rw [selectVariant]
  by_cases hsame : tag' = tag
  · rw [if_pos hsame] at h
    rw [if_neg (not_not.mpr hsame), h]
  · rw [if_neg hsame] at h
    rw [if_pos hsame, h]

theorem Fits.updateTakes {u : ConfUpdate} (h : Fits permitNullUpdates u c) : UpdateTakes u c := by
  induction h with
  | null => exact .null
  | string | float | bool => exact .leaf trivial
  | integer hu hc =>
    apply UpdateTakes.leaf
    rw [fitsLeaf_iff_integer hc, hu]
    rfl
  | array _ ih => exact .array ih
  | object hlength hkeys _ ih => exact .object hlength hkeys ih
  | union hval _ ih =>
    apply UpdateTakes.union
    rw [selectVariant_eq hval]
    exact ih
  | tuple hlength _ ih => exact .tuple hlength ih

theorem Fits.jsonTakes {u : ConfUpdate} (h : Fits permitNullUpdates u c) :
    JsonTakes permitNullUpdates (u.json toDouble) c := by
  induction h with
  | null h => exact .null h
  | string | bool => exact .leaf (fun h => by cases h) trivial
  | float => exact .leaf (fun h => by cases h) rfl
  | @integer u c value range hu hc hlo hhi =>
    rw [json_of_integer hu]
    apply JsonTakes.leaf (fun h => by cases h)
    rw [json_fitsLeaf_iff_integer hc]
    exact ⟨value, rfl, hlo, hhi⟩
  | array _ ih =>
    rw [ConfUpdate.json, jsonElements_eq_map, jsonTakes_array, List.length_map]
    exact (forall_zip_map (Q := JsonTakes permitNullUpdates)).mpr ih
  | object hlength hkeys _ ih =>
    rw [ConfUpdate.json, jsonTakes_object, jsonMembers_length]
    refine ⟨hlength, fun m hm => ?_⟩
    obtain ⟨u, hu⟩ := Option.isSome_iff_exists.mp (hkeys m hm)
    rw [jsonMembers_lookup, hu]
    exact ⟨u.json toDouble, rfl, ih m hm u hu⟩
  | union hval _ ih => exact .union .int hval ih
  | tuple hlength _ ih =>
    rw [ConfUpdate.json, jsonElements_eq_map, jsonTakes_tuple, List.length_map]
    exact ⟨hlength, (forall_zip_map (Q := JsonTakes permitNullUpdates)).mpr ih⟩

theorem fits_leaf {u : ConfUpdate} (hu : u.isScalar = true) (h : u.FitsLeaf c)
    (hjson : (u.json toDouble).FitsLeaf c) : Fits permitNullUpdates u c := by
  cases hrange : c.range with
  | some range =>
    obtain ⟨value, hvalue, hlo, hhi⟩ := (json_fitsLeaf_iff_integer hrange).mp hjson
    have hinteger := (fitsLeaf_iff_integer hrange).mp h
    obtain ⟨value', hvalue'⟩ := Option.isSome_iff_exists.mp hinteger
    rw [json_of_integer hvalue'] at hvalue
    cases hvalue
    exact .integer hvalue' hrange hlo hhi
  | none =>
    have hnone : ¬ (u.integer.isSome = true ∧ c.range.isSome = true) := by
      rw [hrange]
      exact fun h => Bool.false_ne_true h.2
    cases u with
    | null | array | object | union => cases hu
    | string value =>
      cases c with
      | string => exact .string
      | _ => exact absurd h hnone
    | float value =>
      cases c with
      | float => exact .float
      | _ => exact absurd h hnone
    | bool value =>
      cases c with
      | bool => exact .bool
      | _ => exact absurd h hnone
    | _ => cases c <;> exact absurd h hnone

theorem fits_of_takes (u : ConfUpdate) (h : UpdateTakes u c)
    (hjson : JsonTakes permitNullUpdates (u.json toDouble) c) : Fits permitNullUpdates u c := by
  induction u using ConfUpdate.induction generalizing c with
  | null => exact .null (jsonTakes_null.mp hjson)
  | scalar u hu =>
    cases h with
    | leaf h =>
      rw [jsonTakes_leaf (json_scalar hu) (update_fitsLeaf_isLeaf h)] at hjson
      exact fits_leaf hu h hjson
    | _ => cases hu
  | array updates ih =>
    have hzip {values : List Config} (hall : ∀ p ∈ updates.zip values, UpdateTakes p.1 p.2)
        (hjson : ∀ p ∈ (updates.map (ConfUpdate.json toDouble)).zip values,
          JsonTakes permitNullUpdates p.1 p.2) :
        ∀ p ∈ updates.zip values, Fits permitNullUpdates p.1 p.2 := by
      intro p hp
      have hjson := (forall_zip_map (Q := JsonTakes permitNullUpdates)).mp hjson
      exact ih p.1 (List.of_mem_zip hp).1 (hall p hp) (hjson p hp)
    rw [ConfUpdate.json, jsonElements_eq_map] at hjson
    cases h with
    | leaf h => exact absurd h (not_fitsLeaf rfl)
    | array h =>
      rw [jsonTakes_array, List.length_map] at hjson
      exact .array (hzip h hjson)
    | tuple hlength h => exact .tuple hlength (hzip h (jsonTakes_tuple.mp hjson).2)
  | object updates ih =>
    cases h with
    | leaf h => exact absurd h (not_fitsLeaf rfl)
    | object hlength hkeys h =>
      obtain ⟨-, hjson⟩ := jsonTakes_object.mp hjson
      refine .object hlength hkeys fun m hm u hu => ?_
      obtain ⟨node, hnode, htakes⟩ := hjson m hm
      rw [jsonMembers_lookup, hu] at hnode
      cases hnode
      exact ih (m.1, u) (mem_of_lookup hu) (h m hm u hu) htakes
  | union tag' u ih =>
    cases h with
    | leaf h => exact absurd h (not_fitsLeaf rfl)
    | union h =>
      obtain ⟨tag'', val', hnames, hval, hnode⟩ := jsonTakes_union.mp hjson
      have hsame : tag'' = tag' := by
        have hnames := newTag_eq_ok.mpr hnames
        rw [Flagged.newTag_toJson] at hnames
        exact (Except.ok.inj hnames).symm
      subst hsame
      rw [selectVariant_eq hval] at h
      exact .union hval (ih h hnode)

/-- A JSON node that stands for the only member of an object. -/
def Inferred (node : Json) (c : Config) : Prop :=
  ∃ key value, c = .object [(key, value)] ∧ confirmKey ≠ key ∧ node ≠ .null ∧ node.isObject = false

theorem fromJsonRoot_of_not_inferred (h : ¬ Inferred node c) :
    fromJsonRoot asFloat true permitNullUpdates node c =
      fromJson asFloat true permitNullUpdates node c := by
  rw [fromJsonRoot.eq_def]
  split
  · rename_i key value
    split
    · rfl
    · rename_i hnode
      split
      · rename_i hinferred
        exact absurd ⟨key, value, rfl, hinferred.2, hnode, Bool.eq_false_iff.mpr hinferred.1⟩ h
      · rfl
  · rfl

theorem fromJsonRoot_inferred {key : String} {value : Config} (hkey : confirmKey ≠ key)
    (hnode : node ≠ .null) (hobject : node.isObject = false) :
    (∃ c', fromJsonRoot asFloat true permitNullUpdates node (.object [(key, value)]) = .ok c') ↔
      ∃ c', fromJson asFloat true permitNullUpdates node value = .ok c' := by
  rw [fromJsonRoot]
  · rw [if_pos ⟨Bool.eq_false_iff.mp hobject, hkey⟩]
    cases fromJson asFloat true permitNullUpdates node value with
    | ok value' => exact iff_of_true ⟨_, rfl⟩ ⟨_, rfl⟩
    | error message => exact iff_of_false (fun ⟨_, h⟩ => by cases h) fun ⟨_, h⟩ => by cases h
  · exact hnode

theorem not_jsonTakes_object (hnode : node ≠ .null) (hobject : node.isObject = false) :
    ¬ JsonTakes permitNullUpdates node (.object members) := by
  intro h
  cases h with
  | null => exact hnode rfl
  | leaf _ h => exact absurd (fitsLeaf_isLeaf h) Bool.false_ne_true
  | object => cases hobject

/-- What the visitor for JSON accepts at the root. -/
theorem fromJsonRoot_ok_iff (node : Json) {d c : Config} (hc : IsValue d c) :
    (∃ c', fromJsonRoot asFloat true permitNullUpdates node c = .ok c') ↔
      JsonTakesRoot permitNullUpdates node c := by
  by_cases hinferred : Inferred node c
  · obtain ⟨key, value, rfl, hkey, hnode, hobject⟩ := hinferred
    obtain ⟨-, hmembers⟩ := isValue_object hc
    obtain ⟨d', hd'⟩ := hmembers (key, value) (List.mem_singleton_self _)
    rw [fromJsonRoot_inferred hkey hnode hobject, fromJson_ok_iff node hd', JsonTakesRoot,
      or_iff_right (not_jsonTakes_object hnode hobject)]
    constructor
    · exact fun h => ⟨key, value, rfl, hkey, hnode, hobject, h⟩
    · rintro ⟨_, _, ⟨⟩, -, -, -, h⟩
      exact h
  · rw [fromJsonRoot_of_not_inferred hinferred, fromJson_ok_iff node hc, JsonTakesRoot]
    refine (or_iff_left ?_).symm
    rintro ⟨key, value, hc, hkey, hnode, hobject, -⟩
    exact hinferred ⟨key, value, hc, hkey, hnode, hobject⟩

/-- An update from memory never stands for the only member of an object. -/
theorem not_inferred {u : ConfUpdate} (h : UpdateTakes u c) : ¬ Inferred (u.json toDouble) c := by
  rintro ⟨key, value, rfl, -, hnode, hobject⟩
  cases h with
  | null => exact hnode rfl
  | leaf h => exact absurd (update_fitsLeaf_isLeaf h) Bool.false_ne_true
  | object => cases hobject

end

namespace ConfigRoot

/-- The checks that follow an update. -/
def accept (root : ConfigRoot) (copy : Config) : Except String ConfigRoot := do
  defaultValidator copy
  let copy ← root.validate copy .code
  return root.updateFromCopy copy

theorem update_eq (root : ConfigRoot) (u : ConfUpdate) :
    root.update u = fromUpdate u root.config >>= root.accept := rfl

theorem updateFromJson_eq_ok (root root' : ConfigRoot) (asFloat : Json → UInt32) (node : Json) :
    root.updateFromJson asFloat node true .code [] = .ok root' ↔
      ∃ copy, fromJsonRoot asFloat true root.permitNullUpdates node root.config = .ok copy ∧
        root.accept copy = .ok root' := by
  have hcopy (copy : Config) : ((defaultValidator copy >>= fun _ => root.validate copy .code) >>=
      fun copy => pure (root.updateFromCopy copy)) = root.accept copy := by
    rw [accept, bind_assoc]
  have hunfold : root.updateFromJson asFloat node true .code [] =
      (fromJsonRoot asFloat true root.permitNullUpdates node root.config).mapError
        (fun message => message.trimAscii.copy) >>= root.accept := by
    rw [updateFromJson, getUpdatedCopy, Config.walk]
    rw [bind_assoc]
    exact bind_congr fun copy => hcopy copy
  rw [hunfold]
  cases fromJsonRoot asFloat true root.permitNullUpdates node root.config with
  | error message => exact iff_of_false (fun h => by cases h) (by rintro ⟨_, ⟨⟩, _⟩)
  | ok copy =>
    constructor
    · exact fun h => ⟨copy, rfl, h⟩
    · rintro ⟨_, ⟨⟩, h⟩
      exact h

theorem update_eq_ok (root root' : ConfigRoot) (u : ConfUpdate) :
    root.update u = .ok root' ↔
      ∃ copy, fromUpdate u root.config = .ok copy ∧ root.accept copy = .ok root' := by
  rw [update_eq]
  constructor
  · intro h
    exact bind_eq_ok h
  · rintro ⟨copy, hcopy, h⟩
    rw [hcopy]
    exact h

/-- An update from memory sets what it says, and its JSON node has the same outcome. -/
def UpdateAgrees (root : ConfigRoot) (asFloat : Json → UInt32) (toDouble : UInt32 → UInt64)
    (u : ConfUpdate) : Prop :=
  (∀ c', fromUpdate u root.config = .ok c' → Holds u c') ∧
    (∀ c', fromUpdate u root.config = .ok c' ↔
      fromJsonRoot asFloat true root.permitNullUpdates (u.json toDouble) root.config = .ok c') ∧
    ∀ root', root.update u = .ok root' ↔
      root.updateFromJson asFloat (u.json toDouble) true .code [] = .ok root'

end ConfigRoot

section

variable {root : ConfigRoot} {d : Config} {u : ConfUpdate} {asFloat : Json → UInt32}
  {toDouble : UInt32 → UInt64}

section

variable (hvalue : IsValue d root.config)
  (hfloat : ∀ value, asFloat (.float (toDouble value)) = value)
include hvalue hfloat

theorem root_agree {c₁ c₂ : Config} (h₁ : fromUpdate u root.config = .ok c₁)
    (h₂ : fromJsonRoot asFloat true root.permitNullUpdates (u.json toDouble) root.config =
      .ok c₂) : c₁ = c₂ ∧ Holds u c₁ := by
  have htakes := (fromUpdate_ok_iff u root.config).mp ⟨c₁, h₁⟩
  rw [fromJsonRoot_of_not_inferred (not_inferred htakes)] at h₂
  exact fromUpdate_agree hfloat u hvalue h₁ h₂

/-- An update that fits has the outcome of its JSON node. -/
theorem fits_outcome (hfits : Fits root.permitNullUpdates u root.config) (c' : Config) :
    fromUpdate u root.config = .ok c' ↔
      fromJsonRoot asFloat true root.permitNullUpdates (u.json toDouble) root.config = .ok c' := by
  obtain ⟨c₁, h₁⟩ := (fromUpdate_ok_iff u root.config).mpr hfits.updateTakes
  obtain ⟨c₂, h₂⟩ := (@fromJsonRoot_ok_iff asFloat _ (u.json toDouble) _ _ hvalue).mpr
    (.inl hfits.jsonTakes)
  obtain ⟨rfl, -⟩ := root_agree hvalue hfloat h₁ h₂
  rw [h₁, h₂]

end

theorem update_iff_of_outcome (h : ∀ c', fromUpdate u root.config = .ok c' ↔
    fromJsonRoot asFloat true root.permitNullUpdates (u.json toDouble) root.config = .ok c')
    (root' : ConfigRoot) :
    root.update u = .ok root' ↔
      root.updateFromJson asFloat (u.json toDouble) true .code [] = .ok root' := by
  rw [ConfigRoot.update_eq_ok, ConfigRoot.updateFromJson_eq_ok]
  exact exists_congr fun copy => and_congr_left fun _ => h copy

end

/-- The two ways to update a configuration agree exactly on the updates that fit, and on those
that neither of them accepts. -/
theorem update_agrees_iff (root : ConfigRoot) {d : Config} (hvalue : IsValue d root.config)
    (u : ConfUpdate) {asFloat : Json → UInt32} {toDouble : UInt32 → UInt64}
    (hfloat : ∀ value, asFloat (.float (toDouble value)) = value) :
    root.UpdateAgrees asFloat toDouble u ↔ Fits root.permitNullUpdates u root.config ∨
        ¬ UpdateTakes u root.config ∧
          ¬ JsonTakesRoot root.permitNullUpdates (u.json toDouble) root.config := by
  have hupdate := fromUpdate_ok_iff u root.config
  have hjson := @fromJsonRoot_ok_iff asFloat root.permitNullUpdates (u.json toDouble) _ _ hvalue
  constructor
  · rintro ⟨-, hagree, -⟩
    by_cases htakes : UpdateTakes u root.config
    · left
      obtain ⟨c', hc'⟩ := hupdate.mpr htakes
      have hc'' := (hagree c').mp hc'
      rw [fromJsonRoot_of_not_inferred (not_inferred htakes)] at hc''
      exact fits_of_takes u htakes ((fromJson_ok_iff _ hvalue).mp ⟨c', hc''⟩)
    · refine .inr ⟨htakes, fun hroot => htakes ?_⟩
      obtain ⟨c', hc'⟩ := hjson.mpr hroot
      exact hupdate.mp ⟨c', (hagree c').mpr hc'⟩
  · intro h
    have hagree (c' : Config) : fromUpdate u root.config = .ok c' ↔
        fromJsonRoot asFloat true root.permitNullUpdates (u.json toDouble) root.config =
          .ok c' := by
      rcases h with hfits | ⟨hnot, hnot'⟩
      · exact fits_outcome hvalue hfloat hfits c'
      · exact iff_of_false (fun hc' => hnot (hupdate.mp ⟨c', hc'⟩))
          fun hc' => hnot' (hjson.mp ⟨c', hc'⟩)
    exact ⟨fun c' hc' => (root_agree hvalue hfloat hc' ((hagree c').mp hc')).2, hagree,
      update_iff_of_outcome hagree⟩

def phaseSwitchWaitTime : ConfigRoot := ⟨.object [("time", .uint8 0 255)], none, true⟩

def narrow : Json → UInt32
  | .float bits => bits.toUInt32
  | _ => 0

theorem phaseSwitchWaitTime_isValue :
    IsValue phaseSwitchWaitTime.config phaseSwitchWaitTime.config := by
  refine IsValue.object (by rfl) (by decide) ?_
  rw [List.zip_cons_cons, List.zip_nil_left, List.forall_mem_singleton]
  exact .leaf rfl rfl rfl

/-- A time in range is set in both ways. -/
theorem phaseSwitchWaitTime_agrees :
    phaseSwitchWaitTime.UpdateAgrees narrow UInt32.toUInt64 (.object [("time", .int32 30)]) := by
  apply (update_agrees_iff phaseSwitchWaitTime phaseSwitchWaitTime_isValue _
    fun value => UInt32.toUInt32_toUInt64 value).mpr
  left
  apply Fits.object rfl
  · rw [List.forall_mem_singleton]
    rfl
  · rw [List.forall_mem_singleton]
    intro u hu
    cases hu
    exact .integer rfl rfl (by decide) (by decide)

/-- A time out of range is cut to eight bits, its JSON node is refused. -/
theorem phaseSwitchWaitTime_cut :
    fromUpdate (.object [("time", .int32 300)]) phaseSwitchWaitTime.config =
      .ok (.object [("time", .uint8 44 255)]) ∧
    ¬ phaseSwitchWaitTime.UpdateAgrees narrow UInt32.toUInt64
      (.object [("time", .int32 300)]) := by
  have hupdate : fromUpdate (.object [("time", .int32 300)]) phaseSwitchWaitTime.config =
      .ok (.object [("time", .uint8 44 255)]) := rfl
  refine ⟨hupdate, fun ⟨_, hagree, _⟩ => ?_⟩
  have hjson := (hagree _).mp hupdate
  cases hjson

end Esp32Firmware.Configuration
