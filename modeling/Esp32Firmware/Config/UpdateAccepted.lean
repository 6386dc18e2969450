import Esp32Firmware.Config.UpdateFits

/-!
# What updates from memory and from JSON accept

Each of the two visitors accepts exactly the updates it was described to accept.
-/

namespace Esp32Firmware.Configuration

open Config

variable {asFloat : Json → UInt32} {permitNullUpdates : Bool}

theorem exists_bind_ok {x : Except String α} {f : α → β} :
    (∃ b, (x >>= fun a => pure (f a)) = .ok b) ↔ ∃ a, x = .ok a := by
  cases x with
  | error message =>
    exact iff_of_false (fun h => by cases h.choose_spec) fun ⟨_, h⟩ => by cases h
  | ok a => exact iff_of_true ⟨f a, rfl⟩ ⟨a, rfl⟩

variable {as : List α} {values : List Config} {c prototype d : Config} {u : ConfUpdate}
  {minElements maxElements : UInt16} {members : List (String × Config)} {tag' tag : UInt8}
  {prototypes : List (UInt8 × Config)} {forceSameKeys : Bool} {node first : Json}

theorem forall_zip_map {f : α → β} {Q : β → γ → Prop} {cs : List γ} :
    (∀ p ∈ (as.map f).zip cs, Q p.1 p.2) ↔ ∀ p ∈ as.zip cs, Q (f p.1) p.2 := by
  rw [List.zip_map_left, List.forall_mem_map]
  rfl

theorem fromUpdateElements_eq_map (updates : List ConfUpdate) :
    fromUpdateElements updates = updates.map fromUpdate := by
  induction updates with
  | nil => rfl
  | cons u rest ih => rw [fromUpdateElements, ih, List.map_cons]

theorem fromUpdateMembers_lookup (updates : List (String × ConfUpdate)) (key : String) :
    (fromUpdateMembers updates).lookup key = (updates.lookup key).map fromUpdate := by
  induction updates with
  | nil => rfl
  | cons m rest ih =>
    rw [fromUpdateMembers, List.lookup_cons, List.lookup_cons, ih]
    split <;> rfl

theorem updateElements_ok_iff {visits : List Visit} :
    (∃ values', updateElements 0 visits values = .ok values') ↔
      ∀ p ∈ visits.zip values, ∃ c', p.1 p.2 = .ok c' := by
  rw [← exists_forall₂]
  exact exists_congr fun values' => updateElements_eq_ok

theorem visited_iff {visits : MemberVisits} {m : String × Config} :
    (∃ m', Visited visits m m') ↔
      ∃ visit, visits.lookup m.1 = some visit ∧ ∃ c', visit m.2 = .ok c' := by
  constructor
  · rintro ⟨m', -, visit, hvisit, hvalue⟩
    exact ⟨visit, hvisit, m'.2, hvalue⟩
  · rintro ⟨visit, hvisit, c', hvalue⟩
    exact ⟨(m.1, c'), rfl, visit, hvisit, hvalue⟩

theorem exists_mapped {f : α → Visit} {o : Option α} {P : α → Prop}
    (h : ∀ a, o = some a → ((∃ c', f a c = .ok c') ↔ P a)) :
    (∃ visit, o.map f = some visit ∧ ∃ c', visit c = .ok c') ↔ ∃ a, o = some a ∧ P a := by
  cases o with
  | none => exact iff_of_false (fun ⟨_, h, _⟩ => by cases h) fun ⟨_, h, _⟩ => by cases h
  | some a =>
    constructor
    · rintro ⟨visit, ⟨⟩, hvisit⟩
      exact ⟨a, rfl, (h a rfl).mp hvisit⟩
    · rintro ⟨_, ⟨⟩, hP⟩
      exact ⟨f a, rfl, (h a rfl).mpr hP⟩

theorem fromUpdate_scalar (hu : u.isScalar = true) : fromUpdate u = fromUpdateLeaf u := by
  cases u with
  | null | array | object | union => cases hu
  | _ => rfl

/-- Only a container and an update of its kind are not compared as leaves. -/
def ConfUpdate.descends : ConfUpdate → Config → Bool
  | .null, _ | .array _, .array .. | .array _, .tuple _ | .object _, .object _
  | .union .., .union .. => true
  | _, _ => false

theorem updateTakes_leaf {u : ConfUpdate} {c : Config} (h : u.descends c = false) :
    UpdateTakes u c ↔ u.FitsLeaf c := by
  constructor
  · intro htakes
    cases htakes with
    | leaf hfits => exact hfits
    | null | array | object | union | tuple => cases h
  · exact .leaf

theorem not_fitsLeaf {u : ConfUpdate} (hu : u.isScalar = false) : ¬ u.FitsLeaf c := by
  cases u with
  | null | array | object | union => cases c <;> exact fun h => Bool.false_ne_true h.1
  | _ => cases hu

/-- Where every member is named, each has its own entry. -/
theorem named_iff {items : List (String × α)} {members : List (String × β)} {P : α → β → Prop} :
    ((∀ m ∈ members, (items.lookup m.1).isSome) ∧
      ∀ m ∈ members, ∀ a, items.lookup m.1 = some a → P a m.2) ↔
      ∀ m ∈ members, ∃ a, items.lookup m.1 = some a ∧ P a m.2 := by
  constructor
  · rintro ⟨hkeys, h⟩ m hm
    obtain ⟨a, ha⟩ := Option.isSome_iff_exists.mp (hkeys m hm)
    exact ⟨a, ha, h m hm a ha⟩
  · intro h
    constructor
    · intro m hm
      obtain ⟨a, ha, -⟩ := h m hm
      rw [ha]
      rfl
    · intro m hm a ha
      obtain ⟨a', ha', hP⟩ := h m hm
      rw [ha] at ha'
      cases ha'
      exact hP

theorem updateTakes_array {updates : List ConfUpdate} {val : List Config} :
    UpdateTakes (.array updates) (.array val prototype minElements maxElements) ↔
      ∀ p ∈ updates.zip (resized updates.length val prototype), UpdateTakes p.1 p.2 := by
  constructor
  · intro h
    cases h with
    | leaf h => exact absurd h (not_fitsLeaf rfl)
    | array h => exact h
  · exact .array

theorem updateTakes_tuple {updates : List ConfUpdate} :
    UpdateTakes (.array updates) (.tuple values) ↔
      updates.length = values.length ∧ ∀ p ∈ updates.zip values, UpdateTakes p.1 p.2 := by
  constructor
  · intro h
    cases h with
    | leaf h => exact absurd h (not_fitsLeaf rfl)
    | tuple hlength h => exact ⟨hlength, h⟩
  · exact fun h => .tuple h.1 h.2

theorem updateTakes_object {updates : List (String × ConfUpdate)} :
    UpdateTakes (.object updates) (.object members) ↔
      updates.length = members.length ∧ ∀ m ∈ members, ∃ u, updates.lookup m.1 = some u ∧
        UpdateTakes u m.2 := by
  constructor
  · intro h
    cases h with
    | leaf h => exact absurd h (not_fitsLeaf rfl)
    | object hlength hkeys h => exact ⟨hlength, named_iff.mp ⟨hkeys, h⟩⟩
  · rintro ⟨hlength, h⟩
    obtain ⟨hkeys, htakes⟩ := named_iff.mpr h
    exact .object hlength hkeys htakes

theorem updateTakes_union {val : Config} :
    UpdateTakes (.union tag' u) (.union tag val prototypes) ↔
      UpdateTakes u (selectVariant tag' tag val prototypes).2 := by
  constructor
  · intro h
    cases h with
    | leaf h => exact absurd h (not_fitsLeaf rfl)
    | union h => exact h
  · exact .union

/-- What the visitor for updates from memory accepts. -/
theorem fromUpdate_ok_iff (u : ConfUpdate) (c : Config) :
    (∃ c', fromUpdate u c = .ok c') ↔ UpdateTakes u c := by
  induction u using ConfUpdate.induction generalizing c with
  | null => exact iff_of_true ⟨c, rfl⟩ .null
  | scalar u hu =>
    rw [fromUpdate_scalar hu, fromUpdateLeaf_ok_iff, updateTakes_leaf]
    cases u with
    | null | array | object | union => cases hu
    | _ => rfl
  | array updates ih =>
    have hzip (values : List Config) :
        (∀ p ∈ (updates.map fromUpdate).zip values, ∃ c', p.1 p.2 = .ok c') ↔
          ∀ p ∈ updates.zip values, UpdateTakes p.1 p.2 := by
      refine (forall_zip_map (Q := fun (visit : Visit) (value : Config) =>
        ∃ c', visit value = .ok c')).trans ?_
      exact forall₂_congr fun p hp => ih p.1 (List.of_mem_zip hp).1 p.2
    rw [fromUpdate]
    cases c with
    | array val prototype minElements maxElements =>
      dsimp only
      rw [exists_bind_ok, fromUpdateElements_eq_map, updateArray, updateElements_ok_iff,
        List.length_map, ← resized, hzip, updateTakes_array]
    | tuple values =>
      dsimp only
      rw [updateTakes_tuple]
      split
      · rename_i hlength
        rw [exists_bind_ok, fromUpdateElements_eq_map, updateElements_ok_iff, hzip]
        exact (and_iff_right hlength).symm
      · rename_i hlength
        exact iff_of_false (fun h => by cases h.choose_spec) fun h => hlength h.1
    | _ =>
      dsimp only
      rw [fromUpdateLeaf_ok_iff, updateTakes_leaf rfl]
  | object updates ih =>
    rw [fromUpdate]
    cases c with
    | object members =>
      dsimp only
      rw [updateTakes_object]
      split
      · rename_i hlength
        rw [exists_bind_ok]
        refine ((exists_congr fun members' => updateNamed_eq_ok).trans exists_forall₂).trans ?_
        refine (forall₂_congr fun m hm => ?_).trans (and_iff_right hlength).symm
        rw [visited_iff, fromUpdateMembers_lookup]
        exact exists_mapped fun u hu => ih (m.1, u) (mem_of_lookup hu) m.2
      · rename_i hlength
        exact iff_of_false (fun h => by cases h.choose_spec) fun h => hlength h.1
    | _ =>
      dsimp only
      rw [fromUpdateLeaf_ok_iff, updateTakes_leaf rfl]
  | union tag' u ih =>
    rw [fromUpdate]
    cases c with
    | union tag val prototypes =>
      dsimp only
      rw [updateTakes_union, ← ih]
      exact exists_bind_ok
    | _ =>
      dsimp only
      rw [fromUpdateLeaf_ok_iff, updateTakes_leaf rfl]

theorem fromJsonElements_eq_map (nodes : List Json) :
    fromJsonElements asFloat forceSameKeys permitNullUpdates nodes =
      nodes.map (fromJson asFloat forceSameKeys permitNullUpdates) := by
  induction nodes with
  | nil => rfl
  | cons node rest ih => rw [fromJsonElements, ih, List.map_cons]

theorem fromJsonMembers_lookup (nodes : List (String × Json)) (key : String) :
    (fromJsonMembers asFloat forceSameKeys permitNullUpdates nodes).lookup key =
      (nodes.lookup key).map (fromJson asFloat forceSameKeys permitNullUpdates) := by
  induction nodes with
  | nil => rfl
  | cons m rest ih =>
    rw [fromJsonMembers, List.lookup_cons, List.lookup_cons, ih]
    split <;> rfl

theorem fromJsonMembers_length (nodes : List (String × Json)) :
    (fromJsonMembers asFloat forceSameKeys permitNullUpdates nodes).length = nodes.length := by
  induction nodes with
  | nil => rfl
  | cons m rest ih => rw [fromJsonMembers, List.length_cons, ih, List.length_cons]

theorem fitsLeaf_isLeaf (h : node.FitsLeaf c) : c.isLeaf = true := by
  cases c with
  | array | object | union | tuple =>
    cases node with
    | int =>
      obtain ⟨range, hrange, -⟩ := h
      cases hrange
    | _ => cases h
  | _ => rfl

theorem jsonTakes_null :
    JsonTakes permitNullUpdates .null c ↔ permitNullUpdates = true ∨ c = .empty := by
  constructor
  · intro h
    cases h with
    | null h => exact h
    | leaf hnode => exact absurd rfl hnode
  · exact .null

theorem jsonTakes_leaf (hnode : node ≠ .null) (hleaf : c.isLeaf = true) :
    JsonTakes permitNullUpdates node c ↔ node.FitsLeaf c := by
  constructor
  · intro h
    cases h with
    | null => exact absurd rfl hnode
    | leaf _ h => exact h
    | array | object | union | tuple => cases hleaf
  · exact .leaf hnode

theorem jsonTakes_array {nodes : List Json} {val : List Config} :
    JsonTakes permitNullUpdates (.array nodes) (.array val prototype minElements maxElements) ↔
      ∀ p ∈ nodes.zip (resized nodes.length val prototype),
        JsonTakes permitNullUpdates p.1 p.2 := by
  constructor
  · intro h
    cases h with
    | leaf _ h => exact absurd (fitsLeaf_isLeaf h) Bool.false_ne_true
    | array h => exact h
  · exact .array

theorem jsonTakes_tuple {nodes : List Json} :
    JsonTakes permitNullUpdates (.array nodes) (.tuple values) ↔ nodes.length = values.length ∧
        ∀ p ∈ nodes.zip values, JsonTakes permitNullUpdates p.1 p.2 := by
  constructor
  · intro h
    cases h with
    | leaf _ h => exact absurd (fitsLeaf_isLeaf h) Bool.false_ne_true
    | tuple hlength h => exact ⟨hlength, h⟩
  · exact fun h => .tuple h.1 h.2

theorem jsonTakes_object {nodes : List (String × Json)} :
    JsonTakes permitNullUpdates (.object nodes) (.object members) ↔
      nodes.length = members.length ∧ ∀ m ∈ members, ∃ node, nodes.lookup m.1 = some node ∧
        JsonTakes permitNullUpdates node m.2 := by
  constructor
  · intro h
    cases h with
    | leaf _ h => exact absurd (fitsLeaf_isLeaf h) Bool.false_ne_true
    | object hlength hkeys h => exact ⟨hlength, named_iff.mp ⟨hkeys, h⟩⟩
  · rintro ⟨hlength, h⟩
    obtain ⟨hkeys, htakes⟩ := named_iff.mpr h
    exact .object hlength hkeys htakes

theorem newTag_eq_ok :
    newTag permitNullUpdates tag first = .ok tag' ↔ NamesTag permitNullUpdates tag first tag' := by
  constructor
  · intro h
    cases first with
    | null =>
      rw [newTag] at h
      split at h
      · rename_i hpermit
        cases h
        exact .null hpermit
      · cases h
    | int value =>
      rw [newTag] at h
      · split at h
        · rename_i value' hvalue
          obtain ⟨hnode, hlo, hhi⟩ := asInteger_eq_some hvalue
          cases hnode
          cases h
          have hnames := @NamesTag.int permitNullUpdates tag (.ofInt value)
          rwa [uint8_toNat_ofInt hlo hhi] at hnames
        · cases h
      · exact fun hnull => by cases hnull
    | _ => cases h
  · intro h
    cases h with
    | null hpermit => exact if_pos hpermit
    | int => exact Flagged.newTag_toJson tag' tag

theorem updateUnion_ok_iff {visit : Visit} {val : Config} :
    (∃ c', updateUnion permitNullUpdates first visit tag val prototypes = .ok c') ↔
      ∃ tag' val', NamesTag permitNullUpdates tag first tag' ∧
        (if tag' = tag then val' = val else prototypes.lookup tag' = some val') ∧
        ∃ c', visit val' = .ok c' := by
  constructor
  · rintro ⟨c', h⟩
    obtain ⟨tag', htag', h⟩ := bind_eq_ok h
    obtain ⟨val', hval', h⟩ := bind_eq_ok h
    obtain ⟨c', hvisit, -⟩ := bind_eq_ok h
    refine ⟨tag', val', newTag_eq_ok.mp htag', ?_, c', hvisit⟩
    split at hval'
    · rename_i hne
      rw [if_neg hne]
      rw [changeUnionVariant] at hval'
      split at hval'
      · rename_i config hlookup
        cases hval'
        exact hlookup
      · cases hval'
    · rename_i heq
      rw [if_pos (not_not.mp heq)]
      cases hval'
      rfl
  · rintro ⟨tag', val', htag', hval', c', hvisit⟩
    refine ⟨.union tag' c' prototypes, ?_⟩
    rw [updateUnion, newTag_eq_ok.mpr htag']
    change ((if tag' ≠ tag then _ else _ : Except String Config) >>= _) = _
    by_cases hsame : tag' = tag
    · rw [if_pos hsame] at hval'
      subst hval'
      rw [if_neg (not_not.mpr hsame)]
      change (visit val' >>= _) = _
      rw [hvisit]
      rfl
    · rw [if_neg hsame] at hval'
      rw [if_pos hsame, changeUnionVariant, hval']
      change (visit val' >>= _) = _
      rw [hvisit]
      rfl

theorem jsonTakes_union {val : Config} :
    JsonTakes permitNullUpdates (.array [first, node]) (.union tag val prototypes) ↔
      ∃ tag' val', NamesTag permitNullUpdates tag first tag' ∧
        (if tag' = tag then val' = val else prototypes.lookup tag' = some val') ∧
        JsonTakes permitNullUpdates node val' := by
  constructor
  · intro h
    cases h with
    | leaf _ h => exact absurd (fitsLeaf_isLeaf h) Bool.false_ne_true
    | union htag hval h => exact ⟨_, _, htag, hval, h⟩
  · rintro ⟨tag', val', htag, hval, h⟩
    exact .union htag hval h

theorem resized_length (n : Nat) (val : List Config) (prototype : Config) :
    (resized n val prototype).length = n := by
  rw [resized, List.length_append, List.length_take, List.length_replicate]
  omega

theorem isValue_resized {val : List Config} {n : Nat}
    (h : IsValue d (.array val prototype minElements maxElements))
    (hc : c ∈ resized n val prototype) : IsValue prototype c := by
  obtain ⟨-, ⟨⟩, -⟩ | ⟨hprototype, hval⟩ := h
  rcases mem_resized hc with hmem | rfl
  · exact hval c hmem
  · exact hprototype

/-- Every entry of the second list has a partner. -/
theorem exists_partner {bs : List β} {b : β} (hlength : bs.length = as.length) (hb : b ∈ bs) :
    ∃ a, (a, b) ∈ as.zip bs := by
  obtain ⟨i, hi, rfl⟩ := List.mem_iff_getElem.mp hb
  have hi' : i < as.length := hlength ▸ hi
  exact ⟨as[i], Flagged.mem_zip_of_getElem? (List.getElem?_eq_getElem hi')
    (List.getElem?_eq_getElem hi)⟩

theorem isValue_tuple (h : IsValue d (.tuple values)) (hc : c ∈ values) : ∃ d', IsValue d' c := by
  obtain ⟨-, ⟨⟩, -⟩ | _ | _ | _ | ⟨hlength, hvalues⟩ := h
  obtain ⟨d', hd'⟩ := exists_partner hlength hc
  exact ⟨d', hvalues _ hd'⟩

theorem isValue_object (h : IsValue d (.object members)) :
    (members.map Prod.fst).Nodup ∧ ∀ m ∈ members, ∃ d', IsValue d' m.2 := by
  cases h with
  | leaf _ hleaf => cases hleaf
  | @object declared _ hkeys hdistinct hmembers =>
    refine ⟨hkeys ▸ hdistinct, fun m hm => ?_⟩
    have hlength : members.length = declared.length := by
      rw [← List.length_map Prod.fst, hkeys, List.length_map]
    obtain ⟨d', hd'⟩ := exists_partner hlength hm
    exact ⟨d'.2, hmembers _ hd'⟩

theorem isValue_union {val : Config} (h : IsValue d (.union tag val prototypes)) :
    (∃ d', IsValue d' val) ∧ ∀ p ∈ prototypes, IsValue p.2 p.2 := by
  obtain ⟨-, ⟨⟩, -⟩ | _ | _ | ⟨hprototypes, _, hval⟩ := h
  exact ⟨⟨_, hval⟩, hprototypes⟩

theorem isValue_variant {val val' : Config} (h : IsValue d (.union tag val prototypes))
    (hval : if tag' = tag then val' = val else prototypes.lookup tag' = some val') :
    ∃ d', IsValue d' val' := by
  obtain ⟨hpresent, hprototypes⟩ := isValue_union h
  split at hval
  · rw [hval]
    exact hpresent
  · exact ⟨val', hprototypes _ (mem_of_lookup hval)⟩

theorem fromJson_container {node : Json} {c : Config} (hnode : node.isScalar = true)
    (hc : c.isLeaf = false) :
    ∃ message, fromJson asFloat true permitNullUpdates node c = .error message := by
  cases node with
  | null | array | object => cases hnode
  | _ =>
    cases c with
    | array | object | union | tuple => exact ⟨_, rfl⟩
    | _ => cases hc

theorem not_jsonTakes_container (hnode : node.isScalar = true) (hc : c.isLeaf = false) :
    ¬ JsonTakes permitNullUpdates node c := by
  intro h
  cases h with
  | null => cases hnode
  | leaf _ h => exact absurd (fitsLeaf_isLeaf h) (Bool.eq_false_iff.mp hc)
  | _ => cases hnode

/-- A leaf is read from any JSON node in the same way. -/
theorem fromJson_leaf_ok_iff (hnode : node ≠ .null) (hleaf : c.isLeaf = true) :
    (∃ c', fromJson asFloat true permitNullUpdates node c = .ok c') ↔
      JsonTakes permitNullUpdates node c := by
  rw [Flagged.fromJson_leaf_eq hnode hleaf, fromJsonLeaf_ok_iff hleaf, jsonTakes_leaf hnode hleaf]

/-- What the visitor for JSON accepts below the root. -/
theorem fromJson_ok_iff (node : Json) (hc : IsValue d c) :
    (∃ c', fromJson asFloat true permitNullUpdates node c = .ok c') ↔
      JsonTakes permitNullUpdates node c := by
  induction node using Json.induction generalizing d c with
  | null =>
    rw [jsonTakes_null, fromJson]
    constructor
    · rintro ⟨c', h⟩
      cases c with
      | empty => exact .inr rfl
      | _ =>
        rw [fromNull, permitNull] at h
        · split at h
          · rename_i hpermit
            exact .inl hpermit
          · cases h
        · exact fun hempty => by cases hempty
    · rintro (hpermit | rfl)
      · refine ⟨c, ?_⟩
        cases c with
        | empty => rfl
        | _ => exact if_pos hpermit
      · exact ⟨.empty, rfl⟩
  | scalar node hnode =>
    cases hleaf : c.isLeaf with
    | true =>
      apply fromJson_leaf_ok_iff _ hleaf
      rintro rfl
      cases hnode
    | false =>
      obtain ⟨message, hmessage⟩ := @fromJson_container asFloat permitNullUpdates _ _ hnode hleaf
      rw [hmessage]
      exact iff_of_false (by rintro ⟨_, ⟨⟩⟩) (not_jsonTakes_container hnode hleaf)
  | array nodes ih =>
    have hzip {values : List Config} (hvalues : ∀ c ∈ values, ∃ d, IsValue d c) :
        (∀ p ∈ (nodes.map (fromJson asFloat true permitNullUpdates)).zip values,
          ∃ c', p.1 p.2 = .ok c') ↔
          ∀ p ∈ nodes.zip values, JsonTakes permitNullUpdates p.1 p.2 := by
      refine (forall_zip_map (Q := fun (visit : Visit) (value : Config) =>
        ∃ c', visit value = .ok c')).trans ?_
      refine forall₂_congr fun p hp => ?_
      obtain ⟨hleft, hright⟩ := List.of_mem_zip hp
      obtain ⟨d, hd⟩ := hvalues p.2 hright
      exact ih p.1 hleft hd
    cases c with
    | array val prototype minElements maxElements =>
      rw [fromJson, jsonTakes_array]
      dsimp only
      rw [exists_bind_ok, fromJsonElements_eq_map, updateArray, updateElements_ok_iff,
        List.length_map, ← resized]
      exact hzip fun c' hc' => ⟨prototype, isValue_resized hc hc'⟩
    | tuple values =>
      rw [fromJson, jsonTakes_tuple]
      dsimp only
      split
      · rename_i hlength
        rw [exists_bind_ok, fromJsonElements_eq_map, updateElements_ok_iff, and_iff_right hlength]
        exact hzip fun c' hc' => isValue_tuple hc hc'
      · rename_i hlength
        exact iff_of_false (by rintro ⟨_, ⟨⟩⟩) fun h => hlength h.1
    | union tag val prototypes =>
      rcases nodes with _ | ⟨first, _ | ⟨node, _ | ⟨third, rest⟩⟩⟩
      case cons.cons.nil =>
          rw [fromJson, fromJsonElements_eq_map, jsonTakes_union]
          dsimp only [List.map]
          rw [updateUnion_ok_iff]
          refine exists_congr fun tag' => exists_congr fun val' => and_congr_right fun _ =>
            and_congr_right fun hval => ?_
          obtain ⟨d', hd'⟩ := isValue_variant hc hval
          exact ih node (List.mem_cons_of_mem _ (List.mem_singleton_self _)) hd'
      all_goals
          refine iff_of_false (by rintro ⟨_, ⟨⟩⟩) fun h => ?_
          cases h with
          | leaf _ h => exact absurd (fitsLeaf_isLeaf h) Bool.false_ne_true
    | object members =>
      refine iff_of_false (by rintro ⟨_, ⟨⟩⟩) fun h => ?_
      cases h with
      | leaf _ h => exact absurd (fitsLeaf_isLeaf h) Bool.false_ne_true
    | _ => exact fromJson_leaf_ok_iff (fun h => by cases h) rfl
  | object nodes ih =>
    cases c with
    | object members =>
      obtain ⟨hdistinct, hmembers⟩ := isValue_object hc
      rw [fromJson, jsonTakes_object]
      dsimp only
      rw [exists_bind_ok]
      refine (exists_congr fun members' => updateObject_eq_ok hdistinct).trans ?_
      rw [exists_and_left, fromJsonMembers_length]
      refine and_congr_right fun _ => exists_forall₂.trans (forall₂_congr fun m hm => ?_)
      rw [visited_iff, fromJsonMembers_lookup]
      obtain ⟨d', hd'⟩ := hmembers m hm
      exact exists_mapped fun node hnode => ih (m.1, node) (mem_of_lookup hnode) hd'
    | array | union | tuple =>
      refine iff_of_false (by rintro ⟨_, ⟨⟩⟩) fun h => ?_
      cases h with
      | leaf _ h => exact absurd (fitsLeaf_isLeaf h) Bool.false_ne_true
    | _ => exact fromJson_leaf_ok_iff (fun h => by cases h) rfl

end Esp32Firmware.Configuration
