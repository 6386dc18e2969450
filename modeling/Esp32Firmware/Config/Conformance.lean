import Esp32Firmware.Config.Shape

/-!
# Conformance after an update

The default validator accepts exactly the well-formed configurations within
their limits. Writing a node of the same shape through a path keeps the whole
tree well formed, except through a path to the tag of a union: there the value
stays and the new tag decides.
-/

namespace Esp32Firmware.Configuration

open Config

section

theorem validateRange_eq_ok_iff [LE α] [DecidableLE α] [ToString α] {kind : String}
    {val min max : α} : validateRange kind val min max = .ok () ↔ min ≤ val ∧ val ≤ max := by
  rw [validateRange]
  by_cases hmin : min ≤ val
  · by_cases hmax : val ≤ max
    · simp [hmax]
    · simp [hmin]
  · simp [hmin]

theorem validateString_eq_ok_iff {val : String} {minChars maxChars : UInt16} :
    validateString val minChars maxChars = .ok () ↔
      (Config.string val minChars maxChars).LeafInLimits := by
  rw [validateString, LeafInLimits]
  by_cases hmin : val.utf8ByteSize < minChars.toNat
  · simp [hmin, Nat.not_le.mpr hmin]
  · by_cases hmax : maxChars = 0 ∨ val.utf8ByteSize ≤ maxChars.toNat
    · simp [hmax]
    · simp [hmin, hmax]

theorem validateLength_eq_ok_iff {size : Nat} {minElements maxElements : UInt16} :
    validateLength size minElements maxElements = .ok () ↔
      (maxElements = 0 ∨ size ≤ maxElements.toNat) ∧ minElements.toNat ≤ size := by
  have hpos : ∀ x : UInt16, 0 < x ↔ x ≠ 0 := fun x => by
    rw [UInt16.lt_iff_toNat_lt, Ne, ← UInt16.toNat_inj, UInt16.toNat_zero]
    omega
  rw [validateLength]
  by_cases hmax : 0 < maxElements ∧ maxElements.toNat < size
  · have hnot : ¬(maxElements = 0 ∨ size ≤ maxElements.toNat) := by
      rw [hpos] at hmax
      rintro (hzero | hle)
      · exact hmax.1 hzero
      · omega
    simp [hmax, hnot]
  · have hlength : maxElements = 0 ∨ size ≤ maxElements.toNat := by
      by_cases hzero : maxElements = 0
      · exact .inl hzero
      · right
        by_contra hlt
        exact hmax ⟨(hpos _).mpr hzero, by omega⟩
    by_cases hmin : 0 < minElements ∧ size < minElements.toNat
    · have hlt : ¬minElements.toNat ≤ size := by omega
      simp [hmax, hmin]
    · have hle : minElements.toNat ≤ size := by
        by_cases hzero : minElements = 0
        · rw [hzero]
          exact Nat.zero_le _
        · by_contra hlt
          exact hmin ⟨(hpos _).mpr hzero, by omega⟩
      simp [hmax, hlength, hle]

/-- The number of a variant is part of the schema. -/
theorem variantTag_eq_of_schema_eq {c d : Config} (h : c.schema = d.schema) :
    c.variantTag = d.variantTag := by
  cases c <;> cases d <;> first | rfl | cases h

theorem validateVariants_eq_ok {variantType i : Nat} {val : List Config}
    (h : ∀ c ∈ val, c.variantTag = variantType) : validateVariants variantType i val = .ok () := by
  induction val generalizing i with
  | nil => rfl
  | cons value rest ih =>
    rw [validateVariants, if_neg (not_not_intro (h value List.mem_cons_self))]
    exact ih fun c hc => h c (List.mem_cons_of_mem _ hc)

theorem bind_eq_ok_iff {x : Except String Unit} {y : Except String Unit} :
    (x >>= fun _ => y) = .ok () ↔ x = .ok () ∧ y = .ok () := by
  constructor
  · intro h
    obtain ⟨a, ha, hb⟩ := bind_eq_ok h
    exact ⟨ha, hb⟩
  · rintro ⟨rfl, rfl⟩
    rfl

theorem validateElements_eq_ok_iff {i : Nat} {values : List Config} :
    validateElements i values = .ok () ↔ ∀ c ∈ values, defaultValidator c = .ok () := by
  induction values generalizing i with
  | nil => simp [validateElements]
  | cons value rest ih =>
    rw [validateElements, bind_eq_ok_iff, withPrefix_eq_ok, ih, List.forall_mem_cons]

theorem validateMembers_eq_ok_iff {members : List (String × Config)} :
    validateMembers members = .ok () ↔ ∀ m ∈ members, defaultValidator m.2 = .ok () := by
  induction members with
  | nil => simp [validateMembers]
  | cons m rest ih =>
    rw [validateMembers, bind_eq_ok_iff, withPrefix_eq_ok, ih, List.forall_mem_cons]

theorem inLimits_leaf_iff {c : Config} (hleaf : c.isLeaf = true) : c.InLimits ↔ c.LeafInLimits := by
  constructor
  · intro h
    cases h with
    | leaf _ hlimits => exact hlimits
    | array | object | union | tuple => cases hleaf
  · exact .leaf hleaf

theorem defaultValidator_leaf_iff {c : Config} (hleaf : c.isLeaf = true) :
    defaultValidator c = .ok () ↔ c.LeafInLimits := by
  cases c with
  | string => exact validateString_eq_ok_iff
  | int | uint | int52 => exact validateRange_eq_ok_iff
  | uint53 val =>
    rw [defaultValidator, validateRange_eq_ok_iff, LeafInLimits]
    exact and_iff_right (Nat.zero_le _)
  | uint8 val max =>
    rw [defaultValidator, LeafInLimits]
    by_cases h : val ≤ max
    · simp [h]
    · simp [h]
  | array | object | union | tuple => cases hleaf
  | _ => exact iff_of_true rfl trivial

/-- The default validator accepts a well-formed configuration exactly if it is within its
limits. -/
theorem defaultValidator_eq_ok_iff {c : Config} (hc : c.WellFormed) :
    defaultValidator c = .ok () ↔ c.InLimits := by
  induction hc with
  | leaf hleaf => rw [defaultValidator_leaf_iff hleaf, inLimits_leaf_iff hleaf]
  | @array val prototype minElements maxElements _ _ hschema _ ih =>
    have hvariants : validateVariants prototype.variantTag 0 val = .ok () :=
      validateVariants_eq_ok fun c hc => variantTag_eq_of_schema_eq (hschema c hc)
    rw [defaultValidator, bind_eq_ok_iff, bind_eq_ok_iff, validateLength_eq_ok_iff,
      validateElements_eq_ok_iff]
    constructor
    · rintro ⟨⟨hmax, hmin⟩, -, hval⟩
      exact .array hmax hmin fun c hc => (ih c hc).mp (hval c hc)
    · intro h
      obtain ⟨⟨⟩, -⟩ | ⟨hmax, hmin, hval⟩ := h
      exact ⟨⟨hmax, hmin⟩, hvariants, fun c hc => (ih c hc).mpr (hval c hc)⟩
  | object _ ih =>
    rw [defaultValidator, validateMembers_eq_ok_iff]
    constructor
    · intro h
      exact .object fun m hm => (ih m hm).mp (h m hm)
    · intro h
      obtain ⟨⟨⟩, -⟩ | _ | hmembers := h
      exact fun m hm => (ih m hm).mpr (hmembers m hm)
  | union _ _ _ ih _ =>
    rw [defaultValidator, ih]
    constructor
    · exact .union
    · intro h
      obtain ⟨⟨⟩, -⟩ | _ | _ | hval := h
      exact hval
  | tuple _ ih =>
    rw [defaultValidator, validateElements_eq_ok_iff]
    constructor
    · intro h
      exact .tuple fun c hc => (ih c hc).mp (h c hc)
    · intro h
      obtain ⟨⟨⟩, -⟩ | _ | _ | _ | hvalues := h
      exact fun c hc => (ih c hc).mpr (hvalues c hc)

end

section

/-- The key leads to the tag of a union. -/
def SelectsTag (c : Config) (key : Key) : Prop :=
  ∃ tag val prototypes, c = .union tag val prototypes ∧ key = .index 0

variable {c child child' sub sub' : Config} {members : List (String × Config)} {tag : UInt8}
  {path : List Key}

theorem eq_uint8_of_schema {max : UInt8} (h : c.schema = .uint8 max) :
    ∃ tag, c = .uint8 tag max := by
  cases c with
  | uint8 tag max' =>
    cases h
    exact ⟨tag, rfl⟩
  | _ => cases h

theorem mem_setMember {key : String} {value : Config} {m : String × Config}
    (h : m ∈ setMember key value members) : m ∈ members ∨ m.2 = value := by
  induction members with
  | nil => exact .inl h
  | cons m' rest ih =>
    rw [setMember] at h
    split at h
    · rcases List.mem_cons.mp h with rfl | hrest
      · exact .inr rfl
      · exact .inl (List.mem_cons_of_mem _ hrest)
    · rcases List.mem_cons.mp h with rfl | hrest
      · exact .inl List.mem_cons_self
      · exact (ih hrest).imp_left (List.mem_cons_of_mem _)

theorem memberSchemas_setMember {key : String} (hchild : members.lookup key = some child)
    (hschema : child'.schema = child.schema) :
    memberSchemas (setMember key child' members) = memberSchemas members := by
  induction members with
  | nil => rfl
  | cons m rest ih =>
    rw [List.lookup_cons] at hchild
    rw [setMember]
    split at hchild
    · rename_i hkey
      cases hchild
      rw [if_pos hkey, memberSchemas, memberSchemas, hschema]
    · rename_i hkey
      rw [if_neg (Bool.eq_false_iff.mp hkey), memberSchemas, memberSchemas, ih hchild]

theorem lookup_setMember {key : String} (hchild : members.lookup key = some child) :
    (setMember key child' members).lookup key = some child' := by
  induction members with
  | nil => cases hchild
  | cons m rest ih =>
    rw [List.lookup_cons] at hchild
    rw [setMember]
    split at hchild
    · rename_i hkey
      rw [if_pos hkey, List.lookup_cons, hkey]
    · rename_i hkey
      rw [if_neg (Bool.eq_false_iff.mp hkey), List.lookup_cons, hkey]
      exact ih hchild

theorem getOrNull_leaf {key : Key} (hleaf : c.isLeaf = true) : c.getOrNull key = none := by
  cases c with
  | array | object | union | tuple => cases hleaf
  | _ => cases key <;> rfl

/-- A union has its tag and its value. -/
theorem getOrNull_union {val : Config} {prototypes : List (UInt8 × Config)} {key : Key}
    (h : (Config.union tag val prototypes).getOrNull key = some child) :
    key = .index 0 ∧ child = .uint8 tag 255 ∨ key = .index 1 ∧ child = val := by
  cases key with
  | name key => cases h
  | index i =>
    rcases i with _ | _ | i
    · exact .inl ⟨rfl, (Option.some.inj h).symm⟩
    · exact .inr ⟨rfl, (Option.some.inj h).symm⟩
    · cases h

/-- Every node a key leads to is well formed. -/
theorem getOrNull_wellFormed {c child : Config} {key : Key} (hc : c.WellFormed)
    (hchild : c.getOrNull key = some child) : child.WellFormed := by
  cases hc with
  | leaf hleaf =>
    rw [getOrNull_leaf hleaf] at hchild
    cases hchild
  | array _ hval _ =>
    cases key with
    | name key => cases hchild
    | index i => exact hval _ (List.mem_of_getElem? hchild)
  | object hmembers =>
    cases key with
    | name key => exact hmembers _ (mem_of_lookup hchild)
    | index i => cases hchild
  | union hval _ _ =>
    obtain ⟨rfl, rfl⟩ | ⟨rfl, rfl⟩ := getOrNull_union hchild
    · exact .leaf rfl
    · exact hval
  | tuple hvalues =>
    cases key with
    | name key => cases hchild
    | index i => exact hvalues _ (List.mem_of_getElem? hchild)

/-- Writing a node of the same schema through any key keeps the schema. -/
theorem assign_schema {key : Key} (hchild : c.getOrNull key = some child)
    (hschema : child'.schema = child.schema) :
    (c.assign key child').schema = c.schema := by
  cases c with
  | array =>
    cases key with
    | name key => cases hchild
    | index i => rfl
  | object members =>
    cases key with
    | name key => rw [assign, schema, schema, memberSchemas_setMember hchild hschema]
    | index i => cases hchild
  | union tag val prototypes =>
    obtain ⟨rfl, rfl⟩ | ⟨rfl, rfl⟩ := getOrNull_union hchild
    · obtain ⟨tag', rfl⟩ := eq_uint8_of_schema hschema
      rfl
    · rfl
  | tuple values =>
    cases key with
    | name key => cases hchild
    | index i =>
      obtain ⟨hi, hget⟩ := List.getElem?_eq_some_iff.mp hchild
      have hi' : i < (values.map schema).length := by rwa [List.length_map]
      have hget' : child'.schema = (values.map schema)[i] := by
        rw [List.getElem_map, hget, hschema]
      rw [assign, schema, schema, valueSchemas_eq_map, valueSchemas_eq_map, List.map_set,
        hget', List.set_getElem_self]
  | _ =>
    cases hchild

/-- A node of the same shape can be written through every key but the one of a tag. -/
theorem assign_wellFormed {key : Key} (hc : c.WellFormed) (hchild : c.getOrNull key = some child)
    (hshape : SameShape child child') (htag : ¬SelectsTag c key) :
    (c.assign key child').WellFormed := by
  cases hc with
  | leaf hleaf =>
    rw [getOrNull_leaf hleaf] at hchild
    cases hchild
  | @array val prototype minElements maxElements hprototype hval hschema =>
    cases key with
    | name key => cases hchild
    | index i =>
      have hmem : child ∈ val := List.mem_of_getElem? hchild
      apply WellFormed.array hprototype
      · intro c hc
        rcases List.mem_or_eq_of_mem_set hc with hc | rfl
        · exact hval c hc
        · exact hshape.wellFormed
      · intro c hc
        rcases List.mem_or_eq_of_mem_set hc with hc | rfl
        · exact hschema c hc
        · exact hshape.schema.trans (hschema child hmem)
  | object hmembers =>
    cases key with
    | name key =>
      apply WellFormed.object
      intro m hm
      rcases mem_setMember hm with hm | hvalue
      · exact hmembers m hm
      · rw [hvalue]
        exact hshape.wellFormed
    | index i => cases hchild
  | union hval hprototypes hlookup =>
    obtain ⟨rfl, rfl⟩ | ⟨rfl, rfl⟩ := getOrNull_union hchild
    · exact absurd ⟨_, _, _, rfl, rfl⟩ htag
    · apply WellFormed.union hshape.wellFormed hprototypes
      rw [hlookup, hshape.schema]
  | tuple hvalues =>
    cases key with
    | name key => cases hchild
    | index i =>
      apply WellFormed.tuple
      intro c hc
      rcases List.mem_or_eq_of_mem_set hc with hc | rfl
      · exact hvalues c hc
      · exact hshape.wellFormed

/-- What was written through a key is read back, but for the tag of a union. -/
theorem getOrNull_assign {key : Key} (hchild : c.getOrNull key = some child)
    (htag : ¬SelectsTag c key) :
    (c.assign key child').getOrNull key = some child' := by
  cases c with
  | array val | tuple values =>
    cases key with
    | name key => cases hchild
    | index i =>
      obtain ⟨hi, -⟩ := List.getElem?_eq_some_iff.mp hchild
      exact List.getElem?_set_self hi
  | object members =>
    cases key with
    | name key => exact lookup_setMember hchild
    | index i => cases hchild
  | union tag val prototypes =>
    match key, hchild with
    | .index 0, _ => exact absurd ⟨_, _, _, rfl, rfl⟩ htag
    | .index 1, _ => rfl
  | _ =>
    cases hchild

theorem walk_cons {key : Key} (h : c.walk (key :: path) = some sub) :
    ∃ child, c.getOrNull key = some child ∧ child.walk path = some sub := by
  rw [walk] at h
  split at h
  · rename_i child hchild
    exact ⟨child, hchild, h⟩
  · cases h

/-- The last node of a path through a tag is the tag itself. -/
theorem walk_tag {max : UInt8} (h : (Config.uint8 tag max).walk path = some sub) :
    path = [] ∧ sub = .uint8 tag max := by
  cases path with
  | nil => exact ⟨rfl, (Option.some.inj h).symm⟩
  | cons key path =>
    obtain ⟨child, hchild, -⟩ := walk_cons h
    cases hchild

/-- The written tag, if a path leads to the tag of a union, belongs to a prototype that has the
schema of the present value. -/
def TagMatches (c : Config) (path : List Key) (sub' : Config) : Prop :=
  ∀ parent tag val prototypes, path = parent ++ [.index 0] →
    c.walk parent = some (.union tag val prototypes) →
    ∀ tag', sub' = .uint8 tag' 255 → (prototypes.lookup tag').map schema = some val.schema

theorem tagMatches_cons {key : Key} (hchild : c.getOrNull key = some child)
    (htag : ¬SelectsTag c key) :
    TagMatches c (key :: path) sub' ↔ TagMatches child path sub' := by
  constructor
  · intro h parent tag val prototypes hpath hwalk
    apply h (key :: parent) tag val prototypes
    · rw [hpath, List.cons_append]
    · rw [walk, hchild]
      exact hwalk
  · intro h parent tag val prototypes hpath hwalk
    cases parent with
    | nil =>
      cases hpath
      cases hwalk
      exact absurd ⟨_, _, _, rfl, rfl⟩ htag
    | cons key' parent =>
      obtain ⟨rfl, rfl⟩ := List.cons.inj hpath
      obtain ⟨child', hchild', hwalk⟩ := walk_cons hwalk
      rw [hchild] at hchild'
      cases hchild'
      exact h parent tag val prototypes rfl hwalk

/-- Writing a node of the same shape keeps the tree well formed exactly if a written tag
matches, and it always keeps the schema. -/
theorem writeAt_spec (hc : c.WellFormed) (hwalk : c.walk path = some sub)
    (hshape : SameShape sub sub') :
    ((c.writeAt path sub').WellFormed ↔ TagMatches c path sub') ∧
      (c.writeAt path sub').schema = c.schema := by
  induction path generalizing c with
  | nil =>
    cases hwalk
    refine ⟨iff_of_true hshape.wellFormed ?_, hshape.schema⟩
    intro parent tag val prototypes hpath
    simp at hpath
  | cons key path ih =>
    obtain ⟨child, hchild, hwalk⟩ := walk_cons hwalk
    obtain ⟨hwellFormed, hschema⟩ := ih (getOrNull_wellFormed hc hchild) hwalk
    rw [writeAt, hchild]
    by_cases htag : SelectsTag c key
    · obtain ⟨tag, val, prototypes, rfl, rfl⟩ := htag
      cases hchild
      obtain ⟨rfl, rfl⟩ := walk_tag hwalk
      obtain ⟨tag', rfl⟩ := eq_uint8_of_schema hshape.schema
      refine ⟨?_, rfl⟩
      obtain ⟨⟨⟩, -⟩ | _ | _ | ⟨hval, hprototypes, _⟩ := hc
      constructor
      · intro h parent tag₂ val₂ prototypes₂ hpath hwalk tag₃ htag₃
        cases htag₃
        cases parent with
        | nil =>
          cases hwalk
          obtain ⟨⟨⟩, -⟩ | _ | _ | ⟨_, _, hlookup⟩ := h
          exact hlookup
        | cons key' parent => simp at hpath
      · intro h
        exact .union hval hprototypes (h [] _ _ _ rfl rfl tag' rfl)
    · rw [tagMatches_cons hchild htag]
      constructor
      · constructor
        · intro h
          exact hwellFormed.mp (getOrNull_wellFormed h (getOrNull_assign hchild htag))
        · intro h
          exact assign_wellFormed hc hchild ⟨hwellFormed.mpr h, hschema⟩ htag
      · exact assign_schema hchild hschema

end

section

variable {asFloat : Json → UInt32} {forceSameKeys permitNullUpdates : Bool}

variable {node : Json} {c sub : Config} {path : List Key}

/-- A tag addressed by itself is kept by a null node and replaced by an integer. -/
theorem fromJsonRoot_tag {tag max : UInt8} {c' : Config}
    (h : fromJsonRoot asFloat forceSameKeys permitNullUpdates node (.uint8 tag max) = .ok c') :
    c' = .uint8 tag max ∨ ∃ value, node = .int value ∧ c' = .uint8 (.ofInt value) max := by
  cases node with
  | null => exact .inl (fromNull_eq_ok h)
  | int value =>
    obtain ⟨value', hvalue', rfl⟩ := fromInteger_eq_ok h
    rw [Json.asInteger] at hvalue'
    split at hvalue'
    · cases hvalue'
      exact .inr ⟨value, rfl, rfl⟩
    · cases hvalue'
  | _ => cases h

/-- If the path leads to the tag of a union, an integer payload is the tag of a prototype that
has the schema of the present value. -/
def TagUpdateAllowed (c : Config) (path : List Key) (node : Json) : Prop :=
  ∀ parent tag val prototypes value, path = parent ++ [.index 0] →
    c.walk parent = some (.union tag val prototypes) → node = .int value →
    (prototypes.lookup (.ofInt value)).map schema = some val.schema

theorem walk_append {rest : List Key} :
    c.walk (path ++ rest) = (c.walk path).bind fun c => c.walk rest := by
  induction path generalizing c with
  | nil => rfl
  | cons key path ih =>
    rw [List.cons_append, walk, walk]
    cases c.getOrNull key with
    | none => rfl
    | some child => exact ih

theorem walk_wellFormed (hc : c.WellFormed) (hwalk : c.walk path = some sub) : sub.WellFormed := by
  induction path generalizing c with
  | nil =>
    cases hwalk
    exact hc
  | cons key path ih =>
    obtain ⟨child, hchild, hwalk⟩ := walk_cons hwalk
    exact ih (getOrNull_wellFormed hc hchild) hwalk

theorem tagMatches_iff_allowed {sub' : Config} (hc : c.WellFormed) (hwalk : c.walk path = some sub)
    (hsub : fromJsonRoot asFloat forceSameKeys permitNullUpdates node sub = .ok sub') :
    TagMatches c path sub' ↔ TagUpdateAllowed c path node := by
  -- a path that ends with the index of a tag leads to that tag
  have hend : ∀ {parent tag val prototypes}, path = parent ++ [.index 0] →
      c.walk parent = some (.union tag val prototypes) → sub = .uint8 tag 255 := by
    intro parent tag val prototypes hpath hparent
    rw [hpath, walk_append, hparent] at hwalk
    exact (Option.some.inj hwalk).symm
  constructor
  · intro h parent tag val prototypes value hpath hparent hnode
    rw [hend hpath hparent, hnode] at hsub
    obtain ⟨value', hvalue', rfl⟩ := fromInteger_eq_ok hsub
    rw [Json.asInteger] at hvalue'
    split at hvalue'
    · cases hvalue'
      exact h parent tag val prototypes hpath hparent _ rfl
    · cases hvalue'
  · intro h parent tag val prototypes hpath hparent tag' htag'
    rw [hend hpath hparent] at hsub
    rcases fromJsonRoot_tag hsub with heq | ⟨value, hnode, heq⟩
    · rw [heq] at htag'
      cases htag'
      cases walk_wellFormed hc hparent with
      | leaf hleaf => cases hleaf
      | union _ _ hlookup => exact hlookup
    · rw [heq] at htag'
      cases htag'
      exact h parent tag val prototypes value hpath hparent hnode

/-- The validator of the module leaves open whether a copy conforms. -/
def ConfigRoot.ValidatorKeeps (root : ConfigRoot) (σ : Schema) : Prop :=
  ∀ copy source copy', root.validate copy source = .ok copy' → (copy'.Conforms σ ↔ copy.Conforms σ)

/-- An accepted update keeps a valid configuration valid unless it gives a union, whose value it
leaves alone, the tag of another kind of value. -/
theorem ConfigRoot.updateFromJson_conforms_iff {root root' : ConfigRoot} {σ : Schema}
    {node : Json} {source : ConfigSource} {path : List Key} (hvalid : root.config.Conforms σ)
    (hvalidator : root.ValidatorKeeps σ)
    (h : root.updateFromJson asFloat node forceSameKeys source path = .ok root') :
    root'.config.Conforms σ ↔ TagUpdateAllowed root.config path node := by
  obtain ⟨copy, hcopy, h⟩ := bind_eq_ok h
  cases h
  rw [getUpdatedCopy] at hcopy
  cases hwalk : root.config.walk path with
  | none =>
    rw [hwalk] at hcopy
    cases hcopy
  | some sub =>
    rw [hwalk] at hcopy
    obtain ⟨sub', hsub, hcopy⟩ := bind_eq_ok hcopy
    obtain ⟨_, hdefault, hcopy⟩ := bind_eq_ok hcopy
    have hsub' : fromJsonRoot asFloat forceSameKeys root.permitNullUpdates node sub = .ok sub' := by
      cases hresult : fromJsonRoot asFloat forceSameKeys root.permitNullUpdates node sub with
      | error message =>
        rw [hresult] at hsub
        cases hsub
      | ok sub'' =>
        rw [hresult] at hsub
        exact hsub
    have hshape : SameShape sub sub' :=
      fromJsonRoot_keeps node (walk_wellFormed hvalid.wellFormed hwalk) hsub'
    obtain ⟨hwellFormed, hschema⟩ := writeAt_spec hvalid.wellFormed hwalk hshape
    calc
      (root.updateFromCopy copy).config.Conforms σ
        ↔ (root.config.writeAt path sub').Conforms σ := hvalidator _ _ _ hcopy
      _ ↔ (root.config.writeAt path sub').WellFormed := by
          constructor
          · exact fun h => h.wellFormed
          · intro h
            exact ⟨hschema.trans hvalid.schema, h, (defaultValidator_eq_ok_iff h).mp hdefault⟩
      _ ↔ TagMatches root.config path sub' := hwellFormed
      _ ↔ TagUpdateAllowed root.config path node :=
          tagMatches_iff_allowed hvalid.wellFormed hwalk hsub'

end

/-- The value of the union for the source `Input`. -/
def p14aEnwgInput : Config :=
  .object [("limit_on_close", .bool true), ("limit_w", .uint32 4200), ("input_index", .uint8 0 3)]

/-- The initial `p14a_enwg/config` of an energy manager. Its validator starts and stops the
input check and accepts every copy. -/
def p14aEnwgConfig : ConfigRoot where
  config := .object [
    ("enable", .bool false),
    ("source", .union 0 p14aEnwgInput [(0, p14aEnwgInput), (1, .empty), (2, .empty)]),
    ("limit_charger", .bool false),
    ("limit_charge_manager", .bool false),
    ("limit_heating", .bool false),
    ("heating_max_power", .uint32 0)]
  validator := some fun copy _ => .ok copy
  permitNullUpdates := true

theorem p14aEnwgInput_wellFormed : p14aEnwgInput.WellFormed := by
  apply WellFormed.object
  intro m hm
  simp only [List.mem_cons, List.not_mem_nil, or_false] at hm
  rcases hm with rfl | rfl | rfl <;> exact .leaf rfl

theorem p14aEnwgConfig_wellFormed : p14aEnwgConfig.config.WellFormed := by
  apply WellFormed.object
  intro m hm
  simp only [List.mem_cons, List.not_mem_nil, or_false] at hm
  rcases hm with rfl | rfl | rfl | rfl | rfl | rfl
  case inr.inl =>
    apply WellFormed.union p14aEnwgInput_wellFormed
    · intro p hp
      simp only [List.mem_cons, List.not_mem_nil, or_false] at hp
      rcases hp with rfl | rfl | rfl
      · exact p14aEnwgInput_wellFormed
      · exact .leaf rfl
      · exact .leaf rfl
    · rfl
  all_goals exact .leaf rfl

theorem p14aEnwgConfig_conforms : p14aEnwgConfig.config.Conforms p14aEnwgConfig.config.schema := by
  refine ⟨rfl, p14aEnwgConfig_wellFormed, ?_⟩
  rw [← defaultValidator_eq_ok_iff p14aEnwgConfig_wellFormed]
  rfl

theorem p14aEnwgConfig_validatorKeeps (σ : Schema) : p14aEnwgConfig.ValidatorKeeps σ := by
  intro copy source copy' h
  cases h
  exact Iff.rfl

/-- A write below the value of the union keeps the configuration valid. -/
theorem p14aEnwgConfig_limit_conforms :
    ∃ root', p14aEnwgConfig.updateFromJson (fun _ => 0) (.int 5000) true .api
        [.name "source", .index 1, .name "limit_w"] = .ok root' ∧
      root'.config.Conforms p14aEnwgConfig.config.schema := by
  have haccepted : p14aEnwgConfig.updateFromJson (fun _ => 0) (.int 5000) true .api
      [.name "source", .index 1, .name "limit_w"] =
        .ok (p14aEnwgConfig.updateFromCopy (p14aEnwgConfig.config.writeAt
          [.name "source", .index 1, .name "limit_w"] (.uint32 5000))) := rfl
  refine ⟨_, haccepted, (ConfigRoot.updateFromJson_conforms_iff p14aEnwgConfig_conforms
    (p14aEnwgConfig_validatorKeeps _) haccepted).mpr ?_⟩
  intro parent tag val prototypes value hpath
  have hlast := congrArg List.getLast? hpath
  simp at hlast

/-- The tag of the union alone can be set to that of another prototype. -/
theorem p14aEnwgConfig_tag_breaks_schema :
    ¬ ∀ (asFloat : Json → UInt32) (root root' : ConfigRoot) (σ : Schema) (node : Json)
        (forceSameKeys : Bool) (source : ConfigSource) (path : List Key),
        root.config.Conforms σ → root.ValidatorKeeps σ →
        root.updateFromJson asFloat node forceSameKeys source path = .ok root' →
        root'.config.Conforms σ := by
  intro h
  have hconforms := h (fun _ => 0) p14aEnwgConfig _ _ (.int 1) true .api
    [.name "source", .index 0] p14aEnwgConfig_conforms (p14aEnwgConfig_validatorKeeps _) rfl
  obtain ⟨⟨⟩, -⟩ | _ | hmembers := hconforms.wellFormed
  cases hmembers ("source", .union 1 p14aEnwgInput [(0, p14aEnwgInput), (1, .empty),
      (2, .empty)]) (List.mem_cons_of_mem _ List.mem_cons_self) with
  | leaf hleaf => cases hleaf
  | union _ _ htag => cases htag

end Esp32Firmware.Configuration
