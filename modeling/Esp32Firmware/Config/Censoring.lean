import Esp32Firmware.Config.Conformance

/-!
# Censored values of a configuration

Two configurations that are the same up to the values that are set under censored keys are
written as the same JSON document. Only a path that leads through such a value can tell them
apart.
-/

namespace Esp32Firmware.Configuration

namespace Config

section

variable (keysToCensor : List String)

mutual

/-- The values that are set under censored keys are taken out. -/
def mask : Config → Config
  | .array val prototype minElements maxElements =>
    .array (maskElements val) prototype minElements maxElements
  | .object members => .object (maskMembers members)
  | .union tag val prototypes => .union tag (mask val) prototypes
  | .tuple values => .tuple (maskElements values)
  | c => c

def maskElements : List Config → List Config
  | [] => []
  | value :: rest => mask value :: maskElements rest

def maskMembers : List (String × Config) → List (String × Config)
  | [] => []
  | (key, child) :: rest =>
    (key, if child.isCensored keysToCensor key then .empty else mask child) :: maskMembers rest

end

/-- The first value set under a censored key that a path leads through, and the rest of the
path. -/
def censoredAt : Config → List Key → Option (Config × List Key)
  | _, [] => none
  | c, key :: path =>
    match c.getOrNull key with
    | none => none
    | some child =>
      match key with
      | .name name =>
        if child.isCensored keysToCensor name then some (child, path)
        else child.censoredAt path
      | .index _ => child.censoredAt path

end

variable {keysToCensor : List String} {floatJson : UInt32 → Json}

theorem isEmptyString_mask (c : Config) :
    (c.mask keysToCensor).isEmptyString = c.isEmptyString := by
  cases c <;> simp only [mask, isEmptyString]

theorem isCensored_mask (c : Config) (key : String) :
    (c.mask keysToCensor).isCensored keysToCensor key = c.isCensored keysToCensor key := by
  rw [isCensored, isCensored, isEmptyString_mask]

theorem maskElements_eq_map (values : List Config) :
    maskElements keysToCensor values = values.map (mask keysToCensor) := by
  induction values with
  | nil => rfl
  | cons value rest ih => rw [maskElements, ih, List.map_cons]

/-- A member after the mask. -/
def maskMember (keysToCensor : List String) (key : String) (child : Config) : Config :=
  if child.isCensored keysToCensor key then .empty else child.mask keysToCensor

theorem length_maskMembers (members : List (String × Config)) :
    (maskMembers keysToCensor members).length = members.length := by
  induction members with
  | nil => rfl
  | cons m rest ih => rw [maskMembers, List.length_cons, List.length_cons, ih]

theorem lookup_maskMembers (members : List (String × Config)) (key : String) :
    (maskMembers keysToCensor members).lookup key =
      (members.lookup key).map (maskMember keysToCensor key) := by
  induction members with
  | nil => rfl
  | cons m rest ih =>
    obtain ⟨name, child⟩ := m
    rw [maskMembers, List.lookup_cons, List.lookup_cons]
    by_cases hkey : key = name
    · subst hkey
      simp [maskMember]
    · simp [beq_false_of_ne hkey, ih]

/-- A masked member is censored like the member itself. -/
theorem isCensored_maskMember (key : String) (child : Config) :
    (maskMember keysToCensor key child).isCensored keysToCensor key =
      child.isCensored keysToCensor key := by
  unfold maskMember
  split
  · rename_i hcensored
    rw [hcensored]
    simp only [isCensored, Bool.and_eq_true] at hcensored ⊢
    exact ⟨hcensored.1, rfl⟩
  · exact isCensored_mask child key

mutual

/-- The document of a configuration does not show what the mask takes out. -/
theorem toJson_mask : (c : Config) →
    (c.mask keysToCensor).toJson floatJson keysToCensor = c.toJson floatJson keysToCensor
  | .array val _ _ _ => by
    rw [mask, toJson, toJson, toJsonElements_mask val]
  | .object members => by
    rw [mask, toJson, toJson, toJsonMembers_mask members]
  | .union tag val _ => by
    rw [mask, toJson, toJson, toJson_mask val]
  | .tuple values => by
    rw [mask, toJson, toJson, toJsonElements_mask values]
  | .empty | .string .. | .float _ | .int .. | .uint .. | .int52 _ | .uint53 _ | .uint32 _
  | .int32 _ | .uint16 _ | .int16 _ | .uint8 .. | .int8 _ | .bool _ => rfl

theorem toJsonElements_mask : (values : List Config) →
    toJsonElements floatJson keysToCensor (maskElements keysToCensor values) =
      toJsonElements floatJson keysToCensor values
  | [] => rfl
  | value :: rest => by
    rw [maskElements, toJsonElements, toJsonElements, toJson_mask value, toJsonElements_mask rest]

theorem toJsonMembers_mask : (members : List (String × Config)) →
    toJsonMembers floatJson keysToCensor (maskMembers keysToCensor members) =
      toJsonMembers floatJson keysToCensor members
  | [] => rfl
  | (key, child) :: rest => by
    rw [maskMembers, toJsonMembers, toJsonMembers, toJsonMembers_mask rest]
    by_cases hcensored : child.isCensored keysToCensor key = true
    · have hmasked : (maskMember keysToCensor key child).isCensored keysToCensor key = _ :=
        isCensored_maskMember key child
      rw [maskMember, if_pos hcensored] at hmasked
      rw [if_pos hcensored, if_pos (hmasked.trans hcensored), if_pos hcensored]
    · rw [if_neg hcensored, isCensored_mask, if_neg hcensored, if_neg hcensored, toJson_mask child]

end

/-- What the mask makes of the node a key leads to. -/
def maskChild (keysToCensor : List String) : Key → Config → Config
  | .name key, child => maskMember keysToCensor key child
  | .index _, child => child.mask keysToCensor

theorem getOrNull_mask (c : Config) (key : Key) :
    (c.mask keysToCensor).getOrNull key = (c.getOrNull key).map (maskChild keysToCensor key) := by
  cases c with
  | array val | tuple values =>
    cases key with
    | name key => rfl
    | index i =>
      rw [mask, getOrNull, getOrNull, maskElements_eq_map, List.getElem?_map]
      rfl
  | object members =>
    cases key with
    | name key => exact lookup_maskMembers members key
    | index i => rfl
  | union tag val prototypes =>
    match key with
    | .name key => rfl
    | .index 0 => rfl
    | .index 1 => rfl
    | .index (n + 2) => rfl
  | _ => cases key <;> rfl

/-- The value under this key is not censored. -/
def Visible (keysToCensor : List String) (child : Config) : Key → Prop
  | .name key => child.isCensored keysToCensor key = false
  | .index _ => True

theorem censoredAt_cons_eq_none {c child : Config} {key : Key} {path : List Key}
    (hchild : c.getOrNull key = some child) :
    c.censoredAt keysToCensor (key :: path) = none ↔
      Visible keysToCensor child key ∧ child.censoredAt keysToCensor path = none := by
  rw [censoredAt, hchild]
  cases key with
  | name key =>
    dsimp only [Visible]
    split
    · rename_i hcensored
      simp [hcensored]
    · rename_i hcensored
      simp [hcensored]
  | index i => simp [Visible]

theorem maskChild_of_visible {child : Config} {key : Key}
    (h : Visible keysToCensor child key) :
    maskChild keysToCensor key child = child.mask keysToCensor := by
  cases key with
  | name key => exact if_neg (Bool.eq_false_iff.mp h)
  | index i => rfl

/-- A path outside of censored values leads to the masked node. -/
theorem walk_mask {c : Config} {path : List Key} (h : c.censoredAt keysToCensor path = none) :
    (c.mask keysToCensor).walk path = (c.walk path).map (mask keysToCensor) := by
  induction path generalizing c with
  | nil => rfl
  | cons key path ih =>
    rw [walk, walk, getOrNull_mask]
    cases hchild : c.getOrNull key with
    | none => rfl
    | some child =>
      obtain ⟨hvisible, hrest⟩ := (censoredAt_cons_eq_none hchild).mp h
      rw [Option.map_some, maskChild_of_visible hvisible]
      exact ih hrest

theorem visible_maskChild {child : Config} {key : Key} :
    Visible keysToCensor (maskChild keysToCensor key child) key ↔
      Visible keysToCensor child key := by
  cases key with
  | name key =>
    dsimp only [Visible, maskChild]
    rw [isCensored_maskMember]
  | index i => exact Iff.rfl

/-- Whether a path leads through a censored value is seen behind the mask. -/
theorem censoredAt_mask {c : Config} {path : List Key} :
    (c.mask keysToCensor).censoredAt keysToCensor path = none ↔
      c.censoredAt keysToCensor path = none := by
  induction path generalizing c with
  | nil => exact Iff.rfl
  | cons key path ih =>
    cases hchild : c.getOrNull key with
    | none =>
      have hmasked : (c.mask keysToCensor).getOrNull key = none := by
        rw [getOrNull_mask, hchild, Option.map_none]
      rw [censoredAt, censoredAt, hchild, hmasked]
    | some child =>
      have hmasked : (c.mask keysToCensor).getOrNull key =
          some (maskChild keysToCensor key child) := by
        rw [getOrNull_mask, hchild, Option.map_some]
      rw [censoredAt_cons_eq_none hchild, censoredAt_cons_eq_none hmasked, visible_maskChild]
      apply and_congr_right
      intro hvisible
      rw [maskChild_of_visible hvisible, ih]

/-- Configurations that are the same up to censored values show the same document at every path
outside of such values. -/
theorem walk_toJson_eq {c c' : Config} {path : List Key}
    (hmask : c'.mask keysToCensor = c.mask keysToCensor)
    (h : c.censoredAt keysToCensor path = none) :
    (c'.walk path).map (toJson floatJson keysToCensor) =
      (c.walk path).map (toJson floatJson keysToCensor) := by
  have h' : c'.censoredAt keysToCensor path = none := by
    rwa [← censoredAt_mask, hmask, censoredAt_mask]
  have hshown (d : Config) (hd : d.censoredAt keysToCensor path = none) :
      (d.walk path).map (toJson floatJson keysToCensor) =
        ((d.mask keysToCensor).walk path).map (toJson floatJson keysToCensor) := by
    rw [walk_mask hd, Option.map_map]
    congr 1
    funext node
    exact (toJson_mask node).symm
  rw [hshown c' h', hshown c h, hmask]

/-- A path through a censored value goes on from it. -/
theorem walk_of_censoredAt {c member : Config} {path rest : List Key}
    (h : c.censoredAt keysToCensor path = some (member, rest)) :
    c.walk path = member.walk rest := by
  induction path generalizing c with
  | nil => cases h
  | cons key path ih =>
    rw [censoredAt] at h
    cases hchild : c.getOrNull key with
    | none =>
      rw [hchild] at h
      cases h
    | some child =>
      rw [hchild] at h
      rw [walk, hchild]
      dsimp only at h ⊢
      cases key with
      | name key =>
        dsimp only at h
        split at h
        · cases h
          rfl
        · exact ih h
      | index i => exact ih h

theorem maskMembers_setMember {key : String} {child child' : Config}
    {members : List (String × Config)} (hchild : members.lookup key = some child)
    (hmask : maskMember keysToCensor key child' = maskMember keysToCensor key child) :
    maskMembers keysToCensor (setMember key child' members) = maskMembers keysToCensor members := by
  induction members with
  | nil => rfl
  | cons m rest ih =>
    obtain ⟨name, value⟩ := m
    rw [List.lookup_cons] at hchild
    rw [setMember]
    split at hchild
    · rename_i hkey
      cases hchild
      obtain rfl := eq_of_beq hkey
      rw [if_pos hkey, maskMembers, maskMembers]
      exact congrArg (fun v => (key, v) :: maskMembers keysToCensor rest) hmask
    · rename_i hkey
      rw [if_neg (Bool.eq_false_iff.mp hkey), maskMembers, maskMembers, ih hchild]

/-- Writing a node that looks the same behind the mask. -/
theorem mask_assign {c child child' : Config} {key : Key}
    (hchild : c.getOrNull key = some child)
    (hmask : maskChild keysToCensor key child' = maskChild keysToCensor key child)
    (htag : ¬SelectsTag c key) : (c.assign key child').mask keysToCensor = c.mask keysToCensor := by
  have hset {values : List Config} {i : Nat} (hi : values[i]? = some child)
      (hmask : child'.mask keysToCensor = child.mask keysToCensor) :
      maskElements keysToCensor (values.set i child') = maskElements keysToCensor values := by
    obtain ⟨hi, hget⟩ := List.getElem?_eq_some_iff.mp hi
    have hi' : i < (values.map (mask keysToCensor)).length := by rwa [List.length_map]
    have hget' : child'.mask keysToCensor = (values.map (mask keysToCensor))[i] := by
      rw [List.getElem_map, hget, hmask]
    rw [maskElements_eq_map, maskElements_eq_map, List.map_set, hget', List.set_getElem_self]
  cases c with
  | array val | tuple values =>
    cases key with
    | name key => cases hchild
    | index i => rw [assign, mask, mask, hset hchild hmask]
  | object members =>
    cases key with
    | name key => rw [assign, mask, mask, maskMembers_setMember hchild hmask]
    | index i => cases hchild
  | union tag val prototypes =>
    obtain ⟨rfl, rfl⟩ | ⟨rfl, rfl⟩ := getOrNull_union hchild
    · exact absurd ⟨_, _, _, rfl, rfl⟩ htag
    · rw [assign, mask, mask]
      exact congrArg (fun val => Config.union tag val prototypes) hmask
  | _ =>
    rw [getOrNull_leaf rfl] at hchild
    cases hchild

theorem getOrNull_inLimits {c child : Config} {key : Key} (hc : c.InLimits)
    (hchild : c.getOrNull key = some child) : child.InLimits := by
  cases hc with
  | leaf hleaf =>
    rw [getOrNull_leaf hleaf] at hchild
    cases hchild
  | array _ _ hval =>
    cases key with
    | name key => cases hchild
    | index i => exact hval _ (List.mem_of_getElem? hchild)
  | object hmembers =>
    cases key with
    | name key => exact hmembers _ (mem_of_lookup hchild)
    | index i => cases hchild
  | @union tag val prototypes hval =>
    obtain ⟨rfl, rfl⟩ | ⟨rfl, rfl⟩ := getOrNull_union hchild
    · exact .leaf rfl (UInt8.le_iff_toNat_le.mpr (Nat.le_of_lt_succ tag.toNat_lt))
    · exact hval
  | tuple hvalues =>
    cases key with
    | name key => cases hchild
    | index i => exact hvalues _ (List.mem_of_getElem? hchild)

/-- Writing a node within its limits. -/
theorem assign_inLimits {c child' : Config} {key : Key} (hc : c.InLimits)
    (hchild' : child'.InLimits) : (c.assign key child').InLimits := by
  have hset {values : List Config} {i : Nat} (hvalues : ∀ c ∈ values, c.InLimits) :
      ∀ c ∈ values.set i child', c.InLimits := by
    intro c hc
    rcases List.mem_or_eq_of_mem_set hc with hc | rfl
    · exact hvalues c hc
    · exact hchild'
  cases hc with
  | @leaf c hleaf hlimits =>
    have hsame : c.assign key child' = c := by
      cases c with
      | array | object | union | tuple => cases hleaf
      | _ => rfl
    rw [hsame]
    exact .leaf hleaf hlimits
  | @array val prototype minElements maxElements hmax hmin hval =>
    cases key with
    | name key => exact .array hmax hmin hval
    | index i =>
      apply InLimits.array _ _ (hset hval)
      · rwa [List.length_set]
      · rwa [List.length_set]
  | object hmembers =>
    cases key with
    | name key =>
      apply InLimits.object
      intro m hm
      rcases mem_setMember hm with hm | hvalue
      · exact hmembers m hm
      · rw [hvalue]
        exact hchild'
    | index i => exact .object hmembers
  | @union tag val prototypes hval =>
    match key with
    | .name key => exact .union hval
    | .index 0 => cases child' <;> exact .union hval
    | .index 1 => exact .union hchild'
    | .index (i + 2) => exact .union hval
  | tuple hvalues =>
    cases key with
    | name key => exact .tuple hvalues
    | index i => exact .tuple (hset hvalues)

theorem maskChild_congr {child child' : Config} {key : Key}
    (hvisible : Visible keysToCensor child key)
    (hmask : child'.mask keysToCensor = child.mask keysToCensor) :
    maskChild keysToCensor key child' = maskChild keysToCensor key child := by
  cases key with
  | name key =>
    have hcensored : child'.isCensored keysToCensor key = child.isCensored keysToCensor key := by
      rw [← isCensored_mask child' key, hmask, isCensored_mask]
    rw [maskChild, maskChild, maskMember, maskMember, hcensored, hmask]
  | index i => exact hmask

/-- A value set under a censored key can be replaced without a change behind the mask. -/
theorem exists_replaced {c member member' : Config} {path rest : List Key} (hc : c.WellFormed)
    (hlimits : c.InLimits) (h : c.censoredAt keysToCensor path = some (member, rest))
    (hshape : SameShape member member') (hlimits' : member'.InLimits)
    (hset : member'.isEmptyString = false) :
    ∃ c', SameShape c c' ∧ c'.InLimits ∧ c'.mask keysToCensor = c.mask keysToCensor ∧
      c'.walk path = member'.walk rest := by
  induction path generalizing c with
  | nil => cases h
  | cons key path ih =>
    cases hchild : c.getOrNull key with
    | none =>
      rw [censoredAt, hchild] at h
      cases h
    | some child =>
      -- the child is written back, whether it is the censored value or above it
      have hwrite {child' : Config} (hshape : SameShape child child')
          (hlimits' : child'.InLimits)
          (hmask : maskChild keysToCensor key child' = maskChild keysToCensor key child)
          (htag : ¬SelectsTag c key) (hwalk : child'.walk path = member'.walk rest) :
          ∃ c', SameShape c c' ∧ c'.InLimits ∧
            c'.mask keysToCensor = c.mask keysToCensor ∧
            c'.walk (key :: path) = member'.walk rest := by
        refine ⟨c.assign key child', ⟨assign_wellFormed hc hchild hshape htag,
          assign_schema hchild hshape.schema⟩, assign_inLimits hlimits hlimits',
          mask_assign hchild hmask htag, ?_⟩
        rw [walk, getOrNull_assign hchild htag]
        exact hwalk
      have hinner (hvisible : Visible keysToCensor child key) (htag : ¬SelectsTag c key)
          (h : child.censoredAt keysToCensor path = some (member, rest)) :
          ∃ c', SameShape c c' ∧ c'.InLimits ∧
            c'.mask keysToCensor = c.mask keysToCensor ∧
            c'.walk (key :: path) = member'.walk rest := by
        obtain ⟨child', hshape', hlimits'', hmask, hwalk⟩ :=
          ih (getOrNull_wellFormed hc hchild) (getOrNull_inLimits hlimits hchild) h
        exact hwrite hshape' hlimits'' (maskChild_congr hvisible hmask) htag hwalk
      rw [censoredAt, hchild] at h
      cases key with
      | name key =>
        have htag : ¬SelectsTag c (.name key) := by
          rintro ⟨_, _, _, _, hkey⟩
          cases hkey
        dsimp only at h
        split at h
        · rename_i hcensored
          cases h
          have hcensored' : member'.isCensored keysToCensor key = true := by
            rw [isCensored, Bool.and_eq_true] at hcensored ⊢
            exact ⟨hcensored.1, by rw [hset, Bool.not_false]⟩
          apply hwrite hshape hlimits' _ htag rfl
          rw [maskChild, maskChild, maskMember, maskMember, if_pos hcensored', if_pos hcensored]
        · rename_i hcensored
          exact hinner (Bool.eq_false_iff.mpr hcensored) htag h
      | index i =>
        dsimp only at h
        apply hinner trivial _ h
        rintro ⟨tag, val, prototypes, rfl, hkey⟩
        obtain rfl := Key.index.inj hkey
        cases hchild
        cases path with
        | nil => cases h
        | cons key path =>
          rw [censoredAt, getOrNull_leaf rfl] at h
          cases h

/-- The children of two configurations of one schema have one schema: that of the prototype in
arrays and unions. -/
theorem getOrNull_schema {c c' child child' : Config} {key : Key} (hc : c.WellFormed)
    (hc' : c'.WellFormed) (hschema : c'.schema = c.schema)
    (hmask : c'.mask keysToCensor = c.mask keysToCensor) (hchild : c.getOrNull key = some child)
    (hchild' : c'.getOrNull key = some child') : child'.schema = child.schema := by
  cases c with
  | array =>
    cases c' with
    | array =>
      cases key with
      | name key => cases hchild
      | index i =>
        obtain ⟨⟨⟩, -⟩ | ⟨_, _, hval⟩ := hc
        obtain ⟨⟨⟩, -⟩ | ⟨_, _, hval'⟩ := hc'
        rw [hval _ (List.mem_of_getElem? hchild), hval' _ (List.mem_of_getElem? hchild')]
        injection hschema
    | _ => cases hschema
  | object members =>
    cases c' with
    | object members' =>
      cases key with
      | index i => cases hchild
      | name key =>
        have hmembers : memberSchemas members' = memberSchemas members :=
          Schema.object.inj hschema
        have hlookup (members : List (String × Config)) :
            (memberSchemas members).lookup key = (members.lookup key).map schema := by
          induction members with
          | nil => rfl
          | cons m rest ih =>
            rw [memberSchemas, List.lookup_cons, List.lookup_cons, ih]
            split <;> rfl
        have hboth := hlookup members'
        rw [hmembers, hlookup members] at hboth
        change members.lookup key = some child at hchild
        change members'.lookup key = some child' at hchild'
        rw [hchild, hchild'] at hboth
        exact (Option.some.inj hboth).symm
    | _ => cases hschema
  | union tag val prototypes =>
    cases c' with
    | union tag' val' prototypes' =>
      rw [mask, mask] at hmask
      obtain ⟨rfl, -, rfl⟩ := Config.union.inj hmask
      obtain ⟨rfl, rfl⟩ | ⟨rfl, rfl⟩ := getOrNull_union hchild
      · cases hchild'
        rfl
      · cases hchild'
        obtain ⟨⟨⟩, -⟩ | _ | _ | ⟨_, _, htag⟩ := hc
        obtain ⟨⟨⟩, -⟩ | _ | _ | ⟨_, _, htag'⟩ := hc'
        exact Option.some.inj (htag'.symm.trans htag)
    | _ => cases hschema
  | tuple values =>
    cases c' with
    | tuple values' =>
      cases key with
      | name key => cases hchild
      | index i =>
        have hvalues : valueSchemas values' = valueSchemas values :=
          Schema.tuple.inj hschema
        rw [valueSchemas_eq_map, valueSchemas_eq_map] at hvalues
        have hboth := congrArg (fun l => l[i]?) hvalues
        simp only [List.getElem?_map] at hboth
        change values[i]? = some child at hchild
        change values'[i]? = some child' at hchild'
        rw [hchild, hchild'] at hboth
        exact Option.some.inj hboth
    | _ => cases hschema
  | _ =>
    rw [getOrNull_leaf rfl] at hchild
    cases hchild

/-- Two configurations that differ in censored values have values of the same schema there. -/
theorem censoredAt_congr {c c' member : Config} {path rest : List Key} {σ : Schema}
    (hc : c.Conforms σ) (hc' : c'.Conforms σ)
    (hmask : c'.mask keysToCensor = c.mask keysToCensor)
    (h : c.censoredAt keysToCensor path = some (member, rest)) :
    ∃ member', c'.censoredAt keysToCensor path = some (member', rest) ∧
      member'.Conforms member.schema ∧ member'.isEmptyString = false := by
  induction path generalizing c c' σ with
  | nil => cases h
  | cons key path ih =>
    cases hchild : c.getOrNull key with
    | none =>
      rw [censoredAt, hchild] at h
      cases h
    | some child =>
      have hboth := congrArg (fun c => c.getOrNull key) hmask
      simp only [getOrNull_mask] at hboth
      rw [hchild, Option.map_some] at hboth
      obtain ⟨child', hchild', hsame⟩ := Option.map_eq_some_iff.mp hboth
      have hconforms : child'.Conforms child.schema :=
        ⟨getOrNull_schema hc.wellFormed hc'.wellFormed (hc'.schema.trans hc.schema.symm)
          hmask hchild hchild', getOrNull_wellFormed hc'.wellFormed hchild',
          getOrNull_inLimits hc'.inLimits hchild'⟩
      have hvisible : Visible keysToCensor child' key ↔ Visible keysToCensor child key := by
        rw [← visible_maskChild, hsame, visible_maskChild]
      have hinner (hvisible' : Visible keysToCensor child key)
          (h : child.censoredAt keysToCensor path = some (member, rest)) :
          ∃ member', child'.censoredAt keysToCensor path = some (member', rest) ∧
            member'.Conforms member.schema ∧ member'.isEmptyString = false := by
        rw [maskChild_of_visible hvisible', maskChild_of_visible (hvisible.mpr hvisible')] at hsame
        exact ih ⟨rfl, getOrNull_wellFormed hc.wellFormed hchild,
          getOrNull_inLimits hc.inLimits hchild⟩ hconforms hsame h
      rw [censoredAt, hchild] at h
      rw [censoredAt, hchild']
      cases key with
      | name key =>
        dsimp only [Visible] at h hvisible hinner ⊢
        cases hcensored : child.isCensored keysToCensor key with
        | true =>
          rw [hcensored, if_pos rfl] at h
          cases h
          have hcensored' : child'.isCensored keysToCensor key = true := by
            rw [← Bool.not_eq_false, hvisible, hcensored]
            exact Bool.noConfusion
          rw [if_pos hcensored']
          rw [isCensored, Bool.and_eq_true, Bool.not_eq_true'] at hcensored'
          exact ⟨child', rfl, hconforms, hcensored'.2⟩
        | false =>
          rw [hcensored, if_neg Bool.false_ne_true] at h
          rw [hvisible.mpr hcensored, if_neg Bool.false_ne_true]
          exact hinner hcensored h
      | index i => exact hinner trivial h

end Config

end Esp32Firmware.Configuration
