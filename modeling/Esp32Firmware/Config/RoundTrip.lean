import Esp32Firmware.Config.FlaggedUpdate
import Mathlib.Data.List.TakeWhile

/-!
# Restoring a configuration from its JSON document

A document that was written for a configuration restores it, and sets the flags of exactly the
nodes that were different before. Strings are written as C strings: what follows a NUL is lost.
-/

namespace Esp32Firmware.Configuration

open Config

namespace Config

/-- Induction over the nodes of a configuration. -/
theorem induction {P : Config → Prop} (leaf : ∀ c, c.isLeaf = true → P c)
    (array : ∀ val prototype minElements maxElements, (∀ c ∈ val, P c) →
      P (.array val prototype minElements maxElements))
    (object : ∀ members, (∀ m ∈ members, P m.2) → P (.object members))
    (union : ∀ tag val prototypes, P val → P (.union tag val prototypes))
    (tuple : ∀ values, (∀ c ∈ values, P c) → P (.tuple values)) (c : Config) : P c := by
  cases c with
  | array val prototype minElements maxElements =>
    apply array
    intro c hc
    have := List.sizeOf_lt_of_mem hc
    exact induction leaf array object union tuple c
  | object members =>
    apply object
    intro m hm
    have := List.sizeOf_lt_of_mem hm
    exact induction leaf array object union tuple m.2
  | union tag val prototypes =>
    exact union tag val prototypes (induction leaf array object union tuple val)
  | tuple values =>
    apply tuple
    intro c hc
    have := List.sizeOf_lt_of_mem hc
    exact induction leaf array object union tuple c
  | _ => exact leaf _ rfl
termination_by sizeOf c
decreasing_by
  · simp only [Config.array.sizeOf_spec]
    omega
  · obtain ⟨key, value⟩ := m
    simp only [Config.object.sizeOf_spec, Prod.mk.sizeOf_spec] at *
    omega
  · simp only [Config.union.sizeOf_spec]
    omega
  · simp only [Config.tuple.sizeOf_spec]
    omega

/-- Every leaf of the present values has a property. Prototypes do not count. -/
inductive AllLeaves (P : Config → Prop) : Config → Prop
  | leaf {c : Config} (hleaf : c.isLeaf = true) (h : P c) : AllLeaves P c
  | array {val : List Config} {prototype : Config} {minElements maxElements : UInt16}
      (hval : ∀ c ∈ val, AllLeaves P c) :
      AllLeaves P (.array val prototype minElements maxElements)
  | object {members : List (String × Config)} (hmembers : ∀ m ∈ members, AllLeaves P m.2) :
      AllLeaves P (.object members)
  | union {tag : UInt8} {val : Config} {prototypes : List (UInt8 × Config)}
      (hval : AllLeaves P val) : AllLeaves P (.union tag val prototypes)
  | tuple {values : List Config} (hvalues : ∀ c ∈ values, AllLeaves P c) :
      AllLeaves P (.tuple values)

/-- No string contains a NUL. -/
def NulFree : Config → Prop :=
  AllLeaves fun
    | .string val _ _ => '\x00' ∉ val.toList
    | _ => True

/-- A value that a declared configuration can take: the limits, the keys and the prototypes are
those of the declaration, elements are values of their prototype. Prototypes are values of
themselves, and the keys of an object are distinct. -/
inductive IsValue : Config → Config → Prop
  | leaf {d c : Config} (hdeclared : d.isLeaf = true) (hleaf : c.isLeaf = true)
      (hschema : c.schema = d.schema) : IsValue d c
  | array {declared val : List Config} {prototype : Config} {minElements maxElements : UInt16}
      (hprototype : IsValue prototype prototype) (hval : ∀ c ∈ val, IsValue prototype c) :
      IsValue (.array declared prototype minElements maxElements)
        (.array val prototype minElements maxElements)
  | object {declared members : List (String × Config)}
      (hkeys : members.map Prod.fst = declared.map Prod.fst)
      (hdistinct : (declared.map Prod.fst).Nodup)
      (hmembers : ∀ p ∈ declared.zip members, IsValue p.1.2 p.2.2) :
      IsValue (.object declared) (.object members)
  | union {declaredTag tag : UInt8} {declared val prototype : Config}
      {prototypes : List (UInt8 × Config)} (hprototypes : ∀ p ∈ prototypes, IsValue p.2 p.2)
      (htag : prototypes.lookup tag = some prototype) (hval : IsValue prototype val) :
      IsValue (.union declaredTag declared prototypes) (.union tag val prototypes)
  | tuple {declared values : List Config} (hlength : values.length = declared.length)
      (hvalues : ∀ p ∈ declared.zip values, IsValue p.1 p.2) :
      IsValue (.tuple declared) (.tuple values)

mutual

/-- The configuration with its strings as C strings. -/
def cStrings : Config → Config
  | .string val minChars maxChars => .string (cString val) minChars maxChars
  | .array val prototype minElements maxElements =>
    .array (cStringsElements val) prototype minElements maxElements
  | .object members => .object (cStringsMembers members)
  | .union tag val prototypes => .union tag (cStrings val) prototypes
  | .tuple values => .tuple (cStringsElements values)
  | c => c

def cStringsElements : List Config → List Config
  | [] => []
  | value :: rest => cStrings value :: cStringsElements rest

def cStringsMembers : List (String × Config) → List (String × Config)
  | [] => []
  | (key, value) :: rest => (key, cStrings value) :: cStringsMembers rest

end

theorem cStringsElements_eq_map (values : List Config) :
    cStringsElements values = values.map cStrings := by
  induction values with
  | nil => rfl
  | cons value rest ih => rw [cStringsElements, ih, List.map_cons]

theorem cStringsMembers_eq_map (members : List (String × Config)) :
    cStringsMembers members = members.map fun m => (m.1, m.2.cStrings) := by
  induction members with
  | nil => rfl
  | cons m rest ih => rw [cStringsMembers, ih, List.map_cons]

theorem cString_eq_self {s : String} : cString s = s ↔ '\x00' ∉ s.toList := by
  have hwhile : s.toList.takeWhile (· ≠ '\x00') = s.toList ↔ '\x00' ∉ s.toList := by
    rw [List.takeWhile_eq_self_iff]
    constructor
    · intro h hmem
      exact absurd (h _ hmem) (by decide)
    · intro h c hc
      exact decide_eq_true fun heq => h (heq ▸ hc)
  rw [← hwhile, cString]
  constructor
  · intro h
    rw [← String.toList_ofList (l := s.toList.takeWhile _), h]
  · intro h
    rw [h, String.ofList_toList]

theorem map_eq_self {f : α → α} {l : List α} : l.map f = l ↔ ∀ a ∈ l, f a = a := by
  induction l with
  | nil => simp
  | cons a rest ih => rw [List.map_cons, List.cons.injEq, ih, List.forall_mem_cons]

theorem allLeaves_leaf_iff {P : Config → Prop} {c : Config} (hleaf : c.isLeaf = true) :
    AllLeaves P c ↔ P c := by
  constructor
  · intro h
    cases h with
    | leaf _ h => exact h
    | array | object | union | tuple => cases hleaf
  · exact .leaf hleaf

theorem cStrings_eq_self {c : Config} : c.cStrings = c ↔ c.NulFree := by
  induction c using Config.induction with
  | leaf c hleaf =>
    rw [NulFree, allLeaves_leaf_iff hleaf]
    cases c with
    | string val minChars maxChars =>
      rw [cStrings, Config.string.injEq, cString_eq_self]
      exact and_iff_left ⟨rfl, rfl⟩
    | array | object | union | tuple => cases hleaf
    | _ => exact iff_of_true rfl trivial
  | array val prototype minElements maxElements ih =>
    rw [cStrings, Config.array.injEq, cStringsElements_eq_map, map_eq_self]
    constructor
    · exact fun h => .array fun c hc => (ih c hc).mp (h.1 c hc)
    · intro h
      obtain ⟨⟨⟩, -⟩ | hval := h
      exact ⟨fun c hc => (ih c hc).mpr (hval c hc), rfl, rfl, rfl⟩
  | object members ih =>
    rw [cStrings, Config.object.injEq, cStringsMembers_eq_map, map_eq_self]
    constructor
    · exact fun h => .object fun m hm => (ih m hm).mp (Prod.ext_iff.mp (h m hm)).2
    · intro h
      obtain ⟨⟨⟩, -⟩ | _ | hmembers := h
      exact fun m hm => Prod.ext rfl ((ih m hm).mpr (hmembers m hm))
  | union tag val prototypes ih =>
    rw [cStrings, Config.union.injEq]
    constructor
    · exact fun h => .union (ih.mp h.2.1)
    · intro h
      obtain ⟨⟨⟩, -⟩ | _ | _ | hval := h
      exact ⟨rfl, ih.mpr hval, rfl⟩
  | tuple values ih =>
    rw [cStrings, Config.tuple.injEq, cStringsElements_eq_map, map_eq_self]
    constructor
    · exact fun h => .tuple fun c hc => (ih c hc).mp (h c hc)
    · intro h
      obtain ⟨⟨⟩, -⟩ | _ | _ | _ | hvalues := h
      exact fun c hc => (ih c hc).mpr (hvalues c hc)

end Config

def Json.isNumber : Json → Bool
  | .int _ | .float _ => true
  | _ => false

/-- The JSON library reproduces the float. It is no NaN, which is written as null, and not the
negative zero, which is written as zero. -/
def Reproduced (asFloat : Json → UInt32) (floatJson : UInt32 → Json) : Config → Prop
  | .float val =>
    (floatJson val).isNumber = true ∧ asFloat (floatJson val) = val ∧ isNaN val = false ∧
      val ≠ 0x80000000
  | _ => True

variable {asFloat : Json → UInt32} {floatJson : UInt32 → Json}
  {forceSameKeys permitNullUpdates : Bool}

theorem fromInteger_eq {value lo hi : Int} {message : String} {set : Int → Config}
    (h : lo ≤ value ∧ value ≤ hi) :
    fromInteger (.int value) lo hi message set = .ok (set value) := by
  rw [fromInteger, Json.asInteger, if_pos h]

theorem uint8_ofInt_toNat (val : UInt8) : UInt8.ofInt val.toNat = val := by
  apply UInt8.toNat.inj
  have hlt := val.toNat_lt
  rw [UInt8.ofInt, UInt8.toNat_ofNat']
  omega

theorem uint16_ofInt_toNat (val : UInt16) : UInt16.ofInt val.toNat = val := by
  apply UInt16.toNat.inj
  have hlt := val.toNat_lt
  rw [UInt16.ofInt, UInt16.toNat_ofNat']
  omega

theorem uint32_ofInt_toNat (val : UInt32) : UInt32.ofInt val.toNat = val := by
  apply UInt32.toNat.inj
  have hlt := val.toNat_lt
  rw [UInt32.ofInt, UInt32.toNat_ofNat']
  omega

theorem uint64_ofInt_toNat (val : UInt64) : UInt64.ofInt val.toNat = val := by
  apply UInt64.toNat.inj
  have hlt := val.toNat_lt
  rw [UInt64.ofInt, UInt64.toNat_ofNat']
  omega

theorem fromJson_leaf {v w : Config} (hleaf : v.isLeaf = true) (hschema : w.schema = v.schema)
    (hfloat : Reproduced asFloat floatJson v) :
    fromJson asFloat forceSameKeys permitNullUpdates (v.toJson floatJson []) w =
      .ok v.cStrings := by
  cases v with
  | empty | string | bool =>
    cases w <;> cases hschema
    rfl
  | float val =>
    cases w <;> cases hschema
    obtain ⟨hnumber, hvalue, -⟩ := hfloat
    rw [toJson]
    cases hjson : floatJson val with
    | int value | float bits =>
      rw [hjson] at hvalue
      exact congrArg (fun bits => Except.ok (Config.float bits)) hvalue
    | _ =>
      rw [hjson] at hnumber
      cases hnumber
  | int val | int52 val | int32 val | int16 val | int8 val =>
    cases w <;> cases hschema
    have hrange := And.intro val.le_toInt val.toInt_lt
    refine (fromInteger_eq (by omega)).trans ?_
    simp only [Int8.ofInt_toInt, Int16.ofInt_toInt, Int32.ofInt_toInt, Int64.ofInt_toInt]
    rfl
  | uint val | uint53 val | uint32 val | uint16 val | uint8 val =>
    cases w <;> cases hschema
    have hrange := val.toNat_lt
    refine (fromInteger_eq (by omega)).trans ?_
    simp only [uint8_ofInt_toNat, uint16_ofInt_toNat, uint32_ofInt_toNat, uint64_ofInt_toNat]
    rfl
  | array | object | union | tuple => cases hleaf

theorem updateElements_toJson {values ws : List Config} (hlength : values.length = ws.length)
    (h : ∀ p ∈ values.zip ws, fromJson asFloat forceSameKeys permitNullUpdates
      (p.1.toJson floatJson []) p.2 = .ok p.1.cStrings) (i : Nat) :
    updateElements i (fromJsonElements asFloat forceSameKeys permitNullUpdates
      (toJsonElements floatJson [] values)) ws = .ok (cStringsElements values) := by
  induction values generalizing ws i with
  | nil => rfl
  | cons value rest ih =>
    cases ws with
    | nil => cases hlength
    | cons w ws =>
      rw [List.zip_cons_cons, List.forall_mem_cons] at h
      rw [toJsonElements, fromJsonElements, updateElements, h.1, ih (Nat.succ.inj hlength) h.2]
      rfl

section

variable {members ws : List (String × Config)} (hkeys : ws.map Prod.fst = members.map Prod.fst)
  (h : ∀ p ∈ members.zip ws, fromJson asFloat forceSameKeys permitNullUpdates (p.1.2.toJson floatJson []) p.2.2 = .ok p.1.2.cStrings)
include hkeys h

theorem updateMembers_toJson (errors : MemberErrors) :
    updateMembers forceSameKeys permitNullUpdates (fromJsonMembers asFloat forceSameKeys
      permitNullUpdates (toJsonMembers floatJson [] members)) ws errors =
      (cStringsMembers members, [], errors) := by
  induction members generalizing ws with
  | nil =>
    obtain rfl := List.map_eq_nil_iff.mp hkeys
    rfl
  | cons m rest ih =>
    cases ws with
    | nil => cases hkeys
    | cons w ws =>
      obtain ⟨key, value⟩ := m
      obtain ⟨key', w⟩ := w
      obtain ⟨rfl, hrest⟩ := List.cons.inj hkeys
      rw [List.zip_cons_cons, List.forall_mem_cons] at h
      have ih := ih hrest h.2
      have hnone : Config.isCensored [] key' value = false := rfl
      rw [toJsonMembers, hnone, if_neg Bool.false_ne_true, fromJsonMembers, updateMembers,
        List.lookup_cons, beq_self_eq_true]
      dsimp only
      rw [updateMember, h.1, removeMember, List.eraseP_cons, beq_self_eq_true, cond_true, ih]
      rfl

theorem updateObject_toJson :
    updateObject forceSameKeys permitNullUpdates (fromJsonMembers asFloat forceSameKeys
      permitNullUpdates (toJsonMembers floatJson [] members)) ws =
      .ok (cStringsMembers members) := by
  rw [updateObject, updateMembers_toJson hkeys h]
  dsimp only
  cases forceSameKeys <;> rfl

end

theorem toJsonElements_length (values : List Config) :
    (toJsonElements floatJson [] values).length = values.length := by
  induction values with
  | nil => rfl
  | cons value rest ih => rw [toJsonElements, List.length_cons, ih, List.length_cons]

theorem forall_zip {R : α → β → Prop} {S : α → γ → Prop} {ds : List α} {vs : List β}
    {ws : List γ} (hlength : vs.length = ds.length) (hR : ∀ p ∈ ds.zip vs, R p.1 p.2)
    (hS : ∀ p ∈ ds.zip ws, S p.1 p.2) : ∀ p ∈ vs.zip ws, ∃ d, R d p.1 ∧ S d p.2 := by
  induction ds generalizing vs ws with
  | nil =>
    obtain rfl := List.length_eq_zero_iff.mp hlength
    simp
  | cons d ds ih =>
    cases vs with
    | nil => cases hlength
    | cons v vs =>
      cases ws with
      | nil => simp
      | cons w ws =>
        rw [List.zip_cons_cons, List.forall_mem_cons] at hR hS ⊢
        exact ⟨⟨d, hR.1, hS.1⟩, ih (Nat.succ.inj hlength) hR.2 hS.2⟩

/-- A document restores its configuration in place of any other value. -/
theorem fromJson_toJson {v : Config} (hfloats : AllLeaves (Reproduced asFloat floatJson) v)
    {d w : Config} (hv : IsValue d v) (hw : IsValue d w) :
    fromJson asFloat forceSameKeys permitNullUpdates (v.toJson floatJson []) w =
      .ok v.cStrings := by
  induction v using Config.induction generalizing d w with
  | leaf v hleaf =>
    apply fromJson_leaf hleaf _ ((allLeaves_leaf_iff hleaf).mp hfloats)
    cases hv with
    | leaf hdeclared _ hschema =>
      cases hw with
      | leaf _ _ hschema' => exact hschema'.trans hschema.symm
      | array | object | union | tuple => cases hdeclared
    | array | object | union | tuple => cases hleaf
  | array val prototype minElements maxElements ih =>
    obtain ⟨⟨⟩, -⟩ | hfloats := hfloats
    obtain ⟨-, ⟨⟩, -⟩ | ⟨hprototype, hval⟩ := hv
    cases hw with
    | leaf hleaf => cases hleaf
    | @array _ ws _ _ _ _ hws =>
      rw [toJson, fromJson]
      dsimp only
      rw [updateArray, updateElements_toJson]
      · rfl
      · rw [fromJsonElements_length, toJsonElements_length, List.length_append,
          List.length_take, List.length_replicate]
        omega
      · intro p hp
        obtain ⟨hleft, hright⟩ := List.of_mem_zip hp
        apply ih p.1 hleft (hfloats _ hleft) (hval _ hleft)
        rcases mem_resized hright with hmem | heq
        · exact hws _ hmem
        · rw [heq]
          exact hprototype
  | object members ih =>
    obtain ⟨⟨⟩, -⟩ | _ | hfloats := hfloats
    cases hv with
    | leaf _ hleaf => cases hleaf
    | @object declared _ hkeys _ hmembers =>
      cases hw with
      | leaf hleaf => cases hleaf
      | @object _ ws hkeys' _ hws =>
        rw [toJson, fromJson]
        dsimp only
        rw [updateObject_toJson (hkeys'.trans hkeys.symm)]
        · rfl
        · intro p hp
          have hlength : members.length = declared.length := by
            rw [← List.length_map Prod.fst, hkeys, List.length_map]
          obtain ⟨d, hd, hd'⟩ := forall_zip
            (R := fun d v => IsValue d.2 v.2) (S := fun d v => IsValue d.2 v.2)
            hlength hmembers hws p hp
          have hleft := (List.of_mem_zip hp).1
          exact ih p.1 hleft (hfloats _ hleft) hd hd'
  | union tag val prototypes ih =>
    obtain ⟨⟨⟩, -⟩ | _ | _ | hfloats := hfloats
    cases hv with
    | leaf _ hleaf => cases hleaf
    | @union _ _ _ _ prototype _ hprototypes htag hval =>
      cases hw with
      | leaf hleaf => cases hleaf
      | @union _ tag' _ w _ _ _ htag' hw =>
        rw [toJson, fromJson, fromJsonElements, fromJsonElements, fromJsonElements]
        dsimp only
        have hnew : newTag permitNullUpdates tag' (.int tag.toNat) = .ok tag := by
          have hrange := tag.toNat_lt
          rw [newTag, Json.asInteger, if_pos (by omega)]
          · exact congrArg Except.ok (uint8_ofInt_toNat tag)
          · exact fun hnull => by cases hnull
        rw [updateUnion, hnew]
        change ((if tag ≠ tag' then _ else _ : Except String Config) >>= _) = _
        by_cases hsame : tag = tag'
        · subst hsame
          rw [htag'] at htag
          cases htag
          rw [if_neg (not_not.mpr rfl)]
          change (fromJson _ _ _ _ w >>= _) = _
          rw [ih hfloats hval hw]
          rfl
        · rw [if_pos hsame, changeUnionVariant, htag]
          change (fromJson _ _ _ _ prototype >>= _) = _
          rw [ih hfloats hval (hprototypes _ (mem_of_lookup htag))]
          rfl
  | tuple values ih =>
    obtain ⟨⟨⟩, -⟩ | _ | _ | _ | hfloats := hfloats
    cases hv with
    | leaf _ hleaf => cases hleaf
    | @tuple declared _ hlength hvalues =>
      cases hw with
      | leaf hleaf => cases hleaf
      | @tuple _ ws hlength' hws =>
        rw [toJson, fromJson]
        dsimp only
        rw [toJsonElements_length, if_pos (hlength.trans hlength'.symm),
          updateElements_toJson (hlength.trans hlength'.symm)]
        · rfl
        · intro p hp
          obtain ⟨d, hd, hd'⟩ := forall_zip hlength hvalues hws p hp
          have hleft := (List.of_mem_zip hp).1
          exact ih p.1 hleft (hfloats _ hleft) hd hd'

end Esp32Firmware.Configuration
