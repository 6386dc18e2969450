import Esp32Firmware.Config.RoundTrip

/-!
# Change detection when a configuration is restored

The flags of a node are set exactly if its value was different before. New elements of an array
and the value under a new tag are new nodes, which come with all flags set.
-/

namespace Esp32Firmware.Configuration

open Config

namespace Flagged

/-- All flags of all nodes are set. -/
inductive AllUpdated : Flagged → Prop
  | leaf {value : Leaf} : AllUpdated (.leaf 0xFF value)
  | array {val : List Flagged} {prototype : Config} {minElements maxElements : UInt16}
      (hval : ∀ f ∈ val, AllUpdated f) :
      AllUpdated (.array 0xFF val prototype minElements maxElements)
  | object {members : List (String × Flagged)} (hmembers : ∀ m ∈ members, AllUpdated m.2) :
      AllUpdated (.object 0xFF members)
  | union {tag : UInt8} {val : Flagged} {prototypes : List (UInt8 × Config)}
      (hval : AllUpdated val) : AllUpdated (.union 0xFF 0xFF tag val prototypes)
  | tuple {values : List Flagged} (hvalues : ∀ f ∈ values, AllUpdated f) :
      AllUpdated (.tuple 0xFF values)

theorem freshElements_eq_map (values : List Config) : freshElements values = values.map fresh := by
  induction values with
  | nil => rfl
  | cons value rest ih => rw [freshElements, ih, List.map_cons]

theorem freshMembers_eq_map (members : List (String × Config)) :
    freshMembers members = members.map fun m => (m.1, fresh m.2) := by
  induction members with
  | nil => rfl
  | cons m rest ih => rw [freshMembers, ih, List.map_cons]

theorem fresh_allUpdated (c : Config) : (fresh c).AllUpdated := by
  induction c using Config.induction with
  | leaf c hleaf =>
    rw [config_fresh_leaf hleaf]
    exact .leaf
  | array val prototype minElements maxElements ih =>
    rw [fresh, freshElements_eq_map]
    apply AllUpdated.array
    intro f hf
    obtain ⟨c, hc, rfl⟩ := List.mem_map.mp hf
    exact ih c hc
  | object members ih =>
    rw [fresh, freshMembers_eq_map]
    apply AllUpdated.object
    intro m hm
    obtain ⟨c, hc, rfl⟩ := List.mem_map.mp hm
    exact ih c hc
  | union tag val prototypes ih =>
    exact .union ih
  | tuple values ih =>
    rw [fresh, freshElements_eq_map]
    apply AllUpdated.tuple
    intro f hf
    obtain ⟨c, hc, rfl⟩ := List.mem_map.mp hf
    exact ih c hc

theorem AllUpdated.updated {f : Flagged} (h : f.AllUpdated) : f.updated = 0xFF := by
  cases h <;> rfl

theorem AllUpdated.setUpdated {f : Flagged} (h : f.AllUpdated) (flags : UInt8) :
    (f.setUpdated flags).AllUpdated := by
  have hflags : (0xFF : UInt8) ||| flags = 0xFF := UInt8.neg_one_or
  rw [Flagged.setUpdated, h.updated, hflags]
  cases h with
  | leaf => exact .leaf
  | array hval => exact .array hval
  | object hmembers => exact .object hmembers
  | union hval => exact .union hval
  | tuple hvalues => exact .tuple hvalues

/-- A visitor does not take back flags of new nodes. -/
def KeepsUpdated (mark : FlagVisit) : Prop :=
  ∀ ⦃f : Flagged⦄, f.AllUpdated → (mark f).1.AllUpdated

theorem KeepsUpdated.markChild {mark : FlagVisit} (h : KeepsUpdated mark) {f : Flagged}
    (hf : f.AllUpdated) : (markChild (mark f)).AllUpdated :=
  (h hf).setUpdated _

section

variable {marks : List FlagVisit} (h : ∀ mark ∈ marks, KeepsUpdated mark)
include h

theorem markElements_keepsUpdated {values : List Flagged} (hvalues : ∀ f ∈ values, AllUpdated f) :
    ∀ f ∈ (markElements marks values).1, AllUpdated f := by
  induction marks generalizing values with
  | nil =>
    intro f hf
    cases values <;> cases hf
  | cons mark marks ih =>
    cases values with
    | nil =>
      intro f hf
      cases hf
    | cons value rest =>
      rw [List.forall_mem_cons] at h hvalues
      rw [markElements, List.forall_mem_cons]
      exact ⟨h.1.markChild hvalues.1, ih h.2 hvalues.2⟩

theorem markArray_keepsUpdated
    {val : List Flagged} (hval : ∀ f ∈ val, AllUpdated f) (prototype : Config) :
    ∀ f ∈ (markArray marks val prototype).1, AllUpdated f := by
  apply markElements_keepsUpdated h
  intro f hf
  rcases List.mem_append.mp hf with hf | hf
  · exact hval f (List.mem_of_mem_take hf)
  · rw [List.eq_of_mem_replicate hf]
    exact fresh_allUpdated prototype

end

theorem markMembers_keepsUpdated {marks : List (String × FlagVisit)}
    (h : ∀ m ∈ marks, KeepsUpdated m.2) {members : List (String × Flagged)}
    (hmembers : ∀ m ∈ members, AllUpdated m.2) :
    ∀ m ∈ (markMembers marks members).1, AllUpdated m.2 := by
  induction members generalizing marks with
  | nil =>
    intro m hm
    cases hm
  | cons m rest ih =>
    obtain ⟨key, value⟩ := m
    rw [List.forall_mem_cons] at hmembers
    rw [markMembers.eq_def]
    dsimp only
    cases hmark : marks.lookup key with
    | none =>
      rw [List.forall_mem_cons]
      exact ⟨hmembers.1, ih h hmembers.2⟩
    | some mark =>
      rw [List.forall_mem_cons]
      refine ⟨(h _ (mem_of_lookup hmark)).markChild hmembers.1, ih ?_ hmembers.2⟩
      exact fun m hm => h m (List.mem_of_mem_eraseP hm)

variable {asFloat : Json → UInt32} {floatJson : UInt32 → Json}
  {forceSameKeys permitNullUpdates : Bool}

theorem markLeaf_keepsUpdated (node : Json) (value : Leaf) :
    (markLeaf asFloat node 0xFF value).1.AllUpdated := by
  rw [markLeaf]
  split <;> exact .leaf

theorem markUnion_keepsUpdated {first : Json} {mark : FlagVisit} (h : KeepsUpdated mark)
    {tag : UInt8} {val : Flagged} (hval : val.AllUpdated) {prototypes : List (UInt8 × Config)} :
    (markUnion permitNullUpdates first mark 0xFF 0xFF tag val prototypes).1.AllUpdated := by
  rw [markUnion]
  split
  · exact .union hval
  · rename_i tag' htag'
    rw [variant]
    by_cases hsame : tag' = tag
    · rw [if_pos hsame]
      exact .union (h.markChild hval)
    · rw [if_neg hsame]
      cases prototypes.lookup tag' with
      | none => exact .union hval
      | some config => exact .union (h.markChild (fresh_allUpdated config))

theorem markScalar_keepsUpdated (node : Json) : KeepsUpdated (markScalar asFloat node) := by
  intro f hf
  cases hf with
  | leaf => exact markLeaf_keepsUpdated node _
  | array hval => exact .array hval
  | object hmembers => exact .object hmembers
  | union hval => exact .union hval
  | tuple hvalues => exact .tuple hvalues

mutual

theorem markJson_keepsUpdated : (node : Json) →
    KeepsUpdated (markJson asFloat permitNullUpdates node)
  | .null => fun f hf => hf
  | .array nodes => fun f hf => by
    have hmarks := markJsonElements_keepsUpdated nodes
    rw [markJson]
    cases hf with
    | leaf => exact markLeaf_keepsUpdated _ _
    | array hval => exact .array (markArray_keepsUpdated hmarks hval _)
    | object hmembers => exact .object hmembers
    | union hval =>
      dsimp only
      split
      · rename_i mark hvisits
        exact markUnion_keepsUpdated (hmarks mark (hvisits ▸ by simp)) hval
      · exact .union hval
    | tuple hvalues =>
      dsimp only
      split
      · exact .tuple (markElements_keepsUpdated hmarks hvalues)
      · exact .tuple hvalues
  | .object nodes => fun f hf => by
    have hmarks := markJsonMembers_keepsUpdated nodes
    rw [markJson]
    cases hf with
    | leaf => exact markLeaf_keepsUpdated _ _
    | array hval => exact .array hval
    | object hmembers => exact .object (markMembers_keepsUpdated hmarks hmembers)
    | union hval => exact .union hval
    | tuple hvalues => exact .tuple hvalues
  | .bool value => markScalar_keepsUpdated (.bool value)
  | .int value => markScalar_keepsUpdated (.int value)
  | .float bits => markScalar_keepsUpdated (.float bits)
  | .string value => markScalar_keepsUpdated (.string value)

theorem markJsonElements_keepsUpdated : (nodes : List Json) →
    ∀ mark ∈ markJsonElements asFloat permitNullUpdates nodes, KeepsUpdated mark
  | [] => fun mark hmark => by cases hmark
  | node :: rest => by
    rw [markJsonElements, List.forall_mem_cons]
    exact ⟨markJson_keepsUpdated node, markJsonElements_keepsUpdated rest⟩

theorem markJsonMembers_keepsUpdated : (nodes : List (String × Json)) →
    ∀ m ∈ markJsonMembers asFloat permitNullUpdates nodes, KeepsUpdated m.2
  | [] => fun m hm => by cases hm
  | (key, node) :: rest => by
    rw [markJsonMembers, List.forall_mem_cons]
    exact ⟨markJson_keepsUpdated node, markJsonMembers_keepsUpdated rest⟩

end

/-- The value under a tag is the same node only as long as the tag is the same. -/
def SameVariant : Flagged → Flagged → Key → Prop
  | .union _ _ tag _ _, .union _ _ tag' _ _, .index 1 => tag' = tag
  | _, _, _ => True

/-- A node has all flags set if its value is another one, else it keeps its flags. -/
structure FlagsAfter (before after : Flagged) : Prop where
  kept : after.config = before.config → after.updated = before.updated
  set : after.config ≠ before.config → after.updated = 0xFF

/-- Below a node, exactly the flags of the nodes whose value changed are set, and those of the
nodes that are new. -/
inductive ExactlyMarked : Flagged → Flagged → Prop
  | intro {before after : Flagged}
      (hflags : ∀ key child child', SameVariant before after key →
        before.getOrNull key = some child → after.getOrNull key = some child' →
        FlagsAfter child child')
      (hbelow : ∀ key child child', SameVariant before after key →
        before.getOrNull key = some child → after.getOrNull key = some child' →
        ExactlyMarked child child')
      (hnew : ∀ key child', (SameVariant before after key → before.getOrNull key = none) →
        after.getOrNull key = some child' → AllUpdated child') : ExactlyMarked before after

/-- What a visitor does that restores a value. -/
structure Restores (v : Config) (mark : FlagVisit) (f : Flagged) : Prop where
  config : (mark f).1.config = v.cStrings
  updated : (mark f).1.updated = f.updated
  changed : (mark f).2 = true ↔ f.config ≠ v.cStrings
  marked : ExactlyMarked f (mark f).1
  again : f.config = v.cStrings → mark f = (f, false)

theorem ExactlyMarked.setUpdated {before after : Flagged} (h : ExactlyMarked before after)
    (flags : UInt8) : ExactlyMarked before (after.setUpdated flags) := by
  have hvariant (key : Key) :
      SameVariant before (after.setUpdated flags) key ↔ SameVariant before after key := by
    match key with
    | .name _ => cases before <;> cases after <;> exact Iff.rfl
    | .index 0 => cases before <;> cases after <;> exact Iff.rfl
    | .index 1 => cases before <;> cases after <;> exact Iff.rfl
    | .index (_ + 2) => cases before <;> cases after <;> exact Iff.rfl
  cases h with
  | intro hflags hbelow hnew =>
    constructor
    · intro key child child' hsame hchild hchild'
      rw [getOrNull_setUpdated] at hchild'
      exact hflags key child child' ((hvariant key).mp hsame) hchild hchild'
    · intro key child child' hsame hchild hchild'
      rw [getOrNull_setUpdated] at hchild'
      exact hbelow key child child' ((hvariant key).mp hsame) hchild hchild'
    · intro key child' hnone hchild'
      rw [getOrNull_setUpdated] at hchild'
      exact hnew key child' (fun hsame => hnone ((hvariant key).mpr hsame)) hchild'

section

variable {v : Config} {mark : FlagVisit} {f : Flagged} (h : Restores v mark f)
include h

theorem Restores.flagsAfter : FlagsAfter f (markChild (mark f)) := by
  have hflags : (markChild (mark f)).updated = f.updated ||| changedFlags (mark f).2 := by
    rw [markChild, updated_setUpdated, h.updated]
  constructor
  · intro hsame
    rw [config_markChild, h.config] at hsame
    have hunchanged : (mark f).2 = false := by
      rw [← Bool.not_eq_true, h.changed, not_ne_iff]
      exact hsame.symm
    rw [hflags, hunchanged]
    exact UInt8.or_zero
  · intro hdiffers
    rw [config_markChild, h.config] at hdiffers
    rw [hflags, h.changed.mpr hdiffers.symm]
    exact UInt8.or_neg_one

theorem Restores.below : ExactlyMarked f (markChild (mark f)) :=
  h.marked.setUpdated _

end

theorem markChild_unchanged (f : Flagged) : markChild (f, false) = f := by
  have hzero : f.updated ||| changedFlags false = f.updated := UInt8.or_zero
  rw [markChild, setUpdated, hzero]
  cases f <;> rfl

theorem markElements_getElem? {marks : List FlagVisit} {values : List Flagged} {i : Nat}
    {child : Flagged} (h : (markElements marks values).1[i]? = some child) :
    ∃ mark f, marks[i]? = some mark ∧ values[i]? = some f ∧ child = markChild (mark f) := by
  induction marks generalizing values i with
  | nil =>
    rw [markElements.eq_def] at h
    cases values <;> simp at h
  | cons mark marks ih =>
    cases values with
    | nil =>
      rw [markElements.eq_def] at h
      simp at h
    | cons value rest =>
      cases i with
      | zero =>
        cases h
        exact ⟨mark, value, rfl, rfl, rfl⟩
      | succ i => exact ih h

theorem markElements_changed {values : List Config} {marks : List FlagVisit}
    {fs : List Flagged} (hmarks : marks.length = values.length) (hfs : fs.length = values.length)
    (h : ∀ (i : Nat) (v : Config) (mark : FlagVisit) (f : Flagged), values[i]? = some v →
      marks[i]? = some mark → fs[i]? = some f → Restores v mark f) :
    ((markElements marks fs).2 = true ↔ fs.map config ≠ values.map cStrings) ∧
      (fs.map config = values.map cStrings → markElements marks fs = (fs, false)) := by
  induction values generalizing marks fs with
  | nil =>
    obtain rfl := List.length_eq_zero_iff.mp hfs
    simp [markElements]
  | cons value rest ih =>
    obtain ⟨mark, marks, rfl⟩ := List.exists_cons_of_length_eq_add_one hmarks
    obtain ⟨f, fs, rfl⟩ := List.exists_cons_of_length_eq_add_one hfs
    have hfirst : Restores value mark f := h 0 value mark f rfl rfl rfl
    obtain ⟨hchanged, hagain⟩ := ih (Nat.succ.inj hmarks) (Nat.succ.inj hfs)
      fun i v mark f hv hmark hf => h (i + 1) v mark f hv hmark hf
    rw [markElements, List.map_cons, List.map_cons]
    constructor
    · dsimp only
      rw [Bool.or_eq_true, hfirst.changed, hchanged, Ne, Ne, Ne, List.cons.injEq, not_and_or]
    · intro hsame
      obtain ⟨hvalue, hrest⟩ := List.cons.inj hsame
      rw [hfirst.again hvalue, hagain hrest, markChild_unchanged]
      rfl

theorem markMembers_cons (key : String) (mark : FlagVisit) (marks : List (String × FlagVisit))
    (value : Flagged) (rest : List (String × Flagged)) :
    markMembers ((key, mark) :: marks) ((key, value) :: rest) =
      ((key, markChild (mark value)) :: (markMembers marks rest).1,
        (mark value).2 || (markMembers marks rest).2) := by
  rw [markMembers.eq_def]
  simp

theorem markJsonMembers_toJson (key : String) (value : Config) (rest : List (String × Config)) :
    markJsonMembers asFloat permitNullUpdates (toJsonMembers floatJson [] ((key, value) :: rest)) =
      (key, markJson asFloat permitNullUpdates (value.toJson floatJson [])) ::
        markJsonMembers asFloat permitNullUpdates (toJsonMembers floatJson [] rest) :=
  rfl

theorem markMembers_restores {members : List (String × Config)} {fs : List (String × Flagged)}
    (hkeys : fs.map Prod.fst = members.map Prod.fst)
    (h : ∀ p ∈ members.zip fs,
      Restores p.1.2 (markJson asFloat permitNullUpdates (p.1.2.toJson floatJson [])) p.2.2) :
    let marks := markJsonMembers asFloat permitNullUpdates (toJsonMembers floatJson [] members)
    ((markMembers marks fs).2 = true ↔ configMembers fs ≠ cStringsMembers members) ∧
      (configMembers fs = cStringsMembers members → markMembers marks fs = (fs, false)) ∧
      ∀ key child', (markMembers marks fs).1.lookup key = some child' →
        ∃ v mark child, fs.lookup key = some child ∧ Restores v mark child ∧
          child' = markChild (mark child) := by
  induction members generalizing fs with
  | nil =>
    obtain rfl := List.map_eq_nil_iff.mp hkeys
    simp [markMembers, configMembers, cStringsMembers]
  | cons m rest ih =>
    cases fs with
    | nil => cases hkeys
    | cons f fs =>
      obtain ⟨key, value⟩ := m
      obtain ⟨key', f⟩ := f
      obtain ⟨heq, hrest⟩ := List.cons.inj hkeys
      obtain rfl : key' = key := heq
      rw [List.zip_cons_cons, List.forall_mem_cons] at h
      obtain ⟨hchanged, hagain, hlookup⟩ := ih hrest h.2
      rw [markJsonMembers_toJson]
      dsimp only
      rw [markMembers_cons, configMembers, cStringsMembers]
      refine ⟨?_, ?_, ?_⟩
      · rw [Bool.or_eq_true, h.1.changed, hchanged, Ne, Ne, Ne, List.cons.injEq,
          Prod.mk.injEq, not_and_or]
        simp only [true_and]
      · intro hsame
        obtain ⟨hvalue, hrest⟩ := List.cons.inj hsame
        rw [h.1.again (Prod.ext_iff.mp hvalue).2, hagain hrest, markChild_unchanged]
        rfl
      · intro key child' hchild'
        rw [List.lookup_cons] at hchild' ⊢
        split at hchild'
        · cases hchild'
          exact ⟨value, _, f, rfl, h.1, rfl⟩
        · exact hlookup key child' hchild'

theorem markJsonElements_eq_map (values : List Config) :
    markJsonElements asFloat permitNullUpdates (toJsonElements floatJson [] values) =
      values.map fun v => markJson asFloat permitNullUpdates (v.toJson floatJson []) := by
  induction values with
  | nil => rfl
  | cons value rest ih => rw [toJsonElements, markJsonElements, ih, List.map_cons]

theorem ExactlyMarked.leaf {updated updated' : UInt8} {value value' : Leaf} :
    ExactlyMarked (.leaf updated value) (.leaf updated' value') := by
  constructor
  · intro key child child' _ hchild
    cases hchild
  · intro key child child' _ hchild
    cases hchild
  · intro key child' _ hchild'
    cases hchild'

theorem shiftLeft_one_eq_zero {a : UInt32} (h : a <<< 1 = 0) : a = 0 ∨ a = 0x80000000 := by
  have hlt := a.toNat_lt
  have hnat := congrArg UInt32.toNat h
  have hone : (1 : UInt32).toNat % 32 = 1 := rfl
  have hzero : (0 : UInt32).toNat = 0 := rfl
  rw [UInt32.toNat_shiftLeft, hone, Nat.shiftLeft_eq, hzero] at hnat
  have hcases : a.toNat = 0 ∨ a.toNat = 2 ^ 31 := by omega
  exact hcases.imp (fun h => UInt32.toNat.inj h) fun h => UInt32.toNat.inj h

/-- Floats that JSON reproduces are equal as numbers only if they are the same. -/
theorem isExactlyEqual_iff {a b : UInt32} (ha : Reproduced asFloat floatJson (.float a))
    (hb : Reproduced asFloat floatJson (.float b)) : isExactlyEqual a b = true ↔ a = b := by
  obtain ⟨-, -, hnan, hzero⟩ := ha
  obtain ⟨-, -, hnan', hzero'⟩ := hb
  rw [isExactlyEqual, hnan, hnan', Bool.not_false, Bool.true_and, Bool.true_and, Bool.or_eq_true,
    Bool.and_eq_true, beq_iff_eq, beq_iff_eq, beq_iff_eq]
  constructor
  · rintro (hsame | ⟨h, h'⟩)
    · exact hsame
    · rw [(shiftLeft_one_eq_zero h).resolve_right hzero,
        (shiftLeft_one_eq_zero h').resolve_right hzero']
  · exact Or.inl

/-- A leaf is compared with a leaf of the same schema. -/
theorem leafChanged_iff {c c' : Config} (hleaf : c.isLeaf = true) (hschema : c.schema = c'.schema)
    (h : Reproduced asFloat floatJson c) (h' : Reproduced asFloat floatJson c') :
    leafChanged c c' = true ↔ c ≠ c' := by
  cases c with
  | float val =>
    cases c' <;> cases hschema
    rw [leafChanged, Bool.not_eq_true', ← Bool.not_eq_true, isExactlyEqual_iff h h', Ne,
      Config.float.injEq]
  | array | object | union | tuple => cases hleaf
  | _ =>
    cases c' <;> cases hschema
    all_goals simp [leafChanged]

theorem ExactlyMarked.of_children {before after : Flagged}
    (h : ∀ key child', after.getOrNull key = some child' →
      (SameVariant before after key ∧ ∃ child, before.getOrNull key = some child ∧
        FlagsAfter child child' ∧ ExactlyMarked child child') ∨
      (SameVariant before after key → before.getOrNull key = none) ∧ AllUpdated child') :
    ExactlyMarked before after := by
  constructor
  · intro key child child' hsame hchild hchild'
    rcases h key child' hchild' with ⟨-, c, hc, hflags, -⟩ | ⟨hnone, -⟩
    · rw [hchild] at hc
      cases hc
      exact hflags
    · rw [hnone hsame] at hchild
      cases hchild
  · intro key child child' hsame hchild hchild'
    rcases h key child' hchild' with ⟨-, c, hc, -, hbelow⟩ | ⟨hnone, -⟩
    · rw [hchild] at hc
      cases hc
      exact hbelow
    · rw [hnone hsame] at hchild
      cases hchild
  · intro key child' hnone hchild'
    rcases h key child' hchild' with ⟨hsame, c, hc, -⟩ | ⟨-, hnew⟩
    · rw [hnone hsame] at hc
      cases hc
    · exact hnew

theorem markJson_leaf {node : Json} (hnode : node ≠ .null) (updated : UInt8) (value : Leaf) :
    markJson asFloat permitNullUpdates node (.leaf updated value) =
      markLeaf asFloat node updated value := by
  cases node with
  | null => exact absurd rfl hnode
  | _ => rfl

theorem fromJson_leaf_eq {node : Json} (hnode : node ≠ .null) {c : Config}
    (hleaf : c.isLeaf = true) :
    fromJson asFloat forceSameKeys permitNullUpdates node c = fromJsonLeaf asFloat node c := by
  cases node with
  | null => exact absurd rfl hnode
  | _ =>
    cases c with
    | array | object | union | tuple => cases hleaf
    | _ => rfl

theorem toJson_ne_null {v : Config} (hleaf : v.isLeaf = true) (hne : v ≠ .empty)
    (h : Reproduced asFloat floatJson v) : v.toJson floatJson [] ≠ .null := by
  cases v with
  | empty => exact absurd rfl hne
  | array | object | union | tuple => cases hleaf
  | float val =>
    intro hnull
    have hnumber := h.1
    rw [toJson] at hnull
    rw [hnull] at hnumber
    cases hnumber
  | _ => exact fun hnull => by cases hnull

theorem reproduced_cStrings {v : Config} (h : Reproduced asFloat floatJson v) :
    Reproduced asFloat floatJson v.cStrings := by
  cases v with
  | float => exact h
  | _ => trivial

theorem schema_cStrings {v : Config} (hleaf : v.isLeaf = true) : v.cStrings.schema = v.schema := by
  cases v with
  | array | object | union | tuple => cases hleaf
  | _ => rfl

theorem leaf_restores {v : Config} (hleaf : v.isLeaf = true)
    (hfloat : Reproduced asFloat floatJson v) {updated : UInt8} {value : Leaf}
    (hschema : value.1.schema = v.schema) (hfloat' : Reproduced asFloat floatJson value) :
    Restores v (markJson asFloat permitNullUpdates (v.toJson floatJson []))
      (.leaf updated value) := by
  obtain ⟨value, hvalue⟩ := value
  by_cases hempty : v = .empty
  · subst hempty
    have hvalue : value = .empty := by
      cases value with
      | empty => rfl
      | _ => cases hschema
    subst hvalue
    exact ⟨rfl, rfl, by simp [toJson, markJson, config, Config.cStrings], .leaf, fun _ => rfl⟩
  · have hnode := toJson_ne_null hleaf hempty hfloat
    have hok := @fromJson_leaf _ _ true true _ _ hleaf hschema hfloat
    rw [fromJson_leaf_eq hnode hvalue] at hok
    have hmark : markJson asFloat permitNullUpdates (v.toJson floatJson [])
        (.leaf updated ⟨value, hvalue⟩) =
        (.leaf updated ⟨v.cStrings, (fromJsonLeaf_eq_ok hvalue hok).1⟩,
          leafChanged value v.cStrings) := by
      rw [markJson_leaf hnode, markLeaf]
      split
      · rename_i c hc
        rw [hok] at hc
        cases hc
        rfl
      · rename_i message hmessage
        rw [hok] at hmessage
        cases hmessage
    have hchanged := leafChanged_iff hvalue (hschema.trans (schema_cStrings hleaf).symm) hfloat'
      (reproduced_cStrings hfloat)
    constructor
    · rw [hmark, config]
    · rw [hmark, Flagged.updated, Flagged.updated]
    · rw [hmark]
      exact hchanged
    · rw [hmark]
      exact .leaf
    · intro hsame
      have hunchanged : leafChanged value v.cStrings = false := by
        rw [← Bool.not_eq_true, hchanged, not_ne_iff]
        exact hsame
      rw [hmark, hunchanged]
      subst hsame
      rfl

theorem markElements_kept {values : List Config} {marks : List FlagVisit} {fs resized : List Flagged}
    (hmarks : marks.length = values.length)
    (hkept : ∀ (i : Nat) (child child' : Flagged), fs[i]? = some child →
      resized[i]? = some child' → child' = child)
    (hnew : ∀ (i : Nat) (child' : Flagged), fs[i]? = none → resized[i]? = some child' →
      AllUpdated child')
    (hkeeps : ∀ mark ∈ marks, KeepsUpdated mark)
    (h : ∀ (i : Nat) (v : Config) (mark : FlagVisit) (f : Flagged), values[i]? = some v →
      marks[i]? = some mark → fs[i]? = some f → Restores v mark f)
    {i : Nat} {child' : Flagged} (hchild' : (markElements marks resized).1[i]? = some child') :
    (∃ child, fs[i]? = some child ∧ FlagsAfter child child' ∧ ExactlyMarked child child') ∨
      fs[i]? = none ∧ AllUpdated child' := by
  obtain ⟨mark, f, hmark, hf, rfl⟩ := markElements_getElem? hchild'
  cases hchild : fs[i]? with
  | none =>
    right
    exact ⟨rfl, (hkeeps mark (List.mem_of_getElem? hmark)).markChild (hnew i f hchild hf)⟩
  | some child =>
    left
    obtain rfl := hkept i child f hchild hf
    have hlt : i < values.length := by
      rw [← hmarks]
      exact (List.getElem?_eq_some_iff.mp hmark).1
    have hrestores := h i values[i] mark f (List.getElem?_eq_getElem hlt) hmark hchild
    exact ⟨f, rfl, hrestores.flagsAfter, hrestores.below⟩

theorem mem_zip_of_getElem? {as : List α} {bs : List β} {i : Nat} {a : α} {b : β}
    (ha : as[i]? = some a) (hb : bs[i]? = some b) : (a, b) ∈ as.zip bs := by
  apply List.mem_of_getElem? (i := i)
  rw [List.getElem?_zip_eq_some]
  exact ⟨ha, hb⟩

section

variable {fs : List Flagged} {n : Nat} {new : List Flagged} {i : Nat}

theorem resized_kept {child child' : Flagged} (hchild : fs[i]? = some child)
    (hnone : fs.length < n ∨ new = []) (hchild' : (fs.take n ++ new)[i]? = some child') :
    child' = child := by
  have hi := (List.getElem?_eq_some_iff.mp hchild).1
  rcases hnone with hlt | rfl
  · rw [List.take_of_length_le hlt.le, List.getElem?_append_left hi, hchild] at hchild'
    exact (Option.some.inj hchild').symm
  · rw [List.append_nil, List.getElem?_take] at hchild'
    split at hchild'
    · rw [hchild] at hchild'
      exact (Option.some.inj hchild').symm
    · cases hchild'

theorem resized_new
    {child' : Flagged} (hnone : fs[i]? = none) (hchild' : (fs.take n ++ new)[i]? = some child') :
    child' ∈ new := by
  have hi := List.getElem?_eq_none_iff.mp hnone
  have hle : (fs.take n).length ≤ i := (List.length_take_le' n fs).trans hi
  rw [List.getElem?_append_right hle] at hchild'
  exact List.mem_of_getElem? hchild'

end

theorem forall_leaves_of_map {P : Config → Prop} {fs : List Flagged}
    (h : ∀ c ∈ configElements fs, AllLeaves P c) : ∀ f ∈ fs, AllLeaves P f.config := by
  intro f hf
  rw [configElements_eq_map] at h
  exact h _ (List.mem_map_of_mem hf)

/-- Visitors of the elements, by position. -/
theorem elements_restore {values : List Config} {fs : List Flagged} {marks : List FlagVisit}
    (hmarks : marks = values.map fun v => markJson asFloat permitNullUpdates
      (v.toJson floatJson []))
    (h : ∀ (i : Nat) (v : Config) (f : Flagged), values[i]? = some v → fs[i]? = some f →
      Restores v (markJson asFloat permitNullUpdates (v.toJson floatJson [])) f)
    (i : Nat) (v : Config) (mark : FlagVisit) (f : Flagged) (hv : values[i]? = some v)
    (hmark : marks[i]? = some mark) (hf : fs[i]? = some f) : Restores v mark f := by
  rw [hmarks, List.getElem?_map, hv] at hmark
  cases hmark
  exact h i v f hv hf

section

variable {fs : List Flagged} {updated : UInt8}

theorem array_restores {val : List Config} {prototype : Config} {minElements maxElements : UInt16}
    (h : ∀ (i : Nat) (v : Config) (f : Flagged), val[i]? = some v → fs[i]? = some f →
      Restores v (markJson asFloat permitNullUpdates (v.toJson floatJson [])) f)
    (hconfig : (markJson asFloat permitNullUpdates
      ((Config.array val prototype minElements maxElements).toJson floatJson [])
      (.array updated fs prototype minElements maxElements)).1.config =
      (Config.array val prototype minElements maxElements).cStrings) :
    Restores (.array val prototype minElements maxElements)
      (markJson asFloat permitNullUpdates
        ((Config.array val prototype minElements maxElements).toJson floatJson []))
      (.array updated fs prototype minElements maxElements) := by
  set marks := val.map fun v => markJson asFloat permitNullUpdates (v.toJson floatJson [])
    with hmarks
  have hcount : marks.length = val.length := List.length_map _
  have hresult : markJson asFloat permitNullUpdates
      ((Config.array val prototype minElements maxElements).toJson floatJson [])
      (.array updated fs prototype minElements maxElements) =
      (.array updated (markArray marks fs prototype).1 prototype minElements maxElements,
        (markArray marks fs prototype).2) := by
    rw [toJson, markJson, markJsonElements_eq_map]
  have hsame_iff : (Flagged.array updated fs prototype minElements maxElements).config =
      (Config.array val prototype minElements maxElements).cStrings ↔
      fs.map config = val.map cStrings := by
    rw [config, Config.cStrings, Config.array.injEq, configElements_eq_map, cStringsElements_eq_map]
    exact and_iff_left ⟨rfl, rfl, rfl⟩
  have hlength_of (hsame : fs.map config = val.map cStrings) : marks.length = fs.length := by
    have hlength := congrArg List.length hsame
    rw [List.length_map, List.length_map] at hlength
    rw [hcount, hlength]
  have hresized (hlength : marks.length = fs.length) :
      markArray marks fs prototype = markElements marks fs := by
    rw [markArray, hlength, List.take_length, Nat.sub_self, List.replicate_zero, List.append_nil,
      bne_self_eq_false, Bool.false_or]
  have helements (hlength : marks.length = fs.length) :=
    markElements_changed hcount (hlength.symm.trans hcount) (elements_restore hmarks h)
  constructor
  · exact hconfig
  · rw [hresult]
    rfl
  · rw [hresult, Ne, hsame_iff]
    by_cases hlength : marks.length = fs.length
    · rw [hresized hlength]
      exact (helements hlength).1
    · apply iff_of_true
      · rw [markArray, bne_iff_ne.mpr hlength, Bool.true_or]
      · exact fun hsame => hlength (hlength_of hsame)
  · rw [hresult]
    apply ExactlyMarked.of_children
    intro key child' hchild'
    cases key with
    | name key => cases hchild'
    | index i =>
      refine (markElements_kept hcount ?_ ?_ ?_ (elements_restore hmarks h) hchild').imp ?_ ?_
      · intro i child child' hchild hchild'
        apply resized_kept hchild _ hchild'
        rcases Nat.lt_or_ge fs.length marks.length with hlt | hge
        · exact .inl hlt
        · right
          rw [Nat.sub_eq_zero_of_le hge, List.replicate_zero]
      · intro i child' hnone hchild'
        rw [List.eq_of_mem_replicate (resized_new hnone hchild')]
        exact fresh_allUpdated prototype
      · intro mark hmark
        obtain ⟨v, -, rfl⟩ := List.mem_map.mp hmark
        exact markJson_keepsUpdated _
      · exact fun hkept => ⟨trivial, hkept⟩
      · exact fun hnew => ⟨fun _ => hnew.1, hnew.2⟩
  · intro hsame
    have hsame := hsame_iff.mp hsame
    rw [hresult, hresized (hlength_of hsame), (helements (hlength_of hsame)).2 hsame]

theorem tuple_restores {values : List Config} (hlength : fs.length = values.length)
    (h : ∀ (i : Nat) (v : Config) (f : Flagged), values[i]? = some v → fs[i]? = some f →
      Restores v (markJson asFloat permitNullUpdates (v.toJson floatJson [])) f)
    (hconfig : (markJson asFloat permitNullUpdates ((Config.tuple values).toJson floatJson [])
      (.tuple updated fs)).1.config = (Config.tuple values).cStrings) :
    Restores (.tuple values)
      (markJson asFloat permitNullUpdates ((Config.tuple values).toJson floatJson []))
      (.tuple updated fs) := by
  set marks := values.map fun v => markJson asFloat permitNullUpdates (v.toJson floatJson [])
    with hmarks
  have hcount : marks.length = values.length := List.length_map _
  have hresult : markJson asFloat permitNullUpdates ((Config.tuple values).toJson floatJson [])
      (.tuple updated fs) =
      (.tuple updated (markElements marks fs).1, (markElements marks fs).2) := by
    rw [toJson, markJson, markJsonElements_eq_map]
    dsimp only
    rw [toJsonElements_length, if_pos hlength.symm]
  have hsame_iff : (Flagged.tuple updated fs).config = (Config.tuple values).cStrings ↔
      fs.map config = values.map cStrings := by
    rw [config, Config.cStrings, Config.tuple.injEq, configElements_eq_map, cStringsElements_eq_map]
  obtain ⟨hchanged, hagain⟩ := markElements_changed hcount hlength (elements_restore hmarks h)
  constructor
  · exact hconfig
  · rw [hresult]
    rfl
  · rw [hresult, Ne, hsame_iff]
    exact hchanged
  · rw [hresult]
    apply ExactlyMarked.of_children
    intro key child' hchild'
    cases key with
    | name key => cases hchild'
    | index i =>
      refine (markElements_kept hcount ?_ ?_ ?_ (elements_restore hmarks h) hchild').imp ?_ ?_
      · intro i child child' hchild hchild'
        rw [hchild] at hchild'
        exact (Option.some.inj hchild').symm
      · intro i child' hnone hchild'
        rw [hnone] at hchild'
        cases hchild'
      · intro mark hmark
        obtain ⟨v, -, rfl⟩ := List.mem_map.mp hmark
        exact markJson_keepsUpdated _
      · exact fun hkept => ⟨trivial, hkept⟩
      · exact fun hnew => ⟨fun _ => hnew.1, hnew.2⟩
  · intro hsame
    rw [hresult, hagain (hsame_iff.mp hsame)]

theorem object_restores {members : List (String × Config)} {fs : List (String × Flagged)}
    (hkeys : fs.map Prod.fst = members.map Prod.fst)
    (h : ∀ p ∈ members.zip fs,
      Restores p.1.2 (markJson asFloat permitNullUpdates (p.1.2.toJson floatJson [])) p.2.2)
    (hconfig : (markJson asFloat permitNullUpdates ((Config.object members).toJson floatJson [])
      (.object updated fs)).1.config = (Config.object members).cStrings) :
    Restores (.object members)
      (markJson asFloat permitNullUpdates ((Config.object members).toJson floatJson []))
      (.object updated fs) := by
  set marks := markJsonMembers asFloat permitNullUpdates (toJsonMembers floatJson [] members)
    with hmarks
  have hresult : markJson asFloat permitNullUpdates ((Config.object members).toJson floatJson [])
      (.object updated fs) =
      (.object updated (markMembers marks fs).1, (markMembers marks fs).2) := by
    rw [toJson, markJson]
  have hsame_iff : (Flagged.object updated fs).config = (Config.object members).cStrings ↔
      configMembers fs = cStringsMembers members := by
    rw [config, Config.cStrings, Config.object.injEq]
  obtain ⟨hchanged, hagain, hlookup⟩ := markMembers_restores hkeys h
  constructor
  · exact hconfig
  · rw [hresult]
    rfl
  · rw [hresult, Ne, hsame_iff]
    exact hchanged
  · rw [hresult]
    apply ExactlyMarked.of_children
    intro key child' hchild'
    cases key with
    | name key =>
      left
      obtain ⟨v, mark, child, hchild, hrestores, rfl⟩ := hlookup key child' hchild'
      exact ⟨trivial, child, hchild, hrestores.flagsAfter, hrestores.below⟩
    | index i => cases hchild'
  · intro hsame
    rw [hresult, hagain (hsame_iff.mp hsame)]

theorem newTag_toJson (tag tag' : UInt8) :
    newTag permitNullUpdates tag' (.int tag.toNat) = .ok tag := by
  have hrange := tag.toNat_lt
  rw [newTag, Json.asInteger, if_pos (by omega)]
  · exact congrArg Except.ok (uint8_ofInt_toNat tag)
  · exact fun hnull => by cases hnull

theorem tag_flagsAfter {tagUpdated tagUpdated' tag tag' : UInt8} (hkept : tag' = tag →
    tagUpdated' = tagUpdated) (hset : tag' ≠ tag → tagUpdated' = 0xFF) :
    FlagsAfter (.leaf tagUpdated ⟨.uint8 tag 255, rfl⟩)
      (.leaf tagUpdated' ⟨.uint8 tag' 255, rfl⟩) := by
  constructor
  · intro hsame
    cases hsame
    exact hkept rfl
  · intro hdiffers
    apply hset
    rintro rfl
    exact hdiffers rfl

theorem union_restores {tagUpdated tag tag' : UInt8} {val prototype : Config} {w : Flagged}
    {prototypes : List (UInt8 × Config)} (htag : prototypes.lookup tag = some prototype)
    (h : tag = tag' → Restores val (markJson asFloat permitNullUpdates (val.toJson floatJson [])) w)
    (hconfig : (markJson asFloat permitNullUpdates
      ((Config.union tag val prototypes).toJson floatJson [])
      (.union updated tagUpdated tag' w prototypes)).1.config =
      (Config.union tag val prototypes).cStrings) :
    Restores (.union tag val prototypes)
      (markJson asFloat permitNullUpdates ((Config.union tag val prototypes).toJson floatJson []))
      (.union updated tagUpdated tag' w prototypes) := by
  set mark := markJson asFloat permitNullUpdates (val.toJson floatJson []) with hmark
  have hresult : markJson asFloat permitNullUpdates
      ((Config.union tag val prototypes).toJson floatJson [])
      (.union updated tagUpdated tag' w prototypes) =
      markUnion permitNullUpdates (.int tag.toNat) mark updated tagUpdated tag' w prototypes := by
    rw [toJson, markJson, markJsonElements, markJsonElements, markJsonElements]
  by_cases hsame : tag = tag'
  · subst hsame
    have hrestores := h rfl
    have hunion : markUnion permitNullUpdates (.int tag.toNat) mark updated tagUpdated tag w
        prototypes =
        (.union updated tagUpdated tag (markChild (mark w)) prototypes, (mark w).2) := by
      rw [markUnion, newTag_toJson]
      dsimp only
      rw [variant, if_pos rfl]
      dsimp only
      rw [bne_self_eq_false, Bool.false_or]
    have hsame_iff : (Flagged.union updated tagUpdated tag w prototypes).config =
        (Config.union tag val prototypes).cStrings ↔ w.config = val.cStrings := by
      rw [config, Config.cStrings, Config.union.injEq]
      simp only [true_and, and_true]
    constructor
    · rw [hresult]
      exact hconfig
    · rw [hresult, hunion]
      rfl
    · rw [hresult, hunion, Ne, hsame_iff]
      exact hrestores.changed
    · rw [hresult, hunion]
      apply ExactlyMarked.of_children
      intro key child' hchild'
      left
      obtain ⟨rfl, rfl⟩ | ⟨rfl, rfl⟩ := getOrNull_union hchild'
      · exact ⟨trivial, _, rfl, tag_flagsAfter (fun _ => rfl) (absurd rfl), .leaf⟩
      · exact ⟨rfl, w, rfl, hrestores.flagsAfter, hrestores.below⟩
    · intro hequal
      rw [hresult, hunion, hrestores.again (hsame_iff.mp hequal), markChild_unchanged]
  · have hunion : markUnion permitNullUpdates (.int tag.toNat) mark updated tagUpdated tag' w
        prototypes =
        (.union updated 0xFF tag (markChild (mark (fresh prototype))) prototypes, true) := by
      rw [markUnion, newTag_toJson]
      dsimp only
      rw [variant, if_neg hsame, htag, Option.map_some]
      dsimp only
      rw [bne_iff_ne.mpr hsame, Bool.true_or]
    have hdiffers : (Flagged.union updated tagUpdated tag' w prototypes).config ≠
        (Config.union tag val prototypes).cStrings := by
      rw [config, Config.cStrings, Ne, Config.union.injEq]
      exact fun hequal => hsame hequal.1.symm
    constructor
    · rw [hresult]
      exact hconfig
    · rw [hresult, hunion]
      rfl
    · rw [hresult, hunion]
      exact iff_of_true rfl hdiffers
    · rw [hresult, hunion]
      apply ExactlyMarked.of_children
      intro key child' hchild'
      obtain ⟨rfl, rfl⟩ | ⟨rfl, rfl⟩ := getOrNull_union hchild'
      · left
        exact ⟨trivial, _, rfl, tag_flagsAfter (fun heq => absurd heq hsame) (fun _ => rfl), .leaf⟩
      · right
        exact ⟨fun heq => absurd heq hsame,
          (markJson_keepsUpdated _).markChild (fresh_allUpdated prototype)⟩
    · exact fun hequal => absurd hequal hdiffers

end

section

variable {f : Flagged}

theorem leaf_of_isValue {d : Config} (hdeclared : d.isLeaf = true) (hf : IsValue d f.config) :
    ∃ updated value, f = .leaf updated value ∧ value.1.schema = d.schema := by
  generalize hc : f.config = c at hf
  cases hf with
  | leaf _ hleaf hschema =>
    subst hc
    cases f with
    | leaf updated value => exact ⟨updated, value, rfl, hschema⟩
    | _ => cases hleaf
  | _ => cases hdeclared

theorem array_of_isValue {declared : List Config} {prototype : Config}
    {minElements maxElements : UInt16}
    (hf : IsValue (.array declared prototype minElements maxElements) f.config) :
    ∃ updated fs, f = .array updated fs prototype minElements maxElements ∧
      ∀ f ∈ fs, IsValue prototype f.config := by
  generalize hc : f.config = c at hf
  obtain ⟨⟨⟩, -⟩ | ⟨_, hval⟩ := hf
  cases f with
  | array updated fs =>
    rw [config, configElements_eq_map] at hc
    cases hc
    exact ⟨updated, fs, rfl, fun f hf => hval _ (List.mem_map_of_mem hf)⟩
  | leaf _ value =>
    obtain ⟨value, hleaf⟩ := value
    cases hc
    cases hleaf
  | _ => cases hc

theorem object_of_isValue {declared : List (String × Config)}
    (hf : IsValue (.object declared) f.config) :
    ∃ updated fs, f = .object updated fs ∧ fs.map Prod.fst = declared.map Prod.fst ∧
      ∀ p ∈ declared.zip fs, IsValue p.1.2 p.2.2.config := by
  generalize hc : f.config = c at hf
  obtain ⟨⟨⟩, -⟩ | _ | ⟨hkeys, _, hmembers⟩ := hf
  cases f with
  | object updated fs =>
    rw [config, configMembers_eq_map] at hc
    cases hc
    rw [List.map_map] at hkeys
    refine ⟨updated, fs, rfl, hkeys, fun p hp => ?_⟩
    apply hmembers (p.1, p.2.1, p.2.2.config)
    rw [List.zip_map_right]
    exact List.mem_map_of_mem hp
  | leaf _ value =>
    obtain ⟨value, hleaf⟩ := value
    cases hc
    cases hleaf
  | _ => cases hc

theorem union_of_isValue {declaredTag : UInt8} {declared : Config}
    {prototypes : List (UInt8 × Config)}
    (hf : IsValue (.union declaredTag declared prototypes) f.config) :
    ∃ updated tagUpdated tag val prototype, f = .union updated tagUpdated tag val prototypes ∧
      prototypes.lookup tag = some prototype ∧ IsValue prototype val.config := by
  generalize hc : f.config = c at hf
  obtain ⟨⟨⟩, -⟩ | _ | _ | ⟨_, htag, hval⟩ := hf
  cases f with
  | union updated tagUpdated tag val =>
    cases hc
    exact ⟨updated, tagUpdated, _, val, _, rfl, htag, hval⟩
  | leaf _ value =>
    obtain ⟨value, hleaf⟩ := value
    cases hc
    cases hleaf
  | _ => cases hc

theorem tuple_of_isValue {declared : List Config} (hf : IsValue (.tuple declared) f.config) :
    ∃ updated fs, f = .tuple updated fs ∧ fs.length = declared.length ∧
      ∀ p ∈ declared.zip fs, IsValue p.1 p.2.config := by
  generalize hc : f.config = c at hf
  obtain ⟨⟨⟩, -⟩ | _ | _ | _ | ⟨hlength, hvalues⟩ := hf
  cases f with
  | tuple updated fs =>
    rw [config, configElements_eq_map] at hc
    cases hc
    rw [List.length_map] at hlength
    refine ⟨updated, fs, rfl, hlength, fun p hp => ?_⟩
    apply hvalues (p.1, p.2.config)
    rw [List.zip_map_right]
    exact List.mem_map_of_mem hp
  | leaf _ value =>
    obtain ⟨value, hleaf⟩ := value
    cases hc
    cases hleaf
  | _ => cases hc

end

section

variable {v : Config} (hfloats : AllLeaves (Reproduced asFloat floatJson) v) {d : Config}
  {f : Flagged} (hv : IsValue d v) (hf : IsValue d f.config)
include hfloats hv hf

theorem restored_config :
    (markJson asFloat permitNullUpdates (v.toJson floatJson []) f).1.config = v.cStrings :=
  markJson_config _ (@fromJson_toJson _ _ true _ _ hfloats _ _ hv hf)

/-- A document restores its configuration and marks what it changes. -/
theorem markJson_restores (hfloats' : AllLeaves (Reproduced asFloat floatJson) f.config) :
    Restores v (markJson asFloat permitNullUpdates (v.toJson floatJson [])) f := by
  have hconfig := @restored_config _ _ permitNullUpdates _ hfloats _ _ hv hf
  induction v using Config.induction generalizing d f with
  | leaf v hleaf =>
    cases hv with
    | leaf hdeclared _ hschema =>
      obtain ⟨updated, value, rfl, hschema'⟩ := leaf_of_isValue hdeclared hf
      exact leaf_restores hleaf ((allLeaves_leaf_iff hleaf).mp hfloats)
        (hschema'.trans hschema.symm) ((allLeaves_leaf_iff value.2).mp hfloats')
    | array | object | union | tuple => cases hleaf
  | array val prototype minElements maxElements ih =>
    obtain ⟨-, ⟨⟩, -⟩ | ⟨hprototype, hval⟩ := hv
    obtain ⟨updated, fs, rfl, hfs⟩ := array_of_isValue hf
    obtain ⟨⟨⟩, -⟩ | hfloats := hfloats
    obtain ⟨⟨⟩, -⟩ | hfloats' := hfloats'
    refine array_restores (fun i v f hv hf => ?_) hconfig
    have hv := List.mem_of_getElem? hv
    have hf := List.mem_of_getElem? hf
    exact ih v hv (hfloats v hv) (hval v hv) (hfs f hf)
      (forall_leaves_of_map hfloats' f hf)
      (restored_config (hfloats v hv) (hval v hv) (hfs f hf))
  | object members ih =>
    cases hv with
    | leaf _ hleaf => cases hleaf
    | @object declared _ hkeys _ hmembers =>
      obtain ⟨updated, fs, rfl, hkeys', hfs⟩ := object_of_isValue hf
      obtain ⟨⟨⟩, -⟩ | _ | hfloats := hfloats
      obtain ⟨⟨⟩, -⟩ | _ | hfloats' := hfloats'
      refine object_restores (hkeys'.trans hkeys.symm) (fun p hp => ?_) hconfig
      have hlength : members.length = declared.length := by
        rw [← List.length_map Prod.fst, hkeys, List.length_map]
      obtain ⟨d, hd, hd'⟩ := forall_zip (R := fun d v => IsValue d.2 v.2)
        (S := fun d f => IsValue d.2 f.2.config) hlength hmembers hfs p hp
      obtain ⟨hv, hf⟩ := List.of_mem_zip hp
      rw [configMembers_eq_map] at hfloats'
      exact ih p.1 hv (hfloats _ hv) hd hd'
        (hfloats' _ (List.mem_map_of_mem hf))
        (restored_config (hfloats _ hv) hd hd')
  | union tag val prototypes ih =>
    obtain ⟨-, ⟨⟩, -⟩ | _ | _ | ⟨_, htag, hval⟩ := hv
    obtain ⟨updated, tagUpdated, tag', w, prototype', rfl, htag', hw⟩ := union_of_isValue hf
    obtain ⟨⟨⟩, -⟩ | _ | _ | hfloats := hfloats
    obtain ⟨⟨⟩, -⟩ | _ | _ | hfloats' := hfloats'
    refine union_restores htag (fun hsame => ?_) hconfig
    subst hsame
    rw [htag'] at htag
    cases htag
    exact ih hfloats hval hw hfloats' (restored_config hfloats hval hw)
  | tuple values ih =>
    cases hv with
    | leaf _ hleaf => cases hleaf
    | @tuple declared _ hlength hvalues =>
      obtain ⟨updated, fs, rfl, hlength', hfs⟩ := tuple_of_isValue hf
      obtain ⟨⟨⟩, -⟩ | _ | _ | _ | hfloats := hfloats
      obtain ⟨⟨⟩, -⟩ | _ | _ | _ | hfloats' := hfloats'
      refine tuple_restores (hlength'.trans hlength.symm) (fun i v f hv hf => ?_)
        hconfig
      have hmem : (v, f) ∈ values.zip fs := mem_zip_of_getElem? hv hf
      obtain ⟨d, hd, hd'⟩ := forall_zip (R := IsValue)
        (S := fun d f => IsValue d f.config) hlength hvalues hfs _ hmem
      have hv := List.mem_of_getElem? hv
      have hf := List.mem_of_getElem? hf
      exact ih v hv (hfloats v hv) hd hd' (forall_leaves_of_map hfloats' f hf)
        (restored_config (hfloats v hv) hd hd')

end

theorem isObject_toJson {v : Config} {members : List (String × Config)} {d : Config}
    (hv : IsValue d v) (hw : IsValue d (.object members)) :
    (v.toJson floatJson []).isObject = true := by
  obtain ⟨-, ⟨⟩, -⟩ | _ | _ := hw
  obtain ⟨⟨⟩, -⟩ | _ | _ := hv
  rfl

theorem fromJsonRoot_eq {node : Json} {c : Config}
    (h : ∀ m, c = .object [m] → node.isObject = true) :
    fromJsonRoot asFloat forceSameKeys permitNullUpdates node c =
      fromJson asFloat forceSameKeys permitNullUpdates node c := by
  rw [fromJsonRoot.eq_def]
  split
  · have hobject := h _ rfl
    split
    · cases hobject
    · rw [if_neg (fun hinferred => hinferred.1 hobject)]
  · rfl

theorem markJsonRoot_eq {node : Json} {f : Flagged}
    (h : ∀ m, f.config = .object [m] → node.isObject = true) :
    markJsonRoot asFloat permitNullUpdates node f = markJson asFloat permitNullUpdates node f := by
  rw [markJsonRoot.eq_def]
  split
  · have hobject := h _ rfl
    split
    · cases hobject
    · rw [if_neg (fun hinferred => hinferred.1 hobject)]
  · rfl

theorem fromJsonRoot_toJson {v : Config} (hfloats : AllLeaves (Reproduced asFloat floatJson) v)
    {d w : Config} (hv : IsValue d v) (hw : IsValue d w) :
    fromJsonRoot asFloat forceSameKeys permitNullUpdates (v.toJson floatJson []) w =
      .ok v.cStrings := by
  rw [fromJsonRoot_eq, fromJson_toJson hfloats hv hw]
  intro m hm
  exact isObject_toJson hv (hm ▸ hw)

theorem markJsonRoot_toJson {v d : Config} {f : Flagged} (hv : IsValue d v)
    (hf : IsValue d f.config) :
    markJsonRoot asFloat permitNullUpdates (v.toJson floatJson []) f =
      markJson asFloat permitNullUpdates (v.toJson floatJson []) f := by
  apply markJsonRoot_eq
  intro m hm
  exact isObject_toJson hv (hm ▸ hf)

end Flagged

open Flagged

section

variable {name : String} {phases : List UInt8}

/-- A small configuration with a name and a list of phases. -/
def box (name : String) (phases : List UInt8) : Config :=
  .object [("name", .string name 0 16),
    ("phases", .array (phases.map fun phase => .uint8 phase 255) (.uint8 0 255) 0 3)]

theorem box_isValue : IsValue (box "" []) (box name phases) := by
  refine IsValue.object (by rfl) (by decide) ?_
  rw [List.zip_cons_cons, List.forall_mem_cons]
  constructor
  · exact .leaf rfl rfl rfl
  · rw [List.zip_cons_cons, List.forall_mem_cons]
    constructor
    · apply IsValue.array (.leaf rfl rfl rfl)
      intro c hc
      obtain ⟨phase, -, rfl⟩ := List.mem_map.mp hc
      exact .leaf rfl rfl rfl
    · exact fun p hp => by cases hp

theorem box_allLeaves {P : Config → Prop} (hname : P (.string name 0 16))
    (hphases : ∀ phase, P (.uint8 phase 255)) : AllLeaves P (box name phases) := by
  apply AllLeaves.object
  rw [List.forall_mem_cons, List.forall_mem_singleton]
  constructor
  · exact .leaf rfl hname
  · apply AllLeaves.array
    intro c hc
    obtain ⟨phase, -, rfl⟩ := List.mem_map.mp hc
    exact .leaf rfl (hphases phase)

end

/-- Restoring a document leads to the configuration it was written for and marks exactly what
changed, if no string has a NUL. -/
theorem restored_iff_nulFree (asFloat : Json → UInt32) (floatJson : UInt32 → Json)
    (forceSameKeys permitNullUpdates : Bool) {d v : Config} {f : Flagged} (hv : IsValue d v)
    (hf : IsValue d f.config) (hfloats : AllLeaves (Reproduced asFloat floatJson) v)
    (hfloats' : AllLeaves (Reproduced asFloat floatJson) f.config) :
    (let doc := v.toJson floatJson []
    let restored := markJsonRoot asFloat permitNullUpdates doc f
    fromJsonRoot asFloat forceSameKeys permitNullUpdates doc f.config = .ok v ∧
      restored.1.config = v ∧ (restored.2 = true ↔ f.config ≠ v) ∧ ExactlyMarked f restored.1 ∧
      markJsonRoot asFloat permitNullUpdates doc restored.1 = (restored.1, false)) ↔
      v.NulFree := by
  have hrestores := @markJson_restores _ _ permitNullUpdates _ hfloats _ _ hv hf hfloats'
  dsimp only
  rw [fromJsonRoot_toJson hfloats hv hf, markJsonRoot_toJson hv hf]
  constructor
  · intro h
    exact cStrings_eq_self.mp (Except.ok.inj h.1)
  · intro hnul
    have hsame := cStrings_eq_self.mpr hnul
    obtain ⟨hconfig, -, hchanged, hmarked, -⟩ := hrestores
    rw [hsame] at hconfig hchanged
    refine ⟨congrArg Except.ok hsame, hconfig, hchanged, hmarked, ?_⟩
    have hg : IsValue d (markJson asFloat permitNullUpdates (v.toJson floatJson []) f).1.config :=
      hconfig.symm ▸ hv
    rw [markJsonRoot_toJson hv hg]
    apply (markJson_restores hfloats hv hg (hconfig.symm ▸ hfloats)).again
    rw [hconfig, hsame]

/-- The phases grow and the name stays: only what is below the phases is marked. -/
theorem phases_restored :
    let f : Flagged := .object 0 [("name", .leaf 0 ⟨.string "box" 0 16, rfl⟩),
      ("phases", .array 0 [.leaf 0 ⟨.uint8 1 255, rfl⟩] (.uint8 0 255) 0 3)]
    (let doc := (box "box" [1, 2]).toJson (fun _ => .int 0) []
    let restored := markJsonRoot (fun _ => 0) false doc f
    fromJsonRoot (fun _ => 0) false false doc f.config = .ok (box "box" [1, 2]) ∧
      restored.1.config = box "box" [1, 2] ∧
      (restored.2 = true ↔ f.config ≠ box "box" [1, 2]) ∧ ExactlyMarked f restored.1 ∧
      markJsonRoot (fun _ => 0) false doc restored.1 = (restored.1, false)) ∧
    (box "box" [1, 2]).NulFree := by
  have hnul : (box "box" [1, 2]).NulFree := box_allLeaves (by decide) fun _ => trivial
  refine ⟨(restored_iff_nulFree (fun _ => 0) (fun _ => .int 0) false false box_isValue ?_ ?_
    ?_).mpr hnul, hnul⟩
  · exact @box_isValue "box" [1]
  · exact box_allLeaves trivial fun _ => trivial
  · exact @box_allLeaves "box" [1] _ trivial fun _ => trivial

/-- The name is cut at its NUL. -/
theorem nul_not_restored :
    IsValue (box "" []) (box "a\x00b" []) ∧
      AllLeaves (Reproduced (fun _ => 0) fun _ => .int 0) (box "a\x00b" []) ∧
      ∀ forceSameKeys permitNullUpdates, fromJsonRoot (fun _ => 0) forceSameKeys permitNullUpdates
          ((box "a\x00b" []).toJson (fun _ => .int 0) []) (box "a\x00b" []) =
            .ok (box "a" []) ∧ box "a" [] ≠ box "a\x00b" [] := by
  refine ⟨box_isValue, box_allLeaves trivial fun _ => trivial, fun _ _ => ⟨?_, ?_⟩⟩
  · rw [fromJsonRoot_toJson (box_allLeaves trivial fun _ => trivial) box_isValue box_isValue]
    rfl
  · intro hsame
    simp [box] at hsame

end Esp32Firmware.Configuration
