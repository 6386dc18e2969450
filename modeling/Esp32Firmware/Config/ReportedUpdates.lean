import Esp32Firmware.Config.ConfUpdate
import Esp32Firmware.Config.Mutators
import Esp32Firmware.Library.Run

/-!
# Updates that report their changes

The visitors of JSON documents and of updates in memory report whether they changed a node. The
root gets its flags from this report. What is not reported did not change.
-/

namespace Esp32Firmware.Configuration

open Config

theorem fromExtracted_eq_ok {update : ConfUpdate} {message : String} {set : Int → Config}
    {c : Config} (h : fromExtracted update message set = .ok c) : ∃ value, c = set value := by
  rw [fromExtracted] at h
  split at h
  · cases h
    exact ⟨_, rfl⟩
  · cases h

theorem fromUpdateLeaf_schema {update : ConfUpdate} {c c' : Config}
    (h : fromUpdateLeaf update c = .ok c') : c'.isLeaf = true ∧ c'.schema = c.schema := by
  cases c with
  | empty | array | object | union | tuple => cases h
  | string | float | bool =>
    cases update <;> cases h
    exact ⟨rfl, rfl⟩
  | _ =>
    rw [fromUpdateLeaf] at h
    obtain ⟨value, rfl⟩ := fromExtracted_eq_ok h
    exact ⟨rfl, rfl⟩

namespace Flagged

/-- The flags of `fromUpdateLeaf`. -/
def markUpdateLeaf (update : ConfUpdate) : FlagVisit
  | .leaf updated value =>
    match h : fromUpdateLeaf update value with
    | .ok c => (.leaf updated ⟨c, (fromUpdateLeaf_schema h).1⟩, leafChanged value c)
    | .error _ => (.leaf updated value, false)
  | f => (f, false)

/-- The members in the order of the schema. -/
def markNamed (visits : List (String × FlagVisit)) :
    List (String × Flagged) → List (String × Flagged) × Bool
  | [] => ([], false)
  | (key, value) :: rest =>
    match visits.lookup key with
    | some visit =>
      let result := visit value
      let rest := markNamed visits rest
      ((key, markChild result) :: rest.1, result.2 || rest.2)
    | none => ((key, value) :: rest, false)

/-- The flags of the tag, the tag and the value after `changeUnionVariant`, whose result is not
checked. -/
def markVariant (tag' tagUpdated tag : UInt8) (val : Flagged)
    (prototypes : List (UInt8 × Config)) : UInt8 × UInt8 × Flagged :=
  if tag' ≠ tag then
    match prototypes.lookup tag' with
    | some config => (0xFF, tag', fresh config)
    | none => (tagUpdated, tag, val)
  else (tagUpdated, tag, val)

mutual

/-- The flags of `fromUpdate`. A union does not set those of its value, but it reports them. -/
def markUpdate : ConfUpdate → FlagVisit
  | .null => fun f => (f, false)
  | .array updates => fun f =>
    let visits := markUpdateElements updates
    match f with
    | .array updated val prototype minElements maxElements =>
      let result := markArray visits val prototype
      (.array updated result.1 prototype minElements maxElements, result.2)
    | .tuple updated values =>
      if updates.length = values.length then
        let result := markElements visits values
        (.tuple updated result.1, result.2)
      else (f, false)
    | f => markUpdateLeaf (.array updates) f
  | .object updates => fun f =>
    let visits := markUpdateMembers updates
    match f with
    | .object updated members =>
      if updates.length = members.length then
        let result := markNamed visits members
        (.object updated result.1, result.2)
      else (f, false)
    | f => markUpdateLeaf (.object updates) f
  | .union tag' update => fun f =>
    let visit := markUpdate update
    match f with
    | .union updated tagUpdated tag val prototypes =>
      let selected := markVariant tag' tagUpdated tag val prototypes
      let result := visit selected.2.2
      (.union updated selected.1 selected.2.1 result.1 prototypes, tag' != tag || result.2)
    | f => markUpdateLeaf (.union tag' update) f
  | .string value => markUpdateLeaf (.string value)
  | .float value => markUpdateLeaf (.float value)
  | .uint32 value => markUpdateLeaf (.uint32 value)
  | .int32 value => markUpdateLeaf (.int32 value)
  | .bool value => markUpdateLeaf (.bool value)
  | .int64 value => markUpdateLeaf (.int64 value)
  | .uint64 value => markUpdateLeaf (.uint64 value)
  | .uint16 value => markUpdateLeaf (.uint16 value)
  | .int16 value => markUpdateLeaf (.int16 value)
  | .uint8 value => markUpdateLeaf (.uint8 value)
  | .int8 value => markUpdateLeaf (.int8 value)

def markUpdateElements : List ConfUpdate → List FlagVisit
  | [] => []
  | update :: rest => markUpdate update :: markUpdateElements rest

def markUpdateMembers : List (String × ConfUpdate) → List (String × FlagVisit)
  | [] => []
  | (key, update) :: rest => (key, markUpdate update) :: markUpdateMembers rest

end

section

/-- What a validator returns: its error, or what it writes to the copy. It may read the state
of its module, so it can be another one at every update. -/
abbrev Validator := Config → Except String (List Write)

/-- The copy before the validators see it. -/
def visitedCopy (f : Flagged) (mark : FlagVisit) (path : List Key) (subConfig : Flagged) :
    Flagged :=
  let result := mark subConfig
  (f.writeAt path result.1).setUpdated (changedFlags result.2)

/-- The copy of a configuration after a visitor and the validators. -/
def getUpdatedCopy (visit : Visit) (mark : FlagVisit) (validator : Validator) (f : Flagged)
    (path : List Key) : Except String Flagged :=
  match f.walk path with
  | none => .error "path not found"
  | some subConfig => do
      let _ ← visit subConfig.config
      let copy := f.visitedCopy mark path subConfig
      defaultValidator copy.config
      let writes ← validator copy.config
      return run write copy writes

def updateFromJson (asFloat : Json → UInt32) (permitNullUpdates forceSameKeys : Bool)
    (node : Json) (path : List Key) (validator : Validator) (f : Flagged) :
    Except String Flagged :=
  (f.getUpdatedCopy (fromJsonRoot asFloat forceSameKeys permitNullUpdates node)
    (markJsonRoot asFloat permitNullUpdates node) validator path).mapError
      fun message => message.trimAscii.copy

def update (val : ConfUpdate) (validator : Validator) (f : Flagged) : Except String Flagged :=
  f.getUpdatedCopy (fromUpdate val) (markUpdate val) validator []

end

/-- The same flags and the same value. -/
structure Same (f f' : Flagged) : Prop where
  flags_eq : f'.flags = f.flags
  value_eq : f'.value = f.value

/-- What is not reported did not change. -/
def Reports (mark : FlagVisit) : Prop := ∀ ⦃f : Flagged⦄, (mark f).2 = false → f.Same (mark f).1

theorem Same.refl (f : Flagged) : f.Same f := ⟨rfl, rfl⟩

theorem Same.markChild {mark : FlagVisit} (h : Reports mark) {f : Flagged}
    (hf : (mark f).2 = false) : f.Same (markChild (mark f)) := by
  have hsame := h hf
  constructor
  · rw [Flagged.markChild, hf, flags_setUpdated, hsame.flags_eq]
    exact UInt8.or_zero
  · rw [value, config_markChild]
    exact hsame.value_eq

theorem markElements_same {marks : List FlagVisit} (h : ∀ mark ∈ marks, Reports mark)
    {values : List Flagged} (hlength : marks.length = values.length)
    (hunchanged : (markElements marks values).2 = false) :
    listFlags (markElements marks values).1 = listFlags values ∧
      (markElements marks values).1.map value = values.map value := by
  induction marks generalizing values with
  | nil =>
    cases values with
    | nil => exact ⟨rfl, rfl⟩
    | cons => cases hlength
  | cons mark marks ih =>
    cases values with
    | nil => cases hlength
    | cons value rest =>
      rw [List.forall_mem_cons] at h
      rw [markElements, Bool.or_eq_false_iff] at hunchanged
      have hfirst := Same.markChild h.1 hunchanged.1
      obtain ⟨hflags, hvalues⟩ := ih h.2 (Nat.succ.inj hlength) hunchanged.2
      rw [markElements]
      constructor
      · rw [listFlags, listFlags, hflags, hfirst.flags_eq]
      · rw [List.map_cons, List.map_cons, hvalues, hfirst.value_eq]

theorem markArray_same {marks : List FlagVisit} (h : ∀ mark ∈ marks, Reports mark)
    {val : List Flagged} {prototype : Config}
    (hunchanged : (markArray marks val prototype).2 = false) :
    listFlags (markArray marks val prototype).1 = listFlags val ∧
      (markArray marks val prototype).1.map value = val.map value := by
  rw [markArray, Bool.or_eq_false_iff, bne_eq_false_iff_eq] at hunchanged
  obtain ⟨hlength, hunchanged⟩ := hunchanged
  have hresized : val.take marks.length ++
      List.replicate (marks.length - val.length) (fresh prototype) = val := by
    rw [hlength, List.take_length, Nat.sub_self, List.replicate_zero, List.append_nil]
  rw [hresized] at hunchanged
  rw [markArray, hresized]
  exact markElements_same h hlength hunchanged

theorem memberFlags_cons (m : String × Flagged) (rest : List (String × Flagged)) :
    memberFlags (m :: rest) = m.2.flags ||| memberFlags rest := rfl

section

variable {marks : List (String × FlagVisit)} (h : ∀ m ∈ marks, Reports m.2)
  {members : List (String × Flagged)}
include h

theorem markMembers_same (hunchanged : (markMembers marks members).2 = false) :
    memberFlags (markMembers marks members).1 = memberFlags members ∧
      (markMembers marks members).1.map (fun m => (m.1, m.2.value)) =
        members.map fun m => (m.1, m.2.value) := by
  induction members generalizing marks with
  | nil => exact ⟨rfl, rfl⟩
  | cons m rest ih =>
    obtain ⟨key, value⟩ := m
    rw [markMembers.eq_def] at hunchanged ⊢
    dsimp only at hunchanged ⊢
    cases hmark : marks.lookup key with
    | none =>
      rw [hmark] at hunchanged
      obtain ⟨hflags, hvalues⟩ := ih h hunchanged
      dsimp only
      constructor
      · rw [memberFlags_cons, memberFlags_cons, hflags]
      · rw [List.map_cons, List.map_cons, hvalues]
    | some mark =>
      rw [hmark] at hunchanged
      dsimp only at hunchanged ⊢
      rw [Bool.or_eq_false_iff] at hunchanged
      have hfirst := Same.markChild (h _ (mem_of_lookup hmark)) hunchanged.1
      obtain ⟨hflags, hvalues⟩ :=
        ih (fun m hm => h m (List.mem_of_mem_eraseP hm)) hunchanged.2
      constructor
      · rw [memberFlags_cons, memberFlags_cons, hflags, hfirst.flags_eq]
      · rw [List.map_cons, List.map_cons, hvalues, hfirst.value_eq]

theorem markNamed_same (hunchanged : (markNamed marks members).2 = false) :
    memberFlags (markNamed marks members).1 = memberFlags members ∧
      (markNamed marks members).1.map (fun m => (m.1, m.2.value)) =
        members.map fun m => (m.1, m.2.value) := by
  induction members with
  | nil => exact ⟨rfl, rfl⟩
  | cons m rest ih =>
    obtain ⟨key, value⟩ := m
    rw [markNamed] at hunchanged ⊢
    cases hmark : marks.lookup key with
    | none => exact ⟨rfl, rfl⟩
    | some mark =>
      rw [hmark] at hunchanged
      dsimp only at hunchanged ⊢
      rw [Bool.or_eq_false_iff] at hunchanged
      have hfirst := Same.markChild (h _ (mem_of_lookup hmark)) hunchanged.1
      obtain ⟨hflags, hvalues⟩ := ih hunchanged.2
      constructor
      · rw [memberFlags_cons, memberFlags_cons, hflags, hfirst.flags_eq]
      · rw [List.map_cons, List.map_cons, hvalues, hfirst.value_eq]

end

section

variable {updated tagUpdated tag : UInt8}

theorem Same.array {val val' : List Flagged} {prototype : Config}
    {minElements maxElements : UInt16}
    (h : listFlags val' = listFlags val ∧ val'.map value = val.map value) :
    Same (.array updated val prototype minElements maxElements)
      (.array updated val' prototype minElements maxElements) := by
  constructor
  · rw [flags_array, flags_array, h.1]
  · rw [value_array, value_array, h.2]

theorem Same.object {members members' : List (String × Flagged)}
    (h : memberFlags members' = memberFlags members ∧
      members'.map (fun m => (m.1, m.2.value)) = members.map fun m => (m.1, m.2.value)) :
    Same (.object updated members) (.object updated members') := by
  constructor
  · rw [flags_object, flags_object, h.1]
  · rw [value_object, value_object, h.2]

theorem Same.union {val val' : Flagged} {prototypes : List (UInt8 × Config)}
    (h : val.Same val') :
    Same (.union updated tagUpdated tag val prototypes)
      (.union updated tagUpdated tag val' prototypes) := by
  constructor
  · rw [flags_union, flags_union, h.flags_eq]
  · rw [value_union, value_union, h.value_eq]

theorem Same.tuple {values values' : List Flagged}
    (h : listFlags values' = listFlags values ∧ values'.map value = values.map value) :
    Same (.tuple updated values) (.tuple updated values') := by
  constructor
  · rw [flags_tuple, flags_tuple, h.1]
  · rw [value_tuple, value_tuple, h.2]

theorem Same.leaf {value value' : Leaf} (hschema : value'.1.schema = value.1.schema)
    (h : leafChanged value value' = false) : Same (.leaf updated value) (.leaf updated value') := by
  constructor
  · rw [flags_leaf, flags_leaf]
  · exact leafChanged_value value.2 hschema h

end

section

variable {asFloat : Json → UInt32} {permitNullUpdates : Bool}

theorem markJsonElements_length (nodes : List Json) :
    (markJsonElements asFloat permitNullUpdates nodes).length = nodes.length := by
  induction nodes with
  | nil => rfl
  | cons node rest ih => rw [markJsonElements, List.length_cons, List.length_cons, ih]

theorem markLeaf_reports {node : Json} {updated : UInt8} {value : Leaf}
    (hunchanged : (markLeaf asFloat node updated value).2 = false) :
    Same (.leaf updated value) (markLeaf asFloat node updated value).1 := by
  rw [markLeaf] at hunchanged ⊢
  split at hunchanged
  · rename_i c hc
    exact .leaf (fromJsonLeaf_eq_ok value.2 hc).2 hunchanged
  · exact .refl _

theorem markUnion_reports {first : Json} {mark : FlagVisit} (h : Reports mark)
    {updated tagUpdated tag : UInt8} {val : Flagged} {prototypes : List (UInt8 × Config)}
    (hunchanged : (markUnion permitNullUpdates first mark updated tagUpdated tag val
      prototypes).2 = false) :
    Same (.union updated tagUpdated tag val prototypes)
      (markUnion permitNullUpdates first mark updated tagUpdated tag val prototypes).1 := by
  rw [markUnion] at hunchanged ⊢
  split
  · exact .refl _
  · rename_i tag' htag'
    rw [htag'] at hunchanged
    dsimp only at hunchanged
    split
    · exact .refl _
    · rename_i tagUpdated' val' hvariant
      rw [hvariant] at hunchanged
      dsimp only at hunchanged ⊢
      rw [Bool.or_eq_false_iff, bne_eq_false_iff_eq] at hunchanged
      obtain ⟨rfl, hunchanged⟩ := hunchanged
      rw [variant, if_pos rfl] at hvariant
      cases hvariant
      exact .union (.markChild h hunchanged)

theorem markScalar_reports (node : Json) : Reports (markScalar asFloat node) := by
  intro f hunchanged
  cases f with
  | leaf => exact markLeaf_reports hunchanged
  | _ => exact .refl _

mutual

theorem markJson_reports : (node : Json) → Reports (markJson asFloat permitNullUpdates node)
  | .null => fun f _ => .refl f
  | .array nodes => fun f hunchanged => by
    have hmarks := markJsonElements_reports nodes
    rw [markJson] at hunchanged ⊢
    cases f with
    | leaf => exact markLeaf_reports hunchanged
    | array => exact .array (markArray_same hmarks hunchanged)
    | object => exact .refl _
    | union =>
      dsimp only at hunchanged ⊢
      split at hunchanged
      · rename_i mark hvisits
        exact markUnion_reports (hmarks mark (hvisits ▸ by simp)) hunchanged
      · exact .refl _
    | tuple updated values =>
      dsimp only at hunchanged ⊢
      split
      · rename_i hlength
        rw [if_pos hlength] at hunchanged
        rw [← markJsonElements_length] at hlength
        exact .tuple (markElements_same hmarks hlength hunchanged)
      · exact .refl _
  | .object nodes => fun f hunchanged => by
    have hmarks := markJsonMembers_reports nodes
    rw [markJson] at hunchanged ⊢
    cases f with
    | leaf => exact markLeaf_reports hunchanged
    | object => exact .object (markMembers_same hmarks hunchanged)
    | _ => exact .refl _
  | .bool value => markScalar_reports (.bool value)
  | .int value => markScalar_reports (.int value)
  | .float bits => markScalar_reports (.float bits)
  | .string value => markScalar_reports (.string value)

theorem markJsonElements_reports : (nodes : List Json) →
    ∀ mark ∈ markJsonElements asFloat permitNullUpdates nodes, Reports mark
  | [] => fun mark hmark => by cases hmark
  | node :: rest => by
    rw [markJsonElements, List.forall_mem_cons]
    exact ⟨markJson_reports node, markJsonElements_reports rest⟩

theorem markJsonMembers_reports : (nodes : List (String × Json)) →
    ∀ m ∈ markJsonMembers asFloat permitNullUpdates nodes, Reports m.2
  | [] => fun m hm => by cases hm
  | (key, node) :: rest => by
    rw [markJsonMembers, List.forall_mem_cons]
    exact ⟨markJson_reports node, markJsonMembers_reports rest⟩

end

theorem markJsonRoot_reports (node : Json) :
    Reports (markJsonRoot asFloat permitNullUpdates node) := by
  intro f hunchanged
  rw [markJsonRoot.eq_def] at hunchanged ⊢
  split at hunchanged
  · rename_i updated key value
    dsimp only at hunchanged ⊢
    split at hunchanged
    · exact .refl _
    · split at hunchanged
      · rename_i hinferred
        rw [if_pos hinferred]
        have hvalue := Same.markChild (markJson_reports node) hunchanged
        apply Same.object
        constructor
        · rw [memberFlags_cons, memberFlags_cons, hvalue.flags_eq]
        · rw [List.map_singleton, List.map_singleton, hvalue.value_eq]
      · rename_i hinferred
        rw [if_neg hinferred]
        exact markJson_reports node hunchanged
  · exact markJson_reports node hunchanged

end

section

theorem markUpdateLeaf_reports (update : ConfUpdate) : Reports (markUpdateLeaf update) := by
  intro f hunchanged
  cases f with
  | leaf updated value =>
    rw [markUpdateLeaf] at hunchanged ⊢
    split at hunchanged
    · rename_i c hc
      exact .leaf (fromUpdateLeaf_schema hc).2 hunchanged
    · exact .refl _
  | _ => exact .refl _

theorem markUpdateElements_length (updates : List ConfUpdate) :
    (markUpdateElements updates).length = updates.length := by
  induction updates with
  | nil => rfl
  | cons update rest ih => rw [markUpdateElements, List.length_cons, List.length_cons, ih]

mutual

theorem markUpdate_reports : (update : ConfUpdate) → Reports (markUpdate update)
  | .null => fun f _ => .refl f
  | .array updates => fun f hunchanged => by
    have hmarks := markUpdateElements_reports updates
    rw [markUpdate] at hunchanged ⊢
    cases f with
    | array => exact .array (markArray_same hmarks hunchanged)
    | tuple updated values =>
      dsimp only at hunchanged ⊢
      split
      · rename_i hlength
        rw [if_pos hlength] at hunchanged
        rw [← markUpdateElements_length] at hlength
        exact .tuple (markElements_same hmarks hlength hunchanged)
      · exact .refl _
    | _ => exact markUpdateLeaf_reports _ hunchanged
  | .object updates => fun f hunchanged => by
    have hmarks := markUpdateMembers_reports updates
    rw [markUpdate] at hunchanged ⊢
    cases f with
    | object =>
      dsimp only at hunchanged ⊢
      split
      · rename_i hlength
        rw [if_pos hlength] at hunchanged
        exact .object (markNamed_same hmarks hunchanged)
      · exact .refl _
    | _ => exact markUpdateLeaf_reports _ hunchanged
  | .union tag' update => fun f hunchanged => by
    have hmark := markUpdate_reports update
    rw [markUpdate] at hunchanged ⊢
    cases f with
    | union =>
      dsimp only at hunchanged ⊢
      rw [Bool.or_eq_false_iff, bne_eq_false_iff_eq] at hunchanged
      obtain ⟨rfl, hunchanged⟩ := hunchanged
      rw [markVariant, if_neg (not_not.mpr rfl)] at hunchanged ⊢
      exact .union (hmark hunchanged)
    | _ => exact markUpdateLeaf_reports _ hunchanged
  | .string value => markUpdateLeaf_reports (.string value)
  | .float value => markUpdateLeaf_reports (.float value)
  | .uint32 value => markUpdateLeaf_reports (.uint32 value)
  | .int32 value => markUpdateLeaf_reports (.int32 value)
  | .bool value => markUpdateLeaf_reports (.bool value)
  | .int64 value => markUpdateLeaf_reports (.int64 value)
  | .uint64 value => markUpdateLeaf_reports (.uint64 value)
  | .uint16 value => markUpdateLeaf_reports (.uint16 value)
  | .int16 value => markUpdateLeaf_reports (.int16 value)
  | .uint8 value => markUpdateLeaf_reports (.uint8 value)
  | .int8 value => markUpdateLeaf_reports (.int8 value)

theorem markUpdateElements_reports : (updates : List ConfUpdate) →
    ∀ mark ∈ markUpdateElements updates, Reports mark
  | [] => fun mark hmark => by cases hmark
  | update :: rest => by
    rw [markUpdateElements, List.forall_mem_cons]
    exact ⟨markUpdate_reports update, markUpdateElements_reports rest⟩

theorem markUpdateMembers_reports : (updates : List (String × ConfUpdate)) →
    ∀ m ∈ markUpdateMembers updates, Reports m.2
  | [] => fun m hm => by cases hm
  | (key, update) :: rest => by
    rw [markUpdateMembers, List.forall_mem_cons]
    exact ⟨markUpdate_reports update, markUpdateMembers_reports rest⟩

end

end

/-- An unreported change of a subtree is none of the tree, a reported one sets all flags. -/
theorem visitedCopy_announces {f subConfig : Flagged} {mark : FlagVisit} {path : List Key}
    (hmark : Reports mark) (hwalk : f.walk path = some subConfig) :
    f.Announces (f.visitedCopy mark path subConfig) := by
  rw [visitedCopy]
  cases hchanged : (mark subConfig).2 with
  | true => exact .of_all (flags_setUpdated_all _)
  | false =>
    have hsame := hmark hchanged
    have hkept : (mark subConfig).1.flags = subConfig.flags ||| 0 := by
      rw [hsame.flags_eq, UInt8.or_zero]
    apply Announces.of_same
    · rw [changedFlags, if_neg Bool.false_ne_true, flags_setUpdated, UInt8.or_zero]
      rcases writeAt_flags hwalk hkept with hflags | ⟨-, hflags⟩
      · rw [hflags, UInt8.or_zero]
      · exact hflags
    · rw [value, config_setUpdated]
      exact writeAt_value hwalk hsame.value_eq

end Flagged

end Esp32Firmware.Configuration
