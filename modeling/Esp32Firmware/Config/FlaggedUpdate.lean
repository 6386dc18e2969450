import Esp32Firmware.Config.Flagged

/-!
# Update flags of a JSON update

The visitor of a JSON node reports whether it changed the node below it. A value that is written
again is no change. The flags are those of the visitor that updates the values: where it accepts
a node, both lead to the same configuration.
-/

namespace Esp32Firmware.Configuration

open Config

/-- The updated node, and whether it was changed. -/
abbrev FlagVisit := Flagged → Flagged × Bool

def isNaN (bits : UInt32) : Bool := (0x7F800000 : UInt32) < bits &&& 0x7FFFFFFF

/-- The comparison of two floats. The zeros are equal, and a NaN is equal to nothing. -/
def isExactlyEqual (a b : UInt32) : Bool :=
  !isNaN a && !isNaN b && (a == b || a <<< 1 == 0 && b <<< 1 == 0)

/-- Whether a leaf was written another value. -/
def leafChanged : Config → Config → Bool
  | .string old _ _, .string new _ _ => old != new
  | .float old, .float new => !isExactlyEqual old new
  | .int old _ _, .int new _ _ => old != new
  | .uint old _ _, .uint new _ _ => old != new
  | .int52 old, .int52 new => old != new
  | .uint53 old, .uint53 new => old != new
  | .uint32 old, .uint32 new => old != new
  | .int32 old, .int32 new => old != new
  | .uint16 old, .uint16 new => old != new
  | .int16 old, .int16 new => old != new
  | .uint8 old _, .uint8 new _ => old != new
  | .int8 old, .int8 new => old != new
  | .bool old, .bool new => old != new
  | _, _ => false

namespace Flagged

/-- The flags of a child after its visitor reported back. -/
def markChild (result : Flagged × Bool) : Flagged :=
  result.1.setUpdated (changedFlags result.2)

def markElements : List FlagVisit → List Flagged → List Flagged × Bool
  | visit :: visits, value :: values =>
    let result := visit value
    let rest := markElements visits values
    (markChild result :: rest.1, result.2 || rest.2)
  | _, _ => ([], false)

/-- New elements are copies of the prototype. -/
def markArray (visits : List FlagVisit) (val : List Flagged) (prototype : Config) :
    List Flagged × Bool :=
  let result := markElements visits
    (val.take visits.length ++ List.replicate (visits.length - val.length) (fresh prototype))
  (result.1, visits.length != val.length || result.2)

def markMembers : List (String × FlagVisit) → List (String × Flagged) →
    List (String × Flagged) × Bool
  | _, [] => ([], false)
  | visits, (key, value) :: rest =>
    match visits.lookup key with
    | some visit =>
      let result := visit value
      let rest := markMembers (visits.eraseP fun m => key == m.1) rest
      ((key, markChild result) :: rest.1, result.2 || rest.2)
    | none =>
      let rest := markMembers visits rest
      ((key, value) :: rest.1, rest.2)

section

variable (asFloat : Json → UInt32) (permitNullUpdates : Bool)

def markLeaf (node : Json) (updated : UInt8) (value : Leaf) : Flagged × Bool :=
  match h : fromJsonLeaf asFloat node value with
  | .ok c => (.leaf updated ⟨c, (fromJsonLeaf_eq_ok value.2 h).1⟩, leafChanged value c)
  | .error _ => (.leaf updated value, false)

/-- The flags of the tag and the value under a tag. The value under another tag is a copy of its
prototype, all flags of both are set. -/
def variant (tag' tagUpdated tag : UInt8) (val : Flagged) (prototypes : List (UInt8 × Config)) :
    Option (UInt8 × Flagged) :=
  if tag' = tag then some (tagUpdated, val)
  else (prototypes.lookup tag').map fun config => (0xFF, fresh config)

def markUnion (first : Json) (visit : FlagVisit) (updated tagUpdated tag : UInt8) (val : Flagged)
    (prototypes : List (UInt8 × Config)) : Flagged × Bool :=
  match newTag permitNullUpdates tag first with
  | .error _ => (.union updated tagUpdated tag val prototypes, false)
  | .ok tag' =>
    match variant tag' tagUpdated tag val prototypes with
    | none => (.union updated tagUpdated tag val prototypes, false)
    | some (tagUpdated', val') =>
      let result := visit val'
      (.union updated tagUpdated' tag' (markChild result) prototypes, tag' != tag || result.2)

def markScalar (node : Json) : FlagVisit
  | .leaf updated value => markLeaf asFloat node updated value
  | f => (f, false)

mutual

def markJson : Json → FlagVisit
  | .null => fun f => (f, false)
  | .array nodes => fun f =>
    let visits := markJsonElements nodes
    match f with
    | .leaf updated value => markLeaf asFloat (.array nodes) updated value
    | .array updated val prototype minElements maxElements =>
      let result := markArray visits val prototype
      (.array updated result.1 prototype minElements maxElements, result.2)
    | .object .. => (f, false)
    | .union updated tagUpdated tag val prototypes =>
      match nodes, visits with
      | [first, _], [_, visit] =>
        markUnion permitNullUpdates first visit updated tagUpdated tag val prototypes
      | _, _ => (f, false)
    | .tuple updated values =>
      if nodes.length = values.length then
        let result := markElements visits values
        (.tuple updated result.1, result.2)
      else (f, false)
  | .object nodes => fun f =>
    let visits := markJsonMembers nodes
    match f with
    | .leaf updated value => markLeaf asFloat (.object nodes) updated value
    | .object updated members =>
      let result := markMembers visits members
      (.object updated result.1, result.2)
    | f => (f, false)
  | .bool value => markScalar asFloat (.bool value)
  | .int value => markScalar asFloat (.int value)
  | .float bits => markScalar asFloat (.float bits)
  | .string value => markScalar asFloat (.string value)

def markJsonElements : List Json → List FlagVisit
  | [] => []
  | node :: rest => markJson node :: markJsonElements rest

def markJsonMembers : List (String × Json) → List (String × FlagVisit)
  | [] => []
  | (key, node) :: rest => (key, markJson node) :: markJsonMembers rest

end

/-- The addressed node itself is not a child: who called the visitor sets its flags. -/
def markJsonRoot (node : Json) : FlagVisit
  | .object updated [(key, value)] =>
    match node with
    | .null => (.object updated [(key, value)], false)
    | _ =>
      if ¬node.isObject ∧ confirmKey ≠ key then
        let result := markJson asFloat permitNullUpdates node value
        (.object updated [(key, markChild result)], result.2)
      else markJson asFloat permitNullUpdates node (.object updated [(key, value)])
  | f => markJson asFloat permitNullUpdates node f

end

variable {asFloat : Json → UInt32} {forceSameKeys permitNullUpdates : Bool}

/-- Where the first visitor accepts a node, the second one leads to the same configuration. -/
def Erases (visit : Visit) (mark : FlagVisit) : Prop :=
  ∀ ⦃f : Flagged⦄ ⦃c : Config⦄, visit f.config = .ok c → (mark f).1.config = c

@[simp] theorem config_markChild (result : Flagged × Bool) :
    (markChild result).config = result.1.config :=
  config_setUpdated _ _

section

variable {visits : List Visit} {marks : List FlagVisit} (h : List.Forall₂ Erases visits marks)
include h

theorem markElements_config {i : Nat} {values : List Flagged}
    {values' : List Config} (hok : updateElements i visits (values.map config) = .ok values') :
    (markElements marks values).1.map config = values' := by
  induction h generalizing i values values' with
  | nil =>
    cases hok
    rfl
  | cons hvisit hrest ih =>
    cases values with
    | nil =>
      cases hok
      rfl
    | cons value rest =>
      obtain ⟨value', hvalue, hok⟩ := bind_eq_ok hok
      obtain ⟨rest', hrest', hok⟩ := bind_eq_ok hok
      cases hok
      rw [markElements, List.map_cons, config_markChild, ih hrest',
        hvisit (withPrefix_eq_ok.mp hvalue)]

theorem markArray_config {val : List Flagged} {prototype : Config}
    {val' : List Config} (hok : updateArray visits (val.map config) prototype = .ok val') :
    (markArray marks val prototype).1.map config = val' := by
  apply markElements_config h
  rw [List.map_append, List.map_take, List.map_replicate, config_fresh, ← h.length_eq]
  rw [updateArray, List.length_map] at hok
  exact hok

end

/-- A reported error is not lost. -/
theorem add_text_ne (errors : MemberErrors) {message : String} (h : message ≠ "") :
    (errors.add message).text ≠ "" := by
  rw [MemberErrors.add]
  split
  · intro hempty
    exact h (String.append_eq_empty_iff.mp hempty).2
  · rename_i hlong
    intro hempty
    rw [hempty] at hlong
    exact hlong (by decide)

variable {visit : Visit} {errors : MemberErrors} {updated : UInt8} {c : Config}

theorem updateMember_ok {key : String} {value : Config}
    (h : (updateMember key visit value errors).2.text = "") :
    visit value = .ok (updateMember key visit value errors).1 ∧ errors.text = "" := by
  rw [updateMember] at h ⊢
  split at h
  · rename_i value' hvalue
    rw [hvalue]
    exact ⟨rfl, h⟩
  · refine absurd h (add_text_ne errors fun hempty => ?_)
    exact absurd (String.append_eq_empty_iff.mp hempty).2 (by decide)

theorem updateMembers_text {visits : MemberVisits} {members : List (String × Config)}
    (h : (updateMembers forceSameKeys permitNullUpdates visits members errors).2.2.text = "") :
    errors.text = "" := by
  induction members generalizing visits errors with
  | nil => exact h
  | cons m rest ih =>
    obtain ⟨key, value⟩ := m
    rw [updateMembers.eq_def] at h
    dsimp only at h
    split at h
    · exact (updateMember_ok (ih h)).2
    · split at h
      · have hadd := (updateMember_ok (ih h)).2
        refine absurd hadd (add_text_ne errors fun hempty => ?_)
        exact absurd (String.append_eq_empty_iff.mp hempty).2 (by decide)
      · exact ih h

/-- The same keys lead to visitors for the values and for the flags. -/
abbrev ErasesMembers (visits : MemberVisits) (marks : List (String × FlagVisit)) : Prop :=
  List.Forall₂ (fun visit mark => visit.1 = mark.1 ∧ Erases visit.2 mark.2) visits marks

section

variable {visits : MemberVisits} {marks : List (String × FlagVisit)}
  (h : ErasesMembers visits marks)
include h

theorem ErasesMembers.lookup (key : String) :
    Option.Rel Erases (visits.lookup key) (marks.lookup key) := by
  induction h with
  | nil => exact .none
  | @cons visit mark visits marks hfirst hrest ih =>
    rw [List.lookup_cons, List.lookup_cons, hfirst.1]
    split
    · exact .some hfirst.2
    · exact ih

theorem ErasesMembers.erase (key : String) :
    ErasesMembers (removeMember key visits) (marks.eraseP fun m => key == m.1) := by
  induction h with
  | nil => exact .nil
  | @cons visit mark visits marks hfirst hrest ih =>
    rw [removeMember, List.eraseP_cons, List.eraseP_cons, hfirst.1]
    cases key == mark.1 with
    | true => exact hrest
    | false => exact .cons hfirst ih

theorem markMembers_config {members : List (String × Flagged)} {errors : MemberErrors}
    (hok : (updateMembers forceSameKeys permitNullUpdates visits (configMembers members)
      errors).2.2.text = "") :
    configMembers (markMembers marks members).1 =
      (updateMembers forceSameKeys permitNullUpdates visits (configMembers members) errors).1 := by
  induction members generalizing visits marks errors with
  | nil => rfl
  | cons m rest ih =>
    obtain ⟨key, value⟩ := m
    rw [configMembers, updateMembers.eq_def] at hok ⊢
    rw [markMembers.eq_def]
    dsimp only at hok ⊢
    have hlookup := h.lookup key
    cases hvisit : visits.lookup key with
    | none =>
      rw [hvisit] at hok hlookup
      cases hmark : marks.lookup key with
      | some mark =>
        rw [hmark] at hlookup
        cases hlookup
      | none =>
        dsimp only at hok ⊢
        split at hok
        · have hadd := (updateMember_ok (updateMembers_text hok)).2
          refine absurd hadd (add_text_ne errors fun hempty => ?_)
          exact absurd (String.append_eq_empty_iff.mp hempty).2 (by decide)
        · rename_i hforce
          rw [if_neg hforce, configMembers, ih h hok]
    | some visit =>
      rw [hvisit] at hok hlookup
      cases hmark : marks.lookup key with
      | none =>
        rw [hmark] at hlookup
        cases hlookup
      | some mark =>
        rw [hmark] at hlookup
        cases hlookup with
        | some herases =>
          dsimp only at hok ⊢
          have hmember := (updateMember_ok (updateMembers_text hok)).1
          rw [configMembers, config_markChild, herases hmember, ih (h.erase key) hok]

end

theorem addUnknownKeys_text {visits : MemberVisits} (h : (addUnknownKeys visits errors).text = "") :
    errors.text = "" := by
  induction visits generalizing errors with
  | nil => exact h
  | cons m rest ih =>
    rw [addUnknownKeys, List.foldl_cons] at h
    refine absurd (ih h) (add_text_ne errors fun hempty => ?_)
    exact absurd (String.append_eq_empty_iff.mp hempty).2 (by decide)

theorem markObject_config {visits : MemberVisits} {marks : List (String × FlagVisit)}
    (h : ErasesMembers visits marks) {members : List (String × Flagged)}
    {members' : List (String × Config)}
    (hok : updateObject forceSameKeys permitNullUpdates visits (configMembers members) =
      .ok members') : configMembers (markMembers marks members).1 = members' := by
  rw [updateObject] at hok
  dsimp only at hok
  have htext : (updateMembers forceSameKeys permitNullUpdates visits (configMembers members)
      {}).2.2.text = "" := by
    by_contra hne
    have hpos : ∀ {text : String}, text ≠ "" → 0 < text.utf8ByteSize := fun hne =>
      Nat.pos_of_ne_zero fun hzero => hne (String.utf8ByteSize_eq_zero_iff.mp hzero)
    rw [if_pos] at hok
    · cases hok
    · apply hpos
      split
      · exact fun hempty => hne (addUnknownKeys_text hempty)
      · exact hne
  generalize (if forceSameKeys = true then _ else _ : MemberErrors) = errors at hok
  split at hok
  · cases hok
  · cases hok
    exact markMembers_config h htext

theorem markLeaf_config {node : Json} {value : Leaf} (h : fromJsonLeaf asFloat node value = .ok c) :
    (markLeaf asFloat node updated value).1.config = c := by
  rw [markLeaf]
  split
  · rename_i c' hc'
    rw [h] at hc'
    cases hc'
    rfl
  · rename_i message hmessage
    rw [h] at hmessage
    cases hmessage

theorem markUnion_config {first : Json} {mark : FlagVisit} (h : Erases visit mark)
    {tagUpdated tag : UInt8} {val : Flagged} {prototypes : List (UInt8 × Config)}
    (hok : updateUnion permitNullUpdates first visit tag val.config prototypes = .ok c) :
    (markUnion permitNullUpdates first mark updated tagUpdated tag val prototypes).1.config = c := by
  obtain ⟨tag', htag', hok⟩ := bind_eq_ok hok
  obtain ⟨val', hval', hok⟩ := bind_eq_ok hok
  obtain ⟨val'', hvisited, hok⟩ := bind_eq_ok hok
  cases hok
  rw [markUnion, htag']
  dsimp only
  by_cases hsame : tag' = tag
  · rw [if_neg (not_not.mpr hsame)] at hval'
    cases hval'
    rw [variant, if_pos hsame]
    dsimp only
    rw [config, config_markChild, h hvisited]
  · rw [if_pos hsame, changeUnionVariant] at hval'
    cases hlookup : prototypes.lookup tag' with
    | none =>
      rw [hlookup] at hval'
      cases hval'
    | some prototype =>
      rw [hlookup] at hval'
      cases hval'
      rw [variant, if_neg hsame, hlookup, Option.map_some]
      dsimp only
      have hvisited' : visit (fresh val').config = .ok val'' := by rwa [config_fresh]
      rw [config, config_markChild, h hvisited']

theorem markScalar_config (node : Json) :
    Erases (fromJsonScalar asFloat node) (markScalar asFloat node) := by
  intro f c hok
  cases f with
  | leaf updated value =>
    obtain ⟨value, hleaf⟩ := value
    rw [markScalar]
    apply markLeaf_config
    cases value with
    | object | array | union | tuple => cases hleaf
    | _ => exact hok
  | array | object | union | tuple => cases hok

mutual

/-- The flags are those of the visitor that updates the values. -/
theorem markJson_config : (node : Json) →
    Erases (fromJson asFloat forceSameKeys permitNullUpdates node)
      (markJson asFloat permitNullUpdates node)
  | .null => fun f c hok => (fromNull_eq_ok hok).symm
  | .array nodes => fun f c hok => by
    have hvisits := markJsonElements_config nodes
    rw [fromJson] at hok
    rw [markJson]
    cases f with
    | leaf updated value =>
      obtain ⟨value, hleaf⟩ := value
      apply markLeaf_config
      cases value with
      | object | array | union | tuple => cases hleaf
      | _ => exact hok
    | array updated val prototype minElements maxElements =>
      obtain ⟨val', hval', hok⟩ := bind_eq_ok hok
      cases hok
      rw [configElements_eq_map] at hval'
      dsimp only
      rw [config, configElements_eq_map, markArray_config hvisits hval']
    | object => cases hok
    | union updated tagUpdated tag val prototypes =>
      dsimp only [config] at hok ⊢
      match nodes, hvisits, hok with
      | [first, node], hvisits, hok =>
        cases hvisits with
        | cons hfirst hrest =>
          cases hrest with
          | cons hnode hnil => exact markUnion_config hnode hok
      | [], _, hok => cases hok
      | [_], _, hok => cases hok
      | _ :: _ :: _ :: _, _, hok => cases hok
    | tuple updated values =>
      dsimp only [config] at hok ⊢
      rw [configElements_eq_map, List.length_map] at hok
      split at hok
      · rename_i hlength
        obtain ⟨values', hvalues', hok⟩ := bind_eq_ok hok
        cases hok
        rw [if_pos hlength]
        dsimp only
        rw [config, configElements_eq_map, markElements_config hvisits hvalues']
      · cases hok
  | .object nodes => fun f c hok => by
    have hvisits := markJsonMembers_config nodes
    rw [fromJson] at hok
    rw [markJson]
    cases f with
    | leaf updated value =>
      obtain ⟨value, hleaf⟩ := value
      apply markLeaf_config
      cases value with
      | object | array | union | tuple => cases hleaf
      | _ => exact hok
    | object updated members =>
      obtain ⟨members', hmembers', hok⟩ := bind_eq_ok hok
      cases hok
      dsimp only
      rw [config, markObject_config hvisits hmembers']
    | array | union | tuple => cases hok
  | .bool value => markScalar_config (.bool value)
  | .int value => markScalar_config (.int value)
  | .float bits => markScalar_config (.float bits)
  | .string value => markScalar_config (.string value)

theorem markJsonElements_config : (nodes : List Json) →
    List.Forall₂ Erases (fromJsonElements asFloat forceSameKeys permitNullUpdates nodes)
      (markJsonElements asFloat permitNullUpdates nodes)
  | [] => .nil
  | node :: rest => by
    rw [fromJsonElements, markJsonElements]
    exact .cons (markJson_config node) (markJsonElements_config rest)

theorem markJsonMembers_config : (nodes : List (String × Json)) →
    ErasesMembers (fromJsonMembers asFloat forceSameKeys permitNullUpdates nodes)
      (markJsonMembers asFloat permitNullUpdates nodes)
  | [] => .nil
  | (key, node) :: rest => by
    rw [fromJsonMembers, markJsonMembers]
    exact .cons ⟨rfl, markJson_config node⟩ (markJsonMembers_config rest)

end

end Flagged

end Esp32Firmware.Configuration
