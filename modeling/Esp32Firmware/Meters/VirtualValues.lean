import Esp32Firmware.Meters.FilterProgram

/-!
# Virtual import and export values

A difference of import and export whose parts no meter value holds is split into them when they
are read: the IDs of the parts are appended to the declared ones, with the position of the
difference and the direction.

## Implementation notes

The table of differences is the one that is generated from the list of value IDs. All its
differences have one of the three directions that are asked for. How fresh a value is is left out.
-/

namespace Esp32Firmware.Meters

open Binary32

section

/-- A difference and its parts. There is no ID for some of them. -/
structure ImExDiffMapping where
  imexdiff : MeterValueID
  im : Option MeterValueID
  ex : Option MeterValueID
  deriving DecidableEq

open MeterValueID in
def meterValueImexdiffMappings : List ImExDiffMapping :=
  [⟨currentL1ImExDiff, some ⟨11⟩, some ⟨12⟩⟩,
    ⟨currentL2ImExDiff, some ⟨15⟩, some ⟨16⟩⟩,
    ⟨currentL3ImExDiff, some ⟨19⟩, some ⟨20⟩⟩,
    ⟨⟨26⟩, some ⟨23⟩, some ⟨24⟩⟩, -- CurrentNImExDiff
    ⟨⟨30⟩, some ⟨27⟩, some ⟨28⟩⟩, -- CurrentLAvgImExDiff
    ⟨⟨34⟩, some ⟨31⟩, some ⟨32⟩⟩, -- CurrentLSumImExDiff
    ⟨⟨392⟩, some ⟨389⟩, some ⟨390⟩⟩, -- CurrentDCImExDiff
    ⟨⟨396⟩, some ⟨393⟩, some ⟨394⟩⟩, -- CurrentDCChaDisDiff
    ⟨powerActiveL1ImExDiff, some powerActiveL1Import, some powerActiveL1Export⟩,
    ⟨powerActiveL2ImExDiff, some powerActiveL2Import, some powerActiveL2Export⟩,
    ⟨powerActiveL3ImExDiff, some powerActiveL3Import, some powerActiveL3Export⟩,
    ⟨⟨66⟩, some ⟨63⟩, some ⟨64⟩⟩, -- PowerActiveLAvgImExDiff
    ⟨powerActiveLSumImExDiff, some ⟨71⟩, some ⟨72⟩⟩,
    ⟨⟨83⟩, some ⟨80⟩, some ⟨81⟩⟩, -- PowerReactiveL1IndCapDiff
    ⟨⟨91⟩, some ⟨88⟩, some ⟨89⟩⟩, -- PowerReactiveL2IndCapDiff
    ⟨⟨99⟩, some ⟨96⟩, some ⟨97⟩⟩, -- PowerReactiveL3IndCapDiff
    ⟨⟨107⟩, some ⟨104⟩, some ⟨105⟩⟩, -- PowerReactiveLAvgIndCapDiff
    ⟨⟨115⟩, some ⟨112⟩, some ⟨113⟩⟩, -- PowerReactiveLSumIndCapDiff
    ⟨⟨123⟩, some ⟨120⟩, some ⟨121⟩⟩, -- PowerApparentL1ImExDiff
    ⟨⟨131⟩, some ⟨128⟩, some ⟨129⟩⟩, -- PowerApparentL2ImExDiff
    ⟨⟨139⟩, some ⟨136⟩, some ⟨137⟩⟩, -- PowerApparentL3ImExDiff
    ⟨⟨147⟩, some ⟨144⟩, some ⟨145⟩⟩, -- PowerApparentLAvgImExDiff
    ⟨⟨155⟩, some ⟨152⟩, some ⟨153⟩⟩, -- PowerApparentLSumImExDiff
    ⟨⟨400⟩, some ⟨397⟩, some ⟨398⟩⟩, -- PowerDCImExDiff
    ⟨⟨404⟩, some ⟨401⟩, some ⟨402⟩⟩, -- PowerDCChaDisDiff
    ⟨powerPVSumImExDiff, none, some powerPVSumExport⟩]

def mvidFindImexdiffMapping (needle : MeterValueID) : Option ImExDiffMapping :=
  meterValueImexdiffMappings.find? fun mapping => mapping.imexdiff = needle

end

section

inductive ExtraValueDirection
  | positive
  | negative
  deriving DecidableEq

structure ExtraValueId where
  valueId : MeterValueID
  sourceIndex : ℕ
  direction : ExtraValueDirection
  deriving DecidableEq

/-- The entry for a part, unless there is no ID for it or its value is declared. -/
def extraPart (valueIds : List MeterValueID) (sourceIndex : ℕ) (direction : ExtraValueDirection) :
    Option MeterValueID → List ExtraValueId
  | none => []
  | some id => if valueIds.contains id then [] else [⟨id, sourceIndex, direction⟩]

def extraParts (valueIds : List MeterValueID) (i : ℕ) (valueId : MeterValueID) :
    List ExtraValueId :=
  match mvidFindImexdiffMapping valueId with
  | none => []
  | some mapping =>
    extraPart valueIds i .positive mapping.im ++ extraPart valueIds i .negative mapping.ex

/-- The entries for the values from a position on. -/
def generateExtraValueIdsFrom (valueIds : List MeterValueID) :
    ℕ → List MeterValueID → List ExtraValueId
  | _, [] => []
  | i, valueId :: rest =>
    extraParts valueIds i valueId ++ generateExtraValueIdsFrom valueIds (i + 1) rest

def generateExtraValueIds (valueIds : List MeterValueID) : List ExtraValueId :=
  generateExtraValueIdsFrom valueIds 0 valueIds

/-- `get_value_ids_extended` with an array of some length. -/
def getValueIdsExtended (valueIds : List MeterValueID) (length : ℕ) : List MeterValueID :=
  valueIds.take length ++ ((generateExtraValueIds valueIds).map ExtraValueId.valueId).take
      (length - (valueIds.take length).length)

/-- The length that is reported when there is no array. -/
def valueIdsExtendedLength (valueIds : List MeterValueID) : ℕ :=
  valueIds.length + (generateExtraValueIds valueIds).length

def getExtendedValue (values : ℕ → Value) (extraValue : ExtraValueId) : Value :=
  let baseValue := values extraValue.sourceIndex
  match extraValue.direction with
  | .positive => if Float32.Model.ofInt 0 < baseValue then baseValue else Float32.Model.ofInt 0
  | .negative => if baseValue < Float32.Model.ofInt 0 then baseValue else Float32.Model.ofInt 0

/-- The index of an ID as `fill_index_cache` finds it, once the entries are generated. -/
def fillIndex (valueIds : List MeterValueID) (needle : MeterValueID) : Option ℕ :=
  match metersFindIdIndex valueIds needle with
  | some i => some i
  | none =>
    (metersFindIdIndex ((generateExtraValueIds valueIds).map ExtraValueId.valueId) needle).map
      (· + valueIds.length)

/-- `get_value_by_index`; `none` where a value is unavailable. -/
def getValueByIndex (slot : MeterSlot) (index : ℕ) : Option Value :=
  if index < slot.valueIds.length then some (slot.values index)
  else
    (generateExtraValueIds slot.valueIds)[index - slot.valueIds.length]?.map
      (getExtendedValue slot.values)

/-- The values that `get_values_with_cache` writes, and whether it came to the end of the cache. -/
def getValuesWithCache (slot : MeterSlot) : List (Option ℕ) → List Value × Bool
  | [] => ([], true)
  | none :: rest =>
    let (values, available) := getValuesWithCache slot rest
    (nan :: values, available)
  | some index :: rest =>
    match getValueByIndex slot index with
    | some value =>
      let (values, available) := getValuesWithCache slot rest
      (value :: values, available)
    | none => ([nan], false)

end

section

variable {valueIds : List MeterValueID} {m m' : ImExDiffMapping} {p : MeterValueID}
  {d d' : ExtraValueDirection} {i : ℕ}

def ImExDiffMapping.part (m : ImExDiffMapping) : ExtraValueDirection → Option MeterValueID
  | .positive => m.im
  | .negative => m.ex

theorem mvidFind_of_mem :
    ∀ m ∈ meterValueImexdiffMappings, mvidFindImexdiffMapping m.imexdiff = some m := by
  decide

theorem parts_nodup :
    (meterValueImexdiffMappings.flatMap fun m => m.im.toList ++ m.ex.toList).Nodup := by
  decide

theorem mem_parts (hp : m.part d = some p) : p ∈ m.im.toList ++ m.ex.toList := by
  cases d with
  | positive => exact List.mem_append_left _ (Option.mem_toList.mpr hp)
  | negative => exact List.mem_append_right _ (Option.mem_toList.mpr hp)

/-- No ID is a part of two differences, nor both parts of one. -/
theorem part_unique (hm : m ∈ meterValueImexdiffMappings)
    (hm' : m' ∈ meterValueImexdiffMappings) (hp : m.part d = some p)
    (hp' : m'.part d' = some p) : m = m' ∧ d = d' := by
  obtain ⟨hparts, hdisjoint⟩ := List.nodup_flatMap.mp parts_nodup
  have hsymm : Std.Symm (Function.onFun List.Disjoint
      fun m : ImExDiffMapping => m.im.toList ++ m.ex.toList) := ⟨fun _ _ h => h.symm⟩
  have hsame : m = m' := by
    by_contra hne
    exact hdisjoint.forall hm hm' hne (mem_parts hp) (mem_parts hp')
  subst hsame
  have hapart := List.disjoint_of_nodup_append (hparts m hm)
  refine ⟨rfl, ?_⟩
  cases d <;> cases d'
  · rfl
  · exact (hapart (Option.mem_toList.mpr hp) (Option.mem_toList.mpr hp')).elim
  · exact (hapart (Option.mem_toList.mpr hp') (Option.mem_toList.mpr hp)).elim
  · rfl

variable {valueId : MeterValueID} {o : Option MeterValueID} {e : ExtraValueId}

theorem mem_of_mvidFind (h : mvidFindImexdiffMapping valueId = some m) :
    m ∈ meterValueImexdiffMappings ∧ m.imexdiff = valueId := by
  rw [mvidFindImexdiffMapping] at h
  exact ⟨List.mem_of_find?_eq_some h, by simpa using List.find?_some h⟩

theorem extraParts_eq (h : mvidFindImexdiffMapping valueId = some m) :
    extraParts valueIds i valueId =
      extraPart valueIds i .positive m.im ++ extraPart valueIds i .negative m.ex := by
  rw [extraParts, h]

theorem mem_extraPart :
    e ∈ extraPart valueIds i d o ↔
      o = some e.valueId ∧ e.valueId ∉ valueIds ∧ e.sourceIndex = i ∧ e.direction = d := by
  cases o with
  | none => simp [extraPart]
  | some id =>
    obtain ⟨valueId, sourceIndex, direction⟩ := e
    by_cases h : id ∈ valueIds
    · simp [extraPart, h]
      rintro rfl hnot
      exact absurd h hnot
    · simp [extraPart, h]
      constructor
      · rintro ⟨rfl, rfl, rfl⟩
        exact ⟨rfl, h, rfl, rfl⟩
      · rintro ⟨rfl, -, rfl, rfl⟩
        exact ⟨rfl, rfl, rfl⟩

/-- What an entry says. -/
theorem mem_extraParts (h : e ∈ extraParts valueIds i valueId) :
    ∃ m ∈ meterValueImexdiffMappings, m.imexdiff = valueId ∧
      m.part e.direction = some e.valueId ∧ e.sourceIndex = i := by
  cases hfind : mvidFindImexdiffMapping valueId with
  | none => rw [extraParts, hfind] at h; cases h
  | some m =>
    obtain ⟨hm, himexdiff⟩ := mem_of_mvidFind hfind
    refine ⟨m, hm, himexdiff, ?_⟩
    rw [extraParts_eq hfind, List.mem_append, mem_extraPart, mem_extraPart] at h
    rcases h with ⟨hpart, -, hindex, hdirection⟩ | ⟨hpart, -, hindex, hdirection⟩
    · rw [hdirection]
      exact ⟨hpart, hindex⟩
    · rw [hdirection]
      exact ⟨hpart, hindex⟩

/-- An entry for a part leads to its difference. -/
theorem source_of_entry (hm : m ∈ meterValueImexdiffMappings) (hp : m.part d = some p)
    {rest : List MeterValueID} (he : e ∈ generateExtraValueIdsFrom valueIds i rest)
    (hvalueId : e.valueId = p) :
    e.direction = d ∧ ∃ k, e.sourceIndex = i + k ∧ rest[k]? = some m.imexdiff := by
  induction rest generalizing i with
  | nil => cases he
  | cons valueId rest ih =>
    rcases List.mem_append.mp he with he | he
    · obtain ⟨m', hm', himexdiff, hpart, hindex⟩ := mem_extraParts he
      rw [hvalueId] at hpart
      obtain ⟨rfl, rfl⟩ := part_unique hm hm' hp hpart
      exact ⟨rfl, 0, hindex, by rw [himexdiff]; rfl⟩
    · obtain ⟨hdirection, k, hindex, hget⟩ := ih he
      exact ⟨hdirection, k + 1, by omega, hget⟩

theorem count_extraPart (hp : p ∉ valueIds) :
    ((extraPart valueIds i d o).map ExtraValueId.valueId).count p =
      if o = some p then 1 else 0 := by
  cases o with
  | none => rfl
  | some id =>
    by_cases h : id = p
    · subst h
      simp [extraPart, hp]
    · rw [if_neg (by simpa using h), List.count_eq_zero]
      intro hmem
      obtain ⟨e, he, hvalueId⟩ := List.mem_map.mp hmem
      have hid := (mem_extraPart.mp he).1
      rw [hvalueId] at hid
      exact h (Option.some.inj hid)

/-- A part that is not declared has as many entries as its difference is declared. -/
theorem count_generate (hm : m ∈ meterValueImexdiffMappings) (hp : m.part d = some p)
    (hnot : p ∉ valueIds) (rest : List MeterValueID) :
    ((generateExtraValueIdsFrom valueIds i rest).map ExtraValueId.valueId).count p =
      rest.count m.imexdiff := by
  induction rest generalizing i with
  | nil => rfl
  | cons valueId rest ih =>
    rw [generateExtraValueIdsFrom, List.map_append, List.count_append, ih, List.count_cons,
      Nat.add_comm]
    congr 1
    by_cases h : valueId = m.imexdiff
    · subst h
      rw [extraParts_eq (mvidFind_of_mem m hm), List.map_append, List.count_append,
        count_extraPart hnot, count_extraPart hnot, if_pos (beq_self_eq_true _)]
      cases d with
      | positive =>
        have him : m.im = some p := hp
        have hex : m.ex ≠ some p := fun hex => by
          have hex' : m.part .negative = some p := hex
          cases (part_unique hm hm hp hex').2
        rw [if_pos him, if_neg hex]
      | negative =>
        have hex : m.ex = some p := hp
        have him : m.im ≠ some p := fun him => by
          have him' : m.part .positive = some p := him
          cases (part_unique hm hm hp him').2
        rw [if_neg him, if_pos hex]
    · rw [if_neg (by simpa using h), List.count_eq_zero]
      intro hmem
      obtain ⟨e, he, hvalueId⟩ := List.mem_map.mp hmem
      obtain ⟨m', hm', himexdiff, hpart, -⟩ := mem_extraParts he
      rw [hvalueId] at hpart
      rw [(part_unique hm hm' hp hpart).1] at h
      exact h himexdiff.symm

end

variable {slot : MeterSlot} {m : ImExDiffMapping} {i : ℕ} {v : Value}

/-- What is read of an ID by its index. -/
def readPart (slot : MeterSlot) (id : MeterValueID) : Option Value :=
  (fillIndex slot.valueIds id).bind (getValueByIndex slot)

/-- The extended list has one entry for each part, and all accessors read parts of at least zero
whose difference is the value. -/
def ConsistentParts (slot : MeterSlot) (m : ImExDiffMapping) (v : Value) : Prop :=
  ∃ im ex, m.im = some im ∧ m.ex = some ex ∧ (∀ id ∈ [im, ex], (getValueIdsExtended slot.valueIds
      (valueIdsExtendedLength slot.valueIds)).count id = 1) ∧
    ∃ imValue exValue, readPart slot im = some imValue ∧ readPart slot ex = some exValue ∧
      getValuesWithCache slot [fillIndex slot.valueIds im, fillIndex slot.valueIds ex] =
        ([imValue, exValue], true) ∧
      (imValue - exValue == v) = true ∧
        Float32.Model.ofInt 0 ≤ imValue ∧ Float32.Model.ofInt 0 ≤ exValue

/-- The value of an entry for a difference. -/
def partValue (d : ExtraValueDirection) (v : Value) : Value :=
  getExtendedValue (fun _ => v) ⟨⟨0⟩, 0, d⟩

theorem getExtendedValue_eq (values : ℕ → Value) (e : ExtraValueId) :
    getExtendedValue values e = partValue e.direction (values e.sourceIndex) := by
  obtain ⟨valueId, sourceIndex, direction⟩ := e
  cases direction <;> rfl

/-- What the import entry has more than the export entry is the value, and both are at least
zero, exactly if the value is. -/
theorem partValue_iff : (partValue .positive v - partValue .negative v == v) = true ∧
      Float32.Model.ofInt 0 ≤ partValue .positive v ∧
      Float32.Model.ofInt 0 ≤ partValue .negative v ↔
    Float32.Model.ofInt 0 ≤ v := by
  have hpositive : partValue .positive v =
      if Float32.Model.ofInt 0 < v then v else Float32.Model.ofInt 0 := rfl
  have hnegative : partValue .negative v =
      if v < Float32.Model.ofInt 0 then v else Float32.Model.ofInt 0 := rfl
  have hzero : Float32.Model.ofInt 0 ≤ Float32.Model.ofInt 0 := by decide
  rw [hpositive, hnegative]
  by_cases hlt : v < Float32.Model.ofInt 0
  · -- The export entry is the value itself.
    rw [if_pos hlt]
    exact ⟨fun h => h.2.2, fun h => absurd h (lt_zero_iff.mp hlt).2⟩
  · rw [if_neg hlt, sub_ofInt_zero]
    by_cases hgt : Float32.Model.ofInt 0 < v
    · rw [if_pos hgt]
      have hle : Float32.Model.ofInt 0 ≤ v := zero_le_iff.mpr (.inl hgt)
      exact ⟨fun _ => hle, fun _ => ⟨beq_self (isNaN_of_zero_le hle), hle, hzero⟩⟩
    · rw [if_neg hgt]
      constructor
      · intro h
        exact zero_le_iff.mpr (.inr h.1)
      · intro h
        rcases zero_le_iff.mp h with h | h
        · exact absurd h hgt
        · exact ⟨h, hzero, hzero⟩

theorem eq_of_count_one {ids : List MeterValueID} {id : MeterValueID} (h : ids.count id = 1)
    {j k : ℕ} (hj : ids[j]? = some id) (hk : ids[k]? = some id) : j = k := by
  induction ids generalizing j k with
  | nil => cases hj
  | cons first rest ih =>
    rw [List.count_cons] at h
    cases j with
    | zero =>
      cases k with
      | zero => rfl
      | succ k =>
        obtain rfl := Option.some.inj hj
        have hmem : first ∈ rest := List.mem_of_getElem? hk
        have hpos := List.count_pos_iff.mpr hmem
        rw [if_pos (beq_self_eq_true _)] at h
        omega
    | succ j =>
      have hmem : id ∈ rest := List.mem_of_getElem? hj
      have hpos := List.count_pos_iff.mpr hmem
      cases k with
      | zero =>
        obtain rfl := Option.some.inj hk
        rw [if_pos (beq_self_eq_true _)] at h
        omega
      | succ k =>
        have hrest : rest.count id = 1 := by
          split at h <;> omega
        exact congrArg Nat.succ (ih hrest hj hk)

section

variable {d : ExtraValueDirection} {p : MeterValueID} (hm : m ∈ meterValueImexdiffMappings)
  (hp : m.part d = some p) (hnot : p ∉ slot.valueIds)
include hm hp hnot

/-- The index of a part that is not declared leads to the value of its entry. -/
theorem readPart_eq (hcount : slot.valueIds.count m.imexdiff = 1)
    (hi : slot.valueIds[i]? = some m.imexdiff) :
    ∃ index, fillIndex slot.valueIds p = some index ∧
      getValueByIndex slot index = some (partValue d (slot.values i)) := by
  have hcount' := count_generate (i := 0) hm hp hnot slot.valueIds
  rw [hcount] at hcount'
  have hmem : p ∈ (generateExtraValueIds slot.valueIds).map ExtraValueId.valueId :=
    List.count_pos_iff.mp (by rw [generateExtraValueIds, hcount']; exact Nat.one_pos)
  cases hfind :
      metersFindIdIndex ((generateExtraValueIds slot.valueIds).map ExtraValueId.valueId) p with
  | none => exact absurd hmem (metersFindIdIndex_eq_none.mp hfind)
  | some j =>
    refine ⟨j + slot.valueIds.length, ?_, ?_⟩
    · rw [fillIndex, metersFindIdIndex_eq_none.mpr hnot, hfind]
      rfl
    · have hget := getElem?_of_metersFindIdIndex hfind
      rw [List.getElem?_map] at hget
      obtain ⟨e, he, hvalueId⟩ := Option.map_eq_some_iff.mp hget
      obtain ⟨hdirection, k, hindex, hsource⟩ :=
        source_of_entry hm hp (List.mem_of_getElem? he) hvalueId
      have hk : k = i := eq_of_count_one hcount hsource hi
      rw [getValueByIndex, if_neg (by omega), Nat.add_sub_cancel, he, Option.map_some,
        getExtendedValue_eq, hdirection, hindex, hk, Nat.zero_add]

theorem count_extended :
    (getValueIdsExtended slot.valueIds (valueIdsExtendedLength slot.valueIds)).count p =
      slot.valueIds.count m.imexdiff := by
  rw [getValueIdsExtended, valueIdsExtendedLength, List.take_of_length_le (Nat.le_add_right _ _),
    Nat.add_sub_cancel_left, List.take_of_length_le (Nat.le_of_eq (List.length_map _)),
    List.count_append, List.count_eq_zero.mpr hnot, Nat.zero_add]
  exact count_generate hm hp hnot slot.valueIds

end

/-- A difference whose parts are not declared is split into consistent parts exactly if there are
IDs for both, the difference is declared once and its value is at least zero. -/
theorem virtual_parts_consistent_iff (hm : m ∈ meterValueImexdiffMappings)
    (hi : slot.valueIds[i]? = some m.imexdiff)
    (hparts : ∀ d p, m.part d = some p → p ∉ slot.valueIds) :
    ConsistentParts slot m (slot.values i) ↔
      m.im.isSome = true ∧ m.ex.isSome = true ∧ slot.valueIds.count m.imexdiff = 1 ∧
        Float32.Model.ofInt 0 ≤ slot.values i := by
  have hread : ∀ {d p}, m.part d = some p → slot.valueIds.count m.imexdiff = 1 →
      ∃ index, fillIndex slot.valueIds p = some index ∧
        getValueByIndex slot index = some (partValue d (slot.values i)) :=
    fun hp hcount => readPart_eq hm hp (hparts _ _ hp) hcount hi
  constructor
  · rintro ⟨im, ex, him, hex, hentries, imValue, exValue, himValue, hexValue, -, hconsistent⟩
    have hcount : slot.valueIds.count m.imexdiff = 1 := by
      rw [← count_extended hm (show m.part .positive = some im from him) (hparts .positive im him)]
      exact hentries im List.mem_cons_self
    obtain ⟨imIndex, himIndex, himRead⟩ := hread (d := .positive) him hcount
    obtain ⟨exIndex, hexIndex, hexRead⟩ := hread (d := .negative) hex hcount
    rw [readPart, himIndex, Option.bind_some, himRead] at himValue
    rw [readPart, hexIndex, Option.bind_some, hexRead] at hexValue
    obtain rfl := Option.some.inj himValue
    obtain rfl := Option.some.inj hexValue
    exact ⟨by rw [him]; rfl, by rw [hex]; rfl, hcount, partValue_iff.mp hconsistent⟩
  · rintro ⟨him, hex, hcount, hvalue⟩
    obtain ⟨im, him⟩ := Option.isSome_iff_exists.mp him
    obtain ⟨ex, hex⟩ := Option.isSome_iff_exists.mp hex
    obtain ⟨imIndex, himIndex, himRead⟩ := hread (d := .positive) him hcount
    obtain ⟨exIndex, hexIndex, hexRead⟩ := hread (d := .negative) hex hcount
    refine ⟨im, ex, him, hex, ?_, partValue .positive (slot.values i),
      partValue .negative (slot.values i), ?_, ?_, ?_, partValue_iff.mpr hvalue⟩
    · intro id hid
      rcases List.mem_pair.mp hid with rfl | rfl
      · exact (count_extended hm (show m.part .positive = some id from him)
          (hparts .positive id him)).trans hcount
      · exact (count_extended hm (show m.part .negative = some id from hex)
          (hparts .negative id hex)).trans hcount
    · rw [readPart, himIndex, Option.bind_some, himRead]
    · rw [readPart, hexIndex, Option.bind_some, hexRead]
    · rw [himIndex, hexIndex, getValuesWithCache, himRead, getValuesWithCache, hexRead,
        getValuesWithCache]

/-- A meter that reports the power of all phases only. -/
def powerSlot (power : Value) : MeterSlot := ⟨[.powerActiveLSumImExDiff], fun _ => power, 1, []⟩

/-- The power of a meter while five watts are imported. -/
theorem import_parts_consistent :
    ConsistentParts (powerSlot (Float32.Model.ofInt 5))
      ⟨.powerActiveLSumImExDiff, some ⟨71⟩, some ⟨72⟩⟩ (Float32.Model.ofInt 5) := by
  have hparts : ∀ d p, ImExDiffMapping.part
      ⟨.powerActiveLSumImExDiff, some ⟨71⟩, some ⟨72⟩⟩ d = some p →
        p ∉ (powerSlot (Float32.Model.ofInt 5)).valueIds := by
    intro d p hp
    cases d with
    | positive | negative =>
      obtain rfl := Option.some.inj hp
      decide
  exact (@virtual_parts_consistent_iff (powerSlot (Float32.Model.ofInt 5)) _ 0 (by decide) rfl
    hparts).mpr ⟨rfl, rfl, by decide, by decide⟩

/-- While five watts are exported, the export part is below zero. -/
theorem export_part_negative :
    ¬ ConsistentParts (powerSlot (Float32.Model.ofInt (-5)))
      ⟨.powerActiveLSumImExDiff, some ⟨71⟩, some ⟨72⟩⟩
      (Float32.Model.ofInt (-5)) := by
  rintro ⟨im, ex, him, hex, -, imValue, exValue, -, hread, -, -, -, hvalue⟩
  obtain rfl := Option.some.inj hex
  have hpart : readPart (powerSlot (Float32.Model.ofInt (-5))) ⟨72⟩ =
      some (Float32.Model.ofInt (-5)) := rfl
  rw [hpart] at hread
  obtain rfl := Option.some.inj hread
  exact absurd hvalue (by decide)

end Esp32Firmware.Meters
