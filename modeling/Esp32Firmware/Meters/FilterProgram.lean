import Esp32Firmware.Meters.DerivedValues

/-!
# The program of filters that a declaration builds

The extended list of IDs starts with the declared ones and has no duplicates. The filters follow
each other behind the base values: each reads what its input IDs name, from the base values or from
the outputs of earlier filters, and each added value is written by one of them.

## Implementation notes

IDs that only the index caches name are given by their numbers.
-/

namespace Esp32Firmware.Meters

section

/-- `meters_find_id_index` with a list of IDs: the position of the first of them that is there. -/
def metersFindFirstIdIndex (ids priorities : List MeterValueID) : Option ℕ :=
  priorities.findSome? (metersFindIdIndex ids)

inductive IndexCache
  | power
  | energyImport
  | energyImexsum
  | energyExport
  | soc
  | currentL1
  | currentL2
  | currentL3

open MeterValueID in
/-- The IDs whose first present one is cached. -/
def IndexCache.priorities : IndexCache → List MeterValueID
  | power =>
    [powerActiveLSumImExDiff,
      ⟨400⟩, -- PowerDCImExDiff
      ⟨404⟩, -- PowerDCChaDisDiff
      powerPVSumImExDiff]
  | energyImport =>
    [⟨209⟩, -- EnergyActiveLSumImport
      ⟨405⟩, -- EnergyDCImport
      ⟨413⟩] -- EnergyDCCharge
  | energyImexsum =>
    [⟨213⟩, -- EnergyActiveLSumImExSum
      ⟨409⟩, -- EnergyDCImExSum
      ⟨417⟩] -- EnergyDCChaDisSum
  | energyExport =>
    [⟨211⟩, -- EnergyActiveLSumExport
      ⟨407⟩, -- EnergyDCExport
      ⟨415⟩, -- EnergyDCDischarge
      ⟨472⟩] -- EnergyPVSumExport
  | soc => [⟨387⟩] -- StateOfCharge
  | currentL1 => [currentL1ImExDiff]
  | currentL2 => [currentL2ImExDiff]
  | currentL3 => [currentL3ImExDiff]

/-- The caches of a slot without values are empty. -/
def initialIndexCaches : IndexCache → Option ℕ := fun _ => none

/-- The caches that `declare_value_ids` leaves. -/
def declareIndexCaches (capacity : ℕ) (slot : MeterSlot) (caches : IndexCache → Option ℕ)
    (newIds : List MeterValueID) : IndexCache → Option ℕ :=
  if slot.valueIds ≠ [] then caches
  else if newIds = [] then caches
  else fun cache =>
    metersFindFirstIdIndex (declareValueIds capacity slot newIds).valueIds cache.priorities

/-- The position of the first of some IDs, none if there is none of them. -/
def FirstPresent (ids priorities : List MeterValueID) : Option ℕ → Prop
  | none => ∀ id ∈ priorities, id ∉ ids
  | some pos => ∃ before id after, priorities = before ++ id :: after ∧
      (∀ x ∈ before, x ∉ ids) ∧ ids[pos]? = some id

variable {ids priorities : List MeterValueID} {vid : MeterValueID} {pos : ℕ}

theorem getElem?_of_metersFindIdIndex (h : metersFindIdIndex ids vid = some pos) :
    ids[pos]? = some vid := by
  rw [metersFindIdIndex, List.idxOf?, List.findIdx?_eq_some_iff_getElem] at h
  obtain ⟨hlt, hbeq, -⟩ := h
  rw [List.getElem?_eq_getElem hlt, eq_of_beq hbeq]

theorem firstPresent_metersFindFirstIdIndex :
    FirstPresent ids priorities (metersFindFirstIdIndex ids priorities) := by
  cases hfind : metersFindFirstIdIndex ids priorities with
  | none =>
    intro id hid
    rw [metersFindFirstIdIndex, List.findSome?_eq_none_iff] at hfind
    exact metersFindIdIndex_eq_none.mp (hfind id hid)
  | some pos =>
    rw [metersFindFirstIdIndex, List.findSome?_eq_some_iff] at hfind
    obtain ⟨before, id, after, hpriorities, hid, hbefore⟩ := hfind
    exact ⟨before, id, after, hpriorities,
      fun x hx => metersFindIdIndex_eq_none.mp (hbefore x hx), getElem?_of_metersFindIdIndex hid⟩

end

section

variable {t p : ℕ} {filters : List (ValueCombinerFilter × ValueCombinerFilterData)}

/-- The filter writes the value at a position. -/
def WritesTo (f : ValueCombinerFilter × ValueCombinerFilterData) (p : ℕ) : Prop :=
  f.2.outputPos ≤ p ∧ p < f.2.outputPos + (f.1.fn.cells f.2).length

variable {f : ValueCombinerFilter × ValueCombinerFilterData}

theorem Placed.outputPos_ge (h : Placed t filters) (hf : f ∈ filters) : t ≤ f.2.outputPos := by
  induction filters generalizing t with
  | nil => cases hf
  | cons first rest ih =>
    obtain ⟨hpos, -, hrest⟩ := h
    rcases List.mem_cons.mp hf with rfl | hf
    · exact Nat.le_of_eq hpos.symm
    · exact Nat.le_trans (Nat.le_add_right _ _) (ih hrest hf)

/-- Every position of an output is written by one filter. -/
theorem Placed.existsUnique (h : Placed t filters) (ht : t ≤ p)
    (hp : p < t + (filters.flatMap fun f => f.1.fn.cells f.2).length) :
    ∃! f, f ∈ filters ∧ WritesTo f p := by
  induction filters generalizing t with
  | nil =>
    rw [List.flatMap_nil, List.length_nil] at hp
    omega
  | cons first rest ih =>
    obtain ⟨hpos, -, hrest⟩ := h
    rw [List.flatMap_cons, List.length_append] at hp
    by_cases hfirst : p < t + (first.1.fn.cells first.2).length
    · refine ⟨first, ⟨List.mem_cons_self, by omega, by omega⟩, ?_⟩
      rintro g ⟨hg, hwrites⟩
      rcases List.mem_cons.mp hg with rfl | hg
      · rfl
      · have hge := hrest.outputPos_ge hg
        have hle := hwrites.1
        omega
    · obtain ⟨f, ⟨hf, hwrites⟩, hunique⟩ := ih hrest (by omega) (by omega)
      refine ⟨f, ⟨List.mem_cons_of_mem _ hf, hwrites⟩, ?_⟩
      rintro g ⟨hg, hwrites'⟩
      rcases List.mem_cons.mp hg with rfl | hg
      · have hlt := hwrites'.2
        omega
      · exact hunique g ⟨hg, hwrites'⟩

/-- What is written before the outputs of a filter is written by an earlier one. -/
theorem Placed.earlier (h : Placed t filters) {k : ℕ} (hf : filters[k]? = some f) (ht : t ≤ p)
    (hp : p < f.2.outputPos) : ∃ g ∈ filters.take k, WritesTo g p := by
  have hlt : k < filters.length := (List.getElem?_eq_some_iff.mp hf).1
  have hsplit : filters = filters.take k ++ f :: filters.drop (k + 1) := by
    rw [← List.getElem?_eq_some_iff.mp hf |>.2, List.cons_getElem_drop_succ, List.take_append_drop]
  rw [hsplit, placed_append] at h
  have hpos : f.2.outputPos = _ := h.2.1
  obtain ⟨g, hg, -⟩ := h.1.existsUnique ht (by omega)
  exact ⟨g, hg⟩

end

section

variable {capacity count : ℕ} {base ids : List MeterValueID} {d : Declaration}

/-- A filter reads what its input IDs name, and writes what its output IDs name. -/
structure Wired (ids : List MeterValueID) (f : ValueCombinerFilter × ValueCombinerFilterData) :
    Prop where
  reads : ∀ cell ∈ f.1.fn.cells f.2, ∀ p ∈ cell.inputs, p < f.2.outputPos ∧
    ∃ i id, p = f.2.input i ∧ f.1.inputIds[i]? = some id ∧ ids[p]? = some id
  writes : ∀ i < (f.1.fn.cells f.2).length, ∃ id, f.1.outputIds[i]? = some id ∧
    ids[f.2.outputPos + i]? = some id

theorem Wired.append {f : ValueCombinerFilter × ValueCombinerFilterData} (h : Wired ids f)
    (more : List MeterValueID) : Wired (ids ++ more) f := by
  have hkeep : ∀ {p : ℕ} {id : MeterValueID}, ids[p]? = some id → (ids ++ more)[p]? = some id := by
    intro p id hp
    rwa [List.getElem?_append_left (List.getElem?_eq_some_iff.mp hp).1]
  constructor
  · intro cell hcell p hp
    obtain ⟨hlt, i, id, hpos, hid, hids⟩ := h.reads cell hcell p hp
    exact ⟨hlt, i, id, hpos, hid, hkeep hids⟩
  · intro i hi
    obtain ⟨id, hid, hids⟩ := h.writes i hi
    exact ⟨id, hid, hkeep hids⟩

variable {m : InputMatch} {filter : ValueCombinerFilter}

/-- The positions that are found hold the input IDs. -/
theorem matchInputs_positions {param outputCount : ℕ} {found : List ℕ} {inputs : List MeterValueID}
    (hids : ids.length ≤ 256) (h : matchInputs ids param outputCount found inputs = some m) :
    ∃ positions : List ℕ, m.inputPos = found ++ positions ∧
      ∀ i p : ℕ, positions[i]? = some p → ∃ id, inputs[i]? = some id ∧ ids[p]? = some id := by
  induction inputs generalizing found with
  | nil =>
    obtain rfl := Option.some.inj h
    exact ⟨[], (List.append_nil _).symm, fun i p hp => by cases hp⟩
  | cons vid rest ih =>
    rw [matchInputs] at h
    cases hfind : metersFindIdIndex ids vid with
    | some pos =>
      rw [hfind] at h
      have hlt := metersFindIdIndex_lt hfind
      have hmod : pos % 256 = pos := Nat.mod_eq_of_lt (by omega)
      obtain ⟨positions, hpositions, hmatch⟩ := ih h
      refine ⟨pos :: positions, by rw [hpositions, hmod]; simp, ?_⟩
      intro i p hp
      cases i with
      | zero =>
        obtain rfl := Option.some.inj hp
        exact ⟨vid, rfl, getElem?_of_metersFindIdIndex hfind⟩
      | succ i => exact hmatch i p hp
    | none =>
      rw [hfind] at h
      refine ⟨[], ?_, fun i p hp => by cases hp⟩
      dsimp only at h
      split at h
      · split at h
        · cases h
        · obtain rfl := Option.some.inj h
          exact (List.append_nil _).symm
      · cases h

/-- A filter has only inputs that were matched. -/
theorem inputs_of_match (hfits : filter.Fits)
    (hmatch : matchInputs ids filter.param filter.outputIds.length [] filter.inputIds = some m)
    (outputPos : ℕ) :
    ∀ cell ∈ filter.fn.cells ⟨m.inputPos, outputPos, m.param⟩, ∀ p ∈ cell.inputs,
      ∃ i < m.inputPos.length, p = m.inputPos.getD i 0 := by
  obtain ⟨-, hcases⟩ := matchInputs_some hmatch (fun p hp => absurd hp List.not_mem_nil)
  rw [List.length_nil, Nat.zero_add] at hcases
  rw [ValueCombinerFilter.Fits] at hfits
  have hpairs : ∀ combine, m.inputPos.length = 2 * m.param →
      ∀ cell ∈ ValueCombinerFilterData.pairCells combine ⟨m.inputPos, outputPos, m.param⟩,
        ∀ p ∈ cell.inputs, ∃ i < m.inputPos.length, p = m.inputPos.getD i 0 := by
    intro combine hlength cell hcell p hp
    obtain ⟨i, hi, rfl⟩ := List.mem_map.mp hcell
    have hi : i < m.param := List.mem_range.mp hi
    rcases List.mem_pair.mp hp with rfl | rfl
    · exact ⟨2 * i, by omega, rfl⟩
    · exact ⟨2 * i + 1, by omega, rfl⟩
  intro cell hcell p hp
  cases hfn : filter.fn with
  | imEx2ImExDiff | sign2Sign =>
    rw [hfn] at hfits hcell
    obtain ⟨hparam, hinputs, houtputs⟩ : _ ∧ _ ∧ _ := hfits
    exact hpairs _ (by omega) cell hcell p hp
  | phase2Sum =>
    rw [hfn] at hfits hcell
    obtain ⟨hparam, hinputs, houtputs⟩ : _ ∧ _ ∧ _ := hfits
    obtain rfl := List.mem_singleton.mp hcell
    simp only [List.mem_cons, List.not_mem_nil, or_false] at hp
    rcases hp with rfl | rfl | rfl
    · exact ⟨0, by omega, rfl⟩
    · exact ⟨1, by omega, rfl⟩
    · exact ⟨2, by omega, rfl⟩
  | ex2ImExDiff =>
    rw [hfn] at hfits hcell
    obtain ⟨hparam, hinputs, houtputs⟩ : _ ∧ _ ∧ _ := hfits
    obtain rfl := List.mem_singleton.mp hcell
    obtain rfl := List.mem_singleton.mp hp
    exact ⟨0, by omega, rfl⟩

/-- A filter that applies is wired to the IDs with its outputs behind them. -/
theorem wired_of_match (hfits : filter.Fits) (hids : ids.length ≤ 256)
    (hmatch : matchInputs ids filter.param filter.outputIds.length [] filter.inputIds = some m) :
    Wired (ids ++ filter.outputIds.take m.outputCount)
      (filter, ⟨m.inputPos, ids.length, m.param⟩) := by
  constructor
  · intro cell hcell p hp
    obtain ⟨i, hi, rfl⟩ := inputs_of_match hfits hmatch ids.length cell hcell p hp
    obtain ⟨positions, hpositions, hnames⟩ := matchInputs_positions hids hmatch
    rw [List.nil_append] at hpositions
    obtain ⟨id, hid, hget⟩ := hnames i (m.inputPos.getD i 0) (by
      rw [← hpositions, List.getD_eq_getElem _ _ hi, List.getElem?_eq_getElem])
    have hlt := (List.getElem?_eq_some_iff.mp hget).1
    refine ⟨hlt, i, id, rfl, hid, ?_⟩
    rwa [List.getElem?_append_left hlt]
  · intro i hi
    have hlength := (cells_of_match hfits hmatch ids.length).2
    have hi' : i < (filter.outputIds.take m.outputCount).length := hlength ▸ hi
    refine ⟨(filter.outputIds.take m.outputCount)[i], ?_, ?_⟩
    · rw [List.getElem_take, ← List.getElem?_eq_getElem]
    · change (ids ++ _)[ids.length + i]? = _
      rw [List.getElem?_append_right (Nat.le_add_right _ _), Nat.add_sub_cancel_left,
        List.getElem?_eq_getElem hi']

/-- What holds of a declaration while the filters are tried. -/
structure Declaration.WellFormed (capacity : ℕ) (base : List MeterValueID) (d : Declaration) :
    Prop where
  fits : d.Fits base.length
  starts : base <+: d.1
  nodup : d.1.Nodup
  wired : ∀ f ∈ d.2, Wired d.1 f
  limit : base.length ≤ capacity → d.1.length ≤ capacity

theorem declareFilter_wellFormed (hcapacity : capacity ≤ 256) (hfilter : filter.Fits)
    (hnodup : filter.outputIds.Nodup) (h : d.WellFormed capacity base) :
    (declareFilter capacity d filter).WellFormed capacity base := by
  have hfits := declareFilter_fits hcapacity hfilter h.fits
  rw [declareFilter] at hfits ⊢
  cases houtputs : declareOutputs capacity d.1 0 filter.outputIds with
  | none => exact h
  | some count =>
    rw [houtputs] at hfits
    obtain ⟨hcount, hnew, hroom⟩ := declareOutputs_some houtputs
    have hroom := hroom hfilter.outputIds_ne_nil
    obtain rfl : count = filter.outputIds.length := by omega
    have hmod : d.1.length % 256 = d.1.length := by
      have hpos := List.length_pos_iff.mpr hfilter.outputIds_ne_nil
      exact Nat.mod_eq_of_lt (by omega)
    dsimp only at hfits ⊢
    cases hmatch : matchInputs d.1 filter.param filter.outputIds.length [] filter.inputIds with
    | none => exact h
    | some m =>
      rw [hmatch] at hfits
      constructor
      · exact hfits
      · exact h.starts.trans (List.prefix_append _ _)
      · rw [List.nodup_append]
        refine ⟨h.nodup, hnodup.sublist (List.take_sublist _ _), ?_⟩
        rintro id hid _ hid' rfl
        exact hnew id (List.mem_of_mem_take hid') hid
      · intro f hf
        rcases List.mem_append.mp hf with hf | hf
        · exact (h.wired f hf).append _
        · obtain rfl := List.mem_singleton.mp hf
          rw [hmod]
          exact wired_of_match hfilter (by omega) hmatch
      · intro hbase
        rw [List.length_append, List.length_take]
        omega

theorem declareFilters_wellFormed (hcapacity : capacity ≤ 256)
    {filters : List ValueCombinerFilter}
    (hfilters : ∀ filter ∈ filters, filter.Fits ∧ filter.outputIds.Nodup)
    (h : d.WellFormed capacity base) :
    (filters.foldl (declareFilter capacity) d).WellFormed capacity base := by
  induction filters generalizing d with
  | nil => exact h
  | cons filter rest ih =>
    obtain ⟨hfits, hnodup⟩ := hfilters filter List.mem_cons_self
    apply ih fun filter hfilter => hfilters filter (List.mem_cons_of_mem _ hfilter)
    exact declareFilter_wellFormed hcapacity hfits hnodup h

end

variable {base : List MeterValueID}

/-- What the declaration of base values leaves in a slot. -/
structure IsWellFormedProgram (capacity : ℕ) (base : List MeterValueID) (slot : MeterSlot)
    (caches : IndexCache → Option ℕ) : Prop where
  starts : base <+: slot.valueIds
  nodup : slot.valueIds.Nodup
  /-- No meter declares more values than there is room for. -/
  limit : base.length ≤ capacity → slot.valueIds.length ≤ capacity
  inputs : ∀ (k : ℕ) (f : ValueCombinerFilter × ValueCombinerFilterData),
    slot.filters[k]? = some f → ∀ cell ∈ f.1.fn.cells f.2, ∀ p ∈ cell.inputs,
      p < base.length ∨ ∃ g ∈ slot.filters.take k, WritesTo g p
  wired : ∀ f ∈ slot.filters, Wired slot.valueIds f
  written : ∀ p, base.length ≤ p → p < slot.valueIds.length → ∃! f, f ∈ slot.filters ∧ WritesTo f p
  caches : ∀ cache : IndexCache, FirstPresent slot.valueIds cache.priorities (caches cache)

theorem valueCombinerFilters_nodup : ∀ filter ∈ valueCombinerFilters, filter.outputIds.Nodup := by
  decide

/-- Every declaration that is well-formed gives a well-formed program. -/
theorem Declaration.WellFormed.program {capacity : ℕ} {d : Declaration}
    (h : d.WellFormed capacity base) (caches : IndexCache → Option ℕ)
    (hcaches : ∀ cache, FirstPresent d.1 cache.priorities (caches cache)) :
    IsWellFormedProgram capacity base ⟨d.1, fun _ => nan, base.length, d.2⟩ caches where
  starts := h.starts
  nodup := h.nodup
  limit := h.limit
  inputs := by
    intro k f hf cell hcell p hp
    rcases Nat.lt_or_ge p base.length with hlt | hge
    · exact .inl hlt
    · exact .inr (h.fits.1.earlier hf hge
        ((h.wired f (List.mem_of_getElem? hf)).reads cell hcell p hp).1)
  wired := h.wired
  written := by
    intro p hp hlt
    exact h.fits.1.existsUnique hp (h.fits.2 ▸ hlt)
  caches := hcaches

/-- For every list of distinct base values, the declaration leaves a well-formed program of
filters. -/
theorem declareValueIds_program {capacity : ℕ} (hcapacity : capacity ≤ 256)
    (hbase : base.Nodup) :
    IsWellFormedProgram capacity base (declareValueIds capacity .initial base)
      (declareIndexCaches capacity .initial initialIndexCaches base) := by
  have hnew : ¬ MeterSlot.initial.valueIds ≠ [] := not_not.mpr rfl
  rw [declareIndexCaches, if_neg hnew]
  have hstart : Declaration.WellFormed capacity base (base, []) :=
    ⟨⟨trivial, rfl⟩, List.prefix_rfl, hbase, List.forall_mem_nil _, id⟩
  by_cases hnil : base = []
  · -- Nothing is declared, and the slot stays as it is.
    subst hnil
    rw [if_pos rfl, declareValueIds, if_neg hnew, if_pos rfl]
    exact hstart.program initialIndexCaches fun _ _ _ => List.not_mem_nil
  · have hdeclared := declareFilters_wellFormed hcapacity
      (fun filter hfilter => ⟨valueCombinerFilters_fit filter hfilter,
        valueCombinerFilters_nodup filter hfilter⟩) hstart
    rw [if_neg hnil, declareValueIds, if_neg hnew, if_neg hnil]
    exact hdeclared.program _ fun _ => firstPresent_metersFindFirstIdIndex

/-- A meter with the imports and exports of two phases and the current of the first. -/
theorem two_phases_program :
    IsWellFormedProgram 96
      [.powerActiveL1Import, .powerActiveL1Export, .currentL1ImExSum, .powerActiveL2Import,
        .powerActiveL2Export]
      (declareValueIds 96 .initial
        [.powerActiveL1Import, .powerActiveL1Export, .currentL1ImExSum, .powerActiveL2Import,
          .powerActiveL2Export])
      (declareIndexCaches 96 .initial initialIndexCaches
        [.powerActiveL1Import, .powerActiveL1Export, .currentL1ImExSum, .powerActiveL2Import,
          .powerActiveL2Export]) :=
  declareValueIds_program (by decide) (by decide)

end Esp32Firmware.Meters
