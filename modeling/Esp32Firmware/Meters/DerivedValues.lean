import Esp32Firmware.Meters.ValueFilters
import Esp32Firmware.Library.Cells
import Esp32Firmware.Library.Run

/-!
# Stored derived values

The filters of a meter are cells that are computed in order, behind the base values. As long as
the filters see the values that are stored, every stored derived value is the one that its filter
makes of the stored inputs.
-/

namespace Esp32Firmware.Meters

open Binary32

section

/-- The outputs of a filter that combines the inputs of every phase. -/
def ValueCombinerFilterData.pairCells (combine : Value → Value → Value)
    (d : ValueCombinerFilterData) : List (Cell Value) :=
  (List.range d.param).map fun i =>
    { inputs := [d.input (2 * i), d.input (2 * i + 1)]
      compute := fun v => combine (v (d.input (2 * i))) (v (d.input (2 * i + 1))) }

/-- The outputs of a filter, each as a function of the values at its input positions. -/
def FilterFn.cells (d : ValueCombinerFilterData) : FilterFn → List (Cell Value)
  | imEx2ImExDiff => d.pairCells fun im ex => im - ex
  | sign2Sign => d.pairCells fun receiver donor => replaceSign receiver donor
  | phase2Sum =>
    [{ inputs := [d.input 0, d.input 1, d.input 2]
       compute := fun v => v (d.input 0) + v (d.input 1) + v (d.input 2) }]
  | ex2ImExDiff => [{ inputs := [d.input 0], compute := fun v => zeroSafeNegation (v (d.input 0)) }]

def MeterSlot.cells (slot : MeterSlot) : List (Cell Value) :=
  slot.filters.flatMap fun f => f.1.fn.cells f.2

variable {d : ValueCombinerFilterData} {n p t : ℕ} {base extra stack : ℕ → Value}
  {combine : Value → Value → Value} {cell : Cell Value} {fn : FilterFn}
  {filters rest : List (ValueCombinerFilter × ValueCombinerFilterData)}

theorem length_pairCells : (d.pairCells combine).length = d.param := by
  rw [ValueCombinerFilterData.pairCells, List.length_map, List.length_range]

/-- Writing an extra value writes the concatenated values behind the base. -/
theorem getValueFromConcatValues_update {x : Value} (h : n ≤ p) :
    getValueFromConcatValues n base (Function.update extra (p - n) x) =
      Function.update (getValueFromConcatValues n base extra) p x := by
  ext q
  rcases eq_or_ne q p with rfl | hne
  · rw [Function.update_self, getValueFromConcatValues, if_neg (Nat.not_lt.mpr h),
      Function.update_self]
  · rw [Function.update_of_ne hne, getValueFromConcatValues, getValueFromConcatValues]
    by_cases hq : q < n
    · rw [if_pos hq, if_pos hq]
    · rw [if_neg hq, if_neg hq, Function.update_of_ne (by omega)]

/-- The loop over the phases evaluates the cells one after the other. -/
theorem concat_filterPairs (h : n ≤ d.outputPos) :
    getValueFromConcatValues n base (filterPairs combine d n base extra) =
      Cell.evaluate (d.pairCells combine) d.outputPos (getValueFromConcatValues n base extra) := by
  rw [filterPairs, ValueCombinerFilterData.pairCells]
  generalize d.param = k
  induction k with
  | zero => rfl
  | succ k ih =>
    have hpos : d.outputPos - n + k = d.outputPos + k - n := by omega
    rw [List.range_succ, List.foldl_append, List.map_append, Cell.evaluate_append, ← ih,
      List.length_map, List.length_range, List.foldl_cons, List.foldl_nil, hpos,
      getValueFromConcatValues_update (by omega)]
    rfl

theorem concat_run (h : n ≤ d.outputPos) :
    getValueFromConcatValues n base (fn.run d n base extra) =
      Cell.evaluate (fn.cells d) d.outputPos (getValueFromConcatValues n base extra) := by
  cases fn with
  | imEx2ImExDiff | sign2Sign => exact concat_filterPairs h
  | phase2Sum | ex2ImExDiff => exact getValueFromConcatValues_update h

/-- The outputs of the filters follow each other from a position on. -/
def Placed : ℕ → List (ValueCombinerFilter × ValueCombinerFilterData) → Prop
  | _, [] => True
  | t, f :: rest =>
    f.2.outputPos = t ∧ Cell.Ordered t (f.1.fn.cells f.2) ∧
      Placed (t + (f.1.fn.cells f.2).length) rest

theorem placed_append : Placed t (filters ++ rest) ↔
    Placed t filters ∧ Placed (t + (filters.flatMap fun f => f.1.fn.cells f.2).length) rest := by
  induction filters generalizing t with
  | nil => exact ⟨fun h => ⟨trivial, h⟩, And.right⟩
  | cons f filters ih =>
    rw [List.cons_append, Placed, Placed, ih, List.flatMap_cons, List.length_append, Nat.add_assoc]
    simp only [and_assoc]

theorem Placed.ordered (h : Placed t filters) :
    Cell.Ordered t (filters.flatMap fun f => f.1.fn.cells f.2) := by
  induction filters generalizing t with
  | nil => trivial
  | cons f rest ih =>
    obtain ⟨-, hcells, hrest⟩ := h
    exact Cell.ordered_append.mpr ⟨hcells, ih hrest⟩

/-- The cell of an output of a filter, among all cells. -/
theorem Placed.getElem? (h : Placed t filters) {f : ValueCombinerFilter × ValueCombinerFilterData}
    (hf : f ∈ filters) {i : ℕ} (hi : (f.1.fn.cells f.2)[i]? = some cell) :
    ∃ j, f.2.outputPos + i = t + j ∧
      (filters.flatMap fun f => f.1.fn.cells f.2)[j]? = some cell := by
  induction filters generalizing t with
  | nil => cases hf
  | cons first rest ih =>
    obtain ⟨hpos, -, hrest⟩ := h
    rw [List.flatMap_cons]
    rcases List.mem_cons.mp hf with rfl | hf
    · refine ⟨i, by rw [hpos], ?_⟩
      rw [List.getElem?_append_left (List.getElem?_eq_some_iff.mp hi).1]
      exact hi
    · obtain ⟨j, hj, hcell⟩ := ih hrest hf
      refine ⟨(first.1.fn.cells first.2).length + j, by omega, ?_⟩
      rw [List.getElem?_append_right (Nat.le_add_right _ _), Nat.add_sub_cancel_left]
      exact hcell

/-- The filters evaluate their cells behind the base values. -/
theorem concat_filters (h : Placed t filters) (ht : n ≤ t) :
    getValueFromConcatValues n base
        (filters.foldl (fun extra f => f.1.fn.run f.2 n base extra) extra) =
      Cell.evaluate (filters.flatMap fun f => f.1.fn.cells f.2) t
        (getValueFromConcatValues n base extra) := by
  induction filters generalizing t extra with
  | nil => rfl
  | cons f rest ih =>
    obtain ⟨rfl, -, hrest⟩ := h
    rw [List.foldl_cons, ih hrest (by omega), concat_run ht, List.flatMap_cons,
      Cell.evaluate_append]

end

section

variable {d : ValueCombinerFilterData} {fn : FilterFn} {cell : Cell Value} {v w : ℕ → Value}

/-- A cell whose result was known stays known as long as it gives a result of known inputs. -/
theorem known_mono (hcell : cell ∈ fn.cells d) (hv : (cell.compute v).isNaN = false)
    (hinputs : ∀ p ∈ cell.inputs, (v p).isNaN = false → (w p).isNaN = false)
    (hregular : (∀ p ∈ cell.inputs, (w p).isNaN = false) → (cell.compute w).isNaN = false) :
    (cell.compute w).isNaN = false := by
  -- All filters but one need all of their inputs.
  have hall (hall : ∀ p ∈ cell.inputs, (v p).isNaN = true → (cell.compute v).isNaN = true) :
      (cell.compute w).isNaN = false := by
    apply hregular
    intro p hp
    apply hinputs p hp
    cases hnan : (v p).isNaN with
    | false => rfl
    | true => rw [hall p hp hnan] at hv; cases hv
  cases fn with
  | imEx2ImExDiff =>
    obtain ⟨i, -, rfl⟩ := List.mem_map.mp hcell
    apply hall
    intro p hp hnan
    rcases List.mem_pair.mp hp with rfl | rfl
    · exact isNaN_sub (.inl hnan)
    · exact isNaN_sub (.inr hnan)
  | sign2Sign =>
    -- The sign of NaN is a sign, too.
    obtain ⟨i, -, rfl⟩ := List.mem_map.mp hcell
    rw [isNaN_replaceSign] at hv ⊢
    exact hinputs _ List.mem_cons_self hv
  | phase2Sum =>
    rw [FilterFn.cells, List.mem_singleton] at hcell
    subst hcell
    apply hall
    intro p hp hnan
    simp only [List.mem_cons, List.not_mem_nil, or_false] at hp
    rcases hp with rfl | rfl | rfl
    · exact isNaN_add (.inl (isNaN_add (.inl hnan)))
    · exact isNaN_add (.inl (isNaN_add (.inr hnan)))
    · exact isNaN_add (.inr hnan)
  | ex2ImExDiff =>
    rw [FilterFn.cells, List.mem_singleton] at hcell
    subst hcell
    apply hall
    intro p hp hnan
    obtain rfl := List.mem_singleton.mp hp
    change (zeroSafeNegation _).isNaN = true
    rw [zeroSafeNegation]
    split
    · exact hnan
    · exact isNaN_mul hnan

/-- A cell has inputs, and nothing known comes out of unknown ones. -/
theorem unknown_of_unknown (hcell : cell ∈ fn.cells d)
    (hinputs : ∀ p ∈ cell.inputs, (v p).isNaN = true) :
    (cell.compute v).isNaN = true ∧ ∃ p, p ∈ cell.inputs := by
  cases fn with
  | imEx2ImExDiff =>
    obtain ⟨i, -, rfl⟩ := List.mem_map.mp hcell
    exact ⟨isNaN_sub (.inl (hinputs _ List.mem_cons_self)), _, List.mem_cons_self⟩
  | sign2Sign =>
    obtain ⟨i, -, rfl⟩ := List.mem_map.mp hcell
    refine ⟨?_, _, List.mem_cons_self⟩
    rw [isNaN_replaceSign]
    exact hinputs _ List.mem_cons_self
  | phase2Sum =>
    rw [FilterFn.cells, List.mem_singleton] at hcell
    subst hcell
    exact ⟨isNaN_add (.inl (isNaN_add (.inl (hinputs _ List.mem_cons_self)))), _,
      List.mem_cons_self⟩
  | ex2ImExDiff =>
    rw [FilterFn.cells, List.mem_singleton] at hcell
    subst hcell
    refine ⟨?_, _, List.mem_cons_self⟩
    change (zeroSafeNegation _).isNaN = true
    rw [zeroSafeNegation]
    split
    · exact hinputs _ List.mem_cons_self
    · exact isNaN_mul (hinputs _ List.mem_cons_self)

end

section

variable {capacity n : ℕ} {ids : List MeterValueID} {d : Declaration}

/-- The filters follow the base values, and a value is declared for each of their outputs. -/
structure MeterSlot.Declared (slot : MeterSlot) : Prop where
  placed : Placed slot.baseValueCount slot.filters
  count : slot.valueIds.length = slot.baseValueCount + slot.cells.length

/-- How the numbers of IDs of a filter belong to what it computes. -/
def ValueCombinerFilter.Fits (filter : ValueCombinerFilter) : Prop :=
  match filter.fn with
  | .imEx2ImExDiff =>
    filter.param = 3 ∧ filter.inputIds.length = 6 ∧ filter.outputIds.length = 3
  | .sign2Sign => filter.param = 3 ∧ filter.inputIds.length = 6 ∧ filter.outputIds.length = 3
  | .phase2Sum => filter.param = 0 ∧ filter.inputIds.length = 3 ∧ filter.outputIds.length = 1
  | .ex2ImExDiff => filter.param = 0 ∧ filter.inputIds.length = 1 ∧ filter.outputIds.length = 1

theorem valueCombinerFilters_fit : ∀ filter ∈ valueCombinerFilters, filter.Fits := by
  simp [valueCombinerFilters, ValueCombinerFilter.Fits]

variable {count : ℕ} {m : InputMatch} {data : ValueCombinerFilterData}
  {filter : ValueCombinerFilter}

theorem metersFindIdIndex_eq_none {vid : MeterValueID} :
    metersFindIdIndex ids vid = none ↔ vid ∉ ids :=
  List.idxOf?_eq_none_iff

theorem declareOutputs_some {result : ℕ} {outputs : List MeterValueID}
    (h : declareOutputs capacity ids count outputs = some result) :
    result = count + outputs.length ∧ (∀ vid ∈ outputs, vid ∉ ids) ∧
      (outputs ≠ [] → ids.length + count + outputs.length ≤ capacity) := by
  induction outputs generalizing count with
  | nil =>
    exact ⟨(Option.some.inj h).symm, List.forall_mem_nil _, fun hne => absurd rfl hne⟩
  | cons vid rest ih =>
    rw [declareOutputs] at h
    by_cases hfound : (metersFindIdIndex ids vid).isSome = true
    · rw [if_pos hfound] at h
      cases h
    · rw [if_neg hfound] at h
      by_cases hfull : capacity ≤ ids.length + count
      · rw [if_pos hfull] at h
        cases h
      · rw [if_neg hfull] at h
        obtain ⟨hresult, hrest, hlength⟩ := ih h
        rw [List.length_cons]
        refine ⟨by omega, List.forall_mem_cons.mpr ⟨?_, hrest⟩, fun _ => ?_⟩
        · exact metersFindIdIndex_eq_none.mp (Option.not_isSome_iff_eq_none.mp hfound)
        · rcases eq_or_ne rest [] with rfl | hne
          · rw [List.length_nil]
            omega
          · have hle := hlength hne
            omega

theorem metersFindIdIndex_lt {vid : MeterValueID} {pos : ℕ}
    (h : metersFindIdIndex ids vid = some pos) : pos < ids.length := by
  rw [metersFindIdIndex, List.idxOf?, List.findIdx?_eq_some_iff_findIdx_eq] at h
  exact h.1

/-- All inputs are found, or those of the first phases. -/
theorem matchInputs_some {param : ℕ} {found : List ℕ} {inputs : List MeterValueID}
    (h : matchInputs ids param count found inputs = some m) (hfound : ∀ p ∈ found, p < ids.length) :
    (∀ p ∈ m.inputPos, p < ids.length) ∧ (m.param = param ∧ m.outputCount = count ∧
          m.inputPos.length = found.length + inputs.length ∨
        param = 3 ∧ count = 3 ∧ m.outputCount = m.param ∧ m.inputPos.length = 2 * m.param ∧
          m.inputPos.length < found.length + inputs.length) := by
  induction inputs generalizing found with
  | nil =>
    obtain rfl := Option.some.inj h
    exact ⟨hfound, .inl ⟨rfl, rfl, rfl⟩⟩
  | cons vid rest ih =>
    rw [matchInputs] at h
    cases hfind : metersFindIdIndex ids vid with
    | some pos =>
      rw [hfind] at h
      have hpos : pos % 256 < ids.length :=
        Nat.lt_of_le_of_lt (Nat.mod_le _ _) (metersFindIdIndex_lt hfind)
      obtain ⟨hlt, hcases⟩ := ih h (by
        intro p hp
        rcases List.mem_append.mp hp with hp | hp
        · exact hfound p hp
        · rw [List.mem_singleton.mp hp]
          exact hpos)
      refine ⟨hlt, ?_⟩
      rw [List.length_append, List.length_singleton] at hcases
      rw [List.length_cons]
      omega
    | none =>
      rw [hfind] at h
      by_cases hphase : param = 3 ∧ 0 < found.length ∧ found.length % 2 = 0
      · rw [if_pos hphase] at h
        by_cases hcount : count = 3
        · rw [if_neg (not_not.mpr hcount)] at h
          obtain rfl := Option.some.inj h
          refine ⟨hfound, .inr ⟨hphase.1, hcount, rfl, ?_, ?_⟩⟩
          · change found.length = 2 * (found.length / 2)
            omega
          · change found.length < _
            rw [List.length_cons]
            omega
        · rw [if_pos hcount] at h
          cases h
      · rw [if_neg hphase] at h
        cases h

theorem input_lt {t i : ℕ} (h : ∀ p ∈ data.inputPos, p < t) (hi : i < data.inputPos.length) :
    data.input i < t := by
  rw [ValueCombinerFilterData.input, List.getD_eq_getElem _ _ hi]
  exact h _ (List.getElem_mem hi)

theorem ordered_pairCells {combine : Value → Value → Value} {t : ℕ} (h : ∀ p ∈ data.inputPos, p < t)
    (hlength : data.inputPos.length = 2 * data.param) :
    Cell.Ordered t (data.pairCells combine) := by
  apply Cell.ordered_of_forall
  intro cell hcell
  obtain ⟨i, hi, rfl⟩ := List.mem_map.mp hcell
  have hi := List.mem_range.mp hi
  refine ⟨?_, ?_⟩
  · intro v w hinputs
    change combine _ _ = combine _ _
    rw [hinputs _ (List.mem_pair.mpr (.inl rfl)), hinputs _ (List.mem_pair.mpr (.inr rfl))]
  · intro p hp
    rcases List.mem_pair.mp hp with rfl | rfl <;> exact input_lt h (by omega)

/-- A filter that applies has a cell for each of its outputs. -/
theorem cells_of_match (hfits : filter.Fits)
    (hmatch : matchInputs ids filter.param filter.outputIds.length [] filter.inputIds = some m)
    (outputPos : ℕ) :
    Cell.Ordered ids.length (filter.fn.cells ⟨m.inputPos, outputPos, m.param⟩) ∧
      (filter.fn.cells ⟨m.inputPos, outputPos, m.param⟩).length =
        (filter.outputIds.take m.outputCount).length := by
  obtain ⟨hlt, hcases⟩ := matchInputs_some hmatch (fun p hp => absurd hp List.not_mem_nil)
  rw [List.length_nil, Nat.zero_add] at hcases
  rw [ValueCombinerFilter.Fits] at hfits
  rw [List.length_take]
  cases hfn : filter.fn with
  | imEx2ImExDiff | sign2Sign =>
    rw [hfn] at hfits
    refine ⟨ordered_pairCells hlt (by change m.inputPos.length = 2 * m.param; omega), ?_⟩
    rw [FilterFn.cells, length_pairCells]
    change m.param = _
    omega
  | phase2Sum =>
    rw [hfn] at hfits
    refine ⟨?_, by change 1 = _; omega⟩
    apply Cell.ordered_of_forall
    intro cell hcell
    obtain rfl := List.mem_singleton.mp hcell
    refine ⟨?_, ?_⟩
    · intro v w hv
      change v _ + v _ + v _ = w _ + w _ + w _
      rw [hv _ (by simp), hv _ (by simp), hv _ (by simp)]
    · intro p hp
      simp only [List.mem_cons, List.not_mem_nil, or_false] at hp
      rcases hp with rfl | rfl | rfl
      · exact input_lt hlt (by change 0 < m.inputPos.length; omega)
      · exact input_lt hlt (by change 1 < m.inputPos.length; omega)
      · exact input_lt hlt (by change 2 < m.inputPos.length; omega)
  | ex2ImExDiff =>
    rw [hfn] at hfits
    refine ⟨?_, by change 1 = _; omega⟩
    apply Cell.ordered_of_forall
    intro cell hcell
    obtain rfl := List.mem_singleton.mp hcell
    refine ⟨?_, ?_⟩
    · intro v w hv
      change zeroSafeNegation (v _) = zeroSafeNegation (w _)
      rw [hv _ (by simp)]
    · intro p hp
      obtain rfl := List.mem_singleton.mp hp
      exact input_lt hlt (by change 0 < m.inputPos.length; omega)

/-- The filters that are declared so far follow the `n` base values. -/
def Declaration.Fits (n : ℕ) (d : Declaration) : Prop :=
  Placed n d.2 ∧ d.1.length = n + (d.2.flatMap fun f => f.1.fn.cells f.2).length

theorem ValueCombinerFilter.Fits.outputIds_ne_nil (h : filter.Fits) : filter.outputIds ≠ [] := by
  intro hnil
  rw [ValueCombinerFilter.Fits, hnil] at h
  split at h <;> cases h.2.2

theorem declareFilter_fits (hcapacity : capacity ≤ 256) (hfilter : filter.Fits) (h : d.Fits n) :
    (declareFilter capacity d filter).Fits n := by
  rw [declareFilter]
  cases houtputs : declareOutputs capacity d.1 0 filter.outputIds with
  | none => exact h
  | some count =>
    obtain ⟨hcount, -, hspace⟩ := declareOutputs_some houtputs
    obtain rfl : count = filter.outputIds.length := by omega
    have hlt : d.1.length < 256 := by
      have hpos := List.length_pos_of_ne_nil hfilter.outputIds_ne_nil
      have := hspace hfilter.outputIds_ne_nil
      omega
    dsimp only
    cases hmatch : matchInputs d.1 filter.param filter.outputIds.length [] filter.inputIds with
    | none => exact h
    | some m =>
      obtain ⟨hordered, hlength⟩ := cells_of_match hfilter hmatch (d.1.length % 256)
      obtain ⟨hplaced, hids⟩ := h
      refine ⟨placed_append.mpr ⟨hplaced, ?_⟩, ?_⟩
      · rw [← hids]
        exact ⟨Nat.mod_eq_of_lt hlt, hordered, trivial⟩
      · change (d.1 ++ _).length = _
        rw [List.length_append, ← hlength, List.flatMap_append, List.length_append,
          List.flatMap_singleton, ← Nat.add_assoc, ← hids]

theorem declareFilters_fits (hcapacity : capacity ≤ 256) {filters : List ValueCombinerFilter}
    (hfilters : ∀ filter ∈ filters, filter.Fits) (h : d.Fits n) :
    (filters.foldl (declareFilter capacity) d).Fits n := by
  induction filters generalizing d with
  | nil => exact h
  | cons filter rest ih =>
    apply ih (fun filter hfilter => hfilters filter (List.mem_cons_of_mem _ hfilter))
    exact declareFilter_fits hcapacity (hfilters filter List.mem_cons_self) h

/-- Every list of IDs is declared well, and no value is known yet. -/
theorem declareValueIds_declared (hcapacity : capacity ≤ 256) :
    (declareValueIds capacity .initial ids).Declared ∧
      (declareValueIds capacity .initial ids).values = fun _ => nan := by
  have hinitial : MeterSlot.initial.Declared := ⟨trivial, rfl⟩
  have hnew : ¬ MeterSlot.initial.valueIds ≠ [] := not_not.mpr rfl
  rw [declareValueIds, if_neg hnew]
  by_cases hnil : ids = []
  · rw [if_pos hnil]
    exact ⟨hinitial, rfl⟩
  · rw [if_neg hnil]
    have hfits := declareFilters_fits hcapacity valueCombinerFilters_fit
      (d := (ids, MeterSlot.initial.filters)) (n := ids.length) ⟨trivial, rfl⟩
    exact ⟨⟨hfits.1, hfits.2⟩, rfl⟩

end

section

variable {n p : ℕ} {values extra : ℕ → Value} {old new : Value} {entry : ℕ × Value}

theorem updateFloat_beq (h : new.isNaN = false) : (updateFloat old new == new) = true := by
  rw [updateFloat]
  by_cases hbeq : (old == new) = true
  · rw [if_pos hbeq]
    exact hbeq
  · rw [if_neg hbeq]
    exact beq_self h

theorem updateFloat_known (hold : old.isNaN = false) (hnew : new.isNaN = false) :
    (updateFloat old new).isNaN = false := by
  rw [updateFloat]
  split
  · exact hold
  · exact hnew

theorem eq_of_isNaN (hold : old.isNaN = true) (hnew : new.isNaN = true) : old = new :=
  unpack_injective ((unpack_of_isNaN hold).trans (unpack_of_isNaN hnew).symm)

/-- The loop over the extra values, by position. -/
theorem storeExtraValues_apply (count : ℕ) :
    storeExtraValues n extra values count p =
      if n ≤ p ∧ p < n + count ∧ (extra (p - n)).isNaN = false then
        updateFloat (values p) (extra (p - n))
      else values p := by
  induction count with
  | zero => rw [if_neg (by omega)]; rfl
  | succ count ih =>
    have hsucc : storeExtraValues n extra values (count + 1) =
        if (extra count).isNaN then storeExtraValues n extra values count
        else storeValue (storeExtraValues n extra values count) (n + count) (extra count) := by
      rw [storeExtraValues, List.range_succ, List.foldl_append]
      rfl
    rw [hsucc]
    rcases eq_or_ne p (n + count) with rfl | hne
    · rw [Nat.add_sub_cancel_left]
      rw [if_neg (by omega)] at ih
      by_cases hnan : (extra count).isNaN = true
      · rw [if_pos hnan, if_neg (by simp [hnan]), ih]
      · rw [if_neg hnan, if_pos ⟨by omega, by omega, by simpa using hnan⟩, storeValue,
          Function.update_self, ih]
    · have hlt : p < n + (count + 1) ↔ p < n + count := by omega
      simp only [hlt]
      by_cases hnan : (extra count).isNaN = true
      · rw [if_pos hnan, ih]
      · rw [if_neg hnan, storeValue, Function.update_of_ne hne, ih]

theorem storeEntry_of_ge (h : n ≤ p) : storeEntry n values entry p = values p := by
  rw [storeEntry]
  by_cases hindex : n ≤ entry.1
  · rw [if_pos hindex]
  · rw [if_neg hindex]
    split
    · rfl
    · rw [storeValue, Function.update_of_ne (by omega)]

theorem storeEntry_known (h : (values p).isNaN = false) :
    (storeEntry n values entry p).isNaN = false := by
  rw [storeEntry]
  by_cases hindex : n ≤ entry.1
  · rwa [if_pos hindex]
  · rw [if_neg hindex]
    by_cases hnan : entry.2.isNaN = true
    · rwa [if_pos hnan]
    · rw [if_neg hnan, storeValue]
      rcases eq_or_ne p entry.1 with rfl | hne
      · rw [Function.update_self]
        exact updateFloat_known h (by simpa using hnan)
      · rwa [Function.update_of_ne hne]

/-- A batch leaves the derived values alone and forgets no base value. -/
theorem storeEntries (entries : List (ℕ × Value)) :
    (n ≤ p → entries.foldl (storeEntry n) values p = values p) ∧
      ((values p).isNaN = false → (entries.foldl (storeEntry n) values p).isNaN = false) := by
  induction entries generalizing values with
  | nil => exact ⟨fun _ => rfl, id⟩
  | cons entry rest ih =>
    obtain ⟨hge, hknown⟩ := @ih (storeEntry n values entry)
    exact ⟨fun h => (hge h).trans (storeEntry_of_ge h), fun h => hknown (storeEntry_known h)⟩

/-- All base values at once. -/
theorem storeEntries_all (newValues : ℕ → Value) (k : ℕ) (hk : k ≤ n) :
    ((List.range k).map fun i => (i, newValues i)).foldl (storeEntry n) values p =
      if p < k ∧ (newValues p).isNaN = false then updateFloat (values p) (newValues p)
      else values p := by
  induction k with
  | zero => rw [if_neg (by omega)]; rfl
  | succ k ih =>
    have ih := ih (by omega)
    rw [List.range_succ, List.map_append, List.foldl_append, List.map_singleton,
      List.foldl_cons, List.foldl_nil, storeEntry, if_neg (by dsimp only; omega)]
    rcases eq_or_ne p k with rfl | hne
    · rw [if_neg (by omega)] at ih
      by_cases hnan : (newValues p).isNaN = true
      · rw [if_pos hnan, if_neg (by simp [hnan]), ih]
      · rw [if_neg hnan, if_pos ⟨by omega, by simpa using hnan⟩, storeValue,
          Function.update_self, ih]
    · have hlt : p < k + 1 ↔ p < k := by omega
      simp only [hlt]
      by_cases hnan : (newValues k).isNaN = true
      · rw [if_pos hnan, ih]
      · rw [if_neg hnan, storeValue, Function.update_of_ne hne, ih]

end

/-- What the filters make of base values, behind them. -/
def MeterSlot.derived (slot : MeterSlot) (base : ℕ → Value) : ℕ → Value :=
  Cell.evaluate slot.cells slot.baseValueCount base

/-- No filter makes NaN of known inputs, and none reads a derived zero with a negative sign. -/
def MeterSlot.Regular (slot : MeterSlot) (base : ℕ → Value) : Prop :=
  (∀ cell ∈ slot.cells, (∀ p ∈ cell.inputs, (slot.derived base p).isNaN = false) →
      (cell.compute (slot.derived base)).isNaN = false) ∧
    ∀ cell ∈ slot.cells, ∀ p ∈ cell.inputs, slot.baseValueCount ≤ p →
      slot.derived base p ≠ negativeZero

/-- New values for all base positions in which an input of a filter is NaN only if it was never
known, and a zero has the sign of the stored zero. -/
def MeterSlot.Keeps (slot : MeterSlot) (newValues : ℕ → Value) : Prop :=
  ∀ cell ∈ slot.cells, ∀ p ∈ cell.inputs, p < slot.baseValueCount →
    ((newValues p).isNaN = true → (slot.values p).isNaN = true) ∧
      ((slot.values p == newValues p) = true → slot.values p = newValues p)

/-- The values for base positions that come with an update. -/
def Update.entries (n : ℕ) : Update → List (ℕ × Value)
  | value index newValue => [(index, newValue)]
  | batch entries => entries
  | all newValues => (List.range n).map fun i => (i, newValues i)
  | allConfig newValues =>
    if newValues.length ≠ n then [] else (List.range n).map fun i => (i, newValues.getD i nan)

/-- The latest known base values. -/
def MeterSlot.latest (slot : MeterSlot) (update : Update) : ℕ → Value :=
  (update.entries slot.baseValueCount).foldl (storeEntry slot.baseValueCount) slot.values

/-- `update_value` writes no derived value, an update of all values keeps the inputs of the
filters known, and the filters stay within the numbers. -/
def MeterSlot.Allowed (slot : MeterSlot) (c : Call) : Prop :=
  (match c.update with
    | .value index newValue =>
      newValue.isNaN = true ∨ slot.valueIds.length ≤ index ∨ index < slot.baseValueCount
    | .batch _ => True
    | .all newValues => slot.Keeps newValues
    | .allConfig newValues =>
      newValues.length = slot.baseValueCount → slot.Keeps fun i => newValues.getD i nan) ∧
    slot.Regular (slot.latest c.update)

variable {slot : MeterSlot} {c : Call} {stack base newValues : ℕ → Value} {i : ℕ}

theorem MeterSlot.Declared.ordered (h : slot.Declared) :
    Cell.Ordered slot.baseValueCount slot.cells := h.placed.ordered

/-- The filters compute the extra values from the base values alone. -/
theorem MeterSlot.Declared.extraValues (h : slot.Declared) (hi : i < slot.cells.length) :
    slot.extraValues stack base i = slot.derived base (slot.baseValueCount + i) := by
  have hconcat : getValueFromConcatValues slot.baseValueCount base
      (slot.extraValues stack base) (slot.baseValueCount + i) = _ :=
    congrFun (concat_filters h.placed (Nat.le_refl _)) (slot.baseValueCount + i)
  rw [getValueFromConcatValues, if_neg (by omega), Nat.add_sub_cancel_left] at hconcat
  rw [hconcat]
  apply Cell.evaluate_congr h.ordered _ (List.getElem?_eq_getElem hi)
  intro _ _ _ p _ hp
  rw [getValueFromConcatValues, if_pos hp]

/-- The inputs of the filters are stored as they are given. -/
theorem MeterSlot.Keeps.latest (h : slot.Keeps newValues) {cell : Cell Value}
    (hcell : cell ∈ slot.cells) {p : ℕ} (hp : p ∈ cell.inputs) (hlt : p < slot.baseValueCount) :
    slot.latest (.all newValues) p = newValues p := by
  obtain ⟨hknown, hsame⟩ := h cell hcell p hp hlt
  rw [MeterSlot.latest, Update.entries, storeEntries_all _ _ (Nat.le_refl _)]
  cases hnan : (newValues p).isNaN with
  | true =>
    rw [if_neg (by simp)]
    exact eq_of_isNaN (hknown hnan) hnan
  | false =>
    rw [if_pos ⟨hlt, rfl⟩, updateFloat]
    split
    · next hbeq => exact hsame hbeq
    · rfl

theorem MeterSlot.Keeps.derived (hdeclared : slot.Declared) (h : slot.Keeps newValues)
    (hi : i < slot.cells.length) :
    slot.derived newValues (slot.baseValueCount + i) =
      slot.derived (slot.latest (.all newValues)) (slot.baseValueCount + i) := by
  apply Cell.evaluate_congr hdeclared.ordered _ (List.getElem?_eq_getElem hi)
  intro _ _ hcell p hp hlt
  exact (h.latest (List.mem_of_getElem? hcell) hp hlt).symm

/-- The base values that are kept, and what the filters have made of them. -/
def MeterSlot.stored (slot : MeterSlot) (base extra : ℕ → Value) : MeterSlot :=
  { slot with values := storeExtraValues slot.baseValueCount extra base
                (slot.valueIds.length - slot.baseValueCount) }

/-- The filters run on the values that were just stored. -/
def MeterSlot.Refreshed (slot : MeterSlot) (base : ℕ → Value) (next : MeterSlot) : Prop :=
  ∃ extra, next = slot.stored base extra ∧
    ∀ i < slot.cells.length, extra i = slot.derived base (slot.baseValueCount + i)

section

variable (h : slot.Declared)
include h

/-- Without filters there are no extra values. -/
theorem MeterSlot.Declared.refreshed_of_isEmpty (hfilters : slot.filters.isEmpty = true) :
    slot.Refreshed base { slot with values := base } := by
  have hcells : slot.cells = [] := by
    rw [MeterSlot.cells, List.isEmpty_iff.mp hfilters]
    rfl
  have hcount : slot.valueIds.length - slot.baseValueCount = 0 := by
    have := h.count
    rw [hcells, List.length_nil] at this
    omega
  refine ⟨fun _ => nan, ?_, ?_⟩
  · rw [MeterSlot.stored, hcount]
    rfl
  · intro i hi
    rw [hcells] at hi
    exact absurd hi (Nat.not_lt_zero i)

theorem MeterSlot.Declared.refreshed_indexed (entries : List (ℕ × Value)) :
    slot.Refreshed (slot.latest (.batch entries))
      (updateBatchValues stack slot (.indexed entries)) := by
  rw [updateBatchValues]
  split
  · next hfilters => exact h.refreshed_of_isEmpty hfilters
  · exact ⟨_, rfl, fun i hi => h.extraValues hi⟩

theorem MeterSlot.Declared.refreshed_all (hkeeps : slot.Keeps newValues) :
    slot.Refreshed (slot.latest (.all newValues)) (updateAllValues stack slot newValues) := by
  rw [updateAllValues, updateBatchValues]
  split
  · next hfilters => exact h.refreshed_of_isEmpty hfilters
  · exact ⟨_, rfl, fun i hi => (h.extraValues hi).trans (hkeeps.derived h hi)⟩

theorem MeterSlot.Declared.refreshed_value {index : ℕ} {newValue : Value}
    (hallowed : newValue.isNaN = true ∨ slot.valueIds.length ≤ index ∨
      index < slot.baseValueCount) :
    updateValue stack slot index newValue = slot ∨
      slot.Refreshed (slot.latest (.value index newValue))
        (updateValue stack slot index newValue) := by
  rw [updateValue]
  by_cases hnan : newValue.isNaN = true
  · exact .inl (if_pos hnan)
  rw [if_neg hnan]
  by_cases hmax : index = 0xFFFFFFFF
  · exact .inl (if_pos hmax)
  rw [if_neg hmax]
  by_cases hlength : slot.valueIds.length ≤ index
  · exact .inl (if_pos hlength)
  right
  have hbase : index < slot.baseValueCount := (hallowed.resolve_left hnan).resolve_left hlength
  have hlatest : slot.latest (.value index newValue) = storeValue slot.values index newValue := by
    rw [MeterSlot.latest, Update.entries, List.foldl_cons, List.foldl_nil, storeEntry,
      if_neg (Nat.not_le.mpr hbase), if_neg hnan]
  rw [if_neg hlength, hlatest]
  dsimp only
  split
  · next hfilters => exact h.refreshed_of_isEmpty hfilters
  · exact ⟨_, rfl, fun i hi => h.extraValues hi⟩

/-- An update that is allowed does nothing, or runs the filters on the latest known values. -/
theorem MeterSlot.Declared.step_cases (hallowed : slot.Allowed c) :
    slot.step c = slot ∨ slot.Refreshed (slot.latest c.update) (slot.step c) := by
  obtain ⟨stack, update⟩ := c
  obtain ⟨hallowed, -⟩ := hallowed
  cases update with
  | value index newValue => exact h.refreshed_value hallowed
  | batch entries => exact .inr (h.refreshed_indexed entries)
  | all newValues => exact .inr (h.refreshed_all hallowed)
  | allConfig newValues =>
    by_cases hlength : newValues.length ≠ slot.baseValueCount
    · exact .inl (if_pos hlength)
    · have hlatest : slot.latest (.allConfig newValues) =
          slot.latest (.all fun i => newValues.getD i nan) := by
        rw [MeterSlot.latest, Update.entries, if_neg hlength]
        rfl
      have hupdate : slot.step ⟨stack, .allConfig newValues⟩ =
          updateAllValues stack slot fun i => newValues.getD i nan := if_neg hlength
      rw [hlatest, hupdate]
      exact .inr (h.refreshed_all (hallowed (not_not.mp hlength)))

end

/-- The stored derived values are those of the stored base values: equal where they are known, and
the same where a filter reads them. -/
structure MeterSlot.Agrees (slot : MeterSlot) : Prop where
  declared : slot.Declared
  regular : slot.Regular slot.values
  equal : ∀ i < slot.cells.length,
    (slot.derived slot.values (slot.baseValueCount + i)).isNaN = false →
      (slot.values (slot.baseValueCount + i) ==
        slot.derived slot.values (slot.baseValueCount + i)) = true
  unknown : ∀ i < slot.cells.length,
    (slot.derived slot.values (slot.baseValueCount + i)).isNaN = true →
      (slot.values (slot.baseValueCount + i)).isNaN = true
  same : ∀ cell ∈ slot.cells, ∀ p ∈ cell.inputs, slot.baseValueCount ≤ p →
    (slot.derived slot.values p).isNaN = false → slot.values p = slot.derived slot.values p

theorem MeterSlot.Declared.input_lt (h : slot.Declared) {cell : Cell Value}
    (hcell : cell ∈ slot.cells) {p : ℕ} (hp : p ∈ cell.inputs) :
    p < slot.baseValueCount + slot.cells.length := by
  obtain ⟨i, hi, rfl⟩ := List.mem_iff_getElem.mp hcell
  have := (h.ordered.inputs_lt (List.getElem?_eq_getElem hi)).2 p hp
  omega

/-- No cell becomes unknown while the base values stay known. -/
theorem MeterSlot.Declared.derived_known (h : slot.Declared) {next : ℕ → Value}
    (hnext : slot.Regular next)
    (hknown : ∀ p, (base p).isNaN = false → (next p).isNaN = false)
    (hi : i < slot.cells.length)
    (hv : (slot.derived base (slot.baseValueCount + i)).isNaN = false) :
    (slot.derived next (slot.baseValueCount + i)).isNaN = false := by
  refine Cell.evaluate_rel (R := fun _ x y => x.isNaN = false → y.isNaN = false) h.ordered
    (fun _ _ _ p _ _ => hknown p) ?_ (List.getElem?_eq_getElem hi) hv
  intro i cell hcell hinputs hv
  have hmem := List.mem_of_getElem? hcell
  obtain ⟨f, -, hf⟩ := List.mem_flatMap.mp hmem
  exact known_mono hf hv hinputs (hnext.1 cell hmem)

/-- Storing the extra values of the latest base values restores the agreement. -/
theorem MeterSlot.Agrees.refresh (h : slot.Agrees) {next : MeterSlot}
    (hregular : slot.Regular base) (hkeep : ∀ p, slot.baseValueCount ≤ p → base p = slot.values p)
    (hknown : ∀ p, (slot.values p).isNaN = false → (base p).isNaN = false)
    (hnext : slot.Refreshed base next) : next.Agrees := by
  obtain ⟨extra, rfl, hextra⟩ := hnext
  have hcount : slot.valueIds.length - slot.baseValueCount = slot.cells.length := by
    have := h.declared.count
    omega
  have hvalues (i : ℕ) (hi : i < slot.cells.length) :
      (slot.stored base extra).values (slot.baseValueCount + i) =
        if (slot.derived base (slot.baseValueCount + i)).isNaN = false then
          updateFloat (slot.values (slot.baseValueCount + i))
            (slot.derived base (slot.baseValueCount + i))
        else slot.values (slot.baseValueCount + i) := by
    rw [MeterSlot.stored, hcount]
    dsimp only
    rw [storeExtraValues_apply, Nat.add_sub_cancel_left, hextra i hi,
      hkeep _ (Nat.le_add_right _ _)]
    congr 1
    simp [hi]
  -- The filters only look at the base values.
  have hderived : (slot.stored base extra).derived (slot.stored base extra).values =
      slot.derived base := by
    apply Cell.evaluate_eq_of_outside h.declared.ordered
    intro p hp
    change storeExtraValues _ _ _ _ _ = _
    rw [hcount, storeExtraValues_apply, if_neg]
    rintro ⟨hle, hlt, -⟩
    exact hp.elim (Nat.not_lt.mpr hle) (Nat.not_le.mpr hlt)
  refine ⟨⟨h.declared.placed, h.declared.count⟩, ?_, ?_, ?_, ?_⟩
  · have hregular' : (slot.stored base extra).Regular (slot.stored base extra).values ↔
        slot.Regular base := by
      rw [MeterSlot.Regular, hderived]
      rfl
    exact hregular'.mpr hregular
  · intro i hi hv
    rw [hderived] at hv ⊢
    change (slot.derived base (slot.baseValueCount + i)).isNaN = false at hv
    change ((slot.stored base extra).values (slot.baseValueCount + i) == _) = true
    rw [hvalues i hi, if_pos hv]
    exact updateFloat_beq hv
  · intro i hi hv
    rw [hderived] at hv
    change (slot.derived base (slot.baseValueCount + i)).isNaN = true at hv
    change ((slot.stored base extra).values (slot.baseValueCount + i)).isNaN = true
    rw [hvalues i hi, if_neg (by rw [hv]; exact Bool.noConfusion)]
    apply h.unknown i hi
    cases hold : (slot.derived slot.values (slot.baseValueCount + i)).isNaN with
    | true => rfl
    | false =>
      rw [h.declared.derived_known hregular hknown hi hold] at hv
      cases hv
  · intro cell hcell p hp hge hv
    rw [hderived] at hv ⊢
    obtain ⟨i, rfl⟩ := Nat.exists_eq_add_of_le hge
    have hi : i < slot.cells.length :=
      Nat.lt_of_add_lt_add_left (h.declared.input_lt hcell hp)
    change (slot.derived base (slot.baseValueCount + i)).isNaN = false at hv
    change (slot.stored base extra).values (slot.baseValueCount + i) =
      slot.derived base (slot.baseValueCount + i)
    rw [hvalues i hi, if_pos hv, updateFloat]
    split
    · next hbeq =>
        -- The old value is the same one, for both zeros are positive.
        rcases eq_or_zero_of_beq hbeq with heq | ⟨s, t, hs, ht⟩
        · exact heq
        · have hold : (slot.values (slot.baseValueCount + i)).isNaN = false := by
            rw [Float32.Model.isNaN, hs]
            rfl
          have hderivedKnown :
              (slot.derived slot.values (slot.baseValueCount + i)).isNaN = false := by
            cases hnan : (slot.derived slot.values (slot.baseValueCount + i)).isNaN with
            | false => rfl
            | true => rw [h.unknown i hi hnan] at hold; cases hold
          have hsame : slot.values (slot.baseValueCount + i) =
              slot.derived slot.values (slot.baseValueCount + i) :=
            h.same cell hcell _ hp hge hderivedKnown
          apply eq_of_beq_of_ne hbeq
          · rw [hsame]
            exact h.regular.2 cell hcell _ hp hge
          · exact hregular.2 cell hcell _ hp hge
    · rfl

theorem MeterSlot.Agrees.step (h : slot.Agrees) (hallowed : slot.Allowed c) :
    (slot.step c).Agrees := by
  rcases h.declared.step_cases hallowed with heq | hrefreshed
  · rwa [heq]
  · exact h.refresh hallowed.2 (fun p hp => (storeEntries _).1 hp)
      (fun p hp => (storeEntries _).2 hp) hrefreshed

/-- Nothing is derived before the first update. -/
theorem MeterSlot.Declared.agrees_of_unknown (h : slot.Declared)
    (hvalues : slot.values = fun _ => nan) : slot.Agrees := by
  have hnan (p : ℕ) : (slot.values p).isNaN = true := by
    rw [hvalues]
    exact isNaN_pack_notANumber
  have hcells (i : ℕ) (hi : i < slot.cells.length) :
      (slot.derived slot.values (slot.baseValueCount + i)).isNaN = true := by
    refine Cell.evaluate_rel (R := fun _ x _ => x.isNaN = true) h.ordered
      (g := slot.values) (fun _ _ _ p _ _ => hnan p) ?_ (List.getElem?_eq_getElem hi)
    intro i cell hcell hinputs
    obtain ⟨f, -, hf⟩ := List.mem_flatMap.mp (List.mem_of_getElem? hcell)
    exact (unknown_of_unknown hf hinputs).1
  have hinput (cell : Cell Value) (hcell : cell ∈ slot.cells) (p : ℕ) (hp : p ∈ cell.inputs) :
      (slot.derived slot.values p).isNaN = true := by
    rcases Nat.lt_or_ge p slot.baseValueCount with hlt | hge
    · rw [MeterSlot.derived, Cell.evaluate_of_lt hlt]
      exact hnan p
    · obtain ⟨i, rfl⟩ := Nat.exists_eq_add_of_le hge
      exact hcells i (Nat.lt_of_add_lt_add_left (h.input_lt hcell hp))
  refine ⟨h, ⟨?_, ?_⟩, ?_, ?_, ?_⟩
  · intro cell hcell hknown
    obtain ⟨f, -, hf⟩ := List.mem_flatMap.mp hcell
    obtain ⟨-, p, hp⟩ := unknown_of_unknown hf (fun p hp => hinput cell hcell p hp)
    have hp' := hknown p hp
    rw [hinput cell hcell p hp] at hp'
    cases hp'
  · intro cell hcell p hp _ hzero
    have := hinput cell hcell p hp
    rw [hzero] at this
    exact absurd this (by decide)
  · intro i hi hv
    rw [hcells i hi] at hv
    cases hv
  · exact fun i _ _ => hnan _
  · intro cell hcell p hp _ hv
    rw [hinput cell hcell p hp] at hv
    cases hv

/-- Every stored derived value is its filter applied to the stored inputs, if these are known. -/
def MeterSlot.Consistent (slot : MeterSlot) : Prop :=
  ∀ f ∈ slot.filters, ∀ (i : ℕ) (cell : Cell Value), (f.1.fn.cells f.2)[i]? = some cell →
    (∀ p ∈ cell.inputs, (slot.values p).isNaN = false) →
      (slot.values (f.2.outputPos + i) == cell.compute slot.values) = true

theorem MeterSlot.Agrees.consistent (h : slot.Agrees) : slot.Consistent := by
  intro f hf i cell hcell hknown
  obtain ⟨j, hpos, hj⟩ := h.declared.placed.getElem? hf hcell
  have hmem : cell ∈ slot.cells := List.mem_of_getElem? hj
  have hlt : j < slot.cells.length := (List.getElem?_eq_some_iff.mp hj).1
  -- Stored inputs are known only where the filters have made them known.
  have hsame (p : ℕ) (hp : p ∈ cell.inputs) : slot.values p = slot.derived slot.values p := by
    rcases Nat.lt_or_ge p slot.baseValueCount with hbase | hge
    · rw [MeterSlot.derived, Cell.evaluate_of_lt hbase]
    · apply h.same cell hmem p hp hge
      obtain ⟨k, rfl⟩ := Nat.exists_eq_add_of_le hge
      have hk : k < slot.cells.length :=
        Nat.lt_of_add_lt_add_left (h.declared.input_lt hmem hp)
      cases hnan : (slot.derived slot.values (slot.baseValueCount + k)).isNaN with
      | false => rfl
      | true =>
        have hstored := hknown _ hp
        rw [h.unknown k hk hnan] at hstored
        cases hstored
  have hcompute : cell.compute slot.values = slot.derived slot.values (slot.baseValueCount + j) :=
    ((h.declared.ordered.inputs_lt hj).1 _ _ hsame).trans
      (Cell.evaluate_cell h.declared.ordered hj).symm
  rw [hpos, hcompute]
  apply h.equal j hlt
  rw [← hcompute, (h.declared.ordered.inputs_lt hj).1 _ _ hsame]
  apply h.regular.1 cell hmem
  intro p hp
  rw [← hsame p hp]
  exact hknown p hp

/-- After updates that are allowed, whatever was declared, the stored derived values are
consistent with the stored values of their inputs. -/
theorem derived_values_consistent (capacity : ℕ) (hcapacity : capacity ≤ 256)
    (ids : List MeterValueID) (calls : List Call)
    (hcalls : Meets MeterSlot.step MeterSlot.Allowed (declareValueIds capacity .initial ids)
      calls) :
    (run MeterSlot.step (declareValueIds capacity .initial ids) calls).Consistent := by
  obtain ⟨hdeclared, hvalues⟩ := declareValueIds_declared hcapacity
  apply MeterSlot.Agrees.consistent
  apply hcalls.invariant (I := MeterSlot.Agrees) (fun slot c h hallowed => h.step hallowed)
  exact hdeclared.agrees_of_unknown hvalues

def importExportIds : List MeterValueID := [.powerActiveL1Import, .powerActiveL1Export]

def importExportSlot : MeterSlot := declareValueIds 256 .initial importExportIds

def importExportCall (im ex : Value) : Call := ⟨fun _ => nan, .all fun i => [im, ex].getD i nan⟩

instance (slot : MeterSlot) (base : ℕ → Value) : Decidable (slot.Regular base) :=
  inferInstanceAs (Decidable (_ ∧ _))

instance (slot : MeterSlot) (newValues : ℕ → Value) : Decidable (slot.Keeps newValues) :=
  inferInstanceAs (Decidable (∀ cell ∈ slot.cells, _))

theorem derived_values_consistent_importExport :
    Meets MeterSlot.step MeterSlot.Allowed importExportSlot
        [importExportCall (.ofInt 3) (.ofInt 1), importExportCall (.ofInt 2) (.ofInt 4)] ∧
      (run MeterSlot.step importExportSlot [importExportCall (.ofInt 3) (.ofInt 1),
        importExportCall (.ofInt 2) (.ofInt 4)]).Consistent := by
  have hcalls : Meets MeterSlot.step MeterSlot.Allowed importExportSlot
      [importExportCall (.ofInt 3) (.ofInt 1), importExportCall (.ofInt 2) (.ofInt 4)] := by
    refine ⟨⟨?_, ?_⟩, ⟨?_, ?_⟩, trivial⟩
    · change MeterSlot.Keeps _ _
      decide
    · decide
    · change MeterSlot.Keeps _ _
      decide
    · decide
  exact ⟨hcalls, derived_values_consistent 256 (Nat.le_refl _) importExportIds _ hcalls⟩

/-- An update of all values that leaves out the import keeps the old difference, although both
values are known, the import and the new export. -/
theorem derived_values_inconsistent :
    ¬ (run MeterSlot.step importExportSlot
      [importExportCall (.ofInt 3) (.ofInt 1), importExportCall nan (.ofInt 2)]).Consistent := by
  intro h
  have hvalue := h (valueCombinerFilters.getD 0 ⟨.phase2Sum, [], [], 0⟩, ⟨[0, 1], 2, 1⟩)
    (by decide) 0 _ rfl (by decide)
  exact absurd hvalue (by decide)

end Esp32Firmware.Meters
