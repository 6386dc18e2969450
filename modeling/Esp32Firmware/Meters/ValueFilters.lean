import Esp32Firmware.Library.Binary32.Special

/-!
# Meter values and the filters that derive values

A meter declares the IDs of the values it reports. Filters whose inputs are declared and whose
outputs are not append derived values; every update of the reported values runs them again.

## Implementation notes

One meter slot is described. An array is a function on positions, next to the count of positions
that are in use. Time stamps, the power history and the index caches are left out. A NaN has a
single bit pattern. `stack` is what an uninitialised local array holds.
-/

namespace Esp32Firmware.Meters

open Binary32

abbrev Value := Float32.Model

/-- An ID is its number in `meter_value_id.csv`. -/
structure MeterValueID where
  id : ℕ
  deriving DecidableEq, Repr

namespace MeterValueID

abbrev powerActiveL1Import : MeterValueID := ⟨36⟩

abbrev powerActiveL1Export : MeterValueID := ⟨37⟩

abbrev powerActiveL2Import : MeterValueID := ⟨45⟩

abbrev powerActiveL2Export : MeterValueID := ⟨46⟩

abbrev powerActiveL3Import : MeterValueID := ⟨54⟩

abbrev powerActiveL3Export : MeterValueID := ⟨55⟩

abbrev powerActiveL1ImExDiff : MeterValueID := ⟨39⟩

abbrev powerActiveL2ImExDiff : MeterValueID := ⟨48⟩

abbrev powerActiveL3ImExDiff : MeterValueID := ⟨57⟩

abbrev powerActiveLSumImExDiff : MeterValueID := ⟨74⟩

abbrev currentL1ImExSum : MeterValueID := ⟨13⟩

abbrev currentL2ImExSum : MeterValueID := ⟨17⟩

abbrev currentL3ImExSum : MeterValueID := ⟨21⟩

abbrev currentL1ImExDiff : MeterValueID := ⟨14⟩

abbrev currentL2ImExDiff : MeterValueID := ⟨18⟩

abbrev currentL3ImExDiff : MeterValueID := ⟨22⟩

abbrev powerFactorL1Directional : MeterValueID := ⟨353⟩

abbrev powerFactorL2Directional : MeterValueID := ⟨354⟩

abbrev powerFactorL3Directional : MeterValueID := ⟨355⟩

abbrev powerPVSumExport : MeterValueID := ⟨452⟩

abbrev powerPVSumImExDiff : MeterValueID := ⟨453⟩

end MeterValueID

structure ValueCombinerFilterData where
  inputPos : List ℕ
  outputPos : ℕ
  param : ℕ
  deriving DecidableEq, Repr

def ValueCombinerFilterData.input (d : ValueCombinerFilterData) (i : ℕ) : ℕ := d.inputPos.getD i 0

def getValueFromConcatValues (n : ℕ) (base extra : ℕ → Value) (index : ℕ) : Value :=
  if index < n then base index else extra (index - n)

/-- Combine the inputs of every phase. -/
def filterPairs (combine : Value → Value → Value) (d : ValueCombinerFilterData) (n : ℕ)
    (base extra : ℕ → Value) : ℕ → Value :=
  (List.range d.param).foldl (fun extra i =>
    let first := getValueFromConcatValues n base extra (d.input (2 * i))
    let second := getValueFromConcatValues n base extra (d.input (2 * i + 1))
    Function.update extra (d.outputPos - n + i) (combine first second)) extra

def filterImEx2ImExDiff := filterPairs fun im ex => im - ex

def filterSign2Sign := filterPairs fun receiver donor => replaceSign receiver donor

def filterPhase2Sum (d : ValueCombinerFilterData) (n : ℕ) (base extra : ℕ → Value) : ℕ → Value :=
  let l1 := getValueFromConcatValues n base extra (d.input 0)
  let l2 := getValueFromConcatValues n base extra (d.input 1)
  let l3 := getValueFromConcatValues n base extra (d.input 2)
  Function.update extra (d.outputPos - n) (l1 + l2 + l3)

/-- A zero keeps its sign. -/
def zeroSafeNegation (f : Value) : Value :=
  if f == Float32.Model.ofInt 0 then f else f * Float32.Model.ofInt (-1)

def filterEx2ImExDiff (d : ValueCombinerFilterData) (n : ℕ) (base extra : ℕ → Value) : ℕ → Value :=
  let ex := getValueFromConcatValues n base extra (d.input 0)
  Function.update extra (d.outputPos - n) (zeroSafeNegation ex)

inductive FilterFn
  | imEx2ImExDiff
  | sign2Sign
  | phase2Sum
  | ex2ImExDiff
  deriving DecidableEq, Repr

def FilterFn.run : FilterFn → ValueCombinerFilterData → ℕ → (ℕ → Value) → (ℕ → Value) → ℕ → Value
  | imEx2ImExDiff => filterImEx2ImExDiff
  | sign2Sign => filterSign2Sign
  | phase2Sum => filterPhase2Sum
  | ex2ImExDiff => filterEx2ImExDiff

/-- The lists of IDs end where the source has `NotSupported`. -/
structure ValueCombinerFilter where
  fn : FilterFn
  inputIds : List MeterValueID
  outputIds : List MeterValueID
  param : ℕ
  deriving DecidableEq, Repr

open MeterValueID in
def valueCombinerFilters : List ValueCombinerFilter :=
  [ -- Power import and export to ImExDiff
    { fn := .imEx2ImExDiff
      inputIds := [powerActiveL1Import, powerActiveL1Export, powerActiveL2Import,
        powerActiveL2Export, powerActiveL3Import, powerActiveL3Export]
      outputIds := [powerActiveL1ImExDiff, powerActiveL2ImExDiff, powerActiveL3ImExDiff]
      param := 3 },
    -- Directional currents from power factors
    { fn := .sign2Sign
      inputIds := [currentL1ImExSum, powerFactorL1Directional, currentL2ImExSum,
        powerFactorL2Directional, currentL3ImExSum, powerFactorL3Directional]
      outputIds := [currentL1ImExDiff, currentL2ImExDiff, currentL3ImExDiff]
      param := 3 },
    -- Directional currents from power
    { fn := .sign2Sign
      inputIds := [currentL1ImExSum, powerActiveL1ImExDiff, currentL2ImExSum,
        powerActiveL2ImExDiff, currentL3ImExSum, powerActiveL3ImExDiff]
      outputIds := [currentL1ImExDiff, currentL2ImExDiff, currentL3ImExDiff]
      param := 3 },
    -- Phase sum from phases
    { fn := .phase2Sum
      inputIds := [powerActiveL1ImExDiff, powerActiveL2ImExDiff, powerActiveL3ImExDiff]
      outputIds := [powerActiveLSumImExDiff]
      param := 0 },
    -- Power PV export to ImExDiff
    { fn := .ex2ImExDiff
      inputIds := [powerPVSumExport]
      outputIds := [powerPVSumImExDiff]
      param := 0 } ]

/-- The filters that apply are kept in order with their data; the source has a bit mask for them,
which it reads from the first filter on. -/
structure MeterSlot where
  valueIds : List MeterValueID
  values : ℕ → Value
  baseValueCount : ℕ
  filters : List (ValueCombinerFilter × ValueCombinerFilterData)

def nan : Value := .pack .notANumber

def MeterSlot.initial : MeterSlot := ⟨[], fun _ => nan, 0, []⟩

def metersFindIdIndex (ids : List MeterValueID) (id : MeterValueID) : Option ℕ := ids.idxOf? id

/-- Write the outputs of a filter behind the IDs; `none` if one is there already, or if the array
is full. -/
def declareOutputs (capacity : ℕ) (ids : List MeterValueID) : ℕ → List MeterValueID → Option ℕ
  | count, [] => some count
  | count, vid :: rest =>
    if (metersFindIdIndex ids vid).isSome then none
    else if capacity ≤ ids.length + count then none
    else declareOutputs capacity ids (count + 1) rest

/-- Which inputs of a filter were found, its parameter and how many outputs it has. -/
structure InputMatch where
  inputPos : List ℕ
  param : ℕ
  outputCount : ℕ
  deriving DecidableEq, Repr

/-- Positions are cast to bytes. A filter for three phases may match the first ones only. -/
def matchInputs (ids : List MeterValueID) (param outputCount : ℕ) :
    List ℕ → List MeterValueID → Option InputMatch
  | found, [] => some ⟨found, param, outputCount⟩
  | found, vid :: rest =>
    match metersFindIdIndex ids vid with
    | some pos => matchInputs ids param outputCount (found ++ [pos % 256]) rest
    | none =>
      if param = 3 ∧ 0 < found.length ∧ found.length % 2 = 0 then
        if outputCount ≠ 3 then none
        else some ⟨found, found.length / 2, found.length / 2⟩
      else none

/-- The IDs and the filters that apply so far. -/
abbrev Declaration := List MeterValueID × List (ValueCombinerFilter × ValueCombinerFilterData)

def declareFilter (capacity : ℕ) (d : Declaration) (filter : ValueCombinerFilter) : Declaration :=
  match declareOutputs capacity d.1 0 filter.outputIds with
  | none => d
  | some count =>
    match matchInputs d.1 filter.param count [] filter.inputIds with
    | none => d
    | some m =>
      (d.1 ++ filter.outputIds.take m.outputCount,
        d.2 ++ [(filter, ⟨m.inputPos, d.1.length % 256, m.param⟩)])

/-- `capacity` is the length of the arrays of values, which is fixed at compile time. -/
def declareValueIds (capacity : ℕ) (slot : MeterSlot) (newIds : List MeterValueID) : MeterSlot :=
  if slot.valueIds ≠ [] then slot
  else if newIds = [] then slot
  else
    let total := valueCombinerFilters.foldl (declareFilter capacity) (newIds, slot.filters)
    { valueIds := total.1
      values := fun _ => nan
      baseValueCount := newIds.length
      filters := total.2 }

/-- A float that compares equal to the old one is not written. -/
def updateFloat (old new : Value) : Value := if old == new then old else new

def storeValue (values : ℕ → Value) (index : ℕ) (new : Value) : ℕ → Value :=
  Function.update values index (updateFloat (values index) new)

/-- What the filters compute from the base values. -/
def MeterSlot.extraValues (slot : MeterSlot) (stack base : ℕ → Value) : ℕ → Value :=
  slot.filters.foldl (fun extra f => f.1.fn.run f.2 slot.baseValueCount base extra) stack

/-- Store the derived values that are not NaN. -/
def storeExtraValues (n : ℕ) (extra values : ℕ → Value) (count : ℕ) : ℕ → Value :=
  (List.range count).foldl (fun values i =>
    if (extra i).isNaN then values else storeValue values (n + i) (extra i)) values

def applyFilters (stack : ℕ → Value) (slot : MeterSlot) (base : ℕ → Value) : MeterSlot :=
  { slot with values := storeExtraValues slot.baseValueCount (slot.extraValues stack base)
                slot.values (slot.valueIds.length - slot.baseValueCount) }

def updateValue (stack : ℕ → Value) (slot : MeterSlot) (index : ℕ) (newValue : Value) : MeterSlot :=
  if newValue.isNaN then slot
  else if index = 0xFFFFFFFF then slot
  else if slot.valueIds.length ≤ index then slot
  else
    let stored := { slot with values := storeValue slot.values index newValue }
    if stored.filters.isEmpty then stored else applyFilters stack stored stored.values

/-- The new values of a batch: at the positions of a list of indices, or at all base positions. -/
inductive Batch
  | indexed (entries : List (ℕ × Value))
  | all (newValues : ℕ → Value)

def Batch.entries (n : ℕ) : Batch → List (ℕ × Value)
  | indexed entries => entries
  | all newValues => (List.range n).map fun i => (i, newValues i)

/-- A NaN and an index of no base value are skipped. -/
def storeEntry (n : ℕ) (values : ℕ → Value) (entry : ℕ × Value) : ℕ → Value :=
  if n ≤ entry.1 then values
  else if entry.2.isNaN then values
  else storeValue values entry.1 entry.2

def updateBatchValues (stack : ℕ → Value) (slot : MeterSlot) (batch : Batch) : MeterSlot :=
  let n := slot.baseValueCount
  let stored := { slot with values := (batch.entries n).foldl (storeEntry n) slot.values }
  if stored.filters.isEmpty then stored
  else match batch with
    | .indexed _ => applyFilters stack stored stored.values
    | .all newValues => applyFilters stack stored newValues

def updateAllValues (stack : ℕ → Value) (slot : MeterSlot) (newValues : ℕ → Value) : MeterSlot :=
  updateBatchValues stack slot (.all newValues)

/-- The values of a config array with as many elements as there are base values. -/
def updateAllConfigValues (stack : ℕ → Value) (slot : MeterSlot) (newValues : List Value) :
    MeterSlot :=
  if newValues.length ≠ slot.baseValueCount then slot
  else updateAllValues stack slot fun i => newValues.getD i nan

/-- A call of one of the update functions. -/
inductive Update
  | value (index : ℕ) (newValue : Value)
  | batch (entries : List (ℕ × Value))
  | all (newValues : ℕ → Value)
  | allConfig (newValues : List Value)

/-- The garbage on the stack may be another one for every call. -/
structure Call where
  stack : ℕ → Value
  update : Update

def MeterSlot.step (slot : MeterSlot) (c : Call) : MeterSlot :=
  match c.update with
  | .value index newValue => updateValue c.stack slot index newValue
  | .batch entries => updateBatchValues c.stack slot (.indexed entries)
  | .all newValues => updateAllValues c.stack slot newValues
  | .allConfig newValues => updateAllConfigValues c.stack slot newValues

end Esp32Firmware.Meters
