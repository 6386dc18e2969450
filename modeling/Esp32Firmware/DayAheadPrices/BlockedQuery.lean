import Esp32Firmware.DayAheadPrices.SelectSlotsOptimal
import Esp32Firmware.Library.Run

/-!
# Cheap and expensive quarter hours in blocks

`get_cheap_and_expensive_15m_blocked` reduces a query to the slots of the price list, looks
the selection up in a cache or computes it, and expands it to quarter hours again. Where no
selection in blocks is found, the unblocked query answers.

## Implementation notes

The cache is allocated and its generation does not wrap around. The local array that
receives a new selection is not initialised in the source; here it is empty.
-/

namespace Esp32Firmware.DayAheadPrices

/-- The unblocked query for one array. -/
def getUnblocked (p : DayAheadPrices) (findExpensive : Bool) :
    Int → UInt8 → UInt8 → Slots → Bool × Slots :=
  if findExpensive then p.getExpensive15m else p.getCheap15m

/-- The answer of a query: its return value and the caller's arrays. -/
structure Answer where
  success : Bool
  cheapHours : Option Slots
  expensiveHours : Option Slots

def getCheapAndExpensive15m (p : DayAheadPrices) (startTime : Int) (duration15m amount15m : UInt8)
    (cheapHours expensiveHours : Option Slots) : Answer :=
  let cheap := cheapHours.map (p.getUnblocked false startTime duration15m amount15m)
  let expensive := expensiveHours.map (p.getUnblocked true startTime duration15m amount15m)
  { success := (cheapHours.isSome || expensiveHours.isSome) &&
      (cheap.map Prod.fst).getD true && (expensive.map Prod.fst).getD true
    cheapHours := cheap.map Prod.snd
    expensiveHours := expensive.map Prod.snd }

/-- A query in slots of the price list. The first slot is given as a quarter hour. -/
structure DpQuery where
  startIndex : Nat
  n : Nat
  k : Nat
  b : Nat
  findExpensive : Bool
  deriving DecidableEq

def useHourlyDp (p : DayAheadPrices) : Bool := p.resolutionMul = 4

def dpQuery (p : DayAheadPrices) (startTime : Int) (duration15m amount15m minBlock15m : UInt8)
    (findExpensive : Bool) : DpQuery :=
  let startIndex := ((startTime - asInt32 p.firstDate).tdiv 15).toNat
  if p.useHourlyDp then
    ⟨startIndex, duration15m.toNat / 4, amount15m.toNat / 4, (minBlock15m.toNat + 3) / 4,
      findExpensive⟩
  else
    ⟨startIndex, duration15m.toNat, amount15m.toNat, minBlock15m.toNat, findExpensive⟩

/-- The quarter hour of the price list that slot `i` of a query starts with. -/
def rawIndex (p : DayAheadPrices) (startIndex i : Nat) : Nat :=
  startIndex + if p.useHourlyDp then i * 4 else i

/-- The prices of the slots of a query. -/
def slotPrices (p : DayAheadPrices) (startIndex i : Nat) : Int :=
  p.priceAt (p.rawIndex startIndex i)

/-- An entry of the caller's array after the selected slots are expanded. -/
def expandResult (p : DayAheadPrices) (q : DpQuery) (dpResult out : Slots) : Slots :=
  fun i =>
    if p.useHourlyDp then
      if i < 4 * q.n then dpResult (i / 4) else out i
    else
      if i < q.n then dpResult i else out i

structure DpCacheEntry where
  query : DpQuery
  success : Bool
  generation : Nat
  valid : Bool
  result : Slots

/-- The price module with its cache of selections. -/
structure PriceModule where
  prices : DayAheadPrices
  generation : Nat
  cache : List DpCacheEntry
  cacheNext : Nat

/-- `DP_CACHE_SIZE`. -/
def dpCacheSize : Nat := 12

namespace PriceModule

def cacheLookup (m : PriceModule) (q : DpQuery) : Option DpCacheEntry :=
  m.cache.find? fun e => e.valid && decide (e.generation = m.generation) && decide (e.query = q)

def cacheStore (m : PriceModule) (q : DpQuery) (success : Bool) (result : Slots) : PriceModule :=
  let old := (m.cache[m.cacheNext]?.map DpCacheEntry.result).getD Slots.empty
  { m with
    cache := m.cache.set m.cacheNext
      { query := q
        success := success
        generation := m.generation
        valid := true
        result := if success then fun i => decide (i < q.n) && result i else old }
    cacheNext := (m.cacheNext + 1) % dpCacheSize }

/-- A selection from the cache, or a new one that is put there. -/
def select (m : PriceModule) (q : DpQuery) : Option (Bool × Slots × PriceModule) :=
  match m.cacheLookup q with
  | some e => some (e.success, e.result, m)
  | none =>
    (dpSelectSlots (m.prices.slotPrices q.startIndex) q.n q.k q.b Slots.empty
      q.findExpensive).map fun r => (r.1, r.2, m.cacheStore q r.1 r.2)

/-- The part of the query for one of the two arrays. -/
def answerArray (m : PriceModule) (startTime : Int) (duration15m amount15m minBlock15m : UInt8)
    (findExpensive : Bool) : Option Slots → Option (Bool × Option Slots × PriceModule)
  | none => some (true, none, m)
  | some hours =>
    let q := m.prices.dpQuery startTime duration15m amount15m minBlock15m findExpensive
    (m.select q).map fun (found, selected, m') =>
      if found then
        (true, some (m.prices.expandResult q selected hours), m')
      else
        let r := m.prices.getUnblocked findExpensive startTime duration15m amount15m hours
        (r.1, some r.2, m')

/-- The checks before any selection: the slots are few enough and have prices. -/
def slotsAvailable (m : PriceModule) (startTime : Int) (q : DpQuery) : Prop :=
  asInt32 m.prices.firstDate ≤ startTime ∧ q.n ≤ dpMaxSlots ∧
    ∀ i < q.n, m.prices.rawIndex q.startIndex i < m.prices.prices.length * m.prices.resolutionMul

instance (m : PriceModule) (startTime : Int) (q : DpQuery) :
    Decidable (m.slotsAvailable startTime q) :=
  inferInstanceAs (Decidable (_ ∧ _ ∧ _))

/-- The answer and the cache afterwards; none if the selection does not end. -/
def getCheapAndExpensive15mBlocked (m : PriceModule) (startTime : Int)
    (duration15m amount15m minBlock15m : UInt8) (cheapHours expensiveHours : Option Slots) :
    Option (Answer × PriceModule) :=
  if minBlock15m ≤ 1 then
    some (m.prices.getCheapAndExpensive15m startTime duration15m amount15m cheapHours
      expensiveHours, m)
  else if (cheapHours.isNone && expensiveHours.isNone) ∨ m.prices.prices.length = 0 ∨
      ¬ m.slotsAvailable startTime
        (m.prices.dpQuery startTime duration15m amount15m minBlock15m false) then
    some (⟨false, cheapHours, expensiveHours⟩, m)
  else
    (m.answerArray startTime duration15m amount15m minBlock15m false cheapHours).bind
      fun (cheapOk, cheap, m') =>
        (m'.answerArray startTime duration15m amount15m minBlock15m true expensiveHours).map
          fun (expensiveOk, expensive, m'') => (⟨expensiveOk && cheapOk, cheap, expensive⟩, m'')

/-- What happens to the module: new prices, prices that are discarded because the
configuration changes (the sorted list may be freed), and queries. -/
inductive Op where
  | newPrices (timestampMinutes firstDate : UInt32) (resolution : Resolution) (prices : List Int)
  | discardPrices (resolution : Resolution) (freeSorted : Bool)
  | query (startTime : Int) (duration15m amount15m minBlock15m : UInt8)
      (cheapHours expensiveHours : Option Slots)

/-- New prices, sorted and with a new generation. -/
def setPrices (m : PriceModule) (timestampMinutes firstDate : UInt32) (resolution : Resolution)
    (prices : List Int) : PriceModule :=
  { m with
    prices := updatePricesSorted (updateCurrentPrice timestampMinutes
      { m.prices with firstDate := firstDate, resolution := resolution, prices := prices })
    generation := if prices.length = 0 then m.generation else m.generation + 1 }

def step (m : PriceModule) : Op → PriceModule
  | .newPrices timestampMinutes firstDate resolution prices =>
    m.setPrices timestampMinutes firstDate resolution prices
  | .discardPrices resolution freeSorted =>
    { m with
      prices :=
        { m.prices with
          firstDate := 0
          resolution := resolution
          prices := []
          currentPrice := none
          pricesSortedAvailable := m.prices.pricesSortedAvailable && !freeSorted } }
  | .query startTime duration15m amount15m minBlock15m cheapHours expensiveHours =>
    match m.getCheapAndExpensive15mBlocked startTime duration15m amount15m minBlock15m
        cheapHours expensiveHours with
    | none => m
    | some (_, m') => m'

/-- The module after boot. -/
def boot : PriceModule where
  prices :=
    { prices := []
      resolution := .min60
      firstDate := 0
      currentPrice := none
      pricesSortedAvailable := false
      pricesSorted := []
      pricesSortedFirstDate := 0 }
  generation := 0
  cache := List.replicate dpCacheSize ⟨⟨0, 0, 0, 0, false⟩, false, 0, false, Slots.empty⟩
  cacheNext := 0

end PriceModule

end Esp32Firmware.DayAheadPrices
