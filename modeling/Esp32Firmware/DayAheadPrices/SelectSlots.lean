import Esp32Firmware.Library.Relaxation
import Esp32Firmware.Library.Runs

/-!
# Day ahead prices and the selection of slots

The price list, the list sorted by price and the queries over it. An array of
quarter hours that a caller passes in is a function from its indices; times are
minutes since the epoch. Signed differences of times are exact integers.

`dp_select_slots` selects a number of slots such that every run of selected and of
unselected slots has a minimum length. Its table assigns to every number of slots and of
selected slots the least price and the last block of such a selection.

## Implementation notes

The table is relaxed cell by cell in the order of the source, the edges of a cell are its
blocks. Costs are exact integers; they fit into 32 bits for prices of bounded magnitude.
Allocations succeed. The backtracking loop has as many rounds as there are slots, and no
result if they do not suffice.
-/

namespace Esp32Firmware

/-- `Resolution`, the length of one slot of the price list. -/
inductive Resolution where
  | min15
  | min60
  deriving DecidableEq, Repr

/-- The caller's array of quarter hours after the start time. -/
abbrev Slots := Nat → Bool

namespace Slots

/-- An array of which every entry is false. -/
def empty : Slots := fun _ => false

/-- `std::fill_n(slots, count, value)`. -/
def fill (slots : Slots) (count : Nat) (value : Bool) : Slots :=
  fun k => if k < count then value else slots k

/-- The first `count` entries. -/
def take (slots : Slots) (count : Nat) : List Bool := (List.range count).map slots

end Slots

/-- `static_cast<int32_t>` of an unsigned time. -/
def asInt32 (time : UInt32) : Int := time.toBitVec.toInt

/-- `DAY_AHEAD_PRICE_MAX_AMOUNT`. -/
def dayAheadPriceMaxAmount : Nat := 200

/-- The state of the price module that queries read. -/
structure DayAheadPrices where
  prices : List Int
  resolution : Resolution
  firstDate : UInt32
  /-- `state.current_price`, none while `current_price_available` is false. -/
  currentPrice : Option Int
  /-- The sorted list is allocated and `prices_sorted_available` is set. -/
  pricesSortedAvailable : Bool
  /-- Pairs of quarter hour and price. -/
  pricesSorted : List (Nat × Int)
  pricesSortedFirstDate : Int

namespace DayAheadPrices

/-- Quarter hours per slot of the price list. -/
def resolutionMul (p : DayAheadPrices) : Nat :=
  match p.resolution with
  | .min15 => 1
  | .min60 => 4

/-- The price of a quarter hour of the list. -/
def priceAt (p : DayAheadPrices) (index : Nat) : Int :=
  p.prices.getD (index / p.resolutionMul) 0

def updateCurrentPrice (timestampMinutes : UInt32) (p : DayAheadPrices) : DayAheadPrices :=
  let resolutionDivisor : UInt32 := if p.resolution = .min15 then 15 else 60
  let diff := timestampMinutes - p.firstDate
  { p with currentPrice := p.prices[(diff / resolutionDivisor).toNat]? }

/-- The quarter hours of the list before they are sorted. -/
def pricesUnsorted (p : DayAheadPrices) : List (Nat × Int) :=
  (List.range (min (p.prices.length * p.resolutionMul) dayAheadPriceMaxAmount)).map
    fun i => (i, p.priceAt i)

def updatePricesSorted (p : DayAheadPrices) : DayAheadPrices :=
  if p.prices.length = 0 then
    { p with pricesSortedAvailable := false }
  else
    { p with
      -- a stable sort by price
      pricesSorted := p.pricesUnsorted.insertionSort (fun a b => a.2 ≤ b.2)
      pricesSortedFirstDate := asInt32 p.firstDate
      pricesSortedAvailable := true }

/-- One loop over the sorted prices: the first `amount` quarter hours inside the
window are marked. -/
def markWindow (startIndex endIndex : Int) (amount : Nat) :
    List (Nat × Int) → Nat → Slots → Slots
  | [], _, hours => hours
  | (priceIndex, _) :: rest, count, hours =>
    if startIndex ≤ priceIndex ∧ priceIndex < endIndex then
      if count + 1 > amount then
        hours
      else
        markWindow startIndex endIndex amount rest (count + 1)
          (Function.update hours (priceIndex - startIndex).toNat true)
    else
      markWindow startIndex endIndex amount rest count hours

/-- `get_cheap_and_expensive_15m` for one of its arrays, the sorted prices in the
order in which that array takes them. -/
def getSlots15m (p : DayAheadPrices) (order : List (Nat × Int)) (startTime : Int)
    (duration15m amount15m : UInt8) (hours : Slots) : Bool × Slots :=
  if ¬ p.pricesSortedAvailable then
    (false, hours)
  else
    let startIndex := (startTime - p.pricesSortedFirstDate).tdiv 15
    let endIndex := startIndex + duration15m.toNat
    if startIndex ≥ endIndex then
      (false, hours)
    else
      (true, markWindow startIndex endIndex amount15m.toNat order 0
        (hours.fill duration15m.toNat false))

def getCheap15m (p : DayAheadPrices) : Int → UInt8 → UInt8 → Slots → Bool × Slots :=
  p.getSlots15m p.pricesSorted

def getExpensive15m (p : DayAheadPrices) : Int → UInt8 → UInt8 → Slots → Bool × Slots :=
  p.getSlots15m p.pricesSorted.reverse

/-- The common part of `add_below` and `remove_above`: quarter hours whose price
passes the test are set to a value. -/
def setWhere (p : DayAheadPrices) (test : Int → Bool) (value : Bool) (startTime : Int)
    (hours : Slots) (hoursLength : Nat) : Int × Slots :=
  let numPrices := p.prices.length * p.resolutionMul
  let startOffset := startTime - asInt32 p.firstDate
  let start := (startOffset.tdiv 15).toNat
  if numPrices = 0 then
    (-2, hours)
  else if startOffset < 0 ∨ start ≥ numPrices then
    (-3, hours)
  else
    let result := (List.range (min (numPrices - start) hoursLength)).foldl
      (fun (acc : Int × Slots) k =>
        if test (p.priceAt (start + k)) then ((k : Int), Function.update acc.2 k value) else acc)
      (-1, hours)
    (result.1 + 1, result.2)

def addBelow (p : DayAheadPrices) (startTime price : Int) (hours : Slots)
    (hoursLength : Nat) : Int × Slots :=
  p.setWhere (fun x => decide (x < price)) true startTime hours hoursLength

def removeAbove (p : DayAheadPrices) (startTime price : Int) (hours : Slots)
    (hoursLength : Nat) : Int × Slots :=
  p.setWhere (fun x => decide (x > price)) false startTime hours hoursLength

/-- The entries that a query marks. -/
def marked (startIndex endIndex : Int) (amount : Nat) (order : List (Nat × Int)) : List Nat :=
  ((order.filter fun e => decide (startIndex ≤ e.1 ∧ (e.1 : Int) < endIndex)).take amount).map
    fun e => ((e.1 : Int) - startIndex).toNat

theorem markWindow_apply (startIndex endIndex : Int) (amount : Nat)
    (order : List (Nat × Int)) (count : Nat) (hours : Slots) (k : Nat) :
    markWindow startIndex endIndex amount order count hours k
      = (hours k || decide (k ∈ marked startIndex endIndex (amount - count) order)) := by
  induction order generalizing count hours with
  | nil => simp [markWindow, marked]
  | cons entry rest ih =>
    obtain ⟨priceIndex, price⟩ := entry
    rw [markWindow]
    by_cases hin : startIndex ≤ (priceIndex : Int) ∧ (priceIndex : Int) < endIndex
    · rw [if_pos hin]
      by_cases hfull : count + 1 > amount
      · have hzero : amount - count = 0 := by omega
        rw [if_pos hfull, hzero]
        simp [marked]
      · have hsucc : amount - count = (amount - (count + 1)) + 1 := by omega
        rw [if_neg hfull, ih, hsucc]
        simp only [marked, List.filter_cons, decide_eq_true hin, if_true, List.take_succ_cons,
          List.map_cons, List.mem_cons]
        by_cases hk : k = ((priceIndex : Int) - startIndex).toNat
        · subst hk
          simp
        · simp [hk]
    · rw [if_neg hin, ih]
      have hskip : marked startIndex endIndex (amount - count) ((priceIndex, price) :: rest)
          = marked startIndex endIndex (amount - count) rest := by
        simp only [marked, List.filter_cons, decide_eq_false hin, Bool.false_eq_true, if_false]
      rw [hskip]

/-- A query that succeeds writes its whole window: nothing of the caller's array
is left inside it. -/
theorem getSlots15m_apply {p : DayAheadPrices} {order : List (Nat × Int)} {startTime : Int}
    {duration15m amount15m : UInt8} {hours : Slots}
    (hok : (p.getSlots15m order startTime duration15m amount15m hours).1 = true)
    {k : Nat} (hk : k < duration15m.toNat) :
    (p.getSlots15m order startTime duration15m amount15m hours).2 k
      = decide (k ∈ marked ((startTime - p.pricesSortedFirstDate).tdiv 15)
          ((startTime - p.pricesSortedFirstDate).tdiv 15 + duration15m.toNat)
          amount15m.toNat order) := by
  revert hok
  rw [getSlots15m]
  split
  · intro hok
    cases hok
  · dsimp only
    split
    · intro hok
      cases hok
    · intro _
      dsimp only
      rw [markWindow_apply]
      simp [Slots.fill, hk]

/-- Whether a query succeeds does not depend on the caller's array. -/
theorem getSlots15m_fst (p : DayAheadPrices) (order : List (Nat × Int)) (startTime : Int)
    (duration15m amount15m : UInt8) (hours : Slots) :
    (p.getSlots15m order startTime duration15m amount15m hours).1
      = (p.pricesSortedAvailable && decide (0 < duration15m.toNat)) := by
  rw [getSlots15m]
  cases p.pricesSortedAvailable with
  | false => simp
  | true =>
    simp only [not_true_eq_false, if_false, Bool.true_and]
    split
    · simp only [Bool.false_eq, decide_eq_false_iff_not]
      omega
    · simp only [Bool.true_eq, decide_eq_true_eq]
      omega

/-- A query that fails leaves the caller's array as it was. -/
theorem getSlots15m_failed {p : DayAheadPrices} {order : List (Nat × Int)} {startTime : Int}
    {duration15m amount15m : UInt8} {hours : Slots}
    (hfail : (p.getSlots15m order startTime duration15m amount15m hours).1 = false) :
    (p.getSlots15m order startTime duration15m amount15m hours).2 = hours := by
  revert hfail
  rw [getSlots15m]
  split
  · intro _
    rfl
  · dsimp only
    split
    · intro _
      rfl
    · intro hfail
      cases hfail

open Relaxation

/-- `DAY_AHEAD_PRICE_DP_MAX_SLOTS`. -/
def dpMaxSlots : Nat := 96

/-- `INF`, half of `INT32_MAX`. -/
def dpInf : Int := 2147483647 / 2

/-- `i` slots of which `j` are active. -/
abbrev Cell := Nat × Nat

/-- An entry of the parent table, an eight bit integer. -/
def packParent (prevI : Nat) (wasActive : Bool) : Nat := (prevI * 2 + wasActive.toNat) % 256

def prefixSum (prices : Nat → Int) : Nat → Int
  | 0 => 0
  | i + 1 => prefixSum prices i + prices i

/-- Inactive blocks after a cell: `for (len = B; i + len <= N; len++)`. -/
def inactiveBlocks (n b i j : Nat) : List (Edge Cell Int Nat) :=
  (List.range' b (n + 1 - i - b)).map fun len => ⟨(i + len, j), 0, packParent i false⟩

/-- Active blocks after a cell: `for (len = B; len <= K - j && i + len <= N; len++)`. -/
def activeBlocks (prices : Nat → Int) (n k b i j : Nat) : List (Edge Cell Int Nat) :=
  (List.range' b (min (k - j) (n - i) + 1 - b)).map fun len =>
    ⟨(i + len, j + len), prefixSum prices (i + len) - prefixSum prices i, packParent i true⟩

/-- The blocks that the body of the two outer loops places after a cell. -/
def blocksAfter (prices : Nat → Int) (n k b : Nat) : Cell → List (Edge Cell Int Nat)
  | (i, j) =>
    if i < n ∧ j ≤ k then inactiveBlocks n b i j ++ activeBlocks prices n k b i j else []

/-- The order of the two outer loops. -/
def cells (n k : Nat) : List Cell :=
  (List.range n).flatMap fun i => (List.range (k + 1)).map fun j => (i, j)

/-- The tables `dp` and `parent` after the loops. -/
def dpTables (prices : Nat → Int) (n k b : Nat) : Labels Cell Int Nat :=
  (cells n k).foldl (settle dpInf (blocksAfter prices n k b)) (Labels.initial dpInf (0, 0) 0)

/-- `while (ci > 0)`: the blocks are marked from the last to the first one. -/
def backtrack (parent : Cell → Nat) : Nat → Nat → Nat → Slots → Option Slots
  | 0, ci, _, result => if ci = 0 then some result else none
  | rounds + 1, ci, cj, result =>
    if ci = 0 then
      some result
    else
      let p := parent (ci, cj)
      let prevI := p / 2
      if p % 2 = 1 then
        backtrack parent rounds prevI (cj - (ci - prevI))
          fun s => if prevI ≤ s ∧ s < ci then true else result s
      else
        backtrack parent rounds prevI cj result

/-- Whether a selection was found, and the array `result` afterwards. -/
def dpSelectSlots (slotPrices : Nat → Int) (n k b : Nat) (result : Slots)
    (findExpensive : Bool) : Option (Bool × Slots) :=
  if k = 0 then
    some (true, result.fill n false)
  else if k = n then
    some (true, result.fill n true)
  else if k < b ∨ (n : Int) - k < b then
    some (false, result)
  else if n > dpMaxSlots then
    some (false, result)
  else
    let pricesWork := fun i => if findExpensive then -slotPrices i else slotPrices i
    let tables := dpTables pricesWork n k b
    if tables.cost (n, k) ≥ dpInf then
      some (false, result)
    else
      (backtrack tables.parent n n k (result.fill n false)).map fun selected => (true, selected)

example : (dpSelectSlots (fun i => if i = 1 then 4 else if i = 0 then 9 else 7) 4 2 2 Slots.empty
    false).map (fun r => (r.1, r.2.take 4)) = some (true, [true, true, false, false]) := by
  decide

/-- The number of selected slots. -/
def selectedCount (selected : Slots) (n : Nat) : Nat :=
  ∑ i ∈ Finset.range n, if selected i then 1 else 0

/-- The price of the selected slots. -/
def selectedPrice (prices : Nat → Int) (selected : Slots) (n : Nat) : Int :=
  ∑ i ∈ Finset.range n, if selected i then prices i else 0

/-- Exactly `k` of `n` slots in runs of at least `b` slots, or all slots or none. -/
structure Feasible (n k b : Nat) (selected : Slots) : Prop where
  count : selectedCount selected n = k
  runs : k = 0 ∨ k = n ∨ Runs.AtLeast selected n b

/-- The first selection is at least as cheap, or at least as expensive. -/
def AtLeastAsGood (findExpensive : Bool) (prices : Nat → Int) (n : Nat) (a b : Slots) : Prop :=
  if findExpensive then selectedPrice prices b n ≤ selectedPrice prices a n
  else selectedPrice prices a n ≤ selectedPrice prices b n

/-- Prices of which the tables hold every sum below `INF`. -/
def BoundedPrices (n : Nat) (prices : Nat → Int) : Prop :=
  ∀ i < n, |prices i| * dpMaxSlots < dpInf

end DayAheadPrices

end Esp32Firmware
