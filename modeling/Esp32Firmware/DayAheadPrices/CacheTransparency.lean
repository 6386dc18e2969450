import Esp32Firmware.DayAheadPrices.BlockedContract

/-!
# The cache of the blocked selection

Queries answer with or without the cache alike: an entry that is found holds the selection of
the current prices, and failed selections are stored as such.
-/

namespace Esp32Firmware.DayAheadPrices

open DayAheadPrices

variable {startTime : Int} {duration15m amount15m minBlock15m : UInt8} {findExpensive : Bool}

/-- The part of a query for one of the two arrays, with a new selection. -/
def answerArrayUncached (p : DayAheadPrices) (startTime : Int)
    (duration15m amount15m minBlock15m : UInt8) (findExpensive : Bool) :
    Option Slots → Option (Bool × Option Slots)
  | none => some (true, none)
  | some hours =>
    let q := p.dpQuery startTime duration15m amount15m minBlock15m findExpensive
    (dpSelectSlots (p.slotPrices q.startIndex) q.n q.k q.b Slots.empty q.findExpensive).map
      fun (found, selected) =>
        if found then (true, some (p.expandResult q selected hours))
        else
          let r := p.getUnblocked findExpensive startTime duration15m amount15m hours
          (r.1, some r.2)

namespace PriceModule

/-- The answer of a query that does not look anything up. -/
def getCheapAndExpensive15mBlockedUncached (m : PriceModule) (startTime : Int)
    (duration15m amount15m minBlock15m : UInt8) (cheapHours expensiveHours : Option Slots) :
    Option Answer :=
  if minBlock15m ≤ 1 then
    some (m.prices.getCheapAndExpensive15m startTime duration15m amount15m cheapHours
      expensiveHours)
  else if (cheapHours.isNone && expensiveHours.isNone) ∨ m.prices.prices.length = 0 ∨
      ¬ m.slotsAvailable startTime
        (m.prices.dpQuery startTime duration15m amount15m minBlock15m false) then
    some ⟨false, cheapHours, expensiveHours⟩
  else
    (answerArrayUncached m.prices startTime duration15m amount15m minBlock15m false
        cheapHours).bind fun (cheapOk, cheap) =>
      (answerArrayUncached m.prices startTime duration15m amount15m minBlock15m true
        expensiveHours).map fun (expensiveOk, expensive) =>
          ⟨expensiveOk && cheapOk, cheap, expensive⟩

variable {m : PriceModule}

/-- Only the slots of a query matter for what is expanded. -/
theorem expandResult_congr {p : DayAheadPrices} {q : DpQuery} {a b out : Slots}
    (h : ∀ i < q.n, a i = b i) : p.expandResult q a out = p.expandResult q b out := by
  ext i
  unfold expandResult
  split
  · split
    · rw [h _ (by omega)]
    · rfl
  · split
    · rw [h i ‹_›]
    · rfl

/-- A selection that does not end is not in the cache. -/
theorem select_eq_none (h : Consistent m) (hne : m.prices.prices ≠ []) {q : DpQuery}
    (hselect : dpSelectSlots (m.prices.slotPrices q.startIndex) q.n q.k q.b Slots.empty
      q.findExpensive = none) : m.select q = none := by
  unfold select
  cases hlookup : m.cacheLookup q with
  | none => rw [hselect, Option.map_none]
  | some e =>
    have hkey := List.find?_some hlookup
    simp only [Bool.and_eq_true, decide_eq_true_eq] at hkey
    obtain ⟨⟨hvalid, hgeneration⟩, rfl⟩ := hkey
    obtain ⟨selected, hselected, _⟩ :=
      h.cache hne e (List.mem_of_find?_eq_some hlookup) hvalid hgeneration
    rw [hselect] at hselected
    cases hselected

/-- One array is answered with the cache as without it. -/
theorem answerArray_transparent (h : Consistent m) (hne : m.prices.prices ≠ [])
    (hours : Option Slots) :
    (m.answerArray startTime duration15m amount15m minBlock15m findExpensive hours).map
        (fun r => (r.1, r.2.1)) =
      answerArrayUncached m.prices startTime duration15m amount15m minBlock15m findExpensive
        hours := by
  cases hours with
  | none => rfl
  | some hours =>
    unfold answerArray answerArrayUncached
    generalize m.prices.dpQuery startTime duration15m amount15m minBlock15m findExpensive = q
    cases hselect : dpSelectSlots (m.prices.slotPrices q.startIndex) q.n q.k q.b Slots.empty
        q.findExpensive with
    | none =>
      simp only [select_eq_none h hne hselect, hselect, Option.map_none]
    | some r =>
      obtain ⟨found, selected⟩ := r
      obtain ⟨result, m', hrun, hresult, _, _⟩ := select_spec h hne hselect
      simp only [hrun, hselect, Option.map_some]
      cases found with
      | true =>
        simp only [if_true]
        rw [expandResult_congr (hresult rfl)]
      | false => simp

/-- In every state that runs of price updates and queries reach, a query is answered as it would
be without the cache. -/
theorem blocked_query_transparent (ops : List Op) (startTime : Int)
    (duration15m amount15m minBlock15m : UInt8) (cheapHours expensiveHours : Option Slots) :
    let m := run PriceModule.step boot ops
    (m.getCheapAndExpensive15mBlocked startTime duration15m amount15m minBlock15m cheapHours
        expensiveHours).map Prod.fst =
      m.getCheapAndExpensive15mBlockedUncached startTime duration15m amount15m minBlock15m
        cheapHours expensiveHours := by
  intro m
  have h : Consistent m := run_consistent ops
  unfold getCheapAndExpensive15mBlocked getCheapAndExpensive15mBlockedUncached
  split
  · rfl
  · split
    · rfl
    · rename_i havailable
      have hne : m.prices.prices ≠ [] := by
        intro hnil
        exact havailable (.inr (.inl (by rw [hnil]; rfl)))
      rw [← answerArray_transparent h hne cheapHours]
      cases hcheap : m.answerArray startTime duration15m amount15m minBlock15m false
          cheapHours with
      | none => rfl
      | some r =>
        obtain ⟨cheapOk, cheap, m'⟩ := r
        obtain ⟨h', hprices⟩ := answerArray_consistent h hcheap
        -- the second array finds the cache of the first one, and the same prices
        rw [← hprices] at hne ⊢
        simp only [Option.bind_some, Option.map_some]
        rw [← answerArray_transparent h' hne expensiveHours, Option.map_map, Option.map_map]
        rfl

end PriceModule

end Esp32Firmware.DayAheadPrices
