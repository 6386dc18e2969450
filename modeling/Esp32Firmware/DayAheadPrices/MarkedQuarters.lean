import Esp32Firmware.DayAheadPrices.BlockedContract

/-!
# Cheap and expensive quarter hours without blocks

The first prices of a window in the sorted list are the cheap ones, the last ones are the
expensive ones. The sorted list has the first 200 quarter hours of the price list, so a quarter
hour behind them counts as one without a price.
-/

namespace Esp32Firmware.DayAheadPrices

open Runs

/-- The quarter hour of the price list that the time of an entry of the caller's array lies in. -/
def entryIndex (p : DayAheadPrices) (startTime : Int) (k : Nat) : Int :=
  p.quarterIndex startTime + k

/-- An entry whose quarter hour is in the sorted list. -/
def Priced (p : DayAheadPrices) (startTime : Int) (k : Nat) : Prop :=
  0 ≤ p.entryIndex startTime k ∧
    p.entryIndex startTime k < (min p.numQuarters dayAheadPriceMaxAmount : Nat)

instance (p : DayAheadPrices) (startTime : Int) (k : Nat) : Decidable (p.Priced startTime k) :=
  inferInstanceAs (Decidable (_ ∧ _))

def entryPrice (p : DayAheadPrices) (startTime : Int) (k : Nat) : Int :=
  p.priceAt (p.entryIndex startTime k).toNat

/-- The entries of a window with a price. -/
def pricedCount (p : DayAheadPrices) (startTime : Int) (duration : Nat) : Nat :=
  selectedCount (fun k => decide (p.Priced startTime k)) duration

/-- What a query writes into one of its arrays: as many marks as asked for where there are
prices, none outside of the window, and no unmarked price before a marked one. -/
structure MarksRight (p : DayAheadPrices) (startTime : Int) (duration15m amount15m : UInt8)
    (before : Int → Int → Prop) (old hours : Slots) : Prop where
  count : selectedCount hours duration15m.toNat
    = min amount15m.toNat (p.pricedCount startTime duration15m.toNat)
  outside : ∀ k ≥ duration15m.toNat, hours k = old k
  priced : ∀ k < duration15m.toNat, hours k = true → p.Priced startTime k
  extreme : ∀ k < duration15m.toNat, ∀ l < duration15m.toNat, hours k = true → hours l = false →
    p.Priced startTime l → ∃ a ∈ p.coveringPrice (startTime + 15 * k),
      ∃ b ∈ p.coveringPrice (startTime + 15 * l), before a b

variable {p : DayAheadPrices} {startTime : Int} {duration15m amount15m : UInt8}
  {findExpensive : Bool}

/-- The entries of the window in the order of a query. -/
def windowOf (p : DayAheadPrices) (startTime : Int) (duration : Nat) (findExpensive : Bool) :
    List (Nat × Int) :=
  (p.orderOf findExpensive).filter fun e =>
    decide (p.entryIndex startTime 0 ≤ e.1 ∧ (e.1 : Int) < p.entryIndex startTime 0 + duration)

/-- The entry of the caller's array. -/
def entryOf (p : DayAheadPrices) (startTime : Int) (e : Nat × Int) : Nat :=
  ((e.1 : Int) - p.entryIndex startTime 0).toNat

theorem entryIndex_eq (p : DayAheadPrices) (startTime : Int) (k : Nat) :
    p.entryIndex startTime k = p.entryIndex startTime 0 + k := by
  simp [entryIndex]

variable {duration k : Nat} {e e' : Nat × Int} {hours : Slots}

theorem entryPrice_eq_coveringPrice (h : p.Priced startTime k) :
    p.coveringPrice (startTime + 15 * k) = some (p.entryPrice startTime k) := by
  obtain ⟨hnonneg, hlt⟩ := h
  exact coveringPrice_eq (Int.toNat_of_nonneg hnonneg) (by omega)

theorem mem_windowOf (hsorted : SortedRight p) :
    e ∈ p.windowOf startTime duration findExpensive ↔
      p.entryOf startTime e < duration ∧ p.Priced startTime (p.entryOf startTime e) ∧
        (e.1 : Int) = p.entryIndex startTime (p.entryOf startTime e) ∧
        e.2 = p.entryPrice startTime (p.entryOf startTime e) := by
  rw [windowOf, List.mem_filter, (orderOf_perm hsorted findExpensive).mem_iff, mem_pricesUnsorted,
    decide_eq_true_eq, entryPrice, Priced, entryIndex_eq p startTime (p.entryOf startTime e)]
  constructor
  · rintro ⟨⟨hlt, hprice⟩, hle, hend⟩
    have hentry : (p.entryOf startTime e : Int) = e.1 - p.entryIndex startTime 0 := by
      rw [entryOf, Int.toNat_of_nonneg (by omega)]
    have hindex : p.entryIndex startTime 0 + (p.entryOf startTime e : Int) = e.1 := by omega
    rw [hindex]
    exact ⟨by omega, ⟨by omega, by exact_mod_cast hlt⟩, rfl, by rw [hprice]; rfl⟩
  · rintro ⟨hk, ⟨hnonneg, hlt⟩, hindex, hprice⟩
    rw [← hindex] at hlt hprice
    exact ⟨⟨by exact_mod_cast hlt, by rw [hprice]; rfl⟩, by omega, by omega⟩

/-- What a query that succeeds marks. -/
theorem getUnblocked_marks (hsorted : SortedRight p)
    (hstart : asInt32 p.firstDate ≤ startTime ∨ 15 ∣ startTime - asInt32 p.firstDate)
    (hok : (p.getUnblocked findExpensive startTime duration15m amount15m hours).1 = true)
    (hk : k < duration15m.toNat) :
    (p.getUnblocked findExpensive startTime duration15m amount15m hours).2 k = true ↔
      ∃ e ∈ (p.windowOf startTime duration15m.toNat findExpensive).take amount15m.toNat,
        p.entryOf startTime e = k := by
  rw [getUnblocked_eq] at hok ⊢
  rw [getSlots15m_apply hok hk, decide_eq_true_eq, hsorted.firstDate, tdiv_eq_quarterIndex hstart,
    marked, List.mem_map]
  simp [windowOf, entryOf, entryIndex]

/-- Prices do not fall along the sorted list. -/
theorem windowOf_pairwise (hsorted : SortedRight p) (startTime : Int) (duration : Nat) :
    (p.windowOf startTime duration false).Pairwise fun a b => a.2 ≤ b.2 := by
  have hpairwise : p.pricesSorted.Pairwise fun a b => a.2 ≤ b.2 := by
    rw [hsorted.sorted]
    have htotal : Std.Total fun a b : Nat × Int => a.2 ≤ b.2 := ⟨fun a b => le_total a.2 b.2⟩
    have htrans : IsTrans (Nat × Int) fun a b => a.2 ≤ b.2 := ⟨fun a b c => le_trans⟩
    exact List.pairwise_insertionSort _ _
  exact hpairwise.filter _

theorem windowOf_true (p : DayAheadPrices) (startTime : Int) (duration : Nat) :
    p.windowOf startTime duration true = (p.windowOf startTime duration false).reverse := by
  simp [windowOf, orderOf, List.filter_reverse]

theorem windowOf_nodup (hsorted : SortedRight p) (startTime : Int) (duration : Nat)
    (findExpensive : Bool) : (p.windowOf startTime duration findExpensive).Nodup := by
  have hnodup : ((p.orderOf findExpensive).map Prod.fst).Nodup :=
    ((orderOf_perm hsorted findExpensive).map Prod.fst).nodup_iff.mpr (pricesUnsorted_nodup p)
  exact hnodup.of_map.filter _

/-- Entries of the window with the same place in the caller's array are the same. -/
theorem eq_of_entryOf_eq (hsorted : SortedRight p) (he : e ∈ p.windowOf startTime duration false)
    (he' : e' ∈ p.windowOf startTime duration false)
    (h : p.entryOf startTime e = p.entryOf startTime e') : e = e' := by
  obtain ⟨-, -, hindex, hprice⟩ := (mem_windowOf hsorted).mp he
  obtain ⟨-, -, hindex', hprice'⟩ := (mem_windowOf hsorted).mp he'
  apply Prod.ext
  · have hsame : (e.1 : Int) = e'.1 := by rw [hindex, hindex', h]
    exact_mod_cast hsame
  · rw [hprice, hprice', h]

theorem exists_windowOf (findExpensive : Bool) (hsorted : SortedRight p) (hk : k < duration)
    (hpriced : p.Priced startTime k) :
    ∃ e ∈ p.windowOf startTime duration findExpensive, p.entryOf startTime e = k := by
  obtain ⟨index, hindex⟩ := Int.eq_ofNat_of_zero_le hpriced.1
  have hentry : p.entryOf startTime (index, p.priceAt index) = k := by
    rw [entryOf, ← hindex, entryIndex_eq]
    omega
  refine ⟨(index, p.priceAt index), (mem_windowOf hsorted).mpr ?_, hentry⟩
  rw [hentry]
  refine ⟨hk, hpriced, hindex.symm, ?_⟩
  rw [entryPrice, hindex]
  rfl

/-- The first entries of the window are at the end of the order that the prices are in. -/
theorem take_before_drop (hsorted : SortedRight p) {amount : Nat}
    (he : e ∈ (p.windowOf startTime duration findExpensive).take amount)
    (he' : e' ∈ (p.windowOf startTime duration findExpensive).drop amount) :
    if findExpensive then e'.2 ≤ e.2 else e.2 ≤ e'.2 := by
  have hpairwise := windowOf_pairwise hsorted startTime duration
  cases findExpensive with
  | false =>
    rw [← List.take_append_drop amount (p.windowOf startTime duration false)] at hpairwise
    exact (List.pairwise_append.mp hpairwise).2.2 e he e' he'
  | true =>
    rw [windowOf_true] at he he'
    rw [← List.pairwise_reverse,
      ← List.take_append_drop amount (p.windowOf startTime duration false).reverse] at hpairwise
    exact (List.pairwise_append.mp hpairwise).2.2 e he e' he'

theorem getUnblocked_outside (hk : duration15m.toNat ≤ k)
    (hok : (p.getUnblocked findExpensive startTime duration15m amount15m hours).1 = true) :
    (p.getUnblocked findExpensive startTime duration15m amount15m hours).2 k = hours k := by
  rw [getUnblocked_eq] at hok ⊢
  revert hok
  rw [getSlots15m]
  split
  · intro hok
    cases hok
  · dsimp only
    split
    · intro hok
      cases hok
    · intro _
      dsimp only
      rw [markWindow_apply]
      have hfill : (hours.fill duration15m.toNat false) k = hours k := by
        rw [Slots.fill, if_neg (by omega)]
      have hmarked : k ∉ marked ((startTime - p.pricesSortedFirstDate).tdiv 15)
          ((startTime - p.pricesSortedFirstDate).tdiv 15 + duration15m.toNat)
          (amount15m.toNat - 0) (p.orderOf findExpensive) := by
        intro hmem
        obtain ⟨e, he, hek⟩ := List.mem_map.mp hmem
        obtain ⟨-, hin⟩ := List.mem_filter.mp (List.mem_of_mem_take he)
        rw [decide_eq_true_eq] at hin
        omega
      rw [hfill, decide_eq_false hmarked, Bool.or_false]

theorem marksRight_getUnblocked (hsorted : SortedRight p)
    (hstart : asInt32 p.firstDate ≤ startTime ∨ 15 ∣ startTime - asInt32 p.firstDate)
    (hok : (p.getUnblocked findExpensive startTime duration15m amount15m hours).1 = true) :
    MarksRight p startTime duration15m amount15m
      (fun a b => if findExpensive then b ≤ a else a ≤ b) hours
      (p.getUnblocked findExpensive startTime duration15m amount15m hours).2 := by
  constructor
  · have happly : ∀ k < duration15m.toNat,
        (p.getUnblocked findExpensive startTime duration15m amount15m hours).2 k =
          decide (k ∈ marked (p.entryIndex startTime 0)
            (p.entryIndex startTime 0 + duration15m.toNat) amount15m.toNat
            (p.orderOf findExpensive)) := by
      intro k hk
      rw [getUnblocked_eq] at hok ⊢
      rw [getSlots15m_apply hok hk, hsorted.firstDate, tdiv_eq_quarterIndex hstart]
      simp [entryIndex]
    rw [selectedCount_congr happly, selectedCount_marked (orderOf_perm hsorted findExpensive)]
    congr 1
    apply selectedCount_congr
    intro k _
    rw [decide_eq_decide, Priced, entryIndex_eq p startTime k]
  · intro k hk
    exact getUnblocked_outside hk hok
  · intro k hk hmarked
    obtain ⟨e, he, rfl⟩ := (getUnblocked_marks hsorted hstart hok hk).mp hmarked
    exact ((mem_windowOf hsorted).mp (List.mem_of_mem_take he)).2.1
  · intro k hk l hl hmarked hunmarked hpriced
    obtain ⟨e, he, rfl⟩ := (getUnblocked_marks hsorted hstart hok hk).mp hmarked
    obtain ⟨e', he', rfl⟩ := exists_windowOf findExpensive hsorted hl hpriced
    obtain ⟨-, hpriced', -, hprice⟩ := (mem_windowOf hsorted).mp (List.mem_of_mem_take he)
    obtain ⟨-, -, -, hprice'⟩ := (mem_windowOf hsorted).mp he'
    have hdrop : e' ∈ (p.windowOf startTime duration15m.toNat findExpensive).drop
        amount15m.toNat := by
      rw [← List.take_append_drop amount15m.toNat (p.windowOf startTime duration15m.toNat
        findExpensive), List.mem_append] at he'
      refine he'.resolve_left fun htake => ?_
      have hset := (getUnblocked_marks hsorted hstart hok hl).mpr ⟨e', htake, rfl⟩
      rw [hset] at hunmarked
      cases hunmarked
    have hbefore := take_before_drop hsorted he hdrop
    rw [hprice, hprice'] at hbefore
    exact ⟨_, entryPrice_eq_coveringPrice hpriced', _, entryPrice_eq_coveringPrice hpriced, hbefore⟩

/-- The window has an entry for each of its quarter hours with a price. -/
theorem length_windowOf (hsorted : SortedRight p) (startTime : Int) (duration : Nat) :
    (p.windowOf startTime duration false).length = p.pricedCount startTime duration := by
  have hnodup : ((p.windowOf startTime duration false).map (p.entryOf startTime)).Nodup := by
    rw [List.nodup_map_iff_inj_on (windowOf_nodup hsorted startTime duration false)]
    exact fun e he e' he' h => eq_of_entryOf_eq hsorted he he' h
  have hentries : ((p.windowOf startTime duration false).map (p.entryOf startTime)).toFinset =
      (Finset.range duration).filter fun k => decide (p.Priced startTime k) = true := by
    ext k
    simp only [List.mem_toFinset, List.mem_map, Finset.mem_filter, Finset.mem_range,
      decide_eq_true_eq]
    constructor
    · rintro ⟨e, he, rfl⟩
      obtain ⟨hk, hpriced, -⟩ := (mem_windowOf hsorted).mp he
      exact ⟨hk, hpriced⟩
    · rintro ⟨hk, hpriced⟩
      exact exists_windowOf _ hsorted hk hpriced
  rw [pricedCount, selectedCount_eq_card, ← hentries, List.toFinset_card_of_nodup hnodup,
    List.length_map]

/-- The cheap and the expensive entries are different ones as long as there are enough. -/
theorem getUnblocked_disjoint (hsorted : SortedRight p)
    (hstart : asInt32 p.firstDate ≤ startTime ∨ 15 ∣ startTime - asInt32 p.firstDate) {amount amount' : UInt8} {hours' : Slots}
    (hok : (p.getUnblocked false startTime duration15m amount hours).1 = true)
    (hok' : (p.getUnblocked true startTime duration15m amount' hours').1 = true)
    (henough : amount.toNat + amount'.toNat ≤ p.pricedCount startTime duration15m.toNat)
    (hk : k < duration15m.toNat)
    (hcheap : (p.getUnblocked false startTime duration15m amount hours).2 k = true)
    (hexpensive : (p.getUnblocked true startTime duration15m amount' hours').2 k = true) :
    False := by
  obtain ⟨e, he, hek⟩ := (getUnblocked_marks hsorted hstart hok hk).mp hcheap
  obtain ⟨e', he', hek'⟩ := (getUnblocked_marks hsorted hstart hok' hk).mp hexpensive
  rw [windowOf_true, List.take_reverse, List.mem_reverse] at he'
  have hsame := eq_of_entryOf_eq hsorted (List.mem_of_mem_take he) (List.mem_of_mem_drop he')
    (hek.trans hek'.symm)
  subst hsame
  have hlength := length_windowOf hsorted startTime duration15m.toNat
  have hdisjoint := List.disjoint_take_drop
    (windowOf_nodup hsorted startTime duration15m.toNat false)
    (show amount.toNat ≤ (p.windowOf startTime duration15m.toNat false).length - amount'.toNat by
      omega)
  exact hdisjoint he he'

/-- The sorted list is right whenever a query on new prices can succeed. -/
theorem sortedRight_of_success (q : DayAheadPrices) {hours : Slots}
    (hok : ((updatePricesSorted q).getUnblocked findExpensive startTime duration15m amount15m
      hours).1 = true) : SortedRight (updatePricesSorted q) := by
  rw [getUnblocked_eq, getSlots15m_fst, Bool.and_eq_true] at hok
  unfold updatePricesSorted at hok ⊢
  split_ifs at hok ⊢ with hempty
  · cases hok.1
  · exact ⟨rfl, rfl⟩

/-- A query succeeds with each of its arrays. -/
theorem getUnblocked_of_success {cheap expensive : Option Slots}
    (hok : (p.getCheapAndExpensive15m startTime duration15m amount15m cheap
      expensive).success = true) :
    (∀ old ∈ cheap, (p.getUnblocked false startTime duration15m amount15m old).1 = true) ∧
      ∀ old ∈ expensive, (p.getUnblocked true startTime duration15m amount15m old).1 = true := by
  simp only [getCheapAndExpensive15m, Bool.and_eq_true] at hok
  constructor
  · rintro old rfl
    exact hok.1.2
  · rintro old rfl
    exact hok.2

/-- A query that succeeds marks as many entries with prices as asked for, the cheapest or the
most expensive ones, unless it starts inside a quarter hour before the price list. With the same window, the cheap entries of a query and the expensive ones
of another one, or the same, are different as long as there are enough with prices. -/
theorem cheap_and_expensive_right (q : DayAheadPrices) (startTime : Int)
    (duration15m amount15m amount15m' : UInt8) (cheap expensive cheap' expensive' : Option Slots)
    (hstart : asInt32 q.firstDate ≤ startTime ∨ 15 ∣ startTime - asInt32 q.firstDate)
    (hok : ((updatePricesSorted q).getCheapAndExpensive15m startTime duration15m amount15m cheap
      expensive).success = true)
    (hok' : ((updatePricesSorted q).getCheapAndExpensive15m startTime duration15m amount15m' cheap'
      expensive').success = true) :
    let p := updatePricesSorted q
    let answer := p.getCheapAndExpensive15m startTime duration15m amount15m cheap expensive
    let answer' := p.getCheapAndExpensive15m startTime duration15m amount15m' cheap' expensive'
    (∀ old ∈ cheap, ∃ hours ∈ answer.cheapHours,
      MarksRight p startTime duration15m amount15m (· ≤ ·) old hours) ∧
    (∀ old ∈ expensive, ∃ hours ∈ answer.expensiveHours,
      MarksRight p startTime duration15m amount15m (· ≥ ·) old hours) ∧
    (amount15m.toNat + amount15m'.toNat ≤ p.pricedCount startTime duration15m.toNat →
      ∀ hours ∈ answer.cheapHours, ∀ hours' ∈ answer'.expensiveHours, ∀ k < duration15m.toNat,
        ¬(hours k = true ∧ hours' k = true)) := by
  obtain ⟨hcheap, hexpensive⟩ := getUnblocked_of_success hok
  obtain ⟨-, hexpensive'⟩ := getUnblocked_of_success hok'
  have hfirst : (updatePricesSorted q).firstDate = q.firstDate := by
    rw [updatePricesSorted]
    split <;> rfl
  rw [← hfirst] at hstart
  refine ⟨?_, ?_, ?_⟩
  · rintro old rfl
    have hgood := hcheap old rfl
    exact ⟨_, rfl, marksRight_getUnblocked (sortedRight_of_success q hgood) hstart hgood⟩
  · rintro old rfl
    have hgood := hexpensive old rfl
    exact ⟨_, rfl, marksRight_getUnblocked (sortedRight_of_success q hgood) hstart hgood⟩
  · intro henough hours hhours hours' hhours' k hk hboth
    obtain ⟨result, hresult, rfl⟩ := Option.map_eq_some_iff.mp hhours
    obtain ⟨old, rfl, rfl⟩ := Option.map_eq_some_iff.mp hresult
    obtain ⟨result', hresult', rfl⟩ := Option.map_eq_some_iff.mp hhours'
    obtain ⟨old', rfl, rfl⟩ := Option.map_eq_some_iff.mp hresult'
    have hgood := hcheap old rfl
    exact getUnblocked_disjoint (sortedRight_of_success q hgood) hstart hgood
      (hexpensive' old' rfl) henough hk hboth.1 hboth.2

/-- Five quarter hours. -/
def fiveQuarters : DayAheadPrices where
  prices := [4, 2, 3, 2, 1]
  resolution := .min15
  firstDate := 15000
  currentPrice := none
  pricesSortedAvailable := false
  pricesSorted := []
  pricesSortedFirstDate := 0

theorem cheap_and_expensive_right_five :
    ∃ hours ∈ ((updatePricesSorted fiveQuarters).getCheapAndExpensive15m 15015 3 1
        (some Slots.empty) (some Slots.empty)).cheapHours,
      MarksRight (updatePricesSorted fiveQuarters) 15015 3 1 (· ≤ ·) Slots.empty hours :=
  (cheap_and_expensive_right fiveQuarters 15015 3 1 1 (some Slots.empty) (some Slots.empty)
    (some Slots.empty) (some Slots.empty) (by decide) (by decide) (by decide)).1 _ rfl

/-- More hourly prices than the sorted list has room for. -/
def manyHours : DayAheadPrices where
  prices := List.replicate 51 7
  resolution := .min60
  firstDate := 15000
  currentPrice := none
  pricesSortedAvailable := false
  pricesSorted := []
  pricesSortedFirstDate := 0

/-- The hour with number 50 has a price, but a query that succeeds marks none of its quarter
hours. -/
theorem late_hours_not_marked :
    ((updatePricesSorted manyHours).getCheapAndExpensive15m (15000 + 50 * 60) 4 1
        (some Slots.empty) none).success = true ∧
      (∀ k : Nat, k < 4 →
        (updatePricesSorted manyHours).coveringPrice (15000 + 50 * 60 + 15 * (k : Int)) = some 7) ∧
      ((updatePricesSorted manyHours).getCheapAndExpensive15m (15000 + 50 * 60) 4 1
        (some Slots.empty) none).cheapHours.map (selectedCount · 4) = some 0 := by
  decide +kernel

end Esp32Firmware.DayAheadPrices
