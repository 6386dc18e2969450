import Esp32Firmware.DayAheadPrices.BlockedQuery

/-!
# The contract of blocked queries

A query that succeeds writes its whole window, selects as many quarter hours as asked for
where prices are available, by the prices of the slots that cover them, and in runs of the
minimum length unless no such selection exists.
-/

namespace Esp32Firmware.DayAheadPrices

open Runs

variable {p : DayAheadPrices} {startTime : Int} {duration15m amount15m minBlock15m : UInt8}
  {findExpensive : Bool}

/-- The price of the slot that covers a minute. -/
def coveringPrice (p : DayAheadPrices) (time : Int) : Option Int :=
  if time < asInt32 p.firstDate then
    none
  else
    p.prices[((time - asInt32 p.firstDate) / (15 * p.resolutionMul)).toNat]?

/-- The quarter hour of the price list that a time lies in. -/
def quarterIndex (p : DayAheadPrices) (time : Int) : Int := (time - asInt32 p.firstDate) / 15

/-- The quarter hours of the price list. -/
def numQuarters (p : DayAheadPrices) : Nat := p.prices.length * p.resolutionMul

/-- The number of quarter hours of a window that are among the first `limit` of the list. -/
def available (p : DayAheadPrices) (startTime : Int) (duration limit : Nat) : Nat :=
  selectedCount
    (fun k => decide (0 ≤ p.quarterIndex startTime + k ∧ p.quarterIndex startTime + k < limit))
    duration

/-- The slot of a query that a quarter hour of its window belongs to. -/
def dpSlot (p : DayAheadPrices) (k : Nat) : Nat := if p.useHourlyDp then k / 4 else k

/-- A selection of the blocked query. -/
structure BlockSelection (p : DayAheadPrices) (startTime : Int)
    (duration15m amount15m minBlock15m : UInt8) (selected : Slots) : Prop where
  count : selectedCount selected duration15m.toNat
    = min amount15m.toNat (p.available startTime duration15m.toNat p.numQuarters)
  priced : ∀ k < duration15m.toNat, selected k = true → p.coveringPrice (startTime + 15 * k)
      = some (p.slotPrices (p.dpQuery startTime duration15m amount15m minBlock15m false).startIndex
          (p.dpSlot k))
  runs : amount15m = 0 ∨ amount15m = duration15m ∨
    AtLeast selected duration15m.toNat minBlock15m.toNat

/-- A selection of the unblocked query, which sees the first 200 quarter hours of the list. -/
structure UnblockedSelection (p : DayAheadPrices) (startTime : Int)
    (duration15m amount15m : UInt8) (selected : Slots) : Prop where
  count : selectedCount selected duration15m.toNat = min amount15m.toNat
        (p.available startTime duration15m.toNat (min p.numQuarters dayAheadPriceMaxAmount))
  priced : ∀ k < duration15m.toNat, selected k = true →
    ∃ e ∈ p.pricesSorted, (e.1 : Int) = p.quarterIndex startTime + k ∧
      p.coveringPrice (startTime + 15 * k) = some e.2

/-- No selection of slots of the price list has runs of the minimum length. -/
def NoBlocks (p : DayAheadPrices) (startTime : Int)
    (duration15m amount15m minBlock15m : UInt8) : Prop :=
  let q := p.dpQuery startTime duration15m amount15m minBlock15m false
  BoundedPrices q.n (p.slotPrices q.startIndex) → ∀ other, ¬ Feasible q.n q.k q.b other

/-- The contract: a selection in blocks, or an unblocked one where every run is long enough
anyway or there is no selection in blocks. -/
inductive Contract (p : DayAheadPrices) (startTime : Int)
    (duration15m amount15m minBlock15m : UInt8) (selected : Slots) : Prop
  | blocks (h : BlockSelection p startTime duration15m amount15m minBlock15m selected)
  | unblocked (h : UnblockedSelection p startTime duration15m amount15m selected)
      (hruns : AtLeast selected duration15m.toNat minBlock15m.toNat ∨
        NoBlocks p startTime duration15m amount15m minBlock15m)

/-- Quarter hours are aligned with the price list, and whole hours with hourly prices. -/
structure Aligned (p : DayAheadPrices) (startTime : Int)
    (duration15m amount15m minBlock15m : UInt8) : Prop where
  quarter : asInt32 p.firstDate ≤ startTime ∨ (15 : Int) ∣ startTime - asInt32 p.firstDate
  hour : p.resolution = .min60 → 1 < minBlock15m →
    (60 : Int) ∣ startTime - asInt32 p.firstDate ∧ 4 ∣ duration15m.toNat ∧ 4 ∣ amount15m.toNat

/-- The sorted list belongs to the prices. -/
structure SortedRight (p : DayAheadPrices) : Prop where
  sorted : p.pricesSorted = p.pricesUnsorted.insertionSort (fun a b => a.2 ≤ b.2)
  firstDate : p.pricesSortedFirstDate = asInt32 p.firstDate

theorem updatePricesSorted_prices (p : DayAheadPrices) :
    (updatePricesSorted p).prices = p.prices := by
  rw [updatePricesSorted]
  split <;> rfl

theorem resolutionMul_pos (p : DayAheadPrices) : 0 < p.resolutionMul := by
  rw [resolutionMul]
  cases p.resolution <;> decide

theorem selectedCount_eq_card (selected : Slots) (n : Nat) :
    selectedCount selected n = ((Finset.range n).filter fun k => selected k = true).card := by
  rw [selectedCount, Finset.card_filter]

/-- A quarter hour of the list that a minute lies in has the price that covers the minute. -/
theorem coveringPrice_eq {k index : Nat} (hindex : (index : Int) = p.quarterIndex startTime + k)
    (hlt : index < p.numQuarters) :
    p.coveringPrice (startTime + 15 * k) = some (p.priceAt index) := by
  have hmul := resolutionMul_pos p
  rw [quarterIndex] at hindex
  have hlist : index / p.resolutionMul < p.prices.length :=
    (Nat.div_lt_iff_lt_mul hmul).mpr hlt
  have hslot : ((startTime + 15 * k - asInt32 p.firstDate) / (15 * p.resolutionMul)).toNat
      = index / p.resolutionMul := by
    have hdiv : (startTime + 15 * k - asInt32 p.firstDate) / 15 = index := by omega
    rw [← Int.ediv_ediv_of_nonneg (by norm_num), hdiv]
    rfl
  rw [coveringPrice, if_neg (by omega), hslot, priceAt, List.getD_eq_getElem?_getD,
    List.getElem?_eq_getElem hlist, Option.getD_some]

theorem mem_pricesUnsorted {e : Nat × Int} :
    e ∈ p.pricesUnsorted ↔
      e.1 < min p.numQuarters dayAheadPriceMaxAmount ∧ e.2 = p.priceAt e.1 := by
  obtain ⟨index, price⟩ := e
  constructor
  · intro h
    obtain ⟨i, hi, heq⟩ := List.mem_map.mp h
    obtain ⟨rfl, rfl⟩ := Prod.mk.inj heq
    exact ⟨List.mem_range.mp hi, rfl⟩
  · rintro ⟨hlt, hprice⟩
    have hprice : price = p.priceAt index := hprice
    subst hprice
    exact List.mem_map.mpr ⟨index, List.mem_range.mpr hlt, rfl⟩

theorem pricesUnsorted_nodup (p : DayAheadPrices) : (p.pricesUnsorted.map Prod.fst).Nodup := by
  rw [pricesUnsorted, List.map_map]
  have hid : (Prod.fst ∘ fun i => (i, p.priceAt i)) = id := rfl
  rw [hid, List.map_id]
  exact List.nodup_range

/-- The number of entries that a query marks. -/
theorem selectedCount_marked {order : List (Nat × Int)} (hperm : order.Perm p.pricesUnsorted)
    (startIndex : Int) (duration amount : Nat) :
    selectedCount (fun k => decide (k ∈ marked startIndex (startIndex + duration) amount order))
        duration
      = min amount (selectedCount (fun k => decide (0 ≤ startIndex + k ∧
          startIndex + k < (min p.numQuarters dayAheadPriceMaxAmount : Nat))) duration) := by
  have hnodup : (order.map Prod.fst).Nodup := (hperm.map Prod.fst).nodup_iff.mpr
    (pricesUnsorted_nodup p)
  -- the entries inside the window, as positions in the window
  have hwindow : ((order.filter fun e =>
      decide (startIndex ≤ e.1 ∧ (e.1 : Int) < startIndex + duration)).map
        fun e => ((e.1 : Int) - startIndex).toNat).Nodup := by
    rw [List.nodup_map_iff_inj_on (hnodup.of_map.filter _)]
    intro a ha b hb heq
    have ha' := (List.mem_filter.mp ha)
    have hb' := (List.mem_filter.mp hb)
    simp only [decide_eq_true_eq] at ha' hb'
    have hfst : a.1 = b.1 := by omega
    exact List.inj_on_of_nodup_map hnodup ha'.1 hb'.1 hfst
  have hmem : ∀ k, k ∈ ((order.filter fun e =>
      decide (startIndex ≤ e.1 ∧ (e.1 : Int) < startIndex + duration)).map
        fun e => ((e.1 : Int) - startIndex).toNat) ↔
      k < duration ∧ 0 ≤ startIndex + k ∧
        startIndex + k < (min p.numQuarters dayAheadPriceMaxAmount : Nat) := by
    intro k
    constructor
    · intro hk
      obtain ⟨e, he, rfl⟩ := List.mem_map.mp hk
      obtain ⟨he, hin⟩ := List.mem_filter.mp he
      simp only [decide_eq_true_eq] at hin
      obtain ⟨hlt, -⟩ := mem_pricesUnsorted.mp (hperm.mem_iff.mp he)
      omega
    · rintro ⟨hk, hnonneg, hlt⟩
      apply List.mem_map.mpr
      refine ⟨((startIndex + k).toNat, p.priceAt (startIndex + k).toNat), ?_, ?_⟩
      · apply List.mem_filter.mpr
        constructor
        · rw [hperm.mem_iff, mem_pricesUnsorted]
          refine ⟨?_, rfl⟩
          omega
        · simp only [decide_eq_true_eq]
          omega
      · dsimp only
        omega
  have hmarked : marked startIndex (startIndex + duration) amount order = (((order.filter fun e =>
          decide (startIndex ≤ e.1 ∧ (e.1 : Int) < startIndex + duration)).map
            fun e => ((e.1 : Int) - startIndex).toNat)).take amount := by
    rw [marked, List.map_take]
  rw [hmarked]
  generalize ((order.filter fun e =>
    decide (startIndex ≤ e.1 ∧ (e.1 : Int) < startIndex + duration)).map
      fun e => ((e.1 : Int) - startIndex).toNat) = window at hwindow hmem
  have hleft : (Finset.range duration).filter (fun k => decide (k ∈ window.take amount) = true)
      = (window.take amount).toFinset := by
    ext k
    simp only [Finset.mem_filter, Finset.mem_range, decide_eq_true_eq, List.mem_toFinset,
      and_iff_right_iff_imp]
    intro hk
    exact ((hmem k).mp (List.mem_of_mem_take hk)).1
  have hright : (Finset.range duration).filter (fun k : Nat => decide (0 ≤ startIndex + (k : Int) ∧
      startIndex + (k : Int) < (min p.numQuarters dayAheadPriceMaxAmount : Nat)) = true)
        = window.toFinset := by
    ext k
    simp only [Finset.mem_filter, Finset.mem_range, decide_eq_true_eq, List.mem_toFinset]
    exact (hmem k).symm
  rw [selectedCount_eq_card, selectedCount_eq_card, hleft, hright,
    List.toFinset_card_of_nodup hwindow, List.toFinset_card_of_nodup hwindow.take,
    List.length_take]

theorem tdiv_eq_quarterIndex
    (h : asInt32 p.firstDate ≤ startTime ∨ (15 : Int) ∣ startTime - asInt32 p.firstDate) :
    (startTime - asInt32 p.firstDate).tdiv 15 = p.quarterIndex startTime := by
  rcases h with hle | hdvd
  · exact Int.tdiv_eq_ediv_of_nonneg (by omega)
  · exact Int.tdiv_eq_ediv_of_dvd hdvd

/-- The order in which an unblocked query takes the prices. -/
def orderOf (p : DayAheadPrices) (findExpensive : Bool) : List (Nat × Int) :=
  if findExpensive then p.pricesSorted.reverse else p.pricesSorted

theorem getUnblocked_eq (p : DayAheadPrices) (findExpensive : Bool) :
    p.getUnblocked findExpensive = p.getSlots15m (p.orderOf findExpensive) := by
  cases findExpensive <;> rfl

theorem orderOf_perm (hsorted : SortedRight p) (findExpensive : Bool) :
    (p.orderOf findExpensive).Perm p.pricesUnsorted := by
  have hperm : p.pricesSorted.Perm p.pricesUnsorted := by
    rw [hsorted.sorted]
    exact List.perm_insertionSort _ _
  cases findExpensive with
  | false => exact hperm
  | true => exact (List.reverse_perm _).trans hperm

/-- An unblocked query that succeeds. -/
theorem unblockedSelection_of_success (hsorted : SortedRight p)
    (hstart : asInt32 p.firstDate ≤ startTime ∨ (15 : Int) ∣ startTime - asInt32 p.firstDate)
    {hours : Slots}
    (hok : (p.getUnblocked findExpensive startTime duration15m amount15m hours).1 = true) :
    UnblockedSelection p startTime duration15m amount15m
      (p.getUnblocked findExpensive startTime duration15m amount15m hours).2 := by
  rw [getUnblocked_eq] at hok ⊢
  have hindex : (startTime - p.pricesSortedFirstDate).tdiv 15 = p.quarterIndex startTime := by
    rw [hsorted.firstDate, tdiv_eq_quarterIndex hstart]
  have hperm := orderOf_perm hsorted findExpensive
  have happly := fun k hk =>
    @getSlots15m_apply p (p.orderOf findExpensive) startTime duration15m amount15m hours hok k hk
  rw [hindex] at happly
  constructor
  · rw [selectedCount_congr happly, selectedCount_marked hperm, available]
  · intro k hk hsel
    rw [happly k hk, decide_eq_true_eq] at hsel
    obtain ⟨e, he, hek⟩ := List.mem_map.mp hsel
    obtain ⟨he, hin⟩ := List.mem_filter.mp (List.mem_of_mem_take he)
    simp only [decide_eq_true_eq] at hin
    have hindex' : (e.1 : Int) = p.quarterIndex startTime + k := by omega
    obtain ⟨hlt, hprice⟩ := mem_pricesUnsorted.mp (hperm.mem_iff.mp he)
    refine ⟨e, ?_, hindex', ?_⟩
    · rw [hsorted.sorted, (List.perm_insertionSort _ _).mem_iff]
      exact hperm.mem_iff.mp he
    · rw [hprice]
      exact coveringPrice_eq hindex' (lt_of_lt_of_le hlt (min_le_left _ _))

/-- What an unblocked query writes does not depend on the caller's array. -/
theorem getUnblocked_apply {hours other : Slots}
    (hok : (p.getUnblocked findExpensive startTime duration15m amount15m hours).1 = true)
    {k : Nat} (hk : k < duration15m.toNat) :
    (p.getUnblocked findExpensive startTime duration15m amount15m hours).2 k
      = (p.getUnblocked findExpensive startTime duration15m amount15m other).2 k := by
  rw [getUnblocked_eq] at hok ⊢
  have hok' : (p.getSlots15m (p.orderOf findExpensive) startTime duration15m amount15m
      other).1 = true := by
    rw [getSlots15m_fst] at hok ⊢
    exact hok
  rw [getSlots15m_apply hok hk, getSlots15m_apply hok' hk]

/-- Quarter hours that repeat the slots of a selection. -/
theorem selectedCount_expand (selected : Slots) (c n : Nat) :
    selectedCount (fun k => selected (k / c)) (c * n) = c * selectedCount selected n := by
  induction n with
  | zero => simp
  | succ n ih =>
    have hdiv : ∀ k, c * n ≤ k → k < c * n + c → k / c = n := by
      intro k hle hlt
      apply Nat.div_eq_of_lt_le
      · rwa [mul_comm]
      · rw [mul_comm, Nat.mul_succ]
        exact hlt
    rw [Nat.mul_succ, selectedCount_succ, Nat.mul_add, ← ih]
    cases hn : selected n with
    | false =>
      have hoff := (selected_inactive_block (fun _ => 0) (fun k => selected (k / c)) (c * n) c (by
        intro k hle hlt
        rw [hdiv k hle hlt, hn])).1
      simpa using hoff
    | true =>
      have hon := (selected_active_block (fun _ => 0) (fun k => selected (k / c)) (c * n) c (by
        intro k hle hlt
        rw [hdiv k hle hlt, hn])).1
      simpa using hon

/-- The whole window is available. -/
theorem available_eq_of_covered {duration limit : Nat}
    (hnonneg : 0 ≤ p.quarterIndex startTime)
    (hlast : duration = 0 ∨ p.quarterIndex startTime + duration ≤ limit) :
    p.available startTime duration limit = duration := by
  rw [available, selectedCount_eq_card, Finset.filter_true_of_mem, Finset.card_range]
  intro k hk
  rw [Finset.mem_range] at hk
  simp only [decide_eq_true_eq]
  omega

theorem resolutionMul_cases (p : DayAheadPrices) :
    (p.resolution = .min15 ∧ p.resolutionMul = 1 ∧ p.useHourlyDp = false) ∨
      (p.resolution = .min60 ∧ p.resolutionMul = 4 ∧ p.useHourlyDp = true) := by
  cases h : p.resolution with
  | min15 => exact .inl ⟨rfl, by simp [resolutionMul, h], by simp [useHourlyDp, resolutionMul, h]⟩
  | min60 => exact .inr ⟨rfl, by simp [resolutionMul, h], by simp [useHourlyDp, resolutionMul, h]⟩

/-- Both arrays ask for the same slots. -/
theorem dpQuery_direction (p : DayAheadPrices) (startTime : Int)
    (duration15m amount15m minBlock15m : UInt8) (findExpensive : Bool) :
    p.dpQuery startTime duration15m amount15m minBlock15m findExpensive
      = { p.dpQuery startTime duration15m amount15m minBlock15m false with
          findExpensive := findExpensive } := by
  rw [dpQuery, dpQuery]
  split <;> rfl

/-- An aligned query in slots of the price list. -/
theorem dpQuery_geometry (haligned : Aligned p startTime duration15m amount15m minBlock15m)
    (hmin : 1 < minBlock15m) (hstart : asInt32 p.firstDate ≤ startTime) :
    let q := p.dpQuery startTime duration15m amount15m minBlock15m findExpensive
    duration15m.toNat = p.resolutionMul * q.n ∧ amount15m.toNat = p.resolutionMul * q.k ∧
      minBlock15m.toNat ≤ p.resolutionMul * q.b ∧ 1 ≤ q.b ∧
      (q.startIndex : Int) = p.quarterIndex startTime ∧ p.resolutionMul ∣ q.startIndex := by
  have hmin' : 1 < minBlock15m.toNat := hmin
  have hindex : (startTime - asInt32 p.firstDate).tdiv 15 = p.quarterIndex startTime :=
    tdiv_eq_quarterIndex haligned.quarter
  have hnonneg : 0 ≤ p.quarterIndex startTime := by
    rw [quarterIndex]
    omega
  rcases resolutionMul_cases p with ⟨hres, hmul, hhourly⟩ | ⟨hres, hmul, hhourly⟩
  · simp only [dpQuery, hhourly, hmul, Bool.false_eq_true, if_false]
    refine ⟨by omega, by omega, by omega, by omega, by omega, one_dvd _⟩
  · obtain ⟨hsixty, hduration, hamount⟩ := haligned.hour hres hmin
    simp only [dpQuery, hhourly, hmul, hindex, if_true]
    refine ⟨by omega, by omega, by omega, by omega, by omega, ?_⟩
    rw [quarterIndex] at hnonneg ⊢
    omega

theorem expandResult_apply (q : DpQuery) (selected out : Slots) {k : Nat}
    (hk : k < p.resolutionMul * q.n) :
    p.expandResult q selected out k = selected (k / p.resolutionMul) := by
  rcases resolutionMul_cases p with ⟨-, hmul, hhourly⟩ | ⟨-, hmul, hhourly⟩
  · rw [hmul] at hk ⊢
    rw [expandResult, hhourly, if_neg (by decide), if_pos (by omega), Nat.div_one]
  · rw [hmul] at hk ⊢
    rw [expandResult, hhourly, if_pos rfl, if_pos hk]

theorem rawIndex_eq (p : DayAheadPrices) (startIndex i : Nat) :
    p.rawIndex startIndex i = startIndex + p.resolutionMul * i := by
  rcases resolutionMul_cases p with ⟨-, hmul, hhourly⟩ | ⟨-, hmul, hhourly⟩
  · simp [rawIndex, hmul, hhourly]
  · simp [rawIndex, hmul, hhourly, Nat.mul_comm]

theorem dpSlot_eq (p : DayAheadPrices) (k : Nat) : p.dpSlot k = k / p.resolutionMul := by
  rcases resolutionMul_cases p with ⟨-, hmul, hhourly⟩ | ⟨-, hmul, hhourly⟩
  · simp [dpSlot, hmul, hhourly]
  · simp [dpSlot, hmul, hhourly]

/-- The slots of a query that are available cover its window. -/
theorem window_le_numQuarters {startIndex n : Nat} (hdvd : p.resolutionMul ∣ startIndex)
    (hall : ∀ i < n, p.rawIndex startIndex i < p.numQuarters) (hn : 0 < n) :
    startIndex + p.resolutionMul * n ≤ p.numQuarters := by
  obtain ⟨s, rfl⟩ := hdvd
  have hlast := hall (n - 1) (by omega)
  rw [rawIndex_eq, numQuarters, ← Nat.mul_add, Nat.mul_comm _ p.resolutionMul] at hlast
  have hlt := Nat.lt_of_mul_lt_mul_left hlast
  rw [numQuarters, ← Nat.mul_add, Nat.mul_comm _ p.resolutionMul]
  exact Nat.mul_le_mul_left _ (by omega)

/-- A selection of slots, expanded to quarter hours. -/
theorem blockSelection_of_feasible
    (haligned : Aligned p startTime duration15m amount15m minBlock15m)
    (hmin : 1 < minBlock15m) (hstart : asInt32 p.firstDate ≤ startTime)
    {q : DpQuery} (hq : q = p.dpQuery startTime duration15m amount15m minBlock15m findExpensive)
    (hall : ∀ i < q.n, p.rawIndex q.startIndex i < p.numQuarters) {selected : Slots}
    (h : Feasible q.n q.k q.b selected) :
    BlockSelection p startTime duration15m amount15m minBlock15m
      (p.expandResult q selected Slots.empty) := by
  obtain ⟨hduration, hamount, hblock, hb, hindex, hdvd⟩ :=
    @dpQuery_geometry p startTime duration15m amount15m minBlock15m findExpensive haligned hmin
      hstart
  have hindex' : (p.dpQuery startTime duration15m amount15m minBlock15m false).startIndex
      = q.startIndex := by
    rw [hq, dpQuery_direction p startTime duration15m amount15m minBlock15m findExpensive]
  rw [← hq] at hduration hamount hblock hb hindex hdvd
  have hmul := resolutionMul_pos p
  have hexpand : ∀ k < p.resolutionMul * q.n,
      p.expandResult q selected Slots.empty k = selected (k / p.resolutionMul) :=
    fun k hk => expandResult_apply q selected Slots.empty hk
  have hcount : q.k ≤ q.n := by
    rw [← h.count]
    exact selectedCount_le selected q.n
  constructor
  · have havail : p.available startTime duration15m.toNat p.numQuarters = duration15m.toNat := by
      apply available_eq_of_covered
      · omega
      · rcases Nat.eq_zero_or_pos q.n with hzero | hpos
        · left
          rw [hduration, hzero, Nat.mul_zero]
        · right
          have hle := window_le_numQuarters hdvd hall hpos
          rw [hduration, ← hindex]
          exact_mod_cast hle
    rw [havail, hduration, selectedCount_congr hexpand, selectedCount_expand selected,
      h.count, hamount]
    exact (min_eq_left (Nat.mul_le_mul_left _ hcount)).symm
  · intro k hk _
    rw [hduration] at hk
    have hpos : 0 < q.n := by
      rcases Nat.eq_zero_or_pos q.n with hzero | hpos
      · rw [hzero, Nat.mul_zero] at hk
        omega
      · exact hpos
    have hle := window_le_numQuarters hdvd hall hpos
    rw [@coveringPrice_eq p startTime k (q.startIndex + k) (by omega) (by omega), hindex',
      slotPrices, rawIndex_eq, dpSlot_eq, priceAt, priceAt]
    obtain ⟨s, hs⟩ := hdvd
    rw [hs, ← Nat.mul_add, Nat.mul_div_cancel_left _ hmul, Nat.mul_add_div hmul]
  · rcases h.runs with hzero | hfull | hruns
    · left
      rw [← UInt8.toNat_inj, hamount, hzero, Nat.mul_zero]
      rfl
    · right; left
      rw [← UInt8.toNat_inj, hamount, hduration, hfull]
    · right; right
      rw [hduration]
      have hblocks := hruns.blocks.expand hmul
      exact (hblocks.congr fun k hk => (hexpand k hk).symm).atLeast.mono hblock

namespace PriceModule

/-- A cache entry of the current generation holds the selection of the current prices. -/
def EntryRight (p : DayAheadPrices) (e : DpCacheEntry) : Prop :=
  ∃ selected, dpSelectSlots (p.slotPrices e.query.startIndex) e.query.n e.query.k e.query.b
      Slots.empty e.query.findExpensive = some (e.success, selected) ∧
    (e.success = true → ∀ i < e.query.n, e.result i = selected i)

/-- The sorted list and the cache belong to the prices. -/
structure Consistent (m : PriceModule) : Prop where
  sorted : m.prices.prices ≠ [] → SortedRight m.prices
  generation : ∀ e ∈ m.cache, e.valid = true → e.generation ≤ m.generation
  cache : m.prices.prices ≠ [] →
    ∀ e ∈ m.cache, e.valid = true → e.generation = m.generation → EntryRight m.prices e

variable {m : PriceModule}

theorem consistent_boot : Consistent boot := by
  refine ⟨?_, ?_, ?_⟩
  · intro h
    exact absurd rfl h
  · intro e he hvalid
    rw [List.eq_of_mem_replicate he] at hvalid
    cases hvalid
  · intro h
    exact absurd rfl h

theorem Consistent.setPrices (h : Consistent m) (timestampMinutes firstDate : UInt32)
    (resolution : Resolution) (prices : List Int) :
    Consistent (m.setPrices timestampMinutes firstDate resolution prices) := by
  have hprices : (m.setPrices timestampMinutes firstDate resolution prices).prices.prices
      = prices := by
    exact updatePricesSorted_prices _
  have hgeneration : m.generation
      ≤ (m.setPrices timestampMinutes firstDate resolution prices).generation := by
    simp only [PriceModule.setPrices]
    split <;> omega
  refine ⟨?_, ?_, ?_⟩
  · intro hne
    rw [hprices] at hne
    have hlength : prices.length ≠ 0 := by simpa using hne
    simp only [PriceModule.setPrices, updatePricesSorted, updateCurrentPrice, hlength]
    exact ⟨rfl, rfl⟩
  · intro e he hvalid
    exact (h.generation e he hvalid).trans hgeneration
  · -- entries of earlier generations are not looked up any more
    intro hne e he hvalid heq
    rw [hprices] at hne
    have hlength : prices.length ≠ 0 := by simpa using hne
    have hold := h.generation e he hvalid
    simp only [PriceModule.setPrices, hlength, if_false] at heq
    omega

theorem Consistent.cacheStore (h : Consistent m) {q : DpQuery} {success : Bool}
    {selected : Slots}
    (hselect : dpSelectSlots (m.prices.slotPrices q.startIndex) q.n q.k q.b Slots.empty
      q.findExpensive = some (success, selected)) :
    Consistent (m.cacheStore q success selected) := by
  refine ⟨h.sorted, ?_, ?_⟩
  · intro e he hvalid
    rcases List.mem_or_eq_of_mem_set he with hold | hnew
    · exact h.generation e hold hvalid
    · rw [hnew]
      exact le_rfl
  · intro hne e he hvalid heq
    rcases List.mem_or_eq_of_mem_set he with hold | hnew
    · exact h.cache hne e hold hvalid heq
    · rw [hnew]
      refine ⟨selected, hselect, ?_⟩
      intro hsuccess i hi
      have hi' : i < q.n := hi
      have hsuccess' : success = true := hsuccess
      simp [hsuccess', hi']

/-- The selection of a query, found in the cache or computed. -/
theorem select_spec (h : Consistent m) (hne : m.prices.prices ≠ []) {q : DpQuery}
    {found : Bool} {selected : Slots}
    (hselect : dpSelectSlots (m.prices.slotPrices q.startIndex) q.n q.k q.b Slots.empty
      q.findExpensive = some (found, selected)) :
    ∃ result m', m.select q = some (found, result, m') ∧
      (found = true → ∀ i < q.n, result i = selected i) ∧ Consistent m' ∧
      m'.prices = m.prices := by
  rw [select]
  cases hlookup : m.cacheLookup q with
  | none =>
    refine ⟨selected, m.cacheStore q found selected, ?_, fun _ _ _ => rfl,
      h.cacheStore hselect, rfl⟩
    simp [hselect]
  | some e =>
    have hkey := List.find?_some hlookup
    simp only [Bool.and_eq_true, decide_eq_true_eq] at hkey
    obtain ⟨⟨hvalid, hgeneration⟩, hquery⟩ := hkey
    obtain ⟨other, hother, hresult⟩ :=
      h.cache hne e (List.mem_of_find?_eq_some hlookup) hvalid hgeneration
    rw [hquery, hselect, Option.some.injEq, Prod.mk.injEq] at hother
    obtain ⟨hfound, hsame⟩ := hother
    subst hsame
    refine ⟨e.result, m, by rw [hfound], ?_, h, rfl⟩
    rw [hfound, ← hquery]
    exact hresult

end PriceModule

/-- What a query selects, whatever the caller's array and the cache hold. -/
def chosen (p : DayAheadPrices) (startTime : Int) (duration15m amount15m minBlock15m : UInt8)
    (findExpensive : Bool) : Slots :=
  let q := p.dpQuery startTime duration15m amount15m minBlock15m findExpensive
  let unblocked := (p.getUnblocked findExpensive startTime duration15m amount15m Slots.empty).2
  if minBlock15m ≤ 1 then
    unblocked
  else
    match dpSelectSlots (p.slotPrices q.startIndex) q.n q.k q.b Slots.empty q.findExpensive with
    | some (true, selected) => p.expandResult q selected Slots.empty
    | _ => unblocked

namespace PriceModule

variable {m : PriceModule}

section

variable (h : Consistent m)
include h

/-- The array of a query with blocks of more than one quarter hour. -/
theorem answerArray_spec (hne : m.prices.prices ≠ [])
    (haligned : Aligned m.prices startTime duration15m amount15m minBlock15m)
    (hmin : 1 < minBlock15m)
    (havailable : m.slotsAvailable startTime
      (m.prices.dpQuery startTime duration15m amount15m minBlock15m findExpensive))
    (hours : Slots) :
    ∃ ok after m', m.answerArray startTime duration15m amount15m minBlock15m findExpensive
        (some hours) = some (ok, some after, m') ∧
      Consistent m' ∧ m'.prices = m.prices ∧
      (ok = true →
        (∀ k < duration15m.toNat, after k = m.prices.chosen startTime duration15m amount15m
          minBlock15m findExpensive k) ∧
        Contract m.prices startTime duration15m amount15m minBlock15m
          (m.prices.chosen startTime duration15m amount15m minBlock15m findExpensive)) := by
  obtain ⟨hstart, hn, hall⟩ := havailable
  obtain ⟨hduration, -, -, hb, -, -⟩ :=
    @dpQuery_geometry m.prices startTime duration15m amount15m minBlock15m findExpensive haligned
      hmin hstart
  have hmin' : ¬ minBlock15m ≤ 1 := by
    rw [UInt8.not_le]
    exact hmin
  rw [answerArray, chosen, if_neg hmin']
  generalize hq : m.prices.dpQuery startTime duration15m amount15m minBlock15m findExpensive = q
    at hn hall hduration hb
  obtain ⟨found, selected, hselect, hfound, hnone⟩ :=
    dpSelectSlots_spec (m.prices.slotPrices q.startIndex) q.n q.k q.b Slots.empty q.findExpensive
      hn hb
  obtain ⟨result, m', hrun, hresult, hconsistent, hprices⟩ := select_spec h hne hselect
  rw [hrun]
  rw [hselect]
  cases found with
  | true =>
    refine ⟨true, m.prices.expandResult q result hours, m', rfl, hconsistent, hprices, ?_⟩
    intro _
    constructor
    · intro k hk
      rw [hduration] at hk
      dsimp only
      rw [expandResult_apply q result hours hk, expandResult_apply q selected Slots.empty hk]
      apply hresult rfl
      rw [Nat.div_lt_iff_lt_mul (resolutionMul_pos _), Nat.mul_comm]
      exact hk
    · exact .blocks (blockSelection_of_feasible haligned hmin hstart hq.symm hall (hfound rfl).1)
  | false =>
    refine ⟨_, _, m', rfl, hconsistent, hprices, ?_⟩
    intro hok
    constructor
    · intro k hk
      exact getUnblocked_apply hok hk
    · apply Contract.unblocked
      · have hok' : (m.prices.getUnblocked findExpensive startTime duration15m amount15m
            Slots.empty).1 = true := by
          rw [getUnblocked_eq, getSlots15m_fst] at hok ⊢
          exact hok
        exact unblockedSelection_of_success (h.sorted hne) haligned.quarter hok'
      · right
        rw [dpQuery_direction] at hq
        rw [← hq] at hnone
        exact hnone rfl

theorem select_consistent {q : DpQuery} {found : Bool} {result : Slots}
    {m' : PriceModule} (hrun : m.select q = some (found, result, m')) :
    Consistent m' ∧ m'.prices = m.prices := by
  rw [select] at hrun
  cases hlookup : m.cacheLookup q with
  | some e =>
    simp only [hlookup] at hrun
    obtain ⟨-, -, rfl⟩ := hrun
    exact ⟨h, rfl⟩
  | none =>
    simp only [hlookup, Option.map_eq_some_iff] at hrun
    obtain ⟨⟨found', selected⟩, hselect, heq⟩ := hrun
    obtain ⟨-, -, rfl⟩ := heq
    exact ⟨h.cacheStore hselect, rfl⟩

theorem answerArray_consistent {hours after : Option Slots} {ok : Bool} {m' : PriceModule}
    (hrun : m.answerArray startTime duration15m amount15m minBlock15m findExpensive hours
      = some (ok, after, m')) :
    Consistent m' ∧ m'.prices = m.prices := by
  cases hours with
  | none =>
    obtain ⟨-, -, rfl⟩ := hrun
    exact ⟨h, rfl⟩
  | some hours =>
    simp only [answerArray, Option.map_eq_some_iff] at hrun
    obtain ⟨⟨found, selected, m''⟩, hselect, heq⟩ := hrun
    have hkept := select_consistent h hselect
    cases found with
    | true | false =>
      obtain ⟨-, -, rfl⟩ := heq
      exact hkept

theorem query_consistent {cheapHours expensiveHours : Option Slots}
    {answer : Answer} {m' : PriceModule}
    (hrun : m.getCheapAndExpensive15mBlocked startTime duration15m amount15m minBlock15m
      cheapHours expensiveHours = some (answer, m')) :
    Consistent m' := by
  rw [getCheapAndExpensive15mBlocked] at hrun
  split at hrun
  · simp only [Option.some.injEq, Prod.mk.injEq] at hrun
    rw [← hrun.2]
    exact h
  · split at hrun
    · simp only [Option.some.injEq, Prod.mk.injEq] at hrun
      rw [← hrun.2]
      exact h
    · simp only [Option.bind_eq_some_iff, Option.map_eq_some_iff] at hrun
      obtain ⟨⟨cheapOk, cheap, m1⟩, hcheap, ⟨expensiveOk, expensive, m2⟩, hexpensive, heq⟩ := hrun
      simp only [Prod.mk.injEq] at heq
      rw [← heq.2]
      exact (answerArray_consistent (answerArray_consistent h hcheap).1 hexpensive).1

theorem Consistent.step (op : Op) : Consistent (m.step op) := by
  cases op with
  | newPrices timestampMinutes firstDate resolution prices =>
    exact h.setPrices timestampMinutes firstDate resolution prices
  | discardPrices resolution freeSorted =>
    refine ⟨?_, h.generation, ?_⟩
    · intro hne
      exact absurd rfl hne
    · intro hne
      exact absurd rfl hne
  | query startTime duration15m amount15m minBlock15m cheapHours expensiveHours =>
    rw [PriceModule.step]
    split
    · exact h
    · next hrun => exact query_consistent h hrun

end

/-- In every state that runs reach, the sorted list and the cache belong to the prices. -/
theorem run_consistent (ops : List Op) : Consistent (run PriceModule.step boot ops) := by
  have hmeets : Meets PriceModule.step (fun _ _ => True) boot ops := by
    generalize boot = m
    induction ops generalizing m with
    | nil => trivial
    | cons op rest ih => exact ⟨trivial, ih _⟩
  exact hmeets.invariant (fun _ op h _ => h.step op) consistent_boot

/-- One of the caller's arrays: the whole window is written, and keeps the contract. -/
def Keeps (p : DayAheadPrices) (startTime : Int) (duration15m amount15m minBlock15m : UInt8)
    (findExpensive : Bool) (before after : Option Slots) : Prop :=
  before.isSome → ∃ written, after = some written ∧ (∀ k < duration15m.toNat, written k
      = p.chosen startTime duration15m amount15m minBlock15m findExpensive k) ∧
    Contract p startTime duration15m amount15m minBlock15m
      (p.chosen startTime duration15m amount15m minBlock15m findExpensive)

theorem keeps_unblocked (hsorted : SortedRight p)
    (hstart : asInt32 p.firstDate ≤ startTime ∨ (15 : Int) ∣ startTime - asInt32 p.firstDate)
    (hmin : minBlock15m ≤ 1) {before : Option Slots}
    (hok : ((before.map (p.getUnblocked findExpensive startTime duration15m amount15m)).map
      Prod.fst).getD true = true) :
    Keeps p startTime duration15m amount15m minBlock15m findExpensive before
      ((before.map (p.getUnblocked findExpensive startTime duration15m amount15m)).map
        Prod.snd) := by
  intro hsome
  obtain ⟨hours, rfl⟩ := Option.isSome_iff_exists.mp hsome
  have hok : (p.getUnblocked findExpensive startTime duration15m amount15m hours).1 = true := hok
  have hok' : (p.getUnblocked findExpensive startTime duration15m amount15m
      Slots.empty).1 = true := by
    rw [getUnblocked_eq, getSlots15m_fst] at hok ⊢
    exact hok
  refine ⟨_, rfl, ?_, ?_⟩
  · intro k hk
    rw [chosen, if_pos hmin]
    exact getUnblocked_apply hok hk
  · rw [chosen, if_pos hmin]
    apply Contract.unblocked (unblockedSelection_of_success hsorted hstart hok')
    left
    exact (atLeast_one _ _).mono hmin

/-- A query of an aligned window ends, and keeps the contract if it succeeds. -/
theorem query_keeps (h : Consistent m) (hprices : m.prices.prices ≠ [])
    (haligned : Aligned m.prices startTime duration15m amount15m minBlock15m)
    (cheapHours expensiveHours : Option Slots) :
    ∃ answer m', m.getCheapAndExpensive15mBlocked startTime duration15m amount15m minBlock15m
        cheapHours expensiveHours = some (answer, m') ∧
      (answer.success = true →
        Keeps m.prices startTime duration15m amount15m minBlock15m false cheapHours
            answer.cheapHours ∧
          Keeps m.prices startTime duration15m amount15m minBlock15m true expensiveHours
            answer.expensiveHours) := by
  rw [getCheapAndExpensive15mBlocked]
  by_cases hmin : minBlock15m ≤ 1
  · rw [if_pos hmin]
    refine ⟨_, m, rfl, ?_⟩
    intro hok
    simp only [getCheapAndExpensive15m, Bool.and_eq_true] at hok ⊢
    exact ⟨keeps_unblocked (h.sorted hprices) haligned.quarter hmin hok.1.2,
      keeps_unblocked (h.sorted hprices) haligned.quarter hmin hok.2⟩
  · rw [if_neg hmin]
    have hmin' : 1 < minBlock15m := UInt8.not_le.mp hmin
    by_cases hreject : (cheapHours.isNone && expensiveHours.isNone) ∨
        m.prices.prices.length = 0 ∨ ¬ m.slotsAvailable startTime
          (m.prices.dpQuery startTime duration15m amount15m minBlock15m false)
    · rw [if_pos hreject]
      refine ⟨_, m, rfl, ?_⟩
      intro hok
      cases hok
    · rw [if_neg hreject]
      push Not at hreject
      have havailable := hreject.2.2
      have harray : ∀ (m : PriceModule) (findExpensive : Bool) (before : Option Slots),
          Consistent m → m.prices.prices ≠ [] →
          Aligned m.prices startTime duration15m amount15m minBlock15m →
          m.slotsAvailable startTime
            (m.prices.dpQuery startTime duration15m amount15m minBlock15m false) →
          ∃ ok after m', m.answerArray startTime duration15m amount15m minBlock15m findExpensive
              before = some (ok, after, m') ∧ Consistent m' ∧ m'.prices = m.prices ∧
            (ok = true → Keeps m.prices startTime duration15m amount15m minBlock15m
              findExpensive before after) := by
        intro m findExpensive before h hprices haligned havailable
        cases before with
        | none =>
          refine ⟨true, none, m, rfl, h, rfl, ?_⟩
          intro _ hsome
          cases hsome
        | some hours =>
          have havailable' : m.slotsAvailable startTime
              (m.prices.dpQuery startTime duration15m amount15m minBlock15m findExpensive) := by
            rw [dpQuery_direction]
            exact havailable
          obtain ⟨ok, after, m', hrun, hconsistent, hsame, hkeeps⟩ :=
            answerArray_spec h hprices haligned hmin' havailable' hours
          refine ⟨ok, some after, m', hrun, hconsistent, hsame, ?_⟩
          intro hok _
          exact ⟨after, rfl, (hkeeps hok).1, (hkeeps hok).2⟩
      obtain ⟨cheapOk, cheap, m1, hcheap, hcons1, hsame1, hkeeps1⟩ :=
        harray m false cheapHours h hprices haligned havailable
      have havailable1 : m1.slotsAvailable startTime
          (m1.prices.dpQuery startTime duration15m amount15m minBlock15m false) := by
        rw [slotsAvailable, hsame1]
        exact havailable
      obtain ⟨expensiveOk, expensive, m2, hexpensive, -, -, hkeeps2⟩ :=
        harray m1 true expensiveHours hcons1 (by rw [hsame1]; exact hprices)
          (by rw [hsame1]; exact haligned) havailable1
      rw [hcheap]
      dsimp only [Option.bind_some]
      rw [hexpensive]
      refine ⟨_, m2, rfl, ?_⟩
      intro hok
      simp only [Bool.and_eq_true] at hok
      rw [hsame1] at hkeeps2
      exact ⟨hkeeps1 hok.2, hkeeps2 hok.1⟩

/-- This holds in every state that runs reach. -/
theorem blocked_query_contract (ops : List Op) (startTime : Int)
    (duration15m amount15m minBlock15m : UInt8) (cheapHours expensiveHours : Option Slots)
    (hprices : (run PriceModule.step boot ops).prices.prices ≠ [])
    (haligned : Aligned (run PriceModule.step boot ops).prices startTime duration15m amount15m
      minBlock15m) :
    ∃ answer m', (run PriceModule.step boot ops).getCheapAndExpensive15mBlocked startTime
        duration15m amount15m minBlock15m cheapHours expensiveHours = some (answer, m') ∧
      (answer.success = true →
        Keeps (run PriceModule.step boot ops).prices startTime duration15m amount15m minBlock15m
            false cheapHours answer.cheapHours ∧
          Keeps (run PriceModule.step boot ops).prices startTime duration15m amount15m
            minBlock15m true expensiveHours answer.expensiveHours) :=
  query_keeps (run_consistent ops) hprices haligned cheapHours expensiveHours

/-- Four quarter hours with two cheap ones that are not neighbours. -/
def scatteredPrices : List Op := [.newPrices 15000 15000 .min15 [1, 9, 1, 9]]

/-- Two hourly prices. -/
def hourlyPrices : List Op := [.newPrices 15000 15000 .min60 [5, 7]]

/-- Two quarter hours in blocks of three do not exist in a window of four: the query
succeeds with the two cheapest ones. A window of an hour and a quarter with hourly prices
keeps what the caller's array held in its last entry. -/
theorem blocked_query_falls_back :
    (((run PriceModule.step boot scatteredPrices).getCheapAndExpensive15mBlocked 15000 4 2 3
        (some Slots.empty) none).map fun r => (r.1.success, r.1.cheapHours.map (Slots.take · 4)))
      = some (true, some [true, false, true, false]) ∧
    (∀ selected : Slots, selected.take 4 = [true, false, true, false] → ¬ AtLeast selected 4 3) ∧
    (((run PriceModule.step boot hourlyPrices).getCheapAndExpensive15mBlocked 15000 5 4 4
        (some fun _ => true) none).map
          fun r => (r.1.success, r.1.cheapHours.map (Slots.take · 5)))
      = some (true, some [true, true, true, true, true]) ∧
    (((run PriceModule.step boot hourlyPrices).getCheapAndExpensive15mBlocked 15000 5 4 4
        (some Slots.empty) none).map fun r => (r.1.success, r.1.cheapHours.map (Slots.take · 5)))
      = some (true, some [true, true, true, true, false]) := by
  refine ⟨by decide, ?_, by decide, by decide⟩
  intro selected htake hruns
  have h0 : selected 0 = true := congrArg (fun l : List Bool => l.getD 0 false) htake
  have h1 : selected 1 = false := congrArg (fun l : List Bool => l.getD 1 true) htake
  have hrun : IsRun selected 4 0 1 := by
    refine ⟨by decide, by decide, ?_, .inl rfl, .inr ?_⟩
    · intro k _ hk
      have hzero : k = 0 := by omega
      rw [hzero]
    · rw [h0, h1]
      decide
  have hlen := hruns 0 1 hrun
  omega

theorem scatteredPrices_contract :
    ∃ answer m', (run PriceModule.step boot scatteredPrices).getCheapAndExpensive15mBlocked 15000
        4 2 3 (some Slots.empty) none = some (answer, m') ∧
      (answer.success = true →
        Keeps (run PriceModule.step boot scatteredPrices).prices 15000 4 2 3 false
            (some Slots.empty) answer.cheapHours ∧
          Keeps (run PriceModule.step boot scatteredPrices).prices 15000 4 2 3 true none
            answer.expensiveHours) :=
  blocked_query_contract scatteredPrices 15000 4 2 3 (some Slots.empty) none
    (by decide) ⟨by decide, by decide⟩

end PriceModule

end Esp32Firmware.DayAheadPrices
