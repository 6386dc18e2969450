import Esp32Firmware.DayAheadPrices.MarkedQuarters
import Esp32Firmware.Library.RankedGroups

/-!
# Hourly prices are selected by whole hours

The four quarter hours of an hourly price are neighbours in the sorted list, since the sort is
stable. A query for whole hours that starts with an hour of the price list then selects all the
quarter hours of an hour or none.
-/

namespace Esp32Firmware.DayAheadPrices

open RankedGroups

variable {p : DayAheadPrices} {startTime : Int} {duration15m amount15m minBlock15m : UInt8}
  {findExpensive : Bool}

/-- The order of the sorted list: by price, and for equal prices by time. -/
def Earlier (a b : Nat × Int) : Prop := a.2 < b.2 ∨ a.2 = b.2 ∧ a.1 < b.1

theorem pairwise_orderedInsert {e : Nat × Int} {l : List (Nat × Int)} (h : l.Pairwise Earlier)
    (he : ∀ other ∈ l, e.1 < other.1) :
    (l.orderedInsert (fun a b => a.2 ≤ b.2) e).Pairwise Earlier := by
  induction l with
  | nil => exact List.pairwise_singleton _ _
  | cons first rest ih =>
    obtain ⟨hfirst, hrest⟩ := List.pairwise_cons.mp h
    obtain ⟨hlt, hlater⟩ := List.forall_mem_cons.mp he
    rw [List.orderedInsert_cons]
    split
    next hle =>
      refine List.pairwise_cons.mpr ⟨fun other hother => ?_, h⟩
      have hprice : first.2 ≤ other.2 := by
        obtain rfl | hother := List.mem_cons.mp hother
        · exact le_rfl
        · exact (hfirst other hother).elim le_of_lt fun h => h.1.le
      obtain hlt | heq := lt_or_eq_of_le (hle.trans hprice)
      · exact .inl hlt
      · exact .inr ⟨heq, he other hother⟩
    next hle =>
      refine List.pairwise_cons.mpr ⟨fun other hother => ?_, ih hrest hlater⟩
      obtain rfl | hother := (List.mem_orderedInsert _).mp hother
      · exact .inl (not_le.mp hle)
      · exact hfirst other hother

theorem pairwise_insertionSort {l : List (Nat × Int)} (h : l.Pairwise fun a b => a.1 < b.1) :
    (l.insertionSort fun a b => a.2 ≤ b.2).Pairwise Earlier := by
  induction l with
  | nil => exact List.Pairwise.nil
  | cons e rest ih =>
    obtain ⟨hfirst, hrest⟩ := List.pairwise_cons.mp h
    rw [List.insertionSort_cons]
    apply pairwise_orderedInsert (ih hrest)
    intro other hother
    exact hfirst other ((List.mem_insertionSort _).mp hother)

theorem pricesSorted_pairwise (hsorted : SortedRight p) : p.pricesSorted.Pairwise Earlier := by
  rw [hsorted.sorted]
  apply pairwise_insertionSort
  rw [pricesUnsorted, List.pairwise_map]
  exact List.pairwise_lt_range

/-- The order in which a query takes the quarter hours. -/
def takenBefore (p : DayAheadPrices) (findExpensive : Bool) (i j : Nat) : Prop :=
  if findExpensive then Earlier (j, p.priceAt j) (i, p.priceAt i)
  else Earlier (i, p.priceAt i) (j, p.priceAt j)

/-- The quarter hours of the window in this order. -/
def windowIndices (p : DayAheadPrices) (startTime : Int) (duration : Nat) (findExpensive : Bool) :
    List Nat :=
  (p.windowOf startTime duration findExpensive).map Prod.fst

theorem mem_windowIndices (hsorted : SortedRight p) {duration i : Nat} :
    i ∈ p.windowIndices startTime duration findExpensive ↔
      i < min p.numQuarters dayAheadPriceMaxAmount ∧ p.entryIndex startTime 0 ≤ i ∧
        (i : Int) < p.entryIndex startTime 0 + duration := by
  rw [windowIndices, List.mem_map]
  constructor
  · rintro ⟨e, he, rfl⟩
    obtain ⟨he, hin⟩ := List.mem_filter.mp he
    have hlt := (mem_pricesUnsorted.mp ((orderOf_perm hsorted findExpensive).mem_iff.mp he)).1
    exact ⟨hlt, of_decide_eq_true hin⟩
  · rintro ⟨hlt, hin⟩
    refine ⟨(i, p.priceAt i), List.mem_filter.mpr ⟨?_, decide_eq_true hin⟩, rfl⟩
    exact (orderOf_perm hsorted findExpensive).mem_iff.mpr (mem_pricesUnsorted.mpr ⟨hlt, rfl⟩)

theorem windowIndices_pairwise (hsorted : SortedRight p) (startTime : Int) (duration : Nat) :
    (p.windowIndices startTime duration findExpensive).Pairwise (p.takenBefore findExpensive) := by
  have hprice : ∀ e ∈ p.windowOf startTime duration false, (e.1, p.priceAt e.1) = e := by
    intro e he
    have hmem := (orderOf_perm hsorted false).mem_iff.mp (List.mem_filter.mp he).1
    exact Prod.ext rfl (mem_pricesUnsorted.mp hmem).2.symm
  have hpairwise : (p.windowOf startTime duration false).Pairwise
      fun a b => Earlier (a.1, p.priceAt a.1) (b.1, p.priceAt b.1) := by
    apply ((pricesSorted_pairwise hsorted).filter _).imp_of_mem
    intro a b ha hb hab
    rw [hprice a ha, hprice b hb]
    exact hab
  rw [windowIndices, List.pairwise_map]
  cases findExpensive with
  | false => exact hpairwise
  | true =>
    rw [windowOf_true, List.pairwise_reverse]
    exact hpairwise

variable (hhourly : p.resolution = .min60)
  (hstart : (60 : Int) ∣ startTime - asInt32 p.firstDate) (hduration : 4 ∣ duration15m.toNat)
include hhourly

theorem priceAt_hour {i j : Nat} (h : i / 4 = j / 4) : p.priceAt i = p.priceAt j := by
  have hmul : p.resolutionMul = 4 := by
    rw [resolutionMul, hhourly]
  rw [priceAt, priceAt, hmul, h]

include hstart hduration

/-- The window has whole hours, and the order of a query keeps them together. -/
theorem grouped_windowIndices (hsorted : SortedRight p) :
    Grouped (p.takenBefore findExpensive)
      (p.windowIndices startTime duration15m.toNat findExpensive) 4 := by
  constructor
  · exact windowIndices_pairwise hsorted startTime duration15m.toNat
  · intro i j hij hji
    cases findExpensive with
    | false =>
      simp only [takenBefore, Earlier, Bool.false_eq_true, if_false] at hij hji
      omega
    | true =>
      simp only [takenBefore, Earlier, if_true] at hij hji
      omega
  · intro i hi j hj
    have hmul : p.resolutionMul = 4 := by
      rw [resolutionMul, hhourly]
    rw [mem_windowIndices hsorted] at hi ⊢
    unfold entryIndex numQuarters dayAheadPriceMaxAmount at hi ⊢
    rw [hmul] at hi ⊢
    obtain ⟨hours, hhours⟩ := hstart
    obtain ⟨duration, hduration⟩ := hduration
    have hindex : p.quarterIndex startTime = 4 * hours := by
      rw [quarterIndex]
      omega
    rw [hindex, hduration] at hi ⊢
    omega
  · intro i j x y hij hxy hne hbefore
    have hi := priceAt_hour hhourly hij
    have hx := priceAt_hour hhourly hxy
    cases findExpensive with
    | false =>
      simp only [takenBefore, Earlier, Bool.false_eq_true, if_false] at hbefore ⊢
      omega
    | true =>
      simp only [takenBefore, Earlier, if_true] at hbefore ⊢
      omega

/-- What the unblocked query says of the quarter hours of an hour is the same. -/
theorem getUnblocked_hour (hsorted : SortedRight p) (hamount : 4 ∣ amount15m.toNat) {hours : Slots}
    (hok : (p.getUnblocked findExpensive startTime duration15m amount15m hours).1 = true)
    {k l : Nat} (hk : k < duration15m.toNat) (hl : l < duration15m.toNat) (hkl : k / 4 = l / 4)
    (hmarked : (p.getUnblocked findExpensive startTime duration15m amount15m hours).2 k = true) :
    (p.getUnblocked findExpensive startTime duration15m amount15m hours).2 l = true := by
  have hgrouped : Grouped (p.takenBefore findExpensive) _ 4 :=
    grouped_windowIndices hhourly hstart hduration hsorted
  obtain ⟨amount, hamount⟩ := hamount
  obtain ⟨q, hq⟩ := hstart
  have hindex : p.entryIndex startTime 0 = 4 * q := by
    rw [entryIndex, quarterIndex]
    omega
  have hquarter : asInt32 p.firstDate ≤ startTime ∨ (15 : Int) ∣ startTime - asInt32 p.firstDate :=
    Or.inr (by omega)
  obtain ⟨e, he, rfl⟩ := (getUnblocked_marks hsorted hquarter hok hk).mp hmarked
  obtain ⟨-, hpriced, he1, -⟩ := (mem_windowOf hsorted).mp (List.mem_of_mem_take he)
  have hmem : e.1 ∈
      (p.windowIndices startTime duration15m.toNat findExpensive).take (4 * amount) := by
    rw [windowIndices, ← List.map_take, ← hamount]
    exact List.mem_map_of_mem he
  have hentry : (p.entryOf startTime e : Int) = e.1 - 4 * q := by
    rw [entryIndex_eq, hindex] at he1
    omega
  -- The quarter hour of the other entry is in the same hour of the price list.
  obtain ⟨j, hj⟩ := Int.eq_ofNat_of_zero_le (show 0 ≤ 4 * q + (l : Int) by omega)
  have htaken := hgrouped.mem_take (by decide) hmem (show j / 4 = e.1 / 4 by omega)
  rw [windowIndices, ← List.map_take, ← hamount] at htaken
  obtain ⟨e', he', rfl⟩ := List.mem_map.mp htaken
  refine (getUnblocked_marks hsorted hquarter hok hl).mpr ⟨e', he', ?_⟩
  rw [entryOf, hindex]
  omega

/-- A selection says the same of all quarter hours of an hour, in blocks or not. -/
theorem chosen_hour (hsorted : SortedRight p) (hamount : 4 ∣ amount15m.toNat) {k l : Nat}
    (hk : k < duration15m.toNat) (hl : l < duration15m.toNat) (hkl : k / 4 = l / 4) :
    p.chosen startTime duration15m amount15m minBlock15m findExpensive k =
      p.chosen startTime duration15m amount15m minBlock15m findExpensive l := by
  have hunblocked : (p.getUnblocked findExpensive startTime duration15m amount15m Slots.empty).2 k =
      (p.getUnblocked findExpensive startTime duration15m amount15m Slots.empty).2 l := by
    cases hok : (p.getUnblocked findExpensive startTime duration15m amount15m Slots.empty).1 with
    | false =>
      rw [getUnblocked_eq] at hok ⊢
      rw [getSlots15m_failed hok]
      rfl
    | true =>
      rw [Bool.eq_iff_iff]
      constructor
      · exact getUnblocked_hour hhourly hstart hduration hsorted hamount hok hk hl hkl
      · exact getUnblocked_hour hhourly hstart hduration hsorted hamount hok hl hk hkl.symm
  have hdp : p.useHourlyDp = true := by
    simp [useHourlyDp, resolutionMul, hhourly]
  unfold chosen
  split
  · exact hunblocked
  · obtain ⟨duration, hduration⟩ := hduration
    have hn : (p.dpQuery startTime duration15m amount15m minBlock15m findExpensive).n
        = duration := by
      simp [dpQuery, hdp, hduration]
    generalize p.dpQuery startTime duration15m amount15m minBlock15m findExpensive = q at hn ⊢
    cases dpSelectSlots (p.slotPrices q.startIndex) q.n q.k q.b Slots.empty q.findExpensive with
    | none => exact hunblocked
    | some result =>
      obtain ⟨found, selected⟩ := result
      cases found with
      | false => exact hunblocked
      | true =>
        dsimp only [expandResult]
        rw [if_pos hdp, if_pos hdp, hn, if_pos (by omega), if_pos (by omega), hkl]

end Esp32Firmware.DayAheadPrices
