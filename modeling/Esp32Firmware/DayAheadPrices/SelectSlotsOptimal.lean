import Esp32Firmware.DayAheadPrices.SelectSlots

/-!
# The selected slots are optimal

Paths through the table are selections that are cut into blocks. Relaxation finds the
cheapest path, the parent table leads back along it.
-/

namespace Esp32Firmware.DayAheadPrices

open Relaxation Runs

variable {prices : Nat → Int} {n k b : Nat}

@[simp] theorem selectedCount_zero (selected : Slots) : selectedCount selected 0 = 0 := rfl

theorem selectedCount_succ (selected : Slots) (n : Nat) :
    selectedCount selected (n + 1) = selectedCount selected n + if selected n then 1 else 0 := by
  rw [selectedCount, Finset.sum_range_succ]
  rfl

theorem selectedPrice_succ (prices : Nat → Int) (selected : Slots) (n : Nat) :
    selectedPrice prices selected (n + 1)
      = selectedPrice prices selected n + if selected n then prices n else 0 := by
  rw [selectedPrice, Finset.sum_range_succ]
  rfl

variable {a selected : Slots} {i : Nat} {cell : Cell} {findExpensive : Bool}

theorem selectedCount_congr {b : Slots} {n : Nat} (h : ∀ i < n, a i = b i) :
    selectedCount a n = selectedCount b n := by
  apply Finset.sum_congr rfl
  intro i hi
  rw [h i (Finset.mem_range.mp hi)]

theorem selectedPrice_congr {b : Slots} {n : Nat} (h : ∀ i < n, a i = b i) :
    selectedPrice prices a n = selectedPrice prices b n := by
  apply Finset.sum_congr rfl
  intro i hi
  rw [h i (Finset.mem_range.mp hi)]

/-- A block that is not selected adds nothing. -/
theorem selected_inactive_block (prices : Nat → Int) (selected : Slots) (i len : Nat)
    (h : ∀ s, i ≤ s → s < i + len → selected s = false) :
    selectedCount selected (i + len) = selectedCount selected i ∧
      selectedPrice prices selected (i + len) = selectedPrice prices selected i := by
  induction len with
  | zero => exact ⟨rfl, rfl⟩
  | succ len ih =>
    obtain ⟨hcount, hprice⟩ := ih fun s hs hlt => h s hs (by omega)
    have hlast : selected (i + len) = false := h (i + len) (by omega) (by omega)
    rw [← Nat.add_assoc, selectedCount_succ, selectedPrice_succ, hcount, hprice, hlast]
    simp

/-- A block that is selected adds its length and the prices of its slots. -/
theorem selected_active_block (prices : Nat → Int) (selected : Slots) (i len : Nat)
    (h : ∀ s, i ≤ s → s < i + len → selected s = true) :
    selectedCount selected (i + len) = selectedCount selected i + len ∧
      selectedPrice prices selected (i + len)
        = selectedPrice prices selected i + (prefixSum prices (i + len) - prefixSum prices i) := by
  induction len with
  | zero =>
    constructor
    · rfl
    · simp
  | succ len ih =>
    obtain ⟨hcount, hprice⟩ := ih fun s hs hlt => h s hs (by omega)
    have hlast : selected (i + len) = true := h (i + len) (by omega) (by omega)
    rw [← Nat.add_assoc, selectedCount_succ, selectedPrice_succ, hcount, hprice, hlast, prefixSum]
    simp only [if_true]
    constructor
    · omega
    · ring

theorem selectedCount_le (selected : Slots) (n : Nat) : selectedCount selected n ≤ n := by
  induction n with
  | zero => simp [selectedCount]
  | succ n ih =>
    rw [selectedCount_succ]
    split <;> omega

theorem selectedCount_mono (selected : Slots) {n : Nat} (h : i ≤ n) :
    selectedCount selected i ≤ selectedCount selected n := by
  induction n with
  | zero =>
    have : i = 0 := by omega
    rw [this]
  | succ n ih =>
    rcases Nat.lt_or_ge n i with hlt | hle
    · have : i = n + 1 := by omega
      rw [this]
    · rw [selectedCount_succ]
      exact (ih hle).trans (Nat.le_add_right _ _)

/-- A block that a cell can be followed by. -/
inductive IsBlock (prices : Nat → Int) (n k b : Nat) : Cell → Edge Cell Int Nat → Prop
  | inactive {i j len : Nat} (hi : i < n) (hj : j ≤ k) (hb : b ≤ len) (hn : i + len ≤ n) :
      IsBlock prices n k b (i, j) ⟨(i + len, j), 0, packParent i false⟩
  | active {i j len : Nat} (hi : i < n) (hj : j + len ≤ k) (hb : b ≤ len) (hn : i + len ≤ n) :
      IsBlock prices n k b (i, j)
        ⟨(i + len, j + len), prefixSum prices (i + len) - prefixSum prices i, packParent i true⟩

theorem mem_blocksAfter {e : Edge Cell Int Nat} :
    e ∈ blocksAfter prices n k b cell ↔ IsBlock prices n k b cell e := by
  constructor
  · intro h
    rw [blocksAfter] at h
    split at h
    · next hcell =>
        obtain ⟨hi, hj⟩ := hcell
        rcases List.mem_append.mp h with hin | hac
        · obtain ⟨len, hlen, rfl⟩ := List.mem_map.mp hin
          rw [List.mem_range'_1] at hlen
          exact .inactive hi hj hlen.1 (by omega)
        · obtain ⟨len, hlen, rfl⟩ := List.mem_map.mp hac
          rw [List.mem_range'_1] at hlen
          exact .active hi (by omega) hlen.1 (by omega)
    · cases h
  · intro h
    cases h with
    | @inactive _ _ len hi hj hb hn =>
      rw [blocksAfter, if_pos ⟨hi, hj⟩]
      apply List.mem_append_left
      exact List.mem_map.mpr ⟨len, List.mem_range'_1.mpr ⟨hb, by omega⟩, rfl⟩
    | @active _ _ len hi hj hb hn =>
      rw [blocksAfter, if_pos ⟨hi, by omega⟩]
      apply List.mem_append_right
      exact List.mem_map.mpr ⟨len, List.mem_range'_1.mpr ⟨hb, by omega⟩, rfl⟩

theorem blocksAfter_rank (hb : 1 ≤ b) (cell : Cell) :
    ∀ e ∈ blocksAfter prices n k b cell, cell.1 < e.target.1 := by
  intro e he
  cases mem_blocksAfter.mp he with
  | inactive hi hj hlen hn | active hi hj hlen hn =>
    show _ < _ + _
    omega

theorem cells_pairwise (n k : Nat) : (cells n k).Pairwise fun c d => c.1 ≤ d.1 := by
  rw [cells, List.pairwise_flatMap]
  constructor
  · intro i _
    rw [List.pairwise_map]
    exact List.pairwise_of_forall_mem_list fun _ _ _ _ => le_rfl
  · apply List.Pairwise.imp _ List.pairwise_lt_range
    intro i i' hlt c hc d hd
    obtain ⟨_, _, rfl⟩ := List.mem_map.mp hc
    obtain ⟨_, _, rfl⟩ := List.mem_map.mp hd
    exact hlt.le

theorem mem_cells_of_blocks (h : blocksAfter prices n k b cell ≠ []) : cell ∈ cells n k := by
  obtain ⟨i, j⟩ := cell
  have hcell : i < n ∧ j ≤ k := by
    by_contra hout
    exact h (by rw [blocksAfter, if_neg hout])
  apply List.mem_flatMap.mpr
  refine ⟨i, List.mem_range.mpr hcell.1, ?_⟩
  exact List.mem_map.mpr ⟨j, List.mem_range.mpr (by omega), rfl⟩

/-- The costs of paths stay below `INF`. -/
theorem path_cost_le {c : Int} (h : Path (blocksAfter prices n k b) (0, 0) cell c) :
    |c| ≤ ∑ i ∈ Finset.range cell.1, |prices i| := by
  induction h with
  | start => simp
  | @step u c e hu he ih =>
    cases mem_blocksAfter.mp he with
    | @inactive i j len hi hj hlen hn =>
      rw [add_zero]
      apply ih.trans
      apply Finset.sum_le_sum_of_subset_of_nonneg
      · exact Finset.range_subset_range.mpr (Nat.le_add_right i len)
      · intro s _ _
        exact abs_nonneg _
    | @active i j len hi hj hlen hn =>
      have hblock : |prefixSum prices (i + len) - prefixSum prices i|
          ≤ ∑ s ∈ Finset.range (i + len), |prices s| - ∑ s ∈ Finset.range i, |prices s| := by
        clear * -
        induction len with
        | zero => simp
        | succ len ih =>
          rw [← Nat.add_assoc, prefixSum, Finset.sum_range_succ]
          have htri := abs_add_le (prefixSum prices (i + len) - prefixSum prices i)
            (prices (i + len))
          have heq : prefixSum prices (i + len) + prices (i + len) - prefixSum prices i
              = prefixSum prices (i + len) - prefixSum prices i + prices (i + len) := by
            ring
          rw [heq]
          linarith
      have htri := abs_add_le c (prefixSum prices (i + len) - prefixSum prices i)
      linarith

theorem sum_abs_lt {n : Nat} (h : BoundedPrices n prices) (hn : n ≤ dpMaxSlots) (hi : i ≤ n) :
    ∑ s ∈ Finset.range i, |prices s| < dpInf := by
  rcases Nat.eq_zero_or_pos i with hzero | hpos
  · subst hzero
    rw [Finset.sum_range_zero]
    decide
  · have hmul : (∑ s ∈ Finset.range i, |prices s|) * dpMaxSlots < dpInf * dpMaxSlots := by
      rw [Finset.sum_mul]
      calc ∑ s ∈ Finset.range i, |prices s| * (dpMaxSlots : Int)
          < ∑ _s ∈ Finset.range i, dpInf := by
            apply Finset.sum_lt_sum_of_nonempty
            · exact ⟨0, Finset.mem_range.mpr hpos⟩
            · intro s hs
              exact h s (lt_of_lt_of_le (Finset.mem_range.mp hs) hi)
        _ = i * dpInf := by rw [Finset.sum_const, Finset.card_range, nsmul_eq_mul]
        _ ≤ dpInf * dpMaxSlots := by
            rw [mul_comm]
            apply mul_le_mul_of_nonneg_left
            · exact_mod_cast hi.trans hn
            · decide
    exact lt_of_mul_lt_mul_right hmul (by decide)

theorem path_cell {c : Int} (h : Path (blocksAfter prices n k b) (0, 0) cell c) :
    cell.1 ≤ n ∧ cell.2 ≤ k := by
  cases h with
  | start => exact ⟨Nat.zero_le n, Nat.zero_le k⟩
  | step hu he =>
    cases mem_blocksAfter.mp he with
    | inactive hi hj hlen hn | active hi hj hlen hn => exact ⟨hn, hj⟩

theorem path_lt_inf (h : BoundedPrices n prices) (hn : n ≤ dpMaxSlots) (cell : Cell) (c : Int)
    (hpath : Path (blocksAfter prices n k b) (0, 0) cell c) : c < dpInf :=
  calc c ≤ |c| := le_abs_self c
    _ ≤ ∑ i ∈ Finset.range cell.1, |prices i| := path_cost_le hpath
    _ < dpInf := sum_abs_lt h hn (path_cell hpath).1

/-- A selection cut into blocks is a path. -/
theorem path_of_blocks (selected : Slots) (h : Blocks selected b i) (hn : i ≤ n)
    (hk : selectedCount selected i ≤ k) :
    Path (blocksAfter prices n k b) (0, 0) (i, selectedCount selected i)
      (selectedPrice prices selected i) := by
  induction h with
  | zero => exact .start
  | @block a i hblocks hai hlen hconst ih =>
    obtain ⟨len, rfl⟩ : ∃ len, i = a + len := ⟨i - a, by omega⟩
    have hprefix := ih (by omega) ((selectedCount_mono selected (Nat.le_add_right a len)).trans hk)
    have hlen' : b ≤ len := by omega
    cases hvalue : selected a with
    | false =>
      obtain ⟨hcount, hprice⟩ := selected_inactive_block prices selected a len
        (fun s hs hlt => (hconst s hs hlt).trans hvalue)
      rw [hcount] at hk
      have hblock := @IsBlock.inactive prices n k b a _ len (by omega) hk hlen' hn
      have hstep := hprefix.step (mem_blocksAfter.mpr hblock)
      rw [hcount, hprice]
      simpa using hstep
    | true =>
      obtain ⟨hcount, hprice⟩ := selected_active_block prices selected a len
        (fun s hs hlt => (hconst s hs hlt).trans hvalue)
      rw [hcount] at hk
      have hblock := @IsBlock.active prices n k b a _ len (by omega) hk hlen' hn
      have hstep := hprefix.step (mem_blocksAfter.mpr hblock)
      rw [hcount, hprice]
      exact hstep

theorem packParent_div (hi : i < dpMaxSlots) (wasActive : Bool) :
    packParent i wasActive / 2 = i := by
  simp only [dpMaxSlots] at hi
  cases wasActive <;> simp only [packParent, Bool.toNat_false, Bool.toNat_true] <;> omega

theorem packParent_mod (i : Nat) (wasActive : Bool) :
    packParent i wasActive % 2 = wasActive.toNat := by
  cases wasActive <;> simp only [packParent, Bool.toNat_false, Bool.toNat_true] <;> omega

/-- Backtracking from a cell marks a selection cut into blocks that has the number of
slots and the price of the cell. -/
theorem backtrack_spec {all : List Cell} {l : Labels Cell Int Nat}
    (h : Invariant dpInf (blocksAfter prices n k b) (0, 0) all all l) (hb : 1 ≤ b)
    (hn : n ≤ dpMaxSlots) (rounds : Nat) :
    ∀ (ci cj : Nat) (result : Slots), ci ≤ rounds → l.cost (ci, cj) < dpInf →
      (∀ s < ci, result s = false) →
      ∃ selected, backtrack l.parent rounds ci cj result = some selected ∧
        (∀ s, ci ≤ s → selected s = result s) ∧ Blocks selected b ci ∧
        selectedCount selected ci = cj ∧ selectedPrice prices selected ci = l.cost (ci, cj) := by
  have hstart : ∀ (cj : Nat) (result : Slots), l.cost (0, cj) < dpInf →
      Blocks result b 0 ∧ selectedCount result 0 = cj ∧
        selectedPrice prices result 0 = l.cost (0, cj) := by
    intro cj result hfin
    rcases h.parent (0, cj) hfin with heq | ⟨u, hu, hufin, e, he, htarget, -, -⟩
    · have hcj : cj = 0 := congrArg Prod.snd heq
      subst hcj
      exact ⟨.zero, rfl, h.start.symm⟩
    · have hrank := blocksAfter_rank hb u e he
      rw [htarget] at hrank
      exact absurd hrank (Nat.not_lt_zero _)
  induction rounds with
  | zero =>
    intro ci cj result hci hfin hfalse
    have hzero : ci = 0 := by omega
    subst hzero
    exact ⟨result, by simp [backtrack], fun _ _ => rfl, hstart cj result hfin⟩
  | succ rounds ih =>
    intro ci cj result hci hfin hfalse
    rcases Nat.eq_zero_or_pos ci with hzero | hpos
    · subst hzero
      exact ⟨result, by simp [backtrack], fun _ _ => rfl, hstart cj result hfin⟩
    · rcases h.parent (ci, cj) hfin with heq | ⟨u, hu, hufin, e, he, htarget, htag, hcost⟩
      · have hci0 : ci = 0 := congrArg Prod.fst heq
        omega
      · cases mem_blocksAfter.mp he with
        | @inactive i j len hi hj hlen hle =>
          obtain ⟨rfl, rfl⟩ : i + len = ci ∧ j = cj := Prod.mk.inj htarget
          have hi' : i < dpMaxSlots := by omega
          obtain ⟨selected, hrun, hrest, hblocks, hcount, hprice⟩ :=
            ih i j result (by omega) hufin fun s hs => hfalse s (by omega)
          have hoff : ∀ s, i ≤ s → s < i + len → selected s = false := by
            intro s hs hlt
            rw [hrest s hs, hfalse s hlt]
          obtain ⟨hcount', hprice'⟩ := selected_inactive_block prices selected i len hoff
          refine ⟨selected, ?_, fun s hs => hrest s (by omega), ?_, ?_, ?_⟩
          · rw [backtrack, if_neg (by omega), ← htag]
            simpa [packParent_mod, packParent_div hi'] using hrun
          · apply hblocks.block (by omega) (by omega)
            intro s hs hlt
            rw [hoff s hs hlt, hoff i le_rfl (by omega)]
          · rw [hcount', hcount]
          · rw [hprice', hprice, hcost, add_zero]
        | @active i j len hi hj hlen hle =>
          obtain ⟨rfl, rfl⟩ : i + len = ci ∧ j + len = cj := Prod.mk.inj htarget
          have hi' : i < dpMaxSlots := by omega
          obtain ⟨selected, hrun, hrest, hblocks, hcount, hprice⟩ :=
            ih i j (fun s => if i ≤ s ∧ s < i + len then true else result s) (by omega) hufin
              (by
                intro s hs
                rw [if_neg (by omega)]
                exact hfalse s (by omega))
          have hon : ∀ s, i ≤ s → s < i + len → selected s = true := by
            intro s hs hlt
            rw [hrest s hs, if_pos ⟨hs, hlt⟩]
          obtain ⟨hcount', hprice'⟩ := selected_active_block prices selected i len hon
          refine ⟨selected, ?_, ?_, ?_, ?_, ?_⟩
          · have hcj : j + len - (i + len - i) = j := by omega
            rw [backtrack, if_neg (by omega), ← htag]
            simpa [packParent_mod, packParent_div hi'] using hrun
          · intro s hs
            rw [hrest s (by omega), if_neg (by omega)]
          · apply hblocks.block (by omega) (by omega)
            intro s hs hlt
            rw [hon s hs hlt, hon i le_rfl (by omega)]
          · rw [hcount', hcount]
          · rw [hprice', hprice, hcost]

theorem selectedCount_le_add (selected : Slots) {n : Nat} (h : i ≤ n) :
    selectedCount selected n ≤ selectedCount selected i + (n - i) := by
  induction n with
  | zero =>
    have : i = 0 := by omega
    rw [this]
    omega
  | succ n ih =>
    rcases Nat.lt_or_ge n i with hlt | hle
    · have : i = n + 1 := by omega
      rw [this]
      omega
    · have hprev := ih hle
      rw [selectedCount_succ]
      split <;> omega

/-- A selection of some slots but not all has at least `b` selected and `b` unselected ones. -/
theorem min_block_le (h : Blocks selected b n) (hpos : 0 < selectedCount selected n)
    (hlt : selectedCount selected n < n) :
    b ≤ selectedCount selected n ∧ b ≤ n - selectedCount selected n := by
  constructor
  · obtain ⟨s, hs, hsel⟩ : ∃ s < n, selected s = true := by
      by_contra hnone
      push Not at hnone
      have hzero := (selected_inactive_block (fun _ => 0) selected 0 n
        (fun s _ hs => by simpa using hnone s (by omega))).1
      simp only [Nat.zero_add] at hzero
      rw [hzero, selectedCount_zero] at hpos
      omega
    obtain ⟨a, c, has, hsc, hcn, hlen, hconst⟩ := h.exists_block hs
    obtain ⟨len, rfl⟩ : ∃ len, c = a + len := ⟨c - a, by omega⟩
    have hon : ∀ t, a ≤ t → t < a + len → selected t = true := by
      intro t hat htc
      rw [hconst t hat htc, ← hconst s has hsc, hsel]
    have hcount := (selected_active_block (fun _ => 0) selected a len hon).1
    have hmono := selectedCount_mono selected hcn
    omega
  · obtain ⟨s, hs, hsel⟩ : ∃ s < n, selected s = false := by
      by_contra hnone
      push Not at hnone
      have hall := (selected_active_block (fun _ => 0) selected 0 n
        (fun s _ hs => by simpa using hnone s (by omega))).1
      simp only [Nat.zero_add] at hall
      omega
    obtain ⟨a, c, has, hsc, hcn, hlen, hconst⟩ := h.exists_block hs
    obtain ⟨len, rfl⟩ : ∃ len, c = a + len := ⟨c - a, by omega⟩
    have hoff : ∀ t, a ≤ t → t < a + len → selected t = false := by
      intro t hat htc
      rw [hconst t hat htc, ← hconst s has hsc, hsel]
    have hcount := (selected_inactive_block (fun _ => 0) selected a len hoff).1
    have hle := selectedCount_le selected a
    have hadd := selectedCount_le_add selected hcn
    omega

theorem dpTables_invariant (prices : Nat → Int) (n k : Nat) (hb : 1 ≤ b) :
    ∃ all : List Cell, (∀ cell ∈ cells n k, cell ∈ all) ∧
      Invariant dpInf (blocksAfter prices n k b) (0, 0) all all (dpTables prices n k b) := by
  have hinit : Invariant dpInf (blocksAfter prices n k b) (0, 0) [] []
      (Labels.initial dpInf (0, 0) 0) := Invariant.initial (by decide) 0
  obtain ⟨all, -, hcells, hinv⟩ := Invariant.foldl_settle Prod.fst
    (fun u => blocksAfter_rank hb u) rfl (cells n k) (cells_pairwise n k) hinit (by
      intro a ha
      cases ha)
  exact ⟨all, hcells, hinv⟩

/-- The tables hold at most the price of any selection that is cut into blocks. -/
theorem dpTables_cost_le (hb : 1 ≤ b) (hn : n ≤ dpMaxSlots) (hprices : BoundedPrices n prices)
    (hblocks : Blocks selected b n) :
    (dpTables prices n (selectedCount selected n) b).cost (n, selectedCount selected n)
        ≤ selectedPrice prices selected n ∧
      selectedPrice prices selected n < dpInf := by
  obtain ⟨all, hcells, hinv⟩ := dpTables_invariant prices n (selectedCount selected n) hb
  have hpath : Path (blocksAfter prices n (selectedCount selected n) b) (0, 0)
      (n, selectedCount selected n) (selectedPrice prices selected n) :=
    path_of_blocks selected hblocks le_rfl le_rfl
  constructor
  · exact hinv.le_path (fun u hu => hcells u (mem_cells_of_blocks hu))
      (path_lt_inf hprices hn) hpath
  · exact path_lt_inf hprices hn _ _ hpath

/-- Backtracking finds a selection of the price in the tables. -/
theorem dpTables_backtrack (hb : 1 ≤ b) (hn : n ≤ dpMaxSlots)
    (hfin : (dpTables prices n k b).cost (n, k) < dpInf) {result : Slots}
    (hfalse : ∀ s < n, result s = false) :
    ∃ selected, backtrack (dpTables prices n k b).parent n n k result = some selected ∧
      Blocks selected b n ∧ selectedCount selected n = k ∧
      selectedPrice prices selected n = (dpTables prices n k b).cost (n, k) := by
  obtain ⟨all, -, hinv⟩ := dpTables_invariant prices n k hb
  obtain ⟨selected, hrun, -, hblocks, hcount, hprice⟩ :=
    backtrack_spec hinv hb hn n n k result le_rfl hfin hfalse
  exact ⟨selected, hrun, hblocks, hcount, hprice⟩

theorem AtLeastAsGood.of_work {findExpensive : Bool} {a c : Slots}
    (h : selectedPrice (fun i => if findExpensive then -prices i else prices i) a n
      ≤ selectedPrice (fun i => if findExpensive then -prices i else prices i) c n) :
    AtLeastAsGood findExpensive prices n a c := by
  cases findExpensive with
  | false => simpa [AtLeastAsGood] using h
  | true =>
    have hneg : ∀ selected : Slots,
        selectedPrice (fun i => -prices i) selected n = -selectedPrice prices selected n := by
      intro selected
      rw [selectedPrice, selectedPrice, ← Finset.sum_neg_distrib]
      apply Finset.sum_congr rfl
      intro i _
      split <;> simp
    simp only [AtLeastAsGood, if_true] at h ⊢
    rw [hneg, hneg] at h
    omega

/-- Selections that agree on all slots are equally good. -/
theorem AtLeastAsGood.of_agree {c : Slots} (h : ∀ i < n, a i = c i) :
    AtLeastAsGood findExpensive prices n a c := by
  have hprice : selectedPrice prices a n = selectedPrice prices c n := selectedPrice_congr h
  cases findExpensive <;> simp [AtLeastAsGood, hprice]

theorem selected_all_of_count (h : selectedCount selected n = n) : ∀ i < n, selected i = true := by
  intro i hi
  by_contra hoff
  have hle := selectedCount_le_add selected (show i + 1 ≤ n by omega)
  have hi' := selectedCount_le selected i
  rw [selectedCount_succ, if_neg hoff] at hle
  omega

theorem selected_none_of_count (h : selectedCount selected n = 0) :
    ∀ i < n, selected i = false := by
  intro i hi
  by_contra hon
  have hmono := selectedCount_mono selected (show i + 1 ≤ n by omega)
  rw [selectedCount_succ, if_pos (by simpa using hon)] at hmono
  omega

theorem selectedCount_fill (result : Slots) (n : Nat) (value : Bool) :
    selectedCount (result.fill n value) n = if value then n else 0 := by
  cases value with
  | false =>
    have h := (selected_inactive_block (fun _ => 0) (result.fill n false) 0 n (by
      intro s _ hs
      simp only [Slots.fill]
      rw [if_pos (by omega)])).1
    simpa using h
  | true =>
    have h := (selected_active_block (fun _ => 0) (result.fill n true) 0 n (by
      intro s _ hs
      simp only [Slots.fill]
      rw [if_pos (by omega)])).1
    simpa using h

/-- Selections of some slots but not all, in runs of the minimum length. -/
theorem Feasible.blocks (h : Feasible n k b selected) (hzero : k ≠ 0) (hall : k ≠ n) :
    Blocks selected b n := by
  rcases h.runs with hk | hk | hruns
  · exact absurd hk hzero
  · exact absurd hk hall
  · exact hruns.blocks

/-- What `dp_select_slots` finds, whatever the prices; it is the best selection, and none
is missed, if their magnitude is bounded. -/
theorem dpSelectSlots_spec (slotPrices : Nat → Int) (n k b : Nat) (result : Slots)
    (findExpensive : Bool) (hn : n ≤ dpMaxSlots) (hb : 1 ≤ b) :
    ∃ found selected,
      dpSelectSlots slotPrices n k b result findExpensive = some (found, selected) ∧
      (found = true → Feasible n k b selected ∧ (BoundedPrices n slotPrices →
        ∀ other, Feasible n k b other → AtLeastAsGood findExpensive slotPrices n selected other)) ∧
      (found = false → BoundedPrices n slotPrices → ∀ other, ¬ Feasible n k b other) := by
  rw [dpSelectSlots]
  by_cases hzero : k = 0
  · rw [if_pos hzero]
    refine ⟨true, result.fill n false, rfl, ?_, by simp⟩
    intro _
    refine ⟨⟨by rw [selectedCount_fill, hzero]; rfl, .inl hzero⟩, ?_⟩
    intro _ other hother
    apply AtLeastAsGood.of_agree
    intro i hi
    rw [selected_none_of_count (hother.count.trans hzero) i hi, Slots.fill, if_pos hi]
  · rw [if_neg hzero]
    by_cases hall : k = n
    · rw [if_pos hall]
      refine ⟨true, result.fill n true, rfl, ?_, by simp⟩
      intro _
      refine ⟨⟨by rw [selectedCount_fill, hall]; rfl, .inr (.inl hall)⟩, ?_⟩
      intro _ other hother
      apply AtLeastAsGood.of_agree
      intro i hi
      rw [selected_all_of_count (hother.count.trans hall) i hi, Slots.fill, if_pos hi]
    · rw [if_neg hall]
      by_cases hshort : k < b ∨ (n : Int) - k < b
      · rw [if_pos hshort]
        refine ⟨false, result, rfl, by simp, ?_⟩
        intro _ _ other hother
        have hcount := hother.count
        have hle := selectedCount_le other n
        obtain ⟨hactive, hinactive⟩ :=
          min_block_le (hother.blocks hzero hall) (by omega) (by omega)
        omega
      · rw [if_neg hshort, if_neg (by omega)]
        generalize hwork : (fun i => if findExpensive then -slotPrices i else slotPrices i) = work
        have hbounded : BoundedPrices n slotPrices → BoundedPrices n work := by
          intro hprices i hi
          have hi' := hprices i hi
          rw [← hwork]
          split
          · rwa [abs_neg]
          · exact hi'
        by_cases hinf : (dpTables work n k b).cost (n, k) ≥ dpInf
        · rw [if_pos hinf]
          refine ⟨false, result, rfl, by simp, ?_⟩
          intro _ hprices other hother
          have hcost := dpTables_cost_le hb hn (hbounded hprices) (hother.blocks hzero hall)
          rw [hother.count] at hcost
          omega
        · rw [if_neg hinf]
          have hfalse : ∀ s < n, result.fill n false s = false := by
            intro s hs
            rw [Slots.fill, if_pos hs]
          obtain ⟨selected, hrun, hcut, hcount, hprice⟩ :=
            dpTables_backtrack hb hn (not_le.mp hinf) hfalse
          rw [hrun]
          refine ⟨true, selected, rfl, ?_, by simp⟩
          intro _
          refine ⟨⟨hcount, .inr (.inr hcut.atLeast)⟩, ?_⟩
          intro hprices other hother
          have hcost := dpTables_cost_le hb hn (hbounded hprices) (hother.blocks hzero hall)
          rw [hother.count] at hcost
          apply AtLeastAsGood.of_work
          rw [hwork, hprice]
          exact hcost.1

/-- A selection is found exactly if there is one, and then it is the best one. -/
theorem dpSelectSlots_optimal (slotPrices : Nat → Int) (n k b : Nat) (result : Slots)
    (findExpensive : Bool) (hn : n ≤ dpMaxSlots) (hb : 1 ≤ b)
    (hprices : BoundedPrices n slotPrices) :
    ∃ found selected,
      dpSelectSlots slotPrices n k b result findExpensive = some (found, selected) ∧
      (found = true ↔ ∃ other, Feasible n k b other) ∧
      (found = true → Feasible n k b selected ∧ ∀ other, Feasible n k b other →
          AtLeastAsGood findExpensive slotPrices n selected other) := by
  obtain ⟨found, selected, hrun, hfound, hnone⟩ :=
    dpSelectSlots_spec slotPrices n k b result findExpensive hn hb
  refine ⟨found, selected, hrun, ⟨?_, ?_⟩, ?_⟩
  · intro h
    exact ⟨selected, (hfound h).1⟩
  · rintro ⟨other, hother⟩
    by_contra h
    exact hnone (by simpa using h) hprices other hother
  · intro h
    exact ⟨(hfound h).1, (hfound h).2 hprices⟩

theorem fourSlots_optimal :
    ∃ found selected, dpSelectSlots (fun i => if i = 1 then 4 else 7) 4 2 2 Slots.empty false
        = some (found, selected) ∧
      (found = true ↔ ∃ other, Feasible 4 2 2 other) ∧
      (found = true → Feasible 4 2 2 selected ∧ ∀ other, Feasible 4 2 2 other →
          AtLeastAsGood false (fun i => if i = 1 then 4 else 7) 4 selected other) :=
  dpSelectSlots_optimal (fun i => if i = 1 then 4 else 7) 4 2 2 Slots.empty false
    (by decide) (by decide) (by unfold BoundedPrices; decide)

end Esp32Firmware.DayAheadPrices
