import Mathlib

/-!
# Binary heaps in the way of libstdc++

The heap algorithms move a hole along a path and fill it at its end. Of a comparison only its
answers for unequal keys matter: it may answer either way for equal ones, so a non-strict
comparison keeps the order of the keys as well.
-/

namespace Esp32Firmware.BinaryHeap

variable {α κ : Type*} [LinearOrder κ] (comp : α → α → Bool) (key : α → κ)

/-- A comparison for heaps with the smallest key on top. -/
structure Compares : Prop where
  le_of_true : ∀ a b, comp a b = true → key b ≤ key a
  le_of_false : ∀ a b, comp a b = false → key a ≤ key b

def parent (i : ℕ) : ℕ := (i - 1) / 2

theorem parent_lt {i : ℕ} (h : 0 < i) : parent i < i := by
  unfold parent
  omega

section

/-- `__push_heap`: up from a hole, not above `top`. -/
def pushHeapAt (mem : ℕ → α) (hole top : ℕ) (value : α) : ℕ → α :=
  if _h : top < hole ∧ comp (mem (parent hole)) value = true then
    pushHeapAt (Function.update mem hole (mem (parent hole))) (parent hole) top value
  else Function.update mem hole value
termination_by hole
decreasing_by
  apply parent_lt
  omega

/-- The first part of `__adjust_heap`: a hole moves down to where it has no children. -/
def adjustHole (mem : ℕ → α) (hole len : ℕ) : (ℕ → α) × ℕ :=
  if h : hole < (len - 1) / 2 then
    let secondChild := 2 * (hole + 1)
    if comp (mem secondChild) (mem (secondChild - 1)) then
      adjustHole (Function.update mem hole (mem (secondChild - 1))) (secondChild - 1) len
    else adjustHole (Function.update mem hole (mem secondChild)) secondChild len
  else if len % 2 = 0 ∧ hole = (len - 2) / 2 then
    (Function.update mem hole (mem (2 * hole + 1)), 2 * hole + 1)
  else (mem, hole)
termination_by len - hole
decreasing_by all_goals omega

/-- `__adjust_heap` -/
def adjustHeap (mem : ℕ → α) (hole len : ℕ) (value : α) : ℕ → α :=
  let moved := adjustHole comp mem hole len
  pushHeapAt comp moved.1 moved.2 hole value

/-- `pop_heap`: the top goes behind the others. -/
def popHeap (mem : ℕ → α) (size : ℕ) : ℕ → α :=
  if 1 < size then
    adjustHeap comp (Function.update mem (size - 1) (mem 0)) 0 (size - 1) (mem (size - 1))
  else mem

/-- The loop of `make_heap` from a parent down to the root. -/
def makeHeapFrom (len : ℕ) : ℕ → (ℕ → α) → ℕ → α
  | 0, mem => adjustHeap comp mem 0 len (mem 0)
  | i + 1, mem => makeHeapFrom len i (adjustHeap comp mem (i + 1) len (mem (i + 1)))

/-- `make_heap` -/
def makeHeap (mem : ℕ → α) (len : ℕ) : ℕ → α :=
  if len < 2 then mem else makeHeapFrom comp len ((len - 2) / 2) mem

end

/-- The elements of the first places. -/
def elements (mem : ℕ → α) (n : ℕ) : Multiset α := (Multiset.range n).map mem

/-- Children of a place from `top` on have no smaller key than their parent. -/
def Ordered (mem : ℕ → α) (top n : ℕ) : Prop :=
  ∀ c, 0 < c → c < n → top ≤ parent c → key (mem (parent c)) ≤ key (mem c)

/-- A place below another one in the tree. -/
inductive Below (top : ℕ) : ℕ → Prop
  | refl : Below top top
  | step {i : ℕ} (hi : 0 < i) (h : Below top (parent i)) : Below top i

theorem Below.le {top i : ℕ} (h : Below top i) : top ≤ i := by
  induction h with
  | refl => exact le_rfl
  | step hi _ ih => exact ih.trans (parent_lt hi).le

theorem Below.parent {top i : ℕ} (h : Below top i) (hi : top < i) :
    Below top (BinaryHeap.parent i) := by
  cases h with
  | refl => exact absurd hi (lt_irrefl _)
  | step _ h => exact h

/-- All is ordered but for a hole; what is below the hole is not before what is above it. -/
structure Hole (mem : ℕ → α) (top n hole : ℕ) : Prop where
  lt : hole < n
  below : Below top hole
  ordered : ∀ c, 0 < c → c < n → top ≤ parent c → c ≠ hole → parent c ≠ hole →
    key (mem (parent c)) ≤ key (mem c)
  bridged : ∀ c, 0 < c → c < n → parent c = hole → top < hole →
    key (mem (parent hole)) ≤ key (mem c)

/-- A value that may stand in the hole as far as the places below it go. -/
def FitsAbove (mem : ℕ → α) (n hole : ℕ) (value : α) : Prop :=
  ∀ c, 0 < c → c < n → parent c = hole → key value ≤ key (mem c)

section

variable {key} {mem : ℕ → α} {top n hole : ℕ}

/-- The hole goes down to the smaller child. -/
theorem Hole.down (h : Hole key mem top n hole) {child : ℕ} (hpos : 0 < child) (hlt : child < n)
    (hparent : parent child = hole) (hmin : FitsAbove key mem n hole (mem child)) :
    Hole key (Function.update mem hole (mem child)) top n child := by
  have hne : hole ≠ child := hparent ▸ (parent_lt hpos).ne
  constructor
  · exact hlt
  · exact .step hpos (hparent ▸ h.below)
  · intro c hc hcn htop hchild hpchild
    by_cases hch : c = hole
    · subst hch
      have hpc := (parent_lt hc).ne
      rw [Function.update_self, Function.update_of_ne hpc]
      exact h.bridged child hpos hlt hparent (lt_of_le_of_lt htop (parent_lt hc))
    · rw [Function.update_of_ne hch]
      by_cases hpch : parent c = hole
      · rw [hpch, Function.update_self]
        exact hmin c hc hcn hpch
      · rw [Function.update_of_ne hpch]
        exact h.ordered c hc hcn htop hch hpch
  · intro c hc hcn hpc _
    have hchild : c ≠ hole := by
      rintro rfl
      have h₁ := parent_lt hc
      have h₂ := parent_lt hpos
      omega
    rw [hparent, Function.update_self, Function.update_of_ne hchild, ← hpc]
    apply h.ordered c hc hcn _ hchild
    · rw [hpc]
      exact hne.symm
    · rw [hpc]
      exact h.below.le.trans (hparent ▸ (parent_lt hpos).le)

/-- The hole goes up, where the value does not belong below the parent. -/
theorem Hole.up (h : Hole key mem top n hole) (htop : top < hole) {value : α}
    (hvalue : FitsAbove key mem n hole value) (hle : key value ≤ key (mem (parent hole))) :
    Hole key (Function.update mem hole (mem (parent hole))) top n (parent hole) ∧
      FitsAbove key (Function.update mem hole (mem (parent hole))) n (parent hole) value := by
  have hpos : 0 < hole := Nat.zero_lt_of_lt htop
  have hplt := parent_lt hpos
  have hbelow := h.below.parent htop
  -- A sibling of the hole is ordered with the parent.
  have hsibling : ∀ c, 0 < c → c < n → parent c = parent hole → c ≠ hole →
      key (mem (parent hole)) ≤ key (mem c) := by
    intro c hc hcn hpc hch
    rw [← hpc]
    exact h.ordered c hc hcn (hpc ▸ hbelow.le) hch (hpc ▸ hplt.ne)
  refine ⟨⟨hplt.trans h.lt, hbelow, ?_, ?_⟩, ?_⟩
  · intro c hc hcn htopc hcp hpcp
    have hch : c ≠ hole := by
      rintro rfl
      exact hpcp rfl
    rw [Function.update_of_ne hch]
    by_cases hpch : parent c = hole
    · rw [hpch, Function.update_self]
      exact h.bridged c hc hcn hpch htop
    · rw [Function.update_of_ne hpch]
      exact h.ordered c hc hcn htopc hch hpch
  · intro c hc hcn hpc htopp
    have hppos : 0 < parent hole := Nat.zero_lt_of_lt htopp
    have hpp := parent_lt hppos
    have habove : key (mem (parent (parent hole))) ≤ key (mem (parent hole)) :=
      h.ordered _ hppos (hplt.trans h.lt) (hbelow.parent htopp).le hplt.ne (by omega)
    rw [Function.update_of_ne (by omega : parent (parent hole) ≠ hole)]
    by_cases hch : c = hole
    · rw [hch, Function.update_self]
      exact habove
    · rw [Function.update_of_ne hch]
      exact habove.trans (hsibling c hc hcn hpc hch)
  · intro c hc hcn hpc
    by_cases hch : c = hole
    · rw [hch, Function.update_self]
      exact hle
    · rw [Function.update_of_ne hch]
      exact hle.trans (hsibling c hc hcn hpc hch)

theorem Hole.fill (h : Hole key mem top n hole) {value : α}
    (hvalue : FitsAbove key mem n hole value)
    (habove : top < hole → key (mem (parent hole)) ≤ key value) :
    Ordered key (Function.update mem hole value) top n := by
  intro c hc hcn htop
  have hpc := parent_lt hc
  by_cases hch : c = hole
  · subst hch
    rw [Function.update_self, Function.update_of_ne hpc.ne]
    exact habove (lt_of_le_of_lt htop hpc)
  · rw [Function.update_of_ne hch]
    by_cases hpch : parent c = hole
    · rw [hpch, Function.update_self]
      exact hvalue c hc hcn hpch
    · rw [Function.update_of_ne hpch]
      exact h.ordered c hc hcn htop hch hpch

end

section

theorem elements_congr {mem mem' : ℕ → α} {n : ℕ} (h : ∀ i < n, mem i = mem' i) :
    elements mem n = elements mem' n :=
  Multiset.map_congr rfl fun i hi => h i (Multiset.mem_range.mp hi)

variable (mem : ℕ → α)

theorem elements_succ (n : ℕ) : elements mem (n + 1) = mem n ::ₘ elements mem n := by
  simp [elements, Multiset.range_succ]

theorem mem_elements {mem : ℕ → α} {n : ℕ} {a : α} : a ∈ elements mem n ↔ ∃ i < n, mem i = a := by
  simp [elements]

/-- Wherever the hole is, with the value in it the elements are the same. -/
theorem elements_move {n i j : ℕ} (hi : i < n) (hj : j < n) (hne : i ≠ j)
    (value : α) :
    elements (Function.update (Function.update mem i (mem j)) j value) n =
      elements (Function.update mem i value) n := by
  have hswap : Function.update (Function.update mem i (mem j)) j value =
      Function.update mem i value ∘ Equiv.swap i j := by
    funext k
    by_cases hki : k = i
    · subst hki
      simp [Function.update_of_ne hne, Function.update_of_ne hne.symm]
    · by_cases hkj : k = j
      · subst hkj
        simp
      · simp [Function.update_of_ne hki, Function.update_of_ne hkj,
          Equiv.swap_apply_of_ne_of_ne hki hkj]
  have hrange : (Multiset.range n).map (Equiv.swap i j) = Multiset.range n := by
    have hlt : ∀ k, Equiv.swap i j k < n ↔ k < n := by
      intro k
      by_cases hki : k = i
      · simp [hki, hi, hj]
      · by_cases hkj : k = j
        · simp [hkj, hi, hj]
        · rw [Equiv.swap_apply_of_ne_of_ne hki hkj]
    have hnodup := (Multiset.nodup_range n).map (Equiv.swap i j).injective
    refine (Multiset.Nodup.ext hnodup (Multiset.nodup_range n)).mpr fun k => ?_
    rw [Multiset.mem_map, Multiset.mem_range]
    constructor
    · rintro ⟨k', hk', rfl⟩
      exact (hlt k').mpr (Multiset.mem_range.mp hk')
    · intro hk
      exact ⟨Equiv.swap i j k, Multiset.mem_range.mpr ((hlt k).mpr hk), Equiv.swap_apply_self i j k⟩
  rw [hswap, elements, elements, ← Multiset.map_map, hrange]

/-- A value that is written to a place takes the place of one element. -/
theorem elements_update {n i : ℕ} (hi : i < n) :
    ∃ rest, elements mem n = mem i ::ₘ rest ∧
      ∀ value, elements (Function.update mem i value) n = value ::ₘ rest := by
  have hrange := Multiset.cons_erase (Multiset.mem_range.mpr hi)
  refine ⟨((Multiset.range n).erase i).map mem, ?_, fun value => ?_⟩
  · rw [elements, ← hrange, Multiset.map_cons, hrange]
  · rw [elements, ← hrange, Multiset.map_cons, Function.update_self, hrange]
    congr 1
    apply Multiset.map_congr rfl
    intro k hk
    have hne := ((Multiset.nodup_range n).mem_erase_iff.mp hk).1
    exact Function.update_of_ne hne _ _

/-- `erase`: what is behind the place moves up. -/
def eraseAt (mem : ℕ → α) (i : ℕ) : ℕ → α := fun k => if k < i then mem k else mem (k + 1)

theorem elements_eraseAt {n i : ℕ} (hi : i ≤ n) :
    elements mem (n + 1) = mem i ::ₘ elements (eraseAt mem i) n := by
  induction n with
  | zero =>
    obtain rfl := Nat.le_zero.mp hi
    exact elements_succ mem 0
  | succ n ih =>
    obtain rfl | hlt := Nat.eq_or_lt_of_le hi
    · rw [elements_succ]
      congr 1
      exact elements_congr fun k hk => (if_pos hk).symm
    · have hle : i ≤ n := Nat.lt_succ_iff.mp hlt
      have hlast : eraseAt mem i n = mem (n + 1) := if_neg (Nat.not_lt.mpr hle)
      rw [elements_succ, ih hle, elements_succ (eraseAt mem i), hlast, Multiset.cons_swap]

end

/-- The value has found its place from the hole on. -/
structure Filled (key : α → κ) (mem : ℕ → α) (top n hole : ℕ) (value : α) (result : ℕ → α) :
    Prop where
  ordered : Ordered key result top n
  elements : elements result n = elements (Function.update mem hole value) n

/-- The hole has gone down as far as it can. -/
structure Moved (key : α → κ) (mem : ℕ → α) (top n hole : ℕ) (moved : (ℕ → α) × ℕ) : Prop where
  isHole : Hole key moved.1 top n moved.2
  childless : ∀ c, 0 < c → c < n → parent c ≠ moved.2
  elements : ∀ value, elements (Function.update moved.1 moved.2 value) n =
    elements (Function.update mem hole value) n

/-- The algorithms write to the places of the heap only. -/
def Frame (mem result : ℕ → α) (n : ℕ) : Prop := ∀ i, n ≤ i → result i = mem i

variable {comp key} {mem : ℕ → α} {top n hole : ℕ}

theorem eq_child {c : ℕ} (hc : 0 < c) (h : parent c = hole) :
    c = 2 * hole + 1 ∨ c = 2 * hole + 2 := by
  unfold parent at h
  omega

theorem pushHeapAt_filled (hcomp : Compares comp key) {value : α} (h : Hole key mem top n hole)
    (hvalue : FitsAbove key mem n hole value) :
    Filled key mem top n hole value (pushHeapAt comp mem hole top value) := by
  induction mem, hole using pushHeapAt.induct comp top value with
  | case1 mem hole hup ih =>
    obtain ⟨htop, htrue⟩ := hup
    obtain ⟨hhole, hfits⟩ := h.up htop hvalue (hcomp.le_of_true _ _ htrue)
    have hfilled := ih hhole hfits
    rw [pushHeapAt, dif_pos ⟨htop, htrue⟩]
    constructor
    · exact hfilled.ordered
    · have hne := (parent_lt (Nat.zero_lt_of_lt htop)).ne'
      rw [hfilled.elements, elements_move mem h.lt hhole.lt hne]
  | case2 mem hole hup =>
    rw [pushHeapAt, dif_neg hup]
    constructor
    · apply h.fill hvalue
      intro htop
      apply hcomp.le_of_false
      exact Bool.eq_false_iff.mpr fun htrue => hup ⟨htop, htrue⟩
    · rfl

theorem pushHeapAt_frame {value : α} (h : hole < n) :
    Frame mem (pushHeapAt comp mem hole top value) n := by
  induction mem, hole using pushHeapAt.induct comp top value with
  | case1 mem hole hup ih =>
    intro i hi
    have hlt := (parent_lt (Nat.zero_lt_of_lt hup.1)).trans h
    rw [pushHeapAt, dif_pos hup, ih hlt i hi, Function.update_of_ne (h.trans_le hi).ne']
  | case2 mem hole hup =>
    intro i hi
    rw [pushHeapAt, dif_neg hup, Function.update_of_ne (h.trans_le hi).ne']

/-- One step down. -/
theorem Hole.moved (h : Hole key mem top n hole) {child : ℕ} (hpos : 0 < child) (hlt : child < n)
    (hparent : parent child = hole) {moved : (ℕ → α) × ℕ}
    (hmoved : Moved key (Function.update mem hole (mem child)) top n child moved) :
    Moved key mem top n hole moved := by
  have hne : hole ≠ child := hparent ▸ (parent_lt hpos).ne
  constructor
  · exact hmoved.isHole
  · exact hmoved.childless
  · intro value
    rw [hmoved.elements, elements_move mem h.lt hlt hne]

theorem adjustHole_moved (hcomp : Compares comp key) (h : Hole key mem top n hole) :
    Moved key mem top n hole (adjustHole comp mem hole n) := by
  induction mem, hole using adjustHole.induct comp n with
  | case1 mem hole hlt secondChild htrue ih =>
    have hparent : parent (secondChild - 1) = hole := by
      unfold parent
      omega
    have hpos : 0 < secondChild - 1 := by omega
    have hsecond : secondChild - 1 < n := by omega
    have hmin : FitsAbove key mem n hole (mem (secondChild - 1)) := by
      intro c hc _ hpc
      obtain rfl | hc := eq_child hc hpc
      · exact le_rfl
      · rw [show c = secondChild from hc]
        exact hcomp.le_of_true _ _ htrue
    rw [adjustHole, dif_pos hlt, if_pos htrue]
    exact h.moved hpos hsecond hparent (ih (h.down hpos hsecond hparent hmin))
  | case2 mem hole hlt secondChild hfalse ih =>
    have hparent : parent secondChild = hole := by
      unfold parent
      omega
    have hpos : 0 < secondChild := by omega
    have hsecond : secondChild < n := by omega
    have hmin : FitsAbove key mem n hole (mem secondChild) := by
      intro c hc _ hpc
      obtain rfl | hc := eq_child hc hpc
      · exact hcomp.le_of_false _ _ (Bool.eq_false_iff.mpr hfalse)
      · rw [show c = secondChild from hc]
    rw [adjustHole, dif_pos hlt, if_neg hfalse]
    exact h.moved hpos hsecond hparent (ih (h.down hpos hsecond hparent hmin))
  | case3 mem hole hlt heven =>
    -- The last place of the heap is an only child.
    have hn := h.lt
    have hparent : parent (2 * hole + 1) = hole := by
      unfold parent
      omega
    have hpos : 0 < 2 * hole + 1 := by omega
    have honly : 2 * hole + 1 < n := by omega
    have hmin : FitsAbove key mem n hole (mem (2 * hole + 1)) := by
      intro c hc hcn hpc
      obtain rfl | hc := eq_child hc hpc
      · exact le_rfl
      · omega
    rw [adjustHole, dif_neg hlt, if_pos heven]
    apply h.moved hpos honly hparent
    constructor
    · exact h.down hpos honly hparent hmin
    · intro c hc hcn hpc
      have := eq_child hc hpc
      omega
    · intro value
      rfl
  | case4 mem hole hlt hodd =>
    have hn := h.lt
    rw [adjustHole, dif_neg hlt, if_neg hodd]
    constructor
    · exact h
    · intro c hc hcn hpc
      have := eq_child hc hpc
      omega
    · intro value
      rfl

theorem adjustHole_frame (h : hole < n) :
    Frame mem (adjustHole comp mem hole n).1 n ∧ (adjustHole comp mem hole n).2 < n := by
  induction mem, hole using adjustHole.induct comp n with
  | case1 mem hole hlt secondChild htrue ih =>
    obtain ⟨hframe, hmoved⟩ := ih (by omega)
    rw [adjustHole, dif_pos hlt, if_pos htrue]
    refine ⟨fun i hi => ?_, hmoved⟩
    rw [hframe i hi, Function.update_of_ne (h.trans_le hi).ne']
  | case2 mem hole hlt secondChild hfalse ih =>
    obtain ⟨hframe, hmoved⟩ := ih (by omega)
    rw [adjustHole, dif_pos hlt, if_neg hfalse]
    refine ⟨fun i hi => ?_, hmoved⟩
    rw [hframe i hi, Function.update_of_ne (h.trans_le hi).ne']
  | case3 mem hole hlt heven =>
    rw [adjustHole, dif_neg hlt, if_pos heven]
    constructor
    · intro i hi
      exact Function.update_of_ne (h.trans_le hi).ne' _ _
    · dsimp only
      omega
  | case4 mem hole hlt hodd =>
    rw [adjustHole, dif_neg hlt, if_neg hodd]
    exact ⟨fun i _ => rfl, h⟩

/-- A place whose children are heaps already. -/
theorem Ordered.isHole (h : Ordered key mem (hole + 1) n) (hn : hole < n) :
    Hole key mem hole n hole := by
  constructor
  · exact hn
  · exact .refl
  · intro c hc hcn htop _ hpc
    exact h c hc hcn (lt_of_le_of_ne htop (Ne.symm hpc))
  · intro c _ _ _ hlt
    exact absurd hlt (lt_irrefl _)

theorem adjustHeap_filled (hcomp : Compares comp key) (h : Ordered key mem (hole + 1) n)
    (hn : hole < n) (value : α) :
    Filled key mem hole n hole value (adjustHeap comp mem hole n value) := by
  have hmoved := adjustHole_moved hcomp (h.isHole hn)
  have hfits :
      FitsAbove key (adjustHole comp mem hole n).1 n (adjustHole comp mem hole n).2 value := by
    intro c hc hcn hpc
    exact absurd hpc (hmoved.childless c hc hcn)
  have hfilled := pushHeapAt_filled hcomp hmoved.isHole hfits
  constructor
  · exact hfilled.ordered
  · exact hfilled.elements.trans (hmoved.elements value)

theorem adjustHeap_frame (hn : hole < n) (value : α) :
    Frame mem (adjustHeap comp mem hole n value) n := by
  obtain ⟨hframe, hlt⟩ : Frame mem (adjustHole comp mem hole n).1 n ∧ _ := adjustHole_frame hn
  intro i hi
  exact (pushHeapAt_frame hlt i hi).trans (hframe i hi)

theorem Ordered.congr {mem' : ℕ → α} (h : Ordered key mem top n) (heq : ∀ i < n, mem' i = mem i) :
    Ordered key mem' top n := by
  intro c hc hcn htop
  rw [heq c hcn, heq _ ((parent_lt hc).trans hcn)]
  exact h c hc hcn htop

theorem Ordered.mono {n' : ℕ} (h : Ordered key mem top n) (hn : n' ≤ n) :
    Ordered key mem top n' := by
  intro c hc hcn htop
  exact h c hc (hcn.trans_le hn) htop

theorem Ordered.mono_top {top' : ℕ} (h : Ordered key mem top n) (htop : top ≤ top') :
    Ordered key mem top' n := by
  intro c hc hcn htop'
  exact h c hc hcn (htop.trans htop')

/-- The top of a heap has a least key. -/
theorem Ordered.top_le (h : Ordered key mem 0 n) {i : ℕ} (hi : i < n) :
    key (mem 0) ≤ key (mem i) := by
  induction i using Nat.strong_induction_on with
  | _ i ih =>
    obtain rfl | hpos := Nat.eq_zero_or_pos i
    · exact le_rfl
    · have hlt := parent_lt hpos
      exact (ih _ hlt (hlt.trans hi)).trans (h i hpos hi (Nat.zero_le _))

theorem below_zero (i : ℕ) : Below 0 i := by
  induction i using Nat.strong_induction_on with
  | _ i ih =>
    obtain rfl | hpos := Nat.eq_zero_or_pos i
    · exact .refl
    · exact .step hpos (ih _ (parent_lt hpos))

/-- `push_heap`, for a value that is put behind the others. -/
theorem pushHeap_filled (hcomp : Compares comp key) (h : Ordered key mem 0 n) (value : α) :
    Filled key mem 0 (n + 1) n value (pushHeapAt comp mem n 0 value) := by
  have hlast : ∀ c, 0 < c → c < n + 1 → parent c ≠ n := by
    intro c hc hcn
    have := parent_lt hc
    omega
  apply pushHeapAt_filled hcomp
  · constructor
    · exact Nat.lt_succ_self n
    · exact below_zero n
    · intro c hc hcn htop hne _
      exact h c hc (lt_of_le_of_ne (Nat.lt_succ_iff.mp hcn) hne) htop
    · intro c hc hcn hpc
      exact absurd hpc (hlast c hc hcn)
  · intro c hc hcn hpc
    exact absurd hpc (hlast c hc hcn)

theorem pushHeap_elements (hcomp : Compares comp key) (h : Ordered key mem 0 n) (value : α) :
    elements (pushHeapAt comp mem n 0 value) (n + 1) = value ::ₘ elements mem n := by
  rw [(pushHeap_filled hcomp h value).elements, elements_succ, Function.update_self]
  congr 1
  exact elements_congr fun i hi => Function.update_of_ne hi.ne _ _

/-- What `pop_heap` leaves. -/
structure Popped (key : α → κ) (mem : ℕ → α) (n : ℕ) (result : ℕ → α) : Prop where
  ordered : Ordered key result 0 n
  last : result n = mem 0
  elements : elements mem (n + 1) = mem 0 ::ₘ elements result n

theorem popHeap_popped (hcomp : Compares comp key) (h : Ordered key mem 0 (n + 1)) :
    Popped key mem n (popHeap comp mem (n + 1)) := by
  unfold popHeap
  rw [Nat.add_sub_cancel]
  split
  next hn =>
    have hpos : 0 < n := by omega
    have hbelow : ∀ i < n, Function.update mem n (mem 0) i = mem i := by
      intro i hi
      exact Function.update_of_ne hi.ne _ _
    have hordered : Ordered key (Function.update mem n (mem 0)) (0 + 1) n :=
      ((h.mono (Nat.le_succ n)).congr hbelow).mono_top (Nat.zero_le _)
    have hfilled := adjustHeap_filled hcomp hordered hpos (mem n)
    have hframe : Frame _ (adjustHeap comp (Function.update mem n (mem 0)) 0 n (mem n)) n :=
      adjustHeap_frame hpos (mem n)
    constructor
    · exact hfilled.ordered
    · rw [hframe n le_rfl, Function.update_self]
    · have hswapped := elements_move mem (Nat.lt_succ_self n) (Nat.succ_pos n) hpos.ne' (mem n)
      rw [Function.update_eq_self, elements_succ, Function.update_of_ne hpos.ne',
        Function.update_self] at hswapped
      rw [hfilled.elements, hswapped]
  next hn =>
    obtain rfl : n = 0 := by omega
    constructor
    · intro c _ hcn
      exact absurd hcn (Nat.not_lt_zero c)
    · rfl
    · exact elements_succ mem 0

theorem makeHeapFrom_filled (hcomp : Compares comp key) {i : ℕ} (h : Ordered key mem (i + 1) n)
    (hi : i < n) :
    Ordered key (makeHeapFrom comp n i mem) 0 n ∧
      elements (makeHeapFrom comp n i mem) n = elements mem n := by
  induction i generalizing mem with
  | zero =>
    have hfilled := adjustHeap_filled hcomp h hi (mem 0)
    refine ⟨hfilled.ordered, ?_⟩
    rw [makeHeapFrom, hfilled.elements, Function.update_eq_self]
  | succ i ih =>
    have hfilled := adjustHeap_filled hcomp h hi (mem (i + 1))
    obtain ⟨hordered, helements⟩ := ih hfilled.ordered (Nat.lt_of_succ_lt hi)
    refine ⟨hordered, ?_⟩
    rw [makeHeapFrom, helements, hfilled.elements, Function.update_eq_self]

theorem makeHeap_filled (hcomp : Compares comp key) (mem : ℕ → α) (n : ℕ) :
    Ordered key (makeHeap comp mem n) 0 n ∧ elements (makeHeap comp mem n) n = elements mem n := by
  unfold makeHeap
  split
  next hn =>
    refine ⟨fun c hc hcn _ => ?_, rfl⟩
    omega
  next hn =>
    apply makeHeapFrom_filled hcomp
    · intro c hc hcn htop
      unfold parent at htop
      omega
    · omega

end Esp32Firmware.BinaryHeap
