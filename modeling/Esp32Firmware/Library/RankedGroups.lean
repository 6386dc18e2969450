import Mathlib

/-!
# Groups of a ranked list

A list in a strict order of its elements is cut off behind some of them. Where numbers of one group
compare alike with all the others, and whole groups are in the list, a cut behind a multiple of the
size of the groups cuts no group.
-/

namespace Esp32Firmware.RankedGroups

variable {l : List ℕ} {r : ℕ → ℕ → Prop}

/-- The numbers of a list before a number. -/
noncomputable def before (r : ℕ → ℕ → Prop) (l : List ℕ) (x : ℕ) : Finset ℕ := by
  classical exact l.toFinset.filter fun i => r i x

theorem mem_before {i x : ℕ} : i ∈ before r l x ↔ i ∈ l ∧ r i x := by
  simp [before]

/-- A number is behind those before it. -/
theorem mem_take_iff (hpair : l.Pairwise r) (hasymm : ∀ i j, r i j → ¬r j i) {n x : ℕ}
    (hx : x ∈ l) : x ∈ l.take n ↔ (before r l x).card < n := by
  induction l generalizing n with
  | nil => cases hx
  | cons i rest ih =>
    obtain ⟨hi, hrest⟩ := List.pairwise_cons.mp hpair
    have hirrefl : ∀ j, ¬r j j := fun j hj => hasymm j j hj hj
    by_cases hxi : x = i
    · subst hxi
      have hnone : before r (x :: rest) x = ∅ := by
        ext j
        rw [mem_before, List.mem_cons]
        constructor
        · rintro ⟨rfl | hj, hjx⟩
          · exact absurd hjx (hirrefl j)
          · exact absurd hjx (hasymm x j (hi j hj))
        · intro hj
          exact absurd hj (Finset.notMem_empty j)
      rw [hnone, Finset.card_empty]
      cases n with
      | zero | succ n => simp
    · have hxrest : x ∈ rest := (List.mem_cons.mp hx).resolve_left hxi
      have hinotin : i ∉ before r rest x := by
        intro hmem
        have hirest := (mem_before.mp hmem).1
        exact hirrefl i (hi i hirest)
      have hcons : before r (i :: rest) x = insert i (before r rest x) := by
        ext j
        rw [mem_before, List.mem_cons, Finset.mem_insert, mem_before]
        constructor
        · rintro ⟨rfl | hj, hjx⟩
          · exact .inl rfl
          · exact .inr ⟨hj, hjx⟩
        · rintro (rfl | ⟨hj, hjx⟩)
          · exact ⟨.inl rfl, hi x hxrest⟩
          · exact ⟨.inr hj, hjx⟩
      rw [hcons, Finset.card_insert_of_notMem hinotin]
      cases n with
      | zero => simp
      | succ n =>
        rw [List.take_succ_cons, List.mem_cons, or_iff_right hxi, ih hrest hxrest]
        omega

/-- A set of whole groups of `c` numbers. -/
theorem dvd_card_of_whole {c : ℕ} (hc : 0 < c) {s : Finset ℕ}
    (hwhole : ∀ i ∈ s, ∀ j, j / c = i / c → j ∈ s) : c ∣ s.card := by
  have hfiber : ∀ g ∈ s.image (· / c), (s.filter fun i => i / c = g).card = c := by
    intro g hg
    obtain ⟨i, hi, rfl⟩ := Finset.mem_image.mp hg
    have hgroup : (s.filter fun j => j / c = i / c) = Finset.Ico (i / c * c) (i / c * c + c) := by
      ext j
      rw [Finset.mem_filter, Finset.mem_Ico, Nat.div_eq_iff hc]
      constructor
      · rintro ⟨-, hj⟩
        omega
      · intro hj
        have hsame : j / c = i / c := (Nat.div_eq_iff hc).mpr (by omega)
        exact ⟨hwhole i hi j hsame, by omega⟩
    rw [hgroup, Nat.card_Ico]
    omega
  have hsum := Finset.card_eq_sum_card_image (· / c) s
  rw [Finset.sum_congr rfl hfiber, Finset.sum_const] at hsum
  exact ⟨_, by rw [hsum, smul_eq_mul, mul_comm]⟩

/-- The list and its order do not tell the numbers of one group apart. -/
structure Grouped (r : ℕ → ℕ → Prop) (l : List ℕ) (c : ℕ) : Prop where
  pairwise : l.Pairwise r
  asymm : ∀ i j, r i j → ¬r j i
  whole : ∀ i ∈ l, ∀ j, j / c = i / c → j ∈ l
  uniform : ∀ i j x y, i / c = j / c → x / c = y / c → i / c ≠ x / c → r i x → r j y

/-- The rank of a number is that of its group and less than `c` more. -/
theorem Grouped.card_before {c : ℕ} (h : Grouped r l c) (hc : 0 < c) (g : ℕ) :
    ∃ rank, ∀ x, x / c = g →
      c * rank ≤ (before r l x).card ∧ (before r l x).card < c * rank + c := by
  have hfirst : g * c / c = g := Nat.mul_div_cancel g hc
  -- The numbers of other groups are before all numbers of this group or before none.
  set others := (before r l (g * c)).filter fun i => i / c ≠ g with hothers
  have hwhole : ∀ i ∈ others, ∀ j, j / c = i / c → j ∈ others := by
    intro i hi j hj
    obtain ⟨hbefore, hne⟩ := Finset.mem_filter.mp hi
    obtain ⟨hil, hri⟩ := mem_before.mp hbefore
    have hrj := h.uniform i j _ _ hj.symm rfl (hfirst.symm ▸ hne) hri
    exact Finset.mem_filter.mpr ⟨mem_before.mpr ⟨h.whole i hil j hj, hrj⟩, hj ▸ hne⟩
  obtain ⟨rank, hrank⟩ := dvd_card_of_whole hc hwhole
  refine ⟨rank, fun x hx => ?_⟩
  have hsame : (before r l x).filter (fun i => i / c ≠ g) = others := by
    ext i
    rw [hothers, Finset.mem_filter, Finset.mem_filter, mem_before, mem_before]
    apply and_congr_left
    intro hne
    apply and_congr_right
    intro _
    have hgroup : x / c = g * c / c := hx.trans hfirst.symm
    constructor
    · exact h.uniform i i x _ rfl hgroup (hx.symm ▸ hne)
    · exact h.uniform i i _ x rfl hgroup.symm (hfirst.symm ▸ hne)
  have hown : ((before r l x).filter fun i => ¬i / c ≠ g).card < c := by
    have hsubset : ((before r l x).filter fun i => ¬i / c ≠ g) ⊆
        (Finset.Ico (g * c) (g * c + c)).erase x := by
      intro i hi
      obtain ⟨hbefore, hig⟩ := Finset.mem_filter.mp hi
      have hrix := (mem_before.mp hbefore).2
      have hrange := (Nat.div_eq_iff hc).mp (not_not.mp hig)
      refine Finset.mem_erase.mpr ⟨?_, Finset.mem_Ico.mpr (by omega)⟩
      rintro rfl
      exact h.asymm i i hrix hrix
    have hx' := (Nat.div_eq_iff hc).mp hx
    have hmem : x ∈ Finset.Ico (g * c) (g * c + c) := Finset.mem_Ico.mpr (by omega)
    have hcard := Finset.card_le_card hsubset
    rw [Finset.card_erase_of_mem hmem, Nat.card_Ico] at hcard
    omega
  have hsplit := Finset.card_filter_add_card_filter_not (s := before r l x) fun i => i / c ≠ g
  rw [hsame, hrank] at hsplit
  omega

theorem Grouped.mem_take {c a x y : ℕ} (h : Grouped r l c) (hc : 0 < c) (hx : x ∈ l.take (c * a))
    (hgroup : y / c = x / c) : y ∈ l.take (c * a) := by
  obtain ⟨rank, hrank⟩ := h.card_before hc (x / c)
  have hxl := List.mem_of_mem_take hx
  have hyl := h.whole x hxl y hgroup
  rw [mem_take_iff h.pairwise h.asymm hxl] at hx
  rw [mem_take_iff h.pairwise h.asymm hyl]
  have hlow := (hrank x rfl).1
  have hhigh := (hrank y hgroup).2
  have hlt : rank < a := by
    by_contra hle
    have := Nat.mul_le_mul_left c (Nat.not_lt.mp hle)
    omega
  have := Nat.mul_le_mul_left c (Nat.succ_le_of_lt hlt)
  rw [Nat.mul_succ] at this
  omega

end Esp32Firmware.RankedGroups
