import Mathlib.Tactic

/-!
# Runs of a sequence

A sequence whose maximal runs all have at least a given length is the same as a sequence
that can be cut into blocks of at least this length.
-/

namespace Esp32Firmware.Runs

variable {α : Type*} {f : ℕ → α} {n B : ℕ}

/-- The sequence does not change between `a` and `b`. -/
def Constant (f : ℕ → α) (a b : ℕ) : Prop := ∀ k, a ≤ k → k < b → f k = f a

/-- A maximal run of the first `n` entries. -/
structure IsRun (f : ℕ → α) (n a b : ℕ) : Prop where
  lt : a < b
  le : b ≤ n
  constant : Constant f a b
  left : a = 0 ∨ f (a - 1) ≠ f a
  right : b = n ∨ f b ≠ f a

/-- Every maximal run has at least `B` entries. -/
def AtLeast (f : ℕ → α) (n B : ℕ) : Prop := ∀ a b, IsRun f n a b → B ≤ b - a

/-- The first entries can be cut into constant blocks of at least `B` entries. -/
inductive Blocks (f : ℕ → α) (B : ℕ) : ℕ → Prop
  | zero : Blocks f B 0
  | block {a b : ℕ} : Blocks f B a → a < b → B ≤ b - a → Constant f a b → Blocks f B b

/-- The block of an entry. -/
theorem Blocks.exists_block (h : Blocks f B n) {k : ℕ} (hk : k < n) :
    ∃ a b, a ≤ k ∧ k < b ∧ b ≤ n ∧ B ≤ b - a ∧ Constant f a b := by
  induction h with
  | zero => omega
  | @block a b hblocks hab hlen hconst ih =>
    by_cases hka : k < a
    · obtain ⟨c, d, hck, hkd, hda, hlen', hconst'⟩ := ih hka
      exact ⟨c, d, hck, hkd, by omega, hlen', hconst'⟩
    · exact ⟨a, b, by omega, hk, le_rfl, hlen, hconst⟩

/-- A maximal run contains the block of its first entry. -/
theorem Blocks.atLeast (h : Blocks f B n) : AtLeast f n B := by
  intro a b hrun
  obtain ⟨c, d, hca, had, hdn, hlen, hconst⟩ := h.exists_block (lt_of_lt_of_le hrun.lt hrun.le)
  have hvalue : ∀ k, c ≤ k → k < d → f k = f a := by
    intro k hck hkd
    rw [hconst k hck hkd, hconst a hca had]
  have hstart : c = a := by
    rcases hrun.left with hzero | hleft
    · omega
    · by_contra hne
      exact hleft (hvalue (a - 1) (by omega) (by omega))
  have hend : d ≤ b := by
    rcases hrun.right with hlast | hright
    · omega
    · by_contra hgt
      have := hrun.lt
      exact hright (hvalue b (by omega) (by omega))
  omega

/-- Cutting at the end of one run after the other. -/
theorem AtLeast.blocks_from (h : AtLeast f n B) (m : ℕ) :
    ∀ a, n - a = m → a ≤ n → Blocks f B a → (a = 0 ∨ a = n ∨ f (a - 1) ≠ f a) → Blocks f B n := by
  classical
  induction m using Nat.strong_induction_on with
  | _ m ih =>
    intro a hm han hblocks hstart
    by_cases hend : a = n
    · exact hend ▸ hblocks
    · have hexists : ∃ b, a < b ∧ (b = n ∨ f b ≠ f a) := ⟨n, by omega, .inl rfl⟩
      obtain ⟨hab, hright⟩ := Nat.find_spec hexists
      have hmin := fun k => @Nat.find_min _ _ hexists k
      have hbn : Nat.find hexists ≤ n := Nat.find_min' hexists ⟨by omega, .inl rfl⟩
      generalize Nat.find hexists = b at hab hright hmin hbn
      have hconst : Constant f a b := by
        intro k hak hkb
        by_contra hne
        have hlt : a < k := by
          rcases Nat.eq_or_lt_of_le hak with heq | hlt
          · subst heq
            exact absurd rfl hne
          · exact hlt
        exact hmin k hkb ⟨hlt, .inr hne⟩
      have hrun : IsRun f n a b := by
        refine ⟨hab, hbn, hconst, ?_, hright⟩
        rcases hstart with hzero | hlast | hleft
        · exact .inl hzero
        · exact absurd hlast hend
        · exact .inr hleft
      apply ih (n - b) (by omega) b rfl hbn (hblocks.block hab (h a b hrun) hconst)
      rcases hright with hlast | hne
      · exact .inr (.inl hlast)
      · right; right
        rw [hconst (b - 1) (by omega) (by omega)]
        exact hne.symm

theorem AtLeast.blocks (h : AtLeast f n B) : Blocks f B n :=
  h.blocks_from n 0 (by omega) (by omega) .zero (.inl rfl)

theorem AtLeast.mono {C : ℕ} (h : AtLeast f n B) (hC : C ≤ B) : AtLeast f n C := by
  intro a b hrun
  exact hC.trans (h a b hrun)

/-- Runs have at least one entry. -/
theorem atLeast_one (f : ℕ → α) (n : ℕ) : AtLeast f n 1 := by
  intro a b hrun
  have := hrun.lt
  omega

/-- Every entry repeated `c` times. -/
theorem Blocks.expand {c : ℕ} (hc : 0 < c) (h : Blocks f B n) :
    Blocks (fun k => f (k / c)) (c * B) (c * n) := by
  induction h with
  | zero => exact .zero
  | @block a b hblocks hab hlen hconst ih =>
    apply ih.block
    · exact Nat.mul_lt_mul_of_pos_left hab hc
    · rw [← Nat.mul_sub]
      exact Nat.mul_le_mul_left c hlen
    · intro k hak hkb
      have hfirst : c * a / c = a := Nat.mul_div_cancel_left a hc
      have ha : a ≤ k / c := (Nat.le_div_iff_mul_le hc).mpr (by rwa [mul_comm])
      have hb : k / c < b := (Nat.div_lt_iff_lt_mul hc).mpr (by rwa [mul_comm])
      dsimp only
      rw [hfirst]
      exact hconst (k / c) ha hb

theorem Blocks.congr {g : ℕ → α} (h : Blocks f B n) (hfg : ∀ k < n, f k = g k) : Blocks g B n := by
  induction h with
  | zero => exact .zero
  | @block a b hblocks hab hlen hconst ih =>
    apply (ih fun k hk => hfg k (by omega)).block hab hlen
    intro k hak hkb
    rw [← hfg k hkb, ← hfg a hab]
    exact hconst k hak hkb

end Esp32Firmware.Runs
