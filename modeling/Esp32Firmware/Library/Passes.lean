import Mathlib.Order.Basic

/-!
# Repeated passes

A loop or a tail recursion as passes that say whether another one follows. The passes are bounded,
and a rank that drops from each pass to the next one tells when the bound is not felt.
-/

namespace Esp32Firmware

variable {σ : Type*} {pass : σ → σ × Bool} {rank : σ → ℕ} {n m : ℕ} {s : σ}

/-- At most so many passes. -/
def passes (pass : σ → σ × Bool) : ℕ → σ → σ
  | 0, s => s
  | n + 1, s => if (pass s).2 then passes pass n (pass s).1 else (pass s).1

theorem passes_succ (s : σ) :
    passes pass (n + 1) s = if (pass s).2 then passes pass n (pass s).1 else (pass s).1 := rfl

/-- Bounds above the rank give the same result. -/
theorem passes_congr (hrank : ∀ s, (pass s).2 = true → rank (pass s).1 < rank s)
    (hn : rank s < n) (hm : rank s < m) : passes pass n s = passes pass m s := by
  induction n generalizing m s with
  | zero => exact absurd hn (Nat.not_lt_zero _)
  | succ n ih =>
    cases m with
    | zero => exact absurd hm (Nat.not_lt_zero _)
    | succ m =>
      rw [passes_succ, passes_succ]
      by_cases hgo : (pass s).2 = true
      · rw [if_pos hgo, if_pos hgo]
        have hdrop := hrank s hgo
        apply ih
        · exact Nat.lt_of_lt_of_le hdrop (Nat.le_of_lt_succ hn)
        · exact Nat.lt_of_lt_of_le hdrop (Nat.le_of_lt_succ hm)
      · rw [if_neg hgo, if_neg hgo]

/-- The passes run until one of them is the last. -/
theorem passes_eq_self (hrank : ∀ s, (pass s).2 = true → rank (pass s).1 < rank s)
    (hn : ∀ s, rank s < n) (s : σ) :
    passes pass n s = if (pass s).2 then passes pass n (pass s).1 else (pass s).1 := by
  rw [← passes_succ]
  exact passes_congr hrank (hn s) (Nat.lt_succ_of_lt (hn s))

/-- What every pass keeps is kept by all of them. -/
theorem passes_invariant {I : σ → Prop} (hpass : ∀ s, I s → I (pass s).1) (hs : I s) :
    I (passes pass n s) := by
  induction n generalizing s with
  | zero => exact hs
  | succ n ih =>
    rw [passes_succ]
    split
    · exact ih (hpass s hs)
    · exact hpass s hs

/-- The passes that others follow keep an invariant, and the last one gives the result. -/
theorem passes_end {I P : σ → Prop}
    (hrank : ∀ s, (pass s).2 = true → rank (pass s).1 < rank s)
    (hgo : ∀ s, I s → (pass s).2 = true → I (pass s).1)
    (hstop : ∀ s, I s → ¬(pass s).2 = true → P (pass s).1)
    (hn : rank s < n) (hs : I s) : P (passes pass n s) := by
  induction n generalizing s with
  | zero => exact absurd hn (Nat.not_lt_zero _)
  | succ n ih =>
    rw [passes_succ]
    by_cases hlast : (pass s).2 = true
    · rw [if_pos hlast]
      exact ih (Nat.lt_of_lt_of_le (hrank s hlast) (Nat.le_of_lt_succ hn)) (hgo s hs hlast)
    · rw [if_neg hlast]
      exact hstop s hs hlast

end Esp32Firmware
