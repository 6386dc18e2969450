import Mathlib.Data.Nat.Basic
import Mathlib.Tactic.Common

/-!
# Procedures with a result

A procedure takes replies of its environment one after the other. Each reply moves it to
another state or ends it with a result.
-/

namespace Procedure

variable {σ ε ρ : Type*} {step : σ → ε → σ ⊕ ρ} {s t : σ} {replies : ℕ → ε} {k m : ℕ} {r : ρ}

/-- The state or the result of a procedure after a number of replies. -/
def after (step : σ → ε → σ ⊕ ρ) (s : σ) (replies : ℕ → ε) : ℕ → σ ⊕ ρ
  | 0 => .inl s
  | k + 1 =>
    match step s (replies 0) with
    | .inl t => after step t (fun i => replies (i + 1)) k
    | .inr r => .inr r

theorem after_succ_of_inl (h : step s (replies 0) = .inl t) :
    after step s replies (k + 1) = after step t (fun i => replies (i + 1)) k := by
  rw [after, h]

theorem after_succ_of_inr (h : step s (replies 0) = .inr r) :
    after step s replies (k + 1) = .inr r := by
  rw [after, h]

/-- A result stays. -/
theorem after_of_le (h : after step s replies k = .inr r) (hkm : k ≤ m) :
    after step s replies m = .inr r := by
  induction k generalizing s replies m with
  | zero => cases h
  | succ k ih =>
    obtain ⟨m, rfl⟩ := Nat.exists_eq_add_of_le' (Nat.one_le_of_lt hkm)
    cases hstep : step s (replies 0) with
    | inl t =>
      rw [after_succ_of_inl hstep] at h ⊢
      exact ih h (Nat.le_of_succ_le_succ hkm)
    | inr r' =>
      rw [after_succ_of_inr hstep] at h ⊢
      exact h

/-- A procedure has at most one result. -/
theorem after_unique {r' : ρ} (h : after step s replies k = .inr r)
    (h' : after step s replies m = .inr r') : r = r' := by
  rcases Nat.le_total k m with hle | hle
  · exact Sum.inr.inj ((after_of_le h hle).symm.trans h')
  · exact Sum.inr.inj (h.symm.trans (after_of_le h' hle))

/-- A procedure ends if a bound on the replies it still takes gets smaller in every step. -/
theorem exists_after_of_bound {bounded : ℕ → σ → Prop}
    (hstep : ∀ n s e, bounded n s →
      (∃ r, step s e = .inr r) ∨ ∃ t m, step s e = .inl t ∧ m < n ∧ bounded m t)
    {n : ℕ} (hs : bounded n s) (replies : ℕ → ε) :
    ∃ r, after step s replies (n + 1) = .inr r := by
  induction n using Nat.strong_induction_on generalizing s replies with
  | _ n ih =>
    rcases hstep n s (replies 0) hs with ⟨r, hr⟩ | ⟨t, m, ht, hmn, hbound⟩
    · exact ⟨r, after_succ_of_inr hr⟩
    · obtain ⟨r, hr⟩ := ih m hmn hbound fun i => replies (i + 1)
      refine ⟨r, ?_⟩
      rw [after_succ_of_inl ht]
      exact after_of_le hr hmn

variable {e : ε}

/-- A procedure that gets the same reply all the time ends with a result. -/
def EndsWith (step : σ → ε → σ ⊕ ρ) (e : ε) (s : σ) (r : ρ) : Prop :=
  ∃ k, after step s (fun _ => e) k = .inr r

theorem EndsWith.result (h : step s e = .inr r) : EndsWith step e s r :=
  ⟨1, after_succ_of_inr h⟩

theorem EndsWith.reply (h : step s e = .inl t) (ht : EndsWith step e t r) :
    EndsWith step e s r := by
  obtain ⟨k, hk⟩ := ht
  exact ⟨k + 1, (after_succ_of_inl h).trans hk⟩

/-- A procedure that keeps going from some states never ends. -/
theorem after_of_endless {going : σ → Prop}
    (hstep : ∀ s, going s → ∃ t, step s e = .inl t ∧ going t) (hs : going s) (k : ℕ) :
    ∃ t, after step s (fun _ => e) k = .inl t ∧ going t := by
  induction k generalizing s with
  | zero => exact ⟨s, rfl, hs⟩
  | succ k ih =>
    obtain ⟨t, ht, hgoing⟩ := hstep s hs
    obtain ⟨u, hu, hlast⟩ := ih hgoing
    exact ⟨u, (after_succ_of_inl ht).trans hu, hlast⟩

end Procedure
