import Mathlib

/-!
# Accounts on shared resources

Accounts hold amounts of several resources. A transfer sets what one account holds
and takes the difference from what is left of each resource.
-/

namespace Esp32Firmware

/-- What is left of each resource and what each account holds of it. -/
structure Ledger (ι κ : Type*) where
  left : κ → ℤ
  held : ι → κ → ℤ

namespace Ledger

variable {ι κ : Type*}

/-- A resource as a whole. -/
def total [Fintype ι] (L : Ledger ι κ) (k : κ) : ℤ := L.left k + ∑ i, L.held i k

/-- Account `i` holds `h` from now on. -/
def transfer [DecidableEq ι] (L : Ledger ι κ) (i : ι) (h : κ → ℤ) : Ledger ι κ where
  left k := L.left k - (h k - L.held i k)
  held := Function.update L.held i h

variable {L : Ledger ι κ} {i : ι} {h : κ → ℤ} {k : κ}

@[simp] theorem total_transfer [Fintype ι] [DecidableEq ι] : (L.transfer i h).total k = L.total k := by
  have hsum : ∑ j, Function.update L.held i h j k = h k - L.held i k + ∑ j, L.held j k := by
    rw [← Finset.add_sum_erase _ _ (Finset.mem_univ i),
      ← Finset.add_sum_erase _ (fun j => L.held j k) (Finset.mem_univ i)]
    have hrest : ∑ j ∈ Finset.univ.erase i, Function.update L.held i h j k =
        ∑ j ∈ Finset.univ.erase i, L.held j k :=
      Finset.sum_congr rfl fun j hj => by rw [Function.update_of_ne (Finset.ne_of_mem_erase hj)]
    rw [hrest, Function.update_self]
    ring
  simp only [total, transfer, hsum]
  ring

/-- Holdings are not negative, and what is held of a checked resource is not overdrawn. -/
structure Sound (L : Ledger ι κ) (checked : κ → Prop) : Prop where
  nonneg : ∀ i k, 0 ≤ L.held i k
  covered : ∀ i k, checked k → L.held i k ≠ 0 → 0 ≤ L.left k

variable {checked : κ → Prop}

/-- A transfer that only takes what is left keeps the ledger sound. -/
theorem Sound.transfer [DecidableEq ι] (hL : L.Sound checked) (hh : ∀ k, 0 ≤ h k)
    (hcheck : ∀ k, checked k → L.held i k < h k → h k - L.held i k ≤ L.left k) :
    (L.transfer i h).Sound checked where
  nonneg j k := by
    rcases eq_or_ne j i with rfl | hj
    · simpa [Ledger.transfer] using hh k
    · simpa [Ledger.transfer, hj] using hL.nonneg j k
  covered j k hchecked hk := by
    simp only [Ledger.transfer] at hk ⊢
    have hleft : L.held j k ≠ 0 → 0 ≤ L.left k := hL.covered j k hchecked
    rcases lt_or_ge (L.held i k) (h k) with hlt | hge
    · have := hcheck k hchecked hlt
      omega
    · rcases eq_or_ne j i with rfl | hj
      · rw [Function.update_self] at hk
        have := hh k
        have := hleft (by omega)
        omega
      · rw [Function.update_of_ne hj] at hk
        have := hleft hk
        omega

/-- Together the accounts hold no more of a checked resource than there was. -/
theorem Sound.sum_held_le [Fintype ι] (hL : L.Sound checked) (hchecked : checked k) :
    ∑ i, L.held i k ≤ max 0 (L.total k) := by
  by_cases hzero : ∀ i, L.held i k = 0
  · simp [hzero]
  · obtain ⟨i, hi⟩ := not_forall.mp hzero
    have hleft := hL.covered i k hchecked hi
    exact le_max_of_le_right (by unfold total; omega)

end Ledger

end Esp32Firmware
