import Mathlib

/-!
# Regions of memory

A region is a range of addresses. Regions that are separate stay so when they shrink.
-/

namespace Esp32Firmware

structure Region where
  start : ℕ
  size : ℕ
  deriving DecidableEq

namespace Region

variable {r r' q q' : Region} {regions : List Region}

def bytes (r : Region) : Set ℕ := Set.Ico r.start (r.start + r.size)

def Separate (r r' : Region) : Prop := Disjoint r.bytes r'.bytes

/-- The first region lies in the second one. -/
def Within (r r' : Region) : Prop := r'.start ≤ r.start ∧ r.start + r.size ≤ r'.start + r'.size

theorem Within.refl (r : Region) : r.Within r := ⟨le_rfl, le_rfl⟩

theorem Within.bytes_subset (h : r.Within r') : r.bytes ⊆ r'.bytes := Set.Ico_subset_Ico h.1 h.2

theorem Separate.symm (h : r.Separate r') : r'.Separate r := Disjoint.symm h

theorem Separate.within (h : r.Separate r') (hq : q.Within r) (hq' : q'.Within r') :
    q.Separate q' :=
  Set.disjoint_of_subset hq.bytes_subset hq'.bytes_subset h

/-- A region that ends where another one starts. -/
theorem separate_of_le (h : r.start + r.size ≤ r'.start) : r.Separate r' :=
  Set.disjoint_left.mpr fun _ ha ha' => absurd (ha.2.trans_le (h.trans ha'.1)) (lt_irrefl _)

/-- Regions with the same first byte. -/
theorem not_separate_of_start_eq (h : r.start = r'.start) (hr : 0 < r.size) (hr' : 0 < r'.size) :
    ¬ r.Separate r' := by
  intro hseparate
  have hmem : r.start ∈ r.bytes := ⟨le_rfl, Nat.lt_add_of_pos_right hr⟩
  have hmem' : r.start ∈ r'.bytes := ⟨h.ge, by rw [h]; exact Nat.lt_add_of_pos_right hr'⟩
  exact Set.disjoint_left.mp hseparate hmem hmem'

end Region

end Esp32Firmware
