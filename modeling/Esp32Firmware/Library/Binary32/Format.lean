import Mathlib

/-!
# The binary32 format

A rounded value is described by the grid it lies on: a power of two that is fine
enough for the exact value, and a multiple of it at distance at most half a step.

The logical model of `Float32` computes every operation on unpacked mantissas,
rounds them to the target exponent of the format and packs the result.

## Implementation notes

Only values at or above zero are described. A float that is not finite denotes
zero, so every statement about a result carries its finiteness.
-/

namespace Esp32Firmware.Binary32

/-- `r` is a multiple of the grid step `2 ^ t` nearest to `x`, and the step is
the one binary32 uses at the magnitude of `x`. -/
def IsRounded (x r : ℚ) : Prop :=
  ∃ t k : ℤ, -149 ≤ t ∧ r = k * 2 ^ t ∧ |x - r| ≤ 2 ^ t / 2 ∧
    x < 2 ^ (t + 24) ∧ (t = -149 ∨ 2 ^ (t + 23) ≤ x)

section

variable {x r g u : ℚ} {k k' : ℤ}

/-- A grid point less than half a step above the exact value bounds the result
from below. -/
theorem grid_le (hr : r = k * u) (hx : |x - r| ≤ u / 2) (hg : g = k' * u)
    (h : g - u / 2 < x) : g ≤ r := by
  have hu : 0 ≤ u := by have := (abs_nonneg _).trans hx; linarith
  by_contra hlt
  have hk : k ≤ k' - 1 := by
    by_contra hk
    have hk' : (k' : ℚ) ≤ k := by exact_mod_cast (by omega : k' ≤ k)
    exact hlt (by rw [hr, hg]; exact mul_le_mul_of_nonneg_right hk' hu)
  have hk' : (k : ℚ) ≤ k' - 1 := by exact_mod_cast hk
  have hstep : r ≤ g - u := by
    rw [hr, hg]
    linarith [mul_le_mul_of_nonneg_right hk' hu]
  linarith [(abs_le.mp hx).2]

/-- A grid point less than half a step below the exact value bounds the result
from above. -/
theorem le_grid (hr : r = k * u) (hx : |x - r| ≤ u / 2) (hg : g = k' * u)
    (h : x < g + u / 2) : r ≤ g := by
  have hneg : -g ≤ -r :=
    grid_le (show -r = ((-k : ℤ) : ℚ) * u by rw [hr]; push_cast; ring)
      (by rw [show -x - -r = -(x - r) by ring, abs_neg]; exact hx)
      (show -g = ((-k' : ℤ) : ℚ) * u by rw [hg]; push_cast; ring) (by linarith)
  linarith

/-- An integer is a multiple of every step that is at most one. -/
theorem int_on_grid (n : ℤ) {t : ℤ} (ht : t ≤ 0) : ∃ k : ℤ, (n : ℚ) = k * 2 ^ t := by
  refine ⟨n * 2 ^ (-t).toNat, ?_⟩
  have h : ((2 : ℚ) ^ (-t).toNat) * 2 ^ t = 1 := by
    rw [← zpow_natCast, ← zpow_add₀ (by norm_num), Int.toNat_of_nonneg (by omega)]
    simp
  push_cast
  rw [mul_assoc, h, mul_one]

end

namespace IsRounded

variable {x r x₁ r₁ : ℚ}

/-- When the exact value is below `2 ^ 24` the step is at most one. -/
theorem exponent_nonpos {t : ℤ} {x : ℚ} (ht : t = -149 ∨ (2 : ℚ) ^ (t + 23) ≤ x)
    (hx : x < 2 ^ 24) : t ≤ 0 := by
  rcases ht with ht | ht
  · omega
  · have h : (2 : ℚ) ^ (t + 23) < 2 ^ (24 : ℤ) := lt_of_le_of_lt ht (by exact_mod_cast hx)
    have := (zpow_lt_zpow_iff_right₀ (by norm_num : (1 : ℚ) < 2)).mp h
    omega

/-- Rounding does not cross an integer of at most 24 bits downwards. -/
theorem int_le (h : IsRounded x r) {n : ℤ} (hn : n ≤ 2 ^ 24) (hx : (n : ℚ) ≤ x) : (n : ℚ) ≤ r := by
  obtain ⟨t, k, -, hr, habs, -, ht⟩ := h
  have hu : (0 : ℚ) < 2 ^ t := zpow_pos (by norm_num) t
  by_cases ht0 : t ≤ 0
  · obtain ⟨k', hk'⟩ := int_on_grid n ht0
    exact grid_le hr habs hk' (by linarith)
  · have hlow : (2 : ℚ) ^ (t + 23) ≤ x := ht.resolve_left (by omega)
    have hg : (2 : ℚ) ^ (t + 23) = ((2 ^ 23 : ℤ) : ℚ) * 2 ^ t := by
      rw [zpow_add₀ (by norm_num)]
      push_cast
      rw [mul_comm]
    have hge := grid_le hr habs hg (by linarith)
    have h24 : (2 : ℚ) ^ (24 : ℤ) ≤ 2 ^ (t + 23) :=
      (zpow_le_zpow_iff_right₀ (by norm_num)).mpr (by omega)
    have hn' : (n : ℚ) ≤ 2 ^ (24 : ℤ) := by exact_mod_cast hn
    linarith

/-- Rounding does not cross an integer of at most 24 bits upwards. -/
theorem le_int (h : IsRounded x r) {n : ℤ} (hn : n < 2 ^ 24) (hx : x ≤ (n : ℚ)) : r ≤ (n : ℚ) := by
  obtain ⟨t, k, -, hr, habs, -, ht⟩ := h
  have hu : (0 : ℚ) < 2 ^ t := zpow_pos (by norm_num) t
  have hn' : (n : ℚ) < 2 ^ 24 := by exact_mod_cast hn
  obtain ⟨k', hk'⟩ := int_on_grid n (exponent_nonpos ht (by linarith))
  exact le_grid hr habs hk' (by linarith)

/-- An argument that grows by more than an integer carries every integer lower
bound of the smaller result along. -/
theorem int_add_le (h₁ : IsRounded x₁ r₁) (h : IsRounded x r) {n d : ℤ}
    (hn : (n : ℚ) ≤ r₁) (hd : 0 ≤ d) (hx : x₁ + d < x) (hb : n + d ≤ 2 ^ 24) :
    ((n + d : ℤ) : ℚ) ≤ r := by
  by_cases hle : ((n + d : ℤ) : ℚ) ≤ x
  · exact h.int_le hb hle
  · obtain ⟨t₁, k₁, hmin₁, hr₁, habs₁, hup₁, ht₁⟩ := h₁
    obtain ⟨t, k, hmin, hr, habs, hup, ht⟩ := h
    have hd' : (0 : ℚ) ≤ d := by exact_mod_cast hd
    have hb' : ((n + d : ℤ) : ℚ) ≤ 2 ^ 24 := by exact_mod_cast hb
    have htt : t₁ ≤ t := by
      rcases ht₁ with ht₁ | ht₁
      · omega
      · have hlt : (2 : ℚ) ^ (t₁ + 23) < 2 ^ (t + 24) := by linarith
        have := (zpow_lt_zpow_iff_right₀ (by norm_num : (1 : ℚ) < 2)).mp hlt
        omega
    have hstep : (2 : ℚ) ^ t₁ ≤ 2 ^ t := (zpow_le_zpow_iff_right₀ (by norm_num)).mpr htt
    obtain ⟨k', hk'⟩ := int_on_grid (n + d) (exponent_nonpos ht (by linarith))
    refine grid_le hr habs hk' ?_
    push_cast
    linarith [(abs_le.mp habs₁).1]

end IsRounded

open Float.Model Float.Model.UnpackedFloat

/-- The rational denoted by an unpacked float. -/
def unpackedValue : UnpackedFloat → ℚ
  | .finite s m e _ => (s.apply m : ℤ) * 2 ^ e
  | _ => 0

/-- The rational denoted by a packed float. -/
def value (x : Float32.Model) : ℚ := unpackedValue x.unpack

/-- What the residual bits of a mantissa shifted right by `k` places say about
the part `rest` that was shifted out. -/
def Residue (k m : ℕ) (em : ExtendedMantissa) : Prop :=
  ∃ rest, m = em.mantissa * 2 ^ k + rest ∧
    match em.roundBit, em.stickyBit with
    | false, false => rest = 0
    | false, true => 0 < rest ∧ 2 * rest < 2 ^ k
    | true, false => 2 * rest = 2 ^ k
    | true, true => 2 ^ k < 2 * rest ∧ rest < 2 ^ k

theorem residue_shift (m k : ℕ) : Residue k m ((⟨m, false, false⟩ : ExtendedMantissa) >>> k) := by
  induction k with
  | zero => exact ⟨0, by simp [HShiftRight.hShiftRight, Nat.repeat], by
      simp [HShiftRight.hShiftRight, Nat.repeat]⟩
  | succ k ih =>
    obtain ⟨rest, hm, hbits⟩ := ih
    change Residue (k + 1) m
      ((⟨m, false, false⟩ : ExtendedMantissa) >>> k).shiftRightOne
    generalize (⟨m, false, false⟩ : ExtendedMantissa) >>> k = em at hm hbits
    obtain ⟨q, b, s⟩ := em
    have hq := Nat.div_add_mod q 2
    have hpow : 2 ^ (k + 1) = 2 * 2 ^ k := by rw [pow_succ, mul_comm]
    have hpos : 0 < 2 ^ k := Nat.two_pow_pos k
    refine ⟨(q % 2) * 2 ^ k + rest, ?_, ?_⟩
    · simp only [ExtendedMantissa.shiftRightOne] at hm ⊢
      rw [hm, hpow]
      calc q * 2 ^ k + rest = (2 * (q / 2) + q % 2) * 2 ^ k + rest := by rw [hq]
        _ = q / 2 * (2 * 2 ^ k) + (q % 2 * 2 ^ k + rest) := by ring
    · simp only [ExtendedMantissa.shiftRightOne]
      rcases Nat.mod_two_eq_zero_or_one q with h | h <;> rw [h, hpow] <;>
        cases b <;> cases s <;> simp at hbits ⊢ <;> omega

/-- The rounded mantissa is nearest to the shifted value. -/
theorem roundedMantissa_near (m k : ℕ) :
    |(m : ℚ) - ((⟨m, false, false⟩ : ExtendedMantissa) >>> k).roundedMantissa * 2 ^ k| ≤
      2 ^ k / 2 := by
  obtain ⟨rest, hm, hbits⟩ := residue_shift m k
  generalize (⟨m, false, false⟩ : ExtendedMantissa) >>> k = em at hm hbits ⊢
  obtain ⟨q, b, s⟩ := em
  have hround : ∃ c : ℕ, ExtendedMantissa.roundedMantissa ⟨q, b, s⟩ = q + c ∧
      2 * rest ≤ c * 2 ^ (k + 1) + 2 ^ k ∧ c * 2 ^ (k + 1) ≤ 2 ^ k + 2 * rest := by
    have hpow : 2 ^ (k + 1) = 2 * 2 ^ k := by rw [pow_succ, mul_comm]
    cases b <;> cases s <;>
      simp only [ExtendedMantissa.roundedMantissa, ExtendedMantissa.accuracy,
        Accuracy.roundToNearestEven] at hbits ⊢
    · exact ⟨0, rfl, by omega, by omega⟩
    · exact ⟨0, rfl, by omega, by omega⟩
    · rcases Nat.mod_two_eq_zero_or_one q with h | h
      · exact ⟨0, by omega, by omega, by omega⟩
      · exact ⟨1, by omega, by omega, by omega⟩
    · exact ⟨1, rfl, by omega, by omega⟩
  obtain ⟨c, hc, hlo, hhi⟩ := hround
  have hlo' : (2 * rest : ℚ) ≤ c * 2 ^ (k + 1) + 2 ^ k := by exact_mod_cast hlo
  have hhi' : (c * 2 ^ (k + 1) : ℚ) ≤ 2 ^ k + 2 * rest := by exact_mod_cast hhi
  rw [hc, hm, abs_le]
  push_cast
  rw [pow_succ] at hlo' hhi'
  constructor <;> linarith

/-- Unpacked floats that survive packing: the mantissa fits and the exponent is
the one the format assigns. -/
def Canonical : UnpackedFloat → Prop
  | .finite _ m e _ => m < 2 ^ 24 ∧ -149 ≤ e ∧ e ≤ 104 ∧ (e = -149 ∨ 2 ^ 23 ≤ m)
  | .zero _ => True
  | _ => False

/-- The exponent binary32 assigns to a mantissa and exponent. -/
def targetExp (m : ℕ) (e : ℤ) : ℤ := max (m.log2 + 1 + e - 24) (-149)

theorem targetExponent_eq (m : ℕ) (e : ℤ) :
    Format.binary32.targetExponent (totalExponent m e) = targetExp m e := rfl

section

variable {m : ℕ} {e : ℤ}

theorem mantissa_lt (m : ℕ) (e : ℤ) (k : ℕ) (hk : targetExp m e ≤ e + k) : m < 2 ^ (24 + k) := by
  have h : m < 2 ^ (m.log2 + 1) := Nat.lt_log2_self
  have hle : m.log2 + 1 ≤ 24 + k := by unfold targetExp at hk; omega
  exact h.trans_le (Nat.pow_le_pow_right (by norm_num) hle)

theorem targetExp_le {r : ℕ} {t : ℤ} (hr : r < 2 ^ 24) (ht : -149 ≤ t) : targetExp r t ≤ t := by
  have hlog : r.log2 ≤ 23 := by
    rcases Nat.eq_zero_or_pos r with rfl | hpos
    · simp
    · exact Nat.lt_succ_iff.mp ((Nat.log2_lt hpos.ne').mpr hr)
  unfold targetExp
  omega

theorem targetExp_two_pow {t : ℤ} (ht : -149 ≤ t) : targetExp (2 ^ 24) t = t + 1 := by
  unfold targetExp
  rw [Nat.log2_two_pow]
  omega

theorem le_mantissa (hm : 0 < m) (k : ℕ) (hk : targetExp m e = e + k)
    (ht : targetExp m e ≠ -149) : 2 ^ (23 + k) ≤ m := by
  have h : 2 ^ m.log2 ≤ m := Nat.log2_self_le hm.ne'
  have hle : 23 + k ≤ m.log2 := by unfold targetExp at hk ht; omega
  exact (Nat.pow_le_pow_right (by norm_num) hle).trans h

/-- Rounding a mantissa that has at least the target's precision. -/
theorem roundWithAccuracy_exact (s : Sign) (hm : 0 < m) (he : e ≤ targetExp m e)
    (hmax : targetExp m e ≤ 103) :
    ∃ r : ℕ, |(m : ℚ) * 2 ^ e - r * 2 ^ targetExp m e| ≤ 2 ^ targetExp m e / 2 ∧
      Canonical (roundWithAccuracy .binary32 s m e .exact) ∧
      unpackedValue (roundWithAccuracy .binary32 s m e .exact) =
        (s.apply r : ℤ) * 2 ^ targetExp m e := by
  obtain ⟨k, hk⟩ : ∃ k : ℕ, targetExp m e = e + k :=
    ⟨(targetExp m e - e).toNat, by omega⟩
  have hnear := roundedMantissa_near m k
  generalize hr : ((⟨m, false, false⟩ : ExtendedMantissa) >>> k).roundedMantissa = r at hnear
  have hround : roundWithAccuracy .binary32 s m e .exact =
      let p := shiftToTargetExponent .binary32 r (targetExp m e) .exact
      if h : p.1.mantissa = 0 then .zero s
      else .finite s p.1.mantissa p.2 (Nat.pos_of_ne_zero h) := by
    have hfirst : shiftToTargetExponent .binary32 m e .exact =
        ((⟨m, false, false⟩ : ExtendedMantissa) >>> k, targetExp m e) := by
      simp only [shiftToTargetExponent, shiftToExponent, targetExponent_eq, hk]
      simp [ExtendedMantissa.ofMantissaAndAccuracy]
    simp only [roundWithAccuracy, hfirst, hr]
  have hpow : (0 : ℚ) < 2 ^ k := by positivity
  have hupper : r ≤ 2 ^ 24 := by
    have hlt : (m : ℚ) < 2 ^ 24 * 2 ^ k := by
      rw [← pow_add]
      exact_mod_cast mantissa_lt m e k hk.le
    have hr' : (r : ℚ) * 2 ^ k < (2 ^ 24 + 1) * 2 ^ k := by linarith [(abs_le.mp hnear).1]
    have := lt_of_mul_lt_mul_right hr' hpow.le
    exact Nat.lt_succ_iff.mp (by exact_mod_cast this)
  have hlower : targetExp m e = -149 ∨ 2 ^ 23 ≤ r := by
    refine or_iff_not_imp_left.mpr fun ht => ?_
    have hge : (2 : ℚ) ^ 23 * 2 ^ k ≤ m := by
      rw [← pow_add]
      exact_mod_cast le_mantissa hm k hk ht
    have hr' : ((2 : ℚ) ^ 23 - 1) * 2 ^ k < r * 2 ^ k := by linarith [(abs_le.mp hnear).2]
    have := lt_of_mul_lt_mul_right hr' hpow.le
    have : (2 : ℚ) ^ 23 < r + 1 := by linarith
    exact Nat.lt_succ_iff.mp (by exact_mod_cast this)
  have hmin : -149 ≤ targetExp m e := le_max_right _ _
  refine ⟨r, ?_, ?_⟩
  · rw [hk, zpow_add₀ (by norm_num), zpow_natCast]
    have hE : (0 : ℚ) < 2 ^ e := zpow_pos (by norm_num) e
    have heq : (m : ℚ) * 2 ^ e - r * (2 ^ e * 2 ^ k) = (m - r * 2 ^ k) * 2 ^ e := by ring
    rw [heq, abs_mul, abs_of_pos hE]
    calc |(m : ℚ) - r * 2 ^ k| * 2 ^ e ≤ 2 ^ k / 2 * 2 ^ e :=
          mul_le_mul_of_nonneg_right hnear hE.le
      _ = 2 ^ e * 2 ^ k / 2 := by ring
  · rcases Nat.lt_or_ge r (2 ^ 24) with hlt | hge
    · have hshift : (targetExp r (targetExp m e) - targetExp m e).toNat = 0 := by
        have := targetExp_le hlt hmin
        omega
      have hsecond : shiftToTargetExponent .binary32 r (targetExp m e) .exact =
          (⟨r, false, false⟩, targetExp m e) := by
        simp only [shiftToTargetExponent, shiftToExponent, targetExponent_eq, hshift]
        simp [HShiftRight.hShiftRight, Nat.repeat, ExtendedMantissa.ofMantissaAndAccuracy]
      rw [hround, hsecond]
      by_cases h0 : r = 0
      · subst h0
        cases s <;> simp [Canonical, unpackedValue, Sign.apply]
      · simp only [h0, dite_false, Canonical, unpackedValue]
        exact ⟨⟨hlt, hmin, by omega, hlower⟩, trivial⟩
    · obtain rfl : r = 2 ^ 24 := le_antisymm hupper hge
      have hshift : (targetExp (2 ^ 24) (targetExp m e) - targetExp m e).toNat = 1 := by
        have := targetExp_two_pow hmin
        omega
      have hsecond : shiftToTargetExponent .binary32 (2 ^ 24) (targetExp m e) .exact =
          (⟨2 ^ 23, false, false⟩, targetExp m e + 1) := by
        simp only [shiftToTargetExponent, shiftToExponent, targetExponent_eq, hshift]
        simp [HShiftRight.hShiftRight, Nat.repeat, ExtendedMantissa.ofMantissaAndAccuracy,
          ExtendedMantissa.shiftRightOne]
      rw [hround, hsecond]
      simp only [dif_neg (show ¬ (2 ^ 23 = 0) by norm_num), Canonical, unpackedValue]
      refine ⟨⟨by norm_num, by omega, by omega, Or.inr le_rfl⟩, ?_⟩
      rw [zpow_add₀ (by norm_num), zpow_one]
      cases s <;> simp only [Sign.apply] <;> push_cast <;> ring

/-- The exponent stays in range for magnitudes far below the largest float. -/
theorem targetExp_le_of_lt (hm : 0 < m) (h : (m : ℚ) * 2 ^ e < 2 ^ 64) : targetExp m e ≤ 103 := by
  have hlog : (2 : ℚ) ^ (m.log2 : ℤ) ≤ m := by
    rw [zpow_natCast]
    exact_mod_cast Nat.log2_self_le hm.ne'
  have hE : (0 : ℚ) < 2 ^ e := zpow_pos (by norm_num) e
  have hlt : (2 : ℚ) ^ ((m.log2 : ℤ) + e) < 2 ^ (64 : ℤ) := by
    rw [zpow_add₀ (by norm_num)]
    calc (2 : ℚ) ^ (m.log2 : ℤ) * 2 ^ e ≤ m * 2 ^ e := mul_le_mul_of_nonneg_right hlog hE.le
      _ < 2 ^ (64 : ℤ) := by exact_mod_cast h
  have := (zpow_lt_zpow_iff_right₀ (by norm_num : (1 : ℚ) < 2)).mp hlt
  unfold targetExp
  omega

/-- The grid the target exponent selects is the one of the exact value. -/
theorem targetExp_spec (hm : 0 < m) :
    (m : ℚ) * 2 ^ e < 2 ^ (targetExp m e + 24) ∧
      (targetExp m e = -149 ∨ 2 ^ (targetExp m e + 23) ≤ (m : ℚ) * 2 ^ e) := by
  have hE : (0 : ℚ) < 2 ^ e := zpow_pos (by norm_num) e
  have hlow : (2 : ℚ) ^ (m.log2 : ℤ) ≤ m := by
    rw [zpow_natCast]
    exact_mod_cast Nat.log2_self_le hm.ne'
  have hhigh : (m : ℚ) < 2 ^ ((m.log2 : ℤ) + 1) := by
    have h : m < 2 ^ (m.log2 + 1) := Nat.lt_log2_self
    exact_mod_cast h
  constructor
  · calc (m : ℚ) * 2 ^ e < 2 ^ ((m.log2 : ℤ) + 1) * 2 ^ e := mul_lt_mul_of_pos_right hhigh hE
      _ = 2 ^ ((m.log2 : ℤ) + 1 + e) := (zpow_add₀ (by norm_num) _ _).symm
      _ ≤ 2 ^ (targetExp m e + 24) :=
          (zpow_le_zpow_iff_right₀ (by norm_num)).mpr (by unfold targetExp; omega)
  · refine or_iff_not_imp_left.mpr fun ht => ?_
    calc (2 : ℚ) ^ (targetExp m e + 23) = 2 ^ ((m.log2 : ℤ) + e) := by
          congr 1
          unfold targetExp at ht ⊢
          omega
      _ = 2 ^ (m.log2 : ℤ) * 2 ^ e := zpow_add₀ (by norm_num) _ _
      _ ≤ m * 2 ^ e := mul_le_mul_of_nonneg_right hlow hE.le

/-- Rounding a positive mantissa of sufficient precision is rounding its value. -/
theorem roundWithAccuracy_isRounded (hm : 0 < m) (he : e ≤ targetExp m e)
    (hmax : targetExp m e ≤ 103) :
    Canonical (roundWithAccuracy .binary32 .positive m e .exact) ∧
      IsRounded (m * 2 ^ e) (unpackedValue (roundWithAccuracy .binary32 .positive m e .exact)) := by
  obtain ⟨r, hr, hcan, hval⟩ := roundWithAccuracy_exact .positive hm he hmax
  obtain ⟨hup, hlow⟩ := @targetExp_spec m e hm
  rw [Sign.apply] at hval
  exact ⟨hcan, targetExp m e, r, le_max_right _ _, hval, by rw [hval]; exact_mod_cast hr,
    hup, hlow⟩

/-- Rounding first lowers an exponent that is above the target. -/
theorem round_isRounded (hm : 0 < m) (hmax : targetExp m e ≤ 103) :
    Canonical (UnpackedFloat.round .binary32 .positive m e) ∧
      IsRounded (m * 2 ^ e) (unpackedValue (UnpackedFloat.round .binary32 .positive m e)) := by
  obtain ⟨k, hk⟩ : ∃ k : ℕ, (e - targetExp m e).toNat = k := ⟨_, rfl⟩
  have hround : UnpackedFloat.round .binary32 .positive m e =
      roundWithAccuracy .binary32 .positive (m <<< k) (e - k) .exact := by
    simp only [UnpackedFloat.round, decreaseExponent, targetExponent_eq, hk]
  have hshift : m <<< k = m * 2 ^ k := Nat.shiftLeft_eq m k
  have hpos : 0 < m * 2 ^ k := Nat.mul_pos hm (Nat.two_pow_pos k)
  have hlog : (m * 2 ^ k).log2 = m.log2 + k := by
    rw [Nat.log2_eq_iff hpos.ne']
    have h1 := Nat.log2_self_le hm.ne'
    have h2 : m < 2 ^ (m.log2 + 1) := Nat.lt_log2_self
    constructor
    · rw [pow_add]
      exact Nat.mul_le_mul_right _ h1
    · rw [show m.log2 + k + 1 = m.log2 + 1 + k by omega, pow_add]
      exact Nat.mul_lt_mul_of_pos_right h2 (Nat.two_pow_pos k)
  have htarget : targetExp (m * 2 ^ k) (e - k) = targetExp m e := by
    unfold targetExp
    rw [hlog]
    push_cast
    congr 1
    omega
  have hvalue : ((m * 2 ^ k : ℕ) : ℚ) * 2 ^ (e - k) = m * 2 ^ e := by
    rw [zpow_sub₀ (by norm_num), zpow_natCast]
    push_cast
    field_simp
  rw [hround, hshift, ← hvalue]
  exact roundWithAccuracy_isRounded hpos (by omega) (by omega)

end

variable {x : Float32.Model}

variable {s : Sign} {M : BitVec 23}

theorem unpackSign_packComponents {spec : Format} {e m} :
    unpackSign (packComponents spec s e m) = s.toBitVec := by
  ext i hi
  obtain rfl : i = 0 := by omega
  simp [unpackSign, packComponents, BitVec.getLsbD_eq_getElem, BitVec.getLsbD_append,
    BitVec.getElem_append]

@[simp] theorem ofBitVec_toBitVec (s : Sign) : Sign.ofBitVec s.toBitVec = s := by
  cases s <;> rfl

theorem unpack_normal {E : BitVec 8} {m : ℕ} {e : ℤ} (hm : 0 < m) (hmax : E ≠ -1#8)
    (hzero : E ≠ 0#8) (hM : (1#1 ++ M).toNat = m) (hE : (E.toNat : ℤ) - 150 = e) :
    unpack .binary32 (packComponents .binary32 s E M) = .finite s m e hm := by
  subst hM hE
  unfold UnpackedFloat.unpack
  simp only [unpackExponent_packComponents, unpackMantissa_packComponents,
    unpackSign_packComponents, ofBitVec_toBitVec]
  rw [if_neg hmax, if_neg hzero]
  rfl

theorem unpack_subnormal {m : ℕ} (hm : 0 < m) (hM : M.toNat = m) :
    unpack .binary32 (packComponents .binary32 s 0#8 M) = .finite s m (-149) hm := by
  subst hM
  have hne : M ≠ 0#23 := by
    rintro rfl
    simp at hm
  unfold UnpackedFloat.unpack
  simp only [unpackExponent_packComponents, unpackMantissa_packComponents,
    unpackSign_packComponents, ofBitVec_toBitVec]
  rw [if_neg (by decide), if_pos trivial, dif_neg hne]
  rfl

/-- Packing keeps every canonical float. -/
theorem unpack_pack {u : UnpackedFloat} (h : Canonical u) : (Float32.Model.pack u).unpack = u := by
  have hbits : (Float32.Model.pack u).unpack = unpack .binary32 (pack .binary32 u) := by
    simp [Float32.Model.unpack, Float32.Model.pack]
  rw [hbits]
  cases u with
  | infinity s | notANumber => exact h.elim
  | zero s => simp [UnpackedFloat.pack, packedZero, UnpackedFloat.unpack]
  | finite s m e hm =>
    obtain ⟨hlt, hlow, hhigh, hnormal⟩ := h
    have hbias : (e + (Format.binary32.exponentBias : ℕ) + (23 : ℕ)).toNat = (e + 150).toNat := by
      simp [Format.exponentBias, add_assoc]
    have hfits : ¬ 2 ^ 8 ≤ (e + 150).toNat + 1 := by omega
    have hpack : UnpackedFloat.pack .binary32 (.finite s m e hm) =
        if m.log2 + 1 = 24 then
          packComponents .binary32 s (BitVec.ofNat 8 (e + 150).toNat) (BitVec.ofNat 23 m)
        else packComponents .binary32 s 0#8 (BitVec.ofNat 23 m) := by
      unfold UnpackedFloat.pack
      simp only [hbias]
      rw [if_neg hfits]
      rfl
    rw [hpack]
    by_cases hm23 : 2 ^ 23 ≤ m
    · have hlog : m.log2 + 1 = 24 := by
        rw [(Nat.log2_eq_iff hm.ne').mpr ⟨hm23, hlt⟩]
      have htoNat : (BitVec.ofNat 8 (e + 150).toNat).toNat = (e + 150).toNat := by
        rw [BitVec.toNat_ofNat]
        exact Nat.mod_eq_of_lt (by omega)
      rw [if_pos hlog]
      refine unpack_normal hm ?_ ?_ ?_ ?_
      · intro heq
        have := congrArg BitVec.toNat heq
        rw [htoNat] at this
        simp at this
        omega
      · intro heq
        have := congrArg BitVec.toNat heq
        rw [htoNat] at this
        simp at this
        omega
      · rw [BitVec.toNat_append, BitVec.toNat_ofNat, BitVec.toNat_ofNat,
          ← Nat.shiftLeft_add_eq_or_of_lt (Nat.mod_lt _ (by norm_num))]
        simp only [Nat.shiftLeft_eq]
        omega
      · rw [htoNat]
        omega
    · have hlog : ¬ m.log2 + 1 = 24 := by
        have : m.log2 < 23 := (Nat.log2_lt hm.ne').mpr (by omega)
        omega
      obtain rfl : e = -149 := hnormal.resolve_right hm23
      rw [if_neg hlog]
      refine unpack_subnormal hm ?_
      rw [BitVec.toNat_ofNat]
      exact Nat.mod_eq_of_lt (by omega)

/-- A float that is neither infinite nor not a number. -/
def Finite (x : Float32.Model) : Prop := Canonical x.unpack

theorem finite_pack {u : UnpackedFloat} (h : Canonical u) : Finite (.pack u) := by
  rw [Finite, unpack_pack h]
  exact h

theorem value_pack {u : UnpackedFloat} (h : Canonical u) : value (.pack u) = unpackedValue u := by
  rw [value, unpack_pack h]

/-- Every bit pattern that is not an infinity or a NaN is canonical. -/
theorem finite_of_isFinite (h : x.isFinite = true) : Finite x := by
  unfold Finite
  unfold Float32.Model.isFinite Float32.Model.unpack UnpackedFloat.unpack at *
  simp only at h ⊢
  have hE : (@unpackExponent .binary32 x.toBits.toBitVec).toNat < 2 ^ 8 := BitVec.isLt _
  have hM : (@unpackMantissa .binary32 x.toBits.toBitVec).toNat < 2 ^ 23 := BitVec.isLt _
  have hbias : ((Format.binary32.exponentBias : ℕ) : ℤ) + (23 : ℕ) = 150 := by
    simp [Format.exponentBias]
  split at h
  · split at h <;> simp [UnpackedFloat.isFinite] at h
  · next hmax =>
      have hmax' : (@unpackExponent .binary32 x.toBits.toBitVec).toNat ≠ 255 := fun heq =>
        hmax (BitVec.eq_of_toNat_eq (by rw [heq]; rfl))
      rw [if_neg hmax]
      split at h
      · next hzero =>
          rw [if_pos hzero]
          split
          · trivial
          · simp only [Canonical, hbias, hzero]
            exact ⟨by omega, by simp, by simp, Or.inl (by simp)⟩
      · next hzero =>
          have hzero' : (@unpackExponent .binary32 x.toBits.toBitVec).toNat ≠ 0 := fun heq =>
            hzero (BitVec.eq_of_toNat_eq (by rw [heq]; rfl))
          have hmant : (1#1 ++ @unpackMantissa .binary32 x.toBits.toBitVec).toNat =
              2 ^ 23 + (@unpackMantissa .binary32 x.toBits.toBitVec).toNat := by
            rw [BitVec.toNat_append, ← Nat.shiftLeft_add_eq_or_of_lt hM]
            simp [Nat.shiftLeft_eq]
          rw [if_neg hzero]
          simp only [Canonical, hbias]
          exact ⟨by rw [hmant]; omega, by omega, by omega, Or.inr (by rw [hmant]; omega)⟩

end Esp32Firmware.Binary32
