import Mathlib

/-!
# Upper bounds of rounded floats

Rounding to a format raises a value by at most one unit of its last place. Chains of
operations on values at or above zero are bounded by adding up these units.

Operations of binary64 whose exact results are below `2 ^ b`.
-/

namespace Esp32Firmware.RoundingBound

open Float.Model Float.Model.UnpackedFloat

/-- A float at or above zero that is at most `x`. -/
def AtMost : UnpackedFloat → ℚ → Prop
  | .finite .positive m e _, x => m * 2 ^ e ≤ x
  | .zero _, x => 0 ≤ x
  | _, _ => False

section

theorem mantissa_shiftRight (em : ExtendedMantissa) (k : ℕ) :
    (em >>> k).mantissa = em.mantissa / 2 ^ k := by
  induction k with
  | zero => exact (Nat.div_one _).symm
  | succ k ih =>
    change (em >>> k).mantissa / 2 = _
    rw [ih, Nat.div_div_eq_div_mul, pow_succ]

theorem roundedMantissa_le (em : ExtendedMantissa) : em.roundedMantissa ≤ em.mantissa + 1 := by
  have hmod := Nat.mod_lt em.mantissa (by norm_num : 2 > 0)
  rw [ExtendedMantissa.roundedMantissa]
  cases em.accuracy with
  | exact => exact Nat.le_succ _
  | inexact o =>
    cases o with
    | lt => exact Nat.le_succ _
    | eq => exact Nat.add_le_add_left (by omega) _
    | gt => exact le_rfl

theorem mantissa_ofMantissaAndAccuracy (m : ℕ) (acc : Accuracy) :
    (ExtendedMantissa.ofMantissaAndAccuracy m acc).mantissa = m := by
  cases acc with
  | exact => rfl
  | inexact o => cases o <;> rfl

/-- Dropping bits of a mantissa lowers the value. -/
theorem shift_le (m k : ℕ) (e : ℤ) : ((m / 2 ^ k : ℕ) : ℚ) * 2 ^ (e + k) ≤ m * 2 ^ e := by
  have hE : (0 : ℚ) < 2 ^ e := zpow_pos (by norm_num) e
  have hle : ((m / 2 ^ k * 2 ^ k : ℕ) : ℚ) ≤ m := by
    exact_mod_cast Nat.div_mul_le_self m (2 ^ k)
  rw [zpow_add₀ (by norm_num), zpow_natCast]
  push_cast at hle
  calc ((m / 2 ^ k : ℕ) : ℚ) * (2 ^ e * 2 ^ k) = (m / 2 ^ k : ℕ) * 2 ^ k * 2 ^ e := by ring
    _ ≤ m * 2 ^ e := mul_le_mul_of_nonneg_right hle hE.le

end

section

variable {spec : Format} {m : ℕ} {e t : ℤ} {acc : Accuracy} {x : ℚ}

/-- Rounding raises a value by at most one unit of the last place. -/
theorem roundWithAccuracy_atMost (hx : (m : ℚ) * 2 ^ e ≤ x) (he : acc = .exact ∨ e ≤ t)
    (ht : spec.targetExponent (totalExponent m e) ≤ t) :
    AtMost (roundWithAccuracy spec .positive m e acc) (x + 2 ^ t) := by
  obtain ⟨k, hk⟩ : ∃ k : ℕ, (spec.targetExponent (totalExponent m e) - e).toNat = k := ⟨_, rfl⟩
  have hfirst : shiftToTargetExponent spec m e acc =
      (ExtendedMantissa.ofMantissaAndAccuracy m acc >>> k, e + k) := by
    simp only [shiftToTargetExponent, shiftToExponent, hk]
  have hround : ((ExtendedMantissa.ofMantissaAndAccuracy m acc >>> k).roundedMantissa : ℚ) *
      2 ^ (e + k) ≤ x + 2 ^ t := by
    have hle := roundedMantissa_le (ExtendedMantissa.ofMantissaAndAccuracy m acc >>> k)
    rw [mantissa_shiftRight, mantissa_ofMantissaAndAccuracy] at hle
    have hpos : (0 : ℚ) < 2 ^ (e + k) := zpow_pos (by norm_num) _
    rcases le_or_gt (e + k) t with hle' | hgt
    · have hstep : (2 : ℚ) ^ (e + k) ≤ 2 ^ t := (zpow_le_zpow_iff_right₀ (by norm_num)).mpr hle'
      calc ((ExtendedMantissa.ofMantissaAndAccuracy m acc >>> k).roundedMantissa : ℚ) * 2 ^ (e + k)
          ≤ ((m / 2 ^ k : ℕ) + 1) * 2 ^ (e + k) :=
            mul_le_mul_of_nonneg_right (by exact_mod_cast hle) hpos.le
        _ = (m / 2 ^ k : ℕ) * 2 ^ (e + k) + 2 ^ (e + k) := by ring
        _ ≤ x + 2 ^ t := add_le_add ((shift_le m k e).trans hx) hstep
    · -- an exponent above the target is kept, and so is an exact mantissa
      obtain rfl : k = 0 := by omega
      obtain rfl := he.resolve_right (by omega)
      have ht0 : (0 : ℚ) < 2 ^ t := zpow_pos (by norm_num) t
      have hkeep : (ExtendedMantissa.ofMantissaAndAccuracy m .exact >>> 0).roundedMantissa = m :=
        rfl
      rw [hkeep, Int.natCast_zero, add_zero]
      linarith
  have hx0 : 0 ≤ x + 2 ^ t := le_trans (by positivity) hround
  simp only [roundWithAccuracy, hfirst]
  split
  · exact hx0
  · refine le_trans ?_ hround
    simp only [shiftToTargetExponent, shiftToExponent, mantissa_shiftRight,
      mantissa_ofMantissaAndAccuracy]
    exact shift_le _ _ _

end

variable {u v : UnpackedFloat} {m : ℕ} {e b : ℤ} {x y : ℚ}

theorem targetExponent_le (hm : 0 < m) (h : (m : ℚ) * 2 ^ e < 2 ^ b) (hb : -1000 ≤ b) :
    Format.binary64.targetExponent (totalExponent m e) ≤ b - 53 := by
  have hlog : (2 : ℚ) ^ (m.log2 : ℤ) ≤ m := by
    rw [zpow_natCast]
    exact_mod_cast Nat.log2_self_le hm.ne'
  have hE : (0 : ℚ) < 2 ^ e := zpow_pos (by norm_num) e
  have hlt : (2 : ℚ) ^ ((m.log2 : ℤ) + e) < 2 ^ b := by
    rw [zpow_add₀ (by norm_num)]
    exact (mul_le_mul_of_nonneg_right hlog hE.le).trans_lt h
  have hexp := (zpow_lt_zpow_iff_right₀ (by norm_num : (1 : ℚ) < 2)).mp hlt
  have hmin : Format.binary64.minExponent = -1074 := by decide
  have hbits : (Format.binary64.mantissaBits : ℤ) = 53 := by decide
  rw [Format.targetExponent, totalExponent, hmin, hbits]
  omega

theorem totalExponent_sub_le {n : ℕ} {f : ℤ} (hm : 0 < m) (hn : 0 < n)
    (h : (m : ℚ) * 2 ^ e / (n * 2 ^ f) < 2 ^ b) :
    totalExponent m e - totalExponent n f ≤ b := by
  have hlow : (2 : ℚ) ^ ((m.log2 : ℤ) + e) ≤ m * 2 ^ e := by
    rw [zpow_add₀ (by norm_num), zpow_natCast]
    exact mul_le_mul_of_nonneg_right (by exact_mod_cast Nat.log2_self_le hm.ne')
      (zpow_pos (by norm_num) e).le
  have hhigh : (n : ℚ) * 2 ^ f ≤ 2 ^ ((n.log2 : ℤ) + 1 + f) := by
    have hlt : n < 2 ^ (n.log2 + 1) := Nat.lt_log2_self
    rw [zpow_add₀ (by norm_num)]
    exact mul_le_mul_of_nonneg_right (by exact_mod_cast hlt.le) (zpow_pos (by norm_num) f).le
  have hn' : (0 : ℚ) < n := by exact_mod_cast hn
  have hpos : (0 : ℚ) < n * 2 ^ f := mul_pos hn' (zpow_pos (by norm_num) f)
  have hlt : (2 : ℚ) ^ ((m.log2 : ℤ) + e) < 2 ^ (b + ((n.log2 : ℤ) + 1 + f)) := by
    rw [div_lt_iff₀ hpos] at h
    rw [zpow_add₀ (by norm_num) b]
    calc (2 : ℚ) ^ ((m.log2 : ℤ) + e) ≤ m * 2 ^ e := hlow
      _ < 2 ^ b * (n * 2 ^ f) := h
      _ ≤ 2 ^ b * 2 ^ ((n.log2 : ℤ) + 1 + f) :=
          mul_le_mul_of_nonneg_left hhigh (zpow_pos (by norm_num) b).le
  have hexp := (zpow_lt_zpow_iff_right₀ (by norm_num : (1 : ℚ) < 2)).mp hlt
  rw [totalExponent, totalExponent]
  omega

theorem round_atMost (hm : 0 < m) (h : (m : ℚ) * 2 ^ e < 2 ^ b) (hb : -1000 ≤ b) :
    AtMost (UnpackedFloat.round .binary64 .positive m e) (m * 2 ^ e + 2 ^ (b - 53)) := by
  have htarget := targetExponent_le hm h hb
  obtain ⟨k, hk⟩ : ∃ k : ℕ,
      (e - Format.binary64.targetExponent (totalExponent m e)).toNat = k := ⟨_, rfl⟩
  have hvalue : ((m <<< k : ℕ) : ℚ) * 2 ^ (e - k) = m * 2 ^ e := by
    rw [Nat.shiftLeft_eq, zpow_sub₀ (by norm_num), zpow_natCast]
    push_cast
    field_simp
  have hpos : 0 < m <<< k := by
    rw [Nat.shiftLeft_eq]
    exact Nat.mul_pos hm (Nat.two_pow_pos k)
  simp only [UnpackedFloat.round, decreaseExponent, hk]
  refine roundWithAccuracy_atMost hvalue.le (Or.inl rfl) (targetExponent_le hpos ?_ hb)
  rw [hvalue]
  exact h

/-- Conversion of a natural number. -/
theorem ofInt_atMost (n : ℕ) (h : (n : ℚ) < 2 ^ b) (hb : -1000 ≤ b) :
    AtMost (UnpackedFloat.ofInt .binary64 n) (n + 2 ^ (b - 53)) := by
  rcases Nat.eq_zero_or_pos n with rfl | hpos
  · change (0 : ℚ) ≤ _
    positivity
  · have hofInt : UnpackedFloat.ofInt .binary64 (n : ℤ) =
        UnpackedFloat.round .binary64 .positive n 0 := by
      have hgt : compare (n : ℤ) 0 = .gt := by
        rw [compare_gt_iff_gt]
        exact_mod_cast hpos
      rw [UnpackedFloat.ofInt, UnpackedFloat.normalize, hgt]
      rfl
    have hround := @round_atMost n 0 b hpos (by simpa using h) hb
    rw [hofInt]
    simpa using hround

theorem AtMost.nonneg (h : AtMost u x) : 0 ≤ x := by
  cases u with
  | finite s m e hm =>
    cases s with
    | positive => exact le_trans (by positivity) h
    | negative => exact h.elim
  | zero s => exact h
  | infinity s | notANumber => exact h.elim

/-- Multiplication. -/
theorem AtMost.mul (hu : AtMost u x) (hv : AtMost v y) (h : x * y < 2 ^ b) (hb : -1000 ≤ b) :
    AtMost (UnpackedFloat.mul .binary64 u v) (x * y + 2 ^ (b - 53)) := by
  have hx := hu.nonneg
  have hy := hv.nonneg
  cases u with
  | infinity s | notANumber => exact hu.elim
  | zero s =>
    cases v with
    | infinity s | notANumber => exact hv.elim
    | zero t | finite t n f hn =>
      change (0 : ℚ) ≤ _
      positivity
  | finite s m e hm =>
    cases s with
    | negative => exact hu.elim
    | positive =>
      cases v with
      | infinity s | notANumber => exact hv.elim
      | zero t =>
        change (0 : ℚ) ≤ _
        positivity
      | finite t n f hn =>
        cases t with
        | negative => exact hv.elim
        | positive =>
          have hprod : ((m * n : ℕ) : ℚ) * 2 ^ (e + f) ≤ x * y := by
            have hle := mul_le_mul hu hv (by positivity) hx
            rw [zpow_add₀ (by norm_num)]
            push_cast
            linarith
          exact roundWithAccuracy_atMost hprod (Or.inl rfl)
            (targetExponent_le (Nat.mul_pos hm hn) (hprod.trans_lt h) hb)

/-- Division by a value above zero. -/
theorem AtMost.div (hu : AtMost u x) {n : ℕ} {f : ℤ} (hn : 0 < n) (h : x / (n * 2 ^ f) < 2 ^ b)
    (hb : -1000 ≤ b) :
    AtMost (UnpackedFloat.div .binary64 u (.finite .positive n f hn))
      (x / (n * 2 ^ f) + 2 ^ (b - 53)) := by
  have hx := hu.nonneg
  cases u with
  | infinity s | notANumber => exact hu.elim
  | zero s =>
    change (0 : ℚ) ≤ _
    positivity
  | finite s m e hm =>
    cases s with
    | negative => exact hu.elim
    | positive =>
      have hn' : (0 : ℚ) < n := by exact_mod_cast hn
      have hF : (0 : ℚ) < 2 ^ f := zpow_pos (by norm_num) f
      have hquot : (m : ℚ) * 2 ^ e / (n * 2 ^ f) ≤ x / (n * 2 ^ f) :=
        div_le_div_of_nonneg_right hu (by positivity)
      obtain ⟨t, ht⟩ : ∃ t, min (e - f) (Format.binary64.targetExponent
          (totalExponent m e - totalExponent n f)) = t := ⟨_, rfl⟩
      have htb : t ≤ b - 53 := by
        have htotal := totalExponent_sub_le hm hn (hquot.trans_lt h)
        have hmin : Format.binary64.minExponent = -1074 := by decide
        have hbits : (Format.binary64.mantissaBits : ℤ) = 53 := by decide
        rw [← ht, Format.targetExponent, hmin, hbits]
        omega
      obtain ⟨k, hk⟩ : ∃ k : ℕ, (e - f - t).toNat = k := ⟨_, rfl⟩
      have hcore : UnpackedFloat.div .binary64 (.finite .positive m e hm)
          (.finite .positive n f hn) = roundWithAccuracy .binary64 .positive
            (m <<< k / n) t (accuracyOfFraction (m <<< k % n) n) := by
        simp only [UnpackedFloat.div, divCore, ht, hk]
        rfl
      have hle : ((m <<< k / n : ℕ) : ℚ) * 2 ^ t ≤ x / (n * 2 ^ f) := by
        have hkt : (k : ℤ) + t = e - f := by omega
        have hdiv : ((m <<< k / n : ℕ) : ℚ) ≤ m * 2 ^ k / n := by
          rw [Nat.shiftLeft_eq]
          exact_mod_cast @Nat.cast_div_le ℚ _ _ _ (m * 2 ^ k) n
        refine le_trans ?_ hquot
        calc ((m <<< k / n : ℕ) : ℚ) * 2 ^ t ≤ m * 2 ^ k / n * 2 ^ t :=
              mul_le_mul_of_nonneg_right hdiv (zpow_pos (by norm_num) t).le
          _ = m * 2 ^ ((k : ℤ) + t) / n := by
              rw [zpow_add₀ (by norm_num), zpow_natCast]
              ring
          _ = m * 2 ^ e / (n * 2 ^ f) := by
              rw [hkt, zpow_sub₀ (by norm_num)]
              field_simp
      rw [hcore]
      refine roundWithAccuracy_atMost hle (Or.inr htb) ?_
      rcases Nat.eq_zero_or_pos (m <<< k / n) with hzero | hpos
      · have hmin : Format.binary64.minExponent = -1074 := by decide
        have hbits : (Format.binary64.mantissaBits : ℤ) = 53 := by decide
        have hlog : Nat.log2 0 = 0 := by decide
        rw [hzero, Format.targetExponent, totalExponent, hmin, hbits, hlog]
        omega
      · exact targetExponent_le hpos (hle.trans_lt h) hb

/-- Conversion to an integer. -/
theorem AtMost.toInt32 (hu : AtMost u x) : 0 ≤ u.toInt32.toInt ∧ (u.toInt32.toInt : ℚ) ≤ x := by
  have hclamp : ∀ i : ℤ, 0 ≤ i → (i : ℚ) ≤ x →
      0 ≤ (Int32.ofIntClamp i).toInt ∧ ((Int32.ofIntClamp i).toInt : ℚ) ≤ x := by
    intro i h0 hi
    have hmin : Int32.minValue.toInt ≤ i := by rw [Int32.toInt_minValue]; omega
    rw [Int32.ofIntClamp, dif_pos hmin]
    split
    · rw [Int32.toInt_ofIntLE]
      exact ⟨h0, hi⟩
    · next hmax =>
        have hle : Int32.maxValue.toInt ≤ i := by omega
        exact ⟨by decide, le_trans (by exact_mod_cast hle) hi⟩
  rw [UnpackedFloat.toInt32]
  cases u with
  | infinity s | notANumber => exact hu.elim
  | zero s => exact hclamp 0 le_rfl (by exact_mod_cast hu)
  | finite s m e hm =>
    cases s with
    | negative => exact hu.elim
    | positive =>
      obtain ⟨k, hk⟩ : ∃ k : ℕ, (e - 0).toNat = k := ⟨_, rfl⟩
      obtain ⟨l, hl⟩ : ∃ l : ℕ, (0 - (e - k)).toNat = l := ⟨_, rfl⟩
      have hround : roundToInt .positive m e = ((m <<< k / 2 ^ l : ℕ) : ℤ) := by
        simp only [roundToInt, decreaseExponent, shiftToExponent, hk, hl,
          mantissa_shiftRight, mantissa_ofMantissaAndAccuracy]
        rfl
      refine hclamp (roundToInt .positive m e) (by rw [hround]; exact Int.natCast_nonneg _) ?_
      have hshift := shift_le (m <<< k) l (e - k)
      have hzero : e - k + l = 0 := by omega
      have hvalue : ((m <<< k : ℕ) : ℚ) * 2 ^ (e - k) = m * 2 ^ e := by
        rw [Nat.shiftLeft_eq, zpow_sub₀ (by norm_num), zpow_natCast]
        push_cast
        field_simp
      rw [hzero, zpow_zero, mul_one, hvalue] at hshift
      rw [hround]
      exact_mod_cast hshift.trans hu

end Esp32Firmware.RoundingBound
