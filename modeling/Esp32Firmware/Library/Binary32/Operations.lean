import Esp32Firmware.Library.Binary32.Format

/-!
# Operations on binary32 floats

Multiplication and addition round the exact result, the conversion from small
integers is exact, and the conversion to an integer rounds down.
-/

namespace Esp32Firmware.Binary32

open Float.Model Float.Model.UnpackedFloat

variable {x y : Float32.Model}

variable {u : UnpackedFloat} {m : ℕ} {e : ℤ} {hm : 0 < m}

/-- A canonical float above zero has a mantissa of sign plus. -/
theorem Canonical.exists_mantissa (h : Canonical u) (hpos : 0 < unpackedValue u) :
    ∃ m e hm, u = .finite .positive m e hm := by
  cases u with
  | infinity s | notANumber => exact h.elim
  | zero s => simp [unpackedValue] at hpos
  | finite s m e hm =>
    cases s with
    | positive => exact ⟨m, e, hm, rfl⟩
    | negative =>
      have hE : (0 : ℚ) < 2 ^ e := zpow_pos (by norm_num) e
      have hm' : (0 : ℚ) < m := by exact_mod_cast hm
      simp only [unpackedValue, Sign.apply, Int.cast_neg, Int.cast_natCast] at hpos
      have := mul_pos hm' hE
      linarith

theorem Canonical.exists_zero (h : Canonical u) (hzero : unpackedValue u = 0) :
    ∃ s, u = .zero s := by
  cases u with
  | infinity s | notANumber => exact h.elim
  | zero s => exact ⟨s, rfl⟩
  | finite s m e hm =>
    have hE : (2 : ℚ) ^ e ≠ 0 := (zpow_pos (by norm_num) e).ne'
    have hm' : (m : ℚ) ≠ 0 := by exact_mod_cast hm.ne'
    cases s <;> simp [unpackedValue, Sign.apply, hE, hm'] at hzero

theorem Canonical.isRounded_self (h : Canonical (.finite .positive m e hm)) :
    IsRounded (m * 2 ^ e) (m * 2 ^ e) := by
  obtain ⟨hlt, hlow, -, hnormal⟩ := h
  have hE : (0 : ℚ) < 2 ^ e := zpow_pos (by norm_num) e
  refine ⟨e, m, hlow, by push_cast; rfl, by rw [sub_self, abs_zero]; positivity, ?_, ?_⟩
  · have : (m : ℚ) < 2 ^ 24 := by exact_mod_cast hlt
    rw [zpow_add₀ (by norm_num), mul_comm]
    exact mul_lt_mul_of_pos_left (by exact_mod_cast this) hE
  · refine hnormal.imp_right fun hn => ?_
    have : (2 : ℚ) ^ 23 ≤ m := by exact_mod_cast hn
    rw [zpow_add₀ (by norm_num), mul_comm]
    exact mul_le_mul_of_nonneg_right (by exact_mod_cast this) hE.le

theorem isRounded_zero : IsRounded 0 0 :=
  ⟨-149, 0, le_rfl, by norm_num, by norm_num, by positivity, Or.inl rfl⟩

/-- The mantissa of a value of at least one fills all 24 bits. -/
theorem Canonical.normal (h : Canonical (.finite .positive m e hm)) (hone : (1 : ℚ) ≤ m * 2 ^ e) :
    2 ^ 23 ≤ m := by
  obtain ⟨hlt, -, -, hnormal⟩ := h
  refine hnormal.resolve_left ?_
  rintro rfl
  have : (m : ℚ) < 2 ^ 24 := by exact_mod_cast hlt
  have hE : (2 : ℚ) ^ 24 * 2 ^ (-149 : ℤ) < 1 := by norm_num
  have := mul_lt_mul_of_pos_right this (show (0 : ℚ) < 2 ^ (-149 : ℤ) by positivity)
  linarith

/-- Multiplication rounds the exact product. -/
theorem mul_isRounded (hx : Finite x) (hy : Finite y) (hx1 : 1 ≤ value x) (hy1 : 1 ≤ value y)
    (hlt : value x * value y < 2 ^ 64) :
    Finite (x * y) ∧ IsRounded (value x * value y) (value (x * y)) := by
  change Finite (.pack (UnpackedFloat.mul .binary32 x.unpack y.unpack)) ∧
    IsRounded _ (value (.pack (UnpackedFloat.mul .binary32 x.unpack y.unpack)))
  unfold Finite value at *
  obtain ⟨m, e, hm, hxu⟩ := hx.exists_mantissa (by linarith)
  obtain ⟨n, f, hn, hyu⟩ := hy.exists_mantissa (by linarith)
  rw [hxu] at hx hx1 hlt ⊢
  rw [hyu] at hy hy1 hlt ⊢
  simp only [unpackedValue, Sign.apply, Int.cast_natCast] at hx1 hy1 hlt ⊢
  have hprod : ((m : ℚ) * 2 ^ e) * (n * 2 ^ f) = ((m * n : ℕ) : ℚ) * 2 ^ (e + f) := by
    rw [zpow_add₀ (by norm_num)]
    push_cast
    ring
  rw [hprod] at hlt ⊢
  have hbig : 2 ^ 46 ≤ m * n := by
    calc 2 ^ 46 = 2 ^ 23 * 2 ^ 23 := by norm_num
      _ ≤ m * n := Nat.mul_le_mul (hx.normal hx1) (hy.normal hy1)
  have hmn : 0 < m * n := Nat.mul_pos hm hn
  have hlog : 46 ≤ (m * n).log2 := (Nat.le_log2 hmn.ne').mpr hbig
  have hround := @roundWithAccuracy_isRounded (m * n) (e + f) hmn
    (by unfold targetExp; omega) (targetExp_le_of_lt hmn hlt)
  have hmul : UnpackedFloat.mul .binary32 (.finite .positive m e hm) (.finite .positive n f hn) =
      roundWithAccuracy .binary32 .positive (m * n) (e + f) .exact := rfl
  rw [hmul, unpack_pack hround.1]
  exact hround

/-- A product with zero is zero. -/
theorem zero_mul_value (hx : Finite x) (hy : Finite y) (hx0 : value x = 0) (hy0 : 0 < value y) :
    Finite (x * y) ∧ value (x * y) = 0 := by
  change Finite (.pack (UnpackedFloat.mul .binary32 x.unpack y.unpack)) ∧
    value (.pack (UnpackedFloat.mul .binary32 x.unpack y.unpack)) = 0
  unfold Finite value at *
  obtain ⟨s, hxu⟩ := hx.exists_zero hx0
  obtain ⟨n, f, hn, hyu⟩ := hy.exists_mantissa hy0
  have hcan : Canonical (UnpackedFloat.mul .binary32 (.zero s) (.finite .positive n f hn)) :=
    trivial
  rw [hxu, hyu, unpack_pack hcan]
  exact ⟨hcan, rfl⟩

/-- Addition of values at or above zero rounds the exact sum. -/
theorem add_isRounded (hx : Finite x) (hy : Finite y) (hx0 : 0 ≤ value x) (hy0 : 0 ≤ value y)
    (hlt : value x + value y < 2 ^ 64) :
    Finite (x + y) ∧ IsRounded (value x + value y) (value (x + y)) := by
  change Finite (.pack (UnpackedFloat.add .binary32 x.unpack y.unpack)) ∧
    IsRounded _ (value (.pack (UnpackedFloat.add .binary32 x.unpack y.unpack)))
  unfold Finite value at *
  rcases hx0.eq_or_lt with hx0 | hx0 <;> rcases hy0.eq_or_lt with hy0 | hy0
  · obtain ⟨s, hxu⟩ := hx.exists_zero hx0.symm
    obtain ⟨t, hyu⟩ := hy.exists_zero hy0.symm
    have hcan : Canonical (UnpackedFloat.add .binary32 (.zero s) (.zero t)) := by
      cases s <;> cases t <;> trivial
    have hval : unpackedValue (UnpackedFloat.add .binary32 (.zero s) (.zero t)) = 0 := by
      cases s <;> cases t <;> rfl
    rw [hxu, hyu, unpack_pack hcan, hval]
    simp only [unpackedValue, add_zero]
    exact ⟨hcan, isRounded_zero⟩
  · obtain ⟨s, hxu⟩ := hx.exists_zero hx0.symm
    obtain ⟨n, f, hn, hyu⟩ := hy.exists_mantissa hy0
    rw [hyu] at hy
    have hadd : UnpackedFloat.add .binary32 (.zero s) (.finite .positive n f hn) =
        .finite .positive n f hn := rfl
    rw [hxu, hyu, hadd, unpack_pack hy]
    simp only [unpackedValue, Sign.apply, Int.cast_natCast, zero_add]
    exact ⟨hy, hy.isRounded_self⟩
  · obtain ⟨m, e, hm, hxu⟩ := hx.exists_mantissa hx0
    obtain ⟨s, hyu⟩ := hy.exists_zero hy0.symm
    rw [hxu] at hx
    have hadd : UnpackedFloat.add .binary32 (.finite .positive m e hm) (.zero s) =
        .finite .positive m e hm := rfl
    rw [hxu, hyu, hadd, unpack_pack hx]
    simp only [unpackedValue, Sign.apply, Int.cast_natCast, add_zero]
    exact ⟨hx, hx.isRounded_self⟩
  · obtain ⟨m, e, hm, hxu⟩ := hx.exists_mantissa hx0
    obtain ⟨n, f, hn, hyu⟩ := hy.exists_mantissa hy0
    rw [hxu] at hlt ⊢
    rw [hyu] at hlt ⊢
    simp only [unpackedValue, Sign.apply, Int.cast_natCast] at hlt ⊢
    have hshift : ∀ (a : ℕ) (g t : ℤ), t ≤ g →
        ((a <<< (g - t).toNat : ℕ) : ℚ) * 2 ^ t = a * 2 ^ g := by
      intro a g t htg
      rw [Nat.shiftLeft_eq]
      push_cast
      rw [← zpow_natCast, Int.toNat_of_nonneg (by omega), mul_assoc, ← zpow_add₀ (by norm_num)]
      congr 2
      omega
    set t := min e f with ht
    set a := m <<< (e - t).toNat with ha
    set b := n <<< (f - t).toNat with hb
    have hsum : (m : ℚ) * 2 ^ e + n * 2 ^ f = ((a + b : ℕ) : ℚ) * 2 ^ t := by
      rw [← hshift m e t (min_le_left _ _), ← hshift n f t (min_le_right _ _)]
      push_cast
      ring
    have hapos : 0 < a := by
      rw [ha, Nat.shiftLeft_eq]
      exact Nat.mul_pos hm (Nat.two_pow_pos _)
    rw [hsum] at hlt ⊢
    have hab : 0 < a + b := Nat.add_pos_left hapos b
    have hround := @round_isRounded (a + b) t hab (targetExp_le_of_lt hab hlt)
    have hadd : UnpackedFloat.add .binary32 (.finite .positive m e hm) (.finite .positive n f hn) =
        UnpackedFloat.round .binary32 .positive (a + b) t := by
      change normalize .binary32 ((a : ℤ) + (b : ℤ)) t .positive = _
      unfold UnpackedFloat.normalize
      have hgt : compare ((a : ℤ) + (b : ℤ)) 0 = .gt := by
        rw [compare_gt_iff_gt]
        exact add_pos_of_pos_of_nonneg (by exact_mod_cast hapos) (Int.natCast_nonneg b)
      rw [hgt]
      congr 1
    rw [hadd, unpack_pack hround.1]
    exact hround

/-- Natural numbers of at most 24 bits are converted exactly. -/
theorem ofInt_exact {n : ℕ} (hn : n < 2 ^ 24) : Finite (.ofInt n) ∧ value (.ofInt n) = n := by
  rcases Nat.eq_zero_or_pos n with rfl | hpos
  · have hzero : UnpackedFloat.ofInt .binary32 ((0 : ℕ) : ℤ) = .zero .positive := rfl
    unfold Float32.Model.ofInt
    rw [hzero]
    have hcan : Canonical (.zero .positive) := trivial
    exact ⟨finite_pack hcan, by rw [value_pack hcan]; simp [unpackedValue]⟩
  · have hn' : (n : ℚ) < 2 ^ 24 := by exact_mod_cast hn
    have hlt : (n : ℚ) * 2 ^ (0 : ℤ) < 2 ^ 64 := by
      rw [zpow_zero, mul_one]
      linarith
    obtain ⟨hcan, hround⟩ := round_isRounded hpos (targetExp_le_of_lt hpos hlt)
    have hofInt : UnpackedFloat.ofInt .binary32 (n : ℤ) =
        UnpackedFloat.round .binary32 .positive n 0 := by
      unfold UnpackedFloat.ofInt UnpackedFloat.normalize
      have hgt : compare (n : ℤ) 0 = .gt := by
        rw [compare_gt_iff_gt]
        exact_mod_cast hpos
      rw [hgt]
      congr 1
    rw [zpow_zero, mul_one] at hround
    unfold Float32.Model.ofInt
    rw [hofInt]
    refine ⟨finite_pack hcan, ?_⟩
    rw [value_pack hcan]
    apply le_antisymm
    · exact_mod_cast @IsRounded.le_int _ _ hround n (by exact_mod_cast hn) (by push_cast; rfl)
    · exact_mod_cast @IsRounded.int_le _ _ hround n (by exact_mod_cast hn.le) (by push_cast; rfl)

theorem shiftRight_mantissa (m k : ℕ) :
    ((⟨m, false, false⟩ : ExtendedMantissa) >>> k).mantissa = m / 2 ^ k := by
  obtain ⟨rest, hm, hbits⟩ := residue_shift m k
  have hrest : rest < 2 ^ k := by
    have := Nat.two_pow_pos k
    generalize ((⟨m, false, false⟩ : ExtendedMantissa) >>> k).roundBit = b at hbits
    generalize ((⟨m, false, false⟩ : ExtendedMantissa) >>> k).stickyBit = s at hbits
    cases b <;> cases s <;> simp at hbits <;> omega
  conv_rhs => rw [hm]
  rw [Nat.mul_comm, Nat.mul_add_div (Nat.two_pow_pos k), Nat.div_eq_of_lt hrest, add_zero]

/-- The conversion to an integer rounds values at or above zero down. -/
theorem toInt32_eq_floor (hx : Finite x) (hx0 : 0 ≤ value x) (hlt : value x < 2 ^ 31) :
    x.toInt32.toInt = ⌊value x⌋ := by
  have hclamp : ∀ i : ℤ, 0 ≤ i → i < 2 ^ 31 → (Int32.ofIntClamp i).toInt = i := by
    intro i h0 hi
    have hmin : Int32.minValue.toInt ≤ i := by rw [Int32.toInt_minValue]; omega
    have hmax : i ≤ Int32.maxValue.toInt := by rw [Int32.toInt_maxValue]; omega
    unfold Int32.ofIntClamp
    rw [dif_pos hmin, dif_pos hmax, Int32.toInt_ofIntLE]
  unfold Float32.Model.toInt32 UnpackedFloat.toInt32
  unfold Finite value at *
  rcases hx0.eq_or_lt with hx0 | hx0
  · obtain ⟨s, hxu⟩ := hx.exists_zero hx0.symm
    rw [hxu]
    simp only [unpackedValue, Int.floor_zero]
    rfl
  · obtain ⟨m, e, hm, hxu⟩ := hx.exists_mantissa hx0
    rw [hxu] at hlt ⊢
    simp only [unpackedValue, Sign.apply, Int.cast_natCast] at hlt ⊢
    have hfloor : roundToInt .positive m e = ⌊(m : ℚ) * 2 ^ e⌋ := by
      rcases le_total 0 e with he | he
      · obtain ⟨k, rfl⟩ := Int.eq_ofNat_of_zero_le he
        have hexact : roundToInt .positive m k = ((m * 2 ^ k : ℕ) : ℤ) := by
          have hzero : (0 - ((k : ℤ) - (k : ℤ))).toNat = 0 := by omega
          have hk : ((k : ℤ) - 0).toNat = k := by omega
          simp only [roundToInt, decreaseExponent, shiftToExponent, hk, hzero, Sign.apply,
            ExtendedMantissa.ofMantissaAndAccuracy, shiftRight_mantissa]
          rw [Nat.shiftLeft_eq, pow_zero, Nat.div_one]
        rw [hexact]
        refine (Int.floor_eq_iff.mpr ⟨?_, ?_⟩).symm <;> push_cast <;> simp
      · obtain ⟨k, hk⟩ := Int.eq_ofNat_of_zero_le (neg_nonneg.mpr he)
        obtain rfl : e = -(k : ℤ) := by omega
        have hexact : roundToInt .positive m (-(k : ℤ)) = ((m / 2 ^ k : ℕ) : ℤ) := by
          have hzero : (-(k : ℤ) - 0).toNat = 0 := by omega
          have hk : (0 - (-(k : ℤ) - (0 : ℕ))).toNat = k := by omega
          simp only [roundToInt, decreaseExponent, shiftToExponent, hzero, hk, Sign.apply,
            ExtendedMantissa.ofMantissaAndAccuracy, shiftRight_mantissa]
          rfl
        rw [hexact, zpow_neg, zpow_natCast, ← div_eq_mul_inv]
        have hdiv := Rat.floor_intCast_div_natCast (m : ℤ) (2 ^ k)
        push_cast at hdiv ⊢
        exact hdiv.symm
    change (Int32.ofIntClamp (roundToInt .positive m e)).toInt = _
    rw [hfloor]
    exact hclamp _ (Int.floor_nonneg.mpr (by positivity))
      (Int.floor_lt.mpr (by exact_mod_cast hlt))

theorem isLE_then_compare (a b : ℤ) (c d : ℕ) :
    ((compare a b).then (compare c d)).isLE = true ↔ a < b ∨ a = b ∧ c ≤ d := by
  rw [Ordering.isLE_then_iff_or, compare_lt_iff_lt, compare_eq_iff_eq,
    Ordering.isLE_iff_ne_gt, compare_gt_iff_gt, not_lt]

/-- A float compared to lie between one and three is finite and does. -/
theorem between_one_three (h1 : Float32.Model.ofInt 1 ≤ x) (h3 : x ≤ Float32.Model.ofInt 3) :
    Finite x ∧ 1 ≤ value x ∧ value x ≤ 3 := by
  change ((Float32.Model.ofInt 1).unpack.le x.unpack) = true at h1
  change (x.unpack.le (Float32.Model.ofInt 3).unpack) = true at h3
  have hone : (Float32.Model.ofInt 1).unpack = .finite .positive (2 ^ 23) (-23) (by norm_num) := by
    rfl
  have hthree : (Float32.Model.ofInt 3).unpack =
      .finite .positive (3 * 2 ^ 22) (-22) (by norm_num) := by
    rfl
  rw [hone] at h1
  rw [hthree] at h3
  have hfin : Finite x := by
    apply finite_of_isFinite
    unfold Float32.Model.isFinite
    cases hxu : x.unpack with
    | infinity s =>
      rw [hxu] at h1 h3; cases s <;> simp [UnpackedFloat.le, UnpackedFloat.compare] at h1 h3
    | notANumber => rw [hxu] at h1; simp [UnpackedFloat.le, UnpackedFloat.compare] at h1
    | zero s | finite s m e hm => rfl
  refine ⟨hfin, ?_⟩
  unfold Finite value at *
  cases hxu : x.unpack with
  | infinity s | notANumber => rw [hxu] at hfin; exact hfin.elim
  | zero s => rw [hxu] at h1; simp [UnpackedFloat.le, UnpackedFloat.compare] at h1
  | finite s m e hm =>
    rw [hxu] at hfin h1 h3
    cases s with
    | negative => simp [UnpackedFloat.le, UnpackedFloat.compare] at h1
    | positive =>
      simp only [UnpackedFloat.le, UnpackedFloat.compare, Option.any_some,
        isLE_then_compare] at h1 h3
      obtain ⟨hlt, -, -, hnormal⟩ := hfin
      simp only [unpackedValue, Sign.apply, Int.cast_natCast]
      have hE : (0 : ℚ) < 2 ^ e := zpow_pos (by norm_num) e
      constructor
      · have hm' : (2 : ℚ) ^ 23 ≤ m := by
          exact_mod_cast (hnormal.resolve_left (by omega))
        have hE' : (2 : ℚ) ^ (-23 : ℤ) ≤ 2 ^ e :=
          (zpow_le_zpow_iff_right₀ (by norm_num)).mpr (by omega)
        calc (1 : ℚ) = 2 ^ 23 * 2 ^ (-23 : ℤ) := by norm_num
          _ ≤ m * 2 ^ e := mul_le_mul hm' hE' (by positivity) (by positivity)
      · rcases h3 with h3 | ⟨rfl, h3⟩
        · have hm' : (m : ℚ) ≤ 2 ^ 24 := by exact_mod_cast hlt.le
          have hE' : (2 : ℚ) ^ e ≤ 2 ^ (-23 : ℤ) :=
            (zpow_le_zpow_iff_right₀ (by norm_num)).mpr (by omega)
          calc (m : ℚ) * 2 ^ e ≤ 2 ^ 24 * 2 ^ (-23 : ℤ) :=
                mul_le_mul hm' hE' hE.le (by positivity)
            _ ≤ 3 := by norm_num
        · have hm' : (m : ℚ) ≤ 3 * 2 ^ 22 := by exact_mod_cast h3
          calc (m : ℚ) * 2 ^ (-22 : ℤ) ≤ 3 * 2 ^ 22 * 2 ^ (-22 : ℤ) :=
                mul_le_mul_of_nonneg_right hm' (by positivity)
            _ = 3 := by norm_num

end Esp32Firmware.Binary32
