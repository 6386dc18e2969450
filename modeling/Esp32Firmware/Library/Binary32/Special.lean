import Esp32Firmware.Library.Binary32.Format

/-!
# NaN, signs and equality of binary32 floats

A result is NaN if an operand is. Floats that compare equal are the same, except for zeros of
different signs.
-/

namespace Esp32Firmware.Binary32

open Float.Model Float.Model.UnpackedFloat

section

variable {x y : Float32.Model}

/-- A packed float is determined by its three parts. -/
theorem bits_ext {a b : BitVec Format.binary32.numBits} (hsign : unpackSign a = unpackSign b)
    (hexponent : unpackExponent a = unpackExponent b)
    (hmantissa : unpackMantissa a = unpackMantissa b) : a = b := by
  apply BitVec.eq_of_getLsbD_eq
  intro i hi
  have hi' : i < 32 := hi
  by_cases hm : i < 23
  · have := congrArg (fun v => BitVec.getLsbD v i) hmantissa
    simpa [unpackMantissa, hm] using this
  · by_cases he : i < 31
    · have := congrArg (fun v => BitVec.getLsbD v (i - 23)) hexponent
      have hlt : i - 23 < 8 := by omega
      have hadd : 23 + (i - 23) = i := by omega
      simpa [unpackExponent, hlt, hadd] using this
    · have hlast : i = 31 := by omega
      subst hlast
      have := congrArg (fun v => BitVec.getLsbD v 0) hsign
      simpa [unpackSign] using this

theorem sign_ofBitVec_injective (a b : BitVec 1) (h : Sign.ofBitVec a = Sign.ofBitVec b) :
    a = b := by
  have hcases (c : BitVec 1) : c = 0#1 ∨ c = 1#1 := by
    have hlt : c.toNat < 2 := c.isLt
    rcases Nat.lt_or_ge c.toNat 1 with hzero | hone
    · exact .inl (BitVec.eq_of_toNat_eq (by simp; omega))
    · exact .inr (BitVec.eq_of_toNat_eq (by simp; omega))
  rcases hcases a with rfl | rfl <;> rcases hcases b with rfl | rfl
  · rfl
  · cases h
  · cases h
  · rfl

def exponentBits (x : Float32.Model) : BitVec 8 := @unpackExponent .binary32 x.toBits.toBitVec

def mantissaBits (x : Float32.Model) : BitVec 23 := @unpackMantissa .binary32 x.toBits.toBitVec

def sign (x : Float32.Model) : Sign := .ofBitVec (@unpackSign .binary32 x.toBits.toBitVec)

/-- The unpacked form, by the parts of the bits. -/
theorem unpack_cases (x : Float32.Model) :
    (exponentBits x = -1#8 ∧ mantissaBits x = 0#23 ∧ x.unpack = .infinity (sign x)) ∨
    (exponentBits x = -1#8 ∧ mantissaBits x ≠ 0#23 ∧ x.unpack = .notANumber) ∨
    (exponentBits x = 0#8 ∧ mantissaBits x = 0#23 ∧ x.unpack = .zero (sign x)) ∨
    (exponentBits x = 0#8 ∧ ∃ h, x.unpack = .finite (sign x) (mantissaBits x).toNat (-149) h) ∨
    (∃ h, x.unpack = .finite (sign x) (2 ^ 23 + (mantissaBits x).toNat)
      ((exponentBits x).toNat - 150) h) := by
  have hM : (mantissaBits x).toNat < 2 ^ 23 := BitVec.isLt _
  have hmant : (1#1 ++ mantissaBits x).toNat = 2 ^ 23 + (mantissaBits x).toNat := by
    rw [BitVec.toNat_append, ← Nat.shiftLeft_add_eq_or_of_lt hM]
    simp [Nat.shiftLeft_eq]
  have hunpack : x.unpack = if exponentBits x = -1#8 then
      if mantissaBits x = 0#23 then .infinity (sign x) else .notANumber
    else if exponentBits x = 0#8 then
      if h : mantissaBits x = 0#23 then .zero (sign x)
      else .finite (sign x) (mantissaBits x).toNat
        (((exponentBits x).toNat : ℤ) - 150 + 1)
          (by simpa [BitVec.toNat_pos, BitVec.pos_iff_ne_zero])
    else .finite (sign x) (1#1 ++ mantissaBits x).toNat (((exponentBits x).toNat : ℤ) - 150)
      (by rw [hmant]; omega) := rfl
  rw [hunpack]
  by_cases hmax : exponentBits x = -1#8
  · rw [if_pos hmax]
    by_cases hm : mantissaBits x = 0#23
    · rw [if_pos hm]
      exact .inl ⟨hmax, hm, rfl⟩
    · rw [if_neg hm]
      exact .inr (.inl ⟨hmax, hm, rfl⟩)
  · rw [if_neg hmax]
    by_cases hzero : exponentBits x = 0#8
    · rw [if_pos hzero]
      by_cases hm : mantissaBits x = 0#23
      · rw [dif_pos hm]
        exact .inr (.inr (.inl ⟨hzero, hm, rfl⟩))
      · rw [dif_neg hm]
        refine .inr (.inr (.inr (.inl ⟨hzero, ?_, ?_⟩)))
        · simpa [BitVec.toNat_pos, BitVec.pos_iff_ne_zero] using hm
        · congr 1
          rw [hzero]
          rfl
    · rw [if_neg hzero]
      refine .inr (.inr (.inr (.inr ⟨by omega, ?_⟩)))
      congr 1

/-- A float is determined by its unpacked form. -/
theorem unpack_injective (h : x.unpack = y.unpack) : x = y := by
  have hbits (hsign : sign x = sign y) (hexponent : exponentBits x = exponentBits y)
      (hmantissa : mantissaBits x = mantissaBits y) : x = y := by
    have htoBits : x.toBits.toBitVec = y.toBits.toBitVec :=
      bits_ext (sign_ofBitVec_injective _ _ hsign) hexponent hmantissa
    obtain ⟨a, ha⟩ := x
    obtain ⟨b, hb⟩ := y
    obtain rfl : a = b := UInt32.toBitVec_inj.mp htoBits
    rfl
  have hMx : (mantissaBits x).toNat < 2 ^ 23 := BitVec.isLt _
  have hMy : (mantissaBits y).toNat < 2 ^ 23 := BitVec.isLt _
  rcases unpack_cases x with ⟨hex, hmx, hx⟩ | ⟨hex, hmx, hx⟩ | ⟨hex, hmx, hx⟩ | ⟨hex, hpx, hx⟩ |
      ⟨hpx, hx⟩ <;>
    rcases unpack_cases y with ⟨hey, hmy, hy⟩ | ⟨hey, hmy, hy⟩ | ⟨hey, hmy, hy⟩ |
      ⟨hey, hpy, hy⟩ | ⟨hpy, hy⟩ <;>
    rw [hx, hy] at h <;>
    simp only [UnpackedFloat.infinity.injEq, UnpackedFloat.zero.injEq,
      UnpackedFloat.finite.injEq, reduceCtorEq] at h
  · exact hbits h (hex.trans hey.symm) (hmx.trans hmy.symm)
  · -- The canonical NaN is the only one.
    have hx' := x.valid.eq_packedNaN hex hmx
    have hy' := y.valid.eq_packedNaN hey hmy
    obtain ⟨a, ha⟩ := x
    obtain ⟨b, hb⟩ := y
    obtain rfl : a = b := UInt32.toBitVec_inj.mp (hx'.trans hy'.symm)
    rfl
  · exact hbits h (hex.trans hey.symm) (hmx.trans hmy.symm)
  · exact hbits h.1 (hex.trans hey.symm) (BitVec.eq_of_toNat_eq h.2.1)
  · omega
  · omega
  · exact hbits h.1 (BitVec.eq_of_toNat_eq (by omega)) (BitVec.eq_of_toNat_eq (by omega))

theorem eq_of_then_eq {e e' : ℤ} {m m' : ℕ}
    (h : (compare e e').then (compare m m') = .eq) : e = e' ∧ m = m' := by
  rw [Ordering.then_eq_eq] at h
  exact ⟨Std.compare_eq_iff_eq.mp h.1, Std.compare_eq_iff_eq.mp h.2⟩

/-- Floats that compare equal are the same, or both are zero. -/
theorem eq_or_zero_of_beq (h : (x == y) = true) :
    x = y ∨ ∃ s t, x.unpack = .zero s ∧ y.unpack = .zero t := by
  have hcompare : x.unpack.compare y.unpack = some .eq := LawfulBEq.eq_of_beq h
  rcases hx : x.unpack with s | _ | s | ⟨s, m, e, hm⟩ <;>
    rcases hy : y.unpack with t | _ | t | ⟨t, m', e', hm'⟩ <;>
    rw [hx, hy] at hcompare
  case infinity.infinity =>
    left
    apply unpack_injective
    rw [hx, hy]
    cases s <;> cases t <;> first | rfl | cases hcompare
  case zero.zero => exact .inr ⟨s, t, rfl, rfl⟩
  case finite.finite =>
    left
    apply unpack_injective
    rw [hx, hy]
    cases s <;> cases t
    · have hswap : ((compare e e').then (compare m m')).swap = .eq := Option.some.inj hcompare
      rw [Ordering.swap_eq_eq] at hswap
      obtain ⟨rfl, rfl⟩ := eq_of_then_eq hswap
      rfl
    · cases hcompare
    · cases hcompare
    · obtain ⟨rfl, rfl⟩ := eq_of_then_eq (Option.some.inj hcompare)
      rfl
  all_goals
    first
    | cases hcompare
    | (cases s <;> cases hcompare)
    | (cases t <;> cases hcompare)

theorem beq_self (h : x.isNaN = false) : (x == x) = true := by
  have hcompare : x.unpack.compare x.unpack = some .eq := by
    rw [Float32.Model.isNaN] at h
    cases hx : x.unpack with
    | notANumber => rw [hx] at h; cases h
    | infinity s => cases s <;> rfl
    | zero s => rfl
    | finite s m e hm =>
      cases s <;> simp [UnpackedFloat.compare]
  change (x.unpack.compare x.unpack == some .eq) = true
  rw [hcompare]
  rfl

def negativeZero : Float32.Model := .pack (.zero .negative)

theorem unpack_negativeZero : negativeZero.unpack = .zero .negative :=
  unpack_pack trivial

/-- Only zeros of different signs are equal without being the same. -/
theorem eq_of_beq_of_ne (h : (x == y) = true) (hx : x ≠ negativeZero) (hy : y ≠ negativeZero) :
    x = y := by
  have hpositive {z : Float32.Model} {s : Sign} (hz : z ≠ negativeZero)
      (hs : z.unpack = .zero s) : z.unpack = .zero .positive := by
    cases s with
    | positive => exact hs
    | negative => exact absurd (unpack_injective (hs.trans unpack_negativeZero.symm)) hz
  rcases eq_or_zero_of_beq h with heq | ⟨s, t, hs, ht⟩
  · exact heq
  · apply unpack_injective
    rw [hpositive hx hs, hpositive hy ht]

end

section

variable {x y : Float32.Model}

theorem isNaN_pack_notANumber : (Float32.Model.pack .notANumber).isNaN = true := by
  decide

theorem unpack_of_isNaN (h : x.isNaN = true) : x.unpack = .notANumber := by
  rw [Float32.Model.isNaN] at h
  cases hx : x.unpack with
  | notANumber => rfl
  | infinity s | zero s | finite s m e hm => rw [hx] at h; cases h

/-- What is computed from NaN is NaN. -/
theorem isNaN_add (h : x.isNaN = true ∨ y.isNaN = true) : (x + y).isNaN = true := by
  have hpack : x + y = .pack .notANumber := by
    change Float32.Model.pack (UnpackedFloat.add _ _ _) = _
    rcases h with h | h
    · rw [unpack_of_isNaN h]
      rfl
    · rw [unpack_of_isNaN h]
      cases x.unpack <;> rfl
  rw [hpack, isNaN_pack_notANumber]

theorem isNaN_sub (h : x.isNaN = true ∨ y.isNaN = true) : (x - y).isNaN = true := by
  have hpack : x - y = .pack .notANumber := by
    change Float32.Model.pack (UnpackedFloat.sub _ _ _) = _
    rcases h with h | h
    · rw [unpack_of_isNaN h]
      rfl
    · rw [unpack_of_isNaN h]
      cases x.unpack <;> rfl
  rw [hpack, isNaN_pack_notANumber]

theorem isNaN_mul (h : x.isNaN = true) : (x * y).isNaN = true := by
  have hpack : x * y = .pack .notANumber := by
    change Float32.Model.pack (UnpackedFloat.mul _ _ _) = _
    rw [unpack_of_isNaN h]
    rfl
  rw [hpack, isNaN_pack_notANumber]

/-- The sign of a float; the canonical NaN has none. -/
def signOf : UnpackedFloat → Sign
  | .infinity s => s
  | .notANumber => .positive
  | .zero s => s
  | .finite s _ _ _ => s

def withSign (s : Sign) : UnpackedFloat → UnpackedFloat
  | .infinity _ => .infinity s
  | .notANumber => .notANumber
  | .zero _ => .zero s
  | .finite _ m e hm => .finite s m e hm

/-- A float with the sign of another one. -/
def replaceSign (receiver donor : Float32.Model) : Float32.Model :=
  .pack (withSign (signOf donor.unpack) receiver.unpack)

theorem isNaN_pack_infinity (s : Sign) : (Float32.Model.pack (.infinity s)).isNaN = false := by
  cases s <;> decide

theorem isNaN_replaceSign : (replaceSign x y).isNaN = x.isNaN := by
  have hfinite (hx : x.isFinite = true) : (replaceSign x y).isNaN = false := by
    have hcanonical : Canonical (withSign (signOf y.unpack) x.unpack) := by
      have hx' : Canonical x.unpack := finite_of_isFinite hx
      cases hu : x.unpack with
      | notANumber | infinity s => rw [hu] at hx'; exact hx'.elim
      | zero s => trivial
      | finite s m e hm => rw [hu] at hx'; exact hx'
    rw [replaceSign, Float32.Model.isNaN, unpack_pack hcanonical]
    rw [Float32.Model.isFinite] at hx
    cases hu : x.unpack with
    | notANumber => rw [hu] at hx; cases hx
    | infinity s | zero s | finite s m e hm => rfl
  cases hu : x.unpack with
  | notANumber =>
    have hx : x.isNaN = true := by rw [Float32.Model.isNaN, hu]; rfl
    rw [hx, replaceSign, hu]
    exact isNaN_pack_notANumber
  | infinity s =>
    have hx : x.isNaN = false := by rw [Float32.Model.isNaN, hu]; rfl
    rw [hx, replaceSign, hu]
    exact isNaN_pack_infinity _
  | zero s | finite s m e hm =>
    rw [hfinite (by rw [Float32.Model.isFinite, hu]; rfl), Float32.Model.isNaN, hu]
    rfl

end

section

variable {x : Float32.Model}

theorem unpack_ofInt_zero : (Float32.Model.ofInt 0).unpack = .zero .positive := by
  rfl

/-- Packing an unpacked float gives it back. -/
theorem pack_unpack (x : Float32.Model) : Float32.Model.pack x.unpack = x := by
  have hcanonical (hx : x.isFinite = true) : Float32.Model.pack x.unpack = x := by
    apply unpack_injective
    exact unpack_pack (finite_of_isFinite hx)
  cases hu : x.unpack with
  | notANumber =>
    apply unpack_injective
    rw [hu]
    exact unpack_of_isNaN isNaN_pack_notANumber
  | infinity s =>
    apply unpack_injective
    rw [hu]
    cases s <;> rfl
  | zero s | finite s m e hm =>
    rw [← hu]
    exact hcanonical (by rw [Float32.Model.isFinite, hu]; rfl)

/-- A float is zero or more if and only if it is more than zero or compares equal to it. -/
theorem zero_le_iff :
    Float32.Model.ofInt 0 ≤ x ↔
      Float32.Model.ofInt 0 < x ∨ (Float32.Model.ofInt 0 == x) = true := by
  change (Float32.Model.ofInt 0).unpack.le x.unpack = true ↔
    (Float32.Model.ofInt 0).unpack.lt x.unpack = true ∨
      (Float32.Model.ofInt 0).unpack.beq x.unpack = true
  rw [unpack_ofInt_zero]
  cases x.unpack with
  | notANumber => decide
  | infinity s | zero s => cases s <;> decide
  | finite s m e hm =>
    cases s <;> simp [UnpackedFloat.le, UnpackedFloat.lt, UnpackedFloat.beq, UnpackedFloat.compare]

/-- A float that is not below zero, not above it and not equal to it is NaN. -/
theorem lt_zero_iff : x < Float32.Model.ofInt 0 ↔
    x.isNaN = false ∧ ¬ Float32.Model.ofInt 0 ≤ x := by
  change x.unpack.lt (Float32.Model.ofInt 0).unpack = true ↔
    x.unpack.isNaN = false ∧ ¬ (Float32.Model.ofInt 0).unpack.le x.unpack = true
  rw [unpack_ofInt_zero]
  cases x.unpack with
  | notANumber => decide
  | infinity s | zero s => cases s <;> decide
  | finite s m e hm =>
    cases s <;> simp [UnpackedFloat.le, UnpackedFloat.lt, UnpackedFloat.isNaN,
      UnpackedFloat.compare]

theorem isNaN_of_zero_le (h : Float32.Model.ofInt 0 ≤ x) : x.isNaN = false := by
  cases hx : x.isNaN with
  | false => rfl
  | true =>
    have hle : (Float32.Model.ofInt 0).unpack.le x.unpack = true := h
    rw [unpack_of_isNaN hx] at hle
    cases hle

/-- Subtracting zero changes nothing, not even the sign of a zero. -/
theorem sub_ofInt_zero (x : Float32.Model) : x - Float32.Model.ofInt 0 = x := by
  have hsub : UnpackedFloat.sub Format.binary32 x.unpack (.zero .positive) = x.unpack := by
    cases x.unpack with
    | notANumber | infinity s | finite s m e hm => rfl
    | zero s => cases s <;> rfl
  change Float32.Model.pack (UnpackedFloat.sub _ x.unpack (Float32.Model.ofInt 0).unpack) = x
  rw [unpack_ofInt_zero, hsub, pack_unpack]

end

variable {x y : Float32.Model}

/-- The rank of a float that is not NaN. -/
def orderKey : UnpackedFloat → ℤ ×ₗ ℤ ×ₗ ℤ
  | .infinity .negative => toLex (-2, toLex (0, 0))
  | .finite .negative m e _ => toLex (-1, toLex (-e, -(m : ℤ)))
  | .notANumber | .zero _ => toLex (0, toLex (0, 0))
  | .finite .positive m e _ => toLex (1, toLex (e, (m : ℤ)))
  | .infinity .positive => toLex (2, toLex (0, 0))

/-- Floats other than NaN are ordered by their ranks. -/
theorem lt_iff_orderKey : x < y ↔
    x.isNaN = false ∧ y.isNaN = false ∧ orderKey x.unpack < orderKey y.unpack := by
  change x.unpack.lt y.unpack = true ↔ x.unpack.isNaN = false ∧ y.unpack.isNaN = false ∧ _
  have hsign : compare Sign.negative Sign.positive = .lt := rfl
  cases x.unpack with
  | notANumber => simp [UnpackedFloat.lt, UnpackedFloat.compare, UnpackedFloat.isNaN]
  | infinity s | zero s | finite s m e hm =>
    cases y.unpack with
    | notANumber => cases s <;> simp [UnpackedFloat.lt, UnpackedFloat.compare, UnpackedFloat.isNaN]
    | infinity t | zero t | finite t m' e' hm' =>
      cases s <;> cases t <;>
        simp [UnpackedFloat.lt, UnpackedFloat.compare, UnpackedFloat.isNaN, orderKey,
          Prod.Lex.toLex_lt_toLex, Ordering.then_eq_lt, Ordering.then_eq_gt, Std.compare_eq_lt,
          Std.compare_eq_gt, hsign]

end Esp32Firmware.Binary32
