import Esp32Firmware.ChargeManager.Window

/-!
# The enable current

The enable cost is the minimum cost times the configured factor, rounded to a float
and truncated. On every phase it is the enable current or nothing.
-/

namespace Esp32Firmware.ChargeManager

open Binary32

variable {n : Nat}

/-- The factor of an enable cost. -/
def enableFactor (cfg : CurrentAllocatorConfig n) (haveActiveChargers : Bool) : Float32.Model :=
  if haveActiveChargers then cfg.enableCurrentFactor.value else Float32.Model.ofInt 1

theorem enableFactor_mem (cfg : CurrentAllocatorConfig n) (haveActiveChargers : Bool) :
    Finite (enableFactor cfg haveActiveChargers) ∧ 1 ≤ value (enableFactor cfg haveActiveChargers) ∧
      value (enableFactor cfg haveActiveChargers) ≤ 3 := by
  cases haveActiveChargers
  · have hone : Float32.Model.ofInt 1 ≤ Float32.Model.ofInt 1 := by decide
    have hthree : Float32.Model.ofInt 1 ≤ Float32.Model.ofInt 3 := by decide
    exact between_one_three hone hthree
  · exact between_one_three cfg.enableCurrentFactor.one_le cfg.enableCurrentFactor.le_three

section

variable {f : Float32.Model}

/-- The rounded product of an integer current and a factor between one and three. -/
theorem mul_ofInt {m : ℕ} (hf : Finite f) (h1 : 1 ≤ value f) (h3 : value f ≤ 3) (hm0 : 0 < m)
    (hm : 3 * m < 2 ^ 24) :
    Finite (Float32.Model.ofInt m * f) ∧
      IsRounded (m * value f) (value (Float32.Model.ofInt m * f)) := by
  obtain ⟨hfin, hval⟩ := ofInt_exact (show m < 2 ^ 24 by omega)
  have hm1 : (1 : ℚ) ≤ m := by exact_mod_cast hm0
  have hm3 : (3 * m : ℚ) < 2 ^ 24 := by exact_mod_cast hm
  have hmul := mul_isRounded hfin hf (by rw [hval]; exact hm1) h1 (by rw [hval]; nlinarith)
  rwa [hval] at hmul

/-- The rounded product lies between the current and three times the current. -/
theorem mul_ofInt_mem {m : ℕ} (hf : Finite f) (h1 : 1 ≤ value f) (h3 : value f ≤ 3)
    (hm : 3 * m < 2 ^ 24) :
    Finite (Float32.Model.ofInt m * f) ∧ ((m : ℤ) : ℚ) ≤ value (Float32.Model.ofInt m * f) ∧
      value (Float32.Model.ofInt m * f) ≤ ((3 * m : ℤ) : ℚ) := by
  rcases Nat.eq_zero_or_pos m with rfl | hm0
  · obtain ⟨hzero, hval⟩ := ofInt_exact (Nat.two_pow_pos 24)
    obtain ⟨hprod, hprodval⟩ := zero_mul_value hzero hf (by simpa using hval) (by linarith)
    refine ⟨hprod, ?_, ?_⟩
    · rw [hprodval]
      simp
    · rw [hprodval]
      simp
  · obtain ⟨hfin, hround⟩ := mul_ofInt hf h1 h3 hm0 hm
    have hm' : (0 : ℚ) ≤ m := Nat.cast_nonneg m
    exact ⟨hfin, hround.int_le (by omega) (by push_cast; nlinarith),
      hround.le_int (by omega) (by push_cast; nlinarith)⟩

/-- The truncated product lies between the current and three times the current. -/
theorem truncMul_mem {x : Int} (hf : Finite f) (h1 : 1 ≤ value f) (h3 : value f ≤ 3) (hx0 : 0 ≤ x)
    (hx : 3 * x < 2 ^ 24) :
    x ≤ Cost.scaleFloat.truncMul f x ∧ Cost.scaleFloat.truncMul f x ≤ 3 * x := by
  obtain ⟨m, rfl⟩ := Int.eq_ofNat_of_zero_le hx0
  obtain ⟨hfin, hlow, hhigh⟩ := mul_ofInt_mem hf h1 h3 (show 3 * m < 2 ^ 24 by omega)
  have hm0 : (0 : ℚ) ≤ ((m : ℤ) : ℚ) := by exact_mod_cast hx0
  have hm3 : ((3 * m : ℤ) : ℚ) < 2 ^ 24 := by exact_mod_cast hx
  have htrunc := toInt32_eq_floor hfin (hm0.trans hlow) (by linarith)
  unfold Cost.scaleFloat.truncMul
  rw [htrunc]
  exact ⟨Int.le_floor.mpr hlow, Int.floor_le_iff.mpr (by linarith)⟩

theorem truncMul_zero (hf : Finite f) (h1 : 1 ≤ value f) (h3 : value f ≤ 3) :
    Cost.scaleFloat.truncMul f 0 = 0 := by
  obtain ⟨hlow, hhigh⟩ := truncMul_mem hf h1 h3 le_rfl (by norm_num)
  omega

/-- Raising the current raises the rounded product at least as much. -/
theorem truncMul_add_le {a b : ℕ} (hf : Finite f) (h1 : 1 ≤ value f) (h3 : value f ≤ 3)
    (hab : b < a) (ha : 3 * a < 2 ^ 24) :
    ((Cost.scaleFloat.truncMul f b + (a - b) : ℤ) : ℚ) ≤ value (Float32.Model.ofInt a * f) := by
  obtain ⟨hfin, hlow, hhigh⟩ := mul_ofInt_mem hf h1 h3 (show 3 * b < 2 ^ 24 by omega)
  obtain ⟨hfin', hlow', hhigh'⟩ := mul_ofInt_mem hf h1 h3 ha
  obtain ⟨-, hround'⟩ := mul_ofInt hf h1 h3 (by omega) ha
  have hb0 : (0 : ℚ) ≤ ((b : ℤ) : ℚ) := by exact_mod_cast Int.natCast_nonneg b
  have hb3 : ((3 * b : ℤ) : ℚ) < 2 ^ 31 := by
    exact_mod_cast (show (3 * b : ℤ) < 2 ^ 31 by omega)
  have hmem := truncMul_mem hf h1 h3 (Int.natCast_nonneg b) (by omega)
  have hfloor : ((Cost.scaleFloat.truncMul f b : ℤ) : ℚ) ≤ value (Float32.Model.ofInt b * f) := by
    unfold Cost.scaleFloat.truncMul
    rw [toInt32_eq_floor hfin (hb0.trans hlow) (by linarith)]
    exact Int.floor_le _
  rcases Nat.eq_zero_or_pos b with rfl | hb
  · have hzero : Cost.scaleFloat.truncMul f ((0 : ℕ) : ℤ) = 0 := truncMul_zero hf h1 h3
    rw [hzero]
    simpa using hlow'
  · obtain ⟨-, hround⟩ := mul_ofInt hf h1 h3 hb (show 3 * b < 2 ^ 24 by omega)
    rcases h1.eq_or_lt with hone | hgt
    · -- a factor of one is exact
      have hle := hround.le_int (n := b) (by omega) (by rw [← hone]; simp)
      have hsum : ((Cost.scaleFloat.truncMul f b + (a - b) : ℤ) : ℚ) ≤ ((a : ℤ) : ℚ) := by
        have : Cost.scaleFloat.truncMul f b ≤ b := by exact_mod_cast hfloor.trans hle
        exact_mod_cast (by omega : Cost.scaleFloat.truncMul f b + ((a : ℤ) - b) ≤ a)
      exact hsum.trans hlow'
    · have hlt : (b * value f : ℚ) + ((a - b : ℤ) : ℚ) < a * value f := by
        have hab' : (0 : ℚ) < (a : ℚ) - b := by
          have : (b : ℚ) < a := by exact_mod_cast hab
          linarith
        push_cast
        nlinarith
      exact hround.int_add_le hround' hfloor (by omega) hlt (by omega)

/-- The enable cost of a phase switch lies between the additional minimum current and
three times the current that is switched to. -/
theorem truncMul_sub_mem {a b : Int} (hf : Finite f) (h1 : 1 ≤ value f) (h3 : value f ≤ 3)
    (hb : 0 ≤ b) (hab : b < a) (ha : 3 * a < 2 ^ 24) :
    a - b ≤ Cost.scaleFloat.truncMul (Float32.Model.ofInt a * f) 1 - Cost.scaleFloat.truncMul f b ∧
      Cost.scaleFloat.truncMul (Float32.Model.ofInt a * f) 1 - Cost.scaleFloat.truncMul f b ≤
        3 * a := by
  obtain ⟨a, rfl⟩ := Int.eq_ofNat_of_zero_le (hb.trans hab.le)
  obtain ⟨b, rfl⟩ := Int.eq_ofNat_of_zero_le hb
  obtain ⟨hfin, hlow, hhigh⟩ := mul_ofInt_mem hf h1 h3 (show 3 * a < 2 ^ 24 by omega)
  obtain ⟨hone, hval⟩ := ofInt_exact (show 1 < 2 ^ 24 by norm_num)
  have hge := truncMul_add_le hf h1 h3 (show b < a by omega) (by omega)
  have hmem := truncMul_mem hf h1 h3 hb (by omega)
  have ha1 : (1 : ℚ) ≤ ((a : ℤ) : ℚ) := by exact_mod_cast (show (1 : ℤ) ≤ a by omega)
  have ha3 : ((3 * a : ℤ) : ℚ) < 2 ^ 24 := by exact_mod_cast ha
  have hval1 : value (Float32.Model.ofInt ((1 : ℕ) : ℤ)) = 1 := by rw [hval, Nat.cast_one]
  obtain ⟨hprod, hround⟩ := mul_isRounded hone hfin hval1.ge (ha1.trans hlow)
    (by rw [hval1, one_mul]; linarith)
  rw [hval1, one_mul] at hround
  have hprodlow := hround.int_le (by omega) hge
  have hprodhigh := hround.le_int (by omega) hhigh
  have hnonneg : (0 : ℚ) ≤ ((Cost.scaleFloat.truncMul f b + (a - b) : ℤ) : ℚ) := by
    exact_mod_cast (by omega : 0 ≤ Cost.scaleFloat.truncMul f b + ((a : ℤ) - b))
  have htrunc : Cost.scaleFloat.truncMul (Float32.Model.ofInt a * f) 1 =
      ⌊value (Float32.Model.ofInt ((1 : ℕ) : ℤ) * (Float32.Model.ofInt a * f))⌋ :=
    toInt32_eq_floor hprod (hnonneg.trans hprodlow) (hprodhigh.trans_lt (ha3.trans (by norm_num)))
  have hle := Int.le_floor.mpr hprodlow
  have hle' := Int.floor_le_iff.mpr (hprodhigh.trans_lt (lt_add_one _))
  omega

end

variable {cfg : CurrentAllocatorConfig n} {state : ChargerState} {phases : UInt8}
  {haveActiveChargers : Bool} {p : GridPhase}

theorem minimumCurrent_mem (cfg : CurrentAllocatorConfig n) (phases : UInt8) :
    6000 ≤ minimumCurrent cfg phases ∧ minimumCurrent cfg phases ≤ 32000 := by
  unfold minimumCurrent
  split_ifs
  · exact cfg.minimumCurrent3p_mem
  · exact cfg.minimumCurrent1p_mem

theorem minimumCurrent_pos (cfg : CurrentAllocatorConfig n) (phases : UInt8) :
    0 < minimumCurrent cfg phases :=
  lt_of_lt_of_le (by decide) (minimumCurrent_mem cfg phases).1

section

variable (valid : phases = 1 ∨ phases = 3)
include valid

theorem enable_get (p : GridPhase) :
    (getEnableCost state (phases == 3) haveActiveChargers cfg).enable.get p =
      Cost.scaleFloat.truncMul (enableFactor cfg haveActiveChargers)
        ((getPhaseFactors phases state.phaseRotation).get p * minimumCurrent cfg phases) := by
  rcases valid with rfl | rfl <;>
    exact (Cost.get_scaleFloat _ _ _).trans (congrArg _ (Cost.get_scale _ _ _))

/-- The enable current is the truncated product of the minimum current and the factor. -/
theorem enableCurrent_eq :
    (getEnableCost state (phases == 3) haveActiveChargers cfg).enableCurrent =
      Cost.scaleFloat.truncMul (enableFactor cfg haveActiveChargers)
        (minimumCurrent cfg phases) := by
  have hget := fun p => @enable_get _ cfg state phases haveActiveChargers valid p
  obtain ⟨p, hp, hfactor⟩ : ∃ p,
      (getEnableCost state (phases == 3) haveActiveChargers cfg).enableCurrent =
        (getEnableCost state (phases == 3) haveActiveChargers cfg).enable.get p ∧
      (getPhaseFactors phases state.phaseRotation).get p = 1 := by
    by_cases hrot : state.phaseRotation = .unknown
    · refine ⟨.l1, ?_, ?_⟩
      · unfold getEnableCost
        simp only [hrot, beq_self_eq_true, Bool.or_true, if_true]
        rfl
      · rw [hrot]
        rcases valid with rfl | rfl <;> rfl
    · rcases valid with rfl | rfl
      · refine ⟨getPhase state.phaseRotation .p1, ?_, factor_p1 (by decide) _⟩
        unfold getEnableCost
        simp only [beq_eq_false_iff_ne.mpr hrot]
        rfl
      · exact ⟨.l1, rfl, rfl⟩
  rw [hp, hget, hfactor, one_mul]

/-- On a grid phase the enable cost is the enable current if the charger uses it. -/
theorem enable_get_phase (hp : p ≠ .pv) :
    (getEnableCost state (phases == 3) haveActiveChargers cfg).enable.get p =
      (getPhaseFactors phases state.phaseRotation).get p *
        (getEnableCost state (phases == 3) haveActiveChargers cfg).enableCurrent := by
  obtain ⟨hfin, h1, h3⟩ := enableFactor_mem cfg haveActiveChargers
  rw [enable_get valid, enableCurrent_eq valid]
  rcases factor_eq_zero_or_one phases state.phaseRotation hp with h | h
  · rw [h, zero_mul, zero_mul, truncMul_zero hfin h1 h3]
  · rw [h, one_mul, one_mul]

/-- While no charger is active, the enable current is the minimum current. -/
theorem enableCurrent_idle :
    (getEnableCost state (phases == 3) false cfg).enableCurrent = minimumCurrent cfg phases := by
  have hmin := minimumCurrent_mem cfg phases
  obtain ⟨m, hm⟩ := Int.eq_ofNat_of_zero_le (minimumCurrent_pos cfg phases).le
  obtain ⟨hone, hval⟩ := ofInt_exact (show 1 < 2 ^ 24 by norm_num)
  have hvalue : value (Float32.Model.ofInt ((1 : ℕ) : ℤ)) = 1 := by rw [hval, Nat.cast_one]
  obtain ⟨hfin, hround⟩ := mul_ofInt hone hvalue.ge (by rw [hvalue]; norm_num)
    (show 0 < m by omega) (show 3 * m < 2 ^ 24 by omega)
  have hexact : value (Float32.Model.ofInt m * Float32.Model.ofInt ((1 : ℕ) : ℤ)) = ((m : ℤ) : ℚ) :=
    le_antisymm (hround.le_int (by omega) (by rw [hvalue]; simp))
      (hround.int_le (by omega) (by rw [hvalue]; simp))
  rw [enableCurrent_eq valid, hm]
  change (Float32.Model.ofInt m * Float32.Model.ofInt ((1 : ℕ) : ℤ)).toInt32.toInt = _
  have hlt : ((m : ℤ) : ℚ) < 2 ^ 31 := by exact_mod_cast (show (m : ℤ) < 2 ^ 31 by omega)
  rw [toInt32_eq_floor hfin (by rw [hexact]; positivity) (by rwa [hexact]), hexact,
    Int.floor_intCast]

theorem enableCurrent_mem : minimumCurrent cfg phases ≤
        (getEnableCost state (phases == 3) haveActiveChargers cfg).enableCurrent ∧
      (getEnableCost state (phases == 3) haveActiveChargers cfg).enableCurrent ≤
        3 * minimumCurrent cfg phases := by
  obtain ⟨hfin, h1, h3⟩ := enableFactor_mem cfg haveActiveChargers
  have hmin := minimumCurrent_mem cfg phases
  rw [enableCurrent_eq valid]
  exact truncMul_mem hfin h1 h3 (minimumCurrent_pos cfg phases).le (by omega)

end

end Esp32Firmware.ChargeManager
