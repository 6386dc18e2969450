import Mathlib.Data.List.TakeWhile
import Mathlib.Data.Nat.Digits.Lemmas

/-!
# Conversion between bases

Digits from the highest one on are read in one base and written in another one, with the leading
zeros kept as they are. The number grows by one digit of the first base at a time.
-/

namespace Esp32Firmware.RadixConversion

variable {b c m carry v : ℕ} {digits ds : List ℕ}

section

/-- Multiplies with `m` and adds a carry, digit by digit from the lowest one on. -/
def mulAdd (b m : ℕ) : List ℕ → ℕ → List ℕ × ℕ
  | [], carry => ([], carry)
  | digit :: rest, carry =>
    let cur := digit * m + carry
    let (rest', carry') := mulAdd b m rest (cur / b)
    (cur % b :: rest', carry')

theorem carry_lt (hdigits : ∀ d ∈ digits, d < b) (hcarry : carry < m) :
    (mulAdd b m digits carry).2 < m := by
  induction digits generalizing carry with
  | nil => exact hcarry
  | cons digit rest ih =>
    obtain ⟨hdigit, hrest⟩ := List.forall_mem_cons.mp hdigits
    apply ih hrest
    apply Nat.div_lt_of_lt_mul
    calc
      digit * m + carry < digit * m + m := Nat.add_lt_add_left hcarry _
      _ = (digit + 1) * m := (Nat.succ_mul digit m).symm
      _ ≤ b * m := Nat.mul_le_mul_right m hdigit

/-- The digits of the product, with those of the last carry behind them. -/
theorem digits_mulAdd (hb : 1 < b) (hm : 0 < m) :
    (mulAdd b m (Nat.digits b v) carry).1 ++ Nat.digits b (mulAdd b m (Nat.digits b v) carry).2 =
      Nat.digits b (v * m + carry) := by
  induction v using Nat.strong_induction_on generalizing carry with
  | _ v ih =>
    by_cases hv : v = 0
    · subst hv
      simp [mulAdd]
    · have hpos := Nat.pos_of_ne_zero hv
      have hsum : 0 < v * m + carry := Nat.add_pos_left (Nat.mul_pos hpos hm) carry
      have hsplit : v * m + carry = b * (v / b * m) + (v % b * m + carry) := by
        calc
          v * m + carry = (v % b + b * (v / b)) * m + carry := by rw [Nat.mod_add_div]
          _ = b * (v / b * m) + (v % b * m + carry) := by ring
      have hmod : (v * m + carry) % b = (v % b * m + carry) % b := by
        rw [hsplit, Nat.mul_add_mod]
      have hdiv : (v * m + carry) / b = v / b * m + (v % b * m + carry) / b := by
        rw [hsplit, Nat.mul_add_div (Nat.zero_lt_of_lt hb)]
      rw [Nat.digits_def' hb hpos, Nat.digits_def' hb hsum, hmod, hdiv,
        ← ih (v / b) (Nat.div_lt_self hpos hb)]
      rfl

end

/-- The number that digits from the highest one on denote. -/
def ofBig (b : ℕ) (ds : List ℕ) : ℕ := Nat.ofDigits b ds.reverse

@[simp] theorem ofBig_nil : ofBig b [] = 0 := rfl

theorem ofBig_append : ofBig b (digits ++ ds) = ofBig b digits * b ^ ds.length + ofBig b ds := by
  rw [ofBig, ofBig, ofBig, List.reverse_append, Nat.ofDigits_append, List.length_reverse]
  ring

theorem ofBig_cons : ofBig b (v :: ds) = v * b ^ ds.length + ofBig b ds := by
  rw [← List.singleton_append, ofBig_append, ofBig, List.reverse_singleton, Nat.ofDigits_singleton]

theorem ofBig_digits : ofBig b (Nat.digits b v).reverse = v := by
  rw [ofBig, List.reverse_reverse, Nat.ofDigits_digits]

theorem ofBig_zeros (hzeros : ∀ d ∈ digits, d = 0) : ofBig b (digits ++ ds) = ofBig b ds := by
  rw [List.eq_replicate_of_mem hzeros, ofBig_append, ofBig, List.reverse_replicate,
    Nat.ofDigits_replicate_zero, Nat.zero_mul, Nat.zero_add]

/-- The digits of a number without leading zeros. -/
theorem digits_ofBig (hb : 1 < b) (hds : ∀ d ∈ ds, d < b) (hhead : ds.head? ≠ some 0) :
    (Nat.digits b (ofBig b ds)).reverse = ds := by
  rw [ofBig, Nat.digits_ofDigits b hb, List.reverse_reverse]
  · exact fun d hd => hds d (List.mem_reverse.mp hd)
  · intro hne hlast
    rw [List.getLast_reverse] at hlast
    exact hhead ((List.head?_eq_some_head _).trans (congrArg some hlast))

theorem head_digits_ne : (Nat.digits b v).reverse.head? ≠ some 0 := by
  rw [List.head?_reverse]
  by_cases hv : v = 0
  · rw [hv, Nat.digits_zero]
    exact Option.some_ne_none 0 ∘ Eq.symm
  · rw [List.getLast?_eq_some_getLast (Nat.digits_ne_nil_iff_ne_zero.mpr hv)]
    exact fun h => Nat.getLast_digit_ne_zero b hv (Option.some.inj h)

theorem zeros_takeWhile : ∀ d ∈ ds.takeWhile (· == 0), d = 0 := fun d hd => by
  simpa using List.mem_takeWhile_imp hd

theorem head_dropWhile_ne : (ds.dropWhile (· == 0)).head? ≠ some 0 := by
  intro h
  have hnot := List.head?_dropWhile_not (· == 0) ds
  rw [h] at hnot
  simp at hnot

theorem takeWhile_eq_nil (hhead : ds.head? ≠ some 0) : ds.takeWhile (· == 0) = [] := by
  cases ds with
  | nil => rfl
  | cons d rest => exact List.takeWhile_cons_of_neg (by simpa using hhead)

theorem ofBig_dropWhile : ofBig b (ds.dropWhile (· == 0)) = ofBig b ds := by
  rw [← @ofBig_zeros b _ (ds.dropWhile (· == 0)) zeros_takeWhile, List.takeWhile_append_dropWhile]

/-- The digits in base `c` behind the leading zeros of those in base `b`. -/
def convert (b c : ℕ) (ds : List ℕ) : List ℕ :=
  ds.takeWhile (· == 0) ++ (Nat.digits c (ofBig b ds)).reverse

theorem convert_lt (hc : 1 < c) : ∀ d ∈ convert b c ds, d < c := by
  intro d hd
  rcases List.mem_append.mp hd with hzero | hdigit
  · exact (zeros_takeWhile d hzero).trans_lt (Nat.zero_lt_of_lt hc)
  · exact Nat.digits_lt_base hc (List.mem_reverse.mp hdigit)

theorem takeWhile_convert : (convert b c ds).takeWhile (· == 0) = ds.takeWhile (· == 0) := by
  have hzeros : ∀ d ∈ ds.takeWhile (· == 0), (d == 0) = true := fun d hd =>
    beq_iff_eq.mpr (zeros_takeWhile d hd)
  rw [convert, List.takeWhile_append_of_pos hzeros,
    takeWhile_eq_nil head_digits_ne, List.append_nil]

theorem ofBig_convert : ofBig c (convert b c ds) = ofBig b ds := by
  rw [convert, ofBig_zeros zeros_takeWhile, ofBig_digits]

/-- What was converted is converted back. -/
theorem convert_convert (hb : 1 < b) (hds : ∀ d ∈ ds, d < b) :
    convert c b (convert b c ds) = ds := by
  have hrest : ∀ d ∈ ds.dropWhile (· == 0), d < b := fun d hd =>
    hds d ((List.dropWhile_sublist _).subset hd)
  rw [convert, takeWhile_convert, ofBig_convert, ← ofBig_dropWhile,
    digits_ofBig hb hrest head_dropWhile_ne, List.takeWhile_append_dropWhile]

theorem convert_nil : convert b c [] = [] := by
  rw [convert, ofBig_nil, Nat.digits_zero, List.takeWhile_nil, List.reverse_nil, List.append_nil]

theorem convert_eq_nil_iff (hb : 1 < b) (hds : ∀ d ∈ ds, d < b) :
    convert b c ds = [] ↔ ds = [] := by
  constructor
  · intro h
    rw [← convert_convert (c := c) hb hds, h, convert_nil]
  · rintro rfl
    exact convert_nil

end Esp32Firmware.RadixConversion
