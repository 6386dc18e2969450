import Esp32Firmware.Eebus.CoordinatedCharging
import Esp32Firmware.Library.CivilDates

/-!
# ISO 8601 times

Durations and timestamps of EEBUS messages. A duration is read with a checked arithmetic first,
which is what the loop computes as long as nothing overflows.

## Implementation notes

The C library is the one of a place with a standard offset from UTC: `mktime` with `tm_isdst` 0
takes a time as standard time. Numbers of a timestamp are read as long as there are digits.
-/

namespace Esp32Firmware.Eebus.CoordinatedCharging

open CivilDates (StructTm gmtime utc_gmtime)

section

/-- `none` if the value does not fit. -/
def checked (bits : ℕ) (x : ℤ) : Option ℤ :=
  if -2 ^ (bits - 1) ≤ x ∧ x < 2 ^ (bits - 1) then some x else none

/-- The seconds of a unit, before and behind the `T`. -/
def unitSeconds (inTimePart : Bool) (c : Char) : ℤ :=
  if inTimePart then
    if c = 'H' then 3600 else if c = 'M' then 60 else if c = 'S' then 1 else 0
  else if c = 'Y' then 31536000 else if c = 'M' then 2592000 else if c = 'D' then 86400 else 0

/-- The loop of `iso_duration_to_seconds`; `none` is an overflow. -/
def durationLoop : List Char → Bool → ℤ → ℤ → Option ℤ
  | [], _, _, durationSeconds => some durationSeconds
  | c :: rest, inTimePart, accumulated, durationSeconds =>
    if c = 'P' then durationLoop rest inTimePart accumulated durationSeconds
    else if c = 'T' then durationLoop rest true 0 durationSeconds
    else if '0' ≤ c ∧ c ≤ '9' then
      (checked 32 (accumulated * 10)).bind fun shifted =>
        (checked 32 (shifted + (c.toNat - '0'.toNat : ℕ))).bind fun next =>
          durationLoop rest inTimePart next durationSeconds
    else
      (checked 32 (accumulated * unitSeconds inTimePart c)).bind fun product =>
        (checked 64 (durationSeconds + product)).bind fun sum =>
          durationLoop rest inTimePart 0 sum

def isoDurationChecked (isoDuration : String) : Option ℤ :=
  durationLoop isoDuration.toList false 0 0

/-- `iso_duration_to_string` -/
def isoDurationToString (duration : ℕ) : String :=
  let (n, unit) := if duration % 60 = 0 then (duration / 60, "M") else (duration, "S")
  let (n, unit) := if n % 60 = 0 then (n / 60, "H") else (n, unit)
  "PT" ++ toString n ++ unit

theorem eq_of_checked {bits : ℕ} {x y : ℤ} (h : checked bits x = some y) :
    y = x ∧ -2 ^ (bits - 1) ≤ x ∧ x < 2 ^ (bits - 1) := by
  rw [checked] at h
  split_ifs at h with hfits
  exact ⟨(Option.some.inj h).symm, hfits⟩

theorem toInt_mul_of_fits {a b : Int32} (h : -2 ^ 31 ≤ a.toInt * b.toInt)
    (h' : a.toInt * b.toInt < 2 ^ 31) : (a * b).toInt = a.toInt * b.toInt := by
  rw [Int32.toInt_mul, Int.bmod_eq_of_le (by omega) (by omega)]

theorem toInt_add_of_fits {a b : Int32} (h : -2 ^ 31 ≤ a.toInt + b.toInt)
    (h' : a.toInt + b.toInt < 2 ^ 31) : (a + b).toInt = a.toInt + b.toInt := by
  rw [Int32.toInt_add, Int.bmod_eq_of_le (by omega) (by omega)]

def unit32 (inTimePart : Bool) (c : Char) : Int32 :=
  if inTimePart then
    if c = 'H' then 3600 else if c = 'M' then 60 else if c = 'S' then 1 else 0
  else if c = 'Y' then 31536000 else if c = 'M' then 2592000 else if c = 'D' then 86400 else 0

theorem toInt_unit32 (inTimePart : Bool) (c : Char) :
    (unit32 inTimePart c).toInt = unitSeconds inTimePart c := by
  rw [unit32, unitSeconds]
  split_ifs <;> rfl

/-- Without an overflow, the loop of the code gives the same. -/
theorem durationSeconds_eq (text : List Char) (inTimePart : Bool) (accumulated : Int32)
    (durationSeconds : Int64) {v : ℤ}
    (h : durationLoop text inTimePart accumulated.toInt durationSeconds.toInt = some v) :
    (Toolchain.durationSeconds text inTimePart accumulated durationSeconds).toInt = v := by
  induction text generalizing inTimePart accumulated durationSeconds with
  | nil => exact Option.some.inj h
  | cons c rest ih =>
    rw [durationLoop] at h
    rw [Toolchain.durationSeconds]
    by_cases hP : c = 'P'
    · rw [if_pos hP] at h ⊢
      exact ih _ _ _ h
    rw [if_neg hP] at h ⊢
    by_cases hT : c = 'T'
    · rw [if_pos hT] at h ⊢
      exact ih _ _ _ h
    rw [if_neg hT] at h ⊢
    by_cases hdigit : '0' ≤ c ∧ c ≤ '9'
    · rw [if_pos hdigit] at h ⊢
      obtain ⟨shifted, hshifted, h⟩ := Option.bind_eq_some_iff.1 h
      obtain ⟨next, hnext, h⟩ := Option.bind_eq_some_iff.1 h
      obtain ⟨rfl, hlow, hhigh⟩ := eq_of_checked hshifted
      obtain ⟨rfl, hlow', hhigh'⟩ := eq_of_checked hnext
      have hmul : (accumulated * 10).toInt = accumulated.toInt * 10 :=
        toInt_mul_of_fits hlow hhigh
      have hvalue : (Int32.ofNat (c.toNat - '0'.toNat)).toInt = (c.toNat - '0'.toNat : ℕ) := by
        have hnine : c.toNat ≤ '9'.toNat := UInt32.le_iff_toNat_le.1 hdigit.2
        apply Int32.toInt_ofNat_of_lt
        simp only [Char.reduceToNat] at hnine ⊢
        omega
      apply ih
      rw [toInt_add_of_fits (by rw [hmul, hvalue]; exact hlow') (by rw [hmul, hvalue]; exact hhigh'),
        hmul, hvalue]
      exact h
    rw [if_neg hdigit] at h ⊢
    obtain ⟨product, hproduct, h⟩ := Option.bind_eq_some_iff.1 h
    obtain ⟨sum, hsum, h⟩ := Option.bind_eq_some_iff.1 h
    obtain ⟨rfl, hlow, hhigh⟩ := eq_of_checked hproduct
    obtain ⟨rfl, hlow', hhigh'⟩ := eq_of_checked hsum
    change (Toolchain.durationSeconds rest inTimePart 0
      (durationSeconds + (accumulated * unit32 inTimePart c).toInt64)).toInt = v
    rw [← toInt_unit32] at hlow hhigh hlow' hhigh' h
    have hmul := toInt_mul_of_fits hlow hhigh
    apply ih
    rw [Int64.toInt_add, Int32.toInt_toInt64, hmul, Int.bmod_eq_of_le (by omega) (by omega)]
    exact h

/-- `iso_duration_to_seconds` gives what the checked arithmetic gives. -/
theorem isoDurationToSeconds_eq {isoDuration : String} {v : ℤ}
    (h : isoDurationChecked isoDuration = some v) :
    Toolchain.isoDurationToSeconds isoDuration = v :=
  durationSeconds_eq _ _ _ _ h

end

section

/-- The digits of a number. -/
structure Numeral where
  digits : List Char
  isDigit : ∀ c ∈ digits, c.isDigit
  ne_nil : digits ≠ []

def Numeral.value (n : Numeral) : ℕ := Nat.ofDigitChars 10 n.digits 0

/-- An `xs:duration`; the seconds may have a fraction. -/
structure Duration where
  negative : Bool := false
  years : Option Numeral := none
  months : Option Numeral := none
  days : Option Numeral := none
  hours : Option Numeral := none
  minutes : Option Numeral := none
  seconds : Option (Numeral × Option Numeral) := none

/-- A component with its unit. -/
def component (n : Option Numeral) (unit : Char) : List Char :=
  match n with
  | none => []
  | some n => n.digits ++ [unit]

def valueOf (n : Option Numeral) : ℕ :=
  match n with
  | none => 0
  | some n => n.value

namespace Duration

variable (d : Duration)

def secondsText : List Char :=
  match d.seconds with
  | none => []
  | some (n, none) => n.digits ++ ['S']
  | some (n, some fraction) => n.digits ++ '.' :: (fraction.digits ++ ['S'])

def timeText : List Char :=
  component d.hours 'H' ++ (component d.minutes 'M' ++ d.secondsText)

def unsignedText : List Char :=
  'P' :: (component d.years 'Y' ++ (component d.months 'M' ++ (component d.days 'D' ++
    if d.timeText = [] then [] else 'T' :: d.timeText)))

def text : List Char := if d.negative then '-' :: d.unsignedText else d.unsignedText

/-- The seconds of all components but the last one. -/
def base : ℕ :=
  valueOf d.years * 31536000 + valueOf d.months * 2592000 + valueOf d.days * 86400 +
    valueOf d.hours * 3600 + valueOf d.minutes * 60

def wholeSeconds : ℕ := valueOf (d.seconds.map Prod.fst)

/-- The fraction as a number, where there is one. -/
def fraction : Option Numeral := d.seconds.bind Prod.snd

def magnitude : ℕ := d.base + d.wholeSeconds

/-- The whole seconds that are denoted. -/
def denoted : ℤ := if d.negative then -d.magnitude else d.magnitude

/-- What is added for the seconds. -/
def readSeconds : ℕ :=
  match d.fraction with
  | none => d.wholeSeconds
  | some fraction => fraction.value

end Duration

variable {t : Bool} {total : ℤ} {c : Char} {rest : List Char}

theorem le_ofDigitChars (cs : List Char) (n : ℕ) : n ≤ Nat.ofDigitChars 10 cs n := by
  induction cs generalizing n with
  | nil => simp
  | cons c cs ih =>
    rw [Nat.ofDigitChars_cons]
    exact le_trans (by omega) (ih _)

theorem checked_of_fits {bits : ℕ} {x : ℤ} (h : -2 ^ (bits - 1) ≤ x) (h' : x < 2 ^ (bits - 1)) :
    checked bits x = some x := if_pos ⟨h, h'⟩

theorem digit_ne {d : Char} (hc : c.isDigit) (hd : d.isDigit = false) : c ≠ d := by
  rintro rfl
  rw [hc] at hd
  cases hd

theorem isDigit_iff : c.isDigit ↔ '0' ≤ c ∧ c ≤ '9' := by
  simp [Char.isDigit, Char.le_def]

/-- A number is accumulated as long as it fits. -/
theorem durationLoop_digits {cs : List Char} (hdigits : ∀ c ∈ cs, c.isDigit) {n : ℕ}
    (hfits : n < 2 ^ 31) :
    durationLoop (cs ++ rest) t n total =
      if Nat.ofDigitChars 10 cs n < 2 ^ 31 then
        durationLoop rest t (Nat.ofDigitChars 10 cs n : ℕ) total
      else none := by
  induction cs generalizing n with
  | nil => rw [Nat.ofDigitChars_nil, if_pos hfits, List.nil_append]
  | cons c cs ih =>
    have hc := hdigits c (by simp)
    have hle := le_ofDigitChars cs (10 * n + (c.toNat - '0'.toNat))
    rw [List.cons_append, durationLoop, if_neg (digit_ne hc (by decide)),
      if_neg (digit_ne hc (by decide)), if_pos (isDigit_iff.1 hc), Nat.ofDigitChars_cons]
    by_cases hnext : 10 * n + (c.toNat - '0'.toNat) < 2 ^ 31
    · rw [checked_of_fits (by omega) (by omega), Option.bind_some,
        checked_of_fits (by omega) (by omega), Option.bind_some,
        ← ih (fun c hc => hdigits c (by simp [hc])) hnext]
      congr 1
      omega
    · rw [if_neg (by omega)]
      by_cases hshift : 10 * n < 2 ^ 31
      · rw [checked_of_fits (by omega) (by omega), Option.bind_some, checked, if_neg (by omega),
          Option.bind_none]
      · rw [checked, if_neg (by omega), Option.bind_none]

/-- Behind a number its unit is added. -/
theorem durationLoop_unit (hP : c ≠ 'P') (hT : c ≠ 'T') (hdigit : c.isDigit = false) {n : ℕ}
    {sum : ℕ} (hsum : (n : ℤ) * unitSeconds t c < 2 ^ 31) (hunit : 0 ≤ unitSeconds t c)
    (htotal : sum < 2 ^ 31) :
    durationLoop (c :: rest) t n sum = durationLoop rest t 0 (sum + n * unitSeconds t c) := by
  have hnot : ¬('0' ≤ c ∧ c ≤ '9') := by
    rw [← isDigit_iff, hdigit]
    simp
  have hpos : 0 ≤ (n : ℤ) * unitSeconds t c := Int.mul_nonneg (by omega) hunit
  rw [durationLoop, if_neg hP, if_neg hT, if_neg hnot, checked_of_fits (by omega) (by omega),
    Option.bind_some, checked_of_fits (by omega) (by omega), Option.bind_some]

theorem durationLoop_component (n : Option Numeral) {unit : ℕ} (hunit : unitSeconds t c = unit)
    (hpos : 0 < unit) (hP : c ≠ 'P') (hT : c ≠ 'T') (hdigit : c.isDigit = false) {sum : ℕ}
    (hfits : sum + valueOf n * unit < 2 ^ 31) :
    durationLoop (component n c ++ rest) t 0 sum =
      durationLoop rest t 0 ((sum + valueOf n * unit : ℕ) : ℤ) := by
  cases n with
  | none => simp [component, valueOf]
  | some n =>
    have hvalue : n.value ≤ n.value * unit := Nat.le_mul_of_pos_right _ hpos
    rw [valueOf] at hfits ⊢
    have hprod : ((n.value : ℕ) : ℤ) * unitSeconds t c < 2 ^ 31 := by
      rw [hunit]
      omega
    have hread := @durationLoop_digits t (sum : ℤ) (c :: rest) n.digits n.isDigit 0 (by omega)
    rw [component, List.append_assoc, List.singleton_append]
    rw [if_pos (show Nat.ofDigitChars 10 n.digits 0 < 2 ^ 31 by
      change n.value < 2 ^ 31
      omega)] at hread
    refine hread.trans ?_
    change durationLoop (c :: rest) t (n.value : ℕ) sum = _
    rw [durationLoop_unit hP hT hdigit hprod (by omega) (by omega), hunit]
    congr 1

theorem durationLoop_numeral (n : Numeral) (t : Bool) (total : ℤ) (rest : List Char) :
    durationLoop (n.digits ++ rest) t 0 total =
      if n.value < 2 ^ 31 then durationLoop rest t n.value total else none :=
  durationLoop_digits n.isDigit (by decide)

variable (d : Duration)

/-- A fraction takes the place of the seconds. -/
theorem durationLoop_secondsText {sum : ℕ} (hfits : sum + d.wholeSeconds < 2 ^ 31) :
    durationLoop d.secondsText true 0 sum =
      if d.readSeconds < 2 ^ 31 then some ((sum + d.readSeconds : ℕ) : ℤ) else none := by
  have hread : ∀ n : ℕ, n < 2 ^ 31 → durationLoop ['S'] true n sum = some ((sum + n : ℕ) : ℤ) := by
    intro n hn
    have hunit : unitSeconds true 'S' = 1 := rfl
    rw [durationLoop_unit (by decide) (by decide) (by decide) (by rw [hunit]; omega) (by decide)
      (by omega), durationLoop, hunit]
    congr 1
    omega
  rw [Duration.wholeSeconds] at hfits
  rw [Duration.secondsText, Duration.readSeconds, Duration.fraction, Duration.wholeSeconds]
  cases hseconds : d.seconds with
  | none => simp [durationLoop, valueOf]
  | some seconds =>
    obtain ⟨n, fraction⟩ := seconds
    rw [hseconds] at hfits
    have hn : n.value < 2 ^ 31 := by
      simp only [Option.map_some, valueOf] at hfits
      omega
    cases fraction with
    | none =>
      change durationLoop (n.digits ++ ['S']) true 0 sum = if n.value < 2 ^ 31 then _ else _
      rw [durationLoop_numeral, if_pos hn, if_pos hn]
      exact hread _ hn
    | some fraction =>
      change durationLoop (n.digits ++ '.' :: (fraction.digits ++ ['S'])) true 0 sum =
        if fraction.value < 2 ^ 31 then _ else _
      have hdot : unitSeconds true '.' = 0 := rfl
      rw [durationLoop_numeral, if_pos hn,
        durationLoop_unit (by decide) (by decide) (by decide) (by rw [hdot]; omega) (by decide)
          (by omega), hdot, Int.mul_zero, Int.add_zero, durationLoop_numeral]
      split_ifs with hfraction
      · exact hread _ hfraction
      · rfl

theorem durationLoop_time (timeText : List Char) (total : ℤ) :
    durationLoop (if timeText = [] then [] else 'T' :: timeText) false 0 total =
      durationLoop timeText true 0 total := by
  split_ifs with h
  · rw [h, durationLoop, durationLoop]
  · rw [durationLoop, if_neg (by decide), if_pos rfl]

theorem durationLoop_sign :
    durationLoop d.text false 0 0 = durationLoop d.unsignedText false 0 0 := by
  rw [Duration.text]
  split_ifs with hnegative
  · exact @durationLoop_unit false '-' _ (by decide) (by decide) (by decide) 0 0 (by decide)
      (by decide) (by decide)
  · rfl

/-- What the loop makes of a duration. -/
theorem durationLoop_text (hfits : d.magnitude < 2 ^ 31) :
    durationLoop d.text false 0 0 =
      if d.readSeconds < 2 ^ 31 then some ((d.base + d.readSeconds : ℕ) : ℤ) else none := by
  rw [Duration.magnitude, Duration.base] at hfits
  rw [durationLoop_sign, Duration.unsignedText, durationLoop, if_pos rfl]
  have hyears := @durationLoop_component false 'Y' (component d.months 'M' ++
    (component d.days 'D' ++ if d.timeText = [] then [] else 'T' :: d.timeText)) d.years 31536000
    rfl (by decide) (by decide) (by decide) (by decide) 0 (by omega)
  rw [Nat.cast_zero] at hyears
  rw [hyears, @durationLoop_component false 'M' _ d.months 2592000 rfl (by decide) (by decide)
      (by decide) (by decide) _ (by omega),
    @durationLoop_component false 'D' _ d.days 86400 rfl (by decide) (by decide) (by decide)
      (by decide) _ (by omega), durationLoop_time, Duration.timeText,
    @durationLoop_component true 'H' _ d.hours 3600 rfl (by decide) (by decide) (by decide)
      (by decide) _ (by omega),
    @durationLoop_component true 'M' _ d.minutes 60 rfl (by decide) (by decide) (by decide)
      (by decide) _ (by omega), durationLoop_secondsText d (by omega), Duration.base]
  congr 3
  omega

/-- A duration is read as written if its fraction says the same as its seconds and it is not below
zero. -/
theorem isoDurationChecked_text_iff (hfits : d.magnitude < 2 ^ 31) :
    isoDurationChecked (String.ofList d.text) = some d.denoted ↔
      (∀ fraction ∈ d.fraction, fraction.value = d.wholeSeconds) ∧
        (d.negative → d.magnitude = 0) := by
  rw [isoDurationChecked, String.toList_ofList, durationLoop_text d hfits]
  have hmagnitude : d.magnitude = d.base + d.wholeSeconds := rfl
  rw [Duration.denoted]
  cases hfraction : d.fraction with
  | none =>
    have hread : d.readSeconds = d.wholeSeconds := by rw [Duration.readSeconds, hfraction]
    rw [hread, if_pos (by omega), Option.some_inj]
    simp only [Option.mem_def, reduceCtorEq, false_imp_iff, implies_true, true_and]
    split_ifs with hnegative
    · rw [imp_iff_right hnegative]
      omega
    · exact iff_of_true (by rw [hmagnitude]) fun h => absurd h hnegative
  | some fraction =>
    have hread : d.readSeconds = fraction.value := by rw [Duration.readSeconds, hfraction]
    have hmem : (∀ f ∈ some fraction, f.value = d.wholeSeconds) ↔
        fraction.value = d.wholeSeconds := by simp
    rw [hread, hmem]
    by_cases hfits' : fraction.value < 2 ^ 31
    · rw [if_pos hfits', Option.some_inj]
      split_ifs with hnegative
      · rw [imp_iff_right hnegative]
        omega
      · have hnot : d.negative → d.magnitude = 0 := fun h => absurd h hnegative
        rw [and_iff_left hnot]
        omega
    · rw [if_neg hfits']
      refine iff_of_false (by simp) fun h => ?_
      omega

/-- `std::to_string` -/
def numeralOf (n : ℕ) : Numeral where
  digits := Nat.toDigits 10 n
  isDigit _ hc := Nat.isDigit_of_mem_toDigits (by omega) (by omega) hc
  ne_nil := Nat.toDigits_ne_nil

/-- A duration that is written here is read back. -/
theorem isoDurationChecked_toString {duration : ℕ} (hfits : duration < 2 ^ 31) :
    isoDurationChecked (isoDurationToString duration) = some (duration : ℤ) := by
  have hread : ∀ (n : ℕ) (c : Char) (unit : ℕ), unitSeconds true c = unit → 0 < unit → c ≠ 'P' →
      c ≠ 'T' → c.isDigit = false → n * unit < 2 ^ 31 →
        isoDurationChecked ("PT" ++ toString n ++ String.singleton c) =
          some ((n * unit : ℕ) : ℤ) := by
    intro n c unit hunit hpos hP hT hdigit hprod
    have htext : ("PT" ++ toString n ++ String.singleton c).toList =
        'P' :: 'T' :: (component (some (numeralOf n)) c ++ []) := by
      simp [component, numeralOf]
    have hvalue : valueOf (some (numeralOf n)) = n := Nat.ofDigitChars_ten_toDigits
    have hloop := @durationLoop_component true c [] (some (numeralOf n)) unit hunit hpos hP hT
      hdigit 0 (by rw [hvalue]; omega)
    rw [isoDurationChecked, htext, durationLoop, if_pos rfl, durationLoop, if_neg (by decide),
      if_pos rfl]
    rw [hvalue, Nat.zero_add, Nat.cast_zero] at hloop
    rw [hloop, durationLoop]
  rw [isoDurationToString]
  by_cases hminutes : duration % 60 = 0
  · by_cases hhours : duration / 60 % 60 = 0
    · simp only [hminutes, hhours, if_true]
      refine (hread (duration / 60 / 60) 'H' 3600 rfl (by decide) (by decide) (by decide)
        (by decide) (by omega)).trans (congrArg some ?_)
      omega
    · simp only [hminutes, hhours, if_true, if_false]
      refine (hread (duration / 60) 'M' 60 rfl (by decide) (by decide) (by decide)
        (by decide) (by omega)).trans (congrArg some ?_)
      omega
  · simp only [hminutes, if_false]
    refine (hread duration 'S' 1 rfl (by decide) (by decide) (by decide)
      (by decide) (by omega)).trans (congrArg some ?_)
    omega

end

/-- The number in front and what follows it. -/
def number (s : List Char) : Option (ℕ × List Char) :=
  if s.takeWhile Char.isDigit = [] then none
  else some (Nat.ofDigitChars 10 (s.takeWhile Char.isDigit) 0, s.dropWhile Char.isDigit)

/-- A number and the character behind it. -/
def numberThen (c : Char) (s : List Char) : Option (ℕ × List Char) :=
  (number s).bind fun n => if n.2.head? = some c then some (n.1, n.2.tail) else none

/-- `strptime` with `%Y-%m-%dT%H:%M:%S` -/
def strptime (s : List Char) : Option StructTm :=
  (numberThen '-' s).bind fun year =>
    (numberThen '-' year.2).bind fun month =>
      (numberThen 'T' month.2).bind fun mday =>
        (numberThen ':' mday.2).bind fun hour =>
          (numberThen ':' hour.2).bind fun min =>
            (number min.2).bind fun sec =>
              some
                { sec := sec.1
                  min := min.1
                  hour := hour.1
                  mday := mday.1
                  mon := month.1 - 1
                  year := year.1 - 1900 }

/-- `mktime` of a time that is standard time. -/
def mktime (offset : ℤ) (tm : StructTm) : ℤ := tm.utc - offset

/-- The C library of a place that is `offset` seconds ahead of UTC in winter. -/
def Toolchain.at (tool : Toolchain) (offset : ℤ) : Toolchain :=
  { tool with
    Tm := StructTm
    strptime := fun s => CoordinatedCharging.strptime s.toList
    clearIsdst := fun tm => { tm with isdst := false }
    mktime := CoordinatedCharging.mktime offset
    gmtime := CivilDates.gmtime }

inductive TimeZone where
  | utc
  | offset (negative : Bool) (hours minutes : Numeral)

namespace TimeZone

def text : TimeZone → List Char
  | utc => ['Z']
  | offset negative hours minutes =>
    (if negative then '-' else '+') :: (hours.digits ++ ':' :: minutes.digits)

/-- The seconds that the zone is ahead of UTC. -/
def seconds : TimeZone → ℤ
  | utc => 0
  | offset negative hours minutes =>
    let ahead : ℤ := hours.value * 3600 + minutes.value * 60
    if negative then -ahead else ahead

end TimeZone

structure Timestamp where
  year : Numeral
  month : Numeral
  day : Numeral
  hour : Numeral
  minute : Numeral
  second : Numeral
  zone : TimeZone

namespace Timestamp

variable (ts : Timestamp)

def text : List Char :=
  ts.year.digits ++ '-' :: (ts.month.digits ++ '-' :: (ts.day.digits ++ 'T' ::
    (ts.hour.digits ++ ':' :: (ts.minute.digits ++ ':' :: (ts.second.digits ++ ts.zone.text)))))

/-- The instant in seconds since 1970-01-01 in UTC. -/
def instant : ℤ :=
  (CivilDates.Date.mk ts.year.value ts.month.value ts.day.value).days * 86400 +
    ts.hour.value * 3600 + ts.minute.value * 60 + ts.second.value - ts.zone.seconds

end Timestamp

theorem number_digits (n : Numeral) {rest : List Char}
    (hrest : ∀ c ∈ rest.head?, c.isDigit = false) :
    number (n.digits ++ rest) = some (n.value, rest) := by
  have htake : (n.digits ++ rest).takeWhile Char.isDigit = n.digits := by
    rw [List.takeWhile_append_of_pos n.isDigit]
    cases rest with
    | nil => simp
    | cons c rest => simp [hrest c rfl]
  have hdrop : (n.digits ++ rest).dropWhile Char.isDigit = rest := by
    rw [List.dropWhile_append_of_pos n.isDigit]
    cases rest with
    | nil => simp
    | cons c rest => simp [hrest c rfl]
  rw [number, htake, hdrop, if_neg n.ne_nil]
  rfl

theorem numberThen_digits (n : Numeral) {c : Char} (hc : c.isDigit = false) (rest : List Char) :
    numberThen c (n.digits ++ c :: rest) = some (n.value, rest) := by
  rw [numberThen, number_digits n (by simpa using hc)]
  simp

theorem isoTimestampToUnix_text (tool : Toolchain) (offset : ℤ) (ts : Timestamp) :
    (tool.at offset).isoTimestampToUnix (String.ofList ts.text) =
      some (ts.instant + ts.zone.seconds) := by
  have hzone : ∀ c ∈ ts.zone.text.head?, c.isDigit = false := by
    cases ts.zone with
    | utc => simp [TimeZone.text]
    | offset negative hours minutes => cases negative <;> simp [TimeZone.text]
  have hparse : CoordinatedCharging.strptime ts.text = some ⟨ts.second.value, ts.minute.value,
      ts.hour.value, ts.day.value, ts.month.value - 1, ts.year.value - 1900, 0, false⟩ := by
    have hminus := fun n => numberThen_digits n (c := '-') (by decide)
    have hcolon := fun n => numberThen_digits n (c := ':') (by decide)
    rw [CoordinatedCharging.strptime, Timestamp.text, hminus, Option.bind_some, hminus,
      Option.bind_some, numberThen_digits _ (by decide), Option.bind_some, hcolon,
      Option.bind_some, hcolon, Option.bind_some, number_digits _ hzone, Option.bind_some]
  have hmap : (tool.at offset).isoTimestampToUnix (String.ofList ts.text) =
      (CoordinatedCharging.strptime ts.text).map fun tm =>
        mktime offset tm + (mktime offset tm - mktime offset (gmtime (mktime offset tm))) := by
    rw [Toolchain.isoTimestampToUnix]
    change (CoordinatedCharging.strptime (String.ofList ts.text).toList).map _ = _
    rw [String.toList_ofList]
    rfl
  rw [hmap, hparse, Option.map_some, Option.some_inj, mktime, mktime, utc_gmtime, StructTm.utc,
    Timestamp.instant]
  simp only [Int.sub_add_cancel]
  omega

theorem isoTimestampToUnix_iff (tool : Toolchain) (offset : ℤ) (ts : Timestamp) :
    (tool.at offset).isoTimestampToUnix (String.ofList ts.text) = some ts.instant ↔
      ts.zone.seconds = 0 := by
  rw [isoTimestampToUnix_text, Option.some_inj]
  omega

/-- Durations that are written here are read back; any other one is read as written exactly if its
fraction repeats its seconds and it is not below zero, and a timestamp exactly if it is in UTC. -/
theorem iso_times (duration : ℕ) (d : Duration) :
    (duration < 2 ^ 31 →
      isoDurationChecked (isoDurationToString duration) = some (duration : ℤ)) ∧
    (d.magnitude < 2 ^ 31 →
      (isoDurationChecked (String.ofList d.text) = some d.denoted ↔
        (∀ fraction ∈ d.fraction, fraction.value = d.wholeSeconds) ∧
          (d.negative → d.magnitude = 0))) ∧
    ∀ (tool : Toolchain) (offset : ℤ) (ts : Timestamp),
      (tool.at offset).isoTimestampToUnix (String.ofList ts.text) = some ts.instant ↔
        ts.zone.seconds = 0 :=
  ⟨fun hfits => isoDurationChecked_toString hfits,
    fun hfits => isoDurationChecked_text_iff d hfits, isoTimestampToUnix_iff⟩

/-- Two hours and five and a half seconds. -/
def twoHours : Duration where
  hours := some (numeralOf 2)
  seconds := some (numeralOf 5, some (numeralOf 5))

/-- `2024-11-10T12:30:45Z` -/
def november : Timestamp :=
  ⟨numeralOf 2024, numeralOf 11, numeralOf 10, numeralOf 12, numeralOf 30, numeralOf 45, .utc⟩

/-- A duration whose fraction repeats its seconds, and a timestamp in UTC, are read as written. -/
theorem iso_times_two_hours :
    isoDurationChecked (isoDurationToString 7200) = some 7200 ∧
      isoDurationChecked (String.ofList twoHours.text) = some 7205 ∧
        (utcToolchain.at 3600).isoTimestampToUnix (String.ofList november.text) =
          some 1731241845 := by
  refine ⟨(iso_times 7200 twoHours).1 (by decide), ((iso_times 0 twoHours).2.1 (by decide)).2
    ⟨?_, Bool.noConfusion⟩, ((iso_times 0 twoHours).2.2 utcToolchain 3600 november).2 rfl⟩
  intro fraction hfraction
  cases hfraction
  rfl

/-- One and a half seconds are read as five. -/
theorem fraction_replaces_seconds :
    ¬∀ d : Duration, d.magnitude < 2 ^ 31 →
      isoDurationChecked (String.ofList d.text) = some d.denoted := by
  intro h
  have hread := h { seconds := some (numeralOf 1, some (numeralOf 5)) : Duration } (by decide)
  revert hread
  decide

end Esp32Firmware.Eebus.CoordinatedCharging
