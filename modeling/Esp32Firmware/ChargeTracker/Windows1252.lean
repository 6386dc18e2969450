import Mathlib

/-!
# The Windows-1252 conversion of the CSV charge log

The loop goes on by what the decoder consumed, or by the errno that it returned: back to an
earlier byte, or beyond the end where the index wraps. The decoder is a parameter, an instance is
the one of the PDF generator.
-/

namespace Esp32Firmware.ChargeTracker.Windows1252

/-- A string on the device; its length is passed on as an `int`. -/
structure Utf8String where
  bytes : List UInt8
  length_lt : bytes.length < 2 ^ 31

/-- A function as `pdf_utf8_to_pdfencoding`: the length of a valid sequence and its character, or
a negative errno. -/
structure Decoder where
  decode : List UInt8 → ℤ × UInt8
  sound : ∀ rest, rest ≠ [] → 0 < (decode rest).1 ∧ (decode rest).1 ≤ rest.length ∨
      -(2 ^ 31) ≤ (decode rest).1 ∧ (decode rest).1 < 0

/-- `?` -/
def replacement : UInt8 := 63

/-- `i += code_len` on a `size_t` of 32 bits. -/
def advance (i : ℕ) (codeLen : ℤ) : ℕ := ((i + codeLen) % 2 ^ 32).toNat

/-- `convertToWindows1252` from an index on: each character with the index of what it stands
for. -/
def convertLoop (decoder : Decoder) (s : Utf8String) : ℕ → ℕ → Option (List (ℕ × UInt8))
  | 0, _ => none
  | fuel + 1, i =>
    if i < s.bytes.length then
      let (codeLen, csvChar) := decoder.decode (s.bytes.drop i)
      let c := if codeLen < 0 then replacement else csvChar
      (convertLoop decoder s fuel (advance i codeLen)).map ((i, c) :: ·)
    else some []

section

variable (decoder : Decoder) (s : Utf8String)

/-- From an index on, a character for each valid sequence and a replacement for each invalid
byte, up to the end. -/
inductive Converted : ℕ → List (ℕ × UInt8) → Prop
  | done : Converted s.bytes.length []
  | valid {i n : ℕ} {c : UInt8} {rest : List (ℕ × UInt8)} (hi : i < s.bytes.length)
      (h : decoder.decode (s.bytes.drop i) = ((n : ℤ), c)) (hrest : Converted (i + n) rest) :
      Converted i ((i, c) :: rest)
  | invalid {i : ℕ} {rest : List (ℕ × UInt8)} (hi : i < s.bytes.length)
      (h : (decoder.decode (s.bytes.drop i)).1 < 0) (hrest : Converted (i + 1) rest) :
      Converted i ((i, replacement) :: rest)

/-- Valid sequences lead from an index to another one. -/
inductive ValidTo : ℕ → ℕ → Prop
  | refl (i : ℕ) : ValidTo i i
  | step {i n j : ℕ} {c : UInt8} (hi : i < s.bytes.length)
      (h : decoder.decode (s.bytes.drop i) = ((n : ℤ), c)) (hrest : ValidTo (i + n) j) : ValidTo i j

/-- The conversion ends and is right. -/
def ConvertsRight : Prop :=
  ∃ fuel characters, convertLoop decoder s fuel 0 = some characters ∧
    Converted decoder s 0 characters

/-- An invalid sequence behind valid ones is the last byte, and the errno takes the index below
zero. -/
def InvalidAtEnd : Prop :=
  ∀ i, ValidTo decoder s 0 i → i < s.bytes.length → (decoder.decode (s.bytes.drop i)).1 < 0 →
      i + 1 = s.bytes.length ∧ i < -(decoder.decode (s.bytes.drop i)).1

variable {decoder s}

variable {i j fuel : ℕ} {characters : List (ℕ × UInt8)} {codeLen : ℤ}

theorem ValidTo.trans {k : ℕ} (h : ValidTo decoder s i j) (h' : ValidTo decoder s j k) :
    ValidTo decoder s i k := by
  induction h with
  | refl => exact h'
  | step hi hdecode _ ih => exact .step hi hdecode (ih h')

/-- Either the end is reached, or the first character stands for the index. -/
theorem Converted.cases_index (h : Converted decoder s i characters) :
    (i = s.bytes.length ∧ characters = []) ∨ ∃ c rest, characters = (i, c) :: rest ∧
        ((∃ n : ℕ, decoder.decode (s.bytes.drop i) = ((n : ℤ), c) ∧
            Converted decoder s (i + n) rest) ∨
          ((decoder.decode (s.bytes.drop i)).1 < 0 ∧ Converted decoder s (i + 1) rest)) := by
  cases h with
  | done => exact Or.inl ⟨rfl, rfl⟩
  | valid hi hdecode hrest => exact Or.inr ⟨_, _, rfl, Or.inl ⟨_, hdecode, hrest⟩⟩
  | invalid hi hneg hrest => exact Or.inr ⟨_, _, rfl, Or.inr ⟨hneg, hrest⟩⟩

theorem drop_ne_nil (hi : i < s.bytes.length) : s.bytes.drop i ≠ [] := by
  rw [Ne, List.drop_eq_nil_iff]
  omega

theorem advance_valid {n : ℕ} (hi : i < s.bytes.length) (hn : n ≤ (s.bytes.drop i).length) :
    advance i n = i + n := by
  have hlength := s.length_lt
  rw [List.length_drop] at hn
  unfold advance
  omega

/-- At an invalid sequence the loop goes back, or beyond the end. -/
theorem advance_invalid {i : ℕ} {codeLen : ℤ} (hi : i < s.bytes.length)
    (hlow : -(2 ^ 31) ≤ codeLen) (hneg : codeLen < 0) :
    if i < -codeLen then s.bytes.length ≤ advance i codeLen else advance i codeLen < i := by
  have hlength := s.length_lt
  unfold advance
  split_ifs <;> omega

/-- One round of the loop. -/
theorem convertLoop_succ (fuel : ℕ) (hi : i < s.bytes.length) {c : UInt8}
    (h : decoder.decode (s.bytes.drop i) = (codeLen, c)) :
    convertLoop decoder s (fuel + 1) i = (convertLoop decoder s fuel (advance i codeLen)).map
        ((i, if codeLen < 0 then replacement else c) :: ·) := by
  rw [convertLoop, if_pos hi, h]

theorem convertLoop_end (fuel : ℕ) (hi : s.bytes.length ≤ i) :
    convertLoop decoder s (fuel + 1) i = some [] := by
  rw [convertLoop, if_neg (by omega)]

/-- What the decoder says at an index inside. -/
theorem decode_cases (decoder : Decoder) (hi : i < s.bytes.length) :
    (∃ (n : ℕ) (c : UInt8), decoder.decode (s.bytes.drop i) = ((n : ℤ), c) ∧ 0 < n ∧
        i + n ≤ s.bytes.length ∧ advance i n = i + n) ∨
      (∃ codeLen c, decoder.decode (s.bytes.drop i) = (codeLen, c) ∧ -(2 ^ 31) ≤ codeLen ∧
        codeLen < 0) := by
  have hsound := decoder.sound _ (drop_ne_nil hi)
  generalize decoder.decode (s.bytes.drop i) = result at hsound ⊢
  obtain ⟨codeLen, c⟩ := result
  rcases hsound with ⟨hpos, hle⟩ | ⟨hlow, hneg⟩
  · obtain ⟨n, rfl⟩ := Int.eq_ofNat_of_zero_le hpos.le
    simp only [Nat.cast_pos, Nat.cast_le] at hpos hle
    refine Or.inl ⟨n, c, rfl, hpos, ?_, advance_valid hi hle⟩
    rw [List.length_drop] at hle
    omega
  · exact Or.inr ⟨codeLen, c, rfl, hlow, hneg⟩

/-- With no invalid sequence but one at the end, the loop gets there from every index that valid
sequences lead to. -/
theorem converts_from (h : InvalidAtEnd decoder s) (remaining : ℕ) :
    ∀ i, ValidTo decoder s 0 i → i + remaining = s.bytes.length →
      ∃ fuel characters, convertLoop decoder s fuel i = some characters ∧
        Converted decoder s i characters := by
  induction remaining using Nat.strong_induction_on with
  | _ remaining ih =>
    intro i hvalid hremaining
    rcases remaining.eq_zero_or_pos with rfl | hpos
    · obtain rfl : i = s.bytes.length := by omega
      exact ⟨1, [], convertLoop_end 0 le_rfl, .done⟩
    · have hi : i < s.bytes.length := by omega
      obtain ⟨n, c, hdecode, hn, hle, hadvance⟩ | ⟨codeLen, c, hdecode, hlow, hneg⟩ :=
        decode_cases decoder hi
      · obtain ⟨fuel, characters, hloop, hconverted⟩ := ih (remaining - n) (by omega) (i + n)
          (hvalid.trans (.step hi hdecode (.refl _))) (by omega)
        refine ⟨fuel + 1, (i, c) :: characters, ?_, .valid hi hdecode hconverted⟩
        rw [convertLoop_succ fuel hi hdecode, hadvance, hloop]
        simp
      · have hneg' : (decoder.decode (s.bytes.drop i)).1 < 0 := by rwa [hdecode]
        obtain ⟨hlast, hsmall⟩ := h i hvalid hi hneg'
        rw [hdecode] at hsmall
        have hend := advance_invalid hi hlow hneg
        rw [if_pos hsmall] at hend
        refine ⟨2, [(i, replacement)], ?_, .invalid hi hneg' (hlast ▸ .done)⟩
        rw [convertLoop_succ 1 hi hdecode, convertLoop_end 0 hend]
        simp [hneg]

/-- A loop that ends right from some index on ends right behind valid sequences. -/
theorem convertsRight_of_validTo (hvalid : ValidTo decoder s i j)
    (hloop : convertLoop decoder s fuel i = some characters)
    (hconverted : Converted decoder s i characters) :
    ∃ fuel characters, convertLoop decoder s fuel j = some characters ∧
      Converted decoder s j characters := by
  induction hvalid generalizing fuel characters with
  | refl i => exact ⟨fuel, characters, hloop, hconverted⟩
  | @step i n j c hi hdecode hrest ih =>
    cases fuel with
    | zero => cases hloop
    | succ fuel =>
      have hn : n ≤ (s.bytes.drop i).length := by
        have hsound := decoder.sound _ (drop_ne_nil hi)
        rw [hdecode] at hsound
        simp only [Nat.cast_le] at hsound
        omega
      rw [convertLoop_succ fuel hi hdecode, advance_valid hi hn, Option.map_eq_some_iff]
        at hloop
      obtain ⟨tail, htail, rfl⟩ := hloop
      obtain ⟨-, hnil⟩ | ⟨c', rest, hrest, ⟨m, hdecode', hconverted⟩ | ⟨hneg, -⟩⟩ :=
        hconverted.cases_index
      · cases hnil
      · obtain ⟨-, rfl⟩ := List.cons.inj hrest
        rw [hdecode, Prod.mk.injEq, Nat.cast_inj] at hdecode'
        obtain ⟨rfl, -⟩ := hdecode'
        exact ih htail hconverted
      · rw [hdecode] at hneg
        exact absurd hneg (by simp)

/-- If the loop ends right from an invalid sequence on, it leaves the string there. -/
theorem end_of_invalid (hi : i < s.bytes.length) (hneg : (decoder.decode (s.bytes.drop i)).1 < 0)
    (hloop : convertLoop decoder s fuel i = some characters)
    (hconverted : Converted decoder s i characters) :
    i + 1 = s.bytes.length ∧ i < -(decoder.decode (s.bytes.drop i)).1 := by
  obtain ⟨n, c, hdecode, -⟩ | ⟨codeLen, c, hdecode, hlow, -⟩ := decode_cases decoder hi
  · rw [hdecode] at hneg
    exact absurd hneg (by simp)
  · cases fuel with
    | zero => cases hloop
    | succ fuel =>
      rw [convertLoop_succ fuel hi hdecode, Option.map_eq_some_iff] at hloop
      obtain ⟨tail, htail, rfl⟩ := hloop
      have htail' : Converted decoder s (i + 1) tail := by
        obtain ⟨-, hnil⟩ | ⟨c', rest, hrest, ⟨m, hdecode', -⟩ | ⟨-, hconverted⟩⟩ :=
          hconverted.cases_index
        · cases hnil
        · rw [hdecode'] at hneg
          exact absurd hneg (by simp)
        · obtain ⟨-, rfl⟩ := List.cons.inj hrest
          exact hconverted
      rw [hdecode] at hneg ⊢
      have hadvance := advance_invalid hi hlow hneg
      cases fuel with
      | zero => cases htail
      | succ fuel =>
        split_ifs at hadvance with hsmall
        · -- Beyond the end nothing follows.
          rw [convertLoop_end fuel hadvance, Option.some_inj] at htail
          subst htail
          refine ⟨?_, hsmall⟩
          obtain ⟨hend, -⟩ | ⟨c', rest, hcons, -⟩ := htail'.cases_index
          · exact hend
          · cases hcons
        · -- Back in the string the next character stands for an earlier byte.
          have hinside : advance i codeLen < s.bytes.length := hadvance.trans hi
          rw [convertLoop, if_pos hinside, Option.map_eq_some_iff] at htail
          obtain ⟨rest, -, rfl⟩ := htail
          obtain ⟨-, hnil⟩ | ⟨c', rest', hcons, -⟩ := htail'.cases_index
          · cases hnil
          · have hindex := congrArg Prod.fst (List.cons.inj hcons).1
            simp only at hindex
            omega

/-- The conversion ends and is right exactly if no invalid sequence is met, but one as the last
byte near the start. -/
theorem convertsRight_iff : ConvertsRight decoder s ↔ InvalidAtEnd decoder s := by
  constructor
  · rintro ⟨fuel, characters, hloop, hconverted⟩ i hvalid hi hneg
    obtain ⟨fuel, characters, hloop, hconverted⟩ :=
      convertsRight_of_validTo hvalid hloop hconverted
    exact end_of_invalid hi hneg hloop hconverted
  · intro h
    exact converts_from h s.bytes.length 0 (.refl 0) (by simp)

end

def einval : ℤ := 22

/-- The length of a sequence by its first byte, with the mask of the bits in it. -/
def sequenceOf (first : UInt8) (len : ℕ) : Option (ℕ × UInt8) :=
  if first &&& 0x80 = 0 then some (1, 0x7f)
  else if first &&& 0xe0 = 0xc0 ∧ 2 ≤ len then some (2, 0x1f)
  else if first &&& 0xf0 = 0xe0 ∧ 3 ≤ len then some (3, 0xf)
  else if first &&& 0xf8 = 0xf0 ∧ 4 ≤ len then some (4, 0x7)
  else none

def pdfUtf8ToUtf32 (utf8 : List UInt8) : ℤ × UInt32 :=
  match utf8 with
  | [] => (-einval, 0)
  | first :: rest =>
    match sequenceOf first utf8.length with
    | none => (-einval, 0)
    | some (len, mask) =>
      if 0 ∈ utf8.take len then (-einval, 0)
      else
        (len, (rest.take (len - 1)).foldl
          (fun ch byte => ch <<< 6 ||| (byte &&& 0x3f).toUInt32) (first &&& mask).toUInt32)

/-- Code points above 255 that Windows-1252 has. -/
def winAnsi : List (UInt32 × UInt8) :=
  [(0x152, 0o214), (0x153, 0o234), (0x160, 0o212), (0x161, 0o232), (0x178, 0o237), (0x17d, 0o216),
    (0x17e, 0o236), (0x192, 0o203), (0x2c6, 0o210), (0x2dc, 0o230), (0x2013, 0o226),
    (0x2014, 0o227), (0x2018, 0o221), (0x2019, 0o222), (0x201a, 0o202), (0x201c, 0o223),
    (0x201d, 0o224), (0x201e, 0o204), (0x2020, 0o206), (0x2021, 0o207), (0x2022, 0o225),
    (0x2026, 0o205), (0x2030, 0o211), (0x2039, 0o213), (0x203a, 0o233), (0x20ac, 0o200),
    (0x2122, 0o231)]

def pdfUtf8ToPdfencoding (utf8 : List UInt8) : ℤ × UInt8 :=
  let (codeLen, code) := pdfUtf8ToUtf32 utf8
  if codeLen < 0 then (-einval, 0)
  else if 255 < code then (codeLen, (winAnsi.lookup code).getD 0o225)
  else if 0x80 ≤ code ∧ code ≤ 0x9F then (codeLen, 0o225)
  else (codeLen, code.toUInt8)

theorem sequenceOf_bounds {first : UInt8} {len n : ℕ} {mask : UInt8} (hlen : 0 < len)
    (h : sequenceOf first len = some (n, mask)) : 0 < n ∧ n ≤ len := by
  unfold sequenceOf at h
  split_ifs at h with h₁ h₂ h₃ h₄ <;>
    obtain ⟨rfl, -⟩ := Prod.mk.inj (Option.some.inj h) <;> omega

theorem pdfUtf8ToUtf32_sound (utf8 : List UInt8) :
    (0 < (pdfUtf8ToUtf32 utf8).1 ∧ (pdfUtf8ToUtf32 utf8).1 ≤ utf8.length) ∨
      (pdfUtf8ToUtf32 utf8).1 = -einval := by
  unfold pdfUtf8ToUtf32
  split
  · exact Or.inr rfl
  · split
    · exact Or.inr rfl
    · next first rest n mask hsequence =>
        have hbounds := sequenceOf_bounds (by simp) hsequence
        split_ifs
        · exact Or.inr rfl
        · left
          simp only [Nat.cast_pos, Nat.cast_le]
          exact hbounds

def pdfDecoder : Decoder where
  decode := pdfUtf8ToPdfencoding
  sound := by
    intro rest _
    have hsound := pdfUtf8ToUtf32_sound rest
    unfold pdfUtf8ToPdfencoding
    generalize pdfUtf8ToUtf32 rest = result at hsound ⊢
    obtain ⟨codeLen, code⟩ := result
    simp only [einval] at hsound ⊢
    split_ifs with hneg <;> simp only <;> omega

/-- A byte that starts no sequence, in front of a letter. -/
def strayByte : Utf8String := ⟨[0x80, 0x61], by decide⟩

/-- The same byte behind 22 letters. -/
def strayByteBehind : Utf8String := ⟨List.replicate 22 0x61 ++ [0x80], by decide⟩

theorem convertLoop_strayByteBehind (fuel : ℕ) :
    ∀ i ≤ 22, convertLoop pdfDecoder strayByteBehind fuel i = none := by
  induction fuel with
  | zero => exact fun i _ => rfl
  | succ fuel ih =>
    intro i hi
    have hinside : i < strayByteBehind.bytes.length := by
      simp only [strayByteBehind, List.length_append, List.length_replicate, List.length_singleton]
      omega
    rcases hi.lt_or_eq with hlt | rfl
    · have hdecode : pdfDecoder.decode (strayByteBehind.bytes.drop i) = (1, 0x61) := by
        interval_cases i <;> decide
      have hnext : advance i 1 = i + 1 := by
        unfold advance
        omega
      rw [convertLoop_succ fuel hinside hdecode, hnext, ih (i + 1) (by omega)]
      rfl
    · have hdecode : pdfDecoder.decode (strayByteBehind.bytes.drop 22) = (-22, 0) := by decide
      have hback : advance 22 (-22) = 0 := by decide
      rw [convertLoop_succ fuel hinside hdecode, hback, ih 0 (by omega)]
      rfl

/-- The letter behind the byte is lost, and behind 22 letters the loop never ends. -/
theorem stray_byte_wrong :
    ¬ConvertsRight pdfDecoder strayByte ∧
      ∀ fuel, convertLoop pdfDecoder strayByteBehind fuel 0 = none := by
  constructor
  · rintro ⟨fuel, characters, hloop, hconverted⟩
    have hend := end_of_invalid (i := 0) (by decide) (by decide) hloop hconverted
    exact absurd hend.1 (by decide)
  · intro fuel
    exact convertLoop_strayByteBehind fuel 0 (by omega)

end Esp32Firmware.ChargeTracker.Windows1252
