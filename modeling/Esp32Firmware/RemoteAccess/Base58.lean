import Esp32Firmware.Library.RadixConversion
import Mathlib.Data.List.GetD

/-!
# Base 58 of the authorization tokens

An authorization token is entered as text in the alphabet of Flickr. It is decoded in a buffer
that holds the lowest byte first and is reversed at the end.

## Implementation notes

The used part of the buffer is a list. The allocation of the buffer succeeds.
-/

namespace Esp32Firmware.RemoteAccess

open RadixConversion

section

def flickrBase58Alphabet : List UInt8 :=
  "123456789abcdefghijkmnopqrstuvwxyzABCDEFGHJKLMNPQRSTUVWXYZ".toList.map fun c => c.val.toUInt8

/-- The digit that a character stands for, 58 for those outside of the alphabet. -/
def digit (c : UInt8) : ℕ := flickrBase58Alphabet.idxOf c

/-- The first character of the alphabet is the digit zero. -/
def isZero (c : UInt8) : Bool := c == flickrBase58Alphabet.getD 0 0

/-- The look-up table of the digits. -/
def lut (c : UInt8) : UInt8 := if digit c < 58 then (digit c).toUInt8 else 0xFF

/-- Multiplies the bytes with 58 and adds the carry, the lowest byte first. -/
def multiplyAndCarry : List UInt8 → UInt32 → List UInt8 × UInt32
  | [], carry => ([], carry)
  | byte :: rest, carry =>
    let cur := byte.toUInt32 * 58 + carry
    let (rest', carry') := multiplyAndCarry rest (cur >>> 8)
    ((cur &&& 0xFF).toUInt8 :: rest', carry')

theorem toNat_pos {carry : UInt32} (h : carry ≠ 0) : 0 < carry.toNat :=
  Nat.pos_of_ne_zero fun hzero => h (UInt32.toNat_inj.mp hzero)

theorem shiftRight_lt {carry : UInt32} (h : carry ≠ 0) : (carry >>> 8).toNat < carry.toNat := by
  rw [UInt32.toNat_shiftRight, Nat.shiftRight_eq_div_pow]
  exact Nat.div_lt_self (toNat_pos h) (by decide)

/-- The bytes of what is carried out; `none` where the buffer is full. -/
def pushCarry (bufferSize : ℕ) (out : List UInt8) (carry : UInt32) : Option (List UInt8) :=
  if _h : carry = 0 then some out
  else if bufferSize ≤ out.length then none
  else pushCarry bufferSize (out ++ [(carry &&& 0xFF).toUInt8]) (carry >>> 8)
termination_by carry.toNat
decreasing_by exact shiftRight_lt ‹_›

def decodeDigits (bufferSize : ℕ) : List UInt8 → List UInt8 → Option (List UInt8)
  | [], out => some out
  | c :: rest, out =>
    if lut c = 0xFF then none
    else
      let (out', carry) := multiplyAndCarry out (lut c).toUInt32
      (pushCarry bufferSize out' carry).bind (decodeDigits bufferSize rest)

/-- Swaps the bytes from both ends. -/
def reverseBytes (out : List UInt8) (i j : ℕ) : List UInt8 :=
  if i < j then
    let tmp := out.getD i 0
    reverseBytes ((out.set i (out.getD (j - 1) 0)).set (j - 1) tmp) (i + 1) (j - 1)
  else out
termination_by j - i

def decodeFlickrBase58 (str : List UInt8) (bufferSize : ℕ) : Option (List UInt8) :=
  if str = [] ∨ bufferSize = 0 then none
  else
    let leadingZeros := (str.takeWhile isZero).length
    (decodeDigits bufferSize (str.drop leadingZeros) []).bind fun out =>
      if bufferSize < out.length + leadingZeros then none
      else
        let out := out ++ List.replicate leadingZeros 0
        some (reverseBytes out 0 out.length)

end

section

/-- The bytes that a text denotes, one zero byte for each leading zero. -/
def canonicalDecoding (str : List UInt8) : List UInt8 :=
  (convert 58 256 (str.map digit)).map UInt8.ofNat

/-- The text of some bytes. -/
def encodeFlickrBase58 (bytes : List UInt8) : List UInt8 :=
  (convert 256 58 (bytes.map UInt8.toNat)).map (flickrBase58Alphabet.getD · 0)

theorem length_alphabet : flickrBase58Alphabet.length = 58 := rfl

theorem alphabet_nodup : flickrBase58Alphabet.Nodup := by decide

theorem digit_lt_iff {c : UInt8} : digit c < 58 ↔ c ∈ flickrBase58Alphabet :=
  List.idxOf_lt_length_iff

theorem lut_eq {c : UInt8} (h : c ∈ flickrBase58Alphabet) : (lut c).toNat = digit c := by
  have hlt := digit_lt_iff.mpr h
  rw [lut, if_pos hlt]
  exact UInt8.toNat_ofNat_of_lt' (hlt.trans (by decide))

theorem lut_invalid_iff {c : UInt8} : lut c = 0xFF ↔ c ∉ flickrBase58Alphabet := by
  rw [← digit_lt_iff]
  by_cases hlt : digit c < 58
  · refine iff_of_false (fun h => ?_) (not_not_intro hlt)
    have hdigit := lut_eq (digit_lt_iff.mp hlt)
    rw [h] at hdigit
    exact absurd hlt (by rw [← hdigit]; decide)
  · exact iff_of_true (if_neg hlt) hlt

theorem digit_beq_zero (c : UInt8) : (digit c == 0) = isZero c := by
  obtain ⟨rest, hcons⟩ : ∃ rest, flickrBase58Alphabet = 49 :: rest := ⟨_, rfl⟩
  rw [digit, isZero, hcons, List.idxOf_cons, List.getD_cons_zero, Bool.beq_comm (a := c)]
  cases (49 : UInt8) == c <;> simp

theorem leadingZeros_eq (str : List UInt8) :
    (str.takeWhile isZero).length = ((str.map digit).takeWhile (· == 0)).length := by
  rw [List.takeWhile_map, List.length_map]
  exact congrArg (fun p => (str.takeWhile p).length) (funext fun c => (digit_beq_zero c).symm)

end

section

variable {out : List UInt8} {carry : UInt32} {bufferSize v n : ℕ}

/-- The bytes of a number, the lowest one first. -/
def bytes (v : ℕ) : List UInt8 := (Nat.digits 256 v).map UInt8.ofNat

theorem map_toNat_ofNat {ds : List ℕ} (h : ∀ d ∈ ds, d < 256) :
    (ds.map UInt8.ofNat).map UInt8.toNat = ds := by
  rw [List.map_map]
  exact (List.map_congr_left fun d hd => UInt8.toNat_ofNat_of_lt' (h d hd)).trans (List.map_id ds)

theorem map_ofNat_toNat (l : List UInt8) : (l.map UInt8.toNat).map UInt8.ofNat = l := by
  rw [List.map_map]
  exact (List.map_congr_left fun b _ => UInt8.ofNat_toNat).trans (List.map_id l)

theorem toNat_bytes (v : ℕ) : (bytes v).map UInt8.toNat = Nat.digits 256 v :=
  map_toNat_ofNat fun _ hd => Nat.digits_lt_base (by decide) hd

@[simp] theorem bytes_zero : bytes 0 = [] := rfl

theorem bytes_of_pos (h : 0 < v) : bytes v = UInt8.ofNat (v % 256) :: bytes (v / 256) := by
  rw [bytes, Nat.digits_def' (by decide) h, List.map_cons, bytes]

theorem length_bytes_le (h : v ≤ n) : (bytes v).length ≤ (bytes n).length := by
  rw [bytes, bytes, List.length_map, List.length_map]
  exact Nat.le_length_digits_le 256 v n h

theorem lowByte_eq (carry : UInt32) : (carry &&& 0xFF).toUInt8 = UInt8.ofNat (carry.toNat % 256) := by
  apply UInt8.toNat_inj.mp
  rw [UInt32.toNat_toUInt8, UInt32.toNat_and, UInt8.toNat_ofNat']
  exact congrArg (· % 256) (Nat.and_two_pow_sub_one_eq_mod carry.toNat 8)

theorem toNat_shiftRight_eight (carry : UInt32) : (carry >>> 8).toNat = carry.toNat / 256 := by
  rw [UInt32.toNat_shiftRight, Nat.shiftRight_eq_div_pow]
  rfl

theorem length_multiplyAndCarry : (multiplyAndCarry out carry).1.length = out.length := by
  induction out generalizing carry with
  | nil => rfl
  | cons byte rest ih => exact congrArg (· + 1) ih

theorem multiplyAndCarry_eq (hcarry : carry.toNat < 58) :
    multiplyAndCarry out carry =
      ((mulAdd 256 58 (out.map UInt8.toNat) carry.toNat).1.map UInt8.ofNat,
        UInt32.ofNat (mulAdd 256 58 (out.map UInt8.toNat) carry.toNat).2) := by
  induction out generalizing carry with
  | nil => simp [multiplyAndCarry, mulAdd]
  | cons byte rest ih =>
    have hbyte := byte.toNat_lt
    have hcur : (byte.toUInt32 * 58 + carry).toNat = byte.toNat * 58 + carry.toNat := by
      rw [UInt32.toNat_add, UInt32.toNat_mul, UInt8.toNat_toUInt32]
      have h58 : (58 : UInt32).toNat = 58 := rfl
      rw [h58]
      omega
    have hnext : ((byte.toUInt32 * 58 + carry) >>> 8).toNat < 58 := by
      rw [toNat_shiftRight_eight, hcur]
      omega
    rw [multiplyAndCarry, ih hnext, lowByte_eq, toNat_shiftRight_eight, hcur]
    rfl

theorem pushCarry_eq (h : out.length ≤ bufferSize) :
    pushCarry bufferSize out carry =
      if (out ++ bytes carry.toNat).length ≤ bufferSize then some (out ++ bytes carry.toNat)
      else none := by
  induction out, carry using pushCarry.induct bufferSize with
  | case1 out =>
    rw [pushCarry, dif_pos rfl, UInt32.toNat_zero, bytes_zero, List.append_nil, if_pos h]
  | case2 out carry hcarry hfull =>
    have hpos := toNat_pos hcarry
    have hmore : ¬(out ++ bytes carry.toNat).length ≤ bufferSize := by
      rw [bytes_of_pos hpos, List.length_append, List.length_cons]
      omega
    rw [pushCarry, dif_neg hcarry, if_pos hfull, if_neg hmore]
  | case3 out carry hcarry hroom ih =>
    have hpos := toNat_pos hcarry
    have hlength : (out ++ [(carry &&& 0xFF).toUInt8]).length ≤ bufferSize := by
      rw [List.length_append, List.length_singleton]
      omega
    rw [pushCarry, dif_neg hcarry, if_neg hroom, ih hlength, toNat_shiftRight_eight,
      bytes_of_pos hpos, lowByte_eq, List.append_assoc, List.singleton_append]

/-- One digit more. -/
theorem multiplyAndCarry_bytes (hcarry : carry.toNat < 58) :
    (multiplyAndCarry (bytes v) carry).1 ++ bytes (multiplyAndCarry (bytes v) carry).2.toNat =
      bytes (v * 58 + carry.toNat) := by
  have hdigits : ∀ d ∈ Nat.digits 256 v, d < 256 := fun d hd =>
    Nat.digits_lt_base (by decide) hd
  have hlt := (carry_lt hdigits hcarry).trans (show 58 < 2 ^ 32 by decide)
  rw [multiplyAndCarry_eq hcarry, toNat_bytes]
  dsimp only
  rw [UInt32.toNat_ofNat_of_lt' hlt, bytes, bytes, ← List.map_append,
    digits_mulAdd (by decide) (by decide)]

end

section

variable {str chars : List UInt8} {bufferSize v : ℕ}

/-- The number after some more characters. -/
def valueBehind (v : ℕ) (chars : List UInt8) : ℕ :=
  v * 58 ^ chars.length + ofBig 58 (chars.map digit)

theorem valueBehind_cons (c : UInt8) :
    valueBehind v (c :: chars) = valueBehind (v * 58 + digit c) chars := by
  rw [valueBehind, valueBehind, List.map_cons, ofBig_cons, List.length_map, List.length_cons,
    pow_succ]
  ring

theorem le_valueBehind : v ≤ valueBehind v chars :=
  (Nat.le_mul_of_pos_right v (Nat.pow_pos (by decide))).trans (Nat.le_add_right _ _)

/-- The loop over the digits ends with the bytes of the number where they fit. -/
theorem decodeDigits_eq_some {out : List UInt8} (h : (bytes v).length ≤ bufferSize) :
    decodeDigits bufferSize chars (bytes v) = some out ↔
      (∀ c ∈ chars, c ∈ flickrBase58Alphabet) ∧ out = bytes (valueBehind v chars) ∧
        out.length ≤ bufferSize := by
  induction chars generalizing v with
  | nil =>
    rw [decodeDigits, valueBehind, List.length_nil, pow_zero, Nat.mul_one, List.map_nil,
      ofBig_nil, Nat.add_zero, Option.some_inj]
    constructor
    · rintro rfl
      exact ⟨List.forall_mem_nil _, rfl, h⟩
    · exact fun hout => hout.2.1.symm
  | cons c rest ih =>
    rw [decodeDigits, List.forall_mem_cons]
    by_cases hc : c ∈ flickrBase58Alphabet
    · have hcarry : (lut c).toUInt32.toNat = digit c := by
        rw [UInt8.toNat_toUInt32, lut_eq hc]
      have hlt : (lut c).toUInt32.toNat < 58 := by
        rw [hcarry]
        exact digit_lt_iff.mpr hc
      have hout := (@length_multiplyAndCarry (bytes v) (lut c).toUInt32).trans_le h
      rw [if_neg (fun hinvalid => lut_invalid_iff.mp hinvalid hc)]
      dsimp only
      rw [pushCarry_eq hout, multiplyAndCarry_bytes hlt, hcarry, valueBehind_cons]
      by_cases hroom : (bytes (v * 58 + digit c)).length ≤ bufferSize
      · rw [if_pos hroom, Option.bind_some, ih hroom, and_assoc]
        exact (and_iff_right hc).symm
      · rw [if_neg hroom, Option.bind_none]
        refine iff_of_false (Option.some_ne_none out ∘ Eq.symm) ?_
        rintro ⟨-, rfl, hle⟩
        exact hroom ((length_bytes_le le_valueBehind).trans hle)
    · rw [if_pos (lut_invalid_iff.mpr hc)]
      exact iff_of_false (Option.some_ne_none out ∘ Eq.symm) fun hboth => hc hboth.1.1

theorem reverseBytes_of_le {out : List UInt8} {i j : ℕ} (h : j ≤ i) :
    reverseBytes out i j = out := by
  rw [reverseBytes, if_neg (Nat.not_lt.mpr h)]

/-- The first and the last of some bytes are swapped. -/
theorem reverseBytes_swap (before middle behind : List UInt8) (first last : UInt8) :
    reverseBytes (before ++ first :: (middle ++ [last]) ++ behind) before.length
        (before.length + (middle.length + 2)) =
      reverseBytes (before ++ [last] ++ middle ++ first :: behind) (before ++ [last]).length
        ((before ++ [last]).length + middle.length) := by
  have hout : before ++ first :: (middle ++ [last]) ++ behind =
      before ++ first :: (middle ++ last :: behind) := by simp
  have hfirst : (before ++ first :: (middle ++ [last]) ++ behind).getD before.length 0 = first := by
    rw [hout, List.getD_append_right _ _ _ _ (Nat.le_refl _), Nat.sub_self, List.getD_cons_zero]
  have hlast : (before ++ first :: (middle ++ [last]) ++ behind).getD
      (before.length + (middle.length + 2) - 1) 0 = last := by
    rw [hout, List.getD_append_right _ _ _ _ (by omega),
      show before.length + (middle.length + 2) - 1 - before.length = middle.length + 1 by omega,
      List.getD_cons_succ, List.getD_append_right _ _ _ _ (Nat.le_refl _), Nat.sub_self,
      List.getD_cons_zero]
  have hset : ((before ++ first :: (middle ++ last :: behind)).set before.length last).set
      (before.length + (middle.length + 2) - 1) first =
      before ++ last :: (middle ++ first :: behind) := by
    rw [List.set_append_right _ _ (Nat.le_refl _), Nat.sub_self, List.set_cons_zero,
      List.set_append_right _ _ (by omega),
      show before.length + (middle.length + 2) - 1 - before.length = middle.length + 1 by omega,
      List.set_cons_succ, List.set_append_right _ _ (Nat.le_refl _), Nat.sub_self,
      List.set_cons_zero]
  rw [reverseBytes, if_pos (by omega)]
  dsimp only
  rw [hfirst, hlast, hout, hset, List.length_append, List.length_singleton]
  congr 1
  · simp
  · omega

theorem reverseBytes_eq (before middle behind : List UInt8) :
    reverseBytes (before ++ middle ++ behind) before.length (before.length + middle.length) =
      before ++ middle.reverse ++ behind := by
  induction middle using List.bidirectionalRec generalizing before behind with
  | nil => exact reverseBytes_of_le (Nat.le_refl _)
  | singleton byte =>
    have hset : (before ++ byte :: behind).set before.length byte = before ++ byte :: behind := by
      rw [List.set_append_right _ _ (Nat.le_refl _), Nat.sub_self, List.set_cons_zero]
    have hget : (before ++ byte :: behind).getD before.length 0 = byte := by
      rw [List.getD_append_right _ _ _ _ (Nat.le_refl _), Nat.sub_self, List.getD_cons_zero]
    rw [List.append_assoc, List.singleton_append, List.length_singleton, reverseBytes,
      if_pos (Nat.lt_succ_self _)]
    dsimp only
    rw [Nat.add_sub_cancel, hget, hset, hset, reverseBytes_of_le (Nat.le_succ _),
      List.reverse_singleton, List.append_assoc, List.singleton_append]
  | cons_append first middle last ih =>
    have hlength : (first :: (middle ++ [last])).length = middle.length + 2 := by simp
    rw [hlength, reverseBytes_swap, ih]
    simp

theorem reverseBytes_all (out : List UInt8) : reverseBytes out 0 out.length = out.reverse := by
  have h := reverseBytes_eq [] out []
  rwa [List.nil_append, List.append_nil, List.nil_append, List.append_nil, List.length_nil,
    Nat.zero_add] at h

theorem canonicalDecoding_eq (str : List UInt8) :
    canonicalDecoding str = List.replicate (str.takeWhile isZero).length 0 ++
        (bytes (ofBig 58 (str.map digit))).reverse := by
  rw [canonicalDecoding, convert, List.map_append, leadingZeros_eq, bytes, List.map_reverse,
    List.eq_replicate_of_mem zeros_takeWhile, List.map_replicate, List.length_replicate]
  rfl

theorem length_canonicalDecoding (str : List UInt8) :
    (canonicalDecoding str).length = (bytes (ofBig 58 (str.map digit))).length +
        (str.takeWhile isZero).length := by
  rw [canonicalDecoding_eq, List.length_append, List.length_replicate, List.length_reverse,
    Nat.add_comm]

theorem digits_lt (h : ∀ c ∈ str, c ∈ flickrBase58Alphabet) : ∀ d ∈ str.map digit, d < 58 := by
  intro d hd
  obtain ⟨c, hc, rfl⟩ := List.mem_map.mp hd
  exact digit_lt_iff.mpr (h c hc)

theorem canonicalDecoding_ne_nil (hne : str ≠ []) (h : ∀ c ∈ str, c ∈ flickrBase58Alphabet) :
    canonicalDecoding str ≠ [] := by
  intro hnil
  have hdigits := (convert_eq_nil_iff (by decide) (digits_lt h)).mp (List.map_eq_nil_iff.mp hnil)
  exact hne (List.map_eq_nil_iff.mp hdigits)

theorem drop_leadingZeros : str.drop (str.takeWhile isZero).length = str.dropWhile isZero := by
  have hsplit := List.takeWhile_append_dropWhile (p := isZero) (l := str)
  calc
    str.drop (str.takeWhile isZero).length =
        (str.takeWhile isZero ++ str.dropWhile isZero).drop (str.takeWhile isZero).length := by
      rw [hsplit]
    _ = str.dropWhile isZero := List.drop_left

theorem alphabet_behind_zeros :
    (∀ c ∈ str.dropWhile isZero, c ∈ flickrBase58Alphabet) ↔
      ∀ c ∈ str, c ∈ flickrBase58Alphabet := by
  have hzeros : ∀ c ∈ str.takeWhile isZero, c ∈ flickrBase58Alphabet := by
    intro c hc
    have hzero : (digit c == 0) = true := (digit_beq_zero c).trans (List.mem_takeWhile_imp hc)
    rw [← digit_lt_iff, beq_iff_eq.mp hzero]
    decide
  constructor
  · intro h
    rw [← List.takeWhile_append_dropWhile (p := isZero) (l := str), List.forall_mem_append]
    exact ⟨hzeros, h⟩
  · exact fun h c hc => h c ((List.dropWhile_sublist _).subset hc)

theorem valueBehind_zeros : valueBehind 0 (str.dropWhile isZero) = ofBig 58 (str.map digit) := by
  have hzero : ((· == 0) ∘ digit) = isZero := funext digit_beq_zero
  rw [valueBehind, Nat.zero_mul, Nat.zero_add, ← @ofBig_dropWhile _ (str.map digit),
    List.dropWhile_map, hzero]

/-- The decoder yields the canonical decoding where it fits, nothing otherwise. -/
theorem decodeFlickrBase58_eq_some {decoded : List UInt8} :
    decodeFlickrBase58 str bufferSize = some decoded ↔
      str ≠ [] ∧ (∀ c ∈ str, c ∈ flickrBase58Alphabet) ∧ decoded = canonicalDecoding str ∧
        decoded.length ≤ bufferSize := by
  rw [decodeFlickrBase58]
  by_cases hempty : str = [] ∨ bufferSize = 0
  · rw [if_pos hempty]
    refine iff_of_false (Option.some_ne_none decoded ∘ Eq.symm) ?_
    rintro ⟨hne, halphabet, rfl, hroom⟩
    rw [hempty.resolve_left hne, Nat.le_zero, List.length_eq_zero_iff] at hroom
    exact canonicalDecoding_ne_nil hne halphabet hroom
  · obtain ⟨hne, -⟩ := not_or.mp hempty
    rw [if_neg hempty]
    dsimp only
    rw [drop_leadingZeros, ← bytes_zero, Option.bind_eq_some_iff]
    constructor
    · rintro ⟨out, hloop, hdecoded⟩
      obtain ⟨halphabet, rfl, -⟩ := (decodeDigits_eq_some (Nat.zero_le _)).mp hloop
      rw [valueBehind_zeros] at hdecoded
      split at hdecoded
      · cases hdecoded
      · rename_i hroom
        rw [reverseBytes_all, List.reverse_append, List.reverse_replicate, ← canonicalDecoding_eq,
          Option.some_inj] at hdecoded
        refine ⟨hne, alphabet_behind_zeros.mp halphabet, hdecoded.symm, ?_⟩
        rw [← hdecoded, length_canonicalDecoding]
        exact Nat.not_lt.mp hroom
    · rintro ⟨-, halphabet, rfl, hroom⟩
      rw [length_canonicalDecoding] at hroom
      refine ⟨_, (decodeDigits_eq_some (Nat.zero_le _)).mpr
        ⟨alphabet_behind_zeros.mpr halphabet, rfl, ?_⟩, ?_⟩
      · rw [valueBehind_zeros]
        exact (Nat.le_add_right _ _).trans hroom
      · rw [valueBehind_zeros, if_neg (Nat.not_lt.mpr hroom), reverseBytes_all,
          List.reverse_append, List.reverse_replicate, ← canonicalDecoding_eq]

end

section

variable {d : ℕ} {ds : List ℕ}

theorem character_mem (h : d < 58) : flickrBase58Alphabet.getD d 0 ∈ flickrBase58Alphabet := by
  rw [List.getD_eq_getElem _ _ (by rwa [length_alphabet])]
  exact List.getElem_mem _

theorem digit_character (h : d < 58) : digit (flickrBase58Alphabet.getD d 0) = d := by
  rw [digit, List.getD_eq_getElem _ _ (by rwa [length_alphabet]),
    alphabet_nodup.idxOf_getElem]

theorem map_digit_characters (h : ∀ d ∈ ds, d < 58) :
    (ds.map (flickrBase58Alphabet.getD · 0)).map digit = ds := by
  rw [List.map_map]
  exact (List.map_congr_left fun d hd => digit_character (h d hd)).trans (List.map_id ds)

variable (bytes : List UInt8)

theorem toNat_lt_bytes : ∀ d ∈ bytes.map UInt8.toNat, d < 256 := by
  intro d hd
  obtain ⟨b, -, rfl⟩ := List.mem_map.mp hd
  exact b.toNat_lt

theorem canonicalDecoding_encode :
    canonicalDecoding (encodeFlickrBase58 bytes) = bytes := by
  rw [canonicalDecoding, encodeFlickrBase58, map_digit_characters (convert_lt (by decide)),
    convert_convert (by decide) (toNat_lt_bytes bytes), map_ofNat_toNat]

theorem encode_alphabet :
    ∀ c ∈ encodeFlickrBase58 bytes, c ∈ flickrBase58Alphabet := by
  intro c hc
  obtain ⟨d, hd, rfl⟩ := List.mem_map.mp hc
  exact character_mem (convert_lt (by decide) d hd)

theorem encode_eq_nil_iff : encodeFlickrBase58 bytes = [] ↔ bytes = [] := by
  rw [encodeFlickrBase58, List.map_eq_nil_iff,
    convert_eq_nil_iff (by decide) (toNat_lt_bytes bytes), List.map_eq_nil_iff]

end

theorem decode_flickr_base58_exact (str : List UInt8) (bufferSize : ℕ) :
    (∀ decoded, decodeFlickrBase58 str bufferSize = some decoded ↔
      str ≠ [] ∧ (∀ c ∈ str, c ∈ flickrBase58Alphabet) ∧ decoded = canonicalDecoding str ∧
        decoded.length ≤ bufferSize) ∧
    ∀ bytes decoded, decodeFlickrBase58 (encodeFlickrBase58 bytes) bufferSize = some decoded ↔
      bytes ≠ [] ∧ decoded = bytes ∧ bytes.length ≤ bufferSize := by
  refine ⟨fun decoded => decodeFlickrBase58_eq_some, fun bytes decoded => ?_⟩
  rw [decodeFlickrBase58_eq_some, canonicalDecoding_encode, Ne, encode_eq_nil_iff]
  constructor
  · rintro ⟨hne, -, rfl, hroom⟩
    exact ⟨hne, rfl, hroom⟩
  · rintro ⟨hne, rfl, hroom⟩
    exact ⟨hne, encode_alphabet decoded, rfl, hroom⟩

end Esp32Firmware.RemoteAccess
