import Esp32Firmware.Api.CensoredOutput
import Esp32Firmware.Config.SerializeJson

/-!
# The estimate of the length of a document

The estimate is compared with the text that is written. It is too small for the characters with
an escape sequence, and by one for an empty object and an empty tuple. It is too large by one for
an array with elements, and by what the tables add to the digits of a number.

## Implementation notes

A float takes at most 16 bytes. Nothing is cut off: there is room for the document and its text.
-/

namespace Esp32Firmware.Api

open Esp32Firmware.Configuration JsonText

section

/-- The tables have enough digits for every number of a bit length, and for the next one. -/
theorem table_suffices :
    (∀ k < 32, 2 ^ (k + 1) < 10 ^ leadingZerosToCharCount.getD (31 - k) 0) ∧
      ∀ k < 32, 2 ^ (32 + k + 1) < 10 ^ leadingZerosToCharCount64.getD (31 - k) 0 := by
  decide

theorem succ_lt_pow_estimate {v : Nat} (h : v < 2 ^ 32) : v + 1 < 10 ^ estimateCharsPerUint v := by
  rw [estimateCharsPerUint, countLeadingZeros]
  split
  · next hzero => rw [hzero]; decide
  · next hne =>
      have hlog : v.log2 < 32 := (Nat.log2_lt hne).mpr h
      exact Nat.lt_of_le_of_lt Nat.lt_log2_self (table_suffices.1 _ hlog)

theorem succ_lt_pow_estimate64 {v : Nat} (h : v < 2 ^ 64) :
    v + 1 < 10 ^ estimateCharsPerUint64 v := by
  rw [estimateCharsPerUint64]
  split
  · next hzero => exact succ_lt_pow_estimate (by omega)
  · next hne =>
      rw [countLeadingZeros, if_neg hne]
      have hlog : (v / 2 ^ 32).log2 < 32 := (Nat.log2_lt hne).mpr (by omega)
      have hupper : v / 2 ^ 32 < 2 ^ ((v / 2 ^ 32).log2 + 1) := Nat.lt_log2_self
      have hle : v + 1 ≤ 2 ^ (32 + (v / 2 ^ 32).log2 + 1) := by
        rw [Nat.add_assoc, Nat.pow_add]
        omega
      exact Nat.lt_of_le_of_lt hle (table_suffices.2 _ hlog)

/-- A number takes at most as many digits as a power of ten above it says. -/
theorem repr_le {v n : Nat} (h : v < 10 ^ n) (hn : n ≠ 0) : v.repr.utf8ByteSize ≤ n := by
  rw [utf8ByteSize_repr, Nat.length_toDigits_le_iff (by omega) (by omega)]
  exact h

theorem ne_zero_of_succ_lt_pow {v n : Nat} (h : v + 1 < 10 ^ n) : n ≠ 0 := by
  rintro rfl
  rw [Nat.pow_zero] at h
  omega

/-- If the estimate for the approximate absolute value has a digit to spare, the one with the sign
suffices. -/
theorem int_repr_le {v : Int} {n : Nat} (h : approximateAbs v + 1 < 10 ^ n) :
    v.repr.utf8ByteSize ≤ n + signLength v := by
  have hn := ne_zero_of_succ_lt_pow h
  rw [Int.repr_eq_if]
  rw [approximateAbs] at h
  rw [signLength]
  split
  · next hpos =>
      rw [if_neg (by omega)] at h ⊢
      rw [Nat.add_zero]
      exact repr_le (by omega) hn
  · next hneg =>
      rw [if_pos (by omega)] at h ⊢
      have hminus : "-".utf8ByteSize = 1 := rfl
      have hdigits : (-v).toNat.repr.utf8ByteSize ≤ n := repr_le (by omega) hn
      rw [String.utf8ByteSize_append, hminus]
      omega

theorem uint_estimate {v : Nat} (h : v < 2 ^ 32) : v.repr.utf8ByteSize ≤ estimateCharsPerUint v :=
  repr_le (Nat.lt_of_succ_lt (succ_lt_pow_estimate h))
    (ne_zero_of_succ_lt_pow (succ_lt_pow_estimate h))

theorem uint64_estimate {v : Nat} (h : v < 2 ^ 64) :
    v.repr.utf8ByteSize ≤ estimateCharsPerUint64 v :=
  repr_le (Nat.lt_of_succ_lt (succ_lt_pow_estimate64 h))
    (ne_zero_of_succ_lt_pow (succ_lt_pow_estimate64 h))

theorem int_estimate {v : Int} (hlo : -2 ^ 31 ≤ v) (hhi : v < 2 ^ 31) :
    v.repr.utf8ByteSize ≤ estimateCharsPerInt v := by
  refine int_repr_le (succ_lt_pow_estimate ?_)
  rw [approximateAbs]
  split <;> omega

theorem int64_estimate {v : Int} (hlo : -2 ^ 63 ≤ v) (hhi : v < 2 ^ 63) :
    v.repr.utf8ByteSize ≤ estimateCharsPerInt64 v := by
  refine int_repr_le (succ_lt_pow_estimate64 ?_)
  rw [approximateAbs]
  split <;> omega

end

section

variable (writer : JsonWriter)

/-- The bytes that the escape sequence of a character adds. -/
def charExcess (c : Char) : Nat := byteSize (writer.writeChar c) - c.utf8Size

def escapeExcess : List Char → Nat
  | [] => 0
  | c :: cs => charExcess writer c + escapeExcess cs

variable (keysToCensor : List String)

mutual

/-- What the estimate misses: escape sequences, and a byte of empty objects and tuples. -/
def missed : Config → Nat
  | .string val _ _ => escapeExcess writer (cString val).toList
  | .array val _ _ _ => missedElements val
  | .object members => if members.isEmpty then 1 else missedMembers members
  | .union _ val _ => missed val
  | .tuple values => if values.isEmpty then 1 else missedElements values
  | _ => 0

def missedElements : List Config → Nat
  | [] => 0
  | value :: rest => missed value + missedElements rest

def missedMembers : List (String × Config) → Nat
  | [] => 0
  | (key, child) :: rest =>
    escapeExcess writer key.toList +
      (if child.isCensored keysToCensor key then 0 else missed child) + missedMembers rest

end

/-- What an estimate for the digits of a number has too much. -/
def spareDigits (estimate : Nat) (v : Int) : Nat := estimate - v.repr.utf8ByteSize

variable (floatSize : UInt32 → Nat)

mutual

/-- What the estimate has too much. -/
def spare : Config → Nat
  | .string val _ _ => val.utf8ByteSize - (cString val).utf8ByteSize
  | .float val => 16 - floatSize val
  | .int val _ _ => spareDigits (estimateCharsPerInt val.toInt) val.toInt
  | .uint val _ _ => spareDigits (estimateCharsPerUint val.toNat) val.toNat
  | .int52 val => spareDigits (estimateCharsPerInt64 val.toInt) val.toInt
  | .uint53 val => spareDigits (estimateCharsPerUint64 val.toNat) val.toNat
  | .uint32 val => spareDigits (estimateCharsPerUint val.toNat) val.toNat
  | .int32 val => spareDigits (estimateCharsPerInt val.toInt) val.toInt
  | .uint16 val => spareDigits (estimateCharsPerUint val.toNat) val.toNat
  | .int16 val => spareDigits (estimateCharsPerInt val.toInt) val.toInt
  | .uint8 val _ => spareDigits (estimateCharsPerUint val.toNat) val.toNat
  | .int8 val => spareDigits (estimateCharsPerInt val.toInt) val.toInt
  | .bool _ => 0
  | .empty => 0
  | .array val _ _ _ => if val.isEmpty then 0 else 1 + spareElements val
  | .object members => spareMembers members
  | .union tag val _ =>
    spareDigits (estimateCharsPerUint tag.toNat) tag.toNat + spare val
  | .tuple values => spareElements values

def spareElements : List Config → Nat
  | [] => 0
  | value :: rest => spare value + spareElements rest

def spareMembers : List (String × Config) → Nat
  | [] => 0
  | (key, child) :: rest =>
    (if child.isCensored keysToCensor key then 0 else spare child) + spareMembers rest

end

end

section

variable (writer : JsonWriter)

theorem byteSize_writeChar (c : Char) :
    byteSize (writer.writeChar c) = c.utf8Size + charExcess writer c :=
  (Nat.add_sub_cancel' (utf8Size_le_of_writesChar (writer.writesChar c))).symm

theorem byteSize_flatMap_writeChar (cs : List Char) :
    byteSize (cs.flatMap writer.writeChar) = byteSize cs + escapeExcess writer cs := by
  induction cs with
  | nil => rfl
  | cons c cs ih =>
    rw [List.flatMap_cons, byteSize_append, byteSize_writeChar, ih, byteSize_cons, escapeExcess]
    omega

theorem byteSize_writeString (cs : List Char) :
    byteSize (writer.writeString cs) = byteSize cs + escapeExcess writer cs + 2 := by
  have hquote : '"'.utf8Size = 1 := by decide
  rw [JsonWriter.writeString, byteSize_append, byteSize_cons, byteSize_flatMap_writeChar,
    byteSize_cons, byteSize_nil, hquote]
  omega

end

theorem cString_le (text : String) : (cString text).utf8ByteSize ≤ text.utf8ByteSize := by
  have hsplit := congrArg byteSize
    (List.takeWhile_append_dropWhile (p := fun c => decide (c ≠ '\x00')) (l := text.toList))
  rw [byteSize_append, byteSize_toList] at hsplit
  rw [cString, utf8ByteSize_ofList]
  omega

variable {floatJson : UInt32 → Json} {writer : JsonWriter}
  {keysToCensor : List String}

variable (writer) in
theorem byteSize_array (elements : List Json) :
    byteSize ((Json.array elements).serialize writer) + (if elements.isEmpty then 0 else 1) =
      2 + byteSize (Json.serializeElements writer elements) := by
  have hsizes : '['.utf8Size = 1 ∧ ']'.utf8Size = 1 ∧ ','.utf8Size = 1 := by decide
  cases elements with
  | nil => simp [Json.serialize, Json.serializeElements, hsizes]
  | cons e elements =>
    simp [Json.serialize, Json.serializeElements, hsizes]
    omega

variable (writer) in
theorem byteSize_object (members : List (String × Json)) :
    byteSize ((Json.object members).serialize writer) + (if members.isEmpty then 0 else 1) =
      2 + byteSize (Json.serializeMembers writer members) := by
  have hsizes : '\x7b'.utf8Size = 1 ∧ '\x7d'.utf8Size = 1 ∧ ','.utf8Size = 1 := by decide
  cases members with
  | nil => simp [Json.serialize, Json.serializeMembers, hsizes]
  | cons m members =>
    simp [Json.serialize, Json.serializeMembers, hsizes]
    omega

variable (floatJson writer)

/-- The bytes that `Config::to_string_except` writes. -/
def toStringExceptSize (keysToCensor : List String) (c : Config) : Nat :=
  byteSize ((c.toJson floatJson keysToCensor).serialize writer)

def floatSize (bits : UInt32) : Nat := byteSize ((floatJson bits).serialize writer)

variable {floatJson writer}

/-- The estimate and the text differ by what one of them has more than the other. -/
abbrev Balanced (floatJson : UInt32 → Json) (writer : JsonWriter)
    (keysToCensor : List String) (c : Config) : Prop :=
  toStringExceptSize floatJson writer keysToCensor c +
      spare keysToCensor (floatSize floatJson writer) c =
    stringLength keysToCensor c + missed writer keysToCensor c

theorem byteSize_elements (values : List Config)
    (h : ∀ c ∈ values, Balanced floatJson writer keysToCensor c) :
    byteSize (Json.serializeElements writer
        (Config.toJsonElements floatJson keysToCensor values)) +
      spareElements keysToCensor (floatSize floatJson writer) values =
      values.length + stringLengthElements keysToCensor values +
        missedElements writer keysToCensor values := by
  induction values with
  | nil => rfl
  | cons c rest ih =>
    have hc : Balanced floatJson writer keysToCensor c := h c List.mem_cons_self
    have hrest := ih fun d hd => h d (List.mem_cons_of_mem _ hd)
    have hcomma : ','.utf8Size = 1 := by decide
    rw [Balanced, toStringExceptSize] at hc
    rw [Config.toJsonElements, Json.serializeElements, byteSize_cons, byteSize_append,
      spareElements, stringLengthElements, missedElements, List.length_cons, hcomma]
    omega

theorem byteSize_members (members : List (String × Config))
    (h : ∀ m ∈ members, Balanced floatJson writer keysToCensor m.2) :
    byteSize (Json.serializeMembers writer
        (Config.toJsonMembers floatJson keysToCensor members)) +
      spareMembers keysToCensor (floatSize floatJson writer) members =
      members.length + stringLengthMembers keysToCensor members +
        missedMembers writer keysToCensor members := by
  induction members with
  | nil => rfl
  | cons m rest ih =>
    obtain ⟨key, child⟩ := m
    have hchild : Balanced floatJson writer keysToCensor child := h _ List.mem_cons_self
    have hrest := ih fun d hd => h d (List.mem_cons_of_mem _ hd)
    have hsizes : ','.utf8Size = 1 ∧ ':'.utf8Size = 1 := by decide
    rw [Balanced, toStringExceptSize] at hchild
    rw [Config.toJsonMembers, Json.serializeMembers, byteSize_cons, byteSize_append,
      byteSize_append, byteSize_cons, byteSize_writeString, byteSize_toList, spareMembers,
      stringLengthMembers, missedMembers, handleCensoredLen, List.length_cons, hsizes.1, hsizes.2]
    cases child.isCensored keysToCensor key with
    | true =>
      have hnull : byteSize (Json.serialize writer .null) = 4 := by
        rw [Json.serialize]
        decide
      simp only [if_true, hnull]
      omega
    | false =>
      simp only [Bool.false_eq_true, if_false]
      omega

theorem toStringExceptSize_int (v : Int) :
    byteSize ((Json.int v).serialize writer) = v.repr.utf8ByteSize := by
  rw [Json.serialize, byteSize_toList]

/-- The number of a leaf and the estimate for it. -/
theorem balanced_of_estimate {v : Int} {estimate : Nat} (h : v.repr.utf8ByteSize ≤ estimate) :
    byteSize ((Json.int v).serialize writer) + spareDigits estimate v = estimate + 0 := by
  rw [toStringExceptSize_int, spareDigits]
  omega

theorem balanced_leaf (hfloat : ∀ bits, floatSize floatJson writer bits ≤ 16) {c : Config}
    (hleaf : c.isLeaf = true) : Balanced floatJson writer keysToCensor c := by
  have hnat : ∀ n : Nat, (n : Int).repr = n.repr := fun _ => rfl
  cases c with
  | empty => rfl
  | string val _ _ =>
    have hle := cString_le val
    simp only [Balanced, toStringExceptSize, Config.toJson, Json.serialize,
      byteSize_writeString, byteSize_toList, spare, stringLength, missed]
    omega
  | float val =>
    have hle := hfloat val
    simp only [Balanced, toStringExceptSize, Config.toJson, spare, stringLength, missed]
    rw [floatSize] at hle ⊢
    omega
  | int val _ _ | int32 val => exact balanced_of_estimate (int_estimate val.le_toInt val.toInt_lt)
  | uint val _ _ | uint32 val => exact balanced_of_estimate (uint_estimate val.toNat_lt)
  | int52 val => exact balanced_of_estimate (int64_estimate val.le_toInt val.toInt_lt)
  | uint53 val => exact balanced_of_estimate (uint64_estimate val.toNat_lt)
  | uint16 val | uint8 val _ =>
    have hlt := val.toNat_lt
    exact balanced_of_estimate (uint_estimate (by omega))
  | int16 val | int8 val =>
    have hle := val.le_toInt
    have hlt := val.toInt_lt
    exact balanced_of_estimate (int_estimate (by omega) (by omega))
  | bool val => cases val <;> rfl
  | _ => cases hleaf

/-- For every configuration, the estimate plus what it misses is the size of the text plus what
the estimate has too much. -/
theorem balanced (hfloat : ∀ bits, floatSize floatJson writer bits ≤ 16) (c : Config) :
    Balanced floatJson writer keysToCensor c := by
  induction c using Config.induction with
  | leaf c hleaf => exact balanced_leaf hfloat hleaf
  | array val prototype minElements maxElements ih =>
    have helements := byteSize_elements val ih
    have harray := byteSize_array writer (Config.toJsonElements floatJson keysToCensor val)
    simp only [Balanced, toStringExceptSize, Config.toJson, spare, stringLength, missed]
    cases val with
    | nil =>
      simp only [Config.toJsonElements, Json.serializeElements, byteSize_nil, List.isEmpty_nil,
        if_true, stringLengthElements, missedElements, spareElements, List.length_nil] at *
      omega
    | cons c rest =>
      simp only [Config.toJsonElements, List.isEmpty_cons, Bool.false_eq_true, if_false] at *
      omega
  | object members ih =>
    have hmembers := byteSize_members members ih
    have hobject := byteSize_object writer
      (Config.toJsonMembers floatJson keysToCensor members)
    simp only [Balanced, toStringExceptSize, Config.toJson, spare, stringLength, missed]
    cases members with
    | nil =>
      simp only [Config.toJsonMembers, Json.serializeMembers, byteSize_nil, List.isEmpty_nil,
        if_true, stringLengthMembers, spareMembers, List.length_nil] at *
      omega
    | cons m rest =>
      simp only [Config.toJsonMembers, List.isEmpty_cons, Bool.false_eq_true, if_false] at *
      omega
  | union tag val prototypes ih =>
    have htag : byteSize ((Json.int tag.toNat).serialize writer) +
        spareDigits (estimateCharsPerUint tag.toNat) tag.toNat =
          estimateCharsPerUint tag.toNat + 0 :=
      balanced_of_estimate (uint_estimate (lt_trans tag.toNat_lt (by decide)))
    have harray := byteSize_array writer
      [.int tag.toNat, val.toJson floatJson keysToCensor]
    have hcomma : ','.utf8Size = 1 := by decide
    simp only [Balanced, toStringExceptSize, Config.toJson, spare, stringLength, missed,
      Json.serializeElements, byteSize_cons, byteSize_append, byteSize_nil, hcomma,
      List.isEmpty_cons, Bool.false_eq_true, if_false] at *
    omega
  | tuple values ih =>
    have helements := byteSize_elements values ih
    have harray := byteSize_array writer (Config.toJsonElements floatJson keysToCensor values)
    simp only [Balanced, toStringExceptSize, Config.toJson, spare, stringLength, missed]
    cases values with
    | nil =>
      simp only [Config.toJsonElements, Json.serializeElements, byteSize_nil, List.isEmpty_nil,
        if_true, stringLengthElements, missedElements, spareElements, List.length_nil] at *
      omega
    | cons c rest =>
      simp only [Config.toJsonElements, List.isEmpty_cons, Bool.false_eq_true, if_false] at *
      omega

/-- The estimate is an upper bound exactly if it has as much too much as it misses. -/
theorem length_estimate_iff (hfloat : ∀ bits, floatSize floatJson writer bits ≤ 16)
    (keysToCensor : List String) (c : Config) :
    toStringExceptSize floatJson writer keysToCensor c ≤ stringLength keysToCensor c ↔
      missed writer keysToCensor c ≤ spare keysToCensor (floatSize floatJson writer) c := by
  have hbalanced : Balanced floatJson writer keysToCensor c := balanced hfloat c
  rw [Balanced] at hbalanced
  omega

/-- Floats that are all written as null. -/
theorem floatSize_null (bits : UInt32) : floatSize (fun _ => .null) arduinoJson bits ≤ 16 := by
  rw [floatSize, Json.serialize]
  decide

/-- A string with a quote, and an empty object. -/
theorem length_underestimated :
    (∀ bits, floatSize (fun _ => .null) arduinoJson bits ≤ 16) ∧
      stringLength [] (.string "\"" 0 0) <
        toStringExceptSize (fun _ => .null) arduinoJson [] (.string "\"" 0 0) ∧
      stringLength [] (.object []) <
        toStringExceptSize (fun _ => .null) arduinoJson [] (.object []) := by
  refine ⟨floatSize_null, ?_, ?_⟩ <;> decide

/-- An object with a censored password and a list of names, the quote in one of them made up for
by the comma that the estimate counts behind the last one. -/
theorem length_of_quoted_name :
    toStringExceptSize (fun _ => .null) arduinoJson ["password"]
        (.object [("password", .string "\"secret\"" 0 0),
          ("names", .array [.string "a\"" 0 0, .string "b" 0 0] .empty 0 2),
          ("limit", .int32 (-2147483648))]) ≤
      stringLength ["password"]
        (.object [("password", .string "\"secret\"" 0 0),
          ("names", .array [.string "a\"" 0 0, .string "b" 0 0] .empty 0 2),
          ("limit", .int32 (-2147483648))]) :=
  (length_estimate_iff floatSize_null _ _).mpr (by decide)

end Esp32Firmware.Api
