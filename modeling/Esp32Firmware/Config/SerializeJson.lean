import Esp32Firmware.Config.UpdateFits
import Esp32Firmware.Library.JsonText

/-!
# Serialising JSON documents

The text of a document is written without white space.

## Implementation notes

The text of a float and the way in which the characters of a string are written are those of the
JSON library, which is a parameter. Floats that are no numbers have no text and are written as null.
-/

namespace Esp32Firmware.Configuration

open JsonText

/-- How the JSON library writes: every character of a string as one of its texts. -/
structure JsonWriter where
  floatText : UInt64 → Option NumberLiteral
  writeChar : Char → List Char
  writesChar : ∀ c, WritesChar c (writeChar c)

def JsonWriter.writeString (writer : JsonWriter) (content : List Char) : List Char :=
  '"' :: content.flatMap writer.writeChar ++ ['"']

section

/-- The size of a text in bytes. -/
def byteSize : List Char → Nat
  | [] => 0
  | c :: cs => c.utf8Size + byteSize cs

@[simp]
theorem byteSize_nil : byteSize [] = 0 := rfl

@[simp]
theorem byteSize_cons (c : Char) (cs : List Char) :
    byteSize (c :: cs) = c.utf8Size + byteSize cs := rfl

@[simp]
theorem byteSize_append (cs ds : List Char) : byteSize (cs ++ ds) = byteSize cs + byteSize ds := by
  induction cs with
  | nil => rw [List.nil_append, byteSize_nil, Nat.zero_add]
  | cons c cs ih => rw [List.cons_append, byteSize_cons, byteSize_cons, ih, Nat.add_assoc]

theorem utf8ByteSize_ofList (cs : List Char) : (String.ofList cs).utf8ByteSize = byteSize cs := by
  induction cs with
  | nil => rfl
  | cons c cs ih =>
    rw [← List.singleton_append, String.ofList_append, String.utf8ByteSize_append, ih,
      ← String.singleton_eq_ofList, String.utf8ByteSize_singleton]
    rfl

theorem byteSize_toList (text : String) : byteSize text.toList = text.utf8ByteSize := by
  rw [← utf8ByteSize_ofList, String.ofList_toList]

theorem utf8Size_of_isDigit {c : Char} (h : c.isDigit = true) : c.utf8Size = 1 := by
  rw [Char.utf8Size_eq_one_iff]
  rw [Char.isDigit, Bool.and_eq_true, decide_eq_true_iff, decide_eq_true_iff] at h
  exact UInt32.le_trans h.2 (by decide)

theorem byteSize_of_isDigit {cs : List Char} (h : ∀ c ∈ cs, c.isDigit = true) :
    byteSize cs = cs.length := by
  induction cs with
  | nil => rfl
  | cons c cs ih =>
    rw [byteSize_cons, utf8Size_of_isDigit (h c List.mem_cons_self),
      ih fun d hd => h d (List.mem_cons_of_mem _ hd), List.length_cons, Nat.add_comm]

theorem length_le_byteSize (cs : List Char) : cs.length ≤ byteSize cs := by
  induction cs with
  | nil => exact Nat.le_refl 0
  | cons c cs ih =>
    have hpos := c.utf8Size_pos
    rw [List.length_cons, byteSize_cons]
    omega

theorem shortEscapes_utf8Size : ∀ p ∈ shortEscapes, p.1.utf8Size = 1 := by decide

/-- No escape sequence is shorter than its character. -/
theorem utf8Size_le_of_writesChar {c : Char} {text : List Char} (h : WritesChar c text) :
    c.utf8Size ≤ byteSize text := by
  have hlength := length_le_byteSize text
  have hfour := c.utf8Size_le_four
  have hdigits {digits : List Char} {n : Nat} (h : hexNumber digits = some n) :
      digits.length = 4 := by
    by_contra hne
    rw [hexNumber, if_neg hne] at h
    cases h
  cases h with
  | plain => exact Nat.le_add_right _ _
  | short h =>
    have hsize : c.utf8Size = 1 := shortEscapes_utf8Size _ h
    simp only [List.length_cons] at hlength
    omega
  | unicode h | surrogates h =>
    simp only [List.length_cons, List.length_append, hdigits h] at hlength
    omega

/-- The decimal digits of a number are as many bytes. -/
theorem utf8ByteSize_repr (n : Nat) : n.repr.utf8ByteSize = (Nat.toDigits 10 n).length := by
  rw [← byteSize_toList, Nat.toList_repr, byteSize_of_isDigit]
  exact fun c hc => Nat.isDigit_of_mem_toDigits (by omega) (by omega) hc

end

namespace Json

variable (writer : JsonWriter)

mutual

def serialize : Json → List Char
  | .null => "null".toList
  | .bool true => "true".toList
  | .bool false => "false".toList
  | .int value => value.repr.toList
  | .float bits =>
    match writer.floatText bits with
    | some literal => literal.text
    | none => "null".toList
  | .string value => writer.writeString value.toList
  | .array [] => ['[', ']']
  | .array (element :: elements) =>
    '[' :: (serialize element ++ serializeElements elements ++ [']'])
  | .object [] => ['\x7b', '\x7d']
  | .object ((key, value) :: members) =>
    '\x7b' :: (writer.writeString key.toList ++ ':' :: serialize value ++ serializeMembers members ++
      ['\x7d'])

/-- The elements behind the first one. -/
def serializeElements : List Json → List Char
  | [] => []
  | element :: elements => ',' :: (serialize element ++ serializeElements elements)

/-- The members behind the first one. -/
def serializeMembers : List (String × Json) → List Char
  | [] => []
  | (key, value) :: members =>
    ',' :: (writer.writeString key.toList ++ ':' :: serialize value ++ serializeMembers members)

end

section

theorem toDigits_head (n : Nat) (h : (Nat.toDigits 10 n).head? = some '0') :
    Nat.toDigits 10 n = ['0'] := by
  induction n using Nat.strong_induction_on with
  | _ n ih =>
    by_cases hn : n < 10
    · rw [Nat.toDigits_of_lt_base hn] at h ⊢
      exact congrArg (fun c => [c]) (Option.some.inj h)
    · rw [Nat.toDigits_of_base_le (by omega) (by omega),
        List.head?_append_of_ne_nil _ Nat.toDigits_ne_nil] at h
      have hzero := ih (n / 10) (by omega) h
      have hdiv : n / 10 = 0 := by
        have hvalue := congrArg (fun cs => Nat.ofDigitChars 10 cs 0) hzero
        rwa [Nat.ofDigitChars_ten_toDigits] at hvalue
      omega

theorem isNatural_toDigits (n : Nat) : IsNatural (Nat.toDigits 10 n) :=
  ⟨⟨Nat.toDigits_ne_nil, fun _ hc => Nat.isDigit_of_mem_toDigits (by omega) (by omega) hc⟩,
    toDigits_head n⟩

/-- The literal of an integer. -/
def intLiteral (value : Int) : NumberLiteral where
  text := value.repr.toList
  isNumber := by
    rw [Int.repr_eq_if]
    split
    · exact ⟨[], Nat.toDigits 10 value.toNat, [], [], by simp, by simp,
        isNatural_toDigits _, .none, .none⟩
    · exact ⟨['-'], Nat.toDigits 10 (-value).toNat, [], [], by simp, by simp,
        isNatural_toDigits _, .none, .none⟩

end

mutual

/-- The JSON value that a document stands for. -/
def toValue : Json → Value
  | .null => .null
  | .bool value => .bool value
  | .int value => .number (intLiteral value)
  | .float bits =>
    match writer.floatText bits with
    | some literal => .number literal
    | none => .null
  | .string value => .string value.toList
  | .array elements => .array (elementValues elements)
  | .object members => .object (memberValues members)

def elementValues : List Json → List Value
  | [] => []
  | element :: elements => element.toValue :: elementValues elements

def memberValues : List (String × Json) → List (List Char × Value)
  | [] => []
  | (key, value) :: members => (key.toList, value.toValue) :: memberValues members

end

theorem writesChars_flatMap (content : List Char) :
    WritesChars content (content.flatMap writer.writeChar) := by
  induction content with
  | nil => exact .nil
  | cons c cs ih => exact .cons (writer.writesChar c) ih

theorem writesTokens_writeString (content : List Char) :
    WritesTokens [.string content] (writer.writeString content) :=
  .single (.string (writesChars_flatMap writer content))

theorem writesTokens_punct (c : Char) : WritesTokens [.punct c] [c] :=
  .single (.punct c)

theorem writesTokens_serializeElements (elements : List Json)
    (h : ∀ e ∈ elements, Writes (e.toValue writer) (e.serialize writer)) :
    WritesTokens (moreElements (elementValues writer elements))
      (serializeElements writer elements) := by
  induction elements with
  | nil => exact .nil (List.forall_mem_nil _)
  | cons e elements ih =>
    rw [elementValues, moreElements, serializeElements]
    exact (writesTokens_punct ',').append ((h e List.mem_cons_self).append
      (ih fun d hd => h d (List.mem_cons_of_mem _ hd)))

theorem writesTokens_serializeMembers (members : List (String × Json))
    (h : ∀ m ∈ members, Writes (m.2.toValue writer) (m.2.serialize writer)) :
    WritesTokens (moreMembers (memberValues writer members))
      (serializeMembers writer members) := by
  induction members with
  | nil => exact .nil (List.forall_mem_nil _)
  | cons m members ih =>
    rw [memberValues, moreMembers, serializeMembers]
    have hvalue := (h m List.mem_cons_self).append
      (ih fun d hd => h d (List.mem_cons_of_mem _ hd))
    have hkey := (writesTokens_writeString writer m.1.toList).append
      ((writesTokens_punct ':').append hvalue)
    simpa using (writesTokens_punct ',').append hkey

/-- The text of a document is a text of its value. -/
theorem writes_serialize (doc : Json) :
    Writes (doc.toValue writer) (doc.serialize writer) := by
  induction doc using Json.induction with
  | null => exact .single (.literal _)
  | scalar node hscalar =>
    cases node with
    | bool value =>
      cases value with
      | true | false => exact .single (.literal _)
    | int value => exact .single (.literal _)
    | float bits =>
      rw [toValue, serialize]
      cases writer.floatText bits with
      | some literal | none => exact .single (.literal _)
    | string value => exact writesTokens_writeString writer value.toList
    | _ => cases hscalar
  | array nodes ih =>
    cases nodes with
    | nil => exact (writesTokens_punct '[').append (writesTokens_punct ']')
    | cons e elements =>
      rw [serialize, toValue, elementValues]
      have hmore := writesTokens_serializeElements writer elements
        fun d hd => ih d (List.mem_cons_of_mem _ hd)
      exact (writesTokens_punct '[').append
        (((ih e List.mem_cons_self).append hmore).append (writesTokens_punct ']'))
  | object nodes ih =>
    cases nodes with
    | nil => exact (writesTokens_punct '\x7b').append (writesTokens_punct '\x7d')
    | cons m members =>
      rw [serialize, toValue, memberValues]
      have hmore := writesTokens_serializeMembers writer members
        fun d hd => ih d (List.mem_cons_of_mem _ hd)
      have hvalue := ((ih m List.mem_cons_self).append hmore).append
        (writesTokens_punct '\x7d')
      have hkey := (writesTokens_writeString writer m.1.toList).append
        ((writesTokens_punct ':').append hvalue)
      simpa [Writes, Value.tokens] using (writesTokens_punct '\x7b').append hkey

end Json

def escapeTable : List (Char × Char) :=
  [('"', '"'), ('\\', '\\'), ('\x08', 'b'), ('\x0c', 'f'), ('\n', 'n'), ('\r', 'r'), ('\t', 't')]

/-- Only what has a short escape sequence is escaped, and the NUL. -/
def writeEscaped (c : Char) : List Char :=
  match escapeTable.lookup c with
  | some e => ['\\', e]
  | none => if c = '\x00' then "\\u0000".toList else [c]

theorem escapeTable_subset : escapeTable ⊆ shortEscapes := by decide

theorem writesChar_writeEscaped (c : Char) : WritesChar c (writeEscaped c) := by
  rw [writeEscaped]
  cases h : escapeTable.lookup c with
  | some e =>
    obtain ⟨before, after, htable, -⟩ := List.lookup_eq_some_iff.mp h
    have hmem : (c, e) ∈ escapeTable := by simp [htable]
    exact .short (escapeTable_subset hmem)
  | none =>
    by_cases hzero : c = '\x00'
    · subst hzero
      exact @WritesChar.unicode '\x00' ['0', '0', '0', '0'] (by decide)
    · rw [if_neg hzero]
      refine .plain ⟨?_, ?_⟩
      · rintro rfl
        cases h
      · rintro rfl
        cases h

/-- The writer of strings, with floats that are all written as null. -/
def arduinoJson : JsonWriter where
  floatText _ := none
  writeChar := writeEscaped
  writesChar := writesChar_writeEscaped

end Esp32Firmware.Configuration
