import Mathlib.Data.List.Basic

/-!
# JSON texts

A value is written as a sequence of tokens with white space between them. Only the white space,
the escape sequences in strings and the literals of numbers are left to the writer.

## Implementation notes

Control characters may stand in a string as they are: common writers leave them so, and readers
accept them.
-/

namespace Esp32Firmware.JsonText

section

def IsDigits (text : List Char) : Prop :=
  text ≠ [] ∧ ∀ c ∈ text, c.isDigit = true

/-- Digits without leading zeros. -/
def IsNatural (text : List Char) : Prop :=
  IsDigits text ∧ (text.head? = some '0' → text = ['0'])

inductive IsFraction : List Char → Prop
  | none : IsFraction []
  | some {digits : List Char} (h : IsDigits digits) : IsFraction ('.' :: digits)

inductive IsExponent : List Char → Prop
  | none : IsExponent []
  | some {e : Char} {sign digits : List Char} (he : e ∈ ['e', 'E'])
      (hsign : sign ∈ [[], ['+'], ['-']]) (h : IsDigits digits) :
      IsExponent (e :: sign ++ digits)

/-- The literal of a number. -/
structure NumberLiteral where
  text : List Char
  isNumber : ∃ sign natural fraction exponent, text = sign ++ natural ++ fraction ++ exponent ∧
    sign ∈ [[], ['-']] ∧ IsNatural natural ∧ IsFraction fraction ∧ IsExponent exponent

end

inductive Value where
  | null
  | bool (value : Bool)
  | number (literal : NumberLiteral)
  | string (content : List Char)
  | array (elements : List Value)
  | object (members : List (List Char × Value))

inductive Token where
  | punct (c : Char)
  | literal (text : List Char)
  | string (content : List Char)

section

mutual

def Value.tokens : Value → List Token
  | .null => [.literal "null".toList]
  | .bool true => [.literal "true".toList]
  | .bool false => [.literal "false".toList]
  | .number n => [.literal n.text]
  | .string content => [.string content]
  | .array [] => [.punct '[', .punct ']']
  | .array (element :: elements) =>
    .punct '[' :: (element.tokens ++ moreElements elements ++ [.punct ']'])
  | .object [] => [.punct '\x7b', .punct '\x7d']
  | .object ((key, value) :: members) =>
    .punct '\x7b' :: (.string key :: .punct ':' :: value.tokens ++ moreMembers members ++
      [.punct '\x7d'])

/-- The elements behind the first one. -/
def moreElements : List Value → List Token
  | [] => []
  | element :: elements => .punct ',' :: (element.tokens ++ moreElements elements)

/-- The members behind the first one. -/
def moreMembers : List (List Char × Value) → List Token
  | [] => []
  | (key, value) :: members =>
    .punct ',' :: .string key :: .punct ':' :: (value.tokens ++ moreMembers members)

end

theorem moreMembers_append (members members' : List (List Char × Value)) :
    moreMembers (members ++ members') = moreMembers members ++ moreMembers members' := by
  induction members with
  | nil => rfl
  | cons m members ih => simp [moreMembers, ih]

end

def IsSpace (c : Char) : Prop := c ∈ [' ', '\n', '\t', '\r']

/-- The characters that stand for themselves in a string. -/
def IsPlain (c : Char) : Prop := c ≠ '"' ∧ c ≠ '\\'

instance : DecidablePred IsSpace := fun _ => inferInstanceAs (Decidable (_ ∈ _))

instance : DecidablePred IsPlain := fun _ => inferInstanceAs (Decidable (_ ∧ _))

/-- The characters with an escape sequence of two characters. -/
def shortEscapes : List (Char × Char) :=
  [('"', '"'), ('\\', '\\'), ('/', '/'), ('\x08', 'b'), ('\x0c', 'f'), ('\n', 'n'), ('\r', 'r'),
    ('\t', 't')]

def hexDigit (c : Char) : Option Nat :=
  if '0' ≤ c ∧ c ≤ '9' then some (c.toNat - '0'.toNat)
  else if 'a' ≤ c ∧ c ≤ 'f' then some (c.toNat - 'a'.toNat + 10)
  else if 'A' ≤ c ∧ c ≤ 'F' then some (c.toNat - 'A'.toNat + 10)
  else none

/-- The number that the four hexadecimal digits of an escape sequence stand for. -/
def hexNumber (digits : List Char) : Option Nat :=
  if digits.length = 4 then digits.foldlM (fun n c => (16 * n + ·) <$> hexDigit c) 0 else none

/-- What a character of a string can be written as. -/
inductive WritesChar : Char → List Char → Prop
  | plain {c : Char} (h : IsPlain c) : WritesChar c [c]
  | short {c e : Char} (h : (c, e) ∈ shortEscapes) : WritesChar c ['\\', e]
  | unicode {c : Char} {digits : List Char} (h : hexNumber digits = some c.toNat) :
      WritesChar c ('\\' :: 'u' :: digits)
  | surrogates {c : Char} {high low : List Char} {h l : Nat} (hhigh : hexNumber high = some h)
      (hlow : hexNumber low = some l) (hh : 0xd800 ≤ h ∧ h < 0xdc00)
      (hl : 0xdc00 ≤ l ∧ l < 0xe000)
      (hc : c.toNat = 0x10000 + (h - 0xd800) * 0x400 + (l - 0xdc00)) :
      WritesChar c ('\\' :: 'u' :: high ++ '\\' :: 'u' :: low)

/-- What the characters of a string can be written as. -/
inductive WritesChars : List Char → List Char → Prop
  | nil : WritesChars [] []
  | cons {c : Char} {cs s t : List Char} (hc : WritesChar c s) (hcs : WritesChars cs t) :
      WritesChars (c :: cs) (s ++ t)

inductive WritesToken : Token → List Char → Prop
  | punct (c : Char) : WritesToken (.punct c) [c]
  | literal (text : List Char) : WritesToken (.literal text) text
  | string {content body : List Char} (h : WritesChars content body) :
      WritesToken (.string content) ('"' :: body ++ ['"'])

/-- The tokens in their order, with white space around them. -/
inductive WritesTokens : List Token → List Char → Prop
  | nil {space : List Char} (h : ∀ c ∈ space, IsSpace c) : WritesTokens [] space
  | cons {token : Token} {tokens : List Token} {space s t : List Char}
      (h : ∀ c ∈ space, IsSpace c) (hs : WritesToken token s) (ht : WritesTokens tokens t) :
      WritesTokens (token :: tokens) (space ++ s ++ t)

/-- The text is one of a value. -/
def Writes (value : Value) (text : List Char) : Prop := WritesTokens value.tokens text

theorem WritesTokens.space {tokens : List Token} {space text : List Char}
    (hspace : ∀ c ∈ space, IsSpace c) (h : WritesTokens tokens text) :
    WritesTokens tokens (space ++ text) := by
  cases h with
  | nil h =>
    refine .nil fun c hc => ?_
    rcases List.mem_append.mp hc with hc | hc
    · exact hspace c hc
    · exact h c hc
  | @cons token tokens space' s t h hs ht =>
    rw [← List.append_assoc, ← List.append_assoc]
    refine .cons (fun c hc => ?_) hs ht
    rcases List.mem_append.mp hc with hc | hc
    · exact hspace c hc
    · exact h c hc

theorem WritesTokens.append {tokens tokens' : List Token} {text text' : List Char}
    (h : WritesTokens tokens text) (h' : WritesTokens tokens' text') :
    WritesTokens (tokens ++ tokens') (text ++ text') := by
  induction h with
  | nil hspace => exact h'.space hspace
  | cons hspace hs _ ih =>
    rw [List.append_assoc]
    exact .cons hspace hs ih

theorem WritesTokens.single {token : Token} {text : List Char} (h : WritesToken token text) :
    WritesTokens [token] text := by
  have hcons := WritesTokens.cons (List.forall_mem_nil _) h (.nil (List.forall_mem_nil _))
  rwa [List.nil_append, List.append_nil] at hcons

theorem WritesChars.plain {content : List Char} (h : ∀ c ∈ content, IsPlain c) :
    WritesChars content content := by
  induction content with
  | nil => exact .nil
  | cons c cs ih =>
    exact .cons (.plain (h c List.mem_cons_self)) (ih fun d hd => h d (List.mem_cons_of_mem _ hd))

end Esp32Firmware.JsonText
