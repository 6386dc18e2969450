import Mathlib.Data.List.Basic

/-!
# Lines of separated fields

The quoting rules of RFC 4180 over an alphabet with a quote, a separator and the characters of
a line break. A field may be quoted, quotes in a quoted field are doubled, and a quoted field may
contain everything. A line may end with a line break of one or two characters.
-/

namespace Esp32Firmware.QuotedFields

structure Alphabet (α : Type*) where
  quote : α
  separator : α
  cr : α
  lf : α
  nodup : [quote, separator, cr, lf].Nodup

variable {α : Type*} [DecidableEq α] (A : Alphabet α)

/-- Where the parser stands: before a field, in one without or with quotes, behind a quote in
one with quotes. -/
inductive Mode where
  | start
  | plain
  | quoted
  | closed

def Alphabet.lineBreaks : List (List α) := [[A.cr, A.lf], [A.lf]]

/-- The fields of a line, `none` if it is none. `field` is the current one so far. -/
def parse : Mode → List α → List α → Option (List (List α))
  | .quoted, _, [] => none
  | .start, field, [] => some [field]
  | .plain, field, [] => some [field]
  | .closed, field, [] => some [field]
  | .quoted, field, c :: rest =>
    if c = A.quote then parse .closed field rest
    else parse .quoted (field ++ [c]) rest
  | .closed, field, c :: rest =>
    if c = A.quote then parse .quoted (field ++ [c]) rest
    else if c = A.separator then (parse .start [] rest).map (field :: ·)
    else if c :: rest ∈ A.lineBreaks then some [field]
    else none
  | .start, field, c :: rest =>
    if c = A.quote then parse .quoted field rest
    else if c = A.separator then (parse .start [] rest).map (field :: ·)
    else if c :: rest ∈ A.lineBreaks then some [field]
    else parse .plain (field ++ [c]) rest
  | .plain, field, c :: rest =>
    if c = A.quote then none
    else if c = A.separator then (parse .start [] rest).map (field :: ·)
    else if c :: rest ∈ A.lineBreaks then some [field]
    else parse .plain (field ++ [c]) rest

def parseLine (line : List α) : Option (List (List α)) := parse A .start [] line

/-- The text of a quoted field between its quotes. -/
def escapeText (field : List α) : List α :=
  field.flatMap fun c => if c = A.quote then [A.quote, A.quote] else [c]

def escape (field : List α) : List α := A.quote :: escapeText A field ++ [A.quote]

/-- Quoted fields with separators between them. -/
def escapeAll : List (List α) → List α
  | [] => []
  | [field] => escape A field
  | field :: next :: rest => escape A field ++ A.separator :: escapeAll (next :: rest)

theorem parse_escapeText (acc field rest : List α) :
    parse A .quoted acc (escapeText A field ++ A.quote :: rest) =
      parse A .closed (acc ++ field) rest := by
  induction field generalizing acc with
  | nil => simp [escapeText, parse]
  | cons c field ih =>
    have hcons : escapeText A (c :: field) ++ A.quote :: rest =
        (if c = A.quote then [A.quote, A.quote] else [c]) ++
          (escapeText A field ++ A.quote :: rest) := by
      simp [escapeText]
    rw [hcons]
    by_cases hquote : c = A.quote
    · subst hquote
      simp [parse, ih]
    · simp [hquote, parse, ih]

theorem parse_escape (field rest : List α) :
    parse A .start [] (escape A field ++ rest) = parse A .closed field rest := by
  have htext := parse_escapeText A [] field rest
  simpa [escape, parse] using htext

omit [DecidableEq α] in
theorem separator_ne_quote : A.separator ≠ A.quote := by
  have h := A.nodup
  simp only [List.nodup_cons, List.mem_cons, not_or] at h
  exact Ne.symm h.1.1

variable (field : List α)

/-- Behind a quoted field, a line break ends the line. -/
theorem parse_closed_lineBreak {lineBreak : List α}
    (h : lineBreak ∈ A.lineBreaks) : parse A .closed field lineBreak = some [field] := by
  have hnodup := A.nodup
  simp only [List.nodup_cons, List.mem_cons, not_or, List.not_mem_nil] at hnodup
  obtain ⟨⟨hsep, hcr, hlf, -⟩, ⟨hscr, hslf, -⟩, -⟩ := hnodup
  simp only [Alphabet.lineBreaks, List.mem_cons, List.not_mem_nil, or_false] at h
  rcases h with rfl | rfl
  · simp [parse, Alphabet.lineBreaks, Ne.symm hcr, Ne.symm hscr]
  · simp [parse, Alphabet.lineBreaks, Ne.symm hlf, Ne.symm hslf]

/-- A line of quoted fields gives back the fields, whatever characters they have. -/
theorem parseLine_escapeAll (fields : List (List α)) (hne : fields ≠ []) {lineBreak : List α}
    (h : lineBreak ∈ A.lineBreaks) :
    parseLine A (escapeAll A fields ++ lineBreak) = some fields := by
  unfold parseLine
  induction fields with
  | nil => contradiction
  | cons field rest ih =>
    cases rest with
    | nil => rw [escapeAll, parse_escape, parse_closed_lineBreak A field h]
    | cons next rest =>
      rw [escapeAll, List.append_assoc, parse_escape, List.cons_append, parse,
        if_neg (separator_ne_quote A), if_pos rfl, ih (by simp)]
      rfl

theorem length_escapeText_le : (escapeText A field).length ≤ 2 * field.length := by
  induction field with
  | nil => simp [escapeText]
  | cons c field ih =>
    rw [escapeText, List.flatMap_cons, List.length_append, List.length_cons]
    have hhead : (if c = A.quote then [A.quote, A.quote] else [c]).length ≤ 2 := by
      split_ifs <;> simp
    unfold escapeText at ih
    omega

/-- Without quotes in it, a field only gets the two around it. -/
theorem length_escape_of_not_mem {field : List α} (h : A.quote ∉ field) :
    (escape A field).length = field.length + 2 := by
  have htext : escapeText A field = field := by
    induction field with
    | nil => rfl
    | cons c field ih =>
      simp only [List.mem_cons, not_or] at h
      have hrest := ih h.2
      unfold escapeText at hrest ⊢
      rw [List.flatMap_cons, hrest, if_neg (Ne.symm h.1)]
      rfl
  simp [escape, htext]

theorem length_escape_le : (escape A field).length ≤ 2 * field.length + 2 := by
  have htext := length_escapeText_le A field
  simp only [escape, List.length_append, List.length_cons, List.length_nil]
  omega

end Esp32Firmware.QuotedFields
