import Esp32Firmware.ChargeTracker.RepairLogic
import Esp32Firmware.Library.QuotedFields

/-!
# Lines of the CSV charge log

Each charge is a line of quoted fields, written into a buffer on the stack that drops what does
not fit. Texts are lists of bytes.

## Implementation notes

Broken-down times and printed floats are parameters. Names come from the caches of users.
-/

namespace Esp32Firmware.ChargeTracker.Csv

open Repair MeterValue QuotedFields

abbrev Text := List UInt8

def ascii (s : String) : Text := s.toList.map fun c => c.toNat.toUInt8

def quote : UInt8 := 34

/-- A `StringWriter`; the capacity is without the terminator. -/
structure StringWriter where
  capacity : ℕ
  content : Text
  fits : content.length ≤ capacity

namespace StringWriter

def new (bufferLen : ℕ) : StringWriter where
  capacity := bufferLen - 1
  content := []
  fits := by simp

def getRemainingLength (w : StringWriter) : ℕ := w.capacity - w.content.length

/-- What does not fit is dropped. -/
def puts (w : StringWriter) (text : Text) : StringWriter where
  capacity := w.capacity
  content := w.content ++ text.take w.getRemainingLength
  fits := by
    have h := w.fits
    simp only [List.length_append, List.length_take, getRemainingLength]
    omega

def putc (w : StringWriter) (c : UInt8) : StringWriter :=
  if h : w.getRemainingLength = 0 then w
  else
    { capacity := w.capacity
      content := w.content ++ [c]
      fits := by
        simp only [List.length_append, List.length_singleton, getRemainingLength] at h ⊢
        omega }

end StringWriter

inductive CSVFlavor where
  | excel
  | rfc4180
  deriving DecidableEq

def CSVFlavor.separator : CSVFlavor → UInt8
  | .excel => 59
  | .rfc4180 => 44

def CSVFlavor.lineBreak : CSVFlavor → Text
  | .excel => [13, 10]
  | .rfc4180 => [10]

def escapeCSVField (field : Text) (output : StringWriter) : StringWriter :=
  (field.foldl (fun output c => if c = quote then output.puts [quote, quote] else output.putc c)
    (output.putc quote)).putc quote

/-- The loop of `formatCSVLine`: a separator behind each field but the last one. -/
def writeFields (separator : UInt8) : List Text → StringWriter → StringWriter
  | [], line => line
  | [field], line => escapeCSVField field line
  | field :: next :: rest, line =>
    writeFields separator (next :: rest) ((escapeCSVField field line).putc separator)

/-- The size of the buffer on the stack. -/
def lineBufferSize : ℕ := 256

def formatCSVLine (fields : List Text) (flavor : CSVFlavor) : Text :=
  ((writeFields flavor.separator fields (StringWriter.new lineBufferSize)).puts
    flavor.lineBreak).content

inductive Language where
  | german
  | english
  deriving DecidableEq

/-- The parts of `struct tm` that are printed, with the year of the calendar. A time of at most
`2^32` minutes is before the year 100000. -/
structure Tm where
  year : Fin 100000
  month : Fin 12
  mday : Fin 32
  hour : Fin 24
  min : Fin 60

/-- The digits of a number. -/
def decimal (n : ℕ) : Text :=
  if n = 0 then [48] else (Nat.digits 10 n).reverse.map fun digit => 48 + digit.toUInt8

/-- `%0<width>d` -/
def padded (width n : ℕ) : Text := (decimal n).leftpad width 48

/-- What the libraries contribute: broken-down times, printed floats and the price of an energy
in `ct/100`. -/
structure Formats (V : Type*) where
  localtime : UInt32 → Tm
  /-- `%.<decimals>f` -/
  print : ℕ → V → Text
  price : V → UInt32 → V
  quote_not_mem_print : ∀ decimals value, quote ∉ print decimals value

variable {V : Type*}

def formatTimestamp (formats : Formats V) (timestampMin : UInt32) (language : Language) : Text :=
  if timestampMin = 0 then
    match language with
    | .english => ascii "Unknown"
    | .german => ascii "Unbekannt"
  else
    let t := formats.localtime timestampMin
    let text :=
      match language with
      | .english =>
        padded 4 t.year ++ ascii "-" ++ padded 2 (t.month + 1) ++ ascii "-" ++ padded 2 t.mday ++
          ascii " " ++ padded 2 t.hour ++ ascii ":" ++ padded 2 t.min
      | .german =>
        padded 2 t.mday ++ ascii "." ++ padded 2 (t.month + 1) ++ ascii "." ++ padded 4 t.year ++
          ascii " " ++ padded 2 t.hour ++ ascii ":" ++ padded 2 t.min
    text.take 127

def formatDuration (durationSeconds : BitVec 24) : Text := decimal durationSeconds.toNat

variable [MeterValue V]

/-- `formatEnergy` and `formatPrice`, with 3 and 2 decimals. -/
def formatFloat (formats : Formats V) (decimals : ℕ) (value : V) (language : Language) : Text :=
  if isnan value || lt value zero then ascii "N/A"
  else
    let text := (formats.print decimals value).take 16
    match language with
    | .german => text.map fun c => if c = 46 then 44 else c
    | .english => text

structure GenerationParams where
  language : Language
  flavor : CSVFlavor
  electricityPrice : UInt32

/-- The fields of `process_charge`. The name is that of the user, up to the terminator. -/
def chargeFields (formats : Formats V) (params : GenerationParams) (displayName : Text)
    (record : Charge V) : List Text :=
  let energyCharged :=
    if !isnan record.cs.meterStart && !isnan record.ce.meterEnd &&
        le record.cs.meterStart record.ce.meterEnd then
      sub record.ce.meterEnd record.cs.meterStart
    else nan
  let priceEuros :=
    if decide (0 < params.electricityPrice) && !isnan energyCharged && le zero energyCharged then
      formats.price energyCharged params.electricityPrice
    else zero
  let name := displayName.takeWhile (· ≠ 0)
  let fields :=
    [formatTimestamp formats record.cs.timestampMinutes params.language, name,
      formatFloat formats 3 energyCharged params.language,
      formatDuration record.ce.chargeDuration,
      [],
      formatFloat formats 3 record.cs.meterStart params.language,
      formatFloat formats 3 record.ce.meterEnd params.language]
  if 0 < params.electricityPrice then
    fields ++ [name, formatFloat formats 2 priceEuros params.language]
  else fields

/-- The writer holds what fits of a text. -/
def StringWriter.Holds (w : StringWriter) (text : Text) : Prop := w.content = text.take w.capacity

theorem StringWriter.Holds.puts {w : StringWriter} {text : Text} (h : w.Holds text)
    (more : Text) : (w.puts more).Holds (text ++ more) := by
  change w.content ++ more.take w.getRemainingLength = (text ++ more).take w.capacity
  unfold getRemainingLength
  rw [h, List.take_append, List.length_take]
  congr 2
  omega

variable (flavor : CSVFlavor) (w : StringWriter)

theorem StringWriter.putc_eq (c : UInt8) : w.putc c = w.puts [c] := by
  unfold putc StringWriter.puts
  split_ifs with h
  · simp [h]
  · have hone : [c].take w.getRemainingLength = [c] := by
      apply List.take_of_length_le
      simp only [List.length_singleton]
      omega
    simp [hone]

theorem StringWriter.Holds.putc {w : StringWriter} {text : Text} (h : w.Holds text)
    (c : UInt8) : (w.putc c).Holds (text ++ [c]) := by
  rw [StringWriter.putc_eq]
  exact h.puts [c]

@[simp] theorem StringWriter.capacity_puts (text : Text) :
    (w.puts text).capacity = w.capacity := rfl

@[simp] theorem StringWriter.capacity_putc (c : UInt8) :
    (w.putc c).capacity = w.capacity := by
  rw [StringWriter.putc_eq, StringWriter.capacity_puts]

def CSVFlavor.alphabet (flavor : CSVFlavor) : Alphabet UInt8 where
  quote := quote
  separator := flavor.separator
  cr := 13
  lf := 10
  nodup := by cases flavor <;> decide

theorem lineBreak_mem : flavor.lineBreak ∈ flavor.alphabet.lineBreaks := by
  cases flavor <;> decide

/-- The whole line. -/
def csvLine (fields : List Text) (flavor : CSVFlavor) : Text :=
  escapeAll flavor.alphabet fields ++ flavor.lineBreak

theorem holds_escapeCSVField {w : StringWriter} {text : Text}
    (h : w.Holds text) (field : Text) :
    (escapeCSVField field w).Holds (text ++ escape flavor.alphabet field) := by
  have hloop : ∀ (field text : Text) (w : StringWriter), w.Holds text →
      (field.foldl (fun output c =>
        if c = quote then output.puts [quote, quote] else output.putc c) w).Holds
          (text ++ escapeText flavor.alphabet field) := by
    intro field
    induction field with
    | nil => intro text w h; simpa [escapeText] using h
    | cons c field ih =>
      intro text w h
      rw [List.foldl_cons, escapeText, List.flatMap_cons, ← List.append_assoc]
      apply ih
      have hquote : flavor.alphabet.quote = quote := rfl
      rw [hquote]
      split_ifs with hc
      · exact h.puts [quote, quote]
      · exact h.putc c
  have hfield := (hloop field _ _ (h.putc quote)).putc quote
  simpa [escapeCSVField, escape, CSVFlavor.alphabet] using hfield

@[simp] theorem capacity_escapeCSVField (field : Text) (w : StringWriter) :
    (escapeCSVField field w).capacity = w.capacity := by
  have hloop : ∀ (field : Text) (w : StringWriter), (field.foldl (fun output c =>
        if c = quote then output.puts [quote, quote] else output.putc c) w).capacity =
          w.capacity := by
    intro field
    induction field with
    | nil => intro w; rfl
    | cons c field ih =>
      intro w
      rw [List.foldl_cons, ih]
      split_ifs <;> simp
  simp [escapeCSVField, hloop]

theorem holds_writeFields {w : StringWriter} {text : Text}
    (h : w.Holds text) (fields : List Text) :
    (writeFields flavor.separator fields w).Holds
        (text ++ escapeAll flavor.alphabet fields) ∧
      (writeFields flavor.separator fields w).capacity = w.capacity := by
  induction fields generalizing w text with
  | nil => exact ⟨by simpa [writeFields, escapeAll] using h, rfl⟩
  | cons field rest ih =>
    cases rest with
    | nil => exact ⟨holds_escapeCSVField flavor h field, capacity_escapeCSVField field w⟩
    | cons next rest =>
      have hnext := ih ((holds_escapeCSVField flavor h field).putc flavor.separator)
      rw [writeFields]
      constructor
      · simpa [escapeAll, CSVFlavor.alphabet] using hnext.1
      · simpa using hnext.2

/-- A line is cut where the buffer ends. -/
theorem formatCSVLine_eq (fields : List Text) (flavor : CSVFlavor) :
    formatCSVLine fields flavor = (csvLine fields flavor).take (lineBufferSize - 1) := by
  have hnew : (StringWriter.new lineBufferSize).Holds [] := by
    simp [StringWriter.Holds, StringWriter.new]
  obtain ⟨hfields, hcapacity⟩ := holds_writeFields flavor hnew fields
  have hline := hfields.puts flavor.lineBreak
  unfold StringWriter.Holds at hline
  rw [StringWriter.capacity_puts, hcapacity] at hline
  exact hline

/-- A line that fits parses to its fields. -/
theorem parseLine_formatCSVLine (fields : List Text) (flavor : CSVFlavor) (hne : fields ≠ [])
    (hfits : (csvLine fields flavor).length < lineBufferSize) :
    parseLine flavor.alphabet (formatCSVLine fields flavor) = some fields := by
  rw [formatCSVLine_eq, List.take_of_length_le (by omega)]
  exact parseLine_escapeAll flavor.alphabet fields hne (lineBreak_mem flavor)

/-- A text of at most a number of bytes without quotes. -/
structure Plain (size : ℕ) (text : Text) : Prop where
  length_le : text.length ≤ size
  quote_not_mem : quote ∉ text

theorem Plain.append {m n : ℕ} {text more : Text} (h : Plain m text) (h' : Plain n more) :
    Plain (m + n) (text ++ more) := by
  constructor
  · rw [List.length_append]
    exact Nat.add_le_add h.length_le h'.length_le
  · rw [List.mem_append, not_or]
    exact ⟨h.quote_not_mem, h'.quote_not_mem⟩

theorem Plain.take {m : ℕ} {text : Text} (h : quote ∉ text) : Plain m (text.take m) :=
  ⟨List.length_take_le m text, fun hmem => h (List.mem_of_mem_take hmem)⟩

theorem plain_decimal {n k : ℕ} (hk : 0 < k) (h : n < 10 ^ k) : Plain k (decimal n) := by
  unfold decimal
  split_ifs with hzero
  · exact ⟨hk, by decide⟩
  · constructor
    · rw [List.length_map, List.length_reverse]
      exact (Nat.digits_length_le_iff (by decide) n).mpr h
    · intro hmem
      obtain ⟨digit, hdigit, hquote⟩ := List.mem_map.mp hmem
      have hlt := Nat.digits_lt_base (by decide) (List.mem_reverse.mp hdigit)
      revert hquote
      interval_cases digit <;> decide

theorem plain_padded {width n k : ℕ} (hk : 0 < k) (hle : width ≤ k) (h : n < 10 ^ k) :
    Plain k (padded width n) := by
  have hplain := plain_decimal hk h
  unfold padded
  constructor
  · rw [List.length_leftpad]
    exact max_le hle hplain.length_le
  · rw [List.leftpad, List.mem_append, not_or]
    refine ⟨?_, hplain.quote_not_mem⟩
    rw [List.mem_replicate]
    rintro ⟨-, hquote⟩
    revert hquote
    decide

variable (formats : Formats V)

omit [MeterValue V] in
theorem plain_formatTimestamp (timestampMin : UInt32)
    (language : Language) : Plain 17 (formatTimestamp formats timestampMin language) := by
  unfold formatTimestamp
  split_ifs with hzero
  · cases language <;> exact ⟨by decide, by decide⟩
  · set t := formats.localtime timestampMin
    have hyear : Plain 5 (padded 4 t.year) := plain_padded (by decide) (by decide) t.year.isLt
    have hmonth : Plain 2 (padded 2 (t.month + 1)) :=
      plain_padded (by decide) le_rfl (by omega)
    have hmday : Plain 2 (padded 2 t.mday) := plain_padded (by decide) le_rfl (by omega)
    have hhour : Plain 2 (padded 2 t.hour) := plain_padded (by decide) le_rfl (by omega)
    have hmin : Plain 2 (padded 2 t.min) := plain_padded (by decide) le_rfl (by omega)
    have hdash : Plain 1 (ascii "-") := ⟨by decide, by decide⟩
    have hdot : Plain 1 (ascii ".") := ⟨by decide, by decide⟩
    have hblank : Plain 1 (ascii " ") := ⟨by decide, by decide⟩
    have hcolon : Plain 1 (ascii ":") := ⟨by decide, by decide⟩
    cases language with
    | german =>
      have hall := (((((((hmday.append hdot).append hmonth).append hdot).append hyear).append
        hblank).append hhour).append hcolon).append hmin
      exact ⟨(List.length_take_le' 127 _).trans hall.length_le,
        fun hmem => hall.quote_not_mem (List.mem_of_mem_take hmem)⟩
    | english =>
      have hall := (((((((hyear.append hdash).append hmonth).append hdash).append hmday).append
        hblank).append hhour).append hcolon).append hmin
      exact ⟨(List.length_take_le' 127 _).trans hall.length_le,
        fun hmem => hall.quote_not_mem (List.mem_of_mem_take hmem)⟩

theorem plain_formatDuration (durationSeconds : BitVec 24) :
    Plain 8 (formatDuration durationSeconds) :=
  plain_decimal (by decide) (durationSeconds.isLt.trans (by decide))

theorem plain_formatFloat (decimals : ℕ) (value : V)
    (language : Language) : Plain 16 (formatFloat formats decimals value language) := by
  unfold formatFloat
  split_ifs with hnan
  · exact ⟨by decide, by decide⟩
  · have htext : Plain 16 ((formats.print decimals value).take 16) :=
      Plain.take (formats.quote_not_mem_print decimals value)
    cases language with
    | english => exact htext
    | german =>
      constructor
      · rw [List.length_map]
        exact htext.length_le
      · intro hmem
        obtain ⟨c, hc, hquote⟩ := List.mem_map.mp hmem
        split_ifs at hquote with hdot
        · revert hquote
          decide
        · exact htext.quote_not_mem (hquote ▸ hc)

theorem Plain.length_escape_le {m : ℕ} {text : Text} (h : Plain m text) (flavor : CSVFlavor) :
    (escape flavor.alphabet text).length ≤ m + 2 := by
  rw [length_escape_of_not_mem flavor.alphabet h.quote_not_mem]
  exact Nat.add_le_add_right h.length_le 2

theorem length_lineBreak_le (flavor : CSVFlavor) : flavor.lineBreak.length ≤ 2 := by
  cases flavor <;> decide

section

variable (params : GenerationParams) (displayName : Text) (record : Charge V)

/-- Two names full of quotes and numbers of any size fit into a line. -/
theorem length_csvLine_chargeFields (hname : displayName.length ≤ 32) :
    (csvLine (chargeFields formats params displayName record) params.flavor).length <
      lineBufferSize := by
  have hname' : (escape params.flavor.alphabet (displayName.takeWhile (· ≠ 0))).length ≤ 66 := by
    have hescape := length_escape_le params.flavor.alphabet (displayName.takeWhile (· ≠ 0))
    have htaken := (List.takeWhile_sublist (l := displayName) fun c => decide (c ≠ 0)).length_le
    omega
  have hempty : (escape params.flavor.alphabet []).length ≤ 2 := by simp [escape, escapeText]
  have hstart := (plain_formatTimestamp formats record.cs.timestampMinutes
    params.language).length_escape_le params.flavor
  have hduration := (plain_formatDuration record.ce.chargeDuration).length_escape_le params.flavor
  have hfloat := fun (decimals : ℕ) (value : V) =>
    (plain_formatFloat formats decimals value params.language).length_escape_le params.flavor
  have hmeterStart := hfloat 3 record.cs.meterStart
  have hmeterEnd := hfloat 3 record.ce.meterEnd
  have hbreak := length_lineBreak_le params.flavor
  unfold csvLine chargeFields lineBufferSize
  extract_lets energyCharged priceEuros name fields
  have henergy := hfloat 3 energyCharged
  have hprice := hfloat 2 priceEuros
  split_ifs
  · simp only [fields, name, List.cons_append, List.nil_append, escapeAll, List.length_append,
      List.length_cons]
    omega
  · simp only [fields, name, escapeAll, List.length_append, List.length_cons]
    omega

theorem chargeFields_ne_nil : chargeFields formats params displayName record ≠ [] := by
  unfold chargeFields
  extract_lets energyCharged priceEuros name fields
  split_ifs <;> simp [fields]

end

/-- A line that fits gives back its fields, and the line of each charge fits. -/
theorem csvLine_parses_back (formats : Formats V) :
    (∀ (fields : List Text) (flavor : CSVFlavor), fields ≠ [] →
      (csvLine fields flavor).length < lineBufferSize →
        parseLine flavor.alphabet (formatCSVLine fields flavor) = some fields) ∧
    ∀ (params : GenerationParams) (displayName : Text) (record : Charge V),
      displayName.length ≤ 32 →
        let fields := chargeFields formats params displayName record
        formatCSVLine fields params.flavor = csvLine fields params.flavor ∧
          parseLine params.flavor.alphabet (formatCSVLine fields params.flavor) = some fields := by
  refine ⟨parseLine_formatCSVLine, ?_⟩
  intro params displayName record hname
  have hfits := length_csvLine_chargeFields formats params displayName record hname
  constructor
  · rw [formatCSVLine_eq, List.take_of_length_le (by omega)]
  · exact parseLine_formatCSVLine _ _ (chargeFields_ne_nil formats params displayName record) hfits

/-- The numbers of a charge of 5 kWh, which costs 1.50 euros. -/
def printCharge (value : Option ℚ) : Text :=
  if value = some 5 then ascii "5.000"
  else if value = some 25 then ascii "25.000"
  else if value = some 30 then ascii "30.000"
  else if value = some (3 / 2) then ascii "1.50"
  else []

theorem quote_not_mem_printCharge (value : Option ℚ) : quote ∉ printCharge value := by
  rw [printCharge]
  split_ifs <;> decide

def chargeFormats : Formats (Option ℚ) where
  localtime := fun _ => ⟨2025, 0, 1, 0, 0⟩
  print := fun _ => printCharge
  price := fun energy price => energy.map (· * price.toNat / 10000)
  quote_not_mem_print := fun _ => quote_not_mem_printCharge

/-- A quote, both separators and a line break in two fields, and a charge whose user has a quote in
the name. -/
theorem csvLine_parses_back_quotes :
    parseLine CSVFlavor.excel.alphabet
        (formatCSVLine [ascii "a\"b;", [13, 10, 44]] .excel) =
      some [ascii "a\"b;", [13, 10, 44]] ∧
    let fields := chargeFields chargeFormats ⟨.german, .rfc4180, 3000⟩ (ascii "a\"b")
      ⟨⟨28927680, some 25, 1⟩, ⟨600, some 30⟩⟩
    formatCSVLine fields .rfc4180 = csvLine fields .rfc4180 ∧
      parseLine CSVFlavor.rfc4180.alphabet (formatCSVLine fields .rfc4180) = some fields :=
  ⟨(csvLine_parses_back chargeFormats).1 _ _ (by simp) (by decide),
    (csvLine_parses_back chargeFormats).2 ⟨.german, .rfc4180, 3000⟩ _ _ (by decide)⟩

/-- A field of 300 bytes is cut, and the quote behind it is missing. -/
theorem long_field_cut :
    parseLine CSVFlavor.excel.alphabet (formatCSVLine [List.replicate 300 97] .excel) ≠
      some [List.replicate 300 97] := by
  decide +kernel

end Esp32Firmware.ChargeTracker.Csv
