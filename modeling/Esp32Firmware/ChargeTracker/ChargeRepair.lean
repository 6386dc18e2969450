import Esp32Firmware.ChargeTracker.RepairLogic
import Esp32Firmware.Library.Binary32.Special

/-!
# Repair of the charges of a directory

A full repair walks over the files of a directory with a buffer for a whole file and a record on
either side of it; the start of a charge first repairs the last charge. Both are compared with
`repair_logic` along the sequence of all records, whatever file a record is in.
-/

namespace Esp32Firmware.ChargeTracker.Repair

open MeterValue

/-- The values on the device. -/
instance : MeterValue Float32.Model where
  nan := .pack .notANumber
  zero := .ofInt 0
  isnan := Float32.Model.isNaN
  eq a b := a == b
  le a b := decide (a ≤ b)
  lt a b := decide (a < b)
  sub a b := a - b
  ltMaxRepair a := decide (a < .ofInt maxRepair)
  isnan_nan := Binary32.isNaN_pack_notANumber

variable {V : Type*}

/-- `CHARGE_RECORD_MAX_FILE_SIZE / CHARGE_RECORD_SIZE` -/
def recordsPerFile : ℕ := 256

/-- The record files of a directory: all but the last one are full. A charge that runs has its
start behind the records of the last file. -/
structure DirectoryLog (V : Type*) where
  /-- The number of the first file. -/
  firstRecord : ℕ
  full : List (List (Charge V))
  last : List (Charge V)
  running : Option (ChargeStart V)
  firstRecord_pos : 0 < firstRecord
  length_full : ∀ file ∈ full, file.length = recordsPerFile
  length_last : last.length ≤ recordsPerFile

namespace DirectoryLog

def files (log : DirectoryLog V) : List (List (Charge V)) := log.full ++ [log.last]

/-- All complete records of the directory. -/
def records (log : DirectoryLog V) : List (Charge V) := log.files.flatten

end DirectoryLog

variable [MeterValue V]

/-- The value-initialised record. -/
def emptyCharge : Charge V where
  cs := { timestampMinutes := 0, meterStart := zero, userId := 0 }
  ce := { chargeDuration := 0, meterEnd := zero }

/-- The start in the record behind, `behind` if there is none in the list. -/
def startOf (charges : List (Charge V)) (behind : V) : V :=
  match charges.head? with
  | some charge => charge.cs.meterStart
  | none => behind

/-- The end in the record before, `front` if there is none in the list. -/
def endOf (front : V) (charges : List (Charge V)) : V :=
  match charges.getLast? with
  | some charge => charge.ce.meterEnd
  | none => front

/-- `repair_logic` for one record after the other, with the end in front of the records and the
start behind them. -/
def repairLoop : ℕ → V → List (Charge V) → V → List (Charge V)
  | 0, _, charges, _ => charges
  | _ + 1, _, [], _ => []
  | count + 1, front, charge :: rest, behind =>
    let repaired := repair front charge (startOf rest behind)
    repaired :: repairLoop count repaired.ce.meterEnd rest behind

/-- `repair_logic` along all records. -/
def repairSequence (front : V) (charges : List (Charge V)) (behind : V) : List (Charge V) :=
  repairLoop charges.length front charges behind

/-- The start behind the records of a file in the buffer: in a full buffer that of the first
record of the next file, otherwise that of a running charge or what the buffer was cleared to. -/
def behindBuffer (running : Option (ChargeStart V)) (file : List (Charge V))
    (files : List (List (Charge V))) : V :=
  if file.length = recordsPerFile then
    match files with
    | [] => nan
    | next :: _ => startOf next nan
  else
    match running with
    | some cs => cs.meterStart
    | none => zero

/-- The loop of `repair_charges` over the records of a file: `a` runs from 1 to the number of
records less one. -/
def repairBuffer (front : V) (charges : List (Charge V)) (behind : V) : List (Charge V) :=
  repairLoop (charges.length - 1) front charges behind

/-- `buf[256]` when a file was read into the cleared buffer. -/
def lastOfBuffer (running : Option (ChargeStart V)) (charges : List (Charge V)) : Charge V :=
  match charges[recordsPerFile - 1]?, running with
  | some charge, _ => charge
  | none, none => emptyCharge
  | none, some cs =>
    if charges.length = recordsPerFile - 1 then { emptyCharge with cs := cs } else emptyCharge

/-- `repair_directory` over files: the record in front of the buffer afterwards and the files.
The loop ends at a file without a byte. -/
def repairFiles (running : Option (ChargeStart V)) (front : Charge V) :
    List (List (Charge V)) → Charge V × List (List (Charge V))
  | [] => (front, [])
  | file :: files =>
    if file = [] ∧ running = none then (front, file :: files)
    else
      let repaired := repairBuffer front.ce.meterEnd file (behindBuffer running file files)
      let rest := repairFiles running (lastOfBuffer running repaired) files
      (rest.1, repaired :: rest.2)

/-- `repair_charges`: the files of the directories. The record in front of the buffer stays when
the next directory is repaired. -/
def repairDirectories (front : Charge V) :
    List (DirectoryLog V) → List (List (List (Charge V)))
  | [] => []
  | log :: logs =>
    let repaired := repairFiles log.running front log.files
    repaired.2 :: repairDirectories repaired.1 logs

def repairCharges (logs : List (DirectoryLog V)) : List (List (List (Charge V))) :=
  repairDirectories emptyCharge logs

namespace DirectoryLog

/-- The start behind all complete records. -/
def behind (log : DirectoryLog V) : V :=
  match log.running with
  | some cs => cs.meterStart
  | none => nan

def lastRecord (log : DirectoryLog V) : ℕ := log.firstRecord + log.full.length

/-- The end that `repair_last` puts before the last charge; nothing for a damaged log. -/
def previousEnd (log : DirectoryLog V) : Option V :=
  if 2 ≤ log.last.length then some (endOf nan log.last.dropLast)
  else if 1 < log.lastRecord then
    match log.full.getLast? with
    | some file => some (endOf nan file.dropLast)
    | none => none
  else some nan

/-- `repair_last` on the files, with its result. In an empty file it repairs an empty record,
which never changes anything. -/
def repairLast (meterStart : V) (log : DirectoryLog V) : Bool × List (List (Charge V)) :=
  if log.running.isSome then (false, log.files)
  else
    match log.last.getLast? with
    | none => (true, log.files)
    | some charge =>
      match log.previousEnd with
      | none => (false, log.files)
      | some prevEnd =>
        (true, log.full ++ [log.last.dropLast ++ [repair prevEnd charge meterStart]])

/-- All records after the repair along their sequence. -/
def repairedRecords (log : DirectoryLog V) : List (Charge V) :=
  repairSequence nan log.records log.behind

/-- All records when the last charge is repaired with the record directly before it. -/
def repairedLast (meterStart : V) (log : DirectoryLog V) : List (Charge V) :=
  if log.running.isSome then log.records
  else
    match log.records.getLast? with
    | none => []
    | some charge =>
      log.records.dropLast ++ [repair (endOf nan log.records.dropLast) charge meterStart]

end DirectoryLog

omit [MeterValue V] in
theorem startOf_append (charges more : List (Charge V)) (behind : V) :
    startOf (charges ++ more) behind = startOf charges (startOf more behind) := by
  cases charges <;> rfl

omit [MeterValue V] in
theorem endOf_append (front : V) (charges more : List (Charge V)) :
    endOf front (charges ++ more) = endOf (endOf front charges) more := by
  rcases more.eq_nil_or_concat with rfl | ⟨init, last, rfl⟩
  · simp [endOf]
  · rw [List.concat_eq_append, ← List.append_assoc]
    simp [endOf]

omit [MeterValue V] in
@[simp] theorem endOf_concat (front : V) (charges : List (Charge V)) (charge : Charge V) :
    endOf front (charges ++ [charge]) = charge.ce.meterEnd := by
  simp [endOf]

omit [MeterValue V] in
theorem endOf_of_ne_nil (front front' : V) {charges : List (Charge V)} (h : charges ≠ []) :
    endOf front charges = endOf front' charges := by
  obtain ⟨init, last, rfl⟩ := charges.eq_nil_or_concat.resolve_left h
  rw [List.concat_eq_append, endOf_concat, endOf_concat]

@[simp] theorem length_repairLoop (count : ℕ) (front behind : V) (charges : List (Charge V)) :
    (repairLoop count front charges behind).length = charges.length := by
  induction charges generalizing count front with
  | nil => cases count <;> rfl
  | cons charge rest ih =>
    cases count with
    | zero => rfl
    | succ count => simpa [repairLoop] using ih _ _

variable (front behind : V) (running : Option (ChargeStart V)) (charges : List (Charge V))

@[simp] theorem length_repairSequence :
    (repairSequence front charges behind).length = charges.length := by
  simp [repairSequence]

@[simp] theorem length_repairBuffer :
    (repairBuffer front charges behind).length = charges.length := by
  simp [repairBuffer]

theorem repairLoop_append (count : ℕ) (front behind : V) (charges more : List (Charge V)) :
    repairLoop (charges.length + count) front (charges ++ more) behind =
      repairSequence front charges (startOf more behind) ++
        repairLoop count (endOf front (repairSequence front charges (startOf more behind)))
          more behind := by
  induction charges generalizing front with
  | nil => simp [repairSequence, repairLoop, endOf]
  | cons charge rest ih =>
    have hcount : (charge :: rest).length + count = (rest.length + count) + 1 := by
      simp only [List.length_cons]
      omega
    rw [hcount]
    simp only [List.cons_append, repairLoop, repairSequence, List.length_cons]
    rw [ih, startOf_append]
    congr 2
    have hsplit : ∀ repaired : Charge V, ∀ tail : List (Charge V),
        endOf front (repaired :: tail) = endOf repaired.ce.meterEnd tail := by
      intro repaired tail
      simpa [endOf] using endOf_append front [repaired] tail
    rw [hsplit]
    rfl

theorem repairSequence_append (charges more : List (Charge V)) :
    repairSequence front (charges ++ more) behind =
      repairSequence front charges (startOf more behind) ++
        repairSequence (endOf front (repairSequence front charges (startOf more behind)))
          more behind := by
  have h := repairLoop_append more.length front behind charges more
  rwa [← List.length_append] at h

/-- In the last place of the buffer nothing changes. -/
theorem repairBuffer_concat (last : Charge V) :
    repairBuffer front (charges ++ [last]) behind =
      repairSequence front charges last.cs.meterStart ++ [last] := by
  have h := repairLoop_append 0 front behind charges [last]
  simpa [repairBuffer, repairLoop, startOf] using h

theorem repairSequence_concat (last : Charge V) :
    repairSequence front (charges ++ [last]) behind =
      repairSequence front charges last.cs.meterStart ++
        [repair (endOf front (repairSequence front charges last.cs.meterStart)) last behind] := by
  rw [repairSequence_append]
  rfl

/-- The two passes agree on a file exactly if the one along all records leaves its last record
as it is. -/
theorem repairBuffer_eq_sequence_iff (front behind other : V) (file : List (Charge V)) :
    repairBuffer front file other = repairSequence front file behind ↔
      (repairSequence front file behind).getLast? = file.getLast? := by
  rcases file.eq_nil_or_concat with rfl | ⟨init, last, rfl⟩
  · simp [repairBuffer, repairLoop]
  · rw [List.concat_eq_append, repairBuffer_concat, repairSequence_concat]
    simp [eq_comm]

/-- The record behind the buffer is never a neighbour. -/
theorem repairBuffer_behind (front behind behind' : V) (file : List (Charge V)) :
    repairBuffer front file behind = repairBuffer front file behind' := by
  rcases file.eq_nil_or_concat with rfl | ⟨init, last, rfl⟩
  · rfl
  · rw [List.concat_eq_append, repairBuffer_concat, repairBuffer_concat]

theorem repairBuffer_cons_cons (charge next : Charge V)
    (rest : List (Charge V)) :
    repairBuffer front (charge :: next :: rest) behind = repair front charge next.cs.meterStart ::
        repairBuffer (repair front charge next.cs.meterStart).ce.meterEnd (next :: rest) behind :=
  rfl

/-- What is in front of the records matters for the first one only. -/
theorem repairBuffer_front_iff (front front' behind behind' : V) (file : List (Charge V)) :
    repairBuffer front file behind = repairBuffer front' file behind' ↔
      ∀ charge next rest, file = charge :: next :: rest →
        repair front charge next.cs.meterStart = repair front' charge next.cs.meterStart := by
  rcases file with - | ⟨charge, - | ⟨next, rest⟩⟩
  · simp [repairBuffer, repairLoop]
  · simp [repairBuffer, repairLoop]
  · rw [repairBuffer_cons_cons, repairBuffer_cons_cons]
    constructor
    · intro h charge' next' rest' hfile
      obtain ⟨rfl, rfl, rfl⟩ := hfile
      exact (List.cons.inj h).1
    · intro h
      rw [h charge next rest rfl, repairBuffer_behind _ behind behind']

/-- The pass along all records leaves the last one of each file as it is. -/
def EndsIntact (front : V) (behind : V) : List (List (Charge V)) → Prop
  | [] => True
  | file :: files =>
    let repaired := repairSequence front file (startOf files.flatten behind)
    repaired.getLast? = file.getLast? ∧ EndsIntact (endOf front repaired) behind files

theorem endOf_lastOfBuffer (front : V)
    (charges : List (Charge V)) (h : charges.length = recordsPerFile) :
    (lastOfBuffer running charges).ce.meterEnd = endOf front charges := by
  have hlast : charges[recordsPerFile - 1]? = charges.getLast? := by
    rw [List.getLast?_eq_getElem?, h]
  have hsome : ∃ charge, charges.getLast? = some charge := by
    rw [← Option.isSome_iff_exists, List.getLast?_isSome]
    rintro rfl
    simp [recordsPerFile] at h
  obtain ⟨charge, hcharge⟩ := hsome
  simp [lastOfBuffer, endOf, hlast, hcharge]

/-- A file without a byte is the last one. -/
theorem repairFiles_cons (front : Charge V)
    (file : List (Charge V)) (files : List (List (Charge V)))
    (hlast : files ≠ [] → file.length = recordsPerFile) :
    (repairFiles running front (file :: files)).2.flatten =
      repairBuffer front.ce.meterEnd file (behindBuffer running file files) ++
        (repairFiles running (lastOfBuffer running
          (repairBuffer front.ce.meterEnd file (behindBuffer running file files)))
            files).2.flatten := by
  rw [repairFiles]
  split_ifs with hempty
  · have hfiles : files = [] := by
      by_contra hne
      have hlength := hlast hne
      simp [hempty.1, recordsPerFile] at hlength
    rw [hempty.1, hfiles]
    rfl
  · simp only [List.flatten_cons]

/-- All but the last file are full. -/
def FullBeforeLast : List (List (Charge V)) → Prop
  | [] => True
  | file :: files => (files ≠ [] → file.length = recordsPerFile) ∧ FullBeforeLast files

/-- With the same end in front, both passes agree exactly if no last record of a file is
repaired: a file leaves its last record in front of the next one. -/
theorem repairFiles_eq_sequence_iff (front : Charge V)
    (behind : V) (files : List (List (Charge V))) (hfull : FullBeforeLast files) :
    (repairFiles running front files).2.flatten =
        repairSequence front.ce.meterEnd files.flatten behind ↔
      EndsIntact front.ce.meterEnd behind files := by
  induction files generalizing front with
  | nil => simp [repairFiles, repairSequence, repairLoop, EndsIntact]
  | cons file files ih =>
    obtain ⟨hlast, hrest⟩ := hfull
    rw [repairFiles_cons running front file files hlast, List.flatten_cons,
      repairSequence_append, EndsIntact,
      ← repairBuffer_eq_sequence_iff front.ce.meterEnd _ (behindBuffer running file files)]
    set buffer := repairBuffer front.ce.meterEnd file (behindBuffer running file files)
      with hbuffer
    set sequence := repairSequence front.ce.meterEnd file (startOf files.flatten behind)
      with hsequence
    -- The next file sees the end that the pass along all records left.
    have hnext : buffer = sequence →
        ((repairFiles running (lastOfBuffer running buffer) files).2.flatten =
            repairSequence (endOf front.ce.meterEnd sequence) files.flatten behind ↔
          EndsIntact (endOf front.ce.meterEnd sequence) behind files) := by
      intro hfile
      cases files with
      | nil => simp [repairFiles, repairSequence, repairLoop, EndsIntact]
      | cons next files =>
        have hlength : buffer.length = recordsPerFile := by
          simpa [hbuffer] using hlast (by simp)
        have hend := endOf_lastOfBuffer running front.ce.meterEnd buffer hlength
        rw [← hfile, ← hend]
        exact ih _ hrest
    constructor
    · intro h
      obtain ⟨hfile, htail⟩ := List.append_inj h (by simp [hbuffer, hsequence])
      exact ⟨hfile, (hnext hfile).mp htail⟩
    · rintro ⟨hfile, hends⟩
      rw [(hnext hfile).mpr hends, hfile]

theorem getLast?_repairBuffer (file : List (Charge V)) :
    (repairBuffer front file behind).getLast? = file.getLast? := by
  rcases file.eq_nil_or_concat with rfl | ⟨init, last, rfl⟩
  · rfl
  · simp [repairBuffer_concat]

/-- With another end in front, the first record has to be repaired alike as well. -/
theorem repairFiles_eq_iff (front : Charge V)
    (prevEnd behind : V) (file : List (Charge V)) (files : List (List (Charge V)))
    (hfull : FullBeforeLast (file :: files)) :
    (repairFiles running front (file :: files)).2.flatten =
        repairSequence prevEnd (file :: files).flatten behind ↔
      (∀ charge next rest, file = charge :: next :: rest →
        repair front.ce.meterEnd charge next.cs.meterStart =
          repair prevEnd charge next.cs.meterStart) ∧
      EndsIntact prevEnd behind (file :: files) := by
  -- A record that only has the end of the other pass takes the place of the front.
  have hplain := repairFiles_eq_sequence_iff running ((emptyCharge : Charge V).setMeterEnd prevEnd)
    behind (file :: files) hfull
  rw [← repairBuffer_front_iff _ _ (behindBuffer running file files)
    (behindBuffer running file files)]
  have hsame : repairBuffer front.ce.meterEnd file (behindBuffer running file files) =
        repairBuffer prevEnd file (behindBuffer running file files) →
      (repairFiles running front (file :: files)).2.flatten =
        (repairFiles running ((emptyCharge : Charge V).setMeterEnd prevEnd)
          (file :: files)).2.flatten := by
    intro h
    rw [repairFiles_cons _ _ _ _ hfull.1, repairFiles_cons _ _ _ _ hfull.1,
      Charge.setMeterEnd_meterEnd, h]
  constructor
  · intro h
    have hfile : repairBuffer front.ce.meterEnd file (behindBuffer running file files) =
        repairSequence prevEnd file (startOf files.flatten behind) := by
      rw [repairFiles_cons _ _ _ _ hfull.1, List.flatten_cons, repairSequence_append] at h
      exact (List.append_inj h (by simp)).1
    have hbuffer : repairBuffer prevEnd file (behindBuffer running file files) =
        repairSequence prevEnd file (startOf files.flatten behind) := by
      rw [repairBuffer_eq_sequence_iff, ← hfile, getLast?_repairBuffer]
    have hfront := hfile.trans hbuffer.symm
    exact ⟨hfront, hplain.mp ((hsame hfront).symm.trans h)⟩
  · rintro ⟨hfront, hends⟩
    exact (hsame hfront).trans (hplain.mpr hends)

namespace DirectoryLog

variable (log : DirectoryLog V)

omit [MeterValue V] in
theorem fullBeforeLast : FullBeforeLast log.files := by
  unfold files
  have hfull := log.length_full
  generalize log.full = full at hfull ⊢
  induction full with
  | nil => exact ⟨fun h => absurd rfl h, trivial⟩
  | cons file rest ih =>
    exact ⟨fun _ => hfull file (by simp), ih fun f hf => hfull f (by simp [hf])⟩

/-- The first record does not take the end in front of the buffer. -/
def FirstAlike (front : Charge V) : Prop :=
  ∀ charge next rest, log.files.head? = some (charge :: next :: rest) →
    ¬TakesEnd front.ce.meterEnd charge next.cs.meterStart

/-- The repair along all records leaves the last one of each file as it is. -/
def Intact : Prop := EndsIntact nan log.behind log.files

/-- A full repair of a directory does what the repair along all records does exactly if that one
leaves the last record of each file alone and the record in front of the buffer does no harm. -/
theorem repairFiles_iff (front : Charge V) :
    (repairFiles log.running front log.files).2.flatten = log.repairedRecords ↔
      log.FirstAlike front ∧ log.Intact := by
  have hfull := log.fullBeforeLast
  unfold repairedRecords records FirstAlike Intact
  generalize hfiles : log.files = files at hfull ⊢
  cases files with
  | nil => simp [files] at hfiles
  | cons file rest =>
    rw [repairFiles_eq_iff _ _ _ _ _ _ hfull]
    simp [repair_eq_repair_nan_iff]

omit [MeterValue V] in
theorem length_of_getLast? {file : List (Charge V)} (h : log.full.getLast? = some file) :
    file.length = recordsPerFile :=
  log.length_full file (List.mem_of_getLast? h)

/-- What a full repair leaves in front of the buffer: the last record of the last file with a
byte, if that file is full. -/
def frontAfter (front : Charge V) : Charge V :=
  if log.last = [] ∧ log.running = none then
    match log.full.getLast? with
    | some file => lastOfBuffer log.running file
    | none => front
  else lastOfBuffer log.running log.last

end DirectoryLog

theorem lastOfBuffer_repairBuffer (running : Option (ChargeStart V)) (front behind : V)
    (file : List (Charge V)) (h : file.length ≤ recordsPerFile) :
    lastOfBuffer running (repairBuffer front file behind) = lastOfBuffer running file := by
  have hsame : (repairBuffer front file behind)[recordsPerFile - 1]? =
      file[recordsPerFile - 1]? := by
    by_cases hfull : file.length = recordsPerFile
    · have hlast := getLast?_repairBuffer front behind file
      rwa [List.getLast?_eq_getElem?, List.getLast?_eq_getElem?, length_repairBuffer, hfull]
        at hlast
    · rw [List.getElem?_eq_none (by simp; omega), List.getElem?_eq_none (by omega)]
  unfold lastOfBuffer
  rw [hsame, length_repairBuffer]

theorem repairFiles_fst (running : Option (ChargeStart V)) (front : Charge V)
    (full : List (List (Charge V))) (last : List (Charge V))
    (hfull : ∀ file ∈ full, file.length = recordsPerFile) (hlast : last.length ≤ recordsPerFile) :
    (repairFiles running front (full ++ [last])).1 =
      if last = [] ∧ running = none then
        match full.getLast? with
        | some file => lastOfBuffer running file
        | none => front
      else lastOfBuffer running last := by
  induction full generalizing front with
  | nil =>
    simp only [List.nil_append, repairFiles]
    split_ifs with hempty
    · rfl
    · exact lastOfBuffer_repairBuffer running _ _ last hlast
  | cons file rest ih =>
    have hlength := hfull file (by simp)
    have hne : ¬(file = [] ∧ running = none) := by
      rintro ⟨rfl, -⟩
      simp [recordsPerFile] at hlength
    rw [List.cons_append, repairFiles, if_neg hne]
    rw [ih _ fun f hf => hfull f (by simp [hf]),
      lastOfBuffer_repairBuffer running _ _ file hlength.le]
    cases hrest : rest.getLast? with
    | none => simp [List.getLast?_eq_none_iff.mp hrest]
    | some f => simp [List.getLast?_cons, hrest]

/-- No directory has a first record that takes the end left in the buffer by the directory
before. -/
def FirstsAlike (front : Charge V) : List (DirectoryLog V) → Prop
  | [] => True
  | log :: logs => log.FirstAlike front ∧ FirstsAlike (log.frontAfter front) logs

theorem repairDirectories_iff (front : Charge V) (logs : List (DirectoryLog V)) :
    (repairDirectories front logs).map List.flatten = logs.map DirectoryLog.repairedRecords ↔
      FirstsAlike front logs ∧ ∀ log ∈ logs, log.Intact := by
  induction logs generalizing front with
  | nil => simp [repairDirectories, FirstsAlike]
  | cons log logs ih =>
    have hfront : (repairFiles log.running front log.files).1 = log.frontAfter front :=
      repairFiles_fst _ _ _ _ log.length_full log.length_last
    have hfirst := log.repairFiles_iff front
    have hrest := ih (log.frontAfter front)
    simp only [repairDirectories, FirstsAlike, List.map_cons, List.cons.injEq, hfront, hfirst,
      hrest, List.forall_mem_cons]
    tauto

/-- The ends that the record before the last one of a file may have when the repair along all
records reaches the last one: its own, or the start of the last one for a missing end. -/
def EndBefore (front : V) (charges : List (Charge V)) (start value : V) : Prop :=
  value = endOf front charges ∨
    charges ≠ [] ∧ usable (endOf front charges) = false ∧ value = start

/-- The last record of no file takes the end before it or the start of the record behind it. -/
def LastsStay (front behind : V) : List (List (Charge V)) → Prop
  | [] => True
  | file :: files =>
    (∀ charges charge, file = charges ++ [charge] →
      ¬TakesStart charge (startOf files.flatten behind) ∧
        ∀ value, EndBefore front charges charge.cs.meterStart value →
          ¬TakesEnd value charge (startOf files.flatten behind)) ∧
      LastsStay (endOf front file) behind files

/-- The record before the last one of each file has its end. -/
def EndsUsable (files : List (List (Charge V))) : Prop :=
  ∀ file ∈ files, ∀ init charge last, file = init ++ [charge, last] →
    usable charge.ce.meterEnd = true

theorem endBefore_repairSequence (front start : V) (charges : List (Charge V)) :
    EndBefore front charges start (endOf front (repairSequence front charges start)) := by
  rcases charges.eq_nil_or_concat with rfl | ⟨init, last, rfl⟩
  · exact Or.inl rfl
  · rw [List.concat_eq_append, repairSequence_concat, endOf_concat]
    unfold EndBefore
    rw [endOf_concat]
    exact (meterEnd_repair _ last start).imp id fun h => ⟨by simp, h⟩

/-- The last record of a file stays if it takes nothing from its neighbours. -/
theorem getLast?_repairSequence_iff (front behind : V) (charges : List (Charge V))
    (charge : Charge V) :
    (repairSequence front (charges ++ [charge]) behind).getLast? =
        (charges ++ [charge]).getLast? ↔
      ¬TakesEnd (endOf front (repairSequence front charges charge.cs.meterStart)) charge behind ∧
        ¬TakesStart charge behind := by
  rw [repairSequence_concat, ← repair_eq_self_iff]
  simp

omit [MeterValue V] in
theorem endOf_eq_of_getLast? (front : V) {charges more : List (Charge V)}
    (h : charges.getLast? = more.getLast?) : endOf front charges = endOf front more := by
  unfold endOf
  rw [h]

theorem endsIntact_of_lastsStay (front behind : V) (files : List (List (Charge V)))
    (h : LastsStay front behind files) : EndsIntact front behind files := by
  induction files generalizing front with
  | nil => trivial
  | cons file files ih =>
    obtain ⟨hstays, hrest⟩ := h
    have hlast : (repairSequence front file (startOf files.flatten behind)).getLast? =
        file.getLast? := by
      rcases file.eq_nil_or_concat with rfl | ⟨charges, charge, rfl⟩
      · rfl
      · rw [List.concat_eq_append] at hstays ⊢
        obtain ⟨hstart, hend⟩ := hstays charges charge rfl
        rw [getLast?_repairSequence_iff]
        exact ⟨hend _ (endBefore_repairSequence front _ charges), hstart⟩
    refine ⟨hlast, ?_⟩
    rw [endOf_eq_of_getLast? front hlast]
    exact ih _ hrest

theorem lastsStay_of_endsIntact (front behind : V) (files : List (List (Charge V)))
    (husable : EndsUsable files) (h : EndsIntact front behind files) :
    LastsStay front behind files := by
  induction files generalizing front with
  | nil => trivial
  | cons file files ih =>
    obtain ⟨hlast, hrest⟩ := h
    rw [endOf_eq_of_getLast? front hlast] at hrest
    refine ⟨?_, ih _ (fun other hother => husable other (by simp [hother])) hrest⟩
    rintro charges charge rfl
    rw [getLast?_repairSequence_iff] at hlast
    -- Only one end is possible, the one that is there.
    have hbefore : ∀ value, EndBefore front charges charge.cs.meterStart value →
        value = endOf front charges := by
      rintro value (hvalue | ⟨hne, hmissing, -⟩)
      · exact hvalue
      · obtain ⟨init, last, rfl⟩ := charges.eq_nil_or_concat.resolve_left hne
        rw [List.concat_eq_append] at husable hmissing
        have hthere := husable (init ++ [last] ++ [charge]) (by simp) init last charge (by simp)
        rw [endOf_concat, hthere] at hmissing
        cases hmissing
    refine ⟨hlast.2, fun value hvalue => ?_⟩
    rw [hbefore value hvalue, ← hbefore _ (endBefore_repairSequence front _ charges)]
    exact hlast.1

namespace DirectoryLog

variable (log : DirectoryLog V)

/-- A charge runs, or the last file has a second record; otherwise the last charge takes the same
from the record taken for the one before it, and nothing where there is none. -/
def LastAlike (meterStart : V) : Prop :=
  log.running.isSome ∨ 2 ≤ log.last.length ∨
    match log.last, log.full.getLast? with
    | [], none => True
    | [], some file => ∀ charge ∈ file.getLast?,
        ¬TakesEnd (endOf nan file.dropLast) charge meterStart ∧ ¬TakesStart charge meterStart
    | charge :: _, none => log.firstRecord = 1 ∨ ¬TakesStart charge meterStart
    | charge :: _, some file =>
      TakesEnd (endOf nan file.dropLast) charge meterStart ∨
          TakesEnd (endOf nan file) charge meterStart →
        endOf nan file.dropLast = endOf nan file

omit [MeterValue V] in
theorem records_eq : log.records = log.full.flatten ++ log.last := by
  simp [records, files]

variable (meterStart : V)

theorem repairedLast_concat (charges : List (Charge V)) (charge : Charge V)
    (hrunning : log.running = none) (h : log.records = charges ++ [charge]) :
    log.repairedLast meterStart = charges ++ [repair (endOf nan charges) charge meterStart] := by
  simp [repairedLast, hrunning, h]

theorem repairLast_concat (meterStart prevEnd : V) (charges : List (Charge V))
    (charge : Charge V) (hrunning : log.running = none) (h : log.last = charges ++ [charge])
    (hprevious : log.previousEnd = some prevEnd) :
    (log.repairLast meterStart).2.flatten =
      log.full.flatten ++ charges ++ [repair prevEnd charge meterStart] := by
  simp [repairLast, hrunning, h, hprevious]

/-- The last file is empty: the last charge is in the file before and stays as it is. -/
theorem repairLast_iff_of_nil (hrunning : log.running = none)
    (hlast : log.last = []) :
    (log.repairLast meterStart).2.flatten = log.repairedLast meterStart ↔
      log.LastAlike meterStart := by
  have hleft : (log.repairLast meterStart).2.flatten = log.full.flatten := by
    simp [repairLast, hrunning, hlast, files]
  rw [hleft]
  cases hfile : log.full.getLast? with
  | none =>
    have hfull := List.getLast?_eq_none_iff.mp hfile
    simp [LastAlike, repairedLast, records_eq, hlast, hfull]
  | some file =>
    have hlength := log.length_of_getLast? hfile
    obtain ⟨init, hinit⟩ := List.getLast?_eq_some_iff.mp hfile
    rcases file.eq_nil_or_concat with rfl | ⟨charges, charge, hcharges⟩
    · simp [recordsPerFile] at hlength
    · rw [List.concat_eq_append] at hcharges
      subst hcharges
      have hne : charges ≠ [] := by
        rintro rfl
        simp [recordsPerFile] at hlength
      have hrecords : log.records = (init.flatten ++ charges) ++ [charge] := by
        simp [records_eq, hlast, hinit]
      rw [log.repairedLast_concat meterStart _ _ hrunning hrecords, endOf_append,
        endOf_of_ne_nil _ nan hne]
      have hself : charge = repair (endOf nan charges) charge meterStart ↔ _ :=
        eq_comm.trans repair_eq_self_iff
      simp [LastAlike, hrunning, hlast, hinit, hself]

/-- The last file has a single record: the one before it is in the file before. -/
theorem repairLast_iff_of_singleton (charge : Charge V)
    (hrunning : log.running = none) (hlast : log.last = [charge]) :
    (log.repairLast meterStart).2.flatten = log.repairedLast meterStart ↔
      log.LastAlike meterStart := by
  have hrecords : log.records = log.full.flatten ++ [charge] := by
    rw [records_eq, hlast]
  rw [log.repairedLast_concat meterStart _ _ hrunning hrecords]
  cases hfile : log.full.getLast? with
  | none =>
    have hfull := List.getLast?_eq_none_iff.mp hfile
    by_cases hfirst : log.firstRecord = 1
    · have hprevious : log.previousEnd = some nan := by
        simp [previousEnd, hlast, lastRecord, hfull, hfirst]
      rw [log.repairLast_concat meterStart nan [] charge hrunning hlast hprevious]
      simp [LastAlike, hlast, hfull, hfirst, endOf]
    · have hprevious : log.previousEnd = none := by
        have hpos := log.firstRecord_pos
        have hmany : 1 < log.lastRecord := by
          unfold lastRecord
          omega
        simp [previousEnd, hlast, hmany, hfile]
      have hself : charge = repair nan charge meterStart ↔ _ := eq_comm.trans repair_eq_self_iff
      simp [repairLast, LastAlike, hrunning, hlast, hprevious, hfull, hfirst, files, endOf, hself,
        not_takesEnd_nan]
  | some file =>
    have hlength := log.length_of_getLast? hfile
    obtain ⟨init, hinit⟩ := List.getLast?_eq_some_iff.mp hfile
    have hprevious : log.previousEnd = some (endOf nan file.dropLast) := by
      have hpos := log.firstRecord_pos
      have hmany : 1 < log.lastRecord := by
        simp only [lastRecord, hinit, List.length_append, List.length_singleton]
        omega
      simp [previousEnd, hlast, hmany, hfile]
    have hne : file ≠ [] := by
      rintro rfl
      simp [recordsPerFile] at hlength
    rw [log.repairLast_concat meterStart _ [] charge hrunning hlast hprevious]
    have hend : endOf nan log.full.flatten = endOf nan file := by
      rw [hinit, List.flatten_append, endOf_append]
      simpa using endOf_of_ne_nil _ nan hne
    simp [LastAlike, hrunning, hlast, hfile, hend, repair_eq_repair_iff]

theorem repairLast_iff :
    (log.repairLast meterStart).2.flatten = log.repairedLast meterStart ↔
      log.LastAlike meterStart := by
  cases hrunning : log.running with
  | some cs => simp [repairLast, repairedLast, LastAlike, hrunning, records]
  | none =>
    rcases log.last.eq_nil_or_concat with hlast | ⟨charges, charge, hlast⟩
    · exact log.repairLast_iff_of_nil meterStart hrunning hlast
    · rw [List.concat_eq_append] at hlast
      by_cases hcharges : charges = []
      · subst hcharges
        exact log.repairLast_iff_of_singleton meterStart charge hrunning hlast
      · -- The record before the last one is in the same file.
        have hpos := List.length_pos_iff.mpr hcharges
        have hmany : 2 ≤ log.last.length := by
          simp only [hlast, List.length_append, List.length_singleton]
          omega
        have hprevious : log.previousEnd = some (endOf nan charges) := by
          rw [previousEnd, if_pos hmany, hlast, List.dropLast_concat]
        have hrecords : log.records = (log.full.flatten ++ charges) ++ [charge] := by
          simp [records_eq, hlast]
        rw [log.repairLast_concat meterStart _ _ _ hrunning hlast hprevious,
          log.repairedLast_concat meterStart _ _ hrunning hrecords, endOf_append,
          endOf_of_ne_nil (endOf nan log.full.flatten) nan hcharges]
        simp [LastAlike, hmany]

end DirectoryLog

namespace DirectoryLog

/-- No last record of a file of the directory takes a meter value from its neighbours. -/
def LastsStay (log : DirectoryLog V) : Prop :=
  Repair.LastsStay nan log.behind log.files

end DirectoryLog

/-- Files make no difference to a full repair if no last record of a file and no first record of a
directory takes the meter value of a neighbour that its loop does not see, and where the ends
before the last records are there, in no other case. For the last charge the condition is
exact. -/
theorem repair_across_files :
    (∀ logs : List (DirectoryLog V), FirstsAlike emptyCharge logs ∧ (∀ log ∈ logs, log.LastsStay) →
      (repairCharges logs).map List.flatten = logs.map DirectoryLog.repairedRecords) ∧
    (∀ logs : List (DirectoryLog V), (∀ log ∈ logs, EndsUsable log.files) →
      ((repairCharges logs).map List.flatten = logs.map DirectoryLog.repairedRecords ↔
        FirstsAlike emptyCharge logs ∧ ∀ log ∈ logs, log.LastsStay)) ∧
    ∀ (log : DirectoryLog V) (meterStart : V),
      (log.repairLast meterStart).2.flatten = log.repairedLast meterStart ↔
        log.LastAlike meterStart := by
  refine ⟨?_, ?_, fun log => log.repairLast_iff⟩
  · rintro logs ⟨hfirsts, hstay⟩
    refine (repairDirectories_iff emptyCharge logs).mpr ⟨hfirsts, fun log hlog => ?_⟩
    exact endsIntact_of_lastsStay nan log.behind log.files (hstay log hlog)
  · intro logs husable
    refine (repairDirectories_iff emptyCharge logs).trans (and_congr_right' ?_)
    refine forall₂_congr fun log hlog => ⟨?_, endsIntact_of_lastsStay nan log.behind log.files⟩
    exact lastsStay_of_endsIntact nan log.behind log.files (husable log hlog)

/-- A charge without a start within the first file. -/
def missingWithin : DirectoryLog (Option ℚ) where
  firstRecord := 1
  full := [List.replicate 254 (chargeOf (some 990) (some 995)) ++
    [chargeOf none (some 1000), chargeOf (some 1000) (some 1005)]]
  last := [chargeOf (some 1005) (some 1010)]
  running := none
  firstRecord_pos := by decide
  length_full := by
    intro file hfile
    obtain rfl := List.mem_singleton.mp hfile
    rw [List.length_append, List.length_replicate]
    rfl
  length_last := by simp [recordsPerFile]

theorem missingWithin_repaired :
    (repairCharges [missingWithin]).map List.flatten = [missingWithin.repairedRecords] := by
  refine repair_across_files.1 [missingWithin] ⟨⟨?_, trivial⟩, ?_⟩
  · intro charge next rest hfile htakes
    have hcharge : charge = chargeOf (some 990) (some 995) := by
      simp only [missingWithin, DirectoryLog.files] at hfile
      exact (List.cons.inj (Option.some.inj hfile)).1.symm
    subst hcharge
    exact absurd htakes.2.1 (by decide +kernel)
  · intro log hlog
    obtain rfl := List.mem_singleton.mp hlog
    -- The last charges of both files are complete.
    have hstays : ∀ (start stop : Option ℚ) (next value : Option ℚ),
        usable start = true → usable stop = true →
        ¬TakesStart (chargeOf start stop) next ∧ ¬TakesEnd value (chargeOf start stop) next := by
      intro start stop next value hstart hstop
      refine ⟨fun htakes => ?_, fun htakes => ?_⟩
      · exact absurd (hstop.symm.trans htakes.2.1) (by decide)
      · exact absurd (hstart.symm.trans htakes.2.1) (by decide)
    refine ⟨?_, ?_, trivial⟩
    · intro charges charge hfile
      have hcharge := congrArg List.getLast? hfile
      rw [List.getLast?_concat, List.getLast?_append] at hcharge
      obtain rfl := Option.some.inj hcharge
      exact ⟨(hstays _ _ _ none rfl rfl).1, fun value _ => (hstays _ _ _ value rfl rfl).2⟩
    · intro charges charge hfile
      have hcharge := congrArg List.getLast? hfile
      rw [List.getLast?_concat] at hcharge
      obtain rfl := Option.some.inj hcharge
      exact ⟨(hstays _ _ _ none rfl rfl).1, fun value _ => (hstays _ _ _ value rfl rfl).2⟩

/-- The start of the second charge is missing. -/
def missingStart : DirectoryLog (Option ℚ) where
  firstRecord := 1
  full := []
  last := [chargeOf (some 995) (some 1000), chargeOf none (some 1010)]
  running := none
  firstRecord_pos := by decide
  length_full := by simp
  length_last := by simp [recordsPerFile]

/-- The start of the only charge in the second file is missing. -/
def missingFirstStart : DirectoryLog (Option ℚ) where
  firstRecord := 1
  full := [List.replicate 255 (chargeOf (some 990) (some 995)) ++ [chargeOf (some 995) (some 1000)]]
  last := [chargeOf none (some 1010)]
  running := none
  firstRecord_pos := by decide
  length_full := by
    intro file hfile
    obtain rfl := List.mem_singleton.mp hfile
    rw [List.length_append, List.length_replicate]
    rfl
  length_last := by simp [recordsPerFile]

/-- The last charge of a file stays broken, and the first charge of the second file is repaired
with the last but one charge of the first file. -/
theorem neighbour_missed :
    (repairCharges [missingStart]).map List.flatten ≠ [missingStart.repairedRecords] ∧
      (missingFirstStart.repairLast (some 1011)).2.flatten ≠
        missingFirstStart.repairedLast (some 1011) := by
  decide +kernel

end Esp32Firmware.ChargeTracker.Repair
