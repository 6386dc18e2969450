import Esp32Firmware.ChargeTracker.Records

/-!
# The format of charge record files

The files of a directory are numbered without gaps, all but the last one are full, starts and
ends take turns across them. Each call keeps this for every directory, and whether the last
charge is open is what the last successful call made it.

In a valid log each call leaves the files alone or appends to the last file of a directory,
starts a new file there or drops the first file of some directory.
-/

namespace Esp32Firmware.ChargeTracker

/-- Whether a charge is open after the entries, if starts and ends take turns. -/
def turn : Bool → List Entry → Option Bool
  | charging, [] => some charging
  | false, .start _ :: rest => turn true rest
  | true, .stop _ :: rest => turn false rest
  | false, .stop _ :: _ => none
  | true, .start _ :: _ => none

theorem turn_append (charging : Bool) (entries more : List Entry) :
    turn charging (entries ++ more) = (turn charging entries).bind fun c => turn c more := by
  induction entries generalizing charging with
  | nil => simp [turn]
  | cons entry rest ih => cases charging <;> cases entry <;> simp [turn, ih]

theorem fileSize_append (file more : RecordFile) :
    fileSize (file ++ more) = fileSize file + fileSize more := by
  simp [fileSize]

@[simp] theorem fileSize_nil : fileSize [] = 0 := rfl

@[simp] theorem fileSize_start (cs : ChargeStart) : fileSize [.start cs] = 9 := rfl

@[simp] theorem fileSize_stop (ce : ChargeEnd) : fileSize [.stop ce] = 7 := rfl

/-- Bytes of a started record. -/
def openSize : Bool → Nat
  | false => 0
  | true => 9

/-- The size of a file shows whether its last charge is open. -/
theorem fileSize_mod_of_turn {entries : List Entry} {before after : Bool}
    (h : turn before entries = some after) :
    (openSize before + fileSize entries) % 16 = openSize after := by
  induction entries generalizing before with
  | nil =>
    obtain rfl := Option.some.inj h
    cases before <;> rfl
  | cons entry rest ih =>
    have hcons : fileSize (entry :: rest) = entry.size + fileSize rest := rfl
    cases before <;> cases entry <;> simp only [turn, reduceCtorEq] at h <;>
      specialize ih h <;>
      simp only [hcons, Entry.size, openSize, chargeStartSize, chargeEndSize] at ih ⊢ <;> omega

theorem fileSize_mod_iff {entries : List Entry} {charging : Bool}
    (h : turn false entries = some charging) :
    fileSize entries % 16 = openSize charging := by
  simpa [openSize] using fileSize_mod_of_turn h

theorem fileSize_flatten_of_full {full : List RecordFile}
    (h : ∀ file ∈ full, fileSize file = chargeRecordMaxFileSize) :
    fileSize full.flatten = full.length * chargeRecordMaxFileSize := by
  induction full with
  | nil => rfl
  | cons file rest ih =>
    obtain ⟨hfile, hrest⟩ := List.forall_mem_cons.mp h
    rw [List.flatten_cons, fileSize_append, hfile, ih hrest, List.length_cons]
    ring

/-- Full files, then the last one, hold starts and ends in turn. -/
structure Rotated (full : List RecordFile) (last : RecordFile) (charging : Bool) : Prop where
  allFull : ∀ file ∈ full, fileSize file = chargeRecordMaxFileSize
  lastFits : fileSize last ≤ chargeRecordMaxFileSize
  inTurn : turn false (full.flatten ++ last) = some charging

namespace Rotated

variable {full : List RecordFile} {last : RecordFile} {charging : Bool}

theorem last_mod (h : Rotated full last charging) : fileSize last % 16 = openSize charging := by
  have hsize := fileSize_mod_iff h.inTurn
  rw [fileSize_append, fileSize_flatten_of_full h.allFull] at hsize
  simp only [chargeRecordMaxFileSize] at hsize
  omega

theorem charging_iff (h : Rotated full last charging) :
    fileSize last % chargeRecordSize = chargeStartSize ↔ charging := by
  have := h.last_mod
  cases charging <;> simp_all [openSize, chargeRecordSize, chargeStartSize, chargeEndSize]

/-- A start fits into a file that is not full. -/
theorem start (h : Rotated full last false) (cs : ChargeStart)
    (hroom : fileSize last ≠ chargeRecordMaxFileSize) :
    Rotated full (last ++ [.start cs]) true where
  allFull := h.allFull
  lastFits := by
    have hmod := h.last_mod
    have hlast := h.lastFits
    simp only [openSize, chargeRecordMaxFileSize] at hmod hlast hroom
    rw [fileSize_append, fileSize_start, chargeRecordMaxFileSize]
    omega
  inTurn := by
    rw [← List.append_assoc, turn_append, h.inTurn]
    rfl

/-- An end fits after a start. -/
theorem stop (h : Rotated full last true) (ce : ChargeEnd) :
    Rotated full (last ++ [.stop ce]) false where
  allFull := h.allFull
  lastFits := by
    have hmod := h.last_mod
    have hlast := h.lastFits
    simp only [openSize, chargeRecordMaxFileSize] at hmod hlast
    rw [fileSize_append, fileSize_stop, chargeRecordMaxFileSize]
    omega
  inTurn := by
    rw [← List.append_assoc, turn_append, h.inTurn]
    rfl

/-- A full file has no open charge. -/
theorem not_charging (h : Rotated full last charging)
    (hfull : fileSize last = chargeRecordMaxFileSize) : charging = false := by
  have hmod := h.last_mod
  rw [hfull, chargeRecordMaxFileSize] at hmod
  cases charging
  · rfl
  · simp [openSize] at hmod

/-- A full file is followed by a new one. -/
theorem rollOver (h : Rotated full last charging) (cs : ChargeStart)
    (hfull : fileSize last = chargeRecordMaxFileSize) :
    Rotated (full ++ [last]) [.start cs] true where
  allFull file hmem := by
    rcases List.mem_append.mp hmem with hmem | hmem
    · exact h.allFull file hmem
    · rwa [List.mem_singleton.mp hmem]
  lastFits := by
    rw [fileSize_start, chargeRecordMaxFileSize]
    omega
  inTurn := by
    have hturn := h.inTurn
    rw [h.not_charging hfull] at hturn
    rw [List.flatten_append, List.flatten_singleton, turn_append, hturn]
    rfl

/-- The rest is in turn when a full file is dropped. -/
theorem tail {first : RecordFile} (h : Rotated (first :: full) last charging) :
    Rotated full last charging where
  allFull file hmem := h.allFull file (List.mem_cons_of_mem _ hmem)
  lastFits := h.lastFits
  inTurn := by
    have hturn := h.inTurn
    rw [List.flatten_cons, List.append_assoc, turn_append, Option.bind_eq_some_iff] at hturn
    obtain ⟨after, hfirst, hrest⟩ := hturn
    have hsize := fileSize_mod_iff hfirst
    rw [h.allFull first List.mem_cons_self, chargeRecordMaxFileSize] at hsize
    cases after
    · exact hrest
    · simp [openSize] at hsize

end Rotated

/-- Record files of a directory in the order of a listing. -/
inductive ValidDirectory (files : List (Nat × RecordFile)) (charging : Bool) : Prop where
  | empty (hfiles : files = []) (hcharging : charging = false)
  | rotated (first : Nat) (full : List RecordFile) (last : RecordFile) (hfirst : 0 < first)
      (hfiles : files.Perm (numbered first (full ++ [last])))
      (hrotated : Rotated full last charging)

/-- Record numbers of a directory with files. -/
theorem getChargerChargeRecords_eq {fileCount first : Nat} {log : Log} {directory : Directory}
    {full : List RecordFile} {last : RecordFile} (hfirst : 0 < first)
    (hfiles : (log.files directory).Perm (numbered first (full ++ [last])))
    (hroom : (log.files directory).length ≤ fileCount + 2) :
    log.getChargerChargeRecords fileCount directory = some (first, first + full.length) := by
  have hnumbers : ((log.files directory).map Prod.fst).Perm
      (List.range' first (full.length + 1)) := by
    have hmap := hfiles.map Prod.fst
    rwa [map_fst_numbered, List.length_append, List.length_singleton] at hmap
  have hblobs : log.foundBlobs fileCount directory = (log.files directory).map Prod.fst := by
    unfold Log.foundBlobs
    rw [List.filter_eq_self.mpr, List.take_of_length_le]
    · rwa [List.length_map]
    · intro n hn
      have := (List.mem_range'_1.mp (hnumbers.mem_iff.mp hn)).1
      exact decide_eq_true (by omega)
  unfold Log.getChargerChargeRecords
  rw [hblobs, min?_perm_range' hnumbers, max?_perm_range' hnumbers]

theorem getChargerChargeRecords_eq_none {fileCount : Nat} {log : Log} {directory : Directory}
    (h : log.files directory = []) : log.getChargerChargeRecords fileCount directory = none := by
  simp [Log.getChargerChargeRecords, Log.foundBlobs, h]

theorem read_last {first : Nat} {log : Log} {directory : Directory} {full : List RecordFile}
    {last : RecordFile} (hfiles : (log.files directory).Perm (numbered first (full ++ [last]))) :
    log.read directory (first + full.length) = last := by
  unfold Log.read
  rw [lookup_last hfiles]
  rfl

/-- A log as the device keeps it, with the directories in which a charge is open. -/
structure Valid (fileCount : Nat) (log : Log) (charging : Directory → Bool) : Prop where
  directory : ∀ directory, ValidDirectory (log.files directory) (charging directory)
  room : ∀ directory, (log.files directory).length ≤ fileCount + 2
  known : ∀ directory, ¬ log.hasDirectory directory → log.files directory = []
  chargers : log.chargers.Nodup

variable {fileCount : Nat} {log : Log} {charging : Directory → Bool} {directory : Directory}
  {t : Tracker} {env : Environment}

variable {files : List (Nat × RecordFile)}

@[simp] theorem setFiles_files_self :
    (log.setFiles directory files).files directory = files := Function.update_self ..

theorem setFiles_files_of_ne {other : Directory} (h : other ≠ directory) :
    (log.setFiles directory files).files other = log.files other :=
  Function.update_of_ne h ..

@[simp] theorem setFiles_setFiles {files' : List (Nat × RecordFile)} :
    (log.setFiles directory files).setFiles directory files' = log.setFiles directory files' := by
  simp [Log.setFiles]

/-- The files of one directory are replaced. -/
theorem Valid.setFiles (h : Valid fileCount log charging) {open' : Bool}
    (hfiles : ValidDirectory files open') (hroom : files.length ≤ fileCount + 2)
    (hknown : log.hasDirectory directory) :
    Valid fileCount (log.setFiles directory files) (Function.update charging directory open') where
  directory other := by
    rcases eq_or_ne other directory with rfl | hne
    · rwa [setFiles_files_self, Function.update_self]
    · rw [setFiles_files_of_ne hne, Function.update_of_ne hne]
      exact h.directory other
  room other := by
    rcases eq_or_ne other directory with rfl | hne
    · rwa [setFiles_files_self]
    · rw [setFiles_files_of_ne hne]
      exact h.room other
  known other hother := by
    have hne : other ≠ directory := fun heq => hother (heq ▸ hknown)
    rw [setFiles_files_of_ne hne]
    exact h.known other hother
  chargers := h.chargers

/-- The directory of a log with records exists. -/
theorem Valid.hasDirectory_of_records (h : Valid fileCount log charging) {records : Nat × Nat}
    (hrecords : log.getChargerChargeRecords fileCount directory = some records) :
    log.hasDirectory directory := by
  by_contra hnot
  rw [getChargerChargeRecords_eq_none (h.known directory hnot)] at hrecords
  cases hrecords

/-- A directory with its files in order. -/
structure Listed (fileCount : Nat) (log : Log) (charging : Directory → Bool)
    (directory : Directory) (first : Nat) (full : List RecordFile) (last : RecordFile) :
    Prop where
  positive : 0 < first
  files : (log.files directory).Perm (numbered first (full ++ [last]))
  rotated : Rotated full last (charging directory)
  records : log.getChargerChargeRecords fileCount directory = some (first, first + full.length)

/-- A directory is empty or has its files in order. -/
theorem Valid.cases (h : Valid fileCount log charging) (directory : Directory) :
    (log.files directory = [] ∧ charging directory = false) ∨
      ∃ first full last, Listed fileCount log charging directory first full last := by
  cases h.directory directory with
  | empty hfiles hcharging => exact Or.inl ⟨hfiles, hcharging⟩
  | rotated first full last hfirst hfiles hrotated =>
    exact Or.inr ⟨first, full, last, hfirst, hfiles, hrotated,
      getChargerChargeRecords_eq hfirst hfiles (h.room directory)⟩

theorem Valid.listed (h : Valid fileCount log charging) {first last : Nat}
    (hrecords : log.getChargerChargeRecords fileCount directory = some (first, last)) :
    ∃ full file, Listed fileCount log charging directory first full file ∧
      last = first + full.length := by
  rcases h.cases directory with ⟨hempty, -⟩ | ⟨first', full, file, hlisted⟩
  · rw [getChargerChargeRecords_eq_none hempty] at hrecords
    cases hrecords
  · have heq := hlisted.records.symm.trans hrecords
    obtain ⟨rfl, rfl⟩ := Prod.mk.inj (Option.some.inj heq)
    exact ⟨full, file, hlisted, rfl⟩

namespace Listed

variable {first : Nat} {full : List RecordFile} {last : RecordFile}

variable (h : Listed fileCount log charging directory first full last)
include h

theorem size : log.size directory (first + full.length) = fileSize last := by
  rw [Log.size, read_last h.files]

theorem length : (log.files directory).length = full.length + 1 := by
  rw [h.files.length_eq, length_numbered, List.length_append, List.length_singleton]

/-- The last file is there when it is opened. -/
theorem openAppend (position : Nat) :
    log.openAppend position directory (first + full.length) = log := by
  unfold Log.openAppend
  rw [lookup_last h.files]
  rfl

theorem append (entry : Entry) :
    ∃ files, log.append directory (first + full.length) entry = log.setFiles directory files ∧
      files.Perm (numbered first (full ++ [last ++ [entry]])) :=
  ⟨_, rfl, changeAt_last _ h.files⟩

end Listed

/-- What the search found has two files at least. -/
theorem searchOldest_spec {directories : List Directory} {oldest : Oldest}
    (h : oldest.timestamp ≠ noTimestamp → ∃ last, oldest.firstRecord ≠ last ∧
      log.getChargerChargeRecords fileCount oldest.dir = some (oldest.firstRecord, last)) :
    let found := log.searchOldest fileCount env directories oldest
    found.timestamp ≠ noTimestamp → ∃ last, found.firstRecord ≠ last ∧
      log.getChargerChargeRecords fileCount found.dir = some (found.firstRecord, last) := by
  induction directories generalizing oldest with
  | nil => exact h
  | cons directory rest ih =>
    rw [Log.searchOldest]
    have hone : let next := (log.findOldestRecord fileCount env oldest directory).1
        next.timestamp ≠ noTimestamp → ∃ last, next.firstRecord ≠ last ∧
          log.getChargerChargeRecords fileCount next.dir = some (next.firstRecord, last) := by
      unfold Log.findOldestRecord
      cases hrecords : log.getChargerChargeRecords fileCount directory with
      | none => exact h
      | some records =>
        obtain ⟨first, last⟩ := records
        by_cases hsame : first = last
        · simpa only [if_pos hsame] using h
        · simp only [if_neg hsame]
          cases (Log.timestamps env directory).find? (· ≠ 0) with
          | none => exact fun _ => ⟨last, hsame, hrecords⟩
          | some timestamp =>
            by_cases holder : timestamp ≤ oldest.timestamp
            · simp only [if_pos holder]
              exact fun _ => ⟨last, hsame, hrecords⟩
            · simpa only [if_neg holder] using h
    cases hfound : log.findOldestRecord fileCount env oldest directory with
    | mk next goesOn =>
      rw [hfound] at hone
      cases goesOn with
      | true => exact ih hone
      | false => exact hone

theorem oldestFile_spec {n : Nat} (h : log.oldestFile fileCount env = some (directory, n)) :
    ∃ last, n ≠ last ∧ log.getChargerChargeRecords fileCount directory = some (n, last) := by
  unfold Log.oldestFile at h
  dsimp only at h
  split at h
  · cases h
  · rename_i hfound
    obtain ⟨rfl, rfl⟩ := Prod.mk.inj (Option.some.inj h)
    exact searchOldest_spec (fun h => absurd rfl h) hfound

/-- The memory of the name still says which directory was found. -/
def NameKept (fileCount : Nat) (t : Tracker) (env : Environment) : Prop :=
  fileCount ≤ t.totalChargeLogFiles → ∀ name n,
    t.log.oldestFile fileCount env = some (some name, n) → env.freedName name = some name

/-- The dropped file is the first of several in its directory. -/
theorem Valid.dropped (h : Valid fileCount t.log charging) (hname : NameKept fileCount t env)
    {n : Nat} (hdropped : t.dropped fileCount env = some (directory, n)) :
    ∃ file full last, Listed fileCount t.log charging directory n (file :: full) last := by
  unfold Tracker.dropped at hdropped
  split at hdropped
  · cases hdropped
  · rename_i hcount
    obtain ⟨⟨dir, n'⟩, holdest, heq⟩ := Option.map_eq_some_iff.mp hdropped
    obtain ⟨hdir, rfl⟩ := Prod.mk.inj heq
    have hsame : dir = directory := by
      rw [← hdir]
      cases dir with
      | none => rfl
      | some name => exact (hname (not_lt.mp hcount) name n' holdest).symm
    subst hsame
    obtain ⟨last, hne, hrecords⟩ := oldestFile_spec holdest
    obtain ⟨full, file, hlisted, rfl⟩ := h.listed hrecords
    cases full with
    | nil => exact absurd rfl hne
    | cons first rest => exact ⟨first, rest, file, hlisted⟩

/-- The first of several files is dropped. -/
theorem Valid.remove (h : Valid fileCount log charging) {n : Nat} {file last : RecordFile}
    {full : List RecordFile}
    (hlisted : Listed fileCount log charging directory n (file :: full) last) :
    Valid fileCount (log.remove directory n) charging := by
  have hfiles := dropAt_first hlisted.files
  have hrest : ValidDirectory (dropAt n (log.files directory)) (charging directory) :=
    .rotated (n + 1) full last n.succ_pos hfiles hlisted.rotated.tail
  have hvalid := h.setFiles hrest ((List.length_filter_le ..).trans (h.room directory))
    (h.hasDirectory_of_records hlisted.records)
  rwa [Function.update_eq_self] at hvalid

theorem Valid.removeOldRecords (h : Valid fileCount t.log charging)
    (hname : NameKept fileCount t env) :
    Valid fileCount (t.removeOldRecords fileCount env).log charging := by
  unfold Tracker.removeOldRecords
  cases hdropped : t.dropped fileCount env with
  | none => exact h
  | some found =>
    obtain ⟨file, full, last, hlisted⟩ := h.dropped hname hdropped
    exact h.remove hlisted

/-- The last file of a directory is not dropped. -/
theorem Valid.listed_removeOldRecords (h : Valid fileCount t.log charging)
    (hname : NameKept fileCount t env) {first : Nat} {full : List RecordFile} {last : RecordFile}
    (hlisted : Listed fileCount t.log charging directory first full last) :
    ∃ first' full', first' + full'.length = first + full.length ∧
      Listed fileCount (t.removeOldRecords fileCount env).log charging directory first' full' last ∧
      full'.length ≤ full.length ∧
      ((∃ n, t.dropped fileCount env = some (directory, n)) → full'.length < full.length) := by
  have hvalid := h.removeOldRecords hname
  unfold Tracker.removeOldRecords at hvalid ⊢
  cases hdropped : t.dropped fileCount env with
  | none => exact ⟨first, full, rfl, hlisted, le_rfl, fun h => absurd h (by simp)⟩
  | some found =>
    obtain ⟨dir, n⟩ := found
    rw [hdropped] at hvalid
    rcases eq_or_ne directory dir with rfl | hne
    · obtain ⟨file, rest, last', hfirst⟩ := h.dropped hname hdropped
      have hrecords := hfirst.records.symm.trans hlisted.records
      obtain ⟨rfl, hlength⟩ := Prod.mk.inj (Option.some.inj hrecords)
      -- both descriptions of the directory have the same last file
      have hlast : last' = last := by
        have hread := read_last hfirst.files
        rw [hlength, read_last hlisted.files] at hread
        exact hread.symm
      have hfiles := dropAt_first hfirst.files
      have hlogFiles : (t.log.remove directory n).files directory =
          dropAt n (t.log.files directory) := setFiles_files_self
      rw [List.length_cons] at hlength
      refine ⟨n + 1, rest, by omega, ⟨n.succ_pos, ?_, hlast ▸ hfirst.rotated.tail, ?_⟩,
        by omega, fun _ => by omega⟩
      · dsimp only
        rw [hlogFiles, ← hlast]
        exact hfiles
      · apply getChargerChargeRecords_eq n.succ_pos
        · exact hlogFiles ▸ hfiles
        · exact hvalid.room directory
    · have hlogFiles : (t.log.remove dir n).files directory = t.log.files directory :=
        setFiles_files_of_ne hne
      refine ⟨first, full, rfl, ⟨hlisted.positive, ?_, hlisted.rotated, ?_⟩, le_rfl, ?_⟩
      · exact hlogFiles ▸ hlisted.files
      · apply getChargerChargeRecords_eq hlisted.positive
        · exact hlogFiles ▸ hlisted.files
        · exact hvalid.room directory
      · rintro ⟨n', heq⟩
        exact absurd (Prod.mk.inj (Option.some.inj heq)).1.symm hne

/-- A new last file with one entry. -/
theorem Listed.openWrite_append {first : Nat} {full : List RecordFile} {last : RecordFile}
    (h : Listed fileCount log charging directory first full last) (position : Nat)
    (entry : Entry) :
    ∃ files, (log.openWrite position directory (first + full.length + 1)).append directory
        (first + full.length + 1) entry = log.setFiles directory files ∧
      files.Perm (numbered first (full ++ [last] ++ [[entry]])) := by
  have hnumber : first + full.length + 1 = first + (full ++ [last]).length := by
    rw [List.length_append, List.length_singleton]
    omega
  have hmissing : (log.files directory).lookup (first + full.length + 1) = none := by
    rw [lookup_perm h.files (nodup_fst_of_perm h.files), List.lookup_eq_none_iff]
    intro segment hmem
    have := (fst_of_mem_numbered (n := segment.1) (a := segment.2) hmem).2
    exact bne_iff_ne.mpr (by omega)
  have hcreated : (log.openWrite position directory (first + full.length + 1)) =
      log.create position directory (first + full.length + 1) := by
    unfold Log.openWrite
    rw [hmissing]
    rfl
  rw [hcreated, hnumber]
  refine ⟨changeAt _ (· ++ [entry]) _, ?_, changeAt_last (· ++ [entry]) (insertIdx_next (a := []) position h.files)⟩
  simp only [Log.append, Log.create, setFiles_files_self, setFiles_setFiles]

/-- A start is tracked after complete charges only. -/
theorem size_of_repairLast {first last : Nat}
    (h : log.repairLast fileCount directory)
    (hrecords : log.getChargerChargeRecords fileCount directory = some (first, last)) :
    log.size directory last % chargeRecordSize = 0 := by
  unfold Log.repairLast at h
  rw [hrecords] at h
  dsimp only at h
  split at h
  · cases h
  · rename_i hsize
    exact not_not.mp hsize

theorem makeDirectory_files (position : Nat) :
    (log.makeDirectory position directory).files = log.files := by
  cases directory with
  | none => rfl
  | some name =>
    unfold Log.makeDirectory
    dsimp only
    split <;> rfl

theorem makeDirectory_of_hasDirectory (position : Nat) (h : log.hasDirectory directory) :
    log.makeDirectory position directory = log := by
  cases directory with
  | none => rfl
  | some name =>
    have hmem : name ∈ log.chargers := by
      simpa [Log.hasDirectory, Log.directories] using h
    exact if_pos hmem

theorem makeDirectory_hasDirectory (position : Nat) :
    (log.makeDirectory position directory).hasDirectory directory := by
  cases directory with
  | none => simp [Log.hasDirectory, Log.directories]
  | some name =>
    unfold Log.makeDirectory
    dsimp only
    split
    · rename_i hmem
      simpa [Log.hasDirectory, Log.directories] using hmem
    · simp [Log.hasDirectory, Log.directories, List.mem_insertIdx (min_le_right _ _)]

theorem Valid.makeDirectory (h : Valid fileCount log charging) (position : Nat)
    (directory : Directory) :
    Valid fileCount (log.makeDirectory position directory) charging where
  directory other := by
    rw [makeDirectory_files]
    exact h.directory other
  room other := by
    rw [makeDirectory_files]
    exact h.room other
  known other hother := by
    rw [makeDirectory_files]
    apply h.known
    intro hknown
    apply hother
    cases directory with
    | none => exact hknown
    | some name =>
      unfold Log.makeDirectory
      dsimp only
      split
      · exact hknown
      · cases other with
        | none => simp [Log.hasDirectory, Log.directories]
        | some name' =>
          have hmem : name' ∈ log.chargers := by
            simpa [Log.hasDirectory, Log.directories] using hknown
          simp [Log.hasDirectory, Log.directories, List.mem_insertIdx (min_le_right _ _), hmem]
  chargers := by
    cases directory with
    | none => exact h.chargers
    | some name =>
      unfold Log.makeDirectory
      dsimp only
      split
      · exact h.chargers
      · rename_i hnew
        rw [(List.perm_insertIdx _ _ (min_le_right _ _)).nodup_iff]
        exact List.nodup_cons.mpr ⟨hnew, h.chargers⟩

/-- The first file of a directory. -/
theorem openAppend_of_empty {position : Nat} (h : log.files directory = []) :
    log.openAppend position directory 1 = log.setFiles directory [(1, [])] := by
  simp [Log.openAppend, Log.create, h]

theorem size_created : (log.setFiles directory [(1, [])]).size directory 1 = 0 := by
  simp [Log.size, Log.read]

theorem append_created {entry : Entry} :
    (log.setFiles directory [(1, [])]).append directory 1 entry =
      log.setFiles directory [(1, [entry])] := by
  simp [Log.append, changeAt]

/-- What a tracked start does to the files. -/
inductive Started (fileCount : Nat) (t : Tracker) (charging : Directory → Bool) (env : Environment)
    (cs : ChargeStart) (directory : Directory) : Tracker → Prop where
  | first (hfiles : t.log.files directory = []) :
      Started fileCount t charging env cs directory { t with
        log := (t.log.makeDirectory env.directoryPosition directory).setFiles directory
          [(1, [.start cs])] }
  | append (first : Nat) (full : List RecordFile) (last : RecordFile)
      (hlisted : Listed fileCount t.log charging directory first full last)
      (hroom : fileSize last ≠ chargeRecordMaxFileSize) (hcharging : charging directory = false) :
      Started fileCount t charging env cs directory { t with
        log := t.log.append directory (first + full.length) (.start cs) }
  | rollOver (first : Nat) (full : List RecordFile) (last : RecordFile)
      (hlisted : Listed fileCount t.log charging directory first full last)
      (hfull : fileSize last = chargeRecordMaxFileSize) :
      Started fileCount t charging env cs directory { t.removeOldRecords fileCount env with
        log := ((t.removeOldRecords fileCount env).log.openWrite env.filePosition directory
          (first + full.length + 1)).append directory (first + full.length + 1) (.start cs)
        totalChargeLogFiles := (t.removeOldRecords fileCount env).totalChargeLogFiles + 1 }

theorem Valid.startCharge_cases (h : Valid fileCount t.log charging) (env : Environment)
    (cs : ChargeStart) (directory : Directory) :
    t.startCharge fileCount env cs directory = (false, t) ∨
      (env.allowCharging ∨ directory ≠ none) ∧
      ∃ t', t.startCharge fileCount env cs directory = (true, t') ∧
        Started fileCount t charging env cs directory t' := by
  unfold Tracker.startCharge
  by_cases hmeter : !env.allowCharging ∧ directory = none
  · exact Or.inl (if_pos hmeter)
  rw [if_neg hmeter]
  by_cases hrepair : t.log.repairLast fileCount directory
  swap
  · exact Or.inl (if_pos (by simpa using hrepair))
  rw [if_neg (by simpa using hrepair)]
  refine Or.inr ⟨by simpa [imp_iff_or_not, or_comm] using hmeter, ?_⟩
  rcases h.cases directory with ⟨hempty, -⟩ | ⟨first, full, last, hlisted⟩
  · refine ⟨_, ?_, .first hempty⟩
    set log := t.log.makeDirectory env.directoryPosition directory with hlog
    have hfiles : log.files directory = [] := by
      rw [hlog, makeDirectory_files]
      exact hempty
    simp only [getChargerChargeRecords_eq_none hempty, Option.map_none, Option.getD_none,
      openAppend_of_empty hfiles]
    rw [if_neg, append_created]
    rw [size_created]
    decide
  · rw [hlisted.records]
    have hknown := h.hasDirectory_of_records hlisted.records
    simp only [Option.map_some, Option.getD_some, makeDirectory_of_hasDirectory _ hknown,
      hlisted.openAppend, hlisted.size]
    by_cases hfull : fileSize last = chargeRecordMaxFileSize
    · rw [if_pos hfull]
      exact ⟨_, rfl, .rollOver first full last hlisted hfull⟩
    · rw [if_neg hfull]
      refine ⟨_, rfl, .append first full last hlisted hfull ?_⟩
      have hsize := size_of_repairLast hrepair hlisted.records
      rw [hlisted.size] at hsize
      have hmod := hlisted.rotated.last_mod
      cases hcharging : charging directory with
      | false => rfl
      | true =>
        rw [hcharging] at hmod
        simp only [openSize, chargeRecordSize, chargeStartSize, chargeEndSize] at hsize hmod
        omega

/-- What a call of `endCharge` does to the files. -/
theorem Valid.endCharge_cases (h : Valid fileCount t.log charging) (env : Environment)
    (chargeDuration : UInt32) (directory : Directory) :
    t.endCharge fileCount env chargeDuration directory = (false, t) ∨
    (t.log.files directory = [] ∧ t.log.hasDirectory directory ∧
      t.endCharge fileCount env chargeDuration directory =
        (false, { t with log := t.log.setFiles directory [(1, [])] })) ∨
    ∃ first full last, Listed fileCount t.log charging directory first full last ∧
      charging directory = true ∧
      t.endCharge fileCount env chargeDuration directory = (true, { t with
        log := t.log.append directory (first + full.length)
          (.stop ⟨chargeDuration.toBitVec.setWidth 24⟩)
        totalChargeLogEntries :=
          t.totalChargeLogEntries + if directory = none then 1 else 0 }) := by
  unfold Tracker.endCharge
  rcases h.cases directory with ⟨hempty, -⟩ | ⟨first, full, last, hlisted⟩
  · simp only [getChargerChargeRecords_eq_none hempty, Option.map_none, Option.getD_none]
    by_cases hknown : t.log.hasDirectory directory
    · simp only [if_pos hknown, openAppend_of_empty hempty, size_created]
      exact Or.inr (Or.inl ⟨hempty, hknown, rfl⟩)
    · simp only [if_neg hknown]
      have hsize : t.log.size directory 1 = 0 := by
        simp [Log.size, Log.read, hempty]
      rw [hsize]
      exact Or.inl rfl
  · have hknown := h.hasDirectory_of_records hlisted.records
    simp only [hlisted.records, Option.map_some, Option.getD_some, if_pos hknown,
      hlisted.openAppend, hlisted.size]
    by_cases hcharging : charging directory
    · have hsize := hlisted.rotated.charging_iff.mpr hcharging
      rw [if_neg (not_not.mpr hsize)]
      refine Or.inr (Or.inr ⟨first, full, last, hlisted, hcharging, ?_⟩)
      cases directory with
      | none => rfl
      | some name => simp
    · rw [if_pos fun hsize => hcharging (hlisted.rotated.charging_iff.mp hsize)]
      exact Or.inl rfl

end Esp32Firmware.ChargeTracker
