import Esp32Firmware.ChargeTracker.RecordRun

/-!
# Counters of charge records

The numbers of record files and of complete charges are counted along with the calls. They
stay what a restart would count as long as no managed charge is completed and no first file of
a directory is created.
-/

namespace Esp32Firmware.ChargeTracker

variable {fileCount : Nat} {log : Log} {charging : Directory → Bool} {directory : Directory}
  {t t' : Tracker} {env : Environment}

def Entry.isStop : Entry → Bool
  | .start _ => false
  | .stop _ => true

/-- Complete charges of a file. -/
def completeRecords (file : RecordFile) : Nat := file.countP Entry.isStop

/-- Sum over the directories of a log. -/
def Log.total (log : Log) (measure : List (Nat × RecordFile) → Nat) : Nat :=
  (log.directories.map fun directory => measure (log.files directory)).sum

def completeInFiles (files : List (Nat × RecordFile)) : Nat :=
  (files.map fun file => completeRecords file.2).sum

/-- Record files of all directories. -/
def Log.fileTotal (log : Log) : Nat := log.total List.length

/-- Complete charges of all directories. -/
def Log.recordTotal (log : Log) : Nat := log.total completeInFiles

theorem completeInFiles_perm {files files' : List (Nat × RecordFile)} (h : files.Perm files') :
    completeInFiles files = completeInFiles files' := (h.map _).sum_eq

theorem completeInFiles_numbered {first : Nat} {contents : List RecordFile} :
    completeInFiles (numbered first contents) = (contents.map completeRecords).sum := by
  unfold completeInFiles
  rw [← Function.comp_def completeRecords Prod.snd, ← List.map_map, map_snd_numbered]

/-- Sizes count complete charges. -/
theorem fileSize_of_turn {entries : List Entry} {before after : Bool}
    (h : turn before entries = some after) :
    openSize before + fileSize entries = 16 * completeRecords entries + openSize after := by
  induction entries generalizing before with
  | nil =>
    obtain rfl := Option.some.inj h
    simp [completeRecords]
  | cons entry rest ih =>
    have hsize : fileSize (entry :: rest) = entry.size + fileSize rest := rfl
    have hcount : completeRecords (entry :: rest) =
        completeRecords rest + if entry.isStop then 1 else 0 := List.countP_cons
    cases before <;> cases entry <;> simp only [turn, reduceCtorEq] at h <;>
      specialize ih h <;>
      simp only [hsize, hcount, Entry.size, Entry.isStop, openSize, chargeStartSize,
        chargeEndSize, if_true, Bool.false_eq_true, if_false] at ih ⊢ <;> omega

/-- A file and what follows it. -/
theorem completeRecords_of_turn_append {file more : List Entry} {after : Bool}
    (h : turn false (file ++ more) = some after)
    (hfull : fileSize file = chargeRecordMaxFileSize) :
    completeRecords file = 256 ∧ turn false more = some after := by
  rw [turn_append, Option.bind_eq_some_iff] at h
  obtain ⟨between, hfile, hmore⟩ := h
  have hsize := fileSize_of_turn hfile
  rw [hfull, chargeRecordMaxFileSize] at hsize
  cases between with
  | false =>
    simp only [openSize] at hsize
    exact ⟨by omega, hmore⟩
  | true =>
    simp only [openSize] at hsize
    omega

namespace Rotated

variable {full : List RecordFile} {last : RecordFile} {open' : Bool}

theorem completeRecords_full (h : Rotated full last open') :
    (full.map completeRecords).sum = 256 * full.length := by
  induction full with
  | nil => rfl
  | cons file rest ih =>
    have hturn := h.inTurn
    rw [List.flatten_cons, List.append_assoc] at hturn
    have hfile := completeRecords_of_turn_append hturn (h.allFull file List.mem_cons_self)
    rw [List.map_cons, List.sum_cons, hfile.1, ih h.tail, List.length_cons]
    ring

/-- Complete charges of the last file, by its size. -/
theorem completeRecords_last (h : Rotated full last open') :
    completeRecords last = fileSize last / chargeRecordSize := by
  have hlast : turn false last = some open' := by
    induction full with
    | nil => exact h.inTurn
    | cons file rest ih => exact ih h.tail
  have hsize := fileSize_of_turn hlast
  simp only [chargeRecordSize, chargeStartSize, chargeEndSize]
  cases open' <;> simp only [openSize] at hsize <;> omega

end Rotated

theorem Listed.completeInFiles {first : Nat} {full : List RecordFile} {last : RecordFile}
    (h : Listed fileCount log charging directory first full last) :
    completeInFiles (log.files directory) = 256 * full.length + completeRecords last := by
  rw [completeInFiles_perm h.files, completeInFiles_numbered, List.map_append, List.sum_append,
    h.rotated.completeRecords_full]
  simp

/-- One directory of the sum changes. -/
theorem sum_map_update {items : List Directory} {f g : Directory → Nat} (hnodup : items.Nodup)
    (hmem : directory ∈ items) (hother : ∀ d, d ≠ directory → g d = f d) :
    (items.map g).sum + f directory = (items.map f).sum + g directory := by
  induction items with
  | nil => exact absurd hmem List.not_mem_nil
  | cons d rest ih =>
    obtain ⟨hnew, hrest⟩ := List.nodup_cons.mp hnodup
    simp only [List.map_cons, List.sum_cons]
    rcases eq_or_ne d directory with rfl | hne
    · have hsame : rest.map g = rest.map f :=
        List.map_congr_left fun d' hd' => hother d' fun heq => hnew (heq ▸ hd')
      rw [hsame]
      omega
    · have hrestMem : directory ∈ rest := (List.mem_cons.mp hmem).resolve_left hne.symm
      have := ih hrest hrestMem
      rw [hother d hne]
      omega

theorem Valid.directories_nodup (h : Valid fileCount log charging) : log.directories.Nodup := by
  rw [Log.directories, List.nodup_cons, List.nodup_map_iff (Option.some_injective _)]
  exact ⟨by simp, h.chargers⟩

theorem Valid.total_setFiles (h : Valid fileCount log charging)
    (measure : List (Nat × RecordFile) → Nat) (files : List (Nat × RecordFile))
    (hknown : log.hasDirectory directory) :
    (log.setFiles directory files).total measure + measure (log.files directory) =
      log.total measure + measure files := by
  have hsum := sum_map_update (f := fun d => measure (log.files d))
    (g := fun d => measure ((log.setFiles directory files).files d)) h.directories_nodup
    (of_decide_eq_true hknown) fun d hne => by rw [setFiles_files_of_ne hne]
  rwa [setFiles_files_self] at hsum

/-- The counters are what the files hold. -/
structure Counted (t : Tracker) : Prop where
  files : t.totalChargeLogFiles = t.log.fileTotal
  entries : t.totalChargeLogEntries = t.log.recordTotal

theorem Valid.counted_removeOldRecords (h : Valid fileCount t.log charging) (hcounted : Counted t)
    (hname : NameKept fileCount t env) : Counted (t.removeOldRecords fileCount env) := by
  unfold Tracker.removeOldRecords
  cases hdropped : t.dropped fileCount env with
  | none => exact hcounted
  | some found =>
    obtain ⟨directory, n⟩ := found
    obtain ⟨file, full, last, hlisted⟩ := h.dropped hname hdropped
    have hfiles : (dropAt n (t.log.files directory)).Perm (numbered (n + 1) (full ++ [last])) :=
      dropAt_first hlisted.files
    have hknown := h.hasDirectory_of_records hlisted.records
    have hcount := h.total_setFiles List.length (dropAt n (t.log.files directory)) hknown
    have hrecords := h.total_setFiles completeInFiles (dropAt n (t.log.files directory)) hknown
    rw [hlisted.length, hfiles.length_eq, length_numbered, List.length_append,
      List.length_singleton, List.length_cons] at hcount
    rw [hlisted.completeInFiles, completeInFiles_perm hfiles, completeInFiles_numbered,
      List.map_append, List.sum_append, hlisted.rotated.tail.completeRecords_full] at hrecords
    simp only [List.map_singleton, List.sum_singleton, List.length_cons] at hrecords
    constructor
    · show t.totalChargeLogFiles - 1 = ((t.log.remove directory n).total List.length : Int)
      rw [hcounted.files, Log.remove, Log.fileTotal]
      omega
    · show t.totalChargeLogEntries - (256 : Nat) =
        ((t.log.remove directory n).total ChargeTracker.completeInFiles : Int)
      rw [hcounted.entries, Log.remove, Log.recordTotal]
      omega

/-- The totals behind an entry that is appended to the last file. -/
theorem Valid.total_append (h : Valid fileCount t.log charging) {first : Nat}
    {full : List RecordFile} {last : RecordFile} (entry : Entry)
    (hlisted : Listed fileCount t.log charging directory first full last) :
    let log := t.log.append directory (first + full.length) entry
    log.total List.length = t.log.total List.length ∧
      log.total ChargeTracker.completeInFiles + completeRecords last =
        t.log.total ChargeTracker.completeInFiles + completeRecords (last ++ [entry]) := by
  obtain ⟨files, happend, hperm⟩ := hlisted.append entry
  have hknown := h.hasDirectory_of_records hlisted.records
  have hcount := h.total_setFiles List.length files hknown
  have hrecords := h.total_setFiles ChargeTracker.completeInFiles files hknown
  rw [hperm.length_eq, hlisted.length, length_numbered] at hcount
  rw [completeInFiles_perm hperm, completeInFiles_numbered, hlisted.completeInFiles,
    List.map_append, List.sum_append, hlisted.rotated.completeRecords_full] at hrecords
  simp only [List.map_singleton, List.sum_singleton] at hrecords
  simp only [List.length_append, List.length_singleton] at hcount
  dsimp only
  rw [happend]
  omega

/-- A start in a directory with files. -/
theorem Started.counted {cs : ChargeStart} (h : Valid fileCount t.log charging)
    (hcounted : Counted t) (hstart : Started fileCount t charging env cs directory t')
    (hfiles : t.log.files directory ≠ [])
    (hsafe : ∀ first last, t.log.getChargerChargeRecords fileCount directory = some (first, last) →
      t.log.size directory last = chargeRecordMaxFileSize →
      NameKept fileCount t env ∧ HasRoom fileCount t env directory) :
    Counted t' := by
  cases hstart with
  | first hempty => exact absurd hempty hfiles
  | append first full last hlisted hroom hcharging =>
    obtain ⟨hcount, hrecords⟩ := h.total_append (.start cs) hlisted
    have hlast : completeRecords (last ++ [.start cs]) = completeRecords last := by
      simp [completeRecords, Entry.isStop]
    constructor
    · show t.totalChargeLogFiles = ((t.log.append directory _ _).total List.length : Int)
      rw [hcounted.files, hcount, Log.fileTotal]
    · show t.totalChargeLogEntries =
        ((t.log.append directory _ _).total ChargeTracker.completeInFiles : Int)
      rw [hcounted.entries, Log.recordTotal]
      omega
  | rollOver first full last hlisted hfull =>
    obtain ⟨hname, -⟩ := hsafe first _ hlisted.records (hlisted.size.trans hfull)
    have hremoved := h.removeOldRecords hname
    have hcounted' := h.counted_removeOldRecords hcounted hname
    obtain ⟨first', full', hnumber, hlisted', -⟩ := h.listed_removeOldRecords hname hlisted
    obtain ⟨files, hwrite, hperm⟩ := hlisted'.openWrite_append env.filePosition (.start cs)
    have hknown := hremoved.hasDirectory_of_records hlisted'.records
    have hcount := hremoved.total_setFiles List.length files hknown
    have hrecords := hremoved.total_setFiles completeInFiles files hknown
    have hlast : completeRecords [.start cs] = 0 := rfl
    rw [hperm.length_eq, hlisted'.length, length_numbered] at hcount
    rw [completeInFiles_perm hperm, completeInFiles_numbered, hlisted'.completeInFiles,
      List.map_append, List.sum_append, List.map_append, List.sum_append,
      hlisted'.rotated.completeRecords_full] at hrecords
    simp only [List.map_singleton, List.sum_singleton, hlast] at hrecords
    simp only [List.length_append, List.length_singleton] at hcount
    rw [← hnumber]
    constructor
    · show (t.removeOldRecords fileCount env).totalChargeLogFiles + 1 =
        ((((t.removeOldRecords fileCount env).log.openWrite _ _ _).append _ _ _).total
          List.length : Int)
      rw [hcounted'.files, hwrite, Log.fileTotal]
      omega
    · show (t.removeOldRecords fileCount env).totalChargeLogEntries =
        ((((t.removeOldRecords fileCount env).log.openWrite _ _ _).append _ _ _).total
          ChargeTracker.completeInFiles : Int)
      rw [hcounted'.entries, hwrite, Log.recordTotal]
      omega

/-- An end of an own charge. -/
theorem Valid.counted_stop (h : Valid fileCount t.log charging) (hcounted : Counted t)
    {first : Nat} {full : List RecordFile} {last : RecordFile} (ce : ChargeEnd)
    (hlisted : Listed fileCount t.log charging directory first full last) :
    Counted { t with
      log := t.log.append directory (first + full.length) (.stop ce)
      totalChargeLogEntries := t.totalChargeLogEntries + 1 } := by
  obtain ⟨hcount, hrecords⟩ := h.total_append (.stop ce) hlisted
  have hlast : completeRecords (last ++ [.stop ce]) = completeRecords last + 1 := by
    simp [completeRecords, Entry.isStop]
  constructor
  · show t.totalChargeLogFiles = ((t.log.append directory _ _).total List.length : Int)
    rw [hcounted.files, hcount, Log.fileTotal]
  · show t.totalChargeLogEntries + 1 =
      ((t.log.append directory _ _).total ChargeTracker.completeInFiles : Int)
    rw [hcounted.entries, Log.recordTotal]
    omega

/-- Consecutive numbers, all files but the last one full. -/
theorem checkBlobs_range' {first : Nat} {count : Nat}
    (hfull : ∀ n, first ≤ n → n < first + count → log.size directory n = chargeRecordMaxFileSize)
    (hlast : log.size directory (first + count) ≤ chargeRecordMaxFileSize) :
    Tracker.checkBlobs log directory (List.range' first (count + 1)) = true := by
  induction count generalizing first with
  | zero => simpa [List.range'_succ, Tracker.checkBlobs] using hlast
  | succ count ih =>
    rw [List.range'_succ, List.range'_succ]
    simp only [Tracker.checkBlobs, Bool.and_eq_true, decide_eq_true_eq, true_and]
    refine ⟨hfull first le_rfl (by omega), ?_⟩
    rw [← List.range'_succ]
    apply ih
    · intro n hn hlt
      exact hfull n (by omega) (by omega)
    · rwa [show first + 1 + count = first + (count + 1) by omega]

theorem mergeSort_eq_range' {numbers : List Nat} {first count : Nat}
    (h : numbers.Perm (List.range' first count)) : numbers.mergeSort = List.range' first count := by
  apply ((List.mergeSort_perm numbers _).trans h).eq_of_sortedLE
  · exact (List.pairwise_mergeSort' (· ≤ ·) numbers).sortedLE
  · exact List.sortedLE_range' ..

theorem Listed.size_full {first n : Nat} {full : List RecordFile} {last : RecordFile}
    (h : Listed fileCount log charging directory first full last) (hfirst : first ≤ n)
    (hlast : n < first + full.length) :
    log.size directory n = chargeRecordMaxFileSize := by
  obtain ⟨file, hmem, hnumbered⟩ := exists_mem_numbered hfirst hlast
  have hlookup : (log.files directory).lookup n = some file := by
    rw [lookup_eq_some_iff_mem (nodup_fst_of_perm h.files), h.files.mem_iff, numbered_append]
    exact List.mem_append_left _ hnumbered
  rw [Log.size, Log.read, hlookup]
  exact h.rotated.allFull file hmem

section

variable (h : Valid fileCount t.log charging)
include h

/-- What is counted for a directory. -/
theorem Valid.setupRecords (directory : Directory) :
    t.setupRecords fileCount directory = (true, { t with
      totalChargeLogFiles := t.totalChargeLogFiles + (t.log.files directory).length
      totalChargeLogEntries := t.totalChargeLogEntries + completeInFiles (t.log.files directory) }) := by
  unfold Tracker.setupRecords
  have hroom := h.room directory
  rcases h.cases directory with ⟨hempty, -⟩ | ⟨first, full, last, hlisted⟩
  · simp [hempty, ChargeTracker.completeInFiles]
  · have hnumbers : ((t.log.files directory).map Prod.fst).Perm
        (List.range' first (full.length + 1)) := by
      have hmap := hlisted.files.map Prod.fst
      rwa [map_fst_numbered, List.length_append, List.length_singleton] at hmap
    have hblobs : ((t.log.files directory).map Prod.fst).filter (· ≠ 0) =
        (t.log.files directory).map Prod.fst := by
      apply List.filter_eq_self.mpr
      intro n hn
      have := (List.mem_range'_1.mp (hnumbers.mem_iff.mp hn)).1
      have hpositive := hlisted.positive
      exact decide_eq_true (by omega)
    have hcheck : Tracker.checkBlobs t.log directory (List.range' first (full.length + 1)) = true := by
      apply checkBlobs_range'
      · exact fun n hn hlt => hlisted.size_full hn hlt
      · rw [hlisted.size]
        exact hlisted.rotated.lastFits
    have hgetLast : (List.range' first (full.length + 1)).getLast? = some (first + full.length) := by
      simp [List.getLast?_range']
    dsimp only
    rw [hblobs, mergeSort_eq_range' hnumbers, hgetLast, List.length_map,
      if_neg (Nat.not_lt.mpr hroom), hlisted.length]
    dsimp only
    rw [if_pos hcheck, hlisted.size, hlisted.completeInFiles, hlisted.rotated.completeRecords_last]
    simp only [chargeRecordMaxFileSize, chargeRecordSize, chargeStartSize, chargeEndSize]
    congr 3
    omega

/-- What is counted for the managed chargers. -/
theorem Valid.foldl_setupRecords (names : List String) :
    names.foldl (fun t name => (t.setupRecords fileCount (some name)).2) t = { t with
      totalChargeLogFiles := t.totalChargeLogFiles +
        (names.map fun name => (t.log.files (some name)).length).sum
      totalChargeLogEntries := t.totalChargeLogEntries +
        (names.map fun name => completeInFiles (t.log.files (some name))).sum } := by
  induction names generalizing t with
  | nil => simp
  | cons name rest ih =>
    rw [List.foldl_cons, h.setupRecords (some name)]
    dsimp only
    refine Eq.trans (ih ?_) ?_
    · exact h
    simp only [List.map_cons, List.sum_cons]
    congr 1 <;> push_cast <;> ring

/-- A restart counts what the files hold. -/
theorem Valid.counted_setup : Counted (t.setup fileCount) := by
  unfold Tracker.setup
  dsimp only
  set zero : Tracker := { t with totalChargeLogFiles := 0, totalChargeLogEntries := 0 } with hzero
  have hvalid : Valid fileCount zero.log charging := h
  rw [hvalid.setupRecords none]
  dsimp only
  have hown : Valid fileCount ({ zero with
      totalChargeLogFiles := zero.totalChargeLogFiles + (zero.log.files none).length
      totalChargeLogEntries := zero.totalChargeLogEntries +
        completeInFiles (zero.log.files none) } : Tracker).log charging := h
  rw [hown.foldl_setupRecords]
  constructor
  · simp [hzero, Log.fileTotal, Log.total, Log.directories, Function.comp_def]
  · simp [hzero, Log.recordTotal, Log.total, Log.directories, Function.comp_def]

end

/-- No first file of a directory is created and no managed charge is completed. -/
def CountsAll (fileCount : Nat) (t : Tracker) : Call → Prop
  | .startCharge env _ directory =>
    env.allowCharging ∨ directory ≠ none → t.log.files directory ≠ []
  | .endCharge _ _ directory =>
    (t.log.hasDirectory directory → t.log.files directory ≠ []) ∧
      (directory ≠ none → ¬ t.log.currentlyCharging fileCount directory)
  | .removeOldRecords _ => True
  | .reboot _ => True

theorem Valid.counted_step (h : Valid fileCount t.log charging) (hcounted : Counted t)
    (call : Call) (hsafe : Safe fileCount t call) (hall : CountsAll fileCount t call) :
    Counted (t.step fileCount call) := by
  cases call with
  | startCharge env cs directory =>
    simp only [Tracker.step]
    rcases h.startCharge_cases env cs directory with heq | ⟨hallowed, t', heq, hstarted⟩
    · rw [heq]
      exact hcounted
    · rw [heq]
      exact hstarted.counted h hcounted (hall hallowed) (hsafe hallowed)
  | endCharge env chargeDuration directory =>
    simp only [Tracker.step]
    rcases h.endCharge_cases env chargeDuration directory with
      heq | ⟨hempty, hknown, heq⟩ | ⟨first, full, last, hlisted, hcharging, heq⟩
    · rw [heq]
      exact hcounted
    · exact absurd hempty (hall.1 hknown)
    · have hown : directory = none := by
        by_contra hmanaged
        apply hall.2 hmanaged
        rw [h.currentlyCharging]
        exact hcharging
      rw [heq, if_pos hown]
      exact h.counted_stop hcounted _ hlisted
  | removeOldRecords env => exact h.counted_removeOldRecords hcounted hsafe
  | reboot env =>
    have hsetup : Valid fileCount (t.setup fileCount).log charging := by
      rw [setup_log]
      exact h
    exact hsetup.counted_removeOldRecords h.counted_setup hsafe

/-- In every run from a restart the counters are what the files hold and what another restart
would count. -/
theorem counters_run (calls : List Call) (hvalid : Valid fileCount t.log charging)
    (h : Meets (Tracker.step fileCount)
      (fun t call => Safe fileCount t call ∧ CountsAll fileCount t call) (t.setup fileCount) calls) :
    let s := run (Tracker.step fileCount) (t.setup fileCount) calls
    s.totalChargeLogEntries = s.log.recordTotal ∧ s.totalChargeLogFiles = s.log.fileTotal ∧
      0 ≤ s.totalChargeLogEntries ∧ 0 ≤ s.totalChargeLogFiles ∧
      (s.setup fileCount).totalChargeLogEntries = s.totalChargeLogEntries ∧
      (s.setup fileCount).totalChargeLogFiles = s.totalChargeLogFiles := by
  intro s
  have hkeep : (∃ charging, Valid fileCount s.log charging) ∧ Counted s := by
    apply h.invariant (I := fun t : Tracker =>
      (∃ charging, Valid fileCount t.log charging) ∧ Counted t)
    · rintro t call ⟨⟨charging, hvalid⟩, hcounted⟩ ⟨hsafe, hall⟩
      exact ⟨⟨_, hvalid.track call hsafe⟩, hvalid.counted_step hcounted call hsafe hall⟩
    · refine ⟨⟨charging, ?_⟩, hvalid.counted_setup⟩
      rw [setup_log]
      exact hvalid
  obtain ⟨⟨charging', hvalid'⟩, hcounted⟩ := hkeep
  have hsetup := hvalid'.counted_setup
  have hlog : (s.setup fileCount).log = s.log := setup_log s
  refine ⟨hcounted.entries, hcounted.files, ?_, ?_, ?_, ?_⟩
  · rw [hcounted.entries]
    exact Int.natCast_nonneg _
  · rw [hcounted.files]
    exact Int.natCast_nonneg _
  · rw [hsetup.entries, hlog, hcounted.entries]
  · rw [hsetup.files, hlog, hcounted.files]

/-- A device with one own charge. -/
def oneCharge : Tracker where
  log := {
    files := fun directory => if directory = none then [(1, [.start ⟨5, 2⟩, .stop ⟨60⟩])] else []
    chargers := [] }
  totalChargeLogFiles := 0
  totalChargeLogEntries := 0
  users := Users.factory

theorem oneCharge_valid : Valid 30 oneCharge.log fun _ => false where
  directory directory := by
    cases directory with
    | none =>
      exact .rotated 1 [] [.start ⟨5, 2⟩, .stop ⟨60⟩] Nat.one_pos (List.Perm.refl _)
        ⟨fun _ hmem => absurd hmem List.not_mem_nil, by decide, rfl⟩
    | some name => exact .empty rfl rfl
  room directory := by
    cases directory with
    | none => decide
    | some name => exact Nat.zero_le _
  known directory hnot := by
    cases directory with
    | none => exact absurd (by decide) hnot
    | some name => rfl
  chargers := List.nodup_nil

/-- A second own charge and a removal. -/
theorem counters_second_charge :
    let env : Environment := { buffer := fun _ _ => 1, freedName := some }
    let calls : List Call := [.startCharge env ⟨10, 3⟩ none, .endCharge env 60 none,
      .removeOldRecords env]
    let s := run (Tracker.step 30) (oneCharge.setup 30) calls
    s.totalChargeLogEntries = s.log.recordTotal ∧ s.totalChargeLogFiles = s.log.fileTotal ∧
      0 ≤ s.totalChargeLogEntries ∧ 0 ≤ s.totalChargeLogFiles ∧
      (s.setup 30).totalChargeLogEntries = s.totalChargeLogEntries ∧
      (s.setup 30).totalChargeLogFiles = s.totalChargeLogFiles := by
  intro env calls
  apply counters_run calls oneCharge_valid
  have hrecords : (oneCharge.setup 30).log.getChargerChargeRecords 30 none = some (1, 1) := by
    decide +kernel
  have hsize : (oneCharge.setup 30).log.size none 1 ≠ chargeRecordMaxFileSize := by
    decide +kernel
  refine ⟨⟨?_, ?_⟩, ⟨trivial, ?_, ?_⟩, ⟨?_, trivial⟩, trivial⟩
  · intro _ first last hfirst hfull
    rw [hrecords] at hfirst
    obtain ⟨rfl, rfl⟩ := Prod.mk.inj (Option.some.inj hfirst)
    exact absurd hfull hsize
  · intro _
    decide +kernel
  · intro _
    decide +kernel
  · intro hmanaged
    exact absurd rfl hmanaged
  · intro hcount
    exact absurd hcount (by decide +kernel)

/-- The first record file of a charger is not counted. -/
theorem counters_first_file :
    ¬ ∀ (fileCount : Nat) (t : Tracker) (charging : Directory → Bool) (calls : List Call),
      Valid fileCount t.log charging →
      let s := run (Tracker.step fileCount) (t.setup fileCount) calls
      s.totalChargeLogEntries = s.log.recordTotal ∧ s.totalChargeLogFiles = s.log.fileTotal ∧
        0 ≤ s.totalChargeLogEntries ∧ 0 ≤ s.totalChargeLogFiles ∧
        (s.setup fileCount).totalChargeLogEntries = s.totalChargeLogEntries ∧
        (s.setup fileCount).totalChargeLogFiles = s.totalChargeLogFiles := by
  intro hclaim
  let env : Environment := { buffer := fun _ _ => 1, freedName := some }
  have hcounted := (hclaim 30 newTracker (fun _ => false)
    [.startCharge env ⟨10, 3⟩ (some "A")] newTracker_valid).2.1
  exact absurd hcounted (by decide +kernel)

end Esp32Firmware.ChargeTracker
