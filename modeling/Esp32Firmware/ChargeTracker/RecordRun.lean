import Esp32Firmware.ChargeTracker.RecordSteps

/-!
# Charge record files over runs

Every run of calls and restarts keeps the format of the record files in all directories, if
what is left of a freed directory name still names it and no directory gets more files than
are read.
-/

namespace Esp32Firmware.ChargeTracker

variable {fileCount : Nat} {charging : Directory → Bool} {directory : Directory} {t t' : Tracker}
  {env : Environment}

/-- There is room for a new file in what is read of the directory, once the oldest file of some
directory has been dropped. -/
def HasRoom (fileCount : Nat) (t : Tracker) (env : Environment) (directory : Directory) : Prop :=
  (t.log.files directory).length < fileCount + 2 ∨ (t.log.files directory).length = fileCount + 2 ∧
      ∃ n, t.dropped fileCount env = some (directory, n)

theorem Started.valid {cs : ChargeStart} (h : Valid fileCount t.log charging)
    (hstart : Started fileCount t charging env cs directory t')
    (hsafe : ∀ first last, t.log.getChargerChargeRecords fileCount directory = some (first, last) →
      t.log.size directory last = chargeRecordMaxFileSize →
      NameKept fileCount t env ∧ HasRoom fileCount t env directory) :
    Valid fileCount t'.log (Function.update charging directory true) := by
  cases hstart with
  | first hfiles =>
    have hmade := h.makeDirectory env.directoryPosition directory
    apply hmade.setFiles
    · refine .rotated 1 [] [.start cs] Nat.one_pos (List.Perm.refl _) ⟨?_, ?_, rfl⟩
      · exact fun file hmem => absurd hmem List.not_mem_nil
      · show 9 ≤ 4096
        omega
    · rw [List.length_singleton]
      omega
    · exact makeDirectory_hasDirectory _
  | append first full last hlisted hroom hcharging =>
    obtain ⟨files, happend, hfiles⟩ := hlisted.append (.start cs)
    rw [happend]
    have hrotated := hlisted.rotated
    rw [hcharging] at hrotated
    apply h.setFiles (.rotated first full _ hlisted.positive hfiles (hrotated.start cs hroom))
    · rw [hfiles.length_eq, length_numbered, List.length_append, List.length_singleton,
        ← hlisted.length]
      exact h.room directory
    · exact h.hasDirectory_of_records hlisted.records
  | rollOver first full last hlisted hfull =>
    obtain ⟨hname, hroom⟩ := hsafe first _ hlisted.records (hlisted.size.trans hfull)
    have hremoved := h.removeOldRecords hname
    obtain ⟨first', full', hnumber, hlisted', hle, hlt⟩ :=
      h.listed_removeOldRecords hname hlisted
    obtain ⟨files, hwrite, hfiles⟩ := hlisted'.openWrite_append env.filePosition (.start cs)
    rw [← hnumber, hwrite]
    apply hremoved.setFiles
      (.rotated first' _ _ hlisted'.positive hfiles (hlisted'.rotated.rollOver cs hfull))
    · rw [hfiles.length_eq, length_numbered]
      simp only [List.length_append, List.length_singleton]
      have hlength := hlisted.length
      rcases hroom with hroom | ⟨hroom, hdropped⟩
      · omega
      · have := hlt hdropped
        omega
    · exact hremoved.hasDirectory_of_records hlisted'.records

theorem setup_log (t : Tracker) : (t.setup fileCount).log = t.log := by
  have hone : ∀ (t : Tracker) directory, (t.setupRecords fileCount directory).2.log = t.log := by
    intro t directory
    unfold Tracker.setupRecords
    dsimp only
    split
    · rfl
    · split
      · rfl
      · split <;> rfl
  have hall : ∀ (names : List String) (t : Tracker),
      (names.foldl (fun t name => (t.setupRecords fileCount (some name)).2) t).log = t.log := by
    intro names
    induction names with
    | nil => exact fun t => rfl
    | cons name rest ih => exact fun t => (ih _).trans (hone t (some name))
  unfold Tracker.setup
  dsimp only
  have hown := hone { t with totalChargeLogFiles := 0, totalChargeLogEntries := 0 } none
  cases hresult : Tracker.setupRecords fileCount
      { t with totalChargeLogFiles := 0, totalChargeLogEntries := 0 } none with
  | mk success counted =>
    rw [hresult] at hown
    cases success with
    | false => exact hown
    | true => exact (hall counted.log.chargers counted).trans hown

/-- A call, and with it whether the last successful call for a directory was a start. -/
def track (fileCount : Nat) (s : Tracker × (Directory → Bool)) (call : Call) :
    Tracker × (Directory → Bool) :=
  (s.1.step fileCount call,
    match call with
    | .startCharge env cs directory =>
      if (s.1.startCharge fileCount env cs directory).1 then Function.update s.2 directory true
      else s.2
    | .endCharge env chargeDuration directory =>
      if (s.1.endCharge fileCount env chargeDuration directory).1 then
        Function.update s.2 directory false
      else s.2
    | .removeOldRecords _ => s.2
    | .reboot _ => s.2)

/-- A removal meets the name of the directory it found. A start that needs a new file does so
too, and finds room for it. -/
def Safe (fileCount : Nat) (t : Tracker) : Call → Prop
  | .startCharge env _ directory =>
    env.allowCharging ∨ directory ≠ none → ∀ first last,
      t.log.getChargerChargeRecords fileCount directory = some (first, last) →
      t.log.size directory last = chargeRecordMaxFileSize →
      NameKept fileCount t env ∧ HasRoom fileCount t env directory
  | .endCharge _ _ _ => True
  | .removeOldRecords env => NameKept fileCount t env
  | .reboot env => NameKept fileCount (t.setup fileCount) env

theorem Valid.track (h : Valid fileCount t.log charging) (call : Call)
    (hsafe : Safe fileCount t call) :
    Valid fileCount (track fileCount (t, charging) call).1.log
      (ChargeTracker.track fileCount (t, charging) call).2 := by
  cases call with
  | startCharge env cs directory =>
    simp only [ChargeTracker.track, Tracker.step]
    rcases h.startCharge_cases env cs directory with heq | ⟨hallowed, t', heq, hstarted⟩
    · rw [heq]
      exact h
    · rw [heq]
      exact hstarted.valid h (hsafe hallowed)
  | endCharge env chargeDuration directory =>
    simp only [ChargeTracker.track, Tracker.step]
    rcases h.endCharge_cases env chargeDuration directory with
      heq | ⟨hempty, hknown, heq⟩ | ⟨first, full, last, hlisted, hcharging, heq⟩
    · rw [heq]
      exact h
    · rw [heq]
      have hcharging : charging directory = false := by
        rcases h.cases directory with ⟨-, hcharging⟩ | ⟨first, full, last, hlisted⟩
        · exact hcharging
        · have hlength := hlisted.length
          rw [hempty] at hlength
          cases hlength
      have hfirst : ValidDirectory [(1, [])] false :=
        .rotated 1 [] [] Nat.one_pos (List.Perm.refl _)
          ⟨fun file hmem => absurd hmem List.not_mem_nil, Nat.zero_le _, rfl⟩
      have hvalid := h.setFiles hfirst (by rw [List.length_singleton]; omega) hknown
      rwa [← hcharging, Function.update_eq_self] at hvalid
    · rw [heq]
      obtain ⟨files, happend, hfiles⟩ :=
        hlisted.append (.stop ⟨chargeDuration.toBitVec.setWidth 24⟩)
      have hrotated := hlisted.rotated
      rw [hcharging] at hrotated
      show Valid fileCount (t.log.append directory _ _) (Function.update charging directory false)
      rw [happend]
      apply h.setFiles (.rotated first full _ hlisted.positive hfiles (hrotated.stop _))
      · rw [hfiles.length_eq, length_numbered, List.length_append, List.length_singleton,
          ← hlisted.length]
        exact h.room directory
      · exact h.hasDirectory_of_records hlisted.records
  | removeOldRecords env => exact h.removeOldRecords hsafe
  | reboot env =>
    have hsetup : Valid fileCount (t.setup fileCount).log charging := by
      rw [setup_log]
      exact h
    exact hsetup.removeOldRecords hsafe

/-- Consecutive numbers, full files before the last one, starts and ends in turn. -/
def RecordFormat (files : List (Nat × RecordFile)) : Prop :=
  ∃ first contents, files.Perm (numbered first contents) ∧
    (∀ file ∈ contents.dropLast, fileSize file = chargeRecordMaxFileSize) ∧
    (∀ file ∈ contents.getLast?, fileSize file ≤ chargeRecordMaxFileSize ∧
      (fileSize file % chargeRecordSize = 0 ∨ fileSize file % chargeRecordSize = chargeStartSize)) ∧
    (turn false contents.flatten).isSome

variable {files : List (Nat × RecordFile)}

theorem ValidDirectory.recordFormat {charging : Bool} (h : ValidDirectory files charging) :
    RecordFormat files := by
  cases h with
  | empty hfiles hcharging => exact ⟨1, [], by simp [hfiles], by simp, by simp, rfl⟩
  | rotated first full last hfirst hfiles hrotated =>
    refine ⟨first, full ++ [last], hfiles, ?_, ?_, ?_⟩
    · rw [List.dropLast_concat]
      exact hrotated.allFull
    · intro file hfile
      rw [List.getLast?_concat] at hfile
      obtain rfl := Option.some.inj hfile
      refine ⟨hrotated.lastFits, ?_⟩
      have hmod : fileSize last % chargeRecordSize = openSize charging := hrotated.last_mod
      rw [hmod]
      cases charging
      · exact Or.inl rfl
      · exact Or.inr rfl
    · rw [List.flatten_append, List.flatten_singleton, hrotated.inTurn]
      rfl

theorem Valid.currentlyCharging {log : Log} (h : Valid fileCount log charging)
    (directory : Directory) :
    log.currentlyCharging fileCount directory = charging directory := by
  unfold Log.currentlyCharging
  rcases h.cases directory with ⟨hempty, hcharging⟩ | ⟨first, full, last, hlisted⟩
  · rw [getChargerChargeRecords_eq_none hempty, hcharging]
  · rw [hlisted.records]
    dsimp only
    rw [hlisted.size, Bool.eq_iff_iff, decide_eq_true_iff]
    exact hlisted.rotated.charging_iff

/-- Calls and restarts keep the format of all directories. A charge is open in a directory
exactly if the last successful call for it was a start. -/
theorem recordFormat_run (calls : List Call) (hvalid : Valid fileCount t.log charging)
    (h : Meets (track fileCount) (fun s call => Safe fileCount s.1 call) (t, charging) calls) :
    let s := run (track fileCount) (t, charging) calls
    ∀ directory, RecordFormat (s.1.log.files directory) ∧
      s.1.log.currentlyCharging fileCount directory = s.2 directory := by
  intro s directory
  have hkeep : Valid fileCount s.1.log s.2 :=
    h.invariant (fun (s : Tracker × (Directory → Bool)) call hs hsafe =>
      Valid.track (show Valid fileCount s.1.log s.2 from hs) call hsafe) hvalid
  exact ⟨(hkeep.directory directory).recordFormat, hkeep.currentlyCharging directory⟩

/-- Records of a new device. -/
def newTracker : Tracker where
  log := { files := fun _ => [], chargers := [] }
  totalChargeLogFiles := 0
  totalChargeLogEntries := 0
  users := Users.factory

theorem newTracker_valid : Valid 30 newTracker.log fun _ => false where
  directory _ := .empty rfl rfl
  room _ := Nat.zero_le _
  known _ _ := rfl
  chargers := List.nodup_nil

/-- A charge of a new device, and the removal of old records. -/
theorem recordFormat_first_charge :
    let env : Environment := { buffer := fun _ _ => 1, freedName := some }
    let calls : List Call := [.startCharge env ⟨10, 3⟩ (some "A"), .endCharge env 60 (some "A"),
      .removeOldRecords env]
    let s := run (track 30) (newTracker, fun _ => false) calls
    ∀ directory, RecordFormat (s.1.log.files directory) ∧
      s.1.log.currentlyCharging 30 directory = s.2 directory := by
  intro env calls
  apply recordFormat_run calls newTracker_valid
  refine ⟨?_, trivial, ?_, trivial⟩
  · intro _ first last hrecords
    rw [getChargerChargeRecords_eq_none rfl] at hrecords
    cases hrecords
  · intro hcount
    exact absurd hcount (by decide)

/-- 256 complete charges. -/
def fullFile : RecordFile := (List.replicate 256 [.start ⟨1, 0⟩, .stop ⟨60⟩]).flatten

/-- Two managed chargers with more than one file. -/
def twoChargers : Tracker where
  log := {
    files := fun directory =>
      if directory = some "A" then numbered 3 [fullFile, []]
      else if directory = some "B" then numbered 1 (List.replicate 28 fullFile ++ [[]])
      else []
    chargers := ["A", "B"] }
  totalChargeLogFiles := 31
  totalChargeLogEntries := 29 * 256
  users := Users.factory

/-- The name of the directory listed last stands where the one that was found stood. -/
def lastName : Environment where
  buffer directory _ := if directory = some "A" then 1 else 2
  freedName _ := some "B"

theorem turn_flatten_of_complete {full : List RecordFile}
    (h : ∀ file ∈ full, turn false file = some false) : turn false full.flatten = some false := by
  induction full with
  | nil => rfl
  | cons file rest ih =>
    obtain ⟨hfile, hrest⟩ := List.forall_mem_cons.mp h
    rw [List.flatten_cons, turn_append, hfile]
    exact ih hrest

theorem rotated_fullFiles (count : Nat) : Rotated (List.replicate count fullFile) [] false where
  allFull file hmem := by
    rw [List.eq_of_mem_replicate hmem]
    decide +kernel
  lastFits := Nat.zero_le _
  inTurn := by
    rw [List.append_nil]
    apply turn_flatten_of_complete
    intro file hmem
    rw [List.eq_of_mem_replicate hmem]
    decide +kernel

theorem twoChargers_valid : Valid 30 twoChargers.log fun _ => false where
  directory directory := by
    show ValidDirectory (if directory = some "A" then _ else if directory = some "B" then _ else _)
      false
    split
    · exact .rotated 3 (List.replicate 1 fullFile) [] (by omega) (List.Perm.refl _)
        (rotated_fullFiles 1)
    · split
      · exact .rotated 1 (List.replicate 28 fullFile) [] (by omega) (List.Perm.refl _)
          (rotated_fullFiles 28)
      · exact .empty rfl rfl
  room directory := by
    show (if directory = some "A" then _ else if directory = some "B" then _ else _ :
      List (Nat × RecordFile)).length ≤ 32
    split
    · rw [length_numbered]
      decide
    · split
      · rw [length_numbered, List.length_append, List.length_replicate]
        decide
      · exact Nat.zero_le _
  known directory hnot := by
    have hnames : directory ≠ some "A" ∧ directory ≠ some "B" := by
      constructor <;> rintro rfl <;> exact hnot (by decide)
    show (if directory = some "A" then _ else if directory = some "B" then _ else _) = _
    rw [if_neg hnames.1, if_neg hnames.2]
  chargers := by decide

/-- Record numbers have no gap. -/
theorem RecordFormat.between (h : RecordFormat files) {n : Nat} (hbefore : n ∈ files.map Prod.fst)
    (hafter : n + 2 ∈ files.map Prod.fst) :
    n + 1 ∈ files.map Prod.fst := by
  obtain ⟨first, contents, hperm, -⟩ := h
  have hnumbers : ∀ m, m ∈ files.map Prod.fst ↔ first ≤ m ∧ m < first + contents.length := by
    intro m
    rw [(hperm.map Prod.fst).mem_iff, map_fst_numbered, List.mem_range'_1]
  rw [hnumbers] at *
  omega

/-- File 3 of charger B is removed instead of file 3 of charger A. -/
theorem recordFormat_lost :
    ¬ ∀ (fileCount : Nat) (t : Tracker) (charging : Directory → Bool) (calls : List Call),
      Valid fileCount t.log charging →
      let s := run (track fileCount) (t, charging) calls
      ∀ directory, RecordFormat (s.1.log.files directory) ∧
        s.1.log.currentlyCharging fileCount directory = s.2 directory := by
  intro hclaim
  have hformat := (hclaim 30 twoChargers (fun _ => false) [.removeOldRecords lastName]
    twoChargers_valid (some "B")).1
  have hmissing := hformat.between (n := 2)
  exact absurd hmissing (by decide)

end Esp32Firmware.ChargeTracker
