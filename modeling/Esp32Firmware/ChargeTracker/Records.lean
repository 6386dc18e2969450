import Esp32Firmware.Library.Numbered
import Esp32Firmware.Users.Commands

/-!
# Charge records

Charges of the own charger and of managed ones are kept in numbered files of a directory each,
a start of 9 bytes and an end of 7 bytes for each charge. When there are too many files, the
oldest one of some directory is removed, with the names of users that have no charges left.

When the oldest file is removed, user names without charges are removed too. The files read to
find users in use are not all that remain, so a name can go although there are charges of this
user. Here is exactly when it does not.

## Implementation notes

Meter values, their repair and the states shown in the web interface are left out, they change
neither the sizes of files nor the users. The counters are integers, a negative one stands for
an underflow.
-/

namespace Esp32Firmware.ChargeTracker

/-- Where a charger's records are; `none` is the directory of the own charger. -/
abbrev Directory := Option String

structure ChargeStart where
  timestampMinutes : UInt32
  userId : UInt8
  deriving DecidableEq

structure ChargeEnd where
  chargeDuration : BitVec 24
  deriving DecidableEq

inductive Entry where
  | start (cs : ChargeStart)
  | stop (ce : ChargeEnd)
  deriving DecidableEq

def chargeStartSize : Nat := 9
def chargeEndSize : Nat := 7
def chargeRecordSize : Nat := chargeStartSize + chargeEndSize
def chargeRecordMaxFileSize : Nat := 4096

def Entry.size : Entry → Nat
  | .start _ => chargeStartSize
  | .stop _ => chargeEndSize

abbrev RecordFile := List Entry

def fileSize (file : RecordFile) : Nat := (file.map Entry.size).sum

/-- The byte with the user in each record; every record begins with a start. -/
def trackedUsers (file : RecordFile) : List UInt8 :=
  file.filterMap fun
    | .start cs => some cs.userId
    | .stop _ => none

/-- Files by number and subdirectories, both in the order in which they are listed. -/
structure Log where
  files : Directory → List (Nat × RecordFile)
  chargers : List String

namespace Log

def directories (log : Log) : List Directory := none :: log.chargers.map some

/-- `LittleFS.exists` of a record directory. -/
def hasDirectory (log : Log) (directory : Directory) : Bool := directory ∈ log.directories

/-- The content of a file, nothing for a missing one. -/
def read (log : Log) (directory : Directory) (n : Nat) : RecordFile :=
  ((log.files directory).lookup n).getD []

def size (log : Log) (directory : Directory) (n : Nat) : Nat := fileSize (log.read directory n)

def setFiles (log : Log) (directory : Directory) (files : List (Nat × RecordFile)) : Log :=
  { log with files := Function.update log.files directory files }

def append (log : Log) (directory : Directory) (n : Nat) (entry : Entry) : Log :=
  log.setFiles directory (changeAt n (· ++ [entry]) (log.files directory))

def remove (log : Log) (directory : Directory) (n : Nat) : Log :=
  log.setFiles directory (dropAt n (log.files directory))

/-- Subdirectories appear anywhere in the listing. -/
def makeDirectory (log : Log) (position : Nat) : Directory → Log
  | none => log
  | some name =>
    if name ∈ log.chargers then log
    else { log with chargers := log.chargers.insertIdx (min position log.chargers.length) name }

/-- An empty file appears anywhere in the listing. -/
def create (log : Log) (position : Nat) (directory : Directory) (n : Nat) : Log :=
  let files := log.files directory
  log.setFiles directory (files.insertIdx (min position files.length) (n, []))

/-- Mode `a` creates a missing file. -/
def openAppend (log : Log) (position : Nat) (directory : Directory) (n : Nat) : Log :=
  if ((log.files directory).lookup n).isSome then log else log.create position directory n

/-- Mode `w` creates a missing file and empties another one. -/
def openWrite (log : Log) (position : Nat) (directory : Directory) (n : Nat) : Log :=
  if ((log.files directory).lookup n).isSome then
    log.setFiles directory (changeAt n (fun _ => []) (log.files directory))
  else log.create position directory n

/-- Two more for power cycles between the creation of a file and the removal of another one. -/
def foundBlobs (fileCount : Nat) (log : Log) (directory : Directory) : List Nat :=
  (((log.files directory).map Prod.fst).filter (· ≠ 0)).take (fileCount + 2)

/-- First and last record file of a directory. -/
def getChargerChargeRecords (fileCount : Nat) (log : Log) (directory : Directory) :
    Option (Nat × Nat) :=
  match (log.foundBlobs fileCount directory).min?, (log.foundBlobs fileCount directory).max? with
  | some first, some last => some (first, last)
  | _, _ => none

/-- Whether the last charge is complete and so is the one before it. -/
def repairLast (fileCount : Nat) (log : Log) (directory : Directory) : Bool :=
  match log.getChargerChargeRecords fileCount directory with
  | none => true
  | some (_, last) =>
    let size := log.size directory last
    if size % chargeRecordSize ≠ 0 then false
    else if 2 * chargeRecordSize ≤ size then true
    else if size = chargeRecordSize ∧ 1 < last then
      let tmpSize := log.size directory (last - 1)
      tmpSize % chargeRecordSize = 0 ∧ 2 * chargeRecordSize ≤ tmpSize
    else true

def currentlyCharging (fileCount : Nat) (log : Log) (directory : Directory) : Bool :=
  match log.getChargerChargeRecords fileCount directory with
  | none => false
  | some (_, last) => log.size directory last % chargeRecordSize = chargeStartSize

end Log

/-- What a call meets outside of its arguments and the files. The search for the oldest file
reads past the end of each first file, so `buffer` is what was in its buffer. The name of the
directory found is freed when the search ends: `freedName` is what its memory says later. -/
structure Environment where
  allowCharging : Bool := true
  filePosition : Nat := 0
  directoryPosition : Nat := 0
  buffer : Directory → Nat → UInt32
  freedName : String → Directory

/-- The files, the counters and the users. -/
structure Tracker where
  log : Log
  totalChargeLogFiles : Int
  totalChargeLogEntries : Int
  users : Users.State

/-- The result of the search for the oldest file so far. -/
structure Oldest where
  timestamp : UInt32
  dir : Directory
  firstRecord : Nat

/-- `UINT32_MAX` -/
def noTimestamp : UInt32 := 0xFFFFFFFF

namespace Log

/-- The timestamps that the search reads in a directory. -/
def timestamps (env : Environment) (directory : Directory) : List UInt32 :=
  (List.range' 1 (chargeRecordMaxFileSize / chargeRecordSize - 1)).map fun i =>
    env.buffer directory (i * chargeRecordSize)

/-- One directory of the search, and whether the search goes on. -/
def findOldestRecord (fileCount : Nat) (log : Log) (env : Environment) (oldest : Oldest)
    (directory : Directory) : Oldest × Bool :=
  match log.getChargerChargeRecords fileCount directory with
  | none => (oldest, true)
  | some (first, last) =>
    if first = last then (oldest, true)
    else
      match (timestamps env directory).find? (· ≠ 0) with
      | some timestamp =>
        if timestamp ≤ oldest.timestamp then (⟨timestamp, directory, first⟩, true)
        else (oldest, true)
      -- all timestamps are unknown
      | none => (⟨0, directory, first⟩, false)

def searchOldest (fileCount : Nat) (log : Log) (env : Environment) :
    List Directory → Oldest → Oldest
  | [], oldest => oldest
  | directory :: rest, oldest =>
    match log.findOldestRecord fileCount env oldest directory with
    | (oldest, true) => searchOldest fileCount log env rest oldest
    | (oldest, false) => oldest

/-- The directory whose first file is to be removed, and the number of this file. -/
def oldestFile (fileCount : Nat) (log : Log) (env : Environment) : Option (Directory × Nat) :=
  let oldest := log.searchOldest fileCount env log.directories ⟨noTimestamp, none, 0⟩
  if oldest.timestamp = noTimestamp then none else some (oldest.dir, oldest.firstRecord)

/-- The files read for one directory to find users in use: its numbers but the last one, in the
directory of the removed file. -/
def clearUsersInUse (fileCount : Nat) (log : Log) (oldestDir directory : Directory) :
    List UInt8 :=
  match log.getChargerChargeRecords fileCount directory with
  | none => []
  | some (first, last) =>
    (List.range' first (last - first)).flatMap fun n => trackedUsers (log.read oldestDir n)

/-- Users of the removed file that are not found in the files that are read. -/
def usersToDelete (fileCount : Nat) (log : Log) (oldestDir : Directory) (removed : RecordFile) :
    List UInt8 :=
  let inUse := log.directories.flatMap (log.clearUsersInUse fileCount oldestDir)
  Users.userIds.filter fun id => id ∈ trackedUsers removed ∧ id ∉ inUse

end Log

namespace Tracker

/-- What the name of the found directory denotes after the search. -/
def dropped (fileCount : Nat) (t : Tracker) (env : Environment) : Option (Directory × Nat) :=
  if t.totalChargeLogFiles < fileCount then none
  else (t.log.oldestFile fileCount env).map fun (dir, n) => (dir.bind env.freedName, n)

def removeOldRecords (fileCount : Nat) (t : Tracker) (env : Environment) : Tracker :=
  match t.dropped fileCount env with
  | none => t
  | some (oldestDir, n) =>
    let log := t.log.remove oldestDir n
    { log
      totalChargeLogFiles := t.totalChargeLogFiles - 1
      totalChargeLogEntries :=
        t.totalChargeLogEntries - (chargeRecordMaxFileSize / chargeRecordSize : Nat)
      users := (log.usersToDelete fileCount oldestDir (t.log.read oldestDir n)).foldl
        Users.State.removeFromUsernameFile t.users }

/-- Whether the start was tracked, and the state after it. -/
def startCharge (fileCount : Nat) (t : Tracker) (env : Environment) (cs : ChargeStart)
    (directory : Directory) : Bool × Tracker :=
  if !env.allowCharging ∧ directory = none then (false, t)
  else if !t.log.repairLast fileCount directory then (false, t)
  else
    let last := ((t.log.getChargerChargeRecords fileCount directory).map Prod.snd).getD 1
    let log := t.log.makeDirectory env.directoryPosition directory
    let t := { t with log := log.openAppend env.filePosition directory last }
    if t.log.size directory last = chargeRecordMaxFileSize then
      let t := t.removeOldRecords fileCount env
      let log := t.log.openWrite env.filePosition directory (last + 1)
      (true, { t with
        log := log.append directory (last + 1) (.start cs)
        totalChargeLogFiles := t.totalChargeLogFiles + 1 })
    else (true, { t with log := t.log.append directory last (.start cs) })

/-- Whether the end was tracked, and the state after it. -/
def endCharge (fileCount : Nat) (t : Tracker) (env : Environment) (chargeDuration : UInt32)
    (directory : Directory) : Bool × Tracker :=
  let last := ((t.log.getChargerChargeRecords fileCount directory).map Prod.snd).getD 1
  -- no file can be created in a missing directory
  let t := if t.log.hasDirectory directory then
      { t with log := t.log.openAppend env.filePosition directory last }
    else t
  if t.log.size directory last % chargeRecordSize ≠ chargeStartSize then (false, t)
  else
    let t := { t with
      log := t.log.append directory last (.stop ⟨chargeDuration.toBitVec.setWidth 24⟩) }
    match directory with
    | some _ => (true, t)
    | none => (true, { t with totalChargeLogEntries := t.totalChargeLogEntries + 1 })

/-- All files but the last one are full and numbered without gaps. -/
def checkBlobs (log : Log) (directory : Directory) : List Nat → Bool
  | [] => true
  | [last] => log.size directory last ≤ chargeRecordMaxFileSize
  | n :: next :: rest =>
    n + 1 = next && log.size directory n = chargeRecordMaxFileSize &&
      checkBlobs log directory (next :: rest)

def setupRecords (fileCount : Nat) (t : Tracker) (directory : Directory) : Bool × Tracker :=
  let blobs := ((t.log.files directory).map Prod.fst).filter (· ≠ 0)
  if fileCount + 2 < blobs.length then (false, t)
  else
    let t := { t with totalChargeLogFiles := t.totalChargeLogFiles + blobs.length }
    match (blobs.mergeSort).getLast? with
    | none => (true, t)
    | some last =>
      if checkBlobs t.log directory blobs.mergeSort then
        let entries := ((blobs.length - 1) * chargeRecordMaxFileSize + t.log.size directory last) /
          chargeRecordSize
        (true, { t with totalChargeLogEntries := t.totalChargeLogEntries + entries })
      else (false, t)

/-- After a restart the files are counted again. -/
def setup (fileCount : Nat) (t : Tracker) : Tracker :=
  let t := { t with totalChargeLogFiles := 0, totalChargeLogEntries := 0 }
  match t.setupRecords fileCount none with
  | (false, t) => t
  | (true, t) =>
    t.log.chargers.foldl (fun t name => (t.setupRecords fileCount (some name)).2) t

/-- `setup` and then `register_urls`. -/
def reboot (fileCount : Nat) (t : Tracker) (env : Environment) : Tracker :=
  (t.setup fileCount).removeOldRecords fileCount env

end Tracker

inductive Call where
  | startCharge (env : Environment) (cs : ChargeStart) (directory : Directory)
  | endCharge (env : Environment) (chargeDuration : UInt32) (directory : Directory)
  | removeOldRecords (env : Environment)
  | reboot (env : Environment)

/-- The state after a call. -/
def Tracker.step (fileCount : Nat) (t : Tracker) : Call → Tracker
  | .startCharge env cs directory => (t.startCharge fileCount env cs directory).2
  | .endCharge env chargeDuration directory =>
    (t.endCharge fileCount env chargeDuration directory).2
  | .removeOldRecords env => t.removeOldRecords fileCount env
  | .reboot env => t.reboot fileCount env

open Users

variable (fileCount : Nat) (t : Tracker) (env : Environment)

/-- The IDs whose slots are cleared with the oldest file. -/
def freedUsers : List UInt8 :=
  match t.dropped fileCount env with
  | none => []
  | some (oldestDir, n) =>
    ((t.log.remove oldestDir n).usersToDelete fileCount oldestDir
      (t.log.read oldestDir n)).filter fun id => !isUserConfigured t.users.config id

/-- A record in some file of some directory has this user. -/
def Tracked (log : Log) (id : UInt8) : Prop :=
  ∃ directory ∈ log.directories, ∃ file ∈ log.files directory, id ∈ trackedUsers file.2

/-- A record of this user is in a file of `oldestDir` with a number from the first to below the
last one of some directory. -/
def ReadAgain (log : Log) (oldestDir : Directory) (id : UInt8) : Prop :=
  ∃ directory ∈ log.directories, ∃ first last,
    log.getChargerChargeRecords fileCount directory = some (first, last) ∧
      ∃ n, first ≤ n ∧ n < last ∧ id ∈ trackedUsers (log.read oldestDir n)

variable {log : Log} {oldestDir : Directory} {id : UInt8} {n : Nat}

theorem mem_clearUsersInUse {directory : Directory} :
    id ∈ log.clearUsersInUse fileCount oldestDir directory ↔
      ∃ first last, log.getChargerChargeRecords fileCount directory = some (first, last) ∧
        ∃ n, first ≤ n ∧ n < last ∧ id ∈ trackedUsers (log.read oldestDir n) := by
  unfold Log.clearUsersInUse
  cases log.getChargerChargeRecords fileCount directory with
  | none => simp
  | some records =>
    obtain ⟨first, last⟩ := records
    simp only [List.mem_flatMap, List.mem_range'_1, Option.some.injEq, Prod.mk.injEq]
    constructor
    · rintro ⟨n, ⟨hfirst, hlast⟩, hid⟩
      exact ⟨first, last, ⟨rfl, rfl⟩, n, hfirst, by omega, hid⟩
    · rintro ⟨_, _, ⟨rfl, rfl⟩, n, hfirst, hlast, hid⟩
      exact ⟨n, ⟨hfirst, by omega⟩, hid⟩

theorem mem_usersToDelete {removed : RecordFile} :
    id ∈ log.usersToDelete fileCount oldestDir removed ↔
      id ∈ trackedUsers removed ∧ ¬ ReadAgain fileCount log oldestDir id := by
  simp only [Log.usersToDelete, List.mem_filter, mem_userIds, true_and, decide_eq_true_eq,
    List.mem_flatMap, mem_clearUsersInUse, ReadAgain]

theorem removeOldRecords_log (h : t.dropped fileCount env = some (oldestDir, n)) :
    (t.removeOldRecords fileCount env).log = t.log.remove oldestDir n := by
  simp only [Tracker.removeOldRecords, h]

theorem mem_freedUsers (h : t.dropped fileCount env = some (oldestDir, n)) :
    id ∈ freedUsers fileCount t env ↔ (id ∈ trackedUsers (t.log.read oldestDir n) ∧
        ¬ ReadAgain fileCount (t.log.remove oldestDir n) oldestDir id) ∧
      ¬ isUserConfigured t.users.config id := by
  simp only [freedUsers, h, List.mem_filter, mem_usersToDelete, Bool.not_eq_true', Bool.not_eq_true]

/-- No slot of a configured or tracked ID is cleared exactly if every other ID of the removed
file with records left has one in the files that are read. -/
theorem freedUsers_untracked_iff :
    (∀ id ∈ freedUsers fileCount t env, ¬ isUserConfigured t.users.config id ∧
      ¬ Tracked (t.removeOldRecords fileCount env).log id) ↔
    ∀ oldestDir n, t.dropped fileCount env = some (oldestDir, n) →
      ∀ id ∈ trackedUsers (t.log.read oldestDir n), ¬ isUserConfigured t.users.config id →
        Tracked (t.log.remove oldestDir n) id →
        ReadAgain fileCount (t.log.remove oldestDir n) oldestDir id := by
  cases hdropped : t.dropped fileCount env with
  | none => simp [freedUsers, hdropped]
  | some file =>
    obtain ⟨oldestDir, n⟩ := file
    have hfreed (id : UInt8) : id ∈ freedUsers fileCount t env ↔ _ :=
      mem_freedUsers fileCount t env hdropped
    rw [removeOldRecords_log fileCount t env hdropped]
    constructor
    · rintro h _ _ ⟨⟩ id hremoved hconfigured htracked
      by_contra hread
      exact (h id ((hfreed id).mpr ⟨⟨hremoved, hread⟩, hconfigured⟩)).2 htracked
    · intro h id hid
      obtain ⟨⟨hremoved, hread⟩, hconfigured⟩ := (hfreed id).mp hid
      exact ⟨hconfigured, fun htracked =>
        hread (h oldestDir n rfl id hremoved hconfigured htracked)⟩

/-- A charge of a user without an end in the newest file, a full file before it. -/
def sharedUserLog : Log where
  files
    | none => [(1, (List.replicate 256 [.start ⟨1, 5⟩, .stop ⟨60⟩]).flatten), (2, [.start ⟨2, 5⟩])]
    | some name => if name.length = 1 then [(1, [.start ⟨1, 0⟩, .stop ⟨60⟩])] else []
  chargers := "ABCDEFGHIJKLMNOPQRSTUVWXYZab".toList.map Char.toString

def sharedUserTracker : Tracker where
  log := sharedUserLog
  totalChargeLogFiles := 30
  totalChargeLogEntries := 284
  users := Users.factory

/-- A buffer that holds a timestamp by chance. -/
def someTimestamp : Environment where
  buffer := fun _ _ => 1
  freedName := some

/-- User 5 still has a charge in the newest own file, the name is removed nevertheless. -/
theorem freedUsers_tracked :
    ¬ ∀ (fileCount : Nat) (t : Tracker) (env : Environment), ∀ id ∈ freedUsers fileCount t env,
      ¬ isUserConfigured t.users.config id ∧
        ¬ Tracked (t.removeOldRecords fileCount env).log id := by
  intro hclaim
  have hdropped : sharedUserTracker.dropped 30 someTimestamp = some (none, 1) := by decide
  have hnoneRead : ∀ directory ∈ (sharedUserTracker.log.remove none 1).directories,
      (sharedUserTracker.log.remove none 1).clearUsersInUse 30 none directory = [] := by
    decide
  have hfreed : 5 ∈ freedUsers 30 sharedUserTracker someTimestamp := by
    rw [mem_freedUsers _ _ _ hdropped]
    refine ⟨⟨by decide, ?_⟩, by decide⟩
    rintro ⟨directory, hmem, hread⟩
    have hid := (mem_clearUsersInUse 30).mpr hread
    rw [hnoneRead directory hmem] at hid
    exact List.not_mem_nil hid
  apply (hclaim 30 sharedUserTracker someTimestamp 5 hfreed).2
  rw [removeOldRecords_log _ _ _ hdropped]
  exact ⟨none, List.mem_cons_self, (2, [.start ⟨2, 5⟩]), List.mem_singleton_self _,
    List.mem_singleton_self _⟩

end Esp32Firmware.ChargeTracker
