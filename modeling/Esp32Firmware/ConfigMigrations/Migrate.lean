import Esp32Firmware.Library.Run

/-!
# Migrating the configuration

Configurations before version 2 are files of the root directory, later ones are files of
`/config`. They are migrated in a copy of this directory.

At boot the files of the configuration are brought to the version of the firmware. A migration
rewrites files of a copy, which then takes the place of the directory.

## Implementation notes

What is written to a file reaches it when the file is closed. A file that is opened for writing
exists from then on. `/config` and `/migration` have no directories of their own. Everything
outside of the three directories, as the keys of the remote access, is kept by path.

The order in which a directory lists its files and the JSON library are not part of the firmware.
A document that cannot be read has no version, which reads as `null`. Nothing fails for want of
space.
-/

namespace Esp32Firmware.ConfigMigrations

/-- The text of each file. -/
abbrev Dir := Finmap fun _ : String => String

inductive DirOperation where
  | remove (name : String)
  | create (name : String)
  | close (name text : String)
  | rename (name target : String)
deriving DecidableEq

def applyDir (dir : Dir) : DirOperation → Dir
  | .remove name => dir.erase name
  | .create name => if name ∈ dir then dir else dir.insert name ""
  | .close name text => dir.insert name text
  | .rename name target =>
    match dir.lookup name with
    | some text => (dir.erase name).insert target text
    | none => dir

inductive Folder where
  | config
  | migration
deriving DecidableEq

/-- The files of the root directory, the two directories below it and what else there is. -/
structure Disk where
  root : Dir
  config : Option Dir
  migration : Option Dir
  outside : Dir

/-- An operation on the disk. A file is moved from the root directory to `/config`, and the
directory `/migration` is renamed to `/config`. -/
inductive FileOperation where
  | mkdir (folder : Folder)
  | rmdir (folder : Folder)
  | inside (folder : Folder) (op : DirOperation)
  | outside (op : DirOperation)
  | move (name target : String)
  | renameMigration
deriving DecidableEq

namespace Disk

def folder (disk : Disk) : Folder → Option Dir
  | .config => disk.config
  | .migration => disk.migration

def setFolder (disk : Disk) (dir : Option Dir) : Folder → Disk
  | .config => { disk with config := dir }
  | .migration => { disk with migration := dir }

/-- Only an empty directory is removed or replaced by another one. -/
def apply (disk : Disk) : FileOperation → Disk
  | .mkdir folder =>
    match disk.folder folder with
    | none => disk.setFolder (some ∅) folder
    | some _ => disk
  | .rmdir folder =>
    match disk.folder folder with
    | none => disk
    | some dir => if dir.keys = ∅ then disk.setFolder none folder else disk
  | .inside folder op => disk.setFolder ((disk.folder folder).map (applyDir · op)) folder
  | .outside op => { disk with outside := applyDir disk.outside op }
  | .move name target =>
    match disk.root.lookup name, disk.config with
    | some text, some dir =>
      { disk with root := disk.root.erase name, config := some (dir.insert target text) }
    | _, _ => disk
  | .renameMigration =>
    if (disk.config.getD ∅).keys = ∅ ∧ disk.migration.isSome then
      { disk with config := disk.migration, migration := none }
    else disk

/-- An operation that leaves the root directory and `/config` alone. -/
inductive OnMigration : FileOperation → Prop
  | mkdir : OnMigration (.mkdir .migration)
  | rmdir : OnMigration (.rmdir .migration)
  | inside (op : DirOperation) : OnMigration (.inside .migration op)
  | outside (op : DirOperation) : OnMigration (.outside op)

@[simp] theorem folder_setFolder (disk : Disk) (dir : Option Dir) (folder : Folder) :
    (disk.setFolder dir folder).folder folder = dir := by
  cases folder <;> rfl

@[simp] theorem setFolder_setFolder (disk : Disk) (dir dir' : Option Dir) (folder : Folder) :
    (disk.setFolder dir folder).setFolder dir' folder = disk.setFolder dir' folder := by
  cases folder <;> rfl

theorem setFolder_folder (disk : Disk) (folder : Folder) :
    disk.setFolder (disk.folder folder) folder = disk := by
  cases folder <;> rfl

variable {disk : Disk} {op : FileOperation}

theorem apply_onMigration (h : OnMigration op) :
    (disk.apply op).root = disk.root ∧ (disk.apply op).config = disk.config := by
  cases h with
  | mkdir =>
    rw [apply]
    split <;> exact ⟨rfl, rfl⟩
  | rmdir =>
    rw [apply]
    split
    · exact ⟨rfl, rfl⟩
    · split <;> exact ⟨rfl, rfl⟩
  | inside op | outside op => exact ⟨rfl, rfl⟩

/-- Operations on `/migration` leave the root directory and `/config` alone. -/
theorem run_onMigration {ops : List FileOperation} (h : ∀ op ∈ ops, OnMigration op)
    (disk : Disk) :
    (run apply disk ops).root = disk.root ∧ (run apply disk ops).config = disk.config := by
  refine Script.run_invariant
    (I := fun disk' : Disk => disk'.root = disk.root ∧ disk'.config = disk.config) ?_ ⟨rfl, rfl⟩
  intro disk' op hop hdisk'
  obtain ⟨hroot, hconfig⟩ := apply_onMigration (h op hop)
  exact ⟨hroot.trans hdisk'.1, hconfig.trans hdisk'.2⟩

theorem apply_outside (h : ∀ dirOp, op ≠ .outside dirOp) :
    (disk.apply op).outside = disk.outside := by
  cases op with
  | mkdir folder =>
    rw [apply]
    split
    · cases folder <;> rfl
    · rfl
  | rmdir folder =>
    rw [apply]
    split
    · rfl
    · split
      · cases folder <;> rfl
      · rfl
  | inside folder op => cases folder <;> rfl
  | outside op => exact absurd rfl (h op)
  | move name target | renameMigration =>
    rw [apply]
    split <;> rfl

/-- Without an operation outside of the three directories nothing changes there. -/
theorem run_outside {ops : List FileOperation} (h : ∀ dirOp, .outside dirOp ∉ ops)
    (disk : Disk) : (run apply disk ops).outside = disk.outside := by
  refine Script.run_invariant (I := fun disk' : Disk => disk'.outside = disk.outside) ?_ rfl
  intro disk' op hop hdisk'
  rw [apply_outside fun dirOp heq => h dirOp (heq ▸ hop), hdisk']

/-- Operations inside of a directory act on its files alone. -/
theorem run_inside (disk : Disk) (folder : Folder) (ops : List DirOperation) :
    run apply disk (ops.map (.inside folder)) =
      disk.setFolder ((disk.folder folder).map fun dir => run applyDir dir ops) folder := by
  induction ops generalizing disk with
  | nil =>
    have hsame : (disk.folder folder).map (fun dir => run applyDir dir []) =
        disk.folder folder := by
      cases disk.folder folder <;> rfl
    rw [hsame, setFolder_folder]
    rfl
  | cons op rest ih =>
    have hstep : run apply disk ((op :: rest).map (.inside folder)) =
        run apply (disk.apply (.inside folder op)) (rest.map (.inside folder)) := rfl
    rw [hstep, ih, apply, folder_setFolder, setFolder_setFolder, Option.map_map]
    rfl

end Disk

/-- What a migration does: it writes to the copy in `/migration`, or outside of it. -/
inductive MigrationOperation where
  | inside (op : DirOperation)
  | outside (op : DirOperation)

namespace MigrationOperation

def fileOperation : MigrationOperation → FileOperation
  | .inside op => .inside .migration op
  | .outside op => .outside op

def inside? : MigrationOperation → Option DirOperation
  | .inside op => some op
  | .outside _ => none

def outside? : MigrationOperation → Option DirOperation
  | .inside _ => none
  | .outside op => some op

end MigrationOperation

/-- A migration acts on the copy and on what is outside, apart from each other. -/
theorem run_fileOperations {disk : Disk} {dir : Dir} (hmigration : disk.migration = some dir)
    (ops : List MigrationOperation) :
    run Disk.apply disk (ops.map MigrationOperation.fileOperation) = { disk with
        migration := some (run applyDir dir (ops.filterMap MigrationOperation.inside?))
        outside := run applyDir disk.outside (ops.filterMap MigrationOperation.outside?) } := by
  induction ops generalizing disk dir with
  | nil =>
    obtain ⟨root, config, migration, outside⟩ := disk
    cases hmigration
    rfl
  | cons op rest ih =>
    cases op with
    | inside op =>
      have hstep : (disk.apply (.inside .migration op)).migration = some (applyDir dir op) := by
        change disk.migration.map _ = _
        rw [hmigration, Option.map_some]
      exact ih hstep
    | outside op => exact ih hmigration

variable {dir : Dir} {names : List String}

/-- The files that are removed are gone, the others stay. -/
theorem lookup_run_remove (dir : Dir) (names : List String) (name : String) :
    (run applyDir dir (names.map .remove)).lookup name =
      if name ∈ names then none else dir.lookup name := by
  induction names generalizing dir with
  | nil => rw [if_neg List.not_mem_nil]; rfl
  | cons first rest ih =>
    have hstep : run applyDir dir ((first :: rest).map .remove) =
        run applyDir (dir.erase first) (rest.map .remove) := rfl
    rw [hstep, ih]
    by_cases hrest : name ∈ rest
    · rw [if_pos hrest, if_pos (List.mem_cons_of_mem _ hrest)]
    · rw [if_neg hrest]
      by_cases hfirst : name = first
      · rw [hfirst, Finmap.lookup_erase, if_pos List.mem_cons_self]
      · rw [Finmap.lookup_erase_ne hfirst, if_neg (by simp [hfirst, hrest])]

theorem run_remove_all (hnames : ∀ name ∈ dir, name ∈ names) :
    run applyDir dir (names.map .remove) = ∅ := by
  apply Finmap.ext_lookup
  intro name
  rw [lookup_run_remove, Finmap.lookup_empty]
  split
  · rfl
  · rename_i hname
    exact Finmap.lookup_eq_none.mpr fun hmem => hname (hnames name hmem)

/-- Opening a file and closing it again. -/
def writeFile (name text : String) : List DirOperation :=
  [.create name, .close name text]

theorem run_writeFile (dir : Dir) (name text : String) :
    run applyDir dir (writeFile name text) = dir.insert name text := by
  have hrun : run applyDir dir (writeFile name text) =
      (applyDir dir (.create name)).insert name text := rfl
  rw [hrun, applyDir]
  split
  · rfl
  · exact Finmap.insert_insert _

structure Version where
  major : UInt8
  minor : UInt8
  patch : UInt8
deriving DecidableEq

namespace Version

def lessThan (a b : Version) : Bool :=
  a.major < b.major || (a.major == b.major && a.minor < b.minor) ||
    (a.major == b.major && a.minor == b.minor && a.patch < b.patch)

def text (v : Version) : String :=
  toString v.major.toNat ++ "." ++ toString v.minor.toNat ++ "." ++ toString v.patch.toNat

/-- The digits at the start of a text, as `toInt` reads them. -/
def digits (chars : List Char) : Nat :=
  (chars.takeWhile Char.isDigit).foldl (fun n c => 10 * n + (c.toNat - '0'.toNat)) 0

/-- `toInt` skips blanks and takes a sign. -/
def toInt (chars : List Char) : Int :=
  match chars.dropWhile Char.isWhitespace with
  | '-' :: rest => -(digits rest : Int)
  | '+' :: rest => digits rest
  | rest => digits rest

/-- What follows the next dot, all of it where there is none. -/
def afterDot (chars : List Char) : Option (List Char) :=
  match chars.dropWhile (· ≠ '.') with
  | [] => none
  | _ :: rest => some rest

/-- A missing dot counts as one before the start. -/
def ofChars (chars : List Char) : Version :=
  let rest := (afterDot chars).getD chars
  { major := .ofInt (toInt (chars.takeWhile (· ≠ '.')))
    minor := .ofInt (toInt (rest.takeWhile (· ≠ '.')))
    patch := .ofInt (toInt ((afterDot rest).getD chars)) }

end Version

/-- A migration sees its copy of the files and what is outside of it. -/
structure ConfigMigration where
  version : Version
  fn : Dir → Dir → List MigrationOperation

/-- The migration does not look outside of its copy to decide what it writes there. -/
def ConfigMigration.Local (mig : ConfigMigration) : Prop :=
  ∀ dir outside outside', (mig.fn dir outside).filterMap MigrationOperation.inside? =
      (mig.fn dir outside').filterMap MigrationOperation.inside?

/-- What the JSON library reads from a version file. -/
structure VersionDoc where
  spiffs : String
  configType : Option String
deriving DecidableEq

/-- What is known about the files before the migrations. -/
structure Current where
  version : Version
  configType : String
  writeVersionFile : Bool
deriving DecidableEq

/-- A firmware with its migrations in order, on a file system that lists all files. -/
structure Firmware where
  configType : String
  oldest : Version
  migrations : List ConfigMigration
  deserialize : String → VersionDoc
  listing : Dir → List String
  ordered : migrations.Pairwise fun a b => a.version.lessThan b.version
  mem_listing : ∀ dir name, name ∈ listing dir ↔ name ∈ dir
  /-- What the firmware prints is read back. -/
  deserialize_printed : ∀ v : Version,
    deserialize ("\x7b\"spiffs\":\"" ++ v.text ++ "\",\"config_type\":\"" ++ configType ++
      "\"\x7d") = ⟨v.text, some configType⟩

namespace Firmware

variable (firmware : Firmware)

def versionText (v : Version) : String :=
  "\x7b\"spiffs\":\"" ++ v.text ++ "\",\"config_type\":\"" ++ firmware.configType ++ "\"\x7d"

/-- The version without what follows a dash. -/
def currentOf (doc : VersionDoc) : Current where
  version := .ofChars (doc.spiffs.toList.takeWhile (· ≠ '-'))
  configType := doc.configType.getD ""
  writeVersionFile := doc.configType.isNone || doc.spiffs.toList.contains '-'

/-- Files without a version are up to date. -/
def readVersion (dir : Dir) : Current :=
  match dir.lookup "version" with
  | some text => currentOf (firmware.deserialize text)
  | none =>
    { version := (firmware.migrations.getLast?.map ConfigMigration.version).getD
        firmware.oldest
      configType := ""
      writeVersionFile := true }

/-- The files belong to another product. -/
def mismatch (current : Current) : Bool :=
  current.configType ≠ "" && current.configType ≠ firmware.configType

/-- The loop over the migrations: those that are executed, and the version after them. -/
def executed (current : Version) : List ConfigMigration → List ConfigMigration × Version
  | [] => ([], current)
  | mig :: rest =>
    if current.lessThan mig.version then
      let later := executed mig.version rest
      (mig :: later.1, later.2)
    else executed current rest

def removeDirectory (folder : Folder) : Script Disk FileOperation := fun disk =>
  match disk.folder folder with
  | some dir => ((firmware.listing dir).map .remove).map (.inside folder) ++ [.rmdir folder]
  | none => [.rmdir folder]

def removeMigration : Script Disk FileOperation := fun disk =>
  if disk.migration.isSome then firmware.removeDirectory .migration disk else []

def copyFile (dir : Dir) (name : String) : List DirOperation :=
  match dir.lookup name with
  | some text => writeFile name text
  | none => []

def copyConfig : Script Disk FileOperation := fun disk =>
  match disk.config with
  | some dir => ((firmware.listing dir).flatMap (copyFile dir)).map (.inside .migration)
  | none => []

def prepareMigrations : Script Disk FileOperation :=
  (firmware.removeMigration.andThen Disk.apply fun _ => [.mkdir .migration]).andThen Disk.apply
    firmware.copyConfig

def runMigrations : List ConfigMigration → Script Disk FileOperation
  | [] => fun _ => []
  | mig :: rest =>
    Script.andThen Disk.apply
      (fun disk => (mig.fn (disk.migration.getD ∅) disk.outside).map
        MigrationOperation.fileOperation)
      (runMigrations rest)

def writeVersion (folder : Folder) (v : Version) : Script Disk FileOperation := fun _ =>
  (writeFile "version" (firmware.versionText v)).map (.inside folder)

/-- Everything that happens in `/migration`. -/
def migrateCopy (migrations : List ConfigMigration) (v : Version) : Script Disk FileOperation :=
  (firmware.prepareMigrations.andThen Disk.apply (runMigrations migrations)).andThen Disk.apply
    (firmware.writeVersion .migration v)

/-- `/migration` takes the place of `/config`. -/
def replaceConfig : Script Disk FileOperation :=
  (firmware.removeDirectory .config).andThen Disk.apply fun _ => [.renameMigration]

def migrateFiles : Script Disk FileOperation := fun disk =>
  let current := firmware.readVersion (disk.config.getD ∅)
  if firmware.mismatch current then []
  else
    let (migrations, v) := executed current.version firmware.migrations
    if migrations = [] then
      if current.writeVersionFile then firmware.writeVersion .config v disk else []
    else (firmware.migrateCopy migrations v).andThen Disk.apply firmware.replaceConfig disk

def makeConfig : Script Disk FileOperation := fun disk =>
  if disk.config.isNone then [.mkdir .config] else []

/-- The files of the root directory still have to be moved. -/
def MovePending (root config : Dir) : Prop :=
  "version" ∉ config ∧ "spiffs.json" ∈ root

instance (root config : Dir) : Decidable (MovePending root config) :=
  inferInstanceAs (Decidable (_ ∧ _))

/-- The old version file is moved last. -/
def moveFiles : Script Disk FileOperation := fun disk =>
  if MovePending disk.root (disk.config.getD ∅) then
    (((firmware.listing disk.root).filter (· ≠ "spiffs.json")).map fun name => .move name name) ++
      [.move "spiffs.json" "version"]
  else []

/-- The migration is done, only the directory has to be renamed. -/
def Done (disk : Disk) : Prop :=
  disk.config = none ∧ "version" ∈ disk.migration.getD ∅

instance (disk : Disk) : Decidable (Done disk) :=
  inferInstanceAs (Decidable (_ ∧ _))

def migrateConfig : Script Disk FileOperation := fun disk =>
  if Done disk then firmware.replaceConfig disk
  else
    ((makeConfig.andThen Disk.apply firmware.moveFiles).andThen Disk.apply
      firmware.migrateFiles) disk

/-- A boot that is interrupted after `n` file operations, or runs to its end before. -/
def boot (disk : Disk) (n : Nat) : Disk := firmware.migrateConfig.cut Disk.apply n disk

/-- The files of the configuration, wherever they are. -/
def files (root config : Dir) : Dir :=
  if MovePending root config then
    (root.erase "spiffs.json" ∪ config).insert "version" ((root.lookup "spiffs.json").getD "")
  else config

/-- The copy and what is outside of it, after a migration. -/
def migrate (state : Dir × Dir) (mig : ConfigMigration) : Dir × Dir :=
  let ops := mig.fn state.1 state.2
  (run applyDir state.1 (ops.filterMap MigrationOperation.inside?),
    run applyDir state.2 (ops.filterMap MigrationOperation.outside?))

/-- The files after the migrations. -/
def migrated (migrations : List ConfigMigration) (dir outside : Dir) : Dir :=
  (migrations.foldl migrate (dir, outside)).1

/-- The migrations that are newer than the files. -/
def newer (dir : Dir) : List ConfigMigration :=
  firmware.migrations.filter fun mig => (firmware.readVersion dir).version.lessThan mig.version

/-- What the configuration has to become: all migrations that are newer than its version are
applied to it, and it gets the newest version. Files of another product stay as they are. -/
def result (original outside : Dir) : Dir :=
  let current := firmware.readVersion original
  if firmware.mismatch current then original
  else if firmware.newer original = [] ∧ current.writeVersionFile = false then original
  else
    (migrated (firmware.newer original) original outside).insert "version"
      (firmware.versionText (((firmware.newer original).getLast?.map
        ConfigMigration.version).getD current.version))

/-- If a file of `/config` was removed, so was the directory. -/
def RemovalDone (ops : List FileOperation) : Prop :=
  ∀ name, .inside .config (.remove name) ∈ ops → .rmdir .config ∈ ops

/-- A new version file was closed. -/
def VersionClosed (dir : Dir) (ops : List FileOperation) : Prop :=
  .inside .config (.create "version") ∈ ops → "version" ∉ dir →
    ∃ text, .inside .config (.close "version" text) ∈ ops

/-- If a migration wrote outside of its copy, the migrations do not look there, or they are not
repeated. -/
def OutsideDone (migrations : List ConfigMigration) (ops : List FileOperation) : Prop :=
  ∀ dirOp, .outside dirOp ∈ ops → (∀ mig ∈ migrations, mig.Local) ∨ .rmdir .config ∈ ops

/-- The interruptions that a boot survives. -/
structure Uninterrupted (disk : Disk) (n : Nat) : Prop where
  removalDone : RemovalDone ((firmware.migrateConfig disk).take n)
  versionClosed : VersionClosed (disk.config.getD ∅) ((firmware.migrateConfig disk).take n)
  outsideDone : OutsideDone (firmware.newer (files disk.root (disk.config.getD ∅)))
    ((firmware.migrateConfig disk).take n)

end Firmware

end Esp32Firmware.ConfigMigrations
