import Esp32Firmware.ConfigMigrations.Versions

/-!
# Interrupted migrations

However often the migration is interrupted, the next boot finds out what is left to do, as long as
no interruption leaves a half-deleted `/config` behind.
-/

namespace Esp32Firmware.ConfigMigrations

open Disk

namespace Firmware

variable {firmware : Firmware} {disk : Disk} {dir outside target : Dir}

section

/-- The whole directory is removed. -/
theorem finish_removeDirectory (folder : Folder) :
    (firmware.removeDirectory folder).finish Disk.apply disk = disk.setFolder none folder := by
  rw [Script.finish, removeDirectory]
  cases hfolder : disk.folder folder with
  | none =>
    have hrmdir : disk.apply (.rmdir folder) = disk := by
      rw [Disk.apply, hfolder]
    have hsame := disk.setFolder_folder folder
    rw [hfolder] at hsame
    rw [hsame]
    exact hrmdir
  | some dir =>
    rw [run_append, run_inside, hfolder, Option.map_some,
      run_remove_all fun name => (firmware.mem_listing dir name).mpr]
    have hrmdir : (disk.setFolder (some ∅) folder).apply (.rmdir folder) =
        disk.setFolder none folder := by
      rw [Disk.apply, folder_setFolder]
      dsimp only
      rw [if_pos Finmap.keys_empty, setFolder_setFolder]
    exact hrmdir

theorem finish_removeMigration :
    firmware.removeMigration.finish Disk.apply disk = disk.setFolder none .migration := by
  by_cases hmigration : disk.migration.isSome = true
  · have hops : firmware.removeMigration disk = firmware.removeDirectory .migration disk := by
      rw [removeMigration, if_pos hmigration]
    rw [Script.finish, hops]
    exact finish_removeDirectory .migration
  · have hops : firmware.removeMigration disk = [] := by
      rw [removeMigration, if_neg hmigration]
    have hnone : disk.migration = none := by
      simpa using hmigration
    rw [Script.finish, hops, setFolder, ← hnone]
    rfl

end

section

theorem lookup_run_copy (copy : Dir) (names : List String) (name : String) :
    (run applyDir copy (names.flatMap (copyFile dir))).lookup name =
      if name ∈ names ∧ name ∈ dir then dir.lookup name else copy.lookup name := by
  induction names generalizing copy with
  | nil => rw [if_neg (fun h => List.not_mem_nil h.1)]; rfl
  | cons first rest ih =>
    rw [List.flatMap_cons, run_append, ih]
    by_cases hrest : name ∈ rest ∧ name ∈ dir
    · rw [if_pos hrest, if_pos ⟨List.mem_cons_of_mem _ hrest.1, hrest.2⟩]
    · rw [if_neg hrest, copyFile]
      cases hfirst : dir.lookup first with
      | none =>
        rw [if_neg]
        · rfl
        · rintro ⟨hmem, hdir⟩
          rcases List.mem_cons.mp hmem with rfl | hmem
          · exact Finmap.lookup_eq_none.mp hfirst hdir
          · exact hrest ⟨hmem, hdir⟩
      | some text =>
        rw [run_writeFile]
        by_cases hname : name = first
        · rw [hname, Finmap.lookup_insert,
            if_pos ⟨List.mem_cons_self, Finmap.mem_of_lookup_eq_some hfirst⟩, hfirst]
        · rw [Finmap.lookup_insert_of_ne _ hname, if_neg]
          rintro ⟨hmem, hdir⟩
          rcases List.mem_cons.mp hmem with hmem | hmem
          · exact hname hmem
          · exact hrest ⟨hmem, hdir⟩

/-- All files are copied. -/
theorem run_copy_all : run applyDir ∅ ((firmware.listing dir).flatMap (copyFile dir)) = dir := by
  apply Finmap.ext_lookup
  intro name
  rw [lookup_run_copy]
  split
  · rfl
  · rename_i hname
    rw [Finmap.lookup_empty]
    symm
    rw [Finmap.lookup_eq_none]
    exact fun hdir => hname ⟨(firmware.mem_listing dir name).mpr hdir, hdir⟩

/-- Whatever is left of an earlier migration is replaced by a copy of the files. -/
theorem finish_prepareMigrations (hconfig : disk.config = some dir) :
    (firmware.prepareMigrations.finish Disk.apply disk).migration = some dir := by
  rw [prepareMigrations, Script.finish_andThen, Script.finish_andThen, finish_removeMigration]
  have hmkdir : Script.finish Disk.apply (fun _ => [.mkdir .migration])
      (disk.setFolder none .migration) = disk.setFolder (some ∅) .migration := rfl
  rw [hmkdir, Script.finish, copyConfig]
  have hkept : (disk.setFolder (some ∅) .migration).config = some dir := hconfig
  rw [hkept]
  rw [run_inside, folder_setFolder, Option.map_some, run_copy_all]
  rfl

variable {migrations : List ConfigMigration}

theorem finish_runMigrations (hmigration : disk.migration = some dir) :
    ((runMigrations migrations).finish Disk.apply disk).migration =
      some (migrated migrations dir disk.outside) := by
  induction migrations generalizing disk dir with
  | nil => exact hmigration
  | cons mig rest ih =>
    rw [runMigrations, Script.finish_andThen]
    have hstep : Script.finish Disk.apply (fun disk : Disk =>
        (mig.fn (disk.migration.getD ∅) disk.outside).map MigrationOperation.fileOperation)
        disk = { disk with
          migration := some (migrate (dir, disk.outside) mig).1
          outside := (migrate (dir, disk.outside) mig).2 } := by
      rw [Script.finish, run_fileOperations hmigration, hmigration]
      rfl
    rw [hstep]
    exact ih rfl

/-- The copy is prepared without a look outside of it. -/
theorem prepareMigrations_ops (disk : Disk) : ∀ op ∈ firmware.prepareMigrations disk,
    OnMigration op ∧ ∀ dirOp, op ≠ .outside dirOp := by
  have hinside {ops : List DirOperation} {op : FileOperation}
      (hop : op ∈ ops.map (.inside .migration)) :
      OnMigration op ∧ ∀ dirOp, op ≠ .outside dirOp := by
    obtain ⟨op, -, rfl⟩ := List.mem_map.mp hop
    exact ⟨.inside op, by simp⟩
  refine Script.forall_mem_andThen (Script.forall_mem_andThen (fun disk op hop => ?_)
    fun disk op hop => ?_) (fun disk op hop => ?_) disk
  · rw [removeMigration] at hop
    split at hop
    · rw [removeDirectory] at hop
      split at hop
      · rcases List.mem_append.mp hop with hop | hop
        · exact hinside hop
        · rw [List.mem_singleton.mp hop]
          exact ⟨.rmdir, by simp⟩
      · rw [List.mem_singleton.mp hop]
        exact ⟨.rmdir, by simp⟩
    · cases hop
  · rw [List.mem_singleton.mp hop]
    exact ⟨.mkdir, by simp⟩
  · rw [copyConfig] at hop
    split at hop
    · exact hinside hop
    · cases hop

theorem runMigrations_onMigration (migrations : List ConfigMigration) (disk : Disk) :
    ∀ op ∈ runMigrations migrations disk, OnMigration op := by
  induction migrations generalizing disk with
  | nil => exact fun op hop => by cases hop
  | cons mig rest ih =>
    refine Script.forall_mem_andThen (fun disk op hop => ?_) ih disk
    obtain ⟨op, -, rfl⟩ := List.mem_map.mp hop
    cases op with
    | inside op => exact .inside op
    | outside op => exact .outside op

/-- Until the directory is replaced, nothing happens to `/config`. -/
theorem migrateCopy_onMigration (migrations : List ConfigMigration) (v : Version) (disk : Disk) :
    ∀ op ∈ firmware.migrateCopy migrations v disk, OnMigration op := by
  refine Script.forall_mem_andThen (Script.forall_mem_andThen
    (fun disk op hop => (prepareMigrations_ops disk op hop).1)
    (runMigrations_onMigration migrations)) (fun disk op hop => ?_) disk
  obtain ⟨op, -, rfl⟩ := List.mem_map.mp hop
  exact .inside op

theorem finish_migrateCopy {v : Version} (hconfig : disk.config = some dir) :
    ((firmware.migrateCopy migrations v).finish Disk.apply disk).migration =
      some ((migrated migrations dir disk.outside).insert "version" (firmware.versionText v)) := by
  rw [migrateCopy, Script.finish_andThen, Script.finish_andThen]
  have hprepared : (firmware.prepareMigrations.finish Disk.apply disk).migration = some dir :=
    finish_prepareMigrations hconfig
  have houtside : (firmware.prepareMigrations.finish Disk.apply disk).outside = disk.outside :=
    run_outside (fun dirOp hop => (prepareMigrations_ops disk _ hop).2 dirOp rfl) disk
  have hmigrated : ((runMigrations migrations).finish Disk.apply _).migration = _ :=
    finish_runMigrations hprepared
  rw [Script.finish, writeVersion, run_inside]
  change Option.map _ (Disk.migration _) = _
  rw [hmigrated, houtside, Option.map_some, run_writeFile]

end

/-- What the next boot has to find: the migrated files that only have to be renamed, or files
whose migration leads to them. -/
def Resumable (firmware : Firmware) (target : Dir) (disk : Disk) : Prop :=
  disk.config = none ∧ disk.migration = some target ∧ "version" ∈ target ∨
    ¬ Done disk ∧ (MovePending disk.root (disk.config.getD ∅) → "version" ∉ disk.root) ∧
      firmware.result (files disk.root (disk.config.getD ∅)) disk.outside = target

theorem files_of_moved {root config : Dir} (h : ¬ MovePending root config) :
    files root config = config := if_neg h

theorem not_done (hconfig : disk.config = some dir) : ¬ Done disk := by
  rintro ⟨hnone, -⟩
  rw [hconfig] at hnone
  cases hnone

/-- The files are in `/config`. -/
theorem Resumable.of_config (hconfig : disk.config = some dir)
    (hmoved : ¬ MovePending disk.root dir) (hresult : firmware.result dir disk.outside = target) :
    firmware.Resumable target disk := by
  refine .inr ⟨not_done hconfig, ?_, ?_⟩
  · rw [hconfig]
    exact fun hpending => absurd hpending hmoved
  · rw [hconfig, Option.getD_some, files_of_moved hmoved]
    exact hresult

/-- The result is in `/config`. -/
theorem Resumable.of_target (hconfig : disk.config = some target) (hversion : "version" ∈ target)
    (hsettled : ∀ outside, firmware.result target outside = target) :
    firmware.Resumable target disk :=
  .of_config hconfig (fun hpending => hpending.1 hversion) (hsettled _)

section

variable {root : Dir}

/-- The files of the disk, by name. -/
theorem lookup_files (h : MovePending root dir) (name : String) :
    (files root dir).lookup name =
      if name = "version" then some ((root.lookup "spiffs.json").getD "")
      else if name = "spiffs.json" then dir.lookup name
      else (root.lookup name).or (dir.lookup name) := by
  rw [files, if_pos h]
  by_cases hversion : name = "version"
  · rw [if_pos hversion, hversion, Finmap.lookup_insert]
  · rw [if_neg hversion, Finmap.lookup_insert_of_ne _ hversion]
    by_cases hspiffs : name = "spiffs.json"
    · rw [if_pos hspiffs, hspiffs, Finmap.lookup_union_right Finmap.notMem_erase_self]
    · rw [if_neg hspiffs]
      cases hroot : root.lookup name with
      | none =>
        rw [Finmap.lookup_union_right, Option.none_or]
        rw [Finmap.mem_erase]
        exact fun hmem => Finmap.lookup_eq_none.mp hroot hmem.2
      | some text =>
        rw [Finmap.lookup_union_left, Finmap.lookup_erase_ne hspiffs, hroot, Option.some_or]
        rw [Finmap.mem_erase]
        exact ⟨hspiffs, Finmap.mem_of_lookup_eq_some hroot⟩

/-- The disk while files are moved: some of them are in `/config` now. -/
structure Moved (disk disk' : Disk) (names : List String) : Prop where
  config : ∃ dir, disk'.config = some dir ∧ MovePending disk'.root dir ∧
    files disk'.root dir = files disk.root (disk.config.getD ∅)
  root : ∀ name, disk'.root.lookup name = if name ∈ names then none else disk.root.lookup name
  outside : disk'.outside = disk.outside

theorem Moved.nil (hconfig : disk.config = some dir) (hpending : MovePending disk.root dir) :
    Moved disk disk [] := by
  constructor
  · rw [hconfig]
    exact ⟨dir, rfl, hpending, rfl⟩
  · exact fun name => (if_neg List.not_mem_nil).symm
  · rfl

variable {disk' : Disk} {names : List String}

theorem Moved.move (h : Moved disk disk' names) {name : String} (hspiffs : name ≠ "spiffs.json")
    (hversion : name ≠ "version") :
    Moved disk (disk'.apply (.move name name)) (name :: names) := by
  obtain ⟨⟨dir, hconfig, hpending, hfiles⟩, hroot, houtside⟩ := h
  rw [Disk.apply, hconfig]
  cases htext : disk'.root.lookup name with
  | none =>
    refine ⟨⟨dir, hconfig, hpending, hfiles⟩, fun other => ?_, houtside⟩
    rw [hroot]
    by_cases hother : other ∈ names
    · rw [if_pos hother, if_pos (List.mem_cons_of_mem _ hother)]
    · rw [if_neg hother]
      by_cases hsame : other = name
      · rw [hsame, if_pos List.mem_cons_self, ← htext, hroot, if_neg (hsame ▸ hother)]
      · rw [if_neg (by simp [hsame, hother])]
  | some text =>
    have hpending' : MovePending (disk'.root.erase name) (dir.insert name text) := by
      constructor
      · rw [Finmap.mem_insert]
        exact not_or.mpr ⟨hversion.symm, hpending.1⟩
      · rw [Finmap.mem_erase]
        exact ⟨hspiffs.symm, hpending.2⟩
    refine ⟨⟨_, rfl, hpending', ?_⟩, fun other => ?_, houtside⟩
    · rw [← hfiles]
      apply Finmap.ext_lookup
      intro other
      rw [lookup_files hpending', lookup_files hpending, Finmap.lookup_erase_ne hspiffs.symm]
      by_cases hsame : other = name
      · rw [hsame, if_neg hversion, if_neg hspiffs, if_neg hversion, if_neg hspiffs,
          Finmap.lookup_erase, Finmap.lookup_insert, htext, Option.none_or, Option.some_or]
      · rw [Finmap.lookup_erase_ne hsame, Finmap.lookup_insert_of_ne _ hsame]
    · dsimp only
      by_cases hsame : other = name
      · rw [hsame, Finmap.lookup_erase, if_pos List.mem_cons_self]
      · rw [Finmap.lookup_erase_ne hsame, hroot]
        by_cases hother : other ∈ names
        · rw [if_pos hother, if_pos (List.mem_cons_of_mem _ hother)]
        · rw [if_neg hother, if_neg (by simp [hsame, hother])]

/-- A file is moved at most once, so it does not matter how many of them were moved. -/
theorem Moved.run {moved : List String} (h : Moved disk disk' moved)
    (hnames : ∀ name ∈ names, name ≠ "spiffs.json" ∧ name ≠ "version") :
    Moved disk (run Disk.apply disk' (names.map fun name => .move name name))
      (names.reverse ++ moved) := by
  induction names generalizing disk' moved with
  | nil => exact h
  | cons name rest ih =>
    rw [List.forall_mem_cons] at hnames
    have hrest := ih (h.move hnames.1.1 hnames.1.2) hnames.2
    rw [List.reverse_cons, List.append_assoc]
    exact hrest

theorem Moved.resumable (h : Moved disk disk' names) (hversion : "version" ∉ disk.root)
    (hresult : firmware.result (files disk.root (disk.config.getD ∅)) disk.outside = target) :
    firmware.Resumable target disk' := by
  obtain ⟨⟨dir, hconfig, hpending, hfiles⟩, hroot, houtside⟩ := h
  refine .inr ⟨not_done hconfig, ?_, ?_⟩
  · intro _
    rw [← Finmap.lookup_eq_none, hroot, Finmap.lookup_eq_none.mpr hversion]
    split <;> rfl
  · rw [hconfig, Option.getD_some, hfiles, houtside]
    exact hresult

/-- After the last move all files are in `/config`. -/
theorem Moved.last (h : Moved disk disk' names)
    (hnames : ∀ name ∈ disk.root, name ≠ "spiffs.json" → name ∈ names) :
    ∃ dir, (disk'.apply (.move "spiffs.json" "version")).config = some dir ∧ "version" ∈ dir ∧
      dir = files disk.root (disk.config.getD ∅) := by
  obtain ⟨⟨dir, hconfig, hpending, hfiles⟩, hroot, houtside⟩ := h
  obtain ⟨text, htext⟩ := Finmap.mem_iff.mp hpending.2
  refine ⟨dir.insert "version" text, ?_, ?_, ?_⟩
  · rw [Disk.apply, hconfig, htext]
  · exact Finmap.mem_insert.mpr (.inl rfl)
  · rw [← hfiles]
    apply Finmap.ext_lookup
    intro name
    rw [lookup_files hpending, htext, Option.getD_some]
    by_cases hversion : name = "version"
    · rw [if_pos hversion, hversion, Finmap.lookup_insert]
    · rw [if_neg hversion, Finmap.lookup_insert_of_ne _ hversion]
      by_cases hspiffs : name = "spiffs.json"
      · rw [if_pos hspiffs]
      · rw [if_neg hspiffs, hroot]
        split
        · rw [Option.none_or]
        · rename_i hname
          have hmissing : name ∉ disk.root := fun hmem => hname (hnames name hmem hspiffs)
          rw [Finmap.lookup_eq_none.mpr hmissing, Option.none_or]

/-- The script before the migrations. -/
abbrev collect (firmware : Firmware) : Script Disk FileOperation :=
  makeConfig.andThen Disk.apply firmware.moveFiles

theorem finish_makeConfig :
    makeConfig.finish Disk.apply disk = { disk with config := some (disk.config.getD ∅) } := by
  obtain ⟨root, config, migration, outside⟩ := disk
  cases config <;> rfl

theorem moveFiles_eq (hconfig : disk.config = some dir) (hpending : MovePending disk.root dir) :
    firmware.moveFiles disk =
      (((firmware.listing disk.root).filter (· ≠ "spiffs.json")).map fun name =>
        .move name name) ++ [.move "spiffs.json" "version"] := by
  rw [moveFiles, hconfig, Option.getD_some, if_pos hpending]

theorem moveFiles_nil (hconfig : disk.config = some dir)
    (hmoved : ¬ MovePending disk.root dir) : firmware.moveFiles disk = [] := by
  rw [moveFiles, hconfig, Option.getD_some, if_neg hmoved]

theorem mem_moved (firmware : Firmware) (hversion : "version" ∉ disk.root) :
    ∀ name ∈ (firmware.listing disk.root).filter (· ≠ "spiffs.json"),
      name ≠ "spiffs.json" ∧ name ≠ "version" := by
  intro name hname
  rw [List.mem_filter, firmware.mem_listing] at hname
  refine ⟨of_decide_eq_true hname.2, ?_⟩
  rintro rfl
  exact hversion hname.1

/-- Files are moved without another operation on `/config`. -/
theorem moveFiles_ops (disk : Disk) : ∀ op ∈ firmware.moveFiles disk,
    op ≠ .rmdir .config ∧ (∀ dirOp, op ≠ .inside .config dirOp) ∧ ∀ dirOp, op ≠ .outside dirOp := by
  intro op hop
  rw [moveFiles] at hop
  split at hop
  · rcases List.mem_append.mp hop with hop | hop
    · obtain ⟨name, -, rfl⟩ := List.mem_map.mp hop
      exact ⟨by simp, by simp, by simp⟩
    · rw [List.mem_singleton.mp hop]
      exact ⟨by simp, by simp, by simp⟩
  · cases hop

theorem collect_ops (disk : Disk) : ∀ op ∈ firmware.collect disk,
    op ≠ .rmdir .config ∧ (∀ dirOp, op ≠ .inside .config dirOp) ∧ ∀ dirOp, op ≠ .outside dirOp := by
  refine Script.forall_mem_andThen (fun disk op hop => ?_) moveFiles_ops disk
  rw [makeConfig] at hop
  split at hop
  · rw [List.mem_singleton.mp hop]
    exact ⟨by simp, by simp, by simp⟩
  · cases hop

section

variable (hconfig : disk.config = some dir)
  (hversion : MovePending disk.root dir → "version" ∉ disk.root)
include hconfig hversion

/-- After the files were moved, they are in `/config`. -/
theorem finish_moveFiles : ∃ dir', (firmware.moveFiles.finish Disk.apply disk).config = some dir' ∧
      dir' = files disk.root dir ∧
      ¬ MovePending (firmware.moveFiles.finish Disk.apply disk).root dir' ∧
      ("version" ∈ dir → "version" ∈ dir') ∧
      (firmware.moveFiles.finish Disk.apply disk).outside = disk.outside := by
  have houtside : (firmware.moveFiles.finish Disk.apply disk).outside = disk.outside :=
    run_outside (fun dirOp hop => (moveFiles_ops disk _ hop).2.2 dirOp rfl) disk
  rw [Script.finish] at houtside ⊢
  by_cases hpending : MovePending disk.root dir
  · rw [moveFiles_eq hconfig hpending, run_append] at houtside ⊢
    have hnames := mem_moved firmware (hversion hpending)
    have hmoved := (Moved.nil hconfig hpending).run hnames
    obtain ⟨dir', hdir', hmem, hfiles⟩ := hmoved.last fun name hname hspiffs => by
      rw [List.append_nil, List.mem_reverse, List.mem_filter, firmware.mem_listing]
      exact ⟨hname, decide_eq_true hspiffs⟩
    rw [hconfig, Option.getD_some] at hfiles
    exact ⟨dir', hdir', hfiles, fun hagain => hagain.1 hmem, fun _ => hmem, houtside⟩
  · rw [moveFiles_nil hconfig hpending]
    exact ⟨dir, hconfig, (files_of_moved hpending).symm, hpending, id, rfl⟩

theorem cut_moveFiles
    (hresult : firmware.result (files disk.root dir) disk.outside = target) (n : Nat) :
    firmware.Resumable target (firmware.moveFiles.cut Disk.apply n disk) := by
  rcases Nat.lt_or_ge n (firmware.moveFiles disk).length with hlt | hge
  · by_cases hpending : MovePending disk.root dir
    · rw [moveFiles_eq hconfig hpending, List.length_append, List.length_singleton] at hlt
      rw [Script.cut, moveFiles_eq hconfig hpending,
        List.take_append_of_le_length (Nat.le_of_lt_succ hlt), ← List.map_take]
      have hnames := mem_moved firmware (hversion hpending)
      have hmoved := (Moved.nil hconfig hpending).run
        fun name (hname : name ∈ List.take n _) => hnames name (List.mem_of_mem_take hname)
      apply hmoved.resumable (hversion hpending)
      rw [hconfig]
      exact hresult
    · rw [moveFiles_nil hconfig hpending] at hlt
      cases hlt
  · rw [Script.cut_of_length_le hge]
    obtain ⟨dir', hdir', rfl, hmoved, -, houtside⟩ :=
      @finish_moveFiles firmware _ _ hconfig hversion
    exact .of_config hdir' hmoved (houtside.symm ▸ hresult)

end

theorem finish_collect (hversion : MovePending disk.root (disk.config.getD ∅) →
      "version" ∉ disk.root) :
    ∃ dir, (firmware.collect.finish Disk.apply disk).config = some dir ∧
      dir = files disk.root (disk.config.getD ∅) ∧
      ¬ MovePending (firmware.collect.finish Disk.apply disk).root dir ∧
      ("version" ∈ disk.config.getD ∅ → "version" ∈ dir) ∧
      (firmware.collect.finish Disk.apply disk).outside = disk.outside := by
  rw [collect, Script.finish_andThen, finish_makeConfig]
  exact finish_moveFiles rfl hversion

theorem cut_collect (hdone : ¬ Done disk)
    (hversion : MovePending disk.root (disk.config.getD ∅) → "version" ∉ disk.root)
    (hresult : firmware.result (files disk.root (disk.config.getD ∅)) disk.outside = target)
    (n : Nat) :
    firmware.Resumable target (firmware.collect.cut Disk.apply n disk) := by
  rcases Nat.lt_or_ge n (makeConfig disk).length with hlt | hge
  · have hlength : (makeConfig disk).length ≤ 1 := by
      rw [makeConfig]
      split <;> simp
    have hzero : n = 0 := by omega
    rw [hzero, Script.cut_zero]
    exact .inr ⟨hdone, hversion, hresult⟩
  · obtain ⟨k, rfl⟩ := Nat.exists_eq_add_of_le hge
    rw [collect, Script.cut_andThen_right, finish_makeConfig]
    exact @cut_moveFiles firmware { disk with config := some (disk.config.getD ∅) } _ target rfl
      hversion hresult k

end

section

variable {n : Nat}

/-- The directory is either as it was or gone. -/
theorem cut_removeDirectory (hconfig : disk.config = some dir) (hversion : "version" ∈ dir)
    (hremoval : RemovalDone ((firmware.removeDirectory .config disk).take n)) :
    n = 0 ∨ (firmware.removeDirectory .config disk).length ≤ n := by
  have hops : firmware.removeDirectory .config disk =
      ((firmware.listing dir).map .remove).map (.inside .config) ++ [.rmdir .config] := by
    rw [removeDirectory, folder, hconfig]
  rcases Nat.eq_zero_or_pos n with rfl | hpos
  · exact .inl rfl
  · right
    by_contra hlt
    rw [hops, List.length_append, List.length_singleton, not_le, Nat.lt_succ_iff] at hlt
    rw [hops, List.take_append_of_le_length hlt] at hremoval
    -- The first file is removed, but the directory is not.
    obtain ⟨first, rest, hlisting⟩ : ∃ first rest, firmware.listing dir = first :: rest :=
      List.exists_cons_of_ne_nil (List.ne_nil_of_mem ((firmware.mem_listing dir _).mpr hversion))
    have hfirst : FileOperation.inside .config (.remove first) ∈
        (((firmware.listing dir).map .remove).map (.inside .config)).take n := by
      obtain ⟨k, rfl⟩ := Nat.exists_eq_add_of_lt hpos
      rw [hlisting, Nat.zero_add]
      exact List.mem_cons_self
    have hrmdir := List.mem_of_mem_take (hremoval first hfirst)
    obtain ⟨op, -, hop⟩ := List.mem_map.mp hrmdir
    cases hop

theorem finish_replaceConfig (hmigration : disk.migration = some target) :
    (firmware.replaceConfig.finish Disk.apply disk).config = some target := by
  rw [replaceConfig, Script.finish_andThen, finish_removeDirectory]
  change ((disk.setFolder none .config).apply .renameMigration).config = some target
  rw [Disk.apply, if_pos]
  · exact hmigration
  · exact ⟨Finmap.keys_empty, by rw [setFolder, hmigration]; rfl⟩

section

variable (hconfig : disk.config = some dir)
include hconfig

theorem cut_replaceConfig (hversion : "version" ∈ dir)
    (hmoved : ¬ MovePending disk.root dir) (hmigration : disk.migration = some target)
    (htarget : "version" ∈ target) (hsettled : ∀ outside, firmware.result target outside = target)
    (hresult : n = 0 → firmware.result dir disk.outside = target)
    (hremoval : RemovalDone ((firmware.replaceConfig disk).take n)) :
    firmware.Resumable target (firmware.replaceConfig.cut Disk.apply n disk) := by
  rcases Nat.lt_or_ge n (firmware.replaceConfig disk).length with hlt | hge
  · have hle : n ≤ (firmware.removeDirectory .config disk).length := by
      rw [replaceConfig, Script.length_andThen, List.length_singleton] at hlt
      omega
    rw [replaceConfig, Script.andThen, List.take_append_of_le_length hle] at hremoval
    rw [replaceConfig, Script.cut_andThen_left hle]
    rcases cut_removeDirectory hconfig hversion hremoval with hzero | hlength
    · rw [hzero]
      exact .of_config hconfig hmoved (hresult hzero)
    · rw [Script.cut_of_length_le hlength, finish_removeDirectory]
      exact .inl ⟨rfl, hmigration, htarget⟩
  · rw [Script.cut_of_length_le hge]
    exact .of_target (finish_replaceConfig hmigration) htarget hsettled

theorem migrateFiles_mismatch (hmismatch : firmware.mismatch (firmware.readVersion dir) = true) :
    firmware.migrateFiles disk = [] := by
  rw [migrateFiles, hconfig, Option.getD_some, if_pos hmismatch]

theorem migrateFiles_current (hmismatch : firmware.mismatch (firmware.readVersion dir) = false)
    (hnewer : firmware.newer dir = []) :
    firmware.migrateFiles disk = if (firmware.readVersion dir).writeVersionFile then
      firmware.writeVersion .config (firmware.finalVersion dir) disk else [] := by
  rw [migrateFiles, hconfig, Option.getD_some, hmismatch, executed_readVersion]
  exact if_pos hnewer

theorem migrateFiles_newer (hmismatch : firmware.mismatch (firmware.readVersion dir) = false)
    (hnewer : firmware.newer dir ≠ []) :
    firmware.migrateFiles disk = (firmware.migrateCopy (firmware.newer dir)
      (firmware.finalVersion dir)).andThen Disk.apply firmware.replaceConfig disk := by
  rw [migrateFiles, hconfig, Option.getD_some, hmismatch, executed_readVersion]
  exact if_neg hnewer

end

/-- Only a version file leads to migrations. -/
theorem version_mem_of_newer (hnewer : firmware.newer dir ≠ []) : "version" ∈ dir := by
  by_contra hversion
  apply hnewer
  have hread : (firmware.readVersion dir).version =
      (firmware.migrations.getLast?.map ConfigMigration.version).getD firmware.oldest := by
    rw [readVersion, Finmap.lookup_eq_none.mpr hversion]
  rw [newer, hread, List.filter_eq_nil_iff]
  intro mig hmig
  cases hlast : firmware.migrations.getLast? with
  | none =>
    rw [List.getLast?_eq_none_iff.mp hlast] at hmig
    cases hmig
  | some last =>
    rw [Option.map_some, Option.getD_some, not_newer_than_last firmware.ordered hlast hmig]
    exact Bool.false_ne_true

theorem finish_writeVersion (hconfig : disk.config = some dir) (v : Version) :
    ((firmware.writeVersion .config v).finish Disk.apply disk) =
      { disk with config := some (dir.insert "version" (firmware.versionText v)) } := by
  rw [Script.finish, writeVersion, run_inside, folder, hconfig, Option.map_some, run_writeFile]
  rfl

theorem finish_migrateFiles (hconfig : disk.config = some dir) :
    (firmware.migrateFiles.finish Disk.apply disk).config =
      some (firmware.result dir disk.outside) := by
  rw [Script.finish]
  cases hmismatch : firmware.mismatch (firmware.readVersion dir) with
  | true =>
    rw [migrateFiles_mismatch hconfig hmismatch, result_of_mismatch hmismatch]
    exact hconfig
  | false =>
    by_cases hnewer : firmware.newer dir = []
    · rw [migrateFiles_current hconfig hmismatch hnewer]
      cases hwrite : (firmware.readVersion dir).writeVersionFile with
      | true =>
        rw [if_pos rfl, result_of_newer hmismatch (.inr hwrite), hnewer]
        have hfinish : (firmware.writeVersion .config (firmware.finalVersion dir)).finish
            Disk.apply disk = _ := finish_writeVersion hconfig _
        rw [Script.finish] at hfinish
        rw [hfinish]
        rfl
      | false =>
        rw [if_neg Bool.false_ne_true, result_of_current hmismatch hnewer hwrite]
        exact hconfig
    · rw [migrateFiles_newer hconfig hmismatch hnewer, ← Script.finish, Script.finish_andThen,
        result_of_newer hmismatch (.inl hnewer)]
      exact finish_replaceConfig (finish_migrateCopy hconfig)

theorem cut_writeVersion (hconfig : disk.config = some dir) (hmoved : ¬ MovePending disk.root dir)
    (hresult : firmware.result dir disk.outside = target) {v : Version}
    (htarget : dir.insert "version" (firmware.versionText v) = target)
    (hsettled : ∀ outside, firmware.result target outside = target)
    (hclosed : VersionClosed dir ((firmware.writeVersion .config v disk).take n)) :
    firmware.Resumable target ((firmware.writeVersion .config v).cut Disk.apply n disk) := by
  match n with
  | 0 => exact .of_config hconfig hmoved hresult
  | 1 =>
    have hversion : "version" ∈ dir := by
      by_contra hversion
      obtain ⟨text, htext⟩ := hclosed List.mem_cons_self hversion
      exact absurd (List.mem_singleton.mp htext) (by simp)
    have hsame : (firmware.writeVersion .config v).cut Disk.apply 1 disk = disk := by
      have hcreate : (firmware.writeVersion .config v).cut Disk.apply 1 disk =
          disk.setFolder ((disk.folder .config).map (applyDir · (.create "version"))) .config :=
        rfl
      rw [hcreate, folder, hconfig, Option.map_some, applyDir, if_pos hversion, ← hconfig]
      rfl
    rw [hsame]
    exact .of_config hconfig hmoved hresult
  | n + 2 =>
    rw [Script.cut_of_length_le (Nat.le_add_left 2 n), finish_writeVersion hconfig, htarget]
    apply Resumable.of_target rfl _ hsettled
    rw [← htarget]
    exact Finmap.mem_insert.mpr (.inl rfl)

/-- What a migration did outside of its copy does not change the result. -/
theorem result_of_outsideDone {ops : List FileOperation} (hops : ∀ op ∈ ops, OnMigration op)
    (houtside : OutsideDone (firmware.newer dir) ops)
    (hresult : firmware.result dir disk.outside = target) :
    firmware.result dir (run Disk.apply disk ops).outside = target := by
  by_cases hwritten : ∃ dirOp, .outside dirOp ∈ ops
  · obtain ⟨dirOp, hop⟩ := hwritten
    rcases houtside dirOp hop with hlocal | hrmdir
    · rw [← hresult]
      exact result_local hlocal _
    · cases hops _ hrmdir
  · rw [run_outside (not_exists.mp hwritten)]
    exact hresult

/-- The migration of the files in `/config` can be resumed. -/
theorem cut_migrateFiles (hconfig : disk.config = some dir) (hmoved : ¬ MovePending disk.root dir)
    (hresult : firmware.result dir disk.outside = target)
    (hsettled : ∀ outside, firmware.result target outside = target)
    (hremoval : RemovalDone ((firmware.migrateFiles disk).take n))
    (hclosed : VersionClosed dir ((firmware.migrateFiles disk).take n))
    (houtside : OutsideDone (firmware.newer dir) ((firmware.migrateFiles disk).take n)) :
    firmware.Resumable target (firmware.migrateFiles.cut Disk.apply n disk) := by
  have hunchanged : firmware.Resumable target disk := .of_config hconfig hmoved hresult
  rw [Script.cut]
  cases hmismatch : firmware.mismatch (firmware.readVersion dir) with
  | true =>
    rw [migrateFiles_mismatch hconfig hmismatch, List.take_nil]
    exact hunchanged
  | false =>
    by_cases hnewer : firmware.newer dir = []
    · rw [migrateFiles_current hconfig hmismatch hnewer] at hclosed ⊢
      cases hwrite : (firmware.readVersion dir).writeVersionFile with
      | true =>
        rw [hwrite, if_pos rfl] at hclosed
        rw [result_of_newer hmismatch (.inr hwrite), hnewer] at hresult
        have hcurrent : firmware.result dir disk.outside = target := by
          rw [result_of_newer hmismatch (.inr hwrite), hnewer]
          exact hresult
        exact cut_writeVersion hconfig hmoved hcurrent hresult hsettled hclosed
      | false =>
        rw [if_neg Bool.false_ne_true, List.take_nil]
        exact hunchanged
    · have hcopied : ((firmware.migrateCopy (firmware.newer dir)
          (firmware.finalVersion dir)).finish Disk.apply disk).migration = some target := by
        rw [finish_migrateCopy hconfig, ← result_of_newer hmismatch (.inl hnewer), hresult]
      have htarget : "version" ∈ target := by
        rw [← hresult, result_of_newer hmismatch (.inl hnewer)]
        exact Finmap.mem_insert.mpr (.inl rfl)
      have hinside : ∀ op ∈ firmware.migrateCopy (firmware.newer dir)
          (firmware.finalVersion dir) disk, OnMigration op := migrateCopy_onMigration _ _ disk
      rw [migrateFiles_newer hconfig hmismatch hnewer] at hremoval houtside ⊢
      rcases Nat.le_total n (firmware.migrateCopy (firmware.newer dir)
          (firmware.finalVersion dir) disk).length with hle | hge
      · rw [Script.andThen, List.take_append_of_le_length hle] at houtside ⊢
        have hops : ∀ op ∈ (firmware.migrateCopy (firmware.newer dir)
            (firmware.finalVersion dir) disk).take n, OnMigration op :=
          fun op hop => hinside op (List.mem_of_mem_take hop)
        obtain ⟨hroot, hkept⟩ := run_onMigration hops disk
        exact .of_config (hkept.trans hconfig) (hroot ▸ hmoved)
          (result_of_outsideDone hops houtside hresult)
      · obtain ⟨k, rfl⟩ := Nat.exists_eq_add_of_le hge
        obtain ⟨hroot, hkept⟩ := run_onMigration hinside disk
        rw [Script.andThen, List.take_length_add_append] at hremoval houtside
        rw [← Script.cut, Script.cut_andThen_right]
        apply cut_replaceConfig (hkept.trans hconfig) (version_mem_of_newer hnewer)
          (hroot ▸ hmoved) hcopied htarget hsettled
        · rintro rfl
          rw [List.take_zero, List.append_nil] at houtside
          exact result_of_outsideDone hinside houtside hresult
        · -- Nothing of `/config` was removed before.
          intro name hname
          rcases List.mem_append.mp (hremoval name (List.mem_append_right _ hname)) with
            hop | hop
          · cases hinside _ hop
          · exact hop

end

section

theorem migrateConfig_done (hdone : Done disk) :
    firmware.migrateConfig disk = firmware.replaceConfig disk := by
  rw [migrateConfig, if_pos hdone]

theorem migrateConfig_pending (hdone : ¬ Done disk) :
    firmware.migrateConfig disk =
      firmware.collect.andThen Disk.apply firmware.migrateFiles disk := by
  rw [migrateConfig, if_neg hdone]

/-- Only the renaming is left. -/
theorem cut_done (hconfig : disk.config = none) (hmigration : disk.migration = some target)
    (hversion : "version" ∈ target)
    (hsettled : ∀ outside, firmware.result target outside = target) (n : Nat) :
    firmware.Resumable target (firmware.replaceConfig.cut Disk.apply n disk) := by
  rcases Nat.lt_or_ge n (firmware.replaceConfig disk).length with hlt | hge
  · have hremove : firmware.removeDirectory .config disk = [.rmdir .config] := by
      rw [removeDirectory, folder, hconfig]
    have hsame : ∀ k ≤ 1, (firmware.removeDirectory .config).cut Disk.apply k disk = disk := by
      intro k hk
      rw [Script.cut, hremove]
      rcases Nat.le_one_iff_eq_zero_or_eq_one.mp hk with rfl | rfl
      · rfl
      · change disk.apply (.rmdir .config) = disk
        rw [Disk.apply, folder, hconfig]
    have hle : n ≤ (firmware.removeDirectory .config disk).length := by
      rw [replaceConfig, Script.length_andThen, List.length_singleton] at hlt
      omega
    rw [replaceConfig, Script.cut_andThen_left hle, hsame n (by rwa [hremove] at hle)]
    exact .inl ⟨hconfig, hmigration, hversion⟩
  · rw [Script.cut_of_length_le hge]
    exact .of_target (finish_replaceConfig hmigration) hversion hsettled

/-- What an interrupted boot leaves can be resumed. -/
theorem Resumable.boot (h : firmware.Resumable target disk)
    (hsettled : ∀ outside, firmware.result target outside = target) {n : Nat}
    (hn : firmware.Uninterrupted disk n) : firmware.Resumable target (firmware.boot disk n) := by
  rw [Firmware.boot, Script.cut]
  rcases h with ⟨hconfig, hmigration, hversion⟩ | ⟨hdone, hversion, hresult⟩
  · have hdone : Done disk := ⟨hconfig, by rw [hmigration]; exact hversion⟩
    rw [migrateConfig_done hdone, ← Script.cut]
    exact cut_done hconfig hmigration hversion hsettled n
  · obtain ⟨hremoval, hclosed, houtside⟩ := hn
    rw [migrateConfig_pending hdone] at hremoval hclosed houtside
    rw [migrateConfig_pending hdone, ← Script.cut]
    rcases Nat.le_total n (firmware.collect disk).length with hle | hge
    · rw [Script.cut_andThen_left hle]
      exact cut_collect hdone hversion hresult n
    · obtain ⟨k, rfl⟩ := Nat.exists_eq_add_of_le hge
      obtain ⟨dir, hconfig, hfiles, hmoved, hkept, hsame⟩ := finish_collect hversion
      rw [Script.cut_andThen_right]
      rw [Script.andThen, List.take_length_add_append] at hremoval hclosed houtside
      rw [← hfiles] at hresult houtside
      apply cut_migrateFiles hconfig hmoved (hsame.symm ▸ hresult) hsettled
      · intro name hname
        rcases List.mem_append.mp (hremoval name (List.mem_append_right _ hname)) with hop | hop
        · exact absurd rfl (collect_ops disk _ hop).1
        · exact hop
      · intro hcreate hnew
        obtain ⟨text, htext⟩ := hclosed (List.mem_append_right _ hcreate) fun hold =>
          hnew (hkept hold)
        rcases List.mem_append.mp htext with hop | hop
        · exact absurd rfl ((collect_ops disk _ hop).2.1 _)
        · exact ⟨text, hop⟩
      · intro dirOp hop
        rcases houtside dirOp (List.mem_append_right _ hop) with hlocal | hrmdir
        · exact .inl hlocal
        · right
          rcases List.mem_append.mp hrmdir with hop | hop
          · exact absurd rfl (collect_ops disk _ hop).1
          · exact hop

/-- A boot that is not interrupted leads to the result. -/
theorem Resumable.finish (h : firmware.Resumable target disk) :
    (firmware.migrateConfig.finish Disk.apply disk).config = some target := by
  rw [Script.finish]
  rcases h with ⟨hconfig, hmigration, hversion⟩ | ⟨hdone, hversion, hresult⟩
  · have hdone : Done disk := ⟨hconfig, by rw [hmigration]; exact hversion⟩
    rw [migrateConfig_done hdone]
    exact finish_replaceConfig hmigration
  · rw [migrateConfig_pending hdone, ← Script.finish, Script.finish_andThen]
    obtain ⟨dir, hconfig, hfiles, -, -, hsame⟩ := finish_collect hversion
    rw [finish_migrateFiles hconfig, ← hresult, hfiles, hsame]

end

/-- A disk that no migration was started on. -/
def initial (root : Dir) (config : Option Dir) (outside : Dir) : Disk where
  root := root
  config := config
  migration := none
  outside := outside

/-- However many boots are interrupted, the first one that runs to its end leaves the result of
all newer migrations, unless an interruption left files that are taken for something else. -/
theorem config_after_boots (firmware : Firmware) (root : Dir) (config : Option Dir)
    (outside : Dir) (hroot : MovePending root (config.getD ∅) → "version" ∉ root)
    (interruptions : List Nat)
    (h : Meets firmware.boot firmware.Uninterrupted (initial root config outside) interruptions) :
    (firmware.migrateConfig.finish Disk.apply
      (run firmware.boot (initial root config outside) interruptions)).config =
        some (firmware.result (files root (config.getD ∅)) outside) := by
  have hinitial : firmware.Resumable (firmware.result (files root (config.getD ∅)) outside)
      (initial root config outside) := by
    refine .inr ⟨?_, hroot, rfl⟩
    rintro ⟨-, hversion⟩
    exact Finmap.notMem_empty hversion
  have hrun := h.invariant (I := firmware.Resumable _)
    (fun _ _ hdisk hn => hdisk.boot (result_result _ _) hn) hinitial
  exact hrun.finish

/-- A file system that lists its files by name. -/
def names (dir : Dir) : List String :=
  Quot.liftOn (dir.entries.map Sigma.fst) (List.insertionSort (· ≤ ·)) fun _ _ h =>
    List.Perm.eq_of_sortedLE List.sortedLE_insertionSort List.sortedLE_insertionSort
      ((List.perm_insertionSort _ _).trans (h.trans (List.perm_insertionSort _ _).symm))

theorem mem_names (dir : Dir) (name : String) : name ∈ names dir ↔ name ∈ dir := by
  rw [names, Finmap.mem_def, Multiset.keys]
  generalize dir.entries.map Sigma.fst = keys
  induction keys using Quot.inductionOn with
  | h keys => exact List.mem_insertionSort _

/-- A reader of nothing but what the firmware prints. -/
def readDoc (text : String) : VersionDoc :=
  let v := String.ofList ((text.toList.drop 11).takeWhile (· ≠ '"'))
  if text = "\x7b\"spiffs\":\"" ++ v ++ "\",\"config_type\":\"" ++ "warp" ++ "\"\x7d" then
    ⟨v, some "warp"⟩
  else ⟨"null", none⟩

theorem readDoc_printed (v : Version) :
    readDoc ("\x7b\"spiffs\":\"" ++ v.text ++ "\",\"config_type\":\"" ++ "warp" ++ "\"\x7d") =
      ⟨v.text, some "warp"⟩ := by
  have hquote : ∀ c ∈ v.text.toList, decide (c ≠ '"') = true := fun c hc =>
    decide_eq_true fun heq =>
      Version.not_mem_text (by decide) (by decide) v (heq ▸ hc)
  have hbefore : "\x7b\"spiffs\":\"".toList.drop 11 = [] := by decide
  have hafter : ("\",\"config_type\":\"" ++ ("warp" ++ "\"\x7d")).toList =
      '"' :: (",\"config_type\":\"" ++ ("warp" ++ "\"\x7d")).toList := by decide
  have hread : String.ofList ((("\x7b\"spiffs\":\"" ++ v.text ++ "\",\"config_type\":\"" ++
      "warp" ++ "\"\x7d").toList.drop 11).takeWhile (· ≠ '"')) = v.text := by
    rw [String.append_assoc, String.append_assoc, String.append_assoc, String.toList_append,
      List.drop_append_of_le_length (by decide), hbefore, List.nil_append, String.toList_append,
      hafter, (Version.takeWhile_append_stop hquote (by decide)).1, String.ofList_toList]
  rw [readDoc, hread, if_pos rfl]

/-- Since 2.0.0 there are users. -/
def addUsers : ConfigMigration where
  version := ⟨2, 0, 0⟩
  fn _ _ := (writeFile "users_config" "\x7b\"next_user_id\":1\x7d").map .inside

def warp : Firmware where
  configType := "warp"
  oldest := ⟨1, 0, 0⟩
  migrations := [addUsers]
  deserialize := readDoc
  listing := names
  ordered := List.pairwise_singleton _ _
  mem_listing := mem_names
  deserialize_printed := readDoc_printed

def evseFiles : Dir :=
  (Finmap.singleton "evse_config" "{}").insert "version" (warp.versionText ⟨1, 3, 0⟩)

theorem config_after_boots_copying :
    (warp.migrateConfig.finish Disk.apply
      (run warp.boot (initial ∅ (some evseFiles) ∅) [3])).config =
        some (warp.result (files ∅ evseFiles) ∅) := by
  have hdone : (warp.migrateConfig (initial ∅ (some evseFiles) ∅)).take 3 =
      [.mkdir .migration, .inside .migration (.create "evse_config"),
        .inside .migration (.close "evse_config" "{}")] := by
    decide
  apply config_after_boots warp ∅ (some evseFiles) ∅ (fun _ => Finmap.notMem_empty) [3]
  refine ⟨⟨?_, ?_, ?_⟩, trivial⟩
  · rw [hdone]
    exact fun name hname => by simp at hname
  · rw [hdone]
    exact fun hcreate => by simp at hcreate
  · rw [hdone]
    exact fun dirOp hop => by simp at hop

/-- The interruption follows the removal of the first file of `/config`, the next boot migrates
what is left of it. -/
theorem config_after_boots_removing :
    (warp.migrateConfig.finish Disk.apply
      (run warp.boot (initial ∅ (some evseFiles) ∅) [10])).config ≠
        some (warp.result (files ∅ evseFiles) ∅) := by
  intro h
  have hlookup := congrArg (fun config => (config.getD ∅).lookup "evse_config") h
  revert hlookup
  decide

end Firmware

end Esp32Firmware.ConfigMigrations
