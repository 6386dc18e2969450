import Esp32Firmware.Config.ChangeDetection
import Esp32Firmware.Library.Run

/-!
# Persistent configurations

A configuration is written to a temporary file that then takes the place of the configuration's
file. At boot a configuration is restored from its file. A file that holds the default is removed.

## Implementation notes

What is printed to a file reaches it when the file is closed. How a document is written as text
and read back belongs to the JSON library.
-/

namespace Esp32Firmware.Api

open Esp32Firmware.Configuration Esp32Firmware.Configuration.Config
  Esp32Firmware.Configuration.Flagged

/-- An operation on the file system. -/
inductive FileOperation where
  | remove (path : String)
  | create (path : String)
  | print (path text : String)
  | rename (path target : String)

/-- The text of each file that exists. -/
abbrev Files := String → Option String

namespace Files

def apply (files : Files) : FileOperation → Files
  | .remove path => Function.update files path none
  | .create path => Function.update files path (some "")
  | .print path text => Function.update files path (some text)
  | .rename path target => Function.update (Function.update files target (files path)) path none

def removeIfExists (path : String) : Script Files FileOperation := fun files =>
  if (files path).isSome then [.remove path] else []

end Files

def getLittleFSConfigPath (path : String) (tmp : Bool) : String :=
  (if tmp then "/config/." else "/config/") ++ path.map fun c => if c = '/' then '_' else c

/-- A configuration that is registered under a path, and the JSON library. The default is a value
of its own schema. -/
structure PersistentConfig where
  path : String
  root : ConfigRoot
  removeSavedDefault : Bool
  asFloat : Json → UInt32
  floatJson : UInt32 → Json
  serialize : Json → String
  deserialize : String → Option Json
  isValue : IsValue root.config root.config
  reproduced : AllLeaves (Reproduced asFloat floatJson) root.config

namespace PersistentConfig

variable (config : PersistentConfig)

def cfgPath : String := getLittleFSConfigPath config.path false

def tmpPath : String := getLittleFSConfigPath config.path true

def saveToFile (value : Config) : String :=
  config.serialize (value.toJson config.floatJson [])

def writeTmp (value : Config) : Script Files FileOperation :=
  (Files.removeIfExists config.tmpPath).andThen Files.apply
    fun _ => [.create config.tmpPath, .print config.tmpPath (config.saveToFile value)]

def replaceCfg : Script Files FileOperation :=
  (Files.removeIfExists config.cfgPath).andThen Files.apply
    fun _ => [.rename config.tmpPath config.cfgPath]

def writeConfig (value : Config) : Script Files FileOperation :=
  (config.writeTmp value).andThen Files.apply config.replaceCfg

def removeConfig : Script Files FileOperation :=
  (Files.removeIfExists config.tmpPath).andThen Files.apply
    (Files.removeIfExists config.cfgPath)

/-- The configuration a file is restored to, and whether it differs from the default. -/
def updateFromFile (text : String) : Except String (Config × Bool) :=
  match config.deserialize text with
  | none => .error "Failed to read file"
  | some doc =>
    match config.root.updateFromJson config.asFloat doc false .file [] with
    | .error message => .error message
    | .ok root => .ok (root.config, (markJsonRoot config.asFloat config.root.permitNullUpdates doc
          (fresh config.root.config)).2)

/-- The configuration after boot. -/
def restored (files : Files) : Config :=
  match files config.cfgPath with
  | none => config.root.config
  | some text =>
    match config.updateFromFile text with
    | .error _ => config.root.config
    | .ok (value, _) => value

/-- The file operations of a boot. -/
def restorePersistentConfig : Script Files FileOperation := fun files =>
  match files config.cfgPath with
  | none => []
  | some text =>
    match config.updateFromFile text with
    | .ok (_, false) => if config.removeSavedDefault then config.removeConfig files else []
    | _ => []

/-- A value that can be saved: its validators accept it from a file, and the JSON library reads
the document back. -/
structure Value where
  value : Config
  isValue : IsValue config.root.config value
  reproduced : AllLeaves (Reproduced config.asFloat config.floatJson) value
  valid : defaultValidator value = .ok ()
  accepted : config.root.validate value .file = .ok value
  readBack : config.deserialize (config.saveToFile value) = some (value.toJson config.floatJson [])

/-- The power is lost after `n` file operations, a write or a boot with fewer operations is not
interrupted. -/
inductive Event where
  | write (value : config.Value) (n : Nat)
  | boot (n : Nat)

def step (files : Files) : config.Event → Files
  | .write value n => (config.writeConfig value.value).cut Files.apply n files
  | .boot n => config.restorePersistentConfig.cut Files.apply n files

variable {config}

theorem tmpPath_ne_cfgPath : config.tmpPath ≠ config.cfgPath := by
  intro h
  have hlength := congrArg (fun s : String => s.toList.length) h
  simp [tmpPath, cfgPath, getLittleFSConfigPath] at hlength

theorem updateFromFile_saved (v : config.Value) (hnul : v.value.NulFree) :
    ∃ changed, config.updateFromFile (config.saveToFile v.value) = .ok (v.value, changed) ∧
      (changed = true ↔ config.root.config ≠ v.value) := by
  have hsame := cStrings_eq_self.mpr hnul
  have hfresh : IsValue config.root.config (fresh config.root.config).config := by
    rw [config_fresh]
    exact config.isValue
  have hchanged : (markJsonRoot config.asFloat config.root.permitNullUpdates
      (v.value.toJson config.floatJson []) (fresh config.root.config)).2 = true ↔
      config.root.config ≠ v.value := by
    rw [markJsonRoot_toJson v.isValue hfresh, (markJson_restores v.reproduced v.isValue hfresh
      (by rw [config_fresh]; exact config.reproduced)).changed, config_fresh, hsame]
  refine ⟨_, ?_, hchanged⟩
  have hupdate : config.root.updateFromJson config.asFloat (v.value.toJson config.floatJson [])
      false .file [] = .ok { config.root with config := v.value } := by
    rw [ConfigRoot.updateFromJson, ConfigRoot.getUpdatedCopy, Config.walk]
    dsimp only
    rw [fromJsonRoot_toJson v.reproduced v.isValue config.isValue, hsame]
    change (defaultValidator v.value >>= fun _ => config.root.validate v.value .file) >>= _ = _
    rw [v.valid]
    change config.root.validate v.value .file >>= _ = _
    rw [v.accepted]
    rfl
  rw [updateFromFile, v.readBack]
  dsimp only
  rw [hupdate]

/-- The file of the configuration holds a value that was saved, if there is one. -/
def Stored (config : PersistentConfig) (files : Files) : Prop :=
  files config.cfgPath = none ∨ ∃ v : config.Value, v.value.NulFree ∧
    files config.cfgPath = some (config.saveToFile v.value)

variable {files files' : Files}

theorem restored_none (h : files config.cfgPath = none) :
    config.restored files = config.root.config := by
  rw [restored, h]

theorem restored_saved {v : config.Value} (hnul : v.value.NulFree)
    (h : files config.cfgPath = some (config.saveToFile v.value)) :
    config.restored files = v.value := by
  obtain ⟨changed, hfile, -⟩ := updateFromFile_saved v hnul
  rw [restored, h]
  dsimp only
  rw [hfile]

theorem restored_congr (h : files' config.cfgPath = files config.cfgPath) :
    config.restored files' = config.restored files := by
  rw [restored, restored, h]

theorem Stored.congr (hfiles : config.Stored files)
    (h : files' config.cfgPath = files config.cfgPath) : config.Stored files' := by
  rw [Stored, h]
  exact hfiles

theorem mem_removeIfExists {path : String} {op : FileOperation}
    (h : op ∈ Files.removeIfExists path files) : op = .remove path := by
  rw [Files.removeIfExists] at h
  split at h
  · exact List.mem_singleton.mp h
  · cases h

/-- The temporary file is written apart from the file of the configuration. -/
theorem writeTmp_frame {value : Config}
    (h : (config.writeTmp value).Reaches Files.apply files files') :
    files' config.cfgPath = files config.cfgPath := by
  apply h.invariant (I := fun t => t config.cfgPath = files config.cfgPath) _ rfl
  intro t op hop ht
  have hne := (@tmpPath_ne_cfgPath config).symm
  rcases List.mem_append.mp hop with hop | hop
  · rw [mem_removeIfExists hop, Files.apply, Function.update_of_ne hne, ht]
  · rcases List.mem_cons.mp hop with rfl | hop
    · rw [Files.apply, Function.update_of_ne hne, ht]
    · rw [List.mem_singleton.mp hop, Files.apply, Function.update_of_ne hne, ht]

theorem finish_writeTmp (value : Config) (files : Files) :
    (config.writeTmp value).finish Files.apply files config.tmpPath =
      some (config.saveToFile value) := by
  rw [writeTmp, Script.finish_andThen]
  exact Function.update_self _ _ _

theorem cut_replaceCfg (files : Files) (n : Nat) :
    let files' := config.replaceCfg.cut Files.apply n files
    (n + 1 < (config.replaceCfg files).length ∧ files' config.cfgPath = files config.cfgPath) ∨
    (n + 1 = (config.replaceCfg files).length ∧ files' config.cfgPath = none) ∨
    ((config.replaceCfg files).length ≤ n ∧ files' config.cfgPath = files config.tmpPath) := by
  have hne := @tmpPath_ne_cfgPath config
  cases hcfg : files config.cfgPath with
  | none =>
    have hops : config.replaceCfg files = [.rename config.tmpPath config.cfgPath] := by
      rw [replaceCfg, Script.andThen, Files.removeIfExists, hcfg]
      rfl
    rw [Script.cut, hops]
    rcases n with _ | n
    · right; left
      exact ⟨rfl, hcfg⟩
    · right; right
      refine ⟨by simp, ?_⟩
      simp [run, Files.apply, Function.update_of_ne hne.symm]
  | some text =>
    have hops : config.replaceCfg files =
        [.remove config.cfgPath, .rename config.tmpPath config.cfgPath] := by
      rw [replaceCfg, Script.andThen, Files.removeIfExists, hcfg]
      rfl
    rw [Script.cut, hops]
    rcases n with _ | _ | n
    · left
      exact ⟨by simp, hcfg⟩
    · right; left
      refine ⟨rfl, ?_⟩
      simp [run, Files.apply]
    · right; right
      refine ⟨by simp, ?_⟩
      simp [run, Files.apply, Function.update_of_ne hne.symm, Function.update_of_ne hne]

/-- Until the last file operation the file is the old one or missing, after it the new one. -/
theorem cut_writeConfig (value : Config) (files : Files) (n : Nat) :
    let files' := (config.writeConfig value).cut Files.apply n files
    (n + 1 < (config.writeConfig value files).length ∧
      files' config.cfgPath = files config.cfgPath) ∨
    (n + 1 = (config.writeConfig value files).length ∧ files' config.cfgPath = none) ∨
    ((config.writeConfig value files).length ≤ n ∧
      files' config.cfgPath = some (config.saveToFile value)) := by
  have hlength : (config.writeConfig value files).length = _ := Script.length_andThen
  have hpos (t : Files) : 0 < (config.replaceCfg t).length := by
    rw [replaceCfg, Script.length_andThen]
    exact Nat.succ_pos _
  have hpos := hpos ((config.writeTmp value).finish Files.apply files)
  rcases Nat.lt_or_ge n (config.writeTmp value files).length with h | h
  · left
    refine ⟨by omega, ?_⟩
    rw [writeConfig, Script.cut_andThen_left h.le]
    exact writeTmp_frame ⟨n, rfl⟩
  · obtain ⟨k, rfl⟩ := Nat.exists_eq_add_of_le h
    have hk := @cut_replaceCfg config ((config.writeTmp value).finish Files.apply files) k
    dsimp only at hk
    rw [writeTmp_frame Script.reaches_finish, finish_writeTmp,
      ← @Script.cut_andThen_right _ _ _ _ config.replaceCfg, ← writeConfig] at hk
    rw [hlength]
    refine hk.imp ?_ (Or.imp ?_ ?_)
    · exact fun h => ⟨by omega, h.2⟩
    · exact fun h => ⟨by omega, h.2⟩
    · exact fun h => ⟨by omega, h.2⟩

theorem write_restored (hfiles : config.Stored files) (v : config.Value) {n : Nat}
    (hnul : v.value.NulFree)
    (hgap : files config.cfgPath = none ∨ n + 1 ≠ (config.writeConfig v.value files).length) :
    let files' := config.step files (.write v n)
    config.Stored files' ∧
      (config.restored files' = config.restored files ∨ config.restored files' = v.value) ∧
      ((config.writeConfig v.value files).length ≤ n → config.restored files' = v.value) := by
  intro files'
  rcases cut_writeConfig v.value files n with ⟨hlt, hcfg⟩ | ⟨hlast, hcfg⟩ | ⟨hle, hcfg⟩
  · exact ⟨hfiles.congr hcfg, .inl (restored_congr hcfg), fun hle => by omega⟩
  · rcases hgap with hnone | hgap
    · have hcfg : files' config.cfgPath = files config.cfgPath := hcfg.trans hnone.symm
      exact ⟨hfiles.congr hcfg, .inl (restored_congr hcfg), fun hle => by omega⟩
    · exact absurd hlast hgap
  · have hrestored := restored_saved hnul hcfg
    exact ⟨.inr ⟨v, hnul, hcfg⟩, .inr hrestored, fun _ => hrestored⟩

theorem removeConfig_cfg (h : config.removeConfig.Reaches Files.apply files files') :
    files' config.cfgPath = files config.cfgPath ∨ files' config.cfgPath = none := by
  apply h.invariant (I := fun t => t config.cfgPath = files config.cfgPath ∨
    t config.cfgPath = none) _ (.inl rfl)
  intro t op hop ht
  rcases List.mem_append.mp hop with hop | hop
  · rw [mem_removeIfExists hop, Files.apply, Function.update_of_ne tmpPath_ne_cfgPath.symm]
    exact ht
  · rw [mem_removeIfExists hop, Files.apply, Function.update_self]
    exact .inr rfl

/-- A boot removes only a file that holds the default. -/
theorem boot_restored (hfiles : config.Stored files) (n : Nat) :
    let files' := config.step files (.boot n)
    config.Stored files' ∧ config.restored files' = config.restored files := by
  have hunchanged (hops : config.restorePersistentConfig files = []) :
      config.step files (.boot n) = files := by
    rw [step, Script.cut, hops, List.take_nil]
    rfl
  intro files'
  rcases hfiles with hnone | ⟨v, hnul, hsaved⟩
  · have hops : config.restorePersistentConfig files = [] := by
      rw [restorePersistentConfig, hnone]
    rw [show files' = files from hunchanged hops]
    exact ⟨.inl hnone, rfl⟩
  · have hstored : config.Stored files := .inr ⟨v, hnul, hsaved⟩
    obtain ⟨changed, hfile, hchanged⟩ := updateFromFile_saved v hnul
    by_cases hremoved : changed = false ∧ config.removeSavedDefault = true
    · have hops : config.restorePersistentConfig files = config.removeConfig files := by
        rw [restorePersistentConfig, hsaved]
        dsimp only
        rw [hfile, hremoved.1]
        exact if_pos hremoved.2
      have hreached : config.removeConfig.Reaches Files.apply files files' := by
        refine ⟨n, ?_⟩
        rw [Script.cut, ← hops]
        rfl
      have hdefault : config.root.config = v.value := by
        by_contra hne
        rw [hchanged.mpr hne] at hremoved
        cases hremoved.1
      rcases removeConfig_cfg hreached with hcfg | hcfg
      · exact ⟨hstored.congr hcfg, restored_congr hcfg⟩
      · refine ⟨.inl hcfg, ?_⟩
        rw [restored_none hcfg, restored_saved hnul hsaved, hdefault]
    · have hops : config.restorePersistentConfig files = [] := by
        rw [restorePersistentConfig, hsaved]
        dsimp only
        rw [hfile]
        cases changed with
        | true => rfl
        | false => exact if_neg fun hremove => hremoved ⟨rfl, hremove⟩
      rw [show files' = files from hunchanged hops]
      exact ⟨hstored, rfl⟩

/-- The file of the configuration is not missing when the power is lost, unless there was none
before. The saved strings have no NUL. -/
def Undamaged (config : PersistentConfig) (files : Files) : config.Event → Prop
  | .write v n => v.value.NulFree ∧
      (files config.cfgPath = none ∨ n + 1 ≠ (config.writeConfig v.value files).length)
  | .boot _ => True

theorem stored_step (files : Files) (event : config.Event) (hfiles : config.Stored files)
    (h : config.Undamaged files event) : config.Stored (config.step files event) := by
  cases event with
  | write v n => exact (write_restored hfiles v h.1 h.2).1
  | boot n => exact (boot_restored hfiles n).1

/-- What an event may change about the configuration that the next boot restores. -/
def OldOrNew (config : PersistentConfig) (files : Files) : config.Event → Prop
  | .write v n =>
    let files' := config.step files (.write v n)
    (config.restored files' = config.restored files ∨ config.restored files' = v.value) ∧
      ((config.writeConfig v.value files).length ≤ n → config.restored files' = v.value)
  | .boot n => config.restored (config.step files (.boot n)) = config.restored files

/-- However often writes and boots are interrupted, the old or the new value is restored, as
long as no interruption falls between the removal of the old file and the renaming. -/
theorem restored_old_or_new (config : PersistentConfig) {files : Files}
    (hfiles : config.Stored files) (events : List config.Event) (event : config.Event)
    (h : Meets config.step config.Undamaged files (events ++ [event])) :
    config.OldOrNew (run config.step files events) event := by
  obtain ⟨hevents, hevent, -⟩ := h.append
  have hstored := hevents.invariant stored_step hfiles
  cases event with
  | write v n => exact (write_restored hstored v hevent.1 hevent.2).2
  | boot n => exact (boot_restored hstored n).2

def limits (duration : UInt8) (energyWh : UInt32) : Config :=
  .object [("duration", .uint8 duration 10), ("energy_wh", .uint32 energyWh)]

theorem limits_isValue (duration : UInt8) (energyWh : UInt32) :
    IsValue (limits 0 0) (limits duration energyWh) := by
  refine IsValue.object (by rfl) (by decide) ?_
  rw [List.zip_cons_cons, List.forall_mem_cons]
  constructor
  · exact .leaf rfl rfl rfl
  · rw [List.zip_cons_cons, List.zip_nil_left, List.forall_mem_singleton]
    exact .leaf rfl rfl rfl

theorem limits_allLeaves {P : Config → Prop} (hduration : ∀ duration, P (.uint8 duration 10))
    (henergy : ∀ energyWh, P (.uint32 energyWh)) (duration : UInt8) (energyWh : UInt32) :
    AllLeaves P (limits duration energyWh) := by
  apply AllLeaves.object
  rw [List.forall_mem_cons, List.forall_mem_singleton]
  exact ⟨.leaf rfl (hduration duration), .leaf rfl (henergy energyWh)⟩

def limitsText (duration energyWh : Int) : String :=
  "\x7b\"duration\":" ++ toString duration ++ ",\"energy_wh\":" ++ toString energyWh ++ "\x7d"

theorem limits_nulFree (duration : UInt8) (energyWh : UInt32) :
    (limits duration energyWh).NulFree :=
  limits_allLeaves (fun _ => trivial) (fun _ => trivial) duration energyWh

/-- The default limits of the module for charge limits, with the documents of two values. -/
def defaultLimits : PersistentConfig where
  path := "charge_limits/default_limits"
  root := ⟨limits 0 0, none, true⟩
  removeSavedDefault := true
  asFloat := fun _ => 0
  floatJson := fun _ => .null
  serialize
    | .object [(_, .int duration), (_, .int energyWh)] => limitsText duration energyWh
    | _ => ""
  deserialize text :=
    if text = limitsText 3 0 then some (.object [("duration", .int 3), ("energy_wh", .int 0)])
    else if text = limitsText 5 7000 then
      some (.object [("duration", .int 5), ("energy_wh", .int 7000)])
    else none
  isValue := limits_isValue 0 0
  reproduced := limits_allLeaves (fun _ => trivial) (fun _ => trivial) 0 0

def oldLimits : defaultLimits.Value where
  value := limits 3 0
  isValue := limits_isValue 3 0
  reproduced := limits_allLeaves (fun _ => trivial) (fun _ => trivial) 3 0
  valid := rfl
  accepted := rfl
  readBack := rfl

def newLimits : defaultLimits.Value where
  value := limits 5 7000
  isValue := limits_isValue 5 7000
  reproduced := limits_allLeaves (fun _ => trivial) (fun _ => trivial) 5 7000
  valid := rfl
  accepted := rfl
  readBack := rfl

def savedLimits : Files :=
  Function.update (fun _ => none) defaultLimits.cfgPath
    (some (defaultLimits.saveToFile oldLimits.value))

theorem savedLimits_cfg :
    savedLimits defaultLimits.cfgPath = some (defaultLimits.saveToFile oldLimits.value) :=
  Function.update_self _ _ _

theorem savedLimits_stored : defaultLimits.Stored savedLimits :=
  .inr ⟨oldLimits, limits_nulFree 3 0, savedLimits_cfg⟩

/-- An interruption while the temporary file is written. -/
theorem limits_old_or_new :
    defaultLimits.OldOrNew savedLimits (.write newLimits 1) ∧ defaultLimits.Stored savedLimits := by
  refine ⟨restored_old_or_new defaultLimits savedLimits_stored [] (.write newLimits 1) ⟨⟨?_, ?_⟩,
    trivial⟩, savedLimits_stored⟩
  · exact limits_nulFree 5 7000
  · right
    decide +kernel

/-- An interruption after the old file was removed. -/
theorem limits_lost :
    defaultLimits.Stored savedLimits ∧ newLimits.value.NulFree ∧
      ¬ defaultLimits.OldOrNew savedLimits (.write newLimits 3) ∧
      defaultLimits.restored (defaultLimits.step savedLimits (.write newLimits 3)) =
        defaultLimits.root.config := by
  have hcfg : defaultLimits.step savedLimits (.write newLimits 3) defaultLimits.cfgPath = none := by
    decide +kernel
  have hrestored := restored_none hcfg
  refine ⟨savedLimits_stored, limits_nulFree 5 7000, ?_, hrestored⟩
  rintro ⟨hold | hnew, -⟩
  · rw [hrestored, restored_saved (v := oldLimits) (limits_nulFree 3 0) savedLimits_cfg] at hold
    cases hold
  · rw [hrestored] at hnew
    cases hnew

end PersistentConfig

end Esp32Firmware.Api
