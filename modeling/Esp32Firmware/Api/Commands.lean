import Esp32Firmware.Config.UpdateAgreement

/-!
# Commands

A command has a configuration that holds its arguments and a callback that runs with them. It is
called with a JSON payload from another task, blocking or not, or with an update from memory in
the main task.

## Implementation notes

A message is empty if there is no error, here it is missing then. What a call does is recorded in
order. Parsing a payload belongs to the JSON library.
-/

namespace Esp32Firmware.Api

open Esp32Firmware.Configuration

inductive Language where
  | default
  | german
  | english
deriving DecidableEq

/-- The callback sees the message so far and returns the message of the call. -/
structure CommandRegistration where
  path : String
  config : ConfigRoot
  callback : Language → Config → Option String → Option String

inductive Effect where
  | updated (config : Config)
  | called (language : Language) (config : Config)

structure CallResult where
  error : Option String
  config : ConfigRoot
  effects : List Effect

/-- What waiting for the main task comes to. It may run the task and be asked to reboot. -/
inductive Await where
  | ran
  | cancelled
  | rebooting

/-- The JSON library and the language of the device. -/
structure Environment where
  asFloat : Json → UInt32
  deserialize : String → Except String Json
  defaultLanguage : Language

def Environment.resolve (env : Environment) (language : Language) : Language :=
  if language = .default then env.defaultLanguage else language

def isNull : Config → Bool
  | .empty => true
  | _ => false

namespace CommandRegistration

variable (env : Environment) (reg : CommandRegistration)

def reject (message : String) : CallResult := ⟨some message, reg.config, []⟩

def run (language : Language) (config : ConfigRoot) : CallResult :=
  ⟨reg.callback language config.config none, config,
    [.updated config.config, .called language config.config]⟩

def updateFromCstr (payload : String) (path : List Key) : Except String ConfigRoot :=
  match env.deserialize payload with
  | .error message =>
    .error s!"Failed to deserialize: {message} Payload length was {payload.utf8ByteSize}."
  | .ok doc => reg.config.updateFromJson env.asFloat doc true .api path

def callWithPayload (payload : String) (language : Language) (path : List Key) : CallResult :=
  match reg.updateFromCstr env payload path with
  | .error message => reg.reject message
  | .ok config => reg.run language config

/-- What the blocking call has the main task do. A suffix of a call without a payload is reported,
but the callback runs. -/
def callTask (payload : Option String) (language : Language) (path : List Key) : CallResult :=
  match payload with
  | none =>
    if isNull reg.config.config then
      let result := if path ≠ [] then some "suffix not allowed for null configs" else none
      ⟨reg.callback language reg.config.config result, reg.config,
        [.called language reg.config.config]⟩
    else
      reg.reject "empty payload only allowed for null configs"
  | some payload => reg.callWithPayload env payload language path

def callCommand (inMainTask : Bool) (await : Await) (payload : Option String)
    (language : Language) (path : List Key) : CallResult :=
  if inMainTask then
    reg.reject "Use ConfUpdate overload of callCommand in main thread!"
  else
    match await with
    | .cancelled => reg.reject "Failed to execute command: Await failed."
    | .ran => reg.callTask env payload (env.resolve language) path
    | .rebooting =>
      { reg.callTask env payload (env.resolve language) path with
        error := some "Failed to execute command: Await failed." }

/-- A payload of no bytes may get a block of memory or none. -/
def callCommandNonBlocking (inMainTask allocated : Bool) (payload : String) (language : Language)
    (path : List Key) : CallResult :=
  if inMainTask then
    reg.reject "callCommandNonBlocking: Use ConfUpdate overload of callCommand in main thread!"
  else if allocated = false then
    reg.reject "callCommandNonBlocking: Failed to allocate payload copy!"
  else if payload.utf8ByteSize = 0 ∧ isNull reg.config.config = false then
    reg.reject "empty payload only allowed for null configs"
  else
    reg.callWithPayload env payload (env.resolve language) path

def callUpdate (payload : ConfUpdate) (language : Language) : CallResult :=
  match reg.config.update payload with
  | .error message => reg.reject message
  | .ok config => reg.run (env.resolve language) config

end CommandRegistration

/-- The call from the main task. Nothing is called if there is no such command. -/
def callCommandUpdate (env : Environment) (commands : List CommandRegistration)
    (inMainTask : Bool) (path : String) (payload : ConfUpdate) (language : Language) :
    Except String CallResult :=
  if inMainTask = false then
    .error "Use char *, size_t overload of callCommand in non-main thread!"
  else
    match commands.find? fun reg => reg.path == path with
    | none => .error s!"Unknown command: {path}"
    | some reg => .ok (reg.callUpdate env payload language)

namespace CommandRegistration

variable {env : Environment} {reg : CommandRegistration}

/-- The call reports an error and does nothing. -/
structure Rejected (reg : CommandRegistration) (r : CallResult) : Prop where
  error : ∃ message, r.error = some message
  config : r.config = reg.config
  effects : r.effects = []

/-- The configuration is updated once if there is a payload, then the callback runs once with it.
The call reports what the callback reports, or that the device is about to reboot. -/
structure Executed (reg : CommandRegistration) (hasPayload : Bool) (language : Language)
    (rebooting : Prop) (r : CallResult) : Prop where
  effects : r.effects = (if hasPayload then [.updated r.config.config] else []) ++
    [.called language r.config.config]
  config : hasPayload = false → r.config = reg.config
  error : r.error = reg.callback language r.config.config none ∨
    rebooting ∧ r.error = some "Failed to execute command: Await failed."

theorem reject_rejected (message : String) : reg.Rejected (reg.reject message) :=
  ⟨⟨message, rfl⟩, rfl, rfl⟩

theorem run_executed (language : Language) (config : ConfigRoot) :
    reg.Executed true language False (reg.run language config) :=
  ⟨rfl, (fun h => by cases h), .inl rfl⟩

theorem run_not_rejected (language : Language) (config : ConfigRoot) :
    ¬ reg.Rejected (reg.run language config) := by
  intro h
  cases h.effects

theorem callWithPayload_spec (payload : String) (language : Language) (path : List Key) :
    reg.Rejected (reg.callWithPayload env payload language path) ∨
      reg.Executed true language False (reg.callWithPayload env payload language path) := by
  rw [callWithPayload]
  cases reg.updateFromCstr env payload path with
  | error message => exact .inl (reject_rejected message)
  | ok config => exact .inr (run_executed language config)

theorem callTask_spec {payload : Option String} {language : Language} {path : List Key}
    (h : payload = none → path = []) :
    reg.Rejected (reg.callTask env payload language path) ∨
      reg.Executed payload.isSome language False (reg.callTask env payload language path) := by
  cases payload with
  | some payload => exact callWithPayload_spec payload language path
  | none =>
    rw [callTask, h rfl]
    split
    · exact .inr ⟨rfl, fun _ => rfl, .inl rfl⟩
    · exact .inl (reject_rejected _)

variable {language : Language} {path : List Key}

theorem callCommand_spec {payload : Option String} (h : payload = none → path = [])
    (inMainTask : Bool) (await : Await) (language : Language) :
    let r := reg.callCommand env inMainTask await payload language path
    reg.Rejected r ∨ reg.Executed payload.isSome (env.resolve language) (await = .rebooting) r := by
  intro r
  have hr : r = reg.callCommand env inMainTask await payload language path := rfl
  rw [callCommand.eq_def] at hr
  cases inMainTask with
  | true => exact .inl (hr ▸ reject_rejected _)
  | false =>
    have htask := @callTask_spec env reg payload (env.resolve language) path h
    cases await with
    | cancelled => exact .inl (hr ▸ reject_rejected _)
    | ran =>
      rw [hr]
      refine htask.imp id fun hexecuted => ?_
      exact ⟨hexecuted.effects, hexecuted.config, hexecuted.error.imp id fun h => h.1.elim⟩
    | rebooting =>
      rw [hr]
      refine htask.imp (fun hrejected => ?_) fun hexecuted => ?_
      · exact ⟨⟨_, rfl⟩, hrejected.config, hrejected.effects⟩
      · exact ⟨hexecuted.effects, hexecuted.config, .inr ⟨rfl, rfl⟩⟩

theorem callCommandNonBlocking_spec (inMainTask allocated : Bool) (payload : String)
    (language : Language) (path : List Key) :
    let r := reg.callCommandNonBlocking env inMainTask allocated payload language path
    reg.Rejected r ∨ reg.Executed true (env.resolve language) False r := by
  intro r
  have hr : r = reg.callCommandNonBlocking env inMainTask allocated payload language path := rfl
  rw [callCommandNonBlocking] at hr
  split at hr
  · exact .inl (hr ▸ reject_rejected _)
  · split at hr
    · exact .inl (hr ▸ reject_rejected _)
    · split at hr
      · exact .inl (hr ▸ reject_rejected _)
      · rw [hr]
        exact callWithPayload_spec payload (env.resolve language) path

theorem callUpdate_spec (payload : ConfUpdate) (language : Language) :
    let r := reg.callUpdate env payload language
    reg.Rejected r ∨ reg.Executed true (env.resolve language) False r := by
  intro r
  have hr : r = reg.callUpdate env payload language := rfl
  rw [callUpdate] at hr
  cases hupdate : reg.config.update payload with
  | error message =>
    rw [hupdate] at hr
    exact .inl (hr ▸ reject_rejected _)
  | ok config =>
    rw [hupdate] at hr
    exact .inr (hr ▸ run_executed _ _)

/-- Whether a call with a payload is rejected does not depend on who waits for it. -/
theorem rejected_iff (hempty : ∃ message, env.deserialize "" = .error message) (payload : String)
    (language : Language) (path : List Key) :
    reg.Rejected (reg.callCommand env false .ran (some payload) language path) ↔
      reg.Rejected (reg.callCommandNonBlocking env false true payload language path) := by
  have hcall : reg.callCommand env false .ran (some payload) language path =
      reg.callWithPayload env payload (env.resolve language) path := rfl
  rw [hcall, callCommandNonBlocking, if_neg Bool.false_ne_true, if_neg Bool.true_eq_false.mp]
  split
  · rename_i hnone
    obtain ⟨message, hmessage⟩ := hempty
    rw [String.utf8ByteSize_eq_zero_iff.mp hnone.1, callWithPayload, updateFromCstr, hmessage]
    exact iff_of_true (reject_rejected _) (reject_rejected _)
  · exact Iff.rfl

theorem callWithPayload_rejected_iff {payload : String} :
    reg.Rejected (reg.callWithPayload env payload language path) ↔
      ∀ config, reg.updateFromCstr env payload path ≠ .ok config := by
  rw [callWithPayload]
  cases reg.updateFromCstr env payload path with
  | error message => exact iff_of_true (reject_rejected _) fun _ h => by cases h
  | ok config => exact iff_of_false (run_not_rejected _ _) fun h => h config rfl

theorem callUpdate_rejected_iff {payload : ConfUpdate} :
    reg.Rejected (reg.callUpdate env payload language) ↔
      ∀ config, reg.config.update payload ≠ .ok config := by
  rw [callUpdate]
  cases reg.config.update payload with
  | error message => exact iff_of_true (reject_rejected _) fun _ h => by cases h
  | ok config => exact iff_of_false (run_not_rejected _ _) fun h => h config rfl

theorem updateFromJson_source {root : ConfigRoot} {asFloat : Json → UInt32}
    (hsource : ∀ copy, root.validate copy .api = root.validate copy .code) (node : Json)
    (forceSameKeys : Bool) (path : List Key) :
    root.updateFromJson asFloat node forceSameKeys .api path =
      root.updateFromJson asFloat node forceSameKeys .code path := by
  rw [ConfigRoot.updateFromJson, ConfigRoot.updateFromJson, ConfigRoot.getUpdatedCopy,
    ConfigRoot.getUpdatedCopy]
  simp only [hsource]

/-- An update from memory that fits is rejected exactly if its JSON node is. -/
theorem callUpdate_agrees {d : Config} (hvalue : Config.IsValue d reg.config.config)
    {toDouble : UInt32 → UInt64} (hfloat : ∀ value, env.asFloat (.float (toDouble value)) = value)
    (hsource : ∀ copy, reg.config.validate copy .api = reg.config.validate copy .code)
    {u : ConfUpdate} (hfits : Fits reg.config.permitNullUpdates u reg.config.config)
    {payload : String} (hpayload : env.deserialize payload = .ok (u.json toDouble))
    (language : Language) :
    reg.Rejected (reg.callUpdate env u language) ↔
      reg.Rejected (reg.callCommand env false .ran (some payload) language []) := by
  have hcall : reg.callCommand env false .ran (some payload) language [] =
      reg.callWithPayload env payload (env.resolve language) [] := rfl
  rw [hcall, callUpdate_rejected_iff, callWithPayload_rejected_iff, updateFromCstr, hpayload]
  dsimp only
  rw [updateFromJson_source hsource]
  exact forall_congr' fun config =>
    not_congr (update_iff_of_outcome (fits_outcome hvalue hfloat hfits) config)

end CommandRegistration

open CommandRegistration

/-- A command is rejected and nothing happens, or it is executed once, whatever its callback
reports. All ways to call it reject the same payloads and the updates that say the same. A call
without a payload but with a suffix is left out. -/
theorem commands_all_or_nothing (env : Environment)
    (hempty : ∃ message, env.deserialize "" = .error message) :
    (∀ (reg : CommandRegistration) (inMainTask : Bool) (await : Await) (payload : Option String)
      (language : Language) (path : List Key), (payload = none → path = []) →
      let r := reg.callCommand env inMainTask await payload language path
      reg.Rejected r ∨ reg.Executed payload.isSome (env.resolve language) (await = .rebooting) r) ∧
    (∀ (reg : CommandRegistration) (inMainTask allocated : Bool) (payload : String)
      (language : Language) (path : List Key),
      let r := reg.callCommandNonBlocking env inMainTask allocated payload language path
      reg.Rejected r ∨ reg.Executed true (env.resolve language) False r) ∧
    (∀ (commands : List CommandRegistration) (inMainTask : Bool) (path : String)
      (u : ConfUpdate) (language : Language) (r : CallResult),
      callCommandUpdate env commands inMainTask path u language = .ok r →
      ∃ reg ∈ commands, reg.path = path ∧
        (reg.Rejected r ∨ reg.Executed true (env.resolve language) False r)) ∧
    (∀ (reg : CommandRegistration) (payload : String) (language : Language) (path : List Key),
      reg.Rejected (reg.callCommand env false .ran (some payload) language path) ↔
        reg.Rejected (reg.callCommandNonBlocking env false true payload language path)) ∧
    ∀ (reg : CommandRegistration) (d : Config), Config.IsValue d reg.config.config →
      (∀ copy, reg.config.validate copy .api = reg.config.validate copy .code) →
      ∀ toDouble : UInt32 → UInt64,
      (∀ value, env.asFloat (.float (toDouble value)) = value) → ∀ u : ConfUpdate,
      Fits reg.config.permitNullUpdates u reg.config.config → ∀ payload : String,
      env.deserialize payload = .ok (u.json toDouble) → ∀ language : Language,
      (reg.Rejected (reg.callUpdate env u language) ↔
        reg.Rejected (reg.callCommand env false .ran (some payload) language [])) := by
  refine ⟨?_, ?_, ?_, ?_, ?_⟩
  · exact fun reg inMainTask await payload language path h =>
      callCommand_spec h inMainTask await language
  · exact fun reg => callCommandNonBlocking_spec
  · intro commands inMainTask path u language r h
    rw [callCommandUpdate] at h
    split at h
    · cases h
    · split at h
      · cases h
      · rename_i reg hfind
        cases h
        exact ⟨reg, List.mem_of_find?_eq_some hfind, beq_iff_eq.mp (List.find?_some (p := fun reg : CommandRegistration => reg.path == path) hfind),
          callUpdate_spec u language⟩
  · exact fun reg => rejected_iff hempty
  · exact fun reg d hvalue hsource toDouble hfloat u hfits payload hpayload =>
      callUpdate_agrees hvalue hfloat hsource hfits hpayload

/-- The command that removes a certificate, on a device that has none. -/
def removeCert : CommandRegistration where
  path := "certs/remove"
  config := ⟨.object [("id", .uint8 0 7)], none, true⟩
  callback _ config _ :=
    match config with
    | .object [(_, .uint8 certId _)] => some s!"No cert with ID {certId} found!"
    | _ => none

def removeCertEnv : Environment where
  asFloat _ := 0
  deserialize payload :=
    if payload = "\x7b\"id\":3\x7d" then .ok (.object [("id", .int 3)])
    else .error "Payload was empty. Please send valid JSON."
  defaultLanguage := .german

/-- The call is executed and reports the error of its callback. -/
theorem removeCert_executed :
    let r := removeCert.callCommand removeCertEnv false .ran (some "\x7b\"id\":3\x7d") .default []
    (removeCert.Rejected r ∨ removeCert.Executed true .german (Await.ran = .rebooting) r) ∧
      ∃ message, removeCertEnv.deserialize "" = .error message := by
  have hempty : ∃ message, removeCertEnv.deserialize "" = .error message := ⟨_, rfl⟩
  exact ⟨(commands_all_or_nothing removeCertEnv hempty).1 removeCert false .ran
    (some "\x7b\"id\":3\x7d") .default [] (fun h => by cases h), hempty⟩

/-- An error is reported although the configuration was updated and the callback ran. -/
theorem removeCert_reports_error :
    let r := removeCert.callCommand removeCertEnv false .ran (some "\x7b\"id\":3\x7d") .default []
    r.error = some "No cert with ID 3 found!" ∧ r.config.config = .object [("id", .uint8 3 7)] ∧
      r.effects = [.updated (.object [("id", .uint8 3 7)]),
        .called .german (.object [("id", .uint8 3 7)])] ∧
      ¬ (removeCert.Rejected r ∨ r.error = none) := by
  refine ⟨?_, rfl, rfl, ?_⟩
  · decide
  · rintro (h | h)
    · cases h.effects
    · cases h

end Esp32Firmware.Api
