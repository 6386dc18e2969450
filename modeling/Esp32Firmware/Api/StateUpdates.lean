import Esp32Firmware.Config.ReportedUpdates

/-!
# Pushing states to the backends

A state is pushed to the backends whose flag is set somewhere in its configuration. A flag is
cleared when its backend got the value or does not want it. As long as a flag is clear, the
backend knows the value, if no write was silent.

## Implementation notes

The payload is the document of the configuration at the time of the push. So what a backend got
is this configuration. There are eight flags and four backends.
-/

namespace Esp32Firmware.Api

open Esp32Firmware.Configuration (Config Json Key ConfUpdate Flagged Write)
open Esp32Firmware.Configuration.Flagged (Validator)

inductive WantsStateUpdate where
  | no
  | later
  | asConfig
  | asString
deriving DecidableEq

/-- What a backend answers for a state, and whether it takes the state when it is pushed. -/
structure BackendAnswer where
  wantsStateUpdate : WantsStateUpdate
  pushStateUpdate : Bool

/-- The backend got the value or declined it. -/
def BackendAnswer.settled : BackendAnswer → Bool
  | ⟨.later, _⟩ => false
  | ⟨.no, _⟩ => true
  | ⟨.asString, pushed⟩ => pushed
  | ⟨.asConfig, pushed⟩ => pushed

/-- A registered state, and the values that the backends got or declined last. -/
structure StateRegistration where
  config : Flagged
  permitNullUpdates : Bool
  lowLatency : Bool
  known : Nat → Option Config

structure StateTable where
  states : List StateRegistration
  stateUpdateCounter : UInt8

def backendFlag (backendIdx : Nat) : UInt8 := UInt8.ofNat (2 ^ backendIdx)

def allBackends (backendCount : Nat) : UInt8 := UInt8.ofNat (2 ^ backendCount - 1)

/-- The loop over the backends. -/
def sentFlags (toSend : UInt8) (answer : Nat → BackendAnswer) : Nat → UInt8
  | 0 => 0
  | backendIdx + 1 =>
    let sent := sentFlags toSend answer backendIdx
    if toSend &&& backendFlag backendIdx = 0 then sent
    else if (answer backendIdx).settled then sent ||| backendFlag backendIdx
    else sent

/-- What the backends know after they answered. -/
def knownAfter (backendCount : Nat) (toSend : UInt8) (answer : Nat → BackendAnswer)
    (config : Config) (known : Nat → Option Config) : Nat → Option Config := fun backendIdx =>
  if backendIdx < backendCount ∧ toSend &&& backendFlag backendIdx ≠ 0 ∧
      (answer backendIdx).settled = true then some config
  else known backendIdx

def pushState (backendCount : Nat) (answer : Nat → BackendAnswer) (reg : StateRegistration) :
    StateRegistration :=
  let toSend := reg.config.wasUpdated (allBackends backendCount)
  if toSend = 0 then reg
  else
    { reg with
      config := reg.config.clearUpdated (sentFlags toSend answer backendCount)
      known := knownAfter backendCount toSend answer reg.config.config reg.known }

/-- Only every fourth call looks at the other states, too. -/
def pushStateUpdates (backendCount : Nat) (answers : Nat → Nat → BackendAnswer)
    (api : StateTable) : StateTable where
  states := api.states.mapIdx fun stateIdx reg =>
    if api.stateUpdateCounter % 4 ≠ 0 ∧ reg.lowLatency = false then reg
    else pushState backendCount (answers stateIdx) reg
  stateUpdateCounter := api.stateUpdateCounter + 1

/-- A state is written to by the firmware, updated from a document or from memory, or all of
them are pushed. -/
inductive Event where
  | write (stateIdx : Nat) (w : Write)
  | updateFromJson (stateIdx : Nat) (forceSameKeys : Bool) (node : Json) (path : List Key)
      (validator : Validator)
  | update (stateIdx : Nat) (val : ConfUpdate) (validator : Validator)
  | push (answers : Nat → Nat → BackendAnswer)

/-- A refused update leaves the configuration as it is. -/
def acceptedOr (result : Except String Flagged) (config : Flagged) : Flagged :=
  match result with
  | .ok copy => copy
  | .error _ => config

theorem acceptedOr_of {P : Flagged → Prop} {result : Except String Flagged} {config : Flagged}
    (hcopy : ∀ copy, result = .ok copy → P copy) (hconfig : P config) :
    P (acceptedOr result config) := by
  cases result with
  | ok copy => exact hcopy copy rfl
  | error message => exact hconfig

section

variable (asFloat : Json → UInt32) (backendCount : Nat)

def writeState (reg : StateRegistration) (w : Write) : StateRegistration :=
  { reg with config := reg.config.write w }

def updateStateFromJson (forceSameKeys : Bool) (node : Json) (path : List Key)
    (validator : Validator) (reg : StateRegistration) : StateRegistration :=
  { reg with
    config := acceptedOr (reg.config.updateFromJson asFloat reg.permitNullUpdates forceSameKeys
      node path validator) reg.config }

def updateState (val : ConfUpdate) (validator : Validator) (reg : StateRegistration) :
    StateRegistration :=
  { reg with config := acceptedOr (reg.config.update val validator) reg.config }

def step (api : StateTable) : Event → StateTable
  | .write stateIdx w =>
    { api with states := api.states.modify stateIdx fun reg => writeState reg w }
  | .updateFromJson stateIdx forceSameKeys node path validator =>
    { api with
      states := api.states.modify stateIdx
        (updateStateFromJson asFloat forceSameKeys node path validator) }
  | .update stateIdx val validator =>
    { api with states := api.states.modify stateIdx (updateState val validator) }
  | .push answers => pushStateUpdates backendCount answers api

/-- A silent write only happens while the flags of all backends are set. -/
def WriteMarked (config : Flagged) (w : Write) : Prop :=
  config.Silent w → config.wasUpdated (allBackends backendCount) = allBackends backendCount

/-- What a validator writes to the copy it gets meets the same condition. -/
def ValidatorMarked (mark : Configuration.FlagVisit) (path : List Key) (validator : Validator)
    (config : Flagged) : Prop :=
  ∀ subConfig writes, config.walk path = some subConfig →
    validator (config.visitedCopy mark path subConfig).config = .ok writes →
      Meets Flagged.write (WriteMarked backendCount) (config.visitedCopy mark path subConfig) writes

/-- Nothing is written silently in a step. -/
def Marked (api : StateTable) : Event → Prop
  | .write stateIdx w =>
    ∀ reg, api.states[stateIdx]? = some reg → WriteMarked backendCount reg.config w
  | .updateFromJson stateIdx _ node path validator =>
    ∀ reg, api.states[stateIdx]? = some reg → ValidatorMarked backendCount
        (Flagged.markJsonRoot asFloat reg.permitNullUpdates node) path validator reg.config
  | .update stateIdx val validator =>
    ∀ reg, api.states[stateIdx]? = some reg →
      ValidatorMarked backendCount (Flagged.markUpdate val) [] validator reg.config
  | .push _ => True

end

/-- What a module registers. -/
structure Registration where
  config : Config
  permitNullUpdates : Bool
  lowLatency : Bool

/-- All flags are set at first, and no backend knows anything. -/
def Registration.state (registration : Registration) : StateRegistration where
  config := Flagged.fresh registration.config
  permitNullUpdates := registration.permitNullUpdates
  lowLatency := registration.lowLatency
  known := fun _ => none

def setup (registrations : List Registration) : StateTable where
  states := registrations.map Registration.state
  stateUpdateCounter := 0

/-- A backend whose flag is clear knows the value of the state. -/
def UpToDate (backendCount : Nat) (reg : StateRegistration) : Prop :=
  ∀ backendIdx < backendCount, reg.config.wasUpdated (backendFlag backendIdx) = 0 →
    ∃ config, reg.known backendIdx = some config ∧ config.SameValue reg.config.config

section

theorem backendFlag_ne_zero {backendIdx : Nat} (h : backendIdx < 8) :
    backendFlag backendIdx ≠ 0 := by
  interval_cases backendIdx <;> decide

theorem backendFlag_and {a b : Nat} (ha : a < 8) (hb : b < 8) (h : a ≠ b) :
    backendFlag a &&& backendFlag b = 0 := by
  have hall : ∀ a b : Fin 8, a ≠ b → backendFlag a &&& backendFlag b = 0 := by decide
  exact hall ⟨a, ha⟩ ⟨b, hb⟩ fun heq => h (Fin.mk.inj heq)

theorem allBackends_and {backendIdx backendCount : Nat} (h : backendIdx < backendCount)
    (hcount : backendCount ≤ 8) :
    allBackends backendCount &&& backendFlag backendIdx = backendFlag backendIdx := by
  have hall : ∀ n : Fin 9, ∀ b : Fin 8, b.1 < n.1 →
      allBackends n &&& backendFlag b = backendFlag b := by decide
  exact hall ⟨backendCount, by omega⟩ ⟨backendIdx, by omega⟩ h

theorem all_and (flags : UInt8) : 0xFF &&& flags = flags := UInt8.neg_one_and

theorem not_and_of_and_eq_zero {flags mask : UInt8} (h : flags &&& mask = 0) :
    ~~~flags &&& mask = mask := by
  have hsplit := Flagged.or_and flags (~~~flags) mask
  rw [UInt8.or_not_self, h, UInt8.zero_or] at hsplit
  rw [← hsplit]
  exact all_and mask

/-- A flag that was sent belongs to a backend that settled its update. -/
theorem sentFlags_and {toSend : UInt8} {answer : Nat → BackendAnswer} {n backendIdx : Nat}
    (hn : n ≤ 8) (hlt : backendIdx < 8)
    (h : sentFlags toSend answer n &&& backendFlag backendIdx ≠ 0) :
    backendIdx < n ∧ toSend &&& backendFlag backendIdx ≠ 0 ∧
      (answer backendIdx).settled = true := by
  induction n with
  | zero => exact absurd UInt8.zero_and h
  | succ n ih =>
    have hkept (hsent : sentFlags toSend answer n &&& backendFlag backendIdx ≠ 0) :
        backendIdx < n + 1 ∧ toSend &&& backendFlag backendIdx ≠ 0 ∧
          (answer backendIdx).settled = true := by
      obtain ⟨hindex, hrest⟩ := ih (by omega) hsent
      exact ⟨by omega, hrest⟩
    rw [sentFlags] at h
    split at h
    · exact hkept h
    · rename_i hsend
      split at h
      · rename_i hsettled
        rw [Flagged.or_and] at h
        by_cases hsame : n = backendIdx
        · subst hsame
          exact ⟨n.lt_succ_self, hsend, hsettled⟩
        · rw [backendFlag_and (by omega) hlt hsame, UInt8.or_zero] at h
          exact hkept h
      · exact hkept h

end

section

variable {backendCount : Nat} {reg : StateRegistration} {config : Flagged}

section

variable (hcount : backendCount ≤ 8)
include hcount

/-- A write that is announced keeps the backends up to date. -/
theorem UpToDate.announces (h : UpToDate backendCount reg)
    (hconfig : reg.config.Announces config) : UpToDate backendCount { reg with config } := by
  intro backendIdx hlt hclear
  obtain ⟨set, hflags, hvalue⟩ := hconfig
  dsimp only at hclear ⊢
  rw [Flagged.wasUpdated_eq, hflags, Flagged.or_and, UInt8.or_eq_zero_iff] at hclear
  obtain ⟨hclear, hset⟩ := hclear
  rcases hvalue with rfl | hvalue
  · rw [all_and] at hset
    exact absurd hset (backendFlag_ne_zero (by omega))
  · rw [← Flagged.wasUpdated_eq] at hclear
    obtain ⟨known, hknown, hsame⟩ := h backendIdx hlt hclear
    exact ⟨known, hknown, hsame.trans hvalue.symm⟩

theorem wasUpdated_ne_zero
    (hset : config.wasUpdated (allBackends backendCount) = allBackends backendCount)
    {backendIdx : Nat} (hlt : backendIdx < backendCount) :
    config.wasUpdated (backendFlag backendIdx) ≠ 0 := by
  intro hclear
  rw [Flagged.wasUpdated_eq] at hset hclear
  have hflag : backendFlag backendIdx = 0 := by
    rw [← allBackends_and hlt hcount, ← hset, UInt8.and_assoc, allBackends_and hlt hcount, hclear]
  exact backendFlag_ne_zero (by omega) hflag

section

variable (h : UpToDate backendCount reg)
include h

theorem UpToDate.write {w : Write}
    (hw : WriteMarked backendCount reg.config w) : UpToDate backendCount (writeState reg w) := by
  by_cases hsilent : reg.config.Silent w
  · -- The flags were set before and stay set, so nothing has to be known.
    obtain ⟨set, hflags⟩ := Flagged.write_flags reg.config w
    intro backendIdx hlt hclear
    rw [writeState, Flagged.wasUpdated_eq, hflags, Flagged.or_and, UInt8.or_eq_zero_iff,
      ← Flagged.wasUpdated_eq] at hclear
    exact absurd hclear.1 (wasUpdated_ne_zero hcount (hw hsilent) hlt)
  · exact h.announces hcount (Flagged.write_announces hsilent)

/-- Neither a visitor that reports its changes nor a validator hides a change. -/
theorem UpToDate.getUpdatedCopy
    {visit : Configuration.Visit} {mark : Configuration.FlagVisit} {path : List Key}
    {validator : Validator} (hmark : Flagged.Reports mark)
    (hvalidator : ValidatorMarked backendCount mark path validator reg.config)
    (hok : reg.config.getUpdatedCopy visit mark validator path = .ok config) :
    UpToDate backendCount { reg with config } := by
  rw [Flagged.getUpdatedCopy] at hok
  split at hok
  · cases hok
  · rename_i subConfig hwalk
    obtain ⟨-, -, hok⟩ := Configuration.bind_eq_ok hok
    obtain ⟨-, -, hok⟩ := Configuration.bind_eq_ok hok
    obtain ⟨writes, hwrites, hok⟩ := Configuration.bind_eq_ok hok
    cases hok
    have hcopy := h.announces hcount (Flagged.visitedCopy_announces hmark hwalk)
    have hmeets := hvalidator subConfig writes hwalk hwrites
    exact hmeets.invariant (I := fun config => UpToDate backendCount { reg with config })
      (fun _ _ h hw => h.write hcount hw) hcopy

theorem UpToDate.updateFromJson
    (asFloat : Json → UInt32) (forceSameKeys : Bool) (node : Json) (path : List Key)
    (validator : Validator)
    (hvalidator : ValidatorMarked backendCount
      (Flagged.markJsonRoot asFloat reg.permitNullUpdates node) path validator reg.config) :
    UpToDate backendCount
      (updateStateFromJson asFloat forceSameKeys node path validator reg) := by
  apply acceptedOr_of (P := fun config => UpToDate backendCount { reg with config }) _ h
  intro copy hcopy
  rw [Flagged.updateFromJson] at hcopy
  cases hresult : reg.config.getUpdatedCopy
      (Configuration.fromJsonRoot asFloat forceSameKeys reg.permitNullUpdates node)
      (Flagged.markJsonRoot asFloat reg.permitNullUpdates node) validator path with
  | ok copy' =>
    rw [hresult] at hcopy
    cases hcopy
    exact h.getUpdatedCopy hcount (Flagged.markJsonRoot_reports node) hvalidator hresult
  | error message =>
    rw [hresult] at hcopy
    cases hcopy

theorem UpToDate.update (val : ConfUpdate) (validator : Validator)
    (hvalidator : ValidatorMarked backendCount (Flagged.markUpdate val) [] validator reg.config) :
    UpToDate backendCount (updateState val validator reg) := by
  apply acceptedOr_of (P := fun config => UpToDate backendCount { reg with config }) _ h
  intro copy hcopy
  exact h.getUpdatedCopy hcount (Flagged.markUpdate_reports val) hvalidator hcopy

/-- A flag is cleared only if its backend settled the update. -/
theorem UpToDate.pushState
    (answer : Nat → BackendAnswer) : UpToDate backendCount (pushState backendCount answer reg) := by
  rw [Api.pushState]
  split
  · exact h
  · intro backendIdx hlt hclear
    dsimp only at hclear ⊢
    rw [Flagged.config_clearUpdated, knownAfter]
    split
    · exact ⟨_, rfl, rfl⟩
    · rename_i hunsettled
      apply h backendIdx hlt
      have hsent : sentFlags (reg.config.wasUpdated (allBackends backendCount)) answer
          backendCount &&& backendFlag backendIdx = 0 := by
        by_contra hsent
        exact hunsettled (sentFlags_and hcount (by omega) hsent)
      rw [Flagged.wasUpdated_eq, Flagged.flags_clearUpdated, UInt8.and_assoc,
        not_and_of_and_eq_zero hsent] at hclear
      rw [Flagged.wasUpdated_eq, hclear]

end

end

end

section

variable {asFloat : Json → UInt32} {backendCount : Nat}

theorem forall_modify {states : List StateRegistration} {P : StateRegistration → Prop}
    (h : ∀ (i : Nat) reg, states[i]? = some reg → P reg) {stateIdx : Nat}
    {f : StateRegistration → StateRegistration}
    (hf : ∀ reg, states[stateIdx]? = some reg → P (f reg)) (i : Nat) (reg : StateRegistration)
    (hreg : (states.modify stateIdx f)[i]? = some reg) : P reg := by
  rw [List.getElem?_modify] at hreg
  obtain ⟨old, hold, rfl⟩ := Option.map_eq_some_iff.mp hreg
  split
  · rename_i hindex
    exact hf old (hindex ▸ hold)
  · exact h i old hold

/-- Every step whose writes are marked keeps all backends up to date. -/
theorem step_upToDate (hcount : backendCount ≤ 8) (api : StateTable) (event : Event)
    (h : ∀ (i : Nat) reg, api.states[i]? = some reg → UpToDate backendCount reg)
    (hmarked : Marked asFloat backendCount api event) (i : Nat) (reg : StateRegistration)
    (hreg : (step asFloat backendCount api event).states[i]? = some reg) :
    UpToDate backendCount reg := by
  cases event with
  | write stateIdx w =>
    apply forall_modify h _ i reg hreg
    intro old hold
    exact (h stateIdx old hold).write hcount (hmarked old hold)
  | updateFromJson stateIdx forceSameKeys node path validator =>
    apply forall_modify h _ i reg hreg
    intro old hold
    exact (h stateIdx old hold).updateFromJson hcount asFloat forceSameKeys node path validator
      (hmarked old hold)
  | update stateIdx val validator =>
    apply forall_modify h _ i reg hreg
    intro old hold
    exact (h stateIdx old hold).update hcount val validator (hmarked old hold)
  | push answers =>
    rw [step, pushStateUpdates, List.getElem?_mapIdx] at hreg
    obtain ⟨old, hold, rfl⟩ := Option.map_eq_some_iff.mp hreg
    split
    · exact h i old hold
    · exact (h i old hold).pushState hcount _

/-- All flags of a new state are set. -/
theorem setup_upToDate (hcount : backendCount ≤ 8) (registrations : List Registration) (i : Nat)
    (reg : StateRegistration) (hreg : (setup registrations).states[i]? = some reg) :
    UpToDate backendCount reg := by
  rw [setup, List.getElem?_map] at hreg
  obtain ⟨registration, -, rfl⟩ := Option.map_eq_some_iff.mp hreg
  intro backendIdx hlt hclear
  rw [Registration.state, Flagged.wasUpdated, Flagged.updated_fresh, all_and,
    UInt8.or_eq_zero_iff] at hclear
  exact absurd hclear.1 (backendFlag_ne_zero (by omega))

/-- In a run without silent writes, a backend whose flag is clear knows the value of the
state. -/
theorem known_of_clear (asFloat : Json → UInt32) (hcount : backendCount ≤ 8)
    (registrations : List Registration) (events : List Event)
    (h : Meets (step asFloat backendCount) (Marked asFloat backendCount) (setup registrations)
      events) :
    ∀ reg ∈ (run (step asFloat backendCount) (setup registrations) events).states,
      UpToDate backendCount reg := by
  intro reg hreg
  obtain ⟨i, hi⟩ := List.mem_iff_getElem?.mp hreg
  have hrun := h.invariant
    (I := fun api : StateTable => ∀ (i : Nat) reg, api.states[i]? = some reg →
      UpToDate backendCount reg)
    (fun api event hapi hevent => step_upToDate hcount api event hapi hevent)
    (setup_upToDate hcount registrations)
  exact hrun i reg hi

end

/-- The state of a registration for the remote access. -/
def registrationState : Registration where
  config := .object [("state", .uint8 0 3), ("message", .string "" 0 64)]
  permitNullUpdates := true
  lowLatency := true

def writeMessage (message : String) : Event :=
  .write 0 ⟨[.name "message"], .updateValue (.string message)⟩

def clearMessage : Event :=
  .write 0 ⟨[.name "message"], .clearString⟩

/-- Every backend takes the state. -/
def pushTaken : Event :=
  .push fun _ _ => ⟨.asString, true⟩

/-- A message that nobody got yet is cleared. -/
theorem registrationState_upToDate :
    4 ≤ 8 ∧ ∀ reg ∈ (run (step (fun _ => 0) 4) (setup [registrationState])
      [pushTaken, writeMessage "salt", clearMessage, pushTaken]).states, UpToDate 4 reg := by
  refine ⟨by decide, known_of_clear (fun _ => 0) (by decide) _ _ ⟨trivial, ?_, ?_, trivial, trivial⟩⟩
  · intro reg _ hsilent
    exact hsilent.elim
  · intro reg hreg _
    cases hreg
    decide

/-- A message that was delivered is cleared, and nobody hears of it. -/
theorem clearMessage_lost :
    ¬ ∀ reg ∈ (run (step (fun _ => 0) 4) (setup [registrationState])
      [writeMessage "salt", pushTaken, clearMessage]).states, UpToDate 4 reg := by
  intro h
  obtain ⟨config, hknown, hsame⟩ := h _ (List.mem_singleton_self _) 0 (by decide) (by decide)
  cases hknown
  have hmessage : Config.object [("state", .uint8 0 3), ("message", .string "salt" 0 64)] =
      .object [("state", .uint8 0 3), ("message", .string "" 0 64)] := hsame
  simp at hmessage

end Esp32Firmware.Api
