import Esp32Firmware.Library.Run

/-!
# Automation rules

A trigger runs the action of every rule that it matches, at once or after the delay of the rule.
The configuration in use is replaced by a task, which cancels the delayed actions of the old one.

What is said about the actions of rules does not depend on how tasks are scheduled: an action is
fired, waits until it is executed, and is dropped when the rules are replaced. A rule is locked
until the time at which the delay of its action has elapsed.

## Implementation notes

Whether a trigger with its data has happened for a rule is a function that comes with the trigger.
Actions may raise triggers, which are handled before the action returns: the calls that are under
way form a stack. Times are in microseconds. The numbers of firings, the version of the
configuration in use and the lists of what was fired and executed are bookkeeping.
-/

namespace Esp32Firmware.Automation

inductive TriggerId where
  | none
  | cron
  | chargerState
  | mqtt
  | evseButton
  | nfc
  | chargeLimits
  | evseShutdownInput
  | evseGpInput
  | evseExternalCurrentWd
  | requireMeter
  | chargeManagerWd
  | emInputThree
  | emInputFour
  | emPhaseSwitch
  | emContactorMonitoring
  | pmPowerAvailable
  | pmGridPowerDraw
  | http
  | emInput
  | dayAheadPriceNow
  | emRelaySwitch
  | emSgReadySwitch
  | temperatureNow
  | meterValue
  | reboot
  | p14aEnwg
deriving DecidableEq, Repr

/-- An entry of `tasks`, with the configurations of its trigger and its action. -/
structure Rule (τ α : Type*) where
  trigger : TriggerId
  triggerConfig : τ
  actionConfig : α
  delay : Nat
  trigger_ne_none : trigger ≠ .none
  delay_le : delay ≤ 24 * 60 * 60

/-- Microseconds of a delay in seconds. -/
def seconds (n : Nat) : Nat := n * 1000000

/-- An action that a trigger has set off: when, and for which rule of which configuration. -/
structure Firing (τ α : Type*) where
  number : Nat
  version : Nat
  index : Nat
  rule : Rule τ α
  time : Nat

inductive TaskKind (τ α : Type*) where
  | applyConfig
  | reboot
  | cron
  | delayed (firing : Firing τ α)

structure Task (τ α : Type*) where
  id : Nat
  kind : TaskKind τ α
  deadline : Nat

/-- A call that is under way: the loop of a trigger at a rule, which may be waiting for the action
of the rule to return, or a delayed action. -/
inductive Frame (τ : Type*) where
  | loop (number : TriggerId) (hasTriggered : τ → Bool) (index : Nat) (calling : Bool)
  | delayed (taskId : Nat)

structure State (τ α : Type*) where
  config : List (Rule τ α) := []
  configInUse : Option (List (Rule τ α)) := none
  lastRun : List Nat := []
  lastRunState : List Nat := []
  pendingDelayedTasks : List Nat := []
  cronTaskId : Nat := 0
  tasks : List (Task τ α) := []
  lastTaskId : Nat := 0
  now : Nat := 0
  stack : List (Frame τ) := []
  version : Nat := 0
  fired : List (Firing τ α) := []
  executed : List (Firing τ α) := []

inductive Event (τ α : Type*) where
  | tick (time : Nat)
  | setup (loaded : Option (List (Rule τ α)))
  | update (rules : List (Rule τ α))
  | trigger (number : TriggerId) (hasTriggered : τ → Bool)
  | advance (drift : Nat)
  | runTask (taskId : Nat) (cron : Option (τ → Bool))

/-- The entry with a task ID makes room for the last one. -/
def swapRemove (ids : List Nat) (taskId : Nat) : List Nat :=
  match ids.findIdx? fun id => id = taskId with
  | none => ids
  | some j => (ids.set j (ids.getLastD taskId)).dropLast

namespace State

variable {τ α : Type*}

/-- `task_scheduler.scheduleOnce`, or with a fixed delay. -/
def schedule (s : State τ α) (kind : TaskKind τ α) (delay : Nat) : State τ α :=
  { s with
    lastTaskId := s.lastTaskId + 1
    tasks := s.tasks ++ [⟨s.lastTaskId + 1, kind, s.now + delay⟩] }

/-- `task_scheduler.cancel` -/
def cancel (s : State τ α) (taskId : Nat) : State τ α :=
  { s with tasks := s.tasks.filter fun task => task.id ≠ taskId }

def hasTaskWithTrigger (s : State τ α) (number : TriggerId) : Bool :=
  match s.configInUse with
  | none => false
  | some rules => rules.any fun rule => rule.trigger = number

def handleCronTask (s : State τ α) : State τ α :=
  let needCron := s.hasTaskWithTrigger .cron
  if needCron && s.cronTaskId = 0 then
    { s.schedule .cron 0 with cronTaskId := s.lastTaskId + 1 }
  else if !needCron && s.cronTaskId ≠ 0 then { s.cancel s.cronTaskId with cronTaskId := 0 }
  else s

/-- `setCount`, which cuts a list off or fills it up. -/
def setCount (values : List Nat) (count : Nat) : List Nat :=
  values.take count ++ List.replicate (count - values.length) 0

/-- `setup`, with the configuration that is stored if there is one. -/
def setup (s : State τ α) (loaded : Option (List (Rule τ α))) : State τ α :=
  if s.configInUse.isSome then s
  else
    let s := match loaded with
      | none => s
      | some rules => { s with config := rules }.schedule .applyConfig 0
    let s := { s with
      configInUse := some s.config
      lastRunState := setCount s.lastRunState s.config.length
      lastRun := List.replicate s.config.length 0 }
    s.handleCronTask.schedule .reboot 0

/-- A new configuration that the validator accepts. -/
def update (s : State τ α) (rules : List (Rule τ α)) : State τ α :=
  { s with config := rules }.schedule .applyConfig 0

def applyConfig (s : State τ α) : State τ α :=
  let s := s.pendingDelayedTasks.foldl cancel s
  let s := { s with
    pendingDelayedTasks := []
    configInUse := some s.config
    lastRun := List.replicate s.config.length 0
    lastRunState := (setCount s.lastRunState s.config.length).map fun _ => 0
    version := s.version + 1 }
  s.handleCronTask

/-- `trigger` starts with the first rule; before `setup` the event is lost. -/
def trigger (s : State τ α) (number : TriggerId) (hasTriggered : τ → Bool) : State τ α :=
  match s.configInUse with
  | none => s
  | some _ => { s with stack := .loop number hasTriggered 0 false :: s.stack }

/-- An iteration of the loop over the rules, for a rule whose trigger has happened. The task of a
delayed action is scheduled a little later than the time stamp is taken. -/
def fire (s : State τ α) (number : TriggerId) (hasTriggered : τ → Bool) (index : Nat)
    (rule : Rule τ α) (rest : List (Frame τ)) (drift : Nat) : State τ α :=
  let timestamp := s.now + seconds rule.delay
  let firing : Firing τ α := ⟨s.fired.length, s.version, index, rule, s.now⟩
  let s := { s with
    lastRun := s.lastRun.set index timestamp
    lastRunState := s.lastRunState.set index timestamp
    fired := s.fired ++ [firing] }
  if rule.delay > 0 then
    let s := s.schedule (.delayed firing) (drift + seconds rule.delay)
    { s with
      pendingDelayedTasks := s.pendingDelayedTasks ++ [s.lastTaskId]
      stack := .loop number hasTriggered (index + 1) false :: rest }
  else
    { s with
      executed := s.executed ++ [firing]
      stack := .loop number hasTriggered index true :: rest }

/-- `deadline_elapsed` -/
def deadlineElapsed (s : State τ α) (deadline : Nat) : Bool := deadline ≤ s.now

/-- The rule that the loop on top of the stack is at, if its trigger has happened. -/
def matching (s : State τ α) : Option (Nat × Rule τ α) :=
  match s.stack, s.configInUse with
  | .loop number hasTriggered index false :: _, some rules =>
    match rules[index]? with
    | none => none
    | some rule =>
      if rule.trigger = number && hasTriggered rule.triggerConfig then some (index, rule)
      else none
  | _, _ => none

/-- The call on top of the stack goes on: with the next rule, or after an action has returned. -/
def advance (s : State τ α) (drift : Nat) : State τ α :=
  match s.stack with
  | [] => s
  | .delayed taskId :: rest =>
    { s with
      pendingDelayedTasks := swapRemove s.pendingDelayedTasks taskId
      stack := rest }
  | .loop number hasTriggered index true :: rest =>
    { s with stack := .loop number hasTriggered (index + 1) false :: rest }
  | .loop number hasTriggered index false :: rest =>
    match (s.configInUse.getD [])[index]? with
    | none => { s with stack := rest }
    | some rule =>
      if !s.deadlineElapsed (s.lastRun.getD index 0) then
        { s with stack := .loop number hasTriggered (index + 1) false :: rest }
      else if rule.trigger = number && hasTriggered rule.triggerConfig then
        s.fire number hasTriggered index rule rest drift
      else { s with stack := .loop number hasTriggered (index + 1) false :: rest }

/-- An action that is being executed may raise triggers, and so may other tasks between calls. -/
def mayTrigger (s : State τ α) : Bool :=
  match s.stack with
  | [] => true
  | .delayed _ :: _ => true
  | .loop _ _ _ calling :: _ => calling

/-- The function of a task. The cron task, which is run again after a second, triggers when the
minute has changed. -/
def execute (s : State τ α) (task : Task τ α) (cron : Option (τ → Bool)) : State τ α :=
  match task.kind with
  | .applyConfig => (s.cancel task.id).applyConfig
  | .reboot => (s.cancel task.id).trigger .reboot fun _ => true
  | .cron =>
    let s := { s with
      tasks := s.tasks.map fun other =>
        { other with
          deadline := if other.id = task.id then s.now + seconds 1 else other.deadline } }
    match cron with
    | none => s
    | some hasTriggered => s.trigger .cron hasTriggered
  | .delayed firing =>
    { s.cancel task.id with
      executed := s.executed ++ [firing]
      stack := [.delayed task.id] }

/-- The scheduler runs a task that is due, when no other one is running. -/
def runTask (s : State τ α) (taskId : Nat) (cron : Option (τ → Bool)) : State τ α :=
  if s.stack.isEmpty then
    match s.tasks.find? fun task => task.id = taskId with
    | none => s
    | some task => if s.now < task.deadline then s else s.execute task cron
  else s

def step (s : State τ α) : Event τ α → State τ α
  | .tick time => { s with now := s.now + time }
  | .setup loaded => s.setup loaded
  | .update rules => if s.configInUse.isSome then s.update rules else s
  | .trigger number hasTriggered => if s.mayTrigger then s.trigger number hasTriggered else s
  | .advance drift => s.advance drift
  | .runTask taskId cron => s.runTask taskId cron

end State

variable {τ α : Type*}

/-- The time at which the delay of an action has elapsed. -/
def Firing.due (firing : Firing τ α) : Nat := firing.time + seconds firing.rule.delay

/-- The rules in use, the times that lock them, and the actions that were fired, were executed and
wait, each of the last with the deadline of its task. -/
structure Book (τ α : Type*) where
  version : Nat
  now : Nat
  rules : List (Rule τ α)
  locks : List Nat
  fired : List (Firing τ α)
  executed : List (Firing τ α)
  waiting : List (Nat × Firing τ α)

namespace Book

def isPending (b : Book τ α) (index : Nat) : Bool :=
  b.waiting.any fun entry => entry.2.index = index

def next (b : Book τ α) (index : Nat) (rule : Rule τ α) : Firing τ α :=
  ⟨b.fired.length, b.version, index, rule, b.now⟩

def tick (b : Book τ α) (time : Nat) : Book τ α := { b with now := b.now + time }

/-- New rules are in use. -/
def replace (b : Book τ α) (rules : List (Rule τ α)) : Book τ α :=
  { b with
    version := b.version + 1
    rules := rules
    locks := List.replicate rules.length 0
    waiting := [] }

def lock (b : Book τ α) (index : Nat) (rule : Rule τ α) : Book τ α :=
  { b with
    locks := b.locks.set index (b.next index rule).due
    fired := b.fired ++ [b.next index rule] }

def fireNow (b : Book τ α) (index : Nat) (rule : Rule τ α) : Book τ α :=
  { b.lock index rule with executed := b.executed ++ [b.next index rule] }

def fireLater (b : Book τ α) (index : Nat) (rule : Rule τ α) (deadline : Nat) : Book τ α :=
  { b.lock index rule with waiting := b.waiting ++ [(deadline, b.next index rule)] }

/-- An action that waited is executed, the others go on waiting. -/
def execute (b : Book τ α) (firing : Firing τ α) (rest : List (Nat × Firing τ α)) : Book τ α :=
  { b with executed := b.executed ++ [firing], waiting := rest }

/-- The actions that were executed or wait, each with its number. -/
def numbers (b : Book τ α) : List Nat :=
  b.executed.map Firing.number ++ b.waiting.map fun entry => entry.2.number

/-- Nothing is lost, nothing is executed twice, and a locked rule has an action that waits. -/
structure Sound (b : Book τ α) : Prop where
  valid : ∀ entry ∈ b.waiting, entry.2.version = b.version ∧ entry.2.due ≤ entry.1 ∧
    b.rules[entry.2.index]? = some entry.2.rule
  gate : ∀ index, b.now < b.locks.getD index 0 →
    ∃ entry ∈ b.waiting, entry.2.index = index ∧ b.locks.getD index 0 ≤ entry.1
  versions : ∀ firing ∈ b.fired, firing.number < b.fired.length ∧ firing.version ≤ b.version
  nodup : b.numbers.Nodup
  executed_fired : ∀ firing ∈ b.executed, firing ∈ b.fired
  waiting_fired : ∀ entry ∈ b.waiting, entry.2 ∈ b.fired
  settled : ∀ firing ∈ b.fired,
    firing ∈ b.executed ∨ (∃ entry ∈ b.waiting, entry.2 = firing) ∨ firing.version < b.version

/-- No two actions of one rule wait. -/
def Single (b : Book τ α) : Prop := (b.waiting.map fun entry => entry.2.index).Nodup

variable {b : Book τ α}

theorem isPending_iff {index : Nat} :
    b.isPending index = true ↔ ∃ entry ∈ b.waiting, entry.2.index = index := by
  simp [isPending]

theorem getD_replicate_zero (count index : Nat) : (List.replicate count 0).getD index 0 = 0 := by
  rw [List.getD_eq_getElem?_getD, List.getElem?_replicate]
  split <;> rfl

/-- A rule without a waiting action is not locked. -/
theorem Sound.unlocked (h : b.Sound) {index : Nat} (hpending : b.isPending index = false) :
    b.locks.getD index 0 ≤ b.now := by
  apply Nat.le_of_not_lt
  intro hlocked
  obtain ⟨entry, hentry, hindex, -⟩ := h.gate index hlocked
  have htrue : b.isPending index = true := isPending_iff.mpr ⟨entry, hentry, hindex⟩
  rw [hpending] at htrue
  exact Bool.false_ne_true htrue

namespace Sound

/-- The book with the first rules. -/
theorem blank (now : Nat) (rules : List (Rule τ α)) :
    (⟨0, now, rules, List.replicate rules.length 0, [], [], []⟩ : Book τ α).Sound where
  valid _ hentry := absurd hentry List.not_mem_nil
  gate index hlocked :=
    absurd (Nat.lt_of_lt_of_eq hlocked (getD_replicate_zero rules.length index))
      (Nat.not_lt_zero _)
  versions _ hfiring := absurd hfiring List.not_mem_nil
  nodup := List.nodup_nil
  executed_fired _ hfiring := absurd hfiring List.not_mem_nil
  waiting_fired _ hentry := absurd hentry List.not_mem_nil
  settled _ hfiring := absurd hfiring List.not_mem_nil

theorem tick (h : b.Sound) (time : Nat) : (b.tick time).Sound :=
  { h with
    gate := fun index hlocked => h.gate index (Nat.lt_of_le_of_lt (Nat.le_add_right _ _) hlocked) }

theorem replace (h : b.Sound) (rules : List (Rule τ α)) : (b.replace rules).Sound where
  valid _ hentry := absurd hentry List.not_mem_nil
  gate index hlocked :=
    absurd (Nat.lt_of_lt_of_eq hlocked (getD_replicate_zero rules.length index))
      (Nat.not_lt_zero _)
  versions firing hfiring :=
    ⟨(h.versions firing hfiring).1, Nat.le_succ_of_le (h.versions firing hfiring).2⟩
  nodup := by
    have hsub : (b.replace rules).numbers.Sublist b.numbers := by
      simp only [numbers, Book.replace, List.map_nil, List.append_nil]
      exact List.sublist_append_left _ _
    exact h.nodup.sublist hsub
  executed_fired := h.executed_fired
  waiting_fired _ hentry := absurd hentry List.not_mem_nil
  settled firing hfiring := .inr (.inr (Nat.lt_succ_of_le (h.versions firing hfiring).2))

theorem next_not_mem (h : b.Sound) : b.fired.length ∉ b.numbers := by
  intro hmem
  obtain hmem | hmem := List.mem_append.mp hmem
  · obtain ⟨firing, hfiring, heq⟩ := List.mem_map.mp hmem
    have hlt := (h.versions firing (h.executed_fired firing hfiring)).1
    omega
  · obtain ⟨entry, hentry, heq⟩ := List.mem_map.mp hmem
    have hlt := (h.versions entry.2 (h.waiting_fired entry hentry)).1
    omega

theorem versions_lock (h : b.Sound) (index : Nat) (rule : Rule τ α) :
    ∀ firing ∈ (b.lock index rule).fired,
      firing.number < (b.lock index rule).fired.length ∧ firing.version ≤ b.version := by
  intro firing hfiring
  rw [lock, List.length_append, List.length_singleton]
  obtain hfiring | hfiring := List.mem_append.mp hfiring
  · exact ⟨Nat.lt_succ_of_lt (h.versions firing hfiring).1, (h.versions firing hfiring).2⟩
  · obtain rfl := List.mem_singleton.mp hfiring
    exact ⟨Nat.lt_succ_self _, Nat.le_refl _⟩

theorem getD_set (locks : List Nat) (index other due : Nat) :
    (locks.set index due).getD other 0 =
      if other = index ∧ index < locks.length then due else locks.getD other 0 := by
  simp only [List.getD_eq_getElem?_getD, List.getElem?_set]
  by_cases heq : index = other
  · subst heq
    by_cases hlt : index < locks.length
    · simp [hlt]
    · simp [hlt]
  · simp [heq, Ne.symm heq]

theorem locks_lock (index : Nat) (rule : Rule τ α) :
    (b.lock index rule).locks = b.locks.set index (b.next index rule).due := rfl

variable {index deadline : Nat} {rule : Rule τ α}

/-- The lock of another rule stays, and that of the rule itself is the new one or is no lock. -/
theorem getD_lock {other : Nat} :
    (b.lock index rule).locks.getD other 0 =
      if other = index ∧ index < b.locks.length then (b.next index rule).due
      else b.locks.getD other 0 := by
  rw [locks_lock, getD_set]

theorem fireNow (h : b.Sound) (hdelay : rule.delay = 0) :
    (b.fireNow index rule).Sound where
  valid := h.valid
  gate other hlocked := by
    have hlocked : b.now < (b.lock index rule).locks.getD other 0 := hlocked
    have hgoal : ∃ entry ∈ b.waiting, entry.2.index = other ∧
        (b.lock index rule).locks.getD other 0 ≤ entry.1 := by
      rw [getD_lock] at hlocked ⊢
      split at hlocked
      · have hdue : (b.next index rule).due = b.now := by
          simp [Firing.due, next, hdelay, seconds]
        omega
      · next hne =>
          rw [if_neg hne]
          exact h.gate other hlocked
    exact hgoal
  versions := h.versions_lock index rule
  nodup := by
    have hperm : (b.fireNow index rule).numbers.Perm (b.fired.length :: b.numbers) := by
      simp only [numbers, Book.fireNow, List.map_append, List.map_cons, List.map_nil,
        List.append_assoc, List.singleton_append, lock]
      exact List.perm_middle
    exact hperm.nodup_iff.mpr (List.nodup_cons.mpr ⟨h.next_not_mem, h.nodup⟩)
  executed_fired firing hfiring := by
    obtain hfiring | hfiring := List.mem_append.mp hfiring
    · exact List.mem_append_left _ (h.executed_fired firing hfiring)
    · exact List.mem_append_right _ hfiring
  waiting_fired entry hentry := List.mem_append_left _ (h.waiting_fired entry hentry)
  settled firing hfiring := by
    obtain hfiring | hfiring := List.mem_append.mp hfiring
    · exact (h.settled firing hfiring).imp_left fun hexecuted => List.mem_append_left _ hexecuted
    · exact .inl (List.mem_append_right _ hfiring)

theorem fireLater (h : b.Sound) (hrule : b.rules[index]? = some rule)
    (hdeadline : (b.next index rule).due ≤ deadline) :
    (b.fireLater index rule deadline).Sound where
  valid entry hentry := by
    obtain hentry | hentry := List.mem_append.mp hentry
    · exact h.valid entry hentry
    · obtain rfl := List.mem_singleton.mp hentry
      exact ⟨rfl, hdeadline, hrule⟩
  gate other hlocked := by
    have hlocked : b.now < (b.lock index rule).locks.getD other 0 := hlocked
    have hgoal : ∃ entry ∈ b.waiting ++ [(deadline, b.next index rule)], entry.2.index = other ∧
        (b.lock index rule).locks.getD other 0 ≤ entry.1 := by
      rw [getD_lock] at hlocked ⊢
      split at hlocked
      · next heq =>
          rw [if_pos heq]
          exact ⟨_, List.mem_append_right _ (List.mem_singleton_self _), heq.1.symm, hdeadline⟩
      · next hne =>
          rw [if_neg hne]
          obtain ⟨entry, hentry, hindex, hle⟩ := h.gate other hlocked
          exact ⟨entry, List.mem_append_left _ hentry, hindex, hle⟩
    exact hgoal
  versions := h.versions_lock index rule
  nodup := by
    have hnumbers : (b.fireLater index rule deadline).numbers = b.numbers ++ [b.fired.length] := by
      simp [numbers, Book.fireLater, lock, next]
    rw [hnumbers]
    exact List.nodup_append.mpr ⟨h.nodup, List.nodup_singleton _, fun n hn m hm heq =>
      h.next_not_mem (List.mem_singleton.mp hm ▸ heq ▸ hn)⟩
  executed_fired firing hfiring := List.mem_append_left _ (h.executed_fired firing hfiring)
  waiting_fired entry hentry := by
    obtain hentry | hentry := List.mem_append.mp hentry
    · exact List.mem_append_left _ (h.waiting_fired entry hentry)
    · obtain rfl := List.mem_singleton.mp hentry
      exact List.mem_append_right _ (List.mem_singleton_self _)
  settled firing hfiring := by
    obtain hfiring | hfiring := List.mem_append.mp hfiring
    · obtain hexecuted | ⟨entry, hentry, heq⟩ | hversion := h.settled firing hfiring
      · exact .inl hexecuted
      · exact .inr (.inl ⟨entry, List.mem_append_left _ hentry, heq⟩)
      · exact .inr (.inr hversion)
    · obtain rfl := List.mem_singleton.mp hfiring
      exact .inr (.inl ⟨_, List.mem_append_right _ (List.mem_singleton_self _), rfl⟩)

theorem execute (h : b.Sound) {firing : Firing τ α} {rest : List (Nat × Firing τ α)}
    (hperm : b.waiting.Perm ((deadline, firing) :: rest)) (hdue : deadline ≤ b.now) :
    (b.execute firing rest).Sound where
  valid entry hentry := h.valid entry (hperm.mem_iff.mpr (List.mem_cons_of_mem _ hentry))
  gate index hlocked := by
    obtain ⟨entry, hentry, hindex, hle⟩ := h.gate index hlocked
    obtain rfl | hentry := List.mem_cons.mp (hperm.mem_iff.mp hentry)
    · have hlocked : b.now < b.locks.getD index 0 := hlocked
      have hle : b.locks.getD index 0 ≤ deadline := hle
      omega
    · exact ⟨entry, hentry, hindex, hle⟩
  versions := h.versions
  nodup := by
    have hnumbers : b.numbers.Perm (b.execute firing rest).numbers := by
      simp only [numbers, Book.execute, List.map_append, List.map_cons, List.map_nil,
        List.append_assoc, List.singleton_append]
      exact (hperm.map fun entry => entry.2.number).append_left _
    exact hnumbers.nodup_iff.mp h.nodup
  executed_fired f hf := by
    obtain hf | hf := List.mem_append.mp hf
    · exact h.executed_fired f hf
    · obtain rfl := List.mem_singleton.mp hf
      exact h.waiting_fired _ (hperm.mem_iff.mpr List.mem_cons_self)
  waiting_fired entry hentry :=
    h.waiting_fired entry (hperm.mem_iff.mpr (List.mem_cons_of_mem _ hentry))
  settled f hf := by
    obtain hexecuted | ⟨entry, hentry, heq⟩ | hversion := h.settled f hf
    · exact .inl (List.mem_append_left _ hexecuted)
    · obtain rfl | hentry := List.mem_cons.mp (hperm.mem_iff.mp hentry)
      · exact .inl (List.mem_append_right _ (List.mem_singleton.mpr heq.symm))
      · exact .inr (.inl ⟨entry, hentry, heq⟩)
    · exact .inr (.inr hversion)

end Sound

namespace Single

theorem fireLater (h : b.Single) {index : Nat} {rule : Rule τ α} {deadline : Nat}
    (hpending : b.isPending index = false) : (b.fireLater index rule deadline).Single := by
  have hindices : (b.fireLater index rule deadline).waiting.map (fun entry => entry.2.index) =
      b.waiting.map (fun entry => entry.2.index) ++ [index] := by
    simp [Book.fireLater, next]
  rw [Single, hindices]
  refine List.nodup_append.mpr ⟨h, List.nodup_singleton _, ?_⟩
  intro i hi j hj heq
  obtain ⟨entry, hentry, hindex⟩ := List.mem_map.mp hi
  obtain rfl := List.mem_singleton.mp hj
  have htrue : b.isPending j = true := isPending_iff.mpr ⟨entry, hentry, hindex.trans heq⟩
  rw [hpending] at htrue
  exact Bool.false_ne_true htrue

theorem execute (h : b.Single) {deadline : Nat} {firing : Firing τ α}
    {rest : List (Nat × Firing τ α)} (hperm : b.waiting.Perm ((deadline, firing) :: rest)) :
    (b.execute firing rest).Single := by
  have hindices := hperm.map fun entry => entry.2.index
  exact (List.nodup_cons.mp (hindices.nodup_iff.mp h)).2

end Single

end Book

end Esp32Firmware.Automation
