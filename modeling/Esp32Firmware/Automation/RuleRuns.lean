import Esp32Firmware.Automation.PendingTasks

/-!
# Every trigger fires once

A trigger that matches a rule fires its action exactly once, unless the earlier action of the rule
is still to come. The rule is locked by the time at which its delay has elapsed, which comes
somewhat before the task of the action is run: a trigger between the two fires the rule again.

## Implementation notes

Each event of the code changes the book of firings in one of the ways that the book has, which is
how the code is connected to it.
-/

namespace Esp32Firmware.Automation

namespace State

variable {τ α : Type*}

@[simp] theorem book_trigger (s : State τ α) (number : TriggerId) (hasTriggered : τ → Bool) :
    (s.trigger number hasTriggered).book = s.book := by
  rw [trigger]
  split <;> rfl

theorem book_fire {s : State τ α} (number : TriggerId) (hasTriggered : τ → Bool) (index : Nat)
    (rule : Rule τ α) (rest : List (Frame τ)) (drift : Nat) :
    (s.fire number hasTriggered index rule rest drift).book =
      if rule.delay = 0 then s.book.fireNow index rule
      else s.book.fireLater index rule (s.now + (drift + seconds rule.delay)) := by
  rw [fire]
  by_cases hdelay : rule.delay = 0
  · rw [if_neg (by omega), if_pos hdelay]
    rfl
  · rw [if_pos (by omega), if_neg hdelay]
    simp only [book, waiting, schedule, List.filterMap_append]
    rfl

/-- The loop is at no rule whose trigger has happened: the call goes on with the next rule, or it
returns. -/
theorem advance_of_none {s : State τ α} (h : s.matching = none) (drift : Nat) :
    (s.stack = [] ∧ s.advance drift = s) ∨
    (∃ taskId rest, s.stack = .delayed taskId :: rest ∧ s.advance drift =
      { s with pendingDelayedTasks := swapRemove s.pendingDelayedTasks taskId, stack := rest }) ∨
    ∃ number hasTriggered index calling rest stack,
      s.stack = .loop number hasTriggered index calling :: rest ∧
      s.advance drift = { s with stack := stack } ∧
      (stack = rest ∨ stack = .loop number hasTriggered (index + 1) false :: rest) := by
  obtain ⟨stack, hstack⟩ : ∃ stack, s.stack = stack := ⟨_, rfl⟩
  rw [advance.eq_def]
  rw [matching.eq_def] at h
  rw [hstack] at h ⊢
  cases stack with
  | nil => exact .inl ⟨rfl, rfl⟩
  | cons frame rest =>
    cases frame with
    | delayed taskId => exact .inr (.inl ⟨taskId, rest, rfl, rfl⟩)
    | loop number hasTriggered index calling =>
      refine .inr (.inr ⟨number, hasTriggered, index, calling, rest, ?_⟩)
      cases calling with
      | true => exact ⟨_, rfl, rfl, .inr rfl⟩
      | false =>
        obtain hrules | ⟨rules, hrules⟩ := Option.eq_none_or_eq_some s.configInUse
        · simp only [hrules]
          exact ⟨_, trivial, rfl, .inl rfl⟩
        · simp only [hrules, Option.getD_some] at h ⊢
          obtain hrule | ⟨rule, hrule⟩ := Option.eq_none_or_eq_some rules[index]?
          · simp only [hrule]
            exact ⟨_, trivial, rfl, .inl rfl⟩
          · simp only [hrule] at h ⊢
            split at h
            · exact absurd h (Option.some_ne_none _)
            · next hno =>
                split <;> exact ⟨_, trivial, rfl, .inr rfl⟩

theorem book_advance_of_none {s : State τ α} (h : s.matching = none) (drift : Nat) :
    (s.advance drift).book = s.book := by
  obtain ⟨-, heq⟩ | ⟨taskId, rest, -, heq⟩ | ⟨_, _, _, _, _, stack, -, heq, -⟩ :=
    advance_of_none h drift
  · rw [heq]
  · rw [heq]
    rfl
  · rw [heq]
    rfl

variable {index : Nat} {rule : Rule τ α}

theorem matching_eq_some {s : State τ α} (h : s.matching = some (index, rule)) :
    ∃ number hasTriggered rest rules, s.stack = .loop number hasTriggered index false :: rest ∧
      s.configInUse = some rules ∧ rules[index]? = some rule ∧
      (rule.trigger = number && hasTriggered rule.triggerConfig) = true := by
  rw [matching.eq_def] at h
  split at h
  · next number hasTriggered i rest rules hstack hrules =>
      split at h
      · exact absurd h.symm (Option.some_ne_none _)
      · next r hrule =>
          split at h
          · next hmatch =>
              obtain ⟨rfl, rfl⟩ := Prod.mk.inj (Option.some.inj h)
              exact ⟨number, hasTriggered, rest, rules, hstack, hrules, hrule, hmatch⟩
          · exact absurd h.symm (Option.some_ne_none _)
  · exact absurd h.symm (Option.some_ne_none _)

/-- A rule that matches is fired unless it is locked. -/
theorem advance_of_matching {s : State τ α} (h : s.matching = some (index, rule)) (drift : Nat) :
    ∃ number hasTriggered rest, s.stack = .loop number hasTriggered index false :: rest ∧
      s.advance drift = if s.now < s.lastRun.getD index 0 then
          { s with stack := .loop number hasTriggered (index + 1) false :: rest }
        else s.fire number hasTriggered index rule rest drift := by
  obtain ⟨number, hasTriggered, rest, rules, hstack, hrules, hrule, hmatch⟩ := matching_eq_some h
  refine ⟨number, hasTriggered, rest, hstack, ?_⟩
  rw [advance.eq_def, hstack]
  dsimp only
  rw [hrules, Option.getD_some, hrule]
  dsimp only
  by_cases hlocked : s.now < s.lastRun.getD index 0
  · rw [if_pos hlocked, if_pos (by simpa [deadlineElapsed] using hlocked)]
  · rw [if_neg hlocked, if_neg (by simpa [deadlineElapsed] using hlocked), if_pos hmatch]

theorem book_advance_of_matching {s : State τ α} {index : Nat} {rule : Rule τ α}
    (h : s.matching = some (index, rule)) (drift : Nat) :
    (s.advance drift).book = if s.now < s.lastRun.getD index 0 then s.book
      else if rule.delay = 0 then s.book.fireNow index rule
      else s.book.fireLater index rule (s.now + (drift + seconds rule.delay)) := by
  obtain ⟨number, hasTriggered, rest, -, hadvance⟩ := advance_of_matching h drift
  rw [hadvance]
  split
  · rfl
  · exact book_fire ..

theorem foldl_cancel (ids : List Nat) (s : State τ α) :
    ids.foldl cancel s = { s with tasks := s.tasks.filter fun task => task.id ∉ ids } := by
  induction ids generalizing s with
  | nil => simp
  | cons id rest ih =>
    rw [List.foldl_cons, ih]
    simp [cancel, Bool.and_comm]

/-- The state in which a new configuration is in use, before the cron task is handled. -/
def replaced (s : State τ α) : State τ α :=
  { s with
    tasks := s.tasks.filter fun task => task.id ∉ s.pendingDelayedTasks
    pendingDelayedTasks := []
    configInUse := some s.config
    lastRun := List.replicate s.config.length 0
    lastRunState := (setCount s.lastRunState s.config.length).map fun _ => 0
    version := s.version + 1 }

theorem applyConfig_eq (s : State τ α) : s.applyConfig = s.replaced.handleCronTask := by
  rw [applyConfig, foldl_cancel]
  rfl

section

variable {s : State τ α} (h : s.TaskTable)
include h

theorem TaskTable.replaced : s.replaced.TaskTable :=
  h.cancelPending.1.ofStack rfl rfl rfl rfl fun _ hid => hid

theorem book_replaced : s.replaced.book = s.book.replace s.config := by
  have hwaiting : s.replaced.waiting = [] := by
    refine List.filterMap_eq_nil_iff.mpr fun task htask => ?_
    rw [h.cancelPending.2 task htask]
    rfl
  rw [book, hwaiting]
  rfl

theorem book_applyConfig : s.applyConfig.book = s.book.replace s.config := by
  rw [applyConfig_eq, book_handleCronTask h.replaced, book_replaced h]

end

/-- There is a configuration in use, with an entry in both lists for each of its rules. -/
structure Running (s : State τ α) : Prop where
  inUse : s.configInUse.isSome = true
  lastRun : s.lastRun.length = (s.configInUse.getD []).length
  lastRunState : s.lastRunState.length = (s.configInUse.getD []).length
  cron : s.cronTaskId ≠ 0 ↔ s.hasTaskWithTrigger .cron = true
  table : s.TaskTable
  sound : s.book.Sound

theorem mem_of_mem_loop {id index : Nat} {number : TriggerId} {hasTriggered : τ → Bool}
    {calling : Bool} {rest : List (Frame τ)}
    (h : Frame.delayed id ∈ .loop number hasTriggered index calling :: rest) :
    Frame.delayed id ∈ rest := by
  simpa using h

theorem length_setCount (values : List Nat) (count : Nat) :
    (setCount values count).length = count := by
  rw [setCount, List.length_append, List.length_take, List.length_replicate]
  omega

theorem hasTaskWithTrigger_congr {s s' : State τ α} (h : s'.configInUse = s.configInUse)
    (number : TriggerId) : s'.hasTaskWithTrigger number = s.hasTaskWithTrigger number := by
  rw [hasTaskWithTrigger, hasTaskWithTrigger, h]

namespace Running

variable {s s' : State τ α}

section

variable (h : s.Running)
include h

/-- The configuration in use and the cron task stay the same. -/
theorem keep (hrules : s'.configInUse = s.configInUse)
    (hlast : s'.lastRun.length = s.lastRun.length)
    (hstate : s'.lastRunState.length = s.lastRunState.length)
    (hcron : s'.cronTaskId = s.cronTaskId) (htable : s'.TaskTable) (hsound : s'.book.Sound) :
    s'.Running where
  inUse := hrules ▸ h.inUse
  lastRun := by rw [hlast, hrules]; exact h.lastRun
  lastRunState := by rw [hstate, hrules]; exact h.lastRunState
  cron := by rw [hcron, hasTaskWithTrigger_congr hrules]; exact h.cron
  table := htable
  sound := hsound

theorem tick (time : Nat) : ({ s with now := s.now + time } : State τ α).Running :=
  h.keep rfl rfl rfl rfl (h.table.ofStack rfl rfl rfl rfl fun _ hid => hid) (h.sound.tick time)

/-- A task that is neither a cron task nor a delayed action. -/
theorem schedule {kind : TaskKind τ α} {delay : Nat}
    (hcron : ∀ id deadline, (⟨id, kind, deadline⟩ : Task τ α).isCron = false)
    (hfiring : ∀ id deadline, (⟨id, kind, deadline⟩ : Task τ α).firing = none) :
    (s.schedule kind delay).Running := by
  refine h.keep rfl rfl rfl rfl (h.table.schedule hcron hfiring) ?_
  rw [book_schedule hfiring]
  exact h.sound

theorem update (rules : List (Rule τ α)) : (s.update rules).Running := by
  have hconfig : ({ s with config := rules } : State τ α).Running :=
    h.keep rfl rfl rfl rfl (h.table.ofStack rfl rfl rfl rfl fun _ hid => hid) h.sound
  exact hconfig.schedule (fun _ _ => rfl) fun _ _ => rfl

theorem trigger (number : TriggerId) (hasTriggered : τ → Bool) :
    (s.trigger number hasTriggered).Running := by
  have hsound : (s.trigger number hasTriggered).book.Sound := by
    rw [book_trigger]
    exact h.sound
  rw [State.trigger] at hsound ⊢
  split at hsound
  · exact h
  · refine h.keep rfl rfl rfl rfl (h.table.ofStack rfl rfl rfl rfl fun id hid => ?_) hsound
    exact mem_of_mem_loop hid

theorem fire {number : TriggerId} {hasTriggered : τ → Bool} {index : Nat}
    {rule : Rule τ α} {rest : List (Frame τ)} {drift : Nat}
    (hstack : s.stack = .loop number hasTriggered index false :: rest)
    (hrule : (s.configInUse.getD [])[index]? = some rule) :
    (s.fire number hasTriggered index rule rest drift).Running := by
  have hsound : (s.fire number hasTriggered index rule rest drift).book.Sound := by
    rw [book_fire]
    split
    · next hdelay => exact h.sound.fireNow hdelay
    · refine h.sound.fireLater hrule ?_
      have hdue : (s.book.next index rule).due = s.now + seconds rule.delay := rfl
      omega
  have hframes : ∀ calling i id, Frame.delayed id ∈ .loop number hasTriggered i calling :: rest →
      Frame.delayed id ∈ s.stack := by
    intro calling i id hid
    rw [hstack]
    exact List.mem_cons_of_mem _ (mem_of_mem_loop hid)
  rw [State.fire] at hsound ⊢
  by_cases hdelay : rule.delay > 0
  · rw [if_pos hdelay] at hsound ⊢
    refine h.keep rfl List.length_set List.length_set rfl ?_ hsound
    exact (h.table.scheduleDelayed _ _).ofStack rfl rfl rfl rfl (hframes false (index + 1))
  · rw [if_neg hdelay] at hsound ⊢
    refine h.keep rfl List.length_set List.length_set rfl ?_ hsound
    exact h.table.ofStack rfl rfl rfl rfl (hframes true index)

theorem advance (drift : Nat) : (s.advance drift).Running := by
  obtain hnone | ⟨⟨index, rule⟩, hmatch⟩ := Option.eq_none_or_eq_some s.matching
  · have hsound : (s.advance drift).book.Sound := by
      rw [book_advance_of_none hnone]
      exact h.sound
    obtain ⟨-, heq⟩ | ⟨taskId, rest, hstack, heq⟩ |
      ⟨number, hasTriggered, index, calling, rest, stack, hstack, heq, hnext⟩ :=
      advance_of_none hnone drift
    · rw [heq]
      exact h
    · rw [heq] at hsound ⊢
      exact h.keep rfl rfl rfl rfl (h.table.finishDelayed hstack) hsound
    · rw [heq] at hsound ⊢
      refine h.keep rfl rfl rfl rfl (h.table.ofStack rfl rfl rfl rfl fun id hid => ?_) hsound
      rw [hstack]
      apply List.mem_cons_of_mem
      obtain rfl | rfl := hnext
      · exact hid
      · exact mem_of_mem_loop hid
  · obtain ⟨number, hasTriggered, rest, rules, hstack, hrules, hrule, -⟩ := matching_eq_some hmatch
    have hrule : (s.configInUse.getD [])[index]? = some rule := by rw [hrules]; exact hrule
    obtain ⟨number, hasTriggered, rest, hstack, heq⟩ := advance_of_matching hmatch drift
    rw [heq]
    split
    · refine h.keep rfl rfl rfl rfl (h.table.ofStack rfl rfl rfl rfl fun id hid => ?_) h.sound
      rw [hstack]
      exact List.mem_cons_of_mem _ (mem_of_mem_loop hid)
    · exact h.fire hstack hrule

end

/-- A configuration is in use from now on, whether there was one before or not. -/
theorem handleCronTask (hinUse : s.configInUse.isSome = true)
    (hlast : s.lastRun.length = (s.configInUse.getD []).length)
    (hstate : s.lastRunState.length = (s.configInUse.getD []).length) (htable : s.TaskTable)
    (hsound : s.book.Sound) : s.handleCronTask.Running := by
  obtain ⟨hrules, hlastRun, hlastRunState, -⟩ := core_handleCronTask s
  exact
    { inUse := hrules ▸ hinUse
      lastRun := by rw [hlastRun, hrules]; exact hlast
      lastRunState := by rw [hlastRunState, hrules]; exact hstate
      cron := by rw [hasTaskWithTrigger_congr hrules]; exact htable.handleCronTask.2
      table := htable.handleCronTask.1
      sound := by rw [book_handleCronTask htable]; exact hsound }

theorem applyConfig (htable : s.TaskTable) (hsound : s.book.Sound) : s.applyConfig.Running := by
  rw [applyConfig_eq]
  refine handleCronTask rfl ?_ ?_ htable.replaced ?_
  · exact List.length_replicate
  · exact (List.length_map _).trans (length_setCount _ _)
  · rw [book_replaced htable]
    exact hsound.replace s.config

/-- `setup` finds the state as it is at power-up. -/
theorem setup (now : Nat) (loaded : Option (List (Rule τ α))) :
    (({ now := now } : State τ α).setup loaded).Running ∧
      (({ now := now } : State τ α).setup loaded).book =
        ⟨0, now, loaded.getD [], List.replicate (loaded.getD []).length 0, [], [], []⟩ := by
  obtain ⟨tasks, lastTaskId, hsetup, htable, hwaiting⟩ :
      ∃ (tasks : List (Task τ α)) (lastTaskId : Nat), ({ now := now } : State τ α).setup loaded =
          (({ now := now
              config := loaded.getD []
              configInUse := some (loaded.getD [])
              lastRun := List.replicate (loaded.getD []).length 0
              lastRunState := setCount [] (loaded.getD []).length
              tasks := tasks
              lastTaskId := lastTaskId } : State τ α).handleCronTask).schedule .reboot 0 ∧
        ({ now := now, tasks := tasks, lastTaskId := lastTaskId } : State τ α).TaskTable ∧
        ({ now := now, tasks := tasks } : State τ α).waiting = [] := by
    have hblank : ({ now := now } : State τ α).TaskTable :=
      ⟨List.nodup_nil, by simp, by simp, by simp, Nat.le_refl _, by simp, by simp, by simp⟩
    cases loaded with
    | none => exact ⟨[], 0, rfl, hblank, rfl⟩
    | some rules =>
      refine ⟨_, 1, rfl, ?_, rfl⟩
      exact (@State.TaskTable.schedule _ _ _ hblank .applyConfig 0 (fun _ _ => rfl)
        fun _ _ => rfl).ofStack rfl rfl rfl rfl fun _ hid => hid
  rw [hsetup]
  generalize loaded.getD [] = rules
  have htable' : ({ now := now
                    config := rules
                    configInUse := some rules
                    lastRun := List.replicate rules.length 0
                    lastRunState := setCount [] rules.length
                    tasks := tasks
                    lastTaskId := lastTaskId } : State τ α).TaskTable :=
    htable.ofStack rfl rfl rfl rfl fun _ hid => hid
  have hbook : ({ now := now
                  config := rules
                  configInUse := some rules
                  lastRun := List.replicate rules.length 0
                  lastRunState := setCount [] rules.length
                  tasks := tasks
                  lastTaskId := lastTaskId } : State τ α).book =
      ⟨0, now, rules, List.replicate rules.length 0, [], [],
        ({ now := now, tasks := tasks } : State τ α).waiting⟩ := rfl
  rw [hwaiting] at hbook
  constructor
  · refine (handleCronTask rfl List.length_replicate (length_setCount _ _) htable' ?_).schedule
      (fun _ _ => rfl) fun _ _ => rfl
    rw [hbook]
    exact Book.Sound.blank now rules
  · rw [book_schedule fun _ _ => rfl, book_handleCronTask htable', hbook]

/-- A task other than the cron task and the delayed actions is over. -/
theorem cancel (h : s.Running) {task : Task τ α} (htask : task ∈ s.tasks)
    (hcron : task.isCron = false) (hfiring : task.firing = none) (hstack : s.stack = []) :
    (s.cancel task.id).Running ∧ (s.cancel task.id).book = s.book := by
  have htable : (s.cancel task.id).TaskTable := by
    refine (h.table.run htask hcron [] fun id hid => absurd hid List.not_mem_nil).ofStack
      rfl rfl rfl rfl fun id hid => ?_
    exact hstack ▸ hid
  have hbook : (s.cancel task.id).book = s.book := by
    rw [book, waiting_cancel fun other hother hid => ?_]
    · rfl
    · rw [List.inj_on_of_nodup_map h.table.nodup hother htask hid]
      exact hfiring
  refine ⟨h.keep rfl rfl rfl rfl htable ?_, hbook⟩
  rw [hbook]
  exact h.sound

/-- The function of a task does nothing to the book, replaces the rules or executes the action that
waited in the task. -/
theorem execute (h : s.Running) {task : Task τ α} (htask : task ∈ s.tasks) (hstack : s.stack = [])
    (hdue : task.deadline ≤ s.now) (cron : Option (τ → Bool)) :
    (s.execute task cron).Running ∧ (task.firing = none → (s.execute task cron).book = s.book ∨
        (s.execute task cron).book = s.book.replace s.config) ∧
      ∀ firing, task.firing = some firing → (s.execute task cron).book =
        s.book.execute firing (s.cancel task.id).waiting := by
  obtain ⟨id, kind, deadline⟩ := task
  cases kind with
  | applyConfig =>
    obtain ⟨hrunning, hbook⟩ := h.cancel htask rfl rfl hstack
    refine ⟨applyConfig hrunning.table hrunning.sound, fun _ => .inr ?_,
      fun firing hfiring => absurd hfiring (Option.some_ne_none _).symm⟩
    exact (book_applyConfig hrunning.table).trans (by rw [hbook]; rfl)
  | reboot =>
    obtain ⟨hrunning, hbook⟩ := h.cancel htask rfl rfl hstack
    refine ⟨hrunning.trigger _ _, fun _ => .inl ?_,
      fun firing hfiring => absurd hfiring (Option.some_ne_none _).symm⟩
    exact (book_trigger _ _ _).trans hbook
  | cron =>
    obtain ⟨s', hs'⟩ : ∃ s' : State τ α, s' = { s with
      tasks := s.tasks.map fun other =>
        { other with
          deadline := if other.id = id then s.now + seconds 1 else other.deadline } } :=
      ⟨_, rfl⟩
    have hbook : s'.book = s.book := by
      have hwaiting : s'.waiting = s.waiting := by
        rw [hs', waiting, waiting, List.filterMap_map]
        refine List.filterMap_congr fun other hother => ?_
        by_cases hid : other.id = id
        · obtain rfl := List.inj_on_of_nodup_map h.table.nodup hother htask hid
          rfl
        · simp only [Function.comp_apply, if_neg hid]
      rw [book, hwaiting, hs']
      rfl
    have hrunning : s'.Running := by
      refine h.keep (by rw [hs']) (by rw [hs']) (by rw [hs']) (by rw [hs']) ?_ ?_
      · rw [hs']
        exact h.table.mapDeadline _
      · rw [hbook]
        exact h.sound
    refine ⟨?_, fun _ => .inl ?_,
      fun firing hfiring => absurd hfiring (Option.some_ne_none _).symm⟩
    · simp only [State.execute]
      rw [← hs']
      cases cron with
      | none => exact hrunning
      | some hasTriggered => exact hrunning.trigger _ _
    · simp only [State.execute]
      rw [← hs']
      cases cron with
      | none => exact hbook
      | some hasTriggered => exact (book_trigger _ _ _).trans hbook
  | delayed firing =>
    have hbook : (s.execute ⟨id, .delayed firing, deadline⟩ cron).book =
        s.book.execute firing (s.cancel id).waiting := rfl
    refine ⟨?_, fun hnone => absurd hnone (Option.some_ne_none _), fun other hother => ?_⟩
    · refine h.keep rfl rfl rfl rfl ?_ ?_
      · refine (h.table.run htask rfl [.delayed id] fun other hother => ?_).ofStack
          rfl rfl rfl rfl fun _ hid => hid
        simpa using hother
      · rw [hbook]
        exact h.sound.execute (waiting_perm h.table htask rfl) hdue
    · obtain rfl := Option.some.inj hother
      exact hbook

end Running

/-- A trigger does not come between the time at which the delay of an action has elapsed and the
execution of the action, for a rule that it matches. -/
def OnTime (s : State τ α) : Event τ α → Bool
  | .advance _ =>
    match s.matching with
    | none => true
    | some (index, _) => !s.book.isPending index || s.now < s.lastRun.getD index 0
  | _ => true

/-- What a call that goes on does to the book: a rule that matches is fired, unless an action of it
waits. -/
def Fires (s : State τ α) (b : Book τ α) : Prop :=
  match s.matching with
  | none => b = s.book
  | some (index, rule) =>
    if s.book.isPending index then b = s.book
    else if rule.delay = 0 then b = s.book.fireNow index rule
    else ∃ deadline, (s.book.next index rule).due ≤ deadline ∧
      b = s.book.fireLater index rule deadline

/-- An action that waited is executed after its delay, for a rule of the configuration in use. -/
def Executes (s : State τ α) (firing : Firing τ α) (b : Book τ α) : Prop :=
  firing.version = s.version ∧ firing.due ≤ s.now ∧
    (s.configInUse.getD [])[firing.index]? = some firing.rule ∧
    ∃ deadline rest, s.waiting.Perm ((deadline, firing) :: rest) ∧ b = s.book.execute firing rest

/-- The loop of a trigger comes to each rule in turn. -/
def Visits (s s' : State τ α) : Prop :=
  ∀ number hasTriggered index calling rest,
    s.stack = .loop number hasTriggered index calling :: rest →
    index < (s.configInUse.getD []).length →
    s'.stack = .loop number hasTriggered (index + 1) false :: rest ∨
      (calling = false ∧ s'.stack = .loop number hasTriggered index true :: rest)

def Obeys (s : State τ α) (event : Event τ α) : Prop :=
  match event with
  | .tick time => (s.step event).book = s.book.tick time
  | .setup loaded =>
    if s.configInUse.isSome then (s.step event).book = s.book
    else (s.step event).book = ⟨0, s.now, loaded.getD [],
      List.replicate (loaded.getD []).length 0, [], [], []⟩
  | .update _ => (s.step event).book = s.book
  | .trigger number hasTriggered =>
    (s.step event).book = s.book ∧ (s.configInUse.isSome = true → s.mayTrigger = true →
        (s.step event).stack = .loop number hasTriggered 0 false :: s.stack)
  | .advance _ => s.Fires (s.step event).book ∧ s.Visits (s.step event)
  | .runTask taskId _ =>
    ((s.step event).book = s.book ∨ (s.step event).book = s.book.replace s.config ∨
      ∃ firing, s.Executes firing (s.step event).book) ∧
    ∀ task ∈ s.tasks, task.id = taskId → s.stack = [] → task.deadline ≤ s.now →
      ∀ firing, task.firing = some firing → s.Executes firing (s.step event).book

/-- What holds between events. -/
structure Kept (s : State τ α) : Prop where
  lastRun : s.lastRun.length = (s.configInUse.getD []).length
  lastRunState : s.lastRunState.length = (s.configInUse.getD []).length
  single : s.book.Single
  once : s.book.numbers.Nodup
  executed : ∀ firing ∈ s.executed, firing ∈ s.fired
  settled : ∀ firing ∈ s.fired, firing ∈ s.executed ∨ (∃ entry ∈ s.waiting, entry.2 = firing) ∨
    firing.version < s.version
  cron : (∃ task ∈ s.tasks, task.isCron = true) ↔ s.hasTaskWithTrigger .cron = true
  one_cron : ∀ task ∈ s.tasks, ∀ other ∈ s.tasks, task.isCron = true → other.isCron = true →
    task = other

def Invariant (s : State τ α) : Prop := s = { now := s.now } ∨ s.Running

variable {s : State τ α}

theorem Running.fires (h : s.Running) {drift : Nat} (hok : s.OnTime (.advance drift) = true) :
    s.Fires (s.advance drift).book := by
  obtain hnone | ⟨⟨index, rule⟩, hmatch⟩ := Option.eq_none_or_eq_some s.matching
  · simp only [Fires, hnone]
    exact book_advance_of_none hnone drift
  · simp only [Fires, OnTime, hmatch] at hok ⊢
    rw [book_advance_of_matching hmatch]
    cases hpending : s.book.isPending index with
    | true =>
      have hlocked : s.now < s.lastRun.getD index 0 := by simpa [hpending] using hok
      rw [if_pos hlocked, if_pos rfl]
    | false =>
      have hunlocked : s.lastRun.getD index 0 ≤ s.now := h.sound.unlocked hpending
      rw [if_neg (Nat.not_lt.mpr hunlocked), if_neg Bool.false_ne_true]
      by_cases hdelay : rule.delay = 0
      · rw [if_pos hdelay, if_pos hdelay]
      · rw [if_neg hdelay, if_neg hdelay]
        refine ⟨_, ?_, rfl⟩
        have hdue : (s.book.next index rule).due = s.now + seconds rule.delay := rfl
        omega

/-- A rule that is fired is followed by the next one, after its action has returned. -/
theorem visits_advance (s : State τ α) (drift : Nat) : s.Visits (s.advance drift) := by
  intro number hasTriggered index calling rest hstack hindex
  rw [advance.eq_def, hstack]
  cases calling with
  | true => exact .inl rfl
  | false =>
    simp only [List.getElem?_eq_getElem hindex]
    split
    · exact .inl rfl
    · split
      · rw [fire]
        split
        · exact .inl rfl
        · exact .inr ⟨trivial, rfl⟩
      · exact .inl rfl

theorem find_of_mem (h : s.TaskTable) {task : Task τ α} (htask : task ∈ s.tasks) :
    (s.tasks.find? fun other => other.id = task.id) = some task := by
  obtain hnone | ⟨other, hother⟩ :=
    Option.eq_none_or_eq_some (s.tasks.find? fun other => other.id = task.id)
  · exact absurd (decide_eq_true rfl) (List.find?_eq_none.mp hnone task htask)
  · have hid : other.id = task.id := by simpa using List.find?_some hother
    rw [hother, List.inj_on_of_nodup_map h.nodup (List.mem_of_find?_eq_some hother) htask hid]

theorem runTask_of_due (h : s.TaskTable) {task : Task τ α} (htask : task ∈ s.tasks)
    (hstack : s.stack = []) (hdue : task.deadline ≤ s.now) (cron : Option (τ → Bool)) :
    s.runTask task.id cron = s.execute task cron := by
  rw [runTask, hstack, find_of_mem h htask]
  simp [hdue]

/-- The scheduler runs nothing, or a task that is due. -/
theorem runTask_cases (s : State τ α) (taskId : Nat) (cron : Option (τ → Bool)) :
    s.runTask taskId cron = s ∨
      ∃ task ∈ s.tasks, task.id = taskId ∧ s.stack = [] ∧ task.deadline ≤ s.now ∧
        s.runTask taskId cron = s.execute task cron := by
  rw [runTask]
  split
  · next hempty =>
      obtain hnone | ⟨task, htask⟩ :=
        Option.eq_none_or_eq_some (s.tasks.find? fun task => task.id = taskId)
      · rw [hnone]
        exact .inl rfl
      · rw [htask]
        dsimp only
        split
        · exact .inl rfl
        · next hdue =>
            exact .inr ⟨task, List.mem_of_find?_eq_some htask, by simpa using List.find?_some htask,
              List.isEmpty_iff.mp hempty, Nat.not_lt.mp hdue, rfl⟩
  · exact .inl rfl

theorem Running.executes (h : s.Running) {task : Task τ α} (htask : task ∈ s.tasks)
    (hstack : s.stack = []) (hdue : task.deadline ≤ s.now) (cron : Option (τ → Bool))
    {firing : Firing τ α} (hfiring : task.firing = some firing) :
    s.Executes firing (s.execute task cron).book := by
  have hwaiting : (task.deadline, firing) ∈ s.book.waiting :=
    mem_waiting.mpr ⟨task, htask, hfiring, rfl⟩
  obtain ⟨hversion, hle, hrule⟩ := h.sound.valid _ hwaiting
  exact ⟨hversion, hle.trans hdue, hrule, task.deadline, _, waiting_perm h.table htask hfiring,
    (h.execute htask hstack hdue cron).2.2 firing hfiring⟩

theorem Running.obeys_runTask (h : s.Running) (taskId : Nat) (cron : Option (τ → Bool)) :
    (s.runTask taskId cron).Running ∧ s.Obeys (.runTask taskId cron) := by
  refine ⟨?_, ?_, ?_⟩
  · obtain heq | ⟨task, htask, -, hstack, hdue, heq⟩ := s.runTask_cases taskId cron
    · exact heq.symm ▸ h
    · exact heq.symm ▸ (h.execute htask hstack hdue cron).1
  · obtain heq | ⟨task, htask, -, hstack, hdue, heq⟩ := s.runTask_cases taskId cron
    · exact .inl (congrArg book heq)
    · rw [State.step, heq]
      obtain hnone | ⟨firing, hfiring⟩ := Option.eq_none_or_eq_some task.firing
      · obtain hsame | hreplace := (h.execute htask hstack hdue cron).2.1 hnone
        · exact .inl hsame
        · exact .inr (.inl hreplace)
      · exact .inr (.inr ⟨firing, h.executes htask hstack hdue cron hfiring⟩)
  · intro task htask hid hstack hdue firing hfiring
    rw [State.step, ← hid, runTask_of_due h.table htask hstack hdue]
    exact h.executes htask hstack hdue cron hfiring

theorem Running.step (h : s.Running) {event : Event τ α} (hok : s.OnTime event = true) :
    (s.step event).Running ∧ s.Obeys event := by
  cases event with
  | tick time => exact ⟨h.tick time, rfl⟩
  | setup loaded =>
    have hsetup : s.step (.setup loaded) = s := by
      rw [State.step, State.setup.eq_def, if_pos h.inUse]
    refine ⟨hsetup.symm ▸ h, ?_⟩
    rw [Obeys, if_pos h.inUse, hsetup]
  | update rules =>
    simp only [State.step, Obeys, if_pos h.inUse]
    exact ⟨h.update rules, book_schedule fun _ _ => rfl⟩
  | trigger number hasTriggered =>
    simp only [State.step, Obeys]
    split
    · refine ⟨h.trigger number hasTriggered, book_trigger s number hasTriggered, fun _ _ => ?_⟩
      obtain ⟨rules, hrules⟩ := Option.isSome_iff_exists.mp h.inUse
      rw [State.trigger, hrules]
    · next hno => exact ⟨h, rfl, fun _ hmay => absurd hmay hno⟩
  | advance drift => exact ⟨h.advance drift, h.fires hok, visits_advance s drift⟩
  | runTask taskId cron => exact h.obeys_runTask taskId cron

/-- Before `setup` nothing happens. -/
theorem step_of_blank {now : Nat} {event : Event τ α} :
    (({ now := now } : State τ α).step event).Invariant ∧
      ({ now := now } : State τ α).Obeys event := by
  cases event with
  | tick time | update rules => exact ⟨.inl rfl, rfl⟩
  | setup loaded =>
    obtain ⟨hrunning, hbook⟩ := Running.setup now loaded
    exact ⟨.inr hrunning, hbook⟩
  | trigger number hasTriggered =>
    exact ⟨.inl rfl, rfl, fun hinUse => absurd hinUse Bool.false_ne_true⟩
  | advance drift =>
    exact ⟨.inl rfl, rfl, fun _ _ _ _ _ hstack => absurd hstack.symm (List.cons_ne_nil _ _)⟩
  | runTask taskId cron =>
    exact ⟨.inl rfl, .inl rfl, fun _ htask => absurd htask List.not_mem_nil⟩

theorem Invariant.step (h : s.Invariant) {event : Event τ α} (hok : s.OnTime event = true) :
    (s.step event).Invariant ∧ s.Obeys event := by
  obtain hblank | hrunning := h
  · rw [hblank]
    exact step_of_blank
  · obtain ⟨hnext, hobeys⟩ := hrunning.step hok
    exact ⟨.inr hnext, hobeys⟩

theorem Fires.single {b : Book τ α} (h : s.Fires b) (hsingle : s.book.Single) : b.Single := by
  rw [Fires] at h
  split at h
  · exact h ▸ hsingle
  · split at h
    · exact h ▸ hsingle
    · next hpending =>
        split at h
        · rw [h]
          exact hsingle
        · obtain ⟨deadline, -, rfl⟩ := h
          exact hsingle.fireLater (Bool.eq_false_iff.mpr hpending)

theorem Obeys.single {event : Event τ α} (h : s.Obeys event) (hsingle : s.book.Single) :
    (s.step event).book.Single := by
  cases event with
  | tick time => exact hsingle
  | setup loaded =>
    rw [Obeys] at h
    split at h
    · exact h ▸ hsingle
    · exact h ▸ List.nodup_nil
  | update rules => exact h ▸ hsingle
  | trigger number hasTriggered => exact h.1 ▸ hsingle
  | advance drift => exact h.1.single hsingle
  | runTask taskId cron =>
    obtain heq | heq | ⟨firing, -, -, -, deadline, rest, hperm, heq⟩ := h.1
    · exact heq ▸ hsingle
    · exact heq ▸ List.nodup_nil
    · rw [heq]
      exact hsingle.execute hperm

theorem Running.kept (h : s.Running) (hsingle : s.book.Single) : s.Kept where
  lastRun := h.lastRun
  lastRunState := h.lastRunState
  single := hsingle
  once := h.sound.nodup
  executed := h.sound.executed_fired
  settled := h.sound.settled
  cron := by
    rw [← h.cron]
    constructor
    · rintro ⟨task, htask, hcron⟩
      have hid := (h.table.cron_iff task htask).mp hcron
      have hrange := (h.table.range task htask).1
      omega
    · intro hne
      obtain ⟨task, htask, hid⟩ := h.table.cron_exists hne
      exact ⟨task, htask, (h.table.cron_iff task htask).mpr hid⟩
  one_cron task htask other hother hcron hcron' := by
    apply List.inj_on_of_nodup_map h.table.nodup htask hother
    exact ((h.table.cron_iff task htask).mp hcron).trans
      ((h.table.cron_iff other hother).mp hcron').symm

theorem Invariant.kept (h : s.Invariant) (hsingle : s.book.Single) : s.Kept := by
  obtain hblank | hrunning := h
  · rw [hblank]
    exact ⟨rfl, rfl, List.nodup_nil, List.nodup_nil, by simp, by simp, by
      simp [hasTaskWithTrigger], by simp⟩
  · exact hrunning.kept hsingle

theorem meets_obeys {events : List (Event τ α)} {s : State τ α}
    (h : Meets State.step (fun s event => s.OnTime event = true) s events) (hinv : s.Invariant) :
    Meets State.step Obeys s events := by
  induction events generalizing s with
  | nil => trivial
  | cons event rest ih =>
    obtain ⟨hnext, hobeys⟩ := hinv.step h.1
    exact ⟨hobeys, ih h.2 hnext⟩

/-- As long as no trigger comes between the end of a delay and the action, every rule that a
trigger matches is fired, and its action is executed once, by the configuration that it is of. -/
theorem rules_fire_once (events : List (Event τ α))
    (h : Meets State.step (fun s event => s.OnTime event = true) {} events) :
    (run State.step {} events).Kept ∧ Meets State.step Obeys {} events := by
  have hrun := h.invariant (I := fun s : State τ α => s.Invariant ∧ s.book.Single)
    (fun s event hs hok => ⟨(hs.1.step hok).1, (hs.1.step hok).2.single hs.2⟩)
    ⟨.inl rfl, List.nodup_nil⟩
  exact ⟨hrun.1.kept hrun.2, meets_obeys h (.inl rfl)⟩

end State

/-- A rule with a delay of 5 s for a trigger. -/
def delayedRule : Rule Unit Unit := ⟨.http, (), (), 5, by decide, by decide⟩

/-- The rule is triggered again when its delay has elapsed and its action is still to come. -/
def triggeredTwice : List (Event Unit Unit) :=
  [.setup (some [delayedRule]), .runTask 1 none, .trigger .http fun _ => true, .advance 0,
    .advance 0, .tick (seconds 5), .trigger .http fun _ => true, .advance 0]

theorem rule_fires_twice :
    ¬ ∀ events : List (Event Unit Unit),
      (run State.step {} events).Kept ∧ Meets State.step State.Obeys {} events := by
  intro hall
  have hsingle := (hall triggeredTwice).1.single
  revert hsingle
  simp only [Book.Single]
  decide

/-- A rule that is triggered and whose action is executed after its delay. -/
theorem rules_fire_once_after_delay :
    (run State.step {} (triggeredTwice.take 6 ++ [.runTask 3 none])).Kept ∧
      Meets State.step State.Obeys {} (triggeredTwice.take 6 ++ [.runTask 3 none]) :=
  State.rules_fire_once _ (by decide)

end Esp32Firmware.Automation
