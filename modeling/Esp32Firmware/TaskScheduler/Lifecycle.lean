import Esp32Firmware.TaskScheduler.Board
import Esp32Firmware.Library.Run

/-!
# No task is lost or duplicated

The queue, the running task and the slots together hold each live task once.
Every step that cancels no unregistered wall clock task keeps the board of live
tasks, so this holds in every run of such steps.
-/

namespace Esp32Firmware.TaskScheduler

def Task.key (task : Task) : TaskKey :=
  (task.taskId, task.once)

/-- What the times of a task do not touch. -/
def Task.stamp (task : Task) : TaskKey × Bool :=
  (task.key, task.cancelled)

namespace State

variable (s : State)

/-- The tasks of the queue, the running task and the runners in their slots. -/
def allTasks : List Task :=
  s.tasks ++ (s.currentTask.toList ++ s.wallClockTasks.filterMap (·.runnerTask))

def keys : List TaskKey :=
  s.allTasks.map Task.key

/-- The ID of the running task if it was cancelled. -/
def cancelling : Option TaskId :=
  (s.currentTask.filter (·.cancelled)).map Task.taskId

def registered : List TaskId :=
  s.wallClockTasks.map (·.taskId)

end State

/-- Tasks that do not repeat have started at most once. -/
def OnceStarts (events : List Event) : Prop :=
  ∀ taskId, .scheduled taskId false ∈ events → events.count (.started taskId) ≤ 1

/-- No task starts after an accepted cancellation. -/
def NoStartAfterCancel (events : List Event) : Prop :=
  ∀ before after taskId result, events = before ++ .cancelled taskId result :: after →
    result ≠ .notFound → .started taskId ∉ after

theorem OnceStarts.append {events : List Event} (h : OnceStarts events) {e : Event}
    (hstarted : ∀ taskId, e = .started taskId → .scheduled taskId false ∈ events →
      .started taskId ∉ events)
    (hscheduled : ∀ taskId, e = .scheduled taskId false → .started taskId ∉ events) :
    OnceStarts (events ++ [e]) := by
  intro taskId hmem
  rw [List.count_append, List.count_singleton]
  rcases List.mem_append.mp hmem with hmem | hmem
  · split
    · rename_i heq
      rw [List.count_eq_zero.mpr (hstarted taskId (beq_iff_eq.mp heq) hmem)]
    · exact h taskId hmem
  · have heq : e = .scheduled taskId false := (List.mem_singleton.mp hmem).symm
    rw [List.count_eq_zero.mpr (hscheduled taskId heq)]
    split
    · exact le_rfl
    · exact Nat.zero_le _

theorem NoStartAfterCancel.append {events : List Event} (h : NoStartAfterCancel events) {e : Event}
    (hstarted : ∀ taskId, e = .started taskId → ¬CancelAccepted events taskId) :
    NoStartAfterCancel (events ++ [e]) := by
  intro before after taskId result heq hresult hmem
  rcases List.eq_nil_or_concat after with rfl | ⟨after', last, rfl⟩
  · cases hmem
  · rw [List.concat_eq_append, ← List.cons_append, ← List.append_assoc] at heq
    obtain ⟨hevents, hlast⟩ := List.append_inj' heq rfl
    rw [List.concat_eq_append, List.mem_append, List.mem_singleton] at hmem
    rcases hmem with hmem | rfl
    · exact h before after' taskId result hevents hresult hmem
    · refine hstarted taskId (List.cons.inj hlast).1 ⟨result, hresult, ?_⟩
      rw [hevents]
      exact List.mem_append_right _ List.mem_cons_self

/-- The queue, the running task and the slots agree with the board of live tasks. -/
structure Inv (x : Execution) : Prop where
  board : Board x.state.keys x.state.cancelling x.state.registered x.state.lastTaskId x.events
  slots : ∀ w ∈ x.state.wallClockTasks, ∀ runner, w.runnerTask = some runner →
    runner.taskId = w.taskId ∧ runner.cancelled = false
  queued : ∀ task ∈ x.state.tasks, task.cancelled = false ∧
    (task.key.repeats = false → .started task.taskId ∉ x.events)
  onceStarts : OnceStarts x.events
  noStart : NoStartAfterCancel x.events

section

variable {s : State} {task : Task} {taskId : TaskId}

theorem fst_key (tasks : List Task) :
    (tasks.map Task.key).map Prod.fst = tasks.map Task.taskId := by
  rw [List.map_map]
  rfl

theorem mem_allTasks : task ∈ s.allTasks ↔ task ∈ s.tasks ∨ s.currentTask = some task ∨
    ∃ w ∈ s.wallClockTasks, w.runnerTask = some task := by
  rw [State.allTasks, List.mem_append, List.mem_append, Option.mem_toList, List.mem_filterMap]

theorem key_mem_keys (h : task ∈ s.allTasks) : task.key ∈ s.keys :=
  List.mem_map_of_mem h

theorem mem_places (h : task ∈ s.allTasks) : task.taskId ∈ s.keys.map Prod.fst :=
  List.mem_map_of_mem (key_mem_keys h)

theorem cancelling_eq_some_iff : s.cancelling = some taskId ↔
    ∃ task, s.currentTask = some task ∧ task.cancelled = true ∧ task.taskId = taskId := by
  rw [State.cancelling]
  cases s.currentTask with
  | none => simp
  | some task =>
    cases hcancelled : task.cancelled with
    | false | true => simp [hcancelled]

theorem findByTaskID_some {tasks : List Task} (h : State.findByTaskID taskId tasks = some task) :
    task ∈ tasks ∧ task.taskId = taskId :=
  ⟨List.mem_of_find?_eq_some h, by
    have := List.find?_some h
    exact beq_iff_eq.mp this⟩

/-- Erasing takes away just the element that was found. -/
theorem perm_cons_eraseP {p : α → Bool} {a : α} {l : List α} (h : l.find? p = some a) :
    (a :: l.eraseP p).Perm l := by
  induction l with
  | nil => cases h
  | cons other rest ih =>
    rw [List.find?_cons] at h
    rw [List.eraseP_cons]
    split at h
    · rename_i hp
      cases h
      rw [hp]
      exact List.Perm.refl _
    · rename_i hp
      rw [hp]
      exact (List.Perm.swap other a _).trans ((ih h).cons other)

end

namespace Inv

variable {s s' : State} {events : List Event} {task : Task} {taskId : TaskId}

theorem empty : Inv {} where
  board := Board.empty
  slots := by
    intro w hw
    cases hw
  queued := by
    intro task htask
    cases htask
  onceStarts := by
    intro taskId hmem
    cases hmem
  noStart := by
    intro before after taskId result heq
    simp at heq

/-- A change of the state without an event. -/
theorem frame (h : Inv ⟨s, events⟩) (hkeys : s'.keys.Perm s.keys)
    (hcancelling : s'.cancelling = s.cancelling)
    (hregistered : s'.registered.Perm s.registered) (hlast : s.lastTaskId ≤ s'.lastTaskId)
    (hslots : ∀ w ∈ s'.wallClockTasks, ∀ runner, w.runnerTask = some runner →
      runner.taskId = w.taskId ∧ runner.cancelled = false)
    (hqueued : ∀ task ∈ s'.tasks, task.cancelled = false ∧
      (task.key.repeats = false → .started task.taskId ∉ events)) :
    Inv ⟨s', events⟩ where
  board := by
    have hboard := (h.board.perm hkeys hregistered).mono hlast
    rwa [← hcancelling] at hboard
  slots := hslots
  queued := hqueued
  onceStarts := h.onceStarts
  noStart := h.noStart

theorem cancelling_mem (h : s.cancelling = some taskId) : taskId ∈ s.keys.map Prod.fst := by
  obtain ⟨task, hcurrent, -, rfl⟩ := cancelling_eq_some_iff.mp h
  exact mem_places (mem_allTasks.mpr (.inr (.inl hcurrent)))

section

variable (h : Inv ⟨s, events⟩)
include h

/-- An event that is no start keeps what the queue knows about starts. -/
theorem queued_append {e : Event} (he : ∀ taskId, e ≠ .started taskId) :
    ∀ task ∈ s.tasks, task.cancelled = false ∧
      (task.key.repeats = false → .started task.taskId ∉ events ++ [e]) := by
  intro task htask
  obtain ⟨hcancelled, hstarted⟩ := h.queued task htask
  refine ⟨hcancelled, fun hrepeats hmem => ?_⟩
  rcases List.mem_append.mp hmem with hmem | hmem
  · exact hstarted hrepeats hmem
  · exact he _ (List.mem_singleton.mp hmem).symm

theorem cancelling_ne_new (hlt : s.lastTaskId < taskId.number) : s.cancelling ≠ some taskId := by
  intro hcancelling
  have hle : taskId.number ≤ s.lastTaskId := h.board.number_le (cancelling_mem hcancelling)
  omega

/-- A new task goes to the queue. -/
theorem pushNew (hnew : task.taskId.number = s.lastTaskId + 1)
    (hkind : task.taskId.kind ≠ .wallClock) (hcancelled : task.cancelled = false) :
    Inv ⟨{ s with lastTaskId := s.lastTaskId + 1 }.push task,
      events ++ [.scheduled task.taskId task.key.repeats]⟩ := by
  have hlt : s.lastTaskId < task.taskId.number := by omega
  have hstarted : .started task.taskId ∉ events :=
    h.board.not_mem_of_new hlt rfl (by rintro ⟨⟩)
  constructor
  · apply h.board.schedule hnew (absurd · hkind)
    · exact h.cancelling_ne_new hlt
    · rw [if_neg hkind]
      rfl
  · exact h.slots
  · intro other hother
    rcases List.mem_cons.mp hother with rfl | hother
    · refine ⟨hcancelled, fun _ hmem => ?_⟩
      rcases List.mem_append.mp hmem with hmem | hmem
      · exact hstarted hmem
      · cases List.mem_singleton.mp hmem
    · exact h.queued_append (by rintro _ ⟨⟩) other hother
  · apply h.onceStarts.append
    · rintro _ ⟨⟩
    · intro taskId heq
      obtain ⟨rfl, -⟩ := Event.scheduled.inj heq
      exact hstarted
  · exact h.noStart.append (by rintro _ ⟨⟩)

/-- A new wall clock task goes to its slot. -/
theorem registerNew {w : WallClockTask}
    (hrunner : w.runnerTask = some task) (htask : task.taskId = w.taskId)
    (hnew : w.taskId.number = s.lastTaskId + 1) (hkind : w.taskId.kind = .wallClock)
    (honce : task.once = true) (hcancelled : task.cancelled = false) :
    Inv ⟨{ s with
        lastTaskId := s.lastTaskId + 1
        wallClockTasks := s.wallClockTasks ++ [w] },
      events ++ [.scheduled w.taskId true]⟩ := by
  have hlt : s.lastTaskId < w.taskId.number := by omega
  have hkey : task.key = (w.taskId, true) := by rw [Task.key, htask, honce]
  constructor
  · have hboard : Board ((w.taskId, true) :: s.keys) s.cancelling (w.taskId :: s.registered)
        (s.lastTaskId + 1)
        (events ++ [.scheduled w.taskId (TaskKey.repeats (w.taskId, true))]) := by
      apply h.board.schedule hnew (fun _ => rfl) (h.cancelling_ne_new hlt)
      rw [if_pos hkind]
    rw [TaskKey.repeats, hkind] at hboard
    apply hboard.perm
    · rw [State.keys, State.allTasks, List.filterMap_append, List.filterMap_cons, hrunner,
        List.filterMap_nil, ← List.append_assoc, ← List.append_assoc, List.map_append,
        List.append_assoc, List.map_singleton, hkey]
      exact List.perm_append_singleton _ _
    · rw [State.registered, List.map_append, List.map_singleton]
      exact List.perm_append_singleton _ _
  · intro w' hw' runner hrunner'
    rcases List.mem_append.mp hw' with hw' | hw'
    · exact h.slots w' hw' runner hrunner'
    · rw [List.mem_singleton.mp hw', hrunner] at hrunner'
      cases hrunner'
      rw [List.mem_singleton.mp hw']
      exact ⟨htask, hcancelled⟩
  · exact h.queued_append (by rintro _ ⟨⟩)
  · apply h.onceStarts.append
    · rintro _ ⟨⟩
    · rintro _ ⟨⟩
  · exact h.noStart.append (by rintro _ ⟨⟩)

end

end Inv

section

variable {s s' : State} {taskId : TaskId} {now : Int}

/-- The three answers to the cancellation of a task outside the slots. -/
theorem cancelTask_cases (s : State) (taskId : TaskId) :
    (∃ task, s.currentTask = some task ∧ task.taskId = taskId ∧
      s.cancelTask taskId = (.willBeCancelled,
        { s with currentTask := some { task with cancelled := true } })) ∨
    (∃ task, (∀ current, s.currentTask = some current → current.taskId ≠ taskId) ∧
      State.findByTaskID taskId s.tasks = some task ∧
      s.cancelTask taskId = (.cancelled, { s with tasks := State.removeByTaskID taskId s.tasks })) ∨
    ((∀ current, s.currentTask = some current → current.taskId ≠ taskId) ∧
      State.findByTaskID taskId s.tasks = none ∧ s.cancelTask taskId = (.notFound, s)) := by
  have hqueue : (∀ current, s.currentTask = some current → current.taskId ≠ taskId) →
      (s.cancelTask taskId = if (State.findByTaskID taskId s.tasks).isSome then
        (.cancelled, { s with tasks := State.removeByTaskID taskId s.tasks })
      else (.notFound, s)) := by
    intro hother
    rw [State.cancelTask]
    split
    · rename_i current hcurrent
      rw [if_neg (hother current hcurrent)]
    · rfl
  by_cases hself : ∃ task, s.currentTask = some task ∧ task.taskId = taskId
  · obtain ⟨task, hcurrent, hid⟩ := hself
    left
    refine ⟨task, hcurrent, hid, ?_⟩
    rw [State.cancelTask, hcurrent]
    exact if_pos hid
  · right
    have hother : ∀ current, s.currentTask = some current → current.taskId ≠ taskId :=
      fun current hcurrent hid => hself ⟨current, hcurrent, hid⟩
    rw [hqueue hother]
    cases hfind : State.findByTaskID taskId s.tasks with
    | some task => exact .inl ⟨task, hother, rfl, rfl⟩
    | none => exact .inr ⟨hother, rfl, rfl⟩

/-- A task is taken only if none is running. -/
theorem takeTask_cases {starts : Bool} (h : s.takeTask taskId now = some (starts, s')) :
    ∃ task, s.currentTask = none ∧ State.findByTaskID taskId s.tasks = some task ∧
      ((task.cancelled = true ∧ starts = false ∧
        s' = { s with tasks := State.removeByTaskID taskId s.tasks }) ∨
      (task.cancelled = false ∧ starts = true ∧
        s' = { s with tasks := State.removeByTaskID taskId s.tasks, currentTask := some task })) := by
  rw [State.takeTask] at h
  split at h
  · rename_i task hnone hfind
    split at h
    · dsimp only at h
      refine ⟨task, hnone, hfind, ?_⟩
      cases hcancelled : task.cancelled with
      | true =>
        rw [if_pos hcancelled] at h
        cases h
        exact .inl ⟨rfl, rfl, rfl⟩
      | false =>
        rw [if_neg (Bool.eq_false_iff.mp hcancelled)] at h
        cases h
        exact .inr ⟨rfl, rfl, rfl⟩
    · cases h
  · cases h

/-- The four ways in which a run of a task ends. -/
theorem finishTask_cases (h : s.finishTask now = some (taskId, s')) :
    ∃ task, s.currentTask = some task ∧ task.taskId = taskId ∧
      ((task.once = true ∧ taskId.kind ≠ .wallClock ∧ s' = { s with currentTask := none }) ∨
      (task.once = true ∧ taskId.kind = .wallClock ∧ s' = { s with
          currentTask := none
          wallClockTasks := State.returnRunner task s.wallClockTasks }) ∨
      (task.once = false ∧ task.cancelled = true ∧ s' = { s with currentTask := none }) ∨
      (task.once = false ∧ task.cancelled = false ∧
        ∃ requeued, requeued.key = task.key ∧ requeued.cancelled = false ∧
          s' = { s with currentTask := none }.push requeued)) := by
  rw [State.finishTask] at h
  split at h
  · cases h
  · rename_i task hcurrent
    refine ⟨task, hcurrent, ?_⟩
    cases honce : task.once with
    | true =>
      rw [if_pos honce] at h
      by_cases hkind : task.taskId.kind = .wallClock
      · rw [if_neg (not_not_intro hkind)] at h
        cases h
        exact ⟨rfl, .inr (.inl ⟨rfl, hkind, rfl⟩)⟩
      · rw [if_pos hkind] at h
        cases h
        exact ⟨rfl, .inl ⟨rfl, hkind, rfl⟩⟩
    | false =>
      rw [if_neg (Bool.eq_false_iff.mp honce)] at h
      cases hcancelled : task.cancelled with
      | true =>
        rw [if_pos hcancelled] at h
        cases h
        exact ⟨rfl, .inr (.inr (.inl ⟨rfl, rfl, rfl⟩))⟩
      | false =>
        rw [if_neg (Bool.eq_false_iff.mp hcancelled)] at h
        cases h
        refine ⟨rfl, .inr (.inr (.inr ⟨rfl, rfl, _, ?_, ?_, rfl⟩))⟩
        · rw [Task.key, Task.key, honce]
        · exact hcancelled

end

namespace Inv

variable {s s' : State} {events : List Event} {taskId : TaskId} {now : Int}

theorem keys_eq (s : State) : s.keys = s.tasks.map Task.key ++ (s.currentTask.toList.map Task.key ++
    (s.wallClockTasks.filterMap (·.runnerTask)).map Task.key) := by
  rw [State.keys, State.allTasks, List.map_append, List.map_append]

/-- The keys after a task has left the queue. -/
theorem keys_removed {task : Task} (hfind : State.findByTaskID taskId s.tasks = some task) :
    (task.key :: State.keys { s with tasks := State.removeByTaskID taskId s.tasks }).Perm
      s.keys := by
  rw [keys_eq, keys_eq, ← List.cons_append, ← List.map_cons]
  exact ((perm_cons_eraseP hfind).map Task.key).append_right _

/-- The keys after a runner has left its slot. -/
theorem keys_unslotted {runner : Task} {wallClockTasks : List WallClockTask}
    (h : (runner :: wallClockTasks.filterMap (·.runnerTask)).Perm
      (s.wallClockTasks.filterMap (·.runnerTask))) :
    (runner.key :: State.keys { s with wallClockTasks }).Perm s.keys := by
  rw [keys_eq, keys_eq, ← List.append_assoc, ← List.append_assoc]
  refine List.perm_middle.symm.trans (List.Perm.append_left _ ?_)
  exact h.map Task.key

/-- The cancellation of a task outside the slots, after its registration was erased. -/
theorem cancelTask (h : Inv ⟨s, events⟩) {wallClockTasks : List WallClockTask}
    (hslots : (wallClockTasks.filterMap (·.runnerTask)).Perm
      (s.wallClockTasks.filterMap (·.runnerTask)))
    (hsub : ∀ w ∈ wallClockTasks, w ∈ s.wallClockTasks)
    (hregistered : ∀ other, other ∈ wallClockTasks.map (·.taskId) ↔
      other ∈ s.registered ∧ other ≠ taskId)
    (hnodup : (wallClockTasks.map (·.taskId)).Nodup)
    (hfound : wallClockTasks = s.wallClockTasks ∨ taskId ∈ s.registered ∧
      ∀ w ∈ s.wallClockTasks, w.taskId = taskId → w.runnerTask = none) {result : CancelResult}
    (hs' : State.cancelTask { s with wallClockTasks } taskId = (result, s')) :
    Inv ⟨s', events ++ [.cancelled taskId result]⟩ := by
  have hkeys : (State.keys { s with wallClockTasks }).Perm s.keys := by
    rw [keys_eq, keys_eq]
    exact ((hslots.map Task.key).append_left _).append_left _
  have hslots' : ∀ w ∈ wallClockTasks, ∀ runner, w.runnerTask = some runner →
      runner.taskId = w.taskId ∧ runner.cancelled = false := fun w hw => h.slots w (hsub w hw)
  have honce : OnceStarts (events ++ [.cancelled taskId result]) := by
    apply h.onceStarts.append
    · rintro _ ⟨⟩
    · rintro _ ⟨⟩
  have hnoStart : NoStartAfterCancel (events ++ [.cancelled taskId result]) :=
    h.noStart.append (by rintro _ ⟨⟩)
  have hqueued := h.queued_append (e := .cancelled taskId result) (by rintro _ ⟨⟩)
  rcases cancelTask_cases { s with wallClockTasks } taskId with
    ⟨task, hcurrent, rfl, heq⟩ | ⟨task, hother, hfind, heq⟩ | ⟨hother, hfind, heq⟩
  · rw [heq] at hs'
    cases hs'
    refine ⟨?_, hslots', hqueued, honce, hnoStart⟩
    have hmem : task.taskId ∈ s.keys.map Prod.fst :=
      mem_places (mem_allTasks.mpr (.inr (.inl hcurrent)))
    have hcancelling : s.cancelling = none ∨ s.cancelling = some task.taskId := by
      rw [State.cancelling, show s.currentTask = some task from hcurrent]
      cases hcancelled : task.cancelled with
      | false | true => simp [hcancelled]
    apply (h.board.cancelRunning hmem hcancelling hregistered hnodup).perm _ (List.Perm.refl _)
    refine List.Perm.trans (List.Perm.of_eq ?_) hkeys
    rw [keys_eq, keys_eq, hcurrent]
    rfl
  · rw [heq] at hs'
    cases hs'
    have hid := (findByTaskID_some hfind).2
    refine ⟨?_, hslots', ?_, honce, hnoStart⟩
    · have hboard := h.board.perm ((keys_removed hfind).trans hkeys) (List.Perm.refl _)
      rw [Task.key, hid] at hboard
      apply hboard.cancel _ (by rintro ⟨⟩) hregistered hnodup
      intro hcancelling
      obtain ⟨current, hcurrent, -, hcurrentId⟩ := cancelling_eq_some_iff.mp hcancelling
      exact hother current hcurrent hcurrentId
    · intro other hmem
      exact hqueued other (List.mem_of_mem_eraseP hmem)
  · rw [heq] at hs'
    cases hs'
    rcases hfound with rfl | ⟨hregister, hempty⟩
    · exact ⟨h.board.notFound, hslots', hqueued, honce, hnoStart⟩
    · have hlive := ((h.board.registered_iff taskId).mp hregister).2
      obtain ⟨hmem, -⟩ := (h.board.live taskId).mp hlive
      rw [State.keys, fst_key] at hmem
      obtain ⟨task, htask, hid⟩ := List.mem_map.mp hmem
      rcases mem_allTasks.mp htask with htask | hcurrent | ⟨w, hw, hrunner⟩
      · rw [State.findByTaskID, List.find?_eq_none] at hfind
        exact absurd (beq_iff_eq.mpr hid) (hfind task htask)
      · exact absurd hid (hother task hcurrent)
      · have hwid : w.taskId = taskId := by rw [← (h.slots w hw task hrunner).1, hid]
        rw [hempty w hw hwid] at hrunner
        cases hrunner

variable {wallClockTasks l : List WallClockTask} {result : CancelResult} {w : WallClockTask}
  {found : Bool}

/-- A cancellation that finds its registration, if it is of a wall clock task. -/
theorem cancel (h : Inv ⟨s, events⟩) {eraseEnd : List WallClockTask → List WallClockTask}
    (hok : taskId.kind = .wallClock → taskId ∈ s.registered)
    (hs' : s.cancel eraseEnd taskId = some (result, s')) :
    Inv ⟨s', events ++ [.cancelled taskId result]⟩ := by
  rw [State.cancel] at hs'
  split at hs'
  · cases hs'
    refine ⟨h.board.notFound, h.slots, h.queued_append (by rintro _ ⟨⟩), ?_, ?_⟩
    · apply h.onceStarts.append
      · rintro _ ⟨⟩
      · rintro _ ⟨⟩
    · exact h.noStart.append (by rintro _ ⟨⟩)
  · split at hs'
    · cases hs'
    · split at hs'
      · rename_i hkind
        obtain ⟨w, hw, hid⟩ := List.mem_map.mp (hok hkind)
        cases hfind : s.wallClockTasks.find? fun w => w.taskId == taskId with
        | none =>
          rw [List.find?_eq_none] at hfind
          exact absurd (beq_iff_eq.mpr hid) (hfind w hw)
        | some w =>
          have hwid : w.taskId = taskId := by
            have := List.find?_some hfind
            exact beq_iff_eq.mp this
          have hperm := perm_cons_eraseP hfind
          have hregisteredPerm := hperm.map (·.taskId)
          rw [List.map_cons, hwid] at hregisteredPerm
          have hnodup := hregisteredPerm.nodup_iff.mpr h.board.registeredNodup
          obtain ⟨hout, hnodup⟩ := List.nodup_cons.mp hnodup
          have hregistered : ∀ other,
              other ∈ (s.wallClockTasks.eraseP fun w => w.taskId == taskId).map (·.taskId) ↔
                other ∈ s.registered ∧ other ≠ taskId := by
            intro other
            rw [State.registered, ← hregisteredPerm.mem_iff, List.mem_cons]
            constructor
            · intro hmem
              refine ⟨.inr hmem, ?_⟩
              rintro rfl
              exact hout hmem
            · rintro ⟨heq | hmem, hne⟩
              · exact absurd heq hne
              · exact hmem
          have hrunners := hperm.filterMap (·.runnerTask)
          rw [State.eraseWallClock, hfind] at hs'
          dsimp only at hs'
          cases hrunner : w.runnerTask with
          | none =>
            rw [hrunner] at hs'
            rw [List.filterMap_cons, hrunner] at hrunners
            refine h.cancelTask hrunners (fun _ hmem => List.mem_of_mem_eraseP hmem)
              hregistered hnodup (.inr ⟨hok hkind, ?_⟩) (Option.some.inj hs')
            intro w' hw' hw'id
            rw [List.inj_on_of_nodup_map h.board.registeredNodup hw'
              (List.mem_of_find?_eq_some hfind) (hw'id.trans hwid.symm)]
            exact hrunner
          | some runner =>
            rw [hrunner] at hs'
            cases hs'
            rw [List.filterMap_cons, hrunner] at hrunners
            have hlive := ((h.board.registered_iff taskId).mp (hok hkind)).2
            have hrunnerId : runner.taskId = taskId := by
              rw [(h.slots w (List.mem_of_find?_eq_some hfind) runner hrunner).1, hwid]
            refine ⟨?_, fun w hw => h.slots w (List.mem_of_mem_eraseP hw),
              h.queued_append (by rintro _ ⟨⟩), ?_, h.noStart.append (by rintro _ ⟨⟩)⟩
            · have hboard := h.board.perm (keys_unslotted hrunners) (List.Perm.refl _)
              rw [Task.key, hrunnerId] at hboard
              exact hboard.cancel ((h.board.live taskId).mp hlive).2 (by rintro ⟨⟩)
                hregistered hnodup
            · apply h.onceStarts.append
              · rintro _ ⟨⟩
              · rintro _ ⟨⟩
      · rename_i hkind
        refine h.cancelTask (List.Perm.refl _) (fun _ => id) ?_ h.board.registeredNodup (.inl rfl)
          (Option.some.inj hs')
        intro other
        refine (and_iff_left_of_imp fun hmem => ?_).symm
        rintro rfl
        exact hkind ((h.board.registered_iff other).mp hmem).1

/-- Changes of the times of queued tasks and of the running task. -/
theorem retime (h : Inv ⟨s, events⟩) {tasks : List Task} {currentTask : Option Task}
    (htasks : tasks.map Task.stamp = s.tasks.map Task.stamp)
    (hcurrent : currentTask.map Task.stamp = s.currentTask.map Task.stamp) :
    Inv ⟨{ s with tasks, currentTask }, events⟩ := by
  have hqueue : tasks.map Task.key = s.tasks.map Task.key := by
    have hfst := congrArg (List.map Prod.fst) htasks
    rwa [List.map_map, List.map_map] at hfst
  apply h.frame
  · apply List.Perm.of_eq
    rw [keys_eq, keys_eq, hqueue]
    congr 2
    cases currentTask with
    | none =>
      rw [Option.map_eq_none_iff.mp hcurrent.symm]
    | some task =>
      obtain ⟨task', htask', hstamp⟩ := Option.map_eq_some_iff.mp hcurrent.symm
      rw [htask', Option.toList_some, Option.toList_some, List.map_singleton,
        List.map_singleton, (Prod.mk.inj hstamp).1]
  · rw [State.cancelling, State.cancelling]
    cases currentTask with
    | none => rw [Option.map_eq_none_iff.mp hcurrent.symm]
    | some task =>
      obtain ⟨task', htask', hstamp⟩ := Option.map_eq_some_iff.mp hcurrent.symm
      obtain ⟨hkey, hcancelled⟩ := Prod.mk.inj hstamp
      have hid : task'.taskId = task.taskId := congrArg Prod.fst hkey
      rw [htask', Option.filter_some, Option.filter_some, hcancelled]
      split
      · exact congrArg some hid.symm
      · rfl
  · exact List.Perm.refl _
  · exact Nat.le_refl _
  · exact h.slots
  · intro task htask
    have hmem : task.stamp ∈ s.tasks.map Task.stamp := by
      rw [← htasks]
      exact List.mem_map_of_mem htask
    obtain ⟨task', htask', hstamp⟩ := List.mem_map.mp hmem
    obtain ⟨hkey, hcancelled⟩ := Prod.mk.inj hstamp
    have hid : task'.taskId = task.taskId := congrArg Prod.fst hkey
    have hqueued := h.queued task' htask'
    rwa [hkey, hcancelled, hid] at hqueued

theorem modifyTask_stamp (f : Task → Task) (hf : ∀ task, (f task).stamp = task.stamp)
    (tasks : List Task) :
    (State.modifyTask taskId f tasks).map Task.stamp = tasks.map Task.stamp := by
  induction tasks with
  | nil => rfl
  | cons task rest ih =>
    rw [State.modifyTask]
    split
    · rw [List.map_cons, List.map_cons, hf]
    · rw [List.map_cons, List.map_cons, ih]

section

variable (h : Inv ⟨s, events⟩)
include h

theorem setCurrentDelay (delay : Int) : Inv ⟨s.setCurrentDelay delay, events⟩ := by
  apply h.retime rfl
  rw [Option.map_map]
  rfl

theorem rescheduleNow (hs' : s.rescheduleNow taskId now = some (found, s')) : Inv ⟨s', events⟩ := by
  rw [State.rescheduleNow] at hs'
  split at hs'
  · cases hs'
    exact h
  · split at hs'
    · cases hs'
    · dsimp only at hs'
      split at hs'
      · rename_i task hcurrent
        cases hs'
        apply h.retime rfl
        rw [Option.eq_some_of_filter_eq_some hcurrent]
        rfl
      · split at hs'
        · cases hs'
          refine h.retime (modifyTask_stamp _ ?_ _) rfl
          intro task
          rfl
        · cases hs'
          exact h

theorem updateDelay {newDelay : Int}
    (hs' : s.updateDelay taskId newDelay = some (found, s')) : Inv ⟨s', events⟩ := by
  rw [State.updateDelay] at hs'
  split at hs'
  · cases hs'
    exact h
  · split at hs'
    · cases hs'
    · dsimp only at hs'
      split at hs'
      · rename_i task hcurrent
        cases hs'
        apply h.retime rfl
        rw [Option.eq_some_of_filter_eq_some hcurrent]
        rfl
      · split at hs'
        · cases hs'
          refine h.retime (modifyTask_stamp _ ?_ _) rfl
          intro task
          rfl
        · cases hs'
          exact h

/-- A task of the queue becomes the running one. -/
theorem take {starts : Bool} (hs' : s.takeTask taskId now = some (starts, s')) :
    Inv ⟨s', events ++ if starts ∧ ¬s'.rebooting then [.started taskId] else []⟩ := by
  obtain ⟨task, hnone, hfind, ⟨hcancelled, -, -⟩ | ⟨hcancelled, rfl, rfl⟩⟩ := takeTask_cases hs'
  · have hfalse := (h.queued task (findByTaskID_some hfind).1).1
    rw [hfalse] at hcancelled
    cases hcancelled
  · obtain ⟨htask, hid⟩ := findByTaskID_some hfind
    have hkeys : (State.keys { s with
        tasks := State.removeByTaskID taskId s.tasks, currentTask := some task }).Perm s.keys := by
      refine List.Perm.trans ?_ (keys_removed hfind)
      rw [keys_eq, keys_eq, hnone]
      exact List.perm_middle
    have hframe : Inv ⟨{ s with
        tasks := State.removeByTaskID taskId s.tasks, currentTask := some task }, events⟩ := by
      apply h.frame hkeys _ (List.Perm.refl _) (Nat.le_refl _) h.slots
      · intro other hother
        exact h.queued other (List.mem_of_mem_eraseP hother)
      · rw [State.cancelling, State.cancelling, hnone]
        rw [Option.filter_some, hcancelled]
        rfl
    split
    · have hmem : taskId ∈ s.keys.map Prod.fst := by
        rw [← hid]
        exact mem_places (mem_allTasks.mpr (.inl htask))
      have hlive : Live events taskId := by
        rw [h.board.live]
        refine ⟨hmem, fun hcancelling => ?_⟩
        obtain ⟨current, hcurrent, -, -⟩ := cancelling_eq_some_iff.mp hcancelling
        rw [hnone] at hcurrent
        cases hcurrent
      have hfirst : .scheduled taskId false ∈ events → .started taskId ∉ events := by
        intro hscheduled
        have hkey := h.board.scheduled task.key (key_mem_keys (mem_allTasks.mpr (.inl htask)))
        rw [show task.key.1 = taskId from hid] at hkey
        cases hrepeats : task.key.repeats with
        | true =>
          rw [hrepeats] at hkey
          exact absurd hscheduled (h.board.unique taskId hkey)
        | false =>
          rw [← hid]
          exact (h.queued task htask).2 hrepeats
      constructor
      · exact hframe.board.start ((hkeys.map Prod.fst).mem_iff.mpr hmem)
      · exact h.slots
      · intro other hother
        obtain ⟨hother', hstarted⟩ := h.queued other (List.mem_of_mem_eraseP hother)
        refine ⟨hother', fun hrepeats hmem' => ?_⟩
        rcases List.mem_append.mp hmem' with hmem' | hmem'
        · exact hstarted hrepeats hmem'
        · have hsame := Event.started.inj (List.mem_singleton.mp hmem')
          have hnodup := ((keys_removed hfind).map Prod.fst).nodup_iff.mpr h.board.nodup
          refine (List.nodup_cons.mp hnodup).1 ?_
          rw [show task.key.1 = other.taskId from hid.trans hsame.symm]
          exact mem_places (mem_allTasks.mpr (.inl hother))
      · apply h.onceStarts.append
        · intro started heq
          obtain rfl := Event.started.inj heq
          exact hfirst
        · rintro _ ⟨⟩
      · apply h.noStart.append
        intro started heq
        obtain rfl := Event.started.inj heq
        exact hlive.2.1
    · rwa [List.append_nil]

end

/-- The slots after a runner went back. -/
theorem returnRunner_spec {task : Task} (hmem : task.taskId ∈ l.map (·.taskId))
    (hnodup : (l.map (·.taskId)).Nodup)
    (hempty : ∀ w ∈ l, w.taskId = task.taskId → w.runnerTask = none) :
    (State.returnRunner task l).map (·.taskId) = l.map (·.taskId) ∧
      ((State.returnRunner task l).filterMap (·.runnerTask)).Perm
        (task :: l.filterMap (·.runnerTask)) := by
  induction l with
  | nil => cases hmem
  | cons w rest ih =>
    rw [State.returnRunner]
    rw [List.map_cons, List.nodup_cons] at hnodup
    by_cases hid : w.taskId = task.taskId
    · rw [if_pos hid]
      refine ⟨rfl, ?_⟩
      rw [List.filterMap_cons, List.filterMap_cons, hempty w List.mem_cons_self hid]
    · rw [if_neg hid]
      rw [List.map_cons, List.mem_cons, or_iff_right (Ne.symm hid)] at hmem
      obtain ⟨hmap, hperm⟩ := ih hmem hnodup.2 fun w' hw' =>
        hempty w' (List.mem_cons_of_mem _ hw')
      refine ⟨by rw [List.map_cons, List.map_cons, hmap], ?_⟩
      rw [List.filterMap_cons, List.filterMap_cons]
      cases w.runnerTask with
      | none => exact hperm
      | some runner => exact (hperm.cons runner).trans (List.Perm.swap task runner _)

theorem returnRunner_not_mem {task : Task} (hmem : task.taskId ∉ l.map (·.taskId)) :
    State.returnRunner task l = l := by
  induction l with
  | nil => rfl
  | cons w rest ih =>
    rw [List.map_cons, List.mem_cons, not_or] at hmem
    rw [State.returnRunner, if_neg (Ne.symm hmem.1), ih hmem.2]

theorem mem_returnRunner {task : Task} (h : w ∈ State.returnRunner task l) :
    w ∈ l ∨ w.runnerTask = some task ∧ w.taskId = task.taskId := by
  induction l with
  | nil => exact .inl h
  | cons w' rest ih =>
    rw [State.returnRunner] at h
    split at h
    · rename_i hid
      rcases List.mem_cons.mp h with rfl | h
      · exact .inr ⟨rfl, hid⟩
      · exact .inl (List.mem_cons_of_mem _ h)
    · rcases List.mem_cons.mp h with rfl | h
      · exact .inl List.mem_cons_self
      · exact (ih h).imp_left (List.mem_cons_of_mem _)

/-- The keys of the running task and of all others. -/
theorem keys_running {task : Task} (hcurrent : s.currentTask = some task) :
    (task.key :: State.keys { s with currentTask := none }).Perm s.keys := by
  rw [keys_eq, keys_eq, hcurrent]
  exact List.perm_middle.symm

/-- The running task is dropped or put back. -/
theorem finish (h : Inv ⟨s, events⟩) (hs' : s.finishTask now = some (taskId, s')) :
    Inv ⟨s', events ++ [.finished taskId]⟩ := by
  obtain ⟨task, hcurrent, rfl, hcases⟩ := finishTask_cases hs'
  have honceStarts : OnceStarts (events ++ [.finished task.taskId]) := by
    apply h.onceStarts.append
    · rintro _ ⟨⟩
    · rintro _ ⟨⟩
  have hnoStart : NoStartAfterCancel (events ++ [.finished task.taskId]) :=
    h.noStart.append (by rintro _ ⟨⟩)
  have hqueued := h.queued_append (e := .finished task.taskId) (by rintro _ ⟨⟩)
  have hkeys := keys_running hcurrent
  have hboard := h.board.perm hkeys (List.Perm.refl _)
  have hcancelling : s.cancelling = if task.cancelled then some task.taskId else none := by
    rw [State.cancelling, hcurrent, Option.filter_some]
    split <;> rfl
  have hmem : task ∈ s.allTasks := mem_allTasks.mpr (.inr (.inl hcurrent))
  -- the last run of a task that was cancelled or does not repeat
  have hlast : task.cancelled = true ∨ task.key.repeats = false →
      Inv ⟨{ s with currentTask := none }, events ++ [.finished task.taskId]⟩ := by
    intro hlast
    refine ⟨hboard.finishLast ?_, h.slots, hqueued, honceStarts, hnoStart⟩
    rw [hcancelling]
    cases hcancelled : task.cancelled with
    | true => exact .inl rfl
    | false =>
      rw [hcancelled] at hlast
      exact .inr ⟨rfl, hlast.resolve_left (by rintro ⟨⟩)⟩
  rcases hcases with ⟨honce, hkind, rfl⟩ | ⟨honce, hkind, rfl⟩ | ⟨honce, hcancelled, rfl⟩ |
    ⟨honce, hcancelled, requeued, hkey, hrequeued, rfl⟩
  · apply hlast
    right
    rw [TaskKey.repeats, Task.key, honce]
    simpa using hkind
  · have hrepeats : task.key.repeats = true := by
      rw [TaskKey.repeats, Task.key, hkind]
      exact Bool.or_true _
    by_cases hregistered : task.taskId ∈ s.registered
    · have hlive := ((h.board.registered_iff _).mp hregistered).2
      have hnone : s.cancelling = none := by
        rw [hcancelling]
        split
        · rename_i hcancelled
          rw [if_pos hcancelled] at hcancelling
          exact absurd hcancelling ((h.board.live _).mp hlive).2
        · rfl
      have hempty : ∀ w ∈ s.wallClockTasks, w.taskId = task.taskId → w.runnerTask = none := by
        intro w hw hid
        cases hrunner : w.runnerTask with
        | none => rfl
        | some runner =>
          have hnodup := (hkeys.map Prod.fst).nodup_iff.mpr h.board.nodup
          refine absurd ?_ (List.nodup_cons.mp hnodup).1
          rw [show task.key.1 = runner.taskId by rw [(h.slots w hw runner hrunner).1, hid]; rfl]
          exact mem_places (mem_allTasks.mpr (.inr (.inr ⟨w, hw, hrunner⟩)))
      obtain ⟨hmap, hperm⟩ := returnRunner_spec hregistered h.board.registeredNodup hempty
      have hkeys' : (State.keys { s with
          currentTask := none
          wallClockTasks := State.returnRunner task s.wallClockTasks }).Perm s.keys := by
        rw [keys_eq, keys_eq, hcurrent]
        exact (hperm.map Task.key).append_left _
      constructor
      · have hboard' := h.board.perm hkeys' (List.Perm.of_eq hmap)
        rw [hnone] at hboard'
        exact hboard'.finishRun (hkeys'.mem_iff.mpr (key_mem_keys hmem)) hrepeats
      · intro w hw runner hrunner
        rcases mem_returnRunner hw with hw | ⟨hself, hid⟩
        · exact h.slots w hw runner hrunner
        · rw [hself] at hrunner
          cases hrunner
          refine ⟨hid.symm, ?_⟩
          cases hcancelled : task.cancelled with
          | false => rfl
          | true =>
            rw [hcancelling, if_pos hcancelled] at hnone
            cases hnone
      · exact hqueued
      · exact honceStarts
      · exact hnoStart
    · rw [returnRunner_not_mem hregistered]
      apply hlast
      left
      by_contra hcancelled
      rw [if_neg hcancelled] at hcancelling
      refine hregistered ((h.board.registered_iff _).mpr ⟨hkind, (h.board.live _).mpr ?_⟩)
      rw [hcancelling]
      exact ⟨mem_places hmem, by rintro ⟨⟩⟩
  · exact hlast (.inl hcancelled)
  · have hrepeats : task.key.repeats = true := by
      rw [TaskKey.repeats, Task.key, honce]
      rfl
    constructor
    · rw [hcancelling, hcancelled] at hboard
      rw [← hkey] at hboard
      have hfinished := hboard.finishRun List.mem_cons_self (by rwa [hkey])
      rw [show requeued.key.1 = task.taskId from congrArg Prod.fst hkey] at hfinished
      exact hfinished
    · exact h.slots
    · intro other hother
      rcases List.mem_cons.mp hother with rfl | hother
      · refine ⟨hrequeued, fun hfalse => ?_⟩
        rw [hkey, hrepeats] at hfalse
        cases hfalse
      · exact hqueued other hother
    · exact honceStarts
    · exact hnoStart

/-- The slots and the queue after the due runners were released. -/
theorem releaseRunners_spec (due : WallClockTask → Bool) (now : Int) (l : List WallClockTask) :
    (State.releaseRunners due now l).1.map (·.taskId) = l.map (·.taskId) ∧
      (((State.releaseRunners due now l).2 ++
        (State.releaseRunners due now l).1.filterMap (·.runnerTask)).map Task.stamp).Perm
        ((l.filterMap (·.runnerTask)).map Task.stamp) ∧
      ∀ w ∈ (State.releaseRunners due now l).1, ∀ runner, w.runnerTask = some runner → w ∈ l := by
  induction l with
  | nil =>
    refine ⟨rfl, List.Perm.refl _, ?_⟩
    intro w hw
    cases hw
  | cons w rest ih =>
    obtain ⟨hmap, hperm, hmem⟩ := ih
    rw [State.releaseRunners]
    generalize State.releaseRunners due now rest = result at hmap hperm hmem
    obtain ⟨slots, released⟩ := result
    have hrest : ∀ w' ∈ slots, ∀ runner, w'.runnerTask = some runner → w' ∈ w :: rest :=
      fun w' hw' runner hrunner => List.mem_cons_of_mem _ (hmem w' hw' runner hrunner)
    have hkept : ∀ w' ∈ w :: slots, ∀ runner, w'.runnerTask = some runner → w' ∈ w :: rest := by
      intro w' hw' runner hrunner
      rcases List.mem_cons.mp hw' with rfl | hw'
      · exact List.mem_cons_self
      · exact hrest w' hw' runner hrunner
    cases hrunner : w.runnerTask with
    | none =>
      refine ⟨by rw [List.map_cons, List.map_cons, hmap], ?_, hkept⟩
      rw [List.filterMap_cons, List.filterMap_cons, hrunner]
      exact hperm
    | some runner =>
      dsimp only
      split
      · refine ⟨by rw [List.map_cons, List.map_cons, hmap], ?_, ?_⟩
        · rw [List.filterMap_cons, List.filterMap_cons, hrunner]
          exact hperm.cons runner.stamp
        · intro w' hw' runner' hrunner'
          rcases List.mem_cons.mp hw' with rfl | hw'
          · cases hrunner'
          · exact hrest w' hw' runner' hrunner'
      · refine ⟨by rw [List.map_cons, List.map_cons, hmap], ?_, hkept⟩
        rw [List.filterMap_cons, List.filterMap_cons, hrunner, List.map_cons]
        refine List.Perm.trans ?_ (hperm.cons runner.stamp)
        exact List.perm_middle.map Task.stamp

/-- The runners of the slots are those of wall clock tasks. -/
theorem runner_spec (h : Inv ⟨s, events⟩) {task : Task}
    (hmem : task ∈ s.wallClockTasks.filterMap (·.runnerTask)) :
    task.cancelled = false ∧ task.key.repeats = true := by
  obtain ⟨w, hw, hrunner⟩ := List.mem_filterMap.mp hmem
  obtain ⟨hid, hcancelled⟩ := h.slots w hw task hrunner
  have hkind := ((h.board.registered_iff w.taskId).mp (List.mem_map_of_mem hw)).1
  refine ⟨hcancelled, ?_⟩
  rw [TaskKey.repeats, Task.key, hid, hkind]
  exact Bool.or_true _

theorem release (h : Inv ⟨s, events⟩) (due : WallClockTask → Bool) (lastMinute : Option Nat) :
    Inv ⟨{ s with
        wallClockTasks := (State.releaseRunners due now s.wallClockTasks).1
        tasks := (State.releaseRunners due now s.wallClockTasks).2 ++ s.tasks
        wallClockLastMinute := lastMinute }, events⟩ := by
  obtain ⟨hmap, hperm, hmem⟩ := releaseRunners_spec due now s.wallClockTasks
  generalize State.releaseRunners due now s.wallClockTasks = result at hmap hperm hmem
  obtain ⟨slots, released⟩ := result
  have hkeys : (released.map Task.key ++ (slots.filterMap (·.runnerTask)).map Task.key).Perm
      ((s.wallClockTasks.filterMap (·.runnerTask)).map Task.key) := by
    have hfst := hperm.map Prod.fst
    rw [List.map_map, List.map_map, List.map_append] at hfst
    exact hfst
  apply h.frame
  · rw [keys_eq, keys_eq, List.map_append]
    refine List.Perm.trans ?_ ((hkeys.append_left _).append_left _)
    rw [List.append_assoc]
    exact (List.perm_append_comm_assoc _ _ _).trans
      ((List.perm_append_comm_assoc _ _ _).append_left _)
  · rfl
  · exact List.Perm.of_eq hmap
  · exact Nat.le_refl _
  · intro w hw runner hrunner
    exact h.slots w (hmem w hw runner hrunner) runner hrunner
  · intro task htask
    rcases List.mem_append.mp htask with htask | htask
    · have hstamp : task.stamp ∈ (s.wallClockTasks.filterMap (·.runnerTask)).map Task.stamp := by
        rw [← hperm.mem_iff]
        exact List.mem_map_of_mem (List.mem_append_left _ htask)
      obtain ⟨runner, hrunner, heq⟩ := List.mem_map.mp hstamp
      obtain ⟨hkey, hcancelled⟩ := Prod.mk.inj heq
      obtain ⟨hfalse, hrepeats⟩ := h.runner_spec hrunner
      refine ⟨hcancelled.symm.trans hfalse, fun hnot => ?_⟩
      rw [← hkey, hrepeats] at hnot
      cases hnot
    · exact h.queued task htask

theorem wallClockWorker (h : Inv ⟨s, events⟩) (clock : Option ClockTime) :
    Inv ⟨s.wallClockWorker clock now, events⟩ := by
  cases clock with
  | none => exact h
  | some time =>
    rw [State.wallClockWorker]
    split
    · exact h.setCurrentDelay _
    · exact (h.setCurrentDelay _).release _ _

theorem startWorker {firstEvent : Event} (h : Inv ⟨s, events ++ [firstEvent]⟩) :
    Inv ⟨(s.startWorker now).2,
      events ++ firstEvent :: (s.startWorker now).1.toList.map (.scheduled · true)⟩ := by
  rw [State.startWorker]
  split
  · exact h
  · have hstarted : Inv ⟨{ s with wallClockWorkerStarted := true }, events ++ [firstEvent]⟩ :=
      h.frame (List.Perm.refl _) rfl (List.Perm.refl _) (Nat.le_refl _) h.slots h.queued
    rw [← List.singleton_append, ← List.append_assoc]
    exact @pushNew _ _ ⟨⟨.uncancelable, s.lastTaskId + 1⟩, .wallClockWorker, now + 0, 1000000,
      false, false, false⟩ hstarted rfl (by rintro ⟨⟩) rfl

end Inv

/-- The cancellation of a wall clock task finds its registration. -/
def CancelsRegistered (x : Execution) (label : Label) : Prop :=
  ∀ taskId, label = .cancel taskId → taskId.kind = .wallClock → taskId ∈ x.state.registered

section

variable {eraseEnd : List WallClockTask → List WallClockTask}

theorem Inv.step {x : Execution} (h : Inv x) {label : Label} (hok : CancelsRegistered x label) :
    Inv (step eraseEnd x label) := by
  obtain ⟨s, events⟩ := x
  cases label with
  | scheduleOnce now delay | scheduleWithFixedDelay now firstDelay delay
  | scheduleUncancelable now firstDelay delay => exact h.pushNew rfl (by rintro ⟨⟩) rfl
  | scheduleWallClock now intervalMinutes executionDelay runOnFirstSync =>
    have hregistered := h.registerNew (w := ⟨some ⟨⟨.wallClock, s.lastTaskId + 1⟩, .user, now,
      executionDelay, true, false, false⟩, ⟨.wallClock, s.lastTaskId + 1⟩, intervalMinutes,
      runOnFirstSync⟩) rfl rfl rfl rfl rfl rfl
    exact hregistered.startWorker
  | cancel taskId =>
    rw [TaskScheduler.step, tryStep]
    cases hs' : s.cancel eraseEnd taskId with
    | none => exact h
    | some result => exact h.cancel (hok taskId rfl) hs'
  | rescheduleNow taskId now =>
    rw [TaskScheduler.step, tryStep]
    cases hs' : s.rescheduleNow taskId now with
    | none => exact h
    | some result =>
      dsimp only [bind, Option.bind]
      rw [List.append_nil]
      exact h.rescheduleNow hs'
  | updateDelay taskId newDelay =>
    rw [TaskScheduler.step, tryStep]
    cases hs' : s.updateDelay taskId newDelay with
    | none => exact h
    | some result =>
      dsimp only [bind, Option.bind]
      rw [List.append_nil]
      exact h.updateDelay hs'
  | updateCurrentTaskDelay newDelay =>
    rw [TaskScheduler.step, tryStep]
    split
    · rename_i hsome
      split at hsome
      · cases hsome
        rw [List.append_nil]
        exact h.setCurrentDelay newDelay
      · cases hsome
    · exact h
  | takeTask taskId now =>
    rw [TaskScheduler.step, tryStep]
    cases hs' : s.takeTask taskId now with
    | none => exact h
    | some result => exact h.take hs'
  | wallClockWorker clock now =>
    rw [TaskScheduler.step, tryStep]
    split
    · rename_i hsome
      split at hsome
      · split at hsome
        · cases hsome
          rw [List.append_nil]
          exact h.wallClockWorker clock
        · cases hsome
      · cases hsome
    · exact h
  | finishTask now =>
    rw [TaskScheduler.step, tryStep]
    cases hs' : s.finishTask now with
    | none => exact h
    | some result => exact h.finish hs'
  | otherScheduler ids =>
    rw [TaskScheduler.step, tryStep]
    dsimp only
    rw [List.append_nil]
    exact h.frame (List.Perm.refl _) rfl (List.Perm.refl _) (Nat.le_add_right _ _) h.slots h.queued
  | preReboot =>
    rw [TaskScheduler.step, tryStep]
    dsimp only
    rw [List.append_nil]
    exact h.frame (List.Perm.refl _) rfl (List.Perm.refl _) (Nat.le_refl _) h.slots h.queued

/-- What the scheduler promises about its tasks. -/
structure Tracked (x : Execution) : Prop where
  /-- A live task is in exactly one place. -/
  live : ∀ taskId, Live x.events taskId → (x.state.allTasks.map Task.taskId).count taskId = 1
  /-- No task is in two places, or in one place twice. -/
  unique : ∀ taskId, (x.state.allTasks.map Task.taskId).count taskId ≤ 1
  onceStarts : OnceStarts x.events
  noStartAfterCancel : NoStartAfterCancel x.events
  /-- A cancelled task has left the queue, the slots and the registrations, and at the end of
  its current run it leaves the scheduler. -/
  cancelled : ∀ taskId, CancelAccepted x.events taskId → taskId ∉ x.state.registered ∧
    ∀ task ∈ x.state.allTasks, task.taskId = taskId → x.state.currentTask = some task

theorem Inv.tracked {x : Execution} (h : Inv x) : Tracked x := by
  have hnodup : (x.state.allTasks.map Task.taskId).Nodup := by
    rw [← fst_key]
    exact h.board.nodup
  constructor
  · intro taskId hlive
    apply List.count_eq_one_of_mem hnodup
    have hmem := ((h.board.live taskId).mp hlive).1
    rwa [State.keys, fst_key] at hmem
  · exact List.nodup_iff_count_le_one.mp hnodup
  · exact h.onceStarts
  · exact h.noStart
  · intro taskId haccepted
    have hdead : ¬Live x.events taskId := fun hlive => hlive.2.1 haccepted
    constructor
    · intro hregistered
      exact hdead ((h.board.registered_iff taskId).mp hregistered).2
    · rintro task htask rfl
      have hcancelling : x.state.cancelling = some task.taskId := by
        by_contra hne
        exact hdead ((h.board.live _).mpr ⟨mem_places htask, hne⟩)
      obtain ⟨current, hcurrent, -, hid⟩ := cancelling_eq_some_iff.mp hcancelling
      have hsame := List.inj_on_of_nodup_map hnodup htask
        (mem_allTasks.mpr (.inr (.inl hcurrent))) hid.symm
      rw [hcurrent, hsame]

/-- In every run that cancels only registered wall clock tasks, no task is lost or duplicated. -/
theorem run_tracked {labels : List Label}
    (h : Meets (step eraseEnd) CancelsRegistered {} labels) :
    Tracked (run (step eraseEnd) {} labels) :=
  (h.invariant (fun _ _ hinv hok => hinv.step hok) Inv.empty).tracked

end

/-- A wall clock task is scheduled and cancelled, and another one is scheduled. -/
def cancelledOnce : List Label :=
  [.scheduleWallClock 0 15 0 false, .cancel ⟨.wallClock, 1⟩, .scheduleWallClock 0 60 0 false]

theorem cancelledOnce_tracked : Tracked (run (step List.dropLast) {} cancelledOnce) := by
  apply run_tracked
  refine ⟨?_, ?_, ?_, trivial⟩
  · rintro taskId ⟨⟩
  · rintro taskId heq -
    cases heq
    decide
  · rintro taskId ⟨⟩

/-- Cancelling the first task again erases the last registration, with the runner in its slot. -/
theorem cancelledTwice_lost :
    ¬ ∀ (eraseEnd : List WallClockTask → List WallClockTask) (labels : List Label),
      Tracked (run (step eraseEnd) {} labels) := by
  intro h
  have hlive : Live (run (step List.dropLast) {}
      (cancelledOnce ++ [.cancel ⟨.wallClock, 1⟩])).events ⟨.wallClock, 3⟩ := by
    refine ⟨⟨true, by decide⟩, ?_, ?_⟩
    · rintro ⟨result, -, hmem⟩
      revert hmem
      cases result <;> decide
    · rintro ⟨hmem, -⟩
      revert hmem
      decide
  have hone := (h List.dropLast (cancelledOnce ++ [.cancel ⟨.wallClock, 1⟩])).live _ hlive
  revert hone
  decide

end Esp32Firmware.TaskScheduler
