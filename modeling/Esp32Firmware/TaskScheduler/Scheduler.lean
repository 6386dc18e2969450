import Esp32Firmware.Library.BinaryHeap

/-!
# The task scheduler

Tasks wait in a queue ordered by their deadlines, are taken out of it while they
run, and are put back if they repeat. The runner of a wall clock task waits in a
slot of its registration instead. Every call takes the scheduler's lock, so the
calls of all threads, those of the running task included, are steps.

The queue is a heap in a vector whose container is also edited in place: a task is removed from
the middle, or its deadline is changed, and the heap is made anew. The queue holds the same tasks
as before but for the one that was pushed, removed or changed.
-/

namespace Esp32Firmware.TaskScheduler

/-- Which of the two marker bits an ID carries. -/
inductive IdKind where
  | plain
  | uncancelable
  | wallClock
deriving DecidableEq

/-- A task ID: a value of the counter shared by all schedulers and its marker bit. -/
structure TaskId where
  kind : IdKind
  number : Nat
deriving DecidableEq

/-- The function of a task, as far as the scheduler knows it. -/
inductive TaskFunction where
  | user
  | wallClockWorker
deriving DecidableEq

/-- Times and delays are in microseconds. -/
structure Task where
  taskId : TaskId
  fn : TaskFunction
  nextDeadline : Int
  delay : Int
  once : Bool
  cancelled : Bool := false
  immediateReschedule : Bool := false
deriving DecidableEq

structure WallClockTask where
  runnerTask : Option Task
  taskId : TaskId
  intervalMinutes : Nat
  runOnFirstSync : Bool
deriving DecidableEq

/-- The result of a cancellation. -/
inductive CancelResult where
  | notFound
  | cancelled
  | willBeCancelled
deriving DecidableEq

structure State where
  tasks : List Task := []
  currentTask : Option Task := none
  wallClockTasks : List WallClockTask := []
  wallClockWorkerStarted : Bool := false
  wallClockLastMinute : Option Nat := none
  rebooting : Bool := false
  lastTaskId : Nat := 0
deriving DecidableEq

/-- The time of day of a synchronised clock. -/
structure ClockTime where
  hour : Nat
  minute : Nat
  second : Nat
  microsecond : Nat

namespace State

section

def hasId (taskId : TaskId) (task : Task) : Bool :=
  task.taskId == taskId

def removeByTaskID (taskId : TaskId) (tasks : List Task) : List Task :=
  tasks.eraseP (hasId taskId)

def findByTaskID (taskId : TaskId) (tasks : List Task) : Option Task :=
  tasks.find? (hasId taskId)

/-- The change of the first task with this ID. -/
def modifyTask (taskId : TaskId) (f : Task → Task) : List Task → List Task
  | [] => []
  | task :: rest =>
    if hasId taskId task then f task :: rest else task :: modifyTask taskId f rest

/-- No task of the queue has an earlier deadline. -/
def IsTop (task : Task) (tasks : List Task) : Prop :=
  ∀ other ∈ tasks, task.nextDeadline ≤ other.nextDeadline

instance (task : Task) (tasks : List Task) : Decidable (IsTop task tasks) :=
  inferInstanceAs (Decidable (∀ other ∈ tasks, task.nextDeadline ≤ other.nextDeadline))

/-- The earliest deadline of the queue. -/
def topDeadline (default : Int) : List Task → Int
  | [] => default
  | task :: rest => rest.foldl (fun deadline task => min deadline task.nextDeadline)
      task.nextDeadline

end

section

/-- A new ID from the shared counter. -/
def newTaskId (s : State) (kind : IdKind) : TaskId × State :=
  (⟨kind, s.lastTaskId + 1⟩, { s with lastTaskId := s.lastTaskId + 1 })

def push (s : State) (task : Task) : State :=
  { s with tasks := task :: s.tasks }

def scheduleOnce (s : State) (now delay : Int) : TaskId × State :=
  let (taskId, s) := s.newTaskId .plain
  (taskId, s.push { taskId, fn := .user, nextDeadline := now + delay, delay := 0, once := true })

def scheduleWithFixedDelay (s : State) (now firstDelay delay : Int) : TaskId × State :=
  let (taskId, s) := s.newTaskId .plain
  (taskId, s.push { taskId, fn := .user, nextDeadline := now + firstDelay, delay, once := false })

def scheduleUncancelable (s : State) (fn : TaskFunction) (now firstDelay delay : Int) :
    TaskId × State :=
  let (taskId, s) := s.newTaskId .uncancelable
  (taskId, s.push { taskId, fn, nextDeadline := now + firstDelay, delay, once := false })

/-- The runner of a new wall clock task waits in its slot. -/
def registerWallClock (s : State) (now : Int) (intervalMinutes : Nat) (executionDelay : Int)
    (runOnFirstSync : Bool) : TaskId × State :=
  let (taskId, s) := s.newTaskId .wallClock
  let runnerTask : Task :=
    { taskId, fn := .user, nextDeadline := now, delay := executionDelay, once := true }
  (taskId, { s with
    wallClockTasks := s.wallClockTasks ++
      [{ runnerTask := some runnerTask, taskId, intervalMinutes, runOnFirstSync }] })

/-- The first wall clock task starts the worker, which runs every second until the clock is
synchronised. -/
def startWorker (s : State) (now : Int) : Option TaskId × State :=
  if s.wallClockWorkerStarted then
    (none, s)
  else
    let s := { s with wallClockWorkerStarted := true }
    let (taskId, s) := s.scheduleUncancelable .wallClockWorker now 0 1000000
    (some taskId, s)

end

section

variable (eraseEnd : List WallClockTask → List WallClockTask)

/-- The erasure of a registration, and whether its runner had left the slot. An ID that is not
registered erases at the end iterator, which the standard library leaves undefined. -/
def eraseWallClock (taskId : TaskId) (wallClockTasks : List WallClockTask) :
    List WallClockTask × Bool :=
  match wallClockTasks.find? fun w => w.taskId == taskId with
  | some w => (wallClockTasks.eraseP fun w => w.taskId == taskId, w.runnerTask.isNone)
  | none => (eraseEnd wallClockTasks, false)

/-- The cancellation of a task that is not waiting in a slot. -/
def cancelTask (s : State) (taskId : TaskId) : CancelResult × State :=
  match s.currentTask with
  | some task =>
    if task.taskId = taskId then
      (.willBeCancelled, { s with currentTask := some { task with cancelled := true } })
    else if (findByTaskID taskId s.tasks).isSome then
      (.cancelled, { s with tasks := removeByTaskID taskId s.tasks })
    else
      (.notFound, s)
  | none =>
    if (findByTaskID taskId s.tasks).isSome then
      (.cancelled, { s with tasks := removeByTaskID taskId s.tasks })
    else
      (.notFound, s)

/-- `none` where the source aborts. -/
def cancel (s : State) (taskId : TaskId) : Option (CancelResult × State) :=
  if taskId = ⟨.plain, 0⟩ then
    some (.notFound, s)
  else if taskId.kind = .uncancelable then
    none
  else if taskId.kind = .wallClock then
    let (wallClockTasks, taskScheduled) := eraseWallClock eraseEnd taskId s.wallClockTasks
    let s := { s with wallClockTasks }
    if taskScheduled then some (s.cancelTask taskId) else some (.cancelled, s)
  else
    some (s.cancelTask taskId)

end

section

/-- `none` where the source aborts. -/
def rescheduleNow (s : State) (taskId : TaskId) (now : Int) : Option (Bool × State) :=
  if taskId = ⟨.plain, 0⟩ then
    some (false, s)
  else if taskId.kind = .wallClock then
    none
  else
    let reschedule (task : Task) : Task :=
      { task with nextDeadline := min now (topDeadline now s.tasks - 1) }
    match s.currentTask.filter (hasId taskId) with
    | some task =>
      some (true, { s with currentTask := some { task with immediateReschedule := true } })
    | none =>
      if (findByTaskID taskId s.tasks).isSome then
        some (true, { s with tasks := modifyTask taskId reschedule s.tasks })
      else
        some (false, s)

/-- `none` where the source aborts. -/
def updateDelay (s : State) (taskId : TaskId) (newDelay : Int) : Option (Bool × State) :=
  if taskId = ⟨.plain, 0⟩ then
    some (false, s)
  else if taskId.kind = .wallClock then
    none
  else
    let retime (task : Task) : Task :=
      { task with nextDeadline := task.nextDeadline - task.delay + newDelay, delay := newDelay }
    match s.currentTask.filter (hasId taskId) with
    | some task => some (true, { s with currentTask := some { task with delay := newDelay } })
    | none =>
      if (findByTaskID taskId s.tasks).isSome then
        some (true, { s with tasks := modifyTask taskId retime s.tasks })
      else
        some (false, s)

end

section

/-- The first part of the loop takes a task whose deadline has elapsed from the top of the queue.
Among equal deadlines the label chooses. The flag says whether the task starts. -/
def takeTask (s : State) (taskId : TaskId) (now : Int) : Option (Bool × State) :=
  match s.currentTask, findByTaskID taskId s.tasks with
  | none, some task =>
    if IsTop task s.tasks ∧ task.nextDeadline ≤ now then
      let s := { s with tasks := removeByTaskID taskId s.tasks }
      if task.cancelled then
        some (false, s)
      else
        some (true, { s with currentTask := some task })
    else
      none
  | _, _ => none

/-- The runner goes back into the slot of its registration, if there still is one. -/
def returnRunner (task : Task) : List WallClockTask → List WallClockTask
  | [] => []
  | w :: rest =>
    if w.taskId = task.taskId then
      { w with runnerTask := some task } :: rest
    else
      w :: returnRunner task rest

/-- The last part of the loop drops the task or puts it back. -/
def finishTask (s : State) (now : Int) : Option (TaskId × State) :=
  match s.currentTask with
  | none => none
  | some task =>
    let s := { s with currentTask := none }
    if task.once then
      if task.taskId.kind ≠ .wallClock then
        some (task.taskId, s)
      else
        some (task.taskId, { s with wallClockTasks := returnRunner task s.wallClockTasks })
    else if task.cancelled then
      some (task.taskId, s)
    else
      some (task.taskId, s.push { task with
          nextDeadline := if task.immediateReschedule then 0 else now + task.delay
          immediateReschedule := false })

end

/-- Whether a wall clock task is to run in this minute. -/
def isDue (lastMinute : Option Nat) (minutesSinceMidnight : Nat) (w : WallClockTask) : Bool :=
  match lastMinute with
  | none => w.runOnFirstSync
  | some _ => minutesSinceMidnight % w.intervalMinutes == 0

/-- The runners of the due tasks leave their slots for the queue. A runner that is still in the
queue or running is skipped. -/
def releaseRunners (due : WallClockTask → Bool) (now : Int) :
    List WallClockTask → List WallClockTask × List Task
  | [] => ([], [])
  | w :: rest =>
    let (slots, released) := releaseRunners due now rest
    match w.runnerTask with
    | some runner =>
      if due w then
        ({ w with runnerTask := none } :: slots,
          { runner with nextDeadline := now + runner.delay } :: released)
      else
        (w :: slots, released)
    | none => (w :: slots, released)

/-- The worker sets the delay of the running task, which is the worker's own. -/
def setCurrentDelay (s : State) (delay : Int) : State :=
  { s with currentTask := s.currentTask.map fun task => { task with delay } }

def wallClockWorker (s : State) (clock : Option ClockTime) (now : Int) : State :=
  match clock with
  | none => s
  | some time =>
    if s.wallClockLastMinute = some time.minute then
      s.setCurrentDelay 1000000
    else
      let s := s.setCurrentDelay
        (max ((60 - time.second) * 1000000 - time.microsecond) 524288)
      let (slots, released) := releaseRunners
        (isDue s.wallClockLastMinute (time.hour * 60 + time.minute)) now s.wallClockTasks
      { s with
        wallClockTasks := slots
        tasks := released ++ s.tasks
        wallClockLastMinute := some time.minute }

end State

/-- The steps of the scheduler. Between taking and finishing a task, the calls are those of the
task itself and of other threads. -/
inductive Label where
  | scheduleOnce (now delay : Int)
  | scheduleWithFixedDelay (now firstDelay delay : Int)
  | scheduleUncancelable (now firstDelay delay : Int)
  | scheduleWallClock (now : Int) (intervalMinutes : Nat) (executionDelay : Int)
      (runOnFirstSync : Bool)
  | cancel (taskId : TaskId)
  | rescheduleNow (taskId : TaskId) (now : Int)
  | updateDelay (taskId : TaskId) (newDelay : Int)
  | updateCurrentTaskDelay (newDelay : Int)
  | takeTask (taskId : TaskId) (now : Int)
  | wallClockWorker (clock : Option ClockTime) (now : Int)
  | finishTask (now : Int)
  | otherScheduler (ids : Nat)
  | preReboot

/-- What the callers see of the steps. A wall clock task repeats. -/
inductive Event where
  | scheduled (taskId : TaskId) (repeats : Bool)
  | cancelled (taskId : TaskId) (result : CancelResult)
  | started (taskId : TaskId)
  | finished (taskId : TaskId)
deriving DecidableEq

variable (eraseEnd : List WallClockTask → List WallClockTask)

/-- A step and its events, `none` if it is impossible in this state or aborts. Before a reboot,
tasks are still taken and finished, but their functions no longer run. -/
def tryStep (s : State) : Label → Option (List Event × State)
  | .scheduleOnce now delay =>
    let (taskId, s) := s.scheduleOnce now delay
    some ([.scheduled taskId false], s)
  | .scheduleWithFixedDelay now firstDelay delay =>
    let (taskId, s) := s.scheduleWithFixedDelay now firstDelay delay
    some ([.scheduled taskId true], s)
  | .scheduleUncancelable now firstDelay delay =>
    let (taskId, s) := s.scheduleUncancelable .user now firstDelay delay
    some ([.scheduled taskId true], s)
  | .scheduleWallClock now intervalMinutes executionDelay runOnFirstSync =>
    let (taskId, s) := s.registerWallClock now intervalMinutes executionDelay runOnFirstSync
    let (workerId, s) := s.startWorker now
    some (.scheduled taskId true :: workerId.toList.map (.scheduled · true), s)
  | .cancel taskId => do
      let (result, s) ← s.cancel eraseEnd taskId
      some ([.cancelled taskId result], s)
  | .rescheduleNow taskId now => do
      let (_, s) ← s.rescheduleNow taskId now
      some ([], s)
  | .updateDelay taskId newDelay => do
      let (_, s) ← s.updateDelay taskId newDelay
      some ([], s)
  | .updateCurrentTaskDelay newDelay =>
    if s.currentTask.isSome then some ([], s.setCurrentDelay newDelay) else none
  | .takeTask taskId now => do
      let (starts, s) ← s.takeTask taskId now
      some (if starts ∧ ¬s.rebooting then [.started taskId] else [], s)
  | .wallClockWorker clock now =>
    match s.currentTask with
    | some task =>
      if task.fn = .wallClockWorker ∧ ¬s.rebooting then
        some ([], s.wallClockWorker clock now)
      else
        none
    | none => none
  | .finishTask now => do
      let (taskId, s) ← s.finishTask now
      some ([.finished taskId], s)
  | .otherScheduler ids => some ([], { s with lastTaskId := s.lastTaskId + ids })
  | .preReboot => some ([], { s with rebooting := true })

/-- A run with the events it has shown so far. -/
structure Execution where
  state : State := {}
  events : List Event := []
deriving DecidableEq

/-- A step that is impossible changes nothing. -/
def step (x : Execution) (label : Label) : Execution :=
  match tryStep eraseEnd x.state label with
  | some (events, s) => { state := s, events := x.events ++ events }
  | none => x

open BinaryHeap

instance : Inhabited Task where
  default := { taskId := ⟨.plain, 0⟩, fn := .user, nextDeadline := 0, delay := 0, once := true }

def compare (a b : Task) : Bool := a.nextDeadline ≥ b.nextDeadline

/-- The comparison puts the earliest deadline on top, although it holds for equal ones too. -/
theorem compares_compare : Compares compare Task.nextDeadline := by
  constructor
  · intro a b h
    exact of_decide_eq_true h
  · intro a b h
    exact (not_le.mp (of_decide_eq_false h)).le

theorem compare_strict_iff (a b : Task) :
    (compare a b = true ↔ b.nextDeadline < a.nextDeadline) ↔
      a.nextDeadline ≠ b.nextDeadline := by
  have hcompare : compare a b = true ↔ b.nextDeadline ≤ a.nextDeadline := decide_eq_true_iff
  rw [hcompare]
  omega

/-- The container and how much of it is in use. -/
structure TaskQueue where
  c : ℕ → Task
  size : ℕ

namespace TaskQueue

def empty : TaskQueue where
  c := fun _ => default
  size := 0

def top (q : TaskQueue) : Task := q.c 0

def push (q : TaskQueue) (task : Task) : TaskQueue where
  c := pushHeapAt compare q.c q.size 0 task
  size := q.size + 1

def topAndPop (q : TaskQueue) : Task × TaskQueue :=
  let c := popHeap compare q.c q.size
  (c (q.size - 1), { c, size := q.size - 1 })

/-- The place of the first task with this ID. The ID 0 stands for no task. -/
def indexOf (q : TaskQueue) (taskId : TaskId) : Option ℕ :=
  if taskId = ⟨.plain, 0⟩ then none
  else (List.range q.size).find? fun i => (q.c i).taskId == taskId

def restoreHeap (q : TaskQueue) : TaskQueue where
  c := makeHeap compare q.c q.size
  size := q.size

def removeByTaskID (q : TaskQueue) (taskId : TaskId) : Option (Task × TaskQueue) :=
  match q.indexOf taskId with
  | none => none
  | some 0 => some q.topAndPop
  | some (i + 1) =>
    some (q.c (i + 1), restoreHeap { c := eraseAt q.c (i + 1), size := q.size - 1 })

/-- A task is changed where it is, and the heap is restored. -/
def modifyAt (q : TaskQueue) (i : ℕ) (f : Task → Task) : TaskQueue :=
  restoreHeap { q with c := Function.update q.c i (f (q.c i)) }

/-- What the queue holds. -/
def tasks (q : TaskQueue) : Multiset Task := elements q.c q.size

/-- The heap property. -/
def Heap (q : TaskQueue) : Prop := Ordered Task.nextDeadline q.c 0 q.size

variable {q : TaskQueue} {task : Task} {taskId : TaskId}

theorem mem_tasks : task ∈ q.tasks ↔ ∃ i < q.size, q.c i = task := mem_elements

theorem heap_empty : empty.Heap := by
  intro c _ hc
  exact absurd hc (Nat.not_lt_zero c)

theorem Heap.top_le (h : q.Heap) (htask : task ∈ q.tasks) :
    q.top.nextDeadline ≤ task.nextDeadline := by
  obtain ⟨i, hi, rfl⟩ := mem_tasks.mp htask
  exact Ordered.top_le h hi

theorem Heap.push (h : q.Heap) (task : Task) : (q.push task).Heap :=
  (pushHeap_filled compares_compare h task).ordered

theorem Heap.tasks_push (h : q.Heap) (task : Task) : (q.push task).tasks = task ::ₘ q.tasks :=
  pushHeap_elements compares_compare h task

/-- The task that is popped is the top, and the others stay. -/
theorem Heap.topAndPop (h : q.Heap) (hsize : 0 < q.size) :
    q.topAndPop.1 = q.top ∧ q.tasks = q.top ::ₘ q.topAndPop.2.tasks ∧ q.topAndPop.2.Heap := by
  obtain ⟨c, size⟩ := q
  obtain ⟨n, rfl⟩ := Nat.exists_eq_succ_of_ne_zero hsize.ne'
  have hpopped := popHeap_popped compares_compare h
  exact ⟨hpopped.last, hpopped.elements, hpopped.ordered⟩

theorem indexOf_some {i : ℕ} (h : q.indexOf taskId = some i) :
    i < q.size ∧ (q.c i).taskId = taskId := by
  unfold indexOf at h
  split at h
  · cases h
  · have hmem := List.mem_of_find?_eq_some h
    have hid := List.find?_some h
    exact ⟨List.mem_range.mp hmem, beq_iff_eq.mp hid⟩

theorem heap_restoreHeap (q : TaskQueue) : q.restoreHeap.Heap :=
  (makeHeap_filled compares_compare q.c q.size).1

@[simp] theorem tasks_restoreHeap (q : TaskQueue) : q.restoreHeap.tasks = q.tasks :=
  (makeHeap_filled compares_compare q.c q.size).2

/-- The task that is removed has the ID, and the others stay. -/
theorem Heap.removeByTaskID {q' : TaskQueue} (h : q.Heap)
    (hremove : q.removeByTaskID taskId = some (task, q')) :
    task.taskId = taskId ∧ q.tasks = task ::ₘ q'.tasks ∧ q'.Heap := by
  unfold TaskQueue.removeByTaskID at hremove
  split at hremove
  next => cases hremove
  next hindex =>
    obtain ⟨hsize, hid⟩ := indexOf_some hindex
    obtain ⟨htop, htasks, hheap⟩ := h.topAndPop hsize
    rw [Option.some.inj hremove] at htop htasks hheap
    rw [show task = q.top from htop]
    exact ⟨hid, htasks, hheap⟩
  next i hindex =>
    obtain ⟨hsize, hid⟩ := indexOf_some hindex
    obtain ⟨rfl, rfl⟩ := Prod.mk.inj (Option.some.inj hremove)
    refine ⟨hid, ?_, heap_restoreHeap _⟩
    have hle : i + 1 ≤ q.size - 1 := by omega
    have herased := elements_eraseAt q.c hle
    rw [Nat.sub_add_cancel (by omega)] at herased
    rw [tasks_restoreHeap]
    exact herased

theorem heap_modifyAt (q : TaskQueue) (i : ℕ) (f : Task → Task) : (q.modifyAt i f).Heap :=
  heap_restoreHeap _

/-- Only the changed task is another one. -/
theorem tasks_modifyAt {i : ℕ} (hi : i < q.size) (f : Task → Task) :
    ∃ rest, q.tasks = q.c i ::ₘ rest ∧ (q.modifyAt i f).tasks = f (q.c i) ::ₘ rest := by
  obtain ⟨rest, hold, hnew⟩ := elements_update q.c hi
  refine ⟨rest, hold, ?_⟩
  rw [modifyAt, tasks_restoreHeap]
  exact hnew (f (q.c i))

end TaskQueue

end Esp32Firmware.TaskScheduler
