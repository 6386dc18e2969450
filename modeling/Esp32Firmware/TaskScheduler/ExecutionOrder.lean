import Esp32Firmware.TaskScheduler.Scheduler
import Esp32Firmware.Library.Run

/-!
# The order in which tasks are executed

The loop takes the top of the queue when its deadline has elapsed. A task that is rescheduled gets
a deadline before those of all queued tasks, or before those of all that were never rescheduled if
it is running. Whichever calls follow, it keeps its lead until it is executed.

The scheduler whose tasks are a list is the other model. A call with an ID does to the heap what it
does to the list.
-/

namespace Esp32Firmware.TaskScheduler

/-- The queue and the task that was taken out of it. -/
structure Loop where
  queue : TaskQueue := .empty
  currentTask : Option Task := none

namespace Loop

section

/-- The task with this ID is the running one. -/
def running (s : Loop) (taskId : TaskId) : Option Task :=
  s.currentTask.filter (State.hasId taskId)

/-- A queued or running task has this ID. -/
def Knows (s : Loop) (taskId : TaskId) : Prop :=
  (∃ i < s.queue.size, (s.queue.c i).taskId = taskId) ∨ ∃ task ∈ s.currentTask, task.taskId = taskId

instance (s : Loop) (taskId : TaskId) : Decidable (s.Knows taskId) :=
  inferInstanceAs (Decidable ((∃ i < s.queue.size, (s.queue.c i).taskId = taskId) ∨
    ∃ task ∈ s.currentTask, task.taskId = taskId))

/-- The IDs of new tasks are new, and the runner of a wall clock task waits in its slot before it
is pushed. Only running tasks are marked as cancelled. -/
def push (s : Loop) (task : Task) : Loop :=
  if s.Knows task.taskId ∨ task.cancelled then s else { s with queue := s.queue.push task }

/-- `none` where the source aborts. A wall clock task whose runner is in its slot is neither
queued nor running. -/
def cancel (s : Loop) (taskId : TaskId) : Option Loop :=
  if taskId = ⟨.plain, 0⟩ then
    some s
  else if taskId.kind = .uncancelable then
    none
  else
    match s.running taskId with
    | some task => some { s with currentTask := some { task with cancelled := true } }
    | none =>
      match s.queue.removeByTaskID taskId with
      | some (_, queue) => some { s with queue }
      | none => some s

/-- `none` where the source aborts. -/
def rescheduleNow (s : Loop) (taskId : TaskId) (now : Int) : Option (Bool × Loop) :=
  if taskId = ⟨.plain, 0⟩ then
    some (false, s)
  else if taskId.kind = .wallClock then
    none
  else
    match s.running taskId with
    | some task =>
      some (true, { s with currentTask := some { task with immediateReschedule := true } })
    | none =>
      match s.queue.indexOf taskId with
      | none => some (false, s)
      | some i =>
        let nextDeadline := min now (s.queue.top.nextDeadline - 1)
        some (true, { s with queue := s.queue.modifyAt i ({ · with nextDeadline }) })

/-- `none` where the source aborts. -/
def updateDelay (s : Loop) (taskId : TaskId) (newDelay : Int) : Option (Bool × Loop) :=
  if taskId = ⟨.plain, 0⟩ then
    some (false, s)
  else if taskId.kind = .wallClock then
    none
  else
    match s.running taskId with
    | some task => some (true, { s with currentTask := some { task with delay := newDelay } })
    | none =>
      match s.queue.indexOf taskId with
      | none => some (false, s)
      | some i =>
        let retime (task : Task) : Task :=
          { task with nextDeadline := task.nextDeadline - task.delay + newDelay
                      delay := newDelay }
        some (true, { s with queue := s.queue.modifyAt i retime })

def updateCurrentTaskDelay (s : Loop) (newDelay : Int) : Loop :=
  { s with currentTask := s.currentTask.map ({ · with delay := newDelay }) }

/-- The first part of the loop, and the task it took. -/
def takeTask (s : Loop) (now : Int) : Option (Task × Loop) :=
  match s.currentTask with
  | some _ => none
  | none =>
    if 0 < s.queue.size ∧ s.queue.top.nextDeadline ≤ now then
      let (task, queue) := s.queue.topAndPop
      some (task, { queue, currentTask := if task.cancelled then none else some task })
    else
      none

/-- The last part of the loop. The runner of a wall clock task goes back into its slot. -/
def finishTask (s : Loop) (now : Int) : Loop :=
  match s.currentTask with
  | none => s
  | some task =>
    if task.once ∨ task.cancelled then
      { s with currentTask := none }
    else
      let nextDeadline := if task.immediateReschedule then 0 else now + task.delay
      { queue := s.queue.push { task with nextDeadline, immediateReschedule := false }
        currentTask := none }

end

/-- The calls of all threads, which take the lock in some order, and the two parts of the loop. -/
inductive Call where
  | push (task : Task)
  | cancel (taskId : TaskId)
  | rescheduleNow (taskId : TaskId) (now : Int)
  | updateDelay (taskId : TaskId) (newDelay : Int)
  | updateCurrentTaskDelay (newDelay : Int)
  | takeTask (now : Int)
  | finishTask (now : Int)

/-- Several tasks are rescheduled in a row, and each time the call returns `true`. -/
def rescheduleAll (s : Loop) : List (TaskId × Int) → Option Loop
  | [] => some s
  | (taskId, now) :: rest =>
    match s.rescheduleNow taskId now with
    | some (true, s') => s'.rescheduleAll rest
    | _ => none

/-- A call that is impossible or aborts changes nothing. -/
def step (s : Loop) : Call → Loop
  | .push task => s.push task
  | .cancel taskId => (s.cancel taskId).getD s
  | .rescheduleNow taskId now => ((s.rescheduleNow taskId now).map Prod.snd).getD s
  | .updateDelay taskId newDelay => ((s.updateDelay taskId newDelay).map Prod.snd).getD s
  | .updateCurrentTaskDelay newDelay => s.updateCurrentTaskDelay newDelay
  | .takeTask now => ((s.takeTask now).map Prod.snd).getD s
  | .finishTask now => s.finishTask now

/-- The task a call executes. -/
def executes (s : Loop) : Call → Option TaskId
  | .takeTask now => ((s.takeTask now).filter fun taken => !taken.1.cancelled).map fun taken =>
    taken.1.taskId
  | _ => none

/-- The tasks that are executed in a run. -/
def executed (s : Loop) : List Call → List TaskId
  | [] => []
  | call :: rest => (s.executes call).toList ++ (s.step call).executed rest

end Loop

/-- What the calls are about: the tasks that wait, in no order, and the one that runs. -/
structure Agenda where
  tasks : Multiset Task
  currentTask : Option Task

namespace Agenda

open Loop (Call)

/-- A task is rescheduled: a waiting one is due and before all that wait. -/
inductive Rescheduled (w : Agenda) (now : Int) : TaskId → Agenda → Prop
  | running {task : Task} (hcurrent : w.currentTask = some task) :
      Rescheduled w now task.taskId
        { w with currentTask := some { task with immediateReschedule := true } }
  | waiting {task : Task} {rest : Multiset Task} (htasks : w.tasks = task ::ₘ rest)
      {nextDeadline : Int} (hdue : nextDeadline ≤ now)
      (hlead : ∀ other ∈ w.tasks, nextDeadline < other.nextDeadline) :
      Rescheduled w now task.taskId { w with tasks := { task with nextDeadline } ::ₘ rest }

/-- A call and the task it executes. No waiting task is before one that is executed. -/
inductive Step (w : Agenda) : Call → Option TaskId → Agenda → Prop
  | idle (call : Call) : Step w call none w
  | push {task : Task} (hwaiting : ∀ other ∈ w.tasks, other.taskId ≠ task.taskId)
      (hrunning : ∀ other ∈ w.currentTask, other.taskId ≠ task.taskId)
      (hactive : task.cancelled = false) :
      Step w (.push task) none { w with tasks := task ::ₘ w.tasks }
  | cancelRunning {task : Task} (hcurrent : w.currentTask = some task) :
      Step w (.cancel task.taskId) none
        { w with currentTask := some { task with cancelled := true } }
  | cancel {task : Task} {rest : Multiset Task} (htasks : w.tasks = task ::ₘ rest) :
      Step w (.cancel task.taskId) none { w with tasks := rest }
  | reschedule {taskId : TaskId} {w' : Agenda} {now : Int} (h : Rescheduled w now taskId w') :
      Step w (.rescheduleNow taskId now) none w'
  | delayRunning {task : Task} (hcurrent : w.currentTask = some task) (newDelay : Int) :
      Step w (.updateDelay task.taskId newDelay) none
        { w with currentTask := some { task with delay := newDelay } }
  | delay {task : Task} {rest : Multiset Task} (htasks : w.tasks = task ::ₘ rest)
      (newDelay nextDeadline : Int) :
      Step w (.updateDelay task.taskId newDelay) none
        { w with tasks := { task with nextDeadline, delay := newDelay } ::ₘ rest }
  | delayCurrent {task : Task} (hcurrent : w.currentTask = some task) (newDelay : Int) :
      Step w (.updateCurrentTaskDelay newDelay) none
        { w with currentTask := some { task with delay := newDelay } }
  | take {task : Task} {rest : Multiset Task} (hcurrent : w.currentTask = none)
      (htasks : w.tasks = task ::ₘ rest) (now : Int)
      (hfirst : ∀ other ∈ w.tasks, task.nextDeadline ≤ other.nextDeadline)
      (hactive : task.cancelled = false) :
      Step w (.takeTask now) (some task.taskId) { tasks := rest, currentTask := some task }
  | takeCancelled {task : Task} {rest : Multiset Task} (hcurrent : w.currentTask = none)
      (htasks : w.tasks = task ::ₘ rest) (now : Int) (hcancelled : task.cancelled = true) :
      Step w (.takeTask now) none { tasks := rest, currentTask := none }
  | drop {task : Task} (hcurrent : w.currentTask = some task) (now : Int)
      (hlast : task.once = true ∨ task.cancelled = true) :
      Step w (.finishTask now) none { w with currentTask := none }
  | finish {task : Task} (hcurrent : w.currentTask = some task) (now : Int)
      (hactive : task.cancelled = false) {nextDeadline : Int}
      (hnext : task.immediateReschedule = true → nextDeadline = 0) :
      Step w (.finishTask now) none
        { tasks := { task with nextDeadline, immediateReschedule := false } ::ₘ w.tasks
          currentTask := none }

/-- The IDs of the queued tasks and of the running one. -/
def ids (w : Agenda) : Multiset TaskId :=
  match w.currentTask with
  | none => w.tasks.map Task.taskId
  | some task => task.taskId ::ₘ w.tasks.map Task.taskId

structure Inv (w : Agenda) : Prop where
  nodup : w.ids.Nodup
  active : ∀ task ∈ w.tasks, task.cancelled = false

/-- Either task `a` waits with an earlier deadline than task `b`, or it runs and will go before
task `b` when it is put back. -/
def Ahead (w : Agenda) (a b : TaskId) : Prop :=
  ∃ second ∈ w.tasks, second.taskId = b ∧
    ((∃ first ∈ w.tasks, first.taskId = a ∧ first.nextDeadline < second.nextDeadline) ∨
      ∃ first ∈ w.currentTask, first.taskId = a ∧ first.immediateReschedule = true ∧
        first.once = false ∧ first.cancelled = false ∧ 0 < second.nextDeadline)

section

variable {w w' : Agenda} {call : Call} {e : Option TaskId}

theorem mem_ids {taskId : TaskId} : taskId ∈ w.ids ↔
    (∃ task ∈ w.tasks, task.taskId = taskId) ∨ ∃ task ∈ w.currentTask, task.taskId = taskId := by
  unfold ids
  split
  next hcurrent => simp [hcurrent]
  next task hcurrent => simp [hcurrent, or_comm, eq_comm]

theorem ids_cons {task : Task} {rest : Multiset Task} (htasks : w.tasks = task ::ₘ rest) :
    w.ids = task.taskId ::ₘ ids { w with tasks := rest } := by
  obtain ⟨tasks, _ | current⟩ := w
  · simpa [ids] using congrArg (Multiset.map Task.taskId) htasks
  · rw [show tasks = task ::ₘ rest from htasks, ids, Multiset.map_cons]
    exact Multiset.cons_swap _ _ _

/-- No call brings an ID but that of a new task. -/
theorem Step.ids_le (hstep : Step w call e w') :
    w'.ids ≤ w.ids ∨ ∃ taskId, taskId ∉ w.ids ∧ w'.ids = taskId ::ₘ w.ids := by
  cases hstep with
  | idle => exact .inl le_rfl
  | @push task hwaiting hrunning =>
    refine .inr ⟨task.taskId, ?_, ?_⟩
    · rw [mem_ids]
      rintro (⟨other, hother, hid⟩ | ⟨other, hother, hid⟩)
      · exact hwaiting other hother hid
      · exact hrunning other hother hid
    · exact ids_cons rfl
  | cancelRunning hcurrent | delayRunning hcurrent | delayCurrent hcurrent | finish hcurrent =>
    simp [ids, hcurrent]
  | cancel htasks =>
    left
    rw [ids_cons htasks]
    exact Multiset.le_cons_self _ _
  | reschedule h =>
    cases h with
    | running hcurrent => simp [ids, hcurrent]
    | waiting htasks => simp [ids, htasks]
  | delay htasks => simp [ids, htasks]
  | take hcurrent htasks => simp [ids, hcurrent, htasks]
  | takeCancelled hcurrent htasks => simp [ids, hcurrent, htasks, Multiset.le_cons_self]
  | drop hcurrent => simp [ids, hcurrent, Multiset.le_cons_self]

theorem Step.active (hstep : Step w call e w') (h : ∀ task ∈ w.tasks, task.cancelled = false) :
    ∀ task ∈ w'.tasks, task.cancelled = false := by
  cases hstep with
  | push _ _ hactive | finish _ _ hactive => simpa [hactive] using h
  | cancel htasks | delay htasks | take _ htasks | takeCancelled _ htasks => simp_all
  | reschedule hrescheduled =>
    cases hrescheduled with
    | running => exact h
    | waiting htasks => simp_all
  | _ => exact h

theorem Inv.step (h : w.Inv) (hstep : Step w call e w') : w'.Inv := by
  constructor
  · obtain hle | ⟨taskId, hnew, hids⟩ := hstep.ids_le
    · exact Multiset.nodup_of_le hle h.nodup
    · rw [hids]
      exact Multiset.nodup_cons.mpr ⟨hnew, h.nodup⟩
  · exact hstep.active h.active

theorem Inv.eq_of_taskId {first second : Task} (h : w.Inv) (hfirst : first ∈ w.tasks)
    (hsecond : second ∈ w.tasks) (hid : first.taskId = second.taskId) : first = second := by
  have hle : w.tasks.map Task.taskId ≤ w.ids := by
    unfold ids
    split <;> simp [Multiset.le_cons_self]
  have hnodup := Multiset.nodup_of_le hle h.nodup
  exact Multiset.inj_on_of_nodup_map hnodup first hfirst second hsecond hid

end

variable {w w' : Agenda} {call : Call} {e : Option TaskId} {a b : TaskId}

/-- Task `b` waits, and task `a`, if it is running, is put back before it when it is
rescheduled. -/
def CanLead (w : Agenda) (a b : TaskId) : Prop :=
  ∃ second ∈ w.tasks, second.taskId = b ∧ ∀ first ∈ w.currentTask, first.taskId = a →
    first.once = false ∧ first.cancelled = false ∧ 0 < second.nextDeadline

/-- The call neither cancels nor delays one of the tasks, nor does it reschedule the second. -/
def Leaves (a b : TaskId) : Call → Prop
  | .cancel taskId | .updateDelay taskId _ => taskId ≠ a ∧ taskId ≠ b
  | .rescheduleNow taskId _ => taskId ≠ b
  | _ => True

theorem mem_rest {task other : Task} {rest : Multiset Task} (htasks : w.tasks = task ::ₘ rest)
    (hother : other ∈ w.tasks) (hne : task.taskId ≠ other.taskId) : other ∈ rest := by
  rw [htasks, Multiset.mem_cons] at hother
  exact hother.resolve_left fun h => hne (congrArg Task.taskId h.symm)

/-- The running task changes in what does not matter for the lead. -/
theorem Ahead.running (h : w.Ahead a b) {task task' : Task} (hcurrent : w.currentTask = some task)
    (hid : task'.taskId = task.taskId) (honce : task'.once = task.once)
    (hcancelled : task.taskId = a → task'.cancelled = task.cancelled)
    (himmediate : task.immediateReschedule = true → task'.immediateReschedule = true) :
    Ahead { w with currentTask := some task' } a b := by
  obtain ⟨second, hsecond, hb, hlead⟩ := h
  refine ⟨second, hsecond, hb, hlead.imp_right ?_⟩
  rintro ⟨first, hfirst, ha, hagain, hrepeats, hactive, hpositive⟩
  obtain rfl : task = first := Option.some.inj (hcurrent.symm.trans hfirst)
  refine ⟨task', rfl, hid.trans ha, himmediate hagain, honce.trans hrepeats, ?_, hpositive⟩
  exact (hcancelled ha).trans hactive

/-- A waiting task other than `b` leaves or changes. If it is task `a`, there is another lead. -/
theorem Ahead.waiting (h : w.Ahead a b) {task : Task} {rest tasks : Multiset Task}
    (htasks : w.tasks = task ::ₘ rest) (hb : task.taskId ≠ b) (hrest : rest ⊆ tasks)
    (hlead : task.taskId = a → ∀ second ∈ w.tasks,
      ∃ first ∈ tasks, first.taskId = a ∧ first.nextDeadline < second.nextDeadline) :
    Ahead { w with tasks } a b := by
  obtain ⟨second, hsecond, rfl, hahead⟩ := h
  refine ⟨second, hrest (mem_rest htasks hsecond hb), rfl, hahead.imp_left ?_⟩
  rintro ⟨first, hfirst, rfl, hlt⟩
  by_cases ha : task.taskId = first.taskId
  · exact hlead ha second hsecond
  · exact ⟨first, hrest (mem_rest htasks hfirst ha), rfl, hlt⟩

/-- Whatever is called, task `a` keeps its lead until it is executed. -/
theorem Ahead.step (h : w.Ahead a b) (hinv : w.Inv) (hstep : Step w call e w')
    (hcall : Leaves a b call) : e = some a ∨ e ≠ some b ∧ w'.Ahead a b := by
  cases hstep with
  | idle => exact .inr ⟨nofun, h⟩
  | push =>
    obtain ⟨second, hsecond, hb, hlead⟩ := h
    refine .inr ⟨nofun, second, Multiset.mem_cons_of_mem hsecond, hb, hlead.imp_left ?_⟩
    rintro ⟨first, hfirst, ha, hlt⟩
    exact ⟨first, Multiset.mem_cons_of_mem hfirst, ha, hlt⟩
  | cancelRunning hcurrent =>
    exact .inr ⟨nofun, h.running hcurrent rfl rfl (fun ha => absurd ha hcall.1) id⟩
  | cancel htasks =>
    exact .inr ⟨nofun, h.waiting htasks hcall.2 (fun _ => id) fun ha => absurd ha hcall.1⟩
  | reschedule hrescheduled =>
    cases hrescheduled with
    | running hcurrent =>
      exact .inr ⟨nofun, h.running hcurrent rfl rfl (fun _ => rfl) fun _ => rfl⟩
    | waiting htasks _ hfront =>
      refine .inr ⟨nofun, h.waiting htasks hcall (Multiset.subset_cons _ _) ?_⟩
      intro ha second hsecond
      exact ⟨_, Multiset.mem_cons_self _ _, ha, hfront second hsecond⟩
  | delayRunning hcurrent | delayCurrent hcurrent =>
    exact .inr ⟨nofun, h.running hcurrent rfl rfl (fun _ => rfl) id⟩
  | delay htasks =>
    refine .inr ⟨nofun, h.waiting htasks hcall.2 (Multiset.subset_cons _ _) ?_⟩
    exact fun ha => absurd ha hcall.1
  | @take task rest hcurrent htasks _ hleast _ =>
    obtain ⟨second, hsecond, rfl, ⟨first, hfirst, rfl, hlt⟩ | ⟨first, hfirst, -⟩⟩ := h
    · by_cases ha : task.taskId = first.taskId
      · exact .inl (congrArg some ha)
      · -- The task that is taken is not after task `a`, so it is not task `b`.
        have htask : task ∈ w.tasks := htasks ▸ Multiset.mem_cons_self _ _
        have hb : task.taskId ≠ second.taskId := by
          intro hid
          obtain rfl := hinv.eq_of_taskId htask hsecond hid
          exact absurd hlt (not_lt.mpr (hleast first hfirst))
        refine .inr ⟨fun h => hb (Option.some.inj h), second, mem_rest htasks hsecond hb, rfl, ?_⟩
        exact .inl ⟨first, mem_rest htasks hfirst ha, rfl, hlt⟩
    · exact absurd (hcurrent.symm.trans hfirst) nofun
  | @takeCancelled task rest _ htasks _ hcancelled =>
    have hactive := hinv.active task (htasks ▸ Multiset.mem_cons_self _ _)
    exact absurd (hcancelled.symm.trans hactive) nofun
  | @drop task hcurrent _ hlast =>
    obtain ⟨second, hsecond, hb, hwaits | ⟨first, hfirst, _, _, hrepeats, hactive, _⟩⟩ := h
    · exact .inr ⟨nofun, second, hsecond, hb, .inl hwaits⟩
    · obtain rfl : task = first := Option.some.inj (hcurrent.symm.trans hfirst)
      simp [hrepeats, hactive] at hlast
  | @finish task hcurrent _ _ _ hnext =>
    obtain ⟨second, hsecond, hb,
      ⟨first, hfirst, ha, hlt⟩ | ⟨first, hfirst, ha, hagain, -, -, hpos⟩⟩ := h
    · refine .inr ⟨nofun, second, Multiset.mem_cons_of_mem hsecond, hb, .inl ?_⟩
      exact ⟨first, Multiset.mem_cons_of_mem hfirst, ha, hlt⟩
    · obtain rfl : task = first := Option.some.inj (hcurrent.symm.trans hfirst)
      refine .inr ⟨nofun, second, Multiset.mem_cons_of_mem hsecond, hb, .inl ?_⟩
      exact ⟨_, Multiset.mem_cons_self _ _, ha, (hnext hagain).symm ▸ hpos⟩

/-- A rescheduled task takes the lead. -/
theorem CanLead.ahead (h : w.CanLead a b) (hab : a ≠ b) {now : Int}
    (hrescheduled : Rescheduled w now a w') :
    w'.Ahead a b := by
  obtain ⟨second, hsecond, rfl, hrunning⟩ := h
  cases hrescheduled with
  | @running task hcurrent =>
    obtain ⟨hrepeats, hactive, hpos⟩ := hrunning task hcurrent rfl
    exact ⟨second, hsecond, rfl, .inr ⟨_, rfl, rfl, rfl, hrepeats, hactive, hpos⟩⟩
  | @waiting task rest htasks _ _ hfront =>
    refine ⟨second, Multiset.mem_cons_of_mem (mem_rest htasks hsecond hab), rfl, .inl ?_⟩
    exact ⟨_, Multiset.mem_cons_self _ _, rfl, hfront second hsecond⟩

/-- With no task running, a rescheduled task is before all others. -/
theorem Rescheduled.first {now : Int} (h : Rescheduled w now a w') (hidle : w.currentTask = none) :
    w'.currentTask = none ∧ ∃ first ∈ w'.tasks, first.taskId = a ∧ first.nextDeadline ≤ now ∧
      ∀ other ∈ w'.tasks, other = first ∨ first.nextDeadline < other.nextDeadline := by
  cases h with
  | running hcurrent => exact absurd (hcurrent.symm.trans hidle) nofun
  | waiting htasks hdue hfront =>
    refine ⟨hidle, _, Multiset.mem_cons_self _ _, rfl, hdue, ?_⟩
    intro other hother
    refine (Multiset.mem_cons.mp hother).imp_right fun hrest => ?_
    exact hfront other (htasks ▸ Multiset.mem_cons_of_mem hrest)

/-- Another task that is rescheduled before changes nothing about that. -/
theorem CanLead.rescheduled (h : w.CanLead a b) {other : TaskId} (hother : other ≠ b)
    {now : Int} (hrescheduled : Rescheduled w now other w') : w'.CanLead a b := by
  obtain ⟨second, hsecond, rfl, hrunning⟩ := h
  cases hrescheduled with
  | @running task hcurrent =>
    refine ⟨second, hsecond, rfl, ?_⟩
    rintro first ⟨⟩ ha
    exact hrunning task hcurrent ha
  | @waiting task rest htasks _ _ _ =>
    exact ⟨second, Multiset.mem_cons_of_mem (mem_rest htasks hsecond hother), rfl, hrunning⟩

end Agenda

namespace Loop

open Agenda

/-- What the loop and the calls are about. -/
def agenda (s : Loop) : Agenda where
  tasks := s.queue.tasks
  currentTask := s.currentTask

section

variable {s s' : Loop} {task : Task} {taskId : TaskId}

theorem running_some (h : s.running taskId = some task) :
    s.currentTask = some task ∧ task.taskId = taskId := by
  obtain ⟨hcurrent, hid⟩ := Option.filter_eq_some_iff.mp h
  exact ⟨hcurrent, beq_iff_eq.mp hid⟩

/-- The place of a task, and what the queue is after a change of it. -/
theorem modifyAt_tasks {i : ℕ} (h : s.queue.indexOf taskId = some i) (f : Task → Task) :
    ∃ task rest, task.taskId = taskId ∧ s.queue.tasks = task ::ₘ rest ∧
      (s.queue.modifyAt i f).tasks = f task ::ₘ rest := by
  obtain ⟨hi, hid⟩ := TaskQueue.indexOf_some h
  obtain ⟨rest, hold, hnew⟩ := TaskQueue.tasks_modifyAt hi f
  exact ⟨_, rest, hid, hold, hnew⟩

variable {now : Int} {result : Bool}

theorem rescheduleNow_rescheduled (h : s.queue.Heap)
    (hcall : s.rescheduleNow taskId now = some (result, s')) :
    s'.queue.Heap ∧ if result then Rescheduled s.agenda now taskId s'.agenda else s' = s := by
  unfold rescheduleNow at hcall
  split at hcall
  · cases hcall
    exact ⟨h, rfl⟩
  split at hcall
  · cases hcall
  split at hcall
  next task hrunning =>
    obtain ⟨hcurrent, rfl⟩ := running_some hrunning
    cases hcall
    exact ⟨h, .running hcurrent⟩
  next =>
    split at hcall
    next =>
      cases hcall
      exact ⟨h, rfl⟩
    next i hindex =>
      set nextDeadline := min now (s.queue.top.nextDeadline - 1) with hdeadline
      obtain ⟨task, rest, rfl, hold, hnew⟩ := modifyAt_tasks hindex ({ · with nextDeadline })
      cases hcall
      refine ⟨TaskQueue.heap_modifyAt _ _ _, ?_⟩
      have hlead : ∀ other ∈ s.agenda.tasks, nextDeadline < other.nextDeadline := by
        intro other hother
        have htop := h.top_le hother
        omega
      have hwaiting := Rescheduled.waiting (w := s.agenda) hold (min_le_left _ _) hlead
      rw [← hnew] at hwaiting
      exact hwaiting

/-- The task that is taken is the top of the queue. -/
theorem takeTask_some (h : s.queue.Heap) (hcall : s.takeTask now = some (task, s')) :
    s'.queue.Heap ∧ s.currentTask = none ∧ s.queue.tasks = task ::ₘ s'.queue.tasks ∧
      (∀ other ∈ s.queue.tasks, task.nextDeadline ≤ other.nextDeadline) ∧
      s'.currentTask = if task.cancelled then none else some task := by
  unfold takeTask at hcall
  split at hcall
  · cases hcall
  next hcurrent =>
    split at hcall
    next hready =>
      obtain ⟨htop, htasks, hheap⟩ := h.topAndPop hready.1
      generalize s.queue.topAndPop = popped at hcall htop htasks hheap
      cases hcall
      rw [htop]
      exact ⟨hheap, hcurrent, htasks, fun other hother => h.top_le hother, rfl⟩
    next => cases hcall

/-- A call on the heap is one on the agenda. -/
def Refines (s : Loop) (call : Call) (e : Option TaskId) (s' : Loop) : Prop :=
  s'.queue.Heap ∧ Step s.agenda call e s'.agenda

variable (h : s.queue.Heap)
include h

theorem push_refines (task : Task) : Refines s (.push task) none (s.push task) := by
  unfold push
  split
  next => exact ⟨h, .idle _⟩
  next hnew =>
    obtain ⟨hunknown, hactive⟩ := not_or.mp hnew
    have hwaiting : ∀ other ∈ s.agenda.tasks, other.taskId ≠ task.taskId := by
      intro other hother hid
      obtain ⟨i, hi, rfl⟩ := TaskQueue.mem_tasks.mp hother
      exact hunknown (.inl ⟨i, hi, hid⟩)
    have hrunning : ∀ other ∈ s.agenda.currentTask, other.taskId ≠ task.taskId := by
      intro other hother hid
      exact hunknown (.inr ⟨other, hother, hid⟩)
    have hpush := Step.push hwaiting hrunning (Bool.eq_false_iff.mpr hactive)
    rw [show s.agenda.tasks = s.queue.tasks from rfl, ← h.tasks_push] at hpush
    exact ⟨h.push task, hpush⟩

theorem cancel_refines (hcall : s.cancel taskId = some s') :
    Refines s (.cancel taskId) none s' := by
  unfold cancel at hcall
  split at hcall
  · cases hcall
    exact ⟨h, .idle _⟩
  split at hcall
  · cases hcall
  split at hcall
  next task hrunning =>
    obtain ⟨hcurrent, rfl⟩ := running_some hrunning
    cases hcall
    exact ⟨h, .cancelRunning hcurrent⟩
  next =>
    split at hcall
    next task queue hremove =>
      obtain ⟨rfl, htasks, hheap⟩ := h.removeByTaskID hremove
      cases hcall
      exact ⟨hheap, .cancel htasks⟩
    next =>
      cases hcall
      exact ⟨h, .idle _⟩

theorem rescheduleNow_refines (hcall : s.rescheduleNow taskId now = some (result, s')) :
    Refines s (.rescheduleNow taskId now) none s' := by
  obtain ⟨hheap, hresult⟩ := rescheduleNow_rescheduled h hcall
  cases result with
  | false => exact ⟨hheap, (hresult : s' = s) ▸ .idle _⟩
  | true => exact ⟨hheap, .reschedule hresult⟩

theorem updateDelay_refines {newDelay : Int}
    (hcall : s.updateDelay taskId newDelay = some (result, s')) :
    Refines s (.updateDelay taskId newDelay) none s' := by
  unfold updateDelay at hcall
  split at hcall
  · cases hcall
    exact ⟨h, .idle _⟩
  split at hcall
  · cases hcall
  split at hcall
  next task hrunning =>
    obtain ⟨hcurrent, rfl⟩ := running_some hrunning
    cases hcall
    exact ⟨h, .delayRunning hcurrent _⟩
  next =>
    split at hcall
    next =>
      cases hcall
      exact ⟨h, .idle _⟩
    next i hindex =>
      set retime : Task → Task := fun task =>
        { task with
          nextDeadline := task.nextDeadline - task.delay + newDelay
          delay := newDelay }
      obtain ⟨task, rest, rfl, hold, hnew⟩ := modifyAt_tasks hindex retime
      cases hcall
      refine ⟨TaskQueue.heap_modifyAt _ _ _, ?_⟩
      have hdelay := Step.delay (w := s.agenda) hold newDelay (retime task).nextDeadline
      rw [show _ ::ₘ rest = (s.queue.modifyAt i retime).tasks from hnew.symm] at hdelay
      exact hdelay

theorem updateCurrentTaskDelay_refines (newDelay : Int) :
    Refines s (.updateCurrentTaskDelay newDelay) none (s.updateCurrentTaskDelay newDelay) := by
  obtain ⟨queue, _ | task⟩ := s
  · exact ⟨h, .idle _⟩
  · exact ⟨h, .delayCurrent rfl newDelay⟩

theorem finishTask_refines (now : Int) : Refines s (.finishTask now) none (s.finishTask now) := by
  unfold finishTask
  split
  next => exact ⟨h, .idle _⟩
  next task hcurrent =>
    split
    next hlast => exact ⟨h, .drop hcurrent now hlast⟩
    next hagain =>
      obtain ⟨-, hactive⟩ := not_or.mp hagain
      set nextDeadline := if task.immediateReschedule then 0 else now + task.delay
      have hnext : task.immediateReschedule = true → nextDeadline = 0 := fun hnext => if_pos hnext
      have hfinish := Step.finish (w := s.agenda) hcurrent now (Bool.eq_false_iff.mpr hactive) hnext
      rw [show s.agenda.tasks = s.queue.tasks from rfl, ← h.tasks_push] at hfinish
      exact ⟨h.push _, hfinish⟩

theorem takeTask_refines (hcall : s.takeTask now = some (task, s')) :
    Refines s (.takeTask now) (if task.cancelled then none else some task.taskId) s' := by
  obtain ⟨hheap, hcurrent, htasks, hfirst, hnext⟩ := takeTask_some h hcall
  obtain ⟨queue, current⟩ := s'
  obtain rfl : current = _ := hnext
  refine ⟨hheap, ?_⟩
  cases hcancelled : task.cancelled with
  | false => exact .take hcurrent htasks now hfirst hcancelled
  | true => exact .takeCancelled hcurrent htasks now hcancelled

/-- The heap property is kept, and the calls do what they are about. -/
theorem step_refines (call : Call) : Refines s call (s.executes call) (s.step call) := by
  cases call with
  | push task => exact push_refines h task
  | cancel taskId =>
    cases hcall : s.cancel taskId with
    | none => simpa [Loop.step, hcall] using ⟨h, .idle _⟩
    | some s' => simpa [Loop.step, executes, hcall] using cancel_refines h hcall
  | rescheduleNow taskId now =>
    cases hcall : s.rescheduleNow taskId now with
    | none => simpa [Loop.step, hcall] using ⟨h, .idle _⟩
    | some called =>
      simpa [Loop.step, executes, hcall] using rescheduleNow_refines h hcall
  | updateDelay taskId newDelay =>
    cases hcall : s.updateDelay taskId newDelay with
    | none => simpa [Loop.step, hcall] using ⟨h, .idle _⟩
    | some called => simpa [Loop.step, executes, hcall] using updateDelay_refines h hcall
  | updateCurrentTaskDelay newDelay => exact updateCurrentTaskDelay_refines h newDelay
  | takeTask now =>
    cases hcall : s.takeTask now with
    | none => simpa [Loop.step, executes, hcall] using ⟨h, .idle _⟩
    | some taken =>
      have htaken := takeTask_refines h hcall
      cases hcancelled : taken.1.cancelled with
      | false | true => simpa [Loop.step, executes, hcall, Option.filter, hcancelled] using htaken
  | finishTask now => exact finishTask_refines h now

end

/-- What holds after every call. -/
structure Inv (s : Loop) : Prop where
  heap : s.queue.Heap
  agenda : s.agenda.Inv

/-- Task `a` is executed before task `b` is executed for the first time. -/
def ExecutedFirst (a b : TaskId) (trace : List TaskId) : Prop :=
  ∀ before later, trace = before ++ b :: later → a ∈ before

section

variable {s s' : Loop} {a b : TaskId}

theorem inv_empty : Inv {} where
  heap := TaskQueue.heap_empty
  agenda :=
    { nodup := Multiset.nodup_zero
      active := fun _ hnone => absurd hnone (Multiset.notMem_zero _) }

theorem Inv.step (h : s.Inv) (call : Call) : (s.step call).Inv := by
  obtain ⟨hheap, hstep⟩ := step_refines h.heap call
  exact ⟨hheap, h.agenda.step hstep⟩

theorem inv_run (calls : List Call) : (run Loop.step {} calls).Inv :=
  run_invariant (fun _ call h => h.step call) inv_empty calls

theorem executedFirst_nil : ExecutedFirst a b [] := by
  intro before later hsplit
  simp at hsplit

theorem ExecutedFirst.cons {taskId : TaskId} {trace : List TaskId} (h : ExecutedFirst a b trace)
    (hne : taskId ≠ b) : ExecutedFirst a b (taskId :: trace) := by
  intro before later hsplit
  cases before with
  | nil => exact absurd (List.cons.inj hsplit).1 hne
  | cons first before =>
    have hrest := h before later (List.cons.inj hsplit).2
    exact List.mem_cons_of_mem _ hrest

theorem executedFirst_self (hab : a ≠ b) (trace : List TaskId) :
    ExecutedFirst a b (a :: trace) := by
  intro before later hsplit
  cases before with
  | nil => exact absurd (List.cons.inj hsplit).1 hab
  | cons first before =>
    rw [(List.cons.inj hsplit).1]
    exact List.mem_cons_self

/-- A task with a lead is executed first, whatever is called. -/
theorem Inv.executedFirst (h : s.Inv) (hab : a ≠ b) (hahead : s.agenda.Ahead a b)
    {calls : List Call} (hcalls : ∀ call ∈ calls, Leaves a b call) :
    ExecutedFirst a b (s.executed calls) := by
  induction calls generalizing s with
  | nil => exact executedFirst_nil
  | cons call rest ih =>
    obtain ⟨hcall, hrest⟩ := List.forall_mem_cons.mp hcalls
    obtain ⟨hheap, hstep⟩ := step_refines h.heap call
    rw [executed]
    obtain hfirst | ⟨hnot, hahead'⟩ := hahead.step h.agenda hstep hcall
    · rw [hfirst]
      exact executedFirst_self hab _
    · have hlater := ih (h.step call) hahead' hrest
      cases hexecutes : s.executes call with
      | none => exact hlater
      | some taskId => exact hlater.cons fun hid => hnot (hexecutes.trans (congrArg some hid))

variable {now : Int} {row : List (TaskId × Int)}

theorem Inv.rescheduleNow (h : s.Inv) (hcall : s.rescheduleNow a now = some (true, s')) :
    s'.Inv ∧ Rescheduled s.agenda now a s'.agenda := by
  obtain ⟨hheap, hrescheduled⟩ := rescheduleNow_rescheduled h.heap hcall
  exact ⟨⟨hheap, h.agenda.step (.reschedule hrescheduled)⟩, hrescheduled⟩

/-- The lead of a task does not get lost when other tasks are rescheduled after it. -/
theorem Inv.rescheduleAll_keeps (h : s.Inv) (hcall : s.rescheduleAll row = some s')
    (hb : b ∉ row.map Prod.fst) (hahead : s.agenda.Ahead a b) : s'.Inv ∧ s'.agenda.Ahead a b := by
  induction row generalizing s with
  | nil =>
    cases hcall
    exact ⟨h, hahead⟩
  | cons first rest ih =>
    obtain ⟨hne, hrest⟩ := not_or.mp (List.mem_cons.not.mp hb)
    unfold rescheduleAll at hcall
    split at hcall
    next s'' hfirst =>
      obtain ⟨hinv, hrescheduled⟩ := h.rescheduleNow hfirst
      have hstep := hahead.step h.agenda (.reschedule hrescheduled) (Ne.symm hne)
      exact ih hinv hcall hrest (hstep.resolve_left nofun).2
    next => cases hcall

/-- Each of several tasks that are rescheduled in a row gets the lead. -/
theorem Inv.rescheduleAll_ahead (h : s.Inv) (hcall : s.rescheduleAll row = some s')
    (ha : a ∈ row.map Prod.fst) (hb : b ∉ row.map Prod.fst) (hlead : s.agenda.CanLead a b) :
    s'.Inv ∧ s'.agenda.Ahead a b := by
  induction row generalizing s with
  | nil => exact absurd ha List.not_mem_nil
  | cons first rest ih =>
    obtain ⟨hne, hrest⟩ := not_or.mp (List.mem_cons.not.mp hb)
    unfold rescheduleAll at hcall
    split at hcall
    next s'' hfirst =>
      obtain ⟨hinv, hrescheduled⟩ := h.rescheduleNow hfirst
      obtain rfl | ha := List.mem_cons.mp ha
      · have hahead := hlead.ahead (Ne.symm hne) hrescheduled
        exact hinv.rescheduleAll_keeps hcall hrest hahead
      · exact ih hinv hcall ha hrest (hlead.rescheduled (Ne.symm hne) hrescheduled)
    next => cases hcall

/-- With no task running, a rescheduled task is the next one. -/
theorem Inv.executes_rescheduled (h : s.Inv) (hcall : s.rescheduleNow a now = some (true, s'))
    (hidle : s.currentTask = none) {later : Int} (hlater : now ≤ later) :
    s'.executes (.takeTask later) = some a := by
  obtain ⟨hinv, hrescheduled⟩ := h.rescheduleNow hcall
  obtain ⟨hcurrent, first, hfirst, rfl, hdue, hothers⟩ := hrescheduled.first hidle
  obtain ⟨i, hi, -⟩ := TaskQueue.mem_tasks.mp hfirst
  have hsize : 0 < s'.queue.size := Nat.zero_lt_of_lt hi
  have htop : s'.queue.top = first := by
    have hmem : s'.queue.top ∈ s'.queue.tasks := TaskQueue.mem_tasks.mpr ⟨0, hsize, rfl⟩
    have hle := hinv.heap.top_le hfirst
    exact (hothers _ hmem).resolve_right (not_lt.mpr hle)
  have hready : 0 < s'.queue.size ∧ s'.queue.top.nextDeadline ≤ later :=
    ⟨hsize, htop ▸ hdue.trans hlater⟩
  have hpopped : s'.queue.topAndPop.1 = first := (hinv.heap.topAndPop hsize).1.trans htop
  have hactive := hinv.agenda.active first hfirst
  have htake : s'.takeTask later = some (first, ⟨s'.queue.topAndPop.2, some first⟩) := by
    unfold takeTask
    rw [show s'.currentTask = none from hcurrent]
    simp only [if_pos hready, hpopped, hactive, Bool.false_eq_true, if_false]
  simp [executes, htake, hactive]

end

section

/-- The heap holds the tasks that wait in the other model of the scheduler, and the same task is
running. -/
structure Simulates (s : Loop) (q : State) : Prop where
  tasks : s.queue.tasks = q.tasks
  currentTask : s.currentTask = q.currentTask

variable {s : Loop} {q : State} {task : Task} {taskId : TaskId} {tasks : List Task}

/-- The task that is found is the one that is changed or removed. -/
theorem findByTaskID_spec (hfind : State.findByTaskID taskId tasks = some task) :
    task.taskId = taskId ∧ ∃ rest : Multiset Task, ↑tasks = task ::ₘ rest ∧
      ↑(State.removeByTaskID taskId tasks) = rest ∧
      ∀ f, ↑(State.modifyTask taskId f tasks) = f task ::ₘ rest := by
  induction tasks with
  | nil => cases hfind
  | cons first tasks ih =>
    cases hid : State.hasId taskId first with
    | true =>
      rw [State.findByTaskID, List.find?_cons_of_pos hid] at hfind
      cases hfind
      refine ⟨beq_iff_eq.mp hid, tasks, rfl, ?_, fun f => ?_⟩
      · rw [State.removeByTaskID, List.eraseP_cons_of_pos hid]
      · rw [State.modifyTask, if_pos hid]
        rfl
    | false =>
      have hne : ¬ State.hasId taskId first = true := Bool.eq_false_iff.mp hid
      rw [State.findByTaskID, List.find?_cons_of_neg hne] at hfind
      obtain ⟨htask, rest, htasks, hremoved, hmodified⟩ := ih hfind
      refine ⟨htask, first ::ₘ rest, ?_, ?_, fun f => ?_⟩
      · rw [← Multiset.cons_coe, htasks, Multiset.cons_swap]
      · rw [State.removeByTaskID, List.eraseP_cons_of_neg hne, ← Multiset.cons_coe]
        exact congrArg _ hremoved
      · rw [State.modifyTask, if_neg hne, ← Multiset.cons_coe, hmodified, Multiset.cons_swap]

theorem topDeadline_spec (default : Int) (hne : tasks ≠ []) :
    (∃ task ∈ tasks, task.nextDeadline = State.topDeadline default tasks) ∧
      ∀ task ∈ tasks, State.topDeadline default tasks ≤ task.nextDeadline := by
  obtain ⟨first, rest, rfl⟩ := List.exists_cons_of_ne_nil hne
  rw [State.topDeadline]
  induction rest using List.reverseRecOn with
  | nil => simp
  | append_singleton rest last ih =>
    obtain ⟨⟨task, htask, hdeadline⟩, hle⟩ := ih (List.cons_ne_nil _ _)
    rw [List.foldl_concat]
    constructor
    · rcases le_total task.nextDeadline last.nextDeadline with hearlier | hlater
      · exact ⟨task, List.mem_append_left [last] htask, by omega⟩
      · exact ⟨last, by simp, by omega⟩
    · intro other hother
      rw [← List.cons_append, List.mem_append, List.mem_singleton] at hother
      rcases hother with hother | rfl
      · exact (min_le_left _ _).trans (hle other hother)
      · exact min_le_right _ _

variable (hs : s.Inv) (h : s.Simulates q)
include h

theorem Simulates.running : s.running taskId = q.currentTask.filter (State.hasId taskId) := by
  rw [Loop.running, h.currentTask]

theorem Simulates.mem_tasks : task ∈ q.tasks ↔ task ∈ s.queue.tasks := by
  rw [h.tasks, Multiset.mem_coe]

/-- Both models find a task or none. -/
theorem Simulates.lookup (hid : taskId ≠ ⟨.plain, 0⟩) :
    s.queue.indexOf taskId = none ∧ State.findByTaskID taskId q.tasks = none ∨
      ∃ i task, s.queue.indexOf taskId = some i ∧
        State.findByTaskID taskId q.tasks = some task := by
  cases hindex : s.queue.indexOf taskId with
  | some i =>
    obtain ⟨hi, hid'⟩ := TaskQueue.indexOf_some hindex
    have hmem := h.mem_tasks.mpr (TaskQueue.mem_tasks.mpr ⟨i, hi, rfl⟩)
    have hfound : (State.findByTaskID taskId q.tasks).isSome = true :=
      List.find?_isSome.mpr ⟨_, hmem, beq_iff_eq.mpr hid'⟩
    exact .inr ⟨i, _, rfl, (Option.some_get hfound).symm⟩
  | none =>
    rw [TaskQueue.indexOf, if_neg hid, List.find?_eq_none] at hindex
    refine .inl ⟨rfl, List.find?_eq_none.mpr fun task htask => ?_⟩
    obtain ⟨i, hi, rfl⟩ := TaskQueue.mem_tasks.mp (h.mem_tasks.mp htask)
    exact hindex i (List.mem_range.mpr hi)

include hs

omit h in
theorem Inv.eq_of_cons {task' : Task} {rest rest' : Multiset Task}
    (hold' : s.queue.tasks = task' ::ₘ rest') (hold : s.queue.tasks = task ::ₘ rest)
    (hid : task'.taskId = task.taskId) : task' = task := by
  have hmem' : task' ∈ s.queue.tasks := hold' ▸ Multiset.mem_cons_self _ _
  have hmem : task ∈ s.queue.tasks := hold ▸ Multiset.mem_cons_self _ _
  exact hs.agenda.eq_of_taskId hmem' hmem hid

theorem Simulates.modifyAt {i : ℕ} (hindex : s.queue.indexOf taskId = some i)
    (hfind : State.findByTaskID taskId q.tasks = some task) (f : Task → Task) :
    Simulates { s with queue := s.queue.modifyAt i f }
      { q with tasks := State.modifyTask taskId f q.tasks } := by
  obtain ⟨task', rest', hid', hold', hnew'⟩ := modifyAt_tasks hindex f
  obtain ⟨hid, rest, hold, -, hnew⟩ := findByTaskID_spec hfind
  rw [← h.tasks] at hold
  obtain rfl := hs.eq_of_cons hold' hold (hid'.trans hid.symm)
  rw [hold, Multiset.cons_inj_right] at hold'
  exact ⟨hnew'.trans (hold' ▸ (hnew f).symm), h.currentTask⟩

theorem Simulates.topDeadline {i : ℕ} (hindex : s.queue.indexOf taskId = some i) (now : Int) :
    s.queue.top.nextDeadline = State.topDeadline now q.tasks := by
  have hsize : 0 < s.queue.size := Nat.zero_lt_of_lt (TaskQueue.indexOf_some hindex).1
  have htop := h.mem_tasks.mpr (TaskQueue.mem_tasks.mpr ⟨0, hsize, rfl⟩)
  obtain ⟨⟨task, htask, hdeadline⟩, hle⟩ := topDeadline_spec now (List.ne_nil_of_mem htop)
  exact le_antisymm (hdeadline ▸ hs.heap.top_le (h.mem_tasks.mp htask)) (hle _ htop)

theorem Simulates.rescheduleNow (taskId : TaskId) (now : Int) :
    Option.Rel (fun called expected => called.1 = expected.1 ∧ called.2.Simulates expected.2)
      (s.rescheduleNow taskId now) (q.rescheduleNow taskId now) := by
  rw [Loop.rescheduleNow, State.rescheduleNow]
  split
  · exact .some ⟨rfl, h⟩
  next hid =>
    split
    · exact .none
    · rw [h.running]
      cases hrunning : q.currentTask.filter (State.hasId taskId) with
      | some task => exact .some ⟨rfl, h.tasks, rfl⟩
      | none =>
        obtain ⟨hindex, hfind⟩ | ⟨i, task, hindex, hfind⟩ := h.lookup hid
        · rw [hindex, hfind]
          exact .some ⟨rfl, h⟩
        · rw [hindex, hfind, h.topDeadline hs hindex now]
          exact .some ⟨rfl, h.modifyAt hs hindex hfind _⟩

theorem Simulates.updateDelay (taskId : TaskId) (newDelay : Int) :
    Option.Rel (fun called expected => called.1 = expected.1 ∧ called.2.Simulates expected.2)
      (s.updateDelay taskId newDelay) (q.updateDelay taskId newDelay) := by
  rw [Loop.updateDelay, State.updateDelay]
  split
  · exact .some ⟨rfl, h⟩
  next hid =>
    split
    · exact .none
    · rw [h.running]
      cases hrunning : q.currentTask.filter (State.hasId taskId) with
      | some task => exact .some ⟨rfl, h.tasks, rfl⟩
      | none =>
        obtain ⟨hindex, hfind⟩ | ⟨i, task, hindex, hfind⟩ := h.lookup hid
        · rw [hindex, hfind]
          exact .some ⟨rfl, h⟩
        · rw [hindex, hfind]
          exact .some ⟨rfl, h.modifyAt hs hindex hfind _⟩

omit hs h in
/-- A task that is not running is cancelled in the queue. -/
theorem cancelTask_queued (hrunning : q.currentTask.filter (State.hasId taskId) = none) :
    q.cancelTask taskId = if (State.findByTaskID taskId q.tasks).isSome then
      (.cancelled, { q with tasks := State.removeByTaskID taskId q.tasks }) else (.notFound, q) := by
  rw [State.cancelTask]
  cases hcurrent : q.currentTask with
  | none => rfl
  | some task =>
    rw [hcurrent, Option.filter_eq_none_iff] at hrunning
    exact if_neg fun hid => hrunning task rfl (beq_iff_eq.mpr hid)

theorem Simulates.cancelTask (hid : taskId ≠ ⟨.plain, 0⟩) (hkind : taskId.kind ≠ .uncancelable) :
    ∃ s', s.cancel taskId = some s' ∧ s'.Simulates (q.cancelTask taskId).2 := by
  rw [Loop.cancel, if_neg hid, if_neg hkind, h.running]
  cases hrunning : q.currentTask.filter (State.hasId taskId) with
  | some task =>
    obtain ⟨hcurrent, htask⟩ := Option.filter_eq_some_iff.mp hrunning
    rw [State.cancelTask, hcurrent]
    dsimp only
    rw [if_pos (beq_iff_eq.mp htask)]
    exact ⟨_, rfl, h.tasks, rfl⟩
  | none =>
    rw [cancelTask_queued hrunning]
    obtain ⟨hindex, hfind⟩ | ⟨i, task, hindex, hfind⟩ := h.lookup hid
    · rw [TaskQueue.removeByTaskID, hindex, hfind]
      exact ⟨s, rfl, h⟩
    · obtain ⟨removed, hremove⟩ : ∃ removed, s.queue.removeByTaskID taskId = some removed := by
        rw [TaskQueue.removeByTaskID, hindex]
        cases i <;> exact ⟨_, rfl⟩
      obtain ⟨htask', hold', -⟩ := hs.heap.removeByTaskID hremove
      obtain ⟨htask, rest, hold, hrest, -⟩ := findByTaskID_spec hfind
      rw [← h.tasks] at hold
      obtain rfl := hs.eq_of_cons hold hold' (htask.trans htask'.symm)
      rw [hold, Multiset.cons_inj_right] at hold'
      rw [hremove, hfind]
      exact ⟨_, rfl, hold'.symm.trans hrest.symm, h.currentTask⟩

omit hs in
theorem Simulates.cancelTask_unknown (hunknown : ¬ s.Knows taskId) :
    (q.cancelTask taskId).2 = q := by
  have hrunning : q.currentTask.filter (State.hasId taskId) = none := by
    rw [← h.running, Loop.running, Option.filter_eq_none_iff]
    exact fun task htask hid => hunknown (.inr ⟨task, htask, beq_iff_eq.mp hid⟩)
  have hfind : State.findByTaskID taskId q.tasks = none := by
    rw [State.findByTaskID, List.find?_eq_none]
    intro task htask hid
    obtain ⟨i, hi, rfl⟩ := TaskQueue.mem_tasks.mp (h.mem_tasks.mp htask)
    exact hunknown (.inl ⟨i, hi, beq_iff_eq.mp hid⟩)
  rw [cancelTask_queued hrunning, hfind]
  rfl

/-- The runner of a wall clock task is neither queued nor running while it is in its slot. -/
theorem Simulates.cancel (eraseEnd : List WallClockTask → List WallClockTask) (taskId : TaskId)
    (hslot : taskId.kind = .wallClock →
      (State.eraseWallClock eraseEnd taskId q.wallClockTasks).2 = false → ¬ s.Knows taskId) :
    Option.Rel (fun s' called => s'.Simulates called.2) (s.cancel taskId)
      (q.cancel eraseEnd taskId) := by
  rw [State.cancel]
  by_cases hid : taskId = ⟨.plain, 0⟩
  · rw [Loop.cancel, if_pos hid, if_pos hid]
    exact .some h
  by_cases hkind : taskId.kind = .uncancelable
  · rw [Loop.cancel, if_neg hid, if_pos hkind, if_neg hid, if_pos hkind]
    exact .none
  rw [if_neg hid, if_neg hkind]
  by_cases hwall : taskId.kind = .wallClock
  · rw [if_pos hwall]
    have hscheduled := hslot hwall
    generalize State.eraseWallClock eraseEnd taskId q.wallClockTasks = erased at hscheduled ⊢
    obtain ⟨slots, taskScheduled⟩ := erased
    have h' : s.Simulates { q with wallClockTasks := slots } := ⟨h.tasks, h.currentTask⟩
    obtain ⟨s', hcancel, hs'⟩ := h'.cancelTask hs hid hkind
    cases taskScheduled with
    | true =>
      rw [hcancel]
      exact .some hs'
    | false =>
      rw [h'.cancelTask_unknown (hscheduled rfl)] at hs'
      rw [hcancel]
      exact .some hs'
  · obtain ⟨s', hcancel, hs'⟩ := h.cancelTask hs hid hkind
    rw [if_neg hwall, hcancel]
    exact .some hs'

end

/-- The comparison is the strict order of the deadlines between tasks with different deadlines
only. In every run the queue stays a heap, and a task that is taken has a least deadline. Tasks
that are rescheduled in a row are each executed before every task that waits and was not, as long
as nobody cancels or delays one of the two or reschedules the other. A task that is running has to
repeat for that, must not be cancelled, and goes before the tasks with a deadline after 0. -/
theorem execution_order (calls : List Call) :
    let s := run Loop.step {} calls
    (∀ a b : Task, (compare a b = true ↔ b.nextDeadline < a.nextDeadline) ↔
        a.nextDeadline ≠ b.nextDeadline) ∧
      s.queue.Heap ∧ (∀ now task s', s.takeTask now = some (task, s') →
        ∀ other ∈ s.queue.tasks, task.nextDeadline ≤ other.nextDeadline) ∧
      (∀ a now s', s.rescheduleNow a now = some (true, s') → s.currentTask = none →
        ∀ later ≥ now, s'.executes (.takeTask later) = some a) ∧
      ∀ row s', s.rescheduleAll row = some s' →
        ∀ a ∈ row.map Prod.fst, ∀ b ∉ row.map Prod.fst, s.agenda.CanLead a b →
          ∀ rest, (∀ call ∈ rest, Leaves a b call) → ExecutedFirst a b (s'.executed rest) := by
  intro s
  have hinv : s.Inv := inv_run calls
  refine ⟨compare_strict_iff, hinv.heap, ?_, ?_, ?_⟩
  · intro now task s' htake
    exact (takeTask_some hinv.heap htake).2.2.2.1
  · intro a now s' hcall hidle later hlater
    exact hinv.executes_rescheduled hcall hidle hlater
  · intro row s' hcall a ha b hb hlead rest hrest
    obtain ⟨hinv', hahead⟩ := hinv.rescheduleAll_ahead hcall ha hb hlead
    have hab : a ≠ b := by
      rintro rfl
      exact hb ha
    exact hinv'.executedFirst hab hahead hrest

def onceTask : Task :=
  { taskId := ⟨.plain, 1⟩, fn := .user, nextDeadline := 5, delay := 0, once := true }

def waitingTask : Task :=
  { taskId := ⟨.plain, 2⟩, fn := .user, nextDeadline := 10, delay := 0, once := true }

/-- The first task runs, the other one waits. -/
def onceCalls : List Call := [.push onceTask, .takeTask 5, .push waitingTask]

theorem push_empty_c (mem : ℕ → Task) (task : Task) :
    BinaryHeap.pushHeapAt compare mem 0 0 task = Function.update mem 0 task := by
  rw [BinaryHeap.pushHeapAt]
  simp

theorem run_onceCalls :
    (run Loop.step {} onceCalls).currentTask = some onceTask ∧
      (run Loop.step {} onceCalls).queue.size = 1 ∧
      (run Loop.step {} onceCalls).queue.c 0 = waitingTask := by
  simp [run, onceCalls, Loop.step, Loop.push, Loop.takeTask, Knows, TaskQueue.empty,
    TaskQueue.push, TaskQueue.top, TaskQueue.topAndPop, BinaryHeap.popHeap, push_empty_c, onceTask,
    waitingTask]

/-- The comparison holds between a task and itself, and a running task that does not repeat is not
executed again although it was rescheduled. -/
theorem once_task_not_repeated :
    ¬(∀ task, compare task task = false) ∧
      ¬∀ calls a b now s', (run Loop.step {} calls).rescheduleNow a now = some (true, s') → a ≠ b →
        (∃ task ∈ (run Loop.step {} calls).queue.tasks, task.taskId = b) →
          ∀ rest, (∀ call ∈ rest, Leaves a b call) → ExecutedFirst a b (s'.executed rest) := by
  constructor
  · intro hirreflexive
    have hself := hirreflexive onceTask
    simp [compare] at hself
  · intro hclaim
    obtain ⟨hcurrent, hsize, htop⟩ := run_onceCalls
    generalize hs : run Loop.step {} onceCalls = s at hcurrent hsize htop
    set s' : Loop := { s with currentTask := some { onceTask with immediateReschedule := true } }
    have hcall : s.rescheduleNow ⟨.plain, 1⟩ 5 = some (true, s') := by
      simp [rescheduleNow, running, hcurrent, Option.filter, State.hasId, onceTask, s']
    have hqueued : ∃ task ∈ s.queue.tasks, task.taskId = ⟨.plain, 2⟩ := by
      refine ⟨waitingTask, TaskQueue.mem_tasks.mpr ⟨0, ?_, htop⟩, rfl⟩
      exact hsize ▸ Nat.one_pos
    have hexecuted : s'.executed [.finishTask 5, .takeTask 10] = [⟨.plain, 2⟩] := by
      simp [s', executed, executes, Loop.step, Loop.finishTask, Loop.takeTask, onceTask, hsize, htop,
        TaskQueue.top, TaskQueue.topAndPop, BinaryHeap.popHeap, waitingTask, Option.filter]
    have hfirst := hclaim onceCalls ⟨.plain, 1⟩ ⟨.plain, 2⟩ 5 s' (hs ▸ hcall) (by decide)
      (hs ▸ hqueued) [.finishTask 5, .takeTask 10] (by simp [Leaves])
    rw [hexecuted] at hfirst
    exact absurd (hfirst [] [] rfl) List.not_mem_nil

end Loop

end Esp32Firmware.TaskScheduler
