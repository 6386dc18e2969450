import Esp32Firmware.TaskScheduler.Lifecycle

/-!
# The results of a cancellation

For a plain ID the answer says whether there is a task, and a second answer that there is none
any more. A wall clock ID that is not registered erases at the end of the registrations and is
answered as if it had been, so for these IDs the second cancellation goes wrong.

## Implementation notes

A statement about a cancellation is one for every outcome of the undefined erasure.
-/

namespace Esp32Firmware.TaskScheduler

/-- A task with this ID was scheduled and neither cancelled nor completed, or it is running. -/
def HasTask (x : Execution) (taskId : TaskId) : Prop :=
  Live x.events taskId ∨ ∃ task, x.state.currentTask = some task ∧ task.taskId = taskId

/-- The tasks and the registrations with other IDs are the same. -/
def KeepsOthers (taskId : TaskId) (s s' : State) : Prop :=
  (∀ task : Task, task.taskId ≠ taskId → (task ∈ s'.allTasks ↔ task ∈ s.allTasks)) ∧
    ∀ w : WallClockTask, w.taskId ≠ taskId → (w ∈ s'.wallClockTasks ↔ w ∈ s.wallClockTasks)

/-- `NotFound` says that there is no such task, and no other task is touched. -/
def CancelsExactly (x : Execution) (taskId : TaskId) : Prop :=
  ∀ eraseEnd, ∃ result s', x.state.cancel eraseEnd taskId = some (result, s') ∧
    (result = .notFound ↔ ¬HasTask x taskId) ∧ KeepsOthers taskId x.state s'

/-- The second cancellation in a row finds no task, or the running one that is to end. -/
def CancelsOnce (x : Execution) (taskId : TaskId) : Prop :=
  ∀ eraseEnd, ∃ result s' result' s'', x.state.cancel eraseEnd taskId = some (result, s') ∧
    s'.cancel eraseEnd taskId = some (result', s'') ∧
    (result' = .notFound ∨ result' = .willBeCancelled ∧
      ∃ task, s'.currentTask = some task ∧ task.taskId = taskId)

section

variable {eraseEnd : List WallClockTask → List WallClockTask} {events : List Event}
  {taskId : TaskId}

/-- No task has the number 0. -/
def Numbered (events : List Event) : Prop :=
  ∀ taskId repeats, .scheduled taskId repeats ∈ events → taskId.number ≠ 0

theorem Numbered.append {events' : List Event} (h : Numbered events) (h' : Numbered events') :
    Numbered (events ++ events') := by
  intro taskId repeats hmem
  rcases List.mem_append.mp hmem with hmem | hmem
  · exact h taskId repeats hmem
  · exact h' taskId repeats hmem

theorem numbered_nil : Numbered [] := by
  rintro _ _ ⟨⟩

theorem numbered_scheduled {repeats : Bool} (h : Numbered events) (hnumber : taskId.number ≠ 0) :
    Numbered (.scheduled taskId repeats :: events) := by
  intro other repeats' hmem
  rcases List.mem_cons.mp hmem with heq | hmem
  · cases heq
    exact hnumber
  · exact h other repeats' hmem

theorem numbered_singleton {e : Event} (he : ∀ taskId repeats, e ≠ .scheduled taskId repeats) :
    Numbered [e] := by
  intro taskId repeats hmem
  exact absurd (List.mem_singleton.mp hmem).symm (he taskId repeats)

theorem numbered_worker (s : State) (now : Int) :
    Numbered ((s.startWorker now).1.toList.map (.scheduled · true)) := by
  rw [State.startWorker]
  split
  · exact numbered_nil
  · exact numbered_scheduled numbered_nil (Nat.succ_ne_zero _)

theorem numbered_tryStep {s s' : State} {label : Label}
    (h : tryStep eraseEnd s label = some (events, s')) : Numbered events := by
  cases label with
  | scheduleOnce now delay | scheduleWithFixedDelay now firstDelay delay
  | scheduleUncancelable now firstDelay delay =>
    cases h
    exact numbered_scheduled numbered_nil (Nat.succ_ne_zero _)
  | scheduleWallClock now intervalMinutes executionDelay runOnFirstSync =>
    rw [tryStep] at h
    cases h
    exact numbered_scheduled (numbered_worker _ now) (Nat.succ_ne_zero _)
  | cancel taskId | finishTask now =>
    obtain ⟨⟨result, next⟩, -, heq⟩ := Option.bind_eq_some_iff.mp h
    cases heq
    exact numbered_singleton (by rintro _ _ ⟨⟩)
  | rescheduleNow taskId now | updateDelay taskId newDelay =>
    obtain ⟨⟨result, next⟩, -, heq⟩ := Option.bind_eq_some_iff.mp h
    cases heq
    exact numbered_nil
  | updateCurrentTaskDelay newDelay =>
    rw [tryStep] at h
    split at h
    · cases h
      exact numbered_nil
    · cases h
  | takeTask taskId now =>
    obtain ⟨⟨starts, next⟩, -, heq⟩ := Option.bind_eq_some_iff.mp h
    cases heq
    split
    · exact numbered_singleton (by rintro _ _ ⟨⟩)
    · exact numbered_nil
  | wallClockWorker clock now =>
    rw [tryStep] at h
    split at h
    · split at h
      · cases h
        exact numbered_nil
      · cases h
    · cases h
  | otherScheduler ids | preReboot =>
    cases h
    exact numbered_nil

theorem Numbered.step {x : Execution} (h : Numbered x.events) (label : Label) :
    Numbered (step eraseEnd x label).events := by
  rw [TaskScheduler.step]
  split
  · rename_i heq
    exact h.append (numbered_tryStep heq)
  · exact h

end

section

variable {s s' : State} {events : List Event} {taskId : TaskId} {result : CancelResult}
  {wallClockTasks : List WallClockTask}

theorem Inv.hasTask_iff {x : Execution} (h : Inv x) :
    HasTask x taskId ↔ ∃ task ∈ x.state.allTasks, task.taskId = taskId := by
  have hkeys : taskId ∈ x.state.keys.map Prod.fst ↔
      ∃ task ∈ x.state.allTasks, task.taskId = taskId := by
    rw [State.keys, fst_key, List.mem_map]
  rw [HasTask, h.board.live, hkeys]
  constructor
  · rintro (⟨htask, -⟩ | ⟨task, hcurrent, hid⟩)
    · exact htask
    · exact ⟨task, mem_allTasks.mpr (.inr (.inl hcurrent)), hid⟩
  · intro htask
    by_cases hcancelling : x.state.cancelling = some taskId
    · obtain ⟨task, hcurrent, -, hid⟩ := cancelling_eq_some_iff.mp hcancelling
      exact .inr ⟨task, hcurrent, hid⟩
    · exact .inl ⟨htask, hcancelling⟩

/-- A cancellation outside the slots finds no task if and only if there is none in the queue and
none running. -/
theorem cancelTask_notFound_iff (s : State) (taskId : TaskId) :
    (s.cancelTask taskId).1 = .notFound ↔ (∀ task ∈ s.tasks, task.taskId ≠ taskId) ∧
        ∀ task, s.currentTask = some task → task.taskId ≠ taskId := by
  rcases cancelTask_cases s taskId with
    ⟨task, hcurrent, hid, heq⟩ | ⟨task, -, hfind, heq⟩ | ⟨hother, hfind, heq⟩
  · rw [heq]
    exact iff_of_false (by rintro ⟨⟩) fun h => h.2 task hcurrent hid
  · rw [heq]
    obtain ⟨hmem, hid⟩ := findByTaskID_some hfind
    exact iff_of_false (by rintro ⟨⟩) fun h => h.1 task hmem hid
  · rw [heq]
    rw [State.findByTaskID, List.find?_eq_none] at hfind
    exact iff_of_true rfl ⟨fun task hmem hid => hfind task hmem (beq_iff_eq.mpr hid), hother⟩

/-- A cancellation outside the slots touches no other task. -/
theorem keepsOthers_cancelTask (h : s.cancelTask taskId = (result, s')) :
    KeepsOthers taskId s s' := by
  rcases cancelTask_cases s taskId with
    ⟨current, hcurrent, hid, heq⟩ | ⟨found, -, -, heq⟩ | ⟨-, -, heq⟩
  · cases heq.symm.trans h
    refine ⟨fun task hne => ?_, fun _ _ => Iff.rfl⟩
    have hleft : some { current with cancelled := true } ≠ some task := by
      rintro ⟨⟩
      exact hne hid
    have hright : s.currentTask ≠ some task := by
      rw [hcurrent]
      rintro ⟨⟩
      exact hne hid
    rw [mem_allTasks, mem_allTasks]
    exact or_congr_right (or_congr_left (iff_of_false hleft hright))
  · cases heq.symm.trans h
    refine ⟨fun task hne => ?_, fun _ _ => Iff.rfl⟩
    have hqueue : task ∈ State.removeByTaskID taskId s.tasks ↔ task ∈ s.tasks :=
      List.mem_eraseP_of_neg fun hid => hne (beq_iff_eq.mp hid)
    rw [mem_allTasks, mem_allTasks]
    exact or_congr_left hqueue
  · cases heq.symm.trans h
    exact ⟨fun _ _ => Iff.rfl, fun _ _ => Iff.rfl⟩

theorem KeepsOthers.trans {s'' : State} (h : KeepsOthers taskId s s')
    (h' : KeepsOthers taskId s' s'') : KeepsOthers taskId s s'' :=
  ⟨fun task hne => (h'.1 task hne).trans (h.1 task hne),
    fun w hne => (h'.2 w hne).trans (h.2 w hne)⟩

theorem registered_cancelTask (h : s.cancelTask taskId = (result, s')) :
    s'.registered = s.registered := by
  rcases cancelTask_cases s taskId with ⟨_, -, -, heq⟩ | ⟨_, -, -, heq⟩ | ⟨-, -, heq⟩
  all_goals
    cases heq.symm.trans h
    rfl

/-- Erasing the registration of a task touches no other one. -/
theorem Inv.keepsOthers_erase (h : Inv ⟨s, events⟩) :
    KeepsOthers taskId s
      { s with wallClockTasks := s.wallClockTasks.eraseP fun w => w.taskId == taskId } := by
  have hw (w : WallClockTask) (hne : w.taskId ≠ taskId) :
      w ∈ (s.wallClockTasks.eraseP fun w => w.taskId == taskId) ↔ w ∈ s.wallClockTasks :=
    List.mem_eraseP_of_neg fun hid => hne (beq_iff_eq.mp hid)
  refine ⟨fun task hne => ?_, hw⟩
  rw [mem_allTasks, mem_allTasks]
  refine or_congr_right (or_congr_right (exists_congr fun w => ?_))
  constructor
  · rintro ⟨hmem, hrunner⟩
    exact ⟨List.mem_of_mem_eraseP hmem, hrunner⟩
  · rintro ⟨hmem, hrunner⟩
    have hid : task.taskId = w.taskId := (h.slots w hmem task hrunner).1
    exact ⟨(hw w fun heq => hne (hid.trans heq)).mpr hmem, hrunner⟩

variable {eraseEnd : List WallClockTask → List WallClockTask}

theorem cancel_plain (hkind : taskId.kind = .plain) (hne : taskId ≠ ⟨.plain, 0⟩) :
    s.cancel eraseEnd taskId = some (s.cancelTask taskId) := by
  rw [State.cancel, if_neg hne, hkind, if_neg (by rintro ⟨⟩), if_neg (by rintro ⟨⟩)]

theorem cancel_zero : s.cancel eraseEnd ⟨.plain, 0⟩ = some (.notFound, s) :=
  if_pos rfl

theorem cancel_wallClock (hkind : taskId.kind = .wallClock) :
    s.cancel eraseEnd taskId =
      if (State.eraseWallClock eraseEnd taskId s.wallClockTasks).2 then
        some (State.cancelTask { s with
          wallClockTasks := (State.eraseWallClock eraseEnd taskId s.wallClockTasks).1 } taskId)
      else
        some (.cancelled, { s with
          wallClockTasks := (State.eraseWallClock eraseEnd taskId s.wallClockTasks).1 }) := by
  have hne : taskId ≠ ⟨.plain, 0⟩ := by
    rintro rfl
    cases hkind
  rw [State.cancel, if_neg hne, hkind, if_neg (by rintro ⟨⟩), if_pos rfl]

/-- A wall clock ID that is not registered erases at the end and is answered as cancelled. -/
theorem cancel_unregistered (hkind : taskId.kind = .wallClock) (hnot : taskId ∉ s.registered) :
    s.cancel eraseEnd taskId =
      some (.cancelled, { s with wallClockTasks := eraseEnd s.wallClockTasks }) := by
  have hfind : s.wallClockTasks.find? (fun w => w.taskId == taskId) = none := by
    rw [List.find?_eq_none]
    intro w hw hid
    exact hnot (List.mem_map.mpr ⟨w, hw, beq_iff_eq.mp hid⟩)
  rw [cancel_wallClock hkind, State.eraseWallClock, hfind]
  rfl

/-- What the cancellation of a registered wall clock task does. -/
theorem Inv.cancel_registered (h : Inv ⟨s, events⟩) (hkind : taskId.kind = .wallClock)
    (hmem : taskId ∈ s.registered) :
    ∃ result s', s.cancel eraseEnd taskId = some (result, s') ∧ result ≠ .notFound ∧
      KeepsOthers taskId s s' ∧ taskId ∉ s'.registered := by
  obtain ⟨w₀, hw₀, hid₀⟩ := List.mem_map.mp hmem
  cases hfind : s.wallClockTasks.find? fun w => w.taskId == taskId with
  | none => exact absurd (beq_iff_eq.mpr hid₀) (List.find?_eq_none.mp hfind w₀ hw₀)
  | some w =>
    have hw : w ∈ s.wallClockTasks := List.mem_of_find?_eq_some hfind
    have hid : w.taskId = taskId := by
      have := List.find?_some hfind
      exact beq_iff_eq.mp this
    have hperm := (perm_cons_eraseP hfind).map (·.taskId)
    rw [List.map_cons, hid] at hperm
    have hout : taskId ∉ (s.wallClockTasks.eraseP fun w => w.taskId == taskId).map (·.taskId) :=
      (List.nodup_cons.mp (hperm.nodup_iff.mpr h.board.registeredNodup)).1
    rw [cancel_wallClock hkind, State.eraseWallClock, hfind]
    dsimp only
    by_cases hrunner : w.runnerTask.isNone
    · rw [if_pos hrunner]
      rcases heq : State.cancelTask { s with
        wallClockTasks := s.wallClockTasks.eraseP fun w => w.taskId == taskId } taskId
        with ⟨result, s'⟩
      have hkeeps := h.keepsOthers_erase.trans (keepsOthers_cancelTask heq)
      refine ⟨result, s', rfl, ?_, hkeeps, (registered_cancelTask heq) ▸ hout⟩
      · -- A registered task whose runner is not in its slot is in the queue or running.
        rintro rfl
        obtain ⟨hqueue, hother⟩ := (cancelTask_notFound_iff _ _).mp (congrArg Prod.fst heq)
        have hlive := ((h.board.registered_iff taskId).mp hmem).2
        obtain ⟨task, htask, htaskId⟩ := h.hasTask_iff.mp (.inl hlive)
        rcases mem_allTasks.mp htask with htask | hcurrent | ⟨w', hw', hrunner'⟩
        · exact hqueue task htask htaskId
        · exact hother task hcurrent htaskId
        · have hw'id : w'.taskId = w.taskId :=
            (h.slots w' hw' task hrunner').1.symm.trans (htaskId.trans hid.symm)
          rw [List.inj_on_of_nodup_map h.board.registeredNodup hw' hw hw'id,
            Option.isNone_iff_eq_none.mp hrunner] at hrunner'
          cases hrunner'
    · rw [if_neg hrunner]
      exact ⟨_, _, rfl, by rintro ⟨⟩, h.keepsOthers_erase, hout⟩

/-- What the cancellation of a plain task does. -/
theorem Inv.cancel_plain_spec (h : Inv ⟨s, events⟩) (hnumbered : Numbered events)
    (hkind : taskId.kind = .plain) :
    ∃ result s', s.cancel eraseEnd taskId = some (result, s') ∧
      (result = .notFound ↔ ¬HasTask ⟨s, events⟩ taskId) ∧ KeepsOthers taskId s s' := by
  by_cases hzero : taskId = ⟨.plain, 0⟩
  · subst hzero
    refine ⟨_, _, cancel_zero, iff_of_true rfl fun htask => ?_, fun _ _ => Iff.rfl,
      fun _ _ => Iff.rfl⟩
    obtain ⟨task, htask, hid⟩ := h.hasTask_iff.mp htask
    exact hnumbered _ _ (h.board.scheduled _ (key_mem_keys htask)) (congrArg TaskId.number hid)
  · rcases heq : s.cancelTask taskId with ⟨result, s'⟩
    have hnotFound := cancelTask_notFound_iff s taskId
    rw [heq] at hnotFound
    refine ⟨result, s', (cancel_plain hkind hzero).trans (congrArg some heq), ?_,
      keepsOthers_cancelTask heq⟩
    rw [hnotFound, h.hasTask_iff]
    constructor
    · rintro ⟨hqueue, hother⟩ ⟨task, htask, hid⟩
      rcases mem_allTasks.mp htask with htask | hcurrent | ⟨w, hw, hrunner⟩
      · exact hqueue task htask hid
      · exact hother task hcurrent hid
      · have hwall := ((h.board.registered_iff w.taskId).mp (List.mem_map_of_mem hw)).1
        rw [← (h.slots w hw task hrunner).1, hid, hkind] at hwall
        cases hwall
    · intro hnone
      constructor
      · intro task hmem hid
        exact hnone ⟨task, mem_allTasks.mpr (.inl hmem), hid⟩
      · intro task hcurrent hid
        exact hnone ⟨task, mem_allTasks.mpr (.inr (.inl hcurrent)), hid⟩

/-- A second cancellation of a plain task finds none, or the running one. -/
theorem Inv.cancel_plain_again (h : Inv ⟨s, events⟩) (hkind : taskId.kind = .plain) :
    ∃ result s' result' s'', s.cancel eraseEnd taskId = some (result, s') ∧
      s'.cancel eraseEnd taskId = some (result', s'') ∧
      (result' = .notFound ∨ result' = .willBeCancelled ∧
        ∃ task, s'.currentTask = some task ∧ task.taskId = taskId) := by
  by_cases hzero : taskId = ⟨.plain, 0⟩
  · subst hzero
    exact ⟨_, _, _, _, cancel_zero, cancel_zero, .inl rfl⟩
  · have hcancel (s : State) : s.cancel eraseEnd taskId = some (s.cancelTask taskId) :=
      cancel_plain hkind hzero
    rcases cancelTask_cases s taskId with
      ⟨task, -, hid, heq⟩ | ⟨task, hother, hfind, heq⟩ | ⟨-, -, heq⟩
    · -- The running task has its mark, and a second one changes nothing.
      rcases hagain : State.cancelTask
        { s with currentTask := some { task with cancelled := true } } taskId with ⟨result', s''⟩
      refine ⟨_, _, result', s'', (hcancel s).trans (congrArg some heq),
        (hcancel _).trans (congrArg some hagain), .inr ⟨?_, _, rfl, hid⟩⟩
      rw [State.cancelTask] at hagain
      dsimp only at hagain
      rw [if_pos hid] at hagain
      exact (congrArg Prod.fst hagain).symm
    · rcases hagain : State.cancelTask
        { s with tasks := State.removeByTaskID taskId s.tasks } taskId with ⟨result', s''⟩
      refine ⟨_, _, result', s'', (hcancel s).trans (congrArg some heq),
        (hcancel _).trans (congrArg some hagain), .inl ?_⟩
      have hnext := h.cancel (fun hwall => absurd (hkind.symm.trans hwall) (by rintro ⟨⟩))
        ((hcancel s).trans (congrArg some heq))
      have hout : ∀ other ∈ State.removeByTaskID taskId s.tasks, other.taskId ≠ taskId := by
        intro other hmem hid
        rcases hnext.hasTask_iff.mpr ⟨other, mem_allTasks.mpr (.inl hmem), hid⟩ with
          hlive | ⟨current, hcurrent, hcurrentId⟩
        · exact not_live_append_cancelled (by rintro ⟨⟩) hlive
        · exact hother current hcurrent hcurrentId
      exact (congrArg Prod.fst hagain).symm.trans
        ((cancelTask_notFound_iff _ _).mpr ⟨hout, hother⟩)
    · exact ⟨_, _, _, _, (hcancel s).trans (congrArg some heq),
        (hcancel s).trans (congrArg some heq),
        .inl rfl⟩

end

variable {eraseEnd : List WallClockTask → List WallClockTask} {x : Execution} {taskId : TaskId}

/-- A registration of another task. -/
def strayRegistration (taskId : TaskId) : WallClockTask where
  runnerTask := none
  taskId := ⟨.wallClock, taskId.number + 1⟩
  intervalMinutes := 1
  runOnFirstSync := false

/-- The erasure at the end may do anything, also touch another task. -/
theorem not_cancelsExactly (hkind : taskId.kind = .wallClock)
    (hnot : taskId ∉ x.state.registered) : ¬CancelsExactly x taskId := by
  intro h
  have hne : (strayRegistration taskId).taskId ≠ taskId := by
    intro heq
    exact absurd (congrArg TaskId.number heq) (Nat.succ_ne_self _)
  by_cases hmem : strayRegistration taskId ∈ x.state.wallClockTasks
  · obtain ⟨result, s', hs', -, hkeeps⟩ := h fun _ => []
    rw [cancel_unregistered hkind hnot] at hs'
    cases hs'
    exact absurd ((hkeeps.2 _ hne).mpr hmem) List.not_mem_nil
  · obtain ⟨result, s', hs', -, hkeeps⟩ := h fun _ => [strayRegistration taskId]
    rw [cancel_unregistered hkind hnot] at hs'
    cases hs'
    exact hmem ((hkeeps.2 _ hne).mp (List.mem_singleton_self _))

theorem Inv.cancelsExactly_iff (h : Inv x) (hnumbered : Numbered x.events)
    (hkind : taskId.kind ≠ .uncancelable) :
    CancelsExactly x taskId ↔ taskId.kind = .plain ∨ taskId ∈ x.state.registered := by
  constructor
  · intro hexact
    cases hcase : taskId.kind with
    | plain => exact .inl rfl
    | uncancelable => exact absurd hcase hkind
    | wallClock =>
      by_contra hnot
      rw [not_or] at hnot
      exact not_cancelsExactly hcase hnot.2 hexact
  · rintro (hplain | hregistered) eraseEnd
    · exact h.cancel_plain_spec hnumbered hplain
    · obtain ⟨hwall, hlive⟩ := (h.board.registered_iff taskId).mp hregistered
      obtain ⟨result, s', hs', hresult, hkeeps, -⟩ := h.cancel_registered hwall hregistered
      exact ⟨result, s', hs', iff_of_false hresult fun hnone => hnone (.inl hlive), hkeeps⟩

theorem Inv.cancelsOnce_iff (h : Inv x) (hkind : taskId.kind ≠ .uncancelable) :
    CancelsOnce x taskId ↔ taskId.kind = .plain := by
  constructor
  · intro honce
    cases hcase : taskId.kind with
    | plain => rfl
    | uncancelable => exact absurd hcase hkind
    | wallClock =>
      obtain ⟨result, s', result', s'', hfirst, hsecond, hanswer⟩ := honce fun _ => []
      have hout : taskId ∉ s'.registered := by
        by_cases hmem : taskId ∈ x.state.registered
        · obtain ⟨_, _, hcancel, -, -, hout⟩ := h.cancel_registered hcase hmem
          cases hcancel.symm.trans hfirst
          exact hout
        · cases (cancel_unregistered hcase hmem).symm.trans hfirst
          exact List.not_mem_nil
      -- The second call erases at the end.
      cases (cancel_unregistered hcase hout).symm.trans hsecond
      rcases hanswer with heq | ⟨heq, -⟩ <;> cases heq
  · intro hplain eraseEnd
    exact h.cancel_plain_again hplain

/-- In every state of a run that cancels only registered wall clock tasks, the cancellation of
an ID is exact if and only if it is plain or registered, and a second one in a row is if and
only if it is plain. -/
theorem cancel_exact_iff (labels : List Label)
    (h : Meets (step eraseEnd) CancelsRegistered {} labels) (taskId : TaskId)
    (hkind : taskId.kind ≠ .uncancelable) :
    (CancelsExactly (run (step eraseEnd) {} labels) taskId ↔ taskId.kind = .plain ∨
        taskId ∈ (run (step eraseEnd) {} labels).state.registered) ∧
      (CancelsOnce (run (step eraseEnd) {} labels) taskId ↔ taskId.kind = .plain) := by
  have hinv : Inv (run (step eraseEnd) {} labels) :=
    h.invariant (fun _ _ hinv hok => hinv.step hok) Inv.empty
  have hnumbered : Numbered (run (step eraseEnd) {} labels).events :=
    run_invariant (I := fun x : Execution => Numbered x.events) (fun _ label hx => hx.step label)
      numbered_nil labels
  exact ⟨hinv.cancelsExactly_iff hnumbered hkind, hinv.cancelsOnce_iff hkind⟩

/-- After one cancellation another wall clock task is still registered. -/
theorem cancel_exact_other :
    (CancelsExactly (run (step List.dropLast) {} cancelledOnce) ⟨.wallClock, 3⟩ ↔
        IdKind.wallClock = .plain ∨
          ⟨.wallClock, 3⟩ ∈ (run (step List.dropLast) {} cancelledOnce).state.registered) ∧
      (CancelsOnce (run (step List.dropLast) {} cancelledOnce) ⟨.wallClock, 3⟩ ↔
        IdKind.wallClock = .plain) := by
  apply cancel_exact_iff cancelledOnce _ ⟨.wallClock, 3⟩ (by rintro ⟨⟩)
  refine ⟨?_, ?_, ?_, trivial⟩
  · rintro taskId ⟨⟩
  · rintro taskId heq -
    cases heq
    decide
  · rintro taskId ⟨⟩

/-- The only wall clock task is cancelled twice, and the second answer is `Cancelled` again. -/
theorem cancel_again_cancelled :
    ¬ ∀ (labels : List Label) (taskId : TaskId), taskId.kind ≠ .uncancelable →
      CancelsExactly (run (step List.dropLast) {} labels) taskId ∧
        CancelsOnce (run (step List.dropLast) {} labels) taskId := by
  intro h
  obtain ⟨-, honce⟩ := h [.scheduleWallClock 0 15 0 false] ⟨.wallClock, 1⟩ (by rintro ⟨⟩)
  obtain ⟨result, s', result', s'', hfirst, hsecond, hanswer⟩ := honce List.dropLast
  have hanswers : (((run (step List.dropLast) {} [.scheduleWallClock 0 15 0 false]).state.cancel
      List.dropLast ⟨.wallClock, 1⟩).bind fun answer =>
        (answer.2.cancel List.dropLast ⟨.wallClock, 1⟩).map Prod.fst) = some .cancelled := by
    decide
  rw [hfirst, Option.bind_some, hsecond] at hanswers
  cases hanswers
  rcases hanswer with heq | ⟨heq, -⟩ <;> cases heq

end Esp32Firmware.TaskScheduler
