import Esp32Firmware.Automation.Firings

/-!
# The tasks of the rules

Each delayed action has a task that is on the list of pending ones, and the cron task exists if and
only if a rule needs it. The tasks with the bookkeeping of the state make up a book of firings.
-/

namespace Esp32Firmware.Automation

variable {τ α : Type*}

def Task.isCron (task : Task τ α) : Bool :=
  match task.kind with
  | .cron => true
  | _ => false

/-- The action that a task executes. -/
def Task.firing (task : Task τ α) : Option (Firing τ α) :=
  match task.kind with
  | .delayed firing => some firing
  | _ => none

theorem mem_swapRemove_of_ne {ids : List Nat} {taskId id : Nat} (h : id ≠ taskId) :
    id ∈ swapRemove ids taskId ↔ id ∈ ids := by
  rw [swapRemove]
  cases hfind : ids.findIdx? fun id => id = taskId with
  | none => rfl
  | some j =>
    obtain ⟨hlt, hj, -⟩ := List.findIdx?_eq_some_iff_getElem.mp hfind
    have hj : ids[j] = taskId := by simpa using hj
    have hsplit : ids = ids.take j ++ taskId :: ids.drop (j + 1) := by
      conv_lhs => rw [← List.take_append_drop j ids, List.drop_eq_getElem_cons hlt, hj]
    dsimp only
    rw [List.set_eq_take_append_cons_drop, if_pos hlt]
    obtain hnil | ⟨front, last, hlast⟩ := List.eq_nil_or_concat (ids.drop (j + 1))
    · rw [hnil] at hsplit ⊢
      rw [List.dropLast_concat]
      conv_rhs => rw [hsplit]
      simp [h]
    · have hlastD : ids.getLastD taskId = last := by
        rw [hsplit, hlast, List.concat_eq_append, ← List.cons_append, ← List.append_assoc,
          List.getLastD_concat]
      rw [hlast] at hsplit ⊢
      rw [hlastD]
      have hdrop : (ids.take j ++ last :: (front ++ [last])).dropLast =
          ids.take j ++ last :: front := by
        rw [← List.cons_append, ← List.append_assoc, List.dropLast_concat]
      rw [List.concat_eq_append, hdrop]
      conv_rhs => rw [hsplit]
      simp [h, or_comm]

namespace State

/-- The IDs of tasks are new ones, each delayed action is on the list of pending ones, and only the
task with the remembered ID is a cron task. -/
structure TaskTable (s : State τ α) : Prop where
  nodup : (s.tasks.map Task.id).Nodup
  range : ∀ task ∈ s.tasks, 1 ≤ task.id ∧ task.id ≤ s.lastTaskId
  pending_range : ∀ id ∈ s.pendingDelayedTasks, id ≤ s.lastTaskId
  pending_iff : ∀ task ∈ s.tasks, task.id ∈ s.pendingDelayedTasks ↔ task.firing.isSome = true
  cron_range : s.cronTaskId ≤ s.lastTaskId
  cron_iff : ∀ task ∈ s.tasks, task.isCron = true ↔ task.id = s.cronTaskId
  cron_exists : s.cronTaskId ≠ 0 → ∃ task ∈ s.tasks, task.id = s.cronTaskId
  frames : ∀ id, Frame.delayed id ∈ s.stack → id ≤ s.lastTaskId ∧ ∀ task ∈ s.tasks, task.id ≠ id

theorem mem_schedule {s : State τ α} {kind : TaskKind τ α} {delay : Nat} {task : Task τ α} :
    task ∈ (s.schedule kind delay).tasks ↔
      task ∈ s.tasks ∨ task = ⟨s.lastTaskId + 1, kind, s.now + delay⟩ := by
  simp [schedule]

theorem mem_cancel {s : State τ α} {taskId : Nat} {task : Task τ α} :
    task ∈ (s.cancel taskId).tasks ↔ task ∈ s.tasks ∧ task.id ≠ taskId := by
  simp [cancel]

namespace TaskTable

variable {s : State τ α}

section

variable (h : s.TaskTable) (kind : TaskKind τ α) (delay : Nat)
include h kind delay

theorem nodup_schedule : ((s.schedule kind delay).tasks.map Task.id).Nodup := by
  simp only [State.schedule, List.map_append, List.map_cons, List.map_nil]
  refine List.nodup_append.mpr ⟨h.nodup, List.nodup_singleton _, ?_⟩
  intro id hid id' hid'
  obtain ⟨task, htask, rfl⟩ := List.mem_map.mp hid
  obtain rfl := List.mem_singleton.mp hid'
  exact Nat.ne_of_lt (Nat.lt_succ_of_le (h.range task htask).2)

theorem range_schedule :
    ∀ task ∈ (s.schedule kind delay).tasks, 1 ≤ task.id ∧ task.id ≤ s.lastTaskId + 1 := by
  intro task htask
  obtain htask | rfl := mem_schedule.mp htask
  · exact ⟨(h.range task htask).1, Nat.le_succ_of_le (h.range task htask).2⟩
  · exact ⟨Nat.succ_pos _, Nat.le_refl _⟩

theorem frames_schedule :
    ∀ id, Frame.delayed id ∈ s.stack →
      id ≤ s.lastTaskId + 1 ∧ ∀ task ∈ (s.schedule kind delay).tasks, task.id ≠ id := by
  intro id hid
  obtain ⟨hle, hne⟩ := h.frames id hid
  refine ⟨Nat.le_succ_of_le hle, fun task htask => ?_⟩
  obtain htask | rfl := mem_schedule.mp htask
  · exact hne task htask
  · exact Nat.ne_of_gt (Nat.lt_succ_of_le hle)

end

/-- A task that is neither a cron task nor a delayed action. -/
theorem schedule (h : s.TaskTable) {kind : TaskKind τ α} {delay : Nat}
    (hcron : ∀ id deadline, (⟨id, kind, deadline⟩ : Task τ α).isCron = false)
    (hfiring : ∀ id deadline, (⟨id, kind, deadline⟩ : Task τ α).firing = none) :
    (s.schedule kind delay).TaskTable where
  nodup := h.nodup_schedule kind delay
  range := h.range_schedule kind delay
  pending_range id hid := Nat.le_succ_of_le (h.pending_range id hid)
  pending_iff task htask := by
    obtain htask | rfl := mem_schedule.mp htask
    · exact h.pending_iff task htask
    · rw [hfiring]
      exact ⟨fun hmem => absurd (h.pending_range _ hmem) (Nat.not_succ_le_self _),
        fun hsome => absurd hsome Bool.false_ne_true⟩
  cron_range := Nat.le_succ_of_le h.cron_range
  cron_iff task htask := by
    obtain htask | rfl := mem_schedule.mp htask
    · exact h.cron_iff task htask
    · rw [hcron]
      refine ⟨fun hfalse => absurd hfalse Bool.false_ne_true, fun heq => ?_⟩
      have hle := h.cron_range
      have heq : s.lastTaskId + 1 = s.cronTaskId := heq
      omega
  cron_exists hne := by
    obtain ⟨task, htask, hid⟩ := h.cron_exists hne
    exact ⟨task, mem_schedule.mpr (.inl htask), hid⟩
  frames := h.frames_schedule kind delay

section

variable (h : s.TaskTable)
include h

/-- The first cron task. -/
theorem scheduleCron (hnone : s.cronTaskId = 0) (delay : Nat) :
    ({ s.schedule .cron delay with cronTaskId := s.lastTaskId + 1 } : State τ α).TaskTable where
  nodup := h.nodup_schedule .cron delay
  range := h.range_schedule .cron delay
  pending_range id hid := Nat.le_succ_of_le (h.pending_range id hid)
  pending_iff task htask := by
    obtain htask | rfl := mem_schedule.mp htask
    · exact h.pending_iff task htask
    · exact ⟨fun hmem => absurd (h.pending_range _ hmem) (Nat.not_succ_le_self _),
        fun hsome => absurd hsome Bool.false_ne_true⟩
  cron_range := Nat.le_refl _
  cron_iff task htask := by
    obtain htask | rfl := mem_schedule.mp htask
    · have hrange := h.range task htask
      have hiff := h.cron_iff task htask
      rw [hiff, hnone]
      dsimp only
      omega
    · exact ⟨fun _ => rfl, fun _ => rfl⟩
  cron_exists _ := ⟨_, mem_schedule.mpr (.inr rfl), rfl⟩
  frames := h.frames_schedule .cron delay

theorem nodup_cancel (taskId : Nat) : ((s.cancel taskId).tasks.map Task.id).Nodup :=
  h.nodup.sublist (List.filter_sublist.map Task.id)

theorem cancelCron :
    ({ s.cancel s.cronTaskId with cronTaskId := 0 } : State τ α).TaskTable where
  nodup := h.nodup_cancel s.cronTaskId
  range task htask := h.range task (mem_cancel.mp htask).1
  pending_range := h.pending_range
  pending_iff task htask := h.pending_iff task (mem_cancel.mp htask).1
  cron_range := Nat.zero_le _
  cron_iff task htask := by
    obtain ⟨htask, hne⟩ := mem_cancel.mp htask
    have hrange := h.range task htask
    refine ⟨fun hcron => absurd ((h.cron_iff task htask).mp hcron) hne, fun hzero => ?_⟩
    have hzero : task.id = 0 := hzero
    omega
  cron_exists hne := absurd rfl hne
  frames id hid := ⟨(h.frames id hid).1, fun task htask =>
    (h.frames id hid).2 task (mem_cancel.mp htask).1⟩

/-- After the cron task was handled there is one if and only if a rule needs it. -/
theorem handleCronTask :
    s.handleCronTask.TaskTable ∧
      (s.handleCronTask.cronTaskId ≠ 0 ↔ s.hasTaskWithTrigger .cron = true) := by
  simp only [State.handleCronTask]
  cases hneed : s.hasTaskWithTrigger .cron with
  | true =>
    by_cases hzero : s.cronTaskId = 0
    · simp only [hzero, decide_true, Bool.and_self, if_true]
      exact ⟨h.scheduleCron hzero _, by simp⟩
    · simp only [hzero, decide_false, Bool.and_false, Bool.false_eq_true, if_false,
        Bool.not_true, Bool.false_and]
      exact ⟨h, by simp [hzero]⟩
  | false =>
    by_cases hzero : s.cronTaskId = 0
    · simp only [hzero, Bool.false_and, Bool.false_eq_true, if_false, ne_eq, not_true_eq_false,
        decide_false, Bool.and_false]
      exact ⟨h, by simp⟩
    · simp only [hzero, Bool.false_and, Bool.false_eq_true, if_false, ne_eq, not_false_eq_true,
        decide_true, Bool.and_true, Bool.not_false, if_true]
      exact ⟨h.cancelCron, by simp⟩

/-- Only the stack and what has nothing to do with tasks is different. -/
theorem ofStack {s' : State τ α} (htasks : s'.tasks = s.tasks)
    (hpending : s'.pendingDelayedTasks = s.pendingDelayedTasks)
    (hcron : s'.cronTaskId = s.cronTaskId) (hlast : s'.lastTaskId = s.lastTaskId)
    (hstack : ∀ id, Frame.delayed id ∈ s'.stack → Frame.delayed id ∈ s.stack) :
    s'.TaskTable where
  nodup := htasks ▸ h.nodup
  range := by rw [htasks, hlast]; exact h.range
  pending_range := by rw [hpending, hlast]; exact h.pending_range
  pending_iff := by rw [htasks, hpending]; exact h.pending_iff
  cron_range := by rw [hcron, hlast]; exact h.cron_range
  cron_iff := by rw [htasks, hcron]; exact h.cron_iff
  cron_exists := by rw [htasks, hcron]; exact h.cron_exists
  frames id hid := by rw [htasks, hlast]; exact h.frames id (hstack id hid)

/-- The task of a delayed action, which goes on the list of pending ones. -/
theorem scheduleDelayed (firing : Firing τ α) (delay : Nat) :
    ({ s.schedule (.delayed firing) delay with
      pendingDelayedTasks := s.pendingDelayedTasks ++ [s.lastTaskId + 1] } : State τ α).TaskTable
    where
  nodup := h.nodup_schedule _ delay
  range := h.range_schedule _ delay
  pending_range id hid := by
    obtain hid | hid := List.mem_append.mp hid
    · exact Nat.le_succ_of_le (h.pending_range id hid)
    · exact Nat.le_of_eq (List.mem_singleton.mp hid)
  pending_iff task htask := by
    obtain htask | rfl := mem_schedule.mp htask
    · have hne := (h.range task htask).2
      rw [List.mem_append, List.mem_singleton, h.pending_iff task htask]
      exact ⟨fun hor => hor.resolve_right (by omega), .inl⟩
    · exact ⟨fun _ => rfl, fun _ => List.mem_append_right _ (List.mem_singleton_self _)⟩
  cron_range := Nat.le_succ_of_le h.cron_range
  cron_iff task htask := by
    obtain htask | rfl := mem_schedule.mp htask
    · exact h.cron_iff task htask
    · refine ⟨fun hfalse => absurd hfalse Bool.false_ne_true, fun heq => ?_⟩
      have hle := h.cron_range
      have heq : s.lastTaskId + 1 = s.cronTaskId := heq
      omega
  cron_exists hne := by
    obtain ⟨task, htask, hid⟩ := h.cron_exists hne
    exact ⟨task, mem_schedule.mpr (.inl htask), hid⟩
  frames := h.frames_schedule _ delay

/-- The deadlines of tasks are set anew. -/
theorem mapDeadline (g : Task τ α → Nat) :
    ({ s with tasks := s.tasks.map fun task => { task with deadline := g task } } :
      State τ α).TaskTable where
  nodup := by
    rw [List.map_map]
    exact h.nodup
  range task htask := by
    obtain ⟨old, hold, rfl⟩ := List.mem_map.mp htask
    exact h.range old hold
  pending_range := h.pending_range
  pending_iff task htask := by
    obtain ⟨old, hold, rfl⟩ := List.mem_map.mp htask
    exact h.pending_iff old hold
  cron_range := h.cron_range
  cron_iff task htask := by
    obtain ⟨old, hold, rfl⟩ := List.mem_map.mp htask
    exact h.cron_iff old hold
  cron_exists hne := by
    obtain ⟨task, htask, hid⟩ := h.cron_exists hne
    exact ⟨_, List.mem_map.mpr ⟨task, htask, rfl⟩, hid⟩
  frames id hid := by
    refine ⟨(h.frames id hid).1, fun task htask => ?_⟩
    obtain ⟨old, hold, rfl⟩ := List.mem_map.mp htask
    exact (h.frames id hid).2 old hold

end

theorem firing_none_of_isCron {task : Task τ α} (hcron : task.isCron = true) :
    task.firing = none := by
  obtain ⟨id, kind, deadline⟩ := task
  cases kind with
  | cron => rfl
  | applyConfig | reboot | delayed firing => exact absurd hcron Bool.false_ne_true

/-- A task that is not the cron task is over, or is the delayed action that is executed now. -/
theorem run (h : s.TaskTable) {task : Task τ α} (htask : task ∈ s.tasks)
    (hcron : task.isCron = false) (stack : List (Frame τ))
    (hstack : ∀ id, Frame.delayed id ∈ stack → id = task.id) :
    ({ s.cancel task.id with stack := stack } : State τ α).TaskTable where
  nodup := h.nodup_cancel task.id
  range other hother := h.range other (mem_cancel.mp hother).1
  pending_range := h.pending_range
  pending_iff other hother := h.pending_iff other (mem_cancel.mp hother).1
  cron_range := h.cron_range
  cron_iff other hother := h.cron_iff other (mem_cancel.mp hother).1
  cron_exists hne := by
    obtain ⟨other, hother, hid⟩ := h.cron_exists hne
    refine ⟨other, mem_cancel.mpr ⟨hother, fun heq => ?_⟩, hid⟩
    have htrue := (h.cron_iff task htask).mpr (heq.symm.trans hid)
    rw [hcron] at htrue
    exact Bool.false_ne_true htrue
  frames id hid := by
    obtain rfl := hstack id hid
    exact ⟨(h.range task htask).2, fun other hother => (mem_cancel.mp hother).2⟩

/-- The action of a delayed task has returned. -/
theorem finishDelayed (h : s.TaskTable) {taskId : Nat} {rest : List (Frame τ)}
    (hstack : s.stack = .delayed taskId :: rest) :
    ({ s with
      pendingDelayedTasks := swapRemove s.pendingDelayedTasks taskId
      stack := rest } : State τ α).TaskTable where
  nodup := h.nodup
  range := h.range
  pending_range id hid := by
    by_cases heq : id = taskId
    · rw [heq]
      exact (h.frames taskId (hstack ▸ List.mem_cons_self)).1
    · exact h.pending_range id ((mem_swapRemove_of_ne heq).mp hid)
  pending_iff task htask := by
    have hne := (h.frames taskId (hstack ▸ List.mem_cons_self)).2 task htask
    exact (mem_swapRemove_of_ne hne).trans (h.pending_iff task htask)
  cron_range := h.cron_range
  cron_iff := h.cron_iff
  cron_exists := h.cron_exists
  frames id hid := h.frames id (hstack ▸ List.mem_cons_of_mem _ hid)

/-- All delayed actions are cancelled. -/
theorem cancelPending (h : s.TaskTable) :
    ({ s with
      tasks := s.tasks.filter fun task => task.id ∉ s.pendingDelayedTasks
      pendingDelayedTasks := [] } : State τ α).TaskTable ∧
      ∀ task ∈ s.tasks.filter fun task => task.id ∉ s.pendingDelayedTasks, task.firing = none := by
  have hnone : ∀ task ∈ s.tasks, task.id ∉ s.pendingDelayedTasks → task.firing = none := by
    intro task htask hid
    rw [h.pending_iff task htask, Option.not_isSome_iff_eq_none] at hid
    exact hid
  have hmem : ∀ task ∈ s.tasks.filter fun task => task.id ∉ s.pendingDelayedTasks,
      task ∈ s.tasks ∧ task.id ∉ s.pendingDelayedTasks := by
    intro task htask
    obtain ⟨htask, hid⟩ := List.mem_filter.mp htask
    exact ⟨htask, of_decide_eq_true hid⟩
  refine ⟨?_, fun task htask => hnone task (hmem task htask).1 (hmem task htask).2⟩
  exact
    { nodup := h.nodup.sublist (List.filter_sublist.map Task.id)
      range := fun task htask => h.range task (hmem task htask).1
      pending_range := fun _ hid => absurd hid List.not_mem_nil
      pending_iff := fun task htask => by
        rw [hnone task (hmem task htask).1 (hmem task htask).2]
        exact ⟨fun hid => absurd hid List.not_mem_nil,
          fun hfalse => absurd hfalse Bool.false_ne_true⟩
      cron_range := h.cron_range
      cron_iff := fun task htask => h.cron_iff task (hmem task htask).1
      cron_exists := fun hne => by
        obtain ⟨task, htask, hid⟩ := h.cron_exists hne
        have hcron := firing_none_of_isCron ((h.cron_iff task htask).mpr hid)
        refine ⟨task, List.mem_filter.mpr ⟨htask, decide_eq_true fun hpending => ?_⟩, hid⟩
        rw [h.pending_iff task htask, hcron] at hpending
        exact Bool.false_ne_true hpending
      frames := fun id hid =>
        ⟨(h.frames id hid).1, fun task htask => (h.frames id hid).2 task (hmem task htask).1⟩ }

end TaskTable

def waiting (s : State τ α) : List (Nat × Firing τ α) :=
  s.tasks.filterMap fun task => task.firing.map fun firing => (task.deadline, firing)

def book (s : State τ α) : Book τ α where
  version := s.version
  now := s.now
  rules := s.configInUse.getD []
  locks := s.lastRun
  fired := s.fired
  executed := s.executed
  waiting := s.waiting

theorem mem_waiting {s : State τ α} {entry : Nat × Firing τ α} :
    entry ∈ s.waiting ↔ ∃ task ∈ s.tasks, task.firing = some entry.2 ∧ task.deadline = entry.1 := by
  simp only [waiting, List.mem_filterMap, Option.map_eq_some_iff]
  constructor
  · rintro ⟨task, htask, firing, hfiring, rfl⟩
    exact ⟨task, htask, hfiring, rfl⟩
  · rintro ⟨task, htask, hfiring, hdeadline⟩
    exact ⟨task, htask, entry.2, hfiring, by rw [hdeadline]⟩

section

variable {s : State τ α} {kind : TaskKind τ α} {delay : Nat}
  (hfiring : ∀ id deadline, (⟨id, kind, deadline⟩ : Task τ α).firing = none)
include hfiring

theorem waiting_schedule : (s.schedule kind delay).waiting = s.waiting := by
  simp [waiting, schedule, hfiring]

theorem book_schedule : (s.schedule kind delay).book = s.book := by
  rw [book, waiting_schedule hfiring]
  rfl

end

/-- A task that is not a delayed action is over. -/
theorem waiting_cancel {s : State τ α} {taskId : Nat}
    (hfiring : ∀ task ∈ s.tasks, task.id = taskId → task.firing = none) :
    (s.cancel taskId).waiting = s.waiting := by
  simp only [waiting, cancel, List.filterMap_filter]
  refine List.filterMap_congr fun task htask => ?_
  by_cases hid : task.id = taskId
  · rw [hfiring task htask hid]
    simp
  · simp [hid]

/-- The actions that wait are the one that is executed now and those that go on waiting. -/
theorem waiting_perm {s : State τ α} (h : s.TaskTable) {task : Task τ α} (htask : task ∈ s.tasks)
    {firing : Firing τ α} (hfiring : task.firing = some firing) :
    s.waiting.Perm ((task.deadline, firing) :: (s.cancel task.id).waiting) := by
  obtain ⟨front, back, hsplit⟩ := List.append_of_mem htask
  have hnodup := h.nodup
  rw [hsplit, List.map_append, List.map_cons] at hnodup
  obtain ⟨hfront, -⟩ := List.nodup_cons.mp (List.nodup_middle.mp hnodup)
  have hrest : (s.cancel task.id).tasks = front ++ back := by
    simp only [cancel, hsplit, List.filter_append]
    rw [List.filter_cons_of_neg (by simp)]
    have hne : ∀ other ∈ front ++ back, decide (other.id ≠ task.id) = true := by
      intro other hother
      refine decide_eq_true fun heq => hfront ?_
      rw [← List.map_append, ← heq]
      exact List.mem_map_of_mem hother
    rw [← List.filter_append]
    exact List.filter_eq_self.mpr hne
  simp only [waiting, hrest]
  rw [hsplit, List.filterMap_append, List.filterMap_cons, hfiring, List.filterMap_append]
  exact List.perm_middle

theorem waiting_handleCronTask {s : State τ α} (h : s.TaskTable) :
    s.handleCronTask.waiting = s.waiting := by
  simp only [handleCronTask]
  split
  · exact waiting_schedule fun _ _ => rfl
  · split
    · exact waiting_cancel fun task htask hid =>
        TaskTable.firing_none_of_isCron ((h.cron_iff task htask).mpr hid)
    · rfl

theorem core_handleCronTask (s : State τ α) :
    s.handleCronTask.configInUse = s.configInUse ∧ s.handleCronTask.lastRun = s.lastRun ∧
      s.handleCronTask.lastRunState = s.lastRunState ∧ s.handleCronTask.stack = s.stack ∧
      s.handleCronTask.fired = s.fired ∧ s.handleCronTask.executed = s.executed ∧
      s.handleCronTask.version = s.version ∧ s.handleCronTask.now = s.now := by
  simp only [handleCronTask]
  split
  · exact ⟨rfl, rfl, rfl, rfl, rfl, rfl, rfl, rfl⟩
  · split <;> exact ⟨rfl, rfl, rfl, rfl, rfl, rfl, rfl, rfl⟩

theorem book_handleCronTask {s : State τ α} (h : s.TaskTable) : s.handleCronTask.book = s.book := by
  obtain ⟨hrules, hlast, -, -, hfired, hexecuted, hversion, hnow⟩ := core_handleCronTask s
  rw [book, book, hrules, hlast, hfired, hexecuted, hversion, hnow, waiting_handleCronTask h]

end State

end Esp32Firmware.Automation
