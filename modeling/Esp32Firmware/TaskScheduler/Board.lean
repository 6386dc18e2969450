import Esp32Firmware.TaskScheduler.Scheduler

/-!
# The board of live tasks

What the calls so far promise about a task follows from their events alone. The
board holds the IDs the scheduler has somewhere, in no particular place, and
the IDs of its registrations. It agrees with the events, and each kind of event
changes it in its own way.
-/

namespace Esp32Firmware.TaskScheduler

/-- An ID and whether its task is a `once` task for the scheduler. -/
abbrev TaskKey := TaskId × Bool

/-- The runner of a wall clock task runs again although it is a `once` task. -/
def TaskKey.repeats (key : TaskKey) : Bool :=
  !key.2 || key.1.kind == .wallClock

def Event.taskId : Event → TaskId
  | .scheduled taskId _ => taskId
  | .cancelled taskId _ => taskId
  | .started taskId => taskId
  | .finished taskId => taskId

/-- A cancellation of the task has not answered `NotFound`. -/
def CancelAccepted (events : List Event) (taskId : TaskId) : Prop :=
  ∃ result, result ≠ .notFound ∧ .cancelled taskId result ∈ events

/-- A task that does not repeat has run. -/
def Completed (events : List Event) (taskId : TaskId) : Prop :=
  .scheduled taskId false ∈ events ∧ .finished taskId ∈ events

/-- A scheduled task that was neither cancelled nor completed. -/
def Live (events : List Event) (taskId : TaskId) : Prop :=
  (∃ repeats, .scheduled taskId repeats ∈ events) ∧ ¬CancelAccepted events taskId ∧
    ¬Completed events taskId

section

variable {events : List Event} {taskId other : TaskId}

theorem cancelAccepted_append {e : Event} :
    CancelAccepted (events ++ [e]) taskId ↔
      CancelAccepted events taskId ∨ ∃ result, result ≠ .notFound ∧ e = .cancelled taskId result := by
  constructor
  · rintro ⟨result, hresult, hmem⟩
    rcases List.mem_append.mp hmem with hmem | hmem
    · exact .inl ⟨result, hresult, hmem⟩
    · exact .inr ⟨result, hresult, (List.mem_singleton.mp hmem).symm⟩
  · rintro (⟨result, hresult, hmem⟩ | ⟨result, hresult, rfl⟩)
    · exact ⟨result, hresult, List.mem_append_left _ hmem⟩
    · exact ⟨result, hresult, List.mem_append_right _ (List.mem_singleton_self _)⟩

/-- An event of another task, a start and a failed cancellation leave a task as live as it
was. -/
theorem live_append_of_irrelevant {e : Event} (hscheduled : ∀ repeats, e ≠ .scheduled taskId repeats)
    (hcancelled : ∀ result, result ≠ .notFound → e ≠ .cancelled taskId result)
    (hfinished : e = .finished taskId → .scheduled taskId false ∉ events) :
    Live (events ++ [e]) taskId ↔ Live events taskId := by
  have hmem : ∀ repeats, .scheduled taskId repeats ∈ events ++ [e] ↔
      .scheduled taskId repeats ∈ events := by
    intro repeats
    rw [List.mem_append, List.mem_singleton]
    exact or_iff_left fun h => hscheduled repeats h.symm
  have haccepted : CancelAccepted (events ++ [e]) taskId ↔ CancelAccepted events taskId := by
    rw [cancelAccepted_append]
    exact or_iff_left fun ⟨result, hresult, h⟩ => hcancelled result hresult h
  have hcompleted : Completed (events ++ [e]) taskId ↔ Completed events taskId := by
    rw [Completed, Completed, hmem, List.mem_append, List.mem_singleton]
    constructor
    · rintro ⟨hfalse, h | h⟩
      · exact ⟨hfalse, h⟩
      · exact absurd hfalse (hfinished h.symm)
    · rintro ⟨hfalse, h⟩
      exact ⟨hfalse, .inl h⟩
  rw [Live, Live, haccepted, hcompleted]
  simp only [hmem]

theorem live_append_of_ne {e : Event} (h : e.taskId ≠ taskId) :
    Live (events ++ [e]) taskId ↔ Live events taskId := by
  apply live_append_of_irrelevant
  · rintro repeats rfl
    exact h rfl
  · rintro result - rfl
    exact h rfl
  · rintro rfl
    exact absurd rfl h

theorem live_append_started : Live (events ++ [.started other]) taskId ↔ Live events taskId := by
  apply live_append_of_irrelevant
  · rintro repeats ⟨⟩
  · rintro result - ⟨⟩
  · rintro ⟨⟩

theorem live_append_notFound :
    Live (events ++ [.cancelled other .notFound]) taskId ↔ Live events taskId := by
  apply live_append_of_irrelevant
  · rintro repeats ⟨⟩
  · rintro result hresult ⟨⟩
    exact hresult rfl
  · rintro ⟨⟩

theorem not_live_append_cancelled {result : CancelResult} (hresult : result ≠ .notFound) :
    ¬Live (events ++ [.cancelled taskId result]) taskId := by
  rintro ⟨-, haccepted, -⟩
  exact haccepted ⟨result, hresult, List.mem_append_right _ (List.mem_singleton_self _)⟩

end

/-- The board agrees with the events: it holds exactly the live tasks and, until its current run
ends, a cancelled task. -/
structure Board (keys : List TaskKey) (cancelling : Option TaskId) (registered : List TaskId)
    (lastTaskId : Nat) (events : List Event) : Prop where
  nodup : (keys.map Prod.fst).Nodup
  scheduled : ∀ key ∈ keys, .scheduled key.1 key.repeats ∈ events
  live : ∀ taskId, Live events taskId ↔ taskId ∈ keys.map Prod.fst ∧ cancelling ≠ some taskId
  wallClock : ∀ key ∈ keys, key.1.kind = .wallClock → key.2 = true
  registered_iff : ∀ taskId, taskId ∈ registered ↔ taskId.kind = .wallClock ∧ Live events taskId
  registeredNodup : registered.Nodup
  issued : ∀ e ∈ events, e.taskId.number ≤ lastTaskId ∨ ∃ taskId, e = .cancelled taskId .notFound
  unique : ∀ taskId, .scheduled taskId true ∈ events → .scheduled taskId false ∉ events

namespace Board

variable {keys keys' : List TaskKey} {cancelling : Option TaskId}
  {registered registered' : List TaskId} {lastTaskId : Nat} {events : List Event}
  {taskId : TaskId} {once : Bool}

theorem empty : Board [] none [] 0 [] where
  nodup := List.nodup_nil
  scheduled := by
    intro key hkey
    cases hkey
  live := by
    intro taskId
    constructor
    · rintro ⟨⟨repeats, hmem⟩, -⟩
      cases hmem
    · rintro ⟨hmem, -⟩
      cases hmem
  wallClock := by
    intro key hkey
    cases hkey
  registered_iff := by
    intro taskId
    constructor
    · intro hmem
      cases hmem
    · rintro ⟨-, ⟨repeats, hmem⟩, -⟩
      cases hmem
  registeredNodup := List.nodup_nil
  issued := by
    intro e he
    cases he
  unique := by
    intro taskId hmem
    cases hmem

/-- The order of the keys and of the registrations does not matter. -/
theorem perm (h : Board keys cancelling registered lastTaskId events)
    (hkeys : keys'.Perm keys) (hregistered : registered'.Perm registered) :
    Board keys' cancelling registered' lastTaskId events where
  nodup := (hkeys.map Prod.fst).nodup_iff.mpr h.nodup
  scheduled key hkey := h.scheduled key (hkeys.mem_iff.mp hkey)
  live taskId := by rw [h.live, (hkeys.map Prod.fst).mem_iff]
  wallClock key hkey := h.wallClock key (hkeys.mem_iff.mp hkey)
  registered_iff taskId := by rw [hregistered.mem_iff, h.registered_iff]
  registeredNodup := hregistered.nodup_iff.mpr h.registeredNodup
  issued := h.issued
  unique := h.unique

theorem mono {lastTaskId' : Nat} (h : Board keys cancelling registered lastTaskId events)
    (hle : lastTaskId ≤ lastTaskId') : Board keys cancelling registered lastTaskId' events :=
  { h with issued := fun e he => (h.issued e he).imp_left (Nat.le_trans · hle) }

/-- An ID of the board has been issued. -/
theorem number_le (h : Board keys cancelling registered lastTaskId events)
    (hmem : taskId ∈ keys.map Prod.fst) : taskId.number ≤ lastTaskId := by
  obtain ⟨key, hkey, rfl⟩ := List.mem_map.mp hmem
  rcases h.issued _ (h.scheduled key hkey) with hle | ⟨taskId, heq⟩
  · exact hle
  · cases heq

variable {e : Event} {result : CancelResult}

section

variable (h : Board keys cancelling registered lastTaskId events)
include h

/-- A new ID has no events but failed cancellations. -/
theorem not_mem_of_new (hnew : lastTaskId < taskId.number) (he : e.taskId = taskId)
    (hfound : e ≠ .cancelled taskId .notFound) : e ∉ events := by
  intro hmem
  rcases h.issued e hmem with hle | ⟨taskId', rfl⟩
  · rw [he] at hle
    omega
  · cases he
    exact hfound rfl

/-- Scheduling puts a new key on the board, and a wall clock task under the registrations. -/
theorem schedule
    (hnew : taskId.number = lastTaskId + 1) (hkind : taskId.kind = .wallClock → once = true)
    (hcancelling : cancelling ≠ some taskId)
    (hregistered : registered' = if taskId.kind = .wallClock then taskId :: registered
      else registered) :
    Board ((taskId, once) :: keys) cancelling registered' (lastTaskId + 1)
      (events ++ [.scheduled taskId (TaskKey.repeats (taskId, once))]) := by
  have hlt : lastTaskId < taskId.number := by omega
  have hout : taskId ∉ keys.map Prod.fst := by
    intro hmem
    have := h.number_le hmem
    omega
  have hnone : ∀ repeats, .scheduled taskId repeats ∉ events := fun repeats =>
    h.not_mem_of_new hlt rfl (by rintro ⟨⟩)
  have hself : Live (events ++ [.scheduled taskId (TaskKey.repeats (taskId, once))]) taskId := by
    refine ⟨⟨_, List.mem_append_right _ (List.mem_singleton_self _)⟩, ?_, ?_⟩
    · rw [cancelAccepted_append]
      rintro (⟨result, hresult, hmem⟩ | ⟨result, -, heq⟩)
      · refine h.not_mem_of_new hlt rfl ?_ hmem
        rintro ⟨⟩
        exact hresult rfl
      · cases heq
    · rintro ⟨-, hfinished⟩
      rcases List.mem_append.mp hfinished with hmem | hmem
      · exact h.not_mem_of_new hlt rfl (by rintro ⟨⟩) hmem
      · cases List.mem_singleton.mp hmem
  have hlive : ∀ other, Live (events ++ [.scheduled taskId (TaskKey.repeats (taskId, once))])
      other ↔ other = taskId ∨ Live events other := by
    intro other
    by_cases heq : other = taskId
    · rw [heq]
      exact iff_of_true hself (.inl rfl)
    · rw [live_append_of_ne (Ne.symm heq), or_iff_right heq]
  have hnotLive : ¬Live events taskId := by
    rintro ⟨⟨repeats, hmem⟩, -⟩
    exact hnone repeats hmem
  constructor
  · rw [List.map_cons]
    exact List.nodup_cons.mpr ⟨hout, h.nodup⟩
  · intro key hkey
    rcases List.mem_cons.mp hkey with rfl | hkey
    · exact List.mem_append_right _ (List.mem_singleton_self _)
    · exact List.mem_append_left _ (h.scheduled key hkey)
  · intro other
    rw [hlive, h.live, List.map_cons, List.mem_cons]
    constructor
    · rintro (rfl | ⟨hmem, hne⟩)
      · exact ⟨.inl rfl, hcancelling⟩
      · exact ⟨.inr hmem, hne⟩
    · rintro ⟨heq | hmem, hne⟩
      · exact .inl heq
      · exact .inr ⟨hmem, hne⟩
  · intro key hkey
    rcases List.mem_cons.mp hkey with rfl | hkey
    · exact hkind
    · exact h.wallClock key hkey
  · intro other
    rw [hlive, hregistered]
    by_cases heq : other = taskId
    · subst heq
      by_cases hwall : other.kind = .wallClock
      · simp [hwall]
      · simp [hwall, h.registered_iff]
    · split
      · rw [List.mem_cons, or_iff_right heq, or_iff_right heq, h.registered_iff]
      · rw [or_iff_right heq, h.registered_iff]
  · rw [hregistered]
    split
    · refine List.nodup_cons.mpr ⟨?_, h.registeredNodup⟩
      rw [h.registered_iff]
      exact fun hmem => hnotLive hmem.2
    · exact h.registeredNodup
  · intro e he
    rcases List.mem_append.mp he with he | he
    · exact (h.issued e he).imp_left Nat.le_succ_of_le
    · rw [List.mem_singleton.mp he]
      exact .inl (Nat.le_of_eq hnew)
  · intro other htrue hfalse
    rw [List.mem_append, List.mem_singleton] at htrue hfalse
    rcases htrue with htrue | htrue
    · rcases hfalse with hfalse | hfalse
      · exact h.unique other htrue hfalse
      · obtain ⟨heq, -⟩ := Event.scheduled.inj hfalse
        rw [heq] at htrue
        exact hnone _ htrue
    · obtain ⟨heq, htrue⟩ := Event.scheduled.inj htrue
      rcases hfalse with hfalse | hfalse
      · rw [heq] at hfalse
        exact hnone _ hfalse
      · obtain ⟨-, hfalse⟩ := Event.scheduled.inj hfalse
        rw [← htrue] at hfalse
        cases hfalse

/-- Events that schedule nothing leave the rest of the board's books as they are. -/
theorem append {e : Event} {cancelling' : Option TaskId}
    (hnodup : (keys'.map Prod.fst).Nodup) (hsub : ∀ key ∈ keys', key ∈ keys)
    (hlive : ∀ taskId, Live (events ++ [e]) taskId ↔
      taskId ∈ keys'.map Prod.fst ∧ cancelling' ≠ some taskId)
    (hregistered : ∀ taskId, taskId ∈ registered' ↔
      taskId.kind = .wallClock ∧ Live (events ++ [e]) taskId)
    (hregisteredNodup : registered'.Nodup)
    (hissued : e.taskId.number ≤ lastTaskId ∨ ∃ taskId, e = .cancelled taskId .notFound)
    (hscheduled : ∀ taskId repeats, e ≠ .scheduled taskId repeats) :
    Board keys' cancelling' registered' lastTaskId (events ++ [e]) where
  nodup := hnodup
  scheduled key hkey := List.mem_append_left _ (h.scheduled key (hsub key hkey))
  live := hlive
  wallClock key hkey := h.wallClock key (hsub key hkey)
  registered_iff := hregistered
  registeredNodup := hregisteredNodup
  issued := by
    intro e' he'
    rcases List.mem_append.mp he' with he' | he'
    · exact h.issued e' he'
    · rw [List.mem_singleton.mp he']
      exact hissued
  unique := by
    intro taskId htrue hfalse
    rw [List.mem_append, List.mem_singleton, or_iff_left fun h => hscheduled _ _ h.symm]
      at htrue hfalse
    exact h.unique taskId htrue hfalse

/-- An event that leaves every task as live as it was leaves the board as it is. -/
theorem same (hlive : ∀ taskId, Live (events ++ [e]) taskId ↔ Live events taskId)
    (hissued : e.taskId.number ≤ lastTaskId ∨ ∃ taskId, e = .cancelled taskId .notFound)
    (hscheduled : ∀ taskId repeats, e ≠ .scheduled taskId repeats) :
    Board keys cancelling registered lastTaskId (events ++ [e]) := by
  apply h.append h.nodup (fun _ => id) _ _ h.registeredNodup hissued hscheduled
  · intro taskId
    rw [hlive, h.live]
  · intro taskId
    rw [hlive, h.registered_iff]

theorem start (hmem : taskId ∈ keys.map Prod.fst) :
    Board keys cancelling registered lastTaskId (events ++ [.started taskId]) :=
  h.same (fun _ => live_append_started) (.inl (h.number_le hmem)) (by rintro _ _ ⟨⟩)

theorem notFound :
    Board keys cancelling registered lastTaskId (events ++ [.cancelled taskId .notFound]) :=
  h.same (fun _ => live_append_notFound) (.inr ⟨taskId, rfl⟩) (by rintro _ _ ⟨⟩)

end

/-- An accepted cancellation ends the life of its task and of no other one. -/
theorem live_cancelled (hresult : result ≠ .notFound) (other : TaskId) :
    Live (events ++ [.cancelled taskId result]) other ↔ Live events other ∧ other ≠ taskId := by
  by_cases heq : other = taskId
  · rw [heq]
    exact iff_of_false (not_live_append_cancelled hresult) fun h => h.2 rfl
  · rw [live_append_of_ne (Ne.symm heq), and_iff_left heq]

/-- A cancelled task that is not running leaves the board with its registration. -/
theorem cancel (h : Board ((taskId, once) :: keys) cancelling registered lastTaskId events)
    (hnone : cancelling ≠ some taskId) (hresult : result ≠ .notFound)
    (hregistered : ∀ other, other ∈ registered' ↔ other ∈ registered ∧ other ≠ taskId)
    (hregisteredNodup : registered'.Nodup) :
    Board keys cancelling registered' lastTaskId (events ++ [.cancelled taskId result]) := by
  have hnodup := h.nodup
  rw [List.map_cons] at hnodup
  obtain ⟨hout, hnodup⟩ := List.nodup_cons.mp hnodup
  apply h.append hnodup (fun _ => List.mem_cons_of_mem _) _ _ hregisteredNodup
  · exact .inl (h.number_le List.mem_cons_self)
  · rintro _ _ ⟨⟩
  · intro other
    rw [live_cancelled hresult, h.live, List.map_cons, List.mem_cons]
    constructor
    · rintro ⟨⟨heq | hmem, hne⟩, hother⟩
      · exact absurd heq hother
      · exact ⟨hmem, hne⟩
    · rintro ⟨hmem, hne⟩
      refine ⟨⟨.inr hmem, hne⟩, ?_⟩
      rintro rfl
      exact hout hmem
  · intro other
    rw [live_cancelled hresult, hregistered, h.registered_iff, and_assoc]

/-- The running task stays on the board as cancelled, but it loses its registration. -/
theorem cancelRunning (h : Board keys cancelling registered lastTaskId events)
    (hmem : taskId ∈ keys.map Prod.fst)
    (hcancelling : cancelling = none ∨ cancelling = some taskId)
    (hregistered : ∀ other, other ∈ registered' ↔ other ∈ registered ∧ other ≠ taskId)
    (hregisteredNodup : registered'.Nodup) :
    Board keys (some taskId) registered' lastTaskId
      (events ++ [.cancelled taskId .willBeCancelled]) := by
  have hresult : CancelResult.willBeCancelled ≠ .notFound := by rintro ⟨⟩
  apply h.append h.nodup (fun _ => id) _ _ hregisteredNodup
  · exact .inl (h.number_le hmem)
  · rintro _ _ ⟨⟩
  · intro other
    rw [live_cancelled hresult, h.live, and_assoc]
    refine and_congr_right fun _ => ?_
    constructor
    · rintro ⟨-, hne⟩ heq
      exact hne (Option.some.inj heq).symm
    · intro hne
      refine ⟨?_, fun heq => hne (congrArg some heq.symm)⟩
      rcases hcancelling with heq | heq
      · rw [heq]
        rintro ⟨⟩
      · rw [heq]
        rintro ⟨⟩
        exact hne rfl
  · intro other
    rw [live_cancelled hresult, hregistered, h.registered_iff, and_assoc]

/-- A task that was cancelled, or does not repeat, leaves the board when it has finished. -/
theorem finishLast (h : Board ((taskId, once) :: keys) cancelling registered lastTaskId events)
    (hlast : cancelling = some taskId ∨
      cancelling = none ∧ TaskKey.repeats (taskId, once) = false) :
    Board keys none registered lastTaskId (events ++ [.finished taskId]) := by
  have hnodup := h.nodup
  rw [List.map_cons] at hnodup
  obtain ⟨hout, hnodup⟩ := List.nodup_cons.mp hnodup
  have hself : ¬Live (events ++ [.finished taskId]) taskId := by
    rcases hlast with hlast | ⟨-, hlast⟩
    · have hnot : ¬Live events taskId := by
        rw [h.live]
        exact fun hlive => hlive.2 hlast
      by_cases hfalse : .scheduled taskId false ∈ events
      · rintro ⟨-, -, hcompleted⟩
        exact hcompleted ⟨List.mem_append_left _ hfalse,
          List.mem_append_right _ (List.mem_singleton_self _)⟩
      · rwa [live_append_of_irrelevant (by rintro _ ⟨⟩) (by rintro _ _ ⟨⟩) fun _ => hfalse]
    · have hscheduled := h.scheduled (taskId, once) List.mem_cons_self
      rw [hlast] at hscheduled
      rintro ⟨-, -, hcompleted⟩
      exact hcompleted ⟨List.mem_append_left _ hscheduled,
        List.mem_append_right _ (List.mem_singleton_self _)⟩
  have hcancelling : ∀ other, other ≠ taskId → cancelling ≠ some other := by
    intro other hne
    rcases hlast with heq | ⟨heq, -⟩
    · rw [heq]
      rintro ⟨⟩
      exact hne rfl
    · rw [heq]
      rintro ⟨⟩
  have hlive : ∀ other, Live (events ++ [.finished taskId]) other ↔
      other ∈ keys.map Prod.fst ∧ none ≠ some other := by
    intro other
    by_cases heq : other = taskId
    · rw [heq]
      exact iff_of_false hself fun hmem => hout hmem.1
    · rw [live_append_of_ne (Ne.symm heq), h.live, List.map_cons, List.mem_cons,
        or_iff_right heq, and_iff_left (hcancelling other heq), and_iff_left (by rintro ⟨⟩)]
  apply h.append hnodup (fun _ => List.mem_cons_of_mem _) hlive _ h.registeredNodup
  · exact .inl (h.number_le List.mem_cons_self)
  · rintro _ _ ⟨⟩
  · intro other
    by_cases heq : other = taskId
    · rw [heq]
      refine iff_of_false ?_ fun hmem => hself hmem.2
      rw [h.registered_iff, h.live]
      rintro ⟨hwall, -, hne⟩
      rcases hlast with hlast | ⟨-, hlast⟩
      · exact hne hlast
      · rw [TaskKey.repeats, hwall, Bool.or_eq_false_iff] at hlast
        exact absurd hlast.2 (by decide)
    · rw [live_append_of_ne (Ne.symm heq), h.registered_iff]

/-- A task that repeats stays on the board when a run of it has finished. -/
theorem finishRun (h : Board keys none registered lastTaskId events) {key : TaskKey}
    (hmem : key ∈ keys) (hrepeats : key.repeats = true) :
    Board keys none registered lastTaskId (events ++ [.finished key.1]) := by
  have hscheduled := h.scheduled key hmem
  rw [hrepeats] at hscheduled
  apply h.same
  · intro other
    apply live_append_of_irrelevant
    · rintro _ ⟨⟩
    · rintro _ _ ⟨⟩
    · rintro ⟨⟩
      exact h.unique _ hscheduled
  · exact .inl (h.number_le (List.mem_map_of_mem hmem))
  · rintro _ _ ⟨⟩

end Board

end Esp32Firmware.TaskScheduler
