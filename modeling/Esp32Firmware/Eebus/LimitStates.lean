import Esp32Firmware.Eebus.LoadPowerLimit
import Esp32Firmware.Library.Run

/-!
# The states of the load power limit

Which limit applies in each state, that an Energy Guard in control is watched by a timer, and how
the failsafe state is left, over every run of writes, heartbeats, constraints and timers.
-/

namespace Esp32Firmware.Eebus

open LoadPowerLimit

/-- What a run says about the limit: the last value that was accepted, when the failsafe state was
entered, and when the duration of the limit ends or has ended. -/
structure LimitHistory where
  acceptedLimit : ℤ := initialActivePowerConsumption
  failsafeSince : ℤ := 0
  limitEnd : Option ℤ := none
deriving DecidableEq, Repr

namespace LimitHistory

def elapsed (h : LimitHistory) (now : ℤ) : Bool := h.limitEnd.any fun t => decide (t ≤ now)

/-- A limit that has ended is a new one once a write activates it or gives it a new duration. -/
def accept (now : ℤ) (write : LimitWrite) (h : LimitHistory) : LimitHistory :=
  { h with
    acceptedLimit := write.valueW.getD h.acceptedLimit
    limitEnd :=
      match write.duration with
      | some duration => some (now + seconds (max duration 0))
      | none =>
        if h.elapsed now then if write.active = some true then none else h.limitEnd
        else if write.deleteDuration then none
        else h.limitEnd }

def enter (now : ℤ) (before after : LoadcontrolState) (h : LimitHistory) : LimitHistory :=
  if after = .failsafe ∧ before ≠ .failsafe then { h with failsafeSince := now } else h

/-- The history after an event that took the use case from one state to another. -/
def record (now : ℤ) (event : LimitEvent) (before after : LoadcontrolState) (accepted : Bool)
    (h : LimitHistory) : LimitHistory :=
  match event with
  | .write write =>
    if accepted then (h.enter now before after).accept now write else h.enter now before after
  | _ => h.enter now before after

variable {now : ℤ} {event : LimitEvent} {accepted : Bool}

theorem enter_acceptedLimit (h : LimitHistory) (before after : LoadcontrolState) :
    (h.enter now before after).acceptedLimit = h.acceptedLimit := by
  rw [enter]
  split <;> rfl

theorem record_failsafeSince (h : LimitHistory) (before after : LoadcontrolState) :
    (h.record now event before after accepted).failsafeSince =
      if after = .failsafe ∧ before ≠ .failsafe then now else h.failsafeSince := by
  have henter : (h.enter now before after).failsafeSince =
      if after = .failsafe ∧ before ≠ .failsafe then now else h.failsafeSince := by
    rw [enter]
    split <;> rfl
  cases event with
  | write write => cases accepted <;> exact henter
  | _ => exact henter

end LimitHistory

structure LimitSystem where
  now : ℤ
  usecase : LoadPowerLimit
  history : LimitHistory := {}
deriving DecidableEq, Repr

namespace LimitSystem

/-- The use case is created, with the failsafe values of the last time. -/
def initial (now : ℤ) (limitIsPositive : Bool) (persisted : PersistedFailsafe) : LimitSystem :=
  { now := now, usecase := create now limitIsPositive persisted }

/-- An event, some microseconds after the one before. -/
abbrev Label := ℕ × LimitEvent

/-- Whether the event is a write that the use case accepts. -/
def accepts (s : LimitSystem) (l : Label) : Bool := (s.usecase.handle (s.now + l.1) l.2).2

def step (s : LimitSystem) (l : Label) : LimitSystem :=
  let now := s.now + l.1
  let usecase := (s.usecase.handle now l.2).1
  { now := now
    usecase := usecase
    history := s.history.record now l.2 s.usecase.state usecase.state (s.accepts l) }

end LimitSystem

/-- The limit that applies in the state of the use case. -/
def LoadPowerLimit.stateLimit (u : LoadPowerLimit) : ℤ :=
  match u.state with
  | .limited => u.configuredLimit
  | .init | .failsafe => u.failsafePowerLimitW
  | .startup | .unlimitedControlled | .unlimitedAutonomous => initialActivePowerConsumption

/-- The state decides which limit applies, and control comes with a timer. -/
structure LoadPowerLimit.Sound (u : LoadPowerLimit) : Prop where
  active : u.limitActive = true ↔ u.state = .limited
  effective : u.currentActiveLimitW = u.stateLimit
  watched : u.isControlled = true → u.heartbeatTimeoutTimer.isSome = true
  starting : u.startTask.isSome = true → u.state = .startup ∧ u.registered = false
  unregistered : u.registered = false → u.lastHeartbeat = 0

/-- The timer belongs to the last heartbeat, and runs out before the heartbeat is forgotten. -/
structure LoadPowerLimit.HeartbeatWatched (now : ℤ) (u : LoadPowerLimit) : Prop where
  deadline : ∀ d, u.heartbeatTimeoutTimer = some d → d = u.lastHeartbeat + seconds heartbeatTimeout
  outdated : u.lastHeartbeat ≠ 0 → u.heartbeatTimeoutTimer = none →
    u.lastHeartbeat + seconds heartbeatTimeout ≤ now

section

/-- The write is evaluated: an Energy Guard is in control, or sent a heartbeat a short time ago. -/
def LoadPowerLimit.Evaluates (now : ℤ) (u : LoadPowerLimit) : Prop :=
  u.isControlled = true ∨ u.heartbeatInWriteWindow now = true

/-- A write that is evaluated, but has a limit that cannot be applied. -/
def LoadPowerLimit.OutOfRange (write : LimitWrite) (u : LoadPowerLimit) : Prop :=
  validLimit u.limitIsPositive (write.valueW.getD u.configuredLimit) = false

def LoadPowerLimit.setLimit (u : LoadPowerLimit) (active : Bool) (value endtime : ℤ)
    (timer : Option ℤ) : LoadPowerLimit :=
  { u with
    limitActive := active
    configuredLimit := value
    limitEndtime := endtime
    limitEndtimeTimer := timer }

def LoadPowerLimit.setFailsafe (u : LoadPowerLimit) (power : ℤ) (written : Bool) (duration : ℤ) :
    LoadPowerLimit :=
  { u with failsafePowerLimitW := power, failsafePowerWritten := written,
           failsafeDuration := duration }

/-- The failsafe limit follows the constraints, at once where it applies. -/
def LoadPowerLimit.followNominal (u : LoadPowerLimit) (power : ℤ) : LoadPowerLimit :=
  { u with
    failsafePowerLimitW := power
    currentActiveLimitW :=
      if u.state = .init ∨ u.state = .failsafe then power else u.currentActiveLimitW }

/-- The limit has an end time with a timer that is due by then, or none of both. -/
def LoadPowerLimit.EndsAt (now newEndtime endtime : ℤ) (timer : Option ℤ) : Prop :=
  endtime = 0 ∧ timer = none ∨
    endtime = newEndtime ∧ newEndtime ≠ 0 ∧ now < endtime ∧ ∃ d, timer = some d ∧ d ≤ endtime

/-- Everything an event can do. -/
inductive LoadPowerLimit.Advance (now : ℤ) (u : LoadPowerLimit) :
    LimitEvent → LoadPowerLimit → Bool → Prop
  | nothing (event : LimitEvent) : Advance now u event u false
  | start (hdue : u.startTask.isSome = true) : Advance now u .start (u.start now) false
  | heartbeat (boundDevice : String) (sourceDevice : Option String) (h : u.registered = true) :
      Advance now u (.heartbeat boundDevice sourceDevice)
        { u with
          lastHeartbeat := now
          heartbeatTimeoutTimer := some (now + seconds heartbeatTimeout) } false
  | outOfRange (write : LimitWrite) (heval : u.Evaluates now) (hrange : u.OutOfRange write) :
      Advance now u (.write write) u.unlimitedControlledState false
  | limit (write : LimitWrite) (heval : u.Evaluates now) (endtime : ℤ) (timer : Option ℤ)
      (hends : EndsAt now (newActiveEndtime now write u).2 endtime timer)
      (hactive : write.duration = none → write.active.getD u.limitActive = true) :
      Advance now u (.write write)
        (u.setLimit true (write.valueW.getD u.configuredLimit) endtime timer).limitedState true
  | unlimit (write : LimitWrite) (heval : u.Evaluates now) (endtime : ℤ) (timer : Option ℤ)
      (hends : EndsAt now (newActiveEndtime now write u).2 endtime timer) :
      Advance now u (.write write)
        (u.setLimit false (write.valueW.getD u.configuredLimit) endtime
          timer).unlimitedControlledState true
  | failsafe (powerLimitW duration : Option ℤ) (h : u.isControlled = true) (power : ℤ)
      (written : Bool) (newDuration : ℤ) (accepted : Bool) :
      Advance now u (.writeFailsafe powerLimitW duration) (u.setFailsafe power written newDuration)
        accepted
  | constraints (powerMax powerContractMax newMax newContractMax : ℤ) :
      Advance now u (.constraints powerMax powerContractMax)
        { u with powerMaxW := newMax, powerContractMaxW := newContractMax } false
  | nominal (powerMax powerContractMax newMax newContractMax power : ℤ) :
      Advance now u (.constraints powerMax powerContractMax)
        ({ u with powerMaxW := newMax, powerContractMaxW := newContractMax }.followNominal power)
        false
  | limitEnded (h : u.state = .limited) :
      Advance now u .limitEndtimeTimer
        (u.setLimit false u.configuredLimit 0 none).unlimitedControlledState false
  | limitForgotten (h : u.state ≠ .limited) :
      Advance now u .limitEndtimeTimer (u.setLimit false u.configuredLimit 0 none) false
  | failsafeEnded (deadline : ℤ) (htimer : u.failsafeExpiryTimer = some deadline)
      (hdue : deadline ≤ now) (h : u.state = .failsafe) :
      Advance now u .failsafeExpiryTimer
        { u with failsafeExpiryTimer := none }.unlimitedAutonomousState false
  | failsafeForgotten (h : u.state ≠ .failsafe) :
      Advance now u .failsafeExpiryTimer { u with failsafeExpiryTimer := none } false
  | initEnded (h : u.state = .init) :
      Advance now u .initTimer { u with initTimer := none }.unlimitedAutonomousState false
  | initForgotten (h : u.state ≠ .init) :
      Advance now u .initTimer { u with initTimer := none } false
  | heartbeatLost (deadline : ℤ) (htimer : u.heartbeatTimeoutTimer = some deadline)
      (hdue : deadline ≤ now) (h : u.isControlled = true) :
      Advance now u .heartbeatTimeoutTimer
        ({ u with heartbeatTimeoutTimer := none }.failsafeState now) false
  | heartbeatForgotten (deadline : ℤ) (htimer : u.heartbeatTimeoutTimer = some deadline)
      (hdue : deadline ≤ now) (h : u.isControlled = false) :
      Advance now u .heartbeatTimeoutTimer { u with heartbeatTimeoutTimer := none } false

variable {now : ℤ} {u : LoadPowerLimit} {timer : Option ℤ} {task : LoadPowerLimit → LoadPowerLimit}

theorem due_cases (now : ℤ) (timer : Option ℤ) (task : LoadPowerLimit → LoadPowerLimit)
    (u : LoadPowerLimit) :
    runDue now timer task u = u ∨
      ∃ deadline, timer = some deadline ∧ deadline ≤ now ∧ runDue now timer task u = task u := by
  cases timer with
  | none => exact .inl rfl
  | some deadline =>
    by_cases hdue : deadline ≤ now
    · refine .inr ⟨deadline, rfl, hdue, if_pos ?_⟩
      exact decide_eq_true hdue
    · refine .inl (if_neg ?_)
      intro h
      exact hdue (of_decide_eq_true h)

/-- Starting the timer sets the end time and may only switch the limit off. -/
theorem startLimitEndtimeTimer_eq (now : ℤ) (u : LoadPowerLimit) :
    ∃ active endtime timer,
      startLimitEndtimeTimer now u = u.setLimit active u.configuredLimit endtime timer ∧
        EndsAt now u.limitEndtime endtime timer ∧ (active = true → u.limitActive = true) := by
  rw [startLimitEndtimeTimer]
  by_cases hend : u.limitEndtime ≠ 0
  · rw [if_pos hend]
    by_cases hleft : u.limitEndtime - now ≤ 0
    · rw [if_pos hleft]
      exact ⟨false, 0, none, rfl, .inl ⟨rfl, rfl⟩, Bool.noConfusion⟩
    · rw [if_neg hleft]
      refine ⟨u.limitActive, u.limitEndtime, _, rfl, .inr ⟨rfl, hend, by omega, _, rfl, ?_⟩, id⟩
      dsimp only
      omega
  · rw [if_neg hend]
    exact ⟨u.limitActive, u.limitEndtime, none, rfl, .inl ⟨not_not.mp hend, rfl⟩, id⟩

variable (write : LimitWrite)

/-- A write without duration keeps the end time at most, and only before it. -/
theorem newActiveEndtime_endtime (hduration : write.duration = none)
    (hend : (newActiveEndtime now write u).2 ≠ 0) :
    (newActiveEndtime now write u).2 = u.limitEndtime ∧ now < u.limitEndtime ∧
      u.limitEndtime ≠ 0 ∧ write.deleteDuration = false := by
  rw [newActiveEndtime, hduration] at hend ⊢
  dsimp only at hend ⊢
  split at hend
  · exact absurd rfl hend
  · rename_i hdelete
    rw [if_neg hdelete]
    by_cases hleft : 0 < secondsLeft now u.limitEndtime
    · rw [if_pos hleft] at hend ⊢
      refine ⟨rfl, ?_, hend, Bool.eq_false_iff.mpr hdelete⟩
      by_contra hpast
      rw [secondsLeft, if_neg hend, if_pos (by omega)] at hleft
      exact absurd hleft (lt_irrefl 0)
    · exact absurd (if_neg hleft) hend

/-- A write without duration takes over the active flag. -/
theorem newActiveEndtime_active (h : (newActiveEndtime now write u).1 = true)
    (hduration : write.duration = none) : write.active.getD u.limitActive = true := by
  rw [newActiveEndtime, hduration] at h
  dsimp only at h
  split at h <;> exact h

theorem updateLimit_advance :
    u.Advance now (.write write) (u.updateLimit now write).1 (u.updateLimit now write).2 := by
  rw [updateLimit]
  by_cases hrefused : (!u.isControlled && !u.heartbeatInWriteWindow now) = true
  · rw [if_pos hrefused]
    exact .nothing _
  · rw [if_neg hrefused]
    have heval : u.Evaluates now := by
      rw [Evaluates]
      cases hc : u.isControlled with
      | true => exact .inl rfl
      | false =>
        cases hw : u.heartbeatInWriteWindow now with
        | true => exact .inr rfl
        | false => rw [hc, hw] at hrefused; exact absurd rfl hrefused
    by_cases hrange : (!validLimit u.limitIsPositive (write.valueW.getD u.configuredLimit)) = true
    · rw [if_pos hrange]
      by_cases hc : (!u.isControlled) = true
      · rw [if_pos hc]
        exact .outOfRange write heval (by simpa [OutOfRange] using hrange)
      · rw [if_neg hc]
        exact .nothing _
    · rw [if_neg hrange]
      obtain ⟨active, endtime, timer, heq, hends, hactive⟩ := startLimitEndtimeTimer_eq now
        { u with
          limitActive := (newActiveEndtime now write u).1
          configuredLimit := write.valueW.getD u.configuredLimit
          limitEndtime := (newActiveEndtime now write u).2 }
      rw [heq]
      cases active with
      | true =>
        exact .limit write heval endtime timer hends fun hduration =>
          newActiveEndtime_active write (hactive rfl) hduration
      | false => exact .unlimit write heval endtime timer hends

theorem updateFailsafe_advance (powerLimitW duration : Option ℤ) :
    u.Advance now (.writeFailsafe powerLimitW duration) (u.updateFailsafe powerLimitW duration).1
      (u.updateFailsafe powerLimitW duration).2 := by
  rw [updateFailsafe]
  by_cases hc : (!u.isControlled) = true
  · rw [if_pos hc]
    exact .nothing _
  · rw [if_neg hc]
    have hcontrolled : u.isControlled = true := by simpa using hc
    split
    · exact .nothing _
    · split
      · exact .failsafe _ _ hcontrolled u.failsafePowerLimitW u.failsafePowerWritten _ false
      · split
        · exact .nothing _
        · exact .failsafe _ _ hcontrolled _ _ _ true

theorem updateConstraints_advance (powerMax powerContractMax : ℤ) :
    u.Advance now (.constraints powerMax powerContractMax)
      (u.updateConstraints powerMax powerContractMax) false := by
  rw [updateConstraints]
  dsimp only
  split
  · exact .nothing _
  · split
    · have hfollow (v : LoadPowerLimit) (power : ℤ) :
          (if v.state = .init ∨ v.state = .failsafe then
            { v with failsafePowerLimitW := power, currentActiveLimitW := power }
          else { v with failsafePowerLimitW := power }) = v.followNominal power := by
        rw [followNominal]
        split <;> rfl
      rw [hfollow { u with
        powerMaxW := max powerMax 0, powerContractMaxW := max powerContractMax 0 }]
      exact .nominal _ _ _ _ _
    · exact .constraints _ _ _ _

/-- An event does nothing else. -/
theorem handle_advance (now : ℤ) (u : LoadPowerLimit) (event : LimitEvent) :
    u.Advance now event (u.handle now event).1 (u.handle now event).2 := by
  cases event with
  | start =>
    rcases due_cases now u.startTask (·.start now) u with heq | ⟨deadline, htask, -, heq⟩
    · rw [handle, heq]
      exact .nothing _
    · rw [handle, heq]
      exact .start (by rw [htask]; rfl)
  | heartbeat boundDevice sourceDevice =>
    rw [handle]
    by_cases hregistered : u.registered = true
    · rw [if_pos hregistered, receiveHeartbeat]
      split
      · exact .nothing _
      · exact .heartbeat _ _ hregistered
    · rw [if_neg hregistered]
      exact .nothing _
  | write write => exact updateLimit_advance write
  | writeFailsafe powerLimitW duration => exact updateFailsafe_advance powerLimitW duration
  | constraints powerMax powerContractMax => exact updateConstraints_advance _ _
  | limitEndtimeTimer =>
    rcases due_cases now u.limitEndtimeTimer (·.limitDurationExpired) u with
      heq | ⟨deadline, -, -, heq⟩
    · rw [handle, heq]
      exact .nothing _
    · rw [handle, heq]
      rw [limitDurationExpired]
      by_cases hlimited : u.state = .limited
      · rw [if_pos hlimited]
        exact .limitEnded hlimited
      · rw [if_neg hlimited]
        exact .limitForgotten hlimited
  | failsafeExpiryTimer =>
    rcases due_cases now u.failsafeExpiryTimer (·.failsafeExpired) u with
      heq | ⟨deadline, htimer, hdue, heq⟩
    · rw [handle, heq]
      exact .nothing _
    · rw [handle, heq]
      rw [failsafeExpired]
      by_cases hfailsafe : u.state = .failsafe
      · rw [if_pos hfailsafe]
        exact .failsafeEnded deadline htimer hdue hfailsafe
      · rw [if_neg hfailsafe]
        exact .failsafeForgotten hfailsafe
  | initTimer =>
    rcases due_cases now u.initTimer (·.initTimedOut) u with heq | ⟨deadline, -, -, heq⟩
    · rw [handle, heq]
      exact .nothing _
    · rw [handle, heq]
      rw [initTimedOut]
      by_cases hinit : u.state = .init
      · rw [if_pos hinit]
        exact .initEnded hinit
      · rw [if_neg hinit]
        exact .initForgotten hinit
  | heartbeatTimeoutTimer =>
    rcases due_cases now u.heartbeatTimeoutTimer (·.heartbeatTimedOut now) u with
      heq | ⟨deadline, htimer, hdue, heq⟩
    · rw [handle, heq]
      exact .nothing _
    · rw [handle, heq]
      rw [heartbeatTimedOut]
      by_cases hcontrolled : u.isControlled = true
      · have hcontrolled' :
            { u with heartbeatTimeoutTimer := none }.isControlled = true := hcontrolled
        rw [if_pos hcontrolled']
        exact .heartbeatLost deadline htimer hdue hcontrolled
      · have hcontrolled' :
            ¬ { u with heartbeatTimeoutTimer := none }.isControlled = true := hcontrolled
        rw [if_neg hcontrolled']
        exact .heartbeatForgotten deadline htimer hdue (by simpa using hcontrolled)

end

section

variable {now : ℤ} {u u' : LoadPowerLimit} {event : LimitEvent} {accepted : Bool}

theorem LoadPowerLimit.ne_startup_of_isControlled (h : u.isControlled = true) :
    u.state ≠ .startup := by
  intro hstartup
  rw [isControlled, hstartup] at h
  cases h

theorem LoadPowerLimit.Sound.not_starting (h : u.Sound) (hstate : u.state ≠ .startup) :
    ¬ u.startTask.isSome = true :=
  fun hsome => hstate (h.starting hsome).1

/-- Before the first heartbeat nothing is evaluated, and afterwards a timer runs. -/
theorem LoadPowerLimit.Sound.ready (h : u.Sound) (hw : u.HeartbeatWatched now)
    (heval : u.Evaluates now) :
    u.heartbeatTimeoutTimer.isSome = true ∧ u.startTask = none := by
  have hnone (hstart : ¬ u.startTask.isSome = true) : u.startTask = none := by
    simpa using hstart
  rcases heval with hcontrolled | hwindow
  · exact ⟨h.watched hcontrolled, hnone (h.not_starting (ne_startup_of_isControlled hcontrolled))⟩
  · rw [heartbeatInWriteWindow, Bool.and_eq_true, Bool.not_eq_true', decide_eq_true_eq] at hwindow
    obtain ⟨hlast, hdeadline⟩ := hwindow
    have hlt : now < u.lastHeartbeat + seconds heartbeatWriteWindow :=
      Int.not_le.mp (of_decide_eq_false hdeadline)
    refine ⟨?_, hnone fun hsome => hlast (h.unregistered (h.starting hsome).2)⟩
    cases htimer : u.heartbeatTimeoutTimer with
    | some deadline => rfl
    | none =>
      have hpast := hw.outdated hlast htimer
      simp only [seconds, heartbeatTimeout, heartbeatWriteWindow] at hpast hlt
      omega

theorem LoadPowerLimit.Advance.sound (h : u.Sound) (hw : u.HeartbeatWatched now)
    (hadvance : u.Advance now event u' accepted) : u'.Sound := by
  cases hadvance with
  | nothing => exact h
  | start hdue =>
    exact ⟨by simp [LoadPowerLimit.start, initState], rfl, Bool.noConfusion, Bool.noConfusion,
      Bool.noConfusion⟩
  | heartbeat _ _ hregistered =>
    refine ⟨h.active, h.effective, fun _ => rfl, h.starting, ?_⟩
    intro hunregistered
    rw [hregistered] at hunregistered
    cases hunregistered
  | outOfRange write heval hrange =>
    obtain ⟨htimer, hstart⟩ := h.ready hw heval
    exact ⟨by simp [unlimitedControlledState], rfl, fun _ => htimer,
      by simp [unlimitedControlledState, hstart], h.unregistered⟩
  | limit write heval endtime timer hends hactive =>
    obtain ⟨htimer, hstart⟩ := h.ready hw heval
    exact ⟨by simp [limitedState], rfl, fun _ => htimer,
      by simp [limitedState, setLimit, hstart], h.unregistered⟩
  | unlimit write heval endtime timer =>
    obtain ⟨htimer, hstart⟩ := h.ready hw heval
    exact ⟨by simp [unlimitedControlledState], rfl, fun _ => htimer,
      by simp [unlimitedControlledState, setLimit, hstart], h.unregistered⟩
  | failsafe _ _ hcontrolled power written duration accepted =>
    refine ⟨h.active, ?_, h.watched, h.starting, h.unregistered⟩
    have heffective := h.effective
    rw [isControlled, Bool.or_eq_true, beq_iff_eq, beq_iff_eq] at hcontrolled
    simp only [stateLimit, setFailsafe] at heffective ⊢
    rcases hcontrolled with hstate | hstate <;> simpa [hstate] using heffective
  | constraints | failsafeForgotten | initForgotten =>
    exact ⟨h.active, h.effective, h.watched, h.starting, h.unregistered⟩
  | nominal _ _ newMax newContractMax power =>
    refine ⟨h.active, ?_, h.watched, h.starting, h.unregistered⟩
    have heffective := h.effective
    simp only [followNominal, stateLimit] at heffective ⊢
    by_cases hfollows : u.state = .init ∨ u.state = .failsafe
    · rw [if_pos hfollows]
      rcases hfollows with hstate | hstate <;> rw [hstate]
    · rw [if_neg hfollows, heffective]
      rw [not_or] at hfollows
      cases hstate : u.state with
      | init => exact absurd hstate hfollows.1
      | failsafe => exact absurd hstate hfollows.2
      | _ => rfl
  | limitEnded hlimited =>
    have hcontrolled : u.isControlled = true := by rw [isControlled, hlimited]; rfl
    have hstart := h.not_starting (by rw [hlimited]; exact LoadcontrolState.noConfusion)
    exact ⟨by simp [unlimitedControlledState], rfl, fun _ => h.watched hcontrolled,
      fun hsome => absurd hsome hstart, h.unregistered⟩
  | limitForgotten hlimited =>
    refine ⟨by simp [setLimit, hlimited], h.effective, h.watched, h.starting, h.unregistered⟩
  | failsafeEnded deadline htimer hdue hfailsafe =>
    have hstart := h.not_starting (by rw [hfailsafe]; exact LoadcontrolState.noConfusion)
    exact ⟨by simp [unlimitedAutonomousState], rfl, Bool.noConfusion,
      fun hsome => absurd hsome hstart, h.unregistered⟩
  | initEnded hinit =>
    have hstart := h.not_starting (by rw [hinit]; exact LoadcontrolState.noConfusion)
    exact ⟨by simp [unlimitedAutonomousState], rfl, Bool.noConfusion,
      fun hsome => absurd hsome hstart, h.unregistered⟩
  | heartbeatLost deadline htimer hdue hcontrolled =>
    have hstart := h.not_starting (ne_startup_of_isControlled hcontrolled)
    exact ⟨by simp [failsafeState], rfl, Bool.noConfusion,
      fun hsome => absurd hsome hstart, h.unregistered⟩
  | heartbeatForgotten deadline htimer hdue hcontrolled =>
    refine ⟨h.active, h.effective, ?_, h.starting, h.unregistered⟩
    intro hcontrolled'
    change u.isControlled = true at hcontrolled'
    rw [hcontrolled] at hcontrolled'
    cases hcontrolled'

theorem LoadPowerLimit.HeartbeatWatched.mono {before : ℤ} (h : u.HeartbeatWatched before)
    (hle : before ≤ now) : u.HeartbeatWatched now :=
  ⟨h.deadline, fun hlast htimer => Int.le_trans (h.outdated hlast htimer) hle⟩

theorem LoadPowerLimit.Advance.watched (h : u.HeartbeatWatched now)
    (hadvance : u.Advance now event u' accepted) : u'.HeartbeatWatched now := by
  cases hadvance with
  | heartbeat =>
    refine ⟨?_, ?_⟩
    · intro d hd
      exact (Option.some.inj hd).symm
    · intro _ hnone
      cases hnone
  | heartbeatLost deadline htimer hdue hcontrolled
  | heartbeatForgotten deadline htimer hdue hcontrolled =>
    refine ⟨?_, fun _ _ => h.deadline deadline htimer ▸ hdue⟩
    intro d hd
    cases hd
  | _ => exact ⟨h.deadline, h.outdated⟩

/-- The failsafe state is kept with its timer, or entered with a new one. -/
theorem LoadPowerLimit.Advance.failsafe_state (hadvance : u.Advance now event u' accepted)
    (hafter : u'.state = .failsafe) :
    u.state = .failsafe ∧ u'.failsafeExpiryTimer = u.failsafeExpiryTimer ∧
        u'.failsafeDuration = u.failsafeDuration ∨
      u.state ≠ .failsafe ∧ u'.failsafeExpiryTimer = some (now + seconds u'.failsafeDuration) := by
  cases hadvance with
  | failsafe _ _ hcontrolled power written duration accepted =>
    change u.state = .failsafe at hafter
    rw [isControlled, hafter] at hcontrolled
    cases hcontrolled
  | failsafeForgotten hstate => exact absurd hafter hstate
  | heartbeatLost deadline htimer hdue hcontrolled =>
    refine .inr ⟨?_, rfl⟩
    intro hstate
    rw [isControlled, hstate] at hcontrolled
    cases hcontrolled
  | start | outOfRange | limit | unlimit | limitEnded | failsafeEnded | initEnded => cases hafter
  | _ => exact .inl ⟨hafter, rfl, rfl⟩

/-- The failsafe state is left by a write that is evaluated, or when its timer has run out. -/
theorem LoadPowerLimit.Advance.leaves_failsafe (h : u.Sound)
    (hadvance : u.Advance now event u' accepted) (hbefore : u.state = .failsafe)
    (hafter : u'.state ≠ .failsafe) :
    (∃ write, event = .write write ∧ u.heartbeatInWriteWindow now = true ∧
        (accepted = true ∨ u.OutOfRange write ∧ u'.state = .unlimitedControlled)) ∨
      ∃ deadline, u.failsafeExpiryTimer = some deadline ∧ deadline ≤ now ∧
        u'.state = .unlimitedAutonomous := by
  have hwindow (heval : u.Evaluates now) : u.heartbeatInWriteWindow now = true := by
    apply heval.resolve_left
    rw [isControlled, hbefore]
    exact Bool.noConfusion
  cases hadvance with
  | start hdue =>
    have := (h.starting hdue).1
    rw [hbefore] at this
    cases this
  | outOfRange write heval hrange => exact .inl ⟨write, rfl, hwindow heval, .inr ⟨hrange, rfl⟩⟩
  | limit write heval | unlimit write heval => exact .inl ⟨write, rfl, hwindow heval, .inl rfl⟩
  | failsafeEnded deadline htimer hdue => exact .inr ⟨deadline, htimer, hdue, rfl⟩
  | limitEnded hstate | initEnded hstate => rw [hbefore] at hstate; cases hstate
  | heartbeatLost => exact absurd rfl hafter
  | _ => exact absurd hbefore hafter

/-- A write without active flag and duration does not activate a limit. -/
theorem LoadPowerLimit.Advance.inactive {write : LimitWrite}
    (hadvance : u.Advance now (.write write) u' accepted) (hactive : write.active = none)
    (hduration : write.duration = none) (hinactive : u.limitActive = false) :
    u'.limitActive = false := by
  cases hadvance with
  | nothing => exact hinactive
  | outOfRange | unlimit => rfl
  | limit _ _ endtime timer _ h =>
    have := h hduration
    rw [hactive, Option.getD_none, hinactive] at this
    cases this

theorem LoadPowerLimit.Advance.acceptedLimit {h : LimitHistory}
    (hadvance : u.Advance now event u' accepted) (hlimit : u.configuredLimit = h.acceptedLimit) :
    u'.configuredLimit = (h.record now event u.state u'.state accepted).acceptedLimit := by
  have hkept (before after : LoadcontrolState) :
      u.configuredLimit = (h.enter now before after).acceptedLimit :=
    hlimit.trans (h.enter_acceptedLimit before after).symm
  cases hadvance with
  | nothing event => cases event <;> exact hkept _ _
  | outOfRange => exact hkept u.state .unlimitedControlled
  | limit write | unlimit write =>
    change write.valueW.getD u.configuredLimit = write.valueW.getD _
    rw [← hkept]
  | _ => exact hkept _ _

end

namespace LimitSystem

/-- The end time of the use case is the one of the history, unless there is none any more. -/
def Ends (h : LimitHistory) (endtime : ℤ) (timer : Option ℤ) : Prop :=
  endtime = 0 ∧ timer = none ∨ h.limitEnd = some endtime ∧ ∃ d, timer = some d ∧ d ≤ endtime

/-- What every run keeps. -/
structure Consistent (s : LimitSystem) : Prop where
  sound : s.usecase.Sound
  watched : s.usecase.HeartbeatWatched s.now
  failsafe : s.usecase.state = .failsafe → s.usecase.failsafeExpiryTimer =
      some (s.history.failsafeSince + seconds s.usecase.failsafeDuration)
  accepted : s.usecase.configuredLimit = s.history.acceptedLimit
  ends : Ends s.history s.usecase.limitEndtime s.usecase.limitEndtimeTimer

variable {s : LimitSystem}

theorem advance (s : LimitSystem) (l : Label) :
    s.usecase.Advance (s.now + l.1) l.2 (s.step l).usecase (s.accepts l) :=
  handle_advance _ _ _

section

variable {now : ℤ} {u u' : LoadPowerLimit} {event : LimitEvent} {accepted : Bool} {h : LimitHistory}
  {endtime : ℤ} {timer : Option ℤ}

theorem Ends.enter (hends : Ends h endtime timer) (before after : LoadcontrolState) :
    Ends (h.enter now before after) endtime timer := by
  rw [LimitHistory.enter]
  split <;> exact hends

/-- The history takes the end time of an accepted write. -/
theorem Ends.accept {write : LimitWrite} (hends : Ends h u.limitEndtime u.limitEndtimeTimer)
    (hend : EndsAt now (newActiveEndtime now write u).2 endtime timer) :
    Ends (h.accept now write) endtime timer := by
  obtain hnone | ⟨rfl, hne, hlater, htimer⟩ := hend
  · exact .inl hnone
  · refine .inr ⟨?_, htimer⟩
    rw [LimitHistory.accept]
    dsimp only
    cases hduration : write.duration with
    | some duration =>
      rw [newActiveEndtime, hduration] at hne ⊢
      dsimp only at hne ⊢
      split at hne
      · exact absurd rfl hne
      · rename_i hpos
        rw [if_neg hpos, max_eq_left (by omega)]
    | none =>
      obtain ⟨heq, hlt, hend, hdelete⟩ := newActiveEndtime_endtime write hduration hne
      obtain ⟨hzero, -⟩ | ⟨hhistory, -⟩ := hends
      · exact absurd hzero hend
      · have helapsed : h.elapsed now = false := by
          rw [LimitHistory.elapsed, hhistory]
          exact decide_eq_false (by omega)
        rw [heq, helapsed, hdelete]
        exact hhistory

theorem Ends.advance (hadvance : u.Advance now event u' accepted)
    (hends : Ends h u.limitEndtime u.limitEndtimeTimer) :
    Ends (h.record now event u.state u'.state accepted) u'.limitEndtime u'.limitEndtimeTimer := by
  have hentered (after : LoadcontrolState) := @Ends.enter now h _ _ hends u.state after
  cases hadvance with
  | nothing event => cases event <;> exact hentered _
  | limit write heval endtime timer hend | unlimit write heval endtime timer hend =>
    exact (hentered _).accept hend
  | limitEnded | limitForgotten => exact .inl ⟨rfl, rfl⟩
  | outOfRange => exact hentered .unlimitedControlled
  | _ => exact hentered _

/-- An accepted write without duration drops an end time that has elapsed. -/
theorem Ends.dropped {write : LimitWrite} (hends : Ends h u.limitEndtime u.limitEndtimeTimer)
    (hadvance : u.Advance now (.write write) u' true) (hduration : write.duration = none)
    (helapsed : h.elapsed now = true) : u'.limitEndtime = 0 := by
  cases hadvance with
  | limit _ heval endtime timer hend | unlimit _ heval endtime timer hend =>
    obtain ⟨hzero, -⟩ | ⟨rfl, hne, -⟩ := hend
    · exact hzero
    · obtain ⟨-, hlt, hend, -⟩ := newActiveEndtime_endtime write hduration hne
      obtain ⟨hzero, -⟩ | ⟨hhistory, -⟩ := hends
      · exact absurd hzero hend
      · rw [LimitHistory.elapsed, hhistory] at helapsed
        exact absurd (of_decide_eq_true helapsed) (Int.not_le.mpr hlt)

end

theorem Consistent.watched_later (h : s.Consistent) (l : Label) :
    s.usecase.HeartbeatWatched (s.now + l.1) :=
  h.watched.mono (by omega)

theorem Consistent.step (h : s.Consistent) (l : Label) : (s.step l).Consistent := by
  have hadvance := s.advance l
  refine ⟨hadvance.sound h.sound (h.watched_later l), hadvance.watched (h.watched_later l), ?_,
    hadvance.acceptedLimit h.accepted, Ends.advance hadvance h.ends⟩
  intro hafter
  change _ = some ((s.history.record _ _ _ (s.step l).usecase.state _).failsafeSince + _)
  rw [LimitHistory.record_failsafeSince]
  rcases hadvance.failsafe_state hafter with ⟨hbefore, htimer, hduration⟩ | ⟨hbefore, htimer⟩
  · rw [if_neg fun hentered => hentered.2 hbefore, htimer, hduration]
    exact h.failsafe hbefore
  · rw [if_pos ⟨hafter, hbefore⟩, htimer]

theorem consistent_initial (now : ℤ) (limitIsPositive : Bool) (persisted : PersistedFailsafe) :
    (initial now limitIsPositive persisted).Consistent := by
  have hcreate : ∃ power written duration, create now limitIsPositive persisted =
      LoadPowerLimit.setFailsafe
        { limitIsPositive := limitIsPositive, startTask := some (now + seconds 1) }
        power written duration := by
    rw [create, loadPersistedFailsafe]
    split <;> split <;> exact ⟨_, _, _, rfl⟩
  obtain ⟨power, written, duration, hcreate⟩ := hcreate
  rw [initial, hcreate]
  refine ⟨⟨by simp [setFailsafe], rfl, Bool.noConfusion, fun _ => ⟨rfl, rfl⟩, fun _ => rfl⟩,
    ⟨?_, fun hlast => absurd rfl hlast⟩, ?_, rfl, .inl ⟨rfl, rfl⟩⟩
  · intro d hd
    cases hd
  · intro hfailsafe
    cases hfailsafe

/-- The limit is active exactly in the limited state, the state decides which limit applies, and
an Energy Guard in control is alive or about to be given up. -/
structure Lawful (s : LimitSystem) : Prop where
  active : s.usecase.limitActive = true ↔ s.usecase.state = .limited
  effective : s.usecase.currentActiveLimitW =
    match s.usecase.state with
    | .limited => s.history.acceptedLimit
    | .init | .failsafe => s.usecase.failsafePowerLimitW
    | .startup | .unlimitedControlled | .unlimitedAutonomous => initialActivePowerConsumption
  watched : s.usecase.state = .limited ∨ s.usecase.state = .unlimitedControlled →
    s.usecase.lastHeartbeat ≠ 0 ∧ s.now ≤ s.usecase.lastHeartbeat + seconds 120 ∨
      s.usecase.heartbeatTimeoutTimer.isSome = true

/-- The failsafe state is only left by a write that is accepted, by one that is evaluated and out
of range, or after its duration. Once the duration of the limit has elapsed, the task of its timer
deactivates it, and no write without active flag and duration activates it again or keeps its end
time. -/
structure LawfulStep (s : LimitSystem) (l : Label) : Prop where
  failsafe : s.usecase.state = .failsafe → (s.step l).usecase.state ≠ .failsafe →
    (∃ write, l.2 = .write write ∧ s.usecase.heartbeatInWriteWindow (s.step l).now = true ∧
        (s.accepts l = true ∨
          s.usecase.OutOfRange write ∧ (s.step l).usecase.state = .unlimitedControlled)) ∨
      s.history.failsafeSince + seconds s.usecase.failsafeDuration ≤ (s.step l).now
  expired : l.2 = .limitEndtimeTimer → s.usecase.limitEndtimeTimer.isSome = true →
    s.history.elapsed (s.step l).now = true → (s.step l).usecase.limitActive = false
  ended : ∀ write, l.2 = .write write → write.active = none → write.duration = none →
    s.history.elapsed (s.step l).now = true → s.usecase.limitActive = false →
      (s.step l).usecase.limitActive = false ∧
        (s.accepts l = true → (s.step l).usecase.limitEndtime = 0)

theorem Consistent.lawful (h : s.Consistent) : s.Lawful := by
  refine ⟨h.sound.active, ?_, ?_⟩
  · rw [← h.accepted]
    exact h.sound.effective
  · intro hstate
    right
    apply h.sound.watched
    rw [isControlled]
    rcases hstate with hstate | hstate <;> rw [hstate] <;> rfl

theorem Consistent.lawfulStep (h : s.Consistent) (l : Label) : s.LawfulStep l := by
  have hadvance := s.advance l
  refine ⟨?_, ?_, ?_⟩
  · intro hbefore hafter
    rcases hadvance.leaves_failsafe h.sound hbefore hafter with
      hwrite | ⟨deadline, htimer, hdue, -⟩
    · exact .inl hwrite
    · right
      rw [h.failsafe hbefore] at htimer
      exact (Option.some.inj htimer).symm ▸ hdue
  · intro hevent hsome helapsed
    obtain ⟨-, hnone⟩ | ⟨hhistory, deadline, htimer, hle⟩ := h.ends
    · rw [hnone] at hsome
      cases hsome
    · rw [LimitHistory.elapsed, hhistory] at helapsed
      have hdue : deadline ≤ s.now + l.1 := hle.trans (of_decide_eq_true helapsed)
      have hrun : (s.step l).usecase = s.usecase.limitDurationExpired := by
        change (s.usecase.handle (s.now + l.1) l.2).1 = _
        rw [hevent, handle, htimer]
        exact if_pos (decide_eq_true hdue)
      rw [hrun, limitDurationExpired]
      dsimp only
      split <;> rfl
  · intro write hwrite hactive hduration helapsed hinactive
    rw [hwrite] at hadvance
    have hstays := hadvance.inactive hactive hduration hinactive
    refine ⟨hstays, fun haccepts => ?_⟩
    rw [haccepts] at hadvance
    exact h.ends.dropped hadvance hduration helapsed

/-- Every state that is reached is lawful, and so is every step from it. -/
theorem limit_lawful (now : ℤ) (limitIsPositive : Bool) (persisted : PersistedFailsafe)
    (labels : List Label) :
    (run step (initial now limitIsPositive persisted) labels).Lawful ∧
      ∀ l, (run step (initial now limitIsPositive persisted) labels).LawfulStep l := by
  have h := run_invariant (I := Consistent) (fun s l h => h.step l)
    (consistent_initial now limitIsPositive persisted) labels
  exact ⟨h.lawful, h.lawfulStep⟩

/-- A consumption limit is active, with a duration of a minute. -/
def underControl : LimitSystem :=
  run step (initial 0 true ⟨false, 0, 0⟩)
    [(1000000, .start), (0, .heartbeat "" none),
      (0, .write { active := some true, valueW := some 5000, duration := some 60 })]

/-- The Energy Guard of the limit was lost and is back. -/
def guardBack : LimitSystem :=
  run step underControl [(120000000, .heartbeatTimeoutTimer), (0, .heartbeat "" none)]

def outOfRangeWrite : Label := (1000000, .write { valueW := some (-1) })

/-- A minute after the limit was written, before the task of its timer runs. -/
def lateWrite : Label := (60000000, .write { valueW := some 6000 })

/-- A write that is rejected ends the failsafe state long before its duration is over, and a limit
that has ended stays active through a write that comes before the task of its timer. -/
theorem failsafe_left_by_rejected_write :
    (guardBack.usecase.state = .failsafe ∧ guardBack.accepts outOfRangeWrite = false ∧
      (guardBack.step outOfRangeWrite).usecase.state ≠ .failsafe ∧
      (guardBack.step outOfRangeWrite).now <
        guardBack.history.failsafeSince + seconds guardBack.usecase.failsafeDuration) ∧
    underControl.history.elapsed (underControl.step lateWrite).now = true ∧
      (underControl.step lateWrite).usecase.limitActive = true := by
  decide

end LimitSystem

end Esp32Firmware.Eebus
