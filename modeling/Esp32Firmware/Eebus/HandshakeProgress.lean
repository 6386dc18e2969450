import Esp32Firmware.Eebus.TrustGate

/-!
# Progress of the SHIP handshake

From every state of the handshake something goes on without the peer: a scheduled step, or a
timeout that ends in an abort. The exception is a server that accepts the selected version, as it
enters the next state without scheduling its step.
-/

namespace Esp32Firmware.Eebus

open ShipConnection

/-- A timeout is armed after which the connection is closed if nothing else happens. -/
def ShipTasks.abortArmed (t : ShipTasks) : Bool :=
  t.timeoutTask || t.helloWaitForReadyTimer.isSome || t.helloSendProlongationReplyTimer ||
    t.protocolHandshakeTimer

/-- The connection goes on without the peer, is done or waits for the approval of the user. -/
def ShipConnection.NotStuck (s : ShipConnection) : Prop :=
  s.connected = true → s.state ≠ .done → s.state ≠ .smeHelloPendingListen →
    s.closingScheduled = true ∨ s.tasks.stateMachineTask = true ∨ s.tasks.abortArmed = true

/-- The incoming message selects the version that the server selected. -/
def ShipConnection.Confirms (env : ShipEnvironment) (s : ShipConnection) : Prop :=
  s.messageIncoming.handshake env.json = some ⟨.select, s.protocolHandshakeVersionSelected⟩

/-- The timers of the hello that end in an abort. -/
def ShipTasks.helloArmed (t : ShipTasks) : Bool :=
  t.helloWaitForReadyTimer.isSome || t.helloSendProlongationReplyTimer

/-- A frame completes the confirmation that the server waits for, and nothing else goes on. -/
def ShipConnection.ConfirmsUnscheduled (env : ShipEnvironment) (s : ShipConnection) :
    Event → Prop
  | .frame data fin =>
    s.connected = true ∧ s.closingScheduled = false ∧
      s.state = .smeProtocolHandshakeServerListenConfirm ∧
      s.tasks.stateMachineTask = false ∧ s.tasks.helloArmed = false ∧ 2 ≤ data.length ∧
      (s.messageIncoming.append data fin).2 = true ∧
      Confirms env { s with messageIncoming := (s.messageIncoming.append data fin).1 }
  | _ => False

inductive Continuation where
  | free
  | step
  | cmiTimeout
  | helloTimer
  | handshakeTimeout
deriving DecidableEq, Repr

def ShipConnectionState.continuation : ShipConnectionState → Continuation
  | .done | .smeHelloPendingListen => .free
  | .cmiClientWait | .cmiServerWait => .cmiTimeout
  | .cmiClientEvaluate
  | .cmiServerEvaluate
  | .smeHelloReadyListen
  | .smeAccessMethodRequest => .helloTimer
  | .smeProtocolHandshakeServerListenProposal
  | .smeProtocolHandshakeServerListenConfirm
  | .smeProtocolHandshakeClientListenChoice => .handshakeTimeout
  | _ => .step

/-- The states of the mode initialisation that need a message. -/
def ShipConnectionState.isInitialisation : ShipConnectionState → Bool
  | .cmiClientWait | .cmiServerWait | .cmiClientEvaluate | .cmiServerEvaluate => true
  | _ => false

/-- The states whose handlers lead to them. -/
def ShipConnectionState.leadsToInitialisation : ShipConnectionState → Bool
  | .cmiInitStart | .cmiClientSend | .cmiClientWait | .cmiServerWait => true
  | _ => false

/-- A state that waits for the first message must not be stepped without it. -/
def Continues (t : ShipTasks) (st : ShipConnectionState) : Prop :=
  match st.continuation with
  | .free => True
  | .step => t.stateMachineTask = true
  | .cmiTimeout => t.timeoutTask = true ∧ t.stateMachineTask = false
  | .helloTimer => False
  | .handshakeTimeout => t.protocolHandshakeTimer = true

theorem continues_of_step {t : ShipTasks} {st : ShipConnectionState}
    (hst : st.continuation = .step) : Continues t st ↔ t.stateMachineTask = true := by
  rw [Continues, hst]

/-- The connection goes on whatever its state is. -/
def ShipConnection.Lasts (s : ShipConnection) : Prop :=
  s.closingScheduled = true ∨ s.tasks.helloArmed = true

def ShipConnection.Live (s : ShipConnection) : Prop := s.Lasts ∨ Continues s.tasks s.state

namespace ShipConnection

variable {env : ShipEnvironment} {s : ShipConnection} {st : ShipConnectionState}

theorem Lasts.live (h : s.Lasts) : s.Live := .inl h

theorem setState_tasks (st : ShipConnectionState) (s : ShipConnection) :
    (s.setState st).tasks = s.tasks := by
  rw [setState]
  split <;> rfl

theorem setState_closingScheduled (st : ShipConnectionState) (s : ShipConnection) :
    (s.setState st).closingScheduled = s.closingScheduled := by
  rw [setState]
  split <;> rfl

theorem scheduleClose_closingScheduled (s : ShipConnection) :
    s.scheduleClose.closingScheduled = true := by
  rw [scheduleClose]
  split
  · assumption
  · rfl

theorem scheduleClose_lasts (s : ShipConnection) : s.scheduleClose.Lasts :=
  .inl (scheduleClose_closingScheduled s)

theorem Lasts.setState (h : s.Lasts) : (s.setState st).Lasts := by
  rw [Lasts, setState_tasks, setState_closingScheduled]
  exact h

theorem Lasts.setAndScheduleState (h : s.Lasts) : (s.setAndScheduleState st).Lasts := by
  have hset : (s.setState st).Lasts := h.setState
  rw [ShipConnection.setAndScheduleState, scheduleStateMachineNextStep]
  split <;> exact hset

theorem Lasts.sendRaw (h : s.Lasts) : (s.sendRaw env).Lasts := by
  rw [ShipConnection.sendRaw.eq_def]
  split
  · split
    · exact h
    · exact scheduleClose_lasts _
  · exact h

theorem Live.sendRaw (h : s.Live) : (s.sendRaw env).Live := by
  rw [ShipConnection.sendRaw.eq_def]
  split
  · split
    · exact h
    · exact (scheduleClose_lasts _).live
  · exact h

/-- The step of the state is scheduled, or the connection closes. -/
theorem setAndScheduleState_continues (s : ShipConnection) (hst : st.continuation = .step) :
    (s.setAndScheduleState st).Lasts ∨
      Continues (s.setAndScheduleState st).tasks (s.setAndScheduleState st).state := by
  rw [setAndScheduleState_state, continues_of_step hst, setAndScheduleState,
    scheduleStateMachineNextStep]
  split
  · exact .inl (.inl ‹_›)
  · exact .inr rfl

theorem setAndScheduleState_live (s : ShipConnection) (hst : st.continuation = .step) :
    (s.setAndScheduleState st).Live :=
  setAndScheduleState_continues s hst

theorem smeProtocolAbortProcedure_lasts (s : ShipConnection) :
    (s.smeProtocolAbortProcedure env).Lasts :=
  scheduleClose_lasts _

/-- What the handler of a state that does not listen leaves. -/
def Advances (before : ShipConnectionState) (s : ShipConnection) : Prop :=
  s.Lasts ∨
    (Continues s.tasks s.state ∧ s.state ≠ .smeProtocolHandshakeServerListenConfirm) ∨
    (before.leadsToInitialisation = true ∧ s.state.isInitialisation = true)

variable {before : ShipConnectionState}

theorem setAndScheduleState_advances (s : ShipConnection) (hst : st.continuation = .step) :
    (s.setAndScheduleState st).Advances before := by
  rcases setAndScheduleState_continues s hst with h | h
  · exact .inl h
  · refine .inr (.inl ⟨h, ?_⟩)
    rw [setAndScheduleState_state]
    rintro rfl
    exact Continuation.noConfusion hst

theorem advances_of_isInitialisation (hbefore : before.leadsToInitialisation = true)
    (h : s.state.isInitialisation = true) : s.Advances before :=
  .inr (.inr ⟨hbefore, h⟩)

theorem stateSmeHelloReadyInit_advances (s : ShipConnection) :
    (s.stateSmeHelloReadyInit env).Advances before := by
  rw [stateSmeHelloReadyInit]
  split
  · exact setAndScheduleState_advances _ rfl
  · left
    apply Lasts.setState
    exact Lasts.sendRaw (.inr rfl)

theorem stateSmeHelloPendingTimeout_advances (s : ShipConnection) :
    (s.stateSmeHelloPendingTimeout env).Advances before := by
  rw [stateSmeHelloPendingTimeout]
  split
  · left
    apply Lasts.setState
    exact .inr (Bool.or_true _)
  · exact setAndScheduleState_advances _ rfl

theorem handleState_advances (hlisten : s.state.isListeningState = false) :
    (s.handleState env).Advances s.state := by
  rw [handleState]
  split
  all_goals rename_i hstate
  all_goals rw [hstate] at hlisten ⊢
  case h_1 =>
    rw [stateCmeInitStart.eq_def]
    split
    · exact setAndScheduleState_advances _ rfl
    · apply advances_of_isInitialisation rfl
      exact congrArg _ (setState_state _ _)
  case h_2 =>
    apply advances_of_isInitialisation rfl
    exact congrArg _ (setState_state _ _)
  case h_3 =>
    apply advances_of_isInitialisation rfl
    exact congrArg _ (setAndScheduleState_state _ _)
  case h_5 =>
    apply advances_of_isInitialisation rfl
    exact congrArg _ (setAndScheduleState_state _ _)
  case h_8 =>
    rw [stateSmeHello.eq_def, helloCheckTrustStatus]
    by_cases htrusted : s.peerTrusted = true
    · rw [if_pos htrusted]
      exact setAndScheduleState_advances _ rfl
    · rw [if_neg htrusted]
      exact setAndScheduleState_advances _ rfl
  case h_9 => exact stateSmeHelloReadyInit_advances s
  case h_12 =>
    left
    apply Lasts.setState
    exact Lasts.sendRaw (.inr rfl)
  case h_14 => exact stateSmeHelloPendingTimeout_advances s
  case h_15 =>
    rw [stateSmeHelloOk.eq_def]
    split <;> exact setAndScheduleState_advances _ rfl
  case h_20 =>
    refine .inr (.inl ?_)
    rw [stateSmeProtocolHandshakeServerInit, setState_tasks, setState_state]
    exact ⟨rfl, ShipConnectionState.noConfusion⟩
  case h_21 =>
    refine .inr (.inl ?_)
    have hstate' : (s.stateSmeProtocolHandshakeClientInit env).state =
        .smeProtocolHandshakeClientListenChoice := setState_state _ _
    rw [hstate']
    exact ⟨rfl, ShipConnectionState.noConfusion⟩
  case h_25 => exact .inl (smeProtocolAbortProcedure_lasts s)
  case h_28 =>
    refine .inr (.inl ?_)
    have hstate' : (s.stateSmePinCheckInit env).state = .done :=
      (sendRaw_state _).trans (setState_state _ _)
    rw [hstate']
    exact ⟨trivial, ShipConnectionState.noConfusion⟩
  all_goals first
    | exact Bool.noConfusion hlisten
    | exact setAndScheduleState_advances _ rfl
    | exact .inl (scheduleClose_lasts _)

/-- Only a closing connection stays in a state that does not listen. -/
theorem handleState_leaves (hlisten : s.state.isListeningState = false)
    (hprevious : s.state = .smeHelloPendingTimeout → s.previousState ≠ .smeHelloPendingTimeout) :
    (s.handleState env).closingScheduled = true ∨ (s.handleState env).state ≠ s.state := by
  rw [handleState]
  split
  all_goals rename_i hstate
  all_goals rw [hstate] at hlisten ⊢
  case h_1 =>
    right
    rcases s.stateCmeInitStart_state with h | h <;> rw [h] <;> decide
  case h_8 =>
    right
    rcases s.stateSmeHello_state with h | h <;> rw [h] <;> decide
  case h_9 =>
    right
    rcases stateSmeHelloReadyInit_state env s with h | h <;> rw [h] <;> decide
  case h_14 =>
    right
    rcases stateSmeHelloPendingTimeout_state env s with h | h
    · rw [h]
      exact hprevious hstate
    · rw [h]
      decide
  case h_15 =>
    right
    rcases s.stateSmeHelloOk_state with h | h <;> rw [h] <;> decide
  all_goals first
    | exact Bool.noConfusion hlisten
    | exact .inl (scheduleClose_closingScheduled _)
    | (right
       simp [stateCmiClientSend, stateCmiClientWait, stateCmiServerWait,
        stateSmeConnectionDataPreparation, stateSmeHelloReadyTimeout, stateSmeHelloPendingInit,
        stateSmeHelloAbort, stateSmeHelloRemoteAbortDone, stateSmeHelloRejected,
        stateSmeProtocolHandshakeServerInit, stateSmeProtocolHandshakeClientInit,
        stateSmeProtocolHandshakeClientOk, stateSmeProtocolHandshakeServerOk,
        stateSmePinCheckInit, startHandshakeTimeout])

/-- What a listening state needs when a message is there. -/
structure Held (env : ShipEnvironment) (s : ShipConnection) : Prop where
  helloTimer : s.state = .smeHelloReadyListen ∨ s.state = .smeAccessMethodRequest → s.Lasts
  confirm : s.state = .smeProtocolHandshakeServerListenConfirm → Confirms env s →
    s.Lasts ∨ s.tasks.stateMachineTask = true

theorem live_of_free (h : s.state.continuation = .free) : s.Live := by
  right
  rw [Continues, h]
  trivial

theorem Lasts.jsonToTypeConnectionHello (h : s.Lasts) :
    (s.jsonToTypeConnectionHello env).Lasts := by
  rw [ShipConnection.jsonToTypeConnectionHello]
  split
  · exact h
  · dsimp only
    split <;> exact h

theorem Lasts.helloDecideProlongation (h : s.Lasts) : s.helloDecideProlongation.Lasts := by
  rw [ShipConnection.helloDecideProlongation]
  split
  · split <;> exact .inr rfl
  · exact h

section

variable (s : ShipConnection)

theorem helloDecideProlongation_state : s.helloDecideProlongation.state = s.state := by
  rw [helloDecideProlongation]
  split
  · split <;> rfl
  · rfl

theorem helloArmProlongationRequestTimer_state :
    s.helloArmProlongationRequestTimer.state = s.state := by
  rw [helloArmProlongationRequestTimer]
  split <;> rfl

theorem stateCmiClientEvaluate_live : s.stateCmiClientEvaluate.Live := by
  rw [stateCmiClientEvaluate]
  split
  · exact setAndScheduleState_live _ rfl
  · exact (scheduleClose_lasts _).live

theorem stateCmiServerEvaluate_live : (s.stateCmiServerEvaluate env).Live := by
  rw [stateCmiServerEvaluate]
  split
  · exact (setAndScheduleState_live _ rfl).sendRaw
  · exact (scheduleClose_lasts _).live

end

theorem stateSmeHelloReadyListen_live (h : s.Lasts) : (s.stateSmeHelloReadyListen env).Live := by
  have hread : (s.jsonToTypeConnectionHello env).Lasts := h.jsonToTypeConnectionHello
  rw [stateSmeHelloReadyListen]
  split
  · apply Lasts.live
    apply Lasts.sendRaw
    split
    · exact hread.helloDecideProlongation
    · exact hread
  all_goals exact setAndScheduleState_live _ rfl

theorem stateSmeHelloPendingListen_live (hstate : s.state = .smeHelloPendingListen) :
    (s.stateSmeHelloPendingListen env).Live := by
  have hread : (s.jsonToTypeConnectionHello env).state = .smeHelloPendingListen :=
    (jsonToTypeConnectionHello_state s).trans hstate
  have hfree : ∀ t : ShipConnection, t.state = .smeHelloPendingListen → t.Live := by
    intro t ht
    apply live_of_free
    rw [ht]
    rfl
  rw [stateSmeHelloPendingListen]
  split
  · split
    · exact setAndScheduleState_live _ rfl
    · exact hfree _ ((helloArmProlongationRequestTimer_state _).trans hread)
  · split
    · exact hfree _ ((helloArmProlongationRequestTimer_state _).trans hread)
    · split
      · apply hfree
        exact (helloSendSmeUpdate_state _).trans ((helloDecideProlongation_state _).trans hread)
      · exact hfree _ hread
  all_goals exact setAndScheduleState_live _ rfl

theorem stateSmeProtocolHandshakeServerListenProposal_live (s : ShipConnection) :
    (s.stateSmeProtocolHandshakeServerListenProposal env).Live := by
  rw [stateSmeProtocolHandshakeServerListenProposal.eq_def]
  split
  · exact (smeProtocolAbortProcedure_lasts s).live
  · split
    · right
      rw [Continues, show (startHandshakeTimeout _).state =
        .smeProtocolHandshakeServerListenConfirm from (sendRaw_state _).trans (setState_state _ _)]
      rfl
    all_goals exact (smeProtocolAbortProcedure_lasts s).live

/-- The next state is entered without a step. -/
theorem stateSmeProtocolHandshakeServerListenConfirm_live
    (h : Confirms env s → s.Lasts ∨ s.tasks.stateMachineTask = true) :
    (s.stateSmeProtocolHandshakeServerListenConfirm env).Live := by
  rw [stateSmeProtocolHandshakeServerListenConfirm.eq_def]
  dsimp only
  split
  · exact (smeProtocolAbortProcedure_lasts _).live
  · rename_i handshake hhandshake
    split
    · rename_i hselect
      have hconfirms : Confirms env s := by
        exact hhandshake.trans (congrArg some hselect)
      rcases h hconfirms with hlasts | htask
      · apply Lasts.live
        apply Lasts.setState
        exact hlasts
      · right
        rw [setState_state, setState_tasks]
        exact htask
    · exact (smeProtocolAbortProcedure_lasts _).live

theorem stateSmeProtocolHandshakeClientListenChoice_live (s : ShipConnection) :
    (s.stateSmeProtocolHandshakeClientListenChoice env).Live := by
  rw [stateSmeProtocolHandshakeClientListenChoice.eq_def]
  split
  · exact (smeProtocolAbortProcedure_lasts s).live
  · split
    · dsimp only
      split
      · exact setAndScheduleState_live _ rfl
      · exact (smeProtocolAbortProcedure_lasts _).live
    all_goals exact (smeProtocolAbortProcedure_lasts s).live

theorem stateSmeAccessMethodRequest_live (h : s.Lasts) :
    (s.stateSmeAccessMethodRequest env).Live := by
  rw [stateSmeAccessMethodRequest]
  split
  · apply Lasts.live
    apply Lasts.sendRaw
    apply Lasts.setState
    exact h
  · exact h.live

theorem stateDone_live (hstate : s.state = .done) : (s.stateDone env).Live := by
  have hfree : ∀ t : ShipConnection, t.state = .done → t.Live := by
    intro t ht
    apply live_of_free
    rw [ht]
    rfl
  have hsent : (if s.connectionEstablished then s else s.sendRaw env).state = .done := by
    split
    · exact hstate
    · exact (sendRaw_state s).trans hstate
  rw [stateDone]
  generalize (if s.connectionEstablished then s else s.sendRaw env) = t at *
  split
  · exact hfree _ hsent
  · split
    · split <;> exact hfree _ hsent
    · exact setAndScheduleState_live _ rfl
    · exact hfree _ ((sendRaw_state _).trans hsent)
    · exact (scheduleClose_lasts _).live
    all_goals exact hfree _ hsent

theorem handleState_live (hlisten : s.state.isListeningState = true) (h : Held env s) :
    (s.handleState env).Live := by
  rw [handleState]
  split
  all_goals rename_i hstate
  case h_4 => exact stateCmiClientEvaluate_live s
  case h_6 => exact stateCmiServerEvaluate_live s
  case h_10 => exact stateSmeHelloReadyListen_live (h.helloTimer (.inl hstate))
  case h_13 => exact stateSmeHelloPendingListen_live hstate
  case h_22 => exact stateSmeProtocolHandshakeServerListenProposal_live s
  case h_23 => exact stateSmeProtocolHandshakeServerListenConfirm_live (h.confirm hstate)
  case h_24 => exact stateSmeProtocolHandshakeClientListenChoice_live s
  case h_38 => exact stateSmeAccessMethodRequest_live (h.helloTimer (.inr hstate))
  case h_39 => exact stateDone_live hstate
  all_goals
    rw [hstate] at hlisten
    exact Bool.noConfusion hlisten

theorem nextStepPass_of_closing (h : s.closingScheduled = true) :
    s.nextStepPass env = (s, false) := by
  rw [nextStepPass, if_pos h]

theorem nextStepPass_of_listening (hopen : s.closingScheduled = false)
    (hlisten : s.state.isListeningState = true)
    (hread : s.incomingMessagePending = true ∨ s.state = .done) :
    s.nextStepPass env = ({ s.handleState env with incomingMessagePending := false }, false) := by
  rw [nextStepPass, if_neg (by rw [hopen]; exact Bool.false_ne_true), if_neg, if_pos hlisten]
  rintro ⟨-, hnone, hne⟩
  rcases hread with hpending | hdone
  · rw [hpending] at hnone
    exact Bool.false_ne_true hnone
  · exact hne hdone

theorem nextStepPass_of_not_listening (hopen : s.closingScheduled = false)
    (hlisten : s.state.isListeningState = false) :
    s.nextStepPass env = (s.handleState env, (s.handleState env).incomingMessagePending &&
        decide ((s.handleState env).state ≠ s.state)) := by
  have hnot : ¬s.state.isListeningState = true := by
    rw [hlisten]
    exact Bool.false_ne_true
  rw [nextStepPass, if_neg (by rw [hopen]; exact Bool.false_ne_true),
    if_neg fun h => hnot h.1, if_neg hnot]

theorem handleState_incomingMessagePending (s : ShipConnection) :
    (s.handleState env).incomingMessagePending = s.incomingMessagePending :=
  congrArg Prod.snd (handleState_kept s)

theorem Advances.held (h : s.Advances before) : Held env s := by
  rcases h with hlasts | ⟨hcontinues, hne⟩ | ⟨-, hinit⟩
  · exact ⟨fun _ => hlasts, fun _ _ => .inl hlasts⟩
  · constructor
    · rintro (hstate | hstate)
      · rw [hstate] at hcontinues
        exact hcontinues.elim
      · rw [hstate] at hcontinues
        exact hcontinues.elim
    · exact fun hstate _ => absurd hstate hne
  · constructor
    · rintro (hstate | hstate)
      · rw [hstate] at hinit
        exact Bool.noConfusion hinit
      · rw [hstate] at hinit
        exact Bool.noConfusion hinit
    · intro hstate
      rw [hstate] at hinit
      exact Bool.noConfusion hinit

/-- A message finds a state that can go on with it. -/
def Fed (env : ShipEnvironment) (s : ShipConnection) : Prop :=
  s.closingScheduled = true ∨ (s.incomingMessagePending = true ∧ Held env s ∧
      (s.state = .smeHelloPendingTimeout → s.previousState ≠ .smeHelloPendingTimeout))

/-- The state between two events: the connection goes on, and no message is left. -/
structure Settled (s : ShipConnection) : Prop where
  live : s.Live
  read : s.incomingMessagePending = true → s.closingScheduled = true

theorem nextStepPass_fed (h : Fed env s) (hgo : (s.nextStepPass env).2 = true) :
    Fed env (s.nextStepPass env).1 := by
  by_cases hclosing : s.closingScheduled = true
  · rw [nextStepPass_of_closing hclosing] at hgo
    exact Bool.noConfusion hgo
  · obtain ⟨hpending, hheld, hprevious⟩ := h.resolve_left hclosing
    have hopen := Bool.eq_false_iff.mpr hclosing
    by_cases hlisten : s.state.isListeningState = true
    · rw [nextStepPass_of_listening hopen hlisten (.inl hpending)] at hgo
      exact Bool.noConfusion hgo
    · have hlisten' := Bool.eq_false_iff.mpr hlisten
      have hrank := nextStepPass_rank s hgo
      rw [nextStepPass_of_not_listening hopen hlisten'] at hrank ⊢
      refine .inr ⟨(handleState_incomingMessagePending s).trans hpending,
        (handleState_advances hlisten').held, ?_⟩
      intro htimeout
      rw [htimeout] at hrank
      rcases s.state.rank_lt_or_eq with hlt | heq
      · exact absurd hrank (Nat.lt_asymm hlt)
      · rw [heq] at hrank
        exact absurd hrank (Nat.lt_irrefl _)

theorem nextStepPass_settled (h : Fed env s) (hstop : ¬(s.nextStepPass env).2 = true) :
    Settled (s.nextStepPass env).1 := by
  by_cases hclosing : s.closingScheduled = true
  · rw [nextStepPass_of_closing hclosing]
    exact ⟨.inl (.inl hclosing), fun _ => hclosing⟩
  · obtain ⟨hpending, hheld, hprevious⟩ := h.resolve_left hclosing
    have hopen := Bool.eq_false_iff.mpr hclosing
    by_cases hlisten : s.state.isListeningState = true
    · rw [nextStepPass_of_listening hopen hlisten (.inl hpending)]
      exact ⟨handleState_live hlisten hheld, Bool.noConfusion⟩
    · have hlisten' := Bool.eq_false_iff.mpr hlisten
      rw [nextStepPass_of_not_listening hopen hlisten'] at hstop ⊢
      -- The message is still there, so only a closing connection stops.
      have hclosed : (s.handleState env).closingScheduled = true := by
        rcases handleState_leaves (s := s) hlisten' hprevious with hclosed | hleaves
        · exact hclosed
        · exfalso
          apply hstop
          rw [Bool.and_eq_true, decide_eq_true_eq]
          exact ⟨(handleState_incomingMessagePending s).trans hpending, hleaves⟩
      exact ⟨.inl (.inl hclosed), fun _ => hclosed⟩

theorem Fed.settled (h : Fed env s) : Settled (s.stateMachineNextStep env) :=
  @passes_end _ _ (fun t => t.state.rank) _ _ (Fed env) Settled nextStepPass_rank
    (fun _ => nextStepPass_fed) (fun _ => nextStepPass_settled) (rank_lt s) h

theorem stateMachineNextStep_of_closing (h : s.closingScheduled = true) :
    s.stateMachineNextStep env = s := by
  rw [stateMachineNextStep_eq, nextStepPass_of_closing h, if_neg Bool.false_ne_true]

/-- Without a message there is one pass. -/
theorem stateMachineNextStep_of_not_pending (h : s.incomingMessagePending = false) :
    s.stateMachineNextStep env = (s.nextStepPass env).1 := by
  rw [stateMachineNextStep_eq, if_neg]
  rw [nextStepPass]
  split
  · exact Bool.false_ne_true
  · split
    · exact Bool.false_ne_true
    · split
      · exact Bool.false_ne_true
      · dsimp only
        rw [handleState_incomingMessagePending, h, Bool.false_and]
        exact Bool.false_ne_true

theorem sendRaw_cases (env : ShipEnvironment) (s : ShipConnection) :
    (s.sendRaw env).closingScheduled = true ∨ (s.sendRaw env).tasks = s.tasks := by
  rw [sendRaw.eq_def]
  split
  · split
    · exact .inr rfl
    · exact .inl (scheduleClose_closingScheduled _)
  · exact .inr rfl

/-- The first handlers start the timeout and leave no step behind. -/
theorem handleState_live_of_leadsToInitialisation (hlive : s.Lasts ∨
      (s.state ≠ .cmiClientWait ∧ s.state ≠ .cmiServerWait))
    (htask : s.tasks.stateMachineTask = false)
    (hleads : s.state.leadsToInitialisation = true) : (s.handleState env).Live := by
  rw [handleState]
  split
  all_goals rename_i hstate
  case h_1 =>
    rw [stateCmeInitStart.eq_def]
    split
    · exact setAndScheduleState_live _ rfl
    · right
      change Continues { (s.setState .cmiServerWait).tasks with timeoutTask := true }
        (s.setState .cmiServerWait).state
      rw [setState_state, setState_tasks]
      exact ⟨rfl, htask⟩
  case h_2 =>
    rcases sendRaw_cases env s with hclosed | htasks
    · apply Lasts.live
      left
      change ((s.sendRaw env).setState .cmiClientWait).closingScheduled = true
      rw [setState_closingScheduled]
      exact hclosed
    · right
      change Continues { ((s.sendRaw env).setState .cmiClientWait).tasks with timeoutTask := true }
        ((s.sendRaw env).setState .cmiClientWait).state
      rw [setState_state, setState_tasks, htasks]
      exact ⟨rfl, htask⟩
  case h_3 =>
    have hlasts : s.Lasts := hlive.resolve_right fun h => h.1 hstate
    apply Lasts.live
    apply Lasts.setAndScheduleState
    exact hlasts
  case h_5 =>
    have hlasts : s.Lasts := hlive.resolve_right fun h => h.2 hstate
    apply Lasts.live
    apply Lasts.setAndScheduleState
    exact hlasts
  all_goals
    rw [hstate] at hleads
    exact Bool.noConfusion hleads

/-- A listening state does not rely on the step. -/
theorem continues_unscheduled {t : ShipTasks} (h : Continues { t with stateMachineTask := true } st)
    (hlisten : st.isListeningState = true) : Continues t st := by
  cases st
  all_goals first
    | exact Bool.noConfusion hlisten
    | exact h

theorem continues_scheduled {t : ShipTasks} (h : Continues t st) (ht : t.stateMachineTask = true) :
    Continues { t with stateMachineTask := true } st := by
  cases t
  cases ht
  exact h

/-- The step that was scheduled. -/
theorem stateMachineNextStep_settled
    (h : s.Lasts ∨ Continues { s.tasks with stateMachineTask := true } s.state)
    (htask : s.tasks.stateMachineTask = false)
    (hread : s.incomingMessagePending = true → s.closingScheduled = true) :
    Settled (s.stateMachineNextStep env) := by
  by_cases hclosing : s.closingScheduled = true
  · rw [stateMachineNextStep_of_closing hclosing]
    exact ⟨.inl (.inl hclosing), fun _ => hclosing⟩
  · have hopen := Bool.eq_false_iff.mpr hclosing
    have hnone : s.incomingMessagePending = false :=
      Bool.eq_false_iff.mpr fun hpending => hclosing (hread hpending)
    rw [stateMachineNextStep_of_not_pending hnone]
    by_cases hlisten : s.state.isListeningState = true
    · by_cases hdone : s.state = .done
      · rw [nextStepPass_of_listening hopen hlisten (.inr hdone)]
        refine ⟨?_, Bool.noConfusion⟩
        apply handleState_live hlisten
        constructor
        · rintro (hstate | hstate)
          · exact absurd (hdone.symm.trans hstate) ShipConnectionState.noConfusion
          · exact absurd (hdone.symm.trans hstate) ShipConnectionState.noConfusion
        · exact fun hstate => absurd (hdone.symm.trans hstate) ShipConnectionState.noConfusion
      · rw [nextStepPass, if_neg hclosing, if_pos ⟨hlisten, by rw [hnone]; rfl, hdone⟩]
        refine ⟨?_, hread⟩
        rcases h with hlasts | hcontinues
        · exact .inl hlasts
        · exact .inr (continues_unscheduled hcontinues hlisten)
    · have hlisten' := Bool.eq_false_iff.mpr hlisten
      rw [nextStepPass_of_not_listening hopen hlisten']
      refine ⟨?_, fun hpending => ?_⟩
      · by_cases hleads : s.state.leadsToInitialisation = true
        · apply handleState_live_of_leadsToInitialisation _ htask hleads
          rcases h with hlasts | hcontinues
          · exact .inl hlasts
          · right
            constructor
            · intro hstate
              rw [hstate] at hcontinues
              exact Bool.noConfusion hcontinues.2
            · intro hstate
              rw [hstate] at hcontinues
              exact Bool.noConfusion hcontinues.2
        · rcases handleState_advances (s := s) hlisten' with hlasts | hcontinues | hinit
          · exact .inl hlasts
          · exact .inr hcontinues.1
          · exact absurd hinit.1 hleads
      · rw [handleState_incomingMessagePending] at hpending
        exact absurd (hread hpending) hclosing

/-- The invariant: a connected connection goes on, an unconnected one has not begun. -/
structure Progressing (s : ShipConnection) : Prop where
  live : s.connected = true → s.Live
  read : s.incomingMessagePending = true → s.closingScheduled = true
  unconnected : s.connected = false →
    s.closingScheduled = true ∨ (s.state = .cmiInitStart ∧ s.tasks = {})

theorem progressing_of_closing (h : s.closingScheduled = true) : s.Progressing :=
  ⟨fun _ => .inl (.inl h), fun _ => h, fun _ => .inl h⟩

theorem Settled.progressing (h : s.Settled) (hconnected : s.connected = true) : s.Progressing where
  live := fun _ => h.live
  read := h.read
  unconnected := fun hnot => absurd (hnot.symm.trans hconnected) Bool.false_ne_true

theorem Progressing.connected_of_armed (h : s.Progressing) (harmed : s.tasks ≠ {}) :
    s.closingScheduled = true ∨ s.connected = true := by
  by_cases hconnected : s.connected = true
  · exact .inr hconnected
  · left
    rcases h.unconnected (Bool.eq_false_iff.mpr hconnected) with hclosing | ⟨-, htasks⟩
    · exact hclosing
    · exact absurd htasks harmed

/-- A connection with a running timer is connected or closing. -/
theorem Progressing.connected_of_timer (h : s.Progressing) (timer : ShipTasks → Bool)
    (hempty : timer {} = false) (htimer : timer s.tasks = true) :
    s.closingScheduled = true ∨ s.connected = true := by
  apply h.connected_of_armed
  intro hnone
  rw [hnone, hempty] at htimer
  cases htimer

theorem stateMachineNextStep_connected (h : s.connected = true) :
    (s.stateMachineNextStep env).connected = true :=
  stateMachineNextStep_invariant (I := fun t : ShipConnection => t.connected = true)
    (fun t ht => (congrArg Prod.fst (handleState_kept t)).trans ht) (fun _ ht => ht) h

/-- An event that schedules a state. -/
theorem setAndScheduleState_progressing (hst : st.continuation = .step)
    (hread : s.incomingMessagePending = true → s.closingScheduled = true)
    (hconnected : s.closingScheduled = true ∨ s.connected = true) :
    (s.setAndScheduleState st).Progressing := by
  have hkept := setAndScheduleState_kept st s
  have hclosing : (s.setAndScheduleState st).closingScheduled = s.closingScheduled := by
    obtain ⟨tasks, h⟩ := scheduleStateMachineNextStep_frame (s.setState st)
    rw [setAndScheduleState, h]
    exact setState_closingScheduled st s
  rcases hconnected with hclosed | hconnected
  · exact progressing_of_closing (hclosing.trans hclosed)
  · apply Settled.progressing
    · refine ⟨setAndScheduleState_live s hst, fun hpending => ?_⟩
      rw [hclosing]
      exact hread ((congrArg Prod.snd hkept).symm.trans hpending)
    · exact (congrArg Prod.fst hkept).trans hconnected

theorem becomeReady_progressing
    (hread : s.incomingMessagePending = true → s.closingScheduled = true)
    (hconnected : s.closingScheduled = true ∨ s.connected = true) : s.becomeReady.Progressing :=
  setAndScheduleState_progressing rfl hread hconnected

/-- A frame that does not confirm a version without a scheduled step. -/
theorem Progressing.processFrame {role : Role} {data : List UInt8} {fin : Bool}
    (h : s.Progressing) (hgated : Gated role s.gateView) (hconnected : s.connected = true)
    (hok : ¬ConfirmsUnscheduled env s (.frame data fin)) :
    (s.processFrame env data fin).Progressing := by
  rw [ShipConnection.processFrame]
  by_cases hclosing : s.closingScheduled = true
  · rw [if_pos hclosing]
    exact h
  · rw [if_neg hclosing]
    by_cases hshort : data.length < 2
    · rw [if_pos hshort]
      exact h
    · rw [if_neg hshort]
      split
      · rename_i hcomplete
        have hlive := h.live hconnected
        apply Settled.progressing
        · apply Fed.settled
          refine .inr ⟨rfl, ⟨?_, ?_⟩, hgated.previousState_ne⟩
          · rintro (hstate | hstate)
            · rcases hlive with hlasts | hcontinues
              · exact hlasts
              · change s.state = _ at hstate
                rw [hstate] at hcontinues
                exact hcontinues.elim
            · rcases hlive with hlasts | hcontinues
              · exact hlasts
              · change s.state = _ at hstate
                rw [hstate] at hcontinues
                exact hcontinues.elim
          · intro hstate hconfirms
            by_contra hnone
            obtain ⟨hlasts, htask⟩ := not_or.mp hnone
            obtain ⟨-, harmed⟩ := not_or.mp hlasts
            exact hok ⟨hconnected, Bool.eq_false_iff.mpr hclosing, hstate,
              Bool.eq_false_iff.mpr htask, Bool.eq_false_iff.mpr harmed, Nat.le_of_not_lt hshort,
              hcomplete, hconfirms⟩
        · exact stateMachineNextStep_connected hconnected
      · exact ⟨h.live, h.read, h.unconnected⟩

theorem Progressing.startClientConfirm (h : s.Progressing) (hnot : s.connected = false) :
    ({ s with connected := true }.startClientConfirm).Progressing := by
  rw [ShipConnection.startClientConfirm, scheduleStateMachineNextStep]
  split
  · rename_i hclosing
    exact progressing_of_closing hclosing
  · rename_i hopen
    obtain ⟨hstate, htasks⟩ := (h.unconnected hnot).resolve_left hopen
    apply Settled.progressing
    · refine ⟨.inr ?_, h.read⟩
      rw [hstate]
      rfl
    · rfl

theorem Progressing.stateMachineTask (h : s.Progressing) (htask : s.tasks.stateMachineTask = true)
    (hconnected : s.closingScheduled = true ∨ s.connected = true) :
    ({ s with tasks.stateMachineTask := false }.stateMachineNextStep env).Progressing := by
  obtain ⟨t, ht⟩ : ∃ t : ShipConnection, t = { s with tasks.stateMachineTask := false } :=
    ⟨_, rfl⟩
  rw [← ht]
  rcases hconnected with hclosing | hconnected
  · rw [stateMachineNextStep_of_closing (by rw [ht]; exact hclosing), ht]
    exact progressing_of_closing hclosing
  · apply Settled.progressing
    · apply stateMachineNextStep_settled
      · rw [ht]
        rcases h.live hconnected with hlasts | hcontinues
        · exact .inl hlasts
        · have hscheduled := continues_scheduled hcontinues htask
          exact .inr hscheduled
      · rw [ht]
      · rw [ht]
        exact h.read
    · apply stateMachineNextStep_connected
      rw [ht]
      exact hconnected

theorem Progressing.notifyTrustChanged (h : s.Progressing) : s.notifyTrustChanged.Progressing := by
  rw [ShipConnection.notifyTrustChanged]
  split
  · exact h
  · rename_i hstate
    split
    · refine becomeReady_progressing (s := { s with tasks := _ }) h.read ?_
      by_cases hconnected : s.connected = true
      · exact .inr hconnected
      · left
        rcases h.unconnected (Bool.eq_false_iff.mpr hconnected) with hclosing | ⟨hinit, -⟩
        · exact hclosing
        · exact absurd ⟨by rw [hinit]; decide, by rw [hinit]; decide⟩ hstate
    · exact h

/-- Every event but the confirmation without a scheduled step keeps the connection going. -/
theorem Progressing.step {role : Role} (h : s.Progressing) (hgated : Gated role s.gateView)
    (event : Event) (hok : ¬ConfirmsUnscheduled env s event) :
    (ShipConnection.step env s event).Progressing := by
  cases event with
  | frame data fin =>
    rw [ShipConnection.step]
    split
    · rename_i hconnected
      exact h.processFrame hgated hconnected hok
    · exact h
  | clientConnected =>
    rw [ShipConnection.step]
    split
    · exact h
    · rename_i hnot
      exact h.startClientConfirm (Bool.eq_false_iff.mpr hnot)
  | stateMachineTask =>
    rw [ShipConnection.step]
    split
    · rename_i htask
      exact h.stateMachineTask htask (h.connected_of_timer (·.stateMachineTask) rfl htask)
    · exact h
  | timeoutTask =>
    rw [ShipConnection.step]
    split
    · exact progressing_of_closing (scheduleClose_closingScheduled _)
    · exact h
  | helloWaitForReadyTimer =>
    rw [ShipConnection.step]
    split
    · exact h
    · rename_i target htarget
      have harmed : s.tasks ≠ {} := fun heq => by
        rw [heq] at htarget
        cases htarget
      refine setAndScheduleState_progressing (s := { s with tasks := _, helloTimerExpiry := 1 })
        ?_ h.read (h.connected_of_armed harmed)
      rcases hgated.waitTarget target htarget with rfl | rfl <;> rfl
  | helloSendProlongationRequestTimer =>
    rw [ShipConnection.step]
    split
    · rename_i hrequest
      have hscheduled : ({ s with tasks.helloSendProlongationRequestTimer := false
          }.setAndScheduleState .smeHelloPendingTimeout).Progressing :=
        setAndScheduleState_progressing rfl h.read
          (h.connected_of_timer (·.helloSendProlongationRequestTimer) rfl hrequest)
      exact ⟨hscheduled.live, hscheduled.read, hscheduled.unconnected⟩
    · exact h
  | helloSendProlongationReplyTimer =>
    rw [ShipConnection.step]
    split
    · rename_i hreply
      exact setAndScheduleState_progressing rfl h.read
        (h.connected_of_timer (·.helloSendProlongationReplyTimer) rfl hreply)
    · exact h
  | helloTrustCheckTimer =>
    rw [ShipConnection.step]
    split
    · rename_i htrust
      have hconnected := h.connected_of_timer (·.helloTrustCheckTimer) rfl htrust
      rw [helloTrustCheckTimerCallback]
      split
      · exact becomeReady_progressing h.read hconnected
      · refine ⟨h.live, h.read, fun hnot => .inl ?_⟩
        exact hconnected.resolve_right fun hyes => Bool.false_ne_true (hnot.symm.trans hyes)
    · exact h
  | protocolHandshakeTimer =>
    rw [ShipConnection.step]
    split
    · rename_i htimer
      exact setAndScheduleState_progressing rfl h.read
        (h.connected_of_timer (·.protocolHandshakeTimer) rfl htimer)
    · exact h
  | setTrusted trusted => exact ⟨h.live, h.read, h.unconnected⟩
  | notifyPeerUpdated =>
    rw [ShipConnection.step]
    split
    · exact h
    · exact h.notifyTrustChanged
  | close => exact progressing_of_closing (scheduleClose_closingScheduled s)
  | initiateTermination =>
    rw [ShipConnection.step, ShipConnection.initiateTermination]
    split
    · exact h
    · exact progressing_of_closing (scheduleClose_closingScheduled _)
  | processDatagram =>
    rw [ShipConnection.step]
    split
    · exact ⟨h.live, h.read, h.unconnected⟩
    · exact h

theorem create_progressing (env : ShipEnvironment) (role : Role) :
    (create env role).Progressing := by
  cases role with
  | client => exact ⟨Bool.noConfusion, Bool.noConfusion, fun _ => .inr ⟨rfl, rfl⟩⟩
  | server =>
    exact ⟨fun _ => .inr ⟨rfl, rfl⟩, fun hpending => Bool.noConfusion hpending,
      fun hnot => Bool.noConfusion hnot⟩

theorem Progressing.notStuck (h : s.Progressing) : s.NotStuck := by
  intro hconnected hdone happroval
  rcases h.live hconnected with (hclosing | harmed) | hcontinues
  · exact .inl hclosing
  · refine .inr (.inr ?_)
    rw [ShipTasks.abortArmed, Bool.or_assoc s.tasks.timeoutTask]
    rw [ShipTasks.helloArmed] at harmed
    rw [harmed, Bool.or_true, Bool.true_or]
  · right
    rw [Continues] at hcontinues
    cases hkind : s.state.continuation with
    | free =>
      exfalso
      revert hdone happroval hkind
      cases s.state <;> decide
    | step =>
      rw [hkind] at hcontinues
      exact .inl hcontinues
    | cmiTimeout =>
      rw [hkind] at hcontinues
      right
      rw [ShipTasks.abortArmed, hcontinues.1]
      rfl
    | helloTimer =>
      rw [hkind] at hcontinues
      exact hcontinues.elim
    | handshakeTimeout =>
      rw [hkind] at hcontinues
      right
      rw [ShipTasks.abortArmed, hcontinues, Bool.or_true]

/-- In both roles and in every run in which no server accepts a confirmed version while no step is
scheduled, every handshake goes on without the peer. -/
theorem handshake_not_stuck (env : ShipEnvironment) (role : Role) (events : List Event)
    (h : Meets (step env) (fun s event => ¬ConfirmsUnscheduled env s event) (create env role)
      events) :
    (run (step env) (create env role) events).NotStuck := by
  have hinvariant := h.invariant
    (I := fun s : ShipConnection => s.Progressing ∧ Gated role s.gateView)
    (fun s event hs hok => ⟨hs.1.step hs.2 event hok, hs.2.step event⟩)
    ⟨create_progressing env role, Gated.create role⟩
  exact hinvariant.1.notStuck

instance : Decidable s.NotStuck := inferInstanceAs (Decidable (_ → _ → _ → _))

instance : Decidable (Confirms env s) := inferInstanceAs (Decidable (_ = _))

instance ConfirmsUnscheduled.decidable (env : ShipEnvironment) (s : ShipConnection) :
    (event : Event) → Decidable (ConfirmsUnscheduled env s event)
  | .frame _ _ => inferInstanceAs (Decidable (_ ∧ _))
  | .clientConnected => isFalse id
  | .stateMachineTask => isFalse id
  | .timeoutTask => isFalse id
  | .helloWaitForReadyTimer => isFalse id
  | .helloSendProlongationRequestTimer => isFalse id
  | .helloSendProlongationReplyTimer => isFalse id
  | .helloTrustCheckTimer => isFalse id
  | .protocolHandshakeTimer => isFalse id
  | .setTrusted _ => isFalse id
  | .notifyPeerUpdated => isFalse id
  | .close => isFalse id
  | .initiateTermination => isFalse id
  | .processDatagram => isFalse id

def helloText : List UInt8 :=
  ascii "\x7b\"connectionHello\":[\x7b\"phase\":\"ready\"\x7d,\x7b\"waiting\":60000\x7d]\x7d"

def handshakeText (kind : String) : List UInt8 :=
  ascii ("\x7b\"messageProtocolHandshake\":[\x7b\"handshakeType\":\"" ++ kind ++
    "\"\x7d,\x7b\"version\":[\x7b\"major\":1\x7d,\x7b\"minor\":0\x7d]\x7d]\x7d")

def handshakeObjects (kind : String) : List HandshakeObject :=
  [{ handshakeType := some kind }, { version := some [{ major := some 1 }, { minor := some 0 }] }]

/-- The texts of a handshake, read as the JSON library reads them. -/
def handshakeEnvironment : ShipEnvironment where
  sendSucceeds := fun _ => true
  json :=
    { hello := fun text _ =>
        if text = helloText then some [{ phase := some "ready" }, { waiting := some 60000 }]
        else none
      handshake := fun text _ =>
        if text = handshakeText "announceMax" then some (handshakeObjects "announceMax")
        else if text = handshakeText "select" then some (handshakeObjects "select")
        else none
      isData := fun _ _ => false }

/-- A trusted peer, up to the state in which the server waits for the confirmation. -/
def handshakeEvents : List Event :=
  [.setTrusted true, .frame [0, 0] true, .stateMachineTask, .stateMachineTask, .stateMachineTask,
    .frame (1 :: helloText) true, .stateMachineTask, .stateMachineTask,
    .frame (1 :: handshakeText "announceMax") true]

theorem handshake_not_stuck_unconfirmed :
    Meets (step handshakeEnvironment)
        (fun s event => ¬ConfirmsUnscheduled handshakeEnvironment s event)
        (create handshakeEnvironment .server) handshakeEvents ∧
      (run (step handshakeEnvironment) (create handshakeEnvironment .server)
        handshakeEvents).NotStuck :=
  have h : Meets (step handshakeEnvironment)
      (fun s event => ¬ConfirmsUnscheduled handshakeEnvironment s event)
      (create handshakeEnvironment .server) handshakeEvents := by decide
  ⟨h, handshake_not_stuck handshakeEnvironment .server handshakeEvents h⟩

/-- The confirmation leaves a connection that nothing drives and nothing closes. -/
theorem stuck_after_confirmation :
    ¬∀ (env : ShipEnvironment) (role : Role) (events : List Event),
      (run (step env) (create env role) events).NotStuck := by
  intro h
  have hconfirmed := h handshakeEnvironment .server
    (handshakeEvents ++ [.frame (1 :: handshakeText "select") true])
  revert hconfirmed
  decide

end ShipConnection

end Esp32Firmware.Eebus
