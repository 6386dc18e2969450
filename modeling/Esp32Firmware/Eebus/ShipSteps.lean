import Esp32Firmware.Eebus.ShipConnection

/-!
# Steps of a SHIP connection

What the parts of the handlers leave unchanged, and that the passes over a message end.
-/

namespace Esp32Firmware.Eebus.ShipConnection

variable {env : ShipEnvironment}

theorem scheduleStateMachineNextStep_frame (s : ShipConnection) :
    ∃ tasks, s.scheduleStateMachineNextStep = { s with tasks := tasks } := by
  rw [scheduleStateMachineNextStep]
  split
  · exact ⟨s.tasks, rfl⟩
  · exact ⟨_, rfl⟩

theorem scheduleClose_frame (s : ShipConnection) :
    ∃ closing tasks, s.scheduleClose = { s with closingScheduled := closing, tasks := tasks } := by
  rw [scheduleClose]
  split
  · exact ⟨s.closingScheduled, s.tasks, rfl⟩
  · exact ⟨true, {}, rfl⟩

/-- A send can only close the connection. -/
theorem sendRaw_frame (env : ShipEnvironment) (s : ShipConnection) :
    ∃ closing tasks, s.sendRaw env = { s with
        sentMessages := s.sentMessages + 1, closingScheduled := closing, tasks := tasks } := by
  rw [sendRaw.eq_def]
  split
  · split
    · exact ⟨s.closingScheduled, s.tasks, rfl⟩
    · exact scheduleClose_frame _
  · exact ⟨s.closingScheduled, s.tasks, rfl⟩

section

variable (s : ShipConnection)

@[simp] theorem scheduleStateMachineNextStep_state :
    s.scheduleStateMachineNextStep.state = s.state := by
  obtain ⟨tasks, h⟩ := scheduleStateMachineNextStep_frame s
  rw [h]

@[simp] theorem scheduleClose_state : s.scheduleClose.state = s.state := by
  obtain ⟨closing, tasks, h⟩ := scheduleClose_frame s
  rw [h]

@[simp] theorem sendRaw_state : (s.sendRaw env).state = s.state := by
  obtain ⟨closing, tasks, h⟩ := sendRaw_frame env s
  rw [h]

@[simp] theorem sendRaw_previousState :
    (s.sendRaw env).previousState = s.previousState := by
  obtain ⟨closing, tasks, h⟩ := sendRaw_frame env s
  rw [h]

@[simp] theorem sendRaw_role : (s.sendRaw env).role = s.role := by
  obtain ⟨closing, tasks, h⟩ := sendRaw_frame env s
  rw [h]

@[simp] theorem sendRaw_trace : (s.sendRaw env).trace = s.trace := by
  obtain ⟨closing, tasks, h⟩ := sendRaw_frame env s
  rw [h]

end

@[simp] theorem setState_state (newState : ShipConnectionState) (s : ShipConnection) :
    (s.setState newState).state = newState := by
  rw [setState]
  split
  · exact Eq.symm ‹_›
  · rfl

@[simp] theorem setAndScheduleState_state (newState : ShipConnectionState) (s : ShipConnection) :
    (s.setAndScheduleState newState).state = newState := by
  rw [setAndScheduleState, scheduleStateMachineNextStep_state, setState_state]

@[simp] theorem helloSendSmeUpdate_state (s : ShipConnection) :
    (s.helloSendSmeUpdate env).state = s.state := sendRaw_state _

@[simp] theorem jsonToTypeConnectionHello_state (s : ShipConnection) :
    (s.jsonToTypeConnectionHello env).state = s.state := by
  rw [jsonToTypeConnectionHello]
  split
  · rfl
  · dsimp only
    split <;> rfl

/-- The websocket and the pending message. -/
def kept (s : ShipConnection) : Bool × Bool := (s.connected, s.incomingMessagePending)

theorem setState_kept (newState : ShipConnectionState) (s : ShipConnection) :
    (s.setState newState).kept = s.kept := by
  rw [setState]
  split <;> rfl

theorem setAndScheduleState_kept (newState : ShipConnectionState) (s : ShipConnection) :
    (s.setAndScheduleState newState).kept = s.kept := by
  obtain ⟨tasks, h⟩ := scheduleStateMachineNextStep_frame (s.setState newState)
  rw [setAndScheduleState, h]
  exact setState_kept newState s

section

variable (s : ShipConnection)

theorem scheduleClose_kept : s.scheduleClose.kept = s.kept := by
  obtain ⟨closing, tasks, h⟩ := scheduleClose_frame s
  rw [h]
  rfl

theorem sendRaw_kept : (s.sendRaw env).kept = s.kept := by
  obtain ⟨closing, tasks, h⟩ := sendRaw_frame env s
  rw [h]
  rfl

theorem helloSendSmeUpdate_kept : (s.helloSendSmeUpdate env).kept = s.kept := sendRaw_kept _

theorem helloDecideProlongation_kept : s.helloDecideProlongation.kept = s.kept := by
  rw [helloDecideProlongation]
  split
  · split <;> rfl
  · rfl

theorem helloArmProlongationRequestTimer_kept :
    s.helloArmProlongationRequestTimer.kept = s.kept := by
  rw [helloArmProlongationRequestTimer]
  dsimp only
  split <;> rfl

end

theorem jsonToTypeConnectionHello_kept (env : ShipEnvironment) (s : ShipConnection) :
    (s.jsonToTypeConnectionHello env).kept = s.kept := by
  rw [jsonToTypeConnectionHello]
  split
  · rfl
  · dsimp only
    split <;> rfl

section

variable (s : ShipConnection)
include s

theorem stateSmeHelloReadyListen_kept : (s.stateSmeHelloReadyListen env).kept = s.kept := by
  refine Eq.trans ?_ (jsonToTypeConnectionHello_kept env s)
  rw [stateSmeHelloReadyListen]
  dsimp only
  split
  · refine (helloSendSmeUpdate_kept _).trans ?_
    split
    · exact helloDecideProlongation_kept _
    · rfl
  all_goals exact setAndScheduleState_kept _ _

theorem stateSmeHelloPendingListen_kept : (s.stateSmeHelloPendingListen env).kept = s.kept := by
  refine Eq.trans ?_ (jsonToTypeConnectionHello_kept env s)
  rw [stateSmeHelloPendingListen]
  dsimp only
  split
  · split
    · exact setAndScheduleState_kept _ _
    · exact helloArmProlongationRequestTimer_kept _
  · split
    · exact helloArmProlongationRequestTimer_kept _
    · split
      · exact (helloSendSmeUpdate_kept _).trans (helloDecideProlongation_kept _)
      · rfl
  all_goals exact setAndScheduleState_kept _ _

theorem smeProtocolAbortProcedure_kept : (s.smeProtocolAbortProcedure env).kept = s.kept :=
  (scheduleClose_kept _).trans (sendRaw_kept _)

theorem stateSmeProtocolHandshakeServerListenProposal_kept :
    (s.stateSmeProtocolHandshakeServerListenProposal env).kept = s.kept := by
  rw [stateSmeProtocolHandshakeServerListenProposal.eq_def]
  split
  · exact smeProtocolAbortProcedure_kept s
  · split
    · exact (sendRaw_kept _).trans (setState_kept _ _)
    all_goals exact smeProtocolAbortProcedure_kept s

theorem stateSmeProtocolHandshakeServerListenConfirm_kept :
    (s.stateSmeProtocolHandshakeServerListenConfirm env).kept = s.kept := by
  rw [stateSmeProtocolHandshakeServerListenConfirm.eq_def]
  dsimp only
  split
  · exact smeProtocolAbortProcedure_kept _
  · split
    · exact setState_kept _ _
    · exact smeProtocolAbortProcedure_kept _

theorem stateSmeProtocolHandshakeClientListenChoice_kept :
    (s.stateSmeProtocolHandshakeClientListenChoice env).kept = s.kept := by
  rw [stateSmeProtocolHandshakeClientListenChoice.eq_def]
  split
  · exact smeProtocolAbortProcedure_kept s
  · split
    · dsimp only
      split
      · exact (setAndScheduleState_kept _ _).trans (sendRaw_kept _)
      · exact smeProtocolAbortProcedure_kept _
    all_goals exact smeProtocolAbortProcedure_kept s

theorem stateDone_kept : (s.stateDone env).kept = s.kept := by
  have hsent : (if s.connectionEstablished then s else s.sendRaw env).kept = s.kept := by
    split
    · rfl
    · exact sendRaw_kept s
  refine Eq.trans ?_ hsent
  rw [stateDone]
  dsimp only
  generalize (if s.connectionEstablished then s else s.sendRaw env) = t
  split
  · rfl
  · split
    · split <;> rfl
    · exact setAndScheduleState_kept _ _
    · exact sendRaw_kept _
    · exact (scheduleClose_kept _).trans (sendRaw_kept _)
    all_goals rfl

theorem handleState_kept : (s.handleState env).kept = s.kept := by
  rw [handleState.eq_def]
  split
  case h_1 =>
    rw [stateCmeInitStart.eq_def]
    split
    · exact setAndScheduleState_kept _ _
    · exact setState_kept _ _
  case h_2 => exact (setState_kept _ _).trans (sendRaw_kept _)
  case h_4 =>
    rw [stateCmiClientEvaluate]
    split
    · exact setAndScheduleState_kept _ _
    · exact scheduleClose_kept _
  case h_6 =>
    rw [stateCmiServerEvaluate]
    split
    · exact (sendRaw_kept _).trans (setAndScheduleState_kept _ _)
    · exact (scheduleClose_kept _).trans (sendRaw_kept _)
  case h_8 =>
    rw [stateSmeHello.eq_def, helloCheckTrustStatus]
    by_cases htrusted : s.peerTrusted = true
    · rw [if_pos htrusted]
      exact setAndScheduleState_kept _ _
    · rw [if_neg htrusted]
      exact setAndScheduleState_kept _ _
  case h_9 =>
    rw [stateSmeHelloReadyInit]
    split
    · exact (setAndScheduleState_kept _ _).trans (helloSendSmeUpdate_kept _)
    · exact (setState_kept _ _).trans (helloSendSmeUpdate_kept _)
  case h_10 => exact stateSmeHelloReadyListen_kept s
  case h_12 => exact (setState_kept _ _).trans (helloSendSmeUpdate_kept _)
  case h_13 => exact stateSmeHelloPendingListen_kept s
  case h_14 =>
    rw [stateSmeHelloPendingTimeout]
    split
    · exact (setState_kept _ _).trans (helloSendSmeUpdate_kept _)
    · exact setAndScheduleState_kept _ _
  case h_15 =>
    rw [stateSmeHelloOk.eq_def]
    split <;> exact setAndScheduleState_kept _ _
  case h_16 => exact (setAndScheduleState_kept _ _).trans (sendRaw_kept _)
  case h_20 => exact setState_kept _ _
  case h_21 => exact (setState_kept _ _).trans (sendRaw_kept _)
  case h_22 => exact stateSmeProtocolHandshakeServerListenProposal_kept s
  case h_23 => exact stateSmeProtocolHandshakeServerListenConfirm_kept s
  case h_24 => exact stateSmeProtocolHandshakeClientListenChoice_kept s
  case h_25 => exact smeProtocolAbortProcedure_kept s
  case h_28 => exact (sendRaw_kept _).trans (setState_kept _ _)
  case h_38 =>
    rw [stateSmeAccessMethodRequest]
    split
    · exact (sendRaw_kept _).trans (setState_kept _ _)
    · rfl
  case h_39 => exact stateDone_kept s
  all_goals first
    | exact setAndScheduleState_kept _ _
    | exact scheduleClose_kept _

end

end ShipConnection

/-- How many states without messages can follow. -/
def ShipConnectionState.rank : ShipConnectionState → ℕ
  | .smeHelloPendingTimeout => 12
  | .cmiInitStart => 11
  | .cmiClientSend => 10
  | .cmiClientWait | .cmiServerWait => 9
  | .smeConnectionDataPreparation => 8
  | .smeHello => 7
  | .smeHelloReadyInit | .smeHelloPendingInit => 6
  | .smeHelloOk => 5
  | .smeProtocolHandshakeServerInit | .smeProtocolHandshakeClientInit => 4
  | .smeProtocolHandshakeServerOk | .smeProtocolHandshakeClientOk => 4
  | .smePinCheckInit => 3
  | .smeHelloReadyTimeout | .smeHelloRejected => 2
  | .smeHelloAbort | .smeHelloRemoteAbortDone => 1
  | _ => 0

theorem ShipConnectionState.rank_lt_or_eq (st : ShipConnectionState) :
    st.rank < ShipConnectionState.rank .smeHelloPendingTimeout ∨ st = .smeHelloPendingTimeout := by
  cases st <;> decide

namespace ShipConnection

theorem stateCmeInitStart_state (s : ShipConnection) :
    s.stateCmeInitStart.state = .cmiClientSend ∨ s.stateCmeInitStart.state = .cmiServerWait := by
  rw [stateCmeInitStart.eq_def]
  split
  · exact .inl (setAndScheduleState_state _ s)
  · exact .inr (setState_state _ s)

theorem stateSmeHello_state (s : ShipConnection) :
    s.stateSmeHello.state = .smeHelloPendingInit ∨ s.stateSmeHello.state = .smeHelloReadyInit := by
  rw [stateSmeHello.eq_def, helloCheckTrustStatus]
  by_cases htrusted : s.peerTrusted = true
  · rw [if_pos htrusted]
    exact .inr (setAndScheduleState_state _ _)
  · rw [if_neg htrusted]
    exact .inl (setAndScheduleState_state _ _)

theorem stateSmeHelloReadyInit_state (env : ShipEnvironment) (s : ShipConnection) :
    (s.stateSmeHelloReadyInit env).state = .smeHelloOk ∨
      (s.stateSmeHelloReadyInit env).state = .smeHelloReadyListen := by
  rw [stateSmeHelloReadyInit]
  split
  · exact .inl (setAndScheduleState_state _ _)
  · exact .inr (setState_state _ _)

theorem stateSmeHelloPendingTimeout_state (env : ShipEnvironment) (s : ShipConnection) :
    (s.stateSmeHelloPendingTimeout env).state = s.previousState ∨
      (s.stateSmeHelloPendingTimeout env).state = .smeHelloAbort := by
  rw [stateSmeHelloPendingTimeout]
  split
  · left
    rw [setState_state]
    exact sendRaw_previousState _
  · exact .inr (setAndScheduleState_state _ s)

theorem stateSmeHelloOk_state (s : ShipConnection) :
    s.stateSmeHelloOk.state = .smeProtocolHandshakeClientInit ∨
      s.stateSmeHelloOk.state = .smeProtocolHandshakeServerInit := by
  rw [stateSmeHelloOk.eq_def]
  split
  · exact .inl (setAndScheduleState_state _ _)
  · exact .inr (setAndScheduleState_state _ _)

@[simp] theorem smeProtocolAbortProcedure_state (s : ShipConnection) :
    (s.smeProtocolAbortProcedure env).state = s.state := by
  rw [smeProtocolAbortProcedure, scheduleClose_state, sendRaw_state]
  rfl

/-- A state that does not listen is left to one that fewer states can follow. -/
theorem handleState_rank {s : ShipConnection} (hlisten : s.state.isListeningState = false)
    (hnext : (s.handleState env).state ≠ s.state) :
    (s.handleState env).state.rank < s.state.rank := by
  revert hnext
  rw [handleState]
  split
  all_goals rename_i hstate
  all_goals rw [hstate] at hlisten ⊢
  all_goals intro hnext
  case h_1 => rcases s.stateCmeInitStart_state with h | h <;> rw [h] <;> decide
  case h_8 => rcases s.stateSmeHello_state with h | h <;> rw [h] <;> decide
  case h_9 => rcases stateSmeHelloReadyInit_state env s with h | h <;> rw [h] <;> decide
  case h_14 =>
    rcases stateSmeHelloPendingTimeout_state env s with h | h
    · rw [h] at hnext ⊢
      exact s.previousState.rank_lt_or_eq.resolve_right hnext
    · rw [h]
      decide
  case h_15 => rcases s.stateSmeHelloOk_state with h | h <;> rw [h] <;> decide
  all_goals first
    | exact Bool.noConfusion hlisten
    | (simp [stateSmeHelloAbortDone, stateSmeProtocolHandshakeTimeout, stateIsNotImplemented,
        hstate] at hnext; done)
    | simp [stateCmiClientSend, stateCmiClientWait, stateCmiServerWait,
        stateSmeConnectionDataPreparation, stateSmeHelloReadyTimeout, stateSmeHelloPendingInit,
        stateSmeHelloAbort, stateSmeHelloRemoteAbortDone, stateSmeHelloRejected,
        stateSmeProtocolHandshakeServerInit, stateSmeProtocolHandshakeClientInit,
        stateSmeProtocolHandshakeClientOk, stateSmeProtocolHandshakeServerOk,
        stateSmePinCheckInit, startHandshakeTimeout, ShipConnectionState.rank]

theorem nextStepPass_rank (s : ShipConnection) (hgo : (s.nextStepPass env).2 = true) :
    (s.nextStepPass env).1.state.rank < s.state.rank := by
  revert hgo
  rw [nextStepPass]
  split
  · exact Bool.noConfusion
  · split
    · exact Bool.noConfusion
    · split
      · exact Bool.noConfusion
      · rename_i hlisten
        intro hgo
        rw [Bool.and_eq_true, decide_eq_true_eq] at hgo
        exact handleState_rank (Bool.eq_false_iff.mpr hlisten) hgo.2

theorem rank_lt (s : ShipConnection) : s.state.rank < 20 := by
  cases s.state <;> decide

/-- The step goes on with itself as long as its passes ask for another one. -/
theorem stateMachineNextStep_eq (s : ShipConnection) :
    s.stateMachineNextStep env =
      if (s.nextStepPass env).2 then (s.nextStepPass env).1.stateMachineNextStep env
      else (s.nextStepPass env).1 :=
  passes_eq_self nextStepPass_rank rank_lt s

theorem stateMachineNextStep_invariant {I : ShipConnection → Prop}
    (hhandle : ∀ s, I s → I (s.handleState env))
    (hpending : ∀ s, I s → I { s with incomingMessagePending := false }) {s : ShipConnection}
    (hs : I s) : I (s.stateMachineNextStep env) := by
  apply passes_invariant _ hs
  intro t ht
  rw [nextStepPass]
  split
  · exact ht
  · split
    · exact ht
    · split
      · exact hpending _ (hhandle t ht)
      · exact hhandle t ht

end ShipConnection

end Esp32Firmware.Eebus
