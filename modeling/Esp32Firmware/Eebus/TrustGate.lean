import Esp32Firmware.Eebus.ShipSteps
import Esp32Firmware.Library.GuardedTrace
import Esp32Firmware.Library.Run

/-!
# The trust gate of a SHIP connection

No connection enters the data exchange, and no datagram is processed, before the peer was found
trusted, said that it is ready and agreed on a version.
-/

namespace Esp32Firmware.Eebus

open ShipConnection

/-- A version within ours was announced and selected, in this order; a server also keeps to the
version that was announced. -/
def VersionAgreed (role : Role) (trace : List ShipAct) : Prop :=
  match role with
  | .client =>
    ∃ v, v.Within ownVersion ∧
      [.sentSelect v, .receivedSelect v, .sentAnnounce ownVersion].Sublist trace
  | .server =>
    ∃ announced v, v.Within ownVersion ∧ v.Within announced ∧
      [.receivedSelect v, .sentSelect v, .receivedAnnounce announced].Sublist trace

structure Admitted (role : Role) (trace : List ShipAct) : Prop where
  trusted : .foundTrusted ∈ trace
  ready : .receivedHello .ready ∈ trace
  agreed : VersionAgreed role trace

/-- What only an admitted peer gets. -/
def ShipAct.IsGated (act : ShipAct) : Prop := act = .entered .done ∨ act = .processedDatagram

theorem VersionAgreed.cons {role : Role} {trace : List ShipAct} (act : ShipAct)
    (h : VersionAgreed role trace) : VersionAgreed role (act :: trace) := by
  cases role with
  | client =>
    obtain ⟨v, hown, hsub⟩ := h
    exact ⟨v, hown, hsub.cons _⟩
  | server =>
    obtain ⟨announced, v, hown, hannounced, hsub⟩ := h
    exact ⟨announced, v, hown, hannounced, hsub.cons _⟩

theorem Admitted.cons {role : Role} {trace : List ShipAct} (act : ShipAct)
    (h : Admitted role trace) : Admitted role (act :: trace) where
  trusted := List.mem_cons_of_mem _ h.trusted
  ready := List.mem_cons_of_mem _ h.ready
  agreed := h.agreed.cons act

namespace ShipConnectionState

def needsTrust : ShipConnectionState → Bool
  | .smeHelloReadyInit
  | .smeHelloReadyListen
  | .smeHelloOk
  | .smeProtocolHandshakeServerInit
  | .smeProtocolHandshakeClientInit
  | .smeProtocolHandshakeServerListenProposal
  | .smeProtocolHandshakeServerListenConfirm
  | .smeProtocolHandshakeClientListenChoice
  | .smeProtocolHandshakeClientOk
  | .smeProtocolHandshakeServerOk
  | .smePinCheckInit
  | .smeAccessMethodRequest
  | .done => true
  | _ => false

def needsReady (st : ShipConnectionState) : Bool :=
  st.needsTrust && st != .smeHelloReadyInit && st != .smeHelloReadyListen

/-- What the protocol handshake did before a state; the version is the one that was selected. -/
def Handshaken (role : Role) (selected : ProtocolVersion) (trace : List ShipAct) :
    ShipConnectionState → Prop
  | .smeProtocolHandshakeServerInit | .smeProtocolHandshakeServerListenProposal => role = .server
  | .smeProtocolHandshakeServerListenConfirm =>
    role = .server ∧ selected.Within ownVersion ∧ ∃ announced, selected.Within announced ∧
      [.sentSelect selected, .receivedAnnounce announced].Sublist trace
  | .smeProtocolHandshakeClientInit => role = .client
  | .smeProtocolHandshakeClientListenChoice =>
    role = .client ∧ .sentAnnounce ownVersion ∈ trace
  | .smeProtocolHandshakeClientOk
  | .smeProtocolHandshakeServerOk
  | .smePinCheckInit
  | .smeAccessMethodRequest
  | .done => VersionAgreed role trace
  | _ => True

end ShipConnectionState

/-- What a connection did before it may be in a state. -/
structure Admits (role : Role) (selected : ProtocolVersion) (trace : List ShipAct)
    (st : ShipConnectionState) : Prop where
  trusted : st.needsTrust = true → .foundTrusted ∈ trace
  ready : st.needsReady = true → .receivedHello .ready ∈ trace
  handshaken : st.Handshaken role selected trace

variable {role : Role} {selected : ProtocolVersion} {trace : List ShipAct}
  {st : ShipConnectionState}

theorem ShipConnectionState.Handshaken.cons (act : ShipAct)
    (h : st.Handshaken role selected trace) : st.Handshaken role selected (act :: trace) := by
  cases st with
  | smeProtocolHandshakeServerListenConfirm =>
    obtain ⟨hrole, hown, announced, hannounced, hsub⟩ := h
    exact ⟨hrole, hown, announced, hannounced, hsub.cons _⟩
  | smeProtocolHandshakeClientListenChoice => exact ⟨h.1, List.mem_cons_of_mem _ h.2⟩
  | smeProtocolHandshakeClientOk | smeProtocolHandshakeServerOk | smePinCheckInit
  | smeAccessMethodRequest | done => exact VersionAgreed.cons act h
  | _ => exact h

theorem Admits.cons (act : ShipAct) (h : Admits role selected trace st) :
    Admits role selected (act :: trace) st where
  trusted := fun hneeds => List.mem_cons_of_mem _ (h.trusted hneeds)
  ready := fun hneeds => List.mem_cons_of_mem _ (h.ready hneeds)
  handshaken := h.handshaken.cons act

/-- The states that lead no further than to the pending hello or to the end rest on nothing. -/
theorem admits_of_not_needsTrust (h : st.needsTrust = false) : Admits role selected trace st := by
  constructor
  · intro hneeds
    exact absurd (h.symm.trans hneeds) Bool.false_ne_true
  · intro hneeds
    rw [ShipConnectionState.needsReady, h] at hneeds
    exact absurd hneeds Bool.false_ne_true
  · cases st with
    | _ => first | exact trivial | exact Bool.noConfusion h

theorem Admits.admitted (h : Admits role selected trace .done) : Admitted role trace :=
  ⟨h.trusted rfl, h.ready rfl, h.handshaken⟩

/-- What the gate depends on. -/
structure GateView where
  role : Role
  trace : List ShipAct
  state : ShipConnectionState
  previousState : ShipConnectionState
  selected : ProtocolVersion
  peerPhase : ConnectionHelloPhase
  waitTarget : Option ShipConnectionState
  datagrams : ℕ

def ShipConnection.gateView (s : ShipConnection) : GateView where
  role := s.role
  trace := s.trace
  state := s.state
  previousState := s.previousState
  selected := s.protocolHandshakeVersionSelected
  peerPhase := s.peerHelloPhase.phase
  waitTarget := s.tasks.helloWaitForReadyTimer
  datagrams := s.scheduledDatagrams

structure Gated (role : Role) (v : GateView) : Prop where
  role : v.role = role
  guarded : Guarded (fun act earlier => act.IsGated → Admitted v.role earlier) v.trace
  state : Admits v.role v.selected v.trace v.state
  previousState : Admits v.role v.selected v.trace v.previousState
  peerReady : v.peerPhase = .ready → .receivedHello .ready ∈ v.trace
  waitTarget : ∀ target, v.waitTarget = some target →
    target = .smeHelloReadyTimeout ∨ target = .smeHelloPendingTimeout
  previousState_ne : v.state = .smeHelloPendingTimeout → v.previousState ≠ .smeHelloPendingTimeout
  datagrams : 0 < v.datagrams → Admitted v.role v.trace

namespace Gated

variable {env : ShipEnvironment} {s : ShipConnection}

theorem record (act : ShipAct) (h : Gated role s.gateView)
    (hact : act.IsGated → Admitted s.role s.trace) : Gated role (s.record act).gateView where
  role := h.role
  guarded := h.guarded.cons hact
  state := h.state.cons act
  previousState := h.previousState.cons act
  peerReady := fun hready => List.mem_cons_of_mem _ (h.peerReady hready)
  waitTarget := h.waitTarget
  previousState_ne := h.previousState_ne
  datagrams := fun hpos => (h.datagrams hpos).cons act

/-- An act that needs no admission. -/
theorem recordFree {act : ShipAct} (h : Gated role s.gateView) (hact : ¬act.IsGated) :
    Gated role (s.record act).gateView :=
  h.record act fun hgated => absurd hgated hact

variable {newState : ShipConnectionState}

section

variable (h : Gated role s.gateView)
include h

theorem setState (hnew : Admits s.role s.protocolHandshakeVersionSelected s.trace newState) :
    Gated role (s.setState newState).gateView := by
  rw [ShipConnection.setState]
  split
  · exact h
  · rename_i hne
    have hmoved : Gated role { s with previousState := s.state, state := newState }.gateView :=
      { h with
        state := hnew
        previousState := h.state
        previousState_ne := fun htimeout heq => hne (htimeout.trans heq.symm) }
    apply hmoved.record
    rintro (hdone | hdatagram)
    · obtain rfl := ShipAct.entered.inj hdone
      exact hnew.admitted
    · cases hdatagram

theorem scheduleStateMachineNextStep : Gated role s.scheduleStateMachineNextStep.gateView := by
  rw [ShipConnection.scheduleStateMachineNextStep]
  split <;> exact h

theorem setAndScheduleState
    (hnew : Admits s.role s.protocolHandshakeVersionSelected s.trace newState) :
    Gated role (s.setAndScheduleState newState).gateView :=
  (h.setState hnew).scheduleStateMachineNextStep

/-- A state that rests on nothing may always be entered. -/
theorem setAndScheduleFree (hnew : newState.needsTrust = false) :
    Gated role (s.setAndScheduleState newState).gateView :=
  h.setAndScheduleState (admits_of_not_needsTrust hnew)

theorem scheduleClose : Gated role s.scheduleClose.gateView := by
  rw [ShipConnection.scheduleClose]
  split
  · exact h
  · exact { h with waitTarget := fun _ htarget => by cases htarget }

theorem sendRaw : Gated role (s.sendRaw env).gateView := by
  rw [ShipConnection.sendRaw.eq_def]
  split
  · split
    · exact h
    · exact scheduleClose h
  · exact h

theorem helloCheckTrustStatus : Gated role s.helloCheckTrustStatus.2.gateView := by
  rw [ShipConnection.helloCheckTrustStatus]
  split
  · exact h.recordFree (by rintro (hact | hact) <;> cases hact)
  · exact h

theorem stateSmeHello : Gated role s.stateSmeHello.gateView := by
  have hchecked := h.helloCheckTrustStatus
  rw [ShipConnection.stateSmeHello.eq_def]
  by_cases htrusted : s.peerTrusted = true
  · have hcheck : s.helloCheckTrustStatus = (.ready, s.record .foundTrusted) := by
      rw [ShipConnection.helloCheckTrustStatus, if_pos htrusted]
    rw [hcheck] at hchecked ⊢
    exact setAndScheduleState (s := { s.record .foundTrusted with thisHelloPhase := _ }) hchecked
      ⟨fun _ => List.mem_cons_self, Bool.noConfusion, trivial⟩
  · have hcheck : s.helloCheckTrustStatus = (.pending, s) := by
      rw [ShipConnection.helloCheckTrustStatus, if_neg htrusted]
    rw [hcheck] at hchecked ⊢
    exact setAndScheduleFree (s := { s with thisHelloPhase := _ }) hchecked rfl

theorem helloSendSmeUpdate : Gated role (s.helloSendSmeUpdate env).gateView :=
  sendRaw (s := { s with thisHelloPhase := _ }) h

end

theorem helloSetWaitForReadyTimer {target : ShipConnectionState} (h : Gated role s.gateView)
    (htarget : target = .smeHelloReadyTimeout ∨ target = .smeHelloPendingTimeout) :
    Gated role (s.helloSetWaitForReadyTimer target).gateView := by
  refine { h with waitTarget := ?_ }
  intro target' heq
  obtain rfl := Option.some.inj heq
  exact htarget

section

variable (h : Gated role s.gateView)
include h

theorem helloDecideProlongation : Gated role s.helloDecideProlongation.gateView := by
  rw [ShipConnection.helloDecideProlongation]
  split
  · split
    · exact h.helloSetWaitForReadyTimer (.inr rfl)
    · exact h.helloSetWaitForReadyTimer (.inl rfl)
  · exact h

theorem becomeReady : Gated role s.becomeReady.gateView := by
  have hfound : Gated role (s.record .foundTrusted).gateView :=
    h.recordFree (by rintro (hact | hact) <;> cases hact)
  exact setAndScheduleState (s := { s.record .foundTrusted with thisHelloPhase := _ }) hfound
    ⟨fun _ => List.mem_cons_self, Bool.noConfusion, trivial⟩

theorem helloTrustCheckTimerCallback : Gated role s.helloTrustCheckTimerCallback.gateView := by
  rw [ShipConnection.helloTrustCheckTimerCallback]
  split
  · exact h.becomeReady
  · exact h

theorem notifyTrustChanged : Gated role s.notifyTrustChanged.gateView := by
  rw [ShipConnection.notifyTrustChanged]
  split
  · exact h
  · split
    · exact becomeReady (s := { s with tasks := _ }) h
    · exact h

/-- A ready hello was received, so the trace has it when the peer's phase says so. -/
theorem jsonToTypeConnectionHello : Gated role (s.jsonToTypeConnectionHello env).gateView := by
  rw [ShipConnection.jsonToTypeConnectionHello]
  split
  · exact h
  · rename_i objects hobjects
    split
    · have hrecord :
          Gated role (s.record
            (.receivedHello (s.peerHelloPhase.jsonToType objects).phase)).gateView :=
        h.recordFree (by rintro (hact | hact) <;> cases hact)
      refine { hrecord with peerReady := ?_ }
      intro hready
      rw [← hready]
      exact List.mem_cons_self
    · rename_i hgives
      have hphase : (s.peerHelloPhase.jsonToType objects).phase = s.peerHelloPhase.phase :=
        ConnectionHello.jsonToType_phase_of_not_givesPhase (Bool.eq_false_iff.mpr hgives)
      exact { h with peerReady := fun hready => h.peerReady (hphase.symm.trans hready) }

/-- The state of the connection is one it may be in. -/
theorem admits (hstate : s.state = st) :
    Admits s.role s.protocolHandshakeVersionSelected s.trace st := by
  rw [← hstate]
  exact h.state

theorem stateCmeInitStart : Gated role s.stateCmeInitStart.gateView := by
  rw [ShipConnection.stateCmeInitStart.eq_def]
  split
  · exact h.setAndScheduleFree rfl
  · exact h.setState (admits_of_not_needsTrust rfl)

theorem stateCmiClientSend : Gated role (s.stateCmiClientSend env).gateView :=
  h.sendRaw.setState (admits_of_not_needsTrust rfl)

theorem stateCmiClientWait : Gated role s.stateCmiClientWait.gateView :=
  setAndScheduleFree (s := { s with tasks := _ }) h rfl

theorem stateCmiClientEvaluate : Gated role s.stateCmiClientEvaluate.gateView := by
  rw [ShipConnection.stateCmiClientEvaluate]
  split
  · exact h.setAndScheduleFree rfl
  · exact h.scheduleClose

theorem stateCmiServerWait : Gated role s.stateCmiServerWait.gateView :=
  setAndScheduleFree (s := { s with tasks := _ }) h rfl

theorem stateCmiServerEvaluate : Gated role (s.stateCmiServerEvaluate env).gateView := by
  rw [ShipConnection.stateCmiServerEvaluate]
  split
  · exact (h.setAndScheduleFree rfl).sendRaw
  · exact h.sendRaw.scheduleClose

theorem stateSmeHelloReadyInit (hstate : s.state = .smeHelloReadyInit) :
    Gated role (s.stateSmeHelloReadyInit env).gateView := by
  have hwait : Gated role (s.helloSetWaitForReadyTimer .smeHelloReadyTimeout).gateView :=
    h.helloSetWaitForReadyTimer (.inl rfl)
  have hsent : Gated role ((s.helloSetWaitForReadyTimer
      .smeHelloReadyTimeout).cancelProlongationTimers.helloSendSmeUpdate env).gateView :=
    helloSendSmeUpdate (s := (s.helloSetWaitForReadyTimer _).cancelProlongationTimers) hwait
  have hadmits := hsent.admits ((helloSendSmeUpdate_state _).trans hstate)
  rw [ShipConnection.stateSmeHelloReadyInit]
  split
  · rename_i hready
    exact hsent.setAndScheduleState ⟨hadmits.trusted, fun _ => hsent.peerReady hready, trivial⟩
  · exact hsent.setState ⟨hadmits.trusted, Bool.noConfusion, trivial⟩

theorem stateSmeHelloReadyListen (hstate : s.state = .smeHelloReadyListen) :
    Gated role (s.stateSmeHelloReadyListen env).gateView := by
  have hread : Gated role (s.jsonToTypeConnectionHello env).gateView := h.jsonToTypeConnectionHello
  have hadmits := hread.admits ((jsonToTypeConnectionHello_state s).trans hstate)
  rw [ShipConnection.stateSmeHelloReadyListen]
  split
  · apply helloSendSmeUpdate
    split
    · exact hread.helloDecideProlongation
    · exact hread
  · rename_i hready
    exact hread.setAndScheduleState ⟨hadmits.trusted, fun _ => hread.peerReady hready, trivial⟩
  · exact hread.setAndScheduleFree rfl
  · exact hread.setAndScheduleFree rfl

theorem stateSmeHelloPendingInit : Gated role (s.stateSmeHelloPendingInit env).gateView := by
  have hwait : Gated role (s.helloSetWaitForReadyTimer .smeHelloPendingTimeout).gateView :=
    h.helloSetWaitForReadyTimer (.inr rfl)
  have hsent : Gated role ((s.helloSetWaitForReadyTimer
      .smeHelloPendingTimeout).cancelProlongationTimers.helloStartTrustCheckTimer.helloSendSmeUpdate
        env).gateView :=
    helloSendSmeUpdate (s := ShipConnection.helloStartTrustCheckTimer _) hwait
  exact hsent.setState (admits_of_not_needsTrust rfl)

theorem helloArmProlongationRequestTimer :
    Gated role s.helloArmProlongationRequestTimer.gateView := by
  rw [ShipConnection.helloArmProlongationRequestTimer]
  split <;> exact h

theorem stateSmeHelloPendingListen : Gated role (s.stateSmeHelloPendingListen env).gateView := by
  have hread : Gated role (s.jsonToTypeConnectionHello env).gateView := h.jsonToTypeConnectionHello
  rw [ShipConnection.stateSmeHelloPendingListen]
  split
  · split
    · exact hread.setAndScheduleFree rfl
    · apply helloArmProlongationRequestTimer
      exact { hread with waitTarget := fun _ htarget => by cases htarget }
  · split
    · exact hread.helloArmProlongationRequestTimer
    · split
      · exact hread.helloDecideProlongation.helloSendSmeUpdate
      · exact hread
  · exact hread.setAndScheduleFree rfl
  · exact hread.setAndScheduleFree rfl

/-- The state before the timeout is one that the connection may be in. -/
theorem stateSmeHelloPendingTimeout : Gated role (s.stateSmeHelloPendingTimeout env).gateView := by
  rw [ShipConnection.stateSmeHelloPendingTimeout]
  split
  · have hsent : ∀ hello : ConnectionHello, Gated role
          (ShipConnection.helloSendSmeUpdate env { s with thisHelloPhase := hello }).gateView :=
      fun hello => helloSendSmeUpdate (s := { s with thisHelloPhase := hello }) h
    exact setState (s := { ShipConnection.helloSendSmeUpdate env _ with tasks := _ }) (hsent _)
      (hsent _).previousState
  · exact h.setAndScheduleFree rfl

theorem cancelHelloTimers : Gated role s.cancelHelloTimers.gateView :=
  { h with waitTarget := fun _ htarget => nomatch htarget }

theorem stateSmeHelloOk (hstate : s.state = .smeHelloOk) :
    Gated role s.stateSmeHelloOk.gateView := by
  have hadmits := h.admits hstate
  rw [ShipConnection.stateSmeHelloOk.eq_def]
  split
  · rename_i hrole
    exact h.cancelHelloTimers.setAndScheduleState ⟨hadmits.trusted, hadmits.ready, hrole⟩
  · rename_i hrole
    exact h.cancelHelloTimers.setAndScheduleState ⟨hadmits.trusted, hadmits.ready, hrole⟩

theorem stateSmeHelloAbort : Gated role (s.stateSmeHelloAbort env).gateView :=
  h.cancelHelloTimers.sendRaw.setAndScheduleFree rfl

theorem smeProtocolAbortProcedure : Gated role (s.smeProtocolAbortProcedure env).gateView :=
  scheduleClose (sendRaw (s := s.cancelHandshakeTimeout) h)

theorem stateSmeProtocolHandshakeServerInit (hstate : s.state = .smeProtocolHandshakeServerInit) :
    Gated role s.stateSmeProtocolHandshakeServerInit.gateView := by
  have hadmits := h.admits hstate
  exact setState (s := s.startHandshakeTimeout) h
    ⟨hadmits.trusted, hadmits.ready, hadmits.handshaken⟩

theorem stateSmeProtocolHandshakeClientInit (hstate : s.state = .smeProtocolHandshakeClientInit) :
    Gated role (s.stateSmeProtocolHandshakeClientInit env).gateView := by
  have hsent : Gated role ((s.record (.sentAnnounce ownVersion)).sendRaw env).gateView :=
    (h.recordFree (by rintro (hact | hact) <;> cases hact)).sendRaw
  have hadmits := hsent.admits ((sendRaw_state _).trans hstate)
  have hannounced : .sentAnnounce ownVersion ∈
      ((s.record (.sentAnnounce ownVersion)).sendRaw env).trace := by
    rw [sendRaw_trace]
    exact List.mem_cons_self
  exact hsent.setState ⟨hadmits.trusted, hadmits.ready, hadmits.handshaken, hannounced⟩

end

theorem selectedVersion_within (announced : ProtocolVersion) :
    (selectedVersion announced).Within ownVersion ∧ (selectedVersion announced).Within announced :=
  ⟨⟨Nat.min_le_left _ _, Nat.min_le_left _ _⟩, ⟨Nat.min_le_right _ _, Nat.min_le_right _ _⟩⟩

section

variable (h : Gated role s.gateView)
include h

/-- A server selects a version within the announced one. The state before had another selected
version, so the connection is looked at once the new state is entered. -/
theorem stateSmeProtocolHandshakeServerListenProposal
    (hstate : s.state = .smeProtocolHandshakeServerListenProposal) :
    Gated role (s.stateSmeProtocolHandshakeServerListenProposal env).gateView := by
  have hadmits := h.admits hstate
  rw [ShipConnection.stateSmeProtocolHandshakeServerListenProposal.eq_def]
  split
  · exact h.smeProtocolAbortProcedure
  · rename_i handshake hhandshake
    split
    · have hreceived : Gated role (s.record (.receivedAnnounce handshake.version)).gateView :=
        h.recordFree (by rintro (hact | hact) <;> cases hact)
      have hselected : Gated role ((s.record (.receivedAnnounce handshake.version)).record
          (.sentSelect (selectedVersion handshake.version))).gateView :=
        hreceived.recordFree (by rintro (hact | hact) <;> cases hact)
      have hadmits' := (hadmits.cons (.receivedAnnounce handshake.version)).cons
        (.sentSelect (selectedVersion handshake.version))
      obtain ⟨hown, hannounced⟩ := selectedVersion_within handshake.version
      dsimp only
      rw [ShipConnection.setState, if_neg (by
        intro heq
        exact absurd (heq.trans hstate) (by decide))]
      apply sendRaw (s := ShipConnection.record _ _)
      apply recordFree
      · refine { hselected with
          state := ⟨hadmits'.trusted, hadmits'.ready, ?_⟩
          previousState := ?_
          previousState_ne := fun htimeout => by cases htimeout }
        · exact ⟨hadmits.handshaken, hown, handshake.version, hannounced,
            ((List.nil_sublist _).cons_cons _).cons_cons _⟩
        · change Admits s.role _ _ s.state
          rw [hstate]
          exact ⟨hadmits'.trusted, hadmits'.ready, hadmits'.handshaken⟩
      · rintro (hact | hact) <;> cases hact
    · exact h.smeProtocolAbortProcedure
    · exact h.smeProtocolAbortProcedure

/-- The client selects the version that the server selected. -/
theorem stateSmeProtocolHandshakeServerListenConfirm
    (hstate : s.state = .smeProtocolHandshakeServerListenConfirm) :
    Gated role (s.stateSmeProtocolHandshakeServerListenConfirm env).gateView := by
  have hadmits := h.admits hstate
  rw [ShipConnection.stateSmeProtocolHandshakeServerListenConfirm.eq_def]
  have habort : Gated role (s.cancelHandshakeTimeout.smeProtocolAbortProcedure env).gateView :=
    smeProtocolAbortProcedure (s := s.cancelHandshakeTimeout) h
  dsimp only
  split
  · exact habort
  · rename_i handshake hhandshake
    split
    · rename_i hselect
      have hversion : handshake.version = s.protocolHandshakeVersionSelected := by
        rw [hselect]
        rfl
      have hreceived : Gated role (s.record (.receivedSelect handshake.version)).gateView :=
        h.recordFree (by rintro (hact | hact) <;> cases hact)
      have hadmits' := hadmits.cons (.receivedSelect handshake.version)
      obtain ⟨hrole, hown, announced, hannounced, hsub⟩ := hadmits.handshaken
      apply setState (s := s.cancelHandshakeTimeout.record _) hreceived
      refine ⟨hadmits'.trusted, hadmits'.ready, ?_⟩
      change VersionAgreed s.role _
      rw [hrole]
      refine ⟨announced, s.protocolHandshakeVersionSelected, hown, hannounced, ?_⟩
      rw [hversion]
      exact hsub.cons_cons _
    · exact habort

/-- The client accepts a version within its own. -/
theorem stateSmeProtocolHandshakeClientListenChoice
    (hstate : s.state = .smeProtocolHandshakeClientListenChoice) :
    Gated role (s.stateSmeProtocolHandshakeClientListenChoice env).gateView := by
  have hadmits := h.admits hstate
  rw [ShipConnection.stateSmeProtocolHandshakeClientListenChoice.eq_def]
  split
  · exact h.smeProtocolAbortProcedure
  · rename_i handshake hhandshake
    split
    · have hreceived : Gated role (s.record (.receivedSelect handshake.version)).gateView :=
        h.recordFree (by rintro (hact | hact) <;> cases hact)
      split
      · rename_i hown
        have hsent :
            Gated role
              (((s.record (.receivedSelect handshake.version)).cancelHandshakeTimeout.record
                (.sentSelect handshake.version)).sendRaw env).gateView :=
          sendRaw (recordFree (s := ShipConnection.cancelHandshakeTimeout _) hreceived
            (by rintro (hact | hact) <;> cases hact))
        have hadmits' := hsent.admits ((sendRaw_state _).trans hstate)
        apply hsent.setAndScheduleState
        refine ⟨hadmits'.trusted, hadmits'.ready, ?_⟩
        obtain ⟨hrole, hannounced⟩ := hadmits.handshaken
        rw [sendRaw_role, sendRaw_trace]
        change VersionAgreed s.role _
        rw [hrole]
        exact ⟨handshake.version, hown,
          ((List.singleton_sublist.mpr hannounced).cons_cons _).cons_cons _⟩
      · exact smeProtocolAbortProcedure (s := ShipConnection.cancelHandshakeTimeout _) hreceived
    · exact h.smeProtocolAbortProcedure
    · exact h.smeProtocolAbortProcedure

theorem stateSmeProtocolHandshakeClientOk (hstate : s.state = .smeProtocolHandshakeClientOk) :
    Gated role s.stateSmeProtocolHandshakeClientOk.gateView := by
  have hadmits := h.admits hstate
  exact h.setAndScheduleState ⟨hadmits.trusted, hadmits.ready, hadmits.handshaken⟩

theorem stateSmeProtocolHandshakeServerOk (hstate : s.state = .smeProtocolHandshakeServerOk) :
    Gated role s.stateSmeProtocolHandshakeServerOk.gateView := by
  have hadmits := h.admits hstate
  exact h.setAndScheduleState ⟨hadmits.trusted, hadmits.ready, hadmits.handshaken⟩

theorem stateSmePinCheckInit (hstate : s.state = .smePinCheckInit) :
    Gated role (s.stateSmePinCheckInit env).gateView := by
  have hadmits := h.admits hstate
  have hdone : Admits s.role s.protocolHandshakeVersionSelected s.trace .done :=
    ⟨hadmits.trusted, hadmits.ready, hadmits.handshaken⟩
  exact (h.setState hdone).sendRaw

theorem stateSmeAccessMethodRequest (hstate : s.state = .smeAccessMethodRequest) :
    Gated role (s.stateSmeAccessMethodRequest env).gateView := by
  have hadmits := h.admits hstate
  have hdone : Admits s.role s.protocolHandshakeVersionSelected s.trace .done :=
    ⟨hadmits.trusted, hadmits.ready, hadmits.handshaken⟩
  rw [ShipConnection.stateSmeAccessMethodRequest]
  split
  · apply sendRaw
    exact setState (s := { s with messageIncoming := _ }) h hdone
  · exact h

theorem stateDone (hstate : s.state = .done) : Gated role (s.stateDone env).gateView := by
  have hestablished :
      Gated role (if s.connectionEstablished then s else s.sendRaw env).gateView := by
    split
    · exact h
    · exact h.sendRaw
  have hstate' : (if s.connectionEstablished then s else s.sendRaw env).state = .done := by
    split
    · exact hstate
    · exact (sendRaw_state s).trans hstate
  have hadmitted := (hestablished.admits hstate').admitted
  rw [ShipConnection.stateDone]
  generalize (if s.connectionEstablished then s else s.sendRaw env) = t at *
  split
  · exact hestablished
  · split
    · split
      · exact { hestablished with datagrams := fun _ => hadmitted }
      · exact hestablished
    · rename_i hkind
      exact absurd hkind (Message.getProtocolState_ne_messageProtocolHandshake _)
    · exact sendRaw (s := { t with connectionEstablished := true }) hestablished
    · exact scheduleClose (sendRaw (s := { t with connectionEstablished := true }) hestablished)
    all_goals exact hestablished

theorem handleState : Gated role (s.handleState env).gateView := by
  rw [ShipConnection.handleState.eq_def]
  split
  case h_1 => exact h.stateCmeInitStart
  case h_2 => exact h.stateCmiClientSend
  case h_3 => exact h.stateCmiClientWait
  case h_4 => exact h.stateCmiClientEvaluate
  case h_5 => exact h.stateCmiServerWait
  case h_6 => exact h.stateCmiServerEvaluate
  case h_7 => exact h.setAndScheduleFree rfl
  case h_8 => exact h.stateSmeHello
  case h_9 hstate => exact h.stateSmeHelloReadyInit hstate
  case h_10 hstate => exact h.stateSmeHelloReadyListen hstate
  case h_11 => exact h.setAndScheduleFree rfl
  case h_12 => exact h.stateSmeHelloPendingInit
  case h_13 => exact h.stateSmeHelloPendingListen
  case h_14 => exact h.stateSmeHelloPendingTimeout
  case h_15 hstate => exact h.stateSmeHelloOk hstate
  case h_16 => exact h.stateSmeHelloAbort
  case h_18 => exact h.setAndScheduleFree rfl
  case h_19 => exact h.setAndScheduleFree rfl
  case h_20 hstate => exact h.stateSmeProtocolHandshakeServerInit hstate
  case h_21 hstate => exact h.stateSmeProtocolHandshakeClientInit hstate
  case h_22 hstate => exact h.stateSmeProtocolHandshakeServerListenProposal hstate
  case h_23 hstate => exact h.stateSmeProtocolHandshakeServerListenConfirm hstate
  case h_24 hstate => exact h.stateSmeProtocolHandshakeClientListenChoice hstate
  case h_25 => exact h.smeProtocolAbortProcedure
  case h_26 hstate => exact h.stateSmeProtocolHandshakeClientOk hstate
  case h_27 hstate => exact h.stateSmeProtocolHandshakeServerOk hstate
  case h_28 hstate => exact h.stateSmePinCheckInit hstate
  case h_38 hstate => exact h.stateSmeAccessMethodRequest hstate
  case h_39 hstate => exact h.stateDone hstate
  all_goals exact h.scheduleClose

theorem stateMachineNextStep : Gated role (s.stateMachineNextStep env).gateView :=
  stateMachineNextStep_invariant (I := fun s => Gated role s.gateView) (fun _ ht => ht.handleState)
    (fun _ ht => ht) h

end

theorem processFrame (data : List UInt8) (fin : Bool) (h : Gated role s.gateView) :
    Gated role (s.processFrame env data fin).gateView := by
  rw [ShipConnection.processFrame]
  split
  · exact h
  · split
    · exact h
    · dsimp only
      split
      · exact stateMachineNextStep
          (s := { s with messageIncoming := _, incomingMessagePending := true }) h
      · exact h

theorem step (h : Gated role s.gateView) (event : Event) :
    Gated role (ShipConnection.step env s event).gateView := by
  cases event with
  | frame data fin =>
    rw [ShipConnection.step]
    split
    · exact h.processFrame data fin
    · exact h
  | clientConnected =>
    rw [ShipConnection.step]
    split
    · exact h
    · exact scheduleStateMachineNextStep (s := { s with connected := true }) h
  | stateMachineTask =>
    rw [ShipConnection.step]
    split
    · exact stateMachineNextStep (s := { s with tasks := _ }) h
    · exact h
  | timeoutTask =>
    rw [ShipConnection.step]
    split
    · exact scheduleClose (s := { s with tasks := _ }) h
    · exact h
  | helloWaitForReadyTimer =>
    rw [ShipConnection.step]
    split
    · exact h
    · rename_i target htarget
      apply setAndScheduleFree
      · exact { h with waitTarget := fun _ hnone => nomatch hnone }
      · rcases h.waitTarget target htarget with rfl | rfl <;> rfl
  | helloSendProlongationRequestTimer | protocolHandshakeTimer =>
    rw [ShipConnection.step]
    split
    · exact setAndScheduleFree (s := { s with tasks := _ }) h rfl
    · exact h
  | helloSendProlongationReplyTimer =>
    rw [ShipConnection.step]
    split
    · exact setAndScheduleFree (s := { s with tasks := _, helloTimerExpiry := 3 }) h rfl
    · exact h
  | helloTrustCheckTimer =>
    rw [ShipConnection.step]
    split
    · exact helloTrustCheckTimerCallback (s := { s with tasks := _ }) h
    · exact h
  | setTrusted trusted => exact h
  | notifyPeerUpdated =>
    rw [ShipConnection.step]
    split
    · exact h
    · exact h.notifyTrustChanged
  | close => exact h.scheduleClose
  | initiateTermination =>
    rw [ShipConnection.step, ShipConnection.initiateTermination]
    split
    · exact h
    · exact h.sendRaw.scheduleClose
  | processDatagram =>
    rw [ShipConnection.step]
    split
    · rename_i hpos
      apply record (s := { s with scheduledDatagrams := s.scheduledDatagrams - 1 })
      · exact { h with datagrams := fun _ => h.datagrams hpos }
      · exact fun _ => h.datagrams hpos
    · exact h

theorem init (role : Role) : Gated role ({ role := role } : ShipConnection).gateView where
  role := rfl
  guarded := guarded_nil
  state := admits_of_not_needsTrust rfl
  previousState := admits_of_not_needsTrust rfl
  peerReady := fun hready => nomatch hready
  waitTarget := fun _ htarget => nomatch htarget
  previousState_ne := fun htimeout => nomatch htimeout
  datagrams := fun hpos => absurd hpos (Nat.lt_irrefl 0)

theorem create (role : Role) : Gated role (ShipConnection.create env role).gateView := by
  cases role with
  | client => exact init .client
  | server =>
    exact stateMachineNextStep (s := { role := .server, connected := true }) (init .server)

end Gated

theorem ShipConnection.run_gated (env : ShipEnvironment) (role : Role) (events : List Event) :
    Gated role (run (step env) (create env role) events).gateView :=
  run_invariant (I := fun s : ShipConnection => Gated role s.gateView)
    (fun _ event h => h.step event) (Gated.create role) events

/-- In both roles and whatever the peer sends and when: the connection is in the data exchange
only if the peer was admitted, and each time it entered it or processed a datagram, the peer had
been admitted before. -/
theorem ShipConnection.admitted_before_data_exchange (env : ShipEnvironment) (role : Role)
    (events : List Event) :
    ((run (step env) (create env role) events).state = .done →
        Admitted role (run (step env) (create env role) events).trace) ∧
      ∀ later act earlier,
        (run (step env) (create env role) events).trace = later ++ act :: earlier →
        act = .entered .done ∨ act = .processedDatagram → Admitted role earlier := by
  have h := run_gated env role events
  constructor
  · intro hdone
    have hadmitted := (h.admits hdone).admitted
    rwa [show (run (step env) (create env role) events).role = role from h.role] at hadmitted
  · intro later act earlier hsplit hact
    have hadmitted := h.guarded later act earlier hsplit hact
    rwa [h.role] at hadmitted

end Esp32Firmware.Eebus
