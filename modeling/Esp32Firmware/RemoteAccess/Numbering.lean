import Esp32Firmware.RemoteAccess.Effects

/-!
# User IDs in range

IDs are given out from 1 up to the number of users that fit in. A request that is in flight or has
been answered keeps the ID that it was made for.
-/

namespace Esp32Firmware.RemoteAccess

variable {κ : Type*}

def InRange (id : Nat) : Prop := 1 ≤ id ∧ id ≤ maxUsers

/-- A free ID is found unless all are taken, and is in range anyway. -/
theorem nextUserId_inRange (users : List User) : InRange (nextUserId users) := by
  rw [nextUserId]
  cases h : ((List.range maxUsers).map (· + 1)).find? fun i => !users.any fun user => user.id = i with
  | none => exact ⟨by decide, Nat.le_refl _⟩
  | some i =>
    obtain ⟨j, hj, rfl⟩ := List.mem_map.mp (List.mem_of_find?_eq_some h)
    exact ⟨Nat.succ_pos j, List.mem_range.mp hj⟩

/-- A further user has an ID in range. -/
def Pending.InRange : Pending κ → Prop
  | .addUser _ _ _ nextUserId _ => RemoteAccess.InRange nextUserId
  | _ => True

/-- Neither a registration nor the answer of the relay to a request. -/
def Event.addsNoUser : Event κ → Bool
  | .register _ _ | .nextStage _ _ _ _ => false
  | _ => true

namespace State

/-- What is in flight was so before or is in range. -/
def FliesInRange (s s' : State κ) : Prop := ∀ pending ∈ s'.inFlight, pending ∈ s.inFlight ∨ pending.InRange

theorem inFlight_requestError (s : State κ) (error : RelayError) (pending : Pending κ) :
    (s.requestError error pending).inFlight = s.inFlight := by
  cases pending with
  | management oldApi configuredUsers =>
    rw [requestError]
    split
    · rw [managementAuthFail]
      split <;> rfl
    · rfl
  | _ => rfl

theorem inFlight_runRequestWithNextStage {s : State κ} {nextStage pending : Pending κ}
    (h : pending ∈ (s.runRequestWithNextStage nextStage).inFlight) : pending = nextStage := by
  simp only [runRequestWithNextStage] at h
  split at h
  · exact (Option.some.inj h).symm
  · rw [inFlight_requestError] at h
    cases h

theorem fliesInRange_run (s t : State κ) {nextStage : Pending κ} (h : nextStage.InRange) :
    s.FliesInRange (t.runRequestWithNextStage nextStage) :=
  fun _ hp => .inr (inFlight_runRequestWithNextStage hp ▸ h)

theorem fliesInRange_resolve {s t : State κ} (h : t.inFlight = s.inFlight) :
    s.FliesInRange t.resolveManagement := by
  rw [resolveManagement]
  split
  · exact fliesInRange_run s _ trivial
  · exact fun _ hp => .inl (h ▸ hp)

theorem FliesInRange.of_eq {s s' : State κ} (h : s'.inFlight = s.inFlight) : s.FliesInRange s' :=
  fun _ hp => .inl (h ▸ hp)

theorem FliesInRange.of_none {s s' : State κ} (h : s'.inFlight = none) : s.FliesInRange s' :=
  fun _ hp => nomatch h ▸ hp

section

variable (s : State κ)
include s

theorem fliesInRange_register (body : RequestBody RegisterDocument)
    (fresh : Except String (FreshKeys κ)) : s.FliesInRange (s.register body fresh).1 := by
  simp only [register]
  split
  · exact .of_none rfl
  · split
    · exact .of_eq rfl
    · exact fliesInRange_run s _ trivial

theorem fliesInRange_addUser (body : RequestBody AddUserDocument)
    (fresh : Except String (FreshKeys κ)) : s.FliesInRange (s.addUser body fresh).1 := by
  rw [addUser]
  split
  · exact .of_none rfl
  · split
    · exact .of_none rfl
    · exact fliesInRange_run s _ (nextUserId_inRange s.users)

theorem fliesInRange_parseServiceToken (fresh : Except String (FreshKeys κ)) :
    s.FliesInRange (s.parseServiceToken fresh).1 := by
  rw [parseServiceToken]
  split
  · exact .of_none rfl
  · dsimp only
    split
    · exact .of_none rfl
    · split
      · exact fliesInRange_run s _ (nextUserId_inRange s.users)
      · exact fliesInRange_run s _ trivial

theorem fliesInRange_removeUser (id : Nat) : s.FliesInRange (s.removeUser id) := by
  rw [removeUser]
  split
  · exact .of_eq rfl
  · rename_i idx _
    have hforget : (if s.serviceTokenUserUuid = (s.users.getD idx ⟨0, "", "", ""⟩).uuid
        then s.forgetServiceToken else s).inFlight = s.inFlight := by
      split <;> rfl
    dsimp only
    generalize (if s.serviceTokenUserUuid = _ then s.forgetServiceToken else s) = t at hforget ⊢
    split
    · split
      · exact fliesInRange_resolve hforget
      · exact .of_eq hforget
    · exact fliesInRange_run s _ trivial

theorem fliesInRange_removal {event : Event κ} (h : event.removes = true) :
    s.FliesInRange (s.handle event).1 := by
  cases event with
  | removeUser body =>
    simp only [handle, removeUserRequest]
    split
    · exact .of_eq rfl
    · split
      · exact fliesInRange_removeUser s _
      · exact .of_eq rfl
  | removeUserPacket uuid =>
    simp only [handle, handleRemoveUserPacket]
    split
    · exact .of_eq rfl
    · split
      · exact .of_eq rfl
      · exact fliesInRange_removeUser (s.closeConnectionsOf _) _
  | serviceTokenRemoval =>
    simp only [handle, removeServiceTokenUser, retryServiceTokenRemoval]
    split
    · split
      · exact .of_eq rfl
      · split
        · split <;> exact .of_eq rfl
        · split <;> exact fliesInRange_removeUser { s with serviceTokenRemovalTask := false } _
    · exact .of_eq rfl
  | _ => cases h

theorem fliesInRange_nextStage (index : Nat) (fresh : Except String (FreshKeys κ))
    (clockSynced uplink : Bool) :
    s.FliesInRange (s.nextStage index fresh clockSynced uplink).1 := by
  rw [nextStage]
  cases s.nextStages[index]? with
  | none => exact .of_eq rfl
  | some pending =>
    cases pending with
    | serviceToken => exact fliesInRange_parseServiceToken { s with nextStages := _ } fresh
    | registration config keys publicKey email isServiceToken replaced =>
      simp only [parseRegistration]
      split
      · exact .of_none rfl
      · split
        · exact .of_none rfl
        · split
          · exact .of_eq rfl
          · split
            · exact .of_eq rfl
            · exact .of_none rfl
    | addUser keys publicKey email nextUserId isServiceToken =>
      simp only [parseAddUser]
      split
      · exact .of_none rfl
      · split
        · exact .of_none rfl
        · split <;> exact .of_eq rfl
    | management oldApi configuredUsers =>
      simp only [managementResponse]
      split
      · exact .of_none rfl
      · split
        · exact .of_none rfl
        · rw [connectManagement]
          split <;> exact .of_none rfl
    | selfdestruct => exact .of_none rfl

theorem inFlight_connectRemoteAccess (i : Nat) (clockSynced : Bool) :
    (s.connectRemoteAccess i clockSynced).inFlight = s.inFlight := by
  rw [connectRemoteAccess]
  split
  · split
    · rfl
    · split <;> rfl
  · rfl

theorem inFlight_applyConfig (uplink : Bool) : (s.applyConfig uplink).inFlight = s.inFlight := by
  rw [applyConfig]
  split <;> rfl

theorem fliesInRange_handle (event : Event κ) : s.FliesInRange (s.handle event).1 := by
  cases event with
  | register body fresh => exact fliesInRange_register s body fresh
  | addUser body fresh => exact fliesInRange_addUser s body fresh
  | removeUser body | removeUserPacket uuid | serviceTokenRemoval =>
    exact fliesInRange_removal s rfl
  | serviceTokenRegister =>
    simp only [handle, serviceTokenRegister]
    split
    · exact .of_eq rfl
    · exact fliesInRange_run s _ trivial
  | responseChunk body =>
    simp only [handle, responseChunk]
    split <;> exact .of_eq rfl
  | requestFinished =>
    simp only [handle, requestFinished]
    split
    · exact .of_eq rfl
    · exact .of_none rfl
  | requestError error =>
    simp only [handle]
    split
    · exact .of_eq rfl
    · exact .of_none (inFlight_requestError _ error _)
  | nextStage index fresh clockSynced uplink =>
    exact fliesInRange_nextStage s index fresh clockSynced uplink
  | cleanup =>
    simp only [handle]
    split
    · exact .of_eq rfl
    · exact .of_none rfl
  | connectCommand connectionNo connectionUuid connectClosed portFound =>
    simp only [handle, connectCommand]
    split
    · split
      · exact .of_eq rfl
      · split
        · exact .of_eq rfl
        · split
          · exact .of_eq rfl
          · split <;> exact .of_eq rfl
    · exact .of_eq rfl
  | disconnectCommand connectionNo =>
    simp only [handle, disconnectCommand]
    split <;> exact .of_eq rfl
  | lookupDone index answerSent clockSynced =>
    simp only [handle, lookupDone]
    split
    · exact .of_eq rfl
    · split
      · exact .of_eq rfl
      · cases answerSent with
        | false => exact .of_eq rfl
        | true => exact .of_eq (inFlight_connectRemoteAccess _ _ clockSynced)
  | connectRetry index clockSynced =>
    simp only [handle, connectRetry]
    split
    · exact .of_eq rfl
    · exact .of_eq (inFlight_connectRemoteAccess _ _ clockSynced)
  | managementRetry clockSynced =>
    simp only [handle, connectManagement]
    split
    · exact .of_eq rfl
    · split <;> exact .of_eq rfl
  | managementLost | managementTimeout | configUpdate enable => exact .of_eq rfl
  | resolveTick =>
    simp only [handle, resolveTick]
    split
    · exact fliesInRange_resolve rfl
    · exact .of_eq rfl
  | applyConfigTask uplink =>
    simp only [handle]
    split
    · exact .of_eq rfl
    · exact .of_eq (inFlight_applyConfig _ uplink)
  | networkChange uplink => exact .of_eq (inFlight_applyConfig s uplink)

end

/-- The IDs of the users, and those that requests will give out, are in range. -/
structure Numbered (s : State κ) : Prop where
  users : ∀ user ∈ s.users, InRange user.id
  inFlight : ∀ pending ∈ s.inFlight, pending.InRange
  nextStages : ∀ pending ∈ s.nextStages, pending.InRange

variable (s : State κ)

/-- The users after a user was removed. -/
theorem users_removeUser (id : Nat) :
    (s.removeUser id).users = s.users.eraseP fun user => user.id = id := by
  rw [List.eraseP_eq_eraseIdx]
  cases h : s.users.findIdx? fun user => user.id = id with
  | none => rw [core_removeUser_unknown h]
  | some idx =>
    refine (congrArg Core.users (core_removeUser h)).trans ?_
    dsimp only
    split <;> rfl

/-- What a removal does to the users; answered requests are not touched. -/
theorem users_handle_removes {event : Event κ} (h : event.removes = true) :
    (s.handle event).1.users = (match s.removalTarget event with
        | none => s.users
        | some id => s.users.eraseP fun user => user.id = id) ∧
      (s.handle event).1.nextStages = s.nextStages := by
  have hcore := core_handle_removes s h
  cases htarget : s.removalTarget event with
  | none =>
    rw [htarget] at hcore
    exact ⟨congrArg Core.users hcore, congrArg Core.nextStages hcore⟩
  | some id =>
    rw [htarget] at hcore
    dsimp only at hcore ⊢
    obtain ⟨t, ht⟩ : ∃ t, t = if event.closes then s.closeConnectionsOf id else s := ⟨_, rfl⟩
    have hsame : t.users = s.users ∧ t.nextStages = s.nextStages := by
      rw [ht]
      split <;> exact ⟨rfl, rfl⟩
    rw [← ht] at hcore
    refine ⟨(congrArg Core.users hcore).trans ?_, (congrArg Core.nextStages hcore).trans ?_⟩
    · exact (users_removeUser t id).trans (by rw [hsame.1])
    · cases hfind : t.users.findIdx? fun user => user.id = id with
      | none =>
        rw [core_removeUser_unknown hfind]
        exact hsame.2
      | some idx =>
        refine (congrArg Core.nextStages (core_removeUser hfind)).trans ?_
        dsimp only
        split <;> exact hsame.2

theorem removalTarget_of_not_removes {event : Event κ}
    (h : event.removes = false) : s.removalTarget event = none := by
  cases event <;> first
    | rfl
    | exact absurd h.symm Bool.false_ne_true

theorem aborted_removeUser (id : Nat) : (s.removeUser id).aborted = s.aborted := by
  cases h : s.users.findIdx? fun user => user.id = id with
  | none => rw [core_removeUser_unknown h]
  | some idx =>
    refine (congrArg Core.aborted (core_removeUser h)).trans ?_
    dsimp only
    split <;> rfl

theorem aborted_handle_removes {event : Event κ} (h : event.removes = true) :
    (s.handle event).1.aborted = s.aborted := by
  refine (congrArg Core.aborted (core_handle_removes s h)).trans ?_
  split
  · rfl
  · split
    · exact aborted_removeUser (s.closeConnectionsOf _) _
    · exact aborted_removeUser s _

/-- Of the users at most one goes, the one whom the event removes. -/
theorem handle_addsNoUser {event : Event κ} (h : event.addsNoUser = true) :
    (s.handle event).1.users = (match s.removalTarget event with
        | none => s.users
        | some id => s.users.eraseP fun user => user.id = id) ∧
      (s.handle event).1.aborted = s.aborted := by
  cases hremoves : event.removes with
  | true => exact ⟨(users_handle_removes s hremoves).1, aborted_handle_removes s hremoves⟩
  | false =>
    rw [removalTarget_of_not_removes s hremoves]
    by_cases hquiet : event.keepsStored = true
    · have hstored := sameStored_handle s hquiet
      exact ⟨hstored.users, hstored.aborted⟩
    · cases event with
      | register body fresh | nextStage index fresh clockSynced uplink =>
        exact absurd h Bool.false_ne_true
      | requestFinished =>
        simp only [handle, requestFinished]
        split <;> exact ⟨rfl, rfl⟩
      | configUpdate enable => exact ⟨rfl, rfl⟩
      | applyConfigTask uplink =>
        have hstored := applyConfigTask_stored s uplink
        exact ⟨hstored.users, hstored.aborted⟩
      | removeUser body | removeUserPacket uuid | serviceTokenRemoval =>
        exact absurd hremoves.symm Bool.false_ne_true
      | _ => exact absurd rfl hquiet

theorem Document.ids_keeps {doc : Document} {users : List User} {user : User}
    (h : user ∈ doc.keeps users) : ∃ old ∈ users, old.id = user.id := by
  obtain ⟨⟨old, idx⟩, hentry, rfl⟩ := List.mem_map.mp h
  refine ⟨old, ?_, (doc.update_id idx old).symm⟩
  exact (List.mem_zipIdx' (List.mem_filter.mp hentry).1).2 ▸ List.getElem_mem _

namespace Numbered

variable {s s' : State κ}

theorem nextStage (h : s.Numbered) (index : Nat) (fresh : Except String (FreshKeys κ))
    (clockSynced uplink : Bool) :
    (∀ user ∈ (s.nextStage index fresh clockSynced uplink).1.users, InRange user.id) ∧
      ∀ pending ∈ (s.nextStage index fresh clockSynced uplink).1.nextStages, pending.InRange := by
  rw [State.nextStage]
  cases hstage : s.nextStages[index]? with
  | none => exact ⟨h.users, h.nextStages⟩
  | some pending =>
    have hpending := h.nextStages pending (List.mem_of_getElem? hstage)
    have hrest : ∀ p ∈ s.nextStages.eraseIdx index, p.InRange := fun p hp =>
      h.nextStages p (List.mem_of_mem_eraseIdx hp)
    obtain ⟨t, ht⟩ : ∃ t, t = { s with nextStages := s.nextStages.eraseIdx index } := ⟨_, rfl⟩
    have husers : ∀ user ∈ t.core.users, InRange user.id := by
      rw [ht]
      exact h.users
    have hstages : ∀ p ∈ t.core.nextStages, p.InRange := by
      rw [ht]
      exact hrest
    dsimp only
    rw [← ht]
    have hnext {s' : State κ} {c : Core κ} (hcore : s'.core = c)
        (hnew : ∀ user ∈ c.users, user ∈ t.core.users ∨ InRange user.id)
        (hleft : c.nextStages = t.core.nextStages) :
        (∀ user ∈ s'.users, InRange user.id) ∧ ∀ p ∈ s'.nextStages, p.InRange := by
      subst hcore
      exact ⟨fun user hu => (hnew user hu).elim (husers user) id, fun p hp => hstages p (hleft ▸ hp)⟩
    cases pending with
    | serviceToken => exact hnext (core_parseServiceToken t fresh) (fun _ => .inl) rfl
    | registration config keys publicKey email isServiceToken replaced =>
      obtain hcore | ⟨management, -, -, ⟨message, hcore⟩ | ⟨-, user, connections, hid, hcore, -⟩⟩ :=
        core_parseRegistration t config keys publicKey email isServiceToken uplink
      · exact hnext hcore (fun _ => .inl) rfl
      · exact hnext hcore (fun _ => .inl) rfl
      · refine hnext hcore (fun u hu => ?_) rfl
        rw [List.mem_singleton.mp hu, hid]
        exact .inr ⟨Nat.le_refl 1, by decide⟩
    | addUser keys publicKey email nextUserId isServiceToken =>
      obtain hcore | ⟨-, -, message, hcore⟩ | ⟨-, -, user, hid, hcore⟩ :=
        core_parseAddUser t keys publicKey email nextUserId isServiceToken
      · exact hnext hcore (fun _ => .inl) rfl
      · exact hnext hcore (fun _ => .inl) rfl
      · refine hnext hcore (fun u hu => ?_) rfl
        obtain hu | hu := List.mem_append.mp hu
        · exact .inl hu
        · rw [List.mem_singleton.mp hu, hid]
          exact .inr hpending
    | management oldApi configuredUsers =>
      obtain hcore | ⟨doc, -, -, hcore⟩ := core_managementResponse t oldApi clockSynced
      · exact hnext hcore (fun _ => .inl) rfl
      · refine hnext hcore (fun u hu => ?_) rfl
        obtain ⟨old, hold, hid⟩ := Document.ids_keeps hu
        exact .inr (hid ▸ husers old hold)
    | selfdestruct => exact hnext rfl (fun _ => .inl) rfl

theorem handle (h : s.Numbered) (event : Event κ) : (s.handle event).1.Numbered := by
  have hfly : ∀ pending ∈ (s.handle event).1.inFlight, pending.InRange := fun pending hp =>
    (fliesInRange_handle s event pending hp).elim (h.inFlight pending) id
  by_cases hquiet : event.keepsStored = true
  · have hstored := sameStored_handle s hquiet
    exact ⟨hstored.users ▸ h.users, hfly, hstored.nextStages ▸ h.nextStages⟩
  · by_cases hremoves : event.removes = true
    · obtain ⟨husers, hstages⟩ := users_handle_removes s hremoves
      refine ⟨?_, hfly, hstages ▸ h.nextStages⟩
      rw [husers]
      split
      · exact h.users
      · exact fun user hu => h.users user (List.mem_of_mem_eraseP hu)
    · cases event with
      | register body fresh =>
        have hcore := core_register s body fresh
        have husers : (s.register body fresh).1.users = [] := congrArg Core.users hcore
        have hstages : (s.register body fresh).1.nextStages = s.nextStages :=
          congrArg Core.nextStages hcore
        simp only [State.handle] at hfly ⊢
        exact ⟨by rw [husers]; exact fun _ hu => absurd hu List.not_mem_nil, hfly,
          hstages ▸ h.nextStages⟩
      | requestFinished =>
        refine ⟨?_, hfly, ?_⟩
        · simp only [State.handle, requestFinished]
          split <;> exact h.users
        · simp only [State.handle, requestFinished]
          split
          · exact h.nextStages
          · rename_i pending hflight
            intro p hp
            obtain hp | hp := List.mem_append.mp hp
            · exact h.nextStages p hp
            · exact h.inFlight p (List.mem_singleton.mp hp ▸ hflight)
      | nextStage index fresh clockSynced uplink =>
        obtain ⟨husers, hstages⟩ := h.nextStage index fresh clockSynced uplink
        exact ⟨husers, hfly, hstages⟩
      | configUpdate enable => exact ⟨h.users, hfly, h.nextStages⟩
      | applyConfigTask uplink =>
        have hstored := applyConfigTask_stored s uplink
        exact ⟨hstored.users ▸ h.users, hfly, hstored.nextStages ▸ h.nextStages⟩
      | removeUser body | removeUserPacket uuid | serviceTokenRemoval => exact absurd rfl hremoves
      | _ => exact absurd rfl hquiet

theorem step (h : s.Numbered) (event : Event κ) : (s.step event).Numbered := by
  rw [State.step]
  split
  · exact h
  · exact h.handle event

theorem setup (config : StoredConfig κ) : config.setup.Numbered where
  users := config.ids_in_range
  inFlight _ hp := nomatch hp
  nextStages _ hp := absurd hp List.not_mem_nil

theorem after (config : StoredConfig κ) (events : List (Event κ)) :
    (config.after events).Numbered :=
  run_invariant (I := fun s : State κ => s.Numbered) (fun _ event h => h.step event)
    (setup config) events

end Numbered

end State

end Esp32Firmware.RemoteAccess
