import Esp32Firmware.RemoteAccess.Numbering

/-!
# Registrations that fail

A registration and a further user take a request of the web interface, a request to the relay and
its answer. The list of users is emptied before the first check, keys are stored before the last
one, and the ID of a further user is chosen when it is asked for. A request that finds another one
in flight is lost, and the other one ends in an error.

## Implementation notes

That a request ended in an error without a trace is said of its last step, and of the users that
its handler has replaced before. An error of a request in flight schedules a cleanup.
-/

namespace Esp32Firmware.RemoteAccess

variable {κ : Type*}

/-- The users that the handler of a request has replaced. -/
def Pending.replaced : Pending κ → List User
  | .registration _ _ _ _ _ replaced => replaced
  | _ => []

/-- The answer to a registration if it passes the checks. -/
def ResponseBody.acceptedRegistration (body : ResponseBody) : Option Document :=
  match body.document with
  | .error _ => none
  | .ok doc =>
    if doc.chargerUuid.isNullText || doc.chargerPassword.isNullText ||
        doc.managementPub.isNullText then none
    else some doc

/-- The handler that empties the list of users. -/
def Event.registers : Event κ → Bool
  | .register _ _ => true
  | _ => false

namespace State

/-- The removal of a user sends a request to the relay. -/
def removalStarts (s : State κ) (id : Nat) : Bool :=
  if (s.users.eraseP fun user => user.id = id).any fun user => user.id ≠ 255 then
    !s.managementRequestDone && !s.managementAuthFailed && s.managementRequestAllowed
  else true

/-- An event sends a request to the relay. -/
def startsRequest (s : State κ) : Event κ → Bool
  | .register body fresh => (checkRegister body).isOk && fresh.isOk
  | .addUser body fresh => (checkAddUser s.users body).isOk && fresh.isOk
  | .serviceTokenRegister => s.serviceTokenUserUuid = ""
  | .nextStage index fresh _ _ =>
    match s.nextStages[index]? with
    | some .serviceToken => s.responseBody.token.isOk && fresh.isOk
    | _ => false
  | .resolveTick =>
    s.resolveTask && !s.managementRequestDone && !s.managementAuthFailed &&
      s.managementRequestAllowed
  | event =>
    match s.removalTarget event with
    | none => false
    | some id => s.removalStarts id

/-- A request in flight ends in an error. -/
def tellsError (s : State κ) : Event κ → Bool
  | .requestError _ => true
  | event => s.startsRequest event

/-- The requests that end in an error with an event. -/
def failing (s : State κ) (event : Event κ) : List (Pending κ) :=
  (if s.cleanups < (s.handle event).1.cleanups then s.inFlight.toList else []) ++
    match event with
    | .nextStage index _ _ _ =>
      if (s.handle event).2.isSome then s.nextStages[index]?.toList else []
    | _ => []

/-- An error leaves the users and their key files alone, and so did the handlers of the requests
that end in it. The handler of a registration that is lost also ends in one. -/
structure Atomic (s : State κ) (event : Event κ) : Prop where
  error : ((s.handle event).2.isSome = true ∨
      (event.registers = true ∧ s.cleanups < (s.handle event).1.cleanups)) →
    (s.handle event).1.users = s.users ∧
      ∀ user ∈ s.users, ∀ k, (s.handle event).1.keys user.id k = s.keys user.id k
  failing : ∀ pending ∈ s.failing event, pending.replaced = []

/-- A registration with users to replace passes the checks and is answered as expected, with no
other user there by then. A further user has an ID that is still free. -/
def orderlyStage (s : State κ) : Pending κ → Bool
  | .registration _ _ _ _ _ replaced =>
    match s.responseBody.acceptedRegistration with
    | none => replaced.isEmpty
    | some doc => doc.chargerPassword.isString && s.users.isEmpty
  | .addUser _ _ _ nextUserId _ => s.users.all fun user => user.id ≠ nextUserId
  | _ => true

/-- The handler of a registration with users to replace finds no fault and no other request in
flight. -/
def orderlyEvent (s : State κ) : Event κ → Bool
  | .register body fresh =>
    s.users.isEmpty || (s.inFlight.isNone && (checkRegister body).isOk && fresh.isOk)
  | .nextStage index _ _ _ => s.nextStages[index]?.all s.orderlyStage
  | _ => true

/-- No request that has replaced users ends in an error while it is in flight. -/
def orderly (s : State κ) (event : Event κ) : Bool :=
  (!s.tellsError event || s.inFlight.all fun pending => pending.replaced.isEmpty) &&
    s.orderlyEvent event

theorem cleanups_syncLoop (doc : Document) (indices : List Nat) (s : State κ) :
    (indices.foldl (syncUser doc) s).cleanups = s.cleanups := by
  induction indices generalizing s with
  | nil => rfl
  | cons idx rest ih =>
    rw [List.foldl_cons, ih, syncUser]
    split
    · rfl
    · split
      · dsimp only
        split <;> rfl
      · dsimp only
        split <;> rfl

theorem cleanups_managementResponse (s : State κ) (oldApi clockSynced : Bool) :
    (s.managementResponse oldApi clockSynced).cleanups = s.cleanups := by
  simp only [managementResponse]
  split
  · rfl
  · split
    · rfl
    · rename_i doc _ _
      have hsync (t : State κ) : (t.syncUsers doc).forgetMissingServiceUser.cleanups =
          t.cleanups := by
        rw [forgetMissingServiceUser]
        split <;> exact cleanups_syncLoop doc _ t
      rw [connectManagement]
      split <;> exact hsync _

theorem cleanups_applyConfig (s : State κ) (uplink : Bool) :
    (s.applyConfig uplink).cleanups = s.cleanups := by
  rw [applyConfig]
  split <;> rfl

theorem cleanups_connectRemoteAccess (s : State κ) (i : Nat) (clockSynced : Bool) :
    (s.connectRemoteAccess i clockSynced).cleanups = s.cleanups := by
  rw [connectRemoteAccess]
  split
  · split
    · rfl
    · split <;> rfl
  · rfl

theorem cleanups_removeUser {s : State κ} {id : Nat} (h : s.removalStarts id = false) :
    (s.removeUser id).cleanups = s.cleanups := by
  simp only [removalStarts, List.eraseP_eq_eraseIdx] at h
  simp only [removeUser]
  cases hfind : s.users.findIdx? fun user => user.id = id with
  | none => rfl
  | some idx =>
    rw [hfind] at h
    obtain ⟨t, ht⟩ : ∃ t, t = if s.serviceTokenUserUuid = (s.users.getD idx ⟨0, "", "", ""⟩).uuid
        then s.forgetServiceToken else s := ⟨_, rfl⟩
    have hsame : t.users = s.users ∧ t.managementRequestDone = s.managementRequestDone ∧
        t.managementAuthFailed = s.managementAuthFailed ∧
        t.managementRequestAllowed = s.managementRequestAllowed ∧ t.cleanups = s.cleanups := by
      rw [ht]
      split <;> exact ⟨rfl, rfl, rfl, rfl, rfl⟩
    obtain ⟨husers, hdone, hfailed, hallowed, hcleanups⟩ := hsame
    dsimp only at h ⊢
    rw [← ht, husers]
    split at h
    · rename_i hleft
      rw [if_pos hleft]
      split
      · rename_i hgate
        rw [hdone, hfailed] at hgate
        rw [hgate, Bool.true_and] at h
        simp only [hallowed, h]
        exact hcleanups
      · exact hcleanups
    · exact absurd h.symm Bool.false_ne_true

variable {event : Event κ} {index : Nat} {fresh : Except String (FreshKeys κ)}
  {clockSynced uplink : Bool}

section

variable {s : State κ}

theorem cleanups_removal (hremoves : event.removes = true)
    (h : s.startsRequest event = false) : (s.handle event).1.cleanups = s.cleanups := by
  cases event with
  | removeUser body =>
    simp only [startsRequest, removalTarget] at h
    simp only [handle, removeUserRequest]
    split
    · rfl
    · rename_i id hbody
      rw [hbody] at h
      dsimp only at h
      split
      · rename_i hexists
        rw [if_pos hexists] at h
        exact cleanups_removeUser h
      · rfl
  | removeUserPacket uuid =>
    simp only [startsRequest, removalTarget] at h
    simp only [handle, handleRemoveUserPacket]
    split
    · rfl
    · rename_i user hfind
      rw [hfind] at h
      dsimp only at h
      split
      · rfl
      · rename_i hid
        rw [if_neg hid] at h
        exact cleanups_removeUser (s := s.closeConnectionsOf user.id) h
  | serviceTokenRemoval =>
    simp only [startsRequest, removalTarget] at h
    simp only [handle, removeServiceTokenUser, retryServiceTokenRemoval]
    split
    · rename_i htask
      rw [htask, Bool.true_and] at h
      split
      · rfl
      · rename_i huuid
        rw [if_pos (by simpa using huuid)] at h
        split
        · split <;> rfl
        · rename_i user hfind
          have hfind' : (s.users.find? fun user => user.uuid = s.serviceTokenUserUuid) =
              some user := hfind
          rw [hfind', Option.map_some] at h
          have hremove := @cleanups_removeUser _
            { s with serviceTokenRemovalTask := false } user.id h
          split <;> exact hremove
    · rfl
  | _ => exact absurd hremoves Bool.false_ne_true

theorem cleanups_nextStage
    (h : s.startsRequest (.nextStage index fresh clockSynced uplink) = false) :
    (s.nextStage index fresh clockSynced uplink).1.cleanups = s.cleanups := by
  simp only [startsRequest] at h
  rw [nextStage]
  cases hstage : s.nextStages[index]? with
  | none => rfl
  | some pending =>
    rw [hstage] at h
    cases pending with
    | serviceToken =>
      simp only [parseServiceToken]
      split
      · rfl
      · rename_i token htoken
        have htoken' : s.responseBody.token = .ok token := htoken
        rw [htoken'] at h
        cases fresh with
        | error text => rfl
        | ok keys => exact absurd h.symm Bool.false_ne_true
    | registration config keys publicKey email isServiceToken replaced =>
      simp only [parseRegistration]
      split
      · rfl
      · split
        · rfl
        · split
          · rfl
          · split
            · rfl
            · exact cleanups_applyConfig _ uplink
    | addUser keys publicKey email nextUserId isServiceToken =>
      simp only [parseAddUser]
      split
      · rfl
      · split
        · rfl
        · split <;> rfl
    | management oldApi configuredUsers => exact cleanups_managementResponse _ oldApi clockSynced
    | selfdestruct => rfl

/-- Only an event that sends a request, or fails the one in flight, tells that one an error. -/
theorem cleanups_handle (h : s.tellsError event = false) :
    (s.handle event).1.cleanups ≤ s.cleanups := by
  cases event with
  | register body fresh =>
    simp only [tellsError, startsRequest] at h
    simp only [handle, register]
    cases hcheck : checkRegister body with
    | error rejected => exact Nat.le_refl _
    | ok checked =>
      rw [hcheck] at h
      cases fresh with
      | error text => exact Nat.le_refl _
      | ok keys => exact absurd h.symm Bool.false_ne_true
  | addUser body fresh =>
    simp only [tellsError, startsRequest] at h
    simp only [handle, addUser]
    cases hcheck : checkAddUser s.users body with
    | error rejected => exact Nat.le_refl _
    | ok checked =>
      rw [hcheck] at h
      cases fresh with
      | error text => exact Nat.le_refl _
      | ok keys => exact absurd h.symm Bool.false_ne_true
  | removeUser body | removeUserPacket uuid | serviceTokenRemoval =>
    exact Nat.le_of_eq (cleanups_removal rfl h)
  | serviceTokenRegister =>
    simp only [tellsError, startsRequest, decide_eq_false_iff_not] at h
    simp only [handle, serviceTokenRegister, ne_eq, h]
    exact Nat.le_refl _
  | responseChunk body =>
    simp only [handle, responseChunk]
    split <;> exact Nat.le_refl _
  | requestFinished =>
    simp only [handle, requestFinished]
    split <;> exact Nat.le_refl _
  | requestError error => exact absurd h.symm Bool.false_ne_true
  | nextStage index fresh clockSynced uplink => exact (cleanups_nextStage h).le
  | cleanup =>
    simp only [handle]
    split
    · exact Nat.le_refl _
    · exact Nat.sub_le _ _
  | connectCommand connectionNo connectionUuid connectClosed portFound =>
    simp only [handle, connectCommand]
    split
    · split
      · exact Nat.le_refl _
      · split
        · exact Nat.le_refl _
        · split
          · exact Nat.le_refl _
          · split <;> exact Nat.le_refl _
    · exact Nat.le_refl _
  | disconnectCommand connectionNo =>
    simp only [handle, disconnectCommand]
    split <;> exact Nat.le_refl _
  | lookupDone index answerSent clockSynced =>
    simp only [handle, lookupDone]
    split
    · exact Nat.le_refl _
    · split
      · exact Nat.le_refl _
      · cases answerSent with
        | false => exact Nat.le_refl _
        | true => exact (cleanups_connectRemoteAccess _ _ clockSynced).le
  | connectRetry index clockSynced =>
    simp only [handle, connectRetry]
    split
    · exact Nat.le_refl _
    · exact (cleanups_connectRemoteAccess _ _ clockSynced).le
  | managementRetry clockSynced =>
    simp only [handle, connectManagement]
    split
    · exact Nat.le_refl _
    · split <;> exact Nat.le_refl _
  | managementLost | managementTimeout | configUpdate enable => exact Nat.le_refl _
  | resolveTick =>
    simp only [tellsError, startsRequest] at h
    simp only [handle, resolveTick]
    split
    · rename_i hgate
      rw [hgate, Bool.true_and] at h
      rw [resolveManagement, h]
      exact Nat.le_refl _
    · exact Nat.le_refl _
  | applyConfigTask uplink =>
    simp only [handle]
    split
    · exact Nat.le_refl _
    · exact (cleanups_applyConfig _ uplink).le
  | networkChange uplink => exact (cleanups_applyConfig s uplink).le

theorem replaced_of_failing (h : s.orderly event = true) {pending : Pending κ}
    (hp : pending ∈ s.failing event) : pending.replaced = [] := by
  rw [orderly, Bool.and_eq_true] at h
  obtain ⟨htold, hevent⟩ := h
  obtain hp | hp := List.mem_append.mp hp
  · split at hp
    · rename_i hcleanups
      have htells : s.tellsError event = true := by
        by_contra hquiet
        exact absurd (cleanups_handle (Bool.not_eq_true _ ▸ hquiet)) (Nat.not_le_of_lt hcleanups)
      rw [htells, Bool.not_true, Bool.false_or, Option.mem_toList.mp hp] at htold
      exact List.isEmpty_iff.mp htold
    · exact absurd hp List.not_mem_nil
  · cases event with
    | nextStage index fresh clockSynced uplink =>
      dsimp only at hp
      split at hp
      · rename_i herror
        have hstage : s.nextStages[index]? = some pending := Option.mem_toList.mp hp
        simp only [orderlyEvent, hstage, Option.all_some] at hevent
        cases pending with
        | registration config keys publicKey email isServiceToken replaced =>
          simp only [orderlyStage] at hevent
          simp only [handle, nextStage, hstage, parseRegistration] at herror
          cases hdoc : s.responseBody.document with
          | error text =>
            simp only [ResponseBody.acceptedRegistration, hdoc] at hevent
            exact List.isEmpty_iff.mp hevent
          | ok doc =>
            simp only [ResponseBody.acceptedRegistration, hdoc] at hevent herror
            split at herror
            · rename_i hfields
              rw [if_pos hfields] at hevent
              exact List.isEmpty_iff.mp hevent
            · split at herror
              · exact absurd herror (by simp)
              · split at herror <;> exact absurd herror (by simp)
        | _ => rfl
      · exact absurd hp List.not_mem_nil
    | _ => exact absurd hp List.not_mem_nil

theorem nextStage_error (h : s.orderly (.nextStage index fresh clockSynced uplink) = true)
    (herror : (s.nextStage index fresh clockSynced uplink).2.isSome = true) :
    (s.nextStage index fresh clockSynced uplink).1.users = s.users ∧ ∀ user ∈ s.users, ∀ k,
        (s.nextStage index fresh clockSynced uplink).1.keys user.id k = s.keys user.id k := by
  rw [orderly, Bool.and_eq_true] at h
  have hevent := h.2
  simp only [orderlyEvent] at hevent
  rw [nextStage] at herror ⊢
  cases hstage : s.nextStages[index]? with
  | none => exact ⟨rfl, fun _ _ _ => rfl⟩
  | some pending =>
    simp only [hstage, Option.all_some] at hevent herror ⊢
    obtain ⟨t, ht⟩ : ∃ t, t = { s with nextStages := s.nextStages.eraseIdx index } := ⟨_, rfl⟩
    have husers : t.users = s.users := by rw [ht]
    have hkeys : t.keys = s.keys := by rw [ht]
    rw [← ht] at herror ⊢
    rw [← husers, ← hkeys]
    have hsame {s' : State κ} (hcore : s'.core = t.core) :
        s'.users = t.users ∧ ∀ user ∈ t.users, ∀ k, s'.keys user.id k = t.keys user.id k :=
      ⟨congrArg Core.users hcore,
        fun user _ k => congrFun (congrFun (congrArg Core.keys hcore) user.id) k⟩
    cases pending with
    | serviceToken => exact hsame (core_parseServiceToken t fresh)
    | registration config keys publicKey email isServiceToken replaced =>
      obtain hcore | ⟨management, -, hnone, -⟩ :=
        core_parseRegistration t config keys publicKey email isServiceToken uplink
      · exact hsame hcore
      · simp only [hnone] at herror
        exact absurd herror (by simp)
    | addUser keys publicKey email nextUserId isServiceToken =>
      simp only [orderlyStage, List.all_eq_true, decide_eq_true_eq] at hevent
      obtain hcore | ⟨hnone, -⟩ | ⟨hnone, -⟩ :=
        core_parseAddUser t keys publicKey email nextUserId isServiceToken
      · refine ⟨congrArg Core.users hcore, fun user huser k => ?_⟩
        have hfiles := congrFun (congrFun (congrArg Core.keys hcore) user.id) k
        exact hfiles.trans (KeyFiles.storeKeys_of_ne (hevent user (husers ▸ huser)) k keys 0)
      · simp only [hnone] at herror
        exact absurd herror (by simp)
      · simp only [hnone] at herror
        exact absurd herror (by simp)
    | management oldApi configuredUsers | selfdestruct => exact absurd herror (by simp)

/-- The handler of a registration that is rejected, or lost, had no users to replace. -/
theorem register_error {body : RequestBody RegisterDocument}
    {fresh : Except String (FreshKeys κ)} (h : s.orderly (.register body fresh) = true)
    (herror : (s.handle (.register body fresh)).2.isSome = true ∨
      s.cleanups < (s.handle (.register body fresh)).1.cleanups) : s.users = [] := by
  rw [orderly, Bool.and_eq_true] at h
  have hevent := h.2
  rw [orderlyEvent, Bool.or_eq_true] at hevent
  obtain hempty | hgood := hevent
  · exact List.isEmpty_iff.mp hempty
  · simp only [Bool.and_eq_true, Option.isNone_iff_eq_none] at hgood
    obtain ⟨⟨hflight, hcheck⟩, hfresh⟩ := hgood
    simp only [handle, register] at herror
    cases hbody : checkRegister body with
    | error rejected =>
      rw [hbody] at hcheck
      exact absurd hcheck Bool.false_ne_true
    | ok checked =>
      cases fresh with
      | error text => exact absurd hfresh Bool.false_ne_true
      | ok keys =>
        simp only [hbody, hflight] at herror
        obtain herror | hmore := herror
        · exact absurd herror Bool.false_ne_true
        · exact absurd hmore (Nat.lt_irrefl _)

theorem Atomic.of_orderly (h : s.orderly event = true) : s.Atomic event where
  failing _ hp := replaced_of_failing h hp
  error herror := by
    by_cases hquiet : event.keepsStored = true
    · have hstored := sameStored_handle s hquiet
      exact ⟨hstored.users, fun user _ k => congrFun (congrFun hstored.keys user.id) k⟩
    · cases event with
      | register body fresh =>
        have hempty := register_error h (by simpa [Event.registers] using herror)
        have hcore := core_register s body fresh
        have husers : (s.register body fresh).1.users = [] := congrArg Core.users hcore
        simp only [hempty]
        exact ⟨husers, fun user huser => absurd huser List.not_mem_nil⟩
      | nextStage index fresh clockSynced uplink =>
        obtain herror | ⟨hregisters, -⟩ := herror
        · exact nextStage_error h herror
        · exact absurd hregisters Bool.false_ne_true
      | removeUser body =>
        obtain herror | ⟨hregisters, -⟩ := herror
        · simp only [handle, removeUserRequest] at herror ⊢
          cases hbody : body.read with
          | error rejected => exact ⟨rfl, fun _ _ _ => rfl⟩
          | ok id =>
            simp only [hbody] at herror ⊢
            split at herror
            · exact absurd herror Bool.false_ne_true
            · rename_i hunknown
              rw [if_neg hunknown]
              exact ⟨rfl, fun _ _ _ => rfl⟩
        · exact absurd hregisters Bool.false_ne_true
      | requestFinished | removeUserPacket uuid | serviceTokenRemoval | configUpdate enable
      | applyConfigTask uplink =>
        obtain herror | ⟨hregisters, -⟩ := herror
        · exact absurd herror Bool.false_ne_true
        · exact absurd hregisters Bool.false_ne_true
      | _ => exact absurd rfl hquiet

end

/-- The users have IDs of their own in range, and the device is running. -/
structure Sound (s : State κ) : Prop extends s.Numbered where
  distinct : (s.users.map User.id).Nodup
  running : s.aborted = none

/-- As long as an ID is free there is room for a user. -/
theorem users_length_lt {users : List User} (hrange : ∀ user ∈ users, InRange user.id)
    (hdistinct : (users.map User.id).Nodup) {id : Nat} (hid : InRange id)
    (hfree : ∀ user ∈ users, user.id ≠ id) : users.length < maxUsers := by
  have hnodup : (id :: users.map User.id).Nodup := by
    refine List.nodup_cons.mpr ⟨fun hmem => ?_, hdistinct⟩
    obtain ⟨user, huser, rfl⟩ := List.mem_map.mp hmem
    exact hfree user huser rfl
  have hsub : (id :: users.map User.id) ⊆ List.range' 1 maxUsers := by
    intro i hi
    rw [List.mem_range'_1]
    obtain rfl | hi := List.mem_cons.mp hi
    · exact ⟨hid.1, Nat.lt_one_add_iff.mpr hid.2⟩
    · obtain ⟨user, huser, rfl⟩ := List.mem_map.mp hi
      exact ⟨(hrange user huser).1, Nat.lt_one_add_iff.mpr (hrange user huser).2⟩
  have hlength := (List.subperm_of_subset hnodup hsub).length_le
  rw [List.length_cons, List.length_map, List.length_range'] at hlength
  exact hlength

theorem aborted_applyConfig (s : State κ) (uplink : Bool) :
    (s.applyConfig uplink).aborted = s.aborted := by
  rw [applyConfig]
  split <;> rfl

theorem aborted_parseRegistration {s : State κ} {config : RegistrationConfig}
    {keys : FreshKeys κ} {publicKey email : String} {isServiceToken uplink : Bool}
    (h : ∀ doc ∈ s.responseBody.acceptedRegistration,
      doc.chargerPassword.isString = true ∧ s.users = []) :
    (s.parseRegistration config keys publicKey email isServiceToken uplink).1.aborted =
      s.aborted := by
  simp only [parseRegistration]
  cases hdoc : s.responseBody.document with
  | error text => rfl
  | ok doc =>
    dsimp only
    split
    · rfl
    · rename_i hfields
      have haccepted : s.responseBody.acceptedRegistration = some doc := by
        simp only [ResponseBody.acceptedRegistration, hdoc]
        exact if_neg hfields
      obtain ⟨hpassword, husers⟩ := h doc haccepted
      rw [hpassword, if_neg (not_not.mpr husers)]
      exact aborted_applyConfig _ uplink

theorem Document.ids_keeps_sublist (doc : Document) (users : List User) :
    ((doc.keeps users).map User.id).Sublist (users.map User.id) := by
  rw [Document.keeps, List.map_map]
  have hids : (users.zipIdx.map fun entry => (doc.update entry.2 entry.1).id) =
      users.map User.id := by
    conv_rhs => rw [← List.zipIdx_map_fst 0 users, List.map_map]
    exact List.map_congr_left fun entry _ => doc.update_id entry.2 entry.1
  have hsub := (List.filter_sublist (l := users.zipIdx)
    (p := fun entry => !doc.reports entry.2)).map fun entry => (doc.update entry.2 entry.1).id
  rw [hids] at hsub
  exact hsub

namespace Sound

variable {s : State κ}

theorem nextStage (h : s.Sound) {index : Nat} {fresh : Except String (FreshKeys κ)}
    {clockSynced uplink : Bool}
    (hok : s.orderly (.nextStage index fresh clockSynced uplink) = true) :
    ((s.nextStage index fresh clockSynced uplink).1.users.map User.id).Nodup ∧
      (s.nextStage index fresh clockSynced uplink).1.aborted = none := by
  rw [orderly, Bool.and_eq_true] at hok
  have hevent := hok.2
  simp only [orderlyEvent] at hevent
  rw [State.nextStage]
  cases hstage : s.nextStages[index]? with
  | none => exact ⟨h.distinct, h.running⟩
  | some pending =>
    simp only [hstage, Option.all_some] at hevent ⊢
    have hpending := h.nextStages pending (List.mem_of_getElem? hstage)
    obtain ⟨t, ht⟩ : ∃ t, t = { s with nextStages := s.nextStages.eraseIdx index } := ⟨_, rfl⟩
    have husers : t.users = s.users := by rw [ht]
    have hbody : t.responseBody = s.responseBody := by rw [ht]
    have hrunning : t.aborted = none := by rw [ht]; exact h.running
    have hdistinct : (t.users.map User.id).Nodup := husers ▸ h.distinct
    rw [← ht]
    have hsame {s' : State κ} (hcore : s'.core = t.core) :
        (s'.users.map User.id).Nodup ∧ s'.aborted = none := by
      have hu : s'.users = t.users := congrArg Core.users hcore
      have ha : s'.aborted = t.aborted := congrArg Core.aborted hcore
      rw [hu, ha]
      exact ⟨hdistinct, hrunning⟩
    cases pending with
    | serviceToken => exact hsame (core_parseServiceToken t fresh)
    | registration config keys publicKey email isServiceToken replaced =>
      have hgood : ∀ doc ∈ t.responseBody.acceptedRegistration,
          doc.chargerPassword.isString = true ∧ t.users = [] := by
        intro doc hdoc
        rw [hbody] at hdoc
        simp only [orderlyStage, Option.mem_def.mp hdoc, Bool.and_eq_true] at hevent
        exact ⟨hevent.1, husers.trans (List.isEmpty_iff.mp hevent.2)⟩
      refine ⟨?_, (aborted_parseRegistration hgood).trans hrunning⟩
      obtain hcore | ⟨management, -, -, ⟨message, hcore⟩ | ⟨-, user, connections, -, hcore, -⟩⟩ :=
        core_parseRegistration t config keys publicKey email isServiceToken uplink
      · exact (hsame hcore).1
      · have hu := congrArg Core.users hcore
        dsimp only [State.core] at hu
        rw [hu]
        exact hdistinct
      · have hu := congrArg Core.users hcore
        dsimp only [State.core] at hu
        rw [hu]
        exact List.nodup_singleton _
    | addUser keys publicKey email nextUserId isServiceToken =>
      simp only [orderlyStage, List.all_eq_true, decide_eq_true_eq] at hevent
      have hroom := users_length_lt h.users h.distinct hpending hevent
      obtain hcore | ⟨-, hfull, -⟩ | ⟨-, -, user, hid, hcore⟩ :=
        core_parseAddUser t keys publicKey email nextUserId isServiceToken
      · have hu := congrArg Core.users hcore
        have ha := congrArg Core.aborted hcore
        dsimp only [State.core] at hu ha
        rw [hu, ha]
        exact ⟨hdistinct, hrunning⟩
      · rw [husers] at hfull
        exact absurd hroom (Nat.not_lt_of_le hfull)
      · have hu := congrArg Core.users hcore
        have ha := congrArg Core.aborted hcore
        dsimp only [State.core] at hu ha
        rw [hu, ha, List.map_append]
        refine ⟨List.nodup_append.mpr ⟨hdistinct, List.nodup_singleton _, ?_⟩, hrunning⟩
        intro i hi j hj
        obtain ⟨other, hother, rfl⟩ := List.mem_map.mp hi
        obtain rfl := List.mem_singleton.mp hj
        rw [hid]
        exact hevent other (husers ▸ hother)
    | management oldApi configuredUsers =>
      obtain hcore | ⟨doc, -, -, hcore⟩ := core_managementResponse t oldApi clockSynced
      · exact hsame hcore
      · have hu := congrArg Core.users hcore
        have ha := congrArg Core.aborted hcore
        dsimp only [State.core] at hu ha
        rw [hu, ha]
        exact ⟨hdistinct.sublist (Document.ids_keeps_sublist doc t.users), hrunning⟩
    | selfdestruct => exact hsame rfl

theorem handle (h : s.Sound) {event : Event κ} (hok : s.orderly event = true) :
    (s.handle event).1.Sound := by
  have hboth : ((s.handle event).1.users.map User.id).Nodup ∧ (s.handle event).1.aborted = none := by
    by_cases hadds : event.addsNoUser = true
    · obtain ⟨husers, haborted⟩ := handle_addsNoUser s hadds
      refine ⟨?_, haborted.trans h.running⟩
      rw [husers]
      split
      · exact h.distinct
      · exact h.distinct.sublist (List.eraseP_sublist.map User.id)
    · cases event with
      | register body fresh =>
        have hcore := core_register s body fresh
        have husers : (s.register body fresh).1.users = [] := congrArg Core.users hcore
        have haborted : (s.register body fresh).1.aborted = s.aborted :=
          congrArg Core.aborted hcore
        simp only [State.handle, husers, haborted]
        exact ⟨List.nodup_nil, h.running⟩
      | nextStage index fresh clockSynced uplink => exact h.nextStage hok
      | _ => exact absurd rfl hadds
  exact { h.toNumbered.handle event with distinct := hboth.1, running := hboth.2 }

theorem step (h : s.Sound) {event : Event κ} (hok : s.orderly event = true) :
    (s.step event).Sound := by
  rw [State.step, h.running]
  exact h.handle hok

end Sound

/-- In a run of orderly events the users have IDs of their own in range, the device does not abort,
and a request that ends in an error, also in the next event, leaves nothing behind. -/
theorem registration_atomic (config : StoredConfig κ)
    (hdistinct : (config.users.map User.id).Nodup) (events : List (Event κ))
    (h : Meets step (fun s event => s.orderly event = true) config.setup events) :
    ((config.after events).users.map User.id).Nodup ∧
      (∀ user ∈ (config.after events).users, 1 ≤ user.id ∧ user.id ≤ maxUsers) ∧
      (config.after events).aborted = none ∧
      ∀ event, (config.after events).orderly event = true → (config.after events).Atomic event := by
  have hstart : config.setup.Sound :=
    { Numbered.setup config with distinct := hdistinct, running := rfl }
  have hsound : (config.after events).Sound :=
    h.invariant (I := fun s : State κ => s.Sound) (fun _ _ hs hok => hs.step hok) hstart
  exact ⟨hsound.distinct, hsound.users, hsound.running, fun _ hok => .of_orderly hok⟩

end State

/-- Nobody is registered, and no key is stored. -/
def unregistered : StoredConfig Unit where
  users := []
  keys _ _ := none
  uuid := ""
  enable := false
  serviceTokenUserUuid := ""
  uploadConfigs := []
  ids_in_range := by decide

def registerFirst : Event Unit :=
  .register ⟨64, true, true, .ok ⟨.ok ⟨true, "a@example.com"⟩, .publicKey (some "A")⟩⟩
    (.ok ⟨(), List.replicate maxKeysPerUser ()⟩)

def addSecond : Event Unit :=
  .addUser ⟨64, true, true, .ok ⟨"b@example.com", "null", .publicKey (some "B"), "login", ""⟩⟩
    (.ok ⟨(), List.replicate maxKeysPerUser ()⟩)

/-- The relay answers with a body, and the answer is read. -/
def answered (doc : Document) : List (Event Unit) :=
  [.responseChunk { document := .ok doc }, .requestFinished, .nextStage 0 (.error "") true true]

def firstRegistered : List (Event Unit) :=
  registerFirst :: answered
    { chargerUuid := .string "charger", chargerPassword := .string "secret"
      managementPub := .string "M", userId := .string "00-01" }

/-- A registration and a further user. -/
theorem registration_atomic_two :
    let s := unregistered.after
      (firstRegistered ++ addSecond :: answered { userId := .string "00-02" })
    (s.users.map User.id).Nodup ∧ (∀ user ∈ s.users, 1 ≤ user.id ∧ user.id ≤ maxUsers) ∧
      s.aborted = none ∧ ∀ event, s.orderly event = true → s.Atomic event :=
  State.registration_atomic unregistered List.nodup_nil
    (firstRegistered ++ addSecond :: answered { userId := .string "00-02" }) (by decide)

/-- A registration without a body removes the users that are there. Two requests for a further
user that are under way at the same time give out one ID twice. -/
theorem registration_not_atomic :
    (¬ (unregistered.after firstRegistered).Atomic
      (.register ⟨0, true, true, .error ""⟩ (.error ""))) ∧
    (unregistered.after (firstRegistered ++ addSecond :: .requestFinished :: addSecond ::
        answered { userId := .string "00-02" } ++ [.nextStage 0 (.error "") true true])).users.map
          User.id = [1, 2, 2] := by
  refine ⟨fun h => ?_, by decide⟩
  have hsame := (h.error (.inl (by decide))).1
  exact nomatch hsame

end Esp32Firmware.RemoteAccess
