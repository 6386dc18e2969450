import Esp32Firmware.RemoteAccess.System

/-!
# What an event can change

The users, their key files and tunnels and what is scheduled for them are the part of the state
that the properties of the remote access are about. Each operation leaves all of it alone but for
what its lemma here says.
-/

namespace Esp32Firmware.RemoteAccess

variable {κ : Type*}

/-- The users, keys and tunnels, and the tasks that will change them. -/
structure Core (κ : Type*) where
  users : List User
  keys : KeyFiles κ
  connections : List (Connection κ)
  uploadConfigs : List UploadConfig
  nextStages : List (Pending κ)
  lookups : List Lookup
  connectRetries : List Nat
  applyConfigs : Nat
  aborted : Option String

/-- The part of the core that only requests and removals edit. -/
def Core.stored (c : Core κ) :
    List User × KeyFiles κ × List UploadConfig × List (Pending κ) × Nat × Option String :=
  (c.users, c.keys, c.uploadConfigs, c.nextStages, c.applyConfigs, c.aborted)

namespace State

def core (s : State κ) : Core κ where
  users := s.users
  keys := s.keys
  connections := s.connections
  uploadConfigs := s.uploadConfigs
  nextStages := s.nextStages
  lookups := s.lookups
  connectRetries := s.connectRetries
  applyConfigs := s.applyConfigs
  aborted := s.aborted

variable (s : State κ)

@[simp] theorem core_requestCleanup : s.requestCleanup.core = s.core := rfl

@[simp] theorem core_managementAuthFail : s.managementAuthFail.core = s.core := by
  rw [managementAuthFail]
  split <;> rfl

@[simp] theorem core_requestError (error : RelayError) (pending : Pending κ) :
    (s.requestError error pending).core = s.core := by
  cases pending with
  | management oldApi configuredUsers =>
    rw [requestError]
    split
    · exact core_managementAuthFail s
    · rfl
  | _ => rfl

@[simp] theorem core_runRequestWithNextStage (pending : Pending κ) :
    (s.runRequestWithNextStage pending).core = s.core := by
  rw [runRequestWithNextStage]
  cases h : s.inFlight with
  | none => rfl
  | some old => exact core_requestError _ _ _

@[simp] theorem core_responseChunk (body : ResponseBody) :
    (s.responseChunk body).core = s.core := by
  rw [responseChunk]
  split <;> rfl

@[simp] theorem core_resolveManagement : s.resolveManagement.core = s.core := by
  rw [resolveManagement]
  split
  · exact core_runRequestWithNextStage _ _
  · rfl

@[simp] theorem core_resolveTick : s.resolveTick.core = s.core := by
  rw [resolveTick]
  split
  · exact core_resolveManagement s
  · rfl

@[simp] theorem core_connectManagement (clockSynced : Bool) :
    (s.connectManagement clockSynced).core = s.core := by
  rw [connectManagement]
  split <;> rfl

@[simp] theorem core_registerWithRelay (config : RegistrationConfig) (keys : FreshKeys κ)
    (pk email : String) (isServiceToken : Bool) (replaced : List User) :
    (s.registerWithRelay config keys pk email isServiceToken replaced).core = s.core :=
  core_runRequestWithNextStage _ _

@[simp] theorem core_allowUserAtRelay (keys : FreshKeys κ) (pk email : String) (nextUserId : Nat)
    (isServiceToken : Bool) :
    (s.allowUserAtRelay keys pk email nextUserId isServiceToken).core = s.core :=
  core_runRequestWithNextStage _ _

@[simp] theorem core_serviceTokenRegister : s.serviceTokenRegister.core = s.core := by
  simp only [serviceTokenRegister]
  split
  · rfl
  · exact core_runRequestWithNextStage _ _

@[simp] theorem core_forgetMissingServiceUser : s.forgetMissingServiceUser.core = s.core := by
  rw [forgetMissingServiceUser]
  split <;> rfl

@[simp] theorem core_retryServiceTokenRemoval : s.retryServiceTokenRemoval.core = s.core := by
  simp only [retryServiceTokenRemoval]
  split <;> rfl

@[simp] theorem core_register (body : RequestBody RegisterDocument)
    (fresh : Except String (FreshKeys κ)) :
    (s.register body fresh).1.core = { s.core with users := [] } := by
  simp only [register]
  split
  · rfl
  · split
    · rfl
    · exact core_registerWithRelay _ _ _ _ _ _ _

@[simp] theorem core_addUser (body : RequestBody AddUserDocument)
    (fresh : Except String (FreshKeys κ)) : (s.addUser body fresh).1.core = s.core := by
  rw [addUser]
  split
  · rfl
  · split
    · rfl
    · exact core_allowUserAtRelay _ _ _ _ _ _

@[simp] theorem core_parseServiceToken (fresh : Except String (FreshKeys κ)) :
    (s.parseServiceToken fresh).1.core = s.core := by
  rw [parseServiceToken]
  split
  · rfl
  · dsimp only
    split
    · rfl
    · split
      · exact core_allowUserAtRelay _ _ _ _ _ _
      · exact core_registerWithRelay _ _ _ _ _ _ _

theorem core_applyConfig (uplink : Bool) :
    (s.applyConfig uplink).core =
      if s.management then s.closeAllRemoteConnections.core else s.core := by
  rw [applyConfig]
  split <;> rfl

theorem core_connectRemoteAccess (i : Nat) (clockSynced : Bool) :
    ∃ connections connectRetries, (s.connectRemoteAccess i clockSynced).core =
      { s.core with connections, connectRetries } := by
  rw [connectRemoteAccess]
  split
  · split
    · exact ⟨_, _, rfl⟩
    · split <;> exact ⟨_, _, rfl⟩
  · exact ⟨_, _, rfl⟩

/-- The first user with an ID goes; after the last user the device gives up its own key. -/
theorem core_removeUser {s : State κ} {id idx : Nat}
    (h : s.users.findIdx? (fun user => user.id = id) = some idx) :
    (s.removeUser id).core =
      let users := s.users.eraseIdx idx
      let keys := s.keys.removeKeys id
      if users.any fun user => user.id ≠ 255 then { s.core with users, keys }
      else
        { s.core with
          users
          keys := keys.removeKey 0 0
          applyConfigs := s.applyConfigs + 1 } := by
  obtain ⟨t, ht⟩ : ∃ t, t = if s.serviceTokenUserUuid = (s.users.getD idx ⟨0, "", "", ""⟩).uuid
      then s.forgetServiceToken else s := ⟨_, rfl⟩
  have hcore : t.core = s.core := by
    rw [ht]
    split <;> rfl
  have husers : t.users = s.users := congrArg Core.users hcore
  have hkeys : t.keys = s.keys := congrArg Core.keys hcore
  simp only [removeUser, h, ← ht, husers, hkeys]
  split
  · split
    · exact (core_resolveManagement _).trans (by rw [← hcore]; rfl)
    · rw [← hcore]
      rfl
  · obtain ⟨r, hr⟩ : ∃ r, r = ({ t with
        users := s.users.eraseIdx idx
        keys := s.keys.removeKeys id } : State κ).runRequestWithNextStage .selfdestruct :=
      ⟨_, rfl⟩
    have hrcore := core_runRequestWithNextStage ({ t with
        users := s.users.eraseIdx idx
        keys := s.keys.removeKeys id } : State κ) .selfdestruct
    rw [← hr] at hrcore ⊢
    have hrkeys : r.keys = s.keys.removeKeys id := congrArg Core.keys hrcore
    have hrapply : r.applyConfigs = s.applyConfigs :=
      (congrArg Core.applyConfigs hrcore).trans (congrArg Core.applyConfigs hcore)
    have : ({ r with
        keys := r.keys.removeKey 0 0
        enable := false
        applyConfigs := r.applyConfigs + 1 } : State κ).core =
        { r.core with
          keys := r.keys.removeKey 0 0
          applyConfigs := r.applyConfigs + 1 } := rfl
    rw [this, hrcore, hrkeys, hrapply, ← hcore]
    rfl

theorem core_removeUser_unknown {s : State κ} {id : Nat}
    (h : s.users.findIdx? (fun user => user.id = id) = none) : s.removeUser id = s := by
  simp only [removeUser, h]

theorem core_removeUser_congr {s s' : State κ} (h : s'.core = s.core) (id : Nat) :
    (s'.removeUser id).core = (s.removeUser id).core := by
  have husers : s'.users = s.users := congrArg Core.users h
  have hkeys : s'.keys = s.keys := congrArg Core.keys h
  have happly : s'.applyConfigs = s.applyConfigs := congrArg Core.applyConfigs h
  cases hfind : s.users.findIdx? fun user => user.id = id with
  | none => rw [core_removeUser_unknown hfind, core_removeUser_unknown (husers ▸ hfind), h]
  | some idx =>
    rw [core_removeUser hfind, core_removeUser (husers ▸ hfind), husers, hkeys, happly, h]

end State

/-- The user with the email address and UUID that the response has for this position. -/
def Document.update (doc : Document) (idx : Nat) (user : User) : User :=
  let email := (element doc.configuredUsersEmails idx).toText
  if email ≠ "null" then
    { user with email, uuid := (element doc.configuredUsersUuids idx).toText }
  else user

@[simp] theorem Document.update_id (doc : Document) (idx : Nat) (user : User) :
    (doc.update idx user).id = user.id := by
  rw [update]
  split <;> rfl

/-- The users at reported positions, the last one first. -/
def Document.reported (doc : Document) (users : List User) : List User :=
  ((users.zipIdx.filter fun entry => doc.reports entry.2).map Prod.fst).reverse

/-- The users at the other positions, updated. -/
def Document.keeps (doc : Document) (users : List User) : List User :=
  (users.zipIdx.filter fun entry => !doc.reports entry.2).map fun entry =>
    doc.update entry.2 entry.1

theorem Document.reported_concat (doc : Document) (users : List User) (user : User) :
    doc.reported (users ++ [user]) =
      if doc.reports users.length then user :: doc.reported users else doc.reported users := by
  rw [reported, List.zipIdx_append, List.filter_append]
  cases h : doc.reports users.length <;> simp [reported, h]

theorem Document.keeps_concat (doc : Document) (users : List User) (user : User) :
    doc.keeps (users ++ [user]) =
      if doc.reports users.length then doc.keeps users
      else doc.keeps users ++ [doc.update users.length user] := by
  rw [keeps, List.zipIdx_append, List.filter_append]
  cases h : doc.reports users.length <;> simp [keeps, h]

/-- The key files without those of some users. -/
def KeyFiles.dropUsers (files : KeyFiles κ) (users : List User) : KeyFiles κ :=
  users.foldl (fun files user => files.removeKeys user.id) files

theorem KeyFiles.dropUsers_apply (files : KeyFiles κ) (users : List User) (u k : Nat) :
    files.dropUsers users u k =
      if (∃ user ∈ users, user.id = u) ∧ k < maxKeysPerUser then none else files u k := by
  induction users generalizing files with
  | nil => simp [dropUsers]
  | cons user users ih =>
    rw [dropUsers, List.foldl_cons, ← dropUsers, ih, removeKeys_apply]
    by_cases hk : k < maxKeysPerUser
    · by_cases hu : user.id = u
      · simp [hu, hk]
      · simp [hu, Ne.symm hu]
    · simp [hk]

/-- The upload configurations after the lookups for some users. -/
def dropUploads (configs : List UploadConfig) (users : List User) : List UploadConfig :=
  eraseKeys UploadConfig.userId configs (users.map fun user => (user.id : Int))

namespace State

theorem core_syncUser {doc : Document} {s : State κ} {idx : Nat} {user : User}
    (h : s.users[idx]? = some user) :
    (syncUser doc s idx).core =
      if doc.reports idx then
        { s.core with
          users := s.users.eraseIdx idx
          keys := s.keys.removeKeys user.id
          uploadConfigs := eraseAll s.uploadConfigs
            (findChargeTrackerConfigs s.uploadConfigs user.id) }
      else { s.core with users := s.users.set idx (doc.update idx user) } := by
  simp only [syncUser, h]
  split
  · split <;> rfl
  · simp only [Document.update]
    split
    · rfl
    · have hset : s.users.set idx user = s.users := by
        obtain ⟨hlt, rfl⟩ := List.getElem?_eq_some_iff.mp h
        exact List.set_getElem_self hlt
      rw [hset]
      rfl

/-- The loop from a position on down, with the users behind it already done. -/
theorem core_syncLoop (doc : Document) (s : State κ) (front done : List User)
    (h : s.users = front ++ done) :
    ((List.range front.length).reverse.foldl (syncUser doc) s).core = { s.core with
        users := doc.keeps front ++ done
        keys := s.keys.dropUsers (doc.reported front)
        uploadConfigs := dropUploads s.uploadConfigs (doc.reported front) } := by
  induction front using List.reverseRecOn generalizing s done with
  | nil =>
    simp [core, Document.keeps, Document.reported, KeyFiles.dropUsers, dropUploads, eraseKeys, h]
  | append_singleton front user ih =>
    rw [List.length_append, List.length_singleton, List.range_succ, List.reverse_append,
      List.reverse_singleton, List.singleton_append, List.foldl_cons]
    have hturn := @core_syncUser _ doc s front.length user
      (by simp [h])
    rw [doc.keeps_concat, doc.reported_concat]
    generalize syncUser doc s front.length = t at *
    cases hreport : doc.reports front.length with
    | true =>
      have herase : s.users.eraseIdx front.length = front ++ done := by
        rw [h, List.append_assoc, List.eraseIdx_append_of_length_le (Nat.le_refl _)]
        simp
      rw [if_pos hreport, herase] at hturn
      rw [ih t done (congrArg Core.users hturn), show t.keys = _ from congrArg Core.keys hturn,
        show t.uploadConfigs = _ from congrArg Core.uploadConfigs hturn, hturn]
      rfl
    | false =>
      have hset : s.users.set front.length (doc.update front.length user) =
          front ++ doc.update front.length user :: done := by
        rw [h]
        simp
      rw [if_neg (by simp [hreport]), hset] at hturn
      rw [ih t (doc.update front.length user :: done) (congrArg Core.users hturn),
        show t.keys = _ from congrArg Core.keys hturn,
        show t.uploadConfigs = _ from congrArg Core.uploadConfigs hturn, hturn,
        if_neg Bool.false_ne_true, if_neg Bool.false_ne_true, List.append_assoc,
        List.singleton_append]
      rfl

theorem core_syncUsers (s : State κ) (doc : Document) :
    (s.syncUsers doc).core = { s.core with
        users := doc.keeps s.users
        keys := s.keys.dropUsers (doc.reported s.users)
        uploadConfigs := dropUploads s.uploadConfigs (doc.reported s.users) } := by
  have h := core_syncLoop doc s s.users [] (List.append_nil _).symm
  rw [List.append_nil] at h
  exact h

theorem core_managementResponse_ok {s : State κ} {doc : Document}
    (h : s.responseBody.document = .ok doc) (clockSynced : Bool) :
    (s.managementResponse false clockSynced).core = { s.core with
        users := doc.keeps s.users
        keys := s.keys.dropUsers (doc.reported s.users)
        uploadConfigs := dropUploads s.uploadConfigs (doc.reported s.users) } := by
  simp only [managementResponse, h]
  refine (core_connectManagement _ clockSynced).trans ?_
  refine (core_requestCleanup _).trans ?_
  exact (core_forgetMissingServiceUser _).trans (core_syncUsers _ doc)

/-- Only an answer that can be read, to a request that lists the users, changes them. -/
theorem core_managementResponse (s : State κ) (oldApi clockSynced : Bool) :
    (s.managementResponse oldApi clockSynced).core = s.core ∨
      ∃ doc, s.responseBody.document = .ok doc ∧ oldApi = false ∧
        (s.managementResponse oldApi clockSynced).core = { s.core with
            users := doc.keeps s.users
            keys := s.keys.dropUsers (doc.reported s.users)
            uploadConfigs := dropUploads s.uploadConfigs (doc.reported s.users) } := by
  cases h : s.responseBody.document with
  | error text =>
    simp only [managementResponse, h]
    exact .inl rfl
  | ok doc =>
    cases oldApi with
    | true =>
      simp only [managementResponse, h]
      exact .inl rfl
    | false => exact .inr ⟨doc, rfl, rfl, core_managementResponse_ok h clockSynced⟩

/-- What an answer to a registration can do: nothing, or keys are stored and the device restarts
or has its first user. -/
theorem core_parseRegistration (s : State κ) (config : RegistrationConfig) (keys : FreshKeys κ)
    (publicKey email : String) (isServiceToken uplink : Bool) :
    let result :=
      s.parseRegistration config keys publicKey email isServiceToken uplink
    (result.1.core = s.core) ∨
      ∃ management, let files := (s.keys.storeKey 0 0 management).storeKeys 1 0 keys.users
        (∀ key ∈ management, key = keys.management) ∧ result.2 = none ∧
          ((∃ message, result.1.core = { s.core with keys := files, aborted := some message }) ∨
            (s.users = [] ∧ ∃ user connections, user.id = 1 ∧
              result.1.core = { s.core with keys := files, users := [user], connections } ∧
              (connections = s.connections ∨
                connections = s.closeAllRemoteConnections.connections))) := by
  simp only [parseRegistration]
  cases hbody : s.responseBody.document with
  | error text => exact .inl rfl
  | ok doc =>
    dsimp only
    split
    · exact .inl rfl
    · refine .inr ⟨if doc.managementPub.isString then some keys.management else none, ?_, ?_⟩
      · intro key hkey
        split at hkey
        · exact (Option.some.inj hkey).symm
        · exact nomatch hkey
      · split
        · exact ⟨rfl, .inl ⟨_, rfl⟩⟩
        · split
          · exact ⟨rfl, .inl ⟨_, rfl⟩⟩
          · rename_i husers
            refine ⟨rfl, .inr ⟨not_ne_iff.mp husers, ⟨1, email, doc.userId.toText, publicKey⟩, ?_⟩⟩
            refine ⟨if s.management then s.closeAllRemoteConnections.connections
              else s.connections, rfl, ?_, ?_⟩
            · refine (core_requestCleanup _).trans ?_
              refine (core_applyConfig _ uplink).trans ?_
              dsimp only
              split <;> rfl
            · split
              · exact .inr rfl
              · exact .inl rfl

/-- What an answer for a further user can do: the keys are stored in any case. -/
theorem core_parseAddUser (s : State κ) (keys : List κ) (publicKey email : String)
    (nextUserId : Nat) (isServiceToken : Bool) :
    let result := s.parseAddUser keys publicKey email nextUserId isServiceToken
    let files := s.keys.storeKeys nextUserId 0 keys
    result.1.core = { s.core with keys := files } ∨ (result.2 = none ∧ s.users.length ≥ maxUsers ∧
        ∃ message, result.1.core = { s.core with keys := files, aborted := some message }) ∨
      (result.2 = none ∧ s.users.length < maxUsers ∧ ∃ user, user.id = nextUserId ∧
        result.1.core = { s.core with keys := files, users := s.users ++ [user] }) := by
  simp only [parseAddUser]
  split
  · exact .inl rfl
  · split
    · exact .inl rfl
    · split
      · rename_i hfull
        exact .inr (.inl ⟨rfl, hfull, _, rfl⟩)
      · rename_i hfree
        exact .inr (.inr ⟨rfl, Nat.lt_of_not_ge hfree, _, rfl, rfl⟩)

end State

/-- No key file holds something new. -/
def KeyFiles.Sub (files' files : KeyFiles κ) : Prop :=
  ∀ u k key, files' u k = some key → files u k = some key

variable (files : KeyFiles κ)

theorem KeyFiles.removeKey_sub (userId keyId : Nat) :
    (files.removeKey userId keyId).Sub files := by
  intro u k key h
  rw [removeKey] at h
  split at h
  · cases h
  · exact h

theorem KeyFiles.removeKeys_sub (userId : Nat) :
    (files.removeKeys userId).Sub files := by
  intro u k key h
  rw [removeKeys_apply] at h
  split at h
  · exact nomatch h
  · exact h

theorem KeyFiles.dropUsers_sub (users : List User) :
    (files.dropUsers users).Sub files := by
  intro u k key h
  rw [dropUsers_apply] at h
  split at h
  · exact nomatch h
  · exact h

/-- The keys of a request, by the user they are meant for. -/
def Pending.offers : Pending κ → List (Nat × κ)
  | .registration _ keys _ _ _ _ => (0, keys.management) :: keys.users.map fun key => (1, key)
  | .addUser keys _ _ nextUserId _ => keys.map fun key => (nextUserId, key)
  | _ => []

namespace State

/-- The keys that an event may store. -/
def offers (s : State κ) : Event κ → List (Nat × κ)
  | .nextStage index _ _ _ =>
    match s.nextStages[index]? with
    | none => []
    | some pending => pending.offers
  | _ => []

theorem removeUser_keys_sub (s : State κ) (id : Nat) : (s.removeUser id).keys.Sub s.keys := by
  cases h : s.users.findIdx? fun user => user.id = id with
  | none =>
    rw [core_removeUser_unknown h]
    exact fun _ _ _ hkey => hkey
  | some idx =>
    have hkeys := congrArg Core.keys (core_removeUser h)
    change (s.removeUser id).keys = _ at hkeys
    rw [hkeys]
    dsimp only
    split
    · exact KeyFiles.removeKeys_sub _ _
    · intro u k key hkey
      exact KeyFiles.removeKeys_sub _ _ u k key (KeyFiles.removeKey_sub _ _ _ u k key hkey)

/-- The user whom an event has removed by `remove_user`, if it does. -/
def removalTarget (s : State κ) : Event κ → Option Nat
  | .removeUser body =>
    match body.read with
    | .error _ => none
    | .ok id => if s.users.any fun user => user.id = id then some id else none
  | .removeUserPacket uuid =>
    match s.users.find? fun user => user.uuid = uuid with
    | none => none
    | some user => if user.id = 255 then none else some user.id
  | .serviceTokenRemoval =>
    if s.serviceTokenRemovalTask && s.serviceTokenUserUuid != "" then
      (s.users.find? fun user => user.uuid = s.serviceTokenUserUuid).map User.id
    else none
  | _ => none

end State

/-- The three events that call `remove_user`. -/
def Event.removes : Event κ → Bool
  | .removeUser _ | .removeUserPacket _ | .serviceTokenRemoval => true
  | _ => false

/-- The packet closes the tunnels of the user first. -/
def Event.closes : Event κ → Bool
  | .removeUserPacket _ => true
  | _ => false

/-- The events that leave the users, the keys and the tasks that edit them as they are. -/
def Event.keepsStored : Event κ → Bool
  | .register _ _ | .requestFinished | .nextStage _ _ _ _ | .configUpdate _
  | .applyConfigTask _ => false
  | event => !event.removes

namespace State

variable (s : State κ)

/-- The three events remove their user, one of them after closing the tunnels. -/
theorem core_handle_removes {event : Event κ} (h : event.removes = true) :
    (s.handle event).1.core =
      match s.removalTarget event with
      | none => s.core
      | some id => ((if event.closes then s.closeConnectionsOf id else s).removeUser id).core := by
  cases event with
  | removeUser body =>
    simp only [handle, removeUserRequest, removalTarget]
    cases body.read with
    | error rejected => rfl
    | ok id =>
      dsimp only
      split <;> rfl
  | removeUserPacket uuid =>
    simp only [handle, handleRemoveUserPacket, removalTarget]
    cases s.users.find? fun user => user.uuid = uuid with
    | none => rfl
    | some user =>
      dsimp only
      split <;> rfl
  | serviceTokenRemoval =>
    simp only [handle, removeServiceTokenUser, removalTarget]
    cases s.serviceTokenRemovalTask with
    | false => rfl
    | true =>
      by_cases huuid : s.serviceTokenUserUuid = ""
      · simp only [huuid, if_true, bne_self_eq_false, Bool.and_false, Bool.false_eq_true, if_false]
        rfl
      · cases hfind : s.users.find? fun user => user.uuid = s.serviceTokenUserUuid with
        | none =>
          simp only [if_true, huuid, if_false, core_retryServiceTokenRemoval, Bool.true_and,
            bne_iff_ne, ne_eq, not_false_eq_true, Option.map_none]
          rfl
        | some user =>
          simp only [if_true, huuid, if_false, core_retryServiceTokenRemoval, Bool.true_and,
            bne_iff_ne, ne_eq, not_false_eq_true, Option.map_some, Event.closes,
            Bool.false_eq_true]
          exact core_removeUser_congr (by rfl) user.id
  | _ => exact absurd h Bool.false_ne_true

structure SameStored (s s' : State κ) : Prop where
  users : s'.users = s.users
  keys : s'.keys = s.keys
  uploadConfigs : s'.uploadConfigs = s.uploadConfigs
  nextStages : s'.nextStages = s.nextStages
  applyConfigs : s'.applyConfigs = s.applyConfigs
  aborted : s'.aborted = s.aborted

theorem SameStored.of_stored {s s' : State κ} (h : s'.core.stored = s.core.stored) :
    s.SameStored s' := by
  simp only [Core.stored, Prod.mk.injEq] at h
  obtain ⟨husers, hkeys, hconfigs, hstages, happly, haborted⟩ := h
  exact ⟨husers, hkeys, hconfigs, hstages, happly, haborted⟩

theorem stored_connectRemoteAccess (i : Nat) (clockSynced : Bool) :
    (s.connectRemoteAccess i clockSynced).core.stored = s.core.stored := by
  obtain ⟨connections, connectRetries, h⟩ := core_connectRemoteAccess s i clockSynced
  rw [h]
  rfl

theorem stored_applyConfig (uplink : Bool) :
    (s.applyConfig uplink).core.stored = s.core.stored := by
  rw [core_applyConfig]
  split <;> rfl

/-- The task that `remove_user` and a new configuration have scheduled. -/
theorem applyConfigTask_stored (uplink : Bool) :
    ({ s with applyConfigs := s.applyConfigs - 1 } : State κ).SameStored
      (s.handle (.applyConfigTask uplink)).1 := by
  simp only [handle]
  split
  · rename_i h
    exact ⟨rfl, rfl, rfl, rfl, by simp [h], rfl⟩
  · exact .of_stored (stored_applyConfig _ uplink)

/-- Other events leave the users, the keys and the tasks that edit them alone. -/
theorem sameStored_handle {event : Event κ} (h : event.keepsStored = true) :
    s.SameStored (s.handle event).1 := by
  apply SameStored.of_stored
  cases event with
  | register body fresh | removeUser body | requestFinished
  | nextStage index fresh clockSynced uplink | removeUserPacket uuid | serviceTokenRemoval
  | configUpdate enable | applyConfigTask uplink => exact absurd h Bool.false_ne_true
  | addUser body fresh => exact congrArg Core.stored (core_addUser s body fresh)
  | serviceTokenRegister => exact congrArg Core.stored (core_serviceTokenRegister s)
  | responseChunk body => exact congrArg Core.stored (core_responseChunk s body)
  | requestError error =>
    simp only [handle]
    split
    · rfl
    · exact congrArg Core.stored (core_requestError _ error _)
  | cleanup =>
    simp only [handle]
    split <;> rfl
  | connectCommand connectionNo connectionUuid connectClosed portFound =>
    simp only [handle, connectCommand]
    split
    · split
      · rfl
      · split
        · rfl
        · split
          · rfl
          · split <;> rfl
    · rfl
  | disconnectCommand connectionNo =>
    simp only [handle, disconnectCommand]
    split <;> rfl
  | lookupDone index answerSent clockSynced =>
    simp only [handle, lookupDone]
    split
    · rfl
    · split
      · rfl
      · cases answerSent with
        | false => rfl
        | true => exact (stored_connectRemoteAccess _ _ clockSynced).trans rfl
  | connectRetry index clockSynced =>
    simp only [handle, connectRetry]
    split
    · rfl
    · exact (stored_connectRemoteAccess _ _ clockSynced).trans rfl
  | managementRetry clockSynced =>
    simp only [handle]
    split
    · rfl
    · exact congrArg Core.stored (core_connectManagement _ clockSynced)
  | managementLost | managementTimeout => rfl
  | resolveTick => exact congrArg Core.stored (core_resolveTick s)
  | networkChange uplink => exact stored_applyConfig s uplink

end State

end Esp32Firmware.RemoteAccess
