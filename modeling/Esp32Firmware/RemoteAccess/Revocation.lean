import Esp32Firmware.RemoteAccess.Numbering
import Esp32Firmware.RemoteAccess.Tunnels

/-!
# Removing a user takes the access away

A user is removed by a request, by a packet of the relay, by the response to a management request
or when a service token expires. Only the packet closes the tunnels of the user. The other ways
leave them open, unless it was the last user and the configuration is applied afterwards.

## Implementation notes

That a removed user has no access later on is said of any set of keys that nobody hands in again.
-/

namespace Esp32Firmware.RemoteAccess

variable {κ : Type*}

namespace State

/-- The users that an event removes, and those that stay. -/
def removal (s : State κ) : Event κ → List User × List User
  | .nextStage index _ _ _ =>
    match s.nextStages[index]?, s.responseBody.document with
    | some (.management false _), .ok doc => (doc.reported s.users, doc.keeps s.users)
    | _, _ => ([], s.users)
  | event =>
    match s.removalTarget event with
    | none => ([], s.users)
    | some id =>
      ((s.users.find? fun user => user.id = id).toList,
        s.users.eraseP fun user => user.id = id)

/-- The users that an event removes from a device that is running. -/
def removedBy (s : State κ) (event : Event κ) : List User :=
  if s.aborted.isSome then [] else (s.removal event).1

end State

def Event.appliesConfig : Event κ → Bool
  | .applyConfigTask _ => true
  | _ => false

namespace State

/-- A removal takes all users with the ID, and no tunnel of them is open, unless the packet closes
it or they were the last users. The configuration that is applied after the last user has gone
closes the tunnels if there is a management connection; else all of them have stored keys. -/
def Revokes (s : State κ) (event : Event κ) : Prop :=
  (event.appliesConfig = true → s.management = true ∨
    ∀ t ∈ s.tunnels, s.keys (userOf t.number) (t.number % maxKeysPerUser) = some t.key) ∧
  ∀ user ∈ (s.removal event).1, (∀ other ∈ (s.removal event).2, other.id ≠ user.id) ∧
    (event.closes = true ∨ (event.removes = true ∧ ∀ other ∈ (s.removal event).2, other.id = 255) ∨
      ∀ t ∈ s.tunnels, userOf t.number ≠ user.id)

instance [DecidableEq κ] (s : State κ) (event : Event κ) : Decidable (s.Revokes event) :=
  inferInstanceAs (Decidable (_ ∧ _))

variable {event : Event κ} {index u k id : Nat} {fresh : Except String (FreshKeys κ)}
  {clockSynced uplink : Bool} {key : κ} {s : State κ} {user : User}

section

variable (s : State κ)

theorem removal_keys_sub (h : event.removes = true) : (s.handle event).1.keys.Sub s.keys := by
  have hcore := congrArg Core.keys (core_handle_removes s h)
  change (s.handle event).1.keys = _ at hcore
  rw [hcore]
  cases s.removalTarget event with
  | none => exact fun _ _ _ hkey => hkey
  | some id =>
    dsimp only
    split
    · exact removeUser_keys_sub (s.closeConnectionsOf id) id
    · exact removeUser_keys_sub s id

/-- A key that an answered request stores is one of its own. -/
theorem nextStage_keys (h : (s.nextStage index fresh clockSynced uplink).1.keys u k = some key) :
    s.keys u k = some key ∨ (u, key) ∈ s.offers (.nextStage index fresh clockSynced uplink) := by
  rw [nextStage] at h
  simp only [offers]
  cases hstage : s.nextStages[index]? with
  | none =>
    rw [hstage] at h
    exact .inl h
  | some pending =>
    rw [hstage] at h
    obtain ⟨t, ht⟩ : ∃ t, t = { s with nextStages := s.nextStages.eraseIdx index } := ⟨_, rfl⟩
    have hkeys : t.keys = s.keys := by rw [ht]
    dsimp only at h ⊢
    rw [← ht] at h
    rw [← hkeys]
    have hsame {s' : State κ} {c : Core κ} (hcore : s'.core = c) (hkey : s'.keys u k = some key) :
        c.keys u k = some key := hcore ▸ hkey
    cases pending with
    | serviceToken => exact .inl (hsame (core_parseServiceToken t fresh) h)
    | registration config keys publicKey email isServiceToken replaced =>
      have hfiles {management : Option κ} (hmanagement : ∀ key ∈ management, key = keys.management)
          (hkey : ((t.keys.storeKey 0 0 management).storeKeys 1 0 keys.users) u k = some key) :
          t.keys u k = some key ∨ (u, key) ∈
            (Pending.registration config keys publicKey email isServiceToken replaced).offers := by
        obtain hold | ⟨rfl, hmem⟩ := KeyFiles.storeKeys_apply hkey
        · simp only [KeyFiles.storeKey] at hold
          split at hold
          · rename_i hfirst
            rw [hfirst.1, hmanagement key hold]
            exact .inr List.mem_cons_self
          · exact .inl hold
        · exact .inr (List.mem_cons_of_mem _ (List.mem_map.mpr ⟨key, hmem, rfl⟩))
      obtain hcore | ⟨management, hmanagement, -, ⟨message, hcore⟩ |
          ⟨-, user, connections, -, hcore, -⟩⟩ :=
        core_parseRegistration t config keys publicKey email isServiceToken uplink
      · exact .inl (hsame hcore h)
      · exact hfiles hmanagement (hsame hcore h)
      · exact hfiles hmanagement (hsame hcore h)
    | addUser keys publicKey email nextUserId isServiceToken =>
      have hfiles (hkey : t.keys.storeKeys nextUserId 0 keys u k = some key) :
          t.keys u k = some key ∨ (u, key) ∈
            (Pending.addUser keys publicKey email nextUserId isServiceToken).offers := by
        obtain hold | ⟨rfl, hmem⟩ := KeyFiles.storeKeys_apply hkey
        · exact .inl hold
        · exact .inr (List.mem_map.mpr ⟨key, hmem, rfl⟩)
      obtain hcore | ⟨-, -, message, hcore⟩ | ⟨-, -, user, -, hcore⟩ :=
        core_parseAddUser t keys publicKey email nextUserId isServiceToken <;>
        exact hfiles (hsame hcore h)
    | management oldApi configuredUsers =>
      obtain hcore | ⟨doc, -, -, hcore⟩ := core_managementResponse t oldApi clockSynced
      · exact .inl (hsame hcore h)
      · exact .inl (KeyFiles.dropUsers_sub _ _ u k key (hsame hcore h))
    | selfdestruct => exact .inl h

/-- A key that is stored after an event was stored before or comes with the event. -/
theorem handle_keys (h : (s.handle event).1.keys u k = some key) :
    s.keys u k = some key ∨ (u, key) ∈ s.offers event := by
  by_cases hquiet : event.keepsStored = true
  · exact .inl ((sameStored_handle s hquiet).keys ▸ h)
  · by_cases hremoves : event.removes = true
    · exact .inl (removal_keys_sub s hremoves u k key h)
    · cases event with
      | register body fresh =>
        have hkeys : (s.register body fresh).1.keys = s.keys :=
          congrArg Core.keys (core_register s body fresh)
        exact .inl (hkeys ▸ h)
      | requestFinished =>
        simp only [handle, requestFinished] at h
        split at h <;> exact .inl h
      | nextStage index fresh clockSynced uplink => exact nextStage_keys s h
      | configUpdate enable => exact .inl h
      | applyConfigTask uplink => exact .inl ((applyConfigTask_stored s uplink).keys ▸ h)
      | removeUser body | removeUserPacket uuid | serviceTokenRemoval => exact absurd rfl hremoves
      | _ => exact absurd rfl hquiet

theorem removeUser_applyConfigs (id : Nat) : s.applyConfigs ≤ (s.removeUser id).applyConfigs := by
  cases h : s.users.findIdx? fun user => user.id = id with
  | none => rw [core_removeUser_unknown h]
  | some idx =>
    have happly := congrArg Core.applyConfigs (core_removeUser h)
    change (s.removeUser id).applyConfigs = _ at happly
    rw [happly]
    dsimp only
    split
    · exact Nat.le_refl _
    · exact Nat.le_succ _

theorem nextStage_applyConfigs (index : Nat) (fresh : Except String (FreshKeys κ))
    (clockSynced uplink : Bool) :
    (s.nextStage index fresh clockSynced uplink).1.applyConfigs = s.applyConfigs := by
  rw [nextStage]
  cases s.nextStages[index]? with
  | none => rfl
  | some pending =>
    dsimp only
    have hsame {s' t : State κ} {c : Core κ} (hcore : s'.core = c)
        (hc : c.applyConfigs = t.applyConfigs) : s'.applyConfigs = t.applyConfigs := by
      subst hcore
      exact hc
    cases pending with
    | serviceToken => exact hsame (core_parseServiceToken _ fresh) rfl
    | registration config keys publicKey email isServiceToken replaced =>
      obtain hcore | ⟨management, -, -, ⟨message, hcore⟩ | ⟨-, user, connections, -, hcore, -⟩⟩ :=
        core_parseRegistration { s with nextStages := s.nextStages.eraseIdx index } config keys
          publicKey email isServiceToken uplink <;>
        exact hsame hcore rfl
    | addUser keys publicKey email nextUserId isServiceToken =>
      obtain hcore | ⟨-, -, message, hcore⟩ | ⟨-, -, user, -, hcore⟩ :=
        core_parseAddUser { s with nextStages := s.nextStages.eraseIdx index } keys publicKey
          email nextUserId isServiceToken <;>
        exact hsame hcore rfl
    | management oldApi configuredUsers =>
      obtain hcore | ⟨doc, -, -, hcore⟩ := core_managementResponse
        { s with nextStages := s.nextStages.eraseIdx index } oldApi clockSynced <;>
        exact hsame hcore rfl
    | selfdestruct => rfl

/-- Only the task itself takes the request to apply the configuration away. -/
theorem handle_applyConfigs (h : (s.handle event).1.applyConfigs = 0) :
    s.applyConfigs = 0 ∨ ∃ uplink, event = .applyConfigTask uplink := by
  by_cases hquiet : event.keepsStored = true
  · exact .inl ((sameStored_handle s hquiet).applyConfigs ▸ h)
  · by_cases hremoves : event.removes = true
    · have hcore := congrArg Core.applyConfigs (core_handle_removes s hremoves)
      change (s.handle event).1.applyConfigs = _ at hcore
      rw [hcore] at h
      left
      split at h
      · exact h
      · split at h
        · exact Nat.le_zero.mp (h ▸ removeUser_applyConfigs (s.closeConnectionsOf _) _)
        · exact Nat.le_zero.mp (h ▸ removeUser_applyConfigs s _)
    · cases event with
      | register body fresh =>
        left
        rw [← h]
        exact (congrArg Core.applyConfigs (core_register s body fresh)).symm
      | requestFinished =>
        simp only [handle, requestFinished] at h
        split at h <;> exact .inl h
      | nextStage index fresh clockSynced uplink =>
        exact .inl ((nextStage_applyConfigs s index fresh clockSynced uplink).symm.trans h)
      | configUpdate enable => exact absurd h (Nat.succ_ne_zero _)
      | applyConfigTask uplink => exact .inr ⟨uplink, rfl⟩
      | removeUser body | removeUserPacket uuid | serviceTokenRemoval => exact absurd rfl hremoves
      | _ => exact absurd rfl hquiet

theorem tunnels_closeAll : s.closeAllRemoteConnections.tunnels = [] := by
  apply List.filterMap_eq_nil_iff.mpr
  intro c' hc'
  obtain ⟨c, -, rfl⟩ := List.mem_map.mp hc'
  cases h : c.conn with
  | none => simp
  | some t => simp [Connection.close]

end

/-- A tunnel that is open when the configuration was applied has a stored key. -/
theorem applyConfigTask_tunnels (hpending : s.applyConfigs ≠ 0)
    (hok : s.Revokes (.applyConfigTask uplink)) {t : Tunnel κ}
    (ht : t ∈ (s.handle (.applyConfigTask uplink)).1.tunnels) :
    s.keys (userOf t.number) (t.number % maxKeysPerUser) = some t.key := by
  obtain hmanagement | hkeys := hok.1 rfl
  · simp only [handle, if_neg hpending] at ht
    obtain ⟨u, hu⟩ : ∃ u, u = { s with applyConfigs := s.applyConfigs - 1 } := ⟨_, rfl⟩
    rw [← hu] at ht
    have hconn := congrArg Core.connections (core_applyConfig u uplink)
    rw [if_pos (by rw [hu]; exact hmanagement)] at hconn
    have hnone : (u.applyConfig uplink).tunnels = [] :=
      (congrArg (List.filterMap Connection.conn) hconn).trans (tunnels_closeAll u)
    rw [hnone] at ht
    exact absurd ht List.not_mem_nil
  · exact hkeys t ((handle_onlyCloses s rfl).1.mem_tunnels ht)

/-- No key of a set is stored for an ID, and no tunnel with such a key is open for it once a
configuration that is to be applied has been. -/
structure Barred (s : State κ) (id : Nat) (K : κ → Prop) : Prop where
  keys : ∀ k < maxKeysPerUser, ∀ key, s.keys id k = some key → ¬ K key
  tunnels : s.applyConfigs = 0 → ∀ t ∈ s.tunnels, userOf t.number = id → ¬ K t.key

/-- What is barred stays so while nobody hands the keys in again. -/
theorem Barred.handle {K : κ → Prop} (h : s.Barred id K) (hok : s.Revokes event)
    (hnew : ∀ key, (id, key) ∈ s.offers event → ¬ K key) :
    (s.handle event).1.Barred id K where
  keys k hk key hkey := (handle_keys s hkey).elim (h.keys k hk key) (hnew key)
  tunnels hdone t ht huser := by
    obtain hnone | ⟨uplink, rfl⟩ := handle_applyConfigs s hdone
    · obtain hold | hkey := handle_opensWithKeys s event t ht
      · exact h.tunnels hnone t hold huser
      · rw [huser] at hkey
        exact h.keys _ (Nat.mod_lt _ (by decide)) t.key hkey
    · by_cases hpending : s.applyConfigs = 0
      · exact h.tunnels hpending t ((handle_onlyCloses s rfl).1.mem_tunnels ht) huser
      · have hkey := applyConfigTask_tunnels hpending hok ht
        rw [huser] at hkey
        exact h.keys _ (Nat.mod_lt _ (by decide)) t.key hkey

/-- What a removal has to leave behind of a user, and of the others. -/
structure Revoked (s s' : State κ) (user : User) : Prop where
  keys : ∀ k < maxKeysPerUser, s'.keys user.id k = none
  tunnels : s'.applyConfigs = 0 → ∀ t ∈ s'.tunnels, userOf t.number ≠ user.id
  other_keys : ∀ other ∈ s'.users, ∀ k, s'.keys other.id k = s.keys other.id k
  other_tunnels : ∀ other ∈ s'.users, ∀ (i : Nat) (c : Connection κ) (t : Tunnel κ),
    s.connections[i]? = some c → c.conn = some t → userOf t.number = other.id →
      s'.connections[i]? = some c

theorem removeUser_keys (s : State κ) (hid : ∃ user ∈ s.users, user.id = id) (hu : u ≠ 0) :
    (s.removeUser id).keys u k = if u = id ∧ k < maxKeysPerUser then none else s.keys u k := by
  cases h : s.users.findIdx? fun user => user.id = id with
  | none =>
    obtain ⟨user, hmem, huser⟩ := hid
    exact absurd huser (by simpa using List.findIdx?_eq_none_iff.mp h user hmem)
  | some idx =>
    have hkeys := congrArg Core.keys (core_removeUser h)
    change (s.removeUser id).keys = _ at hkeys
    rw [hkeys, ← KeyFiles.removeKeys_apply]
    dsimp only
    split
    · rfl
    · exact if_neg fun h => hu h.1

theorem removeUser_last (hid : ∃ user ∈ s.users, user.id = id)
    (hlast : ∀ other ∈ s.users.eraseP fun user => user.id = id, other.id = 255) :
    (s.removeUser id).applyConfigs = s.applyConfigs + 1 := by
  cases h : s.users.findIdx? fun user => user.id = id with
  | none =>
    obtain ⟨user, hmem, huser⟩ := hid
    exact absurd huser (by simpa using List.findIdx?_eq_none_iff.mp h user hmem)
  | some idx =>
    rw [List.eraseP_eq_eraseIdx, h] at hlast
    have happly := congrArg Core.applyConfigs (core_removeUser h)
    change (s.removeUser id).applyConfigs = _ at happly
    rw [happly]
    dsimp only
    rw [if_neg]
    simpa using hlast

theorem core_removal (hremoves : event.removes = true) (htarget : s.removalTarget event = some id) :
    (s.handle event).1.core =
      ((if event.closes then s.closeConnectionsOf id else s).removeUser id).core := by
  rw [core_handle_removes s hremoves, htarget]

theorem removal_eq (hremoves : event.removes = true) :
    s.removal event = match s.removalTarget event with
      | none => ([], s.users)
      | some id => ((s.users.find? fun user => user.id = id).toList,
          s.users.eraseP fun user => user.id = id) := by
  cases event <;> first
    | exact absurd hremoves Bool.false_ne_true
    | rfl

/-- The three events that call `remove_user` take the access away. -/
theorem removal_revokes (hseats : s.Seats) (hnumbered : s.Numbered)
    (hremoves : event.removes = true) (hok : s.Revokes event) (hmem : user ∈ (s.removal event).1) :
    s.Revoked (s.handle event).1 user := by
  obtain ⟨hothers, hclosed⟩ := hok.2 user hmem
  rw [removal_eq hremoves] at hmem hothers hclosed
  cases htarget : s.removalTarget event with
  | none =>
    rw [htarget] at hmem
    exact absurd hmem List.not_mem_nil
  | some id =>
    rw [htarget] at hmem hothers hclosed
    have hfound := Option.mem_toList.mp hmem
    have hstored := List.mem_of_find?_eq_some hfound
    have hid : user.id = id := by simpa using List.find?_some hfound
    have hrange := hnumbered.users user hstored
    rw [hid] at hothers hclosed hrange
    obtain ⟨t, ht⟩ : ∃ t, t = if event.closes then s.closeConnectionsOf id else s := ⟨_, rfl⟩
    have hsame : t.users = s.users ∧ t.keys = s.keys ∧ t.applyConfigs = s.applyConfigs := by
      rw [ht]
      split <;> exact ⟨rfl, rfl, rfl⟩
    have hexists : ∃ user ∈ t.users, user.id = id := ⟨user, hsame.1 ▸ hstored, hid⟩
    have hcore := core_removal hremoves htarget
    rw [← ht] at hcore
    have hkeys : (s.handle event).1.keys = (t.removeUser id).keys := congrArg Core.keys hcore
    have hconnections : (s.handle event).1.connections = t.connections :=
      (congrArg Core.connections hcore).trans (removeUser_connections t id)
    have happly : (s.handle event).1.applyConfigs = (t.removeUser id).applyConfigs :=
      congrArg Core.applyConfigs hcore
    have husers := (users_handle_removes s hremoves).1
    rw [htarget] at husers
    have hstays : ∀ other ∈ (s.handle event).1.users, other.id ≠ id := by
      intro other hother
      rw [husers] at hother
      exact hothers other hother
    have hafter := hnumbered.handle event
    refine ⟨fun k hk => ?_, fun hdone tunnel htunnel => ?_, fun other hother k => ?_, ?_⟩
    · rw [hid, hkeys, removeUser_keys t hexists (by have := hrange.1; omega), if_pos ⟨rfl, hk⟩]
    · rw [tunnels, hconnections, ht] at htunnel
      rw [hid]
      cases hcloses : event.closes with
      | true =>
        rw [hcloses, if_pos rfl] at htunnel
        exact (hseats.closeConnectionsOf hrange.1 hrange.2).2 tunnel htunnel
      | false =>
        rw [hcloses, if_neg Bool.false_ne_true] at htunnel
        obtain hcloses' | ⟨-, hlast⟩ | hnone := hclosed
        · exact absurd (hcloses.symm.trans hcloses') Bool.false_ne_true
        · rw [happly, removeUser_last hexists (by rw [hsame.1]; exact hlast)] at hdone
          exact absurd hdone (Nat.succ_ne_zero _)
        · exact hnone tunnel htunnel
    · have hne := hstays other hother
      have hpos := (hafter.users other hother).1
      rw [hkeys, removeUser_keys t hexists (by omega), if_neg fun h => hne h.1, hsame.2.1]
    · intro other hother i c tunnel hc htunnel huser
      have hne := hstays other hother
      rw [hconnections, ht]
      split
      · exact (hseats.closeConnectionsOf hrange.1 hrange.2).1 i c tunnel hc htunnel
          (by rw [huser]; exact hne)
      · exact hc

/-- The response to a management request takes the access away. -/
theorem response_revokes (hok : s.Revokes (.nextStage index fresh clockSynced uplink))
    (hmem : user ∈ (s.removal (.nextStage index fresh clockSynced uplink)).1) :
    s.Revoked (s.handle (.nextStage index fresh clockSynced uplink)).1 user := by
  simp only [removal] at hmem
  split at hmem
  · rename_i configuredUsers doc hstage hdoc
    have hremoval : s.removal (.nextStage index fresh clockSynced uplink) =
        (doc.reported s.users, doc.keeps s.users) := by
      simp only [removal, hstage, hdoc]
    have hcore : (s.handle (.nextStage index fresh clockSynced uplink)).1.core = { s.core with
          users := doc.keeps s.users
          keys := s.keys.dropUsers (doc.reported s.users)
          uploadConfigs := dropUploads s.uploadConfigs (doc.reported s.users)
          nextStages := s.nextStages.eraseIdx index } := by
      simp only [handle, nextStage, hstage]
      exact core_managementResponse_ok
        (s := { s with nextStages := s.nextStages.eraseIdx index }) hdoc clockSynced
    have hkeys : (s.handle (.nextStage index fresh clockSynced uplink)).1.keys =
        s.keys.dropUsers (doc.reported s.users) := congrArg Core.keys hcore
    have hconnections : (s.handle (.nextStage index fresh clockSynced uplink)).1.connections =
        s.connections := congrArg Core.connections hcore
    have husers : (s.handle (.nextStage index fresh clockSynced uplink)).1.users =
        doc.keeps s.users := congrArg Core.users hcore
    refine ⟨fun k hk => ?_, fun _ tunnel htunnel => ?_, fun other hother k => ?_, ?_⟩
    · rw [hkeys, KeyFiles.dropUsers_apply, if_pos ⟨⟨user, hmem, rfl⟩, hk⟩]
    · rw [tunnels, hconnections] at htunnel
      obtain hcloses | ⟨hremoves, -⟩ | hnone := (hok.2 user (hremoval ▸ hmem)).2
      · exact absurd hcloses Bool.false_ne_true
      · exact absurd hremoves Bool.false_ne_true
      · exact hnone tunnel htunnel
    · rw [hkeys, KeyFiles.dropUsers_apply, if_neg]
      rintro ⟨⟨gone, hgone, hid⟩, -⟩
      have hstay := (hok.2 gone (hremoval ▸ hgone)).1 other
      rw [hremoval] at hstay
      exact hstay (husers ▸ hother) hid.symm
    · intro other _ i c tunnel hc _ _
      rw [hconnections]
      exact hc
  · exact absurd hmem List.not_mem_nil

theorem handle_revokes (hseats : s.Seats) (hnumbered : s.Numbered) (hok : s.Revokes event)
    (hmem : user ∈ (s.removal event).1) :
    s.Revoked (s.handle event).1 user := by
  by_cases hremoves : event.removes = true
  · exact removal_revokes hseats hnumbered hremoves hok hmem
  · cases event with
    | nextStage index fresh clockSynced uplink => exact response_revokes hok hmem
    | removeUser body | removeUserPacket uuid | serviceTokenRemoval => exact absurd rfl hremoves
    | _ => exact absurd hmem List.not_mem_nil

/-- The keys of a user who was just removed are barred, whatever they are. -/
theorem Revoked.barred {s' : State κ} (h : s.Revoked s' user) (K : κ → Prop) :
    s'.Barred user.id K where
  keys k hk _ hkey := nomatch (h.keys k hk).symm.trans hkey
  tunnels hdone t ht huser := absurd huser (h.tunnels hdone t ht)

theorem Barred.step {s : State κ} {id : Nat} {K : κ → Prop} (h : s.Barred id K) {event : Event κ}
    (hok : s.Revokes event) (hnew : ∀ key, (id, key) ∈ s.offers event → ¬ K key) :
    (s.step event).Barred id K := by
  rw [State.step]
  split
  · exact h
  · exact h.handle hok hnew

/-- In a run whose removals and new configurations meet the condition, a removed user has neither
key files nor tunnels, at once and as long as nobody hands the keys in again, and nothing of
another user was touched. -/
theorem removed_user_revoked (config : StoredConfig κ) (before after : List (Event κ))
    (event : Event κ) (user : User)
    (h : Meets step Revokes config.setup (before ++ event :: after))
    (hmem : user ∈ (config.after before).removedBy event) :
    (config.after before).Revoked (config.after (before ++ [event])) user ∧ ∀ K : κ → Prop,
        Meets step (fun s e => ∀ key, (user.id, key) ∈ s.offers e → ¬ K key)
          (config.after (before ++ [event])) after →
        (config.after (before ++ event :: after)).Barred user.id K := by
  obtain ⟨-, hok, hafter⟩ := h.append
  have hstep : config.after (before ++ [event]) = (config.after before).step event :=
    run_append config.setup before [event]
  have hend : config.after (before ++ event :: after) =
      run step ((config.after before).step event) after :=
    run_append config.setup before (event :: after)
  rw [removedBy] at hmem
  split at hmem
  · exact absurd hmem List.not_mem_nil
  · rename_i hrunning
    have hrevoked : (config.after before).Revoked ((config.after before).step event) user := by
      rw [step, if_neg hrunning]
      exact handle_revokes (.after config before) (.after config before) hok hmem
    rw [hstep, hend]
    refine ⟨hrevoked, fun K hnew => ?_⟩
    exact (hafter.and hnew).invariant (I := fun s : State κ => s.Barred user.id K)
      (fun _ _ hbarred hboth => hbarred.step hboth.1 hboth.2) (hrevoked.barred K)

end State

/-- Two users with five keys each, next to the key of the device. -/
def twoUsers : StoredConfig Nat where
  users := [⟨1, "a@example.com", "00-01", "A"⟩, ⟨2, "b@example.com", "00-02", "B"⟩]
  keys u k := if (u = 0 ∧ k = 0) ∨ ((u = 1 ∨ u = 2) ∧ k < maxKeysPerUser) then some (10 * u + k)
    else none
  uuid := "charger"
  enable := true
  serviceTokenUserUuid := ""
  uploadConfigs := []
  ids_in_range := by decide

/-- The management connection is up, and the first user has opened the tunnel with number 3. -/
def firstUserConnected : List (Event Nat) :=
  [.networkChange true,
    .resolveTick,
    .responseChunk { document := .ok { configuredUsers := [.integer 1, .integer 1] } },
    .requestFinished,
    .nextStage 0 (.error "") true true,
    .connectCommand 3 7 false true,
    .lookupDone 0 true true]

def removeFirst : Event Nat := .removeUser ⟨8, true, true, .ok 1⟩

/-- The packet closes the tunnel, which cannot be opened again. -/
theorem removed_user_revoked_packet :
    (twoUsers.after (firstUserConnected ++ .removeUserPacket "00-01" ::
      [.connectCommand 3 8 false true, .lookupDone 0 true true])).Barred 1 fun _ => True :=
  (State.removed_user_revoked twoUsers firstUserConnected
    [.connectCommand 3 8 false true, .lookupDone 0 true true] (.removeUserPacket "00-01")
    ⟨1, "a@example.com", "00-01", "A"⟩ (by decide) (by decide)).2 _
    ⟨fun _ h => absurd h List.not_mem_nil, fun _ h => absurd h List.not_mem_nil, trivial⟩

/-- The request removes the user and leaves the tunnel open. -/
theorem request_leaves_tunnel :
    (twoUsers.after firstUserConnected).removedBy removeFirst =
      [⟨1, "a@example.com", "00-01", "A"⟩] ∧
    ¬ (twoUsers.after firstUserConnected).Revoked
      (twoUsers.after (firstUserConnected ++ [removeFirst])) ⟨1, "a@example.com", "00-01", "A"⟩ := by
  refine ⟨by decide, fun h => ?_⟩
  have hopen : (⟨3, 13⟩ : Tunnel Nat) ∈
      (twoUsers.after (firstUserConnected ++ [removeFirst])).tunnels := by decide
  exact h.tunnels (by decide) ⟨3, 13⟩ hopen rfl

end Esp32Firmware.RemoteAccess
