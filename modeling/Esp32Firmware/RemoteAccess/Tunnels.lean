import Esp32Firmware.RemoteAccess.Effects

/-!
# Tunnels over a run

A tunnel opens with a key that is stored for its number. Every open tunnel stays in the first slot
with its number, so that the search for the number finds it.
-/

namespace Esp32Firmware.RemoteAccess

variable {κ : Type*}

namespace State

/-- Tunnels are closed at most, and nothing is set up. -/
def OnlyCloses (s s' : State κ) : Prop :=
  Loosened s.connections s'.connections ∧ s'.lookups = s.lookups ∧
    s'.connectRetries = s.connectRetries

theorem OnlyCloses.of_core {s s' : State κ} (h : s'.core = s.core) : s.OnlyCloses s' :=
  ⟨.of_eq (congrArg Core.connections h), congrArg Core.lookups h, congrArg Core.connectRetries h⟩

/-- The same with connections that are given apart. -/
theorem OnlyCloses.of_core_eq {s s' : State κ} {connections : List (Connection κ)} {c : Core κ}
    (h : s'.core = c) (hconn : c.connections = connections)
    (hloose : Loosened s.connections connections) (hlookups : c.lookups = s.lookups)
    (hretries : c.connectRetries = s.connectRetries) : s.OnlyCloses s' := by
  subst h hconn
  exact ⟨hloose, hlookups, hretries⟩

theorem OnlyCloses.trans {s s' s'' : State κ} (h : s.OnlyCloses s') (h' : s'.OnlyCloses s'') :
    s.OnlyCloses s'' :=
  ⟨h.1.trans h'.1, h'.2.1.trans h.2.1, h'.2.2.trans h.2.2⟩

theorem closeAll_loosened (connections : List (Connection κ)) :
    Loosened connections (connections.map fun c =>
      if c.conn.isSome then c.close else { c with inProgress := false }) := by
  apply Loosened.map
  intro c
  cases c.conn.isSome with
  | true => exact c.close_loosened
  | false => exact .inl ⟨rfl, rfl⟩

variable (s : State κ)

theorem closeAll_onlyCloses : s.OnlyCloses s.closeAllRemoteConnections :=
  ⟨closeAll_loosened s.connections, rfl, rfl⟩

theorem applyConfig_onlyCloses (uplink : Bool) :
    s.OnlyCloses (s.applyConfig uplink) := by
  have hcore := core_applyConfig s uplink
  split at hcore
  · exact (closeAll_onlyCloses s).trans (.of_core hcore)
  · exact .of_core hcore

theorem closeConnectionsOf_loosened (userId : Nat) :
    Loosened s.connections (s.closeConnectionsOf userId).connections := by
  simp only [closeConnectionsOf]
  generalize List.range maxKeysPerUser = connIds
  generalize s.connections = connections
  induction connIds generalizing connections with
  | nil => exact .refl connections
  | cons connId connIds ih =>
    rw [List.foldl_cons]
    exact (closeConnection_loosened connections _).trans (ih _)

theorem removeUser_onlyCloses (id : Nat) : s.OnlyCloses (s.removeUser id) := by
  cases h : s.users.findIdx? fun user => user.id = id with
  | none =>
    rw [core_removeUser_unknown h]
    exact .of_core rfl
  | some idx =>
    have hcore := core_removeUser h
    dsimp only at hcore
    split at hcore <;> exact .of_core_eq hcore rfl (.refl _) rfl rfl

theorem removeUser_connections (id : Nat) :
    (s.removeUser id).connections = s.connections := by
  cases h : s.users.findIdx? fun user => user.id = id with
  | none => rw [core_removeUser_unknown h]
  | some idx =>
    refine (congrArg Core.connections (core_removeUser h)).trans ?_
    dsimp only
    split <;> rfl

theorem removal_onlyCloses {event : Event κ} (h : event.removes = true) :
    s.OnlyCloses (s.handle event).1 := by
  have hcore := core_handle_removes s h
  cases htarget : s.removalTarget event with
  | none =>
    rw [htarget] at hcore
    exact .of_core hcore
  | some id =>
    rw [htarget] at hcore
    refine OnlyCloses.trans ?_ (.of_core hcore)
    refine OnlyCloses.trans ?_ (removeUser_onlyCloses _ id)
    split
    · exact ⟨closeConnectionsOf_loosened s id, rfl, rfl⟩
    · exact .of_core rfl

theorem nextStage_onlyCloses (index : Nat) (fresh : Except String (FreshKeys κ))
    (clockSynced uplink : Bool) :
    s.OnlyCloses (s.nextStage index fresh clockSynced uplink).1 := by
  rw [nextStage]
  cases s.nextStages[index]? with
  | none => exact .of_core rfl
  | some pending =>
    obtain ⟨t, ht⟩ : ∃ t, t = { s with nextStages := s.nextStages.eraseIdx index } := ⟨_, rfl⟩
    have hstart : s.OnlyCloses t := by
      rw [ht]
      exact ⟨.refl _, rfl, rfl⟩
    refine hstart.trans ?_
    dsimp only
    rw [← ht]
    cases pending with
    | serviceToken => exact .of_core (core_parseServiceToken t fresh)
    | registration config keys publicKey email isServiceToken replaced =>
      obtain h | ⟨management, -, -, ⟨message, h⟩ | ⟨-, user, connections, -, h, hopen⟩⟩ :=
        core_parseRegistration t config keys publicKey email isServiceToken uplink
      · exact .of_core h
      · exact .of_core_eq h rfl (.refl _) rfl rfl
      · refine .of_core_eq h rfl ?_ rfl rfl
        obtain rfl | rfl := hopen
        · exact .refl _
        · exact closeAll_loosened t.connections
    | addUser keys publicKey email nextUserId isServiceToken =>
      obtain h | ⟨-, -, message, h⟩ | ⟨-, -, user, -, h⟩ :=
        core_parseAddUser t keys publicKey email nextUserId isServiceToken <;>
        exact .of_core_eq h rfl (.refl _) rfl rfl
    | management oldApi configuredUsers =>
      obtain h | ⟨doc, -, -, h⟩ := core_managementResponse t oldApi clockSynced <;>
        exact .of_core_eq h rfl (.refl _) rfl rfl
    | selfdestruct => exact .of_core rfl

end State

/-- The events that may open a tunnel, or prepare one. -/
def Event.connects : Event κ → Bool
  | .connectCommand _ _ _ _ | .lookupDone _ _ _ | .connectRetry _ _ => true
  | _ => false

namespace State

theorem handle_onlyCloses (s : State κ) {event : Event κ} (h : event.connects = false) :
    s.OnlyCloses (s.handle event).1 := by
  cases event with
  | register body fresh =>
    exact .of_core_eq (core_register s body fresh) rfl (.refl _) rfl rfl
  | addUser body fresh => exact .of_core (core_addUser s body fresh)
  | removeUser body | removeUserPacket uuid | serviceTokenRemoval => exact removal_onlyCloses s rfl
  | serviceTokenRegister => exact .of_core (core_serviceTokenRegister s)
  | responseChunk body => exact .of_core (core_responseChunk s body)
  | requestFinished =>
    simp only [handle, requestFinished]
    split <;> exact ⟨.refl _, rfl, rfl⟩
  | requestError error =>
    simp only [handle]
    split
    · exact .of_core rfl
    · exact .of_core (core_requestError _ error _)
  | nextStage index fresh clockSynced uplink =>
    exact nextStage_onlyCloses s index fresh clockSynced uplink
  | cleanup =>
    simp only [handle]
    split <;> exact .of_core rfl
  | connectCommand connectionNo connectionUuid connectClosed portFound
  | lookupDone index answerSent clockSynced | connectRetry index clockSynced => cases h
  | disconnectCommand connectionNo =>
    simp only [handle, disconnectCommand]
    split
    · exact ⟨closeConnection_loosened s.connections connectionNo, rfl, rfl⟩
    · exact .of_core rfl
  | managementRetry clockSynced =>
    simp only [handle]
    split
    · exact .of_core rfl
    · exact .of_core (core_connectManagement _ clockSynced)
  | managementLost => exact closeAll_onlyCloses _
  | managementTimeout => exact .of_core rfl
  | resolveTick => exact .of_core (core_resolveTick s)
  | configUpdate enable => exact ⟨.refl _, rfl, rfl⟩
  | applyConfigTask uplink =>
    simp only [handle]
    split
    · exact .of_core rfl
    · exact applyConfig_onlyCloses _ uplink
  | networkChange uplink => exact applyConfig_onlyCloses s uplink

/-- No tunnel is open that was not, but for one with a key that is stored. -/
def OpensWithKeys (s s' : State κ) : Prop :=
  ∀ t ∈ s'.tunnels,
    t ∈ s.tunnels ∨ s.keys (userOf t.number) (t.number % maxKeysPerUser) = some t.key

theorem OpensWithKeys.of_closes {s s' : State κ}
    (h : Loosened s.connections s'.connections) : s.OpensWithKeys s' :=
  fun _ ht => .inl (h.mem_tunnels ht)

theorem OpensWithKeys.closes {s s' s'' : State κ} (h : s.OpensWithKeys s')
    (hloose : Loosened s'.connections s''.connections) : s.OpensWithKeys s'' :=
  fun t ht => h t (hloose.mem_tunnels ht)

/-- A slot may change in all but its tunnel. -/
theorem opensWithKeys_modify {s s' : State κ} {connIdx : Nat} {f : Connection κ → Connection κ}
    (h : s'.connections = s.connections.modify connIdx f)
    (hf : ∀ c t, (f c).conn = some t →
      c.conn = some t ∨ s.keys (userOf t.number) (t.number % maxKeysPerUser) = some t.key) :
    s.OpensWithKeys s' := by
  intro t ht
  rw [tunnels, h] at ht
  obtain ⟨c', hc', hconn⟩ := List.mem_filterMap.mp ht
  obtain ⟨j, hj⟩ := List.mem_iff_getElem?.mp hc'
  rw [List.getElem?_modify] at hj
  obtain ⟨c, hc, rfl⟩ := Option.map_eq_some_iff.mp hj
  have hmem : c.conn = some t → t ∈ s.tunnels := fun hold =>
    List.mem_filterMap.mpr ⟨c, List.mem_of_getElem? hc, hold⟩
  split at hconn
  · exact (hf c t hconn).imp_left hmem
  · exact .inl (hmem hconn)

theorem connectRemoteAccess_opens (s : State κ) (i : Nat) (clockSynced : Bool) :
    s.OpensWithKeys (s.connectRemoteAccess i clockSynced) := by
  rw [connectRemoteAccess]
  split
  · split
    · exact .of_closes (.refl _)
    · rename_i key hkey
      split
      · exact .of_closes (.refl _)
      · refine opensWithKeys_modify rfl ?_
        intro c t ht
        obtain rfl := Option.some.inj ht
        exact .inr hkey
  · exact .of_closes (.refl _)

theorem handle_opensWithKeys (s : State κ) (event : Event κ) :
    s.OpensWithKeys (s.handle event).1 := by
  cases hconnects : event.connects with
  | false => exact .of_closes (handle_onlyCloses s hconnects).1
  | true =>
    cases event with
    | connectCommand connectionNo connectionUuid connectClosed portFound =>
      simp only [handle, connectCommand]
      split
      · split
        · exact .of_closes (.refl _)
        · split
          · exact .of_closes (.refl _)
          · split
            · exact opensWithKeys_modify rfl fun c t ht => .inl ht
            · split <;> exact opensWithKeys_modify rfl fun c t ht => .inl ht
      · exact .of_closes (.refl _)
    | lookupDone index answerSent clockSynced =>
      simp only [handle, lookupDone]
      split
      · exact .of_closes (.refl _)
      · split
        · exact .of_closes (.refl _)
        · rename_i lookup _ _
          refine OpensWithKeys.closes ?_ (.modify fun c => .inl ⟨rfl, rfl⟩)
          cases answerSent with
          | false => exact .of_closes (.refl _)
          | true =>
            exact connectRemoteAccess_opens { s with lookups := _ } lookup.number clockSynced
    | connectRetry index clockSynced =>
      simp only [handle, connectRetry]
      split
      · exact .of_closes (.refl _)
      · exact connectRemoteAccess_opens { s with connectRetries := _ } _ clockSynced
    | _ => cases hconnects

/-- Open tunnels are seated, and the numbers that wait for a tunnel are in range. -/
structure Seats (s : State κ) : Prop where
  seated : Seated s.connections
  lookups_lt : ∀ lookup ∈ s.lookups, lookup.number < maxKeysPerUser * maxUsers
  retries_lt : ∀ i ∈ s.connectRetries, i < maxKeysPerUser * maxUsers

namespace Seats

variable {s s' : State κ}

section

variable (h : s.Seats)
include h

theorem onlyCloses (hclose : s.OnlyCloses s') : s'.Seats where
  seated := hclose.1.seated h.seated
  lookups_lt := hclose.2.1 ▸ h.lookups_lt
  retries_lt := hclose.2.2 ▸ h.retries_lt

theorem connectRemoteAccess {i : Nat} (hi : i < maxKeysPerUser * maxUsers)
    (clockSynced : Bool) : (s.connectRemoteAccess i clockSynced).Seats := by
  rw [State.connectRemoteAccess]
  split
  · split
    · exact h
    · rename_i key _
      split
      · exact h
      · rename_i connIdx hfound
        refine { h with seated := ?_ }
        exact h.seated.assign hi hfound (fun _ => rfl) fun _ => .inr ⟨key, rfl⟩
  · refine { h with retries_lt := ?_ }
    intro j hj
    obtain hj | hj := List.mem_append.mp hj
    · exact h.retries_lt j hj
    · exact List.mem_singleton.mp hj ▸ hi

/-- The slot that is found takes the number and keeps its tunnel, if any. -/
theorem takeNumber {number connIdx : Nat} (hnumber : number < maxKeysPerUser * maxUsers)
    (hfound : getConnection s.connections number = some connIdx)
    (f : Connection κ → Connection κ) (hid : ∀ c, (f c).id = number)
    (hconn : ∀ c, (f c).conn = c.conn) :
    ({ s with connections := s.connections.modify connIdx f } : State κ).Seats :=
  { h with seated := h.seated.assign hnumber hfound hid fun c => .inl (hconn c) }

theorem connectCommand (connectionNo : Int) (connectionUuid : Nat)
    (connectClosed portFound : Bool) :
    (s.connectCommand connectionNo connectionUuid connectClosed portFound).Seats := by
  simp only [State.connectCommand]
  split
  · rename_i hrange
    simp only [numberInRange, Bool.and_eq_true, decide_eq_true_eq] at hrange
    have hnumber : connectionNo.toNat < maxKeysPerUser * maxUsers := by omega
    have hnat : ((connectionNo.toNat : Nat) : Int) = connectionNo := Int.toNat_of_nonneg hrange.1
    split
    · exact h
    · rename_i connIdx hfound
      rw [← hnat] at hfound
      have htake := h.takeNumber hnumber hfound
      split
      · exact h
      · split
        · exact htake _ (fun _ => rfl) (fun _ => rfl)
        · split
          · refine ⟨h.seated.assign hnumber hfound ?_ ?_, ?_, h.retries_lt⟩
            · exact fun _ => rfl
            · exact fun _ => .inl rfl
            · intro lookup hlookup
              obtain hlookup | hlookup := List.mem_append.mp hlookup
              · exact h.lookups_lt lookup hlookup
              · rw [List.mem_singleton.mp hlookup]
                exact hnumber
          · exact htake _ (fun _ => rfl) (fun _ => rfl)
  · exact h

theorem lookupDone (index : Nat) (answerSent clockSynced : Bool) :
    (s.lookupDone index answerSent clockSynced).Seats := by
  rw [State.lookupDone]
  cases hlookup : s.lookups[index]? with
  | none => exact h
  | some lookup =>
    have hrest : ({ s with lookups := s.lookups.eraseIdx index } : State κ).Seats :=
      { h with lookups_lt := fun l hl => h.lookups_lt l (List.mem_of_mem_eraseIdx hl) }
    have hnumber := h.lookups_lt lookup (List.mem_of_getElem? hlookup)
    dsimp only
    split
    · exact hrest
    · refine onlyCloses (s := if answerSent then _ else _) ?_
        ⟨.modify fun c => .inl ⟨rfl, rfl⟩, rfl, rfl⟩
      split
      · exact hrest.connectRemoteAccess hnumber clockSynced
      · exact hrest

theorem connectRetry (index : Nat) (clockSynced : Bool) :
    (s.connectRetry index clockSynced).Seats := by
  rw [State.connectRetry]
  cases hretry : s.connectRetries[index]? with
  | none => exact h
  | some i =>
    have hrest : ({ s with connectRetries := s.connectRetries.eraseIdx index } : State κ).Seats :=
      { h with retries_lt := fun j hj => h.retries_lt j (List.mem_of_mem_eraseIdx hj) }
    exact hrest.connectRemoteAccess (h.retries_lt i (List.mem_of_getElem? hretry)) clockSynced

theorem handle (event : Event κ) : (s.handle event).1.Seats := by
  cases hconnects : event.connects with
  | false => exact h.onlyCloses (handle_onlyCloses s hconnects)
  | true =>
    cases event with
    | connectCommand connectionNo connectionUuid connectClosed portFound =>
      exact h.connectCommand connectionNo connectionUuid connectClosed portFound
    | lookupDone index answerSent clockSynced => exact h.lookupDone index answerSent clockSynced
    | connectRetry index clockSynced => exact h.connectRetry index clockSynced
    | _ => cases hconnects

theorem step (event : Event κ) : (s.step event).Seats := by
  rw [State.step]
  split
  · exact h
  · exact h.handle event

end

theorem setup (config : StoredConfig κ) : config.setup.Seats where
  seated i c t hc ht := by
    have hmem : c ∈ List.replicate maxUserConnections ({} : Connection κ) :=
      List.mem_of_getElem? hc
    rw [List.eq_of_mem_replicate hmem] at ht
    exact nomatch ht
  lookups_lt _ hlookup := absurd hlookup List.not_mem_nil
  retries_lt _ hretry := absurd hretry List.not_mem_nil

theorem after (config : StoredConfig κ) (events : List (Event κ)) : (config.after events).Seats :=
  run_invariant (I := fun s : State κ => s.Seats) (fun _ event h => h.step event) (setup config)
    events

end Seats

theorem userOf_eq_iff {number userId : Nat} (hid : 1 ≤ userId) :
    userOf number = userId ↔ ∃ connId < maxKeysPerUser,
      number = (userId - 1) * maxKeysPerUser + connId := by
  simp only [userOf, maxKeysPerUser]
  constructor
  · intro h
    exact ⟨number % 5, Nat.mod_lt _ (by decide), by omega⟩
  · rintro ⟨connId, hlt, rfl⟩
    omega

/-- The packet leaves the tunnels of other users alone and closes those of its user. -/
theorem Seats.closeConnectionsOf {s : State κ} (h : s.Seats) {userId : Nat} (hid : 1 ≤ userId)
    (hmax : userId ≤ maxUsers) :
    (∀ (i : Nat) (c : Connection κ) (t : Tunnel κ), s.connections[i]? = some c → c.conn = some t →
      userOf t.number ≠ userId → (s.closeConnectionsOf userId).connections[i]? = some c) ∧
    ∀ t ∈ (s.closeConnectionsOf userId).tunnels, userOf t.number ≠ userId := by
  -- after `n` turns the first `n` numbers of the user are closed
  obtain ⟨loop, hloop⟩ : ∃ loop : Nat → List (Connection κ), loop = fun n =>
      (List.range n).foldl (fun connections (connId : Nat) =>
        closeConnection connections (((userId : Int) - 1) * maxKeysPerUser + connId))
        s.connections := ⟨_, rfl⟩
  have hnext (n : Nat) : loop (n + 1) =
      closeConnection (loop n) (((userId - 1) * maxKeysPerUser + n : Nat) : Int) := by
    have hcast : (((userId - 1) * maxKeysPerUser + n : Nat) : Int) =
        ((userId : Int) - 1) * maxKeysPerUser + n := by
      push_cast [Nat.cast_sub hid]
      rfl
    rw [hloop, hcast]
    simp only [List.range_succ, List.foldl_append, List.foldl_cons, List.foldl_nil]
  have hinv (n : Nat) (hn : n ≤ maxKeysPerUser) : Seated (loop n) ∧
      (∀ (i : Nat) (c : Connection κ) (t : Tunnel κ), s.connections[i]? = some c →
        c.conn = some t → userOf t.number ≠ userId → (loop n)[i]? = some c) ∧
      ∀ (i : Nat) (c : Connection κ) (t : Tunnel κ), (loop n)[i]? = some c → c.conn = some t →
        ∀ connId < n, t.number ≠ (userId - 1) * maxKeysPerUser + connId := by
    induction n with
    | zero =>
      refine ⟨by rw [hloop]; exact h.seated, ?_, fun _ _ _ _ _ _ hlt => absurd hlt (by omega)⟩
      rw [hloop]
      exact fun i c t hc _ _ => hc
    | succ n ih =>
      obtain ⟨hseated, hother, hclosed⟩ := ih (by omega)
      have hsmall : (userId - 1) * maxKeysPerUser + n < 256 := by
        simp only [maxKeysPerUser, maxUsers] at hn hmax ⊢
        omega
      rw [hnext]
      refine ⟨(closeConnection_loosened _ _).seated hseated, ?_, ?_⟩
      · intro i c t hc ht hne
        refine hseated.closeConnection_other hsmall (hother i c t hc ht hne) ht ?_
        intro hnumber
        exact hne ((userOf_eq_iff hid).mpr ⟨n, by omega, hnumber⟩)
      · intro i c' t hc' ht connId hlt
        obtain hlt | rfl := Nat.lt_succ_iff_lt_or_eq.mp hlt
        · obtain ⟨c, hc, ⟨hconn, -⟩ | ⟨hnone, -⟩⟩ := closeConnection_loosened _ _ i c' hc'
          · exact hclosed i c t hc (hconn.symm.trans ht) connId hlt
          · exact nomatch hnone.symm.trans ht
        · exact hseated.closeConnection_closed hc' ht
  obtain ⟨-, hother, hclosed⟩ := hinv maxKeysPerUser (Nat.le_refl _)
  have hend : (s.closeConnectionsOf userId).connections = loop maxKeysPerUser := by
    rw [hloop]
    rfl
  rw [tunnels, hend]
  refine ⟨hother, ?_⟩
  intro t ht huser
  obtain ⟨c, hc, hconn⟩ := List.mem_filterMap.mp ht
  obtain ⟨i, hi⟩ := List.mem_iff_getElem?.mp hc
  obtain ⟨connId, hlt, hnumber⟩ := (userOf_eq_iff hid).mp huser
  exact hclosed i c t hi hconn connId hlt hnumber

end State

end Esp32Firmware.RemoteAccess
