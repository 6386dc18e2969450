import Esp32Firmware.RemoteAccess.State

/-!
# Tunnels to the users

Commands of the relay open and close tunnels. A connection number is looked for in the slots, and
a free slot stands in where it has none.

## Implementation notes

Whether a local port is free, the relay's address is found and answered, and the clock is synced
is given for each step. Commands with an old sequence number, which are dropped, are left out.
-/

namespace Esp32Firmware.RemoteAccess

variable {κ : Type*}

/-- The conversion to `uint8_t`. -/
def uint8 (n : Int) : Nat := (n % 256).toNat

/-- `get_connection`: the first slot with this ID, else the first free one. -/
def getConnection (connections : List (Connection κ)) (connId : Int) : Option Nat :=
  (connections.findIdx? fun c => c.id = uint8 connId) <|>
    connections.findIdx? fun c => c.conn.isNone && !c.inProgress

def Connection.close (c : Connection κ) : Connection κ :=
  { c with id := 255, conn := none, inProgress := false }

/-- Close the slot that is found for a connection number. -/
def closeConnection (connections : List (Connection κ)) (connId : Int) : List (Connection κ) :=
  match getConnection connections connId with
  | none => connections
  | some connIdx => connections.modify connIdx Connection.close

namespace State

/-- The connection numbers that commands may name. -/
def numberInRange (number : Int) : Bool := 0 ≤ number && number < (maxKeysPerUser * maxUsers : Nat)

def connectRemoteAccess (s : State κ) (i : Nat) (clockSynced : Bool) : State κ :=
  if clockSynced then
    match s.keys (userOf i) (i % maxKeysPerUser) with
    | none => s
    | some key =>
      match getConnection s.connections i with
      | none => s
      | some connIdx =>
        { s with
          connections := s.connections.modify connIdx fun c =>
            { c with id := i, conn := some ⟨i, key⟩ } }
  else { s with connectRetries := s.connectRetries ++ [i] }

/-- The command to connect; one that was closed a moment ago is ignored. -/
def connectCommand (s : State κ) (connectionNo : Int) (connectionUuid : Nat)
    (connectClosed portFound : Bool) : State κ :=
  if numberInRange connectionNo then
    match getConnection s.connections connectionNo with
    | none => s
    | some connIdx =>
      let slot := s.connections.getD connIdx {}
      let number := connectionNo.toNat
      if connectClosed then s
      else if slot.conn.isSome || slot.inProgress then
        { s with connections := s.connections.modify connIdx fun c => { c with id := number } }
      else if portFound then
        { s with
          connections := s.connections.modify connIdx fun c =>
            { c with id := number, inProgress := true, connectionUuid }
          lookups := s.lookups ++ [⟨number, connIdx, connectionUuid⟩] }
      else
        { s with
          connections := s.connections.modify connIdx fun c =>
            { c with id := number, inProgress := false, connectionUuid } }
  else s

/-- The relay's address is known, or not, and the answer went out. -/
def lookupDone (s : State κ) (index : Nat) (answerSent clockSynced : Bool) : State κ :=
  match s.lookups[index]? with
  | none => s
  | some lookup =>
    let s := { s with lookups := s.lookups.eraseIdx index }
    let slot := s.connections.getD lookup.connIdx {}
    if !slot.inProgress || slot.connectionUuid != lookup.connectionUuid then s
    else
      let s := if answerSent then s.connectRemoteAccess lookup.number clockSynced else s
      { s with
        connections := s.connections.modify lookup.connIdx fun c =>
          { c with inProgress := false } }

/-- The task that waited for the clock to be synced. -/
def connectRetry (s : State κ) (index : Nat) (clockSynced : Bool) : State κ :=
  match s.connectRetries[index]? with
  | none => s
  | some i =>
    { s with connectRetries := s.connectRetries.eraseIdx index }.connectRemoteAccess i clockSynced

def disconnectCommand (s : State κ) (connectionNo : Int) : State κ :=
  if numberInRange connectionNo then
    { s with connections := closeConnection s.connections connectionNo }
  else s

def closeAllRemoteConnections (s : State κ) : State κ :=
  { s with
    connections := s.connections.map fun c =>
      if c.conn.isSome then c.close else { c with inProgress := false } }

/-- The loop of `handle_remove_user_packet` over the connections of a user. -/
def closeConnectionsOf (s : State κ) (userId : Nat) : State κ :=
  { s with
    connections := (List.range maxKeysPerUser).foldl
      (fun connections (connId : Nat) =>
        closeConnection connections (((userId : Int) - 1) * maxKeysPerUser + connId))
      s.connections }

end State

variable {connections : List (Connection κ)} {number connIdx : Nat}

theorem uint8_of_lt (h : number < 256) : uint8 number = number := by
  simp only [uint8]
  omega

/-- The slot is the first with this ID, or a free one where no slot has the ID. -/
theorem getConnection_spec (hnumber : number < 256)
    (h : getConnection connections number = some connIdx) :
    ∃ c, connections[connIdx]? = some c ∧
      ((c.id = number ∧ ∀ j d, j < connIdx → connections[j]? = some d → d.id ≠ number) ∨
        (c.conn = none ∧ ∀ d ∈ connections, d.id ≠ number)) := by
  simp only [getConnection, uint8_of_lt hnumber] at h
  cases hfirst : connections.findIdx? fun c => c.id = number with
  | some i =>
    rw [hfirst] at h
    obtain rfl := Option.some.inj h
    obtain ⟨hlt, hid, hbefore⟩ := List.findIdx?_eq_some_iff_getElem.mp hfirst
    refine ⟨connections[i], List.getElem?_eq_getElem hlt, .inl ⟨by simpa using hid, ?_⟩⟩
    intro j d hj hd
    obtain ⟨hjlt, rfl⟩ := List.getElem?_eq_some_iff.mp hd
    simpa using hbefore j hj
  | none =>
    rw [hfirst] at h
    obtain ⟨hlt, hfree, -⟩ := List.findIdx?_eq_some_iff_getElem.mp h
    simp only [Bool.and_eq_true, Option.isNone_iff_eq_none] at hfree
    refine ⟨connections[connIdx], List.getElem?_eq_getElem hlt, .inr ⟨hfree.1, ?_⟩⟩
    intro d hd
    simpa using List.findIdx?_eq_none_iff.mp hfirst d hd

variable {c : Connection κ} {i : Nat} {t : Tunnel κ} {connections' : List (Connection κ)}
  {f : Connection κ → Connection κ}

/-- A slot with this ID is found if there is one. -/
theorem getConnection_isSome (hnumber : number < 256) (hc : c ∈ connections) (hid : c.id = number) :
    (getConnection connections number).isSome := by
  simp only [getConnection, uint8_of_lt hnumber]
  cases hfirst : connections.findIdx? fun c => c.id = number with
  | some i => rfl
  | none => exact absurd hid (by simpa using List.findIdx?_eq_none_iff.mp hfirst c hc)

/-- Every open tunnel sits in the first slot with its number. -/
def Seated (connections : List (Connection κ)) : Prop :=
  ∀ (i : Nat) (c : Connection κ) (t : Tunnel κ), connections[i]? = some c → c.conn = some t →
    c.id = t.number ∧ t.number < maxKeysPerUser * maxUsers ∧
      ∀ (j : Nat) (d : Connection κ), j < i → connections[j]? = some d → d.id ≠ t.number

theorem Seated.id_eq (h : Seated connections) {i : Nat} {c : Connection κ} {t : Tunnel κ}
    (hc : connections[i]? = some c) (ht : c.conn = some t) : c.id = t.number :=
  (h i c t hc ht).1

/-- The slot that is found for a number holds no tunnel with another number. -/
theorem Seated.found_number (h : Seated connections) (hnumber : number < 256)
    (hfound : getConnection connections number = some connIdx) (hc : connections[connIdx]? = some c)
    (ht : c.conn = some t) : t.number = number := by
  obtain ⟨c', hc', ⟨hid, -⟩ | ⟨hfree, -⟩⟩ := getConnection_spec hnumber hfound
  · obtain rfl := Option.some.inj (hc.symm.trans hc')
    exact (h.id_eq hc ht).symm.trans hid
  · obtain rfl := Option.some.inj (hc.symm.trans hc')
    exact nomatch hfree.symm.trans ht

/-- The slot of an open tunnel is the one that is found for its number. -/
theorem Seated.found (h : Seated connections) {i : Nat} {c : Connection κ} {t : Tunnel κ}
    (hc : connections[i]? = some c) (ht : c.conn = some t) :
    getConnection connections t.number = some i := by
  obtain ⟨hid, hlt, hbefore⟩ := h i c t hc ht
  have hsmall : t.number < 256 := Nat.lt_trans hlt (by decide)
  obtain ⟨j, hj⟩ := Option.isSome_iff_exists.mp
    (getConnection_isSome hsmall (List.mem_of_getElem? hc) hid)
  obtain ⟨d, hd, ⟨hdid, hfirst⟩ | ⟨-, hnone⟩⟩ := getConnection_spec hsmall hj
  · rw [hj]
    congr
    rcases Nat.lt_trichotomy j i with hji | hji | hji
    · exact absurd hdid (hbefore j d hji hd)
    · exact hji
    · exact absurd hid (hfirst i c hji hc)
  · exact absurd hid (hnone c (List.mem_of_getElem? hc))

/-- No slot opens: each stays as it is up to setting up, or is closed. -/
def Loosened (connections connections' : List (Connection κ)) : Prop :=
  ∀ (i : Nat) (c' : Connection κ), connections'[i]? = some c' → ∃ c, connections[i]? = some c ∧
    ((c'.conn = c.conn ∧ c'.id = c.id) ∨ (c'.conn = none ∧ (c'.id = c.id ∨ c'.id = 255)))

theorem Loosened.refl (connections : List (Connection κ)) : Loosened connections connections :=
  fun _ c' h => ⟨c', h, .inl ⟨rfl, rfl⟩⟩

theorem Loosened.of_eq (h : connections' = connections) : Loosened connections connections' :=
  h ▸ .refl connections

theorem Loosened.trans {connections'' : List (Connection κ)} (h : Loosened connections connections')
    (h' : Loosened connections' connections'') :
    Loosened connections connections'' := by
  intro i c'' hc''
  obtain ⟨c', hc', hkept'⟩ := h' i c'' hc''
  obtain ⟨c, hc, hkept⟩ := h i c' hc'
  refine ⟨c, hc, ?_⟩
  grind

section

variable {f : Connection κ → Connection κ}
  (hf : ∀ c, ((f c).conn = c.conn ∧ (f c).id = c.id) ∨ ((f c).conn = none ∧ ((f c).id = c.id ∨ (f c).id = 255)))
include hf

theorem Loosened.modify : Loosened connections (connections.modify connIdx f) := by
  intro i c' h
  rw [List.getElem?_modify] at h
  obtain ⟨c, hc, rfl⟩ := Option.map_eq_some_iff.mp h
  refine ⟨c, hc, ?_⟩
  by_cases hi : connIdx = i
  · rw [if_pos hi]
    exact hf c
  · rw [if_neg hi]
    exact .inl ⟨rfl, rfl⟩

theorem Loosened.map : Loosened connections (connections.map f) := by
  intro i c' h
  rw [List.getElem?_map] at h
  obtain ⟨c, hc, rfl⟩ := Option.map_eq_some_iff.mp h
  exact ⟨c, hc, hf c⟩

end

theorem Loosened.seated (hloose : Loosened connections connections') (h : Seated connections) :
    Seated connections' := by
  intro i c' t hc' ht
  obtain ⟨c, hc, ⟨hconn, hid⟩ | ⟨hnone, -⟩⟩ := hloose i c' hc'
  · obtain ⟨hnumber, hlt, hfirst⟩ := h i c t hc (hconn.symm.trans ht)
    refine ⟨hid.trans hnumber, hlt, ?_⟩
    intro j d' hj hd'
    obtain ⟨d, hd, hkept⟩ := hloose j d' hd'
    have hne := hfirst j d hj hd
    grind
  · exact nomatch hnone.symm.trans ht

/-- A tunnel that is open after slots were only closed was open before. -/
theorem Loosened.mem_tunnels (hloose : Loosened connections connections')
    (ht : t ∈ connections'.filterMap (·.conn)) : t ∈ connections.filterMap (·.conn) := by
  obtain ⟨c', hmem, hconn'⟩ := List.mem_filterMap.mp ht
  obtain ⟨i, hi⟩ := List.mem_iff_getElem?.mp hmem
  obtain ⟨c, hc, ⟨hconn, -⟩ | ⟨hnone, -⟩⟩ := hloose i c' hi
  · exact List.mem_filterMap.mpr ⟨c, List.mem_of_getElem? hc, hconn.symm.trans hconn'⟩
  · exact nomatch hnone.symm.trans hconn'

/-- The slot that is found for a number may take the number and hold its tunnel. -/
theorem Seated.assign (h : Seated connections) (hnumber : number < 25)
    (hfound : getConnection connections number = some connIdx) (hid : ∀ c, (f c).id = number)
    (hconn : ∀ c, (f c).conn = c.conn ∨ ∃ key, (f c).conn = some ⟨number, key⟩) :
    Seated (connections.modify connIdx f) := by
  have hsmall : number < 256 := Nat.lt_trans hnumber (by decide)
  intro i c' t hc' ht
  rw [List.getElem?_modify] at hc'
  obtain ⟨c, hc, rfl⟩ := Option.map_eq_some_iff.mp hc'
  obtain ⟨d₀, hd₀, hslot⟩ := getConnection_spec hsmall hfound
  by_cases hi : connIdx = i
  · -- The slot itself: all before it have other IDs.
    subst hi
    rw [if_pos rfl] at ht ⊢
    have ht' : t.number = number := by
      obtain hold | ⟨key, hnew⟩ := hconn c
      · exact h.found_number hsmall hfound hc (hold.symm.trans ht)
      · rw [Option.some.inj (ht.symm.trans hnew)]
    refine ⟨(hid c).trans ht'.symm, by rw [ht']; exact hnumber, ?_⟩
    intro j d hj hd
    rw [List.getElem?_modify_ne _ _ (Nat.ne_of_gt hj)] at hd
    rw [ht']
    obtain ⟨-, hfirst⟩ | ⟨-, hnone⟩ := hslot
    · exact hfirst j d hj hd
    · exact hnone d (List.mem_of_getElem? hd)
  · rw [if_neg hi] at ht ⊢
    obtain ⟨hcid, hlt, hfirst⟩ := h i c t hc ht
    refine ⟨hcid, hlt, ?_⟩
    intro j d hj hd
    rw [List.getElem?_modify] at hd
    obtain ⟨d', hd', rfl⟩ := Option.map_eq_some_iff.mp hd
    by_cases hj' : connIdx = j
    · -- An open tunnel with this number would be the slot that is found.
      subst hj'
      rw [if_pos rfl, hid]
      intro hsame
      have := h.found hc ht
      rw [← hsame, hfound] at this
      exact hi (Option.some.inj this)
    · rw [if_neg hj']
      exact hfirst j d' hj hd'

theorem Connection.close_loosened (c : Connection κ) :
    (c.close.conn = c.conn ∧ c.close.id = c.id) ∨
      (c.close.conn = none ∧ (c.close.id = c.id ∨ c.close.id = 255)) :=
  .inr ⟨rfl, .inr rfl⟩

theorem closeConnection_loosened (connections : List (Connection κ)) (connId : Int) :
    Loosened connections (closeConnection connections connId) := by
  rw [closeConnection]
  cases getConnection connections connId with
  | none => exact .refl connections
  | some connIdx => exact .modify Connection.close_loosened

/-- Closing a number leaves the slots of other open tunnels as they are. -/
theorem Seated.closeConnection_other (h : Seated connections) (hnumber : number < 256)
    (hc : connections[i]? = some c) (ht : c.conn = some t) (hne : t.number ≠ number) :
    (closeConnection connections number)[i]? = some c := by
  rw [closeConnection]
  cases hfound : getConnection connections number with
  | none => exact hc
  | some connIdx =>
    have hi : connIdx ≠ i := by
      rintro rfl
      exact hne (h.found_number hnumber hfound hc ht)
    exact (List.getElem?_modify_ne _ _ hi).trans hc

/-- No tunnel with the number is open after closing it. -/
theorem Seated.closeConnection_closed (h : Seated connections) {c' : Connection κ}
    (hc' : (closeConnection connections number)[i]? = some c') (ht : c'.conn = some t) :
    t.number ≠ number := by
  rintro rfl
  obtain ⟨c, hc, ⟨hconn, -⟩ | ⟨hnone, -⟩⟩ := closeConnection_loosened connections t.number i c' hc'
  · have hfound := h.found hc (hconn.symm.trans ht)
    simp only [closeConnection, hfound, List.getElem?_modify_eq, hc] at hc'
    obtain rfl := Option.some.inj hc'
    exact nomatch ht
  · exact nomatch hnone.symm.trans ht

end Esp32Firmware.RemoteAccess
