import Esp32Firmware.RemoteAccess.Tunnels

/-!
# Tunnels follow the commands of the relay

The relay has tunnels opened and closed. To open one its address is looked up, and the answer may
come when the connection has been closed, given to another number or set up anew. A slot that was
last used for a number keeps it, so that a local address with the number passes for connected.

## Implementation notes

The last command for a number is bookkeeping over the run. A command to connect is ignored if it
was closed a moment ago, if there is no slot for it or if the slot is in use.
-/

namespace Esp32Firmware.RemoteAccess

variable {κ : Type*}

/-- `ntohl`, the reversed bytes. -/
def ntohl (x : BitVec 32) : BitVec 32 :=
  x.setWidth 8 ++ (x >>> 8).setWidth 8 ++ (x >>> 16).setWidth 8 ++ (x >>> 24).setWidth 8

/-- `is_connected_local_ip` -/
def State.isConnectedLocalIp (s : State κ) (localIp remoteIp : BitVec 32) : Bool :=
  let maskedIp := localIp &&& 0xFF00FFFF#32
  let expectedMaskedIp := ntohl ((10#32 <<< 24) + (123#32 <<< 16) + (0#32 <<< 8) + 2#32)
  if maskedIp ≠ expectedMaskedIp then false
  else if remoteIp ≠ localIp + ntohl 1#32 then false
  else
    let connId := (localIp >>> 16) &&& 0xFF#32
    s.connections.any fun c => c.id = connId.toNat

/-- The address `10.123.number.host`, with the first octet in the lowest byte. -/
def address (number host : BitVec 8) : BitVec 32 :=
  10#32 ||| 123#32 <<< 8 ||| number.setWidth 32 <<< 16 ||| host.setWidth 32 <<< 24

theorem split_third_octet (ip : BitVec 32) :
    ip = (ip &&& 0xFF00FFFF#32) ||| ((ip >>> 16).setWidth 8).setWidth 32 <<< 16 := by
  apply BitVec.eq_of_getLsbD_eq
  intro i hi
  interval_cases i <;> simp

/-- What the masks and sums make of the addresses of a pair. -/
theorem address_facts (number : BitVec 8) :
    address 0 2 ||| number.setWidth 32 <<< 16 = address number 2 ∧
      address number 2 &&& 0xFF00FFFF#32 = address 0 2 ∧
      ((address number 2 >>> 16) &&& 0xFF#32).toNat = number.toNat ∧
      address number 2 + ntohl 1#32 = address number 3 := by
  revert number
  decide

theorem masked_eq_iff (ip : BitVec 32) :
    ip &&& 0xFF00FFFF#32 = address 0 2 ↔ ∃ number, ip = address number 2 := by
  constructor
  · intro h
    refine ⟨(ip >>> 16).setWidth 8, ?_⟩
    calc
      ip = (ip &&& 0xFF00FFFF#32) ||| ((ip >>> 16).setWidth 8).setWidth 32 <<< 16 :=
        split_third_octet ip
      _ = address 0 2 ||| ((ip >>> 16).setWidth 8).setWidth 32 <<< 16 := by rw [h]
      _ = address ((ip >>> 16).setWidth 8) 2 := (address_facts _).1
  · rintro ⟨number, rfl⟩
    exact (address_facts number).2.1

/-- The addresses of a pair end in 2 and 3, and some slot has their number. -/
theorem State.isConnectedLocalIp_iff (s : State κ) (localIp remoteIp : BitVec 32) :
    s.isConnectedLocalIp localIp remoteIp = true ↔
      ∃ number, localIp = address number 2 ∧ remoteIp = address number 3 ∧
        ∃ c ∈ s.connections, c.id = number.toNat := by
  have hexpected : ntohl ((10#32 <<< 24) + (123#32 <<< 16) + (0#32 <<< 8) + 2#32) =
      address 0 2 := by decide
  simp only [isConnectedLocalIp, hexpected]
  constructor
  · intro h
    split at h
    · exact absurd h Bool.false_ne_true
    · rename_i hmasked
      obtain ⟨number, rfl⟩ := (masked_eq_iff localIp).mp (not_not.mp hmasked)
      rw [(address_facts number).2.2.2, (address_facts number).2.2.1] at h
      split at h
      · exact absurd h Bool.false_ne_true
      · rename_i hremote
        exact ⟨number, rfl, not_not.mp hremote, by simpa using h⟩
  · rintro ⟨number, rfl, rfl, c, hc, hid⟩
    obtain ⟨-, hmasked, hnumber, hremote⟩ := address_facts number
    rw [if_neg (not_not.mpr hmasked), hremote, hnumber, if_neg (not_not.mpr rfl)]
    exact List.any_eq_true.mpr ⟨c, hc, by simpa using hid⟩

/-- The commands and answers that tunnels follow, with the clock synced. -/
def Event.commandsTunnels : Event κ → Bool
  | .connectCommand _ _ _ _ | .disconnectCommand _ | .managementLost => true
  | .lookupDone _ _ clockSynced => clockSynced
  | _ => false

/-- The UUID of the last command for each number if it was to connect, since the last loss of the
management connection. -/
def told (last : Nat → Option Nat) : Event κ → Nat → Option Nat
  | .connectCommand connectionNo connectionUuid _ _ =>
    if State.numberInRange connectionNo then
      Function.update last connectionNo.toNat (some connectionUuid)
    else last
  | .disconnectCommand connectionNo =>
    if State.numberInRange connectionNo then Function.update last connectionNo.toNat none
    else last
  | .managementLost => fun _ => none
  | _ => last

namespace State

/-- A command to connect that changes nothing. -/
def ignores (s : State κ) : Event κ → Bool
  | .connectCommand connectionNo _ connectClosed _ =>
    match getConnection s.connections connectionNo with
    | none => true
    | some connIdx =>
      let slot := s.connections.getD connIdx {}
      connectClosed || slot.conn.isSome || slot.inProgress
  | _ => false

/-- The last commands after a run, without those that were ignored. -/
def lastHeeded (s : State κ) (last : Nat → Option Nat) : List (Event κ) → Nat → Option Nat
  | [] => last
  | event :: rest =>
    (s.step event).lastHeeded (if s.ignores event then last else told last event) rest

/-- The lookup whose answer goes on to open a tunnel. -/
def opening (s : State κ) : Event κ → Option Lookup
  | .lookupDone index answerSent _ =>
    match s.lookups[index]? with
    | none => none
    | some lookup =>
      let slot := s.connections.getD lookup.connIdx {}
      if slot.inProgress && slot.connectionUuid == lookup.connectionUuid && answerSent then
        some lookup
      else none
  | _ => none

end State

/-- A slot serves a number while a tunnel with the number is open or being set up in it. -/
def Connection.Serves (c : Connection κ) (number : Nat) : Prop :=
  (∃ t, c.conn = some t ∧ t.number = number) ∨ (c.inProgress = true ∧ c.id = number)

def Connection.inUse (c : Connection κ) : Bool := c.conn.isSome || c.inProgress

/-- A slot in use is the first with its ID and holds the tunnel with this number. If every UUID is
used for one number, the last command was to connect with its UUID while it is set up. -/
structure Followed (owned : Prop) (owner : Nat → Nat) (connections : List (Connection κ))
    (last : Nat → Option Nat) : Prop where
  number : ∀ c ∈ connections, ∀ t, c.conn = some t → c.id = t.number
  range : ∀ c ∈ connections, c.inUse = true → c.id < 25
  first : ∀ (i : Nat) (c : Connection κ), connections[i]? = some c → c.inUse = true →
    ∀ (j : Nat) (d : Connection κ), j < i → connections[j]? = some d → d.id ≠ c.id
  setup : owned → ∀ c ∈ connections, c.inProgress = true →
    last c.id = some c.connectionUuid ∧ owner c.connectionUuid = c.id

section

variable {connections : List (Connection κ)} {number connIdx : Nat}

/-- A free slot stands in where no slot has the ID. -/
theorem getConnection_free (hnumber : number < 256)
    (h : getConnection connections number = some connIdx) {c : Connection κ}
    (hc : connections[connIdx]? = some c) (hid : c.id ≠ number) : c.inUse = false := by
  simp only [getConnection, uint8_of_lt hnumber] at h
  cases hfirst : connections.findIdx? fun c => c.id = number with
  | some i =>
    rw [hfirst] at h
    obtain rfl := Option.some.inj h
    obtain ⟨hlt, hfound, -⟩ := List.findIdx?_eq_some_iff_getElem.mp hfirst
    obtain rfl := Option.some.inj ((List.getElem?_eq_getElem hlt).symm.trans hc)
    exact absurd (by simpa using hfound) hid
  | none =>
    rw [hfirst] at h
    obtain ⟨hlt, hfree, -⟩ := List.findIdx?_eq_some_iff_getElem.mp h
    obtain rfl := Option.some.inj ((List.getElem?_eq_getElem hlt).symm.trans hc)
    simpa [Connection.inUse] using hfree

end

namespace Followed

variable {owned : Prop} {owner : Nat → Nat} {last : Nat → Option Nat}
  {connections : List (Connection κ)} {number connIdx : Nat}

variable {i : Nat} {c : Connection κ} {command : Option Nat}

/-- Besides the slot that is found for a number no slot in use has the number. -/
theorem id_ne (h : Followed owned owner connections last) (hnumber : number < 256)
    (hfound : getConnection connections number = some connIdx) (hc : connections[i]? = some c)
    (huse : c.inUse = true) (hi : connIdx ≠ i) :
    c.id ≠ number := by
  intro hid
  obtain ⟨d, hd, ⟨hdid, hfirst⟩ | ⟨-, hnone⟩⟩ := getConnection_spec hnumber hfound
  · obtain hlt | hlt := Nat.lt_or_gt_of_ne hi
    · exact h.first i c hc huse connIdx d hlt hd (hdid.trans hid.symm)
    · exact hfirst i c hlt hc hid
  · exact hnone c (List.mem_of_getElem? hc) hid

/-- A slot in use that is found for a number has it. -/
theorem found_id (hnumber : number < 256) (hfound : getConnection connections number = some connIdx)
    (hc : connections[connIdx]? = some c) (huse : c.inUse = true) : c.id = number := by
  by_contra hid
  exact absurd (huse.symm.trans (getConnection_free hnumber hfound hc hid)) (by decide)

section

variable (h : Followed owned owner connections last)
include h

/-- The slot of a number in use is the one that is found for it. -/
theorem found (hc : connections[i]? = some c) (huse : c.inUse = true) :
    getConnection connections c.id = some i := by
  have hsmall : c.id < 256 :=
    Nat.lt_trans (h.range c (List.mem_of_getElem? hc) huse) (by decide)
  obtain ⟨j, hj⟩ := Option.isSome_iff_exists.mp
    (getConnection_isSome hsmall (List.mem_of_getElem? hc) rfl)
  by_cases hji : j = i
  · exact hji ▸ hj
  · exact absurd rfl (h.id_ne hsmall hj hc huse hji)

/-- The slot that is found for a number is set to a new state, and the number to a new command. -/
theorem modify_found (hnumber : number < 25)
    (hfound : getConnection connections number = some connIdx) {f : Connection κ → Connection κ}
    {command : Option Nat}
    (hid : ∀ c, connections[connIdx]? = some c → ((f c).inUse = true → (f c).id = number) ∧
      ((f c).id = number ∨ 25 ≤ (f c).id))
    (hconn : ∀ c, connections[connIdx]? = some c → ∀ t, (f c).conn = some t → t.number = number)
    (hsetup : owned → ∀ c, connections[connIdx]? = some c → (f c).inProgress = true →
      command = some (f c).connectionUuid ∧ owner (f c).connectionUuid = number) :
    Followed owned owner (connections.modify connIdx f) (Function.update last number command) := by
  have hsmall : number < 256 := Nat.lt_trans hnumber (by decide)
  obtain ⟨d₀, hd₀, hslot⟩ := getConnection_spec hsmall hfound
  have hinUse {c : Connection κ} {t : Tunnel κ} (ht : c.conn = some t) : c.inUse = true := by
    simp [Connection.inUse, ht]
  have hprogress {c : Connection κ} (hp : c.inProgress = true) : c.inUse = true := by
    simp [Connection.inUse, hp]
  -- a slot afterwards is the one that was found, or an old one
  have hcases {i : Nat} {c' : Connection κ} (hc' : (connections.modify connIdx f)[i]? = some c') :
      (connIdx = i ∧ ∃ c, connections[i]? = some c ∧ c' = f c) ∨
        (connIdx ≠ i ∧ connections[i]? = some c') := by
    rw [List.getElem?_modify] at hc'
    obtain ⟨c, hc, rfl⟩ := Option.map_eq_some_iff.mp hc'
    by_cases hi : connIdx = i
    · rw [if_pos hi]
      exact .inl ⟨hi, c, hc, rfl⟩
    · rw [if_neg hi]
      exact .inr ⟨hi, hc⟩
  refine ⟨?_, ?_, ?_, ?_⟩
  · intro c' hmem t ht
    obtain ⟨i, hi⟩ := List.mem_iff_getElem?.mp hmem
    obtain ⟨rfl, c, hc, rfl⟩ | ⟨-, hc⟩ := hcases hi
    · rw [(hid c hc).1 (hinUse ht), hconn c hc t ht]
    · exact h.number c' (List.mem_of_getElem? hc) t ht
  · intro c' hmem huse
    obtain ⟨i, hi⟩ := List.mem_iff_getElem?.mp hmem
    obtain ⟨rfl, c, hc, rfl⟩ | ⟨-, hc⟩ := hcases hi
    · rw [(hid c hc).1 huse]
      exact hnumber
    · exact h.range c' (List.mem_of_getElem? hc) huse
  · intro i c' hi huse j d' hj hd'
    obtain ⟨rfl, c, hc, rfl⟩ | ⟨hne, hc⟩ := hcases hi
    · obtain ⟨heq, -⟩ | ⟨-, hd⟩ := hcases hd'
      · exact absurd heq (Nat.ne_of_gt hj)
      · rw [(hid c hc).1 huse]
        obtain ⟨-, hfirst⟩ | ⟨-, hnone⟩ := hslot
        · exact hfirst j d' hj hd
        · exact hnone d' (List.mem_of_getElem? hd)
    · obtain ⟨rfl, d, hd, rfl⟩ | ⟨-, hd⟩ := hcases hd'
      · have hother := h.id_ne hsmall hfound hc huse hne
        have hrange := h.range c' (List.mem_of_getElem? hc) huse
        obtain hsame | hlarge := (hid d hd).2
        · exact fun heq => hother (heq.symm.trans hsame)
        · exact fun heq => absurd hrange (Nat.not_lt_of_le (heq ▸ hlarge))
      · exact h.first i c' hc huse j d' hj hd
  · intro howned c' hmem hp
    obtain ⟨i, hi⟩ := List.mem_iff_getElem?.mp hmem
    obtain ⟨rfl, c, hc, rfl⟩ | ⟨hne, hc⟩ := hcases hi
    · rw [(hid c hc).1 (hprogress hp), Function.update_self]
      exact hsetup howned c hc hp
    · have hother := h.id_ne hsmall hfound hc (hprogress hp) hne
      rw [Function.update_of_ne hother]
      exact h.setup howned c' (List.mem_of_getElem? hc) hp

/-- A slot is no longer set up. -/
theorem modify_done (connIdx : Nat) : Followed owned owner
      (connections.modify connIdx fun c => { c with inProgress := false }) last := by
  have hcases {i : Nat} {c' : Connection κ}
      (hc' : (connections.modify connIdx fun c => { c with inProgress := false })[i]? = some c') :
      ∃ c, connections[i]? = some c ∧ c'.id = c.id ∧ c'.conn = c.conn ∧
        (c'.inProgress = true → c' = c) := by
    rw [List.getElem?_modify] at hc'
    obtain ⟨c, hc, rfl⟩ := Option.map_eq_some_iff.mp hc'
    refine ⟨c, hc, ?_⟩
    by_cases hi : connIdx = i
    · rw [if_pos hi]
      exact ⟨rfl, rfl, fun hp => absurd hp Bool.false_ne_true⟩
    · rw [if_neg hi]
      exact ⟨rfl, rfl, fun _ => rfl⟩
  have hinUse {c c' : Connection κ} (hconn : c'.conn = c.conn)
      (hsame : c'.inProgress = true → c' = c) (huse : c'.inUse = true) : c.inUse = true := by
    rw [Connection.inUse, Bool.or_eq_true] at huse ⊢
    obtain hopen | hp := huse
    · exact .inl (hconn ▸ hopen)
    · exact .inr (hsame hp ▸ hp)
  refine ⟨?_, ?_, ?_, ?_⟩
  · intro c' hmem t ht
    obtain ⟨i, hi⟩ := List.mem_iff_getElem?.mp hmem
    obtain ⟨c, hc, hid, hconn, -⟩ := hcases hi
    exact hid.trans (h.number c (List.mem_of_getElem? hc) t (hconn.symm.trans ht))
  · intro c' hmem huse
    obtain ⟨i, hi⟩ := List.mem_iff_getElem?.mp hmem
    obtain ⟨c, hc, hid, hconn, hsame⟩ := hcases hi
    rw [hid]
    exact h.range c (List.mem_of_getElem? hc) (hinUse hconn hsame huse)
  · intro i c' hi huse j d' hj hd'
    obtain ⟨c, hc, hid, hconn, hsame⟩ := hcases hi
    obtain ⟨d, hd, hdid, -⟩ := hcases hd'
    rw [hid, hdid]
    exact h.first i c hc (hinUse hconn hsame huse) j d hj hd
  · intro howned c' hmem hp
    obtain ⟨i, hi⟩ := List.mem_iff_getElem?.mp hmem
    obtain ⟨c, hc, -, -, hsame⟩ := hcases hi
    obtain rfl := hsame hp
    exact h.setup howned c' (List.mem_of_getElem? hc) hp

/-- A command for a number that no slot in use has. -/
theorem update_unused (hunused : ∀ c ∈ connections, c.inUse = true → c.id ≠ number) :
    Followed owned owner connections (Function.update last number command) where
  number := h.number
  range := h.range
  first := h.first
  setup howned c hc hp := by
    have hne := hunused c hc (by simp [Connection.inUse, hp])
    rw [Function.update_of_ne hne]
    exact h.setup howned c hc hp

end

theorem closeAll (connections : List (Connection κ)) (owned : Prop) (owner : Nat → Nat)
    (last : Nat → Option Nat) :
    Followed owned owner (connections.map fun c =>
      if c.conn.isSome then c.close else { c with inProgress := false }) last := by
  have hidle : ∀ c' ∈ connections.map (fun c =>
      if c.conn.isSome then c.close else { c with inProgress := false }),
      c'.conn = none ∧ c'.inProgress = false := by
    intro c' hc'
    obtain ⟨c, -, rfl⟩ := List.mem_map.mp hc'
    cases hconn : c.conn with
    | none => exact ⟨by simp, by simp⟩
    | some t => exact ⟨by simp [Connection.close], by simp [Connection.close]⟩
  have hfree : ∀ c' ∈ connections.map (fun c =>
      if c.conn.isSome then c.close else { c with inProgress := false }), c'.inUse = false := by
    intro c' hc'
    simp [Connection.inUse, hidle c' hc']
  refine ⟨?_, ?_, ?_, ?_⟩
  · exact fun c' hc' t ht => nomatch (hidle c' hc').1.symm.trans ht
  · exact fun c' hc' huse => absurd ((hfree c' hc').symm.trans huse) Bool.false_ne_true
  · exact fun i c' hc' huse =>
      absurd ((hfree c' (List.mem_of_getElem? hc')).symm.trans huse) Bool.false_ne_true
  · exact fun _ c' hc' hp => absurd ((hidle c' hc').2.symm.trans hp) Bool.false_ne_true

end Followed

namespace State

/-- The slots follow the commands, and lookups are for numbers in range. If every UUID is used for
one number they are for that one. -/
structure Following (owned : Prop) (owner : Nat → Nat) (s : State κ) (last : Nat → Option Nat) :
    Prop where
  running : s.aborted = none
  slots : Followed owned owner s.connections last
  range : ∀ lookup ∈ s.lookups, lookup.number < 25
  lookups : owned → ∀ lookup ∈ s.lookups, owner lookup.connectionUuid = lookup.number

variable {owned : Prop} {owner : Nat → Nat} {s : State κ} {last : Nat → Option Nat}

theorem numberInRange_spec {number : Int} (h : numberInRange number = true) :
    number = (number.toNat : Int) ∧ number.toNat < 25 := by
  simp only [numberInRange, Bool.and_eq_true, decide_eq_true_eq, maxKeysPerUser, maxUsers] at h
  omega

theorem getD_inUse {connections : List (Connection κ)} {connIdx : Nat}
    (h : (connections.getD connIdx {}).inUse = true) :
    ∃ c, connections[connIdx]? = some c ∧ connections.getD connIdx {} = c := by
  rw [List.getD_eq_getElem?_getD] at h ⊢
  cases hc : connections[connIdx]? with
  | none =>
    rw [hc] at h
    exact absurd h Bool.false_ne_true
  | some c => exact ⟨c, rfl, rfl⟩

theorem Following.connectCommand (h : s.Following owned owner last) {connectionNo : Int}
    {connectionUuid : Nat} {connectClosed portFound : Bool}
    (howner : owned → owner connectionUuid = connectionNo.toNat) :
    (s.connectCommand connectionNo connectionUuid connectClosed portFound).Following owned owner
      (if s.ignores (.connectCommand connectionNo connectionUuid connectClosed portFound) then last
        else told last (.connectCommand connectionNo connectionUuid connectClosed portFound :
          Event κ)) := by
  simp only [State.connectCommand, told]
  by_cases hrange : numberInRange connectionNo = true
  · obtain ⟨hnumber, hlt⟩ := numberInRange_spec hrange
    rw [if_pos hrange, if_pos hrange]
    simp only [ignores]
    obtain hnone | ⟨connIdx, hsome⟩ : getConnection s.connections connectionNo = none ∨
        ∃ connIdx, getConnection s.connections connectionNo = some connIdx :=
      Option.eq_none_or_eq_some _
    · simp only [hnone]
      exact h
    · simp only [hsome]
      have hfound : getConnection s.connections (connectionNo.toNat : Int) = some connIdx :=
        hnumber ▸ hsome
      cases connectClosed with
      | true => exact h
      | false =>
        rw [if_neg Bool.false_ne_true, Bool.false_or]
        by_cases hbusy : ((s.connections.getD connIdx {}).conn.isSome ||
            (s.connections.getD connIdx {}).inProgress) = true
        · -- the slot has the number already
          rw [if_pos hbusy, if_pos hbusy]
          obtain ⟨c, hc, hslot⟩ := getD_inUse hbusy
          rw [hslot] at hbusy
          have hid := Followed.found_id (Nat.lt_trans hlt (by decide)) hfound hc hbusy
          have hsame : s.connections.modify connIdx (fun c => { c with id := connectionNo.toNat })
              = s.connections := by
            apply List.ext_getElem?
            intro i
            rw [List.getElem?_modify]
            by_cases hi : connIdx = i
            · subst hi
              rw [hc, ← hid]
              simp
            · simp [hi]
          rw [hsame]
          exact ⟨h.running, h.slots, h.range, h.lookups⟩
        · rw [if_neg hbusy, if_neg hbusy]
          have hclosed {c : Connection κ} (hc : s.connections[connIdx]? = some c) :
              c.conn = none := by
            rw [List.getD_eq_getElem?_getD, hc] at hbusy
            cases hconn : c.conn with
            | none => rfl
            | some t => exact absurd (by simp [hconn]) hbusy
          cases portFound with
          | true =>
            refine ⟨h.running, ?_, ?_, ?_⟩
            · refine h.slots.modify_found hlt hfound ?_ ?_ ?_
              · exact fun c _ => ⟨fun _ => rfl, .inl rfl⟩
              · exact fun c hc t ht => nomatch (hclosed hc).symm.trans ht
              · exact fun howned c _ _ => ⟨rfl, howner howned⟩
            · intro lookup hlookup
              obtain hlookup | hlookup := List.mem_append.mp hlookup
              · exact h.range lookup hlookup
              · rw [List.mem_singleton.mp hlookup]
                exact hlt
            · intro howned lookup hlookup
              obtain hlookup | hlookup := List.mem_append.mp hlookup
              · exact h.lookups howned lookup hlookup
              · rw [List.mem_singleton.mp hlookup]
                exact howner howned
          | false =>
            refine ⟨h.running, ?_, h.range, h.lookups⟩
            refine h.slots.modify_found hlt hfound ?_ ?_ ?_
            · exact fun c _ => ⟨fun _ => rfl, .inl rfl⟩
            · exact fun c hc t ht => nomatch (hclosed hc).symm.trans ht
            · exact fun _ c _ hp => absurd hp Bool.false_ne_true
  · rw [if_neg hrange, if_neg hrange, ite_self]
    exact h

theorem Following.disconnectCommand (h : s.Following owned owner last) (connectionNo : Int) :
    (s.disconnectCommand connectionNo).Following owned owner
      (told last (.disconnectCommand connectionNo : Event κ)) := by
  simp only [State.disconnectCommand, told]
  by_cases hrange : numberInRange connectionNo = true
  · obtain ⟨hnumber, hlt⟩ := numberInRange_spec hrange
    rw [if_pos hrange, if_pos hrange]
    refine ⟨h.running, ?_, h.range, h.lookups⟩
    rw [closeConnection]
    cases hfound : getConnection s.connections connectionNo with
    | none =>
      refine h.slots.update_unused fun c hc _ hid => ?_
      have hsome := getConnection_isSome (Nat.lt_trans hlt (by decide)) hc hid
      rw [← hnumber, hfound] at hsome
      exact absurd hsome Bool.false_ne_true
    | some connIdx =>
      rw [hnumber] at hfound
      refine h.slots.modify_found hlt hfound ?_ ?_ ?_
      · exact fun c _ => ⟨fun huse => absurd huse Bool.false_ne_true,
          .inr (by simp [Connection.close])⟩
      · exact fun c _ t ht => by cases ht
      · exact fun _ c _ hp => absurd hp Bool.false_ne_true
  · rw [if_neg hrange, if_neg hrange]
    exact h

variable {index : Nat} {answerSent : Bool} {lookup : Lookup}

/-- The lookup that goes on, and the slot that is being set up with its UUID. -/
theorem opening_spec {clockSynced : Bool}
    (h : s.opening (.lookupDone index answerSent clockSynced) = some lookup) :
    s.lookups[index]? = some lookup ∧ ∃ c, s.connections[lookup.connIdx]? = some c ∧
      c.inProgress = true ∧ c.connectionUuid = lookup.connectionUuid := by
  simp only [opening] at h
  cases hlookup : s.lookups[index]? with
  | none =>
    rw [hlookup] at h
    exact nomatch h
  | some l =>
    rw [hlookup] at h
    dsimp only at h
    split at h
    · rename_i hgate
      obtain rfl := Option.some.inj h
      simp only [Bool.and_eq_true, beq_iff_eq] at hgate
      obtain ⟨⟨hprogress, huuid⟩, -⟩ := hgate
      have huse : (s.connections.getD l.connIdx {}).inUse = true := by
        rw [Connection.inUse, hprogress, Bool.or_true]
      obtain ⟨c, hc, hslot⟩ := getD_inUse huse
      rw [hslot] at hprogress huuid
      exact ⟨rfl, c, hc, hprogress, huuid⟩
    · exact nomatch h

/-- If every UUID is used for one number, the slot has the number of the lookup. -/
theorem Following.setup_id (h : s.Following owned owner last) (howned : owned)
    (hmem : lookup ∈ s.lookups) {c : Connection κ} (hc : s.connections[lookup.connIdx]? = some c)
    (hprogress : c.inProgress = true) (huuid : c.connectionUuid = lookup.connectionUuid) :
    c.id = lookup.number ∧ last lookup.number = some lookup.connectionUuid := by
  obtain ⟨hlast, hown⟩ := h.slots.setup howned c (List.mem_of_getElem? hc) hprogress
  have hid : c.id = lookup.number := by
    rw [← hown, huuid]
    exact h.lookups howned lookup hmem
  rw [hid, huuid] at hlast
  exact ⟨hid, hlast⟩

/-- What the answer to a lookup does to the slots: no more than to end the set-up, but for the
tunnel that opens. -/
theorem lookupDone_connections (s : State κ) (index : Nat) (answerSent : Bool) :
    (s.lookupDone index answerSent true).connections = s.connections ∨
      ∃ lookup connections, s.lookups[index]? = some lookup ∧
        (s.lookupDone index answerSent true).connections =
          connections.modify lookup.connIdx (fun c => { c with inProgress := false }) ∧
        (connections = s.connections ∨
          (s.opening (.lookupDone index answerSent true) = some lookup ∧
            ∃ connIdx key, getConnection s.connections (lookup.number : Int) = some connIdx ∧
              connections = s.connections.modify connIdx fun c =>
                { c with id := lookup.number, conn := some ⟨lookup.number, key⟩ })) := by
  simp only [lookupDone]
  cases hlookup : s.lookups[index]? with
  | none => exact .inl rfl
  | some lookup =>
    dsimp only
    split
    · exact .inl rfl
    · rename_i hgate
      simp only [Bool.or_eq_true, Bool.not_eq_true', bne_iff_ne, ne_eq, not_or,
        Bool.not_eq_false, not_not] at hgate
      right
      cases answerSent with
      | false => exact ⟨lookup, s.connections, rfl, rfl, .inl rfl⟩
      | true =>
        have hopening : s.opening (.lookupDone index true true) = some lookup := by
          simp only [opening, hlookup, hgate, beq_self_eq_true, Bool.and_self, if_true]
        rw [if_pos rfl, connectRemoteAccess, if_pos rfl]
        cases hkey : s.keys (userOf lookup.number) (lookup.number % maxKeysPerUser) with
        | none => exact ⟨lookup, s.connections, rfl, rfl, .inl rfl⟩
        | some key =>
          cases hfound : getConnection s.connections (lookup.number : Int) with
          | none => exact ⟨lookup, s.connections, rfl, rfl, .inl rfl⟩
          | some connIdx =>
            exact ⟨lookup, _, rfl, rfl, .inr ⟨hopening, connIdx, key, hfound, rfl⟩⟩

theorem lookups_lookupDone (h : lookup ∈ (s.lookupDone index answerSent true).lookups) :
    lookup ∈ s.lookups := by
  simp only [lookupDone] at h
  split at h
  · exact h
  · split at h
    · exact List.mem_of_mem_eraseIdx h
    · cases answerSent with
      | false => exact List.mem_of_mem_eraseIdx h
      | true =>
        simp only [connectRemoteAccess, if_true] at h
        split at h
        · exact List.mem_of_mem_eraseIdx h
        · split at h <;> exact List.mem_of_mem_eraseIdx h

theorem Following.lookupDone (h : s.Following owned owner last) (index : Nat) (answerSent : Bool) :
    (s.lookupDone index answerSent true).Following owned owner last := by
  have hstored := @sameStored_handle _ s (.lookupDone index answerSent true) rfl
  refine ⟨hstored.aborted.trans h.running, ?_, fun lookup hmem => h.range lookup
    (lookups_lookupDone hmem), fun howned lookup hmem => h.lookups howned lookup
    (lookups_lookupDone hmem)⟩
  obtain hsame | ⟨lookup, connections, hlookup, hdone, hopened⟩ :=
    lookupDone_connections s index answerSent
  · rw [hsame]
    exact h.slots
  · rw [hdone]
    refine Followed.modify_done ?_ lookup.connIdx
    obtain rfl | ⟨hopening, connIdx, key, hfound, rfl⟩ := hopened
    · exact h.slots
    · have hmem := List.mem_of_getElem? hlookup
      have hkept : Followed owned owner
          (s.connections.modify connIdx fun c =>
            { c with id := lookup.number, conn := some ⟨lookup.number, key⟩ })
          (Function.update last lookup.number (last lookup.number)) :=
        h.slots.modify_found (h.range lookup hmem) hfound
        (fun c _ => ⟨fun _ => rfl, .inl rfl⟩)
        (fun c _ t ht => by rw [← Option.some.inj ht])
        (fun howned d hd hp => by
          -- the slot that is found is the one that is being set up
          obtain ⟨-, c, hc, hprogress, huuid⟩ := opening_spec hopening
          obtain ⟨hid, hlast⟩ := h.setup_id howned hmem hc hprogress huuid
          have huse : c.inUse = true := by rw [Connection.inUse, hprogress, Bool.or_true]
          have hsame := h.slots.found hc huse
          rw [hid, hfound] at hsame
          obtain rfl := Option.some.inj hsame
          obtain rfl := Option.some.inj (hd.symm.trans hc)
          refine ⟨hlast.trans (congrArg some huuid.symm), ?_⟩
          rw [huuid]
          exact h.lookups howned lookup hmem)
      rwa [Function.update_eq_self] at hkept

/-- Every command to connect uses a UUID for the number that it belongs to. -/
def ownUuids (owner : Nat → Nat) : Event κ → Prop
  | .connectCommand connectionNo connectionUuid _ _ => owner connectionUuid = connectionNo.toNat
  | _ => True

theorem Following.step (h : s.Following owned owner last) {event : Event κ}
    (hevent : event.commandsTunnels = true) (hown : owned → ownUuids owner event) :
    (s.step event).Following owned owner
      (if s.ignores event then last else told last event) := by
  rw [State.step, h.running]
  cases event with
  | connectCommand connectionNo connectionUuid connectClosed portFound =>
    exact h.connectCommand hown
  | disconnectCommand connectionNo => exact h.disconnectCommand connectionNo
  | lookupDone index answerSent clockSynced =>
    cases clockSynced with
    | true => exact h.lookupDone index answerSent
    | false => exact absurd hevent Bool.false_ne_true
  | managementLost =>
    exact ⟨h.running, Followed.closeAll s.connections owned owner _, h.range, h.lookups⟩
  | _ => exact absurd hevent Bool.false_ne_true

theorem Following.setup (config : StoredConfig κ) (owned : Prop) (owner : Nat → Nat) :
    config.setup.Following owned owner fun _ => none := by
  have hslot : ∀ c ∈ config.setup.connections, c = {} := fun c hc => List.eq_of_mem_replicate hc
  have hidle {c : Connection κ} (hc : c ∈ config.setup.connections) : c.inUse = false := by
    rw [hslot c hc]
    rfl
  refine ⟨rfl, ⟨?_, ?_, ?_, ?_⟩, fun _ hl => absurd hl List.not_mem_nil,
    fun _ _ hl => absurd hl List.not_mem_nil⟩
  · intro c hc t ht
    rw [hslot c hc] at ht
    exact nomatch ht
  · exact fun c hc huse => absurd ((hidle hc).symm.trans huse) Bool.false_ne_true
  · exact fun i c hc huse =>
      absurd ((hidle (List.mem_of_getElem? hc)).symm.trans huse) Bool.false_ne_true
  · intro _ c hc hp
    rw [hslot c hc] at hp
    exact absurd hp Bool.false_ne_true

theorem Following.run {events : List (Event κ)} (h : s.Following owned owner last)
    (hevents : ∀ event ∈ events, event.commandsTunnels = true)
    (hown : owned → ∀ event ∈ events, ownUuids owner event) :
    (run State.step s events).Following owned owner (s.lastHeeded last events) := by
  induction events generalizing s last with
  | nil => exact h
  | cons event rest ih =>
    refine ih (h.step (hevents event List.mem_cons_self) fun howned => hown howned event
      List.mem_cons_self) (fun e he => hevents e (List.mem_cons_of_mem _ he)) ?_
    exact fun howned e he => hown howned e (List.mem_cons_of_mem _ he)

/-- An event opens tunnels only for numbers that the last command was to connect, with the UUID
that the lookup was started for. -/
structure OpensAsTold (s : State κ) (event : Event κ) (last : Nat → Option Nat) : Prop where
  opening : ∀ lookup, s.opening event = some lookup →
    last lookup.number = some lookup.connectionUuid
  opened : ∀ (i : Nat) (c' : Connection κ) (t : Tunnel κ),
    (s.step event).connections[i]? = some c' → c'.conn = some t →
      (∃ c, s.connections[i]? = some c ∧ c.conn = some t) ∨
        ∃ lookup, s.opening event = some lookup ∧ lookup.number = t.number

/-- The tunnels in the slots were there before. -/
def OldTunnels (s : State κ) (connections : List (Connection κ)) : Prop :=
  ∀ (i : Nat) (c' : Connection κ) (t : Tunnel κ), connections[i]? = some c' → c'.conn = some t →
    ∃ c, s.connections[i]? = some c ∧ c.conn = some t

theorem OldTunnels.modify (s : State κ) (connIdx : Nat) {f : Connection κ → Connection κ}
    (hf : ∀ c, (f c).conn = c.conn) : s.OldTunnels (s.connections.modify connIdx f) := by
  intro i c' t hc' ht
  rw [List.getElem?_modify] at hc'
  obtain ⟨c, hc, rfl⟩ := Option.map_eq_some_iff.mp hc'
  refine ⟨c, hc, ?_⟩
  by_cases hi : connIdx = i
  · rw [if_pos hi, hf] at ht
    exact ht
  · rw [if_neg hi] at ht
    exact ht

theorem OldTunnels.of_loosened {connections : List (Connection κ)}
    (h : Loosened s.connections connections) : s.OldTunnels connections := by
  intro i c' t hc' ht
  obtain ⟨c, hc, ⟨hconn, -⟩ | ⟨hnone, -⟩⟩ := h i c' hc'
  · exact ⟨c, hc, hconn.symm.trans ht⟩
  · exact nomatch hnone.symm.trans ht

theorem OldTunnels.connectCommand (s : State κ) (connectionNo : Int) (connectionUuid : Nat)
    (connectClosed portFound : Bool) :
    s.OldTunnels
      (s.connectCommand connectionNo connectionUuid connectClosed portFound).connections := by
  have hsame : s.OldTunnels s.connections := fun i c' t hc' ht => ⟨c', hc', ht⟩
  simp only [State.connectCommand]
  split
  · split
    · exact hsame
    · split
      · exact hsame
      · split
        · exact .modify s _ fun _ => rfl
        · split <;> exact .modify s _ fun _ => rfl
  · exact hsame

theorem Following.opensAsTold (h : s.Following owned owner last) (howned : owned)
    {event : Event κ} (hevent : event.commandsTunnels = true) : s.OpensAsTold event last := by
  have hstep : (s.step event).connections = (s.handle event).1.connections := by
    rw [State.step, h.running, if_neg (by simp)]
  cases event with
  | connectCommand connectionNo connectionUuid connectClosed portFound =>
    refine ⟨fun _ hopening => (by cases hopening), fun i c' t hc' ht => .inl ?_⟩
    exact OldTunnels.connectCommand s _ _ _ _ i c' t (hstep ▸ hc') ht
  | disconnectCommand connectionNo =>
    refine ⟨fun _ hopening => (by cases hopening), fun i c' t hc' ht => .inl ?_⟩
    refine OldTunnels.of_loosened ?_ i c' t (hstep ▸ hc') ht
    exact (@handle_onlyCloses _ s (.disconnectCommand connectionNo) rfl).1
  | managementLost =>
    refine ⟨fun _ hopening => (by cases hopening), fun i c' t hc' ht => .inl ?_⟩
    rw [hstep] at hc'
    exact OldTunnels.of_loosened (closeAll_loosened s.connections) i c' t hc' ht
  | lookupDone index answerSent clockSynced =>
    cases clockSynced with
    | false => exact absurd hevent Bool.false_ne_true
    | true =>
      refine ⟨fun lookup hopening => ?_, fun i c' t hc' ht => ?_⟩
      · obtain ⟨hlookup, c, hc, hprogress, huuid⟩ := opening_spec hopening
        exact (h.setup_id howned (List.mem_of_getElem? hlookup) hc hprogress huuid).2
      · rw [hstep] at hc'
        have hdone {connections : List (Connection κ)} {connIdx : Nat}
            (hc' : (connections.modify connIdx fun c => { c with inProgress := false })[i]? =
              some c') : ∃ c, connections[i]? = some c ∧ c.conn = some t := by
          rw [List.getElem?_modify] at hc'
          obtain ⟨c, hc, rfl⟩ := Option.map_eq_some_iff.mp hc'
          refine ⟨c, hc, ?_⟩
          split at ht <;> exact ht
        obtain hsame | ⟨lookup, connections, -, hmodify, hopened⟩ :=
          lookupDone_connections s index answerSent
        · exact .inl ⟨c', hsame ▸ hc', ht⟩
        · obtain ⟨c, hc, hconn⟩ := hdone (hmodify ▸ hc')
          obtain rfl | ⟨hopening, connIdx, key, -, rfl⟩ := hopened
          · exact .inl ⟨c, hc, hconn⟩
          · rw [List.getElem?_modify] at hc
            obtain ⟨c₀, hc₀, rfl⟩ := Option.map_eq_some_iff.mp hc
            split at hconn
            · exact .inr ⟨lookup, hopening, by rw [← Option.some.inj hconn]⟩
            · exact .inl ⟨c₀, hc₀, hconn⟩
  | _ => exact absurd hevent Bool.false_ne_true

/-- Whatever the order of commands, answers and losses: no two slots serve one number. If every
UUID is used for one number, a tunnel opens only after a command to connect that was not ignored,
with no other one since. The addresses of every open tunnel pass, and only addresses of this form
do. -/
theorem tunnels_follow_commands (config : StoredConfig κ) (events : List (Event κ))
    (hevents : ∀ event ∈ events, event.commandsTunnels = true) :
    (∀ (number i j : Nat) (c d : Connection κ), (config.after events).connections[i]? = some c →
      (config.after events).connections[j]? = some d → c.Serves number → d.Serves number → i = j) ∧
    (∀ owner : Nat → Nat, (∀ event ∈ events, ownUuids owner event) →
      ∀ event : Event κ, event.commandsTunnels = true → (config.after events).OpensAsTold event
          ((config.setup : State κ).lastHeeded (fun _ => none) events)) ∧
    (∀ t ∈ (config.after events).tunnels,
      (config.after events).isConnectedLocalIp (address (BitVec.ofNat 8 t.number) 2)
        (address (BitVec.ofNat 8 t.number) 3) = true) ∧
    ∀ localIp remoteIp, (config.after events).isConnectedLocalIp localIp remoteIp = true →
      ∃ number, localIp = address number 2 ∧ remoteIp = address number 3 := by
  have hslots := ((Following.setup config False fun _ => 0).run hevents
    fun howned => absurd howned id).slots
  refine ⟨?_, ?_, ?_, ?_⟩
  · intro number i j c d hc hd hcs hds
    have huse {i : Nat} {c : Connection κ} (hc : (config.after events).connections[i]? = some c)
        (hs : c.Serves number) : c.inUse = true ∧ c.id = number := by
      obtain ⟨t, ht, rfl⟩ | ⟨hp, hid⟩ := hs
      · refine ⟨by simp [Connection.inUse, ht], ?_⟩
        exact hslots.number c (List.mem_of_getElem? hc) t ht
      · exact ⟨by simp [Connection.inUse, hp], hid⟩
    obtain ⟨hcuse, hcid⟩ := huse hc hcs
    obtain ⟨hduse, hdid⟩ := huse hd hds
    have hci := hslots.found hc hcuse
    have hdj := hslots.found hd hduse
    rw [hcid] at hci
    rw [hdid, hci] at hdj
    exact Option.some.inj hdj
  · intro owner hown event hevent
    have hfollowing := (Following.setup config True owner).run hevents fun _ => hown
    exact hfollowing.opensAsTold trivial hevent
  · intro t ht
    obtain ⟨c, hc, hconn⟩ := List.mem_filterMap.mp ht
    have hid := hslots.number c hc t hconn
    have hrange := hslots.range c hc (by simp [Connection.inUse, hconn])
    refine (isConnectedLocalIp_iff _ _ _).mpr ⟨_, rfl, rfl, c, hc, ?_⟩
    rw [hid, BitVec.toNat_ofNat]
    exact (Nat.mod_eq_of_lt (by omega)).symm
  · intro localIp remoteIp h
    obtain ⟨number, hlocal, hremote, -⟩ := (isConnectedLocalIp_iff _ _ _).mp h
    exact ⟨number, hlocal, hremote⟩

end State

/-- One user with keys for all connections. -/
def oneUser : StoredConfig Nat where
  users := [⟨1, "a@example.com", "00-01", "A"⟩]
  keys u k := if u = 1 ∧ k < maxKeysPerUser then some (10 * u + k) else none
  uuid := "charger"
  enable := true
  serviceTokenUserUuid := ""
  uploadConfigs := []
  ids_in_range := by decide

/-- Two clients ask for one connection; the lookup for the first one is under way. -/
def twoClients : List (Event Nat) :=
  [.connectCommand 3 7 false true, .connectCommand 3 8 false true]

/-- The tunnel of the first client opens. -/
theorem tunnels_follow_first_client :
    ((oneUser.after [.connectCommand 3 7 false true]).OpensAsTold (.lookupDone 0 true true)
      ((oneUser.setup : State Nat).lastHeeded (fun _ => none) [.connectCommand 3 7 false true])) :=
  (State.tunnels_follow_commands oneUser [.connectCommand 3 7 false true] (by decide)).2.1
    (fun _ => 3) (by simp [State.ownUuids]) (.lookupDone 0 true true) rfl

/-- The last command names another UUID than the tunnel that opens. Before the first command the
addresses of the number 0 pass, and no tunnel is open. -/
theorem tunnels_ignore_commands :
    (¬ (oneUser.after twoClients).OpensAsTold (.lookupDone 0 true true)
      (twoClients.foldl told fun _ => none)) ∧
    (oneUser.setup : State Nat).isConnectedLocalIp (address 0 2) (address 0 3) = true ∧
    (oneUser.setup : State Nat).tunnels = [] := by
  refine ⟨fun h => ?_, by decide, rfl⟩
  have hopening : (oneUser.after twoClients).opening (.lookupDone 0 true true) =
      some ⟨3, 0, 7⟩ := by decide
  have htold := h.opening _ hopening
  exact absurd htold (by decide)

end Esp32Firmware.RemoteAccess
