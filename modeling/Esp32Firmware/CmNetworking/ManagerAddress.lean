import Esp32Firmware.CmNetworking.SequenceNumbers

/-!
# The manager that a charger obeys

A charger remembers the address of the last command it received. It obeys a new address at once
if the previous change was at least one minute ago. Otherwise it blocks until it has received
commands from this address alone for one minute.

## Implementation notes

An address is whatever the socket compares, port and length included; the zeroed one of the start
is `none`. Times are in microseconds. The clock stands still during a run of the task and moves
on between two of them.
-/

namespace Esp32Firmware.CmNetworking

def minute : Int := 60000000

/-- What the receive task keeps between its runs. -/
structure Client (α : Type*) where
  managerAddr : Option α
  managerAddrValid : Bool
  lastManagerAddrChange : Int
  lastSeenSeqNum : UInt16
  lastSuccessfulRecv : Int

/-- What becomes of a command that passes the checks of its header. -/
inductive Reaction where
  | block
  | apply
deriving DecidableEq

/-- A command that passed the checks of its header. -/
structure Accepted (α : Type*) where
  time : Int
  source : α
  reaction : Reaction
deriving DecidableEq

/-- The receive task and what it accepted so far, the newest command first. -/
structure CommandLog (α : Type*) where
  client : Client α
  now : Int
  accepted : List (Accepted α)

/-- One run of the task, which receives a datagram or nothing. -/
structure Round (α : Type*) where
  delay : ℕ+
  received : Option (α × List UInt8)

section

variable {α : Type*} [DecidableEq α]

/-- `register_client`, before the first run of its task. -/
def Client.initial (α : Type*) (now : Nat) : Client α where
  managerAddr := none
  managerAddrValid := false
  lastManagerAddrChange := -minute
  lastSeenSeqNum := PacketKind.command.initialSeqNum
  lastSuccessfulRecv := now

/-- Nothing was received. -/
def Client.timeout (s : Client α) (now : Int) : Client α :=
  if s.managerAddrValid ∧ s.lastSuccessfulRecv + minute ≤ now then
    { s with managerAddrValid := false }
  else s

/-- A command that passed the checks of its header comes from an address. -/
def Client.receiveFrom (s : Client α) (now : Int) (source : α) : Client α × Reaction :=
  if s.managerAddr ≠ some source then
    let s := { s with
      managerAddrValid := decide (s.lastManagerAddrChange + minute ≤ now)
      managerAddr := some source
      lastManagerAddrChange := now }
    if s.managerAddrValid = false then (s, .block)
    else ({ s with lastSuccessfulRecv := now }, .apply)
  else if s.managerAddrValid = false ∧ s.managerAddr.isSome then
    if s.lastManagerAddrChange + minute ≤ now then
      ({ s with managerAddrValid := true, lastSuccessfulRecv := now }, .apply)
    else (s, .block)
  else ({ s with lastSuccessfulRecv := now }, .apply)

/-- The receive task. -/
def Client.task (s : Client α) (now : Int) : Option (α × List UInt8) → Client α × Option Reaction
  | none => (s.timeout now, none)
  | some (source, datagram) =>
    match receive .command s.lastSeenSeqNum datagram with
    | (false, _) => (s, none)
    | (true, seqNum) =>
      let (s, reaction) := { s with lastSeenSeqNum := seqNum }.receiveFrom now source
      (s, some reaction)

def CommandLog.initial (α : Type*) (now : Nat) : CommandLog α where
  client := .initial α now
  now := now
  accepted := []

def CommandLog.round (s : CommandLog α) (round : Round α) : CommandLog α :=
  let now := s.now + round.delay
  match round.received, s.client.task now round.received with
  | some (source, _), (client, some reaction) =>
    { client := client, now := now, accepted := ⟨now, source, reaction⟩ :: s.accepted }
  | _, (client, _) => { s with client := client, now := now }

end

section

variable {α : Type*} [DecidableEq α]

/-- The commands that came from another address than the command before. -/
def changes : List (Accepted α) → List (Accepted α)
  | [] => []
  | [p] => [p]
  | p :: q :: rest => if p.source = q.source then changes (q :: rest) else p :: changes (q :: rest)

/-- The last change of the address came at least one minute after the one before. -/
def ChangedLate (accepted : List (Accepted α)) : Prop :=
  ∀ last previous rest, changes accepted = last :: previous :: rest →
    previous.time + minute ≤ last.time

/-- Since at least one minute no command from another address was accepted. -/
def Alone (p : Accepted α) (past : List (Accepted α)) : Prop :=
  ∀ q ∈ past, q.source ≠ p.source → q.time + minute ≤ p.time

/-- A command from another address less than one minute after the last change. -/
def Conflict (p : Accepted α) (past : List (Accepted α)) : Prop :=
  ∃ last rest, changes past = last :: rest ∧ (∀ q ∈ past.head?, q.source ≠ p.source) ∧
    p.time < last.time + minute

/-- Both managers send at least once a minute, and nobody else sends. -/
def BothSend (a b : α) : List (Accepted α) → List (Accepted α) → Prop
  | [], _ => True
  | p :: later, past =>
    (p.source = a ∨ p.source = b) ∧
      (∀ source ∈ [a, b], ∃ q ∈ later ++ past, q.source = source ∧ p.time ≤ q.time + minute) ∧
      BothSend a b later past

variable {s : CommandLog α} {client : Client α} {now : Int} {source : α} {p : Accepted α}
  {past accepted : List (Accepted α)}

theorem changes_same (h : past.head?.map Accepted.source = some p.source) :
    changes (p :: past) = changes past := by
  cases past with
  | nil => cases h
  | cons q rest => exact if_pos (Option.some.inj h).symm

theorem changes_other (h : past.head?.map Accepted.source ≠ some p.source) :
    changes (p :: past) = p :: changes past := by
  cases past with
  | nil => rfl
  | cons q rest => exact if_neg fun heq => h (congrArg some heq.symm)

/-- Before the last change came all that the current manager did not send. -/
theorem changes_head {past : List (Accepted α)}
    (hsorted : (p :: past).Pairwise fun p q => q.time < p.time) :
    ∃ last rest, changes (p :: past) = last :: rest ∧
      ∀ q ∈ past, q.source ≠ p.source → q.time < last.time := by
  induction past generalizing p with
  | nil => exact ⟨p, [], rfl, fun q hq => by cases hq⟩
  | cons first past ih =>
    obtain ⟨hp, hpast⟩ := List.pairwise_cons.mp hsorted
    by_cases hsame : p.source = first.source
    · obtain ⟨last, rest, hchanges, hlast⟩ := ih hpast
      refine ⟨last, rest, ?_, ?_⟩
      · have hhead : (first :: past).head?.map Accepted.source = some p.source :=
          congrArg some hsame.symm
        rw [changes_same hhead, hchanges]
      · rw [hsame]
        intro q hq hother
        rcases List.mem_cons.mp hq with rfl | hq
        · exact absurd rfl hother
        · exact hlast q hq hother
    · refine ⟨p, changes (first :: past), ?_, fun q hq _ => hp q hq⟩
      exact changes_other fun heq => hsame (Option.some.inj heq).symm

/-- Whether a command is applied: the address is valid, or its last change is one minute ago. -/
theorem receiveFrom_spec (client : Client α) (now : Int) (source : α) :
    (client.receiveFrom now source).1.managerAddr = some source ∧
      (client.receiveFrom now source).1.lastManagerAddrChange =
        (if client.managerAddr = some source then client.lastManagerAddrChange else now) ∧
      ((client.receiveFrom now source).2 = .apply ↔
        client.managerAddr = some source ∧ client.managerAddrValid = true ∨
          client.lastManagerAddrChange + minute ≤ now) ∧
      ((client.receiveFrom now source).1.managerAddrValid = true ↔
        (client.receiveFrom now source).2 = .apply) := by
  rw [Client.receiveFrom]
  by_cases hsame : client.managerAddr = some source
  · rw [if_neg (not_not.mpr hsame)]
    cases hvalid : client.managerAddrValid with
    | true => simp [hsame]
    | false =>
      by_cases hlate : client.lastManagerAddrChange + minute ≤ now
      · simp [hsame, hlate]
      · simp [hsame, hlate, hvalid]
  · rw [if_pos hsame]
    by_cases hlate : client.lastManagerAddrChange + minute ≤ now
    · simp [hsame, hlate]
    · simp [hsame, hlate]

/-- What the receive task knows of the commands it accepted. -/
structure CommandLog.Obeys (s : CommandLog α) : Prop where
  now_nonneg : 0 ≤ s.now
  sorted : s.accepted.Pairwise fun p q => q.time < p.time
  upToNow : ∀ p ∈ s.accepted, p.time ≤ s.now
  address : s.client.managerAddr = s.accepted.head?.map Accepted.source
  lastChange : s.client.lastManagerAddrChange =
    ((changes s.accepted).head?.map Accepted.time).getD (-minute)
  valid : s.client.managerAddrValid = true →
    ChangedLate s.accepted ∨ s.client.lastManagerAddrChange + minute ≤ s.now

theorem CommandLog.obeys_initial (now : Nat) : (CommandLog.initial α now).Obeys where
  now_nonneg := Int.natCast_nonneg now
  sorted := .nil
  upToNow := fun p hp => by cases hp
  address := rfl
  lastChange := rfl
  valid := fun h => by cases h

/-- Time passes, and the address may become invalid. -/
theorem CommandLog.Obeys.wait (h : s.Obeys) {now : Int} (hnow : s.now ≤ now) {client : Client α}
    (haddress : client.managerAddr = s.client.managerAddr)
    (hchange : client.lastManagerAddrChange = s.client.lastManagerAddrChange)
    (hvalid : client.managerAddrValid = true → s.client.managerAddrValid = true) :
    ({ s with client := client, now := now } : CommandLog α).Obeys where
  now_nonneg := h.now_nonneg.trans hnow
  sorted := h.sorted
  upToNow := fun p hp => (h.upToNow p hp).trans hnow
  address := haddress.trans h.address
  lastChange := hchange.trans h.lastChange
  valid := fun hclient => (h.valid (hvalid hclient)).imp_right fun hlate =>
    (hchange.symm ▸ hlate).trans hnow

/-- An applied command changed the address late, or the address changed one minute ago. -/
theorem CommandLog.Obeys.applied (h : s.Obeys) {now : Int} (hnow : s.now ≤ now) {source : α}
    (happly : (s.client.receiveFrom now source).2 = .apply) (p : Accepted α)
    (hp : p.time = now ∧ p.source = source) :
    ChangedLate (p :: s.accepted) ∨
      s.client.managerAddr = some source ∧ s.client.lastManagerAddrChange + minute ≤ now := by
  obtain ⟨rfl, rfl⟩ := hp
  rw [(receiveFrom_spec s.client _ _).2.2.1] at happly
  by_cases hsame : s.client.managerAddr = some p.source
  · rcases happly with ⟨-, hvalid⟩ | hlate
    · rcases h.valid hvalid with hchanged | hlate
      · left
        rwa [ChangedLate, changes_same (h.address ▸ hsame)]
      · exact .inr ⟨hsame, hlate.trans hnow⟩
    · exact .inr ⟨hsame, hlate⟩
  · left
    have hlate : s.client.lastManagerAddrChange + minute ≤ p.time :=
      happly.resolve_left fun hvalid => hsame hvalid.1
    intro last previous rest hchanges
    rw [changes_other (h.address ▸ hsame)] at hchanges
    obtain ⟨rfl, hprevious⟩ := List.cons.inj hchanges
    have hchange := h.lastChange
    rw [hprevious] at hchange
    rw [hchange] at hlate
    exact hlate

/-- The log after a command that passed the checks of its header. -/
def CommandLog.accept (s : CommandLog α) (now : Int) (source : α) : CommandLog α where
  client := (s.client.receiveFrom now source).1
  now := now
  accepted := ⟨now, source, (s.client.receiveFrom now source).2⟩ :: s.accepted

theorem CommandLog.Obeys.sorted_accept (h : s.Obeys) (hnow : s.now < now) (source : α) :
    (s.accept now source).accepted.Pairwise fun p q => q.time < p.time :=
  List.pairwise_cons.mpr ⟨fun q hq => (h.upToNow q hq).trans_lt hnow, h.sorted⟩

theorem CommandLog.Obeys.accept (h : s.Obeys) (hnow : s.now < now) (source : α) :
    (s.accept now source).Obeys := by
  obtain ⟨haddress, hchange, happly, hvalid⟩ :=
    receiveFrom_spec s.client now source
  refine ⟨h.now_nonneg.trans hnow.le, h.sorted_accept hnow source, ?_, haddress, ?_, ?_⟩
  · intro p hp
    rcases List.mem_cons.mp hp with rfl | hp
    · exact le_rfl
    · exact (h.upToNow p hp).trans hnow.le
  · rw [CommandLog.accept, hchange]
    by_cases hsame : s.client.managerAddr = some source
    · rw [if_pos hsame, changes_same (h.address ▸ hsame), h.lastChange]
    · rw [if_neg hsame, changes_other (h.address ▸ hsame)]
      rfl
  · intro hnewValid
    rw [CommandLog.accept, hvalid] at hnewValid
    refine (h.applied hnow.le hnewValid _ ⟨rfl, rfl⟩).imp_right ?_
    rintro ⟨hsame, hlate⟩
    rw [CommandLog.accept, hchange, if_pos hsame]
    exact hlate

/-- All that the current manager did not send is older than the last change of the address. -/
theorem CommandLog.Obeys.others (h : s.Obeys) {q : Accepted α} (hq : q ∈ s.accepted)
    (hother : s.client.managerAddr ≠ some q.source) :
    q.time < s.client.lastManagerAddrChange := by
  cases haccepted : s.accepted with
  | nil =>
    rw [haccepted] at hq
    cases hq
  | cons p past =>
    have hsorted := h.sorted
    rw [h.address, haccepted] at hother
    rw [haccepted] at hq hsorted
    obtain ⟨last, rest, hchanges, hlast⟩ := changes_head hsorted
    rw [h.lastChange, haccepted, hchanges]
    rcases List.mem_cons.mp hq with rfl | hq
    · exact absurd rfl hother
    · exact hlast q hq fun heq => hother (congrArg some heq.symm)

/-- A command is only applied if its address took over late or is alone. -/
theorem CommandLog.Obeys.applied_or_alone (h : s.Obeys) (hnow : s.now < now) {source : α}
    (happly : (s.client.receiveFrom now source).2 = .apply) (p : Accepted α)
    (hp : p.time = now ∧ p.source = source) :
    ChangedLate (p :: s.accepted) ∨ Alone p s.accepted := by
  refine (h.applied hnow.le happly p hp).imp_right ?_
  rintro ⟨hsame, hlate⟩ q hq hother
  have hbefore : q.time < s.client.lastManagerAddrChange :=
    h.others hq fun heq => hother (Option.some.inj (heq.symm.trans (hp.2 ▸ hsame)))
  rw [hp.1]
  exact (Int.add_le_add_right hbefore.le _).trans hlate

/-- A command is blocked while the last change of the address is less than one minute ago and
the address is not valid. -/
theorem receiveFrom_block {source : α} (hlate : now < client.lastManagerAddrChange + minute)
    (hvalid : client.managerAddrValid = false ∨ client.managerAddr ≠ some source) :
    (client.receiveFrom now source).2 = .block ∧
      (client.receiveFrom now source).1.managerAddrValid = false := by
  obtain ⟨-, -, happly, hnewValid⟩ :=
    receiveFrom_spec client now source
  have hblocked : (client.receiveFrom now source).2 ≠ .apply := by
    rw [Ne, happly]
    rintro (⟨hsame, hold⟩ | hold)
    · rcases hvalid with hvalid | hother
      · exact absurd (hvalid.symm.trans hold) (by decide)
      · exact hother hsame
    · exact hlate.not_ge hold
  constructor
  · cases hreaction : (client.receiveFrom now source).2 with
    | block => rfl
    | apply => exact absurd hreaction hblocked
  · rw [← Bool.not_eq_true, hnewValid]
    exact hblocked

/-- Every applied command came from an address that took over late or was alone. -/
def CommandLog.AppliesRightly (s : CommandLog α) : Prop :=
  ∀ before p past, s.accepted = before ++ p :: past → p.reaction = .apply →
    ChangedLate (p :: past) ∨ Alone p past

/-- Every command after a conflict of two managers is blocked. -/
def CommandLog.Blocks (s : CommandLog α) : Prop :=
  ∀ before p past a b, s.accepted = before ++ p :: past → Conflict p past → a ≠ b →
    BothSend a b before (p :: past) →
      (∀ q ∈ before ++ [p], q.reaction = .block) ∧ s.client.managerAddrValid = false

theorem CommandLog.Obeys.accept_appliesRightly (h : s.Obeys) (hs : s.AppliesRightly)
    (hnow : s.now < now) (source : α) : (s.accept now source).AppliesRightly := by
  intro before p past haccepted happly
  rcases List.cons_eq_append_iff.mp haccepted with ⟨-, hnew⟩ | ⟨before, rfl, hold⟩
  · obtain ⟨rfl, rfl⟩ := List.cons.inj hnew
    exact h.applied_or_alone hnow happly _ ⟨rfl, rfl⟩
  · exact hs before p past hold happly

theorem CommandLog.Obeys.accept_blocks (h : s.Obeys) (hs : s.Blocks) (now : Int)
    (source : α) : (s.accept now source).Blocks := by
  intro before p past a b haccepted hconflict hab hboth
  rcases List.cons_eq_append_iff.mp haccepted with ⟨rfl, hnew⟩ | ⟨before, rfl, hold⟩
  · -- The conflict itself.
    obtain ⟨rfl, rfl⟩ := List.cons.inj hnew
    obtain ⟨last, rest, hchanges, hother, hearly⟩ := hconflict
    have hchange : s.client.lastManagerAddrChange = last.time := by
      rw [h.lastChange, hchanges]
      rfl
    have hsource : s.client.managerAddr ≠ some source := by
      rw [h.address]
      intro heq
      obtain ⟨first, hfirst, heq⟩ := Option.map_eq_some_iff.mp heq
      exact hother first hfirst heq
    obtain ⟨hblock, hvalid⟩ := receiveFrom_block (hchange ▸ hearly) (.inr hsource)
    refine ⟨fun q hq => ?_, hvalid⟩
    rw [List.mem_singleton.mp hq]
    exact hblock
  · -- The manager that is not the current one sent within the last minute.
    obtain ⟨-, hsent, hlater⟩ := hboth
    obtain ⟨hblocked, hinvalid⟩ := hs before p past a b hold hconflict hab hlater
    obtain ⟨other, hmem, hother⟩ : ∃ other ∈ [a, b], s.client.managerAddr ≠ some other := by
      by_cases ha : s.client.managerAddr = some a
      · exact ⟨b, by simp, fun hb => hab (Option.some.inj (ha.symm.trans hb))⟩
      · exact ⟨a, by simp, ha⟩
    obtain ⟨q, hq, hsource, htime⟩ := hsent other hmem
    rw [← hold] at hq
    have hbefore := h.others hq (hsource ▸ hother)
    have hearly : now < s.client.lastManagerAddrChange + minute :=
      htime.trans_lt (Int.add_lt_add_right hbefore _)
    obtain ⟨hblock, hvalid⟩ := @receiveFrom_block _ _ _ _ source hearly (.inl hinvalid)
    refine ⟨?_, hvalid⟩
    rw [List.cons_append, List.forall_mem_cons]
    exact ⟨hblock, hblocked⟩

/-- A run of the task accepts a command, or it only lets time pass. -/
theorem round_cases (s : CommandLog α) (round : Round α) :
    (∃ seqNum source, s.round round = { s with
      client := { s.client with lastSeenSeqNum := seqNum } : CommandLog α }.accept
        (s.now + round.delay) source) ∨
    ∃ client : Client α, s.round round = { s with client := client, now := s.now + round.delay } ∧
      client.managerAddr = s.client.managerAddr ∧
      client.lastManagerAddrChange = s.client.lastManagerAddrChange ∧
      (client.managerAddrValid = true → s.client.managerAddrValid = true) := by
  obtain ⟨delay, received⟩ := round
  cases received with
  | none =>
    right
    refine ⟨s.client.timeout (s.now + delay), rfl, ?_⟩
    rw [Client.timeout]
    split
    · exact ⟨rfl, rfl, fun h => by cases h⟩
    · exact ⟨rfl, rfl, id⟩
  | some packet =>
    obtain ⟨source, datagram⟩ := packet
    rw [CommandLog.round, Client.task]
    rcases receive .command s.client.lastSeenSeqNum datagram with ⟨processed, seqNum⟩
    cases processed with
    | true => exact .inl ⟨seqNum, source, rfl⟩
    | false => exact .inr ⟨s.client, rfl, rfl, rfl, id⟩

theorem round_keeps (h : s.Obeys ∧ s.AppliesRightly ∧ s.Blocks) (round : Round α) :
    (s.round round).Obeys ∧ (s.round round).AppliesRightly ∧ (s.round round).Blocks := by
  obtain ⟨hobeys, happlies, hblocks⟩ := h
  have hnow : s.now < s.now + round.delay :=
    Int.lt_add_of_pos_right _ (Int.natCast_pos.mpr round.delay.pos)
  rcases round_cases s round with
    ⟨seqNum, source, hround⟩ | ⟨client, hround, haddress, hchange, hvalid⟩
  · rw [hround]
    have hsame : ({ s with client := { s.client with lastSeenSeqNum := seqNum } } :
        CommandLog α).Obeys := hobeys.wait le_rfl rfl rfl id
    exact ⟨hsame.accept hnow source, hsame.accept_appliesRightly happlies hnow source,
      hsame.accept_blocks hblocks _ source⟩
  · rw [hround]
    refine ⟨hobeys.wait hnow.le haddress hchange hvalid, happlies, ?_⟩
    intro before p past a b haccepted hconflict hab hboth
    obtain ⟨hblocked, hinvalid⟩ := hblocks before p past a b haccepted hconflict hab hboth
    refine ⟨hblocked, ?_⟩
    rw [← Bool.not_eq_true]
    exact fun hclient => absurd (hinvalid.symm.trans (hvalid hclient)) (by decide)

/-- A charger obeys one manager only: an applied command comes from an address that took over at
least one minute after the change before, or that was alone for at least one minute. Once two
managers that both send at least once a minute are in conflict, no command is applied. -/
theorem one_manager_only (registered : Nat) (rounds : List (Round α)) :
    let s := run CommandLog.round (CommandLog.initial α registered) rounds
    ∀ before p past, s.accepted = before ++ p :: past →
      (p.reaction = .apply → ChangedLate (p :: past) ∨ Alone p past) ∧
      (Conflict p past → ∀ a b, a ≠ b → BothSend a b before (p :: past) →
        ∀ q ∈ before ++ [p], q.reaction = .block) := by
  have hinitial : (CommandLog.initial α registered).Obeys ∧
      (CommandLog.initial α registered).AppliesRightly ∧
      (CommandLog.initial α registered).Blocks := by
    refine ⟨CommandLog.obeys_initial registered, ?_, ?_⟩
    · intro before p past haccepted
      exact absurd haccepted (by simp [CommandLog.initial])
    · intro before p past a b haccepted
      exact absurd haccepted (by simp [CommandLog.initial])
  intro s before p past haccepted
  have hkept : s.Obeys ∧ s.AppliesRightly ∧ s.Blocks :=
    run_invariant (I := fun s : CommandLog α => s.Obeys ∧ s.AppliesRightly ∧ s.Blocks)
      (fun _ round hs => round_keeps hs round) hinitial rounds
  obtain ⟨-, happlies, hblocks⟩ := hkept
  refine ⟨happlies before p past haccepted, fun hconflict a b hab hboth => ?_⟩
  exact (hblocks before p past a b haccepted hconflict hab hboth).1

end

/-- A command of the newest version. -/
def commandBytes (seqNum : UInt8) : List UInt8 :=
  [79, 133, 20, 0, seqNum, 0, 4, 0] ++ List.replicate 12 0

/-- Two managers send in turn, one second apart. -/
def twoManagers : List (Round String) :=
  [⟨1000000, some ("10.0.0.1", commandBytes 7)⟩, ⟨1000000, some ("10.0.0.2", commandBytes 100)⟩,
    ⟨1000000, some ("10.0.0.1", commandBytes 200)⟩]

theorem one_manager_only_twoManagers :
    let s := run CommandLog.round (CommandLog.initial String 0) twoManagers
    (∀ p ∈ s.accepted.drop 2, ChangedLate [p] ∨ Alone p []) ∧
      ∀ q ∈ s.accepted.take 2, q.reaction = .block := by
  intro s
  have haccepted : s.accepted = [⟨3000000, "10.0.0.1", .block⟩, ⟨2000000, "10.0.0.2", .block⟩,
      ⟨1000000, "10.0.0.1", .apply⟩] := by
    decide
  have hfirst := (one_manager_only 0 twoManagers [⟨3000000, "10.0.0.1", .block⟩,
    ⟨2000000, "10.0.0.2", .block⟩] ⟨1000000, "10.0.0.1", .apply⟩ [] haccepted).1 rfl
  have hrest := (one_manager_only 0 twoManagers [⟨3000000, "10.0.0.1", .block⟩]
    ⟨2000000, "10.0.0.2", .block⟩ [⟨1000000, "10.0.0.1", .apply⟩] haccepted).2
    ⟨_, _, rfl, by simp, by decide⟩ "10.0.0.1" "10.0.0.2" (by decide)
    ⟨by simp, by simp [minute], trivial⟩
  rw [haccepted]
  refine ⟨?_, hrest⟩
  intro p hp
  rw [List.mem_singleton.mp hp]
  exact hfirst

end Esp32Firmware.CmNetworking
