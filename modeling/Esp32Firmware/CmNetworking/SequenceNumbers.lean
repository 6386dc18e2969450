import Esp32Firmware.Library.Run

/-!
# Charge management packets

Managers send command packets, chargers send state packets. Newer versions append groups of
fields, and a group may use the padding of an older one. A receiver takes as many bytes as its
own newest version has and checks the length for the version in the header. Without a callback
a packet is passed on, the whole structure under the header that was received.

Packets carry a sequence number of 16 bits. A receiver takes a packet for a stale one if its
number is at most 4 below the last one, compared as numbers without a wrap. Packets that are
late by up to 4 positions are told from new ones as long as the numbers do not wrap in between.

## Implementation notes

What the phase switcher changes in a packet that is passed on is any change behind the header.

A packet counts as processed when its number is recorded. What is checked afterwards (that a
charger is managed, that the address of the manager did not change) reads no sequence number.
-/

namespace Esp32Firmware.CmNetworking

inductive PacketKind where
  | command
  | state
  deriving DecidableEq, Repr

def headerLength : Nat := 8

namespace PacketKind

/-- The name in error messages. -/
def typeName : PacketKind → String
  | command => "command"
  | state => "state"

def minVersion : PacketKind → Nat
  | command => 1
  | state => 1

/-- `CM_COMMAND_VERSION` and `CM_STATE_VERSION` -/
def version : PacketKind → Nat
  | command => 4
  | state => 5

/-- Offset and length of the groups of fields from `v1` on. -/
def groups : PacketKind → List (Nat × Nat)
  | command => [(8, 4), (8, 4), (12, 4), (16, 4)]
  | state => [(8, 72), (80, 4), (84, 4), (88, 4), (88, 48)]

def packetLengthVersions : PacketKind → List Nat
  | command => [headerLength, headerLength + 4, headerLength + 4, headerLength + 4 + 4,
      headerLength + 4 + 4 + 4]
  | state => [headerLength, headerLength + 72, headerLength + 72 + 4, headerLength + 72 + 4 + 4,
      headerLength + 72 + 4 + 4 + 4, headerLength + 72 + 4 + 4 + 48]

/-- The size of the structure that packets are received into. -/
def packetLength : PacketKind → Nat
  | command => 20
  | state => 136

/-- The groups, counted from `v1` on, that are read or passed on for a packet of a version. The
filter of the phase switcher reads the `v2` of every command. -/
def readGroups : PacketKind → Nat → List Nat
  | command, version => (List.range 4).filter fun i => i ≤ 1 ∨ i + 1 ≤ version
  | state, version => (List.range 5).filter fun i => i = 0 ∨ i + 1 ≤ version

end PacketKind

def cmPacketMagic : Nat := 34127

/-- A little-endian number of 16 bits. -/
def uint16At (bytes : List UInt8) (offset : Nat) : UInt16 :=
  (bytes.getD offset 0).toUInt16 + 256 * (bytes.getD (offset + 1) 0).toUInt16

structure PacketHeader where
  magic : UInt16
  length : UInt16
  seqNum : UInt16
  version : UInt8
  padding : UInt8
  deriving DecidableEq, Repr

def PacketHeader.ofBytes (bytes : List UInt8) : PacketHeader where
  magic := uint16At bytes 0
  length := uint16At bytes 2
  seqNum := uint16At bytes 4
  version := bytes.getD 6 0
  padding := bytes.getD 7 0

def validatePacketHeaderCommon (header : PacketHeader) (recvLength : Nat) : Option String :=
  if recvLength < headerLength then
    some s!"Truncated header with {recvLength} bytes."
  else if header.magic.toNat ≠ cmPacketMagic then
    some s!"Invalid magic. Got {header.magic}."
  else none

def validateProtocolVersion (kind : PacketKind) (header : PacketHeader) (recvLength : Nat) :
    Option String :=
  let version := header.version.toNat
  let length := header.length.toNat
  if version < kind.minVersion then
    some s!"Protocol version {version} too old. Need at least version {kind.minVersion}."
  else if version ≤ kind.version then
    let expected := kind.packetLengthVersions.getD version 0
    if length ≠ expected then
      some s!"Invalid {kind.typeName} packet length for known protocol version {version}: {length} bytes. Expected {expected} bytes."
    else if recvLength ≠ length then
      some s!"Received truncated {kind.typeName} packet for known protocol version {version}: {recvLength}/{length} bytes."
    else none
  else
    let known := kind.packetLengthVersions.getD kind.version 0
    if length < known then
      some s!"Invalid {kind.typeName} packet length for protocol version {version} from the future: {length} bytes."
    else if recvLength ≠ known then
      some s!"Received truncated {kind.typeName} packet for protocol version {version}: {recvLength}/{length} bytes."
    else none

namespace PacketKind

/-- The bytes of a datagram that are received. -/
def received (kind : PacketKind) (datagram : List UInt8) : List UInt8 :=
  datagram.take kind.packetLength

/-- The header a receiver sees. -/
def header (kind : PacketKind) (datagram : List UInt8) : PacketHeader :=
  PacketHeader.ofBytes (kind.received datagram)

/-- `validate_command_packet_header` and `validate_state_packet_header`; `none` is accepted. -/
def validatePacketHeader (kind : PacketKind) (datagram : List UInt8) : Option String :=
  let recvLength := (kind.received datagram).length
  match validatePacketHeaderCommon (kind.header datagram) recvLength with
  | some error => some error
  | none => validateProtocolVersion kind (kind.header datagram) recvLength

/-- The structure as it is sent on: the header is the one received. -/
structure Forwarded (kind : PacketKind) (datagram sent : List UInt8) : Prop where
  length : sent.length = kind.packetLength
  header : sent.take headerLength = datagram.take headerLength

variable {kind : PacketKind} {datagram sent : List UInt8}

/-- An accepted packet has a valid header, and all bytes of its version or of the newest one. -/
theorem validatePacketHeader_eq_none :
    kind.validatePacketHeader datagram = none ↔ headerLength ≤ (kind.received datagram).length ∧
        (kind.header datagram).magic.toNat = cmPacketMagic ∧
        validateProtocolVersion kind (kind.header datagram) (kind.received datagram).length = none := by
  unfold validatePacketHeader validatePacketHeaderCommon
  dsimp only
  by_cases hlength : (kind.received datagram).length < headerLength
  · rw [if_pos hlength]
    simp [Nat.not_le.mpr hlength]
  · rw [if_neg hlength]
    by_cases hmagic : (kind.header datagram).magic.toNat ≠ cmPacketMagic
    · rw [if_pos hmagic]
      simp [hmagic]
    · rw [if_neg hmagic]
      simp [Nat.not_lt.mp hlength, not_not.mp hmagic]

/-- Known versions need their own length, others at least that of the newest known one. -/
theorem validateProtocolVersion_eq_none {header : PacketHeader} {recvLength : Nat} :
    validateProtocolVersion kind header recvLength = none ↔ kind.minVersion ≤ header.version.toNat ∧
        (header.version.toNat ≤ kind.version →
          header.length.toNat = kind.packetLengthVersions.getD header.version.toNat 0 ∧
            recvLength = header.length.toNat) ∧
        (kind.version < header.version.toNat →
          kind.packetLengthVersions.getD kind.version 0 ≤ header.length.toNat ∧
            recvLength = kind.packetLengthVersions.getD kind.version 0) := by
  unfold validateProtocolVersion
  dsimp only
  split
  · rename_i hold
    simp [Nat.not_le.mpr hold]
  · rename_i hmin
    split
    · rename_i hknown
      split <;> simp_all
    · rename_i hnew
      split <;> simp_all

/-- The structure is as long as a packet of the newest known version. -/
theorem packetLengthVersions_version :
    kind.packetLengthVersions.getD kind.version 0 = kind.packetLength := by
  cases kind <;> rfl

variable {version : Nat}

/-- The groups of a version end where a packet of this version ends. -/
theorem readGroups_le (hmin : kind.minVersion ≤ version) (hmax : version ≤ kind.version) :
    ∀ i ∈ kind.readGroups version, ∀ group, kind.groups[i]? = some group →
      group.1 + group.2 ≤ kind.packetLengthVersions.getD version 0 := by
  cases kind <;> simp only [minVersion, PacketKind.version] at hmin hmax <;>
    interval_cases version <;> decide

/-- Versions from the future are read as the newest known one. -/
theorem readGroups_future (h : kind.version < version) :
    kind.readGroups version = kind.readGroups kind.version := by
  cases kind with
  | command =>
    have hall : ∀ n, 4 ≤ n → command.readGroups n = [0, 1, 2, 3] := by
      intro n hn
      have hlt : 1 < n ∧ 2 < n ∧ 3 < n := by omega
      simp [readGroups, List.range_succ, hlt]
    have hversion : 4 < version := h
    exact (hall version hversion.le).trans (hall 4 le_rfl).symm
  | state =>
    have hall : ∀ n, 5 ≤ n → state.readGroups n = [0, 1, 2, 3, 4] := by
      intro n hn
      have hlt : 1 < n ∧ 2 < n ∧ 3 < n ∧ 4 < n := by omega
      simp [readGroups, List.range_succ, hlt]
    have hversion : 5 < version := h
    exact (hall version hversion.le).trans (hall 5 le_rfl).symm

/-- Older versions are shorter, but for those that only use padding. -/
theorem packetLengthVersions_lt (hmin : kind.minVersion ≤ version) (hmax : version < kind.version) :
    kind.packetLengthVersions.getD version 0 < kind.packetLength := by
  cases kind <;> simp only [PacketKind.version] at hmin hmax <;>
    interval_cases version <;> decide

/-- A header is its first bytes. -/
theorem ofBytes_congr {bytes bytes' : List UInt8}
    (h : bytes.take headerLength = bytes'.take headerLength) :
    PacketHeader.ofBytes bytes = PacketHeader.ofBytes bytes' := by
  have hbyte : ∀ i < headerLength, bytes.getD i 0 = bytes'.getD i 0 := by
    intro i hi
    have htake := congrArg (fun l => l[i]?) h
    simp only [List.getElem?_take, if_pos hi] at htake
    rw [List.getD_eq_getElem?_getD, List.getD_eq_getElem?_getD, htake]
  simp only [headerLength] at hbyte
  simp only [PacketHeader.ofBytes, uint16At, hbyte, Nat.reduceLT, Nat.reduceAdd]

theorem take_received : (kind.received datagram).take headerLength = datagram.take headerLength := by
  rw [received, List.take_take]
  congr 1
  cases kind <;> rfl

theorem Forwarded.header_eq (h : kind.Forwarded datagram sent) :
    kind.header sent = kind.header datagram := by
  apply ofBytes_congr
  rw [take_received, take_received]
  exact h.header

theorem Forwarded.length_received (h : kind.Forwarded datagram sent) :
    (kind.received sent).length = kind.packetLength := by
  rw [received, List.length_take, h.length, min_self]

/-- What is read of an accepted packet has been received. -/
theorem readGroups_received (h : kind.validatePacketHeader datagram = none) :
    ∀ i ∈ kind.readGroups (kind.header datagram).version.toNat, ∀ group,
      kind.groups[i]? = some group → group.1 + group.2 ≤ (kind.received datagram).length := by
  obtain ⟨-, -, hversion⟩ := validatePacketHeader_eq_none.mp h
  obtain ⟨hmin, hknown, hfuture⟩ := validateProtocolVersion_eq_none.mp hversion
  rcases Nat.lt_or_ge kind.version (kind.header datagram).version.toNat with hlt | hle
  · rw [readGroups_future hlt, (hfuture hlt).2]
    exact readGroups_le (by cases kind <;> decide) le_rfl
  · obtain ⟨hlength, hreceived⟩ := hknown hle
    rw [hreceived, hlength]
    exact readGroups_le hmin hle

/-- A packet that is passed on is accepted again from the newest known version on. -/
theorem validatePacketHeader_forwarded (h : kind.validatePacketHeader datagram = none)
    (hsent : kind.Forwarded datagram sent) :
    kind.validatePacketHeader sent = none ↔
      kind.version ≤ (kind.header datagram).version.toNat := by
  obtain ⟨-, hmagic, hversion⟩ := validatePacketHeader_eq_none.mp h
  obtain ⟨hmin, hknown, hfuture⟩ := validateProtocolVersion_eq_none.mp hversion
  rw [validatePacketHeader_eq_none, validateProtocolVersion_eq_none, hsent.header_eq,
    hsent.length_received, packetLengthVersions_version]
  constructor
  · rintro ⟨-, -, -, hlength, -⟩
    by_contra hold
    have hold' := Nat.lt_of_not_le hold
    have hshort := packetLengthVersions_lt hmin hold'
    omega
  · intro hnew
    refine ⟨by cases kind <;> decide, hmagic, hmin, fun hle => ?_, fun hlt => ?_⟩
    · have hsame := le_antisymm hle hnew
      have hexpected := (hknown hle).1
      rw [hsame, packetLengthVersions_version] at hexpected
      exact ⟨by rw [hsame, packetLengthVersions_version, hexpected], hexpected.symm⟩
    · rw [packetLengthVersions_version] at hfuture
      exact ⟨(hfuture hlt).1, rfl⟩

/-- Accepted packets hold all that is read of them, and they interoperate when passed on,
exactly from the newest known version on. -/
theorem interoperates_iff (h : kind.validatePacketHeader datagram = none)
    (hsent : kind.Forwarded datagram sent) :
    ((∀ i ∈ kind.readGroups (kind.header datagram).version.toNat, ∀ group,
        kind.groups[i]? = some group → group.1 + group.2 ≤ (kind.received datagram).length) ∧
      kind.validatePacketHeader sent = none) ↔
    kind.version ≤ (kind.header datagram).version.toNat := by
  rw [validatePacketHeader_forwarded h hsent]
  exact and_iff_right (readGroups_received h)

end PacketKind

/-- The first bytes of a packet: magic number, length, sequence number 7 and version. -/
def headerBytes (length version : UInt8) : List UInt8 := [79, 133, length, 0, 7, 0, version, 0]

/-- A command of the newest version that is passed on. -/
theorem interoperates_command :
    let datagram := headerBytes 20 4 ++ List.replicate 12 0
    ((∀ i ∈ PacketKind.command.readGroups 4, ∀ group, PacketKind.command.groups[i]? = some group →
          group.1 + group.2 ≤ (PacketKind.command.received datagram).length) ∧
      PacketKind.command.validatePacketHeader datagram = none) ↔ 4 ≤ 4 :=
  PacketKind.interoperates_iff
    (show PacketKind.command.validatePacketHeader (headerBytes 20 4 ++ List.replicate 12 0) = none by
      decide) ⟨rfl, rfl⟩

/-- A state packet of version 3 is passed on with too many bytes. -/
theorem forwarded_state_rejected :
    ¬ ∀ (kind : PacketKind) (datagram sent : List UInt8),
      kind.validatePacketHeader datagram = none → kind.Forwarded datagram sent →
        (∀ i ∈ kind.readGroups (kind.header datagram).version.toNat, ∀ group,
          kind.groups[i]? = some group → group.1 + group.2 ≤ (kind.received datagram).length) ∧
        kind.validatePacketHeader sent = none := by
  intro hclaim
  have hsent := (hclaim .state (headerBytes 88 3 ++ List.replicate 80 0)
    (headerBytes 88 3 ++ List.replicate 128 0) (by decide) ⟨rfl, rfl⟩).2
  exact absurd hsent (by decide +kernel)

def seqNumInvalid (receivedSn lastSeenSn : UInt16) : Bool :=
  receivedSn ≤ lastSeenSn ∧ lastSeenSn.toNat - receivedSn.toNat < 5

/-- What a receiver takes for the last number it has seen at first: a manager for each of its
chargers, a charger for its manager. -/
def PacketKind.initialSeqNum : PacketKind → UInt16
  | state => 65535
  | command => 255

/-- Whether a datagram is processed, and the last sequence number seen afterwards. -/
def receive (kind : PacketKind) (lastSeenSeqNum : UInt16) (datagram : List UInt8) :
    Bool × UInt16 :=
  match kind.validatePacketHeader datagram with
  | some _ => (false, lastSeenSeqNum)
  | none =>
    let seqNum := (kind.header datagram).seqNum
    if seqNumInvalid seqNum lastSeenSeqNum then (false, lastSeenSeqNum) else (true, seqNum)

/-- The last sequence numbers seen, and which packets of each stream arrived and which of them
were processed. -/
structure Reception (ι : Type*) where
  lastSeenSeqNum : ι → UInt16
  arrived : ι → List Nat
  processed : ι → List Nat

/-- The numbers that streams of packets carry: one after the other modulo 65536. -/
structure Numbered {ι : Type*} (kind : PacketKind) (stream : ι → Nat → List UInt8)
    (first : ι → Nat) : Prop where
  valid : ∀ i k, kind.validatePacketHeader (stream i k) = none
  seqNum : ∀ i k, (kind.header (stream i k)).seqNum.toNat = (first i + k) % 2 ^ 16

variable {ι : Type*} [DecidableEq ι] {kind : PacketKind} {stream : ι → Nat → List UInt8}
  {first : ι → Nat} {s : Reception ι}

def Reception.initial (ι : Type*) (kind : PacketKind) : Reception ι where
  lastSeenSeqNum _ := kind.initialSeqNum
  arrived _ := []
  processed _ := []

/-- Packet `k` of a stream arrives. -/
def Reception.step (kind : PacketKind) (stream : ι → Nat → List UInt8) (s : Reception ι)
    (packet : ι × Nat) : Reception ι :=
  let result := receive kind (s.lastSeenSeqNum packet.1) (stream packet.1 packet.2)
  let arrived := s.arrived packet.1 ++ [packet.2]
  let processed := if result.1 then s.processed packet.1 ++ [packet.2] else s.processed packet.1
  { lastSeenSeqNum := Function.update s.lastSeenSeqNum packet.1 result.2
    arrived := Function.update s.arrived packet.1 arrived
    processed := Function.update s.processed packet.1 processed }

/-- A packet may be lost, may come twice, and is late by up to 4 positions. -/
def ReorderedByFour (s : Reception ι) (packet : ι × Nat) : Prop :=
  ∀ k ∈ s.arrived packet.1, k ≤ packet.2 + 4

/-- A number within the 4 below `last`, or `last` itself. -/
def JustBelow (seqNum last : Nat) : Prop := seqNum ≤ last ∧ last < seqNum + 5

/-- The numbers do not wrap between a late packet and the last one processed, and a new packet
does not look like a late one: because of the initial number or of those that were lost. -/
def Unambiguous (kind : PacketKind) (first : ι → Nat) (s : Reception ι) (packet : ι × Nat) :
    Prop :=
  match (s.processed packet.1).getLast? with
  | none => ¬ JustBelow ((first packet.1 + packet.2) % 2 ^ 16) kind.initialSeqNum.toNat
  | some last =>
    if packet.2 ≤ last then
      (first packet.1 + packet.2) / 2 ^ 16 = (first packet.1 + last) / 2 ^ 16
    else ¬ JustBelow ((first packet.1 + packet.2) % 2 ^ 16) ((first packet.1 + last) % 2 ^ 16)

theorem seqNumInvalid_iff {receivedSn lastSeenSn : UInt16} :
    seqNumInvalid receivedSn lastSeenSn ↔ JustBelow receivedSn.toNat lastSeenSn.toNat := by
  simp only [seqNumInvalid, decide_eq_true_eq, JustBelow, UInt16.le_iff_toNat_le]
  omega

omit [DecidableEq ι] in
/-- A packet of a stream is processed unless its number is just below the last one. -/
theorem Numbered.receive (h : Numbered kind stream first) (i : ι) (k : Nat) (last : UInt16) :
    CmNetworking.receive kind last (stream i k) =
      if seqNumInvalid (kind.header (stream i k)).seqNum last then (false, last)
      else (true, (kind.header (stream i k)).seqNum) := by
  simp only [CmNetworking.receive, h.valid i k]

/-- Every packet is processed that is newer than all before it. -/
def NewProcessed (arrived processed : List Nat) : Prop :=
  ∀ before k after, arrived = before ++ k :: after → (∀ k' ∈ before, k' < k) → k ∈ processed

theorem NewProcessed.concat {arrived processed processed' : List Nat} {k : Nat}
    (h : NewProcessed arrived processed) (hkeep : ∀ k' ∈ processed, k' ∈ processed')
    (hnew : (∀ k' ∈ arrived, k' < k) → k ∈ processed') :
    NewProcessed (arrived ++ [k]) processed' := by
  intro before k' after heq hbefore
  rcases List.eq_nil_or_concat after with rfl | ⟨front, last, rfl⟩
  · obtain ⟨rfl, hk⟩ := List.append_inj' heq rfl
    obtain rfl := List.singleton_inj.mp hk
    exact hnew hbefore
  · rw [List.concat_eq_append, ← List.cons_append, ← List.append_assoc] at heq
    obtain ⟨hfront, -⟩ := List.append_inj' heq rfl
    exact hkeep k' (h before k' front hfront hbefore)

/-- The processed packets of one stream, and the last one of them. -/
inductive InOrder (kind : PacketKind) (first : Nat) (lastSeen : UInt16)
    (arrived processed : List Nat) : Prop where
  | none (harrived : arrived = []) (hprocessed : processed = [])
      (hlast : lastSeen = kind.initialSeqNum)
  | some (last : Nat) (hlast : processed.getLast? = some last) (hmem : last ∈ arrived)
      (hmax : ∀ k ∈ arrived, k ≤ last) (hbound : ∀ k ∈ processed, k ≤ last)
      (hsorted : processed.Pairwise (· < ·)) (hnew : NewProcessed arrived processed)
      (hseqNum : lastSeen.toNat = (first + last) % 2 ^ 16)

theorem InOrder.step (h : Numbered kind stream first) {i : ι} {k : Nat}
    (hs : InOrder kind (first i) (s.lastSeenSeqNum i) (s.arrived i) (s.processed i))
    (hreordered : ReorderedByFour s (i, k)) (hclear : Unambiguous kind first s (i, k)) :
    InOrder kind (first i) ((s.step kind stream (i, k)).lastSeenSeqNum i)
      ((s.step kind stream (i, k)).arrived i) ((s.step kind stream (i, k)).processed i) := by
  have hseqNum := h.seqNum i k
  simp only [Reception.step, Function.update_self, h.receive i k]
  cases hs with
  | none harrived hprocessed hlast =>
    simp only [Unambiguous, hprocessed] at hclear
    rw [harrived, hprocessed, if_neg]
    · refine .some k rfl (List.mem_singleton_self k) ?_ ?_ (List.pairwise_singleton ..) ?_ hseqNum
      · exact fun k' hk' => (List.mem_singleton.mp hk').le
      · exact fun k' hk' => (List.mem_singleton.mp hk').le
      · intro before k' after heq _
        exact heq ▸ List.mem_append_right _ List.mem_cons_self
    · rwa [seqNumInvalid_iff, hseqNum, hlast]
  | some last hlast hmem hmax hbound hsorted hnew hlastSeen =>
    simp only [Unambiguous, hlast] at hclear
    by_cases hlate : k ≤ last
    · -- a late packet is just below the last one
      rw [if_pos hlate] at hclear
      have hfour : last ≤ k + 4 := hreordered last hmem
      have hbelow : JustBelow (kind.header (stream i k)).seqNum.toNat (s.lastSeenSeqNum i).toNat := by
        constructor <;> omega
      rw [if_pos (seqNumInvalid_iff.mpr hbelow)]
      refine .some last hlast (List.mem_append_left _ hmem) ?_ hbound hsorted ?_ hlastSeen
      · intro k' hk'
        rcases List.mem_append.mp hk' with hk' | hk'
        · exact hmax k' hk'
        · rwa [List.mem_singleton.mp hk']
      · apply hnew.concat
        · exact fun k' hk' => hk'
        · intro hnewer
          have := hnewer last hmem
          omega
    · rw [if_neg hlate] at hclear
      rw [if_neg (by rwa [seqNumInvalid_iff, hseqNum, hlastSeen])]
      have hlt : last < k := Nat.lt_of_not_le hlate
      refine .some k (by simp) (List.mem_append_right _ (List.mem_singleton_self k)) ?_ ?_ ?_ ?_
        hseqNum
      · intro k' hk'
        rcases List.mem_append.mp hk' with hk' | hk'
        · exact (hmax k' hk').trans hlt.le
        · exact (List.mem_singleton.mp hk').le
      · intro k' hk'
        rcases List.mem_append.mp hk' with hk' | hk'
        · exact (hbound k' hk').trans hlt.le
        · exact (List.mem_singleton.mp hk').le
      · simp only [if_true, List.pairwise_append]
        refine ⟨hsorted, List.pairwise_singleton .., fun k' hk' k'' hk'' => ?_⟩
        rw [List.mem_singleton.mp hk'']
        exact (hbound k' hk').trans_lt hlt
      · apply hnew.concat
        · exact fun k' hk' => List.mem_append_left _ hk'
        · exact fun _ => List.mem_append_right _ (List.mem_singleton_self k)

/-- Packets of each stream are processed in order, and none is left out that arrives in order. -/
theorem packets_processed_in_order (h : Numbered kind stream first) (arrivals : List (ι × Nat))
    (hmeets : Meets (Reception.step kind stream)
      (fun s packet => ReorderedByFour s packet ∧ Unambiguous kind first s packet)
      (Reception.initial ι kind) arrivals) (i : ι) :
    let s := run (Reception.step kind stream) (Reception.initial ι kind) arrivals
    (s.processed i).Pairwise (· < ·) ∧ NewProcessed (s.arrived i) (s.processed i) := by
  intro s
  have hall : ∀ i, InOrder kind (first i) (s.lastSeenSeqNum i) (s.arrived i) (s.processed i) := by
    apply hmeets.invariant (I := fun s : Reception ι => ∀ i,
      InOrder kind (first i) (s.lastSeenSeqNum i) (s.arrived i) (s.processed i))
    · rintro s ⟨j, k⟩ hs ⟨hreordered, hclear⟩ i
      rcases eq_or_ne i j with rfl | hne
      · exact (hs i).step h hreordered hclear
      · simpa [Reception.step, Function.update_of_ne hne] using hs i
    · exact fun i => .none rfl rfl rfl
  cases hall i with
  | none harrived hprocessed hlast =>
    rw [harrived, hprocessed]
    exact ⟨List.Pairwise.nil, fun before k after heq => by simp at heq⟩
  | some last hlast hmem hmax hbound hsorted hnew hseqNum => exact ⟨hsorted, hnew⟩

/-- A command packet of the newest version. -/
def commandPacket (seqNum : Nat) : List UInt8 :=
  [79, 133, 20, 0, .ofNat seqNum, .ofNat (seqNum / 256), 4, 0] ++ List.replicate 12 0

theorem header_commandPacket (seqNum : Nat) :
    PacketKind.command.header (commandPacket seqNum) =
      ⟨34127, 20, (UInt8.ofNat seqNum).toUInt16 + 256 * (UInt8.ofNat (seqNum / 256)).toUInt16,
        4, 0⟩ := by
  simp [PacketKind.header, PacketKind.received, PacketKind.packetLength, commandPacket,
    PacketHeader.ofBytes, uint16At]

/-- Commands of one manager, the numbers begin with `first`. -/
theorem commandPacket_numbered (first : Nat) :
    Numbered PacketKind.command (fun (_ : Unit) k => commandPacket (first + k))
      fun _ => first where
  valid _ k := by
    rw [PacketKind.validatePacketHeader_eq_none, header_commandPacket]
    exact ⟨Nat.le_add_right 8 12, rfl, rfl⟩
  seqNum _ k := by
    rw [header_commandPacket]
    simp only [UInt16.toNat_add, UInt16.toNat_mul, UInt8.toNat_toUInt16, UInt8.toNat_ofNat',
      UInt16.reduceToNat]
    omega

/-- The second command of a manager comes late, and the third one twice. -/
theorem commands_processed_in_order :
    let s := run (Reception.step PacketKind.command fun (_ : Unit) k => commandPacket (0 + 300 + k))
      (Reception.initial Unit .command) [((), 0), ((), 2), ((), 1), ((), 2)]
    (s.processed ()).Pairwise (· < ·) ∧ NewProcessed (s.arrived ()) (s.processed ()) := by
  refine packets_processed_in_order (commandPacket_numbered (0 + 300))
    [((), 0), ((), 2), ((), 1), ((), 2)]
    ⟨⟨?_, ?_⟩, ⟨?_, ?_⟩, ⟨?_, ?_⟩, ⟨?_, ?_⟩, trivial⟩ ()
  case refine_2 =>
    show ¬ JustBelow 300 255
    unfold JustBelow
    omega
  case refine_4 =>
    show ¬ JustBelow 302 300
    unfold JustBelow
    omega
  case refine_6 => exact rfl
  case refine_8 => exact rfl
  all_goals
    intro k hk
    revert k
    decide

/-- The number 65535 comes one position late, after 0: the older command is processed again. -/
theorem late_command_processed :
    ¬ ∀ (stream : Unit → Nat → List UInt8) (first : Unit → Nat) (arrivals : List (Unit × Nat)),
      Numbered PacketKind.command stream first →
      Meets (Reception.step PacketKind.command stream) ReorderedByFour
        (Reception.initial Unit .command) arrivals →
      let s := run (Reception.step PacketKind.command stream)
        (Reception.initial Unit .command) arrivals
      (s.processed ()).Pairwise (· < ·) ∧ NewProcessed (s.arrived ()) (s.processed ()) := by
  intro hclaim
  have hin := (hclaim _ _ [((), 0), ((), 2), ((), 1)] (commandPacket_numbered 65534)
    ⟨?_, ?_, ?_, trivial⟩).1
  · exact absurd hin (by decide)
  all_goals
    intro k hk
    revert k
    decide

end Esp32Firmware.CmNetworking
