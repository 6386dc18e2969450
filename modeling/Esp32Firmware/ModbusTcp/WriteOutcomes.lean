import Esp32Firmware.ModbusTcp.RegisterWrites

/-!
# Outcomes of writes

A request that is refused should have changed nothing, and a current should never be set to a
smaller one than requested. Both loops call what they find before they know whether the request is
refused.
-/

namespace Esp32Firmware.ModbusTcp

section

def Action.current? : Action → Option ℕ
  | .setModbusCurrent current => some current.toNat
  | _ => none

/-- The currents in mA that calls set on the Modbus slot. -/
def currents (actions : List Action) : List ℕ := actions.filterMap Action.current?

/-- A current as the largest one that can be set. -/
def cutCurrent (requested : ℕ) : ℕ := min requested 65535

@[simp] theorem currents_append (actions actions' : List Action) :
    currents (actions ++ actions') = currents actions ++ currents actions' := by
  simp [currents]

theorem currents_flatMap {l : List ℕ} {called : ℕ → List Action} {requested : ℕ → List ℕ}
    (h : ∀ i ∈ l, currents (called i) = (requested i).map (· % 65536)) :
    currents (l.flatMap called) = (l.flatMap requested).map (· % 65536) := by
  induction l with
  | nil => rfl
  | cons i rest ih =>
    have hrest := ih fun j hj => h j (by simp [hj])
    rw [List.flatMap_cons, List.flatMap_cons, currents_append, List.map_append, hrest,
      h i (by simp)]

theorem map_mod_eq_map_cut_iff {requested : List ℕ} :
    requested.map (· % 65536) = requested.map cutCurrent ↔
      ∀ c ∈ requested, c < 65536 ∨ c % 65536 = 65535 := by
  rw [List.map_inj_left]
  refine forall₂_congr fun c _ => ?_
  rw [cutCurrent]
  omega

end

section

variable {s : Charger} {act : ℕ → ℕ → Option (List Action)} {start count i : ℕ}

/-- The loop does not end at index `i`. -/
def passes (s : Charger) (act : ℕ → ℕ → Option (List Action)) (start i : ℕ) : Bool :=
  !s.sendIllegalDataAddress || (act (i + start) i).isSome

/-- The indices that are served. -/
def served (s : Charger) (act : ℕ → ℕ → Option (List Action)) (start count : ℕ) : List ℕ :=
  (List.range count).takeWhile (passes s act start)

theorem writeEach_eq (hi : i ≤ count) (actions : List Action) :
    writeEach s act start count i actions =
      (if (List.range' i (count - i)).all (passes s act start) then .success
        else .illegalDataAddress,
      actions ++ ((List.range' i (count - i)).takeWhile (passes s act start)).flatMap fun j =>
        (act (j + start) j).getD []) := by
  induction hn : count - i generalizing i actions with
  | zero =>
    rw [writeEach, if_neg (by omega)]
    simp
  | succ n ih =>
    have hnext := fun actions => @ih (i + 1) (by omega) actions (by omega)
    rw [writeEach, if_pos (by omega), List.range'_succ]
    cases hact : act (i + start) i with
    | none =>
      cases hsend : s.sendIllegalDataAddress with
      | false =>
        have hpass : passes s act start i := by simp [passes, hsend]
        rw [List.all_cons, List.takeWhile_cons, hpass, Bool.true_and]
        simp [hnext, hact]
      | true =>
        have hpass : passes s act start i = false := by simp [passes, hsend, hact]
        simp [hpass]
    | some called =>
      have hpass : passes s act start i := by simp [passes, hact]
      rw [List.all_cons, List.takeWhile_cons, hpass, Bool.true_and]
      simp [hnext, hact]

section

variable (s : Charger) (act : ℕ → ℕ → Option (List Action)) (start count : ℕ)

theorem writeEach_code : (writeEach s act start count 0 []).1 ≠ .success ↔
      ∃ i < count, passes s act start i = false := by
  rw [writeEach_eq (Nat.zero_le count), Nat.sub_zero, ← List.range_eq_range']
  split_ifs with hall
  · simp only [List.all_eq_true, List.mem_range] at hall
    simp only [ne_eq, not_true_eq_false, false_iff, not_exists, not_and, Bool.not_eq_false]
    exact hall
  · simpa using hall

theorem writeEach_actions : (writeEach s act start count 0 []).2 =
      (served s act start count).flatMap fun i => (act (i + start) i).getD [] := by
  rw [writeEach_eq (Nat.zero_le count), Nat.sub_zero, ← List.range_eq_range', served]
  simp

end

end

section

variable (s : Charger) (start : UInt16) (data : List UInt16)

/-- The indices of the pairs that the loop visits from index `i` on. -/
def pairs (i : ℕ) : List ℕ :=
  if i < data.length then i :: pairs (nextIndex s start data i) else []
termination_by data.length - i
decreasing_by
  have hlt := lt_nextIndex s start data i
  omega

def pairReg (i : ℕ) : ℕ := (evenBelow (i + start.toNat)).toNat

def readable (i : ℕ) : Bool := (writtenValue s start data i).isSome

def pairValue (i : ℕ) : UInt32 := (writtenValue s start data i).getD 0

def pairCalls (i : ℕ) : Option (List Action) :=
  warpHoldingActions s data (pairReg start i) (pairValue s start data i) (behindPair start data i)

/-- The pair injects a tag. -/
def injectsAt (i : ℕ) : Prop :=
  s.cached .nfc ∧ pairReg start i = 4012 ∧
    (behindPair start data i + start.toNat = 4013 ∨ 1 < data.length)

/-- The pair calls something. -/
def actsAt (i : ℕ) : Prop :=
  (pairCalls s start data i).getD [] ≠ [] ∨ injectsAt s start data i

/-- A pair outside of the table, with no register of the tag behind it. -/
def Reported : List ℕ → Prop
  | [] => False
  | i :: rest =>
    (pairCalls s start data i = none ∧ ∀ j ∈ i :: rest, inNfcRange (pairReg start j) = false) ∨
      Reported rest

end

section

variable {s : Charger} {start : UInt16} {data : List UInt16} {i : ℕ} {st : WriteState}
  {val : UInt32}

theorem getWarpHoldingRegister_buffer {reg : UInt16} (buffer : List UInt8)
    (hrange : inNfcRange reg.toNat = false) :
    getWarpHoldingRegister { s with nfcTagInjectionBuffer := buffer } reg =
      getWarpHoldingRegister s reg := by
  have hout : ¬(4000 ≤ reg.toNat ∧ reg.toNat < 4014) := by simpa [inNfcRange] using hrange
  rw [getWarpHoldingRegister, getWarpHoldingRegister, warpHoldingRange, warpHoldingRange,
    if_neg hout, if_neg hout]
  rfl

theorem isSome_getWarpHoldingRegister {reg : UInt16} (buffer : List UInt8)
    (hrange : inNfcRange reg.toNat) :
    (getWarpHoldingRegister { s with nfcTagInjectionBuffer := buffer } reg).isSome := by
  have hin : 4000 ≤ reg.toNat ∧ reg.toNat < 4014 := by simpa [inNfcRange] using hrange
  rw [getWarpHoldingRegister, warpHoldingRange, if_pos hin, Option.some_or, orIllegal_some]
  rfl

theorem writtenValue_buffer (buffer : List UInt8) (hrange : inNfcRange (pairReg start i) = false) :
    writtenValue { s with nfcTagInjectionBuffer := buffer } start data i =
      writtenValue s start data i := by
  rw [writtenValue, writtenValue, getWarpHoldingRegister_buffer buffer hrange]

theorem isSome_writtenValue (hrange : inNfcRange (pairReg start i)) :
    (writtenValue s start data i).isSome := by
  have hread := @isSome_getWarpHoldingRegister s _ s.nfcTagInjectionBuffer hrange
  simp only [writtenValue]
  split_ifs
  · simpa using hread
  · simpa using hread
  · rfl

theorem warpHoldingActions_tag (hrange : inNfcRange (pairReg start i)) (behind : ℕ) :
    warpHoldingActions s data (pairReg start i) val behind = none := by
  have hin : 4000 ≤ pairReg start i ∧ pairReg start i < 4014 := by simpa [inNfcRange] using hrange
  simp only [warpHoldingActions]
  split_ifs <;> first | rfl | omega

/-- The value of a pair is readable if it was at the start of the request. -/
theorem readable_iff (buffer : List UInt8) :
    writtenValue { s with nfcTagInjectionBuffer := buffer } start data i = none ↔
      readable s start data i = false := by
  cases hrange : inNfcRange (pairReg start i) with
  | false => simp [readable, writtenValue_buffer buffer hrange]
  | true =>
    have hsome := @isSome_writtenValue s start data i hrange
    have hsome' := @isSome_writtenValue { s with nfcTagInjectionBuffer := buffer } start data i
      hrange
    rw [readable, hsome]
    simp [Option.isSome_iff_ne_none.1 hsome']

section

variable (hval : writtenValue { s with nfcTagInjectionBuffer := st.buffer } start data i = some val)
include hval

theorem pairCalls_eq
    :
    warpHoldingActions s data (pairReg start i) val (behindPair start data i) =
      pairCalls s start data i := by
  cases hrange : inNfcRange (pairReg start i) with
  | false =>
    rw [writtenValue_buffer _ hrange] at hval
    rw [pairCalls, pairValue, hval, Option.getD_some]
  | true => rw [pairCalls, warpHoldingActions_tag hrange, warpHoldingActions_tag hrange]

/-- What a step of the loop adds to the calls. -/
theorem writePair_spec
    :
    let st' := writePair s start data st (pairReg start i) val (behindPair start data i)
    (st'.reportIllegalDataAddress ↔ inNfcRange (pairReg start i) = false ∧
      (st.reportIllegalDataAddress ∨ pairCalls s start data i = none)) ∧
    ∃ injected, st'.actions = st.actions ++ (pairCalls s start data i).getD [] ++ injected ∧
      (injected ≠ [] ↔ injectsAt s start data i) ∧ currents injected = [] := by
  intro st'
  have hst : st' = writePair s start data st (pairReg start i) val (behindPair start data i) := rfl
  rw [writePair, pairCalls_eq hval] at hst
  cases hrange : inNfcRange (pairReg start i) with
  | false =>
    have hne : pairReg start i ≠ 4012 := by
      intro h
      simp [inNfcRange, h] at hrange
    rw [hst]
    exact ⟨by simp [hrange], [], by simp [hrange], by simp [injectsAt, hne], rfl⟩
  | true =>
    by_cases hnfc : s.cached .nfc
    · by_cases hlast : pairReg start i = 4012 ∧
        (behindPair start data i + start.toNat = 4013 ∨ 1 < data.length)
      · simp only [hrange, hnfc, if_pos hlast] at hst
        rw [hst]
        exact ⟨by simp, [injection _], rfl, by simp [injectsAt, hnfc, hlast], rfl⟩
      · simp only [hrange, hnfc, if_neg hlast] at hst
        rw [hst]
        exact ⟨by simp, [], by simp, by simp [injectsAt, hnfc, hlast], rfl⟩
    · rw [hst]
      exact ⟨by simp [hrange, hnfc], [], by simp [hrange, hnfc], by simp [injectsAt, hnfc], rfl⟩

end

/-- The pairs that are served. -/
def servedPairs (s : Charger) (start : UInt16) (data : List UInt16) (i : ℕ) : List ℕ :=
  (pairs s start data i).takeWhile (readable s start data)

theorem pairs_of_lt (hi : i < data.length) :
    pairs s start data i = i :: pairs s start data (nextIndex s start data i) := by
  rw [pairs, if_pos hi]

theorem pairs_of_not_lt (hi : ¬i < data.length) : pairs s start data i = [] := by
  rw [pairs, if_neg hi]

/-- Induction over the pairs that the loop visits. -/
theorem writeLoop_induction {motive : ℕ → WriteState → Response → Prop}
    (refused : ∀ i st, i < data.length → readable s start data i = false →
      motive i st ⟨.illegalDataAddress, st.actions, st.buffer⟩)
    (step : ∀ i st val r, i < data.length → readable s start data i →
      writtenValue { s with nfcTagInjectionBuffer := st.buffer } start data i = some val →
      motive (nextIndex s start data i)
        (writePair s start data st (pairReg start i) val (behindPair start data i)) r →
      motive i st r)
    (done : ∀ i st, ¬i < data.length →
      motive i st ⟨if s.sendIllegalDataAddress ∧ st.reportIllegalDataAddress then
        .illegalDataAddress else .success, st.actions, st.buffer⟩) :
    motive i st (writeLoop s start data i st) := by
  induction i, st using writeLoop.induct s start data with
  | case1 i st hi hval =>
    rw [writeLoop, if_pos hi, hval]
    exact refused i st hi ((readable_iff st.buffer).1 hval)
  | case2 i st hi val hval ih =>
    have hread : readable s start data i := by
      rw [← Bool.not_eq_false, ← readable_iff st.buffer, hval]
      simp
    rw [writeLoop, if_pos hi, hval]
    exact step i st val _ hi hread hval ih
  | case3 i st hi =>
    rw [writeLoop, if_neg hi]
    exact done i st hi

theorem writeLoop_code (i : ℕ) (st : WriteState) :
    (writeLoop s start data i st).code ≠ .success ↔
      (∃ j ∈ pairs s start data i, readable s start data j = false) ∨ (s.sendIllegalDataAddress ∧
          ((st.reportIllegalDataAddress ∧
              ∀ j ∈ pairs s start data i, inNfcRange (pairReg start j) = false) ∨
            Reported s start data (pairs s start data i))) := by
  apply writeLoop_induction (motive := fun i st r => r.code ≠ .success ↔
      (∃ j ∈ pairs s start data i, readable s start data j = false) ∨ (s.sendIllegalDataAddress ∧
          ((st.reportIllegalDataAddress ∧
              ∀ j ∈ pairs s start data i, inNfcRange (pairReg start j) = false) ∨
            Reported s start data (pairs s start data i))))
  · intro i st hi hread
    rw [pairs_of_lt hi]
    simp [hread]
  · intro i st val r hi hread hval ih
    obtain ⟨hreport, -⟩ := writePair_spec hval
    rw [ih, hreport, pairs_of_lt hi]
    simp only [Reported]
    grind
  · intro i st hi
    rw [pairs_of_not_lt hi]
    simp [Reported]

/-- Nothing is called if none of the pairs that are served calls something. -/
theorem writeLoop_actions (i : ℕ) (st : WriteState) :
    (writeLoop s start data i st).actions = [] ↔
      st.actions = [] ∧ ∀ j ∈ servedPairs s start data i, ¬actsAt s start data j := by
  apply writeLoop_induction (motive := fun i st r => r.actions = [] ↔
      st.actions = [] ∧ ∀ j ∈ servedPairs s start data i, ¬actsAt s start data j)
  · intro i st hi hread
    simp [servedPairs, pairs_of_lt hi, hread]
  · intro i st val r hi hread hval ih
    obtain ⟨-, injected, hactions, hinjected, -⟩ := writePair_spec hval
    rw [ih, hactions, servedPairs, servedPairs, pairs_of_lt hi, List.takeWhile_cons, hread,
      if_pos rfl, List.forall_mem_cons, actsAt, not_or, not_not, ← hinjected, not_not]
    simp [and_assoc]
  · intro i st hi
    simp [servedPairs, pairs_of_not_lt hi]

theorem writeLoop_currents (i : ℕ) (st : WriteState) :
    currents (writeLoop s start data i st).actions = currents st.actions ++
      currents ((servedPairs s start data i).flatMap fun j =>
        (pairCalls s start data j).getD []) := by
  apply writeLoop_induction (motive := fun i st r => currents r.actions = currents st.actions ++
      currents ((servedPairs s start data i).flatMap fun j => (pairCalls s start data j).getD []))
  · intro i st hi hread
    simp [servedPairs, pairs_of_lt hi, hread, currents]
  · intro i st val r hi hread hval ih
    obtain ⟨-, injected, hactions, -, hnone⟩ := writePair_spec hval
    rw [ih, hactions, servedPairs, servedPairs, pairs_of_lt hi, List.takeWhile_cons, hread,
      if_pos rfl, List.flatMap_cons]
    simp [hnone]
  · intro i st hi
    simp [servedPairs, pairs_of_not_lt hi, currents]

theorem writePair_buffer (h : inNfcRange (pairReg start i) = false ∨ ¬s.cached .nfc) :
    (writePair s start data st (pairReg start i) val (behindPair start data i)).buffer =
      st.buffer := by
  obtain h | h := h
  · simp [writePair, h]
  · simp only [writePair]
    split_ifs <;> rfl

theorem inNfcRange_nextIndex (hrange : inNfcRange (pairReg start i))
    (hne : pairReg start i ≠ 4012) (hnext : nextIndex s start data i < data.length) :
    inNfcRange (pairReg start (nextIndex s start data i)) := by
  have hin : 4000 ≤ pairReg start i ∧ pairReg start i < 4014 := by simpa [inNfcRange] using hrange
  have hled : ¬(pairReg start i = 1004 ∧ s.cached .evse) := by omega
  have hindex : nextIndex s start data i = behindPair start data i := by
    exact if_neg hled
  have hreg : ∀ j, pairReg start j = (j + start.toNat) / 2 * 2 % 65536 := fun j => by
    rw [pairReg, evenBelow, UInt16.toNat_ofNat']
  rw [hindex] at hnext ⊢
  rw [hreg] at hin hne ⊢
  simp only [inNfcRange, Bool.and_eq_true, decide_eq_true_eq]
  rw [behindPair] at hnext ⊢
  split_ifs at hnext ⊢ <;> omega

/-- The characters of a tag are never all that a refused request changes: behind them it has
injected a tag. -/
theorem writeLoop_buffer (buffer : List UInt8) (i : ℕ) (st : WriteState) :
    (st.actions = [] → st.buffer = buffer ∨ (s.cached .nfc ∧ ¬st.reportIllegalDataAddress ∧
        (i < data.length → inNfcRange (pairReg start i)))) →
      (writeLoop s start data i st).code ≠ .success → (writeLoop s start data i st).actions = [] →
          (writeLoop s start data i st).buffer = buffer := by
  apply writeLoop_induction (motive := fun i st r =>
    (st.actions = [] → st.buffer = buffer ∨ (s.cached .nfc ∧ ¬st.reportIllegalDataAddress ∧
        (i < data.length → inNfcRange (pairReg start i)))) →
      r.code ≠ .success → r.actions = [] → r.buffer = buffer)
  · intro i st hi hread hinv _ hactions
    obtain heq | ⟨-, -, hrange⟩ := hinv hactions
    · exact heq
    · rw [readable, @isSome_writtenValue s start data i (hrange hi)] at hread
      cases hread
  · intro i st val r hi hread hval ih hinv
    apply ih
    obtain ⟨hreport, injected, hactions, hinjected, -⟩ := writePair_spec hval
    rw [hactions, List.append_eq_nil_iff, List.append_eq_nil_iff]
    rintro ⟨⟨hnil, -⟩, hnone⟩
    have hnot : ¬injectsAt s start data i := by
      rw [← hinjected, hnone]
      simp
    cases hrange : inNfcRange (pairReg start i) with
    | false =>
      rw [writePair_buffer (.inl hrange)]
      obtain heq | ⟨-, -, htag⟩ := hinv hnil
      · exact .inl heq
      · rw [htag hi] at hrange
        cases hrange
    | true =>
      by_cases hnfc : s.cached .nfc
      · refine .inr ⟨hnfc, by simp [hreport, hrange], fun hnext => ?_⟩
        have hlt := lt_nextIndex s start data i
        refine inNfcRange_nextIndex hrange (fun hlast => ?_) hnext
        exact hnot ⟨hnfc, hlast, .inr (by omega)⟩
      · rw [writePair_buffer (.inr hnfc)]
        obtain heq | ⟨htrue, -⟩ := hinv hnil
        · exact .inl heq
        · exact absurd htrue hnfc
  · intro i st hi hinv hcode hactions
    obtain heq | ⟨-, hreport, -⟩ := hinv hactions
    · exact heq
    · rw [if_neg (fun h => hreport h.2)] at hcode
      exact absurd rfl hcode

end

inductive WriteRequest where
  | warpCoils (start count : UInt16) (data : List UInt8)
  | warpHolding (start : UInt16) (data : List UInt16)
  | keba (start : UInt16) (data : List UInt16)
  | bender (start : UInt16) (data : List UInt16)

variable (s : Charger)

def WriteRequest.serve (ignoreWrites : Bool) : WriteRequest → Response
  | warpCoils start count data => setWarpCoils s start count data ignoreWrites
  | warpHolding start data => setWarpHoldingRegisters s start data ignoreWrites
  | keba start data => setKebaHoldingRegisters s start data ignoreWrites
  | bender start data => setBenderHoldingRegisters s start data ignoreWrites

/-- The Modbus slot is active. -/
def Charger.Writable : Prop :=
  (s.cached .evse ∨ s.available .evse) ∧ (s.slot 9).active

/-- The charger with the features that the request looks up. -/
def WriteRequest.fill : WriteRequest → Charger
  | warpCoils .. => s.fill [.evse]
  | warpHolding .. => s.fill [.evse, .meter, .phaseSwitch, .nfc]
  | keba .. | bender .. => s.fill [.evse, .phaseSwitch]

/-- What is called for a register of the tables that are written one by one. -/
def WriteRequest.act : WriteRequest → ℕ → ℕ → Option (List Action)
  | warpCoils _ _ data => warpCoilActions (s.fill [.evse]) data
  | warpHolding .. => fun _ _ => none
  | keba _ data => kebaActions (s.fill [.evse, .phaseSwitch]) data
  | bender _ data => benderActions (s.fill [.evse, .phaseSwitch]) data

/-- The indices of a request that are served before it is refused. -/
def WriteRequest.served (request : WriteRequest) : List ℕ :=
  match request with
  | warpCoils start count _ =>
    ModbusTcp.served (request.fill s) (request.act s) start.toNat count.toNat
  | warpHolding start data => servedPairs (request.fill s) start data 0
  | keba start data | bender start data =>
    ModbusTcp.served (request.fill s) (request.act s) start.toNat data.length

/-- The request has an address that it may not write. -/
def WriteRequest.Refused (request : WriteRequest) : Prop :=
  match request with
  | warpCoils start count _ =>
    ∃ i < count.toNat, passes (request.fill s) (request.act s) start.toNat i = false
  | warpHolding start data =>
    (∃ i ∈ pairs (request.fill s) start data 0, readable (request.fill s) start data i = false) ∨
      (s.sendIllegalDataAddress ∧
        Reported (request.fill s) start data (pairs (request.fill s) start data 0))
  | keba start data | bender start data =>
    ∃ i < data.length, passes (request.fill s) (request.act s) start.toNat i = false

/-- One of the registers that are served calls something. -/
def WriteRequest.Acts (request : WriteRequest) : Prop :=
  match request with
  | warpHolding start data => ∃ i ∈ request.served s, actsAt (request.fill s) start data i
  | warpCoils start _ _ | keba start _ | bender start _ =>
    ∃ i ∈ request.served s, (request.act s (i + start.toNat) i).getD [] ≠ []

/-- The currents in mA that the request asks for. -/
def WriteRequest.requested (request : WriteRequest) : List ℕ :=
  match request with
  | warpCoils .. => []
  | warpHolding start data => (request.served s).flatMap fun i =>
    if pairReg start i = 1002 then [(pairValue (request.fill s) start data i).toNat] else []
  | keba start data => (request.served s).flatMap fun i =>
    if (UInt16.ofNat (i + start.toNat)).toNat = 5004 then
      [(swapBytes16 (word16 data i)).toNat] else []
  | bender start data => (request.served s).flatMap fun i =>
    if (UInt16.ofNat (i + start.toNat)).toNat = 1000 then
      [(swapBytes16 (word16 data i)).toNat * 1000] else []

/-- Nothing was called and no register of the tag was stored. -/
def Response.Unchanged (response : Response) : Prop :=
  response.actions = [] ∧ response.buffer = s.nfcTagInjectionBuffer

/-- Writes are all or nothing and set the currents that were requested. -/
structure WritesSafely (ignoreWrites : Bool) (request : WriteRequest) : Prop where
  refused : (request.serve s ignoreWrites).code ≠ .success →
    (request.serve s ignoreWrites).Unchanged s
  inactive : ¬s.Writable → (request.serve s ignoreWrites).Unchanged s
  currents : s.Writable → currents (request.serve s ignoreWrites).actions =
    (request.requested s).map cutCurrent

/-- What a request does to a charger that takes it. -/
def WriteRequest.result (request : WriteRequest) : Response :=
  match request with
  | warpCoils start count _ =>
    let write := writeEach (request.fill s) (request.act s) start.toNat count.toNat 0 []
    ⟨write.1, write.2, s.nfcTagInjectionBuffer⟩
  | warpHolding start data =>
    writeLoop (request.fill s) start data 0 ⟨false, [], s.nfcTagInjectionBuffer⟩
  | keba start data | bender start data =>
    let write := writeEach (request.fill s) (request.act s) start.toNat data.length 0 []
    ⟨write.1, write.2, s.nfcTagInjectionBuffer⟩

variable {s : Charger} {ignoreWrites : Bool} {request : WriteRequest}

theorem writable_iff :
    s.Writable ↔ (request.fill s).cached .evse ∧ ((request.fill s).slot 9).active := by
  cases request <;> simp [Charger.Writable, WriteRequest.fill, Charger.fill, Charger.slot]

theorem serve_of_writable (h : s.Writable) : request.serve s ignoreWrites = request.result s := by
  have hread : checkReadOnly (request.fill s) ignoreWrites = none := by
    rw [checkReadOnly, if_pos (writable_iff.1 h)]
  cases request <;> simp only [WriteRequest.fill] at hread <;>
    simp only [WriteRequest.serve, setWarpCoils, setWarpHoldingRegisters, setKebaHoldingRegisters,
      setBenderHoldingRegisters, writeUnlessReadOnly, hread] <;> rfl

theorem unchanged_of_not_writable (h : ¬s.Writable) :
    (request.serve s ignoreWrites).Unchanged s := by
  have hread : ∃ code, checkReadOnly (request.fill s) ignoreWrites = some code := by
    rw [checkReadOnly, if_neg (fun hboth => h (writable_iff.2 hboth))]
    split_ifs <;> exact ⟨_, rfl⟩
  obtain ⟨code, hcode⟩ := hread
  cases request <;> simp only [WriteRequest.fill] at hcode <;>
    simp only [WriteRequest.serve, setWarpCoils, setWarpHoldingRegisters, setKebaHoldingRegisters,
      setBenderHoldingRegisters, writeUnlessReadOnly, hcode] <;> exact ⟨rfl, rfl⟩

theorem result_code : (request.result s).code ≠ .success ↔ request.Refused s := by
  cases request with
  | warpCoils start count data | keba start data | bender start data => exact writeEach_code _ _ _ _
  | warpHolding start data =>
    simp only [WriteRequest.result, WriteRequest.Refused, writeLoop_code, Bool.false_eq_true,
      false_and, false_or]
    rfl

theorem flatMap_eq_nil {l : List ℕ} {called : ℕ → List Action} :
    l.flatMap called = [] ↔ ¬∃ i ∈ l, called i ≠ [] := by
  simp [List.flatMap_eq_nil_iff]

theorem result_actions : (request.result s).actions = [] ↔ ¬request.Acts s := by
  cases request with
  | warpCoils start count data =>
    exact (writeEach_actions _ _ _ _).congr_left.trans flatMap_eq_nil
  | warpHolding start data =>
    simp only [WriteRequest.result, WriteRequest.Acts, WriteRequest.served, writeLoop_actions,
      true_and, not_exists, not_and]
  | keba start data | bender start data =>
    exact (writeEach_actions _ _ _ _).congr_left.trans flatMap_eq_nil

theorem result_buffer (hcode : (request.result s).code ≠ .success)
    (hactions : (request.result s).actions = []) :
    (request.result s).buffer = s.nfcTagInjectionBuffer := by
  cases request with
  | warpHolding start data => exact writeLoop_buffer _ 0 _ (fun _ => .inl rfl) hcode hactions
  | warpCoils | keba | bender => rfl

section

variable {t : Charger} (hevse : t.cached .evse) (data : List UInt16) (a i : ℕ)
include hevse

theorem kebaActions_currents :
    currents ((kebaActions t data a i).getD []) =
      (if (UInt16.ofNat a).toNat = 5004 then [(swapBytes16 (word16 data i)).toNat] else []).map
        (· % 65536) := by
  simp only [kebaActions, Charger.requires]
  split_ifs <;> simp [currents, Action.current?]

theorem benderActions_currents :
    currents ((benderActions t data a i).getD []) =
      (if (UInt16.ofNat a).toNat = 1000 then [(swapBytes16 (word16 data i)).toNat * 1000]
        else []).map (· % 65536) := by
  simp only [benderActions, Charger.requires]
  split_ifs <;> simp [currents, Action.current?]
  omega

theorem pairCalls_currents (start : UInt16) :
    currents ((pairCalls t start data i).getD []) =
      (if pairReg start i = 1002 then [(pairValue t start data i).toNat] else []).map
        (· % 65536) := by
  simp only [pairCalls, warpHoldingActions, Charger.requires, setLed]
  split_ifs <;> simp [currents, Action.current?] <;> omega

end

theorem warpCoilActions_currents (t : Charger) (data : List UInt8) (a i : ℕ) :
    currents ((warpCoilActions t data a i).getD []) = [] := by
  simp only [warpCoilActions, Charger.requires]
  split_ifs <;> simp [currents, Action.current?]

theorem result_currents (h : s.Writable) :
    currents (request.result s).actions = (request.requested s).map (· % 65536) := by
  have hevse := ((@writable_iff s request).1 h).1
  cases request with
  | warpCoils start count data =>
    have hnone : currents (WriteRequest.result s (.warpCoils start count data)).actions =
        ((WriteRequest.served s (.warpCoils start count data)).flatMap fun _ => []).map
          (· % 65536) := by
      simp only [WriteRequest.result, writeEach_actions]
      exact currents_flatMap fun i _ => warpCoilActions_currents _ _ _ _
    exact hnone.trans (List.map_eq_nil_iff.2 (List.flatMap_eq_nil_iff.2 fun _ _ => rfl))
  | warpHolding start data =>
    simp only [WriteRequest.result, writeLoop_currents]
    exact currents_flatMap fun i _ => pairCalls_currents hevse data i start
  | keba start data =>
    simp only [WriteRequest.result, writeEach_actions]
    exact currents_flatMap fun i _ => kebaActions_currents hevse data _ i
  | bender start data =>
    simp only [WriteRequest.result, writeEach_actions]
    exact currents_flatMap fun i _ => benderActions_currents hevse data _ i

/-- A write is safe if and only if it is not refused after something was called and asks for no
current above 65535 mA, apart from those that end in it. -/
theorem write_outcomes (s : Charger) (ignoreWrites : Bool) (request : WriteRequest) :
    WritesSafely s ignoreWrites request ↔ (s.Writable → ¬(request.Refused s ∧ request.Acts s) ∧
        ∀ c ∈ request.requested s, c < 65536 ∨ c % 65536 = 65535) := by
  by_cases h : s.Writable
  · have hserve : request.serve s ignoreWrites = request.result s := serve_of_writable h
    constructor
    · rintro ⟨hrefused, -, hcurrents⟩ -
      refine ⟨fun ⟨href, hacts⟩ => ?_, ?_⟩
      · rw [hserve, result_code] at hrefused
        exact (result_actions.1 (hrefused href).1) hacts
      · have hset := hcurrents h
        rw [hserve, result_currents h] at hset
        exact map_mod_eq_map_cut_iff.1 hset
    · intro hsafe
      obtain ⟨hparts, hcurrents⟩ := hsafe h
      refine ⟨fun hcode => ?_, fun hnot => absurd h hnot, fun _ => ?_⟩
      · rw [hserve] at hcode ⊢
        have hactions := result_actions.2 fun hacts => hparts ⟨result_code.1 hcode, hacts⟩
        exact ⟨hactions, result_buffer hcode hactions⟩
      · rw [hserve, result_currents h]
        exact map_mod_eq_map_cut_iff.2 hcurrents
  · have hunchanged : (request.serve s ignoreWrites).Unchanged s := unchanged_of_not_writable h
    exact iff_of_true ⟨fun _ => hunchanged, fun _ => hunchanged, fun hw => absurd hw h⟩
      fun hw => absurd hw h

/-- A current of 66 A. -/
def write66A : WriteRequest := .bender 1000 [0x4200]

/-- It is set as 464 mA. -/
theorem large_current_wrapped :
    ¬∀ (s : Charger) (ignoreWrites : Bool) (request : WriteRequest),
      WritesSafely s ignoreWrites request := by
  intro h
  have hwritable : chargingCharger.Writable := ⟨.inr rfl, rfl⟩
  have hcurrents := (h chargingCharger false write66A).currents hwritable
  rw [serve_of_writable hwritable, result_currents hwritable, map_mod_eq_map_cut_iff] at hcurrents
  revert hcurrents
  decide

end Esp32Firmware.ModbusTcp
