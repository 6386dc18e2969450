import Esp32Firmware.ModbusTcp.RegisterWrites
import Mathlib.Tactic.IntervalCases

/-!
# Tag injection

What a client writes to the registers 4000 to 4013 is kept until a tag is injected. The type of the
tag is in the last pair, so that a write of register 4013 completes it.
-/

namespace Esp32Firmware.ModbusTcp

section

/-- `char16 i` is the character `i` in memory. -/
def char16 (w : UInt16) (i : ℕ) : UInt8 := (w >>> UInt16.ofNat (8 * i)).toUInt8

theorem getLsbD_swapBytes (u : UInt32) {i : ℕ} (hi : i < 32) :
    (swapBytes u).toBitVec.getLsbD i = u.toBitVec.getLsbD (24 - i / 8 * 8 + i % 8) := by
  simp only [swapBytes, UInt32.toBitVec_or, UInt32.toBitVec_and, UInt32.toBitVec_shiftLeft,
    UInt32.toBitVec_shiftRight]
  interval_cases i <;> simp

theorem swapBytes_swapBytes (u : UInt32) : swapBytes (swapBytes u) = u := by
  apply UInt32.eq_of_toBitVec_eq
  apply BitVec.eq_of_getLsbD_eq
  intro i hi
  rw [getLsbD_swapBytes _ hi, getLsbD_swapBytes _ (by omega)]
  congr 1
  omega

variable (u l : UInt16)

theorem upper_ofHalves : upper (ofHalves u l) = u := by
  apply UInt16.eq_of_toBitVec_eq
  apply BitVec.eq_of_getLsbD_eq
  intro i hi
  simp [upper, ofHalves]

theorem lower_ofHalves : lower (ofHalves u l) = l := by
  apply UInt16.eq_of_toBitVec_eq
  apply BitVec.eq_of_getLsbD_eq
  intro i hi
  simp [lower, ofHalves]
  grind

theorem ofChars_char16 :
    ofChars (char16 u 0) (char16 u 1) (char16 l 0) (char16 l 1) = ofHalves u l := by
  apply UInt32.eq_of_toBitVec_eq
  apply BitVec.eq_of_getLsbD_eq
  intro i hi
  simp only [ofChars, ofHalves, char16, UInt32.toBitVec_or, UInt32.toBitVec_shiftLeft,
    UInt8.toBitVec_toUInt32, UInt16.toBitVec_toUInt32, UInt16.toBitVec_toUInt8,
    UInt16.toBitVec_shiftRight]
  interval_cases i <;> simp

theorem char_ofHalves {i : ℕ} (h : i < 4) :
    char (ofHalves u l) i = char16 (if i < 2 then u else l) (i % 2) := by
  apply UInt8.eq_of_toBitVec_eq
  apply BitVec.eq_of_getLsbD_eq
  intro j hj
  interval_cases i <;> simp [char, ofHalves, char16] <;> interval_cases j <;> simp

end

section

variable {word word' : ℕ → UInt16} {i reg : ℕ}

/-- The buffer that holds these registers. -/
def tagBuffer (word : ℕ → UInt16) : List UInt8 :=
  (List.range 28).map fun i => char16 (word (4000 + i / 2)) (i % 2)

theorem tagBuffer_zero : tagBuffer (fun _ => 0) = emptyBuffer := by decide

theorem getElem_tagBuffer {a b : ℕ} (hi : i = 2 * (a - 4000) + b) (hb : b < 2) (ha : 4000 ≤ a)
    (h : i < (tagBuffer word).length) : (tagBuffer word)[i] = char16 (word a) b := by
  have ha' : 4000 + i / 2 = a := by omega
  have hb' : i % 2 = b := by omega
  simp [tagBuffer, ha', hb']

theorem length_tagBuffer : (tagBuffer word).length = 28 := by simp [tagBuffer]

theorem getD_tagBuffer {a b : ℕ} (hi : i = 2 * (a - 4000) + b) (hb : b < 2) (ha : 4000 ≤ a)
    (ha' : a < 4014) : (tagBuffer word).getD i 0 = char16 (word a) b := by
  have hlt : i < (tagBuffer word).length := by rw [length_tagBuffer]; omega
  rw [List.getD_eq_getElem?_getD, List.getElem?_eq_getElem hlt, Option.getD_some,
    getElem_tagBuffer hi hb ha]

theorem ofChars_tagBuffer (hlow : 4000 ≤ reg) (hhigh : reg < 4013) :
    ofChars ((tagBuffer word).getD ((reg - 4000) * 2) 0)
        ((tagBuffer word).getD ((reg - 4000) * 2 + 1) 0)
        ((tagBuffer word).getD ((reg - 4000) * 2 + 2) 0)
        ((tagBuffer word).getD ((reg - 4000) * 2 + 3) 0) =
      ofHalves (word reg) (word (reg + 1)) := by
  rw [getD_tagBuffer (a := reg) (b := 0) (by omega) (by omega) hlow (by omega),
    getD_tagBuffer (a := reg) (b := 1) (by omega) (by omega) hlow (by omega),
    getD_tagBuffer (a := reg + 1) (b := 0) (by omega) (by omega) (by omega) (by omega),
    getD_tagBuffer (a := reg + 1) (b := 1) (by omega) (by omega) (by omega) (by omega),
    ofChars_char16]

theorem storeChars_tagBuffer (hlow : 4000 ≤ reg)
    (hword : ∀ a, a ≠ reg → a ≠ reg + 1 → word' a = word a) :
    storeChars (tagBuffer word) reg (ofHalves (word' reg) (word' (reg + 1))) = tagBuffer word' := by
  apply List.ext_getElem
  · simp [storeChars, tagBuffer]
  · intro j hj hj'
    simp only [storeChars, List.getElem_set]
    split_ifs with h3 h2 h1 h0
    · rw [char_ofHalves _ _ (by decide),
        getElem_tagBuffer (a := reg + 1) (b := 1) (by omega) (by omega) (by omega)]
      simp
    · rw [char_ofHalves _ _ (by decide),
        getElem_tagBuffer (a := reg + 1) (b := 0) (by omega) (by omega) (by omega)]
      simp
    · rw [char_ofHalves _ _ (by decide),
        getElem_tagBuffer (a := reg) (b := 1) (by omega) (by omega) hlow]
      simp
    · rw [char_ofHalves _ _ (by decide),
        getElem_tagBuffer (a := reg) (b := 0) (by omega) (by omega) hlow]
      simp
    · have hne : 4000 + j / 2 ≠ reg ∧ 4000 + j / 2 ≠ reg + 1 := by omega
      rw [getElem_tagBuffer (a := 4000 + j / 2) (b := j % 2) (by omega) (by omega) (by omega),
        getElem_tagBuffer (a := 4000 + j / 2) (b := j % 2) (by omega) (by omega) (by omega),
        hword _ hne.1 hne.2]

end

section

variable {s : Charger} {start : UInt16} {data : List UInt16} {word : ℕ → UInt16} {i : ℕ}

/-- The registers after the first `n` words of a request. -/
def written (start : UInt16) (data : List UInt16) (n : ℕ) (word : ℕ → UInt16) (a : ℕ) : UInt16 :=
  if start.toNat ≤ a ∧ a < start.toNat + n then word16 data (a - start.toNat) else word a

theorem written_of_mem {n a k : ℕ} (hk : k < n) (ha : a = k + start.toNat) :
    written start data n word a = word16 data k := by
  have hsub : a - start.toNat = k := by omega
  rw [written, if_pos (by omega), hsub]

theorem written_of_not_mem {n a : ℕ} (ha : a < start.toNat ∨ start.toNat + n ≤ a) :
    written start data n word a = word a := by
  rw [written, if_neg (by omega)]

/-- The registers of a request are registers of the tag. -/
def WritesTag (start : UInt16) (data : List UInt16) : Prop :=
  4000 ≤ start.toNat ∧ start.toNat + data.length ≤ 4014

/-- A pair starts at index `i` of the request. -/
def PairAt (start : UInt16) (i : ℕ) : Prop := i = 0 ∨ (i + start.toNat) % 2 = 0

theorem toNat_evenBelow (h : i + start.toNat < 4014) :
    (evenBelow (i + start.toNat)).toNat = (i + start.toNat) / 2 * 2 := by
  rw [evenBelow, UInt16.toNat_ofNat']
  omega

theorem behindPair_le (hi : i < data.length) : behindPair start data i ≤ data.length := by
  rw [behindPair]
  split_ifs <;> omega

theorem behindPair_pairAt (hpair : PairAt start i) (hlt : behindPair start data i < data.length) :
    PairAt start (behindPair start data i) := by
  simp only [PairAt, behindPair] at hpair hlt ⊢
  split_ifs at hlt ⊢ <;> omega

theorem getWarpHoldingRegister_tag (hnfc : s.cached .nfc) (hlow : 4000 ≤ i + start.toNat)
    (hhigh : i + start.toNat < 4014) :
    let reg := (i + start.toNat) / 2 * 2
    getWarpHoldingRegister { s with nfcTagInjectionBuffer := tagBuffer word }
      (evenBelow (i + start.toNat)) = some (swapBytes (ofHalves (word reg) (word (reg + 1)))) := by
  intro reg
  have hreg := toNat_evenBelow hhigh
  have hrange : 4000 ≤ reg ∧ reg < 4014 := by omega
  rw [getWarpHoldingRegister, hreg, warpHoldingRange, if_pos hrange, Option.some_or,
    orIllegal_some, Charger.require, if_pos hnfc, ofChars_tagBuffer hrange.1 (by omega)]

theorem writtenValue_tag (hnfc : s.cached .nfc) (htag : WritesTag start data)
    (hpair : PairAt start i) (hi : i < data.length) :
    let reg := (i + start.toNat) / 2 * 2
    let word' := written start data (behindPair start data i) word
    writtenValue { s with nfcTagInjectionBuffer := tagBuffer (written start data i word) } start
      data i = some (swapBytes (ofHalves (word' reg) (word' (reg + 1)))) := by
  intro reg word'
  obtain ⟨hlow, hhigh⟩ := htag
  have hreg : reg = (i + start.toNat) / 2 * 2 := rfl
  rw [writtenValue, getWarpHoldingRegister_tag hnfc (by omega) (by omega)]
  simp only [Option.map_some, swapBytes_swapBytes, upper_ofHalves, lower_ofHalves, word',
    behindPair, ← hreg]
  split_ifs with hfirst hlast
  · obtain ⟨rfl, hodd⟩ := hfirst
    rw [written_of_not_mem (by omega), written_of_not_mem (by omega),
      written_of_mem (k := 0) (by omega) (by omega)]
  · have heven : reg = i + start.toNat := by
      simp only [PairAt] at hpair
      omega
    rw [written_of_not_mem (a := reg + 1) (by omega), written_of_not_mem (a := reg + 1) (by omega),
      written_of_mem (k := i) (by omega) heven]
  · have heven : reg = i + start.toNat := by
      simp only [PairAt] at hpair
      omega
    rw [written_of_mem (k := i) (by omega) heven,
      written_of_mem (k := i + 1) (by omega) (by omega)]

/-- Outside of its pair, a step of the loop leaves the registers. -/
theorem written_behindPair (hpair : PairAt start i) {a : ℕ}
    (hne : a ≠ (i + start.toNat) / 2 * 2) (hne' : a ≠ (i + start.toNat) / 2 * 2 + 1) :
    written start data (behindPair start data i) word a = written start data i word a := by
  simp only [PairAt] at hpair
  simp only [written, behindPair]
  split_ifs <;> first | rfl | omega

/-- The request takes what it wrote to the tag. -/
def Injects (start : UInt16) (data : List UInt16) : Prop :=
  0 < data.length ∧
    (start.toNat + data.length = 4013 ∨ (start.toNat + data.length = 4014 ∧ 1 < data.length))

instance (start : UInt16) (data : List UInt16) : Decidable (Injects start data) :=
  inferInstanceAs (Decidable (_ ∧ _))

section

variable (hnfc : s.cached .nfc) (htag : WritesTag start data) (hpair : PairAt start i)
  (hi : i < data.length)
include hnfc htag hpair hi

theorem writePair_tag :
    let reg := (i + start.toNat) / 2 * 2
    let behind := behindPair start data i
    let word' := written start data behind word
    writePair s start data ⟨false, [], tagBuffer (written start data i word)⟩ reg
        (swapBytes (ofHalves (word' reg) (word' (reg + 1)))) behind =
      if behind = data.length ∧ Injects start data then
        ⟨false, [injection (tagBuffer word')], emptyBuffer⟩
      else ⟨false, [], tagBuffer word'⟩ := by
  intro reg behind word'
  obtain ⟨hlow, hhigh⟩ := htag
  have hnone : warpHoldingActions s data reg
      (swapBytes (ofHalves (word' reg) (word' (reg + 1)))) behind = none := by
    simp only [warpHoldingActions]
    split_ifs <;> first | rfl | omega
  have hrange : inNfcRange reg := by
    simp [inNfcRange]
    omega
  have hstore : storeChars (tagBuffer (written start data i word)) reg
      (ofHalves (word' reg) (word' (reg + 1))) = tagBuffer word' :=
    storeChars_tagBuffer (by omega) fun a hne hne' => written_behindPair hpair hne hne'
  have hcond : (reg = 4012 ∧ (behind + start.toNat = 4013 ∨ 1 < data.length)) ↔
      (behind = data.length ∧ Injects start data) := by
    simp only [PairAt] at hpair
    simp only [behind, behindPair, Injects, reg]
    split_ifs <;> omega
  rw [writePair]
  simp only [hnone, hrange, hnfc, hstore, swapBytes_swapBytes, hcond, if_true, Option.getD_none,
    List.append_nil, List.nil_append]

/-- What is left of a request behind index `i`; it injects in its last step. -/
theorem writeLoop_tag :
    writeLoop s start data i ⟨false, [], tagBuffer (written start data i word)⟩ =
      if Injects start data then
        ⟨.success, [injection (tagBuffer (written start data data.length word))], emptyBuffer⟩
      else ⟨.success, [], tagBuffer (written start data data.length word)⟩ := by
  induction hn : data.length - i using Nat.strong_induction_on generalizing i with
  | _ n ih =>
    have hlt := lt_behindPair start data i
    have hle : behindPair start data i ≤ data.length := behindPair_le hi
    have hreg : (evenBelow (i + start.toNat)).toNat = (i + start.toNat) / 2 * 2 :=
      toNat_evenBelow (by have := htag.2; omega)
    have hnext : nextIndex s start data i = behindPair start data i := by
      rw [nextIndex, if_neg]
      have := htag.1
      omega
    rw [writeLoop, if_pos hi, writtenValue_tag hnfc htag hpair hi, hnext, hreg]
    simp only
    rw [writePair_tag hnfc htag hpair hi]
    obtain hend | hmore := hle.eq_or_lt
    · have hdone : ¬ data.length < data.length := lt_irrefl _
      by_cases hinj : Injects start data
      · rw [if_pos ⟨hend, hinj⟩, if_pos hinj, writeLoop, hend, if_neg hdone]
        simp
      · rw [if_neg (fun h => hinj h.2), if_neg hinj, writeLoop, hend, if_neg hdone]
        simp
    · rw [if_neg (fun h => hmore.ne h.1)]
      exact ih _ (by omega) (behindPair_pairAt hpair hmore) hmore rfl

end

theorem written_zero : written start data 0 word = word := by
  ext a
  rw [written_of_not_mem (by omega)]

theorem writeLoop_zero_tag (hnfc : s.cached .nfc) (htag : WritesTag start data) :
    writeLoop s start data 0 ⟨false, [], tagBuffer word⟩ =
      if Injects start data then
        ⟨.success, [injection (tagBuffer (written start data data.length word))], emptyBuffer⟩
      else ⟨.success, [], tagBuffer (written start data data.length word)⟩ := by
  by_cases hpos : 0 < data.length
  · have hloop := @writeLoop_tag s start data word 0 hnfc htag (.inl rfl) hpos
    rwa [written_zero] at hloop
  · have hlength : data.length = 0 := by omega
    have hinj : ¬Injects start data := fun h => hpos h.1
    rw [writeLoop, if_neg hpos, if_neg hinj, hlength, written_zero]
    simp

/-- Without a reader, a write of the tag is taken and forgotten. -/
theorem writeLoop_of_no_reader (hnfc : ¬ s.cached .nfc) (htag : WritesTag start data)
    (buffer : List UInt8) :
    writeLoop s start data i ⟨false, [], buffer⟩ = ⟨.success, [], buffer⟩ := by
  induction hn : data.length - i using Nat.strong_induction_on generalizing i with
  | _ n ih =>
    by_cases hi : i < data.length
    · have hlt := lt_nextIndex s start data i
      have hreg : (evenBelow (i + start.toNat)).toNat = (i + start.toNat) / 2 * 2 :=
        toNat_evenBelow (by have := htag.2; omega)
      have hrange : 4000 ≤ (i + start.toNat) / 2 * 2 ∧ (i + start.toNat) / 2 * 2 < 4014 := by
        have := htag.1
        have := htag.2
        omega
      have hread : ∃ old, getWarpHoldingRegister { s with nfcTagInjectionBuffer := buffer }
          (evenBelow (i + start.toNat)) = some old := by
        rw [getWarpHoldingRegister, hreg, warpHoldingRange, if_pos hrange, Option.some_or,
          orIllegal_some]
        exact ⟨_, rfl⟩
      obtain ⟨old, hold⟩ := hread
      have hval : ∃ val, writtenValue { s with nfcTagInjectionBuffer := buffer } start data i =
          some val := by
        simp only [writtenValue, hold, Option.map_some]
        split_ifs <;> exact ⟨_, rfl⟩
      obtain ⟨val, hval⟩ := hval
      have hnone : warpHoldingActions s data ((i + start.toNat) / 2 * 2) val
          (behindPair start data i) = none := by
        simp only [warpHoldingActions]
        split_ifs <;> first | rfl | omega
      have hstep : writePair s start data ⟨false, [], buffer⟩ ((i + start.toNat) / 2 * 2) val
          (behindPair start data i) = ⟨false, [], buffer⟩ := by
        simp [writePair, hnone, inNfcRange, hrange, hnfc]
      rw [writeLoop, if_pos hi, hval, hreg]
      simp only
      rw [hstep]
      exact ih _ (by omega) rfl
    · rw [writeLoop, if_neg hi]
      simp

end

/-- A request of a client, with the charger that it finds. -/
structure Write where
  charger : Charger
  ignoreWrites : Bool
  start : UInt16
  data : List UInt16

variable (w : Write)

def Write.serve (buffer : List UInt8) : Response :=
  setWarpHoldingRegisters { w.charger with nfcTagInjectionBuffer := buffer } w.start w.data
    w.ignoreWrites

/-- Only a charger with an active slot takes writes, and only one with a reader takes tags. -/
def Write.Taken : Prop :=
  let s := w.charger.fill [.evse, .meter, .phaseSwitch, .nfc]
  (s.cached .evse ∧ (s.slot 9).active) ∧ s.cached .nfc

instance : Decidable w.Taken := inferInstanceAs (Decidable (_ ∧ _))

/-- The request writes the register `a`. -/
def Write.Covers (a : ℕ) : Prop := w.start.toNat ≤ a ∧ a < w.start.toNat + w.data.length

instance (a : ℕ) : Decidable (w.Covers a) := inferInstanceAs (Decidable (_ ∧ _))

/-- The calls of every request of a run with the buffer behind it. -/
def serveAll : List UInt8 → List Write → List (List Action × List UInt8)
  | _, [] => []
  | buffer, w :: run =>
    ((w.serve buffer).actions, (w.serve buffer).buffer) :: serveAll (w.serve buffer).buffer run

/-- The run in which register 4013 completes a tag; `word` is what was last written to a register
since a tag was injected. -/
def injectAll : (ℕ → UInt16) → List Write → List (List Action × List UInt8)
  | _, [] => []
  | word, w :: run =>
    if w.Taken then
      let word := written w.start w.data w.data.length word
      if w.Covers 4013 then
        ([injection (tagBuffer word)], emptyBuffer) :: injectAll (fun _ => 0) run
      else ([], tagBuffer word) :: injectAll word run
    else ([], tagBuffer word) :: injectAll word run

variable {w : Write} {word : ℕ → UInt16} {run : List Write}

/-- What a request of the tag calls and leaves. -/
theorem serve_tag (htag : WritesTag w.start w.data) :
    ((w.serve (tagBuffer word)).actions, (w.serve (tagBuffer word)).buffer) =
      if w.Taken then
        if Injects w.start w.data then
          ([injection (tagBuffer (written w.start w.data w.data.length word))], emptyBuffer)
        else ([], tagBuffer (written w.start w.data w.data.length word))
      else ([], tagBuffer word) := by
  let s := { w.charger with nfcTagInjectionBuffer := tagBuffer word }.fill
    [.evse, .meter, .phaseSwitch, .nfc]
  have htaken : w.Taken ↔ (s.cached .evse ∧ (s.slot 9).active) ∧ s.cached .nfc := Iff.rfl
  have hserve : w.serve (tagBuffer word) = setWarpHoldingRegisters
      { w.charger with nfcTagInjectionBuffer := tagBuffer word } w.start w.data w.ignoreWrites :=
    rfl
  rw [hserve, setWarpHoldingRegisters, checkReadOnly]
  by_cases hactive : s.cached .evse ∧ (s.slot 9).active
  · rw [if_pos hactive]
    change ((writeLoop s w.start w.data 0 ⟨false, [], tagBuffer word⟩).actions,
      (writeLoop s w.start w.data 0 ⟨false, [], tagBuffer word⟩).buffer) = _
    by_cases hnfc : s.cached .nfc
    · rw [if_pos (htaken.2 ⟨hactive, hnfc⟩), writeLoop_zero_tag hnfc htag]
      split_ifs <;> rfl
    · rw [if_neg (fun h => hnfc (htaken.1 h).2), writeLoop_of_no_reader hnfc htag]
  · rw [if_neg hactive, if_neg (fun h => hactive (htaken.1 h).1)]
    split_ifs <;> rfl

theorem injects_iff (htag : WritesTag w.start w.data) :
    (Injects w.start w.data ↔ w.Covers 4013) ↔ (w.Covers 4012 ↔ w.Covers 4013) := by
  obtain ⟨hlow, hhigh⟩ := htag
  simp only [Injects, Write.Covers]
  omega

theorem serveAll_eq_injectAll_iff (htag : ∀ w ∈ run, WritesTag w.start w.data) :
    serveAll (tagBuffer word) run = injectAll word run ↔
      ∀ w ∈ run, w.Taken → (w.Covers 4012 ↔ w.Covers 4013) := by
  induction run generalizing word with
  | nil => simp [serveAll, injectAll]
  | cons w run ih =>
    have htagw := htag w (by simp)
    have htags : ∀ w ∈ run, WritesTag w.start w.data := fun w hw => htag w (by simp [hw])
    have hserve := @serve_tag w word htagw
    rw [serveAll, injectAll, List.forall_mem_cons, ← injects_iff htagw]
    by_cases htaken : w.Taken
    · rw [if_pos htaken] at hserve ⊢
      by_cases hinj : Injects w.start w.data <;> by_cases hcovers : w.Covers 4013
      · rw [if_pos hinj] at hserve
        have hbuffer := congrArg Prod.snd hserve
        simp only at hbuffer
        rw [if_pos hcovers, hserve, hbuffer, ← tagBuffer_zero, List.cons.injEq, ih htags]
        simp [htaken, hinj, hcovers]
      · rw [if_pos hinj] at hserve
        rw [if_neg hcovers, hserve]
        simp [htaken, hinj, hcovers]
      · rw [if_neg hinj] at hserve
        rw [if_pos hcovers, hserve]
        simp [htaken, hinj, hcovers]
      · rw [if_neg hinj] at hserve
        have hbuffer := congrArg Prod.snd hserve
        simp only at hbuffer
        rw [if_neg hcovers, hserve, hbuffer, List.cons.injEq, ih htags]
        simp [htaken, hinj, hcovers]
    · rw [if_neg htaken] at hserve ⊢
      have hbuffer := congrArg Prod.snd hserve
      simp only at hbuffer
      rw [hserve, hbuffer, List.cons.injEq, ih htags]
      simp [htaken]

/-- A run injects the tags it writes if and only if no request splits the last pair. -/
theorem tag_injection (run : List Write) (htag : ∀ w ∈ run, WritesTag w.start w.data) :
    serveAll emptyBuffer run = injectAll (fun _ => 0) run ↔
      ∀ w ∈ run, w.Taken → (w.Covers 4012 ↔ w.Covers 4013) := by
  rw [← tagBuffer_zero]
  exact serveAll_eq_injectAll_iff htag

/-- A charger with a reader. -/
def readerCharger : Charger := { chargingCharger with available := fun _ => true }

def writeTo4013 : Write := ⟨readerCharger, false, 4013, [0x3130]⟩

theorem tag_injection_of_single_write :
    serveAll emptyBuffer [⟨readerCharger, false, 4012, [0, 0x3130]⟩] =
        injectAll (fun _ => 0) [⟨readerCharger, false, 4012, [0, 0x3130]⟩] :=
  (tag_injection _ (by simp [WritesTag])).2 (by simp [Write.Covers])

/-- A tag that is completed by register 4013 alone is not injected. -/
theorem split_pair_not_injected :
    ¬∀ run : List Write, (∀ w ∈ run, WritesTag w.start w.data) →
      serveAll emptyBuffer run = injectAll (fun _ => 0) run := by
  intro h
  have htag : WritesTag writeTo4013.start writeTo4013.data := by simp [WritesTag, writeTo4013]
  have hrun := h [writeTo4013] (by simpa using htag)
  have hserve := @serve_tag writeTo4013 (fun _ => 0) htag
  have htaken : writeTo4013.Taken := by decide
  have hinj : ¬Injects writeTo4013.start writeTo4013.data := by decide
  have hcovers : writeTo4013.Covers 4013 := by decide
  rw [if_pos htaken, if_neg hinj, tagBuffer_zero] at hserve
  rw [serveAll, injectAll, if_pos htaken, if_pos hcovers, hserve] at hrun
  simp at hrun

end Esp32Firmware.ModbusTcp
