import Esp32Firmware.Library.BoundedQueue

/-!
# Packed ring buffers

A ring buffer whose items share the words of its memory. Writing an item of a signed type below
zero sets the items behind it in the same word.
-/

namespace Esp32Firmware.Tools

open BoundedQueue

/-- The template arguments of a packed ring buffer, with its static assertions. -/
structure PackedRingbuffer where
  itemBytes : ℕ
  signed : Bool
  alignedBytes : ℕ
  size : ℕ
  aligned_mod_item : alignedBytes % itemBytes = 0
  item_power : itemBytes &&& (itemBytes - 1) = 0
  aligned_power : alignedBytes &&& (alignedBytes - 1) = 0
  item_pos : 0 < itemBytes
  aligned_pos : 0 < alignedBytes
  size_pos : 0 < size

namespace PackedRingbuffer

section

variable (c : PackedRingbuffer)

abbrev Item := BitVec (8 * c.itemBytes)

abbrev Word := BitVec (8 * c.alignedBytes)

def itemsPerSlot : ℕ := c.alignedBytes / c.itemBytes

/-- The conversion `(AlignedT)val`. -/
def toAligned (val : c.Item) : c.Word :=
  if c.signed then val.signExtend _ else val.setWidth _

def bits : c.Word := (BitVec.allOnes (8 * c.itemBytes)).setWidth _

def writeAligned (buffer : ℕ → c.Word) (idx : ℕ) (val : c.Item) : ℕ → c.Word :=
  if c.itemBytes = c.alignedBytes then Function.update buffer idx (c.toAligned val)
  else
    let bufferIdx := idx / c.itemsPerSlot
    let bufferOffset := idx % c.itemsPerSlot
    let writeMask := c.bits <<< (bufferOffset * 8 * c.itemBytes)
    let keepMask := ~~~writeMask
    Function.update buffer bufferIdx
      (buffer bufferIdx &&& keepMask ||| c.toAligned val <<< (bufferOffset * 8 * c.itemBytes))

def readAligned (buffer : ℕ → c.Word) (idx : ℕ) : c.Item :=
  if c.itemBytes = c.alignedBytes then (buffer idx).setWidth _
  else
    let bufferIdx := idx / c.itemsPerSlot
    let bufferOffset := idx % c.itemsPerSlot
    ((buffer bufferIdx >>> (bufferOffset * 8 * c.itemBytes)) &&& c.bits).setWidth _

variable {c}

theorem itemsPerSlot_mul : c.itemsPerSlot * c.itemBytes = c.alignedBytes :=
  Nat.div_mul_cancel (Nat.dvd_of_mod_eq_zero c.aligned_mod_item)

theorem itemsPerSlot_pos : 0 < c.itemsPerSlot := by
  have h := c.aligned_pos
  rw [← itemsPerSlot_mul] at h
  exact Nat.pos_of_mul_pos_right h

theorem itemsPerSlot_eq_one (h : c.itemBytes = c.alignedBytes) : c.itemsPerSlot = 1 := by
  rw [itemsPerSlot, h, Nat.div_self c.aligned_pos]

/-- A value of a signed type below zero. -/
def isNegative (val : c.Item) : Bool := c.signed && val.msb

theorem itemBytes_le : c.itemBytes ≤ c.alignedBytes :=
  Nat.le_of_dvd c.aligned_pos (Nat.dvd_of_mod_eq_zero c.aligned_mod_item)

@[simp] theorem getLsbD_bits (i : ℕ) : c.bits.getLsbD i = decide (i < 8 * c.itemBytes) := by
  have hle := @itemBytes_le c
  rw [bits, BitVec.getLsbD_setWidth, BitVec.getLsbD_allOnes, ← Bool.decide_and]
  exact decide_eq_decide.mpr ⟨And.right, fun h => ⟨by omega, h⟩⟩

variable {i offset : ℕ}

/-- Behind the bits of the value there are copies of its sign. -/
theorem getLsbD_toAligned (val : c.Item) (hi : i < 8 * c.alignedBytes) :
    (c.toAligned val).getLsbD i =
      if i < 8 * c.itemBytes then val.getLsbD i else isNegative val := by
  rw [toAligned, isNegative]
  cases c.signed with
  | true => rw [if_pos rfl, BitVec.getLsbD_signExtend, decide_eq_true hi, Bool.true_and,
      Bool.true_and]
  | false =>
    rw [if_neg Bool.false_ne_true, BitVec.getLsbD_setWidth, decide_eq_true hi, Bool.true_and,
      Bool.false_and]
    split
    · rfl
    · exact BitVec.getLsbD_of_ge _ _ (by omega)

/-- The bits of the slots of a word. -/
theorem bit_lt (ho : offset < c.itemsPerSlot) (hi : i < 8 * c.itemBytes) :
    offset * 8 * c.itemBytes + i < 8 * c.alignedBytes := by
  calc
    offset * 8 * c.itemBytes + i < offset * 8 * c.itemBytes + 8 * c.itemBytes := by omega
    _ = (offset + 1) * (8 * c.itemBytes) := by rw [Nat.add_mul, Nat.one_mul, Nat.mul_assoc]
    _ ≤ c.itemsPerSlot * (8 * c.itemBytes) := Nat.mul_le_mul_right _ ho
    _ = 8 * c.alignedBytes := by rw [Nat.mul_left_comm, itemsPerSlot_mul]

variable (buffer : ℕ → c.Word)

theorem getLsbD_readAligned (idx : ℕ) (hi : i < 8 * c.itemBytes) :
    (c.readAligned buffer idx).getLsbD i = (buffer (idx / c.itemsPerSlot)).getLsbD
        (idx % c.itemsPerSlot * 8 * c.itemBytes + i) := by
  rw [readAligned]
  split
  · rename_i hsame
    rw [itemsPerSlot_eq_one hsame, Nat.div_one, Nat.mod_one, BitVec.getLsbD_setWidth,
      decide_eq_true hi, Bool.true_and, Nat.zero_mul, Nat.zero_add]
  · rw [BitVec.getLsbD_setWidth, BitVec.getLsbD_and, BitVec.getLsbD_ushiftRight, getLsbD_bits,
      decide_eq_true hi, Bool.true_and, Bool.and_true]

/-- Writing an item sets its bits, and the sign of the value also those of the items behind it. -/
theorem getLsbD_writeAligned (idx : ℕ) (val : c.Item)
    (ho : offset < c.itemsPerSlot) (hi : i < 8 * c.itemBytes) :
    (c.writeAligned buffer idx val (idx / c.itemsPerSlot)).getLsbD
        (offset * 8 * c.itemBytes + i) =
      if offset = idx % c.itemsPerSlot then val.getLsbD i
      else ((buffer (idx / c.itemsPerSlot)).getLsbD (offset * 8 * c.itemBytes + i) ||
        decide (idx % c.itemsPerSlot < offset) && isNegative val) := by
  have hbit := bit_lt ho hi
  rw [writeAligned]
  split
  · rename_i hsame
    rw [itemsPerSlot_eq_one hsame] at ho ⊢
    obtain rfl : offset = 0 := Nat.lt_one_iff.mp ho
    rw [Nat.mod_one, if_pos rfl, Nat.div_one, Function.update_self, Nat.zero_mul, Nat.zero_add,
      getLsbD_toAligned val (by omega), if_pos hi]
  · generalize idx % c.itemsPerSlot = offset'
    rw [Function.update_self, BitVec.getLsbD_or, BitVec.getLsbD_and, BitVec.getLsbD_not,
      BitVec.getLsbD_shiftLeft, BitVec.getLsbD_shiftLeft, getLsbD_bits, decide_eq_true hbit]
    simp only [Bool.true_and, Nat.mul_assoc]
    rcases Nat.lt_trichotomy offset offset' with hlt | rfl | hgt
    · have hstep : (offset + 1) * (8 * c.itemBytes) ≤ offset' * (8 * c.itemBytes) :=
        Nat.mul_le_mul_right _ hlt
      rw [Nat.add_mul, Nat.one_mul] at hstep
      have hbelow : offset * (8 * c.itemBytes) + i < offset' * (8 * c.itemBytes) := by omega
      rw [if_neg (by omega), decide_eq_true hbelow,
        decide_eq_false (Nat.not_lt.mpr (Nat.le_of_lt hlt))]
      simp
    · rw [if_pos rfl, decide_eq_false (by omega), Nat.add_sub_cancel_left, decide_eq_true hi,
        getLsbD_toAligned val (by omega), if_pos hi]
      simp
    · have hstep : (offset' + 1) * (8 * c.itemBytes) ≤ offset * (8 * c.itemBytes) :=
        Nat.mul_le_mul_right _ hgt
      rw [Nat.add_mul, Nat.one_mul] at hstep
      rw [Nat.mul_assoc] at hbit
      rw [if_neg (by omega), decide_eq_false (by omega), decide_eq_false (by omega),
        decide_eq_true hgt, getLsbD_toAligned val (by omega), if_neg (by omega)]
      simp

/-- A read after a write. -/
theorem readAligned_writeAligned (idx j : ℕ) (val : c.Item) :
    c.readAligned (c.writeAligned buffer idx val) j =
      if j = idx then val
      else if j / c.itemsPerSlot = idx / c.itemsPerSlot ∧ idx < j ∧ isNegative val = true then
        BitVec.allOnes _
      else c.readAligned buffer j := by
  have hpos := @itemsPerSlot_pos c
  have hdivj := Nat.div_add_mod j c.itemsPerSlot
  have hdiv := Nat.div_add_mod idx c.itemsPerSlot
  apply BitVec.eq_of_getLsbD_eq
  intro i hi
  rw [getLsbD_readAligned _ _ hi]
  by_cases hword : j / c.itemsPerSlot = idx / c.itemsPerSlot
  · rw [hword, getLsbD_writeAligned _ _ _ (Nat.mod_lt _ hpos) hi]
    rw [hword] at hdivj
    by_cases hj : j = idx
    · rw [if_pos (by rw [hj]), if_pos hj]
    · rw [if_neg (by omega), if_neg hj]
      by_cases hneg : idx < j ∧ isNegative val = true
      · rw [if_pos ⟨rfl, hneg⟩, decide_eq_true (by omega), hneg.2, BitVec.getLsbD_allOnes,
          decide_eq_true hi, Bool.and_true, Bool.or_true]
      · rw [if_neg (fun h => hneg h.2), getLsbD_readAligned _ _ hi, hword,
          Bool.or_eq_left_iff_imp.mpr]
        intro h
        rw [Bool.and_eq_true, decide_eq_true_eq] at h
        exact absurd ⟨by omega, h.2⟩ hneg
  · have hne : j ≠ idx := fun h => hword (by rw [h])
    rw [if_neg hne, if_neg (fun h => hword h.1), getLsbD_readAligned _ _ hi, writeAligned]
    split
    · rename_i hsame
      rw [itemsPerSlot_eq_one hsame, Nat.div_one, Function.update_of_ne hne]
    · rw [Function.update_of_ne hword]

end

variable {c : PackedRingbuffer}

/-- The members of a packed ring buffer. The word behind the last item is at `end`. -/
structure State (c : PackedRingbuffer) where
  start : Fin c.size
  stop : Fin c.size
  buffer : ℕ → c.Word

namespace State

def setup (memory : ℕ → c.Word) : State c := ⟨⟨0, c.size_pos⟩, ⟨0, c.size_pos⟩, memory⟩

def clear (s : State c) : State c :=
  { s with start := ⟨0, c.size_pos⟩, stop := ⟨0, c.size_pos⟩ }

def used (s : State c) : ℕ :=
  if s.stop < s.start then c.size + s.stop - s.start else s.stop - s.start

def free (s : State c) : ℕ := c.size - 1 - s.used

/-- Increments a position and wraps it at the end of the buffer. -/
def advance (p : Fin c.size) : Fin c.size :=
  if h : c.size ≤ p + 1 then ⟨0, c.size_pos⟩ else ⟨p + 1, Nat.lt_of_not_le h⟩

def push (s : State c) (val : c.Item) : State c :=
  let buffer := c.writeAligned s.buffer s.stop val
  let stop := advance s.stop
  if stop = s.start then ⟨advance s.start, stop, buffer⟩ else ⟨s.start, stop, buffer⟩

/-- Whether there is an item, the item and the remaining buffer. -/
def pop (s : State c) : Bool × c.Item × State c :=
  if s.used = 0 then (false, 0, s)
  else (true, c.readAligned s.buffer s.start, { s with start := advance s.start })

def peek (s : State c) : Bool × c.Item :=
  if s.used = 0 then (false, 0) else (true, c.readAligned s.buffer s.start)

def peekOffset (s : State c) (offset : ℕ) : Bool × c.Item :=
  if s.used ≤ offset then (false, 0)
  else
    let idx := if s.start + offset ≥ c.size then s.start + offset - c.size else s.start + offset
    (true, c.readAligned s.buffer idx)

def step (s : State c) : ItemCall c.Item → State c × Reply c.Item
  | .push val => (s.push val, .done)
  | .pop => (s.pop.2.2, .answer s.pop.1 s.pop.2.1)
  | .peek => (s, .answer s.peek.1 s.peek.2)
  | .peekOffset offset => (s, .answer (s.peekOffset offset).1 (s.peekOffset offset).2)
  | .clear => (s.clear, .done)
  | .used => (s, .count s.used)
  | .free => (s, .count s.free)

/-- The items from the oldest to the newest. -/
def contents (s : State c) : List c.Item :=
  BoundedQueue.contents c.size (c.readAligned s.buffer) s.start s.stop

/-- The sign bits of a pushed value reach no item that stays but those with all bits set. -/
def SignContained (s : State c) (val : c.Item) : Prop :=
  isNegative val = true → ∀ i < s.used, s.used + 1 - (c.size - 1) ≤ i →
    (s.start + i) % c.size / c.itemsPerSlot = s.stop / c.itemsPerSlot →
    s.stop < (s.start + i) % c.size →
    c.readAligned s.buffer ((s.start + i) % c.size) = BitVec.allOnes _

instance (s : State c) (val : c.Item) : Decidable (s.SignContained val) :=
  inferInstanceAs (Decidable (_ → _))

theorem coe_advance (p : Fin c.size) : (advance p : ℕ) = (p + 1) % c.size := by
  rw [advance]
  split
  · rename_i h
    rw [show (p : ℕ) + 1 = c.size by omega, Nat.mod_self]
  · rename_i h
    exact (Nat.mod_eq_of_lt (Nat.lt_of_not_le h)).symm

theorem used_eq (s : State c) : s.used = BoundedQueue.used c.size s.start s.stop := rfl

theorem used_eq_zero_iff (s : State c) : s.used = 0 ↔ s.start = s.stop := by
  rw [used_eq, BoundedQueue.used_eq_zero s.start.isLt, Fin.ext_iff]

@[simp] theorem length_contents (s : State c) : s.contents.length = s.used :=
  BoundedQueue.length_contents

section

variable (s : State c) (val : c.Item)
include s val

theorem push_start :
    ((s.push val).start : ℕ) =
      if s.used + 1 ≤ c.size - 1 then (s.start : ℕ) else ((s.stop + 1) % c.size + 1) % c.size := by
  rw [used_eq, ← next_start s.start.isLt s.stop.isLt, ← coe_advance, ← coe_advance, push]
  simp only [Fin.val_inj]
  split <;> rfl

theorem push_stop : ((s.push val).stop : ℕ) = (s.stop + 1) % c.size := by
  rw [← coe_advance, push]
  split <;> rfl

theorem push_buffer : (s.push val).buffer = c.writeAligned s.buffer s.stop val := by
  rw [push]
  split <;> rfl

/-- An update at the end of the window appends one item. -/
theorem appends_update :
    Appends c.size s.start s.used (c.readAligned s.buffer)
      (Function.update (c.readAligned s.buffer) s.stop val) [val] := by
  have hend := start_add_used s.start.isLt s.stop.isLt
  constructor
  · intro i x hget
    obtain ⟨rfl, rfl⟩ : i = 0 ∧ x = val := by
      cases i with
      | zero => exact ⟨rfl, (Option.some.inj hget).symm⟩
      | succ i => exact absurd hget (by simp)
    rw [Nat.add_zero, used_eq, hend, Function.update_self]
  · intro p hp hne
    have hstop := hne 0 Nat.one_pos
    rw [Nat.add_zero, used_eq, hend] at hstop
    rw [Function.update_of_ne hstop]

/-- A push is the one of the bounded list exactly if the sign of the value is contained. -/
theorem contents_push_iff :
    (s.push val).contents = pushN (c.size - 1) s.contents [val] ↔ s.SignContained val := by
  have hend := start_add_used s.start.isLt s.stop.isLt
  have hused := used_lt s.start.isLt s.stop.isLt
  have hideal : window c.size (Function.update (c.readAligned s.buffer) s.stop val)
      (s.start + (s.used + 1 - (c.size - 1))) (s.used + 1 - (s.used + 1 - (c.size - 1))) =
        pushN (c.size - 1) s.contents [val] := (s.appends_update val).window_eq hused
  rw [← hideal, contents, push_start, push_stop, push_buffer, used_eq,
    contents_after s.start.isLt s.stop.isLt, window_eq_iff]
  rw [← used_eq] at hend hused ⊢
  have hsize := c.size_pos
  constructor
  · intro h hneg i hi hkept hword hlt
    have hslot := h (i - (s.used + 1 - (c.size - 1))) (by omega)
    rw [Nat.add_assoc, Nat.add_sub_cancel' hkept] at hslot
    have hne : (s.start + i) % c.size ≠ s.stop := Nat.ne_of_gt hlt
    rw [readAligned_writeAligned, if_neg hne, if_pos ⟨hword, hlt, hneg⟩,
      Function.update_of_ne hne] at hslot
    exact hslot.symm
  · intro h i hi
    rw [Nat.add_assoc]
    generalize hk : s.used + 1 - (c.size - 1) + i = k
    rw [readAligned_writeAligned]
    by_cases hlast : k = s.used
    · rw [hlast, hend, if_pos rfl, Function.update_self]
    · have hne : (s.start + k) % c.size ≠ s.stop := by
        rw [← hend]
        exact slot_ne (by omega) (by omega)
      rw [if_neg hne, Function.update_of_ne hne]
      split
      · rename_i hsign
        exact (h hsign.2.2 k (by omega) (by omega) hsign.1 hsign.2.1).symm
      · rfl

end

theorem contents_pop (s : State c) (h : s.used ≠ 0) :
    s.contents = c.readAligned s.buffer s.start :: s.pop.2.2.contents := by
  have hne : (s.start : ℕ) ≠ s.stop := fun heq => h (s.used_eq_zero_iff.mpr (Fin.ext heq))
  rw [pop, if_neg h, contents, contents_cons s.start.isLt s.stop.isLt hne, contents, coe_advance]

theorem contents_eq_nil {s : State c} (h : s.used = 0) : s.contents = [] := by
  rw [← List.length_eq_zero_iff, length_contents, h]

theorem peekOffset_index (s : State c) {offset : ℕ} (h : offset < s.used) :
    (if s.start + offset ≥ c.size then s.start + offset - c.size else s.start + offset) =
      (s.start + offset) % c.size := by
  have hused := used_lt s.start.isLt s.stop.isLt
  rw [← used_eq] at hused
  split
  · rename_i hwrap
    rw [Nat.mod_eq_sub_mod hwrap, Nat.mod_eq_of_lt (by omega)]
  · rename_i hwrap
    rw [Nat.mod_eq_of_lt (by omega)]

/-- The calls that behave as those of the bounded list. -/
def CallContained (s : State c) : ItemCall c.Item → Prop
  | .push val => s.SignContained val
  | _ => True

instance (s : State c) : (call : ItemCall c.Item) → Decidable (s.CallContained call)
  | .push val => inferInstanceAs (Decidable (s.SignContained val))
  | .pop | .peek | .peekOffset _ | .clear | .used | .free => isTrue trivial

/-- Every call is the one of the bounded list, a push if the sign of its value is contained. -/
theorem step_eq (s : State c) (call : ItemCall c.Item) (h : s.CallContained call) :
    itemStep (c.size - 1) s.contents call = ((s.step call).1.contents, (s.step call).2) := by
  cases call with
  | push val =>
    rw [itemStep, ← s.contents_push_iff val |>.mpr h]
    rfl
  | pop =>
    by_cases hused : s.used = 0
    · rw [itemStep, contents_eq_nil hused, step, pop, if_pos hused, contents_eq_nil hused]
      rfl
    · rw [itemStep, contents_pop s hused, step]
      rw [pop, if_neg hused]
      rfl
  | peek =>
    by_cases hused : s.used = 0
    · rw [itemStep, contents_eq_nil hused, step, peek, if_pos hused, contents_eq_nil hused]
      rfl
    · rw [itemStep, step, peek, if_neg hused, contents_pop s hused]
      rfl
  | peekOffset offset =>
    rcases Nat.lt_or_ge offset s.used with hlt | hge
    · rw [itemStep, step, peekOffset, if_neg (Nat.not_le.mpr hlt)]
      dsimp only
      rw [peekOffset_index s hlt, contents, getElem?_contents hlt]
      rfl
    · rw [itemStep, step, peekOffset, if_pos hge, List.getElem?_eq_none (by simpa using hge)]
      rfl
  | clear =>
    rw [itemStep, step]
    exact congrArg (·, Reply.done) contents_self.symm
  | used => rw [itemStep, step, length_contents]
  | free => rw [itemStep, step, length_contents, free]

end State

end PackedRingbuffer

end Esp32Firmware.Tools
