import Esp32Firmware.Library.Run
import Esp32Firmware.Tools.PackedRingbuffer

/-!
# Ring buffers

A ring buffer in the bytes of its memory. A block of items is copied by its number of items, which
`memcpy` takes for a number of bytes.

Both ring buffers hold what a list holds that drops its oldest items, as long as no sign of a
packed value is written into another item and no block of items is cut to its number of bytes.
-/

namespace Esp32Firmware.Tools

open BoundedQueue

/-- A set up ring buffer: `setup` aborts for a size that is not a power of two. -/
structure Ringbuffer where
  itemBytes : ℕ
  bufSize : ℕ
  size_power : bufSize &&& (bufSize - 1) = 0
  item_pos : 0 < itemBytes
  size_pos : 0 < bufSize

namespace Ringbuffer

section

abbrev Memory := ℕ → BitVec 8

variable (c : Ringbuffer)

abbrev Item := BitVec (8 * c.itemBytes)

def memcpy (memory : Memory) (dst : ℕ) (src : Memory) (n : ℕ) : Memory := fun p =>
  if dst ≤ p ∧ p < dst + n then src (p - dst) else memory p

/-- The bytes of an array of items. -/
def bytesOf (vals : List c.Item) : Memory := fun p =>
  (vals.getD (p / c.itemBytes) 0).extractLsb' (8 * (p % c.itemBytes)) 8

/-- The value of some bytes, the lowest first. -/
def littleEndian (w : ℕ) (memory : Memory) : ℕ → ℕ → BitVec w
  | _, 0 => 0
  | p, n + 1 => (memory p).setWidth w ||| littleEndian w memory (p + 1) n <<< 8

def load (memory : Memory) (idx : ℕ) : c.Item :=
  littleEndian _ memory (idx * c.itemBytes) c.itemBytes

def store (memory : Memory) (idx : ℕ) (val : c.Item) : Memory :=
  memcpy memory (idx * c.itemBytes) (c.bytesOf [val]) c.itemBytes

variable {c}

theorem getLsbD_littleEndian {w : ℕ} (memory : Memory) (p n : ℕ) {i : ℕ} (hw : i < w)
    (hi : i < 8 * n) :
    (littleEndian w memory p n).getLsbD i = (memory (p + i / 8)).getLsbD (i % 8) := by
  induction n generalizing p i with
  | zero => exact absurd hi (Nat.not_lt_zero _)
  | succ n ih =>
    rw [littleEndian, BitVec.getLsbD_or, BitVec.getLsbD_setWidth, BitVec.getLsbD_shiftLeft,
      decide_eq_true hw, Bool.true_and, Bool.true_and]
    rcases Nat.lt_or_ge i 8 with hlt | hge
    · rw [decide_eq_true hlt, Bool.not_true, Bool.false_and, Bool.or_false,
        Nat.div_eq_of_lt hlt, Nat.mod_eq_of_lt hlt, Nat.add_zero]
    · rw [decide_eq_false (Nat.not_lt.mpr hge), Bool.not_false, Bool.true_and,
        BitVec.getLsbD_of_ge _ _ hge, Bool.false_or, ih (p + 1) (by omega) (by omega),
        ← Nat.mod_eq_sub_mod hge, show p + 1 + (i - 8) / 8 = p + i / 8 by omega]

variable (memory : Memory)

theorem getLsbD_load (idx : ℕ) {i : ℕ} (hi : i < 8 * c.itemBytes) :
    (c.load memory idx).getLsbD i = (memory (idx * c.itemBytes + i / 8)).getLsbD (i % 8) :=
  getLsbD_littleEndian memory _ _ hi hi

/-- Copying all bytes of some items of an array sets them. -/
theorem load_memcpy (idx dst n : ℕ) (vals : List c.Item) :
    c.load (memcpy memory (dst * c.itemBytes) (c.bytesOf vals) (n * c.itemBytes)) idx =
      if dst ≤ idx ∧ idx < dst + n then vals.getD (idx - dst) 0 else c.load memory idx := by
  have hpos := c.item_pos
  apply BitVec.eq_of_getLsbD_eq
  intro i hi
  have hbyte : i / 8 < c.itemBytes := by omega
  rw [getLsbD_load _ _ hi]
  by_cases hin : dst ≤ idx ∧ idx < dst + n
  · obtain ⟨k, rfl⟩ := Nat.exists_eq_add_of_le hin.1
    have hk : k < n := by omega
    have hmul : (k + 1) * c.itemBytes ≤ n * c.itemBytes := Nat.mul_le_mul_right _ hk
    rw [Nat.add_mul, Nat.one_mul] at hmul
    have hoffset : (dst + k) * c.itemBytes + i / 8 - dst * c.itemBytes =
        c.itemBytes * k + i / 8 := by
      rw [Nat.add_mul, Nat.mul_comm c.itemBytes k]
      omega
    rw [if_pos hin, memcpy, if_pos (by rw [Nat.add_mul]; omega), hoffset, bytesOf,
      Nat.mul_add_div hpos, Nat.div_eq_of_lt hbyte, Nat.mul_add_mod, Nat.mod_eq_of_lt hbyte,
      Nat.add_zero, Nat.add_sub_cancel_left, BitVec.getLsbD_extractLsb',
      decide_eq_true (Nat.mod_lt _ (by decide)), Bool.true_and, Nat.div_add_mod]
  · rw [if_neg hin, getLsbD_load _ _ hi, memcpy, if_neg]
    rintro ⟨hle, hlt⟩
    refine hin ⟨?_, ?_⟩
    · by_contra hgt
      have hmul : (idx + 1) * c.itemBytes ≤ dst * c.itemBytes := Nat.mul_le_mul_right _ (by omega)
      rw [Nat.add_mul, Nat.one_mul] at hmul
      omega
    · by_contra hge
      have hmul : (dst + n) * c.itemBytes ≤ idx * c.itemBytes :=
        Nat.mul_le_mul_right _ (by omega)
      rw [Nat.add_mul] at hmul
      omega

/-- If an item is one byte, a number of items is a number of bytes. -/
theorem load_memcpy_of_eq_one (hbytes : c.itemBytes = 1) (memory : Memory) (idx dst n : ℕ)
    (vals : List c.Item) :
    c.load (memcpy memory (dst * c.itemBytes) (c.bytesOf vals) n) idx =
      if dst ≤ idx ∧ idx < dst + n then vals.getD (idx - dst) 0 else c.load memory idx := by
  have h := load_memcpy memory idx dst n vals
  rwa [show n * c.itemBytes = n by rw [hbytes, Nat.mul_one]] at h

theorem load_store (idx j : ℕ) (val : c.Item) :
    c.load (c.store memory idx val) j = if j = idx then val else c.load memory j := by
  have h := load_memcpy memory j idx 1 [val]
  rw [Nat.one_mul] at h
  rw [store, h]
  by_cases hj : j = idx
  · rw [hj, if_pos (by omega), if_pos rfl, Nat.sub_self]
    rfl
  · rw [if_neg (by omega), if_neg hj]

end

variable {c : Ringbuffer}

theorem mod_lt (x : ℕ) : x &&& (c.bufSize - 1) < c.bufSize := by
  have h := @Nat.and_le_right x (c.bufSize - 1)
  have hpos := c.size_pos
  omega

/-- The members of a ring buffer. The slot behind the last item is at `end`. -/
structure State (c : Ringbuffer) where
  start : Fin c.bufSize
  stop : Fin c.bufSize
  buffer : Memory

namespace State

def modSize (c : Ringbuffer) (x : ℕ) : Fin c.bufSize := ⟨x &&& (c.bufSize - 1), mod_lt x⟩

def setup (memory : Memory) : State c := ⟨⟨0, c.size_pos⟩, ⟨0, c.size_pos⟩, memory⟩

def clear (s : State c) : State c :=
  { s with start := ⟨0, c.size_pos⟩, stop := ⟨0, c.size_pos⟩ }

def empty (s : State c) : Bool := s.start = s.stop

def size (c : Ringbuffer) : ℕ := c.bufSize - 1

def used (s : State c) : ℕ := modSize c (c.bufSize + s.stop - s.start)

def free (s : State c) : ℕ := size c - s.used

def push (s : State c) (val : c.Item) : State c :=
  let buffer := c.store s.buffer s.stop val
  let stop := modSize c (s.stop + 1)
  if stop = s.start then ⟨modSize c (s.start + 1), stop, buffer⟩ else ⟨s.start, stop, buffer⟩

def pop (s : State c) : Bool × c.Item × State c :=
  if s.empty then (false, 0, s)
  else (true, c.load s.buffer s.start, { s with start := modSize c (s.start + 1) })

def peek (s : State c) : Bool × c.Item :=
  if s.empty then (false, 0) else (true, c.load s.buffer s.start)

def peekOffset (s : State c) (offset : ℕ) : Bool × c.Item :=
  if s.used ≤ offset then (false, 0)
  else (true, c.load s.buffer (modSize c (c.bufSize + s.start + offset)))

/-- The pieces of a block up to the end of the memory, then the rest: the memory and the position
behind the block. -/
def copyBlock (memory : Memory) (stop : Fin c.bufSize) (val : List c.Item) : Memory × ℕ :=
  if c.bufSize < stop + val.length then
    let toWrite := c.bufSize - stop
    copyBlock (memcpy memory (stop * c.itemBytes) (c.bytesOf val) toWrite) ⟨0, c.size_pos⟩
      (val.drop toWrite)
  else (memcpy memory (stop * c.itemBytes) (c.bytesOf val) val.length, stop + val.length)
termination_by val.length
decreasing_by
  rw [List.length_drop]
  omega

def pushN (s : State c) (val : List c.Item) : State c :=
  if val.length > size c then s
  else
    let fits := val.length ≤ s.free
    let written := copyBlock s.buffer s.stop val
    let stop := modSize c written.2
    if fits then ⟨s.start, stop, written.1⟩ else ⟨modSize c (stop + 1), stop, written.1⟩

/-- The chunks: the position and the length of the first, and of the second if there is one. -/
def getChunks (s : State c) : (ℕ × ℕ) × Option ℕ × ℕ :=
  let wrap := s.stop < s.start
  if wrap then ((s.start, c.bufSize - s.start), some 0, s.stop)
  else ((s.start, s.stop - s.start), none, 0)

/-- The items from the oldest to the newest. -/
def contents (s : State c) : List c.Item :=
  BoundedQueue.contents c.bufSize (c.load s.buffer) s.start s.stop

theorem coe_modSize (x : ℕ) : (modSize c x : ℕ) = x % c.bufSize := by
  obtain ⟨k, hk⟩ := Nat.and_sub_one_eq_zero_iff_isPowerOfTwo (Nat.ne_of_gt c.size_pos) |>.mp
    c.size_power
  change x &&& (c.bufSize - 1) = x % c.bufSize
  rw [hk]
  exact Nat.and_two_pow_sub_one_eq_mod x k

variable (s : State c) (memory : Memory) (stop : Fin c.bufSize)

theorem used_eq : s.used = BoundedQueue.used c.bufSize s.start s.stop := by
  rw [used, coe_modSize, BoundedQueue.used]
  split
  · exact Nat.mod_eq_of_lt (by omega)
  · rw [show c.bufSize + (s.stop : ℕ) - s.start = s.stop - s.start + c.bufSize by omega,
      Nat.add_mod_right, Nat.mod_eq_of_lt (by omega)]

theorem empty_iff : s.empty = true ↔ s.used = 0 := by
  rw [used_eq, BoundedQueue.used_eq_zero s.start.isLt, empty, decide_eq_true_eq,
    Fin.ext_iff]

@[simp] theorem length_contents : s.contents.length = s.used := by
  rw [used_eq]
  exact BoundedQueue.length_contents

section

variable {val : List c.Item}

/-- A block that fits into the memory is copied in at most two pieces. -/
theorem copyBlock_eq (h : val.length ≤ c.bufSize) : copyBlock memory stop val =
      if c.bufSize < stop + val.length then
        (memcpy (memcpy memory (stop * c.itemBytes) (c.bytesOf val) (c.bufSize - stop)) 0
          (c.bytesOf (val.drop (c.bufSize - stop))) (stop + val.length - c.bufSize),
          stop + val.length - c.bufSize)
      else (memcpy memory (stop * c.itemBytes) (c.bytesOf val) val.length, stop + val.length) := by
  rw [copyBlock]
  split
  · rename_i hlong
    have hlength : (val.drop (c.bufSize - stop)).length = stop + val.length - c.bufSize := by
      rw [List.length_drop]
      omega
    rw [copyBlock, if_neg (by rw [hlength, Nat.zero_add]; omega), hlength, Nat.zero_mul,
      Nat.zero_add]
  · rfl

theorem copyBlock_stop (h : val.length ≤ c.bufSize) :
    (copyBlock memory stop val).2 % c.bufSize = (stop + val.length) % c.bufSize := by
  rw [copyBlock_eq memory stop h]
  split
  · rename_i hlong
    exact (Nat.mod_eq_sub_mod hlong.le).symm
  · rfl

theorem load_copyBlock
    (hbytes : c.itemBytes = 1) (h : val.length ≤ c.bufSize) {j : ℕ} (hj : j < c.bufSize) :
    c.load (copyBlock memory stop val).1 j =
      if stop ≤ j ∧ j < stop + val.length then val.getD (j - stop) 0
      else if j + c.bufSize < stop + val.length then val.getD (j + c.bufSize - stop) 0
      else c.load memory j := by
  have hload := @load_memcpy_of_eq_one c hbytes
  rw [copyBlock_eq memory stop h]
  split
  · rename_i hlong
    rw [← Nat.zero_mul c.itemBytes, hload, hload]
    by_cases hsecond : j + c.bufSize < stop + val.length
    · rw [if_pos (by omega), if_neg (by omega), if_pos hsecond, List.getD_eq_getElem?_getD,
        List.getElem?_drop, ← List.getD_eq_getElem?_getD,
        show c.bufSize - stop + (j - 0) = j + c.bufSize - stop by omega]
    · rw [if_neg (by omega), if_neg hsecond]
      by_cases hfirst : (stop : ℕ) ≤ j
      · rw [if_pos (by omega), if_pos (by omega)]
      · rw [if_neg (by omega), if_neg (by omega)]
  · rename_i hlong
    rw [hload]
    by_cases hfirst : stop ≤ j ∧ j < stop + val.length
    · rw [if_pos hfirst, if_pos hfirst]
    · rw [if_neg hfirst, if_neg hfirst, if_neg (by omega)]

/-- A block of bytes that is not longer than the buffer pushes the oldest items out. -/
theorem contents_pushN (hbytes : c.itemBytes = 1) (h : val.length ≤ size c) :
    (s.pushN val).contents = BoundedQueue.pushN (size c) s.contents val := by
  have hsize := c.size_pos
  have hlength : val.length < c.bufSize := by rw [size] at h; omega
  have happends := Appends.of_pieces s.start.isLt s.stop.isLt hlength
    (fun j hj => load_copyBlock s.buffer s.stop hbytes hlength.le hj)
  rw [contents, size, contents, ← happends.contents_eq s.start.isLt s.stop.isLt, pushN,
    if_neg (Nat.not_lt.mpr h), ← used_eq, ← copyBlock_stop s.buffer s.stop hlength.le]
  have hused := used_lt s.start.isLt s.stop.isLt
  rw [← used_eq] at hused
  have hfits : val.length ≤ s.free ↔ s.used + val.length ≤ c.bufSize - 1 := by
    rw [free, size]
    omega
  simp only [hfits]
  split <;> simp only [coe_modSize]

end

theorem contents_push (val : c.Item) :
    (s.push val).contents = BoundedQueue.pushN (size c) s.contents [val] := by
  have hend := start_add_used s.start.isLt s.stop.isLt
  have happends : Appends c.bufSize s.start (BoundedQueue.used c.bufSize s.start s.stop)
      (c.load s.buffer) (c.load (c.store s.buffer s.stop val)) [val] := by
    constructor
    · intro i x hget
      obtain ⟨rfl, rfl⟩ : i = 0 ∧ x = val := by
        cases i with
        | zero => exact ⟨rfl, (Option.some.inj hget).symm⟩
        | succ i => exact absurd hget (by simp)
      rw [Nat.add_zero, hend, load_store, if_pos rfl]
    · intro p hp hne
      have hstop := hne 0 Nat.one_pos
      rw [Nat.add_zero, hend] at hstop
      rw [load_store, if_neg hstop]
  rw [contents, size, contents, ← happends.contents_eq s.start.isLt s.stop.isLt,
    List.length_singleton, ← next_start s.start.isLt s.stop.isLt, push]
  simp only [Fin.ext_iff, coe_modSize]
  split <;> simp only [coe_modSize]

theorem contents_next {s : State c} (h : s.empty = false) :
    s.contents = c.load s.buffer s.start ::
      ({ s with start := modSize c (s.start + 1) } : State c).contents := by
  have hne : (s.start : ℕ) ≠ s.stop := fun heq => by
    rw [empty, decide_eq_false_iff_not] at h
    exact h (Fin.ext heq)
  rw [contents, contents_cons s.start.isLt s.stop.isLt hne, contents, coe_modSize]

theorem used_next {s : State c} (h : s.empty = false) :
    ({ s with start := modSize c (s.start + 1) } : State c).used + 1 = s.used := by
  have hlength := congrArg List.length (contents_next h)
  rw [List.length_cons, length_contents, length_contents] at hlength
  exact hlength.symm

/-- Drops the items up to the first that is the needle. -/
def popUntil (needle : c.Item) (s : State c) : State c :=
  if _ : s.empty = true then s
  else
    let found := c.load s.buffer s.start = needle
    let next : State c := { s with start := modSize c (s.start + 1) }
    if found then next else popUntil needle next
termination_by s.used
decreasing_by
  have hnext := used_next (Bool.eq_false_iff.mpr ‹_›)
  omega

/-- The items of the chunks. -/
def readChunks (s : State c) : List c.Item :=
  let chunks := s.getChunks
  (List.range chunks.1.2).map (fun i => c.load s.buffer (chunks.1.1 + i)) ++
    chunks.2.1.elim [] fun second =>
      (List.range chunks.2.2).map fun i => c.load s.buffer (second + i)

def step (s : State c) : Call c.Item → State c × Reply c.Item
  | .item (.push val) => (s.push val, .done)
  | .item .pop => (s.pop.2.2, .answer s.pop.1 s.pop.2.1)
  | .item .peek => (s, .answer s.peek.1 s.peek.2)
  | .item (.peekOffset offset) => (s, .answer (s.peekOffset offset).1 (s.peekOffset offset).2)
  | .item .clear => (s.clear, .done)
  | .item .used => (s, .count s.used)
  | .item .free => (s, .count s.free)
  | .pushN val => (s.pushN val, .done)
  | .popUntil needle => (s.popUntil needle, .done)
  | .chunks => (s, .items s.readChunks)

theorem contents_eq_nil {s : State c} (h : s.empty = true) : s.contents = [] := by
  rw [← List.length_eq_zero_iff, length_contents, s.empty_iff.mp h]

theorem contents_popUntil (needle : c.Item) :
    (s.popUntil needle).contents = BoundedQueue.popUntil needle s.contents := by
  induction s using popUntil.induct needle with
  | case1 s h => rw [popUntil, dif_pos h, contents_eq_nil h, BoundedQueue.popUntil]
  | case2 s h found hfound =>
    rw [popUntil, dif_neg h, if_pos hfound, contents_next (Bool.eq_false_iff.mpr h),
      BoundedQueue.popUntil, if_pos hfound]
  | case3 s h found next hfound ih =>
    rw [popUntil, dif_neg h, if_neg hfound, contents_next (Bool.eq_false_iff.mpr h),
      BoundedQueue.popUntil, if_neg hfound]
    exact ih

theorem readChunks_eq : s.readChunks = s.contents := by
  rw [contents, contents_eq_pieces s.start.isLt s.stop.isLt, readChunks, getChunks]
  by_cases hwrap : s.stop < s.start
  · simp only [if_pos hwrap, if_pos (Fin.lt_def.mp hwrap), Option.elim_some, Nat.zero_add]
  · simp only [if_neg hwrap, if_neg (mt Fin.lt_def.mpr hwrap), Option.elim_none, List.append_nil]

/-- The calls that behave as those of the bounded list: a block that is not empty consists of
bytes, and it is not longer than the buffer. -/
def BlockCopied (c : Ringbuffer) : Call c.Item → Prop
  | .pushN val => val.length ≤ size c ∧ (c.itemBytes = 1 ∨ val = [])
  | _ => True

theorem pushN_nil : s.pushN [] = s := by
  have hcopy : copyBlock s.buffer s.stop ([] : List c.Item) = (s.buffer, (s.stop : ℕ)) := by
    rw [copyBlock_eq s.buffer s.stop (Nat.zero_le _), List.length_nil, Nat.add_zero,
      if_neg (Nat.not_lt.mpr s.stop.isLt.le)]
    refine Prod.ext ?_ rfl
    ext p : 1
    exact if_neg (by omega)
  have hstop : modSize c s.stop = s.stop := by
    rw [Fin.ext_iff, coe_modSize, Nat.mod_eq_of_lt s.stop.isLt]
  have hshort : ¬ ([] : List c.Item).length > size c := Nat.not_lt_zero _
  rw [pushN, if_neg hshort, hcopy]
  simp only [List.length_nil, Nat.zero_le, if_true, hstop]

/-- Every call is the one of the bounded list, a block if it is copied as a whole. -/
theorem step_eq (call : Call c.Item) (h : BlockCopied c call) :
    BoundedQueue.step (size c) s.contents call = ((s.step call).1.contents, (s.step call).2) := by
  cases call with
  | item call =>
    cases call with
    | push val => rw [BoundedQueue.step, itemStep, ← contents_push, step]
    | pop =>
      rw [BoundedQueue.step, itemStep, step, pop]
      cases hempty : s.empty with
      | true =>
        rw [if_pos rfl, contents_eq_nil hempty]
        rfl
      | false =>
        rw [if_neg Bool.false_ne_true, contents_next hempty]
        rfl
    | peek =>
      rw [BoundedQueue.step, itemStep, step, peek]
      cases hempty : s.empty with
      | true =>
        rw [if_pos rfl, contents_eq_nil hempty]
        rfl
      | false =>
        rw [if_neg Bool.false_ne_true, contents_next hempty]
        rfl
    | peekOffset offset =>
      rw [BoundedQueue.step, itemStep, step, peekOffset]
      rcases Nat.lt_or_ge offset s.used with hlt | hge
      · have hget := hlt
        rw [used_eq] at hget
        rw [if_neg (Nat.not_le.mpr hlt), contents, getElem?_contents hget, coe_modSize,
          Nat.add_assoc, Nat.add_mod_left]
        rfl
      · rw [if_pos hge, List.getElem?_eq_none (by simpa using hge)]
        rfl
    | clear =>
      rw [BoundedQueue.step, itemStep, step]
      exact congrArg (·, Reply.done) contents_self.symm
    | used => rw [BoundedQueue.step, itemStep, step, length_contents]
    | free => rw [BoundedQueue.step, itemStep, step, length_contents, free]
  | pushN val =>
    obtain ⟨hlength, hbytes | rfl⟩ := h
    · rw [BoundedQueue.step, step, ← s.contents_pushN hbytes hlength]
    · have hused : s.contents.length ≤ size c := by
        have hlt := used_lt s.start.isLt s.stop.isLt
        rw [length_contents, used_eq, size]
        omega
      rw [BoundedQueue.step, step, BoundedQueue.pushN_nil hused, pushN_nil]
  | popUntil needle => rw [BoundedQueue.step, step, contents_popUntil]
  | chunks => rw [BoundedQueue.step, step, readChunks_eq]

end State

end Ringbuffer

/-- Every run of the ring buffers is one of the bounded list if its pushed values keep their signs
to themselves and its blocks are copied as a whole. Writing a packed item keeps its neighbours
exactly if its sign reaches none of them that it changes. -/
theorem ringbuffers_bounded_lists (c : PackedRingbuffer) (r : Ringbuffer) :
    (∀ (memory : ℕ → c.Word) (calls : List (ItemCall c.Item)),
      Meets (next PackedRingbuffer.State.step) PackedRingbuffer.State.CallContained
          (.setup memory) calls →
        (run (next PackedRingbuffer.State.step) (.setup memory) calls).contents =
            run (next (itemStep (c.size - 1))) [] calls ∧
          replies PackedRingbuffer.State.step (.setup memory) calls =
            replies (itemStep (c.size - 1)) [] calls) ∧
      (∀ (buffer : ℕ → c.Word) (idx : ℕ) (val : c.Item),
        (∀ j, j ≠ idx → c.readAligned (c.writeAligned buffer idx val) j = c.readAligned buffer j) ↔
          (PackedRingbuffer.isNegative val = true → ∀ j,
            j / c.itemsPerSlot = idx / c.itemsPerSlot → idx < j →
              c.readAligned buffer j = BitVec.allOnes _)) ∧
      ∀ (memory : Ringbuffer.Memory) (calls : List (Call r.Item)),
        (∀ call ∈ calls, Ringbuffer.State.BlockCopied r call) →
          (run (next Ringbuffer.State.step) (.setup memory) calls).contents =
              run (next (step (r.bufSize - 1))) [] calls ∧
            replies Ringbuffer.State.step (.setup memory) calls =
              replies (step (r.bufSize - 1)) [] calls := by
  refine ⟨fun memory calls h => ?_, fun buffer idx val => ?_, fun memory calls h => ?_⟩
  · have hempty : (PackedRingbuffer.State.setup memory : PackedRingbuffer.State c).contents = [] :=
      contents_self
    rw [← hempty]
    exact h.simulates PackedRingbuffer.State.step_eq
  · constructor
    · intro h hneg j hword hlt
      rw [← h j (Nat.ne_of_gt hlt), PackedRingbuffer.readAligned_writeAligned,
        if_neg (Nat.ne_of_gt hlt), if_pos ⟨hword, hlt, hneg⟩]
    · intro h j hne
      rw [PackedRingbuffer.readAligned_writeAligned, if_neg hne]
      split
      · rename_i hsign
        exact (h hsign.2.2 j hsign.1 hsign.2.1).symm
      · rfl
  · have hempty : (Ringbuffer.State.setup memory : Ringbuffer.State r).contents = [] :=
      contents_self
    rw [← hempty]
    exact (Meets.of_forall h _).simulates Ringbuffer.State.step_eq

theorem one_divides : 4 % 1 = 0 := rfl

theorem one_power : 1 &&& (1 - 1) = 0 := rfl

theorem four_power : 4 &&& (4 - 1) = 0 := rfl

theorem four_bytes : 0 < 4 := Nat.zero_lt_succ 3

/-- Bytes of a signed type, four of them in a word. -/
def signedBytes : PackedRingbuffer := ⟨1, true, 4, 4, one_divides, one_power, four_power,
  Nat.one_pos, four_bytes, four_bytes⟩

/-- Items of two bytes. -/
def shorts : Ringbuffer := ⟨2, 4, four_power, Nat.two_pos, four_bytes⟩

/-- Nothing is behind the last byte of a word. -/
theorem last_of_word_kept :
    (run (next PackedRingbuffer.State.step) (.setup fun _ => 0 : PackedRingbuffer.State signedBytes)
        [.push 1, .push 2, .push 3, .push (-1)]).contents = [2, 3, -1] :=
  ((ringbuffers_bounded_lists signedBytes shorts).1 (fun _ => 0)
    [.push 1, .push 2, .push 3, .push (-1)] (by decide)).1

theorem cut_block :
    (Ringbuffer.State.pushN (.setup fun _ => 0 : Ringbuffer.State shorts) [258]).contents =
      [2] := by
  have hcopy := @Ringbuffer.State.copyBlock_eq shorts (fun _ => 0) ⟨0, shorts.size_pos⟩ [258]
    (by decide)
  rw [Ringbuffer.State.pushN, if_neg (by decide), Ringbuffer.State.setup, hcopy]
  decide

/-- A byte below zero overwrites the bytes behind it in the first word, and of an item of two bytes
only one is copied. -/
theorem neighbours_overwritten :
    (run (next PackedRingbuffer.State.step) (.setup fun _ => 0 : PackedRingbuffer.State signedBytes)
        [.push 1, .push 2, .push 3, .push 4, .push (-1)]).contents = [-1, -1, -1] ∧
      run (next (itemStep (signedBytes.size - 1))) []
        [.push (1 : signedBytes.Item), .push 2, .push 3, .push 4, .push (-1)] = [3, 4, -1] ∧
      (run (next Ringbuffer.State.step) (.setup fun _ => 0 : Ringbuffer.State shorts)
        [.pushN [258]]).contents = [2] ∧
      run (next (step (shorts.bufSize - 1))) [] [.pushN [(258 : shorts.Item)]] = [258] :=
  ⟨by decide, by decide, cut_block, by decide⟩

end Esp32Firmware.Tools
