import Esp32Firmware.Library.BoundedQueue

/-!
# Ring buffers in bank switched memory

A ring buffer of bytes whose memory can only be mapped block by block. Dropping the items up to a
needle counts from the start of the buffer, also if the needle is in a later block.
-/

namespace Esp32Firmware.Tools

open BoundedQueue

/-- A set up buffer: its size is a power of two and at least two blocks. The block size is that of
the bank switched memory. -/
structure HimemBuffer where
  blockSizeBits : ℕ
  bufSizeBits : ℕ
  two_blocks : blockSizeBits < bufSizeBits

namespace HimemBuffer

abbrev Byte := BitVec 8

def blockSize (b : HimemBuffer) : ℕ := 2 ^ b.blockSizeBits

def bufSize (b : HimemBuffer) : ℕ := 2 ^ b.bufSizeBits

def blockCount (b : HimemBuffer) : ℕ := b.bufSize / b.blockSize

theorem bufSize_pos (b : HimemBuffer) : 0 < b.bufSize := Nat.two_pow_pos _

/-- The members of a buffer. The byte behind the last one is at `end`. -/
structure State (b : HimemBuffer) where
  start : Fin b.bufSize
  stop : Fin b.bufSize
  memory : ℕ → Byte

namespace State

section

variable {b : HimemBuffer}

def modBufSize (b : HimemBuffer) (x : ℕ) : Fin b.bufSize :=
  ⟨x &&& (b.bufSize - 1), by
    have h := @Nat.and_le_right x (b.bufSize - 1)
    have hpos := b.bufSize_pos
    omega⟩

def modBlockSize (b : HimemBuffer) (x : ℕ) : ℕ := x &&& (b.blockSize - 1)

def divBlockSize (b : HimemBuffer) (x : ℕ) : ℕ := x >>> b.blockSizeBits

def setup (memory : ℕ → Byte) : State b := ⟨⟨0, b.bufSize_pos⟩, ⟨0, b.bufSize_pos⟩, memory⟩

def clear (s : State b) : State b :=
  { s with start := ⟨0, b.bufSize_pos⟩, stop := ⟨0, b.bufSize_pos⟩ }

def empty (s : State b) : Bool := s.start = s.stop

def size (b : HimemBuffer) : ℕ := b.bufSize - 1

def used (s : State b) : ℕ := modBufSize b (b.bufSize + s.stop - s.start)

def free (s : State b) : ℕ := size b - s.used

def memcpy (memory : ℕ → Byte) (dst : ℕ) (src : List Byte) (n : ℕ) : ℕ → Byte := fun p =>
  if dst ≤ p ∧ p < dst + n then src.getD (p - dst) 0 else memory p

/-- Copies block by block. -/
def write (b : HimemBuffer) (memory : ℕ → Byte) (offset : ℕ) (src : List Byte) : ℕ → Byte :=
  if _h : src.length > 0 then
    let offsetInBlock := modBlockSize b offset
    let blockOffset := offset - offsetInBlock
    let fillsBlock := b.blockSize - offsetInBlock ≤ src.length
    let toWrite := if fillsBlock then b.blockSize - offsetInBlock else src.length
    write b (memcpy memory (blockOffset + offsetInBlock) src toWrite) (offset + toWrite)
      (src.drop toWrite)
  else memory
termination_by src.length
decreasing_by
  have hlt : offset &&& (b.blockSize - 1) ≤ b.blockSize - 1 := Nat.and_le_right
  have hpos : 0 < b.blockSize := Nat.two_pow_pos _
  rw [List.length_drop, modBlockSize]
  split <;> omega

/-- The pieces of a block up to the end of the memory, then the rest: the memory and the position
behind the block. -/
def pushLoop (memory : ℕ → Byte) (stop : Fin b.bufSize) (val : List Byte) : (ℕ → Byte) × ℕ :=
  if b.bufSize < stop + val.length then
    let toWrite := b.bufSize - stop
    pushLoop (write b memory stop (val.take toWrite)) ⟨0, b.bufSize_pos⟩ (val.drop toWrite)
  else (write b memory stop val, stop + val.length)
termination_by val.length
decreasing_by
  rw [List.length_drop]
  omega

def pushN (s : State b) (val : List Byte) : State b :=
  if val.length > size b then s
  else
    let fits := val.length ≤ s.free
    let written := pushLoop s.memory s.stop val
    let stop := modBufSize b written.2
    if fits then ⟨s.start, stop, written.1⟩ else ⟨modBufSize b (stop + 1), stop, written.1⟩

def usedBlocks (s : State b) : ℕ :=
  if s.empty then 0
  else
    let startBlock := divBlockSize b s.start
    let endBlock := divBlockSize b s.stop
    let endOffset := modBlockSize b s.stop
    endBlock + (if s.stop ≥ s.start then 0 else b.blockCount) - startBlock +
      if endOffset = 0 then 0 else 1

/-- The position and the length of the used part of a block. -/
def mapBlock (s : State b) (blockIdx : ℕ) : ℕ × ℕ :=
  let startBlock := divBlockSize b s.start
  let startOffset := modBlockSize b s.start
  let endBlock := divBlockSize b s.stop
  let endOffset := modBlockSize b s.stop
  let block := (startBlock + blockIdx) % b.blockCount
  let result := block <<< b.blockSizeBits
  let result := if blockIdx = 0 then result + startOffset else result
  let blockLen := if blockIdx = 0 then b.blockSize - startOffset else b.blockSize
  let blockLen := if block = endBlock ∧ (s.start < s.stop ∨ blockIdx ≠ 0) then
    blockLen - (b.blockSize - endOffset) else blockLen
  (result, blockLen)

/-- Drops the bytes up to the first that is the needle, all bytes if there is none. -/
def popUntil (needle : Byte) (s : State b) : State b :=
  let found := (List.range s.usedBlocks).findSome? fun blockIdx =>
    let block := s.mapBlock blockIdx
    ((List.range block.2).find? fun i => s.memory (block.1 + i) = needle).map fun i =>
      blockIdx * b.blockSize + i
  match found with
  | some offset => { s with start := modBufSize b (s.start + offset + 1) }
  | none => s.clear

/-- The bytes from the oldest to the newest. -/
def contents (s : State b) : List Byte :=
  BoundedQueue.contents b.bufSize s.memory s.start s.stop

end

section

variable {b : HimemBuffer}

theorem coe_modBufSize (x : ℕ) : (modBufSize b x : ℕ) = x % b.bufSize :=
  Nat.and_two_pow_sub_one_eq_mod x b.bufSizeBits

theorem modBlockSize_eq (x : ℕ) : modBlockSize b x = x % b.blockSize :=
  Nat.and_two_pow_sub_one_eq_mod x b.blockSizeBits

theorem divBlockSize_eq (x : ℕ) : divBlockSize b x = x / b.blockSize :=
  Nat.shiftRight_eq_div_pow x b.blockSizeBits

theorem blockSize_pos : 0 < b.blockSize := Nat.two_pow_pos _

theorem blockCount_mul : b.blockCount * b.blockSize = b.bufSize :=
  Nat.div_mul_cancel (Nat.pow_dvd_pow 2 b.two_blocks.le)

theorem used_eq (s : State b) : s.used = BoundedQueue.used b.bufSize s.start s.stop := by
  rw [used, coe_modBufSize, BoundedQueue.used]
  split
  · exact Nat.mod_eq_of_lt (by omega)
  · rw [show b.bufSize + (s.stop : ℕ) - s.start = s.stop - s.start + b.bufSize by omega,
      Nat.add_mod_right, Nat.mod_eq_of_lt (by omega)]

theorem empty_iff (s : State b) : s.empty = true ↔ s.used = 0 := by
  rw [used_eq, BoundedQueue.used_eq_zero s.start.isLt, empty, decide_eq_true_eq,
    Fin.ext_iff]

@[simp] theorem length_contents (s : State b) : s.contents.length = s.used := by
  rw [used_eq]
  exact BoundedQueue.length_contents

/-- A copy followed by the copy of the rest. -/
theorem memcpy_memcpy (memory : ℕ → Byte) (dst : ℕ) (src : List Byte) {n : ℕ}
    (h : n ≤ src.length) :
    memcpy (memcpy memory dst src n) (dst + n) (src.drop n) (src.drop n).length =
      memcpy memory dst src src.length := by
  ext p : 1
  rw [memcpy, memcpy, memcpy, List.length_drop, List.getD_eq_getElem?_getD, List.getElem?_drop,
    ← List.getD_eq_getElem?_getD]
  by_cases hsecond : dst + n ≤ p ∧ p < dst + n + (src.length - n)
  · rw [if_pos hsecond, if_pos (by omega), show n + (p - (dst + n)) = p - dst by omega]
  · rw [if_neg hsecond]
    by_cases hfirst : dst ≤ p ∧ p < dst + n
    · rw [if_pos hfirst, if_pos (by omega)]
    · rw [if_neg hfirst, if_neg (by omega)]

/-- Writing block by block is writing everything. -/
theorem write_eq (memory : ℕ → Byte) (offset : ℕ) (src : List Byte) :
    write b memory offset src = memcpy memory offset src src.length := by
  induction memory, offset, src using write.induct b with
  | case1 memory offset src hsrc offsetInBlock blockOffset fillsBlock toWrite ih =>
    have hle : toWrite ≤ src.length := by
      rw [show toWrite = if fillsBlock then b.blockSize - offsetInBlock else src.length from rfl]
      split
      · assumption
      · exact le_rfl
    have hoffset : blockOffset + offsetInBlock = offset :=
      Nat.sub_add_cancel Nat.and_le_left
    rw [write, dif_pos hsrc]
    refine Eq.trans ih ?_
    rw [hoffset, memcpy_memcpy memory offset src hle]
  | case2 memory offset src hsrc =>
    rw [write, dif_neg hsrc]
    ext p : 1
    exact (if_neg (by omega)).symm

variable {val : List Byte}

section

variable (memory : ℕ → Byte) (stop : Fin b.bufSize) (h : val.length ≤ b.bufSize)
include memory stop h

/-- A block that fits into the memory is written in at most two pieces. -/
theorem pushLoop_eq :
    pushLoop memory stop val =
      if b.bufSize < stop + val.length then
        (write b (write b memory stop (val.take (b.bufSize - stop))) 0
          (val.drop (b.bufSize - stop)), stop + val.length - b.bufSize)
      else (write b memory stop val, stop + val.length) := by
  rw [pushLoop]
  split
  · rename_i hlong
    have hlength : (val.drop (b.bufSize - stop)).length = stop + val.length - b.bufSize := by
      rw [List.length_drop]
      omega
    rw [pushLoop, if_neg (by rw [hlength, Nat.zero_add]; omega), hlength, Nat.zero_add]
  · rfl

theorem pushLoop_stop :
    (pushLoop memory stop val).2 % b.bufSize = (stop + val.length) % b.bufSize := by
  rw [pushLoop_eq memory stop h]
  split
  · rename_i hlong
    exact (Nat.mod_eq_sub_mod hlong.le).symm
  · rfl

theorem pushLoop_memory {j : ℕ} (hj : j < b.bufSize) :
    (pushLoop memory stop val).1 j =
      if stop ≤ j ∧ j < stop + val.length then val.getD (j - stop) 0
      else if j + b.bufSize < stop + val.length then val.getD (j + b.bufSize - stop) 0
      else memory j := by
  rw [pushLoop_eq memory stop h]
  split
  · rename_i hlong
    dsimp only
    rw [write_eq, write_eq, memcpy, memcpy, List.length_drop, List.length_take]
    by_cases hsecond : j + b.bufSize < stop + val.length
    · rw [if_pos (by omega), if_neg (by omega), if_pos hsecond, List.getD_eq_getElem?_getD,
        List.getElem?_drop, ← List.getD_eq_getElem?_getD,
        show b.bufSize - stop + (j - 0) = j + b.bufSize - stop by omega]
    · rw [if_neg (by omega), if_neg hsecond]
      by_cases hfirst : (stop : ℕ) ≤ j
      · rw [if_pos (by omega), if_pos (by omega), List.getD_eq_getElem?_getD,
          List.getElem?_take_of_lt (by omega), ← List.getD_eq_getElem?_getD]
      · rw [if_neg (by omega), if_neg (by omega)]
  · rename_i hlong
    dsimp only
    rw [write_eq, memcpy]
    by_cases hfirst : stop ≤ j ∧ j < stop + val.length
    · rw [if_pos hfirst, if_pos hfirst]
    · rw [if_neg hfirst, if_neg hfirst, if_neg (by omega)]

end

/-- A block that is not longer than the buffer pushes the oldest bytes out. -/
theorem contents_pushN (s : State b) (h : val.length ≤ size b) :
    (s.pushN val).contents = BoundedQueue.pushN (size b) s.contents val := by
  have hsize := b.bufSize_pos
  have hlength : val.length < b.bufSize := by rw [size] at h; omega
  have happends := Appends.of_pieces s.start.isLt s.stop.isLt hlength
    (fun j hj => pushLoop_memory s.memory s.stop hlength.le hj)
  rw [contents, size, contents, ← happends.contents_eq s.start.isLt s.stop.isLt, pushN,
    if_neg (Nat.not_lt.mpr h), ← used_eq, ← pushLoop_stop s.memory s.stop hlength.le]
  have hused := used_lt s.start.isLt s.stop.isLt
  rw [← used_eq] at hused
  have hfits : val.length ≤ s.free ↔ s.used + val.length ≤ b.bufSize - 1 := by
    rw [free, size]
    omega
  simp only [hfits]
  split <;> simp only [coe_modBufSize]

theorem pushN_stop (s : State b) (h : val.length ≤ size b) :
    ((s.pushN val).stop : ℕ) = (s.stop + val.length) % b.bufSize := by
  have hlength : val.length ≤ b.bufSize := by rw [size] at h; omega
  rw [pushN, if_neg (Nat.not_lt.mpr h), ← pushLoop_stop s.memory s.stop hlength, ← coe_modBufSize]
  dsimp only
  split <;> rfl

/-- A block that does not fit moves the start behind its end. -/
theorem pushN_start {s : State b} (h : val.length ≤ size b) (hfits : s.free < val.length) :
    ((s.pushN val).start : ℕ) = (s.stop + val.length + 1) % b.bufSize := by
  have hlength : val.length ≤ b.bufSize := by rw [size] at h; omega
  rw [pushN, if_neg (Nat.not_lt.mpr h)]
  simp only [if_neg (Nat.not_le.mpr hfits), coe_modBufSize]
  rw [pushLoop_stop s.memory s.stop hlength, Nat.mod_add_mod]

end

variable {b : HimemBuffer}

/-- The number of the block of the end, counted from the block of the start. -/
def lastBlock (s : State b) : ℕ :=
  s.stop / b.blockSize + (if s.stop ≥ s.start then 0 else b.blockCount) - s.start / b.blockSize

/-- Where the used part of a block starts and ends, counted from the block of the start. -/
def lower (s : State b) (blockIdx : ℕ) : ℕ := max (blockIdx * b.blockSize) (s.start % b.blockSize)

def upper (s : State b) (blockIdx : ℕ) : ℕ :=
  min ((blockIdx + 1) * b.blockSize) (s.start % b.blockSize + s.used)

theorem block_lt {x : ℕ} (h : x < b.bufSize) : x / b.blockSize < b.blockCount :=
  Nat.div_lt_of_lt_mul (by rwa [Nat.mul_comm, blockCount_mul])

theorem offset_add_used (s : State b) :
    s.start % b.blockSize + s.used = s.lastBlock * b.blockSize + s.stop % b.blockSize := by
  have hstart := Nat.div_add_mod s.start b.blockSize
  have hstop := Nat.div_add_mod s.stop b.blockSize
  have hle := fun h : s.start ≤ s.stop => Nat.mul_le_mul_right b.blockSize
    (Nat.div_le_div_right (c := b.blockSize) (Fin.le_def.mp h))
  rw [Nat.mul_comm] at hstart hstop
  rw [used_eq, BoundedQueue.used, lastBlock, Nat.sub_mul, Nat.add_mul]
  by_cases hwrap : s.stop < s.start
  · rw [if_pos (Fin.lt_def.mp hwrap), if_neg (Fin.not_le.mpr hwrap), blockCount_mul]
    omega
  · have hge := Fin.not_lt.mp hwrap
    rw [if_neg (mt Fin.lt_def.mpr hwrap), if_pos hge, Nat.zero_mul]
    omega

variable {s : State b} {blockIdx n : ℕ} {needle : Byte}

theorem usedBlocks_eq (h : s.empty = false) :
    s.usedBlocks = s.lastBlock + if s.stop % b.blockSize = 0 then 0 else 1 := by
  rw [usedBlocks, if_neg (by simp [h])]
  simp only [divBlockSize_eq, modBlockSize_eq]
  rfl

/-- Every used block has a used part. -/
theorem lt_of_usedBlocks (h : s.empty = false) :
    blockIdx < s.usedBlocks ↔ blockIdx * b.blockSize < s.start % b.blockSize + s.used := by
  have hpos := @blockSize_pos b
  have hoffset := Nat.mod_lt s.stop hpos
  rw [usedBlocks_eq h, offset_add_used]
  constructor
  · intro hlt
    rcases Nat.eq_zero_or_pos (s.stop % b.blockSize) with hzero | hsome
    · rw [if_pos hzero, Nat.add_zero] at hlt
      have := Nat.mul_lt_mul_of_pos_right hlt hpos
      omega
    · rw [if_neg (by omega)] at hlt
      have := Nat.mul_le_mul_right b.blockSize (Nat.le_of_lt_succ hlt)
      omega
  · intro hlt
    by_contra hge
    rcases Nat.lt_or_ge s.lastBlock blockIdx with hlast | hlast
    · have := Nat.mul_le_mul_right b.blockSize hlast
      rw [Nat.succ_mul] at this
      omega
    · have := Nat.mul_le_mul_right b.blockSize hlast
      split at hge
      · have := Nat.mul_le_mul_right b.blockSize (Nat.le_of_not_lt hge)
        rw [Nat.add_zero] at this
        omega
      · omega

/-- The mapped block is the one of the end, and it is cut there, exactly if it is the last one. -/
theorem isLast_iff (h : s.empty = false) (hidx : blockIdx < s.usedBlocks) :
    ((s.start / b.blockSize + blockIdx) % b.blockCount = s.stop / b.blockSize ∧
      (s.start < s.stop ∨ blockIdx ≠ 0)) ↔ blockIdx = s.lastBlock := by
  have hstart := block_lt s.start.isLt
  have hstop := block_lt s.stop.isLt
  have hne : (s.start : ℕ) ≠ s.stop := fun heq => by
    rw [empty, decide_eq_false_iff_not] at h
    exact h (Fin.ext heq)
  have hle : blockIdx ≤ s.lastBlock := by
    rw [usedBlocks_eq h] at hidx
    split at hidx <;> omega
  rw [lastBlock] at hle ⊢
  have hdiv := fun h : (s.start : ℕ) ≤ s.stop => Nat.div_le_div_right (c := b.blockSize) h
  have hdiv' := fun h : (s.stop : ℕ) ≤ s.start => Nat.div_le_div_right (c := b.blockSize) h
  generalize (s.start : ℕ) / b.blockSize = startBlock at *
  generalize (s.stop : ℕ) / b.blockSize = endBlock at *
  by_cases hwrap : s.stop < s.start
  · have hwrapped := Fin.lt_def.mp hwrap
    rw [if_neg (Fin.not_le.mpr hwrap)] at hle ⊢
    rcases Nat.lt_or_ge (startBlock + blockIdx) b.blockCount with hlt | hge
    · rw [Nat.mod_eq_of_lt hlt]
      omega
    · rw [Nat.mod_eq_sub_mod hge, Nat.mod_eq_of_lt (by omega)]
      omega
  · have hge : s.start ≤ s.stop := Fin.not_lt.mp hwrap
    rw [if_pos hge] at hle ⊢
    rw [Nat.mod_eq_of_lt (by omega)]
    omega

theorem mapBlock_length (h : s.empty = false) (hidx : blockIdx < s.usedBlocks) :
    (s.mapBlock blockIdx).2 = s.upper blockIdx - s.lower blockIdx := by
  have hpos := @blockSize_pos b
  have hoffset := Nat.mod_lt s.start hpos
  have hused := s.offset_add_used
  have hlast := isLast_iff h hidx
  have hle : blockIdx ≤ s.lastBlock := by
    rw [usedBlocks_eq h] at hidx
    split at hidx <;> omega
  rw [mapBlock, upper, lower]
  simp only [divBlockSize_eq, modBlockSize_eq]
  rw [hused]
  by_cases heq : blockIdx = s.lastBlock
  · rw [if_pos (hlast.mpr heq), heq, Nat.add_mul, Nat.one_mul]
    rcases Nat.eq_zero_or_pos s.lastBlock with hzero | hsome
    · rw [if_pos hzero, hzero, Nat.zero_mul]
      omega
    · have := Nat.le_mul_of_pos_left b.blockSize hsome
      rw [if_neg (by omega)]
      omega
  · have hlt : blockIdx < s.lastBlock := by omega
    have := Nat.mul_le_mul_right b.blockSize hlt
    rw [Nat.succ_mul] at this
    rw [if_neg (mt hlast.mp heq), Nat.add_mul, Nat.one_mul]
    rcases Nat.eq_zero_or_pos blockIdx with hzero | hsome
    · rw [if_pos hzero, hzero, Nat.zero_mul]
      omega
    · have := Nat.le_mul_of_pos_left b.blockSize hsome
      rw [if_neg (by omega)]
      omega

theorem position_mod (block : ℕ) {r : ℕ} (hr : r < b.blockSize) :
    (b.blockSize * block + r) % b.bufSize = b.blockSize * (block % b.blockCount) + r := by
  rw [← blockCount_mul, Nat.mul_comm b.blockCount, Nat.mod_mul, Nat.mul_add_mod,
    Nat.mod_eq_of_lt hr, Nat.mul_add_div blockSize_pos, Nat.div_eq_of_lt hr, Nat.add_zero,
    Nat.add_comm]

/-- The mapped bytes are those of the ring. -/
theorem mapBlock_position {i : ℕ} (hi : s.lower blockIdx + i < s.upper blockIdx) :
    (s.mapBlock blockIdx).1 + i =
      (s.start / b.blockSize * b.blockSize + (s.lower blockIdx + i)) % b.bufSize := by
  have hpos := @blockSize_pos b
  have hoffset := Nat.mod_lt s.start hpos
  have hbound : s.lower blockIdx + i < (blockIdx + 1) * b.blockSize :=
    lt_of_lt_of_le hi (Nat.min_le_left _ _)
  obtain ⟨r, hr⟩ := Nat.exists_eq_add_of_le (Nat.le_trans
    (Nat.le_max_left (blockIdx * b.blockSize) (s.start % b.blockSize))
    (Nat.le_add_right (s.lower blockIdx) i))
  rw [Nat.add_mul, Nat.one_mul] at hbound
  have hsum : s.start / b.blockSize * b.blockSize + (s.lower blockIdx + i) =
      b.blockSize * (s.start / b.blockSize + blockIdx) + r := by
    rw [hr, Nat.mul_add, Nat.mul_comm b.blockSize, Nat.mul_comm b.blockSize]
    omega
  rw [hsum, position_mod _ (by omega), mapBlock]
  simp only [divBlockSize_eq, modBlockSize_eq, Nat.shiftLeft_eq]
  rw [← blockSize, Nat.mul_comm b.blockSize]
  rw [lower] at hr
  rcases Nat.eq_zero_or_pos blockIdx with hzero | hsome
  · rw [if_pos hzero]
    rw [hzero, Nat.zero_mul] at hr
    omega
  · have := Nat.le_mul_of_pos_left b.blockSize hsome
    rw [if_neg (by omega)]
    omega

/-- What `pop_until` adds to the start for a needle behind `n` bytes. From the second block on it
counts the bytes in front of the start in its block once more. -/
def skipped (s : State b) (n : ℕ) : ℕ :=
  if s.start % b.blockSize + n < b.blockSize then n else s.start % b.blockSize + n

theorem findSome?_range {α : Type*} {f : ℕ → Option α} {k : ℕ} {x : α} (hk : k < n)
    (hx : f k = some x) (h : ∀ i < k, f i = none) : (List.range n).findSome? f = some x := by
  induction n with
  | zero => exact absurd hk (Nat.not_lt_zero _)
  | succ n ih =>
    rw [List.range_succ, List.findSome?_append]
    rcases Nat.lt_or_ge k n with hlt | hge
    · rw [ih hlt, Option.some_or]
    · obtain rfl : k = n := by omega
      have hnone : (List.range k).findSome? f = none :=
        List.findSome?_eq_none_iff.mpr fun i hi => h i (List.mem_range.mp hi)
      rw [hnone, Option.none_or, List.findSome?_singleton, hx]

theorem popUntil_eq (hn : n < s.used) (hfound : s.memory ((s.start + n) % b.bufSize) = needle)
    (hfirst : ∀ i < n, s.memory ((s.start + i) % b.bufSize) ≠ needle) :
    s.popUntil needle = { s with start := modBufSize b (s.start + s.skipped n + 1) } := by
  have hempty : s.empty = false := by
    by_contra h
    have := s.empty_iff.mp (Bool.eq_true_of_not_eq_false h)
    omega
  have hpos := @blockSize_pos b
  have hoffset := Nat.mod_lt s.start hpos
  have hstart := Nat.div_add_mod s.start b.blockSize
  rw [Nat.mul_comm] at hstart
  have hdiv := Nat.div_add_mod (s.start % b.blockSize + n) b.blockSize
  have hmod := Nat.mod_lt (s.start % b.blockSize + n) hpos
  generalize hk : (s.start % b.blockSize + n) / b.blockSize = k at hdiv
  rw [Nat.mul_comm] at hdiv
  have hused : k < s.usedBlocks := (lt_of_usedBlocks hempty).mpr (by omega)
  -- a byte of a used block in front of the needle
  have hbefore : ∀ blockIdx i, blockIdx ≤ k → s.lower blockIdx + i < s.upper blockIdx →
      s.lower blockIdx + i < s.start % b.blockSize + n →
      s.memory ((s.mapBlock blockIdx).1 + i) ≠ needle := by
    intro blockIdx i hle hi hlt
    have hlower : s.start % b.blockSize ≤ s.lower blockIdx := Nat.le_max_right _ _
    rw [mapBlock_position hi, show s.start / b.blockSize * b.blockSize + (s.lower blockIdx + i) =
      s.start + (s.lower blockIdx + i - s.start % b.blockSize) by omega]
    exact hfirst _ (by omega)
  have hlower : s.lower k ≤ s.start % b.blockSize + n := Nat.max_le.mpr ⟨by omega, by omega⟩
  have hupper : s.start % b.blockSize + n < s.upper k :=
    Nat.lt_min.mpr ⟨by rw [Nat.add_mul, Nat.one_mul]; omega, by omega⟩
  have hsearch : (List.range s.usedBlocks).findSome? (fun blockIdx =>
      ((List.range (s.mapBlock blockIdx).2).find? fun i =>
        s.memory ((s.mapBlock blockIdx).1 + i) = needle).map fun i =>
          blockIdx * b.blockSize + i) =
        some (k * b.blockSize + (s.start % b.blockSize + n - s.lower k)) := by
    apply findSome?_range hused
    · have hfind : ((List.range (s.mapBlock k).2).find? fun i =>
          s.memory ((s.mapBlock k).1 + i) = needle) =
            some (s.start % b.blockSize + n - s.lower k) := by
        rw [List.find?_range_eq_some, List.mem_range, mapBlock_length hempty hused]
        refine ⟨?_, by omega, ?_⟩
        · rw [decide_eq_true_eq, mapBlock_position (by omega), ← hfound]
          congr 2
          omega
        · intro i hi
          rw [Bool.not_eq_true', decide_eq_false_iff_not]
          exact hbefore k i le_rfl (by omega) (by omega)
      rw [hfind, Option.map_some]
    · intro blockIdx hlt
      rw [Option.map_eq_none_iff, List.find?_range_eq_none]
      intro i hi
      rw [mapBlock_length hempty (hlt.trans hused)] at hi
      have hle : (blockIdx + 1) * b.blockSize ≤ k * b.blockSize := Nat.mul_le_mul_right _ hlt
      have hup : s.upper blockIdx ≤ (blockIdx + 1) * b.blockSize := Nat.min_le_left _ _
      rw [Bool.not_eq_true', decide_eq_false_iff_not]
      exact hbefore blockIdx i hlt.le (by omega) (by omega)
  have hskip : k * b.blockSize + (s.start % b.blockSize + n - s.lower k) = s.skipped n := by
    rw [skipped, lower]
    split
    · rename_i hfirstBlock
      have hzero : k = 0 := by
        rw [← hk]
        exact Nat.div_eq_of_lt hfirstBlock
      rw [hzero, Nat.zero_mul]
      omega
    · have hone : 1 ≤ k := by
        rw [← hk]
        exact (Nat.one_le_div_iff hpos).mpr (by omega)
      have := Nat.le_mul_of_pos_left b.blockSize hone
      omega
  rw [popUntil]
  rw [hsearch, hskip]

/-- Popping drops the bytes up to the needle exactly if the start is at the start of a block or
the needle is in the same block. -/
theorem contents_popUntil_iff (h : needle ∈ s.contents) :
    (s.popUntil needle).contents = BoundedQueue.popUntil needle s.contents ↔
      s.start % b.blockSize = 0 ∨
        s.start % b.blockSize + s.contents.idxOf needle < b.blockSize := by
  have hn := List.idxOf_lt_length_of_mem h
  rw [length_contents] at hn
  have hget : ∀ i < s.used, s.contents[i]? = some (s.memory ((s.start + i) % b.bufSize)) := by
    intro i hi
    rw [used_eq] at hi
    exact getElem?_contents hi
  generalize hidx : s.contents.idxOf needle = n at hn
  have hfound : s.memory ((s.start + n) % b.bufSize) = needle := by
    have := List.getElem?_idxOf h
    rw [hidx, hget n hn] at this
    exact Option.some.inj this
  have hfirst : ∀ i < n, s.memory ((s.start + i) % b.bufSize) ≠ needle := by
    intro i hi heq
    have hlt : i < s.contents.length := by rw [length_contents]; omega
    have hi' := hget i (by omega)
    rw [heq, List.getElem?_eq_getElem hlt] at hi'
    have hbeq : (s.contents[i] == needle) = false :=
      List.not_of_lt_findIdx (hidx.symm ▸ hi : i < s.contents.idxOf needle)
    exact absurd (Option.some.inj hi') (ne_of_beq_false hbeq)
  have hpos := @blockSize_pos b
  have hused := s.used_eq
  have hoffset := Nat.mod_lt s.start hpos
  have hblock : b.blockSize < b.bufSize := Nat.pow_lt_pow_right (by decide) b.two_blocks
  rw [popUntil_eq hn hfound hfirst, popUntil_eq_drop, hidx, contents, coe_modBufSize, contents,
    ← contents_drop s.start.isLt s.stop.isLt (by omega), skipped]
  constructor
  · intro heq
    by_contra hnot
    rw [not_or] at hnot
    have hlength := congrArg List.length heq
    rw [if_neg hnot.2, BoundedQueue.length_contents, BoundedQueue.length_contents] at hlength
    have hstart := start_eq_of_used_eq (Nat.mod_lt _ b.bufSize_pos) (Nat.mod_lt _ b.bufSize_pos)
      s.stop.isLt hlength
    rw [show s.start + (s.start % b.blockSize + n) + 1 =
      s.start + (n + 1) + s.start % b.blockSize by omega] at hstart
    exact slot_ne (i := 0) (Nat.pos_of_ne_zero hnot.1) (by omega) hstart.symm
  · rintro (hzero | hsame)
    · rw [hzero, Nat.zero_add, ite_self]
      rfl
    · rw [if_pos hsame]
      rfl

end State

end HimemBuffer

end Esp32Firmware.Tools
