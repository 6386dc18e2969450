import Esp32Firmware.Library.Regions
import Mathlib.Data.Nat.Bitwise

/-!
# The arena allocator

Memory that is never freed is cut from blocks. A request searches the blocks for room, appends a
block if there is none, and is handed to the underlying allocator if it is larger than a block.
-/

namespace Esp32Firmware.Tools

/-- The arithmetic of `size_t`. -/
def sizeT (n : ℕ) : ℕ := n % 2 ^ 32

/-- The underlying allocator at the time of a call. It gets the alignment and the size, its answer
may depend on the memory in use, which it does not hand out again. -/
structure Allocator where
  alignedAllocFn : List Region → ℕ → ℕ → Option ℕ
  aligned : ∀ inUse align size p, alignedAllocFn inUse align size = some p →
    align.isPowerOfTwo → align ∣ p
  separate : ∀ inUse align size p, alignedAllocFn inUse align size = some p →
    ∀ r ∈ inUse, r.Separate ⟨p, size⟩
  in_space : ∀ inUse align size p, alignedAllocFn inUse align size = some p → p + size ≤ 2 ^ 32

namespace Arena

def maxAlignment : ℕ := 16

def canarySize : ℕ := 4

def headerSize : ℕ := 16

/-- The arguments of the constructor, the alignment of `max_align_t` and whether `DEBUG_FS_ENABLE`
is defined. A block with its header is addressable. -/
structure Config where
  minAlignment : ℕ
  firstBlockCapacity : ℕ
  blockCapacity : ℕ
  maxAlign : ℕ
  debugFs : Bool
  maxAlign_power : maxAlign.isPowerOfTwo
  maxAlign_le : maxAlign ≤ maxAlignment
  first_addressable : headerSize + firstBlockCapacity < 2 ^ 32
  block_addressable : headerSize + blockCapacity < 2 ^ 32

/-- A block with its header. -/
structure Block where
  header : ℕ
  capacity : ℕ
  used : ℕ

/-- Where the memory of a block starts: behind its header. -/
def Block.memory (b : Block) : ℕ := b.header + headerSize

end Arena

open Arena

/-- The list of blocks with the statistics, and the regions that were passed through. -/
structure Arena where
  blocks : List Block
  direct : List Region
  allocs : ℕ
  paddingOverhead : ℕ
  allocatedBlocks : ℕ

namespace Arena

def adoptMemory (mem size : ℕ) : Block := ⟨mem, size - headerSize, 0⟩

/-- A block and its header. -/
def Block.extent (b : Block) : Region := ⟨b.header, headerSize + b.capacity⟩

/-- The memory the arena has got. -/
def inUse (direct : List Region) (blocks : List Block) : List Region :=
  direct ++ blocks.map Block.extent

def allocNextBlock (allocator : Allocator) (inUse : List Region) (capacity : ℕ) : Option Block :=
  (allocator.alignedAllocFn inUse maxAlignment (sizeT (headerSize + capacity))).map fun p =>
    adoptMemory p (sizeT (headerSize + capacity))

def setup (cfg : Config) (allocator : Allocator) (preallocatedBlocks : List (ℕ × ℕ)) : Arena :=
  let blocks := (preallocatedBlocks.filter fun b => ¬ b.2 < headerSize).map fun b =>
    adoptMemory b.1 b.2
  let preallocd := blocks.foldl (fun n b => sizeT (n + b.capacity)) 0
  let arena : Arena := ⟨blocks, [], 0, 0, 0⟩
  if preallocd < cfg.firstBlockCapacity then
    let missing := cfg.firstBlockCapacity - preallocd
    if missing ≥ cfg.blockCapacity then
      match allocNextBlock allocator (inUse [] blocks) missing with
      | some block => { arena with blocks := blocks ++ [block], allocatedBlocks := 1 }
      | none => arena
    else arena
  else arena

/-- The bytes in front of an aligned offset. -/
def getPadding (offset alignment : ℕ) : ℕ :=
  let misaligned := offset &&& (alignment - 1)
  if misaligned = 0 then 0 else alignment - misaligned

/-- The end of the search: a block with room between those in front of it and behind it, no memory
for a block, or a request that is larger than a block. -/
inductive Search where
  | fits (before : List Block) (block : Block) (after : List Block) (start padding : ℕ)
    (allocatedBlocks : ℕ)
  | outOfMemory (blocks : List Block) (allocatedBlocks : ℕ)
  | passThrough (blocks : List Block) (allocatedBlocks : ℕ)

/-- The search from a block on, for a number of rounds. -/
def search (cfg : Config) (allocator : Allocator) (direct : List Region) (align size : ℕ) :
    (rounds : ℕ) → (before : List Block) → (block : Block) → (after : List Block) →
      (allocatedBlocks : ℕ) → Option Search
  | 0, _, _, _, _ => none
  | rounds + 1, before, block, after, allocatedBlocks =>
    let start := block.memory + block.used
    let start := if cfg.debugFs then start + canarySize else start
    let padding := getPadding start align
    if sizeT (size + padding) ≤ sizeT (block.capacity + 2 ^ 32 - block.used) then
      some (.fits before block after start padding allocatedBlocks)
    else
      match after with
      | next :: rest =>
        search cfg allocator direct align size rounds (before ++ [block]) next rest
          allocatedBlocks
      | [] =>
        let allocSize :=
          if cfg.debugFs then sizeT (size + getPadding canarySize align) else size
        if allocSize ≤ cfg.blockCapacity then
          match allocNextBlock allocator (inUse direct (before ++ [block]))
            cfg.blockCapacity with
          | none => some (.outOfMemory (before ++ [block]) allocatedBlocks)
          | some next =>
            search cfg allocator direct align size rounds (before ++ [block]) next []
              (allocatedBlocks + 1)
        else some (.passThrough (before ++ [block]) allocatedBlocks)

/-- The result of a request, and nothing if the search does not end in some rounds. -/
def alignedAlloc (cfg : Config) (allocator : Allocator) (rounds : ℕ) (arena : Arena)
    (align size : ℕ) : Option (Option ℕ × Arena) :=
  let align := max align cfg.minAlignment
  if align > maxAlignment then some (none, arena)
  else if size = 0 then some (none, arena)
  else if ¬ align.isPowerOfTwo then some (none, arena)
  else
    match arena.blocks with
    | [] => some (none, arena)
    | head :: rest =>
      let withCanary := if cfg.debugFs then sizeT (size + canarySize) else size
      match search cfg allocator arena.direct align withCanary rounds [] head rest
        arena.allocatedBlocks with
      | none => none
      | some (.outOfMemory blocks allocatedBlocks) =>
        some (none, { arena with blocks, allocatedBlocks })
      | some (.passThrough blocks allocatedBlocks) =>
        let padded := sizeT (size + getPadding size align)
        match allocator.alignedAllocFn (inUse arena.direct blocks) align padded with
        | none => some (none, { arena with blocks, allocatedBlocks })
        | some p => some (some p,
            { arena with blocks, allocatedBlocks, direct := ⟨p, padded⟩ :: arena.direct })
      | some (.fits before block after start padding allocatedBlocks) =>
        let used := if cfg.debugFs then sizeT (block.used + canarySize) else block.used
        let used := sizeT (used + padding)
        let used := sizeT (used + size)
        some (some (start + padding), { arena with
            blocks := before ++ { block with used } :: after
            allocs := arena.allocs + 1
            paddingOverhead := arena.paddingOverhead + padding
            allocatedBlocks })

/-- The number of zero bits below the lowest bit of a `size_t`. -/
def countrZero (n : ℕ) : ℕ := ((List.range 32).find? n.testBit).getD 32

def alloc (cfg : Config) (allocator : Allocator) (rounds : ℕ) (arena : Arena) (size : ℕ) :
    Option (Option ℕ × Arena) :=
  if size = 0 then some (none, arena)
  else
    let align := 1 <<< countrZero size
    let align := min align cfg.maxAlign
    alignedAlloc cfg allocator rounds arena align size

section

variable {align : ℕ}

section

variable (h : align.isPowerOfTwo)
include h

theorem and_sub_one (x : ℕ) : x &&& (align - 1) = x % align := by
  obtain ⟨k, rfl⟩ := h
  exact Nat.and_two_pow_sub_one_eq_mod x k

theorem dvd_add_getPadding (x : ℕ) : align ∣ x + getPadding x align := by
  have hdiv := Nat.div_add_mod x align
  have hlt := Nat.mod_lt x (Nat.pos_of_isPowerOfTwo h)
  rw [getPadding, and_sub_one h]
  split
  · rename_i hzero
    exact Nat.dvd_of_mod_eq_zero hzero
  · refine ⟨x / align + 1, ?_⟩
    rw [Nat.mul_add, Nat.mul_one]
    omega

theorem getPadding_lt (x : ℕ) : getPadding x align < align := by
  have hlt := Nat.mod_lt x (Nat.pos_of_isPowerOfTwo h)
  rw [getPadding, and_sub_one h]
  split <;> omega

/-- Behind an aligned address the padding is that of the offset. -/
theorem getPadding_add {base : ℕ} (hbase : align ∣ base) (x : ℕ) :
    getPadding (base + x) align = getPadding x align := by
  obtain ⟨k, rfl⟩ := hbase
  rw [getPadding, getPadding, and_sub_one h, and_sub_one h, Nat.mul_add_mod]

end

theorem getPadding_zero (align : ℕ) : getPadding 0 align = 0 := by
  rw [getPadding, Nat.zero_and, if_pos rfl]

/-- Of two powers of two the smaller one divides the other. -/
theorem dvd_of_le {align' : ℕ} (h : align.isPowerOfTwo) (h' : align'.isPowerOfTwo)
    (hle : align ≤ align') : align ∣ align' := by
  obtain ⟨k, rfl⟩ := h
  obtain ⟨k', rfl⟩ := h'
  exact Nat.pow_dvd_pow 2 ((Nat.pow_le_pow_iff_right (by decide)).mp hle)

end

section

variable {cfg : Config} {allocator : Allocator} {direct : List Region} {align size : ℕ}

/-- The used part of a block is in it, and the block is addressable. -/
structure Block.Valid (b : Block) : Prop where
  used_le : b.used ≤ b.capacity
  addressable : b.memory + b.capacity ≤ 2 ^ 32

/-- The bytes in front of an allocation. -/
def canary (cfg : Config) : ℕ := if cfg.debugFs then canarySize else 0

theorem canary_le (cfg : Config) : canary cfg ≤ canarySize := by
  rw [canary]
  split
  · exact le_rfl
  · exact Nat.zero_le _

/-- The blocks at the end of the search: a new one may have been appended. -/
def Grows (cfg : Config) (allocator : Allocator) (direct : List Region)
    (blocks blocks' : List Block) : Prop :=
  blocks' = blocks ∨ ∃ p, allocator.alignedAllocFn (inUse direct blocks) maxAlignment
    (headerSize + cfg.blockCapacity) = some p ∧ blocks' = blocks ++ [⟨p, cfg.blockCapacity, 0⟩]

/-- Whether a new block is asked for, if there is no room for a request with its canary. -/
def FitsNewBlock (cfg : Config) (align size : ℕ) : Prop :=
  (if cfg.debugFs then sizeT (size + getPadding canarySize align) else size) ≤ cfg.blockCapacity

/-- What the search promises. -/
def Search.Correct (cfg : Config) (allocator : Allocator) (direct : List Region) (align size : ℕ)
    (blocks : List Block) : Search → Prop
  | .fits before block after start padding _ =>
    Grows cfg allocator direct blocks (before ++ block :: after) ∧
      start = block.memory + block.used + canary cfg ∧ padding = getPadding start align ∧
      size + padding ≤ block.capacity - block.used
  | .outOfMemory blocks' _ =>
    blocks' = blocks ∧ FitsNewBlock cfg align size ∧
      allocator.alignedAllocFn (inUse direct blocks) maxAlignment
        (headerSize + cfg.blockCapacity) = none
  | .passThrough blocks' _ => blocks' = blocks ∧ ¬ FitsNewBlock cfg align size

theorem sizeT_of_lt {n : ℕ} (h : n < 2 ^ 32) : sizeT n = n := Nat.mod_eq_of_lt h

theorem start_eq (b : Block) :
    (if cfg.debugFs then b.memory + b.used + canarySize else b.memory + b.used) =
      b.memory + b.used + canary cfg := by
  rw [canary]
  split <;> rfl

/-- The comparison does not wrap for sizes and blocks of the address space. -/
theorem fits_iff {b : Block} (hb : b.Valid) {padding : ℕ} (hsize : size ≤ 2 ^ 30 + canarySize)
    (hpadding : padding < maxAlignment) :
    sizeT (size + padding) ≤ sizeT (b.capacity + 2 ^ 32 - b.used) ↔
      size + padding ≤ b.capacity - b.used := by
  have hused := hb.used_le
  have hspace := hb.addressable
  rw [Block.memory, headerSize] at hspace
  rw [canarySize] at hsize
  rw [maxAlignment] at hpadding
  rw [sizeT_of_lt (by omega), sizeT,
    show b.capacity + 2 ^ 32 - b.used = b.capacity - b.used + 2 ^ 32 by omega,
    Nat.add_mod_right, Nat.mod_eq_of_lt (by omega)]

theorem allocNextBlock_eq (inUse : List Region) {capacity : ℕ}
    (h : headerSize + capacity < 2 ^ 32) :
    allocNextBlock allocator inUse capacity =
      (allocator.alignedAllocFn inUse maxAlignment (headerSize + capacity)).map
        fun p => ⟨p, capacity, 0⟩ := by
  rw [allocNextBlock, sizeT_of_lt h]
  congr 1
  ext p : 1
  rw [adoptMemory, Nat.add_sub_cancel_left]

theorem maxAlignment_power : maxAlignment.isPowerOfTwo := ⟨4, rfl⟩

theorem newBlock_valid {inUse : List Region} {p capacity : ℕ}
    (h : allocator.alignedAllocFn inUse maxAlignment (headerSize + capacity) = some p) :
    (⟨p, capacity, 0⟩ : Block).Valid := by
  have hspace := allocator.in_space _ _ _ _ h
  rw [← Nat.add_assoc] at hspace
  exact ⟨Nat.zero_le _, hspace⟩

/-- A request that is not larger than a block fits into a new one. -/
theorem search_newBlock {p rounds allocated : ℕ} {before : List Block} {inUse : List Region}
    (hp : allocator.alignedAllocFn inUse maxAlignment (headerSize + cfg.blockCapacity) = some p)
    (halign : align.isPowerOfTwo) (hle : align ≤ maxAlignment)
    (hsize : size ≤ 2 ^ 30 + canarySize)
    (hfits : FitsNewBlock cfg align size) :
    ∃ padding, size + padding ≤ cfg.blockCapacity ∧
      padding = getPadding (p + headerSize + canary cfg) align ∧
      search cfg allocator direct align size (rounds + 1) before ⟨p, cfg.blockCapacity, 0⟩ []
        allocated = some (.fits before ⟨p, cfg.blockCapacity, 0⟩ [] (p + headerSize + canary cfg)
          padding allocated) := by
  have hvalid := newBlock_valid hp
  have hdvd : align ∣ p + headerSize :=
    Nat.dvd_add ((dvd_of_le halign maxAlignment_power hle).trans
      (allocator.aligned _ _ _ _ hp maxAlignment_power)) (dvd_of_le halign maxAlignment_power hle)
  have hpadding := getPadding_add halign hdvd (canary cfg)
  have hlt := (getPadding_lt halign (canary cfg)).trans_le hle
  rw [FitsNewBlock] at hfits
  have hroom : size + getPadding (canary cfg) align ≤ cfg.blockCapacity := by
    rw [canary] at hlt ⊢
    split
    · rename_i hdebug
      rw [if_pos hdebug] at hfits hlt
      rw [canarySize] at hsize
      rw [maxAlignment] at hlt
      rwa [sizeT_of_lt (by omega)] at hfits
    · rename_i hdebug
      rw [if_neg hdebug] at hfits
      rw [getPadding_zero, Nat.add_zero]
      exact hfits
  refine ⟨_, ?_, rfl, ?_⟩
  · rwa [hpadding]
  · rw [search, start_eq]
    have hstart : (⟨p, cfg.blockCapacity, 0⟩ : Block).memory +
        (⟨p, cfg.blockCapacity, 0⟩ : Block).used + canary cfg = p + headerSize + canary cfg := rfl
    rw [hstart]
    dsimp only
    rw [if_pos ((fits_iff hvalid hsize (by rwa [hpadding])).mpr (by rwa [hpadding]))]

/-- The search ends within one round for each block and one for a new block. -/
theorem search_correct (halign : align.isPowerOfTwo) (hle : align ≤ maxAlignment)
    (hsize : size ≤ 2 ^ 30 + canarySize) (after : List Block) {rounds allocated : ℕ}
    {before : List Block} {block : Block} (hrounds : after.length + 2 ≤ rounds)
    (hvalid : ∀ b ∈ block :: after, b.Valid) :
    ∃ found, search cfg allocator direct align size rounds before block after allocated =
        some found ∧
      found.Correct cfg allocator direct align size (before ++ block :: after) := by
  induction after generalizing rounds before block with
  | nil =>
    obtain ⟨rounds, rfl⟩ : ∃ n, rounds = n + 2 := ⟨rounds - 2, (Nat.sub_add_cancel hrounds).symm⟩
    have hpadding :=
      (getPadding_lt halign (block.memory + block.used + canary cfg)).trans_le hle
    have hiff := fits_iff (hvalid block List.mem_cons_self) hsize hpadding
    rw [search, start_eq]
    by_cases hfits : size + getPadding (block.memory + block.used + canary cfg) align ≤
      block.capacity - block.used
    · rw [if_pos (hiff.mpr hfits)]
      exact ⟨_, rfl, .inl rfl, rfl, rfl, hfits⟩
    · rw [if_neg (mt hiff.mp hfits)]
      dsimp only
      rw [allocNextBlock_eq _ cfg.block_addressable]
      by_cases hcapacity : FitsNewBlock cfg align size <;> rw [FitsNewBlock] at hcapacity
      · rw [if_pos hcapacity]
        cases hp : allocator.alignedAllocFn (inUse direct (before ++ [block])) maxAlignment
            (headerSize + cfg.blockCapacity) with
        | none => exact ⟨.outOfMemory _ _, rfl, rfl, hcapacity, hp⟩
        | some p =>
          obtain ⟨padding, hroom, hpad, hsearch⟩ :=
            @search_newBlock cfg allocator direct align size p rounds (allocated + 1)
              (before ++ [block]) _ hp halign hle hsize hcapacity
          exact ⟨_, hsearch, .inr ⟨p, hp, rfl⟩, rfl, hpad, hroom⟩
      · rw [if_neg hcapacity]
        exact ⟨.passThrough _ _, rfl, rfl, hcapacity⟩
  | cons next rest ih =>
    obtain ⟨rounds, rfl⟩ : ∃ n, rounds = n + 1 :=
      ⟨rounds - 1, (Nat.sub_add_cancel (Nat.le_trans (by omega) hrounds)).symm⟩
    have hpadding :=
      (getPadding_lt halign (block.memory + block.used + canary cfg)).trans_le hle
    have hiff := fits_iff (hvalid block List.mem_cons_self) hsize hpadding
    rw [search, start_eq]
    by_cases hfits : size + getPadding (block.memory + block.used + canary cfg) align ≤
      block.capacity - block.used
    · rw [if_pos (hiff.mpr hfits)]
      exact ⟨_, rfl, .inl rfl, rfl, rfl, hfits⟩
    · rw [if_neg (mt hiff.mp hfits)]
      rw [show before ++ block :: next :: rest = before ++ [block] ++ next :: rest by
        rw [List.append_assoc, List.singleton_append]]
      rw [List.length_cons] at hrounds
      exact ih (by omega) (fun b hb => hvalid b (List.mem_cons_of_mem _ hb))

end

variable {cfg : Config} {allocator : Allocator} {arena : Arena} {align size : ℕ}

/-- What a request can come to: it is refused, the underlying allocator fails, it is cut from a
block, or it gets memory of its own. -/
inductive Outcome (cfg : Config) (allocator : Allocator) (arena : Arena) (align size : ℕ) :
    Option ℕ → List Block → List Region → Prop where
  | refused (h : maxAlignment < max align cfg.minAlignment ∨ size = 0 ∨
      ¬ (max align cfg.minAlignment).isPowerOfTwo) :
      Outcome cfg allocator arena align size none arena.blocks arena.direct
  | failed (h : FitsNewBlock cfg (max align cfg.minAlignment) (size + canary cfg) ∧
        allocator.alignedAllocFn (inUse arena.direct arena.blocks) maxAlignment
          (headerSize + cfg.blockCapacity) = none ∨
      ¬ FitsNewBlock cfg (max align cfg.minAlignment) (size + canary cfg) ∧
        allocator.alignedAllocFn (inUse arena.direct arena.blocks) (max align cfg.minAlignment)
          (size + getPadding size (max align cfg.minAlignment)) = none) :
      Outcome cfg allocator arena align size none arena.blocks arena.direct
  | cut {before after : List Block} {block : Block} {start used : ℕ}
      (hpower : (max align cfg.minAlignment).isPowerOfTwo) (hsize : 0 < size)
      (hgrows : Grows cfg allocator arena.direct arena.blocks (before ++ block :: after))
      (haligned : max align cfg.minAlignment ∣ start)
      (hstart : block.memory + block.used ≤ start)
      (hend : start + size = block.memory + used) (hused : used ≤ block.capacity) :
      Outcome cfg allocator arena align size (some start)
        (before ++ { block with used } :: after) arena.direct
  | passed {p padded : ℕ} (hpower : (max align cfg.minAlignment).isPowerOfTwo) (hsize : 0 < size)
      (hp : allocator.alignedAllocFn (inUse arena.direct arena.blocks)
        (max align cfg.minAlignment) padded = some p) (hpadded : size ≤ padded) :
      Outcome cfg allocator arena align size (some p) arena.blocks (⟨p, padded⟩ :: arena.direct)

theorem alignedAlloc_outcome (hvalid : ∀ b ∈ arena.blocks, b.Valid) (hne : arena.blocks ≠ [])
    (hsize : size < 2 ^ 30) :
    ∃ result arena', alignedAlloc cfg allocator (arena.blocks.length + 1) arena align size =
        some (result, arena') ∧
      Outcome cfg allocator arena align size result arena'.blocks arena'.direct := by
  rw [alignedAlloc]
  dsimp only
  by_cases hmax : max align cfg.minAlignment > maxAlignment
  · rw [if_pos hmax]
    exact ⟨none, arena, rfl, .refused (.inl hmax)⟩
  rw [if_neg hmax]
  by_cases hzero : size = 0
  · rw [if_pos hzero]
    exact ⟨none, arena, rfl, .refused (.inr (.inl hzero))⟩
  rw [if_neg hzero]
  by_cases hpower : (max align cfg.minAlignment).isPowerOfTwo
  swap
  · rw [if_pos hpower]
    exact ⟨none, arena, rfl, .refused (.inr (.inr hpower))⟩
  rw [if_neg (not_not.mpr hpower)]
  have hle := Nat.le_of_not_lt hmax
  obtain ⟨head, rest, hblocks⟩ := List.exists_cons_of_ne_nil hne
  have hcanary := canary_le cfg
  have hwith : (if cfg.debugFs then sizeT (size + canarySize) else size) = size + canary cfg := by
    rw [canary]
    split
    · exact sizeT_of_lt (by rw [canarySize]; omega)
    · rfl
  obtain ⟨found, hsearch, hcorrect⟩ := @search_correct cfg allocator arena.direct _
    (size + canary cfg) hpower hle (by omega) rest (arena.blocks.length + 1)
    arena.allocatedBlocks [] head (by rw [hblocks, List.length_cons]) (hblocks ▸ hvalid)
  rw [List.nil_append, ← hblocks] at hcorrect
  rw [hblocks] at hsearch ⊢
  dsimp only
  rw [hwith, hsearch]
  cases found with
  | outOfMemory blocks allocated =>
    obtain ⟨rfl, hfailed⟩ := hcorrect
    exact ⟨none, _, rfl, .failed (.inl hfailed)⟩
  | passThrough blocks allocated =>
    obtain ⟨rfl, hlarge⟩ := hcorrect
    have hlt := (getPadding_lt hpower size).trans_le hle
    have hpadded : sizeT (size + getPadding size (max align cfg.minAlignment)) =
        size + getPadding size (max align cfg.minAlignment) :=
      sizeT_of_lt (by rw [maxAlignment] at hlt; omega)
    dsimp only
    cases hp : allocator.alignedAllocFn (inUse arena.direct arena.blocks)
        (max align cfg.minAlignment)
        (sizeT (size + getPadding size (max align cfg.minAlignment))) with
    | none =>
      rw [hpadded] at hp
      exact ⟨none, _, rfl, .failed (.inr ⟨hlarge, hp⟩)⟩
    | some p =>
      exact ⟨some p, _, rfl, .passed hpower (Nat.pos_of_ne_zero hzero) hp
        (by rw [hpadded]; exact Nat.le_add_right _ _)⟩
  | fits before block after start padding allocated =>
    obtain ⟨hgrows, hstart, hpadding, hroom⟩ := hcorrect
    have hblock : block.Valid := by
      have hmem : block ∈ before ++ block :: after :=
        List.mem_append_right _ List.mem_cons_self
      rcases hgrows with hsame | ⟨p, hp, hnew⟩
      · exact hvalid block (hsame ▸ hmem)
      · rw [hnew] at hmem
        rcases List.mem_append.mp hmem with hold | hlast
        · exact hvalid block hold
        · rw [List.mem_singleton.mp hlast]
          exact newBlock_valid hp
    have hused := hblock.used_le
    have hspace := hblock.addressable
    have hdvd := dvd_add_getPadding hpower start
    rw [← hpadding] at hdvd
    rw [Block.memory, headerSize] at hspace
    have hcanaryUsed : (if cfg.debugFs then sizeT (block.used + canarySize) else block.used) =
        block.used + canary cfg := by
      rw [canary] at hroom ⊢
      split
      · rename_i hdebug
        rw [if_pos hdebug] at hroom
        exact sizeT_of_lt (by omega)
      · rfl
    refine ⟨_, _, rfl, .cut hpower (Nat.pos_of_ne_zero hzero) hgrows hdvd ?_ ?_ ?_⟩
    · omega
    · rw [hcanaryUsed, sizeT_of_lt (by omega : block.used + canary cfg + padding < 2 ^ 32),
        sizeT_of_lt (by omega), hstart]
      omega
    · rw [hcanaryUsed, sizeT_of_lt (by omega : block.used + canary cfg + padding < 2 ^ 32),
        sizeT_of_lt (by omega)]
      omega

end Arena

end Esp32Firmware.Tools
