import Esp32Firmware.Tools.Arena

/-!
# Runs of the arena allocator

Every sequence of requests gets separate regions. They have the requested alignment unless a
request asks for an alignment below the minimum that is no power of two: the check is made after
the alignment has been raised.
-/

namespace Esp32Firmware.Tools.Arena

inductive Request where
  | alloc (size : ℕ)
  | alignedAlloc (align size : ℕ)

def Request.size : Request → ℕ
  | .alloc size => size
  | .alignedAlloc _ size => size

/-- The requested alignment: that of the size, at most that of `max_align_t`, if there is none. -/
def Request.align (cfg : Config) : Request → ℕ
  | .alloc size => min (1 <<< countrZero size) cfg.maxAlign
  | .alignedAlloc align _ => align

/-- A request, and the underlying allocator when it is made. -/
structure Call where
  request : Request
  allocator : Allocator

/-- A request with the memory that was in use before, and its result. -/
structure Served where
  call : Call
  inUse : List Region
  result : Option ℕ

/-- The arena and the requests so far, the last one first. -/
structure State where
  arena : Arena
  served : List Served

/-- The region that a request returned. -/
def Served.region (e : Served) : Option Region := e.result.map fun p => ⟨p, e.call.request.size⟩

def State.regions (s : State) : List Region := s.served.filterMap Served.region

/-- A request that the search answers within one round for each block and one more. -/
def State.step (cfg : Config) (s : State) (call : Call) : Option State :=
  let rounds := s.arena.blocks.length + 1
  let answer :=
    match call.request with
    | .alloc size => alloc cfg call.allocator rounds s.arena size
    | .alignedAlloc align size => alignedAlloc cfg call.allocator rounds s.arena align size
  answer.map fun a => ⟨a.2, ⟨call, inUse s.arena.direct s.arena.blocks, a.1⟩ :: s.served⟩

/-- A size or an alignment that cannot be served, or a minimum of the arena that cannot. -/
def Invalid (cfg : Config) (request : Request) : Prop :=
  request.size = 0 ∨ maxAlignment < request.align cfg ∨ ¬ (request.align cfg).isPowerOfTwo ∨
    maxAlignment < cfg.minAlignment ∨ ¬ cfg.minAlignment.isPowerOfTwo

/-- The call of the underlying allocator failed: for a new block, or for a request that is larger
than one. -/
def Served.Failed (cfg : Config) (e : Served) : Prop :=
  let align := max (e.call.request.align cfg) cfg.minAlignment
  FitsNewBlock cfg align (e.call.request.size + canary cfg) ∧
      e.call.allocator.alignedAllocFn e.inUse maxAlignment
        (headerSize + cfg.blockCapacity) = none ∨
    ¬ FitsNewBlock cfg align (e.call.request.size + canary cfg) ∧
      e.call.allocator.alignedAllocFn e.inUse align
        (e.call.request.size + getPadding e.call.request.size align) = none

/-- The memory of a block, without its header. -/
def Block.region (b : Block) : Region := ⟨b.memory, b.capacity⟩

/-- What the regions that have been returned promise. -/
structure State.Sound (cfg : Config) (s : State) : Prop where
  separate : s.regions.Pairwise Region.Separate
  aligned : ∀ e ∈ s.served, ∀ r, e.region = some r → e.call.request.align cfg ∣ r.start
  inside : ∀ r ∈ s.regions, (∃ b ∈ s.arena.blocks, r.Within b.region) ∨
      ∃ d ∈ s.arena.direct, r.Within d ∧ (∀ b ∈ s.arena.blocks, b.extent.Separate d) ∧
        ∀ r' ∈ s.regions, r' ≠ r → r'.Separate d
  refused : ∀ e ∈ s.served, e.result = none → Invalid cfg e.call.request ∨ e.Failed cfg

/-- The alignment is a power of two, or it is not raised to the minimum before it is checked. -/
def AlignmentChecked (cfg : Config) : Request → Prop
  | .alloc _ => True
  | .alignedAlloc align size => align.isPowerOfTwo ∨ cfg.minAlignment ≤ align ∨ size = 0

instance (cfg : Config) : (request : Request) → Decidable (AlignmentChecked cfg request)
  | .alloc _ => isTrue trivial
  | .alignedAlloc _ _ => inferInstanceAs (Decidable (_ ∨ _))

/-- What one request does to the blocks and the memory of its own. -/
theorem step_outcome {cfg : Config} {s : State} {call : Call}
    (hvalid : ∀ b ∈ s.arena.blocks, b.Valid) (hne : s.arena.blocks ≠ [])
    (hsize : call.request.size < 2 ^ 30) :
    ∃ result arena', s.step cfg call =
        some ⟨arena', ⟨call, inUse s.arena.direct s.arena.blocks, result⟩ :: s.served⟩ ∧
      Outcome cfg call.allocator s.arena (call.request.align cfg) call.request.size result
        arena'.blocks arena'.direct := by
  obtain ⟨request, allocator⟩ := call
  cases request with
  | alloc size =>
    rw [State.step]
    dsimp only
    by_cases hzero : size = 0
    · rw [alloc, if_pos hzero]
      exact ⟨none, s.arena, rfl, .refused (.inr (.inl hzero))⟩
    · obtain ⟨result, arena', heq, houtcome⟩ := @alignedAlloc_outcome cfg allocator s.arena
        (min (1 <<< countrZero size) cfg.maxAlign) size hvalid hne hsize
      rw [alloc, if_neg hzero]
      rw [heq]
      exact ⟨result, arena', rfl, houtcome⟩
  | alignedAlloc align size =>
    obtain ⟨result, arena', heq, houtcome⟩ :=
      @alignedAlloc_outcome cfg allocator s.arena align size hvalid hne hsize
    rw [State.step]
    dsimp only
    rw [heq]
    exact ⟨result, arena', rfl, houtcome⟩

section

variable {cfg : Config} {allocator : Allocator} {s : State}

variable {b : Block} {direct : List Region} {blocks blocks' : List Block} {p : ℕ}
  {request : Request} {call : Call} {arena' : Arena}

theorem Block.Valid.within (hb : b.Valid) {r : Region} (hstart : b.memory ≤ r.start)
    (hend : r.start + r.size ≤ b.memory + b.used) :
    r.Within b.extent := by
  have hused := hb.used_le
  rw [Block.memory] at hstart hend
  refine ⟨?_, ?_⟩
  · rw [Block.extent]
    dsimp only
    omega
  · rw [Block.extent]
    dsimp only
    omega

theorem Grows.valid {direct : List Region} {blocks blocks' : List Block}
    (h : Grows cfg allocator direct blocks blocks') (hvalid : ∀ b ∈ blocks, b.Valid) :
    ∀ b ∈ blocks', b.Valid := by
  rcases h with rfl | ⟨p, hp, rfl⟩
  · exact hvalid
  · intro b hb
    rcases List.mem_append.mp hb with hold | hnew
    · exact hvalid b hold
    · rw [List.mem_singleton.mp hnew]
      exact newBlock_valid hp

theorem Grows.subset (h : Grows cfg allocator direct blocks blocks') : blocks ⊆ blocks' := by
  rcases h with rfl | ⟨p, hp, rfl⟩
  · exact List.Subset.refl _
  · exact List.subset_append_left _ _

/-- A new block is separate from the memory in use. -/
theorem separate_append {direct : List Region} {blocks : List Block} {p capacity : ℕ}
    (hpair : (inUse direct blocks).Pairwise Region.Separate)
    (hp : allocator.alignedAllocFn (inUse direct blocks) maxAlignment (headerSize + capacity) =
      some p) :
    (inUse direct (blocks ++ [⟨p, capacity, 0⟩])).Pairwise Region.Separate := by
  rw [inUse, List.map_append, ← List.append_assoc]
  refine List.pairwise_append.mpr ⟨hpair, List.pairwise_singleton _ _, fun r hr r' hr' => ?_⟩
  rw [List.map_singleton, List.mem_singleton] at hr'
  rw [hr']
  exact allocator.separate _ _ _ _ hp r hr

theorem Grows.separate (h : Grows cfg allocator direct blocks blocks')
    (hpair : (inUse direct blocks).Pairwise Region.Separate) :
    (inUse direct blocks').Pairwise Region.Separate := by
  rcases h with rfl | ⟨p, hp, rfl⟩
  · exact hpair
  · exact separate_append hpair hp

/-- The regions lie in the used parts of the blocks or in memory of their own. -/
structure State.Inv (cfg : Config) (s : State) : Prop where
  valid : ∀ b ∈ s.arena.blocks, b.Valid
  nonempty : s.arena.blocks ≠ []
  inUse : (inUse s.arena.direct s.arena.blocks).Pairwise Region.Separate
  placed : ∀ r ∈ s.regions,
    (∃ b ∈ s.arena.blocks, b.memory ≤ r.start ∧ r.start + r.size ≤ b.memory + b.used) ∨
      ∃ d ∈ s.arena.direct, r.start = d.start ∧ r.size ≤ d.size
  nonzero : ∀ r ∈ s.regions, 0 < r.size
  separate : s.regions.Pairwise Region.Separate
  aligned : ∀ e ∈ s.served, ∀ r, e.region = some r → AlignmentChecked cfg e.call.request →
    e.call.request.align cfg ∣ r.start
  refused : ∀ e ∈ s.served, e.result = none → Invalid cfg e.call.request ∨ e.Failed cfg

theorem separate_of_ne (hpair : (Arena.inUse direct blocks).Pairwise Region.Separate) {b' : Block}
    (hb : b ∈ blocks) (hb' : b' ∈ blocks) (hne : b ≠ b') : b.extent.Separate b'.extent := by
  have hblocks := (List.pairwise_map.mp (List.pairwise_append.mp hpair).2.1)
  have hsymm : Std.Symm fun b b' : Block => b.extent.Separate b'.extent :=
    ⟨fun _ _ h => h.symm⟩
  exact hblocks.forall hb hb' hne

theorem separate_direct (hpair : (Arena.inUse direct blocks).Pairwise Region.Separate) {d : Region}
    (hd : d ∈ direct) (hb : b ∈ blocks) : d.Separate b.extent :=
  (List.pairwise_append.mp hpair).2.2 d hd _ (List.mem_map_of_mem hb)

theorem State.Inv.sound (h : s.Inv cfg)
    (hchecked : ∀ e ∈ s.served, AlignmentChecked cfg e.call.request) : s.Sound cfg := by
  refine ⟨h.separate, fun e he r hr => h.aligned e he r hr (hchecked e he), fun r hr => ?_,
    h.refused⟩
  rcases h.placed r hr with ⟨b, hb, hstart, hend⟩ | ⟨d, hd, hstart, hsize⟩
  · have hused := (h.valid b hb).used_le
    exact .inl ⟨b, hb, hstart, hend.trans (Nat.add_le_add_left hused _)⟩
  · have hwithin : r.Within d := ⟨hstart.ge, by omega⟩
    refine .inr ⟨d, hd, hwithin, fun b hb => (separate_direct h.inUse hd hb).symm,
      fun r' hr' hne => ?_⟩
    rcases h.placed r' hr' with ⟨b, hb, hstart', hend'⟩ | ⟨d', hd', hstart', hsize'⟩
    · exact (separate_direct h.inUse hd hb).symm.within
        ((h.valid b hb).within hstart' hend') (Region.Within.refl d)
    · have hsymm : Std.Symm Region.Separate := ⟨fun _ _ hs => hs.symm⟩
      by_cases hd'd : d' = d
      · have hseparate := h.separate.forall hr' hr hne
        rw [hd'd] at hstart'
        exact absurd hseparate (Region.not_separate_of_start_eq (hstart'.trans hstart.symm)
          (h.nonzero r' hr') (h.nonzero r hr))
      · have hdirect := (List.pairwise_append.mp h.inUse).1
        exact (hdirect.forall hd' hd hd'd).within ⟨hstart'.ge, by omega⟩ (Region.Within.refl d)

theorem align_dvd (h : AlignmentChecked cfg request)
    (hpower : (max (request.align cfg) cfg.minAlignment).isPowerOfTwo) (hsize : 0 < request.size) :
    request.align cfg ∣ max (request.align cfg) cfg.minAlignment := by
  cases request with
  | alloc size =>
    have halign : (Request.align cfg (.alloc size)).isPowerOfTwo := by
      rw [Request.align]
      rcases Nat.le_total (1 <<< countrZero size) cfg.maxAlign with hle | hle
      · rw [Nat.min_eq_left hle]
        exact ⟨countrZero size, Nat.one_shiftLeft _⟩
      · rw [Nat.min_eq_right hle]
        exact cfg.maxAlign_power
    exact dvd_of_le halign hpower (Nat.le_max_left _ _)
  | alignedAlloc align size =>
    rcases h with halign | hle | hzero
    · exact dvd_of_le halign hpower (Nat.le_max_left _ _)
    · exact dvd_of_eq (Nat.max_eq_left hle).symm
    · exact absurd hzero (Nat.ne_of_gt hsize)

theorem invalid_of_refused {request : Request}
    (h : maxAlignment < max (request.align cfg) cfg.minAlignment ∨ request.size = 0 ∨
      ¬ (max (request.align cfg) cfg.minAlignment).isPowerOfTwo) : Invalid cfg request := by
  rcases h with hmax | hzero | hpower
  · rcases lt_max_iff.mp hmax with halign | hmin
    · exact .inr (.inl halign)
    · exact .inr (.inr (.inr (.inl hmin)))
  · exact .inl hzero
  · rcases Nat.le_total (request.align cfg) cfg.minAlignment with hle | hle
    · rw [Nat.max_eq_right hle] at hpower
      exact .inr (.inr (.inr (.inr hpower)))
    · rw [Nat.max_eq_left hle] at hpower
      exact .inr (.inr (.inl hpower))

/-- A request without a result changes nothing. -/
theorem State.Inv.refuse {call : Call} {arena' : Arena} (h : s.Inv cfg)
    (hblocks : arena'.blocks = s.arena.blocks) (hdirect : arena'.direct = s.arena.direct)
    (hreason : Invalid cfg call.request ∨
      (⟨call, Arena.inUse s.arena.direct s.arena.blocks, none⟩ : Served).Failed cfg) :
    State.Inv cfg
      ⟨arena', ⟨call, Arena.inUse s.arena.direct s.arena.blocks, none⟩ :: s.served⟩ := by
  have hregions : (⟨arena', ⟨call, Arena.inUse s.arena.direct s.arena.blocks, none⟩ :: s.served⟩ :
      State).regions = s.regions := rfl
  refine ⟨?_, ?_, ?_, ?_, ?_, ?_, fun e he r hr => ?_, fun e he hresult => ?_⟩
  · rw [hblocks]
    exact h.valid
  · rw [hblocks]
    exact h.nonempty
  · rw [hblocks, hdirect]
    exact h.inUse
  · rw [hblocks, hdirect, hregions]
    exact h.placed
  · rw [hregions]
    exact h.nonzero
  · rw [hregions]
    exact h.separate
  · rcases List.mem_cons.mp he with rfl | hold
    · exact absurd hr (by simp [Served.region])
    · exact h.aligned e hold r hr
  · rcases List.mem_cons.mp he with rfl | hold
    · exact hreason
    · exact h.refused e hold hresult

/-- A request gets a region that is separate from all others. -/
theorem State.Inv.serve {call : Call} {arena' : Arena} {p : ℕ} (h : s.Inv cfg)
    (hvalid : ∀ b ∈ arena'.blocks, b.Valid) (hnonempty : arena'.blocks ≠ [])
    (hinUse : (Arena.inUse arena'.direct arena'.blocks).Pairwise Region.Separate)
    (hplaced : ∀ r ∈ ⟨p, call.request.size⟩ :: s.regions,
      (∃ b ∈ arena'.blocks, b.memory ≤ r.start ∧ r.start + r.size ≤ b.memory + b.used) ∨
        ∃ d ∈ arena'.direct, r.start = d.start ∧ r.size ≤ d.size)
    (hsize : 0 < call.request.size)
    (hseparate : ∀ r ∈ s.regions, (⟨p, call.request.size⟩ : Region).Separate r)
    (haligned : AlignmentChecked cfg call.request → call.request.align cfg ∣ p) :
    State.Inv cfg
      ⟨arena', ⟨call, Arena.inUse s.arena.direct s.arena.blocks, some p⟩ :: s.served⟩ := by
  have hregions : (⟨arena', ⟨call, Arena.inUse s.arena.direct s.arena.blocks, some p⟩ ::
      s.served⟩ : State).regions = ⟨p, call.request.size⟩ :: s.regions := rfl
  refine ⟨hvalid, hnonempty, hinUse, ?_, ?_, ?_, fun e he r hr => ?_, fun e he hresult => ?_⟩
  · rw [hregions]
    exact hplaced
  · rw [hregions]
    exact List.forall_mem_cons.mpr ⟨hsize, h.nonzero⟩
  · rw [hregions]
    exact List.pairwise_cons.mpr ⟨hseparate, h.separate⟩
  · rcases List.mem_cons.mp he with rfl | hold
    · obtain rfl := Option.some.inj hr
      exact haligned
    · exact h.aligned e hold r hr
  · rcases List.mem_cons.mp he with rfl | hold
    · exact absurd hresult (Option.some_ne_none p)
    · exact h.refused e hold hresult

theorem State.Inv.step {call : Call} (h : s.Inv cfg) (hsize : call.request.size < 2 ^ 30) :
    ∃ s', s.step cfg call = some s' ∧ s'.Inv cfg ∧
      ∃ e : Served, e.call = call ∧ s'.served = e :: s.served := by
  obtain ⟨result, arena', hstep, houtcome⟩ := step_outcome h.valid h.nonempty hsize
  refine ⟨_, hstep, ?_, _, rfl, rfl⟩
  generalize hblocks : arena'.blocks = blocks at houtcome
  generalize hdirect : arena'.direct = direct at houtcome
  cases houtcome with
  | refused hreason => exact h.refuse hblocks hdirect (.inl (invalid_of_refused hreason))
  | failed hfailed => exact h.refuse hblocks hdirect (.inr hfailed)
  | @cut before after block start used hpower hpos hgrows haligned hstart hend hused =>
    have hvalid := hgrows.valid h.valid
    have hpair := hgrows.separate h.inUse
    have hmem : block ∈ before ++ block :: after :=
      List.mem_append_right _ List.mem_cons_self
    have hblock := hvalid block hmem
    have hwithin : (⟨start, call.request.size⟩ : Region).Within block.extent := by
      have hend' : start + call.request.size ≤ block.memory + block.capacity := by omega
      rw [Block.memory] at hstart hend'
      exact ⟨by rw [Block.extent]; dsimp only; omega, by rw [Block.extent]; dsimp only; omega⟩
    refine h.serve ?_ ?_ ?_ ?_ hpos (fun r hr => ?_)
      (fun hchecked => (align_dvd hchecked hpower hpos).trans haligned)
    · rw [hblocks]
      intro b hb
      rcases List.mem_append.mp hb with hbefore | hb
      · exact hvalid b (List.mem_append_left _ hbefore)
      · rcases List.mem_cons.mp hb with rfl | hafter
        · exact ⟨hused, hblock.addressable⟩
        · exact hvalid b (List.mem_append_right _ (List.mem_cons_of_mem _ hafter))
    · rw [hblocks]
      exact List.append_ne_nil_of_right_ne_nil _ (List.cons_ne_nil _ _)
    · rw [hblocks, hdirect]
      rw [Arena.inUse, List.map_append, List.map_cons] at hpair ⊢
      exact hpair
    · rw [hblocks, hdirect]
      intro r hr
      rcases List.mem_cons.mp hr with rfl | hold
      · exact .inl ⟨_, List.mem_append_right _ List.mem_cons_self, by
          dsimp only [Block.memory] at hstart ⊢
          omega, hend.le⟩
      · rcases h.placed r hold with ⟨b, hb, hb1, hb2⟩ | hd
        · left
          rcases List.mem_append.mp (hgrows.subset hb) with hbefore | hb
          · exact ⟨b, List.mem_append_left _ hbefore, hb1, hb2⟩
          · rcases List.mem_cons.mp hb with rfl | hafter
            · exact ⟨_, List.mem_append_right _ List.mem_cons_self, hb1, by
                dsimp only [Block.memory] at hb2 hstart hend ⊢
                omega⟩
            · exact ⟨b, List.mem_append_right _ (List.mem_cons_of_mem _ hafter), hb1, hb2⟩
        · exact .inr hd
    · rcases h.placed r hr with ⟨b, hb, hb1, hb2⟩ | ⟨d, hd, hd1, hd2⟩
      · by_cases hsame : b = block
        · subst hsame
          exact (Region.separate_of_le (hb2.trans hstart)).symm
        · exact (separate_of_ne hpair hmem (hgrows.subset hb) (Ne.symm hsame)).within hwithin
            ((h.valid b hb).within hb1 hb2)
      · exact (separate_direct hpair hd hmem).symm.within hwithin ⟨hd1.ge, by omega⟩
  | @passed p padded hpower hpos hp hpadded =>
    have hwithin : (⟨p, call.request.size⟩ : Region).Within ⟨p, padded⟩ :=
      ⟨le_rfl, Nat.add_le_add_left hpadded _⟩
    have hnew := call.allocator.separate _ _ _ _ hp
    refine h.serve ?_ ?_ ?_ ?_ hpos (fun r hr => ?_) (fun hchecked =>
      (align_dvd hchecked hpower hpos).trans (call.allocator.aligned _ _ _ _ hp hpower))
    · rw [hblocks]
      exact h.valid
    · rw [hblocks]
      exact h.nonempty
    · rw [hblocks, hdirect]
      exact List.pairwise_cons.mpr ⟨fun r hr => (hnew r hr).symm, h.inUse⟩
    · rw [hblocks, hdirect]
      intro r hr
      rcases List.mem_cons.mp hr with rfl | hold
      · exact .inr ⟨_, List.mem_cons_self, rfl, hpadded⟩
      · rcases h.placed r hold with hb | ⟨d, hd, hd1, hd2⟩
        · exact .inl hb
        · exact .inr ⟨d, List.mem_cons_of_mem _ hd, hd1, hd2⟩
    · rcases h.placed r hr with ⟨b, hb, hb1, hb2⟩ | ⟨d, hd, hd1, hd2⟩
      · exact (hnew b.extent (List.mem_append_right _ (List.mem_map_of_mem hb))).symm.within
          hwithin ((h.valid b hb).within hb1 hb2)
      · exact (hnew d (List.mem_append_left _ hd)).symm.within hwithin ⟨hd1.ge, by omega⟩

/-- The blocks of the setup that are large enough for their header. -/
theorem setup_inv {preallocated : List (ℕ × ℕ)}
    (hseparate : (preallocated.map fun b => (⟨b.1, b.2⟩ : Region)).Pairwise Region.Separate)
    (hspace : ∀ b ∈ preallocated, b.1 + b.2 ≤ 2 ^ 32)
    (hfirst : (setup cfg allocator preallocated).blocks ≠ []) :
    State.Inv cfg ⟨setup cfg allocator preallocated, []⟩ := by
  have hinv : ∀ arena : Arena, arena.blocks ≠ [] → (∀ b ∈ arena.blocks, b.Valid) →
      (Arena.inUse arena.direct arena.blocks).Pairwise Region.Separate →
      State.Inv cfg ⟨arena, []⟩ := fun arena hne hvalid hpair =>
    ⟨hvalid, hne, hpair, fun r hr => absurd hr List.not_mem_nil,
      fun r hr => absurd hr List.not_mem_nil, List.Pairwise.nil,
      fun e he => absurd he List.not_mem_nil, fun e he => absurd he List.not_mem_nil⟩
  have hblocks : ∀ b ∈ (preallocated.filter fun b => ¬ b.2 < headerSize).map
      fun b => adoptMemory b.1 b.2, b.Valid := by
    intro b hb
    obtain ⟨pre, hpre, rfl⟩ := List.mem_map.mp hb
    obtain ⟨hmem, hsize⟩ := List.mem_filter.mp hpre
    have hend := hspace pre hmem
    have hheader := Nat.le_of_not_lt (of_decide_eq_true hsize)
    refine ⟨Nat.zero_le _, ?_⟩
    rw [Block.memory, adoptMemory]
    dsimp only
    omega
  have hpair : (Arena.inUse [] ((preallocated.filter fun b => ¬ b.2 < headerSize).map
      fun b => adoptMemory b.1 b.2)).Pairwise Region.Separate := by
    have hextents : (((preallocated.filter fun b => ¬ b.2 < headerSize).map
        fun b => adoptMemory b.1 b.2).map Block.extent) =
          (preallocated.filter fun b => ¬ b.2 < headerSize).map fun b => ⟨b.1, b.2⟩ := by
      rw [List.map_map]
      apply List.map_congr_left
      intro b hb
      have hheader := Nat.le_of_not_lt (of_decide_eq_true (List.mem_filter.mp hb).2)
      exact congrArg (Region.mk b.1) (Nat.add_sub_cancel' hheader)
    rw [Arena.inUse, List.nil_append, hextents]
    exact hseparate.sublist ((List.filter_sublist).map _)
  revert hfirst
  rw [setup]
  generalize (preallocated.filter fun b => ¬ b.2 < headerSize).map
    (fun b => adoptMemory b.1 b.2) = blocks at hblocks hpair
  generalize blocks.foldl (fun n b => sizeT (n + b.capacity)) 0 = preallocd
  intro hfirst
  by_cases hless : preallocd < cfg.firstBlockCapacity
  · rw [if_pos hless] at hfirst ⊢
    by_cases hmissing : cfg.firstBlockCapacity - preallocd ≥ cfg.blockCapacity
    · have haddressable : headerSize + (cfg.firstBlockCapacity - preallocd) < 2 ^ 32 :=
        Nat.lt_of_le_of_lt (Nat.add_le_add_left (Nat.sub_le _ _) _) cfg.first_addressable
      rw [if_pos hmissing, allocNextBlock_eq _ haddressable] at hfirst ⊢
      cases hp : allocator.alignedAllocFn (Arena.inUse [] blocks) maxAlignment
          (headerSize + (cfg.firstBlockCapacity - preallocd)) with
      | none =>
        rw [hp] at hfirst
        exact hinv _ hfirst hblocks hpair
      | some p =>
        refine hinv _ (List.append_ne_nil_of_right_ne_nil _ (List.cons_ne_nil _ _)) ?_
          (separate_append hpair hp)
        intro b hb
        rcases List.mem_append.mp hb with hold | hnew
        · exact hblocks b hold
        · rw [List.mem_singleton.mp hnew]
          exact newBlock_valid hp
    · rw [if_neg hmissing] at hfirst ⊢
      exact hinv _ hfirst hblocks hpair
  · rw [if_neg hless] at hfirst ⊢
    exact hinv _ hfirst hblocks hpair

end

/-- After a setup with a block every sequence of requests is answered, with sound regions if every
requested alignment is checked before it is raised. -/
theorem arena_sound (cfg : Config) (allocator : Allocator) (preallocated : List (ℕ × ℕ))
    (hseparate : (preallocated.map fun b => (⟨b.1, b.2⟩ : Region)).Pairwise Region.Separate)
    (hspace : ∀ b ∈ preallocated, b.1 + b.2 ≤ 2 ^ 32)
    (hfirst : (setup cfg allocator preallocated).blocks ≠ []) (calls : List Call)
    (hsize : ∀ call ∈ calls, call.request.size < 2 ^ 30)
    (hchecked : ∀ call ∈ calls, AlignmentChecked cfg call.request) :
    ∃ s, calls.foldlM (State.step cfg) ⟨setup cfg allocator preallocated, []⟩ = some s ∧
      s.Sound cfg ∧ s.served.reverse.map Served.call = calls := by
  have hrun : ∀ (calls : List Call) (s : State), s.Inv cfg →
      (∀ call ∈ calls, call.request.size < 2 ^ 30) →
      ∃ s', calls.foldlM (State.step cfg) s = some s' ∧ s'.Inv cfg ∧
        s'.served.reverse.map Served.call = s.served.reverse.map Served.call ++ calls := by
    intro calls
    induction calls with
    | nil => exact fun s hs _ => ⟨s, rfl, hs, (List.append_nil _).symm⟩
    | cons call rest ih =>
      intro s hs hsize
      obtain ⟨next, hstep, hnext, e, he, hserved⟩ :=
        hs.step (hsize call List.mem_cons_self)
      obtain ⟨s', hfold, hs', hcalls⟩ :=
        ih next hnext (fun c hc => hsize c (List.mem_cons_of_mem _ hc))
      refine ⟨s', ?_, hs', ?_⟩
      · rw [List.foldlM_cons, hstep]
        exact hfold
      · rw [hcalls, hserved, List.reverse_cons, List.map_append, List.map_singleton, he,
          List.append_assoc, List.singleton_append]
  obtain ⟨s, hfold, hs, hcalls⟩ :=
    hrun calls _ (setup_inv hseparate hspace hfirst) hsize
  refine ⟨s, hfold, hs.sound fun e he => hchecked e.call ?_, hcalls⟩
  rw [List.reverse_nil, List.map_nil, List.nil_append] at hcalls
  rw [← hcalls]
  exact List.mem_map_of_mem (List.mem_reverse.mpr he)

/-- The end of the memory in use, at least a base address. -/
def endOf (base : ℕ) : List Region → ℕ
  | [] => base
  | r :: rest => max (r.start + r.size) (endOf base rest)

theorem le_endOf {base : ℕ} {regions : List Region} {r : Region} (h : r ∈ regions) :
    r.start + r.size ≤ endOf base regions := by
  induction regions with
  | nil => exact absurd h List.not_mem_nil
  | cons first rest ih =>
    rcases List.mem_cons.mp h with rfl | hrest
    · exact Nat.le_max_left _ _
    · exact (ih hrest).trans (Nat.le_max_right _ _)

/-- The first aligned address behind the memory in use, if there is room. -/
def bumpFn (base : ℕ) (inUse : List Region) (align size : ℕ) : Option ℕ :=
  let p := (endOf base inUse + align - 1) / align * align
  if 0 < align ∧ p + size ≤ 2 ^ 32 then some p else none

theorem bumpFn_eq_some {base align size p : ℕ} {inUse : List Region}
    (h : bumpFn base inUse align size = some p) :
    endOf base inUse ≤ p ∧ align ∣ p ∧ p + size ≤ 2 ^ 32 := by
  rw [bumpFn] at h
  split at h
  · rename_i hroom
    obtain rfl := Option.some.inj h
    refine ⟨?_, Nat.dvd_mul_left _ _, hroom.2⟩
    have hdiv := Nat.div_add_mod (endOf base inUse + align - 1) align
    have hlt := Nat.mod_lt (endOf base inUse + align - 1) hroom.1
    rw [Nat.mul_comm] at hdiv
    omega
  · exact absurd h (Option.some_ne_none p).symm

def bump (base : ℕ) : Allocator where
  alignedAllocFn := bumpFn base
  aligned := fun _ _ _ _ h _ => (bumpFn_eq_some h).2.1
  separate := fun _ _ _ _ h _ hr =>
    Region.separate_of_le ((le_endOf hr).trans (bumpFn_eq_some h).1)
  in_space := fun _ _ _ _ h => (bumpFn_eq_some h).2.2

def dramArena : Config :=
  ⟨1, 8192, 1024, 8, false, ⟨3, rfl⟩, by decide, by decide, by decide⟩

def iramArena : Config :=
  ⟨4, 8192, 1024, 8, false, ⟨3, rfl⟩, by decide, by decide, by decide⟩

theorem dram_requests_sound :
    ∃ s, [⟨.alloc 5, bump 0x3FFB0000⟩, ⟨.alignedAlloc 8 8184, bump 0x3FFB0000⟩,
        ⟨.alignedAlloc 4 2000, bump 0x3FFB0000⟩].foldlM (State.step dramArena)
          ⟨setup dramArena (bump 0x3FFB0000) [(0x3FFAE6E0, 6432)], []⟩ = some s ∧
      s.Sound dramArena ∧
      s.served.reverse.map Served.call =
        [⟨.alloc 5, bump 0x3FFB0000⟩, ⟨.alignedAlloc 8 8184, bump 0x3FFB0000⟩,
          ⟨.alignedAlloc 4 2000, bump 0x3FFB0000⟩] := by
  apply arena_sound dramArena (bump 0x3FFB0000) [(0x3FFAE6E0, 6432)]
  · exact List.pairwise_singleton _ _
  · intro b hb
    rw [List.mem_singleton.mp hb]
    decide
  · decide
  · intro call hcall
    rcases List.mem_cons.mp hcall with rfl | hcall
    · decide
    · rcases List.mem_cons.mp hcall with rfl | hcall
      · decide
      · rw [List.mem_singleton.mp hcall]
        decide
  · intro call hcall
    rcases List.mem_cons.mp hcall with rfl | hcall
    · decide
    · rcases List.mem_cons.mp hcall with rfl | hcall
      · decide
      · rw [List.mem_singleton.mp hcall]
        decide

/-- With a minimum of four an alignment of three is accepted and not kept. -/
theorem alignment_of_three_not_kept :
    ∃ s, State.step iramArena ⟨setup iramArena (bump 0x40080000) [(0x4009E000, 8192)], []⟩
        ⟨.alignedAlloc 3 8, bump 0x40080000⟩ = some s ∧ ¬ s.Sound iramArena := by
  refine ⟨_, rfl, fun h => ?_⟩
  have haligned := h.aligned _ List.mem_cons_self ⟨0x4009E010, 8⟩ rfl
  exact absurd haligned (by decide)

end Esp32Firmware.Tools.Arena
