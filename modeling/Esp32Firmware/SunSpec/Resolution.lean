import Esp32Firmware.Library.Procedures
import Esp32Firmware.SunSpec.Resolver

/-!
# What a resolver ends with

While no read fails the resolver follows the chain behind the first base address with the
SunSpec id and ends with what the search finds. Failed reads are repeated or counted, so it
also ends then, as long as following the chain arrives anywhere.
-/

namespace Esp32Firmware.SunSpec

open ModbusDeserializer Procedure

section

variable (request : Request) (regs : Registers)

/-- A read of a device with fixed registers. -/
def readStep (r : Resolver) (result : TransactionResult) : Outcome :=
  r.transacted request result (regs.buffer r.startAddress)

/-- What became of a resolver after a number of reads. -/
def outcome (results : ℕ → TransactionResult) : ℕ → Outcome :=
  after (readStep request regs) Resolver.create results

/-- Following the chain arrives at the end model or passes the block looked for. -/
def Reaches (first : Block) : Prop :=
  ∃ blocks last, regs.Leads first blocks last ∧ (regs.modelId last = endModelId ∨
    ∃ block, InstanceOf regs request regs.startsDevice blocks block)

/-- The first base address with the SunSpec id. -/
def firstBase : Option UInt16 := baseAddresses.find? fun base => decide (regs.CarriesId base)

end

/-- The resolver reads the header of a block. -/
structure AtHeader (r : Resolver) (block : Block) (s : Search) : Prop where
  state : r.stateNext = .readModelHeader
  address : r.startAddress = block.address
  dataCount : r.dataCount = 2
  deviceFound : r.deviceFound = s.deviceFound
  modelCounter : r.modelCounter = s.modelCounter

section

variable {request : Request} {regs : Registers} {r : Resolver} {block : Block} {s : Search}

theorem transacted_success (buf : Buffer) :
    r.transacted request .success buf = r.next request buf := by
  unfold Resolver.transacted
  rw [if_neg (by simp)]

/-- What the header of a block decides. -/
theorem readStep_header (hstate : r.stateNext = .readModelHeader)
    (haddress : r.startAddress = block.address) :
    readStep request regs r .success =
      if regs.modelId block = endModelId then .inr none
      else if r.deviceFound ∧ regs.modelId block = request.modelId then
        if r.modelCounter > 0 then
          .inl ({ r with modelCounter := r.modelCounter - 1 }.skipBlock (regs.blockLength block))
        else .inr (some (r.commonModel, r.startAddress, regs.blockLength block))
      else if regs.modelId block = commonModelId then
        .inl { r with stateNext := .readModel, dataCount := 67 }
      else .inl (r.skipBlock (regs.blockLength block)) := by
  obtain ⟨address⟩ := block
  subst haddress
  unfold readStep
  rw [transacted_success]
  unfold Resolver.next
  rw [hstate]
  rfl

section

variable (h : AtHeader r block s)
include h

theorem AtHeader.next_end (hend : regs.modelId block = endModelId) :
    readStep request regs r .success = .inr none := by
  rw [readStep_header h.state h.address, if_pos hend]

theorem AtHeader.next_found (hne : regs.modelId block ≠ endModelId)
    (hfound : s.deviceFound = true ∧ regs.modelId block = request.modelId)
    (hcounter : ¬ s.modelCounter > 0) :
    readStep request regs r .success =
      .inr (some (r.commonModel, block.address, regs.blockLength block)) := by
  rw [readStep_header h.state h.address, h.deviceFound, h.modelCounter, if_neg hne,
    if_pos hfound, if_neg hcounter, h.address]

/-- The header behind a block that is skipped. -/
theorem AtHeader.skipBlock :
    AtHeader (r.skipBlock (regs.blockLength block)) (regs.nextBlock block) s := by
  refine ⟨h.state, ?_, rfl, h.deviceFound, h.modelCounter⟩
  unfold Resolver.skipBlock
  rw [h.address, h.dataCount]
  rfl

theorem AtHeader.next_wanted (hne : regs.modelId block ≠ endModelId)
    (hfound : s.deviceFound = true ∧ regs.modelId block = request.modelId)
    (hcounter : s.modelCounter > 0) :
    ∃ t, readStep request regs r .success = .inl t ∧ t.errorCounter = r.errorCounter ∧
      AtHeader t (regs.nextBlock block) { s with modelCounter := s.modelCounter - 1 } := by
  refine ⟨{ r with modelCounter := r.modelCounter - 1 }.skipBlock (regs.blockLength block),
    ?_, rfl, ?_⟩
  · rw [readStep_header h.state h.address, h.deviceFound, h.modelCounter, if_neg hne,
      if_pos hfound, if_pos hcounter]
  · apply AtHeader.skipBlock
    exact ⟨h.state, h.address, h.dataCount, h.deviceFound, congrArg (· - 1) h.modelCounter⟩

theorem AtHeader.next_other (hne : regs.modelId block ≠ endModelId)
    (hfound : ¬ (s.deviceFound = true ∧ regs.modelId block = request.modelId))
    (hcommon : regs.modelId block ≠ commonModelId) :
    ∃ t, readStep request regs r .success = .inl t ∧ t.errorCounter = r.errorCounter ∧
      AtHeader t (regs.nextBlock block) s := by
  refine ⟨r.skipBlock (regs.blockLength block), ?_, rfl, h.skipBlock⟩
  rw [readStep_header h.state h.address, h.deviceFound, if_neg hne, if_neg hfound, if_neg hcommon]

end

/-- The resolver reads a whole common model. -/
structure AtModel (regs : Registers) (r : Resolver) (block : Block) (s : Search) : Prop where
  state : r.stateNext = .readModel
  address : r.startAddress = block.address
  common : regs.modelId block = commonModelId
  modelCounter : r.modelCounter = s.modelCounter

theorem AtHeader.next_common (h : AtHeader r block s) (hne : regs.modelId block ≠ endModelId)
    (hfound : ¬ (s.deviceFound = true ∧ regs.modelId block = request.modelId))
    (hcommon : regs.modelId block = commonModelId) :
    ∃ t, readStep request regs r .success = .inl t ∧ t.errorCounter = r.errorCounter ∧
      AtModel regs t block s := by
  refine ⟨{ r with stateNext := .readModel, dataCount := 67 }, ?_, rfl, rfl, h.address, hcommon,
    h.modelCounter⟩
  rw [readStep_header h.state h.address, h.deviceFound, if_neg hne, if_neg hfound, if_pos hcommon]

theorem AtModel.next (h : AtModel regs r block s) :
    ∃ t, readStep request regs r .success = .inl t ∧ t.errorCounter = r.errorCounter ∧
      AtHeader t (regs.nextBlock block) ⟨matchesDevice request (regs.commonModel block),
        if matchesDevice request (regs.commonModel block) then request.modelInstance
        else s.modelCounter⟩ := by
  refine ⟨{ r.takeCommonModel request (regs.commonModel block) with
    stateNext := .readModelHeader
    startAddress := block.address + (2 + regs.blockLength block)
    dataCount := 2 }, ?_, rfl, rfl, rfl, rfl, rfl, ?_⟩
  · unfold readStep
    rw [transacted_success, h.address]
    unfold Resolver.next
    rw [h.state]
    have hcommon : readUint16 (regs.buffer block.address) 0 = commonModelId := h.common
    simp only [hcommon, if_true, Resolver.takeCommonModel, h.address]
    rfl
  · simp only [Resolver.takeCommonModel, h.modelCounter]

/-- The resolver reads the id at a base address. -/
structure AtBase (r : Resolver) (rest : List UInt16) : Prop where
  state : r.stateNext = .readSunSpecId
  bases : baseAddresses.drop r.baseAddressIndex = r.startAddress :: rest
  dataCount : r.dataCount = 2
  deviceFound : r.deviceFound = false
  modelCounter : r.modelCounter = 0

theorem AtBase.create : AtBase Resolver.create [50000, 0] := ⟨rfl, rfl, rfl, rfl, rfl⟩

variable {rest : List UInt16}

theorem AtBase.next_carries (h : AtBase r rest) (hid : regs.CarriesId r.startAddress) :
    ∃ t, readStep request regs r .success = .inl t ∧
      AtHeader t (Registers.firstBlock r.startAddress) ⟨false, 0⟩ := by
  refine ⟨{ r with
    stateNext := .readModelHeader
    startAddress := r.startAddress + r.dataCount
    dataCount := 2 }, ?_, rfl, ?_, rfl, h.deviceFound, h.modelCounter⟩
  · unfold readStep
    rw [transacted_success]
    unfold Resolver.next
    rw [h.state]
    exact if_pos hid
  · rw [h.dataCount]
    rfl

theorem AtBase.next_missing (h : AtBase r rest) (hid : ¬ regs.CarriesId r.startAddress) :
    readStep request regs r .success = r.nextBaseAddress := by
  unfold readStep
  rw [transacted_success]
  unfold Resolver.next
  rw [h.state]
  exact if_neg hid

theorem AtBase.nextBaseAddress_nil (h : AtBase r []) : r.nextBaseAddress = .inr none := by
  have hnone : baseAddresses[r.baseAddressIndex + 1]? = none := by
    rw [← List.getElem?_drop, h.bases]
    rfl
  unfold Resolver.nextBaseAddress
  rw [hnone]

theorem AtBase.nextBaseAddress_cons {base : UInt16} (h : AtBase r (base :: rest)) :
    ∃ t, r.nextBaseAddress = .inl t ∧ AtBase t rest ∧ t.startAddress = base := by
  have hsome : baseAddresses[r.baseAddressIndex + 1]? = some base := by
    rw [← List.getElem?_drop, h.bases]
    rfl
  refine ⟨{ r with
    baseAddressIndex := r.baseAddressIndex + 1
    errorCounter := 0
    stateNext := .readSunSpecId
    startAddress := base
    dataCount := 2 }, ?_, ⟨rfl, ?_, rfl, h.deviceFound, h.modelCounter⟩, rfl⟩
  · unfold Resolver.nextBaseAddress
    rw [hsome]
  · rw [← List.drop_drop, h.bases]
    rfl

variable {result : TransactionResult}

/-- A read of the id that failed. -/
theorem AtBase.failed (h : AtBase r rest) (hresult : result ≠ .success) :
    readStep request regs r result = .inr none ∨
      readStep request regs r result = { r with errorCounter := r.errorCounter + 1 }.nextBaseAddress
      := by
  unfold readStep Resolver.transacted
  rw [if_pos hresult]
  simp only [h.state, if_true]
  split
  · exact .inl rfl
  · exact .inr rfl

/-- A read of a block that failed. -/
theorem readStep_failed (hstate : r.stateNext ≠ .readSunSpecId) (hresult : result ≠ .success) :
    readStep request regs r result = .inr none ∨ r.errorCounter + 1 < 20 ∧
        readStep request regs r result = .inl { r with errorCounter := r.errorCounter + 1 } := by
  unfold readStep Resolver.transacted
  rw [if_pos hresult]
  simp only [hstate, if_false]
  split
  · exact .inl rfl
  · split
    · exact .inl rfl
    · rename_i hcounter
      exact .inr ⟨Nat.lt_of_not_le hcounter, rfl⟩

end

section

variable {request : Request} {regs : Registers} {r : Resolver} {block : Block} {s : Search}
  {n : ℕ}

/-- Following the chain ends the search after at most a number of blocks. -/
def ArrivesWithin (regs : Registers) (request : Request) (s : Search) (block : Block) (n : ℕ) :
    Prop :=
  ∃ blocks last, regs.Leads block blocks last ∧ blocks.length ≤ n ∧
    (regs.modelId last = endModelId ∨ (search regs request s blocks).isSome = true)

theorem ArrivesWithin.mono {m : ℕ} (h : ArrivesWithin regs request s block n) (hnm : n ≤ m) :
    ArrivesWithin regs request s block m := by
  obtain ⟨blocks, last, hleads, hlength, hlast⟩ := h
  exact ⟨blocks, last, hleads, hlength.trans hnm, hlast⟩

/-- The block that ends the search is the first one, or the search goes on behind it. -/
theorem ArrivesWithin.pass (h : ArrivesWithin regs request s block n)
    (hne : regs.modelId block ≠ endModelId) {t : Search}
    (hsearch : ∀ rest, search regs request s (block :: rest) = search regs request t rest) :
    ∃ m < n, ArrivesWithin regs request t (regs.nextBlock block) m := by
  obtain ⟨blocks, last, hleads, hlength, hlast⟩ := h
  cases hleads with
  | here =>
    rcases hlast with hend | hsome
    · exact absurd hend hne
    · cases hsome
  | @pass _ _ rest _ hrest =>
    rw [hsearch] at hlast
    exact ⟨rest.length, hlength, rest, last, hrest, le_rfl, hlast⟩

/-- A bound on the reads a resolver still takes. -/
inductive Bounded (request : Request) (regs : Registers) : ℕ → Resolver → Prop where
  | base {r : Resolver} {rest : List UInt16} {longest n : ℕ} (at_base : AtBase r rest)
      (arrives : ∀ base ∈ r.startAddress :: rest, regs.CarriesId base →
        ArrivesWithin regs request ⟨false, 0⟩ (Registers.firstBlock base) longest)
      (bound : 2 * longest + 22 + rest.length ≤ n) : Bounded request regs n r
  | header {r : Resolver} {block : Block} {s : Search} {longest n : ℕ}
      (at_header : AtHeader r block s)
      (arrives : ArrivesWithin regs request s block longest)
      (bound : 2 * longest + 1 + (20 - r.errorCounter) ≤ n) : Bounded request regs n r
  | model {r : Resolver} {block : Block} {s : Search} {longest n : ℕ}
      (at_model : AtModel regs r block s)
      (arrives : ArrivesWithin regs request ⟨matchesDevice request (regs.commonModel block),
        if matchesDevice request (regs.commonModel block) then request.modelInstance
        else s.modelCounter⟩ (regs.nextBlock block) longest)
      (bound : 2 * longest + 2 + (20 - r.errorCounter) ≤ n) : Bounded request regs n r

/-- What a read of a resolver with a bound leads to: an end, or a smaller bound. -/
def Progress (request : Request) (regs : Registers) (n : ℕ) (o : Outcome) : Prop :=
  (∃ report, o = .inr report) ∨ ∃ t m, o = .inl t ∧ m < n ∧ Bounded request regs m t

theorem progress_nextBaseAddress {rest : List UInt16} {longest : ℕ} (h : AtBase r rest)
    (harrives : ∀ base ∈ r.startAddress :: rest, regs.CarriesId base →
      ArrivesWithin regs request ⟨false, 0⟩ (Registers.firstBlock base) longest)
    (hbound : 2 * longest + 22 + rest.length ≤ n) :
    Progress request regs n r.nextBaseAddress := by
  cases rest with
  | nil => exact .inl ⟨none, h.nextBaseAddress_nil⟩
  | cons base rest =>
    obtain ⟨t, ht, hbase, haddress⟩ := h.nextBaseAddress_cons
    have hrest : ∀ b ∈ t.startAddress :: rest, regs.CarriesId b →
        ArrivesWithin regs request ⟨false, 0⟩ (Registers.firstBlock b) longest := by
      rw [haddress]
      exact fun b hb => harrives b (List.mem_cons_of_mem _ hb)
    refine .inr ⟨t, _, ht, ?_, .base hbase hrest le_rfl⟩
    rw [List.length_cons] at hbound
    omega

theorem progress_header {longest : ℕ} (h : AtHeader r block s)
    (harrives : ArrivesWithin regs request s block longest)
    (hbound : 2 * longest + 1 + (20 - r.errorCounter) ≤ n) :
    Progress request regs n (readStep request regs r .success) := by
  by_cases hne : regs.modelId block = endModelId
  · exact .inl ⟨none, h.next_end hne⟩
  by_cases hfound : s.deviceFound = true ∧ regs.modelId block = request.modelId
  · by_cases hcounter : s.modelCounter > 0
    · obtain ⟨t, ht, herrors, hheader⟩ := h.next_wanted hne hfound hcounter
      obtain ⟨m, hm, hrest⟩ := harrives.pass hne fun rest => by
        rw [search, if_pos hfound, if_pos hcounter]
      refine .inr ⟨t, _, ht, ?_, .header hheader hrest le_rfl⟩
      rw [herrors]
      omega
    · exact .inl ⟨_, h.next_found hne hfound hcounter⟩
  by_cases hcommon : regs.modelId block = commonModelId
  · obtain ⟨t, ht, herrors, hmodel⟩ := h.next_common hne hfound hcommon
    obtain ⟨m, hm, hrest⟩ := harrives.pass hne fun rest => by
      rw [search, if_neg hfound, if_pos hcommon]
    refine .inr ⟨t, _, ht, ?_, .model hmodel hrest le_rfl⟩
    rw [herrors]
    omega
  · obtain ⟨t, ht, herrors, hheader⟩ := h.next_other hne hfound hcommon
    obtain ⟨m, hm, hrest⟩ := harrives.pass hne fun rest => by
      rw [search, if_neg hfound, if_neg hcommon]
    refine .inr ⟨t, _, ht, ?_, .header hheader hrest le_rfl⟩
    rw [herrors]
    omega

/-- Every read makes progress, whether it fails or not. -/
theorem Bounded.progress (h : Bounded request regs n r) (result : TransactionResult) :
    Progress request regs n (readStep request regs r result) := by
  by_cases hresult : result = .success
  · subst hresult
    cases h with
    | @base _ rest longest _ hbase harrives hbound =>
      by_cases hid : regs.CarriesId r.startAddress
      · obtain ⟨t, ht, hheader⟩ := hbase.next_carries hid
        refine .inr ⟨t, _, ht, ?_, .header hheader (harrives _ List.mem_cons_self hid) le_rfl⟩
        omega
      · rw [hbase.next_missing hid]
        exact progress_nextBaseAddress hbase harrives hbound
    | header hheader harrives hbound => exact progress_header hheader harrives hbound
    | model hmodel harrives hbound =>
      obtain ⟨t, ht, herrors, hheader⟩ := hmodel.next
      refine .inr ⟨t, _, ht, ?_, .header hheader harrives le_rfl⟩
      rw [herrors]
      omega
  · cases h with
    | base hbase harrives hbound =>
      rcases hbase.failed hresult with hend | hnext
      · exact .inl ⟨none, hend⟩
      · rw [hnext]
        exact progress_nextBaseAddress ⟨hbase.state, hbase.bases, hbase.dataCount,
          hbase.deviceFound, hbase.modelCounter⟩ harrives hbound
    | header hheader harrives hbound =>
      have hstate : r.stateNext ≠ .readSunSpecId := by simp [hheader.state]
      rcases readStep_failed hstate hresult with hend | ⟨hcounter, hnext⟩
      · exact .inl ⟨none, hend⟩
      · refine .inr ⟨_, _, hnext, ?_, .header ⟨hheader.state, hheader.address,
          hheader.dataCount, hheader.deviceFound, hheader.modelCounter⟩ harrives le_rfl⟩
        simp only
        omega
    | model hmodel harrives hbound =>
      have hstate : r.stateNext ≠ .readSunSpecId := by simp [hmodel.state]
      rcases readStep_failed hstate hresult with hend | ⟨hcounter, hnext⟩
      · exact .inl ⟨none, hend⟩
      · refine .inr ⟨_, _, hnext, ?_, .model ⟨hmodel.state, hmodel.address,
          hmodel.common, hmodel.modelCounter⟩ harrives le_rfl⟩
        simp only
        omega

/-- The longest of the chains behind some base addresses. -/
theorem exists_longest (bases : List UInt16)
    (hreaches : ∀ base ∈ bases, regs.CarriesId base →
      Reaches request regs (Registers.firstBlock base)) :
    ∃ longest, ∀ base ∈ bases, regs.CarriesId base →
      ArrivesWithin regs request ⟨false, 0⟩ (Registers.firstBlock base) longest := by
  induction bases with
  | nil => exact ⟨0, fun _ h => absurd h List.not_mem_nil⟩
  | cons base rest ih =>
    obtain ⟨longest, hrest⟩ := ih fun b hb => hreaches b (List.mem_cons_of_mem _ hb)
    by_cases hid : regs.CarriesId base
    · obtain ⟨blocks, last, hleads, hlast⟩ := hreaches base List.mem_cons_self hid
      have hsearch := hlast.imp_right fun ⟨block, h⟩ => isSome_search_of_instanceOf h
      refine ⟨max longest blocks.length, fun b hb hcarries => ?_⟩
      rcases List.mem_cons.mp hb with rfl | hb
      · exact ⟨blocks, last, hleads, le_max_right _ _, hsearch⟩
      · exact (hrest b hb hcarries).mono (le_max_left _ _)
    · refine ⟨longest, fun b hb hcarries => ?_⟩
      rcases List.mem_cons.mp hb with rfl | hb
      · exact absurd hcarries hid
      · exact hrest b hb hcarries

/-- Whatever reads fail, the resolver ends after a number of reads that does not depend on
them. -/
theorem outcome_bounded
    (hreaches : ∀ base ∈ baseAddresses, regs.CarriesId base →
      Reaches request regs (Registers.firstBlock base)) :
    ∃ bound, ∀ results, ∃ report, outcome request regs results bound = .inr report := by
  obtain ⟨longest, harrives⟩ := exists_longest baseAddresses hreaches
  have hcreate : Bounded request regs (2 * longest + 24) Resolver.create :=
    .base AtBase.create harrives le_rfl
  refine ⟨2 * longest + 24 + 1, fun results => ?_⟩
  exact exists_after_of_bound (fun n r result (h : Bounded request regs n r) => h.progress result)
    hcreate results

end

variable {request : Request} {regs : Registers} {r : Resolver} {first last block : Block}
  {blocks : List Block} {s : Search}

/-- What is reported about the block that was found. -/
def Reports (regs : Registers) (found : Option Block) (report : Report) : Prop :=
  match found with
  | none => report = none
  | some block => ∃ common, report = some (common, block.address, regs.blockLength block)

/-- Following a chain the resolver ends with what the search finds in it. -/
theorem AtHeader.ends (h : AtHeader r first s) (hleads : regs.Leads first blocks last)
    (hlast : regs.modelId last = endModelId ∨ (search regs request s blocks).isSome = true) :
    ∃ report, EndsWith (readStep request regs) .success r report ∧
      Reports regs (search regs request s blocks) report := by
  induction hleads generalizing r s with
  | here block =>
    rcases hlast with hend | hsome
    · exact ⟨none, .result (h.next_end hend), rfl⟩
    · cases hsome
  | @pass block last rest hne _ ih =>
    by_cases hfound : s.deviceFound = true ∧ regs.modelId block = request.modelId
    · by_cases hcounter : s.modelCounter > 0
      · rw [search, if_pos hfound, if_pos hcounter] at hlast ⊢
        obtain ⟨t, ht, _, hheader⟩ := h.next_wanted hne hfound hcounter
        obtain ⟨report, hends, hreport⟩ := ih hheader hlast
        exact ⟨report, .reply ht hends, hreport⟩
      · rw [search, if_pos hfound, if_neg hcounter]
        exact ⟨_, .result (h.next_found hne hfound hcounter), r.commonModel, rfl⟩
    by_cases hcommon : regs.modelId block = commonModelId
    · rw [search, if_neg hfound, if_pos hcommon] at hlast ⊢
      obtain ⟨t, ht, _, hmodel⟩ := h.next_common hne hfound hcommon
      obtain ⟨u, hu, _, hheader⟩ := hmodel.next
      obtain ⟨report, hends, hreport⟩ := ih hheader hlast
      exact ⟨report, .reply ht (.reply hu hends), hreport⟩
    · rw [search, if_neg hfound, if_neg hcommon] at hlast ⊢
      obtain ⟨t, ht, _, hheader⟩ := h.next_other hne hfound hcommon
      obtain ⟨report, hends, hreport⟩ := ih hheader hlast
      exact ⟨report, .reply ht hends, hreport⟩

end Esp32Firmware.SunSpec
