import Esp32Firmware.SunSpec.Resolution

/-!
# The result of a resolver

A resolver whose reads all succeed ends with the block looked for behind the first base address
with the SunSpec id, if there is one. If the chain there goes on forever without that block, so
does the resolver.
-/

namespace Esp32Firmware.SunSpec

open Procedure

section

variable {request : Request} {regs : Registers} {r : Resolver} {rest : List UInt16}

/-- From some read on, a resolver whose reads succeed behaves like one behind a base address. -/
def ArrivesBehind (request : Request) (regs : Registers) (r : Resolver) (base : UInt16) : Prop :=
  ∃ t k, AtHeader t (Registers.firstBlock base) ⟨false, 0⟩ ∧
    ∀ m, after (readStep request regs) r (fun _ => .success) (k + m) =
      after (readStep request regs) t (fun _ => .success) m

theorem AtBase.arrives_here (h : AtBase r rest) (hid : regs.CarriesId r.startAddress) :
    ArrivesBehind request regs r r.startAddress := by
  obtain ⟨t, ht, hheader⟩ := h.next_carries hid
  refine ⟨t, 1, hheader, fun m => ?_⟩
  rw [Nat.add_comm]
  exact after_succ_of_inl ht

/-- The resolver arrives behind the first base address with the id. -/
theorem AtBase.arrives (request : Request) (h : AtBase r rest) {base : UInt16}
    (hbase : (r.startAddress :: rest).find? (fun b => decide (regs.CarriesId b)) = some base) :
    ArrivesBehind request regs r base := by
  induction rest generalizing r with
  | nil =>
    by_cases hid : regs.CarriesId r.startAddress
    · rw [List.find?_cons_of_pos (by simpa using hid)] at hbase
      exact Option.some.inj hbase ▸ h.arrives_here hid
    · rw [List.find?_cons_of_neg (by simpa using hid)] at hbase
      cases hbase
  | cons b rest ih =>
    by_cases hid : regs.CarriesId r.startAddress
    · rw [List.find?_cons_of_pos (by simpa using hid)] at hbase
      exact Option.some.inj hbase ▸ h.arrives_here hid
    · rw [List.find?_cons_of_neg (by simpa using hid)] at hbase
      obtain ⟨u, hu, hnext, rfl⟩ := h.nextBaseAddress_cons
      obtain ⟨t, k, hheader, hrun⟩ := ih hnext hbase
      refine ⟨t, k + 1, hheader, fun m => ?_⟩
      rw [Nat.add_right_comm, ← hrun]
      exact after_succ_of_inl ((h.next_missing hid).trans hu)

/-- Without the id at any base address nothing is reported. -/
theorem AtBase.ends_none (request : Request) (h : AtBase r rest)
    (hbase : (r.startAddress :: rest).find? (fun b => decide (regs.CarriesId b)) = none) :
    EndsWith (readStep request regs) .success r none := by
  have hid : ¬ regs.CarriesId r.startAddress := by
    simpa using List.find?_eq_none.mp hbase _ List.mem_cons_self
  induction rest generalizing r with
  | nil => exact .result ((h.next_missing hid).trans h.nextBaseAddress_nil)
  | cons b rest ih =>
    obtain ⟨u, hu, hnext, rfl⟩ := h.nextBaseAddress_cons
    rw [List.find?_cons_of_neg (by simpa using hid)] at hbase
    refine .reply ((h.next_missing hid).trans hu) (ih hnext hbase ?_)
    simpa using List.find?_eq_none.mp hbase _ List.mem_cons_self

end

section

variable {request : Request} {regs : Registers} {results : ℕ → TransactionResult}

/-- The block looked for, in the chain behind the first base address with the SunSpec id. -/
def IsResult (request : Request) (regs : Registers) (block : Block) : Prop :=
  ∃ base blocks last, firstBase regs = some base ∧
    regs.Leads (Registers.firstBlock base) blocks last ∧
    InstanceOf regs request regs.startsDevice blocks block

/-- The resolver reports the block looked for, and nothing if there is none. -/
structure ReportsResult (request : Request) (regs : Registers) (report : Report) : Prop where
  isSome_iff : report.isSome = true ↔ ∃ block, IsResult request regs block
  eq_result : ∀ common address length, report = some (common, address, length) →
    ∃ block, IsResult request regs block ∧ block.address = address ∧ regs.blockLength block = length

theorem reportsResult_of_firstBase_none (hbase : firstBase regs = none) :
    ReportsResult request regs none := by
  constructor
  · constructor
    · intro h
      cases h
    · rintro ⟨block, base, blocks, last, hfirst, _⟩
      rw [hbase] at hfirst
      cases hfirst
  · intro common address length h
    cases h

/-- What the search finds in a chain is the block looked for. -/
theorem reportsResult_of_search (hmodel : request.modelId ≠ commonModelId) {base : UInt16}
    {blocks : List Block} {last : Block} {report : Report} (hbase : firstBase regs = some base)
    (hleads : regs.Leads (Registers.firstBlock base) blocks last)
    (hlast : regs.modelId last = endModelId ∨ (search regs request ⟨false, 0⟩ blocks).isSome = true)
    (hreport : Reports regs (search regs request ⟨false, 0⟩ blocks) report) :
    ReportsResult request regs report := by
  have hspec := search_spec regs hmodel ⟨false, 0⟩ blocks
  cases hsearch : search regs request ⟨false, 0⟩ blocks with
  | none =>
    rw [hsearch] at hreport hlast hspec
    have hend : regs.modelId last = endModelId := hlast.resolve_right (by simp)
    have hnone : ¬ ∃ block, IsResult request regs block := by
      rintro ⟨block, base', blocks', last', hbase', hleads', hinstance⟩
      obtain rfl := Option.some.inj (hbase.symm.trans hbase')
      obtain ⟨rest, rfl⟩ := hleads'.prefix_chain hleads hend
      exact hspec.2 rfl block (.inr (hinstance.append rest))
    constructor
    · rw [show report = none from hreport]
      exact iff_of_false (by simp) hnone
    · intro common address length h
      rw [show report = none from hreport] at h
      cases h
  | some block =>
    rw [hsearch] at hreport hspec
    obtain ⟨common, rfl⟩ := hreport
    have hresult : IsResult request regs block := by
      refine ⟨base, blocks, last, hbase, hleads, ?_⟩
      rcases hspec.1 block rfl with ⟨hfound, _⟩ | hinstance
      · cases hfound
      · exact hinstance
    constructor
    · exact iff_of_true rfl ⟨block, hresult⟩
    · intro common' address length h
      obtain ⟨_, rfl, rfl⟩ := Prod.mk.injEq .. ▸ Option.some.inj h
      exact ⟨block, hresult, rfl, rfl⟩

end

section

variable {request : Request} {regs : Registers} {block : Block} {s t : Search}

/-- Following the chain ends the search. -/
def Arrives (request : Request) (regs : Registers) (s : Search) (block : Block) : Prop :=
  ∃ n, ArrivesWithin regs request s block n

theorem reaches_iff_arrives (hmodel : request.modelId ≠ commonModelId) :
    Reaches request regs block ↔ Arrives request regs ⟨false, 0⟩ block := by
  constructor
  · rintro ⟨blocks, last, hleads, hlast⟩
    refine ⟨blocks.length, blocks, last, hleads, le_rfl, hlast.imp_right ?_⟩
    exact fun ⟨_, hinstance⟩ => isSome_search_of_instanceOf hinstance
  · rintro ⟨_, blocks, last, hleads, _, hlast⟩
    refine ⟨blocks, last, hleads, hlast.imp_right fun hsome => ?_⟩
    obtain ⟨found, hfound⟩ := Option.isSome_iff_exists.mp hsome
    rcases (search_spec regs hmodel _ _).1 found hfound with ⟨hdevice, _⟩ | hinstance
    · cases hdevice
    · exact ⟨found, hinstance⟩

theorem Arrives.of_pass (hne : regs.modelId block ≠ endModelId)
    (hsearch : ∀ rest, search regs request s (block :: rest) = search regs request t rest)
    (h : Arrives request regs t (regs.nextBlock block)) : Arrives request regs s block := by
  obtain ⟨n, blocks, last, hleads, hlength, hlast⟩ := h
  refine ⟨n + 1, block :: blocks, last, .pass hne hleads, Nat.succ_le_succ hlength, ?_⟩
  rw [hsearch]
  exact hlast

/-- A resolver in a chain that never ends the search. -/
inductive Going (request : Request) (regs : Registers) : Resolver → Prop where
  | header {r : Resolver} {block : Block} {s : Search} (at_header : AtHeader r block s)
      (going : ¬ Arrives request regs s block) : Going request regs r
  | model {r : Resolver} {block : Block} {s : Search} (at_model : AtModel regs r block s)
      (going : ¬ Arrives request regs ⟨matchesDevice request (regs.commonModel block),
        if matchesDevice request (regs.commonModel block) then request.modelInstance
        else s.modelCounter⟩ (regs.nextBlock block)) : Going request regs r

theorem Going.step {r : Resolver} (h : Going request regs r) :
    ∃ t, readStep request regs r .success = .inl t ∧ Going request regs t := by
  cases h with
  | model hmodel hgoing =>
    obtain ⟨t, ht, _, hheader⟩ := hmodel.next
    exact ⟨t, ht, .header hheader hgoing⟩
  | @header block s hheader hgoing =>
    have hne : regs.modelId block ≠ endModelId := by
      intro hend
      exact hgoing ⟨0, [], block, .here block, le_rfl, .inl hend⟩
    by_cases hfound : s.deviceFound = true ∧ regs.modelId block = request.modelId
    · by_cases hcounter : s.modelCounter > 0
      · obtain ⟨t, ht, _, hnext⟩ := hheader.next_wanted hne hfound hcounter
        refine ⟨t, ht, .header hnext fun h => hgoing (h.of_pass hne fun rest => ?_)⟩
        rw [search, if_pos hfound, if_pos hcounter]
      · refine absurd ⟨1, [block], _, .pass hne (.here _), le_rfl, .inr ?_⟩ hgoing
        rw [search, if_pos hfound, if_neg hcounter]
        rfl
    by_cases hcommon : regs.modelId block = commonModelId
    · obtain ⟨t, ht, _, hnext⟩ := hheader.next_common hne hfound hcommon
      refine ⟨t, ht, .model hnext fun h => hgoing (h.of_pass hne fun rest => ?_)⟩
      rw [search, if_neg hfound, if_pos hcommon]
    · obtain ⟨t, ht, _, hnext⟩ := hheader.next_other hne hfound hcommon
      refine ⟨t, ht, .header hnext fun h => hgoing (h.of_pass hne fun rest => ?_)⟩
      rw [search, if_neg hfound, if_neg hcommon]

/-- A chain that arrives nowhere is followed forever. -/
theorem outcome_endless (hmodel : request.modelId ≠ commonModelId) {base : UInt16}
    (hbase : firstBase regs = some base)
    (hreaches : ¬ Reaches request regs (Registers.firstBlock base)) (reads : ℕ) :
    ∃ r, outcome request regs (fun _ => .success) reads = .inl r := by
  obtain ⟨t, k, hheader, hrun⟩ := AtBase.create.arrives request hbase
  have hgoing : Going request regs t :=
    .header hheader ((reaches_iff_arrives hmodel).not.mp hreaches)
  cases hout : outcome request regs (fun _ => .success) reads with
  | inl r => exact ⟨r, rfl⟩
  | inr report =>
    obtain ⟨u, hu, _⟩ :=
      after_of_endless (fun r (h : Going request regs r) => h.step) hgoing reads
    have hlater := after_of_le hout (Nat.le_add_left reads k)
    rw [hrun, hu] at hlater
    cases hlater

end

variable {request : Request} {regs : Registers}

theorem exists_reportsResult (hmodel : request.modelId ≠ commonModelId)
    (hreaches : ∀ base, firstBase regs = some base →
      Reaches request regs (Registers.firstBlock base)) :
    ∃ reads report, outcome request regs (fun _ => .success) reads = .inr report ∧
      ReportsResult request regs report := by
  cases hbase : firstBase regs with
  | none =>
    obtain ⟨reads, hreads⟩ := AtBase.create.ends_none request hbase
    exact ⟨reads, none, hreads, reportsResult_of_firstBase_none hbase⟩
  | some base =>
    obtain ⟨blocks, last, hleads, hlast⟩ := hreaches base hbase
    have hsearch := hlast.imp_right fun ⟨_, h⟩ => isSome_search_of_instanceOf h
    obtain ⟨t, k, hheader, hrun⟩ := AtBase.create.arrives request hbase
    obtain ⟨report, ⟨m, hm⟩, hreport⟩ := hheader.ends hleads hsearch
    exact ⟨k + m, report, (hrun m).trans hm,
      reportsResult_of_search hmodel hbase hleads hsearch hreport⟩

/-- The resolver has at most one result. Where the chains behind the base addresses arrive at
their end or at the block looked for, it has one whatever reads fail, and if none fails it is the
block looked for behind the first base address with the id. -/
theorem outcome_reportsResult (request : Request) (regs : Registers) :
    (∀ results k m report other, outcome request regs results k = .inr report →
      outcome request regs results m = .inr other → report = other) ∧
    ((∀ base ∈ baseAddresses, regs.CarriesId base →
        Reaches request regs (Registers.firstBlock base)) →
      ∃ bound, ∀ results, ∃ report, outcome request regs results bound = .inr report) ∧
    (request.modelId ≠ commonModelId →
      (∀ base, firstBase regs = some base → Reaches request regs (Registers.firstBlock base)) →
      ∃ reads report, outcome request regs (fun _ => .success) reads = .inr report ∧
        ReportsResult request regs report) := by
  refine ⟨?_, outcome_bounded, exists_reportsResult⟩
  intro results k m report other hreport hother
  exact after_unique hreport hother

/-- Registers with some contents. -/
def Registers.ofList (contents : List (UInt16 × UInt16)) : Registers :=
  fun address => (contents.lookup address).getD 0

/-- Any three phase inverter. -/
def anyInverter (modelInstance : UInt16) : Request := ⟨[], [], [], 103, modelInstance⟩

/-- An inverter of one phase model. -/
def inverterRegisters : Registers := .ofList
  [(40000, 0x5375), (40001, 0x6E53), (40002, 1), (40003, 66), (40070, 103), (40071, 50),
    (40122, 0xFFFF)]

theorem reaches_inverter : ∀ base ∈ baseAddresses, inverterRegisters.CarriesId base →
    Reaches (anyInverter 0) inverterRegisters (Registers.firstBlock base) := by
  intro base hbase hid
  obtain rfl : base = 40000 := by
    simp only [baseAddresses, List.mem_cons, List.not_mem_nil, or_false] at hbase
    rcases hbase with rfl | rfl | rfl
    · rfl
    · exact absurd hid (by decide)
    · exact absurd hid (by decide)
  refine ⟨[⟨40002⟩, ⟨40070⟩], ⟨40122⟩, ?_, .inl (by decide)⟩
  exact .pass (by decide) (.pass (by decide) (.here _))

theorem outcome_reportsResult_inverter :
    (∃ bound, ∀ results, ∃ report,
      outcome (anyInverter 0) inverterRegisters results bound = .inr report) ∧
    ∃ reads report,
      outcome (anyInverter 0) inverterRegisters (fun _ => .success) reads = .inr report ∧
        ReportsResult (anyInverter 0) inverterRegisters report := by
  obtain ⟨_, hbounded, hresult⟩ := outcome_reportsResult (anyInverter 0) inverterRegisters
  refine ⟨hbounded reaches_inverter, hresult (by decide) fun base hbase => ?_⟩
  apply reaches_inverter base (List.mem_of_find?_eq_some hbase)
  simpa using List.find?_some hbase

/-- Two common models of one device, with a block of the wanted model behind each. -/
def repeatedCommonRegisters : Registers := .ofList
  [(40000, 0x5375), (40001, 0x6E53), (40002, 1), (40004, 103), (40006, 1), (40008, 103),
    (40010, 0xFFFF)]

/-- A block that leads back to itself. -/
def endlessRegisters : Registers := .ofList
  [(40000, 0x5375), (40001, 0x6E53), (40002, 103), (40003, 0xFFFE)]

/-- A common model of another device. -/
def Registers.startsOtherDevice (regs : Registers) (request : Request) (block : Block) : Prop :=
  regs.modelId block = commonModelId ∧ ¬ regs.IsWantedDevice request block

/-- The second of two blocks of one device is not found if the device repeats its common model
before it, and a block that leads back to itself is read forever. -/
theorem repeated_common_not_found :
    (firstBase repeatedCommonRegisters = some 40000 ∧ (∃ blocks block,
        repeatedCommonRegisters.Chain (Registers.firstBlock 40000) blocks ∧
        InstanceOf repeatedCommonRegisters (anyInverter 1)
          (repeatedCommonRegisters.startsOtherDevice (anyInverter 1)) blocks block) ∧
      outcome (anyInverter 1) repeatedCommonRegisters (fun _ => .success) 8 = .inr none) ∧
    ∀ reads, ∃ r, outcome (anyInverter 0) endlessRegisters (fun _ => .success) reads = .inl r := by
  constructor
  · refine ⟨by decide, ⟨[⟨40002⟩, ⟨40004⟩, ⟨40006⟩, ⟨40008⟩], ⟨40008⟩, ?_, ?_⟩, rfl⟩
    · refine ⟨⟨40010⟩, ?_, by decide⟩
      exact .pass (by decide) (.pass (by decide) (.pass (by decide)
        (.pass (by decide) (.here _))))
    · refine ⟨[], ⟨40002⟩, _, rfl, ⟨by decide, rfl⟩, ⟨[⟨40004⟩, ⟨40006⟩], [], rfl, ?_, by decide⟩,
        by decide⟩
      rintro b hb ⟨hcommon, hother⟩
      exact hother ⟨hcommon, rfl⟩
  · apply outcome_endless (by decide) (by decide : firstBase endlessRegisters = some 40000)
    rintro ⟨blocks, last, hleads, hlast⟩
    obtain ⟨rfl, hblocks⟩ := hleads.of_nextBlock_eq (by decide)
    rcases hlast with hend | ⟨_, before, device, after, rfl, hdevice, _⟩
    · exact absurd hend (by decide)
    · obtain rfl := hblocks device (by simp)
      exact absurd hdevice.1 (by decide)

end Esp32Firmware.SunSpec
