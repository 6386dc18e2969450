import Mathlib

/-!
# The resolver of SunSpec models

A `SunSpecResolver` reads the holding registers of a device block by block: the SunSpec
id at one of three base addresses, then the headers of the chain of models behind it, and
the common models in full. It ends with the address of the model it looks for or with none.

The registers behind the SunSpec id hold a chain of blocks, each of which says how long it
is. The model looked for is the block with the number of the wanted instance behind a common
model of the wanted device.

## Implementation notes

A read is answered once, with a result and, on success, the registers read. Prints, traces
and the burst lengths they report are left out, and so is `destroy` from outside. The counter of
models and the common model are uninitialised until the first common model is read.
-/

namespace Esp32Firmware.SunSpec

def sunSpecId : UInt32 := 0x53756E53

def commonModelId : UInt16 := 1

def endModelId : UInt16 := 0xFFFF

/-- A C string without its terminator. -/
abbrev CString := List UInt8

def cString (s : String) : CString := s.toList.map fun c => UInt8.ofNat c.toNat

/-- `sun_spec_is_solar_edge`. -/
def isSolarEdge (manufacturer : CString) : Bool :=
  manufacturer == cString "SolarEdge" || manufacturer == cString "SolarEdge "

/-- `sun_spec_is_kostal`. -/
def isKostal (manufacturer : CString) : Bool :=
  manufacturer == cString "KOSTAL" || manufacturer == cString "KOSTAL Solar Electric GmbH"

def baseAddresses : List UInt16 := [40000, 50000, 0]

/-- `SunSpecResolverCommonModel`. -/
structure CommonModel where
  mn : CString
  md : CString
  opt : CString
  vr : CString
  sn : CString
  deriving DecidableEq

/-- What a resolver is created for. -/
structure Request where
  manufacturerName : CString
  modelName : CString
  serialNumber : CString
  modelId : UInt16
  modelInstance : UInt16

/-- The registers a read returned. -/
abbrev Buffer := Nat → UInt16

namespace ModbusDeserializer

def readUint16 (buf : Buffer) (idx : Nat) : UInt16 := buf idx

def readUint32 (buf : Buffer) (idx : Nat) : UInt32 :=
  (buf idx).toUInt32 <<< 16 ||| (buf (idx + 1)).toUInt32

/-- `read_string` into a buffer of `length` characters and a terminator. -/
def readString (buf : Buffer) (idx length : Nat) : CString :=
  let chars := (List.range (length / 2)).flatMap fun i =>
    [((buf (idx + i) >>> 8) &&& 0xFF).toUInt8, (buf (idx + i) &&& 0xFF).toUInt8]
  chars.takeWhile (· ≠ 0)

end ModbusDeserializer

open ModbusDeserializer

def readCommonModel (buf : Buffer) : CommonModel where
  mn := readString buf 2 32
  md := readString buf 18 32
  opt := readString buf 34 16
  vr := readString buf 42 16
  sn := readString buf 50 32

/-- Whether a common model is that of the wanted device. Some SolarEdge inverters report a
meter under a wrong name, and KOSTAL changed its name. -/
def matchesDevice (request : Request) (common : CommonModel) : Bool :=
  if request.manufacturerName = [] ∧ request.modelName = [] ∧ request.serialNumber = [] then true
  else if isSolarEdge common.mn && common.md == cString "SE-RGMTR-1D-240C-A" &&
      common.sn == cString "0" && isSolarEdge request.manufacturerName &&
      request.modelName == cString "MTR-240-3PC1-D-A-MW" then true
  else if isSolarEdge common.mn && common.md == cString "MTR-240-3PC1-D-A-MW" &&
      isSolarEdge request.manufacturerName &&
      request.modelName == cString "SE-RGMTR-1D-240C-A" &&
      request.serialNumber == cString "0" then true
  else
    let manufacturerMatch := common.mn == request.manufacturerName ||
      (isSolarEdge common.mn && isSolarEdge request.manufacturerName) ||
      (isKostal common.mn && isKostal request.manufacturerName)
    manufacturerMatch && common.md == request.modelName && common.sn == request.serialNumber

/-- The states a resolver waits for a read in. -/
inductive State where
  | readSunSpecId
  | readModelHeader
  | readModel
  deriving DecidableEq, Repr

structure Resolver where
  errorCounter : Nat
  baseAddressIndex : Nat
  stateNext : State
  deviceFound : Bool
  modelCounter : UInt16
  startAddress : UInt16
  dataCount : UInt16
  commonModel : CommonModel

/-- What is reported: the common model of the device with address and block length of the
model, or nothing. -/
abbrev Report := Option (CommonModel × UInt16 × UInt16)

/-- The next read, or the end of the resolver. -/
abbrev Outcome := Resolver ⊕ Report

/-- Results of a Modbus transaction. -/
inductive TransactionResult where
  | success
  | notConnected
  | aborted
  | timeout
  | failure (code : Nat)
  deriving DecidableEq, Repr

/-- `SunSpecResolver::create`. -/
def Resolver.create : Resolver where
  errorCounter := 0
  baseAddressIndex := 0
  stateNext := .readSunSpecId
  deviceFound := false
  modelCounter := 0
  startAddress := 40000
  dataCount := 2
  commonModel := ⟨[], [], [], [], []⟩

namespace Resolver

variable (r : Resolver)

/-- `SunSpecResolver::next_base_address`. -/
def nextBaseAddress : Outcome :=
  match baseAddresses[r.baseAddressIndex + 1]? with
  | none => .inr none
  | some address =>
    .inl { r with
      baseAddressIndex := r.baseAddressIndex + 1
      errorCounter := 0
      stateNext := .readSunSpecId
      startAddress := address
      dataCount := 2 }

/-- Goes on with the header behind a block. -/
def skipBlock (blockLength : UInt16) : Resolver :=
  { r with startAddress := r.startAddress + (r.dataCount + blockLength), dataCount := 2 }

/-- Takes over a common model. -/
def takeCommonModel (request : Request) (common : CommonModel) : Resolver :=
  let deviceFound := matchesDevice request common
  { r with
    commonModel := common
    deviceFound := deviceFound
    modelCounter := if deviceFound then request.modelInstance else r.modelCounter }

/-- `SunSpecResolver::next`. -/
def next (request : Request) (buf : Buffer) : Outcome :=
  match r.stateNext with
  | .readSunSpecId =>
    if readUint32 buf 0 = sunSpecId then
      .inl { r with
        stateNext := .readModelHeader
        startAddress := r.startAddress + r.dataCount
        dataCount := 2 }
    else r.nextBaseAddress
  | .readModelHeader =>
    let candidateModelId := readUint16 buf 0
    let candidateBlockLength := readUint16 buf 1
    if candidateModelId = endModelId then .inr none
    else if r.deviceFound ∧ candidateModelId = request.modelId then
      if r.modelCounter > 0 then
        .inl ({ r with modelCounter := r.modelCounter - 1 }.skipBlock candidateBlockLength)
      else .inr (some (r.commonModel, r.startAddress, candidateBlockLength))
    else if candidateModelId = commonModelId then
      .inl { r with stateNext := .readModel, dataCount := 67 }
    else .inl (r.skipBlock candidateBlockLength)
  | .readModel =>
    let candidateModelId := readUint16 buf 0
    let candidateBlockLength := readUint16 buf 1
    let r :=
      if candidateModelId = commonModelId then r.takeCommonModel request (readCommonModel buf)
      else r
    .inl { r with
      stateNext := .readModelHeader
      startAddress := r.startAddress + (2 + candidateBlockLength)
      dataCount := 2 }

/-- The callback of `SunSpecResolver::read`: a read that failed is repeated later. -/
def transacted (request : Request) (result : TransactionResult) (buf : Buffer) : Outcome :=
  if result ≠ .success then
    let r := { r with errorCounter := r.errorCounter + 1 }
    if result = .notConnected ∨ result = .aborted then .inr none
    else if r.stateNext = .readSunSpecId then r.nextBaseAddress
    else if r.errorCounter ≥ 20 then .inr none
    else .inl r
  else r.next request buf

end Resolver

/-- The holding registers of a device. -/
abbrev Registers := UInt16 → UInt16

/-- What a read from an address returns. -/
def Registers.buffer (regs : Registers) (address : UInt16) : Buffer :=
  fun i => regs (address + UInt16.ofNat i)

/-- A block of the chain, by its address. -/
structure Block where
  address : UInt16
  deriving DecidableEq, Repr

namespace Registers

variable (regs : Registers)

def modelId (block : Block) : UInt16 := readUint16 (regs.buffer block.address) 0

def blockLength (block : Block) : UInt16 := readUint16 (regs.buffer block.address) 1

def commonModel (block : Block) : CommonModel := readCommonModel (regs.buffer block.address)

/-- The block behind a block. -/
def nextBlock (block : Block) : Block := ⟨block.address + (2 + regs.blockLength block)⟩

/-- A base address with the SunSpec id. -/
def CarriesId (address : UInt16) : Prop := readUint32 (regs.buffer address) 0 = sunSpecId

instance : DecidablePred regs.CarriesId := fun _ => decEq _ _

/-- The first block behind a base address. -/
def firstBlock (base : UInt16) : Block := ⟨base + 2⟩

/-- Following the chain from a block passes some blocks and arrives at another one. -/
inductive Leads (regs : Registers) : Block → List Block → Block → Prop where
  | here (block : Block) : Leads regs block [] block
  | pass {block last : Block} {blocks : List Block} (ne_end : regs.modelId block ≠ endModelId)
      (rest : Leads regs (regs.nextBlock block) blocks last) :
      Leads regs block (block :: blocks) last

/-- The chain from a block to the end model. -/
def Chain (first : Block) (blocks : List Block) : Prop :=
  ∃ last, regs.Leads first blocks last ∧ regs.modelId last = endModelId

end Registers

/-- What is known about the device while the chain is followed. -/
structure Search where
  deviceFound : Bool
  modelCounter : UInt16

section

variable (regs : Registers) (request : Request)

/-- A common model of the wanted device. -/
def Registers.IsWantedDevice (block : Block) : Prop :=
  regs.modelId block = commonModelId ∧ matchesDevice request (regs.commonModel block) = true

/-- A block of the wanted model. -/
def Registers.isWantedModel (block : Block) : Bool := regs.modelId block == request.modelId

/-- The block that is found among some blocks. -/
def search : Search → List Block → Option Block
  | _, [] => none
  | s, block :: rest =>
    if s.deviceFound ∧ regs.modelId block = request.modelId then
      if s.modelCounter > 0 then
        search { s with modelCounter := s.modelCounter - 1 } rest
      else some block
    else if regs.modelId block = commonModelId then
      let deviceFound := matchesDevice request (regs.commonModel block)
      search ⟨deviceFound, if deviceFound then request.modelInstance else s.modelCounter⟩ rest
    else search s rest

/-- A block of the wanted model with a number, among blocks none of which ends the device. -/
structure Numbered (ends : Block → Prop) (number : Nat) (blocks : List Block) (block : Block) :
    Prop where
  split : ∃ before after, blocks = before ++ block :: after ∧ (∀ b ∈ before, ¬ ends b) ∧
    before.countP (regs.isWantedModel request) = number
  wanted : regs.modelId block = request.modelId

/-- The block number `instance` behind a common model of the wanted device and before the next
block that ends the device. -/
def InstanceOf (ends : Block → Prop) (blocks : List Block) (block : Block) : Prop :=
  ∃ before device after, blocks = before ++ device :: after ∧
    regs.IsWantedDevice request device ∧
    Numbered regs request ends request.modelInstance.toNat after block

end

variable {regs : Registers} {request : Request} {first : Block} {blocks : List Block}
  {block b : Block} {ends : Block → Prop} {number : Nat}

/-- Every common model starts a device. -/
def Registers.startsDevice (regs : Registers) (block : Block) : Prop :=
  regs.modelId block = commonModelId

/-- A block the list does not end with counts if it is the wanted one. -/
theorem Numbered.cons (hends : ¬ ends b) :
    Numbered regs request ends (number + if regs.isWantedModel request b then 1 else 0) (b :: blocks)
      block ↔ Numbered regs request ends number blocks block := by
  constructor
  · rintro ⟨⟨before, after, hsplit, hbefore, hcount⟩, hblock⟩
    cases before with
    | nil =>
      obtain ⟨rfl, rfl⟩ := List.cons_eq_cons.mp hsplit
      rw [if_pos (by simpa [Registers.isWantedModel] using hblock)] at hcount
      cases hcount
    | cons c before =>
      obtain ⟨rfl, rfl⟩ := List.cons_eq_cons.mp hsplit
      refine ⟨⟨before, after, rfl, fun d hd => hbefore d (List.mem_cons_of_mem _ hd), ?_⟩, hblock⟩
      rw [List.countP_cons] at hcount
      exact Nat.add_right_cancel hcount
  · rintro ⟨⟨before, after, hsplit, hbefore, hcount⟩, hblock⟩
    refine ⟨⟨b :: before, after, by rw [hsplit]; rfl, ?_, ?_⟩, hblock⟩
    · intro d hd
      rcases List.mem_cons.mp hd with rfl | hd
      · exact hends
      · exact hbefore d hd
    · rw [List.countP_cons, hcount]

theorem Numbered.cons_other (hwanted : regs.modelId b ≠ request.modelId) (hends : ¬ ends b) :
    Numbered regs request ends number (b :: blocks) block ↔
      Numbered regs request ends number blocks block := by
  refine Iff.trans ?_ (Numbered.cons hends)
  rw [if_neg (by simpa [Registers.isWantedModel] using hwanted), Nat.add_zero]

theorem Numbered.cons_wanted (hwanted : regs.modelId b = request.modelId) (hends : ¬ ends b) :
    Numbered regs request ends (number + 1) (b :: blocks) block ↔
      Numbered regs request ends number blocks block := by
  refine Iff.trans ?_ (Numbered.cons hends)
  rw [if_pos (by simpa [Registers.isWantedModel] using hwanted)]

theorem Numbered.cons_ends (hwanted : regs.modelId b ≠ request.modelId) (hends : ends b) :
    ¬ Numbered regs request ends number (b :: blocks) block := by
  rintro ⟨⟨before, after, hsplit, hbefore, _⟩, hblock⟩
  cases before with
  | nil =>
    obtain ⟨rfl, rfl⟩ := List.cons_eq_cons.mp hsplit
    exact hwanted hblock
  | cons c before =>
    obtain ⟨rfl, rfl⟩ := List.cons_eq_cons.mp hsplit
    exact hbefore b List.mem_cons_self hends

theorem Numbered.head (hwanted : regs.modelId b = request.modelId) :
    Numbered regs request ends 0 (b :: blocks) b :=
  ⟨⟨[], blocks, rfl, fun _ h => absurd h List.not_mem_nil, rfl⟩, hwanted⟩

theorem InstanceOf.cons (h : InstanceOf regs request ends blocks block) (b : Block) :
    InstanceOf regs request ends (b :: blocks) block := by
  obtain ⟨before, device, after, hsplit, hdevice, hnumbered⟩ := h
  exact ⟨b :: before, device, after, by rw [hsplit]; rfl, hdevice, hnumbered⟩

theorem instanceOf_cons_iff : InstanceOf regs request ends (b :: blocks) block ↔
    regs.IsWantedDevice request b ∧
        Numbered regs request ends request.modelInstance.toNat blocks block ∨
      InstanceOf regs request ends blocks block := by
  constructor
  · rintro ⟨before, device, after, hsplit, hdevice, hnumbered⟩
    cases before with
    | nil =>
      obtain ⟨rfl, rfl⟩ := List.cons_eq_cons.mp hsplit
      exact .inl ⟨hdevice, hnumbered⟩
    | cons c before =>
      obtain ⟨rfl, rfl⟩ := List.cons_eq_cons.mp hsplit
      exact .inr ⟨before, device, after, rfl, hdevice, hnumbered⟩
  · rintro (⟨hdevice, hnumbered⟩ | h)
    · exact ⟨[], b, blocks, rfl, hdevice, hnumbered⟩
    · exact h.cons b

/-- What a search can find: a block of the device that was found already, or the instance behind
a common model to come. -/
def Findable (regs : Registers) (request : Request) (s : Search) (blocks : List Block)
    (block : Block) : Prop :=
  s.deviceFound = true ∧ Numbered regs request regs.startsDevice s.modelCounter.toNat blocks block ∨
    InstanceOf regs request regs.startsDevice blocks block

theorem findable_nil (s : Search) : ¬ Findable regs request s [] block := by
  rintro (⟨_, ⟨before, after, hsplit, _⟩, _⟩ | ⟨before, device, after, hsplit, _⟩)
  · exact absurd hsplit (by simp)
  · exact absurd hsplit (by simp)

/-- One block of the wanted model is passed. -/
theorem findable_wanted (hmodel : request.modelId ≠ commonModelId) {s : Search}
    (hwanted : regs.modelId b = request.modelId) (hcounter : s.modelCounter > 0) :
    Findable regs request s (b :: blocks) block ↔
      Findable regs request { s with modelCounter := s.modelCounter - 1 } blocks block := by
  have hends : ¬ regs.startsDevice b := fun h => hmodel (hwanted.symm.trans h)
  have hcount : s.modelCounter.toNat = (s.modelCounter - 1).toNat + 1 := by
    have hpos : 0 < s.modelCounter.toNat := UInt16.lt_iff_toNat_lt.mp hcounter
    have hle : (1 : UInt16) ≤ s.modelCounter := UInt16.le_iff_toNat_le.mpr hpos
    rw [UInt16.toNat_sub_of_le _ _ hle, UInt16.toNat_one]
    omega
  unfold Findable
  rw [instanceOf_cons_iff, hcount, Numbered.cons_wanted hwanted hends]
  constructor
  · rintro (hnumbered | ⟨hdevice, _⟩ | hlater)
    · exact .inl hnumbered
    · exact absurd hdevice.1 hends
    · exact .inr hlater
  · exact Or.imp_right .inr

/-- A common model decides anew which device the next blocks belong to. -/
theorem findable_common (hmodel : request.modelId ≠ commonModelId) {s : Search}
    (hcommon : regs.modelId b = commonModelId) :
    Findable regs request s (b :: blocks) block ↔
      Findable regs request ⟨matchesDevice request (regs.commonModel b),
        if matchesDevice request (regs.commonModel b) then request.modelInstance
        else s.modelCounter⟩ blocks block := by
  have hwanted : regs.modelId b ≠ request.modelId := fun h => hmodel (h.symm.trans hcommon)
  have hnone : ¬ Numbered regs request regs.startsDevice s.modelCounter.toNat (b :: blocks) block :=
    Numbered.cons_ends hwanted hcommon
  unfold Findable
  rw [instanceOf_cons_iff]
  cases hmatch : matchesDevice request (regs.commonModel b) with
  | true =>
    constructor
    · rintro (⟨_, hnumbered⟩ | ⟨_, hnumbered⟩ | hlater)
      · exact absurd hnumbered hnone
      · exact .inl ⟨rfl, hnumbered⟩
      · exact .inr hlater
    · rintro (⟨_, hnumbered⟩ | hlater)
      · exact .inr (.inl ⟨⟨hcommon, hmatch⟩, hnumbered⟩)
      · exact .inr (.inr hlater)
  | false =>
    constructor
    · rintro (⟨_, hnumbered⟩ | ⟨hdevice, _⟩ | hlater)
      · exact absurd hnumbered hnone
      · rw [hdevice.2] at hmatch
        cases hmatch
      · exact .inr hlater
    · rintro (⟨hfound, _⟩ | hlater)
      · cases hfound
      · exact .inr (.inr hlater)

/-- Other blocks are passed without a change. -/
theorem findable_other {s : Search} (hcommon : regs.modelId b ≠ commonModelId)
    (hwanted : s.deviceFound = true → regs.modelId b ≠ request.modelId) :
    Findable regs request s (b :: blocks) block ↔ Findable regs request s blocks block := by
  unfold Findable
  rw [instanceOf_cons_iff]
  constructor
  · rintro (⟨hfound, hnumbered⟩ | ⟨hdevice, _⟩ | hlater)
    · exact .inl ⟨hfound, (Numbered.cons_other (hwanted hfound) hcommon).mp hnumbered⟩
    · exact absurd hdevice.1 hcommon
    · exact .inr hlater
  · rintro (⟨hfound, hnumbered⟩ | hlater)
    · exact .inl ⟨hfound, (Numbered.cons_other (hwanted hfound) hcommon).mpr hnumbered⟩
    · exact .inr (.inr hlater)

/-- The search finds what can be found, and something if there is anything. -/
theorem search_spec (regs : Registers) (hmodel : request.modelId ≠ commonModelId) (s : Search)
    (blocks : List Block) :
    (∀ block, search regs request s blocks = some block → Findable regs request s blocks block) ∧
      (search regs request s blocks = none → ∀ block, ¬ Findable regs request s blocks block) := by
  induction blocks generalizing s with
  | nil =>
    constructor
    · intro block h
      cases h
    · exact fun _ _ => findable_nil s
  | cons b rest ih =>
    unfold search
    split
    · rename_i hfound
      split
      · rename_i hcounter
        simp only [findable_wanted hmodel hfound.2 hcounter]
        exact ih _
      · rename_i hcounter
        have hzero : s.modelCounter.toNat = 0 := by
          rw [gt_iff_lt, UInt16.lt_iff_toNat_lt] at hcounter
          exact Nat.eq_zero_of_not_pos hcounter
        constructor
        · intro block h
          rw [← Option.some.inj h]
          exact .inl ⟨hfound.1, hzero ▸ Numbered.head hfound.2⟩
        · intro h
          cases h
    · rename_i hfound
      split
      · rename_i hcommon
        simp only [findable_common hmodel hcommon]
        exact ih _
      · rename_i hcommon
        simp only [findable_other hcommon fun h hwanted => hfound ⟨h, hwanted⟩]
        exact ih s

/-- If the common model itself is looked for, the one behind that of the device is found. -/
theorem isSome_search_common (hmodel : request.modelId = commonModelId)
    (hinstance : request.modelInstance = 0) {s : Search} (hcounter : s.modelCounter = 0)
    (h : (s.deviceFound = true ∧ ∃ b ∈ blocks, regs.modelId b = commonModelId) ∨
      InstanceOf regs request regs.startsDevice blocks block) :
    (search regs request s blocks).isSome = true := by
  induction blocks generalizing s with
  | nil =>
    rcases h with ⟨_, b, hb, _⟩ | ⟨before, device, after, hsplit, _⟩
    · exact absurd hb List.not_mem_nil
    · exact absurd hsplit (by simp)
  | cons b rest ih =>
    by_cases hcommon : regs.modelId b = commonModelId
    · by_cases hfound : s.deviceFound = true
      · rw [search, if_pos ⟨hfound, hcommon.trans hmodel.symm⟩, if_neg (by rw [hcounter]; simp)]
        rfl
      · rw [search, if_neg (fun h => hfound h.1), if_pos hcommon]
        apply ih (by simp [hinstance, hcounter])
        rcases h with ⟨h, _⟩ | h
        · exact absurd h hfound
        rcases instanceOf_cons_iff.mp h with ⟨hdevice, ⟨before, after, rfl, _⟩, hwanted⟩ | h
        · exact .inl ⟨hdevice.2, block, by simp, hwanted.trans hmodel⟩
        · exact .inr h
    · rw [search, if_neg (fun h => hcommon (h.2.trans hmodel)), if_neg hcommon]
      apply ih hcounter
      rcases h with ⟨hfound, c, hc, hid⟩ | h
      · rcases List.mem_cons.mp hc with rfl | hc
        · exact absurd hid hcommon
        · exact .inl ⟨hfound, c, hc, hid⟩
      · rcases instanceOf_cons_iff.mp h with ⟨hdevice, _⟩ | h
        · exact absurd hdevice.1 hcommon
        · exact .inr h

theorem isSome_search_of_instanceOf
    (h : InstanceOf regs request regs.startsDevice blocks block) :
    (search regs request ⟨false, 0⟩ blocks).isSome = true := by
  by_cases hmodel : request.modelId = commonModelId
  · refine isSome_search_common hmodel ?_ rfl (.inr h)
    obtain ⟨_, _, _, _, _, ⟨between, _, _, hbetween, hcount⟩, _⟩ := h
    have hzero : between.countP (regs.isWantedModel request) = 0 := by
      rw [List.countP_eq_zero]
      intro b hb hwanted
      apply hbetween b hb
      exact (eq_of_beq hwanted).trans hmodel
    exact UInt16.toNat_inj.mp (hcount.symm.trans hzero)
  · rw [Option.isSome_iff_ne_none]
    intro hnone
    exact (search_spec regs hmodel _ _).2 hnone block (.inr h)

theorem InstanceOf.append (h : InstanceOf regs request ends blocks block) (rest : List Block) :
    InstanceOf regs request ends (blocks ++ rest) block := by
  obtain ⟨before, device, after, rfl, hdevice, ⟨between, behind, rfl, hbetween⟩, hwanted⟩ := h
  refine ⟨before, device, between ++ block :: behind ++ rest, ?_, hdevice,
    ⟨between, behind ++ rest, ?_, hbetween⟩, hwanted⟩
  · simp
  · simp

/-- Whatever blocks a chain passes, they are the first ones up to the end model. -/
theorem Registers.Leads.prefix_chain {blocks' : List Block} {last last' : Block}
    (h' : regs.Leads first blocks' last') (h : regs.Leads first blocks last)
    (hend : regs.modelId last = endModelId) : ∃ rest, blocks = blocks' ++ rest := by
  induction h' generalizing blocks with
  | here => exact ⟨blocks, rfl⟩
  | pass hne _ ih =>
    cases h with
    | here => exact absurd hend hne
    | pass _ hrest =>
      obtain ⟨rest, rfl⟩ := ih hrest
      exact ⟨rest, rfl⟩

/-- A block that leads back to itself is all a chain passes. -/
theorem Registers.Leads.of_nextBlock_eq {last : Block} (h : regs.Leads first blocks last)
    (hnext : regs.nextBlock first = first) : last = first ∧ ∀ b ∈ blocks, b = first := by
  induction h with
  | here => exact ⟨rfl, fun _ h => absurd h List.not_mem_nil⟩
  | pass _ _ ih =>
    rw [hnext] at ih
    obtain ⟨hlast, hblocks⟩ := ih hnext
    refine ⟨hlast, fun b hb => ?_⟩
    rcases List.mem_cons.mp hb with rfl | hb
    · rfl
    · exact hblocks b hb

end Esp32Firmware.SunSpec
