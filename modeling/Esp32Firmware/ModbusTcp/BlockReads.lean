import Mathlib
import Esp32Firmware.ModbusTcp.Registers

/-!
# Block reads

All tables are read by one loop, two registers at a time and one where the block starts or ends
in the middle of a value.
-/

namespace Esp32Firmware.ModbusTcp

section

variable {C : Type*}

/-- `& ~1`. -/
def evenBelow (address : ℕ) : UInt16 := UInt16.ofNat (address / 2 * 2)

/-- The registers from index `i` on; `none` is an illegal data address. -/
def readLoop (get : C → UInt16 → Option UInt32 × C) (start count : UInt16) (i : ℕ) (ctx : C) :
    Option (List UInt16) :=
  if i < count.toNat then
    match get ctx (evenBelow (i + start.toNat)) with
    | (none, _) => none
    | (some val, ctx) =>
      let val := swapBytes val
      if i = 0 ∧ start.toNat % 2 = 1 then
        (readLoop get start count (i + 1) ctx).map fun rest => lower val :: rest
      else if i = count.toNat - 1 then
        (readLoop get start count (i + 1) ctx).map fun rest => upper val :: rest
      else
        (readLoop get start count (i + 2) ctx).map fun rest => upper val :: lower val :: rest
  else some []
termination_by count.toNat - i

/-- A table without a context. -/
def withoutContext (get : UInt16 → Option UInt32) (ctx : Unit) (reg : UInt16) :
    Option UInt32 × Unit :=
  (get reg, ctx)

variable (s : Charger)

def getWarpInputRegisters (start count : UInt16) : Option (List UInt16) :=
  let s := s.fill [.evse, .meter, .meterAllValues, .nfc, .phaseSwitch]
  readLoop (getWarpInputRegister s) start count 0 .empty

def getWarpHoldingRegisters (start count : UInt16) : Option (List UInt16) :=
  let s := s.fill [.evse, .meter, .nfc]
  readLoop (withoutContext (getWarpHoldingRegister s)) start count 0 ()

def getKebaHoldingRegisters (start count : UInt16) : Option (List UInt16) :=
  let s := s.fill [.evse, .meter, .meterAllValues, .nfc]
  readLoop (withoutContext (getKebaHoldingRegister s)) start count 0 ()

def getBenderHoldingRegisters (start count : UInt16) : Option (List UInt16) :=
  let s := s.fill [.evse, .meterAllValues]
  readLoop (withoutContext fun reg => some (getBenderHoldingRegister s reg)) start count 0 ()

end

section

variable {C : Type*} {get : C → UInt16 → Option UInt32 × C} {f : UInt16 → Option UInt32}
  {ok : C → Prop} {start count : UInt16} {i a n : ℕ} {ctx : C} {values : List UInt16}

/-- The register at an address: one half of the value that belongs to it. -/
def word (f : UInt16 → Option UInt32) (a : ℕ) : Option UInt16 :=
  (f (evenBelow a)).map fun val =>
    if a % 2 = 0 then upper (swapBytes val) else lower (swapBytes val)

/-- `n` registers from an address on, `none` where one of them is illegal. -/
def words (f : UInt16 → Option UInt32) : ℕ → ℕ → Option (List UInt16)
  | _, 0 => some []
  | a, n + 1 => (word f a).bind fun w => (words f (a + 1) n).map (w :: ·)

/-- A context changes nothing about what is read. -/
structure Transparent (get : C → UInt16 → Option UInt32 × C) (f : UInt16 → Option UInt32)
    (ok : C → Prop) : Prop where
  value : ∀ {ctx}, ok ctx → ∀ reg, (get ctx reg).1 = f reg
  keeps : ∀ {ctx}, ok ctx → ∀ reg, ok (get ctx reg).2

theorem evenBelow_succ (h : a % 2 = 0) : evenBelow (a + 1) = evenBelow a := by
  rw [evenBelow, evenBelow, show (a + 1) / 2 = a / 2 by omega]

theorem words_succ {val : UInt32} (h : f (evenBelow a) = some val) :
    words f a (n + 1) = (words f (a + 1) n).map fun rest =>
      (if a % 2 = 0 then upper (swapBytes val) else lower (swapBytes val)) :: rest := by
  rw [words, word, h, Option.map_some, Option.bind_some]

theorem words_eq_none (h : f (evenBelow a) = none) : words f a (n + 1) = none := by
  rw [words, word, h, Option.map_none, Option.bind_none]

/-- The loop reads the registers one by one. -/
theorem readLoop_eq (ht : Transparent get f ok) (hctx : ok ctx)
    (hi : i = 0 ∨ (i + start.toNat) % 2 = 0) :
    readLoop get start count i ctx = words f (i + start.toNat) (count.toNat - i) := by
  induction hn : count.toNat - i using Nat.strongRecOn generalizing i ctx with
  | ind n ih =>
    have hvalue := ht.value hctx (evenBelow (i + start.toNat))
    have hkeeps := ht.keeps hctx (evenBelow (i + start.toNat))
    rw [readLoop]
    by_cases hlt : i < count.toNat
    · rw [if_pos hlt]
      obtain ⟨m, rfl⟩ : ∃ m, n = m + 1 := ⟨n - 1, by omega⟩
      cases hget : get ctx (evenBelow (i + start.toNat)) with
      | mk val ctx' =>
        rw [hget] at hvalue hkeeps
        dsimp only at hvalue hkeeps
        cases val with
        | none => exact (words_eq_none hvalue.symm).symm
        | some val =>
          dsimp only
          rw [words_succ hvalue.symm]
          by_cases hodd : i = 0 ∧ start.toNat % 2 = 1
          · rw [if_pos hodd, if_neg (by omega),
              ih m (by omega) hkeeps (.inr (by omega)) (by omega),
              show i + 1 + start.toNat = i + start.toNat + 1 by omega]
          · have heven : (i + start.toNat) % 2 = 0 := by omega
            rw [if_neg hodd, if_pos heven]
            by_cases hlast : i = count.toNat - 1
            · rw [if_pos hlast, readLoop, if_neg (by omega), show m = 0 by omega]
              rfl
            · obtain ⟨k, rfl⟩ : ∃ k, m = k + 1 := ⟨m - 1, by omega⟩
              rw [if_neg hlast, ih k (by omega) hkeeps (.inr (by omega)) (by omega),
                words_succ ((evenBelow_succ heven).symm ▸ hvalue.symm),
                if_neg (by omega), Option.map_map,
                show i + 2 + start.toNat = i + start.toNat + 1 + 1 by omega]
              rfl
    · rw [if_neg hlt, show n = 0 by omega]
      rfl

theorem words_eq_some :
    words f a n = some values ↔ (List.range n).map (fun k => word f (a + k)) = values.map some := by
  induction n generalizing a values with
  | zero =>
    rw [words, List.range_zero, List.map_nil, Option.some_inj, eq_comm (b := List.map _ _),
      List.map_eq_nil_iff, eq_comm]
  | succ n ih =>
    have hshift (k : ℕ) : a + 1 + k = a + (k + 1) := by omega
    rw [words, List.range_succ_eq_map, List.map_cons, List.map_map, Nat.add_zero]
    cases hword : word f a with
    | none =>
      refine iff_of_false (Option.some_ne_none values ∘ Eq.symm) fun h => ?_
      cases values with
      | nil => cases h
      | cons w rest => cases (List.cons.inj h).1
    | some w =>
      rw [Option.bind_some, Option.map_eq_some_iff]
      constructor
      · rintro ⟨rest, hrest, rfl⟩
        rw [ih] at hrest
        rw [List.map_cons, ← hrest]
        simp only [Function.comp_def, hshift]
      · intro h
        cases values with
        | nil => cases h
        | cons v rest =>
          obtain ⟨hv, hrest⟩ := List.cons.inj h
          refine ⟨rest, ?_, by rw [Option.some_inj.mp hv]⟩
          rw [ih, ← hrest]
          simp only [Function.comp_def, hshift]

theorem words_eq_none_iff : words f a n = none ↔ ∃ k < n, word f (a + k) = none := by
  induction n generalizing a with
  | zero =>
    exact iff_of_false (Option.some_ne_none []) fun ⟨_, hk, _⟩ => absurd hk (Nat.not_lt_zero _)
  | succ n ih =>
    rw [words]
    cases hword : word f a with
    | none => exact iff_of_true rfl ⟨0, Nat.succ_pos n, hword⟩
    | some w =>
      rw [Option.bind_some, Option.map_eq_none_iff, ih]
      constructor
      · rintro ⟨k, hk, hnone⟩
        refine ⟨k + 1, Nat.succ_lt_succ hk, ?_⟩
        rwa [show a + (k + 1) = a + 1 + k by omega]
      · rintro ⟨k, hk, hnone⟩
        cases k with
        | zero => cases hword.symm.trans hnone
        | succ k =>
          refine ⟨k, Nat.lt_of_succ_lt_succ hk, ?_⟩
          rwa [show a + 1 + k = a + (k + 1) by omega]

end

inductive RegisterTable where
  | warpInput
  | warpHolding
  | keba
  | bender
deriving DecidableEq

/-- What the switch of a table assigns, with the registers in the order of the source. -/
def RegisterTable.assigned (s : Charger) : RegisterTable → List (ℕ × UInt32)
  | .warpInput =>
    let s := s.fill [.evse, .meter, .meterAllValues, .nfc, .phaseSwitch]
    warpInputSwitch s s.meter.energyAbs s.tag
  | .warpHolding => warpHoldingSwitch (s.fill [.evse, .meter, .nfc])
  | .keba => kebaHoldingSwitch (s.fill [.evse, .meter, .meterAllValues, .nfc])
  | .bender => benderHoldingSwitch (s.fill [.evse, .meterAllValues])

/-- What a table returns for a register; `none` is an illegal data address. -/
def RegisterTable.register (s : Charger) : RegisterTable → UInt16 → Option UInt32
  | .warpInput => fun reg =>
    let s := s.fill [.evse, .meter, .meterAllValues, .nfc, .phaseSwitch]
    (getWarpInputRegister s .empty reg).1
  | .warpHolding => getWarpHoldingRegister (s.fill [.evse, .meter, .nfc])
  | .keba => getKebaHoldingRegister (s.fill [.evse, .meter, .meterAllValues, .nfc])
  | .bender => fun reg => some (getBenderHoldingRegister (s.fill [.evse, .meterAllValues]) reg)

/-- The block read of a table. -/
def RegisterTable.read (s : Charger) : RegisterTable → UInt16 → UInt16 → Option (List UInt16)
  | .warpInput => getWarpInputRegisters s
  | .warpHolding => getWarpHoldingRegisters s
  | .keba => getKebaHoldingRegisters s
  | .bender => getBenderHoldingRegisters s

/-- A block is what the single reads of its addresses return, one behind the other. -/
def SplitsReads (read : UInt16 → UInt16 → Option (List UInt16)) : Prop :=
  ∀ start count : UInt16, start.toNat + count.toNat ≤ 2 ^ 16 →
    (∀ values, read start count = some values ↔
      (List.range count.toNat).map (fun k => read (start + UInt16.ofNat k) 1) =
        values.map fun w => some [w]) ∧
    (read start count = none ↔ ∃ k < count.toNat, read (start + UInt16.ofNat k) 1 = none)

/-- The upper half of a value is at its address, the lower half behind it. -/
def ReturnsValue (read : UInt16 → UInt16 → Option (List UInt16)) (reg : ℕ) (val : UInt32) : Prop :=
  read (UInt16.ofNat reg) 1 = some [upper (swapBytes val)] ∧
    read (UInt16.ofNat (reg + 1)) 1 = some [lower (swapBytes val)]

variable {s : Charger} {table : RegisterTable} {start count : UInt16}

/-- What was cached for the request is what the charger still says. -/
def WarpInputRegisterCtx.Current (s : Charger) (ctx : WarpInputRegisterCtx) : Prop :=
  ctx.energyAbs.getD s.meter.energyAbs = s.meter.energyAbs ∧ ctx.tag.getD s.tag = s.tag

theorem warpInput_transparent (s : Charger) :
    Transparent (getWarpInputRegister s) (fun reg => (getWarpInputRegister s .empty reg).1)
      (WarpInputRegisterCtx.Current s) where
  value := by
    rintro ctx ⟨henergy, htag⟩ reg
    rw [getWarpInputRegister, getWarpInputRegister, henergy, htag]
    rfl
  keeps := by
    rintro ctx ⟨henergy, htag⟩ reg
    rw [getWarpInputRegister, henergy, htag]
    constructor
    · dsimp only
      split
      · rfl
      · exact henergy
    · dsimp only
      split
      · rfl
      · exact htag

theorem withoutContext_transparent (get : UInt16 → Option UInt32) :
    Transparent (withoutContext get) get fun _ => True :=
  ⟨fun _ _ => rfl, fun _ _ => trivial⟩

/-- All tables are read register by register. -/
theorem read_eq : table.read s start count = words (table.register s) start.toNat count.toNat := by
  have h {C : Type} {get : C → UInt16 → Option UInt32 × C} {f : UInt16 → Option UInt32}
      {ok : C → Prop} {ctx : C} (ht : Transparent get f ok) (hctx : ok ctx) :
      readLoop get start count 0 ctx = words f start.toNat count.toNat := by
    rw [readLoop_eq ht hctx (.inl rfl), Nat.zero_add, Nat.sub_zero]
  cases table with
  | warpInput => exact h (warpInput_transparent _) ⟨rfl, rfl⟩
  | warpHolding | keba | bender => exact h (withoutContext_transparent _) trivial

theorem read_one (reg : UInt16) :
    table.read s reg 1 = (word (table.register s) reg.toNat).map fun w => [w] := by
  have hone : (1 : UInt16).toNat = 1 := rfl
  rw [read_eq, hone, words]
  cases word (table.register s) reg.toNat <;> rfl

theorem read_split (table : RegisterTable) (s : Charger) : SplitsReads (table.read s) := by
  intro start count hrange
  have hsingle (k : ℕ) (hk : k < count.toNat) :
      table.read s (start + UInt16.ofNat k) 1 =
        (word (table.register s) (start.toNat + k)).map fun w => [w] := by
    have hcount := count.toNat_lt
    have hsize : k < UInt16.size := Nat.lt_trans hk hcount
    rw [read_one, UInt16.toNat_add, UInt16.toNat_ofNat_of_lt' hsize, Nat.mod_eq_of_lt (by omega)]
  constructor
  · intro values
    have hmap : (List.range count.toNat).map (fun k => table.read s (start + UInt16.ofNat k) 1) =
        ((List.range count.toNat).map fun k => word (table.register s) (start.toNat + k)).map
          (Option.map fun w => [w]) := by
      rw [List.map_map]
      exact List.map_congr_left fun k hk => hsingle k (List.mem_range.mp hk)
    have hvalues : (values.map fun w => some [w]) =
        (values.map some).map (Option.map fun w => [w]) := by
      rw [List.map_map]
      rfl
    rw [read_eq, words_eq_some, hmap, hvalues, List.map_inj_right]
    intro w w' heq
    cases w <;> cases w' <;> simp_all
  · rw [read_eq, words_eq_none_iff]
    exact exists_congr fun k => and_congr_right fun hk => by
      rw [hsingle k hk, Option.map_eq_none_iff]

/-- The registers that the switch of a table names. -/
def RegisterTable.labels : RegisterTable → List ℕ
  | .warpInput => [0, 2, 4, 6, 8, 10, 12, 14, 1000, 1002, 1004, 1006, 1008, 1010, 1100, 1102, 2000,
      2002, 2004, 2006, 2008, 3100, 3102, 4010, 4012]
  | .warpHolding => [0, 1000, 1002, 1004, 1006, 2000, 3100]
  | .keba => [1000, 1004, 1006, 1008, 1010, 1012, 1014, 1016, 1018, 1020, 1036, 1040, 1042, 1044,
      1046, 1100, 1110, 1500, 1502, 1550, 1552, 1600, 1602]
  | .bender => [100, 104, 120, 122, 124, 132, 140, 200, 202, 204, 206, 208, 210, 212, 214, 216, 218,
      220, 222, 224, 226, 706, 709, 718, 705, 716, 1000]

section

variable (table : RegisterTable)

theorem labels_eq (s : Charger) : (table.assigned s).map Prod.fst = table.labels := by
  cases table <;> rfl

theorem labels_nodup : table.labels.Nodup := by
  cases table <;> decide

theorem label_lt : ∀ reg ∈ table.labels, reg + 1 < 2 ^ 16 := by
  cases table <;> decide

theorem label_odd : ∀ reg ∈ table.labels, reg % 2 = 1 →
    table = .bender ∧ (reg = 705 ∨ reg = 709) := by
  cases table <;> decide

end

variable {entry : ℕ × UInt32} {entries : List (ℕ × UInt32)}

theorem mem_labels (h : entry ∈ table.assigned s) : entry.1 ∈ table.labels :=
  labels_eq table s ▸ List.mem_map_of_mem h

theorem lookup_of_mem_nodup (hnodup : (entries.map Prod.fst).Nodup) (h : entry ∈ entries) :
    entries.lookup entry.1 = some entry.2 := by
  induction entries with
  | nil => cases h
  | cons first rest ih =>
    obtain ⟨hnot, hrest⟩ := List.nodup_cons.mp hnodup
    rw [List.lookup_cons]
    rcases List.mem_cons.mp h with rfl | hmem
    · rw [beq_self_eq_true]
    · have hne : (entry.1 == first.1) = false :=
        beq_eq_false_iff_ne.mpr fun heq => hnot (heq ▸ List.mem_map_of_mem hmem)
      rw [hne]
      exact ih hrest hmem

theorem lookup_assigned (h : entry ∈ table.assigned s) :
    (table.assigned s).lookup entry.1 = some entry.2 :=
  lookup_of_mem_nodup (labels_eq table s ▸ labels_nodup table) h

theorem warpInputRange_label (s : Charger) (tag : TagInfo) :
    ∀ reg ∈ RegisterTable.labels .warpInput, warpInputRange s tag reg = none := by
  rw [RegisterTable.labels]
  simp only [List.forall_mem_cons]
  exact ⟨rfl, rfl, rfl, rfl, rfl, rfl, rfl, rfl, rfl, rfl, rfl, rfl, rfl, rfl, rfl, rfl, rfl, rfl,
    rfl, rfl, rfl, rfl, rfl, rfl, rfl, List.forall_mem_nil _⟩

theorem warpHoldingRange_label (s : Charger) :
    ∀ reg ∈ RegisterTable.labels .warpHolding, warpHoldingRange s reg = none := by
  rw [RegisterTable.labels]
  simp only [List.forall_mem_cons]
  exact ⟨rfl, rfl, rfl, rfl, rfl, rfl, rfl, List.forall_mem_nil _⟩

theorem orIllegal_some (val : UInt32) : s.orIllegal (some val) = some val := by
  rw [Charger.orIllegal]
  split <;> rfl

/-- The registers that the switch names have the values it assigns. -/
theorem register_assigned (h : entry ∈ table.assigned s) :
    table.register s (UInt16.ofNat entry.1) = some entry.2 := by
  have hlookup := lookup_assigned h
  have hlabel := mem_labels h
  have hsize : entry.1 < UInt16.size := Nat.lt_of_succ_lt (label_lt table _ hlabel)
  have hreg : (UInt16.ofNat entry.1).toNat = entry.1 := UInt16.toNat_ofNat_of_lt' hsize
  cases table with
  | warpInput =>
    dsimp only [RegisterTable.register, getWarpInputRegister, WarpInputRegisterCtx.empty,
      Option.getD_none]
    rw [hreg, warpInputRange_label _ _ _ hlabel, Option.none_or]
    exact (congrArg _ hlookup).trans (orIllegal_some _)
  | warpHolding =>
    rw [RegisterTable.register, getWarpHoldingRegister, hreg, warpHoldingRange_label _ _ hlabel,
      Option.none_or]
    exact (congrArg _ hlookup).trans (orIllegal_some _)
  | keba =>
    rw [RegisterTable.register, getKebaHoldingRegister, hreg]
    exact (congrArg _ hlookup).trans (orIllegal_some _)
  | bender =>
    dsimp only [RegisterTable.register]
    rw [getBenderHoldingRegister, hreg]
    exact congrArg (fun val => some (Option.getD val 0)) hlookup

/-- The halves of a value are by chance those of the even registers around it. -/
def NeighboursHold (table : RegisterTable) (s : Charger) (reg : ℕ) (val : UInt32) : Prop :=
  (table.register s (UInt16.ofNat (reg - 1))).map (lower ∘ swapBytes) =
      some (upper (swapBytes val)) ∧
    (table.register s (UInt16.ofNat (reg + 1))).map (upper ∘ swapBytes) =
      some (lower (swapBytes val))

theorem map_singleton_iff {o : Option UInt16} {w : UInt16} :
    o.map (fun w => [w]) = some [w] ↔ o = some w := by
  cases o <;> simp

theorem returnsValue_iff (h : entry ∈ table.assigned s) :
    ReturnsValue (table.read s) entry.1 entry.2 ↔
      (entry.1 % 2 = 1 → NeighboursHold table s entry.1 entry.2) := by
  have hregister := register_assigned h
  have hlt := label_lt table _ (mem_labels h)
  have hreg : (UInt16.ofNat entry.1).toNat = entry.1 :=
    UInt16.toNat_ofNat_of_lt' (Nat.lt_of_succ_lt hlt)
  have hnext : (UInt16.ofNat (entry.1 + 1)).toNat = entry.1 + 1 := UInt16.toNat_ofNat_of_lt' hlt
  rw [ReturnsValue, read_one, read_one, hreg, hnext, word, word]
  by_cases hodd : entry.1 % 2 = 1
  · have hbelow : evenBelow entry.1 = UInt16.ofNat (entry.1 - 1) := by
      rw [evenBelow, show entry.1 / 2 * 2 = entry.1 - 1 by omega]
    have habove : evenBelow (entry.1 + 1) = UInt16.ofNat (entry.1 + 1) := by
      rw [evenBelow, show (entry.1 + 1) / 2 * 2 = entry.1 + 1 by omega]
    have heven : (entry.1 + 1) % 2 = 0 := by omega
    have hnot : ¬entry.1 % 2 = 0 := by omega
    rw [hbelow, habove, NeighboursHold]
    simp only [if_pos heven, if_neg hnot]
    rw [map_singleton_iff, map_singleton_iff]
    exact ⟨fun h _ => h, fun h => h hodd⟩
  · have heven : entry.1 % 2 = 0 := by omega
    have hsame : evenBelow entry.1 = UInt16.ofNat entry.1 := by
      rw [evenBelow, show entry.1 / 2 * 2 = entry.1 by omega]
    have hnot : ¬(entry.1 + 1) % 2 = 0 := by omega
    rw [evenBelow_succ heven, hsame, hregister]
    simp only [if_pos heven, if_neg hnot]
    exact iff_of_true ⟨rfl, rfl⟩ fun h => absurd h hodd

/-- All blocks can be split. A value is returned at its own address unless its number is odd and its
halves are not those of the registers around it. -/
theorem block_reads (table : RegisterTable) (s : Charger) :
    ((SplitsReads (table.read s) ∧
        ∀ entry ∈ table.assigned s, ReturnsValue (table.read s) entry.1 entry.2) ↔
      ∀ entry ∈ table.assigned s, entry.1 % 2 = 1 → NeighboursHold table s entry.1 entry.2) ∧
    ∀ entry ∈ table.assigned s, entry.1 % 2 = 1 →
      table = .bender ∧ (entry.1 = 705 ∨ entry.1 = 709) := by
  refine ⟨?_, fun entry hentry => label_odd table _ (mem_labels hentry)⟩
  rw [and_iff_right (read_split table s)]
  exact forall₂_congr fun entry hentry => returnsValue_iff hentry

/-- A charger that has been charging for one minute. -/
def chargingCharger : Charger where
  firmware := ⟨2, 8, 0, 255, 0, 0⟩
  uptimeSeconds := 100
  available feature := feature == .evse
  cached _ := false
  sendIllegalDataAddress := true
  iec61851State := 2
  chargerState := 3
  allowedChargingCurrent := 16000
  evseUptime := 90
  slots := List.replicate 18 ⟨true, 16000⟩
  buttonPressTime := 0
  buttonReleaseTime := 0
  ledIndication := -1
  ledDuration := 0
  currentCharge := ⟨0, 0, 30, .ofBits 0, 0, 0⟩
  meter := ⟨0, .ofBits 0, .ofBits 0, .ofBits 0, []⟩
  phases := 3
  externalControl := 0
  phasesWanted := 3
  lastTagSeen := none
  nfcTagInjectionBuffer := List.replicate 28 0
  kebaFeatures := 314100

/-- The charging time is not at 709 of the Bender table. -/
theorem charging_time_not_returned :
    ¬∀ (table : RegisterTable) (s : Charger), SplitsReads (table.read s) ∧
      ∀ entry ∈ table.assigned s, ReturnsValue (table.read s) entry.1 entry.2 := by
  intro h
  have hmem : (709, 60) ∈ RegisterTable.assigned chargingCharger .bender := by
    refine List.mem_of_getElem? (i := 22) ?_
    rfl
  have hnext := ((h .bender chargingCharger).2 _ hmem).2
  rw [read_one] at hnext
  revert hnext
  decide

end Esp32Firmware.ModbusTcp
