import Mathlib.Data.List.OfFn
import Mathlib.Data.Nat.Bitwise
import Mathlib.Tactic.Common

/-!
# The daily statistics of the energy analysis

A day's energies and prices are packed into the 15 words of a record. The daily history moves the
words and unpacks the prices.

## Implementation notes

The sums of the prices are integers, which is what 32 bits give unless they overflow.
-/

namespace Esp32Firmware.EmEnergyAnalysis

def uint32Max : ℕ := 4294967295

def int32Max : ℤ := 2147483647

def priceUint10Max : ℕ := 1023

def priceInt10Max : ℤ := 911

def priceInt10Min : ℤ := priceInt10Max - priceUint10Max

/-- A known energy. The largest word stands for an unknown one. -/
structure Energy where
  daWh : ℕ
  known : daWh < uint32Max

structure DailyStatistics where
  energyImport : Fin 7 → Option Energy
  energyExport : Fin 7 → Option Energy
  minimumPriceToday : Option ℤ
  averagePriceToday : Option ℤ
  maximumPriceToday : Option ℤ
  gridCostPlusTaxPlusMarkup : ℤ

/-- The price in ct/kWh. `collect_data_points` adds 0 for the floor, 500 to round and 999 for the
ceiling. -/
def ctPerKWh (price : Option ℤ) (cost offset : ℤ) : ℤ :=
  match price with
  | none => int32Max
  | some p => (p + cost + offset).tdiv 1000

def priceTo10bit (price : ℤ) : ℕ :=
  if price = int32Max then priceUint10Max
  else (max priceInt10Min (min price priceInt10Max) - priceInt10Min).toNat

def priceFrom10bit (price : ℕ) : ℤ :=
  if priceUint10Max ≤ price then int32Max else price + priceInt10Min

def priceBits (priceMin priceAvg priceMax : ℤ) : ℕ :=
  priceTo10bit priceMin <<< 20 ||| priceTo10bit priceAvg <<< 10 ||| priceTo10bit priceMax

def energyWord (energy : Option Energy) : ℕ := (energy.map Energy.daWh).getD uint32Max

namespace DailyStatistics

variable (s : DailyStatistics)

def priceMin : ℤ := ctPerKWh s.minimumPriceToday s.gridCostPlusTaxPlusMarkup 0

def priceAvg : ℤ := ctPerKWh s.averagePriceToday s.gridCostPlusTaxPlusMarkup 500

def priceMax : ℤ := ctPerKWh s.maximumPriceToday s.gridCostPlusTaxPlusMarkup 999

/-- What `set_energy_manager_daily_data_point` stores. -/
def record : List ℕ :=
  let energyImport i := energyWord (s.energyImport i)
  let energyExport i := energyWord (s.energyExport i)
  [energyImport 0, energyExport 0, energyImport 1, energyImport 2, energyImport 3, energyImport 4,
    energyImport 5, energyImport 6, energyExport 1, energyExport 2, energyExport 3, energyExport 4,
    energyExport 5, energyExport 6, priceBits s.priceMin s.priceAvg s.priceMax]

end DailyStatistics

/-- A value of the response. Energies are printed in kWh with two decimals. -/
inductive Cell
  | null
  | energy (daWh : ℕ)
  | price (ct : ℤ)
deriving DecidableEq

def priceCell (code : ℕ) : Cell :=
  if priceFrom10bit code ≠ int32Max then .price (priceFrom10bit code) else .null

def wordCells (data : List ℕ) (i : ℕ) : List Cell :=
  let word := data.getD i 0
  if i = 14 then
    if word ≠ uint32Max then
      [priceCell (word >>> 20 &&& 0x3FF), priceCell (word >>> 10 &&& 0x3FF),
        priceCell (word &&& 0x3FF)]
    else [.null, .null, .null]
  else [if word ≠ uint32Max then .energy word else .null]

/-- The first export is moved behind the imports. -/
def reportedOrder (data : List ℕ) : List ℕ :=
  let energyExport0 := data.getD 1 0
  (data.take 1 ++ (data.drop 2).take 6 ++ data.drop 7).set 7 energyExport0

/-- The values that `energy_manager_daily_data_points_handler` writes for a chunk, unless the
stream is out of sync. -/
def dailyDataPointsHandler (dataLength dataChunkOffset nextOffset : ℕ) (data : List ℕ) :
    Option (List Cell) :=
  if nextOffset ≠ dataChunkOffset then none
  else
    let actualLength := min (dataLength - dataChunkOffset) 15
    some ((List.range actualLength).flatMap (wordCells (reportedOrder data)))

section

variable {a b c : ℕ}

theorem priceBits_words (hb : b < 1024) (hc : c < 1024) :
    (a <<< 20 ||| b <<< 10 ||| c) = a * 1048576 + b * 1024 + c := by
  have hlow : b <<< 10 ||| c = b <<< 10 + c := (Nat.shiftLeft_add_eq_or_of_lt hc b).symm
  have hhigh : a <<< 20 ||| (b <<< 10 + c) = a <<< 20 + (b <<< 10 + c) := by
    symm
    apply Nat.shiftLeft_add_eq_or_of_lt
    rw [Nat.shiftLeft_eq]
    omega
  rw [Nat.or_assoc, hlow, hhigh, Nat.shiftLeft_eq, Nat.shiftLeft_eq]
  omega

theorem unpack_priceBits (ha : a < 1024) (hb : b < 1024) (hc : c < 1024) :
    let word := a <<< 20 ||| b <<< 10 ||| c
    word ≠ uint32Max ∧ word >>> 20 &&& 0x3FF = a ∧ word >>> 10 &&& 0x3FF = b ∧
      word &&& 0x3FF = c := by
  have hmask (n : ℕ) : n &&& 0x3FF = n % 1024 := Nat.and_two_pow_sub_one_eq_mod n 10
  dsimp only
  rw [priceBits_words hb hc, hmask, hmask, hmask, Nat.shiftRight_eq_div_pow,
    Nat.shiftRight_eq_div_pow, uint32Max]
  omega

theorem priceTo10bit_lt (price : ℤ) : priceTo10bit price < 1024 := by
  unfold priceTo10bit priceInt10Min priceInt10Max priceUint10Max
  split_ifs
  · decide
  · omega

end

section

/-- Within what 10 bits can hold besides the code for unknown prices. -/
def limited (ct : ℤ) : ℤ := max (-112) (min ct 911)

def expectedPrice (price : Option ℤ) (cost offset : ℤ) : Cell :=
  price.elim .null fun p => .price (limited ((p + cost + offset) / 1000))

/-- A division that truncates gives the floor, unless both are cut off, and the code is not the
one for unknown prices. -/
def PriceFits (z : ℤ) : Prop := (0 ≤ z ∨ 1000 ∣ z ∨ z ≤ -112000) ∧ z < 911000

theorem priceCell_of_ne {ct : ℤ} (h : ct ≠ int32Max) :
    priceCell (priceTo10bit ct) = if ct < 911 then .price (limited ct) else .null := by
  have hcode : (priceTo10bit ct : ℤ) = limited ct + 112 := by
    rw [priceTo10bit, if_neg h]
    unfold limited priceInt10Min priceInt10Max priceUint10Max
    omega
  have hfrom : priceFrom10bit (priceTo10bit ct) = if ct < 911 then limited ct else int32Max := by
    unfold priceFrom10bit priceInt10Min priceInt10Max priceUint10Max
    unfold limited at hcode ⊢
    split_ifs <;> omega
  rw [priceCell, hfrom]
  split_ifs with hlt hmax hmax
  · rfl
  · have hlimited : limited ct = 2147483647 := not_not.mp hmax
    unfold limited at hlimited
    omega
  · exact absurd rfl hmax
  · rfl

theorem priceCell_eq_iff {price : Option ℤ} {cost offset : ℤ}
    (h : ∀ p ∈ price, p + cost + offset < 2 ^ 31) :
    priceCell (priceTo10bit (ctPerKWh price cost offset)) = expectedPrice price cost offset ↔
      ∀ p ∈ price, PriceFits (p + cost + offset) := by
  cases price with
  | none => simp [ctPerKWh, expectedPrice, priceTo10bit, priceCell, priceFrom10bit]
  | some p =>
    simp only [Option.mem_some_iff, forall_eq'] at h ⊢
    change priceCell (priceTo10bit ((p + cost + offset).tdiv 1000)) =
      .price (limited ((p + cost + offset) / 1000)) ↔ _
    generalize p + cost + offset = z at h
    have hdiv := @Int.tdiv_eq_ediv z 1000
    have hsign : Int.sign 1000 = 1 := rfl
    rw [hsign] at hdiv
    rw [priceCell_of_ne]
    · unfold PriceFits
      split_ifs with hlt
      · rw [Cell.price.injEq]
        unfold limited
        split_ifs at hdiv <;> omega
      · constructor
        · intro h
          cases h
        · split_ifs at hdiv <;> omega
    · unfold int32Max
      split_ifs at hdiv <;> omega

end

namespace DailyStatistics

variable (s : DailyStatistics)

/-- The sums of the prices, with what is added for the rounding, do not overflow. -/
def SumsFit : Prop :=
  ∀ c ∈ [(s.minimumPriceToday, 0), (s.averagePriceToday, 500), (s.maximumPriceToday, (999 : ℤ))],
    ∀ p ∈ c.1, -2 ^ 31 ≤ p + s.gridCostPlusTaxPlusMarkup ∧
      p + s.gridCostPlusTaxPlusMarkup + c.2 < 2 ^ 31

def energyCell (energy : Option Energy) : Cell := energy.elim .null fun e => .energy e.daWh

/-- Wherever it stands in the response, the record is reported as it was. -/
def Survives : Prop :=
  ∀ days day, day < days → dailyDataPointsHandler (15 * days) (15 * day) (15 * day) s.record =
    some (List.ofFn (fun i => energyCell (s.energyImport i)) ++
      List.ofFn (fun i => energyCell (s.energyExport i)) ++
      [expectedPrice s.minimumPriceToday s.gridCostPlusTaxPlusMarkup 0,
        expectedPrice s.averagePriceToday s.gridCostPlusTaxPlusMarkup 500,
        expectedPrice s.maximumPriceToday s.gridCostPlusTaxPlusMarkup 999])

theorem energyCell_word (energy : Option Energy) :
    (if energyWord energy = uint32Max then .null else Cell.energy (energyWord energy)) =
      energyCell energy := by
  cases energy with
  | none => rfl
  | some e => exact if_neg e.known.ne

theorem handler_record {days day : ℕ} (h : day < days) :
    dailyDataPointsHandler (15 * days) (15 * day) (15 * day) s.record =
      some (List.ofFn (fun i => energyCell (s.energyImport i)) ++
        List.ofFn (fun i => energyCell (s.energyExport i)) ++
        [priceCell (priceTo10bit s.priceMin), priceCell (priceTo10bit s.priceAvg),
          priceCell (priceTo10bit s.priceMax)]) := by
  have hlength : min (15 * days - 15 * day) 15 = 15 := by omega
  have hrange : List.range 15 = [0, 1, 2, 3, 4, 5, 6, 7, 8, 9, 10, 11, 12, 13, 14] := rfl
  obtain ⟨hword, hmin, havg, hmax⟩ := unpack_priceBits (priceTo10bit_lt s.priceMin)
    (priceTo10bit_lt s.priceAvg) (priceTo10bit_lt s.priceMax)
  rw [dailyDataPointsHandler, if_neg (not_not.mpr rfl), hlength]
  dsimp only
  rw [hrange]
  simp [record, reportedOrder, wordCells, priceBits, List.ofFn_succ, energyCell_word, hword, hmin,
    havg, hmax]

/-- The statistics survive exactly if every price fits, and what is expected keeps the order of the
prices and bounds them. -/
theorem survives_iff (h : s.SumsFit) :
    (s.Survives ↔ (∀ p ∈ s.minimumPriceToday, PriceFits (p + s.gridCostPlusTaxPlusMarkup + 0)) ∧
      (∀ p ∈ s.averagePriceToday, PriceFits (p + s.gridCostPlusTaxPlusMarkup + 500)) ∧
      ∀ p ∈ s.maximumPriceToday, PriceFits (p + s.gridCostPlusTaxPlusMarkup + 999)) ∧
    ∀ lowest average highest : ℤ, lowest ≤ average → average ≤ highest →
      limited (lowest / 1000) ≤ limited ((average + 500) / 1000) ∧
      limited ((average + 500) / 1000) ≤ limited ((highest + 999) / 1000) ∧
      (-112000 ≤ lowest → limited (lowest / 1000) * 1000 ≤ lowest) ∧
      (highest ≤ 911000 → highest ≤ limited ((highest + 999) / 1000) * 1000) := by
  refine ⟨?_, fun lowest average highest h h' => ?_⟩
  swap
  · unfold limited
    omega
  have hbelow {price : Option ℤ} {offset : ℤ} (hprice : (price, offset) ∈ [(s.minimumPriceToday, 0),
      (s.averagePriceToday, 500), (s.maximumPriceToday, (999 : ℤ))]) :
      ∀ p ∈ price, p + s.gridCostPlusTaxPlusMarkup + offset < 2 ^ 31 :=
    fun p hp => (h _ hprice p hp).2
  rw [← priceCell_eq_iff (hbelow (by simp)), ← priceCell_eq_iff (hbelow (by simp)),
    ← priceCell_eq_iff (hbelow (by simp))]
  constructor
  · intro hsurvives
    have hcells := hsurvives 1 0 Nat.one_pos
    rw [handler_record s Nat.one_pos, Option.some.injEq, List.append_cancel_left_eq] at hcells
    simpa [priceMin, priceAvg, priceMax] using hcells
  · rintro ⟨hmin, havg, hmax⟩ days day hday
    rw [handler_record s hday, priceMin, priceAvg, priceMax, hmin, havg, hmax]

/-- A day with a negative price, and one above 911 ct. -/
def negativeDay : DailyStatistics :=
  ⟨fun _ => none, fun _ => none, some (-1500), none, some 911500, 0⟩

theorem negativeDay_lost : ¬ negativeDay.Survives := by
  intro h
  have hcells := h 1 0 Nat.one_pos
  revert hcells
  decide

theorem measured_known : 1234 < uint32Max := by decide

/-- A day on which two meters measured an import and one of them an export. -/
def cheapDay : DailyStatistics :=
  ⟨fun i => if i ≤ 1 then some ⟨1234, measured_known⟩ else none,
    fun i => if i = 1 then some ⟨1234, measured_known⟩ else none,
    some 1500, some 2500, some 3500, 20000⟩

theorem cheapDay_survives : cheapDay.Survives := by
  have hfits : cheapDay.SumsFit := by simp [SumsFit, cheapDay]
  rw [(survives_iff cheapDay hfits).1]
  simp [cheapDay, PriceFits]

end DailyStatistics

end Esp32Firmware.EmEnergyAnalysis
