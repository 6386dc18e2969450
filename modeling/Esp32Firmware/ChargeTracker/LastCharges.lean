import Esp32Firmware.ChargeTracker.ChargeRepair
import Esp32Firmware.Library.LossyMerge

/-!
# The last charges after a reboot

The newest charges of each directory are merged into a list, a directory at a time, by their
timestamps. A charge of unknown time counts as old as the next newer one of its directory whose
time is known. A merge loses what is left of a directory when it reaches the end of the list.

## Implementation notes

The files are those that the repair left. The name of a charger is a function of its directory.
-/

namespace Esp32Firmware.ChargeTracker.Repair

open MeterValue LossyMerge

/-- `CHARGE_RECORD_LAST_CHARGES_SIZE` -/
def lastChargesSize : ℕ := 30

structure ChargeWithLocation (V : Type*) where
  charge : Charge V
  directory : String
  prevKnownTimestampMinutes : UInt32
  deriving DecidableEq

variable {V : Type*}

/-- The own time or the next newer known one. -/
def ChargeWithLocation.timestamp (charge : ChargeWithLocation V) : UInt32 :=
  if charge.charge.cs.timestampMinutes ≠ 0 then charge.charge.cs.timestampMinutes
  else charge.prevKnownTimestampMinutes

/-- `operator>` -/
def newer (charge other : ChargeWithLocation V) : Bool :=
  if charge.timestamp = 0 ∧ other.timestamp = 0 then false
  else decide (other.timestamp < charge.timestamp)

/-- The variables of `readLastChargesFromDirectory`. -/
structure Reading (V : Type*) where
  charges : List (ChargeWithLocation V)
  prevKnownTimestamp : UInt32

def knownAfter (prevKnown : UInt32) (charge : Charge V) : UInt32 :=
  if charge.cs.timestampMinutes ≠ 0 then charge.cs.timestampMinutes else prevKnown

/-- The loop over the records of a file, the last one first. -/
def readRecords (directory : String) : List (Charge V) → Reading V → Reading V
  | [], reading => reading
  | charge :: rest, reading =>
    if reading.charges.length < lastChargesSize then
      readRecords directory rest
        { charges := reading.charges ++ [⟨charge, directory, reading.prevKnownTimestamp⟩]
          prevKnownTimestamp := knownAfter reading.prevKnownTimestamp charge }
    else reading

/-- The loop over the files, the last one first. -/
def readFiles (directory : String) : List (List (Charge V)) → Reading V → Reading V
  | [], reading => reading
  | file :: files, reading =>
    if reading.charges.length < lastChargesSize then
      readFiles directory files (readRecords directory file.reverse reading)
    else reading

def readLastChargesFromDirectory (directory : String) (files : List (List (Charge V))) :
    List (ChargeWithLocation V) :=
  (readFiles directory files.reverse ⟨[], 0⟩).charges

def mergeChargeVectors (target source : List (ChargeWithLocation V)) :
    List (ChargeWithLocation V) :=
  match target with
  | [] => source
  | _ :: _ => (mergeInto newer target source).take lastChargesSize

/-- Directories with their files, in the order of the repair. -/
structure ChargeLog (V : Type*) where
  directories : List (String × List (List (Charge V)))
  nodup : (directories.map Prod.fst).Nodup

def collectCharges (directories : List (String × List (List (Charge V)))) :
    List (ChargeWithLocation V) :=
  directories.foldl (fun all directory =>
    mergeChargeVectors all (readLastChargesFromDirectory directory.1 directory.2)) []

/-- An entry of `last_charges`. -/
structure LastCharge (V : Type*) where
  timestampMinutes : UInt32
  chargeDuration : BitVec 24
  userId : UInt8
  energyCharged : V
  chargerName : String
  deriving DecidableEq

section

variable [MeterValue V]

def chargedInvalid (charge : Charge V) : Bool :=
  isnan charge.cs.meterStart || isnan charge.ce.meterEnd ||
    lt charge.ce.meterEnd charge.cs.meterStart

def lastCharge (chargerName : String → String) (charge : ChargeWithLocation V) : LastCharge V where
  timestampMinutes := charge.charge.cs.timestampMinutes
  chargeDuration := charge.charge.ce.chargeDuration
  userId := charge.charge.cs.userId
  energyCharged :=
    if chargedInvalid charge.charge then nan
    else sub charge.charge.ce.meterEnd charge.charge.cs.meterStart
  chargerName := chargerName charge.directory

/-- `last_charges` as `repair_charges` fills it, the oldest charge first. -/
def lastCharges (chargerName : String → String) (log : ChargeLog V) : List (LastCharge V) :=
  (((collectCharges log.directories).take lastChargesSize).reverse).map (lastCharge chargerName)

end

/-- The charges of a directory, the newest one first. -/
def locate (directory : String) : UInt32 → List (Charge V) → List (ChargeWithLocation V)
  | _, [] => []
  | prevKnown, charge :: rest =>
    ⟨charge, directory, prevKnown⟩ :: locate directory (knownAfter prevKnown charge) rest

def chargesOf (directory : String × List (List (Charge V))) : List (ChargeWithLocation V) :=
  locate directory.1 0 directory.2.flatten.reverse

/-- The time of a charge is after that of another one. -/
def later (charge other : ChargeWithLocation V) : Bool :=
  decide (other.timestamp < charge.timestamp)

/-- All charges of all directories, the newest one first: a merge by times that loses nothing. -/
def chronological (directories : List (String × List (List (Charge V)))) :
    List (ChargeWithLocation V) :=
  directories.foldl (fun all directory => mergeAll later all (chargesOf directory)) []

/-- The first directory that has charges. -/
def firstDirectory (directories : List (String × List (List (Charge V)))) : Option String :=
  (directories.find? fun directory => !directory.2.flatten.isEmpty).map Prod.fst

/-- Behind the oldest charge of the first directory with charges there is none of another one,
or the newest charges end before. -/
def ChargeLog.NothingLost (log : ChargeLog V) : Prop :=
  ∀ first ∈ firstDirectory log.directories,
    let listed := upTo ChargeWithLocation.directory first (chronological log.directories)
    listed = chronological log.directories ∨ lastChargesSize ≤ listed.length

@[simp] theorem length_locate (directory : String) (prevKnown : UInt32)
    (charges : List (Charge V)) :
    (locate directory prevKnown charges).length = charges.length := by
  induction charges generalizing prevKnown with
  | nil => rfl
  | cons charge rest ih => simp [locate, ih]

theorem locate_append (directory : String) (prevKnown : UInt32) (charges more : List (Charge V)) :
    locate directory prevKnown (charges ++ more) = locate directory prevKnown charges ++
        locate directory (charges.foldl knownAfter prevKnown) more := by
  induction charges generalizing prevKnown with
  | nil => rfl
  | cons charge rest ih => simp [locate, ih]

theorem directory_of_mem_locate {directory : String} {prevKnown : UInt32}
    {charges : List (Charge V)} {charge : ChargeWithLocation V}
    (h : charge ∈ locate directory prevKnown charges) : charge.directory = directory := by
  induction charges generalizing prevKnown with
  | nil => cases h
  | cons c rest ih =>
    rcases List.mem_cons.mp h with rfl | h
    · rfl
    · exact ih h

/-- The first charges read, and the time known after them as long as there may be more. -/
structure Read (directory : String) (done : List (Charge V)) (reading : Reading V) : Prop where
  charges : reading.charges = (locate directory 0 done).take lastChargesSize
  prevKnown : done.length < lastChargesSize → reading.prevKnownTimestamp = done.foldl knownAfter 0

theorem Read.length_lt_iff {directory : String} {done : List (Charge V)} {reading : Reading V}
    (h : Read directory done reading) :
    reading.charges.length < lastChargesSize ↔ done.length < lastChargesSize := by
  rw [h.charges, List.length_take, length_locate]
  omega

/-- When the list is full, further charges are not read. -/
theorem Read.append_of_full {directory : String} {done more : List (Charge V)}
    {reading : Reading V} (h : Read directory done reading)
    (hfull : ¬reading.charges.length < lastChargesSize) :
    Read directory (done ++ more) reading := by
  rw [h.length_lt_iff] at hfull
  constructor
  · rw [h.charges, locate_append, List.take_append_of_le_length]
    simpa using hfull
  · intro hlt
    rw [List.length_append] at hlt
    omega

section

variable {directory : String} {done : List (Charge V)} {reading : Reading V}
  (h : Read directory done reading)
include h

theorem Read.snoc (hlt : reading.charges.length < lastChargesSize) (charge : Charge V) :
    Read directory (done ++ [charge])
      { charges := reading.charges ++ [⟨charge, directory, reading.prevKnownTimestamp⟩]
        prevKnownTimestamp := knownAfter reading.prevKnownTimestamp charge } := by
  rw [h.length_lt_iff] at hlt
  have hknown := h.prevKnown hlt
  have hall : reading.charges = locate directory 0 done := by
    rw [h.charges, List.take_of_length_le]
    simpa using hlt.le
  constructor
  · rw [locate_append, List.take_of_length_le]
    · simp [hall, hknown, locate]
    · simpa [locate] using hlt
  · intro _
    simp [hknown]

theorem read_readRecords (charges : List (Charge V)) :
    Read directory (done ++ charges) (readRecords directory charges reading) := by
  induction charges generalizing done reading with
  | nil => simpa [readRecords] using h
  | cons charge rest ih =>
    rw [readRecords]
    split_ifs with hlt
    · simpa using ih (h.snoc hlt charge)
    · exact h.append_of_full hlt

theorem read_readFiles (files : List (List (Charge V))) :
    Read directory (done ++ (files.map List.reverse).flatten)
      (readFiles directory files reading) := by
  induction files generalizing done reading with
  | nil => simpa [readFiles] using h
  | cons file rest ih =>
    rw [readFiles]
    split_ifs with hlt
    · simpa using ih (read_readRecords h file.reverse)
    · exact h.append_of_full hlt

end

/-- The newest charges of a directory are read. -/
theorem readLastChargesFromDirectory_eq (directory : String) (files : List (List (Charge V))) :
    readLastChargesFromDirectory directory files =
      (chargesOf (directory, files)).take lastChargesSize := by
  have hstart : Read (V := V) directory [] ⟨[], 0⟩ := ⟨by simp [locate], fun _ => rfl⟩
  have hread := read_readFiles hstart files.reverse
  rw [List.nil_append, List.map_reverse, ← List.reverse_flatten] at hread
  exact hread.charges

theorem directory_of_mem_chargesOf {directory : String × List (List (Charge V))}
    {charge : ChargeWithLocation V} (h : charge ∈ chargesOf directory) :
    charge.directory = directory.1 :=
  directory_of_mem_locate h

theorem chargesOf_eq_nil {directory : String × List (List (Charge V))} :
    chargesOf directory = [] ↔ directory.2.flatten = [] := by
  rw [← List.length_eq_zero_iff, chargesOf, length_locate, List.length_reverse,
    List.length_eq_zero_iff]

variable (directories : List (String × List (List (Charge V))))
variable (directory : String × List (List (Charge V)))

theorem chronological_concat :
    chronological (directories ++ [directory]) =
      mergeAll later (chronological directories) (chargesOf directory) := by
  simp [chronological]

theorem chronological_perm :
    (chronological directories).Perm (directories.flatMap chargesOf) := by
  induction directories using List.reverseRecOn with
  | nil => rfl
  | append_singleton directories directory ih =>
    rw [chronological_concat, List.flatMap_append, List.flatMap_singleton]
    exact (mergeAll_perm later _ _).trans (ih.append_right _)

/-- Where the records of every directory are in the order of their times, all charges are. -/
theorem chronological_pairwise (hdirectories : ∀ directory ∈ directories,
      (chargesOf directory).Pairwise fun a b => b.timestamp ≤ a.timestamp) :
    (chronological directories).Pairwise fun a b => b.timestamp ≤ a.timestamp := by
  induction directories using List.reverseRecOn with
  | nil => exact List.Pairwise.nil
  | append_singleton directories directory ih =>
    rw [chronological_concat]
    apply mergeAll_pairwise
    · intro a b
      rw [later, decide_eq_false_iff_not, UInt32.not_lt]
    · exact fun a b c hab hbc => UInt32.le_trans hbc hab
    · exact fun a b => UInt32.le_total _ _
    · exact ih fun other hother => hdirectories other (List.mem_append_left _ hother)
    · exact hdirectories directory (by simp)

theorem mem_chronological {directories : List (String × List (List (Charge V)))}
    {charge : ChargeWithLocation V} :
    charge ∈ chronological directories ↔
      ∃ directory ∈ directories, charge ∈ chargesOf directory := by
  rw [(chronological_perm directories).mem_iff, List.mem_flatMap]

/-- Charges without any known time come last. -/
theorem newer_eq_later : (newer : ChargeWithLocation V → ChargeWithLocation V → Bool) = later := by
  funext charge other
  rw [newer, later]
  split
  · rename_i hunknown
    rw [hunknown.1, hunknown.2]
    rfl
  · rfl

theorem collectCharges_concat :
    collectCharges (directories ++ [directory]) = mergeChargeVectors (collectCharges directories)
        ((chargesOf directory).take lastChargesSize) := by
  simp [collectCharges, readLastChargesFromDirectory_eq]

theorem chronological_of_firstDirectory_none {directories : List (String × List (List (Charge V)))}
    (h : firstDirectory directories = none) : chronological directories = [] := by
  rw [firstDirectory, Option.map_eq_none_iff, List.find?_eq_none] at h
  rw [List.eq_nil_iff_forall_not_mem]
  intro charge hcharge
  obtain ⟨directory, hdirectory, hmem⟩ := mem_chronological.mp hcharge
  have hempty : directory.2.flatten = [] := by simpa using h directory hdirectory
  rw [chargesOf_eq_nil.mpr hempty] at hmem
  cases hmem

theorem firstDirectory_concat :
    firstDirectory (directories ++ [directory]) = (firstDirectory directories).or
        (if directory.2.flatten = [] then none else some directory.1) := by
  unfold firstDirectory
  rw [List.find?_append]
  cases directories.find? fun directory => !directory.2.flatten.isEmpty with
  | some found => rfl
  | none =>
    by_cases h : directory.2.flatten = []
    · simp [h]
    · simp [h]

theorem mem_of_firstDirectory {directories : List (String × List (List (Charge V)))}
    {first : String} (h : firstDirectory directories = some first) :
    first ∈ directories.map Prod.fst ∧
      upTo ChargeWithLocation.directory first (chronological directories) ≠ [] := by
  obtain ⟨directory, hfind, rfl⟩ := Option.map_eq_some_iff.mp h
  have hmem := List.mem_of_find?_eq_some hfind
  have hne : directory.2.flatten ≠ [] := by simpa using List.find?_some hfind
  refine ⟨List.mem_map_of_mem hmem, ?_⟩
  intro hnil
  obtain ⟨charge, hcharge⟩ := List.exists_mem_of_ne_nil _ (mt chargesOf_eq_nil.mp hne)
  have hall := List.rdropWhile_eq_nil_iff.mp hnil charge
    (mem_chronological.mpr ⟨directory, hmem, hcharge⟩)
  simp [directory_of_mem_chargesOf hcharge] at hall

/-- Merging keeps the newest charges up to the oldest one of the first directory with charges,
whatever the order of the times is. -/
theorem collectCharges_eq (hnodup : (directories.map Prod.fst).Nodup) :
    collectCharges directories =
      match firstDirectory directories with
      | none => []
      | some first =>
        (upTo ChargeWithLocation.directory first (chronological directories)).take
          lastChargesSize := by
  induction directories using List.reverseRecOn with
  | nil => rfl
  | append_singleton directories directory ih =>
    rw [List.map_append, List.nodup_append] at hnodup
    obtain ⟨hinit, -, hdisjoint⟩ := hnodup
    rw [collectCharges_concat, ih hinit, firstDirectory_concat, chronological_concat]
    cases hfirst : firstDirectory directories with
    | none =>
      rw [chronological_of_firstDirectory_none hfirst, mergeAll_nil_left]
      by_cases hempty : directory.2.flatten = []
      · simp [hempty, chargesOf_eq_nil.mpr hempty, mergeChargeVectors]
      · -- The first directory with charges: all of them are its own.
        have hown : upTo ChargeWithLocation.directory directory.1 (chargesOf directory) =
            chargesOf directory := by
          have hself : upTo ChargeWithLocation.directory directory.1
              (chargesOf directory ++ []) = chargesOf directory :=
            upTo_append _ (by simp) fun charge hcharge =>
              directory_of_mem_chargesOf (List.mem_of_mem_getLast? hcharge)
          rwa [List.append_nil] at hself
        simp [hempty, hown, mergeChargeVectors]
    | some first =>
      obtain ⟨hmem, hne⟩ := mem_of_firstDirectory hfirst
      have hother : ∀ charge ∈ chargesOf directory, charge.directory ≠ first := by
        intro charge hcharge hsame
        rw [directory_of_mem_chargesOf hcharge] at hsame
        exact hdisjoint first hmem directory.1 (by simp) hsame.symm
      simp only [Option.some_or]
      rw [upTo_mergeAll later ChargeWithLocation.directory _ _ hother,
        ← take_mergeInto later lastChargesSize lastChargesSize lastChargesSize _ _ le_rfl
          le_rfl]
      have htake : (upTo ChargeWithLocation.directory first (chronological directories)).take
          lastChargesSize ≠ [] := by
        simpa [lastChargesSize] using hne
      unfold mergeChargeVectors
      split
      · contradiction
      · rw [newer_eq_later]

section

variable [MeterValue V]

end

def chargeAt (timestampMinutes : UInt32) : Charge (Option ℚ) where
  cs := { timestampMinutes, meterStart := some 10, userId := 1 }
  ce := { chargeDuration := 60, meterEnd := some 12 }

/-- The only charge of a second charger is older than that of the own one. -/
def twoChargers : ChargeLog (Option ℚ) where
  directories := [("", [[chargeAt 100]]), ("aBc", [[chargeAt 50]])]
  nodup := by decide

end Esp32Firmware.ChargeTracker.Repair
