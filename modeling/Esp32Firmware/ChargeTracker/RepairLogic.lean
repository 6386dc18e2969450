import Mathlib

/-!
# Repair of a charge from its neighbours

A missing meter value of a charge is taken from the end of the previous or the start of the
next charge, if the energy charged stays plausible. An end of zero counts as a missing one.
-/

namespace Esp32Firmware.ChargeTracker.Repair

/-- `CHARGE_TRACKER_MAX_REPAIR` -/
def maxRepair : ℕ := 200

/-- Meter values with the operations that the repair uses. -/
class MeterValue (V : Type*) where
  nan : V
  zero : V
  isnan : V → Bool
  /-- `a == b` of two values; a missing one equals nothing. -/
  eq : V → V → Bool
  /-- `a <= b`, wrong if one of them is missing. -/
  le : V → V → Bool
  /-- `a < b`, wrong if one of them is missing. -/
  lt : V → V → Bool
  sub : V → V → V
  /-- `a < CHARGE_TRACKER_MAX_REPAIR`, wrong for a missing value. -/
  ltMaxRepair : V → Bool
  isnan_nan : isnan nan = true

instance : MeterValue (Option ℚ) where
  nan := none
  zero := some 0
  isnan := Option.isNone
  eq
    | some a, some b => decide (a = b)
    | _, _ => false
  le
    | some a, some b => decide (a ≤ b)
    | _, _ => false
  lt
    | some a, some b => decide (a < b)
    | _, _ => false
  sub
    | some a, some b => some (a - b)
    | _, _ => none
  ltMaxRepair
    | some a => decide (a < (maxRepair : ℚ))
    | none => false
  isnan_nan := rfl

structure ChargeStart (V : Type*) where
  timestampMinutes : UInt32
  meterStart : V
  userId : UInt8
  deriving DecidableEq

structure ChargeEnd (V : Type*) where
  chargeDuration : BitVec 24
  meterEnd : V
  deriving DecidableEq

structure Charge (V : Type*) where
  cs : ChargeStart V
  ce : ChargeEnd V
  deriving DecidableEq

variable {V : Type*}

def Charge.setMeterStart (charge : Charge V) (value : V) : Charge V :=
  { charge with
    cs := { charge.cs with
      meterStart := value } }

def Charge.setMeterEnd (charge : Charge V) (value : V) : Charge V :=
  { charge with
    ce := { charge.ce with
      meterEnd := value } }

section

variable (charge : Charge V) (value : V)

@[simp] theorem Charge.setMeterStart_meterStart :
    (charge.setMeterStart value).cs.meterStart = value := rfl

@[simp] theorem Charge.setMeterStart_ce : (charge.setMeterStart value).ce = charge.ce := rfl

@[simp] theorem Charge.setMeterEnd_meterEnd :
    (charge.setMeterEnd value).ce.meterEnd = value := rfl

@[simp] theorem Charge.setMeterEnd_cs : (charge.setMeterEnd value).cs = charge.cs := rfl

theorem Charge.setMeterStart_eq_self (h : charge.cs.meterStart = value) :
    charge.setMeterStart value = charge := by
  subst h
  rfl

theorem Charge.setMeterEnd_eq_self (h : charge.ce.meterEnd = value) :
    charge.setMeterEnd value = charge := by
  subst h
  rfl

end

variable [MeterValue V]

open MeterValue

/-- Neither missing nor zero. -/
def usable (value : V) : Bool := !isnan value && !eq value zero

/-- The bitmap of the values that are there, from the end of the previous charge to the start
of the next one. -/
def repairState (prevEnd : V) (charge : Charge V) (nextStart : V) : ℕ :=
  (!isnan prevEnd).toNat <<< 3 ||| (usable charge.cs.meterStart).toNat <<< 2 |||
    (usable charge.ce.meterEnd).toNat <<< 1 ||| (!isnan nextStart).toNat

/-- `repair_logic`: the repaired charge, if there is something to repair. Of the previous charge
only the end is read, of the next one only the start. -/
def repairLogic (prevEnd : V) (charge : Charge V) (nextStart : V) : Option (Charge V) :=
  match repairState prevEnd charge nextStart with
  | 10 | 11 =>
    if le prevEnd charge.ce.meterEnd && ltMaxRepair (sub charge.ce.meterEnd prevEnd) then
      if eq charge.cs.meterStart zero && ltMaxRepair prevEnd then none
      else some (charge.setMeterStart prevEnd)
    else none
  | 5 | 13 =>
    if le charge.cs.meterStart nextStart && ltMaxRepair (sub nextStart charge.cs.meterStart) then
      if eq charge.ce.meterEnd zero && eq charge.cs.meterStart zero then none
      else some (charge.setMeterEnd nextStart)
    else none
  | 9 =>
    if le prevEnd nextStart && ltMaxRepair (sub nextStart prevEnd) &&
        !(eq prevEnd zero && eq charge.cs.meterStart zero && eq charge.ce.meterEnd zero &&
          eq nextStart zero) then
      some ((charge.setMeterStart prevEnd).setMeterEnd nextStart)
    else none
  | _ => none

/-- What a repair may do: it sets the start to the end of the previous charge, or the end to the
start of the next one, or both, and only to values that are there. -/
theorem repairLogic_cases {prevEnd nextStart : V} {charge repaired : Charge V}
    (h : repairLogic prevEnd charge nextStart = some repaired) :
    (repairState prevEnd charge nextStart ∈ [10, 11] ∧
      le prevEnd charge.ce.meterEnd ∧ ltMaxRepair (sub charge.ce.meterEnd prevEnd) ∧
      ¬(eq charge.cs.meterStart zero && ltMaxRepair prevEnd) ∧
      repaired = charge.setMeterStart prevEnd) ∨
    (repairState prevEnd charge nextStart ∈ [5, 13] ∧
      le charge.cs.meterStart nextStart ∧ ltMaxRepair (sub nextStart charge.cs.meterStart) ∧
      repaired = charge.setMeterEnd nextStart) ∨
    (repairState prevEnd charge nextStart = 9 ∧
      le prevEnd nextStart ∧ ltMaxRepair (sub nextStart prevEnd) ∧
      ¬(eq prevEnd zero && eq charge.cs.meterStart zero && eq charge.ce.meterEnd zero &&
        eq nextStart zero) ∧
      repaired = (charge.setMeterStart prevEnd).setMeterEnd nextStart) := by
  unfold repairLogic at h
  split at h
  case h_1 hstate =>
    left
    split_ifs at h with hsane hnew
    rw [Bool.and_eq_true] at hsane
    exact ⟨by simp [hstate], hsane.1, hsane.2, hnew, (Option.some.inj h).symm⟩
  case h_2 hstate =>
    left
    split_ifs at h with hsane hnew
    rw [Bool.and_eq_true] at hsane
    exact ⟨by simp [hstate], hsane.1, hsane.2, hnew, (Option.some.inj h).symm⟩
  case h_3 hstate =>
    right; left
    split_ifs at h with hsane hnew
    rw [Bool.and_eq_true] at hsane
    exact ⟨by simp [hstate], hsane.1, hsane.2, (Option.some.inj h).symm⟩
  case h_4 hstate =>
    right; left
    split_ifs at h with hsane hnew
    rw [Bool.and_eq_true] at hsane
    exact ⟨by simp [hstate], hsane.1, hsane.2, (Option.some.inj h).symm⟩
  case h_5 hstate =>
    right; right
    split_ifs at h with hsane
    simp only [Bool.and_eq_true, Bool.not_eq_true'] at hsane
    refine ⟨hstate, hsane.1.1, hsane.1.2, ?_, (Option.some.inj h).symm⟩
    simp [hsane.2]
  case h_6 => cases h

/-- The bits of the state. -/
theorem repairState_eq (prevEnd nextStart : V) (charge : Charge V) :
    repairState prevEnd charge nextStart =
      8 * (!isnan prevEnd).toNat + 4 * (usable charge.cs.meterStart).toNat +
        2 * (usable charge.ce.meterEnd).toNat + (!isnan nextStart).toNat := by
  unfold repairState
  cases isnan prevEnd <;> cases usable charge.cs.meterStart <;>
    cases usable charge.ce.meterEnd <;> cases isnan nextStart <;> rfl

section

variable {prevEnd nextStart : V} {charge : Charge V}

/-- Only the start is missing. -/
theorem of_repairState_start (h : repairState prevEnd charge nextStart ∈ [10, 11]) :
    isnan prevEnd = false ∧ usable charge.cs.meterStart = false ∧
      usable charge.ce.meterEnd = true := by
  rw [repairState_eq] at h
  generalize isnan prevEnd = b₃, usable charge.cs.meterStart = b₂,
    usable charge.ce.meterEnd = b₁, isnan nextStart = b₀ at h ⊢
  revert h b₃ b₂ b₁ b₀
  decide

/-- Only the end is missing. -/
theorem of_repairState_end (h : repairState prevEnd charge nextStart ∈ [5, 13]) :
    usable charge.cs.meterStart = true ∧ usable charge.ce.meterEnd = false ∧
      isnan nextStart = false := by
  rw [repairState_eq] at h
  generalize isnan prevEnd = b₃, usable charge.cs.meterStart = b₂,
    usable charge.ce.meterEnd = b₁, isnan nextStart = b₀ at h ⊢
  revert h b₃ b₂ b₁ b₀
  decide

/-- Both are missing. -/
theorem of_repairState_both (h : repairState prevEnd charge nextStart = 9) :
    isnan prevEnd = false ∧ usable charge.cs.meterStart = false ∧
      usable charge.ce.meterEnd = false ∧ isnan nextStart = false := by
  rw [repairState_eq] at h
  generalize isnan prevEnd = b₃, usable charge.cs.meterStart = b₂,
    usable charge.ce.meterEnd = b₁, isnan nextStart = b₀ at h ⊢
  revert h b₃ b₂ b₁ b₀
  decide

end

/-- The charge after `repair_logic`. -/
def repair (prevEnd : V) (charge : Charge V) (nextStart : V) : Charge V :=
  (repairLogic prevEnd charge nextStart).getD charge

theorem repair_of_some {prevEnd nextStart : V} {charge repaired : Charge V}
    (h : repairLogic prevEnd charge nextStart = some repaired) :
    repair prevEnd charge nextStart = repaired := by
  rw [repair, h, Option.getD_some]

/-- The meter values that `repair_logic` changes by the end of the previous charge: the start is
missing and the energy up to the end of the charge is plausible, or both values are missing and
that up to the start of the next charge is. -/
def TakesEnd (prevEnd : V) (charge : Charge V) (nextStart : V) : Prop :=
  isnan prevEnd = false ∧ usable charge.cs.meterStart = false ∧
    ((usable charge.ce.meterEnd = true ∧ le prevEnd charge.ce.meterEnd = true ∧
        ltMaxRepair (sub charge.ce.meterEnd prevEnd) = true ∧
        ¬(eq charge.cs.meterStart zero = true ∧ ltMaxRepair prevEnd = true) ∧
        charge.cs.meterStart ≠ prevEnd) ∨
      (usable charge.ce.meterEnd = false ∧ isnan nextStart = false ∧
        le prevEnd nextStart = true ∧ ltMaxRepair (sub nextStart prevEnd) = true ∧
        ¬(eq prevEnd zero = true ∧ eq charge.cs.meterStart zero = true ∧
          eq charge.ce.meterEnd zero = true ∧ eq nextStart zero = true) ∧
        (charge.cs.meterStart ≠ prevEnd ∨ charge.ce.meterEnd ≠ nextStart)))

/-- The meter values that `repair_logic` changes by the start of the next charge alone: the end
is missing and the energy from the start of the charge is plausible. -/
def TakesStart (charge : Charge V) (nextStart : V) : Prop :=
  usable charge.cs.meterStart = true ∧ usable charge.ce.meterEnd = false ∧
    isnan nextStart = false ∧ le charge.cs.meterStart nextStart = true ∧
    ltMaxRepair (sub nextStart charge.cs.meterStart) = true ∧ charge.ce.meterEnd ≠ nextStart

theorem not_takesEnd_nan (charge : Charge V) (nextStart : V) : ¬TakesEnd nan charge nextStart := by
  rintro ⟨hnan, -⟩
  simp [isnan_nan] at hnan

section

variable {prevEnd nextStart : V} {charge : Charge V}

theorem repair_of_takesEnd (h : TakesEnd prevEnd charge nextStart) :
    (repair prevEnd charge nextStart).cs.meterStart = prevEnd ∧
      repair prevEnd charge nextStart ≠ charge := by
  obtain ⟨hprev, hstart, ⟨hend, hle, hlt, hnew, hne⟩ | ⟨hend, hnext, hle, hlt, hzero, hne⟩⟩ := h
  · have hlogic : repairLogic prevEnd charge nextStart = some (charge.setMeterStart prevEnd) := by
      unfold repairLogic
      rw [repairState_eq, hprev, hstart, hend]
      cases isnan nextStart <;> simp [hle, hlt, hnew]
    rw [repair_of_some hlogic]
    refine ⟨rfl, fun hsame => hne ?_⟩
    rw [← hsame, Charge.setMeterStart_meterStart]
  · have hlogic : repairLogic prevEnd charge nextStart =
        some ((charge.setMeterStart prevEnd).setMeterEnd nextStart) := by
      unfold repairLogic
      rw [repairState_eq, hprev, hstart, hend, hnext]
      simpa [hle, hlt] using hzero
    rw [repair_of_some hlogic]
    refine ⟨rfl, fun hsame => hne.elim (fun hne => hne ?_) fun hne => hne ?_⟩
    · rw [← hsame, Charge.setMeterEnd_cs, Charge.setMeterStart_meterStart]
    · rw [← hsame, Charge.setMeterEnd_meterEnd]

theorem repair_of_takesStart (prevEnd : V) (h : TakesStart charge nextStart) :
    repair prevEnd charge nextStart = charge.setMeterEnd nextStart := by
  obtain ⟨hstart, hend, hnext, hle, hlt, -⟩ := h
  have hnonzero : eq charge.cs.meterStart zero = false := by
    simp only [usable, Bool.and_eq_true, Bool.not_eq_true'] at hstart
    exact hstart.2
  apply repair_of_some
  unfold repairLogic
  rw [repairState_eq, hstart, hend, hnext]
  cases isnan prevEnd <;> simp [hle, hlt, hnonzero]

theorem repair_eq_self (hend : ¬TakesEnd prevEnd charge nextStart)
    (hstart : ¬TakesStart charge nextStart) : repair prevEnd charge nextStart = charge := by
  cases hlogic : repairLogic prevEnd charge nextStart with
  | none => rw [repair, hlogic, Option.getD_none]
  | some repaired =>
    rw [repair_of_some hlogic]
    obtain ⟨hstate, hle, hlt, hnew, rfl⟩ | ⟨hstate, hle, hlt, rfl⟩ |
      ⟨hstate, hle, hlt, hzero, rfl⟩ := repairLogic_cases hlogic
    · obtain ⟨hprev, hunusable, husable⟩ := of_repairState_start hstate
      by_contra hne
      refine hend ⟨hprev, hunusable, Or.inl ⟨husable, hle, hlt, by simpa using hnew, ?_⟩⟩
      intro hsame
      exact hne (Charge.setMeterStart_eq_self _ _ hsame)
    · obtain ⟨husable, hunusable, hnext⟩ := of_repairState_end hstate
      by_contra hne
      refine hstart ⟨husable, hunusable, hnext, hle, hlt, fun hsame => ?_⟩
      exact hne (Charge.setMeterEnd_eq_self _ _ hsame)
    · obtain ⟨hprev, hunusable, hunusable', hnext⟩ := of_repairState_both hstate
      by_contra hne
      refine hend ⟨hprev, hunusable, Or.inr ⟨hunusable', hnext, hle, hlt, by simpa using hzero, ?_⟩⟩
      by_contra hsame
      push Not at hsame
      rw [Charge.setMeterStart_eq_self _ _ hsame.1, Charge.setMeterEnd_eq_self _ _ hsame.2] at hne
      exact hne rfl

theorem repair_eq_self_iff :
    repair prevEnd charge nextStart = charge ↔
      ¬TakesEnd prevEnd charge nextStart ∧ ¬TakesStart charge nextStart := by
  constructor
  · intro h
    refine ⟨fun htakes => (repair_of_takesEnd htakes).2 h, fun htakes => htakes.2.2.2.2.2 ?_⟩
    rw [repair_of_takesStart prevEnd htakes] at h
    rw [← h, Charge.setMeterEnd_meterEnd]
  · rintro ⟨hend, hstart⟩
    exact repair_eq_self hend hstart

/-- Two ends before a charge give the same unless one of them is taken. -/
theorem repair_eq_repair_iff (prevEnd' : V) :
    repair prevEnd charge nextStart = repair prevEnd' charge nextStart ↔
      (TakesEnd prevEnd charge nextStart ∨ TakesEnd prevEnd' charge nextStart →
        prevEnd = prevEnd') := by
  by_cases hstart : TakesStart charge nextStart
  · have hnone : ∀ other : V, ¬TakesEnd other charge nextStart := by
      rintro other ⟨-, hunusable, -⟩
      simp [hstart.1] at hunusable
    simp [repair_of_takesStart _ hstart, hnone]
  · have hunchanged : ∀ other : V, ¬TakesEnd other charge nextStart →
        repair other charge nextStart = charge := fun other hend => repair_eq_self hend hstart
    constructor
    · intro h htakes
      by_cases hend : TakesEnd prevEnd charge nextStart
      · by_cases hend' : TakesEnd prevEnd' charge nextStart
        · rw [← (repair_of_takesEnd hend).1, h, (repair_of_takesEnd hend').1]
        · exact absurd (h.trans (hunchanged _ hend')) (repair_of_takesEnd hend).2
      · have hend' := htakes.resolve_left hend
        exact absurd (h.symm.trans (hunchanged _ hend)) (repair_of_takesEnd hend').2
    · intro hsame
      by_cases htakes : TakesEnd prevEnd charge nextStart ∨ TakesEnd prevEnd' charge nextStart
      · rw [hsame htakes]
      · push Not at htakes
        rw [hunchanged _ htakes.1, hunchanged _ htakes.2]

/-- Without a charge before, nothing is taken from it. -/
theorem repair_eq_repair_nan_iff :
    repair prevEnd charge nextStart = repair nan charge nextStart ↔
      ¬TakesEnd prevEnd charge nextStart := by
  rw [repair_eq_repair_iff]
  constructor
  · intro hsame htakes
    rw [hsame (Or.inl htakes)] at htakes
    exact not_takesEnd_nan charge nextStart htakes
  · intro htakes hboth
    exact absurd (hboth.resolve_left htakes) (not_takesEnd_nan charge nextStart)

/-- A new end is there where the old one was missing. -/
theorem meterEnd_repair (prevEnd : V) (charge : Charge V) (nextStart : V) :
    (repair prevEnd charge nextStart).ce.meterEnd = charge.ce.meterEnd ∨
      usable charge.ce.meterEnd = false ∧
        (repair prevEnd charge nextStart).ce.meterEnd = nextStart := by
  cases hlogic : repairLogic prevEnd charge nextStart with
  | none => simp [repair, hlogic]
  | some repaired =>
    rw [repair_of_some hlogic]
    obtain ⟨-, -, -, -, rfl⟩ | ⟨hstate, -, -, rfl⟩ | ⟨hstate, -, -, -, rfl⟩ :=
      repairLogic_cases hlogic
    · exact Or.inl rfl
    · exact Or.inr ⟨(of_repairState_end hstate).2.1, rfl⟩
    · exact Or.inr ⟨(of_repairState_both hstate).2.2.1, rfl⟩

end

/-- A second repair between the same neighbours can only take the branch of the first one, or
sets values again that are the neighbours' already. -/
theorem repair_idempotent (prevEnd nextStart : V) (charge : Charge V) :
    repair prevEnd (repair prevEnd charge nextStart) nextStart =
      repair prevEnd charge nextStart := by
  cases hfirst : repairLogic prevEnd charge nextStart with
  | none => simp [repair, hfirst]
  | some repaired =>
    rw [repair_of_some hfirst]
    cases hsecond : repairLogic prevEnd repaired nextStart with
    | none => simp [repair, hsecond]
    | some again =>
      rw [repair_of_some hsecond]
      obtain ⟨hstate, -, -, -, rfl⟩ | ⟨hstate, -, -, rfl⟩ | ⟨hstate, -, -, -, rfl⟩ :=
        repairLogic_cases hfirst
      · have hend := (of_repairState_start hstate).2.2
        obtain ⟨hstate', -, -, -, rfl⟩ | ⟨hstate', -⟩ | ⟨hstate', -⟩ :=
          repairLogic_cases hsecond
        · exact Charge.setMeterStart_eq_self _ _ rfl
        · have hmissing := (of_repairState_end hstate').2.1
          simp [hend] at hmissing
        · have hmissing := (of_repairState_both hstate').2.2.1
          simp [hend] at hmissing
      · have hstart := (of_repairState_end hstate).1
        obtain ⟨hstate', -⟩ | ⟨hstate', -, -, rfl⟩ | ⟨hstate', -⟩ :=
          repairLogic_cases hsecond
        · have hmissing := (of_repairState_start hstate').2.1
          simp [hstart] at hmissing
        · exact Charge.setMeterEnd_eq_self _ _ rfl
        · have hmissing := (of_repairState_both hstate').2.1
          simp [hstart] at hmissing
      · obtain ⟨-, -, -, -, rfl⟩ | ⟨-, -, -, rfl⟩ | ⟨-, -, -, -, rfl⟩ :=
          repairLogic_cases hsecond
        · exact Charge.setMeterStart_eq_self _ _ rfl
        · exact Charge.setMeterEnd_eq_self _ _ rfl
        · rfl

theorem exists_le {a b : Option ℚ} (h : le a b = true) :
    ∃ x y, a = some x ∧ b = some y ∧ x ≤ y := by
  cases a with
  | none => cases h
  | some x =>
    cases b with
    | none => cases h
    | some y => exact ⟨x, y, rfl, rfl, of_decide_eq_true h⟩

theorem sub_lt_of_plausible {x y : ℚ}
    (h : ltMaxRepair (sub (some y) (some x)) = true) : y - x < maxRepair :=
  of_decide_eq_true h

/-- Both values are there after a repair, the energy between them is plausible, each new value
is a neighbour's, and a second repair changes nothing. -/
theorem repairLogic_sound (prev charge next repaired : Charge (Option ℚ))
    (h : repairLogic prev.ce.meterEnd charge next.cs.meterStart = some repaired) :
    (∃ start stop, repaired.cs.meterStart = some start ∧ repaired.ce.meterEnd = some stop ∧
      0 ≤ stop - start ∧ stop - start < maxRepair) ∧
    (repaired.cs.meterStart = charge.cs.meterStart ∨ repaired.cs.meterStart = prev.ce.meterEnd) ∧
    (repaired.ce.meterEnd = charge.ce.meterEnd ∨ repaired.ce.meterEnd = next.cs.meterStart) ∧
    (repaired.cs.timestampMinutes = charge.cs.timestampMinutes ∧
      repaired.cs.userId = charge.cs.userId ∧
      repaired.ce.chargeDuration = charge.ce.chargeDuration) ∧
    repair prev.ce.meterEnd repaired next.cs.meterStart = repaired := by
  refine ⟨?_, ?_, ?_, ?_, ?_⟩
  · obtain ⟨-, hle, hlt, -, rfl⟩ | ⟨-, hle, hlt, rfl⟩ | ⟨-, hle, hlt, -, rfl⟩ :=
      repairLogic_cases h
    all_goals
      obtain ⟨x, y, hx, hy, hxy⟩ := exists_le hle
      rw [hx, hy] at hlt
      refine ⟨x, y, ?_, ?_, sub_nonneg.mpr hxy, sub_lt_of_plausible hlt⟩
    · exact hx
    · exact hy
    · exact hx
    · exact hy
    · exact hx
    · exact hy
  · obtain ⟨-, -, -, -, rfl⟩ | ⟨-, -, -, rfl⟩ | ⟨-, -, -, -, rfl⟩ := repairLogic_cases h
    · exact Or.inr rfl
    · exact Or.inl rfl
    · exact Or.inr rfl
  · obtain ⟨-, -, -, -, rfl⟩ | ⟨-, -, -, rfl⟩ | ⟨-, -, -, -, rfl⟩ := repairLogic_cases h
    · exact Or.inl rfl
    · exact Or.inr rfl
    · exact Or.inr rfl
  · obtain ⟨-, -, -, -, rfl⟩ | ⟨-, -, -, rfl⟩ | ⟨-, -, -, -, rfl⟩ := repairLogic_cases h <;>
      exact ⟨rfl, rfl, rfl⟩
  · have hagain := repair_idempotent prev.ce.meterEnd next.cs.meterStart charge
    rwa [repair_of_some h] at hagain

def chargeOf (start stop : Option ℚ) : Charge (Option ℚ) where
  cs := { timestampMinutes := 0, meterStart := start, userId := 0 }
  ce := { chargeDuration := 0, meterEnd := stop }

/-- The start and the end of a charge between two complete ones are missing. -/
theorem repairLogic_sound_both :
    (∃ start stop, (chargeOf (some 10) (some 12)).cs.meterStart = some start ∧
      (chargeOf (some 10) (some 12)).ce.meterEnd = some stop ∧
      0 ≤ stop - start ∧ stop - start < maxRepair) :=
  (repairLogic_sound (chargeOf (some 8) (some 10)) (chargeOf none (some 0))
    (chargeOf (some 12) (some 14)) (chargeOf (some 10) (some 12)) (by decide +kernel)).1

end Esp32Firmware.ChargeTracker.Repair
