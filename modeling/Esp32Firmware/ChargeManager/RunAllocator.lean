import Esp32Firmware.ChargeManager.AllocationRun
import Esp32Firmware.P14aEnwg
import Esp32Firmware.Library.RoundingBound

/-!
# Running the allocator

What is allocated on the grid phases and what is left of their limits is a ledger. Every step
takes from each limit what its charger gets more and transfers at most what is left of the raw
limits, so the limits passed in are never exceeded.

`run_allocator` caps the limits by the one of the grid operator, applies the charge
modes and allocates. The limits are restored afterwards.

## Implementation notes

The double expression for the limit is evaluated on unpacked floats, and its
conversion to an int clamps. The state reported through the API is left out.
-/

namespace Esp32Firmware.ChargeManager

variable {n : Nat}

/-- The limits that `apply_cost` takes a cost from on the grid phases. -/
inductive LimitKind where
  | raw
  | min
  | spread
deriving DecidableEq

def CurrentLimits.ofKind (limits : CurrentLimits) : LimitKind → Cost
  | .raw => limits.raw
  | .min => limits.min
  | .spread => limits.spread

/-- What is left of each limit, and what a charger holds of it. -/
def accounts (env : StageEnv n) (sc : StageContext n) :
    Ledger (Fin n) (LimitKind × {p : GridPhase // p ≠ .pv}) where
  left k := (sc.limits.ofKind k.1).get k.2
  held i k := (sc.factors env i).get k.2 * sc.currentAllocation i

/-- What every step keeps: no raw limit is overdrawn. -/
structure Accounted (env : StageEnv n) (sc : StageContext n) : Prop where
  phases : ∀ i, sc.phaseAllocation i = 0 ∨ sc.phaseAllocation i = 1 ∨ sc.phaseAllocation i = 3
  active : ActiveOnly sc
  sound : (accounts env sc).Sound fun k => k.1 = .raw

theorem ofKind_applyCost (cost : Cost) (limits : CurrentLimits) (kind : LimitKind) :
    (applyCost cost limits).ofKind kind = limits.ofKind kind - cost := by
  cases kind <;> rfl

section

variable {env : StageEnv n} {t : Period} {i : Fin n} {sc sc' : StageContext n}

theorem accounts_of_writes {phases : UInt8} {current : Int} {limits : CurrentLimits}
    (hw : Writes i sc sc' phases current limits)
    (hlimits : ∀ kind p, p ≠ .pv → (limits.ofKind kind).get p = (sc.limits.ofKind kind).get p -
      ((getPhaseFactors phases (env.chargerState i).phaseRotation).get p * current -
        (sc.factors env i).get p * sc.currentAllocation i)) :
    accounts env sc' = (accounts env sc).transfer i fun k =>
      (getPhaseFactors phases (env.chargerState i).phaseRotation).get k.2 * current := by
  have hleft : (accounts env sc').left = ((accounts env sc).transfer i fun k =>
      (getPhaseFactors phases (env.chargerState i).phaseRotation).get k.2 * current).left := by
    funext k
    rw [accounts, hw.limits]
    exact hlimits k.1 k.2 k.2.2
  have hheld : (accounts env sc').held = ((accounts env sc).transfer i fun k =>
      (getPhaseFactors phases (env.chargerState i).phaseRotation).get k.2 * current).held := by
    funext j k
    rcases eq_or_ne j i with rfl | hji
    · simp [accounts, Ledger.transfer, StageContext.factors, hw.phases, hw.current]
    · simp [accounts, Ledger.transfer, StageContext.factors, hw.phases, hw.current, hji]
  cases haccounts : accounts env sc' with
  | mk left held =>
    rw [haccounts] at hleft hheld
    rw [Ledger.transfer] at hleft hheld ⊢
    exact congrArg₂ Ledger.mk hleft hheld

/-- A step takes from each limit what its charger gets more, and no more than is left of the
raw limits. -/
theorem AllocationStep.transfer (h : AllocationStep env t i sc sc') (hactive : ActiveOnly sc) :
    ∃ held, accounts env sc' = (accounts env sc).transfer i held ∧
      (Accounted env sc → (∀ k, 0 ≤ held k) ∧ ∀ k, k.1 = .raw →
        (accounts env sc).held i k < held k →
          held k - (accounts env sc).held i k ≤ (accounts env sc).left k) := by
  have hfactor := fun (phases : UInt8) p =>
    factor_nonneg phases (env.chargerState i).phaseRotation p
  cases h with
  | keep writes _ | exceeds _ writes _ _ =>
    refine ⟨_, accounts_of_writes writes fun _ p _ => ?_, fun hsc =>
      ⟨fun k => hsc.sound.nonneg i k, fun k _ hk => absurd hk (lt_irrefl _)⟩⟩
    rw [StageContext.factors]
    ring
  | connect _ writes _ _ idle | setPhases _ _ writes _ idle _ =>
    refine ⟨_, accounts_of_writes writes fun _ p _ => ?_, fun _ =>
      ⟨fun k => ?_, fun k _ hk => ?_⟩⟩
    · rw [idle]
      ring
    · rw [idle, mul_zero]
    · simp [accounts, idle] at hk
  | minimum _ writes _ idle active cost =>
    have hmin := minimumCurrent_pos env.cfg (sc.phaseAllocation i)
    refine ⟨_, accounts_of_writes writes fun _ p _ => ?_, fun _ =>
      ⟨fun k => Int.mul_nonneg (hfactor _ _) hmin.le, ?_⟩⟩
    · rw [ofKind_applyCost, Cost.get_sub, minimumCost_get, idle, mul_zero, sub_zero]
      rfl
    · rintro ⟨kind, p⟩ rfl hk
      have hfits := phasesExceeded_eq_false.mp cost p p.2
      rw [minimumCost_get] at hfits
      simp only [accounts, idle, mul_zero, sub_zero] at hk ⊢
      exact hfits hk
  | refund _ writes _ current =>
    refine ⟨_, accounts_of_writes writes fun _ p _ => ?_, fun hsc =>
      ⟨fun k => (mul_zero _).ge, fun k _ hk => ?_⟩⟩
    · rw [ofKind_applyCost, Cost.get_sub, Cost.get_neg, minimumCost_get, current, mul_zero, zero_sub]
    · have hheld := hsc.sound.nonneg i k
      rw [mul_zero] at hk
      exact absurd hk (not_lt.mpr hheld)
  | additional d writes _ active positive cost _ lower _ =>
    refine ⟨_, accounts_of_writes writes fun _ p _ => ?_, fun hsc => ⟨fun k => ?_, ?_⟩⟩
    · rw [ofKind_applyCost, Cost.get_sub, Cost.get_scale, StageContext.factors]
      ring
    · have hvalid := (hsc.phases i).resolve_left active
      have hmin := lower fun p hp hmay => hsc.sound.covered i (.raw, ⟨p, hp⟩) rfl
        (Int.mul_ne_zero (factor_of_mayUse hvalid hp hmay) positive.ne')
      exact Int.mul_nonneg (hfactor _ _) (by omega)
    · rintro ⟨kind, p⟩ rfl hk
      have hfits := phasesExceeded_eq_false.mp cost p p.2
      rw [Cost.get_scale] at hfits
      simp only [accounts, StageContext.factors] at hfits hk ⊢
      rw [← mul_sub, add_sub_cancel_left]
      rw [mul_add] at hk
      exact hfits (by omega)
  | wake phases cost haveActive _ writes _ idle valid enable affordable =>
    have hcurrent := hactive i idle
    obtain ⟨hmin, _⟩ := @enableCurrent_mem _ env.cfg (env.chargerState i) phases haveActive valid
    have hget : ∀ p, p ≠ .pv → cost.enable.get p =
        (getPhaseFactors phases (env.chargerState i).phaseRotation).get p * cost.enableCurrent := by
      intro p hp
      rw [enable]
      exact enable_get_phase valid hp
    have hpos : 0 ≤ cost.enableCurrent := by
      rw [enable]
      exact (minimumCurrent_pos env.cfg phases).le.trans hmin
    refine ⟨_, accounts_of_writes writes fun _ p hp => ?_, fun _ =>
      ⟨fun k => Int.mul_nonneg (hfactor _ _) hpos, ?_⟩⟩
    · rw [ofKind_applyCost, Cost.get_sub, hget p hp, hcurrent, mul_zero, sub_zero]
    · rintro ⟨kind, p⟩ rfl hk
      have hfits := phasesExceeded_eq_false.mp affordable p p.2
      rw [hget p p.2] at hfits
      simp only [accounts, hcurrent, mul_zero, sub_zero] at hk ⊢
      exact hfits hk

section

variable (h : AllocationStep env t i sc sc')
  (hconnected : ∀ i, (env.chargerState i).phases = 1 ∨ (env.chargerState i).phases = 3)
include h hconnected

theorem AllocationStep.phases_valid
    (hsc : ∀ i, sc.phaseAllocation i = 0 ∨ sc.phaseAllocation i = 1 ∨ sc.phaseAllocation i = 3)
    (j : Fin n) :
    sc'.phaseAllocation j = 0 ∨ sc'.phaseAllocation j = 1 ∨ sc'.phaseAllocation j = 3 := by
  rcases eq_or_ne j i with rfl | hji
  · cases h with
    | keep writes _ | exceeds _ writes _ _ | minimum _ writes _ _ _ _ | refund _ writes _ _
    | additional _ writes _ _ _ _ _ _ _ =>
      rw [writes.phases, Function.update_self]
      exact hsc j
    | connect _ writes _ _ _ =>
      rw [writes.phases, Function.update_self]
      exact Or.inr (hconnected j)
    | setPhases phases _ writes _ _ valid =>
      rw [writes.phases, Function.update_self]
      exact valid
    | wake phases _ _ _ writes _ _ valid _ _ =>
      rw [writes.phases, Function.update_self]
      exact Or.inr valid
  · rw [h.phases_of_ne hji]
    exact hsc j

/-- A step overdraws no raw limit. -/
theorem AllocationStep.accounted (hsc : Accounted env sc) : Accounted env sc' := by
  obtain ⟨held, haccounts, hsound⟩ := h.transfer hsc.active
  obtain ⟨hnonneg, hcheck⟩ := hsound hsc
  refine ⟨h.phases_valid hconnected hsc.phases, h.activeOnly hsc.active, ?_⟩
  rw [haccounts]
  exact hsc.sound.transfer hnonneg hcheck

end

theorem accounts_congr (hphases : sc'.phaseAllocation = sc.phaseAllocation)
    (hcurrent : sc'.currentAllocation = sc.currentAllocation) (hlimits : sc'.limits = sc.limits) :
    accounts env sc' = accounts env sc := by
  simp only [accounts, StageContext.factors, hphases, hcurrent, hlimits]

/-- What every step keeps holds after all stages. -/
theorem runStages_invariant {P : StageContext n → Prop}
    (hcontext : ∀ a b, b.phaseAllocation = a.phaseAllocation →
      b.currentAllocation = a.currentAllocation → b.limits = a.limits → P a → P b)
    (hstep : ∀ t a b i, AllocationStep env t i a b → P a → P b) (hsc : Fresh sc) (h : P sc) :
    P (runStages env sc) := by
  have hrun : ∀ t g a b, Steps env t g a b → P a → P b := fun t _ _ _ hsteps =>
    hsteps.invariant hcontext fun a b i _ => hstep t a b i
  obtain ⟨_, hbefore⟩ := @beforeWakeUp_run _ env _ hsc
  obtain ⟨h9, h8, hpost, _⟩ := @runStages_run _ env _ hsc
  have h1 := hrun _ _ _ _ (@afterStage1_prepared _ env _ hsc).steps h
  have h3 := hrun _ _ _ _ (@afterStage3_run _ env _ hsc).steps h1
  have h9' := hrun _ _ _ _ h9.steps (hrun _ _ _ _ hbefore h3)
  exact hrun .middle _ _ _ hpost.steps (hrun _ _ _ _ h8.steps h9')

/-- All stages together change nothing of the limits and the currents together. -/
theorem runStages_total (hsc : Fresh sc) (k : LimitKind × {p : GridPhase // p ≠ .pv}) :
    (accounts env (runStages env sc)).total k = (accounts env sc).total k := by
  have hrun : ActiveOnly (runStages env sc) ∧
      (accounts env (runStages env sc)).total k = (accounts env sc).total k := by
    refine runStages_invariant (P := fun c => ActiveOnly c ∧
      (accounts env c).total k = (accounts env sc).total k) ?_ ?_ hsc
      ⟨fun i _ => hsc.current i, rfl⟩
    · intro a b hphases hcurrent hlimits ha
      refine ⟨fun i hi => ?_, (accounts_congr hphases hcurrent hlimits) ▸ ha.2⟩
      rw [hcurrent]
      exact ha.1 i (by rwa [hphases] at hi)
    · intro t a b i step ha
      obtain ⟨held, haccounts, -⟩ := step.transfer ha.1
      refine ⟨step.activeOnly ha.1, ?_⟩
      rw [haccounts, Ledger.total_transfer]
      exact ha.2
  exact hrun.2

/-- The stages overdraw no raw limit. -/
theorem runStages_accounted (hsc : Fresh sc)
    (hconnected : ∀ i, (env.chargerState i).phases = 1 ∨ (env.chargerState i).phases = 3)
    (hphases : ∀ i, sc.phaseAllocation i = 0 ∨ sc.phaseAllocation i = 1 ∨
      sc.phaseAllocation i = 3) : Accounted env (runStages env sc) := by
  refine runStages_invariant (fun a b hphases hcurrent hlimits ha => ?_)
    (fun _ _ _ _ step => step.accounted hconnected) hsc
    ⟨hphases, fun i _ => hsc.current i, ⟨fun i k => by simp [accounts, hsc.current], fun i k _ hk => by
      simp [accounts, hsc.current] at hk⟩⟩
  refine ⟨by rw [hphases]; exact ha.phases, fun i hi => ?_, ?_⟩
  · rw [hcurrent]
    exact ha.active i (by rwa [hphases] at hi)
  · rw [accounts_congr hphases hcurrent hlimits]
    exact ha.sound

end

variable (input : AllocatorInput n)

/-- Before the allocation no charger holds anything. -/
theorem total_initialContext (kind : LimitKind) {p : GridPhase} (hp : p ≠ .pv) :
    (accounts input.env input.initialContext).total (kind, ⟨p, hp⟩) =
      (input.limits.ofKind kind).get p := by
  have hheld : ∀ i, (accounts input.env input.initialContext).held i (kind, ⟨p, hp⟩) = 0 :=
    fun i => mul_zero _
  simp only [Ledger.total, hheld, Finset.sum_const_zero, add_zero]
  rfl

/-- Whether a charger is counted on a grid phase: on all of them with three phases or an
unknown rotation, else on the one of its P1. -/
def ChargerAllocationState.countsOn (alloc : ChargerAllocationState) (rot : PhaseRotation)
    (p : GridPhase) : Bool :=
  alloc.allocatedPhases == 3 ||
    (alloc.allocatedPhases == 1 && (rot == .unknown || p == getPhase rot .p1))

/-- What an output hands out on a grid phase to all chargers together. -/
def AllocatorOutput.allocatedOn (output : AllocatorOutput n) (rotation : Fin n → PhaseRotation)
    (p : GridPhase) : Int :=
  ∑ i, if (output.chargerAllocationState i).countsOn (rotation i) p then
    ((output.chargerAllocationState i).allocatedCurrent.toNat : Int)
  else 0

/-- What is allocated on a grid phase to all chargers together. -/
def allocatedOn (p : GridPhase) : Int :=
  (allocateCurrent input).allocatedOn (fun i => (input.chargerState i).phaseRotation) p

theorem countsOn_factor {alloc : ChargerAllocationState} {phases : UInt8}
    (hphases : phases = 0 ∨ phases = 1 ∨ phases = 3) (halloc : alloc.allocatedPhases = phases.toInt8)
    (rot : PhaseRotation) {p : GridPhase} (hp : p ≠ .pv) :
    (getPhaseFactors phases rot).get p = if alloc.countsOn rot p then 1 else 0 := by
  unfold ChargerAllocationState.countsOn
  rw [halloc]
  rcases hphases with rfl | rfl | rfl <;> cases rot <;> cases p <;>
    first | decide | exact absurd rfl hp

section

variable (hphases : ∀ i, (input.chargerState i).phases = 1 ∨ (input.chargerState i).phases = 3)
  (halloc : ∀ i, (input.chargerAllocationState i).allocatedPhases = 0 ∨
    (input.chargerAllocationState i).allocatedPhases = 1 ∨
    (input.chargerAllocationState i).allocatedPhases = 3)
include hphases halloc

/-- An allocation overdraws no raw limit. -/
theorem allocateCurrent_accounted :
    Accounted input.env (runStages input.env input.initialContext) := by
  apply runStages_accounted (initialContext_fresh input)
  · intro i
    obtain ⟨off, hoff⟩ := env_chargerState input i
    rw [hoff]
    exact hphases i
  · intro i
    rcases halloc i with h | h | h
    · exact Or.inl (congrArg Int8.toUInt8 h)
    · exact Or.inr (Or.inl (congrArg Int8.toUInt8 h))
    · exact Or.inr (Or.inr (congrArg Int8.toUInt8 h))

/-- What is handed out in 16 bits is at most what the chargers hold. -/
theorem allocatedOn_le_total {p : GridPhase} (hp : p ≠ .pv) : allocatedOn input p ≤
    max 0 ((accounts input.env input.initialContext).total (.raw, ⟨p, hp⟩)) := by
  have hacc := allocateCurrent_accounted input hphases halloc
  have hsum := hacc.sound.sum_held_le (k := (.raw, ⟨p, hp⟩)) rfl
  rw [runStages_total (initialContext_fresh input)] at hsum
  rw [allocatedOn, AllocatorOutput.allocatedOn]
  refine le_trans (Finset.sum_le_sum fun i _ => ?_) hsum
  have hcounts := @countsOn_factor ((allocateCurrent input).chargerAllocationState i) _
    (hacc.phases i) rfl (input.chargerState i).phaseRotation p hp
  have hnonneg := hacc.sound.nonneg i (.raw, ⟨p, hp⟩)
  obtain ⟨off, hoff⟩ := env_chargerState input i
  simp only [accounts, StageContext.factors, hoff] at hnonneg ⊢
  split_ifs with hon
  · rw [hcounts, if_pos hon, one_mul] at hnonneg ⊢
    exact toNat_ofInt_le hnonneg
  · exact hnonneg

/-- The limits of the grid phases are never exceeded. -/
theorem allocatedOn_le {p : GridPhase} (hp : p ≠ .pv) :
    allocatedOn input p ≤ max 0 (input.limits.raw.get p) := by
  have hle := allocatedOn_le_total input hphases halloc hp
  rwa [total_initialContext] at hle

end

theorem twoChargers_allocatedOn_le :
    allocatedOn (TwoChargers.input 6000 (by decide) 32000) .l1 ≤ max 0 200000 :=
  allocatedOn_le (TwoChargers.input 6000 (by decide) 32000) (by decide) (by decide) (by decide)

open Float.Model RoundingBound

/-- `Eco::ChargeDecision`. -/
inductive ChargeDecision where
  | normal | fast
  deriving DecidableEq, Repr

/-- The loop over the bits of a charge mode, from the highest one on. -/
def applyModes (decision : ChargeDecision) (guaranteedPvCurrent : Int) (mode : UInt8) :
    List ChargeMode → ChargerState → ChargerState
  | [], state => state
  | m :: rest, state =>
    if mode.toNat &&& m.bit = 0 then applyModes decision guaranteedPvCurrent mode rest state
    else
      match m with
      | .fast => { state with off := false, observePvLimit := false }
      | .eco =>
        match decision with
        | .fast => { state with off := false, observePvLimit := false, ecoFast := true }
        | .normal => applyModes decision guaranteedPvCurrent mode rest state
      | .min =>
        applyModes decision guaranteedPvCurrent mode rest
          { state with
            off := false
            guaranteedPvCurrent := guaranteedPvCurrent
            observePvLimit := true }
      | .pv => { state with off := false, observePvLimit := true }

/-- Every charger is off unless its mode says otherwise. -/
def updateChargerStateFromMode (decision : ChargeDecision) (guaranteedPvCurrent : Int)
    (state : ChargerState) : ChargerState :=
  applyModes decision guaranteedPvCurrent state.chargeMode [.fast, .eco, .min, .pv]
    { state with off := true, observePvLimit := false, ecoFast := false, guaranteedPvCurrent := 0 }

/-- Modes do not change how a charger is connected. -/
theorem applyModes_phases (decision : ChargeDecision) (guaranteedPvCurrent : Int) (mode : UInt8)
    (modes : List ChargeMode) (state : ChargerState) :
    (applyModes decision guaranteedPvCurrent mode modes state).phases = state.phases := by
  induction modes generalizing state with
  | nil => rfl
  | cons m rest ih =>
    simp only [applyModes]
    split
    · exact ih state
    · cases m with
      | fast | pv => rfl
      | eco =>
        cases decision with
        | fast => rfl
        | normal => exact ih state
      | min => exact ih _

theorem updateChargerStateFromMode_phases (decision : ChargeDecision) (guaranteedPvCurrent : Int)
    (state : ChargerState) :
    (updateChargerStateFromMode decision guaranteedPvCurrent state).phases = state.phases :=
  applyModes_phases _ _ _ _ _

/-- `(int)(((double)p14_limit_w * 1000.0) / 3 / 230)`. -/
def p14LimitMA (p14LimitW : UInt32) : Int :=
  let double := UnpackedFloat.ofInt .binary64
  let mA := UnpackedFloat.mul .binary64 (double p14LimitW.toNat) (double 1000)
  (UnpackedFloat.div .binary64 (UnpackedFloat.div .binary64 mA (double 3)) (double 230)).toInt32.toInt

/-- L1 to L3 are capped, the PV excess is kept. -/
def Cost.capPhases (c : Cost) (mA : Int) : Cost :=
  { c with l1 := min c.l1 mA, l2 := min c.l2 mA, l3 := min c.l3 mA }

def CurrentLimits.cap (limits : CurrentLimits) (mA : Int) : CurrentLimits :=
  { limits with
    raw := limits.raw.capPhases mA
    min := limits.min.capPhases mA
    spread := limits.spread.capPhases mA }

/-- What `run_allocator` reads. The allocator's input holds the limits and charger states
as they are before the run. -/
structure RunAllocatorInput (n : Nat) extends AllocatorInput n where
  p14aEnwg : P14aEnwg
  chargeDecision : Fin n → ChargeDecision
  guaranteedPvCurrent : Int

namespace RunAllocatorInput

variable (input : RunAllocatorInput n)

def cappedLimits : CurrentLimits :=
  let p14LimitW := input.p14aEnwg.getManagedChargersLimit
  if p14LimitW ≠ 0 then input.limits.cap (p14LimitMA p14LimitW) else input.limits

/-- The arguments of `allocate_current`. -/
def allocatorInput : AllocatorInput n :=
  { input.toAllocatorInput with
    limits := input.cappedLimits
    chargerState := fun i =>
      updateChargerStateFromMode (input.chargeDecision i) input.guaranteedPvCurrent
        (input.chargerState i) }

end RunAllocatorInput

/-- `run_allocator`: the allocation and the limits after it. -/
def runAllocator (input : RunAllocatorInput n) : AllocatorOutput n × CurrentLimits :=
  (allocateCurrent input.allocatorInput, input.limits)

/-- The limit of a phase, rounded down. -/
theorem p14LimitMA_le (p14LimitW : UInt32) :
    0 ≤ p14LimitMA p14LimitW ∧ 690 * p14LimitMA p14LimitW ≤ 1000 * p14LimitW.toNat := by
  have hw : (p14LimitW.toNat : ℚ) < 2 ^ (32 : ℤ) := by exact_mod_cast p14LimitW.toNat_lt
  have h1000 : UnpackedFloat.ofInt .binary64 1000 =
      .finite .positive (1000 * 2 ^ 43) (-43) (by norm_num) := by rfl
  have h3 : UnpackedFloat.ofInt .binary64 3 =
      .finite .positive (3 * 2 ^ 51) (-51) (by norm_num) := by rfl
  have h230 : UnpackedFloat.ofInt .binary64 230 =
      .finite .positive (230 * 2 ^ 45) (-45) (by norm_num) := by rfl
  have hkilo : AtMost (UnpackedFloat.ofInt .binary64 1000) 1000 := by
    rw [h1000, AtMost]
    norm_num
  have hmA := (ofInt_atMost p14LimitW.toNat hw (by norm_num)).mul hkilo
    (b := 43) (by norm_num; linarith) (by norm_num)
  have hthird := hmA.div (n := 3 * 2 ^ 51) (f := -51) (b := 42) (by norm_num)
    (by norm_num; linarith) (by norm_num)
  have hphase := hthird.div (n := 230 * 2 ^ 45) (f := -45) (b := 34) (by norm_num)
    (by norm_num; linarith) (by norm_num)
  rw [← h3, ← h230] at hphase
  obtain ⟨hnonneg, hle⟩ := hphase.toInt32
  refine ⟨hnonneg, ?_⟩
  -- both sides are multiples of ten, so an error below one does not show
  have hclose : (690 * p14LimitMA p14LimitW : ℚ) < 1000 * p14LimitW.toNat + 1 := by
    rw [p14LimitMA]
    linarith
  have hint : 690 * p14LimitMA p14LimitW < 1000 * p14LimitW.toNat + 1 := by exact_mod_cast hclose
  omega

variable (input : RunAllocatorInput n)

/-- The power of all currents handed out, in mW: the grid phases carry 230 V each. -/
def allocatedPower : Int :=
  let output := (runAllocator input).1
  let rotation := fun i => (input.allocatorInput.chargerState i).phaseRotation
  230 * (output.allocatedOn rotation .l1 + output.allocatedOn rotation .l2 +
    output.allocatedOn rotation .l3)

theorem allocatedPower_eq :
    allocatedPower input = 230 * (allocatedOn input.allocatorInput .l1 +
      allocatedOn input.allocatorInput .l2 + allocatedOn input.allocatorInput .l3) := rfl

/-- Chargers are connected with one or three phases and hold none, one or three. -/
def RunAllocatorInput.ValidPhases : Prop :=
  (∀ i, (input.chargerState i).phases = 1 ∨ (input.chargerState i).phases = 3) ∧
    ∀ i, (input.chargerAllocationState i).allocatedPhases = 0 ∨
      (input.chargerAllocationState i).allocatedPhases = 1 ∨
      (input.chargerAllocationState i).allocatedPhases = 3

/-- A limit above zero bounds the power of the managed chargers. -/
theorem allocatedPower_le (hlimits : input.p14aEnwg.limitsManagedChargers)
    (hw : input.p14aEnwg.state.limitW ≠ 0) (hvalid : input.ValidPhases) :
    allocatedPower input ≤ 1000 * input.p14aEnwg.state.limitW.toNat := by
  have hget : input.p14aEnwg.getManagedChargersLimit = input.p14aEnwg.state.limitW := by
    rw [input.p14aEnwg.getManagedChargersLimit_eq, if_pos hlimits]
  obtain ⟨hnonneg, hle⟩ := p14LimitMA_le input.p14aEnwg.state.limitW
  have hphase : ∀ p, p ≠ .pv →
      allocatedOn input.allocatorInput p ≤ p14LimitMA input.p14aEnwg.state.limitW := by
    intro p hp
    have hraw : input.allocatorInput.limits.raw.get p ≤ p14LimitMA input.p14aEnwg.state.limitW := by
      have hcapped : input.allocatorInput.limits =
          input.limits.cap (p14LimitMA input.p14aEnwg.state.limitW) := by
        rw [RunAllocatorInput.allocatorInput, RunAllocatorInput.cappedLimits, hget]
        exact if_pos hw
      rw [hcapped]
      cases p with
      | pv => exact absurd rfl hp
      | l1 | l2 | l3 => exact min_le_right _ _
    have hconnected : ∀ i, (input.allocatorInput.chargerState i).phases = 1 ∨
        (input.allocatorInput.chargerState i).phases = 3 := by
      intro i
      rw [RunAllocatorInput.allocatorInput, updateChargerStateFromMode_phases]
      exact hvalid.1 i
    have hle := allocatedOn_le_total input.allocatorInput hconnected hvalid.2 hp
    rw [total_initialContext] at hle
    exact hle.trans (max_le hnonneg hraw)
  have h1 := hphase .l1 (by decide)
  have h2 := hphase .l2 (by decide)
  have h3 := hphase .l3 (by decide)
  rw [allocatedPower_eq]
  omega

/-- A control that limits the managed chargers. -/
def TwoChargers.activeControl (limitW : UInt32) : P14aEnwg where
  config := ⟨true, true, false⟩
  state := ⟨true, limitW⟩

/-- The two chargers of the sample installation under a control by the grid operator. -/
def TwoChargers.controlled (p14aEnwg : P14aEnwg) : RunAllocatorInput 2 where
  toAllocatorInput := TwoChargers.input 6000 TwoChargers.smallest_minimum 32000
  p14aEnwg := p14aEnwg
  chargeDecision _ := .normal
  guaranteedPvCurrent := 32000

theorem TwoChargers.controlled_validPhases (p14aEnwg : P14aEnwg) :
    (TwoChargers.controlled p14aEnwg).ValidPhases := by
  constructor
  · intro i
    fin_cases i
    · exact Or.inl rfl
    · exact Or.inl rfl
  · intro i
    fin_cases i
    · exact Or.inr (Or.inl rfl)
    · exact Or.inl rfl

/-- The sample installation as the allocator sees it without a control. -/
def TwoChargers.uncapped : AllocatorInput 2 :=
  { TwoChargers.input 6000 TwoChargers.smallest_minimum 32000 with
    chargerState := fun i => updateChargerStateFromMode .normal 32000
      ((TwoChargers.input 6000 TwoChargers.smallest_minimum 32000).chargerState i) }

/-- A limit of zero is no limit: the sample installation goes on charging. -/
theorem TwoChargers.controlled_power (p14aEnwg : P14aEnwg)
    (hzero : p14aEnwg.getManagedChargersLimit = 0) :
    0 < allocatedPower (TwoChargers.controlled p14aEnwg) := by
  have hinput : (TwoChargers.controlled p14aEnwg).allocatorInput = TwoChargers.uncapped := by
    have hlimits : (TwoChargers.controlled p14aEnwg).cappedLimits = TwoChargers.limits := by
      have hget : (TwoChargers.controlled p14aEnwg).p14aEnwg.getManagedChargersLimit = 0 := hzero
      rw [RunAllocatorInput.cappedLimits, hget]
      rfl
    rw [RunAllocatorInput.allocatorInput, hlimits]
    rfl
  rw [allocatedPower_eq, hinput]
  decide

/-- The control limits the power of the managed chargers for every input of the
allocator, if and only if its limit is not zero. -/
theorem p14aEnwg_enforced_iff (p14aEnwg : P14aEnwg) (hlimits : p14aEnwg.limitsManagedChargers) :
    (∀ (n : Nat) (input : RunAllocatorInput n), input.p14aEnwg = p14aEnwg → input.ValidPhases →
        allocatedPower input ≤ 1000 * p14aEnwg.state.limitW.toNat) ↔
      p14aEnwg.state.limitW ≠ 0 := by
  constructor
  · intro h hzero
    have hpower := TwoChargers.controlled_power p14aEnwg (by
      rw [p14aEnwg.getManagedChargersLimit_eq, hzero, ite_self])
    have hle := h 2 (TwoChargers.controlled p14aEnwg) rfl
      (TwoChargers.controlled_validPhases p14aEnwg)
    rw [hzero] at hle
    exact absurd hle (not_le.mpr hpower)
  · rintro hw n input rfl hvalid
    exact allocatedPower_le input hlimits hw hvalid

theorem p14aEnwg_enforced_iff_4200 :
    (∀ (n : Nat) (input : RunAllocatorInput n),
        input.p14aEnwg = TwoChargers.activeControl 4200 → input.ValidPhases →
        allocatedPower input ≤ 1000 * (TwoChargers.activeControl 4200).state.limitW.toNat) ↔
      (TwoChargers.activeControl 4200).state.limitW ≠ 0 :=
  p14aEnwg_enforced_iff (TwoChargers.activeControl 4200) rfl

/-- An active control with a limit of 0 W limits nothing. -/
theorem p14aEnwg_zero_not_enforced :
    ¬ allocatedPower (TwoChargers.controlled (TwoChargers.activeControl 0)) ≤
      1000 * (TwoChargers.activeControl 0).state.limitW.toNat := by
  have hpower := TwoChargers.controlled_power (TwoChargers.activeControl 0) (by decide)
  exact not_le.mpr hpower

end Esp32Firmware.ChargeManager
