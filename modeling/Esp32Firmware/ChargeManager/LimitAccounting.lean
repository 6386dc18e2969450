import Esp32Firmware.ChargeManager.CurrentBound
import Esp32Firmware.ChargeManager.RunAllocator

/-!
# The accounting of the limits

The limits and the currents of the chargers together stay what they were on every grid phase.
Only what the allocation loses in 16 bits is missing in the end.
-/

namespace Esp32Firmware.ChargeManager

variable {n : Nat} (input : AllocatorInput n)

/-- What the chargers are allocated together costs on a grid phase. -/
def allocatedCost (p : GridPhase) : Int :=
  ∑ i, (getCost ((allocateCurrent input).chargerAllocationState i).allocatedCurrent.toNat
    ((allocateCurrent input).chargerAllocationState i).allocatedPhases.toUInt8
    (input.chargerState i).phaseRotation 0 0).get p

/-- What 16 bits cut off the current of a charger. -/
def lostCurrent (i : Fin n) : Int :=
  (runStages input.env input.initialContext).currentAllocation i -
    ((allocateCurrent input).chargerAllocationState i).allocatedCurrent.toNat

/-- 16 bits cut nothing off where nothing is woken up with a larger current. -/
theorem lostCurrent_eq_zero (hwakeUps : ∀ i phases, WakesUp input i phases →
    wakeUpCurrent input i phases < 65536) (i : Fin n) : lostCurrent input i = 0 := by
  have hallowed := allowedByUser_lt (input.chargerState i)
  rw [lostCurrent, allocatedCurrent_eq]
  rcases finished_cases input i with ⟨-, -, -, hnonneg, hhigh⟩ |
    ⟨phases, hvalid, -, hwakes, hlow, hhigh⟩
  · have hbound := (minimumCurrent_mem input.cfg
      ((runStages input.env input.initialContext).phaseAllocation i)).2
    rw [currentBound] at hhigh
    have hfits : (runStages input.env input.initialContext).currentAllocation i < 65536 := by omega
    rw [Int.emod_eq_of_lt hnonneg hfits, Int.sub_self]
  · have hwakeUp := hwakeUps i phases ((hwakes phases).mpr rfl)
    have hmin := minimumCurrent_mem input.cfg phases
    obtain ⟨henable, -⟩ := @enableCurrent_mem _ input.cfg (input.env.chargerState i) phases
      (haveActiveChargers input.env input.initialContext) hvalid
    unfold wakeUpCurrent at *
    omega

theorem factors_output (i : Fin n) :
    getPhaseFactors ((allocateCurrent input).chargerAllocationState i).allocatedPhases.toUInt8
        (input.chargerState i).phaseRotation =
      (runStages input.env input.initialContext).factors input.env i := by
  obtain ⟨off, hoff⟩ := env_chargerState input i
  rw [allocatedPhases_eq, StageContext.factors, hoff]

/-- What is left of a limit, with what is lost of the currents. -/
theorem limits_output (kind : LimitKind) {p : GridPhase} (hp : p ≠ .pv) :
    ((allocateCurrent input).limits.ofKind kind).get p =
      (input.limits.ofKind kind).get p - allocatedCost input p -
        ∑ i, ((runStages input.env input.initialContext).factors input.env i).get p *
          lostCurrent input i := by
  have htotal := @runStages_total _ input.env _ (initialContext_fresh input) (kind, ⟨p, hp⟩)
  have hcost : ∀ i, (getCost ((allocateCurrent input).chargerAllocationState i).allocatedCurrent.toNat
      ((allocateCurrent input).chargerAllocationState i).allocatedPhases.toUInt8
      (input.chargerState i).phaseRotation 0 0).get p +
        ((runStages input.env input.initialContext).factors input.env i).get p *
          lostCurrent input i =
      (accounts input.env (runStages input.env input.initialContext)).held i (kind, ⟨p, hp⟩) := by
    intro i
    have hheld : (accounts input.env (runStages input.env input.initialContext)).held i
        (kind, ⟨p, hp⟩) = ((runStages input.env input.initialContext).factors input.env i).get p *
          (runStages input.env input.initialContext).currentAllocation i := rfl
    rw [getCost, Cost.get_sub, Cost.get_scale, Cost.get_scale, mul_zero, sub_zero, factors_output,
      hheld, lostCurrent]
    ring
  have hlimits : (allocateCurrent input).limits =
      (runStages input.env input.initialContext).limits := by simp only [allocateCurrent]
  have hleft : (accounts input.env (runStages input.env input.initialContext)).left
      (kind, ⟨p, hp⟩) = ((runStages input.env input.initialContext).limits.ofKind kind).get p := by
    simp only [accounts]
  rw [total_initialContext, Ledger.total, hleft, ← hlimits] at htotal
  rw [← htotal, allocatedCost, sub_sub, ← Finset.sum_add_distrib,
    Finset.sum_congr rfl fun i _ => hcost i]
  ring

/-- On every grid phase each limit is what it was minus the cost of the allocation if stage 9
wakes up no charger with an enable current of more than 16 bits. -/
theorem accounting_of_wakeUps (hwakeUps : ∀ i phases, WakesUp input i phases →
    wakeUpCurrent input i phases < 65536) (kind : LimitKind) {p : GridPhase} (hp : p ≠ .pv) :
    ((allocateCurrent input).limits.ofKind kind).get p =
      (input.limits.ofKind kind).get p - allocatedCost input p := by
  rw [limits_output input kind hp]
  simp only [lostCurrent_eq_zero input hwakeUps, mul_zero, Finset.sum_const_zero, sub_zero]

end Esp32Firmware.ChargeManager
