import Esp32Firmware.Library.Ledger
import Esp32Firmware.ChargeManager.AllocateCurrent

/-!
# What a stage can do to a charger

Every iteration of a stage is one step of a single charger. The invariants of the
allocator are derived from the kinds of steps and not from the stages.
-/

namespace Esp32Firmware.ChargeManager

variable {n : Nat}

/-- Phases, current and limits after a step of charger `i`. The other chargers keep their
decisions. -/
structure Writes (i : Fin n) (sc sc' : StageContext n) (phases : UInt8) (current : Int)
    (limits : CurrentLimits) : Prop where
  idxArray : sc'.idxArray = sc.idxArray
  count : sc'.chargerCount = sc.chargerCount
  phases : sc'.phaseAllocation = Function.update sc.phaseAllocation i phases
  current : sc'.currentAllocation = Function.update sc.currentAllocation i current
  limits : sc'.limits = limits
  decisions : ∀ j, j ≠ i → sc'.chargerDecisions j = sc.chargerDecisions j

/-- The grid phases a charger uses with the phases it is allocated. -/
def StageContext.factors (env : StageEnv n) (sc : StageContext n) (i : Fin n) : Cost :=
  getPhaseFactors (sc.phaseAllocation i) (env.chargerState i).phaseRotation

/-- The minimum cost of a charger with the phases it is allocated. -/
def StageContext.minimumCost (env : StageEnv n) (sc : StageContext n) (i : Fin n) : Cost :=
  getMinimumCost (sc.phaseAllocation i) (env.chargerState i).phaseRotation env.cfg

theorem minimumCost_get {env : StageEnv n} {sc : StageContext n} (i : Fin n) (p : GridPhase) :
    (sc.minimumCost env i).get p =
      (sc.factors env i).get p * minimumCurrent env.cfg (sc.phaseAllocation i) :=
  Cost.get_scale _ _ _

/-- What both the user and the charger allow. -/
def ChargerState.allowedByUser (state : ChargerState) : Int :=
  min (state.userCurrent.toNat : Int) (state.supportedCurrent.toNat : Int)

/-- Whether a charger may use a grid phase: with one phase and a known rotation only
the one of its P1. -/
def MayUse (phases : UInt8) (rot : PhaseRotation) (p : GridPhase) : Prop :=
  phases ≠ 0 ∧ (phases = 1 → rot ≠ .unknown → p = getPhase rot .p1)

/-- With one or three phases a charger uses every grid phase it may use. -/
theorem factor_of_mayUse {phases : UInt8} {rot : PhaseRotation} {p : GridPhase}
    (hphases : phases = 1 ∨ phases = 3) (hp : p ≠ .pv) (h : MayUse phases rot p) :
    (getPhaseFactors phases rot).get p ≠ 0 := by
  rcases hphases with rfl | rfl
  · by_cases hrot : rot = .unknown
    · subst hrot
      cases p <;> decide
    · rw [h.2 rfl hrot, factor_p1 (by decide)]
      decide
  · rw [getPhaseFactors_three hp]
    decide

/-- A charger may use only grid phases with something left. -/
def StageContext.Covered (env : StageEnv n) (sc : StageContext n) (i : Fin n) : Prop :=
  ∀ p, p ≠ .pv → MayUse (sc.phaseAllocation i) (env.chargerState i).phaseRotation p →
    0 ≤ sc.limits.raw.get p

/-- Chargers on one or three phases that no vehicle was just plugged into. -/
structure ChargerState.Settled (state : ChargerState) : Prop where
  phases : state.phases = 1 ∨ state.phases = 3
  justPluggedInTimestamp : state.justPluggedInTimestamp = 0

/-- The phase switch hysteresis of a charger is over. -/
def StageEnv.mayToggle (env : StageEnv n) (i : Fin n) : Bool :=
  env.elapsed ((env.chargerState i).lastPhaseSwitch + env.cfg.globalHysteresis)

/-- No phases, those the charger reports, or others if it may switch. -/
def Admissible (env : StageEnv n) (i : Fin n) (phases : UInt8) : Prop :=
  phases = 0 ∨ phases = (env.chargerState i).phases ∨
    (env.chargerState i).phaseSwitchSupported = true ∧ env.mayToggle i = true

/-- Stage 1, the stages of the charge modes, those of them that only share out what is
left, and the stages from the wake-up on. -/
inductive Period where
  | first
  | middle
  | share
  | last (haveActiveChargers : Bool)

/-- The periods in which phases are allocated. -/
def Period.Early : Period → Prop
  | first | middle => True
  | share | last _ => False

/-- The kinds of steps, and in which period they can happen. -/
inductive AllocationStep (env : StageEnv n) (t : Period) (i : Fin n) (sc sc' : StageContext n) :
    Prop where
  | keep (writes : Writes i sc sc' (sc.phaseAllocation i) (sc.currentAllocation i) sc.limits)
      (exceeded : sc'.exceeded = sc.exceeded)
  | exceeds (middle : t = .middle)
      (writes : Writes i sc sc' (sc.phaseAllocation i) (sc.currentAllocation i) sc.limits)
      (exceeded : sc'.exceeded = sc.exceeded ++ [6])
      (cost : phasesExceeded (sc.minimumCost env i) sc.limits.raw = true)
  | connect (first : t = .first)
      (writes : Writes i sc sc' (env.chargerState i).phases (sc.currentAllocation i) sc.limits)
      (exceeded : sc'.exceeded = sc.exceeded)
      (active : sc.phaseAllocation i ≠ 0)
      (idle : sc.currentAllocation i = 0)
  | setPhases (phases : UInt8) (early : t.Early)
      (writes : Writes i sc sc' phases (sc.currentAllocation i) sc.limits)
      (exceeded : sc'.exceeded = sc.exceeded)
      (idle : sc.currentAllocation i = 0)
      (valid : phases = 0 ∨ phases = 1 ∨ phases = 3)
      (admissible : (env.chargerState i).Settled → Admissible env i phases)
  | minimum (middle : t = .middle)
      (writes : Writes i sc sc' (sc.phaseAllocation i)
        (minimumCurrent env.cfg (sc.phaseAllocation i))
        (applyCost (sc.minimumCost env i) sc.limits))
      (exceeded : sc'.exceeded = sc.exceeded)
      (idle : sc.currentAllocation i = 0)
      (active : sc.phaseAllocation i ≠ 0)
      (cost : phasesExceeded (sc.minimumCost env i) sc.limits.raw = false)
  | refund (middle : t = .middle)
      (writes : Writes i sc sc' (sc.phaseAllocation i) 0
        (applyCost (-sc.minimumCost env i) sc.limits))
      (exceeded : sc'.exceeded = sc.exceeded)
      (current : sc.currentAllocation i = minimumCurrent env.cfg (sc.phaseAllocation i))
  | additional (d : Int)
      (writes : Writes i sc sc' (sc.phaseAllocation i) (sc.currentAllocation i + d)
        (applyCost (Cost.scale d (sc.factors env i)) sc.limits))
      (exceeded : sc'.exceeded = sc.exceeded)
      (active : sc.phaseAllocation i ≠ 0)
      (positive : 0 < sc.currentAllocation i)
      (cost : phasesExceeded (Cost.scale d (sc.factors env i)) sc.limits.raw = false)
      (upper : sc.currentAllocation i + d ≤
        max (sc.currentAllocation i) (env.chargerState i).allowedByUser)
      (lower : sc.Covered env i → min 0 (32000 - sc.currentAllocation i) ≤ d)
      (grows : sc.Covered env i → ∀ have_, t = .last have_ → 0 ≤ d)
  | wake (phases : UInt8) (cost : EnableCost) (haveActiveChargers : Bool)
      (last : t = .last haveActiveChargers)
      (writes : Writes i sc sc' phases cost.enableCurrent (applyCost cost.enable sc.limits))
      (exceeded : sc'.exceeded = sc.exceeded)
      (idle : sc.phaseAllocation i = 0)
      (valid : phases = 1 ∨ phases = 3)
      (enable : cost = getEnableCost (env.chargerState i) (phases == 3) haveActiveChargers env.cfg)
      (affordable : phasesExceeded cost.enable sc.limits.raw = false)
      (admissible : (env.chargerState i).Settled → Admissible env i phases)

namespace AllocationStep

variable {env : StageEnv n} {t : Period} {i : Fin n} {sc sc' : StageContext n}

section

variable (h : AllocationStep env t i sc sc')
include h

/-- A step writes only its own charger. -/
theorem exists_writes : ∃ phases current limits, Writes i sc sc' phases current limits := by
  cases h with
  | keep writes | exceeds _ writes | connect _ writes | setPhases _ _ writes | minimum _ writes
  | refund _ writes | additional _ writes | wake _ _ _ _ writes => exact ⟨_, _, _, writes⟩

theorem phases_of_ne {j : Fin n} (hj : j ≠ i) : sc'.phaseAllocation j = sc.phaseAllocation j := by
  obtain ⟨_, _, _, hw⟩ := h.exists_writes
  rw [hw.phases, Function.update_of_ne hj]

theorem current_of_ne {j : Fin n} (hj : j ≠ i) :
    sc'.currentAllocation j = sc.currentAllocation j := by
  obtain ⟨_, _, _, hw⟩ := h.exists_writes
  rw [hw.current, Function.update_of_ne hj]

end

end AllocationStep

/-- A step of a charger of `g`, or one that at most explains the allocation of chargers of `g`. -/
inductive GroupStep (env : StageEnv n) (t : Period) (g : Fin n → Prop)
    (sc sc' : StageContext n) : Prop where
  | context (phases : sc'.phaseAllocation = sc.phaseAllocation)
      (current : sc'.currentAllocation = sc.currentAllocation)
      (limits : sc'.limits = sc.limits)
      (exceeded : sc'.exceeded = sc.exceeded)
      (decisions : ∀ i, ¬ g i → sc'.chargerDecisions i = sc.chargerDecisions i)
  | charger (i : Fin n) (mem : g i) (step : AllocationStep env t i sc sc')

/-- A run of steps of chargers of `g`. -/
def Steps (env : StageEnv n) (t : Period) (g : Fin n → Prop) :
    StageContext n → StageContext n → Prop :=
  Relation.ReflTransGen (GroupStep env t g)

namespace Steps

variable {env : StageEnv n} {t : Period} {g : Fin n → Prop} {sc sc' sc'' : StageContext n}

theorem refl (sc : StageContext n) : Steps env t g sc sc := Relation.ReflTransGen.refl

theorem trans (h : Steps env t g sc sc') (h' : Steps env t g sc' sc'') : Steps env t g sc sc'' :=
  Relation.ReflTransGen.trans h h'

theorem context (phases : sc'.phaseAllocation = sc.phaseAllocation)
    (current : sc'.currentAllocation = sc.currentAllocation) (limits : sc'.limits = sc.limits)
    (exceeded : sc'.exceeded = sc.exceeded)
    (decisions : ∀ i, ¬ g i → sc'.chargerDecisions i = sc.chargerDecisions i) :
    Steps env t g sc sc' :=
  Relation.ReflTransGen.single (.context phases current limits exceeded decisions)

theorem charger {i : Fin n} (mem : g i) (step : AllocationStep env t i sc sc') :
    Steps env t g sc sc' :=
  Relation.ReflTransGen.single (.charger i mem step)

theorem mono {g' : Fin n → Prop} (hg : ∀ i, g i → g' i) (h : Steps env t g sc sc') :
    Steps env t g' sc sc' := by
  refine Relation.ReflTransGen.mono (fun a b hab => ?_) sc sc' h
  cases hab with
  | context hp hc hl he hd => exact .context hp hc hl he fun i hi => hd i fun h => hi (hg i h)
  | charger i mem step => exact .charger i (hg i mem) step

/-- A property of the allocation that every step keeps holds after a run. -/
theorem invariant {P : StageContext n → Prop}
    (hcontext : ∀ a b, b.phaseAllocation = a.phaseAllocation →
      b.currentAllocation = a.currentAllocation → b.limits = a.limits → P a → P b)
    (hstep : ∀ a b i, g i → AllocationStep env t i a b → P a → P b)
    (h : Steps env t g sc sc') (hsc : P sc) : P sc' := by
  induction h with
  | refl => exact hsc
  | tail _ hlast ih =>
    cases hlast with
    | context hp hc hl _ => exact hcontext _ _ hp hc hl ih
    | charger i mem step => exact hstep _ _ i mem step ih

/-- Chargers outside of the group keep their allocation. -/
theorem outside (h : Steps env t g sc sc') {i : Fin n} (hi : ¬ g i) :
    sc'.phaseAllocation i = sc.phaseAllocation i ∧
      sc'.currentAllocation i = sc.currentAllocation i := by
  refine @invariant _ _ _ _ _ _ (fun c => c.phaseAllocation i = sc.phaseAllocation i ∧
    c.currentAllocation i = sc.currentAllocation i) (fun a b hp hc _ ha => ?_)
    (fun a b j mem step ha => ?_) h ⟨rfl, rfl⟩
  · exact ⟨hp ▸ ha.1, hc ▸ ha.2⟩
  · have hij : i ≠ j := fun h => hi (h ▸ mem)
    exact ⟨(step.phases_of_ne hij).trans ha.1, (step.current_of_ne hij).trans ha.2⟩

/-- Chargers outside of the group keep their decisions. -/
theorem decisions_outside (h : Steps env t g sc sc') {i : Fin n} (hi : ¬ g i) :
    sc'.chargerDecisions i = sc.chargerDecisions i := by
  induction h with
  | refl => rfl
  | tail _ hlast ih =>
    rw [← ih]
    cases hlast with
    | context _ _ _ _ decisions => exact decisions i hi
    | charger j mem step =>
      obtain ⟨_, _, _, hw⟩ := step.exists_writes
      exact hw.decisions i fun h => hi (h ▸ mem)

/-- Sharing out what is left changes no phases. -/
theorem share_phases (h : Steps env .share g sc sc') : sc'.phaseAllocation = sc.phaseAllocation := by
  apply @invariant _ _ _ _ _ _ (fun c => c.phaseAllocation = sc.phaseAllocation) ?_ ?_ h rfl
  · intro a b hphases _ _ ha
    rw [hphases, ha]
  · intro a b i _ step ha
    cases step with
    | keep writes _ | additional _ writes _ _ _ _ _ _ _ =>
      rw [writes.phases, Function.update_eq_self, ha]
    | setPhases _ early => exact early.elim
    | connect first => cases first
    | exceeds middle | minimum middle | refund middle => cases middle
    | wake _ _ _ last => cases last

/-- Only stage 6 logs costs over the limits. -/
theorem exceeded_eq (ht : t ≠ .middle) (h : Steps env t g sc sc') : sc'.exceeded = sc.exceeded := by
  induction h with
  | refl => rfl
  | tail _ hlast ih =>
    rw [← ih]
    cases hlast with
    | context _ _ _ hexceeded _ => exact hexceeded
    | charger i _ step =>
      cases step with
      | exceeds middle => exact absurd middle ht
      | keep _ hexceeded | connect _ _ hexceeded | setPhases _ _ _ hexceeded
      | minimum _ _ hexceeded | refund _ _ hexceeded | additional _ _ hexceeded
      | wake _ _ _ _ _ hexceeded => exact hexceeded

end Steps

/-- The index array is a permutation of all chargers. -/
structure Indexed (sc : StageContext n) : Prop where
  perm : sc.idxArray.Perm (List.finRange n)
  count : sc.chargerCount ≤ n

/-- The group holds the same chargers, and the ones behind it are in place. -/
structure SameGroup (sc sc' : StageContext n) : Prop where
  count : sc'.chargerCount = sc.chargerCount
  group : sc'.group.Perm sc.group
  rest : sc'.idxArray.drop sc.chargerCount = sc.idxArray.drop sc.chargerCount

namespace SameGroup

variable {sc sc' sc'' : StageContext n}

theorem of_eq (hidx : sc'.idxArray = sc.idxArray) (hcount : sc'.chargerCount = sc.chargerCount) :
    SameGroup sc sc' :=
  ⟨hcount, by rw [StageContext.group, StageContext.group, hidx, hcount], by rw [hidx]⟩

theorem refl (sc : StageContext n) : SameGroup sc sc := of_eq rfl rfl

theorem trans (h : SameGroup sc sc') (h' : SameGroup sc' sc'') : SameGroup sc sc'' where
  count := h'.count.trans h.count
  group := h'.group.trans h.group
  rest := by rw [← h.rest, ← h.count, h'.rest]

theorem mem_iff (h : SameGroup sc sc') {i : Fin n} : i ∈ sc'.group ↔ i ∈ sc.group :=
  h.group.mem_iff

theorem indexed (h : SameGroup sc sc') (hsc : Indexed sc) : Indexed sc' where
  perm := by
    have hsplit : sc'.idxArray.Perm sc.idxArray := by
      rw [← List.take_append_drop sc.chargerCount sc'.idxArray, h.rest]
      have hgroup : (sc'.idxArray.take sc.chargerCount).Perm (sc.idxArray.take sc.chargerCount) := by
        have := h.group
        rwa [StageContext.group, h.count] at this
      exact (hgroup.append_right _).trans (by rw [List.take_append_drop])
    exact hsplit.trans hsc.perm
  count := h.count.trans_le hsc.count

end SameGroup

theorem AllocationStep.sameGroup {env : StageEnv n} {t : Period} {i : Fin n} {sc sc' : StageContext n}
    (h : AllocationStep env t i sc sc') : SameGroup sc sc' := by
  obtain ⟨_, _, _, hw⟩ := h.exists_writes
  exact .of_eq hw.idxArray hw.count

namespace Indexed

variable {sc : StageContext n}

theorem length_eq (h : Indexed sc) : sc.idxArray.length = n := by
  simpa using h.perm.length_eq

theorem count_le (h : Indexed sc) : sc.chargerCount ≤ sc.idxArray.length :=
  h.count.trans_eq h.length_eq.symm

theorem setPhases (h : Indexed sc) (i : Fin n) (phases : UInt8) : Indexed (sc.setPhases i phases) :=
  ⟨h.perm, h.count⟩

theorem nodup (h : Indexed sc) : sc.idxArray.Nodup :=
  h.perm.nodup_iff.mpr (List.nodup_finRange n)

theorem group_nodup (h : Indexed sc) : sc.group.Nodup :=
  h.nodup.sublist (List.take_sublist _ _)

end Indexed

namespace Selected

variable {p : Fin n → Bool} {sc sc' : StageContext n} {matched : Nat}

theorem sameGroup (h : Selected p sc sc' matched) : SameGroup sc sc' := by
  obtain ⟨idx, hidx⟩ := h.context
  exact ⟨by rw [hidx], h.group, h.rest⟩

theorem steps {env : StageEnv n} {t : Period} {g : Fin n → Prop} (h : Selected p sc sc' matched) :
    Steps env t g sc sc' := by
  obtain ⟨idx, rfl⟩ := h.context
  exact Steps.context rfl rfl rfl rfl fun _ _ => rfl

theorem mem_iff (h : Selected p sc sc' matched) {i : Fin n} :
    i ∈ sc'.idxArray.take matched ↔ i ∈ sc.group ∧ p i = true := by
  rw [h.matching.mem_iff, List.mem_filter]

theorem nodup (h : Selected p sc sc' matched) (hsc : Indexed sc) :
    (sc'.idxArray.take matched).Nodup :=
  h.matching.nodup_iff.mpr (hsc.group_nodup.filter p)

end Selected

/-- What a stage does: steps of chargers of its group. -/
structure StageRun (env : StageEnv n) (t : Period) (sc sc' : StageContext n) : Prop where
  sameGroup : SameGroup sc sc'
  steps : Steps env t (· ∈ sc.group) sc sc'

namespace StageRun

variable {env : StageEnv n} {t : Period} {sc sc' sc'' : StageContext n}

theorem indexed (h : StageRun env t sc sc') (hsc : Indexed sc) : Indexed sc' :=
  h.sameGroup.indexed hsc

/-- A loop over distinct chargers is a run if every iteration is a step of its
charger, which the iterations before have not touched. -/
theorem foldl_of_nodup {g : Fin n → Prop} {β : Type*} (proj : β → StageContext n)
    (f : β → Fin n → β) {l : List (Fin n)} (hnodup : l.Nodup) (hmem : ∀ i ∈ l, g i) (init : β)
    (hstep : ∀ b, ∀ i ∈ l, (proj b).phaseAllocation i = (proj init).phaseAllocation i →
      (proj b).currentAllocation i = (proj init).currentAllocation i →
      AllocationStep env t i (proj b) (proj (f b i))) :
    SameGroup (proj init) (proj (l.foldl f init)) ∧
      Steps env t g (proj init) (proj (l.foldl f init)) := by
  suffices h : ∀ b, (∀ i ∈ l, (proj b).phaseAllocation i = (proj init).phaseAllocation i ∧
      (proj b).currentAllocation i = (proj init).currentAllocation i) →
      SameGroup (proj b) (proj (l.foldl f b)) ∧ Steps env t g (proj b) (proj (l.foldl f b)) from
    h init fun i _ => ⟨rfl, rfl⟩
  induction l with
  | nil => exact fun b _ => ⟨.refl _, .refl _⟩
  | cons i rest ih =>
    intro b hb
    obtain ⟨hi, hrest⟩ := List.nodup_cons.mp hnodup
    have hfirst := hstep b i List.mem_cons_self (hb i List.mem_cons_self).1
      (hb i List.mem_cons_self).2
    have htail := ih hrest (fun j hj => hmem j (List.mem_cons_of_mem i hj))
      (fun b j hj => hstep b j (List.mem_cons_of_mem i hj)) (f b i) fun j hj => by
        have hji : j ≠ i := fun h => hi (h ▸ hj)
        have hbj := hb j (List.mem_cons_of_mem i hj)
        exact ⟨(hfirst.phases_of_ne hji).trans hbj.1, (hfirst.current_of_ne hji).trans hbj.2⟩
    exact ⟨hfirst.sameGroup.trans htail.1,
      (Steps.charger (hmem i List.mem_cons_self) hfirst).trans htail.2⟩

/-- A stage that selects chargers and loops over them. -/
theorem select_foldl {p : Fin n → Bool} {matched : Nat} (hsc : Indexed sc)
    (h : Selected p sc sc' matched) {β : Type*} (proj : β → StageContext n)
    (f : β → Fin n → β) (init : β) (hinit : proj init = sc')
    (hstep : ∀ b i, i ∈ sc.group → p i = true → (proj b).phaseAllocation i = sc.phaseAllocation i →
      (proj b).currentAllocation i = sc.currentAllocation i →
      AllocationStep env t i (proj b) (proj (f b i))) :
    StageRun env t sc (proj ((sc'.idxArray.take matched).foldl f init)) := by
  obtain ⟨idx, hidx⟩ := h.context
  have hrun := @foldl_of_nodup _ env t (· ∈ sc.group) _ proj f _ (h.nodup hsc)
    (fun i hi => (h.mem_iff.mp hi).1) init fun b i hi hp hc => by
      obtain ⟨hmem, hpi⟩ := h.mem_iff.mp hi
      refine hstep b i hmem hpi ?_ ?_
      · rw [hp, hinit, hidx]
      · rw [hc, hinit, hidx]
  rw [hinit] at hrun
  exact ⟨h.sameGroup.trans hrun.1, h.steps.trans hrun.2⟩

end StageRun

end Esp32Firmware.ChargeManager
