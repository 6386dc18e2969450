import Esp32Firmware.ChargeManager.EnableCurrent
import Esp32Firmware.ChargeManager.StageSteps

/-!
# Stages 6 to 9 as steps

Stage 6 is the only stage that can find a cost over the limits: what stages 7 and 8
add is bounded by the limits they were given.
-/

namespace Esp32Firmware.ChargeManager

variable {n : Nat}

section

variable {cost limit : Cost} {phases : UInt8} {rot : PhaseRotation} {d : Int}

theorem phasesExceeded_eq_false :
    phasesExceeded cost limit = false ↔
      ∀ p, p ≠ .pv → 0 < cost.get p → cost.get p ≤ limit.get p := by
  constructor
  · intro h p hp hpos
    have hall := List.any_eq_false.mp h p (by cases p <;> first | exact absurd rfl hp | decide)
    simp only [decide_eq_true_eq, not_and, not_lt] at hall
    exact hall hpos
  · intro h
    refine List.any_eq_false.mpr fun p hp => ?_
    have hpv : p ≠ .pv := by
      rintro rfl
      exact absurd hp (by decide)
    simpa using h p hpv

/-- A multiple of the factors fits if it fits on every phase the charger uses. -/
theorem phasesExceeded_scale
    (h : 0 < d → ∀ p, p ≠ .pv → (getPhaseFactors phases rot).get p ≠ 0 → d ≤ limit.get p) :
    phasesExceeded (Cost.scale d (getPhaseFactors phases rot)) limit = false := by
  refine phasesExceeded_eq_false.mpr fun p hp hpos => ?_
  rw [Cost.get_scale] at hpos ⊢
  rcases factor_eq_zero_or_one phases rot hp with hf | hf
  · simp [hf] at hpos
  · rw [hf, one_mul] at hpos ⊢
    exact h hpos p hp (by simp [hf])

theorem factor_pv_le (phases : UInt8) (rot : PhaseRotation) :
    (getPhaseFactors phases rot).pv ≤ phases.toNat := by
  unfold getPhaseFactors
  split_ifs with h0 h3
  · exact Int.natCast_nonneg _
  · subst h3
    decide
  all_goals
    have hpos : 0 < (phases.toNat : Int) :=
      Int.natCast_pos.mpr (Nat.pos_of_ne_zero fun h => h0 (UInt8.toNat_inj.mp h))
  · exact hpos
  · have hset : ∀ p, p ≠ .pv → (Cost.set ⟨1, 0, 0, 0⟩ p 1).pv = 1 := by
      intro p hp
      cases p <;> first | exact absurd rfl hp | rfl
    rw [hset _ (by rw [Ne, getPhase_eq_pv]; decide)]
    exact hpos

theorem pos_of_tdiv_pos {x k : Int} (hk : 0 < k) (h : 0 < x.tdiv k) : 0 < x := by
  by_contra hx
  have hneg : 0 ≤ (-x).tdiv k := Int.tdiv_nonneg (by omega) hk.le
  rw [Int.neg_tdiv] at hneg
  omega

theorem toNat_pos (h : phases ≠ 0) : 0 < (phases.toNat : Int) :=
  Int.natCast_pos.mpr (Nat.pos_of_ne_zero fun h0 => h (UInt8.toNat_inj.mp h0))

/-- The PV cost of a current fits if the current is at most the PV limit or the
guaranteed current, shared by the phases. -/
theorem pvExcessExceeded_scale {observe : Bool} {guaranteed : Int} (hphases : phases ≠ 0)
    (h : observe = true → 0 < d → d ≤ limit.pv.tdiv phases.toNat ∨
      d ≤ guaranteed.tdiv phases.toNat) :
    pvExcessExceeded (Cost.scale d (getPhaseFactors phases rot)) limit observe guaranteed =
      false := by
  cases observe with
  | false => rfl
  | true =>
    have hnum := toNat_pos hphases
    have hfactor := factor_nonneg phases rot .pv
    have hle := factor_pv_le phases rot
    have hshare : ∀ x : Int, 0 < d → d ≤ x.tdiv phases.toNat →
        (getPhaseFactors phases rot).pv * d ≤ x := by
      intro x hd hx
      have hx0 : 0 < x := pos_of_tdiv_pos hnum (hd.trans_le hx)
      calc (getPhaseFactors phases rot).pv * d
          ≤ phases.toNat * d := Int.mul_le_mul_of_nonneg_right hle hd.le
        _ ≤ phases.toNat * x.tdiv phases.toNat := Int.mul_le_mul_of_nonneg_left hx hnum.le
        _ ≤ x := Int.mul_tdiv_self_le hx0.le
    rw [pvExcessExceeded, Bool.true_and, decide_eq_false_iff_not]
    rintro ⟨hpos, hlimit, hguaranteed⟩
    simp only [Cost.scale] at hpos hlimit hguaranteed
    have hd : 0 < d := by
      by_contra hd
      have := Int.mul_nonpos_of_nonneg_of_nonpos hfactor (not_lt.mp hd)
      simp only [Cost.get] at this
      omega
    rcases h rfl hd with hx | hx <;> exact absurd (hshare _ hd hx) (by omega)

end

/-- A bound on a fold of minima is a bound on the start and on every entry. -/
theorem le_foldl_min {β : Type*} (f : β → Int) (l : List β) (init x : Int) :
    x ≤ l.foldl (fun acc b => min acc (f b)) init ↔ x ≤ init ∧ ∀ b ∈ l, x ≤ f b := by
  induction l generalizing init with
  | nil => simp
  | cons b rest ih => rw [List.foldl_cons, ih, le_min_iff, List.forall_mem_cons, and_assoc]

/-- A current that stays within `c` on every phase of a charger. -/
def StaysWithin (x : Int) (phases : UInt8) (rot : PhaseRotation) (c : Cost) : Prop :=
  if rot = .unknown then x ≤ c.minPhase
  else ∀ phase ∈ ChargerPhase.firstPhases phases.toNat, x ≤ c.get (getPhase rot phase)

section

variable {x : Int} {phases : UInt8} {rot : PhaseRotation} {c : Cost}

theorem StaysWithin.le (h : StaysWithin x phases rot c) {p : GridPhase} (hp : p ≠ .pv)
    (hused : (getPhaseFactors phases rot).get p ≠ 0) : x ≤ c.get p := by
  unfold StaysWithin at h
  split_ifs at h with hrot
  · exact (c.le_minPhase x).mp h p hp
  · by_cases h0 : phases = 0
    · subst h0
      exact absurd (Cost.get_zero p) hused
    · by_cases h3 : phases = 3
      · subst h3
        obtain ⟨phase, hmem, rfl⟩ := exists_getPhase rot hp
        exact h phase hmem
      · have hp1 : p = getPhase rot .p1 := by
          by_contra hne
          rw [getPhaseFactors, if_neg h0, if_neg h3, if_neg hrot, Cost.get_set, if_neg hne] at hused
          exact hused (by cases p <;> first | rfl | exact absurd rfl hp)
        subst hp1
        refine h .p1 ?_
        obtain ⟨k, hk⟩ := Nat.exists_eq_succ_of_ne_zero
          (fun h => h0 (UInt8.toNat_inj.mp h) : phases.toNat ≠ 0)
        rw [hk]
        exact List.mem_cons_self

theorem staysWithin_of_le (hphases : phases ≠ 0)
    (h : ∀ p, p ≠ .pv → MayUse phases rot p → x ≤ c.get p) : StaysWithin x phases rot c := by
  unfold StaysWithin
  split_ifs with hrot
  · exact (c.le_minPhase x).mpr fun p hp => h p hp ⟨hphases, fun _ hne => absurd hrot hne⟩
  · intro phase hmem
    have hpv : phase ≠ .pv := by
      rintro rfl
      exact absurd (List.mem_of_mem_take hmem) (by decide)
    refine h _ (by rwa [Ne, getPhase_eq_pv]) ⟨hphases, fun hone _ => ?_⟩
    subst hone
    rw [List.mem_singleton.mp hmem]

end

section

variable (env : StageEnv n) (limits : CurrentLimits) (state : ChargerState) (current : Int)
  {phases : UInt8} (ignoreRequested : Bool)

theorem getRequestedCurrent_le (phases : UInt8) :
    (getRequestedCurrent env state phases).1 ≤ state.supportedCurrent.toNat ∧
      (getRequestedCurrent env state phases).1 ≤ state.userCurrent.toNat := by
  have hle : (state.requestedCurrent.toNat : Int) ≤ state.supportedCurrent.toNat :=
    Int.ofNat_le.mpr (UInt16.le_iff_toNat_le.mp state.requestedCurrent_le)
  unfold getRequestedCurrent
  simp only
  split_ifs <;> simp only <;> omega

/-- The capacity on one phase: what the user, the charger and the phases leave over. -/
theorem currentCapacity_tdiv (hphases : phases ≠ 0) :
    ∃ requested ≤ state.allowedByUser,
      (currentCapacity env limits state current phases ignoreRequested).1.tdiv phases.toNat =
        min (max (requested - current) 0) (capacityMinPhase limits state phases) := by
  have hpos := toNat_pos hphases
  have hcap : ∀ capacity : Int × CurrentCapacityLimit, ∀ x : Int,
      ((phases.toNat : Int) * (if x < capacity.1 then (x, CurrentCapacityLimit.limitedByPhase)
        else capacity).1).tdiv phases.toNat = min capacity.1 x := by
    intro capacity x
    rw [Int.mul_tdiv_cancel_left _ hpos.ne']
    split_ifs with h
    · exact (min_eq_right h.le).symm
    · exact (min_eq_left (not_lt.mp h)).symm
  obtain ⟨hsupported, huser⟩ := getRequestedCurrent_le env state phases
  cases ignoreRequested
  · refine ⟨_, le_min huser hsupported, ?_⟩
    unfold currentCapacity
    simp only [Bool.false_eq_true, if_false, if_neg (not_lt.mpr huser)]
    exact hcap (_, _) _
  · refine ⟨state.allowedByUser, le_rfl, ?_⟩
    unfold currentCapacity
    simp only [if_true]
    rw [hcap (_, _) _]
    congr 3
    unfold ChargerState.allowedByUser
    split_ifs <;> simp only <;> omega

theorem currentCapacity_le (hphases : phases ≠ 0) :
    current + (currentCapacity env limits state current phases ignoreRequested).1.tdiv
      phases.toNat ≤ max current state.allowedByUser := by
  obtain ⟨requested, hle, hcap⟩ :=
    currentCapacity_tdiv env limits state current ignoreRequested hphases
  omega

variable (hphases : phases ≠ 0)
  (h : ∀ p, p ≠ .pv → MayUse phases state.phaseRotation p → 0 ≤ limits.raw.get p)
include hphases h

theorem capacityMinPhase_nonneg : 0 ≤ capacityMinPhase limits state phases := by
  have hwithin := staysWithin_of_le hphases h
  unfold capacityMinPhase
  unfold StaysWithin at hwithin
  split_ifs with hmin
  · rcases hmin with rfl | hrot
    · exact (Cost.le_minPhase _ _).mpr fun p hp => h p hp ⟨hphases, fun h => absurd h (by decide)⟩
    · rwa [if_pos hrot] at hwithin
  · rw [if_neg (not_or.mp hmin).2] at hwithin
    exact (le_foldl_min _ _ _ _).mpr ⟨by decide, hwithin⟩

theorem currentCapacity_nonneg :
    0 ≤ (currentCapacity env limits state current phases ignoreRequested).1.tdiv phases.toNat := by
  obtain ⟨requested, _, hcap⟩ :=
    currentCapacity_tdiv env limits state current ignoreRequested hphases
  rw [hcap]
  exact le_min (le_max_right _ _) (capacityMinPhase_nonneg limits state hphases h)

end

section

variable (env : StageEnv n) (sc : StageContext n) (p : GridPhase)

theorem le_countActive (active : Cost) (i : Fin n) :
    active.get p ≤ (countActive env sc active i).get p := by
  have hfold : ∀ (l : List ChargerPhase) (c : Cost), c.get p ≤ (l.foldl (fun active phase =>
      active.set (getPhase (env.chargerState i).phaseRotation phase)
        (active.get (getPhase (env.chargerState i).phaseRotation phase) + 1)) c).get p := by
    intro l
    induction l with
    | nil => exact fun c => le_rfl
    | cons phase rest ih =>
      refine fun c => le_trans ?_ (ih _)
      rw [Cost.get_set]
      split_ifs with h
      · rw [h]
        omega
      · exact le_rfl
  unfold countActive
  simp only
  split_ifs
  · cases p <;> simp [Cost.get]
  · refine le_trans ?_ (hfold _ _)
    cases p <;> simp [Cost.get]

/-- A fair current is a share of what is left of the raw limit. -/
theorem getFairCurrent_mem (chargers : List (Fin n)) :
    0 ≤ (getFairCurrent env sc chargers).get p ∧
      (getFairCurrent env sc chargers).get p ≤ max 0 (sc.limits.raw.get p) := by
  have hactive : ∀ (l : List (Fin n)) (c : Cost), c.get p ≤ (l.foldl (countActive env sc) c).get p := by
    intro l
    induction l with
    | nil => exact fun c => le_rfl
    | cons i rest ih => exact fun c => (le_countActive env sc p c i).trans (ih _)
  have hcount := hactive chargers 0
  rw [Cost.get_zero] at hcount
  have hfair : (getFairCurrent env sc chargers).get p =
      if (chargers.foldl (countActive env sc) 0).get p = 0 then 0
      else max 0 ((sc.limits.raw.get p).tdiv ((chargers.foldl (countActive env sc) 0).get p)) := by
    cases p <;> rfl
  rw [hfair]
  generalize (chargers.foldl (countActive env sc) 0).get p = active at hcount
  generalize sc.limits.raw.get p = raw
  split_ifs with h0
  · exact ⟨le_rfl, le_max_left _ _⟩
  · refine ⟨le_max_left _ _, max_le (le_max_left _ _) ?_⟩
    by_cases hpos : 0 < raw.tdiv active
    · have hraw := pos_of_tdiv_pos (lt_of_le_of_ne hcount (Ne.symm h0)) hpos
      exact (Int.tdiv_le_self active hraw.le).trans (le_max_right _ _)
    · exact (not_lt.mp hpos).trans (le_max_left _ _)

end

@[simp] theorem MinWithDecision.apply_current (m : MinWithDecision) (x : Int)
    (d : CurrentDecision) : (m.apply x d).current = min m.current x := by
  unfold MinWithDecision.apply
  split_ifs with h
  · exact (min_eq_left h).symm
  · exact (min_eq_right (not_le.mp h).le).symm

section

variable {x : Int} {state : ChargerState} {fair : Cost} {phases : UInt8} {current : Int}
  {m : MinWithDecision}

theorem le_minFairPhases :
    x ≤ (minFairPhases state fair phases m).current ↔
      x ≤ m.current ∧ StaysWithin x phases state.phaseRotation fair := by
  have hfold : ∀ (l : List ChargerPhase) (m : MinWithDecision),
      (l.foldl (fun m p => m.apply (fair.get (getPhase state.phaseRotation p)) (.fair false))
        m).current =
      l.foldl (fun acc p => min acc (fair.get (getPhase state.phaseRotation p))) m.current := by
    intro l
    induction l with
    | nil => exact fun m => rfl
    | cons p rest ih => exact fun m => (ih _).trans (by rw [m.apply_current]; rfl)
  unfold minFairPhases StaysWithin
  split_ifs
  · rw [m.apply_current, le_min_iff]
  · rw [hfold, le_foldl_min]

theorem le_minFairPv :
    x ≤ (minFairPv state fair current phases m).current ↔
      x ≤ m.current ∧ (state.observePvLimit = true →
        x ≤ max (state.guaranteedPvCurrent.tdiv phases.toNat - current)
          (fair.pv.tdiv phases.toNat)) := by
  unfold minFairPv
  simp only
  split_ifs with hobserve hguaranteed
  · rw [m.apply_current, le_min_iff, max_eq_left hguaranteed.le]
    simp [hobserve]
  · rw [m.apply_current, le_min_iff, max_eq_right (not_lt.mp hguaranteed)]
    simp [hobserve]
  · simp [hobserve]

theorem le_minEnable {cfg : CurrentAllocatorConfig n} (hx : x ≤ 0) :
    x ≤ (minEnable cfg state current phases m).current ↔ x ≤ m.current := by
  unfold minEnable
  split_ifs
  · rfl
  · rw [m.apply_current, le_min_iff]
    exact and_iff_left (hx.trans (le_max_left _ _))

theorem minEnable_le (cfg : CurrentAllocatorConfig n) :
    (minEnable cfg state current phases m).current ≤ m.current := by
  unfold minEnable
  split_ifs
  · exact le_rfl
  · rw [m.apply_current]
    exact min_le_left _ _

variable {env : StageEnv n} {sc : StageContext n} {i : Fin n}

/-- What stage 7 adds stays within the fair currents, the PV limit and the capacity. -/
theorem stage7Min_le (chargers : List (Fin n)) :
    (stage7Min env sc chargers i).current ≤
        (currentCapacity env sc.limits (env.chargerState i) (sc.currentAllocation i)
          (sc.phaseAllocation i) false).1.tdiv (sc.phaseAllocation i).toNat ∧
      StaysWithin (stage7Min env sc chargers i).current (sc.phaseAllocation i)
        (env.chargerState i).phaseRotation (getFairCurrent env sc chargers) ∧
      ((env.chargerState i).observePvLimit = true → (stage7Min env sc chargers i).current ≤
        max ((env.chargerState i).guaranteedPvCurrent.tdiv (sc.phaseAllocation i).toNat -
            sc.currentAllocation i)
          ((getFairCurrent env sc chargers).pv.tdiv (sc.phaseAllocation i).toNat)) := by
  have hmin := (stage7Min env sc chargers i).current.le_refl
  unfold stage7Min at hmin ⊢
  simp only [MinWithDecision.apply_current] at hmin ⊢
  have hcap := hmin.trans (min_le_right _ _)
  have hphases := le_minFairPhases.mp ((hmin.trans (min_le_left _ _)).trans (minEnable_le env.cfg))
  exact ⟨hcap, hphases.2, (le_minFairPv.mp hphases.1).2⟩

/-- Stage 7 takes current away only from chargers above 32 A. -/
theorem le_stage7Min (chargers : List (Fin n))
    (hphases : sc.phaseAllocation i ≠ 0) (hcovered : sc.Covered env i) :
    min 0 (32000 - sc.currentAllocation i) ≤ (stage7Min env sc chargers i).current := by
  have hfair := fun p => (getFairCurrent_mem env sc p chargers).1
  have hnonpos : min 0 (32000 - sc.currentAllocation i) ≤ 0 := min_le_left _ _
  have hpv : 0 ≤ (getFairCurrent env sc chargers).pv.tdiv (sc.phaseAllocation i).toNat :=
    Int.tdiv_nonneg (hfair .pv) (Int.natCast_nonneg _)
  unfold stage7Min
  simp only [MinWithDecision.apply_current]
  refine le_min ((le_minEnable hnonpos).mpr (le_minFairPhases.mpr ⟨le_minFairPv.mpr
    ⟨min_le_right _ _, fun _ => hnonpos.trans (hpv.trans (le_max_right _ _))⟩, ?_⟩)) ?_
  · exact staysWithin_of_le hphases fun p _ _ => hnonpos.trans (hfair p)
  · exact hnonpos.trans (currentCapacity_nonneg env sc.limits _ _ false hphases hcovered)

end

section

variable {env : StageEnv n} {sc : StageContext n} {i : Fin n} (nonCharging : Bool)

theorem le_stage8Additional {x : Int} :
    x ≤ stage8Additional env sc nonCharging i ↔
      (x ≤ max 0 (if (env.chargerState i).observePvLimit then
          max ((env.chargerState i).guaranteedPvCurrent.tdiv (sc.phaseAllocation i).toNat -
              sc.currentAllocation i)
            (sc.limits.raw.pv.tdiv (sc.phaseAllocation i).toNat)
        else 32000) ∧
        x ≤ (currentCapacity env sc.limits (env.chargerState i) (sc.currentAllocation i)
          (sc.phaseAllocation i) nonCharging).1.tdiv (sc.phaseAllocation i).toNat) ∧
        StaysWithin x (sc.phaseAllocation i) (env.chargerState i).phaseRotation sc.limits.raw := by
  unfold stage8Additional StaysWithin
  by_cases hrot : (env.chargerState i).phaseRotation = .unknown
  · rw [if_pos hrot, if_pos hrot, le_min_iff, le_min_iff]
  · rw [if_neg hrot, if_neg hrot, le_foldl_min, le_min_iff]

theorem stage8Additional_nonneg
    (hphases : sc.phaseAllocation i ≠ 0) (hcovered : sc.Covered env i) :
    0 ≤ stage8Additional env sc nonCharging i := by
  refine (le_stage8Additional nonCharging).mpr ⟨⟨le_max_left _ _, ?_⟩, ?_⟩
  · exact currentCapacity_nonneg env sc.limits _ _ nonCharging hphases hcovered
  · exact staysWithin_of_le hphases hcovered

end

section

variable {env : StageEnv n} {t : Period} {sc sc' : StageContext n} {i : Fin n}

theorem getCost_add (current d : Int) (phases : UInt8) (rot : PhaseRotation) :
    getCost (current + d) phases rot current phases =
      Cost.scale d (getPhaseFactors phases rot) := by
  have hget : ∀ p, (getCost (current + d) phases rot current phases).get p =
      (Cost.scale d (getPhaseFactors phases rot)).get p := by
    intro p
    simp only [getCost, Cost.get_sub, Cost.get_scale]
    ring
  exact Cost.ext (hget .pv) (hget .l1) (hget .l2) (hget .l3)

/-- An additional current within the phase limits and the PV limit is allocated. -/
theorem allocateChecked_step {stage : Nat} {d : Int} (hstage : stage = 7 ∨ stage = 8)
    (hbooks : SameBooks (· = i) sc sc') (active : sc.phaseAllocation i ≠ 0)
    (positive : 0 < sc.currentAllocation i)
    (phaseLimit : 0 < d → ∀ p, p ≠ .pv → (sc.factors env i).get p ≠ 0 → d ≤ sc.limits.raw.get p)
    (pvLimit : (env.chargerState i).observePvLimit = true → 0 < d →
      d ≤ sc.limits.raw.pv.tdiv (sc.phaseAllocation i).toNat ∨
        d ≤ (env.chargerState i).guaranteedPvCurrent.tdiv (sc.phaseAllocation i).toNat)
    (upper : sc.currentAllocation i + d ≤
      max (sc.currentAllocation i) (env.chargerState i).allowedByUser)
    (lower : sc.Covered env i → min 0 (32000 - sc.currentAllocation i) ≤ d)
    (grows : sc.Covered env i → ∀ have_, t = .last have_ → 0 ≤ d) :
    AllocationStep env t i sc (allocateChecked env sc' stage i (sc.currentAllocation i + d)
      (getCost (sc.currentAllocation i + d) (sc.phaseAllocation i)
        (env.chargerState i).phaseRotation (sc.currentAllocation i) (sc.phaseAllocation i))) := by
  rw [getCost_add]
  have hphases := phasesExceeded_scale phaseLimit
  have hpv := @pvExcessExceeded_scale _ _ (env.chargerState i).phaseRotation _ _ _ active pvLimit
  have hfits : costExceedsLimits (Cost.scale d (getPhaseFactors (sc.phaseAllocation i)
      (env.chargerState i).phaseRotation)) sc'.limits stage
      (env.chargerState i).observePvLimit (env.chargerState i).guaranteedPvCurrent = false := by
    rw [hbooks.limits]
    rcases hstage with rfl | rfl <;> exact Bool.or_eq_false_iff.mpr ⟨hphases, hpv⟩
  unfold allocateChecked
  rw [if_neg (Bool.eq_false_iff.mp hfits)]
  refine .additional d ⟨hbooks.idxArray, hbooks.count, ?_, ?_, ?_, hbooks.decisions⟩
    hbooks.exceeded active positive hphases upper lower grows
  · exact hbooks.phases.trans (Function.update_eq_self i _).symm
  · exact congrArg (Function.update · i _) hbooks.current
  · exact congrArg (applyCost _) hbooks.limits

theorem stage7Charger_step (hlast : ∀ have_, t ≠ .last have_) (chargers : List (Fin n)) (active : sc.phaseAllocation i ≠ 0)
    (positive : 0 < sc.currentAllocation i) :
    AllocationStep env t i sc (stage7Charger env sc chargers i) := by
  obtain ⟨hcap, hfair, hpv⟩ := @stage7Min_le _ env sc i chargers
  have hlimit := fun p => (getFairCurrent_mem env sc p chargers).2
  refine allocateChecked_step (Or.inl rfl)
    (Explained.sameBooks (.ite (explained_setCurrentDecision sc i _) (.refl sc)) rfl) active positive ?_ ?_ ?_ (le_stage7Min chargers active) ?_
  · intro hd p hp hused
    have := (hfair.le hp hused).trans (hlimit p)
    omega
  · intro hobserve hd
    have hpos := toNat_pos active
    rcases le_max_iff.mp (hpv hobserve) with hle | hle
    · exact Or.inr (by omega)
    · refine Or.inl (hle.trans ?_)
      have hfairPos := pos_of_tdiv_pos hpos (hd.trans_le hle)
      have hraw := hlimit .pv
      simp only [Cost.get] at hraw
      exact Int.tdiv_le_tdiv hpos (by omega)
  · exact (by omega : _ ≤ _).trans (currentCapacity_le env sc.limits (env.chargerState i)
      (sc.currentAllocation i) false active)
  · exact fun _ have_ h => absurd h (hlast have_)

theorem stage8Charger_step (nonCharging : Bool) (active : sc.phaseAllocation i ≠ 0)
    (positive : 0 < sc.currentAllocation i) :
    AllocationStep env t i sc (stage8Charger env nonCharging sc i) := by
  obtain ⟨⟨hpv, hcap⟩, hraw⟩ := (@le_stage8Additional _ env sc i nonCharging _).mp le_rfl
  unfold stage8Charger
  simp only
  rw [Int.add_comm (stage8Additional env sc nonCharging i)]
  refine allocateChecked_step (Or.inr rfl)
    (Explained.sameBooks (.ite (explained_setCurrentDecision sc i _) (.refl sc)) rfl) active positive ?_ ?_ ?_ ?_ ?_
  · exact fun _ p hp hused => hraw.le hp hused
  · intro hobserve hd
    rw [if_pos hobserve] at hpv
    omega
  · exact (by omega : _ ≤ _).trans (currentCapacity_le env sc.limits (env.chargerState i)
      (sc.currentAllocation i) nonCharging active)
  · intro hcovered
    exact (min_le_left _ _).trans (stage8Additional_nonneg nonCharging active hcovered)
  · exact fun hcovered _ _ => stage8Additional_nonneg nonCharging active hcovered

/-- Stage 6 allocates the minimum current or logs that its cost exceeds the limits. -/
theorem stage6Charger_cases (active : sc.phaseAllocation i ≠ 0) :
    (phasesExceeded (sc.minimumCost env i) sc.limits.raw = true ∧
      stage6Charger env sc i = { sc with exceeded := sc.exceeded ++ [6] }) ∨
    (phasesExceeded (sc.minimumCost env i) sc.limits.raw = false ∧
      stage6Charger env sc i = ((sc.setCurrentDecision i .minimum).setCurrent i
        (minimumCurrent env.cfg (sc.phaseAllocation i))).applyCost (sc.minimumCost env i)) := by
  have hmax := maxPhase_scale active (env.chargerState i).phaseRotation
    (minimumCurrent_pos env.cfg (sc.phaseAllocation i)).le
  unfold stage6Charger
  simp only
  split
  · next hexceeds => exact Or.inl ⟨hexceeds, rfl⟩
  · next hfits =>
      refine Or.inr ⟨Bool.eq_false_iff.mpr hfits, ?_⟩
      rw [getMinimumCost, hmax]
      rfl

theorem stage6Charger_step (active : sc.phaseAllocation i ≠ 0)
    (idle : sc.currentAllocation i = 0) :
    AllocationStep env .middle i sc (stage6Charger env sc i) := by
  have hphases : sc.phaseAllocation = Function.update sc.phaseAllocation i (sc.phaseAllocation i) :=
    (Function.update_eq_self i _).symm
  have hcurrent : sc.currentAllocation =
      Function.update sc.currentAllocation i (sc.currentAllocation i) :=
    (Function.update_eq_self i _).symm
  rcases @stage6Charger_cases _ env sc i active with ⟨hexceeds, hsame⟩ | ⟨hfits, hmin⟩
  · rw [hsame]
    exact .exceeds rfl ⟨rfl, rfl, hphases, hcurrent, rfl, fun _ _ => rfl⟩ rfl hexceeds
  · rw [hmin]
    exact .minimum rfl ⟨rfl, rfl, hphases, rfl, rfl, fun j hj => Function.update_of_ne hj _ _⟩ rfl
      idle active hfits

theorem undoStage6Charger_step
    (current : sc.currentAllocation i = minimumCurrent env.cfg (sc.phaseAllocation i)) :
    AllocationStep env .middle i sc (undoStage6Charger env sc i) :=
  .refund rfl ⟨rfl, rfl, (Function.update_eq_self i _).symm, rfl, rfl, fun _ _ => rfl⟩ rfl current

/-- A charger is woken up with phases that are tried, at a cost that the limits carry. -/
theorem wakeUp_eq_some {haveActive : Bool} {phases : UInt8} {cost : EnableCost}
    (h : wakeUp env sc i haveActive = some (phases, cost)) :
    (phaseChoice env (env.chargerState i)).Tries phases ∧
      cost = getEnableCost (env.chargerState i) (phases == 3) haveActive env.cfg ∧
      phasesExceeded cost.enable sc.limits.raw = false := by
  have htry : ∀ (p activate3p : Bool) (c : EnableCost),
      (if p then affordableWakeUp env sc i activate3p haveActive else none) = some c →
      p = true ∧ c = getEnableCost (env.chargerState i) activate3p haveActive env.cfg ∧
        phasesExceeded c.enable sc.limits.raw = false := by
    intro p activate3p c hc
    split at hc
    · next hp =>
        unfold affordableWakeUp at hc
        simp only at hc
        split at hc
        · cases hc
        · next hfits =>
            obtain rfl := Option.some.inj hc
            have := Bool.eq_false_iff.mpr hfits
            simp only [costExceedsLimits, Bool.or_eq_false_iff] at this
            exact ⟨hp, rfl, this.1.1.1⟩
    · cases hc
  unfold wakeUp at h
  simp only at h
  split at h
  · next hc =>
      cases h
      obtain ⟨hp, hcost⟩ := htry _ true cost hc
      exact ⟨Or.inr ⟨rfl, hp⟩, hcost⟩
  · next hc =>
      cases h
      obtain ⟨hp, hcost⟩ := htry _ false cost hc
      exact ⟨Or.inl ⟨rfl, hp⟩, hcost⟩
  · cases h

theorem stage9Charger_step (haveActive : Bool) (idle : sc.phaseAllocation i = 0) :
    AllocationStep env (.last haveActive) i sc (stage9Charger env haveActive sc i) := by
  unfold stage9Charger
  split
  · exact (SameBooks.refl sc).keep
  · split
    · exact (SameBooks.refl sc).keep
    · next phases cost hwake =>
        obtain ⟨htries, hcost, hfits⟩ := wakeUp_eq_some hwake
        have hdecision : SameBooks (· = i) sc
            ((if phases = 3 then sc.setThreeDecision i .yesWakingUp
              else sc.setOneDecision i .yesWakingUp).setCurrentDecision i .enableNotCharging) :=
          (Explained.ite (explained_setThreeDecision sc i _)
            (explained_setOneDecision sc i _)).trans (explained_setCurrentDecision _ i _)
            |>.sameBooks rfl
        refine .wake phases cost haveActive rfl ⟨?_, ?_, ?_, ?_, ?_, hdecision.decisions⟩ ?_ idle
          htries.valid hcost hfits htries.admissible
        · exact hdecision.idxArray
        · exact hdecision.count
        · exact congrArg (Function.update · i _) hdecision.phases
        · exact congrArg (Function.update · i _) hdecision.current
        · exact congrArg (applyCost _) hdecision.limits
        · exact hdecision.exceeded

end

variable {env : StageEnv n} {t : Period} {sc : StageContext n}

theorem stage6_run (hsc : Indexed sc) : StageRun env .middle sc (stage6 env sc) := by
  have hsel := filterChargers_selected
    (fun i => decide (sc.phaseAllocation i > 0) && decide (sc.currentAllocation i = 0)) sc
    hsc.count_le
  refine StageRun.select_foldl hsc hsel id (stage6Charger env) _ rfl fun b i _ hp hphases hcurrent => ?_
  rw [Bool.and_eq_true, decide_eq_true_eq, decide_eq_true_eq, ← hphases, ← hcurrent] at hp
  exact stage6Charger_step (UInt8.pos_iff_ne_zero.mp hp.1) hp.2

theorem undoStage6_run (hsc : Indexed sc)
    (hmin : ∀ i ∈ sc.group, 0 < sc.currentAllocation i →
      sc.currentAllocation i = minimumCurrent env.cfg (sc.phaseAllocation i)) :
    StageRun env .middle sc (undoStage6 env sc) := by
  have hsel := filterChargers_selected (fun i => decide (sc.currentAllocation i > 0)) sc
    hsc.count_le
  refine StageRun.select_foldl hsc hsel id (undoStage6Charger env) _ rfl
    fun b i hi hp hphases hcurrent => undoStage6Charger_step ?_
  exact hcurrent.trans ((hmin i hi (of_decide_eq_true hp)).trans (by rw [← hphases]))

/-- The loop of stage 7 carries the chargers that are still to be served. -/
theorem stage7Loop_eq_foldl (chargers : List (Fin n)) (sc : StageContext n) :
    stage7Loop env chargers sc = (chargers.foldl
      (fun acc i => (acc.1.tail, stage7Charger env acc.2 acc.1 i)) (chargers, sc)).2 := by
  induction chargers generalizing sc with
  | nil => rfl
  | cons i rest ih => exact ih (stage7Charger env sc (i :: rest) i)

theorem stage7_run (hlast : ∀ have_, t ≠ .last have_) (hsc : Indexed sc)
    (hactive : ∀ i, 0 < sc.currentAllocation i → sc.phaseAllocation i ≠ 0) :
    StageRun env t sc (stage7 env sc) := by
  have hfilter := filterChargers_selected (fun i => decide (sc.currentAllocation i > 0)) sc
    hsc.count_le
  unfold stage7
  simp only
  split
  · exact ⟨hfilter.sameGroup, hfilter.steps⟩
  · rw [stage7Loop_eq_foldl]
    refine StageRun.select_foldl hsc (hfilter.sort _ _ hsc.count_le) Prod.snd _ (_, _) rfl
      fun b i _ hp hphases hcurrent => ?_
    have hpos := of_decide_eq_true hp
    exact stage7Charger_step hlast b.1 (hphases.trans_ne (hactive i hpos)) (hpos.trans_eq hcurrent.symm)

theorem stage8_run (nonCharging : Bool) (hsc : Indexed sc)
    (hactive : ∀ i, 0 < sc.currentAllocation i → sc.phaseAllocation i ≠ 0) :
    StageRun env t sc (stage8 env nonCharging sc) := by
  have hfilter := filterChargers_selected (fun i => decide (sc.currentAllocation i > 0) &&
    (nonCharging || (env.chargerState i).isCharging)) sc hsc.count_le
  refine StageRun.select_foldl hsc (hfilter.sort _ _ hsc.count_le) id (stage8Charger env nonCharging)
    _ rfl fun b i _ hp hphases hcurrent => ?_
  have hpos := of_decide_eq_true (Bool.and_eq_true _ _ |>.mp hp).1
  exact stage8Charger_step nonCharging (hphases.trans_ne (hactive i hpos))
    (hpos.trans_eq hcurrent.symm)

theorem stage9_run (hsc : Indexed sc) :
    StageRun env (.last (decide (sc.caState.controlWindowMin.pv ≠ 0))) sc (stage9 env sc) := by
  have hfilter := filterChargers_selected (fun i => decide (sc.phaseAllocation i = 0) &&
    ((env.chargerState i).wantsToChargeLowPriority ||
      ((env.chargerState i).wantsToCharge && (env.chargerState i).lastWakeup != 0))) sc
    hsc.count_le
  unfold stage9
  simp only
  split
  · exact ⟨hfilter.sameGroup, hfilter.steps⟩
  · refine StageRun.select_foldl hsc (hfilter.sort _ _ hsc.count_le) id (stage9Charger env _) _ rfl
      fun b i _ hp hphases _ => stage9Charger_step _ ?_
    exact hphases.trans (of_decide_eq_true (Bool.and_eq_true _ _ |>.mp hp).1)

end Esp32Firmware.ChargeManager
