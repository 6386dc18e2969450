import Esp32Firmware.ChargeManager.AllocationRun

/-!
# The window fits the limits

The window minimum is what the active chargers of the group still need. Stage 3
shuts down chargers until it fits the raw limits, and the activations of stages 4
and 5 keep it there, so stage 6 can serve all active chargers.
-/

namespace Esp32Firmware.ChargeManager

variable {n : Nat}

/-- What a charger still needs on a grid phase. -/
def demand (env : StageEnv n) (sc : StageContext n) (i : Fin n) (p : GridPhase) : Int :=
  if 0 < sc.currentAllocation i then 0 else (sc.minimumCost env i).get p

/-- What the group still needs on a grid phase. -/
def window (env : StageEnv n) (sc : StageContext n) (p : GridPhase) : Int :=
  ∑ i with i ∈ sc.group, demand env sc i p

section

variable {env : StageEnv n} {sc sc' : StageContext n} {i : Fin n} {p : GridPhase}

theorem minimumCost_nonneg (env : StageEnv n) (sc : StageContext n) (i : Fin n) (p : GridPhase) :
    0 ≤ (sc.minimumCost env i).get p := by
  rw [minimumCost_get]
  exact Int.mul_nonneg (factor_nonneg _ _ p) (minimumCurrent_pos env.cfg _).le

theorem minimumCost_zero (h : sc.phaseAllocation i = 0) (p : GridPhase) :
    (sc.minimumCost env i).get p = 0 := by
  rw [minimumCost_get, StageContext.factors, h, getPhaseFactors_zero, Cost.get_zero, zero_mul]

theorem demand_nonneg (env : StageEnv n) (sc : StageContext n) (i : Fin n) (p : GridPhase) :
    0 ≤ demand env sc i p := by
  unfold demand
  split_ifs
  · exact le_rfl
  · exact minimumCost_nonneg env sc i p

theorem window_nonneg (env : StageEnv n) (sc : StageContext n) (p : GridPhase) :
    0 ≤ window env sc p :=
  Finset.sum_nonneg fun i _ => demand_nonneg env sc i p

theorem demand_le_window (hi : i ∈ sc.group) : demand env sc i p ≤ window env sc p :=
  Finset.single_le_sum (fun j _ => demand_nonneg env sc j p)
    (Finset.mem_filter.mpr ⟨Finset.mem_univ i, hi⟩)

/-- A charger that needs something on a grid phase may use it. -/
theorem mayUse_of_demand (hp : p ≠ .pv) (h : demand env sc i p ≠ 0) :
    MayUse (sc.phaseAllocation i) (env.chargerState i).phaseRotation p := by
  have hfactor : (sc.factors env i).get p ≠ 0 := by
    intro h0
    unfold demand at h
    rw [minimumCost_get, h0, zero_mul] at h
    split_ifs at h <;> exact h rfl
  unfold StageContext.factors at hfactor
  refine ⟨fun h0 => hfactor ?_, fun h1 hrot => ?_⟩
  · rw [h0, getPhaseFactors_zero, Cost.get_zero]
  · by_contra hne
    rw [h1, getPhaseFactors, if_neg (by decide), if_neg (by decide), if_neg hrot, Cost.get_set,
      if_neg hne] at hfactor
    exact hfactor (by cases p <;> first | rfl | exact absurd rfl hp)

/-- A change of one charger of the group changes the window by what it needs. -/
theorem window_update (hgroup : ∀ j, j ∈ sc'.group ↔ j ∈ sc.group) (hi : i ∈ sc.group)
    (hother : ∀ j, j ≠ i → demand env sc' j p = demand env sc j p) :
    window env sc' p = window env sc p - demand env sc i p + demand env sc' i p := by
  have hmem : i ∈ Finset.univ.filter (· ∈ sc.group) :=
    Finset.mem_filter.mpr ⟨Finset.mem_univ i, hi⟩
  unfold window
  simp only [hgroup]
  rw [← Finset.add_sum_erase _ _ hmem, ← Finset.add_sum_erase _ (fun j => demand env sc j p) hmem]
  have hrest : ∑ j ∈ (Finset.univ.filter (· ∈ sc.group)).erase i, demand env sc' j p =
      ∑ j ∈ (Finset.univ.filter (· ∈ sc.group)).erase i, demand env sc j p :=
    Finset.sum_congr rfl fun j hj => hother j (Finset.ne_of_mem_erase hj)
  rw [hrest]
  ring

theorem window_congr (hgroup : ∀ j, j ∈ sc'.group ↔ j ∈ sc.group)
    (hphases : sc'.phaseAllocation = sc.phaseAllocation)
    (hcurrent : sc'.currentAllocation = sc.currentAllocation) :
    window env sc' p = window env sc p := by
  unfold window demand StageContext.minimumCost
  simp only [hgroup, hphases, hcurrent]

end

section

variable {env : StageEnv n} {sc : StageContext n}

theorem windowMinimum_get (l : List (Fin n)) (acc : Cost × Cost) (p : GridPhase) :
    (windowMinimum env sc l acc).1.get p =
      acc.1.get p + (l.map fun i => demand env sc i p).sum := by
  induction l generalizing acc with
  | nil => simp [windowMinimum]
  | cons i rest ih =>
    obtain ⟨wndMin, wndMin1p⟩ := acc
    rw [windowMinimum, List.map_cons, List.sum_cons]
    unfold demand
    split_ifs with hcurrent hphases
    · rw [ih]
      unfold demand
      ring
    · rw [ih, Cost.get_add, minimumCost_get, minimumCurrent, if_pos hphases, Cost.get_scale]
      unfold demand StageContext.factors
      ring
    · rw [ih, Cost.get_add, minimumCost_get, minimumCurrent, if_neg hphases, Cost.get_scale]
      unfold demand StageContext.factors
      ring

theorem windowMinimum_window {l : List (Fin n)} (hnodup : l.Nodup)
    (hmem : ∀ i, i ∈ l ↔ i ∈ sc.group ∧ decide (sc.phaseAllocation i > 0) = true) (p : GridPhase) :
    (windowMinimum env sc l (0, 0)).1.get p = window env sc p := by
  rw [windowMinimum_get, Cost.get_zero, zero_add, ← List.sum_toFinset _ hnodup]
  refine Finset.sum_subset (fun i hi => ?_) fun i hi hout => ?_
  · rw [Finset.mem_filter]
    exact ⟨Finset.mem_univ i, ((hmem i).mp (List.mem_toFinset.mp hi)).1⟩
  · have hzero : sc.phaseAllocation i = 0 := by
      by_contra hne
      exact hout (List.mem_toFinset.mpr ((hmem i).mpr ⟨(Finset.mem_filter.mp hi).2,
        decide_eq_true (UInt8.pos_iff_ne_zero.mpr hne)⟩))
    unfold demand
    rw [minimumCost_zero hzero, ite_self]

/-- The control window holds what the group still needs. -/
theorem calculateWindow_get (hsc : Indexed sc) (p : GridPhase) :
    (calculateWindow env sc).caState.controlWindowMin.get p = window env sc p := by
  have hsel := filterChargers_selected (fun i => decide (sc.phaseAllocation i > 0)) sc
    hsc.count_le
  exact windowMinimum_window (hsel.nodup hsc) (fun i => hsel.mem_iff) p

end

/-- The window fits the raw limit of a grid phase, or nobody needs anything there. -/
def Fits (env : StageEnv n) (sc : StageContext n) (p : GridPhase) : Prop :=
  window env sc p ≤ sc.limits.raw.get p ∨ window env sc p = 0

/-- Chargers of the group are shut down, and nothing else. -/
structure ShutDown (sc sc' : StageContext n) : Prop where
  group : ∀ i, i ∈ sc'.group ↔ i ∈ sc.group
  current : sc'.currentAllocation = sc.currentAllocation
  limits : sc'.limits = sc.limits
  phases : ∀ i, sc'.phaseAllocation i = sc.phaseAllocation i ∨ sc'.phaseAllocation i = 0

namespace ShutDown

variable {env : StageEnv n} {sc sc' sc'' : StageContext n} {p : GridPhase}

theorem of_sameBooks {g : Fin n → Prop} (h : SameBooks g sc sc') : ShutDown sc sc' where
  group i := by rw [StageContext.group, StageContext.group, h.idxArray, h.count]
  current := h.current
  limits := h.limits
  phases i := Or.inl (congrFun h.phases i)

theorem of_explained {i : Fin n} (h : Explained i sc sc') : ShutDown sc sc' :=
  of_sameBooks (h.sameBooks (g := fun _ => True) trivial)

theorem refl (sc : StageContext n) : ShutDown sc sc :=
  of_sameBooks (g := fun _ => True) (.refl sc)

theorem trans (h : ShutDown sc sc') (h' : ShutDown sc' sc'') : ShutDown sc sc'' where
  group i := (h'.group i).trans (h.group i)
  current := h'.current.trans h.current
  limits := h'.limits.trans h.limits
  phases i := by
    rcases h'.phases i with hsame | hzero
    · rw [hsame]
      exact h.phases i
    · exact Or.inr hzero

theorem setPhases (sc : StageContext n) (i : Fin n) : ShutDown sc (sc.setPhases i 0) where
  group _ := Iff.rfl
  current := rfl
  limits := rfl
  phases j := by
    rcases eq_or_ne j i with rfl | hji
    · exact Or.inr (Function.update_self j _ _)
    · exact Or.inl (Function.update_of_ne hji _ _)

/-- A shut down charger needs nothing any more. -/
theorem window_le (h : ShutDown sc sc') : window env sc' p ≤ window env sc p := by
  unfold window
  simp only [h.group]
  refine Finset.sum_le_sum fun i _ => ?_
  unfold demand StageContext.minimumCost
  rw [h.current]
  rcases h.phases i with hsame | hzero
  · rw [hsame]
  · have hnone := @minimumCost_zero _ env sc' i hzero p
    unfold StageContext.minimumCost at hnone
    rw [hnone, ite_self]
    exact demand_nonneg env sc i p

theorem mayUse (h : ShutDown sc sc') {i : Fin n} {rot : PhaseRotation}
    (hmay : MayUse (sc'.phaseAllocation i) rot p) : MayUse (sc.phaseAllocation i) rot p := by
  rcases h.phases i with hsame | hzero
  · rwa [hsame] at hmay
  · exact absurd hzero hmay.1

end ShutDown

variable {env : StageEnv n}

/-- The window of stage 3 is kept up to date. -/
def Tracks (env : StageEnv n) (acc : Cost × StageContext n) : Prop :=
  ∀ q, acc.1.get q = window env acc.2 q

theorem Tracks.setPhases {wndMin : Cost} {sc : StageContext n} {i : Fin n}
    (h : Tracks env (wndMin, sc)) (hi : i ∈ sc.group) (hzero : sc.currentAllocation i = 0) :
    Tracks env (wndMin - sc.minimumCost env i, sc.setPhases i 0) := by
  intro q
  have hafter : demand env (sc.setPhases i 0) i q = 0 := by
    unfold demand
    rw [minimumCost_zero (Function.update_self i _ _), ite_self]
  have hbefore : demand env sc i q = (sc.minimumCost env i).get q := by
    unfold demand
    rw [hzero, if_neg (lt_irrefl 0)]
  have hother : ∀ j, j ≠ i → demand env (sc.setPhases i 0) j q = demand env sc j q := by
    intro j hji
    have hphases : (sc.setPhases i 0).phaseAllocation j = sc.phaseAllocation j :=
      Function.update_of_ne hji _ _
    unfold demand StageContext.minimumCost
    rw [hphases]
    rfl
  have hwindow := @window_update _ env sc (sc.setPhases i 0) i q (fun _ => Iff.rfl) hi hother
  have hold := h q
  simp only at hold
  rw [hwindow, hafter, hbefore, Cost.get_sub, hold, add_zero]

theorem Tracks.explained {wndMin : Cost} {sc sc' : StageContext n} {i : Fin n}
    (h : Tracks env (wndMin, sc)) (hsc : Explained i sc sc') : Tracks env (wndMin, sc') := by
  obtain ⟨f, rfl⟩ := hsc
  exact h

/-- The loop over one phase ends with the window within the limit, or with nobody left
who may use the phase. -/
theorem stage3Phase_spec (p : GridPhase) (l : List (Fin n)) (acc : Cost × StageContext n)
    (hl : ∀ i ∈ l, i ∈ acc.2.group) (hzero : ∀ i ∈ l, acc.2.currentAllocation i = 0)
    (htracks : Tracks env acc) :
    ShutDown acc.2 (stage3Phase env p l acc).2 ∧ Tracks env (stage3Phase env p l acc) ∧
      ((stage3Phase env p l acc).1.get p ≤ acc.2.limits.raw.get p ∨
        ∀ i ∈ l, ¬ MayUse ((stage3Phase env p l acc).2.phaseAllocation i)
          (env.chargerState i).phaseRotation p) := by
  induction l generalizing acc with
  | nil => exact ⟨.refl _, htracks, Or.inr (by simp)⟩
  | cons i rest ih =>
    obtain ⟨wndMin, sc⟩ := acc
    have hrest : ∀ j ∈ rest, j ∈ sc.group := fun j hj => hl j (List.mem_cons_of_mem i hj)
    have hzero' : ∀ j ∈ rest, sc.currentAllocation j = 0 :=
      fun j hj => hzero j (List.mem_cons_of_mem i hj)
    have hskip : ¬ MayUse (sc.phaseAllocation i) (env.chargerState i).phaseRotation p →
        ShutDown sc (stage3Phase env p rest (wndMin, sc)).2 ∧
        Tracks env (stage3Phase env p rest (wndMin, sc)) ∧
        ((stage3Phase env p rest (wndMin, sc)).1.get p ≤ sc.limits.raw.get p ∨
          ∀ j ∈ i :: rest, ¬ MayUse ((stage3Phase env p rest (wndMin, sc)).2.phaseAllocation j)
            (env.chargerState j).phaseRotation p) := by
      intro hnot
      obtain ⟨hshut, htracks', hfits⟩ := ih (wndMin, sc) hrest hzero' htracks
      refine ⟨hshut, htracks', hfits.imp_right fun hnone j hj => ?_⟩
      rcases List.mem_cons.mp hj with rfl | hj
      · exact fun hmay => hnot (hshut.mayUse hmay)
      · exact hnone j hj
    unfold stage3Phase
    simp only
    split_ifs with hfits hphases hother
    · exact ⟨.refl _, htracks, Or.inl hfits⟩
    · exact hskip fun hmay => hmay.1 hphases
    · exact hskip fun hmay => hother.2.2 (hmay.2 hother.1 hother.2.1)
    · have hdecision := explained_setZeroDecision sc i
        (.yesPhaseOverload (wndMin.get p - sc.limits.raw.get p) p.toNat)
      have hshut := (ShutDown.of_explained hdecision).trans (.setPhases _ i)
      have htracks1 := (htracks.explained hdecision).setPhases (hl i List.mem_cons_self)
        (hzero i List.mem_cons_self)
      obtain ⟨hshut', htracks', hfits'⟩ := ih (wndMin - sc.minimumCost env i, _)
        (fun j hj => (hshut.group j).mpr (hrest j hj)) hzero' htracks1
      refine ⟨hshut.trans hshut', htracks', hfits'.imp_right fun hnone j hj => ?_⟩
      rcases List.mem_cons.mp hj with rfl | hj
      · intro hmay
        exact (hshut'.mayUse hmay).1 (Function.update_self j _ _)
      · exact hnone j hj

theorem stage3Pv_spec (l : List (Fin n)) (acc : Cost × StageContext n) :
    ShutDown acc.2 (stage3Pv env l acc).2 := by
  induction l generalizing acc with
  | nil => exact .refl _
  | cons i rest ih =>
    obtain ⟨wndMin, sc⟩ := acc
    have hdecision : ∀ d, ShutDown sc (stage3Pv env rest (wndMin, sc.setZeroDecision i d)).2 :=
      fun d => .trans (.of_explained (explained_setZeroDecision sc i d)) (ih (_, _))
    unfold stage3Pv
    simp only
    split_ifs
    · exact .refl _
    · exact ih (_, sc)
    · exact ih (_, sc)
    · exact ih (_, sc)
    · exact hdecision _
    · exact hdecision _
    · exact .trans (.trans (.of_explained (explained_setZeroDecision sc i _)) (.setPhases _ i))
        (ih (_, _))

theorem stage3Phases_spec (phases : List GridPhase) (l : List (Fin n))
    (acc : Cost × StageContext n) (hl : ∀ i ∈ l, i ∈ acc.2.group)
    (hzero : ∀ i ∈ l, acc.2.currentAllocation i = 0) (htracks : Tracks env acc) :
    ShutDown acc.2 (phases.foldl (fun acc p => stage3Phase env p l acc) acc).2 ∧ ∀ p ∈ phases,
        window env (phases.foldl (fun acc p => stage3Phase env p l acc) acc).2 p ≤
            acc.2.limits.raw.get p ∨
          ∀ i ∈ l, ¬ MayUse
            ((phases.foldl (fun acc p => stage3Phase env p l acc) acc).2.phaseAllocation i)
            (env.chargerState i).phaseRotation p := by
  induction phases generalizing acc with
  | nil => exact ⟨.refl _, by simp⟩
  | cons q rest ih =>
    obtain ⟨hshut, htracks', hfits⟩ := stage3Phase_spec q l acc hl hzero htracks
    have hzero' : ∀ i ∈ l, (stage3Phase env q l acc).2.currentAllocation i = 0 := by
      intro i hi
      rw [hshut.current]
      exact hzero i hi
    obtain ⟨hshut', hfits'⟩ := ih (stage3Phase env q l acc)
      (fun i hi => (hshut.group i).mpr (hl i hi)) hzero' htracks'
    rw [List.foldl_cons]
    refine ⟨hshut.trans hshut', fun p hp => ?_⟩
    rcases List.mem_cons.mp hp with rfl | hp
    · refine hfits.imp (fun hle => ?_) fun hnone i hi hmay => hnone i hi (hshut'.mayUse hmay)
      rw [htracks'] at hle
      exact hshut'.window_le.trans hle
    · rw [← hshut.limits]
      exact hfits' p hp

theorem stage3Chargers_spec (l : List (Fin n)) (acc : Cost × StageContext n)
    (hl : ∀ i ∈ l, i ∈ acc.2.group) (hzero : ∀ i ∈ l, acc.2.currentAllocation i = 0)
    (htracks : Tracks env acc) {sc : StageContext n}
    (hsc : sc = (stage3Pv env l
      (GridPhase.phases.foldl (fun acc p => stage3Phase env p l acc) acc)).2) :
    ShutDown acc.2 sc ∧ ∀ p, p ≠ .pv → window env sc p ≤ sc.limits.raw.get p ∨
      ∀ i ∈ l, ¬ MayUse (sc.phaseAllocation i) (env.chargerState i).phaseRotation p := by
  obtain ⟨hshut, hfits⟩ := stage3Phases_spec GridPhase.phases l acc hl hzero htracks
  have hpv := @stage3Pv_spec _ env l
    (GridPhase.phases.foldl (fun acc p => stage3Phase env p l acc) acc)
  rw [← hsc] at hpv
  have hboth := hshut.trans hpv
  refine ⟨hboth, fun p hp => ?_⟩
  have hmem : p ∈ GridPhase.phases := by cases p <;> first | exact absurd rfl hp | decide
  rw [hboth.limits]
  exact (hfits p hmem).imp hpv.window_le.trans fun hnone i hi hmay =>
    hnone i hi (hpv.mayUse hmay)

/-- After stage 3 the window fits every raw limit, or nobody may use the phase. -/
theorem stage3_spec {sc : StageContext n} (hsc : Indexed sc)
    (hzero : ∀ i ∈ sc.group, sc.currentAllocation i = 0) {p : GridPhase} (hp : p ≠ .pv) :
    window env (stage3 env sc) p ≤ (stage3 env sc).limits.raw.get p ∨
      ∀ i ∈ sc.group, ¬ MayUse ((stage3 env sc).phaseAllocation i)
        (env.chargerState i).phaseRotation p := by
  have hsel := (filterChargers_selected (fun i => decide (sc.phaseAllocation i > 0))
    (calculateWindow env sc) hsc.count_le).sort (stage3Group env) (stage3Compare env) hsc.count_le
  have hmem := fun i => @Selected.mem_iff _ _ _ _ _ hsel i
  have hgroup := fun i => @SameGroup.mem_iff _ _ _ hsel.sameGroup i
  have hstart : Tracks env ((calculateWindow env sc).caState.controlWindowMin,
      sortChargersImpl (stage3Group env) (stage3Compare env)
        (filterChargers (fun i => decide (sc.phaseAllocation i > 0)) (calculateWindow env sc)).1
        (filterChargers (fun i => decide (sc.phaseAllocation i > 0))
          (calculateWindow env sc)).2) := by
    intro q
    refine (calculateWindow_get hsc q).trans (Eq.symm ?_)
    exact window_congr hgroup rfl rfl
  obtain ⟨hshut, hfits⟩ := @stage3Chargers_spec _ env _ _
    (fun i hi => (hgroup i).mpr ((hmem i).mp hi).1) (fun i hi => hzero i ((hmem i).mp hi).1) hstart
    (stage3 env sc) rfl
  refine (hfits p hp).imp_right fun hnone i hi hmay => ?_
  have hbefore := (hshut.mayUse hmay).1
  exact hnone i ((hmem i).mpr ⟨hi, decide_eq_true (UInt8.pos_iff_ne_zero.mpr hbefore)⟩) hmay

theorem afterStage3_spec {sc : StageContext n} (hsc : Fresh sc) {p : GridPhase} (hp : p ≠ .pv) :
    window env (afterStage3 env sc) p ≤ (afterStage3 env sc).limits.raw.get p ∨
      ∀ i, ¬ MayUse ((afterStage3 env sc).phaseAllocation i)
        (env.chargerState i).phaseRotation p := by
  have hprep := @afterStage1_prepared _ env _ hsc
  have hidx := hprep.fronted.indexed le_rfl
  have h2 := @stage2_run _ env _ hidx fun i _ => hprep.current i
  have hspec := @stage3_spec _ env _ (h2.sameGroup.indexed hidx)
    (fun i _ => by rw [h2.current]; exact hprep.current i) p hp
  unfold afterStage3
  refine hspec.imp_right fun hnone i hmay => ?_
  by_cases hmem : i ∈ (stage2 env (afterStage1 env sc)).group
  · exact hnone i hmem hmay
  · have hout : ¬ i ∈ (afterStage1 env sc).group := fun h => hmem (h2.sameGroup.mem_iff.mpr h)
    have hoff : (env.chargerState i).off = true := by
      by_contra hon
      exact hout ((hprep.fronted.mem_take i).mpr (Bool.eq_false_iff.mpr hon))
    have hsame := ((@afterStage3_run _ env _ hsc).steps.outside hout).1
    unfold afterStage3 at hsame
    exact hmay.1 (hsame.trans (hprep.off i hoff))

end Esp32Firmware.ChargeManager
