import Esp32Firmware.ChargeManager.AllocationStep

/-!
# Stages 1 to 5 as steps

Stages 1 to 5 change phases of chargers that have no current.
-/

namespace Esp32Firmware.ChargeManager

variable {n : Nat}

/-- Contexts that differ only in decisions of chargers of `g`, windows and the mode filter. -/
structure SameBooks (g : Fin n → Prop) (sc sc' : StageContext n) : Prop where
  idxArray : sc'.idxArray = sc.idxArray
  count : sc'.chargerCount = sc.chargerCount
  phases : sc'.phaseAllocation = sc.phaseAllocation
  current : sc'.currentAllocation = sc.currentAllocation
  limits : sc'.limits = sc.limits
  exceeded : sc'.exceeded = sc.exceeded
  decisions : ∀ i, ¬ g i → sc'.chargerDecisions i = sc.chargerDecisions i

namespace SameBooks

variable {env : StageEnv n} {t : Period} {g : Fin n → Prop} {i : Fin n} {a b c : StageContext n}

theorem refl (a : StageContext n) : SameBooks g a a :=
  ⟨rfl, rfl, rfl, rfl, rfl, rfl, fun _ _ => rfl⟩

theorem trans (h : SameBooks g a b) (h' : SameBooks g b c) : SameBooks g a c :=
  ⟨h'.1.trans h.1, h'.2.trans h.2, h'.3.trans h.3, h'.4.trans h.4, h'.5.trans h.5, h'.6.trans h.6,
    fun i hi => (h'.7 i hi).trans (h.7 i hi)⟩

theorem ite {p : Prop} [Decidable p] (h : SameBooks g a b) (h' : SameBooks g a c) :
    SameBooks g a (if p then b else c) := by
  split
  · exact h
  · exact h'

theorem mono {g' : Fin n → Prop} (hg : ∀ i, g i → g' i) (h : SameBooks g a b) : SameBooks g' a b :=
  { h with decisions := fun i hi => h.decisions i fun hgi => hi (hg i hgi) }

theorem sameGroup (h : SameBooks g a b) : SameGroup a b := .of_eq h.idxArray h.count

theorem steps (h : SameBooks g a b) : Steps env t g a b :=
  .context h.phases h.current h.limits h.exceeded h.decisions

theorem keep (h : SameBooks (· = i) a b) : AllocationStep env t i a b := by
  refine .keep ⟨h.idxArray, h.count, ?_, ?_, h.limits, h.decisions⟩ h.exceeded
  · rw [h.phases, Function.update_eq_self]
  · rw [h.current, Function.update_eq_self]

theorem foldl {β : Type*} (proj : β → StageContext n) (f : β → Fin n → β)
    (hf : ∀ b i, SameBooks g (proj b) (proj (f b i))) (l : List (Fin n)) (init : β) :
    SameBooks g (proj init) (proj (l.foldl f init)) := by
  induction l generalizing init with
  | nil => exact refl _
  | cons i rest ih => exact (hf init i).trans (ih (f init i))

end SameBooks

/-- Contexts that differ only in the decisions of a charger. -/
def Explained (i : Fin n) (sc sc' : StageContext n) : Prop :=
  ∃ f, sc' = sc.modifyDecision i f

theorem modifyDecision_id (sc : StageContext n) (i : Fin n) :
    sc = sc.modifyDecision i fun d => d := by
  rw [StageContext.modifyDecision, Function.update_eq_self]

namespace Explained

variable {i : Fin n} {a b c : StageContext n}

theorem refl (a : StageContext n) : Explained i a a := ⟨_, modifyDecision_id a i⟩

theorem trans (h : Explained i a b) (h' : Explained i b c) : Explained i a c := by
  obtain ⟨f, rfl⟩ := h
  obtain ⟨f', rfl⟩ := h'
  refine ⟨f' ∘ f, ?_⟩
  simp only [StageContext.modifyDecision, Function.update_self, Function.update_idem,
    Function.comp_apply]

theorem symm (h : Explained i a b) : Explained i b a := by
  obtain ⟨f, rfl⟩ := h
  refine ⟨fun _ => a.chargerDecisions i, ?_⟩
  simp only [StageContext.modifyDecision, Function.update_idem, Function.update_eq_self]

theorem ite {p : Prop} [Decidable p] (h : Explained i a b) (h' : Explained i a c) :
    Explained i a (if p then b else c) := by
  split
  · exact h
  · exact h'

/-- An explanation that may be left out. -/
theorem set {p : Prop} [Decidable p] (h : Explained i a b) (h' : Explained i b c) :
    Explained i a (if p then c else b) :=
  .ite (h.trans h') h

theorem sameBooks {g : Fin n → Prop} (h : Explained i a b) (mem : g i) : SameBooks g a b := by
  obtain ⟨f, rfl⟩ := h
  refine ⟨rfl, rfl, rfl, rfl, rfl, rfl, fun j hj => Function.update_of_ne ?_ _ _⟩
  rintro rfl
  exact hj mem

end Explained

section

variable (sc : StageContext n) (i : Fin n)

theorem explained_setZeroDecision (d : ZeroPhaseDecision) :
    Explained i sc (sc.setZeroDecision i d) := ⟨_, rfl⟩

theorem explained_setOneDecision (d : OnePhaseDecision) :
    Explained i sc (sc.setOneDecision i d) := ⟨_, rfl⟩

theorem explained_setThreeDecision (d : ThreePhaseDecision) :
    Explained i sc (sc.setThreeDecision i d) := ⟨_, rfl⟩

theorem explained_setCurrentDecision (d : CurrentDecision) :
    Explained i sc (sc.setCurrentDecision i d) := ⟨_, rfl⟩

theorem sameBooks_calculateWindow (env : StageEnv n) {g : Fin n → Prop} :
    SameBooks g sc (calculateWindow env sc) :=
  ⟨rfl, rfl, rfl, rfl, rfl, rfl, fun _ _ => rfl⟩

end

/-- A run of steps that change phases only. -/
structure PhaseRun (env : StageEnv n) (t : Period) (g : Fin n → Prop)
    (sc sc' : StageContext n) : Prop where
  sameGroup : SameGroup sc sc'
  steps : Steps env t g sc sc'
  current : sc'.currentAllocation = sc.currentAllocation
  limits : sc'.limits = sc.limits
  exceeded : sc'.exceeded = sc.exceeded

namespace PhaseRun

variable {env : StageEnv n} {t : Period} {g : Fin n → Prop} {a b c : StageContext n} {i : Fin n}

theorem of_sameBooks (h : SameBooks g a b) : PhaseRun env t g a b :=
  ⟨h.sameGroup, h.steps, h.current, h.limits, h.exceeded⟩

theorem of_explained (mem : g i) (h : Explained i a b) : PhaseRun env t g a b :=
  of_sameBooks (h.sameBooks mem)

theorem refl (a : StageContext n) : PhaseRun env t g a a := of_sameBooks (.refl a)

theorem trans (h : PhaseRun env t g a b) (h' : PhaseRun env t g b c) : PhaseRun env t g a c :=
  ⟨h.sameGroup.trans h'.sameGroup, h.steps.trans h'.steps, h'.current.trans h.current,
    h'.limits.trans h.limits, h'.exceeded.trans h.exceeded⟩

theorem ite {p : Prop} [Decidable p] (h : PhaseRun env t g a b) (h' : PhaseRun env t g a c) :
    PhaseRun env t g a (if p then b else c) := by
  split
  · exact h
  · exact h'

theorem mono {g' : Fin n → Prop} (hg : ∀ i, g i → g' i) (h : PhaseRun env t g a b) :
    PhaseRun env t g' a b :=
  { h with steps := h.steps.mono hg }

/-- Setting valid phases of a charger without current is a step. -/
theorem setPhases {phases : UInt8} (early : t.Early) (mem : g i)
    (idle : a.currentAllocation i = 0) (valid : phases = 0 ∨ phases = 1 ∨ phases = 3)
    (admissible : (env.chargerState i).Settled → Admissible env i phases) :
    PhaseRun env t g a (a.setPhases i phases) where
  sameGroup := .of_eq rfl rfl
  steps := .charger mem (.setPhases phases early
    ⟨rfl, rfl, rfl, (Function.update_eq_self i _).symm, rfl, fun _ _ => rfl⟩ rfl idle valid
    admissible)
  current := rfl
  limits := rfl
  exceeded := rfl

theorem shutDown (early : t.Early) (mem : g i) (idle : a.currentAllocation i = 0) :
    PhaseRun env t g a (a.setPhases i 0) :=
  setPhases early mem idle (Or.inl rfl) fun _ => Or.inl rfl

/-- In stage 1 an active charger without current keeps the phases it is connected to. -/
theorem connect (mem : g i) (active : a.phaseAllocation i ≠ 0) (idle : a.currentAllocation i = 0) :
    PhaseRun env .first g a (a.setPhases i (env.chargerState i).phases) where
  sameGroup := .of_eq rfl rfl
  steps := .charger mem (.connect rfl
    ⟨rfl, rfl, rfl, (Function.update_eq_self i _).symm, rfl, fun _ _ => rfl⟩ rfl active idle)
  current := rfl
  limits := rfl
  exceeded := rfl

theorem foldl {β : Type*} (proj : β → StageContext n) (f : β → Fin n → β) (l : List (Fin n))
    (init : β) (hstep : ∀ b, ∀ i ∈ l,
      (proj b).currentAllocation = (proj init).currentAllocation →
      PhaseRun env t g (proj b) (proj (f b i))) :
    PhaseRun env t g (proj init) (proj (l.foldl f init)) := by
  suffices h : ∀ b, (proj b).currentAllocation = (proj init).currentAllocation →
      PhaseRun env t g (proj b) (proj (l.foldl f b)) from h init rfl
  induction l with
  | nil => exact fun b _ => refl _
  | cons i rest ih =>
    intro b hb
    have hfirst := hstep b i List.mem_cons_self hb
    exact hfirst.trans (ih (fun b j hj => hstep b j (List.mem_cons_of_mem i hj)) (f b i)
      (hfirst.current.trans hb))

section

variable {p : Fin n → Bool} {matched : Nat} (h : Selected p a b matched)
include h

theorem of_selected : PhaseRun env t g a b := by
  obtain ⟨idx, hidx⟩ := h.context
  exact ⟨h.sameGroup, h.steps, by rw [hidx], by rw [hidx], by rw [hidx]⟩

/-- Selecting chargers without current, and a run that works on them. -/
theorem select (hzero : ∀ i ∈ a.group, a.currentAllocation i = 0)
    (hrun : (∀ i ∈ b.idxArray.take matched,
      (i ∈ a.group ∧ p i = true) ∧ b.currentAllocation i = 0) →
      PhaseRun env t (· ∈ a.group) b c) : PhaseRun env t (· ∈ a.group) a c := by
  have hselect : PhaseRun env t (· ∈ a.group) a b := .of_selected h
  refine hselect.trans (hrun fun i hi => ?_)
  have hmem := h.mem_iff.mp hi
  exact ⟨hmem, by rw [hselect.current, hzero i hmem.1]⟩

/-- A stage that selects chargers without current and loops over them. -/
theorem select_foldl {β : Type*} (proj : β → StageContext n) (f : β → Fin n → β) (init : β)
    (hinit : proj init = b) (hzero : ∀ i ∈ a.group, a.currentAllocation i = 0)
    (hstep : ∀ c i, i ∈ a.group ∧ p i = true → (proj c).currentAllocation i = 0 →
      PhaseRun env t (· ∈ a.group) (proj c) (proj (f c i))) :
    PhaseRun env t (· ∈ a.group) a (proj ((b.idxArray.take matched).foldl f init)) := by
  refine select h hzero fun hmem => ?_
  subst hinit
  refine foldl proj f _ init fun c i hi hc => ?_
  exact hstep c i (hmem i hi).1 (by rw [hc, (hmem i hi).2])

/-- A stage that selects chargers without current keeps a property if every iteration does while
the phases of its charger are untouched. -/
theorem select_induction
    (ha : Indexed a) (hzero : ∀ i ∈ a.group, a.currentAllocation i = 0) {β : Type*}
    (proj : β → StageContext n) (f : β → Fin n → β) (init : β) (hinit : proj init = b)
    {P : StageContext n → Prop}
    (hstep : ∀ c i, i ∈ a.group ∧ p i = true →
      (proj c).phaseAllocation i = a.phaseAllocation i → (proj c).currentAllocation i = 0 →
      PhaseRun env t (fun _ => True) a (proj c) → P (proj c) →
      PhaseRun env t (· = i) (proj c) (proj (f c i)) ∧ P (proj (f c i)))
    (hb : P b) : P (proj ((b.idxArray.take matched).foldl f init)) := by
  have hmem := fun i hi => (@Selected.mem_iff _ _ _ _ _ h i).mp hi
  have hnodup := h.nodup ha
  obtain ⟨idx, hidx⟩ := h.context
  generalize b.idxArray.take matched = l at hnodup hmem ⊢
  suffices hloop : ∀ c, (∀ i ∈ l, (proj c).phaseAllocation i = a.phaseAllocation i) →
      PhaseRun env t (fun _ => True) a (proj c) → P (proj c) → P (proj (l.foldl f c)) from
    hloop init (fun i _ => by rw [hinit, hidx]) (hinit ▸ of_selected h) (hinit ▸ hb)
  induction l with
  | nil => exact fun c _ _ hc => hc
  | cons i rest ih =>
    intro c hsame hrun hc
    obtain ⟨hnew, hrest⟩ := List.nodup_cons.mp hnodup
    have hi := hmem i List.mem_cons_self
    obtain ⟨hfirst, hnext⟩ := hstep c i hi (hsame i List.mem_cons_self)
      ((congrFun hrun.current i).trans (hzero i hi.1)) hrun hc
    refine ih hrest (fun j hj => hmem j (List.mem_cons_of_mem i hj)) (f c i) (fun j hj => ?_)
      (hrun.trans (hfirst.mono fun _ _ => trivial)) hnext
    have hji : j ≠ i := fun h => hnew (h ▸ hj)
    exact (hfirst.steps.outside hji).1.trans (hsame j (List.mem_cons_of_mem i hj))

end

end PhaseRun

variable {env : StageEnv n} {g : Fin n → Prop} {sc : StageContext n} {i : Fin n}

theorem stage1Charger_run (rotationAllowed : Bool) (waiting : WaitingChargers) (mem : g i)
    (idle : sc.currentAllocation i = 0) :
    PhaseRun env .first g sc (stage1Charger env rotationAllowed waiting sc i) := by
  unfold stage1Charger
  simp only
  split
  · exact .refl sc
  · next active =>
      refine .ite ?_ (.ite ?_ (.refl sc))
      · refine .trans (.of_explained mem (.ite (explained_setZeroDecision sc i _)
          (.ite (explained_setZeroDecision sc i _)
            (.ite (explained_setZeroDecision sc i _) (.refl sc))))) (.shutDown trivial mem ?_)
        split_ifs <;> exact idle
      · refine .trans (.of_explained mem (.ite
          ((explained_setThreeDecision sc i _).trans (explained_setOneDecision _ i _))
          (.ite ((explained_setOneDecision sc i _).trans (explained_setThreeDecision _ i _))
            (.refl sc)))) (.connect mem ?_ ?_)
        · split_ifs <;> exact active
        · split_ifs <;> exact idle

/-- The scan of stage 1 explains nothing for chargers that are off. -/
theorem sameBooks_stage1Scan (haveActiveChargers : Bool) (acc : StageContext n × WaitingChargers)
    (i : Fin n) : SameBooks (fun j => (env.chargerState j).off = false) acc.1
      (stage1Scan env haveActiveChargers acc i).1 := by
  unfold stage1Scan
  simp only
  split
  · exact .refl _
  · next hon =>
      refine Explained.sameBooks (i := i) ?_ (Bool.eq_false_iff.mpr hon)
      split <;> exact .ite (explained_setZeroDecision _ i _) (.refl _)

theorem sameBooks_decisionPreprocess (env : StageEnv n) (sc : StageContext n) :
    SameBooks (fun _ => True) sc (decisionPreprocess env sc) := by
  have hcharger : ∀ b i, Explained i b (decisionPreprocessCharger env b i) := by
    intro b i
    unfold decisionPreprocessCharger
    simp only
    refine (explained_setCurrentDecision b i _).trans (.ite ?_ ⟨_, rfl⟩)
    exact ((explained_setZeroDecision _ i _).trans (explained_setOneDecision _ i _)).trans
      (explained_setThreeDecision _ i _)
  have hfirst := SameBooks.foldl id (decisionPreprocessCharger env)
    (fun b i => (hcharger b i).sameBooks (g := fun _ => True) trivial) sc.numbered sc
  refine hfirst.trans (SameBooks.foldl id _ (fun b i => ?_) _ _)
  exact Explained.sameBooks (i := i) ⟨_, rfl⟩ trivial

theorem sameBooks_decisionPostprocess (sc : StageContext n) :
    SameBooks (fun _ => True) sc (decisionPostprocess sc) := by
  refine SameBooks.foldl id decisionPostprocessCharger (fun b i => ?_) _ sc
  refine Explained.sameBooks (i := i) ?_ trivial
  unfold decisionPostprocessCharger
  exact .set (.set (.set (.set (.set (.refl b) (explained_setThreeDecision _ i _))
    (explained_setOneDecision _ i _)) (explained_setZeroDecision _ i _))
    (explained_setOneDecision _ i _)) (explained_setThreeDecision _ i _)

/-- Stage 1 looks for waiting chargers and then loops over all chargers. -/
theorem stage1_eq_foldl (env : StageEnv n) (sc : StageContext n) :
    ∃ c rotationAllowed waiting, SameBooks (fun j => (env.chargerState j).off = false) sc c ∧
      stage1 env sc = c.numbered.foldl (stage1Charger env rotationAllowed waiting) c := by
  unfold stage1
  simp only
  generalize hscan : sc.numbered.foldl _ _ = scan
  have hbooks : SameBooks (fun j => (env.chargerState j).off = false) sc scan.1 := by
    rw [← hscan]
    exact SameBooks.foldl Prod.fst (stage1Scan env _) (fun acc i => sameBooks_stage1Scan _ acc i) _
      (sc, ⟨false, 0, 0⟩)
  refine ⟨_, _, scan.2, ?_, rfl⟩
  exact .ite (hbooks.trans ⟨rfl, rfl, rfl, rfl, rfl, rfl, fun _ _ => rfl⟩) hbooks

theorem stage1_run (env : StageEnv n) (hzero : ∀ i, sc.currentAllocation i = 0) :
    PhaseRun env .first (fun _ => True) sc (stage1 env sc) := by
  obtain ⟨c, rotationAllowed, waiting, hbooks, hstage⟩ := stage1_eq_foldl env sc
  rw [hstage]
  refine (PhaseRun.of_sameBooks (hbooks.mono fun _ _ => trivial)).trans
    (.foldl id _ _ c fun b i _ hcurrent => ?_)
  exact stage1Charger_run rotationAllowed waiting trivial
    (by rw [hcurrent, id, hbooks.current, hzero])

theorem mem_numbered (sc : StageContext n) (i : Fin n) :
    i ∈ sc.numbered ↔ i.val < sc.chargerCount := by
  unfold StageContext.numbered
  rw [List.mem_take_iff_getElem]
  constructor
  · rintro ⟨k, hk, rfl⟩
    simp at hk ⊢
    exact hk.1
  · intro hi
    exact ⟨i.val, by simp [hi], by simp⟩

theorem numbered_nodup (sc : StageContext n) : sc.numbered.Nodup :=
  (List.nodup_finRange n).sublist (List.take_sublist _ _)

/-- Stage 1 visits a charger once and touches it in no other iteration. -/
theorem stage1_visits (hcount : sc.chargerCount = n) (hzero : ∀ j, sc.currentAllocation j = 0)
    (i : Fin n) : ∃ rotationAllowed waiting c,
      ((env.chargerState i).off = true → c.chargerDecisions i = sc.chargerDecisions i) ∧
      (stage1 env sc).phaseAllocation i =
        (stage1Charger env rotationAllowed waiting c i).phaseAllocation i ∧
      (stage1 env sc).chargerDecisions i =
        (stage1Charger env rotationAllowed waiting c i).chargerDecisions i := by
  obtain ⟨start, rotationAllowed, waiting, hbooks, hstage⟩ := stage1_eq_foldl env sc
  have hmem : i ∈ start.numbered :=
    (mem_numbered start i).mpr (i.isLt.trans_eq (hbooks.count.trans hcount).symm)
  have hnodup := numbered_nodup start
  obtain ⟨before, after, hsplit⟩ := List.append_of_mem hmem
  rw [hsplit] at hnodup
  have hnew := (List.nodup_middle.mp hnodup).notMem
  have hloop : ∀ (l : List (Fin n)) (c : StageContext n), i ∉ l →
      (∀ j, c.currentAllocation j = 0) → PhaseRun env .first (· ≠ i) c
        (l.foldl (stage1Charger env rotationAllowed waiting) c) := by
    intro l c hl hc
    refine PhaseRun.foldl id _ l c fun b j hj hcurrent => ?_
    exact stage1Charger_run rotationAllowed waiting (ne_of_mem_of_not_mem hj hl)
      ((congrFun hcurrent j).trans (hc j))
  have hstart : ∀ j, start.currentAllocation j = 0 :=
    fun j => (congrFun hbooks.current j).trans (hzero j)
  have hbefore := hloop before start (fun h => hnew (List.mem_append_left _ h)) hstart
  generalize hc : before.foldl _ start = c at hbefore
  have hidle : ∀ j, c.currentAllocation j = 0 :=
    fun j => (congrFun hbefore.current j).trans (hstart j)
  have hvisit := @stage1Charger_run _ env (fun _ => True) c i rotationAllowed waiting trivial
    (hidle i)
  have hafter := hloop after (stage1Charger env rotationAllowed waiting c i)
    (fun h => hnew (List.mem_append_right _ h)) fun j => (congrFun hvisit.current j).trans (hidle j)
  have hself : ¬ i ≠ i := fun h => h rfl
  refine ⟨rotationAllowed, waiting, c, fun hoff => ?_, ?_, ?_⟩
  · rw [hbefore.steps.decisions_outside hself]
    exact hbooks.decisions i (by simp [hoff])
  · rw [hstage, hsplit, List.foldl_append, List.foldl_cons, hc, (hafter.steps.outside hself).1]
  · rw [hstage, hsplit, List.foldl_append, List.foldl_cons, hc,
      hafter.steps.decisions_outside hself]

/-- Stage 2 concerns only chargers that a vehicle was just plugged into. -/
theorem stage2Charger_run (mem : g i) (hplugged : wasJustPluggedIn (env.chargerState i) = true)
    (idle : sc.currentAllocation i = 0) : PhaseRun env .middle g sc (stage2Charger env sc i) := by
  have hunsettled : ¬ (env.chargerState i).Settled := by
    intro hi
    simp [wasJustPluggedIn, hi.justPluggedInTimestamp] at hplugged
  unfold stage2Charger
  simp only
  have hphases : ∀ b : Bool, PhaseRun env .middle g sc
      (if sc.phaseAllocation i = 0 then sc.setPhases i (if b then 3 else 1) else sc) := by
    intro b
    exact .ite (.setPhases trivial mem idle (by cases b <;> simp) fun hi => absurd hi hunsettled)
      (.refl sc)
  exact .ite ((hphases _).trans (.of_explained mem (explained_setThreeDecision _ i _)))
    ((hphases _).trans (.of_explained mem (explained_setOneDecision _ i _)))

theorem stage2_run (hsc : Indexed sc) (hzero : ∀ i ∈ sc.group, sc.currentAllocation i = 0) :
    PhaseRun env .middle (· ∈ sc.group) sc (stage2 env sc) := by
  have hsel := (filterChargers_selected (fun i => wasJustPluggedIn (env.chargerState i)) sc
    hsc.count_le).sort (fun _ => 0) (fun left right =>
      decide ((env.chargerState left).justPluggedInTimestamp <
        (env.chargerState right).justPluggedInTimestamp)) hsc.count_le
  exact .select_foldl hsel id (stage2Charger env) _ rfl hzero
    fun _ i hi hc => stage2Charger_run hi.1 hi.2 hc

theorem stage3ShutDown_run (mem : g i) (idle : sc.currentAllocation i = 0)
    (d : ZeroPhaseDecision) :
    PhaseRun env .middle g sc ((sc.setZeroDecision i d).setPhases i 0) :=
  .trans (.of_explained mem (explained_setZeroDecision sc i d)) (.shutDown trivial mem idle)

theorem stage3Phase_run (p : GridPhase) (l : List (Fin n)) (hl : ∀ i ∈ l, g i)
    (acc : Cost × StageContext n) (hzero : ∀ i ∈ l, acc.2.currentAllocation i = 0) :
    PhaseRun env .middle g acc.2 (stage3Phase env p l acc).2 := by
  induction l generalizing acc with
  | nil => exact .refl _
  | cons i rest ih =>
    obtain ⟨wndMin, sc⟩ := acc
    have hrest : ∀ i ∈ rest, g i := fun j hj => hl j (List.mem_cons_of_mem i hj)
    have hzero' : ∀ j ∈ rest, sc.currentAllocation j = 0 :=
      fun j hj => hzero j (List.mem_cons_of_mem i hj)
    unfold stage3Phase
    simp only
    split_ifs
    · exact .refl _
    · exact ih hrest (_, sc) hzero'
    · exact ih hrest (_, sc) hzero'
    · exact (stage3ShutDown_run (hl i List.mem_cons_self) (hzero i List.mem_cons_self) _).trans
        (ih hrest (_, _) hzero')

theorem stage3Pv_run (l : List (Fin n)) (hl : ∀ i ∈ l, g i) (acc : Cost × StageContext n)
    (hzero : ∀ i ∈ l, acc.2.currentAllocation i = 0) :
    PhaseRun env .middle g acc.2 (stage3Pv env l acc).2 := by
  induction l generalizing acc with
  | nil => exact .refl _
  | cons i rest ih =>
    obtain ⟨wndMin, sc⟩ := acc
    have hrest : ∀ i ∈ rest, g i := fun j hj => hl j (List.mem_cons_of_mem i hj)
    have hzero' : ∀ j ∈ rest, sc.currentAllocation j = 0 :=
      fun j hj => hzero j (List.mem_cons_of_mem i hj)
    have hdecision : ∀ d, PhaseRun env .middle g sc
        (stage3Pv env rest (wndMin, sc.setZeroDecision i d)).2 := fun d =>
      .trans (.of_explained (hl i List.mem_cons_self) (explained_setZeroDecision sc i d))
        (ih hrest (_, _) hzero')
    unfold stage3Pv
    simp only
    split_ifs
    · exact .refl _
    · exact ih hrest (_, sc) hzero'
    · exact ih hrest (_, sc) hzero'
    · exact ih hrest (_, sc) hzero'
    · exact hdecision _
    · exact hdecision _
    · exact (stage3ShutDown_run (hl i List.mem_cons_self) (hzero i List.mem_cons_self) _).trans
        (ih hrest (_, _) hzero')

theorem stage3Phases_run (phases : List GridPhase) (l : List (Fin n)) (hl : ∀ i ∈ l, g i)
    (acc : Cost × StageContext n) (hzero : ∀ i ∈ l, acc.2.currentAllocation i = 0) :
    PhaseRun env .middle g acc.2 (phases.foldl (fun acc p => stage3Phase env p l acc) acc).2 := by
  induction phases generalizing acc with
  | nil => exact .refl _
  | cons p rest ih =>
    have hfirst := @stage3Phase_run _ env g p l hl acc hzero
    refine hfirst.trans (ih (stage3Phase env p l acc) fun i hi => ?_)
    rw [hfirst.current, hzero i hi]

theorem stage3_run (hsc : Indexed sc) (hzero : ∀ i ∈ sc.group, sc.currentAllocation i = 0) :
    PhaseRun env .middle (· ∈ sc.group) sc (stage3 env sc) := by
  have hsel := (filterChargers_selected (fun i => decide (sc.phaseAllocation i > 0))
    (calculateWindow env sc) hsc.count_le).sort (stage3Group env) (stage3Compare env) hsc.count_le
  refine .trans (.of_sameBooks (sameBooks_calculateWindow sc env)) ?_
  refine PhaseRun.select hsel hzero fun hmem => ?_
  have hphases := @stage3Phases_run _ env (· ∈ sc.group) GridPhase.phases _
    (fun i hi => (hmem i hi).1.1) ((calculateWindow env sc).caState.controlWindowMin, _)
    fun i hi => (hmem i hi).2
  refine hphases.trans (stage3Pv_run _ (fun i hi => (hmem i hi).1.1) _ fun i hi => ?_)
  rw [hphases.current]
  exact (hmem i hi).2

theorem explained_canActivate (req : ActivationRequest) :
    Explained i sc (canActivate env sc i req).2 := by
  unfold canActivate
  simp only
  split
  · exact .ite (explained_setThreeDecision sc i _) (explained_setOneDecision sc i _)
  · split
    · exact .ite (explained_setThreeDecision sc i _) (explained_setOneDecision sc i _)
    · exact .refl sc

theorem explained_stage4Explain : Explained i sc (stage4Explain env sc i) :=
  ((((Explained.refl sc).set (explained_setOneDecision _ i _)).set
    (explained_setThreeDecision _ i _)).set (explained_setOneDecision _ i _)).set
    (explained_setThreeDecision _ i _)

/-- The phases that are tried for a charger. -/
def PhaseChoice.Tries (choice : PhaseChoice) (phases : UInt8) : Prop :=
  phases = 1 ∧ choice.try1p = true ∨ phases = 3 ∧ choice.try3p = true

theorem PhaseChoice.Tries.valid {choice : PhaseChoice} {phases : UInt8} (h : choice.Tries phases) :
    phases = 1 ∨ phases = 3 := h.imp And.left And.left

/-- Phases are tried only where they are admissible. -/
theorem PhaseChoice.Tries.admissible {phases : UInt8}
    (h : (phaseChoice env (env.chargerState i)).Tries phases) (hi : (env.chargerState i).Settled) :
    Admissible env i phases := by
  rcases h with ⟨rfl, htry⟩ | ⟨rfl, htry⟩
  · rcases hi.phases with hone | hthree
    · exact .inr (.inl hone.symm)
    · have hchoice : env.mayToggle i = true ∧ (env.chargerState i).phaseSwitchSupported = true := by
        simpa [phaseChoice, hthree, StageEnv.mayToggle] using htry
      exact .inr (.inr ⟨hchoice.2, hchoice.1⟩)
  · rcases hi.phases with hone | hthree
    · have hchoice : env.mayToggle i = true ∧ (env.chargerState i).phaseRotation = .unknown ∧
          (env.chargerState i).phaseSwitchSupported = true := by
        simpa [phaseChoice, hone, StageEnv.mayToggle] using htry
      exact .inr (.inr ⟨hchoice.2.2, hchoice.1⟩)
    · exact .inr (.inl hthree.symm)

/-- Stage 4 chooses no phases, or some that are tried and that can be activated. -/
theorem stage4Phases_cases (haveActiveChargers : Bool) :
    Explained i sc (stage4Phases env sc i haveActiveChargers).2 ∧
      ((stage4Phases env sc i haveActiveChargers).1 = 0 ∨
        (phaseChoice env (env.chargerState i)).Tries
            (stage4Phases env sc i haveActiveChargers).1 ∧
          ∃ b, Explained i sc b ∧ (tryActivate env b i
            ((stage4Phases env sc i haveActiveChargers).1 == 3) haveActiveChargers).1 = true) := by
  have htry : ∀ (b : StageContext n) (p activate3p : Bool),
      Explained i b
          (if p then tryActivate env b i activate3p haveActiveChargers else (false, b)).2 ∧
        ((if p then tryActivate env b i activate3p haveActiveChargers else (false, b)).1 = true →
          p = true ∧ (tryActivate env b i activate3p haveActiveChargers).1 = true) := by
    intro b p activate3p
    cases p
    · exact ⟨.refl b, fun h => by cases h⟩
    · exact ⟨explained_canActivate _, fun h => ⟨rfl, h⟩⟩
  unfold stage4Phases
  simp only
  have h3p := htry sc (phaseChoice env (env.chargerState i)).try3p true
  generalize (if (phaseChoice env (env.chargerState i)).try3p = true then _ else _ :
    Bool × StageContext n) = three at h3p ⊢
  have h1p := htry three.2 (phaseChoice env (env.chargerState i)).try1p false
  generalize (if (phaseChoice env (env.chargerState i)).try1p = true then _ else _ :
    Bool × StageContext n) = one at h1p ⊢
  obtain ⟨hexplained3, h3p⟩ := h3p
  obtain ⟨hexplained1, h1p⟩ := h1p
  split
  · next hthree =>
      obtain ⟨htried, hactivated⟩ := h3p hthree
      exact ⟨hexplained3.trans (explained_setThreeDecision _ i _),
        .inr ⟨.inr ⟨rfl, htried⟩, sc, .refl sc, hactivated⟩⟩
  · split
    · next hone =>
        obtain ⟨htried, hactivated⟩ := h1p hone
        exact ⟨(hexplained3.trans hexplained1).trans (explained_setOneDecision _ i _),
          .inr ⟨.inl ⟨rfl, htried⟩, three.2, hexplained3, hactivated⟩⟩
    · exact ⟨hexplained3.trans hexplained1, .inl rfl⟩

/-- Stage 4 only explains why a charger stays without phases, or activates it. -/
theorem stage4Charger_cases (acc : StageContext n × Bool) :
    ∃ c, Explained i acc.1 c ∧ ((stage4Charger env acc i).1 = c ∨
      (stage4Charger env acc i).1 = c.setPhases i 0 ∨
      ∃ phases b, (phaseChoice env (env.chargerState i)).Tries phases ∧ Explained i c b ∧
        (tryActivate env b i (phases == 3) acc.2).1 = true ∧
        (stage4Charger env acc i).1 = calculateWindow env (c.setPhases i phases)) := by
  obtain ⟨sc, haveActiveChargers⟩ := acc
  have hexplain : Explained i sc (stage4Explain env sc i) := explained_stage4Explain
  unfold stage4Charger
  simp only
  split
  · exact ⟨_, (hexplain.set (explained_setThreeDecision _ i _)).set
      (explained_setOneDecision _ i _), .inl rfl⟩
  · obtain ⟨htry, hcases⟩ := @stage4Phases_cases _ env (stage4Explain env sc i) i haveActiveChargers
    generalize stage4Phases env (stage4Explain env sc i) i haveActiveChargers = result at *
    refine ⟨result.2, hexplain.trans htry, .inr ?_⟩
    split
    · next hpos =>
        obtain hzero | ⟨htries, b, hb, hactivated⟩ := hcases
        · exact absurd hzero (UInt8.pos_iff_ne_zero.mp hpos)
        · exact .inr ⟨result.1, b, htries, htry.symm.trans hb, hactivated, rfl⟩
    · next hzero =>
        have hphases : result.1 = 0 := by
          by_contra hne
          exact hzero (UInt8.pos_iff_ne_zero.mpr hne)
        exact .inl (by rw [hphases])

theorem stage4Charger_run (acc : StageContext n × Bool) (mem : g i)
    (idle : acc.1.currentAllocation i = 0) :
    PhaseRun env .middle g acc.1 (stage4Charger env acc i).1 := by
  obtain ⟨c, hexplained, hcases⟩ := @stage4Charger_cases _ env i acc
  have hrun : PhaseRun env .middle g acc.1 c := .of_explained mem hexplained
  have hidle := (congrFun hrun.current i).trans idle
  obtain hsame | hzero | ⟨phases, b, htries, _, _, hset⟩ := hcases
  · rwa [hsame]
  · rw [hzero]
    exact hrun.trans (.shutDown trivial mem hidle)
  · rw [hset]
    exact (hrun.trans (.setPhases trivial mem hidle (.inr htries.valid) htries.admissible)).trans
      (.of_sameBooks (sameBooks_calculateWindow _ env))

theorem stage4_run (hsc : Indexed sc) (hzero : ∀ i ∈ sc.group, sc.currentAllocation i = 0) :
    PhaseRun env .middle (· ∈ sc.group) sc (stage4 env sc) := by
  have hsel := (filterChargers_selected (fun i => decide (sc.phaseAllocation i = 0) &&
    ((env.chargerState i).wantsToCharge || (env.chargerState i).isCharging))
    (calculateWindow env sc) hsc.count_le).sort (activationGroup env) (activationCompare env)
    hsc.count_le
  refine .trans (.of_sameBooks (sameBooks_calculateWindow sc env)) ?_
  exact .select_foldl hsel Prod.fst (stage4Charger env) (_, _) rfl hzero
    fun acc i hi hc => stage4Charger_run acc hi.1 hc

/-- Stage 5 only explains why a charger stays on one phase, or switches it to three. -/
theorem stage5Charger_cases (checkPvMin : Nat) :
    ∃ c, Explained i sc c ∧ (stage5Charger env checkPvMin sc i = c ∨
      env.mayToggle i = true ∧ (canActivate env sc i
        (phaseSwitchRequest env sc (env.chargerState i) checkPvMin)).1 = true ∧
      stage5Charger env checkPvMin sc i = calculateWindow env (c.setPhases i 3)) := by
  unfold stage5Charger
  simp only
  split
  · exact ⟨_, explained_setThreeDecision sc i _, .inl rfl⟩
  · next helapsed =>
      have htoggle : env.mayToggle i = true := by simpa [StageEnv.mayToggle] using helapsed
      have htry := @explained_canActivate _ env sc i
        (phaseSwitchRequest env sc (env.chargerState i) checkPvMin)
      split
      · exact ⟨_, explained_setThreeDecision sc i _, .inl rfl⟩
      · split
        · next hactivated =>
            exact ⟨_, htry.trans (explained_setThreeDecision _ i _),
              .inr ⟨htoggle, hactivated, rfl⟩⟩
        · exact ⟨_, htry, .inl rfl⟩

theorem stage5Charger_run (checkPvMin : Nat) (mem : g i)
    (hswitch : (env.chargerState i).phaseSwitchSupported = true)
    (idle : sc.currentAllocation i = 0) :
    PhaseRun env .middle g sc (stage5Charger env checkPvMin sc i) := by
  obtain ⟨c, hexplained, hcases⟩ := @stage5Charger_cases _ env sc i checkPvMin
  have hrun : PhaseRun env .middle g sc c := .of_explained mem hexplained
  obtain hsame | ⟨htoggle, _, hset⟩ := hcases
  · rwa [hsame]
  · rw [hset]
    exact (hrun.trans (.setPhases trivial mem ((congrFun hrun.current i).trans idle) (by simp)
      fun _ => .inr (.inr ⟨hswitch, htoggle⟩))).trans
      (.of_sameBooks (sameBooks_calculateWindow _ env))

theorem stage5_run (hsc : Indexed sc) (hzero : ∀ i ∈ sc.group, sc.currentAllocation i = 0) :
    PhaseRun env .middle (· ∈ sc.group) sc (stage5 env sc) := by
  have hsel := (filterChargers_selected (fun i => decide (sc.phaseAllocation i = 1) &&
    (env.chargerState i).phaseSwitchSupported) sc hsc.count_le).sort (activationGroup env)
    (activationCompare env) hsc.count_le
  exact .select_foldl hsel id (stage5Charger env _) _ rfl hzero
    fun _ i hi hc => stage5Charger_run _ hi.1 (Bool.and_eq_true _ _ |>.mp hi.2).2 hc

end Esp32Firmware.ChargeManager
