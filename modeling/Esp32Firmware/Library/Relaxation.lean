import Mathlib.Tactic

/-!
# Cheapest paths by relaxation in rank order

Every edge leads to a vertex of higher rank. Vertices are settled in the order of their
ranks: if a path to a vertex is known, its edges are relaxed. A vertex without a known
path has the cost `inf`, which no path reaches.
-/

namespace Esp32Firmware.Relaxation

variable {V W T : Type*}

structure Edge (V W T : Type*) where
  target : V
  weight : W
  tag : T

/-- The cost of every vertex and the tag of the edge over which it was reached. -/
structure Labels (V W T : Type*) where
  cost : V → W
  parent : V → T

section

variable [DecidableEq V] [Add W] [LinearOrder W]

/-- Use an edge out of `u` if it makes its target cheaper. -/
def relax (u : V) (l : Labels V W T) (e : Edge V W T) : Labels V W T :=
  if l.cost e.target > l.cost u + e.weight then
    { cost := Function.update l.cost e.target (l.cost u + e.weight)
      parent := Function.update l.parent e.target e.tag }
  else
    l

/-- Relax all edges out of a vertex that has been reached. -/
def settle (inf : W) (out : V → List (Edge V W T)) (l : Labels V W T) (u : V) : Labels V W T :=
  if l.cost u ≥ inf then l else (out u).foldl (relax u) l

end

/-- Only the start has been reached. -/
def Labels.initial [DecidableEq V] [Zero W] (inf : W) (s : V) (tag : T) : Labels V W T where
  cost := Function.update (fun _ => inf) s 0
  parent := fun _ => tag

/-- There is a path from `s` of this cost. -/
inductive Path [Add W] [Zero W] (out : V → List (Edge V W T)) (s : V) : V → W → Prop
  | start : Path out s s 0
  | step {u : V} {c : W} {e : Edge V W T} :
      Path out s u c → e ∈ out u → Path out s e.target (c + e.weight)

variable [DecidableEq V] [AddCommMonoid W] [LinearOrder W]
  {inf : W} {out : V → List (Edge V W T)} {s : V}

/-- The labels are right with respect to the settled vertices. -/
structure Invariant (inf : W) (out : V → List (Edge V W T)) (s : V) (reached settled : List V)
    (l : Labels V W T) : Prop where
  start : l.cost s = 0
  le_inf : ∀ v, l.cost v ≤ inf
  sound : ∀ v, l.cost v < inf → Path out s v (l.cost v)
  parent : ∀ v, l.cost v < inf → v = s ∨ ∃ u ∈ reached, l.cost u < inf ∧
    ∃ e ∈ out u, e.target = v ∧ e.tag = l.parent v ∧ l.cost v = l.cost u + e.weight
  relaxed : ∀ u ∈ settled, l.cost u < inf → ∀ e ∈ out u, l.cost e.target ≤ l.cost u + e.weight

theorem Invariant.initial (hinf : 0 ≤ inf) (tag : T) :
    Invariant inf out s [] [] (Labels.initial inf s tag) := by
  constructor
  · simp [Labels.initial]
  · intro v
    by_cases hv : v = s
    · subst hv
      simpa [Labels.initial] using hinf
    · simp [Labels.initial, Function.update_of_ne hv]
  · intro v hv
    by_cases hvs : v = s
    · subst hvs
      simpa [Labels.initial] using Path.start
    · simp [Labels.initial, Function.update_of_ne hvs] at hv
  · intro v hv
    by_cases hvs : v = s
    · exact .inl hvs
    · simp [Labels.initial, Function.update_of_ne hvs] at hv
  · intro u hu
    cases hu

theorem relax_cost_le (u : V) (l : Labels V W T) (e : Edge V W T) (v : V) :
    (relax u l e).cost v ≤ l.cost v := by
  rw [relax]
  split
  · next hlt =>
      by_cases hv : v = e.target
      · subst hv
        simpa using hlt.le
      · simp [Function.update_of_ne hv]
  · exact le_rfl

variable {u v : V} {l : Labels V W T} {e : Edge V W T} {reached settled : List V}

theorem relax_cost_of_ne (hv : v ≠ e.target) : (relax u l e).cost v = l.cost v := by
  rw [relax]
  split
  · simp [Function.update_of_ne hv]
  · rfl

theorem relax_cost_target (u : V) (l : Labels V W T) (e : Edge V W T) :
    (relax u l e).cost e.target ≤ l.cost u + e.weight := by
  rw [relax]
  split
  · simp
  · next hle => exact not_lt.mp hle

/-- Relaxing an edge that leads out of the settled vertices keeps the invariant. -/
theorem Invariant.relax (h : Invariant inf out s reached settled l) (hu : u ∈ reached)
    (hfin : l.cost u < inf) (he : e ∈ out u) (hs : e.target ≠ s) (hreached : e.target ∉ reached)
    (hsub : ∀ v ∈ settled, v ∈ reached) :
    Invariant inf out s reached settled (relax u l e) := by
  have hkeep : ∀ v ∈ reached, (Relaxation.relax u l e).cost v = l.cost v := by
    intro v hv
    apply relax_cost_of_ne
    intro heq
    exact hreached (heq ▸ hv)
  by_cases hlt : l.cost e.target > l.cost u + e.weight
  · have hrelax : Relaxation.relax u l e =
        { cost := Function.update l.cost e.target (l.cost u + e.weight)
          parent := Function.update l.parent e.target e.tag } := if_pos hlt
    have hlow : l.cost u + e.weight < inf := lt_of_lt_of_le hlt (h.le_inf e.target)
    constructor
    · rw [relax_cost_of_ne hs.symm, h.start]
    · intro v
      exact (relax_cost_le u l e v).trans (h.le_inf v)
    · intro v hv
      by_cases hvt : v = e.target
      · subst hvt
        have hcost : (Relaxation.relax u l e).cost e.target = l.cost u + e.weight := by
          simp [hrelax]
        rw [hcost]
        exact .step (h.sound u hfin) he
      · rw [relax_cost_of_ne hvt] at hv ⊢
        exact h.sound v hv
    · intro v hv
      by_cases hvt : v = e.target
      · subst hvt
        right
        refine ⟨u, hu, by rw [hkeep u hu]; exact hfin, e, he, rfl, ?_, ?_⟩
        · simp [hrelax]
        · rw [hkeep u hu]
          simp [hrelax]
      · have hv' : l.cost v < inf := by rwa [relax_cost_of_ne hvt] at hv
        rcases h.parent v hv' with heq | ⟨w, hw, hwfin, f, hf, htarget, htag, hcost⟩
        · exact .inl heq
        · right
          refine ⟨w, hw, by rw [hkeep w hw]; exact hwfin, f, hf, htarget, ?_, ?_⟩
          · rw [hrelax]
            simpa [Function.update_of_ne hvt] using htag
          · rw [relax_cost_of_ne hvt, hkeep w hw, hcost]
    · intro w hw hwfin f hf
      rw [hkeep w (hsub w hw)] at hwfin ⊢
      exact (relax_cost_le u l e f.target).trans (h.relaxed w hw hwfin f hf)
  · have hrelax : Relaxation.relax u l e = l := if_neg hlt
    rw [hrelax]
    exact h

/-- Relaxing edges out of `u` one by one. -/
theorem Invariant.foldl_relax (hu : u ∈ reached) (hsub : ∀ v ∈ settled, v ∈ reached)
    (edges : List (Edge V W T)) (h : Invariant inf out s reached settled l) (hfin : l.cost u < inf)
    (hedges : ∀ e ∈ edges, e ∈ out u ∧ e.target ≠ s ∧ e.target ∉ reached) :
    Invariant inf out s reached settled (edges.foldl (Relaxation.relax u) l) ∧
      (edges.foldl (Relaxation.relax u) l).cost u = l.cost u ∧
      (∀ v, (edges.foldl (Relaxation.relax u) l).cost v ≤ l.cost v) ∧
      ∀ e ∈ edges, (edges.foldl (Relaxation.relax u) l).cost e.target ≤ l.cost u + e.weight := by
  induction edges generalizing l with
  | nil =>
    refine ⟨h, rfl, fun _ => le_rfl, ?_⟩
    intro e he
    cases he
  | cons e rest ih =>
    obtain ⟨hout, hs, hreached⟩ := hedges e List.mem_cons_self
    have hcost : (Relaxation.relax u l e).cost u = l.cost u := by
      apply relax_cost_of_ne
      intro heq
      exact hreached (heq ▸ hu)
    obtain ⟨hinv, hsame, hle, hrelaxed⟩ :=
      ih (h.relax hu hfin hout hs hreached hsub) (by rw [hcost]; exact hfin)
        (fun f hf => hedges f (List.mem_cons_of_mem e hf))
    rw [List.foldl_cons]
    refine ⟨hinv, hsame.trans hcost, fun v => (hle v).trans (relax_cost_le u l e v), ?_⟩
    intro f hf
    rcases List.mem_cons.mp hf with heq | hrest
    · subst heq
      exact (hle f.target).trans (relax_cost_target u l f)
    · rw [← hcost]
      exact hrelaxed f hrest

/-- Settling a vertex whose edges lead to vertices that have not been settled. -/
theorem Invariant.settle (h : Invariant inf out s settled settled l)
    (hedges : ∀ e ∈ out u, e.target ≠ s ∧ e.target ≠ u ∧ e.target ∉ settled) :
    Invariant inf out s (u :: settled) (u :: settled) (settle inf out l u) := by
  have hgrow : Invariant inf out s (u :: settled) settled l := by
    refine ⟨h.start, h.le_inf, h.sound, ?_, h.relaxed⟩
    intro v hv
    rcases h.parent v hv with heq | ⟨w, hw, hrest⟩
    · exact .inl heq
    · exact .inr ⟨w, List.mem_cons_of_mem u hw, hrest⟩
  rw [Relaxation.settle]
  split
  · next hinf =>
      refine ⟨hgrow.start, hgrow.le_inf, hgrow.sound, hgrow.parent, ?_⟩
      intro w hw hwfin
      rcases List.mem_cons.mp hw with heq | hrest
      · subst heq
        exact absurd hwfin (not_lt.mpr hinf)
      · exact h.relaxed w hrest hwfin
  · next hfin =>
      obtain ⟨hinv, hsame, -, hrelaxed⟩ := Invariant.foldl_relax List.mem_cons_self
        (fun v hv => List.mem_cons_of_mem u hv) (out u) hgrow (not_le.mp hfin) (by
          intro e he
          obtain ⟨hs, hne, hnot⟩ := hedges e he
          exact ⟨he, hs, by simp [hne, hnot]⟩)
      refine ⟨hinv.start, hinv.le_inf, hinv.sound, hinv.parent, ?_⟩
      intro w hw hwfin e he
      rcases List.mem_cons.mp hw with heq | hrest
      · subst heq
        rw [hsame]
        exact hrelaxed e he
      · exact hinv.relaxed w hrest hwfin e he

/-- Settling vertices in the order of their ranks. -/
theorem Invariant.foldl_settle (rank : V → ℕ) (hrank : ∀ u, ∀ e ∈ out u, rank u < rank e.target)
    (hs : rank s = 0) (order : List V) (horder : order.Pairwise fun a b => rank a ≤ rank b)
    (h : Invariant inf out s settled settled l)
    (hbefore : ∀ a ∈ settled, ∀ b ∈ order, rank a ≤ rank b) :
    ∃ all : List V, (∀ v ∈ settled, v ∈ all) ∧ (∀ v ∈ order, v ∈ all) ∧
      Invariant inf out s all all (order.foldl (Relaxation.settle inf out) l) := by
  induction order generalizing settled l with
  | nil =>
    refine ⟨settled, fun v hv => hv, ?_, h⟩
    intro v hv
    cases hv
  | cons u rest ih =>
    obtain ⟨hfirst, hrest⟩ := List.pairwise_cons.mp horder
    have hedges : ∀ e ∈ out u, e.target ≠ s ∧ e.target ≠ u ∧ e.target ∉ settled := by
      intro e he
      have hup := hrank u e he
      refine ⟨?_, ?_, ?_⟩
      · intro heq
        rw [heq, hs] at hup
        omega
      · intro heq
        rw [heq] at hup
        omega
      · intro hin
        have := hbefore e.target hin u List.mem_cons_self
        omega
    obtain ⟨all, hold, hall, hinv⟩ := ih hrest (h.settle hedges) (by
      intro a ha b hb
      rcases List.mem_cons.mp ha with heq | hin
      · rw [heq]
        exact hfirst b hb
      · exact hbefore a hin b (List.mem_cons_of_mem u hb))
    refine ⟨all, fun v hv => hold v (List.mem_cons_of_mem u hv), ?_, hinv⟩
    intro v hv
    rcases List.mem_cons.mp hv with heq | htail
    · rw [heq]
      exact hold u List.mem_cons_self
    · exact hall v htail

variable [IsOrderedAddMonoid W]

omit [DecidableEq V] in
/-- Once every vertex with edges is settled, no path is cheaper than its label. -/
theorem Invariant.le_path {all : List V} (h : Invariant inf out s all all l)
    (hall : ∀ u, out u ≠ [] → u ∈ all) (hbound : ∀ v c, Path out s v c → c < inf) {c : W}
    (hpath : Path out s v c) : l.cost v ≤ c := by
  induction hpath with
  | start => exact h.start.le
  | @step u c e hu he ih =>
    have hmem : u ∈ all := hall u (List.ne_nil_of_mem he)
    have hfin : l.cost u < inf := lt_of_le_of_lt ih (hbound u c hu)
    calc l.cost e.target ≤ l.cost u + e.weight := h.relaxed u hmem hfin e he
      _ ≤ c + e.weight := by gcongr

end Esp32Firmware.Relaxation
