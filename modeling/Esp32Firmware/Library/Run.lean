import Mathlib

/-!
# Runs of a labelled machine

A machine computes its next state from the current one and a label. A condition on
states and labels restricts the runs, an invariant is carried along the restricted ones.

A script issues operations one after the other, and what it issues depends on the state it finds.
The operations are atomic. An interruption can fall between any two of them, and what was done
before it stays.

A machine whose steps return something is seen through a function of its state. If every step looks
like the one of another machine, so does every run.
-/

namespace Esp32Firmware

variable {σ α : Type*} {step : σ → α → σ}

/-- The state after a sequence of labels. -/
def run (step : σ → α → σ) (s : σ) (labels : List α) : σ := labels.foldl step s

/-- Every label meets the condition in the state it is taken in. -/
def Meets (step : σ → α → σ) (ok : σ → α → Prop) (s : σ) : List α → Prop
  | [] => True
  | a :: rest => ok s a ∧ Meets step ok (step s a) rest

instance Meets.decidable (step : σ → α → σ) (ok : σ → α → Prop) [∀ s a, Decidable (ok s a)] :
    (s : σ) → (labels : List α) → Decidable (Meets step ok s labels)
  | _, [] => isTrue trivial
  | s, a :: rest => @instDecidableAnd _ _ _ (Meets.decidable step ok (step s a) rest)

theorem run_append (s : σ) (labels rest : List α) :
    run step s (labels ++ rest) = run step (run step s labels) rest := List.foldl_append

variable {I : σ → Prop} {labels : List α} {ok' : σ → α → Prop}

/-- An invariant of all steps holds after every run. -/
theorem run_invariant (hstep : ∀ s a, I s → I (step s a)) {s : σ} (hs : I s) (labels : List α) :
    I (run step s labels) := by
  induction labels generalizing s with
  | nil => exact hs
  | cons a rest ih => exact ih (hstep s a hs)

section

variable {ok : σ → α → Prop}

/-- An invariant of the steps that meet the condition holds after a run of them. -/
theorem Meets.invariant {I : σ → Prop}
    (hstep : ∀ s a, I s → ok s a → I (step s a)) {labels : List α} {s : σ}
    (h : Meets step ok s labels) (hs : I s) : I (run step s labels) := by
  induction labels generalizing s with
  | nil => exact hs
  | cons a rest ih => exact ih h.2 (hstep s a hs h.1)

/-- Along runs that keep an invariant two conditions may be exchanged that agree under it. -/
theorem Meets.congr_of_invariant (hok : ∀ s a, I s → (ok s a ↔ ok' s a))
    (hstep : ∀ s a, I s → ok s a → I (step s a)) {s : σ} (hs : I s) :
    Meets step ok s labels ↔ Meets step ok' s labels := by
  induction labels generalizing s with
  | nil => exact Iff.rfl
  | cons a rest ih =>
    constructor
    · rintro ⟨hfirst, hrest⟩
      exact ⟨(hok s a hs).mp hfirst, (ih (hstep s a hs hfirst)).mp hrest⟩
    · rintro ⟨hfirst, hrest⟩
      have hmet := (hok s a hs).mpr hfirst
      exact ⟨hmet, (ih (hstep s a hs hmet)).mpr hrest⟩

theorem Meets.and {s : σ} (h : Meets step ok s labels)
    (h' : Meets step ok' s labels) : Meets step (fun s a => ok s a ∧ ok' s a) s labels := by
  induction labels generalizing s with
  | nil => trivial
  | cons a rest ih => exact ⟨⟨h.1, h'.1⟩, ih h.2 h'.2⟩

/-- A condition may be weakened. -/
theorem Meets.mono (hok : ∀ s a, ok s a → ok' s a) {s : σ}
    (h : Meets step ok s labels) : Meets step ok' s labels := by
  induction labels generalizing s with
  | nil => trivial
  | cons a rest ih => exact ⟨hok s a h.1, ih h.2⟩

theorem Meets.append {rest : List α} {s : σ} (h : Meets step ok s (labels ++ rest)) :
    Meets step ok s labels ∧ Meets step ok (run step s labels) rest := by
  induction labels generalizing s with
  | nil => exact ⟨trivial, h⟩
  | cons a labels ih =>
    obtain ⟨hfirst, hrest⟩ := ih h.2
    exact ⟨⟨h.1, hfirst⟩, hrest⟩

end

/-- The operations a script issues, if it starts in a state. -/
abbrev Script (σ ω : Type*) := σ → List ω

namespace Script

variable {σ ω : Type*} (apply : σ → ω → σ)

/-- The state after the whole script. -/
def finish (script : Script σ ω) (s : σ) : σ := run apply s (script s)

/-- The state after an interruption that lets `n` operations pass. -/
def cut (n : Nat) (script : Script σ ω) (s : σ) : σ := run apply s ((script s).take n)

/-- The second script finds the state that the first one leaves. -/
def andThen (first rest : Script σ ω) : Script σ ω :=
  fun s => first s ++ rest (first.finish apply s)

/-- Some interruption of the script leaves this state. -/
def Reaches (script : Script σ ω) (s s' : σ) : Prop := ∃ n, s' = script.cut apply n s

variable {apply} {first rest script : Script σ ω} {s s' : σ}

theorem cut_of_length_le {n : Nat} (h : (script s).length ≤ n) :
    script.cut apply n s = script.finish apply s := by
  rw [cut, List.take_of_length_le h, finish]

theorem cut_zero : script.cut apply 0 s = s := rfl

theorem finish_andThen :
    (first.andThen apply rest).finish apply s = rest.finish apply (first.finish apply s) := by
  rw [finish, andThen, run_append]
  rfl

theorem cut_andThen_left {n : Nat} (h : n ≤ (first s).length) :
    (first.andThen apply rest).cut apply n s = first.cut apply n s := by
  rw [cut, andThen, List.take_append_of_le_length h, cut]

theorem cut_andThen_right (n : Nat) :
    (first.andThen apply rest).cut apply ((first s).length + n) s =
      rest.cut apply n (first.finish apply s) := by
  rw [cut, andThen, List.take_length_add_append, run_append]
  rfl

theorem length_andThen :
    (first.andThen apply rest s).length = (first s).length + (rest (first.finish apply s)).length :=
  List.length_append

theorem reaches_finish : script.Reaches apply s (script.finish apply s) :=
  ⟨(script s).length, (cut_of_length_le le_rfl).symm⟩

/-- What both scripts issue in every state is what they issue together. -/
theorem forall_mem_andThen {P : ω → Prop} (hfirst : ∀ s, ∀ op ∈ first s, P op)
    (hrest : ∀ s, ∀ op ∈ rest s, P op) (s : σ) :
    ∀ op ∈ first.andThen apply rest s, P op := by
  intro op hop
  rcases List.mem_append.mp hop with hop | hop
  · exact hfirst s op hop
  · exact hrest _ op hop

theorem run_invariant {I : σ → Prop} {ops : List ω}
    (hstep : ∀ t, ∀ op ∈ ops, I t → I (apply t op)) (hs : I s) : I (run apply s ops) := by
  induction ops generalizing s with
  | nil => exact hs
  | cons op rest ih =>
    exact ih (fun t op' hop => hstep t op' (List.mem_cons_of_mem _ hop))
      (hstep s op List.mem_cons_self hs)

/-- What every operation of a script keeps is kept wherever the script is interrupted. -/
theorem Reaches.invariant {I : σ → Prop} (h : script.Reaches apply s s')
    (hstep : ∀ t, ∀ op ∈ script s, I t → I (apply t op)) (hs : I s) : I s' := by
  obtain ⟨n, rfl⟩ := h
  exact run_invariant (fun t op hop => hstep t op (List.mem_of_mem_take hop)) hs

end Script

variable {σ τ α ρ : Type*} {step : σ → α → σ × ρ} {step' : τ → α → τ × ρ}

/-- The step of a machine without its reply. -/
def next (step : σ → α → σ × ρ) (s : σ) (call : α) : σ := (step s call).1

/-- What the calls of a sequence return. -/
def replies (step : σ → α → σ × ρ) : σ → List α → List ρ
  | _, [] => []
  | s, call :: rest => (step s call).2 :: replies step (next step s call) rest

variable {view : σ → τ} {calls : List α}

/-- Runs of steps that look like those of the other machine reach what it reaches and return what
it returns. -/
theorem Meets.simulates {ok : σ → α → Prop}
    (hstep : ∀ s call, ok s call → step' (view s) call = (view (next step s call), (step s call).2))
    {s : σ} (h : Meets (next step) ok s calls) :
    view (run (next step) s calls) = run (next step') (view s) calls ∧
      replies step s calls = replies step' (view s) calls := by
  induction calls generalizing s with
  | nil => exact ⟨rfl, rfl⟩
  | cons call rest ih =>
    have hview : next step' (view s) call = view (next step s call) :=
      congrArg Prod.fst (hstep s call h.1)
    have hreply : (step' (view s) call).2 = (step s call).2 :=
      congrArg Prod.snd (hstep s call h.1)
    obtain ⟨hstate, hrest⟩ := ih h.2
    constructor
    · rw [show run (next step') (view s) (call :: rest) =
        run (next step') (next step' (view s) call) rest from rfl, hview]
      exact hstate
    · rw [replies, replies, hreply, hview, hrest]

/-- If a step looks like the one of another machine exactly under a condition, then a run looks
like the other one all the time exactly if all its steps meet the condition. -/
theorem meets_iff_simulates {step : σ → α → σ} {step' : τ → α → τ} {ok : σ → α → Prop}
    (hstep : ∀ s, ∀ call ∈ calls, view (step s call) = step' (view s) call ↔ ok s call) (s : σ) :
    (∀ done, done <+: calls → view (run step s done) = run step' (view s) done) ↔
      Meets step ok s calls := by
  induction calls generalizing s with
  | nil =>
    refine ⟨fun _ => trivial, fun _ done hdone => ?_⟩
    rw [List.prefix_nil.mp hdone]
    rfl
  | cons call rest ih =>
    have hrest := ih (fun s c hc => hstep s c (List.mem_cons_of_mem _ hc)) (step s call)
    have hfirst := hstep s call List.mem_cons_self
    constructor
    · intro h
      have hview := h [call] ((List.prefix_append [call] rest))
      refine ⟨hfirst.mp hview, hrest.mp fun done hdone => ?_⟩
      rw [show view (step s call) = step' (view s) call from hview]
      exact h (call :: done) (List.cons_prefix_cons.mpr ⟨rfl, hdone⟩)
    · rintro ⟨hok, hmeets⟩ done hdone
      rcases List.prefix_cons_iff.mp hdone with rfl | ⟨done', rfl, hdone'⟩
      · rfl
      · have hview := hrest.mpr hmeets done' hdone'
        rw [hfirst.mpr hok] at hview
        exact hview

/-- A condition on the calls alone. -/
theorem Meets.of_forall {step : σ → α → σ} {ok : α → Prop} (h : ∀ call ∈ calls, ok call) (s : σ) :
    Meets step (fun _ => ok) s calls := by
  induction calls generalizing s with
  | nil => trivial
  | cons call rest ih =>
    exact ⟨h call List.mem_cons_self, ih (fun c hc => h c (List.mem_cons_of_mem _ hc)) _⟩

end Esp32Firmware
