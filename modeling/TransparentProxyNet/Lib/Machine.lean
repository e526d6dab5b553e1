import Mathlib.Algebra.Ring.Nat
import Mathlib.Data.List.Basic

/-! Finite runs of a labelled step relation, with the induction rules for
invariants. Nothing here depends on what the states or the events are. -/
namespace Machine

variable {σ ε : Type*}

/-- `Trace Step s es t`: the events `es`, taken in order, lead from `s` to `t`. -/
inductive Trace (Step : σ → ε → σ → Prop) : σ → List ε → σ → Prop
  | nil (s : σ) : Trace Step s [] s
  | cons {s t u : σ} {e : ε} {es : List ε} :
      Step s e t → Trace Step t es u → Trace Step s (e :: es) u

def Reachable (Step : σ → ε → σ → Prop) (Init : σ → Prop) (s : σ) : Prop :=
  ∃ s₀ es, Init s₀ ∧ Trace Step s₀ es s

/-- The steps that meet a condition on the state before them and the event. -/
def Guarded (G : σ → ε → Prop) (Step : σ → ε → σ → Prop) : σ → ε → σ → Prop :=
  fun s e t => Step s e t ∧ G s e

/-- The steps that do as `R` says. -/
def Obeying (R : σ → ε → σ → Prop) (Step : σ → ε → σ → Prop) : σ → ε → σ → Prop :=
  fun s e t => Step s e t ∧ R s e t

/-- The steps that lead to a state satisfying `P`. A `Trace` of them is a run in
which `P` holds in every state reached. -/
def Staying (P : σ → Prop) (Step : σ → ε → σ → Prop) : σ → ε → σ → Prop :=
  fun s e t => Step s e t ∧ P t

section
variable {Step : σ → ε → σ → Prop}

theorem Trace.append {s t u : σ} {es fs : List ε} (first : Trace Step s es t)
    (second : Trace Step t fs u) : Trace Step s (es ++ fs) u := by
  induction first with
  | nil => exact second
  | cons step _ ih => exact .cons step (ih second)

theorem Trace.single {s t : σ} {e : ε} (step : Step s e t) : Trace Step s [e] t :=
  .cons step (.nil t)

theorem Trace.mono {Step' : σ → ε → σ → Prop} (weaker : ∀ s e t, Step s e t → Step' s e t)
    {s t : σ} {es : List ε} (trace : Trace Step s es t) : Trace Step' s es t := by
  induction trace with
  | nil s => exact .nil s
  | cons step _ ih => exact .cons (weaker _ _ _ step) ih

/-- A machine whose steps are computed is run by computing them. -/
theorem Trace.of_foldlM {next : σ → ε → Option σ} (sound : ∀ s e t, next s e = some t → Step s e t)
    {s t : σ} {es : List ε} (run : es.foldlM next s = some t) : Trace Step s es t := by
  induction es generalizing s with
  | nil =>
      cases run
      exact .nil _
  | cons e es ih =>
      rw [List.foldlM_cons, Option.bind_eq_bind, Option.bind_eq_some_iff] at run
      obtain ⟨u, first, rest⟩ := run
      exact .cons (sound _ _ _ first) (ih rest)

/-- One step lemma carries an invariant over a whole run. -/
theorem Trace.invariant {I : σ → Prop} (preserved : ∀ s e t, I s → Step s e t → I t)
    {s t : σ} {es : List ε} (trace : Trace Step s es t) (start : I s) : I t := by
  induction trace with
  | nil => exact start
  | cons step _ ih => exact ih (preserved _ _ _ start step)

/-- The same for what holds of a state and of the events that led to it. -/
theorem Trace.log {I : List ε → σ → Prop}
    (preserved : ∀ es s e t, I es s → Step s e t → I (es ++ [e]) t)
    {s t : σ} {es fs : List ε} (trace : Trace Step s fs t) (start : I es s) : I (es ++ fs) t := by
  induction trace generalizing es with
  | nil => simpa using start
  | cons step _ ih =>
      have next := ih (preserved _ _ _ _ start step)
      rwa [List.append_assoc, List.singleton_append] at next

/-- A condition that events of one kind switch on, and nothing switches off. -/
theorem Trace.latch {P : σ → Prop} {G : ε → Prop} (set : ∀ s e t, Step s e t → (P t ↔ P s ∨ G e))
    {s t : σ} {es : List ε} (trace : Trace Step s es t) : P t ↔ P s ∨ ∃ e ∈ es, G e := by
  induction trace with
  | nil => simp
  | cons step _ ih => simp only [ih, set _ _ _ step, List.mem_cons, exists_eq_or_imp, or_assoc]

/-- What events of one kind bring about while an invariant lasts, and nothing undoes. -/
theorem Trace.latched {I P : σ → Prop} {G : ε → Prop}
    (preserved : ∀ s e t, I s → Step s e t → I t)
    (set : ∀ s e t, I s → Step s e t → P s ∨ G e → P t) {s t : σ} {es : List ε}
    (trace : Trace Step s es t) (start : I s) (now : P s ∨ ∃ e ∈ es, G e) : P t := by
  induction trace with
  | nil => simpa using now
  | cons step _ ih =>
      have next := set _ _ _ start step
      rw [List.exists_mem_cons_iff] at now
      apply ih (preserved _ _ _ start step)
      rcases now with before | here | later
      · exact .inl (next (.inl before))
      · exact .inl (next (.inr here))
      · exact .inr later

/-- A measure that no step raises, and that every event of one kind lowers, bounds how often
such events occur. -/
theorem Trace.countP_le {I : σ → Prop} {f : σ → Nat} {G : ε → Bool}
    (preserved : ∀ s e t, I s → Step s e t → I t)
    (lowers : ∀ s e t, I s → Step s e t → f t + (if G e then 1 else 0) ≤ f s)
    {s t : σ} {es : List ε} (trace : Trace Step s es t) (start : I s) :
    f t + es.countP G ≤ f s := by
  induction trace with
  | nil => simp
  | cons step _ ih =>
      have first := lowers _ _ _ start step
      have rest := ih (preserved _ _ _ start step)
      rw [List.countP_cons]
      omega

theorem Reachable.invariant {Init I : σ → Prop} (initially : ∀ s, Init s → I s)
    (preserved : ∀ s e t, I s → Step s e t → I t) {s : σ}
    (reachable : Reachable Step Init s) : I s := by
  obtain ⟨s₀, es, init, trace⟩ := reachable
  exact trace.invariant preserved (initially s₀ init)

theorem Reachable.mono {Step' : σ → ε → σ → Prop} {Init : σ → Prop}
    (weaker : ∀ s e t, Step s e t → Step' s e t) {s : σ} (reachable : Reachable Step Init s) :
    Reachable Step' Init s := by
  obtain ⟨s₀, es, init, trace⟩ := reachable
  exact ⟨s₀, es, init, trace.mono weaker⟩

theorem Reachable.init {Init : σ → Prop} {s : σ} (init : Init s) : Reachable Step Init s :=
  ⟨s, [], init, .nil s⟩

theorem Reachable.trace {Init : σ → Prop} {s t : σ} {es : List ε}
    (reachable : Reachable Step Init s) (trace : Trace Step s es t) : Reachable Step Init t := by
  obtain ⟨s₀, fs, init, first⟩ := reachable
  exact ⟨s₀, fs ++ es, init, first.append trace⟩

/-- A defect that shows at once: a step from an invariant state does as `R` says exactly
when it meets `G`. Then the steps of a run all do as `R` says exactly when they all meet
`G`. -/
theorem obeying_iff_guarded {R : σ → ε → σ → Prop} {I : σ → Prop} {G : σ → ε → Prop}
    (kept : ∀ s e t, I s → Step s e t → G s e → I t ∧ R s e t)
    (lost : ∀ s e t, I s → Step s e t → ¬ G s e → ¬ R s e t) {s t : σ} {es : List ε}
    (start : I s) : Trace (Obeying R Step) s es t ↔ Trace (Guarded G Step) s es t := by
  constructor
  · intro trace
    induction trace with
    | nil s => exact .nil s
    | @cons s t u e es step _ ih =>
        have good : G s e := by
          by_contra bad
          exact lost _ _ _ start step.1 bad step.2
        exact .cons ⟨step.1, good⟩ (ih (kept _ _ _ start step.1 good).1)
  · intro trace
    induction trace with
    | nil s => exact .nil s
    | cons step _ ih =>
        obtain ⟨next, done⟩ := kept _ _ _ start step.1 step.2
        exact .cons ⟨step.1, done⟩ (ih next)

/-- The same for a property of the states. -/
theorem staying_iff_guarded {P I : σ → Prop} {G : σ → ε → Prop}
    (kept : ∀ s e t, I s → Step s e t → G s e → I t) (sound : ∀ s, I s → P s)
    (lost : ∀ s e t, I s → Step s e t → ¬ G s e → ¬ P t) {s t : σ} {es : List ε} (start : I s) :
    Trace (Staying P Step) s es t ↔ Trace (Guarded G Step) s es t := by
  refine obeying_iff_guarded (R := fun _ _ t => P t) ?_ lost start
  intro s e t inv step good
  have next := kept s e t inv step good
  exact ⟨next, sound t next⟩

end
end Machine
