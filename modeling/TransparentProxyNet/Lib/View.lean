import Mathlib.Data.Option.Basic

/-! Functions that see their state only through a view of it. Two states that look
alike stay alike, whatever such functions do to them. -/
namespace View
variable {σ κ : Type*} {f : σ → κ} {g h : σ → Option σ} {s t : σ}

/-- `g` sees no more of a state than `f` leaves of it, and its result is only as good as
`f` shows it. -/
def Blind (f : σ → κ) (g : σ → Option σ) : Prop :=
  ∀ s t, f s = f t → (g s).map f = (g t).map f

theorem of_total {h : σ → σ} (same : ∀ s t, f s = f t → f (h s) = f (h t)) :
    Blind f fun s => some (h s) :=
  fun s t alike => congrArg some (same s t alike)

/-- One after the other. -/
theorem Blind.bind (first : Blind f g) (second : Blind f h) : Blind f fun s => (g s).bind h := by
  intro s t alike
  have mid := first s t alike
  cases left : g s with
  | none =>
      rw [left, Option.map_none, eq_comm, Option.map_eq_none_iff] at mid
      simp only [left, mid]
  | some u =>
      rw [left, Option.map_some, eq_comm, Option.map_eq_some_iff] at mid
      obtain ⟨v, right, same⟩ := mid
      simpa only [left, right, Option.bind_some] using second u v same.symm

theorem Blind.map (first : Blind f g) {h : σ → σ} (same : ∀ s t, f s = f t → f (h s) = f (h t)) :
    Blind f fun s => (g s).map h := by
  intro s t alike
  have both := first.bind (of_total same) s t alike
  simpa only [Option.map_eq_bind, Function.comp_def] using both

/-- What one of two like states can do, the other can. -/
theorem Blind.follows (blind : Blind f g) (alike : f s = f t) {s' : σ} (run : g s = some s') :
    ∃ t', g t = some t' ∧ f s' = f t' := by
  have both := blind s t alike
  rw [run, Option.map_some, eq_comm, Option.map_eq_some_iff] at both
  obtain ⟨t', other, same⟩ := both
  exact ⟨t', other, same.symm⟩

end View
