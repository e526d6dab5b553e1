import Mathlib.Algebra.Group.Fin.Basic
import Mathlib.Algebra.Ring.Nat
import Mathlib.Data.List.Basic
import Mathlib.Data.List.Nodup
import Mathlib.Logic.Function.Basic

/-! A ring of `n` slots, one of which is read at each tick. What matters to the
users of a timer is how many ticks an entry has to wait: `Due r t k`. -/
namespace SlotWheel

structure Slots (n : Nat) (T : Type*) where
  cur : Fin n
  slot : Fin n → List T

/-- No entry stands twice in the ring. -/
structure Slots.Distinct {n : Nat} {T : Type*} (r : Slots n T) : Prop where
  nodup : ∀ i, (r.slot i).Nodup
  disjoint : ∀ {i j t}, t ∈ r.slot i → t ∈ r.slot j → i = j

def Slots.remove {n : Nat} {T : Type*} [DecidableEq T] (r : Slots n T) (t : T) : Slots n T :=
  { r with slot := fun i => (r.slot i).erase t }

/-- `t` stands in no slot. -/
def Slots.Absent {n : Nat} {T : Type*} (r : Slots n T) (t : T) : Prop := ∀ i, t ∉ r.slot i

theorem Slots.Distinct.absent_remove {n : Nat} {T : Type*} [DecidableEq T] {r : Slots n T}
    (distinct : r.Distinct) (t : T) : (r.remove t).Absent t :=
  fun i => (distinct.nodup i).not_mem_erase

section
variable {n : Nat} [NeZero n] {T : Type*}

/-- The slot `k` places further round the ring. -/
def onward (c : Fin n) (k : Nat) : Fin n := c + Fin.ofNat n k

/-- Put `t` in front of the slot `k` places after the one to be read next. -/
def Slots.mount (r : Slots n T) (k : Nat) (t : T) : Slots n T :=
  { r with slot := Function.update r.slot (onward r.cur k) (t :: r.slot (onward r.cur k)) }

/-- Mount again, in the order in which they were run, the entries that asked for it. -/
def Slots.place (r : Slots n T) : List (T × Option Nat) → Slots n T
  | [] => r
  | (_, none) :: os => r.place os
  | (t, some k) :: os => (r.mount k t).place os

def Slots.emptied (r : Slots n T) : Slots n T :=
  { r with slot := Function.update r.slot r.cur [] }

/-- One tick, given what each entry of the current slot asked for when it ran. -/
def Slots.tick (r : Slots n T) (os : List (T × Option Nat)) : Slots n T :=
  { r.emptied.place os with cur := r.cur + 1 }

/-- `t` is run by the tick that follows `k` further ticks. -/
def Slots.Due (r : Slots n T) (t : T) (k : Nat) : Prop :=
  k < n ∧ t ∈ r.slot (onward r.cur k)

@[simp] theorem mount_cur (r : Slots n T) (k : Nat) (t : T) : (r.mount k t).cur = r.cur := rfl

@[simp] theorem place_cur (r : Slots n T) (os : List (T × Option Nat)) :
    (r.place os).cur = r.cur := by
  induction os generalizing r with
  | nil => rfl
  | cons o os ih =>
      obtain ⟨t, _ | k⟩ := o
      · exact ih r
      · exact (ih (r.mount k t)).trans (mount_cur r k t)

/-- The entries of `os` that land in slot `i` when the current slot is `c`. -/
def landing (c i : Fin n) (os : List (T × Option Nat)) : List T :=
  os.filterMap fun o => o.2.bind fun k => if onward c k = i then some o.1 else none

theorem mem_landing {c i : Fin n} {os : List (T × Option Nat)} {t : T} :
    t ∈ landing c i os ↔ ∃ k, (t, some k) ∈ os ∧ onward c k = i := by
  simp only [landing, List.mem_filterMap, Option.bind_eq_some_iff, Option.ite_none_right_eq_some,
    Option.some.injEq]
  constructor
  · rintro ⟨⟨u, o⟩, member, k, rfl, place, rfl⟩
    exact ⟨k, member, place⟩
  · rintro ⟨k, member, place⟩
    exact ⟨(t, some k), member, k, rfl, place, rfl⟩

/-- What a slot holds after the mounts: the newcomers, last one first, then the
old entries as they were. -/
theorem place_slot (r : Slots n T) (os : List (T × Option Nat)) (i : Fin n) :
    (r.place os).slot i = (landing r.cur i os).reverse ++ r.slot i := by
  induction os generalizing r with
  | nil => rfl
  | cons o os ih =>
      obtain ⟨t, _ | k⟩ := o
      · exact ih r
      · change ((r.mount k t).place os).slot i = _
        rw [ih, mount_cur]
        by_cases here : onward r.cur k = i
        · simp [landing, here, Slots.mount]
        · simp [landing, here, Slots.mount, Function.update_of_ne (Ne.symm here)]

theorem mem_tick {r : Slots n T} {os : List (T × Option Nat)} {t : T} {i : Fin n} :
    t ∈ (r.tick os).slot i ↔
      (∃ k, (t, some k) ∈ os ∧ onward r.cur k = i) ∨ (i ≠ r.cur ∧ t ∈ r.slot i) := by
  change t ∈ (r.emptied.place os).slot i ↔ _
  rw [place_slot, List.mem_append, List.mem_reverse, mem_landing]
  apply or_congr Iff.rfl
  by_cases here : i = r.cur
  · simp [Slots.emptied, here]
  · simp [Slots.emptied, here]

/-- A tick leaves in place and in order the entries it does not run. -/
theorem tick_kept {r : Slots n T} {os : List (T × Option Nat)} {p : T → Bool}
    (ran : ∀ o ∈ os, p o.1 = false) (drained : ∀ t ∈ r.slot r.cur, p t = false) (i : Fin n) :
    ((r.tick os).slot i).filter p = (r.slot i).filter p := by
  change ((r.emptied.place os).slot i).filter p = _
  have newcomers : (landing r.cur i os).reverse.filter p = [] := by
    rw [List.filter_eq_nil_iff]
    intro t member
    obtain ⟨k, asked, -⟩ := mem_landing.mp (List.mem_reverse.mp member)
    simp [ran _ asked]
  rw [place_slot, List.filter_append]
  change (landing r.cur i os).reverse.filter p ++ (r.emptied.slot i).filter p = _
  rw [newcomers, List.nil_append]
  by_cases here : i = r.cur
  · subst here
    have none_left : (r.slot r.cur).filter p = [] := by
      rw [List.filter_eq_nil_iff]
      exact fun t member => by simp [drained t member]
    simp [none_left, Slots.emptied]
  · simp [Slots.emptied, here]

theorem onward_zero (c : Fin n) : onward c 0 = c := by
  ext
  simp [onward, Fin.ofNat]

theorem onward_mod (c : Fin n) (k : Nat) : onward c (k % n) = onward c k := by
  ext
  simp [onward, Fin.ofNat]

theorem onward_succ (c : Fin n) (k : Nat) : onward c (k + 1) = onward (c + 1) k := by
  have shift : Fin.ofNat n (k + 1) = 1 + Fin.ofNat n k := by
    ext
    simp [Fin.ofNat, Fin.val_add, Nat.add_comm]
  rw [onward, onward, shift, add_assoc]

theorem onward_inj {c : Fin n} {j k : Nat} (hj : j < n) (hk : k < n)
    (same : onward c j = onward c k) : j = k := by
  have values := congrArg Fin.val (add_left_cancel same)
  simpa [Fin.ofNat, Nat.mod_eq_of_lt hj, Nat.mod_eq_of_lt hk] using values

theorem val_onward (c : Fin n) (k : Nat) : (onward c k).val = (c.val + k) % n := by
  simp [onward, Fin.ofNat, Fin.val_add]

/-! ### How long an entry waits -/

theorem Slots.Distinct.due_unique {r : Slots n T} (distinct : r.Distinct) {t : T} {j k : Nat}
    (hj : r.Due t j) (hk : r.Due t k) : j = k :=
  onward_inj hj.1 hk.1 (distinct.disjoint hj.2 hk.2)

theorem due_zero {r : Slots n T} {t : T} : r.Due t 0 ↔ t ∈ r.slot r.cur := by
  simp [Slots.Due, onward_zero, Nat.pos_of_neZero n]

/-- Every entry waits less than one turn of the ring. -/
theorem exists_due {r : Slots n T} {t : T} {i : Fin n} (member : t ∈ r.slot i) :
    ∃ k, r.Due t k := by
  refine ⟨(i - r.cur).val, (i - r.cur).isLt, ?_⟩
  have there : onward r.cur (i - r.cur).val = i := by simp [onward]
  rwa [there]

theorem due_mount (r : Slots n T) (k : Nat) (t : T) : (r.mount k t).Due t (k % n) := by
  refine ⟨Nat.mod_lt k (Nat.pos_of_neZero n), ?_⟩
  rw [onward_mod]
  simp [Slots.mount]

theorem due_mount_other {r : Slots n T} {t u : T} (other : u ≠ t) (k j : Nat) :
    (r.mount k t).Due u j ↔ r.Due u j := by
  apply and_congr Iff.rfl
  by_cases here : onward r.cur j = onward r.cur k
  · simp [Slots.mount, here, other]
  · simp [Slots.mount, Function.update_of_ne here]

theorem due_remove_other [DecidableEq T] {r : Slots n T} {t u : T} (other : u ≠ t) (j : Nat) :
    (r.remove t).Due u j ↔ r.Due u j :=
  and_congr Iff.rfl (List.mem_erase_of_ne other)

/-- A tick brings every entry it does not run one tick closer. -/
theorem Slots.Due.tick {r : Slots n T} {t : T} {j : Nat} (due : r.Due t (j + 1))
    (os : List (T × Option Nat)) : (r.tick os).Due t j := by
  have member : t ∈ r.slot (onward (r.cur + 1) j) := onward_succ r.cur j ▸ due.2
  refine ⟨Nat.lt_of_succ_lt due.1, mem_tick.mpr (.inr ⟨?_, member⟩)⟩
  intro back
  have whole : onward r.cur (j + 1) = onward r.cur 0 := by
    rw [onward_succ, onward_zero]
    exact back
  exact absurd (onward_inj due.1 (Nat.pos_of_neZero n) whole) (Nat.succ_ne_zero j)

/-- An entry that asks for `k + 1` slots further on waits for `k` ticks after this one. -/
theorem due_tick_again {r : Slots n T} {t : T} {k : Nat} {os : List (T × Option Nat)}
    (asked : (t, some (k + 1)) ∈ os) : (r.tick os).Due t (k % n) := by
  refine ⟨Nat.mod_lt k (Nat.pos_of_neZero n), mem_tick.mpr (.inl ⟨k + 1, asked, ?_⟩)⟩
  rw [onward_mod, onward_succ]
  rfl

theorem absent_tick {r : Slots n T} {t : T} {os : List (T × Option Nat)}
    (elsewhere : ∀ i, i ≠ r.cur → t ∉ r.slot i) (silent : ∀ k, (t, some k) ∉ os) :
    (r.tick os).Absent t := by
  intro i member
  rcases mem_tick.mp member with ⟨k, asked, _⟩ | ⟨away, old⟩
  · exact silent k asked
  · exact elsewhere i away old

theorem absent_mount_other {r : Slots n T} {t u : T} (absent : r.Absent u) (other : u ≠ t)
    (k : Nat) : (r.mount k t).Absent u := by
  intro i
  by_cases here : i = onward r.cur k
  · subst i
    simpa [Slots.mount, other] using absent _
  · simpa [Slots.mount, Function.update_of_ne here] using absent i

end
end SlotWheel
