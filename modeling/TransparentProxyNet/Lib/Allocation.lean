import Mathlib.Data.Multiset.AddSub
import Mathlib.Data.Multiset.MapFold

/-! Programs that take nodes from an allocator, write into them and give them back. A
ledger of the nodes that are owned shows that such a program goes through, whatever the
allocator answers. Nothing here depends on the allocator. -/
namespace Allocation

/-- A node that is owned, and how many bytes were asked for. -/
structure Node where
  address : Nat
  size : Nat
  deriving DecidableEq

inductive Script (β : Type) where
  | done (b : β)
  | take (size : Nat) (next : Nat → Script β)
  | give (p : Nat) (next : Script β)
  | write (p k : Nat) (next : Script β)

variable {β γ P : Type}

def Script.bind : Script β → (β → Script γ) → Script γ
  | .done b, f => f b
  | .take size next, f => .take size fun p => (next p).bind f
  | .give p next, f => .give p (next.bind f)
  | .write p k next, f => .write p k (next.bind f)

def Script.map (f : β → γ) (script : Script β) : Script γ := script.bind fun b => .done (f b)

/-! ### What an allocator does with a script -/

/-- How an allocator answers. `take h size p h'` hands out the node at `p`, and
`write h p k h'` puts anything into the `k` bytes from `p` on. -/
structure Allocator (P : Type) where
  take : P → Nat → Nat → P → Prop
  give : P → Nat → P → Prop
  write : P → Nat → Nat → P → Prop

inductive Allocator.Runs (M : Allocator P) : Script β → P → β → P → Prop
  | done (b : β) (h : P) : Runs M (.done b) h b h
  | take {size p : Nat} {next : Nat → Script β} {h h₁ h' : P} {b : β} :
      M.take h size p h₁ → Runs M (next p) h₁ b h' → Runs M (.take size next) h b h'
  | give {p : Nat} {next : Script β} {h h₁ h' : P} {b : β} :
      M.give h p h₁ → Runs M next h₁ b h' → Runs M (.give p next) h b h'
  | write {p k : Nat} {next : Script β} {h h₁ h' : P} {b : β} :
      M.write h p k h₁ → Runs M next h₁ b h' → Runs M (.write p k next) h b h'

/-- The script never gets stuck, and whatever the answers are, it ends as `Q` says. -/
def Allocator.Succeeds (M : Allocator P) : Script β → P → (β → P → Prop) → Prop
  | .done b, h, Q => Q b h
  | .take size next, h, Q =>
    (∃ p h', M.take h size p h') ∧ ∀ p h', M.take h size p h' → M.Succeeds (next p) h' Q
  | .give p next, h, Q => (∃ h', M.give h p h') ∧ ∀ h', M.give h p h' → M.Succeeds next h' Q
  | .write p k next, h, Q =>
    (∃ h', M.write h p k h') ∧ ∀ h', M.write h p k h' → M.Succeeds next h' Q

section
variable {M : Allocator P} {script : Script β} {h h' : P} {b : β} {Q Q' : β → P → Prop}

theorem Allocator.Succeeds.ends (succeeds : M.Succeeds script h Q) (runs : M.Runs script h b h') :
    Q b h' := by
  induction runs with
  | done b h => exact succeeds
  | take answered _ ih => exact ih (succeeds.2 _ _ answered)
  | give answered _ ih => exact ih (succeeds.2 _ answered)
  | write answered _ ih => exact ih (succeeds.2 _ answered)

theorem Allocator.Succeeds.exists_run (succeeds : M.Succeeds script h Q) :
    ∃ b h', M.Runs script h b h' := by
  induction script generalizing h with
  | done b => exact ⟨b, h, .done b h⟩
  | take size next ih =>
      obtain ⟨⟨p, h₁, answered⟩, rest⟩ := succeeds
      obtain ⟨b, h', runs⟩ := ih p (rest p h₁ answered)
      exact ⟨b, h', .take answered runs⟩
  | give p next ih =>
      obtain ⟨⟨h₁, answered⟩, rest⟩ := succeeds
      obtain ⟨b, h', runs⟩ := ih (rest h₁ answered)
      exact ⟨b, h', .give answered runs⟩
  | write p k next ih =>
      obtain ⟨⟨h₁, answered⟩, rest⟩ := succeeds
      obtain ⟨b, h', runs⟩ := ih (rest h₁ answered)
      exact ⟨b, h', .write answered runs⟩

theorem Allocator.Succeeds.mono (succeeds : M.Succeeds script h Q) (weaker : ∀ b h, Q b h → Q' b h) :
    M.Succeeds script h Q' := by
  induction script generalizing h with
  | done b => exact weaker b h succeeds
  | take size next ih => exact ⟨succeeds.1, fun p h' answered => ih p (succeeds.2 p h' answered)⟩
  | give p next ih => exact ⟨succeeds.1, fun h' answered => ih (succeeds.2 h' answered)⟩
  | write p k next ih => exact ⟨succeeds.1, fun h' answered => ih (succeeds.2 h' answered)⟩

/-- What is reached is reached by a run. -/
theorem Allocator.Succeeds.along (succeeds : M.Succeeds script h Q) :
    M.Succeeds script h fun b h' => M.Runs script h b h' ∧ Q b h' := by
  induction script generalizing h with
  | done b => exact ⟨.done b h, succeeds⟩
  | take size next ih =>
      refine ⟨succeeds.1, fun p h₁ answered => ?_⟩
      exact (ih p (succeeds.2 p h₁ answered)).mono fun b h' ends => ⟨.take answered ends.1, ends.2⟩
  | give p next ih =>
      refine ⟨succeeds.1, fun h₁ answered => ?_⟩
      exact (ih (succeeds.2 h₁ answered)).mono fun b h' ends => ⟨.give answered ends.1, ends.2⟩
  | write p k next ih =>
      refine ⟨succeeds.1, fun h₁ answered => ?_⟩
      exact (ih (succeeds.2 h₁ answered)).mono fun b h' ends => ⟨.write answered ends.1, ends.2⟩

end

/-! ### The ledger -/

/-- The script gives back and writes only what it owns, and writes no more than what a node
has room for. It ends with a result and a ledger as `Q` says. -/
def Balanced (capacity : Nat → Nat) :
    Script β → Multiset Node → (β → Multiset Node → Prop) → Prop
  | .done b, owned, Q => Q b owned
  | .take size next, owned, Q =>
    ∀ p, (∀ node ∈ owned, node.address ≠ p) → Balanced capacity (next p) (⟨p, size⟩ ::ₘ owned) Q
  | .give p next, owned, Q =>
    ∃ size rest, owned = ⟨p, size⟩ ::ₘ rest ∧ Balanced capacity next rest Q
  | .write p k next, owned, Q =>
    ∃ size, ⟨p, size⟩ ∈ owned ∧ k ≤ capacity size ∧ Balanced capacity next owned Q

section
variable {capacity : Nat → Nat} {script : Script β} {owned : Multiset Node}
  {Q : β → Multiset Node → Prop}

theorem Balanced.mono {Q' : β → Multiset Node → Prop} (balanced : Balanced capacity script owned Q)
    (weaker : ∀ b owned, Q b owned → Q' b owned) : Balanced capacity script owned Q' := by
  induction script generalizing owned with
  | done b => exact weaker b owned balanced
  | take size next ih => exact fun p fresh => ih p (balanced p fresh)
  | give p next ih =>
      obtain ⟨size, rest, split, balanced⟩ := balanced
      exact ⟨size, rest, split, ih balanced⟩
  | write p k next ih =>
      obtain ⟨size, member, room, balanced⟩ := balanced
      exact ⟨size, member, room, ih balanced⟩

theorem Balanced.bind {f : β → Script γ} {Q' : γ → Multiset Node → Prop}
    (balanced : Balanced capacity script owned Q)
    (rest : ∀ b owned, Q b owned → Balanced capacity (f b) owned Q') :
    Balanced capacity (script.bind f) owned Q' := by
  induction script generalizing owned with
  | done b => exact rest b owned balanced
  | take size next ih => exact fun p fresh => ih p (balanced p fresh)
  | give p next ih =>
      obtain ⟨size, left, split, balanced⟩ := balanced
      exact ⟨size, left, split, ih balanced⟩
  | write p k next ih =>
      obtain ⟨size, member, room, balanced⟩ := balanced
      exact ⟨size, member, room, ih balanced⟩

theorem Balanced.map {f : β → γ} {Q' : γ → Multiset Node → Prop}
    (balanced : Balanced capacity script owned Q)
    (result : ∀ b owned, Q b owned → Q' (f b) owned) :
    Balanced capacity (script.map f) owned Q' := balanced.bind result

/-- What a script does not own it leaves alone. -/
theorem Balanced.frame (balanced : Balanced capacity script owned Q) (other : Multiset Node) :
    Balanced capacity script (owned + other) fun b left =>
      ∃ owned', left = owned' + other ∧ Q b owned' := by
  induction script generalizing owned with
  | done b => exact ⟨owned, rfl, balanced⟩
  | take size next ih =>
      intro p fresh
      rw [← Multiset.cons_add]
      exact ih p (balanced p fun node member => fresh node (Multiset.mem_add.mpr (.inl member)))
  | give p next ih =>
      obtain ⟨size, rest, rfl, balanced⟩ := balanced
      exact ⟨size, rest + other, Multiset.cons_add .., ih balanced⟩
  | write p k next ih =>
      obtain ⟨size, member, room, balanced⟩ := balanced
      exact ⟨size, Multiset.mem_add.mpr (.inl member), room, ih balanced⟩

end

/-! ### Contracts -/

/-- What an allocator promises to callers that keep a ledger. -/
structure Contract (M : Allocator P) (capacity : Nat → Nat) where
  Holds : P → Multiset Node → Prop
  can_take : ∀ {h owned}, Holds h owned → ∀ size, ∃ p h', M.take h size p h'
  take : ∀ {h owned size p h'}, Holds h owned → M.take h size p h' →
    (∀ node ∈ owned, node.address ≠ p) ∧ Holds h' (⟨p, size⟩ ::ₘ owned)
  can_give : ∀ {h p size rest}, Holds h (⟨p, size⟩ ::ₘ rest) → ∃ h', M.give h p h'
  give : ∀ {h p size rest h'}, Holds h (⟨p, size⟩ ::ₘ rest) → M.give h p h' → Holds h' rest
  can_write : ∀ {h p size owned}, Holds h owned → ⟨p, size⟩ ∈ owned → ∀ k, ∃ h', M.write h p k h'
  write : ∀ {h p size owned k h'}, Holds h owned → ⟨p, size⟩ ∈ owned → k ≤ capacity size →
    M.write h p k h' → Holds h' owned

/-- Under any contract a ledger has each address at most once. -/
def Contract.distinct {M : Allocator P} {capacity : Nat → Nat} (C : Contract M capacity) :
    Contract M capacity where
  Holds h owned := C.Holds h owned ∧ (owned.map Node.address).Nodup
  can_take := fun holds => C.can_take holds.1
  take := by
    rintro h owned size p h' ⟨holds, nodup⟩ answered
    obtain ⟨fresh, holds'⟩ := C.take holds answered
    refine ⟨fresh, holds', ?_⟩
    rw [Multiset.map_cons, Multiset.nodup_cons]
    refine ⟨fun member => ?_, nodup⟩
    obtain ⟨node, old, same⟩ := Multiset.mem_map.mp member
    exact fresh node old same
  can_give := fun holds => C.can_give holds.1
  give := by
    rintro h p size rest h' ⟨holds, nodup⟩ answered
    rw [Multiset.map_cons, Multiset.nodup_cons] at nodup
    exact ⟨C.give holds answered, nodup.2⟩
  can_write := fun holds => C.can_write holds.1
  write := fun holds member room answered => ⟨C.write holds.1 member room answered, holds.2⟩

/-- A script whose ledger is balanced goes through, and the ledger is right at its end. -/
theorem Contract.succeeds {M : Allocator P} {capacity : Nat → Nat} (C : Contract M capacity)
    {script : Script β} {h : P} {owned : Multiset Node} {Q : β → Multiset Node → Prop}
    (holds : C.Holds h owned) (balanced : Balanced capacity script owned Q) :
    M.Succeeds script h fun b h' => ∃ owned', C.Holds h' owned' ∧ Q b owned' := by
  induction script generalizing h owned with
  | done b => exact ⟨owned, holds, balanced⟩
  | take size next ih =>
      refine ⟨C.can_take holds size, fun p h' answered => ?_⟩
      obtain ⟨fresh, holds'⟩ := C.take holds answered
      exact ih p holds' (balanced p fresh)
  | give p next ih =>
      obtain ⟨size, rest, rfl, balanced⟩ := balanced
      exact ⟨C.can_give holds, fun h' answered => ih (C.give holds answered) balanced⟩
  | write p k next ih =>
      obtain ⟨size, member, room, balanced⟩ := balanced
      exact ⟨C.can_write holds member k,
        fun h' answered => ih (C.write holds member room answered) balanced⟩

end Allocation
