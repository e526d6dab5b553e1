import Mathlib.Algebra.Order.BigOperators.Group.List
import Mathlib.Data.Multiset.Filter
import TransparentProxyNet.Lib.Allocation
import TransparentProxyNet.MemoryPool.SizeClass

/-! The pool as an allocator: what it promises to a caller that keeps count of its nodes. -/
namespace TransparentProxyNet.MemoryPool
open Heap Machine Allocation

/-- `mallocMemory` and `freeMemory` on whatever they are given, and a caller that writes
bytes somewhere. -/
def allocator (other : Int → Fin 4) : Allocator MemoryPool where
  take pool memorySize p pool' := ∃ (answer : Answer) (fuel : Nat),
    answer.Fresh pool.memoryBlockSize pool.heap ∧
      mallocMemory other fuel [answer] pool memorySize = some (p, pool')
  give pool p pool' := freeMemory pool p = some pool'
  write pool p k pool' := ∃ content, pool' = { pool with heap := pool.heap.fill p k content }

/-- The bytes that a caller may use in the node it gets. -/
def capacity (other : Int → Fin 4) (memorySize : Nat) : Nat := payload (sizeClass other memorySize)

/-- The addresses of the nodes of one class. -/
def nodesOfClass (other : Int → Fin 4) (i : Fin 4) (owned : Multiset Node) : Multiset Nat :=
  (owned.filter fun node => sizeClass other node.size = i).map Node.address

section
variable {S : Setting} {other : Int → Fin 4} {pool pool' : MemoryPool} {live : Fin 4 → List Nat}
  {owned rest : Multiset Node} {i : Fin 4} {p k size : Nat}

theorem nodesOfClass_self (own : sizeClass other size = i) :
    nodesOfClass other i (⟨p, size⟩ ::ₘ owned) = p ::ₘ nodesOfClass other i owned := by
  rw [nodesOfClass, Multiset.filter_cons_of_pos, Multiset.map_cons, nodesOfClass]
  exact own

theorem nodesOfClass_other (ne : sizeClass other size ≠ i) :
    nodesOfClass other i (⟨p, size⟩ ::ₘ owned) = nodesOfClass other i owned := by
  rw [nodesOfClass, Multiset.filter_cons_of_neg, nodesOfClass]
  exact ne

/-- The pool's nodes in use are those of the ledger, each once. -/
def InUse (other : Int → Fin 4) (live : Fin 4 → List Nat) (owned : Multiset Node) : Prop :=
  ∀ i, (live i : Multiset Nat) = nodesOfClass other i owned

theorem InUse.mem (inUse : InUse other live owned) (member : ⟨p, size⟩ ∈ owned) :
    p ∈ live (sizeClass other size) := by
  rw [← Multiset.mem_coe, inUse]
  exact Multiset.mem_map.mpr ⟨⟨p, size⟩, Multiset.mem_filter.mpr ⟨member, rfl⟩, rfl⟩

theorem InUse.take (inUse : InUse other live owned) (own : sizeClass other size = i) (p : Nat) :
    InUse other (Function.update live i (p :: live i)) (⟨p, size⟩ ::ₘ owned) := by
  intro j
  by_cases same : j = i
  · subst same
    rw [Function.update_self, nodesOfClass_self own, ← inUse]
    rfl
  · rw [Function.update_of_ne same, nodesOfClass_other fun eq => same (eq.symm.trans own), inUse]

theorem InUse.give (inUse : InUse other live (⟨p, size⟩ ::ₘ rest))
    (own : sizeClass other size = i) :
    InUse other (Function.update live i ((live i).erase p)) rest := by
  intro j
  by_cases same : j = i
  · subst same
    rw [Function.update_self, ← Multiset.coe_erase, inUse, nodesOfClass_self own,
      Multiset.erase_cons_head]
  · rw [Function.update_of_ne same, inUse, nodesOfClass_other fun eq => same (eq.symm.trans own)]

/-- There is always memory beyond the blocks. -/
theorem exists_fresh (h : Memory) (size : Nat) : ∃ answer : Answer, answer.Fresh size h := by
  refine ⟨⟨16 * ((h.blocks.map fun e => e.1 + e.2).sum + 1), fun _ => 0⟩, ?_, ?_, ?_⟩
  · dsimp only
    omega
  · exact Nat.dvd_mul_right ..
  · intro e member
    have below : e.1 + e.2 ≤ (h.blocks.map fun e => e.1 + e.2).sum :=
      List.le_sum_of_mem (List.mem_map.mpr ⟨e, member, rfl⟩)
    right
    dsimp only
    omega

/-- Bytes written into one node, cell after cell. -/
theorem reachable_fill (reachable : Reachable (Step other) (Built S) ⟨pool, live⟩)
    (member : p ∈ live i) (content : Nat → Nat) (room : k ≤ payload i) :
    Reachable (Step other) (Built S)
      ⟨{ pool with heap := pool.heap.fill p k content }, live⟩ := by
  induction k with
  | zero =>
      rw [Memory.fill_zero]
      exact reachable
  | succ k ih =>
      rw [Memory.fill_succ]
      refine (ih (by omega)).trace (.single (Step.write (i := i) (p := p) member ?_ ?_))
      · omega
      · rw [payload] at room
        omega

theorem PoolHolds.behind_head {run : Run} {chains : ∀ i, List (Block (S.geometry i))}
    (holds : PoolHolds S sizeClasses run chains) (member : p ∈ run.live i) : headSize ≤ p := by
  obtain ⟨B, -, x, -, rfl⟩ := holds.node member
  omega

/-- Payloads in use at one address are one payload. -/
theorem PoolHolds.class_unique {run : Run} {chains : ∀ i, List (Block (S.geometry i))}
    (holds : PoolHolds S sizeClasses run chains) {j : Fin 4} (mi : p ∈ run.live i)
    (mj : p ∈ run.live j) : i = j := by
  by_contra ne
  have apart := holds.apart mi mj fun eq => ne (congrArg Prod.fst eq)
  have filled := Setting.roomy i
  have filled' := Setting.roomy j
  simp only [Apart] at apart
  omega

/-- The pool has only been used as it should be, and its nodes in use are those of the
ledger. -/
def Accounted (S : Setting) (other : Int → Fin 4) (pool : MemoryPool) (owned : Multiset Node) :
    Prop :=
  ∃ live, Reachable (Step other) (Built S) ⟨pool, live⟩ ∧ InUse other live owned

theorem Accounted.take (accounted : Accounted S other pool owned)
    (answered : (allocator other).take pool size p pool') :
    (∀ node ∈ owned, node.address ≠ p) ∧ Accounted S other pool' (⟨p, size⟩ ::ₘ owned) := by
  obtain ⟨live, reachable, inUse⟩ := accounted
  obtain ⟨answer, fuel, fresh, returned⟩ := answered
  have reachable' := reachable.trace (.single (.mallocMemory fresh returned))
  refine ⟨?_, _, reachable', inUse.take rfl p⟩
  rintro ⟨q, k⟩ member rfl
  obtain ⟨chains, holds⟩ := reachable_holds reachable'
  have distinct := holds.distinct (sizeClass other size)
  have old := inUse.mem member
  by_cases same : sizeClass other k = sizeClass other size
  · rw [same] at old
    dsimp only at distinct
    rw [Function.update_self, List.nodup_cons] at distinct
    exact distinct.1 old
  · apply same
    apply holds.class_unique (p := q)
    · dsimp only
      rwa [Function.update_of_ne same]
    · dsimp only
      rw [Function.update_self]
      exact List.mem_cons_self

theorem Accounted.give (accounted : Accounted S other pool (⟨p, size⟩ ::ₘ rest))
    (answered : (allocator other).give pool p pool') : Accounted S other pool' rest := by
  obtain ⟨live, reachable, inUse⟩ := accounted
  have member := inUse.mem (Multiset.mem_cons_self _ _)
  exact ⟨_, reachable.trace (.single (.freeMemory member answered)), inUse.give rfl⟩

/-- What the pool promises. -/
def contract (S : Setting) (other : Int → Fin 4) : Contract (allocator other) (capacity other) where
  Holds := Accounted S other
  can_take := by
    rintro pool owned ⟨live, reachable, -⟩ size
    obtain ⟨chains, holds⟩ := reachable_holds reachable
    obtain ⟨answer, fresh⟩ := exists_fresh pool.heap pool.memoryBlockSize
    obtain ⟨fuel, p, pool', returned⟩ := (holds.sound other).mallocMemory size answer fresh
    exact ⟨p, pool', answer, fuel, fresh, returned⟩
  take := Accounted.take
  can_give := by
    rintro pool p size rest ⟨live, reachable, inUse⟩
    obtain ⟨chains, holds⟩ := reachable_holds reachable
    exact (holds.sound other).freeMemory _ p (inUse.mem (Multiset.mem_cons_self _ _))
  give := Accounted.give
  can_write := fun _ _ _ => ⟨_, fun _ => 0, rfl⟩
  write := by
    rintro pool p size owned k pool' ⟨live, reachable, inUse⟩ member room ⟨content, rfl⟩
    exact ⟨live, reachable_fill reachable (inUse.mem member) content room, inUse⟩

/-- No byte that may be used in one node of the ledger lies in another one. -/
theorem Accounted.apart (accounted : Accounted S other pool owned) {a b : Node} (ma : a ∈ owned)
    (mb : b ∈ owned) (ne : a.address ≠ b.address) :
    Apart (a.address, capacity other a.size) (b.address, capacity other b.size) := by
  obtain ⟨live, reachable, inUse⟩ := accounted
  obtain ⟨chains, holds⟩ := reachable_holds reachable
  have inA := inUse.mem ma
  have inB := inUse.mem mb
  have apart := holds.apart inA inB fun eq => ne (congrArg Prod.snd eq)
  have behind := holds.behind_head inA
  have behind' := holds.behind_head inB
  have filled := Setting.roomy (sizeClass other a.size)
  have filled' := Setting.roomy (sizeClass other b.size)
  simp only [Apart, capacity, payload] at *
  omega

end
end TransparentProxyNet.MemoryPool
