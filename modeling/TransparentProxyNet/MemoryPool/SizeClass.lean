import Mathlib.Tactic.IntervalCases
import TransparentProxyNet.MemoryPool.Runs

/-! Whether the class that `mallocMemory` picks has room for what it is asked for. The
packed table has an entry for every 256 bytes, up to the class of 2048 bytes. -/
namespace TransparentProxyNet.MemoryPool
open Heap Machine

/-- The bytes of a node behind its header. -/
def payload (i : Fin 4) : Nat := nodeSize i - headSize

theorem payload_bounds (i : Fin 4) : 256 ≤ payload i ∧ payload i ≤ 2048 := by
  revert i
  decide

/-- The entry of the table for a size that it covers. -/
theorem sizeClass_eq (other : Int → Fin 4) {k : Nat} (small : k < 4096) :
    sizeClass other k = ⟨(0x3FFA4 >>> (k / 256 * 2)) % 4, Nat.mod_lt _ (by decide)⟩ := by
  rw [sizeClass, if_pos (by omega)]
  simp only [Int.toNat_natCast, Nat.shiftRight_eq_div_pow k 8]

theorem le_payload (other : Int → Fin 4) {k : Nat} (small : k ≤ 2048) :
    k ≤ payload (sizeClass other k) := by
  rcases Nat.lt_or_eq_of_le small with less | rfl
  · obtain ⟨q, quotient⟩ : ∃ q, k / 256 = q := ⟨_, rfl⟩
    have bound : q < 8 := by omega
    rw [sizeClass_eq other (by omega), quotient, payload, nodeSize]
    interval_cases q <;> simp [headSize] <;> omega
  · rw [sizeClass_eq other (by omega)]
    decide

/-- Past the table no class is large enough. -/
theorem le_payload_iff (other : Int → Fin 4) {memorySize : Int} (positive : 1 ≤ memorySize) :
    memorySize ≤ payload (sizeClass other memorySize) ↔ memorySize ≤ 2048 := by
  constructor
  · intro fits
    have largest := (payload_bounds (sizeClass other memorySize)).2
    omega
  · intro small
    obtain ⟨k, rfl⟩ := Int.eq_ofNat_of_zero_le (Int.le_trans (by decide) positive)
    exact Int.ofNat_le.mpr (le_payload other (Int.ofNat_le.mp small))

/-- The payload at `p` is that of a node in use, in a block of the chain of the class `i`. -/
def LiveNode (S : Setting) (pool : MemoryPool) (i : Fin 4) (p : Nat) : Prop :=
  ∃ live chains, PoolHolds S sizeClasses ⟨pool, live⟩ chains ∧
    ∃ B ∈ chains i, ∃ x ∈ B.live, p = x + headSize

/-- `size` bytes from `p` on stay inside the node that has its payload there. -/
def StaysInNode (S : Setting) (pool : MemoryPool) (p size : Nat) : Prop :=
  ∃ i, LiveNode S pool i p ∧ Inside (p - headSize, (S.geometry i).nodeSize) p size

section
variable {S : Setting} {pool : MemoryPool} {p : Nat}

theorem LiveNode.inside_iff {i : Fin 4} (node : LiveNode S pool i p) (size : Nat) :
    Inside (p - headSize, (S.geometry i).nodeSize) p size ↔ size ≤ payload i := by
  obtain ⟨live, chains, -, B, -, x, -, rfl⟩ := node
  have roomy := Setting.roomy i
  simp only [Inside, Setting.geometry, payload]
  omega

/-- The bytes that were asked for stay inside the node, if it is of the class that the table
gives, exactly if the table covers the size. -/
theorem staysInNode_iff {other : Int → Fin 4} {memorySize : Int} (positive : 1 ≤ memorySize)
    (node : LiveNode S pool (sizeClass other memorySize) p) :
    StaysInNode S pool p memorySize.toNat ↔ memorySize ≤ 2048 := by
  constructor
  · rintro ⟨i, live, inside⟩
    have room := (live.inside_iff _).mp inside
    have largest := (payload_bounds i).2
    omega
  · intro small
    have room := (le_payload_iff other positive).mpr small
    exact ⟨_, node, (node.inside_iff _).mpr (by omega)⟩

end

/-- What is returned is a node of the class that the table gives. -/
theorem PoolHolds.malloc_liveNode {S : Setting} {run : Run}
    {chains : ∀ i, List (Block (S.geometry i))} (holds : PoolHolds S sizeClasses run chains)
    (other : Int → Fin 4) (memorySize : Int) {answer : Answer}
    (fresh : answer.Fresh S.size run.pool.heap) :
    ∃ fuel p pool', mallocMemory other fuel [answer] run.pool memorySize = some (p, pool') ∧
      LiveNode S pool' (sizeClass other memorySize) p := by
  obtain ⟨fuel, p, pool', bs', returned, holds', -⟩ := holds.malloc other memorySize fresh
  refine ⟨fuel, p, pool', returned, _, _, holds', holds'.node ?_⟩
  dsimp only
  rw [Function.update_self]
  exact List.mem_cons_self

/-- `mallocMemory` returns a node in use for every size, and the bytes that were asked for stay
inside that node exactly up to 2048 of them. -/
theorem allocation_large_enough_iff (other : Int → Fin 4) :
    ∀ S run, Reachable (Step other) (Built S) run → ∀ answer : Answer,
      answer.Fresh run.pool.memoryBlockSize run.pool.heap → ∀ memorySize : Int, 1 ≤ memorySize →
        ∃ fuel p pool', mallocMemory other fuel [answer] run.pool memorySize = some (p, pool') ∧
          (∃ i, LiveNode S pool' i p) ∧
          (StaysInNode S pool' p memorySize.toNat ↔ memorySize ≤ 2048) := by
  intro S run reachable answer fresh memorySize positive
  obtain ⟨chains, holds⟩ := reachable_holds reachable
  rw [holds.size] at fresh
  obtain ⟨fuel, p, pool', returned, node⟩ := holds.malloc_liveNode other memorySize fresh
  exact ⟨fuel, p, pool', returned, ⟨_, node⟩, staysInNode_iff positive node⟩

/-- The largest message that fits, out of a new pool. -/
theorem allocation_large_enough_2048 :
    ∃ run fuel p pool', Built megabytes run ∧
      mallocMemory (fun _ => 0) fuel [consecutive 4] run.pool 2048 = some (p, pool') ∧
      StaysInNode megabytes pool' p 2048 := by
  obtain ⟨run, built, -, fresh⟩ := exists_built
  obtain ⟨fuel, p, pool', returned, -, stays⟩ := allocation_large_enough_iff (fun _ => 0) megabytes
    run (.init built) (consecutive 4) fresh 2048 (by decide)
  exact ⟨run, fuel, p, pool', built, returned, stays.mpr (by decide)⟩

/-- A message of 2049 bytes, two segments, is given a node with room for 2048. -/
theorem long_message_overflows :
    ¬ ∀ (other : Int → Fin 4) S run, Reachable (Step other) (Built S) run → ∀ answer : Answer,
      answer.Fresh run.pool.memoryBlockSize run.pool.heap → ∀ memorySize : Int, 1 ≤ memorySize →
        ∀ fuel p pool', mallocMemory other fuel [answer] run.pool memorySize = some (p, pool') →
          StaysInNode S pool' p memorySize.toNat := by
  intro always
  obtain ⟨run, built, -, fresh⟩ := exists_built
  have reachable : Reachable (Step fun _ => 0) (Built megabytes) run := .init built
  obtain ⟨chains, holds⟩ := reachable_holds reachable
  obtain ⟨fuel, p, pool', returned, node⟩ :=
    holds.malloc_liveNode (fun _ => 0) 2049 (holds.size ▸ fresh)
  have stays := always _ _ run reachable _ fresh 2049 (by decide) fuel p pool' returned
  have small := (staysInNode_iff (by decide) node).mp stays
  exact absurd small (by decide)

end TransparentProxyNet.MemoryPool
