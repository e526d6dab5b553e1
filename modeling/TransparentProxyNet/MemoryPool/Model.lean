import TransparentProxyNet.Lib.Heap

/-! The memory pool of `memoryPool.cpp`, on the level of its addresses.

A `nodePointLinker` at `l` has `memoryBlockPoint` at `l`, `currentNodeNumber` at
`l + 8`, `nextNodePoint` at `l + 16` and `nextPoint` at `l + 24`; a
`nodePointLinkerHead` has `numberOfNode` and `nodeSize` in its first eight bytes and
its linker behind them. The first eight bytes of a node are the link of the free list
while the node is free, and the pointer to its linker while it is in use. A function
returns `none` where the code would leave the blocks it was given. -/
namespace TransparentProxyNet
open Heap

namespace MemoryPool

def BlockSize : Nat := 1024 * 1024

/-- `(sizeof(nodePointLinkerHead) + 15) & ~15`. -/
def alignedLinker : Nat := 48

/-- `sizeof(headPointAndData::head)`. -/
def headSize : Nat := 16

/-- The constructor's `nodeSize` for the class `i`. -/
def nodeSize (i : Fin 4) : Nat := 256 * 2 ^ i.val + headSize

/-- The constructor's `numberOfNode`: the 32 bits of an `int`. -/
def numberOfNode (memoryBlockSize : Nat) (i : Fin 4) : Nat :=
  ((memoryBlockSize - alignedLinker) / nodeSize i - 1) % 2 ^ 32

/-- The class that `mallocMemory` picks. A shift by a negative count, or by one that
is not below the width of `int`, is undefined; `other` says what comes of it. -/
def sizeClass (other : Int → Fin 4) (memorySize : Int) : Fin 4 :=
  if 0 ≤ memorySize ∧ memorySize < 4096 then
    ⟨(0x3FFA4 >>> ((memorySize.toNat >>> 8) * 2)) % 4, Nat.mod_lt _ (by decide)⟩
  else other memorySize

/-- What one call of `aligned_alloc` returns: an address, and what is there. -/
structure Answer where
  memoryAddr : Nat
  content : Nat → Nat

end MemoryPool

open MemoryPool

structure MemoryPool where
  memoryBlockSize : Nat
  nodePointHeadLinkerHead : Fin 4 → Nat
  heap : Memory

namespace MemoryPool

/-- The rounds of a loop that counts up to an `int` with these 32 bits: a negative one
gives none. -/
def rounds (numberOfNode : Nat) : Nat := if numberOfNode < 2 ^ 31 then numberOfNode else 0

/-- The loop of the linker's constructor. -/
def threadNodes (nodeSize : Nat) : Nat → Nat → Memory → Option Memory
  | 0, assistpoint, h => h.store assistpoint 8 0
  | n + 1, assistpoint, h => do
    let h ← h.store assistpoint 8 (assistpoint + nodeSize)
    let assistpoint ← h.load assistpoint 8
    threadNodes nodeSize n assistpoint h

/-- `nodePointLinker(memoryBlockPoint, numberOfNode, nodeSize)`, built at `this`. -/
def nodePointLinker (this memoryBlockPoint numberOfNode nodeSize : Nat) (h : Memory) :
    Option Memory := do
  let h ← h.store this 8 memoryBlockPoint
  let h ← h.store (this + 8) 4 0
  let h ← h.store (this + 16) 8 memoryBlockPoint
  let h ← h.store (this + 24) 8 0
  let h ← h.store (this + 8) 4 numberOfNode
  let assistpoint ← h.load this 8
  threadNodes nodeSize (rounds numberOfNode) assistpoint h

def nodePointLinkerHead (this memoryBlockPoint numberOfNode nodeSize : Nat) (h : Memory) :
    Option Memory := do
  let h ← h.store this 4 numberOfNode
  let h ← h.store (this + 4) 4 nodeSize
  nodePointLinker (this + 8) memoryBlockPoint numberOfNode nodeSize h

/-- One round of the constructor's loop. -/
def construct (answers : Fin 4 → Answer) (pool : MemoryPool) (i : Fin 4) : Option MemoryPool := do
  let memoryAddr := (answers i).memoryAddr
  let h := pool.heap.alloc (memoryAddr, pool.memoryBlockSize) (answers i).content
  let h ← nodePointLinkerHead memoryAddr (memoryAddr + alignedLinker)
    (numberOfNode pool.memoryBlockSize i)
    (nodeSize i) h
  return { pool with
    nodePointHeadLinkerHead := Function.update pool.nodePointHeadLinkerHead i memoryAddr
    heap := h }

/-- `memoryPool(n)`. The memory holds anything before. -/
def memoryPool (n : Nat) (answers : Fin 4 → Answer) (before : Nat → Nat) : Option MemoryPool :=
  [0, 1, 2, 3].foldlM (construct answers) ⟨BlockSize * n, fun _ => 0, ⟨before, []⟩⟩

def getNewMemoryBlock (memoryBlockSize : Nat) (answer : Answer) (point headPoint : Nat)
    (h : Memory) : Option Memory := do
  let memoryAddr := answer.memoryAddr
  let h := h.alloc (memoryAddr, memoryBlockSize) answer.content
  let numberOfNode ← h.load headPoint 4
  let nodeSize ← h.load (headPoint + 4) 4
  let h ← nodePointLinker memoryAddr (memoryAddr + alignedLinker) numberOfNode nodeSize h
  h.store (point + 24) 8 memoryAddr

/-- The test of the loop of `mallocMemory` for the end of the chain. -/
def growAtEnd (memoryBlockSize headPoint : Nat) (answers : List Answer) (point assistPoint : Nat)
    (h : Memory) : Option (List Answer × Nat × Memory) :=
  if assistPoint = 0 then
    match answers with
    | [] => none
    | answer :: answers =>
      (getNewMemoryBlock memoryBlockSize answer point headPoint h).map fun h => (answers, point, h)
  else some (answers, assistPoint, h)

/-- The loop of `mallocMemory`; it has no result when its fuel, or what `aligned_alloc`
answers during the call, is spent. -/
def mallocLoop (memoryBlockSize headPoint : Nat) :
    Nat → List Answer → Nat → Nat → Memory → Option (Nat × Memory)
  | 0, _, _, _, _ => none
  | fuel + 1, answers, point, assistPoint, h => do
    let (answers, assistPoint, h) ← growAtEnd memoryBlockSize headPoint answers point assistPoint h
    let currentNodeNumber ← h.load (assistPoint + 8) 4
    if currentNodeNumber ≠ 0 then
      let h ← h.store (assistPoint + 8) 4 (currentNodeNumber - 1)
      let retPoint ← h.load (assistPoint + 16) 8
      let nextNodePoint ← h.load retPoint 8
      let h ← h.store (assistPoint + 16) 8 nextNodePoint
      let h ← h.store retPoint 8 assistPoint
      return (retPoint + headSize, h)
    else
      let nextPoint ← h.load (assistPoint + 24) 8
      mallocLoop memoryBlockSize headPoint fuel answers assistPoint nextPoint h

def mallocMemory (other : Int → Fin 4) (fuel : Nat) (answers : List Answer) (pool : MemoryPool)
    (memorySize : Int) : Option (Nat × MemoryPool) :=
  let headPoint := pool.nodePointHeadLinkerHead (sizeClass other memorySize)
  let assistPoint := headPoint + 8
  (mallocLoop pool.memoryBlockSize headPoint fuel answers assistPoint assistPoint pool.heap).map
    fun (retPoint, h) => (retPoint, { pool with heap := h })

def freeMemory (pool : MemoryPool) (point : Nat) : Option MemoryPool := do
  let assistPoint := point - headSize
  let h := pool.heap
  let linker ← h.load assistPoint 8
  let currentNodeNumber ← h.load (linker + 8) 4
  let h ← h.store (linker + 8) 4 (currentNodeNumber + 1)
  let point ← h.load (linker + 16) 8
  let h ← h.store (linker + 16) 8 assistPoint
  let h ← h.store assistPoint 8 point
  return { pool with heap := h }

/-- The `while` loop of `freeOldMemoryBlock`. -/
def freeLoop (numberOfNode : Nat) : Nat → Nat → Nat → Memory → Option Memory
  | 0, _, _, _ => none
  | fuel + 1, assistPoint, point, h =>
    if point = 0 then some h
    else do
      let currentNodeNumber ← h.load (point + 8) 4
      let nextPoint ← h.load (point + 24) 8
      if currentNodeNumber = numberOfNode then
        let h ← h.store (assistPoint + 24) 8 nextPoint
        let h ← h.free point
        let point ← h.load (assistPoint + 24) 8
        freeLoop numberOfNode fuel assistPoint point h
      else
        let assistPoint ← h.load (assistPoint + 24) 8
        freeLoop numberOfNode fuel assistPoint nextPoint h

def freeOldClass (fuel : Nat) (pool : MemoryPool) (i : Fin 4) : Option MemoryPool := do
  let headPoint := pool.nodePointHeadLinkerHead i
  let assistPoint := headPoint + 8
  let point ← pool.heap.load (assistPoint + 24) 8
  let numbeOfNode ← pool.heap.load headPoint 4
  let h ← freeLoop numbeOfNode fuel assistPoint point pool.heap
  return { pool with heap := h }

def freeOldMemoryBlock (fuel : Nat) (pool : MemoryPool) : Option MemoryPool :=
  [0, 1, 2, 3].foldlM (freeOldClass fuel) pool

/-! ### More fuel changes nothing once a loop has returned -/

theorem mallocLoop_mono {memoryBlockSize headPoint fuel more point assistPoint : Nat}
    {answers : List Answer} {h : Memory} {out : Nat × Memory} (le : fuel ≤ more)
    (done : mallocLoop memoryBlockSize headPoint fuel answers point assistPoint h = some out) :
    mallocLoop memoryBlockSize headPoint more answers point assistPoint h = some out := by
  induction fuel generalizing more answers point assistPoint h with
  | zero => cases done
  | succ fuel ih =>
      obtain ⟨more, rfl⟩ : ∃ n, more = n + 1 := ⟨more - 1, by omega⟩
      simp only [mallocLoop, Option.bind_eq_bind, Option.bind_eq_some_iff] at done ⊢
      obtain ⟨t, grown, number, loaded, rest⟩ := done
      refine ⟨t, grown, number, loaded, ?_⟩
      split at rest
      · rwa [if_pos ‹_›]
      · rw [if_neg ‹_›]
        obtain ⟨next, linked, rest⟩ := Option.bind_eq_some_iff.mp rest
        exact Option.bind_eq_some_iff.mpr ⟨next, linked, ih (Nat.le_of_succ_le_succ le) rest⟩

theorem mallocMemory_mono {other : Int → Fin 4} {fuel more : Nat} {answers : List Answer}
    {pool : MemoryPool} {memorySize : Int} {out : Nat × MemoryPool} (le : fuel ≤ more)
    (done : mallocMemory other fuel answers pool memorySize = some out) :
    mallocMemory other more answers pool memorySize = some out := by
  simp only [mallocMemory, Option.map_eq_some_iff] at done ⊢
  obtain ⟨result, returned, eq⟩ := done
  exact ⟨result, mallocLoop_mono le returned, eq⟩

theorem freeLoop_mono {numberOfNode fuel more assistPoint point : Nat} {h h' : Memory}
    (le : fuel ≤ more) (done : freeLoop numberOfNode fuel assistPoint point h = some h') :
    freeLoop numberOfNode more assistPoint point h = some h' := by
  induction fuel generalizing more assistPoint point h with
  | zero => cases done
  | succ fuel ih =>
      obtain ⟨more, rfl⟩ : ∃ n, more = n + 1 := ⟨more - 1, by omega⟩
      have le := Nat.le_of_succ_le_succ le
      simp only [freeLoop, Option.bind_eq_bind] at done ⊢
      split at done
      · rwa [if_pos ‹_›]
      · rw [if_neg ‹_›]
        simp only [Option.bind_eq_some_iff] at done ⊢
        obtain ⟨number, loaded, next, linked, rest⟩ := done
        refine ⟨number, loaded, next, linked, ?_⟩
        split at rest
        · rw [if_pos ‹_›]
          simp only [Option.bind_eq_some_iff] at rest ⊢
          obtain ⟨h₁, stored, h₂, freed, point, again, rest⟩ := rest
          exact ⟨h₁, stored, h₂, freed, point, again, ih le rest⟩
        · rw [if_neg ‹_›]
          obtain ⟨assist, moved, rest⟩ := Option.bind_eq_some_iff.mp rest
          exact Option.bind_eq_some_iff.mpr ⟨assist, moved, ih le rest⟩

theorem freeOldClass_mono {fuel more : Nat} {pool pool' : MemoryPool} {i : Fin 4} (le : fuel ≤ more)
    (done : freeOldClass fuel pool i = some pool') : freeOldClass more pool i = some pool' := by
  simp only [freeOldClass, Option.bind_eq_bind, Option.bind_eq_some_iff] at done ⊢
  obtain ⟨point, linked, number, loaded, h, looped, eq⟩ := done
  exact ⟨point, linked, number, loaded, h, freeLoop_mono le looped, eq⟩

theorem freeOldClasses_mono {fuel more : Nat} {is : List (Fin 4)} {pool pool' : MemoryPool}
    (le : fuel ≤ more) (done : is.foldlM (freeOldClass fuel) pool = some pool') :
    is.foldlM (freeOldClass more) pool = some pool' := by
  induction is generalizing pool with
  | nil => exact done
  | cons i is ih =>
      rw [List.foldlM_cons, Option.bind_eq_bind, Option.bind_eq_some_iff] at done ⊢
      obtain ⟨mid, first, rest⟩ := done
      exact ⟨mid, freeOldClass_mono le first, ih rest⟩

end MemoryPool
end TransparentProxyNet
