import Mathlib.Data.List.Pairwise
import TransparentProxyNet.Lib.Machine
import TransparentProxyNet.MemoryPool.Class

/-! Runs of a whole pool: callers take nodes, write into them and give them back, and
idle blocks are released now and then. -/
namespace TransparentProxyNet.MemoryPool
open Heap Links Machine

/-- The argument of the constructor, whose node counts have to fit in `int`. -/
structure Setting where
  n : Nat
  positive : 1 ≤ n
  counts : ∀ i : Fin 4, (BlockSize * n - alignedLinker) / nodeSize i - 1 < 2 ^ 31

namespace Setting

def size (S : Setting) : Nat := BlockSize * S.n

theorem nodeSize_cases (i : Fin 4) : nodeSize i ∈ [272, 528, 1040, 2064] := by
  revert i
  decide

theorem numberOfNode_eq (S : Setting) (i : Fin 4) :
    numberOfNode S.size i = (S.size - alignedLinker) / nodeSize i - 1 :=
  Nat.mod_eq_of_lt (by have := S.counts i; rw [size]; omega)

theorem quotient_bound (S : Setting) (i : Fin 4) : 2 ≤ (S.size - alignedLinker) / nodeSize i := by
  have positive := S.positive
  have cases := nodeSize_cases i
  simp only [List.mem_cons, List.not_mem_nil, or_false] at cases
  rw [Nat.le_div_iff_mul_le (by omega)]
  simp only [size, BlockSize, alignedLinker]
  omega

theorem fits (S : Setting) (i : Fin 4) :
    alignedLinker + (numberOfNode S.size i + 1) * nodeSize i ≤ S.size := by
  have bound := S.quotient_bound i
  have divided := Nat.div_mul_le_self (S.size - alignedLinker) (nodeSize i)
  have room : alignedLinker ≤ S.size := by
    by_contra small
    rw [Nat.sub_eq_zero_of_le (by omega), Nat.zero_div] at bound
    omega
  rw [S.numberOfNode_eq, Nat.sub_add_cancel (by omega)]
  omega

theorem roomy (i : Fin 4) : headSize < nodeSize i := by
  have cases := nodeSize_cases i
  simp only [List.mem_cons, List.not_mem_nil, or_false] at cases
  simp only [headSize]
  omega

theorem aligned (i : Fin 4) : 16 ∣ nodeSize i := by
  have cases := nodeSize_cases i
  simp only [List.mem_cons, List.not_mem_nil, or_false] at cases
  omega

theorem several (S : Setting) (i : Fin 4) : 0 < numberOfNode S.size i := by
  have bound := S.quotient_bound i
  rw [S.numberOfNode_eq]
  omega

def geometry (S : Setting) (i : Fin 4) : Geometry where
  size := S.size
  nodeSize := nodeSize i
  numberOfNode := numberOfNode S.size i
  fits := S.fits i
  roomy := roomy i
  aligned := aligned i
  several := S.several i
  counts := by
    rw [S.numberOfNode_eq]
    exact S.counts i

end Setting

/-- A pool, and the payloads that are in use, class by class. -/
structure Run where
  pool : MemoryPool
  live : Fin 4 → List Nat

/-- The classes in `done` hold, and no two blocks meet. -/
structure PoolHolds (S : Setting) (done : List (Fin 4)) (run : Run)
    (chains : ∀ i, List (Block (S.geometry i))) : Prop where
  size : run.pool.memoryBlockSize = S.size
  classes : ∀ i ∈ done, ClassHolds run.pool.heap (run.pool.nodePointHeadLinkerHead i) (run.live i)
    (chains i)
  across : ∀ i ∈ done, ∀ j ∈ done, i ≠ j → ∀ B ∈ chains i, ∀ C ∈ chains j, Apart B.extent C.extent

section
variable {S : Setting} {done : List (Fin 4)} {run : Run} {chains : ∀ i, List (Block (S.geometry i))}

/-- One class changes, and the memory of the others is what it was. -/
theorem PoolHolds.update (holds : PoolHolds S done run chains) (i : Fin 4) (pool' : MemoryPool)
    {live' : List Nat}
    {bs' : List (Block (S.geometry i))} (size : pool'.memoryBlockSize = run.pool.memoryBlockSize)
    (heads : ∀ j, j ≠ i → pool'.nodePointHeadLinkerHead j = run.pool.nodePointHeadLinkerHead j)
    (holds' : ClassHolds pool'.heap (pool'.nodePointHeadLinkerHead i) live' bs')
    (owned : ∀ j ∈ done, j ≠ i → ∀ B ∈ chains j, B.extent ∈ pool'.heap.blocks)
    (apart : ∀ j ∈ done, j ≠ i → ∀ B ∈ chains j, ∀ C ∈ bs', Apart B.extent C.extent)
    (same : ∀ j ∈ done, j ≠ i → ∀ B ∈ chains j, ∀ a, Inside B.extent a 1 →
      pool'.heap.cell a = run.pool.heap.cell a) :
    PoolHolds S (i :: done) ⟨pool', Function.update run.live i live'⟩
      (Function.update chains i bs') := by
  have others {j : Fin 4} (member : j ∈ i :: done) (other : j ≠ i) : j ∈ done :=
    (List.mem_cons.mp member).resolve_left other
  refine ⟨size.trans holds.size, ?_, ?_⟩
  · intro j member
    by_cases here : j = i
    · subst here
      simpa using holds'
    · have old := (holds.classes j (others member here)).frame (same j (others member here) here)
        (owned j (others member here) here)
      simpa [Function.update_of_ne here, heads j here] using old
  · intro j hj k hk ne B inB C inC
    by_cases first : j = i
    · subst first
      rw [Function.update_self] at inB
      rw [Function.update_of_ne ne.symm] at inC
      exact (apart k (others hk ne.symm) ne.symm C inC B inB).symm
    · rw [Function.update_of_ne first] at inB
      by_cases second : k = i
      · subst second
        rw [Function.update_self] at inC
        exact apart j (others hj first) first B inB C inC
      · rw [Function.update_of_ne second] at inC
        exact holds.across j (others hj first) k (others hk second) ne B inB C inC

/-- A range of one class's blocks lies in no block of another class. -/
theorem outside_other {i : Fin 4} {bs : List (Block (S.geometry i))} {j : Fin 4}
    {B : Block (S.geometry j)}
    (apart : ∀ C ∈ bs, Apart B.extent C.extent) {a : Nat} (inside : Inside B.extent a 1) :
    ∀ C ∈ bs, ¬ C.Range a := fun C member range => (apart C member).ne inside range.inside rfl

/-- The answers of `aligned_alloc` to the constructor. -/
structure FreshAnswers (S : Setting) (answers : Fin 4 → Answer) : Prop where
  positive : ∀ i, 0 < (answers i).memoryAddr
  aligned : ∀ i, 16 ∣ (answers i).memoryAddr
  apart : ∀ i j, i ≠ j → Apart ((answers i).memoryAddr, S.size) ((answers j).memoryAddr, S.size)

/-- What holds of the new value of one class and of the others' holds of all. -/
theorem forall_update {i : Fin 4} {bs : List (Block (S.geometry i))}
    {P : ∀ j, List (Block (S.geometry j)) → Prop} (here : P i bs)
    (others : ∀ j, j ≠ i → j ∈ done → P j (chains j)) :
    ∀ j ∈ i :: done, P j (Function.update chains i bs j) := by
  apply (Function.forall_update_iff chains fun j bs => j ∈ i :: done → P j bs).mpr
  constructor
  · exact fun _ => here
  · exact fun j other member => others j other ((List.mem_cons.mp member).resolve_left other)

theorem construct_all {answers : Fin 4 → Answer} (fresh : FreshAnswers S answers)
    (is : List (Fin 4)) {pool : MemoryPool} (distinct : (is ++ done).Nodup)
    (holds : PoolHolds S done ⟨pool, fun _ => []⟩ chains)
    (blocks : ∀ e ∈ pool.heap.blocks, ∃ j ∈ done, e = ((answers j).memoryAddr, S.size))
    (extents : ∀ j ∈ done, ∀ B ∈ chains j, B.extent = ((answers j).memoryAddr, S.size))
    (single : ∀ j ∈ done, (chains j).length = 1) :
    ∃ pool' chains', is.foldlM (construct answers) pool = some pool' ∧
      PoolHolds S (is.reverse ++ done) ⟨pool', fun _ => []⟩ chains' ∧
      (∀ j ∈ is.reverse ++ done, (chains' j).length = 1) ∧
      ∀ e ∈ pool'.heap.blocks, ∃ j, e = ((answers j).memoryAddr, S.size) := by
  induction is generalizing done pool chains with
  | nil =>
      exact ⟨pool, chains, rfl, holds, single,
        fun e member => (blocks e member).imp fun _ => And.right⟩
  | cons i is ih =>
      have new : i ∉ done := fun member => by
        rw [List.cons_append, List.nodup_cons] at distinct
        exact distinct.1 (List.mem_append_right is member)
      have free (j : Fin 4) (member : j ∈ done) : j ≠ i := fun eq => new (eq ▸ member)
      have freshHere : (answers i).Fresh (S.geometry i).size pool.heap := by
        refine ⟨fresh.positive i, fresh.aligned i, ?_⟩
        intro e member
        obtain ⟨j, old, rfl⟩ := blocks e member
        exact fresh.apart i j (free j old).symm
      obtain ⟨bs, h', built, cls, one, own, blocks', frame⟩ :=
        construct_spec (g := S.geometry i) holds.size rfl rfl freshHere
      have apart (j : Fin 4) (old : j ∈ done) (B : Block (S.geometry j)) (member : B ∈ chains j) :
          Apart B.extent ((answers i).memoryAddr, S.size) := by
        rw [extents j old B member]
        exact fresh.apart j i (free j old)
      have next := holds.update i
        { pool with
          nodePointHeadLinkerHead :=
            Function.update pool.nodePointHeadLinkerHead i (answers i).memoryAddr
          heap := h' }
        rfl (fun j other => Function.update_of_ne other ..) (by simpa using cls)
        (fun j old other B member => by
          rw [blocks']
          exact List.mem_cons_of_mem _ ((holds.classes j old).chain.owned B member))
        (fun j old other B member C inside => own C inside ▸ apart j old B member)
        (fun j old other B member a inside => frame a ((apart j old B member).outside inside))
      rw [Function.update_eq_self i (fun _ => ([] : List Nat))] at next
      obtain ⟨pool', chains', done', holds', single', blocks'⟩ := ih (by
          rw [List.cons_append] at distinct
          exact List.perm_middle.nodup_iff.mpr distinct) next
        (fun e member => by
          rcases List.mem_cons.mp (blocks' ▸ member) with rfl | old
          · exact ⟨i, List.mem_cons_self, rfl⟩
          · obtain ⟨j, inside, eq⟩ := blocks e old
            exact ⟨j, List.mem_cons_of_mem i inside, eq⟩)
        (forall_update (P := fun j bs => ∀ B ∈ bs, B.extent = ((answers j).memoryAddr, S.size))
          own fun j _ => extents j)
        (forall_update (P := fun _ bs => bs.length = 1) one fun j _ => single j)
      rw [List.reverse_cons, List.append_assoc]
      refine ⟨pool', chains', ?_, holds', single', blocks'⟩
      rw [List.foldlM_cons, built]
      exact done'

def Built (S : Setting) (run : Run) : Prop :=
  ∃ answers before, FreshAnswers S answers ∧ memoryPool S.n answers before = some run.pool ∧
    run.live = fun _ => []

theorem memoryPool_holds {answers : Fin 4 → Answer} (fresh : FreshAnswers S answers)
    (before : Nat → Nat) : ∃ pool chains, memoryPool S.n answers before = some pool ∧
      PoolHolds S [3, 2, 1, 0] ⟨pool, fun _ => []⟩ chains ∧
      (∀ i ∈ [3, 2, 1, (0 : Fin 4)], (chains i).length = 1) ∧
      ∀ e ∈ pool.heap.blocks, ∃ j, e = ((answers j).memoryAddr, S.size) := by
  have empty : PoolHolds S [] ⟨⟨BlockSize * S.n, fun _ => 0, ⟨before, []⟩⟩, fun _ => []⟩ fun _ =>
    [] :=
    ⟨rfl, by simp, by simp⟩
  exact construct_all fresh [0, 1, 2, 3] (by decide) empty (by simp) (by simp) (by simp)

/-! ### The operations -/

abbrev sizeClasses : List (Fin 4) := (List.finRange 4).reverse

theorem mem_sizeClasses (i : Fin 4) : i ∈ sizeClasses := by
  revert i
  decide

theorem PoolHolds.all {i : Fin 4} (holds : PoolHolds S (i :: sizeClasses) run chains) :
    PoolHolds S sizeClasses run chains :=
  ⟨holds.size, fun j _ => holds.classes j (List.mem_cons_of_mem i (mem_sizeClasses j)),
    fun j _ k _ => holds.across j (List.mem_cons_of_mem i (mem_sizeClasses j)) k
      (List.mem_cons_of_mem i (mem_sizeClasses k))⟩

theorem PoolHolds.malloc (holds : PoolHolds S sizeClasses run chains) (other : Int → Fin 4)
    (memorySize : Int) {answer : Answer} (fresh : answer.Fresh S.size run.pool.heap) :
    ∃ fuel p pool' bs', mallocMemory other fuel [answer] run.pool memorySize = some (p, pool') ∧
      PoolHolds S sizeClasses ⟨pool', Function.update run.live (sizeClass other memorySize)
        (p :: run.live (sizeClass other memorySize))⟩
        (Function.update chains (sizeClass other memorySize) bs') ∧
      FirstFit (Answer.Fresh.block (g := S.geometry (sizeClass other memorySize)) fresh)
        run.pool.heap pool'.heap (chains (sizeClass other memorySize)) p bs' := by
  obtain ⟨i, cls⟩ : ∃ i, sizeClass other memorySize = i := ⟨_, rfl⟩
  rw [cls]
  obtain ⟨p, bs', h', returned, holds', fit⟩ :=
    (holds.classes i (mem_sizeClasses i)).malloc fresh (run.pool.nodePointHeadLinkerHead i + 8)
      (Nat.le_refl _)
  have apart (j : Fin 4) (ne : j ≠ i) (B : Block (S.geometry j)) (member : B ∈ chains j)
      (C : Block (S.geometry i)) (inside : C ∈ bs') : Apart B.extent C.extent := by
    rcases fit.extents inside with ⟨D, old, eq⟩ | eq
    · exact eq ▸ holds.across j (mem_sizeClasses j) i (mem_sizeClasses i) ne B member D old
    · exact eq ▸ (fresh.apart _ ((holds.classes j (mem_sizeClasses j)).chain.owned B member)).symm
  refine ⟨(chains i).length + 2, p, { run.pool with heap := h' }, bs', ?_,
    (holds.update i { run.pool with heap := h' } rfl (fun _ _ => rfl) holds' ?_ ?_ ?_).all, fit⟩
  · simp only [mallocMemory, cls, holds.size]
    rw [show mallocLoop S.size _ _ _ _ _ _ = _ from returned]
    rfl
  · exact fun j _ ne B member =>
      fit.still_owned ((holds.classes j (mem_sizeClasses j)).chain.owned B member)
  · exact fun j _ => apart j
  · exact fun j _ ne B member a inside => fit.frame (outside_other (apart j ne B member) inside)

theorem PoolHolds.free (holds : PoolHolds S sizeClasses run chains) {i : Fin 4} {p : Nat}
    (member : p ∈ run.live i) : ∃ pool' bs', freeMemory run.pool p = some pool' ∧
      PoolHolds S sizeClasses ⟨pool', Function.update run.live i ((run.live i).erase p)⟩
        (Function.update chains i bs') ∧ bs'.length = (chains i).length := by
  obtain ⟨bs', h', freed, holds', length, blocks, own, frame⟩ :=
    (holds.classes i (mem_sizeClasses i)).free member
  have apart (j : Fin 4) (ne : j ≠ i) (B : Block (S.geometry j)) (member : B ∈ chains j)
      (C : Block (S.geometry i)) (inside : C ∈ bs') : Apart B.extent C.extent := by
    obtain ⟨D, old, eq⟩ := own C inside
    exact eq ▸ holds.across j (mem_sizeClasses j) i (mem_sizeClasses i) ne B member D old
  refine ⟨_, _, freed,
    (holds.update i { run.pool with heap := h' } rfl (fun _ _ => rfl) holds' ?_ ?_ ?_).all, length⟩
  · exact fun j _ ne B member =>
      blocks _ ((holds.classes j (mem_sizeClasses j)).chain.owned B member)
  · exact fun j _ => apart j
  · exact fun j _ ne B member a inside => frame a (outside_other (apart j ne B member) inside)

theorem PoolHolds.freeOldClass (holds : PoolHolds S sizeClasses run chains) (i : Fin 4) :
    ∃ fuel pool', freeOldClass fuel run.pool i = some pool' ∧
      PoolHolds S sizeClasses ⟨pool', run.live⟩ (Function.update chains i (kept (chains i))) ∧
      (∀ e, e ∈ pool'.heap.blocks ↔ e ∈ run.pool.heap.blocks ∧
        ∀ B ∈ (chains i).tail, B.live = [] → e.1 ≠ B.base) ∧
      ∀ a, (∀ B ∈ chains i, a ≠ B.linker + 24) →
        pool'.heap.cell a = run.pool.heap.cell a := by
  obtain ⟨h', done, holds', released, frame⟩ :=
    (holds.classes i (mem_sizeClasses i)).freeOld rfl (Nat.le_refl _)
  have apart (j : Fin 4) (ne : j ≠ i) (B : Block (S.geometry j)) (member : B ∈ chains j)
      (C : Block (S.geometry i)) (inside : C ∈ chains i) : Apart B.extent C.extent :=
    holds.across j (mem_sizeClasses j) i (mem_sizeClasses i) ne B member C inside
  have next := (holds.update i { run.pool with heap := h' } rfl (fun _ _ => rfl) holds'
    (fun j _ ne B member => (released _).mpr
      ⟨(holds.classes j (mem_sizeClasses j)).chain.owned B member, fun C inside _ =>
        (apart j ne B member C (List.mem_of_mem_tail inside)).start_ne
          (S.geometry j).size_pos (S.geometry i).size_pos⟩)
    (fun j _ ne B member C inside => apart j ne B member C (mem_of_kept inside))
    (fun j _ ne B member a inside => frame a fun C within =>
      (apart j ne B member C within).ne inside (C.field_inside (by omega)))).all
  rw [Function.update_eq_self] at next
  exact ⟨_, _, done, next, released, frame⟩

/-- The chains after the classes in `is` have been gone through. -/
def reclaimed (is : List (Fin 4)) (chains : ∀ i, List (Block (S.geometry i))) (i : Fin 4) :
    List (Block (S.geometry i)) :=
  if i ∈ is then kept (chains i) else chains i

theorem reclaimed_cons {i : Fin 4} {is : List (Fin 4)} (new : i ∉ is) :
    reclaimed is (Function.update chains i (kept (chains i))) = reclaimed (i :: is) chains := by
  funext j
  by_cases here : j = i
  · subst here
    simp [reclaimed, new]
  · simp [reclaimed, here]

theorem reclaimed_length (is : List (Fin 4)) (chains : ∀ i, List (Block (S.geometry i)))
    (i : Fin 4) : (reclaimed is chains i).length ≤ (chains i).length := by
  rw [reclaimed]
  split
  · exact kept_length (chains i)
  · exact Nat.le_refl _

/-- The classes in `is` give back the idle blocks behind their first ones, and only links
are written. -/
theorem PoolHolds.freeOld (holds : PoolHolds S sizeClasses run chains) {is : List (Fin 4)}
    (distinct : is.Nodup) :
    ∃ fuel pool', is.foldlM (MemoryPool.freeOldClass fuel) run.pool = some pool' ∧
      PoolHolds S sizeClasses ⟨pool', run.live⟩ (reclaimed is chains) ∧
      (∀ e, e ∈ pool'.heap.blocks ↔ e ∈ run.pool.heap.blocks ∧
        ∀ i ∈ is, ∀ B ∈ (chains i).tail, B.live = [] → e.1 ≠ B.base) ∧
      ∀ a, (∀ i ∈ is, ∀ B ∈ chains i, a ≠ B.linker + 24) →
        pool'.heap.cell a = run.pool.heap.cell a := by
  induction is generalizing run chains with
  | nil => exact ⟨0, run.pool, rfl, holds, by simp, fun _ _ => rfl⟩
  | cons i is ih =>
      obtain ⟨new, distinct⟩ := List.nodup_cons.mp distinct
      obtain ⟨fuel, mid, first, holds₁, released₁, frame₁⟩ := holds.freeOldClass i
      obtain ⟨more, pool', rest, holds', released, frame⟩ := ih holds₁ distinct
      have other (j : Fin 4) (member : j ∈ is) :
          Function.update chains i (kept (chains i)) j = chains j :=
        Function.update_of_ne (fun eq : j = i => new (eq ▸ member)) ..
      refine ⟨max fuel more, pool', ?_, reclaimed_cons new ▸ holds', ?_, ?_⟩
      · rw [List.foldlM_cons, freeOldClass_mono (Nat.le_max_left fuel more) first]
        exact freeOldClasses_mono (Nat.le_max_right fuel more) rest
      · intro e
        rw [released, released₁, List.forall_mem_cons, and_assoc]
        simp +contextual only [other]
      · intro a outside
        rw [List.forall_mem_cons] at outside
        rw [frame a fun j member => other j member ▸ outside.2 j member, frame₁ a outside.1]

/-- Where no block but the first ones is idle, nothing changes. -/
theorem PoolHolds.freeOld_still (holds : PoolHolds S sizeClasses run chains)
    (busy : ∀ i, ∀ B ∈ (chains i).tail, B.live ≠ []) (is : List (Fin 4)) :
    ∃ fuel, is.foldlM (MemoryPool.freeOldClass fuel) run.pool = some run.pool := by
  induction is with
  | nil => exact ⟨0, rfl⟩
  | cons i is ih =>
      obtain ⟨more, rest⟩ := ih
      have first := (holds.classes i (mem_sizeClasses i)).freeOld_still rfl (busy i)
        (Nat.le_max_left (chains i).length more)
      refine ⟨max (chains i).length more, ?_⟩
      rw [List.foldlM_cons, first]
      exact freeOldClasses_mono (Nat.le_max_right _ more) rest

theorem PoolHolds.write (holds : PoolHolds S sizeClasses run chains) {i : Fin 4} {p a : Nat}
    (v : Nat) (member : p ∈ run.live i) (low : p ≤ a) (high : a < p + (nodeSize i - headSize)) :
    PoolHolds S sizeClasses ⟨{ run.pool with heap := run.pool.heap.put a v }, run.live⟩ chains := by
  obtain ⟨holds', B, inside, range⟩ :=
    (holds.classes i (mem_sizeClasses i)).write (v := v) member low high
  have apart (j : Fin 4) (ne : j ≠ i) (C : Block (S.geometry j)) (member : C ∈ chains j) :
      Apart C.extent B.extent :=
    holds.across j (mem_sizeClasses j) i (mem_sizeClasses i) ne C member B inside
  have next := (holds.update i { run.pool with heap := run.pool.heap.put a v } rfl
    (fun _ _ => rfl) holds'
    (fun j _ _ C member => (holds.classes j (mem_sizeClasses j)).chain.owned C member)
    (fun j _ ne C member D within => holds.across j (mem_sizeClasses j) i
      (mem_sizeClasses i) ne C member D within)
    (fun j _ ne C member b within => put_of_ne ((apart j ne C member).ne within range.inside))).all
  rwa [Function.update_eq_self, Function.update_eq_self] at next

end

/-! ### Runs -/

inductive Event where
  | mallocMemory (memorySize : Int)
  | freeMemory (point : Nat)
  | freeOldMemoryBlock
  | write (a v : Nat)

/-- Callers free what is in use and write only into payloads that are in use. -/
inductive Step (other : Int → Fin 4) : Run → Event → Run → Prop
  | mallocMemory {run memorySize answer fuel p pool'} :
      answer.Fresh run.pool.memoryBlockSize run.pool.heap →
      mallocMemory other fuel [answer] run.pool memorySize = some (p, pool') →
      Step other run (.mallocMemory memorySize)
        ⟨pool', Function.update run.live (sizeClass other memorySize)
        (p :: run.live (sizeClass other memorySize))⟩
  | freeMemory {run i p pool'} : p ∈ run.live i → freeMemory run.pool p = some pool' →
      Step other run (.freeMemory p) ⟨pool', Function.update run.live i ((run.live i).erase p)⟩
  | freeOldMemoryBlock {run fuel pool'} : freeOldMemoryBlock fuel run.pool = some pool' →
      Step other run .freeOldMemoryBlock ⟨pool', run.live⟩
  | write {run i p a v} : p ∈ run.live i → p ≤ a → a < p + (nodeSize i - headSize) →
      Step other run (.write a v) ⟨{ run.pool with heap := run.pool.heap.put a v }, run.live⟩

section
variable {S : Setting} {other : Int → Fin 4} {run : Run}

/-- One chain changes, and comes to no more than it was or `m` allows. -/
theorem update_length_le {chains : ∀ i, List (Block (S.geometry i))} {i : Fin 4}
    {bs : List (Block (S.geometry i))} {m : Fin 4 → Nat}
    (here : bs.length ≤ max (chains i).length (m i)) (j : Fin 4) :
    (Function.update chains i bs j).length ≤ max (chains j).length (m j) := by
  by_cases same : j = i
  · subst same
    rwa [Function.update_self]
  · rw [Function.update_of_ne same]
    exact Nat.le_max_left ..

/-- A step keeps the pool as it should be, and makes no chain longer than its payloads
in use need. -/
theorem holds_step {run' : Run} {e : Event} {chains : ∀ i, List (Block (S.geometry i))}
    (holds : PoolHolds S sizeClasses run chains) (step : Step other run e run') :
    ∃ chains', PoolHolds S sizeClasses run' chains' ∧ ∀ i, (chains' i).length ≤
      max (chains i).length ((run'.live i).length ⌈/⌉ numberOfNode S.size i) := by
  cases step with
  | @mallocMemory memorySize answer fuel p pool' fresh returned =>
      obtain ⟨more, q, pool₁, bs', again, holds', fit⟩ :=
        holds.malloc other memorySize (holds.size ▸ fresh)
      have enough := mallocMemory_mono (Nat.le_max_left fuel more) returned
      cases enough.symm.trans (mallocMemory_mono (Nat.le_max_right fuel more) again)
      refine ⟨_, holds', fun i => ?_⟩
      rw [(holds'.classes i (mem_sizeClasses i)).live.length_eq]
      apply update_length_le (m := fun i => _ ⌈/⌉ numberOfNode S.size i)
      rw [Function.update_self]
      exact fit.length rfl
  | @freeMemory i p pool' member freed =>
      obtain ⟨pool₁, bs', again, holds', length⟩ := holds.free member
      cases again.symm.trans freed
      exact ⟨_, holds', update_length_le (m := fun j => _ ⌈/⌉ numberOfNode S.size j)
        (length ▸ Nat.le_max_left ..)⟩
  | @freeOldMemoryBlock fuel pool' released =>
      obtain ⟨more, pool₁, again, holds', -⟩ :=
        holds.freeOld (by decide : [0, 1, 2, (3 : Fin 4)].Nodup)
      have enough := freeOldClasses_mono (Nat.le_max_left fuel more) released
      cases enough.symm.trans (freeOldClasses_mono (Nat.le_max_right fuel more) again)
      exact ⟨_, holds', fun i => le_max_of_le_left (reclaimed_length _ chains i)⟩
  | write member low high =>
      exact ⟨chains, holds.write _ member low high, fun i => Nat.le_max_left ..⟩

theorem Built.single (built : Built S run) :
    ∃ chains : ∀ i, List (Block (S.geometry i)), PoolHolds S sizeClasses run chains ∧
      ∀ i, (chains i).length = 1 := by
  obtain ⟨pool, live⟩ := run
  obtain ⟨answers, before, fresh, built, rfl⟩ := built
  obtain ⟨pool', chains, same, holds, single, -⟩ := memoryPool_holds fresh before
  cases same.symm.trans built
  exact ⟨chains, holds, fun i => single i (mem_sizeClasses i)⟩

theorem reachable_holds (reachable : Reachable (Step other) (Built S) run) :
    ∃ chains, PoolHolds S sizeClasses run chains := by
  refine reachable.invariant (I := fun run => ∃ chains, PoolHolds S sizeClasses run chains) ?_ ?_
  · intro run built
    exact built.single.imp fun _ => And.left
  · rintro run e run' ⟨chains, holds⟩ step
    obtain ⟨chains', holds', -⟩ := holds_step holds step
    exact ⟨chains', holds'⟩

end

/-- What the memory says about one block. -/
structure BlockSound {g : Geometry} (h : Memory) (B : Block g) : Prop where
  owned : B.extent ∈ h.blocks
  free : Chain h.cell 0 (h.cell (B.linker + 16)) B.free
  length : B.free.length = h.cell (B.linker + 8) + 1
  distinct : (B.free ++ B.live).Nodup
  own : ∀ x ∈ B.free ++ B.live, x ∈ nodesFrom g.nodeSize g.numberOfNode (B.base + alignedLinker)
  count : h.cell (B.linker + 8) + B.live.length = g.numberOfNode
  back : ∀ x ∈ B.live, h.cell x = B.linker
  inside : ∀ x ∈ B.live, B.base + alignedLinker ≤ x ∧ x + g.nodeSize ≤ B.base + g.size ∧
    16 ∣ x + headSize

/-- What the memory says about the pool: the blocks of each class in their chain, the
payloads in use in these blocks, and that the next operation goes through. -/
structure Sound (S : Setting) (other : Int → Fin 4) (run : Run)
    (chains : ∀ i, List (Block (S.geometry i))) : Prop where
  chained : ∀ i, Chain run.pool.heap.cell 24 (run.pool.nodePointHeadLinkerHead i + 8)
    ((chains i).map Block.linker)
  blocks : ∀ i, ∀ B ∈ chains i, BlockSound run.pool.heap B
  live : ∀ i, (run.live i).Perm (payloads (chains i))
  distinct : ∀ i, (run.live i).Nodup
  apart : ∀ i j p q, p ∈ run.live i → q ∈ run.live j → (i, p) ≠ (j, q) →
    Apart (p - headSize, nodeSize i) (q - headSize, nodeSize j)
  mallocMemory :
    ∀ memorySize (answer : Answer), answer.Fresh run.pool.memoryBlockSize run.pool.heap →
    ∃ fuel p pool', mallocMemory other fuel [answer] run.pool memorySize = some (p, pool')
  freeMemory : ∀ i, ∀ p ∈ run.live i, ∃ pool', freeMemory run.pool p = some pool'
  freeOldMemoryBlock : ∃ fuel pool', freeOldMemoryBlock fuel run.pool = some pool'

section
variable {S : Setting} {run : Run} {chains : ∀ i, List (Block (S.geometry i))}

theorem PoolHolds.blockSound (holds : PoolHolds S sizeClasses run chains) {i : Fin 4}
    {B : Block (S.geometry i)} (member : B ∈ chains i) : BlockSound run.pool.heap B := by
  have chain := (holds.classes i (mem_sizeClasses i)).chain
  have held := chain.holds B member
  have length := B.length
  have count := held.count
  refine ⟨chain.owned B member, held.free, count.symm, B.nodup,
    fun x inside => B.mem_nodes inside, by omega,
    held.live, ?_⟩
  intro x inside
  obtain ⟨low, high, aligned⟩ := B.node_inside (List.mem_append_right _ inside)
  exact ⟨low, high, Nat.dvd_add aligned (by decide)⟩

theorem PoolHolds.node (holds : PoolHolds S sizeClasses run chains) {i : Fin 4} {p : Nat}
    (member : p ∈ run.live i) : ∃ B ∈ chains i, ∃ x ∈ B.live, p = x + headSize :=
  mem_payloads.mp ((holds.classes i (mem_sizeClasses i)).live.mem_iff.mp member)

/-- Nodes of blocks that do not meet do not meet. -/
theorem Block.nodes_apart {g g' : Geometry} {B : Block g} {C : Block g'}
    (apart : Apart B.extent C.extent) {x y : Nat}
    (mx : x ∈ B.free ++ B.live) (my : y ∈ C.free ++ C.live) :
    Apart (x, g.nodeSize) (y, g'.nodeSize) := by
  obtain ⟨lowX, highX, -⟩ := B.node_inside mx
  obtain ⟨lowY, highY, -⟩ := C.node_inside my
  simp only [Apart, Block.extent] at *
  omega

/-- Two blocks of the pool are the same one or do not meet. -/
theorem PoolHolds.same_or_apart (holds : PoolHolds S sizeClasses run chains) {i j : Fin 4}
    {B : Block (S.geometry i)} {C : Block (S.geometry j)} (inB : B ∈ chains i)
    (inC : C ∈ chains j) : i = j ∧ HEq B C ∨ Apart B.extent C.extent := by
  by_cases classes : i = j
  · subst classes
    by_cases same : B = C
    · exact .inl ⟨rfl, heq_of_eq same⟩
    · have pairs := (holds.classes i (mem_sizeClasses i)).chain.apart
      have symmetric : Std.Symm fun B C : Block (S.geometry i) => Apart B.extent C.extent :=
        ⟨fun _ _ => Apart.symm⟩
      exact .inr (pairs.forall inB inC same)
  · exact .inr (holds.across i (mem_sizeClasses i) j (mem_sizeClasses j) classes B inB C inC)

theorem PoolHolds.apart (holds : PoolHolds S sizeClasses run chains) {i j : Fin 4} {p q : Nat}
    (inI : p ∈ run.live i) (inJ : q ∈ run.live j) (other : (i, p) ≠ (j, q)) :
    Apart (p - headSize, nodeSize i) (q - headSize, nodeSize j) := by
  obtain ⟨B, inB, x, liveX, rfl⟩ := holds.node inI
  obtain ⟨C, inC, y, liveY, rfl⟩ := holds.node inJ
  have nodeX := List.mem_append_right B.free liveX
  have nodeY := List.mem_append_right C.free liveY
  rw [Nat.add_sub_cancel, Nat.add_sub_cancel]
  rcases holds.same_or_apart inB inC with ⟨rfl, same⟩ | apart
  · cases same
    exact nodes_apart (B.mem_nodes nodeX) (B.mem_nodes nodeY) fun eq =>
      other (congrArg (fun x => (i, x + headSize)) eq)
  · exact Block.nodes_apart apart nodeX nodeY

theorem PoolHolds.distinct (holds : PoolHolds S sizeClasses run chains) (i : Fin 4) :
    (run.live i).Nodup :=
  have cls := holds.classes i (mem_sizeClasses i)
  cls.live.nodup_iff.mpr (payloads_nodup cls.chain.apart)

theorem PoolHolds.sound (holds : PoolHolds S sizeClasses run chains) (other : Int → Fin 4) :
    Sound S other run chains := by
  refine ⟨fun i => (holds.classes i (mem_sizeClasses i)).chain.linked,
    fun i B => holds.blockSound,
    fun i => (holds.classes i (mem_sizeClasses i)).live, holds.distinct, fun i j p q => holds.apart,
    fun memorySize answer fresh => ?_, fun i p member => ?_, ?_⟩
  · obtain ⟨fuel, p, pool', -, returned, -⟩ := holds.malloc other memorySize (holds.size ▸ fresh)
    exact ⟨fuel, p, pool', returned⟩
  · obtain ⟨pool', -, freed, -⟩ := holds.free member
    exact ⟨pool', freed⟩
  · obtain ⟨fuel, pool', released, -⟩ := holds.freeOld (by decide : [0, 1, 2, (3 : Fin 4)].Nodup)
    exact ⟨fuel, pool', released⟩

/-- The blocks of a pool are those that its memory says. -/
theorem Sound.length_eq {other : Int → Fin 4} {chains' : ∀ i, List (Block (S.geometry i))}
    (sound : Sound S other run chains) (sound' : Sound S other run chains') (i : Fin 4) :
    (chains i).length = (chains' i).length := by
  have same := Visits.unique (sound.chained i) (sound'.chained i)
  simpa using congrArg List.length same

theorem pool_sound (other : Int → Fin 4) (reachable : Reachable (Step other) (Built S) run) :
    ∃ chains, Sound S other run chains := by
  obtain ⟨chains, holds⟩ := reachable_holds reachable
  exact ⟨chains, holds.sound other⟩

end

/-- A pool that gets a megabyte for each class. -/
def megabytes : Setting where
  n := 1
  positive := Nat.le_refl 1
  counts := by decide

/-- The blocks of `megabytes`, one after the other. -/
def consecutive (k : Nat) : Answer := ⟨2 ^ 20 * (k + 1), fun _ => 0⟩

theorem consecutive_apart {j k : Nat} (other : j ≠ k) :
    Apart ((consecutive j).memoryAddr, megabytes.size)
      ((consecutive k).memoryAddr, megabytes.size) := by
  simp only [Apart, consecutive, megabytes, Setting.size, BlockSize]
  omega

theorem consecutive_fresh : FreshAnswers megabytes fun i => consecutive i := by
  refine ⟨?_, ?_, fun i j other => consecutive_apart fun eq => other (Fin.ext eq)⟩
  · intro i
    simp only [consecutive]
    omega
  · intro i
    simp only [consecutive]
    omega

/-- A new pool, and memory for one more block. -/
theorem exists_built : ∃ run, Built megabytes run ∧ run.live = (fun _ => []) ∧
    (consecutive 4).Fresh run.pool.memoryBlockSize run.pool.heap := by
  obtain ⟨pool, chains, built, holds, -, blocks⟩ := memoryPool_holds consecutive_fresh fun _ => 0
  have fresh : (consecutive 4).Fresh megabytes.size pool.heap := by
    refine ⟨by decide, by decide, ?_⟩
    intro e member
    obtain ⟨j, rfl⟩ := blocks e member
    exact consecutive_apart (by omega)
  exact ⟨⟨pool, fun _ => []⟩, ⟨_, _, consecutive_fresh, built, rfl⟩, rfl, holds.size.symm ▸ fresh⟩

/-- A datagram's node, out of a new pool. -/
theorem pool_sound_node : ∃ run p chains, run.live 3 = [p] ∧
    Reachable (Step fun _ => 0) (Built megabytes) run ∧
      Sound megabytes (fun _ => 0) run chains := by
  obtain ⟨run, built, empty, fresh⟩ := exists_built
  have start : Reachable (Step fun _ => 0) (Built megabytes) run := .init built
  obtain ⟨chains, holds⟩ := reachable_holds start
  obtain ⟨fuel, p, pool', -, returned, -⟩ := holds.malloc (fun _ => 0) 1334 (holds.size ▸ fresh)
  have reachable := start.trace (.single (Step.mallocMemory fresh returned))
  obtain ⟨chains', sound⟩ := pool_sound (fun _ => 0) reachable
  exact ⟨_, p, chains', by rw [empty]; rfl, reachable, sound⟩

end TransparentProxyNet.MemoryPool
