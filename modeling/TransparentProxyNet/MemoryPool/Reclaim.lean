import TransparentProxyNet.MemoryPool.Growth

/-! `freeOldMemoryBlock` in any state that a run reaches: which blocks leave their chains
and are given back, and what stays as it was. -/
namespace TransparentProxyNet.MemoryPool
open Heap Machine

section
variable {S : Setting} {run : Run} {chains : ∀ i, List (Block (S.geometry i))}

/-- What `freeOldMemoryBlock` makes of a pool with these blocks. Only the links between
blocks are written, and a block that was given back is no longer there to be given back
once more. -/
structure Reclaimed (other : Int → Fin 4) (run : Run)
    (chains : ∀ i, List (Block (S.geometry i))) (pool' : MemoryPool) : Prop where
  sound : Sound S other ⟨pool', run.live⟩ fun i => kept (chains i)
  released : ∀ e, e ∈ pool'.heap.blocks ↔ e ∈ run.pool.heap.blocks ∧
    ∀ i, ∀ B ∈ (chains i).tail, B.live = [] → e.1 ≠ B.base
  once : ∀ i, ∀ B ∈ (chains i).tail, B.live = [] → pool'.heap.free B.base = none
  untouched : ∀ i, ∀ B ∈ kept (chains i), ∀ a, Inside B.extent a 1 → a ≠ B.linker + 24 →
    pool'.heap.cell a = run.pool.heap.cell a
  again : ∃ fuel, freeOldMemoryBlock fuel pool' = some pool'

/-- No link but its own lies in a block. -/
theorem PoolHolds.link_outside (holds : PoolHolds S sizeClasses run chains) {i j : Fin 4}
    {B : Block (S.geometry i)} {C : Block (S.geometry j)} (inB : B ∈ chains i) (inC : C ∈ chains j)
    {a : Nat} (inside : Inside B.extent a 1) (link : a ≠ B.linker + 24) : a ≠ C.linker + 24 := by
  rcases holds.same_or_apart inB inC with ⟨rfl, same⟩ | apart
  · cases same
    exact link
  · exact apart.ne inside (C.field_inside (by omega))

theorem PoolHolds.reclaims (holds : PoolHolds S sizeClasses run chains) (other : Int → Fin 4) :
    ∃ fuel pool', freeOldMemoryBlock fuel run.pool = some pool' ∧
      Reclaimed other run chains pool' := by
  obtain ⟨fuel, pool', done, holds', blocks, frame⟩ :=
    holds.freeOld (by decide : [0, 1, 2, (3 : Fin 4)].Nodup)
  have all (i : Fin 4) : i ∈ [0, 1, 2, (3 : Fin 4)] := by
    revert i
    decide
  have chains' : reclaimed [0, 1, 2, 3] chains = fun i => kept (chains i) := by
    funext i
    exact if_pos (all i)
  rw [chains'] at holds'
  have released (e : Extent) : e ∈ pool'.heap.blocks ↔ e ∈ run.pool.heap.blocks ∧
      ∀ i, ∀ B ∈ (chains i).tail, B.live = [] → e.1 ≠ B.base := by
    simp only [blocks, all, forall_const]
  refine ⟨fuel, pool', done, holds'.sound other, released, ?_, ?_, ?_⟩
  · intro i B member idle
    apply if_neg
    rintro ⟨e, still, start⟩
    exact ((released e).mp still).2 i B member idle start
  · intro i B member a inside link
    exact frame a fun j _ C other => holds.link_outside (mem_of_kept member) other inside link
  · exact holds'.freeOld_still (fun i B member => kept_tail member) [0, 1, 2, 3]

/-- `freeOldMemoryBlock` returns in every reachable state, takes exactly the idle blocks
behind the first one out of each chain, and has nothing to do a second time. -/
theorem freeOldMemoryBlock_reclaims (other : Int → Fin 4)
    (reachable : Reachable (Step other) (Built S) run) :
    ∃ chains : ∀ i, List (Block (S.geometry i)), Sound S other run chains ∧
      ∃ fuel pool', freeOldMemoryBlock fuel run.pool = some pool' ∧
        Reclaimed other run chains pool' := by
  obtain ⟨chains, holds⟩ := reachable_holds reachable
  exact ⟨chains, holds.sound other, holds.reclaims other⟩

end

/-- All payloads of a class can be given back, and its blocks stay. -/
theorem exists_freed {S : Setting} {other : Int → Fin 4} {run : Run}
    {chains : ∀ i, List (Block (S.geometry i))}
    (reachable : Reachable (Step other) (Built S) run)
    (holds : PoolHolds S sizeClasses run chains) (i : Fin 4) :
    ∃ run', ∃ chains' : ∀ i, List (Block (S.geometry i)),
      Reachable (Step other) (Built S) run' ∧ PoolHolds S sizeClasses run' chains' ∧
        run'.live i = [] ∧ (chains' i).length = (chains i).length := by
  obtain ⟨n, count⟩ : ∃ n, (run.live i).length = n := ⟨_, rfl⟩
  induction n generalizing run chains with
  | zero => exact ⟨run, chains, reachable, holds, List.length_eq_zero_iff.mp count, rfl⟩
  | succ n ih =>
      obtain ⟨p, member⟩ := List.exists_mem_of_length_pos (l := run.live i) (by omega)
      obtain ⟨pool', bs', freed, holds', length⟩ := holds.free member
      obtain ⟨run', chains', reachable', done, empty, same⟩ :=
        ih (reachable.trace (.single (.freeMemory member freed))) holds'
          (by simp [List.length_erase_of_mem member, count])
      rw [Function.update_self, length] at same
      exact ⟨run', chains', reachable', done, empty, same⟩

/-- The datagrams needed a second block and were all given back. -/
theorem freeOldMemoryBlock_reclaims_node : ∃ run,
    ∃ chains : ∀ i, List (Block (megabytes.geometry i)), Sound megabytes (fun _ => 0) run chains ∧
      ∃ B C, chains 3 = [B, C] ∧ C.live = [] ∧ C.extent ∈ run.pool.heap.blocks ∧
        ∃ fuel pool', freeOldMemoryBlock fuel run.pool = some pool' ∧
          Reclaimed (fun _ => 0) run chains pool' ∧ C.extent ∉ pool'.heap.blocks := by
  obtain ⟨full, holding, filled, filledHolds, one, count, fresh⟩ := exists_filled (Nat.le_refl _)
  obtain ⟨fuel, p, pool₁, bs₁, returned, grownHolds, fit⟩ :=
    filledHolds.malloc (fun _ => 0) 1334 fresh
  have longer : bs₁.length = (holding 3).length + 1 :=
    fit.grows_iff.mpr (exhausted_single one count)
  have grown := filled.trace (.single (Step.mallocMemory (filledHolds.size ▸ fresh) returned))
  obtain ⟨run, freed, reachable, holds, empty, length⟩ := exists_freed grown grownHolds 3
  obtain ⟨chains, sound, more, pool', released, reclaimed⟩ :=
    freeOldMemoryBlock_reclaims (fun _ => 0) reachable
  have two : (chains 3).length = 2 := by
    rw [sound.length_eq (holds.sound _) 3, length]
    exact longer.trans (congrArg (· + 1) one)
  obtain ⟨B, C, pair⟩ := List.length_eq_two.mp two
  have idle : C.live = [] := by
    have unused := (sound.live 3).symm
    rw [empty, pair] at unused
    exact (by simpa [payloads] using unused.eq_nil : B.live = [] ∧ C.live = []).2
  have owned := (sound.blocks 3 C (by simp [pair])).owned
  refine ⟨run, chains, sound, B, C, pair, idle, owned, more, pool', released, reclaimed, ?_⟩
  intro still
  exact ((reclaimed.released _).mp still).2 3 C (by simp [pair]) idle rfl

end TransparentProxyNet.MemoryPool
