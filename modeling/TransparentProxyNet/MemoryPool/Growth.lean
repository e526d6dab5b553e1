import TransparentProxyNet.MemoryPool.Runs

/-! Where `mallocMemory` takes its node from, when it asks for another block, and how many
blocks a class comes to in a whole run. -/
namespace TransparentProxyNet.MemoryPool
open Heap Machine

/-- A run, and the most payloads of each class that were in use at one time so far. -/
structure Peaked where
  run : Run
  peak : Fin 4 → Nat

def Peaked.Init (S : Setting) (s : Peaked) : Prop := Built S s.run ∧ s.peak = fun _ => 0

def Peaked.Step (other : Int → Fin 4) (s : Peaked) (e : Event) (t : Peaked) : Prop :=
  MemoryPool.Step other s.run e t.run ∧ t.peak = fun i => max (s.peak i) (t.run.live i).length

/-- What a call of `mallocMemory` that returned `p` did to the pool. -/
structure Served {S : Setting} (other : Int → Fin 4) (run : Run)
    (chains : ∀ i, List (Block (S.geometry i))) (memorySize : Int) {answer : Answer}
    (fresh : answer.Fresh S.size run.pool.heap) (p : Nat) (pool' : MemoryPool)
    (bs' : List (Block (S.geometry (sizeClass other memorySize)))) : Prop where
  sound : Sound S other ⟨pool', Function.update run.live (sizeClass other memorySize)
    (p :: run.live (sizeClass other memorySize))⟩
    (Function.update chains (sizeClass other memorySize) bs')
  firstFit : FirstFit (Answer.Fresh.block (g := S.geometry (sizeClass other memorySize)) fresh)
    run.pool.heap pool'.heap (chains (sizeClass other memorySize)) p bs'
  grows : bs'.length = (chains (sizeClass other memorySize)).length + 1 ↔
    ∀ B ∈ chains (sizeClass other memorySize), B.Exhausted
  others : ∀ i, i ≠ sizeClass other memorySize → ∀ B ∈ chains i, ∀ a, Inside B.extent a 1 →
    pool'.heap.cell a = run.pool.heap.cell a

/-- A chain grows exactly if all of its blocks are exhausted. -/
theorem FirstFit.grows_iff {g : Geometry} {new : Block g} {h h' : Memory} {p : Nat}
    {bs bs' : List (Block g)} (fit : FirstFit new h h' bs p bs') :
    bs'.length = bs.length + 1 ↔ ∀ B ∈ bs, B.Exhausted := by
  cases fit with
  | @taken pre B post x y rest free =>
      constructor
      · intro longer
        simp at longer
      · intro full
        obtain ⟨z, one⟩ := B.exhausted_iff.mp (full B (by simp))
        rw [free] at one
        cases one
  | @grown pre B x y rest free full =>
      constructor
      · exact fun _ => full
      · intro _
        simp

section
variable {S : Setting} {other : Int → Fin 4} {run : Run}
  {chains : ∀ i, List (Block (S.geometry i))}

theorem PoolHolds.serves (holds : PoolHolds S sizeClasses run chains) (other : Int → Fin 4)
    (memorySize : Int) {answer : Answer} (fresh : answer.Fresh S.size run.pool.heap) :
    ∃ fuel p pool' bs', mallocMemory other fuel [answer] run.pool memorySize = some (p, pool') ∧
      Served other run chains memorySize fresh p pool' bs' := by
  obtain ⟨fuel, p, pool', bs', returned, holds', fit⟩ := holds.malloc other memorySize fresh
  refine ⟨fuel, p, pool', bs', returned, holds'.sound other, fit, fit.grows_iff, ?_⟩
  intro i ne B member a inside
  apply fit.frame
  intro C within range
  have apart := holds'.across i (mem_sizeClasses i) _ (mem_sizeClasses _) ne B
    (by rwa [Function.update_of_ne ne]) C (by rwa [Function.update_self])
  exact apart.ne inside range.inside rfl

/-- The blocks of a class never get more than the fullest moment of the run needed. -/
theorem Peaked.holds {s : Peaked} (reachable : Reachable (Peaked.Step other) (Peaked.Init S) s) :
    ∃ chains : ∀ i, List (Block (S.geometry i)), PoolHolds S sizeClasses s.run chains ∧
      ∀ i, (chains i).length ≤ max 1 (s.peak i ⌈/⌉ numberOfNode S.size i) := by
  refine reachable.invariant (I := fun s => ∃ chains : ∀ i, List (Block (S.geometry i)),
    PoolHolds S sizeClasses s.run chains ∧
      ∀ i, (chains i).length ≤ max 1 (s.peak i ⌈/⌉ numberOfNode S.size i)) ?_ ?_
  · rintro ⟨run, peak⟩ ⟨built, -⟩
    obtain ⟨chains, holds, single⟩ := built.single
    exact ⟨chains, holds, fun i => le_max_of_le_left (single i).le⟩
  · rintro s e t ⟨chains, holds, bound⟩ ⟨step, peak⟩
    obtain ⟨chains', holds', grown⟩ := holds_step holds step
    refine ⟨chains', holds', fun i => ?_⟩
    have monotone := (gc_mul_ceilDiv (S.several i)).monotone_l
    have before : s.peak i ⌈/⌉ numberOfNode S.size i ≤ t.peak i ⌈/⌉ numberOfNode S.size i := by
      rw [peak]
      exact monotone (Nat.le_max_left ..)
    have now : (t.run.live i).length ⌈/⌉ numberOfNode S.size i ≤
        t.peak i ⌈/⌉ numberOfNode S.size i := by
      rw [peak]
      exact monotone (Nat.le_max_right ..)
    have old := bound i
    have new := grown i
    omega

/-- Every call returns, with a node of the first block that is not exhausted; another
block comes only when all of them are, and so there are never more than the fullest
moment of the run needed. -/
theorem mallocMemory_grows_when_exhausted (other : Int → Fin 4) {s : Peaked}
    (reachable : Reachable (Peaked.Step other) (Peaked.Init S) s) :
    ∃ chains : ∀ i, List (Block (S.geometry i)), Sound S other s.run chains ∧
      (∀ i, (chains i).length ≤ max 1 (s.peak i ⌈/⌉ numberOfNode S.size i)) ∧
      ∀ memorySize (answer : Answer) (fresh : answer.Fresh S.size s.run.pool.heap),
        ∃ fuel p pool' bs',
          mallocMemory other fuel [answer] s.run.pool memorySize = some (p, pool') ∧
          Served other s.run chains memorySize fresh p pool' bs' := by
  obtain ⟨chains, holds, bound⟩ := Peaked.holds reachable
  exact ⟨chains, holds.sound other, bound, fun memorySize answer fresh =>
    holds.serves other memorySize fresh⟩

end

/-! ### A class that uses up its first block -/

/-- The peaks of a run are there to be read off it. -/
theorem Peaked.of_reachable {S : Setting} {other : Int → Fin 4} {run : Run}
    (reachable : Reachable (MemoryPool.Step other) (Built S) run) :
    ∃ peak, Reachable (Peaked.Step other) (Peaked.Init S) ⟨run, peak⟩ := by
  refine reachable.invariant
    (I := fun run => ∃ peak, Reachable (Peaked.Step other) (Peaked.Init S) ⟨run, peak⟩) ?_ ?_
  · intro run built
    exact ⟨fun _ => 0, .init ⟨built, rfl⟩⟩
  · rintro run e run' ⟨peak, before⟩ step
    exact ⟨fun i => max (peak i) (run'.live i).length, before.trace (.single ⟨step, rfl⟩)⟩

section
variable {g : Geometry} {bs bs' : List (Block g)}

/-- A call for which there is a node asks for no memory. -/
theorem FirstFit.stays {new : Block g} {h h' : Memory} {p : Nat} (fit : FirstFit new h h' bs p bs')
    (left : ¬ ∀ B ∈ bs, B.Exhausted) : h'.blocks = h.blocks ∧ bs'.length = bs.length := by
  cases fit with
  | taken _ _ blocks => exact ⟨blocks, by simp⟩
  | grown _ full => exact absurd full left

theorem exhausted_single (single : bs.length = 1) (full : (payloads bs).length = g.numberOfNode) :
    ∀ B ∈ bs, B.Exhausted := by
  obtain ⟨B, rfl⟩ := List.length_eq_one_iff.mp single
  simpa [payloads, Block.Exhausted] using full

end

/-- `k` datagrams in use, all of them out of the first block. -/
theorem exists_filled {k : Nat} (few : k ≤ numberOfNode megabytes.size 3) :
    ∃ run, ∃ chains : ∀ i, List (Block (megabytes.geometry i)),
      Reachable (Step fun _ => 0) (Built megabytes) run ∧
        PoolHolds megabytes sizeClasses run chains ∧ (chains 3).length = 1 ∧
        (payloads (chains 3)).length = k ∧
        (consecutive 4).Fresh megabytes.size run.pool.heap := by
  induction k with
  | zero =>
      obtain ⟨run, built, empty, fresh⟩ := exists_built
      obtain ⟨chains, holds, single⟩ := built.single
      refine ⟨run, chains, .init built, holds, single 3, ?_, holds.size ▸ fresh⟩
      rw [← (holds.classes 3 (mem_sizeClasses 3)).live.length_eq, empty, List.length_nil]
  | succ k ih =>
      obtain ⟨run, chains, reachable, holds, single, taken, fresh⟩ := ih (by omega)
      have left : ¬ ∀ B ∈ chains 3, B.Exhausted := by
        intro full
        have counted := payloads_exhausted full
        rw [taken, single, Nat.one_mul] at counted
        exact absurd (counted ▸ few) (Nat.not_succ_le_self _)
      obtain ⟨fuel, p, pool', bs', returned, holds', fit⟩ := holds.malloc (fun _ => 0) 1334 fresh
      obtain ⟨blocks, length⟩ := fit.stays left
      refine ⟨_, _, reachable.trace (.single (.mallocMemory (holds.size ▸ fresh) returned)), holds',
        length.trans single, (fit.payloads rfl).length_eq.trans (congrArg (· + 1) taken),
        fresh.positive, fresh.aligned, fun e member => fresh.apart e (blocks ▸ member)⟩

/-- A datagram's node when the first block is exhausted. -/
theorem mallocMemory_grows_when_exhausted_node :
    ∃ (s : Peaked) (chains : ∀ i, List (Block (megabytes.geometry i))),
      (chains 3).length = 1 ∧ (∀ B ∈ chains 3, B.Exhausted) ∧
      ∃ (fresh : (consecutive 4).Fresh megabytes.size s.run.pool.heap) (fuel p : Nat)
        (pool' : MemoryPool) (bs' : List (Block (megabytes.geometry 3))),
        mallocMemory (fun _ => 0) fuel [consecutive 4] s.run.pool 1334 = some (p, pool') ∧
          Served (fun _ => 0) s.run chains 1334 fresh p pool' bs' ∧ bs'.length = 2 := by
  obtain ⟨run, holding, reached, holds, one, full, fresh⟩ := exists_filled (Nat.le_refl _)
  obtain ⟨peak, reachable⟩ := Peaked.of_reachable reached
  obtain ⟨chains, sound, -, serves⟩ := mallocMemory_grows_when_exhausted (fun _ => 0) reachable
  obtain ⟨fuel, p, pool', bs', returned, served⟩ := serves 1334 (consecutive 4) fresh
  have single : (chains 3).length = 1 := (sound.length_eq (holds.sound _) 3).trans one
  have exhausted : ∀ B ∈ chains 3, B.Exhausted := by
    apply exhausted_single single
    rw [← (sound.live 3).length_eq, ((holds.sound fun _ => 0).live 3).length_eq, full]
    rfl
  have longer : bs'.length = 2 := (served.grows.mpr exhausted).trans (congrArg (· + 1) single)
  exact ⟨_, chains, single, exhausted, fresh, fuel, p, pool', bs', returned, served, longer⟩

/-! ### Node counts that do not fit in `int` -/

/-- A new pool of any size, whatever its node counts come to. -/
def Constructed (n : Nat) (run : Run) : Prop :=
  ∃ answers before, (∀ i, 0 < (answers i).memoryAddr ∧ 16 ∣ (answers i).memoryAddr) ∧
    (∀ i j, i ≠ j →
      Apart ((answers i).memoryAddr, BlockSize * n) ((answers j).memoryAddr, BlockSize * n)) ∧
    memoryPool n answers before = some run.pool ∧ run.live = fun _ => []

theorem built_iff_constructed {S : Setting} {run : Run} : Built S run ↔ Constructed S.n run := by
  constructor
  · rintro ⟨answers, before, fresh, built, empty⟩
    exact ⟨answers, before, fun i => ⟨fresh.positive i, fresh.aligned i⟩, fresh.apart, built, empty⟩
  · rintro ⟨answers, before, places, apart, built, empty⟩
    exact ⟨answers, before, ⟨fun i => (places i).1, fun i => (places i).2, apart⟩, built, empty⟩

/-- Blocks far enough from each other for more than six terabytes. -/
def spaced (k : Nat) : Answer := ⟨2 ^ 43 * (k + 1), fun _ => 0⟩

theorem spaced_apart {j k : Nat} (other : j ≠ k) :
    Apart ((spaced j).memoryAddr, BlockSize * 6400000)
      ((spaced k).memoryAddr, BlockSize * 6400000) := by
  simp only [Apart, spaced, BlockSize]
  omega

/-- The four blocks of such a pool, which are all it ever has. -/
def spacedBlocks : List Extent :=
  [3, 2, 1, 0].map fun k => ((spaced k).memoryAddr, BlockSize * 6400000)

theorem spaced_fresh {h : Memory} (blocks : h.blocks = spacedBlocks) :
    (spaced 4).Fresh (BlockSize * 6400000) h := by
  refine ⟨by decide, by decide, ?_⟩
  intro e member
  rw [blocks] at member
  obtain ⟨k, inside, rfl⟩ := List.mem_map.mp member
  refine spaced_apart (Ne.symm ?_)
  rintro rfl
  exact absurd inside (by decide)

/-- With 6400000 megabytes a block all four node counts are negative. The loops of the
constructor make no round, so that the first free node is the only one, but the counter
is not zero. -/
theorem huge_pool : ∃ pool p pool',
    memoryPool 6400000 (fun i => spaced i) (fun _ => 0) = some pool ∧
      pool.memoryBlockSize = BlockSize * 6400000 ∧ pool.heap.blocks = spacedBlocks ∧
      mallocMemory (fun _ => 0) 1 [spaced 4] pool 1 = some (p, pool') ∧
      pool'.memoryBlockSize = BlockSize * 6400000 ∧ pool'.heap.blocks = spacedBlocks ∧
      ∀ fuel, mallocMemory (fun _ => 0) fuel [spaced 4] pool' 1 = none := by
  refine ⟨_, _, _, rfl, rfl, rfl, rfl, rfl, rfl, fun fuel => ?_⟩
  cases fuel with
  | zero => rfl
  | succ fuel => rfl

/-- The second call follows the null pointer at the end of the free list. -/
theorem second_node_of_huge_pool_is_null :
    ¬ ∀ (other : Int → Fin 4) (n : Nat) run, 1 ≤ n → n < 2 ^ 31 →
      Reachable (Step other) (Constructed n) run → ∀ memorySize (answer : Answer),
        answer.Fresh run.pool.memoryBlockSize run.pool.heap →
        ∃ fuel p pool', mallocMemory other fuel [answer] run.pool memorySize =
          some (p, pool') := by
  intro always
  obtain ⟨pool, p, pool', built, size, blocks, returned, size', blocks', stuck⟩ := huge_pool
  have fresh : (spaced 4).Fresh pool.memoryBlockSize pool.heap := size ▸ spaced_fresh blocks
  have fresh' : (spaced 4).Fresh pool'.memoryBlockSize pool'.heap := size' ▸ spaced_fresh blocks'
  have start : Constructed 6400000 ⟨pool, fun _ => []⟩ := by
    refine ⟨fun i => spaced i, fun _ => 0, fun i => ⟨?_, ?_⟩, fun i j other => ?_, built, rfl⟩
    · simp only [spaced]
      omega
    · simp only [spaced]
      omega
    · exact spaced_apart fun eq => other (Fin.ext eq)
  have one : Reachable (Step fun _ => 0) (Constructed 6400000) _ :=
    (Reachable.init start).trace (.single (Step.mallocMemory fresh returned))
  obtain ⟨fuel, q, pool₂, again⟩ :=
    always (fun _ => 0) 6400000 _ (by decide) (by decide) one 1 (spaced 4) fresh'
  rw [stuck fuel] at again
  cases again

end TransparentProxyNet.MemoryPool
