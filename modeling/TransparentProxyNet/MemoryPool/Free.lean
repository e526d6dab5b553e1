import TransparentProxyNet.MemoryPool.Malloc

/-! `freeMemory` of a node in use, and `freeOldMemoryBlock` on the chain of one class. -/
namespace TransparentProxyNet.MemoryPool
open Heap Links

variable {g : Geometry}

section
variable {B : Block g} {h : Memory} {x : Nat}

/-- The back pointer leads to the linker of the node's own block. -/
theorem freeMemory_eq {pool : MemoryPool} (owned : B.extent ∈ pool.heap.blocks)
    (holds : B.Holds pool.heap.cell) (member : x ∈ B.live) :
    freeMemory pool (x + headSize) = some { pool with
      heap := ((pool.heap.put (B.linker + 8) (pool.heap.cell (B.linker + 8) + 1)).put
        (B.linker + 16) x).put x
        (pool.heap.cell (B.linker + 16)) } := by
  have inside : x ∈ B.free ++ B.live := List.mem_append_right _ member
  obtain ⟨h, heap⟩ : ∃ h, pool.heap = h := ⟨_, rfl⟩
  rw [heap] at owned holds ⊢
  obtain ⟨h₁, one⟩ : ∃ h₁, h₁ = h.put (B.linker + 8) (h.cell (B.linker + 8) + 1) := ⟨_, rfl⟩
  have owned₁ : B.extent ∈ h₁.blocks := one ▸ owned
  have node : x + headSize - headSize = x := Nat.add_sub_cancel ..
  have loadLinker : h.load x 8 = some B.linker := by
    rw [load_eq (B.owns_node owned inside), holds.live x member]
  have loadCount := B.load_count owned
  have storeCount : h.store (B.linker + 8) 4 (h.cell (B.linker + 8) + 1) = some h₁ :=
    (B.store_count owned _).trans (congrArg some one.symm)
  have loadFirst : h₁.load (B.linker + 16) 8 = some (h.cell (B.linker + 16)) := by
    rw [B.load_first owned₁, one, put_of_ne (by omega)]
  have storeFirst := B.store_first owned₁ x
  have storeLink : (h₁.put (B.linker + 16) x).store x 8 (h.cell (B.linker + 16)) = _ :=
    store_eq (B.owns_node (h := h₁.put (B.linker + 16) x) owned₁ inside)
  rw [← one]
  simp only [freeMemory, heap, node, Option.bind_eq_bind, loadLinker, Option.bind_some, loadCount,
    storeCount, loadFirst, storeFirst, storeLink]
  rfl

theorem ChainHolds.give {start : Nat} {pre post : List (Block g)}
    (chain : ChainHolds h start (pre ++ B :: post)) (member : x ∈ B.live) :
    let h' := ((h.put (B.linker + 8) (h.cell (B.linker + 8) + 1)).put (B.linker + 16) x).put x
      (h.cell (B.linker + 16))
    ChainHolds h' start (pre ++ B.give member :: post) ∧ ∀ a, ¬ B.Range a →
      h'.cell a = h.cell a := by
  have inside : x ∈ B.free ++ B.live := List.mem_append_right _ member
  have holds := chain.holds B (List.mem_append_right _ List.mem_cons_self)
  have frame (a : Nat) (ne₁ : a ≠ B.linker + 8) (ne₂ : a ≠ B.linker + 16) (ne₃ : a ≠ x) :
      (((h.put (B.linker + 8) (h.cell (B.linker + 8) + 1)).put (B.linker + 16) x).put x
        (h.cell (B.linker + 16))).cell a = h.cell a := by
    rw [put_of_ne ne₃, put_of_ne ne₂, put_of_ne ne₁]
  have outside (a : Nat) (out : ¬ B.Range a) := frame a
    (fun eq => out (eq ▸ B.field_range (by omega))) (fun eq => out (eq ▸ B.field_range (by omega)))
    (fun eq => out (eq ▸ B.node_range inside))
  refine ⟨chain.replace rfl rfl (holds.give member) ?_ outside fun _ => id, outside⟩
  exact frame _ (by omega) (by omega) (B.node_ne_field inside (by omega)).symm

end

/-- A block is idle exactly if its counter is full. -/
theorem Block.Holds.idle_iff {B : Block g} {cell : Nat → Nat} (holds : B.Holds cell) :
    cell (B.linker + 8) = g.numberOfNode ↔ B.live = [] := by
  have count := holds.count
  have length := B.length
  rw [← List.length_eq_zero_iff]
  omega

theorem Geometry.size_pos (g : Geometry) : 0 < g.size := by
  have fits := g.fits
  simp only [alignedLinker] at fits
  omega

theorem Block.base_ne {A B : Block g} (apart : Apart A.extent B.extent) : A.base ≠ B.base :=
  apart.start_ne g.size_pos g.size_pos

/-- The blocks of a chain that stay, behind the first one. -/
def busy (bs : List (Block g)) : List (Block g) := bs.filter fun B => !B.live.isEmpty

/-- The blocks of a chain that stay. -/
def kept : List (Block g) → List (Block g)
  | [] => []
  | A :: rest => A :: busy rest

theorem mem_busy {B : Block g} {bs : List (Block g)} : B ∈ busy bs ↔ B ∈ bs ∧ B.live ≠ [] := by
  simp [busy]

theorem mem_of_kept {B : Block g} {bs : List (Block g)} (member : B ∈ kept bs) : B ∈ bs := by
  match bs, member with
  | A :: rest, member =>
      rcases List.mem_cons.mp member with rfl | inside
      · exact List.mem_cons_self
      · exact List.mem_cons_of_mem A (mem_busy.mp inside).1

theorem kept_tail {B : Block g} {bs : List (Block g)} (member : B ∈ (kept bs).tail) :
    B.live ≠ [] := by
  match bs, member with
  | A :: rest, member => exact (mem_busy.mp member).2

theorem kept_length (bs : List (Block g)) : (kept bs).length ≤ bs.length := by
  match bs with
  | [] => exact Nat.le_refl 0
  | A :: rest => exact Nat.succ_le_succ (List.length_filter_le _ rest)

/-- One idle block leaves the chain and is given back. -/
theorem release {A B : Block g} {bs : List (Block g)} {h : Memory}
    (chain : ChainHolds h A.linker (A :: B :: bs)) (place : B.linker = B.base) :
    ∃ h', (h.put (A.linker + 24) (h.cell (B.linker + 24))).free B.linker = some h' ∧
      h'.cell = (h.put (A.linker + 24) (h.cell (B.linker + 24))).cell ∧
      h'.blocks = h.blocks.filter (fun e => e.1 ≠ B.base) ∧ ChainHolds h' A.linker (A :: bs) := by
  have rest := chain.tail.2
  have apart := (List.pairwise_cons.mp chain.apart).1
  have apartB := (List.pairwise_cons.mp rest.apart).1
  have freed :=
    free_eq (h := h.put (A.linker + 24) (h.cell (B.linker + 24))) (rest.owned B List.mem_cons_self)
  have start : B.extent.1 = B.linker := place.symm
  rw [start] at freed
  refine ⟨_, freed, rfl, by rw [place]; rfl, .cons ?_ ?_ ?_ ?_⟩
  · rw [put_self]
    refine rest.tail.2.frame (fun C member a inside => put_of_ne ?_) ?_
    · exact ((apart C (List.mem_cons_of_mem B member)).ne (A.field_inside (by omega)) inside).symm
    · intro C member
      rw [place]
      have other : C.base ≠ B.base := (Block.base_ne (apartB C member)).symm
      exact mem_free (e := B.extent) (rest.owned C (List.mem_cons_of_mem B member)) other
  · exact (chain.holds A List.mem_cons_self).put (by omega) (by omega) fun x member =>
      (A.node_ne_field member (by omega)).symm
  · rw [place]
    exact mem_free (e := B.extent) (chain.owned A List.mem_cons_self)
      (Block.base_ne (apart B List.mem_cons_self))
  · exact fun C member => apart C (List.mem_cons_of_mem B member)

section
variable {A B : Block g} {bs : List (Block g)} {h : Memory} {fuel : Nat}

/-- The loop walks over a block that has a node in use. -/
theorem freeLoop_busy (chain : ChainHolds h A.linker (A :: B :: bs)) (busy : B.live ≠ []) :
    freeLoop g.numberOfNode (fuel + 1) A.linker (h.cell (A.linker + 24)) h =
      freeLoop g.numberOfNode fuel B.linker (h.cell (B.linker + 24)) h := by
  have rest := chain.tail.2
  have link := rest.tail.1
  have holds := rest.holds B List.mem_cons_self
  have loadCount := B.load_count (rest.owned B List.mem_cons_self)
  have loadNext := B.load_next (rest.owned B List.mem_cons_self)
  have loadLink := A.load_next (chain.owned A List.mem_cons_self)
  have pointer : B.linker ≠ 0 := by have := B.linker_pos; omega
  rw [link] at loadLink
  rw [link, freeLoop, if_neg pointer]
  simp only [Option.bind_eq_bind, loadCount, loadNext, loadLink, Option.bind_some, holds.idle_iff,
    if_neg busy]

/-- The loop unlinks an idle block, gives it back and stays where it is. -/
theorem freeLoop_idle {h₁ : Memory} (chain : ChainHolds h A.linker (A :: B :: bs))
    (idle : B.live = [])
    (freed : (h.put (A.linker + 24) (h.cell (B.linker + 24))).free B.linker = some h₁)
    (owned : A.extent ∈ h₁.blocks) :
    freeLoop g.numberOfNode (fuel + 1) A.linker (h.cell (A.linker + 24)) h =
      freeLoop g.numberOfNode fuel A.linker (h₁.cell (A.linker + 24)) h₁ := by
  have rest := chain.tail.2
  have link := rest.tail.1
  have holds := rest.holds B List.mem_cons_self
  have loadCount := B.load_count (rest.owned B List.mem_cons_self)
  have loadNext := B.load_next (rest.owned B List.mem_cons_self)
  have storeLink := A.store_next (chain.owned A List.mem_cons_self) (h.cell (B.linker + 24))
  have loadLink := A.load_next owned
  have pointer : B.linker ≠ 0 := by have := B.linker_pos; omega
  rw [link, freeLoop, if_neg pointer]
  simp only [Option.bind_eq_bind, loadCount, loadNext, Option.bind_some, holds.idle_iff,
    if_pos idle, storeLink, freed, loadLink]

/-- Exactly the idle blocks are given back, and only links are written. -/
theorem freeLoop_spec (chain : ChainHolds h A.linker (A :: bs))
    (place : ∀ B ∈ bs, B.linker = B.base) (enough : bs.length + 1 ≤ fuel) :
    ∃ h', freeLoop g.numberOfNode fuel A.linker (h.cell (A.linker + 24)) h = some h' ∧
      ChainHolds h' A.linker (A :: busy bs) ∧
      (∀ e, e ∈ h'.blocks ↔ e ∈ h.blocks ∧ ∀ B ∈ bs, B.live = [] → e.1 ≠ B.base) ∧
      ∀ a, (∀ B ∈ A :: bs, a ≠ B.linker + 24) → h'.cell a = h.cell a := by
  induction bs generalizing A h fuel with
  | nil =>
      obtain ⟨fuel, rfl⟩ : ∃ n, fuel = n + 1 := ⟨fuel - 1, by omega⟩
      refine ⟨h, ?_, chain, by simp, fun _ _ => rfl⟩
      rw [chain_nil.mp chain.tail.2.linked, freeLoop, if_pos rfl]
  | cons B bs ih =>
      obtain ⟨fuel, rfl⟩ : ∃ n, fuel = n + 1 := ⟨fuel - 1, by omega⟩
      have fewer : bs.length + 1 ≤ fuel := by rwa [List.length_cons, Nat.succ_le_succ_iff] at enough
      have places : ∀ C ∈ bs, C.linker = C.base := fun C member =>
        place C (List.mem_cons_of_mem B member)
      have apart := (List.pairwise_cons.mp chain.apart).1
      by_cases idle : B.live = []
      · obtain ⟨h₁, freed, cells, blocks, chain₁⟩ := release chain (place B List.mem_cons_self)
        obtain ⟨h', done, chain', released, frame⟩ := ih chain₁ places fewer
        have goes : busy (B :: bs) = busy bs := by simp [busy, idle]
        refine ⟨h', ?_, goes ▸ chain', ?_, ?_⟩
        · rw [freeLoop_idle chain idle freed (chain₁.owned A List.mem_cons_self), done]
        · intro e
          rw [released, blocks, List.mem_filter, List.forall_mem_cons, and_assoc]
          simp [idle]
        · intro a outside
          rw [frame a, cells, put_of_ne (outside A List.mem_cons_self)]
          intro C member
          rcases List.mem_cons.mp member with rfl | inside
          · exact outside C List.mem_cons_self
          · exact outside C (List.mem_cons_of_mem A (List.mem_cons_of_mem B inside))
      · have rest := chain.tail.2
        have link := rest.tail.1
        rw [link] at rest
        obtain ⟨h', done, chain', released, frame⟩ := ih rest places fewer
        have same (a : Nat) (inside : Inside A.extent a 1) : h'.cell a = h.cell a :=
          frame a fun C member => (apart C member).ne inside (C.field_inside (by omega))
        have stays : busy (B :: bs) = B :: busy bs := by simp [busy, idle]
        rw [← link] at chain'
        have owned : A.extent ∈ h'.blocks := by
          refine (released _).mpr ⟨chain.owned A List.mem_cons_self, fun C member _ => ?_⟩
          exact Block.base_ne (apart C (List.mem_cons_of_mem B member))
        refine ⟨h', ?_, stays ▸ chain'.behind (chain.holds A List.mem_cons_self) same owned ?_,
          ?_, ?_⟩
        · rw [freeLoop_busy chain idle, done]
        · exact fun C member => apart C (mem_of_kept member)
        · intro e
          rw [released, List.forall_mem_cons]
          simp [idle]
        · intro a outside
          exact frame a fun C member => outside C (List.mem_cons_of_mem A member)

/-- A chain without an idle block stays as it is. -/
theorem freeLoop_still (chain : ChainHolds h A.linker (A :: bs)) (busy : ∀ B ∈ bs, B.live ≠ [])
    (enough : bs.length + 1 ≤ fuel) :
    freeLoop g.numberOfNode fuel A.linker (h.cell (A.linker + 24)) h = some h := by
  induction bs generalizing A fuel with
  | nil =>
      obtain ⟨fuel, rfl⟩ : ∃ n, fuel = n + 1 := ⟨fuel - 1, by omega⟩
      rw [chain_nil.mp chain.tail.2.linked, freeLoop, if_pos rfl]
  | cons B bs ih =>
      obtain ⟨fuel, rfl⟩ : ∃ n, fuel = n + 1 := ⟨fuel - 1, by omega⟩
      have rest := chain.tail.2
      rw [rest.tail.1] at rest
      rw [freeLoop_busy chain (busy B List.mem_cons_self)]
      apply ih rest
      · exact fun C member => busy C (List.mem_cons_of_mem B member)
      · rwa [List.length_cons, Nat.succ_le_succ_iff] at enough

end

end TransparentProxyNet.MemoryPool
