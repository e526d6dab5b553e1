import Mathlib.Algebra.Order.Floor.Div
import TransparentProxyNet.MemoryPool.Free

/-! One size class of the pool, and what the operations do to it. -/
namespace TransparentProxyNet.MemoryPool
open Heap Links

variable {g : Geometry}

/-- The payloads in use, as the callers know them. -/
def payloads (bs : List (Block g)) : List Nat := bs.flatMap fun B => B.live.map (· + headSize)

/-- The linker of the first block stands behind the constants of the class; the other
blocks start with theirs. -/
def Placed (head : Nat) : List (Block g) → Prop
  | [] => False
  | B :: rest => B.base = head ∧ B.linker = head + 8 ∧ ∀ C ∈ rest, C.linker = C.base

structure ClassHolds (h : Memory) (head : Nat) (live : List Nat) (bs : List (Block g)) : Prop where
  placed : Placed head bs
  chain : ChainHolds h (head + 8) bs
  constants : HeadHolds g h head
  live : live.Perm (payloads bs)

section
variable {h h' : Memory} {head : Nat} {live : List Nat} {bs bs' : List (Block g)}

theorem ClassHolds.frame (holds : ClassHolds h head live bs)
    (same : ∀ B ∈ bs, ∀ a, Inside B.extent a 1 → h'.cell a = h.cell a)
    (owned : ∀ B ∈ bs, B.extent ∈ h'.blocks) : ClassHolds h' head live bs := by
  match bs, holds with
  | [], holds => exact holds.placed.elim
  | B :: rest, ⟨placed, chain, constants, live⟩ =>
      have fits := g.fits
      have header (offset : Nat) (small : offset ≤ 4) :
          h'.cell (head + offset) = h.cell (head + offset) := by
        apply same B List.mem_cons_self _
        rw [← placed.1]
        simp only [Inside, Block.extent, alignedLinker] at *
        omega
      refine ⟨placed, chain.frame same owned, ⟨?_, ?_, ?_⟩, live⟩
      · have first := owned B List.mem_cons_self
        rwa [Block.extent, placed.1] at first
      · exact (header 0 (by omega)).trans constants.numberOfNode
      · exact (header 4 (by omega)).trans constants.nodeSize

theorem Placed.first (placed : Placed head bs) : ∃ B rest, bs = B :: rest ∧ B.base = head ∧
    B.linker = head + 8 ∧ ∀ C ∈ rest, C.linker = C.base := by
  match bs, placed with
  | B :: rest, placed => exact ⟨B, rest, rfl, placed⟩

/-- The constants of a class lie in its first block, in front of the linker. -/
theorem Placed.constants (placed : Placed head bs)
    (apart : bs.Pairwise fun B C => Apart B.extent C.extent)
    (constants : HeadHolds g h head) (owned : ∀ B ∈ bs, B.base = head → B.extent ∈ h'.blocks)
    (frame : ∀ a, (∀ C ∈ bs, ¬ C.Range a) → h'.cell a = h.cell a) : HeadHolds g h' head := by
  obtain ⟨B, rest, rfl, base, linker, -⟩ := placed.first
  have fits := g.fits
  have out (offset : Nat) (small : offset ≤ 4) (C : Block g) (member : C ∈ B :: rest) :
      ¬ C.Range (head + offset) := by
    rcases List.mem_cons.mp member with rfl | inside
    · simp only [Block.Range, linker]
      omega
    · apply not_range ((List.pairwise_cons.mp apart).1 C inside)
      simp only [Inside, Block.extent, base, alignedLinker] at *
      omega
  have owned := owned B List.mem_cons_self base
  rw [Block.extent, base] at owned
  exact ⟨owned, (frame (head + 0) (out 0 (by omega))).trans constants.numberOfNode,
    (frame _ (out 4 (by omega))).trans constants.nodeSize⟩

theorem mem_payloads {p : Nat} : p ∈ payloads bs ↔ ∃ B ∈ bs, ∃ x ∈ B.live, p = x + headSize := by
  simp only [payloads, List.mem_flatMap, List.mem_map, eq_comm]

/-- No payload is in use twice. -/
theorem payloads_nodup (apart : bs.Pairwise fun B C => Apart B.extent C.extent) :
    (payloads bs).Nodup := by
  refine List.nodup_flatMap.mpr ⟨?_, apart.imp ?_⟩
  · intro B _
    refine List.Nodup.map (fun x y eq => ?_) (List.nodup_append.mp B.nodup).2.1
    simpa using eq
  · rintro B C apart p inB inC
    obtain ⟨x, inX, rfl⟩ := List.mem_map.mp inB
    obtain ⟨y, inY, eq⟩ := List.mem_map.mp inC
    apply apart.ne (B.node_start (List.mem_append_right _ inX))
      (C.node_start (List.mem_append_right _ inY))
    simpa using eq.symm

theorem Placed.replace {pre post : List (Block g)} {B B' : Block g}
    (placed : Placed head (pre ++ B :: post))
    (base : B'.base = B.base) (linker : B'.linker = B.linker) :
    Placed head (pre ++ B' :: post) := by
  match pre, placed with
  | [], placed => exact ⟨base.trans placed.1, linker.trans placed.2.1, placed.2.2⟩
  | A :: pre, placed =>
      refine ⟨placed.1, placed.2.1, ?_⟩
      intro C member
      have own := placed.2.2
      simp only [List.append_eq, List.mem_append, List.mem_cons] at member own
      rcases member with before | rfl | after
      · exact own C (.inl before)
      · rw [linker, base]
        exact own B (.inr (.inl rfl))
      · exact own C (.inr (.inr after))

theorem payloads_give {pre post : List (Block g)} {B : Block g} {x : Nat} (member : x ∈ B.live) :
    (payloads (pre ++ B :: post)).Perm
      ((x + headSize) :: payloads (pre ++ B.give member :: post)) := by
  have taken :
      (B.live.map (· + headSize)).Perm ((x + headSize) :: (B.live.erase x).map (· + headSize)) :=
    (List.perm_cons_erase member).map _
  simp only [payloads, List.flatMap_append, List.flatMap_cons]
  apply ((taken.append_right _).append_left _).trans
  exact List.perm_middle

/-- A block of its own at the end of a chain. -/
theorem Placed.append {pre : List (Block g)} {B C : Block g} (placed : Placed head (pre ++ [B]))
    (own : C.linker = C.base) : Placed head (pre ++ [B, C]) := by
  match pre, placed with
  | [], placed => exact ⟨placed.1, placed.2.1, by simpa using own⟩
  | A :: pre, placed =>
      refine ⟨placed.1, placed.2.1, ?_⟩
      intro D member
      simp only [List.append_eq, List.mem_append, List.mem_cons, List.not_mem_nil, or_false]
        at member
      rcases member with before | rfl | rfl
      · exact placed.2.2 D (List.mem_append_left _ before)
      · exact placed.2.2 D (List.mem_append_right _ List.mem_cons_self)
      · exact own

theorem FirstFit.placed {new : Block g} {p : Nat} (fit : FirstFit new h h' bs p bs')
    (placed : Placed head bs) (own : new.linker = new.base) : Placed head bs' := by
  cases fit with
  | taken free => exact placed.replace rfl rfl
  | grown free => exact placed.append own

theorem FirstFit.payloads {new : Block g} {p : Nat} (fit : FirstFit new h h' bs p bs')
    (unused : new.live = []) : (payloads bs').Perm (p :: payloads bs) := by
  cases fit with
  | taken free =>
      simp only [MemoryPool.payloads, List.flatMap_append, List.flatMap_cons]
      exact List.perm_middle
  | @grown pre B x y rest free =>
      have all : MemoryPool.payloads (pre ++ [B, new.take free]) =
          MemoryPool.payloads (pre ++ [B]) ++ [x + headSize] := by
        simp [MemoryPool.payloads, Block.take, unused]
      exact all ▸ List.perm_append_singleton _ _

theorem payloads_exhausted (full : ∀ B ∈ bs, B.Exhausted) :
    (payloads bs).length = bs.length * g.numberOfNode := by
  induction bs with
  | nil => rw [List.length_nil, Nat.zero_mul, payloads, List.flatMap_nil, List.length_nil]
  | cons B bs ih =>
      rw [List.forall_mem_cons] at full
      have first : B.live.length = g.numberOfNode := full.1
      rw [payloads, List.flatMap_cons, List.length_append, List.length_map, first, ← payloads,
        ih full.2, List.length_cons, Nat.succ_mul, Nat.add_comm]

/-- A chain grows only to the length that the payloads in use need. -/
theorem FirstFit.length {new : Block g} {p : Nat} (fit : FirstFit new h h' bs p bs')
    (unused : new.live = []) :
    bs'.length ≤ max bs.length ((MemoryPool.payloads bs').length ⌈/⌉ g.numberOfNode) := by
  have counted := (fit.payloads unused).length_eq
  cases fit with
  | @taken pre B post =>
      apply le_max_of_le_left
      rw [List.length_append, List.length_append, List.length_cons, List.length_cons]
  | @grown pre B x y rest free full =>
      rw [List.length_cons, payloads_exhausted full] at counted
      apply le_max_of_le_right
      rw [counted]
      have longer : (pre ++ [B, new.take free]).length = (pre ++ [B]).length + 1 := by simp
      by_contra short
      rw [longer, Nat.not_le, Nat.lt_succ_iff, ceilDiv_le_iff_le_mul g.several, Nat.mul_comm]
        at short
      omega

/-- `mallocMemory` on a class. -/
theorem ClassHolds.malloc (holds : ClassHolds h head live bs) {answer : Answer}
    (fresh : answer.Fresh g.size h) (point : Nat) {fuel : Nat} (enough : bs.length + 2 ≤ fuel) :
    ∃ (p : Nat) (bs' : List (Block g)) (h' : Memory),
      mallocLoop g.size head fuel [answer] point (head + 8) h = some (p, h') ∧
      ClassHolds h' head (p :: live) bs' ∧ FirstFit fresh.block h h' bs p bs' := by
  obtain ⟨B, rest, rfl, base, linker, own⟩ := holds.placed.first
  have chain := holds.chain
  rw [← linker] at chain ⊢
  rw [List.length_cons] at enough
  obtain ⟨p, bs', h', returned, fit, chain'⟩ :=
    mallocLoop_spec [] point fresh holds.constants chain enough
  rw [linker] at chain'
  have placed := fit.placed holds.placed rfl
  refine ⟨p, bs', h', returned, ⟨placed, chain', ?_, ?_⟩, fit⟩
  · exact placed.constants chain'.apart holds.constants (fun C member _ => chain'.owned C member)
      fun a outside => fit.frame outside
  · exact (holds.live.cons _).trans (fit.payloads rfl).symm

/-- `freeMemory` of a payload of the class. -/
theorem ClassHolds.free {pool : MemoryPool} (holds : ClassHolds pool.heap head live bs) {p : Nat}
    (member : p ∈ live) :
    ∃ (bs' : List (Block g)) (h' : Memory), freeMemory pool p = some { pool with heap := h' } ∧
      ClassHolds h' head (live.erase p) bs' ∧ bs'.length = bs.length ∧
      (∀ e ∈ pool.heap.blocks, e ∈ h'.blocks) ∧
      (∀ C ∈ bs', ∃ B ∈ bs, C.extent = B.extent) ∧
      ∀ a, (∀ C ∈ bs', ¬ C.Range a) → h'.cell a = pool.heap.cell a := by
  obtain ⟨B, inside, x, inLive, rfl⟩ := mem_payloads.mp (holds.live.mem_iff.mp member)
  obtain ⟨pre, post, rfl⟩ := List.append_of_mem inside
  have owned := holds.chain.owned B inside
  have freed := freeMemory_eq owned (holds.chain.holds B inside) inLive
  obtain ⟨chain', frame⟩ := holds.chain.give inLive
  have outside (a : Nat) (out : ∀ C ∈ pre ++ B.give inLive :: post, ¬ C.Range a) :=
    frame a (out (B.give inLive) (List.mem_append_right _ List.mem_cons_self))
  have placed : Placed head (pre ++ B.give inLive :: post) := holds.placed.replace rfl rfl
  refine ⟨_, _, freed, ⟨placed, chain', placed.constants chain'.apart holds.constants
    (fun C member _ => chain'.owned C member) outside, ?_⟩, by simp, fun _ => id,
    fun C old => ?_, outside⟩
  · have left := (holds.live.trans (payloads_give inLive)).erase (x + headSize)
    rwa [List.erase_cons_head] at left
  · rw [List.mem_append, List.mem_cons] at old
    rcases old with before | rfl | after
    · exact ⟨C, List.mem_append_left _ before, rfl⟩
    · exact ⟨B, List.mem_append_right _ List.mem_cons_self, rfl⟩
    · exact ⟨C, List.mem_append_right _ (List.mem_cons_of_mem B after), rfl⟩

theorem payloads_busy (bs : List (Block g)) : payloads (busy bs) = payloads bs := by
  induction bs with
  | nil => rfl
  | cons B bs ih =>
      by_cases idle : B.live = []
      · simpa [payloads, busy, idle] using ih
      · simpa [payloads, busy, idle] using ih

/-- `freeOldMemoryBlock` on a class is its loop, started at the first block. -/
theorem ClassHolds.freeOldClass_eq {pool : MemoryPool} {i : Fin 4} {A : Block g}
    {rest : List (Block g)} (holds : ClassHolds pool.heap head live (A :: rest))
    (here : pool.nodePointHeadLinkerHead i = head) (fuel : Nat) :
    freeOldClass fuel pool i =
      (freeLoop g.numberOfNode fuel A.linker (pool.heap.cell (A.linker + 24)) pool.heap).map
        fun h => { pool with heap := h } := by
  have loadNext := A.load_next (holds.chain.owned A List.mem_cons_self)
  have loadNumber : pool.heap.load head 4 = some g.numberOfNode := by
    have fits := g.fits
    rw [load_eq (.of_mem holds.constants.owned ⟨by simp only []; omega, ?_⟩),
      holds.constants.numberOfNode]
    simp only [alignedLinker] at *
    omega
  rw [holds.placed.2.1] at loadNext ⊢
  simp only [freeOldClass, here, Option.bind_eq_bind, loadNext, Option.bind_some, loadNumber,
    Option.map_eq_bind]
  rfl

/-- `freeOldMemoryBlock` on a class. -/
theorem ClassHolds.freeOld {pool : MemoryPool} {i : Fin 4}
    (holds : ClassHolds pool.heap head live bs)
    (here : pool.nodePointHeadLinkerHead i = head) {fuel : Nat} (enough : bs.length ≤ fuel) :
    ∃ h' : Memory, freeOldClass fuel pool i = some { pool with heap := h' } ∧
      ClassHolds h' head live (kept bs) ∧
      (∀ e, e ∈ h'.blocks ↔ e ∈ pool.heap.blocks ∧
        ∀ B ∈ bs.tail, B.live = [] → e.1 ≠ B.base) ∧
      ∀ a, (∀ B ∈ bs, a ≠ B.linker + 24) → h'.cell a = pool.heap.cell a := by
  obtain ⟨A, rest, rfl, base, linker, own⟩ := holds.placed.first
  have chain := holds.chain
  rw [← linker] at chain
  obtain ⟨h', done, chain', released, frame⟩ := freeLoop_spec chain own enough
  have outside (a : Nat) (out : ∀ B ∈ A :: rest, ¬ B.Range a) : h'.cell a = pool.heap.cell a :=
    frame a fun B member eq => out B member (eq ▸ B.field_range (by omega))
  refine ⟨h', ?_, ⟨?_, linker ▸ chain', ?_, ?_⟩, released, frame⟩
  · rw [holds.freeOldClass_eq here, done]
    rfl
  · exact ⟨base, linker, fun C member => own C (mem_busy.mp member).1⟩
  · refine holds.placed.constants chain.apart holds.constants ?_ outside
    intro C member eq
    rcases List.mem_cons.mp member with rfl | inside
    · exact chain'.owned C List.mem_cons_self
    · exact absurd (base.trans eq.symm)
        (Block.base_ne ((List.pairwise_cons.mp chain.apart).1 C inside))
  · have same : payloads (A :: busy rest) = payloads (A :: rest) := by
      rw [payloads, List.flatMap_cons, ← payloads, payloads_busy]
      rfl
    exact same ▸ holds.live

/-- A class without an idle block stays as it is. -/
theorem ClassHolds.freeOld_still {pool : MemoryPool} {i : Fin 4}
    (holds : ClassHolds pool.heap head live bs) (here : pool.nodePointHeadLinkerHead i = head)
    (busy : ∀ B ∈ bs.tail, B.live ≠ []) {fuel : Nat} (enough : bs.length ≤ fuel) :
    freeOldClass fuel pool i = some pool := by
  obtain ⟨A, rest, rfl, -, linker, -⟩ := holds.placed.first
  have chain := holds.chain
  rw [← linker] at chain
  rw [holds.freeOldClass_eq here, freeLoop_still chain busy enough]
  rfl

/-- A caller writes inside a payload. -/
theorem ClassHolds.write (holds : ClassHolds h head live bs) {p a v : Nat} (member : p ∈ live)
    (low : p ≤ a) (high : a < p + (g.nodeSize - headSize)) :
    ClassHolds (h.put a v) head live bs ∧ ∃ B ∈ bs, B.Range a := by
  obtain ⟨B, inside, x, inLive, rfl⟩ := mem_payloads.mp (holds.live.mem_iff.mp member)
  have node : x ∈ B.free ++ B.live := List.mem_append_right _ inLive
  obtain ⟨start, stop, -⟩ := B.node_inside node
  have place := B.place
  have roomy := g.roomy
  simp only [headSize, alignedLinker] at *
  have range : B.Range a := by
    simp only [Block.Range]
    omega
  refine ⟨?_, B, inside, range⟩
  have untouched : B.Holds (h.put a v).cell := by
    apply (holds.chain.holds B inside).put (by omega) (by omega)
    intro z other
    by_cases self : z = x
    · omega
    · have := nodes_apart (B.mem_nodes other) (B.mem_nodes node) self
      omega
  obtain ⟨pre, post, rfl⟩ := List.append_of_mem inside
  have frame (b : Nat) (out : ¬ B.Range b) : (h.put a v).cell b = h.cell b :=
    put_of_ne fun eq => out (eq ▸ range)
  have chain' : ChainHolds (h.put a v) (head + 8) (pre ++ B :: post) :=
    holds.chain.replace rfl rfl untouched (put_of_ne (by omega)) frame fun _ => id
  exact ⟨holds.placed, chain', holds.placed.constants chain'.apart holds.constants
    (fun C member _ => chain'.owned C member) fun b out => frame b (out B inside), holds.live⟩

end

/-- A round of the pool's constructor makes a class of one block, all of it free. -/
theorem construct_spec {pool : MemoryPool} {answers : Fin 4 → Answer} {i : Fin 4}
    (size : pool.memoryBlockSize = g.size) (number : numberOfNode g.size i = g.numberOfNode)
    (node : nodeSize i = g.nodeSize) (fresh : (answers i).Fresh g.size pool.heap) :
    ∃ (bs : List (Block g)) (h' : Memory), construct answers pool i = some { pool with
        nodePointHeadLinkerHead :=
          Function.update pool.nodePointHeadLinkerHead i (answers i).memoryAddr
        heap := h' } ∧
      ClassHolds h' (answers i).memoryAddr [] bs ∧ bs.length = 1 ∧
      (∀ C ∈ bs, C.extent = ((answers i).memoryAddr, g.size)) ∧
      h'.blocks = ((answers i).memoryAddr, g.size) :: pool.heap.blocks ∧
      ∀ a, ¬ ((answers i).memoryAddr ≤ a ∧ a < (answers i).memoryAddr + g.size) →
        h'.cell a = pool.heap.cell a := by
  obtain ⟨b, addr⟩ : ∃ b, (answers i).memoryAddr = b := ⟨_, rfl⟩
  have positive := fresh.positive
  have aligned := fresh.aligned
  rw [addr] at positive aligned ⊢
  have fits := g.fits
  have roomy := g.roomy
  simp only [alignedLinker] at fits
  obtain ⟨h₁, allocated⟩ : ∃ h₁, h₁ = pool.heap.alloc (b, g.size) (answers i).content := ⟨_, rfl⟩
  have blocks₁ : h₁.blocks = (b, g.size) :: pool.heap.blocks := by rw [allocated]; rfl
  obtain ⟨h₂, constants⟩ : ∃ h₂, h₂ = (h₁.put b g.numberOfNode).put (b + 4) g.nodeSize := ⟨_, rfl⟩
  have owned₂ : (b, g.size) ∈ h₂.blocks := by
    rw [constants, put_blocks, put_blocks, blocks₁]
    exact List.mem_cons_self
  obtain ⟨h', built, blocks, holds, last, frame⟩ :=
    nodePointLinker_spec g positive aligned (.inr rfl : b + 8 = b ∨ b + 8 = b + 8) owned₂
  obtain ⟨B, block⟩ :
      ∃ B, B = Block.fresh g positive aligned (.inr rfl : b + 8 = b ∨ b + 8 = b + 8) := ⟨_, rfl⟩
  have linker : B.linker = b + 8 := by rw [block]; rfl
  have base : B.base = b := by rw [block]; rfl
  have live : B.live = [] := by rw [block]; rfl
  have extent : B.extent = (b, g.size) := by rw [Block.extent, base]
  rw [← block] at holds
  have owned' : B.extent ∈ h'.blocks := by
    rw [extent, blocks]
    exact owned₂
  refine ⟨[B], h', ?_, ⟨⟨base, linker, by simp⟩, ?_, ⟨?_, ?_, ?_⟩, ?_⟩, rfl, ?_, ?_, ?_⟩
  · have store₁ : h₁.store b 4 g.numberOfNode = _ :=
      store_eq
        (.of_mem (blocks₁ ▸ List.mem_cons_self) ⟨by simp only []; omega, by simp only []; omega⟩)
    have store₂ : (h₁.put b g.numberOfNode).store (b + 4) 4 g.nodeSize = _ :=
      store_eq
        (.of_mem (blocks₁ ▸ List.mem_cons_self) ⟨by simp only []; omega, by simp only []; omega⟩)
    simp only [construct, addr, size, number, node, ← allocated, nodePointLinkerHead,
      Option.bind_eq_bind, store₁, Option.bind_some, store₂, ← constants, built]
    rfl
  · rw [← linker]
    exact .cons ⟨chain_nil.mpr (by rw [linker]; exact last), by simp, by simp, List.Pairwise.nil⟩
      holds owned' (by simp)
  · exact extent ▸ owned'
  · rw [frame b (by omega), constants, put_of_ne (by omega), put_self]
  · rw [frame (b + 4) (by omega), constants, put_self]
  · simp [payloads, live]
  · simpa using extent
  · rw [blocks, constants, put_blocks, put_blocks, blocks₁]
  · intro a outside
    rw [frame a (by omega), constants, put_of_ne (by omega), put_of_ne (by omega), allocated,
      alloc_outside (e := (b, g.size)) outside]

end TransparentProxyNet.MemoryPool
