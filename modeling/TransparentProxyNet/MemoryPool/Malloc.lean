import TransparentProxyNet.MemoryPool.Block

/-! `mallocMemory` on the chain of one class: the first block with a node to spare
gives its first free node, and a chain without one grows at its end. -/
namespace TransparentProxyNet.MemoryPool
open Heap Links

variable {g : Geometry}

/-- The blocks of a class, from one linker on. -/
structure ChainHolds (h : Memory) (start : Nat) (bs : List (Block g)) : Prop where
  linked : Chain h.cell 24 start (bs.map Block.linker)
  holds : ∀ B ∈ bs, B.Holds h.cell
  owned : ∀ B ∈ bs, B.extent ∈ h.blocks
  apart : bs.Pairwise fun B C => Apart B.extent C.extent

/-- The bytes of a block from its linker on. -/
def Block.Range (B : Block g) (a : Nat) : Prop := B.linker ≤ a ∧ a < B.base + g.size

theorem Block.Range.inside {B : Block g} {a : Nat} (range : B.Range a) : Inside B.extent a 1 := by
  have place := B.place
  simp only [Range, Inside, Block.extent] at *
  omega

theorem Block.field_inside (B : Block g) {offset : Nat} (small : offset < 32) :
    Inside B.extent (B.linker + offset) 1 := by
  have inside := B.linker_inside
  simp only [Inside] at *
  omega

theorem Block.field_range (B : Block g) {offset : Nat} (small : offset < 32) :
    B.Range (B.linker + offset) := by
  have inside := B.linker_inside
  simp only [Inside, Block.extent, Range] at *
  omega

theorem Block.node_range {B : Block g} {x : Nat} (member : x ∈ B.free ++ B.live) : B.Range x := by
  obtain ⟨low, high, -⟩ := B.node_inside member
  have place := B.place
  have roomy := g.roomy
  simp only [Range, alignedLinker] at *
  omega

/-- What lies in one block is not in the range of another. -/
theorem not_range {B C : Block g} {a : Nat} (apart : Apart B.extent C.extent)
    (inside : Inside B.extent a 1) : ¬ C.Range a := fun range => apart.ne inside range.inside rfl

theorem Block.linker_pos (B : Block g) : 0 < B.linker := by
  have positive := B.positive
  have place := B.place
  omega

/-- Every node but the spare one is in use. -/
def Block.Exhausted (B : Block g) : Prop := B.live.length = g.numberOfNode

theorem Block.exhausted_iff (B : Block g) : B.Exhausted ↔ ∃ z, B.free = [z] := by
  have length := B.length
  rw [Exhausted, ← List.length_eq_one_iff]
  omega

/-- What `mallocMemory` does to a chain and to the memory when `aligned_alloc` would give
it `new`: the first block that is not exhausted gives its first free node; if there is
none, `new` comes behind the last one and gives its first. -/
inductive FirstFit (new : Block g) (h h' : Memory) : List (Block g) → Nat → List (Block g) → Prop
  | taken {pre B post x y rest} (free : B.free = x :: y :: rest) :
      (∀ C ∈ pre, C.Exhausted) → h'.blocks = h.blocks →
      (∀ a, ¬ B.Range a → h'.cell a = h.cell a) →
      FirstFit new h h' (pre ++ B :: post) (x + headSize) (pre ++ B.take free :: post)
  | grown {pre B x y rest} (free : new.free = x :: y :: rest) :
      (∀ C ∈ pre ++ [B], C.Exhausted) → h'.blocks = new.extent :: h.blocks →
      (∀ a, ¬ new.Range a → a ≠ B.linker + 24 → h'.cell a = h.cell a) →
      FirstFit new h h' (pre ++ [B]) (x + headSize) (pre ++ [B, new.take free])

section
variable {B new : Block g} {h : Memory} {size headPoint fuel point x y : Nat} {rest : List Nat}
  {answers : List Answer}

theorem take_step (owned : B.extent ∈ h.blocks) (holds : B.Holds h.cell)
    (free : B.free = x :: y :: rest) :
    mallocLoop size headPoint (fuel + 1) answers point B.linker h =
      some
        (x + headSize,
          ((h.put (B.linker + 8) (h.cell (B.linker + 8) - 1)).put (B.linker + 16) (h.cell x)).put x
        B.linker) := by
  have count := holds.count
  have first := holds.free
  have member : x ∈ B.free ++ B.live := List.mem_append_left _ (free ▸ List.mem_cons_self)
  rw [free, chain_cons] at first
  rw [free, List.length_cons, List.length_cons] at count
  obtain ⟨h₁, one⟩ : ∃ h₁, h₁ = h.put (B.linker + 8) (h.cell (B.linker + 8) - 1) := ⟨_, rfl⟩
  have owned₁ : B.extent ∈ h₁.blocks := one ▸ owned
  have loadCount := B.load_count owned
  have storeCount : h.store (B.linker + 8) 4 (h.cell (B.linker + 8) - 1) = some h₁ :=
    (B.store_count owned _).trans (congrArg some one.symm)
  have loadFirst : h₁.load (B.linker + 16) 8 = some x := by
    rw [B.load_first owned₁, one, put_of_ne (by omega), first.1]
  have loadLink : h₁.load x 8 = some (h.cell x) := by
    rw [load_eq (B.owns_node owned₁ member), one, put_of_ne (B.node_ne_field member (by omega))]
  have storeFirst := B.store_first owned₁ (h.cell x)
  have storeBack : (h₁.put (B.linker + 16) (h.cell x)).store x 8 B.linker = _ :=
    store_eq (B.owns_node (h := h₁.put (B.linker + 16) (h.cell x)) owned₁ member)
  have nonzero : h.cell (B.linker + 8) ≠ 0 := by omega
  have pointer : B.linker ≠ 0 := by have := B.linker_pos; omega
  rw [← one]
  simp only [mallocLoop, growAtEnd, if_neg pointer, Option.bind_eq_bind, Option.bind_some,
    loadCount, if_pos nonzero, storeCount, loadFirst, loadLink, storeFirst, storeBack]
  rfl

theorem skip_step {z : Nat} (owned : B.extent ∈ h.blocks) (holds : B.Holds h.cell)
    (free : B.free = [z]) : mallocLoop size headPoint (fuel + 1) answers point B.linker h =
      mallocLoop size headPoint fuel answers B.linker (h.cell (B.linker + 24)) h := by
  have count := holds.count
  rw [free, List.length_singleton] at count
  have zero : ¬ h.cell (B.linker + 8) ≠ 0 := by omega
  have loadCount := B.load_count owned
  have loadNext := B.load_next owned
  have pointer : B.linker ≠ 0 := by have := B.linker_pos; omega
  simp only [mallocLoop, growAtEnd, if_neg pointer, Option.bind_eq_bind, Option.bind_some,
    loadCount, if_neg zero, loadNext]

/-- The constants of the class, where `getNewMemoryBlock` reads them. -/
structure HeadHolds (g : Geometry) (h : Memory) (headPoint : Nat) : Prop where
  owned : (headPoint, g.size) ∈ h.blocks
  numberOfNode : h.cell headPoint = g.numberOfNode
  nodeSize : h.cell (headPoint + 4) = g.nodeSize

/-- What `aligned_alloc` may answer: an aligned block that meets no other. -/
structure Answer.Fresh (answer : Answer) (size : Nat) (h : Memory) : Prop where
  positive : 0 < answer.memoryAddr
  aligned : 16 ∣ answer.memoryAddr
  apart : ∀ e ∈ h.blocks, Apart (answer.memoryAddr, size) e

def Answer.Fresh.block {answer : Answer} (fresh : answer.Fresh g.size h) : Block g :=
  .fresh g fresh.positive fresh.aligned (.inl rfl)

theorem getNewMemoryBlock_spec {answer : Answer} (fresh : answer.Fresh g.size h)
    (head : HeadHolds g h headPoint) (owned : B.extent ∈ h.blocks) :
    ∃ h', getNewMemoryBlock g.size answer B.linker headPoint h = some h' ∧
      h'.blocks = fresh.block.extent :: h.blocks ∧ fresh.block.Holds h'.cell ∧
      h'.cell (fresh.block.linker + 24) = 0 ∧ h'.cell (B.linker + 24) = fresh.block.linker ∧
      ∀ a, ¬ fresh.block.Range a → a ≠ B.linker + 24 → h'.cell a = h.cell a := by
  obtain ⟨h₁, allocated⟩ : ∃ h₁, h₁ = h.alloc (answer.memoryAddr, g.size) answer.content := ⟨_, rfl⟩
  have blocks₁ : h₁.blocks = (answer.memoryAddr, g.size) :: h.blocks := by rw [allocated]; rfl
  have fits := g.fits
  simp only [alignedLinker] at fits
  have headCell (offset : Nat) (small : offset ≤ 4) :
      h₁.load (headPoint + offset) 4 = some (h.cell (headPoint + offset)) := by
    have inside (w : Nat) (narrow : w ≤ 4) : Inside (headPoint, g.size) (headPoint + offset) w :=
      ⟨by simp only []; omega, by simp only []; omega⟩
    rw [load_eq (.of_mem (blocks₁ ▸ List.mem_cons_of_mem _ head.owned) (inside 4 (by omega))),
      allocated, alloc_outside]
    exact (fresh.apart _ head.owned).symm.outside (inside 1 (by omega))
  have number : h₁.load headPoint 4 = some g.numberOfNode := by
    rw [← head.numberOfNode]
    exact headCell 0 (by omega)
  have nodeSize : h₁.load (headPoint + 4) 4 = some g.nodeSize := by
    rw [← head.nodeSize]
    exact headCell 4 (by omega)
  obtain ⟨h₂, built, blocks₂, holds, last, frame⟩ := nodePointLinker_spec g fresh.positive
    fresh.aligned (.inl rfl)
    (h := h₁) (blocks₁ ▸ List.mem_cons_self)
  have owned₂ : B.extent ∈ h₂.blocks := by
    rw [blocks₂, blocks₁]
    exact List.mem_cons_of_mem _ owned
  have apart : Apart fresh.block.extent B.extent := fresh.apart _ owned
  have far {a : Nat} (inside : Inside fresh.block.extent a 1) : a ≠ B.linker + 24 := by
    apply apart.ne inside
    have place := B.linker_inside
    simp only [Inside] at *
    omega
  refine ⟨h₂.put (B.linker + 24) answer.memoryAddr, ?_, blocks₂.trans blocks₁, ?_, ?_, put_self, ?_⟩
  · simp only [getNewMemoryBlock, ← allocated, Option.bind_eq_bind, number, nodeSize,
      Option.bind_some, built]
    exact B.store_next owned₂ _
  · exact Block.Holds.of_extent holds fun a inside => put_of_ne (far inside)
  · refine (put_of_ne (far ?_)).trans last
    have place := fresh.block.linker_inside
    simp only [Inside] at *
    omega
  · intro a outside other
    rw [put_of_ne other, frame a outside, allocated,
      alloc_outside (e := (answer.memoryAddr, g.size)) outside]

theorem grow_step {h₁ : Memory} {answer : Answer} {z : Nat}
    (grown : getNewMemoryBlock size answer B.linker headPoint h = some h₁)
    (owned : B.extent ∈ h₁.blocks) (holds : B.Holds h₁.cell) (free : B.free = [z]) :
    mallocLoop size headPoint (fuel + 1) (answer :: answers) B.linker 0 h =
      mallocLoop size headPoint fuel answers B.linker (h₁.cell (B.linker + 24)) h₁ := by
  have count := holds.count
  rw [free, List.length_singleton] at count
  have zero : ¬ h₁.cell (B.linker + 8) ≠ 0 := by omega
  have loadCount := B.load_count owned
  have loadNext := B.load_next owned
  simp only [mallocLoop, growAtEnd, if_true, grown, Option.map_some, Option.bind_eq_bind,
    Option.bind_some, loadCount, if_neg zero, loadNext]

/-- One block of a chain changes in its own range, and keeps its place in the chain. -/
theorem ChainHolds.replace {h' : Memory} {B' : Block g} {start : Nat} {pre post : List (Block g)}
    (chain : ChainHolds h start (pre ++ B :: post)) (base : B'.base = B.base)
    (linker : B'.linker = B.linker)
    (holds : B'.Holds h'.cell) (next : h'.cell (B.linker + 24) = h.cell (B.linker + 24))
    (frame : ∀ a, ¬ B.Range a → h'.cell a = h.cell a) (blocks : ∀ e ∈ h.blocks, e ∈ h'.blocks) :
    ChainHolds h' start (pre ++ B' :: post) := by
  have extent : B'.extent = B.extent := by rw [Block.extent, base, Block.extent]
  have apart := chain.apart
  rw [List.pairwise_append, List.pairwise_cons] at apart
  obtain ⟨apartPre, ⟨apartPost, apartRest⟩, across⟩ := apart
  have others {C : Block g} (member : C ∈ pre ∨ C ∈ post) : Apart C.extent B.extent := by
    rcases member with before | after
    · exact across C before B List.mem_cons_self
    · exact (apartPost C after).symm
  refine ⟨?_, ?_, ?_, ?_⟩
  · have same :
        (pre ++ B' :: post).map Block.linker =
          (pre ++ B :: post).map Block.linker := by simp [linker]
    rw [same]
    apply chain.linked.congr
    intro l member
    obtain ⟨C, inside, rfl⟩ := List.mem_map.mp member
    rw [List.mem_append, List.mem_cons] at inside
    rcases inside with before | rfl | after
    · exact frame _ (not_range (others (.inl before)) (C.field_inside (by omega)))
    · exact next
    · exact frame _ (not_range (others (.inr after)) (C.field_inside (by omega)))
  · intro C inside
    rw [List.mem_append, List.mem_cons] at inside
    rcases inside with before | rfl | after
    · exact (chain.holds C (List.mem_append_left _ before)).of_extent fun a within =>
        frame a (not_range (others (.inl before)) within)
    · exact holds
    · exact (chain.holds C (List.mem_append_right _ (List.mem_cons_of_mem _ after))).of_extent
        fun a within =>
        frame a (not_range (others (.inr after)) within)
  · intro C inside
    rw [List.mem_append, List.mem_cons] at inside
    rcases inside with before | rfl | after
    · exact blocks _ (chain.owned C (List.mem_append_left _ before))
    · exact extent ▸ blocks _ (chain.owned B (List.mem_append_right _ List.mem_cons_self))
    · exact blocks _ (chain.owned C (List.mem_append_right _ (List.mem_cons_of_mem _ after)))
  · rw [List.pairwise_append, List.pairwise_cons, extent]
    refine ⟨apartPre, ⟨apartPost, apartRest⟩, ?_⟩
    intro C before D inside
    rcases List.mem_cons.mp inside with rfl | after
    · exact extent ▸ others (.inl before)
    · exact across C before D (List.mem_cons_of_mem _ after)

theorem ChainHolds.tail {start : Nat} {bs : List (Block g)} (chain : ChainHolds h start (B :: bs)) :
    start = B.linker ∧ ChainHolds h (h.cell (B.linker + 24)) bs := by
  obtain ⟨eq, -, rest⟩ := chain_cons.mp chain.linked
  exact ⟨eq, rest, fun C member => chain.holds C (List.mem_cons_of_mem B member),
    fun C member => chain.owned C (List.mem_cons_of_mem B member),
    (List.pairwise_cons.mp chain.apart).2⟩

/-- A block in front of a chain whose blocks it does not meet. -/
theorem ChainHolds.cons {bs : List (Block g)} (chain : ChainHolds h (h.cell (B.linker + 24)) bs)
    (holds : B.Holds h.cell) (owned : B.extent ∈ h.blocks)
    (apart : ∀ C ∈ bs, Apart B.extent C.extent) : ChainHolds h B.linker (B :: bs) := by
  refine ⟨chain_cons.mpr ⟨rfl, B.linker_pos, chain.linked⟩, ?_, ?_,
    List.pairwise_cons.mpr ⟨apart, chain.apart⟩⟩
  · intro C member
    rcases List.mem_cons.mp member with rfl | inside
    · exact holds
    · exact chain.holds C inside
  · intro C member
    rcases List.mem_cons.mp member with rfl | inside
    · exact owned
    · exact chain.owned C inside

/-- A block whose memory is what it was, in front of the chain that its link leads to. -/
theorem ChainHolds.behind {h' : Memory} {bs : List (Block g)}
    (chain : ChainHolds h' (h.cell (B.linker + 24)) bs) (holds : B.Holds h.cell)
    (same : ∀ a, Inside B.extent a 1 → h'.cell a = h.cell a) (owned : B.extent ∈ h'.blocks)
    (apart : ∀ C ∈ bs, Apart B.extent C.extent) : ChainHolds h' B.linker (B :: bs) := by
  refine .cons ?_ (holds.of_extent same) owned apart
  rw [same _ (B.field_inside (by omega))]
  exact chain

/-- The memory of a chain's blocks is what it was. -/
theorem ChainHolds.frame {h' : Memory} {start : Nat} {bs : List (Block g)}
    (chain : ChainHolds h start bs)
    (same : ∀ B ∈ bs, ∀ a, Inside B.extent a 1 → h'.cell a = h.cell a)
    (owned : ∀ B ∈ bs, B.extent ∈ h'.blocks) : ChainHolds h' start bs := by
  refine ⟨chain.linked.congr ?_, ?_, owned, chain.apart⟩
  · intro l member
    obtain ⟨B, inside, rfl⟩ := List.mem_map.mp member
    exact same B inside _ (B.field_inside (by omega))
  · intro B member
    exact (chain.holds B member).of_extent (same B member)

section
variable {h' : Memory} {bs bs' : List (Block g)} {p : Nat}

/-- A block in front that is exhausted is passed over. -/
theorem FirstFit.later (fit : FirstFit new h h' bs p bs') (full : B.Exhausted) :
    FirstFit new h h' (B :: bs) p (B :: bs') := by
  cases fit with
  | @taken pre C post x y rest free before blocks frame =>
      change FirstFit new h h' ((B :: pre) ++ C :: post) _ ((B :: pre) ++ C.take free :: post)
      exact .taken free (List.forall_mem_cons.mpr ⟨full, before⟩) blocks frame
  | @grown pre C x y rest free before blocks frame =>
      change FirstFit new h h' ((B :: pre) ++ [C]) _ ((B :: pre) ++ [C, new.take free])
      exact .grown free (List.forall_mem_cons.mpr ⟨full, before⟩) blocks frame

theorem FirstFit.extents (fit : FirstFit new h h' bs p bs') {C : Block g} (member : C ∈ bs') :
    (∃ D ∈ bs, C.extent = D.extent) ∨ C.extent = new.extent := by
  cases fit with
  | @taken pre B post =>
      rw [List.mem_append, List.mem_cons] at member
      rcases member with before | rfl | after
      · exact .inl ⟨C, List.mem_append_left _ before, rfl⟩
      · exact .inl ⟨B, List.mem_append_right _ List.mem_cons_self, rfl⟩
      · exact .inl ⟨C, List.mem_append_right _ (List.mem_cons_of_mem B after), rfl⟩
  | @grown pre B =>
      rw [List.mem_append, List.mem_cons, List.mem_singleton] at member
      rcases member with before | rfl | rfl
      · exact .inl ⟨C, List.mem_append_left _ before, rfl⟩
      · exact .inl ⟨C, List.mem_append_right _ List.mem_cons_self, rfl⟩
      · exact .inr rfl

theorem FirstFit.still_owned (fit : FirstFit new h h' bs p bs') {e : Extent}
    (member : e ∈ h.blocks) : e ∈ h'.blocks := by
  cases fit with
  | taken _ _ blocks => exact blocks ▸ member
  | grown _ _ blocks => exact blocks ▸ List.mem_cons_of_mem _ member

/-- Nothing outside the blocks of the chain is touched. -/
theorem FirstFit.frame (fit : FirstFit new h h' bs p bs') {a : Nat}
    (outside : ∀ C ∈ bs', ¬ C.Range a) : h'.cell a = h.cell a := by
  cases fit with
  | @taken pre B post x y rest free _ _ frame =>
      exact frame a (outside (B.take free) (List.mem_append_right _ List.mem_cons_self))
  | @grown pre B x y rest free _ _ frame =>
      apply frame a (outside (new.take free) (by simp))
      rintro rfl
      exact outside B (by simp) (B.field_range (by omega))

end

theorem Answer.Fresh.free_two {answer : Answer} (fresh : answer.Fresh g.size h) :
    ∃ x y rest, fresh.block.free = x :: y :: rest := by
  obtain ⟨m, several⟩ : ∃ m, g.numberOfNode = m + 1 :=
    ⟨g.numberOfNode - 1, by have := g.several; omega⟩
  have free :
      fresh.block.free = nodesFrom g.nodeSize (m + 1) (answer.memoryAddr + alignedLinker) := by
    rw [← several]
    rfl
  rw [free, nodesFrom]
  cases m <;> exact ⟨_, _, _, rfl⟩

theorem take_here {bs : List (Block g)} (chain : ChainHolds h B.linker (B :: bs))
    (free : B.free = x :: y :: rest) :
    ∃ h', mallocLoop size headPoint (fuel + 1) answers point B.linker h = some (x + headSize, h') ∧
      ChainHolds h' B.linker (B.take free :: bs) ∧ h'.blocks = h.blocks ∧ ∀ a, ¬ B.Range a →
        h'.cell a = h.cell a := by
  have holds := chain.holds B List.mem_cons_self
  have member : x ∈ B.free ++ B.live := List.mem_append_left _ (free ▸ List.mem_cons_self)
  have frame (a : Nat) (ne₁ : a ≠ B.linker + 8) (ne₂ : a ≠ B.linker + 16) (ne₃ : a ≠ x) :
      (((h.put (B.linker + 8) (h.cell (B.linker + 8) - 1)).put (B.linker + 16) (h.cell x)).put x
        B.linker).cell a =
        h.cell a := by rw [put_of_ne ne₃, put_of_ne ne₂, put_of_ne ne₁]
  have outside (a : Nat) (out : ¬ B.Range a) := frame a
    (fun eq => out (eq ▸ B.field_range (by omega))) (fun eq => out (eq ▸ B.field_range (by omega)))
    (fun eq => out (eq ▸ B.node_range member))
  refine ⟨_, take_step (chain.owned B List.mem_cons_self) holds free, ?_, rfl, outside⟩
  have whole : ChainHolds h B.linker ([] ++ B :: bs) := chain
  exact whole.replace rfl rfl (holds.take free)
    (frame _ (by omega) (by omega) (B.node_ne_field member (by omega)).symm) outside fun _ => id

/-- A call on the chain `bs` returned a node. -/
def Returned (new : Block g) (h : Memory) (start : Nat) (bs : List (Block g))
    (result : Option (Nat × Memory)) : Prop :=
  ∃ p bs' h', result = some (p, h') ∧ FirstFit new h h' bs p bs' ∧ ChainHolds h' start bs'

theorem returned_here {bs : List (Block g)} (chain : ChainHolds h B.linker (B :: bs))
    (free : B.free = x :: y :: rest) :
    Returned new h B.linker (B :: bs)
      (mallocLoop size headPoint (fuel + 1) answers point B.linker h) := by
  obtain ⟨h', returned, chain', blocks, frame⟩ := take_here chain free
  have fit : FirstFit new h h' ([] ++ B :: bs) (x + headSize) ([] ++ B.take free :: bs) :=
    .taken free (by simp) blocks frame
  exact ⟨_, _, h', returned, fit, chain'⟩

theorem Returned.later {C : Block g} {bs : List (Block g)} {result : Option (Nat × Memory)}
    (returned : Returned new h C.linker (C :: bs) result)
    (chain : ChainHolds h B.linker (B :: C :: bs))
    (full : B.Exhausted) (fresh : Apart B.extent new.extent) :
    Returned new h B.linker (B :: C :: bs) result := by
  obtain ⟨p, bs', h', eq, fit, chain'⟩ := returned
  have owned := chain.owned B List.mem_cons_self
  have apart (D : Block g) (member : D ∈ bs') : Apart B.extent D.extent := by
    rcases fit.extents member with ⟨E, old, eq⟩ | eq
    · exact eq ▸ (List.pairwise_cons.mp chain.apart).1 E old
    · exact eq ▸ fresh
  have same (a : Nat) (inside : Inside B.extent a 1) : h'.cell a = h.cell a :=
    fit.frame fun D member => not_range (apart D member) inside
  rw [← chain.tail.2.tail.1] at chain'
  exact ⟨p, B :: bs', h', eq, fit.later full,
    chain'.behind (chain.holds B List.mem_cons_self) same (fit.still_owned owned) apart⟩

theorem returned_grown {answer : Answer} {z : Nat} (fresh : answer.Fresh g.size h)
    (head : HeadHolds g h headPoint) (chain : ChainHolds h B.linker [B]) (free : B.free = [z]) :
    Returned fresh.block h B.linker [B]
      (mallocLoop g.size headPoint (fuel + 2) (answer :: answers) B.linker 0 h) := by
  have owned := chain.owned B List.mem_cons_self
  obtain ⟨h₁, grown, blocks₁, newHolds, last, link, frame₁⟩ :=
    getNewMemoryBlock_spec fresh head owned
  have apart : Apart B.extent fresh.block.extent := (fresh.apart _ owned).symm
  have holds₁ : B.Holds h₁.cell := by
    apply (chain.holds B List.mem_cons_self).congr
    · exact frame₁ _ (not_range apart (B.field_inside (by omega))) (by omega)
    · exact frame₁ _ (not_range apart (B.field_inside (by omega))) (by omega)
    · intro x member
      exact frame₁ _ (not_range apart (Block.node_range member).inside)
        (B.node_ne_field member (by omega))
  have owned₁ : B.extent ∈ h₁.blocks := blocks₁ ▸ List.mem_cons_of_mem _ owned
  rw [grow_step grown owned₁ holds₁ free, link]
  have chain₁ : ChainHolds h₁ fresh.block.linker [fresh.block] :=
    .cons ⟨chain_nil.mpr last, by simp, by simp, List.Pairwise.nil⟩ newHolds
      (blocks₁ ▸ List.mem_cons_self) (by simp)
  obtain ⟨x, y, rest, free'⟩ := fresh.free_two
  obtain ⟨h', returned, chain', blocks, frame⟩ := take_here chain₁ free'
  have same (a : Nat) (inside : Inside B.extent a 1) : h'.cell a = h₁.cell a :=
    frame a (not_range apart inside)
  have full : ∀ C ∈ [] ++ [B], C.Exhausted := by simpa using B.exhausted_iff.mpr ⟨z, free⟩
  have fit : FirstFit fresh.block h h' ([] ++ [B]) (x + headSize)
      ([] ++ [B, fresh.block.take free']) := by
    refine .grown free' full (blocks.trans blocks₁) ?_
    intro a outside other
    rw [frame a outside, frame₁ a outside other]
  rw [← link] at chain'
  refine ⟨_, _, h', returned, fit, chain'.behind holds₁ same (blocks ▸ owned₁) ?_⟩
  intro C member
  rw [List.mem_singleton.mp member]
  exact apart

theorem Block.free_cases (B : Block g) : (∃ x y rest, B.free = x :: y :: rest) ∨
    ∃ z, B.free = [z] :=
  match free : B.free with
  | [] => absurd free B.spare
  | [z] => .inr ⟨z, rfl⟩
  | x :: y :: rest => .inl ⟨x, y, rest, rfl⟩

theorem mallocLoop_spec (answers : List Answer) (point : Nat) {answer : Answer}
    (fresh : answer.Fresh g.size h)
    (head : HeadHolds g h headPoint) {bs : List (Block g)} (chain : ChainHolds h B.linker (B :: bs))
    (enough : bs.length + 3 ≤ fuel) : Returned fresh.block h B.linker (B :: bs)
      (mallocLoop g.size headPoint fuel (answer :: answers) point B.linker h) := by
  induction bs generalizing B point fuel with
  | nil =>
      obtain ⟨fuel, rfl⟩ : ∃ n, fuel = n + 3 := ⟨fuel - 3, by rw [List.length_nil] at enough; omega⟩
      rcases B.free_cases with ⟨x, y, rest, free⟩ | ⟨z, free⟩
      · exact returned_here chain free
      · rw [skip_step (chain.owned B List.mem_cons_self) (chain.holds B List.mem_cons_self) free,
          chain_nil.mp chain.tail.2.linked]
        exact returned_grown fresh head chain free
  | cons C bs ih =>
      obtain ⟨fuel, rfl⟩ : ∃ n, fuel = n + 1 := ⟨fuel - 1, by omega⟩
      rcases B.free_cases with ⟨x, y, rest, free⟩ | ⟨z, free⟩
      · exact returned_here chain free
      · obtain ⟨-, rest⟩ := chain.tail
        have next := rest.tail.1
        rw [skip_step (chain.owned B List.mem_cons_self) (chain.holds B List.mem_cons_self) free,
          next]
        rw [next] at rest
        refine (ih _ rest ?_).later chain (B.exhausted_iff.mpr ⟨z, free⟩)
          (fresh.apart _ (chain.owned B List.mem_cons_self)).symm
        rw [List.length_cons] at enough
        omega

end
end TransparentProxyNet.MemoryPool
