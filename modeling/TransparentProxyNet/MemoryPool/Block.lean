import Mathlib.Data.List.Perm.Basic
import TransparentProxyNet.MemoryPool.Model

/-! One memory block: its nodes, the ones that are free and the ones in use, and how
the cells of the block say so. -/
namespace TransparentProxyNet.MemoryPool
open Heap Links

/-- The sizes of one class: of a block and of a node, and the count its linkers start
from, which is one below the number of nodes. -/
structure Geometry where
  size : Nat
  nodeSize : Nat
  numberOfNode : Nat
  fits : alignedLinker + (numberOfNode + 1) * nodeSize ≤ size
  roomy : headSize < nodeSize
  aligned : 16 ∣ nodeSize
  several : 0 < numberOfNode
  counts : numberOfNode < 2 ^ 31

/-- `n + 1` nodes in a row. -/
def nodesFrom (nodeSize : Nat) : Nat → Nat → List Nat
  | 0, a => [a]
  | n + 1, a => a :: nodesFrom nodeSize n (a + nodeSize)

theorem nodesFrom_length (nodeSize n a : Nat) : (nodesFrom nodeSize n a).length = n + 1 := by
  induction n generalizing a with
  | zero => rfl
  | succ n ih => rw [nodesFrom, List.length_cons, ih]

theorem mem_nodesFrom {nodeSize n a x : Nat} :
    x ∈ nodesFrom nodeSize n a ↔ ∃ k ≤ n, x = a + k * nodeSize := by
  induction n generalizing a with
  | zero =>
      rw [nodesFrom, List.mem_singleton]
      constructor
      · rintro rfl
        exact ⟨0, Nat.le_refl 0, by omega⟩
      · rintro ⟨k, bound, rfl⟩
        obtain rfl : k = 0 := by omega
        omega
  | succ n ih =>
      rw [nodesFrom, List.mem_cons, ih]
      constructor
      · rintro (rfl | ⟨k, bound, rfl⟩)
        · exact ⟨0, by omega, by omega⟩
        · exact ⟨k + 1, by omega, by rw [Nat.add_mul]; omega⟩
      · rintro ⟨k, bound, rfl⟩
        cases k with
        | zero => exact .inl (by omega)
        | succ k => exact .inr ⟨k, by omega, by rw [Nat.add_mul]; omega⟩

theorem nodesFrom_nodup {nodeSize : Nat} (positive : 0 < nodeSize) (n a : Nat) :
    (nodesFrom nodeSize n a).Nodup := by
  induction n generalizing a with
  | zero => exact List.nodup_singleton a
  | succ n ih =>
      refine List.nodup_cons.mpr ⟨?_, ih _⟩
      intro member
      obtain ⟨k, -, eq⟩ := mem_nodesFrom.mp member
      omega

theorem node_before {nodeSize a j k : Nat} (less : j < k) :
    a + j * nodeSize + nodeSize ≤ a + k * nodeSize := by
  have room := Nat.mul_le_mul_right nodeSize (Nat.succ_le_of_lt less)
  rw [Nat.succ_mul] at room
  omega

/-- Two nodes do not overlap. -/
theorem nodes_apart {nodeSize n a x y : Nat} (mx : x ∈ nodesFrom nodeSize n a)
    (my : y ∈ nodesFrom nodeSize n a) (other : x ≠ y) : x + nodeSize ≤ y ∨ y + nodeSize ≤ x := by
  obtain ⟨j, -, rfl⟩ := mem_nodesFrom.mp mx
  obtain ⟨k, -, rfl⟩ := mem_nodesFrom.mp my
  rcases Nat.lt_trichotomy j k with less | rfl | more
  · exact .inl (node_before less)
  · exact absurd rfl other
  · exact .inr (node_before more)

variable {g : Geometry}

/-- A block of a class. Its nodes are divided into free ones and ones in use, and one
node is always left free. -/
structure Block (g : Geometry) where
  base : Nat
  linker : Nat
  free : List Nat
  live : List Nat
  positive : 0 < base
  aligned : 16 ∣ base
  place : linker = base ∨ linker = base + 8
  nodes : (free ++ live).Perm (nodesFrom g.nodeSize g.numberOfNode (base + alignedLinker))
  spare : free ≠ []

namespace Block

def extent (B : Block g) : Extent := (B.base, g.size)

theorem length (B : Block g) : B.free.length + B.live.length = g.numberOfNode + 1 := by
  rw [← List.length_append, B.nodes.length_eq, nodesFrom_length]

theorem mem_nodes {B : Block g} {x : Nat} (member : x ∈ B.free ++ B.live) :
    x ∈ nodesFrom g.nodeSize g.numberOfNode (B.base + alignedLinker) := B.nodes.mem_iff.mp member

theorem nodup (B : Block g) : (B.free ++ B.live).Nodup :=
  B.nodes.nodup_iff.mpr (nodesFrom_nodup (by have := g.roomy; omega) _ _)

/-- A node lies behind the header and inside the block. -/
theorem node_inside {B : Block g} {x : Nat} (member : x ∈ B.free ++ B.live) :
    B.base + alignedLinker ≤ x ∧ x + g.nodeSize ≤ B.base + g.size ∧ 16 ∣ x := by
  obtain ⟨k, bound, rfl⟩ := mem_nodesFrom.mp (mem_nodes member)
  have fits := g.fits
  have behind : _ ≤ B.base + alignedLinker + (g.numberOfNode + 1) * g.nodeSize :=
    node_before (Nat.lt_succ_of_le bound)
  refine ⟨by omega, by omega, ?_⟩
  exact (Nat.dvd_add_right (Nat.dvd_add B.aligned (by decide))).mpr
    (Nat.dvd_mul_left_of_dvd g.aligned k)

theorem linker_inside (B : Block g) : Inside B.extent B.linker 32 := by
  have fits := g.fits
  have roomy := g.roomy
  have several : g.nodeSize ≤ (g.numberOfNode + 1) * g.nodeSize :=
    Nat.le_mul_of_pos_left _ (by omega)
  have place := B.place
  simp only [Inside, extent, alignedLinker, headSize] at *
  omega

theorem cell_inside {B : Block g} {x : Nat} (member : x ∈ B.free ++ B.live) :
    Inside B.extent x headSize := by
  obtain ⟨low, high, -⟩ := node_inside member
  have roomy := g.roomy
  simp only [Inside, extent, alignedLinker] at *
  omega

theorem node_start {B : Block g} {x : Nat} (member : x ∈ B.free ++ B.live) :
    Inside B.extent x 1 := by
  have inside := cell_inside member
  simp only [Inside, headSize] at *
  omega

/-- No node is a field of the linker. -/
theorem node_ne_field {B : Block g} {x : Nat} (member : x ∈ B.free ++ B.live) {offset : Nat}
    (field : offset ≤ 24) : x ≠ B.linker + offset := by
  obtain ⟨low, -, -⟩ := node_inside member
  have place := B.place
  simp only [alignedLinker] at low
  omega

/-- The cells of the memory say what the block says. -/
structure Holds (B : Block g) (cell : Nat → Nat) : Prop where
  count : cell (B.linker + 8) + 1 = B.free.length
  free : Chain cell 0 (cell (B.linker + 16)) B.free
  live : ∀ x ∈ B.live, cell x = B.linker

section
variable {B : Block g} {h : Memory} {cell cell' : Nat → Nat}

theorem Holds.congr (holds : B.Holds cell) (count : cell' (B.linker + 8) = cell (B.linker + 8))
    (first : cell' (B.linker + 16) = cell (B.linker + 16))
    (nodes : ∀ x ∈ B.free ++ B.live, cell' x = cell x) : B.Holds cell' := by
  refine ⟨count ▸ holds.count, ?_, ?_⟩
  · rw [first]
    exact holds.free.congr fun x member => nodes x (List.mem_append_left _ member)
  · intro x member
    rw [nodes x (List.mem_append_right _ member), holds.live x member]

/-- The memory of the block is what it was. -/
theorem Holds.of_extent (holds : B.Holds cell)
    (same : ∀ a, Inside B.extent a 1 → cell' a = cell a) : B.Holds cell' := by
  have inside := B.linker_inside
  simp only [Inside, extent] at inside same
  refine holds.congr (same _ (by omega)) (same _ (by omega)) fun x member => same x ?_
  obtain ⟨low, high, -⟩ := node_inside member
  have roomy := g.roomy
  omega

theorem Holds.put (holds : B.Holds h.cell) {a v : Nat} (count : a ≠ B.linker + 8)
    (first : a ≠ B.linker + 16)
    (nodes : ∀ x ∈ B.free ++ B.live, a ≠ x) : B.Holds (h.put a v).cell :=
  holds.congr (put_of_ne count.symm) (put_of_ne first.symm) fun x member =>
    put_of_ne (nodes x member).symm

theorem owns_field (owned : B.extent ∈ h.blocks) {offset w : Nat} (field : offset + w ≤ 32) :
    h.Owns (B.linker + offset) w := by
  refine .of_mem owned ?_
  have inside := B.linker_inside
  simp only [Inside] at *
  omega

/-! The fields of the linker of a block that is held. -/

theorem load_count (owned : B.extent ∈ h.blocks) :
    h.load (B.linker + 8) 4 = some (h.cell (B.linker + 8)) :=
  load_eq (B.owns_field owned (by omega))

theorem load_first (owned : B.extent ∈ h.blocks) :
    h.load (B.linker + 16) 8 = some (h.cell (B.linker + 16)) :=
  load_eq (B.owns_field owned (by omega))

theorem load_next (owned : B.extent ∈ h.blocks) :
    h.load (B.linker + 24) 8 = some (h.cell (B.linker + 24)) :=
  load_eq (B.owns_field owned (by omega))

theorem store_count (owned : B.extent ∈ h.blocks) (v : Nat) :
    h.store (B.linker + 8) 4 v = some (h.put (B.linker + 8) v) :=
  store_eq (B.owns_field owned (by omega))

theorem store_first (owned : B.extent ∈ h.blocks) (v : Nat) :
    h.store (B.linker + 16) 8 v = some (h.put (B.linker + 16) v) :=
  store_eq (B.owns_field owned (by omega))

theorem store_next (owned : B.extent ∈ h.blocks) (v : Nat) :
    h.store (B.linker + 24) 8 v = some (h.put (B.linker + 24) v) :=
  store_eq (B.owns_field owned (by omega))

theorem owns_node (owned : B.extent ∈ h.blocks) {x : Nat} (member : x ∈ B.free ++ B.live) :
    h.Owns x 8 := by
  refine .of_mem owned ?_
  have inside := cell_inside member
  simp only [Inside, headSize] at *
  omega

/-- The first free node is taken into use. -/
def take (B : Block g) {x y : Nat} {rest : List Nat} (free : B.free = x :: y :: rest) : Block g :=
  { B with
    free := y :: rest
    live := x :: B.live
    nodes := List.perm_middle.trans (by simpa [free] using B.nodes)
    spare := List.cons_ne_nil _ _ }

/-- A node in use becomes the first free one. -/
def give (B : Block g) {x : Nat} (member : x ∈ B.live) : Block g :=
  { B with
    free := x :: B.free
    live := B.live.erase x
    nodes :=
      (List.perm_middle.symm.trans ((List.perm_cons_erase member).symm.append_left B.free)).trans
      B.nodes
    spare := List.cons_ne_nil _ _ }

/-- Three cells are written: the two fields of the linker and one node's. The others
are what they were. -/
theorem put_three {x : Nat} (member : x ∈ B.free ++ B.live) (c f v : Nat) :
    let h' := ((h.put (B.linker + 8) c).put (B.linker + 16) f).put x v
    h'.cell (B.linker + 8) = c ∧ h'.cell (B.linker + 16) = f ∧ h'.cell x = v ∧
      ∀ z ∈ B.free ++ B.live, z ≠ x → h'.cell z = h.cell z := by
  refine ⟨?_, ?_, put_self, ?_⟩
  · rw [put_of_ne (node_ne_field member (by omega)).symm, put_of_ne (by omega), put_self]
  · rw [put_of_ne (node_ne_field member (by omega)).symm, put_self]
  · intro z other ne
    rw [put_of_ne ne, put_of_ne (node_ne_field other (by omega)),
      put_of_ne (node_ne_field other (by omega))]

@[simp] theorem take_linker {x y : Nat} {rest : List Nat} (free : B.free = x :: y :: rest) :
    (B.take free).linker = B.linker := rfl

@[simp] theorem give_linker {x : Nat} (member : x ∈ B.live) : (B.give member).linker = B.linker :=
  rfl

theorem Holds.take (holds : B.Holds h.cell) {x y : Nat} {rest : List Nat}
    (free : B.free = x :: y :: rest) :
    (B.take free).Holds
      (((h.put (B.linker + 8) (h.cell (B.linker + 8) - 1)).put (B.linker + 16) (h.cell x)).put x
      B.linker).cell := by
  have member : x ∈ B.free ++ B.live := List.mem_append_left _ (free ▸ List.mem_cons_self)
  have nodup := B.nodup
  rw [free, List.cons_append, List.nodup_cons] at nodup
  obtain ⟨count, first, self, others⟩ :=
    put_three (h := h) member (h.cell (B.linker + 8) - 1) (h.cell x) B.linker
  have holdsCount := holds.count
  have chain := holds.free
  rw [free, chain_cons] at chain
  rw [free, List.length_cons, List.length_cons] at holdsCount
  refine ⟨?_, ?_, ?_⟩
  · change _ + 1 = (y :: rest).length
    rw [take_linker, count, List.length_cons]
    omega
  · rw [take_linker, first]
    refine chain.2.2.congr fun z inside => others z ?_ ?_
    · exact List.mem_append_left _ (free ▸ List.mem_cons_of_mem x inside)
    · exact fun eq => nodup.1 (eq ▸ List.mem_append_left _ inside)
  · intro z inside
    rcases List.mem_cons.mp inside with rfl | old
    · exact self
    · rw [others z (List.mem_append_right _ old)
        fun eq => nodup.1 (eq ▸ List.mem_append_right _ old)]
      exact holds.live z old

theorem Holds.give (holds : B.Holds h.cell) {x : Nat} (member : x ∈ B.live) :
    (B.give member).Holds
      (((h.put (B.linker + 8) (h.cell (B.linker + 8) + 1)).put (B.linker + 16) x).put x
      (h.cell (B.linker + 16))).cell := by
  have inside : x ∈ B.free ++ B.live := List.mem_append_right _ member
  have apart := (List.nodup_append.mp B.nodup).2.2
  obtain ⟨count, first, self, others⟩ :=
    put_three (h := h) inside (h.cell (B.linker + 8) + 1) x (h.cell (B.linker + 16))
  refine ⟨?_, ?_, ?_⟩
  · change _ + 1 = (x :: B.free).length
    rw [give_linker, count, List.length_cons, holds.count]
  · rw [give_linker, first]
    refine chain_cons.mpr ⟨rfl, ?_, ?_⟩
    · have low := (node_inside inside).1
      have := B.positive
      omega
    · rw [Nat.add_zero x, self]
      exact holds.free.congr fun z old =>
        others z (List.mem_append_left _ old) fun eq => apart z old x member eq
  · intro z old
    have live : z ∈ B.live := List.mem_of_mem_erase old
    have ne : z ≠ x := by
      rintro rfl
      exact (List.nodup_append.mp B.nodup).2.1.not_mem_erase old
    rw [others z (List.mem_append_right _ live) ne]
    exact holds.live z live

end
end Block

/-! ### A new block -/

theorem threadNodes_spec {nodeSize : Nat} (roomy : 0 < nodeSize) {e : Extent} (n : Nat) {a : Nat}
    {h : Memory} (owned : e ∈ h.blocks) (low : e.1 ≤ a) (high : a + n * nodeSize + 8 ≤ e.1 + e.2)
    (positive : 0 < a) : ∃ h', threadNodes nodeSize n a h = some h' ∧ h'.blocks = h.blocks ∧
      Chain h'.cell 0 a (nodesFrom nodeSize n a) ∧
      ∀ b, b ∉ nodesFrom nodeSize n a → h'.cell b = h.cell b := by
  have owns : h.Owns a 8 := .of_mem owned ⟨low, by omega⟩
  induction n generalizing a h with
  | zero =>
      refine ⟨h.put a 0, store_eq owns, rfl, ?_,
        fun b outside => put_of_ne (by simpa [nodesFrom] using outside)⟩
      exact chain_cons.mpr ⟨rfl, positive, chain_nil.mpr put_self⟩
  | succ n ih =>
      rw [Nat.add_mul] at high
      have first : (h.put a (a + nodeSize)).load a 8 = some (a + nodeSize) := by
        rw [load_eq (owns_put.mpr owns), put_self]
      obtain ⟨h', threaded, blocks, chain, frame⟩ := ih (a := a + nodeSize)
        (h := h.put a (a + nodeSize)) owned
        (by omega) (by omega) (by omega) (.of_mem owned ⟨by omega, by omega⟩)
      have kept : h'.cell a = a + nodeSize := by
        rw [frame a fun member => ?_, put_self]
        obtain ⟨k, -, eq⟩ := mem_nodesFrom.mp member
        omega
      refine ⟨h', ?_, blocks, chain_cons.mpr ⟨rfl, positive, ?_⟩, ?_⟩
      · simp only [threadNodes, store_eq owns, first, Option.bind_eq_bind, Option.bind_some,
          threaded]
      · rw [Nat.add_zero a, kept]
        exact chain
      · intro b outside
        rw [nodesFrom, List.mem_cons, not_or] at outside
        rw [frame b outside.2, put_of_ne outside.1]

/-- The block that the linker's constructor makes. -/
def Block.fresh (g : Geometry) {base linker : Nat} (positive : 0 < base) (aligned : 16 ∣ base)
    (place : linker = base ∨ linker = base + 8) : Block g where
  base
  linker
  free := nodesFrom g.nodeSize g.numberOfNode (base + alignedLinker)
  live := []
  positive
  aligned
  place
  nodes := by rw [List.append_nil]
  spare := by cases g.numberOfNode <;> exact List.cons_ne_nil _ _

/-- The fields of a linker as its constructor leaves them. -/
def header (linker memoryBlockPoint numberOfNode : Nat) (h : Memory) : Memory :=
  ((((h.put linker memoryBlockPoint).put (linker + 8) 0).put (linker + 16) memoryBlockPoint).put
    (linker + 24) 0).put (linker + 8) numberOfNode

theorem header_cells (linker memoryBlockPoint numberOfNode : Nat) (h : Memory) :
    (header linker memoryBlockPoint numberOfNode h).cell linker = memoryBlockPoint ∧
      (header linker memoryBlockPoint numberOfNode h).cell (linker + 8) = numberOfNode ∧
      (header linker memoryBlockPoint numberOfNode h).cell (linker + 16) = memoryBlockPoint ∧
      (header linker memoryBlockPoint numberOfNode h).cell (linker + 24) = 0 := by
  refine ⟨?_, put_self, ?_, ?_⟩
  · rw [header, put_of_ne (by omega), put_of_ne (by omega), put_of_ne (by omega),
      put_of_ne (by omega), put_self]
  · rw [header, put_of_ne (by omega), put_of_ne (by omega), put_self]
  · rw [header, put_of_ne (by omega), put_self]

section
variable {linker memoryBlockPoint numberOfNode : Nat} {h : Memory}

theorem header_frame {a : Nat} (outside : ∀ offset ≤ 24, a ≠ linker + offset) :
    (header linker memoryBlockPoint numberOfNode h).cell a = h.cell a := by
  have start : a ≠ linker := outside 0 (by omega)
  have count := outside 8 (by omega)
  rw [header, put_of_ne count, put_of_ne (outside 24 (by omega)), put_of_ne (outside 16 (by omega)),
    put_of_ne count, put_of_ne start]

/-- The constructor writes the fields and then threads the nodes. -/
theorem nodePointLinker_eq {e : Extent} (owned : e ∈ h.blocks) (inside : Inside e linker 32)
    (nodeSize : Nat) : nodePointLinker linker memoryBlockPoint numberOfNode nodeSize h =
      threadNodes nodeSize (rounds numberOfNode) memoryBlockPoint
        (header linker memoryBlockPoint numberOfNode h) := by
  have owns (m : Memory) (blocks : m.blocks = h.blocks) (offset w : Nat)
      (small : offset + w ≤ 32) : m.Owns (linker + offset) w := by
    refine .of_mem (blocks ▸ owned) ?_
    simp only [Inside] at *
    omega
  obtain ⟨h₁, one⟩ : ∃ m, m = h.put linker memoryBlockPoint := ⟨_, rfl⟩
  obtain ⟨h₂, two⟩ : ∃ m, m = h₁.put (linker + 8) 0 := ⟨_, rfl⟩
  obtain ⟨h₃, three⟩ : ∃ m, m = h₂.put (linker + 16) memoryBlockPoint := ⟨_, rfl⟩
  obtain ⟨h₄, four⟩ : ∃ m, m = h₃.put (linker + 24) 0 := ⟨_, rfl⟩
  have written : h₄.put (linker + 8) numberOfNode =
      header linker memoryBlockPoint numberOfNode h := by
    rw [four, three, two, one]
    rfl
  have s₁ : h.store linker 8 memoryBlockPoint = some h₁ :=
    (store_eq (owns h rfl 0 8 (by omega))).trans (congrArg some one.symm)
  have s₂ : h₁.store (linker + 8) 4 0 = some h₂ :=
    (store_eq (owns h₁ (one ▸ rfl) 8 4 (by omega))).trans (congrArg some two.symm)
  have s₃ : h₂.store (linker + 16) 8 memoryBlockPoint = some h₃ :=
    (store_eq (owns h₂ (two ▸ one ▸ rfl) 16 8 (by omega))).trans (congrArg some three.symm)
  have s₄ : h₃.store (linker + 24) 8 0 = some h₄ :=
    (store_eq (owns h₃ (three ▸ two ▸ one ▸ rfl) 24 8 (by omega))).trans (congrArg some four.symm)
  have s₅ : h₄.store (linker + 8) 4 numberOfNode =
      some (header linker memoryBlockPoint numberOfNode h) :=
    (store_eq (owns h₄ (four ▸ three ▸ two ▸ one ▸ rfl) 8 4 (by omega))).trans
      (congrArg some written)
  have first : (header linker memoryBlockPoint numberOfNode h).load linker 8 =
      some memoryBlockPoint :=
    (load_eq (owns (header linker memoryBlockPoint numberOfNode h) rfl 0 8 (by omega))).trans
      (congrArg some (header_cells linker memoryBlockPoint numberOfNode h).1)
  simp only [nodePointLinker, Option.bind_eq_bind, s₁, s₂, s₃, s₄, s₅, Option.bind_some, first]

end

theorem nodePointLinker_spec (g : Geometry) {base linker : Nat} (positive : 0 < base)
    (aligned : 16 ∣ base)
    (place : linker = base ∨ linker = base + 8) {h : Memory} (owned : (base, g.size) ∈ h.blocks) :
    ∃ h', nodePointLinker linker (base + alignedLinker) g.numberOfNode g.nodeSize h = some h' ∧
      h'.blocks = h.blocks ∧ (Block.fresh g positive aligned place).Holds h'.cell ∧
      h'.cell (linker + 24) = 0 ∧
      ∀ a, ¬ (linker ≤ a ∧ a < base + g.size) → h'.cell a = h.cell a := by
  obtain ⟨B, fresh⟩ : ∃ B, B = Block.fresh g positive aligned place := ⟨_, rfl⟩
  have free : B.free = nodesFrom g.nodeSize g.numberOfNode (base + alignedLinker) := by
    rw [fresh]
    rfl
  have start : B.base = base := by rw [fresh]; rfl
  have place' : B.linker = linker := by rw [fresh]; rfl
  have inside := B.linker_inside
  rw [Block.extent, start, place'] at inside
  have roomy := g.roomy
  have fits := g.fits
  rw [Nat.add_mul] at fits
  obtain ⟨h', threaded, blocks, chain, frame⟩ := threadNodes_spec (by omega : 0 < g.nodeSize)
    g.numberOfNode (a := base + alignedLinker)
    (h := header linker (base + alignedLinker) g.numberOfNode h) owned (Nat.le_add_right _ _)
    (by simp only [headSize] at roomy; omega) (by omega)
  obtain ⟨-, count, first, last⟩ :=
    header_cells linker (base + alignedLinker) g.numberOfNode h
  have kept (offset : Nat) (small : offset ≤ 24) : h'.cell (linker + offset) =
      (header linker (base + alignedLinker) g.numberOfNode h).cell (linker + offset) := by
    apply frame _
    rw [← free, ← place']
    exact fun member => B.node_ne_field (List.mem_append_left _ member) small rfl
  refine ⟨h', ?_, blocks, ?_, by rw [kept 24 (by omega), last], ?_⟩
  · rw [nodePointLinker_eq owned inside, rounds, if_pos g.counts, threaded]
  · rw [← fresh]
    refine ⟨?_, ?_, ?_⟩
    · rw [place', kept 8 (by omega), count, free]
      exact (nodesFrom_length _ _ _).symm
    · rw [place', kept 16 (by omega), first, free]
      exact chain
    · intro x member
      rw [fresh] at member
      cases member
  · intro a outside
    have far : a ∉ nodesFrom g.nodeSize g.numberOfNode (base + alignedLinker) := fun member => by
      obtain ⟨low, high, -⟩ := B.node_inside (List.mem_append_left _ (free ▸ member))
      rw [start, alignedLinker] at low
      omega
    simp only [Inside] at inside
    rw [frame a far, header_frame fun offset small => by omega]

end TransparentProxyNet.MemoryPool
