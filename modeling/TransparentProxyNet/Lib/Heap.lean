import TransparentProxyNet.Lib.Links

/-! A flat memory with allocated blocks. A cell is the scalar that starts at an
address; reading or writing one that does not lie inside an allocated block, and
releasing what is not the start of a block, has no result. -/
namespace Heap
open Links

/-- An allocated block: its first address and its size. -/
abbrev Extent := Nat × Nat

structure Memory where
  cell : Nat → Nat
  blocks : List Extent

/-- The addresses `a`, ..., `a + w - 1` lie inside the extent. -/
def Inside (e : Extent) (a w : Nat) : Prop := e.1 ≤ a ∧ a + w ≤ e.1 + e.2

instance (e : Extent) (a w : Nat) : Decidable (Inside e a w) := inferInstanceAs (Decidable (_ ∧ _))

def Apart (e f : Extent) : Prop := e.1 + e.2 ≤ f.1 ∨ f.1 + f.2 ≤ e.1

def Memory.Owns (h : Memory) (a w : Nat) : Prop := ∃ e ∈ h.blocks, Inside e a w

instance (h : Memory) (a w : Nat) : Decidable (h.Owns a w) :=
  inferInstanceAs (Decidable (∃ e ∈ h.blocks, Inside e a w))

def Memory.load (h : Memory) (a w : Nat) : Option Nat :=
  if h.Owns a w then some (h.cell a) else none

def Memory.put (h : Memory) (a v : Nat) : Memory := { h with cell := Function.update h.cell a v }

/-- Anything is put into the cells `a`, ..., `a + w - 1`. -/
def Memory.fill (h : Memory) (a w : Nat) (content : Nat → Nat) : Memory where
  cell := fun b => if a ≤ b ∧ b < a + w then content b else h.cell b
  blocks := h.blocks

def Memory.store (h : Memory) (a w v : Nat) : Option Memory :=
  if h.Owns a w then some (h.put a v) else none

/-- A new block, with what happens to be in it. -/
def Memory.alloc (h : Memory) (e : Extent) (content : Nat → Nat) : Memory where
  cell := fun a => if e.1 ≤ a ∧ a < e.1 + e.2 then content a else h.cell a
  blocks := e :: h.blocks

def Memory.free (h : Memory) (p : Nat) : Option Memory :=
  if ∃ e ∈ h.blocks, e.1 = p then some { h with blocks := h.blocks.filter fun e => e.1 ≠ p }
  else none

/-- A stored pointer; zero is null. -/
def pointer (v : Nat) : Option Nat := if v = 0 then none else some v

variable {h : Memory} {a b w v : Nat} {e f : Extent}

@[simp] theorem put_blocks : (h.put a v).blocks = h.blocks := rfl

@[simp] theorem put_self : (h.put a v).cell a = v := Function.update_self ..

theorem put_of_ne (other : b ≠ a) : (h.put a v).cell b = h.cell b := Function.update_of_ne other ..

theorem Memory.fill_zero (content : Nat → Nat) : h.fill a 0 content = h := by
  have none : ∀ b, ¬ (a ≤ b ∧ b < a + 0) := by omega
  simp only [fill, if_neg (none _)]

theorem Memory.fill_succ (content : Nat → Nat) :
    h.fill a (w + 1) content = (h.fill a w content).put (a + w) (content (a + w)) := by
  simp only [fill, put, Memory.mk.injEq, and_true]
  funext b
  by_cases last : b = a + w
  · subst last
    rw [Function.update_self, if_pos (by omega)]
  · rw [Function.update_of_ne last]
    exact if_congr (by omega) rfl rfl

theorem Memory.Owns.of_mem (member : e ∈ h.blocks) (inside : Inside e a w) : h.Owns a w :=
  ⟨e, member, inside⟩

theorem load_eq (owned : h.Owns a w) : h.load a w = some (h.cell a) := if_pos owned

theorem store_eq (owned : h.Owns a w) : h.store a w v = some (h.put a v) := if_pos owned

@[simp] theorem owns_put : (h.put b v).Owns a w ↔ h.Owns a w := Iff.rfl

theorem alloc_outside {content : Nat → Nat} (outside : ¬ (e.1 ≤ a ∧ a < e.1 + e.2)) :
    (h.alloc e content).cell a = h.cell a := if_neg outside

theorem free_eq (member : e ∈ h.blocks) :
    h.free e.1 = some { h with blocks := h.blocks.filter fun f => f.1 ≠ e.1 } :=
  if_pos ⟨e, member, rfl⟩

theorem mem_free {blocks : List Extent} (member : f ∈ blocks) (other : f.1 ≠ e.1) :
    f ∈ blocks.filter fun f => f.1 ≠ e.1 := by simp [member, other]

theorem pointer_eq_some (positive : 0 < v) : pointer v = some v := if_neg (by omega)

theorem pointer_eq_none : pointer v = none ↔ v = 0 := by
  unfold pointer
  split <;> simp [*]

theorem pointer_some (eq : pointer v = some a) : v = a ∧ 0 < a := by
  unfold pointer at eq
  split at eq
  · cases eq
  · cases eq
    exact ⟨rfl, by omega⟩

theorem Apart.symm (apart : Apart e f) : Apart f e := Or.symm apart

/-- A cell of one block is no cell of another. -/
theorem Apart.ne (apart : Apart e f) (inside : Inside e a 1) (inside' : Inside f b 1) : a ≠ b := by
  unfold Apart Inside at *
  omega

theorem Apart.start_ne (apart : Apart e f) (filled : 0 < e.2) (filled' : 0 < f.2) : e.1 ≠ f.1 := by
  unfold Apart at apart
  omega

theorem Apart.outside (apart : Apart e f) (inside : Inside e a 1) :
    ¬ (f.1 ≤ a ∧ a < f.1 + f.2) := by
  unfold Apart Inside at *
  omega

/-- The chain that the cells at a fixed offset of its elements form. -/
def Chain (cell : Nat → Nat) (offset : Nat) (start : Nat) (xs : List Nat) : Prop :=
  Visits (fun x => pointer (cell (x + offset))) (pointer start) xs

theorem Chain.congr {cell cell' : Nat → Nat} {offset start : Nat} {xs : List Nat}
    (chain : Chain cell offset start xs) (same : ∀ x ∈ xs, cell' (x + offset) = cell (x + offset)) :
    Chain cell' offset start xs :=
  Visits.congr chain fun x member => by rw [same x member]

@[simp] theorem chain_nil {cell : Nat → Nat} {offset start : Nat} :
    Chain cell offset start [] ↔ start = 0 :=
  pointer_eq_none

theorem chain_cons {cell : Nat → Nat} {offset start x : Nat} {xs : List Nat} :
    Chain cell offset start (x :: xs) ↔ start = x ∧ 0 < x ∧
      Chain cell offset (cell (x + offset)) xs := by
  constructor
  · intro chain
    obtain ⟨eq, positive⟩ := pointer_some chain.1
    exact ⟨eq, positive, chain.2⟩
  · rintro ⟨rfl, positive, rest⟩
    exact ⟨pointer_eq_some positive, rest⟩

end Heap
