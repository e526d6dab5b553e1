import Mathlib.Data.List.Basic
import Mathlib.Data.Vector.Basic

/-! Buffers of a fixed size with bounds-checked reads and writes: an access that
leaves the buffer has no result. -/
namespace Buffer

variable {α : Type*} {n : Nat}

def write (buf : List.Vector α n) (off : Nat) (bs : List α) : Option (List.Vector α n) :=
  if inside : off + bs.length ≤ n then
    some ⟨buf.toList.take off ++ bs ++ buf.toList.drop (off + bs.length), by
      simp only [List.length_append, List.length_take, List.length_drop, List.Vector.toList_length]
      omega⟩
  else none

def slice (buf : List.Vector α n) (off len : Nat) (inside : off + len ≤ n) : List.Vector α len :=
  ⟨(buf.toList.drop off).take len, by
    simp only [List.length_take, List.length_drop, List.Vector.toList_length]
    omega⟩

def read (buf : List.Vector α n) (off len : Nat) : Option (List.Vector α len) :=
  if inside : off + len ≤ n then some (slice buf off len inside) else none

/-- A buffer cut at two places. -/
theorem exists_split (buf : List.Vector α n) {off len : Nat} (inside : off + len ≤ n) :
    ∃ a b c, buf.toList = a ++ b ++ c ∧ a.length = off ∧ b.length = len := by
  refine ⟨buf.toList.take off, (buf.toList.drop off).take len, (buf.toList.drop off).drop len,
    ?_, ?_, ?_⟩
  · rw [List.append_assoc, List.take_append_drop, List.take_append_drop]
  · simp only [List.length_take, List.Vector.toList_length]
    omega
  · simp only [List.length_take, List.length_drop, List.Vector.toList_length]
    omega

theorem toList_slice (buf : List.Vector α n) (off len : Nat) (inside : off + len ≤ n) :
    (slice buf off len inside).toList = (buf.toList.drop off).take len := rfl

theorem read_eq (buf : List.Vector α n) {off len : Nat} (inside : off + len ≤ n) :
    read buf off len = some (slice buf off len inside) := dif_pos inside

theorem read_total (buf : List.Vector α n) {off len : Nat} (inside : off + len ≤ n) :
    ∃ v, read buf off len = some v := ⟨_, read_eq buf inside⟩

theorem write_eq (buf : List.Vector α n) {off : Nat} {bs : List α} (inside : off + bs.length ≤ n) :
    ∃ out, write buf off bs = some out ∧
      out.toList = buf.toList.take off ++ bs ++ buf.toList.drop (off + bs.length) :=
  ⟨_, dif_pos inside, rfl⟩

/-- A write leaves what is behind it alone. -/
theorem write_drop {buf out : List.Vector α n} {off : Nat} {bs : List α}
    (written : write buf off bs = some out) {k : Nat} (behind : off + bs.length ≤ k) :
    out.toList.drop k = buf.toList.drop k := by
  by_cases inside : off + bs.length ≤ n
  · obtain ⟨out', written', content⟩ := write_eq buf inside
    cases written'.symm.trans written
    have front : (buf.toList.take off ++ bs).length = off + bs.length := by
      simp only [List.length_append, List.length_take, List.Vector.toList_length]
      omega
    rw [content, List.drop_append, front, List.drop_of_length_le (front ▸ behind), List.nil_append,
      List.drop_drop, Nat.add_sub_cancel' behind]
  · rw [write, dif_neg inside] at written
    cases written

/-- A read of the middle part. -/
theorem read_append {buf : List.Vector α n} {len : Nat} (v : List.Vector α len) {a c : List α}
    (shape : buf.toList = a ++ v.toList ++ c) {off : Nat} (start : a.length = off) :
    read buf off len = some v := by
  have total : a.length + len + c.length = n := by
    rw [← buf.toList_length, shape, List.length_append, List.length_append, v.toList_length]
  subst start
  rw [read_eq buf (by omega)]
  refine congrArg some (List.Vector.eq _ _ ?_)
  rw [toList_slice, shape, List.append_assoc, List.drop_left]
  exact List.take_left' v.toList_length

theorem read_list {buf : List.Vector α n} {a b c : List α} (shape : buf.toList = a ++ b ++ c)
    {off len : Nat} (start : a.length = off) (size : b.length = len) :
    ∃ v, read buf off len = some v ∧ v.toList = b :=
  ⟨⟨b, size⟩, read_append _ shape start, rfl⟩

/-- A write over the middle part. -/
theorem write_append {buf : List.Vector α n} (bs : List α) {a b c : List α}
    (shape : buf.toList = a ++ b ++ c) {off : Nat} (start : a.length = off)
    (size : bs.length = b.length) :
    ∃ out, write buf off bs = some out ∧ out.toList = a ++ bs ++ c := by
  have total : a.length + b.length + c.length = n := by
    rw [← buf.toList_length, shape, List.length_append, List.length_append]
  subst start
  have inside : a.length + bs.length ≤ n := by omega
  obtain ⟨out, written, content⟩ := write_eq buf inside
  refine ⟨out, written, ?_⟩
  rw [content, shape, size, List.append_assoc a b c, List.take_left, ← List.append_assoc a b c,
    ← List.length_append, List.drop_left]

end Buffer
