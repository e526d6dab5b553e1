import Mathlib.Algebra.Ring.Nat
import Mathlib.Data.List.Basic

/-! Numbers in network byte order. -/
namespace BigEndian

/-- The low `k` bytes of `x`, the most significant one first. -/
def encode : Nat → Nat → List UInt8
  | 0, _ => []
  | k + 1, x => encode k (x / 256) ++ [UInt8.ofNat x]

def decode (bs : List UInt8) : Nat := bs.foldl (fun n b => n * 256 + b.toNat) 0

@[simp] theorem encode_length (k x : Nat) : (encode k x).length = k := by
  induction k generalizing x with
  | zero => rfl
  | succ k ih => rw [encode, List.length_append, ih, List.length_singleton]

theorem decode_encode {k x : Nat} (small : x < 256 ^ k) : decode (encode k x) = x := by
  induction k generalizing x with
  | zero =>
      rw [Nat.pow_zero] at small
      obtain rfl : x = 0 := by omega
      rfl
  | succ k ih =>
      have high : decode (encode k (x / 256)) = x / 256 := by
        refine ih (Nat.div_lt_of_lt_mul ?_)
        rwa [Nat.mul_comm, ← Nat.pow_succ]
      have low : (UInt8.ofNat x).toNat = x % 256 := by simp
      unfold decode at high ⊢
      rw [encode, List.foldl_append, high, List.foldl_cons, List.foldl_nil, low]
      omega

end BigEndian
