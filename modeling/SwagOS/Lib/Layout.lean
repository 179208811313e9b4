import SwagOS.Lib.Bytes

/-!
# What the memory holds

The bytes of a list from an address on, and numbers among them.  What is written as a number is
read as this number.
-/

namespace SwagOS.Lib

def leBytes : Nat → Nat → List UInt8
  | 0, _ => []
  | n + 1, v => UInt8.ofNat v :: leBytes n (v / 256)

@[simp] theorem length_leBytes (n v : Nat) : (leBytes n v).length = n := by
  induction n generalizing v with
  | zero => rfl
  | succ n inductionHypothesis =>
    rw [leBytes, List.length_cons, inductionHypothesis]

theorem leBytes_split (n k v : Nat) : leBytes (n + k) v = leBytes n v ++ leBytes k (v / 256 ^ n) := by
  induction n generalizing v with
  | zero => rw [Nat.zero_add, Nat.pow_zero, Nat.div_one, leBytes, List.nil_append]
  | succ n inductionHypothesis =>
    rw [Nat.add_right_comm, leBytes, inductionHypothesis, leBytes, List.cons_append,
      Nat.div_div_eq_div_mul, Nat.pow_succ']

namespace Bytes

variable {m : Bytes} {p v : Nat} {l l' : List UInt8}

def Has (m : Bytes) (p : Nat) (l : List UInt8) : Prop := m.slice p l.length = l

theorem slice_succ (m : Bytes) (p n : Nat) : m.slice p (n + 1) = m p :: m.slice (p + 1) n := by
  rw [slice, List.range_succ_eq_map, List.map_cons, List.map_map, Nat.add_zero]
  refine congrArg (m p :: ·) (List.map_congr_left fun i _ => ?_)
  rw [Function.comp, Nat.add_assoc, Nat.add_comm 1]

theorem has_nil : m.Has p [] := rfl

theorem has_cons {b : UInt8} : m.Has p (b :: l) ↔ m p = b ∧ m.Has (p + 1) l := by
  rw [Has, List.length_cons, slice_succ, List.cons.injEq, Has]

theorem has_append : m.Has p (l ++ l') ↔ m.Has p l ∧ m.Has (p + l.length) l' := by
  induction l generalizing p with
  | nil => exact (and_iff_right has_nil).symm
  | cons b l inductionHypothesis =>
    rw [List.cons_append, has_cons, has_cons, inductionHypothesis, List.length_cons, and_assoc,
      Nat.add_assoc, Nat.add_comm 1]

theorem Has.left (has : m.Has p (l ++ l')) : m.Has p l := (has_append.mp has).1

theorem Has.right (has : m.Has p (l ++ l')) : m.Has (p + l.length) l' := (has_append.mp has).2

theorem Has.u16 (has : m.Has p (leBytes 2 v)) : m.u16 p = v % 2 ^ 16 := by
  obtain ⟨low, has⟩ := has_cons.mp has
  obtain ⟨high, -⟩ := has_cons.mp has
  rw [Bytes.u16, low, high, UInt8.toNat_ofNat', UInt8.toNat_ofNat']
  omega

theorem Has.u32 (has : m.Has p (leBytes 4 v)) : m.u32 p = v % 2 ^ 32 := by
  rw [leBytes_split 2 2] at has
  have low := has.left.u16
  have high := has.right.u16
  rw [length_leBytes] at high
  rw [Bytes.u32, low, high]
  omega

theorem Has.u64 (has : m.Has p (leBytes 8 v)) : m.u64 p = v % 2 ^ 64 := by
  rw [leBytes_split 4 4] at has
  have low := has.left.u32
  have high := has.right.u32
  rw [length_leBytes] at high
  rw [Bytes.u64, low, high]
  omega

end Bytes

end SwagOS.Lib
