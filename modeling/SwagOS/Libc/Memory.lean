import Mathlib.Algebra.Group.Nat.Defs
import SwagOS.Lib.Copying

/-!
# `memmove`

`libc/memmove.c`, on the whole address space.  The bytes are copied upwards when the
destination lies below the source and downwards otherwise, so that none is overwritten before
it is read.
-/

namespace SwagOS.Libc

open SwagOS.Lib.Copying

abbrev AddressSpace := BitVec 64 → UInt8

/-- `dst[i] = src[i]` -/
def moveByte (dst src : BitVec 64) (i : Nat) (m : AddressSpace) : AddressSpace :=
  Function.update m (dst + .ofNat 64 i) (m (src + .ofNat 64 i))

def moveUp (dst src : BitVec 64) (size i : Nat) (m : AddressSpace) : AddressSpace :=
  if i < size then moveUp dst src size (i + 1) (moveByte dst src i m) else m
termination_by size - i

def moveDown (dst src : BitVec 64) : Nat → AddressSpace → AddressSpace
  | 0, m => m
  | i + 1, m => moveDown dst src i (moveByte dst src i m)

def memmove (m : AddressSpace) (dst src size : BitVec 64) : AddressSpace × BitVec 64 :=
  if dst.toNat < src.toNat then (moveUp dst src size.toNat 0 m, dst)
  else (moveDown dst src size.toNat m, dst)

section Orders

variable {dst src : BitVec 64} {m : AddressSpace}

def cell (start : BitVec 64) (i : Nat) : BitVec 64 := start + .ofNat 64 i

theorem moveUp_eq (size i : Nat) (m : AddressSpace) : moveUp dst src size i m =
    copyAll (cell dst) (cell src) (List.range' i (size - i)) m := by
  induction i, m using moveUp.induct dst src size with
  | case1 i m less inductionHypothesis =>
    have more : size - i = size - (i + 1) + 1 := by omega
    rw [moveUp, if_pos less, inductionHypothesis, more, List.range'_succ, copyAll_cons]
    rfl
  | case2 i m notLess =>
    have none : size - i = 0 := by omega
    rw [moveUp, if_neg notLess, none, List.range'_zero, copyAll_nil]

theorem moveDown_eq (size : Nat) (m : AddressSpace) : moveDown dst src size m =
    copyAll (cell dst) (cell src) (List.range size).reverse m := by
  induction size generalizing m with
  | zero => rfl
  | succ i inductionHypothesis =>
    rw [moveDown, inductionHypothesis, List.range_succ, List.reverse_append,
      List.reverse_singleton, List.singleton_append, copyAll_cons]
    rfl

theorem cell_toNat {start : BitVec 64} {size i : Nat} (noWrap : start.toNat + size ≤ 2 ^ 64)
    (inside : i < size) : (cell start i).toNat = start.toNat + i := by
  rw [cell, BitVec.toNat_add, BitVec.toNat_ofNat, Nat.add_mod_mod, Nat.mod_eq_of_lt (by omega)]

theorem cell_ne {start start' : BitVec 64} {size i j : Nat}
    (noWrap : start.toNat + size ≤ 2 ^ 64) (noWrap' : start'.toNat + size ≤ 2 ^ 64)
    (inside : i < size) (inside' : j < size) (different : start.toNat + i ≠ start'.toNat + j) :
    cell start i ≠ cell start' j := by
  intro same
  have numbers := congrArg BitVec.toNat same
  rw [cell_toNat noWrap inside, cell_toNat noWrap' inside'] at numbers
  exact different numbers

variable {size : Nat} (noWrapDst : dst.toNat + size ≤ 2 ^ 64)
  (noWrapSrc : src.toNat + size ≤ 2 ^ 64)

include noWrapDst noWrapSrc

theorem pairwise_cells {l : List Nat} {before : Nat → Nat → Prop} (ordered : l.Pairwise before)
    (inside : ∀ i ∈ l, i < size)
    (apart : ∀ i j, before i j → j ≠ i ∧ src.toNat + j ≠ dst.toNat + i) :
    l.Pairwise fun i j => cell src j ≠ cell dst i ∧ cell dst j ≠ cell dst i := by
  refine List.Pairwise.imp_of_mem ?_ ordered
  intro i j here there earlier
  obtain ⟨different, different'⟩ := apart i j earlier
  constructor
  · exact cell_ne noWrapSrc noWrapDst (inside j there) (inside i here) different'
  · exact cell_ne noWrapDst noWrapDst (inside j there) (inside i here) (by omega)

/-- Upwards, a byte is written after those above it in the source were read. -/
theorem upwards (below : dst.toNat < src.toNat) :
    (List.range' 0 size).Pairwise fun i j =>
      cell src j ≠ cell dst i ∧ cell dst j ≠ cell dst i := by
  apply pairwise_cells noWrapDst noWrapSrc List.pairwise_lt_range'
  · intro i member
    simpa using member
  · intro i j less
    omega

theorem downwards (above : src.toNat ≤ dst.toNat) :
    (List.range size).reverse.Pairwise fun i j =>
      cell src j ≠ cell dst i ∧ cell dst j ≠ cell dst i := by
  have decreasing : (List.range size).reverse.Pairwise (· > ·) :=
    List.pairwise_reverse.mpr List.pairwise_lt_range
  apply pairwise_cells noWrapDst noWrapSrc decreasing
  · intro i member
    simpa using member
  · intro i j greater
    omega

end Orders

def order (dst src size : BitVec 64) : List Nat :=
  if dst.toNat < src.toNat then List.range' 0 size.toNat else (List.range size.toNat).reverse

section Moving

variable {dst src size : BitVec 64} {m : AddressSpace}

theorem mem_order {i : Nat} : i ∈ order dst src size ↔ i < size.toNat := by
  rw [order]
  split <;> simp

theorem memmove_eq : (memmove m dst src size).1 =
    copyAll (cell dst) (cell src) (order dst src size) m := by
  rw [memmove, order]
  by_cases below : dst.toNat < src.toNat
  · rw [if_pos below, if_pos below, moveUp_eq, Nat.sub_zero]
  · rw [if_neg below, if_neg below, moveDown_eq]

/-- The destination holds what the source held, and the rest is as it was. -/
theorem memmove_moves (noWrapDst : dst.toNat + size.toNat ≤ 2 ^ 64)
    (noWrapSrc : src.toNat + size.toNat ≤ 2 ^ 64) :
    (∀ i < size.toNat, (memmove m dst src size).1 (cell dst i) = m (cell src i)) ∧
      (∀ a : BitVec 64, ¬(dst.toNat ≤ a.toNat ∧ a.toNat < dst.toNat + size.toNat) →
        (memmove m dst src size).1 a = m a) ∧
      (memmove m dst src size).2 = dst := by
  refine ⟨?_, ?_, ?_⟩
  · intro i inside
    rw [memmove_eq]
    apply copyAll_inside _ (mem_order.mpr inside)
    rw [order]
    split
    next below => exact upwards noWrapDst noWrapSrc below
    next notBelow => exact downwards noWrapDst noWrapSrc (Nat.le_of_not_lt notBelow)
  · intro a outside
    rw [memmove_eq]
    apply copyAll_outside
    rintro i member rfl
    have inside := mem_order.mp member
    rw [cell_toNat noWrapDst inside] at outside
    omega
  · rw [memmove]
    split <;> rfl

end Moving

def addressBytes : AddressSpace := fun a => .ofNat a.toNat

theorem memmove_moves_last : let moved := (memmove addressBytes (-4) (-6) 4).1
    moved (-4) = 250 ∧ moved (-3) = 251 ∧ moved (-2) = 252 ∧ moved (-1) = 253 ∧
      moved (-5) = 251 := by
  obtain ⟨inside, outside, -⟩ :=
    @memmove_moves (-4) (-6) 4 addressBytes (by decide) (by decide)
  exact ⟨inside 0 (by decide), inside 1 (by decide), inside 2 (by decide), inside 3 (by decide),
    outside (-5) (by decide)⟩

end SwagOS.Libc
