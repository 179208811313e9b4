import Mathlib.Algebra.Group.Nat.Defs
import Mathlib.Logic.Function.Basic

/-!
# Memory as bytes

The memory from a pointer on is a function of the offset.  Numbers are little-endian.
-/

namespace SwagOS.Lib

abbrev Bytes := Nat → UInt8

namespace Bytes

def u16 (m : Bytes) (p : Nat) : Nat := (m p).toNat + 256 * (m (p + 1)).toNat

def u32 (m : Bytes) (p : Nat) : Nat := m.u16 p + 65536 * m.u16 (p + 2)

def u64 (m : Bytes) (p : Nat) : Nat := m.u32 p + 2 ^ 32 * m.u32 (p + 4)

def slice (m : Bytes) (p count : Nat) : List UInt8 := (List.range count).map fun i => m (p + i)

def memcpy (m : Bytes) (offset : Nat) (source : Bytes) (count : Nat) : Bytes :=
  fun p => if offset ≤ p ∧ p < offset + count then source (p - offset) else m p

theorem u16_lt (m : Bytes) (p : Nat) : m.u16 p < 65536 := by
  have low := (m p).toNat_lt
  have high := (m (p + 1)).toNat_lt
  rw [u16]
  omega

theorem u32_lt (m : Bytes) (p : Nat) : m.u32 p < 2 ^ 32 := by
  have low := m.u16_lt p
  have high := m.u16_lt (p + 2)
  rw [u32]
  omega

theorem u64_lt (m : Bytes) (p : Nat) : m.u64 p < 2 ^ 64 := by
  have low := m.u32_lt p
  have high := m.u32_lt (p + 4)
  rw [u64]
  omega

theorem u16_congr {m m' : Bytes} {p q : Nat} (same : ∀ i < 2, m (p + i) = m' (q + i)) :
    m.u16 p = m'.u16 q := by
  have low := same 0 (by omega)
  have high := same 1 (by omega)
  rw [u16, u16, ← high]
  rw [Nat.add_zero, Nat.add_zero] at low
  rw [low]

theorem u32_congr {m m' : Bytes} {p q : Nat} (same : ∀ i < 4, m (p + i) = m' (q + i)) :
    m.u32 p = m'.u32 q := by
  rw [u32, u32, u16_congr fun i below => same i (by omega)]
  congr 2
  apply u16_congr
  intro i below
  rw [Nat.add_assoc, Nat.add_assoc]
  exact same (2 + i) (by omega)

theorem u64_congr {m m' : Bytes} {p q : Nat} (same : ∀ i < 8, m (p + i) = m' (q + i)) :
    m.u64 p = m'.u64 q := by
  rw [u64, u64, u32_congr fun i below => same i (by omega)]
  congr 2
  apply u32_congr
  intro i below
  rw [Nat.add_assoc, Nat.add_assoc]
  exact same (4 + i) (by omega)

theorem slice_congr {m m' : Bytes} {p q count : Nat} (same : ∀ i < count, m (p + i) = m' (q + i)) :
    m.slice p count = m'.slice q count := by
  apply List.map_congr_left
  intro i member
  exact same i (List.mem_range.mp member)

@[simp] theorem length_slice (m : Bytes) (p count : Nat) : (m.slice p count).length = count := by
  simp [slice]

theorem memcpy_inside {m source : Bytes} {offset count p : Nat} (above : offset ≤ p)
    (below : p < offset + count) : m.memcpy offset source count p = source (p - offset) :=
  if_pos ⟨above, below⟩

theorem memcpy_outside {m source : Bytes} {offset count p : Nat}
    (outside : p < offset ∨ offset + count ≤ p) : m.memcpy offset source count p = m p := by
  apply if_neg
  omega

theorem memcpy_memcpy (m source : Bytes) (offset first second : Nat) :
    (m.memcpy offset source first).memcpy (offset + first) (fun i => source (first + i)) second =
      m.memcpy offset source (first + second) := by
  funext p
  by_cases before : p < offset
  · rw [memcpy_outside (by omega), memcpy_outside (by omega), memcpy_outside (by omega)]
  · by_cases inFirst : p < offset + first
    · rw [memcpy_outside (by omega), memcpy_inside (by omega) inFirst,
        memcpy_inside (by omega) (by omega)]
    · by_cases inSecond : p < offset + (first + second)
      · rw [memcpy_inside (by omega) (by omega), memcpy_inside (by omega) inSecond]
        apply congrArg source
        omega
      · rw [memcpy_outside (by omega), memcpy_outside (by omega), memcpy_outside (by omega)]

theorem memcpy_zero (m source : Bytes) (offset : Nat) : m.memcpy offset source 0 = m := by
  funext p
  apply memcpy_outside
  omega

end Bytes

end SwagOS.Lib
