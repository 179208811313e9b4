import Mathlib.Data.BitVec
import Mathlib.Data.List.Basic
import Mathlib.Logic.Function.Basic

/-!
# A machine with a stack

A memory of bytes with addresses of 64 bits, little-endian words in it, and registers with a
stack that grows down.  Addresses wrap around, so that the top of the stack may be anywhere.
-/

namespace SwagOS.Lib

abbrev Memory := BitVec 64 → BitVec 8

namespace Memory

def read64 (m : Memory) (a : BitVec 64) : BitVec 64 :=
  m (a + 7) ++ m (a + 6) ++ m (a + 5) ++ m (a + 4) ++ m (a + 3) ++ m (a + 2) ++ m (a + 1) ++
    m (a + 0)

def write64 (m : Memory) (a v : BitVec 64) : Memory := fun p =>
  if (p - a).toNat < 8 then v.extractLsb' (8 * (p - a).toNat) 8 else m p

def write32 (m : Memory) (a : BitVec 64) (v : BitVec 32) : Memory := fun p =>
  if (p - a).toNat < 4 then v.extractLsb' (8 * (p - a).toNat) 8 else m p

/-- `count` bytes are copied from one place to another. -/
def copy (m : Memory) (target source : BitVec 64) (count : Nat) : Memory := fun p =>
  if (p - target).toNat < count then m (source + (p - target)) else m p

def writeFields (m : Memory) (base : BitVec 64) (fields : List (Nat × BitVec 64)) : Memory :=
  fields.foldl (fun m field => m.write64 (base + BitVec.ofNat 64 field.1) field.2) m

def Words (m : Memory) (a : BitVec 64) (ws : List (BitVec 64)) : Prop :=
  ∀ i (inside : i < ws.length), m.read64 (a + BitVec.ofNat 64 (8 * i)) = ws[i]

variable {m m' : Memory} {a b p v : BitVec 64} {ws : List (BitVec 64)} {i j count : Nat}

theorem read64_congr (same : ∀ k < 8, m (a + BitVec.ofNat 64 k) = m' (b + BitVec.ofNat 64 k)) :
    m.read64 a = m'.read64 b := by
  have byte := fun k below => same k below
  rw [read64, read64]
  congr 1
  · congr 1
    · congr 1
      · congr 1
        · congr 1
          · congr 1
            · congr 1
              · exact byte 7 (by decide)
              · exact byte 6 (by decide)
            · exact byte 5 (by decide)
          · exact byte 4 (by decide)
        · exact byte 3 (by decide)
      · exact byte 2 (by decide)
    · exact byte 1 (by decide)
  · exact byte 0 (by decide)

theorem toNat_add_sub (below : (a - b).toNat + i < 2 ^ 64) :
    (a + BitVec.ofNat 64 i - b).toNat = (a - b).toNat + i := by
  have moved : a + BitVec.ofNat 64 i - b = (a - b) + BitVec.ofNat 64 i := by
    bv_omega
  rw [moved, BitVec.toNat_add, BitVec.toNat_ofNat, Nat.add_mod_mod, Nat.mod_eq_of_lt below]

theorem toNat_offset (below : i < 2 ^ 64) : (a + BitVec.ofNat 64 i - a).toNat = i := by
  rw [toNat_add_sub (by rw [BitVec.sub_self]; simpa using below), BitVec.sub_self]
  simp

theorem write64_byte (below : i < 8) :
    m.write64 a v (a + BitVec.ofNat 64 i) = v.extractLsb' (8 * i) 8 := by
  rw [write64, toNat_offset (by omega), if_pos below]

@[simp] theorem read64_write64 : (m.write64 a v).read64 a = v := by
  have byte := fun i below => @write64_byte m a v i below
  rw [read64]
  have bytes : m.write64 a v (a + 7) ++ m.write64 a v (a + 6) ++ m.write64 a v (a + 5) ++
      m.write64 a v (a + 4) ++ m.write64 a v (a + 3) ++ m.write64 a v (a + 2) ++
      m.write64 a v (a + 1) ++ m.write64 a v (a + 0) =
    v.extractLsb' 56 8 ++ v.extractLsb' 48 8 ++ v.extractLsb' 40 8 ++ v.extractLsb' 32 8 ++
      v.extractLsb' 24 8 ++ v.extractLsb' 16 8 ++ v.extractLsb' 8 8 ++ v.extractLsb' 0 8 := by
    rw [← byte 7 (by decide), ← byte 6 (by decide), ← byte 5 (by decide), ← byte 4 (by decide),
      ← byte 3 (by decide), ← byte 2 (by decide), ← byte 1 (by decide), ← byte 0 (by decide)]
    rfl
  rw [bytes]
  apply BitVec.eq_of_getLsbD_eq
  intro k below
  simp only [BitVec.getLsbD_append, BitVec.getLsbD_extractLsb']
  grind

theorem read64_write64_apart (above : 8 ≤ (a - b).toNat) (below : (a - b).toNat ≤ 2 ^ 64 - 8) :
    (m.write64 b v).read64 a = m.read64 a := by
  apply read64_congr
  intro k inside
  apply if_neg
  rw [toNat_add_sub (by omega)]
  omega

theorem read64_write32_apart {v : BitVec 32} (above : 4 ≤ (a - b).toNat)
    (below : (a - b).toNat ≤ 2 ^ 64 - 8) : (m.write32 b v).read64 a = m.read64 a := by
  apply read64_congr
  intro k inside
  apply if_neg
  rw [toNat_add_sub (by omega)]
  omega

theorem toNat_fields (i j : Nat) : (a + BitVec.ofNat 64 j - (a + BitVec.ofNat 64 i)).toNat =
    (j % 2 ^ 64 + (2 ^ 64 - i % 2 ^ 64)) % 2 ^ 64 := by
  bv_omega

theorem read64_write64_field (inside : i + 8 ≤ 2 ^ 64 ∧ j + 8 ≤ 2 ^ 64)
    (apart : i + 8 ≤ j ∨ j + 8 ≤ i) :
    (m.write64 (a + BitVec.ofNat 64 i) v).read64 (a + BitVec.ofNat 64 j) =
      m.read64 (a + BitVec.ofNat 64 j) := by
  apply read64_write64_apart <;> rw [toNat_fields] <;> omega

theorem read64_write32_field {v : BitVec 32} (inside : i + 8 ≤ 2 ^ 64 ∧ j + 8 ≤ 2 ^ 64)
    (apart : i + 4 ≤ j ∨ j + 8 ≤ i) :
    (m.write32 (a + BitVec.ofNat 64 i) v).read64 (a + BitVec.ofNat 64 j) =
      m.read64 (a + BitVec.ofNat 64 j) := by
  apply read64_write32_apart <;> rw [toNat_fields] <;> omega

theorem read64_writeFields {fields : List (Nat × BitVec 64)} (inside : j + 8 ≤ 2 ^ 64)
    (apart : ∀ field ∈ fields, field.1 + 8 ≤ 2 ^ 64 ∧ (field.1 + 8 ≤ j ∨ j + 8 ≤ field.1)) :
    (m.writeFields a fields).read64 (a + BitVec.ofNat 64 j) =
      m.read64 (a + BitVec.ofNat 64 j) := by
  induction fields generalizing m with
  | nil => rfl
  | cons field fields inductionHypothesis =>
    obtain ⟨first, rest⟩ := List.forall_mem_cons.mp apart
    have next : m.writeFields a (field :: fields) =
        (m.write64 (a + BitVec.ofNat 64 field.1) field.2).writeFields a fields := rfl
    rw [next, inductionHypothesis rest, read64_write64_field ⟨first.1, inside⟩ first.2]

theorem read64_writeFields_own {before after : List (Nat × BitVec 64)} (inside : j + 8 ≤ 2 ^ 64)
    (apart : ∀ field ∈ after, field.1 + 8 ≤ 2 ^ 64 ∧ (field.1 + 8 ≤ j ∨ j + 8 ≤ field.1)) :
    (m.writeFields a (before ++ (j, v) :: after)).read64 (a + BitVec.ofNat 64 j) = v := by
  have parts : m.writeFields a (before ++ (j, v) :: after) =
      ((m.writeFields a before).write64 (a + BitVec.ofNat 64 j) v).writeFields a after := by
    rw [writeFields, List.foldl_append]
    rfl
  rw [parts, read64_writeFields inside apart, read64_write64]

theorem writeFields_outside {fields : List (Nat × BitVec 64)} (bound : count ≤ 2 ^ 64)
    (inside : ∀ field ∈ fields, field.1 + 8 ≤ count) (outside : count ≤ (p - a).toNat) :
    m.writeFields a fields p = m p := by
  induction fields generalizing m with
  | nil => rfl
  | cons field fields inductionHypothesis =>
    obtain ⟨first, rest⟩ := List.forall_mem_cons.mp inside
    have next : m.writeFields a (field :: fields) =
        (m.write64 (a + BitVec.ofNat 64 field.1) field.2).writeFields a fields := rfl
    rw [next, inductionHypothesis rest]
    apply if_neg
    have distance := (p - a).isLt
    have moved : p - (a + BitVec.ofNat 64 field.1) = (p - a) - BitVec.ofNat 64 field.1 := by
      bv_omega
    rw [moved, BitVec.toNat_sub_of_le]
    · rw [BitVec.toNat_ofNat]
      omega
    · rw [BitVec.le_def, BitVec.toNat_ofNat]
      omega

theorem write32_outside {v : BitVec 32} (bound : count ≤ 2 ^ 64) (inside : i + 4 ≤ count)
    (outside : count ≤ (p - a).toNat) : m.write32 (a + BitVec.ofNat 64 i) v p = m p := by
  apply if_neg
  have distance := (p - a).isLt
  have moved : p - (a + BitVec.ofNat 64 i) = (p - a) - BitVec.ofNat 64 i := by
    bv_omega
  rw [moved, BitVec.toNat_sub_of_le]
  · rw [BitVec.toNat_ofNat]
    omega
  · rw [BitVec.le_def, BitVec.toNat_ofNat]
    omega

theorem write64_outside (outside : 8 ≤ (p - a).toNat) : m.write64 a v p = m p :=
  if_neg (Nat.not_lt.mpr outside)

theorem words_nil : m.Words a [] := fun i never => absurd never (Nat.not_lt_zero i)

theorem words_cons : m.Words a (v :: ws) ↔ m.read64 a = v ∧ m.Words (a + 8) ws := by
  have next : ∀ i, a + BitVec.ofNat 64 (8 * (i + 1)) = a + 8 + BitVec.ofNat 64 (8 * i) := by
    intro i
    rw [Nat.mul_succ, Nat.add_comm, BitVec.ofNat_add, ← BitVec.add_assoc]
    rfl
  constructor
  · intro words
    refine ⟨?_, ?_⟩
    · have first := words 0 (Nat.succ_pos _)
      simpa using first
    · intro i inside
      rw [← next]
      exact words (i + 1) (Nat.succ_lt_succ inside)
  · rintro ⟨first, rest⟩ i inside
    cases i with
    | zero => simpa using first
    | succ i =>
      rw [next]
      exact rest i (Nat.lt_of_succ_lt_succ inside)

theorem words_congr (same : ∀ k < 8 * ws.length,
    m (a + BitVec.ofNat 64 k) = m' (b + BitVec.ofNat 64 k)) : m.Words a ws ↔ m'.Words b ws := by
  have reads : ∀ i < ws.length, m.read64 (a + BitVec.ofNat 64 (8 * i)) =
      m'.read64 (b + BitVec.ofNat 64 (8 * i)) := by
    intro i inside
    apply read64_congr
    intro k below
    rw [BitVec.add_assoc, BitVec.add_assoc, ← BitVec.ofNat_add]
    exact same (8 * i + k) (by omega)
  constructor
  · intro words i inside
    rw [← reads i inside]
    exact words i inside
  · intro words i inside
    rw [reads i inside]
    exact words i inside

theorem words_write64_below (room : 8 * (ws.length + 1) ≤ 2 ^ 64) (words : m.Words a ws) :
    (m.write64 (a - 8) v).Words (a - 8) (v :: ws) := by
  rw [words_cons, BitVec.sub_add_cancel]
  refine ⟨read64_write64, ?_⟩
  have apart : (a - (a - 8)).toNat = 8 := by bv_omega
  intro i inside
  rw [read64_write64_apart, words i inside]
  · rw [toNat_add_sub (by omega)]
    omega
  · rw [toNat_add_sub (by omega)]
    omega

/-- The copy of words, where the places are apart or not. -/
theorem words_copy (words : m.Words b ws) (fits : 8 * ws.length ≤ count) (bound : count ≤ 2 ^ 64) :
    (m.copy a b count).Words a ws := by
  refine (words_congr ?_).mp words
  intro k below
  rw [copy, toNat_offset (by omega), if_pos (by omega)]
  congr 1
  have moved : a + BitVec.ofNat 64 k - a = BitVec.ofNat 64 k := by bv_omega
  rw [moved]

theorem words_set (room : 8 * ws.length ≤ 2 ^ 64) (words : m.Words a ws) (inside : i < ws.length) :
    (m.write64 (a + BitVec.ofNat 64 (8 * i)) v).Words a (ws.set i v) := by
  intro j below
  rw [List.length_set] at below
  rw [List.getElem_set]
  by_cases here : i = j
  · subst here
    rw [if_pos rfl, read64_write64]
  · rw [if_neg here, read64_write64_field (by omega) (by omega)]
    exact words j below

def Apart (count : Nat) (a b : BitVec 64) : Prop :=
  count ≤ (a - b).toNat ∧ count ≤ (b - a).toNat

instance (count : Nat) (a b : BitVec 64) : Decidable (Apart count a b) :=
  inferInstanceAs (Decidable (_ ∧ _))

theorem Apart.symm (apart : Apart count a b) : Apart count b a := ⟨apart.2, apart.1⟩

theorem Apart.offset (apart : Apart count a b) (inside : i < count) :
    count ≤ (a + BitVec.ofNat 64 i - b).toNat := by
  obtain ⟨above, below⟩ := apart
  bv_omega

theorem words_copy_apart (apart : Apart count a b) (fits : 8 * ws.length ≤ count)
    (words : m.Words a ws) (source : BitVec 64) : (m.copy b source count).Words a ws := by
  refine (words_congr ?_).mp words
  intro k below
  exact (if_neg (Nat.not_lt.mpr (apart.offset (by omega)))).symm

theorem words_write64_apart (apart : Apart count a b) (fits : 8 * ws.length ≤ count)
    (words : m.Words a ws) (inside : i + 8 ≤ count) :
    (m.write64 (b + BitVec.ofNat 64 i) v).Words a ws := by
  refine (words_congr ?_).mp words
  intro k below
  apply (if_neg ?_).symm
  obtain ⟨above, under⟩ := apart
  bv_omega

end Memory

/-- Registers, a stack pointer and a memory. -/
structure StackMachine (Register : Type) where
  regs : Register → BitVec 64
  rsp : BitVec 64
  mem : Memory

namespace StackMachine

variable {Register : Type} (s : StackMachine Register)

def push (v : BitVec 64) : StackMachine Register :=
  { s with rsp := s.rsp - 8, mem := s.mem.write64 (s.rsp - 8) v }

def pop : BitVec 64 × StackMachine Register :=
  (s.mem.read64 s.rsp, { s with rsp := s.rsp + 8 })

def popRegister [DecidableEq Register] (r : Register) : StackMachine Register :=
  { s.pop.2 with regs := Function.update s.regs r s.pop.1 }

def pushAll (vs : List (BitVec 64)) : StackMachine Register := vs.foldl push s

def popAll [DecidableEq Register] (rs : List Register) : StackMachine Register :=
  rs.foldl (fun s r => s.popRegister r) s

def Holds (ws : List (BitVec 64)) : Prop := s.mem.Words s.rsp ws

variable {s} {vs ws : List (BitVec 64)} {v : BitVec 64}

theorem holds_push (room : 8 * (ws.length + 1) ≤ 2 ^ 64) (holds : s.Holds ws) :
    (s.push v).Holds (v :: ws) :=
  Memory.words_write64_below room holds

@[simp] theorem regs_pushAll : (s.pushAll vs).regs = s.regs := by
  induction vs generalizing s with
  | nil => rfl
  | cons v vs inductionHypothesis => exact inductionHypothesis

@[simp] theorem rsp_pushAll :
    (s.pushAll vs).rsp = s.rsp - BitVec.ofNat 64 (8 * vs.length) := by
  induction vs generalizing s with
  | nil => simp [pushAll]
  | cons v vs inductionHypothesis =>
    have next : (s.pushAll (v :: vs)) = (s.push v).pushAll vs := rfl
    rw [next, inductionHypothesis, List.length_cons, push]
    bv_omega

theorem holds_pushAll (room : 8 * (vs.length + ws.length) ≤ 2 ^ 64) (holds : s.Holds ws) :
    (s.pushAll vs).Holds (vs.reverse ++ ws) := by
  induction vs generalizing s ws with
  | nil => exact holds
  | cons v vs inductionHypothesis =>
    rw [List.length_cons] at room
    rw [List.reverse_cons, List.append_assoc, List.singleton_append]
    refine inductionHypothesis (s := s.push v) ?_ (holds_push (by omega) holds)
    rw [List.length_cons]
    omega

theorem mem_pushAll_of_ne {p : BitVec 64} (outside : ∀ k < 8 * vs.length,
    p ≠ s.rsp - BitVec.ofNat 64 (k + 1)) : (s.pushAll vs).mem p = s.mem p := by
  induction vs generalizing s with
  | nil => rfl
  | cons v vs inductionHypothesis =>
    have next : (s.pushAll (v :: vs)) = (s.push v).pushAll vs := rfl
    rw [List.length_cons] at outside
    rw [next, inductionHypothesis]
    · apply Memory.write64_outside
      by_contra inside
      have below : (p - (s.rsp - 8)).toNat < 8 := Nat.lt_of_not_le inside
      apply outside (7 - (p - (s.rsp - 8)).toNat) (by omega)
      apply BitVec.eq_of_toNat_eq
      bv_omega
    · intro k below equal
      apply outside (k + 8) (by omega)
      rw [equal, push]
      bv_omega

/-- Only the bytes from the new stack pointer to the old one are written. -/
theorem mem_pushAll {p : BitVec 64} (outside : 8 * vs.length ≤ (p - (s.pushAll vs).rsp).toNat) :
    (s.pushAll vs).mem p = s.mem p := by
  apply mem_pushAll_of_ne
  intro k below equal
  rw [rsp_pushAll, equal] at outside
  have inside : (s.rsp - BitVec.ofNat 64 (k + 1) -
      (s.rsp - BitVec.ofNat 64 (8 * vs.length))).toNat < 8 * vs.length := by
    by_cases room : 8 * vs.length < 2 ^ 64
    · bv_omega
    · exact Nat.lt_of_lt_of_le (BitVec.isLt _) (Nat.le_of_not_lt room)
  omega

/-- Popping takes the words from the stack into the registers. -/
theorem popAll_holds [DecidableEq Register] {rs : List Register} {f : Register → BitVec 64}
    (holds : s.Holds (rs.map f ++ ws)) :
    s.popAll rs = ⟨fun r => if r ∈ rs then f r else s.regs r,
      s.rsp + BitVec.ofNat 64 (8 * rs.length), s.mem⟩ ∧ (s.popAll rs).Holds ws := by
  induction rs generalizing s with
  | nil =>
    refine ⟨?_, holds⟩
    simp [popAll]
  | cons r rs inductionHypothesis =>
    obtain ⟨top, later⟩ := Memory.words_cons.mp holds
    obtain ⟨result, rest⟩ := inductionHypothesis (s := s.popRegister r) later
    have next : s.popAll (r :: rs) = (s.popRegister r).popAll rs := rfl
    rw [next]
    refine ⟨?_, rest⟩
    rw [result]
    congr 1
    · funext q
      by_cases own : q = r
      · subst own
        simp [popRegister, pop, top]
      · simp [popRegister, pop, own]
    · rw [List.length_cons, popRegister, pop]
      bv_omega

end StackMachine

end SwagOS.Lib
