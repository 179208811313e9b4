import Mathlib.Tactic.IntervalCases
import SwagOS.Kernel.Interrupts

/-!
# The descriptors of a CPU

`write_gdt`, `set_tss` and `ctx_switch_tss`, with the places of the fields in the packed
structures, and the descriptor of the task state segment as `ltr` reads it.
-/

namespace SwagOS.Kernel

open SwagOS.Lib

def gdtOffset : Nat := 48

/-- `cpu->gdt.tss_low` -/
def tssLowOffset : Nat := gdtOffset + 40

/-- `cpu->gdt.tss_high` -/
def tssHighOffset : Nat := gdtOffset + 48

/-- `cpu->gdt.desc1.ptr`, behind a size of two bytes. -/
def desc1PtrOffset : Nat := gdtOffset + 58

def tssOffset : Nat := 128

/-- `cpu->tss.rsp0` -/
def rsp0Offset : Nat := tssOffset + 4

/-- `sizeof(tss_t)` -/
def tssSize : Nat := 112

def cpuSize : Nat := tssOffset + tssSize

def kstackSize : Nat := 0x80000

def tssEntryLow (tss : BitVec 64) : BitVec 64 :=
  let limitLow : BitVec 16 := BitVec.ofNat 16 tssSize
  let tssEntryBase1 : BitVec 16 := (tss &&& 0xffff).setWidth 16
  let tssEntryBase2 : BitVec 8 := (tss >>> 16 &&& 0xff).setWidth 8
  let flags1 : BitVec 8 := 0x89
  let flags2 : BitVec 8 := 0
  let tssEntryBase3 : BitVec 8 := (tss >>> 24 &&& 0xff).setWidth 8
  tssEntryBase3.setWidth 64 <<< 56 ||| flags2.setWidth 64 <<< 48 ||| flags1.setWidth 64 <<< 40 |||
    tssEntryBase2.setWidth 64 <<< 32 ||| tssEntryBase1.setWidth 64 <<< 16 ||| limitLow.setWidth 64

def tssEntryHigh (tss : BitVec 64) : BitVec 64 :=
  let tssEntryBase4 : BitVec 32 := (tss >>> 32 &&& 0xffffffff).setWidth 32
  let reservedPart : BitVec 32 := 0
  (reservedPart ||| tssEntryBase4).setWidth 64

structure SystemDescriptor where
  base : BitVec 64
  limit : BitVec 20
  type : BitVec 4
  dpl : BitVec 2
  present : Bool

def SystemDescriptor.read (low high : BitVec 64) : SystemDescriptor where
  base := high.extractLsb' 0 32 ++ low.extractLsb' 56 8 ++ low.extractLsb' 16 24
  limit := low.extractLsb' 48 4 ++ low.extractLsb' 0 16
  type := low.extractLsb' 40 4
  dpl := low.extractLsb' 45 2
  present := low.getLsbD 47

def availableTss : BitVec 4 := 0x9

theorem getLsbD_tssEntryLow {tss : BitVec 64} {i : Nat} (inside : i < 64) :
    (tssEntryLow tss).getLsbD i =
      if i < 16 then (112 : BitVec 16).getLsbD i
      else if i < 40 then tss.getLsbD (i - 16)
      else if i < 48 then (0x89 : BitVec 8).getLsbD (i - 40)
      else if i < 56 then false
      else tss.getLsbD (i - 32) := by
  have mask16 : (0xffff : BitVec 64) = (BitVec.allOnes 16).setWidth 64 := by decide
  have mask8 : (0xff : BitVec 64) = (BitVec.allOnes 8).setWidth 64 := by decide
  have size : BitVec.ofNat 16 tssSize = 112 := rfl
  simp only [tssEntryLow, mask16, mask8, size, BitVec.getLsbD_or, BitVec.getLsbD_shiftLeft,
    BitVec.getLsbD_setWidth, BitVec.getLsbD_and, BitVec.getLsbD_ushiftRight, BitVec.getLsbD_allOnes]
  by_cases base : i < 40
  · grind
  · grind

theorem read_tssEntry (tss : BitVec 64) : SystemDescriptor.read (tssEntryLow tss) (tssEntryHigh tss) =
    ⟨tss, BitVec.ofNat 20 tssSize, availableTss, 0, true⟩ := by
  have mask32 : (0xffffffff : BitVec 64) = (BitVec.allOnes 32).setWidth 64 := by decide
  have high : ∀ i < 32, (tssEntryHigh tss).getLsbD i = tss.getLsbD (32 + i) := by
    intro i inside
    simp only [tssEntryHigh, mask32, BitVec.getLsbD_or, BitVec.getLsbD_setWidth, BitVec.getLsbD_and,
      BitVec.getLsbD_ushiftRight, BitVec.getLsbD_allOnes]
    grind
  have field : ∀ {w} (s : Nat) (v : BitVec w), s + w ≤ 64 →
      (∀ i < w, (tssEntryLow tss).getLsbD (s + i) = v.getLsbD i) →
      (tssEntryLow tss).extractLsb' s w = v := by
    intro w s v fits same
    apply BitVec.eq_of_getLsbD_eq
    intro i below
    rw [BitVec.getLsbD_extractLsb', same i below]
    simp [below]
  have base : (tssEntryHigh tss).extractLsb' 0 32 ++ (tssEntryLow tss).extractLsb' 56 8 ++
      (tssEntryLow tss).extractLsb' 16 24 = tss := by
    apply BitVec.eq_of_getLsbD_eq
    intro i below
    simp only [BitVec.getLsbD_append, BitVec.getLsbD_extractLsb']
    by_cases first : i < 24
    · have part := @getLsbD_tssEntryLow tss (16 + i) (by omega)
      grind
    · by_cases second : i < 32
      · have part := @getLsbD_tssEntryLow tss (56 + (i - 24)) (by omega)
        grind
      · have part := high (i - 24 - 8) (by omega)
        grind
  have bit : ∀ i < 64, (tssEntryLow tss).getLsbD i = _ := fun i inside => getLsbD_tssEntryLow inside
  rw [SystemDescriptor.read, base, field 48 (0 : BitVec 4) (by decide),
    field 0 (112 : BitVec 16) (by decide), field 40 availableTss (by decide),
    field 45 (0 : BitVec 2) (by decide), bit 47 (by decide)]
  · rfl
  all_goals
    intro i below
    rw [bit _ (by omega)]
    interval_cases i <;> rfl

section Writing

variable (cpu kstack : BitVec 64)

def writeGdt (m : Memory) : Memory := m.writeFields cpu [
  (gdtOffset + 0, 0x0),
  (gdtOffset + 8, 0x00AF9B000000FFFF),
  (gdtOffset + 16, 0x00AF93000000FFFF),
  (gdtOffset + 24, 0x00AFFB000000FFFF),
  (gdtOffset + 32, 0x00AFF3000000FFFF),
  (tssHighOffset, 0x0),
  (tssLowOffset, 0x0)]

/-- `set_tss`; the stack of a thread is used from its end. -/
def setTss (m : Memory) : Memory :=
  let tss := cpu + BitVec.ofNat 64 tssOffset
  let m := m.write32 (cpu + BitVec.ofNat 64 (tssOffset + 0)) 0x00
  let m := m.writeFields cpu [(tssOffset + 28, 0x00), (tssOffset + 92, 0x00)]
  let m := m.write32 (cpu + BitVec.ofNat 64 (tssOffset + 100)) 0x00
  let m := m.writeFields cpu [
    (rsp0Offset, kstack + BitVec.ofNat 64 kstackSize),
    (tssOffset + 12, 0x0),
    (tssOffset + 20, 0x0),
    (tssOffset + 36, 0x0),
    (tssOffset + 44, 0x0),
    (tssOffset + 52, 0x0),
    (tssOffset + 60, 0x0),
    (tssOffset + 68, 0x0),
    (tssOffset + 76, 0x0),
    (tssOffset + 84, 0x0)]
  let m := m.write32 (cpu + BitVec.ofNat 64 (tssOffset + 104)) 0x0
  m.writeFields cpu [
    (tssLowOffset, 0),
    (tssHighOffset, 0),
    (tssLowOffset, tssEntryLow tss),
    (tssHighOffset, tssEntryHigh tss)]

/-- `ltr(0x2B)` with the table at `gdtr`: the fifth descriptor is loaded, and marked as busy. -/
def ltr (gdtr : BitVec 64) (c : Core) : Core :=
  let place := gdtr + (0x2B &&& ~~~7#64)
  let low := c.mem.read64 place
  { c with
    tss := (SystemDescriptor.read low (c.mem.read64 (place + 8))).base
    mem := c.mem.write64 place (low ||| 1#64 <<< 41) }

def describe (m : Memory) : Memory :=
  (setTss cpu kstack (writeGdt cpu m)).writeFields cpu
    [(desc1PtrOffset, cpu + BitVec.ofNat 64 gdtOffset)]

def ctxSwitchTss (c : Core) : Core :=
  let c := { c with mem := describe cpu kstack c.mem }
  ltr (c.mem.read64 (cpu + BitVec.ofNat 64 desc1PtrOffset)) c

end Writing

section Loading

variable {cpu kstack p : BitVec 64} {m : Memory} {c : Core}

theorem describe_outside (outside : cpuSize ≤ (p - cpu).toNat) : describe cpu kstack m p = m p := by
  have bound : cpuSize ≤ 2 ^ 64 := by decide
  have fields : ∀ (m : Memory) (fields : List (Nat × BitVec 64)),
      (∀ field ∈ fields, field.1 + 8 ≤ cpuSize) → m.writeFields cpu fields p = m p :=
    fun m fields inside => Memory.writeFields_outside bound inside outside
  have halves : ∀ (m : Memory) (i : Nat), i + 4 ≤ cpuSize →
      m.write32 (cpu + BitVec.ofNat 64 i) 0 p = m p :=
    fun m i inside => Memory.write32_outside bound inside outside
  rw [describe, fields, setTss, fields, halves _ _ (by decide), fields, halves _ _ (by decide), fields,
    halves _ _ (by decide), writeGdt, fields]
  all_goals
    simp [gdtOffset, tssLowOffset, tssHighOffset, desc1PtrOffset, tssOffset, rsp0Offset, cpuSize,
      tssSize]

theorem read64_desc1Ptr : (describe cpu kstack m).read64 (cpu + BitVec.ofNat 64 desc1PtrOffset) =
    cpu + BitVec.ofNat 64 gdtOffset :=
  @Memory.read64_writeFields_own _ _ _ _ [] [] (by decide) (by simp)

theorem read64_tssLow : (describe cpu kstack m).read64 (cpu + BitVec.ofNat 64 tssLowOffset) =
    tssEntryLow (cpu + BitVec.ofNat 64 tssOffset) := by
  rw [describe, Memory.read64_writeFields (by decide), setTss]
  · exact @Memory.read64_writeFields_own _ _ _ _ [(tssLowOffset, 0), (tssHighOffset, 0)] _
      (by decide) (by simp [tssLowOffset, tssHighOffset, gdtOffset])
  · simp [tssLowOffset, desc1PtrOffset, gdtOffset]

theorem read64_tssHigh : (describe cpu kstack m).read64 (cpu + BitVec.ofNat 64 tssHighOffset) =
    tssEntryHigh (cpu + BitVec.ofNat 64 tssOffset) := by
  rw [describe, Memory.read64_writeFields (by decide), setTss]
  · exact @Memory.read64_writeFields_own _ _ _ _ [(tssLowOffset, 0), (tssHighOffset, 0),
      (tssLowOffset, tssEntryLow (cpu + BitVec.ofNat 64 tssOffset))] _ (by decide) (by simp)
  · simp [tssHighOffset, desc1PtrOffset, gdtOffset]

theorem read64_rsp0 : (describe cpu kstack m).read64 (cpu + BitVec.ofNat 64 rsp0Offset) =
    kstack + BitVec.ofNat 64 kstackSize := by
  rw [describe, Memory.read64_writeFields (by decide), setTss]
  · rw [Memory.read64_writeFields (by decide), Memory.read64_write32_field (by decide) (by decide)]
    · exact @Memory.read64_writeFields_own _ _ _ _ [] _ (by decide)
        (by simp [rsp0Offset, tssOffset])
    · simp [rsp0Offset, tssOffset, tssLowOffset, tssHighOffset, gdtOffset]
  · simp [rsp0Offset, tssOffset, desc1PtrOffset, gdtOffset]

theorem descriptor_place : cpu + BitVec.ofNat 64 gdtOffset + (0x2B &&& ~~~7#64) =
    cpu + BitVec.ofNat 64 tssLowOffset := by
  have index : (0x2B &&& ~~~7#64) = 40#64 := by decide
  rw [index, gdtOffset, tssLowOffset, gdtOffset]
  bv_omega

theorem descriptor_next : cpu + BitVec.ofNat 64 tssLowOffset + 8 =
    cpu + BitVec.ofNat 64 tssHighOffset := by
  rw [tssLowOffset, tssHighOffset, gdtOffset]
  bv_omega

theorem ctxSwitchTss_eq : ctxSwitchTss cpu kstack c = { c with
    tss := cpu + BitVec.ofNat 64 tssOffset
    mem := (describe cpu kstack c.mem).write64 (cpu + BitVec.ofNat 64 tssLowOffset)
      (tssEntryLow (cpu + BitVec.ofNat 64 tssOffset) ||| 1#64 <<< 41) } := by
  rw [ctxSwitchTss]
  dsimp only
  rw [read64_desc1Ptr, ltr]
  dsimp only
  rw [descriptor_place, descriptor_next, read64_tssLow, read64_tssHigh, read_tssEntry]

/-- `ctx_switch_tss` gives the CPU its own task state segment, with the end of the stack of the
thread, and leaves the memory outside of the `CPU`. -/
theorem ctxSwitchTss_loads (cpu kstack : BitVec 64) (c : Core) :
    let switched := ctxSwitchTss cpu kstack c
    switched.tss = cpu + BitVec.ofNat 64 tssOffset ∧
      switched.mem.read64 (switched.tss + 4) = kstack + BitVec.ofNat 64 kstackSize ∧
      ∀ p, cpuSize ≤ (p - cpu).toNat → switched.mem p = c.mem p := by
  have rsp0 : cpu + BitVec.ofNat 64 tssOffset + 4 = cpu + BitVec.ofNat 64 rsp0Offset := by
    rw [tssOffset, rsp0Offset, tssOffset]
    bv_omega
  dsimp only
  rw [ctxSwitchTss_eq]
  refine ⟨rfl, ?_, ?_⟩
  · dsimp only
    rw [rsp0, Memory.read64_write64_field (by decide) (by decide), read64_rsp0]
  · intro p outside
    dsimp only
    rw [← @describe_outside cpu kstack p c.mem outside]
    exact @Memory.writeFields_outside _ _ _ _ [(tssLowOffset, _)] (by decide)
      (by simp [tssLowOffset, gdtOffset, cpuSize, tssOffset, tssSize]) outside

end Loading

end SwagOS.Kernel
