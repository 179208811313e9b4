import SwagOS.Lib.BitFields

/-!
# The PCI configuration space

`PCI_ConfigReadDword` to `PCI_ConfigWriteByte` of `drivers/pci.c`, on registers of 32 bits that
port `0xCF8` selects and port `0xCFC` holds.  A byte that is written to port `0xCFC` is stored
in the lowest byte of the register, whichever byte of it is meant.
-/

namespace SwagOS.Drivers

open SwagOS.Lib.BitFields

/-- The registers, and the address in port `0xCF8`. -/
structure ConfigSpace where
  selected : BitVec 32
  registers : BitVec 32 → BitVec 32

namespace ConfigSpace

variable (space : ConfigSpace)

/-- `outportl(0xCF8, address)` -/
def select (address : BitVec 32) : ConfigSpace := { space with selected := address }

def inportl : BitVec 32 := space.registers space.selected

def outportl (value : BitVec 32) : ConfigSpace :=
  { space with registers := Function.update space.registers space.selected value }

def outb (data : BitVec 8) : ConfigSpace := space.outportl (replaceField space.inportl 0 data)

end ConfigSpace

def pciAddress (bus slot func offset : BitVec 8) : BitVec 32 :=
  (bus.setWidth 32 <<< 16) ||| (slot.setWidth 32 <<< 11) ||| (func.setWidth 32 <<< 8) |||
    (offset.setWidth 32 &&& 0xfc) ||| 0x80000000

section Functions

variable (bus slot func offset : BitVec 8)

def pciConfigReadDword (space : ConfigSpace) : BitVec 32 × ConfigSpace :=
  let space := space.select (pciAddress bus slot func offset)
  (space.inportl, space)

def pciConfigReadWord (space : ConfigSpace) : BitVec 16 × ConfigSpace :=
  let space := space.select (pciAddress bus slot func offset)
  (((space.inportl >>> ((offset &&& 2).toNat * 8)) &&& 0xffff).setWidth 16, space)

def pciConfigReadByte (space : ConfigSpace) : BitVec 8 × ConfigSpace :=
  let space := space.select (pciAddress bus slot func offset)
  (((space.inportl >>> ((offset &&& 3).toNat * 8)) &&& 0xff).setWidth 8, space)

def pciConfigWriteDword (data : BitVec 16) (space : ConfigSpace) : ConfigSpace :=
  let space := space.select (pciAddress bus slot func offset)
  space.outportl (data.setWidth 32)

def pciConfigWriteWord (data : BitVec 16) (space : ConfigSpace) : ConfigSpace :=
  let space := space.select (pciAddress bus slot func offset)
  space.outportl ((space.inportl &&& ~~~((0xFFFF : BitVec 32) <<< ((offset &&& 2).toNat * 8))) |||
    (data.setWidth 32 <<< ((offset &&& 2).toNat * 8)))

def pciConfigWriteByte (data : BitVec 8) (space : ConfigSpace) : ConfigSpace :=
  let space := space.select (pciAddress bus slot func offset)
  space.outb ((space.inportl &&& ~~~((0xFF : BitVec 32) <<< ((offset &&& 3).toNat * 8)) |||
    (data.setWidth 32 <<< ((offset &&& 3).toNat * 8))).setWidth 8)

end Functions

/-- The bytes of one register from byte `first` on are those of a value, and all other bytes of
all registers are as they were. -/
def Replaced {w : Nat} (before after : ConfigSpace) (address : BitVec 32) (first : Nat)
    (value : BitVec w) : Prop :=
  ∀ a, ∀ k < 4, field (after.registers a) (8 * k) 8 =
    if a = address ∧ first ≤ k ∧ 8 * k < 8 * first + w then field value (8 * (k - first)) 8
    else field (before.registers a) (8 * k) 8

section Right

variable (space : ConfigSpace) (bus slot func offset : BitVec 8)

def WriteByteRight (data : BitVec 8) : Prop :=
  let after := pciConfigWriteByte bus slot func offset data space
  Replaced space after (pciAddress bus slot func offset) (offset.toNat % 4) data ∧
    (pciConfigReadByte bus slot func offset after).1 = data

def WriteWordRight (data : BitVec 16) : Prop :=
  let after := pciConfigWriteWord bus slot func offset data space
  Replaced space after (pciAddress bus slot func offset) (offset.toNat % 4) data ∧
    (pciConfigReadWord bus slot func offset after).1 = data

def WriteDwordRight (data : BitVec 32) : Prop :=
  let after := pciConfigWriteDword bus slot func offset (data.setWidth 16) space
  Replaced space after (pciAddress bus slot func offset) (offset.toNat % 4) data ∧
    (pciConfigReadDword bus slot func offset after).1 = data

end Right

section Reading

variable {space : ConfigSpace} {bus slot func offset : BitVec 8}

theorem and_three (offset : BitVec 8) : (offset &&& 3).toNat * 8 = 8 * (offset.toNat % 4) := by
  rw [BitVec.toNat_and, Nat.mul_comm]
  exact congrArg (8 * ·) (Nat.and_two_pow_sub_one_eq_mod offset.toNat 2)

theorem and_two (even : offset.toNat % 2 = 0) :
    (offset &&& 2).toNat * 8 = 8 * (offset.toNat % 4) := by
  have every : ∀ offset : BitVec 8, offset.toNat % 2 = 0 →
      (offset &&& 2).toNat * 8 = 8 * (offset.toNat % 4) := by decide
  exact every offset even

theorem readByte_eq : (pciConfigReadByte bus slot func offset space).1 =
    field (space.registers (pciAddress bus slot func offset)) (8 * (offset.toNat % 4)) 8 := by
  rw [← and_three]
  exact @masked 32 8 (by decide) _ _

theorem readWord_eq (even : offset.toNat % 2 = 0) :
    (pciConfigReadWord bus slot func offset space).1 =
      field (space.registers (pciAddress bus slot func offset)) (8 * (offset.toNat % 4)) 16 := by
  rw [← and_two even]
  exact @masked 32 16 (by decide) _ _

end Reading

section Writing

variable {space : ConfigSpace} {bus slot func offset : BitVec 8} {address : BitVec 32} {w : Nat}

theorem replaced_outportl {first : Nat} {value : BitVec w} (bytes : 8 ∣ w)
    (fits : 8 * first + w ≤ 32) :
    Replaced space ((space.select address).outportl
      (replaceField (space.registers address) (8 * first) value)) address first value := by
  intro a k inside
  dsimp only [ConfigSpace.outportl, ConfigSpace.select]
  by_cases here : a = address
  · subst here
    rw [Function.update_self]
    split
    next within =>
      have place : 8 * k = 8 * first + 8 * (k - first) := by omega
      rw [place]
      exact field_inside (by omega) fits
    next without =>
      rw [eq_self, true_and] at without
      apply field_outside _ (by omega)
      omega
  · rw [Function.update_of_ne here, if_neg fun both => here both.1]

theorem field_outportl {first : Nat} {value : BitVec w} (fits : 8 * first + w ≤ 32) :
    field (((space.select address).outportl
      (replaceField (space.registers address) (8 * first) value)).registers address)
        (8 * first) w = value := by
  dsimp only [ConfigSpace.outportl, ConfigSpace.select]
  rw [Function.update_self, field_own fits]

theorem writeWord_right (even : offset.toNat % 2 = 0) (data : BitVec 16) :
    WriteWordRight space bus slot func offset data := by
  have fits : 8 * (offset.toNat % 4) + 16 ≤ 32 := by omega
  have written : pciConfigWriteWord bus slot func offset data space =
      (space.select (pciAddress bus slot func offset)).outportl
        (replaceField (space.registers (pciAddress bus slot func offset))
          (8 * (offset.toNat % 4)) data) := by
    rw [← and_two even]
    rfl
  constructor
  · rw [written]
    exact replaced_outportl (by decide) fits
  · rw [readWord_eq even, written]
    exact field_outportl fits

/-- The lowest byte of the register is the one that is stored. -/
theorem writeByte_eq (data : BitVec 8) : pciConfigWriteByte bus slot func offset data space =
    (space.select (pciAddress bus slot func offset)).outportl
      (replaceField (space.registers (pciAddress bus slot func offset)) 0
        (field (replaceField (space.registers (pciAddress bus slot func offset))
          (8 * (offset.toNat % 4)) data) 0 8)) := by
  rw [← and_three, field, ← BitVec.setWidth_eq_extractLsb' (by decide)]
  rfl

theorem writeByte_lowest (lowest : offset.toNat % 4 = 0) (data : BitVec 8) :
    WriteByteRight space bus slot func offset data := by
  have fits : 8 * 0 + 8 ≤ 32 := by decide
  have written : pciConfigWriteByte bus slot func offset data space =
      (space.select (pciAddress bus slot func offset)).outportl
        (replaceField (space.registers (pciAddress bus slot func offset)) (8 * 0) data) := by
    rw [writeByte_eq, lowest, Nat.mul_zero, field_own (by decide)]
  constructor
  · rw [written, lowest]
    exact replaced_outportl (by decide) fits
  · rw [readByte_eq, written, lowest]
    exact field_outportl fits

theorem writeByte_higher (higher : offset.toNat % 4 ≠ 0) (data : BitVec 8) :
    WriteByteRight space bus slot func offset data ↔
      field (space.registers (pciAddress bus slot func offset)) (8 * (offset.toNat % 4)) 8 =
        data := by
  have same : (pciConfigWriteByte bus slot func offset data space).registers =
      space.registers := by
    rw [writeByte_eq, field_outside (by omega) (by decide), replaceField_same rfl]
    exact Function.update_eq_self _ _
  have read : (pciConfigReadByte bus slot func offset
      (pciConfigWriteByte bus slot func offset data space)).1 =
        field (space.registers (pciAddress bus slot func offset)) (8 * (offset.toNat % 4)) 8 := by
    rw [readByte_eq, same]
  constructor
  · intro right
    exact read.symm.trans right.2
  · intro equal
    refine ⟨?_, read.trans equal⟩
    intro a k inside
    rw [same]
    split
    next within =>
      obtain ⟨rfl, above, below⟩ := within
      obtain rfl : k = offset.toNat % 4 := by omega
      rw [equal, Nat.sub_self]
      exact BitVec.extractLsb'_eq_self.symm
    next => rfl

theorem writeDword_right_iff (aligned : offset.toNat % 4 = 0) (data : BitVec 32) :
    WriteDwordRight space bus slot func offset data ↔ data.toNat < 2 ^ 16 := by
  have read : (pciConfigReadDword bus slot func offset
      (pciConfigWriteDword bus slot func offset (data.setWidth 16) space)).1 =
        (data.setWidth 16).setWidth 32 := Function.update_self _ _ _
  have kept : (data.setWidth 16).setWidth 32 = data ↔ data.toNat < 2 ^ 16 := by
    rw [← BitVec.toNat_inj, BitVec.toNat_setWidth, BitVec.toNat_setWidth]
    omega
  constructor
  · intro right
    exact kept.mp (read.symm.trans right.2)
  · intro small
    have written : pciConfigWriteDword bus slot func offset (data.setWidth 16) space =
        (space.select (pciAddress bus slot func offset)).outportl
          (replaceField (space.registers (pciAddress bus slot func offset)) (8 * 0) data) := by
      rw [Nat.mul_zero, replaceField_whole, pciConfigWriteDword, kept.mpr small]
    refine ⟨?_, read.trans (kept.mpr small)⟩
    rw [aligned, written]
    exact replaced_outportl (by decide) (by decide)

end Writing

/-- Which writes to the configuration space are right: those of words, those of bytes to the
lowest byte of a register or with the value that is there, and those of double words of which
the parameter keeps all bits. -/
theorem pciConfigWrite_right (space : ConfigSpace) (bus slot func offset : BitVec 8) :
    (∀ data, WriteByteRight space bus slot func offset data ↔ offset.toNat % 4 = 0 ∨
      field (space.registers (pciAddress bus slot func offset)) (8 * (offset.toNat % 4)) 8 =
        data) ∧
    (offset.toNat % 2 = 0 → ∀ data, WriteWordRight space bus slot func offset data) ∧
    (offset.toNat % 4 = 0 → ∀ data,
      (WriteDwordRight space bus slot func offset data ↔ data.toNat < 2 ^ 16)) := by
  refine ⟨?_, writeWord_right, writeDword_right_iff⟩
  intro data
  by_cases lowest : offset.toNat % 4 = 0
  · exact iff_of_true (writeByte_lowest lowest data) (.inl lowest)
  · rw [writeByte_higher lowest, or_iff_right lowest]

def zeroSpace : ConfigSpace := ⟨0, fun _ => 0⟩

theorem pciConfigWrite_right_zero :
    (∀ data, WriteByteRight zeroSpace 0 1 0 4 data) ∧
    (∀ data, WriteWordRight zeroSpace 0 1 0 4 data) ∧
    (∀ data, WriteDwordRight zeroSpace 0 1 0 4 data ↔ data.toNat < 2 ^ 16) := by
  obtain ⟨bytes, words, dwords⟩ := pciConfigWrite_right zeroSpace 0 1 0 4
  exact ⟨fun data => (bytes data).mpr (.inl (by decide)), words (by decide), dwords (by decide)⟩

/-- The interrupt pin, byte 61, keeps its value, and a base address loses its upper half. -/
theorem pciConfigWrite_wrong :
    (pciConfigReadByte 0 1 0 61 (pciConfigWriteByte 0 1 0 61 5 zeroSpace)).1 = 0 ∧
    ¬WriteByteRight zeroSpace 0 1 0 61 5 ∧
    (pciConfigReadDword 0 1 0 16
      (pciConfigWriteDword 0 1 0 16 ((0xfebc0000 : BitVec 32).setWidth 16) zeroSpace)).1 = 0 ∧
    ¬WriteDwordRight zeroSpace 0 1 0 16 0xfebc0000 := by
  have byte : (pciConfigReadByte 0 1 0 61 (pciConfigWriteByte 0 1 0 61 5 zeroSpace)).1 = 0 := by
    decide
  have dword : (pciConfigReadDword 0 1 0 16
      (pciConfigWriteDword 0 1 0 16 ((0xfebc0000 : BitVec 32).setWidth 16) zeroSpace)).1 = 0 := by
    decide
  refine ⟨byte, ?_, dword, ?_⟩
  · intro right
    exact absurd (byte.symm.trans right.2) (by decide)
  · intro right
    exact absurd (dword.symm.trans right.2) (by decide)

end SwagOS.Drivers
