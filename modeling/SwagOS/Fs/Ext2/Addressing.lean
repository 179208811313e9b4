import SwagOS.Fs.Ext2.InodeLocation

/-!
# Where blocks are read

A block number is made an offset of 32 bits, and a sector of that.  The disk driver compares
the sector with `FSSIZE`, the number of sectors of the file system, although sectors are
counted from the beginning of the disk and the file system starts at `DEVICE_START`.
-/

namespace SwagOS.Fs.Ext2Driver

open SwagOS.Lib SwagOS.Libc SwagOS.Drivers

variable (fs : Ext2Driver)

def sectorsFrom (sector : Nat) : Bytes :=
  fun i => fs.sectorData (sector + i / diskSectorSize) (i % diskSectorSize)

def sectorsPerBlock (log2blockSize : Nat) : Nat := 2 * 2 ^ log2blockSize

/-- `ext2_read_block` delivers the sectors of the block. -/
def DeliversBlock (b : Nat) : Prop :=
  ∀ out offset, fs.ext2ReadBlock out offset b =
    .ok (out.memcpy offset
      (fs.sectorsFrom (deviceStart + b * sectorsPerBlock fs.log2blockSize)) fs.blockSize)

/-- The block is delivered, or it lies behind the `FSSIZE` sectors of the file system and the
machine stops. -/
def AddressesBlock (b : Nat) : Prop :=
  fs.DeliversBlock b ∨ fssize < (b + 1) * sectorsPerBlock fs.log2blockSize ∧
    ∀ out offset, fs.ext2ReadBlock out offset b = .error (.panic "incorrect blockno")

/-- A block of the file system is one that the disk driver reads, and the offset of another
does not lead back to sectors that it reads. -/
def Addressable (log2blockSize b : Nat) : Prop :=
  let n := sectorsPerBlock log2blockSize
  if (b + 1) * n ≤ fssize then deviceStart + (b + 1) * n ≤ fssize
  else b * n < 2 ^ 23 ∨ fssize < deviceStart + b * n % 2 ^ 23 + n

instance (log2blockSize b : Nat) : Decidable (Addressable log2blockSize b) :=
  inferInstanceAs (Decidable (if (b + 1) * sectorsPerBlock log2blockSize ≤ fssize then _ else _ ∨ _))

variable {fs}

theorem readSectors_eq (out : Bytes) (offset sector count : Nat) :
    fs.readSectors out offset sector count =
      if count = 0 ∨ sector + count ≤ fssize then
        .ok (out.memcpy offset (fs.sectorsFrom sector) (count * diskSectorSize))
      else .error (.panic "incorrect blockno") := by
  induction count generalizing out offset sector with
  | zero =>
    rw [readSectors, if_pos (.inl rfl), Nat.zero_mul, Bytes.memcpy_zero]
    rfl
  | succ count inductionHypothesis =>
    rw [readSectors, readDiskSector]
    by_cases known : sector ≥ fssize
    · have outside : ¬(count + 1 = 0 ∨ sector + (count + 1) ≤ fssize) := by omega
      rw [if_pos known, if_neg outside]
      rfl
    · have sectors : out.memcpy offset (fs.sectorData sector) diskSectorSize =
          out.memcpy offset (fs.sectorsFrom sector) diskSectorSize := by
        funext p
        rw [Bytes.memcpy, Bytes.memcpy]
        refine ite_congr rfl (fun inside => ?_) fun _ => rfl
        have within : p - offset < diskSectorSize := by omega
        rw [sectorsFrom, Nat.div_eq_of_lt within, Nat.mod_eq_of_lt within, Nat.add_zero]
      have behind : fs.sectorsFrom (sector + 1) =
          fun i => fs.sectorsFrom sector (diskSectorSize + i) := by
        funext i
        rw [sectorsFrom, sectorsFrom, Nat.add_div_left i (by decide), Nat.add_mod_left,
          Nat.add_assoc, Nat.add_comm 1]
      have same : count = 0 ∨ sector + 1 + count ≤ fssize ↔
          count + 1 = 0 ∨ sector + (count + 1) ≤ fssize := by
        omega
      rw [if_neg known]
      refine (inductionHypothesis _ _ _).trans ?_
      rw [sectors, behind, Bytes.memcpy_memcpy, Nat.add_comm diskSectorSize, ← Nat.succ_mul]
      simp only [same]

theorem ext2BlockToDiskSector_eq (b : Nat) : fs.ext2BlockToDiskSector b =
    deviceStart + b * sectorsPerBlock fs.log2blockSize % 2 ^ 23 := by
  have product : b * sectorsPerBlock fs.log2blockSize = 2 * (b * 2 ^ fs.log2blockSize) := by
    rw [sectorsPerBlock, Nat.mul_left_comm]
  rw [ext2BlockToDiskSector, offsetToSector, product, diskSectorSize]
  omega

section Block

variable (blockSize : fs.blockSize = 1024 * 2 ^ fs.log2blockSize)
include blockSize

theorem sectorsPerBlock_eq : fs.blockSize / diskSectorSize = sectorsPerBlock fs.log2blockSize := by
  rw [blockSize, diskSectorSize, sectorsPerBlock]
  omega

theorem ext2ReadBlock_eq (out : Bytes) (offset b : Nat) :
    let start := deviceStart + b * sectorsPerBlock fs.log2blockSize % 2 ^ 23
    fs.ext2ReadBlock out offset b =
      if start + sectorsPerBlock fs.log2blockSize ≤ fssize then
        .ok (out.memcpy offset (fs.sectorsFrom start) fs.blockSize)
      else .error (.panic "incorrect blockno") := by
  have some_ : sectorsPerBlock fs.log2blockSize ≠ 0 :=
    Nat.mul_ne_zero (by decide) (Nat.two_pow_pos _).ne'
  have whole : sectorsPerBlock fs.log2blockSize * diskSectorSize = fs.blockSize := by
    rw [blockSize, sectorsPerBlock, diskSectorSize]
    omega
  intro start
  rw [ext2ReadBlock, ext2BlockToDiskSector_eq, sectorsPerBlock_eq blockSize, readSectors_eq, whole]
  simp only [some_, false_or]
  rfl

theorem Addressable.addressesBlock {b : Nat} (addressable : Addressable fs.log2blockSize b) :
    fs.AddressesBlock b := by
  have read := fun out offset => ext2ReadBlock_eq blockSize out offset b
  have succ : (b + 1) * sectorsPerBlock fs.log2blockSize =
      b * sectorsPerBlock fs.log2blockSize + sectorsPerBlock fs.log2blockSize := Nat.succ_mul b _
  rw [Addressable] at addressable
  rw [AddressesBlock, DeliversBlock]
  dsimp only at addressable read
  rw [succ] at addressable ⊢
  rw [deviceStart, fssize] at *
  generalize b * sectorsPerBlock fs.log2blockSize = first at addressable read ⊢
  split at addressable
  next inside =>
    have near : first % 2 ^ 23 = first := by omega
    rw [near] at read
    refine .inl fun out offset => (read out offset).trans (if_pos ?_)
    omega
  next outside =>
    refine .inr ⟨by omega, fun out offset => (read out offset).trans (if_neg ?_)⟩
    omega

end Block

def markedDisk (log2blockSize sector : Nat) : Ext2Driver where
  disk := fun s _ => if s = sector then 1 else 0
  log2blockSize := log2blockSize
  blockSize := 1024 * 2 ^ log2blockSize
  inodesPerGroup := 8
  inodeSize := 128
  extendedFieldsAvailable := false
  bgdt := []
  rootInode := .ofBytes (fun _ => 0) 0

theorem markedDisk_first (log2blockSize marked sector : Nat) :
    (markedDisk log2blockSize marked).sectorsFrom sector 0 = if sector = marked then 1 else 0 := rfl

theorem AddressesBlock.addressable {log2blockSize b : Nat}
    (right : (markedDisk log2blockSize
      (deviceStart + b * sectorsPerBlock log2blockSize % 2 ^ 23)).AddressesBlock b) :
    Addressable log2blockSize b := by
  have first := markedDisk_first log2blockSize
    (deviceStart + b * sectorsPerBlock log2blockSize % 2 ^ 23)
  generalize disk : markedDisk log2blockSize
    (deviceStart + b * sectorsPerBlock log2blockSize % 2 ^ 23) = fs at right first
  have log : fs.log2blockSize = log2blockSize := by
    rw [← disk]
    rfl
  have size : fs.blockSize = 1024 * 2 ^ log2blockSize := by
    rw [← disk]
    rfl
  subst log
  have positive : 0 < fs.blockSize := by
    rw [size]
    exact Nat.mul_pos (by decide) (Nat.two_pow_pos _)
  have read := ext2ReadBlock_eq size (fun _ => 0) 0 b
  dsimp only at read
  have succ : (b + 1) * sectorsPerBlock fs.log2blockSize =
      b * sectorsPerBlock fs.log2blockSize + sectorsPerBlock fs.log2blockSize := Nat.succ_mul b _
  rw [Addressable]
  rw [AddressesBlock] at right
  rw [succ] at right ⊢
  -- What is delivered was read where the number leads.
  have delivered : fs.DeliversBlock b →
      deviceStart + b * sectorsPerBlock fs.log2blockSize % 2 ^ 23 +
          sectorsPerBlock fs.log2blockSize ≤ fssize ∧
        b * sectorsPerBlock fs.log2blockSize % 2 ^ 23 =
          b * sectorsPerBlock fs.log2blockSize := by
    intro delivers
    rw [delivers (fun _ => 0) 0] at read
    split at read
    next fits =>
      refine ⟨fits, ?_⟩
      have sameByte := congrFun (Except.ok.inj read) 0
      rw [Bytes.memcpy_inside (Nat.le_refl 0) (by omega),
        Bytes.memcpy_inside (Nat.le_refl 0) (by omega), first, first, if_pos rfl] at sameByte
      by_contra different
      rw [if_neg (fun same => different (Nat.add_left_cancel same).symm)] at sameByte
      exact absurd sameByte (by decide)
    next => cases read
  rcases right with delivers | ⟨behind, refused⟩
  · obtain ⟨fits, near⟩ := delivered delivers
    rw [near] at fits
    split
    next => rwa [Nat.add_assoc] at fits
    next => exact .inl (by omega)
  · rw [if_neg (Nat.not_le_of_lt behind)]
    right
    rw [refused (fun _ => 0) 0] at read
    by_contra fits
    rw [if_pos (Nat.le_of_not_lt fits)] at read
    cases read

/-- On every disk a block is addressed right exactly if it is addressable. -/
theorem addressesBlock_iff (log2blockSize b : Nat) :
    (∀ fs : Ext2Driver, fs.log2blockSize = log2blockSize → fs.blockSize = 1024 * 2 ^ log2blockSize →
      fs.AddressesBlock b) ↔ Addressable log2blockSize b := by
  constructor
  · intro all
    have right := all (markedDisk log2blockSize
      (deviceStart + b * sectorsPerBlock log2blockSize % 2 ^ 23)) rfl rfl
    exact right.addressable
  · intro addressable fs log blockSize
    subst log
    exact Addressable.addressesBlock blockSize addressable

/-- A block in the last megabyte of a file system of `FSSIZE` sectors is refused. -/
theorem lastMegabyte_refused : ¬∀ log2blockSize b : Nat, b < 2 ^ 32 → ∀ fs : Ext2Driver,
    fs.log2blockSize = log2blockSize → fs.blockSize = 1024 * 2 ^ log2blockSize →
      fs.AddressesBlock b := by
  intro all
  have addressable : Addressable 0 63500 :=
    (all 0 63500 (by decide) (markedDisk 0 _) rfl rfl).addressable
  exact absurd addressable (by decide)

end SwagOS.Fs.Ext2Driver
