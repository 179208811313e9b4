import SwagOS.Fs.Ext2.Addressing

/-!
# Mounting

`ext2_driver_init`, up to the reading of the root inode; the lookups for tests behind it are left
out.  Memory comes from `kalloc`, which succeeds.  Shifts are by fewer than 32 bits.
-/

namespace SwagOS.Fs

open SwagOS.Lib SwagOS.Drivers

def ext2Signature : Nat := 0xEF53

def superblockSector : Nat := deviceStart + 2

/-- `ext2_superblock`, with the fields that are used. -/
structure Ext2Superblock where
  totalInodes : Nat
  totalBlocks : Nat
  log2blockSize : Nat
  blocksPerGroup : Nat
  inodesPerGroup : Nat
  ext2Magic : Nat
  major : Nat
  inodeSize : Nat

def Ext2Superblock.ofBytes (m : Bytes) : Ext2Superblock where
  totalInodes := m.u32 0
  totalBlocks := m.u32 4
  log2blockSize := m.u32 24
  blocksPerGroup := m.u32 32
  inodesPerGroup := m.u32 40
  ext2Magic := m.u16 56
  major := m.u32 76
  inodeSize := m.u16 88

/-- `ext2_block_group_desc` -/
structure Ext2BlockGroupDesc where
  blockBitmap : Nat
  inodeBitmap : Nat
  inodeTable : Nat
  freeBlocks : Nat
  freeInodes : Nat
  numDirs : Nat
  unused1 : Nat
  unused2 : Nat

/-- `sizeof(ext2_block_group_desc)` -/
def groupDescSize : Nat := 32

def Ext2BlockGroupDesc.ofBytes (m : Bytes) (p : Nat) : Ext2BlockGroupDesc where
  blockBitmap := m.u32 p
  inodeBitmap := m.u32 (p + 4)
  inodeTable := m.u32 (p + 8)
  freeBlocks := m.u32 (p + 12)
  freeInodes := m.u32 (p + 16)
  numDirs := m.u32 (p + 20)
  unused1 := m.u32 (p + 24)
  unused2 := m.u32 (p + 28)

theorem Ext2BlockGroupDesc.ofBytes_congr {m m' : Bytes} {p q : Nat}
    (same : ∀ i < groupDescSize, m (p + i) = m' (q + i)) : ofBytes m p = ofBytes m' q := by
  have field : ∀ o, o + 4 ≤ groupDescSize → m.u32 (p + o) = m'.u32 (q + o) := by
    intro o inside
    apply Bytes.u32_congr
    intro i below
    rw [Nat.add_assoc, Nat.add_assoc]
    exact same (o + i) (by omega)
  simp only [ofBytes, Ext2BlockGroupDesc.mk.injEq]
  exact ⟨field 0 (by decide), field 4 (by decide), field 8 (by decide), field 12 (by decide),
    field 16 (by decide), field 20 (by decide), field 24 (by decide), field 28 (by decide)⟩

def inodeTables (totalGroups : Nat) (bgdt : Bytes) : List Nat :=
  (List.range totalGroups).map fun g =>
    (Ext2BlockGroupDesc.ofBytes bgdt (groupDescSize * g)).inodeTable

/-- `DIV_CEIL` of numbers of a width; a division by zero traps. -/
def divCeil (bits x y : Nat) : Outcome Nat :=
  if y = 0 then throw (.panic "Divide by Zero Error") else pure ((x + y - 1) % 2 ^ bits / y)

theorem divCeil_ok {bits x y result : Nat} :
    divCeil bits x y = .ok result ↔ y ≠ 0 ∧ (x + y - 1) % 2 ^ bits / y = result := by
  rw [divCeil]
  split
  next zero =>
    constructor
    · intro done
      cases done
    · exact fun done => absurd zero done.1
  next nonzero => exact ⟨fun done => ⟨nonzero, Except.ok.inj done⟩, fun done => congrArg _ done.2⟩

/-- What the driver keeps of the groups, besides `EXT2_DRIVER`. -/
structure Ext2Groups where
  totalGroups : Nat
  /-- `bgdt_blockno` -/
  bgdtBlockno : Nat
  /-- `bgdt` -/
  bgdt : Bytes

namespace Ext2Driver

variable (fs : Ext2Driver)

def ext2DiskSectorToBlock (diskSector : Nat) : Nat :=
  diskSector / 2 ^ fs.log2blockSize / 2 ^ 10

def superblockBytes : Bytes := fs.sectorsFrom superblockSector

def setSuperblock (superblock : Ext2Superblock) : Ext2Driver :=
  { fs with
    log2blockSize := superblock.log2blockSize
    blockSize := 1024 * 2 ^ superblock.log2blockSize % 2 ^ 32
    inodesPerGroup := superblock.inodesPerGroup
    inodeSize := if superblock.major ≥ 1 then superblock.inodeSize else 128
    extendedFieldsAvailable := superblock.major > 1 }

/-- The loop that fills `bgdt`, over the blocks that are left. -/
def readGroups (bgdt : Bytes) (i : Nat) : Nat → Outcome Bytes
  | 0 => pure bgdt
  | left + 1 => do
      let block := (fs.ext2DiskSectorToBlock 2048 + 1 + i) % 2 ^ 32
      let bgdt ← fs.ext2ReadBlock bgdt (i * fs.blockSize) block
      readGroups bgdt (i + 1) left

/-- `ext2_driver_init` until `bgdt` is filled, with the memory that becomes `bgdt`. -/
def initGroups (bgdt : Bytes) : Outcome (Ext2Driver × Ext2Groups) := do
  let superblock := Ext2Superblock.ofBytes fs.superblockBytes
  if superblock.ext2Magic ≠ ext2Signature then
    throw (.panic "ext2_driver_init() --> could not find superblock!\n")
  else
    let fs := fs.setSuperblock superblock
    let totalGroups ← divCeil 32 superblock.totalBlocks superblock.blocksPerGroup
    let groupsOfInodes ← divCeil 32 superblock.totalInodes superblock.inodesPerGroup
    if totalGroups ≠ groupsOfInodes then
      throw (.panic "ext2_driver_init() --> got different group numbers!")
    else
      let bgdtBlockno ← divCeil 64 (totalGroups * groupDescSize) fs.blockSize
      let bgdt ← fs.readGroups bgdt 0 bgdtBlockno
      pure ({ fs with bgdt := inodeTables totalGroups bgdt }, ⟨totalGroups, bgdtBlockno, bgdt⟩)

def ext2DriverInit (mem : Ext2Memory) (bgdt : Bytes) : Outcome (Ext2Driver × Ext2Groups) := do
  let (fs, groups) ← fs.initGroups bgdt
  let rootInode ← fs.ext2ReadInode mem 2
  if rootInode.type ≠ inodeTypeDirectory then
    throw (.panic "ext2_driver_init() --> Root inode is not a directory")
  else pure ({ fs with rootInode }, groups)

def ext2GetBgd (descriptorIndex : Nat) : Outcome Ext2BlockGroupDesc :=
  let descTableBlock := fs.ext2DiskSectorToBlock superblockSector + 1
  let offset := descriptorIndex * groupDescSize
  let startDiskSector :=
    (fs.ext2BlockToDiskSector descTableBlock + offset / diskSectorSize) % 2 ^ 32
  if startDiskSector ≥ fssize then throw (.panic "incorrect blockno")
  else pure (.ofBytes (fs.sectorData startDiskSector) (offset % diskSectorSize))

theorem ext2DriverInit_groups {mem : Ext2Memory} {bgdt : Bytes} {fs' : Ext2Driver}
    {groups : Ext2Groups} (done : fs.ext2DriverInit mem bgdt = .ok (fs', groups)) :
    ∃ rootInode, fs.initGroups bgdt = .ok ({ fs' with rootInode }, groups) := by
  rw [ext2DriverInit] at done
  obtain ⟨⟨initialized, groups'⟩, first, done⟩ := Outcome.bind_ok.mp done
  obtain ⟨rootInode, -, done⟩ := Outcome.bind_ok.mp done
  split at done
  next => cases done
  next =>
    obtain ⟨rfl, rfl⟩ := Prod.mk.inj (Except.ok.inj done)
    exact ⟨initialized.rootInode, first⟩

end Ext2Driver

end SwagOS.Fs
