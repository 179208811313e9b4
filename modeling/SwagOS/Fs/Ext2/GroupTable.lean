import SwagOS.Fs.Ext2.Init

/-!
# The table of the block groups

The table starts in the block behind the superblock, which is in block 1 if blocks have 1 KB and
in block 0 if they are larger.  The driver computes the block from the sector of the superblock,
counted from the beginning of the disk, as if the sector were an offset in bytes.
-/

namespace SwagOS.Fs

open SwagOS.Lib SwagOS.Drivers

namespace Ext2Superblock

variable (superblock : Ext2Superblock)

def firstDataBlock : Nat := if superblock.log2blockSize = 0 then 1 else 0

def groups : Nat :=
  (superblock.totalBlocks - superblock.firstDataBlock + superblock.blocksPerGroup - 1) /
    superblock.blocksPerGroup

def blockSize : Nat := 1024 * 2 ^ superblock.log2blockSize

def tableBlocks : Nat :=
  (superblock.groups * groupDescSize + superblock.blockSize - 1) / superblock.blockSize

/-- A superblock whose numbers agree; the block size has 32 bits. -/
structure Valid : Prop where
  magic : superblock.ext2Magic = ext2Signature
  size : superblock.blockSize < 2 ^ 32
  blocksInGroup : 0 < superblock.blocksPerGroup
  inodesInGroup : 0 < superblock.inodesPerGroup
  nonempty : superblock.firstDataBlock < superblock.totalBlocks
  inodes : superblock.totalInodes = superblock.groups * superblock.inodesPerGroup

/-- Blocks have 4 KB or more, the sums in the counts of groups do not overflow, and the disk
driver knows the sectors of the table. -/
structure TableFound : Prop where
  large : 2 ≤ superblock.log2blockSize
  blocks : superblock.totalBlocks + superblock.blocksPerGroup ≤ 2 ^ 32
  inodes : superblock.totalInodes + superblock.inodesPerGroup ≤ 2 ^ 32
  known : (1 + superblock.tableBlocks) * superblock.blockSize ≤ Ext2Driver.capacity

theorem blockSize_pos : 0 < superblock.blockSize :=
  Nat.mul_pos (by decide) (Nat.two_pow_pos _)

section Counts

variable {superblock} (valid : superblock.Valid)
include valid

theorem Valid.groups_pos : 0 < superblock.groups := by
  have nonempty := valid.nonempty
  have some_ := valid.blocksInGroup
  rw [groups]
  apply Nat.div_pos
  · omega
  · exact some_

theorem counted (large : 2 ≤ superblock.log2blockSize)
    (fits : superblock.totalBlocks + superblock.blocksPerGroup ≤ 2 ^ 32) :
    divCeil 32 superblock.totalBlocks superblock.blocksPerGroup = .ok superblock.groups := by
  have some_ := valid.blocksInGroup
  have first : superblock.firstDataBlock = 0 := if_neg (by omega)
  rw [divCeil_ok, groups, first, Nat.sub_zero, Nat.mod_eq_of_lt (by omega)]
  exact ⟨by omega, rfl⟩

theorem countedInodes (fits : superblock.totalInodes + superblock.inodesPerGroup ≤ 2 ^ 32) :
    divCeil 32 superblock.totalInodes superblock.inodesPerGroup = .ok superblock.groups := by
  have some_ := valid.inodesInGroup
  have whole : superblock.totalInodes + superblock.inodesPerGroup - 1 =
      superblock.inodesPerGroup - 1 + superblock.groups * superblock.inodesPerGroup := by
    rw [← valid.inodes]
    omega
  rw [divCeil_ok, Nat.mod_eq_of_lt (by omega), whole, Nat.add_mul_div_right _ _ some_,
    Nat.div_eq_of_lt (by omega), Nat.zero_add]
  exact ⟨by omega, rfl⟩

theorem countedBlocks (fits : superblock.totalBlocks + superblock.blocksPerGroup ≤ 2 ^ 32) :
    divCeil 64 (superblock.groups * groupDescSize) superblock.blockSize =
      .ok superblock.tableBlocks := by
  have size := valid.size
  have positive := superblock.blockSize_pos
  have few : superblock.groups < 2 ^ 32 := by
    have some_ := valid.blocksInGroup
    rw [groups]
    apply Nat.lt_of_le_of_lt (Nat.div_le_self _ _)
    omega
  rw [divCeil_ok, tableBlocks, groupDescSize, Nat.mod_eq_of_lt (by omega)]
  exact ⟨by omega, rfl⟩

omit valid in
theorem covers : superblock.groups * groupDescSize ≤ superblock.tableBlocks * superblock.blockSize := by
  have some_ := superblock.blockSize_pos
  have rounded := Nat.div_add_mod (superblock.groups * groupDescSize + superblock.blockSize - 1)
    superblock.blockSize
  have rest := Nat.mod_lt (superblock.groups * groupDescSize + superblock.blockSize - 1) some_
  rw [tableBlocks, Nat.mul_comm (_ / _)]
  omega

end Counts

end Ext2Superblock

namespace Ext2Driver

variable (fs : Ext2Driver)

def superblock : Ext2Superblock := .ofBytes fs.superblockBytes

def storedDesc (g : Nat) : Ext2BlockGroupDesc :=
  .ofBytes fs.byte ((fs.superblock.firstDataBlock + 1) * fs.superblock.blockSize + groupDescSize * g)

/-- `ext2_driver_init` fills `bgdt` with the stored descriptors, and `ext2_get_bgd` returns
them. -/
def FindsTable : Prop :=
  ∀ bgdt, ∃ fs' groups, fs.initGroups bgdt = .ok (fs', groups) ∧ ∀ g < fs.superblock.groups,
    Ext2BlockGroupDesc.ofBytes groups.bgdt (groupDescSize * g) = fs.storedDesc g ∧
      fs'.ext2GetBgd g = .ok (fs.storedDesc g)

def SameSuperblock (fs fs' : Ext2Driver) : Prop :=
  ∀ i < 1024, fs'.superblockBytes i = fs.superblockBytes i

section Bounds

theorem superblock_bounds : fs.superblock.totalBlocks < 2 ^ 32 ∧
    fs.superblock.totalInodes < 2 ^ 32 ∧ fs.superblock.blocksPerGroup < 2 ^ 32 ∧
    fs.superblock.inodesPerGroup < 2 ^ 32 :=
  ⟨Bytes.u32_lt _ _, Bytes.u32_lt _ _, Bytes.u32_lt _ _, Bytes.u32_lt _ _⟩

variable {fs} {fs' : Ext2Driver}

theorem SameSuperblock.superblock (same : SameSuperblock fs fs') : fs'.superblock = fs.superblock := by
  have field : ∀ p, p + 4 ≤ 1024 → fs'.superblockBytes.u32 p = fs.superblockBytes.u32 p := by
    intro p inside
    exact Bytes.u32_congr fun i below => same (p + i) (by omega)
  have half : ∀ p, p + 2 ≤ 1024 → fs'.superblockBytes.u16 p = fs.superblockBytes.u16 p := by
    intro p inside
    exact Bytes.u16_congr fun i below => same (p + i) (by omega)
  simp only [Ext2Driver.superblock, Ext2Superblock.ofBytes, Ext2Superblock.mk.injEq]
  exact ⟨field 0 (by decide), field 4 (by decide), field 24 (by decide), field 32 (by decide),
    field 40 (by decide), half 56 (by decide), field 76 (by decide), half 88 (by decide)⟩

end Bounds

variable {fs}

theorem sectorsFrom_byte (first : Nat) :
    fs.sectorsFrom (deviceStart + first) = fun i => fs.byte (first * diskSectorSize + i) := by
  funext i
  have sector : deviceStart + first + i / 512 = 2048 + (first * 512 + i) / 512 := by
    rw [deviceStart]
    omega
  have within : i % 512 = (first * 512 + i) % 512 := by omega
  rw [sectorsFrom, byte, offsetToSector_eq, diskSectorSize, sector, within]

section Loop

variable (blockSize : fs.blockSize = 1024 * 2 ^ fs.log2blockSize)
include blockSize

theorem ext2ReadBlock_near {b : Nat} (near : b * fs.blockSize < 2 ^ 32) (out : Bytes)
    (offset : Nat) : fs.ext2ReadBlock out offset b =
      if fs.OnDisk b then .ok (out.memcpy offset (fs.block b) fs.blockSize)
      else .error (.panic "incorrect blockno") := by
  have read := ext2ReadBlock_eq blockSize out offset b
  have sectors : fs.blockSize = sectorsPerBlock fs.log2blockSize * 512 := by
    rw [blockSize, sectorsPerBlock]
    omega
  have first : b * fs.blockSize = b * sectorsPerBlock fs.log2blockSize * 512 := by
    rw [sectors, Nat.mul_assoc]
  have start : b * sectorsPerBlock fs.log2blockSize % 2 ^ 23 =
      b * sectorsPerBlock fs.log2blockSize := by
    omega
  have contents : fs.sectorsFrom (deviceStart + b * sectorsPerBlock fs.log2blockSize) =
      fs.block b := by
    rw [sectorsFrom_byte, diskSectorSize, ← first]
    rfl
  have known : deviceStart + b * sectorsPerBlock fs.log2blockSize +
      sectorsPerBlock fs.log2blockSize ≤ fssize ↔ fs.OnDisk b := by
    rw [OnDisk, Nat.succ_mul, first, capacity_eq, fssize, deviceStart]
    omega
  dsimp only at read
  rw [start, contents] at read
  simp only [known] at read
  exact read

def tableBlock (fs : Ext2Driver) : Nat := fs.ext2DiskSectorToBlock 2048 + 1

theorem readGroups_eq (bgdt : Bytes) (i left : Nat)
    (near : (fs.tableBlock + i) * fs.blockSize < 2 ^ 32) :
    fs.readGroups bgdt i left =
      if left = 0 ∨ (fs.tableBlock + i + left) * fs.blockSize ≤ capacity then
        .ok (bgdt.memcpy (i * fs.blockSize)
          (fun j => fs.byte ((fs.tableBlock + i) * fs.blockSize + j)) (left * fs.blockSize))
      else .error (.panic "incorrect blockno") := by
  induction left generalizing bgdt i with
  | zero =>
    rw [readGroups, if_pos (.inl rfl), Nat.zero_mul, Bytes.memcpy_zero]
    rfl
  | succ left inductionHypothesis =>
    have positive : 0 < fs.blockSize := by
      rw [blockSize]
      exact Nat.mul_pos (by decide) (Nat.two_pow_pos _)
    have number : (fs.tableBlock + i) % 2 ^ 32 = fs.tableBlock + i :=
      Nat.mod_eq_of_lt (Nat.lt_of_le_of_lt (Nat.le_mul_of_pos_right _ positive) near)
    have next : fs.tableBlock + (i + 1) = fs.tableBlock + i + 1 := rfl
    have last : fs.tableBlock + i + (left + 1) = fs.tableBlock + i + 1 + left := by omega
    rw [readGroups, ← tableBlock, number, ext2ReadBlock_near blockSize near, last]
    by_cases onDisk : fs.OnDisk (fs.tableBlock + i)
    · have near' : (fs.tableBlock + (i + 1)) * fs.blockSize < 2 ^ 32 :=
        Nat.lt_of_le_of_lt onDisk (by decide)
      have same : left = 0 ∨ (fs.tableBlock + i + 1 + left) * fs.blockSize ≤ capacity ↔
          left + 1 = 0 ∨ (fs.tableBlock + i + 1 + left) * fs.blockSize ≤ capacity := by
        constructor
        · rintro (rfl | inside)
          · exact .inr onDisk
          · exact .inr inside
        · rintro (never | inside)
          · exact absurd never (Nat.succ_ne_zero left)
          · exact .inr inside
      have behind : (fun j => fs.byte ((fs.tableBlock + i + 1) * fs.blockSize + j)) =
          fun j => fs.block (fs.tableBlock + i) (fs.blockSize + j) := by
        funext j
        rw [block, Nat.succ_mul, Nat.add_assoc]
      rw [if_pos onDisk]
      refine (inductionHypothesis _ _ near').trans ?_
      rw [next, behind, Nat.succ_mul i, Bytes.memcpy_memcpy, Nat.add_comm fs.blockSize,
        ← Nat.succ_mul]
      simp only [same]
      rfl
    · have outside : ¬(left + 1 = 0 ∨ (fs.tableBlock + i + 1 + left) * fs.blockSize ≤ capacity) := by
        rintro (never | inside)
        · exact absurd never (Nat.succ_ne_zero left)
        · exact onDisk ((Nat.mul_le_mul_right _ (Nat.le_add_right _ left)).trans inside)
      rw [if_neg onDisk, if_neg outside]
      rfl

end Loop

def mounted (fs : Ext2Driver) : Ext2Driver := fs.setSuperblock fs.superblock

theorem initGroups_ok {bgdt : Bytes} {result : Ext2Driver × Ext2Groups}
    (done : fs.initGroups bgdt = .ok result) :
    ∃ blocks, divCeil 32 fs.superblock.totalBlocks fs.superblock.blocksPerGroup =
        .ok result.2.totalGroups ∧
      divCeil 32 fs.superblock.totalInodes fs.superblock.inodesPerGroup =
        .ok result.2.totalGroups ∧
      divCeil 64 (result.2.totalGroups * groupDescSize) fs.mounted.blockSize = .ok blocks ∧
      fs.mounted.readGroups bgdt 0 blocks = .ok result.2.bgdt := by
  rw [initGroups] at done
  split at done
  next => cases done
  next =>
    obtain ⟨totalGroups, counted, done⟩ := Outcome.bind_ok.mp done
    obtain ⟨groupsOfInodes, countedInodes, done⟩ := Outcome.bind_ok.mp done
    split at done
    next => cases done
    next same =>
      obtain ⟨blocks, countedBlocks, done⟩ := Outcome.bind_ok.mp done
      obtain ⟨table, read, done⟩ := Outcome.bind_ok.mp done
      obtain rfl := Except.ok.inj done
      obtain rfl := not_not.mp same
      exact ⟨blocks, counted, countedInodes, countedBlocks, read⟩

section Valid

variable (valid : fs.superblock.Valid)

include valid in
theorem mounted_blockSize : fs.mounted.blockSize = fs.superblock.blockSize :=
  Nat.mod_eq_of_lt valid.size

section Large

variable (large : 2 ≤ fs.superblock.log2blockSize)
include large

theorem diskSectorToBlock_large {sector : Nat} (low : sector < 4096) :
    fs.mounted.ext2DiskSectorToBlock sector = 0 := by
  have large : 2 ^ 2 ≤ 2 ^ fs.superblock.log2blockSize := Nat.pow_le_pow_right (by decide) large
  have few : sector / 2 ^ fs.superblock.log2blockSize ≤ sector / 2 ^ 2 :=
    Nat.div_le_div_left large (by decide)
  apply Nat.div_eq_of_lt
  show sector / 2 ^ fs.superblock.log2blockSize < 2 ^ 10
  omega

theorem firstDataBlock_large : fs.superblock.firstDataBlock = 0 := by
  apply if_neg
  omega

include valid

theorem readGroups_large (bgdt : Bytes) (blocks : Nat) :
    fs.mounted.readGroups bgdt 0 blocks =
      if blocks = 0 ∨ (1 + blocks) * fs.superblock.blockSize ≤ capacity then
        .ok (bgdt.memcpy 0 (fun j => fs.byte (fs.superblock.blockSize + j))
          (blocks * fs.superblock.blockSize))
      else .error (.panic "incorrect blockno") := by
  have size := mounted_blockSize valid
  have first : fs.mounted.tableBlock = 1 := by
    rw [tableBlock, diskSectorToBlock_large large (by decide)]
  have near : (fs.mounted.tableBlock + 0) * fs.mounted.blockSize < 2 ^ 32 := by
    rw [first, size, Nat.add_zero, Nat.one_mul]
    exact valid.size
  have read := readGroups_eq size bgdt 0 blocks near
  rw [first, size, Nat.zero_mul, Nat.add_zero, Nat.one_mul] at read
  exact read

end Large

section Found

variable (found : fs.superblock.TableFound)
include found valid

theorem initGroups_found (bgdt : Bytes) :
    let table := bgdt.memcpy 0 (fun j => fs.byte (fs.superblock.blockSize + j))
      (fs.superblock.tableBlocks * fs.superblock.blockSize)
    fs.initGroups bgdt =
      .ok ({ fs.mounted with bgdt := inodeTables fs.superblock.groups table },
        ⟨fs.superblock.groups, fs.superblock.tableBlocks, table⟩) := by
  intro table
  have read := readGroups_large valid found.large bgdt fs.superblock.tableBlocks
  rw [if_pos (.inr found.known)] at read
  have counted := Ext2Superblock.counted valid found.large found.blocks
  have countedInodes := Ext2Superblock.countedInodes valid found.inodes
  have countedBlocks := Ext2Superblock.countedBlocks valid found.blocks
  rw [← mounted_blockSize valid] at countedBlocks
  rw [initGroups, ← superblock, if_neg (not_not.mpr valid.magic)]
  refine Outcome.bind_ok.mpr ⟨_, counted, Outcome.bind_ok.mpr ⟨_, countedInodes, ?_⟩⟩
  rw [if_neg (not_not.mpr rfl)]
  exact Outcome.bind_ok.mpr ⟨_, countedBlocks, Outcome.bind_ok.mpr ⟨_, read, rfl⟩⟩

theorem ext2GetBgd_found {g : Nat} (group : g < fs.superblock.groups) :
    fs.mounted.ext2GetBgd g = .ok (fs.storedDesc g) := by
  have size := mounted_blockSize valid
  have sectors : fs.superblock.blockSize = sectorsPerBlock fs.superblock.log2blockSize * 512 := by
    rw [Ext2Superblock.blockSize, sectorsPerBlock]
    omega
  have small := valid.size
  have start : fs.mounted.ext2BlockToDiskSector 1 =
      deviceStart + sectorsPerBlock fs.superblock.log2blockSize := by
    rw [ext2BlockToDiskSector_eq, Nat.one_mul, Nat.mod_eq_of_lt]
    · rfl
    · show sectorsPerBlock fs.superblock.log2blockSize < 2 ^ 23
      omega
  have inside : fs.superblock.blockSize + g * 32 + 32 ≤ capacity := by
    have covers := fs.superblock.covers
    have known := found.known
    rw [groupDescSize] at covers
    rw [Nat.add_mul, Nat.one_mul] at known
    omega
  rw [sectors, capacity_eq] at inside
  have sector : (deviceStart + sectorsPerBlock fs.superblock.log2blockSize + g * 32 / 512) % 2 ^ 32 =
      offsetToSector (fs.superblock.blockSize + 32 * g) := by
    rw [offsetToSector_eq, sectors, deviceStart]
    omega
  have known : ¬offsetToSector (fs.superblock.blockSize + 32 * g) ≥ fssize := by
    rw [offsetToSector_eq, sectors, fssize]
    omega
  rw [ext2GetBgd, diskSectorToBlock_large found.large (by decide), Nat.zero_add, start, groupDescSize,
    diskSectorSize, storedDesc, firstDataBlock_large found.large, Nat.zero_add, Nat.one_mul,
    groupDescSize]
  rw [sector, if_neg known]
  refine congrArg Except.ok (Ext2BlockGroupDesc.ofBytes_congr fun i below => ?_)
  rw [groupDescSize] at below
  -- A descriptor does not go on in the next sector.
  have same : offsetToSector (fs.superblock.blockSize + 32 * g) =
      offsetToSector (fs.superblock.blockSize + 32 * g + i) := by
    rw [offsetToSector_eq, offsetToSector_eq, sectors]
    omega
  have within : g * 32 % 512 + i = (fs.superblock.blockSize + 32 * g + i) % 512 := by
    rw [sectors]
    omega
  rw [byte, diskSectorSize, ← same, ← within]
  rfl

theorem TableFound.findsTable : fs.FindsTable := by
  intro bgdt
  refine ⟨_, _, initGroups_found valid found bgdt, ?_⟩
  intro g group
  refine ⟨?_, ext2GetBgd_found valid found group⟩
  have covers := fs.superblock.covers
  apply Ext2BlockGroupDesc.ofBytes_congr
  intro i below
  rw [groupDescSize] at *
  dsimp only
  rw [Bytes.memcpy_inside (Nat.zero_le _) (by omega), Nat.sub_zero, firstDataBlock_large found.large,
    Nat.zero_add, Nat.one_mul, Nat.add_assoc]

end Found

include valid in
/-- The table that the first descriptor is read from. -/
theorem FindsTable.filled (finds : fs.FindsTable) (bgdt : Bytes) : ∃ G blocks out,
    divCeil 32 fs.superblock.totalBlocks fs.superblock.blocksPerGroup = .ok G ∧
    divCeil 32 fs.superblock.totalInodes fs.superblock.inodesPerGroup = .ok G ∧
    divCeil 64 (G * groupDescSize) fs.mounted.blockSize = .ok blocks ∧
    fs.mounted.readGroups bgdt 0 blocks = .ok out ∧
    Ext2BlockGroupDesc.ofBytes out 0 = fs.storedDesc 0 := by
  obtain ⟨fs', groups, done, found⟩ := finds bgdt
  obtain ⟨blocks, counted, countedInodes, countedBlocks, read⟩ := initGroups_ok done
  exact ⟨_, _, _, counted, countedInodes, countedBlocks, read, (found 0 valid.groups_pos).1⟩

include valid in
/-- A table is read, as memory that was not written to is not the table. -/
theorem FindsTable.counted (finds : fs.FindsTable) : ∃ G blocks, blocks ≠ 0 ∧
    divCeil 32 fs.superblock.totalBlocks fs.superblock.blocksPerGroup = .ok G ∧
    divCeil 32 fs.superblock.totalInodes fs.superblock.inodesPerGroup = .ok G ∧
    divCeil 64 (G * groupDescSize) fs.mounted.blockSize = .ok blocks ∧
    ∀ bgdt, ∃ out, fs.mounted.readGroups bgdt 0 blocks = .ok out ∧
      Ext2BlockGroupDesc.ofBytes out 0 = fs.storedDesc 0 := by
  obtain ⟨G, blocks, zeros, counted, countedInodes, countedBlocks, read, first⟩ :=
    finds.filled valid fun _ => 0
  have always : ∀ bgdt, ∃ out, fs.mounted.readGroups bgdt 0 blocks = .ok out ∧
      Ext2BlockGroupDesc.ofBytes out 0 = fs.storedDesc 0 := by
    intro bgdt
    obtain ⟨G', blocks', out, counted', -, countedBlocks', read', first'⟩ := finds.filled valid bgdt
    rw [counted] at counted'
    obtain rfl := Except.ok.inj counted'
    rw [countedBlocks] at countedBlocks'
    obtain rfl := Except.ok.inj countedBlocks'
    exact ⟨out, read', first'⟩
  refine ⟨G, blocks, ?_, counted, countedInodes, countedBlocks, always⟩
  rintro rfl
  obtain ⟨ones, read', first'⟩ := always fun _ => 255
  obtain rfl := Except.ok.inj read
  obtain rfl := Except.ok.inj read'
  have bitmap := congrArg Ext2BlockGroupDesc.blockBitmap (first.trans first'.symm)
  exact absurd bitmap (by decide)

end Valid

def withContents (fs : Ext2Driver) (contents : Bytes) : Ext2Driver :=
  { fs with disk := fun sector i => contents ((sector - deviceStart) * diskSectorSize + i) }

theorem byte_withContents (contents : Bytes) (offset : Nat) :
    (fs.withContents contents).byte offset = contents offset := by
  have below : offset % diskSectorSize < bsize := Nat.mod_lt _ (by decide)
  rw [byte, sectorData, dif_pos below]
  dsimp only [withContents]
  rw [offsetToSector, Nat.add_sub_cancel_left, Nat.div_add_mod']

def misplaced (fs : Ext2Driver) : Ext2Driver :=
  fs.withContents fun offset =>
    if 1024 ≤ offset ∧ offset < 2048 then fs.superblockBytes (offset - 1024)
    else if offset < 3072 then 0 else 255

theorem misplaced_superblock : SameSuperblock fs fs.misplaced := by
  intro i inside
  have start : superblockSector = deviceStart + 2 := rfl
  have index : 2 * diskSectorSize + i = 1024 + i := rfl
  rw [superblockBytes, start, sectorsFrom_byte, misplaced]
  dsimp only
  rw [byte_withContents, index, if_pos (by omega), Nat.add_sub_cancel_left]

theorem misplaced_notFound (valid : fs.superblock.Valid) (small : fs.superblock.log2blockSize < 2) :
    ¬fs.misplaced.FindsTable := by
  intro finds
  have same : fs.misplaced.superblock = fs.superblock := misplaced_superblock.superblock
  have valid : fs.misplaced.superblock.Valid := by
    rw [same]
    exact valid
  obtain ⟨G, blocks, some_, -, -, -, read⟩ := finds.counted valid
  obtain ⟨out, read, first⟩ := read fun _ => 255
  have log : fs.misplaced.mounted.log2blockSize = fs.superblock.log2blockSize := by
    rw [← same]
    rfl
  have size : fs.misplaced.mounted.blockSize = 1024 * 2 ^ fs.misplaced.mounted.log2blockSize :=
    mounted_blockSize valid
  have stored :
      (fs.misplaced.superblock.firstDataBlock + 1) * fs.misplaced.superblock.blockSize = 2048 ∧
      3072 ≤ fs.misplaced.mounted.tableBlock * fs.misplaced.mounted.blockSize ∧
      fs.misplaced.mounted.tableBlock * fs.misplaced.mounted.blockSize < 2 ^ 32 ∧
      4 ≤ fs.misplaced.mounted.blockSize := by
    rw [tableBlock, ext2DiskSectorToBlock, size, log, same, Ext2Superblock.firstDataBlock,
      Ext2Superblock.blockSize]
    have cases_ : fs.superblock.log2blockSize = 0 ∨ fs.superblock.log2blockSize = 1 := by omega
    rcases cases_ with zero | one
    · rw [zero]
      decide
    · rw [one]
      decide
  obtain ⟨place, far, near, positive⟩ := stored
  have contents : ∀ offset, 2048 ≤ offset →
      fs.misplaced.byte offset = if offset < 3072 then 0 else 255 := by
    intro offset behind
    rw [misplaced, byte_withContents, if_neg (by omega)]
  have mounted : fs.misplaced.mounted.byte = fs.misplaced.byte := rfl
  rw [readGroups_eq size _ 0 blocks near] at read
  split at read
  next =>
    obtain rfl := Except.ok.inj read
    have long : 4 ≤ blocks * fs.misplaced.mounted.blockSize :=
      positive.trans (Nat.le_mul_of_pos_left _ (Nat.pos_of_ne_zero some_))
    have bitmap := congrArg Ext2BlockGroupDesc.blockBitmap first
    rw [storedDesc, place] at bitmap
    have constant : ∀ (m : Bytes) p c, (∀ i < 4, m (p + i) = c) → m.u32 p = Bytes.u32 (fun _ => c) 0 :=
      fun _ _ _ same => Bytes.u32_congr same
    have zeros := constant fs.misplaced.byte 2048 0 fun i below => by
      rw [contents _ (by omega), if_pos (by omega)]
    have ones := constant (Bytes.memcpy (fun _ => 255) (0 * fs.misplaced.mounted.blockSize)
      (fun j => fs.misplaced.mounted.byte ((fs.misplaced.mounted.tableBlock + 0) *
        fs.misplaced.mounted.blockSize + j)) (blocks * fs.misplaced.mounted.blockSize)) 0 255
      fun i below => by
        rw [Bytes.memcpy_inside (by omega) (by omega), Nat.add_zero, mounted, contents _ (by omega),
          if_neg (by omega)]
    exact absurd (ones.symm.trans (bitmap.trans zeros)) (by decide)
  next => cases read

theorem divCeil_overflow {x y : Nat} (small : x < 2 ^ 32) (overflow : 2 ^ 32 < x + y)
    (width : y < 2 ^ 32) : divCeil 32 x y = .ok 0 := by
  rw [divCeil_ok]
  refine ⟨by omega, Nat.div_eq_of_lt ?_⟩
  omega

theorem FindsTable.tableFound (valid : fs.superblock.Valid) (large : 2 ≤ fs.superblock.log2blockSize)
    (finds : fs.FindsTable) : fs.superblock.TableFound := by
  obtain ⟨smallBlocks, smallInodes, perGroup, inodesPerGroup⟩ := fs.superblock_bounds
  obtain ⟨G, blocks, some_, counted, countedInodes, countedBlocks, read⟩ := finds.counted valid
  have size := mounted_blockSize valid
  have nonzero : G ≠ 0 := by
    rintro rfl
    obtain ⟨-, none_⟩ := divCeil_ok.mp countedBlocks
    have positive := fs.superblock.blockSize_pos
    rw [size, Nat.zero_mul, Nat.zero_add, Nat.mod_eq_of_lt, Nat.div_eq_of_lt] at none_
    · exact some_ none_.symm
    · omega
    · have small := valid.size
      omega
  have blocksFit : fs.superblock.totalBlocks + fs.superblock.blocksPerGroup ≤ 2 ^ 32 := by
    by_contra overflow
    rw [divCeil_overflow smallBlocks (by omega) perGroup] at counted
    exact nonzero (Except.ok.inj counted).symm
  have inodesFit : fs.superblock.totalInodes + fs.superblock.inodesPerGroup ≤ 2 ^ 32 := by
    by_contra overflow
    rw [divCeil_overflow smallInodes (by omega) inodesPerGroup] at countedInodes
    exact nonzero (Except.ok.inj countedInodes).symm
  refine ⟨large, blocksFit, inodesFit, ?_⟩
  rw [Ext2Superblock.counted valid large blocksFit] at counted
  obtain rfl := Except.ok.inj counted
  rw [size, Ext2Superblock.countedBlocks valid blocksFit] at countedBlocks
  obtain rfl := Except.ok.inj countedBlocks
  obtain ⟨out, done, -⟩ := read fun _ => 0
  rw [readGroups_large valid large] at done
  split at done
  next known => exact known.resolve_left some_
  next => cases done

/-- The table is found on every disk with the superblock exactly if blocks have 4 KB or more, the
counts do not overflow and the disk driver knows the sectors of the table. -/
theorem findsTable_iff (fs : Ext2Driver) (valid : fs.superblock.Valid) :
    (∀ fs', SameSuperblock fs fs' → fs'.FindsTable) ↔ fs.superblock.TableFound := by
  constructor
  · intro finds
    have large : 2 ≤ fs.superblock.log2blockSize := by
      by_contra small
      exact misplaced_notFound valid (by omega) (finds _ misplaced_superblock)
    exact (finds fs fun _ _ => rfl).tableFound valid large
  · intro found fs' same
    rw [← same.superblock] at valid found
    exact TableFound.findsTable valid found

def oneGroup (log2blockSize : UInt8) : Ext2Driver :=
  (smallDisk 0).withContents fun offset =>
    if offset = 1024 ∨ offset = 1028 ∨ offset = 1056 ∨ offset = 1064 then 8
    else if offset = 1048 then log2blockSize
    else if offset = 1080 then 0x53
    else if offset = 1081 then 0xEF
    else 0

theorem oneGroup_valid : (oneGroup 0).superblock.Valid := by
  constructor <;> decide +kernel

/-- A table of 200 groups takes two blocks of 4 KB. -/
def manyGroups : Ext2Driver :=
  (smallDisk 0).withContents fun offset =>
    if offset = 1024 ∨ offset = 1028 then 200
    else if offset = 1056 ∨ offset = 1064 then 1
    else if offset = 1048 then 2
    else if offset = 1080 then 0x53
    else if offset = 1081 then 0xEF
    else 0

theorem manyGroups_valid : manyGroups.superblock.Valid := by
  constructor <;> decide +kernel

theorem findsTable_iff_manyGroups :
    manyGroups.superblock.tableBlocks = 2 ∧ manyGroups.FindsTable := by
  refine ⟨by decide +kernel, (findsTable_iff manyGroups manyGroups_valid).mpr ?_ manyGroups ?_⟩
  · constructor <;> decide +kernel
  · exact fun _ _ => rfl

/-- With blocks of 1 KB the table of one group is not found. -/
theorem oneGroup_notFound : ¬∀ fs : Ext2Driver, fs.superblock.Valid → fs.FindsTable := by
  intro finds
  have valid := oneGroup_valid
  have same : (oneGroup 0).misplaced.superblock = (oneGroup 0).superblock :=
    misplaced_superblock.superblock
  have small : (oneGroup 0).superblock.log2blockSize < 2 := by decide +kernel
  exact misplaced_notFound valid small (finds _ (by rw [same]; exact valid))

end Ext2Driver

end SwagOS.Fs
