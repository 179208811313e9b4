import SwagOS.Drivers.Ide
import SwagOS.Libc.Strings

/-!
# The ext2 file system

`fs/ext2.c`: path resolution and the reading of files.  A sector is what `bread` returns
for it, and `kalloc` succeeds; the memory that the code reads without having written it,
such as what lies behind a buffer, is a parameter.  Printing is left out.
-/

namespace SwagOS.Fs

open SwagOS.Lib SwagOS.Libc SwagOS.Drivers

def deviceStart : Nat := 2048

def diskSectorSize : Nat := 512

def offsetToSector (offset : Nat) : Nat := deviceStart + offset / diskSectorSize

def inodeTypeDirectory : Nat := 0x4000

def inodeTypeFile : Nat := 0x8000

/-- `ext2_inode_t`, with the fields that are used. -/
structure Ext2Inode where
  mode : Nat
  size : Nat
  /-- 15 block numbers, 12 of them direct. -/
  blocks : Nat → Nat
  sizeHigh : Nat

namespace Ext2Inode

def ofBytes (m : Bytes) (p : Nat) : Ext2Inode where
  mode := m.u16 p
  size := m.u32 (p + 4)
  blocks := fun i => if i < 15 then m.u32 (p + 40 + 4 * i) else 0
  sizeHigh := m.u32 (p + 108)

/-- `mode & 0xF000` -/
def type (inode : Ext2Inode) : Nat := inode.mode / 0x1000 % 0x10 * 0x1000

end Ext2Inode

/-- `EXT2_DRIVER` with the disk below it. -/
structure Ext2Driver where
  disk : Nat → BlockData
  /-- `superblock->log2block_size` -/
  log2blockSize : Nat
  blockSize : Nat
  inodesPerGroup : Nat
  inodeSize : Nat
  extendedFieldsAvailable : Bool
  /-- `inode_table` of each descriptor of `bgdt`. -/
  bgdt : List Nat
  rootInode : Ext2Inode

/-- What the memory happens to hold where the code reads without having written. -/
structure Ext2Memory where
  /-- Behind `bgdt`, read as descriptors. -/
  bgdt : Nat → Nat
  /-- Around the sector in `ext2_read_inode`. -/
  stack : Bytes
  /-- The block buffer for the directories, from its start on, before each block. -/
  directory : Nat → Bytes
  /-- The string behind the copy of the path. -/
  path : List UInt8
  isString : IsString path
  /-- The buffer for the file. -/
  file : Bytes
  /-- The buffers for block pointers and for the contents of indirect blocks. -/
  pointers : Nat → Bytes
  contents : Nat → Bytes

namespace Ext2Driver

variable (fs : Ext2Driver) (mem : Ext2Memory)

def ext2BlockToDiskSector (blockno : Nat) : Nat :=
  offsetToSector (blockno * 2 ^ fs.log2blockSize % 2 ^ 32 * 2 ^ 10 % 2 ^ 32)

/-- `inode - 1` -/
def inodeIndex (inode : Nat) : Nat := (inode + (2 ^ 32 - 1)) % 2 ^ 32

def ext2GetInodeBlockGroup (inode : Nat) : Nat := inodeIndex inode / fs.inodesPerGroup

def ext2GetInodeBlockGroupIndex (inode : Nat) : Nat := inodeIndex inode % fs.inodesPerGroup

/-- `ext2_driver.bgdt[group].inode_table` -/
def inodeTable (group : Nat) : Nat := fs.bgdt.getD group (mem.bgdt group)

def ext2GetInodeOffset (inode : Nat) : Nat :=
  let block := fs.inodeTable mem (fs.ext2GetInodeBlockGroup inode)
  (fs.blockSize * block + fs.ext2GetInodeBlockGroupIndex inode * fs.inodeSize) % 2 ^ 32

def sectorData (sector : Nat) : Bytes :=
  fun i => if below : i < bsize then fs.disk sector ⟨i, below⟩ else 0

/-- `read_disk_sector` of a whole sector to an offset of a buffer. -/
def readDiskSector (out : Bytes) (offset sector : Nat) : Outcome Bytes :=
  if sector ≥ fssize then throw (.panic "incorrect blockno")
  else pure (out.memcpy offset (fs.sectorData sector) diskSectorSize)

/-- The loop of `ext2_read_block` over the sectors that are left. -/
def readSectors (out : Bytes) (offset sector : Nat) : Nat → Outcome Bytes
  | 0 => pure out
  | left + 1 => do
      let out ← fs.readDiskSector out offset sector
      readSectors out (offset + diskSectorSize) (sector + 1) left

def ext2ReadBlock (out : Bytes) (offset block : Nat) : Outcome Bytes :=
  fs.readSectors out offset (fs.ext2BlockToDiskSector block) (fs.blockSize / diskSectorSize)

def ext2ReadInode (inodeNum : Nat) : Outcome Ext2Inode := do
  let index := fs.ext2GetInodeBlockGroupIndex inodeNum
  let rawOffset := fs.ext2GetInodeOffset mem inodeNum / 512 * 512
  let b2 ← fs.readDiskSector mem.stack 0 (offsetToSector rawOffset)
  pure (.ofBytes b2 (index * fs.inodeSize % 2 ^ 32 % 512))

def entryName (dir : Bytes) (p : Nat) : List UInt8 :=
  (dir.slice (p + 8) (dir (p + 6)).toNat).takeWhile (· != 0)

/-- `ext2_read_from_directory` from the record at an offset on.  Nothing but a record without
inode ends the loop. -/
def ext2ReadFromDirectory (filename : List UInt8) (dir : Bytes) : Nat → Nat → Outcome Nat
  | 0, _ => throw .hang
  | fuel + 1, p =>
      if dir.u32 p = 0 then pure 0
      else if strcmp filename (entryName dir p) = 0 then do
        let _ ← fs.ext2ReadInode mem (dir.u32 p)
        pure (dir.u32 p)
      else ext2ReadFromDirectory filename dir fuel (p + dir.u16 (p + 4))

/-- The loop of `ext2_read_from_root_directory` over the blocks that are left. -/
def readRootBlocks (fuel : Nat) (filename : List UInt8) : List Nat → Outcome Nat
  | [] => pure 0
  | i :: rest =>
      let block := fs.rootInode.blocks i
      if block = 0 then pure 0
      else do
        let buf ← fs.ext2ReadBlock (mem.directory i) 0 block
        let inodeNum ← fs.ext2ReadFromDirectory mem filename buf fuel 0
        if inodeNum ≠ 0 then pure inodeNum else readRootBlocks fuel filename rest

def ext2ReadFromRootDirectory (fuel : Nat) (filename : List UInt8) : Outcome Nat :=
  if fs.rootInode.type ≠ inodeTypeDirectory then
    throw (.panic "ext2_read_from_root_directory() --> EXT2_DRIVER.root_inode was corrupted.\n")
  else fs.readRootBlocks mem fuel filename (List.range 12)

/-- The loop `while(dir_depth--)`, with `none` for the `return UINT32_MAX` in it.  Every way
through the body of the loop over the blocks leaves that loop, so that it reads block 0
only. -/
def descend (fuel : Nat) (buffer : List UInt8) : Nat → Nat → Nat → Outcome (Option Nat)
  | 0, _, inodeNum => pure (some inodeNum)
  | dirDepth + 1, filename, inodeNum => do
      let inode ← fs.ext2ReadInode mem inodeNum
      let block := inode.blocks 0
      let next := filename + strlen buffer filename + 1
      if block = 0 then descend fuel buffer dirDepth next inodeNum
      else
        let buf ← fs.ext2ReadBlock (mem.directory (12 + dirDepth)) 0 block
        let tmpInodeNum ← fs.ext2ReadFromDirectory mem (cstring buffer filename) buf fuel 0
        if tmpInodeNum ≠ 0 then descend fuel buffer dirDepth next tmpInodeNum else pure none

/-- `ext2_find_file_inode`, with its result and `*inode_out`. -/
def ext2FindFileInode (fuel : Nat) (path : List UInt8) (inodeOut : Ext2Inode) :
    Outcome (Nat × Ext2Inode) :=
  if strcmp path [47] = 0 then pure (2, fs.rootInode)
  else do
    let (split, parts) := strsplit path 47
    -- The copy of the path with its terminator, and the string behind it.
    let buffer := split ++ 0 :: (mem.path ++ [0])
    let filename := 1
    let dirDepth := parts - 1
    let inodeNum ← fs.ext2ReadFromRootDirectory mem fuel (cstring buffer filename)
    let filename := filename + strlen buffer filename + 1
    if dirDepth ≤ 1 then
      if inodeNum = 0 then pure (2 ^ 32 - 1, inodeOut)
      else
        let inode ← fs.ext2ReadInode mem inodeNum
        pure (0, inode)
    else
      match ← fs.descend mem fuel buffer dirDepth filename inodeNum with
      | none => pure (2 ^ 32 - 1, inodeOut)
      | some inodeNum =>
          let inode ← fs.ext2ReadInode mem inodeNum
          pure (0, inode)

end Ext2Driver

end SwagOS.Fs
