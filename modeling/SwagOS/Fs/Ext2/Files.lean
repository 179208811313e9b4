import Mathlib.Algebra.GroupWithZero.Nat
import SwagOS.Fs.Ext2

/-!
# Reading files

`ext2_read_file` and the functions around it.  Every buffer is memory of its own, so that
writing behind its end does no harm.
-/

namespace SwagOS.Fs.Ext2Driver

open SwagOS.Lib SwagOS.Libc

variable (fs : Ext2Driver) (mem : Ext2Memory)

/-- `ext2_get_file_size`, with the shift by 32 of a 32-bit number. -/
def ext2GetFileSize (inode : Ext2Inode) : Nat :=
  if inode.type ≠ inodeTypeFile then 0x1000
  else (if fs.extendedFieldsAvailable then inode.sizeHigh * 2 ^ 32 % 2 ^ 32 else 0) ||| inode.size

/-- `ext2_find_file_inode` with a fresh inode on the stack for its result. -/
def findFileInode (fuel : Nat) (path : List UInt8) : Outcome (Option Ext2Inode) := do
  let (ret, inode) ← fs.ext2FindFileInode mem fuel path (.ofBytes mem.stack 0)
  pure (if ret = 2 ^ 32 - 1 then none else some inode)

def ext2FileExists (fuel : Nat) (filepath : List UInt8) : Outcome Bool := do
  match ← fs.findFileInode mem fuel filepath with
  | none => pure false
  | some inode => pure (inode.type = inodeTypeFile)

def ext2DirExists (fuel : Nat) (filepath : List UInt8) : Outcome Bool := do
  if strcmp [47] filepath = 0 then pure true
  else
    match ← fs.findFileInode mem fuel filepath with
    | none => pure false
    | some inode => pure (inode.type = inodeTypeDirectory)

/-- The inode that `ext2_find_file_inode` leaves, also when it fails. -/
def inodeOf (fuel : Nat) (path : List UInt8) : Outcome Ext2Inode := do
  let (_, inode) ← fs.ext2FindFileInode mem fuel path (.ofBytes mem.stack 0)
  pure inode

def pathToFileSize (fuel : Nat) (filepath : List UInt8) : Outcome Nat := do
  if ← fs.ext2FileExists mem fuel filepath then
    let inode ← fs.inodeOf mem fuel filepath
    pure (fs.ext2GetFileSize inode)
  else if ← fs.ext2DirExists mem fuel filepath then pure (0x1000 * 12)
  else pure (2 ^ 64 - 1)

/-- The loop over the direct blocks that are left: the buffer and the offset behind the last
block.  A zero block ends it, and with `none` the function that it is in. -/
def readDirect (inode : Ext2Inode) (out : Bytes) (offset i : Nat) :
    Nat → Outcome (Bytes × Option Nat)
  | 0 => pure (out, some offset)
  | left + 1 =>
      let block := inode.blocks i
      if block = 0 then pure (out, none)
      else do
        let out ← fs.ext2ReadBlock out offset block
        readDirect inode out (offset + fs.blockSize) (i + 1) left

/-- `block_size / sizeof(uint32_t)` -/
def maxBlocks : Nat := fs.blockSize / 4

/-- `while(blocks[x])` -/
def countBlocks (blocks : Bytes) : Nat → Nat → Outcome Nat
  | 0, _ => throw .hang
  | fuel + 1, x => if blocks.u32 (4 * x) = 0 then pure x else countBlocks blocks fuel (x + 1)

def readPointers (blocks out : Bytes) (i : Nat) : Nat → Outcome Bytes
  | 0 => pure out
  | left + 1 =>
      if blocks.u32 (4 * i) = 0 then
        throw (.panic "ext2_read_single_indirect() --> blocks[i] was null. Misalignment. \n")
      else do
        let out ← fs.ext2ReadBlock out (i * fs.blockSize % 2 ^ 32) (blocks.u32 (4 * i))
        readPointers blocks out (i + 1) left

/-- `ext2_read_single_indirect`, with its buffer and `*size`, for the call of a number. -/
def ext2ReadSingleIndirect (fuel call blockno : Nat) : Outcome (Bytes × Nat) := do
  let blocks ← fs.ext2ReadBlock (mem.pointers call) 0 blockno
  let totalBlocks ← countBlocks blocks fuel 0
  if totalBlocks > fs.maxBlocks then
    throw (.panic "ext2_read_single_indirect() --> total_blocks > max_blocks!\n")
  else
    let retBuf ← fs.readPointers blocks (mem.contents call) 0 fs.maxBlocks
    pure (retBuf, totalBlocks * fs.blockSize % 2 ^ 32)

/-- The loop over the indirect blocks: the buffers and sizes that it collects. -/
def readSingleIndirects (fuel : Nat) (blocks : Bytes) (i : Nat) :
    Nat → Outcome (List (Bytes × Nat))
  | 0 => pure []
  | left + 1 =>
      if blocks.u32 (4 * i) = 0 then
        throw (.panic "ext2_read_double_indirect() --> blocks[i] was null. Misalignment. \n")
      else do
        let first ← fs.ext2ReadSingleIndirect mem fuel (i + 2) (blocks.u32 (4 * i))
        let rest ← readSingleIndirects fuel blocks (i + 1) left
        pure (first :: rest)

/-- `ext2_read_double_indirect`.  All buffers are copied to offset 0. -/
def ext2ReadDoubleIndirect (fuel blockno : Nat) : Outcome (Bytes × Nat) := do
  let blocks ← fs.ext2ReadBlock (mem.pointers 1) 0 blockno
  let totalBlocks ← countBlocks blocks fuel 0
  if totalBlocks > fs.maxBlocks then
    throw (.panic "ext2_read_double_indirect() --> total_blocks > max_blocks!\n")
  else
    let buffers ← fs.readSingleIndirects mem fuel blocks 0 totalBlocks
    let outBuf := buffers.foldl (fun out (buf, size) => out.memcpy 0 buf size) (mem.contents 1)
    pure (outBuf, (buffers.map Prod.snd).sum % 2 ^ 32)

/-- `ext2_read_dir`, which returns the pointer behind the blocks that it has read. -/
def ext2ReadDir (fuel : Nat) (dir : List UInt8) : Outcome (Option Bytes) := do
  if ← fs.ext2DirExists mem fuel dir then
    let inode ← fs.inodeOf mem fuel dir
    let (blockBuf, _) ← fs.readDirect inode mem.file 0 0 12
    let count := ((List.range 12).takeWhile fun i => inode.blocks i ≠ 0).length
    pure (some fun p => blockBuf (count * fs.blockSize + p))
  else pure none

def ext2ReadFile (fuel : Nat) (filepath : List UInt8) : Outcome (Option Bytes) := do
  match ← fs.findFileInode mem fuel filepath with
  | none => pure none
  | some inode =>
      if inode.type ≠ inodeTypeFile ∧ inode.type ≠ inodeTypeDirectory then
        fs.ext2ReadDir mem fuel filepath
      else
        match ← fs.readDirect inode mem.file 0 0 12 with
        | (retBuf, none) => pure (some retBuf)
        | (retBuf, some bufOffset) =>
            let (retBuf, bufOffset) ←
              if inode.blocks 12 = 0 then pure (retBuf, bufOffset)
              else do
                let (tmpBuf, size) ← fs.ext2ReadSingleIndirect mem fuel 0 (inode.blocks 12)
                pure (retBuf.memcpy bufOffset tmpBuf size, bufOffset + size)
            let retBuf ←
              if inode.blocks 13 = 0 then pure retBuf
              else do
                let (tmpBuf, size) ← fs.ext2ReadDoubleIndirect mem fuel (inode.blocks 13)
                pure (retBuf.memcpy bufOffset tmpBuf size)
            pure (some retBuf)

end SwagOS.Fs.Ext2Driver
