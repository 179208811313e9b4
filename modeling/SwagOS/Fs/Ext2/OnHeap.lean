import SwagOS.Fs.Ext2.Files
import SwagOS.Mem.KernelHeap.Supply

/-!
# Path resolution and reading on the kernel heap

The functions of `fs/ext2.c` with their calls of `kalloc` and `kfree`, and with the request that
`bread` takes from the heap for a sector.  Where the heap serves them they return what they
return without it.
-/

namespace SwagOS.Fs.Ext2Driver

open SwagOS.Lib SwagOS.Libc SwagOS.Mem

variable (fs : Ext2Driver) (mem : Ext2Memory)

def readDiskSectorOnHeap (out : Bytes) (offset sector : Nat) : OnHeap Bytes := do
  breadOnHeap id
  StateT.lift (fs.readDiskSector out offset sector)

def readSectorsOnHeap (out : Bytes) (offset sector : Nat) : Nat → OnHeap Bytes
  | 0 => pure out
  | left + 1 => do
      let out ← fs.readDiskSectorOnHeap out offset sector
      readSectorsOnHeap out (offset + diskSectorSize) (sector + 1) left

def ext2ReadBlockOnHeap (out : Bytes) (offset block : Nat) : OnHeap Bytes :=
  fs.readSectorsOnHeap out offset (fs.ext2BlockToDiskSector block) (fs.blockSize / diskSectorSize)

def ext2ReadInodeOnHeap (inodeNum : Nat) : OnHeap Ext2Inode := do
  breadOnHeap id
  StateT.lift (fs.ext2ReadInode mem inodeNum)

/-- The name is copied through the result of `kalloc` unchecked.  (Should there be memory at
address zero, the `kfree` of the name finds the lock that the failed `kalloc` has kept.) -/
def ext2ReadFromDirectoryOnHeap (filename : List UInt8) (dir : Bytes) : Nat → Nat → OnHeap Nat
  | 0, _ => StateT.lift (throw .hang)
  | fuel + 1, p =>
      if dir.u32 p = 0 then pure 0
      else do
        let name ← kallocOrPanic "Page Fault Interrupt" ((dir (p + 6)).toNat + 1)
        if strcmp filename (entryName dir p) = 0 then do
          let _ ← fs.ext2ReadInodeOnHeap mem (dir.u32 p)
          kfreeOnHeap id name
          pure (dir.u32 p)
        else do
          kfreeOnHeap id name
          ext2ReadFromDirectoryOnHeap filename dir fuel (p + dir.u16 (p + 4))

def readRootBlocksOnHeap (fuel : Nat) (filename : List UInt8) : List Nat → OnHeap Nat
  | [] => pure 0
  | i :: rest =>
      let block := fs.rootInode.blocks i
      if block = 0 then pure 0
      else do
        let buf ← fs.ext2ReadBlockOnHeap (mem.directory i) 0 block
        let inodeNum ← fs.ext2ReadFromDirectoryOnHeap mem filename buf fuel 0
        if inodeNum ≠ 0 then pure inodeNum else readRootBlocksOnHeap fuel filename rest

def ext2ReadFromRootDirectoryOnHeap (fuel : Nat) (filename : List UInt8) : OnHeap Nat :=
  if fs.rootInode.type ≠ inodeTypeDirectory then
    StateT.lift
      (throw (.panic "ext2_read_from_root_directory() --> EXT2_DRIVER.root_inode was corrupted.\n"))
  else do
    let _ ← kallocOrPanic "ext2_read_from_root_directory() --> kalloc() failure!.\n" fs.blockSize
    fs.readRootBlocksOnHeap mem fuel filename (List.range 12)

def descendOnHeap (fuel : Nat) (buffer : List UInt8) : Nat → Nat → Nat → OnHeap (Option Nat)
  | 0, _, inodeNum => pure (some inodeNum)
  | dirDepth + 1, filename, inodeNum => do
      let inode ← fs.ext2ReadInodeOnHeap mem inodeNum
      let block := inode.blocks 0
      let next := filename + strlen buffer filename + 1
      if block = 0 then descendOnHeap fuel buffer dirDepth next inodeNum
      else
        let buf ← fs.ext2ReadBlockOnHeap (mem.directory (12 + dirDepth)) 0 block
        let tmpInodeNum ← fs.ext2ReadFromDirectoryOnHeap mem (cstring buffer filename) buf fuel 0
        if tmpInodeNum ≠ 0 then descendOnHeap fuel buffer dirDepth next tmpInodeNum else pure none

def ext2FindFileInodeOnHeap (fuel : Nat) (path : List UInt8) (inodeOut : Ext2Inode) :
    OnHeap (Nat × Ext2Inode) :=
  if strcmp path [47] = 0 then pure (2, fs.rootInode)
  else do
    let og ← kallocOrPanic "ext2_find_file_inode() --> kalloc() failure!\n" (path.length + 1)
    let (split, parts) := strsplit path 47
    let buffer := split ++ 0 :: (mem.path ++ [0])
    let filename := 1
    let dirDepth := parts - 1
    let inodeNum ← fs.ext2ReadFromRootDirectoryOnHeap mem fuel (cstring buffer filename)
    let filename := filename + strlen buffer filename + 1
    if dirDepth ≤ 1 then
      if inodeNum = 0 then pure (2 ^ 32 - 1, inodeOut)
      else
        kfreeOnHeap id og
        let inode ← fs.ext2ReadInodeOnHeap mem inodeNum
        pure (0, inode)
    else
      let buf ← kallocOrPanic "ext2_find_file_inode() --> kalloc() failure.\n" fs.blockSize
      match ← fs.descendOnHeap mem fuel buffer dirDepth filename inodeNum with
      | none =>
          kfreeOnHeap id og
          pure (2 ^ 32 - 1, inodeOut)
      | some inodeNum =>
          let inode ← fs.ext2ReadInodeOnHeap mem inodeNum
          kfreeOnHeap id og
          kfreeOnHeap id buf
          pure (0, inode)

def findFileInodeOnHeap (fuel : Nat) (path : List UInt8) : OnHeap (Option Ext2Inode) := do
  let (ret, inode) ← fs.ext2FindFileInodeOnHeap mem fuel path (.ofBytes mem.stack 0)
  pure (if ret = 2 ^ 32 - 1 then none else some inode)

def ext2DirExistsOnHeap (fuel : Nat) (filepath : List UInt8) : OnHeap Bool :=
  if strcmp [47] filepath = 0 then pure true
  else do
    match ← fs.findFileInodeOnHeap mem fuel filepath with
    | none => pure false
    | some inode => pure (inode.type = inodeTypeDirectory)

def inodeOfOnHeap (fuel : Nat) (path : List UInt8) : OnHeap Ext2Inode := do
  let (_, inode) ← fs.ext2FindFileInodeOnHeap mem fuel path (.ofBytes mem.stack 0)
  pure inode

def readDirectOnHeap (inode : Ext2Inode) (out : Bytes) (offset i : Nat) :
    Nat → OnHeap (Bytes × Option Nat)
  | 0 => pure (out, some offset)
  | left + 1 =>
      let block := inode.blocks i
      if block = 0 then pure (out, none)
      else do
        let out ← fs.ext2ReadBlockOnHeap out offset block
        readDirectOnHeap inode out (offset + fs.blockSize) (i + 1) left

def readPointersOnHeap (blocks out : Bytes) (i : Nat) : Nat → OnHeap Bytes
  | 0 => pure out
  | left + 1 =>
      if blocks.u32 (4 * i) = 0 then
        StateT.lift
          (throw (.panic "ext2_read_single_indirect() --> blocks[i] was null. Misalignment. \n"))
      else do
        let out ← fs.ext2ReadBlockOnHeap out (i * fs.blockSize % 2 ^ 32) (blocks.u32 (4 * i))
        readPointersOnHeap blocks out (i + 1) left

def ext2ReadSingleIndirectOnHeap (fuel call blockno : Nat) : OnHeap ((Bytes × Nat) × Nat) := do
  let first ← kallocOrPanic "ext2_read_single_indirect() --> kalloc() failure!\n" fs.blockSize
  let blocks ← fs.ext2ReadBlockOnHeap (mem.pointers call) 0 blockno
  let totalBlocks ← StateT.lift (countBlocks blocks fuel 0)
  if totalBlocks > fs.maxBlocks then
    StateT.lift (throw (.panic "ext2_read_single_indirect() --> total_blocks > max_blocks!\n"))
  else
    let size := totalBlocks * fs.blockSize % 2 ^ 32
    let second ← kallocOrPanic "ext2_read_single_indirect() --> kalloc() 2. failure!\n" size
    let retBuf ← fs.readPointersOnHeap blocks (mem.contents call) 0 fs.maxBlocks
    kfreeOnHeap id first
    pure ((retBuf, size), second)

def readSingleIndirectsOnHeap (fuel : Nat) (blocks : Bytes) (i : Nat) :
    Nat → OnHeap (List (Bytes × Nat))
  | 0 => pure []
  | left + 1 =>
      if blocks.u32 (4 * i) = 0 then
        StateT.lift
          (throw (.panic "ext2_read_double_indirect() --> blocks[i] was null. Misalignment. \n"))
      else do
        let (first, _) ← fs.ext2ReadSingleIndirectOnHeap mem fuel (i + 2) (blocks.u32 (4 * i))
        let rest ← readSingleIndirectsOnHeap fuel blocks (i + 1) left
        pure (first :: rest)

/-- Where the first of the two arrays is not to be had, the second `kalloc` finds the lock held. -/
def ext2ReadDoubleIndirectOnHeap (fuel blockno : Nat) : OnHeap ((Bytes × Nat) × Nat) := do
  let first ← kallocOrPanic "ext2_read_double_indirect() --> kalloc() failure!\n" fs.blockSize
  let blocks ← fs.ext2ReadBlockOnHeap (mem.pointers 1) 0 blockno
  let totalBlocks ← StateT.lift (countBlocks blocks fuel 0)
  if totalBlocks > fs.maxBlocks then
    StateT.lift (throw (.panic "ext2_read_double_indirect() --> total_blocks > max_blocks!\n"))
  else
    let retBuf ← kallocOrPanic "acquire_Spinlock() --> encountered deadlock situation."
      (totalBlocks * 8)
    let _ ← kallocOrPanic "ext2_read_double_indirect() --> kalloc() 2. failure!\n" (totalBlocks * 4)
    let buffers ← fs.readSingleIndirectsOnHeap mem fuel blocks 0 totalBlocks
    let totalSize := (buffers.map Prod.snd).sum
    let second ← kallocOrPanic "ext2_read_double_indirect() --> kalloc() 3. failure!\n" totalSize
    let outBuf := buffers.foldl (fun out (buf, size) => out.memcpy 0 buf size) (mem.contents 1)
    kfreeOnHeap id first
    kfreeOnHeap id retBuf
    pure ((outBuf, totalSize % 2 ^ 32), second)

/-- `ext2_read_dir` returns `NULL` if `kalloc` does. -/
def ext2ReadDirOnHeap (fuel : Nat) (dir : List UInt8) : OnHeap (Option Bytes) := do
  if ← fs.ext2DirExistsOnHeap mem fuel dir then
    let inode ← fs.inodeOfOnHeap mem fuel dir
    let count := ((List.range 12).takeWhile fun i => inode.blocks i ≠ 0).length
    match ← kallocOrNull id (count * fs.blockSize % 2 ^ 32) with
    | none => pure none
    | some _ =>
        let (blockBuf, _) ← fs.readDirectOnHeap inode mem.file 0 0 12
        pure (some fun p => blockBuf (count * fs.blockSize + p))
  else pure none

/-- The part of `ext2_read_file` that reads what it has found. -/
def readContentsOnHeap (fuel : Nat) (inode : Ext2Inode) : OnHeap (Option Bytes) := do
  let _ ← kallocOrPanic "ext2_read_file() --> kalloc() failure!" (fs.ext2GetFileSize inode)
  match ← fs.readDirectOnHeap inode mem.file 0 0 12 with
  | (retBuf, none) => pure (some retBuf)
  | (retBuf, some bufOffset) =>
      let (retBuf, bufOffset) ←
        if inode.blocks 12 = 0 then pure (retBuf, bufOffset)
        else do
          let ((tmpBuf, size), address) ←
            fs.ext2ReadSingleIndirectOnHeap mem fuel 0 (inode.blocks 12)
          kfreeOnHeap id address
          pure (retBuf.memcpy bufOffset tmpBuf size, bufOffset + size)
      let retBuf ←
        if inode.blocks 13 = 0 then pure retBuf
        else do
          let ((tmpBuf, size), address) ←
            fs.ext2ReadDoubleIndirectOnHeap mem fuel (inode.blocks 13)
          kfreeOnHeap id address
          pure (retBuf.memcpy bufOffset tmpBuf size)
      pure (some retBuf)

def ext2ReadFileOnHeap (fuel : Nat) (filepath : List UInt8) : OnHeap (Option Bytes) := do
  match ← fs.findFileInodeOnHeap mem fuel filepath with
  | none => pure none
  | some inode =>
      if inode.type ≠ inodeTypeFile ∧ inode.type ≠ inodeTypeDirectory then
        fs.ext2ReadDirOnHeap mem fuel filepath
      else fs.readContentsOnHeap mem fuel inode

section Without

variable {fs : Ext2Driver} {mem : Ext2Memory}

theorem readDiskSectorOnHeap_erases (out : Bytes) (offset sector : Nat) :
    Erases (fs.readDiskSectorOnHeap out offset sector) (fs.readDiskSector out offset sector) :=
  .skip fun _ => .lift _

theorem ext2ReadBlockOnHeap_erases (out : Bytes) (offset block : Nat) :
    Erases (fs.ext2ReadBlockOnHeap out offset block) (fs.ext2ReadBlock out offset block) := by
  have sectors : ∀ count out offset sector, Erases
      (fs.readSectorsOnHeap out offset sector count) (fs.readSectors out offset sector count) := by
    intro count
    induction count with
    | zero => exact fun out _ _ => .pure out
    | succ count inductionHypothesis =>
      intro out offset sector
      exact .bind (readDiskSectorOnHeap_erases out offset sector) fun _ => inductionHypothesis _ _ _
  exact sectors _ _ _ _

theorem ext2ReadInodeOnHeap_erases (inodeNum : Nat) :
    Erases (fs.ext2ReadInodeOnHeap mem inodeNum) (fs.ext2ReadInode mem inodeNum) :=
  .skip fun _ => .lift _

theorem ext2ReadFromDirectoryOnHeap_erases (filename : List UInt8) (dir : Bytes) (fuel p : Nat) :
    Erases (fs.ext2ReadFromDirectoryOnHeap mem filename dir fuel p)
      (fs.ext2ReadFromDirectory mem filename dir fuel p) := by
  induction fuel generalizing p with
  | zero => exact .lift _
  | succ fuel inductionHypothesis =>
    rw [ext2ReadFromDirectoryOnHeap, ext2ReadFromDirectory]
    refine .ite (.pure 0) (.skip fun name => .ite ?_ ?_)
    · exact .bind (ext2ReadInodeOnHeap_erases _) fun _ => .skip fun _ => .pure _
    · exact .skip fun _ => inductionHypothesis _

theorem readRootBlocksOnHeap_erases (fuel : Nat) (filename : List UInt8) (l : List Nat) :
    Erases (fs.readRootBlocksOnHeap mem fuel filename l) (fs.readRootBlocks mem fuel filename l) := by
  induction l with
  | nil => exact .pure 0
  | cons i rest inductionHypothesis =>
    rw [readRootBlocksOnHeap, readRootBlocks]
    refine .ite (.pure 0) (.bind (ext2ReadBlockOnHeap_erases _ _ _) fun buf => ?_)
    refine .bind (ext2ReadFromDirectoryOnHeap_erases _ _ _ _) fun inodeNum => ?_
    exact .ite (.pure inodeNum) inductionHypothesis

theorem ext2ReadFromRootDirectoryOnHeap_erases (fuel : Nat) (filename : List UInt8) :
    Erases (fs.ext2ReadFromRootDirectoryOnHeap mem fuel filename)
      (fs.ext2ReadFromRootDirectory mem fuel filename) :=
  .ite (.lift _) (.skip fun _ => readRootBlocksOnHeap_erases fuel filename _)

theorem descendOnHeap_erases (fuel : Nat) (buffer : List UInt8) (dirDepth filename inodeNum : Nat) :
    Erases (fs.descendOnHeap mem fuel buffer dirDepth filename inodeNum)
      (fs.descend mem fuel buffer dirDepth filename inodeNum) := by
  induction dirDepth generalizing filename inodeNum with
  | zero => exact .pure _
  | succ dirDepth inductionHypothesis =>
    rw [descendOnHeap, descend]
    refine .bind (ext2ReadInodeOnHeap_erases _) fun inode => .ite (inductionHypothesis _ _) ?_
    refine .bind (ext2ReadBlockOnHeap_erases _ _ _) fun buf => ?_
    refine .bind (ext2ReadFromDirectoryOnHeap_erases _ _ _ _) fun tmpInodeNum => ?_
    exact .ite (inductionHypothesis _ _) (.pure none)

/-- Where `ext2_find_file_inode` returns, it returns what it does without the heap. -/
theorem ext2FindFileInodeOnHeap_erases (fuel : Nat) (path : List UInt8) (inodeOut : Ext2Inode) :
    Erases (fs.ext2FindFileInodeOnHeap mem fuel path inodeOut)
      (fs.ext2FindFileInode mem fuel path inodeOut) := by
  rw [ext2FindFileInodeOnHeap, ext2FindFileInode]
  refine .ite (.pure _) (.skip fun og => ?_)
  refine .bind (ext2ReadFromRootDirectoryOnHeap_erases _ _) fun inodeNum => .ite ?_ ?_
  · refine .ite (.pure _) (.skip fun _ => ?_)
    exact .bind (ext2ReadInodeOnHeap_erases _) fun inode => .pure (0, inode)
  · refine .skip fun buf => .bind (descendOnHeap_erases _ _ _ _ _) fun last => ?_
    cases last with
    | none => exact .skip fun _ => .pure _
    | some inodeNum =>
      refine .bind (ext2ReadInodeOnHeap_erases _) fun inode => ?_
      exact .skip fun _ => .skip fun _ => .pure (0, inode)

theorem findFileInodeOnHeap_erases (fuel : Nat) (path : List UInt8) :
    Erases (fs.findFileInodeOnHeap mem fuel path) (fs.findFileInode mem fuel path) :=
  .bind (ext2FindFileInodeOnHeap_erases fuel path _) fun _ => .pure _

theorem readDirectOnHeap_erases (inode : Ext2Inode) (out : Bytes) (offset i left : Nat) :
    Erases (fs.readDirectOnHeap inode out offset i left) (fs.readDirect inode out offset i left) := by
  induction left generalizing out offset i with
  | zero => exact .pure _
  | succ left inductionHypothesis =>
    rw [readDirectOnHeap, readDirect]
    exact .ite (.pure _) (.bind (ext2ReadBlockOnHeap_erases _ _ _) fun _ => inductionHypothesis _ _ _)

theorem readPointersOnHeap_erases (blocks out : Bytes) (i left : Nat) :
    Erases (fs.readPointersOnHeap blocks out i left) (fs.readPointers blocks out i left) := by
  induction left generalizing out i with
  | zero => exact .pure _
  | succ left inductionHypothesis =>
    rw [readPointersOnHeap, readPointers]
    exact .ite (.lift _) (.bind (ext2ReadBlockOnHeap_erases _ _ _) fun _ => inductionHypothesis _ _)

theorem ext2ReadSingleIndirectOnHeap_erases (fuel call blockno : Nat) :
    Erases (Prod.fst <$> fs.ext2ReadSingleIndirectOnHeap mem fuel call blockno)
      (fs.ext2ReadSingleIndirect mem fuel call blockno) := by
  rw [ext2ReadSingleIndirectOnHeap, ext2ReadSingleIndirect]
  simp only [map_bind, map_pure, apply_ite (Prod.fst <$> ·)]
  refine .skip fun _ => .bind (ext2ReadBlockOnHeap_erases _ _ _) fun blocks => ?_
  refine .bind (.lift _) fun totalBlocks => .ite (.map_throw _) (.skip fun _ => ?_)
  refine .bind (readPointersOnHeap_erases _ _ _ _) fun retBuf => ?_
  exact .skip fun _ => .pure (retBuf, _)

theorem readSingleIndirectsOnHeap_erases (fuel : Nat) (blocks : Bytes) (i left : Nat) :
    Erases (fs.readSingleIndirectsOnHeap mem fuel blocks i left)
      (fs.readSingleIndirects mem fuel blocks i left) := by
  induction left generalizing i with
  | zero => exact .pure _
  | succ left inductionHypothesis =>
    rw [readSingleIndirectsOnHeap, readSingleIndirects]
    refine .ite (.lift _) (.bind_map (ext2ReadSingleIndirectOnHeap_erases _ _ _) fun first => ?_)
    exact .bind (inductionHypothesis _) fun rest => .pure _

theorem ext2ReadDoubleIndirectOnHeap_erases (fuel blockno : Nat) :
    Erases (Prod.fst <$> fs.ext2ReadDoubleIndirectOnHeap mem fuel blockno)
      (fs.ext2ReadDoubleIndirect mem fuel blockno) := by
  rw [ext2ReadDoubleIndirectOnHeap, ext2ReadDoubleIndirect]
  simp only [map_bind, map_pure, apply_ite (Prod.fst <$> ·)]
  refine .skip fun _ => .bind (ext2ReadBlockOnHeap_erases _ _ _) fun blocks => ?_
  refine .bind (.lift _) fun totalBlocks => .ite (.map_throw _) (.skip fun _ => .skip fun _ => ?_)
  refine .bind (readSingleIndirectsOnHeap_erases _ _ _ _) fun buffers => ?_
  exact .skip fun _ => .skip fun _ => .skip fun _ => .pure _

/-- A regular file or a directory that is found is read as it is without the heap. -/
theorem readContentsOnHeap_erases {fuel : Nat} {path : List UInt8} {inode : Ext2Inode}
    (found : fs.findFileInode mem fuel path = .ok (some inode))
    (regular : ¬(inode.type ≠ inodeTypeFile ∧ inode.type ≠ inodeTypeDirectory)) :
    Erases (fs.readContentsOnHeap mem fuel inode) (fs.ext2ReadFile mem fuel path) := by
  have there : (Except.ok (some inode) : Outcome (Option Ext2Inode)) = pure (some inode) := rfl
  rw [ext2ReadFile, found, there, pure_bind]
  dsimp only
  rw [if_neg regular, readContentsOnHeap]
  refine .skip fun _ => .bind (readDirectOnHeap_erases _ _ _ _ _) fun direct => ?_
  obtain ⟨retBuf, _ | bufOffset⟩ := direct
  · exact .pure _
  · simp only [pure_bind]
    have double : ∀ (retBuf : Bytes) (bufOffset : Nat), Erases
        (if inode.blocks 13 = 0 then pure (some retBuf)
          else fs.ext2ReadDoubleIndirectOnHeap mem fuel (inode.blocks 13) >>= fun tmp =>
            kfreeOnHeap id tmp.2 >>= fun _ =>
              pure (some (retBuf.memcpy bufOffset tmp.1.1 tmp.1.2)))
        (if inode.blocks 13 = 0 then pure (some retBuf)
          else fs.ext2ReadDoubleIndirect mem fuel (inode.blocks 13) >>= fun tmp =>
            pure (some (retBuf.memcpy bufOffset tmp.1 tmp.2))) := by
      intro retBuf bufOffset
      refine .ite (.pure _) (.bind_map (ext2ReadDoubleIndirectOnHeap_erases _ _) fun tmp => ?_)
      exact .skip fun _ => .pure _
    refine .ite (double _ _) (.bind_map (ext2ReadSingleIndirectOnHeap_erases _ _ _) fun tmp => ?_)
    exact .skip fun _ => double _ _

end Without

end SwagOS.Fs.Ext2Driver
