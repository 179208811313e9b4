import Mathlib.Algebra.Group.Int.Defs
import SwagOS.Fs.Ext2.Resolution

/-!
# File status

`fill_statbuf` of `fs/vfs.c`.  It has no return statement at its end, so that its result is what
the register happens to hold; it stores the result of `ext2_find_file_inode`, which is no inode
number, and the size of a block for the size of the file.
-/

namespace SwagOS.Fs

open SwagOS.Lib SwagOS.Libc SwagOS.Mem

/-- `struct stat` -/
structure Stat where
  stDev : Nat
  stIno : Nat
  stMode : Nat
  stNlink : Nat
  stUid : Nat
  stGid : Nat
  stRdev : Nat
  stSize : Int
  stBlksize : Int
  stBlocks : Nat
  stAtime : Nat
  stMtime : Nat
  stCtime : Nat
  deriving DecidableEq

def toInt32 (n : Nat) : Int := if n % 2 ^ 32 < 2 ^ 31 then n % 2 ^ 32 else n % 2 ^ 32 - 2 ^ 32

namespace Ext2Driver

variable (fs : Ext2Driver) (mem : Ext2Memory)

/-- `fill_statbuf`, with `ext2_driver.total_blocks`, the inode on the stack before the call and
the register with the result.  The second part of the result is `*statbuf`, if it is written. -/
def fillStatbuf (totalBlocks : Nat) (inode : Ext2Inode) (eax : Int) (fuel : Nat)
    (filepath : List UInt8) : OnHeap (Int × Option Stat) := do
  let (inodeNum, inode) ← fs.ext2FindFileInodeOnHeap mem fuel filepath inode
  if inodeNum = 2 ^ 32 - 1 then pure (-1, none)
  else
    let filesize := fs.ext2GetFileSize inode % 2 ^ 32
    if filesize = 2 ^ 64 - 1 then pure (-1, none)
    else
      let blksize := toInt32 fs.blockSize
      let stat : Stat :=
        { stDev := 0
          stIno := inodeNum
          stMode := inode.mode
          stNlink := 0
          stUid := 0
          stGid := 0
          stRdev := 0
          stSize := blksize
          stBlksize := blksize
          stBlocks := totalBlocks * (fs.blockSize / 512) % 2 ^ 32
          stAtime := 0
          stMtime := 0
          stCtime := 0 }
      pure (eax, some stat)

/-- What the caller gets for the path on this heap, whatever the stack and the registers hold: for
a regular file its size, number and mode, and -1 for a path that leads nowhere. -/
structure StatRight (s : KernelSupply) (totalBlocks : Nat) (path : List (List UInt8)) : Prop where
  file : ∀ i, fs.Resolves 2 path i → (fs.inode i).type = inodeTypeFile → ∀ mem inode eax,
    ∃ ret stat s', (Eventually fun fuel =>
        fs.fillStatbuf mem totalBlocks inode eax fuel (absolute path) s = .ok ((ret, some stat), s')) ∧
      ret ≠ -1 ∧ stat.stSize = fs.ext2GetFileSize (fs.inode i) ∧ stat.stIno = i ∧
      stat.stMode = (fs.inode i).mode
  absent : (¬∃ i, fs.Resolves 2 path i) → ∀ mem inode eax, ∃ stat s', Eventually fun fuel =>
    fs.fillStatbuf mem totalBlocks inode eax fuel (absolute path) s = .ok ((-1, stat), s')

def LeadsToFile (path : List (List UInt8)) : Prop :=
  ∃ i, fs.Resolves 2 path i ∧ (fs.inode i).type = inodeTypeFile

variable {fs} {mem}

/-- `ext2_find_file_inode` returns zero, or that it failed; then it has not written the inode. -/
theorem ext2FindFileInode_ret (wellFormed : fs.WellFormed) {name : List UInt8}
    {rest : List (List UInt8)} (names : ∀ part ∈ name :: rest, IsName part)
    {inodeOut inode : Ext2Inode} {fuel ret : Nat}
    (done : fs.ext2FindFileInode mem fuel (absolute (name :: rest)) inodeOut = .ok (ret, inode)) :
    ret = 0 ∨ ret = 2 ^ 32 - 1 ∧ inode = inodeOut := by
  obtain ⟨buffer, p, -, equation⟩ := ext2FindFileInode_eq mem wellFormed names inodeOut
  rw [equation] at done
  obtain ⟨inodeNum, -, done⟩ := Outcome.bind_ok.mp done
  -- An inode that is found is read, and zero returned.
  have found : ∀ n, (fs.ext2ReadInode mem n >>= fun inode => pure (0, inode)) = .ok (ret, inode) →
      ret = 0 := by
    intro n read
    obtain ⟨_, -, result⟩ := Outcome.bind_ok.mp read
    exact (congrArg Prod.fst (Outcome.pure_ok.mp result)).symm
  have failed : (pure (2 ^ 32 - 1, inodeOut) : Outcome (Nat × Ext2Inode)) = .ok (ret, inode) →
      ret = 2 ^ 32 - 1 ∧ inode = inodeOut := by
    intro result
    obtain ⟨rfl, rfl⟩ := Prod.mk.inj (Outcome.pure_ok.mp result)
    exact ⟨rfl, rfl⟩
  split at done
  next =>
    split at done
    next => exact .inr (failed done)
    next => exact .inl (found _ done)
  next =>
    obtain ⟨last, -, done⟩ := Outcome.bind_ok.mp done
    cases last with
    | none => exact .inr (failed done)
    | some n => exact .inl (found n done)

theorem fillStatbuf_ok {totalBlocks fuel : Nat} {inode : Ext2Inode} {eax : Int}
    {filepath : List UInt8} {s s' : KernelSupply} {result : Int × Option Stat}
    (done : fs.fillStatbuf mem totalBlocks inode eax fuel filepath s = .ok (result, s')) :
    ∃ ret found, fs.ext2FindFileInodeOnHeap mem fuel filepath inode s = .ok ((ret, found), s') ∧
      (ret = 2 ^ 32 - 1 ∧ result = (-1, none) ∨
        ret ≠ 2 ^ 32 - 1 ∧ ∃ stat, result = (eax, some stat) ∧ stat.stIno = ret) := by
  rw [fillStatbuf] at done
  obtain ⟨⟨ret, found⟩, t, first, later⟩ := Consumer.bind_ok.mp done
  refine ⟨ret, found, ?_⟩
  dsimp only at later
  split at later
  next failed =>
    obtain ⟨same, rfl⟩ := Consumer.pure_ok.mp later
    exact ⟨first, .inl ⟨failed, same⟩⟩
  next ok_ =>
    split at later
    next never =>
      have small := Nat.mod_lt (fs.ext2GetFileSize found) (by decide : 0 < 2 ^ 32)
      omega
    next =>
      obtain ⟨same, rfl⟩ := Consumer.pure_ok.mp later
      exact ⟨first, .inr ⟨ok_, _, same, rfl⟩⟩

section Right

variable {s : KernelSupply} {path : List (List UInt8)} {totalBlocks : Nat}

theorem StatRight.noFile (wellFormed : fs.WellFormed) (names : ∀ name ∈ path, IsName name)
    (right : fs.StatRight s totalBlocks path) : ¬fs.LeadsToFile path := by
  rintro ⟨i, resolves, type⟩
  have isInode := resolves.isInode wellFormed.isInode
  cases path with
  | nil =>
    obtain rfl := resolves.functional (.nil 2)
    have isDirectory := wellFormed.isDirectory
    rw [wellFormed.root, type] at isDirectory
    exact absurd isDirectory (by decide)
  | cons name rest =>
    obtain ⟨ret, stat, s', ⟨least, done⟩, -, -, number, -⟩ :=
      right.file i resolves type fs.hostile fs.rootInode 0
    obtain ⟨found, inode, first, filled⟩ := fillStatbuf_ok (done least (Nat.le_refl least))
    rcases filled with ⟨-, failed⟩ | ⟨ok_, stat', filled, number'⟩
    · cases failed
    · obtain ⟨-, same⟩ := Prod.mk.inj filled
      obtain rfl := Option.some.inj same
      have without := ext2FindFileInodeOnHeap_erases least _ _ s _ s' first
      rcases ext2FindFileInode_ret wellFormed names without with zero | ⟨failed, -⟩
      · have positive := isInode.1
        omega
      · exact ok_ failed

theorem StatRight.findsRight (wellFormed : fs.WellFormed) {name : List UInt8}
    {rest : List (List UInt8)} (names : ∀ part ∈ name :: rest, IsName part)
    (right : fs.StatRight s totalBlocks (name :: rest))
    (absent : ¬∃ i, fs.Resolves 2 (name :: rest) i) : fs.FindsRightOnHeap s (name :: rest) := by
  intro mem inodeOut
  obtain ⟨stat, s', least, done⟩ := right.absent absent mem inodeOut 0
  refine ⟨2 ^ 32 - 1, inodeOut, s', ⟨least, fun fuel enough => ?_⟩, ?_, ?_⟩
  · obtain ⟨ret, inode, first, filled⟩ := fillStatbuf_ok (done fuel enough)
    rcases filled with ⟨failed, -⟩ | ⟨-, stat', filled, -⟩
    · have without := ext2FindFileInodeOnHeap_erases fuel _ _ s _ s' first
      rcases ext2FindFileInode_ret wellFormed names without with zero | ⟨-, rfl⟩
      · omega
      · rw [failed] at first
        exact first
    · exact absurd (Prod.mk.inj filled).1 (by decide)
  · exact iff_of_false (fun never => never rfl) absent
  · exact fun i resolves => absurd ⟨i, resolves⟩ absent

theorem FindsRightOnHeap.statRight (totalBlocks : Nat) (noFile : ¬fs.LeadsToFile path)
    (finds : (¬∃ i, fs.Resolves 2 path i) → fs.FindsRightOnHeap s path) :
    fs.StatRight s totalBlocks path where
  file := fun i resolves type => absurd ⟨i, resolves, type⟩ noFile
  absent := by
    intro absent mem inodeOut eax
    obtain ⟨ret, inode, s', ⟨least, done⟩, found, -⟩ := finds absent mem inodeOut
    have failed : ret = 2 ^ 32 - 1 := not_not.mp fun ok_ => absent (found.mp ok_)
    refine ⟨none, s', least, fun fuel enough => ?_⟩
    refine Consumer.bind_ok.mpr ⟨(ret, inode), s', done fuel enough, ?_⟩
    dsimp only
    rw [if_pos failed]
    exact Consumer.pure_ok.mpr ⟨rfl, rfl⟩

/-- On every heap that is reached, the status of a path is right if it leads to a directory or to
no inode, which the lookup finds out; if the path does not lead through a file that looks like a
directory, only then. -/
theorem fillStatbuf_right_iff (wellFormed : fs.WellFormed) (names : ∀ name ∈ path, IsName name)
    (totalBlocks : Nat) (reached : Reachable HeapBoot HeapCall s.heap) :
    (¬fs.LeadsToFile path → (∃ i, fs.Resolves 2 path i) ∨ fs.FindableOnHeap s path →
      fs.StatRight s totalBlocks path) ∧
    (fs.NoMimics 2 path → (fs.StatRight s totalBlocks path ↔
      ¬fs.LeadsToFile path ∧ ((∃ i, fs.Resolves 2 path i) ∨ fs.FindableOnHeap s path))) := by
  have enough : ¬fs.LeadsToFile path → (∃ i, fs.Resolves 2 path i) ∨ fs.FindableOnHeap s path →
      fs.StatRight s totalBlocks path := by
    rintro noFile found
    refine FindsRightOnHeap.statRight totalBlocks noFile fun absent => ?_
    have nonempty : path ≠ [] := by
      rintro rfl
      exact absent ⟨2, .nil 2⟩
    exact (found.resolve_left absent).findsRight wellFormed nonempty names reached
  refine ⟨enough, fun noMimics => ⟨fun right => ⟨right.noFile wellFormed names, ?_⟩, ?_⟩⟩
  · by_cases present : ∃ i, fs.Resolves 2 path i
    · exact .inl present
    · cases path with
      | nil => exact absurd ⟨2, .nil 2⟩ present
      | cons name rest =>
        exact .inr ((right.findsRight wellFormed names present).findable wellFormed
          (List.cons_ne_nil _ _) names reached noMimics)
  · rintro ⟨noFile, found⟩
    exact enough noFile found

end Right

/-- The small image with only `/d` in the root directory, which ends with an unused record. -/
def spareImage : Ext2Driver where
  disk := fun sector =>
    if sector = 2068 then sectorOf [(0, direntryOf 2 12 [46]), (12, direntryOf 2 12 [46, 46]),
      (24, direntryOf 3 12 [100]), (36, direntryOf 0 988 [])]
    else smallImage.disk sector
  log2blockSize := 0
  blockSize := 1024
  inodesPerGroup := 8
  inodeSize := 128
  extendedFieldsAvailable := false
  bgdt := [5]
  rootInode := smallImage.rootInode

theorem spareImage_rootDirectory :
    spareImage.Directory (spareImage.inode 2) [[(2, [46]), (2, [46, 46]), (3, [100]), (0, [])]] := by
  have unused : Records (spareImage.block 10) 1024 36 [(0, [])] := by
    have last : Records (spareImage.block 10) 1024 (36 + (spareImage.block 10).u16 40) [] := by
      rw [show (spareImage.block 10).u16 40 = 988 by decide +kernel]
      exact .nil
    have named : ((spareImage.block 10).u32 36, nameAt (spareImage.block 10) 36) = (0, []) := by
      decide +kernel
    rw [← named]
    exact .cons (by decide +kernel) (by decide +kernel)
      (fun used => absurd (congrArg Prod.fst named) used) last
  apply Directory.ofBlock (b := 10)
  case all =>
    apply Records.record 12 _ _ _ _ _ (by decide)
    apply Records.record 12 _ _ _ _ _ (by decide)
    apply Records.record 12 _ _ _ _ _ (by decide)
    exact unused
    all_goals decide +kernel
  all_goals decide +kernel

theorem spareImage_directory :
    spareImage.Directory (spareImage.inode 3) [[(3, [46]), (2, [46, 46]), (4, [102])]] := by
  apply Directory.ofBlock (b := 11)
  case all =>
    apply Records.record 12 _ _ _ _ _ (by decide)
    apply Records.record 12 _ _ _ _ _ (by decide)
    apply Records.record 1000 _ _ _ _ _ (by decide)
    exact .nil
    all_goals decide +kernel
  all_goals decide +kernel

theorem spareImage_wellFormed : spareImage.WellFormed where
  geometry :=
    { blockSize := rfl
      inodesPerGroup := by decide
      inodeSize := ⟨0, rfl⟩
      inodes := by decide
      tables := by decide }
  isInode := by decide
  root := by
    refine (inode_ofBlock (b := 10) ?_ ?_ ?_ ?_).symm
    all_goals decide +kernel
  isDirectory := by decide
  directories := by
    intro path i resolves type
    have types : ∀ i < 9, (spareImage.inode i).type = inodeTypeDirectory → i = 2 ∨ i = 3 := by
      decide +kernel
    have isInode := resolves.isInode (by decide : spareImage.IsInode 2)
    rcases types i (Nat.lt_succ_of_le isInode.2) type with rfl | rfl
    · exact ⟨_, spareImage_rootDirectory⟩
    · exact ⟨_, spareImage_directory⟩

theorem spareImage_absent : ¬∃ i, spareImage.Resolves 2 [[120]] i := by
  rintro ⟨i, resolves⟩
  cases resolves with
  | cons lists _ =>
    obtain ⟨records, directory, member, -⟩ := lists
    obtain rfl := directory.functional spareImage_rootDirectory
    simp at member

theorem spareImage_rootScan : spareImage.RootScan [120] (List.range 12) 0
    (spareImage.sectorUses ++ ([.kalloc 2, .kalloc 3, .kalloc 2] ++ [])) := by
  have scan : Misses (spareImage.block 10) 1024 [120] 0 [.kalloc 2, .kalloc 3, .kalloc 2] := by
    apply Misses.next _ _ _ (.next _ _ _ (.next _ _ _ (.here _ _)))
    all_goals decide +kernel
  exact .missed (by decide) (by decide) scan (.behind (by decide))

theorem fillStatbuf_right_iff_absent :
    (¬∃ i, spareImage.Resolves 2 [[120]] i) ∧ spareImage.StatRight bootSupply 64 [[120]] := by
  refine ⟨spareImage_absent, ?_⟩
  refine (fillStatbuf_right_iff spareImage_wellFormed (by decide) 64 bootSupply_reached).1 ?_ ?_
  · rintro ⟨i, resolves, -⟩
    exact spareImage_absent ⟨i, resolves⟩
  · exact .inr ⟨_, .absentRoot spareImage_rootScan spareImage_absent,
      bootSupply_lasts (by decide) (by decide)⟩

/-- `/h` is a file of one block; on no heap does its status have its size, number and mode. -/
theorem file_statWrong : smallImage.WellFormed ∧ smallImage.LeadsToFile [[104]] ∧
    ∀ s totalBlocks, ¬smallImage.StatRight s totalBlocks [[104]] := by
  have leads : smallImage.LeadsToFile [[104]] :=
    ⟨6, .cons ⟨_, smallImage_rootDirectory, by decide, by decide⟩ (.nil 6), by decide +kernel⟩
  exact ⟨smallImage_wellFormed, leads, fun s totalBlocks right =>
    right.noFile smallImage_wellFormed (by decide) leads⟩

end Ext2Driver

end SwagOS.Fs
