import Mathlib.Data.List.GetD
import SwagOS.Fs.Ext2

/-!
# Images

What the bytes of a file system mean: its blocks, its inodes, the records of its
directories, and which inode a path leads to.  Blocks and inodes are read as they are, apart
from those in the last megabyte of the file system, which the disk driver refuses.
-/

namespace SwagOS.Fs.Ext2Driver

open SwagOS.Lib SwagOS.Libc SwagOS.Drivers

variable {fs : Ext2Driver} {mem : Ext2Memory}

def fileSystemSize : Nat := fssize * diskSectorSize

/-- The bytes of them that the disk driver reads: it counts `FSSIZE` from the start of the disk,
and the file system starts at `DEVICE_START`. -/
def capacity : Nat := (fssize - deviceStart) * diskSectorSize

theorem fileSystemSize_eq : fileSystemSize = 66060288 := rfl

theorem capacity_eq : capacity = 65011712 := rfl

theorem offsetToSector_eq (offset : Nat) : offsetToSector offset = 2048 + offset / 512 := rfl

section Contents

variable (fs)

def byte (offset : Nat) : UInt8 :=
  fs.sectorData (offsetToSector offset) (offset % diskSectorSize)

def block (b : Nat) : Bytes := fun i => fs.byte (b * fs.blockSize + i)

def inodeOffset (i : Nat) : Nat :=
  fs.blockSize * fs.bgdt.getD ((i - 1) / fs.inodesPerGroup) 0 +
    (i - 1) % fs.inodesPerGroup * fs.inodeSize

def inode (i : Nat) : Ext2Inode := .ofBytes fs.byte (fs.inodeOffset i)

def IsInode (i : Nat) : Prop := 0 < i ∧ i ≤ fs.bgdt.length * fs.inodesPerGroup

instance (i : Nat) : Decidable (fs.IsInode i) := inferInstanceAs (Decidable (_ ∧ _))

def InFileSystem (b : Nat) : Prop := (b + 1) * fs.blockSize ≤ fileSystemSize

def OnDisk (b : Nat) : Prop := (b + 1) * fs.blockSize ≤ capacity

instance (b : Nat) : Decidable (fs.InFileSystem b) := inferInstanceAs (Decidable (_ ≤ _))

instance (b : Nat) : Decidable (fs.OnDisk b) := inferInstanceAs (Decidable (_ ≤ _))

def InodeOnDisk (i : Nat) : Prop := fs.inodeOffset i < capacity

instance (i : Nat) : Decidable (fs.InodeOnDisk i) := inferInstanceAs (Decidable (_ < _))

/-- The sizes of the file system. -/
structure Geometry : Prop where
  blockSize : fs.blockSize = 1024 * 2 ^ fs.log2blockSize
  inodesPerGroup : 0 < fs.inodesPerGroup
  inodeSize : ∃ k, fs.inodeSize = 128 * 2 ^ k
  inodes : fs.bgdt.length * fs.inodesPerGroup < 2 ^ 32
  tables : ∀ table ∈ fs.bgdt,
    fs.blockSize * table + fs.inodesPerGroup * fs.inodeSize ≤ fileSystemSize

end Contents

theorem Geometry.sectors (geometry : fs.Geometry) :
    fs.blockSize = fs.blockSize / diskSectorSize * diskSectorSize := by
  rw [geometry.blockSize, diskSectorSize]
  omega

theorem readSectors_ok {out : Bytes} {offset start count : Nat}
    (aligned : start % diskSectorSize = 0) (inside : start + count * diskSectorSize ≤ capacity) :
    fs.readSectors out offset (offsetToSector start) count =
      .ok (out.memcpy offset (fun i => fs.byte (start + i)) (count * diskSectorSize)) := by
  induction count generalizing out offset start with
  | zero =>
    rw [readSectors]
    refine congrArg Except.ok (funext fun p => ?_)
    rw [Bytes.memcpy_outside]
    omega
  | succ count inductionHypothesis =>
    rw [capacity_eq, diskSectorSize] at inside
    rw [diskSectorSize] at aligned
    have next : offsetToSector start + 1 = offsetToSector (start + 512) := by
      rw [offsetToSector_eq, offsetToSector_eq]
      omega
    have below : ¬offsetToSector start ≥ fssize := by
      rw [offsetToSector_eq, fssize]
      omega
    rw [readSectors, readDiskSector, if_neg below, next]
    refine (inductionHypothesis (by rw [diskSectorSize]; omega)
      (by rw [capacity_eq, diskSectorSize]; omega)).trans ?_
    refine congrArg Except.ok (funext fun p => ?_)
    rw [diskSectorSize]
    -- The first sector, the sectors behind it, and the rest of the buffer.
    by_cases before : p < offset
    · rw [Bytes.memcpy_outside (by omega), Bytes.memcpy_outside (by omega),
        Bytes.memcpy_outside (by omega)]
    · by_cases first : p < offset + 512
      · have sector : offsetToSector (start + (p - offset)) = offsetToSector start := by
          rw [offsetToSector_eq, offsetToSector_eq]
          omega
        have within : (start + (p - offset)) % diskSectorSize = p - offset := by
          rw [diskSectorSize]
          omega
        rw [Bytes.memcpy_outside (by omega), Bytes.memcpy_inside (by omega) (by omega),
          Bytes.memcpy_inside (by omega) (by omega), byte, sector, within]
      · by_cases last : p < offset + (count + 1) * 512
        · rw [Bytes.memcpy_inside (by omega) (by omega),
            Bytes.memcpy_inside (by omega) (by omega)]
          apply congrArg fs.byte
          omega
        · rw [Bytes.memcpy_outside (by omega), Bytes.memcpy_outside (by omega),
            Bytes.memcpy_outside (by omega)]

theorem readSectors_known {out buf : Bytes} {offset sector count : Nat}
    (done : fs.readSectors out offset sector count = .ok buf) :
    count = 0 ∨ sector + count ≤ fssize := by
  induction count generalizing out offset sector with
  | zero => exact .inl rfl
  | succ count inductionHypothesis =>
    rw [readSectors] at done
    obtain ⟨next, read, rest⟩ := Outcome.bind_ok.mp done
    rw [readDiskSector] at read
    split at read
    · cases read
    next below =>
      rcases inductionHypothesis rest with rfl | known
      · exact .inr (by omega)
      · exact .inr (by omega)

section Block

variable (geometry : fs.Geometry) {b : Nat}
include geometry

theorem blockSector_eq (inside : fs.InFileSystem b) :
    fs.ext2BlockToDiskSector b = offsetToSector (b * fs.blockSize) := by
  have product : b * fs.blockSize = b * 2 ^ fs.log2blockSize * 1024 := by
    rw [geometry.blockSize, Nat.mul_comm 1024, Nat.mul_assoc]
  have small : b * fs.blockSize ≤ fileSystemSize := by
    rw [InFileSystem, Nat.succ_mul] at inside
    exact (Nat.le_add_right _ _).trans inside
  rw [fileSystemSize_eq] at small
  rw [ext2BlockToDiskSector, product]
  rw [product] at small
  congr 1
  omega

theorem ext2ReadBlock_ok (onDisk : fs.OnDisk b) (out : Bytes) (offset : Nat) :
    fs.ext2ReadBlock out offset b = .ok (out.memcpy offset (fs.block b) fs.blockSize) := by
  have small : b * fs.blockSize + fs.blockSize ≤ capacity := by
    rw [← Nat.succ_mul]
    exact onDisk
  have whole := geometry.sectors
  have inside : fs.InFileSystem b := onDisk.trans (by decide)
  have aligned : b * fs.blockSize % diskSectorSize = 0 := by
    rw [whole, ← Nat.mul_assoc, Nat.mul_mod_left]
  rw [ext2ReadBlock, blockSector_eq geometry inside,
    readSectors_ok aligned (by rw [← whole]; exact small), ← whole]
  rfl

/-- A block of the file system that is read is on the disk. -/
theorem ext2ReadBlock_done (inside : fs.InFileSystem b) {out buf : Bytes} {offset : Nat}
    (done : fs.ext2ReadBlock out offset b = .ok buf) :
    fs.OnDisk b ∧ buf = out.memcpy offset (fs.block b) fs.blockSize := by
  have onDisk : fs.OnDisk b := by
    have sectors := geometry.sectors
    have positive : 0 < fs.blockSize := by
      rw [geometry.blockSize]
      exact Nat.mul_pos (by omega) (Nat.two_pow_pos _)
    rw [ext2ReadBlock, blockSector_eq geometry inside] at done
    rw [diskSectorSize] at done sectors
    have known := readSectors_known done
    have start : b * fs.blockSize = b * (fs.blockSize / 512) * 512 := by
      rw [Nat.mul_assoc, ← sectors]
    rw [offsetToSector_eq, fssize] at known
    rw [OnDisk, Nat.succ_mul, capacity_eq]
    omega
  rw [ext2ReadBlock_ok geometry onDisk] at done
  exact ⟨onDisk, (Except.ok.inj done).symm⟩

end Block

theorem ofBytes_congr {m m' : Bytes} {p q : Nat} (same : ∀ i < 128, m (p + i) = m' (q + i)) :
    Ext2Inode.ofBytes m p = Ext2Inode.ofBytes m' q := by
  have at_ : ∀ o k, o + k ≤ 128 → ∀ i < k, m (p + o + i) = m' (q + o + i) := by
    intro o k inside i below
    rw [Nat.add_assoc, Nat.add_assoc]
    exact same (o + i) (by omega)
  have blocks : ∀ i, (if i < 15 then m.u32 (p + 40 + 4 * i) else 0) =
      if i < 15 then m'.u32 (q + 40 + 4 * i) else 0 := by
    intro i
    split
    · rw [Nat.add_assoc, Nat.add_assoc]
      exact Bytes.u32_congr (at_ (40 + 4 * i) 4 (by omega))
    · rfl
  simp only [Ext2Inode.ofBytes, Ext2Inode.mk.injEq]
  exact ⟨Bytes.u16_congr (at_ 0 2 (by omega)), Bytes.u32_congr (at_ 4 4 (by omega)), funext blocks,
    Bytes.u32_congr (at_ 108 4 (by omega))⟩

theorem IsInode.group {i : Nat} (isInode : fs.IsInode i) :
    (i - 1) / fs.inodesPerGroup < fs.bgdt.length := by
  apply Nat.div_lt_of_lt_mul
  rw [Nat.mul_comm]
  have := isInode.1
  have := isInode.2
  omega

theorem Geometry.inodeOffset_le (geometry : fs.Geometry) {i : Nat} (isInode : fs.IsInode i) :
    fs.inodeOffset i + fs.inodeSize ≤ fileSystemSize := by
  have group := isInode.group
  have table := geometry.tables (fs.bgdt[(i - 1) / fs.inodesPerGroup]) (List.getElem_mem group)
  have index : (i - 1) % fs.inodesPerGroup + 1 ≤ fs.inodesPerGroup :=
    Nat.mod_lt _ geometry.inodesPerGroup
  have space := Nat.mul_le_mul_right fs.inodeSize index
  rw [Nat.succ_mul] at space
  rw [inodeOffset, List.getD_eq_getElem _ _ group]
  omega

/-- The sector of an offset holds the bytes from there on to its end. -/
theorem readDiskSector_at (out : Bytes) {offset : Nat}
    (below : offsetToSector (offset / 512 * 512) < fssize) :
    ∃ sector, fs.readDiskSector out 0 (offsetToSector (offset / 512 * 512)) = .ok sector ∧
      ∀ i, offset % 512 + i < 512 → sector (offset % 512 + i) = fs.byte (offset + i) := by
  refine ⟨_, if_neg (Nat.not_le_of_lt below), fun i inside => ?_⟩
  have same : offsetToSector (offset / 512 * 512) = offsetToSector (offset + i) := by
    rw [offsetToSector_eq, offsetToSector_eq]
    omega
  have within : offset % 512 + i - 0 = (offset + i) % diskSectorSize := by
    rw [diskSectorSize]
    omega
  rw [Bytes.memcpy_inside (Nat.zero_le _) (by rw [diskSectorSize]; omega), byte, same, within]

/-- Inodes start at multiples of 128, and tables at multiples of a sector. -/
theorem inode_position (table index : Nat) (blockSize : ∃ k, fs.blockSize = 1024 * 2 ^ k)
    (inodeSize : ∃ k, fs.inodeSize = 128 * 2 ^ k) :
    index * fs.inodeSize % 2 ^ 32 % 512 =
        (fs.blockSize * table + index * fs.inodeSize) % 2 ^ 32 % 512 ∧
      (fs.blockSize * table + index * fs.inodeSize) % 2 ^ 32 % 128 = 0 := by
  obtain ⟨l, block⟩ := blockSize
  obtain ⟨k, size⟩ := inodeSize
  have first : fs.blockSize * table = 512 * (2 * 2 ^ l * table) := by
    rw [block, ← Nat.mul_assoc, ← Nat.mul_assoc]
  have second : index * fs.inodeSize = 128 * (index * 2 ^ k) := by
    rw [size, Nat.mul_left_comm]
  rw [first, second]
  omega

theorem ext2GetInodeOffset_eq (fs : Ext2Driver) (mem : Ext2Memory) {i : Nat} (positive : 0 < i)
    (bound : i < 2 ^ 32) :
    fs.ext2GetInodeBlockGroupIndex i = (i - 1) % fs.inodesPerGroup ∧
      fs.ext2GetInodeOffset mem i =
        (fs.blockSize * fs.inodeTable mem ((i - 1) / fs.inodesPerGroup) +
          (i - 1) % fs.inodesPerGroup * fs.inodeSize) % 2 ^ 32 := by
  have index : inodeIndex i = i - 1 := by
    rw [inodeIndex]
    omega
  rw [ext2GetInodeOffset, ext2GetInodeBlockGroup, ext2GetInodeBlockGroupIndex, index]
  exact ⟨rfl, rfl⟩

theorem ext2ReadInode_eq (geometry : fs.Geometry) {i : Nat} (isInode : fs.IsInode i) :
    fs.ext2ReadInode mem i =
      if fs.InodeOnDisk i then .ok (fs.inode i) else .error (.panic "incorrect blockno") := by
  have inside := geometry.inodeOffset_le isInode
  have large : 128 ≤ fs.inodeSize := by
    obtain ⟨k, size⟩ := geometry.inodeSize
    rw [size]
    exact Nat.le_mul_of_pos_right 128 (Nat.two_pow_pos k)
  rw [fileSystemSize_eq] at inside
  have bound := Nat.lt_of_le_of_lt isInode.2 geometry.inodes
  obtain ⟨index, computed⟩ := ext2GetInodeOffset_eq fs mem isInode.1 bound
  have group := isInode.group
  have whole : fs.ext2GetInodeOffset mem i = fs.inodeOffset i := by
    have bound : fs.inodeOffset i < 2 ^ 32 := by omega
    rw [computed, ← Nat.mod_eq_of_lt bound, inodeOffset, inodeTable, List.getD_eq_getElem _ _ group,
      List.getD_eq_getElem _ _ group]
  obtain ⟨position, aligned⟩ := inode_position (fs.inodeTable mem ((i - 1) / fs.inodesPerGroup))
    ((i - 1) % fs.inodesPerGroup) ⟨_, geometry.blockSize⟩ geometry.inodeSize
  rw [← computed, whole, ← index] at position
  rw [← computed, whole] at aligned
  have known : offsetToSector (fs.inodeOffset i / 512 * 512) < fssize ↔ fs.InodeOnDisk i := by
    rw [InodeOnDisk, offsetToSector_eq, fssize, capacity_eq]
    omega
  rw [ext2ReadInode, whole]
  by_cases onDisk : fs.InodeOnDisk i
  · obtain ⟨sector, done, bytes⟩ := readDiskSector_at mem.stack (known.mpr onDisk)
    rw [if_pos onDisk, done]
    refine congrArg Except.ok (ofBytes_congr fun j inside => ?_)
    rw [position]
    exact bytes j (by omega)
  · have refused : offsetToSector (fs.inodeOffset i / 512 * 512) ≥ fssize :=
      Nat.le_of_not_lt fun below => onDisk (known.mp below)
    rw [if_neg onDisk, readDiskSector, if_pos refused]
    rfl

theorem ext2ReadInode_ok (geometry : fs.Geometry) {i : Nat} (isInode : fs.IsInode i)
    (onDisk : fs.InodeOnDisk i) : fs.ext2ReadInode mem i = .ok (fs.inode i) := by
  rw [ext2ReadInode_eq geometry isInode, if_pos onDisk]

theorem ext2ReadInode_done (geometry : fs.Geometry) {i : Nat} (isInode : fs.IsInode i)
    {inode : Ext2Inode} (done : fs.ext2ReadInode mem i = .ok inode) :
    fs.InodeOnDisk i ∧ inode = fs.inode i := by
  rw [ext2ReadInode_eq geometry isInode] at done
  split at done
  next onDisk => exact ⟨onDisk, (Except.ok.inj done).symm⟩
  next => cases done

def IsName (name : List UInt8) : Prop := name ≠ [] ∧ IsString name ∧ 47 ∉ name

instance (name : List UInt8) : Decidable (IsName name) :=
  inferInstanceAs (Decidable (name ≠ [] ∧ 0 ∉ name ∧ 47 ∉ name))

def nameAt (block : Bytes) (p : Nat) : List UInt8 := block.slice (p + 8) (block (p + 6)).toNat

/-- The records of a block from an offset on, with their inode numbers and names.  They fill
the block, and a record in use has a name. -/
inductive Records (block : Bytes) (size : Nat) : Nat → List (Nat × List UInt8) → Prop where
  | nil : Records block size size []
  | cons {p : Nat} {rest : List (Nat × List UInt8)} :
      8 + (block (p + 6)).toNat ≤ block.u16 (p + 4) → p + block.u16 (p + 4) ≤ size →
      (block.u32 p ≠ 0 → IsName (nameAt block p)) →
      Records block size (p + block.u16 (p + 4)) rest →
      Records block size p ((block.u32 p, nameAt block p) :: rest)

/-- The records of a directory, block by block. -/
structure Directory (fs : Ext2Driver) (inode : Ext2Inode)
    (records : List (List (Nat × List UInt8))) : Prop where
  type : inode.type = inodeTypeDirectory
  nonempty : records ≠ []
  direct : records.length ≤ 12
  blocks : ∀ i (inside : i < records.length), inode.blocks i ≠ 0 ∧
    fs.InFileSystem (inode.blocks i) ∧
    Records (fs.block (inode.blocks i)) fs.blockSize 0 records[i]
  behind : ∀ i, records.length ≤ i → i < 15 → inode.blocks i = 0
  unique : ((records.flatten.filter fun entry => entry.1 ≠ 0).map Prod.snd).Nodup
  targets : ∀ entry ∈ records.flatten, entry.1 ≠ 0 → fs.IsInode entry.1

def Lists (fs : Ext2Driver) (i : Nat) (name : List UInt8) (j : Nat) : Prop :=
  ∃ records, fs.Directory (fs.inode i) records ∧ (j, name) ∈ records.flatten ∧ j ≠ 0

inductive Resolves (fs : Ext2Driver) : Nat → List (List UInt8) → Nat → Prop where
  | nil (i : Nat) : Resolves fs i [] i
  | cons {i j k : Nat} {name : List UInt8} {rest : List (List UInt8)} :
      fs.Lists i name j → Resolves fs j rest k → Resolves fs i (name :: rest) k

/-- A well-formed image, of which `ext2_driver_init` has read the root inode. -/
structure WellFormed (fs : Ext2Driver) : Prop where
  geometry : fs.Geometry
  isInode : fs.IsInode 2
  root : fs.rootInode = fs.inode 2
  isDirectory : fs.rootInode.type = inodeTypeDirectory
  directories : ∀ path i, fs.Resolves 2 path i → (fs.inode i).type = inodeTypeDirectory →
    ∃ records, fs.Directory (fs.inode i) records

theorem Records.functional {block : Bytes} {size p : Nat} {l m : List (Nat × List UInt8)}
    (first : Records block size p l) (second : Records block size p m) : l = m := by
  induction first generalizing m with
  | nil =>
    cases second with
    | nil => rfl
    | cons space inside _ _ => omega
  | cons space inside _ _ inductionHypothesis =>
    cases second with
    | nil => omega
    | cons _ _ _ rest => rw [inductionHypothesis rest]

theorem Directory.functional {inode : Ext2Inode} {l m : List (List (Nat × List UInt8))}
    (first : fs.Directory inode l) (second : fs.Directory inode m) : l = m := by
  have length : ∀ {l m}, fs.Directory inode l → fs.Directory inode m → ¬l.length < m.length := by
    intro l m first second shorter
    have small := second.direct
    exact (second.blocks l.length shorter).1 (first.behind l.length (Nat.le_refl _) (by omega))
  have sameLength : l.length = m.length := by
    have notLess := length first second
    have notMore := length second first
    omega
  apply List.ext_getElem sameLength
  intro i insideL insideM
  exact (first.blocks i insideL).2.2.functional (second.blocks i insideM).2.2

theorem Lists.functional {i j k : Nat} {name : List UInt8} (first : fs.Lists i name j)
    (second : fs.Lists i name k) : j = k := by
  obtain ⟨records, directory, memberJ, usedJ⟩ := first
  obtain ⟨records', directory', memberK, usedK⟩ := second
  obtain rfl := directory.functional directory'
  have inJ : (j, name) ∈ records.flatten.filter fun entry => entry.1 ≠ 0 :=
    List.mem_filter.mpr ⟨memberJ, decide_eq_true usedJ⟩
  have inK : (k, name) ∈ records.flatten.filter fun entry => entry.1 ≠ 0 :=
    List.mem_filter.mpr ⟨memberK, decide_eq_true usedK⟩
  have same := List.inj_on_of_nodup_map directory.unique inJ inK rfl
  exact congrArg Prod.fst same

theorem Resolves.functional {i j k : Nat} {path : List (List UInt8)} (first : fs.Resolves i path j)
    (second : fs.Resolves i path k) : j = k := by
  induction first with
  | nil i =>
    cases second
    rfl
  | cons lists _ inductionHypothesis =>
    cases second with
    | cons lists' rest =>
      obtain rfl := lists.functional lists'
      exact inductionHypothesis rest

theorem Resolves.append {i j k : Nat} {path rest : List (List UInt8)}
    (first : fs.Resolves i path j) (second : fs.Resolves j rest k) :
    fs.Resolves i (path ++ rest) k := by
  induction first with
  | nil i => exact second
  | cons lists _ inductionHypothesis => exact .cons lists (inductionHypothesis second)

theorem Resolves.split {i k : Nat} {before after : List (List UInt8)}
    (resolves : fs.Resolves i (before ++ after) k) :
    ∃ j, fs.Resolves i before j ∧ fs.Resolves j after k := by
  induction before generalizing i with
  | nil => exact ⟨i, .nil i, resolves⟩
  | cons name rest inductionHypothesis =>
    cases resolves with
    | cons lists resolves =>
      obtain ⟨j, first, second⟩ := inductionHypothesis resolves
      exact ⟨j, .cons lists first, second⟩

theorem Lists.isInode {i j : Nat} {name : List UInt8} (lists : fs.Lists i name j) :
    fs.IsInode j := by
  obtain ⟨records, directory, member, used⟩ := lists
  exact directory.targets _ member used

theorem Resolves.isInode {i j : Nat} {path : List (List UInt8)} (start : fs.IsInode i)
    (resolves : fs.Resolves i path j) : fs.IsInode j := by
  induction resolves with
  | nil i => exact start
  | cons lists _ inductionHypothesis => exact inductionHypothesis lists.isInode

end SwagOS.Fs.Ext2Driver
