import SwagOS.Fs.Ext2.Image

/-!
# Where inodes are read

`ext2_read_inode` rounds the offset of the inode down to its sector, and takes the position in
it from the index alone, as tables begin with a sector.  Behind the `FSSIZE` sectors of the file
system, which begin at `DEVICE_START`, the disk driver stops the machine.
-/

namespace SwagOS.Fs.Ext2Driver

open SwagOS.Lib SwagOS.Libc SwagOS.Drivers

variable (fs : Ext2Driver) (mem : Ext2Memory)

/-- `ext2_read_inode` with all bytes of the inode, as `memcpy` copies them. -/
def ext2ReadInodeBytes (inodeNum : Nat) : Outcome (List UInt8) := do
  let index := fs.ext2GetInodeBlockGroupIndex inodeNum
  let rawOffset := fs.ext2GetInodeOffset mem inodeNum / 512 * 512
  let b2 ← fs.readDiskSector mem.stack 0 (offsetToSector rawOffset)
  pure (b2.slice (index * fs.inodeSize % 2 ^ 32 % 512) 128)

theorem ext2ReadInode_bytes (inodeNum : Nat) : fs.ext2ReadInode mem inodeNum =
    fs.ext2ReadInodeBytes mem inodeNum >>= fun bytes =>
      pure (Ext2Inode.ofBytes (fun i => bytes.getD i 0) 0) := by
  rw [ext2ReadInode, ext2ReadInodeBytes]
  cases fs.readDiskSector mem.stack 0 _ with
  | error why => rfl
  | ok sector =>
    refine congrArg Except.ok (ofBytes_congr fun i inside => ?_)
    rw [Nat.zero_add, Bytes.slice, List.getD_eq_getElem _ _ (by simpa using inside)]
    simp

def inodeLocation (inodeNum : Nat) : Nat :=
  fs.inodeTable mem ((inodeNum - 1) / fs.inodesPerGroup) * fs.blockSize +
    (inodeNum - 1) % fs.inodesPerGroup * fs.inodeSize

variable {fs mem}

/-- An inode is read by one read of a sector that holds all its bytes.  Behind the end of the
file system the disk driver refuses the sector. -/
theorem ext2ReadInode_location {n : Nat} (blockSize : ∃ k, fs.blockSize = 1024 * 2 ^ k)
    (inodeSize : ∃ k, fs.inodeSize = 128 * 2 ^ k) (positive : 0 < n) (bound : n < 2 ^ 32) :
    (∀ i < 128, offsetToSector (fs.inodeLocation mem n % 2 ^ 32 + i) =
      offsetToSector (fs.inodeLocation mem n % 2 ^ 32)) ∧
    (offsetToSector (fs.inodeLocation mem n % 2 ^ 32) < fssize →
      fs.ext2ReadInodeBytes mem n =
        .ok (Bytes.slice fs.byte (fs.inodeLocation mem n % 2 ^ 32) 128)) ∧
    (deviceStart + fssize ≤ offsetToSector (fs.inodeLocation mem n % 2 ^ 32) →
      fs.ext2ReadInodeBytes mem n = .error (.panic "incorrect blockno")) := by
  obtain ⟨index, computed⟩ := ext2GetInodeOffset_eq fs mem positive bound
  obtain ⟨position, aligned⟩ := inode_position (fs.inodeTable mem ((n - 1) / fs.inodesPerGroup))
    ((n - 1) % fs.inodesPerGroup) blockSize inodeSize
  have location : fs.inodeLocation mem n % 2 ^ 32 = fs.ext2GetInodeOffset mem n := by
    rw [computed, inodeLocation, Nat.mul_comm fs.blockSize]
  rw [← computed, ← index] at position
  rw [← computed] at aligned
  rw [location]
  rw [ext2ReadInodeBytes]
  generalize fs.ext2GetInodeOffset mem n = offset at position aligned ⊢
  have sector : offsetToSector offset = offsetToSector (offset / 512 * 512) := by
    rw [offsetToSector_eq, offsetToSector_eq]
    omega
  refine ⟨?_, ?_, ?_⟩
  · intro i inside
    rw [offsetToSector_eq, offsetToSector_eq]
    omega
  · intro below
    rw [sector] at below
    obtain ⟨b2, done, bytes⟩ := readDiskSector_at mem.stack below
    rw [done, position]
    refine congrArg Except.ok (Bytes.slice_congr fun i inside => ?_)
    exact bytes i (by omega)
  · intro behind
    rw [sector] at behind
    have refused : fssize ≤ offsetToSector (offset / 512 * 512) :=
      (Nat.le_add_left fssize deviceStart).trans behind
    rw [readDiskSector, if_pos refused]
    rfl

def smallDisk (table : Nat) : Ext2Driver where
  disk := fun _ _ => 0
  log2blockSize := 0
  blockSize := 1024
  inodesPerGroup := 8
  inodeSize := 128
  extendedFieldsAvailable := false
  bgdt := [table]
  rootInode := .ofBytes (fun _ => 0) 0

def zeroMemory : Ext2Memory where
  bgdt := fun _ => 0
  stack := fun _ => 0
  directory := fun _ _ => 0
  path := []
  isString := List.not_mem_nil
  file := fun _ => 0
  pointers := fun _ _ => 0
  contents := fun _ _ => 0

theorem smallDisk_sizes (table : Nat) : (∃ k, (smallDisk table).blockSize = 1024 * 2 ^ k) ∧
    ∃ k, (smallDisk table).inodeSize = 128 * 2 ^ k := ⟨⟨0, rfl⟩, ⟨0, rfl⟩⟩

theorem ext2ReadInode_location_second :
    (∀ i < 128, offsetToSector ((smallDisk 5).inodeLocation zeroMemory 2 % 2 ^ 32 + i) =
      offsetToSector ((smallDisk 5).inodeLocation zeroMemory 2 % 2 ^ 32)) ∧
    (smallDisk 5).ext2ReadInodeBytes zeroMemory 2 = .ok (Bytes.slice (smallDisk 5).byte 5248 128) := by
  obtain ⟨together, read, -⟩ := @ext2ReadInode_location (smallDisk 5) zeroMemory 2
    (smallDisk_sizes 5).1 (smallDisk_sizes 5).2 (by decide) (by decide)
  exact ⟨together, read (by decide)⟩

/-- A table in block 65000 lies within 4 GB and behind the `FSSIZE` sectors of the file system,
and no inode of it can be read. -/
theorem ext2ReadInode_refused :
    (smallDisk 65000).inodeLocation zeroMemory 1 + 128 ≤ 2 ^ 32 ∧
      fssize * diskSectorSize ≤ (smallDisk 65000).inodeLocation zeroMemory 1 ∧
      (smallDisk 65000).ext2ReadInodeBytes zeroMemory 1 ≠
        .ok (Bytes.slice (smallDisk 65000).byte
          ((smallDisk 65000).inodeLocation zeroMemory 1) 128) := by
  refine ⟨by decide, by decide, fun done => ?_⟩
  have far : offsetToSector ((smallDisk 65000).ext2GetInodeOffset zeroMemory 1 / 512 * 512) ≥ fssize :=
    by decide
  rw [ext2ReadInodeBytes, readDiskSector, if_pos far] at done
  cases done

end SwagOS.Fs.Ext2Driver
