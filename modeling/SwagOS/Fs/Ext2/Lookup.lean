import SwagOS.Fs.Ext2.Image
import SwagOS.Mem.KernelHeap.Supply

/-!
# Path resolution

The loop over the records of a block ends at the name or at an unused record, and at
nothing else: otherwise it runs into the memory behind the block.  Below the root only the
first block of a directory is read, and once more than there are components, with whatever
string lies behind the copy of the path.

What a path needs of the kernel heap is listed with it: a copy of the path, a buffer for blocks,
the name of every record that the scan comes to, and what `bread` needs for a sector.
-/

namespace SwagOS.Fs.Ext2Driver

open SwagOS.Lib SwagOS.Libc SwagOS.Drivers SwagOS.Mem

variable {fs : Ext2Driver} {mem : Ext2Memory}

def nameUse (block : Bytes) (p : Nat) : HeapUse := .kalloc ((block (p + 6)).toNat + 1)

/-- From an offset on, the records of the block come to one in use with the name, whose inode
is read. -/
inductive Meets (block : Bytes) (size : Nat) (name : List UInt8) :
    Nat → Nat → List HeapUse → Prop where
  | here {p : Nat} : p + 8 + (block (p + 6)).toNat ≤ size → block.u32 p ≠ 0 →
      entryName block p = name → Meets block size name p (block.u32 p) [nameUse block p, .bread]
  | next {p j : Nat} {uses : List HeapUse} : p + 8 + (block (p + 6)).toNat ≤ size →
      block.u32 p ≠ 0 → entryName block p ≠ name →
      Meets block size name (p + block.u16 (p + 4)) j uses →
      Meets block size name p j (nameUse block p :: uses)

/-- From an offset on, the records of the block come to an unused one before the name. -/
inductive Misses (block : Bytes) (size : Nat) (name : List UInt8) :
    Nat → List HeapUse → Prop where
  | here {p : Nat} : p + 4 ≤ size → block.u32 p = 0 → Misses block size name p []
  | next {p : Nat} {uses : List HeapUse} : p + 8 + (block (p + 6)).toNat ≤ size →
      block.u32 p ≠ 0 → entryName block p ≠ name →
      Misses block size name (p + block.u16 (p + 4)) uses →
      Misses block size name p (nameUse block p :: uses)

theorem Meets.used {block : Bytes} {size p j : Nat} {name : List UInt8} {uses : List HeapUse}
    (meets : Meets block size name p j uses) : j ≠ 0 := by
  induction meets with
  | here _ used _ => exact used
  | next _ _ _ _ inductionHypothesis => exact inductionHypothesis

theorem entryName_isString (dir : Bytes) (p : Nat) : IsString (entryName dir p) :=
  takeWhile_isString _

/-- One turn of the loop of `ext2_read_from_directory`. -/
theorem scan_succ {filename : List UInt8} (isString : IsString filename) (dir : Bytes)
    (fuel p : Nat) : fs.ext2ReadFromDirectory mem filename dir (fuel + 1) p =
      if dir.u32 p = 0 then pure 0
      else if filename = entryName dir p then do
        let _ ← fs.ext2ReadInode mem (dir.u32 p)
        pure (dir.u32 p)
      else fs.ext2ReadFromDirectory mem filename dir fuel (p + dir.u16 (p + 4)) := by
  rw [ext2ReadFromDirectory]
  simp only [strcmp_eq_zero isString (entryName_isString dir p)]

section Agree

variable {dir block : Bytes} {size : Nat} (agree : ∀ i < size, dir i = block i)
include agree

theorem agree_u32 {p : Nat} (inside : p + 4 ≤ size) : dir.u32 p = block.u32 p :=
  Bytes.u32_congr fun i below => agree (p + i) (by omega)

theorem agree_size {p : Nat} (inside : p + 8 ≤ size) : dir.u16 (p + 4) = block.u16 (p + 4) :=
  Bytes.u16_congr fun i below => agree (p + 4 + i) (by omega)

theorem agree_name {p : Nat} (inside : p + 8 + (block (p + 6)).toNat ≤ size) :
    entryName dir p = entryName block p := by
  rw [entryName, entryName, agree (p + 6) (by omega)]
  congr 1
  apply Bytes.slice_congr
  intro i below
  exact agree (p + 8 + i) (by omega)

theorem scan_meets {filename : List UInt8} (isString : IsString filename) {p j : Nat}
    {uses : List HeapUse} (meets : Meets block size filename p j uses) :
    (∀ fuel r, fs.ext2ReadFromDirectory mem filename dir fuel p = .ok r →
        r = j ∧ ∃ inode, fs.ext2ReadInode mem j = .ok inode) ∧
      (fs.Geometry → fs.IsInode j → fs.InodeOnDisk j →
        Outcome.Returns (fun fuel => fs.ext2ReadFromDirectory mem filename dir fuel p) j) := by
  induction meets with
  | @here p inside used same =>
    have number := agree_u32 agree (p := p) (by omega)
    have name := agree_name agree inside
    constructor
    · intro fuel r done
      cases fuel with
      | zero => cases done
      | succ fuel =>
        rw [scan_succ isString, number, name, if_neg used, if_pos same.symm] at done
        obtain ⟨inode, read, result⟩ := Outcome.bind_ok.mp done
        exact ⟨(Outcome.pure_ok.mp result).symm, inode, read⟩
    · intro geometry isInode onDisk
      apply Outcome.Returns.succ
      simp only [scan_succ isString, number, name, if_neg used, if_pos same.symm,
        ext2ReadInode_ok geometry isInode onDisk]
      exact .const rfl
  | @next p j uses inside used other _ inductionHypothesis =>
    have number := agree_u32 agree (p := p) (by omega)
    have length := agree_size agree (p := p) (by omega)
    have name := agree_name agree inside
    obtain ⟨only, returns⟩ := inductionHypothesis
    constructor
    · intro fuel r done
      cases fuel with
      | zero => cases done
      | succ fuel =>
        rw [scan_succ isString, number, name, if_neg used, if_neg (Ne.symm other), length] at done
        exact only fuel r done
    · intro geometry isInode onDisk
      apply Outcome.Returns.succ
      simp only [scan_succ isString, number, name, if_neg used, if_neg (Ne.symm other), length]
      exact returns geometry isInode onDisk

/-- What the loop returns for a name that the block's records do not come to. -/
theorem scan_misses {filename : List UInt8} (isString : IsString filename) {p : Nat}
    {uses : List HeapUse} (misses : Misses block size filename p uses) :
    (∀ fuel r, fs.ext2ReadFromDirectory mem filename dir fuel p = .ok r → r = 0) ∧
      Outcome.Returns (fun fuel => fs.ext2ReadFromDirectory mem filename dir fuel p) 0 := by
  induction misses with
  | @here p inside unused =>
    have number := agree_u32 agree inside
    constructor
    · intro fuel r done
      cases fuel with
      | zero => cases done
      | succ fuel =>
        rw [scan_succ isString, number, if_pos unused] at done
        exact (Outcome.pure_ok.mp done).symm
    · apply Outcome.Returns.succ
      simp only [scan_succ isString, number, if_pos unused]
      exact .const rfl
  | @next p uses inside used other _ inductionHypothesis =>
    have number := agree_u32 agree (p := p) (by omega)
    have length := agree_size agree (p := p) (by omega)
    have name := agree_name agree inside
    obtain ⟨only, returns⟩ := inductionHypothesis
    constructor
    · intro fuel r done
      cases fuel with
      | zero => cases done
      | succ fuel =>
        rw [scan_succ isString, number, name, if_neg used, if_neg (Ne.symm other), length] at done
        exact only fuel r done
    · apply Outcome.Returns.succ
      simp only [scan_succ isString, number, name, if_neg used, if_neg (Ne.symm other), length]
      exact returns

end Agree

theorem scan_long {filename : List UInt8} (isString : IsString filename)
    (long : 255 < filename.length) (dir : Bytes) (fuel p r : Nat)
    (done : fs.ext2ReadFromDirectory mem filename dir fuel p = .ok r) : r = 0 := by
  induction fuel generalizing p with
  | zero => cases done
  | succ fuel inductionHypothesis =>
    rw [scan_succ isString] at done
    split at done
    · exact (Outcome.pure_ok.mp done).symm
    · have other : filename ≠ entryName dir p := by
        intro same
        have short : (entryName dir p).length ≤ (dir (p + 6)).toNat := by
          have sublist := (List.takeWhile_sublist (· != 0)
            (l := dir.slice (p + 8) (dir (p + 6)).toNat)).length_le
          rwa [Bytes.length_slice] at sublist
        have small := (dir (p + 6)).toNat_lt
        rw [same] at long
        omega
      rw [if_neg other] at done
      exact inductionHypothesis _ done

theorem entryName_eq {block : Bytes} {p : Nat} (isString : IsString (nameAt block p)) :
    entryName block p = nameAt block p :=
  isString.takeWhile

/-- A record that the scan comes to is a record of the directory. -/
theorem Meets.listed {block : Bytes} {size p j : Nat} {name : List UInt8} {uses : List HeapUse}
    {records : List (Nat × List UInt8)} (all : Records block size p records)
    (meets : Meets block size name p j uses) : (j, name) ∈ records := by
  induction all generalizing uses with
  | nil =>
    cases meets with
    | here inside _ _ => omega
    | next inside _ _ _ => omega
  | @cons p rest _ _ isName _ inductionHypothesis =>
    cases meets with
    | here _ used same =>
      rw [entryName_eq (isName used).2.1] at same
      rw [← same]
      exact List.mem_cons_self
    | next _ _ _ later => exact List.mem_cons_of_mem _ (inductionHypothesis later)

def Hangs (dir : Bytes) (size : Nat) : Prop :=
  dir.u32 size ≠ 0 ∧ dir.u16 (size + 4) = 0 ∧ dir (size + 6) = 0

theorem scan_hangs {dir : Bytes} {size : Nat} (hangs : Hangs dir size) {filename : List UInt8}
    (isName : IsName filename) (fuel r : Nat) :
    fs.ext2ReadFromDirectory mem filename dir fuel size ≠ .ok r := by
  obtain ⟨used, same, nameless⟩ := hangs
  have other : filename ≠ entryName dir size := by
    rw [entryName, nameless]
    exact isName.1
  induction fuel with
  | zero => exact fun done => by cases done
  | succ fuel inductionHypothesis =>
    rw [scan_succ isName.2.1, if_neg used, if_neg other, same]
    exact inductionHypothesis

/-- The scan of a directory's block comes to the name, to an unused record, or to the end. -/
theorem Records.scan {block : Bytes} {size p : Nat} {records : List (Nat × List UInt8)}
    (all : Records block size p records) {name : List UInt8} (isName : IsName name) :
    (∃ j uses, Meets block size name p j uses) ∨ (∃ uses, Misses block size name p uses) ∨
      ∀ dir : Bytes, (∀ i < size, dir i = block i) → Hangs dir size →
        ∀ fuel r, fs.ext2ReadFromDirectory mem name dir fuel p ≠ .ok r := by
  induction all with
  | nil => exact .inr (.inr fun dir _ hangs => scan_hangs hangs isName)
  | @cons p rest space inside isName' _ inductionHypothesis =>
    have whole : p + 8 + (block (p + 6)).toNat ≤ size := by omega
    by_cases used : block.u32 p = 0
    · exact .inr (.inl ⟨_, .here (by omega) used⟩)
    · by_cases same : entryName block p = name
      · exact .inl ⟨_, _, .here whole used same⟩
      · rcases inductionHypothesis with ⟨j, uses, meets⟩ | ⟨uses, misses⟩ | hangs
        · exact .inl ⟨j, _, .next whole used same meets⟩
        · exact .inr (.inl ⟨_, .next whole used same misses⟩)
        · right; right
          intro dir agree hanging fuel r done
          have number := agree_u32 agree (p := p) (by omega)
          have length := agree_size agree (p := p) (by omega)
          have nameOf := agree_name agree whole
          cases fuel with
          | zero => cases done
          | succ fuel =>
            rw [scan_succ isName.2.1, number, nameOf, if_neg used, if_neg (Ne.symm same),
              length] at done
            exact hangs dir agree hanging fuel r done

theorem memcpy_block (out block : Bytes) (size : Nat) :
    ∀ i < size, out.memcpy 0 block size i = block i := by
  intro i below
  rw [Bytes.memcpy_inside (Nat.zero_le i) (by omega), Nat.sub_zero]

def sectorUses (fs : Ext2Driver) : List HeapUse :=
  List.replicate (fs.blockSize / diskSectorSize) .bread

/-- Block by block, the scan of the root directory comes to the name or to an unused record;
it gives the inode number, or 0 if no block has the name.  The disk driver reads all that the
scan comes to. -/
inductive RootScan (fs : Ext2Driver) (name : List UInt8) :
    List Nat → Nat → List HeapUse → Prop where
  | nil : RootScan fs name [] 0 []
  | behind {i : Nat} {rest : List Nat} : fs.rootInode.blocks i = 0 →
      RootScan fs name (i :: rest) 0 []
  | found {i j : Nat} {rest : List Nat} {uses : List HeapUse} : fs.rootInode.blocks i ≠ 0 →
      fs.OnDisk (fs.rootInode.blocks i) →
      Meets (fs.block (fs.rootInode.blocks i)) fs.blockSize name 0 j uses → fs.InodeOnDisk j →
      RootScan fs name (i :: rest) j (fs.sectorUses ++ uses)
  | missed {i j : Nat} {rest : List Nat} {uses later : List HeapUse} :
      fs.rootInode.blocks i ≠ 0 → fs.OnDisk (fs.rootInode.blocks i) →
      Misses (fs.block (fs.rootInode.blocks i)) fs.blockSize name 0 uses →
      RootScan fs name rest j later →
      RootScan fs name (i :: rest) j (fs.sectorUses ++ (uses ++ later))

theorem WellFormed.rootDirectory (wellFormed : fs.WellFormed) :
    ∃ records, fs.Directory fs.rootInode records := by
  rw [wellFormed.root]
  apply wellFormed.directories [] 2 (.nil 2)
  rw [← wellFormed.root]
  exact wellFormed.isDirectory

theorem Directory.block {inode : Ext2Inode} {records : List (List (Nat × List UInt8))}
    (directory : fs.Directory inode records) {i : Nat} (direct : i < 12)
    (present : inode.blocks i ≠ 0) : ∃ inside : i < records.length,
      fs.InFileSystem (inode.blocks i) ∧
      Records (fs.block (inode.blocks i)) fs.blockSize 0 records[i] := by
  have inside : i < records.length := by
    apply Nat.lt_of_not_le
    intro behind
    exact present (directory.behind i behind (by omega))
  exact ⟨inside, (directory.blocks i inside).2⟩

/-- What the scan finds is an entry of the directory. -/
theorem RootScan.lists (wellFormed : fs.WellFormed) {name : List UInt8} {l : List Nat} {j : Nat}
    {uses : List HeapUse} (direct : ∀ i ∈ l, i < 12) (scan : fs.RootScan name l j uses)
    (found : j ≠ 0) : fs.Lists 2 name j := by
  obtain ⟨records, directory⟩ := wellFormed.rootDirectory
  induction scan with
  | nil => exact absurd rfl found
  | behind _ => exact absurd rfl found
  | @found i j rest uses present _ meets _ =>
    obtain ⟨inside, -, all⟩ := directory.block (direct i List.mem_cons_self) present
    refine ⟨records, wellFormed.root ▸ directory, ?_, found⟩
    exact List.mem_flatten.mpr ⟨_, List.getElem_mem inside, meets.listed all⟩
  | missed _ _ _ _ inductionHypothesis =>
    exact inductionHypothesis (fun i member => direct i (List.mem_cons_of_mem _ member)) found

theorem readRootBlocks_returns (mem : Ext2Memory) (wellFormed : fs.WellFormed) {name : List UInt8}
    (isName : IsName name) {l : List Nat} {j : Nat} {uses : List HeapUse}
    (direct : ∀ i ∈ l, i < 12) (scan : fs.RootScan name l j uses) :
    Outcome.Returns (fun fuel => fs.readRootBlocks mem fuel name l) j := by
  have isInode : j ≠ 0 → fs.IsInode j := fun found => (scan.lists wellFormed direct found).isInode
  induction scan with
  | nil => exact .const rfl
  | behind absent =>
    simp only [readRootBlocks, if_pos absent]
    exact .const rfl
  | @found i j rest uses present onDisk meets target =>
    obtain ⟨-, returns⟩ := scan_meets
      (memcpy_block (mem.directory i) _ fs.blockSize) isName.2.1 meets
    simp only [readRootBlocks, if_neg present, ext2ReadBlock_ok wellFormed.geometry onDisk]
    apply Outcome.Returns.bind (.const rfl)
    apply Outcome.Returns.bind (returns wellFormed.geometry (isInode meets.used) target)
    simp only [if_pos meets.used]
    exact .const rfl
  | @missed i j rest uses later present onDisk misses _ inductionHypothesis =>
    obtain ⟨-, returns⟩ := scan_misses
      (memcpy_block (mem.directory i) _ fs.blockSize) isName.2.1 misses
    simp only [readRootBlocks, if_neg present, ext2ReadBlock_ok wellFormed.geometry onDisk]
    apply Outcome.Returns.bind (.const rfl)
    apply Outcome.Returns.bind returns
    simp only [ne_eq, not_true_eq_false, if_false]
    exact inductionHypothesis (fun i member => direct i (List.mem_cons_of_mem _ member)) isInode

def lasso : Bytes := fun i => if i = 0 then 1 else 0

/-- Memory in which nothing goes right by chance: descriptors that point behind the disk,
records that lead back to themselves, and a string that is no name. -/
def hostile (fs : Ext2Driver) : Ext2Memory where
  bgdt := fun _ => 2 ^ 30 / fs.blockSize + 1
  stack := fun _ => 0
  directory := fun _ i => lasso (i - fs.blockSize)
  path := List.replicate 256 1
  isString := fun zero => absurd (List.eq_of_mem_replicate zero) (by decide)
  file := fun _ => 0
  pointers := fun _ _ => 0
  contents := fun _ _ => 0

theorem hostile_hangs (block : Bytes) (i : Nat) :
    Hangs ((fs.hostile.directory i).memcpy 0 block fs.blockSize) fs.blockSize := by
  have behind : ∀ k, (fs.hostile.directory i).memcpy 0 block fs.blockSize (fs.blockSize + k) =
      lasso k := by
    intro k
    rw [Bytes.memcpy_outside (.inr (by omega))]
    exact congrArg lasso (Nat.add_sub_cancel_left fs.blockSize k)
  have number := Bytes.u32_congr (q := 0) fun k _ => (behind k).trans
    (congrArg lasso (Nat.zero_add k).symm)
  have length := Bytes.u16_congr (p := fs.blockSize + 4) (q := 4) fun k _ =>
    (congrArg _ (Nat.add_assoc fs.blockSize 4 k)).trans (behind (4 + k))
  refine ⟨?_, ?_, behind 6⟩
  · rw [number]
    decide
  · rw [length]
    decide

theorem hostile_zero (wellFormed : fs.WellFormed) (inode : Ext2Inode) :
    fs.ext2ReadInode fs.hostile 0 ≠ .ok inode := by
  have geometry := wellFormed.geometry
  obtain ⟨records, directory⟩ := wellFormed.rootDirectory
  have blockSize : fs.blockSize ≤ fileSystemSize := by
    obtain ⟨-, inside, -⟩ := directory.blocks 0 (List.length_pos_iff.mpr directory.nonempty)
    exact (Nat.le_mul_of_pos_left fs.blockSize (Nat.succ_pos _)).trans inside
  have positive : 0 < fs.blockSize := by
    rw [geometry.blockSize]
    exact Nat.mul_pos (by omega) (Nat.two_pow_pos _)
  have index : inodeIndex 0 = 2 ^ 32 - 1 := rfl
  have behind : fs.bgdt.length ≤ inodeIndex 0 / fs.inodesPerGroup := by
    rw [Nat.le_div_iff_mul_le geometry.inodesPerGroup, index]
    exact Nat.le_sub_one_of_lt geometry.inodes
  have table : fs.inodeTable fs.hostile (inodeIndex 0 / fs.inodesPerGroup) =
      2 ^ 30 / fs.blockSize + 1 := List.getD_eq_default _ _ behind
  have inTable : inodeIndex 0 % fs.inodesPerGroup * fs.inodeSize ≤ fileSystemSize := by
    have group := wellFormed.isInode.group
    have fits := geometry.tables _ (List.getElem_mem group)
    have small := Nat.mul_le_mul_right fs.inodeSize
      (Nat.le_of_lt (Nat.mod_lt (inodeIndex 0) geometry.inodesPerGroup))
    omega
  have low : 2 ^ 30 ≤ fs.blockSize * (2 ^ 30 / fs.blockSize + 1) :=
    Nat.le_of_lt (Nat.lt_mul_div_succ _ positive)
  have high : fs.blockSize * (2 ^ 30 / fs.blockSize + 1) ≤ 2 ^ 30 + fileSystemSize := by
    rw [Nat.mul_succ]
    exact Nat.add_le_add (Nat.mul_div_le _ _) blockSize
  have far : fssize ≤ offsetToSector (fs.ext2GetInodeOffset fs.hostile 0 / 512 * 512) := by
    rw [ext2GetInodeOffset, ext2GetInodeBlockGroup, ext2GetInodeBlockGroupIndex, table,
      offsetToSector_eq, fssize]
    rw [fileSystemSize_eq] at inTable high
    omega
  intro done
  rw [ext2ReadInode, readDiskSector, if_pos far] at done
  cases done

theorem rootScan_of_hostile (wellFormed : fs.WellFormed) {name : List UInt8}
    (isName : IsName name) {l : List Nat} {j fuel : Nat} (direct : ∀ i ∈ l, i < 12)
    (done : fs.readRootBlocks fs.hostile fuel name l = .ok j) :
    ∃ uses, fs.RootScan name l j uses := by
  have geometry := wellFormed.geometry
  obtain ⟨records, directory⟩ := wellFormed.rootDirectory
  induction l with
  | nil =>
    obtain rfl := Outcome.pure_ok.mp done
    exact ⟨_, .nil⟩
  | cons i rest inductionHypothesis =>
    rw [readRootBlocks] at done
    by_cases present : fs.rootInode.blocks i = 0
    · rw [if_pos present] at done
      obtain rfl := Outcome.pure_ok.mp done
      exact ⟨_, .behind present⟩
    · obtain ⟨number, inside, all⟩ := directory.block (direct i List.mem_cons_self) present
      rw [if_neg present] at done
      obtain ⟨buf, read, done⟩ := Outcome.bind_ok.mp done
      obtain ⟨onDisk, rfl⟩ := ext2ReadBlock_done geometry inside read
      obtain ⟨r, scanned, done⟩ := Outcome.bind_ok.mp done
      have agree := memcpy_block (fs.hostile.directory i) (fs.block (fs.rootInode.blocks i))
        fs.blockSize
      rcases all.scan isName with ⟨k, uses, meets⟩ | ⟨uses, misses⟩ | hangs
      · obtain ⟨rfl, inode, target⟩ := (scan_meets agree isName.2.1 meets).1 fuel r scanned
        rw [if_pos meets.used] at done
        obtain rfl := Outcome.pure_ok.mp done
        have entry := List.mem_flatten.mpr ⟨_, List.getElem_mem number, meets.listed all⟩
        have isInode := directory.targets _ entry meets.used
        exact ⟨_, .found present onDisk meets (ext2ReadInode_done geometry isInode target).1⟩
      · obtain rfl := (scan_misses agree isName.2.1 misses).1 fuel r scanned
        rw [if_neg (by simp)] at done
        obtain ⟨later, scan⟩ :=
          inductionHypothesis (fun i member => direct i (List.mem_cons_of_mem _ member)) done
        exact ⟨_, .missed present onDisk misses scan⟩
      · exact absurd scanned (hangs _ agree (hostile_hangs _ i) fuel r)

def absolute (path : List (List UInt8)) : List UInt8 := path.flatMap (47 :: ·)

theorem strings_of_parts (before : List UInt8) {path : List (List UInt8)}
    (names : ∀ name ∈ path, IsName name) {last : List UInt8} (isString : IsString last) :
    Strings (before ++ (path.flatMap (0 :: ·) ++ 0 :: (last ++ [0]))) (before.length + 1)
      (path ++ [last]) := by
  induction path generalizing before with
  | nil =>
    have here := cstring_append (before ++ [0]) [] isString
    rw [List.length_append, List.append_assoc] at here
    exact ⟨here, trivial⟩
  | cons name rest inductionHypothesis =>
    have isName := names name List.mem_cons_self
    have later := inductionHypothesis (before ++ 0 :: name) fun name member =>
      names name (List.mem_cons_of_mem _ member)
    -- What follows the component starts with a zero byte.
    obtain ⟨tail, zero⟩ : ∃ tail, rest.flatMap (0 :: ·) ++ 0 :: (last ++ [0]) = 0 :: tail := by
      cases rest with
      | nil => exact ⟨_, rfl⟩
      | cons next more => exact ⟨_, rfl⟩
    have here : cstring (before ++ ((name :: rest).flatMap (0 :: ·) ++ 0 :: (last ++ [0])))
        (before.length + 1) = name := by
      have found := cstring_append (before ++ [0]) tail isName.2.1
      rw [List.length_append, List.append_assoc] at found
      rw [List.flatMap_cons, List.append_assoc, zero]
      exact found
    refine ⟨here, ?_⟩
    rw [strlen, here]
    rw [List.length_append, List.length_cons, List.append_assoc] at later
    have position : before.length + 1 + name.length + 1 = before.length + (name.length + 1) + 1 := by
      omega
    rw [List.flatMap_cons, List.append_assoc, position]
    exact later

theorem IsName.noSlash {name : List UInt8} (isName : IsName name) :
    (name.map fun c => if c = 47 then 0 else c) = name ∧ name.count 47 = 0 := by
  constructor
  · calc name.map (fun c => if c = 47 then 0 else c)
        = name.map id := by
          apply List.map_congr_left
          intro c inside
          have other : c ≠ 47 := fun slash => isName.2.2 (slash ▸ inside)
          exact if_neg other
      _ = name := List.map_id name
  · exact List.count_eq_zero.mpr isName.2.2

/-- Splitting the path leaves its components, and counts one part more. -/
theorem strsplit_absolute {path : List (List UInt8)} (names : ∀ name ∈ path, IsName name) :
    strsplit (absolute path) 47 = (path.flatMap (0 :: ·), path.length + 1) := by
  have parts : (absolute path).map (fun c => if c = 47 then 0 else c) = path.flatMap (0 :: ·) ∧
      (absolute path).count 47 = path.length := by
    induction path with
    | nil => exact ⟨rfl, rfl⟩
    | cons name rest inductionHypothesis =>
      obtain ⟨replaced, counted⟩ := inductionHypothesis fun name member =>
        names name (List.mem_cons_of_mem _ member)
      obtain ⟨same, noSlash⟩ := (names name List.mem_cons_self).noSlash
      rw [absolute] at replaced counted ⊢
      constructor
      · rw [List.flatMap_cons, List.map_append, replaced, List.map_cons, same]
        rfl
      · rw [List.flatMap_cons, List.count_append, counted, List.count_cons_self, noSlash,
          List.length_cons]
        omega
  rw [strsplit, parts.1, parts.2]

/-- Component by component, the scan of the first block of a directory comes to the name. -/
inductive Follows (fs : Ext2Driver) : Nat → List (List UInt8) → Nat → List HeapUse → Prop where
  | nil (i : Nat) : Follows fs i [] i []
  | cons {i j k : Nat} {name : List UInt8} {rest : List (List UInt8)}
      {uses later : List HeapUse} : (fs.inode i).type = inodeTypeDirectory →
      fs.OnDisk ((fs.inode i).blocks 0) →
      Meets (fs.block ((fs.inode i).blocks 0)) fs.blockSize name 0 j uses → fs.InodeOnDisk j →
      Follows fs j rest k later →
      Follows fs i (name :: rest) k (.bread :: (fs.sectorUses ++ (uses ++ later)))

/-- The scan of the inode's first block comes to an unused record before the name. -/
structure MissesFirst (fs : Ext2Driver) (i : Nat) (name : List UInt8) (uses : List HeapUse) :
    Prop where
  present : (fs.inode i).blocks 0 ≠ 0
  onDisk : fs.OnDisk ((fs.inode i).blocks 0)
  misses : Misses (fs.block ((fs.inode i).blocks 0)) fs.blockSize name 0 uses

/-- The first block of a directory that the path leads to. -/
theorem WellFormed.firstBlock (wellFormed : fs.WellFormed) {path : List (List UInt8)} {i : Nat}
    (resolves : fs.Resolves 2 path i) (type : (fs.inode i).type = inodeTypeDirectory) :
    ∃ records first more, fs.Directory (fs.inode i) records ∧ records = first :: more ∧
      (fs.inode i).blocks 0 ≠ 0 ∧ fs.InFileSystem ((fs.inode i).blocks 0) ∧
      Records (fs.block ((fs.inode i).blocks 0)) fs.blockSize 0 first := by
  obtain ⟨records, directory⟩ := wellFormed.directories path i resolves type
  cases records with
  | nil => exact absurd rfl directory.nonempty
  | cons first more =>
    exact ⟨_, first, more, directory, rfl, directory.blocks 0 (Nat.succ_pos _)⟩

theorem WellFormed.lists (wellFormed : fs.WellFormed) {path : List (List UInt8)} {i j : Nat}
    {name : List UInt8} {uses : List HeapUse} (resolves : fs.Resolves 2 path i)
    (type : (fs.inode i).type = inodeTypeDirectory)
    (meets : Meets (fs.block ((fs.inode i).blocks 0)) fs.blockSize name 0 j uses) :
    fs.Lists i name j := by
  obtain ⟨records, first, more, directory, rfl, -, -, all⟩ := wellFormed.firstBlock resolves type
  refine ⟨_, directory, ?_, meets.used⟩
  exact List.mem_flatten.mpr ⟨first, List.mem_cons_self, meets.listed all⟩

theorem Follows.resolves (wellFormed : fs.WellFormed) {path rest : List (List UInt8)} {i k : Nat}
    {uses : List HeapUse} (start : fs.Resolves 2 path i) (follows : fs.Follows i rest k uses) :
    fs.Resolves i rest k := by
  induction follows generalizing path with
  | nil i => exact .nil i
  | cons type _ meets _ _ inductionHypothesis =>
    have lists := wellFormed.lists start type meets
    exact .cons lists (inductionHypothesis (start.append (.cons lists (.nil _))))

theorem descend_block (wellFormed : fs.WellFormed) {i : Nat} (isInode : fs.IsInode i)
    (target : fs.InodeOnDisk i) (present : (fs.inode i).blocks 0 ≠ 0)
    (onDisk : fs.OnDisk ((fs.inode i).blocks 0)) (fuel : Nat) (buffer : List UInt8)
    (dirDepth p : Nat) :
    fs.descend mem fuel buffer (dirDepth + 1) p i =
      (fs.ext2ReadFromDirectory mem (cstring buffer p)
        ((mem.directory (12 + dirDepth)).memcpy 0 (fs.block ((fs.inode i).blocks 0)) fs.blockSize)
        fuel 0 >>= fun tmpInodeNum => if tmpInodeNum ≠ 0 then
          fs.descend mem fuel buffer dirDepth (p + strlen buffer p + 1) tmpInodeNum
        else pure none) := by
  rw [descend, ext2ReadInode_ok wellFormed.geometry isInode target]
  simp only [Except.bind, bind, if_neg present, ext2ReadBlock_ok wellFormed.geometry onDisk]

theorem descend_empty (wellFormed : fs.WellFormed) {i : Nat} (isInode : fs.IsInode i)
    (target : fs.InodeOnDisk i) (absent : (fs.inode i).blocks 0 = 0) (fuel : Nat)
    (buffer : List UInt8) (dirDepth p : Nat) :
    fs.descend mem fuel buffer dirDepth p i = .ok (some i) := by
  induction dirDepth generalizing p with
  | zero => rfl
  | succ dirDepth inductionHypothesis =>
    rw [descend, ext2ReadInode_ok wellFormed.geometry isInode target]
    refine Outcome.bind_ok.mpr ⟨_, rfl, ?_⟩
    rw [if_pos absent]
    exact inductionHypothesis _

theorem descend_meets (wellFormed : fs.WellFormed) {path : List (List UInt8)} {i j : Nat}
    {name buffer : List UInt8} {p dirDepth : Nat} {result : Option Nat} {uses : List HeapUse}
    (resolves : fs.Resolves 2 path i) (source : fs.InodeOnDisk i)
    (type : (fs.inode i).type = inodeTypeDirectory) (onDisk : fs.OnDisk ((fs.inode i).blocks 0))
    (isName : IsName name) (here : cstring buffer p = name)
    (meets : Meets (fs.block ((fs.inode i).blocks 0)) fs.blockSize name 0 j uses)
    (target : fs.InodeOnDisk j) (rest : Outcome.Returns
      (fun fuel => fs.descend mem fuel buffer dirDepth (p + strlen buffer p + 1) j) result) :
    Outcome.Returns (fun fuel => fs.descend mem fuel buffer (dirDepth + 1) p i) result := by
  obtain ⟨-, -, -, -, -, present, -, -⟩ := wellFormed.firstBlock resolves type
  have isInode := (wellFormed.lists resolves type meets).isInode
  simp only [descend_block wellFormed (resolves.isInode wellFormed.isInode) source present onDisk,
    here]
  apply Outcome.Returns.bind ((scan_meets (memcpy_block _ _ fs.blockSize) isName.2.1 meets).2
    wellFormed.geometry isInode target)
  simp only [if_pos meets.used]
  exact rest

theorem descend_misses (wellFormed : fs.WellFormed) {i : Nat} (isInode : fs.IsInode i)
    (target : fs.InodeOnDisk i) {name buffer : List UInt8} {p dirDepth : Nat} {uses : List HeapUse}
    (isString : IsString name) (here : cstring buffer p = name)
    (first : fs.MissesFirst i name uses) :
    (∀ fuel result, fs.descend mem fuel buffer (dirDepth + 1) p i = .ok result → result = none) ∧
      Outcome.Returns (fun fuel => fs.descend mem fuel buffer (dirDepth + 1) p i) none := by
  have agree := memcpy_block (mem.directory (12 + dirDepth)) (fs.block ((fs.inode i).blocks 0))
    fs.blockSize
  simp only [descend_block wellFormed isInode target first.present first.onDisk, here]
  constructor
  · intro fuel result done
    obtain ⟨r, scanned, done⟩ := Outcome.bind_ok.mp done
    obtain rfl := (scan_misses agree isString first.misses).1 fuel r scanned
    exact (Outcome.pure_ok.mp done).symm
  · apply Outcome.Returns.bind (scan_misses agree isString first.misses).2
    simp only [ne_eq, not_true_eq_false, if_false]
    exact .const rfl

theorem descend_found (mem : Ext2Memory) (wellFormed : fs.WellFormed)
    {path rest : List (List UInt8)} {i k : Nat} {uses : List HeapUse}
    (names : ∀ name ∈ rest, IsName name) (resolves : fs.Resolves 2 path i)
    (target : fs.InodeOnDisk i) (follows : fs.Follows i rest k uses)
    (empty : (fs.inode k).blocks 0 = 0) {buffer : List UInt8} {p : Nat}
    {behind : List (List UInt8)} (strings : Strings buffer p (rest ++ behind)) :
    Outcome.Returns (fun fuel => fs.descend mem fuel buffer (rest.length + 1) p i) (some k) := by
  induction follows generalizing path p with
  | nil i =>
    have isInode := resolves.isInode wellFormed.isInode
    exact ⟨0, fun fuel _ => descend_empty wellFormed isInode target empty fuel buffer _ p⟩
  | @cons i j k name rest uses later type onDisk meets next _ inductionHypothesis =>
    obtain ⟨here, strings⟩ := strings
    apply descend_meets wellFormed resolves target type onDisk (names name List.mem_cons_self) here
      meets next
    apply inductionHypothesis
    · exact fun name member => names name (List.mem_cons_of_mem _ member)
    · exact resolves.append (.cons (wellFormed.lists resolves type meets) (.nil j))
    · exact next
    · exact empty
    · exact strings

theorem descend_stops (mem : Ext2Memory) (wellFormed : fs.WellFormed)
    {path before after : List (List UInt8)} {name : List UInt8} {i k : Nat}
    {uses missUses : List HeapUse} (names : ∀ part ∈ before ++ name :: after, IsName part)
    (resolves : fs.Resolves 2 path i) (target : fs.InodeOnDisk i)
    (follows : fs.Follows i before k uses)
    (first : fs.MissesFirst k name missUses) {buffer : List UInt8} {p : Nat}
    {behind : List (List UInt8)} (strings : Strings buffer p ((before ++ name :: after) ++ behind)) :
    Outcome.Returns
      (fun fuel => fs.descend mem fuel buffer ((before ++ name :: after).length + 1) p i) none := by
  induction follows generalizing path p with
  | nil i =>
    exact (descend_misses wellFormed (resolves.isInode wellFormed.isInode) target
      (names name List.mem_cons_self).2.1 strings.1 first).2
  | @cons i j k part rest uses later type onDisk meets next _ inductionHypothesis =>
    obtain ⟨here, strings⟩ := strings
    apply descend_meets wellFormed resolves target type onDisk (names part List.mem_cons_self) here
      meets next
    apply inductionHypothesis
    · exact fun part member => names part (List.mem_cons_of_mem _ member)
    · exact resolves.append (.cons (wellFormed.lists resolves type meets) (.nil j))
    · exact next
    · exact first
    · exact strings

inductive Descent (fs : Ext2Driver) (i : Nat) (rest : List (List UInt8)) : Option Nat → Prop where
  | found {k : Nat} {uses : List HeapUse} : fs.Follows i rest k uses →
      (fs.inode k).blocks 0 = 0 → Descent fs i rest (some k)
  | stopped {before after : List (List UInt8)} {name : List UInt8} {k : Nat}
      {uses missUses : List HeapUse} : rest = before ++ name :: after →
      fs.Follows i before k uses → fs.MissesFirst k name missUses → Descent fs i rest none
  /-- The first block of the last inode is taken for a directory. -/
  | last {k : Nat} {uses : List HeapUse} : fs.Follows i rest k uses → Descent fs i rest none
  /-- A file without blocks is taken for the directory and for what is in it. -/
  | stuck {before after : List (List UInt8)} {name : List UInt8} {k : Nat} {uses : List HeapUse} :
      rest = before ++ name :: after → fs.Follows i before k uses →
      (fs.inode k).type ≠ inodeTypeDirectory → Descent fs i rest (some k)

theorem Descent.cons {i j : Nat} {name : List UInt8} {rest : List (List UInt8)}
    {result : Option Nat} {uses : List HeapUse} (type : (fs.inode i).type = inodeTypeDirectory)
    (onDisk : fs.OnDisk ((fs.inode i).blocks 0))
    (meets : Meets (fs.block ((fs.inode i).blocks 0)) fs.blockSize name 0 j uses)
    (target : fs.InodeOnDisk j) (descent : fs.Descent j rest result) :
    fs.Descent i (name :: rest) result := by
  cases descent with
  | found follows empty => exact .found (.cons type onDisk meets target follows) empty
  | stopped split follows first =>
    exact .stopped (congrArg (name :: ·) split) (.cons type onDisk meets target follows) first
  | last follows => exact .last (.cons type onDisk meets target follows)
  | stuck split follows notDirectory =>
    exact .stuck (congrArg (name :: ·) split) (.cons type onDisk meets target follows) notDirectory

/-- What is no directory has no blocks, or a first one that the disk driver refuses, or reads as
a directory without the next component. -/
def NoMimics (fs : Ext2Driver) (i : Nat) (path : List (List UInt8)) : Prop :=
  ∀ before name after k, path = before ++ name :: after → fs.Resolves i before k →
    (fs.inode k).type ≠ inodeTypeDirectory → (fs.inode k).blocks 0 = 0 ∨
      (fs.InFileSystem ((fs.inode k).blocks 0) ∧ ¬fs.OnDisk ((fs.inode k).blocks 0)) ∨
      ∃ uses, fs.MissesFirst k name uses

theorem NoMimics.tail {i j : Nat} {name : List UInt8} {rest : List (List UInt8)}
    (lists : fs.Lists i name j) (noMimics : fs.NoMimics i (name :: rest)) :
    fs.NoMimics j rest := by
  intro before part after k split resolves
  exact noMimics (name :: before) part after k (congrArg (name :: ·) split) (.cons lists resolves)

theorem descend_reads (wellFormed : fs.WellFormed) {i : Nat} (isInode : fs.IsInode i)
    (present : (fs.inode i).blocks 0 ≠ 0) {fuel dirDepth p : Nat} {buffer : List UInt8}
    {result : Option Nat}
    (done : fs.descend mem fuel buffer (dirDepth + 1) p i = .ok result) :
    fs.InodeOnDisk i ∧ (fs.InFileSystem ((fs.inode i).blocks 0) →
      fs.OnDisk ((fs.inode i).blocks 0)) := by
  rw [descend] at done
  obtain ⟨_, read, done⟩ := Outcome.bind_ok.mp done
  obtain ⟨target, rfl⟩ := ext2ReadInode_done wellFormed.geometry isInode read
  rw [if_neg present] at done
  obtain ⟨buf, read, -⟩ := Outcome.bind_ok.mp done
  exact ⟨target, fun inside => (ext2ReadBlock_done wellFormed.geometry inside read).1⟩

theorem descend_of_hostile (wellFormed : fs.WellFormed) {path rest : List (List UInt8)} {i : Nat}
    (names : ∀ name ∈ rest, IsName name) (resolves : fs.Resolves 2 path i)
    (target : fs.InodeOnDisk i) (noMimics : fs.NoMimics i rest) {buffer : List UInt8}
    {p fuel : Nat} {result : Option Nat}
    (strings : Strings buffer p (rest ++ [fs.hostile.path]))
    (done : fs.descend fs.hostile fuel buffer (rest.length + 1) p i = .ok result) :
    fs.Descent i rest result := by
  induction rest generalizing path i p with
  | nil =>
    have isInode := resolves.isInode wellFormed.isInode
    by_cases empty : (fs.inode i).blocks 0 = 0
    · rw [descend_empty wellFormed isInode target empty] at done
      obtain rfl := Except.ok.inj done
      exact .found (.nil i) empty
    · -- The string behind the copy of the path is no name of the block.
      rw [List.length_nil, descend, ext2ReadInode_ok wellFormed.geometry isInode target] at done
      obtain ⟨_, read, done⟩ := Outcome.bind_ok.mp done
      obtain rfl := Except.ok.inj read
      rw [if_neg empty] at done
      obtain ⟨buf, -, done⟩ := Outcome.bind_ok.mp done
      obtain ⟨r, scanned, done⟩ := Outcome.bind_ok.mp done
      have long : 255 < (cstring buffer p).length := by
        rw [strings.1]
        exact Nat.lt_of_lt_of_eq (by omega) (List.length_replicate (n := 256)).symm
      obtain rfl := scan_long (takeWhile_isString _) long buf fuel 0 r scanned
      obtain rfl := Outcome.pure_ok.mp done
      exact .last (.nil i)
  | cons name rest inductionHypothesis =>
    have isName := names name List.mem_cons_self
    have isInode := resolves.isInode wellFormed.isInode
    obtain ⟨here, strings⟩ := strings
    by_cases type : (fs.inode i).type = inodeTypeDirectory
    · obtain ⟨-, first, -, -, -, present, inside, all⟩ := wellFormed.firstBlock resolves type
      have onDisk := (descend_reads wellFormed isInode present done).2 inside
      rcases all.scan isName with ⟨j, uses, meets⟩ | ⟨uses, misses⟩ | hangs
      · rw [List.length_cons, descend_block wellFormed isInode target present onDisk, here] at done
        obtain ⟨r, scanned, done⟩ := Outcome.bind_ok.mp done
        obtain ⟨rfl, inode, read⟩ :=
          (scan_meets (memcpy_block _ _ fs.blockSize) isName.2.1 meets).1 fuel r scanned
        rw [if_pos meets.used] at done
        have lists := wellFormed.lists resolves type meets
        have next := (ext2ReadInode_done wellFormed.geometry lists.isInode read).1
        apply Descent.cons type onDisk meets next
        apply inductionHypothesis
        · exact fun part member => names part (List.mem_cons_of_mem _ member)
        · exact resolves.append (.cons lists (.nil r))
        · exact next
        · exact noMimics.tail lists
        · exact strings
        · exact done
      · have first : fs.MissesFirst i name uses := ⟨present, onDisk, misses⟩
        obtain rfl :=
          (descend_misses wellFormed isInode target isName.2.1 here first).1 fuel result done
        exact .stopped rfl (.nil i) first
      · rw [List.length_cons, descend_block wellFormed isInode target present onDisk, here] at done
        obtain ⟨r, scanned, -⟩ := Outcome.bind_ok.mp done
        exact absurd scanned (hangs _ (memcpy_block _ _ fs.blockSize) (hostile_hangs _ _) fuel r)
    · rcases noMimics [] name rest i rfl (.nil i) type with empty | ⟨inside, refused⟩ | ⟨uses, first⟩
      · rw [descend_empty wellFormed isInode target empty] at done
        obtain rfl := Except.ok.inj done
        exact .stuck rfl (.nil i) type
      · by_cases empty : (fs.inode i).blocks 0 = 0
        · rw [descend_empty wellFormed isInode target empty] at done
          obtain rfl := Except.ok.inj done
          exact .stuck rfl (.nil i) type
        · exact absurd ((descend_reads wellFormed isInode empty done).2 inside) refused
      · obtain rfl :=
          (descend_misses wellFormed isInode target isName.2.1 here first).1 fuel result done
        exact .stopped rfl (.nil i) first

theorem absolute_ne_root {name : List UInt8} {rest : List (List UInt8)}
    (names : ∀ part ∈ name :: rest, IsName part) : strcmp (absolute (name :: rest)) [47] ≠ 0 := by
  have isString : IsString (absolute (name :: rest)) := by
    intro zero
    obtain ⟨part, member, inside⟩ := List.mem_flatMap.mp zero
    rcases List.mem_cons.mp inside with slash | inPart
    · exact absurd slash (by decide)
    · exact (names part member).2.1 inPart
  intro same
  have equal := (strcmp_eq_zero isString (by simp [IsString])).mp same
  have first := (names name List.mem_cons_self).1
  rw [absolute, List.flatMap_cons, List.cons_append, List.cons.injEq] at equal
  exact first (List.append_eq_nil_iff.mp equal.2).1

theorem depth_le_one {name : List UInt8} {rest : List (List UInt8)} :
    (name :: rest).length + 1 - 1 ≤ 1 ↔ rest = [] := by
  rw [List.length_cons, Nat.add_sub_cancel, ← List.length_eq_zero_iff]
  omega

/-- The loops that `ext2_find_file_inode` runs for a path. -/
theorem ext2FindFileInode_eq (mem : Ext2Memory) (wellFormed : fs.WellFormed) {name : List UInt8}
    {rest : List (List UInt8)} (names : ∀ part ∈ name :: rest, IsName part)
    (inodeOut : Ext2Inode) : ∃ buffer p, Strings buffer p (rest ++ [mem.path]) ∧ ∀ fuel,
      fs.ext2FindFileInode mem fuel (absolute (name :: rest)) inodeOut =
        (fs.readRootBlocks mem fuel name (List.range 12) >>= fun inodeNum =>
          if rest = [] then
            if inodeNum = 0 then pure (2 ^ 32 - 1, inodeOut)
            else fs.ext2ReadInode mem inodeNum >>= fun inode => pure (0, inode)
          else fs.descend mem fuel buffer (rest.length + 1) p inodeNum >>= fun
            | none => pure (2 ^ 32 - 1, inodeOut)
            | some inodeNum => fs.ext2ReadInode mem inodeNum >>= fun inode => pure (0, inode)) := by
  have strings := strings_of_parts [] names mem.isString
  obtain ⟨here, strings⟩ := strings
  refine ⟨_, _, strings, ?_⟩
  intro fuel
  rw [ext2FindFileInode, if_neg (absolute_ne_root names), strsplit_absolute names]
  simp only [ext2ReadFromRootDirectory, wellFormed.isDirectory, ne_eq, not_true_eq_false,
    if_false]
  have root : cstring ((name :: rest).flatMap (0 :: ·) ++ 0 :: (mem.path ++ [0])) 1 = name := here
  simp only [depth_le_one, root]
  rfl

def FindsRight (fs : Ext2Driver) (path : List (List UInt8)) : Prop :=
  ∀ mem inodeOut, ∃ ret inode,
    Outcome.Returns (fun fuel => fs.ext2FindFileInode mem fuel (absolute path) inodeOut)
      (ret, inode) ∧
    (ret ≠ 2 ^ 32 - 1 ↔ ∃ i, fs.Resolves 2 path i) ∧
    ∀ i, fs.Resolves 2 path i → inode = fs.inode i

/-- The paths for which the loops end where they should, with what they need of the heap: for the
copy of the path and the root directory, below the root for a second buffer, and for reading the
inode at the end. -/
inductive Findable (fs : Ext2Driver) : List (List UInt8) → List HeapUse → Prop where
  | absentRoot {name : List UInt8} {uses : List HeapUse} :
      fs.RootScan name (List.range 12) 0 uses → (¬∃ i, fs.Resolves 2 [name] i) →
      Findable fs [name] (.kalloc ((absolute [name]).length + 1) :: .kalloc fs.blockSize :: uses)
  | root {name : List UInt8} {j : Nat} {uses : List HeapUse} :
      fs.RootScan name (List.range 12) j uses → j ≠ 0 →
      Findable fs [name]
        (.kalloc ((absolute [name]).length + 1) :: .kalloc fs.blockSize :: (uses ++ [.bread]))
  | found {name : List UInt8} {rest : List (List UInt8)} {j k : Nat} {uses later : List HeapUse} :
      rest ≠ [] → fs.RootScan name (List.range 12) j uses → j ≠ 0 → fs.Follows j rest k later →
      (fs.inode k).blocks 0 = 0 →
      Findable fs (name :: rest)
        (.kalloc ((absolute (name :: rest)).length + 1) :: .kalloc fs.blockSize ::
          (uses ++ .kalloc fs.blockSize :: (later ++ [.bread, .bread])))
  | absent {name part : List UInt8} {before after : List (List UInt8)} {j k : Nat}
      {uses later missUses : List HeapUse} :
      fs.RootScan name (List.range 12) j uses → j ≠ 0 → fs.Follows j before k later →
      fs.MissesFirst k part missUses →
      (¬∃ i, fs.Resolves 2 (name :: (before ++ part :: after)) i) →
      Findable fs (name :: (before ++ part :: after))
        (.kalloc ((absolute (name :: (before ++ part :: after))).length + 1) ::
          .kalloc fs.blockSize :: (uses ++ .kalloc fs.blockSize ::
            (later ++ .bread :: (fs.sectorUses ++ missUses))))

theorem RootScan.resolves (wellFormed : fs.WellFormed) {name : List UInt8} {j : Nat}
    {uses : List HeapUse} (scan : fs.RootScan name (List.range 12) j uses) (found : j ≠ 0) :
    fs.Resolves 2 [name] j :=
  .cons (scan.lists wellFormed (fun _ => List.mem_range.mp) found) (.nil j)

theorem RootScan.onDisk {name : List UInt8} {l : List Nat} {j : Nat} {uses : List HeapUse}
    (scan : fs.RootScan name l j uses) (found : j ≠ 0) : fs.InodeOnDisk j := by
  induction scan with
  | nil => exact absurd rfl found
  | behind _ => exact absurd rfl found
  | found _ _ _ target => exact target
  | missed _ _ _ _ inductionHypothesis => exact inductionHypothesis found

theorem Follows.onDisk {i k : Nat} {rest : List (List UInt8)} {uses : List HeapUse}
    (source : fs.InodeOnDisk i) (follows : fs.Follows i rest k uses) : fs.InodeOnDisk k := by
  induction follows with
  | nil _ => exact source
  | cons _ _ _ target _ inductionHypothesis => exact inductionHypothesis target

theorem Resolves.answer {path : List (List UInt8)} {i : Nat} (resolves : fs.Resolves 2 path i) :
    (0 ≠ 2 ^ 32 - 1 ↔ ∃ i, fs.Resolves 2 path i) ∧
      ∀ k, fs.Resolves 2 path k → fs.inode i = fs.inode k := by
  refine ⟨iff_of_true (by omega) ⟨i, resolves⟩, ?_⟩
  intro k other
  rw [resolves.functional other]

theorem answer_absent {path : List (List UInt8)} (absent : ¬∃ i, fs.Resolves 2 path i)
    (inodeOut : Ext2Inode) : (2 ^ 32 - 1 ≠ 2 ^ 32 - 1 ↔ ∃ i, fs.Resolves 2 path i) ∧
      ∀ k, fs.Resolves 2 path k → inodeOut = fs.inode k :=
  ⟨iff_of_false (by omega) absent, fun k resolves => absurd ⟨k, resolves⟩ absent⟩

theorem Findable.findsRight (wellFormed : fs.WellFormed) {path : List (List UInt8)}
    {uses : List HeapUse} (names : ∀ name ∈ path, IsName name) (findable : fs.Findable path uses) :
    fs.FindsRight path := by
  intro mem inodeOut
  have read : ∀ {path : List (List UInt8)} {i : Nat}, fs.Resolves 2 path i → fs.InodeOnDisk i →
      Outcome.Returns (fun _ => fs.ext2ReadInode mem i >>= fun inode => pure (0, inode))
        (0, fs.inode i) := by
    intro path i resolves target
    rw [ext2ReadInode_ok wellFormed.geometry (resolves.isInode wellFormed.isInode) target]
    exact .const rfl
  cases findable with
  | @absentRoot name uses scan absent =>
    obtain ⟨buffer, p, -, equation⟩ := ext2FindFileInode_eq mem wellFormed names inodeOut
    have root := readRootBlocks_returns mem wellFormed (names name List.mem_cons_self)
      (fun _ => List.mem_range.mp) scan
    simp only [equation, if_true]
    refine ⟨2 ^ 32 - 1, inodeOut, root.bind ?_, answer_absent absent inodeOut⟩
    simp only [if_true]
    exact .const rfl
  | @root name j uses scan found =>
    obtain ⟨buffer, p, -, equation⟩ := ext2FindFileInode_eq mem wellFormed names inodeOut
    have root := readRootBlocks_returns mem wellFormed (names name List.mem_cons_self)
      (fun _ => List.mem_range.mp) scan
    have resolves := scan.resolves wellFormed found
    simp only [equation, if_true]
    refine ⟨0, fs.inode j, root.bind ?_, resolves.answer⟩
    simp only [if_neg found]
    exact read resolves (scan.onDisk found)
  | @found name rest j k uses later deep scan found follows empty =>
    obtain ⟨buffer, p, strings, equation⟩ :=
      ext2FindFileInode_eq mem wellFormed names inodeOut
    have root := readRootBlocks_returns mem wellFormed (names name List.mem_cons_self)
      (fun _ => List.mem_range.mp) scan
    have first := scan.resolves wellFormed found
    have target := scan.onDisk found
    have resolves := first.append (follows.resolves wellFormed first)
    have below := descend_found mem wellFormed (fun part member =>
      names part (List.mem_cons_of_mem _ member)) first target follows empty strings
    simp only [equation, if_neg deep]
    exact ⟨0, fs.inode k, root.bind (below.bind (read resolves (follows.onDisk target))),
      resolves.answer⟩
  | @absent name part before after j k uses later missUses scan found follows misses absent =>
    obtain ⟨buffer, p, strings, equation⟩ :=
      ext2FindFileInode_eq mem wellFormed names inodeOut
    have root := readRootBlocks_returns mem wellFormed (names name List.mem_cons_self)
      (fun _ => List.mem_range.mp) scan
    have first := scan.resolves wellFormed found
    have below := descend_stops mem wellFormed (fun part member =>
      names part (List.mem_cons_of_mem _ member)) first (scan.onDisk found) follows misses strings
    have deep : before ++ part :: after ≠ [] := by simp
    simp only [equation, if_neg deep]
    exact ⟨2 ^ 32 - 1, inodeOut, root.bind (below.bind (.const rfl)), answer_absent absent inodeOut⟩

/-- What is told rightly in the worst memory was found. -/
theorem findable_of_hostile (wellFormed : fs.WellFormed) {name : List UInt8}
    {rest : List (List UInt8)} (names : ∀ part ∈ name :: rest, IsName part)
    (noMimics : fs.NoMimics 2 (name :: rest)) {inodeOut inode : Ext2Inode} {fuel ret : Nat}
    (done : fs.ext2FindFileInode fs.hostile fuel (absolute (name :: rest)) inodeOut =
      .ok (ret, inode))
    (found_iff : ret ≠ 2 ^ 32 - 1 ↔ ∃ i, fs.Resolves 2 (name :: rest) i) :
    ∃ uses, fs.Findable (name :: rest) uses := by
  obtain ⟨buffer, p, strings, equation⟩ :=
    ext2FindFileInode_eq fs.hostile wellFormed names inodeOut
  rw [equation] at done
  obtain ⟨j, scanned, done⟩ := Outcome.bind_ok.mp done
  obtain ⟨uses, scan⟩ := rootScan_of_hostile wellFormed (names name List.mem_cons_self)
    (fun _ => List.mem_range.mp) scanned
  by_cases single : rest = []
  · subst single
    rw [if_pos rfl] at done
    by_cases found : j = 0
    · subst found
      obtain ⟨rfl, -⟩ := Prod.ext_iff.mp (Outcome.pure_ok.mp done)
      exact ⟨_, .absentRoot scan fun resolves => found_iff.mpr resolves rfl⟩
    · exact ⟨_, .root scan found⟩
  · rw [if_neg single] at done
    obtain ⟨result, descended, answered⟩ := Outcome.bind_ok.mp done
    have found : j ≠ 0 := by
      rintro rfl
      rw [descend] at descended
      obtain ⟨zero, read, -⟩ := Outcome.bind_ok.mp descended
      exact hostile_zero wellFormed zero read
    have first := scan.resolves wellFormed found
    have lists := scan.lists wellFormed (fun _ => List.mem_range.mp) found
    have absent : result = none → ¬∃ i, fs.Resolves 2 (name :: rest) i := by
      rintro rfl
      obtain ⟨rfl, -⟩ := Prod.ext_iff.mp (Outcome.pure_ok.mp answered)
      exact fun resolves => found_iff.mpr resolves rfl
    cases descend_of_hostile wellFormed (fun part member => names part
      (List.mem_cons_of_mem _ member)) first (scan.onDisk found) (noMimics.tail lists) strings
        descended with
    | found follows empty => exact ⟨_, .found single scan found follows empty⟩
    | stopped split follows misses =>
      subst split
      exact ⟨_, .absent scan found follows misses (absent rfl)⟩
    | last follows =>
      have resolves := first.append (follows.resolves wellFormed first)
      exact absurd ⟨_, resolves⟩ (absent rfl)
    | stuck split follows notDirectory =>
      subst split
      obtain ⟨last, -, given⟩ := Outcome.bind_ok.mp answered
      obtain ⟨rfl, -⟩ := Prod.ext_iff.mp (Outcome.pure_ok.mp given)
      -- There is no directory for the next component.
      obtain ⟨i, resolves⟩ := found_iff.mp (by omega)
      have whole : fs.Resolves 2 ([name] ++ _) i := resolves
      obtain ⟨_, here, resolves⟩ := whole.split
      obtain rfl := here.functional first
      obtain ⟨_, there, resolves⟩ := resolves.split
      obtain rfl := there.functional (follows.resolves wellFormed first)
      cases resolves with
      | cons lists _ =>
        obtain ⟨records, directory, -⟩ := lists
        exact absurd directory.type notDirectory

def sectorOf (pieces : List (Nat × List UInt8)) : BlockData :=
  fun i => (pieces.findSome? fun (start, bytes) =>
    if start ≤ i then bytes[i.val - start]? else none).getD 0

def direntryOf (inode : UInt8) (size : Nat) (name : List UInt8) : List UInt8 :=
  [inode, 0, 0, 0, .ofNat (size % 256), .ofNat (size / 256), .ofNat name.length, 0] ++ name

/-- An image with the directory `/d`, the file `/d/f` of one block of zeros, and the files `/g`
of 13 blocks and `/h` of one block. -/
def smallImage : Ext2Driver where
  disk := fun sector =>
    if sector = 2058 then sectorOf [(128, [0, 0x40]), (168, [10]), (256, [0, 0x40]), (296, [11]),
      (384, [0, 0x80, 0, 0, 0, 4]), (424, [12])]
    else if sector = 2059 then sectorOf [(0, [0, 0x80, 0, 0, 1, 0x30]),
      (40, (List.range 13).flatMap fun i => [.ofNat (13 + i), 0, 0, 0]),
      (128, [0, 0x80, 0, 0, 0, 4]), (168, [27])]
    else if sector = 2068 then sectorOf [(0, direntryOf 2 12 [46]), (12, direntryOf 2 12 [46, 46]),
      (24, direntryOf 3 12 [100]), (36, direntryOf 5 12 [103]), (48, direntryOf 6 976 [104])]
    else if sector = 2070 then sectorOf [(0, direntryOf 3 12 [46]), (12, direntryOf 2 12 [46, 46]),
      (24, direntryOf 4 1000 [102])]
    else if sector = 2098 then sectorOf [(0, [26])]
    else if sector = 2102 then sectorOf [(0, [104, 105])]
    else fun _ => 0
  log2blockSize := 0
  blockSize := 1024
  inodesPerGroup := 8
  inodeSize := 128
  extendedFieldsAvailable := false
  bgdt := [5]
  rootInode :=
    { mode := 0x4000
      size := 0
      blocks := fun i => if i = 0 then 10 else 0
      sizeHigh := 0 }

theorem Records.record {block : Bytes} {size p i : Nat} (length : Nat) {name : List UInt8}
    {rest : List (Nat × List UInt8)} (number : block.u32 p = i)
    (step : block.u16 (p + 4) = length) (named : nameAt block p = name)
    (space : 8 + (block (p + 6)).toNat ≤ length) (inside : p + length ≤ size)
    (isName : IsName name) (later : Records block size (p + length) rest) :
    Records block size p ((i, name) :: rest) := by
  subst number step named
  exact .cons space inside (fun _ => isName) later

theorem smallImage_geometry : smallImage.Geometry where
  blockSize := rfl
  inodesPerGroup := by decide
  inodeSize := ⟨0, rfl⟩
  inodes := by decide
  tables := by decide

theorem inode_ofBlock {i b mode : Nat} (isMode : (fs.inode i).mode = mode)
    (size : (fs.inode i).size = 0) (sizeHigh : (fs.inode i).sizeHigh = 0)
    (direct : ∀ i' < 15, (fs.inode i).blocks i' = if i' = 0 then b else 0) :
    fs.inode i = ⟨mode, 0, fun i' => if i' = 0 then b else 0, 0⟩ := by
  have blocks : (fs.inode i).blocks = fun i' => if i' = 0 then b else 0 := by
    funext i'
    by_cases inside : i' < 15
    · exact direct i' inside
    · have notFirst : i' ≠ 0 := by omega
      exact (if_neg inside).trans (if_neg notFirst).symm
  generalize fs.inode i = inode at isMode size sizeHigh blocks
  cases inode
  subst isMode size sizeHigh blocks
  rfl

theorem smallImage_root : smallImage.rootInode = smallImage.inode 2 := by
  refine (inode_ofBlock (b := 10) ?_ ?_ ?_ ?_).symm
  all_goals decide +kernel

theorem Directory.ofBlock {i b : Nat} {entries : List (Nat × List UInt8)}
    (type : (fs.inode i).type = inodeTypeDirectory) (first : (fs.inode i).blocks 0 = b)
    (present : b ≠ 0) (inside : fs.InFileSystem b)
    (all : Records (fs.block b) fs.blockSize 0 entries)
    (behind : ∀ i' < 15, i' ≠ 0 → (fs.inode i).blocks i' = 0)
    (unique : (entries.map Prod.snd).Nodup)
    (targets : ∀ entry ∈ entries, entry.1 ≠ 0 → fs.IsInode entry.1) :
    fs.Directory (fs.inode i) [entries] where
  type := type
  nonempty := List.cons_ne_nil _ _
  direct := by simp
  blocks := by
    intro i' below
    obtain rfl : i' = 0 := Nat.lt_one_iff.mp below
    rw [first]
    exact ⟨present, inside, all⟩
  behind := fun i' above below => behind i' below (Nat.pos_iff_ne_zero.mp above)
  unique := by
    rw [List.flatten_singleton]
    exact unique.sublist (List.filter_sublist.map _)
  targets := by
    rw [List.flatten_singleton]
    exact targets

theorem smallImage_rootDirectory :
    smallImage.Directory (smallImage.inode 2)
      [[(2, [46]), (2, [46, 46]), (3, [100]), (5, [103]), (6, [104])]] := by
  apply Directory.ofBlock (b := 10)
  case all =>
    apply Records.record 12 _ _ _ _ _ (by decide)
    apply Records.record 12 _ _ _ _ _ (by decide)
    apply Records.record 12 _ _ _ _ _ (by decide)
    apply Records.record 12 _ _ _ _ _ (by decide)
    apply Records.record 976 _ _ _ _ _ (by decide)
    exact .nil
    all_goals decide +kernel
  all_goals decide +kernel

theorem smallImage_directory :
    smallImage.Directory (smallImage.inode 3) [[(3, [46]), (2, [46, 46]), (4, [102])]] := by
  apply Directory.ofBlock (b := 11)
  case all =>
    apply Records.record 12 _ _ _ _ _ (by decide)
    apply Records.record 12 _ _ _ _ _ (by decide)
    apply Records.record 1000 _ _ _ _ _ (by decide)
    exact .nil
    all_goals decide +kernel
  all_goals decide +kernel

theorem smallImage_wellFormed : smallImage.WellFormed where
  geometry := smallImage_geometry
  isInode := by decide
  root := smallImage_root
  isDirectory := by decide
  directories := by
    intro path i resolves type
    have types : ∀ i < 9, (smallImage.inode i).type = inodeTypeDirectory → i = 2 ∨ i = 3 := by
      decide +kernel
    have isInode := resolves.isInode (by decide : smallImage.IsInode 2)
    rcases types i (Nat.lt_succ_of_le isInode.2) type with rfl | rfl
    · exact ⟨_, smallImage_rootDirectory⟩
    · exact ⟨_, smallImage_directory⟩

/-- What it takes to come to the third record of the root directory. -/
theorem smallImage_rootScan : smallImage.RootScan [100] (List.range 12) 3
    [.bread, .bread, .kalloc 2, .kalloc 3, .kalloc 2, .bread] := by
  have scan : Meets (smallImage.block 10) 1024 [100] 0 3 [.kalloc 2, .kalloc 3, .kalloc 2, .bread] := by
    apply Meets.next _ _ _ (.next _ _ _ (.here _ _ _))
    all_goals decide +kernel
  exact .found (by decide) (by decide) scan (by decide)

/-- `/d/f` is there, but its block of zeros is searched for one more component. -/
theorem file_reportedMissing : smallImage.WellFormed ∧ smallImage.Resolves 2 [[100], [102]] 4 ∧
    ∀ mem inodeOut, Outcome.Returns
      (fun fuel => smallImage.ext2FindFileInode mem fuel (absolute [[100], [102]]) inodeOut)
      (2 ^ 32 - 1, inodeOut) := by
  have directory : smallImage.Lists 2 [100] 3 :=
    ⟨_, smallImage_rootDirectory, by decide, by decide⟩
  have file : smallImage.Lists 3 [102] 4 := ⟨_, smallImage_directory, by decide, by decide⟩
  have scan : ∃ uses, Meets (smallImage.block 11) 1024 [102] 0 4 uses := by
    refine ⟨_, Meets.next ?_ ?_ ?_ (.next ?_ ?_ ?_ (.here ?_ ?_ ?_))⟩
    all_goals decide +kernel
  obtain ⟨uses, scan⟩ := scan
  refine ⟨smallImage_wellFormed, .cons directory (.cons file (.nil 4)), ?_⟩
  intro mem inodeOut
  obtain ⟨buffer, p, strings, equation⟩ := ext2FindFileInode_eq mem smallImage_wellFormed
    (by decide : ∀ part ∈ [[100], [102]], IsName part) inodeOut
  obtain ⟨here, behind, -⟩ := strings
  have root := readRootBlocks_returns mem smallImage_wellFormed (by decide)
    (fun _ => List.mem_range.mp) smallImage_rootScan
  have zeros : smallImage.MissesFirst 4 mem.path [] := by
    refine ⟨?_, ?_, .here ?_ ?_⟩
    all_goals decide +kernel
  have below : Outcome.Returns (fun fuel => smallImage.descend mem fuel buffer 2 p 3) none := by
    apply descend_meets smallImage_wellFormed (.cons directory (.nil 3)) _ _ _ (by decide) here scan
    · decide
    · exact (descend_misses smallImage_wellFormed (by decide) (by decide) mem.isString behind zeros).2
    · decide
    · decide +kernel
    · decide +kernel
  simp only [equation]
  exact root.bind (below.bind (.const rfl))

end SwagOS.Fs.Ext2Driver
