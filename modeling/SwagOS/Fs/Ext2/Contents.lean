import SwagOS.Fs.Ext2.Files
import SwagOS.Fs.Ext2.Lookup

/-!
# The contents of files

The direct blocks are read up to the first zero pointer.  An indirect block is read only
if it is full and the memory behind its copy starts with a zero pointer.
-/

namespace SwagOS.Fs.Ext2Driver

open SwagOS.Lib SwagOS.Libc

variable {fs : Ext2Driver} {mem : Ext2Memory}

section Blocks

variable (fs)

def entry (table i : Nat) : Nat := if table = 0 then 0 else (fs.block table).u32 (4 * i)

def blockOf (inode : Ext2Inode) (l : Nat) : Nat :=
  let n := fs.maxBlocks
  if l < 12 then inode.blocks l
  else if l < 12 + n then fs.entry (inode.blocks 12) (l - 12)
  else fs.entry (fs.entry (inode.blocks 13) ((l - 12 - n) / n)) ((l - 12 - n) % n)

def fileByte (inode : Ext2Inode) (k : Nat) : UInt8 :=
  let b := fs.blockOf inode (k / fs.blockSize)
  if b = 0 then 0 else fs.block b (k % fs.blockSize)

/-- A regular file of a size that needs no triple-indirect block. -/
structure RegularFile (inode : Ext2Inode) (size : Nat) : Prop where
  type : inode.type = inodeTypeFile
  /-- In the newer revision the size has 64 bits. -/
  low : size % 2 ^ 32 = inode.size
  reach : size ≤ (12 + fs.maxBlocks + fs.maxBlocks * fs.maxBlocks) * fs.blockSize
  inside : ∀ l, l * fs.blockSize < size → fs.blockOf inode l ≠ 0 →
    fs.InFileSystem (fs.blockOf inode l)
  tables : (inode.blocks 12 ≠ 0 → fs.InFileSystem (inode.blocks 12)) ∧
    (inode.blocks 13 ≠ 0 → fs.InFileSystem (inode.blocks 13) ∧
      ∀ i < fs.maxBlocks, fs.entry (inode.blocks 13) i ≠ 0 →
        fs.InFileSystem (fs.entry (inode.blocks 13) i))
  /-- Nothing is allocated behind the end. -/
  behind : ∀ l < 12, size ≤ l * fs.blockSize → inode.blocks l = 0
  behindDirect : size ≤ 12 * fs.blockSize → inode.blocks 12 = 0
  behindSingle : size ≤ (12 + fs.maxBlocks) * fs.blockSize → inode.blocks 13 = 0
  noTriple : inode.blocks 14 = 0

end Blocks

def ReadsFrom (fs : Ext2Driver) (inode : Ext2Inode) (i : Nat) : Prop :=
  ∀ l < 12, i ≤ l → (∀ j, i ≤ j → j ≤ l → inode.blocks j ≠ 0) → fs.OnDisk (inode.blocks l)

theorem ReadsFrom.next {inode : Ext2Inode} {i : Nat} (reads : fs.ReadsFrom inode i)
    (present : inode.blocks i ≠ 0) : fs.ReadsFrom inode (i + 1) := by
  intro l direct above others
  apply reads l direct (Nat.le_of_succ_le above)
  intro j from_ below
  rcases Nat.eq_or_lt_of_le from_ with rfl | later
  · exact present
  · exact others j later below

theorem readDirect_spec (geometry : fs.Geometry) {inode : Ext2Inode} {i left : Nat}
    (direct : i + left = 12) (reads : fs.ReadsFrom inode i) {file out : Bytes}
    (before : ∀ k < i * fs.blockSize, out k = fs.fileByte inode k)
    (behind : ∀ k, i * fs.blockSize ≤ k → out k = file k) :
    ∃ buf l, i ≤ l ∧ l ≤ 12 ∧ (∀ j, i ≤ j → j < l → inode.blocks j ≠ 0) ∧
      (l < 12 → inode.blocks l = 0) ∧
      fs.readDirect inode out (i * fs.blockSize) i left =
        .ok (buf, if l < 12 then none else some (12 * fs.blockSize)) ∧
      (∀ k < l * fs.blockSize, buf k = fs.fileByte inode k) ∧
      ∀ k, l * fs.blockSize ≤ k → buf k = file k := by
  induction left generalizing i out with
  | zero =>
    obtain rfl : i = 12 := direct
    refine ⟨out, 12, Nat.le_refl _, Nat.le_refl _, ?_, ?_, rfl, before, behind⟩
    · exact fun j above below => absurd above (by omega)
    · exact fun less => absurd less (by omega)
  | succ left inductionHypothesis =>
    by_cases absent : inode.blocks i = 0
    · refine ⟨out, i, Nat.le_refl _, by omega, ?_, fun _ => absent, ?_, before, behind⟩
      · exact fun j above below => absurd above (by omega)
      · rw [readDirect, if_pos absent, if_pos (by omega)]
        rfl
    · have next : i * fs.blockSize + fs.blockSize = (i + 1) * fs.blockSize :=
        (Nat.succ_mul i fs.blockSize).symm
      have before' : ∀ k < (i + 1) * fs.blockSize,
          out.memcpy (i * fs.blockSize) (fs.block (inode.blocks i)) fs.blockSize k =
            fs.fileByte inode k := by
        intro k inside
        by_cases earlier : k < i * fs.blockSize
        · rw [Bytes.memcpy_outside (.inl earlier)]
          exact before k earlier
        · -- The block that was just read.
          have number : k / fs.blockSize = i :=
            Nat.div_eq_of_lt_le (Nat.le_of_not_lt earlier) inside
          have position : k % fs.blockSize = k - i * fs.blockSize := by
            have split := Nat.div_add_mod k fs.blockSize
            rw [number, Nat.mul_comm] at split
            omega
          have direct : i < 12 := by omega
          rw [Bytes.memcpy_inside (by omega) (by omega), fileByte, number, position, blockOf]
          simp only [if_pos direct, if_neg absent]
      have behind' : ∀ k, (i + 1) * fs.blockSize ≤ k →
          out.memcpy (i * fs.blockSize) (fs.block (inode.blocks i)) fs.blockSize k = file k := by
        intro k above
        rw [Bytes.memcpy_outside (.inr (by omega))]
        exact behind k (by omega)
      obtain ⟨buf, l, above, below, present, first, done, correct, rest⟩ :=
        inductionHypothesis (by omega) (reads.next absent) before' behind'
      refine ⟨buf, l, by omega, below, ?_, first, ?_, correct, rest⟩
      · intro j above' below'
        rcases Nat.eq_or_lt_of_le above' with rfl | later
        · exact absent
        · exact present j later below'
      · have onDisk : fs.OnDisk (inode.blocks i) := by
          apply reads i (by omega) (Nat.le_refl i)
          intro j above' below'
          obtain rfl : i = j := Nat.le_antisymm above' below'
          exact absent
        rw [readDirect, if_neg absent, ext2ReadBlock_ok geometry onDisk]
        rw [← next] at done
        exact Outcome.bind_ok.mpr ⟨_, rfl, done⟩

theorem readDirect_reads (geometry : fs.Geometry) {inode : Ext2Inode} {i left : Nat}
    (direct : i + left = 12)
    (inside : ∀ l < 12, inode.blocks l ≠ 0 → fs.InFileSystem (inode.blocks l)) {out : Bytes}
    {offset : Nat} {result : Bytes × Option Nat}
    (done : fs.readDirect inode out offset i left = .ok result) : fs.ReadsFrom inode i := by
  induction left generalizing i out offset with
  | zero =>
    intro l below above _
    omega
  | succ left inductionHypothesis =>
    intro l below above present
    have here := present i (Nat.le_refl i) above
    rw [readDirect, if_neg here] at done
    obtain ⟨buf, read, done⟩ := Outcome.bind_ok.mp done
    have onDisk := (ext2ReadBlock_done geometry (inside i (by omega) here) read).1
    rcases Nat.eq_or_lt_of_le above with rfl | later
    · exact onDisk
    · exact inductionHypothesis (by omega) done l below later fun j above' =>
        present j (Nat.le_of_succ_le above')

theorem readPointers_zero {blocks out result : Bytes} {i left x : Nat} (above : i ≤ x)
    (below : x < i + left) (zero : blocks.u32 (4 * x) = 0) :
    fs.readPointers blocks out i left ≠ .ok result := by
  induction left generalizing i out with
  | zero => omega
  | succ left inductionHypothesis =>
    rw [readPointers]
    rcases Nat.eq_or_lt_of_le above with rfl | later
    · rw [if_pos zero]
      exact fun done => by cases done
    · split
      · exact fun done => by cases done
      · intro done
        obtain ⟨next, -, done⟩ := Outcome.bind_ok.mp done
        exact inductionHypothesis later (by omega) done

theorem countBlocks_zero {blocks : Bytes} {fuel x total : Nat}
    (done : countBlocks blocks fuel x = .ok total) : blocks.u32 (4 * total) = 0 := by
  induction fuel generalizing x with
  | zero => cases done
  | succ fuel inductionHypothesis =>
    rw [countBlocks] at done
    split at done
    next zero =>
      obtain rfl := Outcome.pure_ok.mp done
      exact zero
    next => exact inductionHypothesis done

theorem ext2ReadSingleIndirect_ok {fuel call blockno : Nat} {result : Bytes × Nat}
    (done : fs.ext2ReadSingleIndirect mem fuel call blockno = .ok result) :
    ∃ blocks, fs.ext2ReadBlock (mem.pointers call) 0 blockno = .ok blocks ∧
      (∀ i < fs.maxBlocks, blocks.u32 (4 * i) ≠ 0) ∧ blocks.u32 (4 * fs.maxBlocks) = 0 := by
  rw [ext2ReadSingleIndirect] at done
  obtain ⟨blocks, read, done⟩ := Outcome.bind_ok.mp done
  obtain ⟨total, counted, done⟩ := Outcome.bind_ok.mp done
  have zero := countBlocks_zero counted
  refine ⟨blocks, read, ?_⟩
  split at done
  · cases done
  next few =>
    obtain ⟨retBuf, pointers, -⟩ := Outcome.bind_ok.mp done
    have full : ∀ i < fs.maxBlocks, blocks.u32 (4 * i) ≠ 0 := fun i inside zero =>
      readPointers_zero (Nat.zero_le i) (by omega) zero pointers
    have last : total = fs.maxBlocks := by
      rcases Nat.eq_or_lt_of_le (Nat.le_of_not_lt few) with same | less
      · exact same
      · exact absurd zero (full total less)
    exact ⟨full, last ▸ zero⟩

theorem readSectors_outside {out buf : Bytes} {offset sector count : Nat}
    (done : fs.readSectors out offset sector count = .ok buf) :
    ∀ p, p < offset ∨ offset + count * diskSectorSize ≤ p → buf p = out p := by
  induction count generalizing out offset sector with
  | zero =>
    intro p _
    rw [Outcome.pure_ok.mp done]
  | succ count inductionHypothesis =>
    intro p outside
    rw [readSectors] at done
    obtain ⟨next, read, done⟩ := Outcome.bind_ok.mp done
    rw [Nat.succ_mul] at outside
    rw [inductionHypothesis done p (by omega)]
    rw [readDiskSector] at read
    split at read
    · cases read
    · rw [← Outcome.pure_ok.mp read, Bytes.memcpy_outside (by omega)]

def stale (fs : Ext2Driver) : Ext2Memory :=
  { fs.hostile with
    file := fun _ => 1
    pointers := fun _ _ => 1 }

/-- With such memory no indirect block is read: if it is full, the count goes on behind it. -/
theorem stale_singleIndirect (geometry : fs.Geometry) (fuel call blockno : Nat)
    (result : Bytes × Nat) : fs.ext2ReadSingleIndirect fs.stale fuel call blockno ≠ .ok result := by
  intro done
  obtain ⟨blocks, read, -, last⟩ := ext2ReadSingleIndirect_ok done
  have sectors := geometry.sectors
  have words : 4 * fs.maxBlocks = fs.blockSize := by
    rw [diskSectorSize] at sectors
    rw [maxBlocks]
    omega
  have ones : ∀ k < 4, blocks (fs.blockSize + k) = 1 := by
    intro k _
    exact readSectors_outside read (fs.blockSize + k) (.inr (by omega))
  have number : blocks.u32 fs.blockSize = Bytes.u32 (fun _ => 1) 0 := Bytes.u32_congr ones
  rw [words, number] at last
  exact absurd last (by decide)

theorem stale_doubleIndirect (geometry : fs.Geometry) {fuel blockno : Nat} {result : Bytes × Nat}
    (done : fs.ext2ReadDoubleIndirect fs.stale fuel blockno = .ok result) : result.2 = 0 := by
  rw [ext2ReadDoubleIndirect] at done
  obtain ⟨blocks, -, done⟩ := Outcome.bind_ok.mp done
  obtain ⟨total, -, done⟩ := Outcome.bind_ok.mp done
  split at done
  · cases done
  · obtain ⟨buffers, collected, done⟩ := Outcome.bind_ok.mp done
    rw [← Outcome.pure_ok.mp done]
    cases total with
    | zero =>
      rw [← Outcome.pure_ok.mp collected]
      rfl
    | succ total =>
      rw [readSingleIndirects] at collected
      split at collected
      · cases collected
      · obtain ⟨first, read, -⟩ := Outcome.bind_ok.mp collected
        exact absurd read (stale_singleIndirect geometry fuel _ _ first)

def ReadsRight (fs : Ext2Driver) (path : List (List UInt8)) (inode : Ext2Inode) (size : Nat) :
    Prop :=
  ∀ mem, ∃ buf, Outcome.Returns (fun fuel => fs.ext2ReadFile mem fuel (absolute path)) (some buf) ∧
    ∀ k < size, buf k = fs.fileByte inode k

theorem FindsRight.returns {path : List (List UInt8)} {i : Nat} (found : fs.FindsRight path)
    (resolves : fs.Resolves 2 path i) (mem : Ext2Memory) :
    Outcome.Returns (fun fuel => fs.findFileInode mem fuel (absolute path)) (some (fs.inode i)) := by
  obtain ⟨ret, inode, returns, exists_iff, same⟩ := found mem (.ofBytes mem.stack 0)
  obtain rfl := same i resolves
  have success : ret ≠ 2 ^ 32 - 1 := exists_iff.mpr ⟨i, resolves⟩
  apply returns.bind
  simp only [if_neg success]
  exact .const rfl

theorem FindsRight.fileExists {path : List (List UInt8)} {i : Nat} (found : fs.FindsRight path)
    (resolves : fs.Resolves 2 path i) (type : (fs.inode i).type = inodeTypeFile)
    (mem : Ext2Memory) :
    Outcome.Returns (fun fuel => fs.ext2FileExists mem fuel (absolute path)) true := by
  apply (found.returns resolves mem).bind
  simp only [type, decide_true]
  exact .const rfl

theorem FindsRight.inodeOf {path : List (List UInt8)} {i : Nat} (found : fs.FindsRight path)
    (resolves : fs.Resolves 2 path i) (mem : Ext2Memory) :
    Outcome.Returns (fun fuel => fs.inodeOf mem fuel (absolute path)) (fs.inode i) := by
  obtain ⟨ret, inode, returns, -, same⟩ := found mem (.ofBytes mem.stack 0)
  obtain rfl := same i resolves
  exact returns.bind (.const rfl)

theorem FindsRight.size {path : List (List UInt8)} {i : Nat} (found : fs.FindsRight path)
    (resolves : fs.Resolves 2 path i) (type : (fs.inode i).type = inodeTypeFile)
    (mem : Ext2Memory) :
    Outcome.Returns (fun fuel => fs.pathToFileSize mem fuel (absolute path))
      (fs.ext2GetFileSize (fs.inode i)) := by
  apply (found.fileExists resolves type mem).bind
  simp only [if_true]
  exact (found.inodeOf resolves mem).bind (.const rfl)

theorem readDirect_whole (geometry : fs.Geometry) {inode : Ext2Inode}
    (reads : fs.ReadsFrom inode 0) (mem : Ext2Memory) :
    ∃ buf l, l ≤ 12 ∧ (∀ j < l, inode.blocks j ≠ 0) ∧ (l < 12 → inode.blocks l = 0) ∧
      fs.readDirect inode mem.file 0 0 12 =
        .ok (buf, if l < 12 then none else some (12 * fs.blockSize)) ∧
      (∀ k < l * fs.blockSize, buf k = fs.fileByte inode k) ∧
      ∀ k, l * fs.blockSize ≤ k → buf k = mem.file k := by
  have all : 0 + 12 = 12 := rfl
  have before : ∀ k < 0 * fs.blockSize, mem.file k = fs.fileByte inode k := by
    intro k below
    omega
  obtain ⟨buf, l, -, direct, present, first, done, correct, rest⟩ :=
    readDirect_spec geometry all reads before (fun _ _ => rfl)
  rw [Nat.zero_mul] at done
  exact ⟨buf, l, direct, fun j => present j (Nat.zero_le j), first, done, correct, rest⟩

theorem RegularFile.directInside {inode : Ext2Inode} {size : Nat}
    (file : fs.RegularFile inode size) :
    ∀ l < 12, inode.blocks l ≠ 0 → fs.InFileSystem (inode.blocks l) := by
  intro l direct present
  have same : fs.blockOf inode l = inode.blocks l := by
    rw [blockOf]
    exact if_pos direct
  have below : l * fs.blockSize < size := by
    apply Nat.lt_of_not_le
    exact fun outside => present (file.behind l direct outside)
  rw [← same] at present ⊢
  exact file.inside l below present

/-- The blocks of a file are read if the disk driver knows them. -/
theorem RegularFile.readsFrom {inode : Ext2Inode} {size : Nat} (file : fs.RegularFile inode size)
    (present : ∀ l, l * fs.blockSize < size → inode.blocks l ≠ 0 ∧ fs.OnDisk (inode.blocks l)) :
    fs.ReadsFrom inode 0 := by
  intro l direct _ others
  have below : l * fs.blockSize < size := by
    apply Nat.lt_of_not_le
    exact fun outside => others l (Nat.zero_le l) (Nat.le_refl l) (file.behind l direct outside)
  exact (present l below).2

def DirectlyRead (fs : Ext2Driver) (inode : Ext2Inode) (size : Nat) : Prop :=
  size ≤ 12 * fs.blockSize ∧
    ∀ l, l * fs.blockSize < size → inode.blocks l ≠ 0 ∧ fs.OnDisk (inode.blocks l)

theorem fileByte_hole (geometry : fs.Geometry) {inode : Ext2Inode} {l : Nat}
    (hole : fs.blockOf inode l = 0) : fs.fileByte inode (l * fs.blockSize) = 0 := by
  have positive : 0 < fs.blockSize := by
    rw [geometry.blockSize]
    exact Nat.mul_pos (by omega) (Nat.two_pow_pos _)
  rw [fileByte, Nat.mul_div_cancel l positive]
  exact if_pos hole

theorem RegularFile.readsRight (wellFormed : fs.WellFormed) {path : List (List UInt8)}
    {i size : Nat} (found : fs.FindsRight path) (resolves : fs.Resolves 2 path i)
    (file : fs.RegularFile (fs.inode i) size) (directly : fs.DirectlyRead (fs.inode i) size) :
    fs.ReadsRight path (fs.inode i) size := by
  obtain ⟨inside, present⟩ := directly
  have geometry := wellFormed.geometry
  have regular : ¬((fs.inode i).type ≠ inodeTypeFile ∧ (fs.inode i).type ≠ inodeTypeDirectory) :=
    fun other => other.1 file.type
  intro mem
  obtain ⟨buf, l, few, -, first, read, correct, -⟩ :=
    readDirect_whole geometry (file.readsFrom present) mem
  have covered : size ≤ l * fs.blockSize := by
    by_cases early : l < 12
    · apply Nat.le_of_not_lt
      exact fun hole => (present l hole).1 (first early)
    · obtain rfl : l = 12 := by omega
      exact inside
  refine ⟨buf, ?_, fun k below => correct k (Nat.lt_of_lt_of_le below covered)⟩
  apply (found.returns resolves mem).bind
  simp only [if_neg regular, read]
  apply Outcome.Returns.bind (.const rfl)
  by_cases early : l < 12
  · simp only [if_pos early]
    exact .const rfl
  · simp only [if_neg early, if_pos (file.behindDirect inside), if_pos (file.behindSingle (by
      rw [Nat.add_mul]
      omega))]
    exact .const rfl

/-- A file that is read in the stale memory has direct blocks only and no hole. -/
theorem ReadsRight.direct (wellFormed : fs.WellFormed) {path : List (List UInt8)}
    {i size : Nat} (found : fs.FindsRight path) (resolves : fs.Resolves 2 path i)
    (file : fs.RegularFile (fs.inode i) size)
    (right : fs.ReadsRight path (fs.inode i) size) : fs.DirectlyRead (fs.inode i) size := by
  have geometry := wellFormed.geometry
  have regular : ¬((fs.inode i).type ≠ inodeTypeFile ∧ (fs.inode i).type ≠ inodeTypeDirectory) :=
    fun other => other.1 file.type
  obtain ⟨buf, returns, same⟩ := right fs.stale
  obtain ⟨fuel, whole⟩ := ((found.returns resolves fs.stale).of_bind returns).exists
  simp only [if_neg regular] at whole
  have reads : fs.ReadsFrom (fs.inode i) 0 := by
    obtain ⟨_, first, -⟩ := Outcome.bind_ok.mp whole
    exact readDirect_reads geometry (Nat.zero_add 12) file.directInside first
  obtain ⟨direct, l, few, present, first, read, -, rest⟩ := readDirect_whole geometry reads fs.stale
  have readable : ∀ j < l, (fs.inode i).blocks j ≠ 0 ∧ fs.OnDisk ((fs.inode i).blocks j) :=
    fun j less => ⟨present j less, reads j (by omega) (Nat.zero_le j) fun k _ below =>
      present k (Nat.lt_of_le_of_lt below less)⟩
  simp only [read] at whole
  obtain ⟨_, here, done⟩ := Outcome.bind_ok.mp whole
  obtain rfl := Except.ok.inj here
  by_cases early : l < 12
  · -- The loop ended at a zero pointer: the buffer is stale from there on.
    rw [if_pos early] at done
    obtain rfl := Option.some.inj (Outcome.pure_ok.mp done)
    have inside : size ≤ l * fs.blockSize := by
      apply Nat.le_of_not_lt
      intro hole
      have zero : fs.blockOf (fs.inode i) l = 0 := by
        rw [blockOf]
        exact (if_pos early).trans (first early)
      have stale : direct (l * fs.blockSize) = 1 := rest _ (Nat.le_refl _)
      have equal := stale.symm.trans (same _ hole)
      rw [fileByte_hole geometry zero] at equal
      exact absurd equal (by decide)
    have bound := Nat.mul_le_mul_right fs.blockSize few
    refine ⟨by omega, ?_⟩
    intro j below
    have less : j < l := Nat.lt_of_mul_lt_mul_right (Nat.lt_of_lt_of_le below inside)
    exact readable j less
  · simp only [if_neg early] at done
    obtain rfl : l = 12 := by omega
    have inside : size ≤ 12 * fs.blockSize := by
      apply Nat.le_of_not_lt
      intro more
      by_cases single : (fs.inode i).blocks 12 = 0
      · have zero : fs.blockOf (fs.inode i) 12 = 0 := by
          have positive : 12 < 12 + fs.maxBlocks := by
            rw [maxBlocks, geometry.blockSize]
            have := Nat.two_pow_pos fs.log2blockSize
            omega
          rw [blockOf]
          exact (if_neg early).trans ((if_pos positive).trans (if_pos single))
        have stale : buf (12 * fs.blockSize) = 1 := by
          rw [if_pos single, pure_bind] at done
          by_cases double : (fs.inode i).blocks 13 = 0
          · rw [if_pos double, pure_bind] at done
            obtain rfl := Option.some.inj (Outcome.pure_ok.mp done)
            exact rest _ (Nat.le_refl _)
          · rw [if_neg double] at done
            obtain ⟨tmp, doubled, done⟩ := Outcome.bind_ok.mp done
            have nothing := stale_doubleIndirect geometry doubled
            obtain rfl := Option.some.inj (Outcome.pure_ok.mp done)
            rw [nothing, Bytes.memcpy_outside (by omega)]
            exact rest _ (Nat.le_refl _)
        have equal := stale.symm.trans (same _ more)
        rw [fileByte_hole geometry zero] at equal
        exact absurd equal (by decide)
      · rw [if_neg single] at done
        obtain ⟨tmp, indirect, -⟩ := Outcome.bind_ok.mp done
        exact stale_singleIndirect geometry fuel _ _ tmp indirect
    refine ⟨inside, ?_⟩
    intro j below
    have less : j < 12 := Nat.lt_of_mul_lt_mul_right (Nat.lt_of_lt_of_le below inside)
    exact readable j less

/-- The scans that find `/g` and `/h` in the root directory of the small image. -/
theorem smallImage_scans :
    smallImage.RootScan [103] (List.range 12) 5
        [.bread, .bread, .kalloc 2, .kalloc 3, .kalloc 2, .kalloc 2, .bread] ∧
      smallImage.RootScan [104] (List.range 12) 6
        [.bread, .bread, .kalloc 2, .kalloc 3, .kalloc 2, .kalloc 2, .kalloc 2, .bread] := by
  have first : Meets (smallImage.block 10) 1024 [103] 0 5
      [.kalloc 2, .kalloc 3, .kalloc 2, .kalloc 2, .bread] := by
    apply Meets.next _ _ _ (.next _ _ _ (.next _ _ _ (.here _ _ _)))
    all_goals decide +kernel
  have second : Meets (smallImage.block 10) 1024 [104] 0 6
      [.kalloc 2, .kalloc 3, .kalloc 2, .kalloc 2, .kalloc 2, .bread] := by
    apply Meets.next _ _ _ (.next _ _ _ (.next _ _ _ (.next _ _ _ (.here _ _ _))))
    all_goals decide +kernel
  exact ⟨.found (by decide) (by decide) first (by decide),
    .found (by decide) (by decide) second (by decide)⟩

/-- The files `/g` and `/h` of the small image are found. -/
theorem smallImage_files :
    (smallImage.FindsRight [[103]] ∧ smallImage.Resolves 2 [[103]] 5) ∧
      smallImage.FindsRight [[104]] ∧ smallImage.Resolves 2 [[104]] 6 := by
  obtain ⟨first, second⟩ := smallImage_scans
  refine ⟨⟨?_, first.resolves smallImage_wellFormed (by decide)⟩, ?_,
    second.resolves smallImage_wellFormed (by decide)⟩
  · exact (Findable.root first (by decide)).findsRight smallImage_wellFormed (by decide)
  · exact (Findable.root second (by decide)).findsRight smallImage_wellFormed (by decide)

theorem smallImage_oneBlock : smallImage.RegularFile (smallImage.inode 6) 1024 where
  type := by decide +kernel
  low := by decide +kernel
  reach := by decide
  inside := by
    intro l below _
    have first : l < 1 := Nat.lt_of_mul_lt_mul_right (below.trans_eq (Nat.one_mul 1024).symm)
    obtain rfl : l = 0 := Nat.lt_one_iff.mp first
    decide +kernel
  tables := by decide +kernel
  behind := by decide +kernel
  behindDirect := by decide +kernel
  behindSingle := by decide +kernel
  noTriple := by decide +kernel

theorem smallImage_oneBlock_direct : smallImage.DirectlyRead (smallImage.inode 6) 1024 := by
  refine ⟨by decide, ?_⟩
  intro l below
  have first : l < 1 := Nat.lt_of_mul_lt_mul_right (below.trans_eq (Nat.one_mul 1024).symm)
  obtain rfl : l = 0 := Nat.lt_one_iff.mp first
  decide +kernel

theorem smallImage_thirteenBlocks : smallImage.RegularFile (smallImage.inode 5) 12289 where
  type := by decide +kernel
  low := by decide +kernel
  reach := by decide
  inside := by
    have all : ∀ l < 13, smallImage.InFileSystem (smallImage.blockOf (smallImage.inode 5) l) := by
      decide +kernel
    intro l below _
    exact all l (Nat.lt_of_mul_lt_mul_right (below.trans (by decide : 12289 < 13 * 1024)))
  tables := by decide +kernel
  behind := by decide +kernel
  behindDirect := by decide +kernel
  behindSingle := by decide +kernel
  noTriple := by decide +kernel

/-- The file `/g` has one block in its single-indirect block, and is never read. -/
theorem thirteenBlocks_neverReturns : smallImage.WellFormed ∧ smallImage.Resolves 2 [[103]] 5 ∧
    smallImage.RegularFile (smallImage.inode 5) 12289 ∧ ∀ mem result,
      ¬Outcome.Returns (fun fuel => smallImage.ext2ReadFile mem fuel (absolute [[103]])) result := by
  obtain ⟨⟨found, resolves⟩, -⟩ := smallImage_files
  have file := smallImage_thirteenBlocks
  refine ⟨smallImage_wellFormed, resolves, file, ?_⟩
  intro mem result returns
  obtain ⟨fuel, whole⟩ := ((found.returns resolves mem).of_bind returns).exists
  have reads : smallImage.ReadsFrom (smallImage.inode 5) 0 := by
    have all : ∀ l < 12, smallImage.OnDisk ((smallImage.inode 5).blocks l) := by decide +kernel
    exact fun l direct _ _ => all l direct
  obtain ⟨direct, l, few, -, first, read, -⟩ := readDirect_whole smallImage_geometry reads mem
  have regular : ¬((smallImage.inode 5).type ≠ inodeTypeFile ∧
      (smallImage.inode 5).type ≠ inodeTypeDirectory) := fun other => other.1 file.type
  have present : ∀ l < 12, (smallImage.inode 5).blocks l ≠ 0 := by decide +kernel
  have single : (smallImage.inode 5).blocks 12 = 25 := by decide +kernel
  have all : ¬l < 12 := fun early => present l early (first early)
  simp only [if_neg regular, read] at whole
  obtain ⟨_, here, done⟩ := Outcome.bind_ok.mp whole
  obtain rfl := Except.ok.inj here
  simp only [if_neg all, single] at done
  obtain ⟨tmp, indirect, -⟩ := Outcome.bind_ok.mp done
  obtain ⟨blocks, table, full, -⟩ := ext2ReadSingleIndirect_ok indirect
  -- The second pointer is zero.
  rw [ext2ReadBlock_ok smallImage_geometry (by decide : smallImage.OnDisk 25)] at table
  obtain rfl := Except.ok.inj table
  have zero : (smallImage.block 25).u32 4 = 0 := by decide +kernel
  apply full 1 (by decide)
  rw [← zero]
  exact agree_u32 (memcpy_block _ _ 1024) (by decide)

end SwagOS.Fs.Ext2Driver
