import SwagOS.Fs.Ext2.Contents
import SwagOS.Fs.Ext2.Resolution

/-!
# Reading files on the kernel heap

`ext2_read_file` takes what the resolution of the path takes, a buffer of the size of the file,
and what `bread` takes for the sectors of its blocks.
-/

namespace SwagOS.Fs.Ext2Driver

open SwagOS.Lib SwagOS.Libc SwagOS.Mem

variable {fs : Ext2Driver} {mem : Ext2Memory}

def fileUses (fs : Ext2Driver) (inode : Ext2Inode) (size : Nat) : List HeapUse :=
  .kalloc (fs.ext2GetFileSize inode) ::
    (List.replicate ((size + fs.blockSize - 1) / fs.blockSize) fs.sectorUses).flatten

def ReadsRightOnHeap (fs : Ext2Driver) (s : KernelSupply) (path : List (List UInt8))
    (inode : Ext2Inode) (size : Nat) : Prop :=
  ∀ mem, ∃ buf s', (Eventually fun fuel =>
      fs.ext2ReadFileOnHeap mem fuel (absolute path) s = .ok (some buf, s')) ∧
    ∀ k < size, buf k = fs.fileByte inode k

/-- The path is found by the scans, the file is read from its direct blocks, and the heap lasts
for both. -/
def ReadableOnHeap (fs : Ext2Driver) (s : KernelSupply) (path : List (List UInt8)) (i size : Nat) :
    Prop :=
  fs.DirectlyRead (fs.inode i) size ∧
    ∃ uses, fs.Findable path uses ∧ s.Lasts (uses ++ fs.fileUses (fs.inode i) size)

section Uses

variable {P : KernelSupply → Prop} (lasting : Lasting KernelSupply.take P)
  (ready : ∀ s, P s → HeapReady s)
include lasting ready

theorem spends_readDirect {inode : Ext2Inode} {out buf : Bytes} {offset i left count : Nat}
    {result : Option Nat} (few : count ≤ left) (present : ∀ j < count, inode.blocks (i + j) ≠ 0)
    (first : count < left → inode.blocks (i + count) = 0)
    (done : fs.readDirect inode out offset i left = .ok (buf, result)) :
    Spends KernelSupply.take P (fs.readDirectOnHeap inode out offset i left) (buf, result)
      (List.replicate count fs.sectorUses).flatten := by
  induction left generalizing out offset i count with
  | zero =>
    obtain rfl : count = 0 := Nat.le_zero.mp few
    rw [readDirectOnHeap, ← Outcome.pure_ok.mp done]
    exact .pure _
  | succ left inductionHypothesis =>
    rw [readDirectOnHeap]
    rw [readDirect] at done
    cases count with
    | zero =>
      have absent : inode.blocks i = 0 := first (Nat.succ_pos left)
      rw [if_pos absent] at done ⊢
      rw [← Outcome.pure_ok.mp done]
      exact .pure _
    | succ count =>
      have here : inode.blocks i ≠ 0 := present 0 (Nat.succ_pos count)
      rw [if_neg here] at done ⊢
      obtain ⟨next, read, done⟩ := Outcome.bind_ok.mp done
      rw [List.replicate_succ, List.flatten_cons]
      refine .bind lasting (spends_ext2ReadBlock lasting ready read) ?_
      apply inductionHypothesis (Nat.le_of_succ_le_succ few)
      · intro j below
        rw [Nat.add_assoc, Nat.add_comm 1]
        exact present (j + 1) (Nat.succ_lt_succ below)
      · intro less
        rw [Nat.add_assoc, Nat.add_comm 1]
        exact first (Nat.succ_lt_succ less)
      · exact done

end Uses

theorem RegularFile.blocks {inode : Ext2Inode} {size : Nat} (geometry : fs.Geometry)
    (file : fs.RegularFile inode size) (direct : fs.DirectlyRead inode size) :
    let count := (size + fs.blockSize - 1) / fs.blockSize
    count ≤ 12 ∧ (∀ j < count, inode.blocks j ≠ 0) ∧ (count < 12 → inode.blocks count = 0) := by
  have positive : 0 < fs.blockSize := by
    rw [geometry.blockSize]
    exact Nat.mul_pos (by omega) (Nat.two_pow_pos _)
  obtain ⟨inside, present⟩ := direct
  have below : ∀ j, j < (size + fs.blockSize - 1) / fs.blockSize ↔ j * fs.blockSize < size := by
    intro j
    rw [Nat.lt_div_iff_mul_lt positive]
    omega
  refine ⟨?_, ?_, ?_⟩
  · apply Nat.le_of_not_lt
    intro more
    have := (below 12).mp more
    omega
  · exact fun j less => (present j ((below j).mp less)).1
  · intro less
    apply file.behind _ less
    apply Nat.le_of_not_lt
    exact fun more => absurd ((below _).mpr more) (Nat.lt_irrefl _)

theorem Findable.spends_inode (wellFormed : fs.WellFormed) {path : List (List UInt8)} {i : Nat}
    {uses : List HeapUse} (names : ∀ name ∈ path, IsName name) (findable : fs.Findable path uses)
    (resolves : fs.Resolves 2 path i) (mem : Ext2Memory) :
    Eventually fun fuel => Spends KernelSupply.take HeapReady
      (fs.findFileInodeOnHeap mem fuel (absolute path)) (some (fs.inode i)) uses := by
  obtain ⟨ret, inode, spends, found, same⟩ :=
    findable.spends wellFormed names mem (.ofBytes mem.stack 0)
  obtain rfl := same i resolves
  have success : ret ≠ 2 ^ 32 - 1 := found.mpr ⟨i, resolves⟩
  refine spends.mono fun fuel first => ?_
  rw [findFileInodeOnHeap, ← List.append_nil uses]
  refine .bind heapReady_lasting first ?_
  dsimp only
  rw [if_neg success]
  exact .pure _

theorem RegularFile.spends (wellFormed : fs.WellFormed) {path : List (List UInt8)} {i size : Nat}
    {uses : List HeapUse} (names : ∀ name ∈ path, IsName name) (findable : fs.Findable path uses)
    (resolves : fs.Resolves 2 path i) (file : fs.RegularFile (fs.inode i) size)
    (direct : fs.DirectlyRead (fs.inode i) size) (mem : Ext2Memory) : ∃ buf,
      (Eventually fun fuel => Spends KernelSupply.take HeapReady
        (fs.ext2ReadFileOnHeap mem fuel (absolute path)) (some buf)
        (uses ++ fs.fileUses (fs.inode i) size)) ∧
      ∀ k < size, buf k = fs.fileByte (fs.inode i) k := by
  have geometry := wellFormed.geometry
  have regular : ¬((fs.inode i).type ≠ inodeTypeFile ∧ (fs.inode i).type ≠ inodeTypeDirectory) :=
    fun other => other.1 file.type
  obtain ⟨few, present, first⟩ := file.blocks geometry direct
  obtain ⟨buf, l, -, before, stop, read, correct, -⟩ :=
    readDirect_whole geometry (file.readsFrom direct.2) mem
  have covered : size ≤ l * fs.blockSize := by
    by_cases early : l < 12
    · apply Nat.le_of_not_lt
      exact fun hole => (direct.2 l hole).1 (stop early)
    · exact direct.1.trans (Nat.mul_le_mul_right _ (Nat.le_of_not_lt early))
  refine ⟨buf, ?_, fun k below => correct k (Nat.lt_of_lt_of_le below covered)⟩
  refine (findable.spends_inode wellFormed names resolves mem).mono fun fuel found => ?_
  rw [ext2ReadFileOnHeap]
  refine .bind heapReady_lasting found ?_
  dsimp only
  rw [if_neg regular, readContentsOnHeap, fileUses]
  refine spends_kalloc heapReady_lasting (fun _ ready => ready) fun _ => ?_
  have lasting := heapReady_lasting
  rw [← List.append_nil (List.flatten _)]
  refine .mono ?_ fun _ both => both.1
  refine .bind lasting (spends_readDirect lasting (fun _ ready => ready) few
    (by simpa using present) (by simpa using first) read) ?_
  by_cases early : l < 12
  · rw [if_pos early]
    exact .pure _
  · rw [if_neg early]
    simp only [if_pos (file.behindDirect direct.1), if_pos (file.behindSingle (by
      have := direct.1
      rw [Nat.add_mul]
      omega)), pure_bind]
    exact .pure _

theorem RegularFile.path_ne_nil (wellFormed : fs.WellFormed) {path : List (List UInt8)}
    {i size : Nat} (resolves : fs.Resolves 2 path i) (file : fs.RegularFile (fs.inode i) size) :
    path ≠ [] := by
  rintro rfl
  obtain rfl := resolves.functional (.nil 2)
  have type := file.type
  rw [← wellFormed.root, wellFormed.isDirectory] at type
  exact absurd type (by decide)

theorem ext2ReadFileOnHeap_starts (mem : Ext2Memory) (wellFormed : fs.WellFormed)
    {path : List (List UInt8)} (nonempty : path ≠ []) (names : ∀ name ∈ path, IsName name)
    (fuel : Nat) : ∃ f, fs.ext2ReadFileOnHeap mem fuel (absolute path) =
      kallocOr id (.panic "ext2_find_file_inode() --> kalloc() failure!\n")
        ((absolute path).length + 1) >>= f := by
  obtain ⟨f, start⟩ := ext2FindFileInodeOnHeap_starts mem wellFormed nonempty names
    (.ofBytes mem.stack 0) fuel
  rw [ext2ReadFileOnHeap, findFileInodeOnHeap, start, bind_assoc, bind_assoc]
  exact ⟨_, rfl⟩

theorem ext2ReadFileOnHeap_found {fuel : Nat} {path : List UInt8} {s s' : KernelSupply}
    {buf : Bytes} (done : fs.ext2ReadFileOnHeap mem fuel path s = .ok (some buf, s')) :
    ∃ ret inode t, ret ≠ 2 ^ 32 - 1 ∧
      fs.ext2FindFileInodeOnHeap mem fuel path (.ofBytes mem.stack 0) s = .ok ((ret, inode), t) ∧
      (if inode.type ≠ inodeTypeFile ∧ inode.type ≠ inodeTypeDirectory then
        fs.ext2ReadDirOnHeap mem fuel path
      else fs.readContentsOnHeap mem fuel inode) t = .ok (some buf, s') := by
  obtain ⟨found, t, first, rest⟩ := Consumer.bind_ok.mp done
  obtain ⟨⟨ret, inode⟩, u, looked, answer⟩ := Consumer.bind_ok.mp first
  obtain ⟨rfl, rfl⟩ := Consumer.pure_ok.mp answer
  by_cases failed : ret = 2 ^ 32 - 1
  · rw [if_pos failed] at rest
    cases (Consumer.pure_ok.mp rest).1
  · rw [if_neg failed] at rest
    exact ⟨ret, inode, _, failed, looked, rest⟩

/-- Where the file is read on the heap, it is without it. -/
theorem ReadsRightOnHeap.readsRight {path : List (List UInt8)} {i size : Nat} {s : KernelSupply}
    (found : fs.FindsRight path) (resolves : fs.Resolves 2 path i)
    (file : fs.RegularFile (fs.inode i) size)
    (right : fs.ReadsRightOnHeap s path (fs.inode i) size) :
    fs.ReadsRight path (fs.inode i) size := by
  have regular : ¬((fs.inode i).type ≠ inodeTypeFile ∧ (fs.inode i).type ≠ inodeTypeDirectory) :=
    fun other => other.1 file.type
  intro mem
  obtain ⟨buf, s', ⟨least, done⟩, same⟩ := right mem
  obtain ⟨least', looked⟩ := found.returns resolves mem
  refine ⟨buf, ⟨least + least', fun fuel enough => ?_⟩, same⟩
  have looked : fs.findFileInode mem fuel (absolute path) = .ok (some (fs.inode i)) :=
    looked fuel (by omega)
  obtain ⟨ret, inode, t, success, first, rest⟩ := ext2ReadFileOnHeap_found (done fuel (by omega))
  have there : fs.findFileInode mem fuel (absolute path) = .ok (some inode) := by
    rw [findFileInode, ext2FindFileInodeOnHeap_erases fuel _ _ s _ t first]
    refine Outcome.bind_ok.mpr ⟨_, rfl, ?_⟩
    dsimp only
    rw [if_neg success]
    rfl
  rw [there] at looked
  obtain rfl := Option.some.inj (Except.ok.inj looked)
  rw [if_neg regular] at rest
  exact readContentsOnHeap_erases there regular t _ s' rest

/-- On every heap that is reached, a file is read rightly, whatever the memory holds, if its path
is found, it has at most 12 blocks, no hole and no block that the disk driver refuses, and the
heap lasts; and only then, unless its path leads through a file whose data read as a
directory. -/
theorem ext2ReadFile_right_iff (wellFormed : fs.WellFormed) {path : List (List UInt8)}
    {i size : Nat} (names : ∀ name ∈ path, IsName name) (resolves : fs.Resolves 2 path i)
    (file : fs.RegularFile (fs.inode i) size) {s : KernelSupply}
    (reached : Reachable HeapBoot HeapCall s.heap) :
    (fs.ReadableOnHeap s path i size → fs.ReadsRightOnHeap s path (fs.inode i) size) ∧
      (fs.NoMimics 2 path →
        (fs.ReadsRightOnHeap s path (fs.inode i) size ↔ fs.ReadableOnHeap s path i size)) := by
  have nonempty := file.path_ne_nil wellFormed resolves
  have enough : fs.ReadableOnHeap s path i size →
      fs.ReadsRightOnHeap s path (fs.inode i) size := by
    rintro ⟨direct, uses, findable, lasts⟩ mem
    obtain ⟨buf, spends, same⟩ := file.spends wellFormed names findable resolves direct mem
    obtain ⟨s', returns⟩ := (returns_iff_heapLasts
      (ext2ReadFileOnHeap_starts mem wellFormed nonempty names) reached spends (some buf)).mpr
        ⟨rfl, lasts⟩
    exact ⟨buf, s', returns, same⟩
  refine ⟨enough, fun noMimics => ⟨fun right => ?_, enough⟩⟩
  cases path with
  | nil => exact absurd rfl nonempty
  | cons name rest =>
    -- In the worst memory the path was found by the scans.
    obtain ⟨buf, s', ⟨least, done⟩, -⟩ := right fs.hostile
    have whole := done least (Nat.le_refl _)
    obtain ⟨ret, inode, t, success, first, -⟩ := ext2ReadFileOnHeap_found whole
    obtain ⟨uses, findable⟩ := findable_of_hostile wellFormed names noMimics
      (ext2FindFileInodeOnHeap_erases least _ _ s _ t first) (iff_of_true success ⟨i, resolves⟩)
    have found := findable.findsRight wellFormed names
    have direct := (right.readsRight found resolves file).direct wellFormed found resolves file
    obtain ⟨buf', spends, -⟩ := file.spends wellFormed names findable resolves direct fs.hostile
    have lasts := (returns_iff_heapLasts
      (ext2ReadFileOnHeap_starts fs.hostile wellFormed nonempty names) reached spends
        (some buf)).mp ⟨s', least, done⟩
    exact ⟨direct, uses, findable, lasts.2⟩

theorem ext2ReadFile_right_iff_oneBlock :
    smallImage.ReadsRightOnHeap bootSupply [[104]] (smallImage.inode 6) 1024 := by
  obtain ⟨-, scan⟩ := smallImage_scans
  refine (ext2ReadFile_right_iff smallImage_wellFormed (by decide)
    (scan.resolves smallImage_wellFormed (by decide)) smallImage_oneBlock bootSupply_reached).1 ?_
  exact ⟨smallImage_oneBlock_direct, _, .root scan (by decide),
    bootSupply_lasts (by decide +kernel) (by decide +kernel)⟩

/-- `/g` is there, and it is not read on any heap. -/
theorem thirteenBlocks_notRead : smallImage.WellFormed ∧ smallImage.Resolves 2 [[103]] 5 ∧
    smallImage.RegularFile (smallImage.inode 5) 12289 ∧
    ∀ s, ¬smallImage.ReadsRightOnHeap s [[103]] (smallImage.inode 5) 12289 := by
  obtain ⟨wellFormed, resolves, file, never⟩ := thirteenBlocks_neverReturns
  refine ⟨wellFormed, resolves, file, fun s right => ?_⟩
  obtain ⟨⟨found, -⟩, -⟩ := smallImage_files
  obtain ⟨buf, returns, -⟩ := right.readsRight found resolves file smallImage.hostile
  exact never _ _ returns

end SwagOS.Fs.Ext2Driver
