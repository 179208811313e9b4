import SwagOS.Fs.Ext2.Lookup
import SwagOS.Fs.Ext2.OnHeap

/-!
# Path resolution on the kernel heap

Every record that the scan of a directory comes to takes a block of the heap for its name, and
none is given back, so that a path needs the heap for the records on its way.  What it needs is
listed with the path; where the heap lasts for it, and only there, the path is resolved.
-/

namespace SwagOS.Fs.Ext2Driver

open SwagOS.Lib SwagOS.Libc SwagOS.Drivers SwagOS.Mem

variable {fs : Ext2Driver} {mem : Ext2Memory}

section Uses

variable {P : KernelSupply → Prop} (lasting : Lasting KernelSupply.take P)
  (ready : ∀ s, P s → HeapReady s)
include lasting ready

theorem spends_readDiskSector {out buf : Bytes} {offset sector : Nat}
    (read : fs.readDiskSector out offset sector = .ok buf) :
    Spends KernelSupply.take P (fs.readDiskSectorOnHeap out offset sector) buf [.bread] :=
  .bind lasting (spends_bread ready) (.lift read)

theorem spends_ext2ReadBlock {out buf : Bytes} {offset block : Nat}
    (read : fs.ext2ReadBlock out offset block = .ok buf) :
    Spends KernelSupply.take P (fs.ext2ReadBlockOnHeap out offset block) buf fs.sectorUses := by
  have sectors : ∀ count out offset sector, fs.readSectors out offset sector count = .ok buf →
      Spends KernelSupply.take P (fs.readSectorsOnHeap out offset sector count) buf
        (List.replicate count .bread) := by
    intro count
    induction count with
    | zero =>
      intro out offset sector read
      obtain rfl := Outcome.pure_ok.mp read
      exact .pure out
    | succ count inductionHypothesis =>
      intro out offset sector read
      obtain ⟨next, first, rest⟩ := Outcome.bind_ok.mp read
      exact .bind lasting (spends_readDiskSector lasting ready first)
        (inductionHypothesis _ _ _ rest)
  exact sectors _ _ _ _ read

theorem spends_ext2ReadInode (geometry : fs.Geometry) {i : Nat} (isInode : fs.IsInode i)
    (target : fs.InodeOnDisk i) :
    Spends KernelSupply.take P (fs.ext2ReadInodeOnHeap mem i) (fs.inode i) [.bread] :=
  .bind lasting (spends_bread ready) (.lift (ext2ReadInode_ok geometry isInode target))

section Scan

variable {dir block : Bytes} {size : Nat} (agree : ∀ i < size, dir i = block i)
include agree

theorem spends_pass {filename : List UInt8} (isString : IsString filename) {fuel p r : Nat}
    {uses : List HeapUse} (inside : p + 8 + (block (p + 6)).toNat ≤ size) (used : block.u32 p ≠ 0)
    (other : entryName block p ≠ filename)
    (rest : Spends KernelSupply.take P (fs.ext2ReadFromDirectoryOnHeap mem filename dir fuel
      (p + block.u16 (p + 4))) r uses) :
    Spends KernelSupply.take P (fs.ext2ReadFromDirectoryOnHeap mem filename dir (fuel + 1) p) r
      (nameUse block p :: uses) := by
  have number := agree_u32 agree (p := p) (by omega)
  have length := agree_size agree (p := p) (by omega)
  have name := agree_name agree inside
  have nameLength := agree (p + 6) (by omega)
  have differs : ¬strcmp filename (entryName dir p) = 0 := by
    rw [strcmp_eq_zero isString (entryName_isString dir p), name]
    exact Ne.symm other
  rw [ext2ReadFromDirectoryOnHeap, number, if_neg used, nameLength]
  refine spends_kalloc lasting ready fun address => ?_
  rw [if_neg differs, length]
  exact spends_kfree (fun s both => ⟨ready s both.1, both.2⟩) (rest.mono fun _ both => both.1)

theorem spends_meets (mem : Ext2Memory) {filename : List UInt8} (isString : IsString filename)
    {p j : Nat} {uses : List HeapUse} (meets : Meets block size filename p j uses) (geometry : fs.Geometry)
    (isInode : fs.IsInode j) (target : fs.InodeOnDisk j) :
    Eventually fun fuel => Spends KernelSupply.take P
      (fs.ext2ReadFromDirectoryOnHeap mem filename dir fuel p) j uses := by
  induction meets with
  | @here p inside used same =>
    have number := agree_u32 agree (p := p) (by omega)
    have name := agree_name agree inside
    have nameLength := agree (p + 6) (by omega)
    have equal : strcmp filename (entryName dir p) = 0 := by
      rw [strcmp_eq_zero isString (entryName_isString dir p), name]
      exact same.symm
    refine .succ (.of_forall fun fuel => ?_)
    rw [ext2ReadFromDirectoryOnHeap, number, if_neg used, nameLength]
    refine spends_kalloc lasting ready fun address => ?_
    rw [if_pos equal]
    refine .bind (lasting.and (handed_lasting address)) (spends_ext2ReadInode
      (lasting.and (handed_lasting address)) (fun s both => ready s both.1) geometry isInode
      target) ?_
    exact spends_kfree (fun s both => ⟨ready s both.1, both.2⟩) (.pure _)
  | @next p j uses inside used other _ inductionHypothesis =>
    refine .succ ((inductionHypothesis isInode target).mono fun fuel rest => ?_)
    exact spends_pass lasting ready agree isString inside used other rest

theorem spends_misses (mem : Ext2Memory) {filename : List UInt8} (isString : IsString filename)
    {p : Nat} {uses : List HeapUse} (misses : Misses block size filename p uses) :
    Eventually fun fuel => Spends KernelSupply.take P
      (fs.ext2ReadFromDirectoryOnHeap mem filename dir fuel p) 0 uses := by
  induction misses with
  | @here p inside unused =>
    have number := agree_u32 agree inside
    refine .succ (.of_forall fun fuel => ?_)
    rw [ext2ReadFromDirectoryOnHeap, number, if_pos unused]
    exact .pure 0
  | @next p uses inside used other _ inductionHypothesis =>
    refine .succ (inductionHypothesis.mono fun fuel rest => ?_)
    exact spends_pass lasting ready agree isString inside used other rest

end Scan

theorem spends_rootScan (mem : Ext2Memory) (wellFormed : fs.WellFormed) {name : List UInt8}
    (isName : IsName name) {l : List Nat} {j : Nat} {uses : List HeapUse}
    (direct : ∀ i ∈ l, i < 12) (scan : fs.RootScan name l j uses) :
    Eventually fun fuel => Spends KernelSupply.take P
      (fs.readRootBlocksOnHeap mem fuel name l) j uses := by
  have geometry := wellFormed.geometry
  have isInode : j ≠ 0 → fs.IsInode j := fun found => (scan.lists wellFormed direct found).isInode
  induction scan with
  | nil => exact .of_forall fun _ => .pure 0
  | behind absent =>
    refine .of_forall fun _ => ?_
    rw [readRootBlocksOnHeap, if_pos absent]
    exact .pure 0
  | @found i j rest uses present onDisk meets target =>
    have block := spends_ext2ReadBlock lasting ready
      (ext2ReadBlock_ok geometry onDisk (mem.directory i) 0)
    refine (spends_meets lasting ready (memcpy_block (mem.directory i) _ fs.blockSize) mem
      isName.2.1 meets geometry (isInode meets.used) target).mono fun fuel scanned => ?_
    rw [readRootBlocksOnHeap, if_neg present]
    refine .bind lasting block ?_
    rw [← List.append_nil uses]
    refine .bind lasting scanned ?_
    rw [if_pos meets.used]
    exact .pure j
  | @missed i j rest uses later present onDisk misses _ inductionHypothesis =>
    have block := spends_ext2ReadBlock lasting ready
      (ext2ReadBlock_ok geometry onDisk (mem.directory i) 0)
    have first : Eventually fun fuel => Spends KernelSupply.take P
        (fs.ext2ReadFromDirectoryOnHeap mem name _ fuel 0) 0 uses :=
      spends_misses lasting ready (memcpy_block (mem.directory i) _ fs.blockSize) mem isName.2.1
        misses
    have second := inductionHypothesis (fun i member => direct i (List.mem_cons_of_mem _ member))
      isInode
    refine (first.and second).mono fun fuel both => ?_
    rw [readRootBlocksOnHeap, if_neg present]
    refine .bind lasting block (.bind lasting both.1 ?_)
    rw [if_neg (not_not.mpr rfl)]
    exact both.2

theorem spends_descend_meets (wellFormed : fs.WellFormed) {path : List (List UInt8)} {i j : Nat}
    {name buffer : List UInt8} {p dirDepth : Nat} {result : Option Nat} {uses later : List HeapUse}
    (resolves : fs.Resolves 2 path i) (source : fs.InodeOnDisk i)
    (type : (fs.inode i).type = inodeTypeDirectory) (onDisk : fs.OnDisk ((fs.inode i).blocks 0))
    (isName : IsName name) (here : cstring buffer p = name)
    (meets : Meets (fs.block ((fs.inode i).blocks 0)) fs.blockSize name 0 j uses)
    (target : fs.InodeOnDisk j) (rest : Eventually fun fuel => Spends KernelSupply.take P
      (fs.descendOnHeap mem fuel buffer dirDepth (p + strlen buffer p + 1) j) result later) :
    Eventually fun fuel => Spends KernelSupply.take P
      (fs.descendOnHeap mem fuel buffer (dirDepth + 1) p i) result
      (.bread :: (fs.sectorUses ++ (uses ++ later))) := by
  have geometry := wellFormed.geometry
  obtain ⟨-, -, -, -, -, present, -, -⟩ := wellFormed.firstBlock resolves type
  have first := spends_meets lasting ready (memcpy_block (mem.directory (12 + dirDepth)) _ _) mem
    isName.2.1 meets geometry (wellFormed.lists resolves type meets).isInode target
  refine (first.and rest).mono fun fuel both => ?_
  rw [descendOnHeap, here]
  refine .bind lasting (spends_ext2ReadInode lasting ready geometry
    (resolves.isInode wellFormed.isInode) source) ?_
  rw [if_neg present]
  refine .bind lasting (spends_ext2ReadBlock lasting ready (ext2ReadBlock_ok geometry onDisk _ _)) ?_
  refine .bind lasting both.1 ?_
  rw [if_pos meets.used]
  exact both.2

theorem spends_descend_misses (wellFormed : fs.WellFormed) {i : Nat} (isInode : fs.IsInode i)
    (target : fs.InodeOnDisk i) {name buffer : List UInt8} {p dirDepth : Nat} {uses : List HeapUse}
    (isString : IsString name) (here : cstring buffer p = name)
    (first : fs.MissesFirst i name uses) :
    Eventually fun fuel => Spends KernelSupply.take P
      (fs.descendOnHeap mem fuel buffer (dirDepth + 1) p i) none
      (.bread :: (fs.sectorUses ++ uses)) := by
  have geometry := wellFormed.geometry
  have scanned : Eventually fun fuel => Spends KernelSupply.take P
      (fs.ext2ReadFromDirectoryOnHeap mem name _ fuel 0) 0 uses :=
    spends_misses lasting ready (memcpy_block (mem.directory (12 + dirDepth)) _ _) mem isString
      first.misses
  refine scanned.mono fun fuel scanned => ?_
  rw [descendOnHeap, here]
  refine .bind lasting (spends_ext2ReadInode lasting ready geometry isInode target) ?_
  rw [if_neg first.present]
  refine .bind lasting
    (spends_ext2ReadBlock lasting ready (ext2ReadBlock_ok geometry first.onDisk _ _)) ?_
  rw [← List.append_nil uses]
  refine .bind lasting scanned ?_
  rw [if_neg (not_not.mpr rfl)]
  exact .pure none

theorem spends_descend_found (mem : Ext2Memory) (wellFormed : fs.WellFormed)
    {path rest : List (List UInt8)} {i k : Nat} {uses : List HeapUse}
    (names : ∀ name ∈ rest, IsName name) (resolves : fs.Resolves 2 path i)
    (target : fs.InodeOnDisk i) (follows : fs.Follows i rest k uses)
    (empty : (fs.inode k).blocks 0 = 0) {buffer : List UInt8} {p : Nat}
    {behind : List (List UInt8)} (strings : Strings buffer p (rest ++ behind)) :
    Eventually fun fuel => Spends KernelSupply.take P
      (fs.descendOnHeap mem fuel buffer (rest.length + 1) p i) (some k) (uses ++ [.bread]) := by
  induction follows generalizing path p with
  | nil i =>
    refine .of_forall fun fuel => ?_
    rw [List.length_nil, descendOnHeap, List.nil_append]
    refine .bind lasting (spends_ext2ReadInode lasting ready wellFormed.geometry
      (resolves.isInode wellFormed.isInode) target) ?_
    rw [if_pos empty]
    exact .pure _
  | @cons i j k name rest uses later type onDisk meets next _ inductionHypothesis =>
    obtain ⟨here, strings⟩ := strings
    simp only [List.cons_append, List.append_assoc]
    apply spends_descend_meets lasting ready wellFormed resolves target type onDisk
      (names name List.mem_cons_self) here meets next
    apply inductionHypothesis
    · exact fun name member => names name (List.mem_cons_of_mem _ member)
    · exact resolves.append (.cons (wellFormed.lists resolves type meets) (.nil j))
    · exact next
    · exact empty
    · exact strings

theorem spends_descend_stops (mem : Ext2Memory) (wellFormed : fs.WellFormed)
    {path before after : List (List UInt8)} {name : List UInt8} {i k : Nat}
    {uses missUses : List HeapUse} (names : ∀ part ∈ before ++ name :: after, IsName part)
    (resolves : fs.Resolves 2 path i) (target : fs.InodeOnDisk i)
    (follows : fs.Follows i before k uses)
    (first : fs.MissesFirst k name missUses) {buffer : List UInt8} {p : Nat}
    {behind : List (List UInt8)} (strings : Strings buffer p ((before ++ name :: after) ++ behind)) :
    Eventually fun fuel => Spends KernelSupply.take P
      (fs.descendOnHeap mem fuel buffer ((before ++ name :: after).length + 1) p i) none
      (uses ++ .bread :: (fs.sectorUses ++ missUses)) := by
  induction follows generalizing path p with
  | nil i =>
    exact spends_descend_misses lasting ready wellFormed (resolves.isInode wellFormed.isInode) target
      (names name List.mem_cons_self).2.1 strings.1 first
  | @cons i j k part rest uses later type onDisk meets next _ inductionHypothesis =>
    obtain ⟨here, strings⟩ := strings
    simp only [List.cons_append, List.append_assoc]
    apply spends_descend_meets lasting ready wellFormed resolves target type onDisk
      (names part List.mem_cons_self) here meets next
    apply inductionHypothesis
    · exact fun part member => names part (List.mem_cons_of_mem _ member)
    · exact resolves.append (.cons (wellFormed.lists resolves type meets) (.nil j))
    · exact next
    · exact first
    · exact strings

end Uses

/-- The loops that `ext2_find_file_inode` runs for a path, with the blocks of the heap. -/
theorem ext2FindFileInodeOnHeap_eq (mem : Ext2Memory) (wellFormed : fs.WellFormed)
    {name : List UInt8} {rest : List (List UInt8)} (names : ∀ part ∈ name :: rest, IsName part)
    (inodeOut : Ext2Inode) : ∃ buffer p, Strings buffer p (rest ++ [mem.path]) ∧ ∀ fuel,
      fs.ext2FindFileInodeOnHeap mem fuel (absolute (name :: rest)) inodeOut =
        (kallocOrPanic "ext2_find_file_inode() --> kalloc() failure!\n"
            ((absolute (name :: rest)).length + 1) >>= fun og =>
          (kallocOrPanic "ext2_read_from_root_directory() --> kalloc() failure!.\n" fs.blockSize >>=
              fun _ => fs.readRootBlocksOnHeap mem fuel name (List.range 12)) >>= fun inodeNum =>
          if rest = [] then
            if inodeNum = 0 then pure (2 ^ 32 - 1, inodeOut)
            else kfreeOnHeap id og >>= fun _ => fs.ext2ReadInodeOnHeap mem inodeNum >>= fun inode =>
              pure (0, inode)
          else kallocOrPanic "ext2_find_file_inode() --> kalloc() failure.\n" fs.blockSize >>=
            fun buf => fs.descendOnHeap mem fuel buffer (rest.length + 1) p inodeNum >>= fun
              | none => kfreeOnHeap id og >>= fun _ => pure (2 ^ 32 - 1, inodeOut)
              | some inodeNum => fs.ext2ReadInodeOnHeap mem inodeNum >>= fun inode =>
                  kfreeOnHeap id og >>= fun _ => kfreeOnHeap id buf >>= fun _ =>
                    pure (0, inode)) := by
  have strings := strings_of_parts [] names mem.isString
  obtain ⟨here, strings⟩ := strings
  refine ⟨_, _, strings, ?_⟩
  intro fuel
  have root : cstring ((name :: rest).flatMap (0 :: ·) ++ 0 :: (mem.path ++ [0])) 1 = name := here
  rw [ext2FindFileInodeOnHeap, if_neg (absolute_ne_root names), strsplit_absolute names]
  simp only [ext2ReadFromRootDirectoryOnHeap, wellFormed.isDirectory, ne_eq, not_true_eq_false,
    if_false, depth_le_one, root]
  rfl

def FindsRightOnHeap (fs : Ext2Driver) (s : KernelSupply) (path : List (List UInt8)) : Prop :=
  ∀ mem inodeOut, ∃ ret inode s',
    (Eventually fun fuel =>
      fs.ext2FindFileInodeOnHeap mem fuel (absolute path) inodeOut s = .ok ((ret, inode), s')) ∧
    (ret ≠ 2 ^ 32 - 1 ↔ ∃ i, fs.Resolves 2 path i) ∧
    ∀ i, fs.Resolves 2 path i → inode = fs.inode i

/-- What the resolution of a path takes from the heap, and that it is right. -/
theorem Findable.spends (wellFormed : fs.WellFormed) {path : List (List UInt8)}
    {uses : List HeapUse} (names : ∀ name ∈ path, IsName name) (findable : fs.Findable path uses)
    (mem : Ext2Memory) (inodeOut : Ext2Inode) : ∃ ret inode,
      (Eventually fun fuel => Spends KernelSupply.take HeapReady
        (fs.ext2FindFileInodeOnHeap mem fuel (absolute path) inodeOut) (ret, inode) uses) ∧
      (ret ≠ 2 ^ 32 - 1 ↔ ∃ i, fs.Resolves 2 path i) ∧
      ∀ i, fs.Resolves 2 path i → inode = fs.inode i := by
  have lasting := heapReady_lasting
  have same : ∀ s, HeapReady s → HeapReady s := fun _ ready => ready
  have kept : ∀ og, Lasting KernelSupply.take fun s => HeapReady s ∧ Handed og s :=
    fun og => lasting.and (handed_lasting og)
  have first : ∀ og s, (HeapReady s ∧ Handed og s) → HeapReady s := fun _ _ both => both.1
  have read : ∀ {i}, fs.Resolves 2 path i → fs.InodeOnDisk i → Spends KernelSupply.take HeapReady
      (fs.ext2ReadInodeOnHeap mem i) (fs.inode i) [.bread] := fun resolves target =>
    spends_ext2ReadInode lasting same wellFormed.geometry (resolves.isInode wellFormed.isInode) target
  -- The buffer for the root directory, and its scan.
  have root : ∀ {name j uses}, IsName name → fs.RootScan name (List.range 12) j uses →
      Eventually fun fuel => Spends KernelSupply.take HeapReady
        (kallocOrPanic "ext2_read_from_root_directory() --> kalloc() failure!.\n" fs.blockSize >>=
          fun _ => fs.readRootBlocksOnHeap mem fuel name (List.range 12)) j
        (.kalloc fs.blockSize :: uses) := by
    intro name j uses isName scan
    refine (spends_rootScan lasting same mem wellFormed isName (fun _ => List.mem_range.mp)
      scan).mono fun fuel scanned => ?_
    exact spends_kalloc lasting same fun _ => scanned.mono fun _ both => both.1
  cases findable with
  | @absentRoot name uses scan absent =>
    obtain ⟨buffer, p, -, equation⟩ := ext2FindFileInodeOnHeap_eq mem wellFormed names inodeOut
    refine ⟨2 ^ 32 - 1, inodeOut, ?_, answer_absent absent inodeOut⟩
    simp only [equation, if_true]
    refine (root (names name List.mem_cons_self) scan).mono fun fuel scanned => ?_
    refine spends_kalloc lasting same fun og => ?_
    rw [← List.append_nil uses]
    exact .bind (kept og) (scanned.mono (first og)) (.pure _)
  | @root name j uses scan found =>
    obtain ⟨buffer, p, -, equation⟩ := ext2FindFileInodeOnHeap_eq mem wellFormed names inodeOut
    have resolves := scan.resolves wellFormed found
    refine ⟨0, fs.inode j, ?_, resolves.answer⟩
    simp only [equation, if_true]
    refine (root (names name List.mem_cons_self) scan).mono fun fuel scanned => ?_
    refine spends_kalloc lasting same fun og => ?_
    refine .bind (kept og) (scanned.mono (first og)) ?_
    rw [if_neg found]
    refine spends_kfree (fun _ both => both) ?_
    exact .bind (kept og) ((read resolves (scan.onDisk found)).mono (first og)) (.pure _)
  | @found name rest j k uses later deep scan found follows empty =>
    obtain ⟨buffer, p, strings, equation⟩ :=
      ext2FindFileInodeOnHeap_eq mem wellFormed names inodeOut
    have start := scan.resolves wellFormed found
    have target := scan.onDisk found
    have resolves := start.append (follows.resolves wellFormed start)
    have below := spends_descend_found lasting same mem wellFormed (fun part member =>
      names part (List.mem_cons_of_mem _ member)) start target follows empty strings
    refine ⟨0, fs.inode k, ?_, resolves.answer⟩
    simp only [equation, if_neg deep]
    refine ((root (names name List.mem_cons_self) scan).and below).mono fun fuel both => ?_
    refine spends_kalloc lasting same fun og => ?_
    refine .bind (kept og) (both.1.mono (first og)) (spends_kalloc (kept og) (first og) fun buf => ?_)
    have keptBoth := (kept og).and (handed_lasting buf)
    have firstBoth : ∀ s, ((HeapReady s ∧ Handed og s) ∧ Handed buf s) → HeapReady s :=
      fun _ all => all.1.1
    rw [show [HeapUse.bread, HeapUse.bread] = [.bread] ++ [.bread] from rfl, ← List.append_assoc]
    refine .bind keptBoth (both.2.mono firstBoth) ?_
    refine .bind keptBoth ((read resolves (follows.onDisk target)).mono firstBoth) ?_
    refine spends_kfree (fun _ all => all.1) (spends_kfree (fun _ all => ⟨all.1.1, all.2⟩) ?_)
    exact .pure _
  | @absent name part before after j k uses later missUses scan found follows misses absent =>
    obtain ⟨buffer, p, strings, equation⟩ :=
      ext2FindFileInodeOnHeap_eq mem wellFormed names inodeOut
    have start := scan.resolves wellFormed found
    have below := spends_descend_stops lasting same mem wellFormed (fun part member =>
      names part (List.mem_cons_of_mem _ member)) start (scan.onDisk found) follows misses strings
    have deep : before ++ part :: after ≠ [] := by simp
    refine ⟨2 ^ 32 - 1, inodeOut, ?_, answer_absent absent inodeOut⟩
    simp only [equation, if_neg deep]
    refine ((root (names name List.mem_cons_self) scan).and below).mono fun fuel both => ?_
    refine spends_kalloc lasting same fun og => ?_
    refine .bind (kept og) (both.1.mono (first og)) (spends_kalloc (kept og) (first og) fun buf => ?_)
    have keptBoth := (kept og).and (handed_lasting buf)
    rw [← List.append_nil (later ++ _)]
    refine .bind keptBoth (both.2.mono fun _ all => all.1.1) ?_
    exact spends_kfree (fun _ all => all.1) (.pure _)

/-- Where the path is resolved on the heap, it is without it. -/
theorem FindsRightOnHeap.findsRight {s : KernelSupply} {path : List (List UInt8)}
    (right : fs.FindsRightOnHeap s path) : fs.FindsRight path := by
  intro mem inodeOut
  obtain ⟨ret, inode, s', returns, answer⟩ := right mem inodeOut
  refine ⟨ret, inode, ?_, answer⟩
  obtain ⟨least, done⟩ := returns
  exact ⟨least, fun fuel enough =>
    ext2FindFileInodeOnHeap_erases fuel _ inodeOut s _ s' (done fuel enough)⟩

def FindableOnHeap (fs : Ext2Driver) (s : KernelSupply) (path : List (List UInt8)) : Prop :=
  ∃ uses, fs.Findable path uses ∧ s.Lasts uses

theorem ext2FindFileInodeOnHeap_starts (mem : Ext2Memory) (wellFormed : fs.WellFormed)
    {path : List (List UInt8)} (nonempty : path ≠ []) (names : ∀ name ∈ path, IsName name)
    (inodeOut : Ext2Inode) (fuel : Nat) : ∃ f,
      fs.ext2FindFileInodeOnHeap mem fuel (absolute path) inodeOut =
        kallocOr id (.panic "ext2_find_file_inode() --> kalloc() failure!\n")
          ((absolute path).length + 1) >>= f := by
  cases path with
  | nil => exact absurd rfl nonempty
  | cons name rest =>
    obtain ⟨buffer, p, -, equation⟩ := ext2FindFileInodeOnHeap_eq mem wellFormed names inodeOut
    exact ⟨_, equation fuel⟩

section Heap

variable {path : List (List UInt8)} {s : KernelSupply}

theorem FindableOnHeap.findsRight (wellFormed : fs.WellFormed) (nonempty : path ≠ [])
    (names : ∀ name ∈ path, IsName name) (reached : Reachable HeapBoot HeapCall s.heap)
    (found : fs.FindableOnHeap s path) : fs.FindsRightOnHeap s path := by
  obtain ⟨uses, findable, lasts⟩ := found
  intro mem inodeOut
  obtain ⟨ret, inode, spends, answer⟩ := findable.spends wellFormed names mem inodeOut
  obtain ⟨s', returns⟩ := (returns_iff_heapLasts
    (ext2FindFileInodeOnHeap_starts mem wellFormed nonempty names inodeOut) reached spends
      (ret, inode)).mpr ⟨rfl, lasts⟩
  exact ⟨ret, inode, s', returns, answer⟩

theorem FindsRightOnHeap.findable (wellFormed : fs.WellFormed) (nonempty : path ≠ [])
    (names : ∀ name ∈ path, IsName name) (reached : Reachable HeapBoot HeapCall s.heap)
    (noMimics : fs.NoMimics 2 path) (right : fs.FindsRightOnHeap s path) :
    fs.FindableOnHeap s path := by
  cases path with
  | nil => exact absurd rfl nonempty
  | cons name rest =>
    obtain ⟨ret, inode, s', ⟨least, done⟩, found_iff, -⟩ := right fs.hostile fs.rootInode
    obtain ⟨uses, findable⟩ := findable_of_hostile wellFormed names noMimics
      (ext2FindFileInodeOnHeap_erases least _ _ s _ s' (done least (Nat.le_refl _))) found_iff
    obtain ⟨ret', inode', spends, -⟩ := findable.spends wellFormed names fs.hostile fs.rootInode
    have lasts := (returns_iff_heapLasts
      (ext2FindFileInodeOnHeap_starts fs.hostile wellFormed nonempty names fs.rootInode) reached
        spends (ret, inode)).mp ⟨s', least, done⟩
    exact ⟨uses, findable, lasts.2⟩

/-- On every heap that is reached, a path is resolved rightly, whatever the memory holds, if the
loops end where they should and the heap lasts for them; and only then, unless it leads through a
file whose data read as a directory. -/
theorem ext2FindFileInode_right_iff (wellFormed : fs.WellFormed) (nonempty : path ≠ [])
    (names : ∀ name ∈ path, IsName name) (reached : Reachable HeapBoot HeapCall s.heap) :
    (fs.FindableOnHeap s path → fs.FindsRightOnHeap s path) ∧
      (fs.NoMimics 2 path → (fs.FindsRightOnHeap s path ↔ fs.FindableOnHeap s path)) := by
  have enough : fs.FindableOnHeap s path → fs.FindsRightOnHeap s path :=
    fun found => found.findsRight wellFormed nonempty names reached
  refine ⟨enough, fun noMimics => ⟨?_, enough⟩⟩
  exact fun right => right.findable wellFormed nonempty names reached noMimics

end Heap

theorem ext2FindFileInode_right_iff_directory : smallImage.FindsRightOnHeap bootSupply [[100]] := by
  refine (ext2FindFileInode_right_iff smallImage_wellFormed (by decide) (by decide)
    bootSupply_reached).1 ?_
  exact ⟨_, .root smallImage_rootScan (by decide), bootSupply_lasts (by decide) (by decide)⟩

/-- `/d/f` is there, and it is not found on any heap. -/
theorem file_notFound : smallImage.WellFormed ∧ smallImage.Resolves 2 [[100], [102]] 4 ∧
    ∀ s, ¬smallImage.FindsRightOnHeap s [[100], [102]] := by
  obtain ⟨wellFormed, resolves, missing⟩ := file_reportedMissing
  refine ⟨wellFormed, resolves, fun s right => ?_⟩
  obtain ⟨ret, inode, returns, found, -⟩ :=
    right.findsRight smallImage.hostile smallImage.rootInode
  obtain ⟨same, -⟩ := Prod.mk.inj (returns.unique (missing _ _))
  exact found.mpr ⟨4, resolves⟩ same

end SwagOS.Fs.Ext2Driver
