import SwagOS.Fs.Ext2.DirectoryAccesses
import SwagOS.Fs.Ext2.Resolution

/-!
# Corrupt directories on the kernel heap

Each record that the loop of `ext2_read_from_directory` comes to takes a block of the heap for its
name.  A loop that stays at a record of length zero takes one on every turn, until `kalloc`
returns `NULL` and the name is copied there.
-/

namespace SwagOS.Fs.Ext2Driver

open SwagOS.Lib SwagOS.Libc SwagOS.Drivers SwagOS.Mem

variable {fs : Ext2Driver} {mem : Ext2Memory}

/-- `ext2_read_from_directory` with a check of each read of the buffer, and with its blocks of the
heap. -/
def ext2ReadFromDirectoryCheckedOnHeap (fs : Ext2Driver) (mem : Ext2Memory) (size : Nat)
    (filename : List UInt8) (dir : Bytes) : Nat → Nat → Consumer KernelSupply (Stop Nat) Nat
  | 0, _ => StateT.lift (throw (.halt .hang))
  | fuel + 1, p => do
      StateT.lift (readBuffer size p 4)
      if dir.u32 p = 0 then pure 0
      else do
        StateT.lift (readBuffer size (p + 6) 1)
        let name ← kallocOr .halt (.halt (.panic "Page Fault Interrupt")) ((dir (p + 6)).toNat + 1)
        StateT.lift (readBuffer size (p + 8) (dir (p + 6)).toNat)
        if strcmp filename (entryName dir p) = 0 then do
          breadOnHeap .halt
          let _ ← StateT.lift (Checked.lift (fs.ext2ReadInode mem (dir.u32 p)))
          kfreeOnHeap .halt name
          pure (dir.u32 p)
        else do
          StateT.lift (readBuffer size (p + 4) 2)
          kfreeOnHeap .halt name
          ext2ReadFromDirectoryCheckedOnHeap fs mem size filename dir fuel (p + dir.u16 (p + 4))

theorem ext2ReadFromDirectoryCheckedOnHeap_erases (size : Nat) (filename : List UInt8)
    (dir : Bytes) (fuel p : Nat) :
    Erases (fs.ext2ReadFromDirectoryCheckedOnHeap mem size filename dir fuel p)
      (fs.ext2ReadFromDirectoryChecked mem size filename dir fuel p) := by
  induction fuel generalizing p with
  | zero => exact .lift _
  | succ fuel inductionHypothesis =>
    rw [ext2ReadFromDirectoryCheckedOnHeap, ext2ReadFromDirectoryChecked]
    refine .bind (.lift _) fun _ => .ite (.pure 0) (.bind (.lift _) fun _ => .skip fun name => ?_)
    refine .bind (.lift _) fun _ => .ite ?_ ?_
    · exact .skip fun _ => .bind (.lift _) fun _ => .skip fun _ => .pure _
    · exact .bind (.lift _) fun _ => .skip fun _ => inductionHypothesis _

def StaysInBufferOnHeap (fs : Ext2Driver) (mem : Ext2Memory) (s : KernelSupply)
    (name : List UInt8) (block : Bytes) (size : Nat) : Prop :=
  ∀ dir : Bytes, (∀ i < size, dir i = block i) → ∃ r s', Eventually fun fuel =>
    fs.ext2ReadFromDirectoryCheckedOnHeap mem size name dir fuel 0 s = .ok (r, s')

def nameUses (block : Bytes) (first count : Nat) : List HeapUse :=
  (List.range' first count).map fun i => nameUse block (recordAt block i)

/-- The lengths lead to an unused record in the buffer, or to the name with an inode that can be
read; the records before it are in the buffer.  This takes the names of the records, and the
sector of the inode. -/
def EndsWithUses (fs : Ext2Driver) (mem : Ext2Memory) (name : List UInt8) (block : Bytes)
    (size : Nat) (uses : List HeapUse) : Prop :=
  ∃ n, (∀ i < n, UsedRecord block size (recordAt block i) ∧
      entryName block (recordAt block i) ≠ name) ∧
    ((recordAt block n + 4 ≤ size ∧ block.u32 (recordAt block n) = 0) ∧
        uses = nameUses block 0 n ∨
      (UsedRecord block size (recordAt block n) ∧ entryName block (recordAt block n) = name ∧
          fs.InodeReadable mem (block.u32 (recordAt block n))) ∧
        uses = nameUses block 0 n ++ [nameUse block (recordAt block n), .bread])

theorem endsInBuffer_iff {name : List UInt8} {block : Bytes} {size : Nat} :
    fs.EndsInBuffer mem name block size ↔ ∃ uses, fs.EndsWithUses mem name block size uses := by
  constructor
  · rintro ⟨n, before, unused | found⟩
    · exact ⟨_, n, before, .inl ⟨unused, rfl⟩⟩
    · exact ⟨_, n, before, .inr ⟨found, rfl⟩⟩
  · rintro ⟨uses, n, before, ⟨unused, -⟩ | ⟨found, -⟩⟩
    · exact ⟨n, before, .inl unused⟩
    · exact ⟨n, before, .inr found⟩

section Loop

variable {name : List UInt8} {dir block : Bytes} {size p : Nat}

theorem readBuffer_ok {count : Nat} (inside : InBuffer size p count) :
    readBuffer size p count = .ok () := Checked.check_eq.mpr inside

theorem UsedRecord.reads (record : UsedRecord dir size p) :
    readBuffer size p 4 = .ok () ∧ readBuffer size (p + 6) 1 = .ok () ∧
      readBuffer size (p + 8) (dir (p + 6)).toNat = .ok () ∧ readBuffer size (p + 4) 2 = .ok () := by
  obtain ⟨whole, nameInside, -⟩ := record
  refine ⟨readBuffer_ok (.inr ?_), readBuffer_ok (.inr ?_), readBuffer_ok nameInside,
    readBuffer_ok (.inr ?_)⟩
  all_goals omega

theorem spends_unused (inside : p + 4 ≤ size) (unused : dir.u32 p = 0) (fuel : Nat) :
    Spends KernelSupply.take HeapReady
      (fs.ext2ReadFromDirectoryCheckedOnHeap mem size name dir (fuel + 1) p) 0 [] := by
  rw [ext2ReadFromDirectoryCheckedOnHeap, if_pos unused]
  exact .bind heapReady_lasting (.lift (readBuffer_ok (.inr inside))) (.pure 0)

theorem spends_found (isString : IsString name) (record : UsedRecord dir size p)
    (same : entryName dir p = name) (readable : fs.InodeReadable mem (dir.u32 p)) (fuel : Nat) :
    Spends KernelSupply.take HeapReady
      (fs.ext2ReadFromDirectoryCheckedOnHeap mem size name dir (fuel + 1) p) (dir.u32 p)
      [nameUse dir p, .bread] := by
  obtain ⟨number, length, nameInside, -⟩ := record.reads
  have inodeRead : ∃ inode, fs.ext2ReadInode mem (dir.u32 p) = .ok inode :=
    (ext2ReadInode_readable _).mpr readable
  obtain ⟨inode, read⟩ := inodeRead
  have found : strcmp name (entryName dir p) = 0 :=
    (strcmp_eq_zero isString (entryName_isString dir p)).mpr same.symm
  rw [ext2ReadFromDirectoryCheckedOnHeap, if_neg record.2.2]
  refine .bind heapReady_lasting (.lift number) (.bind heapReady_lasting (.lift length) ?_)
  refine spends_kalloc heapReady_lasting (fun _ ready => ready) fun address => ?_
  have lasting := heapReady_lasting.and (handed_lasting address)
  rw [if_pos found]
  refine .bind lasting (.lift nameInside) (.bind lasting (spends_bread fun _ both => both.1) ?_)
  refine .bind lasting (.lift (Checked.lift_ok.mpr read)) ?_
  exact spends_kfree (fun _ both => both) (.pure _)

theorem spends_passed (isString : IsString name) (record : UsedRecord dir size p)
    (other : entryName dir p ≠ name) {fuel r : Nat} {uses : List HeapUse}
    (rest : Spends KernelSupply.take HeapReady
      (fs.ext2ReadFromDirectoryCheckedOnHeap mem size name dir fuel (p + dir.u16 (p + 4))) r uses) :
    Spends KernelSupply.take HeapReady
      (fs.ext2ReadFromDirectoryCheckedOnHeap mem size name dir (fuel + 1) p) r
      (nameUse dir p :: uses) := by
  obtain ⟨number, length, nameInside, step⟩ := record.reads
  have differs : ¬strcmp name (entryName dir p) = 0 := fun found =>
    other ((strcmp_eq_zero isString (entryName_isString dir p)).mp found).symm
  rw [ext2ReadFromDirectoryCheckedOnHeap, if_neg record.2.2]
  refine .bind heapReady_lasting (.lift number) (.bind heapReady_lasting (.lift length) ?_)
  refine spends_kalloc heapReady_lasting (fun _ ready => ready) fun address => ?_
  have lasting := heapReady_lasting.and (handed_lasting address)
  rw [if_neg differs]
  refine .bind lasting (.lift nameInside) (.bind lasting (.lift step) ?_)
  exact spends_kfree (fun _ both => both) (rest.mono fun _ both => both.1)

theorem spends_recordAt (isString : IsString name) (agree : ∀ i < size, dir i = block i)
    {first count r : Nat} {uses : List HeapUse}
    (before : ∀ i < first + count, UsedRecord block size (recordAt block i) ∧
      entryName block (recordAt block i) ≠ name)
    (last : Eventually fun fuel => Spends KernelSupply.take HeapReady
      (fs.ext2ReadFromDirectoryCheckedOnHeap mem size name dir fuel
        (recordAt block (first + count))) r uses) :
    Eventually fun fuel => Spends KernelSupply.take HeapReady
      (fs.ext2ReadFromDirectoryCheckedOnHeap mem size name dir fuel (recordAt block first)) r
      (nameUses block first count ++ uses) := by
  induction count generalizing first with
  | zero => exact last
  | succ count inductionHypothesis =>
    obtain ⟨record, other⟩ := before first (by omega)
    obtain ⟨record', -, nameOf, length⟩ := record.agree agree
    have nameLength : dir (recordAt block first + 6) = block (recordAt block first + 6) :=
      agree _ record.1
    have same : first + (count + 1) = first + 1 + count := by omega
    rw [same] at before last
    refine .succ ((inductionHypothesis before last).mono fun fuel rest => ?_)
    have differs : entryName dir (recordAt block first) ≠ name := fun same =>
      other (nameOf.symm.trans same)
    rw [recordAt, ← length] at rest
    have here := spends_passed isString record' differs rest
    rw [nameUse, nameLength] at here
    exact here

theorem EndsWithUses.spends (isString : IsString name) {uses : List HeapUse}
    (ends : fs.EndsWithUses mem name block size uses) (agree : ∀ i < size, dir i = block i) :
    ∃ r, Eventually fun fuel => Spends KernelSupply.take HeapReady
      (fs.ext2ReadFromDirectoryCheckedOnHeap mem size name dir fuel 0) r uses := by
  obtain ⟨n, before, last⟩ := ends
  have upTo : ∀ {r uses}, (Eventually fun fuel => Spends KernelSupply.take HeapReady
      (fs.ext2ReadFromDirectoryCheckedOnHeap mem size name dir fuel (recordAt block n)) r uses) →
      Eventually fun fuel => Spends KernelSupply.take HeapReady
        (fs.ext2ReadFromDirectoryCheckedOnHeap mem size name dir fuel 0) r
        (nameUses block 0 n ++ uses) := by
    intro r uses last
    rw [← Nat.zero_add n] at before last
    exact spends_recordAt isString agree before last
  rcases last with ⟨⟨inside, unused⟩, rfl⟩ | ⟨⟨record, same, readable⟩, rfl⟩
  · have number : dir.u32 (recordAt block n) = 0 := (agree_u32 agree inside).trans unused
    refine ⟨0, ?_⟩
    rw [← List.append_nil (nameUses block 0 n)]
    exact upTo (.succ (.of_forall fun fuel => spends_unused inside number fuel))
  · obtain ⟨record', number, nameOf, -⟩ := record.agree agree
    have nameLength : dir (recordAt block n + 6) = block (recordAt block n + 6) := agree _ record.1
    refine ⟨dir.u32 (recordAt block n), upTo (.succ (.of_forall fun fuel => ?_))⟩
    have here := spends_found isString record' (nameOf.trans same) (number ▸ readable) fuel
    rw [nameUse, nameLength] at here
    exact here

end Loop

theorem EndsWithUses.nil_iff {name : List UInt8} {block : Bytes} {size : Nat}
    {uses : List HeapUse} (ends : fs.EndsWithUses mem name block size uses) :
    (uses = [] ↔ block.u32 0 = 0) ∧ (uses = [] → 4 ≤ size) := by
  obtain ⟨n, before, last⟩ := ends
  cases n with
  | zero =>
    rcases last with ⟨⟨inside, unused⟩, rfl⟩ | ⟨⟨record, -, -⟩, rfl⟩
    · rw [recordAt, Nat.zero_add] at inside
      exact ⟨iff_of_true rfl unused, fun _ => inside⟩
    · exact ⟨iff_of_false (List.cons_ne_nil _ _) record.2.2,
        fun never => absurd never (List.cons_ne_nil _ _)⟩
  | succ n =>
    have used : block.u32 0 ≠ 0 := (before 0 (Nat.succ_pos n)).1.2.2
    have some_ : uses ≠ [] := by
      rcases last with ⟨-, rfl⟩ | ⟨-, rfl⟩
      · exact List.cons_ne_nil _ _
      · exact List.cons_ne_nil _ _
    exact ⟨iff_of_false some_ used, fun never => absurd never some_⟩

theorem checkedOnHeap_unlocked {name : List UInt8} {dir : Bytes} {size p fuel r : Nat}
    {s s' : KernelSupply} (used : dir.u32 p ≠ 0)
    (done : fs.ext2ReadFromDirectoryCheckedOnHeap mem size name dir fuel p s = .ok (r, s')) :
    s.heap.lockHeld = false := by
  cases fuel with
  | zero => cases done
  | succ fuel =>
    rw [ext2ReadFromDirectoryCheckedOnHeap, if_neg used] at done
    obtain ⟨_, t, first, later⟩ := Consumer.bind_ok.mp done
    obtain ⟨_, u, second, rest⟩ := Consumer.bind_ok.mp later
    rw [← (Consumer.lift_ok.mp first).2, ← (Consumer.lift_ok.mp second).2]
    exact kallocOr_unlocked rest

/-- On every heap that is reached: the loop ends within the buffer exactly if the lengths of the
records lead to the name or to an unused record within it, and the heap lasts for the names on
the way. -/
theorem staysInBufferOnHeap_iff {name : List UInt8} (isString : IsString name) (block : Bytes)
    (size : Nat) {s : KernelSupply} (reached : Reachable HeapBoot HeapCall s.heap) :
    fs.StaysInBufferOnHeap mem s name block size ↔
      ∃ uses, fs.EndsWithUses mem name block size uses ∧
        (uses = [] ∨ s.heap.lockHeld = false) ∧ s.Serves uses := by
  constructor
  · intro stays
    obtain ⟨r, s', least, done⟩ := stays block fun _ _ => rfl
    have whole := done least (Nat.le_refl least)
    have erased := ext2ReadFromDirectoryCheckedOnHeap_erases size name block least 0 s r s' whole
    have inBuffer : fs.EndsInBuffer mem name block size :=
      checked_ends (m := 0) isString erased fun i never => absurd never (Nat.not_lt_zero i)
    obtain ⟨uses, ends⟩ := endsInBuffer_iff.mp inBuffer
    have free : uses = [] ∨ s.heap.lockHeld = false := by
      by_cases empty : uses = []
      · exact .inl empty
      · have used : block.u32 0 ≠ 0 := fun unused => empty (ends.nil_iff.1.mpr unused)
        exact .inr (checkedOnHeap_unlocked used whole)
    refine ⟨uses, ends, free, ?_⟩
    rcases free with rfl | unlocked
    · rfl
    · obtain ⟨r', spends⟩ := ends.spends isString fun _ _ => rfl
      have lasts := (returns_iff_lasts spends (.of_reachable reached unlocked)).mp ⟨least, done⟩
      exact Option.isSome_iff_exists.mpr ⟨s', lasts.2⟩
  · rintro ⟨uses, ends, free, serves⟩ dir agree
    rcases free with rfl | unlocked
    · obtain ⟨unused, inside⟩ := ends.nil_iff
      have number : dir.u32 0 = 0 :=
        (agree_u32 agree (by rw [Nat.zero_add]; exact inside rfl)).trans (unused.mp rfl)
      refine ⟨0, s, .succ (.of_forall fun fuel => ?_)⟩
      rw [ext2ReadFromDirectoryCheckedOnHeap, if_pos number]
      exact Consumer.bind_ok.mpr ⟨(), s, Consumer.lift_ok.mpr
        ⟨readBuffer_ok (.inr (by rw [Nat.zero_add]; exact inside rfl)), rfl⟩,
        Consumer.pure_ok.mpr ⟨rfl, rfl⟩⟩
    · obtain ⟨r, spends⟩ := ends.spends isString agree
      obtain ⟨s', taken⟩ := Option.isSome_iff_exists.mp serves
      exact ⟨r, s', (returns_iff_lasts spends (.of_reachable reached unlocked)).mpr ⟨rfl, taken⟩⟩

theorem staysInBufferOnHeap_iff_third :
    smallImage.StaysInBufferOnHeap zeroMemory bootSupply [100] (smallImage.block 10) 1024 := by
  refine (staysInBufferOnHeap_iff (by decide) (smallImage.block 10) 1024 bootSupply_reached).mpr ?_
  have ends : smallImage.EndsWithUses zeroMemory [100] (smallImage.block 10) 1024
      [.kalloc 2, .kalloc 3, .kalloc 2, .bread] := by
    refine ⟨2, ?_, .inr ⟨⟨⟨?_, ?_, ?_⟩, ?_, ?_⟩, ?_⟩⟩
    · have all : ∀ i < 2, (recordAt (smallImage.block 10) i + 7 ≤ 1024 ∧
          recordAt (smallImage.block 10) i + 8 +
            (smallImage.block 10 (recordAt (smallImage.block 10) i + 6)).toNat ≤ 1024 ∧
          (smallImage.block 10).u32 (recordAt (smallImage.block 10) i) ≠ 0) ∧
          entryName (smallImage.block 10) (recordAt (smallImage.block 10) i) ≠ [100] := by
        decide +kernel
      exact fun i below => ⟨⟨(all i below).1.1, .inr (all i below).1.2.1, (all i below).1.2.2⟩,
        (all i below).2⟩
    all_goals decide +kernel
  obtain ⟨unlocked, serves⟩ := bootSupply_lasts
    (by decide : ∀ use ∈ [HeapUse.kalloc 2, .kalloc 3, .kalloc 2, .bread], use.Small) (by decide)
  exact ⟨_, ends, .inr unlocked, serves⟩

theorem emptyRecord_turn {s : KernelSupply} (ready : HeapReady s) (fuel : Nat) :
    (smallDisk 5).ext2ReadFromDirectoryCheckedOnHeap zeroMemory 1024 [98] emptyRecord (fuel + 1) 0 s =
      match s.request 2 with
      | none => .error (.halt (.panic "Page Fault Interrupt"))
      | some t => (smallDisk 5).ext2ReadFromDirectoryCheckedOnHeap zeroMemory 1024 [98] emptyRecord
          fuel 0 t := by
  have used : ¬emptyRecord.u32 0 = 0 := by decide
  have differs : ¬strcmp [98] (entryName emptyRecord 0) = 0 := by decide
  obtain ⟨number, length, nameInside, step⟩ :=
    (show UsedRecord emptyRecord 1024 0 from ⟨by decide, by decide, by decide⟩).reads
  rw [ext2ReadFromDirectoryCheckedOnHeap, if_neg used, number, length, Consumer.lift_bind,
    Consumer.lift_bind]
  cases served : s.request 2 with
  | none => exact kallocOr_refused ready served
  | some t =>
    obtain ⟨address, handed, same⟩ := kallocOr_served ready served
    have kept : HeapReady t := heapReady_lasting s (.kalloc 2) t ready served
    refine same.trans ?_
    rw [if_neg differs, nameInside, step, Consumer.lift_bind, Consumer.lift_bind]
    exact kfreeOnHeap_bind kept handed

theorem emptyRecord_usesUp {n : Nat} {s : KernelSupply} (ready : HeapReady s)
    (left : (freeBlocks s.heap.heap).card = n) :
    (smallDisk 5).ext2ReadFromDirectoryCheckedOnHeap zeroMemory 1024 [98] emptyRecord (n + 1) 0 s =
      .error (.halt (.panic "Page Fault Interrupt")) := by
  induction n generalizing s with
  | zero =>
    have spec := @request_small s 2 ready (by decide)
    rw [emptyRecord_turn ready]
    cases served : s.request 2 with
    | none => rfl
    | some t =>
      rw [served] at spec
      omega
  | succ n inductionHypothesis =>
    have spec := @request_small s 2 ready (by decide)
    rw [emptyRecord_turn ready]
    cases served : s.request 2 with
    | none => rfl
    | some t =>
      rw [served] at spec
      exact inductionHypothesis (heapReady_lasting s (.kalloc 2) t ready served) (by omega)

/-- After boot the loop takes the 16384 blocks of the heap for a record of length zero, and does
not return. -/
theorem emptyRecord_faults :
    (smallDisk 5).ext2ReadFromDirectoryCheckedOnHeap zeroMemory 1024 [98] emptyRecord (2 ^ 14 + 1) 0
        bootSupply = .error (.halt (.panic "Page Fault Interrupt")) ∧
      ¬(smallDisk 5).StaysInBufferOnHeap zeroMemory bootSupply [98] emptyRecord 1024 := by
  refine ⟨emptyRecord_usesUp (.of_reachable bootSupply_reached rfl) (freeBlocks_boot bootRun_boot), ?_⟩
  intro stays
  obtain ⟨r, s', least, done⟩ := stays emptyRecord fun _ _ => rfl
  have erased := ext2ReadFromDirectoryCheckedOnHeap_erases 1024 [98] emptyRecord least 0 bootSupply r
    s' (done least (Nat.le_refl least))
  exact emptyRecord_stays least r erased

end SwagOS.Fs.Ext2Driver
