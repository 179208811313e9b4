import SwagOS.Fs.Ext2.DirectoryBlock
import SwagOS.Lib.Checked

/-!
# Corrupt directories

`ext2_read_from_directory` with a check of each read: it is one of the bytes of the buffer.  The
loop follows the lengths that it finds and compares them with nothing.
-/

namespace SwagOS.Fs.Ext2Driver

open SwagOS.Lib SwagOS.Libc SwagOS.Drivers

variable {fs : Ext2Driver} {mem : Ext2Memory}

/-- `count` bytes from an offset on are in the buffer. -/
def InBuffer (size p count : Nat) : Prop := count = 0 ∨ p + count ≤ size

instance (size p count : Nat) : Decidable (InBuffer size p count) :=
  inferInstanceAs (Decidable (_ ∨ _))

def readBuffer (size p count : Nat) : Checked Nat Unit := Checked.check (InBuffer size p count) p

/-- `ext2_read_from_directory` from the record at an offset on. -/
def ext2ReadFromDirectoryChecked (fs : Ext2Driver) (mem : Ext2Memory) (size : Nat)
    (filename : List UInt8) (dir : Bytes) : Nat → Nat → Checked Nat Nat
  | 0, _ => throw (.halt .hang)
  | fuel + 1, p => do
      readBuffer size p 4
      if dir.u32 p = 0 then pure 0
      else do
        readBuffer size (p + 6) 1
        readBuffer size (p + 8) (dir (p + 6)).toNat
        if strcmp filename (entryName dir p) = 0 then do
          let _ ← Checked.lift (fs.ext2ReadInode mem (dir.u32 p))
          pure (dir.u32 p)
        else do
          readBuffer size (p + 4) 2
          ext2ReadFromDirectoryChecked fs mem size filename dir fuel (p + dir.u16 (p + 4))

theorem ext2ReadFromDirectoryChecked_guards (size : Nat) (filename : List UInt8) (dir : Bytes)
    (fuel p : Nat) :
    (fs.ext2ReadFromDirectoryChecked mem size filename dir fuel p).Guards
      (fs.ext2ReadFromDirectory mem filename dir fuel p) := by
  induction fuel generalizing p with
  | zero => exact Checked.guards_halt _
  | succ fuel inductionHypothesis =>
    rw [ext2ReadFromDirectoryChecked, ext2ReadFromDirectory]
    apply Checked.Guards.bind_pure Checked.guards_check
    apply Checked.Guards.ite (Checked.guards_pure 0)
    apply Checked.Guards.bind_pure Checked.guards_check
    apply Checked.Guards.bind_pure Checked.guards_check
    apply Checked.Guards.ite
    · exact Checked.Guards.bind (fun _ => rfl) fun _ => Checked.guards_pure _
    · exact Checked.Guards.bind_pure Checked.guards_check (inductionHypothesis _)

def StaysInBuffer (fs : Ext2Driver) (mem : Ext2Memory) (name : List UInt8) (block : Bytes)
    (size : Nat) : Prop :=
  ∀ dir : Bytes, (∀ i < size, dir i = block i) → ∃ r least, ∀ fuel ≥ least,
    fs.ext2ReadFromDirectoryChecked mem size name dir fuel 0 = .ok r

def recordAt (block : Bytes) : Nat → Nat
  | 0 => 0
  | n + 1 => recordAt block n + block.u16 (recordAt block n + 4)

def UsedRecord (block : Bytes) (size p : Nat) : Prop :=
  p + 7 ≤ size ∧ InBuffer size (p + 8) (block (p + 6)).toNat ∧ block.u32 p ≠ 0

/-- The lengths lead to an unused record in the buffer, or to the name with an inode that can be
read; the records before it are in the buffer. -/
def EndsInBuffer (fs : Ext2Driver) (mem : Ext2Memory) (name : List UInt8) (block : Bytes)
    (size : Nat) : Prop :=
  ∃ n, (∀ i < n, UsedRecord block size (recordAt block i) ∧
      entryName block (recordAt block i) ≠ name) ∧
    (recordAt block n + 4 ≤ size ∧ block.u32 (recordAt block n) = 0 ∨
      UsedRecord block size (recordAt block n) ∧ entryName block (recordAt block n) = name ∧
        fs.InodeReadable mem (block.u32 (recordAt block n)))

section Loop

variable {name : List UInt8} {dir block : Bytes} {size p : Nat}

theorem inBuffer_succ {n : Nat} : InBuffer size p (n + 1) ↔ p + (n + 1) ≤ size :=
  or_iff_right (Nat.succ_ne_zero n)

theorem checked_unused (unused : dir.u32 p = 0) (fuel r : Nat) :
    fs.ext2ReadFromDirectoryChecked mem size name dir (fuel + 1) p = .ok r ↔
      p + 4 ≤ size ∧ r = 0 := by
  rw [ext2ReadFromDirectoryChecked, readBuffer, Checked.check_bind_eq, inBuffer_succ, if_pos unused,
    Checked.pure_eq, eq_comm]

theorem checked_used (isString : IsString name) (used : dir.u32 p ≠ 0) (fuel r : Nat) :
    fs.ext2ReadFromDirectoryChecked mem size name dir (fuel + 1) p = .ok r ↔
      UsedRecord dir size p ∧
        if entryName dir p = name then fs.InodeReadable mem (dir.u32 p) ∧ r = dir.u32 p
        else fs.ext2ReadFromDirectoryChecked mem size name dir fuel (p + dir.u16 (p + 4)) = .ok r := by
  rw [ext2ReadFromDirectoryChecked, readBuffer, Checked.check_bind_eq, inBuffer_succ, if_neg used,
    readBuffer, Checked.check_bind_eq, inBuffer_succ, readBuffer, Checked.check_bind_eq]
  have record : UsedRecord dir size p ↔
      p + (3 + 1) ≤ size ∧ p + 6 + (0 + 1) ≤ size ∧ InBuffer size (p + 8) (dir (p + 6)).toNat := by
    rw [UsedRecord, and_iff_left used]
    constructor
    · rintro ⟨whole, nameInside⟩
      exact ⟨by omega, whole, nameInside⟩
    · rintro ⟨-, whole, nameInside⟩
      exact ⟨whole, nameInside⟩
  rw [record, and_assoc, and_assoc]
  refine and_congr_right fun _ => and_congr_right fun whole => and_congr_right fun _ => ?_
  by_cases same : entryName dir p = name
  · have found : strcmp name (entryName dir p) = 0 :=
      (strcmp_eq_zero isString (entryName_isString dir p)).mpr same.symm
    rw [if_pos same, if_pos found, Checked.bind_eq, ← ext2ReadInode_readable]
    simp only [Checked.lift_ok, Checked.pure_eq]
    rw [exists_and_right, eq_comm]
  · have notFound : strcmp name (entryName dir p) ≠ 0 := fun found =>
      same ((strcmp_eq_zero isString (entryName_isString dir p)).mp found).symm
    rw [if_neg same, if_neg notFound, readBuffer, Checked.check_bind_eq, inBuffer_succ]
    refine and_iff_right ?_
    omega

theorem UsedRecord.agree (agree : ∀ i < size, dir i = block i) (record : UsedRecord block size p) :
    UsedRecord dir size p ∧ dir.u32 p = block.u32 p ∧ entryName dir p = entryName block p ∧
      dir.u16 (p + 4) = block.u16 (p + 4) := by
  obtain ⟨whole, nameInside, used⟩ := record
  have number : dir.u32 p = block.u32 p := agree_u32 agree (by omega)
  have length : dir (p + 6) = block (p + 6) := agree (p + 6) whole
  refine ⟨⟨whole, ?_, ?_⟩, number, ?_, ?_⟩
  · rw [length]
    exact nameInside
  · rw [number]
    exact used
  · rw [entryName, entryName, length]
    congr 1
    apply Bytes.slice_congr
    intro i below
    rcases nameInside with empty | inside
    · omega
    · exact agree (p + 8 + i) (by omega)
  · exact Bytes.u16_congr fun i below => agree (p + 4 + i) (by omega)

theorem checked_recordAt (isString : IsString name) (agree : ∀ i < size, dir i = block i) {n : Nat}
    (before : ∀ i < n, UsedRecord block size (recordAt block i) ∧
      entryName block (recordAt block i) ≠ name) (fuel r : Nat) :
    fs.ext2ReadFromDirectoryChecked mem size name dir (fuel + n) 0 = .ok r ↔
      fs.ext2ReadFromDirectoryChecked mem size name dir fuel (recordAt block n) = .ok r := by
  induction n generalizing fuel with
  | zero => exact Iff.rfl
  | succ n inductionHypothesis =>
    obtain ⟨record, other⟩ := before n (Nat.lt_succ_self n)
    obtain ⟨record', number, nameOf, length⟩ := record.agree agree
    have earlier := inductionHypothesis (fun i below => before i (Nat.lt_succ_of_lt below)) (fuel + 1)
    rw [Nat.add_right_comm, Nat.add_assoc] at earlier
    rw [earlier, checked_used isString record'.2.2, nameOf, if_neg other, length, recordAt]
    exact and_iff_right record'

theorem checked_ends (isString : IsString name) {fuel m r : Nat}
    (done : fs.ext2ReadFromDirectoryChecked mem size name block fuel (recordAt block m) = .ok r)
    (before : ∀ i < m, UsedRecord block size (recordAt block i) ∧
      entryName block (recordAt block i) ≠ name) : fs.EndsInBuffer mem name block size := by
  induction fuel generalizing m with
  | zero => cases done
  | succ fuel inductionHypothesis =>
    by_cases used : block.u32 (recordAt block m) = 0
    · obtain ⟨inside, -⟩ := (checked_unused used fuel r).mp done
      exact ⟨m, before, .inl ⟨inside, used⟩⟩
    · obtain ⟨record, rest⟩ := (checked_used isString used fuel r).mp done
      split at rest
      next same => exact ⟨m, before, .inr ⟨record, same, rest.1⟩⟩
      next other =>
        apply inductionHypothesis (m := m + 1) rest
        intro i below
        rcases Nat.lt_succ_iff_lt_or_eq.mp below with earlier | rfl
        · exact before i earlier
        · exact ⟨record, other⟩

end Loop

/-- The loop ends within the buffer exactly if the lengths of the records lead to the name or to
an unused record within it. -/
theorem staysInBuffer_iff {name : List UInt8} (isString : IsString name) (block : Bytes)
    (size : Nat) : fs.StaysInBuffer mem name block size ↔ fs.EndsInBuffer mem name block size := by
  constructor
  · intro stays
    obtain ⟨r, least, done⟩ := stays block fun _ _ => rfl
    apply checked_ends (m := 0) isString (done least (Nat.le_refl least))
    exact fun i never => absurd never (Nat.not_lt_zero i)
  · rintro ⟨n, before, last⟩ dir agree
    have ends : ∃ r, ∀ fuel, fs.ext2ReadFromDirectoryChecked mem size name dir (fuel + 1)
        (recordAt block n) = .ok r := by
      rcases last with ⟨inside, unused⟩ | ⟨record, same, readable⟩
      · have number : dir.u32 (recordAt block n) = 0 := (agree_u32 agree inside).trans unused
        exact ⟨0, fun fuel => (checked_unused number fuel 0).mpr ⟨inside, rfl⟩⟩
      · obtain ⟨record', number, nameOf, -⟩ := record.agree agree
        refine ⟨block.u32 (recordAt block n), fun fuel => ?_⟩
        refine (checked_used isString record'.2.2 fuel _).mpr ⟨record', ?_⟩
        rw [if_pos (nameOf.trans same), number]
        exact ⟨readable, rfl⟩
    obtain ⟨r, ends⟩ := ends
    refine ⟨r, n + 1, fun fuel enough => ?_⟩
    obtain ⟨k, rfl⟩ := Nat.exists_eq_add_of_le' enough
    rw [← Nat.add_assoc, Nat.add_right_comm]
    exact (checked_recordAt isString agree before (k + 1) r).mpr (ends k)

def emptyRecord : Bytes := fun i => if i = 0 then 1 else if i = 6 then 1 else if i = 8 then 97 else 0

/-- With a heap that never ends the loop would stay at such a record. -/
theorem emptyRecord_stays (fuel r : Nat) : (smallDisk 5).ext2ReadFromDirectoryChecked zeroMemory
    1024 [98] emptyRecord fuel 0 ≠ .ok r := by
  induction fuel with
  | zero => exact fun done => by cases done
  | succ fuel inductionHypothesis =>
    rw [ne_eq, checked_used (by decide) (by decide), if_neg (by decide)]
    exact fun both => inductionHypothesis both.2

end SwagOS.Fs.Ext2Driver
