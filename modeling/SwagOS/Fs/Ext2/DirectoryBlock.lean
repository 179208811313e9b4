import SwagOS.Fs.Ext2.InodeLocation
import SwagOS.Fs.Ext2.Lookup

/-!
# Blocks of directories

The loop of `ext2_read_from_directory` over one block.  The first record that is unused or has
the name ends it: unused records hide those behind them, and behind a block without such a
record the loop goes on in whatever memory is there.
-/

namespace SwagOS.Fs.Ext2Driver

open SwagOS.Lib SwagOS.Libc SwagOS.Drivers

variable {fs : Ext2Driver} {mem : Ext2Memory}

/-- The records of a block from an offset on, with their inode numbers and names.  They fill the
block, and the names fit into them. -/
inductive Tiles (block : Bytes) (size : Nat) : Nat → List (Nat × List UInt8) → Prop where
  | nil : Tiles block size size []
  | cons {p : Nat} {rest : List (Nat × List UInt8)} :
      8 + (block (p + 6)).toNat ≤ block.u16 (p + 4) → p + block.u16 (p + 4) ≤ size →
      Tiles block size (p + block.u16 (p + 4)) rest →
      Tiles block size p ((block.u32 p, nameAt block p) :: rest)

/-- The name up to its first zero, as `strcmp` takes it. -/
def cname (name : List UInt8) : List UInt8 := name.takeWhile (· != 0)

def InodeReadable (fs : Ext2Driver) (mem : Ext2Memory) (j : Nat) : Prop :=
  offsetToSector (fs.ext2GetInodeOffset mem j / 512 * 512) < fssize

instance (fs : Ext2Driver) (mem : Ext2Memory) (j : Nat) : Decidable (fs.InodeReadable mem j) :=
  inferInstanceAs (Decidable (_ < _))

/-- Whatever lies behind the block, the loop returns the inode number of a record in use with the
name, or zero if there is none. -/
def AnswersRight (fs : Ext2Driver) (mem : Ext2Memory) (name : List UInt8) (block : Bytes)
    (size : Nat) (records : List (Nat × List UInt8)) : Prop :=
  ∀ dir : Bytes, (∀ i < size, dir i = block i) →
    ∃ r, Outcome.Returns (fun fuel => fs.ext2ReadFromDirectory mem name dir fuel 0) r ∧
      (r ≠ 0 → (r, name) ∈ records) ∧ (r = 0 → ∀ j ≠ 0, (j, name) ∉ records)

def Passes (name : List UInt8) (entry : Nat × List UInt8) : Prop :=
  entry.1 ≠ 0 ∧ cname entry.2 ≠ name

/-- A record ends the loop.  Either it is unused and none behind it has the name, or it has the
name and its inode can be read. -/
def Settled (fs : Ext2Driver) (mem : Ext2Memory) (name : List UInt8)
    (records : List (Nat × List UInt8)) : Prop :=
  ∃ before j other after, records = before ++ (j, other) :: after ∧
    (∀ entry ∈ before, Passes name entry) ∧
    (j = 0 ∧ (∀ i ≠ 0, (i, name) ∉ after) ∨
      j ≠ 0 ∧ cname other = name ∧ (j, name) ∈ records ∧ fs.InodeReadable mem j)

theorem cname_eq {name : List UInt8} (isString : IsString name) : cname name = name :=
  isString.takeWhile

/-- Reading an inode stops the machine only at the disk driver. -/
theorem ext2ReadInode_readable (j : Nat) :
    (∃ inode, fs.ext2ReadInode mem j = .ok inode) ↔ fs.InodeReadable mem j := by
  rw [ext2ReadInode, InodeReadable, readDiskSector]
  split
  next refused =>
    refine iff_of_false ?_ (Nat.not_lt_of_le refused)
    rintro ⟨inode, done⟩
    cases done
  next known => exact iff_of_true ⟨_, rfl⟩ (Nat.lt_of_not_le known)

theorem passes_or_first (name : List UInt8) (records : List (Nat × List UInt8)) :
    (∀ entry ∈ records, Passes name entry) ∨ ∃ before j other after,
      records = before ++ (j, other) :: after ∧ (∀ entry ∈ before, Passes name entry) ∧
        (j = 0 ∨ j ≠ 0 ∧ cname other = name) := by
  induction records with
  | nil => exact .inl fun _ never => absurd never List.not_mem_nil
  | cons entry rest inductionHypothesis =>
    obtain ⟨j, other⟩ := entry
    by_cases passes : Passes name (j, other)
    · rcases inductionHypothesis with all | ⟨before, i, found, after, rfl, passed, ends⟩
      · exact .inl (List.forall_mem_cons.mpr ⟨passes, all⟩)
      · exact .inr ⟨(j, other) :: before, i, found, after, rfl,
          List.forall_mem_cons.mpr ⟨passes, passed⟩, ends⟩
    · refine .inr ⟨[], j, other, rest, rfl, fun _ never => absurd never List.not_mem_nil, ?_⟩
      by_cases unused : j = 0
      · exact .inl unused
      · exact .inr ⟨unused, not_not.mp fun different => passes ⟨unused, different⟩⟩

section Scan

variable {block : Bytes} {size p : Nat} {name : List UInt8}

theorem Tiles.skip (fs : Ext2Driver) (mem : Ext2Memory) (isString : IsString name)
    {before rest : List (Nat × List UInt8)} (tiles : Tiles block size p (before ++ rest))
    (passed : ∀ entry ∈ before, Passes name entry) :
    ∃ q, Tiles block size q rest ∧ ∀ dir : Bytes, (∀ i < size, dir i = block i) → ∀ fuel,
      fs.ext2ReadFromDirectory mem name dir (fuel + before.length) p =
        fs.ext2ReadFromDirectory mem name dir fuel q := by
  induction before generalizing p with
  | nil => exact ⟨p, tiles, fun _ _ _ => rfl⟩
  | cons entry before inductionHypothesis =>
    obtain ⟨first, others⟩ := List.forall_mem_cons.mp passed
    cases tiles with
    | cons space inside tiles =>
      obtain ⟨q, tiles, same⟩ := inductionHypothesis tiles others
      refine ⟨q, tiles, fun dir agree fuel => ?_⟩
      obtain ⟨used, other⟩ := first
      have different : name ≠ entryName block p := Ne.symm other
      have number := agree_u32 agree (p := p) (by omega)
      have length := agree_size agree (p := p) (by omega)
      have nameOf := agree_name agree (p := p) (by omega)
      rw [List.length_cons, ← Nat.add_assoc, scan_succ isString, number, nameOf, if_neg used,
        if_neg different, length]
      exact same dir agree fuel

theorem Tiles.here (fs : Ext2Driver) (mem : Ext2Memory) (isString : IsString name) {j : Nat}
    {other : List UInt8} {rest : List (Nat × List UInt8)}
    (tiles : Tiles block size p ((j, other) :: rest)) {dir : Bytes}
    (agree : ∀ i < size, dir i = block i) (fuel : Nat) :
    fs.ext2ReadFromDirectory mem name dir (fuel + 1) p =
      if j = 0 then pure 0
      else if name = cname other then do
        let _ ← fs.ext2ReadInode mem j
        pure j
      else fs.ext2ReadFromDirectory mem name dir fuel (p + dir.u16 (p + 4)) := by
  cases tiles with
  | cons space inside tiles =>
    have number := agree_u32 agree (p := p) (by omega)
    have nameOf := agree_name agree (p := p) (by omega)
    rw [scan_succ isString, number, nameOf]
    rfl

def looping (name : List UInt8) (block : Bytes) (size : Nat) : Bytes :=
  fun i =>
    if i < size then block i
    else if i = size then 1
    else if i = size + 6 then 1
    else if i = size + 8 then if name = [1] then 2 else 1
    else 0

theorem looping_block (name : List UInt8) (block : Bytes) (size : Nat) :
    ∀ i < size, looping name block size i = block i := fun _ below => if_pos below

theorem scan_looping (isString : IsString name) (fuel r : Nat) :
    fs.ext2ReadFromDirectory mem name (looping name block size) fuel size ≠ .ok r := by
  have behind : ∀ i, looping name block size (size + i) =
      if i = 0 then 1 else if i = 6 then 1 else if i = 8 then if name = [1] then 2 else 1 else 0 := by
    intro i
    rw [looping, if_neg (by omega)]
    simp only [Nat.add_eq_left, Nat.add_right_inj]
  have used : (looping name block size).u32 size ≠ 0 := by
    have first := behind 0
    rw [Nat.add_zero, if_pos rfl] at first
    have one : (1 : UInt8).toNat = 1 := rfl
    rw [Bytes.u32, Bytes.u16, first, one]
    omega
  have same : (looping name block size).u16 (size + 4) = 0 := by
    rw [Bytes.u16, Nat.add_assoc, behind, behind]
    rfl
  have other : name ≠ entryName (looping name block size) size := by
    rw [entryName, behind]
    have one : Bytes.slice (looping name block size) (size + 8) (1 : UInt8).toNat =
        [if name = [1] then 2 else 1] := by
      show [looping name block size (size + 8 + 0)] = _
      rw [Nat.add_assoc, behind]
      rfl
    rw [if_neg (by decide), if_pos rfl, one]
    split
    next same =>
      rw [same]
      decide
    next different => exact different
  induction fuel with
  | zero => exact fun done => by cases done
  | succ fuel inductionHypothesis =>
    rw [scan_succ isString, if_neg used, if_neg other, same]
    exact inductionHypothesis

end Scan

theorem not_answersRight {name : List UInt8} (isString : IsString name) {block : Bytes} {size : Nat}
    {records : List (Nat × List UInt8)} (tiles : Tiles block size 0 records)
    (all : ∀ entry ∈ records, Passes name entry) :
    ¬fs.AnswersRight mem name block size records := by
  intro right
  rw [← List.append_nil records] at tiles
  obtain ⟨q, atEnd, skipped⟩ := tiles.skip fs mem isString all
  cases atEnd
  obtain ⟨r, returns, -⟩ := right _ (looping_block name block size)
  obtain ⟨fuel, done⟩ := ((Outcome.returns_add _ records.length).mpr returns).exists
  rw [skipped _ (looping_block name block size)] at done
  exact scan_looping isString fuel r done

/-- In a well-formed block the loop finds the name, or that there is none, exactly if a record
settles it. -/
theorem ext2ReadFromDirectory_right_iff {name : List UInt8} (isString : IsString name)
    {block : Bytes} {size : Nat} {records : List (Nat × List UInt8)}
    (tiles : Tiles block size 0 records) :
    fs.AnswersRight mem name block size records ↔ fs.Settled mem name records := by
  constructor
  · intro right
    rcases passes_or_first name records with all | ⟨before, j, other, after, rfl, passed, ends⟩
    · exact absurd right (not_answersRight isString tiles all)
    · obtain ⟨r, returns, found, none_⟩ := right block fun _ _ => rfl
      refine ⟨before, j, other, after, rfl, passed, ?_⟩
      obtain ⟨q, atRecord, skipped⟩ := tiles.skip fs mem isString passed
      obtain ⟨fuel, done⟩ := ((Outcome.returns_add _ (1 + before.length)).mpr returns).exists
      rw [← Nat.add_assoc, skipped block fun _ _ => rfl,
        atRecord.here fs mem isString fun _ _ => rfl] at done
      rcases ends with unused | ⟨used, same⟩
      · rw [if_pos unused] at done
        obtain rfl : 0 = r := Except.ok.inj done
        refine .inl ⟨unused, fun i notZero member => none_ rfl i notZero ?_⟩
        exact List.mem_append_right _ (List.mem_cons_of_mem _ member)
      · rw [if_neg used, if_pos same.symm] at done
        obtain ⟨inode, read, result⟩ := Outcome.bind_ok.mp done
        obtain rfl : j = r := Except.ok.inj result
        exact .inr ⟨used, same, found used, (ext2ReadInode_readable j).mp ⟨inode, read⟩⟩
  · rintro ⟨before, j, other, after, rfl, passed, settles⟩ dir agree
    obtain ⟨q, atRecord, skipped⟩ := tiles.skip fs mem isString passed
    have returns : ∀ r, Outcome.Returns
        (fun fuel => fs.ext2ReadFromDirectory mem name dir (fuel + 1) q) r →
        Outcome.Returns (fun fuel => fs.ext2ReadFromDirectory mem name dir fuel 0) r := by
      intro r here
      rw [← Outcome.returns_add _ before.length]
      simp only [skipped dir agree]
      exact here.succ
    simp only [atRecord.here fs mem isString agree] at returns
    rcases settles with ⟨unused, hidden⟩ | ⟨used, same, member, readable⟩
    · refine ⟨0, returns 0 ?_, fun never => absurd rfl never, ?_⟩
      · simp only [if_pos unused]
        exact .const rfl
      · intro _ i notZero member
        rcases List.mem_append.mp member with early | later
        · exact (passed _ early).2 (cname_eq isString)
        · rcases List.mem_cons.mp later with here | behind
          · exact notZero ((congrArg Prod.fst here).trans unused)
          · exact hidden i notZero behind
    · obtain ⟨inode, read⟩ := (ext2ReadInode_readable j).mpr readable
      refine ⟨j, returns j ?_, fun _ => member, fun zero => absurd zero used⟩
      simp only [if_neg used, if_pos same.symm, read]
      exact .const rfl

def fullBlock : Bytes :=
  fun i => if i = 0 then 1 else if i = 5 then 4 else if i = 6 then 1 else if i = 8 then 97 else 0

theorem fullBlock_tiles : Tiles fullBlock 1024 0 [(1, [97])] := by
  apply Tiles.cons (p := 0)
  · decide
  · decide
  · exact .nil

theorem ext2ReadFromDirectory_right_iff_fullBlock :
    (smallDisk 5).AnswersRight zeroMemory [97] fullBlock 1024 [(1, [97])] := by
  apply (ext2ReadFromDirectory_right_iff (by decide) fullBlock_tiles).mpr
  refine ⟨[], 1, [97], [], rfl, fun _ never => absurd never List.not_mem_nil, .inr ?_⟩
  exact ⟨by decide, by decide, List.mem_cons_self, by decide⟩

/-- That another name is not in the block is not found out. -/
theorem fullBlock_left : ¬∀ (fs : Ext2Driver) (mem : Ext2Memory) (name : List UInt8) (block : Bytes)
    (size : Nat) (records : List (Nat × List UInt8)), IsString name → Tiles block size 0 records →
      fs.AnswersRight mem name block size records := by
  intro right
  have answers := right (smallDisk 5) zeroMemory [98] fullBlock 1024 _ (by decide) fullBlock_tiles
  refine not_answersRight (by decide) fullBlock_tiles ?_ answers
  intro entry member
  obtain rfl := List.mem_singleton.mp member
  exact ⟨by decide, by decide⟩

end SwagOS.Fs.Ext2Driver
