import Mathlib.Algebra.Order.BigOperators.Group.List
import Mathlib.Algebra.Order.Group.Nat
import SwagOS.Fs.Ext2.Contents

/-!
# Double-indirect blocks

What `ext2_read_double_indirect` makes of the buffers that it collects, whatever the function
for a single-indirect block returns.  The offset of the copies is never moved on, so that all
buffers are copied to the start; what is right is a result that comes from one buffer.
-/

namespace SwagOS.Fs.Ext2Driver

open SwagOS.Lib

variable (fs : Ext2Driver)

section Definitions

-- A function in the place of `ext2_read_single_indirect`, with the number of the call.
variable (single : Nat → Nat → Nat → Outcome (Bytes × Nat))

def collect (fuel : Nat) (blocks : Bytes) (i : Nat) : Nat → Outcome (List (Bytes × Nat))
  | 0 => pure []
  | left + 1 =>
      if blocks.u32 (4 * i) = 0 then
        throw (.panic "ext2_read_double_indirect() --> blocks[i] was null. Misalignment. \n")
      else do
        let first ← single fuel (i + 2) (blocks.u32 (4 * i))
        let rest ← collect fuel blocks (i + 1) left
        pure (first :: rest)

/-- `ext2_read_double_indirect` over what its two buffers hold when they are allocated. -/
def doubleIndirectBy (pointers fresh : Bytes) (fuel blockno : Nat) : Outcome (Bytes × Nat) := do
  let blocks ← fs.ext2ReadBlock pointers 0 blockno
  let totalBlocks ← countBlocks blocks fuel 0
  if totalBlocks > fs.maxBlocks then
    throw (.panic "ext2_read_double_indirect() --> total_blocks > max_blocks!\n")
  else
    let buffers ← collect single fuel blocks 0 totalBlocks
    let outBuf := buffers.foldl (fun out (buf, size) => out.memcpy 0 buf size) fresh
    pure (outBuf, (buffers.map Prod.snd).sum % 2 ^ 32)

def ConcatenationRight (pointers : Bytes) (blockno : Nat) (buffers : List (Bytes × Nat)) : Prop :=
  ∀ fresh, ∃ out, Outcome.Returns
      (fun fuel => fs.doubleIndirectBy single pointers fresh fuel blockno)
      (out, (buffers.map Prod.snd).sum) ∧
    out.slice 0 (buffers.map Prod.snd).sum = buffers.flatMap fun b => b.1.slice 0 b.2

/-- The block holds a pointer for each buffer, the next one is zero, and the calls return the
buffers. -/
structure DoubleIndirect (pointers blocks : Bytes) (blockno : Nat) (buffers : List (Bytes × Nat)) :
    Prop where
  read : fs.ext2ReadBlock pointers 0 blockno = .ok blocks
  few : buffers.length ≤ fs.maxBlocks
  present : ∀ i < buffers.length, blocks.u32 (4 * i) ≠ 0
  next : blocks.u32 (4 * buffers.length) = 0
  returns : ∀ i (inside : i < buffers.length),
    Outcome.Returns (fun fuel => single fuel (i + 2) (blocks.u32 (4 * i))) buffers[i]
  sizes : ∀ b ∈ buffers, b.2 < 2 ^ 32

end Definitions

variable {fs}

theorem readSingleIndirects_eq (mem : Ext2Memory) (fuel : Nat) (blocks : Bytes) (i left : Nat) :
    fs.readSingleIndirects mem fuel blocks i left =
      collect (fs.ext2ReadSingleIndirect mem) fuel blocks i left := by
  induction left generalizing i with
  | zero => rfl
  | succ left inductionHypothesis => rw [readSingleIndirects, collect, inductionHypothesis]

theorem ext2ReadDoubleIndirect_eq (mem : Ext2Memory) (fuel blockno : Nat) :
    fs.ext2ReadDoubleIndirect mem fuel blockno =
      fs.doubleIndirectBy (fs.ext2ReadSingleIndirect mem) (mem.pointers 1) (mem.contents 1) fuel
        blockno := by
  simp only [ext2ReadDoubleIndirect, doubleIndirectBy, readSingleIndirects_eq]

section Copies

variable {buffers : List (Bytes × Nat)} {out : Bytes}

def copies (buffers : List (Bytes × Nat)) (out : Bytes) : Bytes :=
  buffers.foldl (fun out (buf, size) => out.memcpy 0 buf size) out

theorem copies_outside {p : Nat} (short : ∀ b ∈ buffers, b.2 ≤ p) : copies buffers out p = out p := by
  induction buffers generalizing out with
  | nil => rfl
  | cons b rest inductionHypothesis =>
    have first : b.2 ≤ p := short b List.mem_cons_self
    have later : copies rest (out.memcpy 0 b.1 b.2) p = out.memcpy 0 b.1 b.2 p :=
      inductionHypothesis fun b member => short b (List.mem_cons_of_mem _ member)
    exact later.trans (Bytes.memcpy_outside (.inr (by omega)))

theorem size_le_sum {b : Bytes × Nat} (member : b ∈ buffers) :
    b.2 ≤ (buffers.map Prod.snd).sum :=
  List.le_sum_of_mem (List.mem_map_of_mem member)

theorem size_lt_sum (more : ¬buffers.Pairwise fun a b => a.2 = 0 ∨ b.2 = 0) :
    ∀ b ∈ buffers, b.2 < (buffers.map Prod.snd).sum := by
  induction buffers with
  | nil => exact absurd List.Pairwise.nil more
  | cons first rest inductionHypothesis =>
    rw [List.pairwise_cons] at more
    rw [List.map_cons, List.sum_cons]
    by_cases later : rest.Pairwise fun a b => a.2 = 0 ∨ b.2 = 0
    · -- The first buffer is one of them.
      obtain ⟨c, member, filled⟩ : ∃ c ∈ rest, ¬(first.2 = 0 ∨ c.2 = 0) := by
        by_contra none
        apply more
        refine ⟨?_, later⟩
        intro c member
        exact by_contra fun filled => none ⟨c, member, filled⟩
      have atLeast := size_le_sum member
      intro b here
      rcases List.mem_cons.mp here with rfl | behind
      · omega
      · have atMost := size_le_sum behind
        omega
    · have less := inductionHypothesis later
      intro b here
      rcases List.mem_cons.mp here with rfl | behind
      · cases rest with
        | nil => exact absurd List.Pairwise.nil later
        | cons c more =>
          have positive := less c List.mem_cons_self
          omega
      · have atMost := less b behind
        omega

theorem sum_empty (empty : ∀ b ∈ buffers, b.2 = 0) : (buffers.map Prod.snd).sum = 0 := by
  apply List.sum_eq_zero
  intro size member
  obtain ⟨b, inside, rfl⟩ := List.mem_map.mp member
  exact empty b inside

theorem sum_single (single : buffers.Pairwise fun a b => a.2 = 0 ∨ b.2 = 0) :
    (buffers.map Prod.snd).sum = 0 ∨ ∃ b ∈ buffers, (buffers.map Prod.snd).sum = b.2 := by
  induction buffers with
  | nil => exact .inl rfl
  | cons b rest inductionHypothesis =>
    obtain ⟨others, single⟩ := List.pairwise_cons.mp single
    rw [List.map_cons, List.sum_cons]
    by_cases empty : b.2 = 0
    · rw [empty, Nat.zero_add]
      rcases inductionHypothesis single with nothing | ⟨c, member, same⟩
      · exact .inl nothing
      · exact .inr ⟨c, List.mem_cons_of_mem b member, same⟩
    · have none : ∀ c ∈ rest, c.2 = 0 := fun c member => (others c member).resolve_left empty
      right
      exact ⟨b, List.mem_cons_self, by rw [sum_empty none, Nat.add_zero]⟩

theorem copies_single (single : buffers.Pairwise fun a b => a.2 = 0 ∨ b.2 = 0) :
    (copies buffers out).slice 0 (buffers.map Prod.snd).sum =
      buffers.flatMap fun b => b.1.slice 0 b.2 := by
  induction buffers generalizing out with
  | nil => rfl
  | cons b rest inductionHypothesis =>
    obtain ⟨others, single⟩ := List.pairwise_cons.mp single
    have next : copies (b :: rest) out = copies rest (out.memcpy 0 b.1 b.2) := rfl
    rw [next, List.map_cons, List.sum_cons, List.flatMap_cons]
    by_cases empty : b.2 = 0
    · rw [empty, Nat.zero_add, inductionHypothesis single]
      rfl
    · have none : ∀ c ∈ rest, c.2 = 0 := fun c member => (others c member).resolve_left empty
      have nothing : copies rest (out.memcpy 0 b.1 b.2) = out.memcpy 0 b.1 b.2 := by
        funext p
        apply copies_outside
        intro c member
        rw [none c member]
        exact Nat.zero_le p
      have more : (rest.flatMap fun c => c.1.slice 0 c.2) = [] := by
        apply List.flatMap_eq_nil_iff.mpr
        intro c member
        rw [none c member]
        rfl
      rw [nothing, sum_empty none, more, Nat.add_zero, List.append_nil]
      apply Bytes.slice_congr
      intro i inside
      rw [Bytes.memcpy_inside (by omega) (by omega), Nat.sub_zero]

end Copies

section Result

variable {single : Nat → Nat → Nat → Outcome (Bytes × Nat)} {pointers blocks : Bytes}
  {blockno : Nat} {buffers : List (Bytes × Nat)}

theorem countBlocks_returns {x total : Nat} (before : x ≤ total)
    (present : ∀ i < total, blocks.u32 (4 * i) ≠ 0) (zero : blocks.u32 (4 * total) = 0) :
    Outcome.Returns (fun fuel => countBlocks blocks fuel x) total := by
  induction left : total - x generalizing x with
  | zero =>
    obtain rfl : x = total := by omega
    apply Outcome.Returns.succ
    simp only [countBlocks, if_pos zero]
    exact .const rfl
  | succ left inductionHypothesis =>
    have here : ¬blocks.u32 (4 * x) = 0 := present x (by omega)
    apply Outcome.Returns.succ
    simp only [countBlocks, if_neg here]
    exact inductionHypothesis (by omega) (by omega)

theorem collect_returns {i : Nat}
    (present : ∀ j < buffers.length, blocks.u32 (4 * (i + j)) ≠ 0)
    (returns : ∀ j (inside : j < buffers.length), Outcome.Returns
      (fun fuel => single fuel (i + j + 2) (blocks.u32 (4 * (i + j)))) buffers[j]) :
    Outcome.Returns (fun fuel => collect single fuel blocks i buffers.length) buffers := by
  induction buffers generalizing i with
  | nil => exact .const rfl
  | cons b rest inductionHypothesis =>
    have here : ¬blocks.u32 (4 * i) = 0 := present 0 (Nat.succ_pos _)
    have first := returns 0 (Nat.succ_pos _)
    have later : Outcome.Returns (fun fuel => collect single fuel blocks (i + 1) rest.length)
        rest := by
      apply inductionHypothesis
      · intro j inside
        rw [Nat.add_assoc, Nat.add_comm 1]
        exact present (j + 1) (Nat.succ_lt_succ inside)
      · intro j inside
        rw [Nat.add_assoc i, Nat.add_comm 1]
        exact returns (j + 1) (Nat.succ_lt_succ inside)
    simp only [List.length_cons, collect, if_neg here]
    exact first.bind (later.bind (.const rfl))

theorem DoubleIndirect.copied
    (indirect : fs.DoubleIndirect single pointers blocks blockno buffers) (fresh : Bytes) :
    Outcome.Returns (fun fuel => fs.doubleIndirectBy single pointers fresh fuel blockno)
      (copies buffers fresh, (buffers.map Prod.snd).sum % 2 ^ 32) := by
  have counted := countBlocks_returns (Nat.zero_le _) indirect.present indirect.next
  have collected : Outcome.Returns (fun fuel => collect single fuel blocks 0 buffers.length)
      buffers := by
    apply collect_returns
    · intro j inside
      rw [Nat.zero_add]
      exact indirect.present j inside
    · intro j inside
      rw [Nat.zero_add]
      exact indirect.returns j inside
  have few : ¬buffers.length > fs.maxBlocks := Nat.not_lt.mpr indirect.few
  apply Outcome.Returns.bind (.const indirect.read)
  apply counted.bind
  simp only [if_neg few]
  exact collected.bind (.const rfl)

theorem DoubleIndirect.right
    (indirect : fs.DoubleIndirect single pointers blocks blockno buffers)
    (one : buffers.Pairwise fun a b => a.2 = 0 ∨ b.2 = 0) :
    fs.ConcatenationRight single pointers blockno buffers := by
  intro fresh
  have small : (buffers.map Prod.snd).sum % 2 ^ 32 = (buffers.map Prod.snd).sum := by
    apply Nat.mod_eq_of_lt
    rcases sum_single one with nothing | ⟨b, member, same⟩
    · rw [nothing]
      decide
    · rw [same]
      exact indirect.sizes b member
  have copied := indirect.copied fresh
  rw [small] at copied
  exact ⟨_, copied, copies_single one⟩

/-- The last byte of the result is what the buffer held before. -/
theorem DoubleIndirect.wrong
    (indirect : fs.DoubleIndirect single pointers blocks blockno buffers)
    (more : ¬buffers.Pairwise fun a b => a.2 = 0 ∨ b.2 = 0) :
    ¬fs.ConcatenationRight single pointers blockno buffers := by
  intro right
  have less := size_lt_sum more
  obtain ⟨b, member⟩ : ∃ b, b ∈ buffers := by
    cases buffers with
    | nil => exact absurd List.Pairwise.nil more
    | cons b rest => exact ⟨b, List.mem_cons_self⟩
  have positive : 0 < (buffers.map Prod.snd).sum := Nat.zero_lt_of_lt (less b member)
  have last : ∀ c : UInt8, (buffers.flatMap fun b => b.1.slice 0 b.2)[
      (buffers.map Prod.snd).sum - 1]? = some c := by
    intro c
    obtain ⟨out, returns, same⟩ := right fun _ => c
    have result := returns.unique (indirect.copied fun _ => c)
    obtain rfl : out = copies buffers fun _ => c := congrArg Prod.fst result
    have untouched : copies buffers (fun _ => c) ((buffers.map Prod.snd).sum - 1) = c := by
      apply copies_outside
      intro b inside
      exact Nat.le_sub_one_of_lt (less b inside)
    rw [← same, Bytes.slice, List.getElem?_map, List.getElem?_range (Nat.sub_lt positive one_pos),
      Option.map_some, Nat.zero_add, untouched]
  have both := (last 0).symm.trans (last 1)
  exact absurd both (by decide)

/-- For every function in the place of `ext2_read_single_indirect`, the one of the source among
them: the result is right if and only if at most one of the buffers has something in it. -/
theorem doubleIndirect_right_iff
    (indirect : fs.DoubleIndirect single pointers blocks blockno buffers) :
    (fs.ConcatenationRight single pointers blockno buffers ↔
      buffers.Pairwise fun a b => a.2 = 0 ∨ b.2 = 0) ∧
    ∀ mem fuel blockno, fs.ext2ReadDoubleIndirect mem fuel blockno =
      fs.doubleIndirectBy (fs.ext2ReadSingleIndirect mem) (mem.pointers 1) (mem.contents 1) fuel
        blockno := by
  refine ⟨⟨?_, indirect.right⟩, ext2ReadDoubleIndirect_eq⟩
  intro right
  by_contra more
  exact indirect.wrong more right

end Result

theorem readPointers_returns (geometry : fs.Geometry) {blocks out : Bytes} {i left : Nat}
    (full : ∀ j, i ≤ j → j < i + left →
      blocks.u32 (4 * j) ≠ 0 ∧ fs.OnDisk (blocks.u32 (4 * j))) :
    ∃ result, fs.readPointers blocks out i left = .ok result := by
  induction left generalizing i out with
  | zero => exact ⟨out, rfl⟩
  | succ left inductionHypothesis =>
    obtain ⟨present, onDisk⟩ := full i (Nat.le_refl i) (by omega)
    have later : ∀ j, i + 1 ≤ j → j < i + 1 + left →
        blocks.u32 (4 * j) ≠ 0 ∧ fs.OnDisk (blocks.u32 (4 * j)) :=
      fun j above below => full j (by omega) (by omega)
    rw [readPointers, if_neg present, ext2ReadBlock_ok geometry onDisk]
    exact inductionHypothesis later

theorem ext2ReadSingleIndirect_returns (geometry : fs.Geometry) {mem : Ext2Memory}
    {call blockno : Nat} {blocks : Bytes}
    (read : fs.ext2ReadBlock (mem.pointers call) 0 blockno = .ok blocks)
    (full : ∀ j < fs.maxBlocks, blocks.u32 (4 * j) ≠ 0 ∧ fs.OnDisk (blocks.u32 (4 * j)))
    (zero : blocks.u32 (4 * fs.maxBlocks) = 0) :
    ∃ buf, Outcome.Returns (fun fuel => fs.ext2ReadSingleIndirect mem fuel call blockno)
      (buf, fs.maxBlocks * fs.blockSize % 2 ^ 32) := by
  have counted := countBlocks_returns (Nat.zero_le _) (fun j inside => (full j inside).1) zero
  obtain ⟨buf, pointers⟩ : ∃ buf,
      fs.readPointers blocks (mem.contents call) 0 fs.maxBlocks = .ok buf :=
    readPointers_returns geometry fun j _ inside => full j (by omega)
  refine ⟨buf, ?_⟩
  apply Outcome.Returns.bind (.const read)
  apply counted.bind
  simp only [gt_iff_lt, Nat.lt_irrefl, if_false]
  exact Outcome.Returns.bind (.const pointers) (.const rfl)

def twoTables : Ext2Driver where
  disk := fun sector i =>
    if sector = 2052 then if i.val = 0 ∨ i.val = 4 then 1 else 0
    else if sector = 2053 then 0
    else if i.val % 4 = 0 then 1 else 0
  log2blockSize := 0
  blockSize := 1024
  inodesPerGroup := 1
  inodeSize := 128
  extendedFieldsAvailable := false
  bgdt := []
  rootInode := ⟨0, 0, fun _ => 0, 0⟩

theorem twoTables_geometry : twoTables.Geometry where
  blockSize := rfl
  inodesPerGroup := by decide
  inodeSize := ⟨0, rfl⟩
  inodes := by decide
  tables := nofun

theorem twoTables_indirect {single : Nat → Nat → Nat → Outcome (Bytes × Nat)}
    {first second : Bytes × Nat} (small : first.2 < 2 ^ 32) (small' : second.2 < 2 ^ 32)
    (returns : Outcome.Returns (fun fuel => single fuel 2 1) first)
    (returns' : Outcome.Returns (fun fuel => single fuel 3 1) second) :
    twoTables.DoubleIndirect single (fun _ => 0)
      (Bytes.memcpy (fun _ => 0) 0 (twoTables.block 2) 1024) 2 [first, second] := by
  have words : ∀ i < 3, (Bytes.memcpy (fun _ => 0) 0 (twoTables.block 2) 1024).u32 (4 * i) =
      if i < 2 then 1 else 0 := by decide +kernel
  refine ⟨?_, (by decide : 2 ≤ 256), ?_, words 2 (by decide), ?_, ?_⟩
  · exact ext2ReadBlock_ok twoTables_geometry (by decide) _ _
  · intro i inside
    have below : i < 2 := inside
    rw [words i (by omega), if_pos below]
    decide
  · intro i inside
    have below : i < 2 := inside
    rw [words i (by omega), if_pos below]
    match i, inside with
    | 0, _ => exact returns
    | 1, _ => exact returns'
  · intro b member
    rcases List.mem_cons.mp member with rfl | later
    · exact small
    · rw [List.mem_singleton.mp later]
      exact small'

/-- The double-indirect block has one pointer. -/
def oneTable : Ext2Driver :=
  { twoTables with
    disk := fun sector i =>
      if sector = 2052 then if i.val = 0 then 1 else 0
      else if sector = 2053 then 0
      else if i.val % 4 = 0 then 1 else 0 }

theorem oneTable_geometry : oneTable.Geometry where
  blockSize := rfl
  inodesPerGroup := by decide
  inodeSize := ⟨0, rfl⟩
  inodes := by decide
  tables := nofun

/-- Block 1 has 256 pointers to itself. -/
theorem fullTable_returns {fs : Ext2Driver} (geometry : fs.Geometry) (size : fs.blockSize = 1024)
    (onDisk : fs.OnDisk 1)
    (words : ∀ j < 257, (Bytes.memcpy (fun _ => 0) 0 (fs.block 1) 1024).u32 (4 * j) =
      if j < 256 then 1 else 0) (call : Nat) :
    ∃ buf, Outcome.Returns (fun fuel => fs.ext2ReadSingleIndirect fs.hostile fuel call 1)
      (buf, 2 ^ 18) := by
  have most : fs.maxBlocks = 256 := by rw [maxBlocks, size]
  have product : fs.maxBlocks * fs.blockSize % 2 ^ 32 = 2 ^ 18 := by
    rw [most, size]
    rfl
  rw [← product]
  apply ext2ReadSingleIndirect_returns geometry (ext2ReadBlock_ok geometry onDisk (fun _ => 0) 0)
  · intro j inside
    have below : j < 256 := most ▸ inside
    have word := words j (by omega)
    rw [if_pos below] at word
    rw [size, word]
    exact ⟨Nat.one_ne_zero, onDisk⟩
  · rw [size, most]
    exact words 256 (by decide)

/-- The one buffer that `ext2_read_single_indirect` returns is the whole result. -/
theorem doubleIndirect_right_iff_oneTable : ∃ first : Bytes × Nat, first.2 = 2 ^ 18 ∧
    oneTable.ConcatenationRight (oneTable.ext2ReadSingleIndirect oneTable.hostile) (fun _ => 0) 2
      [first] := by
  obtain ⟨buf, returns⟩ :=
    fullTable_returns oneTable_geometry rfl (by decide) (by decide +kernel) 2
  have words : ∀ i < 2, (Bytes.memcpy (fun _ => 0) 0 (oneTable.block 2) 1024).u32 (4 * i) =
      if i < 1 then 1 else 0 := by decide +kernel
  have first := words 0 (by decide)
  have indirect : oneTable.DoubleIndirect (oneTable.ext2ReadSingleIndirect oneTable.hostile)
      (fun _ => 0) (Bytes.memcpy (fun _ => 0) 0 (oneTable.block 2) 1024) 2 [(buf, 2 ^ 18)] := by
    refine ⟨ext2ReadBlock_ok oneTable_geometry (by decide) _ _, (by decide : 1 ≤ 256), ?_,
      words 1 (by decide), ?_, ?_⟩
    · intro i inside
      obtain rfl : i = 0 := Nat.lt_one_iff.mp inside
      rw [first]
      decide
    · intro i inside
      obtain rfl : i = 0 := Nat.lt_one_iff.mp inside
      rw [first]
      exact returns
    · intro b member
      rw [List.mem_singleton.mp member]
      exact (by decide : 2 ^ 18 < 2 ^ 32)
  exact ⟨_, rfl, (doubleIndirect_right_iff indirect).1.mpr (List.pairwise_singleton _ _)⟩

/-- Two full single-indirect blocks: the second half of the result is missing. -/
theorem doubleIndirect_loses : ∃ first second : Bytes × Nat,
    Outcome.Returns (fun fuel =>
      twoTables.ext2ReadSingleIndirect twoTables.hostile fuel 2 1) first ∧
    Outcome.Returns (fun fuel =>
      twoTables.ext2ReadSingleIndirect twoTables.hostile fuel 3 1) second ∧
    first.2 = 2 ^ 18 ∧ second.2 = 2 ^ 18 ∧
    ¬twoTables.ConcatenationRight (twoTables.ext2ReadSingleIndirect twoTables.hostile)
      (fun _ => 0) 2 [first, second] := by
  have returns := fullTable_returns twoTables_geometry rfl (by decide) (by decide +kernel)
  obtain ⟨first, returnsFirst⟩ := returns 2
  obtain ⟨second, returnsSecond⟩ := returns 3
  refine ⟨_, _, returnsFirst, returnsSecond, rfl, rfl, ?_⟩
  have small : 2 ^ 18 < 2 ^ 32 := by decide
  have filled : ¬(2 ^ 18 = 0 ∨ 2 ^ 18 = 0) := by decide
  apply (twoTables_indirect small small returnsFirst returnsSecond).wrong
  intro one
  exact filled (List.rel_of_pairwise_cons one List.mem_cons_self)

end SwagOS.Fs.Ext2Driver
