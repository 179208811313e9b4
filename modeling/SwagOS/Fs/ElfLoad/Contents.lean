import SwagOS.Fs.ElfLoad.Images

/-!
# What a process finds in its image

The page in which a segment starts holds the file's bytes from the start of the page on, and
no other page of the segment is mapped.  So the process finds the segment where the format
puts it if it fits into that page and does not change when it is read further on by the
offset of its address in the page.
-/

namespace SwagOS.Fs

open SwagOS.Lib SwagOS.DataStructures SwagOS.Mem SwagOS.Kernel ThreadPagetables

namespace ElfBuffer

variable (elf : ElfBuffer)

def segment (i : Nat) : Elf64ProgramHeader := elf.headerAt (elf.phOff + i * elf.phEntrySize)

def IsSegment (i : Nat) : Prop :=
  i < elf.phNum ∧ (elf.segment i).memSize ≠ 0 ∧ (elf.segment i).type = ptLoad

/-- The format's byte at an offset in a segment: one of the file, and zeroes from there on. -/
def segmentByte (i j : Nat) : UInt8 :=
  if j < (elf.segment i).fileSize then elf.bytes ((elf.segment i).offset + j) else 0

/-- An executable whose segments are pages of one directory.  The file is in one block of
the kernel's heap, which has 2^31 bytes. -/
structure WellFormed : Prop where
  passes : elf.Passes
  allocated : elf.size ≤ 2 ^ 31
  headers : ∀ i < elf.phNum, elf.phOff + i * elf.phEntrySize + 56 ≤ elf.size
  data : ∀ i, elf.IsSegment i → (elf.segment i).offset + (elf.segment i).fileSize ≤ elf.size
  sizes : ∀ i, elf.IsSegment i → (elf.segment i).fileSize ≤ (elf.segment i).memSize
  region : ∃ region, (region + 1) * hugePgSize ≤ 2 ^ 47 ∧ ∀ i, elf.IsSegment i →
    region * hugePgSize ≤ (elf.segment i).vaddr ∧
      (elf.segment i).vaddr + (elf.segment i).memSize ≤ (region + 1) * hugePgSize
  apart : ∀ i j, elf.IsSegment i → elf.IsSegment j → i ≠ j →
    ∀ a < (elf.segment i).memSize, ∀ b < (elf.segment j).memSize,
      ((elf.segment i).vaddr + a) / pgSize ≠ ((elf.segment j).vaddr + b) / pgSize

def ReadBack (base : Nat) (view : View) (s : LoadState) : Prop :=
  ∀ i, elf.IsSegment i → ∀ j < (elf.segment i).memSize, ∃ t,
    Paging.walk (s.mem.pgdir.tableAt base view) ((elf.segment i).vaddr + j) base = some t ∧
      t.user = true ∧ s.ram t.physical = elf.segmentByte i j

/-- Each segment fits into the page in which it starts, and is the same when it is read
further on by the offset of its address. -/
def OnePage : Prop :=
  ∀ i, elf.IsSegment i →
    (elf.segment i).vaddr % pgSize + (elf.segment i).memSize ≤ pgSize ∧
      ∀ j < (elf.segment i).memSize,
        elf.segmentByte i ((elf.segment i).vaddr % pgSize + j) = elf.segmentByte i j

theorem intProduct_small {i phEntrySize : Nat} (small : i * phEntrySize < 2 ^ 31) :
    intProduct i phEntrySize = i * phEntrySize := by
  rw [intProduct, BitVec.toNat_signExtend, BitVec.msb_eq_false_iff_two_mul_lt.mpr]
  · rw [BitVec.toNat_setWidth, BitVec.toNat_ofNat]
    simp only [Bool.false_eq_true, if_false, Nat.add_zero]
    omega
  · rw [BitVec.toNat_ofNat]
    omega

namespace WellFormed

variable {elf : ElfBuffer} {i : Nat}

theorem programHeader (wellFormed : elf.WellFormed) (below : i < elf.phNum) :
    elf.programHeader i = elf.segment i := by
  have inside := wellFormed.headers i below
  have allocated := wellFormed.allocated
  have start : elf.phStart i = elf.phOff + i * elf.phEntrySize := by
    rw [phStart, intProduct_small (by omega), Nat.mod_eq_of_lt (by omega)]
  rw [ElfBuffer.programHeader, start, segment]

theorem isSegment_iff (wellFormed : elf.WellFormed) :
    elf.IsSegment i ↔ i ∈ elf.loading (List.range elf.phNum) := by
  rw [mem_loading, List.mem_range, IsSegment, Loads]
  constructor
  · rintro ⟨below, filled, load⟩
    rw [wellFormed.programHeader below]
    exact ⟨below, filled, load⟩
  · rintro ⟨below, filled, load⟩
    rw [wellFormed.programHeader below] at filled load
    exact ⟨below, filled, load⟩

theorem pageByte (wellFormed : elf.WellFormed) (here : elf.IsSegment i) {k : Nat}
    (inside : k < pgSize) : elf.pageByte i k = elf.segmentByte i k := by
  have header := wellFormed.programHeader here.1
  have data := wellFormed.data i here
  have allocated := wellFormed.allocated
  rw [ElfBuffer.pageByte, copied, segmentByte, header]
  by_cases filled : k < (elf.segment i).fileSize
  · have address : ((elf.segment i).offset + k) % 2 ^ 64 = (elf.segment i).offset + k := by omega
    rw [if_pos (lt_min filled inside), if_pos filled, at_, address]
  · have rest : ¬k < min (elf.segment i).fileSize pgSize := fun less =>
      filled (lt_of_lt_of_le less (Nat.min_le_left _ _))
    rw [if_neg rest, if_neg filled]

theorem lastIndex_ne (wellFormed : elf.WellFormed) {j : Nat} (here : elf.IsSegment i)
    (there : elf.IsSegment j) {a : Nat} (inside : a < (elf.segment i).memSize)
    (differ : ((elf.segment i).vaddr + a) / pgSize ≠ (elf.segment j).vaddr / pgSize) :
    ptIndex ((elf.segment i).vaddr + a) ≠ elf.lastIndex j := by
  obtain ⟨region, -, within⟩ := wellFormed.region
  obtain ⟨startI, endI⟩ := within i here
  obtain ⟨startJ, endJ⟩ := within j there
  have filled := there.2.1
  rw [ElfBuffer.lastIndex, wellFormed.programHeader there.1, ptIndex_eq, ptIndex_eq, Paging.index,
    Paging.index]
  have span : Paging.span 0 = pgSize := by decide
  rw [span]
  rw [hugePgSize] at startI endI startJ endJ
  rw [pgSize] at differ ⊢
  omega

end WellFormed

end ElfBuffer

namespace Image

variable {site : LoadSite} {elf : ElfBuffer} {placements : List Placement} {s : LoadState}
  {i : Nat} (view : View)

theorem read_page (sound : site.Sound) (wellFormed : elf.WellFormed)
    (image : Image site elf placements s) {frame : Nat} (member : (i, frame) ∈ placements)
    (here : elf.IsSegment i) {j : Nat} (inside : (elf.segment i).vaddr % pgSize + j < pgSize) :
    Paging.walk (s.mem.pgdir.tableAt site.base view) ((elf.segment i).vaddr + j) site.base =
        some ⟨frame + ((elf.segment i).vaddr % pgSize + j), true, true⟩ ∧
      s.ram (frame + ((elf.segment i).vaddr % pgSize + j)) =
        elf.segmentByte i ((elf.segment i).vaddr % pgSize + j) := by
  have page : ((elf.segment i).vaddr, frame) ∈ elf.pages placements := by
    rw [← wellFormed.programHeader here.1]
    exact List.mem_map.mpr ⟨(i, frame), member, rfl⟩
  have canonical : Paging.Canonical (elf.segment i).vaddr := by
    obtain ⟨region, user, within⟩ := wellFormed.region
    have filled := here.2.1
    have below := (within i here).2
    left
    omega
  have offset : ((elf.segment i).vaddr + j) % pgSize = (elf.segment i).vaddr % pgSize + j := by
    rw [pgSize] at inside ⊢
    omega
  have same : ((elf.segment i).vaddr + j) / pgSize = (elf.segment i).vaddr / pgSize := by
    rw [pgSize] at inside ⊢
    omega
  constructor
  · rw [image.imaged.walk view sound.placed page canonical same, offset]
  · rw [image.contents (i, frame) member _ inside, wellFormed.pageByte here inside]

theorem next_page (sound : site.Sound) (wellFormed : elf.WellFormed)
    (image : Image site elf placements s) {frame : Nat} (member : (i, frame) ∈ placements)
    (all : ∀ m ∈ placements, elf.IsSegment m.1) {j : Nat}
    (inside : j < (elf.segment i).memSize)
    (next : (elf.segment i).vaddr % pgSize + j = pgSize) :
    Paging.walk (s.mem.pgdir.tableAt site.base view) ((elf.segment i).vaddr + j) site.base =
      none := by
  have here : elf.IsSegment i := all _ member
  have page : ((elf.segment i).vaddr, frame) ∈ elf.pages placements := by
    rw [← wellFormed.programHeader here.1]
    exact List.mem_map.mpr ⟨(i, frame), member, rfl⟩
  have large : ((elf.segment i).vaddr + j) / hugePgSize = (elf.segment i).vaddr / hugePgSize := by
    obtain ⟨region, -, within⟩ := wellFormed.region
    obtain ⟨start, ends⟩ := within i here
    rw [hugePgSize] at start ends ⊢
    omega
  refine image.imaged.walk_vacant view sound.placed page large ?_
  intro touched
  obtain ⟨m, other, same⟩ := elf.touched_pages.mp touched
  refine wellFormed.lastIndex_ne here (all m other) inside ?_ same.symm
  by_cases self : i = m.1
  · rw [← self]
    rw [pgSize] at next ⊢
    omega
  · exact wellFormed.apart i m.1 here (all m other) self j inside 0
      (Nat.pos_of_ne_zero (all m other).2.1)

/-- Where all segments are loaded, the process reads the file's bytes if each is in one page,
and only then. -/
theorem readBack_iff (sound : site.Sound) (wellFormed : elf.WellFormed)
    (image : Image site elf placements s)
    (all : ∀ i, elf.IsSegment i ↔ ∃ frame, (i, frame) ∈ placements) :
    elf.ReadBack site.base view s ↔ elf.OnePage := by
  constructor
  · intro readBack i here
    obtain ⟨frame, member⟩ := (all i).mp here
    have fits : (elf.segment i).vaddr % pgSize + (elf.segment i).memSize ≤ pgSize := by
      by_contra beyond
      have start : (elf.segment i).vaddr % pgSize < pgSize := Nat.mod_lt _ (by decide)
      have inside : pgSize - (elf.segment i).vaddr % pgSize < (elf.segment i).memSize := by omega
      obtain ⟨t, walked, -⟩ := readBack i here _ inside
      rw [image.next_page view sound wellFormed member (fun m other => (all m.1).mpr ⟨m.2, other⟩)
        inside (by omega)] at walked
      cases walked
    refine ⟨fits, ?_⟩
    intro j inside
    obtain ⟨t, walked, -, byte⟩ := readBack i here j inside
    obtain ⟨page, contents⟩ :=
      image.read_page view sound wellFormed member here (j := j) (by omega)
    obtain rfl := Option.some.inj (page.symm.trans walked)
    exact contents.symm.trans byte
  · intro onePage i here j inside
    obtain ⟨frame, member⟩ := (all i).mp here
    obtain ⟨fits, same⟩ := onePage i here
    obtain ⟨page, contents⟩ :=
      image.read_page view sound wellFormed member here (j := j) (by omega)
    exact ⟨_, page, rfl, contents.trans (same j inside)⟩

end Image

variable {site : LoadSite} {elf : ElfBuffer} {s : LoadState}

theorem Image.start (valid : s.frames.Valid) (stacked : s.mem.usedPages.Stacked)
    (fresh : s.mem.pgdir = create site.base) : Image site elf [] s where
  valid := valid
  stacked := stacked
  imaged := by
    rw [fresh]
    exact imaged_create site.base
  apart := List.nodup_nil
  used m member := absurd member List.not_mem_nil
  contents m member := absurd member List.not_mem_nil

theorem elfLoadSegments_returns (sound : site.Sound) (wellFormed : elf.WellFormed)
    (image : Image site elf [] s)
    (serves : s.frames.Serves (elf.loading (List.range elf.phNum)).length) :
    ∃ s', elfLoadSegments site elf s = .ok (elf.entry, s') := by
  have apart : ∀ i ∈ elf.loading (List.range elf.phNum),
      ∀ j ∈ elf.loading (List.range elf.phNum), elf.lastIndex i = elf.lastIndex j → i = j := by
    intro i memberI j memberJ same
    have here := wellFormed.isSegment_iff.mpr memberI
    have there := wellFormed.isSegment_iff.mpr memberJ
    by_contra differ
    have filled : 0 < (elf.segment i).memSize := Nat.pos_of_ne_zero here.2.1
    refine wellFormed.lastIndex_ne here there filled ?_ ?_
    · exact wellFormed.apart i j here there differ 0 filled 0 (Nat.pos_of_ne_zero there.2.1)
    · rw [Nat.add_zero, ← same, ElfBuffer.lastIndex, wellFormed.programHeader here.1]
  obtain ⟨s', done⟩ := ((image.read (s.reads ++ identReads)).run_returns_iff sound).mpr
    ⟨serves, (ElfBuffer.lastIndices_nodup List.nodup_range).mpr apart⟩
  rw [elfLoadSegments_passes wellFormed.passes, done]
  exact ⟨_, rfl⟩

theorem elfLoadSegments_image (sound : site.Sound) (wellFormed : elf.WellFormed)
    (image : Image site elf [] s) {rip : Nat} {s' : LoadState}
    (done : elfLoadSegments site elf s = .ok (rip, s')) :
    rip = elf.entry ∧ ∃ placements, Image site elf placements s' ∧
      ∀ i, elf.IsSegment i ↔ ∃ frame, (i, frame) ∈ placements := by
  rw [elfLoadSegments_passes wellFormed.passes] at done
  cases loop : (List.range elf.phNum).foldlM (loadSegment site elf)
      { s with reads := s.reads ++ identReads } with
  | error halt =>
    rw [loop] at done
    cases done
  | ok s₁ =>
    rw [loop] at done
    obtain ⟨rfl, rfl⟩ := Prod.mk.inj (Except.ok.inj done)
    obtain ⟨new, final, numbers, -⟩ := (image.read _).run sound loop
    rw [List.append_nil] at final
    refine ⟨rfl, new, final.read _, ?_⟩
    intro i
    rw [wellFormed.isSegment_iff, ← List.mem_reverse, ← numbers, List.mem_map]
    constructor
    · rintro ⟨m, member, rfl⟩
      exact ⟨m.2, member⟩
    · rintro ⟨frame, member⟩
      exact ⟨_, member, rfl⟩

/-- A load of a well-formed file returns its entry point if the frames suffice.  Whenever it
does, the process finds the file's contents if and only if each segment is in one page and
is the same when it is read further on by the offset of its address. -/
theorem elfLoadSegments_contents_iff (sound : site.Sound) (wellFormed : elf.WellFormed)
    (valid : s.frames.Valid) (stacked : s.mem.usedPages.Stacked)
    (fresh : s.mem.pgdir = create site.base) (view : View) :
    (s.frames.Serves (elf.loading (List.range elf.phNum)).length →
      ∃ s', elfLoadSegments site elf s = .ok (elf.entry, s')) ∧
    ∀ rip s', elfLoadSegments site elf s = .ok (rip, s') →
      rip = elf.entry ∧ (elf.ReadBack site.base view s' ↔ elf.OnePage) := by
  have image : Image site elf [] s := Image.start valid stacked fresh
  refine ⟨elfLoadSegments_returns sound wellFormed image, ?_⟩
  intro rip s' done
  obtain ⟨returned, placements, final, all⟩ := elfLoadSegments_image sound wellFormed image done
  exact ⟨returned, final.readBack_iff view sound wellFormed all⟩

def littleEndian (n count : Nat) : List UInt8 :=
  (List.range count).map fun i => UInt8.ofNat (n / 256 ^ i % 256)

/-- `elf64_program_header_t` in a file; the flags and the alignment are not looked at. -/
def Elf64ProgramHeader.encode (ph : Elf64ProgramHeader) : List UInt8 :=
  littleEndian ph.type 4 ++ littleEndian 5 4 ++ littleEndian ph.offset 8 ++
    littleEndian ph.vaddr 8 ++ littleEndian ph.vaddr 8 ++ littleEndian ph.fileSize 8 ++
    littleEndian ph.memSize 8 ++ littleEndian pgSize 8

def elfFile (entry : Nat) (headers : List Elf64ProgramHeader) (data : List UInt8) : ElfBuffer :=
  let file := [0x7f, 69, 76, 70, 2, 1, 1, 0] ++ littleEndian 0 8 ++ littleEndian 2 2 ++
    littleEndian 62 2 ++ littleEndian 1 4 ++ littleEndian entry 8 ++ littleEndian 64 8 ++
    littleEndian 0 8 ++ littleEndian 0 4 ++ littleEndian 64 2 ++ littleEndian 56 2 ++
    littleEndian headers.length 2 ++ littleEndian 0 6 ++
    headers.flatMap Elf64ProgramHeader.encode ++ data
  ⟨fun p => file.getD p 0, file.length⟩

def oneSegment (vaddr memSize : Nat) : ElfBuffer :=
  elfFile vaddr [⟨ptLoad, 120, vaddr, 4, memSize⟩] [1, 2, 3, 4]

theorem oneSegment_phNum {memSize : Nat} (size : memSize = 16 ∨ memSize = 0x1001) :
    (oneSegment 0x400000 memSize).phNum = 1 := by
  rcases size with rfl | rfl <;> decide +kernel

theorem oneSegment_only {memSize i : Nat} (size : memSize = 16 ∨ memSize = 0x1001)
    (here : (oneSegment 0x400000 memSize).IsSegment i) :
    i = 0 ∧ (oneSegment 0x400000 memSize).segment i = ⟨ptLoad, 120, 0x400000, 4, memSize⟩ := by
  obtain ⟨below, -⟩ := here
  rw [oneSegment_phNum size] at below
  obtain rfl : i = 0 := by omega
  refine ⟨rfl, ?_⟩
  rcases size with rfl | rfl <;> decide +kernel

theorem oneSegment_wellFormed {memSize : Nat} (size : memSize = 16 ∨ memSize = 0x1001) :
    (oneSegment 0x400000 memSize).WellFormed := by
  have header : ∀ i, (oneSegment 0x400000 memSize).IsSegment i →
      (oneSegment 0x400000 memSize).segment i = _ := fun i here => (oneSegment_only size here).2
  constructor
  case passes =>
    intro s
    exact ⟨rfl, rfl⟩
  case allocated =>
    rcases size with rfl | rfl <;> decide +kernel
  case headers =>
    rw [oneSegment_phNum size]
    rcases size with rfl | rfl <;> decide +kernel
  case data =>
    intro i here
    rw [header i here]
    rcases size with rfl | rfl <;> decide +kernel
  case sizes =>
    intro i here
    rw [header i here]
    rcases size with rfl | rfl <;> decide
  case region =>
    refine ⟨2, by decide, ?_⟩
    intro i here
    rw [header i here]
    rcases size with rfl | rfl <;> decide
  case apart =>
    intro i j here there differ
    exact absurd ((oneSegment_only size here).1.trans (oneSegment_only size there).1.symm) differ

def sampleKernel : KernelTables where
  pml4t := 0x600000
  pdpt := 0x601000
  pdt := fun type => 0x602000 + 0x1000 * type.ctorIdx
  bootPdt := 0x609000
  smpPdt := 0x60a000
  smpPt := 0x60b000
  pt := fun i => 0x60c000 + 0x1000 * (i % 1024)

def sampleSite : LoadSite := ⟨0x100000, sampleKernel, 0⟩

theorem sampleKernel_pdts {table : Nat} (directory : table ∈ sampleKernel.pdts) :
    0x602000 ≤ table ∧ table < 0x60b000 ∧ table % 0x1000 = 0 := by
  rcases directory with rfl | rfl | ⟨type, rfl⟩
  · decide
  · decide
  · cases type <;> decide

theorem sampleKernel_last {table : Nat}
    (last : table = sampleKernel.smpPt ∨ ∃ i, table = sampleKernel.pt i) :
    0x60b000 ≤ table ∧ table < 0xa0c000 ∧ table % 0x1000 = 0 := by
  rcases last with rfl | ⟨i, rfl⟩
  · decide
  · simp only [sampleKernel]
    omega

theorem sampleSite_sound : sampleSite.Sound where
  placed := by constructor <;> decide
  low := by
    rw [KernelTables.Low]
    decide
  apart := {
    page := by
      rintro table (directory | rfl | rfl | last)
      · have := sampleKernel_pdts directory
        omega
      · decide
      · decide
      · have := sampleKernel_last last
        omega
    root := by decide
    directories := by
      intro table directory
      have inside := sampleKernel_pdts directory
      change table ≠ 0x600000 ∧ table ≠ 0x601000
      omega
    last := by
      intro table last
      have above := sampleKernel_last last
      change table ≠ 0x600000 ∧ table ≠ 0x601000 ∧ _
      refine ⟨by omega, by omega, ?_⟩
      intro directory
      have below := sampleKernel_pdts directory
      omega }

def sampleView : View := ⟨fun _ _ => 0#64, fun _ => false⟩

def sampleState : LoadState where
  frames := (FrameManagers.Session.boot FrameManagers.oneFrame
    fun _ => ⟨.null, .null, ⟨0, 0#32, fun _ => 0#32⟩⟩).managers
  mem := {
    pgdir := create 0x100000
    usedPages := Dll.empty fun _ => ⟨.null, .null, ⟨0, 0, 0, 0⟩⟩
    heapAllocations := Dll.empty fun _ => ⟨.null, .null, ⟨0, 0, 0, 0, 0, 0⟩⟩
    userHeapBitmap := fun _ => 0#64 }
  tables := fun _ _ => 0#64
  ram := fun _ => 0xcc
  reads := []

theorem sampleState_image (elf : ElfBuffer) : Image sampleSite elf [] sampleState :=
  Image.start (FrameManagers.Session.Inv.boot _ _).valid (Dll.stacked_empty _) rfl

theorem sampleState_serves {elf : ElfBuffer}
    (one : (elf.loading (List.range elf.phNum)).length = 1) :
    sampleState.frames.Serves (elf.loading (List.range elf.phNum)).length := by
  rw [one]
  exact FrameManagers.oneFrame_serves _

theorem elfLoadSegments_contents_short : ∃ s',
    elfLoadSegments sampleSite (oneSegment 0x400000 16) sampleState = .ok (0x400000, s') ∧
      (oneSegment 0x400000 16).ReadBack 0x100000 sampleView s' := by
  have size : 16 = 16 ∨ 16 = 0x1001 := .inl rfl
  obtain ⟨returns, contents⟩ := elfLoadSegments_contents_iff sampleSite_sound
    (oneSegment_wellFormed size) (sampleState_image (oneSegment 0x400000 16)).valid
    (sampleState_image (oneSegment 0x400000 16)).stacked rfl sampleView
  obtain ⟨s', done⟩ := returns (sampleState_serves (by decide +kernel))
  have entry : (oneSegment 0x400000 16).entry = 0x400000 := by decide +kernel
  refine ⟨s', entry ▸ done, (contents _ s' done).2.mpr ?_⟩
  intro i here
  rw [(oneSegment_only size here).2]
  refine ⟨by decide, fun j _ => ?_⟩
  rw [Nat.mod_eq_zero_of_dvd (by decide), Nat.zero_add]

/-- Of a segment of 4097 bytes the last one is not mapped. -/
theorem elfLoadSegments_page_missing : ¬∀ (site : LoadSite) (elf : ElfBuffer) (s s' : LoadState)
    (rip : Nat) (view : View), site.Sound → elf.WellFormed → s.frames.Valid →
      s.mem.usedPages.Stacked → s.mem.pgdir = create site.base →
        elfLoadSegments site elf s = .ok (rip, s') → elf.ReadBack site.base view s' := by
  intro claim
  have size : 0x1001 = 16 ∨ 0x1001 = 0x1001 := .inr rfl
  have wellFormed := oneSegment_wellFormed size
  have image := sampleState_image (oneSegment 0x400000 0x1001)
  obtain ⟨s', done⟩ :=
    elfLoadSegments_returns sampleSite_sound wellFormed image
      (sampleState_serves (by decide +kernel))
  obtain ⟨-, placements, final, all⟩ :=
    elfLoadSegments_image sampleSite_sound wellFormed image done
  have readBack := claim sampleSite _ _ s' _ sampleView sampleSite_sound wellFormed image.valid
    image.stacked rfl done
  have here : (oneSegment 0x400000 0x1001).IsSegment 0 := by
    rw [ElfBuffer.IsSegment]
    decide +kernel
  obtain ⟨fits, -⟩ :=
    (final.readBack_iff sampleView sampleSite_sound wellFormed all).mp readBack 0 here
  rw [(oneSegment_only size here).2] at fits
  exact absurd fits (by decide)

end SwagOS.Fs
