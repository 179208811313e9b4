import SwagOS.Fs.ElfLoad
import SwagOS.Mem.ChunkedFrames.Safety
import SwagOS.Mem.PageTables.Image

/-!
# What a segment leaves

One turn of the loop over the program headers, as an equation: which bytes of the file it
reads, and, where a frame is served and the page can be mapped, the state after it.  Only the
mapping in the tables of the process can fail then.
-/

namespace SwagOS.Fs

open SwagOS.Lib SwagOS.DataStructures SwagOS.Mem SwagOS.Kernel ThreadPagetables

def offsets (p count : Nat) : List Nat := (List.range count).map fun k => (p + k) % 2 ^ 64

namespace ElfBuffer

variable (elf : ElfBuffer) (i : Nat)

def Loads : Prop := (elf.programHeader i).memSize ≠ 0 ∧ (elf.programHeader i).type = ptLoad

instance : DecidablePred elf.Loads := fun _ => inferInstanceAs (Decidable (_ ∧ _))

def copied : Nat := min (elf.programHeader i).fileSize pgSize

def pageByte (k : Nat) : UInt8 :=
  if k < elf.copied i then elf.at_ (elf.programHeader i).offset k else 0

def turnReads : List Nat :=
  let ph := elf.programHeader i
  let start := elf.phStart i
  offsets 56 2 ++ offsets 32 8 ++ offsets 54 2 ++ offsets (start + 40) 8 ++
    if ph.memSize = 0 then []
    else offsets start 4 ++
      if ph.type ≠ ptLoad then []
      else offsets (start + 32) 8 ++ offsets (start + 16) 8 ++
        if 0 < ph.fileSize then
          offsets (start + 8) 8 ++ offsets (start + 32) 8 ++ offsets ph.offset (elf.copied i)
        else []

theorem vaddr_lt : (elf.programHeader i).vaddr < 2 ^ 64 := Bytes.u64_lt _ _

end ElfBuffer

/-- The tables of the kernel and of the process are where the linker puts them. -/
structure LoadSite.Sound (site : LoadSite) : Prop where
  placed : Placed site.base
  apart : site.kernel.Apart
  low : site.kernel.Low

theorem vaLoadTransfer_aligned (lapicId : Nat) : vaLoadTransfer lapicId % pgSize = 0 := by
  rw [vaLoadTransfer, pgSize]
  omega

theorem vaLoadTransfer_canonical (lapicId : Nat) :
    Paging.Canonical (vaLoadTransfer lapicId) := by
  left
  rw [vaLoadTransfer]
  omega

namespace LoadState

variable (s : LoadState)

@[simp] theorem read_frames (p count : Nat) : (s.read p count).frames = s.frames := rfl
@[simp] theorem read_mem (p count : Nat) : (s.read p count).mem = s.mem := rfl
@[simp] theorem read_tables (p count : Nat) : (s.read p count).tables = s.tables := rfl
@[simp] theorem read_ram (p count : Nat) : (s.read p count).ram = s.ram := rfl
@[simp] theorem read_reads (p count : Nat) :
    (s.read p count).reads = s.reads ++ offsets p count := rfl

def loaded (site : LoadSite) (elf : ElfBuffer) (i frame : Nat) (frames : FrameManagers)
    (pgdir : ThreadPagetables) : LoadState where
  frames := frames
  mem := { s.mem with
    pgdir := pgdir
    usedPages := s.mem.usedPages.pushed fun _ =>
      ⟨pgRoundDown (elf.programHeader i).vaddr, frame, 1, 0⟩ }
  tables := site.kernel.map4kbPageSmp s.tables (vaLoadTransfer site.lapicId) frame kernelFlags
  ram := fun p => if frame ≤ p ∧ p < frame + pgSize then elf.pageByte i (p - frame) else s.ram p
  reads := s.reads ++ elf.turnReads i

end LoadState

variable {site : LoadSite} {elf : ElfBuffer} {s : LoadState} {i : Nat}

/-- A turn whose header is not for loading only reads. -/
theorem loadSegment_skipped (skipped : ¬elf.Loads i) :
    loadSegment site elf s i = .ok { s with reads := s.reads ++ elf.turnReads i } := by
  rw [loadSegment, ElfBuffer.turnReads]
  by_cases empty : (elf.programHeader i).memSize = 0
  · simp only [if_pos empty, LoadState.read, offsets, List.append_assoc, List.append_nil]
    rfl
  · have other : (elf.programHeader i).type ≠ ptLoad := fun load => skipped ⟨empty, load⟩
    simp only [if_neg empty, if_pos other, LoadState.read, offsets, List.append_assoc,
      List.append_nil]
    rfl

theorem LoadSite.store_map {s : LoadState} (sound : site.Sound) {frame : Nat}
    {tables : Paging.Tables} (mapped : s.tables = site.kernel.map4kbPageSmp tables
      site.transfer frame kernelFlags) (aligned : frame % pgSize = 0)
    (below : frame < 2 ^ 52) (count : Nat) (bytes : Bytes) :
    site.store count bytes s = .ok { s with
      ram := fun p => if frame ≤ p ∧ p < frame + count then bytes (p - frame) else s.ram p } := by
  have walk : Paging.walk (site.kernel.map4kbPageSmp tables (vaLoadTransfer site.lapicId) frame
      kernelFlags) (vaLoadTransfer site.lapicId) site.kernel.pml4t = _ :=
    KernelTables.map4kbPageSmp_walk sound.apart (vaLoadTransfer_canonical site.lapicId) aligned
      below
  rw [vaLoadTransfer_aligned, Nat.add_zero] at walk
  rw [LoadSite.store, LoadState.store, mapped, LoadSite.transfer, walk]
  rfl

theorem LoadSite.found_map {s : LoadState} (sound : site.Sound) {frame : Nat}
    (aligned : frame % pgSize = 0) (below : frame < 2 ^ 52) :
    site.found (site.map frame s) = frame := by
  have physical : KernelTables.virtualToPhysical (site.kernel.map4kbPageSmp s.tables
      (vaLoadTransfer site.lapicId) frame kernelFlags) site.kernel.pml4t
        (vaLoadTransfer site.lapicId) = _ :=
    KernelTables.map4kbPageSmp_virtualToPhysical sound.apart sound.low aligned below
  have masked : vaLoadTransfer site.lapicId &&& 0xFFF = 0 :=
    (Nat.and_two_pow_sub_one_eq_mod (vaLoadTransfer site.lapicId) 12).trans
      (vaLoadTransfer_aligned site.lapicId)
  rw [masked] at physical
  rw [LoadSite.found, LoadSite.map, LoadSite.transfer, physical]
  omega

theorem copyCount_first (fileSize : Nat) : copyCount 0 fileSize = min fileSize pgSize := by
  rw [copyCount, pgSize]
  split <;> omega

theorem copyPage_first (sound : site.Sound) {frame : Nat} {tables : Paging.Tables}
    (mapped : s.tables = site.kernel.map4kbPageSmp tables site.transfer frame kernelFlags)
    (aligned : frame % pgSize = 0) (below : frame < 2 ^ 52) :
    copyPage site elf i (elf.programHeader i).fileSize 0 s = .ok { s with
      ram := fun p => if frame ≤ p ∧ p < frame + elf.copied i
        then elf.at_ (elf.programHeader i).offset (p - frame) else s.ram p
      reads := s.reads ++ if 0 < (elf.programHeader i).fileSize then
          offsets (elf.phStart i + 8) 8 ++ offsets (elf.phStart i + 32) 8 ++
            offsets (elf.programHeader i).offset (elf.copied i)
        else [] } := by
  rw [copyPage, copyCount_first, ← ElfBuffer.copied]
  by_cases filled : 0 < (elf.programHeader i).fileSize
  · have kept : (((s.read (elf.phStart i + 8) 8).read (elf.phStart i + 32) 8).read
        (elf.programHeader i).offset (elf.copied i)).tables = _ := mapped
    rw [if_pos filled, if_pos filled, LoadSite.store_map sound kept aligned below]
    simp only [LoadState.read_frames, LoadState.read_mem, LoadState.read_tables,
      LoadState.read_ram, LoadState.read_reads, List.append_assoc]
  · have none : elf.copied i = 0 := by
      rw [ElfBuffer.copied]
      omega
    rw [if_neg filled, if_neg filled, List.append_nil, none]
    have nowhere : ∀ p, ¬(frame ≤ p ∧ p < frame + 0) := by omega
    simp only [if_neg (nowhere _)]
    rfl

theorem copied_le (elf : ElfBuffer) (i : Nat) : elf.copied i ≤ pgSize := Nat.min_le_right _ _

theorem pageByte_over (frame : Nat) (ram : Nat → UInt8) (p : Nat) :
    (if frame ≤ p ∧ p < frame + elf.copied i
      then elf.at_ (elf.programHeader i).offset (p - frame)
      else if frame ≤ p ∧ p < frame + pgSize then 0 else ram p) =
      if frame ≤ p ∧ p < frame + pgSize then elf.pageByte i (p - frame) else ram p := by
  have within := copied_le elf i
  by_cases inside : frame ≤ p ∧ p < frame + pgSize
  · rw [if_pos inside, if_pos inside, ElfBuffer.pageByte]
    have same : (frame ≤ p ∧ p < frame + elf.copied i) ↔ p - frame < elf.copied i := by omega
    simp only [same]
  · have outside : ¬(frame ≤ p ∧ p < frame + elf.copied i) := by omega
    rw [if_neg outside, if_neg inside, if_neg inside]

theorem loadFrame_first (sound : site.Sound) (stacked : s.mem.usedPages.Stacked) {frame : Nat}
    (aligned : frame % pgSize = 0) (below : frame < 2 ^ 52) :
    loadFrame site elf i (elf.programHeader i).fileSize 0 frame (site.map frame s) =
      (s.mem.pgdir.map4kbPageUser site.base (elf.programHeader i).vaddr frame 1 0).map
        fun pgdir => { s with
          mem := { s.mem with
            pgdir := pgdir
            usedPages := s.mem.usedPages.pushed fun _ =>
              ⟨pgRoundDown (elf.programHeader i).vaddr, frame, 1, 0⟩ }
          tables := (site.map frame s).tables
          ram := fun p =>
            if frame ≤ p ∧ p < frame + pgSize then elf.pageByte i (p - frame) else s.ram p
          reads := s.reads ++ (offsets (elf.phStart i + 16) 8 ++
            if 0 < (elf.programHeader i).fileSize then
              offsets (elf.phStart i + 8) 8 ++ offsets (elf.phStart i + 32) 8 ++
                offsets (elf.programHeader i).offset (elf.copied i)
            else []) } := by
  have vaddr : ((elf.programHeader i).vaddr + 0) % 2 ^ 64 = (elf.programHeader i).vaddr := by
    rw [Nat.add_zero, Nat.mod_eq_of_lt (elf.vaddr_lt i)]
  rw [loadFrame, LoadSite.found_map sound aligned below, decide_eq_true rfl, vaddr,
    UserMemory.map4kbPageUser]
  simp only [Outcome.panicUnless, if_true, pure_bind]
  have memory : (site.map frame s).mem = s.mem := rfl
  rw [memory]
  cases done : s.mem.pgdir.map4kbPageUser site.base (elf.programHeader i).vaddr frame 1 0 with
  | error fault => rfl
  | ok pgdir =>
    rw [stacked.pushHead_eq]
    simp only [bind, Except.bind, pure, Except.pure, Except.map]
    rw [LoadSite.store_map sound rfl aligned below]
    refine (copyPage_first sound rfl aligned below).trans ?_
    simp only [pageByte_over, LoadState.read_reads, List.append_assoc]
    rfl

/-- A turn that loads: it succeeds if the page can be mapped. -/
theorem loadSegment_loaded (sound : site.Sound) (stacked : s.mem.usedPages.Stacked)
    (loads : elf.Loads i) {frame : Nat} {frames : FrameManagers}
    (served : s.frames.physicalFrameRequest4kb = .ok (some frame, frames))
    (aligned : frame % pgSize = 0) (below : frame < 2 ^ 52) :
    loadSegment site elf s i =
      (s.mem.pgdir.map4kbPageUser site.base (elf.programHeader i).vaddr frame 1 0).map
        (s.loaded site elf i frame frames) := by
  rw [loadSegment, if_neg loads.1, if_neg (not_not.mpr loads.2), loadPage]
  simp only [LoadState.read_frames, served, bind, Except.bind]
  rw [loadFrame_first sound (by exact stacked) aligned below]
  refine congrArg (fun load => Except.map load _) ?_
  funext pgdir
  rw [LoadState.loaded, ElfBuffer.turnReads, if_neg loads.1, if_neg (not_not.mpr loads.2)]
  simp only [LoadState.read_mem, LoadState.read_ram, LoadState.read_reads, List.append_assoc]
  rfl

end SwagOS.Fs
