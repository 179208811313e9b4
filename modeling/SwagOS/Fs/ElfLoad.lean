import SwagOS.Kernel.UserMemory
import SwagOS.Lib.Bytes
import SwagOS.Mem.KernelPageTables.Transfer

/-!
# Loading executables

`fs/elf_load.c` on the bytes of the file, with the frames, the page tables of the process,
those of the kernel, and the contents of the frames.  The fields of the file are added to
pointers as they are; which bytes are read is recorded, so that reads outside the file are
seen.

The frames are not those of the tables or of the buffer, so the contents of a frame are kept
apart from both.  The translation buffers of the processor are left out: the page for the
transfer is translated by the tables as they are.
-/

namespace SwagOS.Fs

open SwagOS.Lib SwagOS.Mem SwagOS.Kernel ThreadPagetables

/-- A file in memory: the bytes at offsets from its pointer, modulo 2^64, of which the first
`size` belong to the file. -/
structure ElfBuffer where
  bytes : Nat → UInt8
  size : Nat

/-- `elf64_program_header_t`, as far as it is used. -/
structure Elf64ProgramHeader where
  type : Nat
  offset : Nat
  vaddr : Nat
  fileSize : Nat
  memSize : Nat
  deriving DecidableEq, Repr

/-- `i * header->phEntrySize` is an `int`, and is added to a 64-bit offset. -/
def intProduct (i phEntrySize : Nat) : Nat :=
  ((BitVec.ofNat 32 (i * phEntrySize)).signExtend 64).toNat

namespace ElfBuffer

variable (elf : ElfBuffer)

def at_ (p : Nat) : Bytes := fun i => elf.bytes ((p + i) % 2 ^ 64)

def entry : Nat := (elf.at_ 0).u64 24
def phOff : Nat := (elf.at_ 0).u64 32
def phEntrySize : Nat := (elf.at_ 0).u16 54
def phNum : Nat := (elf.at_ 0).u16 56

def phStart (i : Nat) : Nat := (elf.phOff + intProduct i elf.phEntrySize) % 2 ^ 64

def headerAt (start : Nat) : Elf64ProgramHeader where
  type := (elf.at_ start).u32 0
  offset := (elf.at_ start).u64 8
  vaddr := (elf.at_ start).u64 16
  fileSize := (elf.at_ start).u64 32
  memSize := (elf.at_ start).u64 40

def programHeader (i : Nat) : Elf64ProgramHeader := elf.headerAt (elf.phStart i)

end ElfBuffer

def vaLoadTransfer (lapicId : Nat) : Nat := (0xeeec000 + lapicId * 0x1000) % 2 ^ 32

/-- The memory that a load changes. -/
structure LoadState where
  frames : FrameManagers
  /-- The memory of the process. -/
  mem : UserMemory
  /-- The tables of the kernel. -/
  tables : Paging.Tables
  /-- The bytes of the physical frames. -/
  ram : Nat → UInt8
  /-- The offsets of the bytes of the file that were read. -/
  reads : List Nat

namespace LoadState

def read (s : LoadState) (p count : Nat) : LoadState :=
  { s with reads := s.reads ++ (List.range count).map fun k => (p + k) % 2 ^ 64 }

def store (s : LoadState) (root va count : Nat) (bytes : Bytes) : Outcome LoadState :=
  match Paging.walk s.tables va root with
  | none => throw (.panic "Page Fault Interrupt")
  | some t =>
      if t.writable then
        pure { s with ram := fun p =>
          if t.physical ≤ p ∧ p < t.physical + count then bytes (p - t.physical) else s.ram p }
      else throw (.panic "Page Fault Interrupt")

end LoadState

def compareId (elf : ElfBuffer) : Nat → List UInt8 → LoadState → Bool × LoadState
  | _, [], s => (true, s)
  | k, b :: rest, s =>
      if elf.at_ 0 k = b then compareId elf (k + 1) rest (s.read k 1) else (false, s.read k 1)

def elfCheckMagic (elf : ElfBuffer) (s : LoadState) : Bool × LoadState :=
  compareId elf 0 [0x7f, 69, 76, 70] s

/-- `ELF_check_file_class`; `ELF_CLASS_64` is 2. -/
def elfCheckFileClass (elf : ElfBuffer) (s : LoadState) : Bool × LoadState :=
  compareId elf 4 [2] s

/-- Where a process is loaded: the physical address of its tables, the kernel's tables, and
the CPU, which has its own page for the transfer. -/
structure LoadSite where
  base : Nat
  kernel : KernelTables
  lapicId : Nat

namespace LoadSite

def transfer (site : LoadSite) : Nat := vaLoadTransfer site.lapicId

def map (site : LoadSite) (frame : Nat) (s : LoadState) : LoadState :=
  { s with tables := site.kernel.map4kbPageSmp s.tables site.transfer frame kernelFlags }

/-- `check_frame+check_offset` -/
def found (site : LoadSite) (s : LoadState) : Nat :=
  let check := KernelTables.virtualToPhysical s.tables site.kernel.pml4t site.transfer
  (check.1 + check.2) % 2 ^ 64

def store (site : LoadSite) (count : Nat) (bytes : Bytes) (s : LoadState) : Outcome LoadState :=
  s.store site.kernel.pml4t site.transfer count bytes

end LoadSite

def copyCount (copyOffset fileSize : Nat) : Nat :=
  if (copyOffset + pgSize) % 2 ^ 64 < fileSize then pgSize else fileSize - copyOffset

def copyPage (site : LoadSite) (elf : ElfBuffer) (i toCopy copyOffset : Nat) (s : LoadState) :
    Outcome LoadState :=
  let ph := elf.programHeader i
  let count := copyCount copyOffset ph.fileSize
  if copyOffset < toCopy then
    site.store count (elf.at_ ph.offset)
      (((s.read (elf.phStart i + 8) 8).read (elf.phStart i + 32) 8).read ph.offset count)
  else pure s

def loadFrame (site : LoadSite) (elf : ElfBuffer) (i toCopy copyOffset frame : Nat)
    (s : LoadState) : Outcome LoadState := do
  Outcome.panicUnless (site.found s = frame) "check_frame+check_offset!=frame"
  let mem ← s.mem.map4kbPageUser site.base
    (((elf.programHeader i).vaddr + copyOffset) % 2 ^ 64) frame 1 0
  let s ← site.store pgSize (fun _ => 0) { s.read (elf.phStart i + 16) 8 with mem := mem }
  copyPage site elf i toCopy copyOffset s

/-- One turn of the loop over the pages of a segment; `copyOffset` is where in the segment
the page starts. -/
def loadPage (site : LoadSite) (elf : ElfBuffer) (i toCopy copyOffset : Nat) (s : LoadState) :
    Outcome LoadState := do
  match ← s.frames.physicalFrameRequest4kb with
  | (none, _) => throw (.panic "ELF_load_segments() failed! could not get 4kb frame.\n")
  | (some frame, frames) =>
      loadFrame site elf i toCopy copyOffset frame (site.map frame { s with frames := frames })

/-- One turn of the loop over the program headers.  The loop over the pages of the segment
ends in its first turn, with a `break`. -/
def loadSegment (site : LoadSite) (elf : ElfBuffer) (s : LoadState) (i : Nat) :
    Outcome LoadState :=
  let ph := elf.programHeader i
  let start := elf.phStart i
  let s := ((s.read 56 2).read 32 8).read 54 2
  let s := s.read (start + 40) 8
  if ph.memSize = 0 then pure s
  else
    let s := s.read start 4
    if ph.type ≠ ptLoad then pure s
    else loadPage site elf i ph.fileSize 0 (s.read (start + 32) 8)

/-- `ELF_load_segments` returns the entry point, or 0. -/
def elfLoadSegments (site : LoadSite) (elf : ElfBuffer) (s : LoadState) :
    Outcome (Nat × LoadState) :=
  let (magic, s) := elfCheckMagic elf s
  if !magic then pure (0, s)
  else
    let (fileClass, s) := elfCheckFileClass elf s
    if !fileClass then pure (0, s)
    else do
      let s ← (List.range elf.phNum).foldlM (loadSegment site elf) s
      pure (elf.entry, (s.read 56 2).read 24 8)

end SwagOS.Fs
