import SwagOS.Kernel.ThreadTable
import SwagOS.Mem.PageTables

/-!
# The memory of the processes

What process creation, fork, exec, exit, sbrk and free do to the page tables, the lists
of used pages and heap allocations, the heap bitmap and the frame managers.  The thread
table changes as in `ThreadTable`; here the memory of the process is changed with it.

The contents of the pages and the descriptors are left out, and so are the kernel page
tables: a frame passes through one of their entries while a segment is loaded.
-/

namespace SwagOS.Kernel

open SwagOS.Lib SwagOS.DataStructures SwagOS.Mem

def userStackLoc : Nat := 0xfffffc000

def userHeapStart : Nat := 0xffffffff00000000 - 0x1000

/-- `proc_used_page_entry` behind its list entry. -/
structure UsedPage where
  pageVa : Nat
  pagePa : Nat
  pdtTableIndex : Nat
  pdTableIndex : Nat

/-- `HeapAllocEntry` behind its list entry. -/
structure HeapAlloc where
  start : Nat
  end_ : Nat
  bitStart : Nat
  bitEnd : Nat
  iStart : Nat
  iEnd : Nat

/-- The part of `Process` that describes its memory. -/
structure UserMemory where
  pgdir : ThreadPagetables
  usedPages : Dll UsedPage
  heapAllocations : Dll HeapAlloc
  userHeapBitmap : Nat → BitVec 64

/-- Where the linker and `kalloc` have put things. -/
structure Layout where
  /-- The physical address of the page tables of a process. -/
  pgdirPhys : Nat → Nat
  /-- The address of a record, or of a list header. -/
  kernelAddress : Link → Nat

/-- The header and the segments of a file, as far as memory is concerned. -/
structure ElfProgramHeader where
  type : Nat
  vaddr : Nat
  memSize : Nat

structure ElfFile where
  id : Nat → Nat
  entry : Nat
  programHeaders : List ElfProgramHeader

def ptLoad : Nat := 1

def elfCheckMagic (elf : ElfFile) : Bool :=
  elf.id 0 = 0x7f && elf.id 1 = 'E'.toNat && elf.id 2 = 'L'.toNat && elf.id 3 = 'F'.toNat

def elfCheckFileClass (elf : ElfFile) : Bool := elf.id 4 = 2

/-- The frame managers and the memory of the process that is changed. -/
structure Space where
  frames : FrameManagers
  mem : UserMemory

/-- `1 << bit` for an `int`, as the processor computes it, in a quadword. -/
def intBit (bit : Nat) : BitVec 64 := (1#32 <<< (bit % 32)).signExtend 64

/-- `~(1 << bit)` -/
def intBitNot (bit : Nat) : BitVec 64 := (~~~(1#32 <<< (bit % 32))).signExtend 64

/-- The search of `SYSHANDLER_sbrk`: its counter and the start of the present run. -/
structure HeapScan where
  currCount : Nat
  iStart : Nat
  bitStart : Nat

/-- Both loops over the bitmap, up to the bit that completes the run; `n` bits are left. -/
def HeapScan.run (bitmap : Nat → BitVec 64) (numPages : Nat) : Nat → HeapScan → HeapScan × Option Nat
  | 0, scan => (scan, none)
  | n + 1, scan =>
      let k := 512 * 64 - (n + 1)
      let i := k / 64
      let bit := k % 64
      let scan :=
        if bitmap i >>> bit &&& 1#64 = 0#64 then
          if scan.currCount = 0 then ⟨1, i, bit⟩ else { scan with currCount := scan.currCount + 1 }
        else { scan with currCount := 0 }
      if scan.currCount = numPages then (scan, some k) else HeapScan.run bitmap numPages n scan

/-- The loops `for (x = first; x <= last; x++)`. -/
def upTo (first last : Nat) : List Nat := List.range' first (last + 1 - first)

def heapAddress (i bit : Nat) : Nat := userHeapStart - (pgSize * bit + 64 * pgSize * i)

namespace UserMemory

def map4kbPageUser (base : Nat) (mem : UserMemory)
    (virtualAddress physicalAddress pdtTableIndex pdTableIndex : Nat) : Outcome UserMemory := do
  let pgdir ← mem.pgdir.map4kbPageUser base virtualAddress physicalAddress pdtTableIndex pdTableIndex
  let usedPages ← mem.usedPages.pushHead fun _ =>
    ⟨pgRoundDown virtualAddress, physicalAddress, pdtTableIndex, pdTableIndex⟩
  pure { mem with pgdir := pgdir, usedPages := usedPages }

/-- The list of a process after a removal from the entry that `link` points to. -/
def removeAt (dll : Dll HeapAlloc) : Link → Outcome (Dll HeapAlloc)
  | .null => throw (.panic "Page Fault Interrupt")
  | .record i => pure (dll.removeDllEntry i)
  | .head =>
      let prev := dll.last
      let next := dll.first
      let dll := if prev ≠ .null then dll.setNext prev next else dll
      pure (if next ≠ .null then dll.setPrev next prev else dll)

/-- The loop of `ProcFreeHeapAllocations` removes the entry after the one it frees. -/
def procFreeHeapAllocations : Nat → Link → Dll HeapAlloc → Outcome (Dll HeapAlloc)
  | _, .null, dll => pure dll
  | _, .head, dll => pure dll
  | 0, .record _, _ => throw .hang
  | fuel + 1, .record i, dll => do
      let entry := (dll.records i).next
      let dll ← removeAt dll entry
      procFreeHeapAllocations fuel entry dll

def covers (address : Nat) (entry : HeapAlloc) : Option Unit :=
  if address ≥ entry.start ∧ address ≤ entry.end_ then some () else none

end UserMemory

namespace Space

def mapNewFrame (failure : String) (base virtualAddress pdtTableIndex pdTableIndex : Nat)
    (s : Space) : Outcome Space := do
  match ← s.frames.physicalFrameRequest4kb with
  | (none, _) => throw (.panic failure)
  | (some frame, frames) => do
      let mem ← s.mem.map4kbPageUser base virtualAddress frame pdtTableIndex pdTableIndex
      pure ⟨frames, mem⟩

def createUserProcessStack (base : Nat) (s : Space) : Outcome Space :=
  (List.range 5).foldlM (fun s i =>
    s.mapNewFrame "CreateUserProcessStack() --> got null frame\n" base
      (userStackLoc - i * pgSize) 500 500) s

def elfLoadSegment (base : Nat) (s : Space) (ph : ElfProgramHeader) : Outcome Space :=
  if ph.memSize = 0 ∨ ph.type ≠ ptLoad then pure s
  else
    s.mapNewFrame "ELF_load_segments() failed! could not get 4kb frame.\n" base ph.vaddr 1 0

def elfLoadSegments (base : Nat) (elf : ElfFile) (s : Space) : Outcome (Nat × Space) :=
  if !elfCheckMagic elf || !elfCheckFileClass elf then pure (0, s)
  else do
    let s ← elf.programHeaders.foldlM (elfLoadSegment base) s
    pure (elf.entry, s)

/-- The loop of `CreatePageTableFromCopy` over the pages of the old process. -/
def copyPages (layout : Layout) (view : View) (new old : Nat) (oldMem : UserMemory) :
    Nat → Link → Space → Outcome Space
  | _, .null, s => pure s
  | _, .head, s => pure s
  | 0, .record _, _ => throw .hang
  | fuel + 1, .record i, s => do
      let entry := (oldMem.usedPages.records i).data
      match ← s.frames.physicalFrameRequest4kb with
      | (none, _) =>
          throw (.panic
            "CreatePageTableFromCopy() --> physical_frame_request_4kb() returned bad frame\n")
      | (some newFrame, frames) => do
          Outcome.panicUnless
            (oldMem.pgdir.fetchStruct (layout.pgdirPhys old) view entry.pageVa 0x1000)
            "fetch struct fail\n"
          let mem ← s.mem.map4kbPageUser (layout.pgdirPhys new) entry.pageVa newFrame
            entry.pdtTableIndex entry.pdTableIndex
          Outcome.panicUnless
            (oldMem.pgdir.fetchStruct (layout.pgdirPhys old) view entry.pageVa 0x1000)
            "write struct fail\n"
          copyPages layout view new old oldMem fuel (oldMem.usedPages.records i).next ⟨frames, mem⟩

def createPageTableFromCopy (layout : Layout) (view : View) (new old : Nat) (oldMem : UserMemory)
    (s : Space) : Outcome Space :=
  copyPages layout view new old oldMem oldMem.usedPages.allocated oldMem.usedPages.first
    { s with mem := { s.mem with pgdir := .create (layout.pgdirPhys new) } }

def procFreeUserPages : Nat → Link → Space → Outcome Space
  | _, .null, s => pure s
  | _, .head, s => pure s
  | 0, .record _, _ => throw .hang
  | fuel + 1, .record i, s => do
      let (_, frames) ← s.frames.tryFreeChunkedFrame (s.mem.usedPages.records i).data.pagePa
      let next := (s.mem.usedPages.records i).next
      procFreeUserPages fuel next
        ⟨frames, { s.mem with usedPages := s.mem.usedPages.removeDllEntry i }⟩

/-- `ProcessFree`; threads and descriptors are not memory. -/
def processFree (s : Space) : Outcome Space := do
  let s ← s.procFreeUserPages s.mem.usedPages.allocated s.mem.usedPages.first
  let heapAllocations ← UserMemory.procFreeHeapAllocations s.mem.heapAllocations.allocated
    s.mem.heapAllocations.first s.mem.heapAllocations
  pure { s with mem := { s.mem with heapAllocations := heapAllocations } }

/-- The `page_pa` that `FreeUserHeapBits` reads: that of the entry after the one it removes.
If that is the header, the field behind it is `heap_allocations.first`. -/
def nextPagePa (layout : Layout) (mem : UserMemory) : Link → Outcome Nat
  | .null => throw (.panic "Page Fault Interrupt")
  | .head => pure (layout.kernelAddress mem.heapAllocations.first)
  | .record i => pure (mem.usedPages.records i).data.pagePa

/-- The loop of `FreeUserHeapBits` over the used pages. -/
def freeRange (layout : Layout) (addrStart addrEnd : Nat) : Nat → Link → Space → Outcome Space
  | _, .null, s => pure s
  | _, .head, s => pure s
  | 0, .record _, _ => throw .hang
  | fuel + 1, .record i, s => do
      let upEntry := (s.mem.usedPages.records i).next
      let pageVa := (s.mem.usedPages.records i).data.pageVa
      if pageVa ≥ addrStart ∧ pageVa ≤ addrEnd then
        let pagePa ← nextPagePa layout s.mem upEntry
        let (_, frames) ← s.frames.tryFreeChunkedFrame pagePa
        freeRange layout addrStart addrEnd fuel upEntry
          ⟨frames, { s.mem with usedPages := s.mem.usedPages.removeDllEntry i }⟩
      else freeRange layout addrStart addrEnd fuel upEntry s

def freeUserHeapBits (layout : Layout) (entry : HeapAlloc) (s : Space) : Outcome Space := do
  let s ← s.freeRange layout entry.start entry.end_ s.mem.usedPages.allocated s.mem.usedPages.first
  let userHeapBitmap := (upTo entry.iStart entry.iEnd).foldl (fun bitmap i =>
    (upTo entry.bitStart entry.bitEnd).foldl (fun bitmap bit =>
      Function.update bitmap i (bitmap i &&& intBitNot bit)) bitmap) s.mem.userHeapBitmap
  pure { s with mem := { s.mem with userHeapBitmap := userHeapBitmap } }

def freeHeapAllocEntry (layout : Layout) (address : Nat) (s : Space) : Outcome Space := do
  match ← s.mem.heapAllocations.search (UserMemory.covers address) s.mem.heapAllocations.allocated
      s.mem.heapAllocations.first with
  | none => pure s
  | some (i, _) => do
      let entry := (s.mem.heapAllocations.records i).data
      let heapAllocations := s.mem.heapAllocations.removeDllEntry i
      let s := { s with mem := { s.mem with heapAllocations := heapAllocations } }
      s.freeUserHeapBits layout entry

/-- The allocation loops of `SYSHANDLER_sbrk`, with the variable `end`; `none` if the frames
run out. -/
def sbrkPages (base : Nat) : List (Nat × Nat) → Nat → Space → Outcome (Option Nat × Space)
  | [], end_, s => pure (some end_, s)
  | (i, bit) :: rest, _, s => do
      let va := heapAddress i bit
      match ← s.frames.physicalFrameRequest4kb with
      | (none, frames) => pure (none, { s with frames := frames })
      | (some pa, frames) => do
          let mem := { s.mem with
            userHeapBitmap :=
              Function.update s.mem.userHeapBitmap i (s.mem.userHeapBitmap i ||| intBit bit) }
          let mem ← mem.map4kbPageUser base va pa 3 (2 + (userHeapStart - va) / hugePgSize)
          sbrkPages base rest (va + 0xFFF) ⟨frames, mem⟩

/-- Returns `rax`; `none` is `UINT64_MAX`. -/
def syshandlerSbrk (base rsi : Nat) (s : Space) : Outcome (Option Nat × Space) := do
  let numPages := rsi / pgSize + 1
  match HeapScan.run s.mem.userHeapBitmap numPages (512 * 64) ⟨0, 0, 0⟩ with
  | (_, none) => pure (none, s)
  | (scan, some last) => do
      let allocPtr := heapAddress scan.iStart scan.bitStart
      let (entry, heapAllocations) := s.mem.heapAllocations.kalloc
      let s := { s with mem := { s.mem with heapAllocations := heapAllocations } }
      let pages := (upTo scan.iStart (last / 64)).flatMap fun i =>
        (upTo scan.bitStart (last % 64)).map fun bit => (i, bit)
      match ← s.sbrkPages base pages 0 with
      | (none, s) => pure (none, s)
      | (some end_, s) => do
          let heapAllocations ← (s.mem.heapAllocations.modify entry fun _ =>
            ⟨allocPtr, end_, scan.bitStart, last % 64, scan.iStart, last / 64⟩).insertDllEntryHead
              entry
          pure (some allocPtr, { s with mem := { s.mem with heapAllocations := heapAllocations } })

end Space

/-- The processes with their memory. -/
structure System where
  table : ThreadTable
  frames : FrameManagers
  memory : Nat → UserMemory

namespace System

def space (s : System) (p : Nat) : Space := ⟨s.frames, s.memory p⟩

/-- The system after the memory of process `p` was changed. -/
def withSpace (s : System) (p : Nat) (space : Space) : System :=
  { s with frames := space.frames, memory := Function.update s.memory p space.mem }

def createUserProcess (layout : Layout) (view : View) (elf : ElfFile) (s : System) :
    Outcome System :=
  match s.table.findFreeProcess, s.table.findFreeThread with
  | some p, some _ => do
      let base := layout.pgdirPhys p
      let space := { s.space p with mem := { s.memory p with pgdir := .create base } }
      let (iRip, space) ← space.elfLoadSegments base elf
      let space ← space.createUserProcessStack base
      Outcome.panicUnless (space.mem.pgdir.isFrameMappedThread base view iRip) "rip not mapped\n"
      Outcome.panicUnless
        (space.mem.pgdir.isFrameMappedThread base view (userStackLoc + pgSize - 8))
        "rsp not mapped\n"
      pure { s.withSpace p space with table := s.table.createUserProcess iRip }
  | _, _ => pure s

def forkUserProcess (layout : Layout) (view : View) (old iRip : Nat) (s : System) :
    Outcome System :=
  match s.table.findFreeProcess, s.table.findFreeThread, (s.table.threads old).ownerProc with
  | some p, some _, some oldProc => do
      let space ← (s.space p).createPageTableFromCopy layout view p oldProc (s.memory oldProc)
      Outcome.panicUnless (space.mem.pgdir.isFrameMappedThread (layout.pgdirPhys p) view iRip)
        "ForkUserProcess() --> RIP not mapped!\n"
      pure { s.withSpace p space with table := s.table.forkUserProcess old iRip }
  | _, _, _ => pure s

/-- `none` is a file that does not exist or cannot be read.  The arguments are written to
the stack and change no mapping. -/
def execUserProcess (layout : Layout) (view : View) (t : Nat) (file : Option ElfFile)
    (s : System) : Outcome System :=
  match (s.table.threads t).ownerProc, file with
  | some p, some elf => do
      let base := layout.pgdirPhys p
      let space ← (s.space p).processFree
      let space := { space with mem := { space.mem with pgdir := .create base } }
      let space ← space.createUserProcessStack base
      let (iRip, space) ← space.elfLoadSegments base elf
      Outcome.panicUnless (space.mem.pgdir.isFrameMappedThread base view iRip) "rip not mapped\n"
      Outcome.panicUnless
        (space.mem.pgdir.isFrameMappedThread base view (userStackLoc + pgSize - 8))
        "rsp not mapped\n"
      pure { s.withSpace p space with table := s.table.execUserProcess t }
  | _, _ => pure s

def syshandlerExit (cpu t : Nat) (s : System) : Outcome System :=
  match (s.table.threads t).ownerProc with
  | none => pure { s with table := s.table.syshandlerExit cpu t }
  | some p =>
      if ((s.table.procs p).threadCount + (2 ^ 32 - 1)) % 2 ^ 32 = 0 then do
        let space ← (s.space p).processFree
        pure { s.withSpace p space with table := s.table.syshandlerExit cpu t }
      else pure { s with table := s.table.syshandlerExit cpu t }

def inProcess (t : Nat) (s : System) (call : Nat → Space → Outcome Space) : Outcome System :=
  match (s.table.threads t).ownerProc with
  | none => throw (.panic "Page Fault Interrupt")
  | some p => do
      let space ← call p (s.space p)
      pure (s.withSpace p space)

def syshandlerSbrk (layout : Layout) (t rsi : Nat) (s : System) : Outcome System :=
  s.inProcess t fun p space => do
    let (_, space) ← space.syshandlerSbrk (layout.pgdirPhys p) rsi
    pure space

def syshandlerFree (layout : Layout) (t rsi : Nat) (s : System) : Outcome System :=
  s.inProcess t fun _ space => space.freeHeapAllocEntry layout rsi

end System

end SwagOS.Kernel
