import SwagOS.Fs.ElfLoad.Contents
import SwagOS.Kernel.Descriptors

/-!
# exec

`ExecUserProcess` with what it changes: the tables of threads and processes, the descriptors
and the memory of the process, and the context that the system call returns to.  The process
is freed before the file is looked at, and from there on the function returns 0 or not at all.

The locks are left out, as are `run_mode` and the kernel addresses in a thread.  The disk is
read before anything is changed; a thread that waits for it is as it was when it goes on.
-/

namespace SwagOS.Kernel

open SwagOS.Lib SwagOS.Libc SwagOS.Mem SwagOS.Fs

/-- `cpu_context_t` -/
structure CpuContext where
  r15 : Nat
  r14 : Nat
  r13 : Nat
  r12 : Nat
  r11 : Nat
  r10 : Nat
  r9 : Nat
  r8 : Nat
  rdi : Nat
  rsi : Nat
  rbp : Nat
  rdx : Nat
  rcx : Nat
  rbx : Nat
  rax : Nat
  isrId : Nat
  errorCode : Nat
  iRip : Nat
  iCs : Nat
  iRflags : Nat
  iRsp : Nat
  iSs : Nat
  deriving DecidableEq, Repr

def CpuContext.zero : CpuContext :=
  ⟨0, 0, 0, 0, 0, 0, 0, 0, 0, 0, 0, 0, 0, 0, 0, 0, 0, 0, 0, 0, 0, 0⟩

def userCs : Nat := 0x18 ||| 0x3

def userDs : Nat := 0x20 ||| 0x3

def maxArgCount : Nat := 16

namespace Files

variable (files : Files) (filepath : List UInt8)

def fileExists : Outcome Bool := files.fs.ext2FileExists files.mem files.fuel filepath

def readFile : Outcome (Option ElfBuffer) := do
  match ← files.fs.ext2ReadFile files.mem files.fuel filepath with
  | none => pure none
  | some bytes => do
      let inode ← files.fs.inodeOf files.mem files.fuel filepath
      pure (some ⟨bytes, files.fs.ext2GetFileSize inode⟩)

def NoFile : Prop :=
  files.fileExists filepath = .ok false ∨
    files.fileExists filepath = .ok true ∧ files.readFile filepath = .ok none

end Files

/-- What exec finds: the place of the process, the files, and what the stack holds where
`argv` is not set. -/
structure ExecSite where
  load : LoadSite
  view : View
  files : Files
  stack : Nat → Nat

/-- What exec changes. -/
structure ExecState where
  table : ThreadTable
  load : LoadState
  fd : Nat → FileDescriptor
  ctx : CpuContext

/-- The arguments that were copied: their number, the stack pointer and `argv`. -/
structure ArgCopy where
  argc : Nat
  iRsp : Nat
  argv : Nat → Nat
  load : LoadState

namespace ExecSite

variable (site : ExecSite)

/-- `memcpy` to user memory, through the tables of the process. -/
def copyToUser (addr : Nat) (bytes : Bytes) (count : Nat) (s : LoadState) : Outcome LoadState :=
  (List.range count).foldlM (fun s k =>
    match Paging.walk (s.mem.pgdir.tableAt site.load.base site.view) ((addr + k) % 2 ^ 64)
        site.load.base with
    | none => throw (.panic "Page Fault Interrupt")
    | some t => pure { s with ram := Function.update s.ram t.physical (bytes k) }) s

def writeStruct (addr : Nat) (bytes : Bytes) (size : Nat) (s : LoadState) : Outcome LoadState :=
  if s.mem.pgdir.fetchStruct site.load.base site.view addr size then
    site.copyToUser addr bytes size s
  else pure s

/-- `ctx->i_rsp -= size` -/
def pushStack (iRsp size : Nat) : Nat := (iRsp + (2 ^ 64 - size)) % 2 ^ 64

def copyArg (args : List UInt8) (a : ArgCopy) (i : Nat) : Outcome ArgCopy :=
  let argLen := strlen args (maxPath * i) % 2 ^ 32
  if argLen = 0 then pure a
  else do
    let size := (argLen + 1) % 2 ^ 32
    let iRsp := pushStack a.iRsp size
    let load ← site.writeStruct iRsp (fun k => args.getD (maxPath * i + k) 0) size a.load
    pure ⟨a.argc + 1, iRsp, Function.update a.argv i iRsp, load⟩

def argvBytes (argv : Nat → Nat) : Bytes :=
  fun k => UInt8.ofNat (argv (k / 8) / 256 ^ (k % 8) % 256)

def renewMemory (s : LoadState) : Outcome LoadState := do
  let space ← Space.processFree ⟨s.frames, s.mem⟩
  let space ← Space.createUserProcessStack site.load.base
    { space with mem := { space.mem with pgdir := .create site.load.base } }
  pure { s with frames := space.frames, mem := space.mem }

def execImage (t : Nat) (args : List UInt8) (elf : ElfBuffer) (s : ExecState) :
    Outcome (Int × ExecState) := do
  let load ← site.renewMemory s.load
  let (iRip, load) ← elfLoadSegments site.load elf load
  let iRsp := userStackLoc + pgSize - 8
  Outcome.panicUnless (load.mem.pgdir.isFrameMappedThread site.load.base site.view iRip)
    "rip not mapped\n"
  Outcome.panicUnless (load.mem.pgdir.isFrameMappedThread site.load.base site.view iRsp)
    "rsp not mapped\n"
  let a ← (List.range maxArgCount).reverse.foldlM (site.copyArg args) ⟨0, iRsp, site.stack, load⟩
  let iRsp := pushStack a.iRsp (8 * maxArgCount)
  let load ← site.writeStruct iRsp (argvBytes a.argv) (8 * maxArgCount) a.load
  pure (0, {
    table := s.table.execUserProcess t
    load := load
    fd := fun _ => ⟨false, []⟩
    ctx := { CpuContext.zero with
      iRip := iRip, iRsp := iRsp, iRflags := 0x202, iCs := userCs, iSs := userDs
      rdi := a.argc, rsi := iRsp } })

def execUserProcess (t : Nat) (filepath args : List UInt8) (s : ExecState) :
    Outcome (Int × ExecState) :=
  match (s.table.threads t).ownerProc with
  | none => pure (-1, s)
  | some _ => do
      if ← site.files.fileExists filepath then
        match ← site.files.readFile filepath with
        | none => pure (-1, s)
        | some elf => site.execImage t args elf s
      else pure (-1, s)

def FailsCleanly (t : Nat) (filepath args : List UInt8) (s : ExecState) : Prop :=
  ∃ s', site.execUserProcess t filepath args s = .ok (-1, s') ∧
    s'.load.mem = s.load.mem ∧ s'.fd = s.fd ∧ s'.table = s.table ∧ s'.ctx = s.ctx

variable {site}

theorem execImage_returns {t : Nat} {args : List UInt8} {elf : ElfBuffer} {s s' : ExecState}
    {ret : Int} (done : site.execImage t args elf s = .ok (ret, s')) : ret = 0 := by
  obtain ⟨load, -, done⟩ := Outcome.bind_ok.mp done
  obtain ⟨⟨iRip, load'⟩, -, done⟩ := Outcome.bind_ok.mp done
  obtain ⟨_, -, done⟩ := Outcome.bind_ok.mp done
  obtain ⟨_, -, done⟩ := Outcome.bind_ok.mp done
  obtain ⟨a, -, done⟩ := Outcome.bind_ok.mp done
  obtain ⟨load'', -, done⟩ := Outcome.bind_ok.mp done
  exact (Prod.mk.inj (Outcome.pure_ok.mp done)).1.symm

/-- exec fails cleanly if and only if there is no process or no file: it looks at a file only
when the process is freed. -/
theorem exec_fails_cleanly_iff (t : Nat) (filepath args : List UInt8) (s : ExecState) :
    site.FailsCleanly t filepath args s ↔
      (s.table.threads t).ownerProc = none ∨ site.files.NoFile filepath := by
  rw [FailsCleanly, execUserProcess]
  cases owner : (s.table.threads t).ownerProc with
  | none =>
    refine iff_of_true ⟨s, rfl, rfl, rfl, rfl, rfl⟩ (.inl rfl)
  | some p =>
    simp only [reduceCtorEq, false_or, Files.NoFile]
    constructor
    · rintro ⟨s', done, -⟩
      obtain ⟨isFile, exists_, done⟩ := Outcome.bind_ok.mp done
      cases isFile with
      | false => exact .inl exists_
      | true =>
        rw [if_pos rfl] at done
        obtain ⟨_ | elf, read, done⟩ := Outcome.bind_ok.mp done
        · exact .inr ⟨exists_, read⟩
        · exact absurd (execImage_returns done) (by decide)
    · rintro (missing | ⟨exists_, unread⟩)
      · refine ⟨s, ?_, rfl, rfl, rfl, rfl⟩
        exact Outcome.bind_ok.mpr ⟨false, missing, rfl⟩
      · refine ⟨s, ?_, rfl, rfl, rfl, rfl⟩
        exact Outcome.bind_ok.mpr ⟨true, exists_, Outcome.bind_ok.mpr ⟨none, unread, rfl⟩⟩

theorem execUserProcess_file {t p : Nat} {filepath : List UInt8} {elf : ElfBuffer}
    {s : ExecState} (owner : (s.table.threads t).ownerProc = some p)
    (isFile : site.files.fileExists filepath = .ok true)
    (read : site.files.readFile filepath = .ok (some elf)) (args : List UInt8) :
    site.execUserProcess t filepath args s = site.execImage t args elf s := by
  rw [execUserProcess, owner]
  simp only [isFile, read]
  rfl

/-- Tables in which only the addresses of the first 512 GB have an entry, and not the first
gigabyte. -/
structure NullUnmapped (base : Nat) (pgdir : ThreadPagetables) : Prop where
  pml4t : pgdir.pml4t 0 = 0#64 ∨
    pgdir.pml4t 0 =
      ThreadPagetables.entry (ThreadPagetables.pdptPhys base) ThreadPagetables.userFlags
  pdpt : pgdir.pdpt 0 = 0#64

open ThreadPagetables in
theorem NullUnmapped.isFrameMapped {base : Nat} {pgdir : ThreadPagetables} (view : View)
    (placed : Placed base) (unmapped : NullUnmapped base pgdir) :
    pgdir.isFrameMappedThread base view 0 = false := by
  have first : pml4tIndex 0 = 0 := by decide
  have second : pdptIndex 0 = 0 := by decide
  rw [isFrameMappedThread, first, second]
  rcases unmapped.pml4t with null | leads
  · simp [null]
  · obtain ⟨aligned, below, notNull⟩ := placed.pdpt
    have masked := (entry_address aligned below (by decide : userFlags.toNat < 2 ^ 12)).2
    simp [leads, masked, tableAt_pdpt, unmapped.pdpt]

open ThreadPagetables in
theorem NullUnmapped.create (base : Nat) : NullUnmapped base (create base) where
  pml4t := .inl rfl
  pdpt := rfl

open ThreadPagetables in
theorem NullUnmapped.mapNewFrame {base va a b : Nat} {failure : String} {s s' : Space}
    (unmapped : NullUnmapped base s.mem.pgdir) (above : pdptIndex va ≠ 0)
    (done : s.mapNewFrame failure base va a b = .ok s') : NullUnmapped base s'.mem.pgdir := by
  rw [Space.mapNewFrame] at done
  obtain ⟨⟨_ | frame, frames⟩, -, done⟩ := Outcome.bind_ok.mp done
  · cases done
  · obtain ⟨mem, mapped, ⟨⟩⟩ := Outcome.bind_ok.mp done
    rw [UserMemory.map4kbPageUser] at mapped
    obtain ⟨pgdir, tables, mapped⟩ := Outcome.bind_ok.mp mapped
    obtain ⟨usedPages, -, ⟨⟩⟩ := Outcome.bind_ok.mp mapped
    obtain ⟨pml4t, pdpt, -⟩ := map4kbPageUser_tables tables
    constructor
    case pml4t =>
      simp only [pml4t]
      rcases update_entry with new | old
      · exact .inr new
      · rw [old]
        exact unmapped.pml4t
    case pdpt =>
      simp only [pdpt]
      rw [Function.update_of_ne (Ne.symm above)]
      exact unmapped.pdpt

theorem NullUnmapped.renewMemory {s s' : LoadState} (done : site.renewMemory s = .ok s') :
    NullUnmapped site.load.base s'.mem.pgdir := by
  obtain ⟨freed, -, done⟩ := Outcome.bind_ok.mp done
  obtain ⟨space, stack, ⟨⟩⟩ := Outcome.bind_ok.mp done
  refine Outcome.foldlM_mem (P := fun s => NullUnmapped site.load.base s.mem.pgdir) ?_ stack
    (NullUnmapped.create site.load.base)
  intro i member s s' unmapped step
  have above : ∀ i ∈ List.range 5, pdptIndex (userStackLoc - i * pgSize) ≠ 0 := by decide
  exact unmapped.mapNewFrame (above i member) step

/-- On a file that is no executable, exec ends in a panic. -/
theorem execImage_halts (placed : ThreadPagetables.Placed site.load.base) {t : Nat}
    {args : List UInt8}
    {elf : ElfBuffer} (refused : ¬elf.Passes) (s : ExecState) :
    ∃ halt, site.execImage t args elf s = .error halt := by
  cases done : site.execImage t args elf s with
  | error halt => exact ⟨halt, rfl⟩
  | ok result =>
    obtain ⟨load, renewed, done⟩ := Outcome.bind_ok.mp done
    have unmapped := NullUnmapped.renewMemory renewed
    obtain ⟨load', loaded, same⟩ : ∃ s', elfLoadSegments site.load elf load = .ok (0, s') ∧
        s'.mem = load.mem := elfLoadSegments_refuses refused
    obtain ⟨⟨iRip, load''⟩, again, done⟩ := Outcome.bind_ok.mp done
    obtain ⟨rfl, rfl⟩ := Prod.mk.inj (Except.ok.inj (loaded.symm.trans again))
    obtain ⟨_, checked, -⟩ := Outcome.bind_ok.mp done
    rw [same, unmapped.isFrameMapped site.view placed] at checked
    cases checked

end ExecSite

theorem smallImage_text : ∃ files : Files, ∃ elf, files.fileExists [47, 104] = .ok true ∧
    files.readFile [47, 104] = .ok (some elf) ∧ ¬elf.Passes := by
  obtain ⟨-, found, resolves⟩ := Ext2Driver.smallImage_files
  let mem := Ext2Driver.smallImage.hostile
  have type := Ext2Driver.smallImage_oneBlock.type
  have right : Ext2Driver.smallImage.ReadsRight [[104]] (Ext2Driver.smallImage.inode 6) 1024 :=
    Ext2Driver.smallImage_oneBlock.readsRight Ext2Driver.smallImage_wellFormed found resolves
      Ext2Driver.smallImage_oneBlock_direct
  obtain ⟨buf, reads, same⟩ := right mem
  obtain ⟨least, exists_⟩ := found.fileExists resolves type mem
  have returns : Outcome.Returns
      (fun fuel => Files.readFile ⟨Ext2Driver.smallImage, mem, fuel⟩ [47, 104])
      (some ⟨buf, Ext2Driver.smallImage.ext2GetFileSize (Ext2Driver.smallImage.inode 6)⟩) := by
    apply reads.bind
    apply (found.inodeOf resolves mem).bind
    exact ⟨0, fun _ _ => rfl⟩
  obtain ⟨least', read⟩ := returns
  refine ⟨⟨Ext2Driver.smallImage, mem, least + least'⟩, _,
    exists_ _ (Nat.le_add_right least least'), read _ (Nat.le_add_left least' least), ?_⟩
  intro passes
  have magic := passes.first sampleState
  have byte : Ext2Driver.smallImage.fileByte (Ext2Driver.smallImage.inode 6) 0 ≠ 0x7f := by
    decide +kernel
  exact byte ((same 0 (by decide)).symm.trans magic)

def execState : ExecState where
  table := ⟨fun t => ⟨true, .running, t, 0x400000, some 0, none⟩, fun _ => ⟨[0], 1, .inuse⟩,
    fun _ => some 0⟩
  load := sampleState
  fd := fun _ => ⟨false, []⟩
  ctx := .zero

/-- The kernel stops at exec of a text file, with the old process gone. -/
theorem exec_text_file : ∃ files : Files, files.fileExists [47, 104] = .ok true ∧
    (∀ elf, files.readFile [47, 104] = .ok (some elf) → ¬elf.Passes) ∧
    let site : ExecSite := ⟨sampleSite, sampleView, files, fun _ => 0⟩
    (∃ halt, site.execUserProcess 0 [47, 104] [] execState = .error halt) ∧
      ¬site.FailsCleanly 0 [47, 104] [] execState := by
  obtain ⟨files, elf, exists_, read, refused⟩ := smallImage_text
  refine ⟨files, exists_, ?_, ?_⟩
  · intro other same
    rw [read] at same
    obtain rfl := Option.some.inj (Except.ok.inj same)
    exact refused
  · intro site
    have halted : ∃ halt, site.execImage 0 [] elf execState = .error halt :=
      ExecSite.execImage_halts sampleSite_sound.placed refused execState
    rw [← ExecSite.execUserProcess_file rfl exists_ read []] at halted
    refine ⟨halted, ?_⟩
    obtain ⟨halt, halts⟩ := halted
    rintro ⟨s', clean, -⟩
    rw [halts] at clean
    cases clean

end SwagOS.Kernel
