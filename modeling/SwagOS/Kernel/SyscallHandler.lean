import SwagOS.Drivers.Terminal.Strays
import SwagOS.Kernel.Locking.Ways
import SwagOS.Kernel.Printing
import SwagOS.Kernel.SyscallArguments

/-!
# The system call handler

`syscall_handler` and what its handlers do to the copy of the user context, to `pml4t_phys` of
the thread and to the interrupt state of the CPU.  What they do besides is in the modules on
memory, descriptors, reading, printing and exec; here their results are used.

A handler that writes outside of its objects promises nothing.  Where it runs with interrupts,
and through the functions that take locks, the thread goes some way through their code.
-/

namespace SwagOS.Kernel

open SwagOS.Lib SwagOS.Mem SwagOS.Drivers SwagOS.Fs
open SyscallArguments (Caller fetchPath asInt room stringLength argsSize)

inductive SyscallNumber where
  | exit
  | sbrk
  | tprintf
  | open_
  | read
  | fork
  | exec
  | free
  | perror
  | getchar
  | waitpid
  | fstat
  | close
  | clear
  | tchangecolor
  | debugvalue
  /-- The `default` of the `switch`. -/
  | none
  deriving DecidableEq, Repr

namespace SyscallNumber

def of : Nat → SyscallNumber
  | 0 => .exit
  | 1 => .sbrk
  | 2 => .tprintf
  | 3 => .open_
  | 4 => .read
  | 6 => .fork
  | 7 => .exec
  | 8 => .free
  | 9 => .perror
  | 10 => .getchar
  | 11 => .waitpid
  | 12 => .fstat
  | 13 => .close
  | 15 => .clear
  | 0x1000 => .tchangecolor
  | 0x1111 => .debugvalue
  | _ => .none

/-- `do_eoi`: the others are to end the interrupt themselves. -/
def doEoi : SyscallNumber → Bool
  | .open_ | .read | .exec | .getchar | .waitpid | .fstat => false
  | _ => true

end SyscallNumber

namespace KernelCode

def openFile : KernelCode := .seq ext2FileExists (.seq (.choose ext2DirExists .skip) .skip)

def readFile : KernelCode :=
  .seq pathToFileSize
    (.seq (.choose .skip (.seq ext2ReadFile (.choose .skip (.seq (.many userCopy) kfree)))) .skip)

def waitForExit : KernelCode :=
  .any fun pid => critical (.pidWaitSpinlock pid) (.many (threadSleep (.pidWaitSpinlock pid)))

def statFile : KernelCode :=
  .seq ext2FileExists (.seq (.choose ext2DirExists .skip)
    (.seq (.choose .skip (.seq fillStatbuf (.choose userCopy .skip))) .skip))

theorem syshandlerOpen_openFile :
    syshandlerOpen = .seq userCopy (.choose .skip (.seq apicEndOfInterrupt openFile)) := rfl

theorem syshandlerRead_readFile :
    syshandlerRead = .choose .skip (.seq apicEndOfInterrupt readFile) := rfl

theorem syshandlerWaitpid_waitForExit :
    syshandlerWaitpid = .choose apicEndOfInterrupt waitForExit := rfl

theorem syshandlerFstat_statFile :
    syshandlerFstat = .choose .skip (.seq apicEndOfInterrupt statFile) := rfl

end KernelCode

def SyscallNumber.code : SyscallNumber → KernelCode
  | .sbrk => KernelCode.syshandlerSbrk
  | .tprintf => KernelCode.syshandlerTprintf
  | .open_ => KernelCode.openFile
  | .read => KernelCode.readFile
  | .fork => KernelCode.syshandlerFork
  | .exec => KernelCode.execUserProcess
  | .free => KernelCode.syshandlerFree
  | .perror => KernelCode.syshandlerPerror
  | .getchar => .many KernelCode.retrieveCharacterBuf
  | .waitpid => KernelCode.waitForExit
  | .fstat => KernelCode.statFile
  | .exit | .close | .clear | .tchangecolor | .debugvalue | .none => .skip

inductive Stray where
  /-- Behind `req_path`. -/
  | pathBuffer
  /-- `proc->fd[index]` is no descriptor. -/
  | descriptor (index : Int)
  /-- A path behind the descriptors. -/
  | descriptorPath
  /-- A page of the user table that is not for user code. -/
  | supervisor (va : Nat)
  /-- A digit outside of the buffer of a number. -/
  | numberBuffer

/-- What the handlers share: their copy of the user context, and what they change of the
thread and the CPU. -/
structure SyscallState where
  ctx : CpuContext
  pml4tPhys : Nat
  cpu : CPU

abbrev Handled := Checked Stray SyscallState

namespace SyscallState

variable (s : SyscallState)

def setRax (rax : Nat) : SyscallState := { s with ctx := { s.ctx with rax := rax } }

def apicEndOfInterrupt : SyscallState := { s with cpu := { s.cpu with noINT := false } }

def noINTEnable : SyscallState := { s with cpu := { s.cpu with noINT := true } }

def cli : SyscallState := { s with cpu := s.cpu.cli }

def sti : SyscallState := { s with cpu := s.cpu.sti }

/-- `inc_cli` and `dec_cli` of a copy from user memory, if there is one. -/
def copySection (copies : Bool) : Outcome SyscallState :=
  if copies then do
    let cpu ← s.cpu.incCli.decCli
    pure { s with cpu := cpu }
  else pure s

def syshandlerClose : Handled := do
  .check (0 ≤ asInt s.ctx.rsi ∧ asInt s.ctx.rsi < maxFileDesc) (.descriptor (asInt s.ctx.rsi))
  pure (s.setRax 0)

end SyscallState

/-- A thread of a process at a system call, and what its handler finds. -/
structure SyscallSite where
  layout : Layout
  system : System
  thread : Nat
  proc : Nat
  owner : (system.table.threads thread).ownerProc = some proc
  kernel : KernelTables
  memory : Paging.Tables
  /-- The contents of the memory, and what else `printf` reads. -/
  contents : PrintState
  errno : Error
  terminal : Terminal
  fd : Nat → FileDescriptor
  files : Files
  execSite : ExecSite
  /-- `KERNEL_PML4T_PHYS(global_Settings.pml4t_kernel)` -/
  kernelPml4t : Nat
  /-- The context of the user, and the CPU. -/
  context : CpuContext
  cpu : CPU
  /-- The stack behind `req_path`, and where `execargs` is. -/
  stack : Bytes
  /-- Whether the kernel has mapped byte `k` behind the buffer of the file. -/
  readable : Nat → Bool
  /-- What `fill_statbuf` returns, which ends without `return`. -/
  garbage : Int
  /-- The character that `getchar` gets. -/
  character : BitVec 8
  way : Way (SyscallNumber.of context.rdi).code

namespace SyscallSite

variable (site : SyscallSite)

def number : SyscallNumber := .of site.context.rdi

def base : Nat := site.layout.pgdirPhys site.proc

def pgdir : ThreadPagetables := (site.system.memory site.proc).pgdir

def view : View := userView site.kernel site.memory

def space : Space := site.system.space site.proc

def caller : Caller := ⟨site.base, site.view, site.pgdir, site.contents.ram⟩

def console : Console :=
  ⟨site.base, site.kernel, site.memory, site.pgdir, site.errno, site.terminal, site.contents⟩

def entry : SyscallState := ⟨site.context, site.base, site.cpu⟩

def copies (addr size : Nat) : Bool := site.pgdir.fetchStruct site.base site.view addr size

def walk (va : Nat) : Option Paging.Translation :=
  Paging.walk (processTables site.base site.kernel site.memory site.pgdir) (va % 2 ^ 64) site.base

section Handlers

def go (s : SyscallState) : Handled := do
  let cpu ← .lift (s.cpu.follow site.way.events)
  pure { s with cpu := cpu }

/-- A byte is written to user memory; supervisor protection is off. -/
def writeByte (va : Nat) : Checked Stray Unit :=
  match site.walk va with
  | none => throw (.halt (.panic "Page Fault Interrupt"))
  | some t => .check (t.user = true) (.supervisor va)

def writeUser (addr size : Nat) : Checked Stray Unit :=
  forM (List.range size) fun k => site.writeByte (addr + k)

def syshandlerSbrk (s : SyscallState) : Handled := do
  let (rax, _) ← .lift (site.space.syshandlerSbrk site.base s.ctx.rsi)
  let s ← site.go s
  pure (s.setRax (rax.getD uint64Max))

def syshandlerFree (s : SyscallState) : Handled := do
  let _ ← .lift (site.space.freeHeapAllocEntry site.layout s.ctx.rsi)
  site.go s

/-- `ForkUserProcess`: the process that is made, if there is one. -/
def forkUserProcess (iRip : Nat) : Outcome (Option Nat) := do
  let _ ← site.system.forkUserProcess site.layout site.view site.thread iRip
  match site.system.table.findFreeProcess, site.system.table.findFreeThread with
  | some p, some _ => pure (some p)
  | _, _ => pure none

def syshandlerFork (s : SyscallState) : Handled := do
  let childPid ← .lift (site.forkUserProcess s.ctx.iRip)
  let s ← site.go s
  pure (s.setRax (childPid.getD uint64Max))

def printed (output : Output UInt8) (s : SyscallState) : Handled := do
  .check (output.strayed = false) .numberBuffer
  match output.ended with
  | some why => throw (.halt why)
  | none => site.go s

def syshandlerTprintf (s : SyscallState) : Handled := do
  let (output, ctx) := site.console.syshandlerTprintf s.ctx
  site.printed output { s with ctx := ctx }

def syshandlerPerror (s : SyscallState) : Handled :=
  site.printed (site.console.syshandlerPerror s.ctx) s

def pathString (path : Bytes) : Outcome (List UInt8) := do
  let n ← stringLength site.files.fuel path
  pure ((List.range n).map path)

def openPath (path : List UInt8) (s : SyscallState) : Handled :=
  match openLoop site.fd path (List.range maxFileDesc) uint32Max with
  | .inl i => pure (s.setRax i)
  | .inr minFd => do
      let s ← site.go s.apicEndOfInterrupt
      if ← .lift (site.files.exist path) then do
        .check (minFd < maxFileDesc) (.descriptor minFd)
        .check (path.length ≤ room minFd) .descriptorPath
        pure (s.setRax minFd)
      else pure (s.setRax uint64Max)

def syshandlerOpen (s : SyscallState) : Handled := do
  let path ← (fetchPath site.caller site.stack s.ctx.rsi s.ctx.rdx).mapViolation fun _ => .pathBuffer
  let s ← .lift (s.copySection (site.copies s.ctx.rsi (s.ctx.rdx % 2 ^ 32)))
  let path ← .lift (site.pathString path)
  site.openPath path s

/-- The loop of `SYSHANDLER_read`, with the bytes of the buffer that it reads. -/
def copyOut (writeDst toRead numRead : Nat) : Checked Stray Bool :=
  if _more : numRead < toRead then
    let size := rwSize toRead numRead
    if (List.range size).all fun k => site.readable (numRead + k) then
      if site.copies ((writeDst + numRead) % 2 ^ 64) size then do
        site.writeUser (writeDst + numRead) size
        copyOut writeDst toRead (numRead + size)
      else pure false
    else throw (.halt (.panic "Page Fault Interrupt"))
  else pure true
termination_by toRead - numRead
decreasing_by
  simp only [rwSize]
  split <;> omega

/-- `SYSHANDLER_read` once it has the size of the file. -/
def readContents (fileSize : Nat) (s : SyscallState) : Handled := do
  let fd := site.fd s.ctx.rsi
  let ctx := { s.ctx with rcx := clampCount fileSize s.ctx.rcx s.ctx.r8 }
  let s := { s with ctx := ctx }
  match ← .lift (site.files.fs.ext2ReadFile site.files.mem site.files.fuel fd.path) with
  | none => pure (s.setRax uint64Max)
  | some _ =>
      if ← site.copyOut s.ctx.rdx s.ctx.rcx 0 then pure (s.setRax 0)
      else pure (s.setRax uint64Max)

def syshandlerRead (s : SyscallState) : Handled :=
  let fd := site.fd s.ctx.rsi
  if fd.inUse = false then pure (s.setRax uint64Max)
  else do
    let s ← site.go s.apicEndOfInterrupt
    let fileSize ← .lift (site.files.fs.pathToFileSize site.files.mem site.files.fuel fd.path)
    if fileSize = uint64Max then pure (s.setRax uint64Max) else site.readContents fileSize s

def syshandlerExec (s : SyscallState) : Handled := do
  match ← .lift (site.caller.fetchString s.ctx.rsi maxPath) with
  | none => pure (s.setRax uint64Max)
  | some path => do
      let s ← .lift (s.copySection true)
      let args ← (site.caller.fetchStruct (fun _ => pure ()) site.stack s.ctx.rdx argsSize).mapViolation
        fun _ => .pathBuffer
      let s ← .lift (s.copySection (site.copies s.ctx.rdx argsSize))
      let s ← site.go s.apicEndOfInterrupt
      let state : ExecState :=
        ⟨site.system.table, ⟨site.system.frames, site.system.memory site.proc, site.memory,
          site.contents.ram, []⟩, site.fd, s.ctx⟩
      let (ret, state) ← .lift (site.execSite.execUserProcess site.thread path
        ((List.range argsSize).map args) state)
      let s := { s with ctx := state.ctx }
      pure (s.setRax (BitVec.ofInt 64 ret).toNat)

def syshandlerGetchar (s : SyscallState) : Handled := do
  let s ← site.go s.apicEndOfInterrupt.sti
  pure (s.setRax (site.character.signExtend 64).toNat)

def syshandlerWaitpid (s : SyscallState) : Handled :=
  let pid := asInt s.ctx.rsi
  if pid ≥ maxNumProc ∨ pid < 0 then pure s.apicEndOfInterrupt else site.go s

/-- `sizeof(stat)` -/
def statSize : Nat := 96

def writeStat (path : List UInt8) (s : SyscallState) : Handled := do
  match ← .lift (site.files.fs.findFileInode site.files.mem site.files.fuel path) with
  | none => pure (s.setRax uint64Max)
  | some _ =>
      if site.garbage = -1 then pure (s.setRax uint64Max)
      else if site.copies s.ctx.rdx statSize then do
        site.writeUser s.ctx.rdx statSize
        pure (s.setRax 0)
      else pure (s.setRax uint64Max)

def syshandlerFstat (s : SyscallState) : Handled :=
  let fd := site.fd s.ctx.rsi
  if fd.inUse = false then pure (s.setRax uint64Max)
  else do
    let s ← site.go s.apicEndOfInterrupt
    if ← .lift (site.files.exist fd.path) then site.writeStat fd.path s
    else pure (s.setRax uint64Max)

/-- The `switch`.  `SYSHANDLER_exit` ends in a loop. -/
def handle (s : SyscallState) : SyscallNumber → Handled
  | .exit => throw (.halt .hang)
  | .sbrk => site.syshandlerSbrk s
  | .tprintf => site.syshandlerTprintf s
  | .open_ => site.syshandlerOpen s
  | .read => site.syshandlerRead s
  | .fork => site.syshandlerFork s
  | .exec => site.syshandlerExec s
  | .free => site.syshandlerFree s
  | .perror => site.syshandlerPerror s
  | .getchar => site.syshandlerGetchar s
  | .waitpid => site.syshandlerWaitpid s
  | .fstat => site.syshandlerFstat s
  | .close => s.syshandlerClose
  | .clear | .tchangecolor | .debugvalue | .none => pure s

/-- The interrupt gate clears the flag; the context of the user is the copy at the end. -/
def syscallHandler : Handled := do
  let userPt := site.entry.pml4tPhys
  let s := { site.entry.cli with pml4tPhys := site.kernelPml4t }
  let s ← site.handle s.noINTEnable site.number
  let s := { s with pml4tPhys := userPt }
  let s := if site.number.doEoi then s.apicEndOfInterrupt else s
  pure s.cli

end Handlers

end SyscallSite

end SwagOS.Kernel
