import SwagOS.Kernel.Locking.Blocks

/-!
# The locks of the kernel's functions

The functions that take a spinlock, sleep, copy from or to user memory or change the interrupt
flag, and those that call them.  Of each the model has these operations, in the order of the
source and with all its branches and loops; conditions and data are left open.  `kalloc` is
assumed not to fail.  A panic is a CPU that takes no more steps.
-/

namespace SwagOS.Kernel

open SwagOS.Lib Code

inductive KernelLock where
  | ideLock
  /-- `proc_table.lock` -/
  | procTable
  /-- `manager_4kb.spm_lock` -/
  | spmLock
  | kernelHeapLock
  /-- `PMM.lock` -/
  | pmmLock
  | bcacheLock
  | terminalLock
  | charBufSpinlock
  /-- The spinlock in the sleeplock of a buffer. -/
  | sleeplock (buffer : Nat)
  | pidWaitSpinlock (pid : Nat)
  deriving DecidableEq

namespace KernelLock

def rank : KernelLock → Fin 4
  | .ideLock | .bcacheLock | .charBufSpinlock | .sleeplock _ | .pidWaitSpinlock _ => 0
  | .procTable => 1
  | .spmLock => 2
  | .kernelHeapLock | .pmmLock | .terminalLock => 3

end KernelLock

abbrev KernelCode := Code (KernelOp KernelLock)

namespace KernelCode

section Memory

def kalloc : KernelCode := critical .kernelHeapLock .skip

/-- The two returns that keep the lock are for addresses outside of the heap: on a block of the
heap `kfree` gives the lock back (`kfree_of_inUse`). -/
def kfree : KernelCode := critical .kernelHeapLock .skip

def physicalFrameRequest : KernelCode := critical .pmmLock .skip

def checkAvailableChunkedFrame : KernelCode := critical .spmLock .skip

def tryFreeChunkedFrame : KernelCode := critical .spmLock (.choose kfree .skip)

def createNewChunkedFrame : KernelCode := .seq kalloc (critical .spmLock .skip)

def physicalFrameRequest4kb : KernelCode :=
  .seq checkAvailableChunkedFrame
    (.choose .skip (.seq physicalFrameRequest (.choose .skip createNewChunkedFrame)))

/-- `map_4kb_page_user` allocates the entry of `used_pages`. -/
def map4kbPageUser : KernelCode := kalloc

end Memory

section Sleep

def wakeup : KernelCode := critical .procTable .skip

def acquireSleeplock (buffer : Nat) : KernelCode :=
  critical (.sleeplock buffer) (.many (threadSleep (.sleeplock buffer)))

def releaseSleeplock (buffer : Nat) : KernelCode :=
  .seq (critical (.sleeplock buffer) .skip) wakeup

def holdingsleep (buffer : Nat) : KernelCode := critical (.sleeplock buffer) .skip

def initSleeplock (buffer : Nat) : KernelCode := .op (.initSpinlock (.sleeplock buffer))

end Sleep

section Disk

def ideintr : KernelCode := critical .ideLock (.choose .skip (.seq wakeup kfree))

def iderw (buffer : Nat) : KernelCode :=
  block [holdingsleep buffer, kalloc, critical .ideLock (.many (threadSleep .ideLock))]

/-- Both loops of `bget` end with a buffer, or go on to the panic. -/
def bget (buffer : Nat) : KernelCode :=
  .seq (critical .bcacheLock .skip) (acquireSleeplock buffer)

def bread (buffer : Nat) : KernelCode := .seq (bget buffer) (.choose (iderw buffer) .skip)

def bwrite (buffer : Nat) : KernelCode := .seq (holdingsleep buffer) (iderw buffer)

def brelse (buffer : Nat) : KernelCode :=
  block [holdingsleep buffer, releaseSleeplock buffer, critical .bcacheLock .skip]

end Disk

section Files

def readDiskSector : KernelCode := .any fun buffer => .seq (bread buffer) (brelse buffer)

def ext2ReadBlock : KernelCode := .many readDiskSector

def ext2ReadInode : KernelCode := readDiskSector

def ext2ReadFromDirectory : KernelCode :=
  .many (block [kalloc, .choose ext2ReadInode .skip, kfree])

def ext2ReadFromRootDirectory : KernelCode :=
  .seq kalloc (.many (.seq ext2ReadBlock ext2ReadFromDirectory))

def ext2FindFileInode : KernelCode :=
  .choose .skip
    (block [kalloc, ext2ReadFromRootDirectory,
      oneOf [
        -- in the root directory
        .seq kfree ext2ReadInode,
        -- in another one, or not found there
        block [kalloc,
          .many (.seq ext2ReadInode (.many (.seq ext2ReadBlock ext2ReadFromDirectory))),
          .choose kfree (block [ext2ReadInode, kfree, kfree])]]])

def ext2FileExists : KernelCode := ext2FindFileInode

def ext2DirExists : KernelCode := .choose .skip ext2FindFileInode

def pathToFileSize : KernelCode :=
  .seq ext2FileExists (.choose ext2FindFileInode ext2DirExists)

def ext2ReadSingleIndirect : KernelCode :=
  block [kalloc, ext2ReadBlock, kalloc, .many ext2ReadBlock, kfree]

def ext2ReadDoubleIndirect : KernelCode :=
  block [kalloc, ext2ReadBlock, kalloc, kalloc, .many ext2ReadSingleIndirect, kalloc, kfree,
    kfree]

def ext2ReadDir : KernelCode :=
  .seq ext2DirExists
    (.choose .skip (block [ext2FindFileInode, kalloc, .many ext2ReadBlock]))

def ext2ReadFile : KernelCode :=
  .seq ext2FindFileInode
    (oneOf [ext2ReadDir,
      block [kalloc, .many ext2ReadBlock, .choose .skip (.seq ext2ReadSingleIndirect kfree),
        .choose .skip (.seq ext2ReadDoubleIndirect kfree)]])

def fillStatbuf : KernelCode := ext2FindFileInode

def ext2DriverInit : KernelCode :=
  block [.any bread, .any bread, kalloc, .any brelse, .any brelse, kalloc, .many ext2ReadBlock,
    ext2ReadInode, kalloc, .many (.seq ext2ReadBlock ext2ReadFromDirectory), ext2FindFileInode]

end Files

section Processes

def processFreeThreads : KernelCode := .many kfree

def procFreeUserPages : KernelCode := .many (.seq tryFreeChunkedFrame kfree)

def procFreeHeapAllocations : KernelCode := .many kfree

def processFree : KernelCode :=
  block [processFreeThreads, procFreeUserPages, procFreeHeapAllocations]

def initPidWait : KernelCode := .any fun pid => .op (.initSpinlock (.pidWaitSpinlock pid))

def userEntry : Nat := 0

def idleEntry : Nat := 1

def kernelThreadEntry : Nat := 2

def newContext (entry : Nat) : KernelCode := .any fun thread => .op (.createThread thread entry)

def createUserProcessStack : KernelCode := .many (.seq physicalFrameRequest4kb map4kbPageUser)

def elfLoadSegments : KernelCode := .many (.seq physicalFrameRequest4kb map4kbPageUser)

def createPageTableFromCopy : KernelCode :=
  .many (block [physicalFrameRequest4kb, userCopy, map4kbPageUser, userCopy])

def forkUserProcess : KernelCode :=
  critical .procTable
    (.choose .skip (block [kalloc, newContext userEntry, createPageTableFromCopy, initPidWait]))

def execUserProcess : KernelCode :=
  .choose .skip (.seq ext2FileExists (.choose .skip (.seq ext2ReadFile (.choose .skip
    (critical .procTable
      (block [processFree, kalloc, initPidWait, createUserProcessStack, elfLoadSegments,
        .many userCopy, userCopy, kfree]))))))

def createUserProcess : KernelCode :=
  critical .procTable
    (.choose .skip
      (block [initPidWait, kalloc, elfLoadSegments, createUserProcessStack,
        newContext userEntry, kfree]))

def createKernelThread : KernelCode :=
  critical .procTable (.seq kalloc (newContext kernelThreadEntry))

def createIdleThread : KernelCode := .seq kalloc (newContext idleEntry)

def exitThread : KernelCode := block [critical .procTable .skip, .op .sti, .forever]

def freeUserHeapBits : KernelCode := .many (.choose (.seq tryFreeChunkedFrame kfree) .skip)

def freeHeapAllocEntry : KernelCode := .choose (.seq freeUserHeapBits kfree) .skip

end Processes

section Devices

def printf : KernelCode := critical .terminalLock .skip

def retrieveCharacterBuf : KernelCode :=
  critical .charBufSpinlock (.many (threadSleep .charBufSpinlock))

def keyboardIrqHandler : KernelCode := .choose wakeup .skip

end Devices

section SystemCalls

def syshandlerExit : KernelCode :=
  block [critical .procTable (.seq (.choose processFree .skip) (.op .noINTDisable)),
    apicEndOfInterrupt, .op .sti, .forever]

def syshandlerSbrk : KernelCode :=
  .choose .skip (.seq kalloc (.many (.seq physicalFrameRequest4kb (.choose map4kbPageUser .skip))))

def syshandlerFree : KernelCode := freeHeapAllocEntry

def syshandlerTprintf : KernelCode := .choose .skip (.seq userCopy printf)

def syshandlerOpen : KernelCode :=
  .seq userCopy
    (.choose .skip (block [apicEndOfInterrupt, ext2FileExists, .choose ext2DirExists .skip]))

def syshandlerRead : KernelCode :=
  .choose .skip
    (block [apicEndOfInterrupt, pathToFileSize,
      .choose .skip (.seq ext2ReadFile (.choose .skip (.seq (.many userCopy) kfree)))])

def syshandlerFork : KernelCode := forkUserProcess

def syshandlerExec : KernelCode :=
  .seq userCopy
    (.choose .skip (block [userCopy, apicEndOfInterrupt, execUserProcess]))

def syshandlerPerror : KernelCode := .seq (.choose (.seq userCopy printf) .skip) printf

def syshandlerGetchar : KernelCode :=
  block [apicEndOfInterrupt, .op .sti, .many retrieveCharacterBuf]

def syshandlerWaitpid : KernelCode :=
  .choose apicEndOfInterrupt
    (.any fun pid => critical (.pidWaitSpinlock pid) (.many (threadSleep (.pidWaitSpinlock pid))))

def syshandlerFstat : KernelCode :=
  .choose .skip
    (block [apicEndOfInterrupt, ext2FileExists, .choose ext2DirExists .skip,
      .choose .skip (.seq fillStatbuf (.choose userCopy .skip))])

/-- The system calls left out take no lock: `close`, `clear`, the colour and the debug value. -/
def syscallHandler : KernelCode :=
  block [saveThreadContext, .op .noINTEnable,
    .choose
      (.seq (oneOf [syshandlerExit, syshandlerSbrk, syshandlerTprintf, syshandlerFork,
        syshandlerFree, syshandlerPerror]) apicEndOfInterrupt)
      (oneOf [syshandlerOpen, syshandlerRead, syshandlerExec, syshandlerGetchar,
        syshandlerWaitpid, syshandlerFstat]),
    .op .cli]

end SystemCalls

section Interrupts

/-- The switch of `isr_handler`.  The faults and unexpected interrupts panic. -/
def isrHandler (vector : Nat) : KernelCode :=
  if vector = 3 then .seq (invokeScheduler .procTable) apicEndOfInterrupt
  else if vector = 32 then invokeScheduler .procTable
  else if vector = 33 then .seq keyboardIrqHandler apicEndOfInterrupt
  else if vector = 34 then apicEndOfInterrupt
  else if vector = 46 then .seq ideintr apicEndOfInterrupt
  else if vector = 255 then .skip
  else .forever

def stub (vector : Nat) : KernelCode :=
  .seq (.op .cli)
    (if vector = 0x80 then syscallHandler else .seq (.op .noINTEnable) (isrHandler vector))

end Interrupts

section Threads

/-- User code may execute `int` at any place; which gates let it is left open. -/
def userThread : KernelCode := .many (.any fun vector => .op (.int vector))

def idleThread : KernelCode := .forever

/-- The code of a kernel thread is its caller's: here any of the functions that need no
system call. -/
def kernelThread : KernelCode :=
  .seq (.many (oneOf [kalloc, kfree, physicalFrameRequest4kb, ext2ReadFile, createUserProcess,
    createKernelThread, printf, .any bwrite])) exitThread

def thread (entry : Nat) : KernelCode :=
  if entry = userEntry then userThread
  else if entry = idleEntry then idleThread
  else kernelThread

/-- `kernel_main` from its `cli` on: it initialises locks on the way. -/
def kernelMain : KernelCode :=
  block [.op .cli, .op .sti,
    -- kheap_init
    .many physicalFrameRequest, .many (.op (.initSpinlock .kernelHeapLock)),
    -- init_terminal, keyboard_driver_init
    .op (.initSpinlock .terminalLock), kalloc, .op (.initSpinlock .charBufSpinlock),
    createIdleThread,
    -- smp_start, ideinit, binit
    .many kalloc, .op (.initSpinlock .ideLock), .many (.any initSleeplock),
    ext2DriverInit, ext2ReadFile, .choose createUserProcess .skip, exitThread]

def initSmp : KernelCode := .seq (.op .sti) .forever

end Threads

end KernelCode

end SwagOS.Kernel
