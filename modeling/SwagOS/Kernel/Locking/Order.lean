import Mathlib.Data.Fintype.Card
import Mathlib.Data.Fintype.EquivFin
import Mathlib.Order.Fin.Basic
import SwagOS.Kernel.Locking.Balance
import SwagOS.Kernel.Locking.Functions

/-!
# The order of the locks

Every function of the kernel takes its locks in the order of their ranks.  A lemma for each
says below which rank the locks of its callers have to be; the ones that sleep are called with
no lock at all.
-/

namespace SwagOS.Kernel

open SwagOS.Lib Code

def ranked : LockRules KernelLock where
  mayAcquire e lock := ∀ held ∈ e.held, held.rank < lock.rank
  mayInit := True

namespace Section

def Under (e : Section KernelLock) (rank : Fin 4) : Prop := ∀ held ∈ e.held, held.rank < rank

variable {e : Section KernelLock} {rank higher : Fin 4} {lock : KernelLock}

theorem Under.mono (under : e.Under rank) (le : rank ≤ higher) : e.Under higher := by
  intro held member
  exact lt_of_lt_of_le (under held member) le

theorem Under.acquire (under : e.Under rank) (lower : lock.rank < rank) :
    (e.next (.acquireSpinlock lock)).Under rank := by
  intro held member
  rcases Finset.mem_insert.mp member with rfl | earlier
  · exact lower
  · exact under held earlier

theorem under_outside : (outside : Section KernelLock).Under rank := by
  intro held member
  cases member

end Section

namespace KernelCode

abbrev Ordered (code : KernelCode) (e : Section KernelLock) : Prop :=
  Keeps (sections ranked) code e

variable {e : Section KernelLock} {lock : KernelLock} {body : KernelCode}

theorem critical_ordered (under : e.Under lock.rank)
    (ordered : Ordered body (e.next (.acquireSpinlock lock))) : Ordered (critical lock body) e :=
  critical_keeps (fun member => lt_irrefl _ (under lock member)) under ordered

theorem critical_skip_ordered (under : e.Under lock.rank) : Ordered (critical lock .skip) e :=
  critical_ordered under .skip

/-- The loop of a thread that sleeps on a lock, called with no other lock. -/
theorem sleeping_ordered :
    Ordered (critical lock (.many (threadSleep lock))) .outside :=
  critical_ordered Section.under_outside (.many (threadSleep_keeps Section.under_outside))

section Memory

theorem kalloc_ordered (under : e.Under 3) : Ordered kalloc e := critical_skip_ordered under

theorem kfree_ordered (under : e.Under 3) : Ordered kfree e := critical_skip_ordered under

theorem checkAvailableChunkedFrame_ordered (under : e.Under 2) :
    Ordered checkAvailableChunkedFrame e :=
  critical_skip_ordered under

theorem tryFreeChunkedFrame_ordered (under : e.Under 2) : Ordered tryFreeChunkedFrame e :=
  critical_ordered under
    (.choose (kfree_ordered ((under.mono (by decide)).acquire (by decide))) .skip)

theorem createNewChunkedFrame_ordered (under : e.Under 2) : Ordered createNewChunkedFrame e :=
  .seq (kalloc_ordered (under.mono (by decide))) (critical_skip_ordered under)

theorem physicalFrameRequest_ordered (under : e.Under 3) : Ordered physicalFrameRequest e :=
  critical_skip_ordered under

theorem physicalFrameRequest4kb_ordered (under : e.Under 2) :
    Ordered physicalFrameRequest4kb e := by
  refine .seq (checkAvailableChunkedFrame_ordered under) (.choose .skip ?_)
  exact .seq (physicalFrameRequest_ordered (under.mono (by decide)))
    (.choose .skip (createNewChunkedFrame_ordered under))

theorem map4kbPageUser_ordered (under : e.Under 3) : Ordered map4kbPageUser e :=
  kalloc_ordered under

end Memory

section Sleep

theorem wakeup_ordered (under : e.Under 1) : Ordered wakeup e := critical_skip_ordered under

theorem acquireSleeplock_ordered (buffer : Nat) : Ordered (acquireSleeplock buffer) .outside :=
  sleeping_ordered

theorem releaseSleeplock_ordered (buffer : Nat) : Ordered (releaseSleeplock buffer) .outside :=
  .seq (critical_skip_ordered Section.under_outside) (wakeup_ordered Section.under_outside)

theorem holdingsleep_ordered (buffer : Nat) : Ordered (holdingsleep buffer) .outside :=
  critical_skip_ordered Section.under_outside

end Sleep

section Disk

/-- The interrupt of the disk takes the process table and the heap under the lock of the
queue. -/
theorem ideintr_ordered : Ordered ideintr .outside := by
  refine critical_ordered Section.under_outside (.choose .skip (.seq ?_ ?_))
  · exact wakeup_ordered (Section.under_outside.acquire (by decide))
  · exact kfree_ordered (Section.under_outside.acquire (by decide))

theorem iderw_ordered (buffer : Nat) : Ordered (iderw buffer) .outside :=
  .seq (holdingsleep_ordered buffer)
    (.seq (kalloc_ordered Section.under_outside) (.seq sleeping_ordered .skip))

theorem bget_ordered (buffer : Nat) : Ordered (bget buffer) .outside :=
  .seq (critical_skip_ordered Section.under_outside) (acquireSleeplock_ordered buffer)

theorem bread_ordered (buffer : Nat) : Ordered (bread buffer) .outside :=
  .seq (bget_ordered buffer) (.choose (iderw_ordered buffer) .skip)

theorem bwrite_ordered (buffer : Nat) : Ordered (bwrite buffer) .outside :=
  .seq (holdingsleep_ordered buffer) (iderw_ordered buffer)

theorem brelse_ordered (buffer : Nat) : Ordered (brelse buffer) .outside :=
  .seq (holdingsleep_ordered buffer) (.seq (releaseSleeplock_ordered buffer)
    (.seq (critical_skip_ordered Section.under_outside) .skip))

end Disk

section Files

theorem alloc_ordered : Ordered kalloc .outside := kalloc_ordered Section.under_outside

theorem free_ordered : Ordered kfree .outside := kfree_ordered Section.under_outside

theorem readDiskSector_ordered : Ordered readDiskSector .outside :=
  .any fun buffer => .seq (bread_ordered buffer) (brelse_ordered buffer)

theorem ext2ReadBlock_ordered : Ordered ext2ReadBlock .outside := .many readDiskSector_ordered

theorem ext2ReadInode_ordered : Ordered ext2ReadInode .outside := readDiskSector_ordered

theorem ext2ReadFromDirectory_ordered : Ordered ext2ReadFromDirectory .outside :=
  .many (.seq alloc_ordered
    (.seq (.choose ext2ReadInode_ordered .skip) (.seq free_ordered .skip)))

theorem directoryBlocks_ordered :
    Ordered (.many (.seq ext2ReadBlock ext2ReadFromDirectory)) .outside :=
  .many (.seq ext2ReadBlock_ordered ext2ReadFromDirectory_ordered)

theorem ext2ReadFromRootDirectory_ordered : Ordered ext2ReadFromRootDirectory .outside :=
  .seq alloc_ordered directoryBlocks_ordered

theorem ext2FindFileInode_ordered : Ordered ext2FindFileInode .outside := by
  refine .choose .skip (.seq alloc_ordered (.seq ext2ReadFromRootDirectory_ordered
    (.seq (.choose ?_ (.choose ?_ .skip)) .skip)))
  · exact .seq free_ordered ext2ReadInode_ordered
  · refine .seq alloc_ordered (.seq (.many (.seq ext2ReadInode_ordered directoryBlocks_ordered))
      (.seq (.choose free_ordered ?_) .skip))
    exact .seq ext2ReadInode_ordered (.seq free_ordered (.seq free_ordered .skip))

theorem ext2FileExists_ordered : Ordered ext2FileExists .outside := ext2FindFileInode_ordered

theorem ext2DirExists_ordered : Ordered ext2DirExists .outside :=
  .choose .skip ext2FindFileInode_ordered

theorem pathToFileSize_ordered : Ordered pathToFileSize .outside :=
  .seq ext2FileExists_ordered (.choose ext2FindFileInode_ordered ext2DirExists_ordered)

theorem ext2ReadSingleIndirect_ordered : Ordered ext2ReadSingleIndirect .outside :=
  .seq alloc_ordered (.seq ext2ReadBlock_ordered (.seq alloc_ordered
    (.seq (.many ext2ReadBlock_ordered) (.seq free_ordered .skip))))

theorem ext2ReadDoubleIndirect_ordered : Ordered ext2ReadDoubleIndirect .outside :=
  .seq alloc_ordered (.seq ext2ReadBlock_ordered (.seq alloc_ordered (.seq alloc_ordered
    (.seq (.many ext2ReadSingleIndirect_ordered) (.seq alloc_ordered
      (.seq free_ordered (.seq free_ordered .skip)))))))

theorem ext2ReadDir_ordered : Ordered ext2ReadDir .outside :=
  .seq ext2DirExists_ordered (.choose .skip (.seq ext2FindFileInode_ordered
    (.seq alloc_ordered (.seq (.many ext2ReadBlock_ordered) .skip))))

theorem ext2ReadFile_ordered : Ordered ext2ReadFile .outside := by
  refine .seq ext2FindFileInode_ordered (.choose ext2ReadDir_ordered (.choose ?_ .skip))
  refine .seq alloc_ordered (.seq (.many ext2ReadBlock_ordered) (.seq ?_ (.seq ?_ .skip)))
  · exact .choose .skip (.seq ext2ReadSingleIndirect_ordered free_ordered)
  · exact .choose .skip (.seq ext2ReadDoubleIndirect_ordered free_ordered)

theorem ext2DriverInit_ordered : Ordered ext2DriverInit .outside :=
  .seq (.any bread_ordered) (.seq (.any bread_ordered) (.seq alloc_ordered
    (.seq (.any brelse_ordered) (.seq (.any brelse_ordered) (.seq alloc_ordered
      (.seq (.many ext2ReadBlock_ordered) (.seq ext2ReadInode_ordered (.seq alloc_ordered
        (.seq directoryBlocks_ordered (.seq ext2FindFileInode_ordered .skip))))))))))

end Files

section Processes

theorem procFreeUserPages_ordered (under : e.Under 2) : Ordered procFreeUserPages e :=
  .many (.seq (tryFreeChunkedFrame_ordered under) (kfree_ordered (under.mono (by decide))))

theorem processFree_ordered (under : e.Under 2) : Ordered processFree e := by
  have free : Ordered kfree e := kfree_ordered (under.mono (by decide))
  exact .seq (.many free) (.seq (procFreeUserPages_ordered under) (.seq (.many free) .skip))

theorem initPidWait_ordered : Ordered initPidWait e := .any fun _ => .op ⟨trivial, trivial⟩ rfl

theorem newContext_ordered (entry : Nat) : Ordered (newContext entry) e :=
  .any fun _ => .op ⟨trivial, trivial⟩ rfl

theorem frames_ordered (under : e.Under 2) :
    Ordered (.many (.seq physicalFrameRequest4kb map4kbPageUser)) e :=
  .many (.seq (physicalFrameRequest4kb_ordered under)
    (map4kbPageUser_ordered (under.mono (by decide))))

theorem createPageTableFromCopy_ordered (under : e.Under 2) :
    Ordered createPageTableFromCopy e :=
  .many (.seq (physicalFrameRequest4kb_ordered under) (.seq userCopy_keeps
    (.seq (map4kbPageUser_ordered (under.mono (by decide))) (.seq userCopy_keeps .skip))))

theorem under_procTable :
    ((Section.outside : Section KernelLock).next (.acquireSpinlock .procTable)).Under 2 :=
  Section.under_outside.acquire (by decide)

theorem forkUserProcess_ordered : Ordered forkUserProcess .outside := by
  refine critical_ordered Section.under_outside (.choose .skip ?_)
  have alloc := kalloc_ordered (under_procTable.mono (by decide))
  exact .seq alloc (.seq (newContext_ordered userEntry)
    (.seq (createPageTableFromCopy_ordered under_procTable) (.seq initPidWait_ordered .skip)))

theorem execUserProcess_ordered : Ordered execUserProcess .outside := by
  refine .choose .skip (.seq ext2FileExists_ordered (.choose .skip
    (.seq ext2ReadFile_ordered (.choose .skip (critical_ordered Section.under_outside ?_)))))
  have alloc := kalloc_ordered (under_procTable.mono (by decide))
  have free := kfree_ordered (under_procTable.mono (by decide))
  exact .seq (processFree_ordered under_procTable) (.seq alloc (.seq initPidWait_ordered
    (.seq (frames_ordered under_procTable) (.seq (frames_ordered under_procTable)
      (.seq (.many userCopy_keeps) (.seq userCopy_keeps (.seq free .skip)))))))

theorem createUserProcess_ordered : Ordered createUserProcess .outside := by
  refine critical_ordered Section.under_outside (.choose .skip ?_)
  have alloc := kalloc_ordered (under_procTable.mono (by decide))
  have free := kfree_ordered (under_procTable.mono (by decide))
  exact .seq initPidWait_ordered (.seq alloc (.seq (frames_ordered under_procTable)
    (.seq (frames_ordered under_procTable) (.seq (newContext_ordered userEntry)
      (.seq free .skip)))))

theorem createKernelThread_ordered : Ordered createKernelThread .outside :=
  critical_ordered Section.under_outside
    (.seq (kalloc_ordered (under_procTable.mono (by decide)))
      (newContext_ordered kernelThreadEntry))

theorem createIdleThread_ordered : Ordered createIdleThread .outside :=
  .seq alloc_ordered (newContext_ordered idleEntry)

theorem forever_ordered : Ordered .forever e := trivial

theorem sti_ordered : Ordered (.op .sti) .outside := .op ⟨rfl, trivial⟩ rfl

theorem exitThread_ordered : Ordered exitThread .outside :=
  .seq (critical_skip_ordered Section.under_outside)
    (.seq sti_ordered (.seq forever_ordered .skip))

theorem freeHeapAllocEntry_ordered : Ordered freeHeapAllocEntry .outside := by
  refine .choose (.seq (.many (.choose (.seq ?_ free_ordered) .skip)) free_ordered) .skip
  exact tryFreeChunkedFrame_ordered Section.under_outside

end Processes

section Devices

theorem printf_ordered : Ordered printf .outside := critical_skip_ordered Section.under_outside

theorem retrieveCharacterBuf_ordered : Ordered retrieveCharacterBuf .outside := sleeping_ordered

theorem keyboardIrqHandler_ordered : Ordered keyboardIrqHandler .outside :=
  .choose (wakeup_ordered Section.under_outside) .skip

end Devices

section SystemCalls

theorem syshandlerExit_ordered : Ordered syshandlerExit .outside := by
  refine .seq (critical_ordered Section.under_outside (.seq ?_ ?_))
    (.seq apicEndOfInterrupt_keeps (.seq sti_ordered (.seq forever_ordered .skip)))
  · exact .choose (processFree_ordered under_procTable) .skip
  · exact .op ⟨trivial, trivial⟩ rfl

theorem syshandlerSbrk_ordered : Ordered syshandlerSbrk .outside :=
  .choose .skip (.seq alloc_ordered (.many
    (.seq (physicalFrameRequest4kb_ordered Section.under_outside)
      (.choose (map4kbPageUser_ordered Section.under_outside) .skip))))

theorem syshandlerTprintf_ordered : Ordered syshandlerTprintf .outside :=
  .choose .skip (.seq userCopy_keeps printf_ordered)

theorem syshandlerOpen_ordered : Ordered syshandlerOpen .outside :=
  .seq userCopy_keeps (.choose .skip (.seq apicEndOfInterrupt_keeps
    (.seq ext2FileExists_ordered (.seq (.choose ext2DirExists_ordered .skip) .skip))))

theorem syshandlerRead_ordered : Ordered syshandlerRead .outside :=
  .choose .skip (.seq apicEndOfInterrupt_keeps (.seq pathToFileSize_ordered
    (.seq (.choose .skip (.seq ext2ReadFile_ordered
      (.choose .skip (.seq (.many userCopy_keeps) free_ordered)))) .skip)))

theorem syshandlerExec_ordered : Ordered syshandlerExec .outside :=
  .seq userCopy_keeps (.choose .skip (.seq userCopy_keeps
    (.seq apicEndOfInterrupt_keeps (.seq execUserProcess_ordered .skip))))

theorem syshandlerPerror_ordered : Ordered syshandlerPerror .outside :=
  .seq (.choose (.seq userCopy_keeps printf_ordered) .skip) printf_ordered

theorem syshandlerGetchar_ordered : Ordered syshandlerGetchar .outside :=
  .seq apicEndOfInterrupt_keeps (.seq sti_ordered
    (.seq (.many retrieveCharacterBuf_ordered) .skip))

theorem syshandlerWaitpid_ordered : Ordered syshandlerWaitpid .outside :=
  .choose apicEndOfInterrupt_keeps (.any fun _ => sleeping_ordered)

theorem syshandlerFstat_ordered : Ordered syshandlerFstat .outside :=
  .choose .skip (.seq apicEndOfInterrupt_keeps (.seq ext2FileExists_ordered
    (.seq (.choose ext2DirExists_ordered .skip)
      (.seq (.choose .skip (.seq ext2FindFileInode_ordered (.choose userCopy_keeps .skip)))
        .skip))))

theorem syscallHandler_ordered : Ordered syscallHandler .outside := by
  refine .seq saveThreadContext_keeps (.seq (.op ⟨trivial, trivial⟩ rfl)
    (.seq (.choose (.seq ?_ apicEndOfInterrupt_keeps) ?_) (.seq (.op ⟨trivial, trivial⟩ rfl) .skip)))
  · exact .choose syshandlerExit_ordered (.choose syshandlerSbrk_ordered
      (.choose syshandlerTprintf_ordered (.choose forkUserProcess_ordered
        (.choose freeHeapAllocEntry_ordered (.choose syshandlerPerror_ordered .skip)))))
  · exact .choose syshandlerOpen_ordered (.choose syshandlerRead_ordered
      (.choose syshandlerExec_ordered (.choose syshandlerGetchar_ordered
        (.choose syshandlerWaitpid_ordered (.choose syshandlerFstat_ordered .skip)))))

end SystemCalls

section Interrupts

theorem invokeScheduler_ordered : Ordered (invokeScheduler .procTable) .outside :=
  invokeScheduler_keeps Section.under_outside

theorem isrHandler_ordered (vector : Nat) : Ordered (isrHandler vector) .outside := by
  rw [isrHandler]
  repeat' split
  · exact .seq invokeScheduler_ordered apicEndOfInterrupt_keeps
  · exact invokeScheduler_ordered
  · exact .seq keyboardIrqHandler_ordered apicEndOfInterrupt_keeps
  · exact apicEndOfInterrupt_keeps
  · exact .seq ideintr_ordered apicEndOfInterrupt_keeps
  · exact .skip
  · exact forever_ordered

theorem stub_ordered (vector : Nat) : Ordered (stub vector) .outside := by
  refine .seq (.op ⟨trivial, trivial⟩ rfl) ?_
  split
  · exact syscallHandler_ordered
  · exact .seq (.op ⟨trivial, trivial⟩ rfl) (isrHandler_ordered vector)

end Interrupts

section Threads

theorem kernelThread_ordered : Ordered kernelThread .outside := by
  refine .seq (.many ?_) exitThread_ordered
  exact .choose alloc_ordered (.choose free_ordered
    (.choose (physicalFrameRequest4kb_ordered Section.under_outside)
      (.choose ext2ReadFile_ordered (.choose createUserProcess_ordered
        (.choose createKernelThread_ordered (.choose printf_ordered
          (.choose (.any bwrite_ordered) .skip)))))))

theorem thread_ordered (entry : Nat) : Ordered (thread entry) .outside := by
  rw [thread]
  split
  · exact .many (.any fun _ => .op ⟨rfl, trivial⟩ rfl)
  split
  · exact forever_ordered
  · exact kernelThread_ordered

theorem initSpinlock_ordered : Ordered (.op (.initSpinlock lock)) e :=
  .op ⟨trivial, trivial⟩ rfl

theorem kernelMain_ordered : Ordered kernelMain .outside :=
  .seq (.op ⟨trivial, trivial⟩ rfl) (.seq sti_ordered
    (.seq (.many (physicalFrameRequest_ordered Section.under_outside))
      (.seq (.many initSpinlock_ordered) (.seq initSpinlock_ordered (.seq alloc_ordered
        (.seq initSpinlock_ordered (.seq createIdleThread_ordered (.seq (.many alloc_ordered)
          (.seq initSpinlock_ordered (.seq (.many (.any fun _ => initSpinlock_ordered))
            (.seq ext2DriverInit_ordered (.seq ext2ReadFile_ordered
              (.seq (.choose createUserProcess_ordered .skip)
                (.seq exitThread_ordered .skip))))))))))))))

theorem initSmp_ordered : Ordered initSmp .outside := .seq sti_ordered forever_ordered

end Threads

end KernelCode

def kernel {Cpu : Type} [DecidableEq Cpu] (bootstrap : Cpu) : Program Cpu ranked where
  handler := KernelCode.stub
  thread := KernelCode.thread
  boot c := if c = bootstrap then KernelCode.kernelMain else KernelCode.initSmp
  -- isr_32
  trapGate vector := vector = 32
  handler_keeps := KernelCode.stub_ordered
  thread_keeps := KernelCode.thread_ordered
  boot_keeps c := by
    split
    · exact KernelCode.kernelMain_ordered
    · exact KernelCode.initSmp_ordered

namespace KernelState

variable {Cpu : Type} [DecidableEq Cpu] {s : KernelState Cpu KernelLock} {c : Cpu}
  {lock : KernelLock} {inside : Cpu → Section KernelLock}

def Spins (s : KernelState Cpu KernelLock) (c : Cpu) (lock : KernelLock) : Prop :=
  (s.processor c).panic = none ∧ s.owner lock ≠ none ∧
    ∃ rest, Code.Next (s.processor c).code (some (.takeSpinlock lock)) rest

omit [DecidableEq Cpu] in
/-- A CPU spins on a lock of a higher rank than the locks it owns. -/
theorem Inv.spins (inv : Inv ranked s inside) (spins : s.Spins c lock) {owned : KernelLock}
    (owner : s.owner owned = some c) : owned.rank < lock.rank := by
  obtain ⟨_, _, rest, next⟩ := spins
  obtain ⟨allowed, _⟩ := (inv.processor c).follows.performs next
  exact allowed.2 owned (inv.owner c owned owner)

/-- No CPU spins on its own lock, and no group of CPUs on each other's. -/
theorem lockOrder_deadlockFree {bootstrap : Cpu}
    (reached : Reachable (Start (kernel bootstrap)) (Step (kernel bootstrap)) s) :
    (∀ c lock, s.Spins c lock → s.owner lock ≠ some c) ∧
      ¬∃ group : Set Cpu, group.Nonempty ∧
        ∀ c ∈ group, ∃ lock, s.Spins c lock ∧ ∃ d ∈ group, s.owner lock = some d := by
  obtain ⟨inside, inv⟩ := Reachable.inv reached
  exact no_circular_wait KernelLock.rank fun c lock owned spins owner =>
    inv.spins spins owner

section Sample

def bothInTimer : List (Event Bool) :=
  .interrupt false 32 :: List.replicate 8 (.goes false 0) ++
    .interrupt true 32 :: List.replicate 7 (.goes true 0)

def spinning (s : KernelState Bool KernelLock) (c : Bool) : Option KernelLock :=
  match (s.processor c).code with
  | .op (.takeSpinlock lock) :: _ =>
      if (s.processor c).panic = none ∧ s.owner lock ≠ none then some lock else none
  | _ => none

theorem spins_of_spinning {s : KernelState Bool KernelLock} {c : Bool} {lock : KernelLock}
    (spinning : s.spinning c = some lock) : s.Spins c lock := by
  rw [KernelState.spinning] at spinning
  split at spinning
  case h_2 => cases spinning
  case h_1 wanted rest code =>
  split at spinning
  case isFalse => cases spinning
  case isTrue here =>
  obtain rfl := Option.some.inj spinning
  exact ⟨here.1, here.2, rest, by rw [code]; exact .op⟩

theorem bothInTimer_reached :
    ∃ s, Reachable (Start (kernel false)) (Step (kernel false)) s ∧
      (s.spinning true, s.owner .procTable) = (some .procTable, some false) :=
  run_reached bothInTimer (by decide)

theorem lockOrder_deadlockFree_timers :
    ∃ s : KernelState Bool KernelLock, (s.Spins true .procTable ∧ s.owner .procTable = some false) ∧
      (∀ c lock, s.Spins c lock → s.owner lock ≠ some c) ∧
      ¬∃ group : Set Bool, group.Nonempty ∧ ∀ c ∈ group,
        ∃ lock, s.Spins c lock ∧ ∃ d ∈ group, s.owner lock = some d := by
  obtain ⟨s, reached, here⟩ := bothInTimer_reached
  obtain ⟨spins, owned⟩ := Prod.mk.inj here
  exact ⟨s, ⟨spins_of_spinning spins, owned⟩, lockOrder_deadlockFree reached⟩

end Sample

end KernelState

end SwagOS.Kernel
