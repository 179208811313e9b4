import SwagOS.Kernel.Locking

/-!
# Code with critical sections

What `ThreadSleep`, the scheduler, the copies from and to user memory and the stubs of the
interrupt table do to locks and flag, and that they nest.  A panic is a CPU that takes no more
steps.
-/

namespace SwagOS.Kernel

open SwagOS.Lib Code

variable {Lock : Type}

/-- `acquire_Spinlock(&lock); body; release_Spinlock(&lock);` -/
def critical (lock : Lock) (body : Code (KernelOp Lock)) : Code (KernelOp Lock) :=
  .seq (.op (.acquireSpinlock lock)) (.seq body (.op (.releaseSpinlock lock)))

/-- `FetchStruct`, `FetchString` and `WriteStruct`: nothing where a page is not mapped. -/
def userCopy : Code (KernelOp Lock) := .choose .skip (.seq (.op .beginCopy) (.op .endCopy))

def apicEndOfInterrupt : Code (KernelOp Lock) := .op .noINTDisable

/-- The thread may have been woken before it gets to `int3`. -/
def threadSleep (lock : Lock) : Code (KernelOp Lock) :=
  .seq (.op (.releaseSpinlock lock))
    (.seq (.choose (.op (.int 3)) .skip) (.op (.acquireSpinlock lock)))

def saveThreadContext : Code (KernelOp Lock) :=
  .any fun thread => .choose (.op (.saveThreadContext thread)) .skip

/-- `schedule` does not return, unless the thread was never given an instruction pointer. -/
def schedule (procTable : Lock) : Code (KernelOp Lock) :=
  .any fun thread => .choose .skip
    (block [.op (.releaseSpinlock procTable), .op .cli, apicEndOfInterrupt,
      .op (.loadContext thread), .forever])

def scheduleIdleThread (procTable : Lock) : Code (KernelOp Lock) :=
  .seq saveThreadContext (schedule procTable)

def invokeScheduler (procTable : Lock) : Code (KernelOp Lock) :=
  .seq
    (critical procTable
      (.seq (.many (.choose (.seq saveThreadContext (schedule procTable)) .skip))
        (.choose (scheduleIdleThread procTable) .skip)))
    -- HandleNoSchedule
    apicEndOfInterrupt

/-- The `cli` of the stubs and the `NoINT_Enable` of the handlers. -/
def interruptStub (body : Code (KernelOp Lock)) : Code (KernelOp Lock) :=
  block [.op .cli, .op .noINTEnable, body]

variable [DecidableEq Lock] {rules : LockRules Lock} {e : Section Lock} {lock : Lock}
  {body : Code (KernelOp Lock)}

theorem critical_keeps (new : lock ∉ e.held) (may : rules.mayAcquire e lock)
    (keeps : Keeps (sections rules) body (e.next (.acquireSpinlock lock))) :
    Keeps (sections rules) (critical lock body) e := by
  refine .between ⟨new, may⟩ keeps ⟨Finset.mem_insert_self lock e.held, trivial⟩ ?_
  exact Section.ext (Finset.erase_insert new) rfl rfl

theorem userCopy_keeps : Keeps (sections rules) userCopy e :=
  .choose .skip ⟨e.next .beginCopy, ⟨⟨trivial, trivial⟩, rfl⟩,
    ⟨Nat.succ_pos e.copies, trivial⟩, rfl⟩

theorem apicEndOfInterrupt_keeps : Keeps (sections rules) apicEndOfInterrupt e :=
  .op ⟨trivial, trivial⟩ rfl

theorem Section.release_acquire :
    ((outside : Section Lock).next (.acquireSpinlock lock)).next (.releaseSpinlock lock) =
      outside :=
  Section.ext (Finset.erase_insert (Finset.notMem_empty lock)) rfl rfl

/-- A thread sleeps with no lock but the one it gives up. -/
theorem threadSleep_keeps (may : rules.mayAcquire .outside lock) :
    Keeps (sections rules) (threadSleep lock)
      (Section.outside.next (.acquireSpinlock lock)) := by
  have held : lock ∈ (Section.outside.next (.acquireSpinlock lock)).held :=
    Finset.mem_insert_self lock ∅
  refine ⟨.outside, ⟨⟨held, trivial⟩, Section.release_acquire.symm⟩, .outside, ⟨?_, rfl⟩, ?_⟩
  · exact ⟨⟨rfl, trivial⟩, rfl⟩
  · exact ⟨⟨Finset.notMem_empty lock, may⟩, rfl⟩

theorem saveThreadContext_keeps : Keeps (sections rules) saveThreadContext e :=
  .any fun _ => .choose (.op ⟨trivial, trivial⟩ rfl) .skip

theorem schedule_keeps :
    Keeps (sections rules) (schedule lock) (Section.outside.next (.acquireSpinlock lock)) := by
  refine .any fun thread => .choose .skip ?_
  have held : lock ∈ (Section.outside.next (.acquireSpinlock lock)).held :=
    Finset.mem_insert_self lock ∅
  refine ⟨.outside, ⟨⟨held, trivial⟩, Section.release_acquire.symm⟩, ?_⟩
  refine ⟨.outside, ⟨⟨trivial, trivial⟩, rfl⟩, .outside, ⟨⟨trivial, trivial⟩, rfl⟩, ?_⟩
  exact ⟨.outside, ⟨⟨rfl, trivial⟩, rfl⟩, _, trivial, rfl⟩

theorem invokeScheduler_keeps (may : rules.mayAcquire .outside lock) :
    Keeps (sections rules) (invokeScheduler lock) .outside := by
  refine .seq (critical_keeps (Finset.notMem_empty lock) may (.seq (.many ?_) ?_))
    apicEndOfInterrupt_keeps
  · exact .choose (.seq saveThreadContext_keeps schedule_keeps) .skip
  · exact .choose (.seq saveThreadContext_keeps schedule_keeps) .skip

theorem interruptStub_keeps (keeps : Keeps (sections rules) body e) :
    Keeps (sections rules) (interruptStub body) e :=
  .seq (.op ⟨trivial, trivial⟩ rfl) (.seq (.op ⟨trivial, trivial⟩ rfl) (.seq keeps .skip))

end SwagOS.Kernel
