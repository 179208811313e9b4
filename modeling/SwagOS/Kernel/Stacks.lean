import SwagOS.Kernel.ThreadTable.Exclusivity

/-!
# Kernel stacks

A user thread enters the kernel on the `kstack` of its slot in the thread table, a kernel
thread runs on a stack from `kalloc`, and a CPU that has scheduled nothing yet on its boot stack.
`schedule` releases `proc_table.lock` before it loads the context of the new thread, and until
then the CPU is on the stack of the old one.  A thread that exits goes on in an endless loop on
its stack.
-/

namespace SwagOS.Kernel

open SwagOS.Lib

inductive Stack where
  | boot (cpu : Nat)
  /-- `kstack` of a slot, which `set_tss` gives to the CPU. -/
  | kstack (slot : Nat)
  /-- A stack from `kalloc`; none is ever freed. -/
  | allocated (n : Nat)
  deriving DecidableEq, Repr

structure StackSystem where
  table : ThreadTable
  /-- The stack of the thread in a slot. -/
  stackOf : Nat → Stack
  /-- How many stacks `kalloc` has given. -/
  allocations : Nat
  /-- The stack that a CPU is on. -/
  stack : Nat → Stack
  /-- The CPU is in `schedule`, without the lock. -/
  leaving : Nat → Bool

namespace StackSystem

def setTable (s : StackSystem) (table : ThreadTable) : StackSystem := { s with table := table }

/-- `InvokeScheduler` up to the release of the lock.  `schedule` was entered for a thread if
`current_thread` is a new one. -/
def switchTo (s : StackSystem) (cpu : Nat) (table : ThreadTable) : StackSystem :=
  { s with
    table := table
    leaving := Function.update s.leaving cpu (table.current cpu ≠ s.table.current cpu) }

def load (s : StackSystem) (cpu t : Nat) : StackSystem :=
  { s with
    stack := Function.update s.stack cpu (s.stackOf t)
    leaving := Function.update s.leaving cpu false }

@[simp] theorem load_stack (s : StackSystem) (cpu t : Nat) :
    (s.load cpu t).stack = Function.update s.stack cpu (s.stackOf t) := rfl

@[simp] theorem load_leaving (s : StackSystem) (cpu t : Nat) :
    (s.load cpu t).leaving = Function.update s.leaving cpu false := rfl

def takeSlot (s : StackSystem) (slot : Option Nat) (table : ThreadTable) : StackSystem :=
  match slot with
  | none => s.setTable table
  | some t =>
    { s with table := table, stackOf := Function.update s.stackOf t (.kstack t) }

def takeSlotKernel (s : StackSystem) (t : Nat) (table : ThreadTable) : StackSystem :=
  { s with
    table := table
    stackOf := Function.update s.stackOf t (.allocated s.allocations)
    allocations := s.allocations + 1 }

def createdSlot (s : StackSystem) : Option Nat :=
  match s.table.findFreeProcess, s.table.findFreeThread with
  | some _, some t => some t
  | _, _ => none

def forkedSlot (s : StackSystem) (old : Nat) : Option Nat :=
  match s.table.findFreeProcess, s.table.findFreeThread, (s.table.threads old).ownerProc with
  | some _, some t, some _ => some t
  | _, _, _ => none

/-- The CPU executes the code of a thread.  The idle thread makes no calls. -/
def Executes (s : StackSystem) (cpu t : Nat) : Prop :=
  s.leaving cpu = false ∧ s.table.current cpu = some t ∧ t ≠ idleThread

/-- The CPU has no thread: one has exited there, or there was none yet. -/
def Spins (s : StackSystem) (cpu : Nat) : Prop :=
  s.leaving cpu = false ∧ s.table.current cpu = none

inductive Event where
  | invokeScheduler
  /-- The `kstack` of a slot is given to a new thread. -/
  | take (slot : Option Nat)
  | load (cpu t : Nat)
  | other

inductive Step : StackSystem → Event → StackSystem → Prop where
  | invokeScheduler {s : StackSystem} {table : ThreadTable} {cpu iRip : Nat} :
      s.leaving cpu = false → s.table.invokeScheduler cpu iRip = .ok table →
      Step s .invokeScheduler (s.switchTo cpu table)
  | load {s : StackSystem} {cpu t : Nat} :
      s.leaving cpu = true → s.table.current cpu = some t →
      Step s (.load cpu t) (s.load cpu t)
  | sleepSetChannel {s : StackSystem} {cpu t : Nat} (channel : Channel) :
      s.Executes cpu t → Step s .other (s.setTable (s.table.sleepSetChannel t channel))
  | sleepSetStatus {s : StackSystem} {cpu t : Nat} :
      s.Executes cpu t → Step s .other (s.setTable (s.table.sleepSetStatus t))
  | sleepSetCanWakeup {s : StackSystem} {cpu t : Nat} :
      s.Executes cpu t → Step s .other (s.setTable (s.table.sleepSetCanWakeup t))
  | sleepClearChannel {s : StackSystem} {cpu t : Nat} :
      s.Executes cpu t → Step s .other (s.setTable (s.table.sleepClearChannel t))
  | wakeup {s : StackSystem} (channel : Channel) :
      Step s .other (s.setTable (s.table.wakeup channel))
  | createKernelThread {s : StackSystem} {table : ThreadTable} {t entry : Nat} :
      s.table.findFreeThread = some t → s.table.createKernelThread entry = .ok table →
      Step s .other (s.takeSlotKernel t table)
  | createUserProcess {s : StackSystem} (iRip : Nat) :
      Step s (.take s.createdSlot) (s.takeSlot s.createdSlot (s.table.createUserProcess iRip))
  | forkUserProcess {s : StackSystem} {cpu t : Nat} (iRip : Nat) :
      s.Executes cpu t →
      Step s (.take (s.forkedSlot t))
        (s.takeSlot (s.forkedSlot t) (s.table.forkUserProcess t iRip))
  | execUserProcess {s : StackSystem} {cpu t : Nat} :
      s.Executes cpu t → Step s .other (s.setTable (s.table.execUserProcess t))
  | syshandlerExit {s : StackSystem} {cpu t : Nat} :
      s.Executes cpu t → Step s .other (s.setTable (s.table.syshandlerExit cpu t))
  | exitThread {s : StackSystem} {cpu t : Nat} :
      s.Executes cpu t → Step s .other (s.setTable (s.table.exitThread cpu t))

/-- After `kthread_setup` and `CreateIdleThread`: thread 0 runs on CPU 0 and its boot stack. -/
def boot (idleEntry : Nat) : StackSystem where
  table := .boot idleEntry
  stackOf := Function.update (Function.update .kstack idleThread (.allocated 0)) 0 (.boot 0)
  allocations := 1
  stack := .boot
  leaving := fun _ => false

def Start (s : StackSystem) : Prop := ∃ idleEntry, s = boot idleEntry

end StackSystem

end SwagOS.Kernel
