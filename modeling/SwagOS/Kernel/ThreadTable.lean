import Mathlib.Algebra.Group.Nat.Defs
import Mathlib.Logic.Function.Basic
import SwagOS.Lib.Transition

/-!
# The thread table

Threads, processes and CPUs as `kernel/proc.c`, `kernel/scheduler.c` and
`arch/x86_64/syscalls.c` change them.  A section under `proc_table.lock` is one
function of the table; `ThreadSleep` writes outside the lock, so each of its writes is
a function of its own.

Of the saved context only `i_rip` is read back, by `schedule`.  The list of threads of
a process is only filled at the head and emptied from the head, and is a plain list
here.  Memory and file descriptors are left out.
-/

namespace SwagOS.Kernel

open SwagOS.Lib

inductive ThreadState where
  | notInitialized
  | ready
  | running
  | killed
  | sleeping
  | wakeupReady
  deriving DecidableEq, Repr

inductive ProcessState where
  | free
  | exited
  | inuse
  deriving DecidableEq, Repr

/-- What a thread sleeps on: the address of a process, or another one. -/
inductive Channel where
  | process (pid : Nat)
  | object (address : Nat)
  deriving DecidableEq, Repr

structure Thread where
  canWakeup : Bool
  status : ThreadState
  id : Nat
  iRip : Nat
  ownerProc : Option Nat
  sleepChannel : Option Channel

structure Process where
  threads : List Nat
  threadCount : Nat
  state : ProcessState

def maxNumThreads : Nat := 300

def idleThread : Nat := maxNumThreads

def maxNumProc : Nat := 64

/-- The tables, and `current_thread` of each CPU. -/
@[ext]
structure ThreadTable where
  threads : Nat → Thread
  procs : Nat → Process
  current : Nat → Option Nat

namespace ThreadTable

def status (s : ThreadTable) (t : Nat) : ThreadState := (s.threads t).status

def modifyThread (s : ThreadTable) (t : Nat) (write : Thread → Thread) : ThreadTable :=
  { s with threads := Function.update s.threads t (write (s.threads t)) }

def setStatus (s : ThreadTable) (t : Nat) (status : ThreadState) : ThreadTable :=
  s.modifyThread t fun thread => { thread with status := status }

def modifyProc (s : ThreadTable) (p : Nat) (write : Process → Process) : ThreadTable :=
  { s with procs := Function.update s.procs p (write (s.procs p)) }

def setCurrent (s : ThreadTable) (cpu : Nat) (t : Option Nat) : ThreadTable :=
  { s with current := Function.update s.current cpu t }

/-- `SaveThreadContext` with the context of the interrupt.  The `memset` for a killed
thread has length 0. -/
def saveThreadContext (s : ThreadTable) (old : Option Nat) (iRip : Nat) : Outcome ThreadTable :=
  match old with
  | none => pure s
  | some t =>
    if t = idleThread then pure s
    else
      match s.status t with
      | .killed => pure s
      | .sleeping =>
          pure (s.modifyThread t fun thread =>
            { thread with status := .wakeupReady, iRip := iRip })
      | .running =>
          pure (s.modifyThread t fun thread => { thread with status := .ready, iRip := iRip })
      | _ => throw (.panic "InvokeScheduler() --> old_thread was in unexpected state.\n")

/-- The part of `schedule` before it leaves for the thread. -/
def schedule (s : ThreadTable) (cpu t : Nat) (state : ThreadState) : ThreadTable :=
  (s.setCurrent cpu (some t)).setStatus t state

/-- The body of the three loops.  `true` means that `schedule` has left for a thread;
it returns only if the thread has no saved context. -/
def scan (cpu : Nat) (old : Option Nat) (iRip : Nat) :
    List Nat → ThreadTable → Outcome (Bool × ThreadTable)
  | [], s => pure (false, s)
  | i :: rest, s =>
      let s :=
        if s.status i = .wakeupReady ∧ (s.threads i).canWakeup then s.setStatus i .ready else s
      if s.status i ≠ .ready then scan cpu old iRip rest s
      else do
        let s ← s.saveThreadContext old iRip
        if (s.threads i).iRip = 0 then scan cpu old iRip rest s
        else pure (true, s.schedule cpu i .running)

/-- The order in which the loops visit the threads: round robin from the old one. -/
def scanOrder (s : ThreadTable) : Option Nat → List Nat
  | none => List.range maxNumThreads
  | some t =>
      let oldThreadId := if (s.threads t).id = 2 ^ 32 - 1 then maxNumThreads else (s.threads t).id
      List.range' (oldThreadId + 1) (maxNumThreads - (oldThreadId + 1)) ++ List.range oldThreadId

def invokeScheduler (s : ThreadTable) (cpu iRip : Nat) : Outcome ThreadTable := do
  let old := s.current cpu
  let (switched, s) ← scan cpu old iRip (s.scanOrder old) s
  if switched then pure s
  else
    match old with
    | none =>
        -- `HandleNoSchedule` would read through the null pointer.
        if (s.threads idleThread).iRip = 0 then throw (.panic "Page Fault Interrupt")
        else pure (s.schedule cpu idleThread .ready)
    | some t =>
        if s.status t = .killed then do
          let s ← s.saveThreadContext old iRip
          if (s.threads idleThread).iRip = 0 then pure s
          else pure (s.schedule cpu idleThread .ready)
        else pure s

def sleepSetChannel (s : ThreadTable) (t : Nat) (channel : Channel) : ThreadTable :=
  s.modifyThread t fun thread => { thread with sleepChannel := some channel }

def sleepSetStatus (s : ThreadTable) (t : Nat) : ThreadTable := s.setStatus t .sleeping

def sleepSetCanWakeup (s : ThreadTable) (t : Nat) : ThreadTable :=
  s.modifyThread t fun thread => { thread with canWakeup := false }

def sleepClearChannel (s : ThreadTable) (t : Nat) : ThreadTable :=
  s.modifyThread t fun thread => { thread with sleepChannel := none }

/-- The threads that `Wakeup` and `NoLockWakeup` let go. -/
def Sleeps (s : ThreadTable) (channel : Channel) (t : Nat) : Prop :=
  (s.status t = .sleeping ∨ s.status t = .wakeupReady) ∧
    (s.threads t).sleepChannel = some channel

instance (s : ThreadTable) (channel : Channel) (t : Nat) : Decidable (s.Sleeps channel t) :=
  inferInstanceAs (Decidable (_ ∧ _))

def wakeThread (s : ThreadTable) (channel : Channel) (t : Nat) : ThreadTable :=
  if s.Sleeps channel t then s.modifyThread t fun thread => { thread with canWakeup := true }
  else s

def wakeup (s : ThreadTable) (channel : Channel) : ThreadTable :=
  (List.range maxNumThreads).foldl (fun s t => s.wakeThread channel t) s

def findFreeThread (s : ThreadTable) : Option Nat :=
  (List.range maxNumThreads).find? fun t =>
    s.status t = .notInitialized || s.status t = .killed

def findFreeProcess (s : ThreadTable) : Option Nat :=
  (List.range maxNumProc).find? fun p => (s.procs p).state = .free

def startThread (s : ThreadTable) (t iRip : Nat) : ThreadTable :=
  s.modifyThread t fun thread =>
    { thread with id := t, status := .ready, canWakeup := true, iRip := iRip }

def createKernelThread (s : ThreadTable) (entry : Nat) : Outcome ThreadTable :=
  match s.findFreeThread with
  | none => throw (.panic "CreateKernelThread() --> could not find free thread\n")
  | some t => pure (s.startThread t entry)

/-- What `CreateUserProcess` and `ForkUserProcess` do to the tables. -/
def startProcess (s : ThreadTable) (p t iRip : Nat) : ThreadTable :=
  let s := s.startThread t iRip
  let s := s.modifyThread t fun thread => { thread with ownerProc := some p }
  s.modifyProc p fun proc =>
    { threads := t :: proc.threads, threadCount := 1, state := .inuse }

def createUserProcess (s : ThreadTable) (iRip : Nat) : ThreadTable :=
  match s.findFreeProcess, s.findFreeThread with
  | some p, some t => s.startProcess p t iRip
  | _, _ => s

def forkUserProcess (s : ThreadTable) (old iRip : Nat) : ThreadTable :=
  match s.findFreeProcess, s.findFreeThread, (s.threads old).ownerProc with
  | some p, some t, some _ => s.startProcess p t iRip
  | _, _, _ => s

def processFreeThreads (s : ThreadTable) (p : Nat) : ThreadTable :=
  let s := (s.procs p).threads.foldl (fun s t => s.setStatus t .killed) s
  s.modifyProc p fun proc => { proc with threads := [], threadCount := 0 }

def execUserProcess (s : ThreadTable) (t : Nat) : ThreadTable :=
  match (s.threads t).ownerProc with
  | none => s
  | some p =>
      let s := s.processFreeThreads p
      let s := s.modifyProc p fun proc =>
        { threads := t :: proc.threads, threadCount := 1, state := .inuse }
      s.setStatus t .running

/-- The common end of `SYSHANDLER_exit` and `ExitThread`. -/
def leave (s : ThreadTable) (cpu t : Nat) : ThreadTable :=
  (s.setCurrent cpu none).modifyThread t fun thread =>
    { thread with status := .killed, id := 2 ^ 32 - 1 }

def exitThread (s : ThreadTable) (cpu t : Nat) : ThreadTable := s.leave cpu t

def syshandlerExit (s : ThreadTable) (cpu t : Nat) : ThreadTable :=
  match (s.threads t).ownerProc with
  | none => s.leave cpu t
  | some p =>
      let s := s.modifyProc p fun proc =>
        { proc with threadCount := (proc.threadCount + (2 ^ 32 - 1)) % 2 ^ 32 }
      if (s.procs p).threadCount = 0 then
        let s := (s.processFreeThreads p).modifyProc p fun proc => { proc with state := .exited }
        (s.wakeup (.process p)).leave cpu t
      else s.leave cpu t

end ThreadTable

end SwagOS.Kernel
