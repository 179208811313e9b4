import SwagOS.Kernel.ThreadTable.Exclusivity

/-!
# Sleeping and waking

Threads that run `acquire lk; while (!cond) ThreadSleep(chan, lk); release lk`, as
`iderw`, `acquire_Sleeplock` and `SYSHANDLER_waitpid` do, against those who make the
condition true and wake them, timer interrupts and scheduler invocations.  Each access
of `ThreadSleep` and of the loop of `Wakeup` is a step.

Two kinds of wakers exist.  One sets the condition of an object under the lock of its
sleepers and calls `Wakeup` before or after it releases that lock.  The other is an
exiting process: it sets its state to exited and calls `NoLockWakeup` under
`proc_table.lock` alone.  Where a waker runs does not matter here: it may take its steps
at any time.
-/

namespace SwagOS.Kernel

open SwagOS.Lib

/-- Where a thread stands in its wait; the names from `setChannel` to `reacquire` are
the accesses of `ThreadSleep`. -/
inductive Place where
  | outside
  | acquire
  | test
  | setChannel
  | setStatus
  | setCanWakeup
  | release
  | checkStatus
  | int3
  | clearChannel
  | reacquire
  /-- The condition was found true; the lock is still held. -/
  | leave
  deriving DecidableEq, Repr

inductive Waker where
  | idle
  /-- Before and after the acquisition of the lock of an object. -/
  | acquire (a : Nat)
  | holding (a : Nat)
  /-- The condition is set, and `Wakeup` waits for `proc_table.lock`. -/
  | notify (a : Nat)
  /-- `SYSHANDLER_exit` has `proc_table.lock`. -/
  | exiting (p : Nat)
  /-- The loop of `Wakeup` is at thread `i`: before it reads the status, before it reads
  the channel, and before it sets `can_wakeup`. -/
  | visit (channel : Channel) (i : Nat)
  | visitChannel (channel : Channel) (i : Nat)
  | visitWrite (channel : Channel) (i : Nat)
  /-- The loop is over and `proc_table.lock` released. -/
  | finished (channel : Channel)
  deriving DecidableEq, Repr

inductive Agent where
  | thread (t : Nat)
  | waker (w : Nat)
  deriving DecidableEq, Repr

structure SleepSystem where
  table : ThreadTable
  place : Nat → Place
  /-- The channel of the present or the last wait of a thread. -/
  channel : Nat → Channel
  waker : Nat → Waker
  lock : Nat → Option Agent
  /-- The waker that holds `proc_table.lock`; a scheduler invocation takes and releases
  it in one step. -/
  procLock : Option Nat
  cond : Nat → Bool

namespace SleepSystem

def holds (s : SleepSystem) : Channel → Bool
  | .object a => s.cond a
  | .process p => (s.table.procs p).state = .exited

def goto (s : SleepSystem) (t : Nat) (place : Place) : SleepSystem :=
  { s with place := Function.update s.place t place }

def wakerTo (s : SleepSystem) (w : Nat) (place : Waker) : SleepSystem :=
  { s with waker := Function.update s.waker w place }

def setLock (s : SleepSystem) (l : Nat) (owner : Option Agent) : SleepSystem :=
  { s with lock := Function.update s.lock l owner }

def Runs (s : SleepSystem) (t : Nat) : Prop :=
  t < maxNumThreads ∧ ∃ cpu, s.table.current cpu = some t

inductive Event where
  | schedule (cpu : Nat)
  /-- The loop of a `Wakeup` is done with a thread. -/
  | pass (channel : Channel) (t : Nat)
  | other

/-- Several channels may share a lock, as the buffers share that of the disk queue. -/
inductive Step (lockOf : Channel → Nat) : SleepSystem → Event → SleepSystem → Prop where
  | timer {s : SleepSystem} {table : ThreadTable} {cpu iRip : Nat} :
      s.procLock = none → iRip ≠ 0 → s.table.invokeScheduler cpu iRip = .ok table →
      Step lockOf s (.schedule cpu) { s with table := table }
  | int3 {s : SleepSystem} {table : ThreadTable} {cpu t iRip : Nat} :
      t < maxNumThreads → s.table.current cpu = some t → s.place t = .int3 →
      s.table.status t = .sleeping → s.procLock = none → iRip ≠ 0 →
      s.table.invokeScheduler cpu iRip = .ok table →
      Step lockOf s (.schedule cpu) ({ s with table := table }.goto t .clearChannel)
  -- The wait.
  | enter {s : SleepSystem} {t : Nat} (channel : Channel) :
      s.Runs t → s.place t = .outside →
      Step lockOf s .other
        { s.goto t .acquire with channel := Function.update s.channel t channel }
  | acquire {s : SleepSystem} {t : Nat} :
      s.Runs t → s.place t = .acquire ∨ s.place t = .reacquire →
      s.lock (lockOf (s.channel t)) = none →
      Step lockOf s .other
        ((s.setLock (lockOf (s.channel t)) (some (.thread t))).goto t .test)
  | testTrue {s : SleepSystem} {t : Nat} :
      s.Runs t → s.place t = .test → s.holds (s.channel t) = true →
      Step lockOf s .other (s.goto t .leave)
  | testFalse {s : SleepSystem} {t : Nat} :
      s.Runs t → s.place t = .test → s.holds (s.channel t) = false →
      Step lockOf s .other (s.goto t .setChannel)
  | setChannel {s : SleepSystem} {t : Nat} :
      s.Runs t → s.place t = .setChannel →
      Step lockOf s .other
        ({ s with table := s.table.sleepSetChannel t (s.channel t) }.goto t .setStatus)
  | setStatus {s : SleepSystem} {t : Nat} :
      s.Runs t → s.place t = .setStatus →
      Step lockOf s .other ({ s with table := s.table.sleepSetStatus t }.goto t .setCanWakeup)
  | setCanWakeup {s : SleepSystem} {t : Nat} :
      s.Runs t → s.place t = .setCanWakeup →
      Step lockOf s .other ({ s with table := s.table.sleepSetCanWakeup t }.goto t .release)
  | release {s : SleepSystem} {t : Nat} :
      s.Runs t → s.place t = .release →
      Step lockOf s .other ((s.setLock (lockOf (s.channel t)) none).goto t .checkStatus)
  | checkSleeping {s : SleepSystem} {t : Nat} :
      s.Runs t → s.place t = .checkStatus → s.table.status t = .sleeping →
      Step lockOf s .other (s.goto t .int3)
  | checkAwake {s : SleepSystem} {t : Nat} :
      s.Runs t → s.place t = .checkStatus → s.table.status t ≠ .sleeping →
      Step lockOf s .other (s.goto t .clearChannel)
  | clearChannel {s : SleepSystem} {t : Nat} :
      s.Runs t → s.place t = .clearChannel →
      Step lockOf s .other ({ s with table := s.table.sleepClearChannel t }.goto t .reacquire)
  | leave {s : SleepSystem} {t : Nat} :
      s.Runs t → s.place t = .leave →
      Step lockOf s .other ((s.setLock (lockOf (s.channel t)) none).goto t .outside)
  -- `acquire_Sleeplock` takes what it waited for before it releases the lock.
  | leaveReset {s : SleepSystem} {t a : Nat} :
      s.Runs t → s.place t = .leave → s.channel t = .object a →
      Step lockOf s .other
        { (s.setLock (lockOf (s.channel t)) none).goto t .outside with
          cond := Function.update s.cond a false }
  -- Wakers that set the condition of an object under its lock.
  | wakerEnter {s : SleepSystem} {w : Nat} (a : Nat) :
      s.waker w = .idle → Step lockOf s .other (s.wakerTo w (.acquire a))
  | wakerAcquire {s : SleepSystem} {w a : Nat} :
      s.waker w = .acquire a → s.lock (lockOf (.object a)) = none →
      Step lockOf s .other
        ((s.setLock (lockOf (.object a)) (some (.waker w))).wakerTo w (.holding a))
  | wakerSet {s : SleepSystem} {w a : Nat} :
      s.waker w = .holding a →
      Step lockOf s .other
        { s.wakerTo w (.notify a) with cond := Function.update s.cond a true }
  | wakerRelease {s : SleepSystem} {w a : Nat} :
      s.waker w = .notify a ∨ s.waker w = .finished (.object a) →
      s.lock (lockOf (.object a)) = some (.waker w) →
      Step lockOf s .other (s.setLock (lockOf (.object a)) none)
  | wakeupBegin {s : SleepSystem} {w a : Nat} :
      s.waker w = .notify a → s.procLock = none →
      Step lockOf s .other
        { s.wakerTo w (.visit (.object a) 0) with procLock := some w }
  -- The exit of a process.
  | exitBegin {s : SleepSystem} {w : Nat} (p : Nat) :
      s.waker w = .idle → s.procLock = none →
      Step lockOf s .other { s.wakerTo w (.exiting p) with procLock := some w }
  | exitSet {s : SleepSystem} {w p : Nat} :
      s.waker w = .exiting p →
      Step lockOf s .other
        { s.wakerTo w (.visit (.process p) 0) with
          table := s.table.modifyProc p fun proc => { proc with state := .exited } }
  -- The loop of `Wakeup` and `NoLockWakeup`.
  | visitAwake {s : SleepSystem} {w i : Nat} {channel : Channel} :
      s.waker w = .visit channel i → i < maxNumThreads →
      ¬(s.table.status i = .sleeping ∨ s.table.status i = .wakeupReady) →
      Step lockOf s (.pass channel i) (s.wakerTo w (.visit channel (i + 1)))
  | visitAsleep {s : SleepSystem} {w i : Nat} {channel : Channel} :
      s.waker w = .visit channel i → i < maxNumThreads →
      s.table.status i = .sleeping ∨ s.table.status i = .wakeupReady →
      Step lockOf s .other (s.wakerTo w (.visitChannel channel i))
  | visitElsewhere {s : SleepSystem} {w i : Nat} {channel : Channel} :
      s.waker w = .visitChannel channel i → (s.table.threads i).sleepChannel ≠ some channel →
      Step lockOf s (.pass channel i) (s.wakerTo w (.visit channel (i + 1)))
  | visitHere {s : SleepSystem} {w i : Nat} {channel : Channel} :
      s.waker w = .visitChannel channel i → (s.table.threads i).sleepChannel = some channel →
      Step lockOf s .other (s.wakerTo w (.visitWrite channel i))
  | visitWrite {s : SleepSystem} {w i : Nat} {channel : Channel} :
      s.waker w = .visitWrite channel i →
      Step lockOf s (.pass channel i)
        { s.wakerTo w (.visit channel (i + 1)) with
          table := s.table.modifyThread i fun thread => { thread with canWakeup := true } }
  | visitEnd {s : SleepSystem} {w : Nat} {channel : Channel} :
      s.waker w = .visit channel maxNumThreads →
      Step lockOf s .other { s.wakerTo w (.finished channel) with procLock := none }
  | wakerDone {s : SleepSystem} {w : Nat} {channel : Channel} :
      s.waker w = .finished channel → s.lock (lockOf channel) ≠ some (.waker w) →
      Step lockOf s .other (s.wakerTo w .idle)

/-- No one waits or wakes yet.  The threads, CPUs and conditions are arbitrary. -/
structure Start (s : SleepSystem) : Prop where
  scheduled : s.table.Scheduled
  contexts : s.table.Contexts
  awake : ∀ t, s.table.status t ≠ .sleeping ∧ s.table.status t ≠ .wakeupReady ∧
    (s.table.threads t).sleepChannel = none
  outside : ∀ t, s.place t = .outside
  idle : ∀ w, s.waker w = .idle
  unlocked : ∀ l, s.lock l = none
  procLock : s.procLock = none

end SleepSystem

end SwagOS.Kernel
