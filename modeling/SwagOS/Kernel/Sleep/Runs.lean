import SwagOS.Kernel.Sleep.Invariant

/-!
# Runs of waiters and wakers

The sections of a run in which one party moves alone: a thread that goes to sleep, the
loop of a `Wakeup`, a waker from its first step to its last, and the exit of a process.
-/

namespace SwagOS.Kernel

open SwagOS.Lib

def Thread.wake (thread : Thread) (channel : Channel) : Thread :=
  if (thread.status = .sleeping ∨ thread.status = .wakeupReady) ∧
      thread.sleepChannel = some channel then
    { thread with canWakeup := true }
  else thread

namespace ThreadTable

/-- The three writes of `ThreadSleep` before it releases the lock. -/
def fallAsleep (s : ThreadTable) (t : Nat) (channel : Channel) : ThreadTable :=
  ((s.sleepSetChannel t channel).sleepSetStatus t).sleepSetCanWakeup t

def pair (first second : Thread) (current : Nat) : ThreadTable where
  threads := fun t =>
    if t = 0 then first
    else if t = 1 then second
    else if t = idleThread then ⟨true, .ready, idleThread, 1, none, none⟩
    else ⟨false, .notInitialized, 0, 0, none, none⟩
  procs := fun _ => ⟨[], 1, .inuse⟩
  current := Function.update (fun _ => none) 0 (some current)

section Pair

variable (first second : Thread) (current : Nat)

@[simp] theorem pair_first : (pair first second current).threads 0 = first := rfl
@[simp] theorem pair_second : (pair first second current).threads 1 = second := rfl
@[simp] theorem pair_current : (pair first second current).current 0 = some current := rfl

theorem pair_other {t : Nat} (notFirst : t ≠ 0) (notSecond : t ≠ 1) (notIdle : t ≠ idleThread) :
    (pair first second current).threads t = ⟨false, .notInitialized, 0, 0, none, none⟩ := by
  simp [pair, notFirst, notSecond, notIdle]

@[simp] theorem pair_modifyFirst (write : Thread → Thread) :
    (pair first second current).modifyThread 0 write = pair (write first) second current := by
  simp only [pair, modifyThread, ThreadTable.mk.injEq, and_true]
  funext t
  by_cases same : t = 0
  · simp [same]
  · simp [same]

@[simp] theorem pair_modifySecond (write : Thread → Thread) :
    (pair first second current).modifyThread 1 write = pair first (write second) current := by
  simp only [pair, modifyThread, ThreadTable.mk.injEq, and_true]
  funext t
  by_cases same : t = 1
  · simp [same]
  · simp [same]

@[simp] theorem pair_setCurrent (next : Nat) :
    (pair first second current).setCurrent 0 (some next) = pair first second next := by
  simp [pair, setCurrent]

theorem pair_orderFirst (isFirst : first.id = 0) :
    (pair first second current).scanOrder (some 0) = [] ++ 1 :: List.range' 2 298 := by
  have front : List.range' 1 299 = 1 :: List.range' 2 298 := rfl
  simp [scanOrder, isFirst, maxNumThreads, front]

theorem pair_orderSecond (isSecond : second.id = 1) :
    (pair first second current).scanOrder (some 1) = List.range' 2 298 ++ 0 :: [] := by
  have back : List.range 1 = [0] := rfl
  simp [scanOrder, isSecond, maxNumThreads, back]

theorem pair_notRunnable {t : Nat} (notFirst : t ≠ 0) (notSecond : t ≠ 1)
    (notIdle : t ≠ idleThread) : ¬(pair first second current).Runnable t := by
  simp [Runnable, status, pair_other first second current notFirst notSecond notIdle]

@[simp] theorem pair_sleepFirst (channel : Channel) :
    (pair first second current).fallAsleep 0 channel =
      pair { first with canWakeup := false, status := .sleeping, sleepChannel := some channel }
        second current := by
  simp [fallAsleep, sleepSetChannel, sleepSetStatus, setStatus, sleepSetCanWakeup]

@[simp] theorem pair_sleepSecond (channel : Channel) :
    (pair first second current).fallAsleep 1 channel =
      pair first
        { second with canWakeup := false, status := .sleeping, sleepChannel := some channel }
        current := by
  simp [fallAsleep, sleepSetChannel, sleepSetStatus, setStatus, sleepSetCanWakeup]

@[simp] theorem pair_wakeup (channel : Channel) :
    (pair first second current).wakeup channel =
      pair (first.wake channel) (second.wake channel) current := by
  have threads : ((pair first second current).wakeup channel).threads =
      (pair (first.wake channel) (second.wake channel) current).threads := by
    funext t
    rw [wakeup_threads]
    by_cases isFirst : t = 0
    · subst isFirst
      simp [Sleeps, status, Thread.wake, maxNumThreads]
    · by_cases isSecond : t = 1
      · subst isSecond
        simp [Sleeps, status, Thread.wake, maxNumThreads]
      · by_cases isIdle : t = idleThread
        · subst isIdle
          simp [pair, idleThread, maxNumThreads]
        · simp [Sleeps, status, pair_other _ _ _ isFirst isSecond isIdle]
  exact ThreadTable.ext threads (wakeup_procs _ channel) (wakeup_current _ channel)

end Pair

/-- A CPU switches from a sleeping thread to the first runnable one. -/
theorem invokeScheduler_switch {s : ThreadTable} {cpu iRip t i : Nat} {before after : List Nat}
    (old : s.current cpu = some t) (notIdle : t ≠ idleThread) (sleeping : s.status t = .sleeping)
    (order : s.scanOrder (some t) = before ++ i :: after) (none : ∀ j ∈ before, ¬s.Runnable j)
    (other : i ≠ t) (runnable : s.Runnable i) (context : (s.threads i).iRip ≠ 0) :
    s.invokeScheduler cpu iRip =
      .ok ((s.modifyThread t fun thread =>
        { thread with status := .wakeupReady, iRip := iRip }).schedule cpu i .running) := by
  have switched : scan cpu (some t) iRip (i :: after) s =
      .ok (true, (s.modifyThread t fun thread =>
        { thread with status := .wakeupReady, iRip := iRip }).schedule cpu i .running) := by
    rw [scan]
    rcases runnable with ready | ⟨waiting, canWakeup⟩
    · simp [ready, saveThreadContext, notIdle, sleeping, bind, Except.bind, pure, Except.pure,
        other, context]
    · have still : (s.setStatus i .ready).status t = .sleeping := by
        simpa [status, other.symm] using sleeping
      have nowReady : (s.setStatus i .ready).status i = .ready := by simp [status]
      have same : (((s.setStatus i .ready).modifyThread t fun thread =>
          { thread with status := .wakeupReady, iRip := iRip }).schedule cpu i .running) =
          (s.modifyThread t fun thread =>
            { thread with status := .wakeupReady, iRip := iRip }).schedule cpu i .running := by
        refine ThreadTable.ext ?_ rfl rfl
        funext u
        by_cases isNew : u = i
        · subst isNew
          simp [schedule, other]
        · by_cases isOld : u = t
          · subst isOld
            simp [schedule, isNew]
          · simp [schedule, isNew, isOld]
      rw [← same]
      simp [waiting, canWakeup, saveThreadContext, notIdle, still, nowReady, bind, Except.bind,
        pure, Except.pure, other, context]
  rw [invokeScheduler, old, order, scan_append none, switched]
  rfl

/-- A CPU whose thread sleeps stays if nothing is runnable. -/
theorem invokeScheduler_stay {s : ThreadTable} {cpu iRip t : Nat} (old : s.current cpu = some t)
    (sleeping : s.status t = .sleeping) (none : ∀ j ∈ s.scanOrder (some t), ¬s.Runnable j) :
    s.invokeScheduler cpu iRip = .ok s := by
  rw [invokeScheduler, old, scan_none none]
  simp [bind, Except.bind, pure, Except.pure, sleeping]

end ThreadTable

namespace SleepSystem

def Moves (lockOf : Channel → Nat) (allowed : SleepSystem → Event → Prop)
    (s s' : SleepSystem) : Prop :=
  ∃ event, Step lockOf s event s' ∧ allowed s event

abbrev Run (lockOf : Channel → Nat) (allowed : SleepSystem → Event → Prop) :
    SleepSystem → SleepSystem → Prop :=
  Relation.ReflTransGen (Moves lockOf allowed)

variable {lockOf : Channel → Nat} {allowed : SleepSystem → Event → Prop}

theorem Inv.of_reachable {s : SleepSystem} (reached : Reachable Start (Moves lockOf allowed) s) :
    s.Inv lockOf := by
  refine reached.invariant (fun s start => start.inv) ?_
  rintro s s' inv ⟨event, moved, -⟩
  exact inv.step moved

@[simp] theorem wakerTo_wakerTo (s : SleepSystem) (w : Nat) (first second : Waker) :
    (s.wakerTo w first).wakerTo w second = s.wakerTo w second := by
  simp [wakerTo]

section Other

variable (other : ∀ s, allowed s .other)

include other

/-- A thread comes to the end of its test and finds the condition false. -/
theorem run_test {s : SleepSystem} {t : Nat} {channel : Channel} (runs : s.Runs t)
    (outside : s.place t = .outside) (free : s.lock (lockOf channel) = none)
    (notYet : s.holds channel = false) :
    Run lockOf allowed s
      { s with
        place := Function.update s.place t .setChannel
        channel := Function.update s.channel t channel
        lock := Function.update s.lock (lockOf channel) (some (.thread t)) } := by
  have entered : Run lockOf allowed s
      { s.goto t .acquire with channel := Function.update s.channel t channel } :=
    .single ⟨.other, .enter channel runs outside, other _⟩
  have acquired := entered.tail ⟨.other,
    .acquire (t := t) runs (.inl (by simp)) (by simpa using free), other _⟩
  have tested := acquired.tail ⟨.other, .testFalse (t := t) runs (by simp) (by
    refine (holds_congr (s := s) ?_ ?_ _).trans ?_
    · rfl
    · rfl
    · simpa using notYet), other _⟩
  simpa [goto, setLock] using tested

/-- A thread that has found the condition false registers and comes to its INT3. -/
theorem run_register {s : SleepSystem} {t : Nat} (runs : s.Runs t)
    (place : s.place t = .setChannel) :
    Run lockOf allowed s
      { s with
        table := s.table.fallAsleep t (s.channel t)
        place := Function.update s.place t .int3
        lock := Function.update s.lock (lockOf (s.channel t)) none } := by
  have channel : Run lockOf allowed s
      ({ s with table := s.table.sleepSetChannel t (s.channel t) }.goto t .setStatus) :=
    .single ⟨.other, .setChannel runs place, other _⟩
  have status := channel.tail ⟨.other, .setStatus (t := t) runs (by simp), other _⟩
  have canWakeup := status.tail ⟨.other, .setCanWakeup (t := t) runs (by simp), other _⟩
  have released := canWakeup.tail ⟨.other, .release (t := t) runs (by simp), other _⟩
  have checked := released.tail ⟨.other, .checkSleeping (t := t) runs (by simp)
    (by simp [ThreadTable.status, ThreadTable.sleepSetCanWakeup, ThreadTable.sleepSetStatus]),
    other _⟩
  simpa [goto, setLock, ThreadTable.fallAsleep] using checked

theorem run_sleep {s : SleepSystem} {t : Nat} {channel : Channel} (runs : s.Runs t)
    (outside : s.place t = .outside) (free : s.lock (lockOf channel) = none)
    (notYet : s.holds channel = false) :
    Run lockOf allowed s
      { s with
        table := s.table.fallAsleep t channel
        place := Function.update s.place t .int3
        channel := Function.update s.channel t channel } := by
  have registered := (run_test other runs outside free notYet).trans
    (run_register other (t := t) runs (by simp))
  have unlocked : Function.update s.lock (lockOf channel) none = s.lock := by
    rw [← free, Function.update_eq_self]
  simpa [unlocked] using registered

variable (pass : ∀ s channel t, allowed s (.pass channel t))

include pass

theorem run_round {s : SleepSystem} {w i : Nat} {channel : Channel}
    (visit : s.waker w = .visit channel i) (inside : i < maxNumThreads) :
    Run lockOf allowed s
      { s.wakerTo w (.visit channel (i + 1)) with table := s.table.wakeThread channel i } := by
  by_cases asleep : s.table.status i = .sleeping ∨ s.table.status i = .wakeupReady
  · have first : Run lockOf allowed s (s.wakerTo w (.visitChannel channel i)) :=
      .single ⟨.other, .visitAsleep visit inside asleep, other _⟩
    by_cases on : (s.table.threads i).sleepChannel = some channel
    · have second := first.tail ⟨.other, .visitHere (w := w) (by simp) on, other _⟩
      have third := second.tail ⟨_, .visitWrite (w := w)
        (show SleepSystem.waker _ w = .visitWrite channel i by simp), pass _ _ _⟩
      have sleeps : s.table.Sleeps channel i := ⟨asleep, on⟩
      simpa [ThreadTable.wakeThread, sleeps] using third
    · have second := first.tail ⟨_, .visitElsewhere (w := w) (by simp) on, pass _ _ _⟩
      have sleeps : ¬s.table.Sleeps channel i := fun sleeps => on sleeps.2
      simpa [ThreadTable.wakeThread, sleeps, wakerTo] using second
  · have first : Run lockOf allowed s (s.wakerTo w (.visit channel (i + 1))) :=
      .single ⟨_, .visitAwake visit inside asleep, pass _ _ _⟩
    have sleeps : ¬s.table.Sleeps channel i := fun sleeps => asleep sleeps.1
    simpa [ThreadTable.wakeThread, sleeps, wakerTo] using first

theorem run_wakeup {s : SleepSystem} {w : Nat} {channel : Channel}
    (visit : s.waker w = .visit channel 0) :
    Run lockOf allowed s
      { s.wakerTo w (.finished channel) with
        table := s.table.wakeup channel
        procLock := none } := by
  have loop : ∀ n ≤ maxNumThreads, Run lockOf allowed s
      { s.wakerTo w (.visit channel n) with
        table := (List.range n).foldl (fun table t => table.wakeThread channel t) s.table } := by
    intro n inside
    induction n with
    | zero =>
      have same : s.wakerTo w (.visit channel 0) = s := by
        rw [wakerTo, ← visit, Function.update_eq_self]
      simpa [same] using Relation.ReflTransGen.refl
    | succ n inductionHypothesis =>
      have before := inductionHypothesis (Nat.le_of_succ_le inside)
      have round := before.trans
        (run_round other pass (show SleepSystem.waker _ w = .visit channel n by simp) inside)
      simpa [List.range_succ, wakerTo] using round
  have ended := (loop maxNumThreads (Nat.le_refl _)).tail
    ⟨.other, .visitEnd (show SleepSystem.waker _ w = .visit channel maxNumThreads by simp),
      other _⟩
  simpa [wakerTo, ThreadTable.wakeup] using ended

/-- A waker takes the lock, sets the condition, releases the lock and calls `Wakeup`. -/
theorem run_waker {s : SleepSystem} {w a : Nat} (idle : s.waker w = .idle)
    (free : s.lock (lockOf (.object a)) = none) (unlocked : s.procLock = none) :
    Run lockOf allowed s
      { s with
        table := s.table.wakeup (.object a)
        cond := Function.update s.cond a true } := by
  have entered : Run lockOf allowed s (s.wakerTo w (.acquire a)) :=
    .single ⟨.other, .wakerEnter a idle, other _⟩
  have acquired := entered.tail
    ⟨.other, .wakerAcquire (w := w) (a := a) (by simp) free, other _⟩
  have condition := acquired.tail ⟨.other, .wakerSet (w := w) (a := a) (by simp), other _⟩
  have released := condition.tail
    ⟨.other, .wakerRelease (w := w) (a := a) (.inl (by simp)) (by simp), other _⟩
  have begun := released.tail
    ⟨.other, .wakeupBegin (w := w) (a := a) (by simp) unlocked, other _⟩
  have woken := begun.trans
    (run_wakeup other pass (show SleepSystem.waker _ w = .visit (.object a) 0 by simp))
  have done := woken.tail
    ⟨.other, .wakerDone (show SleepSystem.waker _ w = .finished (.object a) by simp) (by simp),
      other _⟩
  have sameWaker : Function.update s.waker w .idle = s.waker := by
    rw [← idle, Function.update_eq_self]
  have sameLock : Function.update s.lock (lockOf (.object a)) none = s.lock := by
    rw [← free, Function.update_eq_self]
  simpa [wakerTo, setLock, sameWaker, sameLock, unlocked] using done

theorem run_exit {s : SleepSystem} {w : Nat} (p : Nat) (idle : s.waker w = .idle)
    (unlocked : s.procLock = none) :
    Run lockOf allowed s
      { s.wakerTo w (.finished (.process p)) with
        table := (s.table.modifyProc p fun proc => { proc with state := .exited }).wakeup
          (.process p) } := by
  have begun : Run lockOf allowed s
      { s.wakerTo w (.exiting p) with procLock := some w } :=
    .single ⟨.other, .exitBegin p idle unlocked, other _⟩
  have exited := begun.tail ⟨.other, .exitSet (w := w) (p := p) (by simp), other _⟩
  have woken := exited.trans
    (run_wakeup other pass (show SleepSystem.waker _ w = .visit (.process p) 0 by simp))
  simpa [wakerTo, unlocked] using woken

end Other

end SleepSystem

end SwagOS.Kernel
