import Mathlib.Tactic.SplitIfs
import SwagOS.Kernel.Sleep.Runs

/-!
# Stranded sleepers

When nothing else is ready, the scheduler returns to a thread that sleeps.  The thread
then clears its channel and goes on, still marked sleeping and with `can_wakeup` false.
If it is switched out before it sleeps again, it waits for a `Wakeup` on a channel that
it no longer names, and no one will ever run it.  This is the only way to lose a
wakeup on an object.
-/

namespace SwagOS.Kernel

open SwagOS.Lib

/-- A `Wakeup` for the channel is to be called or has not finished. -/
def Waker.Wakes : Waker → Channel → Prop
  | .notify a, channel => channel = .object a
  | .visit c _, channel => c = channel
  | .visitChannel c _, channel => c = channel
  | .visitWrite c _, channel => c = channel
  | _, _ => False

theorem Waker.Pending.wakes {waker : Waker} {channel : Channel} {t : Nat}
    (pending : waker.Pending channel t) : waker.Wakes channel := by
  cases waker with
  | notify a => exact pending
  | visit c i => exact pending.1
  | visitChannel c i => exact pending.1
  | visitWrite c i => exact pending.1
  | _ => exact pending.elim

namespace SleepSystem

/-- Thread `t` will never run again although nothing is left to wait for. -/
structure Stranded (s : SleepSystem) (t : Nat) : Prop where
  inside : t < maxNumThreads
  notCurrent : ∀ cpu, s.table.current cpu ≠ some t
  status : s.table.status t = .wakeupReady
  canWakeup : (s.table.threads t).canWakeup = false
  /-- Its condition, which is that of an object, holds and every `Wakeup` has finished. -/
  done : ∃ a, s.channel t = .object a ∧ s.cond a = true ∧
    ∀ w, ¬(s.waker w).Wakes (.object a)

/-- If the thread of the CPU is one that the scheduler returned to while it slept, then
again nothing else is ready. -/
def Calm (s : SleepSystem) (cpu : Nat) : Prop :=
  ∀ t, s.table.current cpu = some t → t ≠ idleThread → s.table.status t = .sleeping →
    (s.table.threads t).sleepChannel = none → (s.table.threads t).canWakeup = false →
    ∀ i < maxNumThreads, ¬s.table.Runnable i

def CalmEvent (s : SleepSystem) (event : Event) : Prop :=
  ∀ cpu, event = .schedule cpu → s.Calm cpu

def Named (s : SleepSystem) : Prop :=
  ∀ t, t ≠ idleThread → s.table.status t = .wakeupReady →
    (s.table.threads t).canWakeup = false → (s.table.threads t).sleepChannel ≠ none

theorem Named.invokeScheduler {s s' : SleepSystem} {cpu iRip : Nat} (named : s.Named)
    (tabled : s.Tabled) (calm : s.Calm cpu)
    (done : s.table.invokeScheduler cpu iRip = .ok s'.table) : s'.Named := by
  intro t notIdle state waiting
  rcases invokeScheduler_effect tabled.scheduled tabled.contexts done with
    same | ⟨i, switch⟩ | ⟨-, turned⟩
  · rw [same] at state waiting ⊢
    exact named t notIdle state waiting
  · by_cases new : t = i
    · subst new
      rw [switch.running] at state
      cases state
    · by_cases old : s.table.current cpu = some t
      · -- The thread is switched out: it slept, and if it named no channel, the CPU was calm.
        rw [(switch.out t new old notIdle).1] at state
        rw [(switch.fields t).1] at waiting
        rw [(switch.fields t).2.2.2]
        rcases tabled.scheduled.active cpu t old notIdle with running | sleeping
        · rw [running] at state
          cases state
        · intro unnamed
          exact calm t old notIdle sleeping unnamed waiting i switch.inside switch.runnable
      · have same := switch.others t new (.inl old)
        rw [ThreadTable.status, same] at state
        rw [same] at waiting ⊢
        exact named t notIdle state waiting
  · have same : s'.table.threads t = s.table.threads t := by
      rw [turned]
      simp [ThreadTable.schedule, notIdle]
    rw [ThreadTable.status, same] at state
    rw [same] at waiting ⊢
    exact named t notIdle state waiting

/-- A thread that executes writes to itself only, and does not wait to be woken. -/
theorem Named.write {s s' : SleepSystem} {t : Nat} (named : s.Named) (tabled : s'.Tabled)
    (runs : s'.Runs t) (others : ∀ u, u ≠ t → s'.table.threads u = s.table.threads u) :
    s'.Named := by
  intro u notIdle state waiting
  by_cases same : u = t
  · subst same
    obtain ⟨-, cpu, isCurrent⟩ := runs
    rcases tabled.scheduled.active cpu u isCurrent notIdle with running | sleeping
    · rw [running] at state
      cases state
    · rw [sleeping] at state
      cases state
  · rw [ThreadTable.status, others u same] at state
    rw [others u same] at waiting ⊢
    exact named u notIdle state waiting

variable {lockOf : Channel → Nat}

theorem Named.step {s s' : SleepSystem} {event : Event} (named : s.Named) (inv : s.Inv lockOf)
    (moved : Step lockOf s event s') (calm : s.CalmEvent event) : s'.Named := by
  have tabled := (inv.step moved).tabled
  cases moved with
  | timer _ _ done => exact named.invokeScheduler inv.tabled (calm _ rfl) done
  | int3 _ _ _ _ _ _ done => exact named.invokeScheduler inv.tabled (calm _ rfl) done
  | @setChannel t runs =>
    exact named.write tabled runs fun u other => by simp [ThreadTable.sleepSetChannel, other]
  | @setStatus t runs =>
    exact named.write tabled runs fun u other => by simp [ThreadTable.sleepSetStatus, other]
  | @setCanWakeup t runs =>
    exact named.write tabled runs fun u other => by simp [ThreadTable.sleepSetCanWakeup, other]
  | @clearChannel t runs =>
    exact named.write tabled runs fun u other => by simp [ThreadTable.sleepClearChannel, other]
  | @visitWrite w i =>
    intro u notIdle state waiting
    by_cases same : u = i
    · subst same
      simp at waiting
    · simp only [ThreadTable.status, ThreadTable.modifyThread_threads,
        Function.update_of_ne same] at state waiting ⊢
      exact named u notIdle state waiting
  | _ => exact named

theorem Named.of_reachable {s : SleepSystem}
    (reached : Reachable Start (Moves lockOf CalmEvent) s) : s.Named := by
  have both : s.Inv lockOf ∧ s.Named := by
    refine reached.invariant (P := fun s => s.Inv lockOf ∧ s.Named) ?_ ?_
    · intro s start
      refine ⟨start.inv, fun t _ state => ?_⟩
      exact absurd state (start.awake t).2.1
    · rintro s s' ⟨inv, named⟩ ⟨event, moved, calm⟩
      exact ⟨inv.step moved, named.step inv moved calm⟩
  exact both.2

/-- Runs with calm CPUs strand no one. -/
theorem no_stranded_sleeper {s : SleepSystem}
    (reached : Reachable Start (Moves lockOf CalmEvent) s) (t : Nat) : ¬s.Stranded t := by
  have inv := Inv.of_reachable reached
  intro stranded
  obtain ⟨a, on, holds, finished⟩ := stranded.done
  have named := Named.of_reachable reached t (Nat.ne_of_lt stranded.inside) stranded.status
    stranded.canWakeup
  have registered : s.Registered t (.object a) := by
    refine ⟨?_, stranded.canWakeup, .inr stranded.status⟩
    rw [inv.own t, on] at named ⊢
    cases place : s.place t <;> simp [place, Place.sleepChannel] at named ⊢
  rcases (inv.objects a).registered t stranded.inside registered with never | ⟨w, pending⟩
  · cases holds.symm.trans never
  · exact finished w pending.wakes

def meeting (first second : Thread) (current : Nat) (firstPlace secondPlace : Place)
    (cond : Nat → Bool) : SleepSystem where
  table := .pair first second current
  place := Function.update (Function.update (fun _ => .outside) 1 secondPlace) 0 firstPlace
  channel := .object
  waker := fun _ => .idle
  lock := fun _ => none
  procLock := none
  cond := cond

def twoAwake : SleepSystem :=
  meeting ⟨true, .running, 0, 1, none, none⟩ ⟨true, .ready, 1, 1, none, none⟩ 0
    .outside .outside fun _ => false

theorem twoAwake_start : twoAwake.Start where
  scheduled := by
    have only : ∀ cpu t, twoAwake.table.current cpu = some t → cpu = 0 ∧ t = 0 := by
      intro cpu t isCurrent
      by_cases first : cpu = 0
      · subst first
        exact ⟨rfl, by simpa [twoAwake, meeting] using isCurrent.symm⟩
      · simp [twoAwake, meeting, ThreadTable.pair, first] at isCurrent
    refine ⟨fun cpu t isCurrent _ => ?_, fun c d t first second _ => ?_, fun t => ?_⟩
    · rw [(only cpu t isCurrent).2]
      exact .inl rfl
    · rw [(only c t first).1, (only d t second).1]
    · left
      simp only [twoAwake, meeting, ThreadTable.pair]
      split_ifs <;> simp [idleThread, maxNumThreads]
  contexts := by
    intro t _
    simp only [twoAwake, meeting, ThreadTable.pair, ThreadTable.status]
    split_ifs <;> simp
  awake := by
    intro t
    simp only [twoAwake, meeting, ThreadTable.pair, ThreadTable.status]
    split_ifs <;> simp
  outside := by
    intro t
    simp only [twoAwake, meeting, Function.update_apply]
    split_ifs <;> rfl
  idle := fun _ => rfl
  unlocked := fun _ => rfl
  procLock := rfl

def ownLock : Channel → Nat
  | .object a => 2 * a
  | .process p => 2 * p + 1

def firstAsleep : SleepSystem :=
  meeting ⟨false, .wakeupReady, 0, 7, none, some (.object 0)⟩ ⟨true, .running, 1, 1, none, none⟩ 1
    .clearChannel .outside fun _ => false

theorem firstAsleep_run {allowed : SleepSystem → Event → Prop} (other : ∀ s, allowed s .other)
    (named : ∀ s cpu, (∀ t, s.table.current cpu = some t →
      (s.table.threads t).sleepChannel ≠ none) → allowed s (.schedule cpu)) :
    Run ownLock allowed twoAwake firstAsleep := by
  have slept : Run ownLock allowed twoAwake
      (meeting ⟨false, .sleeping, 0, 1, none, some (.object 0)⟩
        ⟨true, .ready, 1, 1, none, none⟩ 0 .int3 .outside fun _ => false) := by
    have run := @run_sleep ownLock allowed other twoAwake 0 (.object 0) ⟨by decide, 0, rfl⟩
      rfl rfl rfl
    simpa [twoAwake, meeting] using run
  have switched := slept.tail ⟨.schedule 0, .int3 (t := 0) (by decide) rfl rfl rfl rfl
    (show 7 ≠ 0 by decide) (ThreadTable.invokeScheduler_switch rfl (by decide) rfl
      (ThreadTable.pair_orderFirst _ _ _ rfl) (by simp) (by decide) (.inl rfl) (by simp [meeting])),
      named _ _ (by
        rintro t ⟨⟩
        simp [meeting])⟩
  simpa [firstAsleep, meeting, goto, ThreadTable.schedule, ThreadTable.setStatus] using switched

theorem no_stranded_sleeper_first_asleep : ¬firstAsleep.Stranded 0 := by
  have reached : Reachable Start (Moves ownLock CalmEvent) firstAsleep := by
    refine (Reachable.base twoAwake_start).run (firstAsleep_run (fun s cpu never => ?_) ?_)
    · cases never
    · rintro s cpu named cpu' ⟨⟩ t isCurrent _ _ unnamed
      exact absurd unnamed (named t isCurrent)
  exact no_stranded_sleeper reached 0

/-- Thread 1 sleeps on its object until the scheduler returns to it, and no one can wake
it when thread 0 runs again. -/
theorem second_thread_stranded :
    ¬∀ s, Reachable Start (Moves ownLock fun _ _ => True) s → ∀ t, ¬s.Stranded t := by
  intro never
  have first : Reachable Start (Moves ownLock fun _ _ => True) firstAsleep :=
    (Reachable.base twoAwake_start).run (firstAsleep_run (fun _ => trivial) fun _ _ _ => trivial)
  -- Thread 1 sleeps too, and its INT3 finds nothing to switch to.
  have slept : Reachable Start (Moves ownLock fun _ _ => True)
      (meeting ⟨false, .wakeupReady, 0, 7, none, some (.object 0)⟩
        ⟨false, .sleeping, 1, 1, none, some (.object 1)⟩ 1 .clearChannel .int3 fun _ => false) := by
    have run := first.run (@run_sleep ownLock (fun _ _ => True) (fun _ => trivial) firstAsleep 1
      (.object 1) ⟨by decide, 0, rfl⟩ rfl rfl rfl)
    simpa [firstAsleep, meeting, Function.update_comm] using run
  have alone : ∀ j ∈ List.range' 2 298, ∀ first second : Thread,
      ¬(ThreadTable.pair first second 1).Runnable j := by
    intro j inside first second
    rw [List.mem_range'_1] at inside
    exact ThreadTable.pair_notRunnable _ _ _ (by omega) (by omega)
      (by simp only [idleThread, maxNumThreads]; omega)
  have returned : Reachable Start (Moves ownLock fun _ _ => True)
      (meeting ⟨false, .wakeupReady, 0, 7, none, some (.object 0)⟩
        ⟨false, .sleeping, 1, 1, none, none⟩ 1 .clearChannel .reacquire fun _ => false) := by
    have stayed := slept.next ⟨.schedule 0, .int3 (t := 1) (by decide) rfl rfl rfl rfl
      (show 7 ≠ 0 by decide) (ThreadTable.invokeScheduler_stay (t := 1) rfl rfl ?_), trivial⟩
    · have cleared := stayed.next ⟨_, .clearChannel (t := 1) ⟨by decide, 0, rfl⟩ rfl, trivial⟩
      simpa [meeting, goto, ThreadTable.sleepClearChannel, Function.update_comm] using cleared
    · intro j visited
      rw [meeting, ThreadTable.pair_orderSecond _ _ _ rfl] at visited
      rcases List.mem_append.mp visited with later | isFirst
      · exact alone j later _ _
      · obtain rfl : j = 0 := by simpa using isFirst
        decide
  -- Both wakers come, and the timer gives the CPU to thread 0.
  have woken : Reachable Start (Moves ownLock fun _ _ => True)
      (meeting ⟨true, .wakeupReady, 0, 7, none, some (.object 0)⟩
        ⟨false, .sleeping, 1, 1, none, none⟩ 1 .clearChannel .reacquire
        (Function.update (Function.update (fun _ => false) 1 true) 0 true)) := by
    have second := returned.run (@run_waker ownLock (fun _ _ => True) (fun _ => trivial)
      (fun _ _ _ => trivial) _ 0 1 rfl rfl rfl)
    have both := second.run (@run_waker ownLock (fun _ _ => True) (fun _ => trivial)
      (fun _ _ _ => trivial) _ 0 0 rfl rfl rfl)
    simpa [meeting, Thread.wake] using both
  have timed := woken.next ⟨.schedule 0, .timer rfl (show 7 ≠ 0 by decide)
    (ThreadTable.invokeScheduler_switch (t := 1) rfl (by decide) rfl
      (ThreadTable.pair_orderSecond _ _ _ rfl) (fun j inside => alone j inside _ _)
      (by decide) (.inr ⟨rfl, rfl⟩) (by simp [meeting])), trivial⟩
  refine never _ timed 1 ⟨by decide, fun cpu => ?_, ?_, ?_, 1, rfl, by simp [meeting], ?_⟩
  · by_cases only : cpu = 0
    · subst only
      simp [ThreadTable.schedule]
    · simp [ThreadTable.schedule, meeting, ThreadTable.pair, only]
  · simp [ThreadTable.schedule, ThreadTable.status, meeting]
  · simp [ThreadTable.schedule, meeting]
  · exact fun w wakes => wakes.elim

end SleepSystem

end SwagOS.Kernel
