import SwagOS.Kernel.Sleep.Stranded
import SwagOS.Kernel.ThreadTable.RoundRobin

/-!
# The INT3 of a sleeper

`ThreadSleep` tests the status and then executes INT3, whose handler panics unless the status
is still `THREAD_STATE_SLEEPING`.  A timer interrupt before the test is harmless: the thread
comes back running and finds that out.  One between the test and the INT3 switches the sleeper
out as well, and it comes back running to the INT3.
-/

namespace SwagOS.Kernel.SleepSystem

open SwagOS.Lib ThreadTable

structure TimerStep (s : SleepSystem) (cpu : Nat) (s' : SleepSystem) : Prop where
  unlocked : s.procLock = none
  invoked : ∃ table iRip, iRip ≠ 0 ∧ s.table.invokeScheduler cpu iRip = .ok table ∧
    s' = { s with table := table }

variable {lockOf : Channel → Nat}

theorem TimerStep.step {s s' : SleepSystem} {cpu : Nat} (timer : TimerStep s cpu s') :
    Step lockOf s (.schedule cpu) s' := by
  obtain ⟨unlocked, table, iRip, context, done, rfl⟩ := timer
  exact .timer unlocked context done

/-- The steps, those of the timer with their CPU.  Another step that invokes the scheduler is an
INT3, and the thread has moved on. -/
def TimedStep (lockOf : Channel → Nat) (s : SleepSystem) (timer : Option Nat)
    (s' : SleepSystem) : Prop :=
  match timer with
  | some cpu => TimerStep s cpu s'
  | none => ∃ event, Step lockOf s event s' ∧ ∀ cpu, event = .schedule cpu → s'.place ≠ s.place

theorem timedStep_iff {s s' : SleepSystem} :
    (∃ timer, TimedStep lockOf s timer s') ↔ ∃ event, Step lockOf s event s' := by
  constructor
  · rintro ⟨_ | cpu, moved⟩
    · obtain ⟨event, moved, -⟩ := moved
      exact ⟨event, moved⟩
    · exact ⟨_, moved.step⟩
  · rintro ⟨event, moved⟩
    by_cases schedules : ∃ cpu, event = .schedule cpu
    · obtain ⟨cpu, rfl⟩ := schedules
      cases id moved with
      | timer unlocked context done =>
        exact ⟨some cpu, unlocked, _, _, context, done, rfl⟩
      | @int3 table cpu t iRip inside current place asleep unlocked context done =>
        refine ⟨none, _, moved, ?_⟩
        rintro - - same
        have moves := congrFun same t
        rw [goto_place, Function.update_self, place] at moves
        cases moves
    · exact ⟨none, event, moved, fun cpu isSchedule => absurd ⟨cpu, isSchedule⟩ schedules⟩

def Undisturbed (s : SleepSystem) (cpu : Nat) : Prop :=
  ∀ t, s.table.current cpu = some t → s.place t = .int3 →
    ∀ i < maxNumThreads, ¬s.table.Runnable i

def TimerAllowed (s : SleepSystem) (timer : Option Nat) : Prop :=
  ∀ cpu, timer = some cpu → s.Undisturbed cpu

def Marked (s : SleepSystem) : Prop :=
  ∀ t < maxNumThreads, s.place t = .int3 → s.table.status t = .sleeping

/-- The scheduler takes no sleeper, and changes the status of no thread but the one it takes
the CPU from and the one it gives it to. -/
theorem sleeping_invokeScheduler {table table' : ThreadTable} {cpu iRip t : Nat}
    (scheduled : table.Scheduled) (contexts : table.Contexts)
    (done : table.invokeScheduler cpu iRip = .ok table') (inside : t < maxNumThreads)
    (asleep : table.status t = .sleeping)
    (kept : table.current cpu = some t → ∀ i < maxNumThreads, ¬table.Runnable i) :
    table'.status t = .sleeping := by
  have notIdle : t ≠ idleThread := Nat.ne_of_lt inside
  rcases invokeScheduler_effect scheduled contexts done with rfl | ⟨i, switch⟩ | ⟨-, rfl⟩
  · exact asleep
  · by_cases old : table.current cpu = some t
    · exact absurd switch.runnable (kept old i switch.inside)
    · have different : t ≠ i := by
        rintro rfl
        rcases switch.runnable with ready | ⟨waiting, -⟩
        · rw [asleep] at ready
          cases ready
        · rw [asleep] at waiting
          cases waiting
      unfold ThreadTable.status
      rw [switch.others t different (.inl old)]
      exact asleep
  · simpa [ThreadTable.schedule, ThreadTable.status, notIdle] using asleep

theorem Marked.timer {s s' : SleepSystem} {cpu : Nat} (marked : s.Marked) (tabled : s.Tabled)
    (timer : TimerStep s cpu s') (quiet : s.Undisturbed cpu) : s'.Marked := by
  obtain ⟨-, table, iRip, -, done, rfl⟩ := timer
  intro t inside place
  have asleep := marked t inside place
  exact sleeping_invokeScheduler tabled.scheduled tabled.contexts done inside asleep
    fun current => quiet t current place

/-- A thread that is elsewhere moves to a place other than its INT3. -/
theorem Marked.moves {s s' : SleepSystem} {t : Nat} {place : Place} (marked : s.Marked)
    (elsewhere : place ≠ .int3) (moved : s'.place = Function.update s.place t place)
    (others : ∀ u, u ≠ t → s'.table.threads u = s.table.threads u) : s'.Marked := by
  intro u inside here
  rw [moved] at here
  by_cases same : u = t
  · subst same
    rw [Function.update_self] at here
    exact absurd here elsewhere
  · rw [Function.update_of_ne same] at here
    unfold ThreadTable.status
    rw [others u same]
    exact marked u inside here

theorem Marked.mono {s s' : SleepSystem} (marked : s.Marked) (places : s'.place = s.place)
    (status : ∀ u, s'.table.status u = s.table.status u) : s'.Marked := by
  intro u inside here
  rw [places] at here
  rw [status]
  exact marked u inside here

theorem Marked.step {s s' : SleepSystem} {event : Event} (marked : s.Marked) (inv : s.Inv lockOf)
    (moved : Step lockOf s event s')
    (notTimer : ∀ cpu, event = .schedule cpu → s'.place ≠ s.place) : s'.Marked := by
  cases moved with
  | timer => exact absurd rfl (notTimer _ rfl)
  | @int3 table cpu t iRip insideT current place asleep unlocked context done =>
    intro u inside here
    by_cases same : u = t
    · subst same
      simp at here
    · have asleepU := marked u inside (by simpa [same] using here)
      refine sleeping_invokeScheduler inv.tabled.scheduled inv.tabled.contexts done inside asleepU ?_
      intro currentU
      rw [current] at currentU
      exact absurd (Option.some.inj currentU).symm same
  | enter => exact marked.moves (by decide) rfl fun _ _ => rfl
  | acquire => exact marked.moves (by decide) rfl fun _ _ => rfl
  | testTrue => exact marked.moves (by decide) rfl fun _ _ => rfl
  | testFalse => exact marked.moves (by decide) rfl fun _ _ => rfl
  | setChannel =>
    refine marked.moves (by decide) rfl ?_
    intro u different
    simp [ThreadTable.sleepSetChannel, different]
  | setStatus =>
    refine marked.moves (by decide) rfl ?_
    intro u different
    simp [ThreadTable.sleepSetStatus, different]
  | setCanWakeup =>
    refine marked.moves (by decide) rfl ?_
    intro u different
    simp [ThreadTable.sleepSetCanWakeup, different]
  | release => exact marked.moves (by decide) rfl fun _ _ => rfl
  | @checkSleeping t runs place asleep =>
    -- The test: this is the only way to the INT3.
    intro u inside here
    by_cases same : u = t
    · subst same
      exact asleep
    · exact marked u inside (by simpa [same] using here)
  | checkAwake => exact marked.moves (by decide) rfl fun _ _ => rfl
  | clearChannel =>
    refine marked.moves (by decide) rfl ?_
    intro u different
    simp [ThreadTable.sleepClearChannel, different]
  | leave => exact marked.moves (by decide) rfl fun _ _ => rfl
  | leaveReset => exact marked.moves (by decide) rfl fun _ _ => rfl
  | @visitWrite w i =>
    refine marked.mono rfl ?_
    intro u
    by_cases same : u = i
    · subst same
      simp [ThreadTable.status]
    · simp [ThreadTable.status, same]
  | _ => exact marked.mono rfl fun _ => rfl

theorem Marked.timedStep {s s' : SleepSystem} {timer : Option Nat} (marked : s.Marked)
    (inv : s.Inv lockOf) (moved : TimedStep lockOf s timer s') (allowed : s.TimerAllowed timer) :
    s'.Inv lockOf ∧ s'.Marked := by
  cases timer with
  | none =>
    obtain ⟨event, moved, notTimer⟩ := moved
    exact ⟨inv.step moved, marked.step inv moved notTimer⟩
  | some cpu =>
    have undisturbed := allowed cpu rfl
    exact ⟨inv.step (TimerStep.step moved), marked.timer inv.tabled moved undisturbed⟩

theorem Start.marked {s : SleepSystem} (start : s.Start) : s.Marked := by
  intro t _ place
  rw [start.outside t] at place
  cases place

/-- In runs whose timer interrupts come to undisturbed CPUs, a thread that executes its INT3 is
marked sleeping. -/
theorem int3_sleeping {s : SleepSystem}
    (reached : Reachable Start (Restricted (TimedStep lockOf) TimerAllowed) s) {t : Nat}
    (runs : s.Runs t) (place : s.place t = .int3) : s.table.status t = .sleeping := by
  have both : s.Inv lockOf ∧ s.Marked := by
    refine reached.invariant (P := fun s => s.Inv lockOf ∧ s.Marked) ?_ ?_
    · intro s start
      exact ⟨start.inv, start.marked⟩
    · rintro s s' ⟨inv, marked⟩ ⟨timer, moved, allowed⟩
      exact marked.timedStep inv moved allowed
  exact both.2 t runs.1 place

def Unscheduled (_ : SleepSystem) (event : Event) : Prop := ∀ cpu, event ≠ .schedule cpu

theorem Moves.timed {s s' : SleepSystem} {allowed : SleepSystem → Option Nat → Prop}
    (free : ∀ s, allowed s none) (moved : Moves lockOf Unscheduled s s') :
    Restricted (TimedStep lockOf) allowed s s' := by
  obtain ⟨event, moved, unscheduled⟩ := moved
  exact ⟨none, ⟨event, moved, fun cpu same => absurd same (unscheduled cpu)⟩, free s⟩

theorem Reachable.unscheduled {s s' : SleepSystem} {allowed : SleepSystem → Option Nat → Prop}
    (free : ∀ s, allowed s none)
    (reached : Reachable Start (Restricted (TimedStep lockOf) allowed) s)
    (run : Run lockOf Unscheduled s s') :
    Reachable Start (Restricted (TimedStep lockOf) allowed) s' :=
  reached.run (Relation.ReflTransGen.mono (fun _ _ moved => Moves.timed free moved) _ _ run)

def beforeInt3 : SleepSystem :=
  meeting ⟨false, .sleeping, 0, 1, none, some (.object 0)⟩ ⟨true, .ready, 1, 1, none, none⟩ 0
    .int3 .outside fun _ => false

theorem beforeInt3_run : Run ownLock Unscheduled twoAwake beforeInt3 := by
  have run := @run_sleep ownLock Unscheduled (fun _ _ => nofun) twoAwake 0 (.object 0)
    ⟨by decide, 0, rfl⟩ rfl rfl rfl
  simpa [twoAwake, beforeInt3, meeting] using run

theorem beforeInt3_runs : beforeInt3.Runs 0 := ⟨by decide, 0, rfl⟩

theorem int3_sleeping_first : beforeInt3.table.status 0 = .sleeping := by
  have booted : Reachable Start (Restricted (TimedStep ownLock) TimerAllowed) twoAwake :=
    .base twoAwake_start
  have reached := Reachable.unscheduled (fun s cpu isTimer => by cases isTimer) booted
    beforeInt3_run
  exact int3_sleeping reached beforeInt3_runs rfl

def wokenBeforeInt3 : SleepSystem :=
  meeting ⟨true, .wakeupReady, 0, 7, none, some (.object 0)⟩ ⟨true, .running, 1, 1, none, none⟩ 1
    .int3 .outside (Function.update (fun _ => false) 0 true)

theorem wokenBeforeInt3_reachable :
    Reachable Start (Unrestricted (TimedStep ownLock)) wokenBeforeInt3 := by
  have slept : Reachable Start (Unrestricted (TimedStep ownLock)) beforeInt3 :=
    Reachable.unscheduled (fun _ => trivial) (.base twoAwake_start) beforeInt3_run
  -- The timer gives the CPU to thread 1.
  have timed := slept.next ⟨some 0, ⟨rfl, _, 7, by decide,
    invokeScheduler_switch (t := 0) rfl (by decide) rfl (pair_orderFirst _ _ _ rfl) (by simp)
      (by decide) (.inl rfl) (by simp [beforeInt3, meeting]), rfl⟩, trivial⟩
  have switched : Reachable Start (Unrestricted (TimedStep ownLock))
      (meeting ⟨false, .wakeupReady, 0, 7, none, some (.object 0)⟩
        ⟨true, .running, 1, 1, none, none⟩ 1 .int3 .outside fun _ => false) := by
    simpa [beforeInt3, meeting, ThreadTable.schedule, ThreadTable.setStatus] using timed
  have woken := Reachable.unscheduled (fun _ => trivial) switched
    (@run_waker ownLock Unscheduled (fun _ _ never => by cases never)
      (fun _ _ _ _ never => by cases never) _ 0 0 rfl rfl rfl)
  simpa [wokenBeforeInt3, meeting, Thread.wake] using woken

/-- The timer then gives the CPU back to thread 0, which executes its INT3 while it is marked
running. -/
theorem int3_running : ¬∀ s, Reachable Start (Unrestricted (TimedStep ownLock)) s →
    ∀ t, s.Runs t → s.place t = .int3 → s.table.status t = .sleeping := by
  intro always
  have only : ∀ t, wokenBeforeInt3.table.current 0 = some t → t = 1 := by
    rintro t ⟨⟩
    rfl
  have busy : wokenBeforeInt3.table.Busy 0 := by
    intro t current _
    rw [only t current]
    exact .inl rfl
  have order : wokenBeforeInt3.table.scanOrder (wokenBeforeInt3.table.current 0) =
      List.range' 2 298 ++ 0 :: [] := pair_orderSecond _ _ _ rfl
  have first : wokenBeforeInt3.table.FirstRunnable (List.range' 2 298 ++ 0 :: []) 0 := by
    refine ⟨_, _, rfl, .inr ⟨rfl, rfl⟩, ?_⟩
    intro j member
    rw [List.mem_range'_1] at member
    refine pair_notRunnable _ _ _ (by omega) (by omega) ?_
    unfold idleThread maxNumThreads
    omega
  have inside : ∀ j ∈ List.range' 2 298 ++ 0 :: [], j < maxNumThreads := by
    intro j member
    rcases List.mem_append.mp member with middle | last
    · exact (List.mem_range'_1.mp middle).2
    · rw [List.mem_singleton.mp last]
      decide
  obtain ⟨table, done, switched⟩ := invokeScheduler_takes 9 busy order inside first
    (show 7 ≠ 0 by decide)
  have bad := wokenBeforeInt3_reachable.next
    ⟨some 0, ⟨rfl, table, 9, by decide, done, rfl⟩, trivial⟩
  have runs : SleepSystem.Runs { wokenBeforeInt3 with table := table } 0 := by
    refine ⟨by decide, 0, ?_⟩
    change table.current 0 = some 0
    rw [switched.current, Function.update_self]
  have asleep : table.status 0 = .sleeping := always _ bad 0 runs rfl
  unfold ThreadTable.status at asleep
  rw [switched.chosen] at asleep
  cases asleep

end SwagOS.Kernel.SleepSystem
