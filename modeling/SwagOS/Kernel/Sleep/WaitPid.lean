import SwagOS.Kernel.Sleep.Stranded

/-!
# Waiting for a process

`SYSHANDLER_waitpid` tests the state of the process under `pid_wait_spinlock`, and
`SYSHANDLER_exit` sets it under `proc_table.lock`.  So the exit may come between the test
and the registration of the waiter.  What counts is where the waiter stands when the loop
of `NoLockWakeup` passes it.
-/

namespace SwagOS.Kernel.SleepSystem

open SwagOS.Lib

/-- Process `p` has exited and woken everyone, and thread `t` still sleeps on it. -/
structure MissedExit (s : SleepSystem) (p t : Nat) : Prop where
  inside : t < maxNumThreads
  exited : (s.table.procs p).state = .exited
  finished : ∀ w, ¬(s.waker w).Wakes (.process p)
  registered : s.Registered t (.process p)

/-- `NoLockWakeup(p)` does not pass a thread that has tested the state of process `p` and
not yet registered. -/
def PassEvent (p : Nat) (s : SleepSystem) (event : Event) : Prop :=
  ∀ t, event = .pass (.process p) t → s.channel t = .process p → ¬(s.place t).Window

variable {lockOf : Channel → Nat}

theorem Guarded.of_reachable {p : Nat} {s : SleepSystem}
    (reached : Reachable Start (Moves lockOf (PassEvent p)) s) : s.Guarded (.process p) := by
  have both : s.Inv lockOf ∧ s.Guarded (.process p) := by
    refine reached.invariant (P := fun s => s.Inv lockOf ∧ s.Guarded (.process p)) ?_ ?_
    · exact fun s start => ⟨start.inv, start.guarded _⟩
    · rintro s s' ⟨inv, guarded⟩ ⟨event, moved, outside⟩
      exact ⟨inv.step moved, guarded.step inv.tabled inv.own moved fun t passed on window =>
        absurd window (outside t passed on)⟩
  exact both.2

/-- Runs in which no waiter is passed before it has registered miss no exit. -/
theorem waitpid_misses_no_exit {p : Nat} {s : SleepSystem}
    (reached : Reachable Start (Moves lockOf (PassEvent p)) s) (t : Nat) :
    ¬s.MissedExit p t := by
  intro missed
  have guarded := Guarded.of_reachable reached
  rcases guarded.registered t missed.inside missed.registered with never | ⟨w, pending⟩
  · simp [holds, missed.exited] at never
  · exact missed.finished w pending.wakes

def waitingForExit : SleepSystem :=
  { twoAwake with
    table := twoAwake.table.fallAsleep 0 (.process 0)
    place := Function.update twoAwake.place 0 .int3
    channel := Function.update twoAwake.channel 0 (.process 0) }

theorem waitpid_misses_no_exit_waiting : ¬waitingForExit.MissedExit 0 0 := by
  have reached : Reachable Start (Moves ownLock (PassEvent 0)) waitingForExit :=
    (Reachable.base twoAwake_start).run
      (@run_sleep ownLock (PassEvent 0) (fun s t passed => by cases passed) twoAwake 0
        (.process 0) ⟨by decide, 0, rfl⟩ rfl rfl rfl)
  exact waitpid_misses_no_exit reached 0

/-- Process 0 exits after thread 0 has tested its state, and before it registers. -/
theorem exit_missed :
    ¬∀ p s, Reachable Start (Moves ownLock fun _ _ => True) s → ∀ t, ¬s.MissedExit p t := by
  intro never
  have tested := (Reachable.base twoAwake_start).run
    (@run_test ownLock (fun _ _ => True) (fun _ => trivial) twoAwake 0 (.process 0)
      ⟨by decide, 0, rfl⟩ rfl rfl rfl)
  have exited := tested.run (@run_exit ownLock (fun _ _ => True) (fun _ => trivial)
    (fun _ _ _ => trivial) _ 0 0 rfl rfl)
  have registered := exited.run (@run_register ownLock (fun _ _ => True) (fun _ => trivial) _ 0
    ⟨by decide, 0, by simp [twoAwake, meeting]⟩ (by simp))
  refine never 0 _ registered 0 ⟨by decide, ?_, fun w => ?_, ?_⟩
  · simp [ThreadTable.fallAsleep, ThreadTable.sleepSetCanWakeup, ThreadTable.sleepSetStatus,
      ThreadTable.sleepSetChannel]
  · by_cases only : w = 0
    · subst only
      simp [Waker.Wakes]
    · simp [only, Waker.Wakes, twoAwake, meeting]
  · simp [Registered, ThreadTable.fallAsleep, ThreadTable.sleepSetCanWakeup,
      ThreadTable.sleepSetStatus, ThreadTable.sleepSetChannel, ThreadTable.status]

end SwagOS.Kernel.SleepSystem
