import SwagOS.Kernel.Locking.Order

/-!
# The way of a thread through the kernel

The operations of a thread between two places of its code, with what comes between them:
interrupts, other threads on its CPU, and the CPUs on which it goes on.  Where the code keeps
its sections, `cli_count` at the end is that of the CPU on which the thread was resumed last,
or of its first one, and the locks of the heap that were not given back.
-/

namespace SwagOS.Kernel

open SwagOS.Lib

inductive CpuEvent where
  | op (o : KernelOp KernelLock)
  /-- `kalloc` or `kfree` returns with the lock of the heap. -/
  | refused
  /-- The instruction `int`, and the CPU on which the thread is resumed. -/
  | slept (vector : Nat) (other : CPU)
  /-- An interrupt whose handler returns; that of a spurious one leaves `noINT` set. -/
  | interrupted (spurious : Bool)
  /-- An interrupt of the timer, and the CPU on which the thread is resumed. -/
  | preempted (other : CPU)

def CpuEvent.ops : CpuEvent → List (KernelOp KernelLock)
  | .op o => [o]
  | .refused => [.acquireSpinlock .kernelHeapLock, .releaseSpinlock .kernelHeapLock]
  | .slept vector _ => [.int vector]
  | .interrupted _ | .preempted _ => []

/-- A way through a piece of code, from its start to its end. -/
structure Way (code : KernelCode) where
  events : List CpuEvent
  runs : Code.Runs [code] (events.flatMap CpuEvent.ops)

namespace CPU

section Definitions

variable (cpu : CPU)

/-- An operation that the thread performs on the CPU.  The locks themselves are left out. -/
def perform : KernelOp KernelLock → Outcome CPU
  | .acquireSpinlock _ | .beginCopy => pure cpu.incCli
  | .releaseSpinlock _ | .leaveSpinlock | .endCopy => cpu.decCli
  | .cli => pure cpu.cli
  | .sti => pure cpu.sti
  | .noINTEnable => pure { cpu with noINT := true }
  -- `int` returns where there is no other thread to schedule.
  | .noINTDisable | .int _ => pure { cpu with noINT := false }
  | .takeSpinlock _ | .initSpinlock _ | .saveThreadContext _ | .createThread _ _ => pure cpu
  | .loadContext _ => throw .hang

/-- The CPU on which a thread is resumed: `schedule` has cleared `noINT`, and the flag comes
with the context. -/
def resume (other : CPU) : CPU := ⟨other.cliCount, false, cpu.interruptFlag⟩

def event : CpuEvent → Outcome CPU
  | .op o => cpu.perform o
  | .refused => pure cpu.incCli
  | .slept _ other => pure (cpu.resume other)
  | .interrupted spurious =>
      if cpu.interruptFlag then pure { cpu with noINT := spurious } else throw .hang
  | .preempted other => if cpu.interruptFlag then pure (cpu.resume other) else throw .hang

def follow (events : List CpuEvent) : Outcome CPU := events.foldlM event cpu

end Definitions

end CPU

namespace CpuEvent

/-- `cli_count` without the sections of the thread, after an event. -/
def count (n : Nat) : CpuEvent → Nat
  | .refused => n + 1
  | .slept _ other | .preempted other => other.cliCount
  | .op _ | .interrupted _ => n

def masks (noINT : Bool) : CpuEvent → Bool
  | .slept _ _ | .preempted _ | .op (.int _) | .op .noINTDisable => false
  | .op .noINTEnable => true
  | .interrupted spurious => spurious
  | .op _ | .refused => noINT

end CpuEvent

namespace CPU

variable {cpu cpu' : CPU} {e e' : Section KernelLock}

/-- The CPU of a thread in a section, over `n` sections of others. -/
structure Over (n : Nat) (e : Section KernelLock) (cpu : CPU) : Prop where
  cliCount : cpu.cliCount = n + e.depth
  masked : cpu.interruptFlag = true → e = .outside

variable {n : Nat}

theorem decCli_noINT (done : cpu.decCli = .ok cpu') : cpu'.noINT = cpu.noINT := by
  unfold CPU.decCli at done
  split at done
  · cases done
  split at done
  · cases done
  obtain rfl := Outcome.pure_ok.mp done
  split <;> rfl

theorem Over.incCli (inside : Over n e cpu) (depth : e'.depth = e.depth + 1) :
    Over n e' cpu.incCli where
  cliCount := by
    rw [incCli_cliCount, inside.cliCount, depth]
    rfl
  masked := by
    intro flag
    cases flag

theorem Over.decCli (inside : Over n e cpu) (depth : e.depth = e'.depth + 1)
    (done : cpu.decCli = .ok cpu') : Over n e' cpu' := by
  obtain ⟨-, counted, last⟩ := decCli_ok done
  have count : cpu'.cliCount = n + e'.depth := by
    have before := inside.cliCount
    omega
  refine ⟨count, fun flag => Section.eq_outside ?_⟩
  have none := last flag
  omega

theorem outside_resume (other : CPU) : Over other.cliCount .outside (cpu.resume other) where
  cliCount := rfl
  masked _ := rfl

/-- What an operation does that code in its sections comes to. -/
theorem Over.perform (inside : Over n e cpu) {o : KernelOp KernelLock} (nested : e.Nested o)
    (done : cpu.perform o = .ok cpu') : Over n (e.next o) cpu' := by
  cases o with
  | acquireSpinlock lock =>
    obtain rfl := Outcome.pure_ok.mp done
    exact inside.incCli (Section.depth_acquire nested)
  | beginCopy =>
    obtain rfl := Outcome.pure_ok.mp done
    exact inside.incCli Section.depth_beginCopy
  | takeSpinlock lock =>
    obtain rfl := Outcome.pure_ok.mp done
    have counted := Section.depth_take nested.1 nested.2
    refine ⟨inside.cliCount.trans (congrArg (n + ·) counted.symm), ?_⟩
    intro flag
    have passing : 0 < e.passing := nested.2
    rw [inside.masked flag] at passing
    cases passing
  | releaseSpinlock lock => exact inside.decCli (Section.depth_release nested) done
  | leaveSpinlock => exact inside.decCli (Section.depth_leave nested) done
  | endCopy => exact inside.decCli (Section.depth_endCopy nested) done
  | cli =>
    obtain rfl := Outcome.pure_ok.mp done
    exact ⟨inside.cliCount, fun flag => by cases flag⟩
  | sti =>
    obtain rfl := Outcome.pure_ok.mp done
    exact ⟨inside.cliCount, fun _ => nested⟩
  | loadContext thread => cases done
  | _ =>
    obtain rfl := Outcome.pure_ok.mp done
    exact ⟨inside.cliCount, inside.masked⟩

theorem enabled_ok {other : CPU}
    (done : (if cpu.interruptFlag then pure other else throw .hang : Outcome CPU) = .ok cpu') :
    cpu.interruptFlag = true ∧ other = cpu' := by
  split at done
  next flag => exact ⟨flag, Outcome.pure_ok.mp done⟩
  next => cases done

theorem interrupted_ok {spurious : Bool} (done : cpu.event (.interrupted spurious) = .ok cpu') :
    cpu.interruptFlag = true ∧ { cpu with noINT := spurious } = cpu' :=
  enabled_ok done

theorem preempted_ok {other : CPU} (done : cpu.event (.preempted other) = .ok cpu') :
    cpu.interruptFlag = true ∧ cpu.resume other = cpu' :=
  enabled_ok done

/-- The operations of an event, in the sections of the code, and what they come to. -/
theorem Over.event (inside : Over n e cpu) {event : CpuEvent} {ops : List (KernelOp KernelLock)}
    (permits : (sections ranked).Permits e (event.ops ++ ops) e')
    (done : cpu.event event = .ok cpu') :
    ∃ between, Over (event.count n) between cpu' ∧ (sections ranked).Permits between ops e' := by
  cases event with
  | op o =>
    obtain ⟨⟨nested, -⟩, later⟩ := permits
    exact ⟨e.next o, inside.perform nested done, later⟩
  | refused =>
    obtain ⟨⟨new, -⟩, -, later⟩ := permits
    obtain rfl := Outcome.pure_ok.mp done
    have undone : (e.next (.acquireSpinlock .kernelHeapLock)).next
        (.releaseSpinlock .kernelHeapLock) = e := Section.ext (Finset.erase_insert new) rfl rfl
    refine ⟨e, ⟨?_, fun flag => by cases flag⟩, undone ▸ later⟩
    rw [incCli_cliCount, inside.cliCount]
    exact Nat.add_right_comm n e.depth 1
  | slept vector other =>
    obtain ⟨⟨nested, -⟩, later⟩ := permits
    obtain rfl := Outcome.pure_ok.mp done
    obtain rfl : e = .outside := nested
    exact ⟨.outside, outside_resume other, later⟩
  | interrupted spurious =>
    obtain ⟨-, rfl⟩ := interrupted_ok done
    exact ⟨e, ⟨inside.cliCount, inside.masked⟩, permits⟩
  | preempted other =>
    obtain ⟨flag, rfl⟩ := preempted_ok done
    obtain rfl := inside.masked flag
    exact ⟨.outside, outside_resume other, permits⟩

theorem Over.follow {events : List CpuEvent} (inside : Over n e cpu)
    (permits : (sections ranked).Permits e (events.flatMap CpuEvent.ops) e')
    (done : cpu.follow events = .ok cpu') : Over (events.foldl CpuEvent.count n) e' cpu' := by
  unfold CPU.follow at done
  induction events generalizing n e cpu with
  | nil =>
    obtain rfl := Outcome.pure_ok.mp done
    obtain rfl : e' = e := permits
    exact inside
  | cons event rest inductionHypothesis =>
    rw [List.foldlM_cons] at done
    obtain ⟨next, here, later⟩ := Outcome.bind_ok.mp done
    obtain ⟨between, inside, permits⟩ := inside.event permits here
    exact inductionHypothesis inside permits later

theorem event_noINT {event : CpuEvent} (done : cpu.event event = .ok cpu') :
    cpu'.noINT = event.masks cpu.noINT := by
  cases event with
  | op o =>
    cases o with
    | releaseSpinlock lock => exact decCli_noINT done
    | leaveSpinlock => exact decCli_noINT done
    | endCopy => exact decCli_noINT done
    | loadContext thread => cases done
    | _ =>
      obtain rfl := Outcome.pure_ok.mp done
      rfl
  | refused =>
    obtain rfl := Outcome.pure_ok.mp done
    rfl
  | slept vector other =>
    obtain rfl := Outcome.pure_ok.mp done
    rfl
  | interrupted spurious =>
    obtain ⟨-, rfl⟩ := interrupted_ok done
    rfl
  | preempted other =>
    obtain ⟨-, rfl⟩ := preempted_ok done
    rfl

theorem follow_noINT {events : List CpuEvent} (done : cpu.follow events = .ok cpu') :
    cpu'.noINT = events.foldl CpuEvent.masks cpu.noINT := by
  unfold CPU.follow at done
  induction events generalizing cpu with
  | nil =>
    obtain rfl := Outcome.pure_ok.mp done
    rfl
  | cons event rest inductionHypothesis =>
    rw [List.foldlM_cons] at done
    obtain ⟨next, here, later⟩ := Outcome.bind_ok.mp done
    rw [inductionHypothesis later, event_noINT here]
    rfl

end CPU

namespace Way

variable {code : KernelCode} (way : Way code) {cpu cpu' : CPU}

def Taken (cpu : CPU) : Prop := ∃ cpu', cpu.follow way.events = .ok cpu'

/-- On the CPU of its last resumption, or on its first one, as many sections are open as there
were on the first: each call of the heap since then has given back its lock. -/
def Balanced (n : Nat) : Prop := way.events.foldl CpuEvent.count n = n

/-- `noINT` is clear in the end: it was, or the thread was interrupted or has slept, and the
last interrupt was not a spurious one. -/
def Unmasked (noINT : Bool) : Prop := way.events.foldl CpuEvent.masks noINT = false

/-- What a way through code that keeps its sections comes to. -/
theorem follow_eq (keeps : KernelCode.Ordered code .outside)
    (done : cpu.follow way.events = .ok cpu') :
    (cpu'.cliCount = cpu.cliCount ↔ way.Balanced cpu.cliCount) ∧
      (cpu'.noINT = false ↔ way.Unmasked cpu.noINT) := by
  have start : CPU.Over cpu.cliCount .outside cpu := ⟨rfl, fun _ => rfl⟩
  have ends := start.follow ((Code.FollowsAll.single keeps).runs way.runs) done
  unfold Balanced Unmasked
  rw [ends.cliCount, CPU.follow_noINT done]
  exact ⟨Iff.rfl, Iff.rfl⟩

end Way

end SwagOS.Kernel
