import SwagOS.Kernel.Spinlock

/-!
# The lock of a waited process

`SYSHANDLER_waitpid` holds `pid_wait_spinlock` of a process while it looks at the state of
the process, and `ThreadSleep` gives the lock up and takes it again.  Meanwhile the process
runs `exec`, which initialises the lock again under `proc_table.lock` alone, and `exit`.

The invariant says on which CPU each thread is in the code of the lock, and whether that CPU
holds it.  An initialisation keeps it exactly as long as nobody holds the lock: then it
writes what the fields have already.
-/

namespace SwagOS.Kernel

open SwagOS.Lib

inductive PidState where
  | inuse
  | exited
  deriving DecidableEq, Repr

/-- Where a thread stands; the first places are those of a waiter, the others those of the
process that is waited for. -/
inductive WaitPlace where
  | outside
  /-- `acquire_Spinlock`, in `SYSHANDLER_waitpid` or at the end of `ThreadSleep`. -/
  | acquire
  /-- Before the read of the state. -/
  | test
  /-- `release_Spinlock` in `ThreadSleep`. -/
  | sleep
  /-- In `ThreadSleep`, from the release to the second acquisition. -/
  | asleep
  /-- The last `release_Spinlock`. -/
  | leave
  /-- Before the writes of `init_Spinlock` in `ExecUserProcess`. -/
  | initLocked
  | initOwner
  | initName
  /-- The last loop of `SYSHANDLER_exit`. -/
  | exited
  deriving DecidableEq, Repr

namespace WaitPlace

def Interruptible (place : WaitPlace) : Prop :=
  place = .outside ∨ place = .asleep ∨ place = .exited
  deriving Decidable

def Locking (place : WaitPlace) : Prop :=
  place = .acquire ∨ place = .sleep ∨ place = .leave
  deriving Decidable

end WaitPlace

structure WaitSystem (Cpu Thread : Type) where
  lock : LockSystem Cpu
  place : Thread → WaitPlace
  cpu : Thread → Option Cpu
  state : PidState

namespace WaitSystem

variable {Cpu Thread : Type} [DecidableEq Cpu] [DecidableEq Thread]

def goto (s : WaitSystem Cpu Thread) (t : Thread) (place : WaitPlace) : WaitSystem Cpu Thread :=
  { s with place := Function.update s.place t place }

def setLock (s : WaitSystem Cpu Thread) (lock : LockSystem Cpu) : WaitSystem Cpu Thread :=
  { s with lock := lock }

def setCpu (s : WaitSystem Cpu Thread) (t : Thread) (cpu : Option Cpu) : WaitSystem Cpu Thread :=
  { s with cpu := Function.update s.cpu t cpu }

inductive Event where
  /-- A write of `init_Spinlock`. -/
  | init
  | other

/-- The accesses of the waiters and of the process `child`. -/
inductive Step (id : Cpu → BitVec 16) (child : Thread) :
    WaitSystem Cpu Thread → Event → WaitSystem Cpu Thread → Prop where
  | dispatch {s : WaitSystem Cpu Thread} {t : Thread} {c : Cpu} :
      s.cpu t = none → (∀ u, s.cpu u ≠ some c) → Step id child s .other (s.setCpu t (some c))
  | preempt {s : WaitSystem Cpu Thread} {t : Thread} :
      (s.place t).Interruptible → Step id child s .other (s.setCpu t none)
  -- The waiters.
  | wait {s : WaitSystem Cpu Thread} {t : Thread} {c : Cpu} :
      t ≠ child → s.cpu t = some c → s.place t = .outside ∨ s.place t = .asleep →
      Step id child s .other ((s.setLock (s.lock.goto c .acquireReadLocked)).goto t .acquire)
  | access {s : WaitSystem Cpu Thread} {t : Thread} {c : Cpu} :
      s.cpu t = some c → (s.place t).Locking →
      Step id child s .other (s.setLock (s.lock.advance id c))
  | acquired {s : WaitSystem Cpu Thread} {t : Thread} {c : Cpu} :
      s.cpu t = some c → s.place t = .acquire → s.lock.place c = .idle →
      Step id child s .other (s.goto t .test)
  | testExited {s : WaitSystem Cpu Thread} {t : Thread} {c : Cpu} :
      s.cpu t = some c → s.place t = .test → s.state = .exited →
      Step id child s .other ((s.setLock (s.lock.goto c .releaseReadLocked)).goto t .leave)
  | testInuse {s : WaitSystem Cpu Thread} {t : Thread} {c : Cpu} :
      s.cpu t = some c → s.place t = .test → s.state ≠ .exited →
      Step id child s .other ((s.setLock (s.lock.goto c .releaseReadLocked)).goto t .sleep)
  | slept {s : WaitSystem Cpu Thread} {t : Thread} {c : Cpu} :
      s.cpu t = some c → s.place t = .sleep → s.lock.place c = .idle →
      Step id child s .other (s.goto t .asleep)
  | left {s : WaitSystem Cpu Thread} {t : Thread} {c : Cpu} :
      s.cpu t = some c → s.place t = .leave → s.lock.place c = .idle →
      Step id child s .other (s.goto t .outside)
  -- The process.
  | exec {s : WaitSystem Cpu Thread} {c : Cpu} :
      s.cpu child = some c → s.place child = .outside →
      Step id child s .other (s.goto child .initLocked)
  | initLocked {s : WaitSystem Cpu Thread} :
      s.place child = .initLocked →
      Step id child s .init
        ((s.setLock (s.lock.setLock { s.lock.lock with isLocked := false })).goto child .initOwner)
  | initOwner {s : WaitSystem Cpu Thread} :
      s.place child = .initOwner →
      Step id child s .init
        ((s.setLock (s.lock.setLock { s.lock.lock with ownerCpu := Spinlock.nobody })).goto child
          .initName)
  | initName {s : WaitSystem Cpu Thread} (name : List UInt8) :
      s.place child = .initName →
      Step id child s .other
        (({ s with state := .inuse }.setLock
          (s.lock.setLock (s.lock.lock.copyName name))).goto child .outside)
  | exit {s : WaitSystem Cpu Thread} {c : Cpu} :
      s.cpu child = some c → s.place child = .outside →
      Step id child s .other ({ s with state := .exited }.goto child .exited)

/-- The process was just forked, and no thread has come to the lock. -/
structure Start (s : WaitSystem Cpu Thread) : Prop where
  lock : s.lock.Start
  outside : ∀ t, s.place t = .outside
  off : ∀ t, s.cpu t = none

section Fields

variable (s : WaitSystem Cpu Thread) (t : Thread) (place : WaitPlace) (lock : LockSystem Cpu)
  (cpu : Option Cpu)

omit [DecidableEq Cpu]

@[simp] theorem goto_lock : (s.goto t place).lock = s.lock := rfl
@[simp] theorem goto_cpu : (s.goto t place).cpu = s.cpu := rfl
@[simp] theorem goto_place : (s.goto t place).place = Function.update s.place t place := rfl
@[simp] theorem setCpu_lock : (s.setCpu t cpu).lock = s.lock := rfl
@[simp] theorem setCpu_cpu : (s.setCpu t cpu).cpu = Function.update s.cpu t cpu := rfl
@[simp] theorem setCpu_place : (s.setCpu t cpu).place = s.place := rfl

omit [DecidableEq Thread]

@[simp] theorem setLock_lock : (s.setLock lock).lock = lock := rfl
@[simp] theorem setLock_cpu : (s.setLock lock).cpu = s.cpu := rfl
@[simp] theorem setLock_place : (s.setLock lock).place = s.place := rfl

end Fields

/-- The place of a thread beside the place of its CPU in the lock, and whether the CPU holds
the lock. -/
inductive Agrees : WaitPlace → LockPlace → Bool → Prop where
  | away {place : WaitPlace} : ¬place.Locking → place ≠ .test → Agrees place .idle false
  | readLocked : Agrees .acquire .acquireReadLocked false
  | readOwner : Agrees .acquire .acquireReadOwner false
  | spin : Agrees .acquire .testAndSet false
  | writeOwner : Agrees .acquire .writeOwner true
  | acquired : Agrees .acquire .idle true
  | test : Agrees .test .idle true
  | releaseReadLocked {place : WaitPlace} :
      place = .sleep ∨ place = .leave → Agrees place .releaseReadLocked true
  | releaseReadOwner {place : WaitPlace} :
      place = .sleep ∨ place = .leave → Agrees place .releaseReadOwner true
  | resetOwner {place : WaitPlace} :
      place = .sleep ∨ place = .leave → Agrees place .resetOwner true
  | clearLocked {place : WaitPlace} :
      place = .sleep ∨ place = .leave → Agrees place .clearLocked true
  | released {place : WaitPlace} : place = .sleep ∨ place = .leave → Agrees place .idle false

theorem Agrees.of_away {place : WaitPlace} {there : LockPlace} {holds : Bool}
    (agrees : Agrees place there holds) (outside : ¬place.Locking) (untested : place ≠ .test) :
    there = .idle ∧ holds = false := by
  cases agrees with
  | away => exact ⟨rfl, rfl⟩
  | test => exact absurd rfl untested
  | readLocked | readOwner | spin | writeOwner | acquired => exact absurd (.inl rfl) outside
  | releaseReadLocked either | releaseReadOwner either | resetOwner either
  | clearLocked either | released either => exact absurd (.inr either) outside

theorem Agrees.not_panic {place : WaitPlace} {holds : Bool} :
    ¬Agrees place .notHeldPanic holds := by
  intro agrees
  cases agrees

theorem Agrees.of_interruptible {place : WaitPlace} (interruptible : place.Interruptible) :
    Agrees place .idle false := by
  rcases interruptible with rfl | rfl | rfl
  · exact .away (by decide) (by decide)
  · exact .away (by decide) (by decide)
  · exact .away (by decide) (by decide)

theorem Agrees.idle_of_interruptible {place : WaitPlace} {there : LockPlace} {holds : Bool}
    (agrees : Agrees place there holds) (interruptible : place.Interruptible) :
    there = .idle ∧ holds = false := by
  rcases interruptible with rfl | rfl | rfl
  · exact agrees.of_away (by decide) (by decide)
  · exact agrees.of_away (by decide) (by decide)
  · exact agrees.of_away (by decide) (by decide)

theorem Agrees.of_test {there : LockPlace} {holds : Bool} (agrees : Agrees .test there holds) :
    there = .idle ∧ holds = true := by
  cases agrees with
  | away _ untested => exact absurd rfl untested
  | test => exact ⟨rfl, rfl⟩
  | releaseReadLocked either | releaseReadOwner either | resetOwner either
  | clearLocked either | released either => rcases either with ⟨⟨⟩⟩ | ⟨⟨⟩⟩

theorem Agrees.of_acquired {holds : Bool} (agrees : Agrees .acquire .idle holds) :
    holds = true := by
  cases agrees with
  | away outside => exact absurd (.inl rfl) outside
  | acquired => rfl
  | released either => rcases either with ⟨⟨⟩⟩ | ⟨⟨⟩⟩

theorem Agrees.of_released {place : WaitPlace} {holds : Bool} (agrees : Agrees place .idle holds)
    (either : place = .sleep ∨ place = .leave) : holds = false := by
  cases agrees with
  | away | released => rfl
  | acquired | test => rcases either with ⟨⟨⟩⟩ | ⟨⟨⟩⟩

/-- What the threads and the CPUs know about the lock. -/
structure Inv (id : Cpu → BitVec 16) (s : WaitSystem Cpu Thread) : Prop where
  lock : s.lock.Inv id
  alone : ∀ t u c, s.cpu t = some c → s.cpu u = some c → t = u
  agrees : ∀ t c, s.cpu t = some c → Agrees (s.place t) (s.lock.place c) (s.lock.holds c)
  vacant : ∀ c, (∀ t, s.cpu t ≠ some c) → s.lock.place c = .idle ∧ s.lock.holds c = false
  off : ∀ t, s.cpu t = none → (s.place t).Interruptible

variable {id : Cpu → BitVec 16} {child : Thread} {s s' : WaitSystem Cpu Thread}
  {t : Thread} {c : Cpu} {place : WaitPlace}

omit [DecidableEq Cpu] [DecidableEq Thread] in
theorem Start.inv (start : s.Start) : Inv id s where
  lock := start.lock.inv
  alone := by
    intro t u c here
    rw [start.off t] at here
    cases here
  agrees := by
    intro t c here
    rw [start.off t] at here
    cases here
  vacant c _ := ⟨start.lock.idle c, start.lock.free c⟩
  off := by
    intro t _
    exact .inl (start.outside t)

omit [DecidableEq Cpu] in
/-- A thread moves on, and with it at most its own CPU in the lock. -/
theorem Inv.move (inv : Inv id s) (here : s.cpu t = some c) {lock : LockSystem Cpu}
    (lockInv : lock.Inv id)
    (frame : ∀ d, d ≠ c → lock.place d = s.lock.place d ∧ lock.holds d = s.lock.holds d)
    (agrees : Agrees place (lock.place c) (lock.holds c)) :
    Inv id ((s.setLock lock).goto t place) where
  lock := lockInv
  alone := inv.alone
  agrees := by
    intro u d there
    by_cases same : u = t
    · subst same
      obtain rfl := Option.some.inj (here.symm.trans there)
      rw [goto_place, Function.update_self]
      exact agrees
    · have apart : d ≠ c := by
        rintro rfl
        exact same (inv.alone u t d there here)
      rw [goto_place, Function.update_of_ne same, goto_lock, setLock_lock, (frame d apart).1,
        (frame d apart).2]
      exact inv.agrees u d there
  vacant := by
    intro d empty
    have apart : d ≠ c := by
      rintro rfl
      exact empty t here
    obtain ⟨samePlace, sameHolds⟩ := frame d apart
    rw [goto_lock, setLock_lock, samePlace, sameHolds]
    exact inv.vacant d empty
  off := by
    intro u away
    have other : u ≠ t := by
      rintro rfl
      exact Option.some_ne_none c (here.symm.trans away)
    rw [goto_place, Function.update_of_ne other]
    exact inv.off u away

omit [DecidableEq Cpu] in
theorem Inv.goto (inv : Inv id s) (here : s.cpu t = some c)
    (agrees : Agrees place (s.lock.place c) (s.lock.holds c)) : Inv id (s.goto t place) :=
  inv.move here inv.lock (fun _ _ => ⟨rfl, rfl⟩) agrees

theorem Inv.call (distinct : Function.Injective id) (inv : Inv id s) (here : s.cpu t = some c)
    {there : LockPlace} (entered : LockSystem.Step id s.lock (s.lock.goto c there))
    (agrees : Agrees place there (s.lock.holds c)) :
    Inv id ((s.setLock (s.lock.goto c there)).goto t place) := by
  refine inv.move here (inv.lock.step distinct entered) ?_ ?_
  · intro d other
    exact ⟨by simp [Function.update_of_ne other], rfl⟩
  · rw [LockSystem.goto_place, Function.update_self]
    exact agrees

/-- The places of the lock follow each other as its functions have them. -/
theorem Agrees.advance {lock : LockSystem Cpu} (inv : lock.Inv id)
    (agrees : Agrees place (lock.place c) (lock.holds c)) :
    Agrees place ((lock.advance id c).place c) ((lock.advance id c).holds c) := by
  generalize there : lock.place c = now at agrees
  generalize held : lock.holds c = holds at agrees
  rw [LockSystem.advance, there]
  cases agrees with
  | away outside untested =>
    dsimp only
    rw [there, held]
    exact .away outside untested
  | readLocked =>
    dsimp only
    rw [LockSystem.goto_place, Function.update_self, LockSystem.goto_holds, held]
    split
    · exact .readOwner
    · exact .spin
  | readOwner =>
    -- The owner word does not name a CPU that does not hold the lock.
    have other : lock.lock.ownerCpu ≠ Spinlock.ownerOf (id c) := by
      intro named
      rw [((inv.owner c).mp named).1] at held
      cases held
    dsimp only
    rw [if_neg other, LockSystem.goto_place, Function.update_self, LockSystem.goto_holds, held]
    exact .spin
  | spin =>
    dsimp only
    split
    · rw [there, held]
      exact .spin
    · simp only [LockSystem.goto_place, LockSystem.goto_holds, LockSystem.setHolds_holds,
        Function.update_self]
      exact .writeOwner
  | writeOwner =>
    simp only [LockSystem.goto_place, LockSystem.goto_holds, LockSystem.setLock_holds,
      Function.update_self, held]
    exact .acquired
  | acquired =>
    dsimp only
    rw [there, held]
    exact .acquired
  | test =>
    dsimp only
    rw [there, held]
    exact .test
  | releaseReadLocked either =>
    have locked : lock.lock.isLocked = true := inv.locked.mpr ⟨c, held⟩
    dsimp only
    rw [if_pos locked, LockSystem.goto_place, Function.update_self, LockSystem.goto_holds, held]
    exact .releaseReadOwner either
  | releaseReadOwner either =>
    have named : lock.lock.ownerCpu = Spinlock.ownerOf (id c) := by
      refine (inv.owner c).mpr ⟨held, ?_⟩
      rw [there]
      exact not_false
    dsimp only
    rw [if_pos named, LockSystem.goto_place, Function.update_self, LockSystem.goto_holds, held]
    exact .resetOwner either
  | resetOwner either =>
    simp only [LockSystem.goto_place, LockSystem.goto_holds, LockSystem.setLock_holds,
      Function.update_self, held]
    exact .clearLocked either
  | clearLocked either =>
    simp only [LockSystem.goto_place, LockSystem.goto_holds, LockSystem.setHolds_holds,
      Function.update_self]
    exact .released either
  | released either =>
    dsimp only
    rw [there, held]
    exact .released either

theorem Inv.access (distinct : Function.Injective id) (inv : Inv id s) (here : s.cpu t = some c)
    : Inv id (s.setLock (s.lock.advance id c)) := by
  have moved := inv.move here (inv.lock.advance distinct c)
    (fun d other => LockSystem.advance_frame other) ((inv.agrees t c here).advance inv.lock)
  rwa [WaitSystem.goto, setLock_place, Function.update_eq_self] at moved

omit [DecidableEq Cpu] in
theorem Inv.dispatch (inv : Inv id s) (away : s.cpu t = none) (empty : ∀ u, s.cpu u ≠ some c) :
    Inv id (s.setCpu t (some c)) where
  lock := inv.lock
  alone := by
    intro u v d first second
    rw [setCpu_cpu] at first second
    by_cases isFirst : u = t
    · by_cases isSecond : v = t
      · rw [isFirst, isSecond]
      · rw [isFirst, Function.update_self] at first
        rw [Function.update_of_ne isSecond, ← first] at second
        exact absurd second (empty v)
    · rw [Function.update_of_ne isFirst] at first
      by_cases isSecond : v = t
      · rw [isSecond, Function.update_self] at second
        rw [← second] at first
        exact absurd first (empty u)
      · rw [Function.update_of_ne isSecond] at second
        exact inv.alone u v d first second
  agrees := by
    intro u d there
    rw [setCpu_cpu] at there
    by_cases same : u = t
    · subst same
      rw [Function.update_self] at there
      obtain rfl := Option.some.inj there
      obtain ⟨idle, free⟩ := inv.vacant c empty
      rw [setCpu_place, setCpu_lock, idle, free]
      exact .of_interruptible (inv.off u away)
    · rw [Function.update_of_ne same] at there
      exact inv.agrees u d there
  vacant := by
    intro d still
    apply inv.vacant d
    intro u there
    by_cases same : u = t
    · rw [same, away] at there
      cases there
    · apply still u
      rw [setCpu_cpu, Function.update_of_ne same]
      exact there
  off := by
    intro u there
    by_cases same : u = t
    · rw [same, setCpu_cpu, Function.update_self] at there
      cases there
    · rw [setCpu_cpu, Function.update_of_ne same] at there
      exact inv.off u there

theorem Inv.preempt (inv : Inv id s) (interruptible : (s.place t).Interruptible) :
    Inv id (s.setCpu t none) where
  lock := inv.lock
  alone := by
    intro u v d first second
    rw [setCpu_cpu] at first second
    have notFirst : u ≠ t := by
      rintro rfl
      rw [Function.update_self] at first
      cases first
    have notSecond : v ≠ t := by
      rintro rfl
      rw [Function.update_self] at second
      cases second
    rw [Function.update_of_ne notFirst] at first
    rw [Function.update_of_ne notSecond] at second
    exact inv.alone u v d first second
  agrees := by
    intro u d there
    by_cases same : u = t
    · rw [same, setCpu_cpu, Function.update_self] at there
      cases there
    · rw [setCpu_cpu, Function.update_of_ne same] at there
      exact inv.agrees u d there
  vacant := by
    intro d empty
    by_cases here : s.cpu t = some d
    · exact (inv.agrees t d here).idle_of_interruptible interruptible
    · apply inv.vacant d
      intro u there
      by_cases same : u = t
      · exact here (same ▸ there)
      · apply empty u
        rw [setCpu_cpu, Function.update_of_ne same]
        exact there
  off := by
    intro u there
    by_cases same : u = t
    · rw [same]
      exact interruptible
    · rw [setCpu_cpu, Function.update_of_ne same] at there
      exact inv.off u there

omit [DecidableEq Cpu] in
/-- The process moves on; the lock has the same places and holders, whatever its fields. -/
theorem Inv.goto_child (inv : Inv id s) {lock : LockSystem Cpu} (lockInv : lock.Inv id)
    (samePlaces : lock.place = s.lock.place) (sameHolds : lock.holds = s.lock.holds)
    (before : ¬(s.place t).Locking ∧ s.place t ≠ .test ∧ ¬(s.place t).Interruptible)
    (after : ¬place.Locking ∧ place ≠ .test) : Inv id ((s.setLock lock).goto t place) := by
  cases here : s.cpu t with
  | none => exact absurd (inv.off t here) before.2.2
  | some c =>
    refine inv.move here lockInv (fun d _ => ?_) ?_
    · rw [samePlaces, sameHolds]
      exact ⟨rfl, rfl⟩
    · obtain ⟨idle, free⟩ := (inv.agrees t c here).of_away before.1 before.2.1
      rw [samePlaces, sameHolds, idle, free]
      exact .away after.1 after.2

omit [DecidableEq Cpu] [DecidableEq Thread] in
theorem Inv.setState (inv : Inv id s) (state : PidState) : Inv id { s with state := state } :=
  ⟨inv.lock, inv.alone, inv.agrees, inv.vacant, inv.off⟩

/-- `init_Spinlock` happens while nobody holds the lock. -/
def Unheld (s : WaitSystem Cpu Thread) (event : Event) : Prop :=
  match event with
  | .init => ∀ c, s.lock.holds c = false
  | .other => True

theorem Inv.step (distinct : Function.Injective id) (inv : Inv id s) {event : Event}
    (step : Step id child s event s') (allowed : s.Unheld event) : Inv id s' := by
  cases step with
  | dispatch away empty => exact inv.dispatch away empty
  | preempt interruptible => exact inv.preempt interruptible
  | @wait t c notChild here outside =>
    have idle := (inv.agrees t c here).idle_of_interruptible
      (outside.imp_right .inl)
    refine inv.call distinct here (.acquire idle.1) ?_
    rw [idle.2]
    exact .readLocked
  | access here _ => exact inv.access distinct here
  | @acquired t c here place idle =>
    refine inv.goto here ?_
    have agrees := inv.agrees t c here
    rw [place, idle] at agrees
    rw [idle, agrees.of_acquired]
    exact .test
  | @testExited t c here place _ =>
    have agrees := inv.agrees t c here
    rw [place] at agrees
    obtain ⟨idle, holds⟩ := agrees.of_test
    refine inv.call distinct here (.release idle) ?_
    rw [holds]
    exact .releaseReadLocked (.inr rfl)
  | @testInuse t c here place _ =>
    have agrees := inv.agrees t c here
    rw [place] at agrees
    obtain ⟨idle, holds⟩ := agrees.of_test
    refine inv.call distinct here (.release idle) ?_
    rw [holds]
    exact .releaseReadLocked (.inl rfl)
  | @slept t c here place idle =>
    refine inv.goto here ?_
    have agrees := inv.agrees t c here
    rw [place, idle] at agrees
    rw [idle, agrees.of_released (.inl rfl)]
    exact .away (by decide) (by decide)
  | @left t c here place idle =>
    refine inv.goto here ?_
    have agrees := inv.agrees t c here
    rw [place, idle] at agrees
    rw [idle, agrees.of_released (.inr rfl)]
    exact .away (by decide) (by decide)
  | @exec c here place =>
    refine inv.goto here ?_
    have agrees := inv.agrees child c here
    rw [place] at agrees
    obtain ⟨idle, holds⟩ := agrees.of_away (by decide) (by decide)
    rw [idle, holds]
    exact .away (by decide) (by decide)
  | initLocked place =>
    exact inv.goto_child (inv.lock.initLocked allowed) rfl rfl (by rw [place]; decide) (by decide)
  | initOwner place =>
    exact inv.goto_child (inv.lock.initOwner allowed) rfl rfl (by rw [place]; decide) (by decide)
  | initName name place =>
    exact (inv.setState .inuse).goto_child (inv.lock.copyName name) rfl rfl
      (by rw [place]; decide) (by decide)
  | @exit c here place =>
    refine (inv.setState .exited).goto here ?_
    have agrees := inv.agrees child c here
    rw [place] at agrees
    obtain ⟨idle, holds⟩ := agrees.of_away (by decide) (by decide)
    rw [idle, holds]
    exact .away (by decide) (by decide)

/-- The lock keeps its promises as long as `exec` does not initialise it while it is held. -/
theorem waitpid_exclusive (distinct : Function.Injective id)
    (reached : Reachable Start (Restricted (Step id child) Unheld) s) :
    (∀ c, s.lock.place c ≠ .notHeldPanic) ∧
      ∀ c d, s.lock.holds c = true → s.lock.holds d = true → c = d := by
  have inv : Inv id s := by
    refine reached.invariant (fun _ start => start.inv) ?_
    rintro _ _ inv ⟨event, step, allowed⟩
    exact inv.step distinct step allowed
  refine ⟨fun c panicked => ?_, inv.lock.exclusive⟩
  by_cases vacant : ∀ t, s.cpu t ≠ some c
  · rw [(inv.vacant c vacant).1] at panicked
    cases panicked
  · push Not at vacant
    obtain ⟨t, here⟩ := vacant
    have agrees := inv.agrees t c here
    rw [panicked] at agrees
    exact agrees.not_panic

def parentAndChild : WaitSystem Bool Bool where
  lock := LockSystem.bootSystem
  place _ := .outside
  cpu _ := none
  state := .inuse

theorem parentAndChild_start : Start parentAndChild :=
  ⟨LockSystem.bootSystem_start, fun _ => rfl, fun _ => rfl⟩

theorem waitpid_exclusive_early :
    ∃ s : WaitSystem Bool Bool, (s.place false = .test ∧ s.lock.holds false = true) ∧
      (∀ c, s.lock.place c ≠ .notHeldPanic) ∧
        ∀ c d, s.lock.holds c = true → s.lock.holds d = true → c = d := by
  have forked : Reachable Start (Restricted (Step LockSystem.bootId true) Unheld)
      parentAndChild := .base parentAndChild_start
  have child := forked.next
    ⟨.other, .dispatch (t := true) (c := true) rfl (by decide), trivial⟩
  have execs := child.next ⟨.other, .exec (c := true) rfl rfl, trivial⟩
  have unlocked := execs.next ⟨.init, .initLocked rfl, fun _ => rfl⟩
  have unnamed := unlocked.next ⟨.init, .initOwner rfl, fun _ => rfl⟩
  have runs := unnamed.next ⟨.other, .initName [] rfl, trivial⟩
  have both := runs.next
    ⟨.other, .dispatch (t := false) (c := false) rfl (by decide), trivial⟩
  have waits := both.next
    ⟨.other, .wait (t := false) (c := false) (by decide) rfl (.inl rfl), trivial⟩
  have checked := waits.next
    ⟨.other, .access (t := false) (c := false) rfl (by decide), trivial⟩
  have taken := checked.next
    ⟨.other, .access (t := false) (c := false) rfl (by decide), trivial⟩
  have named := taken.next
    ⟨.other, .access (t := false) (c := false) rfl (by decide), trivial⟩
  have looks := named.next ⟨.other, .acquired (t := false) (c := false) rfl rfl rfl, trivial⟩
  exact ⟨_, ⟨rfl, rfl⟩, waitpid_exclusive (by decide) looks⟩

/-- Without the condition: an initialisation under a waiter that looks at the state sends the
waiter into the panic of `release_Spinlock`. -/
theorem initLocked_panics (reached : Reachable Start (Unrestricted (Step id child)) s)
    (here : s.cpu t = some c) (looks : s.place t = .test) (execs : s.place child = .initLocked) :
    ∃ s', Reachable Start (Unrestricted (Step id child)) s' ∧
      s'.lock.place c = .notHeldPanic := by
  have apart : t ≠ child := by
    rintro rfl
    rw [looks] at execs
    cases execs
  let unlocked := (s.setLock (s.lock.setLock { s.lock.lock with isLocked := false })).goto child
    .initOwner
  have cleared : Unrestricted (Step id child) s unlocked := ⟨.init, .initLocked execs, trivial⟩
  have stillLooks : unlocked.place t = .test := by
    rw [goto_place, Function.update_of_ne apart]
    exact looks
  have releases : ∃ place, (place = .leave ∨ place = .sleep) ∧ Unrestricted (Step id child) unlocked
      ((unlocked.setLock (unlocked.lock.goto c .releaseReadLocked)).goto t place) := by
    by_cases isExited : unlocked.state = .exited
    · exact ⟨.leave, .inl rfl, .other, .testExited here stillLooks isExited, trivial⟩
    · exact ⟨.sleep, .inr rfl, .other, .testInuse here stillLooks isExited, trivial⟩
  obtain ⟨place, either, called⟩ := releases
  have locking : place.Locking := by
    rcases either with rfl | rfl
    · decide
    · decide
  let releasing := (unlocked.setLock (unlocked.lock.goto c .releaseReadLocked)).goto t place
  have accessed : Step id child releasing .other
      (releasing.setLock (releasing.lock.advance id c)) := by
    have hereNow : releasing.cpu t = some c := here
    apply Step.access hereNow
    rw [goto_place, Function.update_self]
    exact locking
  refine ⟨_, ((reached.next cleared).next called).next ⟨.other, accessed, trivial⟩, ?_⟩
  simp [LockSystem.advance, releasing, unlocked]

/-- The parent looks at the state of a child that has begun another `exec`. -/
theorem waitpid_reinitialised :
    ¬∀ s, Reachable Start (Unrestricted (Step LockSystem.bootId true)) s →
      (∀ c : Bool, s.lock.place c ≠ .notHeldPanic) ∧
        ∀ c d, s.lock.holds c = true → s.lock.holds d = true → c = d := by
  intro claim
  have forked : Reachable Start (Unrestricted (Step LockSystem.bootId true)) parentAndChild :=
    .base parentAndChild_start
  have parent := forked.next
    ⟨.other, .dispatch (t := false) (c := false) rfl (by decide), trivial⟩
  have both := parent.next ⟨.other, .dispatch (t := true) (c := true) rfl (by decide), trivial⟩
  have waits := both.next
    ⟨.other, .wait (t := false) (c := false) (by decide) rfl (.inl rfl), trivial⟩
  have checked := waits.next
    ⟨.other, .access (t := false) (c := false) rfl (by decide), trivial⟩
  have taken := checked.next
    ⟨.other, .access (t := false) (c := false) rfl (by decide), trivial⟩
  have named := taken.next
    ⟨.other, .access (t := false) (c := false) rfl (by decide), trivial⟩
  have looks := named.next ⟨.other, .acquired (t := false) (c := false) rfl rfl rfl, trivial⟩
  have execs := looks.next ⟨.other, .exec (c := true) rfl rfl, trivial⟩
  obtain ⟨s, reached, panicked⟩ :=
    initLocked_panics execs (t := false) (c := false) rfl rfl rfl
  exact (claim s reached).1 false panicked

end WaitSystem

end SwagOS.Kernel
