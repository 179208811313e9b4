import Mathlib.Data.BitVec
import Mathlib.Logic.Function.Basic
import SwagOS.Lib.Transition

/-!
# Spinlocks

`kernel/spinlock.c` on one lock, each access to its fields a step of its own.  The held
check reads `is_locked` and `owner_cpu` one after the other, so both panics rest on what the
owner word can be while another CPU is between two of its writes: it names a CPU from the
write after its test-and-set to the write before its clear, and nobody else ever.

The interrupt flag and `cli_count` are not part of the lock; they are in `Locking`.
-/

namespace SwagOS.Kernel

open SwagOS.Lib

/-- `Spinlock` -/
structure Spinlock where
  ownerCpu : BitVec 32
  isLocked : Bool
  name : Nat → UInt8

namespace Spinlock

def nobody : BitVec 32 := BitVec.allOnes 32

/-- The id of a CPU, as it is compared with `owner_cpu`. -/
def ownerOf (id : BitVec 16) : BitVec 32 := id.setWidth 32

/-- `memcpy(lock->name, name, strlen(name))` -/
def copyName (lock : Spinlock) (name : List UInt8) : Spinlock :=
  { lock with name := fun i => name.getD i (lock.name i) }

def initSpinlock (lock : Spinlock) (name : List UInt8) : Outcome Spinlock :=
  if name.length > 15 then throw (.panic "init_Spinlock() --> name too long\n")
  else
    let lock := { lock with isLocked := false }
    let lock := { lock with ownerCpu := nobody }
    pure (lock.copyName name)

theorem ownerOf_injective : Function.Injective ownerOf := by
  intro a b same
  apply BitVec.eq_of_toNat_eq
  have values := congrArg BitVec.toNat same
  rwa [ownerOf, ownerOf, BitVec.toNat_setWidth_of_le (by decide),
    BitVec.toNat_setWidth_of_le (by decide)] at values

theorem ownerOf_ne_nobody (id : BitVec 16) : ownerOf id ≠ nobody := by
  intro same
  have values := congrArg BitVec.toNat same
  have below := id.isLt
  rw [ownerOf, nobody, BitVec.toNat_setWidth_of_le (by decide), BitVec.toNat_allOnes] at values
  omega

end Spinlock

/-- Where a CPU stands: outside the functions of the lock, before an access, or halted. -/
inductive LockPlace where
  | idle
  /-- The check of `acquire_Spinlock`. -/
  | acquireReadLocked
  | acquireReadOwner
  /-- The loop of `acquire_Spinlock`. -/
  | testAndSet
  | writeOwner
  /-- The check of `release_Spinlock`. -/
  | releaseReadLocked
  | releaseReadOwner
  | resetOwner
  | clearLocked
  /-- `encountered deadlock situation` -/
  | deadlockPanic
  /-- `tried to release a spinlock that was not held by the current CPU` -/
  | notHeldPanic
  deriving DecidableEq, Repr

/-- A lock and the CPUs that use it. -/
structure LockSystem (Cpu : Type) where
  lock : Spinlock
  place : Cpu → LockPlace
  /-- The CPU is past its test-and-set and before its clear. -/
  holds : Cpu → Bool

namespace LockSystem

variable {Cpu : Type} [DecidableEq Cpu]

def goto (s : LockSystem Cpu) (c : Cpu) (place : LockPlace) : LockSystem Cpu :=
  { s with place := Function.update s.place c place }

def setLock (s : LockSystem Cpu) (lock : Spinlock) : LockSystem Cpu :=
  { s with lock := lock }

def setHolds (s : LockSystem Cpu) (c : Cpu) (holds : Bool) : LockSystem Cpu :=
  { s with holds := Function.update s.holds c holds }

def advance (id : Cpu → BitVec 16) (s : LockSystem Cpu) (c : Cpu) : LockSystem Cpu :=
  match s.place c with
  | .acquireReadLocked => s.goto c (if s.lock.isLocked then .acquireReadOwner else .testAndSet)
  | .acquireReadOwner =>
      s.goto c (if s.lock.ownerCpu = Spinlock.ownerOf (id c) then .deadlockPanic else .testAndSet)
  | .testAndSet =>
      if s.lock.isLocked then s
      else ((s.setLock { s.lock with isLocked := true }).setHolds c true).goto c .writeOwner
  | .writeOwner => (s.setLock { s.lock with ownerCpu := Spinlock.ownerOf (id c) }).goto c .idle
  | .releaseReadLocked => s.goto c (if s.lock.isLocked then .releaseReadOwner else .notHeldPanic)
  | .releaseReadOwner =>
      s.goto c (if s.lock.ownerCpu = Spinlock.ownerOf (id c) then .resetOwner else .notHeldPanic)
  | .resetOwner => (s.setLock { s.lock with ownerCpu := Spinlock.nobody }).goto c .clearLocked
  | .clearLocked => ((s.setLock { s.lock with isLocked := false }).setHolds c false).goto c .idle
  | .idle => s
  | .deadlockPanic => s
  | .notHeldPanic => s

inductive Step (id : Cpu → BitVec 16) : LockSystem Cpu → LockSystem Cpu → Prop where
  | acquire {s : LockSystem Cpu} {c : Cpu} :
      s.place c = .idle → Step id s (s.goto c .acquireReadLocked)
  | release {s : LockSystem Cpu} {c : Cpu} :
      s.place c = .idle → Step id s (s.goto c .releaseReadLocked)
  | advance {s : LockSystem Cpu} (c : Cpu) : Step id s (s.advance id c)

/-- The lock was just initialised. -/
structure Start (s : LockSystem Cpu) : Prop where
  lock : ∃ memory name, Spinlock.initSpinlock memory name = .ok s.lock
  idle : ∀ c, s.place c = .idle
  free : ∀ c, s.holds c = false

end LockSystem

namespace LockPlace

def Unnamed : LockPlace → Prop
  | .writeOwner | .clearLocked => True
  | _ => False

def Inside : LockPlace → Prop
  | .writeOwner | .resetOwner | .clearLocked | .deadlockPanic => True
  | _ => False

def Outside : LockPlace → Prop
  | .testAndSet | .notHeldPanic => True
  | _ => False

end LockPlace

namespace LockSystem

variable {Cpu : Type} [DecidableEq Cpu]

section Fields

variable (s : LockSystem Cpu) (c : Cpu) (place : LockPlace) (lock : Spinlock) (holds : Bool)

@[simp] theorem goto_lock : (s.goto c place).lock = s.lock := rfl
@[simp] theorem goto_holds : (s.goto c place).holds = s.holds := rfl
@[simp] theorem goto_place : (s.goto c place).place = Function.update s.place c place := rfl
@[simp] theorem setHolds_lock : (s.setHolds c holds).lock = s.lock := rfl
@[simp] theorem setHolds_place : (s.setHolds c holds).place = s.place := rfl
@[simp] theorem setHolds_holds :
    (s.setHolds c holds).holds = Function.update s.holds c holds := rfl

omit [DecidableEq Cpu]

@[simp] theorem setLock_lock : (s.setLock lock).lock = lock := rfl
@[simp] theorem setLock_holds : (s.setLock lock).holds = s.holds := rfl
@[simp] theorem setLock_place : (s.setLock lock).place = s.place := rfl

end Fields

/-- What the fields of the lock say about the CPUs. -/
structure Inv (id : Cpu → BitVec 16) (s : LockSystem Cpu) : Prop where
  exclusive : ∀ c d, s.holds c = true → s.holds d = true → c = d
  locked : s.lock.isLocked = true ↔ ∃ c, s.holds c = true
  owner : ∀ c, s.lock.ownerCpu = Spinlock.ownerOf (id c) ↔
    s.holds c = true ∧ ¬(s.place c).Unnamed
  inside : ∀ c, (s.place c).Inside → s.holds c = true
  outside : ∀ c, (s.place c).Outside → s.holds c = false

variable {id : Cpu → BitVec 16} {s t : LockSystem Cpu} {c : Cpu}

section Start

omit [DecidableEq Cpu]

theorem Start.fields (start : Start s) :
    s.lock.isLocked = false ∧ s.lock.ownerCpu = Spinlock.nobody := by
  obtain ⟨memory, name, initialised⟩ := start.lock
  rw [Spinlock.initSpinlock] at initialised
  split at initialised
  · cases initialised
  · rw [← Except.ok.inj initialised]
    exact ⟨rfl, rfl⟩

theorem Start.inv (start : Start s) : Inv id s := by
  obtain ⟨unlocked, unnamed⟩ := start.fields
  constructor
  · intro c d holds
    rw [start.free c] at holds
    cases holds
  · rw [unlocked]
    constructor
    · intro locked
      cases locked
    · rintro ⟨c, holds⟩
      rw [start.free c] at holds
      cases holds
  · intro c
    rw [unnamed, start.free c]
    constructor
    · intro named
      exact absurd named.symm (Spinlock.ownerOf_ne_nobody (id c))
    · rintro ⟨⟨⟩, -⟩
  · intro c inside
    rw [start.idle c] at inside
    cases inside
  · intro c _
    exact start.free c

theorem Inv.read_owner (inv : Inv id s) (named : ¬(s.place c).Unnamed) :
    s.lock.ownerCpu = Spinlock.ownerOf (id c) ↔ s.holds c = true := by
  rw [inv.owner c]
  exact and_iff_left named

theorem Inv.read_locked (inv : Inv id s) (free : s.lock.isLocked = false) (d : Cpu) :
    s.holds d = false := by
  apply Bool.eq_false_of_not_eq_true
  intro holds
  rw [inv.locked.mpr ⟨d, holds⟩] at free
  cases free

end Start

/-- What the places say after a CPU moved on, where the others hold what they held. -/
theorem places_update {held held' : Cpu → Bool} {place : Cpu → LockPlace}
    {P : LockPlace → Prop} {value : Bool} {next : LockPlace}
    (others : ∀ d, d ≠ c → held' d = held d) (before : ∀ d, P (place d) → held d = value)
    (here : P next → held' c = value) :
    ∀ d, P (Function.update place c next d) → held' d = value := by
  intro d there
  by_cases same : d = c
  · subst same
    rw [Function.update_self] at there
    exact here there
  · rw [Function.update_of_ne same] at there
    rw [others d same]
    exact before d there

theorem Inv.goto (inv : Inv id s) {place : LockPlace} (before : ¬(s.place c).Unnamed)
    (after : ¬place.Unnamed) (inside : place.Inside → s.holds c = true)
    (outside : place.Outside → s.holds c = false) : Inv id (s.goto c place) where
  exclusive := inv.exclusive
  locked := inv.locked
  owner := by
    intro d
    rw [goto_lock, goto_holds, goto_place, inv.owner d]
    by_cases same : d = c
    · subst same
      rw [Function.update_self]
      exact and_congr_right fun _ => iff_of_true before after
    · rw [Function.update_of_ne same]
  inside := places_update (fun _ _ => rfl) inv.inside inside
  outside := places_update (fun _ _ => rfl) inv.outside outside

theorem Inv.testAndSet (inv : Inv id s) (free : s.lock.isLocked = false) :
    Inv id (((s.setLock { s.lock with isLocked := true }).setHolds c true).goto c
      .writeOwner) := by
  have others : ∀ d, d ≠ c → Function.update s.holds c true d = s.holds d := by
    intro d other
    exact Function.update_of_ne other true s.holds
  have taken : Function.update s.holds c true c = true := Function.update_self c true s.holds
  have only : ∀ d, Function.update s.holds c true d = true → d = c := by
    intro d holds
    by_contra other
    rw [others d other, inv.read_locked free d] at holds
    cases holds
  constructor
  · intro d e first second
    rw [only d first, only e second]
  · exact iff_of_true rfl ⟨c, taken⟩
  · intro d
    -- The word still names nobody: the holder has yet to write it.
    have unnamed : s.lock.ownerCpu ≠ Spinlock.ownerOf (id d) := by
      intro named
      have holds := ((inv.owner d).mp named).1
      rw [inv.read_locked free d] at holds
      cases holds
    refine iff_of_false unnamed ?_
    rintro ⟨holds, named⟩
    obtain rfl := only d holds
    apply named
    simp [LockPlace.Unnamed]
  · exact places_update others inv.inside fun _ => taken
  · exact places_update others inv.outside fun outside => outside.elim

theorem Inv.writeOwner (distinct : Function.Injective id) (inv : Inv id s)
    (here : s.place c = .writeOwner) :
    Inv id ((s.setLock { s.lock with ownerCpu := Spinlock.ownerOf (id c) }).goto c .idle) := by
  have holder : s.holds c = true := inv.inside c (by rw [here]; trivial)
  constructor
  · exact inv.exclusive
  · exact inv.locked
  · intro d
    by_cases same : d = c
    · subst same
      simp only [goto_lock, goto_holds, goto_place, setLock_lock, setLock_holds,
        Function.update_self, LockPlace.Unnamed]
      exact iff_of_true trivial ⟨holder, not_false⟩
    · refine iff_of_false ?_ ?_
      · intro named
        exact same (distinct (Spinlock.ownerOf_injective named)).symm
      · rintro ⟨holds, -⟩
        exact same (inv.exclusive d c holds holder)
  · exact places_update (fun _ _ => rfl) inv.inside fun _ => holder
  · exact places_update (fun _ _ => rfl) inv.outside fun outside => outside.elim

theorem Inv.resetOwner (inv : Inv id s) (here : s.place c = .resetOwner) :
    Inv id ((s.setLock { s.lock with ownerCpu := Spinlock.nobody }).goto c .clearLocked) := by
  have holder : s.holds c = true := inv.inside c (by rw [here]; trivial)
  constructor
  · exact inv.exclusive
  · exact inv.locked
  · intro d
    refine iff_of_false (fun named => Spinlock.ownerOf_ne_nobody (id d) named.symm) ?_
    rintro ⟨holds, named⟩
    obtain rfl := inv.exclusive d c holds holder
    apply named
    simp [LockPlace.Unnamed]
  · exact places_update (fun _ _ => rfl) inv.inside fun _ => holder
  · exact places_update (fun _ _ => rfl) inv.outside fun outside => outside.elim

theorem Inv.clearLocked (inv : Inv id s) (here : s.place c = .clearLocked) :
    Inv id (((s.setLock { s.lock with isLocked := false }).setHolds c false).goto c
      .idle) := by
  have holder : s.holds c = true := inv.inside c (by rw [here]; trivial)
  have others : ∀ d, d ≠ c → Function.update s.holds c false d = s.holds d := by
    intro d other
    exact Function.update_of_ne other false s.holds
  have released : ∀ d, Function.update s.holds c false d ≠ true := by
    intro d holds
    by_cases same : d = c
    · rw [same, Function.update_self] at holds
      cases holds
    · rw [others d same] at holds
      exact same (inv.exclusive d c holds holder)
  constructor
  · intro d e holds
    exact absurd holds (released d)
  · refine iff_of_false Bool.false_ne_true ?_
    rintro ⟨d, holds⟩
    exact released d holds
  · intro d
    refine iff_of_false ?_ fun named => released d named.1
    intro named
    obtain ⟨holds, isNamed⟩ := (inv.owner d).mp named
    obtain rfl := inv.exclusive d c holds holder
    apply isNamed
    rw [here]
    trivial
  · exact places_update others inv.inside fun inside => inside.elim
  · exact places_update others inv.outside fun outside => outside.elim

theorem Inv.advance (distinct : Function.Injective id) (inv : Inv id s) (c : Cpu) :
    Inv id (s.advance id c) := by
  rw [LockSystem.advance]
  cases here : s.place c with
  | idle | deadlockPanic | notHeldPanic => exact inv
  | acquireReadLocked =>
    have named : ¬(s.place c).Unnamed := by rw [here]; exact not_false
    dsimp only
    cases locked : s.lock.isLocked with
    | true => exact inv.goto named not_false False.elim False.elim
    | false => exact inv.goto named not_false False.elim fun _ => inv.read_locked locked c
  | acquireReadOwner =>
    have named : ¬(s.place c).Unnamed := by rw [here]; exact not_false
    dsimp only
    split
    case isTrue owner =>
      exact inv.goto named not_false (fun _ => (inv.read_owner named).mp owner) False.elim
    case isFalse other =>
      refine inv.goto named not_false False.elim fun _ => ?_
      exact Bool.eq_false_of_not_eq_true fun holds => other ((inv.read_owner named).mpr holds)
  | testAndSet =>
    dsimp only
    cases locked : s.lock.isLocked with
    | true => exact inv
    | false => exact inv.testAndSet locked
  | writeOwner => exact inv.writeOwner distinct here
  | releaseReadLocked =>
    have named : ¬(s.place c).Unnamed := by rw [here]; exact not_false
    dsimp only
    cases locked : s.lock.isLocked with
    | true => exact inv.goto named not_false False.elim False.elim
    | false => exact inv.goto named not_false False.elim fun _ => inv.read_locked locked c
  | releaseReadOwner =>
    have named : ¬(s.place c).Unnamed := by rw [here]; exact not_false
    dsimp only
    split
    case isTrue owner =>
      exact inv.goto named not_false (fun _ => (inv.read_owner named).mp owner) False.elim
    case isFalse other =>
      refine inv.goto named not_false False.elim fun _ => ?_
      exact Bool.eq_false_of_not_eq_true fun holds => other ((inv.read_owner named).mpr holds)
  | resetOwner => exact inv.resetOwner here
  | clearLocked => exact inv.clearLocked here

theorem Inv.step (distinct : Function.Injective id) (inv : Inv id s) (step : Step id s t) :
    Inv id t := by
  cases step with
  | acquire idle =>
    exact inv.goto (by rw [idle]; exact not_false) not_false False.elim False.elim
  | release idle =>
    exact inv.goto (by rw [idle]; exact not_false) not_false False.elim False.elim
  | advance c => exact inv.advance distinct c

theorem Reachable.inv (distinct : Function.Injective id)
    (reached : Reachable Start (Step id) s) : Inv id s :=
  reached.invariant (fun _ start => start.inv) fun _ _ inv step => inv.step distinct step

/-- One holder at a time, and both panics accuse rightly. -/
theorem spinlock_exclusive (distinct : Function.Injective id)
    (reached : Reachable Start (Step id) s) :
    (∀ c d, s.holds c = true → s.holds d = true → c = d) ∧
      (∀ c, s.place c = .deadlockPanic → s.holds c = true) ∧
      (∀ c, s.place c = .notHeldPanic → s.holds c = false) := by
  have inv := LockSystem.Reachable.inv distinct reached
  refine ⟨inv.exclusive, ?_, ?_⟩
  · intro c here
    exact inv.inside c (by rw [here]; trivial)
  · intro c here
    exact inv.outside c (by rw [here]; trivial)

/-- What a CPU does is not seen in the places of the others. -/
theorem advance_frame {d : Cpu} (other : d ≠ c) :
    (s.advance id c).place d = s.place d ∧ (s.advance id c).holds d = s.holds d := by
  rw [LockSystem.advance]
  cases s.place c <;> dsimp only <;> try split
  all_goals simp [Function.update_of_ne other]

omit [DecidableEq Cpu] in
/-- Initialising a lock that nobody holds changes neither field. -/
theorem Inv.initLocked (inv : Inv id s) (free : ∀ c, s.holds c = false) :
    Inv id (s.setLock { s.lock with isLocked := false }) where
  exclusive := inv.exclusive
  locked := by
    refine iff_of_false Bool.false_ne_true ?_
    rintro ⟨c, holds⟩
    rw [setLock_holds, free c] at holds
    cases holds
  owner := inv.owner
  inside := inv.inside
  outside := inv.outside

omit [DecidableEq Cpu] in
theorem Inv.initOwner (inv : Inv id s) (free : ∀ c, s.holds c = false) :
    Inv id (s.setLock { s.lock with ownerCpu := Spinlock.nobody }) where
  exclusive := inv.exclusive
  locked := inv.locked
  owner := by
    intro c
    refine iff_of_false (fun named => Spinlock.ownerOf_ne_nobody (id c) named.symm) ?_
    rintro ⟨holds, -⟩
    rw [setLock_holds, free c] at holds
    cases holds
  inside := inv.inside
  outside := inv.outside

omit [DecidableEq Cpu] in
theorem Inv.copyName (inv : Inv id s) (name : List UInt8) :
    Inv id (s.setLock (s.lock.copyName name)) :=
  ⟨inv.exclusive, inv.locked, inv.owner, inv.inside, inv.outside⟩

def bootSystem : LockSystem Bool where
  lock := { ownerCpu := Spinlock.nobody, isLocked := false, name := fun _ => 0 }
  place _ := .idle
  holds _ := false

theorem bootSystem_start : Start bootSystem := by
  refine ⟨⟨bootSystem.lock, [], ?_⟩, fun _ => rfl, fun _ => rfl⟩
  exact congrArg Except.ok rfl

def bootId (c : Bool) : BitVec 16 := if c then 1 else 0

def misused : LockSystem Bool :=
  let taken := (advance bootId · false)^[3] (bootSystem.goto false .acquireReadLocked)
  let again := (advance bootId · false)^[2] (taken.goto false .acquireReadLocked)
  (advance bootId · true)^[2] (again.goto true .releaseReadLocked)

theorem Reachable.advance {start : LockSystem Cpu → Prop} (c : Cpu) (n : Nat)
    (reached : Reachable start (Step id) s) :
    Reachable start (Step id) ((LockSystem.advance id · c)^[n] s) := by
  induction n generalizing s with
  | zero => exact reached
  | succ n inductionHypothesis => exact inductionHypothesis (reached.next (.advance c))

theorem misused_reachable : Reachable Start (Step bootId) misused := by
  have booted : Reachable Start (Step bootId) bootSystem := .base bootSystem_start
  have taken := Reachable.advance false 3 (booted.next (.acquire (c := false) rfl))
  have again := Reachable.advance false 2 (taken.next (.acquire (c := false) (by decide)))
  have released := Reachable.advance true 2 (again.next (.release (c := true) (by decide)))
  exact released

theorem spinlock_exclusive_misused :
    (misused.place false = .deadlockPanic ∧ misused.place true = .notHeldPanic) ∧
      (∀ c d, misused.holds c = true → misused.holds d = true → c = d) ∧
      (∀ c, misused.place c = .deadlockPanic → misused.holds c = true) ∧
      (∀ c, misused.place c = .notHeldPanic → misused.holds c = false) :=
  ⟨by decide, spinlock_exclusive (by decide) misused_reachable⟩

end LockSystem

end SwagOS.Kernel
