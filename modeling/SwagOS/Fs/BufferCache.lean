import Mathlib.Algebra.Group.Nat.Defs
import Mathlib.Data.Finset.Basic
import SwagOS.Lib.Transition

/-!
# The buffer cache

`fs/buffered_io.c` with the sleeplocks of `kernel/sleeplock.c`.  Each step is one
section under `bcache.lock` or under the spinlock of a sleeplock, or one access of
the thread that holds the buffer.  A thread may use several buffers at once, and
sleeping in `acquire_Sleeplock` is taking no step.

The list through `prev` and `next` is built by `binit` and read by no one, and the
data of the blocks plays no part here; both are left out.
-/

namespace SwagOS.Fs

open SwagOS.Lib

def nbuf : Nat := 0x10

abbrev Tid := Fin 301

structure Sleeplock where
  isLocked : Bool
  ownerTid : Nat

namespace Sleeplock

/-- The end of the loop in `acquire_Sleeplock`, once the lock is found open. -/
def acquire (tid : Tid) : Sleeplock := ⟨true, tid⟩

def release : Sleeplock := ⟨false, 2 ^ 32 - 1⟩

def holdingsleep (lock : Sleeplock) (tid : Tid) : Bool := lock.isLocked && lock.ownerTid == tid

end Sleeplock

/-- `struct iobuf`, with the flags `B_VALID` and `B_DIRTY`. -/
structure Iobuf where
  valid : Bool
  dirty : Bool
  dev : Nat
  blockno : Nat
  lock : Sleeplock
  refcnt : Nat

namespace Iobuf

def holdsBlock (b : Iobuf) (dev blockno : Nat) : Bool := b.dev == dev && b.blockno == blockno

def zero : Iobuf := ⟨false, false, 0, 0, ⟨false, 0⟩, 0⟩

end Iobuf

def bget (buf : Nat → Iobuf) (dev blockno : Nat) : Outcome (Nat × (Nat → Iobuf)) :=
  match (List.range nbuf).find? fun i => (buf i).holdsBlock dev blockno with
  | some i =>
      pure (i, Function.update buf i
        { buf i with refcnt := ((buf i).refcnt + 1) % 2 ^ 32 })
  | none =>
    match (List.range nbuf).find? fun i => (buf i).refcnt == 0 && !(buf i).dirty with
    | some i =>
        pure (i, Function.update buf i
          { buf i with
            dev := dev
            blockno := blockno
            valid := false
            dirty := false
            refcnt := 1 })
    | none => throw (.panic "bget: no buffers")

inductive Place where
  | outside
  /-- `bget` has selected the buffer and is in `acquire_Sleeplock`. -/
  | acquiring (b : Nat)
  /-- `bread` has the buffer and tests `B_VALID`. -/
  | checking (b : Nat)
  /-- `bwrite` is past `holdingsleep`. -/
  | marking (b : Nat)
  /-- The thread waits in `iderw`. -/
  | waiting (b : Nat)
  /-- `brelse` is past `holdingsleep`. -/
  | releasing (b : Nat)
  /-- `brelse` is past `release_Sleeplock`. -/
  | decrementing (b : Nat)
  deriving DecidableEq

/-- The cache and its users.  The last two fields only record what happened: how
often a thread has selected a buffer and not yet given up the selection, and the
sleeplocks it has acquired and not yet released. -/
structure Bcache where
  buf : Nat → Iobuf
  place : Tid → Place
  selections : Tid → Nat → Nat
  held : Tid → Finset Nat

namespace Bcache

def binit : Bcache := ⟨fun _ => .zero, fun _ => .outside, fun _ _ => 0, fun _ => ∅⟩

def modify (s : Bcache) (b : Nat) (write : Iobuf → Iobuf) : Bcache :=
  { s with buf := Function.update s.buf b (write (s.buf b)) }

def goto (s : Bcache) (t : Tid) (place : Place) : Bcache :=
  { s with place := Function.update s.place t place }

def setSelections (s : Bcache) (t : Tid) (b count : Nat) : Bcache :=
  { s with
    selections := Function.update s.selections t (Function.update (s.selections t) b count) }

def setHeld (s : Bcache) (t : Tid) (held : Finset Nat) : Bcache :=
  { s with held := Function.update s.held t held }

inductive Step : Bcache → Bcache → Prop where
  | bget {s : Bcache} {t : Tid} {dev blockno b : Nat} {buf : Nat → Iobuf} :
      s.place t = .outside → SwagOS.Fs.bget s.buf dev blockno = .ok (b, buf) →
      Step s (({ s with buf := buf }.goto t (.acquiring b)).setSelections t b
        (s.selections t b + 1))
  | acquireSleeplock {s : Bcache} {t : Tid} {b : Nat} :
      s.place t = .acquiring b → (s.buf b).lock.isLocked = false →
      Step s (((s.modify b fun buf => { buf with lock := .acquire t }).goto t
        (.checking b)).setHeld t (insert b (s.held t)))
  | breadHit {s : Bcache} {t : Tid} {b : Nat} :
      s.place t = .checking b → (s.buf b).valid = true → Step s (s.goto t .outside)
  | breadMiss {s : Bcache} {t : Tid} {b : Nat} :
      s.place t = .checking b → (s.buf b).valid = false →
      (s.buf b).lock.holdingsleep t = true → Step s (s.goto t (.waiting b))
  | bwrite {s : Bcache} {t : Tid} {b : Nat} :
      s.place t = .outside → b < nbuf → (s.buf b).lock.holdingsleep t = true →
      Step s (s.goto t (.marking b))
  | bwriteDirty {s : Bcache} {t : Tid} {b : Nat} :
      s.place t = .marking b →
      Step s ((s.modify b fun buf => { buf with dirty := true }).goto t (.waiting b))
  | ideintr {s : Bcache} {t : Tid} {b : Nat} :
      s.place t = .waiting b →
      Step s (s.modify b fun buf => { buf with valid := true, dirty := false })
  | iderw {s : Bcache} {t : Tid} {b : Nat} :
      s.place t = .waiting b → (s.buf b).valid = true → (s.buf b).dirty = false →
      Step s (s.goto t .outside)
  | brelse {s : Bcache} {t : Tid} {b : Nat} :
      s.place t = .outside → b < nbuf → (s.buf b).lock.holdingsleep t = true →
      Step s (s.goto t (.releasing b))
  | releaseSleeplock {s : Bcache} {t : Tid} {b : Nat} :
      s.place t = .releasing b →
      Step s (((s.modify b fun buf => { buf with lock := .release }).goto t
        (.decrementing b)).setHeld t ((s.held t).erase b))
  | decrement {s : Bcache} {t : Tid} {b : Nat} :
      s.place t = .decrementing b →
      Step s (((s.modify b fun buf =>
          { buf with refcnt := (buf.refcnt + (2 ^ 32 - 1)) % 2 ^ 32 }).goto t
        .outside).setSelections t b (s.selections t b - 1))

end Bcache

end SwagOS.Fs
