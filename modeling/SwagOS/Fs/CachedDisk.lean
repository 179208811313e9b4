import SwagOS.Drivers.Ide.Queue
import SwagOS.Fs.BufferCache.Integrity

/-!
# The cached disk

The buffer cache of `fs/buffered_io.c` on top of the driver of `drivers/ide.c`.  The steps
are those of the cache and of the driver; `bread` and `bwrite` call `iderw` where the
cache waits.  A thread changes the data of a buffer only to pass it to `bwrite`.
-/

namespace SwagOS.Fs

open SwagOS.Lib SwagOS.Drivers

/-- The cache and the driver.  The last three fields record the arguments of the `bread`
that a thread is in, what the drive last held in a block when a read of it succeeded or what
`bwrite` has written to it since, and the buffers whose last command was a read that failed. -/
structure CachedDisk where
  /-- The driver, and the buffers with their data. -/
  ide : IdeSystem
  place : Tid → Place
  selections : Tid → Nat → Nat
  held : Tid → Finset Nat
  reading : Tid → Option (Nat × Nat)
  latest : Nat → Nat → Option BlockData
  readFailed : Nat → Bool

namespace CachedDisk

def cache (s : CachedDisk) : Bcache := ⟨s.ide.buf, s.place, s.selections, s.held⟩

def withCache (s : CachedDisk) (cache : Bcache) : CachedDisk :=
  { s with
    ide := { s.ide with buf := cache.buf }
    place := cache.place
    selections := cache.selections
    held := cache.held }

/-- The call of `iderw` up to the acquisition of `ide_lock`. -/
def callIderw (s : CachedDisk) (t : Tid) (b : Nat) : CachedDisk :=
  { s with
    ide := { s.ide with queue := s.ide.queue.kalloc.2 }.goto t (.entered b s.ide.queue.kalloc.1) }

def returned (s : CachedDisk) (t : Tid) : CachedDisk :=
  { s.withCache (s.cache.goto t .outside) with reading := Function.update s.reading t none }

def record (s : CachedDisk) (b : Nat) (data : BlockData) : CachedDisk :=
  { s with
    latest := Function.update s.latest (s.ide.buf b).dev
      (Function.update (s.latest (s.ide.buf b).dev) (s.ide.buf b).blockno (some data)) }

/-- What the drive holds in the sector of a buffer's block; `b->dev & 1` selects the disk. -/
def onDisk (s : CachedDisk) (b : Nat) : BlockData :=
  s.ide.drive.disk ((s.ide.buf b).dev % 2) (s.ide.buf b).blockno

def isRead (s : CachedDisk) (b : Nat) : Bool := !(s.ide.buf b).dirty

inductive Event where
  /-- `bread` returns the buffer. -/
  | breadReturns (t : Tid) (b : Nat)
  /-- The read command for the buffer has finished with `IDE_DF` or `IDE_ERR`. -/
  | readFails (b : Nat)
  | other

inductive Step : CachedDisk → Event → CachedDisk → Prop where
  | bget {s : CachedDisk} {t : Tid} {dev blockno b : Nat} {buf : Nat → Iobuf} :
      s.place t = .outside → SwagOS.Fs.bget s.ide.buf dev blockno = .ok (b, buf) →
      Step s .other { s.withCache (({ s.cache with buf := buf }.goto t
          (.acquiring b)).setSelections t b (s.selections t b + 1)) with
        reading := Function.update s.reading t (some (dev, blockno)) }
  | acquireSleeplock {s : CachedDisk} {t : Tid} {b : Nat} :
      s.place t = .acquiring b → (s.ide.buf b).lock.isLocked = false →
      Step s .other (s.withCache (((s.cache.modify b fun buf =>
        { buf with lock := .acquire t }).goto t (.checking b)).setHeld t (insert b (s.held t))))
  | breadHit {s : CachedDisk} {t : Tid} {b : Nat} :
      s.place t = .checking b → (s.ide.buf b).valid = true →
      Step s (.breadReturns t b) (s.returned t)
  | breadMiss {s : CachedDisk} {t : Tid} {b : Nat} :
      s.place t = .checking b → (s.ide.buf b).valid = false →
      (s.ide.buf b).lock.holdingsleep t = true →
      (s.ide.buf b).dev = 0 ∨ s.ide.disk1 = true →
      Step s .other ((s.withCache (s.cache.goto t (.waiting b))).callIderw t b)
  | bwrite {s : CachedDisk} {t : Tid} {b : Nat} (data : BlockData) :
      s.place t = .outside → b < nbuf → (s.ide.buf b).lock.holdingsleep t = true →
      Step s .other ({ s.withCache (s.cache.goto t (.marking b)) with
        ide := { s.ide with data := Function.update s.ide.data b data } }.record b data)
  | bwriteDirty {s : CachedDisk} {t : Tid} {b : Nat} :
      s.place t = .marking b → (s.ide.buf b).lock.holdingsleep t = true →
      (s.ide.buf b).dev = 0 ∨ s.ide.disk1 = true →
      Step s .other ((s.withCache ((s.cache.modify b fun buf =>
        { buf with dirty := true }).goto t (.waiting b))).callIderw t b)
  | iderw {s : CachedDisk} {ide : IdeSystem} {t : Tid} {b r : Nat} :
      s.ide.place t = .entered b r → s.ide.iderw b r = .ok ide →
      Step s .other { s with ide := ide.goto t (.waiting b r) }
  | finish {s : CachedDisk} {command : Command} {error : Bool}
      {disk : Nat → Nat → BlockData} :
      s.ide.drive.executing = some command → s.ide.drive.interrupt = none →
      IdeSystem.Finished s.ide.drive.disk command error disk →
      Step s .other { s with
        ide := { s.ide with drive := { s.ide.drive with disk := disk, interrupt := some error } } }
  -- The request that completes is the last one of `completed`.
  | ideintrDone {s : CachedDisk} {ide : IdeSystem} {error : Bool} {r b : Nat} :
      s.ide.drive.interrupt = some error → s.ide.ideintr = .ok ide →
      ide.completed = s.ide.completed ++ [r] → b = s.ide.request r →
      ¬(s.isRead b = true ∧ error = true) →
      Step s .other { (if s.isRead b then s.record b (s.onDisk b) else s) with
        ide := ide
        readFailed := Function.update s.readFailed b false }
  | ideintrFailed {s : CachedDisk} {ide : IdeSystem} {r b : Nat} :
      s.ide.drive.interrupt = some true → s.ide.ideintr = .ok ide →
      ide.completed = s.ide.completed ++ [r] → b = s.ide.request r → s.isRead b = true →
      Step s (.readFails b) { s with
        ide := ide
        readFailed := Function.update s.readFailed b true }
  | breadReturns {s : CachedDisk} {t : Tid} {b r : Nat} :
      s.ide.place t = .waiting b r → (s.ide.buf b).valid = true → (s.ide.buf b).dirty = false →
      s.reading t ≠ none →
      Step s (.breadReturns t b) { s.returned t with ide := s.ide.goto t .outside }
  | bwriteReturns {s : CachedDisk} {t : Tid} {b r : Nat} :
      s.ide.place t = .waiting b r → (s.ide.buf b).valid = true → (s.ide.buf b).dirty = false →
      s.reading t = none →
      Step s .other { s.returned t with ide := s.ide.goto t .outside }
  | brelse {s : CachedDisk} {t : Tid} {b : Nat} :
      s.place t = .outside → b < nbuf → (s.ide.buf b).lock.holdingsleep t = true →
      Step s .other (s.withCache (s.cache.goto t (.releasing b)))
  | releaseSleeplock {s : CachedDisk} {t : Tid} {b : Nat} :
      s.place t = .releasing b →
      Step s .other (s.withCache (((s.cache.modify b fun buf =>
        { buf with lock := .release }).goto t (.decrementing b)).setHeld t ((s.held t).erase b)))
  | decrement {s : CachedDisk} {t : Tid} {b : Nat} :
      s.place t = .decrementing b →
      Step s .other (s.withCache (((s.cache.modify b fun buf =>
        { buf with refcnt := (buf.refcnt + (2 ^ 32 - 1)) % 2 ^ 32 }).goto t
          .outside).setSelections t b (s.selections t b - 1)))

/-- The empty cache before the first request. -/
structure Start (s : CachedDisk) : Prop where
  cache : s.cache = .binit
  ide : s.ide.Start
  reading : ∀ t, s.reading t = none
  latest : ∀ dev blockno, s.latest dev blockno = none
  readFailed : ∀ b, s.readFailed b = false

/-- What `bread` returns is the contents of the block it was asked for, and a buffer whose
read failed is not valid. -/
structure Faithful (s : CachedDisk) : Prop where
  returned : ∀ t b s', s.Step (.breadReturns t b) s' → ∃ dev blockno,
    s.reading t = some (dev, blockno) ∧ (s.ide.buf b).holdsBlock dev blockno = true ∧
      s.latest dev blockno = some (s.ide.data b)
  failed : ∀ b, s.readFailed b = true → (s.ide.buf b).valid = false

end CachedDisk

end SwagOS.Fs
