import SwagOS.DataStructures.LinkedList.Fifo
import SwagOS.Fs.BufferCache

/-!
# The IDE driver

`drivers/ide.c`: threads that hold the sleeplock of a buffer call `iderw` and wait until
the interrupt handler has completed their request.  Each section under `ide_lock` is one
step; a thread in the loop of `iderw` wakes up when it finds its buffer valid and clean,
and sleeping is taking no step.

A request is the record that `iderw` allocates for it, and after `kfree` no one looks at
it again.  The drive raises one interrupt for each command, with any status.
-/

namespace SwagOS.Drivers

open SwagOS.Lib SwagOS.DataStructures SwagOS.Fs

def bsize : Nat := 512

def fssize : Nat := 129024

abbrev BlockData := Fin bsize → UInt8

/-- What the drive finds in its registers. -/
structure Command where
  device : Nat
  sector : Nat
  /-- The data of a write command. -/
  written : Option BlockData

/-- The drive with its two disks. -/
structure Drive where
  disk : Nat → Nat → BlockData
  /-- The command that was given and whose interrupt was not yet handled. -/
  executing : Option Command
  /-- Its interrupt, once raised, and whether the status has `IDE_DF` or `IDE_ERR`. -/
  interrupt : Option Bool

namespace Drive

def start (drive : Drive) (command : Command) : Drive :=
  { drive with executing := some command, interrupt := none }

def idewait (drive : Drive) : Bool := drive.interrupt != some true

/-- `insl` reads what the command has transferred; without a command the bus floats. -/
def insl (drive : Drive) : BlockData :=
  match drive.executing with
  | some command => drive.disk command.device command.sector
  | none => fun _ => 0xff

end Drive

def idestart (b : Iobuf) (data : BlockData) : Outcome Command :=
  if b.blockno ≥ fssize then throw (.panic "incorrect blockno")
  else
    let sector := b.blockno
    pure {
      device := b.dev % 2
      sector := sector % 2 ^ 8 + sector / 2 ^ 8 % 2 ^ 8 * 2 ^ 8 +
        sector / 2 ^ 16 % 2 ^ 8 * 2 ^ 16 + sector / 2 ^ 24 % 2 ^ 4 * 2 ^ 24
      written := if b.dirty then some data else none }

/-- Where a thread stands in `iderw`, with its buffer and its request. -/
inductive IdePlace where
  | outside
  /-- The request is allocated, and `ide_lock` not yet taken. -/
  | entered (b r : Nat)
  /-- The thread waits in the loop. -/
  | waiting (b r : Nat)

def IdePlace.In : IdePlace → Nat → Nat → Prop
  | .outside, _, _ => False
  | .entered b r, c, q => b = c ∧ r = q
  | .waiting b r, c, q => b = c ∧ r = q

/-- The driver, the drive and the threads that use them.  The last three fields record
the requests in the order of their arrival in the queue, of their start and of their
completion. -/
structure IdeSystem where
  buf : Nat → Iobuf
  data : Nat → BlockData
  /-- `ide_request_queue.queue`; a record holds its `buf`. -/
  queue : Dll Nat
  drive : Drive
  disk1 : Bool
  place : Tid → IdePlace
  arrived : List Nat
  started : List Nat
  completed : List Nat

namespace IdeSystem

def goto (s : IdeSystem) (t : Tid) (place : IdePlace) : IdeSystem :=
  { s with place := Function.update s.place t place }

/-- `IDE_QUEUE_ITEM(entry)->buf` -/
def request (s : IdeSystem) (r : Nat) : Nat := (s.queue.records r).data

def startRequest (s : IdeSystem) (r : Nat) : Outcome IdeSystem := do
  let command ← idestart (s.buf (s.request r)) (s.data (s.request r))
  pure { s with drive := s.drive.start command, started := s.started ++ [r] }

/-- `iderw` from the acquisition of `ide_lock` to the loop. -/
def iderw (s : IdeSystem) (b r : Nat) : Outcome IdeSystem := do
  let queue ← (s.queue.modify r fun _ => b).insertDllEntryTail r
  let s := { s with
    queue := { queue with entryCount := (queue.entryCount + 1) % 2 ^ 32 }
    arrived := s.arrived ++ [r] }
  match s.queue.first with
  | .record first => if s.request first = b then s.startRequest first else pure s
  | _ => throw (.panic "Page Fault Interrupt")

def ideintr (s : IdeSystem) : Outcome IdeSystem :=
  if s.queue.entryCount = 0 then pure s
  else
    let (entry, queue) := s.queue.removeDllEntryHead
    let queue := { queue with entryCount := (queue.entryCount + (2 ^ 32 - 1)) % 2 ^ 32 }
    match entry with
    | none =>
        throw (.panic "ideintr() --> got NULL dll_Entry! Condition should not exist.\n")
    | some r =>
        let b := (queue.records r).data
        let s := { s with
          queue := queue
          data := if !(s.buf b).dirty && s.drive.idewait then
              Function.update s.data b s.drive.insl
            else s.data
          buf := Function.update s.buf b { s.buf b with valid := true, dirty := false }
          drive := { s.drive with executing := none, interrupt := none }
          completed := s.completed ++ [r] }
        if s.queue.entryCount ≠ 0 then
          match s.queue.first with
          | .record next => s.startRequest next
          | _ => throw (.panic "Page Fault Interrupt")
        else pure s

def InIderw (s : IdeSystem) (b : Nat) : Prop := ∃ t r, (s.place t).In b r

def SameRequest (a b : Iobuf) : Prop := { a with refcnt := b.refcnt } = b

/-- The effect of a command that the drive has finished.  A failed write leaves any data in
its sector. -/
inductive Finished (disk : Nat → Nat → BlockData) (command : Command) :
    Bool → (Nat → Nat → BlockData) → Prop where
  | read (error : Bool) : command.written = none → Finished disk command error disk
  | write (data : BlockData) : command.written = some data →
      Finished disk command false (Function.update disk command.device
        (Function.update (disk command.device) command.sector data))
  | writeFailed (data : BlockData) : command.written ≠ none →
      Finished disk command true (Function.update disk command.device
        (Function.update (disk command.device) command.sector data))

inductive Event where
  /-- The handler runs. -/
  | ideintr
  | other

inductive Step : IdeSystem → Event → IdeSystem → Prop where
  -- Whatever the holders of buffers and the cache do, they leave the buffers of others in
  -- `iderw` alone, reference counts apart.
  | use {s : IdeSystem} (buf : Nat → Iobuf) (data : Nat → BlockData) :
      (∀ b, s.InIderw b → SameRequest (buf b) (s.buf b) ∧ data b = s.data b) →
      Step s .other { s with buf := buf, data := data }
  | enter {s : IdeSystem} {t : Tid} {b : Nat} :
      s.place t = .outside → b < nbuf → (s.buf b).lock.holdingsleep t = true →
      ¬((s.buf b).valid = true ∧ (s.buf b).dirty = false) →
      (s.buf b).dev = 0 ∨ s.disk1 = true →
      Step s .other ({ s with queue := s.queue.kalloc.2 }.goto t (.entered b s.queue.kalloc.1))
  | iderw {s s' : IdeSystem} {t : Tid} {b r : Nat} :
      s.place t = .entered b r → s.iderw b r = .ok s' →
      Step s .other (s'.goto t (.waiting b r))
  | finish {s : IdeSystem} {command : Command} {error : Bool} {disk : Nat → Nat → BlockData} :
      s.drive.executing = some command → s.drive.interrupt = none →
      Finished s.drive.disk command error disk →
      Step s .other { s with drive := { s.drive with disk := disk, interrupt := some error } }
  | ideintr {s s' : IdeSystem} {error : Bool} :
      s.drive.interrupt = some error → s.ideintr = .ok s' → Step s .ideintr s'
  | leave {s : IdeSystem} {t : Tid} {b r : Nat} :
      s.place t = .waiting b r → (s.buf b).valid = true → (s.buf b).dirty = false →
      Step s .other (s.goto t .outside)

/-- No one uses the driver yet. -/
structure Start (s : IdeSystem) : Prop where
  queue : ∃ records, s.queue = Dll.empty records
  idle : s.drive.executing = none ∧ s.drive.interrupt = none
  outside : ∀ t, s.place t = .outside
  arrived : s.arrived = []
  started : s.started = []
  completed : s.completed = []

end IdeSystem

end SwagOS.Drivers
