import SwagOS.DataStructures.LinkedList
import SwagOS.Mem.PhysicalFrames

/-!
# Physical frames of 4 KB

`mem/pmm.c` breaks a 2 MB frame into 500 frames of 4 KB.  A `HugeChunk_2mb` record
on the list of the small page manager keeps their bitmap, with four bits in each of
its 125 words.  `kalloc` does not clear a record, so its use count starts at what
the memory held.  `kfree` leaves the heap tree as it is, and no record comes back.

The lock of the manager is released on every path and is left out; each function is
one section under it.
-/

namespace SwagOS.Mem

open SwagOS.Lib SwagOS.DataStructures

def pgSize : Nat := 4096

def pgRoundDown (sz : Nat) : Nat := sz - sz % pgSize

/-- `HugeChunk_2mb` behind its list entry. -/
structure HugeChunk where
  startAddress : Nat
  useCount : BitVec 32
  frameBitmap : Nat → BitVec 32

abbrev SmallPageManager := Dll HugeChunk

/-- The physical memory manager with its `manager_4kb`. -/
structure FrameManagers where
  pmm : PhysicalMemoryManager
  manager4kb : SmallPageManager

namespace HugeChunk

def freeIndex (chunk : HugeChunk) : Option Nat :=
  if chunk.useCount < 500#32 then
    (List.range 500).find? fun i => chunk.frameBitmap (i / 4) >>> (i % 4) &&& 1#32 == 0#32
  else none

def take (chunk : HugeChunk) (i : Nat) : HugeChunk :=
  { chunk with
    frameBitmap := Function.update chunk.frameBitmap (i / 4)
      (chunk.frameBitmap (i / 4) ||| 1#32 <<< (i % 4))
    useCount := chunk.useCount + 1 }

def release (chunk : HugeChunk) (absIndex : Nat) : HugeChunk :=
  { chunk with
    frameBitmap := Function.update chunk.frameBitmap (absIndex / 4)
      (chunk.frameBitmap (absIndex / 4) &&& ~~~(1#32 <<< (absIndex % 4)))
    useCount := chunk.useCount - 1 }

/-- The test of `try_free_chunked_frame` for the chunk of an address. -/
def holds (addr : Nat) (chunk : HugeChunk) : Option Unit :=
  if chunk.startAddress ≤ addr ∧ addr < chunk.startAddress + hugePgSize then some () else none

def start (startAddress : Nat) (chunk : HugeChunk) : HugeChunk :=
  take { chunk with
    frameBitmap := fun i => if i < 125 then 0#32 else chunk.frameBitmap i
    startAddress := startAddress } 0

end HugeChunk

namespace SmallPageManager

def checkAvailableChunkedFrame (spm : SmallPageManager) :
    Outcome (Option Nat × SmallPageManager) :=
  if spm.entryCount ≠ 0 ∧ spm.first ≠ .null then do
    match ← spm.search HugeChunk.freeIndex spm.allocated spm.first with
    | some (chunk, i) =>
        let frame :=
          (spm.records chunk).data.startAddress + i % 4 * pgSize + i / 4 * 4 * pgSize
        pure (some frame, spm.modify chunk fun data => data.take i)
    | none => pure (none, spm)
  else pure (none, spm)

def tryFreeChunkedFrame (spm : SmallPageManager) (addr : Nat) :
    Outcome (Bool × SmallPageManager) :=
  if spm.entryCount ≠ 0 ∧ spm.first ≠ .null then do
    match ← spm.search (HugeChunk.holds addr) spm.allocated spm.first with
    | some (chunk, _) =>
        let absIndex := (pgRoundDown addr - (spm.records chunk).data.startAddress) / pgSize
        let spm := spm.modify chunk fun data => data.release absIndex
        if (spm.records chunk).data.useCount = 0#32 then pure (true, spm.removeDllEntry chunk)
        else pure (true, spm)
    | none => pure (false, spm)
  else pure (false, spm)

def createNewChunkedFrame (spm : SmallPageManager) (startAddress : Nat) :
    Outcome (Nat × SmallPageManager) := do
  let spm ← spm.pushHead (HugeChunk.start startAddress)
  pure (startAddress, spm)

end SmallPageManager

namespace FrameManagers

def physicalFrameRequest4kb (m : FrameManagers) : Outcome (Option Nat × FrameManagers) := do
  match ← m.manager4kb.checkAvailableChunkedFrame with
  | (some frame4kb, spm) => pure (some frame4kb, { m with manager4kb := spm })
  | (none, spm) =>
    match ← m.pmm.physicalFrameRequest with
    | (none, pmm) => pure (none, ⟨pmm, spm⟩)
    | (some frame2mb, pmm) => do
        let (frame4kb, spm) ← spm.createNewChunkedFrame frame2mb
        pure (some frame4kb, ⟨pmm, spm⟩)

def tryFreeChunkedFrame (m : FrameManagers) (address : Nat) :
    Outcome (Bool × FrameManagers) := do
  let (freed, spm) ← m.manager4kb.tryFreeChunkedFrame address
  pure (freed, { m with manager4kb := spm })

end FrameManagers

end SwagOS.Mem
