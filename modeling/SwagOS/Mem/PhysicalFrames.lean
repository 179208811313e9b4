import Mathlib.Algebra.Group.Nat.Defs
import SwagOS.Lib.Bitmap
import SwagOS.Lib.Transition

/-!
# Physical frames of 2 MB

The frame bitmap of `mem/pmm.c` and its construction from the multiboot memory
map.  A set bit marks a frame in use.  `UINT64_MAX` as the result of a request
is `none`.  The lock of the manager is released on every path through
`physical_frame_request` and is left out.

The bitmap is read as the memory behind `PhysicalPageBitmap`: words from index
512 on are not part of the array.
-/

namespace SwagOS.Mem

open SwagOS.Lib

def hugePgSize : Nat := 2 * 1024 * 1024

/-- `HUGEPGROUNDUP`, which moves an aligned address to the next frame. -/
def hugePgRoundUp (sz : Nat) : Nat :=
  (sz + hugePgSize) % 2 ^ 64 - (sz + hugePgSize) % 2 ^ 64 % hugePgSize

def hugePgRoundDown (sz : Nat) : Nat := sz - sz % hugePgSize

structure PhysicalMemoryManager where
  physicalPageBitmap : Nat → BitVec 64
  freeFramecount : Nat
  initSuccess : Bool

/-- The start of the manual index arithmetic: the number of the frame. -/
def absoluteIndex (physicalAddress : Nat) : Nat :=
  hugePgRoundDown physicalAddress / (2 * 1024 * 1024)

def innerEntryIndex (physicalAddress : Nat) : Nat := absoluteIndex physicalAddress % 64

def entryIndex (physicalAddress : Nat) : Nat :=
  (absoluteIndex physicalAddress - innerEntryIndex physicalAddress) / 64

def multibootMemoryAvailable : Nat := 1

structure MultibootMmapEntry where
  addr : Nat
  len : Nat
  type : Nat
  deriving DecidableEq, Repr

/-- The memory map tag with the entries behind it. -/
structure MultibootTagMmap where
  size : Nat
  entries : Nat → MultibootMmapEntry

namespace PhysicalMemoryManager

def pageBitmapWhiteout (pmm : PhysicalMemoryManager) : PhysicalMemoryManager :=
  { pmm with physicalPageBitmap := fun i =>
      if i < 512 then BitVec.allOnes 64 else pmm.physicalPageBitmap i }

def initPMM (pmm : PhysicalMemoryManager) : PhysicalMemoryManager := pmm.pageBitmapWhiteout

def checkPhysicalPageInUse (pmm : PhysicalMemoryManager) (physicalAddress : Nat) : Bool :=
  pmm.physicalPageBitmap (entryIndex physicalAddress) &&&
    1#64 <<< innerEntryIndex physicalAddress != 0#64

def physicalFrameCheckout (pmm : PhysicalMemoryManager) (physicalAddress : Nat) :
    Outcome PhysicalMemoryManager :=
  let entry := entryIndex physicalAddress
  let mask := 1#64 <<< innerEntryIndex physicalAddress
  if pmm.physicalPageBitmap entry &&& mask ≠ 0#64 then
    throw (.panic "physical_frame_checkout() --> attempted to checkout frame that was in use.\n")
  else
    pure { pmm with
      physicalPageBitmap :=
        Function.update pmm.physicalPageBitmap entry (pmm.physicalPageBitmap entry ||| mask)
      freeFramecount := (pmm.freeFramecount + (2 ^ 32 - 1)) % 2 ^ 32 }

def firstClear (pmm : PhysicalMemoryManager) : Option (Nat × Nat) :=
  (List.range 512).findSome? fun i =>
    (List.range 64).findSome? fun j =>
      if pmm.physicalPageBitmap i &&& 1#64 <<< j = 0#64 then some (i, j) else none

def physicalFrameRequest (pmm : PhysicalMemoryManager) :
    Outcome (Option Nat × PhysicalMemoryManager) :=
  if pmm.freeFramecount = 0 then pure (none, pmm)
  else
    match pmm.firstClear with
    | none => pure (none, pmm)
    | some (i, j) => do
        let validFrame := i * 64 * hugePgSize + j * hugePgSize
        let pmm ← pmm.physicalFrameCheckout validFrame
        if validFrame < 1024 * 1024 * 1024 then
          throw (.panic "physical_frame_request() --> returned unmovable kernel frame\n")
        else pure (some validFrame, pmm)

def checkKernelFrame (physicalFrame : Nat) : Bool := physicalFrame < 1024 * 1024 * 1024

def physicalFrameCheckin (pmm : PhysicalMemoryManager) (physicalAddress : Nat) :
    PhysicalMemoryManager :=
  let entry := entryIndex physicalAddress
  { pmm with
    physicalPageBitmap := Function.update pmm.physicalPageBitmap entry
      (pmm.physicalPageBitmap entry &&& ~~~(1#64 <<< innerEntryIndex physicalAddress))
    freeFramecount := (pmm.freeFramecount + 1) % 2 ^ 32 }

def physicalFrameFree (pmm : PhysicalMemoryManager) (frame : Nat) :
    Outcome PhysicalMemoryManager :=
  if frame % hugePgSize ≠ 0 then
    throw (.panic "physical_frame_free() --> frame not page aligned.\n")
  else if checkKernelFrame frame then
    -- Kernel frames stay marked while the manager is set up.
    if pmm.initSuccess = false then pure pmm
    else throw (.panic "physical_frame_free() --> Cannot free a frame used in a kernel section")
  else if pmm.checkPhysicalPageInUse frame = false then
    throw (.panic "physical_frame_free() --> attempted to fee an unused frame\n")
  else
    let pmm := pmm.physicalFrameCheckin frame
    if pmm.checkPhysicalPageInUse frame then throw (.panic "free failed") else pure pmm

/-- The loop of `free_hugeframe_range`.  The frame pointer wraps around, and takes
at most `2^43` values: a longer loop never ends. -/
def freeHugeframes : Nat → PhysicalMemoryManager → Nat → Nat → Outcome PhysicalMemoryManager
  | 0, _, _, _ => throw .hang
  | fuel + 1, pmm, pgFrame, finish =>
      if (pgFrame + hugePgSize) % 2 ^ 64 < finish then do
        let pmm ← pmm.physicalFrameFree pgFrame
        freeHugeframes fuel pmm ((pgFrame + hugePgSize) % 2 ^ 64) finish
      else pure pmm

def freeHugeframeRange (pmm : PhysicalMemoryManager) (start finish : Nat) :
    Outcome PhysicalMemoryManager :=
  if (finish + (2 ^ 64 - start)) % 2 ^ 64 < hugePgSize then pure pmm
  else freeHugeframes (2 ^ 43 + 1) pmm (hugePgRoundUp start) finish

/-- The loop over the entries: `entry` counts the 24-byte records passed, and
`currSize` starts at the 16 bytes of the tag itself. -/
def parseEntries (tag : MultibootTagMmap) (pmm : PhysicalMemoryManager) (entry currSize : Nat) :
    Outcome PhysicalMemoryManager :=
  if currSize < tag.size then do
    let record := tag.entries entry
    let pmm ←
      if record.type = multibootMemoryAvailable then
        pmm.freeHugeframeRange record.addr ((record.addr + record.len) % 2 ^ 64)
      else pure pmm
    parseEntries tag pmm (entry + 1) (currSize + 24)
  else pure pmm
termination_by tag.size - currSize

def parseMultibootMmapEntries (pmm : PhysicalMemoryManager) (tag : MultibootTagMmap) :
    Outcome PhysicalMemoryManager := do
  let pmm ← parseEntries tag pmm.initPMM 0 16
  pure { pmm with initSuccess := true }

end PhysicalMemoryManager

end SwagOS.Mem
