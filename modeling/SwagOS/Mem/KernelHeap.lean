import Mathlib.Algebra.Group.Nat.Defs
import Mathlib.Logic.Function.Basic
import SwagOS.Lib.Transition

/-!
# The kernel heap

The buddy tree of `mem/vmm.c`.  The tree is an array in which node `i` has the
children `2i` and `2i + 1`; node `0` covers the whole heap and has only a right
child, so the lower half of the heap is handed out only as part of node `0`.

`find_heap_frame` falls off its end when both searches fail; that case is read
as the failure value, like every `UINT64_MAX` here modelled by `none`.
-/

namespace SwagOS.Mem

open SwagOS.Lib

def kernelHeapLen : Nat := 1048575

def kernelHeapMinblock : Nat := 64 * 1024

def heapFlagOccupied : Nat := 0x1

structure HeapSection where
  size : Nat
  offset : Nat
  index : Nat
  inUse : Bool
  flags : Nat
  deriving DecidableEq, Repr

/-- `flags & HEAP_FLAG_OCCUPIED` -/
def HeapSection.occupied (node : HeapSection) : Bool :=
  node.flags &&& heapFlagOccupied != 0

structure KernelHeap where
  heapTree : Nat → HeapSection
  vaStart : Nat

namespace KernelHeap

def write (heap : KernelHeap) (index : Nat) (node : HeapSection) : KernelHeap :=
  { heap with heapTree := Function.update heap.heapTree index node }

/-- `curr_section->in_use = true` -/
def markInUse (heap : KernelHeap) (index : Nat) : KernelHeap :=
  heap.write index { heap.heapTree index with inUse := true }

theorem write_heapTree (heap : KernelHeap) (index : Nat) (node : HeapSection) (i : Nat) :
    (heap.write index node).heapTree i = if i = index then node else heap.heapTree i := by
  simp [write, Function.update_apply]

end KernelHeap

/-- `va_start`, set by `kheap_init` to `KERNEL_HH_START - 2 * HUGEPGSIZE * 512`. -/
def kernelHeapStart : Nat := 0xffffffff80000000 - 2 * (2 * 1024 * 1024) * 512

def kernelHeapTreeInit (heap : KernelHeap) (currIndex blockSize offset : Nat) : KernelHeap :=
  if kernelHeapLen ≤ currIndex then heap
  else
    let heap := heap.write currIndex
      { size := blockSize, offset := offset, index := currIndex, inUse := false, flags := 0x0 }
    let heap :=
      if currIndex ≠ 0 then
        kernelHeapTreeInit heap (currIndex * 2) (blockSize / 2) offset
      else heap
    kernelHeapTreeInit heap (currIndex * 2 + 1) (blockSize / 2)
      ((offset + blockSize / 2) % 2 ^ 32)
termination_by kernelHeapLen - currIndex
decreasing_by all_goals omega

/-- First fit from a node downwards.  Nodes are marked only on the way back
from a successful search. -/
def findHeapFrame (heap : KernelHeap) (size index : Nat) : Option Nat × KernelHeap :=
  if kernelHeapLen ≤ index then (none, heap)
  else
    let currSection := heap.heapTree index
    if size > currSection.size ∨ currSection.occupied then (none, heap)
    else if currSection.size ≥ size ∧
        (currSection.size / 2 < size ∨ currSection.size = kernelHeapMinblock) ∧
        currSection.inUse = false then
      (some ((currSection.offset + heap.vaStart) % 2 ^ 64),
        heap.write index { currSection with flags := heapFlagOccupied, inUse := true })
    else
      let leftSearch :=
        if index ≠ 0 then findHeapFrame heap size (index * 2) else (none, heap)
      match leftSearch with
      | (some address, heap) => (some address, heap.markInUse index)
      | (none, heap) =>
          match findHeapFrame heap size (index * 2 + 1) with
          | (some address, heap) => (some address, heap.markInUse index)
          | (none, heap) => (none, heap)
termination_by kernelHeapLen - index
decreasing_by all_goals omega

def kheapRequest (heap : KernelHeap) (size : Nat) : Option Nat × KernelHeap :=
  findHeapFrame heap size 0

/-- The heap with `KernelHeapLock`. -/
structure HeapState where
  heap : KernelHeap
  lockHeld : Bool

/-- `acquire_Spinlock(&KernelHeapLock)`: on the CPU that holds the lock this is
the deadlock panic, on any other it never ends; no call returns either way. -/
def HeapState.acquire (s : HeapState) : Outcome HeapState :=
  if s.lockHeld then throw (.panic "acquire_Spinlock() --> encountered deadlock situation.")
  else pure { s with lockHeld := true }

def HeapState.release (s : HeapState) : HeapState := { s with lockHeld := false }

/-- A failed request returns `NULL` with the lock still held. -/
def kalloc (s : HeapState) (size : Nat) : Outcome (Option Nat × HeapState) := do
  let s ← s.acquire
  match kheapRequest s.heap size with
  | (none, heap) => pure (none, { s with heap := heap })
  | (some address, heap) => pure (some address, { s with heap := heap }.release)

/-- `UINT32_MAX`, the failure value of `heap_search_by_offset`. -/
def uint32Max : Nat := 0xffffffff

/-- The index of the first node in use on the way down to `offset`.  Node `0`
is its own left child, so a search that goes left from it never returns. -/
def heapSearchByOffset (heap : KernelHeap) (offset currIndex : Nat) : Outcome Nat :=
  if kernelHeapLen ≤ currIndex then pure uint32Max
  else
    let currSection := heap.heapTree currIndex
    if ¬(currSection.offset ≤ offset ∧ offset < currSection.offset + currSection.size) then
      pure uint32Max
    else if currSection.inUse then pure currIndex
    else if currSection.offset + currSection.size / 2 ≤ offset then
      heapSearchByOffset heap offset (currIndex * 2 + 1)
    else if currIndex = 0 then throw .hang
    else heapSearchByOffset heap offset (currIndex * 2)
termination_by kernelHeapLen - currIndex
decreasing_by all_goals omega

def getBuddy (heap : KernelHeap) (index : Nat) : HeapSection :=
  if index % 2 = 0 then heap.heapTree (index + 1) else heap.heapTree (index - 1)

def heapGetParent (x : Nat) : Nat := (x - x % 2) / 2

/-- The merging loop of `kfree`: the index at which it stops.  `parent` is a
copy of the array element, so clearing its fields stores nothing. -/
def mergeBuddies (heap : KernelHeap) (sectionIndex : Nat) (buddy : HeapSection) : Nat :=
  if running : buddy.inUse = false ∧ buddy.occupied = false ∧ sectionIndex > 0 then
    let parent := heap.heapTree (heapGetParent sectionIndex)
    let _parent := { parent with inUse := false, flags := 0x0 }
    mergeBuddies heap (heapGetParent sectionIndex) (getBuddy heap (heapGetParent sectionIndex))
  else sectionIndex
termination_by sectionIndex
decreasing_by simp only [heapGetParent]; omega

def kfree (s : HeapState) (address : Nat) : Outcome (Bool × HeapState) := do
  let s ← s.acquire
  if address < s.heap.vaStart then pure (false, s)
  else
    let sectionIndex ← heapSearchByOffset s.heap ((address - s.heap.vaStart) % 2 ^ 32) 0
    if sectionIndex = uint32Max then pure (false, s)
    else
      -- `curr`, too, is a local copy of the section.
      let curr := s.heap.heapTree sectionIndex
      let buddy := getBuddy s.heap sectionIndex
      let _curr := { curr with flags := 0x0, inUse := false }
      let _sectionIndex := mergeBuddies s.heap sectionIndex buddy
      pure (true, s.release)

end SwagOS.Mem
