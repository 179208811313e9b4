import SwagOS.Kernel.UserMemory.Heap

/-!
# The search of sbrk

The bitmap of a process is a string of 32768 bits.  `SYSHANDLER_sbrk` counts the clear bits
in a row over all its words, and stops at the first bit that completes a run.  Where the
string holds a run that is long enough, the search finds the one that ends first; where it
holds none, the call returns before it has changed anything.
-/

namespace SwagOS.Kernel

open SwagOS.Lib SwagOS.Mem

structure ClearRun (bitmap : Nat → BitVec 64) (n k : Nat) : Prop where
  inside : k + n ≤ 512 * 64
  clear : ∀ j, k ≤ j → j < k + n → Bitmap.test 64 bitmap j = false

/-- The run of the search goes up to bit `last`, and no run of this length ends before. -/
structure FirstFit (bitmap : Nat → BitVec 64) (n last : Nat) (scan : HeapScan) : Prop where
  bit : scan.bitStart < 64
  ends : 64 * scan.iStart + scan.bitStart + n = last + 1
  run : ClearRun bitmap n (64 * scan.iStart + scan.bitStart)
  first : ∀ k, ClearRun bitmap n k → last < k + n

variable {bitmap : Nat → BitVec 64} {numPages last : Nat} {scan : HeapScan}

theorem HeapScan.run_none {n : Nat} {found : HeapScan} (left : n ≤ 512 * 64)
    (searching : Searching bitmap numPages (512 * 64 - n) scan)
    (done : run bitmap numPages n scan = (found, none)) (k : Nat) :
    ¬ClearRun bitmap numPages k := by
  induction n generalizing scan with
  | zero =>
    intro isRun
    obtain ⟨j, after, before, set⟩ := searching.none k isRun.inside
    have clear := isRun.clear j after before
    exact Bool.noConfusion (clear.symm.trans set)
  | succ n inductionHypothesis =>
    have after : 512 * 64 - (n + 1) + 1 = 512 * 64 - n := by omega
    have turn : run bitmap numPages (n + 1) scan =
        if (scan.advance bitmap (512 * 64 - (n + 1))).currCount = numPages then
          (scan.advance bitmap (512 * 64 - (n + 1)), some (512 * 64 - (n + 1)))
        else run bitmap numPages n (scan.advance bitmap (512 * 64 - (n + 1))) := rfl
    rw [turn] at done
    split at done
    next => cases done
    next incomplete =>
      have next := searching.advance incomplete
      rw [after] at next
      exact inductionHypothesis (by omega) next done

theorem heapRun_none (positive : 0 < numPages)
    (done : HeapScan.run bitmap numPages (512 * 64) ⟨0, 0, 0⟩ = (scan, none)) (k : Nat) :
    ¬ClearRun bitmap numPages k := by
  apply HeapScan.run_none (Nat.le_refl _) _ done
  exact ⟨.start, positive, fun k short => absurd short (by omega)⟩

theorem heapRun_firstFit (positive : 0 < numPages)
    (done : HeapScan.run bitmap numPages (512 * 64) ⟨0, 0, 0⟩ = (scan, some last)) :
    FirstFit bitmap numPages last scan := by
  obtain ⟨inside, bit, ends, lowest⟩ := heapRun_found positive done
  constructor
  case bit => exact bit
  case ends => exact ends
  case run => exact ⟨by omega, lowest.clear⟩
  case first =>
    intro k isRun
    -- A run that ends before begins before, and there the lowest run is not
    have notBefore : ¬k < 64 * scan.iStart + scan.bitStart := by
      intro before
      obtain ⟨j, after, below, set⟩ := lowest.first k before
      exact Bool.noConfusion ((isRun.clear j after below).symm.trans set)
    omega

theorem syshandlerSbrk_noRun {base rsi : Nat} {s : Space}
    (noRun : ∀ k, ¬ClearRun s.mem.userHeapBitmap (rsi / pgSize + 1) k) :
    s.syshandlerSbrk base rsi = .ok (none, s) := by
  obtain ⟨scan, result, done⟩ : ∃ scan result, HeapScan.run s.mem.userHeapBitmap
      (rsi / pgSize + 1) (512 * 64) ⟨0, 0, 0⟩ = (scan, result) := ⟨_, _, rfl⟩
  cases result with
  | none =>
    unfold Space.syshandlerSbrk
    simp only [done]
    rfl
  | some last => exact absurd (heapRun_firstFit (Nat.succ_pos _) done).run (noRun _)

end SwagOS.Kernel
