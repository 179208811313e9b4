import SwagOS.Kernel.UserMemory.HeapSearch
import SwagOS.Kernel.UserMemory.Sbrk

/-!
# Calls of sbrk that fail

`SYSHANDLER_sbrk` returns as soon as a frame request fails, and keeps what it has taken by
then: the bits that are set, the frames, their pages in the page tables and on the list.
Only a call that fails before its first page leaves everything as it was.
-/

namespace SwagOS.Kernel

open SwagOS.Lib SwagOS.DataStructures SwagOS.Mem ThreadPagetables

/-- Nothing has happened to the memory of the process and to the frames.  A record that was
allocated and that is on no list does not count. -/
structure Unchanged (s s' : Space) : Prop where
  bitmap : s'.mem.userHeapBitmap = s.mem.userHeapBitmap
  usedPages : s'.mem.usedPages = s.mem.usedPages
  heapAllocations : ∃ allocated,
    s'.mem.heapAllocations = { s.mem.heapAllocations with allocated := allocated }
  tables : s'.mem.pgdir = s.mem.pgdir
  outstanding : ∀ g, s'.frames.Used g ↔ s.frames.Used g

theorem Unchanged.refl (s : Space) : Unchanged s s :=
  ⟨rfl, rfl, ⟨_, rfl⟩, rfl, fun _ => Iff.rfl⟩

def NoFrame (frames : FrameManagers) : Prop :=
  ∃ next, frames.physicalFrameRequest4kb = .ok (none, next)

variable {base rsi : Nat} {s s' : Space}

theorem syshandlerSbrk_failed (done : s.syshandlerSbrk base rsi = .ok (none, s')) :
    (∀ k, ¬ClearRun s.mem.userHeapBitmap (rsi / pgSize + 1) k) ∨
      ∃ scan last, FirstFit s.mem.userHeapBitmap (rsi / pgSize + 1) last scan ∧
        Space.sbrkPages base (runPages scan last) 0
          ⟨s.frames, { s.mem with heapAllocations := s.mem.heapAllocations.kalloc.2 }⟩ =
            .ok (none, s') := by
  rw [Space.syshandlerSbrk] at done
  split at done
  next scan missed => exact .inl (heapRun_none (Nat.succ_pos _) missed)
  next scan last found =>
    right
    obtain ⟨⟨end_, space⟩, pages, done⟩ := Outcome.bind_ok.mp done
    cases end_ with
    | none =>
      cases done
      exact ⟨scan, last, heapRun_firstFit (Nat.succ_pos _) found, pages⟩
    | some end_ =>
      obtain ⟨heapAllocations, -, ⟨⟩⟩ := Outcome.bind_ok.mp done

theorem sbrkPages_keeps {end_ : Nat} {result : Option Nat} {pages : List (Nat × Nat)}
    (valid : s.frames.Valid) (inside : ∀ p ∈ pages, 64 * p.1 + p.2 < 32768)
    (done : s.sbrkPages base pages end_ = .ok (result, s')) :
    ∀ k < 32768, HeapMapped base s.mem.pgdir k → HeapMapped base s'.mem.pgdir k := by
  induction pages generalizing s end_ with
  | nil =>
    cases done
    exact fun k _ isMapped => isMapped
  | cons page rest inductionHypothesis =>
    rcases sbrkPages_step valid done with ⟨-, frames, -, -, rfl⟩ | ⟨f, s₁, -, validNext, step, turn⟩
    · exact fun k _ isMapped => isMapped
    · intro k below isMapped
      have first := inside page List.mem_cons_self
      have later := inductionHypothesis validNext
        (fun p member => inside p (List.mem_cons_of_mem _ member)) turn
      exact later k below (step.keeps below first isMapped)

theorem sbrkPages_failed {end_ : Nat} {pages : List (Nat × Nat)} (valid : s.frames.Valid)
    (inside : ∀ p ∈ pages, 64 * p.1 + p.2 < 32768)
    (done : s.sbrkPages base pages end_ = .ok (none, s')) :
    (∃ frames, s.frames.physicalFrameRequest4kb = .ok (none, frames) ∧
      (∀ g, frames.Used g ↔ s.frames.Used g) ∧ s' = { s with frames := frames }) ∨
    (¬NoFrame s.frames ∧
      ∃ k, HeapMapped base s'.mem.pgdir k ∧ ¬HeapMapped base s.mem.pgdir k) := by
  cases pages with
  | nil => cases done
  | cons page rest =>
    rcases sbrkPages_step valid done with ⟨-, failed⟩ | ⟨f, s₁, granted, validNext, step, turn⟩
    · exact .inl failed
    · right
      have first := inside page List.mem_cons_self
      have later := sbrkPages_keeps validNext
        (fun p member => inside p (List.mem_cons_of_mem _ member)) turn
      refine ⟨?granted, _, later _ first step.maps, fun isMapped => ?new⟩
      case granted =>
        rintro ⟨frames, refused⟩
        cases granted.symm.trans refused
      case new => exact Bool.noConfusion (step.absent.symm.trans isMapped.present)

/-- A call that fails has changed nothing exactly when it found no run, or when there was no
frame for the first page. -/
theorem sbrk_atomic_iff (valid : s.frames.Valid)
    (done : s.syshandlerSbrk base rsi = .ok (none, s')) :
    Unchanged s s' ↔
      (¬∃ k, ClearRun s.mem.userHeapBitmap (rsi / pgSize + 1) k) ∨ NoFrame s.frames := by
  rcases syshandlerSbrk_failed done with noRun | ⟨scan, last, fit, pages⟩
  · have same : s.syshandlerSbrk base rsi = .ok (none, s) := syshandlerSbrk_noRun noRun
    cases same.symm.trans done
    exact ⟨fun _ => .inl fun ⟨k, isRun⟩ => noRun k isRun, fun _ => .refl s⟩
  · have inside : last < 512 * 64 := by
      have ends := fit.ends
      have bound := fit.run.inside
      omega
    let called : Space :=
      ⟨s.frames, { s.mem with heapAllocations := s.mem.heapAllocations.kalloc.2 }⟩
    have outcome := sbrkPages_failed (s := called) valid (runPages_inside inside) pages
    rcases outcome with ⟨frames, refused, same, rfl⟩ | ⟨granted, k, here, before⟩
    · exact ⟨fun _ => .inr ⟨frames, refused⟩, fun _ => ⟨rfl, rfl, ⟨_, rfl⟩, rfl, same⟩⟩
    · constructor
      · intro unchanged
        rw [unchanged.tables] at here
        exact absurd here before
      · rintro (noRun | refused)
        · exact absurd ⟨_, fit.run⟩ noRun
        · exact absurd refused granted

def lastPage : FrameManagers :=
  ⟨⟨fun _ => BitVec.allOnes 64, 0, true⟩,
    System.fresh.frames.manager4kb.pushed fun _ =>
      ⟨512 * hugePgSize, 499#32, fun i => if i = 0 then 0xe#32 else 0xf#32⟩⟩

theorem lastPage_valid : lastPage.Valid where
  stacked := by
    have empty : System.fresh.frames.manager4kb.Stacked := Dll.stacked_empty _
    exact empty.pushed fun _ => _
  owned := by
    intro c only
    obtain rfl := Nat.lt_one_iff.mp only
    exact ⟨512, by decide, rfl, by decide⟩
  distinct := by
    intro c only d only' _
    exact (Nat.lt_one_iff.mp only).trans (Nat.lt_one_iff.mp only').symm

def lastPageSpace : Space :=
  ⟨lastPage, .create (System.machine.pgdirPhys 0), Dll.empty fun _ => ⟨.null, .null, ⟨0, 0, 0, 0⟩⟩,
    Dll.empty fun _ => ⟨.null, .null, ⟨0, 0, 0, 0, 0, 0⟩⟩, fun _ => 0#64⟩

theorem lastPageSpace_sbrk : ∃ s',
    lastPageSpace.syshandlerSbrk (System.machine.pgdirPhys 0) 5000 = .ok (none, s') ∧
      s'.mem.usedPages.entryCount = 1 := by
  obtain ⟨⟨rax, s'⟩, done, passed⟩ := Outcome.of_test (by decide +kernel :
    (lastPageSpace.syshandlerSbrk (System.machine.pgdirPhys 0) 5000).test (fun result =>
      decide (result.1 = none ∧ result.2.mem.usedPages.entryCount = 1)) = true)
  obtain ⟨rfl, listed⟩ := of_decide_eq_true passed
  exact ⟨s', done, listed⟩

theorem sbrk_atomic_iff_lastPage : ∃ s',
    lastPageSpace.syshandlerSbrk (System.machine.pgdirPhys 0) 5000 = .ok (none, s') ∧
      (Unchanged lastPageSpace s' ↔
        (¬∃ k, ClearRun lastPageSpace.mem.userHeapBitmap (5000 / pgSize + 1) k) ∨
          NoFrame lastPageSpace.frames) := by
  obtain ⟨s', done, -⟩ := lastPageSpace_sbrk
  exact ⟨s', done, sbrk_atomic_iff lastPage_valid done⟩

/-- The second of two pages cannot be had, and the process keeps the first. -/
theorem sbrk_keeps_firstPage : ∃ s', lastPageSpace.frames.Valid ∧
    lastPageSpace.syshandlerSbrk (System.machine.pgdirPhys 0) 5000 = .ok (none, s') ∧
      ¬Unchanged lastPageSpace s' := by
  obtain ⟨s', done, listed⟩ := lastPageSpace_sbrk
  refine ⟨s', lastPage_valid, done, fun unchanged => ?_⟩
  rw [unchanged.usedPages] at listed
  cases listed

end SwagOS.Kernel
