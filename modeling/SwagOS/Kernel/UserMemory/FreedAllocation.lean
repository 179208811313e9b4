import SwagOS.DataStructures.LinkedList.Headed
import SwagOS.Kernel.UserMemory.SbrkFailure

/-!
# Allocations that are freed

`SYSHANDLER_free` clears the bits of an allocation and leaves its pages in the page tables.
The next call of `SYSHANDLER_sbrk` that finds the same run stops the machine at the first of
them.  Only an allocation without pages gets by, where the inner loop had no turn; it has an
empty record, which is never freed.
-/

namespace SwagOS.Kernel

open SwagOS.Lib SwagOS.DataStructures SwagOS.Mem ThreadPagetables

/-- A process that has not called sbrk. -/
structure HeapStart (s : Space) : Prop where
  valid : s.frames.Valid
  heapAllocations : ∃ records, s.mem.heapAllocations = Dll.empty records
  userHeapBitmap : s.mem.userHeapBitmap = fun _ => 0#64

/-- A process calls sbrk or free, or others use the frame managers. -/
inductive HeapCall (layout : Layout) (base : Nat) (s : Space) : Space → Prop where
  | sbrk {rsi : Nat} {rax : Option Nat} {s' : Space} :
      s.syshandlerSbrk base rsi = .ok (rax, s') → HeapCall layout base s s'
  | free {address : Nat} {s' : Space} :
      s.freeHeapAllocEntry layout address = .ok s' → HeapCall layout base s s'
  | others {frames : FrameManagers} : frames.Valid → HeapCall layout base s { s with frames := frames }

structure HeapListed (s : Space) : Prop where
  valid : s.frames.Valid
  headed : s.mem.heapAllocations.Headed

variable {layout : Layout} {base : Nat} {s s' : Space}

theorem HeapStart.listed (start : HeapStart s) : HeapListed s := by
  obtain ⟨records, empty⟩ := start.heapAllocations
  refine ⟨start.valid, ?_⟩
  rw [empty]
  exact Dll.headed_empty records

theorem sbrkPages_listed {end_ : Nat} {result : Option Nat} {pages : List (Nat × Nat)}
    (valid : s.frames.Valid) (done : s.sbrkPages base pages end_ = .ok (result, s')) :
    s'.frames.Valid ∧ s'.mem.heapAllocations = s.mem.heapAllocations := by
  induction pages generalizing s end_ with
  | nil =>
    cases done
    exact ⟨valid, rfl⟩
  | cons page rest inductionHypothesis =>
    rcases sbrkPages_step valid done with
      ⟨-, frames, refused, -, rfl⟩ | ⟨f, s₁, -, validNext, step, turn⟩
    · exact ⟨(FrameManagers.physicalFrameRequest4kb_spec valid refused).1, rfl⟩
    · obtain ⟨validLast, same⟩ := inductionHypothesis validNext turn
      exact ⟨validLast, same.trans step.heapAllocations⟩

theorem syshandlerSbrk_pushed {rsi rax : Nat} (listed : HeapListed s)
    (done : s.syshandlerSbrk base rsi = .ok (some rax, s')) :
    ∃ scan last end_ space,
      HeapScan.run s.mem.userHeapBitmap (rsi / pgSize + 1) (512 * 64) ⟨0, 0, 0⟩ =
        (scan, some last) ∧
      rax = heapAddress scan.iStart scan.bitStart ∧
      Space.sbrkPages base (runPages scan last) 0
        ⟨s.frames, { s.mem with heapAllocations := s.mem.heapAllocations.kalloc.2 }⟩ =
          .ok (some end_, space) ∧
      space.frames.Valid ∧
      s' = ⟨space.frames, { space.mem with
        heapAllocations := s.mem.heapAllocations.pushed fun _ => heapAlloc scan last end_ }⟩ := by
  obtain ⟨scan, last, end_, space, heapAllocations, found, rax, pages, inserted, rfl⟩ :=
    syshandlerSbrk_some done
  obtain ⟨valid, same⟩ := sbrkPages_listed (by exact listed.valid) pages
  have pushed : s.mem.heapAllocations.pushHead (fun _ => heapAlloc scan last end_) =
      .ok heapAllocations := by
    rw [same] at inserted
    exact inserted
  cases (Dll.pushHead_eq listed.headed.last _).symm.trans pushed
  exact ⟨scan, last, end_, space, found, rax, pages, valid, rfl⟩

theorem freeRange_listed {addrStart addrEnd fuel : Nat} {link : Link} (valid : s.frames.Valid)
    (done : s.freeRange layout addrStart addrEnd fuel link = .ok s') :
    s'.frames.Valid ∧ s'.mem.heapAllocations = s.mem.heapAllocations ∧
      s'.mem.pgdir = s.mem.pgdir := by
  induction fuel generalizing s link with
  | zero =>
    cases link with
    | record i => cases done
    | null =>
      cases done
      exact ⟨valid, rfl, rfl⟩
    | head =>
      cases done
      exact ⟨valid, rfl, rfl⟩
  | succ fuel inductionHypothesis =>
    cases link with
    | null =>
      cases done
      exact ⟨valid, rfl, rfl⟩
    | head =>
      cases done
      exact ⟨valid, rfl, rfl⟩
    | record i =>
      rw [Space.freeRange] at done
      split at done
      next covered =>
        obtain ⟨pagePa, -, done⟩ := Outcome.bind_ok.mp done
        obtain ⟨⟨freed, frames⟩, released, done⟩ := Outcome.bind_ok.mp done
        obtain ⟨freed', frames', released', validNext, -⟩ :=
          FrameManagers.tryFreeChunkedFrame_spec valid pagePa
        cases released.symm.trans released'
        obtain ⟨validLast, heapAllocations, pgdir⟩ := inductionHypothesis (by exact validNext) done
        exact ⟨validLast, heapAllocations, pgdir⟩
      next => exact inductionHypothesis valid done

theorem freeHeapAllocEntry_listed {address : Nat} (listed : HeapListed s)
    (done : s.freeHeapAllocEntry layout address = .ok s') :
    s' = s ∨ ∃ i, s.mem.heapAllocations.Listed i ∧
      UserMemory.covers address (s.mem.heapAllocations.records i).data = some () ∧
      s'.frames.Valid ∧ s'.mem.heapAllocations = s.mem.heapAllocations.removeDllEntry i ∧
      s'.mem.pgdir = s.mem.pgdir := by
  unfold Space.freeHeapAllocEntry at done
  obtain ⟨found, search, done⟩ := Outcome.bind_ok.mp done
  cases found with
  | none =>
    cases done
    exact .inl rfl
  | some found =>
    right
    obtain ⟨i, covered⟩ := found
    obtain ⟨met, covers⟩ := Dll.search_found search
    unfold Space.freeUserHeapBits at done
    obtain ⟨s₁, range, same⟩ := Outcome.bind_ok.mp done
    cases same
    obtain ⟨valid, heapAllocations, pgdir⟩ := freeRange_listed (by exact listed.valid) range
    exact ⟨i, met, covers, valid, heapAllocations, pgdir⟩

theorem HeapListed.call (listed : HeapListed s) (called : HeapCall layout base s s') :
    HeapListed s' := by
  cases called with
  | @sbrk rsi rax _ done =>
    cases rax with
    | some rax =>
      obtain ⟨scan, last, end_, space, -, -, -, valid, rfl⟩ := syshandlerSbrk_pushed listed done
      exact ⟨valid, listed.headed.pushed fun _ => heapAlloc scan last end_⟩
    | none =>
      rcases syshandlerSbrk_failed done with noRun | ⟨scan, last, -, pages⟩
      · have same : s.syshandlerSbrk base rsi = .ok (none, s) := syshandlerSbrk_noRun noRun
        cases same.symm.trans done
        exact listed
      · obtain ⟨valid, same⟩ := sbrkPages_listed (by exact listed.valid) pages
        refine ⟨valid, ?_⟩
        rw [same]
        exact listed.headed.kalloc
  | free done =>
    rcases freeHeapAllocEntry_listed listed done with rfl | ⟨i, member, -, valid, same, -⟩
    · exact listed
    · refine ⟨valid, ?_⟩
      rw [same]
      exact listed.headed.removeDllEntry member
  | others valid => exact ⟨valid, listed.headed⟩

theorem heapCalls_listed (reached : Reachable HeapStart (HeapCall layout base) s) :
    HeapListed s := by
  apply reached.invariant (fun s start => start.listed)
  intro s s' listed called
  exact listed.call called

/-- The free has undone the allocation: the frames that are in use, the pages and records on
the lists and the bitmap are those before it, and the same request can be made again. -/
structure Undone (base n : Nat) (before after : Space) : Prop where
  frames : ∀ g, after.frames.Used g ↔ before.frames.Used g
  usedPages : ∀ i, after.mem.usedPages.Listed i ↔ before.mem.usedPages.Listed i
  heapAllocations : ∀ i, after.mem.heapAllocations.Listed i ↔ before.mem.heapAllocations.Listed i
  bitmap : after.mem.userHeapBitmap = before.mem.userHeapBitmap
  again : ∃ rax next, after.syshandlerSbrk base n = .ok (some rax, next)

theorem heapAddress_positive {scan : HeapScan} {last numPages : Nat} {bitmap : Nat → BitVec 64}
    (fit : FirstFit bitmap numPages last scan) : 0 < heapAddress scan.iStart scan.bitStart := by
  have inside := fit.run.inside
  rw [heapAddress_eq, heapVa, userHeapStart, pgSize]
  omega

theorem heapAlloc_not_covers {scan : HeapScan} {last numPages : Nat} {bitmap : Nat → BitVec 64}
    (fit : FirstFit bitmap numPages last scan) :
    UserMemory.covers (heapAddress scan.iStart scan.bitStart) (heapAlloc scan last 0) = none := by
  have positive := heapAddress_positive fit
  rw [UserMemory.covers, heapAlloc]
  exact if_neg fun covered => absurd covered.2 (Nat.not_le_of_lt positive)

theorem syshandlerSbrk_mapped {n last : Nat} {scan : HeapScan} {page : Nat × Nat}
    (valid : s.frames.Valid)
    (found : HeapScan.run s.mem.userHeapBitmap (n / pgSize + 1) (512 * 64) ⟨0, 0, 0⟩ =
      (scan, some last))
    (member : page ∈ runPages scan last)
    (isMapped : HeapMapped base s.mem.pgdir (64 * page.1 + page.2)) (rax : Nat) (next : Space) :
    s.syshandlerSbrk base n ≠ .ok (some rax, next) := by
  intro done
  obtain ⟨scan', last', end_, space, heapAllocations, found', -, pages, -⟩ :=
    syshandlerSbrk_some done
  cases found.symm.trans found'
  have inside := (heapRun_found (Nat.succ_pos _) found).1
  obtain ⟨-, mapped⟩ := sbrkPages_maps (by exact valid) (runPages_inside inside) pages
  exact (mapped page member).2 isMapped

theorem free_keeps_record {scan : HeapScan} {last numPages : Nat} {bitmap : Nat → BitVec 64}
    {allocated after : Space} (fit : FirstFit bitmap numPages last scan) (listed : HeapListed s)
    (listed' : HeapListed allocated)
    (pushed : allocated.mem.heapAllocations =
      s.mem.heapAllocations.pushed fun _ => heapAlloc scan last 0)
    (freed : allocated.freeHeapAllocEntry layout (heapAddress scan.iStart scan.bitStart) =
      .ok after) :
    ¬∀ i, after.mem.heapAllocations.Listed i ↔ s.mem.heapAllocations.Listed i := by
  intro same
  rcases freeHeapAllocEntry_listed listed' freed with rfl | ⟨i, member, covers, -, removed, -⟩
  · have new : after.mem.heapAllocations.Listed s.mem.heapAllocations.allocated := by
      rw [pushed]
      exact .here
    exact Nat.lt_irrefl _ (listed.headed.inside _ ((same _).mp new))
  · -- The free takes another record off the list, with all newer ones
    have before : s.mem.heapAllocations.Listed i := by
      rw [pushed] at member
      rcases listed.headed.listed_pushed member with rfl | older
      · rw [pushed, Dll.pushed_data, heapAlloc_not_covers fit] at covers
        cases covers
      · exact older
    have kept := (same i).mpr before
    rw [removed] at kept
    exact Nat.lt_irrefl _ (listed'.headed.listed_removed member kept).2

/-- No free undoes an allocation. -/
theorem free_never_undoes {n p : Nat} (reached : Reachable HeapStart (HeapCall layout base) s)
    (done : s.syshandlerSbrk base n = .ok (some p, s')) :
    ¬∃ after, s'.freeHeapAllocEntry layout p = .ok after ∧ Undone base n s after := by
  rintro ⟨after, freed, undone⟩
  have listed := heapCalls_listed reached
  have listed' := listed.call (.sbrk done : HeapCall layout base s s')
  obtain ⟨scan, last, end_, space, found, rfl, pages, valid, rfl⟩ :=
    syshandlerSbrk_pushed listed done
  have fit := heapRun_firstFit (Nat.succ_pos _) found
  cases list : runPages scan last with
  | cons page rest =>
    have member : page ∈ runPages scan last := list ▸ List.mem_cons_self
    obtain ⟨-, mapped⟩ := sbrkPages_maps (by exact listed.valid)
      (runPages_inside (heapRun_found (Nat.succ_pos _) found).1) pages
    obtain ⟨rax, next, again⟩ := undone.again
    rw [← undone.bitmap] at found
    have isMapped : HeapMapped base after.mem.pgdir (64 * page.1 + page.2) := by
      rcases freeHeapAllocEntry_listed listed' freed with rfl | ⟨i, -, -, -, -, pgdir⟩
      · exact (mapped page member).1
      · rw [pgdir]
        exact (mapped page member).1
    have validLast := (listed'.call (.free freed : HeapCall layout base _ after)).valid
    exact syshandlerSbrk_mapped validLast found member isMapped rax next again
  | nil =>
    rw [list] at pages
    cases pages
    exact free_keeps_record fit listed listed' rfl freed undone.heapAllocations

def freshSpace : Space := { lastPageSpace with frames := System.fresh.frames }

theorem freshSpace_start : HeapStart freshSpace where
  valid := System.fresh_start.inv.valid
  heapAllocations := ⟨_, rfl⟩
  userHeapBitmap := rfl

theorem freshSpace_calls : ∃ s' after,
    freshSpace.syshandlerSbrk (System.machine.pgdirPhys 0) 100 = .ok (some userHeapStart, s') ∧
      s'.freeHeapAllocEntry System.machine userHeapStart = .ok after ∧
      (after.syshandlerSbrk (System.machine.pgdirPhys 0) 100).test (fun _ => true) = false := by
  obtain ⟨⟨rax, s'⟩, done, passed⟩ := Outcome.of_test (by decide +kernel :
    (freshSpace.syshandlerSbrk (System.machine.pgdirPhys 0) 100).test (fun result =>
      decide (result.1 = some userHeapStart) &&
        (result.2.freeHeapAllocEntry System.machine userHeapStart).test fun after =>
          !(after.syshandlerSbrk (System.machine.pgdirPhys 0) 100).test fun _ => true) = true)
  obtain ⟨isFirst, freed⟩ := Bool.and_eq_true_iff.mp passed
  obtain rfl := of_decide_eq_true isFirst
  obtain ⟨after, freed, again⟩ := Outcome.of_test freed
  exact ⟨s', after, done, freed, Bool.not_eq_true' _ |>.mp again⟩

theorem free_never_undoes_first : ∃ s',
    freshSpace.syshandlerSbrk (System.machine.pgdirPhys 0) 100 = .ok (some userHeapStart, s') ∧
      ¬∃ after, s'.freeHeapAllocEntry System.machine userHeapStart = .ok after ∧
        Undone (System.machine.pgdirPhys 0) 100 freshSpace after := by
  obtain ⟨s', after, done, -⟩ := freshSpace_calls
  exact ⟨s', done, free_never_undoes (.base freshSpace_start) done⟩

/-- A process that frees its page and asks for one again stops the machine. -/
theorem sbrk_after_free_stops : ∃ s',
    Reachable HeapStart (HeapCall System.machine (System.machine.pgdirPhys 0)) freshSpace ∧
      freshSpace.syshandlerSbrk (System.machine.pgdirPhys 0) 100 = .ok (some userHeapStart, s') ∧
      ¬∃ after, s'.freeHeapAllocEntry System.machine userHeapStart = .ok after ∧
        Undone (System.machine.pgdirPhys 0) 100 freshSpace after := by
  obtain ⟨s', after, done, freed, stops⟩ := freshSpace_calls
  refine ⟨s', .base freshSpace_start, done, ?_⟩
  rintro ⟨after', freed', undone⟩
  cases freed.symm.trans freed'
  obtain ⟨rax, next, again⟩ := undone.again
  rw [again] at stops
  cases stops

end SwagOS.Kernel
