import SwagOS.Mem.ChunkedFrames.Safety

/-!
# 2 MB frames are not recycled

A chunk whose use count drops to zero leaves the list, but its 2 MB frame keeps its
bit in the bitmap: `try_free_chunked_frame` returns true in both cases, and nothing
hands the frame back.  A sequence of calls therefore leaves the 2 MB frames as they
were only if it never takes one.
-/

namespace SwagOS.Mem.FrameManagers

open SwagOS.Lib SwagOS.DataStructures

def Recycled (pmm : PhysicalMemoryManager) (calls : List Call) (s : Session) : Prop :=
  s.managers.pmm.physicalPageBitmap = pmm.physicalPageBitmap ∧
    s.managers.pmm.freeFramecount = pmm.freeFramecount ∧
    ∀ address freed, .free address freed ∈ calls → freed = true

def Exhausted (pmm : PhysicalMemoryManager) : Prop :=
  pmm.freeFramecount = 0 ∨ pmm.clearFrames = ∅

theorem exhausted_of_none {pmm next : PhysicalMemoryManager}
    (failed : pmm.physicalFrameRequest = .ok (none, next)) : Exhausted pmm := by
  by_cases zero : pmm.freeFramecount = 0
  · exact .inl zero
  · right
    rw [PhysicalMemoryManager.physicalFrameRequest, if_neg zero] at failed
    cases found : pmm.firstClear with
    | none => exact firstClear_none found
    | some bit =>
      rw [found] at failed
      obtain ⟨checkedOut, -, rest⟩ := Outcome.bind_ok.mp failed
      split at rest
      · cases rest
      · cases rest

theorem Exhausted.request {pmm next : PhysicalMemoryManager} {frame : Option Nat}
    (exhausted : Exhausted pmm) (returned : pmm.physicalFrameRequest = .ok (frame, next)) :
    frame = none ∧ next = pmm := by
  rcases physicalFrameRequest_ok returned with same | ⟨k, below, some, unmarked, -⟩
  · exact same
  · rcases exhausted with zero | empty
    · rw [PhysicalMemoryManager.physicalFrameRequest, if_pos zero, some] at returned
      cases returned
    · have clear := PhysicalMemoryManager.mem_clearFrames.mpr ⟨below, unmarked⟩
      rw [empty] at clear
      exact absurd clear (Finset.notMem_empty k)

theorem Session.Step.marked {s t : Session} {call : Call} (inv : s.Inv)
    (moved : Session.Step s call t) {k : Nat} (marked : s.managers.pmm.marked k = true) :
    t.managers.pmm.marked k = true := by
  cases moved with
  | request returned =>
    rcases physicalFrameRequest4kb_cases inv.valid.stacked returned with
      ⟨c, i, -, -, -, -, rfl⟩ | ⟨-, pmm, ⟨request, -, rfl⟩ | ⟨start, request, -, rfl⟩⟩
    · exact marked
    all_goals
      rcases physicalFrameRequest_ok request with ⟨-, rfl⟩ | ⟨l, -, -, -, -, taken⟩
      · exact marked
      · simp [taken, marked]
  | @free address freed managers outstanding returned =>
    obtain ⟨freed', next, returned', -, same, -⟩ := tryFreeChunkedFrame_spec inv.valid address
    cases returned.symm.trans returned'
    rw [same]
    exact marked

theorem Session.marked_run {s t : Session} {calls : List Call} (inv : s.Inv)
    (run : Trace Session.Step s calls t) {k : Nat} (marked : s.managers.pmm.marked k = true) :
    t.managers.pmm.marked k = true :=
  (run.invariant (P := fun u => u.Inv ∧ u.managers.pmm.marked k = true)
    (fun _ _ _ both moved => ⟨both.1.step moved, moved.marked both.1 both.2⟩) ⟨inv, marked⟩).2

theorem not_recycled {pmm : PhysicalMemoryManager} {records : Nat → Cell HugeChunk}
    {calls : List Call} {frame : Option Nat} {s t : Session} (available : ¬Exhausted pmm)
    (first : Session.Step (Session.boot pmm records) (.request frame) s)
    (run : Trace Session.Step s calls t) :
    t.managers.pmm.physicalPageBitmap ≠ pmm.physicalPageBitmap := by
  have inv := Session.Inv.boot pmm records
  have invNext := inv.step first
  cases first with
  | request returned =>
    rcases physicalFrameRequest4kb_cases inv.valid.stacked returned with
      ⟨c, i, below, -⟩ | ⟨-, next, ⟨request, -, -⟩ | ⟨start, request, -, rfl⟩⟩
    · exact absurd below (Nat.not_lt_zero c)
    · exact absurd (exhausted_of_none request) available
    · rcases physicalFrameRequest_ok request with ⟨none, -⟩ | ⟨k, -, -, unmarked, -, taken⟩
      · cases none
      · intro same
        have lost := Session.marked_run invNext run (k := k) (by simp [taken])
        rw [PhysicalMemoryManager.marked, same] at lost
        exact absurd (unmarked.symm.trans lost) (by decide)

/-- With no frame to take, requests fail and there is nothing to free. -/
theorem Exhausted.run {s t : Session} {calls : List Call} (exhausted : Exhausted s.managers.pmm)
    (stacked : s.managers.manager4kb.Stacked) (chunkless : s.managers.manager4kb.allocated = 0)
    (none : s.outstanding = ∅) (run : Trace Session.Step s calls t) :
    t.managers.pmm = s.managers.pmm ∧ ∀ address freed, .free address freed ∉ calls := by
  induction run with
  | nil s => exact ⟨rfl, fun _ _ inside => by cases inside⟩
  | @cons s t u call calls moved _ inductionHypothesis =>
    cases moved with
    | request returned =>
      rcases physicalFrameRequest4kb_cases stacked returned with
        ⟨c, i, below, -⟩ | ⟨-, pmm, ⟨request, rfl, rfl⟩ | ⟨start, request, rfl, rfl⟩⟩
      · rw [chunkless] at below
        exact absurd below (Nat.not_lt_zero c)
      · obtain ⟨-, rfl⟩ := exhausted.request request
        obtain ⟨same, noFree⟩ := inductionHypothesis exhausted stacked chunkless (by simp [none])
        refine ⟨same, fun address freed inside => ?_⟩
        rcases List.mem_cons.mp inside with first | later
        · cases first
        · exact noFree address freed later
      · cases (exhausted.request request).1
    | free outstanding =>
      rw [none] at outstanding
      exact absurd outstanding (Finset.notMem_empty _)

/-- A sequence of calls that leaves no 4 KB frame outstanding leaves the 2 MB frames
as they were exactly if it requests nothing or nothing could be requested. -/
theorem frames_recycled_iff {pmm : PhysicalMemoryManager} {records : Nat → Cell HugeChunk}
    {calls : List Call} {s : Session}
    (run : Trace Session.Step (Session.boot pmm records) calls s) (returned : s.outstanding = ∅) :
    Recycled pmm calls s ↔ (∀ frame, .request frame ∉ calls) ∨ Exhausted pmm := by
  constructor
  · rintro ⟨bitmap, -, -⟩
    by_contra condition
    obtain ⟨requested, available⟩ := not_or.mp condition
    cases run with
    | nil => exact requested fun frame inside => by cases inside
    | cons first rest =>
      cases first with
      | request served => exact not_recycled available (.request served) rest bitmap
      | free outstanding => exact absurd outstanding (Finset.notMem_empty _)
  · rintro (noRequest | exhausted)
    · cases run with
      | nil => exact ⟨rfl, rfl, fun _ _ inside => by cases inside⟩
      | cons first rest =>
        cases first with
        | request => exact absurd List.mem_cons_self (noRequest _)
        | free outstanding => exact absurd outstanding (Finset.notMem_empty _)
    · obtain ⟨same, noFree⟩ := exhausted.run (s := Session.boot pmm records)
        (Dll.stacked_empty records) rfl rfl run
      exact ⟨congrArg _ same, congrArg _ same,
        fun address freed inside => absurd inside (noFree address freed)⟩

theorem oneFrame_request_free : ∃ freed s t,
    Session.Step (Session.boot oneFrame zeroRecords) (.request (some (512 * hugePgSize))) s ∧
      Session.Step s (.free (512 * hugePgSize) freed) t ∧ t.outstanding = ∅ := by
  obtain ⟨s, first, outstanding⟩ := oneFrame_first_request zeroRecords
  have inv := (Session.Inv.boot oneFrame zeroRecords).step first
  obtain ⟨freed, managers, done, -⟩ := tryFreeChunkedFrame_spec inv.valid (512 * hugePgSize)
  refine ⟨freed, s, _, first, .free (by simp [outstanding]) done, ?_⟩
  simp [outstanding]

theorem frames_recycled_iff_one_page : ∃ freed t,
    Trace Session.Step (Session.boot oneFrame zeroRecords)
        [.request (some (512 * hugePgSize)), .free (512 * hugePgSize) freed] t ∧
      t.outstanding = ∅ ∧
      (Recycled oneFrame [.request (some (512 * hugePgSize)), .free (512 * hugePgSize) freed] t ↔
        (∀ frame, .request frame ∉
          [Call.request (some (512 * hugePgSize)), .free (512 * hugePgSize) freed]) ∨
        Exhausted oneFrame) := by
  obtain ⟨freed, s, t, first, second, none⟩ := oneFrame_request_free
  have run := Trace.cons first (.cons second (.nil t))
  exact ⟨freed, t, run, none, frames_recycled_iff run none⟩

/-- A page requested and freed leaves its 2 MB frame marked. -/
theorem frame_not_recycled :
    ¬∀ (pmm : PhysicalMemoryManager) (records : Nat → Cell HugeChunk) (calls : List Call)
      (s : Session), Counted pmm → Usable pmm →
      Trace Session.Step (Session.boot pmm records) calls s → s.outstanding = ∅ →
      Recycled pmm calls s := by
  intro recycled
  obtain ⟨freed, s, t, first, second, none⟩ := oneFrame_request_free
  obtain ⟨counted, clear⟩ := oneFrame_spec
  have available : ¬Exhausted oneFrame := by
    rintro (zero | empty)
    · rw [counted, clear] at zero
      cases zero
    · exact absurd (clear.symm.trans empty) (Finset.singleton_ne_empty 512)
  exact not_recycled available first (.cons second (.nil t))
    (recycled oneFrame zeroRecords _ t counted oneFrame_usable
      (.cons first (.cons second (.nil t))) none).1

end SwagOS.Mem.FrameManagers
