import Mathlib.Data.Finset.Option
import SwagOS.Mem.ChunkedFrames
import SwagOS.Mem.PhysicalFrames.Safety

/-!
# Safety of the 4 KB frames

Chunks may be dropped from the list while pages of theirs are in use, and a use
count may start anywhere, but the bitmap of a chunk is only ever changed at the page
asked for, and the 2 MB frame of a chunk stays marked.  So a page whose bit is set
is never handed out, and every page handed out has its bit set until it is freed.
-/

namespace SwagOS.Mem

open SwagOS.Lib SwagOS.DataStructures

namespace HugeChunk

def used (chunk : HugeChunk) (i : Nat) : Bool := Bitmap.test 4 chunk.frameBitmap i

theorem used_take (chunk : HugeChunk) (i j : Nat) :
    (chunk.take i).used j = (decide (j = i) || chunk.used j) :=
  Bitmap.test_set (by decide) (by decide) chunk.frameBitmap i j

theorem used_release (chunk : HugeChunk) (i j : Nat) :
    (chunk.release i).used j = (!decide (j = i) && chunk.used j) :=
  Bitmap.test_clear (by decide) (by decide) chunk.frameBitmap i j

theorem used_start (startAddress : Nat) (chunk : HugeChunk) {j : Nat} (inside : j < 500) :
    (start startAddress chunk).used j = decide (j = 0) := by
  have word : j / 4 < 125 := by omega
  rw [start, used_take, used, Bitmap.test]
  simp [word]

theorem freeIndex_some {chunk : HugeChunk} {i : Nat} (found : chunk.freeIndex = some i) :
    i < 500 ∧ chunk.used i = false := by
  rw [freeIndex] at found
  by_cases room : chunk.useCount < 500#32
  · rw [if_pos room] at found
    have inside := List.mem_of_find?_eq_some found
    have clear := List.find?_some found
    have bit : i % 4 < 32 := by omega
    rw [beq_iff_eq, Bitmap.shiftRight_and_one_eq_zero bit] at clear
    exact ⟨by simpa using inside, clear⟩
  · rw [if_neg room] at found
    cases found

theorem holds_some {addr : Nat} {chunk : HugeChunk} (held : holds addr chunk = some ()) :
    chunk.startAddress ≤ addr ∧ addr < chunk.startAddress + hugePgSize := by
  by_contra outside
  rw [holds, if_neg outside] at held
  cases held

end HugeChunk

namespace SmallPageManager

def startOf (spm : SmallPageManager) (c : Nat) : Nat := (spm.records c).data.startAddress

theorem checkAvailableChunkedFrame_cases {spm : SmallPageManager} (stacked : spm.Stacked) :
    spm.checkAvailableChunkedFrame = .ok (none, spm) ∨
      ∃ c i, spm.checkAvailableChunkedFrame =
          .ok (some (spm.startOf c + i * pgSize), spm.modify c fun data => data.take i) ∧
        c < spm.allocated ∧ i < 500 ∧ (spm.records c).data.used i = false := by
  rw [checkAvailableChunkedFrame]
  by_cases nonempty : spm.entryCount ≠ 0 ∧ spm.first ≠ .null
  · rw [if_pos nonempty]
    rcases stacked.search_spec HugeChunk.freeIndex with ⟨done, -⟩ | ⟨c, i, done, listed, found⟩
    · rw [done]
      exact .inl rfl
    · obtain ⟨inside, clear⟩ := HugeChunk.freeIndex_some found
      have address : spm.startOf c + i % 4 * pgSize + i / 4 * 4 * pgSize =
          spm.startOf c + i * pgSize := by
        rw [Nat.add_assoc, ← Nat.add_mul]
        congr 2
        omega
      rw [done]
      refine .inr ⟨c, i, ?_, stacked.listed_lt listed, inside, clear⟩
      rw [← address]
      rfl
  · rw [if_neg nonempty]
    exact .inl rfl

theorem tryFreeChunkedFrame_cases {spm : SmallPageManager} (stacked : spm.Stacked) (addr : Nat) :
    spm.tryFreeChunkedFrame addr = .ok (false, spm) ∨
      ∃ c next, spm.tryFreeChunkedFrame addr = .ok (true, next) ∧ c < spm.allocated ∧
        spm.startOf c ≤ addr ∧ addr < spm.startOf c + hugePgSize ∧ next.Stacked ∧
        next.allocated = spm.allocated ∧
        ∀ d, (next.records d).data =
          if d = c then (spm.records c).data.release ((pgRoundDown addr - spm.startOf c) / pgSize)
          else (spm.records d).data := by
  rw [tryFreeChunkedFrame]
  by_cases nonempty : spm.entryCount ≠ 0 ∧ spm.first ≠ .null
  · rw [if_pos nonempty]
    rcases stacked.search_spec (HugeChunk.holds addr) with ⟨done, -⟩ | ⟨c, ⟨⟩, done, listed, held⟩
    · rw [done]
      exact .inl rfl
    · obtain ⟨lower, upper⟩ := HugeChunk.holds_some held
      have inside := stacked.listed_lt listed
      rw [done]
      right
      let released := spm.modify c fun data =>
        data.release ((pgRoundDown addr - spm.startOf c) / pgSize)
      have stackedReleased : released.Stacked := stacked.modify c _
      have data : ∀ d, (released.records d).data =
          if d = c then (spm.records c).data.release ((pgRoundDown addr - spm.startOf c) / pgSize)
          else (spm.records d).data := fun d => Dll.modify_data spm c _ d
      by_cases zero : (released.records c).data.useCount = 0#32
      · refine ⟨c, released.removeDllEntry c, ?_, inside, lower, upper,
          stackedReleased.removeDllEntry inside, ?_, fun d => ?_⟩
        · exact if_pos zero
        · rw [stackedReleased.removeDllEntry_eq inside]
          rfl
        · rw [stackedReleased.removeDllEntry_eq inside]
          exact data d
      · exact ⟨c, released, if_neg zero, inside, lower, upper, stackedReleased, rfl, data⟩
  · rw [if_neg nonempty]
    exact .inl rfl

end SmallPageManager

namespace FrameManagers

theorem physicalFrameRequest4kb_cases {m next : FrameManagers} {frame : Option Nat}
    (stacked : m.manager4kb.Stacked) (returned : m.physicalFrameRequest4kb = .ok (frame, next)) :
    (∃ c i, c < m.manager4kb.allocated ∧ i < 500 ∧
        (m.manager4kb.records c).data.used i = false ∧
        frame = some (m.manager4kb.startOf c + i * pgSize) ∧
        next = { m with manager4kb := m.manager4kb.modify c fun data => data.take i }) ∨
      (m.manager4kb.checkAvailableChunkedFrame = .ok (none, m.manager4kb) ∧
        ∃ pmm, (m.pmm.physicalFrameRequest = .ok (none, pmm) ∧ frame = none ∧
            next = { m with pmm := pmm }) ∨
          ∃ start, m.pmm.physicalFrameRequest = .ok (some start, pmm) ∧ frame = some start ∧
            next = ⟨pmm, m.manager4kb.pushed (HugeChunk.start start)⟩) := by
  obtain ⟨checked, check, returned⟩ := Outcome.bind_ok.mp returned
  rcases SmallPageManager.checkAvailableChunkedFrame_cases stacked with
    failed | ⟨c, i, done, inside, page, clear⟩
  · right
    refine ⟨failed, ?_⟩
    cases failed.symm.trans check
    obtain ⟨⟨requested, pmm⟩, request, rest⟩ := Outcome.bind_ok.mp returned
    refine ⟨pmm, ?_⟩
    cases requested with
    | none =>
      cases rest
      exact .inl ⟨request, rfl, rfl⟩
    | some start =>
      refine .inr ⟨start, request, ?_⟩
      simp only [SmallPageManager.createNewChunkedFrame, stacked.pushHead_eq] at rest
      cases rest
      exact ⟨rfl, rfl⟩
  · left
    cases done.symm.trans check
    cases returned
    exact ⟨c, i, inside, page, clear, rfl, rfl⟩

/-- With no page left in the chunks, a request opens a new chunk. -/
theorem physicalFrameRequest4kb_new {m : FrameManagers} {start : Nat}
    {pmm : PhysicalMemoryManager} (stacked : m.manager4kb.Stacked)
    (full : m.manager4kb.checkAvailableChunkedFrame = .ok (none, m.manager4kb))
    (request : m.pmm.physicalFrameRequest = .ok (some start, pmm)) :
    m.physicalFrameRequest4kb =
      .ok (some start, ⟨pmm, m.manager4kb.pushed (HugeChunk.start start)⟩) := by
  rw [physicalFrameRequest4kb, full]
  refine Outcome.bind_ok.mpr ⟨_, rfl, Outcome.bind_ok.mpr ⟨_, request, ?_⟩⟩
  simp only [SmallPageManager.createNewChunkedFrame, stacked.pushHead_eq]
  rfl

/-- The chunks own different 2 MB frames, all of them marked. -/
structure Valid (m : FrameManagers) : Prop where
  stacked : m.manager4kb.Stacked
  owned : ∀ c < m.manager4kb.allocated, ∃ k < frameBound,
    m.manager4kb.startOf c = k * hugePgSize ∧ m.pmm.marked k = true
  distinct : ∀ c < m.manager4kb.allocated, ∀ d < m.manager4kb.allocated,
    m.manager4kb.startOf c = m.manager4kb.startOf d → c = d

def Used (m : FrameManagers) (frame : Nat) : Prop :=
  ∃ c < m.manager4kb.allocated, ∃ i < 500, frame = m.manager4kb.startOf c + i * pgSize ∧
    (m.manager4kb.records c).data.used i = true

theorem Valid.page_unique {m : FrameManagers} (valid : m.Valid) {c d i j : Nat}
    (first : c < m.manager4kb.allocated) (second : d < m.manager4kb.allocated)
    (page : i < 500) (page' : j < 500)
    (same : m.manager4kb.startOf c + i * pgSize = m.manager4kb.startOf d + j * pgSize) :
    c = d ∧ i = j := by
  obtain ⟨k, -, start, -⟩ := valid.owned c first
  obtain ⟨l, -, start', -⟩ := valid.owned d second
  have both : k = l ∧ i = j := by
    rw [start, start', hugePgSize, pgSize] at same
    omega
  exact ⟨valid.distinct c first d second (by rw [start, start', both.1]), both.2⟩

theorem Valid.start_aligned {m : FrameManagers} (valid : m.Valid) {c i : Nat}
    (inside : c < m.manager4kb.allocated) : (m.manager4kb.startOf c + i * pgSize) % pgSize = 0 := by
  obtain ⟨k, -, start, -⟩ := valid.owned c inside
  rw [start, hugePgSize, pgSize]
  omega

theorem Used.aligned {m : FrameManagers} (valid : m.Valid) {frame : Nat} (used : m.Used frame) :
    frame % pgSize = 0 := by
  obtain ⟨c, inside, i, -, rfl, -⟩ := used
  exact valid.start_aligned inside

theorem Used.below {m : FrameManagers} (valid : m.Valid) {frame : Nat} (used : m.Used frame) :
    frame < 2 ^ 52 := by
  obtain ⟨c, inside, i, page, rfl, -⟩ := used
  obtain ⟨k, below, start, -⟩ := valid.owned c inside
  rw [start, hugePgSize, pgSize]
  rw [frameBound] at below
  omega

theorem Valid.take {m : FrameManagers} (valid : m.Valid) {c i : Nat}
    (inside : c < m.manager4kb.allocated) (page : i < 500) :
    let next : FrameManagers := ⟨m.pmm, m.manager4kb.modify c fun data => data.take i⟩
    next.Valid ∧
      ∀ g, next.Used g ↔ g = m.manager4kb.startOf c + i * pgSize ∨ m.Used g := by
  intro next
  have start : ∀ d, next.manager4kb.startOf d = m.manager4kb.startOf d := by
    intro d
    by_cases same : d = c
    · subst same
      simp [next, SmallPageManager.startOf, Dll.modify_data, HugeChunk.take]
    · simp [next, SmallPageManager.startOf, Dll.modify_data, same]
  have used : ∀ d j, (next.manager4kb.records d).data.used j =
      (decide (d = c ∧ j = i) || (m.manager4kb.records d).data.used j) := by
    intro d j
    by_cases same : d = c
    · subst same
      simp [next, Dll.modify_data, HugeChunk.used_take]
    · simp [next, Dll.modify_data, same]
  have stacked : next.manager4kb.Stacked := valid.stacked.modify c fun data => data.take i
  refine ⟨⟨stacked, fun d below => ?_, fun d below e below' => ?_⟩, fun g => ?_⟩
  · rw [start d]
    exact valid.owned d below
  · rw [start d, start e]
    exact valid.distinct d below e below'
  · constructor
    · rintro ⟨d, below, j, page', rfl, isUsed⟩
      rw [start d]
      rw [used, Bool.or_eq_true, decide_eq_true_eq] at isUsed
      rcases isUsed with ⟨rfl, rfl⟩ | old
      · exact .inl rfl
      · exact .inr ⟨d, below, j, page', rfl, old⟩
    · rintro (rfl | ⟨d, below, j, page', rfl, isUsed⟩)
      · exact ⟨c, inside, i, page, by rw [start c], by simp [used]⟩
      · exact ⟨d, below, j, page', by rw [start d], by simp [used, isUsed]⟩

theorem Valid.chunk {m : FrameManagers} (valid : m.Valid) {pmm : PhysicalMemoryManager} {k : Nat}
    (below : k < frameBound) (unmarked : m.pmm.marked k = false)
    (taken : ∀ j, pmm.marked j = (decide (j = k) || m.pmm.marked j)) :
    let next : FrameManagers := ⟨pmm, m.manager4kb.pushed (HugeChunk.start (k * hugePgSize))⟩
    next.Valid ∧ ¬m.Used (k * hugePgSize) ∧
      ∀ g, next.Used g ↔ g = k * hugePgSize ∨ m.Used g := by
  intro next
  let new := m.manager4kb.allocated
  have count : next.manager4kb.allocated = new + 1 := rfl
  have startNew : next.manager4kb.startOf new = k * hugePgSize := by
    simp [next, new, SmallPageManager.startOf, Dll.pushed, HugeChunk.start, HugeChunk.take]
  have old : ∀ d < new, next.manager4kb.records d = m.manager4kb.records d := by
    intro d older
    simp [next, new, Dll.pushed, Function.update_of_ne (Nat.ne_of_lt older)]
  have start : ∀ d < new, next.manager4kb.startOf d = m.manager4kb.startOf d := by
    intro d older
    rw [SmallPageManager.startOf, old d older, SmallPageManager.startOf]
  -- No older chunk lies in frame `k`, which was not marked.
  have other : ∀ d < new, ∃ l, l ≠ k ∧ m.manager4kb.startOf d = l * hugePgSize := by
    intro d older
    obtain ⟨l, -, address, marked⟩ := valid.owned d older
    refine ⟨l, ?_, address⟩
    rintro rfl
    rw [unmarked] at marked
    cases marked
  have split : ∀ d, d < new + 1 → d = new ∨ d < new := fun d le => by omega
  refine ⟨⟨valid.stacked.pushed _, fun d le => ?_, fun d le e le' same => ?_⟩, ?_, fun g => ?_⟩
  · rcases split d le with rfl | older
    · exact ⟨k, below, startNew, by simp [next, taken]⟩
    · obtain ⟨l, bound, address, marked⟩ := valid.owned d older
      exact ⟨l, bound, by rw [start d older, address], by simp [next, taken, marked]⟩
  · have apart : ∀ d < new, next.manager4kb.startOf d ≠ k * hugePgSize := by
      intro d older
      obtain ⟨l, different, address⟩ := other d older
      rw [start d older, address]
      exact fun equal => different (Nat.eq_of_mul_eq_mul_right (by decide : 0 < hugePgSize) equal)
    rcases split d le with rfl | older <;> rcases split e le' with rfl | older'
    · rfl
    · exact absurd (same.symm.trans startNew) (apart e older')
    · exact absurd (same.trans startNew) (apart d older)
    · exact valid.distinct d older e older' (by rw [← start d older, ← start e older', same])
  · rintro ⟨d, older, j, page, address, -⟩
    obtain ⟨l, different, start⟩ := other d older
    rw [start, hugePgSize, pgSize] at address
    omega
  · constructor
    · rintro ⟨d, le, j, page, rfl, isUsed⟩
      rcases split d le with rfl | older
      · have zero : j = 0 := by
          simpa [next, new, Dll.pushed, HugeChunk.used_start _ _ page] using isUsed
        exact .inl (by rw [startNew, zero]; simp)
      · rw [old d older] at isUsed
        exact .inr ⟨d, older, j, page, by rw [start d older], isUsed⟩
    · rintro (rfl | ⟨d, older, j, page, rfl, isUsed⟩)
      · refine ⟨new, Nat.lt_succ_self _, 0, by decide, by rw [startNew]; simp, ?_⟩
        simp [next, new, Dll.pushed, HugeChunk.used_start _ _ (by decide : 0 < 500)]
      · exact ⟨d, Nat.lt_succ_of_lt older, j, page, by rw [start d older],
          by rw [old d older]; exact isUsed⟩

theorem physicalFrameRequest4kb_spec {m next : FrameManagers} {frame : Option Nat}
    (valid : m.Valid) (returned : m.physicalFrameRequest4kb = .ok (frame, next)) :
    next.Valid ∧ ((frame = none ∧ ∀ g, next.Used g ↔ m.Used g) ∨
      ∃ f, frame = some f ∧ ¬m.Used f ∧ ∀ g, next.Used g ↔ g = f ∨ m.Used g) := by
  rcases physicalFrameRequest4kb_cases valid.stacked returned with
    ⟨c, i, inside, page, clear, rfl, rfl⟩ | ⟨-, pmm, ⟨request, rfl, rfl⟩ | ⟨start, request, rfl, rfl⟩⟩
  · obtain ⟨validNext, delta⟩ := valid.take inside page
    refine ⟨validNext, .inr ⟨_, rfl, ?_, delta⟩⟩
    rintro ⟨d, below, j, page', same, isUsed⟩
    obtain ⟨rfl, rfl⟩ := valid.page_unique inside below page page' same
    rw [clear] at isUsed
    cases isUsed
  · rcases physicalFrameRequest_ok request with ⟨-, rfl⟩ | ⟨k, -, some, -⟩
    · exact ⟨valid, .inl ⟨rfl, fun g => Iff.rfl⟩⟩
    · cases some
  · rcases physicalFrameRequest_ok request with ⟨none, -⟩ | ⟨k, below, some, unmarked, -, taken⟩
    · cases none
    · cases some
      obtain ⟨validNext, fresh, delta⟩ := valid.chunk below unmarked taken
      exact ⟨validNext, .inr ⟨_, rfl, fresh, delta⟩⟩

def Serves (m : FrameManagers) : Nat → Prop
  | 0 => True
  | n + 1 => ∃ frame next, m.physicalFrameRequest4kb = .ok (some frame, next) ∧ next.Serves n

def served : Nat → FrameManagers → Bool
  | 0, _ => true
  | n + 1, m =>
      match m.physicalFrameRequest4kb with
      | .ok (some _, next) => served n next
      | _ => false

theorem serves_iff {m : FrameManagers} {n : Nat} : m.Serves n ↔ served n m = true := by
  induction n generalizing m with
  | zero => exact ⟨fun _ => rfl, fun _ => trivial⟩
  | succ n inductionHypothesis =>
    rw [Serves, served]
    split
    next frame next returned =>
      rw [← inductionHypothesis]
      constructor
      · rintro ⟨frame', next', returned', later⟩
        cases returned.symm.trans returned'
        exact later
      · exact fun later => ⟨frame, next, returned, later⟩
    next failed =>
      constructor
      · rintro ⟨frame', next', returned', -⟩
        exact absurd returned' (failed frame' next')
      · exact fun never => by cases never

/-- A request that is served: the page is one that nobody had. -/
theorem Serves.request {m : FrameManagers} {n : Nat} (serves : m.Serves (n + 1))
    (valid : m.Valid) : ∃ frame next, m.physicalFrameRequest4kb = .ok (some frame, next) ∧
      next.Serves n ∧ next.Valid ∧ ¬m.Used frame ∧ (∀ g, next.Used g ↔ g = frame ∨ m.Used g) ∧
      frame % pgSize = 0 ∧ frame < 2 ^ 52 := by
  obtain ⟨frame, next, returned, later⟩ := serves
  obtain ⟨validNext, ⟨none, -⟩ | ⟨f, some, fresh, more⟩⟩ := physicalFrameRequest4kb_spec valid returned
  · cases none
  · obtain rfl := Option.some.inj some
    have used := (more frame).mpr (.inl rfl)
    exact ⟨frame, next, returned, later, validNext, fresh, more, used.aligned validNext,
      used.below validNext⟩

/-- A free returns, and changes at most the page of its address. -/
theorem tryFreeChunkedFrame_spec {m : FrameManagers} (valid : m.Valid) (address : Nat) :
    ∃ freed next, m.tryFreeChunkedFrame address = .ok (freed, next) ∧ next.Valid ∧
      next.pmm = m.pmm ∧ next.manager4kb.allocated = m.manager4kb.allocated ∧
      (∀ c, next.manager4kb.startOf c = m.manager4kb.startOf c) ∧
      (∀ g, next.Used g → m.Used g) ∧
      ∀ g, m.Used g → g ≠ pgRoundDown address → next.Used g := by
  rcases SmallPageManager.tryFreeChunkedFrame_cases valid.stacked address with
    done | ⟨c, spm, done, inside, lower, upper, stacked, count, data⟩
  · refine ⟨false, m, ?_, valid, rfl, rfl, fun c => rfl, fun g used => used, fun g used _ => used⟩
    rw [tryFreeChunkedFrame, done]
    rfl
  · have start : ∀ d, spm.startOf d = m.manager4kb.startOf d := by
      intro d
      rw [SmallPageManager.startOf, data d]
      by_cases same : d = c
      · simp [same, HugeChunk.release, SmallPageManager.startOf]
      · simp [same, SmallPageManager.startOf]
    refine ⟨true, ⟨m.pmm, spm⟩, ?_, ⟨stacked, fun d below => ?_, fun d below e below' => ?_⟩,
      rfl, count, start, ?_, ?_⟩
    · rw [tryFreeChunkedFrame, done]
      rfl
    · rw [start d]
      exact valid.owned d (count ▸ below)
    · rw [start d, start e]
      exact valid.distinct d (count ▸ below) e (count ▸ below')
    · rintro g ⟨d, below, j, page, rfl, isUsed⟩
      refine ⟨d, count ▸ below, j, page, by rw [start d], ?_⟩
      rw [data d] at isUsed
      by_cases same : d = c
      · subst same
        simp only [↓reduceIte, HugeChunk.used_release, Bool.and_eq_true] at isUsed
        exact isUsed.2
      · simpa [same] using isUsed
    · rintro g ⟨d, below, j, page, rfl, isUsed⟩ other
      refine ⟨d, count.symm ▸ below, j, page, by rw [start d], ?_⟩
      rw [data d]
      by_cases same : d = c
      · subst same
        simp only [↓reduceIte, HugeChunk.used_release, isUsed, Bool.and_true, Bool.not_eq_true',
          decide_eq_false_iff_not]
        rintro rfl
        obtain ⟨k, -, frame, -⟩ := valid.owned d below
        rw [frame] at other lower
        apply other
        rw [hugePgSize] at lower
        rw [hugePgSize, pgRoundDown, pgSize]
        omega
      · simpa [same] using isUsed

end FrameManagers

namespace FrameManagers

/-- The 2 MB frame that `physical_frame_request_4kb` gets from `physical_frame_request`. -/
def frame2mb (m : FrameManagers) : Option Nat :=
  match m.manager4kb.checkAvailableChunkedFrame with
  | .ok (none, _) =>
    match m.pmm.physicalFrameRequest with
    | .ok (frame2mb, _) => frame2mb
    | .error _ => none
  | _ => none

/-- The frame managers, the 4 KB frames that are outstanding, and the 2 MB frames
that `physical_frame_request` has returned. -/
structure Session where
  managers : FrameManagers
  outstanding : Finset Nat
  taken : List Nat

inductive Call where
  | request (frame : Option Nat)
  | free (address : Nat) (freed : Bool)

/-- Frames are requested freely, and freed only while they are outstanding. -/
inductive Session.Step : Session → Call → Session → Prop where
  | request {s : Session} {frame : Option Nat} {managers : FrameManagers} :
      s.managers.physicalFrameRequest4kb = .ok (frame, managers) →
      Step s (.request frame)
        ⟨managers, s.outstanding ∪ frame.toFinset, s.taken ++ s.managers.frame2mb.toList⟩
  | free {s : Session} {address : Nat} {freed : Bool} {managers : FrameManagers} :
      address ∈ s.outstanding →
      s.managers.tryFreeChunkedFrame address = .ok (freed, managers) →
      Step s (.free address freed) ⟨managers, s.outstanding.erase address, s.taken⟩

/-- No chunk exists yet; the manager of the 2 MB frames and the memory of later
records are arbitrary. -/
def Session.boot (pmm : PhysicalMemoryManager) (records : Nat → Cell HugeChunk) : Session :=
  ⟨⟨pmm, Dll.empty records⟩, ∅, []⟩

structure Session.Inv (s : Session) : Prop where
  valid : s.managers.Valid
  used : ∀ frame ∈ s.outstanding, s.managers.Used frame
  taken : ∀ c < s.managers.manager4kb.allocated, s.managers.manager4kb.startOf c ∈ s.taken

theorem Session.Inv.boot (pmm : PhysicalMemoryManager) (records : Nat → Cell HugeChunk) :
    (Session.boot pmm records).Inv where
  valid := {
    stacked := Dll.stacked_empty records
    owned := fun c below => absurd below (Nat.not_lt_zero c)
    distinct := fun c below => absurd below (Nat.not_lt_zero c) }
  used := fun frame outstanding => absurd outstanding (Finset.notMem_empty frame)
  taken := fun c below => absurd below (Nat.not_lt_zero c)

theorem startOf_physicalFrameRequest4kb {m next : FrameManagers} {frame : Option Nat}
    (valid : m.Valid) (returned : m.physicalFrameRequest4kb = .ok (frame, next)) {c : Nat}
    (inside : c < next.manager4kb.allocated) :
    (c < m.manager4kb.allocated ∧ next.manager4kb.startOf c = m.manager4kb.startOf c) ∨
      m.frame2mb = some (next.manager4kb.startOf c) := by
  rcases physicalFrameRequest4kb_cases valid.stacked returned with
    ⟨d, i, below, page, clear, rfl, rfl⟩ |
    ⟨failed, pmm, ⟨request, rfl, rfl⟩ | ⟨start, request, rfl, rfl⟩⟩
  · refine .inl ⟨inside, ?_⟩
    simp only [SmallPageManager.startOf, Dll.modify_data]
    by_cases same : c = d
    · simp [same, HugeChunk.take]
    · simp [same]
  · exact .inl ⟨inside, rfl⟩
  · by_cases new : c = m.manager4kb.allocated
    · right
      subst new
      simp [frame2mb, failed, request, SmallPageManager.startOf, Dll.pushed, HugeChunk.start,
        HugeChunk.take]
    · left
      refine ⟨Nat.lt_of_le_of_ne (Nat.lt_succ_iff.mp inside) new, ?_⟩
      simp [SmallPageManager.startOf, Dll.pushed, new]

theorem Session.Inv.step {s t : Session} {call : Call} (inv : s.Inv) (moved : Session.Step s call t) :
    t.Inv := by
  cases moved with
  | @request frame managers returned =>
    obtain ⟨valid, delta⟩ := physicalFrameRequest4kb_spec inv.valid returned
    refine ⟨valid, fun f outstanding => ?_, fun c inside => ?_⟩
    · rcases delta with ⟨rfl, same⟩ | ⟨served, rfl, -, more⟩
      · exact (same f).mpr (inv.used f (by simpa using outstanding))
      · apply (more f).mpr
        rcases Finset.mem_union.mp outstanding with old | new
        · exact .inr (inv.used f old)
        · exact .inl (by simpa using new)
    · rcases startOf_physicalFrameRequest4kb inv.valid returned inside with ⟨old, same⟩ | new
      · exact List.mem_append_left _ (same ▸ inv.taken c old)
      · exact List.mem_append_right _ (by simp [new])
  | @free address freed managers outstanding returned =>
    obtain ⟨freed', next, returned', valid, -, count, start, -, kept⟩ :=
      tryFreeChunkedFrame_spec inv.valid address
    cases returned.symm.trans returned'
    refine ⟨valid, fun f later => ?_, fun c inside => ?_⟩
    · obtain ⟨different, old⟩ := Finset.mem_erase.mp later
      apply kept f (inv.used f old)
      -- The freed address is that of a page, so rounding leaves it alone.
      have aligned := Used.aligned inv.valid (inv.used address outstanding)
      rw [pgRoundDown, aligned]
      exact different
    · rw [start c]
      exact inv.taken c (count ▸ inside)

/-- The 4 KB frames are safe: whatever the memory of the chunk records held, every
frame returned is a page among the first 500 of a 2 MB frame that was taken before,
and no one else has it. -/
theorem chunkedFrames_safe {pmm : PhysicalMemoryManager} {records : Nat → Cell HugeChunk}
    {calls : List Call} {s t : Session} {frame : Nat}
    (run : Trace Session.Step (Session.boot pmm records) calls s)
    (returned : Session.Step s (.request (some frame)) t) :
    frame % pgSize = 0 ∧
      (∃ start ∈ t.taken, start % hugePgSize = 0 ∧ ∃ i < 500, frame = start + i * pgSize) ∧
      frame ∉ s.outstanding := by
  have inv : s.Inv := run.invariant (fun _ _ _ inv moved => inv.step moved) (.boot pmm records)
  have invNext : t.Inv := inv.step returned
  cases returned with
  | request returned =>
    obtain ⟨-, ⟨none, -⟩ | ⟨f, some, fresh, more⟩⟩ := physicalFrameRequest4kb_spec inv.valid returned
    · cases none
    · cases some
      have used := (more frame).mpr (.inl rfl)
      refine ⟨used.aligned invNext.valid, ?_, fun outstanding => fresh (inv.used frame outstanding)⟩
      obtain ⟨c, inside, i, page, address, -⟩ := used
      refine ⟨_, invNext.taken c inside, ?_, i, page, address⟩
      obtain ⟨k, -, start, -⟩ := invNext.valid.owned c inside
      simp [start]

def oneFrame : PhysicalMemoryManager :=
  (PhysicalMemoryManager.initPMM ⟨fun _ => 0#64, 0, false⟩).physicalFrameCheckin (512 * hugePgSize)

theorem oneFrame_spec : Counted oneFrame ∧ oneFrame.clearFrames = {512} := by
  have empty := initPMM_clearFrames ⟨fun _ => 0#64, 0, false⟩
  have marked : (PhysicalMemoryManager.initPMM ⟨fun _ => 0#64, 0, false⟩).marked 512 = true := by
    decide +kernel
  have counted : Counted (PhysicalMemoryManager.initPMM ⟨fun _ => 0#64, 0, false⟩) := by
    rw [Counted, empty]
    rfl
  obtain ⟨counted', grown⟩ := counted.checkin (by decide : 512 < frameBound) marked
  exact ⟨counted', by rw [oneFrame, grown, empty]; rfl⟩

theorem oneFrame_usable : Usable oneFrame := by
  intro k inside
  rw [oneFrame_spec.2, Finset.mem_singleton] at inside
  subst inside
  decide

theorem oneFrame_request :
    ∃ pmm, oneFrame.physicalFrameRequest = .ok (some (512 * hugePgSize), pmm) := by
  obtain ⟨counted, clear⟩ := oneFrame_spec
  rcases physicalFrameRequest_spec counted oneFrame_usable with ⟨none, -⟩ | ⟨k, pmm, done, inside, -⟩
  · rw [clear] at none
    exact absurd none (Finset.singleton_ne_empty 512)
  · rw [clear, Finset.mem_singleton] at inside
    subst inside
    exact ⟨pmm, done⟩

theorem oneFrame_serves (records : Nat → Cell HugeChunk) :
    (Session.boot oneFrame records).managers.Serves 1 := by
  obtain ⟨pmm, request⟩ := oneFrame_request
  exact ⟨_, _, physicalFrameRequest4kb_new (Dll.stacked_empty records) rfl request, trivial⟩

theorem oneFrame_first_request (records : Nat → Cell HugeChunk) :
    ∃ t, Session.Step (Session.boot oneFrame records) (.request (some (512 * hugePgSize))) t ∧
      t.outstanding = {512 * hugePgSize} := by
  obtain ⟨pmm, request⟩ := oneFrame_request
  exact ⟨_, .request (physicalFrameRequest4kb_new (Dll.stacked_empty records) rfl request),
    Finset.empty_union _⟩

/-- `Step` as a function; the results of the calls are given. -/
def Session.perform (s : Session) : Call → Option Session
  | .request frame =>
      match s.managers.physicalFrameRequest4kb with
      | .ok (frame', managers) =>
          if frame' = frame then
            some ⟨managers, s.outstanding ∪ frame.toFinset,
              s.taken ++ s.managers.frame2mb.toList⟩
          else none
      | .error _ => none
  | .free address freed =>
      if address ∈ s.outstanding then
        match s.managers.tryFreeChunkedFrame address with
        | .ok (freed', managers) =>
            if freed' = freed then some ⟨managers, s.outstanding.erase address, s.taken⟩ else none
        | .error _ => none
      else none

theorem Session.perform_step {s t : Session} {call : Call} (done : s.perform call = some t) :
    Session.Step s call t := by
  cases call with
  | request frame =>
    rw [perform] at done
    split at done
    next frame' managers returned =>
      split at done
      next same =>
        cases done
        exact .request (same ▸ returned)
      next => cases done
    next => cases done
  | free address freed =>
    rw [perform] at done
    split at done
    next outstanding =>
      split at done
      next freed' managers returned =>
        split at done
        next same =>
          cases done
          exact .free outstanding (same ▸ returned)
        next => cases done
      next => cases done
    next => cases done

theorem Session.run_trace {s t : Session} {calls : List Call}
    (done : calls.foldlM Session.perform s = some t) : Trace Session.Step s calls t := by
  induction calls generalizing s with
  | nil =>
    cases done
    exact .nil _
  | cons call calls inductionHypothesis =>
    obtain ⟨next, moved, rest⟩ := Option.bind_eq_some_iff.mp done
    exact .cons (Session.perform_step moved) (inductionHypothesis rest)

def zeroRecords : Nat → Cell HugeChunk := fun _ => ⟨.null, .null, ⟨0, 0#32, fun _ => 0#32⟩⟩

/-- Two pages are requested, and the first is freed. -/
def twoPages : List Call :=
  [.request (some 0x40000000), .request (some 0x40001000), .free 0x40000000 true]

/-- The page that was freed is returned again, while the other one is outstanding. -/
theorem chunkedFrames_safe_two_pages :
    ∃ s t, Trace Session.Step (Session.boot oneFrame zeroRecords) twoPages s ∧
      s.outstanding = {0x40001000} ∧ Session.Step s (.request (some 0x40000000)) t ∧
      0x40000000 % pgSize = 0 ∧
      (∃ start ∈ t.taken, start % hugePgSize = 0 ∧
        ∃ i < 500, 0x40000000 = start + i * pgSize) ∧
      0x40000000 ∉ s.outstanding := by
  have done : (twoPages.foldlM Session.perform (Session.boot oneFrame zeroRecords)).map
      Session.outstanding = some {0x40001000} := by decide +kernel
  have again : ((twoPages.foldlM Session.perform (Session.boot oneFrame zeroRecords)).bind
      (Session.perform · (.request (some 0x40000000)))).isSome = true := by decide +kernel
  obtain ⟨s, performed, outstanding⟩ := Option.map_eq_some_iff.mp done
  rw [performed, Option.bind_some] at again
  obtain ⟨t, moved⟩ := Option.isSome_iff_exists.mp again
  have run := Session.run_trace performed
  have returned := Session.perform_step moved
  exact ⟨s, t, run, outstanding, returned, chunkedFrames_safe run returned⟩

end FrameManagers

end SwagOS.Mem
