import SwagOS.Kernel.UserMemory.Heap.Agreement
import SwagOS.Kernel.UserMemory.Requests

/-!
# The consistency of the heap

A `free` that finds an allocation takes its bits away and leaves its pages in the page tables,
fork copies the pages without the bits, and exec drops the pages without the bits.  In runs
without these, and in which sbrk finds its run in the first 31 bits of a word, the four places
in which a heap page is known agree for every process.
-/

namespace SwagOS.Kernel

open SwagOS.Lib SwagOS.DataStructures SwagOS.Mem ThreadPagetables

def ElfProgramHeader.Loaded (ph : ElfProgramHeader) : Prop :=
  ph.memSize ≠ 0 ∧ ph.type = ptLoad

/-- The segments of the file lead to no page of the heap: none of them is in the heap's slot
of the shared `pdpt`, or none is in the last 64 slots of a page directory. -/
def ElfFile.AvoidsHeap (elf : ElfFile) : Prop :=
  (∀ ph ∈ elf.programHeaders, ph.Loaded → pdptIndex ph.vaddr ≠ 507) ∨
    ∀ ph ∈ elf.programHeaders, ph.Loaded → pdtIndex ph.vaddr < 448

structure Pristine (mem : UserMemory) : Prop where
  usedPages : mem.usedPages.Stacked
  noPages : mem.usedPages.contents = []
  heapAllocations : mem.heapAllocations.Stacked
  noAllocations : mem.heapAllocations.contents = []
  noHeapPage : mem.NoHeapPage

/-- Other pages were added to a process that had nothing. -/
structure Filled (low : Bool) (base : Nat) (start mem : UserMemory) : Prop where
  pristine : Pristine start
  pages : HeapPages low base mem
  same : SameHeap start mem

section Filled

variable {low : Bool} {base : Nat} {start mem : UserMemory} {s s' : Space}

theorem Pristine.create (pristine : Pristine mem) (low : Bool) (base : Nat) :
    Filled low base mem (mem.createPageTables base) := by
  refine ⟨pristine, ?_, rfl, rfl⟩
  constructor
  case tables => exact heapTables_create low base pristine.noHeapPage
  case stacked => exact pristine.usedPages
  case pages =>
    intro page member
    have none : page ∈ mem.usedPages.contents := member
    rw [pristine.noPages] at none
    cases none
  case uses =>
    intro k inside
    have none : mem.heapBit k = false := pristine.noHeapPage k inside
    have bit : (mem.createPageTables base).heapBit k = mem.heapBit k := rfl
    have uses : (mem.createPageTables base).heapUses k = mem.heapUses k := rfl
    rw [bit, uses, none, UserMemory.heapUses, pristine.noPages]
    rfl

theorem Filled.kept (filled : Filled low base start mem) : HeapKept low base mem := by
  refine ⟨filled.pages, ?_⟩
  constructor
  case stacked =>
    rw [filled.same.heapAllocations]
    exact filled.pristine.heapAllocations
  case holders =>
    intro k inside
    rw [filled.same.heapBit, filled.pristine.noHeapPage k inside, UserMemory.heapHolders,
      filled.same.heapAllocations, filled.pristine.noAllocations]
    rfl
  case holds =>
    intro entry member
    rw [filled.same.heapAllocations, filled.pristine.noAllocations] at member
    cases member

theorem Filled.map {next : UserMemory} {va frame pdtTableIndex pdTableIndex : Nat}
    (filled : Filled low base start mem) (elsewhere : Elsewhere low va pdtTableIndex pdTableIndex)
    (done : mem.map4kbPageUser base va frame pdtTableIndex pdTableIndex = .ok next) :
    Filled low base start next := by
  have none : mem.NoHeapPage := by
    intro k inside
    rw [filled.same.heapBit]
    exact filled.pristine.noHeapPage k inside
  obtain ⟨pages, same⟩ := filled.pages.elsewhere none elsewhere done
  exact ⟨filled.pristine, pages, same.userHeapBitmap.trans filled.same.userHeapBitmap,
    same.heapAllocations.trans filled.same.heapAllocations⟩

theorem Filled.mapNewFrame {failure : String} {va pdtTableIndex pdTableIndex : Nat}
    (filled : Filled low base start s.mem)
    (elsewhere : Elsewhere low va pdtTableIndex pdTableIndex)
    (done : s.mapNewFrame failure base va pdtTableIndex pdTableIndex = .ok s') :
    Filled low base start s'.mem := by
  rw [Space.mapNewFrame] at done
  obtain ⟨⟨frame, frames⟩, -, done⟩ := Outcome.bind_ok.mp done
  cases frame with
  | none => cases done
  | some frame =>
    obtain ⟨mem, mapped, ⟨⟩⟩ := Outcome.bind_ok.mp done
    exact filled.map elsewhere mapped

theorem Filled.createUserProcessStack (filled : Filled low base start s.mem)
    (done : s.createUserProcessStack base = .ok s') : Filled low base start s'.mem := by
  refine Outcome.foldlM_mem (P := fun s : Space => Filled low base start s.mem) ?_ done filled
  intro i member s s' filled step
  have inside : i < 5 := List.mem_range.mp member
  have slots := UserPage.va_slots (.stack ⟨i, inside⟩) (by decide : 0 < 512)
    (rfl : (userStackLoc - i * pgSize) / pgSize = _)
  exact filled.mapNewFrame (.stack (Prod.ext_iff.mp slots).1) step

theorem Filled.elfLoadSegments {elf : ElfFile} {iRip : Nat} (filled : Filled low base start s.mem)
    (elsewhere : ∀ ph ∈ elf.programHeaders, ph.Loaded → Elsewhere low ph.vaddr 1 0)
    (done : s.elfLoadSegments base elf = .ok (iRip, s')) : Filled low base start s'.mem := by
  rw [Space.elfLoadSegments] at done
  split at done
  · cases done
    exact filled
  · obtain ⟨space, loaded, ⟨⟩⟩ := Outcome.bind_ok.mp done
    refine Outcome.foldlM_mem (P := fun s : Space => Filled low base start s.mem) ?_ loaded filled
    intro ph member s s' filled step
    rw [Space.elfLoadSegment] at step
    split at step
    · cases step
      exact filled
    next isLoaded =>
      have loaded : ph.Loaded := by
        rw [not_or, not_not] at isLoaded
        exact isLoaded
      exact filled.mapNewFrame (elsewhere ph member loaded) step

/-- The pages of another process are mapped where they are in that one. -/
theorem Filled.copyPages {layout : Layout} {view : View} {new old fuel : Nat} {link : Link}
    {oldMem : UserMemory} (filled : Filled low (layout.pgdirPhys new) start s.mem)
    (elsewhere : ∀ i, oldMem.usedPages.From link i →
      Elsewhere low (oldMem.usedPages.records i).data.pageVa
        (oldMem.usedPages.records i).data.pdtTableIndex
        (oldMem.usedPages.records i).data.pdTableIndex)
    (done : s.copyPages layout view new old oldMem fuel link = .ok s') :
    Filled low (layout.pgdirPhys new) start s'.mem := by
  induction fuel generalizing link s with
  | zero =>
    cases link with
    | record i => cases done
    | _ =>
      cases done
      exact filled
  | succ fuel inductionHypothesis =>
    cases link with
    | record i =>
      rw [Space.copyPages] at done
      obtain ⟨⟨frame, frames⟩, -, done⟩ := Outcome.bind_ok.mp done
      cases frame with
      | none => cases done
      | some frame =>
        obtain ⟨-, -, done⟩ := Outcome.bind_ok.mp done
        obtain ⟨mem, mapped, done⟩ := Outcome.bind_ok.mp done
        obtain ⟨-, -, done⟩ := Outcome.bind_ok.mp done
        have next : Filled low (layout.pgdirPhys new) start (⟨frames, mem⟩ : Space).mem :=
          filled.map (elsewhere i .here) mapped
        exact inductionHypothesis next (fun j met => elsewhere j (.next met)) done
    | _ =>
      cases done
      exact filled

end Filled

theorem procFreeUserPages_same {fuel : Nat} {link : Link} {s s' : Space}
    (stacked : s.mem.usedPages.Stacked) (first : s.mem.usedPages.first = link)
    (done : s.procFreeUserPages fuel link = .ok s') :
    s'.mem.usedPages.Stacked ∧ s'.mem.usedPages.contents = [] ∧ SameHeap s.mem s'.mem := by
  induction fuel generalizing link s with
  | zero =>
    cases link with
    | record i => cases done
    | _ =>
      cases done
      exact ⟨stacked, Dll.contents_ended (by simp [first]), rfl, rfl⟩
  | succ fuel inductionHypothesis =>
    cases link with
    | record i =>
      have below := stacked.first i first
      rw [Space.procFreeUserPages] at done
      obtain ⟨⟨freed, frames⟩, -, done⟩ := Outcome.bind_ok.mp done
      have removed := stacked.removeDllEntry_eq below
      have next : (s.mem.usedPages.removeDllEntry i).first = (s.mem.usedPages.records i).next := by
        rw [removed]
      obtain ⟨stacked', empty, same⟩ := inductionHypothesis
        (s := ⟨frames, { s.mem with usedPages := s.mem.usedPages.removeDllEntry i }⟩)
        (stacked.removeDllEntry below) next done
      exact ⟨stacked', empty, same.userHeapBitmap, same.heapAllocations⟩
    | _ =>
      cases done
      exact ⟨stacked, Dll.contents_ended (by simp [first]), rfl, rfl⟩

theorem HeapRecords.none {mem : UserMemory} (records : HeapRecords mem) (none : mem.NoHeapPage) :
    mem.heapAllocations.contents = [] := by
  rw [List.eq_nil_iff_forall_not_mem]
  intro entry member
  obtain ⟨k, inside, holds⟩ := records.holds entry member
  have count := records.holders k inside
  rw [none k inside, UserMemory.heapHolders] at count
  have never := List.countP_eq_zero.mp count entry member
  exact never (decide_eq_true holds)

theorem procFreeHeapAllocations_ended {fuel : Nat} {link : Link} {dll dll' : Dll HeapAlloc}
    (ended : ∀ i, link ≠ .record i)
    (done : UserMemory.procFreeHeapAllocations fuel link dll = .ok dll') : dll' = dll := by
  cases link with
  | record i => exact absurd rfl (ended i)
  | null =>
    rw [UserMemory.procFreeHeapAllocations] at done
    exact (Except.ok.inj done).symm
  | head =>
    rw [UserMemory.procFreeHeapAllocations] at done
    exact (Except.ok.inj done).symm

/-- A process without heap pages has nothing after `ProcessFree`. -/
theorem HeapKept.processFree {low : Bool} {base : Nat} {s s' : Space}
    (kept : HeapKept low base s.mem) (none : s.mem.NoHeapPage)
    (done : s.processFree = .ok s') : Pristine s'.mem := by
  rw [Space.processFree] at done
  obtain ⟨space, pages, done⟩ := Outcome.bind_ok.mp done
  obtain ⟨heapAllocations, released, ⟨⟩⟩ := Outcome.bind_ok.mp done
  obtain ⟨stacked, empty, same⟩ := procFreeUserPages_same kept.pages.stacked rfl pages
  have allocations := kept.records.stacked
  have noAllocations := kept.records.none none
  rw [same.heapAllocations] at released
  rw [procFreeHeapAllocations_ended (allocations.first_ne noAllocations) released]
  refine ⟨stacked, empty, allocations, noAllocations, fun k inside => ?_⟩
  have bit := same.heapBit k
  rw [none k inside] at bit
  exact bit

theorem syshandlerSbrk_none {base rsi : Nat} {s s' : Space}
    (done : s.syshandlerSbrk base rsi = .ok (none, s')) :
    s' = s ∨ ∃ k, FirstRun s.mem.userHeapBitmap (rsi / pgSize + 1) k ∧
      k + rsi / pgSize < 32768 := by
  rw [Space.syshandlerSbrk] at done
  split at done
  · cases done
    exact .inl rfl
  next scan last found =>
    right
    obtain ⟨inside, -, ends, first⟩ := heapRun_found (Nat.succ_pos _) found
    have end_ : 64 * scan.iStart + scan.bitStart + rsi / pgSize = last := Nat.succ.inj ends
    exact ⟨_, first, end_ ▸ inside⟩

namespace System

/-- The frames have not run out: a call of sbrk that returns no memory has found no run of
free pages. -/
def FramesLast (layout : Layout) (s : System) (request : Request) : Prop :=
  ∀ t rsi p space, request = .sbrk t rsi → (s.table.threads t).ownerProc = some p →
    (s.space p).syshandlerSbrk (layout.pgdirPhys p) rsi = .ok (none, space) →
      ∀ k, FirstRun (s.memory p).userHeapBitmap (rsi / pgSize + 1) k → 32768 ≤ k + rsi / pgSize

def KeepsHeap (s : System) : Request → Prop
  | .createUserProcess _ elf =>
      s.table.findFreeProcess ≠ none → s.table.findFreeThread ≠ none → elf.AvoidsHeap
  | .fork t _ _ =>
      s.table.findFreeProcess ≠ none → s.table.findFreeThread ≠ none →
        ∀ p, (s.table.threads t).ownerProc = some p → (s.memory p).NoHeapPage
  | .exec t _ file =>
      ∀ p elf, (s.table.threads t).ownerProc = some p → file = some elf →
        (s.memory p).NoHeapPage ∧ elf.AvoidsHeap
  | .exit _ _ => True
  | .sbrk t rsi =>
      ∀ p, (s.table.threads t).ownerProc = some p → OneLowWord (s.memory p) rsi
  | .free t rsi =>
      ∀ p, (s.table.threads t).ownerProc = some p →
        ∀ entry ∈ (s.memory p).heapAllocations.contents, ¬(entry.start ≤ rsi ∧ rsi ≤ entry.end_)

def HeapRequest (layout : Layout) (s s' : System) : Prop :=
  ∃ request, Served layout s request s' ∧ s.FramesLast layout request ∧ s.KeepsHeap request

structure HeapInv (layout : Layout) (s : System) : Prop where
  inv : s.Inv
  free : ∀ p, (s.table.procs p).state = .free → Pristine (s.memory p)
  inuse : ∀ p, (s.table.procs p).state = .inuse →
    ∃ low, HeapKept low (layout.pgdirPhys p) (s.memory p)

theorem KeepsHeap.search {s : System} {t rsi p : Nat} (keeps : s.KeepsHeap (.free t rsi))
    (owner : (s.table.threads t).ownerProc = some p)
    (stacked : (s.memory p).heapAllocations.Stacked) :
    (s.memory p).heapAllocations.search (UserMemory.covers rsi)
      (s.memory p).heapAllocations.allocated (s.memory p).heapAllocations.first = .ok none := by
  rcases stacked.search_spec (UserMemory.covers rsi) with ⟨none, -⟩ | ⟨j, found, -, listed, covered⟩
  · exact none
  · have member := stacked.mem_contents.mpr ⟨j, listed, rfl⟩
    rw [UserMemory.covers] at covered
    split at covered
    next inside => exact absurd inside (keeps p owner _ member)
    next => cases covered

theorem HeapInv.change {layout : Layout} {s : System} {request : Request} {p : Nat} {space : Space}
    (heap : s.HeapInv layout) (change : Change layout s request p space)
    (calls : ∀ t, request.caller = some t → s.Calls t) (last : s.FramesLast layout request)
    (keeps : s.KeepsHeap request) (leaves : request.leaves = .inuse) :
    ∃ low, HeapKept low (layout.pgdirPhys p) space.mem := by
  have image : ∀ {elf : ElfFile}, elf.AvoidsHeap → ∃ low, ∀ ph ∈ elf.programHeaders, ph.Loaded →
      Elsewhere low ph.vaddr 1 0 := by
    rintro elf (outside | below)
    · exact ⟨false, fun ph member loaded =>
        .image (fun _ => outside ph member loaded) fun never => by cases never⟩
    · exact ⟨true, fun ph member loaded =>
        .image (fun never => by cases never) fun _ => below ph member loaded⟩
  have inUse : ∀ {t}, request.caller = some t → (s.table.threads t).ownerProc = some p →
      (s.table.procs p).state = .inuse := by
    intro t caller owner
    obtain ⟨-, p', owner', inUse⟩ := calls t caller
    cases owner.symm.trans owner'
    exact inUse
  cases change with
  | createUserProcess process thread load stack =>
    obtain ⟨low, elsewhere⟩ := image (keeps (by simp [process]) (by simp [thread]))
    have pristine := heap.free p (ThreadTable.findFreeProcess_some process).2
    have start := pristine.create low (layout.pgdirPhys p)
    have loaded := Filled.elfLoadSegments (by exact start) elsewhere load
    exact ⟨low, (loaded.createUserProcessStack stack).kept⟩
  | @fork _ t old oldProc _ _ _ process thread owner copied =>
    have none := keeps (by simp [process]) (by simp [thread]) oldProc owner
    have pristine := heap.free p (ThreadTable.findFreeProcess_some process).2
    obtain ⟨-, oldProc', owner', inUse⟩ := calls old rfl
    cases owner.symm.trans owner'
    obtain ⟨low, kept⟩ := heap.inuse oldProc inUse
    have start := pristine.create low (layout.pgdirPhys p)
    refine ⟨low, (Filled.copyPages (by exact start) (fun i met => ?_) copied).kept⟩
    have member := kept.pages.stacked.mem_contents.mpr ⟨i, met, rfl⟩
    rcases kept.pages.pages _ member with elsewhere | ⟨k, inside, set, -⟩
    · exact elsewhere
    · rw [none k inside] at set
      cases set
  | exec owner free stack load =>
    obtain ⟨none, avoids⟩ := keeps p _ owner rfl
    obtain ⟨low, elsewhere⟩ := image avoids
    obtain ⟨_, kept⟩ := heap.inuse p (inUse rfl owner)
    have start := (kept.processFree none free).create low (layout.pgdirPhys p)
    have stacked := Filled.createUserProcessStack (by exact start) stack
    exact ⟨low, (stacked.elfLoadSegments elsewhere load).kept⟩
  | exit _ _ => cases leaves
  | @sbrk _ t rsi rax _ owner called =>
    obtain ⟨low, kept⟩ := heap.inuse p (inUse rfl owner)
    cases rax with
    | some rax => exact ⟨low, HeapKept.sbrk heap.inv.valid kept (keeps p owner) called⟩
    | none =>
      rcases syshandlerSbrk_none called with rfl | ⟨k, first, inside⟩
      · exact ⟨low, kept⟩
      · exact absurd inside (Nat.not_lt_of_le (last t rsi p _ rfl owner called k first))
  | free owner called =>
    obtain ⟨low, kept⟩ := heap.inuse p (inUse rfl owner)
    have none := KeepsHeap.search keeps owner kept.records.stacked
    rw [Space.freeHeapAllocEntry] at called
    have search : (s.space p).mem = s.memory p := rfl
    rw [search, none] at called
    cases called
    exact ⟨low, kept⟩

theorem HeapInv.freesNoPage {layout : Layout} {s : System} {request : Request}
    (heap : s.HeapInv layout) (calls : ∀ t, request.caller = some t → s.Calls t)
    (keeps : s.KeepsHeap request) : s.CallFreesNoPage request.call := by
  intro t address p isFree owner i found search
  have same : request = .free t address := by
    cases request with
    | free t rsi =>
      cases isFree
      rfl
    | _ => cases isFree
  subst same
  obtain ⟨-, p', owner', inUse⟩ := calls t rfl
  cases owner.symm.trans owner'
  obtain ⟨low, kept⟩ := heap.inuse p inUse
  have none : (s.space p).mem.heapAllocations.search _ _ _ = _ :=
    KeepsHeap.search keeps owner kept.records.stacked
  cases none.symm.trans search

theorem HeapInv.step {layout : Layout} {s s' : System} (heap : s.HeapInv layout)
    (moved : HeapRequest layout s s') : s'.HeapInv layout := by
  obtain ⟨request, served, last, keeps⟩ := moved
  have inv := heap.inv.step served.step (heap.freesNoPage served.calls keeps)
  rcases served.cases with ⟨-, memory, states⟩ | ⟨p, space, change, -, memory, self, others⟩
  · refine ⟨inv, fun q free => ?_, fun q inUse => ?_⟩
    · rw [states] at free
      rw [memory]
      exact heap.free q free
    · rw [states] at inUse
      rw [memory]
      exact heap.inuse q inUse
  · refine ⟨inv, fun q free => ?_, fun q inUse => ?_⟩
    · by_cases same : q = p
      · rw [same, self] at free
        cases request <;> cases free
      · rw [others q same] at free
        rw [memory, Function.update_of_ne same]
        exact heap.free q free
    · by_cases same : q = p
      · subst same
        rw [memory, Function.update_self]
        exact heap.change change served.calls last keeps (self.symm.trans inUse)
      · rw [others q same] at inUse
        rw [memory, Function.update_of_ne same]
        exact heap.inuse q inUse

theorem Start.heap {layout : Layout} {s : System} (start : s.Start) : s.HeapInv layout := by
  refine ⟨start.inv, fun p _ => ?_, fun p inUse => ?_⟩
  · obtain ⟨used, heap, memory⟩ := start.memory p
    rw [memory]
    refine ⟨Dll.stacked_empty used, Dll.contents_ended fun i => Link.noConfusion,
      Dll.stacked_empty heap, Dll.contents_ended fun i => Link.noConfusion, fun k _ => ?_⟩
    rw [UserMemory.heapBit, Bitmap.test]
    exact BitVec.getLsbD_zero
  · obtain ⟨idleEntry, table⟩ := start.table
    rw [table] at inUse
    cases inUse

/-- In runs of such requests the four places agree in every process. -/
theorem heap_agrees {layout : Layout} {s : System} {p : Nat}
    (placed : Placed (layout.pgdirPhys p)) (reached : Reachable Start (HeapRequest layout) s)
    (inUse : (s.table.procs p).state = .inuse) :
    (s.memory p).HeapAgrees (layout.pgdirPhys p) := by
  have heap : s.HeapInv layout :=
    reached.invariant (fun _ start => start.heap) fun _ _ heap moved => heap.step moved
  obtain ⟨low, pages, records⟩ := heap.inuse p inUse
  have one : ∀ bit : Bool, bit.toNat = 1 ↔ bit = true := by decide
  constructor
  case present => exact fun k inside view => pages.tables.walk placed view inside
  case used =>
    intro k inside
    rw [pages.uses k inside]
    exact one _
  case held =>
    intro k inside
    rw [records.holders k inside]
    exact one _

def firstPage (s : System) : Bool :=
  firstThread s && (s.memory 0).heapBit 0 == false &&
    ((s.space 0).syshandlerSbrk (machine.pgdirPhys 0) 0).test fun result =>
      result.1 == some userHeapStart

theorem created_request {s : System} (created : fresh.createUserProcess machine nothingElse program =
    .ok s) : fresh.HeapRequest machine s := by
  refine ⟨.createUserProcess nothingElse program, ⟨fun t never => ?_, created⟩, ?_, ?_⟩
  · cases never
  · intro t rsi p space never
    cases never
  · intro _ _
    left
    intro ph member _
    obtain rfl := List.mem_singleton.mp member
    decide

theorem sbrk_request {s s' : System} (first : s.firstPage = true)
    (grown : s.syshandlerSbrk machine 1 0 = .ok s') : s.HeapRequest machine s' := by
  rw [firstPage, Bool.and_eq_true, Bool.and_eq_true, beq_iff_eq] at first
  obtain ⟨⟨caller, clear⟩, served⟩ := first
  obtain ⟨result, returned, page⟩ := Outcome.of_test served
  have calls := firstThread_calls caller
  have owner : (s.table.threads 1).ownerProc = some 0 :=
    of_decide_eq_true (Bool.and_eq_true_iff.mp caller).1
  refine ⟨.sbrk 1 0, ⟨fun t isCaller => ?_, grown⟩, ?_, ?_⟩
  · cases isCaller
    exact calls
  · intro t rsi p space isSbrk owner' none
    cases isSbrk
    cases owner.symm.trans owner'
    cases returned.symm.trans none
    cases page
  · intro p owner' k run _
    cases owner.symm.trans owner'
    obtain rfl : k = 0 := by
      apply Nat.eq_zero_of_not_pos
      intro positive
      obtain ⟨j, -, below, set⟩ := run.first 0 positive
      obtain rfl : j = 0 := Nat.lt_one_iff.mp below
      exact Bool.noConfusion (clear.symm.trans set)
    decide

theorem oneHeapPage_heap {s : System} (done : oneHeapPage = .ok s) :
    Reachable Start (HeapRequest machine) s := by
  obtain ⟨s₁, created, grown⟩ := Outcome.bind_ok.mp done
  obtain ⟨s₁', created', first⟩ := Outcome.of_test (by decide +kernel :
    (fresh.createUserProcess machine nothingElse program).test firstPage = true)
  cases created.symm.trans created'
  exact ((Reachable.base fresh_start).next (created_request created)).next (sbrk_request first grown)

theorem heap_agrees_oneHeapPage : ∃ s, oneHeapPage = .ok s ∧
    (s.memory 0).HeapAgrees (machine.pgdirPhys 0) := by
  obtain ⟨s, done, first⟩ := Outcome.of_test (by decide +kernel :
    oneHeapPage.test firstThread = true)
  have inUse := of_decide_eq_true (Bool.and_eq_true_iff.mp first).2
  exact ⟨s, done, heap_agrees (by constructor <;> decide) (oneHeapPage_heap done) inUse⟩

/-- A process that frees its page of heap still has it in its page tables. -/
theorem freed_page_present :
    ¬∀ layout s p, Placed (layout.pgdirPhys p) →
      Reachable Start (fun s s' => ∃ request, Served layout s request s' ∧
        s.FramesLast layout request) s → (s.table.procs p).state = .inuse →
          (s.memory p).HeapAgrees (layout.pgdirPhys p) := by
  intro agrees
  obtain ⟨s, done, first⟩ := Outcome.of_test (by decide +kernel :
    oneHeapPage.test firstThread = true)
  have reached : Reachable Start (fun s s' => ∃ request, Served machine s request s' ∧
      s.FramesLast machine request) s :=
    (oneHeapPage_heap done).mono fun _ _ ⟨request, served, last, _⟩ => ⟨request, served, last⟩
  obtain ⟨s', both, passed⟩ := Outcome.of_test (by decide +kernel :
    (oneHeapPage >>= fun s => s.syshandlerFree machine 1 userHeapStart).test (fun s =>
      decide ((s.table.procs 0).state = .inuse ∧ (s.memory 0).heapBit 0 = false ∧
        (Paging.walk ((s.memory 0).pgdir.tableAt (machine.pgdirPhys 0) nothingElse) (heapVa 0)
          (machine.pgdirPhys 0)).isSome = true)) = true)
  obtain ⟨inUse, clear, present⟩ := of_decide_eq_true passed
  obtain ⟨s₂, done₂, freed⟩ := Outcome.bind_ok.mp both
  cases done.symm.trans done₂
  have served : Served machine s (.free 1 userHeapStart) s' := by
    refine ⟨fun t isCaller => ?_, freed⟩
    cases isCaller
    exact firstThread_calls first
  have result := agrees machine s' 0 (by constructor <;> decide)
    (reached.next ⟨_, served, fun t rsi p space never => by cases never⟩) inUse
  have set := (result.present 0 (by decide) nothingElse).mp present
  exact Bool.noConfusion (clear.symm.trans set)

end System

end SwagOS.Kernel
