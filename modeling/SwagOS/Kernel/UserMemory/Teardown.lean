import SwagOS.Kernel.Descriptors
import SwagOS.Kernel.UserMemory.HeapConsistency
import SwagOS.Kernel.UserMemory.Sbrk

/-!
# The teardown of a process

`ProcessFree` clears the descriptors and empties the lists of threads and of used pages.
The heap stays behind: `ProcFreeHeapAllocations` removes the entry after the one that it
frees, and no function clears the heap bitmap.

The processes get their pages from their image, their stack, fork and sbrk.
-/

namespace SwagOS.Kernel

open SwagOS.Lib SwagOS.DataStructures SwagOS.Mem

/-- Each used page has a frame of its own. -/
structure Recorded (s : Space) : Prop where
  valid : s.frames.Valid
  stacked : s.mem.usedPages.Stacked
  used : ∀ page ∈ s.mem.usedPages.contents, s.frames.Used page.pagePa
  once : (s.mem.usedPages.contents.map UsedPage.pagePa).Nodup

def Grows (P : Space → Prop) : Prop :=
  ∀ {s : Space} {frames : FrameManagers} {mem : UserMemory} {frame base va a b : Nat}, P s →
    s.frames.physicalFrameRequest4kb = .ok (some frame, frames) →
      s.mem.map4kbPageUser base va frame a b = .ok mem → P ⟨frames, mem⟩

namespace Grows

variable {P : Space → Prop} {base : Nat} {s s' : Space}

theorem mapNewFrame {failure : String} {va a b : Nat} (grows : Grows P) (holds : P s)
    (done : s.mapNewFrame failure base va a b = .ok s') : P s' := by
  unfold Space.mapNewFrame at done
  obtain ⟨⟨frame, frames⟩, returned, done⟩ := Outcome.bind_ok.mp done
  cases frame with
  | none => cases done
  | some frame =>
    obtain ⟨mem, mapped, ⟨⟩⟩ := Outcome.bind_ok.mp done
    exact grows holds returned mapped

theorem createUserProcessStack (grows : Grows P) (holds : P s)
    (done : s.createUserProcessStack base = .ok s') : P s' :=
  Outcome.foldlM_ok (P := P) (fun _ _ _ holds step => grows.mapNewFrame holds step) done holds

theorem elfLoadSegments {elf : ElfFile} {iRip : Nat} (grows : Grows P) (holds : P s)
    (done : s.elfLoadSegments base elf = .ok (iRip, s')) : P s' := by
  unfold Space.elfLoadSegments at done
  split at done
  · cases done
    exact holds
  · obtain ⟨space, loaded, ⟨⟩⟩ := Outcome.bind_ok.mp done
    refine Outcome.foldlM_ok (P := P) (fun s ph s' holds step => ?_) loaded holds
    unfold Space.elfLoadSegment at step
    split at step
    · cases step
      exact holds
    · exact grows.mapNewFrame holds step

theorem copyPages {layout : Layout} {view : View} {new old : Nat} {oldMem : UserMemory}
    {fuel : Nat} {link : Link} (grows : Grows P) (holds : P s)
    (done : s.copyPages layout view new old oldMem fuel link = .ok s') : P s' := by
  induction fuel generalizing link s with
  | zero =>
    cases link with
    | record i => cases done
    | _ =>
      cases done
      exact holds
  | succ fuel inductionHypothesis =>
    cases link with
    | record i =>
      unfold Space.copyPages at done
      obtain ⟨⟨frame, frames⟩, returned, done⟩ := Outcome.bind_ok.mp done
      cases frame with
      | none => cases done
      | some frame =>
        obtain ⟨-, -, done⟩ := Outcome.bind_ok.mp done
        obtain ⟨mem, mapped, done⟩ := Outcome.bind_ok.mp done
        obtain ⟨-, -, done⟩ := Outcome.bind_ok.mp done
        exact inductionHypothesis (grows holds returned mapped) done
    | _ =>
      cases done
      exact holds

/-- Such a property lasts over a call of sbrk if it says nothing about the heap. -/
theorem sbrkPages {pages : List (Nat × Nat)} {end_ last : Nat} (grows : Grows P)
    (heap : ∀ {s : Space} bitmap, P s →
      P { s with mem := { s.mem with userHeapBitmap := bitmap } })
    (holds : P s) (done : s.sbrkPages base pages end_ = .ok (some last, s')) : P s' := by
  induction pages generalizing s end_ with
  | nil =>
    cases done
    exact holds
  | cons page rest inductionHypothesis =>
    unfold Space.sbrkPages at done
    obtain ⟨⟨frame, frames⟩, returned, done⟩ := Outcome.bind_ok.mp done
    cases frame with
    | none => cases done
    | some frame =>
      obtain ⟨mem, mapped, done⟩ := Outcome.bind_ok.mp done
      have marked := heap (Function.update s.mem.userHeapBitmap page.1
        (s.mem.userHeapBitmap page.1 ||| intBit page.2)) holds
      have next : P ⟨frames, mem⟩ := grows marked returned mapped
      exact inductionHypothesis next done

end Grows

theorem recorded_grows : Grows Recorded := by
  intro s frames mem frame base va a b recorded returned mapped
  obtain ⟨valid, ⟨none, -⟩ | ⟨f, some, fresh, grown⟩⟩ :=
    FrameManagers.physicalFrameRequest4kb_spec recorded.valid returned
  · cases none
  · cases some
    unfold UserMemory.map4kbPageUser at mapped
    obtain ⟨pgdir, -, mapped⟩ := Outcome.bind_ok.mp mapped
    rw [recorded.stacked.pushHead_eq] at mapped
    obtain ⟨usedPages, ⟨⟩, ⟨⟩⟩ := Outcome.bind_ok.mp mapped
    have contents := recorded.stacked.contents_pushed (⟨pgRoundDown va, frame, a, b⟩ : UsedPage)
    constructor
    case valid => exact valid
    case stacked => exact recorded.stacked.pushed fun _ => ⟨pgRoundDown va, frame, a, b⟩
    case used =>
      intro page member
      simp only [contents] at member
      rcases List.mem_cons.mp member with rfl | before
      · exact (grown frame).mpr (.inl rfl)
      · exact (grown _).mpr (.inr (recorded.used page before))
    case once =>
      simp only [contents, List.map_cons]
      refine List.nodup_cons.mpr ⟨fun member => ?_, recorded.once⟩
      obtain ⟨page, before, same⟩ := List.mem_map.mp member
      exact fresh (same ▸ recorded.used page before)

theorem sameHeap_grows (start : UserMemory) : Grows fun s => SameHeap start s.mem := by
  intro s frames mem frame base va a b same _ mapped
  unfold UserMemory.map4kbPageUser at mapped
  obtain ⟨pgdir, -, mapped⟩ := Outcome.bind_ok.mp mapped
  obtain ⟨usedPages, -, ⟨⟩⟩ := Outcome.bind_ok.mp mapped
  exact ⟨same.userHeapBitmap, same.heapAllocations⟩

theorem Recorded.syshandlerSbrk {base rsi rax : Nat} {s s' : Space} (recorded : Recorded s)
    (done : s.syshandlerSbrk base rsi = .ok (some rax, s')) : Recorded s' := by
  obtain ⟨scan, last, end_, space, heapAllocations, -, -, pages, -, rfl⟩ := syshandlerSbrk_some done
  have heap : ∀ {s : Space} bitmap, Recorded s →
      Recorded { s with mem := { s.mem with userHeapBitmap := bitmap } } :=
    fun _ recorded => ⟨recorded.valid, recorded.stacked, recorded.used, recorded.once⟩
  have start : Recorded
      ⟨s.frames, { s.mem with heapAllocations := s.mem.heapAllocations.kalloc.2 }⟩ :=
    ⟨recorded.valid, recorded.stacked, recorded.used, recorded.once⟩
  have filled := recorded_grows.sbrkPages heap start pages
  exact ⟨filled.valid, filled.stacked, filled.used, filled.once⟩

def HeapMarked (mem : UserMemory) : Prop := ∃ i < 512, mem.userHeapBitmap i ≠ 0#64

def ListEnded {α : Type} (dll : Dll α) : Prop := ∀ i, dll.first ≠ .record i

structure HeapUntouched (mem : UserMemory) : Prop where
  bitmap : ∀ i < 512, mem.userHeapBitmap i = 0#64
  heapAllocations : ListEnded mem.heapAllocations

theorem HeapUntouched.congr {mem next : UserMemory} (untouched : HeapUntouched mem)
    (same : SameHeap mem next) : HeapUntouched next := by
  constructor
  case bitmap =>
    intro i inside
    rw [same.userHeapBitmap]
    exact untouched.bitmap i inside
  case heapAllocations =>
    rw [same.heapAllocations]
    exact untouched.heapAllocations

theorem HeapMarked.congr {mem next : UserMemory} (marked : HeapMarked mem)
    (same : SameHeap mem next) : HeapMarked next := by
  obtain ⟨i, inside, nonzero⟩ := marked
  refine ⟨i, inside, ?_⟩
  rw [same.userHeapBitmap]
  exact nonzero

theorem intBit_ne_zero (bit : Nat) : intBit bit ≠ 0#64 := by
  have each : ∀ k < 32, (1#32 <<< k).signExtend 64 ≠ 0#64 := by decide
  exact each (bit % 32) (Nat.mod_lt bit (by decide))

theorem or_ne_zero {x y : BitVec 64} (nonzero : x ≠ 0#64 ∨ y ≠ 0#64) : x ||| y ≠ 0#64 := by
  intro zero
  obtain ⟨first, second⟩ := BitVec.or_eq_zero_iff.mp zero
  rcases nonzero with ne | ne
  · exact ne first
  · exact ne second

theorem sbrkPages_marks {base end_ last : Nat} {pages : List (Nat × Nat)} {s s' : Space}
    (valid : s.frames.Valid) (done : s.sbrkPages base pages end_ = .ok (some last, s')) :
    ∀ i, s.mem.userHeapBitmap i ≠ 0#64 ∨ (∃ p ∈ pages, p.1 = i) →
      s'.mem.userHeapBitmap i ≠ 0#64 := by
  induction pages generalizing s end_ with
  | nil =>
    cases done
    rintro i (nonzero | ⟨p, none, -⟩)
    · exact nonzero
    · cases none
  | cons page rest inductionHypothesis =>
    obtain ⟨s₁, validNext, step, done⟩ := sbrkPages_turn valid done
    intro i marked
    apply inductionHypothesis validNext done
    rw [step.bitmap]
    by_cases here : i = page.1
    · left
      rw [here, Function.update_self]
      exact or_ne_zero (.inr (intBit_ne_zero _))
    · rw [Function.update_of_ne here]
      rcases marked with nonzero | ⟨p, member, same⟩
      · exact .inl nonzero
      · rcases List.mem_cons.mp member with rfl | later
        · exact absurd same.symm here
        · exact .inr ⟨p, later, same⟩

theorem FirstRun.eq_zero {bitmap : Nat → BitVec 64} {n k : Nat} (run : FirstRun bitmap n k)
    (zero : ∀ i < 512, bitmap i = 0#64) (inside : k + n ≤ 512 * 64) : k = 0 := by
  by_contra later
  obtain ⟨j, -, below, set⟩ := run.first 0 (Nat.pos_of_ne_zero later)
  have word : j / 64 < 512 := by omega
  have clear : Bitmap.test 64 bitmap j = false := by
    rw [Bitmap.test, zero _ word]
    exact BitVec.getLsbD_zero
  cases set.symm.trans clear

theorem syshandlerSbrk_marks {base rsi rax : Nat} {s s' : Space} (valid : s.frames.Valid)
    (done : s.syshandlerSbrk base rsi = .ok (some rax, s')) : HeapMarked s'.mem := by
  obtain ⟨scan, last, end_, space, heapAllocations, found, -, pages, -, rfl⟩ :=
    syshandlerSbrk_some done
  have marks := sbrkPages_marks
    (s := ⟨s.frames, { s.mem with heapAllocations := s.mem.heapAllocations.kalloc.2 }⟩) valid pages
  by_cases before : HeapMarked s.mem
  · obtain ⟨i, inside, nonzero⟩ := before
    exact ⟨i, inside, marks i (.inl nonzero)⟩
  · have zero : ∀ i < 512, s.mem.userHeapBitmap i = 0#64 := by
      intro i inside
      by_contra nonzero
      exact before ⟨i, inside, nonzero⟩
    obtain ⟨inside, -, ends, first⟩ := heapRun_found (Nat.succ_pos _) found
    have start := first.eq_zero zero (by omega)
    have page : (scan.iStart, scan.bitStart) ∈ runPages scan last := by
      refine List.mem_flatMap.mpr ⟨scan.iStart, mem_upTo.mpr ⟨Nat.le_refl _, by omega⟩, ?_⟩
      exact List.mem_map.mpr ⟨scan.bitStart, mem_upTo.mpr ⟨Nat.le_refl _, by omega⟩, rfl⟩
    exact ⟨scan.iStart, by omega, marks _ (.inr ⟨_, page, rfl⟩)⟩

def freeThreads : Nat → Link → Dll Nat → ThreadTable → Outcome (Dll Nat × ThreadTable)
  | _, .null, threads, table => pure (threads, table)
  | _, .head, threads, table => pure (threads, table)
  | 0, .record _, _, _ => throw .hang
  | fuel + 1, .record i, threads, table =>
      let table := table.setStatus (threads.records i).data .killed
      let next := (threads.records i).next
      freeThreads fuel next (threads.removeDllEntry i) table

/-- The loop of `ProcFreeUserPages`, with the addresses that `try_free_chunked_frame` gets. -/
def Space.freeUserPages : Nat → Link → Space → Outcome (List Nat × Space)
  | _, .null, s => pure ([], s)
  | _, .head, s => pure ([], s)
  | 0, .record _, _ => throw .hang
  | fuel + 1, .record i, s => do
      let address := (s.mem.usedPages.records i).data.pagePa
      let (_, frames) ← s.frames.tryFreeChunkedFrame address
      let next := (s.mem.usedPages.records i).next
      let (freed, s) ← freeUserPages fuel next
        ⟨frames, { s.mem with usedPages := s.mem.usedPages.removeDllEntry i }⟩
      pure (address :: freed, s)

/-- The processes with their threads and descriptors. -/
structure Processes where
  system : System
  threads : Nat → Dll Nat
  fd : Nat → Nat → FileDescriptor

/-- The processes after process `p` and the thread table were changed. -/
def Processes.withProcess (s : Processes) (p : Nat) (table : ThreadTable) (space : Space)
    (threads : Dll Nat) (fd : Nat → FileDescriptor) : Processes where
  system := { s.system.withSpace p space with table := table }
  threads := Function.update s.threads p threads
  fd := Function.update s.fd p fd

/-- `ProcessFree`, with the addresses of the frames that it frees. -/
def Processes.processFree (s : Processes) (p : Nat) : Outcome (List Nat × Processes) := do
  -- `ProcessFreeFileDescriptors`
  let fd := fun i => if i < maxFileDesc then ⟨false, []⟩ else s.fd p i
  let (threads, table) ←
    freeThreads (s.threads p).allocated (s.threads p).first (s.threads p) s.system.table
  let table := table.modifyProc p fun proc =>
    { proc with threads := threads.contents, threadCount := 0 }
  let mem := s.system.memory p
  let (freed, space) ← (s.system.space p).freeUserPages mem.usedPages.allocated mem.usedPages.first
  let heapAllocations ← UserMemory.procFreeHeapAllocations space.mem.heapAllocations.allocated
    space.mem.heapAllocations.first space.mem.heapAllocations
  let space := { space with mem := { space.mem with heapAllocations := heapAllocations } }
  pure (freed, s.withProcess p table space threads fd)

theorem dataFrom_removed {α : Type} {dll : Dll α} (stacked : dll.Stacked) {i : Nat}
    (inside : i < dll.allocated) (fuel : Nat) (link : Link) :
    (dll.removeDllEntry i).dataFrom fuel link = dll.dataFrom fuel link := by
  apply Dll.dataFrom_congr
  intro j _
  rw [stacked.removeDllEntry_eq inside]

theorem freeThreads_ok {fuel : Nat} {link : Link} {threads : Dll Nat} (table : ThreadTable)
    (stacked : threads.Stacked) (first : threads.first = link) (enough : Dll.Enough fuel link) :
    ∃ threads', freeThreads fuel link threads table = .ok (threads',
      (threads.dataFrom fuel link).foldl (fun s t => s.setStatus t .killed) table) ∧
        threads'.Stacked ∧ ListEnded threads' := by
  induction fuel generalizing link threads table with
  | zero =>
    cases link with
    | record i => exact absurd (enough i rfl) (Nat.not_lt_zero i)
    | _ => exact ⟨threads, rfl, stacked, by simp [ListEnded, first]⟩
  | succ fuel inductionHypothesis =>
    cases link with
    | record i =>
      have inside := stacked.first i first
      have removed := stacked.removeDllEntry_eq inside
      obtain ⟨threads', done, ended⟩ := inductionHypothesis
        (table.setStatus (threads.records i).data .killed) (stacked.removeDllEntry inside)
        (by rw [removed]) (stacked.enough_next inside enough)
      refine ⟨threads', ?_, ended⟩
      unfold freeThreads
      rw [done, dataFrom_removed stacked inside]
      rfl
    | _ => exact ⟨threads, rfl, stacked, by simp [ListEnded, first]⟩

theorem freeUserPages_ok {fuel : Nat} {link : Link} {s : Space} (valid : s.frames.Valid)
    (stacked : s.mem.usedPages.Stacked) (first : s.mem.usedPages.first = link)
    (enough : Dll.Enough fuel link) :
    ∃ s', s.freeUserPages fuel link =
        .ok ((s.mem.usedPages.dataFrom fuel link).map UsedPage.pagePa, s') ∧
      ListEnded s'.mem.usedPages ∧ SameHeap s.mem s'.mem := by
  induction fuel generalizing link s with
  | zero =>
    cases link with
    | record i => exact absurd (enough i rfl) (Nat.not_lt_zero i)
    | _ => exact ⟨s, rfl, by simp [ListEnded, first], rfl, rfl⟩
  | succ fuel inductionHypothesis =>
    cases link with
    | record i =>
      have inside := stacked.first i first
      have removed := stacked.removeDllEntry_eq inside
      obtain ⟨freed, frames, release, validNext, -⟩ :=
        FrameManagers.tryFreeChunkedFrame_spec valid (s.mem.usedPages.records i).data.pagePa
      obtain ⟨s', done, ended, same⟩ := inductionHypothesis
        (s := ⟨frames, { s.mem with usedPages := s.mem.usedPages.removeDllEntry i }⟩) validNext
        (stacked.removeDllEntry inside) (by simp only [removed]) (stacked.enough_next inside enough)
      refine ⟨s', ?_, ended, same.userHeapBitmap, same.heapAllocations⟩
      rw [dataFrom_removed stacked inside] at done
      unfold Space.freeUserPages
      dsimp only
      rw [release]
      dsimp only [bind, Except.bind]
      rw [done]
      rfl
    | _ => exact ⟨s, rfl, by simp [ListEnded, first], rfl, rfl⟩

theorem freeUserPages_forget {fuel : Nat} {link : Link} {s s' : Space} {freed : List Nat}
    (done : s.freeUserPages fuel link = .ok (freed, s')) :
    s.procFreeUserPages fuel link = .ok s' := by
  induction fuel generalizing link s freed with
  | zero =>
    cases link with
    | record i => cases done
    | _ =>
      cases done
      rfl
  | succ fuel inductionHypothesis =>
    cases link with
    | record i =>
      unfold Space.freeUserPages at done
      obtain ⟨⟨released, frames⟩, release, done⟩ := Outcome.bind_ok.mp done
      obtain ⟨⟨rest, space⟩, later, ⟨⟩⟩ := Outcome.bind_ok.mp done
      unfold Space.procFreeUserPages
      exact Outcome.bind_ok.mpr ⟨_, release, inductionHypothesis later⟩
    | _ =>
      cases done
      rfl

theorem procFreeHeapAllocations_none {dll : Dll HeapAlloc} (fuel : Nat) (ended : ListEnded dll) :
    UserMemory.procFreeHeapAllocations fuel dll.first dll = .ok dll := by
  cases first : dll.first with
  | record i => exact absurd first (ended i)
  | _ =>
    unfold UserMemory.procFreeHeapAllocations
    rfl

namespace Processes

structure Freed (s : Processes) (p : Nat) (freed : List Nat) (s' : Processes) : Prop where
  usedPages : ListEnded (s'.system.memory p).usedPages
  threads : ListEnded (s'.threads p)
  descriptors : ∀ i < maxFileDesc, (s'.fd p i).inUse = false
  frames : freed.Perm ((s.system.memory p).usedPages.contents.map UsedPage.pagePa)
  once : freed.Nodup

structure TornDown (s : Processes) (p : Nat) (freed : List Nat) (s' : Processes) : Prop
    extends Freed s p freed s' where
  heapAllocations : ListEnded (s'.system.memory p).heapAllocations
  bitmap : ∀ i < 512, (s'.system.memory p).userHeapBitmap i = 0#64

/-- The lists of the processes are in order. -/
structure Inv (s : Processes) : Prop where
  inv : s.system.Inv
  once : ∀ p, ((s.system.memory p).usedPages.contents.map UsedPage.pagePa).Nodup
  threads : ∀ p, (s.threads p).Stacked
  listed : ∀ p, (s.threads p).contents = (s.system.table.procs p).threads

/-- All that is left to chance is the loop over the heap allocations. -/
theorem Inv.processFree {s : Processes} (inv : s.Inv) (p : Nat) :
    ∃ (freed : List Nat) (rest : Dll HeapAlloc → Processes), s.processFree p =
        ((UserMemory.procFreeHeapAllocations (s.system.memory p).heapAllocations.allocated
          (s.system.memory p).heapAllocations.first (s.system.memory p).heapAllocations) >>=
            fun dll => pure (freed, rest dll)) ∧
      ∀ dll, Freed s p freed (rest dll) ∧
        ((rest dll).system.memory p).heapAllocations = dll ∧
        ((rest dll).system.memory p).userHeapBitmap = (s.system.memory p).userHeapBitmap := by
  obtain ⟨threads, killed, stacked, noThreads⟩ := freeThreads_ok s.system.table (inv.threads p) rfl
    (inv.threads p).first
  obtain ⟨space, released, noPages, same⟩ := freeUserPages_ok (s := s.system.space p)
    inv.inv.valid (inv.inv.stacked p) rfl (inv.inv.stacked p).first
  let table := (((s.threads p).contents).foldl (fun s t => s.setStatus t .killed)
    s.system.table).modifyProc p fun proc => { proc with threads := threads.contents, threadCount := 0 }
  let freed := (s.system.memory p).usedPages.contents.map UsedPage.pagePa
  refine ⟨freed, fun dll => s.withProcess p table
    { space with mem := { space.mem with heapAllocations := dll } } threads
    fun i => if i < maxFileDesc then ⟨false, []⟩ else s.fd p i, ?_, fun dll => ⟨?_, ?_, ?_⟩⟩
  · unfold Processes.processFree
    dsimp only
    rw [killed]
    dsimp only [bind, Except.bind]
    have pages : (s.system.space p).freeUserPages (s.system.memory p).usedPages.allocated
      (s.system.memory p).usedPages.first = _ := released
    rw [pages]
    dsimp only
    rw [same.heapAllocations]
    rfl
  · constructor
    case usedPages => simpa [withProcess] using noPages
    case threads => simpa [withProcess] using noThreads
    case descriptors =>
      intro i inside
      simp [withProcess, inside]
    case frames => exact List.Perm.refl _
    case once => exact inv.once p
  · simp [withProcess]
  · simpa [withProcess, System.space] using same.userHeapBitmap

theorem Inv.processFree_system {s s' : Processes} {p : Nat} {freed : List Nat} (inv : s.Inv)
    (done : s.processFree p = .ok (freed, s')) :
    ∃ space threads fd, (s.system.space p).processFree = .ok space ∧ threads.Stacked ∧
      ListEnded threads ∧
      s' = s.withProcess p (s.system.table.processFreeThreads p) space threads fd := by
  obtain ⟨threads, killed, stacked, noThreads⟩ := freeThreads_ok s.system.table (inv.threads p) rfl
    (inv.threads p).first
  unfold Processes.processFree at done
  obtain ⟨⟨threads', table⟩, same, done⟩ := Outcome.bind_ok.mp done
  cases killed.symm.trans same
  obtain ⟨⟨freed', space⟩, released, done⟩ := Outcome.bind_ok.mp done
  obtain ⟨heapAllocations, loop, done⟩ := Outcome.bind_ok.mp done
  cases done
  refine ⟨{ space with mem := { space.mem with heapAllocations := heapAllocations } }, threads,
    fun i => if i < maxFileDesc then ⟨false, []⟩ else s.fd p i, ?_, stacked, noThreads, ?_⟩
  · unfold Space.processFree
    refine Outcome.bind_ok.mpr ⟨space, freeUserPages_forget released, ?_⟩
    exact Outcome.bind_ok.mpr ⟨heapAllocations, loop, rfl⟩
  · have list : (s.threads p).dataFrom (s.threads p).allocated (s.threads p).first =
        (s.system.table.procs p).threads := inv.listed p
    have empty : threads.contents = [] := Dll.contents_ended noThreads
    simp only [withProcess, list, empty]
    rfl

theorem Inv.processFree_heap {s s' : Processes} {p : Nat} {freed : List Nat} (inv : s.Inv)
    (done : s.processFree p = .ok (freed, s')) :
    (s'.system.memory p).userHeapBitmap = (s.system.memory p).userHeapBitmap ∧
      (ListEnded (s.system.memory p).heapAllocations →
        (s'.system.memory p).heapAllocations = (s.system.memory p).heapAllocations) := by
  obtain ⟨freed', rest, returned, released⟩ := inv.processFree p
  rw [returned] at done
  obtain ⟨dll, loop, same⟩ := Outcome.bind_ok.mp done
  cases same
  obtain ⟨-, heapAllocations, bitmap⟩ := released dll
  refine ⟨bitmap, fun ended => ?_⟩
  rw [procFreeHeapAllocations_none _ ended] at loop
  cases loop
  exact heapAllocations

inductive Event where
  | create (p : Nat)
  | fork (p : Nat)
  | exec (p : Nat)
  | sbrk (p : Nat)
  | descriptors (p : Nat)

/-- Process `p` is created or forked, loads another image, gets memory from sbrk, or changes
its descriptors. -/
inductive Step (layout : Layout) (s : Processes) : Event → Processes → Prop where
  | create {p t : Nat} {view : View} {elf : ElfFile} {system : System} {threads : Dll Nat} :
      s.system.table.findFreeProcess = some p → s.system.table.findFreeThread = some t →
      (s.threads p).pushHead (fun _ => t) = .ok threads →
      s.system.createUserProcess layout view elf = .ok system →
      Step layout s (.create p) ⟨system, Function.update s.threads p threads, s.fd⟩
  | fork {p t old oldProc iRip : Nat} {view : View} {system : System} {threads : Dll Nat} :
      s.system.table.findFreeProcess = some p → s.system.table.findFreeThread = some t →
      s.system.Calls old → (s.system.table.threads old).ownerProc = some oldProc →
      (s.threads p).pushHead (fun _ => t) = .ok threads →
      s.system.forkUserProcess layout view old iRip = .ok system →
      Step layout s (.fork p) ⟨system, Function.update s.threads p threads,
        Function.update s.fd p (s.fd oldProc)⟩
  | exec {p t : Nat} {view : View} {elf : ElfFile} {freed : List Nat} {s₁ : Processes}
      {system : System} {threads : Dll Nat} :
      s.system.Calls t → (s.system.table.threads t).ownerProc = some p →
      s.processFree p = .ok (freed, s₁) →
      (s₁.threads p).pushHead (fun _ => t) = .ok threads →
      s.system.execUserProcess layout view t (some elf) = .ok system →
      Step layout s (.exec p) ⟨system, Function.update s₁.threads p threads, s₁.fd⟩
  | sbrk {p t rsi rax : Nat} {space : Space} :
      s.system.Calls t → (s.system.table.threads t).ownerProc = some p →
      (s.system.space p).syshandlerSbrk (layout.pgdirPhys p) rsi = .ok (some rax, space) →
      Step layout s (.sbrk p) { s with system := s.system.withSpace p space }
  | descriptors (p : Nat) (fd : Nat → FileDescriptor) :
      Step layout s (.descriptors p) { s with fd := Function.update s.fd p fd }

section Step

variable {layout : Layout} {s s' : Processes} {p : Nat}

theorem Inv.recorded (inv : s.Inv) (inUse : (s.system.table.procs p).state = .inuse) :
    Recorded (s.system.space p) := by
  have own := inv.inv.own inUse
  constructor
  case valid => exact own.valid
  case stacked => exact own.stacked
  case used =>
    intro page member
    obtain ⟨i, listed, rfl⟩ := own.stacked.mem_contents.mp member
    have tracked : (s.system.space p).holds (s.system.others p)
        (some ((((s.system.space p).mem.usedPages.records i).data.pdTableIndex),
          ptIndex ((s.system.space p).mem.usedPages.records i).data.pageVa))
        ((s.system.space p).mem.usedPages.records i).data.pagePa := own.listed i listed
    exact own.exclusive.allocated tracked
  case once => exact inv.once p

/-- `CreateUserProcess` with a free slot: the memory of the slot has grown. -/
theorem createUserProcess_grown {t : Nat} {view : View} {elf : ElfFile} {s s' : System}
    {P : Space → Prop} (process : s.table.findFreeProcess = some p)
    (thread : s.table.findFreeThread = some t) (grows : Grows P)
    (start : P ⟨s.frames, { s.memory p with pgdir := .create (layout.pgdirPhys p) }⟩)
    (done : s.createUserProcess layout view elf = .ok s') :
    P (s'.space p) ∧ (∀ q, q ≠ p → s'.memory q = s.memory q) ∧
      ∃ iRip, s'.table = s.table.startProcess p t iRip := by
  unfold System.createUserProcess at done
  simp only [process, thread] at done
  obtain ⟨⟨iRip, loaded⟩, load, done⟩ := Outcome.bind_ok.mp done
  obtain ⟨space, stack, done⟩ := Outcome.bind_ok.mp done
  obtain ⟨-, -, done⟩ := Outcome.bind_ok.mp done
  obtain ⟨-, -, ⟨⟩⟩ := Outcome.bind_ok.mp done
  have grown := grows.createUserProcessStack (grows.elfLoadSegments start load) stack
  refine ⟨?_, fun q other => System.withSpace_memory_other s space other, iRip, ?_⟩
  · simpa [System.space, System.withSpace] using grown
  · simp [ThreadTable.createUserProcess, process, thread]

/-- `ForkUserProcess` with a free slot: the memory of the slot has grown. -/
theorem forkUserProcess_grown {t old oldProc iRip : Nat} {view : View} {s s' : System}
    {P : Space → Prop} (process : s.table.findFreeProcess = some p)
    (thread : s.table.findFreeThread = some t)
    (owner : (s.table.threads old).ownerProc = some oldProc) (grows : Grows P)
    (start : P ⟨s.frames, { s.memory p with pgdir := .create (layout.pgdirPhys p) }⟩)
    (done : s.forkUserProcess layout view old iRip = .ok s') :
    P (s'.space p) ∧ (∀ q, q ≠ p → s'.memory q = s.memory q) ∧
      s'.table = s.table.startProcess p t iRip := by
  unfold System.forkUserProcess at done
  simp only [process, thread, owner] at done
  obtain ⟨space, copied, done⟩ := Outcome.bind_ok.mp done
  obtain ⟨-, -, ⟨⟩⟩ := Outcome.bind_ok.mp done
  have grown := grows.copyPages start copied
  refine ⟨?_, fun q other => System.withSpace_memory_other s space other, ?_⟩
  · simpa [System.space, System.withSpace] using grown
  · simp [ThreadTable.forkUserProcess, process, thread, owner]

/-- `ExecUserProcess` of another image: the memory has grown from that which `ProcessFree`
leaves. -/
theorem execUserProcess_grown {t : Nat} {view : View} {elf : ElfFile} {s s' : System}
    {freed : Space} {P : Space → Prop} (owner : (s.table.threads t).ownerProc = some p)
    (free : (s.space p).processFree = .ok freed) (grows : Grows P)
    (start : P { freed with mem := { freed.mem with pgdir := .create (layout.pgdirPhys p) } })
    (done : s.execUserProcess layout view t (some elf) = .ok s') :
    P (s'.space p) ∧ (∀ q, q ≠ p → s'.memory q = s.memory q) ∧
      s'.table = s.table.execUserProcess t := by
  unfold System.execUserProcess at done
  simp only [owner] at done
  obtain ⟨freed', free', done⟩ := Outcome.bind_ok.mp done
  cases free.symm.trans free'
  obtain ⟨stacked, stack, done⟩ := Outcome.bind_ok.mp done
  obtain ⟨⟨iRip, space⟩, load, done⟩ := Outcome.bind_ok.mp done
  obtain ⟨-, -, done⟩ := Outcome.bind_ok.mp done
  obtain ⟨-, -, ⟨⟩⟩ := Outcome.bind_ok.mp done
  have grown := grows.elfLoadSegments (grows.createUserProcessStack start stack) load
  refine ⟨?_, fun q other => System.withSpace_memory_other s space other, rfl⟩
  simpa [System.space, System.withSpace] using grown

theorem recorded_released {others : Nat → Prop} {freed : Space} (released : freed.Released others)
    (base : Nat) : Recorded { freed with mem := { freed.mem with pgdir := .create base } } := by
  have none : freed.mem.usedPages.contents = [] :=
    released.stacked.contents_nil.mpr released.empty
  constructor
  case valid => exact released.valid
  case stacked => exact released.stacked
  case used =>
    intro page member
    rw [none] at member
    cases member
  case once =>
    simp only [none, List.map_nil]
    exact List.nodup_nil

/-- A process that was started has its thread on its list. -/
theorem Inv.started {t iRip : Nat} {system : System} {threads : Dll Nat}
    {fd : Nat → Nat → FileDescriptor} (inv : s.Inv) (kept : system.Inv)
    (recorded : Recorded (system.space p))
    (others : ∀ q, q ≠ p → system.memory q = s.system.memory q)
    (table : system.table = s.system.table.startProcess p t iRip)
    (pushed : (s.threads p).pushHead (fun _ => t) = .ok threads) :
    Inv ⟨system, Function.update s.threads p threads, fd⟩ := by
  rw [(inv.threads p).pushHead_eq] at pushed
  cases pushed
  constructor
  case inv => exact kept
  case once =>
    intro q
    by_cases same : q = p
    · rw [same]
      exact recorded.once
    · simp only [others q same]
      exact inv.once q
  case threads =>
    intro q
    by_cases same : q = p
    · subst same
      simpa using (inv.threads q).pushed fun _ => t
    · simpa [same] using inv.threads q
  case listed =>
    intro q
    by_cases same : q = p
    · subst same
      have contents := (inv.threads q).contents_pushed t
      simp only [Function.update_self, contents, inv.listed q, table, ThreadTable.startProcess,
        ThreadTable.modifyProc, ThreadTable.startThread, ThreadTable.modifyThread]
    · simp only [Function.update_of_ne same, inv.listed q, table, ThreadTable.startProcess,
        ThreadTable.modifyProc, ThreadTable.startThread, ThreadTable.modifyThread]

/-- A process that has loaded another image has one thread on its list. -/
theorem Inv.exec {t : Nat} {view : View} {elf : ElfFile} {freed : List Nat} {s₁ : Processes}
    {system : System} {threads : Dll Nat} (inv : s.Inv) (calls : s.system.Calls t)
    (owner : (s.system.table.threads t).ownerProc = some p)
    (free : s.processFree p = .ok (freed, s₁))
    (pushed : (s₁.threads p).pushHead (fun _ => t) = .ok threads)
    (done : s.system.execUserProcess layout view t (some elf) = .ok system) :
    Inv ⟨system, Function.update s₁.threads p threads, s₁.fd⟩ := by
  obtain ⟨-, p', owner', inUse⟩ := calls
  cases owner.symm.trans owner'
  obtain ⟨space, list, fd, released, stacked, ended, rfl⟩ := inv.processFree_system free
  have start := recorded_released ((inv.inv.own inUse).processFree released) (layout.pgdirPhys p)
  obtain ⟨recorded, others, table⟩ :=
    execUserProcess_grown owner released recorded_grows start done
  simp only [withProcess, Function.update_self, stacked.pushHead_eq] at pushed
  cases pushed
  constructor
  case inv => exact inv.inv.execUserProcess owner inUse done
  case once =>
    intro q
    by_cases same : q = p
    · rw [same]
      exact recorded.once
    · simp only [others q same]
      exact inv.once q
  case threads =>
    intro q
    by_cases same : q = p
    · subst same
      simpa using stacked.pushed fun _ => t
    · simpa [withProcess, same] using inv.threads q
  case listed =>
    intro q
    by_cases same : q = p
    · subst same
      have contents := stacked.contents_pushed t
      simp [contents, Dll.contents_ended ended, table, ThreadTable.execUserProcess, owner]
    · simp [same, withProcess, inv.listed q, table, ThreadTable.execUserProcess, owner]

theorem unused {table : ThreadTable} (process : table.findFreeProcess = some p) :
    (table.procs p).state ≠ .inuse := by
  rw [(ThreadTable.findFreeProcess_some process).2]
  exact ProcessState.noConfusion

theorem Inv.step {event : Event} (inv : s.Inv) (moved : Step layout s event s') : s'.Inv := by
  cases moved with
  | exec calls owner free pushed done => exact inv.exec calls owner free pushed done
  | @create p _ _ _ _ _ process thread pushed done =>
    have start := recorded_released (inv.inv.released (unused process)) (layout.pgdirPhys p)
    obtain ⟨recorded, others, iRip, table⟩ :=
      createUserProcess_grown process thread recorded_grows start done
    exact inv.started (inv.inv.createUserProcess done) recorded others table pushed
  | @fork p _ _ _ _ _ _ _ process thread calls owner pushed done =>
    have start := recorded_released (inv.inv.released (unused process)) (layout.pgdirPhys p)
    obtain ⟨recorded, others, table⟩ :=
      forkUserProcess_grown process thread owner recorded_grows start done
    exact inv.started (inv.inv.forkUserProcess done) recorded others table pushed
  | @sbrk p t rsi rax space calls owner done =>
    obtain ⟨-, p', owner', inUse⟩ := calls
    cases owner.symm.trans owner'
    have own := (inv.inv.own inUse).syshandlerSbrk done
    have recorded := (inv.recorded inUse).syshandlerSbrk done
    constructor
    case inv => exact inv.inv.withSpace own inUse fun _ _ => rfl
    case once =>
      intro q
      by_cases same : q = p
      · subst same
        simpa using recorded.once
      · simp only [System.withSpace_memory_other s.system space same]
        exact inv.once q
    case threads => exact inv.threads
    case listed => exact inv.listed
  | descriptors p fd => exact ⟨inv.inv, inv.once, inv.threads, inv.listed⟩

structure HeapKeeps (mem next : UserMemory) : Prop where
  untouched : HeapUntouched mem → HeapUntouched next
  marked : HeapMarked mem → HeapMarked next

theorem SameHeap.keeps {mem next : UserMemory} (same : SameHeap mem next) :
    HeapKeeps mem next where
  untouched := fun untouched => untouched.congr same
  marked := fun marked => marked.congr same

/-- Only a call of sbrk allocates, and it leaves a bit in the bitmap. -/
theorem Step.heap {event : Event} (inv : s.Inv) (moved : Step layout s event s') (q : Nat) :
    (event ≠ .sbrk q → HeapKeeps (s.system.memory q) (s'.system.memory q)) ∧
      (event = .sbrk q → HeapMarked (s'.system.memory q)) := by
  have unchanged : ∀ mem : UserMemory, HeapKeeps mem mem := fun _ => ⟨id, id⟩
  -- The step has changed the memory of one process.
  have cases {p : Nat} {mem : Nat → UserMemory} (here : HeapKeeps (s.system.memory p) (mem p))
      (others : ∀ q, q ≠ p → mem q = s.system.memory q) :
      HeapKeeps (s.system.memory q) (mem q) := by
    by_cases same : q = p
    · rw [same]
      exact here
    · rw [others q same]
      exact unchanged _
  cases moved with
  | @create p _ _ _ _ _ process thread pushed done =>
    obtain ⟨same, others, -⟩ := createUserProcess_grown process thread
      (sameHeap_grows (s.system.memory p)) ⟨rfl, rfl⟩ done
    exact ⟨fun _ => cases (SameHeap.keeps same) others, fun never => by cases never⟩
  | @fork p _ _ _ _ _ _ _ process thread calls owner pushed done =>
    obtain ⟨same, others, -⟩ := forkUserProcess_grown process thread owner
      (sameHeap_grows (s.system.memory p)) ⟨rfl, rfl⟩ done
    exact ⟨fun _ => cases (SameHeap.keeps same) others, fun never => by cases never⟩
  | @exec p t _ _ _ s₁ _ _ calls owner free pushed done =>
    obtain ⟨bitmap, allocations⟩ := inv.processFree_heap free
    obtain ⟨space, list, fd, released, -, -, rfl⟩ := inv.processFree_system free
    obtain ⟨same, others, -⟩ := execUserProcess_grown owner released
      (sameHeap_grows space.mem) ⟨rfl, rfl⟩ done
    simp only [withProcess, System.withSpace_memory_self] at bitmap allocations
    refine ⟨fun _ => cases ⟨fun untouched => ?_, fun marked => ?_⟩ others, fun never => by cases never⟩
    · have freed : SameHeap (s.system.memory p) space.mem :=
        ⟨bitmap, allocations untouched.heapAllocations⟩
      exact (untouched.congr freed).congr same
    · obtain ⟨i, inside, nonzero⟩ := marked
      have left : HeapMarked space.mem := ⟨i, inside, bitmap ▸ nonzero⟩
      exact left.congr same
  | @sbrk p t rsi rax space calls owner done =>
    refine ⟨fun other => ?_, fun here => ?_⟩
    · have apart : q ≠ p := fun same => other (same ▸ rfl)
      rw [System.withSpace_memory_other s.system space apart]
      exact unchanged _
    · cases here
      rw [System.withSpace_memory_self]
      exact syshandlerSbrk_marks inv.inv.valid done
  | descriptors p fd => exact ⟨fun _ => unchanged _, fun never => by cases never⟩

end Step

section Run

variable {layout : Layout} {s s' : Processes} {events : List Event} {p : Nat}

theorem Inv.run (inv : s.Inv) (run : Trace (Step layout) s events s') : s'.Inv :=
  run.invariant (fun _ _ _ inv moved => inv.step moved) inv

theorem marked_run (inv : s.Inv) (run : Trace (Step layout) s events s')
    (marked : HeapMarked (s.system.memory p) ∨ Event.sbrk p ∈ events) :
    HeapMarked (s'.system.memory p) := by
  induction run with
  | nil s =>
    rcases marked with marked | never
    · exact marked
    · cases never
  | @cons s s₁ s' event events moved run inductionHypothesis =>
    obtain ⟨keeps, marks⟩ := moved.heap inv p
    apply inductionHypothesis (inv.step moved)
    by_cases here : event = .sbrk p
    · exact .inl (marks here)
    · rcases marked with marked | member
      · exact .inl ((keeps here).marked marked)
      · rcases List.mem_cons.mp member with first | later
        · exact absurd first.symm here
        · exact .inr later

theorem untouched_run (inv : s.Inv) (run : Trace (Step layout) s events s')
    (none : Event.sbrk p ∉ events) (untouched : HeapUntouched (s.system.memory p)) :
    HeapUntouched (s'.system.memory p) := by
  induction run with
  | nil s => exact untouched
  | @cons s s₁ s' event events moved run inductionHypothesis =>
    obtain ⟨other, rest⟩ := List.ne_and_not_mem_of_not_mem_cons none
    obtain ⟨keeps, -⟩ := moved.heap inv p
    exact inductionHypothesis (inv.step moved) rest ((keeps other.symm).untouched untouched)

end Run

/-- At boot, no process has threads or descriptors. -/
structure Start (s : Processes) : Prop where
  system : s.system.Start
  threads : ∀ p, ∃ records, s.threads p = Dll.empty records
  descriptors : ∀ p i, s.fd p i = ⟨false, []⟩

theorem Start.inv {s : Processes} (start : s.Start) : s.Inv := by
  constructor
  case inv => exact start.system.inv
  case once =>
    intro p
    obtain ⟨used, heap, memory⟩ := start.system.memory p
    have none : (Dll.empty used).contents = [] := Dll.contents_ended (by simp [Dll.empty])
    rw [memory, none]
    exact List.nodup_nil
  case threads =>
    intro p
    obtain ⟨records, threads⟩ := start.threads p
    rw [threads]
    exact Dll.stacked_empty records
  case listed =>
    intro p
    obtain ⟨records, threads⟩ := start.threads p
    obtain ⟨idleEntry, table⟩ := start.system.table
    rw [threads, table, Dll.contents_ended (by simp [Dll.empty])]
    rfl

theorem Start.untouched {s : Processes} (start : s.Start) (p : Nat) :
    HeapUntouched (s.system.memory p) := by
  obtain ⟨used, heap, memory⟩ := start.system.memory p
  rw [memory]
  refine ⟨fun i _ => rfl, fun i => ?_⟩
  simp [Dll.empty]

theorem not_tornDown {layout : Layout} {start s s' : Processes} {events : List Event} {p : Nat}
    {freed : List Nat} (started : start.Start) (run : Trace (Step layout) start events s)
    (called : Event.sbrk p ∈ events) (done : s.processFree p = .ok (freed, s')) :
    ¬TornDown s p freed s' := by
  intro torn
  obtain ⟨i, inside, marked⟩ := marked_run started.inv run (.inr called)
  obtain ⟨bitmap, -⟩ := (started.inv.run run).processFree_heap done
  apply marked
  rw [← bitmap]
  exact torn.bitmap i inside

/-- `ProcessFree` releases everything of a process if and only if the process has got no memory
from sbrk. -/
theorem processFree_releases_iff {layout : Layout} {start s : Processes} {events : List Event}
    {p : Nat} (started : start.Start) (run : Trace (Step layout) start events s) :
    (∃ freed s', s.processFree p = .ok (freed, s') ∧ TornDown s p freed s') ↔
      Event.sbrk p ∉ events := by
  constructor
  · rintro ⟨freed, s', done, torn⟩ called
    exact not_tornDown started run called done torn
  · intro none
    obtain ⟨freed, rest, done, released⟩ := (started.inv.run run).processFree p
    have untouched := untouched_run started.inv run none (started.untouched p)
    obtain ⟨freedRest, heapAllocations, bitmap⟩ :=
      released (s.system.memory p).heapAllocations
    refine ⟨freed, rest (s.system.memory p).heapAllocations, ?_, freedRest, ?_, ?_⟩
    · rw [done, procFreeHeapAllocations_none _ untouched.heapAllocations]
      rfl
    · rw [heapAllocations]
      exact untouched.heapAllocations
    · intro i inside
      rw [bitmap]
      exact untouched.bitmap i inside

def fresh : Processes where
  system := System.fresh
  threads := fun _ => Dll.empty fun _ => ⟨.null, .null, 0⟩
  fd := fun _ _ => ⟨false, []⟩

theorem fresh_start : fresh.Start where
  system := System.fresh_start
  threads := fun _ => ⟨_, rfl⟩
  descriptors := fun _ _ => rfl

def withFirst (system : System) : Processes :=
  ⟨system, Function.update fresh.threads 0 ((fresh.threads 0).pushed fun _ => 1), fresh.fd⟩

theorem withFirst_run {system : System} (created : firstProcess = .ok system) :
    Trace (Step System.machine) fresh [.create 0] (withFirst system) := by
  have process : fresh.system.table.findFreeProcess = some 0 := by decide +kernel
  have thread : fresh.system.table.findFreeThread = some 1 := by decide +kernel
  have pushed : (fresh.threads 0).pushHead (fun _ => 1) = .ok _ :=
    (fresh_start.inv.threads 0).pushHead_eq _
  exact .cons (.create process thread pushed created) (.nil _)

theorem processFree_releases_iff_first : ∃ system, firstProcess = .ok system ∧
    ∃ freed s', (withFirst system).processFree 0 = .ok (freed, s') ∧
      TornDown (withFirst system) 0 freed s' := by
  obtain ⟨system, created, -⟩ := Outcome.of_test (by decide +kernel :
    firstProcess.test (fun _ => true) = true)
  refine ⟨system, created, ?_⟩
  exact (processFree_releases_iff fresh_start (withFirst_run created)).mpr (by simp)

/-- The first process calls sbrk for 100 bytes; after `ProcessFree`, the bit is still set. -/
theorem processFree_leaves_heap : ¬∀ (layout : Layout) (start s : Processes) (events : List Event)
    (p : Nat), start.Start → Trace (Step layout) start events s →
      ∃ freed s', s.processFree p = .ok (freed, s') ∧ TornDown s p freed s' := by
  intro releases
  obtain ⟨⟨rax, space⟩, done, passed⟩ := Outcome.of_test (by decide +kernel :
    (firstProcess >>= fun s =>
      (s.space 0).syshandlerSbrk (System.machine.pgdirPhys 0) 100).test (fun result =>
        decide (result.1 = some userHeapStart)) = true)
  obtain rfl := of_decide_eq_true passed
  obtain ⟨system, created, called⟩ := Outcome.bind_ok.mp done
  obtain ⟨system', created', first⟩ := Outcome.of_test (by decide +kernel :
    firstProcess.test System.firstThread = true)
  cases created.symm.trans created'
  have owner : (system.table.threads 1).ownerProc = some 0 :=
    of_decide_eq_true (Bool.and_eq_true_iff.mp first).1
  have call : Step System.machine (withFirst system) (.sbrk 0) _ :=
    .sbrk (System.firstThread_calls first) owner called
  have run := (withFirst_run created).snoc call
  obtain ⟨freed, s', freedAll, torn⟩ := releases _ _ _ _ 0 fresh_start run
  exact not_tornDown fresh_start run (by simp) freedAll torn

end Processes

end SwagOS.Kernel
