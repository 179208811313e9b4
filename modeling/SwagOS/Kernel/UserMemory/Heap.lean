import SwagOS.Kernel.UserMemory.Regions
import SwagOS.Lib.Bitmap
import SwagOS.Mem.ChunkedFrames.Safety

/-!
# The heap of a process

`SYSHANDLER_sbrk` looks for a run of clear bits in the heap bitmap, and maps a page for each
bit between the first and the last one, in the words and the bits of both.  Bit `k` belongs
to the page `k` pages below the start of the heap.
-/

namespace SwagOS.Kernel

open SwagOS.Lib SwagOS.DataStructures SwagOS.Mem ThreadPagetables

/-- The lowest `n` clear bits in a row begin with bit `k`. -/
structure FirstRun (bitmap : Nat → BitVec 64) (n k : Nat) : Prop where
  clear : ∀ j, k ≤ j → j < k + n → Bitmap.test 64 bitmap j = false
  first : ∀ k' < k, ∃ j, k' ≤ j ∧ j < k' + n ∧ Bitmap.test 64 bitmap j = true

namespace HeapScan

def advance (bitmap : Nat → BitVec 64) (k : Nat) (scan : HeapScan) : HeapScan :=
  if bitmap (k / 64) >>> (k % 64) &&& 1#64 = 0#64 then
    if scan.currCount = 0 then ⟨1, k / 64, k % 64⟩
    else { scan with currCount := scan.currCount + 1 }
  else { scan with currCount := 0 }

/-- The present run consists of the last bits before `next`, as many as there are clear ones
in a row. -/
structure Counts (bitmap : Nat → BitVec 64) (next : Nat) (scan : HeapScan) : Prop where
  bit : 0 < scan.currCount → scan.bitStart < 64
  ends : 0 < scan.currCount → 64 * scan.iStart + scan.bitStart + scan.currCount = next
  bound : scan.currCount ≤ next
  clear : ∀ j, next - scan.currCount ≤ j → j < next → Bitmap.test 64 bitmap j = false
  maximal : scan.currCount = next ∨ Bitmap.test 64 bitmap (next - scan.currCount - 1) = true

variable {bitmap : Nat → BitVec 64} {numPages next k : Nat} {scan : HeapScan}

theorem Counts.start : Counts bitmap 0 ⟨0, 0, 0⟩ where
  bit := fun never => absurd never (Nat.lt_irrefl 0)
  ends := fun never => absurd never (Nat.lt_irrefl 0)
  bound := Nat.le_refl 0
  clear := fun j _ never => absurd never (Nat.not_lt_zero j)
  maximal := .inl rfl

theorem Counts.advance (counts : Counts bitmap k scan) :
    Counts bitmap (k + 1) (scan.advance bitmap k) := by
  have inside : k % 64 < 64 := Nat.mod_lt k (by decide)
  have bound := counts.bound
  rw [HeapScan.advance]
  split
  next zero =>
    have clear : Bitmap.test 64 bitmap k = false :=
      (Bitmap.shiftRight_and_one_eq_zero inside).mp zero
    have longer : ∀ j, k - scan.currCount ≤ j → j < k + 1 → Bitmap.test 64 bitmap j = false := by
      intro j first below
      by_cases last : j = k
      · rw [last]
        exact clear
      · exact counts.clear j first (by omega)
    split
    next fresh =>
      have maximal := counts.maximal
      rw [fresh] at longer maximal
      constructor
      case bit => exact fun _ => inside
      case ends => exact fun _ => congrArg (· + 1) (Nat.div_add_mod k 64)
      case bound => exact Nat.succ_le_succ (Nat.zero_le k)
      case clear => exact fun j first below => longer j first below
      case maximal =>
        rcases maximal with none | set
        · exact .inl (congrArg (· + 1) none)
        · exact .inr set
    next counted =>
      have positive := Nat.pos_of_ne_zero counted
      have same : k + 1 - (scan.currCount + 1) = k - scan.currCount := Nat.add_sub_add_right _ _ _
      constructor
      case bit => exact fun _ => counts.bit positive
      case ends => exact fun _ => congrArg (· + 1) (counts.ends positive)
      case bound => exact Nat.succ_le_succ bound
      case clear =>
        intro j first below
        exact longer j (same ▸ first) below
      case maximal =>
        rcases counts.maximal with all | set
        · exact .inl (congrArg (· + 1) all)
        · exact .inr (same ▸ set)
  next nonzero =>
    have set : Bitmap.test 64 bitmap k = true := by
      apply Bool.eq_true_of_not_eq_false
      exact fun clear => nonzero ((Bitmap.shiftRight_and_one_eq_zero inside).mpr clear)
    constructor
    case bit => exact fun never => absurd never (Nat.lt_irrefl 0)
    case ends => exact fun never => absurd never (Nat.lt_irrefl 0)
    case bound => exact Nat.zero_le _
    case clear => exact fun j first below => absurd first (Nat.not_le_of_lt below)
    case maximal => exact .inr set

structure Searching (bitmap : Nat → BitVec 64) (numPages next : Nat) (scan : HeapScan) : Prop where
  counts : Counts bitmap next scan
  short : scan.currCount < numPages
  none : ∀ k, k + numPages ≤ next → ∃ j, k ≤ j ∧ j < k + numPages ∧ Bitmap.test 64 bitmap j = true

/-- The search goes on as long as the run is not complete. -/
theorem Searching.advance (searching : Searching bitmap numPages next scan)
    (incomplete : (scan.advance bitmap next).currCount ≠ numPages) :
    Searching bitmap numPages (next + 1) (scan.advance bitmap next) := by
  have counts := searching.counts.advance
  have short : (scan.advance bitmap next).currCount < numPages := by
    have before := searching.short
    rw [HeapScan.advance] at incomplete ⊢
    split
    next zero =>
      rw [if_pos zero] at incomplete
      split
      next fresh =>
        rw [if_pos fresh] at incomplete
        exact Nat.lt_of_le_of_ne (Nat.succ_le_of_lt (Nat.zero_lt_of_lt before)) incomplete
      next counted =>
        rw [if_neg counted] at incomplete
        exact Nat.lt_of_le_of_ne before incomplete
    next => exact Nat.zero_lt_of_lt before
  refine ⟨counts, short, fun k ends => ?_⟩
  by_cases old : k + numPages ≤ next
  · exact searching.none k old
  · have bound := counts.bound
    rcases counts.maximal with all | set
    · omega
    · exact ⟨_, by omega, by omega, set⟩

theorem run_found {n last : Nat} {found : HeapScan} (left : n ≤ 512 * 64)
    (searching : Searching bitmap numPages (512 * 64 - n) scan)
    (done : run bitmap numPages n scan = (found, some last)) :
    last < 512 * 64 ∧ found.bitStart < 64 ∧
      64 * found.iStart + found.bitStart + numPages = last + 1 ∧
      FirstRun bitmap numPages (64 * found.iStart + found.bitStart) := by
  induction n generalizing scan with
  | zero => cases done
  | succ n inductionHypothesis =>
    have after : 512 * 64 - (n + 1) + 1 = 512 * 64 - n := by omega
    have turn : run bitmap numPages (n + 1) scan =
        if (scan.advance bitmap (512 * 64 - (n + 1))).currCount = numPages then
          (scan.advance bitmap (512 * 64 - (n + 1)), some (512 * 64 - (n + 1)))
        else run bitmap numPages n (scan.advance bitmap (512 * 64 - (n + 1))) := rfl
    rw [turn] at done
    split at done
    next complete =>
      have counts := searching.counts.advance
      have positive := Nat.zero_lt_of_lt searching.short
      cases done
      have ends := counts.ends (by omega)
      have clear := counts.clear
      rw [complete] at ends clear
      refine ⟨by omega, counts.bit (by omega), ends, fun j first below => ?_, fun k' before => ?_⟩
      · exact clear j (by omega) (by omega)
      · exact searching.none k' (by omega)
    next incomplete =>
      have next := searching.advance incomplete
      rw [after] at next
      exact inductionHypothesis (by omega) next done

end HeapScan

theorem heapRun_found {bitmap : Nat → BitVec 64} {numPages last : Nat} {scan : HeapScan}
    (positive : 0 < numPages)
    (done : HeapScan.run bitmap numPages (512 * 64) ⟨0, 0, 0⟩ = (scan, some last)) :
    last < 512 * 64 ∧ scan.bitStart < 64 ∧
      64 * scan.iStart + scan.bitStart + numPages = last + 1 ∧
      FirstRun bitmap numPages (64 * scan.iStart + scan.bitStart) := by
  apply HeapScan.run_found (Nat.le_refl _) _ done
  exact ⟨.start, positive, fun k short => absurd short (by omega)⟩

def heapVa (k : Nat) : Nat := userHeapStart - pgSize * k

theorem heapAddress_eq (i bit : Nat) : heapAddress i bit = heapVa (64 * i + bit) := by
  rw [heapAddress, heapVa, pgSize]
  congr 1
  omega

def heapPlace (k : Nat) : PagePlace :=
  ⟨heapVa k, 3, 2 + (userHeapStart - heapVa k) / hugePgSize⟩

theorem heapPlace_mem {k : Nat} (inside : k < 32768) : heapPlace k ∈ UserPage.places 0 :=
  UserPage.placeAt_mem 0 (.heap ⟨k, inside⟩) (by decide : 0 < pgSize)

theorem heapPlace_page {k k' : Nat} (inside : k < 32768) (inside' : k' < 32768)
    (same : (heapPlace k).page = (heapPlace k').page) : k = k' := by
  have pages : UserPage.heap ⟨k, inside⟩ = UserPage.heap ⟨k', inside'⟩ :=
    UserPage.page_injective (by decide : 0 < 512) same
  rw [UserPage.heap.injEq, Fin.mk.injEq] at pages
  exact pages

/-- One turn of the allocation loops. -/
structure HeapStep (base i bit : Nat) (mem next : UserMemory) : Prop where
  tables : ∃ frame, frame % pgSize = 0 ∧ frame < 2 ^ 52 ∧
    mem.pgdir.map4kbPageUser base (heapPlace (64 * i + bit)).va frame
      (heapPlace (64 * i + bit)).pdtTableIndex (heapPlace (64 * i + bit)).pdTableIndex =
        .ok next.pgdir ∧
    mem.usedPages.pushHead (fun _ => UserMemory.usedPage (heapPlace (64 * i + bit)) frame) =
      .ok next.usedPages
  bitmap : next.userHeapBitmap =
    Function.update mem.userHeapBitmap i (mem.userHeapBitmap i ||| intBit bit)
  heapAllocations : next.heapAllocations = mem.heapAllocations

/-- The first request fails and the loops end there, or they go on after one turn. -/
theorem sbrkPages_step {base i bit end_ : Nat} {result : Option Nat} {rest : List (Nat × Nat)}
    {s s' : Space} (valid : s.frames.Valid)
    (done : s.sbrkPages base ((i, bit) :: rest) end_ = .ok (result, s')) :
    (result = none ∧ ∃ frames, s.frames.physicalFrameRequest4kb = .ok (none, frames) ∧
      (∀ g, frames.Used g ↔ s.frames.Used g) ∧ s' = { s with frames := frames }) ∨
    ∃ frame, ∃ s₁ : Space, s.frames.physicalFrameRequest4kb = .ok (some frame, s₁.frames) ∧
      s₁.frames.Valid ∧ HeapStep base i bit s.mem s₁.mem ∧
      s₁.sbrkPages base rest (heapAddress i bit + 0xFFF) = .ok (result, s') := by
  rw [Space.sbrkPages] at done
  obtain ⟨⟨frame, frames⟩, returned, done⟩ := Outcome.bind_ok.mp done
  obtain ⟨validNext, ⟨rfl, same⟩ | ⟨f, rfl, fresh, grown⟩⟩ :=
    FrameManagers.physicalFrameRequest4kb_spec valid returned
  · cases done
    exact .inl ⟨rfl, frames, returned, same, rfl⟩
  · right
    have used : frames.Used f := (grown f).mpr (.inl rfl)
    obtain ⟨mem, mapped, done⟩ := Outcome.bind_ok.mp done
    rw [UserMemory.map4kbPageUser] at mapped
    obtain ⟨pgdir, tables, mapped⟩ := Outcome.bind_ok.mp mapped
    obtain ⟨usedPages, pushed, ⟨⟩⟩ := Outcome.bind_ok.mp mapped
    rw [heapAddress_eq] at tables pushed
    refine ⟨f, _, returned, validNext, ?_, done⟩
    exact ⟨⟨f, used.aligned validNext, used.below validNext, tables, pushed⟩, rfl, rfl⟩

/-- The loops of a call that succeeds go on after one turn. -/
theorem sbrkPages_turn {base i bit end_ last : Nat} {rest : List (Nat × Nat)} {s s' : Space}
    (valid : s.frames.Valid)
    (done : s.sbrkPages base ((i, bit) :: rest) end_ = .ok (some last, s')) :
    ∃ s₁ : Space, s₁.frames.Valid ∧ HeapStep base i bit s.mem s₁.mem ∧
      s₁.sbrkPages base rest (heapAddress i bit + 0xFFF) = .ok (some last, s') := by
  rcases sbrkPages_step valid done with ⟨failed, -⟩ | ⟨frame, s₁, -, turn⟩
  · cases failed
  · exact ⟨s₁, turn⟩

/-- The entries of page `k` lead to a frame. -/
structure HeapMapped (base : Nat) (pgdir : ThreadPagetables) (k : Nat) : Prop where
  route : Route base pgdir (heapPlace k)
  frame : ∃ frame, frame % pgSize = 0 ∧ frame < 2 ^ 52 ∧
    pgdir.pd (heapPlace k).pdTableIndex (ptIndex (heapPlace k).va) = entry frame userFlags

section Mapped

variable {base i bit k : Nat} {pgdir : ThreadPagetables} {mem next : UserMemory}

theorem HeapMapped.present (isMapped : HeapMapped base pgdir k) :
    Paging.present (pgdir.pd (heapPlace k).pdTableIndex (ptIndex (heapPlace k).va)) = true := by
  obtain ⟨frame, aligned, below, here⟩ := isMapped.frame
  rw [here]
  exact (entry_userFlags aligned below).1

theorem HeapMapped.walk (view : View) {va : Nat} (placed : Placed base) (inside : k < 32768)
    (isMapped : HeapMapped base pgdir k) (same : va / pgSize = (heapPlace k).page) :
    ∃ pa, Paging.walk (pgdir.tableAt base view) va base = some ⟨pa, true, true⟩ := by
  obtain ⟨frame, aligned, below, here⟩ := isMapped.frame
  have compatible := UserPage.places_compatible (by decide : 0 < 512)
  have isPlace := heapPlace_mem inside
  exact ⟨_, Route.walk_frame view placed isMapped.route (compatible.pdtInside _ isPlace)
    (compatible.pdInside _ isPlace) (compatible.canonical _ isPlace) here aligned below same⟩

theorem HeapStep.maps (step : HeapStep base i bit mem next) :
    HeapMapped base next.pgdir (64 * i + bit) := by
  obtain ⟨frame, aligned, below, tables, -⟩ := step.tables
  obtain ⟨-, -, -, pd⟩ := map4kbPageUser_tables tables
  refine ⟨.of_map tables, frame, aligned, below, ?_⟩
  rw [pd, Function.update_self, Function.update_self]

theorem HeapStep.absent (step : HeapStep base i bit mem next) :
    Paging.present (mem.pgdir.pd (heapPlace (64 * i + bit)).pdTableIndex
      (ptIndex (heapPlace (64 * i + bit)).va)) = false := by
  obtain ⟨frame, -, -, tables, -⟩ := step.tables
  obtain ⟨vacant, -⟩ := map4kbPageUser_ok tables
  apply Bool.eq_false_of_not_eq_true
  rw [← and_pagePresent]
  exact not_not_intro vacant

theorem HeapStep.keeps (step : HeapStep base i bit mem next) (inside : k < 32768)
    (inside' : 64 * i + bit < 32768) (isMapped : HeapMapped base mem.pgdir k) :
    HeapMapped base next.pgdir k := by
  have absent := step.absent
  obtain ⟨frame, -, -, tables, -⟩ := step.tables
  have compatible := UserPage.places_compatible (by decide : 0 < 512)
  have isPlace := heapPlace_mem inside
  have isNew := heapPlace_mem inside'
  have other : (heapPlace k).page ≠ (heapPlace (64 * i + bit)).page := by
    intro same
    obtain rfl := heapPlace_page inside inside' same
    rw [isMapped.present] at absent
    cases absent
  refine ⟨compatible.route isPlace isNew tables isMapped.route, ?_⟩
  rw [compatible.pd_entry isPlace isNew tables other]
  exact isMapped.frame

end Mapped

/-- The loops map all pages, which were not mapped before, and keep the others. -/
theorem sbrkPages_maps {base end_ last : Nat} {pages : List (Nat × Nat)} {s s' : Space}
    (valid : s.frames.Valid) (inside : ∀ p ∈ pages, 64 * p.1 + p.2 < 32768)
    (done : s.sbrkPages base pages end_ = .ok (some last, s')) :
    (∀ k < 32768, HeapMapped base s.mem.pgdir k → HeapMapped base s'.mem.pgdir k) ∧
      ∀ p ∈ pages, HeapMapped base s'.mem.pgdir (64 * p.1 + p.2) ∧
        ¬HeapMapped base s.mem.pgdir (64 * p.1 + p.2) := by
  induction pages generalizing s end_ with
  | nil =>
    cases done
    exact ⟨fun k _ isMapped => isMapped, fun p none => by cases none⟩
  | cons page rest inductionHypothesis =>
    obtain ⟨s₁, validNext, step, done⟩ := sbrkPages_turn valid done
    have first := inside page List.mem_cons_self
    obtain ⟨kept, mapped⟩ := inductionHypothesis validNext
      (fun p later => inside p (List.mem_cons_of_mem _ later)) done
    refine ⟨fun k below isMapped => kept k below (step.keeps below first isMapped), ?_⟩
    intro p member
    rcases List.mem_cons.mp member with rfl | later
    · refine ⟨kept _ first step.maps, fun isMapped => ?_⟩
      exact Bool.noConfusion (step.absent.symm.trans isMapped.present)
    · obtain ⟨after, before⟩ := mapped p later
      exact ⟨after, fun isMapped => before (step.keeps (inside p member) first isMapped)⟩

/-- The pages of a run from bit `first` to bit `last`. -/
def runPages (scan : HeapScan) (last : Nat) : List (Nat × Nat) :=
  (upTo scan.iStart (last / 64)).flatMap fun i =>
    (upTo scan.bitStart (last % 64)).map fun bit => (i, bit)

theorem upTo_self (i : Nat) : upTo i i = [i] := by
  rw [upTo, Nat.add_sub_cancel_left]
  rfl

theorem mem_upTo {first last i : Nat} : i ∈ upTo first last ↔ first ≤ i ∧ i ≤ last := by
  rw [upTo, List.mem_range'_1]
  omega

theorem runPages_oneWord {scan : HeapScan} {last : Nat} (oneWord : last / 64 = scan.iStart) :
    runPages scan last = (upTo scan.bitStart (last % 64)).map fun bit => (scan.iStart, bit) := by
  rw [runPages, oneWord, upTo_self, List.flatMap_cons, List.flatMap_nil, List.append_nil]

def heapAlloc (scan : HeapScan) (last end_ : Nat) : HeapAlloc :=
  ⟨heapAddress scan.iStart scan.bitStart, end_, scan.bitStart, last % 64, scan.iStart, last / 64⟩

theorem syshandlerSbrk_some {base rsi rax : Nat} {s s' : Space}
    (done : s.syshandlerSbrk base rsi = .ok (some rax, s')) :
    ∃ scan last end_ space heapAllocations,
      HeapScan.run s.mem.userHeapBitmap (rsi / pgSize + 1) (512 * 64) ⟨0, 0, 0⟩ =
        (scan, some last) ∧
      rax = heapAddress scan.iStart scan.bitStart ∧
      Space.sbrkPages base (runPages scan last) 0
        ⟨s.frames, { s.mem with heapAllocations := s.mem.heapAllocations.kalloc.2 }⟩ =
          .ok (some end_, space) ∧
      (space.mem.heapAllocations.modify s.mem.heapAllocations.allocated fun _ =>
        heapAlloc scan last end_).insertDllEntryHead s.mem.heapAllocations.allocated =
          .ok heapAllocations ∧
      s' = ⟨space.frames, { space.mem with heapAllocations := heapAllocations }⟩ := by
  rw [Space.syshandlerSbrk] at done
  split at done
  · cases done
  next scan last found =>
    obtain ⟨⟨end_, space⟩, pages, done⟩ := Outcome.bind_ok.mp done
    cases end_ with
    | none => cases done
    | some end_ =>
      obtain ⟨heapAllocations, inserted, ⟨⟩⟩ := Outcome.bind_ok.mp done
      exact ⟨scan, last, end_, space, heapAllocations, found, rfl, pages, inserted, rfl⟩

end SwagOS.Kernel
