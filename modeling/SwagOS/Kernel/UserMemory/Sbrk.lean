import SwagOS.Kernel.UserMemory.Heap
import SwagOS.Kernel.UserMemory.Isolation

/-!
# The memory that sbrk returns

Page `k` of the heap lies below page `k - 1`, and `SYSHANDLER_sbrk` returns the address of
the first page of its run, which is the highest one.  A caller uses the memory from there on
upwards, so that it has one page, and none where the run crosses into another word of the
bitmap in such a way that the inner loop has no turn.
-/

namespace SwagOS.Kernel

open SwagOS.Lib SwagOS.DataStructures SwagOS.Mem ThreadPagetables

structure SbrkCall where
  size : Nat
  rax : Nat

section Definitions

variable (base : Nat)

/-- A call that succeeds.  Between the calls, others use the frame managers. -/
def Sbrk (mem : UserMemory) (call : SbrkCall) (next : UserMemory) : Prop :=
  ∃ frames frames', frames.Valid ∧
    (⟨frames, mem⟩ : Space).syshandlerSbrk base call.size = .ok (some call.rax, ⟨frames', next⟩)

/-- The request is for at most one page of memory, and the lowest run of free pages that is
long enough for it lies in one word. -/
structure OnePage (mem : UserMemory) (bytes : Nat) : Prop where
  small : bytes ≤ pgSize
  oneWord : ∀ k, FirstRun mem.userHeapBitmap (bytes / pgSize + 1) k →
    k / 64 = (k + bytes / pgSize) / 64

def UserWritable (mem : UserMemory) (va : Nat) : Prop :=
  ∀ view, ∃ pa, Paging.walk (mem.pgdir.tableAt base view) va base = some ⟨pa, true, true⟩

/-- The memory that was returned so far is mapped, and no byte of it was returned twice. -/
structure Usable (calls : List SbrkCall) (mem : UserMemory) : Prop where
  mapped : ∀ call ∈ calls, ∀ x < call.size, UserWritable base mem (call.rax + x)
  disjoint : calls.Pairwise fun call call' =>
    ∀ x < call.size, ∀ x' < call'.size, call.rax + x ≠ call'.rax + x'

end Definitions

variable {base : Nat}

theorem runPages_inside {scan : HeapScan} {last : Nat} (inside : last < 512 * 64) :
    ∀ p ∈ runPages scan last, 64 * p.1 + p.2 < 32768 := by
  intro p member
  obtain ⟨i, isWord, member⟩ := List.mem_flatMap.mp member
  obtain ⟨bit, isBit, rfl⟩ := List.mem_map.mp member
  have word := (mem_upTo.mp isWord).2
  have low := (mem_upTo.mp isBit).2
  simp only
  omega

/-- A call for one page maps the page whose address it returns. -/
theorem Sbrk.page {mem next : UserMemory} {call : SbrkCall} (called : Sbrk base mem call next)
    (onePage : OnePage mem call.size) :
    (∀ k < 32768, HeapMapped base mem.pgdir k → HeapMapped base next.pgdir k) ∧
      ∃ k < 32768, call.rax = heapVa k ∧ HeapMapped base next.pgdir k ∧
        ¬HeapMapped base mem.pgdir k := by
  obtain ⟨frames, frames', valid, done⟩ := called
  obtain ⟨scan, last, end_, space, heapAllocations, found, rax, pages, -, after⟩ :=
    syshandlerSbrk_some done
  obtain ⟨inside, low, ends, first⟩ := heapRun_found (Nat.succ_pos _) found
  have oneWord : last / 64 = scan.iStart := by
    have same := onePage.oneWord _ first
    have end_ : 64 * scan.iStart + scan.bitStart + call.size / pgSize = last := by omega
    rw [end_] at same
    omega
  have start : (scan.iStart, scan.bitStart) ∈ runPages scan last := by
    rw [runPages_oneWord oneWord]
    have before : 64 * scan.iStart + scan.bitStart ≤ last := by
      have more := Nat.zero_le (call.size / pgSize)
      omega
    refine List.mem_map.mpr ⟨scan.bitStart, mem_upTo.mpr ⟨Nat.le_refl _, ?_⟩, rfl⟩
    omega
  obtain ⟨kept, mapped⟩ := sbrkPages_maps valid (runPages_inside inside) pages
  obtain ⟨here, absent⟩ := mapped _ start
  obtain rfl : next = _ := congrArg Space.mem after
  refine ⟨kept, _, runPages_inside inside _ start, ?_, here, absent⟩
  rw [rax, heapAddress_eq]

/-- The pages of the calls of a run: mapped at its end, not at its start, and one for each. -/
theorem sbrk_pages {mem next : UserMemory} {calls : List SbrkCall}
    (run : Trace (fun mem call next => Sbrk base mem call next ∧ OnePage mem call.size) mem calls
      next) :
    (∀ k < 32768, HeapMapped base mem.pgdir k → HeapMapped base next.pgdir k) ∧
      (∀ call ∈ calls, call.size ≤ pgSize ∧ ∃ k < 32768, call.rax = heapVa k ∧
        HeapMapped base next.pgdir k ∧ ¬HeapMapped base mem.pgdir k) ∧
      calls.Pairwise fun call call' => call.rax ≠ call'.rax := by
  induction run with
  | nil mem =>
    refine ⟨fun k _ isMapped => isMapped, fun call none => ?_, List.Pairwise.nil⟩
    cases none
  | @cons mem₀ mem₁ mem₂ call calls moved _ inductionHypothesis =>
    obtain ⟨called, onePage⟩ := moved
    obtain ⟨keptFirst, k, inside, rax, here, absent⟩ := called.page onePage
    obtain ⟨kept, pages, distinct⟩ := inductionHypothesis
    refine ⟨fun j below isMapped => kept j below (keptFirst j below isMapped), ?_, ?_⟩
    · intro other member
      rcases List.mem_cons.mp member with rfl | later
      · exact ⟨onePage.small, k, inside, rax, kept k inside here, absent⟩
      · obtain ⟨small, j, below, rax', after, before⟩ := pages other later
        exact ⟨small, j, below, rax', after, fun isMapped => before (keptFirst j below isMapped)⟩
    · refine List.pairwise_cons.mpr ⟨fun other later same => ?_, distinct⟩
      obtain ⟨-, j, below, rax', -, before⟩ := pages other later
      rw [rax, rax'] at same
      have pages : (heapPlace k).page = (heapPlace j).page := congrArg (· / pgSize) same
      obtain rfl := heapPlace_page inside below pages
      exact before here

/-- In a run of calls for one page each, all memory that was returned can be used. -/
theorem sbrk_usable {mem next : UserMemory} {calls : List SbrkCall} (placed : Placed base)
    (run : Trace (fun mem call next => Sbrk base mem call next ∧ OnePage mem call.size) mem calls
      next) : Usable base calls next := by
  obtain ⟨-, pages, distinct⟩ := sbrk_pages run
  have byte : ∀ k < 32768, ∀ x < pgSize, (heapVa k + x) / pgSize = (heapPlace k).page := by
    intro k inside x below
    exact (UserPage.add_page 0 (.heap ⟨k, inside⟩) below).1
  constructor
  case mapped =>
    intro call member x below view
    obtain ⟨small, k, inside, rax, here, -⟩ := pages call member
    rw [rax]
    exact here.walk view placed inside (byte k inside x (Nat.lt_of_lt_of_le below small))
  case disjoint =>
    refine distinct.imp_of_mem fun {call call'} member member' other => ?_
    intro x below x' below' same
    obtain ⟨small, k, inside, rax, -, -⟩ := pages call member
    obtain ⟨small', k', inside', rax', -, -⟩ := pages call' member'
    rw [rax, rax'] at same other
    have number : (heapVa k + x) / pgSize = (heapVa k' + x') / pgSize := by rw [same]
    rw [byte k inside x (Nat.lt_of_lt_of_le below small),
      byte k' inside' x' (Nat.lt_of_lt_of_le below' small')] at number
    exact other (congrArg heapVa (heapPlace_page inside inside' number))

def firstProcess : Outcome System :=
  System.fresh.createUserProcess System.machine System.nothingElse System.program

def firstCalls (s : System) (first second : Nat) : Outcome (Option Nat × Option Nat × Space) := do
  let (rax, space) ← (s.space 0).syshandlerSbrk (System.machine.pgdirPhys 0) first
  let (rax', space) ← space.syshandlerSbrk (System.machine.pgdirPhys 0) second
  pure (rax, rax', space)

theorem firstProcess_valid {s : System} (created : firstProcess = .ok s) : s.frames.Valid :=
  (System.fresh_start.inv.createUserProcess created).valid

theorem machine_placed : Placed (System.machine.pgdirPhys 0) := by
  constructor <;> decide

theorem onePage_small (mem : UserMemory) {bytes : Nat} (small : bytes < pgSize) :
    OnePage mem bytes := by
  refine ⟨Nat.le_of_lt small, fun k _ => ?_⟩
  rw [Nat.div_eq_of_lt small, Nat.add_zero]

theorem sbrk_usable_twoPages : ∃ s mem, firstProcess = .ok s ∧
    Trace (Sbrk (System.machine.pgdirPhys 0)) (s.memory 0)
      [⟨100, userHeapStart⟩, ⟨100, userHeapStart - pgSize⟩] mem ∧
    Usable (System.machine.pgdirPhys 0)
      [⟨100, userHeapStart⟩, ⟨100, userHeapStart - pgSize⟩] mem := by
  obtain ⟨⟨rax, rax', space'⟩, done, passed⟩ := Outcome.of_test (by decide +kernel :
    (firstProcess >>= fun s => firstCalls s 100 100).test (fun result =>
      decide (result.1 = some userHeapStart ∧ result.2.1 = some (userHeapStart - pgSize))) = true)
  obtain ⟨rfl, rfl⟩ := of_decide_eq_true passed
  obtain ⟨s, created, done⟩ := Outcome.bind_ok.mp done
  obtain ⟨⟨rax, space⟩, first, done⟩ := Outcome.bind_ok.mp done
  obtain ⟨⟨rax', space''⟩, second, same⟩ := Outcome.bind_ok.mp done
  cases same
  obtain ⟨s', created', inUse⟩ := Outcome.of_test (by decide +kernel :
    firstProcess.test System.firstThread = true)
  cases created.symm.trans created'
  have inv := System.fresh_start.inv.createUserProcess created
  have own := inv.own (of_decide_eq_true (Bool.and_eq_true_iff.mp inUse).2)
  have valid := (own.syshandlerSbrk first).valid
  have firstCall : Sbrk _ (s.memory 0) ⟨100, userHeapStart⟩ space.mem :=
    ⟨_, _, firstProcess_valid created, first⟩
  have secondCall : Sbrk _ space.mem ⟨100, userHeapStart - pgSize⟩ space'.mem :=
    ⟨_, _, valid, second⟩
  refine ⟨s, _, created, .cons firstCall (.cons secondCall (.nil _)), ?_⟩
  apply sbrk_usable machine_placed
  apply Trace.cons ⟨firstCall, onePage_small _ (by decide)⟩
  exact Trace.cons ⟨secondCall, onePage_small _ (by decide)⟩ (.nil _)

/-- A process that asks for 5000 bytes gets a page of them; above it, nothing is mapped. -/
theorem sbrk_unmapped : ∃ s mem, firstProcess = .ok s ∧
    Sbrk (System.machine.pgdirPhys 0) (s.memory 0) ⟨5000, userHeapStart⟩ mem ∧
      ¬Usable (System.machine.pgdirPhys 0) [⟨5000, userHeapStart⟩] mem := by
  obtain ⟨⟨rax, space⟩, done, passed⟩ := Outcome.of_test (by decide +kernel :
    (firstProcess >>= fun s =>
      (s.space 0).syshandlerSbrk (System.machine.pgdirPhys 0) 5000).test (fun result =>
        decide (result.1 = some userHeapStart ∧
          Paging.walk (result.2.mem.pgdir.tableAt (System.machine.pgdirPhys 0) System.nothingElse)
            (userHeapStart + 4096) (System.machine.pgdirPhys 0) = none)) = true)
  obtain ⟨rfl, unmapped⟩ := of_decide_eq_true passed
  obtain ⟨s, created, called⟩ := Outcome.bind_ok.mp done
  refine ⟨s, space.mem, created, ⟨s.frames, space.frames, firstProcess_valid created, called⟩, ?_⟩
  intro usable
  obtain ⟨pa, mapped⟩ := usable.mapped _ List.mem_cons_self 4096 (by decide) System.nothingElse
  cases unmapped.symm.trans mapped

end SwagOS.Kernel
