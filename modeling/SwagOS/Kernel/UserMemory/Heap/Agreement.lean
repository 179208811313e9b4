import SwagOS.Kernel.UserMemory.Heap

/-!
# What is known of a heap page

A page of the heap is known in four places: in the bitmap, in the page tables, in the list of
used pages and in the list of heap allocations.  `SYSHANDLER_sbrk` keeps them together where
the run that it finds lies in the first 31 bits of a word.  The tables that the other pages
of a process use do not lead to its heap.
-/

namespace SwagOS.Kernel

open SwagOS.Lib SwagOS.DataStructures SwagOS.Mem ThreadPagetables

def HeapAlloc.Holds (entry : HeapAlloc) (k : Nat) : Prop :=
  64 * entry.iStart + entry.bitStart ≤ k ∧ k ≤ 64 * entry.iEnd + entry.bitEnd

instance (entry : HeapAlloc) (k : Nat) : Decidable (entry.Holds k) :=
  inferInstanceAs (Decidable (_ ∧ _))

namespace UserMemory

def heapBit (mem : UserMemory) (k : Nat) : Bool := Bitmap.test 64 mem.userHeapBitmap k

/-- The number of entries that page `k` has in the list of used pages. -/
def heapUses (mem : UserMemory) (k : Nat) : Nat :=
  mem.usedPages.contents.countP fun page => page.pageVa = heapVa k

/-- The number of allocations that page `k` lies in. -/
def heapHolders (mem : UserMemory) (k : Nat) : Nat :=
  mem.heapAllocations.contents.countP fun entry => entry.Holds k

structure HeapAgrees (base : Nat) (mem : UserMemory) : Prop where
  present : ∀ k < 32768, ∀ view,
    (Paging.walk (mem.pgdir.tableAt base view) (heapVa k) base).isSome = true ↔
      mem.heapBit k = true
  used : ∀ k < 32768, mem.heapUses k = 1 ↔ mem.heapBit k = true
  held : ∀ k < 32768, mem.heapHolders k = 1 ↔ mem.heapBit k = true

def NoHeapPage (mem : UserMemory) : Prop := ∀ k < 32768, mem.heapBit k = false

end UserMemory

theorem heapVa_slots {k : Nat} (inside : k < 32768) :
    pml4tIndex (heapPlace k).va = 511 ∧ pdptIndex (heapPlace k).va = 507 ∧
      pdtIndex (heapPlace k).va = 511 - k / 512 ∧ ptIndex (heapPlace k).va = 511 - k % 512 := by
  have slots := UserPage.va_slots (.heap ⟨k, inside⟩) (by decide : 0 < 512)
    (rfl : (heapPlace k).va / pgSize = _)
  obtain ⟨second, third, last⟩ : _ ∧ _ ∧ _ := by
    rwa [Prod.ext_iff, Prod.ext_iff] at slots
  refine ⟨?_, second, third, last⟩
  rw [pml4tIndex_eq, Paging.index, Paging.span, heapPlace, heapVa, userHeapStart, pgSize]
  simp only
  omega

theorem heapPlace_pdTable {k : Nat} (inside : k < 32768) :
    (heapPlace k).pdTableIndex = 2 + k / 512 :=
  (Prod.ext_iff.mp (UserPage.place_tables 0 (.heap ⟨k, inside⟩))).2

/-- A page that is not one of the heap, as the other callers of `map_4kb_page_user` map it.
`low` tells which of its indices keeps the image out of the heap: all of it lies outside the
heap's slot of the shared `pdpt`, or below the last 64 slots of its page directory. -/
inductive Elsewhere (low : Bool) (va : Nat) : Nat → Nat → Prop where
  | image : (low = false → pdptIndex va ≠ 507) → (low = true → pdtIndex va < 448) →
      Elsewhere low va 1 0
  | stack : pdptIndex va = 63 → Elsewhere low va 500 500

structure HeapTables (low : Bool) (base : Nat) (pgdir : ThreadPagetables) (bit : Nat → Bool) :
    Prop where
  pml4t : pgdir.pml4t 511 = entry (pdptPhys base) kernelFlags ∨
    pgdir.pml4t 511 = entry (pdptPhys base) userFlags
  pdpt : pgdir.pdpt 507 = 0#64 ∨ pgdir.pdpt 507 = entry (pdtPhys base 3) userFlags ∨
    low = true ∧ pgdir.pdpt 507 = entry (pdtPhys base 1) userFlags
  image : low = true → ∀ j, 448 ≤ j → pgdir.pdt 1 j = 0#64
  pdt : ∀ k < 32768, pgdir.pdt 3 (pdtIndex (heapPlace k).va) = 0#64 ∨
    pgdir.pdt 3 (pdtIndex (heapPlace k).va) =
      entry (pdPhys base (heapPlace k).pdTableIndex) userFlags
  mapped : ∀ k < 32768, bit k = true → HeapMapped base pgdir k
  vacant : ∀ k < 32768, bit k = false →
    pgdir.pd (heapPlace k).pdTableIndex (ptIndex (heapPlace k).va) = 0#64

theorem heapTables_create (low : Bool) (base : Nat) {bit : Nat → Bool}
    (none : ∀ k < 32768, bit k = false) : HeapTables low base (create base) bit where
  pml4t := by
    left
    simp only [create, uvaCopyKernel, Function.update_self]
    rfl
  pdpt := by
    left
    simp only [create, uvaCopyKernel, Function.update_of_ne (by decide : (507 : Nat) ≠ 510)]
    rfl
  image := by
    intro _ j _
    simp only [create, uvaCopyKernel, Function.update_of_ne (by decide : (1 : Nat) ≠ 0)]
    rfl
  pdt := by
    intro k _
    left
    simp only [create, uvaCopyKernel, Function.update_of_ne (by decide : (3 : Nat) ≠ 0)]
    rfl
  mapped := by
    intro k inside set
    rw [none k inside] at set
    cases set
  vacant := fun k _ _ => rfl

/-- The processor reaches a page of the heap where its bit is set. -/
theorem HeapTables.walk {low : Bool} {base : Nat} {pgdir : ThreadPagetables} {bit : Nat → Bool}
    (placed : Placed base) (tables : HeapTables low base pgdir bit) (view : View) {k : Nat}
    (inside : k < 32768) :
    (Paging.walk (pgdir.tableAt base view) (heapVa k) base).isSome = true ↔ bit k = true := by
  cases isSet : bit k with
  | true =>
    obtain ⟨pa, walked⟩ := (tables.mapped k inside isSet).walk view placed inside rfl
    have here : Paging.walk (pgdir.tableAt base view) (heapVa k) base = _ := walked
    rw [here]
    exact iff_of_true rfl rfl
  | false =>
    obtain ⟨highest, second, third, -⟩ := heapVa_slots inside
    have absent : Paging.walk (pgdir.tableAt base view) (heapPlace k).va base = none := by
      apply walk_none placed
      · rw [highest]
        exact .inr tables.pml4t
      · have pdpt := tables.pdpt
        rw [← second] at pdpt
        rcases pdpt with null | heap | ⟨isLow, image⟩
        · apply walkFrom_pdpt_none placed (by decide : 3 < 512) (.inl null)
          exact walkFrom_pd_none placed (by decide) (by rw [heapPlace_pdTable inside]; omega)
            (tables.pdt k inside) (tables.vacant k inside isSet)
        · apply walkFrom_pdpt_none placed (by decide : 3 < 512) (.inr heap)
          exact walkFrom_pd_none placed (by decide) (by rw [heapPlace_pdTable inside]; omega)
            (tables.pdt k inside) (tables.vacant k inside isSet)
        · apply walkFrom_pdpt_none placed (by decide : 1 < 512) (.inr image)
          apply walkFrom_pdt_none (by decide)
          rw [third]
          exact tables.image isLow _ (by omega)
    have here : Paging.walk (pgdir.tableAt base view) (heapVa k) base = none := absent
    rw [here]
    exact iff_of_false Bool.noConfusion Bool.noConfusion

/-- Other pages can be mapped as long as the heap has none. -/
theorem HeapTables.elsewhere {low : Bool} {base va frame pdtTableIndex pdTableIndex : Nat}
    {pgdir next : ThreadPagetables} {bit : Nat → Bool} (tables : HeapTables low base pgdir bit)
    (none : ∀ k < 32768, bit k = false) (elsewhere : Elsewhere low va pdtTableIndex pdTableIndex)
    (done : pgdir.map4kbPageUser base va frame pdtTableIndex pdTableIndex = .ok next) :
    HeapTables low base next bit := by
  obtain ⟨pml4t, pdpt, pdt, pd⟩ := map4kbPageUser_tables done
  constructor
  case pml4t =>
    rw [pml4t]
    rcases update_entry with new | old
    · exact .inr new
    · rw [old]
      exact tables.pml4t
  case pdpt =>
    rw [pdpt]
    by_cases shared : pdptIndex va = 507
    · cases elsewhere with
      | image outside _ =>
        rw [shared, Function.update_self]
        cases low with
        | false => exact absurd shared (outside rfl)
        | true => exact .inr (.inr ⟨rfl, rfl⟩)
      | stack slot =>
        rw [slot] at shared
        cases shared
    · rw [Function.update_of_ne (Ne.symm shared)]
      exact tables.pdpt
  case image =>
    intro isLow j high
    rw [pdt, update_apply₂, if_neg]
    · exact tables.image isLow j high
    · rintro ⟨table, slot⟩
      cases elsewhere with
      | image _ below =>
        have small := below isLow
        omega
      | stack _ => cases table
  case pdt =>
    intro k inside
    rw [pdt, update_apply₂, if_neg]
    · exact tables.pdt k inside
    · rintro ⟨table, -⟩
      cases elsewhere with
      | image _ _ => cases table
      | stack _ => cases table
  case mapped =>
    intro k inside set
    rw [none k inside] at set
    cases set
  case vacant =>
    intro k inside clear
    rw [pd, update_apply₂, if_neg]
    · exact tables.vacant k inside clear
    · rintro ⟨table, -⟩
      rw [heapPlace_pdTable inside] at table
      cases elsewhere with
      | image _ _ => omega
      | stack _ => omega

/-- A page of the heap is mapped where its bit was clear. -/
theorem HeapTables.step {low : Bool} {base i bit : Nat} {mem next : UserMemory}
    {isSet : Nat → Bool} (tables : HeapTables low base mem.pgdir isSet)
    (inside : 64 * i + bit < 32768) (step : HeapStep base i bit mem next) :
    HeapTables low base next.pgdir fun k => decide (k = 64 * i + bit) || isSet k := by
  obtain ⟨frame, -, -, done, -⟩ := step.tables
  obtain ⟨pml4t, pdpt, pdt, pd⟩ := map4kbPageUser_tables done
  have compatible := UserPage.places_compatible (by decide : 0 < 512)
  have isNew := heapPlace_mem inside
  constructor
  case pml4t =>
    rw [pml4t]
    rcases update_entry with new | old
    · exact .inr new
    · rw [old]
      exact tables.pml4t
  case pdpt =>
    rw [pdpt, (heapVa_slots inside).2.1, Function.update_self]
    exact .inr (.inl rfl)
  case image =>
    intro isLow j high
    rw [pdt, update_apply₂, if_neg]
    · exact tables.image isLow j high
    · rintro ⟨table, -⟩
      cases table
  case pdt =>
    intro k below
    rcases compatible.pdt_entry (heapPlace_mem below) isNew done with new | old
    · exact .inr new
    · have same : next.pgdir.pdt 3 (pdtIndex (heapPlace k).va) =
          mem.pgdir.pdt 3 (pdtIndex (heapPlace k).va) := old
      rw [same]
      exact tables.pdt k below
  case mapped =>
    intro k below set
    by_cases same : k = 64 * i + bit
    · rw [same]
      exact step.maps
    · simp only [same, decide_false, Bool.false_or] at set
      exact step.keeps below inside (tables.mapped k below set)
  case vacant =>
    intro k below clear
    have other : k ≠ 64 * i + bit ∧ isSet k = false := by simpa using clear
    have pages : (heapPlace k).page ≠ (heapPlace (64 * i + bit)).page :=
      fun same => other.1 (heapPlace_page below inside same)
    rw [compatible.pd_entry (heapPlace_mem below) isNew done pages]
    exact tables.vacant k below other.2

theorem pgRoundDown_page (va : Nat) : pgRoundDown va / pgSize = va / pgSize := by
  rw [pgRoundDown, pgSize]
  omega

theorem pgRoundDown_heapVa {k : Nat} (inside : k < 32768) : pgRoundDown (heapVa k) = heapVa k := by
  rw [pgRoundDown, heapVa, userHeapStart, pgSize]
  omega

theorem heapVa_injective {k k' : Nat} (inside : k < 32768) (inside' : k' < 32768)
    (same : heapVa k = heapVa k') : k = k' :=
  heapPlace_page inside inside' (congrArg (· / pgSize) same)

theorem Elsewhere.round {low : Bool} {va pdtTableIndex pdTableIndex : Nat}
    (elsewhere : Elsewhere low va pdtTableIndex pdTableIndex) :
    Elsewhere low (pgRoundDown va) pdtTableIndex pdTableIndex := by
  have second : pdptIndex (pgRoundDown va) = pdptIndex va := by
    rw [pdptIndex_eq, Paging.index_congr (pgRoundDown_page va), ← pdptIndex_eq]
  have third : pdtIndex (pgRoundDown va) = pdtIndex va := by
    rw [pdtIndex_eq, Paging.index_congr (pgRoundDown_page va), ← pdtIndex_eq]
  cases elsewhere with
  | image outside below => exact .image (second ▸ outside) (third ▸ below)
  | stack slot => exact .stack (second ▸ slot)

theorem Elsewhere.ne {low : Bool} {va pdtTableIndex pdTableIndex k : Nat}
    (elsewhere : Elsewhere low va pdtTableIndex pdTableIndex) (inside : k < 32768) :
    va ≠ heapVa k := by
  rintro rfl
  have slots : pml4tIndex (heapVa k) = 511 ∧ pdptIndex (heapVa k) = 507 ∧
      pdtIndex (heapVa k) = 511 - k / 512 ∧ _ := heapVa_slots inside
  obtain ⟨-, second, third, -⟩ := slots
  cases elsewhere with
  | image outside below =>
    cases low with
    | false => exact outside rfl second
    | true =>
      have small := below rfl
      omega
  | stack slot =>
    rw [second] at slot
    cases slot

/-- The page tables, the bitmap and the list of used pages agree on the heap. -/
structure HeapPages (low : Bool) (base : Nat) (mem : UserMemory) : Prop where
  tables : HeapTables low base mem.pgdir mem.heapBit
  stacked : mem.usedPages.Stacked
  pages : ∀ page ∈ mem.usedPages.contents,
    Elsewhere low page.pageVa page.pdtTableIndex page.pdTableIndex ∨
      ∃ k < 32768, mem.heapBit k = true ∧ page.pageVa = heapVa k
  uses : ∀ k < 32768, mem.heapUses k = (mem.heapBit k).toNat

/-- What is left when only the page tables and the list of used pages change. -/
structure SameHeap (mem next : UserMemory) : Prop where
  userHeapBitmap : next.userHeapBitmap = mem.userHeapBitmap
  heapAllocations : next.heapAllocations = mem.heapAllocations

theorem SameHeap.heapBit {mem next : UserMemory} (same : SameHeap mem next) (k : Nat) :
    next.heapBit k = mem.heapBit k := by
  rw [UserMemory.heapBit, UserMemory.heapBit, same.userHeapBitmap]

theorem HeapPages.elsewhere {low : Bool} {base va frame pdtTableIndex pdTableIndex : Nat}
    {mem next : UserMemory} (pages : HeapPages low base mem) (none : mem.NoHeapPage)
    (elsewhere : Elsewhere low va pdtTableIndex pdTableIndex)
    (done : mem.map4kbPageUser base va frame pdtTableIndex pdTableIndex = .ok next) :
    HeapPages low base next ∧ SameHeap mem next := by
  let place : PagePlace := ⟨va, pdtTableIndex, pdTableIndex⟩
  obtain ⟨pgdir, tables, rfl⟩ := (UserMemory.map4kbPageUser_iff place pages.stacked).mp done
  have contents : (mem.withPage pgdir place frame).usedPages.contents =
      UserMemory.usedPage place frame :: mem.usedPages.contents := pages.stacked.contents_pushed _
  refine ⟨?_, rfl, rfl⟩
  constructor
  case tables => exact pages.tables.elsewhere none elsewhere tables
  case stacked => exact pages.stacked.pushed fun _ => UserMemory.usedPage place frame
  case pages =>
    intro page member
    rw [contents] at member
    rcases List.mem_cons.mp member with rfl | before
    · exact .inl elsewhere.round
    · exact pages.pages page before
  case uses =>
    intro k inside
    rw [UserMemory.heapUses, contents, List.countP_cons_of_neg]
    · exact pages.uses k inside
    · exact fun same => elsewhere.round.ne inside (of_decide_eq_true same)

theorem intBit_low {bit : Nat} (low : bit ≤ 30) : intBit bit = 1#64 <<< bit := by
  have all : ∀ b : Fin 31, intBit b.val = 1#64 <<< b.val := by decide
  exact all ⟨bit, Nat.lt_succ_of_le low⟩

/-- Up to bit 30, the bit that is set is that of the page. -/
theorem HeapStep.heapBit {base i bit : Nat} {mem next : UserMemory}
    (step : HeapStep base i bit mem next) (low : bit ≤ 30) (k : Nat) :
    next.heapBit k = (decide (k = 64 * i + bit) || mem.heapBit k) := by
  have word : (64 * i + bit) / 64 = i := by omega
  have slot : (64 * i + bit) % 64 = bit := by omega
  have set : next.userHeapBitmap = Bitmap.set 64 mem.userHeapBitmap (64 * i + bit) := by
    rw [step.bitmap, intBit_low low, Bitmap.set, word, slot]
  rw [UserMemory.heapBit, UserMemory.heapBit, set]
  exact Bitmap.test_set (by decide) (Nat.le_refl 64) _ _ _

theorem HeapPages.step {low : Bool} {base i bit : Nat} {mem next : UserMemory}
    (pages : HeapPages low base mem) (inside : 64 * i + bit < 32768) (lowBit : bit ≤ 30)
    (step : HeapStep base i bit mem next) : HeapPages low base next := by
  have bits : next.heapBit = fun k => decide (k = 64 * i + bit) || mem.heapBit k :=
    funext (step.heapBit lowBit)
  have clear : mem.heapBit (64 * i + bit) = false := by
    apply Bool.eq_false_of_not_eq_true
    intro set
    have isMapped := (pages.tables.mapped _ inside set).present
    exact Bool.noConfusion (step.absent.symm.trans isMapped)
  obtain ⟨frame, -, -, -, pushed⟩ := step.tables
  have usedPages := Except.ok.inj ((pages.stacked.pushHead_eq _).symm.trans pushed)
  have contents : next.usedPages.contents =
      UserMemory.usedPage (heapPlace (64 * i + bit)) frame :: mem.usedPages.contents := by
    rw [← usedPages]
    exact pages.stacked.contents_pushed _
  have pageVa : (UserMemory.usedPage (heapPlace (64 * i + bit)) frame).pageVa =
      heapVa (64 * i + bit) := pgRoundDown_heapVa inside
  constructor
  case tables =>
    rw [bits]
    exact pages.tables.step inside step
  case stacked =>
    rw [← usedPages]
    exact pages.stacked.pushed _
  case pages =>
    intro page member
    rw [contents] at member
    rw [bits]
    rcases List.mem_cons.mp member with rfl | before
    · exact .inr ⟨64 * i + bit, inside, by simp, pageVa⟩
    · rcases pages.pages page before with elsewhere | ⟨k, below, set, same⟩
      · exact .inl elsewhere
      · exact .inr ⟨k, below, by simp [set], same⟩
  case uses =>
    intro k below
    have before := pages.uses k below
    rw [UserMemory.heapUses] at before
    rw [bits, UserMemory.heapUses, contents, List.countP_cons, before, pageVa]
    by_cases same : k = 64 * i + bit
    · subst same
      simp [clear]
    · have other : heapVa (64 * i + bit) ≠ heapVa k :=
        fun isSame => same (heapVa_injective inside below isSame).symm
      simp [same, other]

/-- The list of heap allocations does not matter for them. -/
theorem HeapPages.allocations {low : Bool} {base : Nat} {mem : UserMemory}
    (pages : HeapPages low base mem) (heapAllocations : Dll HeapAlloc) :
    HeapPages low base { mem with heapAllocations := heapAllocations } :=
  ⟨pages.tables, pages.stacked, pages.pages, pages.uses⟩

theorem sbrkPages_pages {low : Bool} {base end_ last : Nat} {list : List (Nat × Nat)}
    {s s' : Space} (valid : s.frames.Valid)
    (inside : ∀ p ∈ list, 64 * p.1 + p.2 < 32768 ∧ p.2 ≤ 30) (pages : HeapPages low base s.mem)
    (done : s.sbrkPages base list end_ = .ok (some last, s')) :
    HeapPages low base s'.mem ∧ s'.mem.heapAllocations = s.mem.heapAllocations ∧
      ∀ k, s'.mem.heapBit k = true ↔ (∃ p ∈ list, k = 64 * p.1 + p.2) ∨ s.mem.heapBit k = true := by
  induction list generalizing s end_ with
  | nil =>
    cases done
    exact ⟨pages, rfl, fun k => by simp⟩
  | cons page rest inductionHypothesis =>
    obtain ⟨s₁, validNext, step, done⟩ := sbrkPages_turn valid done
    obtain ⟨here, lowBit⟩ := inside page List.mem_cons_self
    obtain ⟨pagesAll, same, bits⟩ := inductionHypothesis validNext
      (fun p later => inside p (List.mem_cons_of_mem _ later)) (pages.step here lowBit step) done
    refine ⟨pagesAll, same.trans step.heapAllocations, fun k => ?_⟩
    rw [bits, step.heapBit lowBit, Bool.or_eq_true, decide_eq_true_iff, List.exists_mem_cons_iff,
      or_left_comm, or_assoc]

structure HeapRecords (mem : UserMemory) : Prop where
  stacked : mem.heapAllocations.Stacked
  holders : ∀ k < 32768, mem.heapHolders k = (mem.heapBit k).toNat
  holds : ∀ entry ∈ mem.heapAllocations.contents, ∃ k < 32768, entry.Holds k

structure HeapKept (low : Bool) (base : Nat) (mem : UserMemory) : Prop where
  pages : HeapPages low base mem
  records : HeapRecords mem

theorem heapAlloc_holds {scan : HeapScan} {last end_ k : Nat} :
    (heapAlloc scan last end_).Holds k ↔ 64 * scan.iStart + scan.bitStart ≤ k ∧ k ≤ last := by
  rw [HeapAlloc.Holds, heapAlloc]
  simp only
  omega

theorem runPages_holds {scan : HeapScan} {last k : Nat} (oneWord : last / 64 = scan.iStart)
    (low : scan.bitStart < 64) :
    (∃ p ∈ runPages scan last, k = 64 * p.1 + p.2) ↔
      64 * scan.iStart + scan.bitStart ≤ k ∧ k ≤ last := by
  rw [runPages_oneWord oneWord]
  constructor
  · rintro ⟨p, member, rfl⟩
    obtain ⟨bit, isBit, rfl⟩ := List.mem_map.mp member
    obtain ⟨first, end_⟩ := mem_upTo.mp isBit
    simp only
    omega
  · rintro ⟨first, end_⟩
    refine ⟨(scan.iStart, k - 64 * scan.iStart), ?_, by simp only; omega⟩
    exact List.mem_map.mpr ⟨k - 64 * scan.iStart, mem_upTo.mpr (by omega), rfl⟩

def OneLowWord (mem : UserMemory) (bytes : Nat) : Prop :=
  ∀ k, FirstRun mem.userHeapBitmap (bytes / pgSize + 1) k → k + bytes / pgSize < 32768 →
    (k + bytes / pgSize) / 64 = k / 64 ∧ (k + bytes / pgSize) % 64 ≤ 30

/-- A call that returns memory keeps the heap in order if its run lies in the first 31 bits of
a word. -/
theorem HeapKept.sbrk {low : Bool} {base rsi rax : Nat} {s s' : Space} (valid : s.frames.Valid)
    (kept : HeapKept low base s.mem) (oneWord : OneLowWord s.mem rsi)
    (done : s.syshandlerSbrk base rsi = .ok (some rax, s')) : HeapKept low base s'.mem := by
  obtain ⟨scan, last, end_, space, heapAllocations, found, -, allocated, inserted, rfl⟩ :=
    syshandlerSbrk_some done
  obtain ⟨inside, lowBit, ends, first⟩ := heapRun_found (Nat.succ_pos _) found
  have lastEq : 64 * scan.iStart + scan.bitStart + rsi / pgSize = last := Nat.succ.inj ends
  obtain ⟨word, high⟩ := oneWord _ first (lastEq ▸ inside)
  rw [lastEq] at word high
  have start : 64 * scan.iStart + scan.bitStart ≤ last := lastEq ▸ Nat.le_add_right _ _
  have oneWord : last / 64 = scan.iStart := by omega
  have pagesInside : ∀ p ∈ runPages scan last, 64 * p.1 + p.2 < 32768 ∧ p.2 ≤ 30 := by
    intro p member
    rw [runPages_oneWord oneWord] at member
    obtain ⟨bit, isBit, rfl⟩ := List.mem_map.mp member
    have end_ := (mem_upTo.mp isBit).2
    simp only
    omega
  have start₀ := kept.pages.allocations s.mem.heapAllocations.kalloc.2
  obtain ⟨pages, same, bits⟩ := sbrkPages_pages (by exact valid) pagesInside (by exact start₀)
    allocated
  have stacked := kept.records.stacked
  have pushed : (s.mem.heapAllocations.pushed fun _ => heapAlloc scan last end_) =
      heapAllocations := by
    rw [same] at inserted
    exact Except.ok.inj ((stacked.pushHead_eq _).symm.trans inserted)
  have contents : heapAllocations.contents =
      heapAlloc scan last end_ :: s.mem.heapAllocations.contents := by
    rw [← pushed]
    exact stacked.contents_pushed _
  refine ⟨pages.allocations _, ?_⟩
  constructor
  case stacked =>
    simp only [← pushed]
    exact stacked.pushed _
  case holders =>
    intro k below
    have before := kept.records.holders k below
    rw [UserMemory.heapHolders] at before
    have bit : ∀ heapAllocations,
        ({ space.mem with heapAllocations := heapAllocations } : UserMemory).heapBit k =
          space.mem.heapBit k := fun _ => rfl
    rw [UserMemory.heapHolders, contents, List.countP_cons, before, bit]
    by_cases inRun : 64 * scan.iStart + scan.bitStart ≤ k ∧ k ≤ last
    · have clear : s.mem.heapBit k = false := first.clear k inRun.1 (by omega)
      have set : space.mem.heapBit k = true :=
        (bits k).mpr (.inl ((runPages_holds oneWord lowBit).mpr inRun))
      rw [clear, set, if_pos (decide_eq_true (heapAlloc_holds.mpr inRun))]
      rfl
    · have same : space.mem.heapBit k = s.mem.heapBit k := by
        apply Bool.eq_iff_iff.mpr
        rw [bits, runPages_holds oneWord lowBit, or_iff_right inRun]
        exact Iff.rfl
      rw [same, if_neg fun holds => inRun (heapAlloc_holds.mp (of_decide_eq_true holds)),
        Nat.add_zero]
  case holds =>
    intro entry member
    simp only [contents] at member
    rcases List.mem_cons.mp member with rfl | before
    · exact ⟨last, inside, heapAlloc_holds.mpr ⟨start, Nat.le_refl last⟩⟩
    · exact kept.records.holds entry before

end SwagOS.Kernel
