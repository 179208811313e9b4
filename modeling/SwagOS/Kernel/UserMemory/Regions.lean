import SwagOS.Kernel.UserMemory
import SwagOS.Mem.PageTables.Places

/-!
# The regions of a process

The pages that a process has: its stack, its heap, and the 2 MB in which its image lies.
Each kind has tables of its own, and the heap grows downwards while the numbers of its
tables grow upwards.
-/

namespace SwagOS.Kernel

open SwagOS.Lib SwagOS.DataStructures SwagOS.Mem ThreadPagetables

inductive UserPage where
  | stack (i : Fin 5)
  | heap (k : Fin 32768)
  | image (n : Fin 512)
  deriving DecidableEq, Repr

namespace UserPage

/-- Where the callers of `map_4kb_page_user` map a page; the image lies in the 2 MB with
number `region`. -/
def place (region : Nat) : UserPage → PagePlace
  | stack i => ⟨userStackLoc - i * pgSize, 500, 500⟩
  | heap k => ⟨userHeapStart - pgSize * k, 3,
      2 + (userHeapStart - (userHeapStart - pgSize * k)) / hugePgSize⟩
  | image n => ⟨region * hugePgSize + n * pgSize, 1, 0⟩

def placeAt (region offset : Nat) (page : UserPage) : PagePlace :=
  { page.place region with va := (page.place region).va + offset }

def slots (region : Nat) : UserPage → Nat × Nat × Nat
  | stack i => (63, 511, 508 - i)
  | heap k => (507, 511 - k / 512, 511 - k % 512)
  | image n => (0, region, n)

def tables : UserPage → Nat × Nat
  | stack _ => (500, 500)
  | heap k => (3, 2 + k / 512)
  | image _ => (1, 0)

variable (region : Nat) (page : UserPage)

theorem place_tables : ((page.place region).pdtTableIndex, (page.place region).pdTableIndex) =
    page.tables := by
  cases page with
  | stack i => rfl
  | image n => rfl
  | heap k =>
    have number : (userHeapStart - (userHeapStart - pgSize * k)) / hugePgSize = k / 512 := by
      rw [userHeapStart, pgSize, hugePgSize]
      omega
    rw [place, tables, number]

variable {region}

theorem va_slots (inside : region < 512) {va : Nat} (same : va / pgSize = (page.place region).page) :
    (pdptIndex va, pdtIndex va, ptIndex va) = page.slots region := by
  rw [pdptIndex_eq, pdtIndex_eq, ptIndex_eq]
  rw [pgSize] at same
  cases page with
  | stack i =>
    have page : ((stack i).place region).page = (0xfffffc000 - i * 0x1000) / 0x1000 := rfl
    rw [page] at same
    rw [slots, Paging.index, Paging.index, Paging.index, Paging.span, Paging.span, Paging.span,
      Prod.mk.injEq, Prod.mk.injEq]
    omega
  | heap k =>
    have page : ((heap k).place region).page =
        (0xffffffff00000000 - 0x1000 - 0x1000 * k) / 0x1000 := rfl
    rw [page] at same
    rw [slots, Paging.index, Paging.index, Paging.index, Paging.span, Paging.span, Paging.span,
      Prod.mk.injEq, Prod.mk.injEq]
    omega
  | image n =>
    have page : ((image n).place region).page = (region * 0x200000 + n * 0x1000) / 0x1000 := rfl
    rw [page] at same
    rw [slots, Paging.index, Paging.index, Paging.index, Paging.span, Paging.span, Paging.span,
      Prod.mk.injEq, Prod.mk.injEq]
    omega

theorem tables_inside : 0 < page.tables.1 ∧ page.tables.1 < 512 ∧ page.tables.2 < 512 := by
  cases page with
  | stack i =>
    rw [tables]
    omega
  | heap k =>
    rw [tables]
    omega
  | image n =>
    rw [tables]
    omega

theorem pdpt_tables {page page' : UserPage}
    (same : (page.slots region).1 = (page'.slots region).1) : page.tables.1 = page'.tables.1 := by
  cases page <;> cases page' <;> first | rfl | cases same

theorem pdt_tables {page page' : UserPage} (first : page.tables.1 = page'.tables.1)
    (same : (page.slots region).2.1 = (page'.slots region).2.1) :
    page.tables.2 = page'.tables.2 := by
  cases page with
  | stack i => cases page' with
    | stack i' => rfl
    | heap k => cases first
    | image n => cases first
  | image n => cases page' with
    | stack i => cases first
    | heap k => cases first
    | image n' => rfl
  | heap k => cases page' with
    | stack i => cases first
    | image n => cases first
    | heap k' =>
      simp only [slots] at same
      simp only [tables]
      omega

theorem pd_tables {page page' : UserPage} (second : page.tables.2 = page'.tables.2)
    (same : (page.slots region).2.2 = (page'.slots region).2.2) : page = page' := by
  cases page with
  | stack i =>
    cases page' with
    | stack i' =>
      simp only [slots] at same
      rw [UserPage.stack.injEq, Fin.ext_iff]
      omega
    | heap k =>
      simp only [tables] at second
      omega
    | image n => cases second
  | heap k =>
    cases page' with
    | stack i =>
      simp only [tables] at second
      omega
    | heap k' =>
      simp only [tables] at second
      simp only [slots] at same
      rw [UserPage.heap.injEq, Fin.ext_iff]
      omega
    | image n =>
      simp only [tables] at second
      omega
  | image n =>
    cases page' with
    | stack i => cases second
    | heap k =>
      simp only [tables] at second
      omega
    | image n' =>
      simp only [slots] at same
      rw [UserPage.image.injEq, Fin.ext_iff]
      exact same

theorem slots_injective (region : Nat) {page page' : UserPage}
    (same : page.slots region = page'.slots region) : page = page' := by
  obtain ⟨first, second, third⟩ : _ ∧ _ ∧ _ := by
    rwa [Prod.ext_iff, Prod.ext_iff] at same
  exact pd_tables (pdt_tables (pdpt_tables first) second) third

theorem place_aligned (region : Nat) (page : UserPage) : (page.place region).va % pgSize = 0 := by
  cases page with
  | stack i =>
    have va : ((stack i).place region).va = 0xfffffc000 - i * 0x1000 := rfl
    rw [va, pgSize]
    omega
  | heap k =>
    have va : ((heap k).place region).va = 0xffffffff00000000 - 0x1000 - 0x1000 * k := rfl
    rw [va, pgSize]
    omega
  | image n =>
    have va : ((image n).place region).va = region * 0x200000 + n * 0x1000 := rfl
    rw [va, pgSize]
    omega

theorem add_page (region : Nat) (page : UserPage) {x : Nat} (inside : x < pgSize) :
    ((page.place region).va + x) / pgSize = (page.place region).page ∧
      ((page.place region).va + x) % pgSize = x := by
  have aligned := place_aligned region page
  rw [PagePlace.page]
  rw [pgSize] at aligned inside ⊢
  omega

theorem page_injective (inside : region < 512) {page page' : UserPage}
    (same : (page.place region).page = (page'.place region).page) : page = page' := by
  have slots : _ = page.slots region := va_slots page inside rfl
  exact slots_injective region (slots.symm.trans (va_slots page' inside same))

def places (region : Nat) : Set PagePlace :=
  {p | ∃ (page : UserPage) (offset : Fin pgSize), p = page.placeAt region offset}

theorem placeAt_mem (region : Nat) (page : UserPage) {offset : Nat} (inside : offset < pgSize) :
    page.placeAt region offset ∈ places region := ⟨page, ⟨offset, inside⟩, rfl⟩

theorem placeAt_page (region : Nat) (page : UserPage) {offset : Nat} (inside : offset < pgSize) :
    (page.placeAt region offset).page = (page.place region).page :=
  (add_page region page inside).1

theorem placeAt_slots (inside : region < 512) {offset : Nat} (below : offset < pgSize) :
    (pdptIndex (page.placeAt region offset).va, pdtIndex (page.placeAt region offset).va,
      ptIndex (page.placeAt region offset).va) = page.slots region :=
  va_slots page inside (placeAt_page region page below)

theorem place_canonical (inside : region < 512) : Paging.Canonical (page.place region).va := by
  cases page with
  | stack i =>
    have va : ((stack i).place region).va = 0xfffffc000 - i * 0x1000 := rfl
    rw [va, Paging.Canonical]
    omega
  | heap k =>
    have va : ((heap k).place region).va = 0xffffffff00000000 - 0x1000 - 0x1000 * k := rfl
    rw [va, Paging.Canonical]
    omega
  | image n =>
    have va : ((image n).place region).va = region * 0x200000 + n * 0x1000 := rfl
    rw [va, Paging.Canonical]
    omega

theorem places_compatible (inside : region < 512) : Compatible (places region) := by
  have tables : ∀ (page : UserPage) (offset : Nat),
      (page.placeAt region offset).pdtTableIndex = page.tables.1 ∧
        (page.placeAt region offset).pdTableIndex = page.tables.2 := by
    intro page offset
    exact Prod.ext_iff.mp (place_tables region page)
  have slots : ∀ (page : UserPage) (offset : Fin pgSize),
      pdptIndex (page.placeAt region offset).va = (page.slots region).1 ∧
        pdtIndex (page.placeAt region offset).va = (page.slots region).2.1 ∧
        ptIndex (page.placeAt region offset).va = (page.slots region).2.2 := by
    intro page offset
    rw [← placeAt_slots page inside offset.isLt]
    exact ⟨rfl, rfl, rfl⟩
  constructor
  case canonical =>
    rintro - ⟨page, offset, rfl⟩
    have same : (page.placeAt region offset).va / pgSize = (page.place region).va / pgSize :=
      placeAt_page region page offset.isLt
    exact (Paging.canonical_congr same).mpr (place_canonical page inside)
  case positive =>
    rintro - ⟨page, offset, rfl⟩
    rw [(tables page offset).1]
    exact (tables_inside page).1
  case pdtInside =>
    rintro - ⟨page, offset, rfl⟩
    rw [(tables page offset).1]
    exact (tables_inside page).2.1
  case pdInside =>
    rintro - ⟨page, offset, rfl⟩
    rw [(tables page offset).2]
    exact (tables_inside page).2.2
  case window =>
    rintro - ⟨page, offset, rfl⟩
    rw [(slots page offset).1]
    cases page <;> exact fun never => by cases never
  case pdpt =>
    rintro - ⟨page, offset, rfl⟩ - ⟨page', offset', rfl⟩ shared
    rw [(slots page offset).1, (slots page' offset').1] at shared
    rw [(tables page offset).1, (tables page' offset').1]
    exact pdpt_tables shared
  case pdt =>
    rintro - ⟨page, offset, rfl⟩ - ⟨page', offset', rfl⟩ table shared
    rw [(slots page offset).2.1, (slots page' offset').2.1] at shared
    rw [(tables page offset).1, (tables page' offset').1] at table
    rw [(tables page offset).2, (tables page' offset').2]
    exact pdt_tables table shared
  case pd =>
    rintro - ⟨page, offset, rfl⟩ - ⟨page', offset', rfl⟩ table shared
    rw [(slots page offset).2.2, (slots page' offset').2.2] at shared
    rw [(tables page offset).2, (tables page' offset').2] at table
    rw [placeAt_page region page offset.isLt, placeAt_page region page' offset'.isLt,
      pd_tables table shared]

end UserPage

namespace UserMemory

def usedPage (place : PagePlace) (frame : Nat) : UsedPage :=
  ⟨pgRoundDown place.va, frame, place.pdtTableIndex, place.pdTableIndex⟩

def withPage (mem : UserMemory) (pgdir : ThreadPagetables) (place : PagePlace) (frame : Nat) :
    UserMemory :=
  { mem with pgdir := pgdir, usedPages := mem.usedPages.pushed fun _ => usedPage place frame }

/-- A mapping for a process whose list of used pages is in order. -/
theorem map4kbPageUser_iff {base : Nat} {mem next : UserMemory} (place : PagePlace) {frame : Nat}
    (stacked : mem.usedPages.Stacked) :
    mem.map4kbPageUser base place.va frame place.pdtTableIndex place.pdTableIndex = .ok next ↔
      ∃ pgdir, mem.pgdir.map4kbPageUser base place.va frame place.pdtTableIndex place.pdTableIndex =
        .ok pgdir ∧ next = mem.withPage pgdir place frame := by
  rw [map4kbPageUser, Outcome.bind_ok]
  apply exists_congr
  intro pgdir
  rw [stacked.pushHead_eq, Outcome.bind_ok]
  apply and_congr_right
  intro _
  constructor
  · rintro ⟨usedPages, ⟨⟩, ⟨⟩⟩
    rfl
  · rintro rfl
    exact ⟨_, rfl, rfl⟩

/-- Calls of `map_4kb_page_user`, one after the other. -/
def mapAll (base : Nat) (calls : List (PagePlace × Nat)) (mem : UserMemory) : Outcome UserMemory :=
  calls.foldlM (fun mem c =>
    mem.map4kbPageUser base c.1.va c.2 c.1.pdtTableIndex c.1.pdTableIndex) mem

theorem mapAll_laid {base : Nat} {places : Set PagePlace} {mapped calls : List (PagePlace × Nat)}
    {mem : UserMemory} (placed : Placed base) (compatible : Compatible places)
    (laid : Laid base places mapped mem.pgdir) (stacked : mem.usedPages.Stacked)
    (member : ∀ c ∈ calls, c.1 ∈ places) (frames : ∀ c ∈ calls, IsFrame c.2)
    (distinct : calls.Pairwise fun c c' => c.1.page ≠ c'.1.page)
    (fresh : ∀ c ∈ calls, ∀ m ∈ mapped, m.1.page ≠ c.1.page) :
    ∃ next, mem.mapAll base calls = .ok next ∧
      Laid base places (calls.reverse ++ mapped) next.pgdir ∧ next.usedPages.Stacked ∧
      next.usedPages.contents =
        (calls.map fun c => usedPage c.1 c.2).reverse ++ mem.usedPages.contents := by
  induction calls generalizing mem mapped with
  | nil => exact ⟨mem, rfl, laid, stacked, rfl⟩
  | cons c rest inductionHypothesis =>
    obtain ⟨apart, distinct⟩ := List.pairwise_cons.mp distinct
    obtain ⟨pgdir, tables, laidNext⟩ := laid.map placed compatible
      (member c List.mem_cons_self) (fresh c List.mem_cons_self) (frames c List.mem_cons_self)
    have first := (map4kbPageUser_iff c.1 stacked).mpr ⟨pgdir, tables, rfl⟩
    have laidFirst : Laid base places (c :: mapped) (mem.withPage pgdir c.1 c.2).pgdir := laidNext
    have stackedFirst : (mem.withPage pgdir c.1 c.2).usedPages.Stacked :=
      stacked.pushed fun _ => usedPage c.1 c.2
    obtain ⟨next, done, laidAll, stackedAll, contents⟩ := inductionHypothesis laidFirst stackedFirst
      (fun c' later => member c' (List.mem_cons_of_mem _ later))
      (fun c' later => frames c' (List.mem_cons_of_mem _ later)) distinct (by
        intro c' later m isMapped
        rcases List.mem_cons.mp isMapped with rfl | before
        · exact apart c' later
        · exact fresh c' (List.mem_cons_of_mem _ later) m before)
    refine ⟨next, ?_, ?_, stackedAll, ?_⟩
    · rw [mapAll, List.foldlM_cons, first]
      exact done
    · rw [List.reverse_cons, List.append_assoc]
      exact laidAll
    · rw [contents, withPage, stacked.contents_pushed, List.map_cons, List.reverse_cons,
        List.append_assoc]
      rfl

end UserMemory

/-- A call of `map_4kb_page_user`.  A segment need not begin where its page does. -/
structure MapCall where
  page : UserPage
  offset : Fin pgSize
  frame : Nat

def MapCall.place (region : Nat) (call : MapCall) : PagePlace :=
  call.page.placeAt region call.offset

/-- What `CreatePageTables` does to the memory of a process. -/
def UserMemory.createPageTables (base : Nat) (mem : UserMemory) : UserMemory :=
  { mem with pgdir := .create base }

def UserMemory.build (base region : Nat) (calls : List MapCall) (mem : UserMemory) :
    Outcome UserMemory :=
  (mem.createPageTables base).mapAll base (calls.map fun call => (call.place region, call.frame))

/-- The translation by the tables of a process: its pages, no other page of the regions, and
the kernel's window. -/
structure Translates (base region : Nat) (calls : List MapCall) (tables : Paging.Tables) : Prop where
  mapped : ∀ call ∈ calls, ∀ x < pgSize,
    Paging.walk tables ((call.page.place region).va + x) base =
      some ⟨call.frame + x, true, true⟩
  unmapped : ∀ page, page ∉ calls.map MapCall.page → ∀ x < pgSize,
    Paging.walk tables ((page.place region).va + x) base = none
  window : ∀ x < 2 ^ 30, Paging.walk tables (kernelHhStart + x) base = some ⟨x, true, false⟩

/-- Different pages can be mapped in any order, and are all that is mapped. -/
theorem UserMemory.build_translates {base region : Nat} {mem : UserMemory} {calls : List MapCall}
    (placed : Placed base) (inside : region < 512) (stacked : mem.usedPages.Stacked)
    (distinct : (calls.map MapCall.page).Nodup) (frames : ∀ call ∈ calls, IsFrame call.frame) :
    ∃ next, mem.build base region calls = .ok next ∧
      ∀ view, Translates base region calls (next.pgdir.tableAt base view) := by
  have compatible := UserPage.places_compatible inside
  have apart : (calls.map fun call => (call.place region, call.frame)).Pairwise
      fun c c' => c.1.page ≠ c'.1.page := by
    rw [List.pairwise_map]
    rw [List.Nodup, List.pairwise_map] at distinct
    refine distinct.imp fun {call call'} other same => other ?_
    rw [MapCall.place, MapCall.place, UserPage.placeAt_page _ _ call.offset.isLt,
      UserPage.placeAt_page _ _ call'.offset.isLt] at same
    exact UserPage.page_injective inside same
  have start : Laid base (UserPage.places region) [] (mem.createPageTables base).pgdir :=
    laid_create base compatible
  obtain ⟨next, done, laid, -, -⟩ := UserMemory.mapAll_laid placed compatible start stacked
    (by
      intro c member
      obtain ⟨call, -, rfl⟩ := List.mem_map.mp member
      exact UserPage.placeAt_mem region call.page call.offset.isLt)
    (by
      intro c member
      obtain ⟨call, isCall, rfl⟩ := List.mem_map.mp member
      exact frames call isCall)
    apart (fun c member m none => by cases none)
  rw [List.append_nil] at laid
  refine ⟨next, done, fun view => ?_⟩
  constructor
  case mapped =>
    intro call member x below
    obtain ⟨samePage, offset⟩ := UserPage.add_page region call.page below
    have isMapped : (call.place region, call.frame) ∈
        (calls.map fun call => (call.place region, call.frame)).reverse :=
      List.mem_reverse.mpr (List.mem_map.mpr ⟨call, member, rfl⟩)
    have walked := laid.walk_mapped view placed compatible isMapped
      (samePage.trans (UserPage.placeAt_page region call.page call.offset.isLt).symm)
    rw [walked, offset]
  case unmapped =>
    intro page absent x below
    have isPlace : page.placeAt region 0 ∈ UserPage.places region :=
      UserPage.placeAt_mem region page (by decide)
    apply laid.walk_other view placed compatible isPlace
    · intro m member
      obtain ⟨call, isCall, rfl⟩ := List.mem_map.mp (List.mem_reverse.mp member)
      intro same
      rw [MapCall.place, UserPage.placeAt_page _ _ call.offset.isLt,
        UserPage.placeAt_page _ _ (by decide)] at same
      exact absent (UserPage.page_injective inside same ▸ List.mem_map_of_mem isCall)
    · rw [UserPage.placeAt_page _ _ (by decide)]
      exact (UserPage.add_page region page below).1
  case window =>
    intro x below
    exact laid.walk_window view placed below

def UserMemory.unused : UserMemory :=
  ⟨.zero, Dll.empty fun _ => ⟨.null, .null, ⟨0, 0, 0, 0⟩⟩,
    Dll.empty fun _ => ⟨.null, .null, ⟨0, 0, 0, 0, 0, 0⟩⟩, fun _ => 0#64⟩

def onePageEach : List MapCall :=
  [⟨.stack 0, ⟨0, by decide⟩, 0x40000000⟩, ⟨.image 3, ⟨8, by decide⟩, 0x40001000⟩,
    ⟨.heap 513, ⟨0, by decide⟩, 0x40002000⟩]

end SwagOS.Kernel
