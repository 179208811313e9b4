import SwagOS.Kernel.Fork
import SwagOS.Mem.ChunkedFrames.Safety

/-!
# The child has the pages of its parent

The loop over the pages of the parent keeps the tables of the child exact: they hold copies of
the pages that were met so far, and nothing else.  Each copy is in a frame that was not in use,
so the pages of the parent, and the copies that are there already, stay as they are.
-/

namespace SwagOS.Kernel

open SwagOS.Lib SwagOS.DataStructures SwagOS.Mem ThreadPagetables

section Access

variable {view : View} {caller pagetable : LoadedTables} {addr size frame : Nat}

theorem LoadedTables.fetchStruct_reads (ram out : Bytes)
    (checked : caller.pgdir.fetchStruct caller.base view addr size = true)
    (found : ∀ k < size,
      pagetable.translate view ((addr + k) % 2 ^ 64) = .ok ⟨frame + k, true, true⟩) :
    ∃ buf, caller.fetchStruct view pagetable addr size ram out = .ok (some buf) ∧
      ∀ k < size, buf k = ram (frame + k) := by
  have copies : ∀ n ≤ size, ∃ buf, (List.range n).foldlM (fun out k => do
      let t ← pagetable.translate view ((addr + k) % 2 ^ 64)
      pure (Function.update out k (ram t.physical))) out = Except.ok buf ∧
        ∀ k < n, buf k = ram (frame + k) := by
    intro n
    induction n with
    | zero =>
      intro _
      refine ⟨out, rfl, ?_⟩
      intro k none
      cases none
    | succ n inductionHypothesis =>
      intro inside
      obtain ⟨buf, copied, same⟩ := inductionHypothesis (Nat.le_of_succ_le inside)
      refine ⟨Function.update buf n (ram (frame + n)), ?_, ?_⟩
      · rw [List.range_succ, List.foldlM_append]
        refine Outcome.bind_ok.mpr ⟨buf, copied, ?_⟩
        rw [List.foldlM_cons, found n inside]
        rfl
      · intro k below
        rcases Nat.lt_succ_iff_lt_or_eq.mp below with earlier | rfl
        · rw [Function.update_of_ne (Nat.ne_of_lt earlier), same k earlier]
        · rw [Function.update_self]
  obtain ⟨buf, copied, same⟩ := copies size le_rfl
  refine ⟨buf, ?_, same⟩
  rw [LoadedTables.fetchStruct, if_pos checked]
  exact Outcome.bind_ok.mpr ⟨buf, copied, rfl⟩

theorem LoadedTables.writeStruct_writes (src ram : Bytes)
    (checked : caller.pgdir.fetchStruct caller.base view addr size = true)
    (found : ∀ k < size,
      pagetable.translate view ((addr + k) % 2 ^ 64) = .ok ⟨frame + k, true, true⟩) :
    ∃ ram', caller.writeStruct view pagetable addr src size ram = .ok (some ram') ∧
      (∀ k < size, ram' (frame + k) = src k) ∧
      ∀ a, a < frame ∨ frame + size ≤ a → ram' a = ram a := by
  have copies : ∀ n ≤ size, ∃ ram', (List.range n).foldlM (fun ram k => do
      let t ← pagetable.translate view ((addr + k) % 2 ^ 64)
      pure (Function.update ram t.physical (src k))) ram = Except.ok ram' ∧
        (∀ k < n, ram' (frame + k) = src k) ∧
        ∀ a, a < frame ∨ frame + n ≤ a → ram' a = ram a := by
    intro n
    induction n with
    | zero =>
      intro _
      refine ⟨ram, rfl, ?_, fun _ _ => rfl⟩
      intro k none
      cases none
    | succ n inductionHypothesis =>
      intro inside
      obtain ⟨ram', copied, here, elsewhere⟩ := inductionHypothesis (Nat.le_of_succ_le inside)
      refine ⟨Function.update ram' (frame + n) (src n), ?_, ?_, ?_⟩
      · rw [List.range_succ, List.foldlM_append]
        refine Outcome.bind_ok.mpr ⟨ram', copied, ?_⟩
        rw [List.foldlM_cons, found n inside]
        rfl
      · intro k below
        rcases Nat.lt_succ_iff_lt_or_eq.mp below with earlier | rfl
        · rw [Function.update_of_ne (by omega), here k earlier]
        · rw [Function.update_self]
      · intro a outside
        rw [Function.update_of_ne (by omega)]
        exact elsewhere a (by omega)
  obtain ⟨ram', copied, written⟩ := copies size le_rfl
  refine ⟨ram', ?_, written⟩
  rw [LoadedTables.writeStruct, if_pos checked]
  exact Outcome.bind_ok.mpr ⟨ram', copied, rfl⟩

end Access

def UsedPage.place (page : UsedPage) : PagePlace :=
  ⟨page.pageVa, page.pdtTableIndex, page.pdTableIndex⟩

def UsedPage.placed (page : UsedPage) : PlacedPage := (page.place, page.pagePa)

/-- The list of used pages is what the tables map for user code: each record is mapped at its
place, in a frame of its own, and each address that user code gets to leads to a record. -/
structure RecordsExactly (base : Nat) (view : View) (mem : UserMemory) : Prop where
  stacked : mem.usedPages.Stacked
  aligned : ∀ page ∈ mem.usedPages.contents, page.pageVa % pgSize = 0
  ways : Ways base (mem.usedPages.contents.map UsedPage.placed) mem.pgdir
  once : (mem.usedPages.contents.map UsedPage.pagePa).Nodup
  kernel : KernelKept base mem.pgdir
  leads : ∀ va t, UserWalk base view mem.pgdir va t →
    ∃ m, Leads (mem.usedPages.contents.map UsedPage.placed) va m

def InFrame (frame a : Nat) : Prop := frame ≤ a ∧ a < frame + pgSize

theorem inFrame_apart {frame other a : Nat} (aligned : frame % pgSize = 0)
    (aligned' : other % pgSize = 0) (apart : frame ≠ other) (inside : InFrame frame a) :
    ¬InFrame other a := by
  rw [InFrame, pgSize] at *
  omega

/-- What fork finds in order: the parent with its pages, and a process without pages. -/
structure CopySound (site : ForkSite) (frames : FrameManagers) : Prop where
  parentPlaced : Placed site.parent.base
  childPlaced : Placed site.childBase
  records : RecordsExactly site.parent.base site.view site.oldMem
  used : ∀ page ∈ site.oldMem.usedPages.contents, frames.Used page.pagePa
  hidden : ∀ page ∈ site.oldMem.usedPages.contents, site.view.frameMappedKernel page.pageVa = false

abbrev Copy := UsedPage × Nat

def Copy.page (c : Copy) : UsedPage := { c.1 with pagePa := c.2 }

/-- The child after the pages of these copies, the last one first. -/
structure PagesCopied (site : ForkSite) (s₀ : ForkSpace) (copies : List Copy) (s : ForkSpace) :
    Prop where
  tables : Exact site.childBase (copies.map fun c => c.page.placed) s.space.mem.pgdir
  stacked : s.space.mem.usedPages.Stacked
  contents : s.space.mem.usedPages.contents = copies.map Copy.page
  valid : s.space.frames.Valid
  fresh : ∀ c ∈ copies, ¬s₀.space.frames.Used c.2
  used : ∀ g, s.space.frames.Used g ↔ s₀.space.frames.Used g ∨ ∃ c ∈ copies, c.2 = g
  once : (copies.map Prod.snd).Nodup
  copied : ∀ c ∈ copies, ∀ x < pgSize, s.ram (c.2 + x) = s₀.ram (c.1.pagePa + x)
  kept : ∀ a, (∀ c ∈ copies, ¬InFrame c.2 a) → s.ram a = s₀.ram a

section Loop

variable {site : ForkSite} {s₀ s : ForkSpace} {copies : List Copy} {page : UsedPage}

theorem CopySound.apart {frames : FrameManagers} (sound : CopySound site frames) :
    ∀ m ∈ site.oldMem.usedPages.contents.map UsedPage.placed,
      ∀ m' ∈ site.oldMem.usedPages.contents.map UsedPage.placed, m.2 = m'.2 → m = m' := by
  intro m member m' member' same
  obtain ⟨page, listed, rfl⟩ := List.mem_map.mp member
  obtain ⟨page', listed', rfl⟩ := List.mem_map.mp member'
  rw [List.inj_on_of_nodup_map sound.records.once listed listed' same]

def ForkSite.places (site : ForkSite) : Set PagePlace :=
  {p | ∃ m ∈ site.oldMem.usedPages.contents.map UsedPage.placed, m.1 = p}

theorem ForkSite.place_mem (listed : page ∈ site.oldMem.usedPages.contents) :
    page.place ∈ site.places := ⟨page.placed, List.mem_map_of_mem listed, rfl⟩

theorem page_address {va k : Nat} (aligned : va % pgSize = 0) (canonical : Paging.Canonical va)
    (inside : k < pgSize) :
    (va + k) % 2 ^ 64 = va + k ∧ (va + k) / pgSize = va / pgSize ∧ (va + k) % pgSize = k := by
  rw [pgSize] at *
  rw [Paging.Canonical] at canonical
  omega

/-- The check of the access passes for the pages of the parent. -/
theorem CopySound.checked {frames : FrameManagers} (sound : CopySound site frames)
    (listed : page ∈ site.oldMem.usedPages.contents) :
    site.parent.pgdir.fetchStruct site.parent.base site.view page.pageVa 0x1000 = true := by
  have records := sound.records
  have member := List.mem_map_of_mem (f := UsedPage.placed) listed
  have aligned := records.aligned page listed
  have canonical : Paging.Canonical page.pageVa := records.ways.canonical _ member
  obtain ⟨whole, samePage, -⟩ := page_address aligned canonical (by decide : 0xfff < pgSize)
  have last : page.pageVa + 0x1000 - 1 = page.pageVa + 0xfff := rfl
  have first := records.ways.isFrameMapped site.view sound.parentPlaced member
    (rfl : page.pageVa / pgSize = page.placed.1.page)
  have end_ := records.ways.isFrameMapped site.view sound.parentPlaced member
    (samePage : (page.pageVa + 0xfff) / pgSize = page.placed.1.page)
  rw [ThreadPagetables.fetchStruct, last, whole, sound.hidden page listed]
  exact Bool.and_eq_true_iff.mpr ⟨Bool.and_eq_true_iff.mpr ⟨first, end_⟩, rfl⟩

theorem translate_page {base frame k : Nat} {view : View} {pgdir : ThreadPagetables}
    {pages : List PlacedPage} {place : PagePlace} (placed : Placed base)
    (ways : Ways base pages pgdir) (member : (place, frame) ∈ pages)
    (aligned : place.va % pgSize = 0) (inside : k < pgSize) :
    LoadedTables.translate view ⟨base, pgdir⟩ ((place.va + k) % 2 ^ 64) =
      .ok ⟨frame + k, true, true⟩ := by
  obtain ⟨whole, samePage, offset⟩ := page_address aligned (ways.canonical _ member) inside
  have leads : Leads pages (place.va + k) (place, frame) := ways.leads member samePage
  have walked := ways.walk view placed leads
  rw [offset] at walked
  rw [LoadedTables.translate, whole, walked]
  rfl

theorem not_inFrame {frame a : Nat} (outside : ¬InFrame frame a) :
    a < frame ∨ frame + 0x1000 ≤ a := by
  rw [InFrame, pgSize] at outside
  omega

/-- The copies so far are at places of the parent, and on other pages than a page to come. -/
theorem CopySound.places {frames : FrameManagers} (sound : CopySound site frames)
    (listed : page ∈ site.oldMem.usedPages.contents)
    (others : ∀ c ∈ copies,
      c.1 ∈ site.oldMem.usedPages.contents ∧ c.1.pagePa ≠ page.pagePa) :
    ∀ m ∈ copies.map fun c => c.page.placed,
      m.1 ∈ site.places ∧ m.1.page ≠ page.place.page := by
  intro m isCopy
  obtain ⟨c, before, rfl⟩ := List.mem_map.mp isCopy
  obtain ⟨listed', apart⟩ := others c before
  have place : c.1.place ∈ site.places := ForkSite.place_mem listed'
  refine ⟨place, ?_⟩
  intro same
  have member : page.placed ∈ site.oldMem.usedPages.contents.map UsedPage.placed :=
    List.mem_map_of_mem listed
  have member' : c.1.placed ∈ site.oldMem.usedPages.contents.map UsedPage.placed :=
    List.mem_map_of_mem listed'
  exact apart (sound.records.ways.page_frame site.view sound.parentPlaced member' member same)

theorem PagesCopied.older {frame : Nat} (copied : PagesCopied site s₀ copies s)
    (unused : ¬s.space.frames.Used frame) : ∀ c ∈ copies, c.2 % pgSize = 0 ∧ c.2 ≠ frame := by
  intro c before
  have isCopy : c.page.placed ∈ copies.map fun c => c.page.placed := List.mem_map_of_mem before
  refine ⟨(copied.tables.ways.isFrame _ isCopy).1, ?_⟩
  rintro rfl
  exact unused ((copied.used c.2).mpr (.inr ⟨c, before, rfl⟩))

theorem PagesCopied.step {n : Nat} (sound : CopySound site s₀.space.frames)
    (copied : PagesCopied site s₀ copies s) (listed : page ∈ site.oldMem.usedPages.contents)
    (others : ∀ c ∈ copies,
      c.1 ∈ site.oldMem.usedPages.contents ∧ c.1.pagePa ≠ page.pagePa)
    (serves : s.space.frames.Serves (n + 1)) :
    ∃ s' frame, site.copyPage s page = .ok s' ∧ s'.space.frames.Serves n ∧
      PagesCopied site s₀ ((page, frame) :: copies) s' := by
  have ways := sound.records.ways
  have member : page.placed ∈ site.oldMem.usedPages.contents.map UsedPage.placed :=
    List.mem_map_of_mem listed
  have aligned := sound.records.aligned page listed
  have checked := sound.checked listed
  obtain ⟨frame, frames, served, later, valid, unused, grown, frameAligned, frameBelow⟩ :=
    serves.request copied.valid
  -- the page is read
  obtain ⟨buf, fetched, read⟩ := LoadedTables.fetchStruct_reads s.ram site.buf checked
    fun k inside => translate_page sound.parentPlaced ways member aligned inside
  -- a new frame is mapped for the child
  have compatible : Compatible site.places :=
    ways.compatible sound.parentPlaced sound.records.kernel sound.apart
  have places := sound.places listed others
  obtain ⟨pgdir, mapped, tables⟩ := copied.tables.map sound.childPlaced compatible
    (fun m isCopy => (places m isCopy).1) (ForkSite.place_mem listed)
    (fun m isCopy => (places m isCopy).2) frameAligned frameBelow
  have mappedUser := (UserMemory.map4kbPageUser_iff page.place copied.stacked).mpr
    ⟨pgdir, mapped, rfl⟩
  -- the page is written
  obtain ⟨ram, wrote, here, elsewhere⟩ := LoadedTables.writeStruct_writes buf s.ram checked
    fun k inside => translate_page sound.childPlaced tables.ways List.mem_cons_self aligned inside
  refine ⟨⟨⟨frames, s.space.mem.withPage pgdir page.place frame⟩, ram⟩, frame, ?_, later, ?_⟩
  · rw [ForkSite.copyPage]
    refine Outcome.bind_ok.mpr ⟨(some frame, frames), served, ?_⟩
    refine Outcome.bind_ok.mpr ⟨some buf, fetched, ?_⟩
    refine Outcome.bind_ok.mpr ⟨s.space.mem.withPage pgdir page.place frame, mappedUser, ?_⟩
    exact Outcome.bind_ok.mpr ⟨some ram, wrote, rfl⟩
  have older := copied.older unused
  have round : pgRoundDown page.pageVa = page.pageVa := by
    rw [pgRoundDown, aligned, Nat.sub_zero]
  constructor
  case tables => exact tables
  case stacked => exact copied.stacked.pushed fun _ => UserMemory.usedPage page.place frame
  case contents =>
    have pushed := copied.stacked.contents_pushed (UserMemory.usedPage page.place frame)
    have record : UserMemory.usedPage page.place frame = Copy.page (page, frame) := by
      rw [UserMemory.usedPage, UsedPage.place, round]
      rfl
    rw [List.map_cons, ← copied.contents, ← record]
    exact pushed
  case valid => exact valid
  case fresh =>
    refine List.forall_mem_cons.mpr ⟨?_, copied.fresh⟩
    intro used
    exact unused ((copied.used frame).mpr (.inl used))
  case used =>
    intro g
    rw [grown g, copied.used g]
    simp only [List.mem_cons, exists_eq_or_imp]
    rw [or_left_comm, eq_comm]
  case once =>
    refine List.nodup_cons.mpr ⟨?_, copied.once⟩
    intro isCopy
    obtain ⟨c, before, same⟩ := List.mem_map.mp isCopy
    exact (older c before).2 same
  case copied =>
    refine List.forall_mem_cons.mpr ⟨?_, ?_⟩
    · intro x inside
      dsimp only
      rw [here x inside, read x inside]
      refine copied.kept _ fun c before => ?_
      have pageAligned : page.pagePa % pgSize = 0 := (ways.isFrame _ member).1
      have apart : page.pagePa ≠ c.2 := by
        intro same
        exact copied.fresh c before (same ▸ sound.used page listed)
      exact inFrame_apart pageAligned (older c before).1 apart ⟨Nat.le_add_right _ _, by omega⟩
    · intro c before x inside
      have outside : ¬InFrame frame (c.2 + x) :=
        inFrame_apart (older c before).1 frameAligned (older c before).2
          ⟨Nat.le_add_right _ _, by omega⟩
      dsimp only
      rw [elsewhere _ (not_inFrame outside)]
      exact copied.copied c before x inside
  case kept =>
    intro a outside
    obtain ⟨first, rest⟩ := List.forall_mem_cons.mp outside
    dsimp only
    rw [elsewhere a (not_inFrame first)]
    exact copied.kept a rest

theorem ForkSite.copyPages_eq (site : ForkSite) (stacked : site.oldMem.usedPages.Stacked)
    {fuel : Nat} {link : Link} (inside : site.oldMem.usedPages.Within link)
    (enough : Dll.Enough fuel link) :
    site.copyPages fuel link s =
      (site.oldMem.usedPages.dataFrom fuel link).foldlM site.copyPage s := by
  induction fuel generalizing link s with
  | zero =>
    cases link with
    | record i => exact absurd (enough i rfl) (Nat.not_lt_zero i)
    | _ => rfl
  | succ fuel inductionHypothesis =>
    cases link with
    | record i =>
      have here := inside i rfl
      rw [ForkSite.copyPages, Dll.dataFrom, List.foldlM_cons]
      congr 1
      funext s₁
      exact inductionHypothesis (stacked.within_next here) (stacked.enough_next here enough)
    | _ => rfl

theorem PagesCopied.run (sound : CopySound site s₀.space.frames) (rest : List UsedPage)
    (copied : PagesCopied site s₀ copies s) (serves : s.space.frames.Serves rest.length)
    (listed : copies.reverse.map Prod.fst ++ rest = site.oldMem.usedPages.contents) :
    ∃ s' new, rest.foldlM site.copyPage s = .ok s' ∧ PagesCopied site s₀ new s' ∧
      new.reverse.map Prod.fst = site.oldMem.usedPages.contents := by
  induction rest generalizing copies s with
  | nil =>
    rw [List.append_nil] at listed
    exact ⟨s, copies, rfl, copied, listed⟩
  | cons page rest inductionHypothesis =>
    have member : page ∈ site.oldMem.usedPages.contents := by
      rw [← listed]
      exact List.mem_append_right _ List.mem_cons_self
    have once := sound.records.once
    rw [← listed, List.map_append, List.map_cons] at once
    have others : ∀ c ∈ copies,
        c.1 ∈ site.oldMem.usedPages.contents ∧ c.1.pagePa ≠ page.pagePa := by
      intro c before
      have isCopy : c.1 ∈ copies.reverse.map Prod.fst :=
        List.mem_map_of_mem (List.mem_reverse.mpr before)
      constructor
      · rw [← listed]
        exact List.mem_append_left _ isCopy
      · exact (List.nodup_append.mp once).2.2 _ (List.mem_map_of_mem isCopy) _ List.mem_cons_self
    obtain ⟨s₁, frame, step, later, copied₁⟩ := copied.step sound member others serves
    have listed₁ : ((page, frame) :: copies).reverse.map Prod.fst ++ rest =
        site.oldMem.usedPages.contents := by
      rw [← listed, List.reverse_cons, List.map_append, List.append_assoc]
      rfl
    obtain ⟨s', new, done, final, all⟩ := inductionHypothesis copied₁ later listed₁
    refine ⟨s', new, ?_, final, all⟩
    rw [List.foldlM_cons]
    exact Outcome.bind_ok.mpr ⟨s₁, step, done⟩

end Loop

end SwagOS.Kernel
