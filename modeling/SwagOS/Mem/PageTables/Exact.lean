import SwagOS.Mem.PageTables.Image

/-!
# Tables that hold given pages and no others

Every entry of the highest table leads to the same `pdpt`, so a page is reached at its own
address and at others too: wherever each index is that of some page, and the tables go together.
What an address leads to depends on the places of the pages alone.
-/

namespace SwagOS.Mem.ThreadPagetables

open SwagOS.Lib

def UserWalk (base : Nat) (view : View) (pgdir : ThreadPagetables) (va : Nat)
    (t : Paging.Translation) : Prop :=
  Paging.walk (pgdir.tableAt base view) va base = some t ∧ t.user = true

abbrev PlacedPage := PagePlace × Nat

/-- The indices of an address lead to a page, through entries that pages have. -/
structure Leads (pages : List PlacedPage) (va : Nat) (m : PlacedPage) : Prop where
  canonical : Paging.Canonical va
  member : m ∈ pages
  pml4t : ∃ m₁ ∈ pages, pml4tIndex m₁.1.va = pml4tIndex va
  directory : ∃ m₂ ∈ pages, ∃ m₃ ∈ pages, pdptIndex m₂.1.va = pdptIndex va ∧
    m₃.1.pdtTableIndex = m₂.1.pdtTableIndex ∧ pdtIndex m₃.1.va = pdtIndex va ∧
    m.1.pdTableIndex = m₃.1.pdTableIndex
  last : ptIndex m.1.va = ptIndex va

/-- The tables hold the pages. -/
structure Ways (base : Nat) (pages : List PlacedPage) (pgdir : ThreadPagetables) : Prop where
  canonical : ∀ m ∈ pages, Paging.Canonical m.1.va
  pdtInside : ∀ m ∈ pages, m.1.pdtTableIndex < 512
  pdInside : ∀ m ∈ pages, m.1.pdTableIndex < 512
  isFrame : ∀ m ∈ pages, m.2 % pgSize = 0 ∧ m.2 < 2 ^ 52
  route : ∀ m ∈ pages, Route base pgdir m.1
  frame : ∀ m ∈ pages, pgdir.pd m.1.pdTableIndex (ptIndex m.1.va) = entry m.2 userFlags

structure KernelKept (base : Nat) (pgdir : ThreadPagetables) : Prop where
  pdpt : pgdir.pdpt 510 = entry (pdtPhys base 0) kernelFlags
  pdt : pgdir.pdt 0 = (create base).pdt 0

/-- The tables hold the pages, the window of the kernel, and nothing else. -/
structure Exact (base : Nat) (pages : List PlacedPage) (pgdir : ThreadPagetables) : Prop where
  ways : Ways base pages pgdir
  kernel : KernelKept base pgdir
  pml4t : ∀ i, Paging.user (pgdir.pml4t i) = true → ∃ m ∈ pages, pml4tIndex m.1.va = i
  pdpt : ∀ i, Paging.user (pgdir.pdpt i) = true → ∃ m ∈ pages, pdptIndex m.1.va = i
  pdt : ∀ a, 0 < a → ∀ i, pgdir.pdt a i ≠ 0#64 →
    ∃ m ∈ pages, m.1.pdtTableIndex = a ∧ pdtIndex m.1.va = i
  pd : ∀ b i, pgdir.pd b i ≠ 0#64 → ∃ m ∈ pages, m.1.pdTableIndex = b ∧ ptIndex m.1.va = i

section Reading

variable {base va : Nat} {pages : List PlacedPage} {pgdir : ThreadPagetables} {m : PlacedPage}

theorem Ways.leads (ways : Ways base pages pgdir) (member : m ∈ pages)
    (same : va / pgSize = m.1.page) : Leads pages va m := by
  have index : ∀ level, Paging.index level m.1.va = Paging.index level va := fun level =>
    Paging.index_congr same.symm level
  constructor
  case canonical => exact (Paging.canonical_congr same).mpr (ways.canonical m member)
  case member => exact member
  case pml4t => exact ⟨m, member, by rw [pml4tIndex_eq, pml4tIndex_eq, index]⟩
  case directory =>
    refine ⟨m, member, m, member, ?_, rfl, ?_, rfl⟩
    · rw [pdptIndex_eq, pdptIndex_eq, index]
    · rw [pdtIndex_eq, pdtIndex_eq, index]
  case last => rw [ptIndex_eq, ptIndex_eq, index]

/-- Other pages at the same places are led to in the same way. -/
theorem Leads.transfer {pages' : List PlacedPage} {m' : PlacedPage} (leads : Leads pages va m)
    (places : ∀ m ∈ pages, ∃ m' ∈ pages', m'.1 = m.1) (member : m' ∈ pages') (same : m'.1 = m.1) :
    Leads pages' va m' := by
  obtain ⟨m₁, member₁, first⟩ := leads.pml4t
  obtain ⟨m₂, member₂, m₃, member₃, second, pdtTable, third, pdTable⟩ := leads.directory
  obtain ⟨m₁', member₁', same₁⟩ := places m₁ member₁
  obtain ⟨m₂', member₂', same₂⟩ := places m₂ member₂
  obtain ⟨m₃', member₃', same₃⟩ := places m₃ member₃
  rw [← same₁] at first
  rw [← same₂] at second pdtTable
  rw [← same₃] at pdtTable third pdTable
  rw [← same] at pdTable
  refine ⟨leads.canonical, member, ⟨m₁', member₁', first⟩,
    ⟨m₂', member₂', m₃', member₃', second, pdtTable, third, pdTable⟩, ?_⟩
  rw [same]
  exact leads.last

theorem Ways.walk (view : View) (placed : Placed base) (ways : Ways base pages pgdir)
    (leads : Leads pages va m) :
    Paging.walk (pgdir.tableAt base view) va base = some ⟨m.2 + va % pgSize, true, true⟩ := by
  obtain ⟨m₁, member₁, first⟩ := leads.pml4t
  obtain ⟨m₂, member₂, m₃, member₃, second, pdtTable, third, pdTable⟩ := leads.directory
  obtain ⟨aligned, below⟩ := ways.isFrame m leads.member
  have route : Route base pgdir ⟨va, m₂.1.pdtTableIndex, m₃.1.pdTableIndex⟩ := by
    constructor
    · rw [← first]
      exact (ways.route m₁ member₁).pml4t
    · rw [← second]
      exact (ways.route m₂ member₂).pdpt
    · rw [← third, ← pdtTable]
      exact (ways.route m₃ member₃).pdt
  have here : pgdir.pd m₃.1.pdTableIndex (ptIndex va) = entry m.2 userFlags := by
    rw [← leads.last, ← pdTable]
    exact ways.frame m leads.member
  exact Route.walk_frame view placed route (ways.pdtInside m₂ member₂) (ways.pdInside m₃ member₃)
    leads.canonical here aligned below rfl

theorem Ways.page_frame {m' : PlacedPage} (view : View) (placed : Placed base)
    (ways : Ways base pages pgdir) (member : m ∈ pages) (member' : m' ∈ pages)
    (same : m.1.page = m'.1.page) : m.2 = m'.2 := by
  have leads : Leads pages m.1.va m := ways.leads member rfl
  have leads' : Leads pages m.1.va m' := ways.leads member' same
  have frames := congrArg Paging.Translation.physical
    (Option.some.inj ((ways.walk view placed leads).symm.trans (ways.walk view placed leads')))
  exact Nat.add_right_cancel frames

theorem Ways.isFrameMapped (view : View) (placed : Placed base) (ways : Ways base pages pgdir)
    (member : m ∈ pages) (same : va / pgSize = m.1.page) :
    pgdir.isFrameMappedThread base view va = true := by
  have index : ∀ level, Paging.index level va = Paging.index level m.1.va :=
    Paging.index_congr same
  obtain ⟨pml4t, pdpt, pdt⟩ := ways.route m member
  obtain ⟨aligned, below⟩ := ways.isFrame m member
  have last := ways.frame m member
  rw [pml4tIndex_eq, ← index, ← pml4tIndex_eq] at pml4t
  rw [pdptIndex_eq, ← index, ← pdptIndex_eq] at pdpt
  rw [pdtIndex_eq, ← index, ← pdtIndex_eq] at pdt
  rw [ptIndex_eq, ← index, ← ptIndex_eq] at last
  rw [isFrameMappedThread_eq placed (ways.pdtInside m member) (ways.pdInside m member) pml4t pdpt pdt,
    last]
  exact (entry_userFlags aligned below).1

theorem entry_injective {a b : Nat} (aligned : a % 2 ^ 12 = 0) (below : a < 2 ^ 52)
    (aligned' : b % 2 ^ 12 = 0) (below' : b < 2 ^ 52)
    (same : entry a userFlags = entry b userFlags) : a = b := by
  have low : userFlags.toNat < 2 ^ 12 := by decide
  rw [← (entry_address aligned below low).1, same, (entry_address aligned' below' low).1]

theorem Ways.positive (placed : Placed base) (ways : Ways base pages pgdir)
    (kernel : KernelKept base pgdir) (member : m ∈ pages) : 0 < m.1.pdtTableIndex := by
  by_contra zero
  obtain ⟨-, -, pdt⟩ := ways.route m member
  obtain ⟨aligned, below, -⟩ := placed.pd (ways.pdInside m member)
  have index : pdtIndex m.1.va < 512 := by
    rw [pdtIndex_eq, Paging.index]
    omega
  have notUser : Paging.user (pgdir.pdt 0 (pdtIndex m.1.va)) = false := by
    rw [kernel.pdt, (shape_create base).window _ index]
    refine (entry_windowFlags ?_ ?_).2.2.1
    · rw [hugePgSize]
      omega
    · rw [hugePgSize]
      omega
  rw [Nat.eq_zero_of_not_pos zero] at pdt
  rw [pdt, (entry_userFlags aligned below).2.2.1] at notUser
  cases notUser

/-- Pages that are in the tables together go together, if each has a frame of its own. -/
theorem Ways.compatible (placed : Placed base) (ways : Ways base pages pgdir)
    (kernel : KernelKept base pgdir) (apart : ∀ m ∈ pages, ∀ m' ∈ pages, m.2 = m'.2 → m = m') :
    Compatible {p | ∃ m ∈ pages, m.1 = p} := by
  constructor
  case canonical =>
    rintro - ⟨m, member, rfl⟩
    exact ways.canonical m member
  case positive =>
    rintro - ⟨m, member, rfl⟩
    exact ways.positive placed kernel member
  case pdtInside =>
    rintro - ⟨m, member, rfl⟩
    exact ways.pdtInside m member
  case pdInside =>
    rintro - ⟨m, member, rfl⟩
    exact ways.pdInside m member
  case window =>
    rintro - ⟨m, member, rfl⟩ window
    obtain ⟨-, pdpt, -⟩ := ways.route m member
    obtain ⟨aligned, below, -⟩ := placed.pdt (ways.pdtInside m member)
    obtain ⟨aligned', below', -⟩ := placed.pdt (i := 0) (by decide)
    rw [window, kernel.pdpt] at pdpt
    have user := congrArg Paging.user pdpt
    rw [(entry_kernelFlags aligned' below').2.1, (entry_userFlags aligned below).2.2.1] at user
    cases user
  case pdpt =>
    rintro - ⟨m, member, rfl⟩ - ⟨m', member', rfl⟩ shared
    obtain ⟨-, pdpt, -⟩ := ways.route m member
    obtain ⟨-, pdpt', -⟩ := ways.route m' member'
    obtain ⟨aligned, below, -⟩ := placed.pdt (ways.pdtInside m member)
    obtain ⟨aligned', below', -⟩ := placed.pdt (ways.pdtInside m' member')
    rw [shared, pdpt'] at pdpt
    have tables := entry_injective aligned' below' aligned below pdpt
    rw [pdtPhys, pdtPhys] at tables
    omega
  case pdt =>
    rintro - ⟨m, member, rfl⟩ - ⟨m', member', rfl⟩ table shared
    obtain ⟨-, -, pdt⟩ := ways.route m member
    obtain ⟨-, -, pdt'⟩ := ways.route m' member'
    obtain ⟨aligned, below, -⟩ := placed.pd (ways.pdInside m member)
    obtain ⟨aligned', below', -⟩ := placed.pd (ways.pdInside m' member')
    rw [table, shared, pdt'] at pdt
    have tables := entry_injective aligned' below' aligned below pdt
    rw [pdPhys, pdPhys] at tables
    omega
  case pd =>
    rintro - ⟨m, member, rfl⟩ - ⟨m', member', rfl⟩ table shared
    obtain ⟨aligned, below⟩ := ways.isFrame m member
    obtain ⟨aligned', below'⟩ := ways.isFrame m' member'
    have frame := ways.frame m member
    rw [table, shared, ways.frame m' member'] at frame
    rw [apart m' member' m member (entry_injective aligned' below' aligned below frame)]

end Reading

theorem userReaches_userFlags {tables : Paging.Tables} {va level table next : Nat}
    (here : tables table (Paging.index (level + 1) va) = entry next userFlags)
    (aligned : next % 2 ^ 12 = 0) (below : next < 2 ^ 52) :
    Paging.UserReaches tables va (level + 1) table ↔ Paging.UserReaches tables va level next := by
  rw [Paging.UserReaches, Paging.UserReaches, walkFrom_userFlags here aligned below]

section Building

variable {base frame : Nat} {places : Set PagePlace} {pages : List PlacedPage}
  {pgdir next : ThreadPagetables} {place : PagePlace}

theorem exact_create (placed : Placed base) : Exact base [] (create base) where
  ways := by
    constructor
    all_goals exact fun _ => nofun
  kernel := by
    refine ⟨?_, rfl⟩
    rw [create, uvaCopyKernel]
    dsimp only
    rw [Function.update_self]
    rfl
  pml4t := by
    intro i user
    obtain ⟨supervisor, -⟩ := create_supervisor placed i
    cases supervisor.symm.trans user
  pdpt := by
    intro i user
    obtain ⟨-, supervisor⟩ := create_supervisor placed i
    cases supervisor.symm.trans user
  pdt := by
    intro a positive i some
    rcases (shape_create base).pdt a i positive with null | ⟨k, -, leads⟩
    · exact absurd null some
    · refine absurd ?_ some
      rw [create, uvaCopyKernel]
      dsimp only
      rw [Function.update_of_ne (Nat.pos_iff_ne_zero.mp positive)]
      rfl
  pd := fun b i some => absurd rfl some

theorem Exact.map (placed : Placed base) (compatible : Compatible places)
    (exact_ : Exact base pages pgdir) (members : ∀ m ∈ pages, m.1 ∈ places)
    (member : place ∈ places) (fresh : ∀ m ∈ pages, m.1.page ≠ place.page)
    (aligned : frame % pgSize = 0) (below : frame < 2 ^ 52) :
    ∃ next, pgdir.map4kbPageUser base place.va frame place.pdtTableIndex place.pdTableIndex =
      .ok next ∧ Exact base ((place, frame) :: pages) next := by
  have ways := exact_.ways
  have positive := compatible.positive place member
  have pdInside := compatible.pdInside place member
  have directory : pgdir.pdt place.pdtTableIndex (pdtIndex place.va) = 0#64 ∨
      pgdir.pdt place.pdtTableIndex (pdtIndex place.va) =
        entry (pdPhys base place.pdTableIndex) userFlags := by
    by_cases null : pgdir.pdt place.pdtTableIndex (pdtIndex place.va) = 0#64
    · exact .inl null
    · obtain ⟨m, isPage, table, index⟩ := exact_.pdt _ positive _ null
      have same := compatible.pdt m.1 (members m isPage) place member table index
      obtain ⟨-, -, pdt⟩ := ways.route m isPage
      rw [table, index, same] at pdt
      exact .inr pdt
  have vacant : pgdir.pd place.pdTableIndex (ptIndex place.va) = 0#64 := by
    by_contra some
    obtain ⟨m, isPage, table, index⟩ := exact_.pd _ _ some
    exact fresh m isPage (compatible.pd m.1 (members m isPage) place member table index)
  obtain ⟨next, done⟩ := map4kbPageUser_returns frame placed pdInside directory (by rw [vacant]; rfl)
  obtain ⟨pml4t, pdpt, pdt, pd⟩ := map4kbPageUser_tables done
  refine ⟨next, done, ?_⟩
  constructor
  case ways =>
    constructor
    case canonical =>
      exact List.forall_mem_cons.mpr ⟨compatible.canonical place member, ways.canonical⟩
    case pdtInside =>
      exact List.forall_mem_cons.mpr ⟨compatible.pdtInside place member, ways.pdtInside⟩
    case pdInside => exact List.forall_mem_cons.mpr ⟨pdInside, ways.pdInside⟩
    case isFrame => exact List.forall_mem_cons.mpr ⟨⟨aligned, below⟩, ways.isFrame⟩
    case route =>
      refine List.forall_mem_cons.mpr ⟨.of_map done, ?_⟩
      intro m isPage
      exact compatible.route (members m isPage) member done (ways.route m isPage)
    case frame =>
      refine List.forall_mem_cons.mpr ⟨?_, ?_⟩
      · rw [pd, Function.update_self, Function.update_self]
      · intro m isPage
        rw [compatible.pd_entry (members m isPage) member done (fresh m isPage)]
        exact ways.frame m isPage
  case kernel =>
    constructor
    · rw [pdpt, Function.update_of_ne (Ne.symm (compatible.window place member))]
      exact exact_.kernel.pdpt
    · rw [pdt, Function.update_of_ne (Nat.pos_iff_ne_zero.mp positive).symm]
      exact exact_.kernel.pdt
  case pml4t =>
    intro i user
    by_cases here : i = pml4tIndex place.va
    · exact ⟨_, List.mem_cons_self, here.symm⟩
    · rw [pml4t, Function.update_of_ne here] at user
      obtain ⟨m, isPage, index⟩ := exact_.pml4t i user
      exact ⟨m, List.mem_cons_of_mem _ isPage, index⟩
  case pdpt =>
    intro i user
    by_cases here : i = pdptIndex place.va
    · exact ⟨_, List.mem_cons_self, here.symm⟩
    · rw [pdpt, Function.update_of_ne here] at user
      obtain ⟨m, isPage, index⟩ := exact_.pdpt i user
      exact ⟨m, List.mem_cons_of_mem _ isPage, index⟩
  case pdt =>
    intro a positive' i some
    rw [pdt, update_apply₂] at some
    split at some
    next here => exact ⟨_, List.mem_cons_self, here.1.symm, here.2.symm⟩
    next =>
      obtain ⟨m, isPage, index⟩ := exact_.pdt a positive' i some
      exact ⟨m, List.mem_cons_of_mem _ isPage, index⟩
  case pd =>
    intro b i some
    rw [pd, update_apply₂] at some
    split at some
    next here => exact ⟨_, List.mem_cons_self, here.1.symm, here.2.symm⟩
    next =>
      obtain ⟨m, isPage, index⟩ := exact_.pd b i some
      exact ⟨m, List.mem_cons_of_mem _ isPage, index⟩

end Building

section Reached

variable {base va : Nat} {view : View} {pages : List PlacedPage} {pgdir : ThreadPagetables}
  {t : Paging.Translation}

theorem Exact.leads (placed : Placed base) (exact_ : Exact base pages pgdir)
    (walked : UserWalk base view pgdir va t) : ∃ m, Leads pages va m := by
  obtain ⟨found, user⟩ := walked
  obtain ⟨canonical, walked⟩ := Paging.walk_some found
  have ways := exact_.ways
  have reaches : Paging.UserReaches (pgdir.tableAt base view) va 3 base := ⟨t, walked, user⟩
  obtain ⟨aligned₁, below₁, -⟩ := placed.pdpt
  -- the highest table
  obtain ⟨m₁, member₁, first⟩ : ∃ m ∈ pages, pml4tIndex m.1.va = pml4tIndex va := by
    apply exact_.pml4t
    by_contra supervisor
    refine Paging.not_userReaches ?_ reaches
    rw [tableAt_pml4t, ← pml4tIndex_eq]
    exact Bool.eq_false_of_not_eq_true supervisor
  have pml4t : pgdir.tableAt base view base (Paging.index 3 va) =
      entry (pdptPhys base) userFlags := by
    rw [tableAt_pml4t, ← pml4tIndex_eq, ← first]
    exact (ways.route m₁ member₁).pml4t
  rw [userReaches_userFlags pml4t aligned₁ below₁] at reaches
  -- the `pdpt`
  obtain ⟨m₂, member₂, second⟩ : ∃ m ∈ pages, pdptIndex m.1.va = pdptIndex va := by
    apply exact_.pdpt
    by_contra supervisor
    refine Paging.not_userReaches ?_ reaches
    rw [tableAt_pdpt, ← pdptIndex_eq]
    exact Bool.eq_false_of_not_eq_true supervisor
  have inside₂ := ways.pdtInside m₂ member₂
  obtain ⟨aligned₂, below₂, -⟩ := placed.pdt inside₂
  have pdpt : pgdir.tableAt base view (pdptPhys base) (Paging.index 2 va) =
      entry (pdtPhys base m₂.1.pdtTableIndex) userFlags := by
    rw [tableAt_pdpt, ← pdptIndex_eq, ← second]
    exact (ways.route m₂ member₂).pdpt
  rw [userReaches_userFlags pdpt aligned₂ below₂] at reaches
  -- the page directory
  have positive : 0 < m₂.1.pdtTableIndex := ways.positive placed exact_.kernel member₂
  obtain ⟨m₃, member₃, table, third⟩ :
      ∃ m ∈ pages, m.1.pdtTableIndex = m₂.1.pdtTableIndex ∧ pdtIndex m.1.va = pdtIndex va := by
    apply exact_.pdt _ positive
    intro null
    refine Paging.userReaches_absent ?_ reaches
    rw [tableAt_pdt _ _ inside₂, ← pdtIndex_eq, null]
    rfl
  have inside₃ := ways.pdInside m₃ member₃
  obtain ⟨aligned₃, below₃, -⟩ := placed.pd inside₃
  have pdt : pgdir.tableAt base view (pdtPhys base m₂.1.pdtTableIndex) (Paging.index 1 va) =
      entry (pdPhys base m₃.1.pdTableIndex) userFlags := by
    rw [tableAt_pdt _ _ inside₂, ← pdtIndex_eq, ← third, ← table]
    exact (ways.route m₃ member₃).pdt
  rw [userReaches_userFlags pdt aligned₃ below₃] at reaches
  -- the page table
  obtain ⟨m, member, lastTable, last⟩ :
      ∃ m ∈ pages, m.1.pdTableIndex = m₃.1.pdTableIndex ∧ ptIndex m.1.va = ptIndex va := by
    apply exact_.pd
    intro null
    refine Paging.userReaches_absent ?_ reaches
    rw [tableAt_pd _ _ inside₃, ← ptIndex_eq, null]
    rfl
  exact ⟨m, canonical, member, ⟨m₁, member₁, first⟩,
    ⟨m₂, member₂, m₃, member₃, second, table, third, lastTable⟩, last⟩

end Reached

end SwagOS.Mem.ThreadPagetables
