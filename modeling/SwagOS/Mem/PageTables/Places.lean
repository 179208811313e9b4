import SwagOS.Mem.PageTables.Walk

/-!
# Places in the page tables

A caller of `map_4kb_page_user` names an address and two of the embedded tables.  All slots
of the highest table share one `pdpt`, so whether two pages can be mapped together depends
on the indices that their addresses have at each level, and on the tables named for them.
-/

namespace SwagOS.Mem

open SwagOS.Lib

namespace ThreadPagetables

/-- An address, and the tables that its entries are put into. -/
structure PagePlace where
  va : Nat
  pdtTableIndex : Nat
  pdTableIndex : Nat

def PagePlace.page (place : PagePlace) : Nat := place.va / pgSize

/-- Places that can be mapped together, in any order: where the addresses of two of them
share an entry, the same table is named for both, and a last entry is that of one page. -/
structure Compatible (places : Set PagePlace) : Prop where
  canonical : ∀ p ∈ places, Paging.Canonical p.va
  positive : ∀ p ∈ places, 0 < p.pdtTableIndex
  pdtInside : ∀ p ∈ places, p.pdtTableIndex < 512
  pdInside : ∀ p ∈ places, p.pdTableIndex < 512
  window : ∀ p ∈ places, pdptIndex p.va ≠ 510
  pdpt : ∀ p ∈ places, ∀ q ∈ places, pdptIndex p.va = pdptIndex q.va →
    p.pdtTableIndex = q.pdtTableIndex
  pdt : ∀ p ∈ places, ∀ q ∈ places, p.pdtTableIndex = q.pdtTableIndex →
    pdtIndex p.va = pdtIndex q.va → p.pdTableIndex = q.pdTableIndex
  pd : ∀ p ∈ places, ∀ q ∈ places, p.pdTableIndex = q.pdTableIndex →
    ptIndex p.va = ptIndex q.va → p.page = q.page

def kernelHhStart : Nat := 0xffffffff80000000

structure IsFrame (frame : Nat) : Prop where
  aligned : frame % pgSize = 0
  notNull : frame ≠ 0
  below : frame < 2 ^ 52

/-- The entries above the last one lead to the tables of the place. -/
structure Route (base : Nat) (pgdir : ThreadPagetables) (place : PagePlace) : Prop where
  pml4t : pgdir.pml4t (pml4tIndex place.va) = entry (pdptPhys base) userFlags
  pdpt : pgdir.pdpt (pdptIndex place.va) = entry (pdtPhys base place.pdtTableIndex) userFlags
  pdt : pgdir.pdt place.pdtTableIndex (pdtIndex place.va) =
    entry (pdPhys base place.pdTableIndex) userFlags

theorem under_userFlags {a : Nat} (aligned : a % 2 ^ 12 = 0) (below : a < 2 ^ 52)
    (t : Paging.Translation) : t.under (entry a userFlags) = t := by
  obtain ⟨-, writable, user, -⟩ := entry_userFlags aligned below
  rw [Paging.Translation.under, writable, user, Bool.true_and, Bool.true_and]

theorem under_kernelFlags {a : Nat} (aligned : a % 2 ^ 12 = 0) (below : a < 2 ^ 52)
    (t : Paging.Translation) : t.under (entry a kernelFlags) = { t with user := false } := by
  have writable : Paging.writable (entry a kernelFlags) = true :=
    entry_flag_eq aligned below (by decide) (by decide)
  obtain ⟨-, user, -⟩ := entry_kernelFlags aligned below
  rw [Paging.Translation.under, writable, user, Bool.true_and, Bool.false_and]

section Walk

variable {tables : Paging.Tables} {va level table next : Nat}

theorem walkFrom_userFlags
    (here : tables table (Paging.index (level + 1) va) = entry next userFlags)
    (aligned : next % 2 ^ 12 = 0) (below : next < 2 ^ 52) :
    Paging.walkFrom tables va (level + 1) table = Paging.walkFrom tables va level next := by
  obtain ⟨present, -, -, notLarge⟩ := entry_userFlags aligned below
  have address := (entry_address aligned below (by decide : userFlags.toNat < 2 ^ 12)).1
  have same : Paging.Translation.under (entry next userFlags) = id :=
    funext (under_userFlags aligned below)
  rw [Paging.walkFrom_table (by rw [here, present]) (by rw [here, notLarge]), here, address, same,
    Option.map_id_fun, id]

theorem walkFrom_kernelFlags
    (here : tables table (Paging.index (level + 1) va) = entry next kernelFlags)
    (aligned : next % 2 ^ 12 = 0) (below : next < 2 ^ 52) :
    Paging.walkFrom tables va (level + 1) table =
      (Paging.walkFrom tables va level next).map fun t => { t with user := false } := by
  obtain ⟨present, -, notLarge⟩ := entry_kernelFlags aligned below
  have address := (entry_address aligned below (by decide : kernelFlags.toNat < 2 ^ 12)).1
  have supervisor : Paging.Translation.under (entry next kernelFlags) =
      fun t => { t with user := false } := funext (under_kernelFlags aligned below)
  rw [Paging.walkFrom_table (by rw [here, present]) (by rw [here, notLarge]), here, address,
    supervisor]

theorem walkFrom_frame {frame : Nat} (here : tables table (Paging.index 0 va) = entry frame userFlags)
    (aligned : frame % pgSize = 0) (below : frame < 2 ^ 52) :
    Paging.walkFrom tables va 0 table = some ⟨frame + va % pgSize, true, true⟩ := by
  obtain ⟨present, writable, user, -⟩ := entry_userFlags aligned below
  have address := (entry_address aligned below (by decide : userFlags.toNat < 2 ^ 12)).1
  have span : Paging.span 0 = pgSize := by decide
  have whole : frame / pgSize * pgSize = frame := Nat.div_mul_cancel (Nat.dvd_of_mod_eq_zero aligned)
  rw [Paging.walkFrom_page (by rw [here, present]), here, Paging.leaf, address, writable, user, span,
    whole]

end Walk

section Routes

variable {base va : Nat} {view : View} {pgdir : ThreadPagetables} {place : PagePlace}
  (placed : Placed base)
include placed

/-- Below the entries of a place only the last one counts. -/
theorem Route.walk (route : Route base pgdir place) (pdtInside : place.pdtTableIndex < 512)
    (pdInside : place.pdTableIndex < 512) (canonical : Paging.Canonical place.va) :
    Paging.walk (pgdir.tableAt base view) place.va base =
      Paging.walkFrom (pgdir.tableAt base view) place.va 0 (pdPhys base place.pdTableIndex) := by
  obtain ⟨aligned₁, below₁, -⟩ := placed.pdpt
  obtain ⟨aligned₂, below₂, -⟩ := placed.pdt pdtInside
  obtain ⟨aligned₃, below₃, -⟩ := placed.pd pdInside
  rw [Paging.walk, if_pos canonical, walkFrom_userFlags _ aligned₁ below₁,
    walkFrom_userFlags _ aligned₂ below₂, walkFrom_userFlags _ aligned₃ below₃]
  · rw [tableAt_pdt _ _ pdtInside, ← pdtIndex_eq]
    exact route.pdt
  · rw [tableAt_pdpt, ← pdptIndex_eq]
    exact route.pdpt
  · rw [tableAt_pml4t, ← pml4tIndex_eq]
    exact route.pml4t

end Routes

theorem update_apply₂ {f : Nat → Nat → BitVec 64} (a i b j : Nat) (e : BitVec 64) :
    Function.update f a (Function.update (f a) i e) b j = if b = a ∧ j = i then e else f b j := by
  by_cases table : b = a
  · subst table
    by_cases same : j = i
    · simp [same]
    · simp [same]
  · simp [table]

/-- A mapping stops at no check where the page directory leads to the named table or nowhere,
and the last entry is not present. -/
theorem map4kbPageUser_returns {base va pdtTableIndex pdTableIndex : Nat}
    {pgdir : ThreadPagetables} (pa : Nat) (placed : Placed base) (pdInside : pdTableIndex < 512)
    (pdt : pgdir.pdt pdtTableIndex (pdtIndex va) = 0#64 ∨
      pgdir.pdt pdtTableIndex (pdtIndex va) = entry (pdPhys base pdTableIndex) userFlags)
    (vacant : Paging.present (pgdir.pd pdTableIndex (ptIndex va)) = false) :
    ∃ next, pgdir.map4kbPageUser base va pa pdtTableIndex pdTableIndex = .ok next := by
  obtain ⟨aligned, below, -⟩ := placed.pd pdInside
  have leads : ¬(pgdir.pdt pdtTableIndex (pdtIndex va) &&& ptAddrMask ≠ 0#64 ∧
      pgdir.pdt pdtTableIndex (pdtIndex va) &&& ptAddrMask ≠
        BitVec.ofNat 64 (pdPhys base pdTableIndex)) := by
    rintro ⟨notNull, other⟩
    rcases pdt with null | here
    · rw [null, BitVec.zero_and] at notNull
      exact notNull rfl
    · apply other
      apply BitVec.eq_of_toNat_eq
      rw [here, (entry_address aligned below (by decide)).2, BitVec.toNat_ofNat,
        Nat.mod_eq_of_lt (by omega)]
  have absent : ¬pgdir.pd pdTableIndex (ptIndex va) &&& 1#64 ≠ 0#64 := by
    rw [and_pagePresent, vacant]
    exact Bool.noConfusion
  simp only [map4kbPageUser, if_neg leads, if_neg absent]
  exact ⟨_, rfl⟩

section Mapping

variable {base frame : Nat} {places : Set PagePlace} {pgdir next : ThreadPagetables}
  {p place : PagePlace}

theorem Route.of_map
    (done : pgdir.map4kbPageUser base place.va frame place.pdtTableIndex place.pdTableIndex =
      .ok next) : Route base next place := by
  obtain ⟨pml4t, pdpt, pdt, -⟩ := map4kbPageUser_tables done
  constructor
  · rw [pml4t, Function.update_self]
  · rw [pdpt, Function.update_self]
  · rw [pdt, Function.update_self, Function.update_self]

theorem Compatible.pdpt_entry (compatible : Compatible places) (isPlace : p ∈ places)
    (member : place ∈ places)
    (done : pgdir.map4kbPageUser base place.va frame place.pdtTableIndex place.pdTableIndex =
      .ok next) :
    next.pdpt (pdptIndex p.va) = entry (pdtPhys base p.pdtTableIndex) userFlags ∨
      next.pdpt (pdptIndex p.va) = pgdir.pdpt (pdptIndex p.va) := by
  obtain ⟨-, pdpt, -, -⟩ := map4kbPageUser_tables done
  rw [pdpt]
  by_cases shared : pdptIndex p.va = pdptIndex place.va
  · left
    rw [shared, Function.update_self, compatible.pdpt p isPlace place member shared]
  · exact .inr (Function.update_of_ne shared _ _)

theorem Compatible.pdt_entry (compatible : Compatible places) (isPlace : p ∈ places)
    (member : place ∈ places)
    (done : pgdir.map4kbPageUser base place.va frame place.pdtTableIndex place.pdTableIndex =
      .ok next) :
    next.pdt p.pdtTableIndex (pdtIndex p.va) = entry (pdPhys base p.pdTableIndex) userFlags ∨
      next.pdt p.pdtTableIndex (pdtIndex p.va) = pgdir.pdt p.pdtTableIndex (pdtIndex p.va) := by
  obtain ⟨-, -, pdt, -⟩ := map4kbPageUser_tables done
  rw [pdt, update_apply₂]
  split
  next shared =>
    left
    rw [compatible.pdt p isPlace place member shared.1 shared.2]
  next => exact .inr rfl

theorem Compatible.pd_entry (compatible : Compatible places) (isPlace : p ∈ places)
    (member : place ∈ places)
    (done : pgdir.map4kbPageUser base place.va frame place.pdtTableIndex place.pdTableIndex =
      .ok next) (other : p.page ≠ place.page) :
    next.pd p.pdTableIndex (ptIndex p.va) = pgdir.pd p.pdTableIndex (ptIndex p.va) := by
  obtain ⟨-, -, -, pd⟩ := map4kbPageUser_tables done
  rw [pd, update_apply₂, if_neg]
  rintro ⟨table, slot⟩
  exact other (compatible.pd p isPlace place member table slot)

theorem Compatible.route (compatible : Compatible places) (isPlace : p ∈ places)
    (member : place ∈ places)
    (done : pgdir.map4kbPageUser base place.va frame place.pdtTableIndex place.pdTableIndex =
      .ok next) (route : Route base pgdir p) : Route base next p := by
  obtain ⟨pml4t, -, -, -⟩ := map4kbPageUser_tables done
  constructor
  · rw [pml4t]
    rcases update_entry with new | old
    · exact new
    · exact old.trans route.pml4t
  · rcases compatible.pdpt_entry isPlace member done with new | old
    · exact new
    · exact old.trans route.pdpt
  · rcases compatible.pdt_entry isPlace member done with new | old
    · exact new
    · exact old.trans route.pdt

end Mapping

/-- The tables of a process after frames were mapped at some of the places. -/
structure Laid (base : Nat) (places : Set PagePlace) (mapped : List (PagePlace × Nat))
    (pgdir : ThreadPagetables) : Prop where
  built : Built base pgdir
  member : ∀ m ∈ mapped, m.1 ∈ places
  isFrame : ∀ m ∈ mapped, IsFrame m.2
  route : ∀ m ∈ mapped, Route base pgdir m.1
  frame : ∀ m ∈ mapped, pgdir.pd m.1.pdTableIndex (ptIndex m.1.va) = entry m.2 userFlags
  pml4t : pgdir.pml4t 511 = entry (pdptPhys base) kernelFlags ∨
    pgdir.pml4t 511 = entry (pdptPhys base) userFlags
  window : pgdir.pdpt 510 = entry (pdtPhys base 0) kernelFlags
  pdpt : ∀ p ∈ places, pgdir.pdpt (pdptIndex p.va) = 0#64 ∨
    pgdir.pdpt (pdptIndex p.va) = entry (pdtPhys base p.pdtTableIndex) userFlags
  pdt : ∀ p ∈ places, pgdir.pdt p.pdtTableIndex (pdtIndex p.va) = 0#64 ∨
    pgdir.pdt p.pdtTableIndex (pdtIndex p.va) = entry (pdPhys base p.pdTableIndex) userFlags
  vacant : ∀ p ∈ places, (∀ m ∈ mapped, m.1.page ≠ p.page) →
    pgdir.pd p.pdTableIndex (ptIndex p.va) = 0#64

section Laid

variable {base : Nat} {places : Set PagePlace} {mapped : List (PagePlace × Nat)}
  {pgdir next : ThreadPagetables} {place : PagePlace} {frame : Nat}

theorem laid_create (base : Nat) (compatible : Compatible places) :
    Laid base places [] (create base) where
  built := .create
  member := fun m none => by cases none
  isFrame := fun m none => by cases none
  route := fun m none => by cases none
  frame := fun m none => by cases none
  pml4t := by
    left
    simp only [create, uvaCopyKernel, Function.update_self]
    rfl
  window := by
    simp only [create, uvaCopyKernel, Function.update_self]
    rfl
  pdpt := by
    intro p member
    left
    simp only [create, uvaCopyKernel, Function.update_of_ne (compatible.window p member)]
    rfl
  pdt := by
    intro p member
    left
    have other := Nat.pos_iff_ne_zero.mp (compatible.positive p member)
    simp only [create, uvaCopyKernel, Function.update_of_ne other]
    rfl
  vacant := fun p member fresh => rfl

/-- A page that was not mapped is mapped at its place, and the others stay where they are. -/
theorem Laid.map (placed : Placed base) (compatible : Compatible places)
    (laid : Laid base places mapped pgdir) (member : place ∈ places)
    (fresh : ∀ m ∈ mapped, m.1.page ≠ place.page) (isFrame : IsFrame frame) :
    ∃ next, pgdir.map4kbPageUser base place.va frame place.pdtTableIndex place.pdTableIndex =
      .ok next ∧ Laid base places ((place, frame) :: mapped) next := by
  have pdInside := compatible.pdInside place member
  have absent : Paging.present (pgdir.pd place.pdTableIndex (ptIndex place.va)) = false := by
    rw [laid.vacant place member fresh]
    rfl
  obtain ⟨next, done⟩ := map4kbPageUser_returns frame placed pdInside
    (laid.pdt place member) absent
  obtain ⟨pml4t, pdpt, -, pd⟩ := map4kbPageUser_tables done
  refine ⟨next, done, ?_⟩
  constructor
  case built =>
    exact laid.built.map (compatible.positive place member) (compatible.pdtInside place member)
      pdInside isFrame.aligned isFrame.below done
  case member =>
    intro m isMapped
    rcases List.mem_cons.mp isMapped with rfl | before
    · exact member
    · exact laid.member m before
  case isFrame =>
    intro m isMapped
    rcases List.mem_cons.mp isMapped with rfl | before
    · exact isFrame
    · exact laid.isFrame m before
  case route =>
    intro m isMapped
    rcases List.mem_cons.mp isMapped with rfl | before
    · exact .of_map done
    · exact compatible.route (laid.member m before) member done (laid.route m before)
  case frame =>
    intro m isMapped
    rcases List.mem_cons.mp isMapped with rfl | before
    · rw [pd, Function.update_self, Function.update_self]
    · rw [compatible.pd_entry (laid.member m before) member done (fresh m before)]
      exact laid.frame m before
  case pml4t =>
    rw [pml4t]
    rcases update_entry with new | old
    · exact .inr new
    · rw [old]
      exact laid.pml4t
  case window =>
    rw [pdpt, Function.update_of_ne (Ne.symm (compatible.window place member))]
    exact laid.window
  case pdpt =>
    intro p isPlace
    rcases compatible.pdpt_entry isPlace member done with new | old
    · exact .inr new
    · rw [old]
      exact laid.pdpt p isPlace
  case pdt =>
    intro p isPlace
    rcases compatible.pdt_entry isPlace member done with new | old
    · exact .inr new
    · rw [old]
      exact laid.pdt p isPlace
  case vacant =>
    intro p isPlace unmapped
    have other : p.page ≠ place.page := Ne.symm (unmapped (place, frame) List.mem_cons_self)
    rw [compatible.pd_entry isPlace member done other]
    exact laid.vacant p isPlace fun m before => unmapped m (List.mem_cons_of_mem _ before)

theorem canonical_page {va : Nat} (same : va / pgSize = place.page) :
    Paging.Canonical va ↔ Paging.Canonical place.va := Paging.canonical_congr same

theorem Route.congr {va : Nat} (route : Route base pgdir place) (same : va / pgSize = place.page) :
    Route base pgdir { place with va := va } where
  pml4t := by
    rw [pml4tIndex_eq, Paging.index_congr same, ← pml4tIndex_eq]
    exact route.pml4t
  pdpt := by
    rw [pdptIndex_eq, Paging.index_congr same, ← pdptIndex_eq]
    exact route.pdpt
  pdt := by
    rw [pdtIndex_eq, Paging.index_congr same, ← pdtIndex_eq]
    exact route.pdt

/-- The way to a page with a frame in its last entry. -/
theorem Route.walk_frame (view : View) {va : Nat} (placed : Placed base)
    (route : Route base pgdir place) (pdtInside : place.pdtTableIndex < 512)
    (pdInside : place.pdTableIndex < 512) (canonical : Paging.Canonical place.va)
    (here : pgdir.pd place.pdTableIndex (ptIndex place.va) = entry frame userFlags)
    (aligned : frame % pgSize = 0) (below : frame < 2 ^ 52) (same : va / pgSize = place.page) :
    Paging.walk (pgdir.tableAt base view) va base = some ⟨frame + va % pgSize, true, true⟩ := by
  rw [Route.walk placed (route.congr same) pdtInside pdInside
    ((canonical_page same).mpr canonical)]
  apply walkFrom_frame _ aligned below
  rw [tableAt_pd _ _ pdInside, Paging.index_congr same, ← ptIndex_eq]
  exact here

/-- A mapped page is translated to its frame, for user code to read and write. -/
theorem Laid.walk_mapped (view : View) {va : Nat} (placed : Placed base)
    (compatible : Compatible places) (laid : Laid base places mapped pgdir)
    (member : (place, frame) ∈ mapped) (same : va / pgSize = place.page) :
    Paging.walk (pgdir.tableAt base view) va base = some ⟨frame + va % pgSize, true, true⟩ := by
  have isPlace : place ∈ places := laid.member _ member
  have isFrame := laid.isFrame _ member
  exact Route.walk_frame view placed (laid.route _ member) (compatible.pdtInside place isPlace)
    (compatible.pdInside place isPlace) (compatible.canonical place isPlace) (laid.frame _ member)
    isFrame.aligned isFrame.below same

/-- A level whose entry is null, or leads to a table from which nothing is reached. -/
theorem walkFrom_none {tables : Paging.Tables} {va level table next : Nat}
    (here : tables table (Paging.index (level + 1) va) = 0#64 ∨
      tables table (Paging.index (level + 1) va) = entry next userFlags)
    (aligned : next % 2 ^ 12 = 0) (below : next < 2 ^ 52)
    (rest : Paging.walkFrom tables va level next = none) :
    Paging.walkFrom tables va (level + 1) table = none := by
  rcases here with null | entry
  · apply Paging.walkFrom_absent
    rw [null]
    rfl
  · rw [walkFrom_userFlags entry aligned below, rest]

/-- Nothing is reached if nothing is reached from the `pdpt` on. -/
theorem walk_none {view : View} {va : Nat} (placed : Placed base)
    (pml4t : pgdir.pml4t (pml4tIndex va) = 0#64 ∨
      pgdir.pml4t (pml4tIndex va) = entry (pdptPhys base) kernelFlags ∨
      pgdir.pml4t (pml4tIndex va) = entry (pdptPhys base) userFlags)
    (pointers : Paging.walkFrom (pgdir.tableAt base view) va 2 (pdptPhys base) = none) :
    Paging.walk (pgdir.tableAt base view) va base = none := by
  obtain ⟨aligned, below, -⟩ := placed.pdpt
  rw [Paging.walk]
  split
  · rcases pml4t with null | supervisor | user
    · apply walkFrom_none (.inl _) aligned below pointers
      rw [tableAt_pml4t, ← pml4tIndex_eq]
      exact null
    · rw [walkFrom_kernelFlags _ aligned below, pointers]
      · rfl
      · rw [tableAt_pml4t, ← pml4tIndex_eq]
        exact supervisor
    · apply walkFrom_none (.inr _) aligned below pointers
      rw [tableAt_pml4t, ← pml4tIndex_eq]
      exact user
  · rfl

/-- Nothing is reached through an empty slot of a page directory. -/
theorem walkFrom_pdt_none {view : View} {va j : Nat} (inside : j < 512)
    (null : pgdir.pdt j (pdtIndex va) = 0#64) :
    Paging.walkFrom (pgdir.tableAt base view) va 1 (pdtPhys base j) = none := by
  apply Paging.walkFrom_absent
  rw [tableAt_pdt _ _ inside, ← pdtIndex_eq, null]
  rfl

/-- Nothing is reached through a last entry that is empty. -/
theorem walkFrom_pd_none {view : View} {va j k : Nat} (placed : Placed base) (pdtInside : j < 512)
    (pdInside : k < 512)
    (pdt : pgdir.pdt j (pdtIndex va) = 0#64 ∨
      pgdir.pdt j (pdtIndex va) = entry (pdPhys base k) userFlags)
    (vacant : pgdir.pd k (ptIndex va) = 0#64) :
    Paging.walkFrom (pgdir.tableAt base view) va 1 (pdtPhys base j) = none := by
  obtain ⟨aligned, below, -⟩ := placed.pd pdInside
  have last : Paging.walkFrom (pgdir.tableAt base view) va 0 (pdPhys base k) = none := by
    apply Paging.walkFrom_absent
    rw [tableAt_pd _ _ pdInside, ← ptIndex_eq, vacant]
    rfl
  apply walkFrom_none _ aligned below last
  rw [tableAt_pdt _ _ pdtInside, ← pdtIndex_eq]
  exact pdt

/-- Nothing is reached through an entry of the `pdpt` below which there is nothing. -/
theorem walkFrom_pdpt_none {view : View} {va j : Nat} (placed : Placed base) (inside : j < 512)
    (pdpt : pgdir.pdpt (pdptIndex va) = 0#64 ∨
      pgdir.pdpt (pdptIndex va) = entry (pdtPhys base j) userFlags)
    (directory : Paging.walkFrom (pgdir.tableAt base view) va 1 (pdtPhys base j) = none) :
    Paging.walkFrom (pgdir.tableAt base view) va 2 (pdptPhys base) = none := by
  obtain ⟨aligned, below, -⟩ := placed.pdt inside
  apply walkFrom_none _ aligned below directory
  rw [tableAt_pdpt, ← pdptIndex_eq]
  exact pdpt

theorem Laid.walk_other (view : View) {va : Nat} (placed : Placed base)
    (compatible : Compatible places) (laid : Laid base places mapped pgdir) (member : place ∈ places)
    (unmapped : ∀ m ∈ mapped, m.1.page ≠ place.page) (same : va / pgSize = place.page) :
    Paging.walk (pgdir.tableAt base view) va base = none := by
  have pdtInside := compatible.pdtInside place member
  have pdInside := compatible.pdInside place member
  have second : pdptIndex va = pdptIndex place.va := by
    rw [pdptIndex_eq, Paging.index_congr same, ← pdptIndex_eq]
  have third : pdtIndex va = pdtIndex place.va := by
    rw [pdtIndex_eq, Paging.index_congr same, ← pdtIndex_eq]
  have last : ptIndex va = ptIndex place.va := by
    rw [ptIndex_eq, Paging.index_congr same, ← ptIndex_eq]
  apply walk_none placed (laid.built.shape.pml4t _)
  apply walkFrom_pdpt_none placed pdtInside
  · rw [second]
    exact laid.pdpt place member
  · apply walkFrom_pd_none placed pdtInside pdInside
    · rw [third]
      exact laid.pdt place member
    · rw [last]
      exact laid.vacant place member unmapped

/-- The kernel's window leads to the first gigabyte, and is not for user code. -/
theorem Laid.walk_window (view : View) {x : Nat} (placed : Placed base)
    (laid : Laid base places mapped pgdir) (inside : x < 2 ^ 30) :
    Paging.walk (pgdir.tableAt base view) (kernelHhStart + x) base =
      some ⟨x, true, false⟩ := by
  obtain ⟨aligned₁, below₁, -⟩ := placed.pdpt
  obtain ⟨aligned₂, below₂, -⟩ := placed.pdt (i := 0) (by decide)
  have canonical : Paging.Canonical (kernelHhStart + x) := by
    rw [Paging.Canonical, kernelHhStart]
    omega
  have highest : Paging.index 3 (kernelHhStart + x) = 511 := by
    rw [Paging.index, Paging.span, kernelHhStart]
    omega
  have second : Paging.index 2 (kernelHhStart + x) = 510 := by
    rw [Paging.index, Paging.span, kernelHhStart]
    omega
  have third : Paging.index 1 (kernelHhStart + x) = x / 2 ^ 21 := by
    rw [Paging.index, Paging.span, kernelHhStart]
    omega
  have low : windowFlags.toNat < 2 ^ 12 := by decide
  have aligned : x / 2 ^ 21 * hugePgSize % 2 ^ 12 = 0 := by
    rw [hugePgSize]
    omega
  have below : x / 2 ^ 21 * hugePgSize < 2 ^ 52 := by
    rw [hugePgSize]
    omega
  obtain ⟨present, writable, user, isLarge⟩ := entry_windowFlags aligned below
  have largePage : pgdir.tableAt base view (pdtPhys base 0)
      (Paging.index 1 (kernelHhStart + x)) = entry (x / 2 ^ 21 * hugePgSize) windowFlags := by
    rw [tableAt_pdt _ _ (by decide), third, laid.built.shape.window _ (by omega)]
  have directory : Paging.walkFrom (pgdir.tableAt base view) (kernelHhStart + x) 1
      (pdtPhys base 0) = some ⟨x, true, false⟩ := by
    have physical : x / 2 ^ 21 * hugePgSize / Paging.span 1 * Paging.span 1 +
        (kernelHhStart + x) % Paging.span 1 = x := by
      rw [Paging.span, hugePgSize, kernelHhStart]
      omega
    rw [Paging.walkFrom_large (by rw [largePage, present]) (by rw [largePage, isLarge]) (by decide),
      largePage, Paging.leaf, (entry_address aligned below low).1, writable, user, physical]
  have pointers : Paging.walkFrom (pgdir.tableAt base view) (kernelHhStart + x) 2
      (pdptPhys base) = some ⟨x, true, false⟩ := by
    rw [walkFrom_kernelFlags _ aligned₂ below₂, directory]
    · rfl
    · rw [tableAt_pdpt, second]
      exact laid.window
  rw [Paging.walk, if_pos canonical]
  rcases laid.pml4t with supervisor | user
  · rw [walkFrom_kernelFlags _ aligned₁ below₁, pointers]
    · rfl
    · rw [tableAt_pml4t, highest]
      exact supervisor
  · rw [walkFrom_userFlags _ aligned₁ below₁, pointers]
    rw [tableAt_pml4t, highest]
    exact user

end Laid

end ThreadPagetables

end SwagOS.Mem
