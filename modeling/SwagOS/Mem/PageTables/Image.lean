import SwagOS.Mem.PageTables.Places

/-!
# Pages mapped through one directory

The pages of an image are all mapped through `pdt[1]` and `pd[0]`, whatever their addresses
are.  Starting from fresh tables the entries are then known exactly: those at the indices of
some address that was mapped lead on, and the others are as `create` left them.  An address is
reached if each of its four indices is that of some mapped address, not necessarily the same.
-/

namespace SwagOS.Mem.ThreadPagetables

open SwagOS.Lib

abbrev ImagePage := Nat × Nat

def Touched (index : Nat → Nat) (pages : List ImagePage) (i : Nat) : Prop :=
  ∃ m ∈ pages, index m.1 = i

instance (index : Nat → Nat) (pages : List ImagePage) (i : Nat) :
    Decidable (Touched index pages i) := inferInstanceAs (Decidable (∃ m ∈ pages, index m.1 = i))

theorem touched_cons {index : Nat → Nat} {pages : List ImagePage} {m : ImagePage} {i : Nat} :
    Touched index (m :: pages) i ↔ index m.1 = i ∨ Touched index pages i := by
  simp [Touched]

/-- The tables after the pages were mapped, the last one first, beginning with given tables. -/
structure MappedOver (base : Nat) (start : ThreadPagetables) (pages : List ImagePage)
    (pgdir : ThreadPagetables) : Prop where
  pml4t : ∀ i, pgdir.pml4t i =
    if Touched pml4tIndex pages i then entry (pdptPhys base) userFlags else start.pml4t i
  pdpt : ∀ i, pgdir.pdpt i =
    if Touched pdptIndex pages i then entry (pdtPhys base 1) userFlags else start.pdpt i
  pdt : ∀ i, pgdir.pdt 1 i =
    if Touched pdtIndex pages i then entry (pdPhys base 0) userFlags else start.pdt 1 i
  frame : ∀ m ∈ pages, pgdir.pd 0 (ptIndex m.1) = entry m.2 userFlags
  vacant : ∀ i, ¬Touched ptIndex pages i → pgdir.pd 0 i = start.pd 0 i
  isFrame : ∀ m ∈ pages, m.2 % pgSize = 0 ∧ m.2 < 2 ^ 52

theorem mappedOver_self (base : Nat) (start : ThreadPagetables) :
    MappedOver base start [] start where
  pml4t i := by simp [Touched]
  pdpt i := by simp [Touched]
  pdt i := by simp [Touched]
  frame m member := absurd member List.not_mem_nil
  vacant i _ := rfl
  isFrame m member := absurd member List.not_mem_nil

/-- The tables after the pages were mapped, the last one first. -/
structure Imaged (base : Nat) (pages : List ImagePage) (pgdir : ThreadPagetables) : Prop where
  pml4t : ∀ i, pgdir.pml4t i =
    if Touched pml4tIndex pages i then entry (pdptPhys base) userFlags else (create base).pml4t i
  pdpt : ∀ i, pgdir.pdpt i =
    if Touched pdptIndex pages i then entry (pdtPhys base 1) userFlags else (create base).pdpt i
  window : pgdir.pdt 0 = (create base).pdt 0
  pdt : ∀ i, pgdir.pdt 1 i =
    if Touched pdtIndex pages i then entry (pdPhys base 0) userFlags else 0#64
  frame : ∀ m ∈ pages, pgdir.pd 0 (ptIndex m.1) = entry m.2 userFlags
  vacant : ∀ i, ¬Touched ptIndex pages i → pgdir.pd 0 i = 0#64
  isFrame : ∀ m ∈ pages, m.2 % pgSize = 0 ∧ m.2 < 2 ^ 52

theorem create_pdt (base i : Nat) : (create base).pdt 1 i = 0#64 := by
  simp [create, uvaCopyKernel, zero]

theorem imaged_iff {base : Nat} {pages : List ImagePage} {pgdir : ThreadPagetables} :
    Imaged base pages pgdir ↔
      MappedOver base (create base) pages pgdir ∧ pgdir.pdt 0 = (create base).pdt 0 := by
  constructor
  · intro imaged
    refine ⟨⟨imaged.pml4t, imaged.pdpt, ?_, imaged.frame, imaged.vacant, imaged.isFrame⟩,
      imaged.window⟩
    intro i
    rw [imaged.pdt, create_pdt]
  · rintro ⟨mapped, window⟩
    refine ⟨mapped.pml4t, mapped.pdpt, window, ?_, mapped.frame, mapped.vacant, mapped.isFrame⟩
    intro i
    rw [mapped.pdt, create_pdt]

theorem imaged_create (base : Nat) : Imaged base [] (create base) :=
  imaged_iff.mpr ⟨mappedOver_self base _, rfl⟩

section Mapping

variable {base va frame : Nat} {pages : List ImagePage} {pgdir next : ThreadPagetables}

theorem touched_update {index : Nat → Nat} {table other : Nat → BitVec 64} {e : BitVec 64}
    (before : ∀ i, table i = if Touched index pages i then e else other i) (i : Nat) :
    Function.update table (index va) e i =
      if Touched index ((va, frame) :: pages) i then e else other i := by
  by_cases here : i = index va
  · rw [here, Function.update_self, if_pos (touched_cons.mpr (.inl rfl))]
  · have same : Touched index ((va, frame) :: pages) i ↔ Touched index pages i := by
      rw [touched_cons, or_iff_right (Ne.symm here)]
    rw [Function.update_of_ne here, before i]
    simp only [same]

/-- A page is mapped where no page has the same last index. -/
theorem MappedOver.map {start : ThreadPagetables} (above : MappedOver base start pages pgdir)
    (done : pgdir.map4kbPageUser base va frame 1 0 = .ok next) (aligned : frame % pgSize = 0)
    (below : frame < 2 ^ 52) :
    ¬Touched ptIndex pages (ptIndex va) ∧ MappedOver base start ((va, frame) :: pages) next := by
  obtain ⟨absent, -⟩ := map4kbPageUser_ok done
  obtain ⟨pml4t, pdpt, pdt, pd⟩ := map4kbPageUser_tables done
  have fresh : ¬Touched ptIndex pages (ptIndex va) := by
    rintro ⟨m, member, same⟩
    obtain ⟨alignedM, belowM⟩ := above.isFrame m member
    rw [← same, above.frame m member] at absent
    exact (and_pagePresent _).mpr (entry_userFlags alignedM belowM).1 absent
  refine ⟨fresh, ?_⟩
  constructor
  case pml4t =>
    intro i
    rw [pml4t]
    exact touched_update above.pml4t i
  case pdpt =>
    intro i
    rw [pdpt]
    exact touched_update above.pdpt i
  case pdt =>
    intro i
    rw [pdt, Function.update_self]
    exact touched_update above.pdt i
  case frame =>
    intro m member
    rw [pd, Function.update_self]
    rcases List.mem_cons.mp member with rfl | before
    · rw [Function.update_self]
    · have other : ptIndex m.1 ≠ ptIndex va := fun same => fresh ⟨m, before, same⟩
      rw [Function.update_of_ne other]
      exact above.frame m before
  case vacant =>
    intro i untouched
    rw [touched_cons, not_or] at untouched
    rw [pd, Function.update_self, Function.update_of_ne (Ne.symm untouched.1)]
    exact above.vacant i untouched.2
  case isFrame =>
    intro m member
    rcases List.mem_cons.mp member with rfl | before
    · exact ⟨aligned, below⟩
    · exact above.isFrame m before

theorem Imaged.map (imaged : Imaged base pages pgdir)
    (done : pgdir.map4kbPageUser base va frame 1 0 = .ok next) (aligned : frame % pgSize = 0)
    (below : frame < 2 ^ 52) :
    ¬Touched ptIndex pages (ptIndex va) ∧ Imaged base ((va, frame) :: pages) next := by
  obtain ⟨above, window⟩ := imaged_iff.mp imaged
  obtain ⟨fresh, above'⟩ := above.map done aligned below
  obtain ⟨-, -, pdt, -⟩ := map4kbPageUser_tables done
  refine ⟨fresh, imaged_iff.mpr ⟨above', ?_⟩⟩
  rw [pdt, Function.update_of_ne (by decide)]
  exact window

theorem Imaged.map_returns (placed : Placed base) (imaged : Imaged base pages pgdir)
    (fresh : ¬Touched ptIndex pages (ptIndex va)) (frame : Nat) :
    ∃ next, pgdir.map4kbPageUser base va frame 1 0 = .ok next := by
  refine map4kbPageUser_returns frame placed (by decide) ?_ ?_
  · rw [imaged.pdt]
    split
    · exact .inr rfl
    · exact .inl rfl
  · rw [imaged.vacant _ fresh]
    rfl

theorem Imaged.route (imaged : Imaged base pages pgdir) {m : ImagePage} (member : m ∈ pages) :
    Route base pgdir ⟨m.1, 1, 0⟩ where
  pml4t := (imaged.pml4t _).trans (if_pos ⟨m, member, rfl⟩)
  pdpt := (imaged.pdpt _).trans (if_pos ⟨m, member, rfl⟩)
  pdt := (imaged.pdt _).trans (if_pos ⟨m, member, rfl⟩)

theorem Imaged.walk (view : View) (placed : Placed base) (imaged : Imaged base pages pgdir)
    {m : ImagePage} (member : m ∈ pages) (canonical : Paging.Canonical m.1)
    (same : va / pgSize = m.1 / pgSize) :
    Paging.walk (pgdir.tableAt base view) va base = some ⟨m.2 + va % pgSize, true, true⟩ := by
  obtain ⟨aligned, below⟩ := imaged.isFrame m member
  have inside : 1 < 512 ∧ 0 < 512 := by decide
  exact Route.walk_frame view placed (imaged.route member) inside.1 inside.2 canonical
    (imaged.frame m member) aligned below same

theorem index_large {va va' : Nat} (same : va / hugePgSize = va' / hugePgSize) (level : Nat) :
    Paging.index (level + 1) va = Paging.index (level + 1) va' := by
  have split : ∀ x, x / Paging.span (level + 1) = x / hugePgSize / 2 ^ (9 * level) := by
    intro x
    have large : hugePgSize = 2 ^ 21 := rfl
    have exponent : 12 + 9 * (level + 1) = 21 + 9 * level := by omega
    rw [Nat.div_div_eq_div_mul, large, ← Nat.pow_add, Paging.span, exponent]
  rw [Paging.index, Paging.index, split, split, same]

/-- In a directory that a mapped page has opened, nothing is found at an index that no page
has. -/
theorem Imaged.walk_vacant (view : View) (placed : Placed base)
    (imaged : Imaged base pages pgdir) {m : ImagePage} (member : m ∈ pages)
    (same : va / hugePgSize = m.1 / hugePgSize) (fresh : ¬Touched ptIndex pages (ptIndex va)) :
    Paging.walk (pgdir.tableAt base view) va base = none := by
  have route := imaged.route member
  apply walk_none placed
  · rw [pml4tIndex_eq, index_large same, ← pml4tIndex_eq]
    exact .inr (.inr route.pml4t)
  · apply walkFrom_pdpt_none placed (j := 1) (by decide)
    · rw [pdptIndex_eq, index_large same, ← pdptIndex_eq]
      exact .inr route.pdpt
    · apply walkFrom_pd_none placed (k := 0) (by decide) (by decide)
      · rw [pdtIndex_eq, index_large same, ← pdtIndex_eq]
        exact .inr route.pdt
      · exact imaged.vacant _ fresh

/-- One level of the way: an entry that leads on, or one that is not for user code. -/
theorem userReaches_step {tables : Paging.Tables} {level table target : Nat} {old : BitVec 64}
    {touched : Prop} [Decidable touched]
    (here : tables table (Paging.index (level + 1) va) =
      if touched then entry target userFlags else old)
    (supervisor : Paging.user old = false) (aligned : target % 2 ^ 12 = 0)
    (below : target < 2 ^ 52) :
    Paging.UserReaches tables va (level + 1) table ↔
      touched ∧ Paging.UserReaches tables va level target := by
  by_cases isTouched : touched
  · rw [if_pos isTouched] at here
    obtain ⟨present, -, user, notLarge⟩ := entry_userFlags aligned below
    have address := (entry_address aligned below (by decide : userFlags.toNat < 2 ^ 12)).1
    rw [Paging.userReaches_table (by rw [here, present]) (by rw [here, notLarge]), here, user,
      address]
    simp [isTouched]
  · rw [if_neg isTouched] at here
    refine iff_of_false (Paging.not_userReaches ?_) fun both => isTouched both.1
    rw [here, supervisor]

theorem create_supervisor (placed : Placed base) (i : Nat) :
    Paging.user ((create base).pml4t i) = false ∧
      Paging.user ((create base).pdpt i) = false := by
  obtain ⟨aligned₁, below₁, -⟩ := placed.pdpt
  obtain ⟨aligned₂, below₂, -⟩ := placed.pdt (i := 0) (by decide)
  have null : Paging.user 0#64 = false := rfl
  constructor
  · rw [create, uvaCopyKernel]
    rcases update_entry with new | old
    · exact (congrArg Paging.user new).trans (entry_kernelFlags aligned₁ below₁).2.1
    · exact (congrArg Paging.user old).trans null
  · rw [create, uvaCopyKernel]
    rcases update_entry with new | old
    · exact (congrArg Paging.user new).trans (entry_kernelFlags aligned₂ below₂).2.1
    · exact (congrArg Paging.user old).trans null

/-- An address is for user code if a page was mapped at each of its indices. -/
theorem Imaged.userReaches_iff (view : View) (placed : Placed base)
    (imaged : Imaged base pages pgdir) (va : Nat) :
    Paging.UserReaches (pgdir.tableAt base view) va 3 base ↔
      Touched pml4tIndex pages (pml4tIndex va) ∧ Touched pdptIndex pages (pdptIndex va) ∧
        Touched pdtIndex pages (pdtIndex va) ∧ Touched ptIndex pages (ptIndex va) := by
  obtain ⟨aligned₁, below₁, -⟩ := placed.pdpt
  obtain ⟨aligned₂, below₂, -⟩ := placed.pdt (i := 1) (by decide)
  obtain ⟨aligned₃, below₃, -⟩ := placed.pd (i := 0) (by decide)
  have last : Paging.UserReaches (pgdir.tableAt base view) va 0 (pdPhys base 0) ↔
      Touched ptIndex pages (ptIndex va) := by
    have here : pgdir.tableAt base view (pdPhys base 0) (Paging.index 0 va) =
        pgdir.pd 0 (ptIndex va) := by
      rw [tableAt_pd _ _ (by decide), ptIndex_eq]
    by_cases touched : Touched ptIndex pages (ptIndex va)
    · obtain ⟨m, member, same⟩ := touched
      obtain ⟨aligned, below⟩ := imaged.isFrame m member
      obtain ⟨present, -, user, -⟩ := entry_userFlags aligned below
      rw [← same, imaged.frame m member] at here
      rw [Paging.userReaches_page (by rw [here, present]), here, user]
      exact iff_of_true rfl ⟨m, member, same⟩
    · rw [imaged.vacant _ touched] at here
      refine iff_of_false (Paging.userReaches_absent ?_) touched
      rw [here]
      rfl
  have first : pgdir.tableAt base view base (Paging.index 3 va) =
      if Touched pml4tIndex pages (pml4tIndex va) then entry (pdptPhys base) userFlags
      else (create base).pml4t (pml4tIndex va) := by
    rw [tableAt_pml4t, ← pml4tIndex_eq, imaged.pml4t]
  have second : pgdir.tableAt base view (pdptPhys base) (Paging.index 2 va) =
      if Touched pdptIndex pages (pdptIndex va) then entry (pdtPhys base 1) userFlags
      else (create base).pdpt (pdptIndex va) := by
    rw [tableAt_pdpt, ← pdptIndex_eq, imaged.pdpt]
  have third : pgdir.tableAt base view (pdtPhys base 1) (Paging.index 1 va) =
      if Touched pdtIndex pages (pdtIndex va) then entry (pdPhys base 0) userFlags
      else 0#64 := by
    rw [tableAt_pdt _ _ (by decide), ← pdtIndex_eq, imaged.pdt]
  rw [userReaches_step first (create_supervisor placed _).1 aligned₁ below₁,
    userReaches_step second (create_supervisor placed _).2 aligned₂ below₂,
    userReaches_step third rfl aligned₃ below₃, last]

end Mapping

end SwagOS.Mem.ThreadPagetables
