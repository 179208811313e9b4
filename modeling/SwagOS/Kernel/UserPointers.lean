import SwagOS.Kernel.UserCopies
import SwagOS.Mem.KernelPageTables.DirectMap

/-!
# User pointers

`FetchStruct`, `FetchString` and `WriteStruct` test the first and the last byte of a range
in the tables of the caller, and the first one in the kernel tables.  What is not present on the
way stops the copy, so it is the pages that are present and not the process's own that get
through: those behind the two entries that `uva_copy_kernel` writes, and those of the kernel.
-/

namespace SwagOS.Kernel

open SwagOS.Lib SwagOS.Mem ThreadPagetables

inductive UserAccess where
  | fetchStruct
  | fetchString
  | writeStruct
  deriving DecidableEq, Repr

section Definitions

-- The process, the kernel tables and the physical memory outside the process's tables.
variable (base : Nat) (kernel : KernelTables) (memory : Paging.Tables) (pgdir : ThreadPagetables)

def userView : View := ⟨memory, kernel.isFrameMappedKernel memory⟩

def processTables : Paging.Tables := pgdir.tableAt base (userView kernel memory)

def Present (va : Nat) : Prop :=
  (⟨base, pgdir⟩ : LoadedTables).Present (userView kernel memory) va

instance (va : Nat) : Decidable (Present base kernel memory pgdir va) :=
  inferInstanceAs (Decidable (LoadedTables.Present _ _ _))

/-- The function returns true, for a pointer of the process itself, with the bytes of physical
memory and those of the kernel's buffer.  It may fault instead. -/
def UserAccess.Returns (call : UserAccess) (ram buf : Bytes) (addr size : Nat) : Prop :=
  let caller : LoadedTables := ⟨base, pgdir⟩
  let view := userView kernel memory
  match call with
  | .fetchStruct => ∃ out, caller.fetchStruct view caller addr size ram buf = .ok (some out)
  | .fetchString => ∃ out, caller.fetchString view caller addr size ram buf = .ok (some out)
  | .writeStruct => ∃ ram', caller.writeStruct view caller addr buf size ram = .ok (some ram')

def UserMapped (va : Nat) : Prop :=
  ∃ t, Paging.walk (processTables base kernel memory pgdir) va base = some t ∧ t.user = true

def UpperUser (va : Nat) : Prop :=
  let tables := processTables base kernel memory pgdir
  let pml4e := tables base (pml4tIndex va)
  let pdpte := tables (Paging.address pml4e) (pdptIndex va)
  let pde := tables (Paging.address pdpte) (pdtIndex va)
  Paging.Canonical va ∧ Paging.user pml4e = true ∧ Paging.user pdpte = true ∧
    Paging.user pde = true

instance (va : Nat) : Decidable (UpperUser base kernel memory pgdir va) :=
  inferInstanceAs (Decidable (_ ∧ _ ∧ _ ∧ _))

def RangeSafe (addr size : Nat) : Prop :=
  addr + size ≤ 2 ^ 64 ∧ ∀ k < size, UserMapped base kernel memory pgdir (addr + k) ∧
    ¬kernel.Mapped memory (addr + k)

/-- The address lies behind an entry of `uva_copy_kernel` in whose place no page of the process
has put its own. -/
def KernelSlot (va : Nat) : Prop :=
  pml4tIndex va = 511 ∧ Paging.user (pgdir.pml4t 511) = false ∨
    pdptIndex va = 510 ∧ Paging.user (pgdir.pdpt 510) = false

instance (va : Nat) : Decidable (KernelSlot pgdir va) := inferInstanceAs (Decidable (_ ∨ _))

/-- The range ends below the end of memory, it is not behind the kernel's entries, and the kernel
tables have no page of it but the first. -/
structure Harmless (addr size : Nat) : Prop where
  noWrap : addr + size ≤ 2 ^ 64
  slots : ∀ k < size, ¬KernelSlot pgdir (addr + k)
  kernel : ∀ k < size, (addr + k) / pgSize ≠ addr / pgSize → ¬kernel.Mapped memory (addr + k)

/-- What must not come together: a range that is present as far as it is copied, and of which the
kernel does not know the first page, has to be harmless. -/
def UserAccess.Covered (call : UserAccess) (ram : Bytes) (addr size : Nat) : Prop :=
  let caller : LoadedTables := ⟨base, pgdir⟩
  let view := userView kernel memory
  match call with
  | .fetchString =>
      (∀ k ∈ caller.stringOffsets view addr ram size 0,
        Present base kernel memory pgdir ((addr + k) % 2 ^ 64)) →
      pgdir.isFrameMappedThread base view ((addr + size - 1) % 2 ^ 64) = true →
      kernel.isFrameMappedKernel memory addr = false →
      Harmless kernel memory pgdir addr size ∧
        ∀ k < size, Present base kernel memory pgdir (addr + k)
  | _ =>
      (∀ k < size, Present base kernel memory pgdir ((addr + k) % 2 ^ 64)) →
      kernel.isFrameMappedKernel memory addr = false → Harmless kernel memory pgdir addr size

end Definitions

variable {base : Nat} {kernel : KernelTables} {memory : Paging.Tables} {pgdir : ThreadPagetables}

theorem userMapped_reaches (va : Nat) : UserMapped base kernel memory pgdir va ↔
    Paging.Canonical va ∧ Paging.UserReaches (processTables base kernel memory pgdir) va 3 base := by
  rw [UserMapped, Paging.walk]
  by_cases canonical : Paging.Canonical va
  · rw [if_pos canonical, and_iff_right canonical]
    rfl
  · rw [if_neg canonical]
    constructor
    · rintro ⟨t, ⟨⟩, -⟩
    · rintro ⟨isCanonical, -⟩
      exact absurd isCanonical canonical

/-- A user page is one for which the entries above the last table are for user code, and for
which the kernel's test succeeds. -/
theorem userMapped_iff (placed : Placed base) (shape : Shape base pgdir) (va : Nat) :
    UserMapped base kernel memory pgdir va ↔ UpperUser base kernel memory pgdir va ∧
      pgdir.isFrameMappedThread base (userView kernel memory) va = true := by
  rw [userMapped_reaches, UpperUser]
  by_cases canonical : Paging.Canonical va
  swap
  · exact iff_of_false (fun both => canonical both.1) fun both => canonical both.1.1
  have root : processTables base kernel memory pgdir base = pgdir.pml4t := tableAt_pml4t _ _
  simp only [root, and_iff_right canonical]
  -- Level by level, the entry is not for user code, or points to the next table.
  rcases shape.pml4t_user placed (pml4tIndex va) with notUser | pml4e
  · rw [notUser]
    refine iff_of_false (Paging.not_userReaches ?_) fun both => Bool.noConfusion both.1.1
    rw [root, ← pml4tIndex_eq]
    exact notUser
  have low : userFlags.toNat < 2 ^ 12 := by decide
  obtain ⟨aligned₁, below₁, -⟩ := placed.pdpt
  obtain ⟨here₁, -, user₁, notLarge₁⟩ := entry_userFlags aligned₁ below₁
  have address₁ := (entry_address aligned₁ below₁ low).1
  have entry₁ : processTables base kernel memory pgdir base (Paging.index 3 va) =
      entry (pdptPhys base) userFlags := by
    rw [root, ← pml4tIndex_eq, pml4e]
  have second : processTables base kernel memory pgdir (pdptPhys base) = pgdir.pdpt :=
    tableAt_pdpt _ _
  rw [Paging.userReaches_table (by rw [entry₁, here₁]) (by rw [entry₁, notLarge₁]), entry₁, user₁,
    address₁, and_iff_right rfl, pml4e, user₁, address₁, second, and_iff_right rfl]
  rcases shape.pdpt_user placed (pdptIndex va) with notUser | ⟨j, positive, insideJ, pdpte⟩
  · rw [notUser]
    refine iff_of_false (Paging.not_userReaches ?_) fun both => Bool.noConfusion both.1.1
    rw [second, ← pdptIndex_eq]
    exact notUser
  obtain ⟨aligned₂, below₂, -⟩ := placed.pdt insideJ
  obtain ⟨here₂, -, user₂, notLarge₂⟩ := entry_userFlags aligned₂ below₂
  have address₂ := (entry_address aligned₂ below₂ low).1
  have third : processTables base kernel memory pgdir (pdtPhys base j) = pgdir.pdt j :=
    tableAt_pdt _ _ insideJ
  have entry₂ : pgdir.pdpt (Paging.index 2 va) = entry (pdtPhys base j) userFlags := by
    rw [← pdptIndex_eq, pdpte]
  rw [Paging.userReaches_table (by rw [second, entry₂, here₂]) (by rw [second, entry₂, notLarge₂]),
    second, entry₂, user₂, address₂, and_iff_right rfl, pdpte, user₂, address₂, third,
    and_iff_right rfl]
  rcases shape.pdt_user positive (pdtIndex va) with notUser | ⟨k, insideK, pde⟩
  · rw [notUser]
    refine iff_of_false (Paging.not_userReaches ?_) fun both => Bool.noConfusion both.1
    rw [third, ← pdtIndex_eq]
    exact notUser
  obtain ⟨aligned₃, below₃, -⟩ := placed.pd insideK
  obtain ⟨here₃, -, user₃, notLarge₃⟩ := entry_userFlags aligned₃ below₃
  have address₃ := (entry_address aligned₃ below₃ low).1
  have last : processTables base kernel memory pgdir (pdPhys base k) = pgdir.pd k :=
    tableAt_pd _ _ insideK
  have entry₃ : pgdir.pdt j (Paging.index 1 va) = entry (pdPhys base k) userFlags := by
    rw [← pdtIndex_eq, pde]
  rw [Paging.userReaches_table (by rw [third, entry₃, here₃]) (by rw [third, entry₃, notLarge₃]),
    third, entry₃, user₃, address₃, and_iff_right rfl, pde, user₃, and_iff_right rfl,
    isFrameMappedThread_eq placed insideJ insideK pml4e pdpte pde]
  have page := shape.pd_user k (ptIndex va)
  by_cases here : Paging.present (pgdir.pd k (ptIndex va)) = true
  · rw [Paging.userReaches_page (by rw [last, ← ptIndex_eq, here]), last, ← ptIndex_eq, page]
  · refine iff_of_false (Paging.userReaches_absent ?_) here
    rw [last, ← ptIndex_eq]
    exact Bool.eq_false_of_not_eq_true here

theorem kernelMapped_congr {va va' : Nat} (same : va / pgSize = va' / pgSize) :
    kernel.Mapped memory va ↔ kernel.Mapped memory va' := by
  have users : (Paging.walk memory va kernel.pml4t).map Paging.Translation.user = _ :=
    Paging.walk_congr same kernel.pml4t
  have both := congrArg Option.isSome users
  rw [Option.isSome_map, Option.isSome_map] at both
  rw [KernelTables.Mapped, KernelTables.Mapped, both]

/-- An entry above the last tables that is not for user code is null, or one of the two that
`uva_copy_kernel` writes. -/
theorem supervisor_slots (placed : Placed base) (built : Built base pgdir) :
    (∀ i, i ≠ 511 → pgdir.pml4t i = 0#64 ∨ Paging.user (pgdir.pml4t i) = true) ∧
      ∀ i, i ≠ 510 → pgdir.pdpt i = 0#64 ∨ Paging.user (pgdir.pdpt i) = true := by
  induction built with
  | create =>
    constructor
    · intro i other
      exact .inl (Function.update_of_ne other _ _)
    · intro i other
      exact .inl (Function.update_of_ne other _ _)
  | map _ positive pdtInside pdInside aligned below mapped inductionHypothesis =>
    obtain ⟨pml4t, pdpt, -, -⟩ := map4kbPageUser_tables mapped
    obtain ⟨aligned₁, below₁, -⟩ := placed.pdpt
    obtain ⟨aligned₂, below₂, -⟩ := placed.pdt pdtInside
    constructor
    · intro i other
      rw [pml4t]
      rcases update_entry with new | old
      · rw [new]
        exact .inr (entry_userFlags aligned₁ below₁).2.2.1
      · rw [old]
        exact inductionHypothesis.1 i other
    · intro i other
      rw [pdpt]
      rcases update_entry with new | old
      · rw [new]
        exact .inr (entry_userFlags aligned₂ below₂).2.2.1
      · rw [old]
        exact inductionHypothesis.2 i other

theorem kernelFlags_masked {a : Nat} (aligned : a % 2 ^ 12 = 0) (below : a < 2 ^ 52)
    {flags : BitVec 64} (isFlags : flags = kernelFlags ∨ flags = userFlags) :
    Paging.present (entry a flags) = true ∧ Paging.large (entry a flags) = false ∧
      Paging.address (entry a flags) = a ∧ (entry a flags &&& ptAddrMask).toNat = a := by
  rcases isFlags with rfl | rfl
  · obtain ⟨here, -, notLarge⟩ := entry_kernelFlags aligned below
    obtain ⟨address, masked⟩ := entry_address aligned below (by decide : kernelFlags.toNat < 2 ^ 12)
    exact ⟨here, notLarge, address, masked⟩
  · obtain ⟨here, -, -, notLarge⟩ := entry_userFlags aligned below
    obtain ⟨address, masked⟩ := entry_address aligned below (by decide : userFlags.toNat < 2 ^ 12)
    exact ⟨here, notLarge, address, masked⟩

/-- The way of a page that is present: below an entry of the highest table, it leads through the
window or through tables of pages of the process. -/
theorem present_way (placed : Placed base) (shape : Shape base pgdir) {va : Nat}
    (present : Present base kernel memory pgdir va) :
    Paging.Canonical va ∧
      (∃ flags, (flags = kernelFlags ∨ flags = userFlags) ∧
        pgdir.pml4t (pml4tIndex va) = entry (pdptPhys base) flags) ∧
      (pgdir.pdpt (pdptIndex va) = entry (pdtPhys base 0) kernelFlags ∨
        ∃ j k, j < 512 ∧ k < 512 ∧ pgdir.pdpt (pdptIndex va) = entry (pdtPhys base j) userFlags ∧
          pgdir.pdt j (pdtIndex va) = entry (pdPhys base k) userFlags ∧
          Paging.present (pgdir.pd k (ptIndex va)) = true) := by
  obtain ⟨t, walked⟩ := Option.isSome_iff_exists.mp present
  obtain ⟨canonical, walked⟩ := Paging.walk_some walked
  dsimp only at walked
  refine ⟨canonical, ?_⟩
  have root : pgdir.tableAt base (userView kernel memory) base = pgdir.pml4t := tableAt_pml4t _ _
  have second : pgdir.tableAt base (userView kernel memory) (pdptPhys base) = pgdir.pdpt :=
    tableAt_pdpt _ _
  rw [pml4tIndex_eq, pdptIndex_eq, pdtIndex_eq, ptIndex_eq]
  have here := Paging.present_of_walkFrom walked
  rw [root] at here
  -- The entries are not null where the way goes on.
  have flags : ∃ flags, (flags = kernelFlags ∨ flags = userFlags) ∧
      pgdir.pml4t (Paging.index 3 va) = entry (pdptPhys base) flags := by
    rcases shape.pml4t (Paging.index 3 va) with null | supervisor | user
    · rw [null] at here
      cases here
    · exact ⟨_, .inl rfl, supervisor⟩
    · exact ⟨_, .inr rfl, user⟩
  refine ⟨flags, ?_⟩
  obtain ⟨_, isFlags, pml4e⟩ := flags
  obtain ⟨-, notLarge₁, address₁, -⟩ := kernelFlags_masked placed.pdpt.1 placed.pdpt.2.1 isFlags
  rw [Paging.walkFrom_table (by rw [root, here]) (by rw [root, pml4e, notLarge₁]), root, pml4e,
    address₁] at walked
  obtain ⟨below, walked, -⟩ := Option.map_eq_some_iff.mp walked
  have here := Paging.present_of_walkFrom walked
  rw [second] at here
  rcases shape.pdpt (Paging.index 2 va) with null | window | ⟨j, positive, insideJ, pdpte⟩
  · rw [null] at here
    cases here
  · exact .inl window
  obtain ⟨aligned₂, below₂, -⟩ := placed.pdt insideJ
  obtain ⟨-, notLarge₂, address₂, -⟩ := kernelFlags_masked aligned₂ below₂ (.inr rfl)
  have third : pgdir.tableAt base (userView kernel memory) (pdtPhys base j) = pgdir.pdt j :=
    tableAt_pdt _ _ insideJ
  rw [Paging.walkFrom_table (by rw [second, here]) (by rw [second, pdpte, notLarge₂]), second, pdpte,
    address₂] at walked
  obtain ⟨below', walked, -⟩ := Option.map_eq_some_iff.mp walked
  have here := Paging.present_of_walkFrom walked
  rw [third] at here
  rcases shape.pdt j (Paging.index 1 va) positive with null | ⟨k, insideK, pde⟩
  · rw [null] at here
    cases here
  obtain ⟨aligned₃, below₃, -⟩ := placed.pd insideK
  obtain ⟨-, notLarge₃, address₃, -⟩ := kernelFlags_masked aligned₃ below₃ (.inr rfl)
  have last : pgdir.tableAt base (userView kernel memory) (pdPhys base k) = pgdir.pd k :=
    tableAt_pd _ _ insideK
  rw [Paging.walkFrom_table (by rw [third, here]) (by rw [third, pde, notLarge₃]), third, pde,
    address₃] at walked
  obtain ⟨below'', walked, -⟩ := Option.map_eq_some_iff.mp walked
  have here := Paging.present_of_walkFrom walked
  rw [last] at here
  exact .inr ⟨j, k, insideJ, insideK, pdpte, pde, here⟩

theorem isFrameMappedThread_directory {view : View} {va j : Nat} {flags flags' : BitVec 64}
    (placed : Placed base) (insideJ : j < 512) (isFlags : flags = kernelFlags ∨ flags = userFlags)
    (isFlags' : flags' = kernelFlags ∨ flags' = userFlags)
    (pml4e : pgdir.pml4t (pml4tIndex va) = entry (pdptPhys base) flags)
    (pdpte : pgdir.pdpt (pdptIndex va) = entry (pdtPhys base j) flags') :
    pgdir.isFrameMappedThread base view va =
      if pgdir.pdt j (pdtIndex va) &&& pageHuge ≠ 0#64 then true
      else pgdir.tableAt base view (pgdir.pdt j (pdtIndex va) &&& ptAddrMask).toNat (ptIndex va) &&&
        1#64 != 0#64 := by
  obtain ⟨aligned₁, below₁, notNull₁⟩ := placed.pdpt
  obtain ⟨aligned₂, below₂, notNull₂⟩ := placed.pdt insideJ
  have masked₁ := (kernelFlags_masked aligned₁ below₁ isFlags).2.2.2
  have masked₂ := (kernelFlags_masked aligned₂ below₂ isFlags').2.2.2
  simp only [isFrameMappedThread, pml4e, if_neg (masked_ne masked₁ notNull₁), masked₁, tableAt_pdpt,
    pdpte, if_neg (masked_ne masked₂ notNull₂), masked₂, tableAt_pdt _ _ insideJ]

theorem isFrameMappedThread_of_present (placed : Placed base) (shape : Shape base pgdir) {va : Nat}
    (present : Present base kernel memory pgdir va) :
    pgdir.isFrameMappedThread base (userView kernel memory) va = true := by
  obtain ⟨-, ⟨flags, isFlags, pml4e⟩, window | ⟨j, k, insideJ, insideK, pdpte, pde, here⟩⟩ :=
    present_way placed shape present
  · have inside : pdtIndex va < 512 := by
      rw [pdtIndex_eq]
      exact Nat.mod_lt _ (by decide)
    have huge : pgdir.pdt 0 (pdtIndex va) &&& pageHuge ≠ 0#64 := by
      rw [and_pageHuge, shape.window _ inside]
      exact (entry_windowFlags (by rw [hugePgSize]; omega) (by rw [hugePgSize]; omega)).2.2.2
    rw [isFrameMappedThread_directory placed (by decide) isFlags (.inl rfl) pml4e window,
      if_pos huge]
  · obtain ⟨aligned, below, -⟩ := placed.pd insideK
    have notHuge : ¬pgdir.pdt j (pdtIndex va) &&& pageHuge ≠ 0#64 := by
      rw [and_pageHuge, pde, (kernelFlags_masked aligned below (.inr rfl)).2.1]
      exact Bool.false_ne_true
    rw [isFrameMappedThread_directory placed insideJ isFlags (.inr rfl) pml4e pdpte, if_neg notHuge,
      pde, (kernelFlags_masked aligned below (.inr rfl)).2.2.2, tableAt_pd _ _ insideK]
    exact bne_iff_ne.mpr ((and_pagePresent _).mpr here)

theorem userMapped_iff_present (placed : Placed base) (built : Built base pgdir) (va : Nat) :
    UserMapped base kernel memory pgdir va ↔
      Present base kernel memory pgdir va ∧ ¬KernelSlot pgdir va := by
  have root : processTables base kernel memory pgdir base = pgdir.pml4t := tableAt_pml4t _ _
  have second : processTables base kernel memory pgdir (pdptPhys base) = pgdir.pdpt :=
    tableAt_pdpt _ _
  constructor
  · intro mapped
    obtain ⟨⟨-, pml4e, pdpte, -⟩, -⟩ := (userMapped_iff placed built.shape va).mp mapped
    obtain ⟨t, walked, -⟩ := mapped
    refine ⟨Option.isSome_iff_exists.mpr ⟨t, walked⟩, ?_⟩
    rw [root] at pml4e pdpte
    rintro (⟨slot, supervisor⟩ | ⟨slot, supervisor⟩)
    · rw [slot, supervisor] at pml4e
      cases pml4e
    · have user := (built.shape.pml4t_user placed (pml4tIndex va)).resolve_left
        (by rw [pml4e]; decide)
      have address := (kernelFlags_masked placed.pdpt.1 placed.pdpt.2.1 (.inr rfl)).2.2.1
      rw [user, address, second, slot, supervisor] at pdpte
      cases pdpte
  · rintro ⟨present, notSlot⟩
    obtain ⟨slots, slots'⟩ := supervisor_slots placed built
    obtain ⟨canonical, ⟨flags, isFlags, pml4e⟩, way⟩ := present_way placed built.shape present
    have address := (kernelFlags_masked placed.pdpt.1 placed.pdpt.2.1 isFlags).2.2.1
    have pml4User : Paging.user (pgdir.pml4t (pml4tIndex va)) = true := by
      by_cases last : pml4tIndex va = 511
      · rw [last]
        exact Bool.eq_true_of_not_eq_false fun supervisor => notSlot (.inl ⟨last, supervisor⟩)
      · refine (slots _ last).resolve_left fun null => ?_
        have here := (kernelFlags_masked placed.pdpt.1 placed.pdpt.2.1 isFlags).1
        rw [← pml4e, null] at here
        cases here
    have pdptUser : Paging.user (pgdir.pdpt (pdptIndex va)) = true := by
      by_cases window : pdptIndex va = 510
      · rw [window]
        exact Bool.eq_true_of_not_eq_false fun supervisor => notSlot (.inr ⟨window, supervisor⟩)
      · refine (slots' _ window).resolve_left fun null => ?_
        rcases way with isWindow | ⟨j, -, insideJ, -, pdpte, -⟩
        · obtain ⟨aligned, below, -⟩ := placed.pdt (i := 0) (by decide)
          have here := (kernelFlags_masked aligned below (.inl rfl)).1
          rw [← isWindow, null] at here
          cases here
        · obtain ⟨aligned, below, -⟩ := placed.pdt insideJ
          have here := (kernelFlags_masked aligned below (.inr rfl)).1
          rw [← pdpte, null] at here
          cases here
    refine (userMapped_iff placed built.shape va).mpr
      ⟨?_, isFrameMappedThread_of_present placed built.shape present⟩
    rw [UpperUser, root, pml4e, address, second]
    rw [pml4e] at pml4User
    refine ⟨canonical, pml4User, pdptUser, ?_⟩
    rcases way with isWindow | ⟨j, k, insideJ, insideK, pdpte, pde, -⟩
    · obtain ⟨aligned, below, -⟩ := placed.pdt (i := 0) (by decide)
      rw [isWindow, (entry_kernelFlags aligned below).2.1] at pdptUser
      cases pdptUser
    · obtain ⟨aligned, below, -⟩ := placed.pdt insideJ
      obtain ⟨aligned', below', -⟩ := placed.pd insideK
      have third : processTables base kernel memory pgdir (pdtPhys base j) = pgdir.pdt j :=
        tableAt_pdt _ _ insideJ
      rw [pdpte, (kernelFlags_masked aligned below (.inr rfl)).2.2.1, third, pde]
      exact (entry_userFlags aligned' below').2.2.1

theorem present_congr {va va' : Nat} (same : va / pgSize = va' / pgSize) :
    Present base kernel memory pgdir va ↔ Present base kernel memory pgdir va' := by
  have users := @Paging.walk_congr (processTables base kernel memory pgdir) va va' same base
  have both := congrArg Option.isSome users
  rw [Option.isSome_map, Option.isSome_map] at both
  exact Bool.eq_iff_iff.mp both

theorem tested_iff (addr size : Nat) :
    pgdir.fetchStruct base (userView kernel memory) addr size = true ↔
      pgdir.isFrameMappedThread base (userView kernel memory) addr = true ∧
        pgdir.isFrameMappedThread base (userView kernel memory) ((addr + size - 1) % 2 ^ 64) =
          true ∧ kernel.isFrameMappedKernel memory addr = false := by
  rw [fetchStruct, Bool.and_eq_true, Bool.and_eq_true, Bool.not_eq_true', and_assoc]
  rfl

theorem returns_struct (placed : Placed base) (shape : Shape base pgdir) {addr size : Nat}
    (below : addr < 2 ^ 64) (positive : 1 ≤ size) :
    (pgdir.fetchStruct base (userView kernel memory) addr size = true ∧
        ∀ k < size, Present base kernel memory pgdir ((addr + k) % 2 ^ 64)) ↔
      (∀ k < size, Present base kernel memory pgdir ((addr + k) % 2 ^ 64)) ∧
        kernel.isFrameMappedKernel memory addr = false := by
  rw [tested_iff]
  constructor
  · rintro ⟨⟨-, -, notKernel⟩, present⟩
    exact ⟨present, notKernel⟩
  · rintro ⟨present, notKernel⟩
    have first := present 0 positive
    have last := present (size - 1) (by omega)
    rw [Nat.add_zero, Nat.mod_eq_of_lt below] at first
    rw [← Nat.add_sub_assoc positive] at last
    exact ⟨⟨isFrameMappedThread_of_present placed shape first,
      isFrameMappedThread_of_present placed shape last, notKernel⟩, present⟩

theorem returns_string (placed : Placed base) (shape : Shape base pgdir) {ram : Bytes}
    {addr size : Nat} (below : addr < 2 ^ 64) (positive : 1 ≤ size) :
    (pgdir.fetchStruct base (userView kernel memory) addr size = true ∧
        ∀ k ∈ LoadedTables.stringOffsets (userView kernel memory) ⟨base, pgdir⟩ addr ram size 0,
          Present base kernel memory pgdir ((addr + k) % 2 ^ 64)) ↔
      (∀ k ∈ LoadedTables.stringOffsets (userView kernel memory) ⟨base, pgdir⟩ addr ram size 0,
          Present base kernel memory pgdir ((addr + k) % 2 ^ 64)) ∧
        pgdir.isFrameMappedThread base (userView kernel memory) ((addr + size - 1) % 2 ^ 64) =
          true ∧ kernel.isFrameMappedKernel memory addr = false := by
  rw [tested_iff]
  constructor
  · rintro ⟨⟨-, last, notKernel⟩, present⟩
    exact ⟨present, last, notKernel⟩
  · rintro ⟨present, last, notKernel⟩
    have first := present 0 (LoadedTables.stringOffsets_first positive)
    rw [Nat.add_zero, Nat.mod_eq_of_lt below] at first
    exact ⟨⟨isFrameMappedThread_of_present placed shape first, last, notKernel⟩, present⟩

theorem rangeSafe_iff (placed : Placed base) (built : Built base pgdir)
    (linked : kernel.Linked memory) {addr size : Nat}
    (notKernel : kernel.isFrameMappedKernel memory addr = false) :
    RangeSafe base kernel memory pgdir addr size ↔
      Harmless kernel memory pgdir addr size ∧
        ∀ k < size, Present base kernel memory pgdir (addr + k) := by
  constructor
  · rintro ⟨noWrap, safe⟩
    have pages := fun k inside => (userMapped_iff_present placed built (addr + k)).mp (safe k inside).1
    exact ⟨⟨noWrap, fun k inside => (pages k inside).2, fun k inside _ => (safe k inside).2⟩,
      fun k inside => (pages k inside).1⟩
  · rintro ⟨harmless, present⟩
    refine ⟨harmless.noWrap, fun k inside => ⟨?_, ?_⟩⟩
    · exact (userMapped_iff_present placed built _).mpr ⟨present k inside, harmless.slots k inside⟩
    · by_cases first : (addr + k) / pgSize = addr / pgSize
      · rw [kernelMapped_congr first]
        exact fun mapped => Bool.noConfusion (notKernel.symm.trans (linked.isFrameMappedKernel mapped))
      · exact harmless.kernel k inside first

/-- A call that succeeds touches user memory of its process only, if and only if what is not
tested is in order. -/
theorem userAccess_safe_iff (placed : Placed base) (built : Built base pgdir)
    (linked : kernel.Linked memory) (call : UserAccess) (ram buf : Bytes) {addr size : Nat}
    (below : addr < 2 ^ 64) (positive : 1 ≤ size) :
    (call.Returns base kernel memory pgdir ram buf addr size →
        RangeSafe base kernel memory pgdir addr size) ↔
      call.Covered base kernel memory pgdir ram addr size := by
  -- In a range that does not wrap, the bytes are where the copy looks for them.
  have plain : Harmless kernel memory pgdir addr size →
      (∀ k < size, Present base kernel memory pgdir ((addr + k) % 2 ^ 64)) →
      ∀ k < size, Present base kernel memory pgdir (addr + k) := by
    intro harmless present k inside
    have noWrap := harmless.noWrap
    have here := present k inside
    rwa [Nat.mod_eq_of_lt (by omega)] at here
  have struct : ((pgdir.fetchStruct base (userView kernel memory) addr size = true ∧
        ∀ k < size, Present base kernel memory pgdir ((addr + k) % 2 ^ 64)) →
          RangeSafe base kernel memory pgdir addr size) ↔
      ((∀ k < size, Present base kernel memory pgdir ((addr + k) % 2 ^ 64)) →
        kernel.isFrameMappedKernel memory addr = false →
          Harmless kernel memory pgdir addr size) := by
    rw [returns_struct placed built.shape below positive, and_imp]
    refine forall_congr' fun present => forall_congr' fun notKernel => ?_
    rw [rangeSafe_iff placed built linked notKernel]
    exact and_iff_left_of_imp fun harmless => plain harmless present
  cases call with
  | fetchStruct =>
    rw [UserAccess.Returns, LoadedTables.fetchStruct_returns]
    exact struct
  | writeStruct =>
    rw [UserAccess.Returns, LoadedTables.writeStruct_returns]
    exact struct
  | fetchString =>
    rw [UserAccess.Returns, LoadedTables.fetchString_returns]
    have tests := @returns_string base kernel memory pgdir placed built.shape ram addr size below
      positive
    refine (imp_congr_left tests).trans ?_
    rw [and_imp, and_imp, UserAccess.Covered]
    refine forall_congr' fun _ => forall_congr' fun _ => forall_congr' fun notKernel => ?_
    exact rangeSafe_iff placed built linked notKernel

def windowKernel : KernelTables where
  pml4t := 0x600000
  pdpt := 0x601000
  pdt := fun type => 0x602000 + 0x1000 * type.ctorIdx
  bootPdt := 0x609000
  smpPdt := 0x60a000
  pt := fun i => 0x60c000 + 0x1000 * i
  smpPt := 0x60b000

def windowMemory : Paging.Tables := fun table i =>
  if table = 0x600000 then if i = 511 then entry 0x601000 kernelFlags else 0#64
  else if table = 0x601000 then if i = 510 then entry 0x602000 kernelFlags else 0#64
  else if table = 0x602000 then entry (i * hugePgSize) windowFlags
  else 0#64

theorem windowMemory_linked : windowKernel.Linked windowMemory where
  pml4t := by
    intro i here
    by_cases last : i = 511
    · subst last
      decide +kernel
    · have null : windowMemory windowKernel.pml4t i = 0#64 := if_neg last
      rw [null] at here
      cases here
  pdpt := by
    intro i here
    by_cases window : i = 510
    · subst window
      exact ⟨by decide +kernel, .inr (.inr ⟨.kernelBinary, rfl⟩), by decide +kernel,
        by decide +kernel⟩
    · have null : windowMemory windowKernel.pdpt i = 0#64 := if_neg window
      rw [null] at here
      cases here
  pdt := by
    intro table directory i here
    left
    have first : table = 0x602000 := by
      apply Classical.byContradiction
      intro other
      have notAbove : table ≠ 0x600000 ∧ table ≠ 0x601000 := by
        rcases directory with rfl | rfl | ⟨type, rfl⟩
        · decide
        · decide
        · cases type <;> decide
      have null : windowMemory table i = 0#64 :=
        (if_neg notAbove.1).trans ((if_neg notAbove.2).trans (if_neg other))
      rw [null] at here
      cases here
    subst first
    have flag : (entry (i * hugePgSize) windowFlags).getLsbD 7 = true := by
      rw [entry, BitVec.getLsbD_or]
      exact Bool.or_eq_true_iff.mpr (.inr (by decide))
    exact flag

/-- The tables of the kernel after `apic_setup` has mapped the local APIC. -/
def apicMemory : Paging.Tables :=
  KernelTables.deviceKernel.mapKernelPage windowMemory 0xFEE00000 0xFEE00000 .dmIo

theorem apicMemory_linked : KernelTables.deviceKernel.Linked apicMemory := by
  have window : KernelTables.deviceKernel.Linked windowMemory :=
    ⟨windowMemory_linked.pml4t, windowMemory_linked.pdpt, windowMemory_linked.pdt⟩
  exact window.mapKernelPage KernelTables.deviceKernel_apart (by decide) (by decide)

def twoPages : Outcome ThreadPagetables := do
  let pgdir ← (create 0x100000).map4kbPageUser 0x100000 0x400000 0x700000 1 0
  pgdir.map4kbPageUser 0x100000 0x402000 0x701000 1 0

theorem twoPages_placed : Placed 0x100000 := by
  constructor <;> decide

theorem twoPages_built {pgdir : ThreadPagetables} (done : twoPages = .ok pgdir) :
    Built 0x100000 pgdir := by
  obtain ⟨first, mapped, mapped'⟩ := Outcome.bind_ok.mp done
  apply Built.map (.map .create _ _ _ _ _ mapped) _ _ _ _ _ mapped'
  all_goals decide

def threePages : Outcome ThreadPagetables := do
  let pgdir ← twoPages
  pgdir.map4kbPageUser 0x100000 0x8000404000 0x702000 1 0

theorem threePages_built {pgdir : ThreadPagetables} (done : threePages = .ok pgdir) :
    Built 0x100000 pgdir := by
  obtain ⟨first, two, mapped⟩ := Outcome.bind_ok.mp done
  apply Built.map (twoPages_built two) _ _ _ _ _ mapped
  all_goals decide

theorem userAccess_safe_iff_onePage : ∃ pgdir, threePages = .ok pgdir ∧
    (∀ ram buf, UserAccess.fetchStruct.Returns 0x100000 .deviceKernel apicMemory pgdir ram buf
      0x400010 0x20) ∧
    RangeSafe 0x100000 .deviceKernel apicMemory pgdir 0x400010 0x20 := by
  obtain ⟨pgdir, done, passed⟩ := Outcome.of_test (by decide +kernel :
    threePages.test (fun pgdir => decide
      (Present 0x100000 .deviceKernel apicMemory pgdir 0x400010 ∧
        KernelTables.deviceKernel.isFrameMappedKernel apicMemory 0x400010 = false)) = true)
  obtain ⟨present, notKernel⟩ := of_decide_eq_true passed
  have onPage : ∀ k < 0x20, (0x400010 + k) / pgSize = 0x400010 / pgSize := by
    intro k inside
    rw [pgSize]
    omega
  have all : ∀ k < 0x20,
      Present 0x100000 .deviceKernel apicMemory pgdir ((0x400010 + k) % 2 ^ 64) := by
    intro k inside
    rw [Nat.mod_eq_of_lt (by omega)]
    exact (present_congr (onPage k inside)).mpr present
  have returns : ∀ ram buf, UserAccess.fetchStruct.Returns 0x100000 .deviceKernel apicMemory pgdir
      ram buf 0x400010 0x20 := by
    intro ram buf
    exact (LoadedTables.fetchStruct_returns buf).mpr
      ((returns_struct twoPages_placed (threePages_built done).shape (by decide)
        (by decide)).mpr ⟨all, notKernel⟩)
  refine ⟨pgdir, done, returns, (userAccess_safe_iff twoPages_placed (threePages_built done)
    apicMemory_linked .fetchStruct (fun _ => 0) (fun _ => 0) (by decide) (by decide)).mpr ?_
      (returns _ _)⟩
  intro _ _
  refine ⟨by decide, ?_, fun k inside other => absurd (onPage k inside) other⟩
  rintro k inside (⟨slot, -⟩ | ⟨slot, -⟩)
  · rw [pml4tIndex_eq, Paging.index, Paging.span] at slot
    omega
  · rw [pdptIndex_eq, Paging.index, Paging.span] at slot
    omega

/-- Behind the second entry of the highest table, too, lies the kernel's window: a process reads
the kernel at 510 GB above it.  And a string may end before a hole in the range of its buffer. -/
theorem window_readable : ∃ pgdir, Built 0x100000 pgdir ∧
    KernelTables.deviceKernel.Linked apicMemory ∧
    (∀ ram buf, UserAccess.fetchStruct.Returns 0x100000 .deviceKernel apicMemory pgdir ram buf
        0xff80000000 1 ∧
      ¬RangeSafe 0x100000 .deviceKernel apicMemory pgdir 0xff80000000 1) ∧
    ∀ buf, UserAccess.fetchString.Returns 0x100000 .deviceKernel apicMemory pgdir (fun _ => 0) buf
        0x400ff0 0x1020 ∧
      ¬RangeSafe 0x100000 .deviceKernel apicMemory pgdir 0x400ff0 0x1020 := by
  obtain ⟨pgdir, done, passed⟩ := Outcome.of_test (by decide +kernel :
    threePages.test (fun pgdir => decide
      ((Present 0x100000 .deviceKernel apicMemory pgdir 0xff80000000 ∧
        KernelTables.deviceKernel.isFrameMappedKernel apicMemory 0xff80000000 = false ∧
        KernelSlot pgdir 0xff80000000) ∧
      Present 0x100000 .deviceKernel apicMemory pgdir 0x400ff0 ∧
      KernelTables.deviceKernel.isFrameMappedKernel apicMemory 0x400ff0 = false ∧
      pgdir.isFrameMappedThread 0x100000 (userView .deviceKernel apicMemory) 0x40200f = true ∧
      ¬Present 0x100000 .deviceKernel apicMemory pgdir 0x401000)) = true)
  obtain ⟨⟨window, unknown, slot⟩, start, notKernel, last, hole⟩ := of_decide_eq_true passed
  have built := threePages_built done
  have page : ∀ va, UserMapped 0x100000 .deviceKernel apicMemory pgdir va ↔ _ :=
    userMapped_iff_present twoPages_placed built
  refine ⟨pgdir, built, apicMemory_linked, fun ram buf => ⟨?_, ?_⟩, fun buf => ⟨?_, ?_⟩⟩
  · refine (LoadedTables.fetchStruct_returns buf).mpr
      ((returns_struct twoPages_placed built.shape (by decide) (by decide)).mpr ⟨?_, unknown⟩)
    intro k inside
    obtain rfl := Nat.lt_one_iff.mp inside
    exact window
  · rintro ⟨-, safe⟩
    exact ((page _).mp (safe 0 (by decide)).1).2 slot
  · refine (LoadedTables.fetchString_returns buf).mpr
      ((returns_string twoPages_placed built.shape (by decide) (by decide)).mpr ⟨?_, last, notKernel⟩)
    -- The string ends with its first byte.
    obtain ⟨t, found⟩ := LoadedTables.present_iff.mp start
    intro k member
    rw [LoadedTables.stringOffsets, show (0x400ff0 + 0) % 2 ^ 64 = 0x400ff0 from rfl, found] at member
    obtain rfl := List.mem_singleton.mp member
    exact start
  · rintro ⟨-, safe⟩
    exact hole ((page _).mp (safe 0x10 (by decide)).1).1

end SwagOS.Kernel
