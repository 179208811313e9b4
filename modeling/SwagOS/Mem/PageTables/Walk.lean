import Mathlib.Data.Nat.Bitwise
import SwagOS.Lib.Paging
import SwagOS.Mem.PageTables

/-!
# The tables as the processor walks them

What the entries of the tables of a process can be: nothing, or a pointer to the next table
with the flags of a user page, or the kernel's window of large pages.
-/

namespace SwagOS.Mem

open SwagOS.Lib

namespace ThreadPagetables

def kernelFlags : BitVec 64 := pagePresent ||| pageWrite

def windowFlags : BitVec 64 := pageHuge ||| pagePresent ||| pageWrite

theorem and_ptAddrMask (e : BitVec 64) : (e &&& ptAddrMask).toNat = e.toNat / 2 ^ 12 * 2 ^ 12 := by
  have masked : e &&& ptAddrMask = e >>> 12 <<< 12 := by
    rw [ptAddrMask, BitVec.shiftLeft_ushiftRight]
  have bound := e.isLt
  rw [masked, BitVec.toNat_shiftLeft, BitVec.toNat_ushiftRight, Nat.shiftLeft_eq,
    Nat.shiftRight_eq_div_pow]
  omega

/-- An entry is the sum of its address and its flags. -/
theorem entry_toNat {a : Nat} {flags : BitVec 64} (aligned : a % 2 ^ 12 = 0) (below : a < 2 ^ 52)
    (low : flags.toNat < 2 ^ 12) : (entry a flags).toNat = 2 ^ 12 * (a / 2 ^ 12) + flags.toNat := by
  have exact_ : a = 2 ^ 12 * (a / 2 ^ 12) := by omega
  rw [Nat.two_pow_add_eq_or_of_lt low, entry, BitVec.toNat_or, BitVec.toNat_ofNat, ← exact_]
  rw [Nat.mod_eq_of_lt (by omega)]

theorem entry_flag_eq {a i : Nat} {flags : BitVec 64} (aligned : a % 2 ^ 12 = 0)
    (below : a < 2 ^ 52) (low : flags.toNat < 2 ^ 12) (isFlag : i < 12) :
    (entry a flags).getLsbD i = flags.getLsbD i := by
  rw [BitVec.getLsbD, BitVec.getLsbD, entry_toNat aligned below low,
    Nat.testBit_two_pow_mul_add _ low, if_pos isFlag]

theorem entry_address {a : Nat} {flags : BitVec 64} (aligned : a % 2 ^ 12 = 0) (below : a < 2 ^ 52)
    (low : flags.toNat < 2 ^ 12) :
    Paging.address (entry a flags) = a ∧ (entry a flags &&& ptAddrMask).toNat = a := by
  rw [and_ptAddrMask, Paging.address, entry_toNat aligned below low]
  omega

theorem masked_ne {e : BitVec 64} {a : Nat} (masked : (e &&& ptAddrMask).toNat = a)
    (notNull : a ≠ 0) : e &&& ptAddrMask ≠ 0#64 := by
  intro zero
  rw [zero] at masked
  exact notNull masked.symm

/-- What the processor reads from an entry with the flags of a user page. -/
theorem entry_userFlags {a : Nat} (aligned : a % 2 ^ 12 = 0) (below : a < 2 ^ 52) :
    Paging.present (entry a userFlags) = true ∧ Paging.writable (entry a userFlags) = true ∧
      Paging.user (entry a userFlags) = true ∧ Paging.large (entry a userFlags) = false := by
  have flag := fun i (isFlag : i < 12) =>
    entry_flag_eq (i := i) aligned below (by decide : userFlags.toNat < 2 ^ 12) isFlag
  rw [Paging.present, Paging.writable, Paging.user, Paging.large, flag 0 (by decide),
    flag 1 (by decide), flag 2 (by decide), flag 7 (by decide)]
  decide

theorem entry_kernelFlags {a : Nat} (aligned : a % 2 ^ 12 = 0) (below : a < 2 ^ 52) :
    Paging.present (entry a kernelFlags) = true ∧ Paging.user (entry a kernelFlags) = false ∧
      Paging.large (entry a kernelFlags) = false := by
  have flag := fun i (isFlag : i < 12) =>
    entry_flag_eq (i := i) aligned below (by decide : kernelFlags.toNat < 2 ^ 12) isFlag
  rw [Paging.present, Paging.user, Paging.large, flag 0 (by decide), flag 2 (by decide),
    flag 7 (by decide)]
  decide

theorem entry_windowFlags {a : Nat} (aligned : a % 2 ^ 12 = 0) (below : a < 2 ^ 52) :
    Paging.present (entry a windowFlags) = true ∧ Paging.writable (entry a windowFlags) = true ∧
      Paging.user (entry a windowFlags) = false ∧ Paging.large (entry a windowFlags) = true := by
  have flag := fun i (isFlag : i < 12) =>
    entry_flag_eq (i := i) aligned below (by decide : windowFlags.toNat < 2 ^ 12) isFlag
  rw [Paging.present, Paging.writable, Paging.user, Paging.large, flag 0 (by decide),
    flag 1 (by decide), flag 2 (by decide), flag 7 (by decide)]
  decide

theorem and_pagePresent (e : BitVec 64) :
    e &&& 1#64 ≠ 0#64 ↔ Paging.present e = true := by
  have bit : (1#64 : BitVec 64) = BitVec.twoPow 64 0 := rfl
  rw [bit, BitVec.and_twoPow, Paging.present]
  split
  next set => exact iff_of_true (by decide) set
  next clear => exact iff_of_false (not_not_intro rfl) clear

theorem and_pageHuge (e : BitVec 64) : e &&& pageHuge ≠ 0#64 ↔ Paging.large e = true := by
  have bit : pageHuge = BitVec.twoPow 64 7 := rfl
  rw [bit, BitVec.and_twoPow, Paging.large]
  split
  next set => exact iff_of_true (by decide) set
  next clear => exact iff_of_false (not_not_intro rfl) clear

theorem pml4tIndex_eq (va : Nat) : pml4tIndex va = Paging.index 3 va := by
  rw [pml4tIndex, Nat.shiftRight_eq_div_pow]
  exact Nat.and_two_pow_sub_one_eq_mod _ 9

theorem pdptIndex_eq (va : Nat) : pdptIndex va = Paging.index 2 va := by
  rw [pdptIndex, Nat.shiftRight_eq_div_pow]
  exact Nat.and_two_pow_sub_one_eq_mod _ 9

theorem pdtIndex_eq (va : Nat) : pdtIndex va = Paging.index 1 va := by
  rw [pdtIndex, Nat.shiftRight_eq_div_pow]
  exact Nat.and_two_pow_sub_one_eq_mod _ 9

theorem ptIndex_eq (va : Nat) : ptIndex va = Paging.index 0 va := by
  rw [ptIndex, Nat.shiftRight_eq_div_pow]
  exact Nat.and_two_pow_sub_one_eq_mod _ 9

/-- The tables of a process lie on pages of the kernel's image, in the first gigabyte. -/
structure Placed (base : Nat) : Prop where
  aligned : base % 2 ^ 12 = 0
  positive : 0 < base
  low : base + 0x402000 ≤ 2 ^ 30

section TableAt

variable {base : Nat} (view : View) (pgdir : ThreadPagetables)

theorem tableAt_pml4t : pgdir.tableAt base view base = pgdir.pml4t := if_pos rfl

theorem tableAt_pdpt : pgdir.tableAt base view (pdptPhys base) = pgdir.pdpt := by
  rw [tableAt, if_neg (by rw [pdptPhys]; omega), if_pos rfl]

theorem tableAt_pdt {i : Nat} (inside : i < 512) :
    pgdir.tableAt base view (pdtPhys base i) = pgdir.pdt i := by
  have here : pdtPhys base 0 ≤ pdtPhys base i ∧ pdtPhys base i < pdPhys base 0 := by
    simp only [pdtPhys, pdPhys]
    omega
  have number : (pdtPhys base i - pdtPhys base 0) / 0x1000 = i := by
    simp only [pdtPhys]
    omega
  rw [tableAt, if_neg (by rw [pdtPhys]; omega), if_neg (by rw [pdtPhys, pdptPhys]; omega),
    if_pos here, number]

theorem tableAt_pd {i : Nat} (inside : i < 512) :
    pgdir.tableAt base view (pdPhys base i) = pgdir.pd i := by
  have before : ¬(pdtPhys base 0 ≤ pdPhys base i ∧ pdPhys base i < pdPhys base 0) := by
    simp only [pdtPhys, pdPhys]
    omega
  have here : pdPhys base 0 ≤ pdPhys base i ∧ pdPhys base i < pdPhys base 512 := by
    simp only [pdPhys]
    omega
  have number : (pdPhys base i - pdPhys base 0) / 0x1000 = i := by
    simp only [pdPhys]
    omega
  rw [tableAt, if_neg (by rw [pdPhys]; omega), if_neg (by rw [pdPhys, pdptPhys]; omega),
    if_neg before, if_pos here, number]

end TableAt

namespace Placed

variable {base : Nat} (placed : Placed base)
include placed

theorem pdpt : pdptPhys base % 2 ^ 12 = 0 ∧ pdptPhys base < 2 ^ 52 ∧ pdptPhys base ≠ 0 := by
  have aligned := placed.aligned
  have low := placed.low
  rw [pdptPhys]
  omega

theorem pdt {i : Nat} (inside : i < 512) :
    pdtPhys base i % 2 ^ 12 = 0 ∧ pdtPhys base i < 2 ^ 52 ∧ pdtPhys base i ≠ 0 := by
  have aligned := placed.aligned
  have low := placed.low
  rw [pdtPhys]
  omega

theorem pd {i : Nat} (inside : i < 512) :
    pdPhys base i % 2 ^ 12 = 0 ∧ pdPhys base i < 2 ^ 52 ∧ pdPhys base i ≠ 0 := by
  have aligned := placed.aligned
  have low := placed.low
  rw [pdPhys]
  omega

end Placed

/-- The kernel's test below entries for user code reads the present bit of the last one. -/
theorem isFrameMappedThread_eq {base va j k : Nat} {view : View} {pgdir : ThreadPagetables}
    (placed : Placed base) (insideJ : j < 512) (insideK : k < 512)
    (pml4e : pgdir.pml4t (pml4tIndex va) = entry (pdptPhys base) userFlags)
    (pdpte : pgdir.pdpt (pdptIndex va) = entry (pdtPhys base j) userFlags)
    (pde : pgdir.pdt j (pdtIndex va) = entry (pdPhys base k) userFlags) :
    pgdir.isFrameMappedThread base view va = Paging.present (pgdir.pd k (ptIndex va)) := by
  have low : userFlags.toNat < 2 ^ 12 := by decide
  obtain ⟨aligned₁, below₁, notNull₁⟩ := placed.pdpt
  obtain ⟨aligned₂, below₂, notNull₂⟩ := placed.pdt insideJ
  obtain ⟨aligned₃, below₃, -⟩ := placed.pd insideK
  have masked₁ := (entry_address aligned₁ below₁ low).2
  have masked₂ := (entry_address aligned₂ below₂ low).2
  have masked₃ := (entry_address aligned₃ below₃ low).2
  have notLarge : ¬entry (pdPhys base k) userFlags &&& pageHuge ≠ 0#64 := by
    rw [and_pageHuge, (entry_userFlags aligned₃ below₃).2.2.2]
    decide
  simp only [isFrameMappedThread, pml4e, if_neg (masked_ne masked₁ notNull₁), masked₁,
    tableAt_pdpt, pdpte, if_neg (masked_ne masked₂ notNull₂), masked₂, tableAt_pdt _ _ insideJ, pde,
    if_neg notLarge, masked₃, tableAt_pd _ _ insideK]
  apply Bool.eq_iff_iff.mpr
  rw [bne_iff_ne, and_pagePresent]

/-- The tables of a process: fresh ones, to which user pages were added. -/
inductive Built (base : Nat) : ThreadPagetables → Prop where
  | create : Built base (create base)
  | map {pgdir next : ThreadPagetables} {va pa pdtTableIndex pdTableIndex : Nat} :
      Built base pgdir → 0 < pdtTableIndex → pdtTableIndex < 512 → pdTableIndex < 512 →
      pa % pgSize = 0 → pa < 2 ^ 52 →
      pgdir.map4kbPageUser base va pa pdtTableIndex pdTableIndex = .ok next → Built base next

structure Shape (base : Nat) (pgdir : ThreadPagetables) : Prop where
  pml4t : ∀ i, pgdir.pml4t i = 0#64 ∨ pgdir.pml4t i = entry (pdptPhys base) kernelFlags ∨
    pgdir.pml4t i = entry (pdptPhys base) userFlags
  pdpt : ∀ i, pgdir.pdpt i = 0#64 ∨ pgdir.pdpt i = entry (pdtPhys base 0) kernelFlags ∨
    ∃ j, 0 < j ∧ j < 512 ∧ pgdir.pdpt i = entry (pdtPhys base j) userFlags
  window : ∀ i < 512, pgdir.pdt 0 i = entry (i * hugePgSize) windowFlags
  pdt : ∀ j i, 0 < j → pgdir.pdt j i = 0#64 ∨
    ∃ k < 512, pgdir.pdt j i = entry (pdPhys base k) userFlags
  pd : ∀ k i, pgdir.pd k i = 0#64 ∨
    ∃ frame, frame % pgSize = 0 ∧ frame < 2 ^ 52 ∧ pgdir.pd k i = entry frame userFlags

theorem shape_create (base : Nat) : Shape base (create base) where
  pml4t := by
    intro i
    rw [create, uvaCopyKernel]
    by_cases last : i = 511
    · simp only [last, Function.update_self]
      exact .inr (.inl rfl)
    · simp only [Function.update_of_ne last]
      exact .inl rfl
  pdpt := by
    intro i
    rw [create, uvaCopyKernel]
    by_cases window : i = 510
    · simp only [window, Function.update_self]
      exact .inr (.inl rfl)
    · simp only [Function.update_of_ne window]
      exact .inl rfl
  window := by
    intro i inside
    rw [create, uvaCopyKernel]
    simp only [Function.update_self, if_pos inside]
    rfl
  pdt := by
    intro j i user
    rw [create, uvaCopyKernel]
    have other : j ≠ 0 := by omega
    simp only [Function.update_of_ne other]
    exact .inl rfl
  pd := fun k i => .inl rfl

theorem map4kbPageUser_tables {base va pa pdtTableIndex pdTableIndex : Nat}
    {pgdir next : ThreadPagetables}
    (mapped : pgdir.map4kbPageUser base va pa pdtTableIndex pdTableIndex = .ok next) :
    next.pml4t = Function.update pgdir.pml4t (pml4tIndex va) (entry (pdptPhys base) userFlags) ∧
      next.pdpt = Function.update pgdir.pdpt (pdptIndex va)
        (entry (pdtPhys base pdtTableIndex) userFlags) ∧
      next.pdt = Function.update pgdir.pdt pdtTableIndex
        (Function.update (pgdir.pdt pdtTableIndex) (pdtIndex va)
          (entry (pdPhys base pdTableIndex) userFlags)) ∧
      next.pd = Function.update pgdir.pd pdTableIndex
        (Function.update (pgdir.pd pdTableIndex) (ptIndex va) (entry pa userFlags)) := by
  rw [map4kbPageUser] at mapped
  simp only at mapped
  split at mapped
  · cases mapped
  · split at mapped
    · cases mapped
    · cases mapped
      exact ⟨rfl, rfl, rfl, rfl⟩

theorem update_entry {f : Nat → BitVec 64} {i j : Nat} {e : BitVec 64} :
    Function.update f i e j = e ∨ Function.update f i e j = f j := by
  by_cases same : j = i
  · subst same
    exact .inl (Function.update_self _ _ _)
  · exact .inr (Function.update_of_ne same _ _)

theorem update_entry₂ {f : Nat → Nat → BitVec 64} {a i b j : Nat} {e : BitVec 64} :
    Function.update f a (Function.update (f a) i e) b j = e ∨
      Function.update f a (Function.update (f a) i e) b j = f b j := by
  by_cases same : b = a
  · subst same
    rw [Function.update_self]
    exact update_entry
  · exact .inr (congrFun (Function.update_of_ne same _ _) j)

theorem Built.shape {base : Nat} {pgdir : ThreadPagetables} (built : Built base pgdir) :
    Shape base pgdir := by
  induction built with
  | create => exact shape_create base
  | @map pgdir next va pa pdtTableIndex pdTableIndex _ positive pdtInside pdInside aligned below
      mapped shape =>
    obtain ⟨pml4t, pdpt, pdt, pd⟩ := map4kbPageUser_tables mapped
    constructor
    case pml4t =>
      intro i
      rw [pml4t]
      rcases update_entry with new | old
      · exact .inr (.inr new)
      · rw [old]
        exact shape.pml4t i
    case pdpt =>
      intro i
      rw [pdpt]
      rcases update_entry with new | old
      · exact .inr (.inr ⟨_, positive, pdtInside, new⟩)
      · rw [old]
        exact shape.pdpt i
    case window =>
      intro i inside
      rw [pdt, Function.update_of_ne (by omega)]
      exact shape.window i inside
    case pdt =>
      intro j i user
      rw [pdt]
      rcases update_entry₂ with new | old
      · exact .inr ⟨_, pdInside, new⟩
      · rw [old]
        exact shape.pdt j i user
    case pd =>
      intro k i
      rw [pd]
      rcases update_entry₂ with new | old
      · exact .inr ⟨_, aligned, below, new⟩
      · rw [old]
        exact shape.pd k i

namespace Shape

variable {base : Nat} {pgdir : ThreadPagetables} (placed : Placed base) (shape : Shape base pgdir)
include shape

include placed in
/-- An entry for user code points to the one table below it. -/
theorem pml4t_user (i : Nat) : Paging.user (pgdir.pml4t i) = false ∨
    pgdir.pml4t i = entry (pdptPhys base) userFlags := by
  rcases shape.pml4t i with null | supervisor | isUser
  · rw [null]
    exact .inl rfl
  · rw [supervisor]
    exact .inl (entry_kernelFlags placed.pdpt.1 placed.pdpt.2.1).2.1
  · exact .inr isUser

include placed in
theorem pdpt_user (i : Nat) : Paging.user (pgdir.pdpt i) = false ∨
    ∃ j, 0 < j ∧ j < 512 ∧ pgdir.pdpt i = entry (pdtPhys base j) userFlags := by
  rcases shape.pdpt i with null | supervisor | isUser
  · rw [null]
    exact .inl rfl
  · obtain ⟨aligned, below, -⟩ := placed.pdt (i := 0) (by decide)
    rw [supervisor]
    exact .inl (entry_kernelFlags aligned below).2.1
  · exact .inr isUser

theorem pdt_user {j : Nat} (positive : 0 < j) (i : Nat) : Paging.user (pgdir.pdt j i) = false ∨
    ∃ k < 512, pgdir.pdt j i = entry (pdPhys base k) userFlags := by
  rcases shape.pdt j i positive with null | isUser
  · rw [null]
    exact .inl rfl
  · exact .inr isUser

theorem pd_user (k i : Nat) : Paging.present (pgdir.pd k i) = Paging.user (pgdir.pd k i) := by
  rcases shape.pd k i with null | ⟨frame, aligned, below, isUser⟩
  · rw [null]
    rfl
  · obtain ⟨here, -, user, -⟩ := entry_userFlags aligned below
    rw [isUser, here, user]

end Shape

end ThreadPagetables

end SwagOS.Mem
