import SwagOS.Mem.KernelPageTables
import SwagOS.Mem.PageTables.Places

/-!
# Pages mapped for a transfer

`map_4kb_page_smp` writes one entry at each level, so that whatever the tables held before,
the page is translated to its frame afterwards, by the processor and by
`virtual_to_physical`.
-/

namespace SwagOS.Mem.KernelTables

open SwagOS.Lib ThreadPagetables

/-- `virtual_to_physical`, which reads the tables through the window of the first gigabyte:
the frame and the offset. -/
def virtualToPhysical (memory : Paging.Tables) (root va : Nat) : Nat × Nat :=
  let unmapped := (2 ^ 64 - 1, 2 ^ 64 - 1)
  let pdpt := memory root (pml4tIndex va) &&& ptAddrMask
  if (pdpt.toNat + kernelHhStart) % 2 ^ 64 = 0 then unmapped
  else
    let pdt := memory pdpt.toNat (pdptIndex va) &&& ptAddrMask
    if (pdt.toNat + kernelHhStart) % 2 ^ 64 = 0 then unmapped
    else
      let e := memory pdt.toNat (pdtIndex va)
      if e = 0#64 then unmapped
      else if e &&& pageHuge ≠ 0#64 then ((e &&& ptAddrMask).toNat, va &&& 0x1FFFFF)
      else
        let pt := e &&& ptAddrMask
        if (pt.toNat + kernelHhStart) % 2 ^ 64 = 0 then unmapped
        else ((memory pt.toNat (ptIndex va) &&& ptAddrMask).toNat, va &&& 0xFFF)

def Low (kernel : KernelTables) : Prop :=
  kernel.pdpt < 2 ^ 30 ∧ kernel.smpPdt < 2 ^ 30 ∧ kernel.smpPt < 2 ^ 30

theorem map4kbPageSmp_entries (kernel : KernelTables) (memory : Paging.Tables) (va pa : Nat)
    (apart : kernel.Apart) (flags : BitVec 64) :
    kernel.map4kbPageSmp memory va pa flags kernel.pml4t (pml4tIndex va) =
        entry kernel.pdpt flags ∧
      kernel.map4kbPageSmp memory va pa flags kernel.pdpt (pdptIndex va) =
        entry kernel.smpPdt flags ∧
      kernel.map4kbPageSmp memory va pa flags kernel.smpPdt (pdtIndex va) =
        entry kernel.smpPt flags ∧
      kernel.map4kbPageSmp memory va pa flags kernel.smpPt (ptIndex va) = entry pa flags := by
  have directory : kernel.smpPdt ∈ kernel.pdts := .inr (.inl rfl)
  obtain ⟨notRoot, notPdpt⟩ := apart.directories kernel.smpPdt directory
  obtain ⟨lastRoot, lastPdpt, lastDirectory⟩ := apart.last kernel.smpPt (.inl rfl)
  have lastPdt : kernel.smpPt ≠ kernel.smpPdt := by
    intro same
    exact lastDirectory (same ▸ directory)
  simp only [map4kbPageSmp]
  refine ⟨?_, ?_, ?_, ?_⟩
  · rw [store_other (Ne.symm lastRoot), store_other (Ne.symm notRoot), store_other apart.root, store,
      Function.update_self, Function.update_self]
  · rw [store_other (Ne.symm lastPdpt), store_other (Ne.symm notPdpt), store, Function.update_self,
      Function.update_self]
  · rw [store_other (Ne.symm lastPdt), store, Function.update_self, Function.update_self]
  · rw [store, Function.update_self, Function.update_self]

variable {kernel : KernelTables} {memory : Paging.Tables} {va pa : Nat}

theorem map4kbPageSmp_walk (apart : kernel.Apart) (canonical : Paging.Canonical va)
    (aligned : pa % pgSize = 0) (below : pa < 2 ^ 52) :
    Paging.walk (kernel.map4kbPageSmp memory va pa kernelFlags) va kernel.pml4t =
      some ⟨pa + va % pgSize, true, false⟩ := by
  obtain ⟨first, second, third, last⟩ :=
    kernel.map4kbPageSmp_entries memory va pa apart kernelFlags
  obtain ⟨aligned₁, below₁, -⟩ := apart.page kernel.pdpt (.inr (.inl rfl))
  obtain ⟨aligned₂, below₂, -⟩ := apart.page kernel.smpPdt (.inl (.inr (.inl rfl)))
  obtain ⟨aligned₃, below₃, -⟩ := apart.page kernel.smpPt (.inr (.inr (.inr (.inl rfl))))
  rw [pml4tIndex_eq] at first
  rw [pdptIndex_eq] at second
  rw [pdtIndex_eq] at third
  rw [ptIndex_eq] at last
  have present : Paging.present (entry pa kernelFlags) = true :=
    (entry_kernelFlags aligned below).1
  have page : Paging.leaf (entry pa kernelFlags) 0 va = ⟨pa + va % pgSize, true, false⟩ := by
    have span : Paging.span 0 = pgSize := by decide
    have whole : pa / pgSize * pgSize = pa := Nat.div_mul_cancel (Nat.dvd_of_mod_eq_zero aligned)
    have writable : Paging.writable (entry pa kernelFlags) = true :=
      entry_flag_eq aligned below (by decide) (by decide)
    rw [Paging.leaf, (entry_address aligned below (by decide)).1, span, whole, writable,
      (entry_kernelFlags aligned below).2.1]
  rw [Paging.walk, if_pos canonical, walkFrom_kernelFlags first aligned₁ below₁,
    walkFrom_kernelFlags second aligned₂ below₂, walkFrom_kernelFlags third aligned₃ below₃,
    Paging.walkFrom_page (by rw [last, present]), last, page]
  rfl

theorem map4kbPageSmp_virtualToPhysical (apart : kernel.Apart) (low : kernel.Low)
    (aligned : pa % pgSize = 0) (below : pa < 2 ^ 52) :
    virtualToPhysical (kernel.map4kbPageSmp memory va pa kernelFlags) kernel.pml4t va =
      (pa, va &&& 0xFFF) := by
  obtain ⟨first, second, third, last⟩ :=
    kernel.map4kbPageSmp_entries memory va pa apart kernelFlags
  obtain ⟨aligned₁, below₁, -⟩ := apart.page kernel.pdpt (.inr (.inl rfl))
  obtain ⟨aligned₂, below₂, -⟩ := apart.page kernel.smpPdt (.inl (.inr (.inl rfl)))
  obtain ⟨aligned₃, below₃, notNull₃⟩ := apart.page kernel.smpPt (.inr (.inr (.inr (.inl rfl))))
  have flags : kernelFlags.toNat < 2 ^ 12 := by decide
  have masked₁ := (entry_address aligned₁ below₁ flags).2
  have masked₂ := (entry_address aligned₂ below₂ flags).2
  have masked₃ := (entry_address aligned₃ below₃ flags).2
  obtain ⟨low₁, low₂, low₃⟩ := low
  have notNull : ∀ table, table < 2 ^ 30 → (table + kernelHhStart) % 2 ^ 64 ≠ 0 := by
    intro table inside
    rw [kernelHhStart]
    omega
  have filled : entry kernel.smpPt kernelFlags ≠ 0#64 := by
    intro zero
    rw [zero, BitVec.zero_and] at masked₃
    exact notNull₃ masked₃.symm
  have notLarge : ¬entry kernel.smpPt kernelFlags &&& pageHuge ≠ 0#64 := by
    rw [and_pageHuge, (entry_kernelFlags aligned₃ below₃).2.2]
    exact Bool.false_ne_true
  simp only [virtualToPhysical, first, masked₁, if_neg (notNull _ low₁), second, masked₂,
    if_neg (notNull _ low₂), third, if_neg filled, if_neg notLarge, masked₃,
    if_neg (notNull _ low₃), last, (entry_address aligned below flags).2]

end SwagOS.Mem.KernelTables
