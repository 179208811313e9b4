import SwagOS.Mem.KernelHeap.Safety

/-!
# `kfree` reclaims nothing

`kfree` reads the section, its buddy and each parent into local variables and
clears those.  The tree keeps every mark that `kalloc` set: the node stays
occupied, and node `0` stays in use for ever after the first allocation.
-/

namespace SwagOS.Mem

open SwagOS.Lib SwagOS.Lib.ArrayTree

def Restored (before after : KernelHeap) : Prop :=
  ∀ i < kernelHeapLen, (after.heapTree i).inUse = (before.heapTree i).inUse ∧
    (after.heapTree i).flags = (before.heapTree i).flags

def Satisfiable (s : HeapState) (size : Nat) : Prop :=
  ∃ address after, kalloc s size = .ok (some address, after)

/-- With node `0` in use, the search of `kfree` stops there at once. -/
theorem heapSearchByOffset_root {heap : KernelHeap} (inv : HeapInv heap)
    (used : (heap.heapTree 0).inUse = true) {offset : Nat} (inside : offset < 2 ^ 31) :
    heapSearchByOffset heap offset 0 = .ok 0 := by
  have size : (heap.heapTree 0).size = 2 ^ 31 := inv.sizes 0 (by decide)
  have start : (heap.heapTree 0).offset = 0 := by
    have := inv.offsets 0 (by decide)
    simpa using this
  rw [heapSearchByOffset, if_neg (by decide)]
  simp only [size, start, used, Nat.zero_le, Nat.zero_add, inside, and_self, not_true_eq_false,
    ↓reduceIte]
  rfl

/-- Freeing an address of the heap succeeds once anything was allocated. -/
theorem kfree_of_inUse {s : HeapState} (inv : HeapInv s.heap) (unlocked : s.lockHeld = false)
    (used : (s.heap.heapTree 0).inUse = true) {offset : Nat} (inside : offset < 2 ^ 31) :
    kfree s (kernelHeapStart + offset) = .ok (true, s) := by
  have found := heapSearchByOffset_root inv used inside
  have word : offset % 2 ^ 32 = offset := Nat.mod_eq_of_lt (by omega)
  have acquired : s.acquire = .ok { s with lockHeld := true } := by
    simp [HeapState.acquire, unlocked, pure, Except.pure]
  have released : HeapState.release { s with lockHeld := true } = s := by
    rw [HeapState.release, ← unlocked]
  simp only [kfree, acquired, inv.vaStart, bind, Except.bind, Nat.add_sub_cancel_left, word, found]
  rw [if_neg (by omega), if_neg (by decide), released]
  rfl

theorem not_satisfiable_of_inUse {s : HeapState} (inv : HeapInv s.heap)
    (used : (s.heap.heapTree 0).inUse = true) : ¬Satisfiable s (2 ^ 31) := by
  rintro ⟨address, after, called⟩
  obtain ⟨j, taken, -⟩ := kalloc_taken called
  have fits := taken.fits
  rw [inv.sizes j taken.inside] at fits
  have last := node_end_le taken.inside
  obtain rfl : j = 0 := by
    by_contra positive
    have : 2 * nodeSize j ≤ (j + 1) * nodeSize j := Nat.mul_le_mul_right _ (by omega)
    omega
  have free := taken.free
  rw [used] at free
  exact absurd free (by decide)

/-- The `kfree` after a successful `kalloc` leaves the tree as `kalloc` left it,
with the node taken still occupied and node `0` in use. -/
theorem kfree_after_kalloc {s after : HeapState} (inv : HeapInv s.heap) {size address : Nat}
    (called : kalloc s size = .ok (some address, after)) :
    kfree after address = .ok (true, after) ∧ ¬Restored s.heap after.heap ∧
      HeapInv after.heap ∧ (after.heap.heapTree 0).inUse = true := by
  obtain ⟨j, taken, located⟩ := kalloc_taken called
  have invAfter := inv.taken taken
  have rootUsed : (after.heap.heapTree 0).inUse = true :=
    (taken.inUse 0).mpr (.inr ⟨.refl 0, above_zero j⟩)
  have last := node_end_le taken.inside
  have positive := nodeSize_pos j
  rw [Nat.add_mul, Nat.one_mul] at last
  refine ⟨?_, ?_, invAfter, rootUsed⟩
  · have wrap : kernelHeapStart + 2 ^ 31 < 2 ^ 64 := by decide
    rw [located, inv.offsets j taken.inside, inv.vaStart, Nat.mod_eq_of_lt (by omega),
      Nat.add_comm]
    exact kfree_of_inUse invAfter (kalloc_ok called).2.2 rootUsed (by omega)
  · intro restored
    have occupied := (taken.occupied_iff j).mpr (.inr rfl)
    have clear := taken.clear j taken.below (.refl j)
    rw [HeapSection.occupied, (restored j taken.inside).2] at occupied
    rw [HeapSection.occupied, occupied] at clear
    exact absurd clear (by decide)

/-- From every reachable heap, the `kfree` that directly follows a successful
`kalloc` returns true and restores nothing: the tree is still the one `kalloc`
left.  What can be satisfied then depends on more than the live blocks, since a
block of the size of the heap is out of reach from then on. -/
theorem kfree_never_restores {run : HeapRun} (reached : Reachable HeapStart HeapStep run)
    {size address : Nat} {after : HeapState}
    (called : kalloc run.state size = .ok (some address, after)) :
    kfree after address = .ok (true, after) ∧ ¬Restored run.state.heap after.heap ∧
      ¬Satisfiable after (2 ^ 31) := by
  obtain ⟨freed, changed, inv, used⟩ :=
    kfree_after_kalloc (RunInv.of_reachable reached).tree called
  exact ⟨freed, changed, not_satisfiable_of_inUse inv used⟩

def allTaken : HeapState where
  heap := bootRun.state.heap.write 0
    { bootRun.state.heap.heapTree 0 with flags := heapFlagOccupied, inUse := true }
  lockHeld := false

theorem bootRun_kalloc_all : ∃ address,
    kalloc bootRun.state (2 ^ 31) = .ok (some address, allTaken) := by
  have root := bootRun_heapTree (i := 0) (by decide)
  exact ⟨_, kalloc_of_found rfl
    (findHeapFrame_here (by rw [Open, root]; decide) (by rw [Fits, root]; decide))⟩

theorem kfree_never_restores_at_boot : ∃ address,
    kalloc bootRun.state (2 ^ 31) = .ok (some address, allTaken) ∧
      kfree allTaken address = .ok (true, allTaken) ∧
      ¬Restored bootRun.state.heap allTaken.heap ∧ ¬Satisfiable allTaken (2 ^ 31) := by
  obtain ⟨address, called⟩ := bootRun_kalloc_all
  exact ⟨address, called, kfree_never_restores (.base bootRun_start) called⟩

/-- `kalloc` and `kfree` of the whole heap, right after boot: no mark is restored,
and although no block is live before or after, the request that was satisfied
is refused from then on. -/
theorem whole_heap_not_reclaimed : ∃ run run' address,
    Reachable HeapStart HeapStep run ∧ Reachable HeapStart HeapStep run' ∧
    kalloc run.state (2 ^ 31) = .ok (some address, allTaken) ∧
    kfree allTaken address = .ok (true, run'.state) ∧
    ¬Restored run.state.heap run'.state.heap ∧
    run.live = run'.live ∧ Satisfiable run.state (2 ^ 31) ∧ ¬Satisfiable run'.state (2 ^ 31) := by
  obtain ⟨address, called⟩ := bootRun_kalloc_all
  have booted : Reachable HeapStart HeapStep bootRun := .base bootRun_start
  obtain ⟨freed, changed, inv, used⟩ :=
    kfree_after_kalloc (RunInv.of_reachable booted).tree called
  have root := bootRun_heapTree (i := 0) (by decide)
  have took : Reachable HeapStart HeapStep ⟨allTaken, [⟨address, 2 ^ 31, 0⟩]⟩ :=
    booted.next (.kalloc (by decide) called (by rw [root]; rfl) rfl)
  have gave := took.next (.kfree (List.mem_singleton_self _) freed)
  exact ⟨bootRun, _, address, booted, gave, called, freed, changed, by simp [bootRun],
    ⟨address, _, called⟩, not_satisfiable_of_inUse inv used⟩

end SwagOS.Mem
