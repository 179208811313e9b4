import SwagOS.Mem.KernelHeap.Search

/-!
# Safety of the kernel heap

In an inner node `in_use` says that something below it is allocated, in a taken
node that the node itself is.  The invariant that separates live blocks is
therefore about the whole tree: marks are closed upwards, and nothing is marked
below an occupied node.  Two occupied nodes are then never above one another,
and their address ranges are disjoint.
-/

namespace SwagOS.Mem

open SwagOS.Lib SwagOS.Lib.ArrayTree

/-- The invariant of the tree. -/
structure HeapInv (heap : KernelHeap) : Prop where
  vaStart : heap.vaStart = kernelHeapStart
  sizes : ∀ i < kernelHeapLen, (heap.heapTree i).size = nodeSize i
  offsets : ∀ i < kernelHeapLen, (heap.heapTree i).offset = i * nodeSize i
  occupiedInUse : ∀ i < kernelHeapLen,
    (heap.heapTree i).occupied = true → (heap.heapTree i).inUse = true
  inUseParent : ∀ i < kernelHeapLen, 0 < i →
    (heap.heapTree i).inUse = true → (heap.heapTree (i / 2)).inUse = true
  occupiedChild : ∀ i < kernelHeapLen, 0 < i →
    (heap.heapTree (i / 2)).occupied = true → (heap.heapTree i).inUse = false

theorem HeapInv.boot {heap : KernelHeap} (va : heap.vaStart = kernelHeapStart) :
    HeapInv (kernelHeapTreeInit heap 0 (2 ^ 31) 0) := by
  obtain ⟨sameVa, built⟩ := kernelHeapTreeInit_boot heap
  constructor
  · rw [sameVa, va]
  · intro i inside
    rw [built i inside]
    rfl
  · intro i inside
    rw [built i inside]
    rfl
  · intro i inside occupied
    rw [built i inside] at occupied
    exact absurd occupied (by simp [initialSection, HeapSection.occupied])
  · intro i inside _ used
    rw [built i inside] at used
    exact absurd used (by simp [initialSection])
  · intro i inside _ _
    rw [built i inside]
    rfl

theorem HeapInv.free_below {heap : KernelHeap} (inv : HeapInv heap) {a i : Nat}
    (above : Above a i) (different : a ≠ i) (inside : i < kernelHeapLen)
    (occupied : (heap.heapTree a).occupied = true) : (heap.heapTree i).inUse = false := by
  induction i using Nat.strong_induction_on with
  | _ i inductionHypothesis =>
    have positive : 0 < i := by
      have := above.le
      omega
    by_cases parent : a = i / 2
    · exact inv.occupiedChild i inside positive (parent ▸ occupied)
    · by_contra used
      have parentUsed := inv.inUseParent i inside positive (by simpa using used)
      have parentFree := inductionHypothesis (i / 2) (by omega) (above.of_ne different) parent
        (by omega)
      rw [parentFree] at parentUsed
      exact absurd parentUsed (by decide)

theorem HeapInv.occupied_disjoint {heap : KernelHeap} (inv : HeapInv heap) {i j : Nat}
    (insideI : i < kernelHeapLen) (insideJ : j < kernelHeapLen) (different : i ≠ j)
    (occupiedI : (heap.heapTree i).occupied = true)
    (occupiedJ : (heap.heapTree j).occupied = true) :
    (i + 1) * nodeSize i ≤ j * nodeSize j ∨ (j + 1) * nodeSize j ≤ i * nodeSize i := by
  have notAbove : ¬Above i j := fun above => by
    have free := inv.free_below above different insideJ occupiedI
    rw [inv.occupiedInUse j insideJ occupiedJ] at free
    exact absurd free (by decide)
  have notBelow : ¬Above j i := fun above => by
    have free := inv.free_below above different.symm insideI occupiedJ
    rw [inv.occupiedInUse i insideI occupiedI] at free
    exact absurd free (by decide)
  have positiveI : 0 < i := Nat.pos_of_ne_zero fun zero => notAbove (zero ▸ above_zero j)
  have positiveJ : 0 < j := Nat.pos_of_ne_zero fun zero => notBelow (zero ▸ above_zero i)
  have levelI := log_lt_of_lt_len insideI
  have levelJ := log_lt_of_lt_len insideJ
  rw [nodeSize_of_pos positiveI, nodeSize_of_pos positiveJ]
  exact cells_disjoint positiveI positiveJ (by omega) (by omega) notAbove notBelow

theorem Taken.occupied_iff {before after : KernelHeap} {size start j : Nat}
    (taken : Taken before after size start j) (k : Nat) :
    (after.heapTree k).occupied = true ↔ (before.heapTree k).occupied = true ∨ k = j := by
  by_cases same : k = j
  · simp [HeapSection.occupied, taken.flags, same, heapFlagOccupied]
  · simp [HeapSection.occupied, taken.flags, same]

theorem HeapInv.taken {before after : KernelHeap} {size j : Nat} (inv : HeapInv before)
    (taken : Taken before after size 0 j) : HeapInv after where
  vaStart := by rw [taken.vaStart, inv.vaStart]
  sizes i inside := by rw [taken.sizes, inv.sizes i inside]
  offsets i inside := by rw [taken.offsets, inv.offsets i inside]
  occupiedInUse i inside occupied := by
    rw [taken.inUse]
    rcases (taken.occupied_iff i).mp occupied with old | same
    · exact .inl (inv.occupiedInUse i inside old)
    · exact .inr ⟨same ▸ taken.below, same ▸ .refl i⟩
  inUseParent i inside positive used := by
    rw [taken.inUse]
    rcases (taken.inUse i).mp used with old | ⟨lower, upper⟩
    · exact .inl (inv.inUseParent i inside positive old)
    · exact .inr ⟨lower.of_ne (by omega), (Above.step (.refl _)).trans upper⟩
  occupiedChild i inside positive occupied := by
    by_contra used
    rcases (taken.inUse i).mp (by simpa using used) with old | ⟨lower, upper⟩
    · rcases (taken.occupied_iff _).mp occupied with oldParent | same
      · rw [inv.occupiedChild i inside positive oldParent] at old
        exact absurd old (by decide)
      · have parentUsed := inv.inUseParent i inside positive old
        rw [same, taken.free] at parentUsed
        exact absurd parentUsed (by decide)
    · have parentAbove : Above (i / 2) j := (Above.step (.refl _)).trans upper
      rcases (taken.occupied_iff _).mp occupied with oldParent | same
      · rw [taken.clear _ (lower.of_ne (by omega)) parentAbove] at oldParent
        exact absurd oldParent (by decide)
      · have := upper.le
        omega

/-- A block handed out by `kalloc`: the pointer, the size asked for, and the
tree node the search marked occupied for it. -/
structure Block where
  address : Nat
  request : Nat
  node : Nat
  deriving DecidableEq, Repr

/-- A run so far: the allocator and the blocks not freed since. -/
structure HeapRun where
  state : HeapState
  live : List Block

/-- One call.  A call that halts the machine has no successor. -/
inductive HeapStep : HeapRun → HeapRun → Prop
  | kalloc {run : HeapRun} {size address node : Nat} {after : HeapState}
      (word : size < 2 ^ 64)
      (called : kalloc run.state size = .ok (some address, after))
      (wasFree : (run.state.heap.heapTree node).occupied = false)
      (nowTaken : (after.heap.heapTree node).occupied = true) :
      HeapStep run ⟨after, ⟨address, size, node⟩ :: run.live⟩
  | kallocNull {run : HeapRun} {size : Nat} {after : HeapState}
      (word : size < 2 ^ 64)
      (called : kalloc run.state size = .ok (none, after)) :
      HeapStep run ⟨after, run.live⟩
  | kfree {run : HeapRun} {block : Block} {result : Bool} {after : HeapState}
      (live : block ∈ run.live)
      (called : kfree run.state block.address = .ok (result, after)) :
      HeapStep run ⟨after, run.live.erase block⟩

def HeapStart (run : HeapRun) : Prop :=
  run.live = [] ∧ run.state.lockHeld = false ∧
    ∃ memory : KernelHeap, memory.vaStart = kernelHeapStart ∧
      run.state.heap = kernelHeapTreeInit memory 0 (2 ^ 31) 0

theorem kalloc_ok {s after : HeapState} {size : Nat} {result : Option Nat}
    (called : kalloc s size = .ok (result, after)) :
    s.lockHeld = false ∧ (result, after.heap) = findHeapFrame s.heap size 0 ∧
      after.lockHeld = result.isNone := by
  unfold kalloc at called
  obtain ⟨locked, acquired, finished⟩ := Outcome.bind_ok.mp called
  unfold HeapState.acquire at acquired
  split at acquired
  · simp at acquired
  next unlocked =>
    obtain rfl := Outcome.pure_ok.mp acquired
    simp only [kheapRequest] at finished
    generalize findHeapFrame s.heap size 0 = searched at finished
    obtain ⟨found, heap⟩ := searched
    cases found with
    | none =>
      cases Outcome.pure_ok.mp finished
      exact ⟨by simpa using unlocked, rfl, rfl⟩
    | some address =>
      cases Outcome.pure_ok.mp finished
      exact ⟨by simpa using unlocked, rfl, rfl⟩

/-- `kfree` works on copies of the sections: the tree is never stored to. -/
theorem kfree_heap {s after : HeapState} {address : Nat} {result : Bool}
    (called : kfree s address = .ok (result, after)) : after.heap = s.heap := by
  unfold kfree at called
  obtain ⟨locked, acquired, finished⟩ := Outcome.bind_ok.mp called
  have sameHeap : locked.heap = s.heap := by
    unfold HeapState.acquire at acquired
    split at acquired
    · simp at acquired
    · rw [← Outcome.pure_ok.mp acquired]
  split at finished
  · cases Outcome.pure_ok.mp finished
    exact sameHeap
  · obtain ⟨index, -, finished⟩ := Outcome.bind_ok.mp finished
    split at finished
    · cases Outcome.pure_ok.mp finished
      exact sameHeap
    · cases Outcome.pure_ok.mp finished
      exact sameHeap

/-- A successful `kalloc` occupies one node, and no other changes its flags. -/
theorem kalloc_taken {s after : HeapState} {size address : Nat}
    (called : kalloc s size = .ok (some address, after)) :
    ∃ j, Taken s.heap after.heap size 0 j ∧
      address = ((s.heap.heapTree j).offset + s.heap.vaStart) % 2 ^ 64 := by
  obtain ⟨-, searched, -⟩ := kalloc_ok called
  have spec := findHeapFrame_spec s.heap size 0
  rwa [← searched] at spec

/-- Every successful `kalloc` is a step: it takes one node that was free. -/
theorem HeapStep.of_kalloc {run : HeapRun} {size address : Nat} {after : HeapState}
    (word : size < 2 ^ 64) (called : SwagOS.Mem.kalloc run.state size = .ok (some address, after)) :
    ∃ node, HeapStep run ⟨after, ⟨address, size, node⟩ :: run.live⟩ := by
  obtain ⟨node, taken, -⟩ := kalloc_taken called
  exact ⟨node, .kalloc word called (taken.clear node taken.below (.refl node))
    ((taken.occupied_iff node).mpr (.inr rfl))⟩

structure BlockInv (heap : KernelHeap) (block : Block) : Prop where
  inside : block.node < kernelHeapLen
  occupied : (heap.heapTree block.node).occupied = true
  address : block.address = kernelHeapStart + block.node * nodeSize block.node
  fits : block.request ≤ nodeSize block.node

structure RunInv (run : HeapRun) : Prop where
  tree : HeapInv run.state.heap
  blocks : ∀ block ∈ run.live, BlockInv run.state.heap block
  distinct : run.live.Pairwise fun a b => a.node ≠ b.node

theorem BlockInv.taken {before after : KernelHeap} {size j : Nat} {block : Block}
    (inv : BlockInv before block) (taken : Taken before after size 0 j) :
    BlockInv after block where
  inside := inv.inside
  occupied := (taken.occupied_iff _).mpr (.inl inv.occupied)
  address := inv.address
  fits := inv.fits

theorem RunInv.step {run next : HeapRun} (inv : RunInv run) (moved : HeapStep run next) :
    RunInv next := by
  cases moved with
  | @kalloc size address node after word called wasFree nowTaken =>
    obtain ⟨j, taken, located⟩ := kalloc_taken called
    obtain rfl : node = j := by
      rcases (taken.occupied_iff node).mp nowTaken with old | same
      · rw [wasFree] at old
        exact absurd old (by decide)
      · exact same
    refine ⟨inv.tree.taken taken, ?_, ?_⟩
    · intro block member
      rcases List.mem_cons.mp member with rfl | older
      · refine ⟨taken.inside, nowTaken, ?_, ?_⟩
        · have last := node_end_le taken.inside
          rw [Nat.add_mul] at last
          rw [located, inv.tree.offsets node taken.inside, inv.tree.vaStart, Nat.add_comm]
          apply Nat.mod_eq_of_lt
          have : kernelHeapStart + 2 ^ 31 < 2 ^ 64 := by decide
          omega
        · have fits := taken.fits
          rwa [inv.tree.sizes node taken.inside] at fits
      · exact (inv.blocks block older).taken taken
    · refine List.pairwise_cons.mpr ⟨?_, inv.distinct⟩
      intro block older same
      have occupied := (inv.blocks block older).occupied
      rw [← same, wasFree] at occupied
      exact absurd occupied (by decide)
  | @kallocNull size after word called =>
    obtain ⟨-, searched, -⟩ := kalloc_ok called
    have same : after.heap = run.state.heap := by
      have spec := findHeapFrame_spec run.state.heap size 0
      rwa [← searched] at spec
    refine ⟨?_, ?_, inv.distinct⟩
    · exact same ▸ inv.tree
    · exact same ▸ inv.blocks
  | @kfree block result after live called =>
    have same := kfree_heap called
    refine ⟨?_, ?_, inv.distinct.sublist List.erase_sublist⟩
    · exact same ▸ inv.tree
    · intro other member
      exact same ▸ inv.blocks other (List.mem_of_mem_erase member)

theorem RunInv.of_reachable {run : HeapRun} (reached : Reachable HeapStart HeapStep run) :
    RunInv run := by
  refine reached.invariant ?_ fun _ _ inv moved => inv.step moved
  rintro start ⟨empty, -, memory, va, built⟩
  refine ⟨built ▸ HeapInv.boot va, ?_, ?_⟩
  · simp [empty]
  · simp [empty]

/-- In every run of `kalloc` and `kfree`, the live blocks lie in the heap at the
address of an occupied node of at least the size asked for, aligned to that
size, and no two of them overlap. -/
theorem kernelHeap_safe {run : HeapRun} (reached : Reachable HeapStart HeapStep run) :
    let tree := run.state.heap.heapTree
    let va := run.state.heap.vaStart
    (∀ block ∈ run.live,
      (tree block.node).occupied = true ∧
      block.address = va + (tree block.node).offset ∧
      va ≤ block.address ∧ block.address + (tree block.node).size ≤ va + 2 ^ 31 ∧
      block.request ≤ (tree block.node).size ∧
      (tree block.node).size ∣ (tree block.node).offset) ∧
    run.live.Pairwise fun a b =>
      a.address + (tree a.node).size ≤ b.address ∨
        b.address + (tree b.node).size ≤ a.address := by
  intro tree va
  have inv := RunInv.of_reachable reached
  constructor
  · intro block member
    have known := inv.blocks block member
    have last := node_end_le known.inside
    rw [Nat.add_mul, Nat.one_mul] at last
    rw [inv.tree.sizes _ known.inside, inv.tree.offsets _ known.inside]
    have start : va = kernelHeapStart := inv.tree.vaStart
    have address := known.address
    refine ⟨known.occupied, by rw [address, start], by omega, by omega, known.fits, ?_⟩
    exact Nat.dvd_mul_left _ _
  · apply inv.distinct.imp_of_mem
    intro a b memberA memberB different
    have knownA := inv.blocks a memberA
    have knownB := inv.blocks b memberB
    have apart := inv.tree.occupied_disjoint knownA.inside knownB.inside different
      knownA.occupied knownB.occupied
    rw [inv.tree.sizes _ knownA.inside, inv.tree.sizes _ knownB.inside, knownA.address,
      knownB.address]
    simp only [Nat.add_mul, Nat.one_mul] at apart
    omega

def bootRun : HeapRun where
  state :=
    { heap := kernelHeapTreeInit ⟨fun _ => ⟨0, 0, 0, false, 0⟩, kernelHeapStart⟩ 0 (2 ^ 31) 0
      lockHeld := false }
  live := []

theorem bootRun_start : HeapStart bootRun := ⟨rfl, rfl, _, rfl, rfl⟩

theorem bootRun_heapTree {i : Nat} (inside : i < kernelHeapLen) :
    bootRun.state.heap.heapTree i = initialSection i :=
  (kernelHeapTreeInit_boot _).2 i inside

theorem kalloc_of_found {s : HeapState} {size address : Nat} {after : KernelHeap}
    (unlocked : s.lockHeld = false)
    (found : findHeapFrame s.heap size 0 = (some address, after)) :
    kalloc s size = .ok (some address, ⟨after, false⟩) := by
  simp [kalloc, HeapState.acquire, unlocked, kheapRequest, found, HeapState.release, bind,
    Except.bind, pure, Except.pure]

/-- The heap after one request for half of node `1`. -/
def oneTaken : KernelHeap :=
  ((bootRun.state.heap.write 2
    { bootRun.state.heap.heapTree 2 with flags := heapFlagOccupied, inUse := true }).markInUse
      1).markInUse 0

theorem oneTaken_heapTree : oneTaken.heapTree 0 = { initialSection 0 with inUse := true } ∧
    oneTaken.heapTree 1 = { initialSection 1 with inUse := true } ∧
    oneTaken.heapTree 2 = { initialSection 2 with inUse := true, flags := heapFlagOccupied } ∧
    oneTaken.heapTree 3 = initialSection 3 := by
  simp only [oneTaken, KernelHeap.markInUse, KernelHeap.write_heapTree,
    bootRun_heapTree (i := 0) (by decide), bootRun_heapTree (i := 1) (by decide),
    bootRun_heapTree (i := 2) (by decide), bootRun_heapTree (i := 3) (by decide)]
  exact ⟨rfl, rfl, rfl, rfl⟩

theorem bootRun_finds : ∃ address,
    findHeapFrame bootRun.state.heap (2 ^ 29) 0 = (some address, oneTaken) := by
  have root := bootRun_heapTree (i := 0) (by decide)
  have one := bootRun_heapTree (i := 1) (by decide)
  have two := bootRun_heapTree (i := 2) (by decide)
  refine ⟨_, findHeapFrame_right (by rw [Open, root]; decide) (by rw [Fits, root]; decide)
    (.inl rfl) (findHeapFrame_left (by rw [Open, one]; decide) (by rw [Fits, one]; decide)
    (by decide) (findHeapFrame_here (by rw [Open, two]; decide) (by rw [Fits, two]; decide)))⟩

theorem oneTaken_finds : ∃ address after,
    findHeapFrame oneTaken (2 ^ 29) 0 = (some address, after) := by
  obtain ⟨root, one, two, three⟩ := oneTaken_heapTree
  exact ⟨_, _, findHeapFrame_right (by rw [Open, root]; decide) (by rw [Fits, root]; decide)
    (.inl rfl) (findHeapFrame_right (by rw [Open, one]; decide) (by rw [Fits, one]; decide)
    (.inr (findHeapFrame_closed (by rw [Open, two]; decide)))
    (findHeapFrame_here (by rw [Open, three]; decide) (by rw [Fits, three]; decide)))⟩

theorem kernelHeap_safe_two_halves : ∃ run : HeapRun, Reachable HeapStart HeapStep run ∧
    run.live.length = 2 ∧ run.live.Pairwise fun a b =>
      a.address + (run.state.heap.heapTree a.node).size ≤ b.address ∨
        b.address + (run.state.heap.heapTree b.node).size ≤ a.address := by
  obtain ⟨first, foundFirst⟩ := bootRun_finds
  obtain ⟨second, after, foundSecond⟩ := oneTaken_finds
  have calledSecond : kalloc ⟨oneTaken, false⟩ (2 ^ 29) = .ok (some second, ⟨after, false⟩) :=
    kalloc_of_found rfl foundSecond
  obtain ⟨node, moved⟩ :=
    @HeapStep.of_kalloc bootRun _ _ _ (by decide) (kalloc_of_found rfl foundFirst)
  obtain ⟨node', moved'⟩ :=
    @HeapStep.of_kalloc ⟨⟨oneTaken, false⟩, [⟨first, 2 ^ 29, node⟩]⟩ _ _ _ (by decide) calledSecond
  have reached := ((Reachable.base bootRun_start).next moved).next moved'
  exact ⟨_, reached, rfl, (kernelHeap_safe reached).2⟩

end SwagOS.Mem
