import SwagOS.Kernel.Locking.Functions
import SwagOS.Mem.KernelHeap.Lookup

/-!
# The lock of the kernel heap

`kalloc` and `kfree` with what they do to `KernelHeapLock` and to the interrupt state of the
CPU they run on.  Both take the lock first.  The return of `kalloc` for a request that cannot be
served, and the first two returns of `kfree`, do not give it back: the next call on this CPU
finds its own lock taken.
-/

namespace SwagOS.Kernel

open SwagOS.Lib SwagOS.Lib.ArrayTree SwagOS.Mem

/-- The heap, and what a call changes of the rest of the kernel. -/
structure HeapMachine (Cpu : Type) where
  kernel : KernelState Cpu KernelLock
  heap : KernelHeap

inductive HeapRequest where
  | kalloc (size : Nat)
  | kfree (address : Nat)
  deriving DecidableEq, Repr

def deadlockMessage : String := "acquire_Spinlock() --> encountered deadlock situation."

namespace HeapMachine

variable {Cpu : Type} [DecidableEq Cpu]

def kalloc (s : HeapMachine Cpu) (c : Cpu) (size : Nat) : Outcome (Option Nat × HeapMachine Cpu) := do
  let kernel ← s.kernel.acquireSpinlock c .kernelHeapLock
  match kheapRequest s.heap size with
  | (none, heap) => pure (none, ⟨kernel, heap⟩)
  | (some address, heap) =>
    let kernel ← kernel.releaseSpinlock c .kernelHeapLock
    pure (some address, ⟨kernel, heap⟩)

/-- What `kfree` writes to its copies of the sections is left out: `mergeBuddies` has it. -/
def kfree (s : HeapMachine Cpu) (c : Cpu) (address : Nat) : Outcome (Bool × HeapMachine Cpu) := do
  let kernel ← s.kernel.acquireSpinlock c .kernelHeapLock
  if address < s.heap.vaStart then pure (false, ⟨kernel, s.heap⟩)
  else
    let sectionIndex ← heapSearchByOffset s.heap (s.heap.offsetOf address) 0
    if sectionIndex = uint32Max then pure (false, ⟨kernel, s.heap⟩)
    else
      let _sectionIndex := mergeBuddies s.heap sectionIndex (getBuddy s.heap sectionIndex)
      let kernel ← kernel.releaseSpinlock c .kernelHeapLock
      pure (true, ⟨kernel, s.heap⟩)

def call (s : HeapMachine Cpu) (c : Cpu) : HeapRequest → Outcome (HeapMachine Cpu)
  | .kalloc size => return (← s.kalloc c size).2
  | .kfree address => return (← s.kfree c address).2

def cliCount (s : HeapMachine Cpu) (c : Cpu) : Nat := (s.kernel.processor c).cpu.cliCount

/-- The lock is free, and the sections are those of boot with any marks. -/
structure Ready (s : HeapMachine Cpu) : Prop where
  free : s.kernel.owner .kernelHeapLock = none
  shape : HeapShape s.heap

/-- The call returns with the lock released and `cli_count` as at entry. -/
def Neutral (s : HeapMachine Cpu) (c : Cpu) (request : HeapRequest) : Prop :=
  ∃ t, s.call c request = .ok t ∧ t.kernel.owner .kernelHeapLock = none ∧
    t.cliCount c = s.cliCount c

end HeapMachine

/-- The request can be served: the search of `kalloc` has a node to end at, or the address lies
in a section in use. -/
def HeapRequest.Served (heap : KernelHeap) : HeapRequest → Prop
  | .kalloc size => ∃ j, Reaches heap size 0 j
  | .kfree address => heap.vaStart ≤ address ∧ ∃ i < kernelHeapLen,
      (heap.heapTree i).inUse = true ∧
        (heap.heapTree i).contains (heap.offsetOf address)

namespace HeapMachine

variable {Cpu : Type} [DecidableEq Cpu] {s t : HeapMachine Cpu} {c : Cpu}

def locked (s : HeapMachine Cpu) (c : Cpu) : KernelState Cpu KernelLock :=
  (s.kernel.setCPU c (s.kernel.processor c).cpu.incCli).setOwner .kernelHeapLock (some c)

theorem acquire_free (free : s.kernel.owner .kernelHeapLock = none) :
    s.kernel.acquireSpinlock c .kernelHeapLock = .ok (s.locked c) := by
  rw [KernelState.acquireSpinlock_eq]
  simp [free]
  rfl

theorem locked_owner : (s.locked c).owner .kernelHeapLock = some c := by
  simp [locked]

theorem decCli_incCli (cpu : CPU) :
    ∃ after, cpu.incCli.decCli = .ok after ∧ after.cliCount = cpu.cliCount := by
  refine ⟨_, rfl, ?_⟩
  rw [apply_ite CPU.cliCount]
  exact ite_self _

theorem release_locked : ∃ kernel, (s.locked c).releaseSpinlock c .kernelHeapLock = .ok kernel ∧
    kernel.owner .kernelHeapLock = none ∧
    ∀ d, (kernel.processor d).cpu.cliCount = (s.kernel.processor d).cpu.cliCount := by
  obtain ⟨after, taken, count⟩ := decCli_incCli (s.kernel.processor c).cpu
  have cpu : ((s.locked c).processor c).cpu = (s.kernel.processor c).cpu.incCli := by
    simp [locked, KernelState.setCPU]
  rw [KernelState.releaseSpinlock_held locked_owner, KernelState.leaveSpinlock,
    KernelState.setOwner_processor, cpu, taken]
  refine ⟨_, rfl, by simp [KernelState.setCPU], ?_⟩
  intro d
  by_cases same : d = c
  · subst same
    simpa [KernelState.setCPU] using count
  · simp [KernelState.setCPU, locked, Function.update_of_ne same]

theorem locked_cliCount : ((s.locked c).processor c).cpu.cliCount = s.cliCount c + 1 := by
  simp [locked, KernelState.setCPU, CPU.incCli, CPU.cli, cliCount]

theorem call_panics (held : s.kernel.owner .kernelHeapLock = some c) (request : HeapRequest) :
    s.call c request = .error (.panic deadlockMessage) := by
  have panics : s.kernel.acquireSpinlock c .kernelHeapLock = .error (.panic deadlockMessage) := by
    rw [KernelState.acquireSpinlock_eq, if_pos held]
    rfl
  cases request with
  | kalloc size =>
    unfold call kalloc
    rw [panics]
    rfl
  | kfree address =>
    unfold call kfree
    rw [panics]
    rfl

def heapState (s : HeapMachine Cpu) : HeapState :=
  ⟨s.heap, (s.kernel.owner .kernelHeapLock).isSome⟩

theorem acquire_ok {kernel : KernelState Cpu KernelLock}
    (acquired : s.kernel.acquireSpinlock c .kernelHeapLock = .ok kernel) :
    s.kernel.owner .kernelHeapLock = none ∧ kernel = s.locked c := by
  by_cases free : s.kernel.owner .kernelHeapLock = none
  · rw [acquire_free free] at acquired
    exact ⟨free, (Except.ok.inj acquired).symm⟩
  · rw [KernelState.acquireSpinlock_eq] at acquired
    split at acquired
    · cases acquired
    · cases acquired

theorem release_ok {kernel kernel' : KernelState Cpu KernelLock}
    (released : kernel.releaseSpinlock c .kernelHeapLock = .ok kernel') :
    kernel'.owner .kernelHeapLock = none := by
  obtain ⟨freed, free, left⟩ := Outcome.bind_ok.mp released
  obtain ⟨cpu, -, done⟩ := Outcome.bind_ok.mp left
  unfold KernelState.freeSpinlock at free
  split at free
  · cases free
  · rw [← Outcome.pure_ok.mp done, ← Outcome.pure_ok.mp free]
    simp [KernelState.setCPU]

theorem kalloc_heapState {size : Nat} {result : Option Nat}
    (called : s.kalloc c size = .ok (result, t)) :
    Mem.kalloc s.heapState size = .ok (result, t.heapState) := by
  unfold kalloc at called
  obtain ⟨kernel, acquired, called⟩ := Outcome.bind_ok.mp called
  obtain ⟨free, rfl⟩ := acquire_ok acquired
  have unlocked : s.heapState.acquire = .ok ⟨s.heap, true⟩ := by
    simp [heapState, HeapState.acquire, free, pure, Except.pure]
  unfold Mem.kalloc
  rw [unlocked]
  simp only [bind, Except.bind]
  rcases searched : kheapRequest s.heap size with ⟨_ | address, heap⟩
  · rw [searched] at called
    cases Outcome.pure_ok.mp called
    simp [heapState, locked_owner, pure, Except.pure]
  · rw [searched] at called
    obtain ⟨kernel, released, done⟩ := Outcome.bind_ok.mp called
    cases Outcome.pure_ok.mp done
    simp [heapState, release_ok released, HeapState.release, pure, Except.pure]

theorem kfree_heapState {address : Nat} {result : Bool}
    (called : s.kfree c address = .ok (result, t)) :
    Mem.kfree s.heapState address = .ok (result, t.heapState) := by
  unfold kfree at called
  obtain ⟨kernel, acquired, called⟩ := Outcome.bind_ok.mp called
  obtain ⟨free, rfl⟩ := acquire_ok acquired
  have unlocked : s.heapState.acquire = .ok ⟨s.heap, true⟩ := by
    simp [heapState, HeapState.acquire, free, pure, Except.pure]
  unfold Mem.kfree
  rw [unlocked]
  simp only [bind, Except.bind]
  split at called
  · next below =>
    cases Outcome.pure_ok.mp called
    rw [if_pos below]
    simp [heapState, locked_owner, pure, Except.pure]
  · next above =>
    rw [if_neg above]
    obtain ⟨index, found, called⟩ := Outcome.bind_ok.mp called
    rw [KernelHeap.offsetOf] at found
    rw [found]
    simp only
    split at called
    · next failed =>
      cases Outcome.pure_ok.mp called
      rw [if_pos failed]
      simp [heapState, locked_owner, pure, Except.pure]
    · next valid =>
      obtain ⟨kernel, released, done⟩ := Outcome.bind_ok.mp called
      cases Outcome.pure_ok.mp done
      rw [if_neg valid]
      simp [heapState, release_ok released, HeapState.release, pure, Except.pure]

structure Returned (s t : HeapMachine Cpu) : Prop where
  free : t.kernel.owner .kernelHeapLock = none
  cliCount : ∀ d, t.cliCount d = s.cliCount d
  shape : HeapShape s.heap → HeapShape t.heap

structure Kept (s t : HeapMachine Cpu) (c : Cpu) : Prop where
  held : t.kernel.owner .kernelHeapLock = some c
  cliCount : t.cliCount c = s.cliCount c + 1

theorem kept_locked (heap : KernelHeap) : Kept s ⟨s.locked c, heap⟩ c where
  held := locked_owner
  cliCount := locked_cliCount

theorem kalloc_served (free : s.kernel.owner .kernelHeapLock = none) {size : Nat}
    (served : (HeapRequest.kalloc size).Served s.heap) :
    ∃ t, s.call c (.kalloc size) = .ok t ∧ Returned s t := by
  obtain ⟨k, reaches⟩ := served
  have spec := firstFit_spec s.heap size 0
  have finds := findHeapFrame_firstFit s.heap size 0
  cases found : firstFit s.heap size 0 with
  | none =>
    rw [found] at spec
    exact absurd reaches (spec k)
  | some j =>
    rw [found] at finds
    obtain ⟨after, searched, taken⟩ := finds
    obtain ⟨kernel, released, unlocked, counts⟩ := release_locked (s := s) (c := c)
    refine ⟨⟨kernel, after⟩, ?_, unlocked, counts, taken.shape⟩
    simp [call, kalloc, kheapRequest, acquire_free free, searched, bind, Except.bind, released,
      pure, Except.pure]

theorem kalloc_unserved (free : s.kernel.owner .kernelHeapLock = none) {size : Nat}
    (unserved : ¬(HeapRequest.kalloc size).Served s.heap) :
    ∃ t, s.call c (.kalloc size) = .ok t ∧ Kept s t c := by
  have spec := firstFit_spec s.heap size 0
  have finds := findHeapFrame_firstFit s.heap size 0
  cases found : firstFit s.heap size 0 with
  | none =>
    rw [found] at finds
    have searched : findHeapFrame s.heap size 0 = (none, s.heap) := finds
    refine ⟨⟨s.locked c, s.heap⟩, ?_, kept_locked s.heap⟩
    simp [call, kalloc, kheapRequest, acquire_free free, searched, bind, Except.bind, pure,
      Except.pure]
  | some j =>
    rw [found] at spec
    exact absurd ⟨j, spec.1⟩ unserved

theorem kfree_served (free : s.kernel.owner .kernelHeapLock = none) (shape : HeapShape s.heap)
    {address : Nat} (served : (HeapRequest.kfree address).Served s.heap) :
    ∃ t, s.call c (.kfree address) = .ok t ∧ Returned s t := by
  obtain ⟨above, i, inside, used, here⟩ := served
  obtain ⟨j, insideJ, found⟩ := heapSearchByOffset_used shape inside used here
  obtain ⟨kernel, released, unlocked, counts⟩ := release_locked (s := s) (c := c)
  have valid : j ≠ uint32Max := by
    unfold kernelHeapLen at insideJ
    unfold uint32Max
    omega
  refine ⟨⟨kernel, s.heap⟩, ?_, unlocked, counts, id⟩
  simp [call, kfree, acquire_free free, bind, Except.bind, not_lt.mpr above, found, valid,
    released, pure, Except.pure]

theorem kfree_below (free : s.kernel.owner .kernelHeapLock = none) {address : Nat}
    (below : address < s.heap.vaStart) :
    ∃ t, s.call c (.kfree address) = .ok t ∧ Kept s t c := by
  refine ⟨⟨s.locked c, s.heap⟩, ?_, kept_locked s.heap⟩
  simp [call, kfree, acquire_free free, bind, Except.bind, below, pure, Except.pure]

theorem kfree_unserved (free : s.kernel.owner .kernelHeapLock = none)
    {address : Nat} (unserved : ¬(HeapRequest.kfree address).Served s.heap) :
    (∃ t, s.call c (.kfree address) = .ok t ∧ Kept s t c) ∨
      s.call c (.kfree address) = .error .hang := by
  by_cases below : address < s.heap.vaStart
  · exact .inl (kfree_below free below)
  have none : ∀ i < kernelHeapLen, (s.heap.heapTree i).inUse = true →
      ¬(s.heap.heapTree i).contains (s.heap.offsetOf address) := by
    intro i inside used here
    exact unserved ⟨not_lt.mp below, i, inside, used, here⟩
  rcases heapSearchByOffset_none none 0 with failed | hangs
  · refine .inl ⟨⟨s.locked c, s.heap⟩, ?_, kept_locked s.heap⟩
    simp [call, kfree, acquire_free free, bind, Except.bind, below, failed, pure, Except.pure]
  · right
    simp [call, kfree, acquire_free free, bind, Except.bind, below, hangs]

theorem call_served (ready : s.Ready) {request : HeapRequest} (served : request.Served s.heap) :
    ∃ t, s.call c request = .ok t ∧ Returned s t := by
  cases request with
  | kalloc size => exact kalloc_served ready.free served
  | kfree address => exact kfree_served ready.free ready.shape served

theorem call_unserved (ready : s.Ready) {request : HeapRequest}
    (unserved : ¬request.Served s.heap) :
    (∃ t, s.call c request = .ok t ∧ Kept s t c) ∨ s.call c request = .error .hang := by
  cases request with
  | kalloc size => exact .inl (kalloc_unserved ready.free unserved)
  | kfree address => exact kfree_unserved ready.free unserved

theorem neutral_iff (ready : s.Ready) (request : HeapRequest) :
    s.Neutral c request ↔ request.Served s.heap := by
  constructor
  · rintro ⟨t, called, free, -⟩
    by_contra unserved
    rcases call_unserved (c := c) ready unserved with ⟨u, called', kept⟩ | hangs
    · obtain rfl : t = u := Except.ok.inj (called.symm.trans called')
      rw [kept.held] at free
      exact absurd free (Option.some_ne_none c)
    · rw [hangs] at called
      exact absurd called (by simp)
  · intro served
    obtain ⟨t, called, returned⟩ := call_served (c := c) ready served
    exact ⟨t, called, returned.free, returned.cliCount c⟩

def CallStep (s : HeapMachine Cpu) (label : Cpu × HeapRequest) (t : HeapMachine Cpu) : Prop :=
  s.call label.1 label.2 = .ok t

def ServedRun : HeapMachine Cpu → HeapMachine Cpu → Prop :=
  Relation.ReflTransGen (Restricted CallStep fun s label => label.2.Served s.heap)

omit [DecidableEq Cpu] in
theorem Returned.ready (returned : Returned s t) (ready : s.Ready) : t.Ready :=
  ⟨returned.free, returned.shape ready.shape⟩

theorem ServedRun.ready (run : ServedRun s t) (ready : s.Ready) :
    t.Ready ∧ ∀ d, t.cliCount d = s.cliCount d := by
  induction run with
  | refl => exact ⟨ready, fun _ => rfl⟩
  | tail _ moved inductionHypothesis =>
    obtain ⟨ready', counts⟩ := inductionHypothesis
    obtain ⟨⟨c, request⟩, called, served⟩ := moved
    obtain ⟨u, called', returned⟩ := call_served (c := c) ready' served
    obtain rfl := Except.ok.inj (called.symm.trans called')
    refine ⟨returned.ready ready', ?_⟩
    intro d
    rw [returned.cliCount d, counts d]

/-- From a free lock and for every tree, a call is neutral exactly if its request can be served.
Runs of such calls on any CPUs keep the lock free and every count, and no call after them ends
in the deadlock panic.  A call that is not served returns with the lock, so that every later
call on its CPU panics, or never returns. -/
theorem heapCalls_neutral_iff (ready : s.Ready) :
    (∀ c request, s.Neutral c request ↔ request.Served s.heap) ∧
      (∀ t, ServedRun s t → t.kernel.owner .kernelHeapLock = none ∧
        (∀ d, t.cliCount d = s.cliCount d) ∧
        ∀ c request, t.call c request ≠ .error (.panic deadlockMessage)) ∧
      ∀ c request, ¬request.Served s.heap →
        s.call c request = .error .hang ∨
          ∃ t, s.call c request = .ok t ∧ t.cliCount c = s.cliCount c + 1 ∧
            ∀ next, t.call c next = .error (.panic deadlockMessage) := by
  refine ⟨fun c request => neutral_iff ready request, ?_, ?_⟩
  · intro t run
    obtain ⟨ready', counts⟩ := run.ready ready
    refine ⟨ready'.free, counts, ?_⟩
    intro c request panics
    by_cases served : request.Served t.heap
    · obtain ⟨u, called, -⟩ := call_served (c := c) ready' served
      rw [called] at panics
      exact absurd panics (by simp)
    · rcases call_unserved (c := c) ready' served with ⟨u, called, -⟩ | hangs
      · rw [called] at panics
        exact absurd panics (by simp)
      · rw [hangs] at panics
        exact absurd panics (by simp)
  · intro c request unserved
    rcases call_unserved (c := c) ready unserved with ⟨t, called, kept⟩ | hangs
    · exact .inr ⟨t, called, kept.cliCount, call_panics kept.held⟩
    · exact .inl hangs

def booted : HeapMachine Unit where
  kernel :=
    { processor := fun _ => ⟨⟨0, false, true⟩, [], [], 0, none⟩
      owner := fun _ => none
      contexts := fun _ => none }
  heap := bootRun.state.heap

theorem booted_ready : booted.Ready :=
  ⟨rfl, (HeapInv.boot rfl).shape⟩

theorem booted_vaStart : booted.heap.vaStart = kernelHeapStart :=
  HeapInv.vaStart (.boot rfl)

theorem booted_kalloc_neutral : booted.Neutral () (.kalloc (2 ^ 29)) := by
  obtain ⟨j, free⟩ := bootRun_freeFor
  exact ((heapCalls_neutral_iff booted_ready).1 () _).mpr
    ⟨j, free.reaches (MarkInv.of_reachable (.base bootRun_boot))⟩

theorem booted_too_large : ¬(HeapRequest.kalloc (2 ^ 31 + 1)).Served booted.heap := by
  rintro ⟨j, reaches⟩
  have fits := (reaches.opened 0 (.refl 0) (above_zero j)).2.1
  rw [booted_ready.shape.sizes 0 (by decide)] at fits
  have root : nodeSize 0 = 2 ^ 31 := rfl
  omega

theorem booted_null : ¬(HeapRequest.kfree 0).Served booted.heap := by
  rintro ⟨above, -⟩
  rw [booted_vaStart] at above
  exact absurd above (by decide)

/-- A request for more than the heap, and `kfree(NULL)`: both return with the lock, and the next
call panics. -/
theorem heapCalls_not_neutral : booted.Ready ∧
    ¬booted.Neutral () (.kalloc (2 ^ 31 + 1)) ∧ ¬booted.Neutral () (.kfree 0) ∧
    (∃ t, booted.call () (.kalloc (2 ^ 31 + 1)) = .ok t ∧ Kept booted t () ∧
      t.call () (.kalloc 64) = .error (.panic deadlockMessage)) ∧
    ∃ t, booted.call () (.kfree 0) = .ok t ∧ Kept booted t () ∧
      t.call () (.kalloc 64) = .error (.panic deadlockMessage) := by
  have below : 0 < booted.heap.vaStart := by
    rw [booted_vaStart]
    decide
  refine ⟨booted_ready, ?_, ?_, ?_, ?_⟩
  · rw [neutral_iff booted_ready]
    exact booted_too_large
  · rw [neutral_iff booted_ready]
    exact booted_null
  · obtain ⟨t, called, kept⟩ := kalloc_unserved (c := ()) booted_ready.free booted_too_large
    exact ⟨t, called, kept, call_panics kept.held _⟩
  · obtain ⟨t, called, kept⟩ := kfree_below (c := ()) booted_ready.free below
    exact ⟨t, called, kept, call_panics kept.held _⟩

end HeapMachine

end SwagOS.Kernel
