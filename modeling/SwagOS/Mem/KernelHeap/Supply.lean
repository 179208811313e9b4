import Mathlib.Data.Finset.Card
import Mathlib.Order.Interval.Finset.Nat
import SwagOS.Lib.Supply
import SwagOS.Mem.KernelHeap.FirstFit
import SwagOS.Mem.KernelHeap.Reclamation

/-!
# The kernel heap as a supply

Code that calls `kalloc` takes from the heap, and `kfree` gives nothing back.  A `bread` takes an
`ide_request` from the heap where its sector is not in the cache.  A request of up to 64 KB takes
one of the 16384 smallest blocks, and is served as long as one is left.
-/

namespace SwagOS.Mem

open SwagOS.Lib SwagOS.Lib.ArrayTree

/-- The heap, and whether each `bread` to come finds its sector in the cache. -/
structure KernelSupply where
  heap : HeapState
  cached : Nat → Bool

inductive HeapUse where
  | kalloc (size : Nat)
  | bread
  deriving DecidableEq, Repr

/-- `sizeof(ide_request)` -/
def ideRequestSize : Nat := 24

namespace KernelSupply

def request (s : KernelSupply) (size : Nat) : Option KernelSupply :=
  match kheapRequest s.heap.heap size with
  | (none, _) => none
  | (some _, heap) => some { s with heap := { s.heap with heap := heap } }

def lookup (s : KernelSupply) : KernelSupply := { s with cached := fun n => s.cached (n + 1) }

def take (s : KernelSupply) : HeapUse → Option KernelSupply
  | .kalloc size => s.request size
  | .bread => if s.cached 0 then some s.lookup else s.lookup.request ideRequestSize

def Serves (s : KernelSupply) (uses : List HeapUse) : Prop := (takeAll take s uses).isSome = true

instance (s : KernelSupply) (uses : List HeapUse) : Decidable (s.Serves uses) :=
  inferInstanceAs (Decidable (_ = true))

def Lasts (s : KernelSupply) (uses : List HeapUse) : Prop :=
  s.heap.lockHeld = false ∧ s.Serves uses

end KernelSupply

section Computations

variable {V : Type} (stop : Halt → V)

/-- `kalloc`, with what the caller does when it gets a null pointer. -/
def kallocOr (failure : V) (size : Nat) : Consumer KernelSupply V Nat := fun s =>
  match kalloc s.heap size with
  | .error why => throw (stop why)
  | .ok (none, _) => throw failure
  | .ok (some address, heap) => pure (address, { s with heap := heap })

/-- `kalloc` for a caller that goes on with a null pointer. -/
def kallocOrNull (size : Nat) : Consumer KernelSupply V (Option Nat) := fun s =>
  match kalloc s.heap size with
  | .error why => throw (stop why)
  | .ok (result, heap) => pure (result, { s with heap := heap })

def kfreeOnHeap (address : Nat) : Consumer KernelSupply V Unit := fun s =>
  match kfree s.heap address with
  | .error why => throw (stop why)
  | .ok (_, heap) => pure ((), { s with heap := heap })

/-- The request that `bread` makes for a sector that is not in the cache; `ideintr` frees it. -/
def breadOnHeap : Consumer KernelSupply V Unit := fun s =>
  if s.cached 0 then pure ((), s.lookup)
  else (do
    let req ← kallocOr stop (stop (.panic "iderw() --> kalloc returned NULL!\n")) ideRequestSize
    kfreeOnHeap stop req) s.lookup

end Computations

abbrev OnHeap (α : Type) := Consumer KernelSupply Halt α

def kallocOrPanic (message : String) (size : Nat) : OnHeap Nat :=
  kallocOr id (.panic message) size

/-- The heap of a run, with its lock free. -/
structure HeapReady (s : KernelSupply) : Prop where
  marks : MarkInv s.heap.heap
  unlocked : s.heap.lockHeld = false

/-- An address that `kalloc` has returned. -/
structure Handed (address : Nat) (s : KernelSupply) : Prop where
  root : (s.heap.heap.heapTree 0).inUse = true
  low : kernelHeapStart ≤ address
  high : address < kernelHeapStart + 2 ^ 31

theorem HeapReady.of_reachable {s : KernelSupply} (reached : Reachable HeapBoot HeapCall s.heap)
    (unlocked : s.heap.lockHeld = false) : HeapReady s :=
  ⟨.of_reachable reached, unlocked⟩

section Rules

variable {V α β : Type} {stop : Halt → V} {failure : V} {P : KernelSupply → Prop}
  {s s' : KernelSupply} {size address : Nat}

theorem kalloc_of_unlocked {heap : HeapState} (unlocked : heap.lockHeld = false) :
    kalloc heap size =
      match kheapRequest heap.heap size with
      | (none, after) => .ok (none, ⟨after, true⟩)
      | (some address, after) => .ok (some address, ⟨after, false⟩) := by
  have acquired : heap.acquire = .ok { heap with lockHeld := true } := by
    rw [HeapState.acquire, unlocked]
    rfl
  simp only [kalloc, acquired, bind, Except.bind]
  generalize kheapRequest heap.heap size = searched
  obtain ⟨found, after⟩ := searched
  cases found with
  | none => rfl
  | some address => rfl

theorem request_some (ready : HeapReady s) (served : s.request size = some s') :
    ∃ address, kalloc s.heap size = .ok (some address, s'.heap) ∧ HeapReady s' ∧
      Handed address s' ∧ s'.cached = s.cached := by
  have spec := findHeapFrame_taken ready.marks size
  rw [kalloc_of_unlocked ready.unlocked]
  simp only [KernelSupply.request, kheapRequest] at served ⊢
  generalize findHeapFrame s.heap.heap size 0 = searched at spec served ⊢
  obtain ⟨_ | address, after⟩ := searched
  · cases served
  · cases served
    obtain ⟨j, -, -, taken, large, located⟩ := spec
    have last := node_end_le taken.inside
    have positive := nodeSize_pos j
    have wrap : kernelHeapStart + 2 ^ 31 < 2 ^ 64 := by decide
    rw [Nat.add_mul, Nat.one_mul] at last
    rw [ready.marks.offsets j taken.inside, ready.marks.vaStart,
      Nat.mod_eq_of_lt (by omega)] at located
    refine ⟨address, ?_, ⟨ready.marks.taken taken large, ready.unlocked⟩, ⟨?_, ?_, ?_⟩, rfl⟩
    · rw [ready.unlocked]
    · exact (taken.inUse 0).mpr (.inr ⟨.refl 0, above_zero j⟩)
    · omega
    · omega

theorem kallocOr_unlocked {f : Nat → Consumer KernelSupply V β} {b : β}
    (done : (kallocOr stop failure size >>= f) s = .ok (b, s')) : s.heap.lockHeld = false := by
  obtain ⟨address, t, first, -⟩ := Consumer.bind_ok.mp done
  by_contra held
  have refused : kalloc s.heap size =
      .error (.panic "acquire_Spinlock() --> encountered deadlock situation.") := by
    rw [kalloc, HeapState.acquire, if_pos (by simpa using held)]
    rfl
  rw [kallocOr, refused] at first
  cases first

theorem request_none (ready : HeapReady s) (refused : s.request size = none) :
    ∃ heap, kalloc s.heap size = .ok (none, heap) := by
  rw [kalloc_of_unlocked ready.unlocked]
  simp only [KernelSupply.request] at refused
  generalize kheapRequest s.heap.heap size = searched at refused ⊢
  obtain ⟨_ | address, after⟩ := searched
  · exact ⟨_, rfl⟩
  · cases refused

theorem HeapReady.lookup (ready : HeapReady s) : HeapReady s.lookup := ⟨ready.marks, ready.unlocked⟩

theorem heapReady_lasting : Lasting KernelSupply.take HeapReady := by
  intro s use s' ready taken
  cases use with
  | kalloc size => exact (request_some ready taken).choose_spec.2.1
  | bread =>
    rw [KernelSupply.take] at taken
    split at taken
    next => exact Option.some.inj taken ▸ ready.lookup
    next => exact (request_some ready.lookup taken).choose_spec.2.1

theorem request_handed (handed : Handed address s) (served : s.request size = some s') :
    Handed address s' := by
  have spec := findHeapFrame_spec s.heap.heap size 0
  simp only [KernelSupply.request, kheapRequest] at served
  generalize findHeapFrame s.heap.heap size 0 = searched at spec served
  obtain ⟨_ | found, after⟩ := searched
  · cases served
  · cases served
    obtain ⟨j, taken, -⟩ := spec
    exact ⟨(taken.inUse 0).mpr (.inl handed.root), handed.low, handed.high⟩

theorem handed_lasting (address : Nat) : Lasting KernelSupply.take (Handed address) := by
  intro s use s' handed taken
  cases use with
  | kalloc size => exact request_handed handed taken
  | bread =>
    have looked : Handed address s.lookup := ⟨handed.root, handed.low, handed.high⟩
    rw [KernelSupply.take] at taken
    split at taken
    next => exact Option.some.inj taken ▸ looked
    next => exact request_handed looked taken

theorem kfreeOnHeap_ok (ready : HeapReady s) (handed : Handed address s) :
    (kfreeOnHeap stop address : Consumer KernelSupply V Unit) s = .ok ((), s) := by
  obtain ⟨offset, rfl⟩ := Nat.exists_eq_add_of_le handed.low
  have inside : offset < 2 ^ 31 := Nat.lt_of_add_lt_add_left handed.high
  rw [kfreeOnHeap, kfree_of_inUse ready.marks.toHeapInv ready.unlocked handed.root inside]
  rfl

theorem kallocOr_served {f : Nat → Consumer KernelSupply V β} (ready : HeapReady s)
    (served : s.request size = some s') : ∃ address, Handed address s' ∧
      (kallocOr stop failure size >>= f) s = f address s' := by
  obtain ⟨address, done, -, handed, same⟩ := request_some ready served
  refine ⟨address, handed, ?_⟩
  have here : (kallocOr stop failure size : Consumer KernelSupply V Nat) s = .ok (address, s') := by
    rw [kallocOr, done, ← same]
    rfl
  change (kallocOr stop failure size s >>= fun found => f found.1 found.2) = f address s'
  rw [here]
  rfl

theorem kallocOr_refused {f : Nat → Consumer KernelSupply V β} (ready : HeapReady s)
    (refused : s.request size = none) : (kallocOr stop failure size >>= f) s = .error failure := by
  obtain ⟨heap, null⟩ := request_none ready refused
  change (kallocOr stop failure size s >>= fun found => f found.1 found.2) = .error failure
  rw [kallocOr, null]
  rfl

/-- A request and the rest, which may free what it got. -/
theorem spends_kalloc {f : Nat → Consumer KernelSupply V β} {b : β} {uses : List HeapUse}
    (lasting : Lasting KernelSupply.take P) (ready : ∀ s, P s → HeapReady s)
    (rest : ∀ address, Spends KernelSupply.take (fun s => P s ∧ Handed address s) (f address) b uses) :
    Spends KernelSupply.take P (kallocOr stop failure size >>= f) b (.kalloc size :: uses) := by
  intro s holds b' s'
  rw [takeAll, KernelSupply.take]
  cases served : s.request size with
  | none =>
    rw [kallocOr_refused (ready s holds) served]
    refine iff_of_false (fun never => by cases never) ?_
    rintro ⟨-, never⟩
    cases never
  | some t =>
    obtain ⟨address, handed, same⟩ := kallocOr_served (ready s holds) served
    have kept : P t := lasting s (.kalloc size) t holds served
    rw [same, Option.bind_some]
    exact rest address t ⟨kept, handed⟩ b' s'

/-- With enough fuel, what starts with a request returns exactly if the lock is free and the heap
lasts, and then its result. -/
theorem returns_iff_heapLasts {x : Nat → Consumer KernelSupply V α} {a : α} {uses : List HeapUse}
    (starts : ∀ fuel, ∃ f, x fuel = kallocOr stop failure size >>= f)
    (reached : Reachable HeapBoot HeapCall s.heap)
    (spends : Eventually fun fuel => Spends KernelSupply.take HeapReady (x fuel) a uses) (b : α) :
    (∃ s', Eventually fun fuel => x fuel s = .ok (b, s')) ↔ b = a ∧ s.Lasts uses := by
  constructor
  · rintro ⟨s', least, done⟩
    have unlocked : s.heap.lockHeld = false := by
      obtain ⟨f, start⟩ := starts least
      have first : x least s = .ok (b, s') := done least (Nat.le_refl _)
      rw [start] at first
      exact kallocOr_unlocked first
    obtain ⟨same, taken⟩ :=
      (returns_iff_lasts spends (.of_reachable reached unlocked)).mp ⟨least, done⟩
    exact ⟨same, unlocked, Option.isSome_iff_exists.mpr ⟨s', taken⟩⟩
  · rintro ⟨same, unlocked, serves⟩
    obtain ⟨s', taken⟩ := Option.isSome_iff_exists.mp serves
    exact ⟨s', (returns_iff_lasts spends (.of_reachable reached unlocked)).mpr ⟨same, taken⟩⟩

theorem kfreeOnHeap_bind {f : Unit → Consumer KernelSupply V β} (ready : HeapReady s)
    (handed : Handed address s) : (kfreeOnHeap stop address >>= f) s = f () s := by
  have freed : (kfreeOnHeap stop address : Consumer KernelSupply V Unit) s = .ok ((), s) :=
    kfreeOnHeap_ok ready handed
  change (kfreeOnHeap stop address s >>= fun found => f found.1 found.2) = f () s
  rw [freed]
  rfl

theorem spends_kfree {f : Unit → Consumer KernelSupply V β} {b : β} {uses : List HeapUse}
    (ready : ∀ s, P s → HeapReady s ∧ Handed address s)
    (rest : Spends KernelSupply.take P (f ()) b uses) :
    Spends KernelSupply.take P (kfreeOnHeap stop address >>= f) b uses := by
  intro s holds b' s'
  obtain ⟨isReady, handed⟩ := ready s holds
  rw [kfreeOnHeap_bind isReady handed]
  exact rest s holds b' s'

theorem spends_bread (ready : ∀ s, P s → HeapReady s) :
    Spends KernelSupply.take P (breadOnHeap stop) () [.bread] := by
  intro s holds u s'
  have lookup := (ready s holds).lookup
  rw [breadOnHeap, takeAll, KernelSupply.take]
  by_cases known : s.cached 0 = true
  · rw [if_pos known, if_pos known, Option.bind_some, takeAll, Option.some.injEq]
    constructor
    · intro done
      cases done
      exact ⟨rfl, rfl⟩
    · rintro ⟨rfl, rfl⟩
      rfl
  · rw [if_neg known, if_neg known]
    have spends := @spends_kalloc V Unit stop (stop (.panic "iderw() --> kalloc returned NULL!\n"))
      HeapReady ideRequestSize (fun req => kfreeOnHeap stop req >>= pure) () [] heapReady_lasting
      (fun _ ready => ready) fun address =>
        spends_kfree (fun _ both => both) (.pure ())
    have whole := spends s.lookup lookup u s'
    rw [takeAll, KernelSupply.take] at whole
    simpa only [bind_pure] using whole

end Rules

def freeBlocks (heap : KernelHeap) : Finset Nat :=
  (Finset.Ico (2 ^ 14) (2 ^ 15)).filter fun j => ∀ d < 16, (heap.heapTree (j / 2 ^ d)).occupied = false

def HeapUse.Small : HeapUse → Prop
  | .kalloc size => size ≤ kernelHeapMinblock
  | .bread => True

instance : DecidablePred HeapUse.Small
  | .kalloc size => inferInstanceAs (Decidable (size ≤ kernelHeapMinblock))
  | .bread => inferInstanceAs (Decidable True)

/-- The requests among the uses: every `kalloc`, and the `bread`s that miss the cache. -/
def heapRequests (cached : Nat → Bool) : List HeapUse → Nat
  | [] => 0
  | .kalloc _ :: uses => heapRequests cached uses + 1
  | .bread :: uses => heapRequests (fun n => cached (n + 1)) uses + if cached 0 then 0 else 1

section Counting

variable {heap : KernelHeap} {s s' : KernelSupply} {size j : Nat}

theorem mem_freeBlocks : j ∈ freeBlocks heap ↔
    (2 ^ 14 ≤ j ∧ j < 2 ^ 15) ∧ ∀ k, Above k j → (heap.heapTree k).occupied = false := by
  rw [freeBlocks, Finset.mem_filter, Finset.mem_Ico]
  refine and_congr_right fun bounds => ?_
  constructor
  · rintro clear k ⟨d, rfl⟩
    by_cases shallow : d < 16
    · exact clear d shallow
    · have root : j / 2 ^ d = j / 2 ^ 15 := by
        rw [Nat.div_eq_of_lt bounds.2, Nat.div_eq_of_lt]
        exact bounds.2.trans (Nat.pow_lt_pow_right (by decide) (by omega))
      rw [root]
      exact clear 15 (by decide)
  · exact fun clear d _ => clear _ ⟨d, rfl⟩

theorem sizeLog_smallest (bounds : 2 ^ 14 ≤ j ∧ j < 2 ^ 15) : sizeLog j = 16 := by
  have level : Nat.log 2 j = 14 := Nat.log_eq_of_pow_le_of_lt_pow bounds.1 bounds.2
  rw [sizeLog, if_neg (by omega), level]

theorem level_of_sizeLog (smallest : sizeLog j = 16) : 2 ^ 14 ≤ j ∧ j < 2 ^ 15 := by
  rw [sizeLog] at smallest
  split at smallest
  · omega
  · next positive =>
    have level : Nat.log 2 j = 14 := by omega
    exact (Nat.log_eq_iff (.inl (by decide))).mp level

theorem MarkInv.freeFor_iff (inv : MarkInv heap) (small : size ≤ kernelHeapMinblock) :
    FreeFor heap size j ↔ j ∈ freeBlocks heap := by
  have floor : max size kernelHeapMinblock = 2 ^ 16 := by
    rw [max_eq_right small, kernelHeapMinblock_eq_pow]
  rw [mem_freeBlocks]
  constructor
  · intro free
    refine ⟨?_, free.ancestors⟩
    have smallest := free.smallest
    rw [inv.sizes j free.inside, floor] at smallest
    have atMost : nodeSize j ≤ 2 ^ 16 :=
      smallest.2 ⟨⟨2 ^ 14, by decide, by rw [inv.sizes _ (by decide)]; decide⟩, le_refl _⟩
    apply level_of_sizeLog
    exact le_antisymm (nodeSize_le_iff.mp atMost) (le_nodeSize_iff.mp smallest.1.2)
  · rintro ⟨bounds, clear⟩
    have inside : j < kernelHeapLen := bounds.2.trans (by decide)
    have log := sizeLog_smallest bounds
    have exact16 : (heap.heapTree j).size = 2 ^ 16 := by
      rw [inv.sizes j inside, nodeSize_eq_pow, log]
    refine ⟨inside, ?_, clear, ?_⟩
    · rw [floor, exact16]
      exact ⟨⟨⟨j, inside, exact16⟩, le_refl _⟩, fun block atLeast => atLeast.2⟩
    · intro k insideK below
      by_cases same : j = k
      · rw [← same]
        exact clear j (.refl j)
      · by_contra occupied
        have large := inv.large k insideK (by simpa using occupied)
        have smaller := sizeLog_lt below same insideK
        omega

theorem freeBlocks_taken {after : KernelHeap} (taken : Taken heap after size 0 j)
    (free : j ∈ freeBlocks heap) : freeBlocks after = (freeBlocks heap).erase j := by
  have bounds := (mem_freeBlocks.mp free).1
  ext i
  rw [Finset.mem_erase, mem_freeBlocks, mem_freeBlocks]
  have occupied : ∀ k, (after.heapTree k).occupied = false ↔
      (heap.heapTree k).occupied = false ∧ k ≠ j := by
    intro k
    have iff := taken.occupied_iff k
    cases before : (heap.heapTree k).occupied <;> cases later : (after.heapTree k).occupied <;>
      simp_all
  constructor
  · rintro ⟨level, clear⟩
    refine ⟨?_, level, fun k above => ((occupied k).mp (clear k above)).1⟩
    exact ((occupied i).mp (clear i (.refl i))).2
  · rintro ⟨different, level, clear⟩
    refine ⟨level, fun k above => (occupied k).mpr ⟨clear k above, ?_⟩⟩
    rintro rfl
    have log := sizeLog_lt above different.symm (level.2.trans (by decide))
    rw [sizeLog_smallest level, sizeLog_smallest bounds] at log
    exact absurd log (by decide)

/-- A small request is refused exactly when no block is left, and takes one otherwise. -/
theorem request_small (ready : HeapReady s) (small : size ≤ kernelHeapMinblock) :
    match s.request size with
    | none => freeBlocks s.heap.heap = ∅
    | some s' => (freeBlocks s'.heap.heap).card + 1 = (freeBlocks s.heap.heap).card ∧
        s'.cached = s.cached := by
  have spec := findHeapFrame_taken ready.marks size
  simp only [KernelSupply.request, kheapRequest]
  generalize findHeapFrame s.heap.heap size 0 = searched at spec
  obtain ⟨_ | address, after⟩ := searched
  · rw [Finset.eq_empty_iff_forall_notMem]
    exact fun j free => spec.2 j ((ready.marks.freeFor_iff small).mpr free)
  · obtain ⟨j, free, -, taken, -, -⟩ := spec
    have member := (ready.marks.freeFor_iff small).mp free
    refine ⟨?_, rfl⟩
    rw [freeBlocks_taken taken member]
    exact Finset.card_erase_add_one member

/-- The heap lasts for small uses exactly as long as it has a block for each request. -/
theorem serves_iff_card {uses : List HeapUse} (ready : HeapReady s)
    (small : ∀ use ∈ uses, use.Small) :
    s.Serves uses ↔ heapRequests s.cached uses ≤ (freeBlocks s.heap.heap).card := by
  induction uses generalizing s with
  | nil => exact iff_of_true rfl (Nat.zero_le _)
  | cons use uses inductionHypothesis =>
    obtain ⟨here, rest⟩ := List.forall_mem_cons.mp small
    rw [KernelSupply.Serves, takeAll]
    cases use with
    | kalloc size =>
      have spec := request_small ready here
      rw [KernelSupply.take, heapRequests]
      cases served : s.request size with
      | none =>
        rw [served] at spec
        rw [spec, Finset.card_empty]
        exact iff_of_false Bool.false_ne_true (Nat.not_succ_le_zero _)
      | some t =>
        rw [served] at spec
        have next := inductionHypothesis (heapReady_lasting s (.kalloc size) t ready served) rest
        rw [Option.bind_some, ← spec.1, Nat.add_le_add_iff_right, ← spec.2]
        exact next
    | bread =>
      rw [KernelSupply.take, heapRequests]
      by_cases known : s.cached 0 = true
      · rw [if_pos known, if_pos known, Option.bind_some, Nat.add_zero]
        exact inductionHypothesis ready.lookup rest
      · have spec := request_small ready.lookup (show ideRequestSize ≤ kernelHeapMinblock by decide)
        rw [if_neg known, if_neg known]
        cases served : s.lookup.request ideRequestSize with
        | none =>
          rw [served] at spec
          rw [show freeBlocks s.heap.heap = ∅ from spec, Finset.card_empty]
          exact iff_of_false Bool.false_ne_true (Nat.not_succ_le_zero _)
        | some t =>
          rw [served] at spec
          have next := inductionHypothesis
            (heapReady_lasting s.lookup (.kalloc ideRequestSize) t ready.lookup served) rest
          rw [Option.bind_some, show freeBlocks s.heap.heap = freeBlocks s.lookup.heap.heap from rfl,
            ← spec.1, Nat.add_le_add_iff_right]
          rw [spec.2] at next
          exact next

/-- The heap that boots has a block for each of 16384 requests. -/
theorem freeBlocks_boot (booted : HeapBoot s.heap) : (freeBlocks s.heap.heap).card = 2 ^ 14 := by
  obtain ⟨-, memory, -, built⟩ := booted
  have all : freeBlocks s.heap.heap = Finset.Ico (2 ^ 14) (2 ^ 15) := by
    rw [freeBlocks, Finset.filter_eq_self]
    intro j inside d _
    have bound : j / 2 ^ d < kernelHeapLen :=
      (Nat.div_le_self _ _).trans_lt ((Finset.mem_Ico.mp inside).2.trans (by decide))
    rw [built, (kernelHeapTreeInit_boot memory).2 _ bound]
    simp [initialSection, HeapSection.occupied]
  rw [all, Nat.card_Ico]
  decide

def bootSupply : KernelSupply := ⟨bootRun.state, fun _ => false⟩

theorem bootSupply_reached : Reachable HeapBoot HeapCall bootSupply.heap := .base bootRun_boot

theorem bootSupply_lasts {uses : List HeapUse} (small : ∀ use ∈ uses, use.Small)
    (few : heapRequests (fun _ => false) uses ≤ 2 ^ 14) : bootSupply.Lasts uses := by
  refine ⟨rfl, (serves_iff_card (.of_reachable bootSupply_reached rfl) small).mpr ?_⟩
  rw [freeBlocks_boot bootRun_boot]
  exact few

theorem reached_takeAll {uses : List HeapUse} (reached : Reachable HeapBoot HeapCall s.heap)
    (unlocked : s.heap.lockHeld = false) (words : ∀ size, .kalloc size ∈ uses → size < 2 ^ 64)
    (taken : takeAll KernelSupply.take s uses = some s') :
    Reachable HeapBoot HeapCall s'.heap ∧ s'.heap.lockHeld = false := by
  induction uses generalizing s with
  | nil => exact Option.some.inj taken ▸ ⟨reached, unlocked⟩
  | cons use uses inductionHypothesis =>
    obtain ⟨t, first, rest⟩ := Option.bind_eq_some_iff.mp taken
    have ready : HeapReady s := .of_reachable reached unlocked
    have later : ∀ size, .kalloc size ∈ uses → size < 2 ^ 64 :=
      fun size member => words size (List.mem_cons_of_mem _ member)
    have served : ∀ size : Nat, ∀ cached : KernelSupply, size < 2 ^ 64 → cached.heap = s.heap →
        cached.request size = some t → Reachable HeapBoot HeapCall s'.heap ∧
          s'.heap.lockHeld = false := by
      intro size cached word same request
      have isReady : HeapReady cached := ⟨same ▸ ready.marks, same ▸ ready.unlocked⟩
      obtain ⟨address, called, next, -⟩ := request_some isReady request
      rw [same] at called
      exact inductionHypothesis (reached.next (.kalloc word called)) next.unlocked later rest
    cases use with
    | kalloc size => exact served size s (words size List.mem_cons_self) rfl first
    | bread =>
      rw [KernelSupply.take] at first
      split at first
      next =>
        have looked : s.lookup = t := Option.some.inj first
        exact inductionHypothesis (looked ▸ reached) (looked ▸ unlocked) later rest
      next => exact served ideRequestSize s.lookup (by decide) rfl first

/-- After 16384 requests no block is left, whatever was freed. -/
theorem exhausted_reached : ∃ s : KernelSupply, Reachable HeapBoot HeapCall s.heap ∧
    s.heap.lockHeld = false ∧ freeBlocks s.heap.heap = ∅ := by
  have ready : HeapReady bootSupply := .of_reachable bootSupply_reached rfl
  have small : ∀ n, ∀ use ∈ List.replicate n (HeapUse.kalloc 48), use.Small := by
    intro n use member
    obtain ⟨-, rfl⟩ := List.mem_replicate.mp member
    decide
  have count : ∀ n, heapRequests (fun _ => false) (List.replicate n (HeapUse.kalloc 48)) = n := by
    intro n
    induction n with
    | zero => rfl
    | succ n inductionHypothesis => rw [List.replicate_succ, heapRequests, inductionHypothesis]
  have lasts := (bootSupply_lasts (small (2 ^ 14)) (count (2 ^ 14)).le).2
  obtain ⟨s, taken⟩ := Option.isSome_iff_exists.mp lasts
  obtain ⟨reached, unlocked⟩ := reached_takeAll bootSupply_reached rfl (by
    intro size member
    obtain ⟨-, same⟩ := List.mem_replicate.mp member
    cases same
    decide) taken
  refine ⟨s, reached, unlocked, ?_⟩
  by_contra some
  -- With a block left, the heap would have lasted for one request more.
  have isReady : HeapReady s := .of_reachable reached unlocked
  have more : s.Serves [.kalloc 48] := by
    refine (serves_iff_card isReady (small 1)).mpr ?_
    exact Finset.card_pos.mpr (Finset.nonempty_of_ne_empty some)
  have all : bootSupply.Serves (List.replicate (2 ^ 14) (.kalloc 48) ++ [.kalloc 48]) := by
    rw [KernelSupply.Serves, takeAll_append, taken]
    exact more
  rw [← List.replicate_succ'] at all
  have bound := (serves_iff_card ready (small (2 ^ 14 + 1))).mp all
  rw [freeBlocks_boot bootRun_boot] at bound
  have counted : heapRequests bootSupply.cached (List.replicate (2 ^ 14 + 1) (.kalloc 48)) =
    2 ^ 14 + 1 := count _
  omega

end Counting

end SwagOS.Mem
