import SwagOS.Kernel.UserMemory.Regions
import SwagOS.Mem.KernelHeap.Supply

/-!
# The records of the used pages

`map_4kb_page_user` takes a record for the page from the kernel heap, and fills it before it
asks whether it got one.  So a process gets as many pages as the heap has blocks left.
-/

namespace SwagOS.Kernel

open SwagOS.Lib SwagOS.DataStructures SwagOS.Mem ThreadPagetables

/-- `sizeof(struct proc_used_page_entry)` -/
def usedPageEntrySize : Nat := 48

def pageUses (pages : Nat) : List HeapUse := List.replicate pages (.kalloc usedPageEntrySize)

theorem pageUses_small {pages : Nat} : ∀ use ∈ pageUses pages, use.Small := by
  intro use member
  obtain ⟨-, rfl⟩ := List.mem_replicate.mp member
  decide

theorem heapRequests_pageUses (cached : Nat → Bool) (pages : Nat) :
    heapRequests cached (pageUses pages) = pages := by
  induction pages with
  | zero => rfl
  | succ pages inductionHypothesis =>
    rw [pageUses, List.replicate_succ, heapRequests]
    exact congrArg Nat.succ inductionHypothesis

namespace UserMemory

def map4kbPageUserOnHeap (base : Nat) (mem : UserMemory)
    (virtualAddress physicalAddress pdtTableIndex pdTableIndex : Nat) : OnHeap UserMemory := do
  let pgdir ← StateT.lift
    (mem.pgdir.map4kbPageUser base virtualAddress physicalAddress pdtTableIndex pdTableIndex)
  let _ ← kallocOrPanic "Page Fault Interrupt" usedPageEntrySize
  let usedPages ← StateT.lift (mem.usedPages.pushHead fun _ =>
    ⟨pgRoundDown virtualAddress, physicalAddress, pdtTableIndex, pdTableIndex⟩)
  pure { mem with pgdir := pgdir, usedPages := usedPages }

/-- Calls of `map_4kb_page_user`, one after the other. -/
def mapAllOnHeap (base : Nat) : List (PagePlace × Nat) → UserMemory → OnHeap UserMemory
  | [], mem => pure mem
  | c :: rest, mem => do
      let mem ← mem.map4kbPageUserOnHeap base c.1.va c.2 c.1.pdtTableIndex c.1.pdTableIndex
      mapAllOnHeap base rest mem

def buildOnHeap (base region : Nat) (calls : List MapCall) (mem : UserMemory) :
    OnHeap UserMemory :=
  mapAllOnHeap base (calls.map fun call => (call.place region, call.frame))
    (mem.createPageTables base)

section OnHeap

variable {base region va frame pdt pd : Nat} {mem next : UserMemory} {s : KernelSupply}

theorem map4kbPageUserOnHeap_served {s' : KernelSupply} (ready : HeapReady s)
    (done : mem.map4kbPageUser base va frame pdt pd = .ok next)
    (served : s.request usedPageEntrySize = some s') :
    mem.map4kbPageUserOnHeap base va frame pdt pd s = .ok (next, s') := by
  obtain ⟨pgdir, mapped, done⟩ := Outcome.bind_ok.mp done
  obtain ⟨usedPages, pushed, done⟩ := Outcome.bind_ok.mp done
  cases done
  rw [map4kbPageUserOnHeap, mapped, Consumer.lift_bind, kallocOrPanic]
  obtain ⟨address, -, equation⟩ := kallocOr_served ready served
  rw [equation, pushed]
  rfl

theorem map4kbPageUserOnHeap_refused (ready : HeapReady s)
    (done : mem.map4kbPageUser base va frame pdt pd = .ok next)
    (refused : s.request usedPageEntrySize = none) :
    mem.map4kbPageUserOnHeap base va frame pdt pd s =
      .error (.panic "Page Fault Interrupt") := by
  obtain ⟨pgdir, mapped, -⟩ := Outcome.bind_ok.mp done
  rw [map4kbPageUserOnHeap, mapped, Consumer.lift_bind, kallocOrPanic]
  exact kallocOr_refused ready refused

theorem map4kbPageUserOnHeap_spends (done : mem.map4kbPageUser base va frame pdt pd = .ok next) :
    Spends KernelSupply.take HeapReady (mem.map4kbPageUserOnHeap base va frame pdt pd) next
      (pageUses 1) := by
  intro s ready result s'
  have taken : takeAll KernelSupply.take s (pageUses 1) = s.request usedPageEntrySize :=
    Option.bind_fun_some _
  rw [taken]
  cases served : s.request usedPageEntrySize with
  | none =>
    rw [map4kbPageUserOnHeap_refused ready done served]
    exact iff_of_false (fun never => by cases never) (fun never => by cases never.2)
  | some t =>
    rw [map4kbPageUserOnHeap_served ready done served]
    constructor
    · intro same
      cases same
      exact ⟨rfl, rfl⟩
    · rintro ⟨rfl, same⟩
      cases same
      rfl

theorem mapAllOnHeap_eq {calls : List (PagePlace × Nat)} (ready : HeapReady s)
    (done : mem.mapAll base calls = .ok next) :
    mapAllOnHeap base calls mem s =
      match takeAll KernelSupply.take s (pageUses calls.length) with
      | some s' => .ok (next, s')
      | none => .error (.panic "Page Fault Interrupt") := by
  induction calls generalizing mem s with
  | nil =>
    cases done
    rfl
  | cons c rest inductionHypothesis =>
    rw [mapAll, List.foldlM_cons] at done
    obtain ⟨first, mapped, done⟩ := Outcome.bind_ok.mp done
    have whole : mapAllOnHeap base (c :: rest) mem s =
        mem.map4kbPageUserOnHeap base c.1.va c.2 c.1.pdtTableIndex c.1.pdTableIndex s >>=
          fun found => mapAllOnHeap base rest found.1 found.2 := rfl
    rw [whole, List.length_cons, pageUses, List.replicate_succ, takeAll, KernelSupply.take]
    cases served : s.request usedPageEntrySize with
    | none =>
      rw [map4kbPageUserOnHeap_refused ready mapped served]
      rfl
    | some t =>
      have next := (request_some ready served).choose_spec.2.1
      rw [map4kbPageUserOnHeap_served ready mapped served]
      exact inductionHypothesis next done

theorem buildOnHeap_eq {calls : List MapCall} (ready : HeapReady s)
    (done : mem.build base region calls = .ok next) :
    (calls.length ≤ (freeBlocks s.heap.heap).card →
      ∃ s', mem.buildOnHeap base region calls s = .ok (next, s')) ∧
    ((freeBlocks s.heap.heap).card < calls.length →
      mem.buildOnHeap base region calls s = .error (.panic "Page Fault Interrupt")) := by
  have serves := serves_iff_card ready (@pageUses_small calls.length)
  rw [heapRequests_pageUses] at serves
  rw [buildOnHeap, mapAllOnHeap_eq ready done, List.length_map]
  constructor
  · intro few
    obtain ⟨s', taken⟩ := Option.isSome_iff_exists.mp (serves.mpr few)
    rw [taken]
    exact ⟨s', rfl⟩
  · intro many
    have refused : takeAll KernelSupply.take s (pageUses calls.length) = none :=
      Option.not_isSome_iff_eq_none.mp fun lasts => absurd (serves.mp lasts) (Nat.not_le_of_lt many)
    rw [refused]

end OnHeap

end UserMemory

/-- On every heap that is reached, different pages can be mapped in any order exactly as long as
the heap has a block for each record; then they are all that is mapped. -/
theorem userPages_translate {base region : Nat} {mem : UserMemory} {calls : List MapCall}
    {s : KernelSupply} (placed : Placed base) (inside : region < 512)
    (stacked : mem.usedPages.Stacked) (distinct : (calls.map MapCall.page).Nodup)
    (frames : ∀ call ∈ calls, IsFrame call.frame)
    (reached : Reachable HeapBoot HeapCall s.heap) (unlocked : s.heap.lockHeld = false) :
    ((∃ next s', mem.buildOnHeap base region calls s = .ok (next, s')) ↔
      calls.length ≤ (freeBlocks s.heap.heap).card) ∧
    ∀ next s', mem.buildOnHeap base region calls s = .ok (next, s') →
      ∀ view, Translates base region calls (next.pgdir.tableAt base view) := by
  obtain ⟨next, built, translates⟩ :=
    UserMemory.build_translates placed inside stacked distinct frames
  have ready : HeapReady s := .of_reachable reached unlocked
  obtain ⟨enough, short⟩ := UserMemory.buildOnHeap_eq ready built
  have few : ∀ next s', mem.buildOnHeap base region calls s = .ok (next, s') →
      calls.length ≤ (freeBlocks s.heap.heap).card := by
    intro next s' done
    by_contra many
    rw [short (Nat.lt_of_not_le many)] at done
    cases done
  constructor
  · constructor
    · rintro ⟨next, s', done⟩
      exact few next s' done
    · intro room
      obtain ⟨s', done⟩ := enough room
      exact ⟨next, s', done⟩
  · intro next' s' done
    obtain ⟨_, same⟩ := enough (few next' s' done)
    obtain ⟨rfl, -⟩ := Prod.mk.inj (Except.ok.inj (same.symm.trans done))
    exact translates

theorem userPages_translate_onePageEach : ∃ next s',
    UserMemory.unused.buildOnHeap 0x100000 2 onePageEach bootSupply = .ok (next, s') ∧
      ∀ view, Translates 0x100000 2 onePageEach (next.pgdir.tableAt 0x100000 view) := by
  have frames : ∀ call ∈ onePageEach, IsFrame call.frame := by
    intro call member
    simp only [onePageEach, List.mem_cons, List.not_mem_nil, or_false] at member
    rcases member with rfl | rfl | rfl
    all_goals constructor <;> decide
  have room : onePageEach.length ≤ (freeBlocks bootSupply.heap.heap).card := by
    rw [freeBlocks_boot bootRun_boot]
    decide
  obtain ⟨returns, translates⟩ := @userPages_translate 0x100000 2 .unused onePageEach bootSupply
    (by constructor <;> decide) (by decide) (Dll.stacked_empty _) (by decide) frames
    bootSupply_reached rfl
  obtain ⟨next, s', done⟩ := returns.mpr room
  exact ⟨next, s', done, translates next s' done⟩

def wholeHeap : List MapCall :=
  (List.finRange 32768).map fun k => ⟨.heap k, ⟨0, Nat.two_pow_pos 12⟩, 0x40000000 + k * pgSize⟩

theorem wholeHeap_distinct : (wholeHeap.map MapCall.page).Nodup := by
  rw [wholeHeap, List.map_map]
  refine (List.nodup_map_iff ?_).mpr (List.nodup_finRange _)
  intro k k' same
  exact UserPage.heap.inj same

theorem wholeHeap_frames : ∀ call ∈ wholeHeap, IsFrame call.frame := by
  intro call member
  obtain ⟨k, -, rfl⟩ := List.mem_map.mp member
  have inside := k.isLt
  constructor
  all_goals
    dsimp only [pgSize]
    omega

/-- A process does not get all pages of its heap, not even from a kernel heap that is unused. -/
theorem wholeHeap_exhausts : (wholeHeap.map MapCall.page).Nodup ∧
    (∀ call ∈ wholeHeap, IsFrame call.frame) ∧ Reachable HeapBoot HeapCall bootSupply.heap ∧
    UserMemory.unused.buildOnHeap 0x100000 2 wholeHeap bootSupply =
      .error (.panic "Page Fault Interrupt") := by
  obtain ⟨next, built, -⟩ := @UserMemory.build_translates 0x100000 2 .unused wholeHeap
    (by constructor <;> decide) (by decide) (Dll.stacked_empty _) wholeHeap_distinct
    wholeHeap_frames
  have many : (freeBlocks bootSupply.heap.heap).card < wholeHeap.length := by
    rw [freeBlocks_boot bootRun_boot, wholeHeap, List.length_map, List.length_finRange]
    decide
  exact ⟨wholeHeap_distinct, wholeHeap_frames, bootSupply_reached,
    (UserMemory.buildOnHeap_eq (.of_reachable bootSupply_reached rfl) built).2 many⟩

end SwagOS.Kernel
