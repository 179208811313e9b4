import SwagOS.Kernel.ThreadTable.Exclusivity
import SwagOS.Kernel.UserMemory
import SwagOS.Lib.Ownership
import SwagOS.Mem.ChunkedFrames.Safety

/-!
# Process isolation

Every frame that a user page maps is allocated and mapped once.  The holders are the slots
of the page tables of all processes; while one process is changed, the others count as one
holder.  Frames come back through the used pages of a process, so each used page names a
page that the process maps.

`FreeUserHeapBits` breaks this: it frees the frame of the used page after the one that it
removes, and unmaps nothing.  The results here are about runs in which no `free` finds a
used page to remove.
-/

namespace SwagOS.Kernel

open SwagOS.Lib SwagOS.DataStructures SwagOS.Mem

namespace Space

variable {others : Nat → Prop} {base : Nat} {s s' : Space}

def holds (others : Nat → Prop) (s : Space) : Option (Nat × Nat) → Nat → Prop
  | none, frame => others frame
  | some slot, frame => s.mem.pgdir.Maps slot.1 slot.2 frame

/-- The used page in record `i` names a page that is mapped. -/
def Tracks (mem : UserMemory) (i : Nat) : Prop :=
  mem.pgdir.Maps (mem.usedPages.records i).data.pdTableIndex
    (ptIndex (mem.usedPages.records i).data.pageVa) (mem.usedPages.records i).data.pagePa

/-- The memory of one process in a system where the others hold frames. -/
structure Own (others : Nat → Prop) (s : Space) : Prop where
  valid : s.frames.Valid
  exclusive : Exclusive s.frames.Used (s.holds others)
  stacked : s.mem.usedPages.Stacked
  listed : ∀ i, s.mem.usedPages.Listed i → Tracks s.mem i

theorem Own.congr (own : s.Own others) (frames : FrameManagers) (mem : UserMemory)
    (valid : frames.Valid) (same : ∀ g, frames.Used g ↔ s.frames.Used g)
    (pgdir : mem.pgdir = s.mem.pgdir) (usedPages : mem.usedPages = s.mem.usedPages) :
    (⟨frames, mem⟩ : Space).Own others where
  valid := valid
  exclusive := by
    refine own.exclusive.shrink (fun {h r} held => ?_) fun _ isUsed => (same _).mpr isUsed
    cases h with
    | none => exact held
    | some slot =>
      simp only [holds, pgdir] at held
      exact held
  stacked := by
    rw [usedPages]
    exact own.stacked
  listed := by
    intro i listed
    rw [usedPages] at listed
    have tracked := own.listed i listed
    rw [Tracks, pgdir, usedPages]
    exact tracked

theorem used_lt {m : FrameManagers} (valid : m.Valid) {frame : Nat} (used : m.Used frame) :
    frame < 2 ^ 64 := by
  obtain ⟨c, inside, i, page, rfl, -⟩ := used
  obtain ⟨k, below, start, -⟩ := valid.owned c inside
  rw [start, hugePgSize, pgSize]
  rw [frameBound] at below
  omega

theorem ptIndex_pgRoundDown (va : Nat) : ptIndex (pgRoundDown va) = ptIndex va := by
  have same : pgRoundDown va >>> 12 = va >>> 12 := by
    rw [Nat.shiftRight_eq_div_pow, Nat.shiftRight_eq_div_pow, pgRoundDown, pgSize]
    omega
  rw [ptIndex, ptIndex, same]

theorem Own.map {frames : FrameManagers} {mem : UserMemory} {frame va a b : Nat}
    (own : s.Own others) (valid : frames.Valid) (fresh : ¬s.frames.Used frame)
    (grown : ∀ g, frames.Used g ↔ g = frame ∨ s.frames.Used g)
    (mapped : s.mem.map4kbPageUser base va frame a b = .ok mem) :
    (⟨frames, mem⟩ : Space).Own others := by
  rw [UserMemory.map4kbPageUser] at mapped
  obtain ⟨pgdir, tables, mapped⟩ := Outcome.bind_ok.mp mapped
  rw [own.stacked.pushHead_eq] at mapped
  obtain ⟨usedPages, ⟨⟩, ⟨⟩⟩ := Outcome.bind_ok.mp mapped
  have used : frames.Used frame := (grown frame).mpr (.inl rfl)
  have maps := ThreadPagetables.map4kbPageUser_maps (used.aligned valid) (used_lt valid used) tables
  let page : UsedPage := ⟨pgRoundDown va, frame, a, b⟩
  refine ⟨valid, ?_, own.stacked.pushed fun _ => page, fun i listed => ?_⟩
  · apply own.exclusive.grant (some (b, ptIndex va)) fresh grown
    intro h r held
    cases h with
    | none => exact .inl held
    | some slot =>
      rcases (maps slot.1 slot.2 r).mp held with before | ⟨first, second, same⟩
      · exact .inl before
      · exact .inr ⟨by rw [← first, ← second], same⟩
  · rcases own.stacked.pushed_listed (fun _ => page) listed with rfl | before
    · simp [Tracks, Dll.pushed, ptIndex_pgRoundDown, maps]
    · have old : i ≠ s.mem.usedPages.allocated := Nat.ne_of_lt (own.stacked.listed_lt before)
      simp only [Tracks, Dll.pushed, Function.update_of_ne old]
      exact (maps _ _ _).mpr (.inl (own.listed i before))

/-- The two results of a request: nothing has changed, or the frame may be mapped. -/
theorem Own.request {frames : FrameManagers} {frame : Option Nat} (own : s.Own others)
    (returned : s.frames.physicalFrameRequest4kb = .ok (frame, frames)) :
    frames.Valid ∧ ((frame = none ∧ ∀ g, frames.Used g ↔ s.frames.Used g) ∨
      ∃ f, frame = some f ∧ ¬s.frames.Used f ∧ ∀ g, frames.Used g ↔ g = f ∨ s.frames.Used g) :=
  FrameManagers.physicalFrameRequest4kb_spec own.valid returned

theorem Own.mapNewFrame {failure : String} {va a b : Nat} (own : s.Own others)
    (done : s.mapNewFrame failure base va a b = .ok s') : s'.Own others := by
  rw [Space.mapNewFrame] at done
  obtain ⟨⟨frame, frames⟩, returned, done⟩ := Outcome.bind_ok.mp done
  obtain ⟨valid, ⟨rfl, -⟩ | ⟨f, rfl, fresh, grown⟩⟩ := own.request returned
  · cases done
  · obtain ⟨mem, mapped, ⟨⟩⟩ := Outcome.bind_ok.mp done
    exact own.map valid fresh grown mapped

theorem Own.createUserProcessStack (own : s.Own others)
    (done : s.createUserProcessStack base = .ok s') : s'.Own others :=
  Outcome.foldlM_ok (P := fun s => s.Own others) (fun _ _ _ own step => own.mapNewFrame step) done own

theorem Own.elfLoadSegments {elf : ElfFile} {iRip : Nat} (own : s.Own others)
    (done : s.elfLoadSegments base elf = .ok (iRip, s')) : s'.Own others := by
  rw [Space.elfLoadSegments] at done
  split at done
  · cases done
    exact own
  · obtain ⟨space, loaded, ⟨⟩⟩ := Outcome.bind_ok.mp done
    refine Outcome.foldlM_ok (P := fun s => s.Own others) (fun s ph s' own step => ?_) loaded own
    rw [elfLoadSegment] at step
    split at step
    · cases step
      exact own
    · exact own.mapNewFrame step

theorem Own.copyPages {layout : Layout} {view : View} {new old : Nat} {oldMem : UserMemory}
    {fuel : Nat} {link : Link} (own : s.Own others)
    (done : s.copyPages layout view new old oldMem fuel link = .ok s') : s'.Own others := by
  induction fuel generalizing link s with
  | zero =>
    cases link with
    | record i => cases done
    | _ =>
      cases done
      exact own
  | succ fuel inductionHypothesis =>
    cases link with
    | record i =>
      rw [Space.copyPages] at done
      obtain ⟨⟨frame, frames⟩, returned, done⟩ := Outcome.bind_ok.mp done
      obtain ⟨valid, ⟨rfl, -⟩ | ⟨f, rfl, fresh, grown⟩⟩ := own.request returned
      · cases done
      · obtain ⟨-, -, done⟩ := Outcome.bind_ok.mp done
        obtain ⟨mem, mapped, done⟩ := Outcome.bind_ok.mp done
        obtain ⟨-, -, done⟩ := Outcome.bind_ok.mp done
        exact inductionHypothesis (own.map valid fresh grown mapped) done
    | _ =>
      cases done
      exact own

theorem Own.sbrkPages {pages : List (Nat × Nat)} {end_ : Nat} {last : Option Nat}
    (own : s.Own others) (done : s.sbrkPages base pages end_ = .ok (last, s')) :
    s'.Own others := by
  induction pages generalizing s end_ with
  | nil =>
    cases done
    exact own
  | cons page rest inductionHypothesis =>
    rw [Space.sbrkPages] at done
    obtain ⟨⟨frame, frames⟩, returned, done⟩ := Outcome.bind_ok.mp done
    obtain ⟨valid, ⟨rfl, same⟩ | ⟨f, rfl, fresh, grown⟩⟩ := own.request returned
    · cases done
      exact own.congr _ _ valid same rfl rfl
    · obtain ⟨mem, mapped, done⟩ := Outcome.bind_ok.mp done
      have marked := own.congr s.frames { s.mem with
        userHeapBitmap := Function.update s.mem.userHeapBitmap page.1
          (s.mem.userHeapBitmap page.1 ||| intBit page.2) } own.valid (fun _ => Iff.rfl) rfl rfl
      exact inductionHypothesis (marked.map valid fresh grown mapped) done

theorem Own.syshandlerSbrk {rsi : Nat} {rax : Option Nat} (own : s.Own others)
    (done : s.syshandlerSbrk base rsi = .ok (rax, s')) : s'.Own others := by
  rw [Space.syshandlerSbrk] at done
  split at done
  · cases done
    exact own
  · next scan last _ =>
    obtain ⟨⟨end_, space⟩, pages, done⟩ := Outcome.bind_ok.mp done
    have ownPages : space.Own others :=
      Own.sbrkPages (own.congr _ _ own.valid (fun _ => Iff.rfl) (by rfl) (by rfl)) pages
    cases end_ with
    | none =>
      cases done
      exact ownPages
    | some end_ =>
      obtain ⟨heapAllocations, inserted, ⟨⟩⟩ := Outcome.bind_ok.mp done
      exact ownPages.congr _ _ ownPages.valid (fun _ => Iff.rfl) rfl rfl

theorem procFreeUserPages_ok {fuel : Nat} {link : Link} (valid : s.frames.Valid)
    (stacked : s.mem.usedPages.Stacked) (first : s.mem.usedPages.first = link)
    (aligned : ∀ i, s.mem.usedPages.Listed i →
      (s.mem.usedPages.records i).data.pagePa % pgSize = 0)
    (done : s.procFreeUserPages fuel link = .ok s') :
    s'.frames.Valid ∧ s'.mem.usedPages.Stacked ∧ (∀ i, ¬s'.mem.usedPages.Listed i) ∧
      ∀ g, s.frames.Used g →
        (∀ i, s.mem.usedPages.Listed i → (s.mem.usedPages.records i).data.pagePa ≠ g) →
        s'.frames.Used g := by
  induction fuel generalizing link s with
  | zero =>
    cases link with
    | record i => cases done
    | _ =>
      cases done
      exact ⟨valid, stacked, Dll.not_listed (by simp [first]), fun g used _ => used⟩
  | succ fuel inductionHypothesis =>
    cases link with
    | record i =>
      have listed : s.mem.usedPages.Listed i := by
        rw [Dll.Listed, first]
        exact .here
      have below := stacked.listed_lt listed
      rw [Space.procFreeUserPages] at done
      obtain ⟨⟨freed, frames⟩, release, done⟩ := Outcome.bind_ok.mp done
      obtain ⟨freed', frames', release', validNext, -, -, -, -, kept⟩ :=
        FrameManagers.tryFreeChunkedFrame_spec valid (s.mem.usedPages.records i).data.pagePa
      cases release.symm.trans release'
      have removed := stacked.removeDllEntry_eq below
      have records : (s.mem.usedPages.removeDllEntry i).records = s.mem.usedPages.records := by
        rw [removed]
      have before : ∀ j, (s.mem.usedPages.removeDllEntry i).Listed j → s.mem.usedPages.Listed j :=
        fun j => stacked.removeDllEntry_listed listed
      obtain ⟨valid', stacked', empty, rest⟩ := inductionHypothesis
        (s := ⟨frames, { s.mem with usedPages := s.mem.usedPages.removeDllEntry i }⟩) validNext
        (stacked.removeDllEntry below) (by simp [removed]) (fun j later => by
          simp only [records]
          exact aligned j (before j later)) done
      refine ⟨valid', stacked', empty, fun g used notListed => rest g ?_ fun j later => ?_⟩
      · refine kept g used fun same => notListed i listed ?_
        rw [same, pgRoundDown, aligned i listed, Nat.sub_zero]
      · simp only [records]
        exact notListed j (before j later)
    | _ =>
      cases done
      exact ⟨valid, stacked, Dll.not_listed (by simp [first]), fun g used _ => used⟩

/-- A process that has released its memory, while the others keep theirs. -/
structure Released (others : Nat → Prop) (s : Space) : Prop where
  valid : s.frames.Valid
  others : ∀ g, others g → s.frames.Used g
  stacked : s.mem.usedPages.Stacked
  empty : ∀ i, ¬s.mem.usedPages.Listed i

theorem Own.processFree (own : s.Own others) (done : s.processFree = .ok s') :
    s'.Released others := by
  rw [Space.processFree] at done
  obtain ⟨space, pages, done⟩ := Outcome.bind_ok.mp done
  obtain ⟨heapAllocations, -, ⟨⟩⟩ := Outcome.bind_ok.mp done
  have tracked : ∀ i, s.mem.usedPages.Listed i →
      s.holds others (some ((s.mem.usedPages.records i).data.pdTableIndex,
        ptIndex (s.mem.usedPages.records i).data.pageVa))
        (s.mem.usedPages.records i).data.pagePa := own.listed
  obtain ⟨valid, stacked, empty, kept⟩ := procFreeUserPages_ok own.valid own.stacked rfl
    (fun i listed => (own.exclusive.allocated (tracked i listed)).aligned own.valid) pages
  refine ⟨valid, fun g held => ?_, stacked, empty⟩
  have heldByOthers : s.holds others none g := held
  apply kept g (own.exclusive.allocated heldByOthers)
  intro i listed same
  subst same
  cases own.exclusive.unique (tracked i listed) heldByOthers

theorem Released.create (released : s.Released others) (base : Nat) :
    Own others { s with mem := { s.mem with pgdir := .create base } } where
  valid := released.valid
  exclusive := by
    have nothing : ∀ slot frame,
        ¬(⟨s.frames, { s.mem with pgdir := .create base }⟩ : Space).holds others (some slot) frame :=
      fun slot frame => ThreadPagetables.create_maps base slot.1 slot.2 frame
    refine ⟨fun {h r} held => ?_, fun {h k r} first second => ?_⟩
    · cases h with
      | none => exact released.others r held
      | some slot => exact absurd held (nothing slot r)
    · cases h with
      | none =>
        cases k with
        | none => rfl
        | some slot => exact absurd second (nothing slot r)
      | some slot => exact absurd first (nothing slot r)
  stacked := released.stacked
  listed := fun i listed => absurd listed (released.empty i)

/-- `free(address)` finds no used page in the allocation of the address. -/
def FreesNoPage (address : Nat) (s : Space) : Prop :=
  ∀ i found, s.mem.heapAllocations.search (UserMemory.covers address)
      s.mem.heapAllocations.allocated s.mem.heapAllocations.first = .ok (some (i, found)) →
    ∀ j, s.mem.usedPages.Listed j →
      ¬((s.mem.usedPages.records j).data.pageVa ≥ (s.mem.heapAllocations.records i).data.start ∧
        (s.mem.usedPages.records j).data.pageVa ≤ (s.mem.heapAllocations.records i).data.end_)

theorem freeRange_outside {layout : Layout} {addrStart addrEnd fuel : Nat} {link : Link}
    (outside : ∀ j, s.mem.usedPages.From link j →
      ¬((s.mem.usedPages.records j).data.pageVa ≥ addrStart ∧
        (s.mem.usedPages.records j).data.pageVa ≤ addrEnd))
    (done : s.freeRange layout addrStart addrEnd fuel link = .ok s') : s' = s := by
  induction fuel generalizing link with
  | zero =>
    cases link with
    | record i => cases done
    | _ =>
      cases done
      rfl
  | succ fuel inductionHypothesis =>
    cases link with
    | record i =>
      rw [freeRange] at done
      simp only [outside i .here, ↓reduceIte] at done
      exact inductionHypothesis (fun j met => outside j (.next met)) done
    | _ =>
      cases done
      rfl

theorem Own.freeHeapAllocEntry {layout : Layout} {address : Nat} (own : s.Own others)
    (nothing : s.FreesNoPage address) (done : s.freeHeapAllocEntry layout address = .ok s') :
    s'.Own others := by
  rw [Space.freeHeapAllocEntry] at done
  obtain ⟨found, search, done⟩ := Outcome.bind_ok.mp done
  cases found with
  | none =>
    cases done
    exact own
  | some found =>
    obtain ⟨i, covered⟩ := found
    obtain ⟨space, range, ⟨⟩⟩ := Outcome.bind_ok.mp done
    obtain rfl := freeRange_outside (by exact nothing i covered search) range
    exact own.congr _ _ own.valid (fun _ => Iff.rfl) rfl rfl

end Space

namespace System

def Maps (s : System) (p a b frame : Nat) : Prop :=
  (s.table.procs p).state = .inuse ∧ (s.memory p).pgdir.Maps a b frame

/-- A slot of a page table: the process, the table, and the entry. -/
def holds (s : System) (slot : Nat × Nat × Nat) (frame : Nat) : Prop :=
  s.Maps slot.1 slot.2.1 slot.2.2 frame

def others (s : System) (p frame : Nat) : Prop := ∃ q, q ≠ p ∧ ∃ a b, s.Maps q a b frame

structure Inv (s : System) : Prop where
  valid : s.frames.Valid
  exclusive : Exclusive s.frames.Used s.holds
  stacked : ∀ p, (s.memory p).usedPages.Stacked
  listed : ∀ p i, (s.memory p).usedPages.Listed i →
    (s.table.procs p).state = .inuse ∧ Space.Tracks (s.memory p) i

theorem Inv.own {s : System} (inv : s.Inv) {p : Nat} (inUse : (s.table.procs p).state = .inuse) :
    (s.space p).Own (s.others p) where
  valid := inv.valid
  exclusive := by
    have slots : ∀ {slot : Nat × Nat} {r : Nat},
        (s.space p).holds (s.others p) (some slot) r → s.holds (p, slot) r :=
      fun held => ⟨inUse, held⟩
    refine ⟨fun {h r} held => ?_, fun {h k r} first second => ?_⟩
    · cases h with
      | some slot => exact inv.exclusive.allocated (slots held)
      | none =>
        obtain ⟨q, -, a, b, maps⟩ := held
        exact inv.exclusive.allocated (h := (q, a, b)) maps
    · cases h with
      | some slot =>
        cases k with
        | some slot' =>
          have same := inv.exclusive.unique (slots first) (slots second)
          rw [(Prod.mk.inj same).2]
        | none =>
          obtain ⟨q, other, a, b, maps⟩ := second
          have same := inv.exclusive.unique (slots first) (k := (q, a, b)) maps
          exact absurd (Prod.ext_iff.mp same).1.symm other
      | none =>
        cases k with
        | none => rfl
        | some slot =>
          obtain ⟨q, other, a, b, maps⟩ := first
          have same := inv.exclusive.unique (h := (q, a, b)) maps (slots second)
          exact absurd (Prod.ext_iff.mp same).1 other
  stacked := inv.stacked p
  listed := fun i listed => (inv.listed p i listed).2

theorem Inv.released {s : System} (inv : s.Inv) {p : Nat}
    (unused : (s.table.procs p).state ≠ .inuse) : (s.space p).Released (s.others p) where
  valid := inv.valid
  others := by
    rintro g ⟨q, -, a, b, maps⟩
    exact inv.exclusive.allocated (h := (q, a, b)) maps
  stacked := inv.stacked p
  empty := fun i listed => unused (inv.listed p i listed).1

theorem withSpace_memory_other (s : System) {p q : Nat} (space : Space) (other : q ≠ p) :
    (s.withSpace p space).memory q = s.memory q := by
  simp [withSpace, other]

@[simp] theorem withSpace_memory_self (s : System) (p : Nat) (space : Space) :
    (s.withSpace p space).memory p = space.mem := by
  simp [withSpace]

/-- Process `p` has changed its memory and is in use; the others are as they were. -/
theorem Inv.withSpace {s : System} {p : Nat} {space : Space} {table : ThreadTable} (inv : s.Inv)
    (own : space.Own (s.others p)) (inUse : (table.procs p).state = .inuse)
    (rest : ∀ q, q ≠ p → (table.procs q).state = (s.table.procs q).state) :
    Inv { s.withSpace p space with table := table } := by
  -- A page is one of `p`, or one of another process as before.
  have slots : ∀ {q a b frame}, Maps { s.withSpace p space with table := table } q a b frame →
      q = p ∧ space.holds (s.others p) (some (a, b)) frame ∨
        q ≠ p ∧ s.Maps q a b frame ∧ space.holds (s.others p) none frame := by
    rintro q a b frame ⟨state, maps⟩
    by_cases same : q = p
    · subst same
      left
      exact ⟨rfl, by simpa [Space.holds] using maps⟩
    · right
      simp only [withSpace_memory_other s space same] at maps
      have before : s.Maps q a b frame := ⟨(rest q same).symm.trans state, maps⟩
      exact ⟨same, before, q, same, a, b, before⟩
  refine ⟨own.valid, ⟨fun {h r} held => ?_, fun {h k r} first second => ?_⟩, fun q => ?_,
    fun q i listed => ?_⟩
  · rcases slots held with ⟨-, mine⟩ | ⟨-, -, theirs⟩
    · exact own.exclusive.allocated mine
    · exact own.exclusive.allocated theirs
  · rcases slots first with ⟨isP, mine⟩ | ⟨notP, before, theirs⟩
    · rcases slots second with ⟨isP', mine'⟩ | ⟨-, -, theirs'⟩
      · have same := own.exclusive.unique mine mine'
        exact Prod.ext (isP.trans isP'.symm) (Option.some.inj same)
      · cases own.exclusive.unique mine theirs'
    · rcases slots second with ⟨-, mine'⟩ | ⟨-, before', -⟩
      · cases own.exclusive.unique theirs mine'
      · exact inv.exclusive.unique (h := h) (k := k) before before'
  · by_cases same : q = p
    · subst same
      simpa using own.stacked
    · simpa only [withSpace_memory_other s space same] using inv.stacked q
  · by_cases same : q = p
    · subst same
      simp only [withSpace_memory_self] at listed ⊢
      exact ⟨inUse, own.listed i listed⟩
    · simp only [withSpace_memory_other s space same] at listed ⊢
      obtain ⟨state, tracks⟩ := inv.listed q i listed
      exact ⟨(rest q same).trans state, tracks⟩

/-- Process `p` has released its memory and is not in use any more. -/
theorem Inv.release {s : System} {p : Nat} {space : Space} {table : ThreadTable} (inv : s.Inv)
    (released : space.Released (s.others p)) (unused : (table.procs p).state ≠ .inuse)
    (rest : ∀ q, q ≠ p → (table.procs q).state = (s.table.procs q).state) :
    Inv { s.withSpace p space with table := table } := by
  have slots : ∀ {q a b frame}, Maps { s.withSpace p space with table := table } q a b frame →
      q ≠ p ∧ s.Maps q a b frame := by
    rintro q a b frame ⟨state, maps⟩
    have other : q ≠ p := by
      rintro rfl
      exact unused state
    simp only [withSpace_memory_other s space other] at maps
    exact ⟨other, (rest q other).symm.trans state, maps⟩
  refine ⟨released.valid, ⟨fun {h r} held => ?_, fun {h k r} first second => ?_⟩, fun q => ?_,
    fun q i listed => ?_⟩
  · obtain ⟨other, maps⟩ := slots held
    exact released.others r ⟨_, other, _, _, maps⟩
  · exact inv.exclusive.unique (h := h) (k := k) (slots first).2 (slots second).2
  · by_cases same : q = p
    · subst same
      simpa using released.stacked
    · simpa only [withSpace_memory_other s space same] using inv.stacked q
  · by_cases same : q = p
    · subst same
      simp only [withSpace_memory_self] at listed
      exact absurd listed (released.empty i)
    · simp only [withSpace_memory_other s space same] at listed ⊢
      obtain ⟨state, tracks⟩ := inv.listed q i listed
      exact ⟨(rest q same).trans state, tracks⟩

/-- Only the table has changed, and no process was created or has ended. -/
theorem Inv.table {s : System} {table : ThreadTable} (inv : s.Inv)
    (states : ∀ q, (table.procs q).state = (s.table.procs q).state) :
    Inv { s with table := table } where
  valid := inv.valid
  exclusive := inv.exclusive.shrink
    (fun held => ⟨(states _).symm.trans held.1, held.2⟩) fun _ used => used
  stacked := inv.stacked
  listed := fun q i listed =>
    ⟨(states q).trans (inv.listed q i listed).1, (inv.listed q i listed).2⟩

inductive Call where
  | createUserProcess
  | fork (t : Nat)
  | exec (t : Nat)
  | exit (t : Nat)
  | sbrk (t : Nat)
  | free (t address : Nat)

def Calls (s : System) (t : Nat) : Prop :=
  t < maxNumThreads ∧ ∃ p, (s.table.threads t).ownerProc = some p ∧
    (s.table.procs p).state = .inuse

/-- The system calls, and the creation of the first process.  The files, the other memory
and the kernel tables are arbitrary in each call. -/
inductive Step (layout : Layout) : System → Call → System → Prop where
  | createUserProcess {s s' : System} (view : View) (elf : ElfFile) :
      s.createUserProcess layout view elf = .ok s' → Step layout s .createUserProcess s'
  | fork {s s' : System} {t : Nat} (view : View) (iRip : Nat) :
      s.Calls t → s.forkUserProcess layout view t iRip = .ok s' → Step layout s (.fork t) s'
  | exec {s s' : System} {t : Nat} (view : View) (file : Option ElfFile) :
      s.Calls t → s.execUserProcess layout view t file = .ok s' → Step layout s (.exec t) s'
  | exit {s s' : System} {t : Nat} (cpu : Nat) :
      s.Calls t → s.syshandlerExit cpu t = .ok s' → Step layout s (.exit t) s'
  | sbrk {s s' : System} {t : Nat} (rsi : Nat) :
      s.Calls t → s.syshandlerSbrk layout t rsi = .ok s' → Step layout s (.sbrk t) s'
  | free {s s' : System} {t rsi : Nat} :
      s.Calls t → s.syshandlerFree layout t rsi = .ok s' → Step layout s (.free t rsi) s'

def CallFreesNoPage (s : System) (call : Call) : Prop :=
  ∀ t address p, call = .free t address → (s.table.threads t).ownerProc = some p →
    (s.space p).FreesNoPage address

theorem Inv.createUserProcess {layout : Layout} {view : View} {elf : ElfFile} {s s' : System}
    (inv : s.Inv) (done : s.createUserProcess layout view elf = .ok s') : s'.Inv := by
  rw [System.createUserProcess] at done
  split at done
  · next p t process thread =>
    obtain ⟨-, free⟩ := ThreadTable.findFreeProcess_some process
    have unused : (s.table.procs p).state ≠ .inuse := by simp [free]
    have start := (inv.released unused).create (layout.pgdirPhys p)
    obtain ⟨⟨iRip, loaded⟩, load, done⟩ := Outcome.bind_ok.mp done
    obtain ⟨space, stack, done⟩ := Outcome.bind_ok.mp done
    obtain ⟨-, -, done⟩ := Outcome.bind_ok.mp done
    obtain ⟨-, -, ⟨⟩⟩ := Outcome.bind_ok.mp done
    have own := (start.elfLoadSegments load).createUserProcessStack stack
    refine inv.withSpace own ?_ fun q other => ?_
    · simp [ThreadTable.createUserProcess, process, thread, ThreadTable.startProcess_state]
    · simp [ThreadTable.createUserProcess, process, thread, ThreadTable.startProcess_state, other]
  · cases done
    exact inv

theorem Inv.forkUserProcess {layout : Layout} {view : View} {old iRip : Nat} {s s' : System}
    (inv : s.Inv) (done : s.forkUserProcess layout view old iRip = .ok s') : s'.Inv := by
  rw [System.forkUserProcess] at done
  split at done
  · next p t oldProc process thread owner =>
    obtain ⟨-, free⟩ := ThreadTable.findFreeProcess_some process
    have unused : (s.table.procs p).state ≠ .inuse := by simp [free]
    have start := (inv.released unused).create (layout.pgdirPhys p)
    obtain ⟨space, copied, done⟩ := Outcome.bind_ok.mp done
    obtain ⟨-, -, ⟨⟩⟩ := Outcome.bind_ok.mp done
    refine inv.withSpace (start.copyPages copied) ?_ fun q other => ?_
    · simp [ThreadTable.forkUserProcess, process, thread, owner, ThreadTable.startProcess_state]
    · simp [ThreadTable.forkUserProcess, process, thread, owner, ThreadTable.startProcess_state,
        other]
  · cases done
    exact inv

theorem Inv.execUserProcess {layout : Layout} {view : View} {t p : Nat} {file : Option ElfFile}
    {s s' : System} (inv : s.Inv) (owner : (s.table.threads t).ownerProc = some p)
    (inUse : (s.table.procs p).state = .inuse)
    (done : s.execUserProcess layout view t file = .ok s') : s'.Inv := by
  simp only [System.execUserProcess, owner] at done
  cases file with
  | none =>
    cases done
    exact inv
  | some elf =>
    obtain ⟨freed, free, done⟩ := Outcome.bind_ok.mp done
    have start := ((inv.own inUse).processFree free).create (layout.pgdirPhys p)
    obtain ⟨stacked, stack, done⟩ := Outcome.bind_ok.mp done
    obtain ⟨⟨iRip, space⟩, load, done⟩ := Outcome.bind_ok.mp done
    obtain ⟨-, -, done⟩ := Outcome.bind_ok.mp done
    obtain ⟨-, -, ⟨⟩⟩ := Outcome.bind_ok.mp done
    have own := (start.createUserProcessStack stack).elfLoadSegments load
    refine inv.withSpace own ?_ fun q other => ?_
    · simp [ThreadTable.execUserProcess_state owner]
    · simp [ThreadTable.execUserProcess_state owner, other]

theorem Inv.syshandlerExit {cpu t p : Nat} {s s' : System} (inv : s.Inv)
    (owner : (s.table.threads t).ownerProc = some p)
    (inUse : (s.table.procs p).state = .inuse) (done : s.syshandlerExit cpu t = .ok s') :
    s'.Inv := by
  simp only [System.syshandlerExit, owner] at done
  have states := ThreadTable.syshandlerExit_state cpu owner
  split at done
  · next last =>
    obtain ⟨space, free, ⟨⟩⟩ := Outcome.bind_ok.mp done
    refine inv.release ((inv.own inUse).processFree free) ?_ fun q other => ?_
    · rw [states, if_pos ⟨rfl, last⟩]
      exact ProcessState.noConfusion
    · rw [states, if_neg fun both => other both.1]
  · next more =>
    cases done
    apply inv.table
    intro q
    rw [states, if_neg fun both => more both.2]

/-- A call that keeps the caller's own memory in order. -/
theorem Inv.inProcess {t p : Nat} {s s' : System} {call : Nat → Space → Outcome Space}
    (inv : s.Inv) (owner : (s.table.threads t).ownerProc = some p)
    (inUse : (s.table.procs p).state = .inuse)
    (kept : ∀ space, call p (s.space p) = .ok space → space.Own (s.others p))
    (done : s.inProcess t call = .ok s') : s'.Inv := by
  rw [System.inProcess, owner] at done
  obtain ⟨space, called, ⟨⟩⟩ := Outcome.bind_ok.mp done
  exact inv.withSpace (kept space called) inUse fun _ _ => rfl

theorem Inv.step {layout : Layout} {s s' : System} {call : Call} (inv : s.Inv)
    (moved : Step layout s call s') (nothing : s.CallFreesNoPage call) : s'.Inv := by
  cases moved with
  | createUserProcess _ _ done => exact inv.createUserProcess done
  | fork _ _ _ done => exact inv.forkUserProcess done
  | exec _ _ calls done =>
    obtain ⟨-, p, owner, inUse⟩ := calls
    exact inv.execUserProcess owner inUse done
  | exit _ calls done =>
    obtain ⟨-, p, owner, inUse⟩ := calls
    exact inv.syshandlerExit owner inUse done
  | sbrk _ calls done =>
    obtain ⟨-, p, owner, inUse⟩ := calls
    refine inv.inProcess owner inUse (fun space called => ?_) done
    obtain ⟨⟨rax, space'⟩, called, ⟨⟩⟩ := Outcome.bind_ok.mp called
    exact (inv.own inUse).syshandlerSbrk called
  | @free _ t address calls done =>
    obtain ⟨-, p, owner, inUse⟩ := calls
    exact inv.inProcess owner inUse (fun space called =>
      (inv.own inUse).freeHeapAllocEntry (nothing t address p rfl owner) called) done

structure Isolated (s : System) : Prop where
  used : ∀ p a b frame, s.Maps p a b frame → s.frames.Used frame
  once : ∀ p q a b c d frame, s.Maps p a b frame → s.Maps q c d frame → p = q ∧ a = c ∧ b = d
  notServed : ∀ frame frames, s.frames.physicalFrameRequest4kb = .ok (some frame, frames) →
    ∀ p a b, ¬s.Maps p a b frame

theorem Inv.isolated {s : System} (inv : s.Inv) : s.Isolated where
  used := fun p a b _ maps => inv.exclusive.allocated (h := (p, a, b)) maps
  once := by
    intro p q a b c d frame first second
    have same := inv.exclusive.unique (h := (p, a, b)) (k := (q, c, d)) first second
    obtain ⟨rfl, slots⟩ := Prod.mk.inj same
    obtain ⟨rfl, rfl⟩ := Prod.mk.inj slots
    exact ⟨rfl, rfl, rfl⟩
  notServed := by
    intro frame frames returned p a b maps
    obtain ⟨-, ⟨none, -⟩ | ⟨f, served, fresh, -⟩⟩ :=
      FrameManagers.physicalFrameRequest4kb_spec inv.valid returned
    · cases none
    · cases served
      exact inv.exclusive.not_held fresh (p, a, b) maps

/-- No process was created yet, and the small page manager has no chunks. -/
structure Start (s : System) : Prop where
  table : ∃ idleEntry, s.table = ThreadTable.boot idleEntry
  frames : ∃ pmm records, s.frames = ⟨pmm, Dll.empty records⟩
  memory : ∀ p, ∃ used heap, s.memory p = ⟨.zero, Dll.empty used, Dll.empty heap, fun _ => 0#64⟩

theorem Start.inv {s : System} (start : s.Start) : s.Inv := by
  obtain ⟨idleEntry, table⟩ := start.table
  obtain ⟨pmm, records, frames⟩ := start.frames
  have free : ∀ p, (s.table.procs p).state ≠ .inuse := by
    intro p
    simp [table, ThreadTable.boot]
  have valid : s.frames.Valid := by
    rw [frames]
    exact (FrameManagers.Session.Inv.boot pmm records).valid
  refine ⟨valid, ⟨fun held => absurd held.1 (free _), fun held => absurd held.1 (free _)⟩,
    fun p => ?_, fun p i listed => ?_⟩
  · obtain ⟨used, heap, memory⟩ := start.memory p
    rw [memory]
    exact Dll.stacked_empty used
  · obtain ⟨used, heap, memory⟩ := start.memory p
    rw [memory] at listed
    exact absurd listed (Dll.not_listed (by simp [Dll.empty]) i)

/-- A system call that does not run into the defect of `FreeUserHeapBits`. -/
def SafeStep (layout : Layout) (s s' : System) : Prop :=
  ∃ call, Step layout s call s' ∧ s.CallFreesNoPage call

/-- Runs in which no `free` finds a page to release keep the processes apart. -/
theorem process_isolation {layout : Layout} {s : System}
    (reached : Reachable Start (SafeStep layout) s) : s.Isolated := by
  have inv : s.Inv := by
    refine reached.invariant (fun s start => start.inv) ?_
    rintro s s' inv ⟨call, moved, nothing⟩
    exact inv.step moved nothing
  exact inv.isolated

def machine : Layout := ⟨fun p => 0x10000000 + p * 0x402000, fun _ => 0xffffffff00000000⟩

def nothingElse : View := ⟨fun _ _ => 0#64, fun _ => false⟩

def program : ElfFile :=
  ⟨fun i => [0x7f, 'E'.toNat, 'L'.toNat, 'F'.toNat, 2].getD i 0, 0x400000,
    [⟨ptLoad, 0x400000, 1⟩]⟩

def fresh : System where
  table := ThreadTable.boot 1
  frames := ⟨⟨fun i => if i = 8 then BitVec.allOnes 64 ^^^ 1#64 else BitVec.allOnes 64, 1, true⟩,
    Dll.empty fun _ => ⟨.null, .null, ⟨0, 0#32, fun _ => 0#32⟩⟩⟩
  memory := fun _ => ⟨.zero, Dll.empty fun _ => ⟨.null, .null, ⟨0, 0, 0, 0⟩⟩,
    Dll.empty fun _ => ⟨.null, .null, ⟨0, 0, 0, 0, 0, 0⟩⟩, fun _ => 0#64⟩

theorem fresh_start : fresh.Start where
  table := ⟨1, rfl⟩
  frames := ⟨_, _, rfl⟩
  memory := fun _ => ⟨_, _, rfl⟩

def oneHeapPage : Outcome System := do
  let s ← fresh.createUserProcess machine nothingElse program
  s.syshandlerSbrk machine 1 0

def firstThread (s : System) : Bool :=
  (s.table.threads 1).ownerProc = some 0 && (s.table.procs 0).state = .inuse

theorem firstThread_calls {s : System} (first : s.firstThread = true) : s.Calls 1 := by
  rw [firstThread, Bool.and_eq_true] at first
  exact ⟨by decide, 0, of_decide_eq_true first.1, of_decide_eq_true first.2⟩

theorem oneHeapPage_reachable {s : System} (done : oneHeapPage = .ok s) :
    Reachable Start (SafeStep machine) s := by
  obtain ⟨s₁, created, grown⟩ := Outcome.bind_ok.mp done
  obtain ⟨s₁', created', first⟩ := Outcome.of_test (by decide +kernel :
    (fresh.createUserProcess machine nothingElse program).test firstThread = true)
  cases created.symm.trans created'
  have start : Reachable Start (SafeStep machine) s₁ := (Reachable.base fresh_start).next
    ⟨_, .createUserProcess nothingElse program created, fun t address p never => by cases never⟩
  exact start.next ⟨_, .sbrk 0 (firstThread_calls first) grown,
    fun t address p never => by cases never⟩

theorem process_isolation_one_heap_page : ∃ s, oneHeapPage = .ok s ∧ s.Isolated := by
  obtain ⟨s, done, -⟩ := Outcome.of_test (by decide +kernel :
    oneHeapPage.test (fun _ => true) = true)
  exact ⟨s, done, process_isolation (oneHeapPage_reachable done)⟩

/-- A process that frees its page of heap loses the frame of the page that it mapped
before, the last page of its stack. -/
theorem stack_frame_freed :
    ¬∀ layout s, Reachable Start (fun s s' => ∃ call, Step layout s call s') s → s.Isolated := by
  intro isolated
  obtain ⟨s, done, first⟩ := Outcome.of_test (by decide +kernel :
    oneHeapPage.test firstThread = true)
  have reached : Reachable Start (fun s s' => ∃ call, Step machine s call s') s :=
    (oneHeapPage_reachable done).mono fun s s' ⟨call, moved, _⟩ => ⟨call, moved⟩
  obtain ⟨s', both, passed⟩ := Outcome.of_test (by decide +kernel :
    (oneHeapPage >>= fun s => s.syshandlerFree machine 1 userHeapStart).test (fun s =>
      decide ((s.table.procs 0).state = .inuse ∧ (s.memory 0).pgdir.Maps 500
        (ptIndex (userStackLoc - 4 * pgSize)) (512 * hugePgSize + 5 * pgSize) ∧
        s.frames.manager4kb.allocated = 1 ∧ s.frames.manager4kb.startOf 0 = 512 * hugePgSize ∧
        (s.frames.manager4kb.records 0).data.used 5 = false)) = true)
  obtain ⟨s₂, done₂, freed⟩ := Outcome.bind_ok.mp both
  cases done.symm.trans done₂
  obtain ⟨inUse, maps, one, start, clear⟩ := of_decide_eq_true passed
  have freedState := isolated machine s' (reached.next ⟨_, .free (firstThread_calls first) freed⟩)
  -- The only chunk has the frame of the stack page as its page 5, and the bit is clear.
  obtain ⟨c, below, i, page, same, isUsed⟩ := freedState.used 0 _ _ _ ⟨inUse, maps⟩
  obtain rfl : c = 0 := by omega
  rw [start] at same
  obtain rfl : i = 5 := by
    rw [pgSize] at same
    omega
  rw [clear] at isUsed
  cases isUsed

end System

end SwagOS.Kernel
