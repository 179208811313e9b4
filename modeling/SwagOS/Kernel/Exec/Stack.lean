import SwagOS.Kernel.Exec

/-!
# The stack of a new image

The arguments of a program need no more than the two upper pages of its stack.  They are
mapped before the image is loaded, through a directory of their own.  A segment in the
gigabyte of the stack puts the directory of the image in its place; then the stack is what the
segments have mapped there.
-/

namespace SwagOS.Kernel

open SwagOS.Lib SwagOS.Libc SwagOS.Mem SwagOS.Fs ThreadPagetables

def InStack (low va : Nat) : Prop := low ≤ va ∧ va < userStackLoc + pgSize

/-- The tables and the frames of the two upper pages. -/
structure StackPages where
  pdtTableIndex : Nat
  pdTableIndex : Nat
  top : Nat
  second : Nat
  pdtInside : pdtTableIndex < 512
  pdInside : pdTableIndex < 512
  topAligned : top % pgSize = 0
  topBelow : top < 2 ^ 52
  secondAligned : second % pgSize = 0
  secondBelow : second < 2 ^ 52
  apart : top ≠ second

def StackPages.physical (stack : StackPages) (va : Nat) : Nat :=
  (if userStackLoc ≤ va then stack.top else stack.second) + va % pgSize

/-- The tables lead to these frames, from an address on. -/
structure StackLaid (base low : Nat) (stack : StackPages) (pgdir : ThreadPagetables) : Prop where
  route : Route base pgdir ⟨userStackLoc, stack.pdtTableIndex, stack.pdTableIndex⟩
  topEntry : pgdir.pd stack.pdTableIndex 508 = entry stack.top userFlags
  secondEntry : low < userStackLoc →
    pgdir.pd stack.pdTableIndex 507 = entry stack.second userFlags

theorem stackLoc_indices : ptIndex userStackLoc = 508 ∧ ptIndex (userStackLoc - pgSize) = 507 := by
  decide

section Laid

variable {base low va : Nat} {stack : StackPages} {pgdir : ThreadPagetables}

theorem InStack.below (inside : InStack low va) : va < 2 ^ 64 := by
  obtain ⟨-, below⟩ := inside
  rw [userStackLoc, pgSize] at below
  omega

theorem InStack.canonical (inside : InStack low va) : Paging.Canonical va := by
  obtain ⟨-, below⟩ := inside
  rw [userStackLoc, pgSize] at below
  exact .inl (by omega)

theorem stack_page (bottom : userStackLoc - pgSize ≤ low) (inside : InStack low va) :
    userStackLoc ≤ va ∧ va / pgSize = userStackLoc / pgSize ∨
      ¬userStackLoc ≤ va ∧ va / pgSize = (userStackLoc - pgSize) / pgSize := by
  obtain ⟨above, below⟩ := inside
  rw [userStackLoc, pgSize] at *
  omega

theorem stack_indices (bottom : userStackLoc - pgSize ≤ low) (inside : InStack low va) :
    pml4tIndex va = pml4tIndex userStackLoc ∧ pdptIndex va = pdptIndex userStackLoc ∧
      pdtIndex va = pdtIndex userStackLoc ∧ ptIndex va = if userStackLoc ≤ va then 508 else 507 := by
  obtain ⟨topIndex, secondIndex⟩ := stackLoc_indices
  rcases stack_page bottom inside with ⟨isTop, page⟩ | ⟨notTop, page⟩
  · rw [if_pos isTop, pml4tIndex_eq, pdptIndex_eq, pdtIndex_eq, ptIndex_eq,
      Paging.index_congr page, Paging.index_congr page, Paging.index_congr page,
      Paging.index_congr page, ← pml4tIndex_eq, ← pdptIndex_eq, ← pdtIndex_eq, ← ptIndex_eq]
    exact ⟨rfl, rfl, rfl, topIndex⟩
  · have same : pml4tIndex (userStackLoc - pgSize) = pml4tIndex userStackLoc ∧
        pdptIndex (userStackLoc - pgSize) = pdptIndex userStackLoc ∧
        pdtIndex (userStackLoc - pgSize) = pdtIndex userStackLoc := by decide
    rw [if_neg notTop, pml4tIndex_eq, pdptIndex_eq, pdtIndex_eq, ptIndex_eq,
      Paging.index_congr page, Paging.index_congr page, Paging.index_congr page,
      Paging.index_congr page, ← pml4tIndex_eq, ← pdptIndex_eq, ← pdtIndex_eq, ← ptIndex_eq]
    exact ⟨same.1, same.2.1, same.2.2, secondIndex⟩

/-- The way to an address of the stack, with its entry. -/
theorem StackLaid.page (laid : StackLaid base low stack pgdir)
    (bottom : userStackLoc - pgSize ≤ low) (inside : InStack low va) :
    Route base pgdir ⟨va, stack.pdtTableIndex, stack.pdTableIndex⟩ ∧
      pgdir.pd stack.pdTableIndex (ptIndex va) =
        entry (if userStackLoc ≤ va then stack.top else stack.second) userFlags := by
  obtain ⟨first, second, third, last⟩ := stack_indices bottom inside
  constructor
  · constructor
    · rw [first]
      exact laid.route.pml4t
    · rw [second]
      exact laid.route.pdpt
    · rw [third]
      exact laid.route.pdt
  · rw [last]
    split
    · exact laid.topEntry
    next notTop => exact laid.secondEntry (Nat.lt_of_le_of_lt inside.1 (Nat.lt_of_not_le notTop))

theorem StackPages.frame (stack : StackPages) (va : Nat) :
    (if userStackLoc ≤ va then stack.top else stack.second) % pgSize = 0 ∧
      (if userStackLoc ≤ va then stack.top else stack.second) < 2 ^ 52 := by
  split
  · exact ⟨stack.topAligned, stack.topBelow⟩
  · exact ⟨stack.secondAligned, stack.secondBelow⟩

/-- The processor finds the frames, for user code to read and write. -/
theorem StackLaid.walk (view : View) (placed : Placed base)
    (laid : StackLaid base low stack pgdir) (bottom : userStackLoc - pgSize ≤ low)
    (inside : InStack low va) :
    Paging.walk (pgdir.tableAt base view) va base = some ⟨stack.physical va, true, true⟩ := by
  obtain ⟨route, here⟩ := laid.page bottom inside
  obtain ⟨aligned, below⟩ := stack.frame va
  exact Route.walk_frame view placed route stack.pdtInside stack.pdInside inside.canonical here
    aligned below rfl

theorem StackLaid.isFrameMapped (view : View) (placed : Placed base)
    (laid : StackLaid base low stack pgdir) (bottom : userStackLoc - pgSize ≤ low)
    (inside : InStack low va) : pgdir.isFrameMappedThread base view va = true := by
  obtain ⟨route, here⟩ := laid.page bottom inside
  obtain ⟨aligned, below⟩ := stack.frame va
  rw [isFrameMappedThread_eq placed stack.pdtInside stack.pdInside route.pml4t route.pdpt
    route.pdt, here]
  exact (entry_userFlags aligned below).1

/-- Two addresses are in one place only if they are the same. -/
theorem StackPages.physical_inj {va' : Nat} (bottom : userStackLoc - pgSize ≤ low)
    (inside : InStack low va) (inside' : InStack low va')
    (same : stack.physical va = stack.physical va') : va = va' := by
  have topAligned := stack.topAligned
  have secondAligned := stack.secondAligned
  have apart := stack.apart
  obtain ⟨above, below⟩ := inside
  obtain ⟨above', below'⟩ := inside'
  rw [StackPages.physical, StackPages.physical] at same
  rw [userStackLoc, pgSize] at *
  split at same <;> split at same <;> omega

end Laid

/-- The new tables, with the two upper pages of the stack, and nothing in the directory that an
image is mapped through. -/
structure NewStack (base top second : Nat) (pgdir : ThreadPagetables) : Prop where
  pml4t : pgdir.pml4t (pml4tIndex userStackLoc) = entry (pdptPhys base) userFlags
  pdpt : pgdir.pdpt (pdptIndex userStackLoc) = entry (pdtPhys base 500) userFlags
  pdt : pgdir.pdt 500 (pdtIndex userStackLoc) = entry (pdPhys base 500) userFlags
  topEntry : pgdir.pd 500 508 = entry top userFlags
  secondEntry : pgdir.pd 500 507 = entry second userFlags
  imagePdt : ∀ i, pgdir.pdt 1 i = 0#64
  imagePd : ∀ i, pgdir.pd 0 i = 0#64

section Map

variable {base va a b : Nat} {failure : String} {s s' : Space}

theorem mapNewFrame_ok (valid : s.frames.Valid)
    (done : s.mapNewFrame failure base va a b = .ok s') :
    s'.frames.Valid ∧ ∃ frame, frame % pgSize = 0 ∧ frame < 2 ^ 52 ∧ ¬s.frames.Used frame ∧
      s'.frames.Used frame ∧
      s.mem.pgdir.map4kbPageUser base va frame a b = .ok s'.mem.pgdir := by
  rw [Space.mapNewFrame] at done
  obtain ⟨⟨_ | frame, frames⟩, served, done⟩ := Outcome.bind_ok.mp done
  · cases done
  obtain ⟨mem, mapped, ⟨⟩⟩ := Outcome.bind_ok.mp done
  rw [UserMemory.map4kbPageUser] at mapped
  obtain ⟨pgdir, tables, mapped⟩ := Outcome.bind_ok.mp mapped
  obtain ⟨usedPages, -, ⟨⟩⟩ := Outcome.bind_ok.mp mapped
  obtain ⟨valid', ⟨none, -⟩ | ⟨f, some, fresh, grown⟩⟩ :=
    FrameManagers.physicalFrameRequest4kb_spec valid served
  · cases none
  · obtain rfl := Option.some.inj some
    have used : frames.Used frame := (grown frame).mpr (.inl rfl)
    exact ⟨valid', frame, used.aligned valid', used.below valid', fresh, used, tables⟩

/-- The lower pages of the stack leave the upper ones alone. -/
theorem NewStack.map {top second frame va : Nat} {pgdir next : ThreadPagetables}
    (laid : NewStack base top second pgdir)
    (mapped : pgdir.map4kbPageUser base va frame 500 500 = .ok next)
    (last : ptIndex va ≠ 508 ∧ ptIndex va ≠ 507) (gigabyte : pdptIndex va = pdptIndex userStackLoc) :
    NewStack base top second next := by
  obtain ⟨pml4t, pdpt, pdt, pd⟩ := map4kbPageUser_tables mapped
  constructor
  case pml4t =>
    rw [pml4t]
    rcases update_entry with new | old
    · exact new
    · exact old.trans laid.pml4t
  case pdpt =>
    rw [pdpt, gigabyte, Function.update_self]
  case pdt =>
    rw [pdt, Function.update_self]
    rcases update_entry with new | old
    · exact new
    · exact old.trans laid.pdt
  case topEntry =>
    rw [pd, Function.update_self, Function.update_of_ne (Ne.symm last.1)]
    exact laid.topEntry
  case secondEntry =>
    rw [pd, Function.update_self, Function.update_of_ne (Ne.symm last.2)]
    exact laid.secondEntry
  case imagePdt =>
    rw [pdt, Function.update_of_ne (by decide)]
    exact laid.imagePdt
  case imagePd =>
    rw [pd, Function.update_of_ne (by decide)]
    exact laid.imagePd

theorem createUserProcessStack_new (valid : s.frames.Valid) (fresh : s.mem.pgdir = create base)
    (done : s.createUserProcessStack base = .ok s') :
    s'.frames.Valid ∧ ∃ top second, top % pgSize = 0 ∧ top < 2 ^ 52 ∧ second % pgSize = 0 ∧
      second < 2 ^ 52 ∧ top ≠ second ∧ NewStack base top second s'.mem.pgdir := by
  have pages : List.range 5 = 0 :: 1 :: [2, 3, 4] := by decide
  rw [Space.createUserProcessStack, pages, List.foldlM_cons] at done
  obtain ⟨s₁, first, done⟩ := Outcome.bind_ok.mp done
  rw [List.foldlM_cons] at done
  obtain ⟨s₂, next, done⟩ := Outcome.bind_ok.mp done
  obtain ⟨valid₁, top, topAligned, topBelow, -, topUsed, topMapped⟩ := mapNewFrame_ok valid first
  obtain ⟨valid₂, second, secondAligned, secondBelow, unused, -, secondMapped⟩ :=
    mapNewFrame_ok valid₁ next
  have apart : top ≠ second := by
    rintro rfl
    exact unused topUsed
  have laid : NewStack base top second s₂.mem.pgdir := by
    obtain ⟨-, -, pdt₁, pd₁⟩ := map4kbPageUser_tables topMapped
    obtain ⟨-, -, pdt₂, pd₂⟩ := map4kbPageUser_tables secondMapped
    have topIndex : ptIndex (userStackLoc - 0 * pgSize) = 508 := by decide
    have secondIndex : ptIndex (userStackLoc - 1 * pgSize) = 507 := by decide
    rw [topIndex] at pd₁
    rw [secondIndex] at pd₂
    have route : Route base s₂.mem.pgdir ⟨userStackLoc - 1 * pgSize, 500, 500⟩ :=
      .of_map secondMapped
    constructor
    case pml4t => exact route.pml4t
    case pdpt => exact route.pdpt
    case pdt => exact route.pdt
    case topEntry =>
      rw [pd₂, Function.update_self, Function.update_of_ne (by decide), pd₁, Function.update_self,
        Function.update_self]
    case secondEntry => rw [pd₂, Function.update_self, Function.update_self]
    case imagePdt =>
      rw [pdt₂, Function.update_of_ne (by decide), pdt₁, Function.update_of_ne (by decide), fresh]
      exact create_pdt base
    case imagePd =>
      rw [pd₂, Function.update_of_ne (by decide), pd₁, Function.update_of_ne (by decide), fresh]
      exact fun _ => rfl
  have indices : ∀ i ∈ [2, 3, 4], (ptIndex (userStackLoc - i * pgSize) ≠ 508 ∧
      ptIndex (userStackLoc - i * pgSize) ≠ 507) ∧
        pdptIndex (userStackLoc - i * pgSize) = pdptIndex userStackLoc := by decide
  have kept : s'.frames.Valid ∧ NewStack base top second s'.mem.pgdir := by
    refine Outcome.foldlM_mem (P := fun s => s.frames.Valid ∧
      NewStack base top second s.mem.pgdir) ?_ done ⟨valid₂, laid⟩
    rintro i member s s' ⟨valid, laid⟩ step
    obtain ⟨valid', frame, -, -, -, -, mapped⟩ := mapNewFrame_ok valid step
    obtain ⟨last, gigabyte⟩ := indices i member
    exact ⟨valid', laid.map mapped last gigabyte⟩
  exact ⟨kept.1, top, second, topAligned, topBelow, secondAligned, secondBelow, apart, kept.2⟩

theorem procFreeUserPages_valid {fuel : Nat} {link : DataStructures.Link}
    (valid : s.frames.Valid) (done : s.procFreeUserPages fuel link = .ok s') :
    s'.frames.Valid := by
  induction fuel generalizing link s with
  | zero =>
    cases link with
    | record i => cases done
    | _ =>
      cases done
      exact valid
  | succ fuel inductionHypothesis =>
    cases link with
    | record i =>
      obtain ⟨⟨freed, frames⟩, released, done⟩ := Outcome.bind_ok.mp done
      obtain ⟨freed', next, released', valid', -⟩ := FrameManagers.tryFreeChunkedFrame_spec valid
        (s.mem.usedPages.records i).data.pagePa
      cases released.symm.trans released'
      exact inductionHypothesis valid' done
    | _ =>
      cases done
      exact valid

end Map

theorem ExecSite.renewMemory_new {site : ExecSite} {s s' : LoadState} (valid : s.frames.Valid)
    (done : site.renewMemory s = .ok s') :
    s'.frames.Valid ∧ ∃ top second, top % pgSize = 0 ∧ top < 2 ^ 52 ∧ second % pgSize = 0 ∧
      second < 2 ^ 52 ∧ top ≠ second ∧ NewStack site.load.base top second s'.mem.pgdir := by
  obtain ⟨freed, free, done⟩ := Outcome.bind_ok.mp done
  obtain ⟨space, mapped, ⟨⟩⟩ := Outcome.bind_ok.mp done
  have valid' : freed.frames.Valid := by
    obtain ⟨released, pages, free⟩ := Outcome.bind_ok.mp free
    have kept : released.frames.Valid := procFreeUserPages_valid (by exact valid) pages
    obtain ⟨-, -, ⟨⟩⟩ := Outcome.bind_ok.mp free
    exact kept
  exact createUserProcessStack_new (by exact valid') rfl mapped

def Segmented (elf : ElfBuffer) (index : Nat → Nat) (k : Nat) : Prop :=
  ∃ i < elf.phNum, elf.Loads i ∧ index (elf.programHeader i).vaddr = k

/-- The stack is there from an address on once the image is loaded: no segment is in its
gigabyte, or segments have the indices of its pages. -/
def KeepsStack (elf : ElfBuffer) (low : Nat) : Prop :=
  Segmented elf pdptIndex (pdptIndex userStackLoc) →
    Segmented elf pdtIndex (pdtIndex userStackLoc) ∧ Segmented elf ptIndex 508 ∧
      (low < userStackLoc → Segmented elf ptIndex 507)

instance (elf : ElfBuffer) (index : Nat → Nat) (k : Nat) : Decidable (Segmented elf index k) :=
  inferInstanceAs (Decidable (∃ _, _ ∧ _))

instance (elf : ElfBuffer) (low : Nat) : Decidable (KeepsStack elf low) :=
  inferInstanceAs (Decidable (_ → _))

/-- Pages of an image mapped over given tables, each in a frame of its own. -/
structure ImageOver (base : Nat) (start : ThreadPagetables) (pages : List ImagePage)
    (s : LoadState) : Prop where
  mapped : MappedOver base start pages s.mem.pgdir
  pdt : s.mem.pgdir.pdt 500 = start.pdt 500
  pd : s.mem.pgdir.pd 500 = start.pd 500
  used : ∀ m ∈ pages, s.frames.Used m.2
  apart : pages.Pairwise fun m other => m.2 ≠ other.2
  valid : s.frames.Valid

section Image

variable {site : LoadSite} {elf : ElfBuffer} {s s' : LoadState} {i : Nat}
  {start : ThreadPagetables} {pages : List ImagePage}

theorem ImageOver.read {base : Nat} (image : ImageOver base start pages s) (reads : List Nat) :
    ImageOver base start pages { s with reads := reads } :=
  ⟨image.mapped, image.pdt, image.pd, image.used, image.apart, image.valid⟩

theorem store_ok {count va root : Nat} {bytes : Bytes}
    (done : s.store root va count bytes = .ok s') : s'.mem = s.mem ∧ s'.frames = s.frames := by
  rw [LoadState.store] at done
  split at done
  · cases done
  · split at done
    · cases done
      exact ⟨rfl, rfl⟩
    · cases done

theorem copyPage_ok {toCopy copyOffset : Nat}
    (done : copyPage site elf i toCopy copyOffset s = .ok s') :
    s'.mem = s.mem ∧ s'.frames = s.frames := by
  rw [copyPage] at done
  split at done
  · rw [LoadSite.store] at done
    have kept := store_ok done
    exact kept
  · cases done
    exact ⟨rfl, rfl⟩

theorem loadSegment_page (loads : elf.Loads i) (valid : s.frames.Valid)
    (done : loadSegment site elf s i = .ok s') :
    s'.frames.Valid ∧ ∃ frame, ¬s.frames.Used frame ∧
      (∀ g, s'.frames.Used g ↔ g = frame ∨ s.frames.Used g) ∧
      s.mem.pgdir.map4kbPageUser site.base (elf.programHeader i).vaddr frame 1 0 =
        .ok s'.mem.pgdir := by
  rw [loadSegment, if_neg loads.1, if_neg (not_not.mpr loads.2), loadPage] at done
  obtain ⟨⟨_ | frame, frames⟩, served, done⟩ := Outcome.bind_ok.mp done
  · cases done
  obtain ⟨-, -, done⟩ := Outcome.bind_ok.mp done
  obtain ⟨mem, mapped, done⟩ := Outcome.bind_ok.mp done
  obtain ⟨zeroed, zero, copied⟩ := Outcome.bind_ok.mp done
  rw [LoadSite.store] at zero
  have sameMem : s'.mem = mem := (copyPage_ok copied).1.trans (store_ok zero).1
  have sameFrames : s'.frames = frames := (copyPage_ok copied).2.trans (store_ok zero).2
  have vaddr : ((elf.programHeader i).vaddr + 0) % 2 ^ 64 = (elf.programHeader i).vaddr := by
    rw [Nat.add_zero, Nat.mod_eq_of_lt (elf.vaddr_lt i)]
  rw [vaddr, UserMemory.map4kbPageUser] at mapped
  obtain ⟨pgdir, tables, mapped⟩ := Outcome.bind_ok.mp mapped
  obtain ⟨usedPages, -, ⟨⟩⟩ := Outcome.bind_ok.mp mapped
  obtain ⟨valid', ⟨none, -⟩ | ⟨f, some, fresh, grown⟩⟩ :=
    FrameManagers.physicalFrameRequest4kb_spec valid served
  · cases none
  obtain rfl := Option.some.inj some
  rw [sameMem, sameFrames]
  exact ⟨valid', frame, fresh, grown, tables⟩

theorem ImageOver.load (image : ImageOver site.base start pages s) (loads : elf.Loads i)
    (done : loadSegment site elf s i = .ok s') :
    ∃ frame, ImageOver site.base start (((elf.programHeader i).vaddr, frame) :: pages) s' := by
  obtain ⟨valid, frame, fresh, grown, mapped⟩ := loadSegment_page loads image.valid done
  have used : s'.frames.Used frame := (grown frame).mpr (.inl rfl)
  obtain ⟨-, mapped'⟩ := image.mapped.map mapped (used.aligned valid) (used.below valid)
  obtain ⟨-, -, pdt, pd⟩ := map4kbPageUser_tables mapped
  refine ⟨frame, mapped', ?_, ?_, ?_, ?_, valid⟩
  · rw [pdt, Function.update_of_ne (by decide)]
    exact image.pdt
  · rw [pd, Function.update_of_ne (by decide)]
    exact image.pd
  · intro m member
    rcases List.mem_cons.mp member with rfl | before
    · exact used
    · exact (grown m.2).mpr (.inr (image.used m before))
  · refine List.pairwise_cons.mpr ⟨?_, image.apart⟩
    rintro m member rfl
    exact fresh (image.used m member)

theorem ImageOver.run {l : List Nat} (image : ImageOver site.base start pages s)
    (done : l.foldlM (loadSegment site elf) s = .ok s') :
    ∃ new, ImageOver site.base start (new ++ pages) s' ∧
      ∀ va, va ∈ new.map Prod.fst ↔ ∃ i ∈ l, elf.Loads i ∧ (elf.programHeader i).vaddr = va := by
  induction l generalizing s pages with
  | nil =>
    cases done
    refine ⟨[], image, ?_⟩
    intro va
    simp
  | cons i rest inductionHypothesis =>
    rw [List.foldlM_cons] at done
    obtain ⟨s₁, first, later⟩ := Outcome.bind_ok.mp done
    by_cases loads : elf.Loads i
    · obtain ⟨frame, image₁⟩ := image.load loads first
      obtain ⟨new, final, same⟩ := inductionHypothesis image₁ later
      refine ⟨new ++ [((elf.programHeader i).vaddr, frame)], ?_, ?_⟩
      · rw [List.append_assoc]
        exact final
      · intro va
        rw [List.map_append, List.mem_append, same va]
        simp [loads, or_comm, eq_comm]
    · rw [loadSegment_skipped loads] at first
      cases first
      obtain ⟨new, final, same⟩ := inductionHypothesis (image.read _) later
      refine ⟨new, final, ?_⟩
      intro va
      rw [same va]
      simp [loads]

theorem elfLoadSegments_imageOver {iRip : Nat} (passes : elf.Passes) (valid : s.frames.Valid)
    (done : elfLoadSegments site elf s = .ok (iRip, s')) :
    ∃ pages, ImageOver site.base s.mem.pgdir pages s' ∧
      ∀ index k, Touched index pages k ↔ Segmented elf index k := by
  rw [elfLoadSegments_passes passes] at done
  cases looped : (List.range elf.phNum).foldlM (loadSegment site elf)
      { s with reads := s.reads ++ identReads } with
  | error halt =>
    rw [looped] at done
    cases done
  | ok after =>
    rw [looped] at done
    cases done
    have empty : ImageOver site.base s.mem.pgdir [] s :=
      ⟨mappedOver_self _ _, rfl, rfl, fun _ => nofun, .nil, valid⟩
    obtain ⟨pages, image, same⟩ := (empty.read _).run looped
    rw [List.append_nil] at image
    refine ⟨pages, image.read _, ?_⟩
    intro index k
    constructor
    · rintro ⟨m, member, rfl⟩
      obtain ⟨i, inside, loads, vaddr⟩ := (same m.1).mp (List.mem_map_of_mem member)
      exact ⟨i, List.mem_range.mp inside, loads, congrArg index vaddr⟩
    · rintro ⟨i, inside, loads, rfl⟩
      obtain ⟨m, member, vaddr⟩ :=
        List.mem_map.mp ((same _).mpr ⟨i, List.mem_range.mpr inside, loads, rfl⟩)
      exact ⟨m, member, congrArg index vaddr⟩

end Image

section Below

variable {base low top second : Nat} {start : ThreadPagetables} {pages : List ImagePage}
  {elf : ElfBuffer} {s : LoadState}

theorem ImageOver.stack_pml4t (image : ImageOver base start pages s)
    (new : NewStack base top second start) :
    s.mem.pgdir.pml4t (pml4tIndex userStackLoc) = entry (pdptPhys base) userFlags := by
  rw [image.mapped.pml4t]
  split
  · rfl
  · exact new.pml4t

theorem ImageOver.laid_new (image : ImageOver base start pages s)
    (new : NewStack base top second start) (stack : StackPages)
    (untouched : ¬Touched pdptIndex pages (pdptIndex userStackLoc))
    (same : stack.pdtTableIndex = 500 ∧ stack.pdTableIndex = 500 ∧ stack.top = top ∧
      stack.second = second) : StackLaid base low stack s.mem.pgdir := by
  obtain ⟨pdtTable, pdTable, isTop, isSecond⟩ := same
  constructor
  · rw [pdtTable, pdTable]
    constructor
    · exact image.stack_pml4t new
    · rw [image.mapped.pdpt, if_neg untouched]
      exact new.pdpt
    · rw [image.pdt]
      exact new.pdt
  · rw [pdTable, isTop, image.pd]
    exact new.topEntry
  · intro _
    rw [pdTable, isSecond, image.pd]
    exact new.secondEntry

theorem ImageOver.stack_route (image : ImageOver base start pages s)
    (new : NewStack base top second start)
    (pointer : Touched pdptIndex pages (pdptIndex userStackLoc))
    (directory : Touched pdtIndex pages (pdtIndex userStackLoc)) :
    Route base s.mem.pgdir ⟨userStackLoc, 1, 0⟩ := by
  constructor
  · exact image.stack_pml4t new
  · rw [image.mapped.pdpt, if_pos pointer]
  · rw [image.mapped.pdt, if_pos directory]

theorem ImageOver.frames_apart (image : ImageOver base start pages s) {m other : ImagePage}
    (member : m ∈ pages) (member' : other ∈ pages) (differ : ptIndex m.1 ≠ ptIndex other.1) :
    m.2 ≠ other.2 := by
  have symmetric : Std.Symm fun m other : ImagePage => m.2 ≠ other.2 :=
    ⟨fun _ _ apart same => apart same.symm⟩
  refine image.apart.forall member member' ?_
  rintro rfl
  exact differ rfl

/-- What is mapped of the stack once an image is loaded. -/
theorem ImageOver.stack (image : ImageOver base start pages s)
    (new : NewStack base top second start)
    (frames : top % pgSize = 0 ∧ top < 2 ^ 52 ∧ second % pgSize = 0 ∧ second < 2 ^ 52 ∧
      top ≠ second)
    (segments : ∀ index k, Touched index pages k ↔ Segmented elf index k)
    (keeps : KeepsStack elf low) : ∃ stack, StackLaid base low stack s.mem.pgdir := by
  obtain ⟨topAligned, topBelow, secondAligned, secondBelow, apart⟩ := frames
  by_cases pointer : Touched pdptIndex pages (pdptIndex userStackLoc)
  · obtain ⟨directory, topPage, secondPage⟩ := keeps ((segments _ _).mp pointer)
    have route := image.stack_route new pointer ((segments _ _).mpr directory)
    obtain ⟨m, member, topIndex⟩ := (segments _ _).mpr topPage
    obtain ⟨mAligned, mBelow⟩ := image.mapped.isFrame m member
    have here := image.mapped.frame m member
    rw [topIndex] at here
    by_cases needed : low < userStackLoc
    · obtain ⟨other, member', secondIndex⟩ := (segments _ _).mpr (secondPage needed)
      obtain ⟨otherAligned, otherBelow⟩ := image.mapped.isFrame other member'
      have there := image.mapped.frame other member'
      rw [secondIndex] at there
      have differ : ptIndex m.1 ≠ ptIndex other.1 := by
        rw [topIndex, secondIndex]
        decide
      exact ⟨⟨1, 0, m.2, other.2, by decide, by decide, mAligned, mBelow, otherAligned, otherBelow,
        image.frames_apart member member' differ⟩, route, here, fun _ => there⟩
    · -- the lower page is not used
      obtain ⟨free, freeAligned, freeBelow, apart'⟩ : ∃ free, free % pgSize = 0 ∧ free < 2 ^ 52 ∧
          m.2 ≠ free := by
        by_cases null : m.2 = 0
        · exact ⟨pgSize, rfl, by decide, by rw [null]; decide⟩
        · exact ⟨0, rfl, by decide, null⟩
      exact ⟨⟨1, 0, m.2, free, by decide, by decide, mAligned, mBelow, freeAligned, freeBelow,
        apart'⟩, route, here, fun absent => absurd absent needed⟩
  · exact ⟨⟨500, 500, top, second, by decide, by decide, topAligned, topBelow, secondAligned,
      secondBelow, apart⟩, image.laid_new new _ pointer ⟨rfl, rfl, rfl, rfl⟩⟩

/-- Where the stack is not kept, its lowest address is not mapped. -/
theorem ImageOver.stack_lost (view : View) (placed : Placed base)
    (image : ImageOver base start pages s) (new : NewStack base top second start)
    (segments : ∀ index k, Touched index pages k ↔ Segmented elf index k)
    (bottom : userStackLoc - pgSize ≤ low) (inside : InStack low low)
    (checked : s.mem.pgdir.isFrameMappedThread base view (userStackLoc + pgSize - 8) = true)
    (lost : ¬KeepsStack elf low) :
    Paging.walk (s.mem.pgdir.tableAt base view) low base = none := by
  rw [KeepsStack, Classical.not_imp] at lost
  obtain ⟨pointer, lost⟩ := lost
  rw [← segments] at pointer
  obtain ⟨first, second', third, last⟩ := stack_indices bottom inside
  have pml4t := image.stack_pml4t new
  have pdpt : s.mem.pgdir.pdpt (pdptIndex userStackLoc) = entry (pdtPhys base 1) userFlags := by
    rw [image.mapped.pdpt, if_pos pointer]
  refine walk_none placed ?_ (walkFrom_pdpt_none placed (by decide : 1 < 512) ?_ ?_)
  · rw [first]
    exact .inr (.inr pml4t)
  · rw [second']
    exact .inr pdpt
  by_cases directory : Touched pdtIndex pages (pdtIndex userStackLoc)
  · have route := image.stack_route new pointer directory
    have topIndices : pml4tIndex (userStackLoc + pgSize - 8) = pml4tIndex userStackLoc ∧
        pdptIndex (userStackLoc + pgSize - 8) = pdptIndex userStackLoc ∧
        pdtIndex (userStackLoc + pgSize - 8) = pdtIndex userStackLoc ∧
        ptIndex (userStackLoc + pgSize - 8) = 508 := by decide
    obtain ⟨topFirst, topSecond, topThird, topLast⟩ := topIndices
    have topPage : Touched ptIndex pages 508 := by
      by_contra vacant
      rw [isFrameMappedThread_eq placed (by decide : 1 < 512) (by decide : 0 < 512)
        (topFirst ▸ route.pml4t) (topSecond ▸ route.pdpt) (topThird ▸ route.pdt), topLast,
        image.mapped.vacant 508 vacant, new.imagePd] at checked
      cases checked
    have lower : low < userStackLoc ∧ ¬Touched ptIndex pages 507 := by
      rw [← segments, ← segments, ← segments] at lost
      by_contra kept
      refine lost ⟨directory, topPage, fun needed => ?_⟩
      by_contra vacant
      exact kept ⟨needed, vacant⟩
    refine walkFrom_pd_none placed (by decide) (by decide : 0 < 512) ?_ ?_
    · rw [third]
      exact .inr route.pdt
    · rw [last, if_neg (Nat.not_le_of_lt lower.1), image.mapped.vacant 507 lower.2]
      exact new.imagePd 507
  · refine walkFrom_pdt_none (by decide) ?_
    rw [third, image.mapped.pdt, if_neg directory]
    exact new.imagePdt _

end Below

end SwagOS.Kernel
