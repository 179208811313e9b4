import SwagOS.Kernel.Fork.Recorded
import SwagOS.Kernel.UserMemory.Isolation

/-!
# fork copies the address space

The child of a parent whose list of used pages is what its tables map: the same pages, each
in a frame that nobody had, with the bytes of the parent's page.
-/

namespace SwagOS.Kernel

open SwagOS.Lib SwagOS.DataStructures SwagOS.Mem ThreadPagetables

section Pages

variable {pages : List UsedPage} {copies : List Copy} (all : copies.reverse.map Prod.fst = pages)
include all

theorem exists_copy {page : UsedPage} (listed : page ∈ pages) : ∃ c ∈ copies, c.1 = page := by
  rw [← all] at listed
  obtain ⟨c, member, rfl⟩ := List.mem_map.mp listed
  exact ⟨c, List.mem_reverse.mp member, rfl⟩

theorem copied_mem {c : Copy} (isCopy : c ∈ copies) : c.1 ∈ pages := by
  rw [← all]
  exact List.mem_map_of_mem (List.mem_reverse.mpr isCopy)

theorem places_copied : ∀ m ∈ pages.map UsedPage.placed,
    ∃ m' ∈ copies.map fun c => c.page.placed, m'.1 = m.1 := by
  intro m member
  obtain ⟨page, listed, rfl⟩ := List.mem_map.mp member
  obtain ⟨c, isCopy, rfl⟩ := exists_copy all listed
  exact ⟨c.page.placed, List.mem_map_of_mem isCopy, rfl⟩

theorem copies_placed : ∀ m ∈ copies.map fun c => c.page.placed,
    ∃ m' ∈ pages.map UsedPage.placed, m'.1 = m.1 := by
  intro m member
  obtain ⟨c, isCopy, rfl⟩ := List.mem_map.mp member
  exact ⟨c.1.placed, List.mem_map_of_mem (copied_mem all isCopy), rfl⟩

end Pages

/-- The child has the pages of its parent, in frames of its own, and the parent is as it
was. -/
structure Forked (layout : Layout) (view : View) (p q : Nat) (s s' : ForkSystem)
    (copies : List Copy) : Prop where
  pages : copies.map Prod.fst = (s.system.memory q).usedPages.contents
  contents : (s'.system.memory p).usedPages.contents = (copies.map Copy.page).reverse
  records : RecordsExactly (layout.pgdirPhys p) view (s'.system.memory p)
  fresh : ∀ c ∈ copies, ¬s.system.frames.Used c.2
  once : (copies.map Prod.snd).Nodup
  used : ∀ g, s'.system.frames.Used g ↔ s.system.frames.Used g ∨ ∃ c ∈ copies, c.2 = g
  mapped : ∀ va t, UserWalk (layout.pgdirPhys q) view (s.system.memory q).pgdir va t →
    ∃ c ∈ copies, t = ⟨c.1.pagePa + va % pgSize, true, true⟩ ∧
      UserWalk (layout.pgdirPhys p) view (s'.system.memory p).pgdir va
        ⟨c.2 + va % pgSize, true, true⟩
  onlyMapped : ∀ va t, UserWalk (layout.pgdirPhys p) view (s'.system.memory p).pgdir va t →
    ∃ t', UserWalk (layout.pgdirPhys q) view (s.system.memory q).pgdir va t'
  bytes : ∀ c ∈ copies, ∀ x < pgSize, s'.ram (c.2 + x) = s.ram (c.1.pagePa + x)
  ram : ∀ a, (∀ c ∈ copies, ¬InFrame c.2 a) → s'.ram a = s.ram a
  parentBytes : ∀ c ∈ copies, ∀ x < pgSize, s'.ram (c.1.pagePa + x) = s.ram (c.1.pagePa + x)
  parent : s'.system.memory q = s.system.memory q
  others : ∀ r, r ≠ p → s'.system.memory r = s.system.memory r

/-- The parent `q` of a call of fork by thread `old`, with the slot `p` for its child. -/
structure ForkSound (layout : Layout) (view : View) (s : ForkSystem) (old iRip p q : Nat) :
    Prop where
  process : s.system.table.findFreeProcess = some p
  thread : s.system.table.findFreeThread ≠ none
  owner : (s.system.table.threads old).ownerProc = some q
  inUse : (s.system.table.procs q).state = .inuse
  childPlaced : Placed (layout.pgdirPhys p)
  parentPlaced : Placed (layout.pgdirPhys q)
  valid : s.system.frames.Valid
  serves : s.system.frames.Serves (s.system.memory q).usedPages.contents.length
  unused : (s.system.memory p).usedPages.Stacked ∧ (s.system.memory p).usedPages.contents = []
  records : RecordsExactly (layout.pgdirPhys q) view (s.system.memory q)
  used : ∀ page ∈ (s.system.memory q).usedPages.contents, s.system.frames.Used page.pagePa
  hidden : ∀ page ∈ (s.system.memory q).usedPages.contents,
    view.frameMappedKernel page.pageVa = false
  iRip : ∃ page ∈ (s.system.memory q).usedPages.contents, iRip / pgSize = page.pageVa / pgSize

section Call

variable {layout : Layout} {view : View} {s : ForkSystem} {old iRip p q : Nat}

/-- Where processes are kept apart, the slot of the child has no pages, and the frames of the
parent are in use. -/
theorem ForkSound.of_inv (inv : s.system.Inv) (process : s.system.table.findFreeProcess = some p)
    (thread : s.system.table.findFreeThread ≠ none)
    (owner : (s.system.table.threads old).ownerProc = some q)
    (inUse : (s.system.table.procs q).state = .inuse) (childPlaced : Placed (layout.pgdirPhys p))
    (parentPlaced : Placed (layout.pgdirPhys q))
    (serves : s.system.frames.Serves (s.system.memory q).usedPages.contents.length)
    (records : RecordsExactly (layout.pgdirPhys q) view (s.system.memory q))
    (hidden : ∀ page ∈ (s.system.memory q).usedPages.contents,
      view.frameMappedKernel page.pageVa = false)
    (mapped : ∃ page ∈ (s.system.memory q).usedPages.contents,
      iRip / pgSize = page.pageVa / pgSize) :
    ForkSound layout view s old iRip p q := by
  obtain ⟨-, free⟩ := ThreadTable.findFreeProcess_some process
  have notInUse : (s.system.table.procs p).state ≠ .inuse := by
    rw [free]
    exact ProcessState.noConfusion
  have released := inv.released notInUse
  have empty : (s.system.memory p).usedPages.contents = [] :=
    released.stacked.contents_nil.mpr released.empty
  constructor
  all_goals try assumption
  case valid => exact inv.valid
  case unused => exact ⟨released.stacked, empty⟩
  case used =>
    intro page isPage
    obtain ⟨i, listed, rfl⟩ := records.stacked.mem_contents.mp isPage
    obtain ⟨state, tracks⟩ := inv.listed q i listed
    have maps : s.system.Maps q _ _ _ := ⟨state, tracks⟩
    exact inv.exclusive.allocated (h := (q, _, _)) maps

def ForkSystem.site (s : ForkSystem) (layout : Layout) (view : View) (p q : Nat) (buf : Bytes) :
    ForkSite :=
  ⟨layout, view, p, q, s.system.memory q, buf⟩

theorem ForkSound.start (sound : ForkSound layout view s old iRip p q) (buf : Bytes) :
    let site := s.site layout view p q buf
    let space := s.system.space p
    CopySound site s.system.frames ∧ PagesCopied site ⟨space, s.ram⟩ []
      ⟨{ space with mem := { space.mem with pgdir := .create site.childBase } }, s.ram⟩ := by
  refine ⟨⟨sound.parentPlaced, sound.childPlaced, sound.records, sound.used, sound.hidden⟩, ?_⟩
  constructor
  case tables => exact exact_create sound.childPlaced
  case stacked => exact sound.unused.1
  case contents => exact sound.unused.2
  case valid => exact sound.valid
  case fresh => exact fun _ => nofun
  case used =>
    intro g
    simp [System.space]
  case once => exact .nil
  case copied => exact fun _ => nofun
  case kept => exact fun _ _ => rfl

theorem ForkSound.forked (sound : ForkSound layout view s old iRip p q) (buf : Bytes) :
    ∃ s' copies, forkUserProcess layout view buf old iRip s = .ok ((p : Int), s') ∧
      Forked layout view p q s s' copies := by
  obtain ⟨copySound, start⟩ := sound.start buf
  obtain ⟨t, thread⟩ := Option.ne_none_iff_exists'.mp sound.thread
  obtain ⟨-, free⟩ := ThreadTable.findFreeProcess_some sound.process
  have apart : q ≠ p := by
    rintro rfl
    cases free.symm.trans sound.inUse
  have stacked := sound.records.stacked
  have ways := sound.records.ways
  obtain ⟨copy, copies, looped, copied, all⟩ := start.run copySound _ sound.serves rfl
  have walked : (s.site layout view p q buf).createPageTableFromCopy ⟨s.system.space p, s.ram⟩ =
      .ok copy := by
    rw [ForkSite.createPageTableFromCopy]
    exact (ForkSite.copyPages_eq (s.site layout view p q buf) stacked stacked.first
      stacked.first).trans looped
  have mapped : copy.space.mem.pgdir.isFrameMappedThread (layout.pgdirPhys p) view iRip = true := by
    obtain ⟨page, listed, here⟩ := sound.iRip
    obtain ⟨c, isCopy, rfl⟩ := exists_copy all listed
    have member : c.page.placed ∈ copies.map fun c => c.page.placed := List.mem_map_of_mem isCopy
    exact copied.tables.ways.isFrameMapped view sound.childPlaced member here
  refine ⟨⟨{ s.system.withSpace p copy.space with
    table := s.system.table.forkUserProcess old iRip }, copy.ram⟩, copies.reverse, ?_, ?_⟩
  · rw [forkUserProcess]
    dsimp only
    rw [sound.process, thread, sound.owner]
    refine Outcome.bind_ok.mpr ⟨copy, walked, ?_⟩
    exact Outcome.bind_ok.mpr ⟨(), Outcome.panicUnless_ok.mpr mapped, rfl⟩
  have child : (s.system.withSpace p copy.space).memory p = copy.space.mem :=
    System.withSpace_memory_self s.system p copy.space
  constructor
  case pages => exact all
  case contents =>
    dsimp only
    rw [child, copied.contents, List.map_reverse, List.reverse_reverse]
  case records =>
    dsimp only
    rw [child]
    have placed : copy.space.mem.usedPages.contents.map UsedPage.placed =
        copies.map fun c => c.page.placed := by
      rw [copied.contents, List.map_map]
      rfl
    have frames : copy.space.mem.usedPages.contents.map UsedPage.pagePa = copies.map Prod.snd := by
      rw [copied.contents, List.map_map]
      rfl
    have aligned : ∀ page ∈ copy.space.mem.usedPages.contents, page.pageVa % pgSize = 0 := by
      rw [copied.contents]
      intro page listed
      obtain ⟨c, isCopy, rfl⟩ := List.mem_map.mp listed
      exact sound.records.aligned c.1 (copied_mem all isCopy)
    exact .of_exact sound.childPlaced copied.stacked aligned (placed.symm ▸ copied.tables)
      (frames.symm ▸ copied.once)
  case fresh => exact fun c isCopy => copied.fresh c (List.mem_reverse.mp isCopy)
  case once =>
    rw [List.map_reverse]
    exact List.nodup_reverse.mpr copied.once
  case used =>
    intro g
    simp only [List.mem_reverse]
    exact copied.used g
  case mapped =>
    intro va t user
    obtain ⟨m, leads⟩ := sound.records.leads va t user
    obtain ⟨page, listed, rfl⟩ := List.mem_map.mp leads.member
    obtain ⟨c, isCopy, rfl⟩ := exists_copy all listed
    have member : c.page.placed ∈ copies.map fun c => c.page.placed := List.mem_map_of_mem isCopy
    have found := ways.walk view sound.parentPlaced leads
    have found' := copied.tables.ways.walk view sound.childPlaced
      (leads.transfer (places_copied all) member rfl)
    refine ⟨c, List.mem_reverse.mpr isCopy, Option.some.inj (user.1.symm.trans found), ?_, rfl⟩
    dsimp only
    rw [child]
    exact found'
  case onlyMapped =>
    intro va t user
    dsimp only at user
    rw [child] at user
    obtain ⟨m, leads⟩ := copied.tables.leads sound.childPlaced user
    obtain ⟨m', member', same⟩ := copies_placed all m leads.member
    exact ⟨_, ways.walk view sound.parentPlaced (leads.transfer (copies_placed all) member' same), rfl⟩
  case bytes => exact fun c isCopy => copied.copied c (List.mem_reverse.mp isCopy)
  case ram =>
    intro a outside
    exact copied.kept a fun c isCopy => outside c (List.mem_reverse.mpr isCopy)
  case parentBytes =>
    intro c isCopy x inside
    have listed := copied_mem all (List.mem_reverse.mp isCopy)
    have aligned : c.1.pagePa % pgSize = 0 := (ways.isFrame _ (List.mem_map_of_mem listed)).1
    refine copied.kept _ fun c' isCopy' => ?_
    have aligned' := (copied.tables.ways.isFrame _ (List.mem_map_of_mem isCopy')).1
    refine inFrame_apart aligned aligned' ?_ ⟨Nat.le_add_right _ _, by omega⟩
    intro same
    have used : s.system.frames.Used c'.2 := same ▸ sound.used c.1 listed
    exact copied.fresh c' isCopy' used
  case parent => exact System.withSpace_memory_other s.system copy.space apart
  case others =>
    intro r other
    exact System.withSpace_memory_other s.system copy.space other

end Call

/-- The first process, with its six pages, at its first instruction. -/
theorem firstProcess_sound : ∃ s, firstProcess = .ok s ∧
    ForkSound System.machine System.nothingElse ⟨s, fun a => UInt8.ofNat a⟩ 1 0x400000 1 0 ∧
    (s.memory 0).usedPages.contents.length = 6 := by
  obtain ⟨s, created, passed⟩ := Outcome.of_test (by decide +kernel :
    firstProcess.test (fun s => decide (s.table.findFreeProcess = some 1 ∧
      s.table.findFreeThread ≠ none ∧ (s.table.threads 1).ownerProc = some 0 ∧
      (s.table.procs 0).state = .inuse ∧ FrameManagers.served 6 s.frames = true)) = true)
  obtain ⟨process, thread, owner, inUse, served⟩ := of_decide_eq_true passed
  obtain ⟨recorded, lists⟩ := firstProcess_recorded created
  have inv : s.Inv := System.fresh_start.inv.createUserProcess created
  have lists : (s.memory 0).usedPages.contents.map UsedPage.place =
    firstPages.map (UserPage.place 2) := lists
  have length : (s.memory 0).usedPages.contents.length = 6 := by
    rw [← List.length_map UsedPage.place, lists]
    rfl
  have image : (UserPage.image 0).place 2 ∈
      (s.memory 0).usedPages.contents.map UsedPage.place := by
    rw [lists]
    exact List.mem_map_of_mem (by decide)
  obtain ⟨page, listed, isImage⟩ := List.mem_map.mp image
  have iRip : 0x400000 / pgSize = page.pageVa / pgSize :=
    congrArg (fun place : PagePlace => place.va / pgSize) isImage.symm
  refine ⟨s, created, ?_, length⟩
  apply ForkSound.of_inv (s := ⟨s, fun a => UInt8.ofNat a⟩) inv process thread owner inUse
  case childPlaced => constructor <;> decide
  case parentPlaced => exact machine_placed
  case serves =>
    dsimp only
    rw [length]
    exact FrameManagers.serves_iff.mpr served
  case records => exact recorded.exactly machine_placed _
  case hidden => exact fun _ _ => rfl
  case mapped => exact ⟨page, listed, iRip⟩

end SwagOS.Kernel
