import SwagOS.Fs.ElfLoad.Segments

/-!
# The images that loads leave

The invariant of the loop over the program headers: the segments that were loaded, each with
its frame.  The loop comes to its end if the frames suffice and if no two segments have the
same last index, since all of them go into one directory.
-/

namespace SwagOS.Fs

open SwagOS.Lib SwagOS.DataStructures SwagOS.Mem SwagOS.Kernel ThreadPagetables

abbrev Placement := Nat × Nat

namespace ElfBuffer

variable (elf : ElfBuffer)

def pages (placements : List Placement) : List ImagePage :=
  placements.map fun m => ((elf.programHeader m.1).vaddr, m.2)

def lastIndex (i : Nat) : Nat := ptIndex (elf.programHeader i).vaddr

theorem touched_pages {index : Nat → Nat} {placements : List Placement} {k : Nat} :
    Touched index (elf.pages placements) k ↔
      ∃ m ∈ placements, index (elf.programHeader m.1).vaddr = k := by
  constructor
  · rintro ⟨m, member, same⟩
    obtain ⟨placement, before, rfl⟩ := List.mem_map.mp member
    exact ⟨placement, before, same⟩
  · rintro ⟨m, member, same⟩
    exact ⟨_, List.mem_map.mpr ⟨m, member, rfl⟩, same⟩

end ElfBuffer

/-- Exactly these segments are loaded. -/
structure Image (site : LoadSite) (elf : ElfBuffer) (placements : List Placement)
    (s : LoadState) : Prop where
  valid : s.frames.Valid
  stacked : s.mem.usedPages.Stacked
  imaged : Imaged site.base (elf.pages placements) s.mem.pgdir
  apart : (placements.map fun m => elf.lastIndex m.1).Nodup
  used : ∀ m ∈ placements, s.frames.Used m.2
  contents : ∀ m ∈ placements, ∀ k < pgSize, s.ram (m.2 + k) = elf.pageByte m.1 k

variable {site : LoadSite} {elf : ElfBuffer} {placements : List Placement} {s s' : LoadState}
  {i : Nat}

theorem Image.read (image : Image site elf placements s) (reads : List Nat) :
    Image site elf placements { s with reads := reads } :=
  ⟨image.valid, image.stacked, image.imaged, image.apart, image.used, image.contents⟩

theorem frame_apart {frame other : Nat} (aligned : frame % pgSize = 0)
    (alignedOther : other % pgSize = 0) (differ : other ≠ frame) {k : Nat} (inside : k < pgSize) :
    ¬(frame ≤ other + k ∧ other + k < frame + pgSize) := by
  rw [pgSize] at *
  omega

theorem Image.load (image : Image site elf placements s) {frame : Nat} {frames : FrameManagers}
    (served : s.frames.physicalFrameRequest4kb = .ok (some frame, frames))
    {pgdir : ThreadPagetables} (mapped : s.mem.pgdir.map4kbPageUser site.base
      (elf.programHeader i).vaddr frame 1 0 = .ok pgdir) :
    Image site elf ((i, frame) :: placements) (s.loaded site elf i frame frames pgdir) := by
  obtain ⟨valid, ⟨none, -⟩ | ⟨f, some, fresh, more⟩⟩ :=
    FrameManagers.physicalFrameRequest4kb_spec image.valid served
  · cases none
  · obtain rfl := Option.some.inj some
    have used : frames.Used frame := (more frame).mpr (.inl rfl)
    have aligned := used.aligned valid
    obtain ⟨untouched, imaged⟩ := image.imaged.map mapped aligned (used.below valid)
    constructor
    case valid => exact valid
    case stacked =>
      simp only [LoadState.loaded]
      exact image.stacked.pushed _
    case imaged => exact imaged
    case apart =>
      rw [List.map_cons, List.nodup_cons]
      refine ⟨?_, image.apart⟩
      intro member
      obtain ⟨m, before, same⟩ := List.mem_map.mp member
      exact untouched (elf.touched_pages.mpr ⟨m, before, same⟩)
    case used =>
      intro m member
      rcases List.mem_cons.mp member with rfl | before
      · exact used
      · exact (more m.2).mpr (.inr (image.used m before))
    case contents =>
      intro m member k inside
      rcases List.mem_cons.mp member with rfl | before
      · have here : frame ≤ frame + k ∧ frame + k < frame + pgSize := by omega
        simp only [LoadState.loaded]
        rw [if_pos here, Nat.add_sub_cancel_left]
      · have differ : m.2 ≠ frame := fun same => fresh (same ▸ image.used m before)
        have other := (image.used m before).aligned image.valid
        simp only [LoadState.loaded]
        rw [if_neg (frame_apart aligned other differ inside)]
        exact image.contents m before k inside

theorem loadSegment_ok (sound : site.Sound) (image : Image site elf placements s)
    (loads : elf.Loads i) (done : loadSegment site elf s i = .ok s') :
    ∃ frame frames pgdir, s.frames.physicalFrameRequest4kb = .ok (some frame, frames) ∧
      s.mem.pgdir.map4kbPageUser site.base (elf.programHeader i).vaddr frame 1 0 = .ok pgdir ∧
        s' = s.loaded site elf i frame frames pgdir := by
  have requested : ∃ frame frames,
      s.frames.physicalFrameRequest4kb = .ok (some frame, frames) := by
    have page := done
    rw [loadSegment, if_neg loads.1, if_neg (not_not.mpr loads.2), loadPage] at page
    obtain ⟨⟨_ | frame, frames⟩, served, rest⟩ := Outcome.bind_ok.mp page
    · exact absurd rest (by simp)
    · exact ⟨frame, frames, served⟩
  obtain ⟨frame, frames, served⟩ := requested
  obtain ⟨valid, ⟨none, -⟩ | ⟨f, some, -, more⟩⟩ :=
    FrameManagers.physicalFrameRequest4kb_spec image.valid served
  · cases none
  · obtain rfl := Option.some.inj some
    have used : frames.Used frame := (more frame).mpr (.inl rfl)
    rw [loadSegment_loaded sound image.stacked loads served (used.aligned valid)
      (used.below valid)] at done
    cases mapped : s.mem.pgdir.map4kbPageUser site.base (elf.programHeader i).vaddr frame 1 0 with
    | error fault =>
      rw [mapped] at done
      cases done
    | ok pgdir =>
      rw [mapped] at done
      exact ⟨frame, frames, pgdir, served, mapped, (Except.ok.inj done).symm⟩

namespace ElfBuffer

def loading (elf : ElfBuffer) (l : List Nat) : List Nat := l.filter elf.Loads

theorem mem_loading {l : List Nat} : i ∈ elf.loading l ↔ i ∈ l ∧ elf.Loads i := by
  rw [loading, List.mem_filter, decide_eq_true_iff]

theorem loading_cons_of_loads (loads : elf.Loads i) (rest : List Nat) :
    elf.loading (i :: rest) = i :: elf.loading rest :=
  List.filter_cons_of_pos (decide_eq_true loads)

theorem loading_cons_of_not (skipped : ¬elf.Loads i) (rest : List Nat) :
    elf.loading (i :: rest) = elf.loading rest :=
  List.filter_cons_of_neg (mt of_decide_eq_true skipped)

/-- Before the loop nothing is mapped, and the segments themselves must differ. -/
theorem lastIndices_nodup {l : List Nat} (nodup : l.Nodup) :
    ((elf.loading l).reverse.map elf.lastIndex ++
        ([] : List Placement).map fun m => elf.lastIndex m.1).Nodup ↔
      ∀ i ∈ elf.loading l, ∀ j ∈ elf.loading l, elf.lastIndex i = elf.lastIndex j → i = j := by
  rw [List.map_nil, List.append_nil, List.map_reverse, List.nodup_reverse]
  exact List.nodup_map_iff_inj_on (nodup.filter _)

end ElfBuffer

/-- The loop leaves an image of the segments of all its turns. -/
theorem Image.run (sound : site.Sound) {l : List Nat} (image : Image site elf placements s)
    (done : l.foldlM (loadSegment site elf) s = .ok s') :
    ∃ new, Image site elf (new ++ placements) s' ∧
      new.map Prod.fst = (elf.loading l).reverse ∧
      s'.reads = s.reads ++ l.flatMap elf.turnReads := by
  induction l generalizing s placements with
  | nil =>
    rw [List.foldlM_nil, Outcome.pure_ok] at done
    subst done
    exact ⟨[], image, rfl, (List.append_nil _).symm⟩
  | cons i rest inductionHypothesis =>
    rw [List.foldlM_cons] at done
    obtain ⟨s₁, first, later⟩ := Outcome.bind_ok.mp done
    by_cases loads : elf.Loads i
    · obtain ⟨frame, frames, pgdir, served, mapped, rfl⟩ := loadSegment_ok sound image loads first
      obtain ⟨new, final, same, reads⟩ := inductionHypothesis (image.load served mapped) later
      refine ⟨new ++ [(i, frame)], ?_, ?_, ?_⟩
      · rw [List.append_assoc]
        exact final
      · rw [List.map_append, same, ElfBuffer.loading_cons_of_loads loads, List.reverse_cons]
        rfl
      · rw [reads, LoadState.loaded, List.flatMap_cons, List.append_assoc]
    · rw [loadSegment_skipped loads] at first
      obtain rfl := Except.ok.inj first
      obtain ⟨new, final, same, reads⟩ := inductionHypothesis (image.read _) later
      refine ⟨new, final, ?_, ?_⟩
      · rw [same, ElfBuffer.loading_cons_of_not loads]
      · rw [reads, List.flatMap_cons, List.append_assoc]

/-- The loop comes to its end if the frames suffice and the last indices differ. -/
theorem Image.run_returns_iff (sound : site.Sound) {l : List Nat}
    (image : Image site elf placements s) :
    (∃ s', l.foldlM (loadSegment site elf) s = .ok s') ↔
      s.frames.Serves (elf.loading l).length ∧
        ((elf.loading l).reverse.map elf.lastIndex ++
          placements.map fun m => elf.lastIndex m.1).Nodup := by
  induction l generalizing s placements with
  | nil =>
    refine iff_of_true ⟨s, rfl⟩ ⟨trivial, ?_⟩
    exact image.apart
  | cons i rest inductionHypothesis =>
    by_cases loads : elf.Loads i
    · rw [ElfBuffer.loading_cons_of_loads loads, List.length_cons, List.reverse_cons,
        List.map_append, List.append_assoc]
      constructor
      · rintro ⟨s', done⟩
        rw [List.foldlM_cons] at done
        obtain ⟨s₁, first, later⟩ := Outcome.bind_ok.mp done
        obtain ⟨frame, frames, pgdir, served, mapped, rfl⟩ :=
          loadSegment_ok sound image loads first
        obtain ⟨serves, apart⟩ :=
          (inductionHypothesis (image.load served mapped)).mp ⟨s', later⟩
        exact ⟨⟨frame, frames, served, serves⟩, apart⟩
      · rintro ⟨serves, apart⟩
        obtain ⟨frame, frames, served, later, -, -, -, aligned, below⟩ :=
          serves.request image.valid
        have untouched :
            ¬Touched ptIndex (elf.pages placements) (ptIndex (elf.programHeader i).vaddr) := by
          intro touched
          obtain ⟨m, before, same⟩ := elf.touched_pages.mp touched
          have nodup := (List.nodup_append.mp apart).2.1
          exact (List.nodup_cons.mp nodup).1 (List.mem_map.mpr ⟨m, before, same⟩)
        obtain ⟨pgdir, mapped⟩ := image.imaged.map_returns sound.placed untouched frame
        obtain ⟨s', done⟩ :=
          (inductionHypothesis (image.load served mapped)).mpr ⟨later, apart⟩
        refine ⟨s', ?_⟩
        rw [List.foldlM_cons,
          loadSegment_loaded sound image.stacked loads served aligned below, mapped]
        exact done
    · rw [ElfBuffer.loading_cons_of_not loads, List.foldlM_cons, loadSegment_skipped loads]
      exact inductionHypothesis (image.read _)

/-- The file passes `ELF_check_magic` and `ELF_check_file_class`. -/
def ElfBuffer.Passes (elf : ElfBuffer) : Prop :=
  ∀ s, (elfCheckMagic elf s).1 = true ∧ (elfCheckFileClass elf s).1 = true

theorem compareId_true {k : Nat} {l : List UInt8} (passed : (compareId elf k l s).1 = true) :
    (compareId elf k l s).2 =
      { s with reads := s.reads ++ (List.range' k l.length).map fun p => p % 2 ^ 64 } := by
  induction l generalizing k s with
  | nil => exact (congrArg (fun reads => { s with reads := reads }) (List.append_nil s.reads)).symm
  | cons b rest inductionHypothesis =>
    by_cases same : elf.at_ 0 k = b
    · rw [compareId, if_pos same] at passed ⊢
      rw [inductionHypothesis passed, List.length_cons, List.range'_succ, List.map_cons]
      simp only [LoadState.read_frames, LoadState.read_mem, LoadState.read_tables,
        LoadState.read_ram, LoadState.read_reads, List.append_assoc]
      rfl
    · rw [compareId, if_neg same] at passed
      cases passed

theorem compareId_file (k : Nat) (l : List UInt8) :
    (compareId elf k l s).1 = (compareId elf k l s').1 := by
  induction l generalizing k s s' with
  | nil => rfl
  | cons b rest inductionHypothesis =>
    rw [compareId, compareId]
    split
    · exact inductionHypothesis (k + 1)
    · rfl

theorem compareId_mem (k : Nat) (l : List UInt8) : (compareId elf k l s).2.mem = s.mem := by
  induction l generalizing k s with
  | nil => rfl
  | cons b rest inductionHypothesis =>
    rw [compareId]
    split
    · exact inductionHypothesis (k + 1)
    · rfl

/-- A file that does not pass changes nothing, and gives the null pointer. -/
theorem elfLoadSegments_refuses (refused : ¬elf.Passes) : ∃ s',
    elfLoadSegments site elf s = .ok (0, s') ∧ s'.mem = s.mem := by
  rw [elfLoadSegments]
  cases magic : (elfCheckMagic elf s).1 with
  | false =>
    simp only [magic, Bool.not_false, if_true]
    exact ⟨_, rfl, compareId_mem 0 _⟩
  | true =>
    cases fileClass : (elfCheckFileClass elf (elfCheckMagic elf s).2).1 with
    | false =>
      simp only [magic, fileClass, Bool.not_true, Bool.not_false, Bool.false_eq_true, if_false,
        if_true]
      exact ⟨_, rfl, (compareId_mem 4 _).trans (compareId_mem 0 _)⟩
    | true =>
      refine absurd ?_ refused
      exact fun other => ⟨(compareId_file 0 _).trans magic, (compareId_file 4 _).trans fileClass⟩

theorem ElfBuffer.Passes.first (passes : elf.Passes) (s : LoadState) : elf.bytes 0 = 0x7f := by
  obtain ⟨magic, -⟩ := passes s
  by_contra other
  rw [elfCheckMagic, compareId, if_neg] at magic
  · cases magic
  · exact other

def identReads : List Nat := offsets 0 5
def finalReads : List Nat := offsets 56 2 ++ offsets 24 8

theorem elfLoadSegments_passes (passes : elf.Passes) :
    elfLoadSegments site elf s =
      ((List.range elf.phNum).foldlM (loadSegment site elf)
        { s with reads := s.reads ++ identReads }).map
          fun s => (elf.entry, { s with reads := s.reads ++ finalReads }) := by
  obtain ⟨magic, -⟩ := passes s
  have first : elfCheckMagic elf s = (true, { s with reads := s.reads ++ offsets 0 4 }) :=
    Prod.ext magic (compareId_true magic)
  obtain ⟨-, fileClass⟩ := passes { s with reads := s.reads ++ offsets 0 4 }
  have second : elfCheckFileClass elf { s with reads := s.reads ++ offsets 0 4 } =
      (true, { s with reads := s.reads ++ identReads }) := by
    refine Prod.ext fileClass ((compareId_true fileClass).trans ?_)
    simp only [List.append_assoc]
    rfl
  rw [elfLoadSegments, first]
  simp only [second, Bool.not_true, Bool.false_eq_true, if_false]
  cases (List.range elf.phNum).foldlM (loadSegment site elf)
      { s with reads := s.reads ++ identReads } with
  | error halt => rfl
  | ok s' =>
    simp only [LoadState.read, finalReads, List.append_assoc]
    rfl

end SwagOS.Fs
