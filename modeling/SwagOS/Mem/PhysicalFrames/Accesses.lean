import SwagOS.Lib.Checked
import SwagOS.Mem.PhysicalFrames.Boundaries

/-!
# Accesses to the frame bitmap

Nothing compares a frame with the 64 GB that the bitmap has bits for.  The functions are
given again here with a check of each index, so that a computation stops at the first access
behind the 512 words, and they are otherwise the same.
-/

namespace SwagOS.Mem

open SwagOS.Lib

def accessWord (i : Nat) : Checked Nat Unit := .check (i < 512) i

namespace PhysicalMemoryManager

def checkPhysicalPageInUseChecked (pmm : PhysicalMemoryManager) (physicalAddress : Nat) :
    Checked Nat Bool := do
  accessWord (entryIndex physicalAddress)
  pure (pmm.checkPhysicalPageInUse physicalAddress)

def physicalFrameCheckinChecked (pmm : PhysicalMemoryManager) (physicalAddress : Nat) :
    Checked Nat PhysicalMemoryManager := do
  accessWord (entryIndex physicalAddress)
  pure (pmm.physicalFrameCheckin physicalAddress)

def physicalFrameFreeChecked (pmm : PhysicalMemoryManager) (frame : Nat) :
    Checked Nat PhysicalMemoryManager :=
  if frame % hugePgSize ≠ 0 then
    throw (.halt (.panic "physical_frame_free() --> frame not page aligned.\n"))
  else if checkKernelFrame frame then
    if pmm.initSuccess = false then pure pmm
    else throw (.halt (.panic "physical_frame_free() --> Cannot free a frame used in a kernel section"))
  else do
    if (← pmm.checkPhysicalPageInUseChecked frame) = false then
      throw (.halt (.panic "physical_frame_free() --> attempted to fee an unused frame\n"))
    else
      let pmm ← pmm.physicalFrameCheckinChecked frame
      if ← pmm.checkPhysicalPageInUseChecked frame then throw (.halt (.panic "free failed"))
      else pure pmm

def freeHugeframesChecked : Nat → PhysicalMemoryManager → Nat → Nat →
    Checked Nat PhysicalMemoryManager
  | 0, _, _, _ => throw (.halt .hang)
  | fuel + 1, pmm, pgFrame, finish =>
      if (pgFrame + hugePgSize) % 2 ^ 64 < finish then do
        let pmm ← pmm.physicalFrameFreeChecked pgFrame
        freeHugeframesChecked fuel pmm ((pgFrame + hugePgSize) % 2 ^ 64) finish
      else pure pmm

def freeHugeframeRangeChecked (pmm : PhysicalMemoryManager) (start finish : Nat) :
    Checked Nat PhysicalMemoryManager :=
  if (finish + (2 ^ 64 - start)) % 2 ^ 64 < hugePgSize then pure pmm
  else freeHugeframesChecked (2 ^ 43 + 1) pmm (hugePgRoundUp start) finish

def parseEntriesChecked (tag : MultibootTagMmap) (pmm : PhysicalMemoryManager)
    (entry currSize : Nat) : Checked Nat PhysicalMemoryManager :=
  if currSize < tag.size then do
    let record := tag.entries entry
    let pmm ←
      if record.type = multibootMemoryAvailable then
        pmm.freeHugeframeRangeChecked record.addr ((record.addr + record.len) % 2 ^ 64)
      else pure pmm
    parseEntriesChecked tag pmm (entry + 1) (currSize + 24)
  else pure pmm
termination_by tag.size - currSize

def parseMultibootMmapEntriesChecked (pmm : PhysicalMemoryManager) (tag : MultibootTagMmap) :
    Checked Nat PhysicalMemoryManager := do
  let pmm ← parseEntriesChecked tag pmm.initPMM 0 16
  pure { pmm with initSuccess := true }

theorem physicalFrameFreeChecked_guards (pmm : PhysicalMemoryManager) (frame : Nat) :
    (pmm.physicalFrameFreeChecked frame).Guards (pmm.physicalFrameFree frame) := by
  have inUse : ∀ pmm : PhysicalMemoryManager, (pmm.checkPhysicalPageInUseChecked frame).Guards
      (pure (pmm.checkPhysicalPageInUse frame)) := fun pmm =>
    .bind_pure Checked.guards_check (Checked.guards_pure _)
  have checkin : (pmm.physicalFrameCheckinChecked frame).Guards
      (pure (pmm.physicalFrameCheckin frame)) :=
    .bind_pure Checked.guards_check (Checked.guards_pure _)
  unfold physicalFrameFreeChecked physicalFrameFree
  apply Checked.Guards.ite
  · exact Checked.guards_halt _
  apply Checked.Guards.ite
  · exact .ite (Checked.guards_pure _) (Checked.guards_halt _)
  apply Checked.Guards.bind_pure (inUse pmm)
  apply Checked.Guards.ite
  · exact Checked.guards_halt _
  apply Checked.Guards.bind_pure checkin
  apply Checked.Guards.bind_pure (inUse _)
  exact .ite (Checked.guards_halt _) (Checked.guards_pure _)

theorem freeHugeframesChecked_guards (fuel : Nat) (pmm : PhysicalMemoryManager)
    (pgFrame finish : Nat) :
    (freeHugeframesChecked fuel pmm pgFrame finish).Guards
      (freeHugeframes fuel pmm pgFrame finish) := by
  induction fuel generalizing pmm pgFrame with
  | zero => exact Checked.guards_halt _
  | succ fuel inductionHypothesis =>
    unfold freeHugeframesChecked freeHugeframes
    refine .ite (.bind (physicalFrameFreeChecked_guards pmm pgFrame) fun next => ?_)
      (Checked.guards_pure _)
    exact inductionHypothesis next _

theorem freeHugeframeRangeChecked_guards (pmm : PhysicalMemoryManager) (start finish : Nat) :
    (pmm.freeHugeframeRangeChecked start finish).Guards (pmm.freeHugeframeRange start finish) :=
  .ite (Checked.guards_pure _) (freeHugeframesChecked_guards _ _ _ _)

theorem parseEntriesChecked_guards (tag : MultibootTagMmap) (pmm : PhysicalMemoryManager)
    (entry currSize : Nat) :
    (parseEntriesChecked tag pmm entry currSize).Guards (parseEntries tag pmm entry currSize) := by
  induction remaining : tag.size - currSize using Nat.strong_induction_on
    generalizing pmm entry currSize with
  | _ size inductionHypothesis =>
    unfold parseEntriesChecked parseEntries
    by_cases more : currSize < tag.size
    · rw [if_pos more, if_pos more]
      have rest : ∀ next, (parseEntriesChecked tag next (entry + 1) (currSize + 24)).Guards
          (parseEntries tag next (entry + 1) (currSize + 24)) := fun next =>
        inductionHypothesis _ (by omega) next _ _ rfl
      apply Checked.Guards.ite
      · exact .bind (freeHugeframeRangeChecked_guards _ _ _) rest
      · exact .bind (Checked.guards_pure pmm) rest
    · rw [if_neg more, if_neg more]
      exact Checked.guards_pure _

theorem parseMultibootMmapEntriesChecked_guards (pmm : PhysicalMemoryManager)
    (tag : MultibootTagMmap) :
    (pmm.parseMultibootMmapEntriesChecked tag).Guards (pmm.parseMultibootMmapEntries tag) :=
  .bind (parseEntriesChecked_guards _ _ _ _) fun _ => Checked.guards_pure _

theorem physicalFrameFreeChecked_meets {pmm : PhysicalMemoryManager} {frame : Nat}
    (inside : entryIndex frame < 512) : (pmm.physicalFrameFreeChecked frame).Meets := by
  have access : (accessWord (entryIndex frame)).Meets := Checked.meets_check.mpr inside
  have inUse : ∀ pmm : PhysicalMemoryManager, (pmm.checkPhysicalPageInUseChecked frame).Meets :=
    fun pmm => Checked.meets_bind.mpr ⟨access, fun _ _ => Checked.meets_pure _⟩
  have checkin : (pmm.physicalFrameCheckinChecked frame).Meets :=
    Checked.meets_bind.mpr ⟨access, fun _ _ => Checked.meets_pure _⟩
  unfold physicalFrameFreeChecked
  split
  next => exact Checked.meets_halt _
  next =>
    split
    next =>
      split
      next => exact Checked.meets_pure _
      next => exact Checked.meets_halt _
    next =>
      refine Checked.meets_bind.mpr ⟨inUse pmm, fun used _ => ?_⟩
      split
      next => exact Checked.meets_halt _
      next =>
        refine Checked.meets_bind.mpr ⟨checkin, fun next _ => ?_⟩
        refine Checked.meets_bind.mpr ⟨inUse next, fun used _ => ?_⟩
        split
        next => exact Checked.meets_halt _
        next => exact Checked.meets_pure _

theorem physicalFrameFreeChecked_frame {pmm : PhysicalMemoryManager} {k : Nat}
    (inside : k < frameBound) : pmm.physicalFrameFreeChecked (k * hugePgSize) =
      .lift (pmm.physicalFrameFree (k * hugePgSize)) := by
  refine physicalFrameFreeChecked_guards pmm _ (physicalFrameFreeChecked_meets ?_)
  unfold frameBound at inside
  rw [entryIndex_frame]
  omega

theorem physicalFrameFreeChecked_above {pmm : PhysicalMemoryManager} {k : Nat}
    (above : frameBound ≤ k) : pmm.physicalFrameFreeChecked (k * hugePgSize) =
      .error (.violation (k / 64)) := by
  unfold frameBound at above
  have user : checkKernelFrame (k * hugePgSize) = false := by
    apply decide_eq_false
    unfold hugePgSize
    omega
  have outside : ¬k / 64 < 512 := by omega
  unfold physicalFrameFreeChecked checkPhysicalPageInUseChecked accessWord Checked.check
  rw [if_neg (by simp), user, entryIndex_frame, if_neg outside]
  rfl

theorem physicalFrameFree_unused {pmm : PhysicalMemoryManager} {k : Nat}
    (clear : pmm.marked k = false) (usable : 2 ^ 30 ≤ k * hugePgSize) :
    pmm.physicalFrameFree (k * hugePgSize) =
      .error (.panic "physical_frame_free() --> attempted to fee an unused frame\n") := by
  have user : checkKernelFrame (k * hugePgSize) = false := decide_eq_false (Nat.not_lt.mpr usable)
  unfold physicalFrameFree
  rw [if_neg (by simp), user, checkPhysicalPageInUse_frame, clear]
  rfl

theorem clearFrames_checkin (pmm : PhysicalMemoryManager) {k : Nat} (inside : k < frameBound) :
    (pmm.physicalFrameCheckin (k * hugePgSize)).clearFrames = insert k pmm.clearFrames := by
  rw [physicalFrameCheckin_frame]
  exact Bitmap.clearBits_clear (by decide) (by decide) inside _

def Leaves (first finish : Nat) : Prop :=
  (max first frameBound + 1) * hugePgSize % 2 ^ 64 < finish

/-- The ends of the loop: it frees its frames, or it comes to one that is free, or it leaves
the bitmap before that. -/
inductive FreeOutcome (pmm : PhysicalMemoryManager) (range : Nat → Prop) (leaves : Prop) :
    Checked Nat PhysicalMemoryManager → Prop where
  | done {freed : PhysicalMemoryManager} : ¬leaves → (∀ k ∈ pmm.clearFrames, ¬range k) →
      freed.initSuccess = false →
      (∀ k, k ∈ freed.clearFrames ↔ k ∈ pmm.clearFrames ∨ k < frameBound ∧ range k) →
      FreeOutcome pmm range leaves (.ok freed)
  | panic {message : String} {k : Nat} : k ∈ pmm.clearFrames → range k →
      FreeOutcome pmm range leaves (.error (.halt (.panic message)))
  | outside {i : Nat} : leaves → (∀ k ∈ pmm.clearFrames, ¬range k) →
      FreeOutcome pmm range leaves (.error (.violation i))

theorem FreeOutcome.congr {pmm : PhysicalMemoryManager} {range range' : Nat → Prop} {leaves : Prop}
    {result : Checked Nat PhysicalMemoryManager} (outcome : FreeOutcome pmm range leaves result)
    (same : ∀ k, range' k ↔ range k) : FreeOutcome pmm range' leaves result := by
  obtain rfl : range' = range := funext fun k => propext (same k)
  exact outcome

theorem FreeOutcome.after {pmm next : PhysicalMemoryManager} {range range' : Nat → Prop}
    {leaves : Prop} {first : Nat} {result : Checked Nat PhysicalMemoryManager}
    (outcome : FreeOutcome next range' leaves result) (inside : first < frameBound)
    (busy : first ∉ pmm.clearFrames) (grown : next.clearFrames = insert first pmm.clearFrames)
    (later : ¬range' first) (split : ∀ k, range k ↔ k = first ∨ range' k) :
    FreeOutcome pmm range leaves result := by
  have noneBefore : (∀ k ∈ next.clearFrames, ¬range' k) → ∀ k ∈ pmm.clearFrames, ¬range k := by
    intro none k clear inRange
    rcases (split k).mp inRange with rfl | inRest
    · exact busy clear
    · exact none k (grown ▸ Finset.mem_insert_of_mem clear) inRest
  cases outcome with
  | done stays none setup exactly =>
    refine .done stays (noneBefore none) setup fun k => ?_
    rw [exactly, grown, Finset.mem_insert, split]
    constructor
    · rintro ((rfl | clear) | ⟨below, inRest⟩)
      · exact .inr ⟨inside, .inl rfl⟩
      · exact .inl clear
      · exact .inr ⟨below, .inr inRest⟩
    · rintro (clear | ⟨below, rfl | inRest⟩)
      · exact .inl (.inr clear)
      · exact .inl (.inl rfl)
      · exact .inr ⟨below, inRest⟩
  | @panic _ k clear inRest =>
    rw [grown] at clear
    rcases Finset.mem_insert.mp clear with rfl | before
    · exact absurd inRest later
    · exact .panic before ((split k).mpr (.inr inRest))
  | outside leaves none => exact .outside leaves (noneBefore none)

theorem freeHugeframesChecked_spec {fuel : Nat} {pmm : PhysicalMemoryManager} {first finish : Nat}
    (turns : 0 < fuel) (enough : frameBound + 1 < fuel + first) (setup : pmm.initSuccess = false) :
    FreeOutcome pmm (RangeFrame first finish) (Leaves first finish)
      (freeHugeframesChecked fuel pmm (first * hugePgSize) finish) := by
  induction fuel generalizing pmm first with
  | zero => exact absurd turns (Nat.lt_irrefl 0)
  | succ fuel inductionHypothesis =>
    unfold freeHugeframesChecked
    by_cases above : frameBound ≤ first
    · have leaves : Leaves first finish ↔ (first * hugePgSize + hugePgSize) % 2 ^ 64 < finish := by
        unfold Leaves
        rw [max_eq_left above, Nat.add_mul, Nat.one_mul]
      have none : ∀ k ∈ pmm.clearFrames, ¬RangeFrame first finish k := by
        intro k clear inRange
        have below := (mem_clearFrames.mp clear).1
        exact absurd (Nat.le_trans above inRange.1) (Nat.not_le_of_lt below)
      by_cases running : (first * hugePgSize + hugePgSize) % 2 ^ 64 < finish
      · rw [if_pos running, physicalFrameFreeChecked_above above]
        exact .outside (leaves.mpr running) none
      · rw [if_neg running]
        refine .done (fun never => running (leaves.mp never)) none setup fun k => ⟨.inl, ?_⟩
        rintro (clear | ⟨below, inRange⟩)
        · exact clear
        · exact absurd (Nat.le_trans above inRange.1) (Nat.not_le_of_lt below)
    · have inside : first < frameBound := Nat.lt_of_not_le above
      have noWrap : (first * hugePgSize + hugePgSize) % 2 ^ 64 = (first + 1) * hugePgSize := by
        rw [Nat.add_mul, Nat.one_mul]
        apply Nat.mod_eq_of_lt
        unfold frameBound at inside
        unfold hugePgSize
        omega
      have leaves : Leaves first finish = Leaves (first + 1) finish := by
        unfold Leaves
        rw [max_eq_right (Nat.le_of_lt inside), max_eq_right (Nat.succ_le_of_lt inside)]
      have turnsNext : 0 < fuel := by omega
      have enoughNext : frameBound + 1 < fuel + (first + 1) := by omega
      rw [noWrap]
      by_cases running : (first + 1) * hugePgSize < finish
      · rw [if_pos running, physicalFrameFreeChecked_frame inside]
        have split := rangeFrame_split running
        by_cases kernel : first * hugePgSize < 2 ^ 30
        · rw [physicalFrameFree_kernel setup kernel]
          rw [leaves]
          refine (inductionHypothesis turnsNext enoughNext setup).congr (fun k => ?_)
          rw [split, or_iff_right fun here => Nat.not_le_of_lt kernel here.2]
        · have usable : 2 ^ 30 ≤ first * hugePgSize := Nat.le_of_not_lt kernel
          by_cases isMarked : pmm.marked first = true
          · rw [physicalFrameFree_frame isMarked usable]
            have busy : first ∉ pmm.clearFrames := by
              rw [mem_clearFrames, isMarked]
              exact fun clear => Bool.noConfusion clear.2
            have grown := clearFrames_checkin pmm inside
            have setupNext : (pmm.physicalFrameCheckin (first * hugePgSize)).initSuccess = false :=
              setup
            rw [leaves]
            refine (inductionHypothesis turnsNext enoughNext setupNext).after inside busy grown
              (fun again => ?_) fun k => ?_
            · exact Nat.not_succ_le_self first again.1
            · rw [split, and_iff_left usable]
          · have clear : pmm.marked first = false := Bool.eq_false_of_not_eq_true isMarked
            rw [physicalFrameFree_unused clear usable]
            exact .panic (mem_clearFrames.mpr ⟨inside, clear⟩) ((split first).mpr (.inl ⟨rfl, usable⟩))
      · rw [if_neg running]
        have none := rangeFrame_ended running
        refine .done (fun never => running ?_) (fun k _ => none k) setup fun k => ?_
        · unfold Leaves at never
          rw [max_eq_right (Nat.le_of_lt inside)] at never
          unfold frameBound at inside never
          unfold hugePgSize at never ⊢
          omega
        · exact ⟨.inl, fun either => either.resolve_right fun inRange => none k inRange.2⟩

end PhysicalMemoryManager

open PhysicalMemoryManager

def MultibootMmapEntry.Leaves (entry : MultibootMmapEntry) : Prop :=
  hugePgSize ≤ entry.len ∧
    PhysicalMemoryManager.Leaves (entry.addr / hugePgSize + 1) (entry.addr + entry.len)

namespace MultibootTagMmap

/-- Entry `i` is available and reaches above the bitmap. -/
def Leaves (tag : MultibootTagMmap) (i : Nat) : Prop :=
  (tag.entries i).type = multibootMemoryAvailable ∧ (tag.entries i).Leaves

/-- Entry `i` is available and has a frame that an entry before it has freed. -/
def Clashes (tag : MultibootTagMmap) (i : Nat) : Prop :=
  (tag.entries i).type = multibootMemoryAvailable ∧
    ∃ k < frameBound, (tag.entries i).Offers k ∧ tag.OffersBelow i k

end MultibootTagMmap

theorem freeHugeframeRangeChecked_spec {pmm : PhysicalMemoryManager} {entry : MultibootMmapEntry}
    (noWrap : entry.addr + entry.len < 2 ^ 64) (setup : pmm.initSuccess = false) :
    FreeOutcome pmm entry.Offers entry.Leaves
      (pmm.freeHugeframeRangeChecked entry.addr ((entry.addr + entry.len) % 2 ^ 64)) := by
  have length : (entry.addr + entry.len + (2 ^ 64 - entry.addr)) % 2 ^ 64 = entry.len := by omega
  unfold freeHugeframeRangeChecked
  rw [Nat.mod_eq_of_lt noWrap, length]
  by_cases short : entry.len < hugePgSize
  · rw [if_pos short]
    have none : ∀ k, ¬entry.Offers k := fun k offers => absurd offers.1 (Nat.not_le_of_lt short)
    refine .done (fun leaves => absurd leaves.1 (Nat.not_le_of_lt short)) (fun k _ => none k) setup
      fun k => ?_
    exact ⟨.inl, fun either => either.resolve_right fun offers => none k offers.2⟩
  · have long : hugePgSize ≤ entry.len := Nat.le_of_not_lt short
    have roundUp : hugePgRoundUp entry.addr = (entry.addr / hugePgSize + 1) * hugePgSize := by
      unfold hugePgSize at long
      unfold hugePgRoundUp hugePgSize
      omega
    have turns : 0 < 2 ^ 43 + 1 := Nat.succ_pos _
    have enough : frameBound + 1 < 2 ^ 43 + 1 + (entry.addr / hugePgSize + 1) :=
      Nat.lt_of_lt_of_le (by decide : frameBound + 1 < 2 ^ 43 + 1) (Nat.le_add_right _ _)
    rw [if_neg short, roundUp]
    have leaves : entry.Leaves = PhysicalMemoryManager.Leaves (entry.addr / hugePgSize + 1)
        (entry.addr + entry.len) := propext (and_iff_right long)
    rw [leaves]
    exact (freeHugeframesChecked_spec turns enough setup).congr fun k => and_iff_right long

/-- The ends of the loop over the entries from `first` on. -/
inductive ParseOutcome (tag : MultibootTagMmap) (count first : Nat) :
    Checked Nat PhysicalMemoryManager → Prop where
  | done {parsed : PhysicalMemoryManager} : (∀ j, first ≤ j → j < count → ¬tag.Leaves j) →
      ParseOutcome tag count first (.ok parsed)
  | panic {message : String} {j : Nat} : first ≤ j → j < count → tag.Clashes j →
      (∀ i, first ≤ i → i < j → ¬tag.Leaves i) →
      ParseOutcome tag count first (.error (.halt (.panic message)))
  | outside {word j : Nat} : first ≤ j → j < count → tag.Leaves j →
      (∀ i, first ≤ i → i ≤ j → ¬tag.Clashes i) →
      ParseOutcome tag count first (.error (.violation word))

theorem ParseOutcome.pass {tag : MultibootTagMmap} {count first : Nat}
    {result : Checked Nat PhysicalMemoryManager} (stays : ¬tag.Leaves first)
    (apart : ¬tag.Clashes first) (outcome : ParseOutcome tag count (first + 1) result) :
    ParseOutcome tag count first result := by
  have split : ∀ (P : Nat → Prop) i, P first → (first + 1 ≤ i → P i) → first ≤ i → P i := by
    intro P i here later start
    rcases Nat.eq_or_lt_of_le start with rfl | after
    · exact here
    · exact later after
  cases outcome with
  | done none =>
    refine .done fun j start below => ?_
    exact split (¬tag.Leaves ·) j stays (fun after => none j after below) start
  | panic start below clashes none =>
    refine .panic (Nat.le_of_succ_le start) below clashes fun i begin before => ?_
    exact split (¬tag.Leaves ·) i stays (fun after => none i after before) begin
  | outside start below leaves none =>
    refine .outside (Nat.le_of_succ_le start) below leaves fun i begin upto => ?_
    exact split (¬tag.Clashes ·) i apart (fun after => none i after upto) begin

theorem parseEntriesChecked_spec {tag : MultibootTagMmap} {count first : Nat}
    {pmm : PhysicalMemoryManager} (size : tag.size = 16 + 24 * count)
    (noWrap : ∀ i < count, (tag.entries i).type = multibootMemoryAvailable →
      (tag.entries i).addr + (tag.entries i).len < 2 ^ 64)
    (inside : first ≤ count) (setup : pmm.initSuccess = false)
    (sofar : ∀ k, k ∈ pmm.clearFrames ↔ k < frameBound ∧ tag.OffersBelow first k) :
    ParseOutcome tag count first (parseEntriesChecked tag pmm first (16 + 24 * first)) := by
  induction remaining : count - first generalizing first pmm with
  | zero =>
    obtain rfl : first = count := by omega
    unfold parseEntriesChecked
    rw [if_neg (by omega)]
    exact .done fun j start below => absurd below (Nat.not_lt_of_le start)
  | succ remaining inductionHypothesis =>
    have below : first < count := by omega
    have rest : ∀ next : PhysicalMemoryManager, next.initSuccess = false →
        (∀ k, k ∈ next.clearFrames ↔ k < frameBound ∧ tag.OffersBelow (first + 1) k) →
        ParseOutcome tag count (first + 1)
          (parseEntriesChecked tag next (first + 1) (16 + 24 * first + 24)) :=
      fun next setup sofar => inductionHypothesis below setup sofar (by omega)
    unfold parseEntriesChecked
    rw [if_pos (by omega)]
    by_cases available : (tag.entries first).type = multibootMemoryAvailable
    · simp only [if_pos available]
      have outcome := freeHugeframeRangeChecked_spec (noWrap first below available) setup
      have apart : (∀ k ∈ pmm.clearFrames, ¬(tag.entries first).Offers k) → ¬tag.Clashes first := by
        rintro none ⟨-, k, bound, offers, before⟩
        exact none k ((sofar k).mpr ⟨bound, before⟩) offers
      generalize pmm.freeHugeframeRangeChecked _ _ = result at outcome ⊢
      cases outcome with
      | @done freed stays none setup exactly =>
        refine .pass (fun leaves => stays leaves.2) (apart none) (rest freed setup fun k => ?_)
        rw [exactly, sofar, MultibootTagMmap.offersBelow_succ, ← and_or_left, and_iff_right available]
      | @panic message k clear offers =>
        obtain ⟨bound, before⟩ := (sofar k).mp clear
        refine .panic (Nat.le_refl first) below ⟨available, k, bound, offers, before⟩ ?_
        exact fun i start before => absurd before (Nat.not_lt_of_le start)
      | outside leaves none =>
        refine .outside (Nat.le_refl first) below ⟨available, leaves⟩ fun i start upto => ?_
        obtain rfl := Nat.le_antisymm upto start
        exact apart none
    · simp only [if_neg available]
      refine .pass (fun leaves => available leaves.1) (fun clashes => available clashes.1) ?_
      refine rest pmm setup fun k => ?_
      rw [sofar, MultibootTagMmap.offersBelow_succ, or_iff_left fun new => available new.1]

def AccessesInside (boot : PhysicalMemoryManager) (tag : MultibootTagMmap) : Prop :=
  boot.parseMultibootMmapEntries tag ≠ .error .hang ∧
    (boot.parseMultibootMmapEntriesChecked tag).Meets

variable {tag : MultibootTagMmap} {count : Nat} {boot : PhysicalMemoryManager}

theorem parseMultibootMmapEntriesChecked_spec (size : tag.size = 16 + 24 * count)
    (noWrap : ∀ i < count, (tag.entries i).addr + (tag.entries i).len < 2 ^ 64)
    (setup : boot.initSuccess = false) :
    ParseOutcome tag count 0 (boot.parseMultibootMmapEntriesChecked tag) := by
  have setupIn : boot.initPMM.initSuccess = false := setup
  have outcome := parseEntriesChecked_spec size (fun i below _ => noWrap i below) (Nat.zero_le count)
    setupIn fun k => by
      rw [initPMM_clearFrames]
      simp [MultibootTagMmap.OffersBelow]
  unfold parseMultibootMmapEntriesChecked
  rw [Nat.mul_zero, Nat.add_zero] at outcome
  generalize parseEntriesChecked tag boot.initPMM 0 16 = result at outcome ⊢
  cases outcome with
  | done none => exact .done none
  | panic start below clashes none => exact .panic start below clashes none
  | outside start below leaves none => exact .outside start below leaves none

/-- All accesses are inside exactly when no entry reaches above the bitmap, or the machine
stops before, as an entry has a frame that is already free. -/
theorem accessesInside_iff (size : tag.size = 16 + 24 * count)
    (noWrap : ∀ i < count, (tag.entries i).addr + (tag.entries i).len < 2 ^ 64)
    (setup : boot.initSuccess = false) :
    AccessesInside boot tag ↔ ∀ j < count, tag.Leaves j → ∃ i ≤ j, tag.Clashes i := by
  have outcome := parseMultibootMmapEntriesChecked_spec size noWrap setup
  have guards := parseMultibootMmapEntriesChecked_guards boot tag
  unfold AccessesInside
  generalize boot.parseMultibootMmapEntriesChecked tag = result at outcome guards ⊢
  cases outcome with
  | @done parsed none =>
    have meets : Checked.Meets (.ok parsed : Checked Nat PhysicalMemoryManager) := Checked.meets_ok _
    have same := guards meets
    refine iff_of_true ⟨fun hang => ?_, meets⟩ fun j below leaves => ?_
    · rw [hang] at same
      cases same
    · exact absurd leaves (none j (Nat.zero_le j) below)
  | @panic message j start below clashes none =>
    have meets := Checked.meets_halt (V := Nat) (α := PhysicalMemoryManager) (.panic message)
    have same := guards meets
    refine iff_of_true ⟨fun hang => ?_, meets⟩ fun i inside leaves => ?_
    · rw [hang] at same
      cases same
    · have later : j ≤ i := Nat.le_of_not_lt fun before => none i (Nat.zero_le i) before leaves
      exact ⟨j, later, clashes⟩
  | outside start below leaves none =>
    refine iff_of_false (fun inside => inside.2 _ rfl) fun stops => ?_
    obtain ⟨i, upto, clashes⟩ := stops _ below leaves
    exact none i (Nat.zero_le i) upto clashes

theorem accessesInside_iff_oneRange :
    AccessesInside ⟨fun _ => 0#64, 0, false⟩ oneRange ↔
      ∀ j < 1, oneRange.Leaves j → ∃ i ≤ j, oneRange.Clashes i :=
  accessesInside_iff rfl (fun _ _ => (by decide : 2 ^ 30 + 2 ^ 26 < 2 ^ 64)) rfl

def highRange : MultibootTagMmap := ⟨40, fun _ => ⟨2 ^ 36, 2 ^ 26, 1⟩⟩

/-- Its first frame has no bit. -/
theorem highRange_outside : highRange.size = 16 + 24 * 1 ∧
    (∀ i < 1, (highRange.entries i).addr + (highRange.entries i).len < 2 ^ 64) ∧
      ¬AccessesInside ⟨fun _ => 0#64, 0, false⟩ highRange := by
  have noWrap : ∀ i < 1, (highRange.entries i).addr + (highRange.entries i).len < 2 ^ 64 :=
    fun _ _ => (by decide : 2 ^ 36 + 2 ^ 26 < 2 ^ 64)
  refine ⟨rfl, noWrap, ?_⟩
  rintro ⟨-, meets⟩
  let boot : PhysicalMemoryManager := ⟨fun _ => 0#64, 0, false⟩
  have setup : boot.initSuccess = false := rfl
  have outcome := parseMultibootMmapEntriesChecked_spec rfl noWrap setup
  generalize boot.parseMultibootMmapEntriesChecked highRange = result at outcome meets
  cases outcome with
  | done none =>
    have leaves : PhysicalMemoryManager.Leaves (2 ^ 36 / hugePgSize + 1) (2 ^ 36 + 2 ^ 26) := by
      unfold PhysicalMemoryManager.Leaves
      decide
    exact none 0 (Nat.le_refl 0) Nat.one_pos ⟨rfl, by decide, leaves⟩
  | @panic message j start below clashes none =>
    obtain rfl := Nat.lt_one_iff.mp below
    obtain ⟨-, k, -, -, i, before, -⟩ := clashes
    exact Nat.not_lt_zero i before
  | outside start below leaves none => exact meets _ rfl

end SwagOS.Mem
