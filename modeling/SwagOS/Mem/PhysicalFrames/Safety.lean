import Mathlib.Order.Bounds.Defs
import Mathlib.Data.List.ReduceOption
import SwagOS.Mem.PhysicalFrames

/-!
# Safety of the 2 MB frames

The counter and the bitmap stay in step through the whole life of the manager,
and a bit is clear only for a frame above the first gigabyte that the memory map
reports as available.  None of the panics is reachable as long as this holds.
-/

namespace SwagOS.Mem

open SwagOS.Lib

/-- Bits of the bitmap: 64 GB in frames of 2 MB. -/
def frameBound : Nat := 512 * 64

namespace PhysicalMemoryManager

def marked (pmm : PhysicalMemoryManager) (k : Nat) : Bool :=
  Bitmap.test 64 pmm.physicalPageBitmap k

def clearFrames (pmm : PhysicalMemoryManager) : Finset Nat :=
  Bitmap.clearBits 64 frameBound pmm.physicalPageBitmap

theorem mem_clearFrames {pmm : PhysicalMemoryManager} {k : Nat} :
    k ∈ pmm.clearFrames ↔ k < frameBound ∧ pmm.marked k = false := Bitmap.mem_clearBits

end PhysicalMemoryManager

open PhysicalMemoryManager

theorem absoluteIndex_frame (k : Nat) : absoluteIndex (k * hugePgSize) = k := by
  simp [absoluteIndex, hugePgRoundDown, hugePgSize]

theorem innerEntryIndex_frame (k : Nat) : innerEntryIndex (k * hugePgSize) = k % 64 := by
  rw [innerEntryIndex, absoluteIndex_frame]

theorem entryIndex_frame (k : Nat) : entryIndex (k * hugePgSize) = k / 64 := by
  rw [entryIndex, innerEntryIndex_frame, absoluteIndex_frame]
  omega

theorem checkPhysicalPageInUse_frame (pmm : PhysicalMemoryManager) (k : Nat) :
    pmm.checkPhysicalPageInUse (k * hugePgSize) = pmm.marked k := by
  rw [checkPhysicalPageInUse, entryIndex_frame, innerEntryIndex_frame]
  have bit := Bitmap.and_one_shift_eq_zero (x := pmm.physicalPageBitmap (k / 64))
    (Nat.mod_lt k (by decide : 0 < 64))
  rw [marked, Bitmap.test]
  cases isSet : (pmm.physicalPageBitmap (k / 64)).getLsbD (k % 64) with
  | false => simpa [isSet] using bit
  | true => simpa [isSet] using bit

theorem physicalFrameCheckout_frame {pmm : PhysicalMemoryManager} {k : Nat}
    (unmarked : pmm.marked k = false) :
    pmm.physicalFrameCheckout (k * hugePgSize) =
      .ok { pmm with
        physicalPageBitmap := Bitmap.set 64 pmm.physicalPageBitmap k
        freeFramecount := (pmm.freeFramecount + (2 ^ 32 - 1)) % 2 ^ 32 } := by
  have clear := (Bitmap.and_one_shift_eq_zero (x := pmm.physicalPageBitmap (k / 64))
    (Nat.mod_lt k (by decide : 0 < 64))).mpr unmarked
  rw [physicalFrameCheckout, entryIndex_frame, innerEntryIndex_frame]
  simp only [clear, ne_eq, not_true_eq_false, ↓reduceIte]
  rfl

/-- `physical_frame_checkin` in terms of bit numbers. -/
theorem physicalFrameCheckin_frame (pmm : PhysicalMemoryManager) (k : Nat) :
    pmm.physicalFrameCheckin (k * hugePgSize) =
      { pmm with
        physicalPageBitmap := Bitmap.clear 64 pmm.physicalPageBitmap k
        freeFramecount := (pmm.freeFramecount + 1) % 2 ^ 32 } := by
  rw [physicalFrameCheckin, entryIndex_frame, innerEntryIndex_frame]
  rfl

/-- Kernel frames are skipped while the manager is set up. -/
theorem physicalFrameFree_kernel {pmm : PhysicalMemoryManager} {k : Nat}
    (setup : pmm.initSuccess = false) (kernel : k * hugePgSize < 2 ^ 30) :
    pmm.physicalFrameFree (k * hugePgSize) = .ok pmm := by
  have below : k * hugePgSize < 1024 * 1024 * 1024 := kernel
  rw [physicalFrameFree, if_neg (by simp), checkKernelFrame]
  simp only [below, decide_true, setup, ↓reduceIte]
  rfl

theorem physicalFrameFree_frame {pmm : PhysicalMemoryManager} {k : Nat}
    (isMarked : pmm.marked k = true) (usable : 2 ^ 30 ≤ k * hugePgSize) :
    pmm.physicalFrameFree (k * hugePgSize) =
      .ok (pmm.physicalFrameCheckin (k * hugePgSize)) := by
  have freed : (pmm.physicalFrameCheckin (k * hugePgSize)).marked k = false := by
    rw [physicalFrameCheckin_frame, marked, Bitmap.test_clear (by decide) (by decide)]
    simp
  have above : ¬k * hugePgSize < 1024 * 1024 * 1024 := not_lt.mpr usable
  rw [physicalFrameFree, if_neg (by simp), checkKernelFrame]
  simp only [above, decide_false, ↓reduceIte, checkPhysicalPageInUse_frame, isMarked,
    freed, Bool.false_eq_true, reduceCtorEq]
  rfl

def Counted (pmm : PhysicalMemoryManager) : Prop :=
  pmm.freeFramecount = pmm.clearFrames.card

theorem card_clearFrames_le (pmm : PhysicalMemoryManager) : pmm.clearFrames.card ≤ frameBound := by
  have := Finset.card_filter_le (Finset.range frameBound)
    fun k => Bitmap.test 64 pmm.physicalPageBitmap k = false
  simpa [clearFrames, Bitmap.clearBits] using this

theorem Counted.checkin {pmm : PhysicalMemoryManager} (counted : Counted pmm) {k : Nat}
    (inside : k < frameBound) (isMarked : pmm.marked k = true) :
    Counted (pmm.physicalFrameCheckin (k * hugePgSize)) ∧
      (pmm.physicalFrameCheckin (k * hugePgSize)).clearFrames = insert k pmm.clearFrames := by
  rw [physicalFrameCheckin_frame]
  have grown : Bitmap.clearBits 64 frameBound (Bitmap.clear 64 pmm.physicalPageBitmap k) =
      insert k pmm.clearFrames := Bitmap.clearBits_clear (by decide) (by decide) inside _
  refine ⟨?_, grown⟩
  have fresh : k ∉ pmm.clearFrames := by
    rw [mem_clearFrames, isMarked]
    simp
  have bound := card_clearFrames_le pmm
  unfold Counted at counted ⊢
  rw [clearFrames, grown, Finset.card_insert_of_notMem fresh]
  change (pmm.freeFramecount + 1) % 2 ^ 32 = pmm.clearFrames.card + 1
  rw [counted, Nat.mod_eq_of_lt]
  unfold frameBound at bound
  omega

def RangeFrame (first finish k : Nat) : Prop :=
  first ≤ k ∧ k * hugePgSize + hugePgSize < finish ∧ 2 ^ 30 ≤ k * hugePgSize

/-- Whatever happens to the first frame, the rest of the range is as before. -/
theorem rangeFrame_split {first finish : Nat} (running : (first + 1) * hugePgSize < finish)
    (k : Nat) : RangeFrame first finish k ↔
      (k = first ∧ 2 ^ 30 ≤ first * hugePgSize) ∨ RangeFrame (first + 1) finish k := by
  unfold RangeFrame
  constructor
  · rintro ⟨start, upto, usable⟩
    rcases Nat.eq_or_lt_of_le start with same | later
    · exact .inl ⟨same.symm, same ▸ usable⟩
    · exact .inr ⟨later, upto, usable⟩
  · rintro (⟨rfl, usable⟩ | ⟨start, upto, usable⟩)
    · exact ⟨le_rfl, by rw [Nat.add_mul, Nat.one_mul] at running; exact running, usable⟩
    · exact ⟨by omega, upto, usable⟩

theorem rangeFrame_ended {first finish : Nat} (ended : ¬(first + 1) * hugePgSize < finish)
    (k : Nat) : ¬RangeFrame first finish k := by
  rintro ⟨start, upto, -⟩
  have last : (first + 1) * hugePgSize ≤ (k + 1) * hugePgSize :=
    Nat.mul_le_mul_right _ (by omega)
  rw [Nat.add_mul k, Nat.one_mul] at last
  omega

theorem freeHugeframes_spec {fuel : Nat} {pmm : PhysicalMemoryManager} {first finish : Nat}
    (enough : frameBound + 1 < fuel + first) (start : first ≤ frameBound + 1)
    (low : finish ≤ 2 ^ 36) (setup : pmm.initSuccess = false) (counted : Counted pmm)
    (busy : ∀ k ∈ pmm.clearFrames, ¬RangeFrame first finish k) :
    ∃ freed, freeHugeframes fuel pmm (first * hugePgSize) finish = .ok freed ∧
      freed.initSuccess = false ∧ Counted freed ∧
      ∀ k, k ∈ freed.clearFrames ↔ k ∈ pmm.clearFrames ∨ RangeFrame first finish k := by
  induction fuel generalizing pmm first with
  | zero => omega
  | succ fuel inductionHypothesis =>
    have noWrap : (first * hugePgSize + hugePgSize) % 2 ^ 64 = (first + 1) * hugePgSize := by
      rw [Nat.add_mul, Nat.one_mul]
      apply Nat.mod_eq_of_lt
      unfold frameBound at start
      unfold hugePgSize
      omega
    rw [freeHugeframes, noWrap]
    by_cases running : (first + 1) * hugePgSize < finish
    · rw [if_pos running]
      have inside : first < frameBound := by
        unfold hugePgSize at running
        unfold frameBound
        omega
      have rest := rangeFrame_split running
      by_cases kernel : first * hugePgSize < 2 ^ 30
      · obtain ⟨freed, done, setup', counted', exactly⟩ := inductionHypothesis (by omega)
          (by omega) setup counted fun k clear range => busy k clear ((rest k).mpr (.inr range))
        refine ⟨freed, ?_, setup', counted', fun k => ?_⟩
        · rw [physicalFrameFree_kernel setup kernel]
          exact done
        · rw [exactly k, rest k]
          have notHere : ¬(k = first ∧ 2 ^ 30 ≤ first * hugePgSize) :=
            fun both => not_le.mpr kernel both.2
          simp only [notHere, false_or]
      · have usable : 2 ^ 30 ≤ first * hugePgSize := not_lt.mp kernel
        have isMarked : pmm.marked first = true := by
          by_contra unmarked
          exact busy first (mem_clearFrames.mpr ⟨inside, by simpa using unmarked⟩)
            ((rest first).mpr (.inl ⟨rfl, usable⟩))
        obtain ⟨countedIn, grown⟩ := counted.checkin inside isMarked
        have busyIn : ∀ k ∈ (pmm.physicalFrameCheckin (first * hugePgSize)).clearFrames,
            ¬RangeFrame (first + 1) finish k := by
          intro k clear range
          rw [grown] at clear
          rcases Finset.mem_insert.mp clear with same | old
          · exact absurd range.1 (by omega)
          · exact busy k old ((rest k).mpr (.inr range))
        have setupIn : (pmm.physicalFrameCheckin (first * hugePgSize)).initSuccess = false := setup
        obtain ⟨freed, done, setup', counted', exactly⟩ :=
          inductionHypothesis (by omega) (by omega) setupIn countedIn busyIn
        refine ⟨freed, ?_, setup', counted', fun k => ?_⟩
        · rw [physicalFrameFree_frame isMarked usable]
          exact done
        · rw [exactly k, rest k, grown, Finset.mem_insert]
          simp only [usable, and_true, or_assoc]
          exact or_left_comm
    · rw [if_neg running]
      refine ⟨pmm, rfl, setup, counted, fun k => ⟨.inl, ?_⟩⟩
      rintro (clear | inRange)
      · exact clear
      · exact absurd inRange (rangeFrame_ended running k)

def MultibootMmapEntry.Covers (entry : MultibootMmapEntry) (x : Nat) : Prop :=
  entry.addr ≤ x ∧ x < entry.addr + entry.len

def MultibootMmapEntry.Contains (entry : MultibootMmapEntry) (k : Nat) : Prop :=
  entry.addr ≤ k * hugePgSize ∧ k * hugePgSize + hugePgSize ≤ entry.addr + entry.len

/-- The frames that `free_hugeframe_range` frees for an entry. -/
def MultibootMmapEntry.Offers (entry : MultibootMmapEntry) (k : Nat) : Prop :=
  hugePgSize ≤ entry.len ∧
    RangeFrame (entry.addr / hugePgSize + 1) (entry.addr + entry.len) k

theorem MultibootMmapEntry.Offers.contains {entry : MultibootMmapEntry} {k : Nat}
    (offers : entry.Offers k) : entry.Contains k := by
  obtain ⟨-, from_, upto, -⟩ := offers
  have floor := Nat.lt_div_mul_add (a := entry.addr) (b := hugePgSize) (by decide)
  have := Nat.mul_le_mul_right hugePgSize from_
  rw [Nat.add_mul, Nat.one_mul] at this
  exact ⟨by omega, by omega⟩

/-- A tag with `count` entries of 24 bytes, whose available ranges are pairwise
disjoint and end at or below 64 GB. -/
structure MultibootTagMmap.WellFormed (tag : MultibootTagMmap) (count : Nat) : Prop where
  size : tag.size = 16 + 24 * count
  low : ∀ i < count, (tag.entries i).type = multibootMemoryAvailable →
    (tag.entries i).addr + (tag.entries i).len ≤ 2 ^ 36
  disjoint : ∀ i < count, ∀ j < count, i ≠ j →
    (tag.entries i).type = multibootMemoryAvailable →
    (tag.entries j).type = multibootMemoryAvailable →
    ∀ x, ¬((tag.entries i).Covers x ∧ (tag.entries j).Covers x)

def MultibootTagMmap.OffersBelow (tag : MultibootTagMmap) (count k : Nat) : Prop :=
  ∃ i < count, (tag.entries i).type = multibootMemoryAvailable ∧ (tag.entries i).Offers k

theorem freeHugeframeRange_spec {pmm : PhysicalMemoryManager} {entry : MultibootMmapEntry}
    (low : entry.addr + entry.len ≤ 2 ^ 36) (setup : pmm.initSuccess = false)
    (counted : Counted pmm) (busy : ∀ k ∈ pmm.clearFrames, ¬entry.Offers k) :
    ∃ freed, pmm.freeHugeframeRange entry.addr ((entry.addr + entry.len) % 2 ^ 64) = .ok freed ∧
      freed.initSuccess = false ∧ Counted freed ∧
      ∀ k, k ∈ freed.clearFrames ↔ k ∈ pmm.clearFrames ∨ entry.Offers k := by
  have finish : (entry.addr + entry.len) % 2 ^ 64 = entry.addr + entry.len :=
    Nat.mod_eq_of_lt (by omega)
  have length : (entry.addr + entry.len + (2 ^ 64 - entry.addr)) % 2 ^ 64 = entry.len := by
    have : entry.addr + entry.len + (2 ^ 64 - entry.addr) = entry.len + 2 ^ 64 := by omega
    rw [this, Nat.add_mod_right, Nat.mod_eq_of_lt (by omega)]
  have roundUp : hugePgRoundUp entry.addr = (entry.addr / hugePgSize + 1) * hugePgSize := by
    unfold hugePgRoundUp hugePgSize
    omega
  rw [freeHugeframeRange, finish, length, roundUp]
  by_cases short : entry.len < hugePgSize
  · rw [if_pos short]
    refine ⟨pmm, rfl, setup, counted, fun k => ⟨.inl, ?_⟩⟩
    rintro (clear | offers)
    · exact clear
    · exact absurd offers.1 (not_le.mpr short)
  · rw [if_neg short]
    have long : hugePgSize ≤ entry.len := not_lt.mp short
    have start : entry.addr / hugePgSize + 1 ≤ frameBound + 1 := by
      unfold hugePgSize frameBound
      omega
    have enough : frameBound + 1 < 2 ^ 43 + 1 + (entry.addr / hugePgSize + 1) :=
      Nat.lt_of_lt_of_le (by decide : frameBound + 1 < 2 ^ 43 + 1) (Nat.le_add_right _ _)
    obtain ⟨freed, done, setup', counted', exactly⟩ := freeHugeframes_spec enough start low setup
      counted fun k clear range => busy k clear ⟨long, range⟩
    refine ⟨freed, done, setup', counted', fun k => ?_⟩
    rw [exactly k, MultibootMmapEntry.Offers]
    simp only [long, true_and]

theorem MultibootTagMmap.WellFormed.offers_unique {tag : MultibootTagMmap} {count i k : Nat}
    (wf : tag.WellFormed count) (inside : i < count)
    (available : (tag.entries i).type = multibootMemoryAvailable)
    (offers : (tag.entries i).Offers k) : ¬tag.OffersBelow i k := by
  rintro ⟨j, below, availableJ, offersJ⟩
  obtain ⟨lower, upper⟩ := offers.contains
  obtain ⟨lowerJ, upperJ⟩ := offersJ.contains
  have positive : 0 < hugePgSize := by decide
  exact wf.disjoint i inside j (by omega) (by omega) available availableJ (k * hugePgSize)
    ⟨⟨lower, by omega⟩, ⟨lowerJ, by omega⟩⟩

theorem MultibootTagMmap.offersBelow_succ {tag : MultibootTagMmap} {i k : Nat} :
    tag.OffersBelow (i + 1) k ↔ tag.OffersBelow i k ∨
      (tag.entries i).type = multibootMemoryAvailable ∧ (tag.entries i).Offers k := by
  constructor
  · rintro ⟨j, below, found⟩
    rcases Nat.lt_succ_iff_lt_or_eq.mp below with earlier | rfl
    · exact .inl ⟨j, earlier, found⟩
    · exact .inr found
  · rintro (⟨j, below, found⟩ | found)
    · exact ⟨j, by omega, found⟩
    · exact ⟨i, by omega, found⟩

theorem parseEntries_spec {tag : MultibootTagMmap} {count : Nat} (wf : tag.WellFormed count)
    {pmm : PhysicalMemoryManager} {i : Nat} (inside : i ≤ count)
    (setup : pmm.initSuccess = false) (counted : Counted pmm)
    (sofar : ∀ k, k ∈ pmm.clearFrames ↔ tag.OffersBelow i k) :
    ∃ parsed, parseEntries tag pmm i (16 + 24 * i) = .ok parsed ∧ Counted parsed ∧
      ∀ k, k ∈ parsed.clearFrames ↔ tag.OffersBelow count k := by
  induction remaining : count - i generalizing i pmm with
  | zero =>
    obtain rfl : i = count := by omega
    refine ⟨pmm, ?_, counted, sofar⟩
    rw [parseEntries, if_neg (by rw [wf.size]; omega)]
    rfl
  | succ n inductionHypothesis =>
    have more : 16 + 24 * i < tag.size := by
      rw [wf.size]
      omega
    rw [parseEntries, if_pos more]
    by_cases available : (tag.entries i).type = multibootMemoryAvailable
    · obtain ⟨freed, done, setup', counted', exactly⟩ := freeHugeframeRange_spec
        (wf.low i (by omega) available) setup counted fun k clear offers =>
          wf.offers_unique (by omega) available offers ((sofar k).mp clear)
      obtain ⟨parsed, rest⟩ := inductionHypothesis (i := i + 1) (by omega) setup' counted'
        (fun k => by
          rw [exactly k, sofar k, MultibootTagMmap.offersBelow_succ]
          simp only [available, true_and]) (by omega)
      refine ⟨parsed, ?_, rest.2⟩
      simp only [available, ↓reduceIte, done]
      exact rest.1
    · obtain ⟨parsed, rest⟩ := inductionHypothesis (i := i + 1) (by omega) setup counted
        (fun k => by
          rw [sofar k, MultibootTagMmap.offersBelow_succ]
          simp only [available, false_and, or_false]) (by omega)
      refine ⟨parsed, ?_, rest.2⟩
      simp only [available, ↓reduceIte]
      exact rest.1

theorem initPMM_clearFrames (pmm : PhysicalMemoryManager) : pmm.initPMM.clearFrames = ∅ := by
  apply Finset.eq_empty_of_forall_notMem
  intro k clear
  obtain ⟨inside, unmarked⟩ := mem_clearFrames.mp clear
  have word : k / 64 < 512 := by
    unfold frameBound at inside
    omega
  have bit : k % 64 < 64 := Nat.mod_lt k (by decide)
  rw [marked, Bitmap.test, initPMM, pageBitmapWhiteout] at unmarked
  simp only [word, ↓reduceIte, BitVec.getLsbD_allOnes, bit, decide_true, Bool.true_eq_false]
    at unmarked

/-- Parsing a well-formed map succeeds, and what is then on offer are the frames
of the loops over its available entries. -/
theorem parseMultibootMmapEntries_spec {tag : MultibootTagMmap} {count : Nat}
    (wf : tag.WellFormed count) {boot : PhysicalMemoryManager} (zeroCount : boot.freeFramecount = 0)
    (setup : boot.initSuccess = false) :
    ∃ pmm, boot.parseMultibootMmapEntries tag = .ok pmm ∧ Counted pmm ∧
      ∀ k, k ∈ pmm.clearFrames ↔ tag.OffersBelow count k := by
  have empty := initPMM_clearFrames boot
  have counted : Counted boot.initPMM := by
    rw [Counted, empty, initPMM, pageBitmapWhiteout, Finset.card_empty]
    exact zeroCount
  have setupIn : boot.initPMM.initSuccess = false := by
    rw [initPMM, pageBitmapWhiteout]
    exact setup
  obtain ⟨parsed, done, counted', exactly⟩ := parseEntries_spec wf (Nat.zero_le count) setupIn counted
    (fun k => by
      rw [empty]
      simp [MultibootTagMmap.OffersBelow])
  refine ⟨{ parsed with initSuccess := true }, ?_, counted', exactly⟩
  rw [parseMultibootMmapEntries]
  exact Outcome.bind_ok.mpr ⟨parsed, done, rfl⟩

theorem firstClear_some {pmm : PhysicalMemoryManager} {i j : Nat}
    (found : pmm.firstClear = some (i, j)) :
    i * 64 + j < frameBound ∧ pmm.marked (i * 64 + j) = false ∧
      ∀ k < i * 64 + j, pmm.marked k = true := by
  obtain ⟨i', below, foundInner, earlier⟩ := Bitmap.findSome_range_some found
  obtain ⟨j', belowInner, foundBit, earlierBits⟩ := Bitmap.findSome_range_some foundInner
  obtain ⟨clear, rfl, rfl⟩ : pmm.physicalPageBitmap i' &&& 1#64 <<< j' = 0#64 ∧ i' = i ∧ j' = j := by
    by_cases clear : pmm.physicalPageBitmap i' &&& 1#64 <<< j' = 0#64
    · simpa [clear] using foundBit
    · simp [clear] at foundBit
  have split : (i' * 64 + j') / 64 = i' ∧ (i' * 64 + j') % 64 = j' := by omega
  refine ⟨by unfold frameBound; omega, ?_, fun k before => ?_⟩
  · rw [marked, Bitmap.test, split.1, split.2]
    exact (Bitmap.and_one_shift_eq_zero belowInner).mp clear
  · -- `k` was passed in an earlier word or earlier in the same word.
    by_contra unmarked
    have bit : k % 64 < 64 := Nat.mod_lt k (by decide)
    have zero := (Bitmap.and_one_shift_eq_zero (x := pmm.physicalPageBitmap (k / 64)) bit).mpr
      (by simpa [marked, Bitmap.test] using unmarked)
    rcases Nat.lt_or_ge (k / 64) i' with less | same
    · have passed := earlier (k / 64) less
      rw [List.findSome?_eq_none_iff] at passed
      have := passed (k % 64) (by simpa using bit)
      simp [zero] at this
    · obtain rfl : k / 64 = i' := by omega
      have := earlierBits (k % 64) (by omega)
      simp [zero] at this

theorem firstClear_none {pmm : PhysicalMemoryManager} (failed : pmm.firstClear = none) :
    pmm.clearFrames = ∅ := by
  apply Finset.eq_empty_of_forall_notMem
  intro k clear
  obtain ⟨inside, unmarked⟩ := mem_clearFrames.mp clear
  have bit : k % 64 < 64 := Nat.mod_lt k (by decide)
  have zero := (Bitmap.and_one_shift_eq_zero (x := pmm.physicalPageBitmap (k / 64)) bit).mpr unmarked
  rw [firstClear, List.findSome?_eq_none_iff] at failed
  have passed := failed (k / 64) (by
    unfold frameBound at inside
    simp only [List.mem_range]
    omega)
  rw [List.findSome?_eq_none_iff] at passed
  have := passed (k % 64) (by simpa using bit)
  simp [zero] at this

/-- What a request that returns has done, whatever the state of the manager. -/
theorem physicalFrameRequest_ok {pmm next : PhysicalMemoryManager} {frame : Option Nat}
    (returned : pmm.physicalFrameRequest = .ok (frame, next)) :
    (frame = none ∧ next = pmm) ∨
      ∃ k < frameBound, frame = some (k * hugePgSize) ∧ pmm.marked k = false ∧
        2 ^ 30 ≤ k * hugePgSize ∧ ∀ j, next.marked j = (decide (j = k) || pmm.marked j) := by
  rw [physicalFrameRequest] at returned
  by_cases zero : pmm.freeFramecount = 0
  · rw [if_pos zero] at returned
    cases returned
    exact .inl ⟨rfl, rfl⟩
  · rw [if_neg zero] at returned
    cases found : pmm.firstClear with
    | none =>
      rw [found] at returned
      cases returned
      exact .inl ⟨rfl, rfl⟩
    | some bit =>
      obtain ⟨i, j⟩ := bit
      obtain ⟨inside, unmarked, -⟩ := firstClear_some found
      have address : i * 64 * hugePgSize + j * hugePgSize = (i * 64 + j) * hugePgSize := by
        rw [Nat.add_mul]
      rw [found] at returned
      simp only [address, physicalFrameCheckout_frame unmarked, bind, Except.bind] at returned
      by_cases kernel : (i * 64 + j) * hugePgSize < 1024 * 1024 * 1024
      · rw [if_pos kernel] at returned
        cases returned
      · rw [if_neg kernel] at returned
        cases returned
        refine .inr ⟨i * 64 + j, inside, rfl, unmarked, not_lt.mp kernel, fun k => ?_⟩
        exact Bitmap.test_set (by decide) (by decide) _ _ _

def Usable (pmm : PhysicalMemoryManager) : Prop :=
  ∀ k ∈ pmm.clearFrames, 2 ^ 30 ≤ k * hugePgSize

/-- A request takes the lowest frame on offer, or fails when there is none. -/
theorem physicalFrameRequest_spec {pmm : PhysicalMemoryManager} (counted : Counted pmm)
    (usable : Usable pmm) :
    (pmm.clearFrames = ∅ ∧ pmm.physicalFrameRequest = .ok (none, pmm)) ∨
      ∃ k next, pmm.physicalFrameRequest = .ok (some (k * hugePgSize), next) ∧
        k ∈ pmm.clearFrames ∧ (∀ j ∈ pmm.clearFrames, k ≤ j) ∧ Counted next ∧
        next.clearFrames = pmm.clearFrames.erase k := by
  by_cases zero : pmm.freeFramecount = 0
  · left
    refine ⟨Finset.card_eq_zero.mp (counted ▸ zero), ?_⟩
    rw [physicalFrameRequest, if_pos zero]
    rfl
  · cases found : pmm.firstClear with
    | none =>
      have empty := firstClear_none found
      exact absurd (counted.trans (by rw [empty, Finset.card_empty])) zero
    | some bit =>
      obtain ⟨i, j⟩ := bit
      obtain ⟨inside, unmarked, first⟩ := firstClear_some found
      have clear : i * 64 + j ∈ pmm.clearFrames := mem_clearFrames.mpr ⟨inside, unmarked⟩
      have above : ¬(i * 64 + j) * hugePgSize < 1024 * 1024 * 1024 :=
        not_lt.mpr (usable _ clear)
      have address : i * 64 * hugePgSize + j * hugePgSize = (i * 64 + j) * hugePgSize := by
        rw [Nat.add_mul]
      have shrunk : Bitmap.clearBits 64 frameBound
          (Bitmap.set 64 pmm.physicalPageBitmap (i * 64 + j)) =
          pmm.clearFrames.erase (i * 64 + j) := Bitmap.clearBits_set (by decide) (by decide) _ _ _
      right
      refine ⟨i * 64 + j, { pmm with
        physicalPageBitmap := Bitmap.set 64 pmm.physicalPageBitmap (i * 64 + j)
        freeFramecount := (pmm.freeFramecount + (2 ^ 32 - 1)) % 2 ^ 32 },
        ?_, clear, fun k other => ?_, ?_, ?_⟩
      · rw [physicalFrameRequest, if_neg zero, found]
        simp only [address, physicalFrameCheckout_frame unmarked, bind, Except.bind, above,
          ↓reduceIte]
        rfl
      · by_contra less
        have isMarked := first k (not_le.mp less)
        rw [(mem_clearFrames.mp other).2] at isMarked
        exact absurd isMarked (by decide)
      · have bound := card_clearFrames_le pmm
        have positive := Finset.card_pos.mpr ⟨_, clear⟩
        rw [Counted, clearFrames, shrunk, Finset.card_erase_of_mem clear]
        change (pmm.freeFramecount + (2 ^ 32 - 1)) % 2 ^ 32 = pmm.clearFrames.card - 1
        unfold Counted at counted
        unfold frameBound at bound
        omega
      · rw [clearFrames, shrunk]

/-- `n` calls of `physical_frame_request` with their results. -/
def requests : Nat → PhysicalMemoryManager →
    Outcome (List (Option Nat) × PhysicalMemoryManager)
  | 0, pmm => pure ([], pmm)
  | n + 1, pmm => do
      let (frame, pmm) ← pmm.physicalFrameRequest
      let (frames, pmm) ← requests n pmm
      pure (frame :: frames, pmm)

theorem Usable.of_subset {pmm next : PhysicalMemoryManager} (usable : Usable pmm)
    (subset : next.clearFrames ⊆ pmm.clearFrames) : Usable next :=
  fun k clear => usable k (subset clear)

theorem requests_spec {n : Nat} {pmm : PhysicalMemoryManager} (counted : Counted pmm)
    (usable : Usable pmm) :
    ∃ frames last, requests n pmm = .ok (frames, last) ∧ Counted last ∧
      last.clearFrames ⊆ pmm.clearFrames ∧ frames.reduceOption.Nodup ∧
      ∀ frame ∈ frames.reduceOption, ∃ k ∈ pmm.clearFrames, frame = k * hugePgSize := by
  induction n generalizing pmm with
  | zero => exact ⟨[], pmm, rfl, counted, subset_rfl, List.nodup_nil, fun _ inside => by cases inside⟩
  | succ n inductionHypothesis =>
    rcases physicalFrameRequest_spec counted usable with
      ⟨-, failed⟩ | ⟨k, next, served, clear, -, countedNext, shrunk⟩
    · obtain ⟨frames, last, run, rest⟩ := inductionHypothesis counted usable
      refine ⟨none :: frames, last, ?_, rest⟩
      rw [requests, failed]
      exact Outcome.bind_ok.mpr ⟨_, rfl, Outcome.bind_ok.mpr ⟨_, run, rfl⟩⟩
    · have subset : next.clearFrames ⊆ pmm.clearFrames := by
        rw [shrunk]
        exact Finset.erase_subset k _
      obtain ⟨frames, last, run, countedLast, subsetLast, nodup, offered⟩ :=
        inductionHypothesis countedNext (usable.of_subset subset)
      refine ⟨some (k * hugePgSize) :: frames, last, ?_, countedLast, subsetLast.trans subset, ?_, ?_⟩
      · rw [requests, served]
        exact Outcome.bind_ok.mpr ⟨_, rfl, Outcome.bind_ok.mpr ⟨_, run, rfl⟩⟩
      · -- The frame just taken has left the offer, from which the later ones come.
        rw [List.reduceOption_cons_of_some, List.nodup_cons]
        refine ⟨fun again => ?_, nodup⟩
        obtain ⟨j, later, same⟩ := offered _ again
        rw [shrunk, Finset.mem_erase] at later
        exact later.1 (Nat.eq_of_mul_eq_mul_right (by decide : 0 < hugePgSize) same.symm)
      · intro frame inside
        rw [List.reduceOption_cons_of_some, List.mem_cons] at inside
        rcases inside with rfl | inside
        · exact ⟨k, clear, rfl⟩
        · obtain ⟨j, later, same⟩ := offered frame inside
          exact ⟨j, subset later, same⟩

/-- What holds of the manager after every run of requests. -/
structure Sound (tag : MultibootTagMmap) (count : Nat) (pmm : PhysicalMemoryManager) : Prop where
  counted : pmm.freeFramecount = pmm.clearFrames.card
  contained : ∀ k ∈ pmm.clearFrames, 2 ^ 30 ≤ k * hugePgSize ∧
    ∃ i < count, (tag.entries i).type = multibootMemoryAvailable ∧ (tag.entries i).Contains k
  /-- The next request does not panic, fails exactly when no bit is clear, and
  returns the lowest frame otherwise. -/
  request : ∃ frame next, pmm.physicalFrameRequest = .ok (frame, next) ∧
    (frame = none ↔ pmm.clearFrames = ∅) ∧
    ∀ address, frame = some address →
      ∃ k, IsLeast (pmm.clearFrames : Set Nat) k ∧ address = k * hugePgSize

theorem Counted.sound {tag : MultibootTagMmap} {count : Nat} {pmm : PhysicalMemoryManager}
    (counted : Counted pmm) (offered : ∀ k ∈ pmm.clearFrames, tag.OffersBelow count k) :
    Sound tag count pmm where
  counted := counted
  contained := by
    intro k clear
    obtain ⟨i, below, available, offers⟩ := offered k clear
    exact ⟨offers.2.2.2, i, below, available, offers.contains⟩
  request := by
    have usable : Usable pmm := by
      intro k clear
      obtain ⟨i, -, -, offers⟩ := offered k clear
      exact offers.2.2.2
    rcases physicalFrameRequest_spec counted usable with
      ⟨empty, failed⟩ | ⟨k, next, served, clear, least, -, -⟩
    · exact ⟨none, pmm, failed, by simp [empty], fun _ some => by cases some⟩
    · refine ⟨some (k * hugePgSize), next, served, ?_, ?_⟩
      · simpa using Finset.ne_empty_of_mem clear
      · rintro address ⟨⟩
        exact ⟨k, ⟨clear, fun j other => least j other⟩, rfl⟩

/-- The frame manager is safe: a well-formed memory map is parsed without a
panic, and every run of requests after it stays in step with the bitmap, is
served from available memory above the first gigabyte, and never hands out a
frame twice. -/
theorem physicalFrames_safe {tag : MultibootTagMmap} {count : Nat} (wf : tag.WellFormed count)
    {boot : PhysicalMemoryManager} (zeroCount : boot.freeFramecount = 0)
    (setup : boot.initSuccess = false) :
    ∃ pmm, boot.parseMultibootMmapEntries tag = .ok pmm ∧
      ∀ n, ∃ frames last, requests n pmm = .ok (frames, last) ∧
        frames.reduceOption.Nodup ∧ Sound tag count last := by
  obtain ⟨pmm, parsed, counted, exactly⟩ := parseMultibootMmapEntries_spec wf zeroCount setup
  have usable : Usable pmm := by
    intro k clear
    obtain ⟨i, -, -, offers⟩ := (exactly k).mp clear
    exact offers.2.2.2
  refine ⟨pmm, parsed, fun n => ?_⟩
  obtain ⟨frames, last, run, countedLast, subset, nodup, -⟩ := requests_spec (n := n) counted usable
  exact ⟨frames, last, run, nodup,
    countedLast.sound fun k clear => (exactly k).mp (subset clear)⟩

theorem physicalFrames_safe_one_range :
    ∃ pmm, parseMultibootMmapEntries ⟨fun _ => 0#64, 0, false⟩
        ⟨40, fun _ => ⟨2 ^ 30, 2 ^ 26, 1⟩⟩ = .ok pmm ∧
      ∀ n, ∃ frames last, requests n pmm = .ok (frames, last) ∧
        frames.reduceOption.Nodup ∧ Sound ⟨40, fun _ => ⟨2 ^ 30, 2 ^ 26, 1⟩⟩ 1 last :=
  physicalFrames_safe
    { size := rfl
      low := fun _ _ _ => (by decide : 2 ^ 30 + 2 ^ 26 ≤ 2 ^ 36)
      disjoint := fun i first j second different => by omega } rfl rfl

end SwagOS.Mem
