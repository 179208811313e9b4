import SwagOS.Mem.PhysicalFrames.Safety

/-!
# Frames at the ends of a range

`HUGEPGROUNDUP` moves an aligned start to the next frame, and the loop of
`free_hugeframe_range` stops before a frame that ends with the range.  So a range with an
aligned end loses a frame there, unless it is one of the first gigabyte.
-/

namespace SwagOS.Mem

open SwagOS.Lib PhysicalMemoryManager

/-- The first and the last frame of the entry do not begin and end with it, or they belong to
the kernel, or it has no frame. -/
def MultibootMmapEntry.EndsInside (entry : MultibootMmapEntry) : Prop :=
  hugePgSize ≤ entry.len →
    (entry.addr % hugePgSize = 0 → entry.addr < 2 ^ 30) ∧
      ((entry.addr + entry.len) % hugePgSize = 0 → entry.addr + entry.len ≤ 2 ^ 30)

def MultibootTagMmap.Usable (tag : MultibootTagMmap) (count k : Nat) : Prop :=
  2 ^ 30 ≤ k * hugePgSize ∧
    ∃ i < count, (tag.entries i).type = multibootMemoryAvailable ∧ (tag.entries i).Contains k

namespace MultibootMmapEntry

variable {entry : MultibootMmapEntry} {k : Nat}

/-- A frame of the entry is freed, or it begins or ends with the entry. -/
theorem Contains.offers (contains : entry.Contains k) (usable : 2 ^ 30 ≤ k * hugePgSize) :
    entry.Offers k ∨ k * hugePgSize = entry.addr ∨
      k * hugePgSize + hugePgSize = entry.addr + entry.len := by
  obtain ⟨lower, upper⟩ := contains
  by_cases start : k * hugePgSize = entry.addr
  · exact .inr (.inl start)
  · by_cases finish : k * hugePgSize + hugePgSize = entry.addr + entry.len
    · exact .inr (.inr finish)
    · left
      refine ⟨by omega, ?_, by omega, usable⟩
      exact (Nat.div_lt_iff_lt_mul (by decide)).mpr (by omega)

theorem Offers.inside (offers : entry.Offers k) :
    k * hugePgSize ≠ entry.addr ∧ k * hugePgSize + hugePgSize ≠ entry.addr + entry.len := by
  obtain ⟨-, first, last, -⟩ := offers
  have above : entry.addr < k * hugePgSize := (Nat.div_lt_iff_lt_mul (by decide)).mp first
  exact ⟨by omega, by omega⟩

theorem Contains.offers_of_endsInside (contains : entry.Contains k)
    (usable : 2 ^ 30 ≤ k * hugePgSize) (endsInside : entry.EndsInside) : entry.Offers k := by
  have long : hugePgSize ≤ entry.len := by
    obtain ⟨lower, upper⟩ := contains
    omega
  obtain ⟨starts, finishes⟩ := endsInside long
  rcases contains.offers usable with offers | start | finish
  · exact offers
  · have aligned : entry.addr % hugePgSize = 0 := by rw [← start, Nat.mul_mod_left]
    exact absurd (starts aligned) (Nat.not_lt.mpr (start ▸ usable))
  · have aligned : (entry.addr + entry.len) % hugePgSize = 0 := by
      rw [← finish, Nat.add_mod_right, Nat.mul_mod_left]
    have low := finishes aligned
    have positive : 0 < hugePgSize := by decide
    omega

theorem exists_lost (not : ¬entry.EndsInside) :
    ∃ k, 2 ^ 30 ≤ k * hugePgSize ∧ entry.Contains k ∧ ¬entry.Offers k := by
  obtain ⟨long, ends⟩ := Classical.not_imp.mp not
  have gigabyte : 2 ^ 30 = 512 * hugePgSize := rfl
  rcases not_and_or.mp ends with start | finish
  · obtain ⟨aligned, usable⟩ := Classical.not_imp.mp start
    have frame : entry.addr / hugePgSize * hugePgSize = entry.addr :=
      Nat.div_mul_cancel (Nat.dvd_of_mod_eq_zero aligned)
    refine ⟨entry.addr / hugePgSize, by omega, ⟨by omega, by omega⟩, fun offers => ?_⟩
    exact offers.inside.1 frame
  · obtain ⟨aligned, usable⟩ := Classical.not_imp.mp finish
    have frame : (entry.addr + entry.len) / hugePgSize * hugePgSize = entry.addr + entry.len :=
      Nat.div_mul_cancel (Nat.dvd_of_mod_eq_zero aligned)
    have last : ((entry.addr + entry.len) / hugePgSize - 1) * hugePgSize + hugePgSize =
        entry.addr + entry.len := by
      have positive : 1 ≤ (entry.addr + entry.len) / hugePgSize :=
        (Nat.one_le_div_iff (by decide)).mpr (by omega)
      rw [Nat.sub_mul, Nat.one_mul, frame]
      omega
    have above : 512 < (entry.addr + entry.len) / hugePgSize := by
      by_contra low
      have bound := Nat.mul_le_mul_right hugePgSize (Nat.not_lt.mp low)
      omega
    have usable' := Nat.mul_le_mul_right hugePgSize (Nat.le_sub_one_of_lt above)
    refine ⟨(entry.addr + entry.len) / hugePgSize - 1, by omega, ⟨by omega, by omega⟩, ?_⟩
    exact fun offers => offers.inside.2 last

end MultibootMmapEntry

/-- Parsing a memory map frees all usable frames exactly when no available entry has a usable
frame at one of its ends. -/
theorem parse_frees_all_iff {tag : MultibootTagMmap} {count : Nat} (wf : tag.WellFormed count)
    {boot : PhysicalMemoryManager} (zeroCount : boot.freeFramecount = 0)
    (setup : boot.initSuccess = false) :
    ∃ pmm, boot.parseMultibootMmapEntries tag = .ok pmm ∧
      ((∀ k, tag.Usable count k → pmm.marked k = false) ↔
        ∀ i < count, (tag.entries i).type = multibootMemoryAvailable →
          (tag.entries i).EndsInside) := by
  obtain ⟨pmm, parsed, -, exactly⟩ := parseMultibootMmapEntries_spec wf zeroCount setup
  refine ⟨pmm, parsed, ⟨?necessary, ?enough⟩⟩
  case necessary =>
    intro allFree i inside available
    by_contra lost
    obtain ⟨k, usable, contains, notOffered⟩ := MultibootMmapEntry.exists_lost lost
    have unmarked := allFree k ⟨usable, i, inside, available, contains⟩
    have low := wf.low i inside available
    have below : k < frameBound := by
      obtain ⟨-, upper⟩ := contains
      unfold hugePgSize at upper
      unfold frameBound
      omega
    obtain ⟨j, inside', available', offers⟩ := (exactly k).mp (mem_clearFrames.mpr ⟨below, unmarked⟩)
    -- The entry that offers the frame also contains it, so it is the same
    obtain ⟨lower, upper⟩ := contains
    obtain ⟨lower', upper'⟩ := offers.contains
    have positive : 0 < hugePgSize := by decide
    by_cases same : i = j
    · subst same
      exact notOffered offers
    · exact wf.disjoint i inside j inside' same available available' (k * hugePgSize)
        ⟨⟨lower, by omega⟩, ⟨lower', by omega⟩⟩
  case enough =>
    rintro endsInside k ⟨usable, i, inside, available, contains⟩
    have offers := contains.offers_of_endsInside usable (endsInside i inside available)
    exact (mem_clearFrames.mp ((exactly k).mpr ⟨i, inside, available, offers⟩)).2

def oneRange : MultibootTagMmap := ⟨40, fun _ => ⟨2 ^ 30, 2 ^ 26, 1⟩⟩

theorem oneRange_wellFormed : oneRange.WellFormed 1 where
  size := rfl
  low := fun _ _ _ => (by decide : 2 ^ 30 + 2 ^ 26 ≤ 2 ^ 36)
  disjoint := fun i first j second different => by omega

theorem parse_frees_all_iff_oneRange :
    ∃ pmm, parseMultibootMmapEntries ⟨fun _ => 0#64, 0, false⟩ oneRange = .ok pmm ∧
      ((∀ k, oneRange.Usable 1 k → pmm.marked k = false) ↔
        ∀ i < 1, (oneRange.entries i).type = multibootMemoryAvailable →
          (oneRange.entries i).EndsInside) :=
  parse_frees_all_iff oneRange_wellFormed rfl rfl

/-- Its first frame is lost. -/
theorem parse_loses_first_frame :
    ∃ pmm, oneRange.WellFormed 1 ∧
      parseMultibootMmapEntries ⟨fun _ => 0#64, 0, false⟩ oneRange = .ok pmm ∧
      ¬∀ k, oneRange.Usable 1 k → pmm.marked k = false := by
  let boot : PhysicalMemoryManager := ⟨fun _ => 0#64, 0, false⟩
  have zeroCount : boot.freeFramecount = 0 := rfl
  obtain ⟨pmm, parsed, -, exactly⟩ :=
    parseMultibootMmapEntries_spec oneRange_wellFormed zeroCount rfl
  refine ⟨pmm, oneRange_wellFormed, parsed, fun allFree => ?_⟩
  have usable : oneRange.Usable 1 512 := ⟨by decide, 0, by decide, rfl, by decide, by decide⟩
  obtain ⟨i, -, -, offers⟩ := (exactly 512).mp (mem_clearFrames.mpr ⟨by decide, allFree 512 usable⟩)
  exact offers.inside.1 rfl

end SwagOS.Mem
