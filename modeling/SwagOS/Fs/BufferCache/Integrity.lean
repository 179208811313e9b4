import Mathlib.Algebra.BigOperators.Group.Finset.Piecewise
import Mathlib.Algebra.BigOperators.Ring.Finset
import Mathlib.Algebra.Order.BigOperators.Group.Finset
import SwagOS.Fs.BufferCache

/-!
# Integrity of the buffer cache

All buffers start with block 0 of device 0, so keys alone are not unique.  What
holds is that the lookup only ever selects the first buffer of a block: of several
buffers with one key, all but the first are unreferenced.  The reference counts are
the numbers of open selections, and a sleeplock belongs to the thread that is
between its acquisition and its release.
-/

namespace SwagOS.Fs

open SwagOS.Lib

namespace Iobuf

def SameBlock (a b : Iobuf) : Prop := a.dev = b.dev ∧ a.blockno = b.blockno

theorem holdsBlock_iff {b : Iobuf} {dev blockno : Nat} :
    b.holdsBlock dev blockno = true ↔ b.dev = dev ∧ b.blockno = blockno := by
  simp [holdsBlock]

end Iobuf

/-- `bget` selects the first buffer of the block, or recycles one when there is none. -/
theorem bget_ok {buf buf' : Nat → Iobuf} {dev blockno b : Nat}
    (selected : bget buf dev blockno = .ok (b, buf')) :
    b < nbuf ∧
      (((buf b).holdsBlock dev blockno = true ∧
          (∀ i < b, (buf i).holdsBlock dev blockno = false) ∧
          buf' = Function.update buf b
            { buf b with refcnt := ((buf b).refcnt + 1) % 2 ^ 32 }) ∨
        ((∀ i < nbuf, (buf i).holdsBlock dev blockno = false) ∧ (buf b).refcnt = 0 ∧
          buf' = Function.update buf b
            { buf b with
              dev := dev
              blockno := blockno
              valid := false
              dirty := false
              refcnt := 1 })) := by
  rw [bget] at selected
  cases hit : (List.range nbuf).find? fun i => (buf i).holdsBlock dev blockno with
  | some i =>
    rw [hit] at selected
    cases selected
    obtain ⟨here, inside, first⟩ := List.find?_range_eq_some.mp hit
    exact ⟨List.mem_range.mp inside, .inl ⟨here, by simpa using first, rfl⟩⟩
  | none =>
    rw [hit] at selected
    have absent := List.find?_range_eq_none.mp hit
    cases unused : (List.range nbuf).find? fun i => (buf i).refcnt == 0 && !(buf i).dirty with
    | none =>
      rw [unused] at selected
      cases selected
    | some i =>
      rw [unused] at selected
      cases selected
      obtain ⟨here, inside, -⟩ := List.find?_range_eq_some.mp unused
      rw [Bool.and_eq_true, beq_iff_eq] at here
      exact ⟨List.mem_range.mp inside, .inr ⟨by simpa using absent, here.1, rfl⟩⟩

namespace Bcache

section Fields

variable (s : Bcache) (t : Tid) (b count : Nat) (write : Iobuf → Iobuf) (place : Place)
  (held : Finset Nat)

@[simp] theorem modify_buf : (s.modify b write).buf = Function.update s.buf b (write (s.buf b)) :=
  rfl
@[simp] theorem modify_place : (s.modify b write).place = s.place := rfl
@[simp] theorem modify_selections : (s.modify b write).selections = s.selections := rfl
@[simp] theorem modify_held : (s.modify b write).held = s.held := rfl
@[simp] theorem goto_buf : (s.goto t place).buf = s.buf := rfl
@[simp] theorem goto_place : (s.goto t place).place = Function.update s.place t place := rfl
@[simp] theorem goto_selections : (s.goto t place).selections = s.selections := rfl
@[simp] theorem goto_held : (s.goto t place).held = s.held := rfl
@[simp] theorem setSelections_buf : (s.setSelections t b count).buf = s.buf := rfl
@[simp] theorem setSelections_place : (s.setSelections t b count).place = s.place := rfl
@[simp] theorem setSelections_held : (s.setSelections t b count).held = s.held := rfl
@[simp] theorem setSelections_selections : (s.setSelections t b count).selections =
    Function.update s.selections t (Function.update (s.selections t) b count) := rfl
@[simp] theorem setHeld_buf : (s.setHeld t held).buf = s.buf := rfl
@[simp] theorem setHeld_place : (s.setHeld t held).place = s.place := rfl
@[simp] theorem setHeld_selections : (s.setHeld t held).selections = s.selections := rfl
@[simp] theorem setHeld_held : (s.setHeld t held).held = Function.update s.held t held := rfl

end Fields

def Owns (s : Bcache) (t : Tid) (b : Nat) : Prop := (s.buf b).lock.holdingsleep t = true

def Place.Passing : Place → Nat → Prop
  | .acquiring b, i => b = i
  | .decrementing b, i => b = i
  | _, _ => False

instance (place : Place) (i : Nat) : Decidable (Place.Passing place i) := by
  unfold Place.Passing
  split <;> infer_instance

def Place.Using : Place → Nat → Prop
  | .checking b, i => b = i
  | .marking b, i => b = i
  | .waiting b, i => b = i
  | .releasing b, i => b = i
  | _, _ => False

/-- The selections of a thread: one for each sleeplock, and one it is passing through. -/
def tally (held : Finset Nat) (place : Place) (b : Nat) : Nat :=
  (if b ∈ held then 1 else 0) + if Place.Passing place b then 1 else 0

/-- What the records of a thread say about where it stands. -/
structure Placed (s : Bcache) (t : Tid) : Prop where
  selections : ∀ b, s.selections t b = tally (s.held t) (s.place t) b
  held : ∀ b, b ∈ s.held t ↔ s.Owns t b
  using_ : ∀ b, Place.Using (s.place t) b → b ∈ s.held t
  decrementing : ∀ b, s.place t = .decrementing b → b ∉ s.held t

theorem Placed.other {s s' : Bcache} {t : Tid} (placed : s.Placed t)
    (place : s'.place t = s.place t) (selections : s'.selections t = s.selections t)
    (held : s'.held t = s.held t) (owns : ∀ b, s'.Owns t b ↔ s.Owns t b) : s'.Placed t where
  selections := by
    rw [place, selections, held]
    exact placed.selections
  held := by
    intro b
    rw [held, owns b]
    exact placed.held b
  using_ := by
    rw [place, held]
    exact placed.using_
  decrementing := by
    rw [place, held]
    exact placed.decrementing

theorem owns_update_iff {s : Bcache} {t : Tid} {b : Nat} {new : Iobuf}
    (lock : new.lock = (s.buf b).lock) (i : Nat) :
    (Function.update s.buf b new i).lock.holdingsleep t = true ↔ s.Owns t i := by
  by_cases same : i = b
  · subst same
    simp [Owns, lock]
  · simp [Owns, same]

theorem owns_bget {s : Bcache} {t : Tid} {dev blockno b : Nat} {buf : Nat → Iobuf}
    (selected : bget s.buf dev blockno = .ok (b, buf)) (i : Nat) :
    (buf i).lock.holdingsleep t = true ↔ s.Owns t i := by
  obtain ⟨-, ⟨-, -, rfl⟩ | ⟨-, -, rfl⟩⟩ := bget_ok selected
  · exact owns_update_iff (by rfl) i
  · exact owns_update_iff (by rfl) i

/-- The step of a thread that only moves on, and may write other fields than the lock. -/
theorem Placed.goto {s s' : Bcache} {t : Tid} {place : Place} (placed : s.Placed t)
    (owns : ∀ b, s'.Owns t b ↔ s.Owns t b) (moved : s'.place t = place)
    (selections : s'.selections t = s.selections t) (held : s'.held t = s.held t)
    (before : ∀ b, ¬Place.Passing (s.place t) b) (after : ∀ b, ¬Place.Passing place b)
    (using_ : ∀ b, Place.Using place b → b ∈ s.held t) : s'.Placed t where
  selections := by
    intro b
    rw [selections, held, moved, placed.selections b, tally, tally, if_neg (before b),
      if_neg (after b)]
  held := by
    intro b
    rw [held, owns b]
    exact placed.held b
  using_ := by
    intro b use
    rw [moved] at use
    rw [held]
    exact using_ b use
  decrementing := by
    intro b decrementing
    rw [moved] at decrementing
    exact absurd rfl (decrementing ▸ after b)

theorem owns_acquire {s : Bcache} {t u : Tid} {b : Nat} (unlocked : (s.buf b).lock.isLocked = false)
    (different : u ≠ t) (i : Nat) :
    (Function.update s.buf b { s.buf b with lock := .acquire t } i).lock.holdingsleep u = true ↔
      s.Owns u i := by
  by_cases same : i = b
  · subst same
    have other : (t : Nat) ≠ u := fun equal => different (Fin.ext equal.symm)
    simp [Owns, Sleeplock.holdingsleep, Sleeplock.acquire, unlocked, other]
  · simp [Owns, same]

theorem owns_release {s : Bcache} {t u : Tid} {b : Nat} (owned : s.Owns t b)
    (different : u ≠ t) (i : Nat) :
    (Function.update s.buf b { s.buf b with lock := .release } i).lock.holdingsleep u = true ↔
      s.Owns u i := by
  by_cases same : i = b
  · subst same
    rw [Owns, Sleeplock.holdingsleep, Bool.and_eq_true, beq_iff_eq] at owned
    have other : (t : Nat) ≠ u := fun equal => different (Fin.ext equal.symm)
    simp [Owns, Sleeplock.holdingsleep, Sleeplock.release, owned, other]
  · simp [Owns, same]

theorem Placed.bget {s : Bcache} {t : Tid} {b : Nat} {buf : Nat → Iobuf} (placed : s.Placed t)
    (outside : s.place t = .outside)
    (owns : ∀ i, (buf i).lock.holdingsleep t = true ↔ s.Owns t i) :
    Placed (({ s with buf := buf }.goto t (.acquiring b)).setSelections t b
      (s.selections t b + 1)) t where
  selections := by
    intro i
    have before := placed.selections i
    rw [outside] at before
    by_cases same : i = b
    · subst same
      simp [before, tally, Place.Passing]
    · have after : tally (s.held t) .outside i = tally (s.held t) (.acquiring b) i := by
        simp [tally, Place.Passing, Ne.symm same]
      simpa [same] using before.trans after
  held := fun i => (placed.held i).trans (owns i).symm
  using_ := fun i use => by simp [Place.Using] at use
  decrementing := fun i decrementing => by simp at decrementing

theorem Placed.acquire {s : Bcache} {t : Tid} {b : Nat} (placed : s.Placed t)
    (acquiring : s.place t = .acquiring b) (unlocked : (s.buf b).lock.isLocked = false) :
    Placed (((s.modify b fun buf => { buf with lock := .acquire t }).goto t
      (.checking b)).setHeld t (insert b (s.held t))) t where
  selections := by
    intro i
    have before := placed.selections i
    rw [acquiring] at before
    by_cases same : i = b
    · subst same
      have absent : i ∉ s.held t := by
        rw [placed.held i, Owns, Sleeplock.holdingsleep, unlocked]
        simp
      simp [before, tally, absent, Place.Passing]
    · simpa [same, tally, Place.Passing, Ne.symm same] using before
  held := by
    intro i
    by_cases same : i = b
    · subst same
      simp [Owns, Sleeplock.holdingsleep, Sleeplock.acquire]
    · simpa [Owns, same] using placed.held i
  using_ := by
    intro i use
    obtain rfl : b = i := by simpa [Place.Using] using use
    simp
  decrementing := fun i decrementing => by simp at decrementing

theorem Placed.release {s : Bcache} {t : Tid} {b : Nat} (placed : s.Placed t)
    (releasing : s.place t = .releasing b) :
    Placed (((s.modify b fun buf => { buf with lock := .release }).goto t
      (.decrementing b)).setHeld t ((s.held t).erase b)) t where
  selections := by
    intro i
    have before := placed.selections i
    rw [releasing] at before
    by_cases same : i = b
    · subst same
      have present : i ∈ s.held t := placed.using_ i (by simp [releasing, Place.Using])
      simp [before, tally, present, Place.Passing]
    · simpa [same, tally, Place.Passing, Ne.symm same] using before
  held := by
    intro i
    by_cases same : i = b
    · subst same
      simp [Owns, Sleeplock.holdingsleep, Sleeplock.release]
    · simpa [Owns, same] using placed.held i
  using_ := fun i use => by simp [Place.Using] at use
  decrementing := by
    intro i decrementing
    obtain rfl : b = i := by simpa using decrementing
    simp

theorem Placed.decrement {s : Bcache} {t : Tid} {b : Nat} {write : Iobuf → Iobuf}
    (placed : s.Placed t) (decrementing : s.place t = .decrementing b)
    (lock : (write (s.buf b)).lock = (s.buf b).lock) :
    Placed (((s.modify b write).goto t .outside).setSelections t b (s.selections t b - 1)) t where
  selections := by
    intro i
    have before := placed.selections i
    rw [decrementing] at before
    by_cases same : i = b
    · subst same
      have absent := placed.decrementing i decrementing
      simp [before, tally, absent, Place.Passing]
    · have after : tally (s.held t) (.decrementing b) i = tally (s.held t) .outside i := by
        simp [tally, Place.Passing, Ne.symm same]
      simpa [same] using before.trans after
  held := fun i => (placed.held i).trans (owns_update_iff lock i).symm
  using_ := fun i use => by simp [Place.Using] at use
  decrementing := fun i decrementing => by simp at decrementing

theorem Placed.step {s s' : Bcache} (placed : ∀ t, s.Placed t) (moved : Step s s') (u : Tid) :
    s'.Placed u := by
  cases moved with
  | @bget t dev blockno b buf outside selected =>
    by_cases same : u = t
    · subst same
      exact (placed u).bget outside (owns_bget selected)
    · exact (placed u).other (by simp [same]) (by simp [same]) rfl (owns_bget selected)
  | @acquireSleeplock t b acquiring unlocked =>
    by_cases same : u = t
    · subst same
      exact (placed u).acquire acquiring unlocked
    · exact (placed u).other (by simp [same]) rfl (by simp [same]) (owns_acquire unlocked same)
  | @breadHit t b checking =>
    by_cases same : u = t
    · subst same
      exact (placed u).goto (fun _ => Iff.rfl) (Function.update_self ..) rfl rfl
        (by simp [checking, Place.Passing]) (by simp [Place.Passing]) (by simp [Place.Using])
    · exact (placed u).other (by simp [same]) rfl rfl fun _ => Iff.rfl
  | @breadMiss t b checking =>
    by_cases same : u = t
    · subst same
      refine (placed u).goto (fun _ => Iff.rfl) (Function.update_self ..) rfl rfl
        (by simp [checking, Place.Passing]) (by simp [Place.Passing]) fun i use => ?_
      exact (placed u).using_ i (by simpa [checking, Place.Using] using use)
    · exact (placed u).other (by simp [same]) rfl rfl fun _ => Iff.rfl
  | @bwrite t b outside _ owned =>
    by_cases same : u = t
    · subst same
      refine (placed u).goto (fun _ => Iff.rfl) (Function.update_self ..) rfl rfl
        (by simp [outside, Place.Passing]) (by simp [Place.Passing]) ?_
      rintro i ⟨⟩
      exact ((placed u).held b).mpr owned
    · exact (placed u).other (by simp [same]) rfl rfl fun _ => Iff.rfl
  | @bwriteDirty t b marking =>
    by_cases same : u = t
    · subst same
      refine (placed u).goto (owns_update_iff (by rfl)) (Function.update_self ..) rfl rfl
        (by simp [marking, Place.Passing]) (by simp [Place.Passing]) fun i use => ?_
      exact (placed u).using_ i (by simpa [marking, Place.Using] using use)
    · exact (placed u).other (by simp [same]) rfl rfl (owns_update_iff (by rfl))
  | ideintr => exact (placed u).other rfl rfl rfl (owns_update_iff (by rfl))
  | @iderw t b waiting =>
    by_cases same : u = t
    · subst same
      exact (placed u).goto (fun _ => Iff.rfl) (Function.update_self ..) rfl rfl
        (by simp [waiting, Place.Passing]) (by simp [Place.Passing]) (by simp [Place.Using])
    · exact (placed u).other (by simp [same]) rfl rfl fun _ => Iff.rfl
  | @brelse t b outside _ owned =>
    by_cases same : u = t
    · subst same
      refine (placed u).goto (fun _ => Iff.rfl) (Function.update_self ..) rfl rfl
        (by simp [outside, Place.Passing]) (by simp [Place.Passing]) ?_
      rintro i ⟨⟩
      exact ((placed u).held b).mpr owned
    · exact (placed u).other (by simp [same]) rfl rfl fun _ => Iff.rfl
  | @releaseSleeplock t b releasing =>
    by_cases same : u = t
    · subst same
      exact (placed u).release releasing
    · have owned := ((placed t).held b).mp
        ((placed t).using_ b (by simp [releasing, Place.Using]))
      exact (placed u).other (by simp [same]) rfl (by simp [same]) (owns_release owned same)
  | @decrement t b decrementing =>
    by_cases same : u = t
    · subst same
      exact (placed u).decrement decrementing (by rfl)
    · exact (placed u).other (by simp [same]) (by simp [same]) rfl (owns_update_iff (by rfl))

theorem sum_update {ι : Type} [Fintype ι] [DecidableEq ι] (f : ι → Nat) (t : ι) (v : Nat) :
    ∑ u, Function.update f t v u + f t = ∑ u, f u + v := by
  rw [Finset.sum_update_of_mem (Finset.mem_univ t),
    Finset.sum_eq_add_sum_sdiff_singleton_of_mem (Finset.mem_univ t) f]
  omega

def selectionsOf (s : Bcache) (b : Nat) : Nat := ∑ t, s.selections t b

def Reselected (s s' : Bcache) (t : Tid) (b count : Nat) : Prop :=
  s'.selections = Function.update s.selections t (Function.update (s.selections t) b count)

theorem Reselected.self {s s' : Bcache} {t : Tid} {b count : Nat}
    (changed : s.Reselected s' t b count) :
    s'.selectionsOf b + s.selections t b = s.selectionsOf b + count := by
  have column : (fun u => s'.selections u b) =
      Function.update (fun u => s.selections u b) t count := by
    funext u
    rw [changed]
    by_cases same : u = t
    · subst same
      simp
    · simp [same]
  rw [selectionsOf, selectionsOf, ← sum_update (fun u => s.selections u b) t count, column]

theorem Reselected.of_ne {s s' : Bcache} {t : Tid} {b count i : Nat}
    (changed : s.Reselected s' t b count) (different : i ≠ b) :
    s'.selectionsOf i = s.selectionsOf i := by
  apply Finset.sum_congr rfl
  intro u _
  rw [changed]
  by_cases same : u = t
  · subst same
    simp [different]
  · simp [same]

theorem selectionsOf_le {s : Bcache} (placed : ∀ t, s.Placed t) (b : Nat) :
    s.selectionsOf b ≤ 602 := by
  have each : ∀ t ∈ Finset.univ, s.selections t b ≤ 2 := by
    intro t _
    rw [(placed t).selections b, tally]
    split <;> split <;> omega
  simpa [selectionsOf] using Finset.sum_le_card_nsmul Finset.univ _ 2 each

theorem selections_le {s : Bcache} (t : Tid) (b : Nat) : s.selections t b ≤ s.selectionsOf b :=
  Finset.single_le_sum (f := fun u => s.selections u b) (fun _ _ => Nat.zero_le _)
    (Finset.mem_univ t)

/-- The counts are right, and only the first buffer of a block is referenced. -/
structure Cached (s : Bcache) : Prop where
  counted : ∀ i, (s.buf i).refcnt = s.selectionsOf i
  first : ∀ i < nbuf, ∀ j < nbuf, i < j → (s.buf i).SameBlock (s.buf j) → (s.buf j).refcnt = 0

theorem Cached.congr {s s' : Bcache} (cached : s.Cached)
    (block : ∀ i, (s'.buf i).SameBlock (s.buf i) ∧ (s'.buf i).refcnt = (s.buf i).refcnt)
    (selections : s'.selections = s.selections) : s'.Cached where
  counted := by
    intro i
    rw [(block i).2, cached.counted i, selectionsOf, selectionsOf, selections]
  first := by
    intro i inside j inside' before same
    rw [(block j).2]
    refine cached.first i inside j inside' before ⟨?_, ?_⟩
    · rw [← (block i).1.1, ← (block j).1.1, same.1]
    · rw [← (block i).1.2, ← (block j).1.2, same.2]

/-- A hit references the first buffer of the block once more. -/
theorem Cached.hit {s s' : Bcache} {t : Tid} {dev blockno b : Nat} (cached : s.Cached)
    (bound : s.selectionsOf b ≤ 602)
    (here : (s.buf b).holdsBlock dev blockno = true) (inside : b < nbuf)
    (first : ∀ i < b, (s.buf i).holdsBlock dev blockno = false)
    (buf : s'.buf = Function.update s.buf b
      { s.buf b with refcnt := ((s.buf b).refcnt + 1) % 2 ^ 32 })
    (changed : s.Reselected s' t b (s.selections t b + 1)) : s'.Cached := by
  have refcnt : (s'.buf b).refcnt = s.selectionsOf b + 1 := by
    rw [buf, Function.update_self]
    change ((s.buf b).refcnt + 1) % 2 ^ 32 = s.selectionsOf b + 1
    rw [cached.counted b, Nat.mod_eq_of_lt (by omega)]
  have block : ∀ i, (s'.buf i).SameBlock (s.buf i) := by
    intro i
    by_cases same : i = b
    · subst same
      simp [buf, Iobuf.SameBlock]
    · simp [buf, same, Iobuf.SameBlock]
  refine ⟨fun i => ?_, fun i insideI j insideJ before sameBlock => ?_⟩
  · by_cases same : i = b
    · subst same
      have := changed.self
      omega
    · rw [changed.of_ne same, ← cached.counted i]
      simp [buf, same]
  · have old : (s.buf i).SameBlock (s.buf j) :=
      ⟨(block i).1.symm.trans (sameBlock.1.trans (block j).1),
        (block i).2.symm.trans (sameBlock.2.trans (block j).2)⟩
    have unreferenced := cached.first i insideI j insideJ before old
    -- The buffer that was hit is the first one of its block, so it is not `j`.
    have different : j ≠ b := by
      rintro rfl
      rw [Iobuf.holdsBlock_iff] at here
      have also : (s.buf i).holdsBlock dev blockno = true :=
        Iobuf.holdsBlock_iff.mpr ⟨old.1.trans here.1, old.2.trans here.2⟩
      rw [first i before] at also
      cases also
    simpa [buf, different] using unreferenced

theorem Cached.recycle {s s' : Bcache} {t : Tid} {dev blockno b : Nat} (cached : s.Cached)
    (absent : ∀ i < nbuf, (s.buf i).holdsBlock dev blockno = false)
    (unused : (s.buf b).refcnt = 0)
    (buf : s'.buf = Function.update s.buf b
      { s.buf b with
        dev := dev
        blockno := blockno
        valid := false
        dirty := false
        refcnt := 1 })
    (changed : s.Reselected s' t b (s.selections t b + 1)) : s'.Cached := by
  have others : ∀ i, i ≠ b → s'.buf i = s.buf i := fun i different => by simp [buf, different]
  have new : (s'.buf b).dev = dev ∧ (s'.buf b).blockno = blockno ∧ (s'.buf b).refcnt = 1 := by
    simp [buf]
  have alone : ∀ i < nbuf, i ≠ b → ¬((s.buf i).dev = dev ∧ (s.buf i).blockno = blockno) := by
    intro i inside _ both
    have := Iobuf.holdsBlock_iff.mpr both
    rw [absent i inside] at this
    cases this
  refine ⟨fun i => ?_, fun i insideI j insideJ before sameBlock => ?_⟩
  · by_cases same : i = b
    · subst same
      have := changed.self
      have := cached.counted i
      omega
    · rw [changed.of_ne same, others i same, cached.counted i]
  · by_cases isI : i = b
    · subst isI
      have different : j ≠ i := Nat.ne_of_gt before
      rw [others j different] at sameBlock
      exact absurd ⟨sameBlock.1.symm.trans new.1, sameBlock.2.symm.trans new.2.1⟩
        (alone j insideJ different)
    · by_cases isJ : j = b
      · subst isJ
        rw [others i isI] at sameBlock
        exact absurd ⟨sameBlock.1.trans new.1, sameBlock.2.trans new.2.1⟩ (alone i insideI isI)
      · rw [others i isI, others j isJ] at sameBlock
        rw [others j isJ]
        exact cached.first i insideI j insideJ before sameBlock

theorem Cached.decrement {s s' : Bcache} {t : Tid} {b : Nat} (cached : s.Cached)
    (bound : s.selectionsOf b ≤ 602) (selected : 0 < s.selections t b)
    (buf : s'.buf = Function.update s.buf b
      { s.buf b with refcnt := ((s.buf b).refcnt + (2 ^ 32 - 1)) % 2 ^ 32 })
    (changed : s.Reselected s' t b (s.selections t b - 1)) : s'.Cached := by
  have positive := selections_le (s := s) t b
  have refcnt : (s'.buf b).refcnt = s.selectionsOf b - 1 := by
    rw [buf, Function.update_self]
    change ((s.buf b).refcnt + (2 ^ 32 - 1)) % 2 ^ 32 = s.selectionsOf b - 1
    rw [cached.counted b]
    omega
  refine ⟨fun i => ?_, fun i insideI j insideJ before sameBlock => ?_⟩
  · by_cases same : i = b
    · subst same
      have := changed.self
      omega
    · rw [changed.of_ne same, ← cached.counted i]
      simp [buf, same]
  · have block : ∀ i, (s'.buf i).dev = (s.buf i).dev ∧ (s'.buf i).blockno = (s.buf i).blockno := by
      intro i
      by_cases same : i = b
      · subst same
        simp [buf]
      · simp [buf, same]
    have old : (s.buf j).refcnt = 0 := by
      refine cached.first i insideI j insideJ before ⟨?_, ?_⟩
      · rw [← (block i).1, ← (block j).1, sameBlock.1]
      · rw [← (block i).2, ← (block j).2, sameBlock.2]
    by_cases same : j = b
    · subst same
      have := cached.counted j
      omega
    · simpa [buf, same] using old

theorem sameBlock_update {buf : Nat → Iobuf} {b : Nat} {new : Iobuf}
    (block : new.SameBlock (buf b)) (i : Nat) :
    (Function.update buf b new i).SameBlock (buf i) := by
  by_cases same : i = b
  · subst same
    simpa using block
  · simp [same, Iobuf.SameBlock]

theorem block_update {buf : Nat → Iobuf} {b : Nat} {new : Iobuf} (block : new.SameBlock (buf b))
    (refcnt : new.refcnt = (buf b).refcnt) (i : Nat) :
    (Function.update buf b new i).SameBlock (buf i) ∧
      (Function.update buf b new i).refcnt = (buf i).refcnt := by
  refine ⟨sameBlock_update block i, ?_⟩
  by_cases same : i = b
  · subst same
    simpa using refcnt
  · simp [same]

theorem Cached.step {s s' : Bcache} (placed : ∀ t, s.Placed t) (cached : s.Cached)
    (moved : Step s s') : s'.Cached := by
  have quiet : ∀ i, (s.buf i).SameBlock (s.buf i) ∧ (s.buf i).refcnt = (s.buf i).refcnt :=
    fun i => ⟨⟨rfl, rfl⟩, rfl⟩
  cases moved with
  | @bget t dev blockno b buf outside selected =>
    have bound := selectionsOf_le placed b
    obtain ⟨inside, ⟨here, first, rfl⟩ | ⟨absent, unused, rfl⟩⟩ := bget_ok selected
    · exact cached.hit bound here inside first rfl rfl
    · exact cached.recycle absent unused rfl rfl
  | acquireSleeplock => exact cached.congr (block_update (by exact ⟨rfl, rfl⟩) (by rfl)) rfl
  | breadHit => exact cached.congr quiet rfl
  | breadMiss => exact cached.congr quiet rfl
  | bwrite => exact cached.congr quiet rfl
  | bwriteDirty => exact cached.congr (block_update (by exact ⟨rfl, rfl⟩) (by rfl)) rfl
  | ideintr => exact cached.congr (block_update (by exact ⟨rfl, rfl⟩) (by rfl)) rfl
  | iderw => exact cached.congr quiet rfl
  | brelse => exact cached.congr quiet rfl
  | releaseSleeplock => exact cached.congr (block_update (by exact ⟨rfl, rfl⟩) (by rfl)) rfl
  | @decrement t b decrementing =>
    refine cached.decrement (selectionsOf_le placed b) (t := t) ?_ rfl rfl
    simp [(placed t).selections b, tally, decrementing, Place.Passing]

/-- The invariant of the cache. -/
structure Inv (s : Bcache) : Prop where
  placed : ∀ t, s.Placed t
  cached : s.Cached

theorem Inv.binit : binit.Inv where
  placed := fun t => {
    selections := fun b => by simp [Bcache.binit, tally, Place.Passing]
    held := fun b => by simp [Bcache.binit, Owns, Iobuf.zero, Sleeplock.holdingsleep]
    using_ := fun b use => by simp [Bcache.binit, Place.Using] at use
    decrementing := fun b decrementing => by simp [Bcache.binit] at decrementing }
  cached := {
    counted := fun i => by simp [Bcache.binit, Iobuf.zero, selectionsOf]
    first := fun i _ j _ _ _ => rfl }

theorem Inv.step {s s' : Bcache} (inv : s.Inv) (moved : Step s s') : s'.Inv :=
  ⟨Placed.step inv.placed moved, inv.cached.step inv.placed moved⟩

theorem Inv.of_reachable {s : Bcache} (reached : Reachable (· = Bcache.binit) Step s) : s.Inv :=
  reached.invariant (by rintro _ rfl; exact Inv.binit) fun _ _ inv moved => inv.step moved

structure Integrity (s : Bcache) : Prop where
  /-- The reference count is the number of selections in `bget` that `brelse` has not
  yet taken back. -/
  counted : ∀ i < nbuf, (s.buf i).refcnt = ∑ t, s.selections t i
  /-- That is the number of threads, as long as none has selected the buffer twice. -/
  threads : ∀ i < nbuf, (∀ t, s.selections t i ≤ 1) →
    (s.buf i).refcnt = (Finset.univ.filter fun t => 0 < s.selections t i).card
  /-- A thread that has is waiting for its own sleeplock. -/
  stuck : ∀ t i, 1 < s.selections t i → s.place t = .acquiring i ∧ s.Owns t i
  /-- A referenced buffer keeps its block. -/
  kept : ∀ s', Step s s' → ∀ i, 0 < (s.buf i).refcnt → (s'.buf i).SameBlock (s.buf i)
  distinct : ∀ i < nbuf, ∀ j < nbuf, (s.buf i).SameBlock (s.buf j) →
    0 < (s.buf i).refcnt → 0 < (s.buf j).refcnt → i = j
  /-- One thread at a time is between the acquisition and the release of the
  sleeplocks of a block. -/
  exclusive : ∀ t u i j, i < nbuf → j < nbuf → (s.buf i).SameBlock (s.buf j) →
    i ∈ s.held t → j ∈ s.held u → t = u

theorem Inv.distinct {s : Bcache} (inv : s.Inv) {i j : Nat} (insideI : i < nbuf)
    (insideJ : j < nbuf) (same : (s.buf i).SameBlock (s.buf j)) (usedI : 0 < (s.buf i).refcnt)
    (usedJ : 0 < (s.buf j).refcnt) : i = j := by
  rcases Nat.lt_trichotomy i j with before | equal | after
  · have := inv.cached.first i insideI j insideJ before same
    omega
  · exact equal
  · have := inv.cached.first j insideJ i insideI after ⟨same.1.symm, same.2.symm⟩
    omega

theorem Inv.referenced {s : Bcache} (inv : s.Inv) {t : Tid} {i : Nat} (held : i ∈ s.held t) :
    0 < (s.buf i).refcnt := by
  have selected : s.selections t i ≤ s.selectionsOf i := selections_le t i
  rw [(inv.placed t).selections i, tally, if_pos held] at selected
  rw [inv.cached.counted i]
  omega

theorem Inv.exclusive {s : Bcache} (inv : s.Inv) {t u : Tid} {i j : Nat} (insideI : i < nbuf)
    (insideJ : j < nbuf) (same : (s.buf i).SameBlock (s.buf j)) (heldI : i ∈ s.held t)
    (heldJ : j ∈ s.held u) : t = u := by
  obtain rfl := inv.distinct insideI insideJ same (inv.referenced heldI) (inv.referenced heldJ)
  have ownerT := ((inv.placed t).held i).mp heldI
  have ownerU := ((inv.placed u).held i).mp heldJ
  rw [Owns, Sleeplock.holdingsleep, Bool.and_eq_true, beq_iff_eq] at ownerT ownerU
  exact Fin.ext (ownerT.2.symm.trans ownerU.2)

/-- Only `bget` writes keys, and only those of unreferenced buffers. -/
theorem Step.kept {s s' : Bcache} (moved : Step s s') {i : Nat} (used : 0 < (s.buf i).refcnt) :
    (s'.buf i).SameBlock (s.buf i) := by
  cases moved with
  | @bget t dev blockno b buf outside selected =>
    obtain ⟨-, ⟨-, -, rfl⟩ | ⟨-, unused, rfl⟩⟩ := bget_ok selected
    · exact sameBlock_update (by exact ⟨rfl, rfl⟩) i
    · have different : i ≠ b := by
        rintro rfl
        omega
      simp [different, Iobuf.SameBlock]
  | acquireSleeplock => exact sameBlock_update (by exact ⟨rfl, rfl⟩) i
  | bwriteDirty => exact sameBlock_update (by exact ⟨rfl, rfl⟩) i
  | ideintr => exact sameBlock_update (by exact ⟨rfl, rfl⟩) i
  | releaseSleeplock => exact sameBlock_update (by exact ⟨rfl, rfl⟩) i
  | decrement => exact sameBlock_update (by exact ⟨rfl, rfl⟩) i
  | _ => exact ⟨rfl, rfl⟩

/-- The cache keeps its integrity in every run of its users. -/
theorem bufferCache_integrity {s : Bcache} (reached : Reachable (· = binit) Step s) :
    s.Integrity := by
  have inv := Inv.of_reachable reached
  refine ⟨fun i _ => inv.cached.counted i, fun i _ once => ?_, fun t i twice => ?_,
    fun s' moved i used => moved.kept used, fun i insideI j insideJ => inv.distinct insideI insideJ,
    fun t u i j => inv.exclusive⟩
  · rw [inv.cached.counted i, selectionsOf, Finset.card_filter]
    apply Finset.sum_congr rfl
    intro t _
    have := once t
    split <;> omega
  · rw [(inv.placed t).selections i, tally] at twice
    by_cases held : i ∈ s.held t
    · by_cases passing : Place.Passing (s.place t) i
      · refine ⟨?_, ((inv.placed t).held i).mp held⟩
        cases place : s.place t with
        | acquiring b =>
          rw [place] at passing
          obtain rfl : b = i := passing
          rfl
        | decrementing b =>
          rw [place] at passing
          obtain rfl : b = i := passing
          exact absurd held ((inv.placed t).decrementing b place)
        | _ =>
          rw [place] at passing
          exact absurd passing id
      · rw [if_pos held, if_neg passing] at twice
        omega
    · rw [if_neg held] at twice
      split at twice <;> omega

def selected : Bcache :=
  ({ binit with
    buf := Function.update binit.buf 0 { Iobuf.zero with refcnt := 1 } }.goto 0
      (.acquiring 0)).setSelections 0 0 1

theorem selected_reachable : Reachable (· = binit) Step selected := by
  have start : Reachable (· = binit) Step binit := .base rfl
  exact start.next (@Step.bget binit 0 0 0 0 _ rfl rfl)

/-- Two threads have selected block 0, and a third one block 7. -/
theorem bufferCache_integrity_shared : ∃ s : Bcache, Reachable (· = binit) Step s ∧
    (s.buf 0).refcnt = 2 ∧ (s.buf 1).refcnt = 1 ∧ (s.buf 1).blockno = 7 ∧ s.Integrity := by
  have again := selected_reachable.next (@Step.bget _ 1 0 0 0 _ rfl rfl)
  have other := again.next (@Step.bget _ 2 0 7 1 _ rfl rfl)
  exact ⟨_, other, rfl, rfl, rfl, bufferCache_integrity other⟩

def reselected : Bcache where
  buf := Function.update binit.buf 0 ⟨true, false, 0, 0, .acquire 0, 2⟩
  place := Function.update binit.place 0 (.acquiring 0)
  selections := Function.update binit.selections 0 (Function.update (fun _ => 0) 0 2)
  held := Function.update binit.held 0 {0}

theorem reselected_reachable : Reachable (· = binit) Step reselected := by
  have acquired := selected_reachable.next (.acquireSleeplock (t := 0) (b := 0) rfl rfl)
  have missed := acquired.next (.breadMiss (t := 0) (b := 0) rfl rfl rfl)
  have read := missed.next (.ideintr (t := 0) (b := 0) rfl)
  have returned := read.next (.iderw (t := 0) (b := 0) rfl rfl rfl)
  have again := returned.next (@Step.bget _ 0 0 0 0 _ rfl rfl)
  refine cast (congrArg _ ?_) again
  simp [reselected, selected, modify, goto, setSelections, setHeld, binit, Iobuf.zero,
    Function.update_idem]

/-- A thread that asks for a block it already has is counted twice. -/
theorem refcnt_not_thread_count :
    ¬∀ s : Bcache, Reachable (· = binit) Step s → ∀ i < nbuf,
      (s.buf i).refcnt = (Finset.univ.filter fun t => 0 < s.selections t i).card := by
  intro counts
  have two := counts reselected reselected_reachable 0 (by decide)
  have one : (Finset.univ.filter fun t => 0 < reselected.selections t 0) ⊆ {0} := by
    intro t inside
    by_contra other
    rw [Finset.mem_singleton] at other
    have chosen := (Finset.mem_filter.mp inside).2
    simp [reselected, binit, other] at chosen
  have := Finset.card_le_card one
  rw [← two] at this
  exact absurd this (by decide)

end Bcache

end SwagOS.Fs
