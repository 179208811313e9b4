import Mathlib.Data.List.Nodup
import SwagOS.Drivers.Keyboard

/-!
# The delivery of keystrokes

A character stays in `character_buf` until it is read, is read by one call and is returned
before those that came after it, if the interrupt handler finds `character_buf` empty and calls
find a character one after the other.  The code does not see to it: the handler does not look at
the lock or at what it overwrites, and a call gives the lock up before it reads the character and
sets it to 0.

The press of a shift key is a character as well: the one that the stack of the handler has.
-/

namespace SwagOS.Drivers.KeyboardSystem

open SwagOS.Lib SwagOS.Kernel

/-- What the calls and `character_buf` have: distinct calls are going to return the first ones,
and the last one may still be in `character_buf`. -/
def Pending (s : KeyboardSystem) (rest : List UInt8) : Prop :=
  ∃ (calls : List Nat) (cell : List UInt8),
    calls.Nodup ∧ (cell = [] ∨ s.characterBuf ≠ 0 ∧ cell = [s.characterBuf]) ∧
      rest = (calls.filterMap fun t => (s.place t).held) ++ cell

/-- Each accepted character came back once and in its turn, or is still pending, and none comes
from a shift key. -/
def Delivered (s : KeyboardSystem) : Prop :=
  (∃ rest, s.Pending rest ∧ s.history.accepted = s.history.returned ++ rest) ∧
    ∀ scancode ∈ s.scancodes, ¬IsShift scancode

/-- The handler stores where there is nothing, and a call finds a character only if no other one
is between its release of the lock and its return. -/
def TakesTurns (s : KeyboardSystem) : Event → Prop
  | .interrupt scancode c => IsShift scancode → isAscii c = false
  | .store => s.characterBuf = 0
  | .find _ => ∀ u, ¬(s.place u).Takes
  | .read | .clear | .giveBack _ _ | .other => True

def InTurn (s : KeyboardSystem) : Event → Prop
  | .interrupt scancode c => IsShift scancode → isAscii c = false
  | .store => s.history.unread = none
  | .read => s.characterBuf ≠ 0 → s.history.unread ≠ none
  | .clear => s.history.unread = none
  | .giveBack t ret => ret ≠ 0 → s.history.taken.head? = some (t, ret)
  | .find _ | .other => True

structure Inv (s : KeyboardSystem) : Prop where
  conserved : s.history.Conserved
  distinct : (s.history.taken.map Prod.fst).Nodup
  held : ∀ t c, (t, c) ∈ s.history.taken ↔ (s.place t).held = some c
  unread : ∀ c, s.history.unread = some c → s.characterBuf = c ∧ c ≠ 0
  handler : ∀ cpu scancode c, s.handler cpu = .store scancode c → c ≠ 0 ∧ ¬IsShift scancode
  scancodes : ∀ scancode ∈ s.scancodes, ¬IsShift scancode

theorem Start.inv {s : KeyboardSystem} (start : s.Start) : s.Inv where
  conserved := by
    rw [start.history]
    exact Handover.conserved_empty
  distinct := by
    rw [start.history]
    exact List.nodup_nil
  held := by
    intro t c
    rw [start.history, start.place t]
    exact iff_of_false List.not_mem_nil nofun
  unread := by
    intro c there
    rw [start.history] at there
    cases there
  handler := by
    intro cpu scancode c there
    rw [start.handler cpu] at there
    cases there
  scancodes := by
    rw [start.scancodes]
    exact List.forall_mem_nil _

theorem filterMap_held {held : Nat → Option UInt8} {taken : List (Nat × UInt8)}
    (holds : ∀ entry ∈ taken, held entry.1 = some entry.2) :
    (taken.map Prod.fst).filterMap held = taken.map Prod.snd := by
  induction taken with
  | nil => rfl
  | cons entry rest inductionHypothesis =>
    obtain ⟨first, others⟩ := List.forall_mem_cons.mp holds
    rw [List.map_cons, List.filterMap_cons_some first, inductionHypothesis others, List.map_cons]

theorem Inv.delivered {s : KeyboardSystem} (inv : s.Inv) : s.Delivered := by
  refine ⟨⟨s.history.taken.map Prod.snd ++ s.history.unread.toList, ?_, ?_⟩, inv.scancodes⟩
  · refine ⟨s.history.taken.map Prod.fst, s.history.unread.toList, inv.distinct, ?_, ?_⟩
    · cases unread : s.history.unread with
      | none => exact .inl rfl
      | some c =>
        obtain ⟨here, set⟩ := inv.unread c unread
        rw [here]
        exact .inr ⟨set, rfl⟩
    · rw [filterMap_held fun entry member => (inv.held entry.1 entry.2).mp member]
  · rw [inv.conserved, List.append_assoc]

section Moves

variable {s : KeyboardSystem} {t cpu : Nat}

theorem Inv.setTable (inv : s.Inv) (table : ThreadTable) : (s.setTable table).Inv :=
  ⟨inv.conserved, inv.distinct, inv.held, inv.unread, inv.handler, inv.scancodes⟩

theorem Inv.setLock (inv : s.Inv) (owner : Option Nat) : (s.setLock owner).Inv :=
  ⟨inv.conserved, inv.distinct, inv.held, inv.unread, inv.handler, inv.scancodes⟩

theorem Inv.setProcLock (inv : s.Inv) (owner : Option Nat) : (s.setProcLock owner).Inv :=
  ⟨inv.conserved, inv.distinct, inv.held, inv.unread, inv.handler, inv.scancodes⟩

theorem goto_held {place : ReaderPlace} (same : place.held = (s.place t).held) (u : Nat) :
    ((s.goto t place).place u).held = (s.place u).held := by
  by_cases here : u = t
  · subst here
    rw [goto_place, Function.update_self, same]
  · rw [goto_place, Function.update_of_ne here]

theorem Inv.goto (inv : s.Inv) {place : ReaderPlace} (same : place.held = (s.place t).held) :
    (s.goto t place).Inv where
  conserved := inv.conserved
  distinct := inv.distinct
  held := by
    intro u c
    rw [goto_held same u]
    exact inv.held u c
  unread := inv.unread
  handler := inv.handler
  scancodes := inv.scancodes

theorem Inv.handlerTo (inv : s.Inv) {place : HandlerPlace}
    (stores : ∀ scancode c, place = .store scancode c → c ≠ 0 ∧ ¬IsShift scancode) :
    (s.handlerTo cpu place).Inv where
  conserved := inv.conserved
  distinct := inv.distinct
  held := inv.held
  unread := inv.unread
  handler := by
    intro d scancode c there
    by_cases here : d = cpu
    · subst here
      rw [handlerTo_handler, Function.update_self] at there
      exact stores scancode c there
    · rw [handlerTo_handler, Function.update_of_ne here] at there
      exact inv.handler d scancode c there
  scancodes := inv.scancodes

/-- An accepted character is one, and not from the stack. -/
theorem Inv.interrupt (inv : s.Inv) {scancode c : UInt8}
    (clean : IsShift scancode → isAscii c = false) : (s.interrupt cpu scancode c).Inv := by
  have moved : (s.handlerTo cpu (s.interrupt cpu scancode c |>.handler cpu)).Inv := by
    refine inv.handlerTo ?_
    intro code out there
    simp only [KeyboardSystem.interrupt, Function.update_self, KeyboardSystem.handlerTo] at there
    split at there
    · rename_i accepted
      obtain ⟨rfl, rfl⟩ := HandlerPlace.store.inj there
      have ascii := (Bool.and_eq_true_iff.mp accepted).2
      refine ⟨isAscii_ne_zero ascii, ?_⟩
      intro shift
      rw [scancodeToChar_shift shift] at ascii
      exact Bool.false_ne_true ((clean shift).symm.trans ascii)
    · cases there
  simp only [KeyboardSystem.interrupt, KeyboardSystem.handlerTo, Function.update_self] at moved ⊢
  exact ⟨moved.conserved, moved.distinct, moved.held, moved.unread, moved.handler, moved.scancodes⟩

theorem Inv.store (inv : s.Inv) {scancode c : UInt8} (set : c ≠ 0) (press : ¬IsShift scancode)
    (free : s.history.unread = none) : (s.store scancode c).Inv where
  conserved := inv.conserved.store free
  distinct := inv.distinct
  held := inv.held
  unread := by
    intro d there
    obtain rfl := Option.some.inj there
    exact ⟨rfl, set⟩
  handler := inv.handler
  scancodes := by
    intro code member
    rcases List.mem_append.mp member with old | new
    · exact inv.scancodes code old
    · rw [List.mem_singleton.mp new]
      exact press

theorem Inv.read_empty (inv : s.Inv) (here : s.place t = .read) (empty : s.characterBuf = 0) :
    (s.read t).Inv := by
  rw [read, if_pos empty, empty]
  refine inv.goto ?_
  rw [here]
  rfl

theorem Inv.read_set (inv : s.Inv) (here : s.place t = .read) (set : s.characterBuf ≠ 0)
    (turn : s.history.unread ≠ none) : (s.read t).Inv := by
  obtain ⟨c, there⟩ := Option.ne_none_iff_exists'.mp turn
  obtain ⟨same, -⟩ := inv.unread c there
  have idle : ∀ d, (t, d) ∉ s.history.taken := by
    intro d member
    have holds := (inv.held t d).mp member
    rw [here] at holds
    cases holds
  rw [read, if_neg set]
  exact
    { conserved := inv.conserved.take (same.symm ▸ there)
      distinct := by
        show ((s.history.taken ++ [(t, s.characterBuf)]).map Prod.fst).Nodup
        rw [List.map_append, List.nodup_append]
        refine ⟨inv.distinct, List.nodup_singleton _, ?_⟩
        rintro u member v last rfl
        obtain ⟨⟨v, d⟩, taken, rfl⟩ := List.mem_map.mp member
        obtain rfl := List.mem_singleton.mp last
        exact idle d taken
      held := by
        intro u d
        show (u, d) ∈ s.history.taken ++ [(t, s.characterBuf)] ↔
          (Function.update s.place t (.clear s.characterBuf) u).held = some d
        rw [List.mem_append, List.mem_singleton, Prod.mk.injEq]
        by_cases new : u = t
        · subst new
          rw [Function.update_self, ReaderPlace.held, if_neg set, Option.some.injEq]
          constructor
          · rintro (old | ⟨-, last⟩)
            · exact absurd old (idle d)
            · exact last.symm
          · rintro rfl
            exact .inr ⟨rfl, rfl⟩
        · rw [Function.update_of_ne new, ← inv.held u d]
          exact or_iff_left fun last => new last.1
      unread := nofun
      handler := inv.handler
      scancodes := inv.scancodes }

theorem Inv.clear (inv : s.Inv) {ret : UInt8} (here : s.place t = .clear ret)
    (free : s.history.unread = none) : (s.clear t ret).Inv := by
  have moved : (s.goto t (.giveBack ret)).Inv := by
    refine inv.goto ?_
    rw [here]
    rfl
  exact ⟨moved.conserved.clear free, moved.distinct, moved.held, nofun, moved.handler,
    moved.scancodes⟩

theorem Inv.giveBack_empty (inv : s.Inv) (here : s.place t = .giveBack 0) :
    (s.giveBack t 0).Inv := by
  rw [giveBack, if_pos rfl]
  refine inv.goto ?_
  rw [here]
  rfl

theorem Inv.giveBack_set (inv : s.Inv) {ret : UInt8} (set : ret ≠ 0)
    (turn : s.history.taken.head? = some (t, ret)) : (s.giveBack t ret).Inv := by
  obtain ⟨rest, first⟩ := List.head?_eq_some_iff.mp turn
  have tail : (s.history.give t ret).taken = rest := by
    show s.history.taken.eraseP (fun held => held.1 = t) = rest
    rw [first]
    exact List.eraseP_cons_of_pos (by simp)
  obtain ⟨fresh, distinct⟩ : t ∉ rest.map Prod.fst ∧ (rest.map Prod.fst).Nodup := by
    have whole := inv.distinct
    rw [first, List.map_cons] at whole
    exact List.nodup_cons.mp whole
  rw [giveBack, if_neg set]
  exact
    { conserved := inv.conserved.give first
      distinct := by
        dsimp only
        rw [tail]
        exact distinct
      held := by
        intro u d
        dsimp only
        rw [tail, goto_place]
        by_cases same : u = t
        · subst same
          rw [Function.update_self]
          refine iff_of_false ?_ nofun
          intro member
          exact fresh (List.mem_map_of_mem member)
        · rw [Function.update_of_ne same, ← inv.held u d, first, List.mem_cons, Prod.mk.injEq]
          exact (or_iff_right fun head => same head.1).symm
      unread := inv.unread
      handler := inv.handler
      scancodes := inv.scancodes }

end Moves

theorem Inv.step {s s' : KeyboardSystem} {channel : Channel} {event : Event} (inv : s.Inv)
    (moved : Step channel s event s') (turn : s.InTurn event) : s'.Inv := by
  cases moved with
  | timer => exact inv.setTable _
  | interrupt scancode c => exact inv.interrupt turn
  | store there =>
    obtain ⟨set, press⟩ := inv.handler _ _ _ there
    exact (inv.store set press turn).handlerTo nofun
  | read _ here =>
    by_cases empty : s.characterBuf = 0
    · exact inv.read_empty here empty
    · exact inv.read_set here empty (turn empty)
  | clear _ here => exact inv.clear here turn
  | @giveBack t ret _ here =>
    by_cases empty : ret = 0
    · subst empty
      exact inv.giveBack_empty here
    · exact inv.giveBack_set empty (turn empty)
  | int3 _ _ here => exact (inv.setTable _).goto (congrArg ReaderPlace.held here).symm
  | getchar _ here | again _ here | testSet _ here | testEmpty _ here | checkSleeping _ here
  | checkAwake _ here => exact inv.goto (congrArg ReaderPlace.held here).symm
  | setChannel _ here | setStatus _ here | setCanWakeup _ here | clearChannel _ here =>
    exact (inv.setTable _).goto (congrArg ReaderPlace.held here).symm
  | leave _ here | release _ here =>
    exact (inv.setLock _).goto (congrArg ReaderPlace.held here).symm
  | acquire _ here =>
    refine (inv.setLock _).goto ?_
    rcases here with here | here
    · exact (congrArg ReaderPlace.held here).symm
    · exact (congrArg ReaderPlace.held here).symm
  | answer _ here =>
    have moved : (s.goto _ .outside).Inv := inv.goto (congrArg ReaderPlace.held here).symm
    exact ⟨moved.conserved, moved.distinct, moved.held, moved.unread, moved.handler,
      moved.scancodes⟩
  | wakeup => exact (inv.setProcLock _).handlerTo nofun
  | visit => exact (inv.setTable _).handlerTo nofun
  | visitEnd => exact (inv.setProcLock _).handlerTo nofun

/-- One call at a time is behind the loop: the lock keeps a second one from it until the first
has given it up, and then the turns do. -/
structure Exclusive (s : KeyboardSystem) : Prop where
  locked : ∀ t, ¬(s.place t).Interruptible → s.lock = some t
  single : ∀ t u, (s.place t).Passed → (s.place u).Passed → t = u
  set : ∀ t, (s.place t).Finds → s.characterBuf ≠ 0

/-- What is in `character_buf` is unread until the call behind the loop is about to clear it. -/
structure Guarded (s : KeyboardSystem) : Prop extends s.Exclusive where
  unread : s.characterBuf ≠ 0 → s.history.unread ≠ none ∨ ∃ t ret, s.place t = .clear ret
  cleared : ∀ t ret, s.place t = .clear ret → s.history.unread = none

theorem Start.guarded {s : KeyboardSystem} (start : s.Start) : s.Guarded where
  locked := by
    intro t inside
    rw [start.place t] at inside
    exact absurd trivial inside
  single := by
    intro t u passed
    rw [start.place t] at passed
    cases passed
  set := by
    intro t finds
    rw [start.place t] at finds
    cases finds
  unread set := absurd start.characterBuf set
  cleared := by
    intro t ret here
    rw [start.place t] at here
    cases here

theorem Guarded.inTurn {s s' : KeyboardSystem} {channel : Channel} {event : Event}
    (guarded : s.Guarded) (inv : s.Inv) (moved : Step channel s event s')
    (turn : s.TakesTurns event) : s.InTurn event := by
  cases moved with
  | interrupt => exact turn
  | store =>
    -- What is unread is in `character_buf`.
    by_contra there
    obtain ⟨c, unread⟩ := Option.ne_none_iff_exists'.mp there
    obtain ⟨same, set⟩ := inv.unread c unread
    exact set (same.symm.trans turn)
  | @read t _ here =>
    intro set
    rcases guarded.unread set with unread | ⟨u, ret, other⟩
    · exact unread
    · have same := guarded.single t u (by rw [here]; trivial) (by rw [other]; trivial)
      rw [← same, here] at other
      cases other
  | @clear t ret _ here => exact guarded.cleared t ret here
  | @giveBack t ret _ here =>
    intro set
    have mine : (t, ret) ∈ s.history.taken := by
      rw [inv.held, here]
      exact if_neg set
    have only : ∀ entry ∈ s.history.taken, entry.1 = t := by
      rintro ⟨u, c⟩ member
      have holds := (inv.held u c).mp member
      refine guarded.single u t ?_ (by rw [here]; trivial)
      cases there : s.place u with
      | clear | giveBack => trivial
      | _ =>
        rw [there] at holds
        cases holds
    rcases taken : s.history.taken with _ | ⟨⟨u, c⟩, rest⟩
    · rw [taken] at mine
      cases mine
    · obtain rfl : u = t := only (u, c) (by rw [taken]; exact List.mem_cons_self)
      have first := (inv.held u c).mp (by rw [taken]; exact List.mem_cons_self)
      have holds : (s.place u).held = some ret := (inv.held u ret).mp mine
      rw [List.head?_cons, ← Option.some.inj (first.symm.trans holds)]
  | _ => trivial

theorem passed_of_finds {place : ReaderPlace} (finds : place.Finds) : place.Passed := by
  cases place with
  | leave | read | clear => trivial
  | _ => cases finds

theorem leave_or_takes {place : ReaderPlace} (passed : place.Passed) :
    place = .leave ∨ place.Takes := by
  cases place with
  | leave => exact .inl rfl
  | read | clear | giveBack => exact .inr trivial
  | _ => cases passed

section Exclusion

variable {s : KeyboardSystem} {t : Nat} {place : ReaderPlace} (exclusive : s.Exclusive)

include exclusive

theorem Exclusive.alone (passed : (s.place t).Passed) (u : Nat) (other : u ≠ t) :
    ¬(s.place u).Passed :=
  fun there => other (exclusive.single u t there passed)

theorem Exclusive.goto (locked : ¬place.Interruptible → s.lock = some t)
    (alone : place.Passed → ∀ u, u ≠ t → ¬(s.place u).Passed)
    (set : place.Finds → s.characterBuf ≠ 0) : (s.goto t place).Exclusive where
  locked := by
    intro u inside
    by_cases here : u = t
    · subst here
      rw [goto_place, Function.update_self] at inside
      exact locked inside
    · rw [goto_place, Function.update_of_ne here] at inside
      exact exclusive.locked u inside
  single := by
    intro u v passedFirst passedSecond
    rw [goto_place] at passedFirst passedSecond
    by_cases first : u = t <;> by_cases second : v = t
    · rw [first, second]
    · subst first
      rw [Function.update_self] at passedFirst
      rw [Function.update_of_ne second] at passedSecond
      exact absurd passedSecond (alone passedFirst v second)
    · subst second
      rw [Function.update_self] at passedSecond
      rw [Function.update_of_ne first] at passedFirst
      exact absurd passedFirst (alone passedSecond u first)
    · rw [Function.update_of_ne first] at passedFirst
      rw [Function.update_of_ne second] at passedSecond
      exact exclusive.single u v passedFirst passedSecond
  set := by
    intro u finds
    by_cases here : u = t
    · subst here
      rw [goto_place, Function.update_self] at finds
      exact set finds
    · rw [goto_place, Function.update_of_ne here] at finds
      exact exclusive.set u finds

theorem Exclusive.goes (passed : (s.place t).Passed)
    (locked : ¬place.Interruptible → s.lock = some t)
    (set : place.Finds → s.characterBuf ≠ 0) : (s.goto t place).Exclusive :=
  exclusive.goto locked (fun _ => exclusive.alone passed) set

end Exclusion

section Guards

variable {s : KeyboardSystem} {t : Nat} (guarded : s.Guarded)

include guarded

theorem Guarded.setTable (table : ThreadTable) : (s.setTable table).Guarded :=
  ⟨⟨guarded.locked, guarded.single, guarded.set⟩, guarded.unread, guarded.cleared⟩

theorem Guarded.setProcLock (owner : Option Nat) : (s.setProcLock owner).Guarded :=
  ⟨⟨guarded.locked, guarded.single, guarded.set⟩, guarded.unread, guarded.cleared⟩

theorem Guarded.handlerTo (cpu : Nat) (place : HandlerPlace) : (s.handlerTo cpu place).Guarded :=
  ⟨⟨guarded.locked, guarded.single, guarded.set⟩, guarded.unread, guarded.cleared⟩

theorem Guarded.setLock {owner : Option Nat}
    (locked : ∀ u, ¬(s.place u).Interruptible → owner = some u) : (s.setLock owner).Guarded :=
  ⟨⟨locked, guarded.single, guarded.set⟩, guarded.unread, guarded.cleared⟩

/-- A thread that is not about to clear `character_buf`, before and after. -/
theorem Guarded.goto {place : ReaderPlace} (exclusive : (s.goto t place).Exclusive)
    (before : ∀ ret, s.place t ≠ .clear ret) (after : ∀ ret, place ≠ .clear ret) :
    (s.goto t place).Guarded where
  toExclusive := exclusive
  unread := by
    intro there
    rcases guarded.unread there with unread | ⟨u, ret, other⟩
    · exact .inl unread
    · have different : u ≠ t := by
        rintro rfl
        exact before ret other
      exact .inr ⟨u, ret, by rw [goto_place, Function.update_of_ne different, other]⟩
  cleared := by
    intro u ret here
    by_cases same : u = t
    · subst same
      rw [goto_place, Function.update_self] at here
      exact absurd here (after ret)
    · rw [goto_place, Function.update_of_ne same] at here
      exact guarded.cleared u ret here

theorem Guarded.elsewhere {before after : ReaderPlace} (here : s.place t = before)
    (locked : ¬after.Interruptible → s.lock = some t) (notClear : ∀ ret, before ≠ .clear ret)
    (notPassed : ¬after.Passed) : (s.goto t after).Guarded := by
  refine guarded.goto (guarded.toExclusive.goto locked (fun passed => absurd passed notPassed) ?_)
    ?_ ?_
  · intro finds
    exact absurd (passed_of_finds finds) notPassed
  · rw [here]
    exact notClear
  · rintro ret rfl
    exact notPassed trivial

/-- It moves on without the lock, or where it had it. -/
theorem Guarded.unlocked {before after : ReaderPlace} (here : s.place t = before)
    (free : after.Interruptible) (notClear : ∀ ret, before ≠ .clear ret)
    (notPassed : ¬after.Passed) : (s.goto t after).Guarded :=
  guarded.elsewhere here (fun inside => absurd free inside) notClear notPassed

theorem Guarded.owns {place : ReaderPlace} (here : s.place t = place)
    (inside : ¬place.Interruptible) : s.lock = some t :=
  guarded.locked t (here ▸ inside)

theorem Guarded.find (here : s.place t = .test) (set : s.characterBuf ≠ 0)
    (turn : ∀ u, ¬(s.place u).Takes) : (s.goto t .leave).Guarded := by
  have mine : s.lock = some t := guarded.locked t (by rw [here]; exact id)
  refine guarded.goto (guarded.toExclusive.goto (fun _ => mine) ?_ fun _ => set) ?_ nofun
  · intro _ u other passed
    rcases leave_or_takes passed with leaves | takes
    · -- It has the lock.
      have theirs := guarded.locked u (by rw [leaves]; exact id)
      exact other (Option.some.inj (theirs.symm.trans mine))
    · exact turn u takes
  · intro ret there
    rw [here] at there
    cases there

theorem Guarded.unlock {place : ReaderPlace} (moved : (s.goto t place).Guarded)
    (here : ¬(s.place t).Interruptible) (free : place.Interruptible) :
    ((s.setLock none).goto t place).Guarded := by
  refine @Guarded.setLock _ moved none ?_
  intro u inside
  by_cases same : u = t
  · subst same
    rw [goto_place, Function.update_self] at inside
    exact absurd free inside
  · rw [goto_place, Function.update_of_ne same] at inside
    have theirs := (guarded.locked u inside).symm.trans (guarded.locked t here)
    exact absurd (Option.some.inj theirs) same

theorem Guarded.read (here : s.place t = .read) : (s.read t).Guarded := by
  have set : s.characterBuf ≠ 0 := guarded.set t (by rw [here]; trivial)
  have moved : (s.goto t (.clear s.characterBuf)).Exclusive :=
    guarded.toExclusive.goes (by rw [here]; trivial) (fun inside => absurd trivial inside)
      fun _ => set
  rw [KeyboardSystem.read, if_neg set]
  exact
    { locked := moved.locked
      single := moved.single
      set := moved.set
      unread := fun _ => .inr ⟨t, s.characterBuf, Function.update_self t _ s.place⟩
      cleared := fun _ _ _ => rfl }

theorem Guarded.clear {ret : UInt8} (here : s.place t = .clear ret) : (s.clear t ret).Guarded := by
  have passed : (s.place t).Passed := by
    rw [here]
    trivial
  have moved : (s.goto t (.giveBack ret)).Exclusive :=
    guarded.toExclusive.goes passed (fun inside => absurd trivial inside) nofun
  exact
    { locked := moved.locked
      single := moved.single
      set := by
        intro u finds
        have different : u ≠ t := by
          rintro rfl
          rw [KeyboardSystem.clear, goto_place, Function.update_self] at finds
          exact finds
        rw [KeyboardSystem.clear, goto_place, Function.update_of_ne different] at finds
        exact absurd (passed_of_finds finds) (guarded.toExclusive.alone passed u different)
      unread := fun set => absurd rfl set
      cleared := fun _ _ _ => rfl }

theorem Guarded.giveBack {ret : UInt8} (here : s.place t = .giveBack ret) :
    (s.giveBack t ret).Guarded := by
  have moved : (s.goto t (.loop ret)).Guarded := guarded.unlocked here trivial nofun id
  rw [KeyboardSystem.giveBack]
  split
  · exact moved
  · exact ⟨⟨moved.locked, moved.single, moved.set⟩, moved.unread, moved.cleared⟩

theorem Guarded.store {scancode c : UInt8} (set : c ≠ 0) (empty : s.characterBuf = 0) :
    (s.store scancode c).Guarded where
  locked := guarded.locked
  single := guarded.single
  set := fun _ _ => set
  unread := fun _ => .inl nofun
  cleared := by
    intro t ret here
    have there : s.place t = .clear ret := here
    exact absurd empty (guarded.set t (by rw [there]; trivial))

end Guards

theorem Guarded.step {s s' : KeyboardSystem} {channel : Channel} {event : Event}
    (guarded : s.Guarded) (inv : s.Inv) (moved : Step channel s event s')
    (turn : s.TakesTurns event) : s'.Guarded := by
  cases moved with
  | timer => exact guarded.setTable _
  | interrupt scancode c =>
    exact ⟨⟨guarded.locked, guarded.single, guarded.set⟩, guarded.unread, guarded.cleared⟩
  | store there => exact (guarded.store (inv.handler _ _ _ there).1 turn).handlerTo _ _
  | testSet _ here set => exact guarded.find here set turn
  | read _ here => exact guarded.read here
  | clear _ here => exact guarded.clear here
  | giveBack _ here => exact guarded.giveBack here
  | @leave t _ here =>
    have passed : (s.place t).Passed := by
      rw [here]
      trivial
    have set := guarded.set t (by rw [here]; trivial)
    have moved : (s.goto t .read).Guarded := by
      refine guarded.goto (guarded.toExclusive.goes passed (fun inside => absurd trivial inside)
        fun _ => set) ?_ nofun
      rw [here]
      exact nofun
    exact guarded.unlock moved (by rw [here]; exact id) trivial
  | release _ here =>
    exact guarded.unlock (guarded.unlocked here trivial nofun id) (by rw [here]; exact id) trivial
  | @acquire t _ here free =>
    have nobody : ∀ u, ¬(s.place u).Interruptible → some t = some u := by
      intro u inside
      have theirs := (guarded.locked u inside).symm.trans free
      cases theirs
    have locked := guarded.setLock nobody
    rcases here with here | here
    · exact locked.elsewhere here (fun _ => rfl) nofun id
    · exact locked.elsewhere here (fun _ => rfl) nofun id
  | wakeup => exact (guarded.setProcLock _).handlerTo _ _
  | visit => exact (guarded.setTable _).handlerTo _ _
  | visitEnd => exact (guarded.setProcLock _).handlerTo _ _
  | int3 _ _ here => exact (guarded.setTable _).unlocked here trivial nofun id
  | getchar _ here | again _ here | checkSleeping _ here | checkAwake _ here =>
    exact guarded.unlocked here trivial nofun id
  | clearChannel _ here => exact (guarded.setTable _).unlocked here trivial nofun id
  | testEmpty _ here =>
    exact guarded.elsewhere here (fun _ => guarded.owns here id) nofun id
  | setChannel _ here | setStatus _ here | setCanWakeup _ here =>
    exact (guarded.setTable _).elsewhere here (fun _ => guarded.owns here id) nofun id
  | answer _ here =>
    have moved : (s.goto _ .outside).Guarded := guarded.unlocked here trivial nofun id
    exact ⟨⟨moved.locked, moved.single, moved.set⟩, moved.unread, moved.cleared⟩

theorem delivered_of_takesTurns {s : KeyboardSystem} {channel : Channel}
    (reached : Reachable Start (Restricted (Step channel) TakesTurns) s) : s.Delivered := by
  have both : s.Inv ∧ s.Guarded := by
    refine reached.invariant (P := fun s => s.Inv ∧ s.Guarded)
      (fun s start => ⟨start.inv, start.guarded⟩) ?_
    rintro s s' ⟨inv, guarded⟩ ⟨event, moved, turn⟩
    exact ⟨inv.step moved (guarded.inTurn inv moved turn), guarded.step inv moved turn⟩
  exact both.1.delivered

def twoReaders : KeyboardSystem where
  table :=
    { threads := fun t => ⟨true, if t < 2 then .running else .notInitialized, t, 1, none, none⟩
      procs := fun _ => ⟨[], 0, .free⟩
      current := fun cpu => if cpu = 1 then some 0 else if cpu = 2 then some 1 else none }
  characterBuf := 0
  shiftPressed := false
  lock := none
  procLock := none
  place := fun _ => .outside
  handler := fun _ => .outside
  rax := fun _ => 0
  history := .empty
  scancodes := []

theorem twoReaders_start : twoReaders.Start :=
  ⟨rfl, rfl, rfl, fun _ => rfl, fun _ => rfl, rfl, rfl⟩

def enterPressed : KeyboardSystem :=
  (((twoReaders.interrupt 0 pressedEnter 0).store pressedEnter 10).handlerTo 0 .wakeup)

variable {allowed : KeyboardSystem → Event → Prop} {channel : Channel}

theorem enterPressed_reachable (interrupts : allowed twoReaders (.interrupt pressedEnter 0))
    (stores : allowed (twoReaders.interrupt 0 pressedEnter 0) .store) :
    Reachable Start (Restricted (Step channel) allowed) enterPressed := by
  have started : Reachable Start (Restricted (Step channel) allowed) twoReaders :=
    .base twoReaders_start
  have enabled : twoReaders.Enabled 0 := ⟨rfl, fun _ _ => trivial⟩
  have decoded := started.next ⟨_, .interrupt pressedEnter 0 enabled, interrupts⟩
  have accepted : (twoReaders.interrupt 0 pressedEnter 0).handler 0 = .store pressedEnter 10 := by
    decide
  exact decoded.next ⟨_, .store accepted, stores⟩

theorem run_to_read {s : KeyboardSystem} {t : Nat} (others : ∀ s, allowed s .other)
    (finds : allowed ((s.setLock (some t)).goto t .test) (.find t)) (runs : s.Runs t)
    (outside : s.place t = .outside) (set : s.characterBuf ≠ 0) (free : s.lock = none) :
    Relation.ReflTransGen (Restricted (Step channel) allowed) s (s.goto t .read) := by
  have called : Restricted (Step channel) allowed s (s.goto t (.loop 0)) :=
    ⟨_, .getchar runs outside, others s⟩
  have again : Restricted (Step channel) allowed (s.goto t (.loop 0)) (s.goto t .acquire) := by
    refine ⟨_, ?_, others _⟩
    have moved : Step channel _ _ _ := .again (s := s.goto t (.loop 0)) runs
      (Function.update_self t _ s.place)
    simpa only [goto, Function.update_idem] using moved
  have acquired : Restricted (Step channel) allowed (s.goto t .acquire)
      ((s.setLock (some t)).goto t .test) := by
    refine ⟨_, ?_, others _⟩
    have moved : Step channel _ _ _ := .acquire (s := s.goto t .acquire) runs
      (.inl (Function.update_self t _ s.place)) free
    simpa only [goto, setLock, Function.update_idem] using moved
  have tested : Restricted (Step channel) allowed ((s.setLock (some t)).goto t .test)
      ((s.setLock (some t)).goto t .leave) := by
    refine ⟨_, ?_, finds⟩
    have moved : Step channel _ _ _ := .testSet (s := (s.setLock (some t)).goto t .test) runs
      (Function.update_self t _ s.place) set
    simpa only [goto, setLock, Function.update_idem] using moved
  have left : Restricted (Step channel) allowed ((s.setLock (some t)).goto t .leave)
      (s.goto t .read) := by
    refine ⟨_, ?_, others _⟩
    have moved : Step channel _ _ _ := .leave (s := (s.setLock (some t)).goto t .leave) runs
      (Function.update_self t _ s.place)
    simpa only [goto, setLock, Function.update_idem, ← free] using moved
  exact ((((Relation.ReflTransGen.single called).tail again).tail acquired).tail tested).tail left

theorem delivered_of_takesTurns_once :
    ∃ s : KeyboardSystem, s.history.returned = [10] ∧ s.Delivered := by
  have pressed : Reachable Start (Restricted (Step (.object 4096)) TakesTurns) enterPressed :=
    enterPressed_reachable (fun shift => absurd shift (by decide)) rfl
  have others : ∀ u, ¬(((enterPressed.setLock (some 0)).goto 0 .test).place u).Takes := by
    intro u takes
    by_cases reader : u = 0
    · subst reader
      exact takes
    · rw [goto_place, Function.update_of_ne reader] at takes
      exact takes
  have entered := pressed.run
    (run_to_read (t := 0) (fun _ => trivial) others ⟨by decide, 1, rfl, rfl⟩ rfl (by decide) rfl)
  have read := entered.next ⟨_, .read (t := 0) ⟨by decide, 1, rfl, rfl⟩ rfl, trivial⟩
  have cleared := read.next ⟨_, .clear (t := 0) ⟨by decide, 1, rfl, rfl⟩ rfl, trivial⟩
  have returned := cleared.next ⟨_, .giveBack (t := 0) ⟨by decide, 1, rfl, rfl⟩ rfl, trivial⟩
  exact ⟨_, rfl, delivered_of_takesTurns returned⟩

/-- Both readers read the character before one of them sets it to 0. -/
theorem returned_twice :
    ∃ s, Reachable Start (Unrestricted (Step (.object 4096))) s ∧ s.history.accepted = [10] ∧
      s.history.returned = [10, 10] ∧ ¬s.Delivered := by
  have pressed : Reachable Start (Unrestricted (Step (.object 4096))) enterPressed :=
    enterPressed_reachable trivial trivial
  have first := pressed.run
    (run_to_read (t := 0) (fun _ => trivial) trivial ⟨by decide, 1, rfl, rfl⟩ rfl (by decide) rfl)
  have second := first.run
    (run_to_read (t := 1) (fun _ => trivial) trivial ⟨by decide, 2, rfl, rfl⟩ rfl (by decide) rfl)
  have read := second.next ⟨_, .read (t := 0) ⟨by decide, 1, rfl, rfl⟩ rfl, trivial⟩
  have readAgain := read.next ⟨_, .read (t := 1) ⟨by decide, 2, rfl, rfl⟩ rfl, trivial⟩
  have cleared := readAgain.next ⟨_, .clear (t := 0) ⟨by decide, 1, rfl, rfl⟩ rfl, trivial⟩
  have clearedAgain := cleared.next ⟨_, .clear (t := 1) ⟨by decide, 2, rfl, rfl⟩ rfl, trivial⟩
  have returned := clearedAgain.next ⟨_, .giveBack (t := 0) ⟨by decide, 1, rfl, rfl⟩ rfl, trivial⟩
  have returnedAgain := returned.next
    ⟨_, .giveBack (t := 1) ⟨by decide, 2, rfl, rfl⟩ rfl, trivial⟩
  refine ⟨_, returnedAgain, rfl, rfl, ?_⟩
  rintro ⟨⟨rest, -, whole⟩, -⟩
  have lengths : 1 = ([10, 10] ++ rest : List UInt8).length := congrArg List.length whole
  rw [List.length_append, List.length_cons, List.length_singleton] at lengths
  omega

end SwagOS.Drivers.KeyboardSystem
