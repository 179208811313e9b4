import Mathlib.Algebra.Group.Nat.Defs
import Mathlib.Logic.Function.Basic
import SwagOS.Lib.Transition

/-!
# Doubly linked lists

The list functions of `data_structures/linked_list.c`, on pointers.  A list has a
header whose `first` and `last` overlay the `next` and `prev` of an entry, and
records that `kalloc` hands out.  Records are numbered in the order of their
allocation; a record not yet handed out holds whatever its memory holds.

Lists that are only filled at the head need no `prev` of the old head: the `next`
pointers then always lead to older records, which is `Stacked`.
-/

namespace SwagOS.DataStructures

open SwagOS.Lib

inductive Link where
  | null
  /-- The header, read as an entry. -/
  | head
  | record (i : Nat)
  deriving DecidableEq, Repr

/-- A record with a `dll_Entry` as its first member. -/
structure Cell (α : Type) where
  next : Link
  prev : Link
  data : α

/-- A header and the memory of the records of its list. -/
structure Dll (α : Type) where
  first : Link
  last : Link
  entryCount : Nat
  /-- The records handed out so far are those below. -/
  allocated : Nat
  records : Nat → Cell α

namespace Dll

variable {α β : Type}

def empty (records : Nat → Cell α) : Dll α := ⟨.null, .null, 0, 0, records⟩

def setNext (dll : Dll α) (at_ target : Link) : Dll α :=
  match at_ with
  | .null => dll
  | .head => { dll with first := target }
  | .record i => { dll with
      records := Function.update dll.records i { dll.records i with next := target } }

def setPrev (dll : Dll α) (at_ target : Link) : Dll α :=
  match at_ with
  | .null => dll
  | .head => { dll with last := target }
  | .record i => { dll with
      records := Function.update dll.records i { dll.records i with prev := target } }

def modify (dll : Dll α) (i : Nat) (write : α → α) : Dll α :=
  { dll with
    records := Function.update dll.records i
      { dll.records i with data := write (dll.records i).data } }

def removeDllEntry (dll : Dll α) (toRm : Nat) : Dll α :=
  let prev := (dll.records toRm).prev
  let next := (dll.records toRm).next
  let dll := if prev ≠ .null then dll.setNext prev next else dll
  if next ≠ .null then dll.setPrev next prev else dll

def removeDllEntryHead (dll : Dll α) : Option Nat × Dll α :=
  match dll.first with
  | .null => (none, dll)
  | .head => (none, dll)
  | .record i =>
      if dll.entryCount = 0 then (none, dll)
      else (some i, { dll with entryCount := dll.entryCount - 1 }.removeDllEntry i)

def insertDllEntryHead (dll : Dll α) (toInsert : Nat) : Outcome (Dll α) :=
  if dll.first = .null then
    if dll.last ≠ .null then
      throw (.panic
        "insert_dll_entry_head() --> header->first was NULL, but non NULL value in header->last")
    else
      let dll := dll.setNext .head (.record toInsert)
      let dll := (dll.setPrev (.record toInsert) .head).setNext (.record toInsert) .head
      pure { dll with entryCount := (dll.entryCount + 1) % 2 ^ 32 }
  else
    let oldNext := dll.first
    let dll := dll.setNext .head (.record toInsert)
    let dll := (dll.setPrev (.record toInsert) .head).setNext (.record toInsert) oldNext
    pure { dll with entryCount := (dll.entryCount + 1) % 2 ^ 32 }

def insertDllEntryTail (dll : Dll α) (toInsert : Nat) : Outcome (Dll α) :=
  if dll.last = .null then
    if dll.first ≠ .null then
      throw (.panic
        "insert_dll_entry_tail() --> header->last was NULL, but non NULL value in header->first")
    else
      let dll := (dll.setPrev .head (.record toInsert)).setNext .head (.record toInsert)
      let dll := (dll.setNext (.record toInsert) .head).setPrev (.record toInsert) .head
      pure { dll with entryCount := (dll.entryCount + 1) % 2 ^ 32 }
  else
    let oldLast := dll.last
    let dll := dll.setPrev .head (.record toInsert)
    let dll := (dll.setNext (.record toInsert) .head).setPrev (.record toInsert) oldLast
    let dll := dll.setNext oldLast (.record toInsert)
    pure { dll with entryCount := (dll.entryCount + 1) % 2 ^ 32 }

/-- `kalloc` of a record, with its contents as they are. -/
def kalloc (dll : Dll α) : Nat × Dll α :=
  (dll.allocated, { dll with allocated := dll.allocated + 1 })

/-- `kalloc` of a record, the writes that fill it, and its insertion at the head. -/
def pushHead (dll : Dll α) (write : α → α) : Outcome (Dll α) :=
  let (i, dll) := dll.kalloc
  (dll.modify i write).insertDllEntryHead i

/-- The loop `while (entry != NULL && entry != &head)` up to the first record that
passes a test.  A loop over more records than were handed out comes back to one of
them and never ends. -/
def search (dll : Dll α) (test : α → Option β) : Nat → Link → Outcome (Option (Nat × β))
  | _, .null => pure none
  | _, .head => pure none
  | 0, .record _ => throw .hang
  | fuel + 1, .record i =>
      match test (dll.records i).data with
      | some found => pure (some (i, found))
      | none => search dll test fuel (dll.records i).next

/-- Each `next` leads to an older record or back to the header, and each `prev` is
the header. -/
structure Stacked (dll : Dll α) : Prop where
  first : ∀ i, dll.first = .record i → i < dll.allocated
  last : dll.first = .null → dll.last = .null
  prev : ∀ i < dll.allocated, (dll.records i).prev = .head
  next : ∀ i < dll.allocated, (dll.records i).next = .head ∨
    ∃ j < i, (dll.records i).next = .record j

theorem stacked_empty (records : Nat → Cell α) : (empty records).Stacked where
  first := fun i first => by cases first
  last := fun _ => rfl
  prev := fun i below => absurd below (Nat.not_lt_zero i)
  next := fun i below => absurd below (Nat.not_lt_zero i)

/-- Record `j` is met on the way from a pointer along the `next` pointers. -/
inductive From (dll : Dll α) : Link → Nat → Prop where
  | here {i : Nat} : From dll (.record i) i
  | next {i j : Nat} : From dll (dll.records i).next j → From dll (.record i) j

def Listed (dll : Dll α) (j : Nat) : Prop := dll.From dll.first j

section Modify

variable (dll : Dll α) (i : Nat) (write : α → α)

@[simp] theorem modify_next (j : Nat) :
    ((dll.modify i write).records j).next = (dll.records j).next := by
  by_cases same : j = i
  · subst same
    simp [modify]
  · simp [modify, same]

@[simp] theorem modify_prev (j : Nat) :
    ((dll.modify i write).records j).prev = (dll.records j).prev := by
  by_cases same : j = i
  · subst same
    simp [modify]
  · simp [modify, same]

theorem modify_data (j : Nat) : ((dll.modify i write).records j).data =
    if j = i then write (dll.records i).data else (dll.records j).data := by
  by_cases same : j = i
  · subst same
    simp [modify]
  · simp [modify, same]

end Modify

theorem Stacked.modify {dll : Dll α} (stacked : dll.Stacked) (i : Nat) (write : α → α) :
    (dll.modify i write).Stacked where
  first := stacked.first
  last := stacked.last
  prev := fun j below => by
    rw [modify_prev]
    exact stacked.prev j below
  next := fun j below => by
    rw [modify_next]
    exact stacked.next j below

def pushed (dll : Dll α) (write : α → α) : Dll α :=
  { first := .record dll.allocated
    last := dll.last
    entryCount := (dll.entryCount + 1) % 2 ^ 32
    allocated := dll.allocated + 1
    records := Function.update dll.records dll.allocated
      { next := if dll.first = .null then .head else dll.first
        prev := .head
        data := write (dll.records dll.allocated).data } }

theorem pushHead_eq {dll : Dll α} (last : dll.first = .null → dll.last = .null) (write : α → α) :
    dll.pushHead write = .ok (dll.pushed write) := by
  by_cases null : dll.first = .null
  · simp only [pushHead, kalloc, Dll.modify, insertDllEntryHead, null, ↓reduceIte, last null,
      ne_eq, not_true_eq_false, setNext, setPrev, Function.update_self, Function.update_idem]
    simp only [Dll.pushed, null, ↓reduceIte, last null]
    rfl
  · simp only [pushHead, kalloc, Dll.modify, insertDllEntryHead, null, ↓reduceIte, setNext, setPrev,
      Function.update_self, Function.update_idem]
    simp only [Dll.pushed, null, ↓reduceIte]
    rfl

theorem Stacked.pushHead_eq {dll : Dll α} (stacked : dll.Stacked) (write : α → α) :
    dll.pushHead write = .ok (dll.pushed write) :=
  Dll.pushHead_eq stacked.last write

theorem Stacked.pushed {dll : Dll α} (stacked : dll.Stacked) (write : α → α) :
    (dll.pushed write).Stacked where
  first := by
    rintro i ⟨⟩
    exact Nat.lt_succ_self _
  last := fun null => by cases null
  prev := by
    intro i below
    by_cases new : i = dll.allocated
    · simp [Dll.pushed, new]
    · simpa [Dll.pushed, new] using
        stacked.prev i (Nat.lt_of_le_of_ne (Nat.lt_succ_iff.mp below) new)
  next := by
    intro i below
    by_cases new : i = dll.allocated
    · subst new
      simp only [Dll.pushed, Function.update_self]
      cases first : dll.first with
      | null => exact .inl rfl
      | head => exact .inl rfl
      | record j => exact .inr ⟨j, stacked.first j first, rfl⟩
    · simpa [Dll.pushed, new] using
        stacked.next i (Nat.lt_of_le_of_ne (Nat.lt_succ_iff.mp below) new)

/-- Every `prev` is the header, so that a removal drops all newer records too. -/
theorem Stacked.removeDllEntry_eq {dll : Dll α} (stacked : dll.Stacked) {i : Nat}
    (inside : i < dll.allocated) :
    dll.removeDllEntry i = { dll with
      first := (dll.records i).next
      last := if (dll.records i).next = .head then .head else dll.last } := by
  unfold removeDllEntry
  rw [stacked.prev i inside]
  rcases stacked.next i inside with next | ⟨j, older, next⟩
  · simp [next, setNext, setPrev]
  · have same : Function.update dll.records j { dll.records j with prev := .head } =
        dll.records := by
      rw [← stacked.prev j (Nat.lt_trans older inside), Function.update_eq_self]
    simp [next, setNext, setPrev, same]

theorem Stacked.removeDllEntry {dll : Dll α} (stacked : dll.Stacked) {i : Nat}
    (inside : i < dll.allocated) : (dll.removeDllEntry i).Stacked := by
  rw [stacked.removeDllEntry_eq inside]
  refine ⟨fun k first => ?_, fun null => ?_, stacked.prev, stacked.next⟩
  · rcases stacked.next i inside with next | ⟨j, older, next⟩
    · rw [next] at first
      cases first
    · obtain rfl : j = k := by simpa [next] using first
      exact Nat.lt_trans older inside
  · rcases stacked.next i inside with next | ⟨j, -, next⟩
    · simp [next] at null
    · simp [next] at null

def Within (dll : Dll α) (link : Link) : Prop := ∀ i, link = .record i → i < dll.allocated

theorem Stacked.within_next {dll : Dll α} (stacked : dll.Stacked) {i : Nat}
    (inside : i < dll.allocated) : dll.Within (dll.records i).next := by
  intro k next
  rcases stacked.next i inside with head | ⟨j, older, record⟩
  · rw [head] at next
    cases next
  · obtain rfl : j = k := by simpa [record] using next
    exact Nat.lt_trans older inside

theorem Stacked.from_lt {dll : Dll α} (stacked : dll.Stacked) {link : Link} {j : Nat}
    (met : dll.From link j) (inside : dll.Within link) : j < dll.allocated := by
  induction met with
  | here => exact inside _ rfl
  | next _ inductionHypothesis => exact inductionHypothesis (stacked.within_next (inside _ rfl))

theorem Stacked.listed_lt {dll : Dll α} (stacked : dll.Stacked) {j : Nat}
    (listed : dll.Listed j) : j < dll.allocated := stacked.from_lt listed stacked.first

theorem From.trans {dll : Dll α} {link : Link} {i j : Nat} (first : dll.From link i)
    (second : dll.From (dll.records i).next j) : dll.From link j := by
  induction first with
  | here => exact .next second
  | next _ inductionHypothesis => exact .next (inductionHypothesis second)

theorem From.congr {dll dll' : Dll α} {link : Link} {j : Nat} (records : dll'.records = dll.records)
    (met : dll'.From link j) : dll.From link j := by
  induction met with
  | here => exact .here
  | next _ inductionHypothesis =>
    rw [records] at inductionHypothesis
    exact .next inductionHypothesis

/-- A list whose `first` points to no record is empty. -/
theorem not_listed {dll : Dll α} (ended : ∀ i, dll.first ≠ .record i) (j : Nat) :
    ¬dll.Listed j := by
  intro listed
  rw [Listed] at listed
  cases first : dll.first with
  | record i => exact ended i first
  | _ =>
    rw [first] at listed
    cases listed

/-- What is listed after a removal was listed before. -/
theorem Stacked.removeDllEntry_listed {dll : Dll α} (stacked : dll.Stacked) {i j : Nat}
    (removed : dll.Listed i) (listed : (dll.removeDllEntry i).Listed j) : dll.Listed j := by
  rw [Listed, stacked.removeDllEntry_eq (stacked.listed_lt removed)] at listed
  refine removed.trans (From.congr ?_ listed)
  rfl

theorem Stacked.pushed_listed {dll : Dll α} (stacked : dll.Stacked) (write : α → α) {j : Nat}
    (listed : (dll.pushed write).Listed j) : j = dll.allocated ∨ dll.Listed j := by
  -- A walk that starts at an old record sees old records only.
  have old : ∀ {link k}, (dll.pushed write).From link k → dll.Within link → dll.From link k := by
    intro link k met
    induction met with
    | here => exact fun _ => .here
    | @next i k _ inductionHypothesis =>
      intro inside
      have below := inside i rfl
      have same : (dll.pushed write).records i = dll.records i := by
        simp [Dll.pushed, Nat.ne_of_lt below]
      refine .next ?_
      rw [same] at inductionHypothesis
      exact inductionHypothesis (stacked.within_next below)
  cases listed with
  | here => exact .inl rfl
  | next met =>
    right
    have next : ((dll.pushed write).records dll.allocated).next =
        if dll.first = .null then .head else dll.first := by
      simp [Dll.pushed]
    rw [next] at met
    by_cases null : dll.first = .null
    · rw [if_pos null] at met
      cases met
    · rw [if_neg null] at met
      exact old met stacked.first

/-- A walk along a stacked list ends, at the first record that passes the test or
after none did. -/
theorem Stacked.search_from {dll : Dll α} (stacked : dll.Stacked) (test : α → Option β)
    {fuel : Nat} {link : Link} (inside : dll.Within link) (enough : ∀ i, link = .record i → i < fuel) :
    (dll.search test fuel link = .ok none ∧
        ∀ j, dll.From link j → test (dll.records j).data = none) ∨
      ∃ j found, dll.search test fuel link = .ok (some (j, found)) ∧ dll.From link j ∧
        test (dll.records j).data = some found := by
  induction fuel generalizing link with
  | zero =>
    cases link with
    | null => exact .inl ⟨rfl, fun j met => by cases met⟩
    | head => exact .inl ⟨rfl, fun j met => by cases met⟩
    | record i => exact absurd (enough i rfl) (Nat.not_lt_zero i)
  | succ fuel inductionHypothesis =>
    cases link with
    | null => exact .inl ⟨rfl, fun j met => by cases met⟩
    | head => exact .inl ⟨rfl, fun j met => by cases met⟩
    | record i =>
      rw [search]
      cases passed : test (dll.records i).data with
      | some found => exact .inr ⟨i, found, rfl, .here, passed⟩
      | none =>
        have here := inside i rfl
        have shorter : ∀ k, (dll.records i).next = .record k → k < fuel := by
          intro k next
          rcases stacked.next i here with head | ⟨j, older, record⟩
          · rw [head] at next
            cases next
          · obtain rfl : j = k := by simpa [record] using next
            exact Nat.lt_of_lt_of_le older (Nat.lt_succ_iff.mp (enough i rfl))
        rcases inductionHypothesis (stacked.within_next here) shorter with
          ⟨failed, all⟩ | ⟨j, found, done, met, hit⟩
        · refine .inl ⟨failed, fun j met => ?_⟩
          cases met with
          | here => exact passed
          | next met => exact all j met
        · exact .inr ⟨j, found, done, .next met, hit⟩

theorem Stacked.search_spec {dll : Dll α} (stacked : dll.Stacked) (test : α → Option β) :
    (dll.search test dll.allocated dll.first = .ok none ∧
        ∀ j, dll.Listed j → test (dll.records j).data = none) ∨
      ∃ j found, dll.search test dll.allocated dll.first = .ok (some (j, found)) ∧
        dll.Listed j ∧ test (dll.records j).data = some found :=
  stacked.search_from test stacked.first stacked.first

/-- What a loop along the `next` pointers reads, in this order. -/
def dataFrom (dll : Dll α) : Nat → Link → List α
  | _, .null => []
  | _, .head => []
  | 0, .record _ => []
  | fuel + 1, .record i => (dll.records i).data :: dll.dataFrom fuel (dll.records i).next

def contents (dll : Dll α) : List α := dll.dataFrom dll.allocated dll.first

theorem contents_ended {dll : Dll α} (ended : ∀ i, dll.first ≠ .record i) : dll.contents = [] := by
  rw [contents]
  cases first : dll.first with
  | null => rw [dataFrom]
  | head => rw [dataFrom]
  | record i => exact absurd first (ended i)

def Enough (fuel : Nat) (link : Link) : Prop := ∀ i, link = .record i → i < fuel

theorem Stacked.enough_next {dll : Dll α} (stacked : dll.Stacked) {fuel i : Nat}
    (inside : i < dll.allocated) (enough : Enough (fuel + 1) (.record i)) :
    Enough fuel (dll.records i).next := by
  intro k next
  rcases stacked.next i inside with head | ⟨j, older, record⟩
  · rw [head] at next
    cases next
  · obtain rfl : j = k := by simpa [record] using next
    exact Nat.lt_of_lt_of_le older (Nat.lt_succ_iff.mp (enough i rfl))

theorem dataFrom_congr {dll dll' : Dll α} {fuel : Nat} {link : Link}
    (same : ∀ i, dll.From link i → dll'.records i = dll.records i) :
    dll'.dataFrom fuel link = dll.dataFrom fuel link := by
  induction fuel generalizing link with
  | zero => cases link <;> rfl
  | succ fuel inductionHypothesis =>
    cases link with
    | null => rfl
    | head => rfl
    | record i =>
      rw [dataFrom, dataFrom, same i .here]
      rw [inductionHypothesis fun j met => same j (.next met)]

theorem Stacked.contents_pushed {dll : Dll α} (stacked : dll.Stacked) (data : α) :
    (dll.pushed fun _ => data).contents = data :: dll.contents := by
  have old : ∀ i, dll.From dll.first i → (dll.pushed fun _ => data).records i = dll.records i := by
    intro i met
    exact Function.update_of_ne (Nat.ne_of_lt (stacked.listed_lt met)) _ _
  have here : ((dll.pushed fun _ => data).records dll.allocated).data = data := by
    simp [Dll.pushed]
  have next : ((dll.pushed fun _ => data).records dll.allocated).next =
      if dll.first = .null then .head else dll.first := by
    simp [Dll.pushed]
  have first : (dll.pushed fun _ => data).contents =
      ((dll.pushed fun _ => data).records dll.allocated).data ::
        (dll.pushed fun _ => data).dataFrom dll.allocated
          ((dll.pushed fun _ => data).records dll.allocated).next := rfl
  rw [first, here, next, contents]
  by_cases null : dll.first = .null
  · rw [if_pos null, null, dataFrom, dataFrom]
  · rw [if_neg null, dataFrom_congr old]

theorem Stacked.mem_dataFrom {dll : Dll α} (stacked : dll.Stacked) {fuel : Nat} {link : Link}
    (inside : dll.Within link) (enough : Enough fuel link) {a : α} :
    a ∈ dll.dataFrom fuel link ↔ ∃ i, dll.From link i ∧ (dll.records i).data = a := by
  induction fuel generalizing link with
  | zero =>
    cases link with
    | null => exact iff_of_false (by simp [dataFrom]) fun ⟨i, met, _⟩ => by cases met
    | head => exact iff_of_false (by simp [dataFrom]) fun ⟨i, met, _⟩ => by cases met
    | record i => exact absurd (enough i rfl) (Nat.not_lt_zero i)
  | succ fuel inductionHypothesis =>
    cases link with
    | null => exact iff_of_false (by simp [dataFrom]) fun ⟨i, met, _⟩ => by cases met
    | head => exact iff_of_false (by simp [dataFrom]) fun ⟨i, met, _⟩ => by cases met
    | record i =>
      have here := inside i rfl
      rw [dataFrom, List.mem_cons, inductionHypothesis (stacked.within_next here)
        (stacked.enough_next here enough)]
      constructor
      · rintro (rfl | ⟨j, met, same⟩)
        · exact ⟨i, .here, rfl⟩
        · exact ⟨j, .next met, same⟩
      · rintro ⟨j, met, same⟩
        cases met with
        | here => exact .inl same.symm
        | next met => exact .inr ⟨j, met, same⟩

theorem Stacked.mem_contents {dll : Dll α} (stacked : dll.Stacked) {a : α} :
    a ∈ dll.contents ↔ ∃ i, dll.Listed i ∧ (dll.records i).data = a :=
  stacked.mem_dataFrom stacked.first stacked.first

theorem Stacked.contents_nil {dll : Dll α} (stacked : dll.Stacked) :
    dll.contents = [] ↔ ∀ i, ¬dll.Listed i := by
  rw [List.eq_nil_iff_forall_not_mem]
  constructor
  · intro none i listed
    exact none _ (stacked.mem_contents.mpr ⟨i, listed, rfl⟩)
  · intro none a member
    obtain ⟨i, listed, -⟩ := stacked.mem_contents.mp member
    exact none i listed

theorem Stacked.first_ne {dll : Dll α} (stacked : dll.Stacked) (none : dll.contents = []) (i : Nat) :
    dll.first ≠ .record i := by
  intro first
  apply stacked.contents_nil.mp none i
  rw [Listed, first]
  exact .here

end Dll

end SwagOS.DataStructures
