import SwagOS.DataStructures.LinkedList

/-!
# Lists filled at the tail

A list that is filled at its tail and emptied from its head is threaded in both
directions: each `next` leads to the following record, each `prev` to the one before,
and the header closes the ring.  A list that was never filled has null pointers in its
header; one that has become empty has a header that points to itself.
-/

namespace SwagOS.DataStructures

open SwagOS.Lib

namespace Link

def headOf : List Nat → Link → Link
  | [], after => after
  | i :: _, _ => .record i

def lastOf : Link → List Nat → Link
  | before, [] => before
  | _, i :: rest => lastOf (.record i) rest

@[simp] theorem headOf_nil (after : Link) : headOf [] after = after := rfl
@[simp] theorem headOf_cons (i : Nat) (rest : List Nat) (after : Link) :
    headOf (i :: rest) after = .record i := rfl
@[simp] theorem lastOf_nil (before : Link) : lastOf before [] = before := rfl
@[simp] theorem lastOf_cons (before : Link) (i : Nat) (rest : List Nat) :
    lastOf before (i :: rest) = lastOf (.record i) rest := rfl

theorem lastOf_append (before : Link) (l m : List Nat) :
    lastOf before (l ++ m) = lastOf (lastOf before l) m := by
  induction l generalizing before with
  | nil => rfl
  | cons i rest inductionHypothesis => exact inductionHypothesis (.record i)

end Link

namespace Dll

variable {α : Type}

def Threads (records : Nat → Cell α) : Link → List Nat → Link → Prop
  | _, [], _ => True
  | before, i :: rest, after =>
      (records i).prev = before ∧ (records i).next = Link.headOf rest after ∧
        Threads records (.record i) rest after

theorem Threads.append {records : Nat → Cell α} {before after : Link} {l m : List Nat}
    (first : Threads records before l (Link.headOf m after))
    (second : Threads records (Link.lastOf before l) m after) :
    Threads records before (l ++ m) after := by
  induction l generalizing before with
  | nil => exact second
  | cons i rest inductionHypothesis =>
    obtain ⟨prev, next, threads⟩ := first
    refine ⟨prev, ?_, inductionHypothesis threads second⟩
    rw [next]
    cases rest with
    | nil => rfl
    | cons j rest => rfl

/-- Records outside a list do not matter for its threads. -/
theorem Threads.congr {records records' : Nat → Cell α} {before after : Link} {l : List Nat}
    (same : ∀ i ∈ l, (records' i).prev = (records i).prev ∧
      (records' i).next = (records i).next)
    (threads : Threads records before l after) : Threads records' before l after := by
  induction l generalizing before with
  | nil => trivial
  | cons i rest inductionHypothesis =>
    obtain ⟨prev, next, threads⟩ := threads
    obtain ⟨samePrev, sameNext⟩ := same i List.mem_cons_self
    refine ⟨samePrev.trans prev, sameNext.trans next, ?_⟩
    apply inductionHypothesis _ threads
    intro j member
    exact same j (List.mem_cons_of_mem i member)

/-- The list holds the records `l` in this order. -/
structure Ring (dll : Dll α) (l : List Nat) : Prop where
  first : dll.first = Link.headOf l .head
  last : dll.last = Link.lastOf .head l
  threads : Threads dll.records .head l .head
  nodup : l.Nodup

def Holds (dll : Dll α) (l : List Nat) : Prop :=
  dll.Ring l ∨ l = [] ∧ dll.first = .null ∧ dll.last = .null

theorem holds_empty (records : Nat → Cell α) : (empty records).Holds [] := .inr ⟨rfl, rfl, rfl⟩

theorem Holds.ring {dll : Dll α} {i : Nat} {rest : List Nat} (holds : dll.Holds (i :: rest)) :
    dll.Ring (i :: rest) := by
  rcases holds with ring | ⟨none, -⟩
  · exact ring
  · cases none

/-- Only the contents of the records and `entry_count` may differ. -/
theorem Holds.congr {dll dll' : Dll α} {l : List Nat} (first : dll'.first = dll.first)
    (last : dll'.last = dll.last)
    (same : ∀ i ∈ l, (dll'.records i).prev = (dll.records i).prev ∧
      (dll'.records i).next = (dll.records i).next)
    (holds : dll.Holds l) : dll'.Holds l := by
  rcases holds with ring | ⟨none, nullFirst, nullLast⟩
  · exact .inl ⟨first.trans ring.first, last.trans ring.last, ring.threads.congr same, ring.nodup⟩
  · exact .inr ⟨none, first.trans nullFirst, last.trans nullLast⟩

section Writes

variable (dll : Dll α) (link target : Link) (j : Nat)

@[simp] theorem setNext_last : (dll.setNext link target).last = dll.last := by
  cases link <;> rfl
@[simp] theorem setNext_entryCount : (dll.setNext link target).entryCount = dll.entryCount := by
  cases link <;> rfl
@[simp] theorem setNext_allocated : (dll.setNext link target).allocated = dll.allocated := by
  cases link <;> rfl
@[simp] theorem setPrev_first : (dll.setPrev link target).first = dll.first := by
  cases link <;> rfl
@[simp] theorem setPrev_entryCount : (dll.setPrev link target).entryCount = dll.entryCount := by
  cases link <;> rfl
@[simp] theorem setPrev_allocated : (dll.setPrev link target).allocated = dll.allocated := by
  cases link <;> rfl

theorem setNext_first :
    (dll.setNext link target).first = if link = .head then target else dll.first := by
  cases link <;> simp [setNext]

theorem setPrev_last :
    (dll.setPrev link target).last = if link = .head then target else dll.last := by
  cases link <;> simp [setPrev]

theorem setNext_next : ((dll.setNext link target).records j).next =
    if link = .record j then target else (dll.records j).next := by
  cases link with
  | record i =>
    by_cases same : j = i
    · simp [setNext, same]
    · simp [setNext, same, Ne.symm same]
  | _ => simp [setNext]

theorem setPrev_prev : ((dll.setPrev link target).records j).prev =
    if link = .record j then target else (dll.records j).prev := by
  cases link with
  | record i =>
    by_cases same : j = i
    · simp [setPrev, same]
    · simp [setPrev, same, Ne.symm same]
  | _ => simp [setPrev]

@[simp] theorem setNext_prev :
    ((dll.setNext link target).records j).prev = (dll.records j).prev := by
  cases link with
  | record i =>
    by_cases same : j = i
    · simp [setNext, same]
    · simp [setNext, same]
  | _ => rfl

@[simp] theorem setPrev_next :
    ((dll.setPrev link target).records j).next = (dll.records j).next := by
  cases link with
  | record i =>
    by_cases same : j = i
    · simp [setPrev, same]
    · simp [setPrev, same]
  | _ => rfl

@[simp] theorem setNext_data :
    ((dll.setNext link target).records j).data = (dll.records j).data := by
  cases link with
  | record i =>
    by_cases same : j = i
    · simp [setNext, same]
    · simp [setNext, same]
  | _ => rfl

@[simp] theorem setPrev_data :
    ((dll.setPrev link target).records j).data = (dll.records j).data := by
  cases link with
  | record i =>
    by_cases same : j = i
    · simp [setPrev, same]
    · simp [setPrev, same]
  | _ => rfl

end Writes

/-- The last record of a list is on the list, if there is one. -/
theorem lastOf_mem (before : Link) (l : List Nat) :
    l = [] ∧ Link.lastOf before l = before ∨ ∃ i ∈ l, Link.lastOf before l = .record i := by
  induction l generalizing before with
  | nil => exact .inl ⟨rfl, rfl⟩
  | cons i rest inductionHypothesis =>
    right
    rcases inductionHypothesis (.record i) with ⟨none, here⟩ | ⟨j, member, there⟩
    · exact ⟨i, List.mem_cons_self, here⟩
    · exact ⟨j, List.mem_cons_of_mem i member, there⟩

/-- The last record of a list can be given another successor. -/
theorem Threads.setLast {dll : Dll α} {before after : Link} {l : List Nat} (target : Link)
    (nodup : l.Nodup) (threads : Threads dll.records before l after)
    (outside : ∀ i ∈ l, before ≠ .record i) :
    Threads (dll.setNext (Link.lastOf before l) target).records before l target := by
  induction l generalizing before with
  | nil => trivial
  | cons i rest inductionHypothesis =>
    obtain ⟨prev, next, threads⟩ := threads
    obtain ⟨fresh, nodup⟩ := List.nodup_cons.mp nodup
    refine ⟨by rw [setNext_prev, prev], ?_, ?_⟩
    · rw [setNext_next, Link.lastOf_cons]
      rcases lastOf_mem (.record i) rest with ⟨none, here⟩ | ⟨j, member, there⟩
      · rw [here, if_pos rfl, none, Link.headOf_nil]
      · have other : Link.record j ≠ .record i := by
          rintro ⟨⟩
          exact fresh member
        rw [there, if_neg other, next]
        cases rest with
        | nil => cases member
        | cons k more => rfl
    · apply inductionHypothesis nodup threads
      rintro j member ⟨⟩
      exact fresh member

/-- The first record of a list can be given another predecessor. -/
theorem Threads.setFirst {dll : Dll α} {before after : Link} {l : List Nat} (target : Link)
    (nodup : l.Nodup) (threads : Threads dll.records before l after) (link : Link) :
    Threads (dll.setPrev (Link.headOf l link) target).records target l after := by
  cases l with
  | nil => trivial
  | cons i rest =>
    obtain ⟨prev, next, threads⟩ := threads
    obtain ⟨fresh, -⟩ := List.nodup_cons.mp nodup
    refine ⟨by rw [setPrev_prev, Link.headOf_cons, if_pos rfl], by rw [setPrev_next, next], ?_⟩
    apply threads.congr
    intro j member
    refine ⟨?_, setPrev_next dll _ _ j⟩
    rw [setPrev_prev, Link.headOf_cons, if_neg]
    rintro ⟨⟩
    exact fresh member

/-- `insert_dll_entry_tail` adds a record behind all others. -/
theorem Holds.insertDllEntryTail {dll : Dll α} {l : List Nat} {i : Nat} (holds : dll.Holds l)
    (fresh : i ∉ l) :
    ∃ dll', dll.insertDllEntryTail i = .ok dll' ∧ dll'.Ring (l ++ [i]) ∧
      dll'.entryCount = (dll.entryCount + 1) % 2 ^ 32 ∧ dll'.allocated = dll.allocated ∧
      ∀ j, (dll'.records j).data = (dll.records j).data := by
  have single : [i].Nodup := List.nodup_cons.mpr ⟨List.not_mem_nil, List.nodup_nil⟩
  rcases holds with ring | ⟨rfl, nullFirst, nullLast⟩
  · have filled : dll.last ≠ .null := by
      rw [ring.last]
      rcases lastOf_mem .head l with ⟨-, here⟩ | ⟨j, -, there⟩
      · simp [here]
      · simp [there]
    refine ⟨_, by rw [Dll.insertDllEntryTail, if_neg filled]; rfl, ?_, by simp, by simp, by simp⟩
    have outside : dll.last ≠ .record i := by
      rw [ring.last]
      rcases lastOf_mem .head l with ⟨-, here⟩ | ⟨j, member, there⟩
      · simp [here]
      · rw [there]
        rintro ⟨⟩
        exact fresh member
    -- The record is written first, then the one before it.
    have written : Threads (((dll.setPrev .head (.record i)).setNext (.record i) .head).setPrev
        (.record i) dll.last).records .head l .head := by
      apply ring.threads.congr
      intro j member
      have other : Link.record i ≠ .record j := by
        rintro ⟨⟩
        exact fresh member
      simp [setPrev_prev, setNext_next, other]
    refine ⟨?_, ?_, Threads.append ?_ ⟨?_, ?_, trivial⟩, ?_⟩
    · rcases lastOf_mem .head l with ⟨rfl, -⟩ | ⟨j, member, there⟩
      · simp [setNext_first, ring.last]
      · have notHead : dll.last ≠ .head := by simp [ring.last, there]
        cases l with
        | nil => cases member
        | cons k rest => simp [setNext_first, notHead, ring.first]
    · simp [setPrev_last, Link.lastOf_append]
    · have last := written.setLast (.record i) ring.nodup (by simp)
      rw [← ring.last] at last
      exact last
    · simp [setPrev_prev, ring.last]
    · simp [setNext_next, outside]
    · exact List.nodup_append.mpr ⟨ring.nodup, single, by
        rintro j member _ isNew rfl
        exact fresh (List.mem_singleton.mp isNew ▸ member)⟩
  · refine ⟨_, by
      rw [Dll.insertDllEntryTail, if_pos nullLast, if_neg (not_not.mpr nullFirst)]
      rfl, ?_, by simp, by simp, by simp⟩
    exact ⟨by simp [setNext_first], by simp [setPrev_last],
      ⟨by simp [setPrev_prev], by simp [setNext_next], trivial⟩, single⟩

theorem Ring.removeDllEntryHead {dll : Dll α} {i : Nat} {rest : List Nat}
    (ring : dll.Ring (i :: rest)) (counted : dll.entryCount ≠ 0) :
    ∃ dll', dll.removeDllEntryHead = (some i, dll') ∧ dll'.Ring rest ∧
      dll'.entryCount = dll.entryCount - 1 ∧ dll'.allocated = dll.allocated ∧
      ∀ j, (dll'.records j).data = (dll.records j).data := by
  obtain ⟨prev, next, threads⟩ := ring.threads
  obtain ⟨-, nodup⟩ := List.nodup_cons.mp ring.nodup
  have first : dll.first = .record i := ring.first
  have notNull : Link.headOf rest .head ≠ .null := by
    cases rest with
    | nil => simp
    | cons j more => simp
  -- The successor becomes the first record, and the header its predecessor.
  have removed : { dll with entryCount := dll.entryCount - 1 }.removeDllEntry i =
      ({ dll with entryCount := dll.entryCount - 1 }.setNext .head
        (Link.headOf rest .head)).setPrev (Link.headOf rest .head) .head := by
    simp only [removeDllEntry, prev, next]
    rw [if_pos notNull, if_pos (by simp)]
  have taken : dll.removeDllEntryHead =
      (some i, { dll with entryCount := dll.entryCount - 1 }.removeDllEntry i) := by
    rw [Dll.removeDllEntryHead]
    split
    · next null => simp [null] at first
    · next head => simp [head] at first
    · next k record =>
      obtain rfl : k = i := by simpa [first] using record.symm
      rw [if_neg counted]
  refine ⟨_, taken, ?_, ?_, ?_, ?_⟩
  · rw [removed]
    refine ⟨?_, ?_, ?_, nodup⟩
    · simp [setNext_first]
    · rw [setPrev_last]
      have last := ring.last
      cases rest with
      | nil => simp
      | cons j more => simpa using last
    · exact Threads.setFirst _ nodup (threads.congr fun j _ => ⟨by simp, by simp [setNext_next]⟩) _
  · simp [removed]
  · simp [removed]
  · simp [removed]

end Dll

end SwagOS.DataStructures
