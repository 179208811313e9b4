import SwagOS.DataStructures.LinkedList.Fifo

/-!
# Sequences of list operations

A list that starts as a zeroed header, filled at either end and emptied from its head or in
the middle, against a sequence with the same operations.

Head insertion writes neither the `prev` of the old first entry nor the `last` of the header.
It does what it should on an empty list only, and after it tail insertion does not until that
entry is gone; the two invariants, `Ring` and `Fronted`, are the lists before and after it.
Removal in the middle leaves the count alone, so that the count is what was inserted less what
was removed from the head, in 32 bits.
-/

namespace SwagOS.DataStructures

open SwagOS.Lib

inductive ListCall where
  | insertHead (i : Nat)
  | insertTail (i : Nat)
  | remove (i : Nat)
  | removeHead
  deriving DecidableEq, Repr

/-- What the operations have done to the sequence. -/
structure ListHistory where
  members : List Nat
  /-- The members that were inserted at the head. -/
  fronted : List Nat
  /-- The insertions less the removals from the head. -/
  counted : Nat
  /-- Something was inserted. -/
  used : Bool
  deriving DecidableEq, Repr

namespace ListHistory

def start : ListHistory := ⟨[], [], 0, false⟩

def apply (s : ListHistory) : ListCall → ListHistory
  | .insertHead i => ⟨i :: s.members, i :: s.fronted, s.counted + 1, true⟩
  | .insertTail i => ⟨s.members ++ [i], s.fronted, s.counted + 1, true⟩
  | .remove i => { s with members := s.members.erase i, fronted := s.fronted.erase i }
  | .removeHead =>
      match s.members with
      | [] => s
      | i :: rest =>
          { s with members := rest, fronted := s.fronted.erase i, counted := s.counted - 1 }

def Valid (s : ListHistory) : ListCall → Prop
  | .insertHead i => i ∉ s.members
  | .insertTail i => i ∉ s.members
  | .remove i => i ∈ s.members
  | .removeHead => True

instance (s : ListHistory) : DecidablePred s.Valid
  | .insertHead i => inferInstanceAs (Decidable (i ∉ s.members))
  | .insertTail i => inferInstanceAs (Decidable (i ∉ s.members))
  | .remove i => inferInstanceAs (Decidable (i ∈ s.members))
  | .removeHead => .isTrue trivial

/-- Insertion at the head of an empty list, at the tail while no member was inserted at the
head, and removal from the head while the count is not 0 in 32 bits. -/
def Sound (s : ListHistory) : ListCall → Prop
  | .insertHead _ => s.members = []
  | .insertTail _ => s.fronted = []
  | .remove _ => True
  | .removeHead => s.members = [] ∨ s.counted % 2 ^ 32 ≠ 0

instance (s : ListHistory) : DecidablePred s.Sound
  | .insertHead _ => inferInstanceAs (Decidable (s.members = []))
  | .insertTail _ => inferInstanceAs (Decidable (s.fronted = []))
  | .remove _ => .isTrue trivial
  | .removeHead => inferInstanceAs (Decidable (s.members = [] ∨ s.counted % 2 ^ 32 ≠ 0))

end ListHistory

namespace Dll

variable {α : Type}

def call (dll : Dll α) : ListCall → Outcome (Dll α)
  | .insertHead i => dll.insertDllEntryHead i
  | .insertTail i => dll.insertDllEntryTail i
  | .remove i => pure (dll.removeDllEntry i)
  | .removeHead => pure dll.removeDllEntryHead.2

/-- From the header along the `next` pointers the list shows the members and ends at the
header, and each `prev` leads back. -/
structure Shows (dll : Dll α) (s : ListHistory) : Prop where
  first : dll.first = if s.used then Link.headOf s.members .head else .null
  threads : Threads dll.records .head s.members .head

end Dll

namespace ListHistory

def ValidRun : ListHistory → List ListCall → Prop
  | _, [] => True
  | s, call :: rest => s.Valid call ∧ ValidRun (s.apply call) rest

def SoundRun : ListHistory → List ListCall → Prop
  | _, [] => True
  | s, call :: rest => s.Sound call ∧ SoundRun (s.apply call) rest

instance decidableValidRun : (s : ListHistory) → DecidablePred s.ValidRun
  | _, [] => .isTrue trivial
  | s, call :: rest =>
      have := decidableValidRun (s.apply call) rest
      inferInstanceAs (Decidable (s.Valid call ∧ ValidRun (s.apply call) rest))

instance decidableSoundRun : (s : ListHistory) → DecidablePred s.SoundRun
  | _, [] => .isTrue trivial
  | s, call :: rest =>
      have := decidableSoundRun (s.apply call) rest
      inferInstanceAs (Decidable (s.Sound call ∧ SoundRun (s.apply call) rest))

end ListHistory

def Dll.RightRun {α : Type} : Dll α → ListHistory → List ListCall → Prop
  | _, _, [] => True
  | dll, s, call :: rest =>
      ∃ dll', dll.call call = .ok dll' ∧ dll'.Shows (s.apply call) ∧
        RightRun dll' (s.apply call) rest

namespace Dll

variable {α : Type} {dll : Dll α}

theorem Threads.split {records : Nat → Cell α} {before after : Link} {l m : List Nat}
    (threads : Threads records before (l ++ m) after) :
    Threads records before l (Link.headOf m after) ∧
      Threads records (Link.lastOf before l) m after := by
  induction l generalizing before with
  | nil => exact ⟨trivial, threads⟩
  | cons i rest inductionHypothesis =>
    obtain ⟨prev, next, threads⟩ := threads
    obtain ⟨first, second⟩ := inductionHypothesis threads
    refine ⟨⟨prev, ?_, first⟩, second⟩
    rw [next]
    cases rest with
    | nil => rfl
    | cons j rest => rfl

theorem headOf_ne_null (l : List Nat) {after : Link} (notNull : after ≠ .null) :
    Link.headOf l after ≠ .null := by
  cases l with
  | nil => exact notNull
  | cons i rest => simp

theorem lastOf_ne_null (l : List Nat) {before : Link} (notNull : before ≠ .null) :
    Link.lastOf before l ≠ .null := by
  rcases lastOf_mem before l with ⟨-, here⟩ | ⟨i, -, there⟩
  · rwa [here]
  · simp [there]

theorem lastOf_apart {l m : List Nat} (apart : ∀ j ∈ l, ∀ k ∈ m, j ≠ k) {k : Nat}
    (member : k ∈ m) : Link.lastOf .head l ≠ .record k := by
  rcases lastOf_mem .head l with ⟨-, here⟩ | ⟨j, inside, there⟩
  · simp [here]
  · rw [there]
    rintro ⟨⟩
    exact apart k inside k member rfl

theorem headOf_apart {l m : List Nat} (apart : ∀ j ∈ l, ∀ k ∈ m, j ≠ k) {j : Nat}
    (member : j ∈ l) : Link.headOf m .head ≠ .record j := by
  cases m with
  | nil => simp
  | cons k rest =>
    rintro ⟨⟩
    exact apart j member j List.mem_cons_self rfl

theorem Ring.removeDllEntry {l m : List Nat} {i : Nat} (ring : dll.Ring (l ++ i :: m)) :
    (dll.removeDllEntry i).Ring (l ++ m) := by
  obtain ⟨before, prev, next, after⟩ := ring.threads.split
  obtain ⟨nodupBefore, nodupAfter, apart⟩ := List.nodup_append.mp ring.nodup
  have apartRest : ∀ j ∈ l, ∀ k ∈ m, j ≠ k :=
    fun j inside k member => apart j inside k (List.mem_cons_of_mem i member)
  have removed : dll.removeDllEntry i =
      (dll.setNext (Link.lastOf .head l) (Link.headOf m .head)).setPrev (Link.headOf m .head)
        (Link.lastOf .head l) := by
    simp only [Dll.removeDllEntry, prev, next]
    rw [if_pos (headOf_ne_null m (by simp)), if_pos (lastOf_ne_null l (by simp))]
  rw [removed]
  refine ⟨?_, ?_, Threads.append ?_ ?_, ?_⟩
  · rw [setPrev_first, setNext_first]
    cases l with
    | nil => simp
    | cons j rest =>
      have notHead : Link.lastOf .head (j :: rest) ≠ .head := by
        rcases lastOf_mem .head (j :: rest) with ⟨none, -⟩ | ⟨k, -, there⟩
        · cases none
        · simp [there]
      rw [if_neg notHead, ring.first]
      rfl
  · rw [setPrev_last, setNext_last, ring.last]
    cases m with
    | nil => simp
    | cons j rest => simp [Link.lastOf_append]
  · refine Threads.congr (fun j member => ⟨?_, setPrev_next _ _ _ j⟩)
      (before.setLast (Link.headOf m .head) nodupBefore (by simp))
    rw [setPrev_prev, if_neg (headOf_apart apartRest member)]
  · refine Threads.setFirst _ (List.nodup_cons.mp nodupAfter).2 (after.congr fun j member => ?_) _
    refine ⟨setNext_prev _ _ _ j, ?_⟩
    rw [setNext_next, if_neg (lastOf_apart apartRest member)]
  · exact List.nodup_append.mpr ⟨nodupBefore, (List.nodup_cons.mp nodupAfter).2, apartRest⟩

/-- One entry that was inserted at the head of an empty list: `last` is what it was. -/
structure Fronted (dll : Dll α) (i : Nat) : Prop where
  first : dll.first = .record i
  last : dll.last = .null ∨ dll.last = .head
  prev : (dll.records i).prev = .head
  next : (dll.records i).next = .head

inductive Layout (dll : Dll α) : ListHistory → Prop where
  | unused {counted : Nat} : dll.first = .null → dll.last = .null →
      Layout dll ⟨[], [], counted, false⟩
  | ring {l : List Nat} {counted : Nat} : dll.Ring l → Layout dll ⟨l, [], counted, true⟩
  | fronted {i : Nat} {counted : Nat} : dll.Fronted i → Layout dll ⟨[i], [i], counted, true⟩

structure Agrees (dll : Dll α) (s : ListHistory) : Prop where
  layout : dll.Layout s
  count : dll.entryCount = s.counted % 2 ^ 32
  enough : s.members.length ≤ s.counted

theorem agrees_empty (records : Nat → Cell α) : (empty records).Agrees .start where
  layout := .unused rfl rfl
  count := rfl
  enough := Nat.le_refl 0

variable {s : ListHistory}

theorem Layout.shows (layout : dll.Layout s) : dll.Shows s := by
  cases layout with
  | unused first _ => exact ⟨first, trivial⟩
  | ring ring => exact ⟨ring.first, ring.threads⟩
  | fronted fronted => exact ⟨fronted.first, fronted.prev, fronted.next, trivial⟩

/-- A removed entry that was alone leaves a header that points to itself. -/
theorem Fronted.removeDllEntry {i : Nat} (fronted : dll.Fronted i) :
    (dll.removeDllEntry i).Ring [] := by
  have removed : dll.removeDllEntry i = (dll.setNext .head .head).setPrev .head .head := by
    simp only [Dll.removeDllEntry, fronted.prev, fronted.next]
    rw [if_pos (by simp), if_pos (by simp)]
  rw [removed]
  exact ⟨rfl, rfl, trivial, List.nodup_nil⟩

theorem Layout.remove (layout : dll.Layout s) {i : Nat} (member : i ∈ s.members) :
    (dll.removeDllEntry i).Layout (s.apply (.remove i)) := by
  cases layout with
  | unused first last => cases member
  | @ring l counted ring =>
    obtain ⟨before, after, rfl⟩ := List.append_of_mem member
    have fresh : i ∉ before := by
      intro inside
      exact (List.nodup_append.mp ring.nodup).2.2 i inside i List.mem_cons_self rfl
    have gone : (before ++ i :: after).erase i = before ++ after := by
      rw [List.erase_append_right _ fresh, List.erase_cons_head]
    rw [ListHistory.apply, gone]
    exact .ring ring.removeDllEntry
  | fronted fronted =>
    obtain rfl := List.mem_singleton.mp member
    have gone : [i].erase i = [] := by simp
    rw [ListHistory.apply, gone]
    exact .ring fronted.removeDllEntry

theorem removeDllEntry_entryCount (i : Nat) :
    (dll.removeDllEntry i).entryCount = dll.entryCount := by
  unfold removeDllEntry
  dsimp only
  split <;> split <;> simp

theorem Agrees.remove (agrees : dll.Agrees s) {i : Nat} (member : i ∈ s.members) :
    (dll.removeDllEntry i).Agrees (s.apply (.remove i)) where
  layout := agrees.layout.remove member
  count := (removeDllEntry_entryCount i).trans agrees.count
  enough := Nat.le_trans List.length_erase_le agrees.enough

theorem Agrees.insertTail (agrees : dll.Agrees s) {i : Nat} (fresh : i ∉ s.members)
    (tailOnly : s.fronted = []) :
    ∃ dll', dll.insertDllEntryTail i = .ok dll' ∧ dll'.Agrees (s.apply (.insertTail i)) := by
  have holds : dll.Holds s.members := by
    cases agrees.layout with
    | unused first last => exact .inr ⟨rfl, first, last⟩
    | ring ring => exact .inl ring
    | fronted => cases tailOnly
  obtain ⟨dll', done, ring, count, -, -⟩ := holds.insertDllEntryTail fresh
  have counted := agrees.count
  have enough := agrees.enough
  refine ⟨dll', done, ?_, ?_, ?_⟩
  · rw [ListHistory.apply, tailOnly]
    exact .ring ring
  · rw [count, counted]
    exact Nat.mod_add_mod s.counted (2 ^ 32) 1
  · rw [ListHistory.apply, List.length_append, List.length_singleton]
    dsimp only
    omega

theorem Agrees.insertHead (agrees : dll.Agrees s) (i : Nat) (isEmpty : s.members = []) :
    ∃ dll', dll.insertDllEntryHead i = .ok dll' ∧ dll'.Agrees (s.apply (.insertHead i)) := by
  have counted := agrees.count
  have inserted : ∃ dll', dll.insertDllEntryHead i = .ok dll' ∧ dll'.Fronted i ∧
      dll'.entryCount = (dll.entryCount + 1) % 2 ^ 32 ∧ s.fronted = [] := by
    cases agrees.layout with
    | unused first last =>
      refine ⟨_, by rw [insertDllEntryHead, if_pos first, if_neg (not_not.mpr last)]; rfl,
        ⟨?_, ?_, ?_, ?_⟩, by simp, rfl⟩
      · simp [setNext_first]
      · exact .inl (by simpa [setPrev_last] using last)
      · simp [setPrev_prev]
      · simp [setNext_next]
    | ring ring =>
      obtain rfl : _ = [] := isEmpty
      have first : dll.first = .head := ring.first
      have last : dll.last = .head := ring.last
      refine ⟨_, by rw [insertDllEntryHead, if_neg (by simp [first])]; rfl,
        ⟨?_, ?_, ?_, ?_⟩, by simp, rfl⟩
      · simp [setNext_first]
      · exact .inr (by simpa [setPrev_last] using last)
      · simp [setPrev_prev]
      · simp [setNext_next, first]
    | fronted => cases isEmpty
  obtain ⟨dll', done, fronted, count, noFronted⟩ := inserted
  refine ⟨dll', done, ?_, ?_, ?_⟩
  · rw [ListHistory.apply, isEmpty, noFronted]
    exact .fronted fronted
  · rw [count, counted]
    exact Nat.mod_add_mod s.counted (2 ^ 32) 1
  · rw [ListHistory.apply, isEmpty]
    exact Nat.succ_le_succ (Nat.zero_le _)

theorem Layout.first (layout : dll.Layout s) {i : Nat} {rest : List Nat}
    (members : s.members = i :: rest) : dll.first = .record i := by
  cases layout with
  | unused => cases members
  | ring ring =>
    obtain rfl : _ = i :: rest := members
    exact ring.first
  | fronted fronted =>
    obtain ⟨rfl, -⟩ := List.cons.inj members
    exact fronted.first

theorem Layout.removeHead (layout : dll.Layout s) {i : Nat} {rest : List Nat}
    (members : s.members = i :: rest) (counted : dll.entryCount ≠ 0) :
    dll.removeDllEntryHead.2.Layout (s.apply .removeHead) ∧
      dll.removeDllEntryHead.2.entryCount = dll.entryCount - 1 := by
  rw [ListHistory.apply, members]
  cases layout with
  | unused => cases members
  | ring ring =>
    obtain rfl : _ = i :: rest := members
    obtain ⟨dll', taken, ring', count, -, -⟩ := ring.removeDllEntryHead counted
    rw [taken]
    exact ⟨.ring ring', count⟩
  | @fronted j _ fronted =>
    obtain ⟨rfl, rfl⟩ := List.cons.inj members
    have taken : dll.removeDllEntryHead.2 =
        { dll with entryCount := dll.entryCount - 1 }.removeDllEntry j := by
      rw [removeDllEntryHead, fronted.first]
      dsimp only
      rw [if_neg counted]
    have alone : { dll with entryCount := dll.entryCount - 1 }.Fronted j :=
      ⟨fronted.first, fronted.last, fronted.prev, fronted.next⟩
    rw [taken, removeDllEntry_entryCount]
    dsimp only
    rw [List.erase_cons_head]
    exact ⟨.ring alone.removeDllEntry, rfl⟩

theorem Agrees.removeHead (agrees : dll.Agrees s)
    (sound : s.members = [] ∨ s.counted % 2 ^ 32 ≠ 0) :
    dll.removeDllEntryHead.2.Agrees (s.apply .removeHead) := by
  have counted := agrees.count
  have enough := agrees.enough
  cases members : s.members with
  | nil =>
    have same : dll.removeDllEntryHead = (none, dll) := by
      cases agrees.layout with
      | unused first _ => rw [removeDllEntryHead, first]
      | ring ring =>
        obtain rfl : _ = [] := members
        have first : dll.first = .head := ring.first
        rw [removeDllEntryHead, first]
      | fronted => cases members
    rw [same, ListHistory.apply, members]
    exact agrees
  | cons i rest =>
    have nonzero : s.counted % 2 ^ 32 ≠ 0 := by
      rcases sound with none | nonzero
      · rw [members] at none
        cases none
      · exact nonzero
    obtain ⟨layout, count⟩ := agrees.layout.removeHead members (counted ▸ nonzero)
    refine ⟨layout, ?_, ?_⟩
    · rw [count, counted, ListHistory.apply, members]
      dsimp only
      omega
    · rw [members, List.length_cons] at enough
      rw [ListHistory.apply, members]
      dsimp only
      omega

/-- A sound operation succeeds and keeps the invariant. -/
theorem Agrees.call (agrees : dll.Agrees s) {call : ListCall} (valid : s.Valid call)
    (sound : s.Sound call) : ∃ dll', dll.call call = .ok dll' ∧ dll'.Agrees (s.apply call) := by
  cases call with
  | insertHead i => exact agrees.insertHead i sound
  | insertTail i => exact agrees.insertTail valid sound
  | remove i => exact ⟨_, rfl, agrees.remove valid⟩
  | removeHead => exact ⟨_, rfl, agrees.removeHead sound⟩

theorem Layout.prev_first (layout : dll.Layout s) {i : Nat} {rest : List Nat}
    (members : s.members = i :: rest) : (dll.records i).prev = .head :=
  (members ▸ layout.shows.threads).1

theorem Layout.nodup (layout : dll.Layout s) : s.members.Nodup := by
  cases layout with
  | unused => exact List.nodup_nil
  | ring ring => exact ring.nodup
  | fronted => exact List.nodup_cons.mpr ⟨List.not_mem_nil, List.nodup_nil⟩

theorem Agrees.call_unsound (agrees : dll.Agrees s) {call : ListCall} (valid : s.Valid call)
    (unsound : ¬s.Sound call) {dll' : Dll α} (done : dll.call call = .ok dll') :
    ¬dll'.Shows (s.apply call) := by
  cases call with
  | insertHead i =>
    -- The old first entry keeps the header as its `prev`.
    obtain ⟨j, rest, members⟩ := List.exists_cons_of_ne_nil unsound
    have fresh : i ≠ j := by
      rintro rfl
      exact valid (members ▸ List.mem_cons_self)
    have first := agrees.layout.first members
    rw [Dll.call, insertDllEntryHead, if_neg (by simp [first])] at done
    obtain rfl := Outcome.pure_ok.mp done
    rintro ⟨-, threads⟩
    rw [ListHistory.apply, members] at threads
    have prev := threads.2.2.1
    simp [setPrev_prev, fresh, agrees.layout.prev_first members] at prev
  | insertTail i =>
    have layout := agrees.layout
    cases layout with
    | unused => exact absurd rfl unsound
    | ring => exact absurd rfl unsound
    | @fronted j counted fronted =>
      have fresh : i ≠ j := fun same => valid (List.mem_singleton.mpr same)
      rw [Dll.call, insertDllEntryTail] at done
      rcases fronted.last with null | head
      · rw [if_pos null, if_pos (by simp [fronted.first])] at done
        cases Outcome.throw_ok.mp done
      · -- `last` is the header, and its `next` the first entry.
        rw [if_neg (by simp [head])] at done
        obtain rfl := Outcome.pure_ok.mp done
        rintro ⟨first, -⟩
        simp [setNext_first, head, ListHistory.apply, fresh] at first
  | remove i => exact absurd trivial unsound
  | removeHead =>
    rw [ListHistory.Sound, not_or, not_not] at unsound
    obtain ⟨filled, zero⟩ := unsound
    obtain ⟨i, rest, members⟩ := List.exists_cons_of_ne_nil filled
    have first := agrees.layout.first members
    have same : dll.removeDllEntryHead = (none, dll) := by
      rw [removeDllEntryHead, first]
      dsimp only
      rw [if_pos (agrees.count.trans zero)]
    rw [Dll.call, same] at done
    obtain rfl := Outcome.pure_ok.mp done
    rintro ⟨shown, -⟩
    rw [first, ListHistory.apply, members] at shown
    have nodup := members ▸ agrees.layout.nodup
    cases used : s.used with
    | false => simp [used] at shown
    | true =>
      cases rest with
      | nil => simp [used] at shown
      | cons j more =>
        obtain rfl : i = j := by simpa [used] using shown
        exact (List.nodup_cons.mp nodup).1 List.mem_cons_self

theorem Agrees.right_iff (agrees : dll.Agrees s) {calls : List ListCall}
    (valid : s.ValidRun calls) : dll.RightRun s calls ↔ s.SoundRun calls := by
  induction calls generalizing dll s with
  | nil => exact Iff.rfl
  | cons call rest inductionHypothesis =>
    obtain ⟨first, later⟩ := valid
    constructor
    · rintro ⟨dll', done, shows_, right⟩
      have sound : s.Sound call := by
        by_contra unsound
        exact agrees.call_unsound first unsound done shows_
      obtain ⟨after, done', agrees'⟩ := agrees.call first sound
      obtain rfl := Except.ok.inj (done.symm.trans done')
      exact ⟨sound, (inductionHypothesis agrees' later).mp right⟩
    · rintro ⟨sound, soundRest⟩
      obtain ⟨dll', done, agrees'⟩ := agrees.call first sound
      exact ⟨dll', done, agrees'.layout.shows, (inductionHypothesis agrees' later).mpr soundRest⟩

/-- From a zeroed header the list is the sequence if and only if head insertions come to an
empty list only, tail insertions find no member that was inserted at the head, and removals
from the head of a list with members find a count that is not 0. -/
theorem lists_right_iff (records : Nat → Cell α) {calls : List ListCall}
    (valid : ListHistory.start.ValidRun calls) :
    (empty records).RightRun .start calls ↔ ListHistory.start.SoundRun calls :=
  (agrees_empty records).right_iff valid

def queueCalls : List ListCall :=
  [.insertTail 4, .insertTail 7, .insertTail 2, .remove 7, .removeHead, .insertTail 7]

theorem lists_right_iff_queue : ListHistory.start.SoundRun queueCalls ∧
    ((empty fun _ => ⟨.null, .null, ()⟩).RightRun .start queueCalls ↔
      ListHistory.start.SoundRun queueCalls) :=
  ⟨by decide, lists_right_iff _ (by decide)⟩

/-- Two entries inserted at the head. -/
theorem insertHead_twice : ListHistory.start.ValidRun [.insertHead 0, .insertHead 1] ∧
    ¬(empty fun _ => ⟨.null, .null, ()⟩).RightRun .start [.insertHead 0, .insertHead 1] := by
  refine ⟨by decide, ?_⟩
  rintro ⟨first, done, -, second, done', shows_, -⟩
  obtain rfl := Except.ok.inj done
  obtain rfl := Except.ok.inj done'
  have prev := shows_.threads.2.2.1
  cases prev

end Dll

end SwagOS.DataStructures
