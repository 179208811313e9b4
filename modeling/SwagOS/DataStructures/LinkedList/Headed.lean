import SwagOS.DataStructures.LinkedList

/-!
# Lists between records that are on no list

Where a caller gives up between `kalloc` and the insertion, its record is never filled, and
the list is not `Stacked`: such a record holds whatever its memory holds.  The records on the
list still have the header as their `prev`, and lead to older records.
-/

namespace SwagOS.DataStructures.Dll

open SwagOS.Lib

variable {α β : Type} {dll : Dll α}

structure Headed (dll : Dll α) : Prop where
  inside : ∀ j, dll.Listed j → j < dll.allocated
  prev : ∀ j, dll.Listed j → (dll.records j).prev = .head
  next : ∀ j, dll.Listed j → (dll.records j).next = .head ∨
    ∃ k < j, (dll.records j).next = .record k
  last : dll.first = .null → dll.last = .null

theorem headed_empty (records : Nat → Cell α) : (empty records).Headed where
  inside := fun _ listed => by cases listed
  prev := fun _ listed => by cases listed
  next := fun _ listed => by cases listed
  last := fun _ => rfl

theorem listed_kalloc {j : Nat} : dll.kalloc.2.Listed j ↔ dll.Listed j :=
  ⟨From.congr rfl, From.congr rfl⟩

theorem Headed.kalloc (headed : dll.Headed) : dll.kalloc.2.Headed where
  inside := fun j listed => Nat.lt_succ_of_lt (headed.inside j (listed_kalloc.mp listed))
  prev := fun j listed => headed.prev j (listed_kalloc.mp listed)
  next := fun j listed => headed.next j (listed_kalloc.mp listed)
  last := headed.last

/-- Away from record `i`, a change of it is not seen. -/
theorem From.update {cell : Cell α} {dll' : Dll α} {link : Link} {i j : Nat}
    (records : dll'.records = Function.update dll.records i cell) (met : dll'.From link j)
    (apart : ∀ k, dll.From link k → k ≠ i) : dll.From link j := by
  induction met with
  | here => exact .here
  | @next k j met inductionHypothesis =>
    have other : k ≠ i := apart k .here
    rw [records, Function.update_of_ne other] at inductionHypothesis
    exact .next (inductionHypothesis fun l later => apart l (.next later))

theorem pushed_data (dll : Dll α) (write : α → α) :
    ((dll.pushed write).records dll.allocated).data = write (dll.records dll.allocated).data := by
  simp [Dll.pushed]

theorem Headed.listed_pushed (headed : dll.Headed) {write : α → α} {j : Nat}
    (listed : (dll.pushed write).Listed j) : j = dll.allocated ∨ dll.Listed j := by
  cases listed with
  | here => exact .inl rfl
  | next met =>
    right
    have next : ((dll.pushed write).records dll.allocated).next =
        if dll.first = .null then .head else dll.first := by
      simp [Dll.pushed]
    rw [next] at met
    by_cases null : dll.first = .null
    · rw [if_pos null] at met
      cases met
    · rw [if_neg null] at met
      exact From.update rfl met fun k listed => Nat.ne_of_lt (headed.inside k listed)

theorem Headed.pushed (headed : dll.Headed) (write : α → α) : (dll.pushed write).Headed := by
  have older : ∀ j, dll.Listed j →
      (dll.pushed write).records j = dll.records j := fun j listed =>
    Function.update_of_ne (Nat.ne_of_lt (headed.inside j listed)) _ _
  constructor
  case inside =>
    intro j listed
    rcases headed.listed_pushed listed with rfl | before
    · exact Nat.lt_succ_self _
    · exact Nat.lt_succ_of_lt (headed.inside j before)
  case prev =>
    intro j listed
    rcases headed.listed_pushed listed with rfl | before
    · simp [Dll.pushed]
    · rw [older j before]
      exact headed.prev j before
  case next =>
    intro j listed
    rcases headed.listed_pushed listed with rfl | before
    · simp only [Dll.pushed, Function.update_self]
      cases first : dll.first with
      | null => exact .inl rfl
      | head => exact .inl rfl
      | record k => exact .inr ⟨k, headed.inside k (by rw [Listed, first]; exact .here), rfl⟩
    · rw [older j before]
      exact headed.next j before
  case last => exact fun null => by cases null

theorem Headed.removeDllEntry_eq (headed : dll.Headed) {i : Nat} (listed : dll.Listed i) :
    dll.removeDllEntry i = { dll with
      first := (dll.records i).next
      last := if (dll.records i).next = .head then .head else dll.last } := by
  unfold removeDllEntry
  rw [headed.prev i listed]
  rcases headed.next i listed with next | ⟨j, older, next⟩
  · simp [next, setNext, setPrev]
  · have later : dll.Listed j := listed.trans (by rw [next]; exact .here)
    have same : Function.update dll.records j { dll.records j with prev := .head } =
        dll.records := by
      rw [← headed.prev j later, Function.update_eq_self]
    simp [next, setNext, setPrev, same]

theorem Headed.older (headed : dll.Headed) {i j : Nat} (listed : dll.Listed i)
    (met : dll.From (dll.records i).next j) : j < i := by
  have below : ∀ {link k}, dll.From link k → ∀ m, dll.Listed m → (dll.records m).next = link →
      k < m := by
    intro link k met
    induction met with
    | here =>
      intro m isListed next
      rcases headed.next m isListed with head | ⟨l, older, record⟩
      · cases head.symm.trans next
      · cases record.symm.trans next
        exact older
    | @next l k _ inductionHypothesis =>
      intro m isListed next
      have later : dll.Listed l := isListed.trans (by rw [next]; exact .here)
      have first : l < m := by
        rcases headed.next m isListed with head | ⟨l', older, record⟩
        · cases head.symm.trans next
        · cases record.symm.trans next
          exact older
      exact Nat.lt_trans (inductionHypothesis l later rfl) first
  exact below met i listed rfl

theorem Headed.listed_removed (headed : dll.Headed) {i j : Nat} (removed : dll.Listed i)
    (listed : (dll.removeDllEntry i).Listed j) : dll.Listed j ∧ j < i := by
  rw [Listed, headed.removeDllEntry_eq removed] at listed
  have met : dll.From (dll.records i).next j := by
    refine From.congr ?_ listed
    rfl
  exact ⟨removed.trans met, headed.older removed met⟩

theorem Headed.first_removed (headed : dll.Headed) {i f : Nat} (removed : dll.Listed i)
    (first : dll.first = .record f) : ¬(dll.removeDllEntry i).Listed f := by
  intro again
  have isFirst : dll.Listed f := by
    rw [Listed, first]
    exact .here
  have met : dll.From (.record f) i := first ▸ removed
  have notNewer : i ≤ f := by
    cases met with
    | here => exact Nat.le_refl _
    | next later => exact Nat.le_of_lt (headed.older isFirst later)
  exact Nat.not_lt_of_le notNewer (headed.listed_removed removed again).2

/-- The others stay only if it is the one that is removed. -/
theorem Headed.listed_removed_first (headed : dll.Headed) {i j : Nat}
    (first : dll.first = .record i) :
    (dll.removeDllEntry i).Listed j ↔ dll.Listed j ∧ j ≠ i := by
  have removed : dll.Listed i := by
    rw [Listed, first]
    exact .here
  constructor
  · intro listed
    obtain ⟨before, older⟩ := headed.listed_removed removed listed
    exact ⟨before, Nat.ne_of_lt older⟩
  · rintro ⟨listed, other⟩
    have met : dll.From (.record i) j := first ▸ listed
    cases met with
    | here => exact absurd rfl other
    | next later =>
      rw [Listed, headed.removeDllEntry_eq removed]
      refine From.congr ?_ later
      rfl

theorem Headed.removeDllEntry (headed : dll.Headed) {i : Nat} (removed : dll.Listed i) :
    (dll.removeDllEntry i).Headed := by
  have same := headed.removeDllEntry_eq removed
  constructor
  case inside =>
    intro j listed
    have before := headed.inside j (headed.listed_removed removed listed).1
    rw [same]
    exact before
  case prev =>
    intro j listed
    have before := headed.prev j (headed.listed_removed removed listed).1
    rw [same]
    exact before
  case next =>
    intro j listed
    have before := headed.next j (headed.listed_removed removed listed).1
    rw [same]
    exact before
  case last =>
    rw [same]
    intro null
    rcases headed.next i removed with head | ⟨k, -, record⟩
    · cases head.symm.trans null
    · cases record.symm.trans null

/-- What a search finds is on the list and passes the test. -/
theorem search_found {test : α → Option β} {fuel i : Nat} {link : Link} {found : β}
    (done : dll.search test fuel link = .ok (some (i, found))) :
    dll.From link i ∧ test (dll.records i).data = some found := by
  induction fuel generalizing link with
  | zero => cases link <;> cases done
  | succ fuel inductionHypothesis =>
    cases link with
    | null => cases done
    | head => cases done
    | record k =>
      unfold search at done
      cases passed : test (dll.records k).data with
      | some here =>
        rw [passed] at done
        cases done
        exact ⟨.here, passed⟩
      | none =>
        rw [passed] at done
        obtain ⟨met, hit⟩ := inductionHypothesis done
        exact ⟨.next met, hit⟩

end SwagOS.DataStructures.Dll
