import Mathlib.Logic.Function.Basic

/-!
# Exclusive ownership

Holders share a pool of resources.  A resource that is held is allocated, and it has one
holder.  An allocator that serves only what is not allocated keeps this when it grants,
and a release keeps it when nobody holds what is released.

A holder may stand for a whole group: with one holder for the rest of the world, the
rules speak about the part of a system that a step touches.
-/

namespace SwagOS.Lib

variable {Holder Resource : Type*}

/-- Every held resource is allocated, and by itself determines its holder. -/
structure Exclusive (allocated : Resource → Prop) (holds : Holder → Resource → Prop) : Prop where
  allocated : ∀ {h r}, holds h r → allocated r
  unique : ∀ {h k r}, holds h r → holds k r → h = k

namespace Exclusive

variable {allocated allocated' : Resource → Prop} {holds holds' : Holder → Resource → Prop}

/-- Holders give up resources, and what they keep stays allocated. -/
theorem shrink (exclusive : Exclusive allocated holds)
    (fewer : ∀ {h r}, holds' h r → holds h r)
    (kept : ∀ {h r}, holds' h r → allocated r → allocated' r) : Exclusive allocated' holds' where
  allocated := fun held => kept held (exclusive.allocated (fewer held))
  unique := fun first second => exclusive.unique (fewer first) (fewer second)

theorem grant (exclusive : Exclusive allocated holds) (owner : Holder) {new : Resource}
    (fresh : ¬allocated new) (grown : ∀ r, allocated' r ↔ r = new ∨ allocated r)
    (more : ∀ {h r}, holds' h r → holds h r ∨ h = owner ∧ r = new) :
    Exclusive allocated' holds' where
  allocated := by
    intro h r held
    rcases more held with before | ⟨-, rfl⟩
    · exact (grown r).mpr (.inr (exclusive.allocated before))
    · exact (grown r).mpr (.inl rfl)
  unique := by
    intro h k r first second
    rcases more first with before | ⟨rfl, rfl⟩
    · rcases more second with also | ⟨rfl, rfl⟩
      · exact exclusive.unique before also
      · exact absurd (exclusive.allocated before) fresh
    · rcases more second with also | ⟨rfl, -⟩
      · exact absurd (exclusive.allocated also) fresh
      · rfl

theorem not_held (exclusive : Exclusive allocated holds) {r : Resource} (free : ¬allocated r)
    (h : Holder) : ¬holds h r := fun held => free (exclusive.allocated held)

end Exclusive

end SwagOS.Lib
