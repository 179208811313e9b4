import SwagOS.Lib.Bytes

/-!
# Pictures in memory

A picture is a color for each place.  In memory its rows lie one behind the other, and in a row
its pixels; a pixel is some bytes of its color, and there may be more room than that behind
pixels and rows.  Painting pixels one after the other paints the picture.
-/

namespace SwagOS.Lib

structure Raster (Color : Type*) where
  width : Nat
  height : Nat
  /-- The bytes from one row to the next. -/
  pitch : Nat
  /-- The bytes from one pixel to the next. -/
  stride : Nat
  /-- The bytes of a color. -/
  channels : Nat
  encode : Color → Bytes
  pixel : channels ≤ stride
  row : stride * width ≤ pitch

namespace Raster

variable {Color : Type*} (raster : Raster Color)

def Inside (place : Nat × Nat) : Prop := place.1 < raster.width ∧ place.2 < raster.height

instance (place : Nat × Nat) : Decidable (raster.Inside place) := inferInstanceAs (Decidable (_ ∧ _))

def index (place : Nat × Nat) : Nat := raster.pitch * place.2 + raster.stride * place.1

def Shows (bytes : Bytes) (picture : Nat × Nat → Color) : Prop :=
  ∀ place, raster.Inside place → ∀ k < raster.channels,
    bytes (raster.index place + k) = raster.encode (picture place) k

def paint (place : Nat × Nat) (color : Color) (bytes : Bytes) : Bytes :=
  bytes.memcpy (raster.index place) (raster.encode color) raster.channels

def paintAll (places : List (Nat × Nat)) (color : Nat × Nat → Color) (bytes : Bytes) : Bytes :=
  places.foldl (fun bytes place => raster.paint place (color place) bytes) bytes

variable {raster} {place place' : Nat × Nat} {bytes : Bytes} {picture picture' : Nat × Nat → Color}

theorem Inside.index_row (inside : raster.Inside place) :
    raster.index place + raster.stride ≤ raster.pitch * (place.2 + 1) := by
  have column : raster.stride * (place.1 + 1) ≤ raster.stride * raster.width :=
    Nat.mul_le_mul_left _ inside.1
  have row := raster.row
  rw [index, Nat.mul_add_one]
  rw [Nat.mul_add_one] at column
  omega

theorem Inside.index_end (inside : raster.Inside place) :
    raster.index place + raster.stride ≤ raster.pitch * raster.height :=
  Nat.le_trans inside.index_row (Nat.mul_le_mul_left _ inside.2)

theorem Inside.apart (inside : raster.Inside place) (inside' : raster.Inside place')
    (other : place ≠ place') :
    raster.index place + raster.stride ≤ raster.index place' ∨
      raster.index place' + raster.stride ≤ raster.index place := by
  -- In different rows, or at different columns of the same one.
  have rows : ∀ {p q : Nat × Nat}, raster.Inside p → p.2 < q.2 →
      raster.index p + raster.stride ≤ raster.index q := by
    intro p q inside above
    have next : raster.pitch * (p.2 + 1) ≤ raster.pitch * q.2 := Nat.mul_le_mul_left _ above
    exact Nat.le_trans inside.index_row (Nat.le_trans next (Nat.le_add_right _ _))
  have columns : ∀ {p q : Nat × Nat}, p.2 = q.2 → p.1 < q.1 →
      raster.index p + raster.stride ≤ raster.index q := by
    intro p q same before
    have next : raster.stride * (p.1 + 1) ≤ raster.stride * q.1 := Nat.mul_le_mul_left _ before
    rw [Nat.mul_add_one] at next
    rw [index, index, same]
    omega
  rcases Nat.lt_trichotomy place.2 place'.2 with above | same | below
  · exact .inl (rows inside above)
  · rcases Nat.lt_trichotomy place.1 place'.1 with before | equal | behind
    · exact .inl (columns same before)
    · exact absurd (Prod.ext equal same) other
    · exact .inr (columns same.symm behind)
  · exact .inr (rows inside' below)

theorem Shows.congr (shows_ : raster.Shows bytes picture)
    (same : ∀ place, raster.Inside place → picture place = picture' place) :
    raster.Shows bytes picture' := by
  intro place inside k channel
  rw [shows_ place inside k channel, same place inside]

/-- A pixel that is painted shows the color, and the others show what they did. -/
theorem Shows.paint (shows_ : raster.Shows bytes picture) (inside : raster.Inside place)
    (color : Color) :
    raster.Shows (raster.paint place color bytes) (Function.update picture place color) := by
  intro place' inside' k channel
  have pixel := raster.pixel
  by_cases same : place' = place
  · subst same
    rw [Raster.paint, Bytes.memcpy_inside (by omega) (by omega), Function.update_self,
      Nat.add_sub_cancel_left]
  · have apart := inside'.apart inside same
    rw [Raster.paint, Bytes.memcpy_outside (by omega), Function.update_of_ne same]
    exact shows_ place' inside' k channel

/-- What all the places show after they were painted, each in its color. -/
theorem Shows.paintAll (shows_ : raster.Shows bytes picture) {places : List (Nat × Nat)}
    (inside : ∀ place ∈ places, raster.Inside place) (color : Nat × Nat → Color) :
    raster.Shows (raster.paintAll places color bytes)
      fun place => if place ∈ places then color place else picture place := by
  induction places generalizing bytes picture with
  | nil => exact shows_.congr fun _ _ => (if_neg List.not_mem_nil).symm
  | cons first rest inductionHypothesis =>
    obtain ⟨here, later⟩ := List.forall_mem_cons.mp inside
    refine (inductionHypothesis (shows_.paint here (color first)) later).congr fun place _ => ?_
    by_cases again : place ∈ rest
    · rw [if_pos again, if_pos (List.mem_cons_of_mem _ again)]
    · by_cases same : place = first
      · rw [if_neg again, if_pos (same ▸ List.mem_cons_self), same, Function.update_self]
      · have never : place ∉ first :: rest := by
          rintro (_ | ⟨_, member⟩)
          · exact same rfl
          · exact again member
        rw [if_neg again, if_neg never, Function.update_of_ne same]

theorem paintAll_outside {places : List (Nat × Nat)} {i : Nat}
    (inside : ∀ place ∈ places, raster.Inside place)
    (outside : ∀ place, raster.Inside place →
      i < raster.index place ∨ raster.index place + raster.channels ≤ i)
    (color : Nat × Nat → Color) : raster.paintAll places color bytes i = bytes i := by
  induction places generalizing bytes with
  | nil => rfl
  | cons first rest inductionHypothesis =>
    obtain ⟨here, later⟩ := List.forall_mem_cons.mp inside
    exact (inductionHypothesis later).trans (Bytes.memcpy_outside (outside first here))

end Raster

end SwagOS.Lib
