import Mathlib.Data.List.Pairwise
import Mathlib.Logic.Function.Basic

/-!
# Copying cell by cell

The cells of a memory are copied one after the other, each from the memory that the copies
before it left.  Where no cell is written before it is read, and none is written twice, the
result is that of copying all of them at once, however the two ranges overlap.
-/

namespace SwagOS.Lib.Copying

variable {ι Address Value : Type*} [DecidableEq Address]

def copyAll (target source : ι → Address) (l : List ι) (m : Address → Value) : Address → Value :=
  l.foldl (fun m i => Function.update m (target i) (m (source i))) m

variable {target source : ι → Address} {l : List ι} {m : Address → Value}

@[simp] theorem copyAll_nil : copyAll target source [] m = m := rfl

@[simp] theorem copyAll_cons (i : ι) : copyAll target source (i :: l) m =
    copyAll target source l (Function.update m (target i) (m (source i))) := rfl

theorem copyAll_outside {a : Address} (outside : ∀ i ∈ l, a ≠ target i) :
    copyAll target source l m a = m a := by
  induction l generalizing m with
  | nil => rfl
  | cons i rest inductionHypothesis =>
    have first : a ≠ target i := outside i List.mem_cons_self
    rw [copyAll_cons, inductionHypothesis fun j later => outside j (List.mem_cons_of_mem i later),
      Function.update_of_ne first]

/-- A target gets the value that its source had at the start. -/
theorem copyAll_inside
    (order : l.Pairwise fun i j => source j ≠ target i ∧ target j ≠ target i) {i : ι}
    (member : i ∈ l) : copyAll target source l m (target i) = m (source i) := by
  induction l generalizing m with
  | nil => cases member
  | cons first rest inductionHypothesis =>
    obtain ⟨apart, order⟩ := List.pairwise_cons.mp order
    rw [copyAll_cons]
    rcases List.mem_cons.mp member with rfl | later
    · rw [copyAll_outside fun j later => (apart j later).2.symm, Function.update_self]
    · rw [inductionHypothesis order later, Function.update_of_ne (apart i later).1]

end SwagOS.Lib.Copying
