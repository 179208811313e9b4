import Mathlib.Data.List.Infix

/-!
# Runs of commands

A machine that obeys commands one after the other.  A property that a command keeps exactly
when it is allowed holds all along a run exactly when all its commands are allowed.
-/

namespace SwagOS.Lib

variable {State Command : Type*} (perform : State → Command → State)
  (allowed : State → Command → Prop)

def AllowedRun : State → List Command → Prop
  | _, [] => True
  | s, command :: rest => allowed s command ∧ AllowedRun (perform s command) rest

variable {perform allowed}

theorem AllowedRun.invariant {P : State → Prop}
    (kept : ∀ s command, P s → allowed s command → P (perform s command)) {s : State}
    {commands : List Command} (run : AllowedRun perform allowed s commands) (initial : P s) :
    P (commands.foldl perform s) := by
  induction commands generalizing s with
  | nil => exact initial
  | cons command rest inductionHypothesis =>
    obtain ⟨here, later⟩ := run
    exact inductionHypothesis later (kept s command initial here)

theorem AllowedRun.mono {allowed' : State → Command → Prop}
    (weaker : ∀ s command, allowed s command → allowed' s command) {s : State}
    {commands : List Command} (run : AllowedRun perform allowed s commands) :
    AllowedRun perform allowed' s commands := by
  induction commands generalizing s with
  | nil => trivial
  | cons command rest inductionHypothesis =>
    obtain ⟨here, later⟩ := run
    exact ⟨weaker s command here, inductionHypothesis later⟩

theorem AllowedRun.usual {Usual : Command → Prop} {s : State} {commands : List Command}
    (run : AllowedRun perform allowed s commands) (usual : ∀ command ∈ commands, Usual command) :
    AllowedRun perform (fun s command => allowed s command ∧ Usual command) s commands := by
  induction commands generalizing s with
  | nil => trivial
  | cons command rest inductionHypothesis =>
    obtain ⟨here, later⟩ := run
    obtain ⟨first, others⟩ := List.forall_mem_cons.mp usual
    exact ⟨⟨here, first⟩, inductionHypothesis later others⟩

/-- The property holds all along a run exactly when the commands are allowed; `Inv` is what the
machine keeps besides. -/
theorem allowedRun_iff (Inv Good : State → Prop) (Usual : Command → Prop)
    (kept : ∀ s command, Inv s → Good s → Usual command → allowed s command →
      Inv (perform s command))
    (exact_ : ∀ s command, Inv s → Good s → Usual command →
      (Good (perform s command) ↔ allowed s command)) {s : State} {commands : List Command}
    (inv : Inv s) (good : Good s) (usual : ∀ command ∈ commands, Usual command) :
    (∀ before, before <+: commands → Good (before.foldl perform s)) ↔
      AllowedRun perform allowed s commands := by
  induction commands generalizing s with
  | nil =>
    refine iff_of_true ?_ trivial
    intro before begins
    rw [List.prefix_nil] at begins
    subst begins
    exact good
  | cons command rest inductionHypothesis =>
    have first := usual command List.mem_cons_self
    have later : ∀ c ∈ rest, Usual c := fun c member => usual c (List.mem_cons_of_mem _ member)
    constructor
    · intro all
      have goodNext : Good (perform s command) := all [command] (List.prefix_append [command] rest)
      have here := (exact_ s command inv good first).mp goodNext
      refine ⟨here, (inductionHypothesis (kept s command inv good first here) goodNext later).mp ?_⟩
      intro before begins
      exact all (command :: before) (List.cons_prefix_cons.mpr ⟨rfl, begins⟩)
    · rintro ⟨here, run⟩ before begins
      have goodNext := (exact_ s command inv good first).mpr here
      have inv' := kept s command inv good first here
      rcases List.prefix_cons_iff.mp begins with rfl | ⟨more, rfl, inside⟩
      · exact good
      · exact (inductionHypothesis inv' goodNext later).mpr run more inside

end SwagOS.Lib
