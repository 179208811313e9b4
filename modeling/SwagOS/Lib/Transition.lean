import Mathlib.Logic.Relation

/-!
# Runs and halting

A state machine is a start predicate and a step relation; the states it can
reach are those at the end of a finite run.  Safety results are invariants: a
property of every start that each step keeps.  A step that holds only under a
side condition is handled by restricting the step relation, so that one rule
covers both the unconditional and the conditional results.

Code that may stop the machine returns an `Outcome`: a panic with its message,
or a loop that never ends.
-/

namespace SwagOS.Lib

section Runs

variable {State : Type*}

def Reachable (start : State → Prop) (step : State → State → Prop) (s : State) : Prop :=
  ∃ s₀, start s₀ ∧ Relation.ReflTransGen step s₀ s

variable {start : State → Prop} {step : State → State → Prop}

theorem Reachable.base {s : State} (started : start s) : Reachable start step s :=
  ⟨s, started, .refl⟩

theorem Reachable.next {s t : State} (reached : Reachable start step s) (moved : step s t) :
    Reachable start step t := by
  obtain ⟨s₀, started, run⟩ := reached
  exact ⟨s₀, started, run.tail moved⟩

theorem Reachable.run {s t : State} (reached : Reachable start step s)
    (run : Relation.ReflTransGen step s t) : Reachable start step t := by
  obtain ⟨s₀, started, before⟩ := reached
  exact ⟨s₀, started, before.trans run⟩

theorem Reachable.mono {step' : State → State → Prop} {s : State}
    (more : ∀ s t, step s t → step' s t) (reached : Reachable start step s) :
    Reachable start step' s := by
  obtain ⟨s₀, started, run⟩ := reached
  exact ⟨s₀, started, Relation.ReflTransGen.mono more _ _ run⟩

theorem Reachable.invariant {P : State → Prop} (initial : ∀ s, start s → P s)
    (kept : ∀ s t, P s → step s t → P t) {s : State}
    (reached : Reachable start step s) : P s := by
  obtain ⟨s₀, started, run⟩ := reached
  induction run with
  | refl => exact initial s₀ started
  | tail _ moved inductionHypothesis => exact kept _ _ inductionHypothesis moved

def Maximal (step : State → State → Prop) (run : Nat → State) : Prop :=
  ∀ n, step (run n) (run (n + 1)) ∨ (∀ t, ¬step (run n) t) ∧ run (n + 1) = run n

open Classical in
noncomputable def onward (step : State → State → Prop) (s : State) : State :=
  if moves : ∃ t, step s t then moves.choose else s

theorem maximal_iterate (step : State → State → Prop) (s : State) :
    Maximal step fun n => Nat.repeat (onward step) n s := by
  intro n
  show step _ (onward step _) ∨ _ ∧ onward step _ = _
  by_cases moves : ∃ t, step (Nat.repeat (onward step) n s) t
  · refine .inl ?_
    rw [onward, dif_pos moves]
    exact moves.choose_spec
  · exact .inr ⟨fun t moved => moves ⟨t, moved⟩, dif_neg moves⟩

theorem Maximal.exists_through {s t : State} (first : Relation.ReflTransGen step s t) :
    ∃ run, run 0 = s ∧ Maximal step run ∧ ∃ n, run n = t := by
  induction first using Relation.ReflTransGen.head_induction_on with
  | refl => exact ⟨_, rfl, maximal_iterate step t, 0, rfl⟩
  | @head s s' moved _ inductionHypothesis =>
    obtain ⟨run, rfl, maximal, n, here⟩ := inductionHypothesis
    refine ⟨fun n => n.casesOn s run, rfl, ?_, n + 1, here⟩
    intro k
    cases k with
    | zero => exact .inl moved
    | succ k => exact maximal k

theorem Maximal.stays {run : Nat → State} (maximal : Maximal step run) {n m : Nat}
    (stuck : ∀ t, ¬step (run n) t) (later : n ≤ m) : run m = run n := by
  induction later with
  | refl => rfl
  | @step m _ inductionHypothesis =>
    rcases maximal m with moved | ⟨-, same⟩
    · exact absurd (inductionHypothesis ▸ moved) (stuck _)
    · rw [same, inductionHypothesis]

theorem Maximal.reachable {run : Nat → State} (maximal : Maximal step run)
    (started : start (run 0)) (n : Nat) : Reachable start step (run n) := by
  induction n with
  | zero => exact .base started
  | succ n inductionHypothesis =>
    rcases maximal n with moved | ⟨-, same⟩
    · exact inductionHypothesis.next moved
    · rwa [same]

/-- A run ends when a number decreases with each of its steps. -/
theorem Maximal.ends {rank : State → Nat} {run : Nat → State} (maximal : Maximal step run)
    (decreases : ∀ s t, Reachable start step s → step s t → rank t < rank s)
    (started : start (run 0)) : ∃ n, ∀ t, ¬step (run n) t := by
  refine Classical.byContradiction fun endless => ?_
  have moved : ∀ n, step (run n) (run (n + 1)) := by
    intro n
    exact (maximal n).resolve_right fun ended => endless ⟨n, ended.1⟩
  have bounded : ∀ n, rank (run n) + n ≤ rank (run 0) := by
    intro n
    induction n with
    | zero => exact Nat.le_refl _
    | succ n inductionHypothesis =>
      have less := decreases _ _ (maximal.reachable started n) (moved n)
      omega
  have bound := bounded (rank (run 0) + 1)
  omega

def Restricted {Label : Type*} (step : State → Label → State → Prop)
    (allowed : State → Label → Prop) (s t : State) : Prop :=
  ∃ label, step s label t ∧ allowed s label

abbrev Unrestricted {Label : Type*} (step : State → Label → State → Prop) :
    State → State → Prop :=
  Restricted step fun _ _ => True

inductive Trace {Label : Type*} (step : State → Label → State → Prop) :
    State → List Label → State → Prop where
  | nil (s : State) : Trace step s [] s
  | cons {s t u : State} {label : Label} {labels : List Label} :
      step s label t → Trace step t labels u → Trace step s (label :: labels) u

theorem Trace.invariant {Label : Type*} {step : State → Label → State → Prop}
    {P : State → Prop} (kept : ∀ s label t, P s → step s label t → P t) {s t : State}
    {labels : List Label} (run : Trace step s labels t) (initial : P s) : P t := by
  induction run with
  | nil s => exact initial
  | cons moved _ inductionHypothesis => exact inductionHypothesis (kept _ _ _ initial moved)

theorem Trace.snoc {Label : Type*} {step : State → Label → State → Prop} {s t u : State}
    {labels : List Label} {label : Label} (run : Trace step s labels t)
    (moved : step t label u) : Trace step s (labels ++ [label]) u := by
  induction run with
  | nil s => exact .cons moved (.nil u)
  | cons first _ inductionHypothesis => exact .cons first (inductionHypothesis moved)

theorem Trace.split {Label : Type*} {step : State → Label → State → Prop} {s t : State}
    {labels : List Label} {label : Label} (run : Trace step s labels t) (member : label ∈ labels) :
    ∃ before after s₁ s₂, labels = before ++ label :: after ∧ Trace step s before s₁ ∧
      step s₁ label s₂ ∧ Trace step s₂ after t := by
  induction run with
  | nil s => cases member
  | @cons s s₁ t first labels moved run inductionHypothesis =>
    rcases List.mem_cons.mp member with rfl | later
    · exact ⟨[], labels, s, s₁, rfl, .nil s, moved, run⟩
    · obtain ⟨before, after, s₂, s₃, rfl, run₁, here, run₂⟩ := inductionHypothesis later
      exact ⟨first :: before, after, s₂, s₃, rfl, .cons moved run₁, here, run₂⟩

end Runs

inductive Halt where
  /-- `panic(message)`: interrupts are disabled and the machine halts. -/
  | panic (message : String)
  /-- A loop or a spin that never ends. -/
  | hang
  deriving DecidableEq, Repr

abbrev Outcome (α : Type) := Except Halt α

namespace Outcome

variable {α β : Type}

theorem bind_ok {x : Outcome α} {f : α → Outcome β} {b : β} :
    (x >>= f) = .ok b ↔ ∃ a, x = .ok a ∧ f a = .ok b := by
  cases x with
  | error halt => simp [bind, Except.bind]
  | ok a => simp [bind, Except.bind]

@[simp] theorem pure_ok {a b : α} : (pure a : Outcome α) = .ok b ↔ a = b := by
  simp [pure, Except.pure]

@[simp] theorem throw_ok {halt : Halt} {b : α} : (throw halt : Outcome α) = .ok b ↔ False := by
  simp [throw, throwThe, MonadExceptOf.throw]

theorem foldlM_mem {State : Type} {P : State → Prop} {body : State → α → Outcome State}
    {l : List α} (kept : ∀ a ∈ l, ∀ s s', P s → body s a = .ok s' → P s') {s s' : State}
    (done : l.foldlM body s = .ok s') (initial : P s) : P s' := by
  induction l generalizing s with
  | nil =>
    rw [List.foldlM_nil, pure_ok] at done
    exact done ▸ initial
  | cons a rest inductionHypothesis =>
    rw [List.foldlM_cons] at done
    obtain ⟨s₁, first, done⟩ := bind_ok.mp done
    exact inductionHypothesis (fun b later => kept b (List.mem_cons_of_mem a later)) done
      (kept a List.mem_cons_self s s₁ initial first)

theorem foldlM_ok {State : Type} {P : State → Prop} {body : State → α → Outcome State}
    (kept : ∀ s a s', P s → body s a = .ok s' → P s') {l : List α} {s s' : State}
    (done : l.foldlM body s = .ok s') (initial : P s) : P s' :=
  foldlM_mem (fun a _ s s' holds step => kept s a s' holds step) done initial

/-- `if (!condition) panic(message);` -/
def panicUnless (condition : Bool) (message : String) : Outcome Unit :=
  if condition then pure () else throw (.panic message)

theorem panicUnless_ok {condition : Bool} {message : String} {result : Unit} :
    panicUnless condition message = .ok result ↔ condition = true := by
  cases condition with
  | true => exact iff_of_true rfl rfl
  | false => exact iff_of_false nofun nofun

/-- A computation that counts its loops down from a bound gives a result with every bound
that is large enough. -/
def Returns (f : Nat → Outcome α) (a : α) : Prop := ∃ least, ∀ fuel ≥ least, f fuel = .ok a

theorem Returns.const {x : Outcome α} {a : α} (done : x = .ok a) : Returns (fun _ => x) a :=
  ⟨0, fun _ _ => done⟩

theorem Returns.bind {f : Nat → Outcome α} {g : Nat → α → Outcome β} {a : α} {b : β}
    (first : Returns f a) (second : Returns (fun fuel => g fuel a) b) :
    Returns (fun fuel => f fuel >>= g fuel) b := by
  obtain ⟨least, done⟩ := first
  obtain ⟨least', done'⟩ := second
  refine ⟨least + least', ?_⟩
  intro fuel enough
  exact bind_ok.mpr ⟨a, done fuel (by omega), done' fuel (by omega)⟩

theorem Returns.of_bind {f : Nat → Outcome α} {g : Nat → α → Outcome β} {a : α} {b : β}
    (first : Returns f a) (whole : Returns (fun fuel => f fuel >>= g fuel) b) :
    Returns (fun fuel => g fuel a) b := by
  obtain ⟨least, done⟩ := first
  obtain ⟨least', done'⟩ := whole
  refine ⟨least + least', ?_⟩
  intro fuel enough
  obtain ⟨c, here, rest⟩ := bind_ok.mp (done' fuel (by omega))
  rw [done fuel (by omega)] at here
  obtain rfl := Except.ok.inj here
  exact rest

theorem Returns.succ {f : Nat → Outcome α} {a : α} (first : Returns (fun fuel => f (fuel + 1)) a) :
    Returns f a := by
  obtain ⟨least, done⟩ := first
  refine ⟨least + 1, ?_⟩
  intro fuel enough
  obtain ⟨k, rfl⟩ := Nat.exists_eq_add_of_le enough
  rw [Nat.add_right_comm]
  exact done (least + k) (Nat.le_add_right least k)

theorem returns_add (f : Nat → Outcome α) (n : Nat) {a : α} :
    Returns (fun fuel => f (fuel + n)) a ↔ Returns f a := by
  constructor
  · rintro ⟨least, done⟩
    refine ⟨least + n, ?_⟩
    intro fuel enough
    have more : f (fuel - n + n) = .ok a := done (fuel - n) (by omega)
    rwa [Nat.sub_add_cancel (by omega)] at more
  · rintro ⟨least, done⟩
    exact ⟨least, fun fuel enough => done (fuel + n) (by omega)⟩

theorem Returns.exists {f : Nat → Outcome α} {a : α} (returns : Returns f a) :
    ∃ fuel, f fuel = .ok a := by
  obtain ⟨least, done⟩ := returns
  exact ⟨least, done least (Nat.le_refl least)⟩

theorem Returns.unique {f : Nat → Outcome α} {a b : α} (returns : Returns f a)
    (returns' : Returns f b) : a = b := by
  obtain ⟨least, done⟩ := returns
  obtain ⟨least', done'⟩ := returns'
  have here := done (least + least') (by omega)
  rw [done' (least + least') (by omega)] at here
  exact (Except.ok.inj here).symm

def test (x : Outcome α) (check : α → Bool) : Bool :=
  match x with
  | .ok a => check a
  | .error _ => false

theorem of_test {x : Outcome α} {check : α → Bool} (passed : x.test check = true) :
    ∃ a, x = .ok a ∧ check a = true := by
  cases x with
  | ok a => exact ⟨a, rfl, passed⟩
  | error halt => cases passed

end Outcome

end SwagOS.Lib
