import SwagOS.Lib.Transition

/-!
# Computations that may break a rule

A computation with checks stops at the first step that breaks a rule.  It may also end
without a result, as the machine does when it panics; then no rule was broken.
-/

namespace SwagOS.Lib

inductive Stop (V : Type) where
  | violation (what : V)
  | halt (why : Halt)

abbrev Checked (V α : Type) := Except (Stop V) α

namespace Checked

variable {V α β : Type}

def Meets (x : Checked V α) : Prop := ∀ what, x ≠ .error (.violation what)

def check (rule : Prop) [Decidable rule] (what : V) : Checked V Unit :=
  if rule then pure () else throw (.violation what)

def lift : Outcome α → Checked V α
  | .ok a => .ok a
  | .error why => .error (.halt why)

theorem meets_ok (a : α) : Meets (.ok a : Checked V α) := by
  intro what never
  cases never

@[simp] theorem meets_pure (a : α) : Meets (pure a : Checked V α) := meets_ok a

@[simp] theorem meets_halt (why : Halt) : Meets (throw (.halt why) : Checked V α) := by
  intro what never
  cases never

theorem not_meets {x : Checked V α} {what : V} (stopped : x = .error (.violation what)) :
    ¬x.Meets := fun meets => meets what stopped

@[simp] theorem pure_eq {a b : α} : (pure a : Checked V α) = .ok b ↔ a = b := by
  simp [pure, Except.pure]

@[simp] theorem throw_eq {why : Stop V} {b : α} : (throw why : Checked V α) = .ok b ↔ False := by
  simp [throw, throwThe, MonadExceptOf.throw]

@[simp] theorem meets_lift (x : Outcome α) : Meets (lift x : Checked V α) := by
  intro what never
  cases x with
  | ok a => cases never
  | error why => cases never

@[simp] theorem lift_ok {x : Outcome α} {a : α} : (lift x : Checked V α) = .ok a ↔ x = .ok a := by
  cases x with
  | ok b => simp [lift]
  | error why => simp [lift]

/-- A computation goes on only from the result of its first part. -/
theorem meets_bind {x : Checked V α} {f : α → Checked V β} :
    (x >>= f).Meets ↔ x.Meets ∧ ∀ a, x = .ok a → (f a).Meets := by
  cases x with
  | ok a =>
    constructor
    · rintro meets
      refine ⟨meets_ok a, fun b same => ?_⟩
      cases same
      exact meets
    · rintro ⟨-, rest⟩
      exact rest a rfl
  | error stop =>
    constructor
    · intro meets
      refine ⟨fun what same => ?_, fun a never => by cases never⟩
      cases same
      exact meets what rfl
    · rintro ⟨meets, -⟩ what same
      cases same
      exact meets what rfl

theorem bind_eq {x : Checked V α} {f : α → Checked V β} {b : β} :
    (x >>= f) = .ok b ↔ ∃ a, x = .ok a ∧ f a = .ok b := by
  cases x with
  | error stop => simp [bind, Except.bind]
  | ok a => simp [bind, Except.bind]

section Check

variable {rule : Prop} [Decidable rule] {what : V}

@[simp] theorem meets_check : (check rule what).Meets ↔ rule := by
  unfold check
  split
  next holds => exact iff_of_true (meets_pure ()) holds
  next broken => exact iff_of_false (fun meets => meets what rfl) broken

@[simp] theorem check_eq {u : Unit} : check rule what = .ok u ↔ rule := by
  unfold check
  split
  next holds => exact iff_of_true rfl holds
  next broken => exact iff_of_false (fun never => by cases never) broken

theorem meets_check_bind {f : Unit → Checked V β} :
    (check rule what >>= f).Meets ↔ rule ∧ (f ()).Meets := by
  rw [meets_bind, meets_check]
  constructor
  · rintro ⟨holds, rest⟩
    exact ⟨holds, rest () (check_eq.mpr holds)⟩
  · rintro ⟨holds, rest⟩
    exact ⟨holds, fun _ _ => rest⟩

theorem check_bind_eq {f : Unit → Checked V β} {b : β} :
    (check rule what >>= f) = .ok b ↔ rule ∧ f () = .ok b := by
  rw [bind_eq]
  constructor
  · rintro ⟨u, passed, rest⟩
    exact ⟨check_eq.mp passed, rest⟩
  · rintro ⟨holds, rest⟩
    exact ⟨(), check_eq.mpr holds, rest⟩

end Check

theorem meets_forM {rule : α → Prop} [DecidablePred rule] {what : α → V} {l : List α} :
    Meets (forM l fun a => check (rule a) (what a)) ↔ ∀ a ∈ l, rule a := by
  induction l with
  | nil => exact iff_of_true (meets_pure _) fun a never => absurd never List.not_mem_nil
  | cons a rest inductionHypothesis =>
    rw [List.forM_cons, meets_check_bind, inductionHypothesis, List.forall_mem_cons]

theorem forM_eq {f : α → Checked V Unit} {l : List α} :
    forM l f = .ok () ↔ ∀ a ∈ l, f a = .ok () := by
  induction l with
  | nil => exact iff_of_true rfl fun a never => absurd never List.not_mem_nil
  | cons a rest inductionHypothesis =>
    rw [List.forM_cons, bind_eq, List.forall_mem_cons, ← inductionHypothesis]
    constructor
    · rintro ⟨⟨⟩, here, later⟩
      exact ⟨here, later⟩
    · rintro ⟨here, later⟩
      exact ⟨(), here, later⟩

/-- A loop over numbers breaks no rule if none of its turns does that it comes to. -/
theorem meets_forM_range {f : Nat → Checked V Unit} {n : Nat} :
    Meets (forM (List.range n) f) ↔ ∀ k < n, (∀ j < k, f j = .ok ()) → (f k).Meets := by
  induction n with
  | zero => exact iff_of_true (meets_pure _) fun k never => absurd never (Nat.not_lt_zero k)
  | succ n inductionHypothesis =>
    have last : forM (List.range (n + 1)) f = forM (List.range n) f >>= fun _ => f n := by
      rw [List.range_succ, List.forM_append]
      simp
    rw [last, meets_bind, inductionHypothesis, Nat.forall_lt_succ_right]
    refine and_congr_right fun _ => ?_
    have before : forM (List.range n) f = .ok () ↔ ∀ j < n, f j = .ok () := by
      rw [forM_eq]
      exact forall_congr' fun j => imp_congr_left List.mem_range
    rw [← before]
    exact ⟨fun rest done => rest () done, fun rest _ done => rest done⟩

theorem meets_foldlM {body : β → α → Checked V β} (each : ∀ b a, (body b a).Meets) (l : List α)
    (b : β) : (l.foldlM body b).Meets := by
  induction l generalizing b with
  | nil => exact meets_pure b
  | cons a rest inductionHypothesis =>
    rw [List.foldlM_cons, meets_bind]
    exact ⟨each b a, fun next _ => inductionHypothesis next⟩

def Ensures : Checked V α → (α → Prop) → Prop
  | .ok a, post => post a
  | .error (.violation _), _ => False
  | .error (.halt _), _ => True

def mapViolation {W : Type} (f : V → W) : Checked V α → Checked W α
  | .ok a => .ok a
  | .error (.violation what) => .error (.violation (f what))
  | .error (.halt why) => .error (.halt why)

section Ensures

variable {post : α → Prop} {after : β → Prop}

@[simp] theorem ensures_pure {a : α} : (pure a : Checked V α).Ensures post ↔ post a := Iff.rfl

@[simp] theorem ensures_halt {why : Halt} :
    (throw (.halt why) : Checked V α).Ensures post ↔ True := Iff.rfl

theorem ensures_iff {x : Checked V α} : x.Ensures post ↔ x.Meets ∧ ∀ a, x = .ok a → post a := by
  cases x with
  | ok a =>
    constructor
    · intro holds
      refine ⟨meets_ok a, ?_⟩
      rintro _ ⟨⟩
      exact holds
    · intro both
      exact both.2 a rfl
  | error stop =>
    cases stop with
    | violation what => exact iff_of_false id fun both => both.1 what rfl
    | halt why => exact iff_of_true trivial ⟨meets_halt why, fun _ never => by cases never⟩

/-- What a computation ensures is what its first part ensures of the rest. -/
theorem ensures_bind {x : Checked V α} {f : α → Checked V β} :
    (x >>= f).Ensures after ↔ x.Ensures fun a => (f a).Ensures after := by
  cases x with
  | ok a => exact Iff.rfl
  | error stop => cases stop <;> exact Iff.rfl

theorem meets_mapViolation {W : Type} {f : V → W} {x : Checked V α} :
    (x.mapViolation f).Meets ↔ x.Meets := by
  cases x with
  | ok a => exact iff_of_true (meets_ok a) (meets_ok a)
  | error stop =>
    cases stop with
    | violation what => exact iff_of_false (not_meets rfl) (not_meets rfl)
    | halt why => exact iff_of_true (meets_halt why) (meets_halt why)

theorem mapViolation_eq {W : Type} {f : V → W} {x : Checked V α} {a : α} :
    x.mapViolation f = .ok a ↔ x = .ok a := by
  cases x with
  | ok b => simp [mapViolation]
  | error stop => cases stop <;> simp [mapViolation]

theorem ensures_congr {x : Checked V α} {post' : α → Prop}
    (same : ∀ a, x = .ok a → (post a ↔ post' a)) : x.Ensures post ↔ x.Ensures post' := by
  rw [ensures_iff, ensures_iff]
  refine and_congr_right fun _ => forall₂_congr ?_
  exact same

end Ensures

def Guards (x' : Checked V α) (x : Outcome α) : Prop := x'.Meets → x' = lift x

section Guards

variable {x : Outcome α} {x' : Checked V α} {f : α → Outcome β} {f' : α → Checked V β}

theorem guards_pure (a : α) : Guards (pure a : Checked V α) (pure a) := fun _ => rfl

theorem guards_halt (why : Halt) : Guards (throw (.halt why) : Checked V α) (throw why) :=
  fun _ => rfl

theorem Guards.bind (first : Guards x' x) (rest : ∀ a, Guards (f' a) (f a)) :
    Guards (x' >>= f') (x >>= f) := by
  intro meets
  obtain ⟨meetsFirst, meetsRest⟩ := meets_bind.mp meets
  rw [first meetsFirst] at meetsRest ⊢
  cases x with
  | ok a => exact rest a (meetsRest a rfl)
  | error why => rfl

theorem Guards.bind_pure {a : α} {y : Outcome β} (first : Guards x' (pure a))
    (rest : Guards (f' a) y) : Guards (x' >>= f') y := by
  intro meets
  obtain ⟨meetsFirst, meetsRest⟩ := meets_bind.mp meets
  rw [first meetsFirst] at meetsRest ⊢
  exact rest (meetsRest a rfl)

theorem guards_check {rule : Prop} [Decidable rule] {what : V} :
    Guards (check rule what) (pure ()) := by
  intro meets
  rw [check, if_pos (meets_check.mp meets)]
  rfl

theorem Guards.ite {condition : Prop} [Decidable condition] {y : Outcome α} {y' : Checked V α}
    (yes : Guards x' x) (no : Guards y' y) :
    Guards (if condition then x' else y') (if condition then x else y) := by
  split
  next => exact yes
  next => exact no

end Guards

/-- `while (!stop(k)) k++;`, with a check of each place that the loop looks at. -/
def scan (touch : Nat → Checked V Unit) (stop : Nat → Bool) : Nat → Nat → Checked V Nat
  | 0, _ => throw (.halt .hang)
  | fuel + 1, k => do
      touch k
      if stop k then pure k else scan touch stop fuel (k + 1)

section Scan

variable {rule : Nat → Prop} [DecidablePred rule] {what : Nat → V} {stop : Nat → Bool}
  {room fuel k : Nat}

/-- If the places with numbers below `room` are allowed, the loop has to stop there. -/
theorem meets_scan (allowed : ∀ j, rule j ↔ j < room) (start : k ≤ room)
    (enough : room < k + fuel) :
    (scan (fun j => check (rule j) (what j)) stop fuel k).Meets ↔
      ∃ j, k ≤ j ∧ j < room ∧ stop j = true := by
  induction fuel generalizing k with
  | zero => exact absurd enough (Nat.not_lt_of_le start)
  | succ fuel inductionHypothesis =>
    rw [scan, meets_check_bind, allowed]
    by_cases inside : k < room
    · rw [and_iff_right inside]
      split
      next here => exact iff_of_true (meets_pure k) ⟨k, Nat.le_refl k, inside, here⟩
      next goesOn =>
        rw [inductionHypothesis inside (by omega)]
        constructor
        · rintro ⟨j, behind, below, stops⟩
          exact ⟨j, Nat.le_of_succ_le behind, below, stops⟩
        · rintro ⟨j, behind, below, stops⟩
          refine ⟨j, Nat.lt_of_le_of_ne behind ?_, below, stops⟩
          rintro rfl
          exact goesOn stops
    · refine iff_of_false (fun both => inside both.1) ?_
      rintro ⟨j, behind, below, -⟩
      exact inside (Nat.lt_of_le_of_lt behind below)

/-- The loop stops at the first place at which it can. -/
theorem scan_eq {j : Nat} (allowed : ∀ j, rule j ↔ j < room)
    (done : scan (fun j => check (rule j) (what j)) stop fuel k = .ok j) :
    k ≤ j ∧ j < room ∧ stop j = true ∧ ∀ i, k ≤ i → i < j → stop i = false := by
  induction fuel generalizing k with
  | zero => cases done
  | succ fuel inductionHypothesis =>
    rw [scan, check_bind_eq, allowed] at done
    obtain ⟨inside, done⟩ := done
    split at done
    next here =>
      obtain rfl : k = j := pure_eq.mp done
      exact ⟨Nat.le_refl k, inside, here, fun i behind before => absurd before (by omega)⟩
    next goesOn =>
      obtain ⟨behind, below, stops, first⟩ := inductionHypothesis done
      refine ⟨Nat.le_of_succ_le behind, below, stops, ?_⟩
      intro i start before
      by_cases same : i = k
      · rw [same]
        simpa using goesOn
      · exact first i (by omega) before

theorem scan_ends (allowed : ∀ j, rule j ↔ j < room) (enough : room < k + fuel)
    (stops : ∃ j, k ≤ j ∧ j < room ∧ stop j = true) :
    ∃ j, scan (fun j => check (rule j) (what j)) stop fuel k = .ok j := by
  induction fuel generalizing k with
  | zero =>
    obtain ⟨j, behind, below, -⟩ := stops
    omega
  | succ fuel inductionHypothesis =>
    obtain ⟨j, behind, below, here⟩ := stops
    have inside : rule k := (allowed k).mpr (Nat.lt_of_le_of_lt behind below)
    by_cases now : stop k = true
    · refine ⟨k, check_bind_eq.mpr ⟨inside, ?_⟩⟩
      rw [if_pos now]
      rfl
    · have later : ∃ j, k + 1 ≤ j ∧ j < room ∧ stop j = true := by
        refine ⟨j, Nat.lt_of_le_of_ne behind ?_, below, here⟩
        rintro rfl
        exact now here
      obtain ⟨i, done⟩ := inductionHypothesis (by omega) later
      refine ⟨i, check_bind_eq.mpr ⟨inside, ?_⟩⟩
      rw [if_neg now]
      exact done

end Scan

end Checked

end SwagOS.Lib
