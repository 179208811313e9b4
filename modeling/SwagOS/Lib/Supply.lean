import SwagOS.Lib.Transition

/-!
# Supplies that are used up

A computation that takes from a supply as it goes, beside the same computation without it.  Where
its uses are known it returns exactly on the supplies that last for them.
-/

namespace SwagOS.Lib

variable {Supply Use V α β γ : Type}

/-- What is left after some uses; `none` where the supply does not last. -/
def takeAll (take : Supply → Use → Option Supply) (s : Supply) : List Use → Option Supply
  | [] => some s
  | use :: uses => (take s use).bind fun s => takeAll take s uses

abbrev Consumer (Supply V α : Type) := StateT Supply (Except V) α

def Erases (x : Consumer Supply V α) (c : Except V α) : Prop :=
  ∀ s a s', x s = .ok (a, s') → c = .ok a

/-- On the supplies with a property, the computation returns exactly where they last for its
uses, and then this result. -/
def Spends (take : Supply → Use → Option Supply) (P : Supply → Prop) (x : Consumer Supply V α) (a : α)
    (uses : List Use) : Prop :=
  ∀ s, P s → ∀ b s', x s = .ok (b, s') ↔ b = a ∧ takeAll take s uses = some s'

def Lasting (take : Supply → Use → Option Supply) (P : Supply → Prop) : Prop :=
  ∀ s use s', P s → take s use = some s' → P s'

def Eventually (P : Nat → Prop) : Prop := ∃ least, ∀ fuel ≥ least, P fuel

theorem except_bind_ok {x : Except V α} {f : α → Except V β} {b : β} :
    (x >>= f) = .ok b ↔ ∃ a, x = .ok a ∧ f a = .ok b := by
  cases x with
  | error what => simp [bind, Except.bind]
  | ok a => simp [bind, Except.bind]

section Consumers

variable {x : Consumer Supply V α} {f : α → Consumer Supply V β} {s s' : Supply}

theorem Consumer.bind_ok {b : β} : (x >>= f) s = .ok (b, s') ↔
    ∃ a t, x s = .ok (a, t) ∧ f a t = .ok (b, s') := by
  have unfolded : (x >>= f) s = (x s >>= fun found => f found.1 found.2) := rfl
  rw [unfolded, except_bind_ok]
  constructor
  · rintro ⟨⟨a, t⟩, first, rest⟩
    exact ⟨a, t, first, rest⟩
  · rintro ⟨a, t, first, rest⟩
    exact ⟨(a, t), first, rest⟩

theorem Consumer.lift_ok {c : Except V α} {a : α} :
    (StateT.lift c : Consumer Supply V α) s = .ok (a, s') ↔ c = .ok a ∧ s' = s := by
  have unfolded : (StateT.lift c : Consumer Supply V α) s = (c >>= fun a => pure (a, s)) := rfl
  rw [unfolded, except_bind_ok]
  constructor
  · rintro ⟨b, done, same⟩
    obtain ⟨rfl, rfl⟩ := Prod.mk.inj (Except.ok.inj same)
    exact ⟨done, rfl⟩
  · rintro ⟨done, rfl⟩
    exact ⟨a, done, rfl⟩

theorem Consumer.lift_bind (a : α) :
    ((StateT.lift (.ok a) : Consumer Supply V α) >>= f) = f a := rfl

theorem Consumer.pure_ok {a b : α} :
    (pure a : Consumer Supply V α) s = .ok (b, s') ↔ b = a ∧ s' = s := by
  have unfolded : (pure a : Consumer Supply V α) s = .ok (a, s) := rfl
  rw [unfolded, Except.ok.injEq, Prod.mk.injEq, eq_comm, eq_comm (a := s)]

end Consumers

namespace Erases

variable {x : Consumer Supply V α} {f : α → Consumer Supply V β} {c : Except V α} {g : α → Except V β}

theorem pure (a : α) : Erases (pure a : Consumer Supply V α) (pure a) := by
  intro s b s' done
  rw [(Consumer.pure_ok.mp done).1]
  rfl

theorem lift (c : Except V α) : Erases (StateT.lift c : Consumer Supply V α) c :=
  fun _ _ _ done => (Consumer.lift_ok.mp done).1

theorem bind (first : Erases x c) (rest : ∀ a, Erases (f a) (g a)) :
    Erases (x >>= f) (c >>= g) := by
  intro s b s' done
  obtain ⟨a, t, here, later⟩ := Consumer.bind_ok.mp done
  exact except_bind_ok.mpr ⟨a, first s a t here, rest a t b s' later⟩

theorem skip {d : Except V β} (rest : ∀ a, Erases (f a) d) : Erases (x >>= f) d := by
  intro s b s' done
  obtain ⟨a, t, -, later⟩ := Consumer.bind_ok.mp done
  exact rest a t b s' later

/-- A part of the result, of a computation that fails. -/
theorem map_throw {why : V} (part : α → β) {d : Except V β} :
    Erases (part <$> (StateT.lift (throw why) : Consumer Supply V α)) d := by
  intro s b s' done
  cases done

/-- A computation whose result has a part that the other does without. -/
theorem bind_map {part : α → β} {c : Except V β} {f : α → Consumer Supply V γ}
    {g : β → Except V γ} (first : Erases (part <$> x) c) (rest : ∀ a, Erases (f a) (g (part a))) :
    Erases (x >>= f) (c >>= g) := by
  intro s b s' done
  obtain ⟨a, t, here, later⟩ := Consumer.bind_ok.mp done
  have mapped : (part <$> x) s = .ok (part a, t) := by
    rw [map_eq_pure_bind]
    exact Consumer.bind_ok.mpr ⟨a, t, here, Consumer.pure_ok.mpr ⟨rfl, rfl⟩⟩
  exact except_bind_ok.mpr ⟨part a, first s _ t mapped, rest a t b s' later⟩

theorem ite {p : Prop} [Decidable p] {y : Consumer Supply V α} {d : Except V α}
    (yes : Erases x c) (no : Erases y d) : Erases (if p then x else y) (if p then c else d) := by
  split
  · exact yes
  · exact no

end Erases

section Uses

variable {take : Supply → Use → Option Supply} {P : Supply → Prop} {s s' : Supply}

theorem takeAll_append (uses uses' : List Use) :
    takeAll take s (uses ++ uses') = (takeAll take s uses).bind fun s => takeAll take s uses' := by
  induction uses generalizing s with
  | nil => rfl
  | cons use uses inductionHypothesis =>
    rw [List.cons_append, takeAll, takeAll]
    cases take s use with
    | none => rfl
    | some s => exact inductionHypothesis

theorem Lasting.takeAll (lasting : Lasting take P) {uses : List Use} (before : P s)
    (taken : takeAll take s uses = some s') : P s' := by
  induction uses generalizing s with
  | nil => exact Option.some.inj taken ▸ before
  | cons use uses inductionHypothesis =>
    obtain ⟨t, first, rest⟩ := Option.bind_eq_some_iff.mp taken
    exact inductionHypothesis (lasting s use t before first) rest

theorem Lasting.and {Q : Supply → Prop} (first : Lasting take P) (second : Lasting take Q) :
    Lasting take fun s => P s ∧ Q s :=
  fun s use s' both taken => ⟨first s use s' both.1 taken, second s use s' both.2 taken⟩

end Uses

namespace Spends

variable {take : Supply → Use → Option Supply} {P Q : Supply → Prop} {x : Consumer Supply V α}
  {f : α → Consumer Supply V β} {a : α} {b : β} {uses uses' : List Use}

theorem pure (a : α) : Spends take P (pure a : Consumer Supply V α) a [] := by
  intro s _ b s'
  rw [Consumer.pure_ok, takeAll, Option.some.injEq, eq_comm (a := s)]

theorem lift {c : Except V α} (done : c = .ok a) : Spends take P (StateT.lift c) a [] := by
  intro s _ b s'
  rw [Consumer.lift_ok, takeAll, Option.some.injEq, eq_comm (a := s), done, Except.ok.injEq,
    eq_comm (a := a)]

theorem bind (lasting : Lasting take P) (first : Spends take P x a uses)
    (rest : Spends take P (f a) b uses') : Spends take P (x >>= f) b (uses ++ uses') := by
  intro s holds b' s'
  rw [Consumer.bind_ok, takeAll_append, Option.bind_eq_some_iff]
  constructor
  · rintro ⟨a', t, here, later⟩
    obtain ⟨rfl, taken⟩ := (first s holds a' t).mp here
    obtain ⟨same, more⟩ := (rest t (lasting.takeAll holds taken) b' s').mp later
    exact ⟨same, t, taken, more⟩
  · rintro ⟨same, t, taken, more⟩
    refine ⟨a, t, (first s holds a t).mpr ⟨rfl, taken⟩, ?_⟩
    exact (rest t (lasting.takeAll holds taken) b' s').mpr ⟨same, more⟩

theorem mono (spends : Spends take P x a uses) (stronger : ∀ s, Q s → P s) :
    Spends take Q x a uses :=
  fun s holds => spends s (stronger s holds)

end Spends

namespace Eventually

variable {P Q : Nat → Prop}

theorem of_forall (always : ∀ fuel, P fuel) : Eventually P := ⟨0, fun fuel _ => always fuel⟩

theorem and (first : Eventually P) (second : Eventually Q) :
    Eventually fun fuel => P fuel ∧ Q fuel := by
  obtain ⟨least, first⟩ := first
  obtain ⟨least', second⟩ := second
  refine ⟨least + least', fun fuel enough => ⟨?_, ?_⟩⟩
  · exact first fuel (by omega)
  · exact second fuel (by omega)

theorem mono (eventually : Eventually P) (weaker : ∀ fuel, P fuel → Q fuel) : Eventually Q := by
  obtain ⟨least, holds⟩ := eventually
  exact ⟨least, fun fuel enough => weaker fuel (holds fuel enough)⟩

theorem succ (eventually : Eventually fun fuel => P (fuel + 1)) : Eventually P := by
  obtain ⟨least, holds⟩ := eventually
  refine ⟨least + 1, fun fuel enough => ?_⟩
  obtain ⟨n, rfl⟩ := Nat.exists_eq_add_of_le' (Nat.one_le_of_lt enough)
  exact holds n (Nat.le_of_succ_le_succ enough)

end Eventually

section Fuel

variable {take : Supply → Use → Option Supply} {P : Supply → Prop}
  {x : Nat → Consumer Supply V α} {a : α} {uses : List Use} {s s' : Supply}

/-- With enough fuel the computation returns exactly on a supply that lasts. -/
theorem returns_iff_lasts (spends : Eventually fun fuel => Spends take P (x fuel) a uses)
    (holds : P s) {b : α} : (Eventually fun fuel => x fuel s = .ok (b, s')) ↔
      b = a ∧ takeAll take s uses = some s' := by
  obtain ⟨least, spends⟩ := spends
  constructor
  · rintro ⟨least', done⟩
    have enough := done (least + least') (Nat.le_add_left _ _)
    exact (spends _ (Nat.le_add_right _ _) s holds b s').mp enough
  · intro lasts
    exact ⟨least, fun fuel enough => (spends fuel enough s holds b s').mpr lasts⟩

end Fuel

end SwagOS.Lib
