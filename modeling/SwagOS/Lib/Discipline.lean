import Mathlib.Order.WellFounded

/-!
# Code under a discipline

Code is what it does in order, with every branch and every number of turns of a loop
possible.  A discipline says which operations are allowed in which of its phases and what
phase follows.  Whether code follows a discipline is read off its text, one clause for each
constructor, and then holds of every rest of it that a run can reach.
-/

namespace SwagOS.Lib

inductive Code (Op : Type) where
  | skip
  | op (o : Op)
  | seq (first second : Code Op)
  | choose (left right : Code Op)
  | many (body : Code Op)
  | any (body : Nat → Code Op)
  /-- A loop that is not left. -/
  | forever

structure Discipline (Op Phase : Type) where
  allowed : Phase → Op → Prop
  next : Phase → Op → Phase

def Discipline.Permits {Op Phase : Type} (d : Discipline Op Phase) :
    Phase → List Op → Phase → Prop
  | before, [], after => after = before
  | before, o :: ops, after => d.allowed before o ∧ d.Permits (d.next before o) ops after

namespace Code

variable {Op Phase : Type}

def block : List (Code Op) → Code Op
  | [] => .skip
  | code :: rest => .seq code (block rest)

def oneOf : List (Code Op) → Code Op
  | [] => .skip
  | code :: rest => .choose code (oneOf rest)

/-- One step of the code that is still to run, and the operation that it performs. -/
inductive Next : List (Code Op) → Option Op → List (Code Op) → Prop where
  | skip {rest : List (Code Op)} : Next (.skip :: rest) none rest
  | op {o : Op} {rest : List (Code Op)} : Next (.op o :: rest) (some o) rest
  | seq {first second : Code Op} {rest : List (Code Op)} :
      Next (.seq first second :: rest) none (first :: second :: rest)
  | left {left right : Code Op} {rest : List (Code Op)} :
      Next (.choose left right :: rest) none (left :: rest)
  | right {left right : Code Op} {rest : List (Code Op)} :
      Next (.choose left right :: rest) none (right :: rest)
  | turn {body : Code Op} {rest : List (Code Op)} :
      Next (.many body :: rest) none (body :: .many body :: rest)
  | leave {body : Code Op} {rest : List (Code Op)} : Next (.many body :: rest) none rest
  | any {body : Nat → Code Op} {rest : List (Code Op)} (n : Nat) :
      Next (.any body :: rest) none (body n :: rest)

/-- `Next` where a number decides about branches and loops. -/
def step (choice : Nat) : List (Code Op) → Option (Option Op × List (Code Op))
  | [] | .forever :: _ => none
  | .skip :: rest => some (none, rest)
  | .op o :: rest => some (some o, rest)
  | .seq first second :: rest => some (none, first :: second :: rest)
  | .choose left right :: rest => some (none, (if choice = 0 then left else right) :: rest)
  | .many body :: rest => some (none, if choice = 0 then rest else body :: .many body :: rest)
  | .any body :: rest => some (none, body choice :: rest)

inductive Runs : List (Code Op) → List Op → Prop where
  | done : Runs [] []
  | silent {code rest : List (Code Op)} {ops : List Op} :
      Next code none rest → Runs rest ops → Runs code ops
  | performs {code rest : List (Code Op)} {o : Op} {ops : List Op} :
      Next code (some o) rest → Runs rest ops → Runs code (o :: ops)

def Follows (d : Discipline Op Phase) : Code Op → Phase → Phase → Prop
  | .skip, before, after => after = before
  | .op o, before, after => d.allowed before o ∧ after = d.next before o
  | .seq first second, before, after =>
      ∃ between, Follows d first before between ∧ Follows d second between after
  | .choose left right, before, after =>
      Follows d left before after ∧ Follows d right before after
  | .many body, before, after => after = before ∧ Follows d body before before
  | .any body, before, after => ∀ n, Follows d (body n) before after
  | .forever, _, _ => True

def FollowsAll (d : Discipline Op Phase) : List (Code Op) → Phase → Phase → Prop
  | [], before, after => after = before
  | code :: rest, before, after =>
      ∃ between, Follows d code before between ∧ FollowsAll d rest between after

def Keeps (d : Discipline Op Phase) (code : Code Op) (phase : Phase) : Prop :=
  Follows d code phase phase

variable {d : Discipline Op Phase} {before after phase : Phase}

theorem FollowsAll.single {code : Code Op} (keeps : Keeps d code phase) :
    FollowsAll d [code] phase phase :=
  ⟨phase, keeps, rfl⟩

theorem next_of_step {choice : Nat} {code rest : List (Code Op)} {o : Option Op}
    (stepped : step choice code = some (o, rest)) : Next code o rest := by
  match code with
  | [] | .forever :: _ => cases stepped
  | .skip :: _ =>
    cases stepped
    exact .skip
  | .op _ :: _ =>
    cases stepped
    exact .op
  | .seq _ _ :: _ =>
    cases stepped
    exact .seq
  | .choose _ _ :: _ =>
    cases stepped
    split
    · exact .left
    · exact .right
  | .many _ :: _ =>
    cases stepped
    split
    · exact .leave
    · exact .turn
  | .any _ :: _ =>
    cases stepped
    exact .any choice

/-- What is still to run follows the discipline after a step that performs nothing. -/
theorem FollowsAll.silent {code rest : List (Code Op)} (follows : FollowsAll d code before after)
    (step : Next code none rest) : FollowsAll d rest before after := by
  cases step with
  | skip =>
    obtain ⟨between, rfl, later⟩ := follows
    exact later
  | seq =>
    obtain ⟨between, ⟨middle, first, second⟩, later⟩ := follows
    exact ⟨middle, first, between, second, later⟩
  | left =>
    obtain ⟨between, ⟨left, _⟩, later⟩ := follows
    exact ⟨between, left, later⟩
  | right =>
    obtain ⟨between, ⟨_, right⟩, later⟩ := follows
    exact ⟨between, right, later⟩
  | turn =>
    obtain ⟨between, ⟨rfl, body⟩, later⟩ := follows
    exact ⟨between, body, between, ⟨rfl, body⟩, later⟩
  | leave =>
    obtain ⟨between, ⟨rfl, _⟩, later⟩ := follows
    exact later
  | any n =>
    obtain ⟨between, body, later⟩ := follows
    exact ⟨between, body n, later⟩

/-- An operation that the code comes to is allowed, and the rest follows the discipline from
the next phase. -/
theorem FollowsAll.performs {code rest : List (Code Op)} {o : Op}
    (follows : FollowsAll d code before after) (step : Next code (some o) rest) :
    d.allowed before o ∧ FollowsAll d rest (d.next before o) after := by
  cases step with
  | op =>
    obtain ⟨between, ⟨allowed, rfl⟩, later⟩ := follows
    exact ⟨allowed, later⟩

/-- The operations of a run are allowed, each in its phase, and lead to the last phase. -/
theorem FollowsAll.runs {code : List (Code Op)} {ops : List Op}
    (follows : FollowsAll d code before after) (runs : Runs code ops) :
    d.Permits before ops after := by
  induction runs generalizing before with
  | done => exact follows
  | silent step _ inductionHypothesis => exact inductionHypothesis (follows.silent step)
  | performs step _ inductionHypothesis =>
    obtain ⟨allowed, later⟩ := follows.performs step
    exact ⟨allowed, inductionHypothesis later⟩

section Keeps

variable {first second body : Code Op}

theorem Keeps.skip : Keeps d .skip phase := rfl

theorem Keeps.op {o : Op} (allowed : d.allowed phase o) (same : d.next phase o = phase) :
    Keeps d (.op o) phase :=
  ⟨allowed, same.symm⟩

theorem Keeps.seq (keepsFirst : Keeps d first phase) (keepsSecond : Keeps d second phase) :
    Keeps d (.seq first second) phase :=
  ⟨phase, keepsFirst, keepsSecond⟩

theorem Keeps.choose (keepsFirst : Keeps d first phase) (keepsSecond : Keeps d second phase) :
    Keeps d (.choose first second) phase :=
  ⟨keepsFirst, keepsSecond⟩

theorem Keeps.many (keeps : Keeps d body phase) : Keeps d (.many body) phase :=
  ⟨rfl, keeps⟩

theorem Keeps.any {body : Nat → Code Op} (keeps : ∀ n, Keeps d (body n) phase) :
    Keeps d (.any body) phase :=
  keeps

/-- Code between an operation and the one that undoes it. -/
theorem Keeps.between {enter leave : Op} (enters : d.allowed phase enter)
    (keeps : Keeps d body (d.next phase enter))
    (leaves : d.allowed (d.next phase enter) leave)
    (undone : d.next (d.next phase enter) leave = phase) :
    Keeps d (.seq (.op enter) (.seq body (.op leave))) phase :=
  ⟨d.next phase enter, ⟨enters, rfl⟩, d.next phase enter, keeps, leaves, undone.symm⟩

end Keeps

end Code

section LockOrder

variable {Agent Lock Rank : Type*} [Preorder Rank] [WellFoundedGT Rank]

/-- Where the lock an agent waits for outranks every lock it owns, nobody waits for itself and
no group of agents waits for locks of the group only. -/
theorem no_circular_wait (rank : Lock → Rank) {waits : Agent → Lock → Prop}
    {owner : Lock → Option Agent}
    (ordered : ∀ a wanted owned, waits a wanted → owner owned = some a → rank owned < rank wanted) :
    (∀ a lock, waits a lock → owner lock ≠ some a) ∧
      ¬∃ group : Set Agent, group.Nonempty ∧
        ∀ a ∈ group, ∃ lock, waits a lock ∧ ∃ b ∈ group, owner lock = some b := by
  constructor
  · intro a lock waiting owned
    exact lt_irrefl _ (ordered a lock lock waiting owned)
  · rintro ⟨group, ⟨a, member⟩, circular⟩
    -- The owner of the highest lock that is waited for waits for one that is higher.
    let wanted : Set Rank :=
      {r | ∃ a ∈ group, ∃ lock, waits a lock ∧ (∃ b ∈ group, owner lock = some b) ∧ rank lock = r}
    have nonempty : wanted.Nonempty := by
      obtain ⟨lock, waiting, owned⟩ := circular a member
      exact ⟨rank lock, a, member, lock, waiting, owned, rfl⟩
    obtain ⟨top, ⟨_, _, lock, _, ⟨b, inside, owned⟩, rfl⟩, highest⟩ :=
      WellFounded.has_min (wellFounded_gt (α := Rank)) wanted nonempty
    obtain ⟨higher, waiting, ownedInside⟩ := circular b inside
    exact highest (rank higher) ⟨b, inside, higher, waiting, ownedInside, rfl⟩
      (ordered b higher lock waiting owned)

end LockOrder

end SwagOS.Lib
