import Mathlib.Algebra.Group.Nat.Defs
import Mathlib.Data.Nat.Bitwise
import Mathlib.Tactic.IntervalCases

/-!
# Four-level paging

The translation of virtual addresses by tables of 512 entries.  An entry that is present
points to the table of the next level, to a large page, or to a page.
-/

namespace SwagOS.Lib.Paging

abbrev Tables := Nat → Nat → BitVec 64

def present (e : BitVec 64) : Bool := e.getLsbD 0
def writable (e : BitVec 64) : Bool := e.getLsbD 1
def user (e : BitVec 64) : Bool := e.getLsbD 2
def large (e : BitVec 64) : Bool := e.getLsbD 7

def address (e : BitVec 64) : Nat := e.toNat / 2 ^ 12 * 2 ^ 12 % 2 ^ 52

def span (level : Nat) : Nat := 2 ^ (12 + 9 * level)

def index (level va : Nat) : Nat := va / span level % 512

def Canonical (va : Nat) : Prop := va < 2 ^ 47 ∨ 2 ^ 64 - 2 ^ 47 ≤ va ∧ va < 2 ^ 64

instance (va : Nat) : Decidable (Canonical va) := inferInstanceAs (Decidable (_ ∨ _))

structure Translation where
  physical : Nat
  writable : Bool
  user : Bool
  deriving DecidableEq

namespace Translation

def under (e : BitVec 64) (t : Translation) : Translation :=
  { t with
    writable := Paging.writable e && t.writable
    user := Paging.user e && t.user }

end Translation

/-- The page that the last entry maps; a large one is aligned to its size. -/
def leaf (e : BitVec 64) (level va : Nat) : Translation where
  physical := address e / span level * span level + va % span level
  writable := writable e
  user := user e

section Walk

variable (tables : Tables) (va : Nat)

def walkFrom : Nat → Nat → Option Translation
  | 0, table =>
      let e := tables table (index 0 va)
      if present e then some (leaf e 0 va) else none
  | level + 1, table =>
      let e := tables table (index (level + 1) va)
      if present e then
        if large e ∧ level + 1 < 3 then some (leaf e (level + 1) va)
        else (walkFrom level (address e)).map (Translation.under e)
      else none

def walk (root : Nat) : Option Translation :=
  if Canonical va then walkFrom tables va 3 root else none

end Walk

variable {tables : Tables} {va level table : Nat}

theorem walkFrom_absent (absent : present (tables table (index level va)) = false) :
    walkFrom tables va level table = none := by
  cases level with
  | zero => simp [walkFrom, absent]
  | succ level => simp [walkFrom, absent]

theorem walkFrom_page (here : present (tables table (index 0 va)) = true) :
    walkFrom tables va 0 table = some (leaf (tables table (index 0 va)) 0 va) := if_pos here

theorem walkFrom_large (here : present (tables table (index (level + 1) va)) = true)
    (isLarge : large (tables table (index (level + 1) va)) = true) (low : level + 1 < 3) :
    walkFrom tables va (level + 1) table =
      some (leaf (tables table (index (level + 1) va)) (level + 1) va) := by
  rw [walkFrom, if_pos here, if_pos ⟨isLarge, low⟩]

theorem walkFrom_table (here : present (tables table (index (level + 1) va)) = true)
    (notLarge : large (tables table (index (level + 1) va)) = false) :
    walkFrom tables va (level + 1) table =
      (walkFrom tables va level (address (tables table (index (level + 1) va)))).map
        (Translation.under (tables table (index (level + 1) va))) := by
  rw [walkFrom, if_pos here, if_neg]
  rw [notLarge]
  exact fun both => Bool.noConfusion both.1

theorem present_of_walkFrom {t : Translation} (walked : walkFrom tables va level table = some t) :
    present (tables table (index level va)) = true := by
  by_contra absent
  rw [walkFrom_absent (Bool.eq_false_of_not_eq_true absent)] at walked
  cases walked

theorem leaf_physical_lt (e : BitVec 64) (low : level < 3) : (leaf e level va).physical < 2 ^ 52 := by
  have bound : address e < 2 ^ 52 := Nat.mod_lt _ (by decide)
  rw [leaf, span]
  interval_cases level <;> simp only <;> omega

theorem walkFrom_physical_lt {t : Translation} (walked : walkFrom tables va level table = some t) :
    t.physical < 2 ^ 52 := by
  induction level generalizing table t with
  | zero =>
    rw [walkFrom_page (present_of_walkFrom walked)] at walked
    cases walked
    exact leaf_physical_lt _ (by decide)
  | succ level inductionHypothesis =>
    have here := present_of_walkFrom walked
    rw [walkFrom, if_pos here] at walked
    split at walked
    next isLeaf =>
      cases walked
      exact leaf_physical_lt _ isLeaf.2
    next =>
      obtain ⟨below, reached, rfl⟩ := Option.map_eq_some_iff.mp walked
      have same : (Translation.under (tables table (index (level + 1) va)) below).physical =
          below.physical := rfl
      rw [same]
      exact inductionHypothesis reached

theorem walk_some {root : Nat} {t : Translation} (walked : walk tables va root = some t) :
    Canonical va ∧ walkFrom tables va 3 root = some t := by
  rw [walk] at walked
  split at walked
  next canonical => exact ⟨canonical, walked⟩
  next => cases walked

def UserReaches (tables : Tables) (va level table : Nat) : Prop :=
  ∃ t, walkFrom tables va level table = some t ∧ t.user = true

theorem userReaches_page (here : present (tables table (index 0 va)) = true) :
    UserReaches tables va 0 table ↔ user (tables table (index 0 va)) = true := by
  rw [UserReaches, walkFrom_page here]
  constructor
  · rintro ⟨t, ⟨⟩, isUser⟩
    exact isUser
  · intro isUser
    exact ⟨_, rfl, isUser⟩

theorem userReaches_table (here : present (tables table (index (level + 1) va)) = true)
    (notLarge : large (tables table (index (level + 1) va)) = false) :
    UserReaches tables va (level + 1) table ↔
      user (tables table (index (level + 1) va)) = true ∧
        UserReaches tables va level (address (tables table (index (level + 1) va))) := by
  rw [UserReaches, walkFrom_table here notLarge]
  constructor
  · rintro ⟨t, walked, isUser⟩
    obtain ⟨below, reached, rfl⟩ := Option.map_eq_some_iff.mp walked
    obtain ⟨first, rest⟩ := Bool.and_eq_true_iff.mp isUser
    exact ⟨first, below, reached, rest⟩
  · rintro ⟨first, below, reached, rest⟩
    exact ⟨_, Option.map_eq_some_iff.mpr ⟨below, reached, rfl⟩,
      Bool.and_eq_true_iff.mpr ⟨first, rest⟩⟩

theorem not_userReaches (supervisor : user (tables table (index level va)) = false) :
    ¬UserReaches tables va level table := by
  rintro ⟨t, walked, isUser⟩
  have here := present_of_walkFrom walked
  cases level with
  | zero =>
    rw [walkFrom_page here] at walked
    cases walked
    exact Bool.noConfusion (supervisor.symm.trans isUser)
  | succ level =>
    rw [walkFrom, if_pos here] at walked
    split at walked
    · cases walked
      exact Bool.noConfusion (supervisor.symm.trans isUser)
    · obtain ⟨below, -, rfl⟩ := Option.map_eq_some_iff.mp walked
      rw [Translation.under, supervisor] at isUser
      exact absurd isUser (by simp)

theorem userReaches_absent (absent : present (tables table (index level va)) = false) :
    ¬UserReaches tables va level table := by
  rintro ⟨t, walked, -⟩
  rw [walkFrom_absent absent] at walked
  cases walked

theorem index_congr {va va' : Nat} (same : va / 2 ^ 12 = va' / 2 ^ 12) (level : Nat) :
    index level va = index level va' := by
  have split : ∀ x, x / span level = x / 2 ^ 12 / 2 ^ (9 * level) := by
    intro x
    rw [Nat.div_div_eq_div_mul, ← Nat.pow_add, span]
  rw [index, index, split, split, same]

theorem walkFrom_congr {va va' : Nat} (same : va / 2 ^ 12 = va' / 2 ^ 12) (level table : Nat) :
    (walkFrom tables va level table).map Translation.user =
      (walkFrom tables va' level table).map Translation.user := by
  induction level generalizing table with
  | zero =>
    simp only [walkFrom, index_congr same]
    split
    · rfl
    · rfl
  | succ level inductionHypothesis =>
    simp only [walkFrom, index_congr same]
    split
    · split
      · rfl
      · have rights : ∀ e, Translation.user ∘ Translation.under e =
            (user e && ·) ∘ Translation.user := fun e => rfl
        simp only [Option.map_map, rights]
        rw [← Option.map_map, ← Option.map_map, inductionHypothesis]
    · rfl

theorem canonical_congr {va va' : Nat} (same : va / 2 ^ 12 = va' / 2 ^ 12) :
    Canonical va ↔ Canonical va' := by
  rw [Canonical, Canonical]
  omega

theorem walk_congr {va va' : Nat} (same : va / 2 ^ 12 = va' / 2 ^ 12) (root : Nat) :
    (walk tables va root).map Translation.user = (walk tables va' root).map Translation.user := by
  rw [walk, walk]
  by_cases canonical : Canonical va
  · rw [if_pos canonical, if_pos ((canonical_congr same).mp canonical)]
    exact walkFrom_congr same 3 root
  · rw [if_neg canonical, if_neg (mt (canonical_congr same).mpr canonical)]

end SwagOS.Lib.Paging
