import Mathlib.Data.Set.Defs
import Mathlib.Logic.Function.Basic
import SwagOS.Lib.Paging

/-!
# Tables of a known layout

Where the tables of each level are known, and an entry is null, a page, or a pointer to a
table of the next level, there are few ways that a walk can take.
-/

namespace SwagOS.Lib.Paging

section Page

variable (tables : Tables) (va : Nat)

def framed (e : BitVec 64) (level va : Nat) : Nat × Nat :=
  (address e / span level * span level, va % span level)

def pageFrom : Nat → Nat → Option (Nat × Nat)
  | 0, table =>
      let e := tables table (index 0 va)
      if present e then some (framed e 0 va) else none
  | level + 1, table =>
      let e := tables table (index (level + 1) va)
      if present e then
        if large e ∧ level + 1 < 3 then some (framed e (level + 1) va)
        else pageFrom level (address e)
      else none

/-- The page that a walk ends in: its frame, and the offset of the address. -/
def page (root : Nat) : Option (Nat × Nat) :=
  if Canonical va then pageFrom tables va 3 root else none

def directory (root : Nat) : Option Nat :=
  let e := tables root (index 3 va)
  if present e then
    let e' := tables (address e) (index 2 va)
    if present e' ∧ large e' = false then some (address e') else none
  else none

def reservedClearFrom : Nat → Nat → Bool
  | 0, _ => true
  | level + 1, table =>
      let e := tables table (index (level + 1) va)
      if large e ∧ level + 1 < 3 then address e % span (level + 1) / 2 ^ 13 = 0
      else reservedClearFrom level (address e)

def translate (root : Nat) : Option Nat :=
  if reservedClearFrom tables va 3 root then (walk tables va root).map Translation.physical
  else none

end Page

variable {tables : Tables} {va level table : Nat} {e : BitVec 64}

theorem walkFrom_page_physical (tables : Tables) (va level table : Nat) :
    (walkFrom tables va level table).map Translation.physical =
      (pageFrom tables va level table).map fun page => page.1 + page.2 := by
  induction level generalizing table with
  | zero =>
    rw [walkFrom, pageFrom]
    split
    · rfl
    · rfl
  | succ level inductionHypothesis =>
    rw [walkFrom, pageFrom]
    split
    · split
      · rfl
      · rw [← inductionHypothesis, Option.map_map]
        rfl
    · rfl

theorem walk_page_physical (tables : Tables) (va root : Nat) :
    (walk tables va root).map Translation.physical =
      (page tables va root).map fun page => page.1 + page.2 := by
  rw [walk, page]
  split
  · exact walkFrom_page_physical tables va 3 root
  · rfl

theorem walk_isSome_iff {root : Nat} :
    (walk tables va root).isSome = true ↔
      Canonical va ∧ (pageFrom tables va 3 root).isSome = true := by
  have same := congrArg Option.isSome (walk_page_physical tables va root)
  rw [Option.isSome_map, Option.isSome_map, page] at same
  rw [same]
  split
  next canonical => exact (and_iff_right canonical).symm
  next other => exact iff_of_false (by decide) fun both => other both.1

/-- An entry leads to a table. -/
structure Points (e : BitVec 64) (table : Nat) : Prop where
  present : present e = true
  notLarge : large e = false
  address : address e = table
  below : e.toNat < 2 ^ 52

structure MapsLarge (e : BitVec 64) : Prop where
  present : present e = true
  large : large e = true
  below : e.toNat < 2 ^ 52

structure MapsPage (e : BitVec 64) : Prop where
  present : present e = true
  below : e.toNat < 2 ^ 52

theorem pageFrom_null (null : tables table (index level va) = 0#64) :
    pageFrom tables va level table = none := by
  cases level with
  | zero => simp [pageFrom, null, present]
  | succ level => simp [pageFrom, null, present]

theorem pageFrom_points {next : Nat} (points : Points (tables table (index (level + 1) va)) next) :
    pageFrom tables va (level + 1) table = pageFrom tables va level next := by
  rw [pageFrom, if_pos points.present, if_neg, points.address]
  rw [points.notLarge]
  exact fun both => Bool.noConfusion both.1

theorem pageFrom_large (maps : MapsLarge (tables table (index 1 va))) :
    pageFrom tables va 1 table = some (framed (tables table (index 1 va)) 1 va) := by
  rw [pageFrom, if_pos maps.present, if_pos ⟨maps.large, by decide⟩]

theorem pageFrom_page (maps : MapsPage (tables table (index 0 va))) :
    pageFrom tables va 0 table = some (framed (tables table (index 0 va)) 0 va) := by
  rw [pageFrom, if_pos maps.present]

abbrev Layout := Nat → Set Nat

def Layout.Separate (layout : Layout) : Prop :=
  ∀ level level' table, table ∈ layout level → table ∈ layout level' → level = level'

def Fits (layout : Layout) : Nat → BitVec 64 → Prop
  | 0, e => e = 0#64 ∨ MapsPage e
  | level + 1, e => e = 0#64 ∨ (level = 0 ∧ MapsLarge e) ∨ ∃ table ∈ layout level, Points e table

def Formed (layout : Layout) (tables : Tables) : Prop :=
  ∀ level, ∀ table ∈ layout level, ∀ i < 512, Fits layout level (tables table i)

variable {layout : Layout}

theorem fits_null (layout : Layout) (level : Nat) : Fits layout level 0#64 := by
  cases level with
  | zero => exact .inl rfl
  | succ level => exact .inl rfl

/-- Tables stay formed when the entries of one are replaced. -/
theorem Formed.update {entries : Nat → BitVec 64} (separate : layout.Separate)
    (formed : Formed layout tables) (level : Nat) (isTable : table ∈ layout level)
    (fits : ∀ i < 512, Fits layout level (entries i)) :
    Formed layout (Function.update tables table entries) := by
  intro level' table' isTable' i inside
  by_cases same : table' = table
  · subst same
    rw [Function.update_self, separate level' level table' isTable' isTable]
    exact fits i inside
  · rw [Function.update_of_ne same]
    exact formed level' table' isTable' i inside

theorem Formed.store (separate : layout.Separate) (formed : Formed layout tables) (level : Nat)
    (isTable : table ∈ layout level) (i : Nat) (fits : Fits layout level e) :
    Formed layout (Function.update tables table (Function.update (tables table) i e)) := by
  apply formed.update separate level isTable
  intro j inside
  by_cases same : j = i
  · subst same
    rw [Function.update_self]
    exact fits
  · rw [Function.update_of_ne same]
    exact formed level table isTable j inside

theorem index_lt (level va : Nat) : index level va < 512 := Nat.mod_lt _ (by decide)

inductive Way (layout : Layout) (tables : Tables) (va root : Nat) : Prop where
  | noPointers (first : tables root (index 3 va) = 0#64)
  | noDirectory (pointers : Nat) (first : Points (tables root (index 3 va)) pointers)
      (isTable : pointers ∈ layout 2) (second : tables pointers (index 2 va) = 0#64)
  | directory (pointers pd : Nat) (first : Points (tables root (index 3 va)) pointers)
      (isTable : pointers ∈ layout 2) (second : Points (tables pointers (index 2 va)) pd)
      (isDirectory : pd ∈ layout 1)

/-- From a page directory on there is nothing, a large page, or a table with or without the
page. -/
inductive LastWay (layout : Layout) (tables : Tables) (va pd : Nat) : Prop where
  | noTable (third : tables pd (index 1 va) = 0#64)
  | large (third : MapsLarge (tables pd (index 1 va)))
  | noPage (pt : Nat) (third : Points (tables pd (index 1 va)) pt) (isTable : pt ∈ layout 0)
      (last : tables pt (index 0 va) = 0#64)
  | page (pt : Nat) (third : Points (tables pd (index 1 va)) pt) (isTable : pt ∈ layout 0)
      (last : MapsPage (tables pt (index 0 va)))

theorem Formed.way {root : Nat} (formed : Formed layout tables) (isRoot : root ∈ layout 3)
    (va : Nat) : Way layout tables va root := by
  rcases formed 3 root isRoot _ (index_lt 3 va) with null | ⟨none, -⟩ | ⟨pointers, isTable, first⟩
  · exact .noPointers null
  · cases none
  · rcases formed 2 pointers isTable _ (index_lt 2 va) with
      null | ⟨none, -⟩ | ⟨pd, isDirectory, second⟩
    · exact .noDirectory pointers first isTable null
    · cases none
    · exact .directory pointers pd first isTable second isDirectory

theorem Formed.lastWay {pd : Nat} (formed : Formed layout tables) (isDirectory : pd ∈ layout 1)
    (va : Nat) : LastWay layout tables va pd := by
  rcases formed 1 pd isDirectory _ (index_lt 1 va) with null | ⟨-, isLarge⟩ | ⟨pt, isTable, third⟩
  · exact .noTable null
  · exact .large isLarge
  · rcases formed 0 pt isTable _ (index_lt 0 va) with null | isPage
    · exact .noPage pt third isTable null
    · exact .page pt third isTable isPage

theorem directory_noPointers {root : Nat} (first : tables root (index 3 va) = 0#64) :
    directory tables va root = none := by
  rw [directory, first]
  rfl

theorem directory_noDirectory {root pointers : Nat}
    (first : Points (tables root (index 3 va)) pointers)
    (second : tables pointers (index 2 va) = 0#64) : directory tables va root = none := by
  simp only [directory, if_pos first.present, first.address, second]
  rfl

theorem directory_eq {root pointers pd : Nat}
    (first : Points (tables root (index 3 va)) pointers)
    (second : Points (tables pointers (index 2 va)) pd) : directory tables va root = some pd := by
  simp only [directory, if_pos first.present, first.address,
    if_pos (And.intro second.present second.notLarge), second.address]

end SwagOS.Lib.Paging
