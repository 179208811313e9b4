import SwagOS.Lib.Bytes
import SwagOS.Mem.PageTables.Walk

/-!
# Copies from and to user memory

`FetchStruct`, `FetchString` and `WriteStruct` test an address range in the tables of the calling
thread, and copy with the tables loaded that they are given.  Where the processor finds no page
it raises a fault, whose handler does not return.
-/

namespace SwagOS.Kernel

open SwagOS.Lib SwagOS.Mem ThreadPagetables

/-- The tables of a process, and where they are. -/
structure LoadedTables where
  base : Nat
  pgdir : ThreadPagetables

namespace LoadedTables

section Access

variable (caller : LoadedTables) (view : View) (pagetable : LoadedTables) (addr : Nat)

def translate (pagetable : LoadedTables) (va : Nat) : Outcome Paging.Translation :=
  match Paging.walk (pagetable.pgdir.tableAt pagetable.base view) va pagetable.base with
  | none => throw (.panic "Page Fault Interrupt")
  | some t => pure t

/-- `FetchStruct`; `none` is false. -/
def fetchStruct (size : Nat) (ram out : Bytes) : Outcome (Option Bytes) :=
  if caller.pgdir.fetchStruct caller.base view addr size then do
    let out ← (List.range size).foldlM (fun out k => do
      let t ← pagetable.translate view ((addr + k) % 2 ^ 64)
      pure (Function.update out k (ram t.physical))) out
    pure (some out)
  else pure none

/-- The loop of `FetchString`, which ends with the string. -/
def copyString (ram : Bytes) : Nat → Nat → Bytes → Outcome Bytes
  | 0, _, out => pure out
  | left + 1, i, out => do
      let t ← pagetable.translate view ((addr + i) % 2 ^ 64)
      if ram t.physical = 0 then pure out
      else copyString ram left (i + 1) (Function.update out i (ram t.physical))

/-- `FetchString`; `none` is false. -/
def fetchString (maxLen : Nat) (ram out : Bytes) : Outcome (Option Bytes) :=
  if caller.pgdir.fetchStruct caller.base view addr maxLen then do
    let out ← pagetable.copyString view addr ram maxLen 0 out
    pure (some out)
  else pure none

/-- `WriteStruct`; `none` is false. -/
def writeStruct (src : Bytes) (size : Nat) (ram : Bytes) : Outcome (Option Bytes) :=
  if caller.pgdir.fetchStruct caller.base view addr size then do
    let ram ← (List.range size).foldlM (fun ram k => do
      let t ← pagetable.translate view ((addr + k) % 2 ^ 64)
      pure (Function.update ram t.physical (src k))) ram
    pure (some ram)
  else pure none

def Present (pagetable : LoadedTables) (va : Nat) : Prop :=
  (Paging.walk (pagetable.pgdir.tableAt pagetable.base view) va pagetable.base).isSome = true

instance (va : Nat) : Decidable (pagetable.Present view va) := inferInstanceAs (Decidable (_ = _))

/-- The offsets that the loop of `FetchString` looks at, from one on, up to one that faults. -/
def stringOffsets (ram : Bytes) : Nat → Nat → List Nat
  | 0, _ => []
  | left + 1, i =>
      match pagetable.translate view ((addr + i) % 2 ^ 64) with
      | .error _ => [i]
      | .ok t => if ram t.physical = 0 then [i] else i :: stringOffsets ram left (i + 1)

end Access

section Returns

variable {caller pagetable : LoadedTables} {view : View} {addr size va : Nat} {ram : Bytes}

theorem fetchStruct_some {out result : Bytes}
    (done : caller.fetchStruct view pagetable addr size ram out = .ok (some result)) :
    caller.pgdir.fetchStruct caller.base view addr size = true := by
  rw [fetchStruct] at done
  split at done
  next checked => exact checked
  next => cases done

theorem present_iff : pagetable.Present view va ↔ ∃ t, pagetable.translate view va = .ok t := by
  rw [Present, translate]
  cases Paging.walk (pagetable.pgdir.tableAt pagetable.base view) va pagetable.base with
  | none => exact iff_of_false Bool.false_ne_true (fun ⟨_, never⟩ => by cases never)
  | some t => exact iff_of_true rfl ⟨t, rfl⟩

theorem foldlM_present {α : Type} (next : α → Nat → Paging.Translation → α) (offsets : List Nat)
    (a : α) :
    (∃ a', offsets.foldlM (fun a k => do
      let t ← pagetable.translate view ((addr + k) % 2 ^ 64)
      pure (next a k t)) a = .ok a') ↔
      ∀ k ∈ offsets, pagetable.Present view ((addr + k) % 2 ^ 64) := by
  induction offsets generalizing a with
  | nil => exact iff_of_true ⟨a, rfl⟩ (fun _ => nofun)
  | cons k rest inductionHypothesis =>
    rw [List.foldlM_cons, List.forall_mem_cons, present_iff]
    constructor
    · rintro ⟨a', done⟩
      obtain ⟨b, first, later⟩ := Outcome.bind_ok.mp done
      obtain ⟨t, found, -⟩ := Outcome.bind_ok.mp first
      exact ⟨⟨t, found⟩, (inductionHypothesis b).mp ⟨a', later⟩⟩
    · rintro ⟨⟨t, found⟩, later⟩
      obtain ⟨a', done⟩ := (inductionHypothesis (next a k t)).mpr later
      refine ⟨a', Outcome.bind_ok.mpr ⟨next a k t, ?_, done⟩⟩
      exact Outcome.bind_ok.mpr ⟨t, found, rfl⟩

theorem copies_iff {α : Type} {test : Bool} {copy : Outcome α} :
    (∃ a, (if test then do
      let a ← copy
      pure (some a) else pure none : Outcome (Option α)) = .ok (some a)) ↔
      test = true ∧ ∃ a, copy = .ok a := by
  cases test with
  | false =>
    refine iff_of_false ?_ (fun both => Bool.noConfusion both.1)
    rintro ⟨a, ⟨⟩⟩
  | true =>
    rw [and_iff_right rfl]
    apply exists_congr
    intro a
    constructor
    · intro done
      obtain ⟨b, copied, same⟩ := Outcome.bind_ok.mp done
      cases same
      exact copied
    · intro copied
      exact Outcome.bind_ok.mpr ⟨a, copied, rfl⟩

/-- `FetchStruct` returns true if its tests pass and the copy finds all pages. -/
theorem fetchStruct_returns (out : Bytes) :
    (∃ result, caller.fetchStruct view pagetable addr size ram out = .ok (some result)) ↔
      caller.pgdir.fetchStruct caller.base view addr size = true ∧
        ∀ k < size, pagetable.Present view ((addr + k) % 2 ^ 64) := by
  have copied := @foldlM_present pagetable view addr _
    (fun out k t => Function.update out k (ram t.physical)) (List.range size) out
  simp only [List.mem_range] at copied
  rw [← copied]
  exact copies_iff

theorem writeStruct_returns (src : Bytes) :
    (∃ result, caller.writeStruct view pagetable addr src size ram = .ok (some result)) ↔
      caller.pgdir.fetchStruct caller.base view addr size = true ∧
        ∀ k < size, pagetable.Present view ((addr + k) % 2 ^ 64) := by
  have copied := @foldlM_present pagetable view addr _
    (fun ram k t => Function.update ram t.physical (src k)) (List.range size) ram
  simp only [List.mem_range] at copied
  rw [← copied]
  exact copies_iff

theorem copyString_ok (left i : Nat) (out : Bytes) :
    (∃ result, pagetable.copyString view addr ram left i out = .ok result) ↔
      ∀ k ∈ pagetable.stringOffsets view addr ram left i,
        pagetable.Present view ((addr + k) % 2 ^ 64) := by
  induction left generalizing i out with
  | zero => exact iff_of_true ⟨out, rfl⟩ (fun _ => nofun)
  | succ left inductionHypothesis =>
    have here : pagetable.Present view ((addr + i) % 2 ^ 64) ↔ _ := present_iff
    rw [copyString, stringOffsets]
    cases found : pagetable.translate view ((addr + i) % 2 ^ 64) with
    | error why =>
      refine iff_of_false (fun ⟨_, never⟩ => by cases never) fun all => ?_
      obtain ⟨t, never⟩ := here.mp (all i List.mem_cons_self)
      rw [found] at never
      cases never
    | ok t =>
      have present := here.mpr ⟨t, found⟩
      dsimp only [bind, Except.bind]
      by_cases ends : ram t.physical = 0
      · rw [if_pos ends, if_pos ends]
        refine iff_of_true ⟨out, rfl⟩ fun k member => ?_
        obtain rfl := List.mem_singleton.mp member
        exact present
      · rw [if_neg ends, if_neg ends, List.forall_mem_cons, and_iff_right present]
        exact inductionHypothesis _ _

/-- `FetchString` returns true if its tests pass and the string is found as far as it goes. -/
theorem fetchString_returns (out : Bytes) :
    (∃ result, caller.fetchString view pagetable addr size ram out = .ok (some result)) ↔
      caller.pgdir.fetchStruct caller.base view addr size = true ∧
        ∀ k ∈ pagetable.stringOffsets view addr ram size 0,
          pagetable.Present view ((addr + k) % 2 ^ 64) := by
  simp only [fetchString, copies_iff, copyString_ok]

theorem stringOffsets_first (positive : 0 < size) :
    0 ∈ pagetable.stringOffsets view addr ram size 0 := by
  obtain ⟨left, rfl⟩ := Nat.exists_eq_add_of_le' positive
  rw [stringOffsets]
  split
  · exact List.mem_cons_self
  · split
    · exact List.mem_cons_self
    · exact List.mem_cons_self

end Returns

end LoadedTables

end SwagOS.Kernel
