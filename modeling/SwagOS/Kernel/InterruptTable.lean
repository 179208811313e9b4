import Mathlib.Data.BitVec
import Mathlib.Data.List.Basic
import Mathlib.Data.List.Nodup
import Mathlib.Logic.Function.Basic

/-!
# The interrupt descriptor table

`SetIDT_Descriptor` and `build_IDT`, with the bits of a descriptor as the CPU reads them, and
for each vector the stub that the CPU comes to.  A stub pushes an error code of its own or
relies on the one of the CPU.
-/

namespace SwagOS.Kernel

/-- `InterruptDescriptor64` -/
structure InterruptDescriptor64 where
  offsetLow : BitVec 16
  selector : BitVec 16
  ist : BitVec 8
  typeAttributes : BitVec 8
  offsetMid : BitVec 16
  offsetHigh : BitVec 32
  zero : BitVec 32
  deriving DecidableEq

def idtDescTypeInt : BitVec 8 := 0xe

def idtDescTypeTrap : BitVec 8 := 0xf

def idtDescDplUser : BitVec 8 := 1 <<< 6 ||| 1 <<< 5

def idtDescDplRoot : BitVec 8 := 0 <<< 6 ||| 0 <<< 5

def idtPresentFlag : BitVec 8 := 0x80

namespace InterruptDescriptor64

def cleared : InterruptDescriptor64 := ⟨0, 0, 0, 0, 0, 0, 0⟩

/-- What `SetIDT_Descriptor` does to an entry; the attributes are added to those that are
there. -/
def set (entry : InterruptDescriptor64) (isrAddress : BitVec 64) (userAccessible trapGate : Bool) :
    InterruptDescriptor64 :=
  let attributes := entry.typeAttributes
  let attributes := attributes ||| if userAccessible then idtDescDplUser else idtDescDplRoot
  let attributes := attributes ||| if trapGate then idtDescTypeTrap else idtDescTypeInt
  { offsetLow := (isrAddress &&& 0xffff).setWidth 16
    offsetMid := (isrAddress >>> 16).setWidth 16
    offsetHigh := (isrAddress >>> 32).setWidth 32
    typeAttributes := attributes ||| idtPresentFlag
    selector := 0x8
    zero := 0x0
    ist := 0 }

def packed (entry : InterruptDescriptor64) : BitVec 128 :=
  entry.zero ++ entry.offsetHigh ++ entry.offsetMid ++ entry.typeAttributes ++ entry.ist ++
    entry.selector ++ entry.offsetLow

end InterruptDescriptor64

/-- A gate as the CPU reads it. -/
structure Gate where
  offset : BitVec 64
  selector : BitVec 16
  ist : BitVec 3
  type : BitVec 4
  dpl : BitVec 2
  present : Bool
  deriving DecidableEq

def Gate.read (raw : BitVec 128) : Gate where
  offset := raw.extractLsb' 64 32 ++ raw.extractLsb' 48 16 ++ raw.extractLsb' 0 16
  selector := raw.extractLsb' 16 16
  ist := raw.extractLsb' 32 3
  type := raw.extractLsb' 40 4
  dpl := raw.extractLsb' 45 2
  present := raw.getLsbD 47

def Gate.to (isrAddress : BitVec 64) (userAccessible trapGate : Bool) : Gate where
  offset := isrAddress
  selector := 0x8
  ist := 0
  type := if trapGate then 0xf else 0xe
  dpl := if userAccessible then 3 else 0
  present := true

namespace InterruptDescriptor64

theorem read_packed (entry : InterruptDescriptor64) : Gate.read entry.packed =
    ⟨entry.offsetHigh ++ entry.offsetMid ++ entry.offsetLow, entry.selector,
      entry.ist.extractLsb' 0 3, entry.typeAttributes.extractLsb' 0 4,
      entry.typeAttributes.extractLsb' 5 2, entry.typeAttributes.getLsbD 7⟩ := by
  have bits : ∀ {w} (s : Nat) (v : BitVec w), (∀ i < w, entry.packed.getLsbD (s + i) = v.getLsbD i) →
      entry.packed.extractLsb' s w = v := by
    intro w s v same
    apply BitVec.eq_of_getLsbD_eq
    intro i below
    rw [BitVec.getLsbD_extractLsb', same i below]
    simp [below]
  rw [Gate.read, bits 64 entry.offsetHigh, bits 48 entry.offsetMid, bits 0 entry.offsetLow,
    bits 16 entry.selector, bits 32 (entry.ist.extractLsb' 0 3),
    bits 40 (entry.typeAttributes.extractLsb' 0 4),
    bits 45 (entry.typeAttributes.extractLsb' 5 2)]
  · have seventh : entry.packed.getLsbD (40 + 7) = entry.typeAttributes.getLsbD 7 := by
      simp only [packed, BitVec.getLsbD_append]
      grind
    rw [← seventh]
  all_goals
    intro i below
    simp only [packed, BitVec.getLsbD_append, BitVec.getLsbD_extractLsb']
    grind

theorem offset_parts (isrAddress : BitVec 64) :
    (isrAddress >>> 32).setWidth 32 ++ (isrAddress >>> 16).setWidth 16 ++
      (isrAddress &&& 0xffff).setWidth 16 = isrAddress := by
  apply BitVec.eq_of_getLsbD_eq
  intro i below
  have mask : (0xffff : BitVec 64) = (BitVec.allOnes 16).setWidth 64 := by decide
  simp only [BitVec.getLsbD_append, BitVec.getLsbD_setWidth, BitVec.getLsbD_ushiftRight,
    BitVec.getLsbD_and, mask, BitVec.getLsbD_allOnes]
  grind

theorem read_set (isrAddress : BitVec 64) (userAccessible trapGate : Bool) :
    Gate.read (cleared.set isrAddress userAccessible trapGate).packed =
      Gate.to isrAddress userAccessible trapGate := by
  -- The attributes of an entry that was cleared are the ones that are added.
  have attributes : ∀ userAccessible trapGate : Bool,
      let bits := (cleared.set 0 userAccessible trapGate).typeAttributes
      bits.extractLsb' 0 4 = (if trapGate then 0xf else 0xe) ∧
        bits.extractLsb' 5 2 = (if userAccessible then 3 else 0) ∧ bits.getLsbD 7 = true := by
    decide
  obtain ⟨type, dpl, present⟩ := attributes userAccessible trapGate
  rw [read_packed, Gate.to, ← type, ← dpl, ← present]
  have offset : (cleared.set isrAddress userAccessible trapGate).offsetHigh ++
      (cleared.set isrAddress userAccessible trapGate).offsetMid ++
      (cleared.set isrAddress userAccessible trapGate).offsetLow = isrAddress :=
    offset_parts isrAddress
  rw [offset]
  rfl

end InterruptDescriptor64

inductive Stub where
  | isr (n : BitVec 8)
  | isrErrorcode (n : BitVec 8)
  | sysCallStub
  deriving DecidableEq

/-- The arguments of a call of `SetIDT_Descriptor`. -/
structure IdtCall where
  index : BitVec 8
  stub : Stub
  userAccessible : Bool
  trapGate : Bool
  deriving DecidableEq

def idtCalls : List IdtCall := [
  ⟨0, .isr 0, false, false⟩,
  ⟨1, .isr 1, false, false⟩,
  ⟨2, .isr 2, false, false⟩,
  ⟨3, .isr 3, true, false⟩,
  ⟨4, .isr 4, false, false⟩,
  ⟨5, .isr 5, false, false⟩,
  ⟨6, .isr 6, false, false⟩,
  ⟨7, .isr 7, false, false⟩,
  ⟨8, .isrErrorcode 8, false, false⟩,
  ⟨9, .isr 9, false, false⟩,
  ⟨10, .isrErrorcode 10, false, false⟩,
  ⟨11, .isrErrorcode 11, false, false⟩,
  ⟨12, .isrErrorcode 12, false, false⟩,
  ⟨13, .isrErrorcode 13, true, false⟩,
  ⟨14, .isrErrorcode 14, false, false⟩,
  ⟨15, .isr 15, false, false⟩,
  ⟨16, .isr 16, false, false⟩,
  ⟨17, .isrErrorcode 17, false, false⟩,
  ⟨18, .isr 18, false, false⟩,
  ⟨19, .isr 19, false, false⟩,
  ⟨20, .isr 20, false, false⟩,
  ⟨21, .isr 21, false, false⟩,
  ⟨22, .isr 22, false, false⟩,
  ⟨23, .isr 23, false, false⟩,
  ⟨24, .isr 24, false, false⟩,
  ⟨25, .isr 25, false, false⟩,
  ⟨26, .isr 26, false, false⟩,
  ⟨27, .isr 27, false, false⟩,
  ⟨28, .isr 28, false, false⟩,
  ⟨29, .isr 29, false, false⟩,
  ⟨30, .isr 30, false, false⟩,
  ⟨31, .isr 31, false, false⟩,
  ⟨32, .isr 32, true, true⟩,
  ⟨33, .isr 33, false, false⟩,
  ⟨34, .isr 34, false, false⟩,
  ⟨35, .isr 35, false, false⟩,
  ⟨36, .isr 36, false, false⟩,
  ⟨37, .isr 37, false, false⟩,
  ⟨38, .isr 38, false, false⟩,
  ⟨39, .isr 39, false, false⟩,
  ⟨40, .isr 40, false, false⟩,
  ⟨41, .isr 41, false, false⟩,
  ⟨42, .isr 42, false, false⟩,
  ⟨43, .isr 43, false, false⟩,
  ⟨44, .isr 44, false, false⟩,
  ⟨45, .isr 45, false, false⟩,
  ⟨46, .isr 46, false, false⟩,
  ⟨0x80, .sysCallStub, true, false⟩]

abbrev Idt := BitVec 8 → InterruptDescriptor64

section Building

variable (address : Stub → BitVec 64)

def setIdtDescriptor (idt : Idt) (call : IdtCall) : Idt :=
  Function.update idt call.index
    ((idt call.index).set (address call.stub) call.userAccessible call.trapGate)

/-- `build_IDT`, where the stubs are at these addresses. -/
def buildIdt : Idt := idtCalls.foldl (setIdtDescriptor address) fun _ => .cleared

variable {address}

theorem foldl_setIdtDescriptor {calls : List IdtCall} {idt : Idt}
    (once : (calls.map IdtCall.index).Nodup) (v : BitVec 8) :
    calls.foldl (setIdtDescriptor address) idt v =
      ((calls.find? fun call => call.index = v).map fun call =>
        (idt v).set (address call.stub) call.userAccessible call.trapGate).getD (idt v) := by
  induction calls generalizing idt with
  | nil => rfl
  | cons call calls inductionHypothesis =>
    obtain ⟨new, once⟩ := List.nodup_cons.mp once
    rw [List.foldl_cons, inductionHypothesis once]
    by_cases here : call.index = v
    · have later : calls.find? (fun call => call.index = v) = none := by
        apply List.find?_eq_none.mpr
        intro other member same
        apply new
        rw [here, ← of_decide_eq_true same]
        exact List.mem_map_of_mem member
      rw [later, List.find?_cons_of_pos (by simpa using here), setIdtDescriptor, here]
      simp
    · rw [List.find?_cons_of_neg (by simpa using here), setIdtDescriptor,
        Function.update_of_ne (Ne.symm here)]

theorem idtCalls_once : (idtCalls.map IdtCall.index).Nodup := by decide

def idtCall (v : BitVec 8) : Option IdtCall := idtCalls.find? fun call => call.index = v

theorem idtCall_mem {v : BitVec 8} {call : IdtCall} (filled : idtCall v = some call) :
    call ∈ idtCalls ∧ call.index = v := by
  refine ⟨List.mem_of_find?_eq_some filled, ?_⟩
  have same := List.find?_some filled
  exact of_decide_eq_true same

theorem read_buildIdt (v : BitVec 8) : Gate.read (buildIdt address v).packed =
    ((idtCall v).map fun call =>
      Gate.to (address call.stub) call.userAccessible call.trapGate).getD
        (Gate.read InterruptDescriptor64.cleared.packed) := by
  rw [buildIdt, foldl_setIdtDescriptor idtCalls_once, ← idtCall]
  cases idtCall v with
  | none => rfl
  | some call => exact InterruptDescriptor64.read_set _ _ _

end Building

end SwagOS.Kernel
