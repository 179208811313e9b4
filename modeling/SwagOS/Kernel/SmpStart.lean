import Mathlib.Algebra.Group.Nat.Defs
import Mathlib.Logic.Function.Basic
import SwagOS.Lib.Transition

/-!
# Starting the other processors

`smp_start`, `InitCPUByID` and `init_smp` with the code that `smp_boot.asm` starts at, as steps of
the processors in any order.  All of them are told where to go by the same structure in memory,
`SMP_INFO_STRUCT`, and the first processor goes on to the next one when it finds the magic number
in it.  A spin is no step.

`init_smp` enables interrupts and starts its timer before it writes the magic number.  A tick
makes the scheduler go on with a thread and save nothing, as the processor has none yet: it does
not come back to `init_smp`.

The processors that are started are given by the ids of the table, which are taken for the ids of
their local APICs.  Of what a processor does only the accesses to the structure and the interrupts
of its timer are kept, and of the blocks that `kalloc` returns only that they do not overlap.
-/

namespace SwagOS.Kernel

open SwagOS.Lib

/-- `SMP_INFO_STRUCT` -/
structure SmpInfo where
  gdtPtrPa : Nat
  pml4tPa : Nat
  kstackVa : Nat
  entry : Nat
  magic : Nat
  smp32bitInitAddr : Nat
  smp64bitInitAddr : Nat
  deriving DecidableEq, Repr

def SmpInfo.fields (info : SmpInfo) : List (Nat × Nat) :=
  [(4, info.gdtPtrPa), (4, info.pml4tPa), (8, info.kstackVa), (8, info.entry), (4, info.magic),
    (4, info.smp32bitInitAddr), (4, info.smp64bitInitAddr)]

def fieldAt : List (Nat × Nat) → Nat → Nat
  | [], _ => 0
  | (size, value) :: rest, offset =>
      if offset = 0 then value else if offset < size then 0 else fieldAt rest (offset - size)

def offsetPml4t : Nat := 0x4

def offsetKstack : Nat := 0x8

def offsetEntry : Nat := 0x10

def smpInfoMagic : Nat := 0x6969

def smpInitAddr : Nat := 0x2000

def smpStackSize : Nat := 0x10000

inductive ApPhase where
  /-- It waits for an INIT. -/
  | stopped
  /-- It waits for a start-up message. -/
  | waitSipi
  /-- `smp_init` -/
  | smpInit
  /-- `smp_64bit_init` -/
  | smp64bitInit
  /-- The call of `init_smp`. -/
  | calls
  /-- `init_smp` up to `sti`. -/
  | initSmp
  /-- Before `smp_init_timer`. -/
  | enabled
  /-- Its timer runs, and the magic number is not written. -/
  | timed
  /-- `init_smp` after the magic number. -/
  | running
  /-- It was interrupted by its timer and goes on with a thread. -/
  | scheduled
  /-- So it was, and has not written the magic number. -/
  | lost
  deriving DecidableEq, Repr

/-- An application processor, with the registers that it loads from the structure. -/
structure Ap where
  phase : ApPhase
  cr3 : Nat
  rsp : Nat
  entry : Nat
  deriving DecidableEq, Repr

/-- What `APIC_REG_ICR_LOW` is set to, one after the other. -/
def startCommands : List Nat := [0xC500, 0x8500, 0x4602, 0x4602]

/-- A processor takes a message with this low command register.  A de-assert changes nothing, and
a start-up message nothing where none is waited for. -/
def Ap.take (ap : Ap) (command : Nat) : Ap :=
  let mode := command / 2 ^ 8 % 8
  if mode = 5 ∧ command.testBit 14 then { ap with phase := .waitSipi }
  else if mode = 6 ∧ ap.phase = .waitSipi ∧ command % 2 ^ 8 * 0x1000 = smpInitAddr then
    { ap with phase := .smpInit }
  else ap

def Ap.step (ap : Ap) (info : SmpInfo) : Option (Ap × SmpInfo) :=
  match ap.phase with
  | .smpInit =>
      some ({ ap with phase := .smp64bitInit, cr3 := fieldAt info.fields offsetPml4t }, info)
  | .smp64bitInit =>
      some ({ ap with phase := .calls, rsp := fieldAt info.fields offsetKstack }, info)
  | .calls => some ({ ap with phase := .initSmp, entry := fieldAt info.fields offsetEntry }, info)
  | .initSmp => some ({ ap with phase := .enabled }, info)
  | .enabled => some ({ ap with phase := .timed }, info)
  | .timed => some ({ ap with phase := .running }, { info with magic := smpInfoMagic })
  | _ => none

/-- An interrupt of its timer: `SaveThreadContext` saves nothing where there is no thread. -/
def Ap.tick (ap : Ap) : Option Ap :=
  match ap.phase with
  | .timed => some { ap with phase := .lost }
  | .running => some { ap with phase := .scheduled }
  | _ => none

/-- What the first processor does next for the entry that its loop is at. -/
inductive BspPhase where
  /-- The test of the loop. -/
  | next
  /-- The store `k` of `write_to_smp_info_struct`. -/
  | writes (k : Nat)
  | sends (k : Nat)
  /-- It waits until message `k` is delivered. -/
  | delivers (k : Nat)
  /-- It waits for the magic number. -/
  | waits
  | done
  | panics
  deriving DecidableEq, Repr

/-- Where the processors are started. -/
structure SmpSite where
  /-- `id` of the entries of `cpu` -/
  ids : List Nat
  /-- `get_current_cpu()->id` -/
  own : Nat
  /-- What `kalloc` returns for an entry. -/
  kalloc : Nat → Nat
  gdtPtrPa : Nat
  pml4tPa : Nat
  initSmp : Nat
  /-- This is not set. -/
  smp32bitInitAddr : Nat
  smp64bitInitAddr : Nat
  bytes : ∀ id ∈ ids, id < 2 ^ 8
  nodup : ids.Nodup
  apart : ∀ i j, i ≠ j → kalloc i + smpStackSize ≤ kalloc j ∨ kalloc j + smpStackSize ≤ kalloc i

structure SmpState where
  bsp : BspPhase
  /-- The entry that the loop is at. -/
  i : Nat
  info : SmpInfo
  aps : Nat → Ap
  /-- The message that was sent and not delivered, with its destination. -/
  inFlight : Option (Nat × Nat)
  /-- `kstack` of the entries of `cpu` -/
  kstack : Nat → Nat

namespace SmpSite

variable (site : SmpSite)

/-- `global_Settings.cpu[i].id` -/
def id (i : Nat) : Nat := site.ids.getD i 0

def stackAlloc (i : Nat) : Nat := site.kalloc i + smpStackSize

def Listed (id : Nat) : Prop := id < site.ids.length ∧ site.id id = id

instance (id : Nat) : Decidable (site.Listed id) := inferInstanceAs (Decidable (_ ∧ _))

def storeField (i : Nat) (info : SmpInfo) : Nat → SmpInfo
  | 0 => { info with entry := site.initSmp }
  | 1 => { info with gdtPtrPa := site.gdtPtrPa }
  | 2 => { info with kstackVa := site.stackAlloc i }
  | 3 => { info with pml4tPa := site.pml4tPa }
  | 4 => { info with magic := 0x1111 }
  | 5 => { info with smp32bitInitAddr := site.smp32bitInitAddr }
  | _ => { info with smp64bitInitAddr := site.smp64bitInitAddr }

end SmpSite

namespace SmpState

/-- The next step of the first processor in the loop of `smp_start` and in `InitCPUByID`. -/
def start (site : SmpSite) (s : SmpState) : Option SmpState :=
  match s.bsp with
  | .next =>
      if s.i < site.ids.length then
        if site.id s.i = site.own then some { s with i := s.i + 1 }
        else if site.Listed (site.id s.i) then
          some { s with
            bsp := .writes 0
            kstack := Function.update s.kstack (site.id s.i) (site.stackAlloc s.i) }
        else some { s with bsp := .panics }
      else some { s with bsp := .done }
  | .writes k =>
      some { s with
        bsp := if k < 6 then .writes (k + 1) else .sends 0
        info := site.storeField s.i s.info k }
  | .sends k =>
      some { s with
        bsp := .delivers k
        inFlight := some (site.id s.i % 2 ^ 8, startCommands.getD k 0) }
  | .delivers k =>
      if s.inFlight = none then
        some { s with bsp := if k < 3 then .sends (k + 1) else .waits }
      else none
  | .waits =>
      if s.info.magic = smpInfoMagic then some { s with bsp := .next, i := s.i + 1 } else none
  | .done | .panics => none

def deliver (s : SmpState) : Option SmpState :=
  s.inFlight.map fun (id, command) =>
    { s with aps := Function.update s.aps id ((s.aps id).take command), inFlight := none }

def runs (s : SmpState) (id : Nat) : Option SmpState :=
  ((s.aps id).step s.info).map fun (ap, info) =>
    { s with aps := Function.update s.aps id ap, info := info }

def timer (s : SmpState) (id : Nat) : Option SmpState :=
  (s.aps id).tick.map fun ap => { s with aps := Function.update s.aps id ap }

end SmpState

inductive SmpAgent where
  | first
  | delivery
  | other (id : Nat)
  | timer (id : Nat)
  deriving DecidableEq, Repr

def SmpState.step (site : SmpSite) (s : SmpState) : SmpAgent → Option SmpState
  | .first => s.start site
  | .delivery => s.deliver
  | .other id => s.runs id
  | .timer id => s.timer id

def SmpStep (site : SmpSite) (s t : SmpState) : Prop := ∃ agent, s.step site agent = some t

/-- Before `smp_start` no other processor runs. -/
structure SmpStart (s : SmpState) : Prop where
  bsp : s.bsp = .next
  i : s.i = 0
  aps : ∀ id, (s.aps id).phase = .stopped
  inFlight : s.inFlight = none

end SwagOS.Kernel
