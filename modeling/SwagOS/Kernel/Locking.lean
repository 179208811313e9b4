import Mathlib.Data.Finset.Card
import Mathlib.Logic.Function.Basic
import SwagOS.Lib.Discipline
import SwagOS.Lib.Transition

/-!
# Critical sections

What the kernel does to the interrupt flag: `cli_count` and `noINT` (`cpu.c`, `idt.c`,
`apic.c`), the two functions of a spinlock (`spinlock.c`), the copy sections of
`syscalls.c`, the frames that `int` and interrupts push and `iretq` pops (`isr.asm`), and the
contexts that `schedule()` saves and loads.

`acquire_Spinlock` is two steps, its `inc_cli` and the lock that it waits for, and so is
`release_Spinlock`, with its `dec_cli` behind the lock; the accesses to a lock are in `Spinlock`.
The 32 bits of `cli_count` are a number: as many sections as would overflow it have more call
sites than fit into memory.
-/

namespace SwagOS.Kernel

open SwagOS.Lib

/-- The fields of `CPU` that decide about interrupts, and the interrupt flag. -/
structure CPU where
  cliCount : Nat
  noINT : Bool
  interruptFlag : Bool
  deriving DecidableEq, Repr

namespace CPU

def cli (cpu : CPU) : CPU := { cpu with interruptFlag := false }

def sti (cpu : CPU) : CPU := { cpu with interruptFlag := true }

def incCli (cpu : CPU) : CPU :=
  let cpu := cpu.cli
  { cpu with cliCount := cpu.cliCount + 1 }

def decCli (cpu : CPU) : Outcome CPU :=
  if cpu.interruptFlag then throw (.panic "dec_cli() --> interrupt flag was set.\n")
  else if cpu.cliCount = 0 then throw (.panic "dec_cli() --> cpu->cli_count == zero.\n")
  else
    let cpu := { cpu with cliCount := cpu.cliCount - 1 }
    pure (if cpu.cliCount = 0 ∧ cpu.noINT = false then cpu.sti else cpu)

end CPU

inductive KernelOp (Lock : Type) where
  | acquireSpinlock (lock : Lock)
  /-- The rest of `acquire_Spinlock`, after its `inc_cli`. -/
  | takeSpinlock (lock : Lock)
  | releaseSpinlock (lock : Lock)
  /-- The `dec_cli` of `release_Spinlock`, after the lock is free. -/
  | leaveSpinlock
  | initSpinlock (lock : Lock)
  /-- The `inc_cli` of `FetchStruct`, `FetchString`, `WriteStruct` and the like. -/
  | beginCopy
  /-- The `dec_cli` at their end. -/
  | endCopy
  | cli
  | sti
  | noINTEnable
  /-- `apic_end_of_interrupt`, and `noINT = false` in `SYSHANDLER_exit`. -/
  | noINTDisable
  /-- The instruction `int`. -/
  | int (vector : Nat)
  /-- `old_thread->execution_context = *ctx` in `SaveThreadContext`. -/
  | saveThreadContext (thread : Nat)
  /-- A new thread, with its code in the table of the program. -/
  | createThread (thread entry : Nat)
  /-- The end of `schedule`: the registers of a thread, and `iretq`. -/
  | loadContext (thread : Nat)

variable {Lock Cpu : Type}

/-- The flag that was pushed with a return address, and the code there. -/
structure Frame (Lock : Type) where
  code : List (Code (KernelOp Lock))
  interruptFlag : Bool

/-- `cpu_context_t` with the frames below it on the stack. -/
structure Context (Lock : Type) where
  top : Frame Lock
  below : List (Frame Lock)

/-- A CPU, the code it is to run, and the frames on its stack. -/
structure Processor (Lock : Type) where
  cpu : CPU
  code : List (Code (KernelOp Lock))
  frames : List (Frame Lock)
  /-- The copy sections it is in. -/
  openCopies : Nat
  panic : Option String

structure KernelState (Cpu Lock : Type) where
  processor : Cpu → Processor Lock
  owner : Lock → Option Cpu
  contexts : Nat → Option (Context Lock)

/-- The locks that are held and the copy sections that are open at a place in the code. -/
@[ext] structure Section (Lock : Type) where
  held : Finset Lock
  copies : Nat
  /-- 1 inside a function of a lock. -/
  passing : Nat
  deriving DecidableEq

namespace Section

def outside : Section Lock := ⟨∅, 0, 0⟩

/-- The number of `inc_cli` without their `dec_cli`. -/
def depth (e : Section Lock) : Nat := e.held.card + e.copies + e.passing

@[simp] theorem depth_outside : (outside : Section Lock).depth = 0 := rfl

theorem eq_outside {e : Section Lock} (depth : e.depth = 0) : e = outside := by
  obtain ⟨held, copies, passing⟩ := e
  obtain ⟨none, notPassing⟩ := Nat.add_eq_zero_iff.mp depth
  obtain ⟨noLocks, noCopies⟩ := Nat.add_eq_zero_iff.mp none
  exact Section.ext (Finset.card_eq_zero.mp noLocks) noCopies notPassing

def passes (e : Section Lock) : Section Lock := { e with passing := e.passing + 1 }

@[simp] theorem depth_passes {e : Section Lock} : e.passes.depth = e.depth + 1 := rfl

variable [DecidableEq Lock]

def next (e : Section Lock) : KernelOp Lock → Section Lock
  | .acquireSpinlock lock => { e with held := insert lock e.held }
  | .takeSpinlock lock => { e with held := insert lock e.held, passing := e.passing - 1 }
  | .releaseSpinlock lock => { e with held := e.held.erase lock }
  | .leaveSpinlock => { e with passing := e.passing - 1 }
  | .beginCopy => { e with copies := e.copies + 1 }
  | .endCopy => { e with copies := e.copies - 1 }
  | _ => e

def Nested (e : Section Lock) : KernelOp Lock → Prop
  | .acquireSpinlock lock => lock ∉ e.held
  | .takeSpinlock lock => lock ∉ e.held ∧ 0 < e.passing
  | .releaseSpinlock lock => lock ∈ e.held
  | .leaveSpinlock => 0 < e.passing
  | .endCopy => 0 < e.copies
  | .sti | .int _ | .loadContext _ => e = outside
  | _ => True

instance (e : Section Lock) : (o : KernelOp Lock) → Decidable (e.Nested o)
  | .acquireSpinlock lock => inferInstanceAs (Decidable (lock ∉ e.held))
  | .takeSpinlock lock => inferInstanceAs (Decidable (lock ∉ e.held ∧ 0 < e.passing))
  | .leaveSpinlock => inferInstanceAs (Decidable (0 < e.passing))
  | .releaseSpinlock lock => inferInstanceAs (Decidable (lock ∈ e.held))
  | .endCopy => inferInstanceAs (Decidable (0 < e.copies))
  | .sti | .int _ | .loadContext _ => inferInstanceAs (Decidable (e = outside))
  | .initSpinlock _ | .beginCopy | .cli | .noINTEnable | .noINTDisable | .saveThreadContext _
  | .createThread _ _ => inferInstanceAs (Decidable True)

end Section

/-- What code may do with locks beyond nesting them. -/
structure LockRules (Lock : Type) where
  mayAcquire : Section Lock → Lock → Prop
  /-- Locks are initialised again. -/
  mayInit : Prop

def LockRules.Obeyed (rules : LockRules Lock) (e : Section Lock) : KernelOp Lock → Prop
  | .acquireSpinlock lock => rules.mayAcquire e lock
  | .takeSpinlock lock => rules.mayAcquire { e with passing := e.passing - 1 } lock
  | .initSpinlock _ => rules.mayInit
  | _ => True

def anyOrder : LockRules Lock := ⟨fun _ _ => True, False⟩

def sections [DecidableEq Lock] (rules : LockRules Lock) :
    Discipline (KernelOp Lock) (Section Lock) where
  allowed e o := e.Nested o ∧ rules.Obeyed e o
  next := Section.next

/-- The handlers of the interrupt table, the code that threads start with and the code that
CPUs start with. -/
structure KernelText (Cpu Lock : Type) where
  handler : Nat → Code (KernelOp Lock)
  thread : Nat → Code (KernelOp Lock)
  boot : Cpu → Code (KernelOp Lock)
  /-- `IDT_DESC_TYPE_TRAP`: the gate leaves the interrupt flag as it is. -/
  trapGate : Nat → Bool

/-- Text whose sections nest, where threads sleep with no lock but the one they give up. -/
structure Program (Cpu : Type) [DecidableEq Lock] (rules : LockRules Lock) extends
    KernelText Cpu Lock where
  handler_keeps : ∀ vector, (handler vector).Keeps (sections rules) .outside
  thread_keeps : ∀ entry, (thread entry).Keeps (sections rules) .outside
  boot_keeps : ∀ c, (boot c).Keeps (sections rules) .outside

instance [DecidableEq Lock] {rules : LockRules Lock} :
    CoeOut (Program Cpu rules) (KernelText Cpu Lock) :=
  ⟨Program.toKernelText⟩

namespace KernelState

variable [DecidableEq Cpu]

def setProcessor (s : KernelState Cpu Lock) (c : Cpu) (p : Processor Lock) :
    KernelState Cpu Lock :=
  { s with processor := Function.update s.processor c p }

def setCPU (s : KernelState Cpu Lock) (c : Cpu) (cpu : CPU) : KernelState Cpu Lock :=
  s.setProcessor c { s.processor c with cpu := cpu }

def goto (s : KernelState Cpu Lock) (c : Cpu) (code : List (Code (KernelOp Lock))) :
    KernelState Cpu Lock :=
  s.setProcessor c { s.processor c with code := code }

def setContext (s : KernelState Cpu Lock) (thread : Nat) (context : Context Lock) :
    KernelState Cpu Lock :=
  { s with contexts := Function.update s.contexts thread (some context) }

def beginCopy (s : KernelState Cpu Lock) (c : Cpu) : KernelState Cpu Lock :=
  let p := s.processor c
  s.setProcessor c { p with cpu := p.cpu.incCli, openCopies := p.openCopies + 1 }

def endCopy (s : KernelState Cpu Lock) (c : Cpu) : Outcome (KernelState Cpu Lock) := do
  let p := s.processor c
  let cpu ← p.cpu.decCli
  pure (s.setProcessor c { p with cpu := cpu, openCopies := p.openCopies - 1 })

/-- An interrupt or the instruction `int`: the gate clears the flag unless it is a trap gate. -/
def enter (program : KernelText Cpu Lock) (s : KernelState Cpu Lock) (c : Cpu) (vector : Nat) :
    KernelState Cpu Lock :=
  let p := s.processor c
  s.setProcessor c
    { p with
      code := [program.handler vector]
      frames := ⟨p.code, p.cpu.interruptFlag⟩ :: p.frames
      cpu := if program.trapGate vector then p.cpu else p.cpu.cli }

def load (s : KernelState Cpu Lock) (c : Cpu) (context : Context Lock) : KernelState Cpu Lock :=
  let p := s.processor c
  s.setProcessor c
    { p with
      code := context.top.code
      frames := context.below
      cpu := { p.cpu with interruptFlag := context.top.interruptFlag } }

def saveThreadContext (s : KernelState Cpu Lock) (c : Cpu) (thread : Nat) :
    KernelState Cpu Lock :=
  match (s.processor c).frames with
  | [] => s
  | top :: below => s.setContext thread ⟨top, below⟩

variable [DecidableEq Lock]

def setOwner (s : KernelState Cpu Lock) (lock : Lock) (owner : Option Cpu) :
    KernelState Cpu Lock :=
  { s with owner := Function.update s.owner lock owner }

/-- `acquire_Spinlock` after its `inc_cli`: the CPU spins where the result is a hang. -/
def takeSpinlock (s : KernelState Cpu Lock) (c : Cpu) (lock : Lock) :
    Outcome (KernelState Cpu Lock) :=
  if s.owner lock = some c then
    throw (.panic "acquire_Spinlock() --> encountered deadlock situation.")
  else if s.owner lock ≠ none then throw .hang
  else pure (s.setOwner lock (some c))

def freeSpinlock (s : KernelState Cpu Lock) (c : Cpu) (lock : Lock) :
    Outcome (KernelState Cpu Lock) :=
  if s.owner lock ≠ some c then
    throw (.panic ("release_Spinlock() --> tried to release a spinlock that was not held by " ++
      "the current CPU."))
  else pure (s.setOwner lock none)

omit [DecidableEq Lock] in
def leaveSpinlock (s : KernelState Cpu Lock) (c : Cpu) : Outcome (KernelState Cpu Lock) := do
  let cpu ← (s.processor c).cpu.decCli
  pure (s.setCPU c cpu)

def acquireSpinlock (s : KernelState Cpu Lock) (c : Cpu) (lock : Lock) :
    Outcome (KernelState Cpu Lock) :=
  (s.setCPU c (s.processor c).cpu.incCli).takeSpinlock c lock

def releaseSpinlock (s : KernelState Cpu Lock) (c : Cpu) (lock : Lock) :
    Outcome (KernelState Cpu Lock) := do
  let s ← s.freeSpinlock c lock
  s.leaveSpinlock c

theorem acquireSpinlock_eq (s : KernelState Cpu Lock) (c : Cpu) (lock : Lock) :
    s.acquireSpinlock c lock =
      if s.owner lock = some c then
        throw (.panic "acquire_Spinlock() --> encountered deadlock situation.")
      else if s.owner lock ≠ none then throw .hang
      else pure ((s.setCPU c (s.processor c).cpu.incCli).setOwner lock (some c)) :=
  rfl

theorem releaseSpinlock_held {s : KernelState Cpu Lock} {c : Cpu} {lock : Lock}
    (held : s.owner lock = some c) :
    s.releaseSpinlock c lock = (s.setOwner lock none).leaveSpinlock c := by
  rw [releaseSpinlock, freeSpinlock, if_neg (not_not.mpr held)]
  rfl

def comesTo (s : KernelState Cpu Lock) (c : Cpu) (o : KernelOp Lock) : KernelState Cpu Lock :=
  s.goto c (.op o :: (s.processor c).code)

def perform (program : KernelText Cpu Lock) (s : KernelState Cpu Lock) (c : Cpu) :
    KernelOp Lock → Outcome (KernelState Cpu Lock)
  | .acquireSpinlock lock =>
      pure ((s.setCPU c (s.processor c).cpu.incCli).comesTo c (.takeSpinlock lock))
  | .takeSpinlock lock => s.takeSpinlock c lock
  | .releaseSpinlock lock => return (← s.freeSpinlock c lock).comesTo c .leaveSpinlock
  | .leaveSpinlock => s.leaveSpinlock c
  | .initSpinlock lock => pure (s.setOwner lock none)
  | .beginCopy => pure (s.beginCopy c)
  | .endCopy => s.endCopy c
  | .cli => pure (s.setCPU c (s.processor c).cpu.cli)
  | .sti => pure (s.setCPU c (s.processor c).cpu.sti)
  | .noINTEnable => pure (s.setCPU c { (s.processor c).cpu with noINT := true })
  | .noINTDisable => pure (s.setCPU c { (s.processor c).cpu with noINT := false })
  | .int vector => pure (s.enter program c vector)
  | .saveThreadContext thread => pure (s.saveThreadContext c thread)
  | .createThread thread entry =>
      pure (s.setContext thread ⟨⟨[program.thread entry], true⟩, []⟩)
  | .loadContext thread =>
      match s.contexts thread with
      | none => throw .hang
      | some context => pure (s.load c context)

/-- A CPU goes on with its code, is interrupted, or returns from an interrupt. -/
inductive Step (program : KernelText Cpu Lock) :
    KernelState Cpu Lock → KernelState Cpu Lock → Prop where
  | silent {s : KernelState Cpu Lock} {c : Cpu} {rest : List (Code (KernelOp Lock))} :
      (s.processor c).panic = none → Code.Next (s.processor c).code none rest →
      Step program s (s.goto c rest)
  | performs {s t : KernelState Cpu Lock} {c : Cpu} {o : KernelOp Lock}
      {rest : List (Code (KernelOp Lock))} :
      (s.processor c).panic = none → Code.Next (s.processor c).code (some o) rest →
      (s.goto c rest).perform program c o = .ok t → Step program s t
  | panics {s : KernelState Cpu Lock} {c : Cpu} {o : KernelOp Lock}
      {rest : List (Code (KernelOp Lock))} {message : String} :
      (s.processor c).panic = none → Code.Next (s.processor c).code (some o) rest →
      (s.goto c rest).perform program c o = .error (.panic message) →
      Step program s (s.setProcessor c { s.processor c with panic := some message })
  /-- The thread was interrupted between `get_current_cpu()` and the write to `noINT`. -/
  | late {s : KernelState Cpu Lock} {c d : Cpu} {rest : List (Code (KernelOp Lock))} :
      (s.processor c).panic = none → (s.processor c).cpu.interruptFlag = true →
      Code.Next (s.processor c).code (some .noINTDisable) rest →
      Step program s
        ((s.goto c rest).setCPU d { ((s.goto c rest).processor d).cpu with noINT := false })
  | interrupt {s : KernelState Cpu Lock} {c : Cpu} (vector : Nat) :
      (s.processor c).panic = none → (s.processor c).cpu.interruptFlag = true →
      Step program s (s.enter program c vector)
  | iretq {s : KernelState Cpu Lock} {c : Cpu} {top : Frame Lock} {below : List (Frame Lock)} :
      (s.processor c).panic = none → (s.processor c).code = [] →
      (s.processor c).frames = top :: below → Step program s (s.load c ⟨top, below⟩)

inductive Event (Cpu : Type) where
  | goes (c : Cpu) (choice : Nat)
  | interrupt (c : Cpu) (vector : Nat)
  deriving DecidableEq, Repr

def happens (program : KernelText Cpu Lock) (s : KernelState Cpu Lock) :
    Event Cpu → Option (KernelState Cpu Lock)
  | .goes c choice =>
      if (s.processor c).panic = none then
        match Code.step choice (s.processor c).code with
        | none => none
        | some (none, rest) => some (s.goto c rest)
        | some (some o, rest) => ((s.goto c rest).perform program c o).toOption
      else none
  | .interrupt c vector =>
      if (s.processor c).panic = none ∧ (s.processor c).cpu.interruptFlag = true then
        some (s.enter program c vector)
      else none

theorem happens_step {program : KernelText Cpu Lock} {s t : KernelState Cpu Lock}
    {event : Event Cpu} (happened : s.happens program event = some t) : Step program s t := by
  cases event with
  | goes c choice =>
    rw [happens] at happened
    split at happened
    case isFalse => cases happened
    case isTrue running =>
    split at happened
    case h_1 => cases happened
    case h_2 rest stepped =>
      obtain rfl := Option.some.inj happened
      exact .silent running (Code.next_of_step stepped)
    case h_3 o rest stepped =>
      refine .performs running (Code.next_of_step stepped) ?_
      revert happened
      cases (s.goto c rest).perform program c o with
      | error halt => exact nofun
      | ok u => exact congrArg Except.ok ∘ Option.some.inj
  | interrupt c vector =>
    rw [happens] at happened
    split at happened
    case isFalse => cases happened
    case isTrue running =>
      obtain rfl := Option.some.inj happened
      exact .interrupt vector running.1 running.2

section Fields

variable (s : KernelState Cpu Lock) (c : Cpu) (p : Processor Lock) (cpu : CPU)
  (code : List (Code (KernelOp Lock)))

omit [DecidableEq Lock]

@[simp] theorem setProcessor_processor :
    (s.setProcessor c p).processor = Function.update s.processor c p := rfl
@[simp] theorem setProcessor_owner : (s.setProcessor c p).owner = s.owner := rfl
@[simp] theorem setProcessor_contexts : (s.setProcessor c p).contexts = s.contexts := rfl

@[simp] theorem goto_processor_self :
    (s.goto c code).processor c = { s.processor c with code := code } :=
  Function.update_self c _ s.processor

@[simp] theorem goto_owner : (s.goto c code).owner = s.owner := rfl
@[simp] theorem goto_contexts : (s.goto c code).contexts = s.contexts := rfl

@[simp] theorem goto_setProcessor : (s.goto c code).setProcessor c p = s.setProcessor c p :=
  congrArg (fun processor => { s with processor := processor })
    (Function.update_idem _ _ s.processor)

@[simp] theorem setProcessor_goto :
    (s.setProcessor c p).goto c code = s.setProcessor c { p with code := code } := by
  simp [goto, setProcessor]

@[simp] theorem goto_setCPU :
    (s.goto c code).setCPU c cpu =
      s.setProcessor c { s.processor c with code := code, cpu := cpu } := by
  rw [setCPU, goto_setProcessor, goto_processor_self]

@[simp] theorem setProcessor_comesTo (o : KernelOp Lock) :
    (s.setProcessor c p).comesTo c o =
      s.setProcessor c { p with code := .op o :: p.code } := by
  simp [comesTo]

end Fields

section Owners

omit [DecidableEq Cpu]

variable (s : KernelState Cpu Lock) (lock : Lock) (owner : Option Cpu)

@[simp] theorem setOwner_processor : (s.setOwner lock owner).processor = s.processor := rfl
@[simp] theorem setOwner_owner :
    (s.setOwner lock owner).owner = Function.update s.owner lock owner := rfl
@[simp] theorem setOwner_contexts : (s.setOwner lock owner).contexts = s.contexts := rfl

omit [DecidableEq Lock] in
@[simp] theorem setContext_contexts (thread : Nat) (context : Context Lock) :
    (s.setContext thread context).contexts = Function.update s.contexts thread (some context) :=
  rfl

end Owners

/-- Every CPU is about to run its first code, and holds no lock. -/
structure Start (program : KernelText Cpu Lock) (s : KernelState Cpu Lock) : Prop where
  code : ∀ c, (s.processor c).code = [program.boot c]
  frames : ∀ c, (s.processor c).frames = []
  cliCount : ∀ c, (s.processor c).cpu.cliCount = 0
  openCopies : ∀ c, (s.processor c).openCopies = 0
  panic : ∀ c, (s.processor c).panic = none
  owner : ∀ lock, s.owner lock = none
  contexts : ∀ thread, s.contexts thread = none

theorem Reachable.happens {program : KernelText Cpu Lock} {events : List (Event Cpu)}
    {s t : KernelState Cpu Lock} (reached : Reachable (Start program) (Step program) s)
    (run : events.foldlM (KernelState.happens program) s = some t) :
    Reachable (Start program) (Step program) t := by
  induction events generalizing s with
  | nil =>
    obtain rfl := Option.some.inj run
    exact reached
  | cons event events inductionHypothesis =>
    rw [List.foldlM_cons] at run
    obtain ⟨next, here, later⟩ := Option.bind_eq_some_iff.mp run
    exact inductionHypothesis (reached.next (happens_step here)) later

end KernelState

end SwagOS.Kernel
