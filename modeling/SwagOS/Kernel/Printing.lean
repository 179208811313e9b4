import SwagOS.Drivers.Terminal.Disclosure
import SwagOS.Kernel.Exec
import SwagOS.Kernel.UserPointers

/-!
# The system calls that print

`SYSHANDLER_tprintf` and `SYSHANDLER_perror`: text of the caller is the format string of
`printf`.  `tprintf` passes one argument with it, `perror` none; a conversion that finds no
argument takes what lies in the registers and on the stack of the kernel, and `%s` prints
whatever the kernel has mapped at the address that it is given.

Two states of the kernel are compared that have the same calling process, page tables and
terminal, and the same contents of the memory that the process can access.
-/

namespace SwagOS.Kernel

open SwagOS.Lib SwagOS.Mem SwagOS.Drivers

/-- The state that the two calls see. -/
structure Console where
  base : Nat
  kernel : KernelTables
  memory : Paging.Tables
  pgdir : ThreadPagetables
  errno : Error
  terminal : Terminal
  /-- The contents of the memory, and what else `printf` reads. -/
  contents : PrintState

/-- `error_strings` -/
def errorString (errno : Error) : List UInt8 :=
  let string :=
    match errno with
    | .noError => ""
    | .fileNotFound => "File not found.\n"
    | .fileReadError => "File read error.\n"
  string.toList.map fun c => UInt8.ofNat c.toNat

namespace Console

section Memory

variable (s : Console)

/-- The physical address of a byte of the caller; without one there is a page fault. -/
def translate (va : Nat) : Outcome Nat :=
  match Paging.walk (processTables s.base s.kernel s.memory s.pgdir) (va % 2 ^ 64) s.base with
  | none => throw (.panic "Page Fault Interrupt")
  | some t => pure t.physical

/-- The physical addresses of the bytes that `FetchStruct` copies. -/
def source (addr size : Nat) : Outcome (List Nat) :=
  if s.pgdir.fetchStruct s.base (userView s.kernel s.memory) addr size then
    (List.range size).mapM fun k => s.translate (addr + k)
  else pure []

def kernelPlace (va : Nat) : Option Nat :=
  (Paging.walk s.memory (va % 2 ^ 64) s.kernel.pml4t).map Paging.Translation.physical

def Accessible (physical : Nat) : Prop :=
  ∃ va t, Paging.walk (processTables s.base s.kernel s.memory s.pgdir) va s.base = some t ∧
    t.user = true ∧ t.physical = physical

/-- `FetchStruct` to a buffer of zeros, and `printf` of the buffer with these arguments. -/
def printUser (addr size : Nat) (given : List Nat) : Output UInt8 :=
  match s.source addr size with
  | .error why => .stop (some why)
  | .ok fmt => s.contents.print s.kernelPlace false given fmt

/-- `printf(GetErrNo(..))` -/
def printError : Output UInt8 :=
  printf (s.contents.memory s.kernelPlace) false (vaArgs [] s.contents.registers)
    (errorString s.errno)

def syshandlerTprintf (ctx : CpuContext) : Output UInt8 × CpuContext :=
  if ctx.rdx > pgSize then (.stop none, { ctx with rax := uint64Max })
  else (s.printUser ctx.rsi ctx.rdx [ctx.rcx], { ctx with rax := 0 })

def syshandlerPerror (ctx : CpuContext) : Output UInt8 :=
  let user := if 0 < ctx.rdx ∧ ctx.rdx < 0x1000 then s.printUser ctx.rsi ctx.rdx [] else .stop none
  user.seq s.printError

def after (printed : Output UInt8) : Terminal := s.terminal.print printed.written

end Memory

/-- Two states with the same caller, tables and terminal, that agree on the memory of the
process. -/
structure Agrees (s s' : Console) : Prop where
  base : s'.base = s.base
  kernel : s'.kernel = s.kernel
  memory : s'.memory = s.memory
  pgdir : s'.pgdir = s.pgdir
  errno : s'.errno = s.errno
  terminal : s'.terminal = s.terminal
  contents : s.contents.Agrees s.Accessible s'.contents

end Console

inductive PrintCall where
  | tprintf
  | perror
  deriving DecidableEq, Repr

namespace PrintCall

def run (s : Console) (ctx : CpuContext) : PrintCall → Output UInt8
  | .tprintf => (s.syshandlerTprintf ctx).1
  | .perror => s.syshandlerPerror ctx

def Prints (ctx : CpuContext) : PrintCall → Prop
  | .tprintf => ctx.rdx ≤ pgSize
  | .perror => 0 < ctx.rdx ∧ ctx.rdx < 0x1000

def given (ctx : CpuContext) : PrintCall → List Nat
  | .tprintf => [ctx.rcx]
  | .perror => []

def DisclosesNothing (s : Console) (ctx : CpuContext) (call : PrintCall) : Prop :=
  ∀ s', s.Agrees s' → call.run s' ctx = call.run s ctx ∧
    s'.after (call.run s' ctx) = s.after (call.run s ctx)

/-- The text that is copied, if it is, uses what the process can access and the arguments that
are passed. -/
def Discreet (s : Console) (ctx : CpuContext) (call : PrintCall) : Prop :=
  call.Prints ctx → ∀ fmt, s.source ctx.rsi ctx.rdx = .ok fmt →
    s.contents.Discreet s.kernelPlace s.Accessible false (call.given ctx) fmt

end PrintCall

namespace Console

variable {s s' : Console}

def withContents (s : Console) (contents : PrintState) : Console := { s with contents := contents }

theorem Agrees.eq (agrees : s.Agrees s') : s' = s.withContents s'.contents := by
  obtain ⟨base, kernel, memory, pgdir, errno, terminal, -⟩ := agrees
  cases s'
  subst base kernel memory pgdir errno terminal
  rfl

theorem agrees_withContents (contents : PrintState)
    (agrees : s.contents.Agrees s.Accessible contents) : s.Agrees (s.withContents contents) :=
  ⟨rfl, rfl, rfl, rfl, rfl, rfl, agrees⟩

theorem kernelPlace_hole (s : Console) : s.kernelPlace (2 ^ 47) = none := by
  have outside : ¬Paging.Canonical (2 ^ 47 % 2 ^ 64) := by decide
  unfold kernelPlace Paging.walk
  rw [if_neg outside]
  rfl

theorem printf_plain {memory : PrintMemory} {args : Nat → Nat} {fmt : List UInt8}
    (plain : ∀ c ∈ fmt, c ≠ 0 ∧ c ≠ 37) :
    printf memory false args fmt = (Output.stop none).put fmt := by
  induction fmt with
  | nil => rfl
  | cons c rest inductionHypothesis =>
    obtain ⟨notNul, notPercent⟩ := plain c List.mem_cons_self
    rw [PrintState.printf_char notNul notPercent (fun never => by cases never),
      inductionHypothesis fun c member => plain c (List.mem_cons_of_mem _ member), Output.put_put]
    rfl

theorem errorString_plain (errno : Error) : ∀ c ∈ errorString errno, c ≠ 0 ∧ c ≠ 37 := by
  have checked : (errorString errno).all (fun c => c != 0 && c != 37) = true := by
    cases errno with
    | noError => rfl
    | fileNotFound => decide
    | fileReadError => decide
  intro c member
  have plain := List.all_eq_true.mp checked c member
  simpa using plain

theorem printError_eq (s : Console) : s.printError = (Output.stop none).put (errorString s.errno) :=
  printf_plain (errorString_plain s.errno)

theorem agrees_iff {f : Console → Output UInt8} :
    (∀ s', s.Agrees s' → f s' = f s) ↔
      PrintState.Same s.Accessible s.contents fun contents => f (s.withContents contents) := by
  constructor
  · intro same contents agrees
    exact same _ (agrees_withContents contents agrees)
  · intro same s' agrees
    rw [agrees.eq]
    exact same s'.contents agrees.contents

theorem printUser_iff (s : Console) (addr size : Nat) (given : List Nat) :
    (∀ s', s.Agrees s' → s'.printUser addr size given = s.printUser addr size given) ↔
      ∀ fmt, s.source addr size = .ok fmt →
        s.contents.Discreet s.kernelPlace s.Accessible false given fmt := by
  rw [agrees_iff]
  have step : ∀ contents, (s.withContents contents).printUser addr size given =
      match s.source addr size with
      | .error why => .stop (some why)
      | .ok fmt => contents.print s.kernelPlace false given fmt := fun _ => rfl
  simp only [step]
  cases s.source addr size with
  | error why =>
    refine iff_of_true (PrintState.same_const _) ?_
    intro fmt never
    cases never
  | ok fmt =>
    dsimp only
    rw [PrintState.same_print_iff s.kernelPlace_hole fmt]
    constructor
    · rintro discreet _ ⟨⟩
      exact discreet
    · intro discreet
      exact discreet fmt rfl

end Console

open Console in
/-- Two states that agree on what the caller knows print the same, if and only if the text
uses nothing else. -/
theorem printing_discloses_nothing_iff (s : Console) (ctx : CpuContext) (call : PrintCall) :
    call.DisclosesNothing s ctx ↔ call.Discreet s ctx := by
  have outputs : call.DisclosesNothing s ctx ↔
      ∀ s', s.Agrees s' → call.run s' ctx = call.run s ctx := by
    constructor
    · exact fun same s' agrees => (same s' agrees).1
    · intro same s' agrees
      refine ⟨same s' agrees, ?_⟩
      unfold after
      rw [same s' agrees, agrees.terminal]
  rw [outputs]
  by_cases prints : call.Prints ctx
  · rw [PrintCall.Discreet, forall_prop_of_true prints, ← printUser_iff]
    apply forall₂_congr
    intro s' agrees
    cases call with
    | tprintf =>
      have shown : ∀ s : Console, PrintCall.tprintf.run s ctx =
          s.printUser ctx.rsi ctx.rdx [ctx.rcx] := by
        intro s
        unfold PrintCall.run syshandlerTprintf
        rw [if_neg (Nat.not_lt_of_le prints)]
      rw [shown, shown]
      rfl
    | perror =>
      have shown : ∀ s : Console, PrintCall.perror.run s ctx =
          (s.printUser ctx.rsi ctx.rdx []).seq ((Output.stop none).put (errorString s.errno)) := by
        intro s
        have both : 0 < ctx.rdx ∧ ctx.rdx < 0x1000 := prints
        unfold PrintCall.run syshandlerPerror
        rw [if_pos both, printError_eq]
      rw [shown, shown, agrees.errno, Output.seq_left_inj]
      rfl
  · refine iff_of_true ?_ fun printed => absurd printed prints
    intro s' agrees
    cases call with
    | tprintf =>
      have more : ctx.rdx > pgSize := Nat.lt_of_not_le prints
      unfold PrintCall.run syshandlerTprintf
      rw [if_pos more, if_pos more]
    | perror =>
      have none : ¬(0 < ctx.rdx ∧ ctx.rdx < 0x1000) := prints
      unfold PrintCall.run syshandlerPerror
      rw [if_neg none, if_neg none, printError_eq, printError_eq, agrees.errno]

def emptyTerminal : Terminal := ⟨1280, fun _ => 0, 3600, 0⟩

/-- The text `%d` at the start of a page, and these arguments behind the last one. -/
def bareConversion (pgdir : ThreadPagetables) (argument : Nat) : Console where
  base := 0x100000
  kernel := windowKernel
  memory := windowMemory
  pgdir := pgdir
  errno := .noError
  terminal := emptyTerminal
  contents := {
    ram := fun p => if p = 0x700000 then 37 else if p = 0x700001 then 100 else 0
    stack := fun _ => 0
    registers := fun _ => argument }

/-- The registers of `perror` of the two characters at 0x400000. -/
def perrorContext : CpuContext := { CpuContext.zero with rdi := 9, rsi := 0x400000, rdx := 2 }

theorem perror_prints {pgdir : ThreadPagetables} {argument : Nat}
    (source : (bareConversion pgdir argument).source 0x400000 2 = .ok [0x700000, 0x700001]) :
    PrintCall.perror.run (bareConversion pgdir argument) perrorContext =
      (Output.stop none).put (intText (.ofNat 32 argument)) := by
  let s := bareConversion pgdir argument
  have user : s.printUser 0x400000 2 [] = (Output.stop none).put (intText (.ofNat 32 argument)) := by
    have text : [0x700000, 0x700001].map s.contents.ram = [37, 100] := rfl
    unfold Console.printUser
    rw [source]
    dsimp only
    unfold PrintState.print
    rw [text, PrintState.printf_percent, PrintState.printf_int]
    rfl
  have error : s.printError = .stop none := s.printError_eq
  change (s.printUser 0x400000 2 []).seq s.printError = _
  rw [user, error, Output.put_seq, Output.stop_seq]

/-- What `perror` prints of `%d` is what the kernel has left in a register. -/
theorem perror_discloses : ¬∀ (s s' : Console) (ctx : CpuContext) (call : PrintCall), s.Agrees s' →
    (s'.after (call.run s' ctx)).text = (s.after (call.run s ctx)).text := by
  intro claim
  obtain ⟨pgdir, -, source⟩ := Outcome.of_test (by decide +kernel :
    twoPages.test (fun pgdir => ((bareConversion pgdir 0).source 0x400000 2).test fun fmt =>
      decide (fmt = [0x700000, 0x700001])) = true)
  obtain ⟨fmt, done, same⟩ := Outcome.of_test source
  rw [of_decide_eq_true same] at done
  have agrees : (bareConversion pgdir 0).Agrees (bareConversion pgdir 1) :=
    ⟨rfl, rfl, rfl, rfl, rfl, rfl, fun _ _ => rfl⟩
  have done' : (bareConversion pgdir 1).source 0x400000 2 = .ok [0x700000, 0x700001] := done
  have shown : ∀ argument printed, ((bareConversion pgdir argument).after printed).text =
      (emptyTerminal.print printed.written).text := fun _ _ => rfl
  have texts := claim _ _ perrorContext .perror agrees
  rw [perror_prints done, perror_prints done', shown, shown] at texts
  revert texts
  decide

end SwagOS.Kernel
