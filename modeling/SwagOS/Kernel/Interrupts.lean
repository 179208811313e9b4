import SwagOS.Kernel.Exec
import SwagOS.Kernel.InterruptTable
import SwagOS.Lib.StackMachine

/-!
# Entering and leaving the kernel

What the CPU does at an interrupt and at `iretq`, and the stubs of `isr.asm` in between.  The
memory is that of the kernel, which every page table maps.  A handler is C code; by its calling
convention it gives the stack pointer back, and it may use every other register.
-/

namespace SwagOS.Kernel

open SwagOS.Lib

inductive Register where
  | rax | rbx | rcx | rdx | rbp | rsi | rdi
  | r8 | r9 | r10 | r11 | r12 | r13 | r14 | r15
  deriving DecidableEq

/-- The registers of a CPU and the memory of the kernel. -/
structure Core extends StackMachine Register where
  rip : BitVec 64
  cs : BitVec 64
  rflags : BitVec 64
  ss : BitVec 64
  cr3 : BitVec 64
  /-- The task state segment that `ltr` loaded. -/
  tss : BitVec 64

def clearFlag (flag : Nat) (rflags : BitVec 64) : BitVec 64 := rflags &&& ~~~(1#64 <<< flag)

namespace Core

variable (c : Core)

def cpl : BitVec 2 := c.cs.setWidth 2

/-- User code goes over to `rsp0`; the stack is aligned either way. -/
def handlerStack : BitVec 64 :=
  (if c.cpl = 0 then c.rsp else c.mem.read64 (c.tss + 4)) &&& ~~~0xf#64

def interruptedWords (errorCode : Option (BitVec 64)) : List (BitVec 64) :=
  [c.ss, c.rsp, c.rflags, c.cs, c.rip] ++ errorCode.toList

/-- An interrupt through a gate.  An interrupt gate clears the interrupt flag, and each gate the
trap flag, the nested task, resume and virtual 8086 flags. -/
def deliver (gate : Gate) (errorCode : Option (BitVec 64)) : Core :=
  let flags := clearFlag 8 (clearFlag 14 (clearFlag 16 (clearFlag 17 c.rflags)))
  { toStackMachine := { c.toStackMachine with rsp := c.handlerStack }.pushAll
      (c.interruptedWords errorCode)
    rip := gate.offset
    cs := gate.selector.setWidth 64
    rflags := if gate.type = 0xe then clearFlag 9 flags else flags
    ss := if c.cpl = 0 then c.ss else 0
    cr3 := c.cr3
    tss := c.tss }

def cli : Core := { c with rflags := clearFlag 9 c.rflags }

def cld : Core := { c with rflags := clearFlag 10 c.rflags }

def pushAll (vs : List (BitVec 64)) : Core :=
  { c with toStackMachine := c.toStackMachine.pushAll vs }

def popAll (rs : List Register) : Core :=
  { c with toStackMachine := c.toStackMachine.popAll rs }

/-- `mov r, v` -/
def mov (r : Register) (v : BitVec 64) : Core :=
  { c with regs := Function.update c.regs r v }

/-- `mov rsp, v` -/
def setRsp (v : BitVec 64) : Core := { c with rsp := v }

/-- `add rsp, n` -/
def addRsp (n : BitVec 64) : Core := { c with rsp := c.rsp + n }

def iretq : Core :=
  { c with
    rip := c.mem.read64 c.rsp
    cs := c.mem.read64 (c.rsp + 8)
    rflags := c.mem.read64 (c.rsp + 16)
    rsp := c.mem.read64 (c.rsp + 24)
    ss := c.mem.read64 (c.rsp + 32) }

end Core

def saveOrder : List Register :=
  [.rax, .rbx, .rcx, .rdx, .rbp, .rsi, .rdi, .r8, .r9, .r10, .r11, .r12, .r13, .r14, .r15]

def restoreOrder : List Register :=
  [.r15, .r14, .r13, .r12, .r11, .r10, .r9, .r8, .rdi, .rsi, .rbp, .rdx, .rcx, .rbx, .rax]

def saveGpr (c : Core) : Core := c.pushAll (saveOrder.map c.regs)

def restoreGpr (c : Core) : Core := c.popAll restoreOrder

/-- A handler of the C code; `none` where it does not return. -/
abbrev Handler := Core → Option Core

def stubEntry (pushes : List (BitVec 64)) (c : Core) : Core :=
  let c := c.cli
  let c := c.pushAll pushes
  let c := saveGpr c
  let c := c.mov .rdi c.rsp
  c.cld

def stubExit (c : Core) : Core :=
  let c := restoreGpr c
  let c := c.addRsp 16
  c.iretq

def runStub (pushes : List (BitVec 64)) (handler : Handler) (c : Core) : Option Core :=
  (handler (stubEntry pushes c)).map stubExit

section Stubs

variable (isrHandler syscallHandler : Handler)

def isr (n : BitVec 8) : Core → Option Core := runStub [0x0, n.setWidth 64] isrHandler

/-- `isr_errorcode n`, which relies on the error code of the CPU. -/
def isrErrorcode (n : BitVec 8) : Core → Option Core := runStub [n.setWidth 64] isrHandler

def sysCallStub : Core → Option Core := runStub [0x0, 0x80] syscallHandler

def stubCode : Stub → Core → Option Core
  | .isr n => isr isrHandler n
  | .isrErrorcode n => isrErrorcode isrHandler n
  | .sysCallStub => sysCallStub syscallHandler

end Stubs

def Stub.pushes : Stub → List (BitVec 64)
  | .isr n => [0x0, n.setWidth 64]
  | .isrErrorcode n => [n.setWidth 64]
  | .sysCallStub => [0x0, 0x80]

def Stub.isrId : Stub → BitVec 64
  | .isr n => n.setWidth 64
  | .isrErrorcode n => n.setWidth 64
  | .sysCallStub => 0x80

def Stub.handler (isrHandler syscallHandler : Handler) : Stub → Handler
  | .isr _ => isrHandler
  | .isrErrorcode _ => isrHandler
  | .sysCallStub => syscallHandler

theorem stubCode_eq (isrHandler syscallHandler : Handler) (stub : Stub) (c : Core) :
    stubCode isrHandler syscallHandler stub c =
      runStub stub.pushes (stub.handler isrHandler syscallHandler) c := by
  cases stub <;> rfl

/-- The words of a `cpu_context_t`, which are also those of a `trapframe64_t`. -/
def CpuContext.words (ctx : CpuContext) : List (BitVec 64) :=
  [ctx.r15, ctx.r14, ctx.r13, ctx.r12, ctx.r11, ctx.r10, ctx.r9, ctx.r8, ctx.rdi, ctx.rsi, ctx.rbp,
    ctx.rdx, ctx.rcx, ctx.rbx, ctx.rax, ctx.isrId, ctx.errorCode, ctx.iRip, ctx.iCs, ctx.iRflags,
    ctx.iRsp, ctx.iSs].map (BitVec.ofNat 64)

/-- `sizeof(cpu_context_t)` -/
def contextSize : Nat := 176

def CpuContext.register (ctx : CpuContext) : Register → BitVec 64
  | .rax => BitVec.ofNat 64 ctx.rax
  | .rbx => BitVec.ofNat 64 ctx.rbx
  | .rcx => BitVec.ofNat 64 ctx.rcx
  | .rdx => BitVec.ofNat 64 ctx.rdx
  | .rbp => BitVec.ofNat 64 ctx.rbp
  | .rsi => BitVec.ofNat 64 ctx.rsi
  | .rdi => BitVec.ofNat 64 ctx.rdi
  | .r8 => BitVec.ofNat 64 ctx.r8
  | .r9 => BitVec.ofNat 64 ctx.r9
  | .r10 => BitVec.ofNat 64 ctx.r10
  | .r11 => BitVec.ofNat 64 ctx.r11
  | .r12 => BitVec.ofNat 64 ctx.r12
  | .r13 => BitVec.ofNat 64 ctx.r13
  | .r14 => BitVec.ofNat 64 ctx.r14
  | .r15 => BitVec.ofNat 64 ctx.r15

def CpuContext.load (ctx : CpuContext) (c : Core) : Core :=
  { c with
    regs := ctx.register
    rip := BitVec.ofNat 64 ctx.iRip
    cs := BitVec.ofNat 64 ctx.iCs
    rflags := BitVec.ofNat 64 ctx.iRflags
    rsp := BitVec.ofNat 64 ctx.iRsp
    ss := BitVec.ofNat 64 ctx.iSs }

def Core.context (c : Core) (isrId errorCode : BitVec 64) : CpuContext where
  r15 := (c.regs .r15).toNat
  r14 := (c.regs .r14).toNat
  r13 := (c.regs .r13).toNat
  r12 := (c.regs .r12).toNat
  r11 := (c.regs .r11).toNat
  r10 := (c.regs .r10).toNat
  r9 := (c.regs .r9).toNat
  r8 := (c.regs .r8).toNat
  rdi := (c.regs .rdi).toNat
  rsi := (c.regs .rsi).toNat
  rbp := (c.regs .rbp).toNat
  rdx := (c.regs .rdx).toNat
  rcx := (c.regs .rcx).toNat
  rbx := (c.regs .rbx).toNat
  rax := (c.regs .rax).toNat
  isrId := isrId.toNat
  errorCode := errorCode.toNat
  iRip := c.rip.toNat
  iCs := c.cs.toNat
  iRflags := c.rflags.toNat
  iRsp := c.rsp.toNat
  iSs := c.ss.toNat

section Contexts

variable {c c' : Core} {ctx : CpuContext} {isrId errorCode : BitVec 64}

@[simp] theorem CpuContext.length_words (ctx : CpuContext) : ctx.words.length = 22 := rfl

theorem CpuContext.words_congr {m m' : Memory} {a b : BitVec 64}
    (same : ∀ k < contextSize, m (a + BitVec.ofNat 64 k) = m' (b + BitVec.ofNat 64 k)) :
    m.Words a ctx.words ↔ m'.Words b ctx.words :=
  Memory.words_congr same

/-- A CPU that goes on in its own context is the one that was interrupted. -/
theorem Core.load_context (c c' : Core) (isrId errorCode : BitVec 64) :
    (c.context isrId errorCode).load c' =
      { c with mem := c'.mem, cr3 := c'.cr3, tss := c'.tss } := by
  have regs : (c.context isrId errorCode).register = c.regs := by
    funext r
    cases r <;> exact BitVec.ofNat_toNat _ _ |>.trans (BitVec.setWidth_eq _)
  rw [CpuContext.load, regs]
  simp only [Core.context, BitVec.ofNat_toNat, BitVec.setWidth_eq]

theorem stubEntry_holds {gate : Gate} {error : Option (BitVec 64)} {pushes : List (BitVec 64)}
    (two : error.toList ++ pushes = [errorCode, isrId]) :
    (stubEntry pushes (c.deliver gate error)).Holds (c.context isrId errorCode).words := by
  let top : StackMachine Register := { c.toStackMachine with rsp := c.handlerStack }
  let pushed := [c.ss, c.rsp, c.rflags, c.cs, c.rip] ++ [errorCode, isrId] ++ saveOrder.map c.regs
  have once : ((top.pushAll (c.interruptedWords error)).pushAll pushes).pushAll
      (saveOrder.map c.regs) = top.pushAll pushed := by
    simp only [pushed, ← two, Core.interruptedWords, StackMachine.pushAll, List.foldl_append]
  have regs : (top.pushAll (c.interruptedWords error)).regs = c.regs := StackMachine.regs_pushAll
  -- The stub uses `rdi` once the registers are on the stack.
  have entered : (stubEntry pushes (c.deliver gate error)).Holds (c.context isrId errorCode).words ↔
      (top.pushAll pushed).Holds (c.context isrId errorCode).words := by
    rw [← once]
    have same : ((c.deliver gate error).cli.pushAll pushes).regs = c.regs := by
      rw [← regs]
      exact StackMachine.regs_pushAll
    have saved : saveOrder.map ((c.deliver gate error).cli.pushAll pushes).regs =
        saveOrder.map c.regs := by rw [same]
    rw [← saved]
    exact Iff.rfl
  have reversed : (c.context isrId errorCode).words = pushed.reverse ++ [] := by
    simp [pushed, CpuContext.words, Core.context, saveOrder]
  rw [entered, reversed]
  apply StackMachine.holds_pushAll _ Memory.words_nil
  simp [pushed, saveOrder]

theorem Core.popAll_holds {rs : List Register} {f : Register → BitVec 64} {ws : List (BitVec 64)}
    (holds : c.Holds (rs.map f ++ ws)) :
    c.popAll rs = { c with
        regs := fun r => if r ∈ rs then f r else c.regs r
        rsp := c.rsp + BitVec.ofNat 64 (8 * rs.length) } ∧ (c.popAll rs).Holds ws := by
  obtain ⟨popped, rest⟩ := StackMachine.popAll_holds holds
  refine ⟨?_, rest⟩
  rw [popAll, popped]

theorem Core.holds_setRsp {a : BitVec 64} {ws : List (BitVec 64)} :
    (c.setRsp a).Holds ws ↔ c.mem.Words a ws := Iff.rfl

theorem Core.holds_mov {r : Register} {v : BitVec 64} {ws : List (BitVec 64)} :
    (c.mov r v).Holds ws ↔ c.Holds ws := Iff.rfl

@[simp] theorem Core.regs_mov {r : Register} {v : BitVec 64} : (c.mov r v).regs r = v := by
  rw [mov]
  dsimp only
  rw [Function.update_self]

def CpuContext.rest (ctx : CpuContext) : List (BitVec 64) :=
  [ctx.isrId, ctx.errorCode, ctx.iRip, ctx.iCs, ctx.iRflags, ctx.iRsp, ctx.iSs].map
    (BitVec.ofNat 64)

theorem Core.iretq_holds (holds : c.Holds ctx.rest) : (c.addRsp 16).iretq = { c with
    rip := BitVec.ofNat 64 ctx.iRip
    cs := BitVec.ofNat 64 ctx.iCs
    rflags := BitVec.ofNat 64 ctx.iRflags
    rsp := BitVec.ofNat 64 ctx.iRsp
    ss := BitVec.ofNat 64 ctx.iSs } := by
  simp only [StackMachine.Holds, CpuContext.rest, List.map_cons, List.map_nil,
    Memory.words_cons] at holds
  obtain ⟨-, -, rip, cs, rflags, rsp, ss, -⟩ := holds
  have places : ∀ a : BitVec 64, a + 16 = a + 8 + 8 ∧ a + 24 = a + 8 + 8 + 8 ∧
      a + 32 = a + 8 + 8 + 8 + 8 := by
    intro a
    refine ⟨?_, ?_, ?_⟩ <;> bv_omega
  obtain ⟨two, three, four⟩ := places (c.rsp + 16)
  rw [addRsp, iretq]
  dsimp only
  rw [two, three, four, (places c.rsp).1, rip, cs, rflags, rsp, ss]

/-- A stub goes on in the context that its handler leaves on the stack. -/
theorem stubExit_holds (holds : c.Holds ctx.words) : stubExit c = ctx.load c := by
  have regs : (fun r => if r ∈ restoreOrder then ctx.register r else c.regs r) = ctx.register := by
    funext r
    have member : r ∈ restoreOrder := by cases r <;> decide
    rw [if_pos member]
  obtain ⟨popped, rest⟩ := @Core.popAll_holds c restoreOrder ctx.register ctx.rest holds
  rw [stubExit, restoreGpr, Core.iretq_holds rest, popped, regs]
  rfl

end Contexts

end SwagOS.Kernel
