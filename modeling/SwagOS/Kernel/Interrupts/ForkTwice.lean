import SwagOS.Kernel.Fork.AddressSpace
import SwagOS.Kernel.Interrupts.Switch

/-!
# Where fork returns

`syscall_handler` works on a copy of the frame, of which `ForkUserProcess` makes the context of
the new thread.  The parent goes on from the frame, the child from its context.
-/

namespace SwagOS.Kernel

open SwagOS.Lib SwagOS.Mem ThreadPagetables

def raxOffset : Nat := 8 * 14

/-- The contexts at the system call: the frame, its copy and that of the new thread.  `rest` is
what else the handler does to the memory. -/
def forkContexts (context ctx child childPid : BitVec 64) (rest : Memory → Memory) (m : Memory) :
    Memory :=
  -- cpu_context_t ctx = *context
  let m := m.copy ctx context contextSize
  -- new_thread->execution_context = *ctx
  let m := m.copy child ctx contextSize
  let m := rest m
  let m := m.write64 (child + BitVec.ofNat 64 raxOffset) 0
  let m := m.write64 (ctx + BitVec.ofNat 64 raxOffset) childPid
  -- *context = ctx
  m.copy context ctx contextSize

def CpuContext.withRax (ctx : CpuContext) (rax : BitVec 64) : CpuContext :=
  { ctx with rax := rax.toNat }

section Contexts

variable {m : Memory} {a context ctx child childPid rax isrId errorCode : BitVec 64} {c c' : Core}
  {cpu : CpuContext} {rest : Memory → Memory}

theorem words_withRax (words : m.Words a cpu.words) :
    (m.write64 (a + BitVec.ofNat 64 raxOffset) rax).Words a (cpu.withRax rax).words := by
  have replaced : (cpu.withRax rax).words = cpu.words.set 14 rax := by
    have same : BitVec.ofNat 64 rax.toNat = rax := by rw [BitVec.ofNat_toNat, BitVec.setWidth_eq]
    rw [CpuContext.words, CpuContext.withRax]
    simp only [List.map_cons, List.map_nil, same]
    rfl
  rw [replaced]
  exact Memory.words_set (by rw [CpuContext.length_words]; decide) words
    (by rw [CpuContext.length_words]; decide)

theorem load_withRax : ((c.context isrId errorCode).withRax rax).load c' =
    { c with
      regs := Function.update c.regs .rax rax
      mem := c'.mem
      cr3 := c'.cr3
      tss := c'.tss } := by
  have loaded := Core.load_context c c' isrId errorCode
  have regs : ((c.context isrId errorCode).withRax rax).register =
      Function.update (c.context isrId errorCode).register .rax rax := by
    funext r
    cases r with
    | rax =>
      rw [Function.update_self]
      exact BitVec.ofNat_toNat _ _ |>.trans (BitVec.setWidth_eq _)
    | _ => rfl
  have own : (c.context isrId errorCode).register = c.regs := congrArg (fun d : Core => d.regs) loaded
  rw [own] at regs
  have other : ((c.context isrId errorCode).withRax rax).load c' =
      { (c.context isrId errorCode).load c' with
        regs := ((c.context isrId errorCode).withRax rax).register } := rfl
  rw [other, regs, loaded]

/-- The frame then holds the context with the number of the child, and the new thread the one
with 0. -/
theorem forkContexts_words (words : m.Words context cpu.words)
    (frame : Memory.Apart contextSize context child) (copy : Memory.Apart contextSize ctx child)
    (kept : ∀ m, ∀ k < contextSize, rest m (ctx + BitVec.ofNat 64 k) = m (ctx + BitVec.ofNat 64 k) ∧
      rest m (child + BitVec.ofNat 64 k) = m (child + BitVec.ofNat 64 k)) :
    (forkContexts context ctx child childPid rest m).Words context (cpu.withRax childPid).words ∧
      (forkContexts context ctx child childPid rest m).Words child (cpu.withRax 0).words := by
  have fits : ∀ cpu : CpuContext, 8 * cpu.words.length ≤ contextSize := fun _ => Nat.le_refl _
  have bound : contextSize ≤ 2 ^ 64 := by decide
  have copied := @Memory.words_copy m ctx context cpu.words contextSize words (fits cpu) bound
  have given := @Memory.words_copy (m.copy ctx context contextSize) child ctx cpu.words contextSize
    copied (fits cpu) bound
  have left := Memory.words_copy_apart copy (fits cpu) copied ctx
  have given := (CpuContext.words_congr fun k below => ((kept _ k below).2).symm).mp given
  have left := (CpuContext.words_congr fun k below => ((kept _ k below).1).symm).mp left
  have zero := @words_withRax _ child 0 cpu given
  have left := Memory.words_write64_apart (v := 0) copy (fits cpu) left
    (by decide : raxOffset + 8 ≤ contextSize)
  have answer := @words_withRax _ ctx childPid cpu left
  have zero := Memory.words_write64_apart (v := childPid) copy.symm (fits _) zero
    (by decide : raxOffset + 8 ≤ contextSize)
  exact ⟨Memory.words_copy answer (fits _) bound,
    Memory.words_copy_apart frame.symm (fits _) zero ctx⟩

end Contexts

/-- The parent goes on behind the system call with the number of the child, and the child, on
whatever page table it is scheduled first, in the same place with 0. -/
theorem forkContexts_returns (image : KernelImage) {ctx child childPid : BitVec 64}
    {rest : Memory → Memory} {c c' : Core}
    (returned : image.syscallHandler (image.called 0x80 .sysCallStub .software c) = some c')
    (rsp : c'.rsp = (image.called 0x80 .sysCallStub .software c).rsp)
    (mem : c'.mem = forkContexts c'.rsp ctx child childPid rest
      (image.called 0x80 .sysCallStub .software c).mem)
    (frame : Memory.Apart contextSize c'.rsp child) (copy : Memory.Apart contextSize ctx child)
    (kept : ∀ m, ∀ k < contextSize, rest m (ctx + BitVec.ofNat 64 k) = m (ctx + BitVec.ofNat 64 k) ∧
      rest m (child + BitVec.ofNat 64 k) = m (child + BitVec.ofNat 64 k)) :
    image.interrupt 0x80 .software c = some { c with
      regs := Function.update c.regs .rax childPid
      mem := c'.mem
      cr3 := c'.cr3
      tss := c'.tss } ∧
    ∀ (cpu kstack pml4tPhys : BitVec 64) (d : Core), OutsideCpu cpu child →
      (∀ k < contextSize, d.mem (child + BitVec.ofNat 64 k) = c'.mem (child + BitVec.ofNat 64 k)) →
      switchTo cpu kstack child pml4tPhys d = { c with
        regs := Function.update c.regs .rax 0
        mem := (ctxSwitchTss cpu kstack d).mem
        cr3 := pml4tPhys
        tss := cpu + BitVec.ofNat 64 tssOffset } := by
  have filled : idtCall 0x80 = some ⟨0x80, .sysCallStub, true, false⟩ := by decide
  have agrees : Source.software.Agrees 0x80 := by
    rw [Source.Agrees]
    decide
  have permits : image.Permits 0x80 c .software := by
    rw [KernelImage.Permits, KernelImage.gate_eq filled]
    exact BitVec.le_def.mpr (Nat.le_of_lt_succ c.cpl.isLt)
  have entered := @KernelImage.called_holds image _ _ c _ filled agrees
  rw [StackMachine.Holds, ← rsp] at entered
  obtain ⟨parent, child'⟩ := @forkContexts_words _ _ _ _ childPid _ _ entered frame copy kept
  rw [← mem] at parent child'
  constructor
  · have handled : image.handler .sysCallStub (image.called 0x80 .sysCallStub .software c) =
        some c' := returned
    rw [KernelImage.interrupt_eq filled permits, handled, Option.map_some, stubExit_holds parent,
      load_withRax]
  · intro cpu kstack pml4tPhys d outside same
    have words := (CpuContext.words_congr fun k below => (same k below).symm).mp child'
    rw [switchTo_words outside words, load_withRax]

section Fork

variable {layout : Layout} {view : View} {buf : Bytes} {old iRip : Nat} {s s' : ForkSystem}
  {pid : Int}

/-- The process and the thread that `ForkUserProcess` fills in, when it does not return -1. -/
theorem forkUserProcess_child
    (forked : forkUserProcess layout view buf old iRip s = .ok (pid, s')) (served : 0 ≤ pid) :
    ∃ t, s.system.table.findFreeThread = some t ∧
      s.system.table.findFreeProcess = some pid.toNat ∧
      (s'.system.table.threads t).ownerProc = some pid.toNat ∧
      (s'.system.table.threads t).status = .ready := by
  rw [forkUserProcess] at forked
  dsimp only at forked
  split at forked
  · next p t oldProc process thread owner =>
    obtain ⟨copy, -, forked⟩ := Outcome.bind_ok.mp forked
    obtain ⟨_, -, ⟨⟩⟩ := Outcome.bind_ok.mp forked
    refine ⟨t, thread, process, ?_⟩
    have started : s.system.table.forkUserProcess old iRip =
        s.system.table.startProcess p t iRip := by
      rw [ThreadTable.forkUserProcess, process, thread, owner]
    dsimp only
    rw [started]
    simp [ThreadTable.startProcess, ThreadTable.startThread, ThreadTable.modifyThread,
      ThreadTable.modifyProc]
  · cases forked
    exact absurd served (by decide)

end Fork

/-- `fork` returns twice: when `ForkUserProcess` returns the number of a new process, the parent
goes on behind the system call with that number, and the thread of the child, wherever it is
scheduled first, in the same place with 0 and on the page table of the new process; all other
registers are those at the call, in both. -/
theorem fork_returns_twice (image : KernelImage) {layout : Layout} {view : View} {buf : Bytes}
    {old : Nat} {s s' : ForkSystem} {pid : Int} {ctx child : BitVec 64} {rest : Memory → Memory}
    {c c' : Core}
    (forked : forkUserProcess layout view buf old c.rip.toNat s = .ok (pid, s'))
    (served : 0 ≤ pid)
    (returned : image.syscallHandler (image.called 0x80 .sysCallStub .software c) = some c')
    (rsp : c'.rsp = (image.called 0x80 .sysCallStub .software c).rsp)
    (mem : c'.mem = forkContexts c'.rsp ctx child (BitVec.ofInt 64 pid) rest
      (image.called 0x80 .sysCallStub .software c).mem)
    (frame : Memory.Apart contextSize c'.rsp child) (copy : Memory.Apart contextSize ctx child)
    (kept : ∀ m, ∀ k < contextSize, rest m (ctx + BitVec.ofNat 64 k) = m (ctx + BitVec.ofNat 64 k) ∧
      rest m (child + BitVec.ofNat 64 k) = m (child + BitVec.ofNat 64 k)) :
    image.interrupt 0x80 .software c = some { c with
      regs := Function.update c.regs .rax (BitVec.ofInt 64 pid)
      mem := c'.mem
      cr3 := c'.cr3
      tss := c'.tss } ∧
    ∃ t p, pid = (p : Nat) ∧ s.system.table.findFreeThread = some t ∧
      (s'.system.table.threads t).ownerProc = some p ∧
      (s'.system.table.threads t).status = .ready ∧
      ∀ (cpu kstack : BitVec 64) (d : Core), OutsideCpu cpu child →
        (∀ k < contextSize,
          d.mem (child + BitVec.ofNat 64 k) = c'.mem (child + BitVec.ofNat 64 k)) →
        switchTo cpu kstack child (BitVec.ofNat 64 (layout.pgdirPhys p)) d = { c with
          regs := Function.update c.regs .rax 0
          mem := (ctxSwitchTss cpu kstack d).mem
          cr3 := BitVec.ofNat 64 (layout.pgdirPhys p)
          tss := cpu + BitVec.ofNat 64 tssOffset } := by
  obtain ⟨t, thread, -, owner, ready⟩ := forkUserProcess_child forked served
  obtain ⟨parent, resumed⟩ := forkContexts_returns image returned rsp mem frame copy kept
  refine ⟨parent, t, pid.toNat, (Int.toNat_of_nonneg served).symm, thread, owner, ready, ?_⟩
  intro cpu kstack d outside same
  exact resumed cpu kstack _ d outside same

/-- A thread in user mode, behind the `int 0x80` at its first instruction. -/
def forkingCore : Core := { ctxSwitchTss 0x20000 0x40000 idleCore with
  rip := 0x400000
  cs := 0x1b
  rsp := 0x8000000
  ss := 0x23
  cr3 := 0x10000000 }

def forkHandler : Handler := fun c => some { c with
  mem := forkContexts c.rsp 0x40000 0x30000 1 id c.mem
  cr3 := 0x10000000 }

/-- The first process forks: it goes on with 1, and its child with 0 when the CPU comes to it from
the idle loop. -/
theorem fork_returns_twice_firstProcess : ∃ s s' parent, firstProcess = .ok s ∧
    forkUserProcess System.machine System.nothingElse (fun _ => 0) 1 0x400000
      ⟨s, fun a => UInt8.ofNat a⟩ = .ok (1, s') ∧
    (placedImage some forkHandler).interrupt 0x80 .software forkingCore = some parent ∧
    parent.rip = 0x400000 ∧ parent.cs = 0x1b ∧ parent.rsp = 0x8000000 ∧
    parent.regs = Function.update forkingCore.regs .rax 1 ∧ parent.cr3 = 0x10000000 ∧
    let resumed := switchTo 0x20000 0x140000 0x30000 0x10402000 { idleCore with mem := parent.mem }
    resumed.rip = 0x400000 ∧ resumed.cs = 0x1b ∧ resumed.rsp = 0x8000000 ∧
      resumed.regs = Function.update forkingCore.regs .rax 0 ∧ resumed.cr3 = 0x10402000 := by
  obtain ⟨s, created, sound, -⟩ := firstProcess_sound
  obtain ⟨s', _, forked, -⟩ := sound.forked fun _ => 0
  let entered := (placedImage some forkHandler).called 0x80 .sysCallStub .software forkingCore
  have apart : Memory.Apart contextSize entered.rsp 0x30000 := by
    decide +kernel
  obtain ⟨parent, t, p, isFirst, -, -, -, resumed⟩ := @fork_returns_twice
    (placedImage some forkHandler) System.machine System.nothingElse (fun _ => 0) 1
    ⟨s, fun a => UInt8.ofNat a⟩ s' 1 0x40000 0x30000 id forkingCore _ forked (by decide) rfl rfl rfl
    apart (by decide) fun _ _ _ => ⟨rfl, rfl⟩
  obtain rfl : p = 1 := by omega
  refine ⟨s, s', _, created, forked, parent, rfl, rfl, rfl, rfl, rfl, ?_⟩
  have child := resumed 0x20000 0x140000 { idleCore with mem := _ } ⟨by decide, by decide⟩
    fun _ _ => rfl
  have table : BitVec.ofNat 64 (System.machine.pgdirPhys 1) = 0x10402000 := rfl
  rw [table] at child
  intro again
  have same : again = _ := child
  rw [same]
  exact ⟨rfl, rfl, rfl, rfl, rfl⟩

end SwagOS.Kernel
