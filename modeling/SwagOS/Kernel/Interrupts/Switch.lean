import SwagOS.Kernel.Interrupts.Delivery
import SwagOS.Kernel.Interrupts.Segments

/-!
# Switching between threads

What `SaveThreadContext` stores, what the end of `schedule` loads, and the descriptors that
`ctx_switch_tss` writes before.
-/

namespace SwagOS.Kernel

open SwagOS.Lib

/-- `old_thread->execution_context = *ctx` -/
def saveContext (executionContext ctx : BitVec 64) (m : Memory) : Memory :=
  m.copy executionContext ctx contextSize

/-- The registers that `schedule` pops before it loads the page table. -/
def scheduleOrder : List Register :=
  [.r15, .r14, .r13, .r12, .r11, .r10, .r9, .r8, .rdi, .rsi, .rbp, .rdx, .rcx, .rbx]

/-- The assembly at the end of `schedule`; the page table goes through `rax`. -/
def loadContext (executionContext pml4tPhys : BitVec 64) (c : Core) : Core :=
  let c := c.setRsp executionContext
  let c := c.mov .rax pml4tPhys
  let c := c.popAll scheduleOrder
  let c := { c with cr3 := c.regs .rax }
  let c := c.popAll [.rax]
  let c := c.addRsp 16
  c.iretq

section Contexts

variable {c d : Core} {executionContext pml4tPhys : BitVec 64} {ctx : CpuContext}

theorem popAll_around (holds : c.Holds ctx.words) (table : c.regs .rax = pml4tPhys) :
    let popped := c.popAll scheduleOrder
    (({ popped with cr3 := popped.regs .rax }.popAll [.rax]).addRsp 16).iretq =
      { ctx.load c with cr3 := pml4tPhys } := by
  obtain ⟨popped, later⟩ :=
    @Core.popAll_holds c scheduleOrder ctx.register (ctx.register .rax :: ctx.rest) holds
  obtain ⟨last, rest⟩ := @Core.popAll_holds
    { c.popAll scheduleOrder with cr3 := (c.popAll scheduleOrder).regs .rax }
    [.rax] ctx.register ctx.rest later
  have regs : ∀ r, (if r ∈ [Register.rax] then ctx.register r else
      if r ∈ scheduleOrder then ctx.register r else c.regs r) = ctx.register r := by
    intro r
    cases r <;> rfl
  have kept : (c.popAll scheduleOrder).regs .rax = pml4tPhys := by
    rw [popped]
    exact table
  dsimp only
  rw [Core.iretq_holds rest, last, kept, popped]
  simp only [regs, CpuContext.load]

theorem loadContext_words (words : c.mem.Words executionContext ctx.words) :
    loadContext executionContext pml4tPhys c = { ctx.load c with cr3 := pml4tPhys } := by
  have holds : ((c.setRsp executionContext).mov .rax pml4tPhys).Holds ctx.words :=
    Core.holds_mov.mpr (Core.holds_setRsp.mpr words)
  have around := popAll_around holds Core.regs_mov
  dsimp only at around
  rw [loadContext]
  dsimp only
  rw [around]
  rfl

end Contexts

def switchTo (cpu kstack executionContext pml4tPhys : BitVec 64) (c : Core) : Core :=
  loadContext executionContext pml4tPhys (ctxSwitchTss cpu kstack c)

section Switching

variable {cpu kstack executionContext pml4tPhys : BitVec 64} {c d : Core} {ctx : CpuContext}

def OutsideCpu (cpu executionContext : BitVec 64) : Prop :=
  cpuSize ≤ (executionContext - cpu).toNat ∧
    (executionContext - cpu).toNat + contextSize ≤ 2 ^ 64

theorem switchTo_words (outside : OutsideCpu cpu executionContext)
    (words : d.mem.Words executionContext ctx.words) :
    switchTo cpu kstack executionContext pml4tPhys d = { ctx.load d with
      mem := (ctxSwitchTss cpu kstack d).mem
      cr3 := pml4tPhys
      tss := cpu + BitVec.ofNat 64 tssOffset } := by
  obtain ⟨-, -, left⟩ := ctxSwitchTss_loads cpu kstack d
  have kept : (ctxSwitchTss cpu kstack d).mem.Words executionContext ctx.words := by
    refine (CpuContext.words_congr ?_).mp words
    intro k below
    obtain ⟨above, under⟩ := outside
    rw [contextSize] at under below
    apply (left _ _).symm
    rw [Memory.toNat_add_sub (by omega)]
    omega
  rw [switchTo, loadContext_words kept]
  simp only [CpuContext.load, ctxSwitchTss_eq]

end Switching

/-- A thread that was interrupted and whose context was saved goes on where it was, on whatever
CPU it is scheduled and whatever has happened since, as long as its context was left alone. -/
theorem thread_resumes (image : KernelImage) {v : BitVec 8} {source : Source} {call : IdtCall}
    {cpu kstack executionContext pml4tPhys : BitVec 64} {c d : Core} {m : Memory}
    (filled : idtCall v = some call) (agrees : source.Agrees v)
    (outside : OutsideCpu cpu executionContext)
    (frame : ∀ k < contextSize,
      let entered := image.called v call.stub source c
      m (entered.rsp + BitVec.ofNat 64 k) = entered.mem (entered.rsp + BitVec.ofNat 64 k))
    (kept : ∀ k < contextSize, d.mem (executionContext + BitVec.ofNat 64 k) =
      saveContext executionContext (image.called v call.stub source c).rsp m
        (executionContext + BitVec.ofNat 64 k)) :
    switchTo cpu kstack executionContext pml4tPhys d = { c with
      mem := (ctxSwitchTss cpu kstack d).mem
      cr3 := pml4tPhys
      tss := cpu + BitVec.ofNat 64 tssOffset } := by
  have entered := @KernelImage.called_holds image _ _ c _ filled agrees
  have copied : m.Words (image.called v call.stub source c).rsp
      (c.context call.stub.isrId (source.frameError v)).words :=
    (CpuContext.words_congr fun k below => (frame k below).symm).mp entered
  have saved : (saveContext executionContext (image.called v call.stub source c).rsp m).Words
      executionContext (c.context call.stub.isrId (source.frameError v)).words :=
    Memory.words_copy copied (by rw [CpuContext.length_words, contextSize]) (by decide)
  have words : d.mem.Words executionContext
      (c.context call.stub.isrId (source.frameError v)).words :=
    (CpuContext.words_congr fun k below => (kept k below).symm).mp saved
  rw [switchTo_words outside words, Core.load_context]

def preemptedCore : Core := { ctxSwitchTss 0x20000 0x40000 idleCore with
  rip := 0x400010
  cs := 0x1b
  rsp := 0x8000000
  ss := 0x23
  cr3 := 0x5000 }

/-- The timer interrupts the thread, its context is saved, and the CPU comes back to it from the
idle loop. -/
theorem thread_resumes_user :
    let entered := (placedImage some some).called 32 (.isr 32) .external preemptedCore
    let resumed := switchTo 0x20000 0x40000 0x30000 0x5000 { idleCore with
      mem := saveContext 0x30000 entered.rsp entered.mem }
    resumed.rip = 0x400010 ∧ resumed.cs = 0x1b ∧ resumed.rsp = 0x8000000 ∧
      resumed.regs = preemptedCore.regs ∧ resumed.cr3 = 0x5000 := by
  intro entered resumed
  have same := @thread_resumes (placedImage some some) 32 .external ⟨32, .isr 32, true, true⟩
    0x20000 0x40000 0x30000 0x5000 preemptedCore
    { idleCore with mem := saveContext 0x30000 entered.rsp entered.mem } entered.mem (by decide)
    (by decide) ⟨by decide, by decide⟩ (fun _ _ => rfl) fun _ _ => rfl
  have same : resumed = _ := same
  rw [same]
  exact ⟨rfl, rfl, rfl, rfl, rfl⟩

theorem aligned_down (a : BitVec 64) : ∃ low < 16, a &&& ~~~0xf#64 = a - BitVec.ofNat 64 low := by
  have parts : (a &&& ~~~0xf#64) + (a &&& 0xf#64) = a := by
    rw [BitVec.add_eq_or_of_and_eq_zero, ← BitVec.and_or_distrib_left]
    · have all : ~~~0xf#64 ||| 0xf#64 = BitVec.allOnes 64 := by decide
      rw [all, BitVec.and_allOnes]
    · have none : ~~~0xf#64 &&& 0xf#64 = 0#64 := by decide
      rw [BitVec.and_assoc, ← BitVec.and_assoc (~~~0xf#64) a, BitVec.and_comm (~~~0xf#64) a,
        BitVec.and_assoc a, none, BitVec.and_zero, BitVec.and_zero]
  refine ⟨(a &&& 0xf#64).toNat, ?_, ?_⟩
  · rw [BitVec.toNat_and]
    exact Nat.lt_succ_of_le Nat.and_le_right
  · rw [BitVec.ofNat_toNat, BitVec.setWidth_eq]
    exact BitVec.eq_sub_iff_add_eq.mpr parts

theorem frame_fits {kstack : BitVec 64} {low : Nat} (small : low < 16) :
    (kstack + BitVec.ofNat 64 kstackSize - BitVec.ofNat 64 low -
      BitVec.ofNat 64 contextSize - kstack).toNat + contextSize ≤ kstackSize := by
  rw [contextSize, kstackSize]
  bv_omega

/-- While a thread runs in user mode on a CPU that was switched to it, each interrupt puts its
frame on the kernel stack of the thread. -/
theorem user_interrupt_on_kstack (image : KernelImage) {v : BitVec 8} {source : Source}
    {call : IdtCall} {cpu kstack : BitVec 64} {c d : Core} (filled : idtCall v = some call)
    (agrees : source.Agrees v) (user : d.cpl ≠ 0) (loaded : d.tss = (ctxSwitchTss cpu kstack c).tss)
    (kept : d.mem.read64 (d.tss + 4) = (ctxSwitchTss cpu kstack c).mem.read64 (d.tss + 4)) :
    ((image.called v call.stub source d).rsp - kstack).toNat + contextSize ≤ kstackSize := by
  obtain ⟨-, rsp0, -⟩ := ctxSwitchTss_loads cpu kstack c
  rw [← loaded] at rsp0
  obtain ⟨low, small, top⟩ := aligned_down (kstack + BitVec.ofNat 64 kstackSize)
  rw [KernelImage.called_rsp filled agrees, Core.handlerStack, if_neg user, kept, rsp0, top]
  exact frame_fits small

theorem user_interrupt_on_kstack_keyboard :
    (((placedImage some some).called 33 (.isr 33) .external
      { ctxSwitchTss 0x20000 0x40000 idleCore with cs := 0x1b }).rsp - 0x40000).toNat +
      contextSize ≤ kstackSize :=
  @user_interrupt_on_kstack (placedImage some some) 33 .external ⟨33, .isr 33, false, false⟩
    0x20000 0x40000 idleCore { ctxSwitchTss 0x20000 0x40000 idleCore with cs := 0x1b } (by decide)
    (by decide) (by decide : (0x1b : BitVec 64).setWidth 2 ≠ (0 : BitVec 2)) rfl rfl

end SwagOS.Kernel
