import SwagOS.Kernel.Interrupts

/-!
# Interrupts through the table

From the vector to the stub and back.  The CPU pushes an error code for some exceptions only,
and the stubs of these rely on it, but for the exceptions 21, 29 and 30.
-/

namespace SwagOS.Kernel

open SwagOS.Lib

inductive Source where
  | exception (errorCode : BitVec 64)
  | external
  /-- The instruction `int`. -/
  | software

def errorVectors : List (BitVec 8) := [8, 10, 11, 12, 13, 14, 17, 21, 29, 30]

def Source.errorCode (v : BitVec 8) : Source → Option (BitVec 64)
  | .exception errorCode => if v ∈ errorVectors then some errorCode else none
  | .external => none
  | .software => none

def Source.frameError (source : Source) (v : BitVec 8) : BitVec 64 := (source.errorCode v).getD 0x0

def Installed (v : BitVec 8) : Prop := v ≤ 46 ∨ v = 0x80

instance (v : BitVec 8) : Decidable (Installed v) := inferInstanceAs (Decidable (_ ∨ _))

def doubledVectors : List (BitVec 8) := [21, 29, 30]

def Source.Agrees (v : BitVec 8) : Source → Prop
  | .exception _ => v ∉ doubledVectors
  | .external => v ∉ errorVectors ∨ v ∈ doubledVectors
  | .software => v ∉ errorVectors ∨ v ∈ doubledVectors

instance (v : BitVec 8) (source : Source) : Decidable (source.Agrees v) := by
  cases source <;> rw [Source.Agrees] <;> infer_instance

/-- The code of the kernel: where the stubs are, and the handlers. -/
structure KernelImage where
  address : Stub → BitVec 64
  code : BitVec 64 → Option Stub
  linked : ∀ stub, code (address stub) = some stub
  isrHandler : Handler
  syscallHandler : Handler

namespace KernelImage

variable (image : KernelImage)

def gate (v : BitVec 8) : Gate := Gate.read (buildIdt image.address v).packed

/-- `int` is for gates of the privilege level only. -/
def Permits (v : BitVec 8) (c : Core) : Source → Prop
  | .software => c.cpl ≤ (image.gate v).dpl
  | .exception _ => True
  | .external => True

instance (v : BitVec 8) (c : Core) (source : Source) : Decidable (image.Permits v c source) := by
  cases source <;> rw [Permits] <;> infer_instance

/-- An interrupt from one end to the other; `none` where the handler does not return, or where
the CPU raises another exception instead. -/
def interrupt (v : BitVec 8) (source : Source) (c : Core) : Option Core :=
  let gate := image.gate v
  if gate.present ∧ image.Permits v c source then
    (image.code gate.offset).bind fun stub =>
      stubCode image.isrHandler image.syscallHandler stub (c.deliver gate (source.errorCode v))
  else none

def handler : Stub → Handler := Stub.handler image.isrHandler image.syscallHandler

def called (v : BitVec 8) (stub : Stub) (source : Source) (c : Core) : Core :=
  stubEntry stub.pushes (c.deliver (image.gate v) (source.errorCode v))

variable {image} {v : BitVec 8} {source : Source} {c c' : Core} {ctx : CpuContext}

theorem installed_iff (v : BitVec 8) : Installed v ↔ (idtCall v).isSome = true := by
  revert v
  decide +kernel

theorem gate_eq {call : IdtCall} (filled : idtCall v = some call) :
    image.gate v = Gate.to (image.address call.stub) call.userAccessible call.trapGate := by
  rw [gate, read_buildIdt, filled]
  rfl

theorem stub_pushes : ∀ call ∈ idtCalls, call.stub.pushes =
    if call.index ∈ errorVectors ∧ call.index ∉ doubledVectors then [call.stub.isrId]
    else [0x0, call.stub.isrId] := by
  decide

theorem agrees_pushes {call : IdtCall} (filled : idtCall v = some call)
    (agrees : source.Agrees v) : (source.errorCode v).toList ++ call.stub.pushes =
      [source.frameError v, call.stub.isrId] := by
  obtain ⟨member, index⟩ := idtCall_mem filled
  rw [stub_pushes call member, index]
  cases source with
  | exception errorCode =>
    have single : v ∉ doubledVectors := agrees
    by_cases member : v ∈ errorVectors
    · simp [Source.frameError, Source.errorCode, member, single]
    · simp [Source.frameError, Source.errorCode, member]
  | external =>
    have none : ¬(v ∈ errorVectors ∧ v ∉ doubledVectors) := by
      rintro ⟨member, single⟩
      exact agrees.elim (fun not => not member) single
    simp [Source.frameError, Source.errorCode, none]
  | software =>
    have none : ¬(v ∈ errorVectors ∧ v ∉ doubledVectors) := by
      rintro ⟨member, single⟩
      exact agrees.elim (fun not => not member) single
    simp [Source.frameError, Source.errorCode, none]

theorem called_holds {call : IdtCall} (filled : idtCall v = some call)
    (agrees : source.Agrees v) : (image.called v call.stub source c).Holds
      (c.context call.stub.isrId (source.frameError v)).words :=
  stubEntry_holds (agrees_pushes filled agrees)

theorem interrupt_eq {call : IdtCall} (filled : idtCall v = some call)
    (permits : image.Permits v c source) : image.interrupt v source c =
      (image.handler call.stub (image.called v call.stub source c)).map stubExit := by
  have gate := @gate_eq image _ _ filled
  have present : (image.gate v).present = true ∧ image.Permits v c source := by
    rw [gate]
    exact ⟨rfl, permits⟩
  have offset : image.code (image.gate v).offset = some call.stub := by
    rw [gate]
    exact image.linked call.stub
  rw [interrupt, if_pos present, offset, Option.bind_some, stubCode_eq]
  rfl

theorem called_pushes {call : IdtCall} (filled : idtCall v = some call) (agrees : source.Agrees v) :
    ∃ pushed : List (BitVec 64), pushed.length = 22 ∧
      let top : StackMachine Register := { c.toStackMachine with rsp := c.handlerStack }
      (image.called v call.stub source c).mem = (top.pushAll pushed).mem ∧
        (image.called v call.stub source c).rsp = (top.pushAll pushed).rsp := by
  let top : StackMachine Register := { c.toStackMachine with rsp := c.handlerStack }
  let saved := saveOrder.map
    ((c.deliver (image.gate v) (source.errorCode v)).cli.pushAll call.stub.pushes).regs
  have once : ((top.pushAll (c.interruptedWords (source.errorCode v))).pushAll
      call.stub.pushes).pushAll saved =
      top.pushAll (c.interruptedWords (source.errorCode v) ++ call.stub.pushes ++ saved) := by
    simp only [StackMachine.pushAll, List.foldl_append]
  refine ⟨c.interruptedWords (source.errorCode v) ++ call.stub.pushes ++ saved, ?_, ?_, ?_⟩
  · have two := congrArg List.length (agrees_pushes filled agrees)
    rw [List.length_append] at two
    simp only [saved, Core.interruptedWords, List.length_append, List.length_map, List.length_cons,
      List.length_nil] at two ⊢
    have registers : saveOrder.length = 15 := rfl
    omega
  · rw [← once]
    rfl
  · rw [← once]
    rfl

theorem called_mem {call : IdtCall} (filled : idtCall v = some call) (agrees : source.Agrees v)
    {p : BitVec 64} (outside : contextSize ≤ (p - (image.called v call.stub source c).rsp).toNat) :
    (image.called v call.stub source c).mem p = c.mem p := by
  obtain ⟨pushed, length, mem, rsp⟩ := @called_pushes image _ _ c _ filled agrees
  rw [mem]
  apply StackMachine.mem_pushAll
  rw [length, ← rsp]
  exact outside

theorem called_rsp {call : IdtCall} (filled : idtCall v = some call) (agrees : source.Agrees v) :
    (image.called v call.stub source c).rsp = c.handlerStack - BitVec.ofNat 64 contextSize := by
  obtain ⟨pushed, length, -, rsp⟩ := @called_pushes image _ _ c _ filled agrees
  rw [rsp, StackMachine.rsp_pushAll, length, contextSize]

theorem getLsbD_clearFlag {flag i : Nat} {rflags : BitVec 64} (inside : i < 64) :
    (clearFlag flag rflags).getLsbD i = (rflags.getLsbD i && !decide (i = flag)) := by
  rw [clearFlag, BitVec.getLsbD_and, BitVec.getLsbD_not]
  simp only [inside, decide_true, Bool.true_and, BitVec.getLsbD_shiftLeft, BitVec.getLsbD_one]
  congr 2
  grind

/-- The flags at the call: no interrupts, and the direction that the C code asks for. -/
theorem called_flags {stub : Stub} : (image.called v stub source c).rflags.getLsbD 9 = false ∧
    (image.called v stub source c).rflags.getLsbD 10 = false := by
  have flags : (image.called v stub source c).rflags =
      clearFlag 10 (clearFlag 9 (c.deliver (image.gate v) (source.errorCode v)).rflags) := rfl
  rw [flags, getLsbD_clearFlag (by decide), getLsbD_clearFlag (by decide),
    getLsbD_clearFlag (by decide)]
  simp

theorem called_rdi {stub : Stub} : (image.called v stub source c).regs .rdi =
    (image.called v stub source c).rsp := by
  rw [called, stubEntry]
  exact Core.regs_mov

end KernelImage

/-- Whatever interrupt comes through the table: the handler is given the interrupted context,
without interrupts, and nothing else of the memory has changed.  When it returns, the CPU goes on
in the context that is on the stack then; if that is the old one, as if nothing had happened. -/
theorem interrupt_transparent (image : KernelImage) {v : BitVec 8} {source : Source} {c : Core}
    (installed : Installed v) (agrees : source.Agrees v) (permits : image.Permits v c source) :
    ∃ call, idtCall v = some call ∧
      let entered := image.called v call.stub source c
      let ctx := c.context call.stub.isrId (source.frameError v)
      entered.Holds ctx.words ∧ entered.regs .rdi = entered.rsp ∧
      (entered.rflags.getLsbD 9 = false ∧ entered.rflags.getLsbD 10 = false) ∧
      (∀ p, contextSize ≤ (p - entered.rsp).toNat → entered.mem p = c.mem p) ∧
      ∀ c', image.handler call.stub entered = some c' →
        (∀ ctx' : CpuContext, c'.Holds ctx'.words →
          image.interrupt v source c = some (ctx'.load c')) ∧
        (c'.Holds ctx.words → image.interrupt v source c =
          some { c with mem := c'.mem, cr3 := c'.cr3, tss := c'.tss }) := by
  obtain ⟨call, filled⟩ := Option.isSome_iff_exists.mp ((KernelImage.installed_iff v).mp installed)
  have goesOn : ∀ c', image.handler call.stub (image.called v call.stub source c) = some c' →
      ∀ ctx' : CpuContext, c'.Holds ctx'.words →
        image.interrupt v source c = some (ctx'.load c') := by
    intro c' returned ctx' holds
    rw [KernelImage.interrupt_eq filled permits, returned, Option.map_some, stubExit_holds holds]
  refine ⟨call, filled, KernelImage.called_holds filled agrees, KernelImage.called_rdi,
    KernelImage.called_flags, fun p => KernelImage.called_mem filled agrees, ?_⟩
  intro c' returned
  refine ⟨goesOn c' returned, fun holds => ?_⟩
  rw [goesOn c' returned _ holds, Core.load_context]

def userVectors : List (BitVec 8) := [3, 13, 32, 0x80]

theorem userAccessible_iff :
    ∀ call ∈ idtCalls, call.userAccessible = true ↔ call.index ∈ userVectors := by
  decide

theorem userVectors_installed : ∀ v ∈ userVectors, Installed v := by decide

theorem user_agrees : ∀ v ∈ userVectors, (v ∉ errorVectors ∨ v ∈ doubledVectors) ↔ v ≠ 13 := by
  decide

theorem idtCalls_isrId : ∀ call ∈ idtCalls, call.stub.isrId = call.index.setWidth 64 := by
  decide

theorem userVectors_pushes : ∀ call ∈ idtCalls, call.index ∈ userVectors →
    call.stub.pushes = if call.index = 13 then [call.index.setWidth 64]
      else [0x0, call.index.setWidth 64] := by
  decide

/-- The table as the CPU reads it: which vectors have a gate, and where it leads.  User code has
four of them, and for one of these the stub relies on an error code that `int` does not push. -/
theorem interrupt_gates (image : KernelImage) (v : BitVec 8) :
    ((image.gate v).present = true ↔ Installed v) ∧
      (∀ call, idtCall v = some call → (image.gate v).offset = image.address call.stub ∧
        call.stub.isrId = v.setWidth 64 ∧ (image.gate v).selector = 0x8 ∧
        ((image.gate v).type = 0xf ↔ call.trapGate = true)) ∧
      (∀ c : Core, c.cpl = 3 → ((image.gate v).present = true ∧ image.Permits v c .software ↔
        v ∈ userVectors)) ∧
      (v ∈ userVectors → ∃ call, idtCall v = some call ∧
        call.stub.pushes = if v = 13 then [v.setWidth 64] else [0x0, v.setWidth 64]) ∧
      (v ∈ userVectors → (Source.software.Agrees v ↔ v ≠ 13)) := by
  have gates : ∀ {call}, idtCall v = some call → image.gate v = _ :=
    fun filled => KernelImage.gate_eq filled
  have present : (image.gate v).present = true ↔ Installed v := by
    rw [KernelImage.installed_iff]
    cases filled : idtCall v with
    | none =>
      rw [KernelImage.gate, read_buildIdt, filled]
      exact iff_of_false (by rw [Option.map_none, Option.getD_none]; decide) (by decide)
    | some call =>
      rw [gates filled]
      exact iff_of_true rfl rfl
  refine ⟨present, ?_, ?_, ?_, ?_⟩
  · intro call filled
    obtain ⟨member, index⟩ := idtCall_mem filled
    have number := idtCalls_isrId call member
    rw [index] at number
    rw [gates filled, Gate.to]
    refine ⟨rfl, number, rfl, ?_⟩
    cases call.trapGate with
    | true => exact iff_of_true rfl rfl
    | false => exact iff_of_false (by simp) (by simp)
  · intro c user
    rw [present, KernelImage.Permits, user]
    constructor
    · rintro ⟨installed, permits⟩
      obtain ⟨call, filled⟩ :=
        Option.isSome_iff_exists.mp ((KernelImage.installed_iff v).mp installed)
      obtain ⟨member, index⟩ := idtCall_mem filled
      rw [← index, ← userAccessible_iff call member]
      rw [gates filled, Gate.to] at permits
      cases accessible : call.userAccessible with
      | true => rfl
      | false =>
        rw [accessible] at permits
        exact absurd (BitVec.le_def.mp permits) (by simp)
    · intro user
      have installed := userVectors_installed v user
      obtain ⟨call, filled⟩ :=
        Option.isSome_iff_exists.mp ((KernelImage.installed_iff v).mp installed)
      obtain ⟨member, index⟩ := idtCall_mem filled
      have accessible : call.userAccessible = true := by
        rw [userAccessible_iff call member, index]
        exact user
      refine ⟨installed, ?_⟩
      rw [gates filled, Gate.to, accessible]
      exact BitVec.le_refl 3#2
  · intro user
    obtain ⟨call, filled⟩ := Option.isSome_iff_exists.mp
      ((KernelImage.installed_iff v).mp (userVectors_installed v user))
    obtain ⟨member, rfl⟩ := idtCall_mem filled
    exact ⟨call, filled, userVectors_pushes call member user⟩
  · intro user
    exact user_agrees v user

def placedAddress : Stub → BitVec 64
  | .isr n => n.setWidth 64
  | .isrErrorcode n => 0x100 + n.setWidth 64
  | .sysCallStub => 0x200

def placedCode (a : BitVec 64) : Option Stub :=
  if a < 0x100 then some (.isr (a.setWidth 8))
  else if a < 0x200 then some (.isrErrorcode (a.setWidth 8))
  else if a = 0x200 then some .sysCallStub
  else none

theorem placedCode_placedAddress (stub : Stub) : placedCode (placedAddress stub) = some stub := by
  cases stub with
  | isr n =>
    revert n
    decide +kernel
  | isrErrorcode n =>
    revert n
    decide +kernel
  | sysCallStub => decide

def placedImage (isrHandler syscallHandler : Handler) : KernelImage where
  address := placedAddress
  code := placedCode
  linked := placedCode_placedAddress
  isrHandler := isrHandler
  syscallHandler := syscallHandler

def idleCore : Core where
  regs _ := 0
  rsp := 0x10008
  mem _ := 0
  rip := 0x2000
  cs := 0x8
  rflags := 0x202
  ss := 0x10
  cr3 := 0x1000
  tss := 0x8000

theorem interrupt_transparent_keyboard :
    ∃ m, (placedImage some some).interrupt 33 .external idleCore = some { idleCore with mem := m } := by
  obtain ⟨call, -, holds, -, -, -, goesOn⟩ :=
    @interrupt_transparent (placedImage some some) 33 .external idleCore (by decide)
      (.inl (by decide)) trivial
  have handled : ∀ stub c, (placedImage some some).handler stub c = some c := by
    intro stub c
    cases stub <;> rfl
  exact ⟨_, (goesOn _ (handled _ _)).2 holds⟩

end SwagOS.Kernel
