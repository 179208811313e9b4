import SwagOS.Kernel.Interrupts.Delivery

/-!
# The interrupt handler and page tables

`isr_handler` switches to the page table of the kernel.  Back to that of the thread goes only
`HandleNoSchedule`, which the timer and `int3` come to: the other interrupts leave a user thread
on the page table of the kernel.
-/

namespace SwagOS.Kernel

open SwagOS.Lib

/-- What `isr_handler` sees and calls.  `choose` is `InvokeScheduler` up to `HandleNoSchedule`;
it does not return where another thread is scheduled. -/
structure Routines where
  /-- `KERNEL_PML4T_PHYS(global_Settings.pml4t_kernel)` -/
  kernelTable : BitVec 64
  bTimerCalibrated : Bool
  /-- The status of the current thread is `THREAD_STATE_SLEEPING`. -/
  sleeping : Bool
  /-- Its `run_mode` is `USER_THREAD`. -/
  userThread : Bool
  pml4tPhys : BitVec 64
  choose : Handler
  noINTEnable : Core → Core
  apicEndOfInterrupt : Core → Core
  keyboardIrqHandler : Core → Core
  ideintr : Core → Core
  /-- The ticks are counted, and the legacy controllers are told. -/
  pitTick : Core → Core
  logToSerial : Core → Core

/-- A function by the calling convention: the stack pointer comes back, and the frame of the
caller, the page table and the task register are left alone. -/
structure Conventional (f : Core → Core) : Prop where
  rsp : ∀ c, (f c).rsp = c.rsp
  frame : ∀ c k, k < contextSize →
    (f c).mem (c.rsp + BitVec.ofNat 64 k) = c.mem (c.rsp + BitVec.ofNat 64 k)
  cr3 : ∀ c, (f c).cr3 = c.cr3

namespace Routines

variable (r : Routines)

def handleNoSchedule (c : Core) : Core :=
  let c := r.apicEndOfInterrupt c
  if r.userThread then { c with cr3 := r.pml4tPhys } else c

def invokeScheduler (c : Core) : Option Core := (r.choose c).map r.handleNoSchedule

def dispatch (isrId : Nat) (c : Core) : Option Core :=
  match isrId with
  | 3 => if r.sleeping then (r.invokeScheduler c).map r.apicEndOfInterrupt else none
  | 13 => none
  | 14 => none
  | 32 => if r.bTimerCalibrated then r.invokeScheduler c else none
  | 33 => some (r.apicEndOfInterrupt (r.keyboardIrqHandler c))
  | 34 => some (r.apicEndOfInterrupt (r.pitTick c))
  | 46 => some (r.apicEndOfInterrupt (r.ideintr c))
  | 255 => some (r.logToSerial c)
  | _ => none

def isrHandler (c : Core) : Option Core :=
  let tf := c.regs .rdi
  let c := r.noINTEnable { c with cr3 := r.kernelTable }
  r.dispatch (c.mem.read64 (tf + 120)).toNat c

/-- The code that `isr_handler` calls keeps to the convention. -/
structure Follows : Prop where
  noINTEnable : Conventional r.noINTEnable
  apicEndOfInterrupt : Conventional r.apicEndOfInterrupt
  keyboardIrqHandler : Conventional r.keyboardIrqHandler
  ideintr : Conventional r.ideintr
  pitTick : Conventional r.pitTick
  logToSerial : Conventional r.logToSerial
  /-- The scheduler, where it comes back. -/
  choose : ∃ f, Conventional f ∧ ∀ c c', r.choose c = some c' → c' = f c

end Routines

/-- What a handler has done when it returns: the frame is as it was, and the page table is the
given one. -/
structure ReturnsOn (c : Core) (table : BitVec 64) (c' : Core) : Prop where
  rsp : c'.rsp = c.rsp
  frame : ∀ k < contextSize, c'.mem (c.rsp + BitVec.ofNat 64 k) = c.mem (c.rsp + BitVec.ofNat 64 k)
  cr3 : c'.cr3 = table

section Returning

variable {f : Core → Core} {c c' c'' : Core} {table table' : BitVec 64} {r : Routines}

theorem Conventional.returnsOn (conventional : Conventional f) (returns : ReturnsOn c table c') :
    ReturnsOn c table (f c') where
  rsp := (conventional.rsp c').trans returns.rsp
  frame := by
    intro k inside
    rw [← returns.frame k inside, ← returns.rsp]
    exact conventional.frame c' k inside
  cr3 := (conventional.cr3 c').trans returns.cr3

theorem ReturnsOn.load (returns : ReturnsOn c table c') (table' : BitVec 64) :
    ReturnsOn c table' { c' with cr3 := table' } :=
  ⟨returns.rsp, returns.frame, rfl⟩

theorem ReturnsOn.holds {ctx : CpuContext} (returns : ReturnsOn c table c')
    (holds : c.Holds ctx.words) : c'.Holds ctx.words := by
  rw [StackMachine.Holds, returns.rsp]
  refine (Memory.words_congr ?_).mp holds
  intro k inside
  exact (returns.frame k inside).symm

def Routines.tableAfter (r : Routines) : BitVec 64 :=
  if r.userThread then r.pml4tPhys else r.kernelTable

theorem Routines.invokeScheduler_returnsOn (follows : r.Follows)
    (returns : ReturnsOn c r.kernelTable c') (done : r.invokeScheduler c' = some c'') :
    ReturnsOn c r.tableAfter c'' := by
  obtain ⟨f, conventional, chosen⟩ := follows.choose
  obtain ⟨between, chose, rfl⟩ := Option.map_eq_some_iff.mp done
  rw [chosen c' between chose, handleNoSchedule, tableAfter]
  have ended := follows.apicEndOfInterrupt.returnsOn (conventional.returnsOn returns)
  split
  next user => exact ended.load r.pml4tPhys
  next kernel => exact ended

def returningNumbers : List Nat := [3, 32, 33, 34, 46, 255]

theorem Routines.dispatch_returnsOn (follows : r.Follows) {isrId : Nat}
    (returns : ReturnsOn c r.kernelTable c') (done : r.dispatch isrId c' = some c'') :
    isrId ∈ returningNumbers ∧
      ReturnsOn c (if isrId = 3 ∨ isrId = 32 then r.tableAfter else r.kernelTable) c'' := by
  have quiet : ∀ {f}, Conventional f → ReturnsOn c r.kernelTable (r.apicEndOfInterrupt (f c')) :=
    fun conventional => follows.apicEndOfInterrupt.returnsOn (conventional.returnsOn returns)
  unfold dispatch at done
  split at done
  -- `int3`
  · refine ⟨by decide, ?_⟩
    split at done
    next asleep =>
      obtain ⟨between, chose, rfl⟩ := Option.map_eq_some_iff.mp done
      exact follows.apicEndOfInterrupt.returnsOn (invokeScheduler_returnsOn follows returns chose)
    next awake => cases done
  · cases done
  · cases done
  -- the timer
  · refine ⟨by decide, ?_⟩
    split at done
    next calibrated => exact invokeScheduler_returnsOn follows returns done
    next => cases done
  · obtain rfl := Option.some.inj done
    exact ⟨by decide, quiet follows.keyboardIrqHandler⟩
  · obtain rfl := Option.some.inj done
    exact ⟨by decide, quiet follows.pitTick⟩
  · obtain rfl := Option.some.inj done
    exact ⟨by decide, quiet follows.ideintr⟩
  · obtain rfl := Option.some.inj done
    exact ⟨by decide, follows.logToSerial.returnsOn returns⟩
  · cases done

theorem Routines.isrHandler_returnsOn (follows : r.Follows) {ctx : CpuContext}
    (frame : c.regs .rdi = c.rsp) (holds : c.Holds ctx.words) (fits : ctx.isrId < 2 ^ 64)
    (done : r.isrHandler c = some c') : ctx.isrId ∈ returningNumbers ∧
      ReturnsOn c (if ctx.isrId = 3 ∨ ctx.isrId = 32 then r.tableAfter else r.kernelTable) c' := by
  have start : ReturnsOn c r.kernelTable (r.noINTEnable { c with cr3 := r.kernelTable }) :=
    follows.noINTEnable.returnsOn ⟨rfl, fun _ _ => rfl, rfl⟩
  have isrId := start.holds holds 15 (by rw [CpuContext.length_words]; decide)
  rw [start.rsp, ← frame] at isrId
  change (r.noINTEnable { c with cr3 := r.kernelTable }).mem.read64 (c.regs .rdi + 120) =
    BitVec.ofNat 64 ctx.isrId at isrId
  rw [isrHandler, isrId, BitVec.toNat_ofNat, Nat.mod_eq_of_lt fits] at done
  exact dispatch_returnsOn follows start done

theorem stub_isrId : ∀ call ∈ idtCalls, call.index ≠ 0x80 →
    call.stub.isrId.toNat = call.index.toNat ∧ call.stub ≠ .sysCallStub := by
  decide

theorem KernelImage.handler_eq (image : KernelImage) {stub : Stub} (interrupt : stub ≠ .sysCallStub) :
    image.handler stub = image.isrHandler := by
  cases stub with
  | isr n => rfl
  | isrErrorcode n => rfl
  | sysCallStub => exact absurd rfl interrupt

end Returning

def returningVectors : List (BitVec 8) := [3, 32, 33, 34, 46]

theorem returning_vectors (v : BitVec 8) (installed : Installed v) :
    v.toNat ∈ returningNumbers ↔ v ∈ returningVectors := by
  revert v
  decide +kernel

theorem scheduler_vectors (v : BitVec 8) : v.toNat = 3 ∨ v.toNat = 32 ↔ v = 3 ∨ v = 32 := by
  revert v
  decide +kernel

/-- A thread that is interrupted goes on as it was, on its own page table if the interrupt is
the timer or `int3`, or if that table is the one of the kernel, and on the table of the kernel
otherwise. -/
theorem interrupted_thread_goes_on (image : KernelImage) (r : Routines) {v : BitVec 8}
    {source : Source} {c c' : Core} (follows : r.Follows)
    (handler : image.isrHandler = r.isrHandler) (installed : Installed v) (interrupt : v ≠ 0x80)
    (agrees : source.Agrees v) (permits : image.Permits v c source)
    (own : c.cr3 = if r.userThread then r.pml4tPhys else r.kernelTable)
    (done : image.interrupt v source c = some c') :
    v ∈ returningVectors ∧ c' = { c with mem := c'.mem, cr3 := c'.cr3, tss := c'.tss } ∧
      (c'.cr3 = c.cr3 ↔ c.cr3 = r.kernelTable ∨ v = 3 ∨ v = 32) ∧
      (c'.cr3 = c.cr3 ∨ c'.cr3 = r.kernelTable) := by
  obtain ⟨call, filled⟩ := Option.isSome_iff_exists.mp ((KernelImage.installed_iff v).mp installed)
  obtain ⟨member, index⟩ := idtCall_mem filled
  obtain ⟨number, notSystemCall⟩ := stub_isrId call member (by rwa [index])
  rw [index] at number
  rw [KernelImage.interrupt_eq filled permits] at done
  obtain ⟨between, returned, rfl⟩ := Option.map_eq_some_iff.mp done
  have holds := @KernelImage.called_holds image _ _ c _ filled agrees
  rw [image.handler_eq notSystemCall, handler] at returned
  obtain ⟨among, returns⟩ := Routines.isrHandler_returnsOn follows KernelImage.called_rdi holds
    (BitVec.isLt _) returned
  have isrId : (c.context call.stub.isrId (source.frameError v)).isrId = v.toNat := number
  rw [isrId] at among returns
  rw [stubExit_holds (returns.holds holds), Core.load_context]
  refine ⟨(returning_vectors v installed).mp among, rfl, ?_⟩
  rw [← scheduler_vectors]
  have table := returns.cr3
  by_cases scheduler : v.toNat = 3 ∨ v.toNat = 32
  · rw [if_pos scheduler] at table
    have same : between.cr3 = c.cr3 := table.trans own.symm
    exact ⟨iff_of_true same (.inr scheduler), .inl same⟩
  · rw [if_neg scheduler] at table
    refine ⟨⟨fun same => .inl (same.symm.trans table), ?_⟩, .inr table⟩
    rintro (kernel | never)
    · exact table.trans kernel.symm
    · exact absurd never scheduler

def quietRoutines : Routines where
  kernelTable := 0x1000
  bTimerCalibrated := true
  sleeping := false
  userThread := true
  pml4tPhys := 0x5000
  choose := some
  noINTEnable := id
  apicEndOfInterrupt := id
  keyboardIrqHandler := id
  ideintr := id
  pitTick := id
  logToSerial := id

theorem quietRoutines_follows : quietRoutines.Follows := by
  have quiet : Conventional id := ⟨fun _ => rfl, fun _ _ _ => rfl, fun _ => rfl⟩
  exact ⟨quiet, quiet, quiet, quiet, quiet, quiet, id, quiet,
    fun _ _ same => (Option.some.inj same).symm⟩

def userCore : Core :=
  { idleCore with cs := 0x1b, ss := 0x23, rsp := 0x600000000, rip := 0x400000, cr3 := 0x5000 }

theorem interrupted_thread_goes_on_keyboard : ∃ c',
    (placedImage quietRoutines.isrHandler some).interrupt 33 .external userCore = some c' ∧
      c'.rip = 0x400000 ∧ c'.cr3 = 0x1000 := by
  have returns : ((placedImage quietRoutines.isrHandler some).interrupt 33 .external
      userCore).isSome = true := by decide +kernel
  obtain ⟨c', done⟩ := Option.isSome_iff_exists.mp returns
  obtain ⟨-, same, table, left⟩ := interrupted_thread_goes_on
    (placedImage quietRoutines.isrHandler some) quietRoutines quietRoutines_follows rfl (by decide)
    (by decide) (by decide : Source.external.Agrees 33) trivial rfl done
  refine ⟨c', done, ?_, ?_⟩
  · rw [same]
    rfl
  · exact left.resolve_left fun own => absurd (table.mp own) (by decide)

end SwagOS.Kernel
