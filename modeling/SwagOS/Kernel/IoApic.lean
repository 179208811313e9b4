import Mathlib.Logic.Function.Basic
import SwagOS.Lib.BitFields

/-!
# Interrupt routing

The redirection table of the IOAPIC as `set_irq` and `set_irq_mask` of `arch/x86_64/apic.c` write
it: one register selects another, and a window holds what was selected.  Two bits of each entry are
those of the hardware, which ignores what is written to them and changes them between the calls.

The IOAPIC is that of the MADT, and its page is mapped.  What a run of the functions leaves in the
table is what the last call for each position says.
-/

namespace SwagOS.Kernel

open SwagOS.Lib.BitFields

/-- The registers, and the one that `ioregsel` selects. -/
structure IoApic where
  selected : BitVec 8
  registers : BitVec 8 → BitVec 32

structure SetIrq where
  irqType : BitVec 8
  redirectTablePos : BitVec 8
  idtEntry : BitVec 8
  destinationField : BitVec 8
  flags : BitVec 32
  masked : Bool
  deriving DecidableEq

/-- `entry.raw` in `set_irq`, by the flags of the source overrides.  The trigger mode is written
where the polarity was. -/
def SetIrq.raw (overrides : BitVec 8 → Option (BitVec 16)) (call : SetIrq) : BitVec 64 :=
  let raw := (call.flags ||| (call.idtEntry.setWidth 32 &&& 0xFF)).setWidth 64
  let raw :=
    match overrides call.irqType with
    | none => raw
    | some flags =>
        let raw := replaceField raw 13 (BitVec.ofBool (flags &&& 0b11 = 2))
        replaceField raw 13 (BitVec.ofBool ((flags >>> 2) &&& 0b11 = 2))
  let raw := replaceField raw 56 call.destinationField
  replaceField raw 16 (BitVec.ofBool call.masked)

def ioapicRedtbl (n : BitVec 32) : BitVec 32 := 0x10 + 2 * n

/-- The bits of the hardware in the lower half of an entry: `delivery_status` and `remote_irr`. -/
def statusBits : BitVec 32 := 0x5000

def keptBits (offset : BitVec 8) : BitVec 32 :=
  if 0x10 ≤ offset ∧ offset.getLsbD 0 = false then statusBits else 0

namespace IoApic

variable (apic : IoApic)

/-- `*ioregsel = offset` -/
def select (offset : BitVec 8) : IoApic := { apic with selected := offset }

/-- `*ioregwin = value` -/
def write (value : BitVec 32) : IoApic :=
  let kept := keptBits apic.selected
  let stored := (value &&& ~~~kept) ||| (apic.registers apic.selected &&& kept)
  { apic with registers := Function.update apic.registers apic.selected stored }

def ioApicWrite (offset : BitVec 8) (writeValue : BitVec 32) : IoApic :=
  (apic.select offset).write writeValue

def ioApicRead (offset : BitVec 8) : BitVec 32 × IoApic :=
  let apic := apic.select offset
  (apic.registers apic.selected, apic)

def setIoApicRedirect (irqNum entry1Write entry2Write : BitVec 32) : IoApic :=
  let redirectEntry1 := ioapicRedtbl irqNum
  let redirectEntry2 := redirectEntry1 + 0x1
  let apic := apic.ioApicWrite (redirectEntry1.setWidth 8) entry1Write
  apic.ioApicWrite (redirectEntry2.setWidth 8) entry2Write

def getIoApicRedirect (irqNum : BitVec 32) : BitVec 64 × IoApic :=
  let redirectEntry1 := ioapicRedtbl irqNum
  let redirectEntry2 := redirectEntry1 + 0x1
  let (entry1, apic) := apic.ioApicRead (redirectEntry1.setWidth 8)
  let (entry2, apic) := apic.ioApicRead (redirectEntry2.setWidth 8)
  (entry2 ++ entry1, apic)

def setEntry (redirectTablePos : BitVec 8) (raw : BitVec 64) : IoApic :=
  apic.setIoApicRedirect (redirectTablePos.setWidth 32) (raw.setWidth 32)
    ((raw >>> 32).setWidth 32)

def setIrq (overrides : BitVec 8 → Option (BitVec 16)) (call : SetIrq) : IoApic :=
  apic.setEntry call.redirectTablePos (call.raw overrides)

def setIrqMask (redirectTablePos : BitVec 8) (masked : Bool) : IoApic :=
  let (entry, apic) := apic.getIoApicRedirect (redirectTablePos.setWidth 32)
  apic.setEntry redirectTablePos (replaceField entry 16 (BitVec.ofBool masked))

def setStatus (redirectTablePos : BitVec 8) (status : BitVec 32) : IoApic :=
  let offset := (ioapicRedtbl (redirectTablePos.setWidth 32)).setWidth 8
  let stored := (apic.registers offset &&& ~~~statusBits) ||| (status &&& statusBits)
  { apic with registers := Function.update apic.registers offset stored }

def entry (pos : BitVec 8) : BitVec 64 := (apic.getIoApicRedirect (pos.setWidth 32)).1

end IoApic

inductive IoApicCommand where
  | setIrq (call : SetIrq)
  | setIrqMask (redirectTablePos : BitVec 8) (masked : Bool)
  | hardware (redirectTablePos : BitVec 8) (status : BitVec 32)

namespace IoApicCommand

def perform (overrides : BitVec 8 → Option (BitVec 16)) (apic : IoApic) :
    IoApicCommand → IoApic
  | .setIrq call => apic.setIrq overrides call
  | .setIrqMask pos masked => apic.setIrqMask pos masked
  | .hardware pos status => apic.setStatus pos status

def pos : IoApicCommand → BitVec 8
  | .setIrq call => call.redirectTablePos
  | .setIrqMask pos _ => pos
  | .hardware pos _ => pos

end IoApicCommand

structure IrqRoute where
  call : Option SetIrq
  masked : Option Bool

def IoApicCommand.route (routes : BitVec 8 → IrqRoute) : IoApicCommand → BitVec 8 → IrqRoute
  | .setIrq call =>
      Function.update routes call.redirectTablePos ⟨some call, some call.masked⟩
  | .setIrqMask pos masked => Function.update routes pos { routes pos with masked := some masked }
  | .hardware _ _ => routes

/-- Bit `i` of an entry by its route, and by what the entry was at the start. -/
def IrqRoute.bit (overrides : BitVec 8 → Option (BitVec 16)) (first : BitVec 64) (r : IrqRoute)
    (i : Nat) : Bool :=
  if i = 16 then r.masked.getD (first.getLsbD 16)
  else (r.call.map (SetIrq.raw overrides)).getD first |>.getLsbD i

def IrqRouted (overrides : BitVec 8 → Option (BitVec 16)) (start : IoApic)
    (routes : BitVec 8 → IrqRoute) (apic : IoApic) : Prop :=
  ∀ pos < 120, ∀ i < 64, i ≠ 12 → i ≠ 14 →
    (apic.entry pos).getLsbD i = (routes pos).bit overrides (start.entry pos) i

def lowOffset (pos : BitVec 8) : BitVec 8 := (ioapicRedtbl (pos.setWidth 32)).setWidth 8

def highOffset (pos : BitVec 8) : BitVec 8 := (ioapicRedtbl (pos.setWidth 32) + 0x1).setWidth 8

section Entries

variable {apic : IoApic} {pos pos' : BitVec 8} {i : Nat}

theorem lowOffset_toNat (inside : pos < 120) : (lowOffset pos).toNat = 16 + 2 * pos.toNat := by
  unfold lowOffset ioapicRedtbl
  bv_omega

theorem highOffset_toNat (inside : pos < 120) : (highOffset pos).toNat = 17 + 2 * pos.toNat := by
  unfold highOffset ioapicRedtbl
  bv_omega

theorem lowOffset_ne_highOffset (inside : pos < 120) (inside' : pos' < 120) :
    lowOffset pos ≠ highOffset pos' := by
  rw [BitVec.toNat_ne, lowOffset_toNat inside, highOffset_toNat inside']
  omega

theorem lowOffset_ne (inside : pos < 120) (inside' : pos' < 120) (different : pos ≠ pos') :
    lowOffset pos ≠ lowOffset pos' := by
  rw [BitVec.toNat_ne] at different ⊢
  rw [lowOffset_toNat inside, lowOffset_toNat inside']
  omega

theorem highOffset_ne (inside : pos < 120) (inside' : pos' < 120) (different : pos ≠ pos') :
    highOffset pos ≠ highOffset pos' := by
  rw [BitVec.toNat_ne] at different ⊢
  rw [highOffset_toNat inside, highOffset_toNat inside']
  omega

theorem highOffset_odd (inside : pos < 120) : (highOffset pos).getLsbD 0 = true := by
  have odd : (highOffset pos).toNat % 2 = 1 := by
    rw [highOffset_toNat inside]
    omega
  rw [BitVec.getLsbD, Nat.testBit_zero, odd]
  rfl

theorem statusBits_getLsbD (notDelivery : i ≠ 12) (notRemote : i ≠ 14) :
    statusBits.getLsbD i = false := by
  have low : ∀ i < 32, i ≠ 12 → i ≠ 14 → statusBits.getLsbD i = false := by decide
  by_cases inside : i < 32
  · exact low i inside notDelivery notRemote
  · exact BitVec.getLsbD_of_ge _ _ (Nat.le_of_not_lt inside)

theorem keptBits_getLsbD {offset : BitVec 8} (notDelivery : i ≠ 12) (notRemote : i ≠ 14) :
    (keptBits offset).getLsbD i = false := by
  rw [keptBits]
  split
  · exact statusBits_getLsbD notDelivery notRemote
  · exact BitVec.getLsbD_zero

theorem keptBits_highOffset (inside : pos < 120) : keptBits (highOffset pos) = 0#32 := by
  rw [keptBits, highOffset_odd inside]
  exact if_neg fun both => Bool.noConfusion both.2

theorem getLsbD_kept {value old kept : BitVec 32} (changed : kept.getLsbD i = false)
    (inside : i < 32) : ((value &&& ~~~kept) ||| (old &&& kept)).getLsbD i = value.getLsbD i := by
  rw [BitVec.getLsbD_or, BitVec.getLsbD_and, BitVec.getLsbD_and, BitVec.getLsbD_not, changed]
  simp [inside]

end Entries

namespace IoApic

section Entries

variable {apic : IoApic} {pos pos' : BitVec 8} {raw : BitVec 64} {i : Nat}

theorem entry_eq : apic.entry pos =
    apic.registers (highOffset pos) ++ apic.registers (lowOffset pos) := rfl

theorem registers_ioApicWrite {offset : BitVec 8} {value : BitVec 32} :
    (apic.ioApicWrite offset value).registers = Function.update apic.registers offset
      ((value &&& ~~~keptBits offset) ||| (apic.registers offset &&& keptBits offset)) := rfl

theorem setEntry_eq : apic.setEntry pos raw =
    (apic.ioApicWrite (lowOffset pos) (raw.setWidth 32)).ioApicWrite (highOffset pos)
      ((raw >>> 32).setWidth 32) := rfl

theorem entry_setEntry (inside : pos < 120) (less : i < 64) (notDelivery : i ≠ 12)
    (notRemote : i ≠ 14) : ((apic.setEntry pos raw).entry pos).getLsbD i = raw.getLsbD i := by
  rw [entry_eq, setEntry_eq, registers_ioApicWrite, BitVec.getLsbD_append]
  split
  next low =>
    rw [Function.update_of_ne (lowOffset_ne_highOffset inside inside), registers_ioApicWrite,
      Function.update_self, getLsbD_kept (keptBits_getLsbD notDelivery notRemote) low,
      BitVec.getLsbD_setWidth, decide_eq_true low, Bool.true_and]
  next high =>
    have rest : i - 32 < 32 := by omega
    have place : 32 + (i - 32) = i := by omega
    rw [Function.update_self, keptBits_highOffset inside,
      getLsbD_kept BitVec.getLsbD_zero rest, BitVec.getLsbD_setWidth, decide_eq_true rest,
      Bool.true_and, BitVec.getLsbD_ushiftRight, place]

theorem entry_setEntry_of_ne (inside : pos < 120) (inside' : pos' < 120)
    (different : pos' ≠ pos) : (apic.setEntry pos raw).entry pos' = apic.entry pos' := by
  rw [entry_eq, entry_eq, setEntry_eq, registers_ioApicWrite, registers_ioApicWrite,
    Function.update_of_ne (highOffset_ne inside' inside different),
    Function.update_of_ne (lowOffset_ne_highOffset inside inside').symm,
    Function.update_of_ne (lowOffset_ne_highOffset inside' inside),
    Function.update_of_ne (lowOffset_ne inside' inside different)]

theorem entry_setStatus {status : BitVec 32} (inside : pos < 120) (inside' : pos' < 120)
    (notDelivery : i ≠ 12) (notRemote : i ≠ 14) :
    ((apic.setStatus pos status).entry pos').getLsbD i = (apic.entry pos').getLsbD i := by
  have kept := statusBits_getLsbD notDelivery notRemote
  have upper : (apic.setStatus pos status).registers (highOffset pos') =
      apic.registers (highOffset pos') :=
    Function.update_of_ne (lowOffset_ne_highOffset inside inside').symm ..
  rw [entry_eq, entry_eq, BitVec.getLsbD_append, BitVec.getLsbD_append, upper]
  split
  next low =>
    by_cases same : pos' = pos
    · rw [same]
      have own : (apic.setStatus pos status).registers (lowOffset pos) =
          (apic.registers (lowOffset pos) &&& ~~~statusBits) ||| (status &&& statusBits) :=
        Function.update_self ..
      rw [own, getLsbD_kept kept low]
    · have other : (apic.setStatus pos status).registers (lowOffset pos') =
          apic.registers (lowOffset pos') :=
        Function.update_of_ne (lowOffset_ne inside' inside same) ..
      rw [other]
  next => rfl

theorem setIrqMask_eq {masked : Bool} : apic.setIrqMask pos masked =
    (apic.getIoApicRedirect (pos.setWidth 32)).2.setEntry pos
      (replaceField (apic.entry pos) 16 (BitVec.ofBool masked)) := rfl

theorem entry_getIoApicRedirect {irqNum : BitVec 32} :
    (apic.getIoApicRedirect irqNum).2.entry pos = apic.entry pos := rfl

end Entries

end IoApic

section Runs

variable {overrides : BitVec 8 → Option (BitVec 16)} {start apic : IoApic}
  {routes : BitVec 8 → IrqRoute} {command : IoApicCommand} {i : Nat}

theorem getLsbD_mask {raw : BitVec 64} {masked : Bool} (less : i < 64) :
    (replaceField raw 16 (BitVec.ofBool masked)).getLsbD i =
      if i = 16 then masked else raw.getLsbD i := by
  rw [getLsbD_replaceField less]
  by_cases here : i = 16
  · rw [if_pos (by omega), if_pos here, here]
    cases masked <;> rfl
  · rw [if_neg (by omega), if_neg here]

theorem SetIrq.raw_mask (call : SetIrq) : (call.raw overrides).getLsbD 16 = call.masked :=
  getLsbD_mask (by decide)

/-- A call or a change of the hardware keeps the table as the routes say. -/
theorem IrqRouted.perform (routed : IrqRouted overrides start routes apic)
    (inside : command.pos < 120) :
    IrqRouted overrides start (command.route routes) (command.perform overrides apic) := by
  intro pos inside' i less notDelivery notRemote
  have before := routed pos inside' i less notDelivery notRemote
  cases command with
  | setIrq call =>
      have inside : call.redirectTablePos < 120 := inside
      change ((apic.setEntry call.redirectTablePos (call.raw overrides)).entry pos).getLsbD i = _
      by_cases same : pos = call.redirectTablePos
      · subst same
        rw [IoApic.entry_setEntry inside' less notDelivery notRemote, IoApicCommand.route,
          Function.update_self, IrqRoute.bit]
        split
        next mask => rw [mask, SetIrq.raw_mask, Option.getD_some]
        next => rfl
      · rw [IoApic.entry_setEntry_of_ne inside inside' same, before, IoApicCommand.route,
          Function.update_of_ne same]
  | setIrqMask place masked =>
      have inside : place < 120 := inside
      change ((apic.setIrqMask place masked).entry pos).getLsbD i = _
      rw [IoApic.setIrqMask_eq]
      by_cases same : pos = place
      · subst same
        rw [IoApic.entry_setEntry inside' less notDelivery notRemote, getLsbD_mask less, before,
          IoApicCommand.route, Function.update_self, IrqRoute.bit, IrqRoute.bit]
        split
        next => rfl
        next => rfl
      · rw [IoApic.entry_setEntry_of_ne inside inside' same, IoApic.entry_getIoApicRedirect, before,
          IoApicCommand.route, Function.update_of_ne same]
  | hardware place status =>
      exact (IoApic.entry_setStatus inside inside' notDelivery notRemote).trans before

theorem IrqRouted.run {commands : List IoApicCommand}
    (routed : IrqRouted overrides start routes apic) (inside : ∀ c ∈ commands, c.pos < 120) :
    IrqRouted overrides start (commands.foldl IoApicCommand.route routes)
      (commands.foldl (IoApicCommand.perform overrides) apic) := by
  induction commands generalizing routes apic with
  | nil => exact routed
  | cons command rest inductionHypothesis =>
      exact inductionHypothesis (routed.perform (inside command (List.mem_cons_self ..)))
        fun c member => inside c (List.mem_cons_of_mem _ member)

end Runs

/-- After any calls of `set_irq` and `set_irq_mask`, with the hardware changing its bits in between,
each entry has the fields of the last call for its position, and the mask that was set last. -/
theorem redirection_routed (overrides : BitVec 8 → Option (BitVec 16)) (apic : IoApic)
    {commands : List IoApicCommand} (inside : ∀ c ∈ commands, c.pos < 120) :
    IrqRouted overrides apic (commands.foldl IoApicCommand.route fun _ => ⟨none, none⟩)
      (commands.foldl (IoApicCommand.perform overrides) apic) := by
  refine IrqRouted.run (fun pos _ i _ _ _ => ?_) inside
  rw [IrqRoute.bit]
  split
  next mask => rw [mask, Option.getD_none]
  next => rfl

/-- The calls of the kernel: the PIT, masked, unmasked for the calibration and masked again, the
keyboard and the disk. -/
def kernelCommands : List IoApicCommand := [
  .setIrq ⟨0x02, 0x02, 0x22, 0, 0x0, true⟩, .setIrqMask 0x2 false, .setIrqMask 0x2 true,
  .setIrq ⟨0x01, 0x01, 0x21, 0, 0, false⟩, .setIrq ⟨0xe, 0xe, 0x2e, 0x0, 0x0, false⟩]

def maskedIoApic : IoApic := ⟨0, fun _ => 0x10000⟩

def diskOverride (irqType : BitVec 8) : Option (BitVec 16) :=
  if irqType = 0xe then some 0b1000 else none

def deliveringCommands : List IoApicCommand := kernelCommands ++ [.hardware 0xe 0x5000]

theorem redirection_routed_kernel :
    let apic := deliveringCommands.foldl (IoApicCommand.perform diskOverride) maskedIoApic
    (apic.entry 0x2).getLsbD 16 = true ∧ (apic.entry 0x1).getLsbD 16 = false ∧
      (apic.entry 0xe).getLsbD 13 = true := by
  have routed := redirection_routed diskOverride maskedIoApic
    (by decide : ∀ c ∈ deliveringCommands, c.pos < 120)
  refine ⟨?_, ?_, ?_⟩
  · rw [routed 0x2 (by decide) 16 (by decide) (by decide) (by decide)]
    decide
  · rw [routed 0x1 (by decide) 16 (by decide) (by decide) (by decide)]
    decide
  · rw [routed 0xe (by decide) 13 (by decide) (by decide) (by decide)]
    decide

end SwagOS.Kernel
