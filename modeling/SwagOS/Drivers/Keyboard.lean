import SwagOS.Kernel.ThreadTable
import SwagOS.Lib.Handover

/-!
# The keyboard

`drivers/ps2_keyboard.c`: the interrupt handler decodes a scancode and puts the character into
`character_buf`, from where `retrieve_character_buf` takes it for `SYSHANDLER_getchar`.  The
handler runs on any CPU at any time when the CPU has interrupts enabled; it does not take
`char_buf_spinlock`.

Each access to `character_buf`, each access of `ThreadSleep` and each turn of the loop of
`Wakeup` is a step.
-/

namespace SwagOS.Drivers

open SwagOS.Lib SwagOS.Kernel

def qwertz : List UInt8 :=
  ("\x00`1234567890-=\x08\tqwertyuiop[]\n\x00asdfghjkl;'`\x00\\zxcvbnm,./\x00*\x00 \x00" ++
    "\x00\x00\x00\x00\x00\x00\x00\x00\x00\x00\x00\x00789-456+1230.").toList.map
    fun c => UInt8.ofNat c.toNat

/-- `shifted_qwertz`, up to the last entry that is not 0. -/
def shiftedQwertz : List UInt8 :=
  ("\x00~!@#$%^&*()_+\x08\tQWERTYUIOP\x7b\x7d\n\x00ASDFGHJKL:\"~\x00\\ZXCVBNM<>?\x00*\x00 \x00" ++
    "\x00\x00\x00\x00\x00\x00\x00\x00\x00\x00\x00\x00789-456+1230").toList.map
    fun c => UInt8.ofNat c.toNat

def pressedEnter : UInt8 := 28

def leftShift : UInt8 := 42

/-- `PRESSED_RIGHT_SHIFT` and `RELEASED_RIGHT_SHIFT` -/
def rightShift : UInt8 := 54

def IsShift (scancode : UInt8) : Prop := scancode = leftShift ∨ scancode = rightShift
  deriving Decidable

def isAscii (c : UInt8) : Bool :=
  c = 10 || c = 8 || (0x20 ≤ c && c ≤ 0x7e)

structure Decoded where
  result : Bool
  outchar : UInt8
  shiftPressed : Bool

/-- `outchar` is what the caller has there before the call. -/
def scancodeToChar (shiftPressed : Bool) (scancode outchar : UInt8) : Decoded :=
  if scancode &&& 0x80 ≠ 0 then
    if IsShift (scancode &&& ~~~0x80) then ⟨false, outchar, false⟩
    else ⟨false, outchar, shiftPressed⟩
  else if scancode = pressedEnter then ⟨true, 10, shiftPressed⟩
  else if IsShift scancode then ⟨true, outchar, true⟩
  else if shiftPressed then ⟨true, shiftedQwertz.getD scancode.toNat 0, shiftPressed⟩
  else ⟨true, qwertz.getD scancode.toNat 0, shiftPressed⟩

theorem isAscii_ne_zero {c : UInt8} (ascii : isAscii c = true) : c ≠ 0 := by
  rintro rfl
  cases ascii

/-- The press of a shift key leaves `outchar` as it was. -/
theorem scancodeToChar_shift {scancode : UInt8} (shift : IsShift scancode)
    (shiftPressed : Bool) (outchar : UInt8) :
    scancodeToChar shiftPressed scancode outchar = ⟨true, outchar, true⟩ := by
  rcases shift with rfl | rfl
  · rfl
  · rfl

/-- Where a thread stands in `SYSHANDLER_getchar`, `retrieve_character_buf` and `ThreadSleep`. -/
inductive ReaderPlace where
  /-- In the user program. -/
  | outside
  /-- Before the test of the loop of `SYSHANDLER_getchar`. -/
  | loop (c : UInt8)
  | acquire
  | test
  | setChannel
  | setStatus
  | setCanWakeup
  | release
  | checkStatus
  | int3
  | clearChannel
  | reacquire
  /-- `character_buf` was found set; the lock is still held. -/
  | leave
  /-- Behind the release of the lock. -/
  | read
  | clear (ret : UInt8)
  | giveBack (ret : UInt8)
  deriving DecidableEq, Repr

namespace ReaderPlace

/-- The thread does not hold `char_buf_spinlock`, so interrupts are enabled. -/
def Interruptible : ReaderPlace → Prop
  | test | setChannel | setStatus | setCanWakeup | release | leave => False
  | _ => True

/-- Behind the loop of `retrieve_character_buf`, which was left with a character there. -/
def Passed : ReaderPlace → Prop
  | leave | read | clear _ | giveBack _ => True
  | _ => False

/-- Between the `release_Spinlock` behind the loop and the `return`. -/
def Takes : ReaderPlace → Prop
  | read | clear _ | giveBack _ => True
  | _ => False

def Finds : ReaderPlace → Prop
  | leave | read | clear _ => True
  | _ => False

def held : ReaderPlace → Option UInt8
  | clear ret | giveBack ret => if ret = 0 then none else some ret
  | _ => none

end ReaderPlace

inductive HandlerPlace where
  | outside
  /-- Before `add_char_to_buf(c)`. -/
  | store (scancode c : UInt8)
  /-- `Wakeup` waits for `proc_table.lock`. -/
  | wakeup
  /-- The loop of `Wakeup` is at thread `i`. -/
  | visit (i : Nat)
  deriving DecidableEq, Repr

structure KeyboardSystem where
  table : ThreadTable
  /-- `character_buf` -/
  characterBuf : UInt8
  shiftPressed : Bool
  /-- The thread that holds `char_buf_spinlock`. -/
  lock : Option Nat
  /-- The CPU that holds `proc_table.lock`; a scheduler invocation takes and releases it in one
  step. -/
  procLock : Option Nat
  place : Nat → ReaderPlace
  handler : Nat → HandlerPlace
  /-- What `SYSHANDLER_getchar` returned last. -/
  rax : Nat → BitVec 64
  /-- The characters that went into `character_buf`, and those that calls of
  `retrieve_character_buf` took from there and returned, 0 apart. -/
  history : Handover Nat UInt8
  /-- The scancodes of the accepted characters. -/
  scancodes : List UInt8

namespace KeyboardSystem

def goto (s : KeyboardSystem) (t : Nat) (place : ReaderPlace) : KeyboardSystem :=
  { s with place := Function.update s.place t place }

def handlerTo (s : KeyboardSystem) (cpu : Nat) (place : HandlerPlace) : KeyboardSystem :=
  { s with handler := Function.update s.handler cpu place }

def setTable (s : KeyboardSystem) (table : ThreadTable) : KeyboardSystem :=
  { s with table := table }

def setLock (s : KeyboardSystem) (owner : Option Nat) : KeyboardSystem :=
  { s with lock := owner }

def setProcLock (s : KeyboardSystem) (owner : Option Nat) : KeyboardSystem :=
  { s with procLock := owner }

@[simp] theorem goto_place (s : KeyboardSystem) (t : Nat) (place : ReaderPlace) :
    (s.goto t place).place = Function.update s.place t place := rfl

@[simp] theorem handlerTo_handler (s : KeyboardSystem) (cpu : Nat) (place : HandlerPlace) :
    (s.handlerTo cpu place).handler = Function.update s.handler cpu place := rfl

/-- `inb(0x60)`, `scancode_to_char` and `is_ascii`; `c` is what the stack has there. -/
def interrupt (s : KeyboardSystem) (cpu : Nat) (scancode c : UInt8) : KeyboardSystem :=
  let decoded := scancodeToChar s.shiftPressed scancode c
  { s.handlerTo cpu
      (if decoded.result && isAscii decoded.outchar then .store scancode decoded.outchar
        else .outside) with
    shiftPressed := decoded.shiftPressed }

def store (s : KeyboardSystem) (scancode c : UInt8) : KeyboardSystem :=
  { s with
    characterBuf := c
    history := s.history.store c
    scancodes := s.scancodes ++ [scancode] }

/-- `char ret = character_buf;` -/
def read (s : KeyboardSystem) (t : Nat) : KeyboardSystem :=
  { s.goto t (.clear s.characterBuf) with
    history := if s.characterBuf = 0 then s.history else s.history.take t s.characterBuf }

/-- `character_buf = 0x0;` -/
def clear (s : KeyboardSystem) (t : Nat) (ret : UInt8) : KeyboardSystem :=
  { s.goto t (.giveBack ret) with characterBuf := 0, history := s.history.clear }

/-- `return ret;` -/
def giveBack (s : KeyboardSystem) (t : Nat) (ret : UInt8) : KeyboardSystem :=
  { s.goto t (.loop ret) with
    history := if ret = 0 then s.history else s.history.give t ret }

/-- `ctx->rax = c;` -/
def answer (s : KeyboardSystem) (t : Nat) (c : UInt8) : KeyboardSystem :=
  { s.goto t .outside with rax := Function.update s.rax t (c.toBitVec.signExtend 64) }

def Runs (s : KeyboardSystem) (t : Nat) : Prop :=
  t < maxNumThreads ∧ ∃ cpu, s.table.current cpu = some t ∧ s.handler cpu = .outside

def Enabled (s : KeyboardSystem) (cpu : Nat) : Prop :=
  s.handler cpu = .outside ∧ ∀ t, s.table.current cpu = some t → (s.place t).Interruptible

inductive Event where
  /-- The interrupt handler reads a scancode, with a character on its stack. -/
  | interrupt (scancode c : UInt8)
  | store
  /-- A call leaves the loop of `retrieve_character_buf`. -/
  | find (t : Nat)
  | read
  | clear
  /-- A call returns a character. -/
  | giveBack (t : Nat) (ret : UInt8)
  | other

inductive Step (channel : Channel) : KeyboardSystem → Event → KeyboardSystem → Prop where
  | timer {s : KeyboardSystem} {table : ThreadTable} {cpu iRip : Nat} :
      s.Enabled cpu → s.procLock = none → s.table.invokeScheduler cpu iRip = .ok table →
      Step channel s .other (s.setTable table)
  | int3 {s : KeyboardSystem} {table : ThreadTable} {cpu t iRip : Nat} :
      s.Runs t → s.table.current cpu = some t → s.place t = .int3 →
      s.table.status t = .sleeping → s.procLock = none →
      s.table.invokeScheduler cpu iRip = .ok table →
      Step channel s .other ((s.setTable table).goto t .clearChannel)
  -- `SYSHANDLER_getchar`
  | getchar {s : KeyboardSystem} {t : Nat} :
      s.Runs t → s.place t = .outside → Step channel s .other (s.goto t (.loop 0))
  | again {s : KeyboardSystem} {t : Nat} :
      s.Runs t → s.place t = .loop 0 → Step channel s .other (s.goto t .acquire)
  | answer {s : KeyboardSystem} {t : Nat} {c : UInt8} :
      s.Runs t → s.place t = .loop c → c ≠ 0 → Step channel s .other (s.answer t c)
  -- `retrieve_character_buf`
  | acquire {s : KeyboardSystem} {t : Nat} :
      s.Runs t → s.place t = .acquire ∨ s.place t = .reacquire → s.lock = none →
      Step channel s .other ((s.setLock (some t)).goto t .test)
  | testSet {s : KeyboardSystem} {t : Nat} :
      s.Runs t → s.place t = .test → s.characterBuf ≠ 0 →
      Step channel s (.find t) (s.goto t .leave)
  | testEmpty {s : KeyboardSystem} {t : Nat} :
      s.Runs t → s.place t = .test → s.characterBuf = 0 →
      Step channel s .other (s.goto t .setChannel)
  | leave {s : KeyboardSystem} {t : Nat} :
      s.Runs t → s.place t = .leave → Step channel s .other ((s.setLock none).goto t .read)
  | read {s : KeyboardSystem} {t : Nat} :
      s.Runs t → s.place t = .read → Step channel s .read (s.read t)
  | clear {s : KeyboardSystem} {t : Nat} {ret : UInt8} :
      s.Runs t → s.place t = .clear ret → Step channel s .clear (s.clear t ret)
  | giveBack {s : KeyboardSystem} {t : Nat} {ret : UInt8} :
      s.Runs t → s.place t = .giveBack ret →
      Step channel s (.giveBack t ret) (s.giveBack t ret)
  -- `ThreadSleep`
  | setChannel {s : KeyboardSystem} {t : Nat} :
      s.Runs t → s.place t = .setChannel →
      Step channel s .other ((s.setTable (s.table.sleepSetChannel t channel)).goto t .setStatus)
  | setStatus {s : KeyboardSystem} {t : Nat} :
      s.Runs t → s.place t = .setStatus →
      Step channel s .other ((s.setTable (s.table.sleepSetStatus t)).goto t .setCanWakeup)
  | setCanWakeup {s : KeyboardSystem} {t : Nat} :
      s.Runs t → s.place t = .setCanWakeup →
      Step channel s .other ((s.setTable (s.table.sleepSetCanWakeup t)).goto t .release)
  | release {s : KeyboardSystem} {t : Nat} :
      s.Runs t → s.place t = .release →
      Step channel s .other ((s.setLock none).goto t .checkStatus)
  | checkSleeping {s : KeyboardSystem} {t : Nat} :
      s.Runs t → s.place t = .checkStatus → s.table.status t = .sleeping →
      Step channel s .other (s.goto t .int3)
  | checkAwake {s : KeyboardSystem} {t : Nat} :
      s.Runs t → s.place t = .checkStatus → s.table.status t ≠ .sleeping →
      Step channel s .other (s.goto t .clearChannel)
  | clearChannel {s : KeyboardSystem} {t : Nat} :
      s.Runs t → s.place t = .clearChannel →
      Step channel s .other ((s.setTable (s.table.sleepClearChannel t)).goto t .reacquire)
  -- `keyboard_irq_handler`
  | interrupt {s : KeyboardSystem} {cpu : Nat} (scancode c : UInt8) :
      s.Enabled cpu → Step channel s (.interrupt scancode c) (s.interrupt cpu scancode c)
  | store {s : KeyboardSystem} {cpu : Nat} {scancode c : UInt8} :
      s.handler cpu = .store scancode c →
      Step channel s .store ((s.store scancode c).handlerTo cpu .wakeup)
  | wakeup {s : KeyboardSystem} {cpu : Nat} :
      s.handler cpu = .wakeup → s.procLock = none →
      Step channel s .other ((s.setProcLock (some cpu)).handlerTo cpu (.visit 0))
  | visit {s : KeyboardSystem} {cpu i : Nat} :
      s.handler cpu = .visit i → i < maxNumThreads →
      Step channel s .other
        ((s.setTable (s.table.wakeThread channel i)).handlerTo cpu (.visit (i + 1)))
  | visitEnd {s : KeyboardSystem} {cpu : Nat} :
      s.handler cpu = .visit maxNumThreads →
      Step channel s .other ((s.setProcLock none).handlerTo cpu .outside)

/-- The keyboard is initialised, and no thread is in `SYSHANDLER_getchar`.  The threads and the
CPUs are arbitrary. -/
structure Start (s : KeyboardSystem) : Prop where
  characterBuf : s.characterBuf = 0
  lock : s.lock = none
  procLock : s.procLock = none
  place : ∀ t, s.place t = .outside
  handler : ∀ cpu, s.handler cpu = .outside
  history : s.history = .empty
  scancodes : s.scancodes = []

end KeyboardSystem

end SwagOS.Drivers
