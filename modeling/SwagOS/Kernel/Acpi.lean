import SwagOS.Lib.Bytes
import SwagOS.Lib.Checked

/-!
# The MADT

The loops over the records of the table in `arch/x86_64/acpi.c`.  The memory starts with the
table; a record is given by its offset.  Writes outside of the arrays of the settings are
violations.
-/

namespace SwagOS.Kernel

open SwagOS.Lib

def madtItemProcLapic : UInt8 := 0

def madtItemIoApic : UInt8 := 1

def madtItemIoApicSrcoverride : UInt8 := 2

def maxInterruptOverrideCount : Nat := 32

def cpuEntries : Nat := 256

/-- `sizeof(ACPISDTHeader) + 2*sizeof(uint32_t)`, also the offset of `fields`. -/
def madtHeaderSize : Nat := 44

section Records

variable (m : Bytes)

/-- `madt->sdtHeader.Length` -/
def madtLength : Nat := m.u32 4

def itemType (item : Nat) : UInt8 := m item

/-- `item->record_length` -/
def recordLength (item : Nat) : Nat := (m (item + 1)).toNat

def acpiProcID (item : Nat) : Nat := (m (item + 2)).toNat

def apicId (item : Nat) : Nat := (m (item + 3)).toNat

def lapicEnabled (item : Nat) : Bool := m.u32 (item + 4) % 4 ≠ 0

/-- `global_sys_int` of an `io_apic_int_src_override` -/
def globalSysInt (item : Nat) : Nat := m.u32 (item + 4)

def isProcessor (item : Nat) : Bool := itemType m item = madtItemProcLapic ∧ lapicEnabled m item

end Records

structure MadtCpu where
  id : Nat
  localApic : Nat
  deriving DecidableEq

/-- The settings that `parse_madt` writes, with the records that it has visited. -/
structure MadtSettings where
  /-- `cpu`, up to `cpu_count` -/
  cpu : List MadtCpu
  pIoApic : Option Nat
  interruptOverrides : Nat → Option Nat
  interruptOverrideCount : Nat
  visited : List Nat

def MadtSettings.initial : MadtSettings where
  cpu := []
  pIoApic := none
  interruptOverrides := fun _ => none
  interruptOverrideCount := 0
  visited := []

inductive MadtStray where
  | cpu
  | interruptOverrides

def visitItem (m : Bytes) (settings : MadtSettings) (item : Nat) : Checked MadtStray MadtSettings :=
  let settings := { settings with visited := settings.visited ++ [item] }
  if itemType m item = madtItemProcLapic then
    if lapicEnabled m item then do
      Checked.check (settings.cpu.length < cpuEntries) .cpu
      pure { settings with cpu := settings.cpu ++ [⟨acpiProcID m item, item⟩] }
    else pure settings
  else if itemType m item = madtItemIoApic then pure { settings with pIoApic := some item }
  else if itemType m item = madtItemIoApicSrcoverride then do
    Checked.check (globalSysInt m item < maxInterruptOverrideCount) .interruptOverrides
    pure
      { settings with
        interruptOverrides :=
          Function.update settings.interruptOverrides (globalSysInt m item) (some item)
        interruptOverrideCount := (settings.interruptOverrideCount + 1) % 2 ^ 32 }
  else pure settings

/-- `curr_length` after the step to the next item: its length is added, not that of the last. -/
def nextLength (m : Bytes) (item currLength : Nat) : Nat :=
  (currLength + recordLength m (item + recordLength m item)) % 2 ^ 32

def parseItems (m : Bytes) : Nat → Nat → Nat → MadtSettings → Checked MadtStray MadtSettings
  | 0, _, _, _ => throw (.halt .hang)
  | fuel + 1, item, currLength, settings =>
      if currLength < madtLength m then do
        let settings ← visitItem m settings item
        parseItems m fuel (item + recordLength m item) (nextLength m item currLength) settings
      else pure settings

def parseMadt (m : Bytes) (fuel : Nat) : Checked MadtStray MadtSettings :=
  parseItems m fuel madtHeaderSize madtHeaderSize .initial

def getItems (m : Bytes) (type itemIndex : Nat) : Nat → Nat → Nat → Nat → Outcome (Option Nat)
  | 0, _, _, _ => throw .hang
  | fuel + 1, item, currLength, currIndex =>
      if currLength < madtLength m ∧ currIndex ≤ itemIndex then
        let same := (itemType m item).toNat = type
        if same ∧ itemIndex = currIndex then pure (some item)
        else
          getItems m type itemIndex fuel (item + recordLength m item) (nextLength m item currLength)
            (if same then (currIndex + 1) % 2 ^ 32 else currIndex)
      else pure none

def madtGetItem (m : Bytes) (type itemIndex fuel : Nat) : Outcome (Option Nat) :=
  getItems m type itemIndex fuel madtHeaderSize madtHeaderSize 0

/-- The records of the table from an offset on.  They have at least their own header, and fill
the table. -/
inductive MadtRecords (m : Bytes) : Nat → List Nat → Prop where
  | nil : MadtRecords m (madtLength m) []
  | cons {item : Nat} {rest : List Nat} : 2 ≤ recordLength m item →
      item + recordLength m item ≤ madtLength m →
      MadtRecords m (item + recordLength m item) rest → MadtRecords m item (item :: rest)

end SwagOS.Kernel
