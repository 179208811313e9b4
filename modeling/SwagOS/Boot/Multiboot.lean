import SwagOS.Boot.Sdt
import SwagOS.Lib.Walking
import SwagOS.Mem.PhysicalFrames

/-!
# What the boot loader tells the kernel

The three walks over the tags of the multiboot information, in `boot/multiboot.c` and in
`mem/pmm.c`.  The kernel reads the information through the window of its binary, so that a pointer
is an offset of the memory, or a null pointer, which is read through the page tables.  Log output is
left out; of the checksum of the RSDP only the accesses are left.
-/

namespace SwagOS.Boot

open SwagOS.Lib SwagOS.Mem

def multibootTagTypeEnd : Nat := 0

def multibootTagTypeMmap : Nat := 6

def multibootTagTypeFramebuffer : Nat := 8

def multibootTagTypeAcpiOld : Nat := 14

def multibootTagTypeAcpiNew : Nat := 15

section Tags

variable (m : Bytes)

def tagType (tag : Nat) : Nat := m.u32 tag

def tagSize (tag : Nat) : Nat := m.u32 (tag + 4)

/-- `(multiboot_uint8_t *) tag + ((tag->size + 7) & ~7)` -/
def nextTag (tag : Nat) : Nat := tag + (tagSize m tag + 7) % 2 ^ 32 / 8 * 8

/-- The test and the loop that the three functions share: the first tag of a wanted type. -/
def findTag (wanted : Nat → Prop) [DecidablePred wanted] (fuel addr : Nat) :
    Outcome (Option Nat) :=
  if addr % 8 ≠ 0 then pure none
  else
    walk (nextTag m) (fun tag => tagType m tag = multibootTagTypeEnd)
      (fun tag => wanted (tagType m tag)) fuel (addr + 8)

/-- Where the RSDP is, and `extended_rsdp` after the call. -/
def multibootRetrieveRsdp (fuel addr : Nat) (extendedRsdp : Bool) :
    Outcome (Option Nat × Bool) := do
  let tag ← findTag m (fun type => type = multibootTagTypeAcpiNew ∨ type = multibootTagTypeAcpiOld)
    fuel addr
  match tag with
  | none => pure (none, extendedRsdp)
  | some tag =>
      pure (some (tag + 8), extendedRsdp || tagType m tag = multibootTagTypeAcpiNew)

/-- `global_Settings.framebuffer`, where the function returns `true`. -/
def muiltibootRetrieveFramebuffer (fuel addr : Nat) : Outcome (Option Nat) :=
  findTag m (· = multibootTagTypeFramebuffer) fuel addr

def mmapTag (tag : Nat) : MultibootTagMmap where
  size := tagSize m tag
  entries i :=
    let entry := tag + 16 + 24 * i
    { addr := m.u64 entry, len := m.u64 (entry + 8), type := m.u32 (entry + 16) }

/-- The frame manager, where the function returns `true`. -/
def parseMultibootMemorymap (pmm : PhysicalMemoryManager) (fuel addr : Nat) :
    Outcome (Option PhysicalMemoryManager) := do
  let tag ← findTag m (· = multibootTagTypeMmap) fuel addr
  match tag with
  | none => pure none
  | some tag =>
      let pmm ← pmm.parseMultibootMmapEntries (mmapTag m tag)
      pure (some pmm)

/-- What `parse_multiboot_info` sets, with the page tables. -/
structure BootSettings where
  /-- A null pointer where there is no RSDP. -/
  systemDescriptorPointer : Nat
  framebuffer : Nat
  pmm : PhysicalMemoryManager
  madt : Nat
  tables : Paging.Tables

/-- `sizeof(RSDP_t)` -/
def rsdpSize : Nat := 20

def parseMultibootInfo (kernel : KernelTables) (pmm : PhysicalMemoryManager)
    (tables : Paging.Tables) (fuel ptrMultibootInfo : Nat) : Checked PageFault BootSettings := do
  let (rsdp, useExtendedRSDP) ←
    Checked.lift (multibootRetrieveRsdp m fuel ptrMultibootInfo false)
  -- `doRSDPChecksum(rsdp, sizeof(RSDP_t))` comes before any test of the pointer.
  touchBehind kernel tables rsdp 0 rsdpSize
  let framebuffer ← Checked.lift (muiltibootRetrieveFramebuffer m fuel ptrMultibootInfo)
  match framebuffer with
  | none =>
      throw (.halt (.panic "parse_multiboot_info() --> could not retrieve framebuffer.\n"))
  | some framebuffer =>
      let parsed ← Checked.lift (parseMultibootMemorymap m pmm fuel ptrMultibootInfo)
      match parsed with
      | none => throw (.halt (.panic "Error parsing multiboot memory map.\n"))
      | some pmm =>
          let (madt, tables) ← retrieveMADT m kernel tables useExtendedRSDP rsdp
          if madt = 0 then throw (.halt (.panic "MADT not found!\n"))
          else pure ⟨rsdp.getD 0, framebuffer, pmm, madt, tables⟩

end Tags

end SwagOS.Boot
