import SwagOS.DataStructures.LinkedList.Sequences
import SwagOS.Mem.PhysicalFrames.Safety
import SwagOS.Mem.KernelHeap.Reclamation
import SwagOS.Mem.ChunkedFrames.Leak
import SwagOS.Fs.CachedDisk.Validity
import SwagOS.Kernel.Sleep.WaitPid
import SwagOS.Kernel.Spinlock.Reinitialisation
import SwagOS.Kernel.Descriptors
import SwagOS.Kernel.UserPointers
import SwagOS.Kernel.UserMemory.Heap
import SwagOS.Kernel.UserMemory.Isolation
import SwagOS.Kernel.UserMemory.Sbrk
import SwagOS.Kernel.UserMemory.HeapConsistency
import SwagOS.Kernel.Spinlock
import SwagOS.Kernel.Spinlock.Reinitialisation
import SwagOS.Mem.KernelPageTables.Transfer
import SwagOS.Fs.ElfLoad
import SwagOS.Fs.ElfLoad.Segments
import SwagOS.Fs.ElfLoad.Contents
import SwagOS.Fs.ElfLoad.Hostile
import SwagOS.Kernel.Exec
import SwagOS.Kernel.Locking
import SwagOS.Kernel.Locking.Balance
import SwagOS.Kernel.Locking.Functions
import SwagOS.Kernel.Locking.Order
import SwagOS.Mem.KernelHeap.FirstFit
import SwagOS.Mem.KernelHeap.Lookup
import SwagOS.Kernel.Locking.HeapCalls
import SwagOS.Kernel.ThreadTable.RoundRobin
import SwagOS.Kernel.ProcessSlots
import SwagOS.Kernel.Sleep.BadInt3
import SwagOS.Kernel.UserMemory.Teardown
import SwagOS.Kernel.SyscallArguments
import SwagOS.Drivers.Terminal
import SwagOS.Drivers.Terminal.Numbers
import SwagOS.Drivers.Terminal.Disclosure
import SwagOS.Kernel.Printing
import SwagOS.Kernel.Locking.Ways
import SwagOS.Drivers.Terminal.Strays
import SwagOS.Kernel.SyscallHandler
import SwagOS.Kernel.SyscallHandler.Frame
import SwagOS.Kernel.UserMemory.HeapSearch
import SwagOS.DataStructures.LinkedList.Headed
import SwagOS.Kernel.UserMemory.SbrkFailure
import SwagOS.Kernel.UserMemory.FreedAllocation
import SwagOS.Mem.PhysicalFrames.Accesses
import SwagOS.Mem.ChunkedFrames.Accounting
import SwagOS.Fs.Ext2.InodeLocation
import SwagOS.Mem.KernelPageTables.DirectMap
import SwagOS.Lib.Paging.Layout
import SwagOS.Mem.KernelPageTables.Built
import SwagOS.Mem.KernelPageTables.Walkers
import SwagOS.Kernel.Exec.Stack
import SwagOS.Kernel.Exec.Arguments
import SwagOS.Kernel.Exec.Reach
import SwagOS.Mem.PageTables.Exact
import SwagOS.Kernel.Fork
import SwagOS.Kernel.Fork.Copies
import SwagOS.Kernel.Fork.AddressSpace
import SwagOS.Drivers.Terminal.Bounds
import SwagOS.Lib.Commands
import SwagOS.Drivers.Terminal.OnScreen
import SwagOS.Drivers.Terminal.Redraw
import SwagOS.Fs.Ext2.Addressing
import SwagOS.Fs.Ext2.Init
import SwagOS.Fs.Ext2.GroupTable
import SwagOS.Fs.Ext2.DirectoryBlock
import SwagOS.Fs.Ext2.DirectoryAccesses
import SwagOS.Fs.Vfs
import SwagOS.Kernel.Acpi
import SwagOS.Kernel.Acpi.Madt
import SwagOS.Drivers.Keyboard
import SwagOS.Drivers.Keyboard.Delivery
import SwagOS.Kernel.Stacks
import SwagOS.Kernel.Stacks.Apart
import SwagOS.Lib.Numerals
import SwagOS.Libc.Numbers
import SwagOS.Lib.Copying
import SwagOS.Libc.Memory
import SwagOS.Drivers.Pci
import SwagOS.Drivers.Pci.Devices
import SwagOS.Kernel.Serial
import SwagOS.Drivers.Terminal.Conversions
import SwagOS.Fs.Ext2.DoubleIndirect
import SwagOS.Mem.KernelHeap.Geometry
import SwagOS.User.Shell
import SwagOS.Drivers.Video
import SwagOS.Drivers.Video.Display
import SwagOS.Drivers.Video.Text
import SwagOS.Kernel.InterruptTable
import SwagOS.Kernel.Interrupts
import SwagOS.Kernel.Interrupts.Delivery
import SwagOS.Kernel.Interrupts.ForkTwice
import SwagOS.Kernel.Interrupts.Handler
import SwagOS.Kernel.SmpStart
import SwagOS.Kernel.SmpStart.Invariant
import SwagOS.Kernel.SmpStart.Started
import SwagOS.User.Shell.Arguments
import SwagOS.User.Shell.Editing
import SwagOS.User.Shell.Loop
import SwagOS.Boot.Multiboot
import SwagOS.Boot.Multiboot.Parsed
import SwagOS.Kernel.IoApic
import SwagOS.Fs.Ext2.DirectoryHeap
import SwagOS.Fs.Ext2.Reading
import SwagOS.Kernel.Fork.OnHeap
import SwagOS.Kernel.SyscallArguments.Slots
import SwagOS.Kernel.SyscallHandler.Results
