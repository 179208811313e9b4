import SwagOS.Kernel.UserCopies
import SwagOS.Kernel.UserMemory.Regions
import SwagOS.Kernel.ProcessSlots
import SwagOS.Mem.PageTables.Exact

/-!
# fork with the contents of the pages

`CreatePageTableFromCopy` reads each page of the parent into a buffer on the stack of the
kernel, maps a new frame for the child at the same place, and writes the buffer to it.  For
the one the tables of the parent are loaded, for the other those of the child; both
accesses are checked against the tables of the thread that calls fork.
-/

namespace SwagOS.Kernel

open SwagOS.Lib SwagOS.DataStructures SwagOS.Mem ThreadPagetables

/-- The frame managers, the memory of the child, and the contents of the frames. -/
structure ForkSpace where
  space : Space
  ram : Bytes

/-- What the copy finds: the processes, the memory of the parent, and what the stack of the
kernel holds where the buffer is. -/
structure ForkSite where
  layout : Layout
  view : View
  new : Nat
  old : Nat
  oldMem : UserMemory
  buf : Bytes

namespace ForkSite

variable (site : ForkSite)

def parent : LoadedTables := ⟨site.layout.pgdirPhys site.old, site.oldMem.pgdir⟩

def childBase : Nat := site.layout.pgdirPhys site.new

def copyPage (s : ForkSpace) (entry : UsedPage) : Outcome ForkSpace := do
  match ← s.space.frames.physicalFrameRequest4kb with
  | (none, _) =>
      throw (.panic
        "CreatePageTableFromCopy() --> physical_frame_request_4kb() returned bad frame\n")
  | (some newFrame, frames) => do
      match ← site.parent.fetchStruct site.view site.parent entry.pageVa 0x1000 s.ram site.buf with
      | none => throw (.panic "fetch struct fail\n")
      | some buf => do
          let mem ← s.space.mem.map4kbPageUser site.childBase entry.pageVa newFrame
            entry.pdtTableIndex entry.pdTableIndex
          match ← site.parent.writeStruct site.view ⟨site.childBase, mem.pgdir⟩ entry.pageVa buf
              0x1000 s.ram with
          | none => throw (.panic "write struct fail\n")
          | some ram => pure ⟨⟨frames, mem⟩, ram⟩

def copyPages : Nat → Link → ForkSpace → Outcome ForkSpace
  | _, .null, s => pure s
  | _, .head, s => pure s
  | 0, .record _, _ => throw .hang
  | fuel + 1, .record i, s => do
      let s ← site.copyPage s (site.oldMem.usedPages.records i).data
      copyPages fuel (site.oldMem.usedPages.records i).next s

def createPageTableFromCopy (s : ForkSpace) : Outcome ForkSpace :=
  site.copyPages site.oldMem.usedPages.allocated site.oldMem.usedPages.first
    { s with space := { s.space with mem := { s.space.mem with pgdir := .create site.childBase } } }

end ForkSite

/-- The processes, and the contents of the frames. -/
structure ForkSystem where
  system : System
  ram : Bytes

/-- `ForkUserProcess`, which returns the number of the child or -1. -/
def forkUserProcess (layout : Layout) (view : View) (buf : Bytes) (old iRip : Nat)
    (s : ForkSystem) : Outcome (Int × ForkSystem) :=
  let table := s.system.table
  match table.findFreeProcess, table.findFreeThread, (table.threads old).ownerProc with
  | some p, some _, some oldProc => do
      let site : ForkSite := ⟨layout, view, p, oldProc, s.system.memory oldProc, buf⟩
      let copy ← site.createPageTableFromCopy ⟨s.system.space p, s.ram⟩
      Outcome.panicUnless
        (copy.space.mem.pgdir.isFrameMappedThread (layout.pgdirPhys p) view iRip)
        "ForkUserProcess() --> RIP not mapped!\n"
      pure (p, ⟨{ s.system.withSpace p copy.space with table := table.forkUserProcess old iRip },
        copy.ram⟩)
  | _, _, _ => pure (-1, s)

section Erase

variable {site : ForkSite} {s s' : ForkSpace}

theorem ForkSite.copyPage_ok {entry : UsedPage} (done : site.copyPage s entry = .ok s') :
    ∃ frame frames mem buf,
      s.space.frames.physicalFrameRequest4kb = .ok (some frame, frames) ∧
      site.parent.fetchStruct site.view site.parent entry.pageVa 0x1000 s.ram site.buf =
        .ok (some buf) ∧
      s.space.mem.map4kbPageUser site.childBase entry.pageVa frame entry.pdtTableIndex
        entry.pdTableIndex = .ok mem ∧
      site.parent.writeStruct site.view ⟨site.childBase, mem.pgdir⟩ entry.pageVa buf 0x1000 s.ram =
        .ok (some s'.ram) ∧
      s'.space = ⟨frames, mem⟩ := by
  rw [ForkSite.copyPage] at done
  obtain ⟨⟨_ | frame, frames⟩, served, done⟩ := Outcome.bind_ok.mp done
  · cases done
  obtain ⟨_ | buf, fetched, done⟩ := Outcome.bind_ok.mp done
  · cases done
  obtain ⟨mem, mapped, done⟩ := Outcome.bind_ok.mp done
  obtain ⟨_ | ram, wrote, done⟩ := Outcome.bind_ok.mp done
  · cases done
  cases done
  exact ⟨frame, frames, mem, buf, served, fetched, mapped, wrote, rfl⟩

theorem ForkSite.copyPages_erase {fuel : Nat} {link : Link}
    (done : site.copyPages fuel link s = .ok s') :
    s.space.copyPages site.layout site.view site.new site.old site.oldMem fuel link =
      .ok s'.space := by
  induction fuel generalizing link s with
  | zero =>
    cases link with
    | record i => cases done
    | _ =>
      cases done
      rfl
  | succ fuel inductionHypothesis =>
    cases link with
    | record i =>
      obtain ⟨s₁, step, rest⟩ := Outcome.bind_ok.mp done
      obtain ⟨frame, frames, mem, buf, served, fetched, mapped, wrote, same⟩ :=
        ForkSite.copyPage_ok step
      have checked : site.oldMem.pgdir.fetchStruct (site.layout.pgdirPhys site.old) site.view
          (site.oldMem.usedPages.records i).data.pageVa 0x1000 = true :=
        LoadedTables.fetchStruct_some fetched
      have later := inductionHypothesis rest
      rw [same] at later
      rw [Space.copyPages]
      refine Outcome.bind_ok.mpr ⟨(some frame, frames), served, ?_⟩
      refine Outcome.bind_ok.mpr ⟨(), Outcome.panicUnless_ok.mpr checked, ?_⟩
      refine Outcome.bind_ok.mpr ⟨mem, mapped, ?_⟩
      exact Outcome.bind_ok.mpr ⟨(), Outcome.panicUnless_ok.mpr checked, later⟩
    | _ =>
      cases done
      rfl

/-- fork changes the system as the model without contents says, and returns the slot of the
child. -/
theorem forkUserProcess_erase {layout : Layout} {view : View} {buf : Bytes} {old iRip : Nat}
    {pid : Int} {s s' : ForkSystem}
    (done : forkUserProcess layout view buf old iRip s = .ok (pid, s')) :
    s.system.forkUserProcess layout view old iRip = .ok s'.system ∧
      pid = (s.system.table.forkPid old).elim (-1) Int.ofNat := by
  rw [forkUserProcess] at done
  rw [System.forkUserProcess, ThreadTable.forkPid]
  cases process : s.system.table.findFreeProcess with
  | none =>
    simp only [process] at done ⊢
    cases done
    exact ⟨rfl, rfl⟩
  | some p =>
    cases thread : s.system.table.findFreeThread with
    | none =>
      simp only [process, thread] at done ⊢
      cases done
      exact ⟨rfl, rfl⟩
    | some t =>
      cases owner : (s.system.table.threads old).ownerProc with
      | none =>
        simp only [process, thread, owner] at done ⊢
        cases done
        exact ⟨rfl, rfl⟩
      | some oldProc =>
        simp only [process, thread, owner] at done ⊢
        obtain ⟨copy, copied, done⟩ := Outcome.bind_ok.mp done
        obtain ⟨_, checked, ⟨⟩⟩ := Outcome.bind_ok.mp done
        refine ⟨Outcome.bind_ok.mpr ⟨copy.space, ForkSite.copyPages_erase copied, ?_⟩, rfl⟩
        exact Outcome.bind_ok.mpr ⟨(), checked, rfl⟩

end Erase

end SwagOS.Kernel
