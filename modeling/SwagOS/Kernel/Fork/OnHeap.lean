import SwagOS.Kernel.Fork.AddressSpace
import SwagOS.Kernel.UserMemory.HeapRecords

/-!
# fork on the kernel heap

fork takes a block for the list of the child's threads, and one for each page that it copies.
-/

namespace SwagOS.Kernel

open SwagOS.Lib SwagOS.DataStructures SwagOS.Mem ThreadPagetables

/-- `sizeof(ThreadEntry)` -/
def threadEntrySize : Nat := 24

namespace ForkSite

variable (site : ForkSite)

def copyPageOnHeap (s : ForkSpace) (entry : UsedPage) : OnHeap ForkSpace := do
  match ← StateT.lift s.space.frames.physicalFrameRequest4kb with
  | (none, _) =>
      StateT.lift (throw (.panic
        "CreatePageTableFromCopy() --> physical_frame_request_4kb() returned bad frame\n"))
  | (some newFrame, frames) => do
      match ← StateT.lift
        (site.parent.fetchStruct site.view site.parent entry.pageVa 0x1000 s.ram site.buf) with
      | none => StateT.lift (throw (.panic "fetch struct fail\n"))
      | some buf => do
          let mem ← s.space.mem.map4kbPageUserOnHeap site.childBase entry.pageVa newFrame
            entry.pdtTableIndex entry.pdTableIndex
          match ← StateT.lift (site.parent.writeStruct site.view ⟨site.childBase, mem.pgdir⟩
              entry.pageVa buf 0x1000 s.ram) with
          | none => StateT.lift (throw (.panic "write struct fail\n"))
          | some ram => pure ⟨⟨frames, mem⟩, ram⟩

def copyPagesOnHeap : Nat → Link → ForkSpace → OnHeap ForkSpace
  | _, .null, s => pure s
  | _, .head, s => pure s
  | 0, .record _, _ => StateT.lift (throw .hang)
  | fuel + 1, .record i, s => do
      let s ← site.copyPageOnHeap s (site.oldMem.usedPages.records i).data
      copyPagesOnHeap fuel (site.oldMem.usedPages.records i).next s

def createPageTableFromCopyOnHeap (s : ForkSpace) : OnHeap ForkSpace :=
  site.copyPagesOnHeap site.oldMem.usedPages.allocated site.oldMem.usedPages.first
    { s with space := { s.space with mem := { s.space.mem with pgdir := .create site.childBase } } }

end ForkSite

def forkUserProcessOnHeap (layout : Layout) (view : View) (buf : Bytes) (old iRip : Nat)
    (s : ForkSystem) : OnHeap (Int × ForkSystem) :=
  let table := s.system.table
  match table.findFreeProcess, table.findFreeThread, (table.threads old).ownerProc with
  | some p, some _, some oldProc => do
      let _ ← kallocOrPanic "ForkUserProcess() --> kalloc() failure to allocate ThreadEntry.\n"
        threadEntrySize
      let site : ForkSite := ⟨layout, view, p, oldProc, s.system.memory oldProc, buf⟩
      let copy ← site.createPageTableFromCopyOnHeap ⟨s.system.space p, s.ram⟩
      StateT.lift (Outcome.panicUnless
        (copy.space.mem.pgdir.isFrameMappedThread (layout.pgdirPhys p) view iRip)
        "ForkUserProcess() --> RIP not mapped!\n")
      pure (p, ⟨{ s.system.withSpace p copy.space with table := table.forkUserProcess old iRip },
        copy.ram⟩)
  | _, _, _ => pure (-1, s)

section Uses

variable {site : ForkSite} {s s' : ForkSpace}

theorem ForkSite.copyPageOnHeap_spends {entry : UsedPage} (done : site.copyPage s entry = .ok s') :
    Spends KernelSupply.take HeapReady (site.copyPageOnHeap s entry) s' (pageUses 1) := by
  obtain ⟨frame, frames, mem, buf, served, fetched, mapped, wrote, same⟩ := copyPage_ok done
  obtain ⟨space, ram⟩ := s'
  dsimp only at wrote same
  subst same
  rw [copyPageOnHeap, served, Consumer.lift_bind]
  dsimp only
  rw [fetched, Consumer.lift_bind]
  dsimp only
  refine .bind heapReady_lasting (UserMemory.map4kbPageUserOnHeap_spends mapped) ?_
  rw [wrote, Consumer.lift_bind]
  exact .pure _

theorem ForkSite.copyPagesOnHeap_spends {fuel : Nat} {link : Link}
    (done : site.copyPages fuel link s = .ok s') :
    Spends KernelSupply.take HeapReady (site.copyPagesOnHeap fuel link s) s'
      (pageUses (site.oldMem.usedPages.dataFrom fuel link).length) := by
  induction fuel generalizing link s with
  | zero =>
    cases link with
    | record i => cases done
    | _ =>
      cases done
      exact .pure _
  | succ fuel inductionHypothesis =>
    cases link with
    | record i =>
      obtain ⟨t, first, rest⟩ := Outcome.bind_ok.mp done
      have uses : pageUses (site.oldMem.usedPages.dataFrom (fuel + 1) (.record i)).length =
          pageUses 1 ++ pageUses (site.oldMem.usedPages.dataFrom fuel
            (site.oldMem.usedPages.records i).next).length := by
        rw [Dll.dataFrom, List.length_cons, pageUses, List.replicate_succ]
        rfl
      rw [uses]
      exact .bind heapReady_lasting (copyPageOnHeap_spends first) (inductionHypothesis rest)
    | _ =>
      cases done
      exact .pure _

end Uses

section Call

variable {layout : Layout} {view : View} {s : ForkSystem} {old iRip p q : Nat}

/-- The uses of the heap by a fork that succeeds without it. -/
theorem ForkSound.spends (sound : ForkSound layout view s old iRip p q) {buf : Bytes}
    {result : Int × ForkSystem} (done : forkUserProcess layout view buf old iRip s = .ok result) :
    Spends KernelSupply.take HeapReady (forkUserProcessOnHeap layout view buf old iRip s) result
      (.kalloc threadEntrySize :: pageUses (s.system.memory q).usedPages.contents.length) := by
  obtain ⟨t, thread⟩ := Option.ne_none_iff_exists'.mp sound.thread
  rw [forkUserProcess] at done
  dsimp only at done
  rw [sound.process, thread, sound.owner] at done
  obtain ⟨copy, copied, done⟩ := Outcome.bind_ok.mp done
  obtain ⟨_, mapped, done⟩ := Outcome.bind_ok.mp done
  cases done
  rw [forkUserProcessOnHeap]
  dsimp only
  rw [sound.process, thread, sound.owner]
  refine spends_kalloc heapReady_lasting (fun _ ready => ready) fun _ => ?_
  refine Spends.mono ?_ fun _ both => both.1
  have pages := ForkSite.copyPagesOnHeap_spends copied
  rw [← List.append_nil (pageUses _)]
  refine .bind heapReady_lasting pages ?_
  rw [mapped, Consumer.lift_bind]
  exact .pure _

end Call

end SwagOS.Kernel
