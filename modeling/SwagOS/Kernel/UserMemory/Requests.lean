import SwagOS.Kernel.UserMemory.Isolation
import SwagOS.Kernel.UserMemory.Regions

/-!
# Requests

The system calls with their arguments.  Each of them changes the memory of one process at
most: that of a process that was free, or that of the caller.
-/

namespace SwagOS.Kernel.System

open SwagOS.Lib SwagOS.DataStructures SwagOS.Mem ThreadPagetables

/-- A system call of thread `t`, or the creation of the first process. -/
inductive Request where
  | createUserProcess (view : View) (elf : ElfFile)
  | fork (t : Nat) (view : View) (iRip : Nat)
  | exec (t : Nat) (view : View) (file : Option ElfFile)
  | exit (t cpu : Nat)
  | sbrk (t rsi : Nat)
  | free (t rsi : Nat)

namespace Request

def caller : Request → Option Nat
  | createUserProcess _ _ => none
  | fork t _ _ | exec t _ _ | exit t _ | sbrk t _ | free t _ => some t

def call : Request → Call
  | createUserProcess _ _ => .createUserProcess
  | fork t _ _ => .fork t
  | exec t _ _ => .exec t
  | exit t _ => .exit t
  | sbrk t _ => .sbrk t
  | free t rsi => .free t rsi

def serve (layout : Layout) (s : System) : Request → Outcome System
  | createUserProcess view elf => s.createUserProcess layout view elf
  | fork t view iRip => s.forkUserProcess layout view t iRip
  | exec t view file => s.execUserProcess layout view t file
  | exit t cpu => s.syshandlerExit cpu t
  | sbrk t rsi => s.syshandlerSbrk layout t rsi
  | free t rsi => s.syshandlerFree layout t rsi

def leaves : Request → ProcessState
  | exit _ _ => .exited
  | createUserProcess _ _ | fork _ _ _ | exec _ _ _ | sbrk _ _ | free _ _ => .inuse

end Request

/-- A request that returns. -/
structure Served (layout : Layout) (s : System) (request : Request) (s' : System) : Prop where
  calls : ∀ t, request.caller = some t → s.Calls t
  done : request.serve layout s = .ok s'

theorem Served.step {layout : Layout} {s s' : System} {request : Request}
    (served : Served layout s request s') : Step layout s request.call s' := by
  obtain ⟨calls, done⟩ := served
  cases request with
  | createUserProcess view elf => exact .createUserProcess view elf done
  | fork t view iRip => exact .fork view iRip (calls t rfl) done
  | exec t view file => exact .exec view file (calls t rfl) done
  | exit t cpu => exact .exit cpu (calls t rfl) done
  | sbrk t rsi => exact .sbrk rsi (calls t rfl) done
  | free t rsi => exact .free (calls t rfl) done

/-- What a request does to the memory of process `p`, and to the frames. -/
inductive Change (layout : Layout) (s : System) : Request → Nat → Space → Prop where
  | createUserProcess {p t iRip : Nat} {view : View} {elf : ElfFile} {loaded space : Space} :
      s.table.findFreeProcess = some p → s.table.findFreeThread = some t →
      Space.elfLoadSegments (layout.pgdirPhys p) elf
        ⟨s.frames, (s.memory p).createPageTables (layout.pgdirPhys p)⟩ = .ok (iRip, loaded) →
      loaded.createUserProcessStack (layout.pgdirPhys p) = .ok space →
      Change layout s (.createUserProcess view elf) p space
  | fork {p t old oldProc iRip : Nat} {view : View} {space : Space} :
      s.table.findFreeProcess = some p → s.table.findFreeThread = some t →
      (s.table.threads old).ownerProc = some oldProc →
      Space.copyPages layout view p oldProc (s.memory oldProc)
        (s.memory oldProc).usedPages.allocated (s.memory oldProc).usedPages.first
        ⟨s.frames, (s.memory p).createPageTables (layout.pgdirPhys p)⟩ = .ok space →
      Change layout s (.fork old view iRip) p space
  | exec {p t iRip : Nat} {view : View} {elf : ElfFile} {freed stacked space : Space} :
      (s.table.threads t).ownerProc = some p → (s.space p).processFree = .ok freed →
      Space.createUserProcessStack (layout.pgdirPhys p)
        ⟨freed.frames, freed.mem.createPageTables (layout.pgdirPhys p)⟩ = .ok stacked →
      stacked.elfLoadSegments (layout.pgdirPhys p) elf = .ok (iRip, space) →
      Change layout s (.exec t view (some elf)) p space
  | exit {p t cpu : Nat} {space : Space} :
      (s.table.threads t).ownerProc = some p → (s.space p).processFree = .ok space →
      Change layout s (.exit t cpu) p space
  | sbrk {p t rsi : Nat} {rax : Option Nat} {space : Space} :
      (s.table.threads t).ownerProc = some p →
      (s.space p).syshandlerSbrk (layout.pgdirPhys p) rsi = .ok (rax, space) →
      Change layout s (.sbrk t rsi) p space
  | free {p t rsi : Nat} {space : Space} :
      (s.table.threads t).ownerProc = some p →
      (s.space p).freeHeapAllocEntry layout rsi = .ok space →
      Change layout s (.free t rsi) p space

/-- The memory and the states of the processes are those before. -/
structure Unchanged (s s' : System) : Prop where
  frames : s'.frames = s.frames
  memory : s'.memory = s.memory
  states : ∀ q, (s'.table.procs q).state = (s.table.procs q).state

/-- Process `p` has this memory and this state, and the others are as they were. -/
structure Changed (s s' : System) (p : Nat) (space : Space) (state : ProcessState) : Prop where
  frames : s'.frames = space.frames
  memory : s'.memory = Function.update s.memory p space.mem
  self : (s'.table.procs p).state = state
  others : ∀ q, q ≠ p → (s'.table.procs q).state = (s.table.procs q).state

/-- Every request changes nothing, or the memory of one process. -/
theorem Served.cases {layout : Layout} {s s' : System} {request : Request}
    (served : Served layout s request s') :
    Unchanged s s' ∨ ∃ p space, Change layout s request p space ∧
      Changed s s' p space request.leaves := by
  obtain ⟨calls, done⟩ := served
  cases request with
  | createUserProcess view elf =>
    rw [Request.serve, System.createUserProcess] at done
    split at done
    · next p t process thread =>
      right
      obtain ⟨⟨iRip, loaded⟩, load, done⟩ := Outcome.bind_ok.mp done
      obtain ⟨space, stack, done⟩ := Outcome.bind_ok.mp done
      obtain ⟨-, -, done⟩ := Outcome.bind_ok.mp done
      obtain ⟨-, -, ⟨⟩⟩ := Outcome.bind_ok.mp done
      refine ⟨p, space, .createUserProcess process thread load stack, rfl, rfl, ?_, fun q other => ?_⟩
      · simp [ThreadTable.createUserProcess, process, thread, ThreadTable.startProcess_state,
          Request.leaves]
      · simp [ThreadTable.createUserProcess, process, thread, ThreadTable.startProcess_state, other]
    · cases done
      exact .inl ⟨rfl, rfl, fun _ => rfl⟩
  | fork old view iRip =>
    rw [Request.serve, System.forkUserProcess] at done
    split at done
    · next p t oldProc process thread owner =>
      right
      obtain ⟨space, copied, done⟩ := Outcome.bind_ok.mp done
      obtain ⟨-, -, ⟨⟩⟩ := Outcome.bind_ok.mp done
      refine ⟨p, space, .fork process thread owner copied, rfl, rfl, ?_, fun q other => ?_⟩
      · simp [ThreadTable.forkUserProcess, process, thread, owner, ThreadTable.startProcess_state,
          Request.leaves]
      · simp [ThreadTable.forkUserProcess, process, thread, owner, ThreadTable.startProcess_state,
          other]
    · cases done
      exact .inl ⟨rfl, rfl, fun _ => rfl⟩
  | exec t view file =>
    obtain ⟨-, p, owner, inUse⟩ := calls t rfl
    simp only [Request.serve, System.execUserProcess, owner] at done
    cases file with
    | none =>
      cases done
      exact .inl ⟨rfl, rfl, fun _ => rfl⟩
    | some elf =>
      right
      obtain ⟨freed, free, done⟩ := Outcome.bind_ok.mp done
      obtain ⟨stacked, stack, done⟩ := Outcome.bind_ok.mp done
      obtain ⟨⟨iRip, space⟩, load, done⟩ := Outcome.bind_ok.mp done
      obtain ⟨-, -, done⟩ := Outcome.bind_ok.mp done
      obtain ⟨-, -, ⟨⟩⟩ := Outcome.bind_ok.mp done
      refine ⟨p, space, .exec owner free stack load, rfl, rfl, ?_, fun q other => ?_⟩
      · simp [ThreadTable.execUserProcess_state owner, Request.leaves]
      · simp [ThreadTable.execUserProcess_state owner, other]
  | exit t cpu =>
    obtain ⟨-, p, owner, inUse⟩ := calls t rfl
    simp only [Request.serve, System.syshandlerExit, owner] at done
    have states := ThreadTable.syshandlerExit_state cpu owner
    split at done
    next last =>
      right
      obtain ⟨space, free, ⟨⟩⟩ := Outcome.bind_ok.mp done
      refine ⟨p, space, .exit owner free, rfl, rfl, ?_, fun q other => ?_⟩
      · rw [states, if_pos ⟨rfl, last⟩]
        rfl
      · rw [states, if_neg fun both => other both.1]
    next more =>
      cases done
      refine .inl ⟨rfl, rfl, fun q => ?_⟩
      rw [states, if_neg fun both => more both.2]
  | sbrk t rsi =>
    obtain ⟨-, p, owner, inUse⟩ := calls t rfl
    rw [Request.serve, System.syshandlerSbrk, System.inProcess, owner] at done
    obtain ⟨space, called, ⟨⟩⟩ := Outcome.bind_ok.mp done
    obtain ⟨⟨rax, space'⟩, called, ⟨⟩⟩ := Outcome.bind_ok.mp called
    exact .inr ⟨p, space, .sbrk owner called, rfl, rfl, inUse, fun _ _ => rfl⟩
  | free t rsi =>
    obtain ⟨-, p, owner, inUse⟩ := calls t rfl
    rw [Request.serve, System.syshandlerFree, System.inProcess, owner] at done
    obtain ⟨space, called, ⟨⟩⟩ := Outcome.bind_ok.mp done
    exact .inr ⟨p, space, .free owner called, rfl, rfl, inUse, fun _ _ => rfl⟩

end SwagOS.Kernel.System
