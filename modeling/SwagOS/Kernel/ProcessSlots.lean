import Mathlib.Data.Finset.Card
import Mathlib.Order.Interval.Finset.Nat
import SwagOS.Kernel.ThreadTable.Lemmas

/-!
# The slots of the process table

`FindFreeProcess` looks for a slot in state `PROCESS_STATE_FREE`, and no function writes that
state: fork takes a slot away from it, exit leaves it in `PROCESS_STATE_EXITED`, and waitpid only
reads.  `FindFreeThread`, on the other hand, takes the threads that exit has killed.

A run is one of the calls fork, exec, exit and waitpid and of what the kernel does between them.
With the tables goes the set of those processes that have exited and been waited for.
-/

namespace SwagOS.Kernel

open SwagOS.Lib

/-- The tables, and the slots of the processes that a `waitpid` has returned for. -/
structure ProcessRun where
  table : ThreadTable
  waited : Finset Nat

namespace ThreadTable

/-- The return value of `ForkUserProcess`, with `-1` as `none`. -/
def forkPid (s : ThreadTable) (old : Nat) : Option Nat :=
  match s.findFreeProcess, s.findFreeThread, (s.threads old).ownerProc with
  | some p, some _, some _ => some p
  | _, _, _ => none

def Alive (s : ThreadTable) (t : Nat) : Prop :=
  ∃ p, (s.threads t).ownerProc = some p ∧ (s.procs p).state = .inuse

def slots (s : ThreadTable) (state : ProcessState) : Finset Nat :=
  (Finset.range maxNumProc).filter fun p => (s.procs p).state = state

end ThreadTable

namespace ProcessRun

def unwaited (s : ProcessRun) : Finset Nat := s.table.slots .exited \ s.waited

/-- The tables when the first process is created: every slot is free. -/
structure Boot (s : ProcessRun) : Prop where
  free : ∀ p, (s.table.procs p).state = .free
  waited : s.waited = ∅

inductive Step : ProcessRun → ProcessRun → Prop where
  /-- `CreateUserProcess`, for the first process. -/
  | create {s : ProcessRun} (iRip : Nat) : Step s { s with table := s.table.createUserProcess iRip }
  | fork {s : ProcessRun} {t : Nat} (iRip : Nat) :
      s.table.Alive t → Step s { s with table := s.table.forkUserProcess t iRip }
  | exec {s : ProcessRun} {t : Nat} :
      s.table.Alive t → Step s { s with table := s.table.execUserProcess t }
  | exit {s : ProcessRun} {t : Nat} (cpu : Nat) :
      s.table.Alive t → Step s { s with table := s.table.syshandlerExit cpu t }
  /-- A `waitpid` that returns for a process; before that it sleeps. -/
  | waitpid {s : ProcessRun} {t p : Nat} :
      s.table.Alive t → p < maxNumProc → (s.table.procs p).state = .exited →
      Step s { s with waited := insert p s.waited }
  /-- The scheduler, sleeping and waking, kernel threads. -/
  | between {s : ProcessRun} {table : ThreadTable} :
      table.procs = s.table.procs →
      (∀ t, (table.threads t).ownerProc = (s.table.threads t).ownerProc) →
      Step s { s with table := table }

theorem Step.scheduler {s : ProcessRun} {table : ThreadTable} {cpu iRip : Nat}
    (contexts : s.table.Contexts)
    (ids : ∀ t, (s.table.threads t).id ≤ maxNumThreads ∨ (s.table.threads t).id = 2 ^ 32 - 1)
    (busy : ∀ t, s.table.current cpu = some t → t ≠ idleThread →
      s.table.status t = .running ∨ s.table.status t = .sleeping)
    (done : s.table.invokeScheduler cpu iRip = .ok table) : Step s { s with table := table } := by
  rcases ThreadTable.invokeScheduler_ok contexts ids busy done with
    rfl | ⟨i, switch⟩ | ⟨-, rfl⟩
  · exact .between rfl fun _ => rfl
  · exact .between switch.procs fun t => (switch.fields t).2.2.1
  · refine .between rfl ?_
    intro t
    by_cases idle : t = idleThread
    · simp [ThreadTable.schedule, idle]
    · simp [ThreadTable.schedule, idle]

theorem Step.wakeup (s : ProcessRun) (channel : Channel) :
    Step s { s with table := s.table.wakeup channel } := by
  refine .between (ThreadTable.wakeup_procs s.table channel) ?_
  intro t
  rw [ThreadTable.wakeup_threads]
  split
  · rfl
  · rfl

/-- Of the slots, those are free that are not of a process that is alive or to be waited for;
and fork finds one if every process that exited was waited for and there is room. -/
structure SlotsRecycled (s : ProcessRun) : Prop where
  free : (s.table.slots .free).card =
    maxNumProc - ((s.table.slots .inuse).card + s.unwaited.card)
  fork : s.unwaited = ∅ → (s.table.slots .inuse).card ≤ maxNumProc - 1 →
    ∀ t, s.table.Alive t → s.table.findFreeThread ≠ none → s.table.forkPid t ≠ none

end ProcessRun

namespace ThreadTable

variable {s : ThreadTable}

@[simp] theorem mem_slots {state : ProcessState} {p : Nat} :
    p ∈ s.slots state ↔ p < maxNumProc ∧ (s.procs p).state = state := by
  rw [slots, Finset.mem_filter, Finset.mem_range]

theorem slots_card (s : ThreadTable) :
    (s.slots .free).card + (s.slots .inuse).card + (s.slots .exited).card = maxNumProc := by
  have apart : Disjoint (s.slots .free) (s.slots .inuse) := by
    rw [Finset.disjoint_left]
    intro p free inuse
    have states := (mem_slots.mp free).2.symm.trans (mem_slots.mp inuse).2
    cases states
  have apart' : Disjoint (s.slots .free ∪ s.slots .inuse) (s.slots .exited) := by
    rw [Finset.disjoint_left]
    intro p other exited
    rcases Finset.mem_union.mp other with free | inuse
    · have states := (mem_slots.mp free).2.symm.trans (mem_slots.mp exited).2
      cases states
    · have states := (mem_slots.mp inuse).2.symm.trans (mem_slots.mp exited).2
      cases states
  have whole : s.slots .free ∪ s.slots .inuse ∪ s.slots .exited = Finset.range maxNumProc := by
    ext p
    rw [Finset.mem_union, Finset.mem_union, mem_slots, mem_slots, mem_slots, Finset.mem_range]
    cases (s.procs p).state with
    | free => simp
    | exited => simp
    | inuse => simp
  rw [← Finset.card_union_of_disjoint apart, ← Finset.card_union_of_disjoint apart', whole,
    Finset.card_range]

theorem findFreeProcess_none : s.findFreeProcess = none ↔ s.slots .free = ∅ := by
  unfold findFreeProcess
  rw [List.find?_eq_none, Finset.eq_empty_iff_forall_notMem]
  constructor
  · intro never p member
    obtain ⟨inside, free⟩ := mem_slots.mp member
    exact never p (List.mem_range.mpr inside) (by simpa using free)
  · intro empty p member free
    exact empty p (mem_slots.mpr ⟨List.mem_range.mp member, by simpa using free⟩)

theorem forkPid_none {t : Nat} (alive : s.Alive t) :
    s.forkPid t = none ↔ s.slots .free = ∅ ∨ s.findFreeThread = none := by
  obtain ⟨p, owner, -⟩ := alive
  rw [← findFreeProcess_none, forkPid, owner]
  cases s.findFreeProcess with
  | none => simp
  | some q =>
    cases s.findFreeThread with
    | none => simp
    | some u => simp

theorem createUserProcess_exited {p : Nat} (iRip : Nat) (exited : (s.procs p).state = .exited) :
    ((s.createUserProcess iRip).procs p).state = .exited := by
  unfold createUserProcess
  split
  · next q t found _ =>
    have free := (findFreeProcess_some found).2
    have different : p ≠ q := by
      rintro rfl
      rw [free] at exited
      cases exited
    rw [startProcess_state, if_neg different]
    exact exited
  · exact exited

theorem forkUserProcess_exited {p : Nat} (old iRip : Nat) (exited : (s.procs p).state = .exited) :
    ((s.forkUserProcess old iRip).procs p).state = .exited := by
  unfold forkUserProcess
  split
  · next q t _ found _ _ =>
    have free := (findFreeProcess_some found).2
    have different : p ≠ q := by
      rintro rfl
      rw [free] at exited
      cases exited
    rw [startProcess_state, if_neg different]
    exact exited
  · exact exited

theorem execUserProcess_exited {t p : Nat} (alive : s.Alive t)
    (exited : (s.procs p).state = .exited) :
    ((s.execUserProcess t).procs p).state = .exited := by
  obtain ⟨q, owner, inuse⟩ := alive
  have different : p ≠ q := by
    rintro rfl
    rw [inuse] at exited
    cases exited
  rw [execUserProcess_state owner, if_neg different]
  exact exited

theorem syshandlerExit_exited {t p : Nat} (cpu : Nat) (alive : s.Alive t)
    (exited : (s.procs p).state = .exited) :
    ((s.syshandlerExit cpu t).procs p).state = .exited := by
  obtain ⟨q, owner, -⟩ := alive
  rw [syshandlerExit_state cpu owner]
  split
  · rfl
  · exact exited

end ThreadTable

namespace ProcessRun

variable {s s' : ProcessRun}

def WaitedExited (s : ProcessRun) : Prop := s.waited ⊆ s.table.slots .exited

theorem WaitedExited.mono (inv : s.WaitedExited) (same : s'.waited = s.waited)
    (kept : ∀ p, (s.table.procs p).state = .exited → (s'.table.procs p).state = .exited) :
    s'.WaitedExited := by
  intro p member
  rw [same] at member
  obtain ⟨inside, exited⟩ := ThreadTable.mem_slots.mp (inv member)
  exact ThreadTable.mem_slots.mpr ⟨inside, kept p exited⟩

theorem WaitedExited.step (inv : s.WaitedExited) (moved : Step s s') : s'.WaitedExited := by
  cases moved with
  | create iRip => exact inv.mono rfl fun p => ThreadTable.createUserProcess_exited iRip
  | fork iRip alive => exact inv.mono rfl fun p => ThreadTable.forkUserProcess_exited _ iRip
  | exec alive => exact inv.mono rfl fun p => ThreadTable.execUserProcess_exited alive
  | exit cpu alive => exact inv.mono rfl fun p => ThreadTable.syshandlerExit_exited cpu alive
  | waitpid alive inside exited =>
    intro q member
    rcases Finset.mem_insert.mp member with rfl | older
    · exact ThreadTable.mem_slots.mpr ⟨inside, exited⟩
    · exact inv older
  | between sameProcs sameOwners =>
    refine inv.mono rfl ?_
    intro p exited
    rw [sameProcs]
    exact exited

theorem WaitedExited.of_reachable (reached : Reachable Boot Step s) : s.WaitedExited := by
  refine reached.invariant ?_ fun _ _ inv moved => inv.step moved
  intro start boot p member
  rw [boot.waited] at member
  cases member

theorem WaitedExited.free_card (inv : s.WaitedExited) :
    (s.table.slots .free).card + (s.table.slots .inuse).card + s.unwaited.card + s.waited.card =
      maxNumProc := by
  have whole := s.table.slots_card
  have exited := Finset.card_sdiff_add_card_eq_card inv
  unfold unwaited
  omega

theorem WaitedExited.recycled_iff (inv : s.WaitedExited) : s.SlotsRecycled ↔ s.waited = ∅ := by
  have count := inv.free_card
  constructor
  · intro recycled
    have free := recycled.free
    rw [← Finset.card_eq_zero]
    omega
  · intro none
    rw [none, Finset.card_empty] at count
    refine ⟨by omega, ?_⟩
    intro allWaited room t alive thread failed
    rw [allWaited, Finset.card_empty] at count
    rcases (ThreadTable.forkPid_none alive).mp failed with noProcess | noThread
    · rw [noProcess, Finset.card_empty] at count
      unfold maxNumProc at count room
      omega
    · exact thread noThread

/-- In every state of every run, the slots are recycled exactly if no process was waited for
yet; and fork finds a slot exactly if fewer processes than slots were ever created, those that
exited included. -/
theorem slots_recycled_iff (reached : Reachable Boot Step s) :
    (s.SlotsRecycled ↔ s.waited = ∅) ∧
      ∀ t, s.table.Alive t → s.table.findFreeThread ≠ none →
        (s.table.forkPid t ≠ none ↔
          (s.table.slots .inuse).card + (s.table.slots .exited).card < maxNumProc) := by
  have inv := WaitedExited.of_reachable reached
  refine ⟨inv.recycled_iff, ?_⟩
  intro t alive thread
  have whole := s.table.slots_card
  rw [ne_eq, ThreadTable.forkPid_none alive, or_iff_left thread, ← Finset.card_eq_zero]
  omega

def emptyRun : ProcessRun where
  table :=
    { threads := fun _ => ⟨false, .notInitialized, 0, 0, none, none⟩
      procs := fun _ => ⟨[], 0, .free⟩
      current := fun _ => none }
  waited := ∅

theorem emptyRun_boot : emptyRun.Boot := ⟨fun _ => rfl, rfl⟩

/-- Process 0 with thread 0 has had `n` children, one after the other, each with thread 1. -/
structure Children (n : Nat) (s : ProcessRun) : Prop where
  owner : (s.table.threads 0).ownerProc = some 0
  first : s.table.status 0 = .ready
  second : s.table.status 1 = .notInitialized ∨ s.table.status 1 = .killed
  parent : (s.table.procs 0).state = .inuse
  exited : ∀ p, 0 < p → p ≤ n → (s.table.procs p).state = .exited
  free : ∀ p, n < p → s.table.procs p = ⟨[], 0, .free⟩

theorem Children.findFreeThread {n : Nat} (children : Children n s) :
    s.table.findFreeThread = some 1 := by
  unfold ThreadTable.findFreeThread
  rw [List.find?_range_eq_some]
  refine ⟨by simpa using children.second, List.mem_range.mpr (by decide), ?_⟩
  intro t earlier
  rw [Nat.lt_one_iff.mp earlier, children.first]
  rfl

theorem Children.findFreeProcess {n : Nat} (children : Children n s) (room : n + 1 < maxNumProc) :
    s.table.findFreeProcess = some (n + 1) := by
  unfold ThreadTable.findFreeProcess
  rw [List.find?_range_eq_some]
  refine ⟨?_, List.mem_range.mpr room, ?_⟩
  · rw [children.free (n + 1) (Nat.lt_succ_self n)]
    rfl
  · intro p earlier
    rcases Nat.eq_zero_or_pos p with rfl | positive
    · rw [children.parent]
      rfl
    · rw [children.exited p positive (Nat.le_of_lt_succ earlier)]
      rfl

theorem Children.boot : ∃ s, Reachable Boot Step s ∧ Children 0 s ∧ s.waited = ∅ := by
  refine ⟨_, (Reachable.base emptyRun_boot).next (.create 1), ?_, rfl⟩
  have process : emptyRun.table.findFreeProcess = some 0 := rfl
  have thread : emptyRun.table.findFreeThread = some 0 := by
    unfold ThreadTable.findFreeThread
    rw [List.find?_range_eq_some]
    refine ⟨rfl, by decide, ?_⟩
    intro t earlier
    omega
  have created : emptyRun.table.createUserProcess 1 = emptyRun.table.startProcess 0 0 1 := by
    unfold ThreadTable.createUserProcess
    rw [process, thread]
  refine ⟨?_, ?_, ?_, ?_, ?_, ?_⟩
  · rw [created]
    rfl
  · rw [created]
    rfl
  · rw [created]
    exact .inl rfl
  · rw [created]
    rfl
  · intro p positive none
    omega
  · intro p positive
    rw [created]
    simp [ThreadTable.startProcess, ThreadTable.startThread, Nat.ne_of_gt positive]
    rfl

theorem syshandlerExit_only {table : ThreadTable} {t p : Nat} (cpu : Nat)
    (owner : (table.threads t).ownerProc = some p) (threads : (table.procs p).threads = [t])
    (count : (table.procs p).threadCount = 1) :
    (table.syshandlerExit cpu t).status t = .killed ∧
      (∀ u, u ≠ t → (table.syshandlerExit cpu t).status u = table.status u ∧
        ((table.syshandlerExit cpu t).threads u).ownerProc = (table.threads u).ownerProc) ∧
      (∀ q, q ≠ p → (table.syshandlerExit cpu t).procs q = table.procs q) ∧
      ((table.syshandlerExit cpu t).procs p).state = .exited := by
  have last : ((table.procs p).threadCount + (2 ^ 32 - 1)) % 2 ^ 32 = 0 := by
    rw [count]
    rfl
  obtain ⟨freed, isFreed⟩ : ∃ freed, freed = (table.modifyProc p fun proc =>
      { proc with threadCount := (proc.threadCount + (2 ^ 32 - 1)) % 2 ^ 32 }).processFreeThreads p :=
    ⟨_, rfl⟩
  have exits : table.syshandlerExit cpu t = ((freed.modifyProc p fun proc =>
      { proc with state := .exited }).wakeup (.process p)).leave cpu t := by
    unfold ThreadTable.syshandlerExit
    simp only [owner, ThreadTable.modifyProc_procs, Function.update_self, last, ↓reduceIte, isFreed]
  have freedThreads (u : Nat) (different : u ≠ t) : freed.threads u = table.threads u := by
    rw [isFreed, ThreadTable.processFreeThreads_threads, ThreadTable.modifyProc_procs,
      Function.update_self, threads, if_neg (by simpa using different)]
    rfl
  have freedProcs (q : Nat) (different : q ≠ p) : freed.procs q = table.procs q := by
    rw [isFreed, ThreadTable.processFreeThreads_procs, Function.update_of_ne different,
      ThreadTable.modifyProc_procs, Function.update_of_ne different]
  refine ⟨?_, ?_, ?_, ?_⟩
  · rw [exits]
    simp [ThreadTable.leave, ThreadTable.status]
  · intro u different
    rw [exits, ThreadTable.leave, ThreadTable.status, ThreadTable.modifyThread_threads,
      Function.update_of_ne different, ThreadTable.setCurrent_threads, ThreadTable.wakeup_threads,
      ThreadTable.modifyProc_threads, freedThreads u different]
    split
    · exact ⟨rfl, rfl⟩
    · exact ⟨rfl, rfl⟩
  · intro q different
    rw [exits, ThreadTable.leave, ThreadTable.modifyThread_procs, ThreadTable.setCurrent_procs,
      ThreadTable.wakeup_procs, ThreadTable.modifyProc_procs, Function.update_of_ne different,
      freedProcs q different]
  · rw [ThreadTable.syshandlerExit_state cpu owner, if_pos ⟨rfl, last⟩]

theorem Children.forks {n : Nat} (children : Children n s) (room : n + 1 < maxNumProc) :
    s.table.Alive 0 ∧ s.table.forkUserProcess 0 1 = s.table.startProcess (n + 1) 1 1 := by
  refine ⟨⟨0, children.owner, children.parent⟩, ?_⟩
  unfold ThreadTable.forkUserProcess
  rw [children.findFreeProcess room, children.findFreeThread, children.owner]

/-- One more child: fork and its exit. -/
theorem Children.next {n : Nat} (children : Children n s) (reached : Reachable Boot Step s)
    (room : n + 1 < maxNumProc) :
    ∃ s', Reachable Boot Step s' ∧ Children (n + 1) s' ∧ s'.waited = s.waited := by
  obtain ⟨parentAlive, forked⟩ := children.forks room
  have afterFork := reached.next (.fork 1 parentAlive)
  rw [forked] at afterFork
  obtain ⟨table, isTable⟩ : ∃ table, table = s.table.startProcess (n + 1) 1 1 := ⟨_, rfl⟩
  rw [← isTable] at afterFork
  have childOwner : (table.threads 1).ownerProc = some (n + 1) := by
    rw [isTable]
    simp [ThreadTable.startProcess]
  have child : table.procs (n + 1) = ⟨[1], 1, .inuse⟩ := by
    rw [isTable]
    simp [ThreadTable.startProcess, ThreadTable.startThread,
      children.free (n + 1) (Nat.lt_succ_self n)]
  have otherProcs (q : Nat) (different : q ≠ n + 1) : table.procs q = s.table.procs q := by
    rw [isTable]
    simp [ThreadTable.startProcess, ThreadTable.startThread, different]
  have parent : table.threads 0 = s.table.threads 0 := by
    rw [isTable]
    simp [ThreadTable.startProcess, ThreadTable.startThread]
  have childAlive : table.Alive 1 := ⟨n + 1, childOwner, by rw [child]⟩
  obtain ⟨killed, others, procs, exited⟩ := syshandlerExit_only 0 childOwner (by rw [child])
    (by rw [child])
  have parentNow : (table.syshandlerExit 0 1).status 0 = .ready ∧
      ((table.syshandlerExit 0 1).threads 0).ownerProc = some 0 := by
    obtain ⟨status, owner⟩ := others 0 (by decide)
    rw [status, owner, ThreadTable.status, parent]
    exact ⟨children.first, children.owner⟩
  have parentState : ((table.syshandlerExit 0 1).procs 0).state = .inuse := by
    rw [procs 0 (Nat.succ_ne_zero n).symm, otherProcs 0 (Nat.succ_ne_zero n).symm]
    exact children.parent
  refine ⟨_, afterFork.next (.exit 0 childAlive), ?_, rfl⟩
  refine ⟨parentNow.2, parentNow.1, .inr killed, parentState, ?_, ?_⟩
  · intro p positive upTo
    by_cases newest : p = n + 1
    · rw [newest]
      exact exited
    · change ((table.syshandlerExit 0 1).procs p).state = .exited
      rw [procs p newest, otherProcs p newest]
      exact children.exited p positive (by omega)
  · intro p later
    have different : p ≠ n + 1 := Nat.ne_of_gt later
    change (table.syshandlerExit 0 1).procs p = _
    rw [procs p different, otherProcs p different]
    exact children.free p (by omega)

theorem slots_recycled_unwaited : ∃ s, Reachable Boot Step s ∧ s.unwaited = {1} ∧
    s.table.slots .inuse = {0, 2} ∧ s.SlotsRecycled := by
  obtain ⟨s, reached, alone, none⟩ := Children.boot
  obtain ⟨s, reached, children, same⟩ := alone.next reached (by decide)
  obtain ⟨alive, forked⟩ := children.forks (by decide)
  have twice := reached.next (.fork 1 alive)
  rw [forked] at twice
  have waited : s.waited = ∅ := same.trans none
  have state (p : Nat) : ((s.table.startProcess 2 1 1).procs p).state =
      if p = 0 ∨ p = 2 then .inuse else if p = 1 then .exited else .free := by
    rw [ThreadTable.startProcess_state]
    by_cases second : p = 2
    · rw [if_pos second, if_pos (.inr second)]
    · rw [if_neg second]
      rcases p with _ | _ | p
      · exact children.parent
      · exact children.exited 1 Nat.one_pos (Nat.le_refl 1)
      · rw [children.free (p + 2) (by omega), if_neg (by omega), if_neg (by omega)]
  refine ⟨_, twice, ?_, ?_, (slots_recycled_iff twice).1.mpr waited⟩
  · ext p
    rw [unwaited, waited, Finset.sdiff_empty, ThreadTable.mem_slots, Finset.mem_singleton, state]
    constructor
    · rintro ⟨-, exited⟩
      split_ifs at exited with other first
      exact first
    · rintro rfl
      exact ⟨by decide, rfl⟩
  · ext p
    rw [ThreadTable.mem_slots, Finset.mem_insert, Finset.mem_singleton, state]
    constructor
    · rintro ⟨-, inuse⟩
      split_ifs at inuse with living
      exact living
    · rintro (rfl | rfl)
      · exact ⟨by decide, rfl⟩
      · exact ⟨by decide, rfl⟩

theorem exists_children (n : Nat) (room : n < maxNumProc) :
    ∃ s, Reachable Boot Step s ∧ Children n s ∧ s.waited = Finset.Icc 1 n := by
  induction n with
  | zero =>
    obtain ⟨s, reached, children, none⟩ := Children.boot
    exact ⟨s, reached, children, none.trans (Finset.Icc_eq_empty (by decide)).symm⟩
  | succ n inductionHypothesis =>
    obtain ⟨s, reached, children, waited⟩ := inductionHypothesis (Nat.lt_of_succ_lt room)
    obtain ⟨s', reached', children', same⟩ := children.next reached room
    have exited := children'.exited (n + 1) n.succ_pos (Nat.le_refl _)
    refine ⟨_, reached'.next (.waitpid ⟨0, children'.owner, children'.parent⟩ room exited), ?_, ?_⟩
    · exact ⟨children'.owner, children'.first, children'.second, children'.parent,
        children'.exited, children'.free⟩
    · change insert (n + 1) s'.waited = Finset.Icc 1 (n + 1)
      rw [same, waited]
      ext p
      rw [Finset.mem_insert, Finset.mem_Icc, Finset.mem_Icc]
      omega

/-- After 63 children, each of them waited for, process 0 is the only one alive and fork finds
no slot. -/
theorem slots_not_recycled : ∃ s, Reachable Boot Step s ∧ s.unwaited = ∅ ∧
    s.table.slots .inuse = {0} ∧ s.table.Alive 0 ∧ s.table.findFreeThread ≠ none ∧
    s.table.forkPid 0 = none ∧ ¬s.SlotsRecycled := by
  obtain ⟨s, reached, children, allWaited⟩ := exists_children 63 (by decide)
  have alive : s.table.Alive 0 := ⟨0, children.owner, children.parent⟩
  have thread : s.table.findFreeThread ≠ none := by
    rw [children.findFreeThread]
    exact Option.some_ne_none 1
  have state (p : Nat) (inside : p < maxNumProc) :
      (s.table.procs p).state = if p = 0 then .inuse else .exited := by
    rcases Nat.eq_zero_or_pos p with rfl | positive
    · exact children.parent
    · rw [if_neg (Nat.ne_of_gt positive)]
      exact children.exited p positive (Nat.le_of_lt_succ inside)
  have inuse : s.table.slots .inuse = {0} := by
    ext p
    rw [ThreadTable.mem_slots, Finset.mem_singleton]
    constructor
    · rintro ⟨inside, isInuse⟩
      by_contra positive
      rw [state p inside, if_neg positive] at isInuse
      cases isInuse
    · rintro rfl
      exact ⟨by decide, children.parent⟩
  have waited : s.unwaited = ∅ := by
    rw [Finset.eq_empty_iff_forall_notMem]
    intro p member
    obtain ⟨exited, unwaited⟩ := Finset.mem_sdiff.mp member
    obtain ⟨inside, isExited⟩ := ThreadTable.mem_slots.mp exited
    apply unwaited
    rw [allWaited, Finset.mem_Icc]
    refine ⟨Nat.pos_of_ne_zero ?_, Nat.le_of_lt_succ inside⟩
    rintro rfl
    rw [children.parent] at isExited
    cases isExited
  have noFree : s.table.slots .free = ∅ := by
    rw [Finset.eq_empty_iff_forall_notMem]
    intro p member
    obtain ⟨inside, isFree⟩ := ThreadTable.mem_slots.mp member
    rw [state p inside] at isFree
    split at isFree
    · cases isFree
    · cases isFree
  have fails := (ThreadTable.forkPid_none alive).mpr (.inl noFree)
  refine ⟨s, reached, waited, inuse, alive, thread, fails, ?_⟩
  intro recycled
  refine recycled.fork waited ?_ 0 alive thread fails
  rw [inuse, Finset.card_singleton]
  decide

end ProcessRun

end SwagOS.Kernel
