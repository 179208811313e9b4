import SwagOS.Kernel.ThreadTable.Lemmas

/-!
# Scheduler exclusivity

A thread that is current on a CPU is running or sleeping: it stays sleeping when
nothing else is ready.  Everything that a CPU may switch to and everything that may be
given a new life is in another state, so no thread is ever current twice.  Killing the
threads of a process needs that the process has no other thread than the one that
exits, which is what `Owned` keeps.

The idle thread is shared by all CPUs and stays ready while it runs.
-/

namespace SwagOS.Kernel.ThreadTable

open SwagOS.Lib

/-- The interleaved sections.  `InvokeScheduler` runs at a timer interrupt or at INT3;
the writes of `ThreadSleep` and the system calls are those of the current thread. -/
inductive Step : ThreadTable → ThreadTable → Prop where
  | invokeScheduler {s s' : ThreadTable} {cpu iRip : Nat} :
      s.invokeScheduler cpu iRip = .ok s' → Step s s'
  | sleepSetChannel {s : ThreadTable} {cpu t : Nat} (channel : Channel) :
      s.current cpu = some t → Step s (s.sleepSetChannel t channel)
  | sleepSetStatus {s : ThreadTable} {cpu t : Nat} :
      s.current cpu = some t → Step s (s.sleepSetStatus t)
  | sleepSetCanWakeup {s : ThreadTable} {cpu t : Nat} :
      s.current cpu = some t → Step s (s.sleepSetCanWakeup t)
  | sleepClearChannel {s : ThreadTable} {cpu t : Nat} :
      s.current cpu = some t → Step s (s.sleepClearChannel t)
  | wakeup {s : ThreadTable} (channel : Channel) : Step s (s.wakeup channel)
  | createKernelThread {s s' : ThreadTable} {entry : Nat} :
      s.createKernelThread entry = .ok s' → Step s s'
  | createUserProcess {s : ThreadTable} (iRip : Nat) : Step s (s.createUserProcess iRip)
  | forkUserProcess {s : ThreadTable} {cpu t : Nat} (iRip : Nat) :
      s.current cpu = some t → Step s (s.forkUserProcess t iRip)
  | execUserProcess {s : ThreadTable} {cpu t : Nat} :
      s.current cpu = some t → Step s (s.execUserProcess t)
  | syshandlerExit {s : ThreadTable} {cpu t : Nat} :
      s.current cpu = some t → Step s (s.syshandlerExit cpu t)
  | exitThread {s : ThreadTable} {cpu t : Nat} :
      s.current cpu = some t → Step s (s.exitThread cpu t)

def ContextStep (s s' : ThreadTable) : Prop := Step s s' ∧ s'.Contexts

/-- After `kthread_setup` and `CreateIdleThread`: thread 0 runs on CPU 0. -/
def boot (idleEntry : Nat) : ThreadTable where
  threads := Function.update
    (Function.update (fun _ => ⟨false, .notInitialized, 0, 0, none, none⟩) idleThread
      ⟨true, .ready, idleThread, idleEntry, none, none⟩)
    0 ⟨true, .running, 0, 0, none, none⟩
  procs := fun _ => ⟨[], 0, .free⟩
  current := Function.update (fun _ => none) 0 (some 0)

/-- Threads on CPUs. -/
structure Scheduled (s : ThreadTable) : Prop where
  active : ∀ cpu t, s.current cpu = some t → t ≠ idleThread →
    s.status t = .running ∨ s.status t = .sleeping
  exclusive : ∀ cpu cpu' t, s.current cpu = some t → s.current cpu' = some t →
    t ≠ idleThread → cpu = cpu'
  ids : ∀ t, (s.threads t).id ≤ maxNumThreads ∨ (s.threads t).id = 2 ^ 32 - 1

/-- A process has one thread at most, in its list and by owner. -/
structure Owned (s : ThreadTable) : Prop where
  home : ∃ home : Nat → Nat, (∀ t p, (s.threads t).ownerProc = some p → t = home p) ∧
    ∀ p, ∀ t ∈ (s.procs p).threads, t = home p
  free : ∀ p, (s.procs p).state = .free →
    (s.procs p).threads = [] ∧ ∀ t, (s.threads t).ownerProc ≠ some p

/-- The CPUs keep their threads, and these keep on running or sleeping. -/
theorem Scheduled.congr {s s' : ThreadTable} (scheduled : s.Scheduled)
    (current : s'.current = s.current)
    (active : ∀ cpu t, s.current cpu = some t → t ≠ idleThread →
      s'.status t = .running ∨ s'.status t = .sleeping)
    (ids : ∀ t, (s'.threads t).id = (s.threads t).id ∨ (s'.threads t).id < maxNumThreads) :
    s'.Scheduled where
  active := by
    intro cpu t isCurrent
    rw [current] at isCurrent
    exact active cpu t isCurrent
  exclusive := by
    rw [current]
    exact scheduled.exclusive
  ids := by
    intro t
    rcases ids t with same | fresh
    · rw [same]
      exact scheduled.ids t
    · exact .inl (Nat.le_of_lt fresh)

theorem Owned.congr {s s' : ThreadTable} (owned : s.Owned) (procs : s'.procs = s.procs)
    (owner : ∀ t, (s'.threads t).ownerProc = (s.threads t).ownerProc) : s'.Owned where
  home := by
    obtain ⟨home, owners, lists⟩ := owned.home
    refine ⟨home, fun t p owns => owners t p ((owner t).symm.trans owns), ?_⟩
    rw [procs]
    exact lists
  free := by
    intro p free
    rw [procs] at free ⊢
    refine ⟨(owned.free p free).1, fun t => ?_⟩
    rw [owner t]
    exact (owned.free p free).2 t

theorem Scheduled.not_current {s : ThreadTable} (scheduled : s.Scheduled) {t : Nat}
    (inside : t < maxNumThreads) (slot : s.status t = .notInitialized ∨ s.status t = .killed)
    (cpu : Nat) : s.current cpu ≠ some t := by
  intro isCurrent
  have := scheduled.active cpu t isCurrent (Nat.ne_of_lt inside)
  rcases slot with state | state <;> simp [state] at this

theorem Scheduled.switch {s s' : ThreadTable} (scheduled : s.Scheduled) {cpu iRip i : Nat}
    (switch : Switch s s' cpu iRip i) : s'.Scheduled := by
  have fresh : ∀ cpu', s.current cpu' ≠ some i := by
    intro cpu' isCurrent
    have := scheduled.active cpu' i isCurrent (Nat.ne_of_lt switch.inside)
    rcases switch.runnable with state | ⟨state, -⟩ <;> simp [state] at this
  have elsewhere : ∀ cpu' t, cpu' ≠ cpu → s'.current cpu' = some t → s.current cpu' = some t := by
    intro cpu' t other isCurrent
    simpa [switch.current, other] using isCurrent
  have here : s'.current cpu = some i := by simp [switch.current]
  refine ⟨fun cpu' t isCurrent notIdle => ?_, fun c d t first second notIdle => ?_, fun t => ?_⟩
  · by_cases same : cpu' = cpu
    · subst same
      obtain rfl : i = t := by simpa [here] using isCurrent
      exact .inl switch.running
    · have before := elsewhere cpu' t same isCurrent
      have notI : t ≠ i := by
        rintro rfl
        exact fresh cpu' before
      have notOld : s.current cpu ≠ some t :=
        fun old => same (scheduled.exclusive cpu' cpu t before old notIdle)
      rw [status, switch.others t notI (.inl notOld)]
      exact scheduled.active cpu' t before notIdle
  · by_cases isC : c = cpu
    · subst isC
      by_contra different
      obtain rfl : i = t := by simpa [here] using first
      exact fresh d (elsewhere d i (Ne.symm different) second)
    · by_cases isD : d = cpu
      · subst isD
        obtain rfl : i = t := by simpa [here] using second
        exact absurd (elsewhere c i isC first) (fresh c)
      · exact scheduled.exclusive c d t (elsewhere c t isC first) (elsewhere d t isD second) notIdle
  · rw [(switch.fields t).2.1]
    exact scheduled.ids t

theorem Scheduled.turnIdle {s : ThreadTable} (scheduled : s.Scheduled) (cpu : Nat) :
    (s.schedule cpu idleThread .ready).Scheduled := by
  have elsewhere : ∀ cpu' t, t ≠ idleThread →
      (s.schedule cpu idleThread .ready).current cpu' = some t → s.current cpu' = some t := by
    intro cpu' t notIdle isCurrent
    by_cases same : cpu' = cpu
    · subst same
      obtain rfl : idleThread = t := by simpa [schedule] using isCurrent
      exact absurd rfl notIdle
    · simpa [schedule, same] using isCurrent
  refine ⟨fun cpu' t isCurrent notIdle => ?_, fun c d t first second notIdle => ?_, fun t => ?_⟩
  · have := scheduled.active cpu' t (elsewhere cpu' t notIdle isCurrent) notIdle
    simpa [schedule, status, notIdle] using this
  · exact scheduled.exclusive c d t (elsewhere c t notIdle first) (elsewhere d t notIdle second)
      notIdle
  · by_cases idle : t = idleThread
    · subst idle
      simpa [schedule] using scheduled.ids idleThread
    · simpa [schedule, idle] using scheduled.ids t

theorem Scheduled.startThread {s : ThreadTable} (scheduled : s.Scheduled) {t : Nat} (iRip : Nat)
    (inside : t < maxNumThreads) (slot : s.status t = .notInitialized ∨ s.status t = .killed) :
    (s.startThread t iRip).Scheduled := by
  refine scheduled.congr rfl (fun cpu u isCurrent notIdle => ?_) fun u => ?_
  · have other : u ≠ t := by
      rintro rfl
      exact scheduled.not_current inside slot cpu isCurrent
    simpa [ThreadTable.startThread, status, other] using scheduled.active cpu u isCurrent notIdle
  · by_cases same : u = t
    · subst same
      simp [ThreadTable.startThread, inside]
    · simp [ThreadTable.startThread, same]

theorem startProcess_scheduled {s : ThreadTable} (scheduled : s.Scheduled) {t : Nat} (p iRip : Nat)
    (inside : t < maxNumThreads) (slot : s.status t = .notInitialized ∨ s.status t = .killed) :
    (s.startProcess p t iRip).Scheduled := by
  refine (scheduled.startThread iRip inside slot).congr rfl (fun cpu u isCurrent notIdle => ?_)
    fun u => ?_
  · have := (scheduled.startThread iRip inside slot).active cpu u isCurrent notIdle
    by_cases same : u = t
    · subst same
      simpa [startProcess, status] using this
    · simpa [startProcess, status, same] using this
  · by_cases same : u = t
    · subst same
      simp [startProcess]
    · simp [startProcess, same]

theorem startProcess_owned {s : ThreadTable} (owned : s.Owned) {p t : Nat} (iRip : Nat)
    (free : (s.procs p).state = .free) : (s.startProcess p t iRip).Owned := by
  obtain ⟨home, owners, lists⟩ := owned.home
  obtain ⟨empty, nobody⟩ := owned.free p free
  have owner : ∀ u, ((s.startProcess p t iRip).threads u).ownerProc =
      if u = t then some p else (s.threads u).ownerProc := by
    intro u
    by_cases same : u = t
    · subst same
      simp [startProcess, ThreadTable.startThread]
    · simp [startProcess, ThreadTable.startThread, same]
  refine ⟨⟨Function.update home p t, fun u q owns => ?_, fun q u listed => ?_⟩, fun q isFree => ?_⟩
  · rw [owner u] at owns
    by_cases same : u = t
    · subst same
      obtain rfl : p = q := by simpa using owns
      simp
    · rw [if_neg same] at owns
      have other : q ≠ p := by
        rintro rfl
        exact nobody u owns
      simpa [other] using owners u q owns
  · by_cases same : q = p
    · subst same
      simpa [startProcess, ThreadTable.startThread, empty] using listed
    · simpa [same] using lists q u (by
        simpa [startProcess, ThreadTable.startThread, same] using listed)
  · have other : q ≠ p := by
      rintro rfl
      simp [startProcess] at isFree
    have isFree' : (s.procs q).state = .free := by
      simpa [startProcess, ThreadTable.startThread, other] using isFree
    obtain ⟨emptyQ, nobodyQ⟩ := owned.free q isFree'
    refine ⟨by simpa [startProcess, ThreadTable.startThread, other] using emptyQ, fun u => ?_⟩
    rw [owner u]
    by_cases same : u = t
    · simp [same, Ne.symm other]
    · simpa [same] using nobodyQ u

/-- The list of a process names at most the thread that is its own. -/
theorem Owned.listed {s : ThreadTable} (owned : s.Owned) {t p : Nat}
    (owner : (s.threads t).ownerProc = some p) : ∀ u ∈ (s.procs p).threads, u = t := by
  obtain ⟨home, owners, lists⟩ := owned.home
  intro u listed
  rw [lists p u listed, owners t p owner]

/-- Freeing the threads of a process changes none but the one that calls. -/
theorem processFreeThreads_other {s : ThreadTable} (owned : s.Owned) {t p u : Nat}
    (owner : (s.threads t).ownerProc = some p) (other : u ≠ t) :
    (s.processFreeThreads p).threads u = s.threads u := by
  rw [processFreeThreads_threads, if_neg fun listed => other (owned.listed owner u listed)]

theorem processFreeThreads_fields (s : ThreadTable) (p u : Nat) :
    ((s.processFreeThreads p).threads u).id = (s.threads u).id ∧
      ((s.processFreeThreads p).threads u).ownerProc = (s.threads u).ownerProc := by
  rw [processFreeThreads_threads]
  split <;> exact ⟨rfl, rfl⟩

theorem Scheduled.exec {s : ThreadTable} (scheduled : s.Scheduled) (owned : s.Owned) (t : Nat) :
    (s.execUserProcess t).Scheduled := by
  rw [execUserProcess]
  cases owner : (s.threads t).ownerProc with
  | none => exact scheduled
  | some p =>
    refine scheduled.congr (by simp) (fun cpu u isCurrent notIdle => ?_) fun u => ?_
    · by_cases same : u = t
      · subst same
        simp [status]
      · have := scheduled.active cpu u isCurrent notIdle
        simpa [status, same, processFreeThreads_other owned owner same] using this
    · left
      by_cases same : u = t
      · subst same
        simp [processFreeThreads_fields]
      · simp [same, processFreeThreads_fields]

theorem Owned.exec {s : ThreadTable} (owned : s.Owned) (t : Nat) : (s.execUserProcess t).Owned := by
  rw [execUserProcess]
  cases owner : (s.threads t).ownerProc with
  | none => exact owned
  | some p =>
    obtain ⟨home, owners, lists⟩ := owned.home
    have owners' : ∀ u, ((((s.processFreeThreads p).modifyProc p fun proc =>
        { threads := t :: proc.threads, threadCount := 1, state := .inuse }).setStatus t
          .running).threads u).ownerProc = (s.threads u).ownerProc := by
      intro u
      by_cases same : u = t
      · subst same
        simp [processFreeThreads_fields]
      · simp [same, processFreeThreads_fields]
    refine ⟨⟨home, fun u q owns => owners u q ((owners' u).symm.trans owns), fun q u listed => ?_⟩,
      fun q free => ?_⟩
    · by_cases same : q = p
      · subst same
        obtain rfl : u = t := by simpa using listed
        exact owners u q owner
      · exact lists q u (by simpa [same] using listed)
    · have other : q ≠ p := by
        rintro rfl
        simp at free
      obtain ⟨empty, nobody⟩ := owned.free q (by simpa [other] using free)
      exact ⟨by simpa [other] using empty, fun u owns => nobody u ((owners' u).symm.trans owns)⟩

/-- A thread leaves its CPU, from a state that differs from a good one in this thread only. -/
theorem Scheduled.leave {s s₁ : ThreadTable} (scheduled : s.Scheduled) {cpu t : Nat}
    (isCurrent : s.current cpu = some t) (current : s₁.current = s.current)
    (others : ∀ u, u ≠ t → s₁.status u = s.status u)
    (ids : ∀ u, (s₁.threads u).id = (s.threads u).id) : (s₁.leave cpu t).Scheduled := by
  have elsewhere : ∀ cpu' u, (s₁.leave cpu t).current cpu' = some u →
      cpu' ≠ cpu ∧ s.current cpu' = some u := by
    intro cpu' u now
    by_cases same : cpu' = cpu
    · subst same
      simp [ThreadTable.leave] at now
    · exact ⟨same, by simpa [ThreadTable.leave, same, current] using now⟩
  refine ⟨fun cpu' u now notIdle => ?_, fun c d u first second notIdle => ?_, fun u => ?_⟩
  · obtain ⟨apart, before⟩ := elsewhere cpu' u now
    have other : u ≠ t := by
      rintro rfl
      exact apart (scheduled.exclusive cpu' cpu u before isCurrent notIdle)
    have := scheduled.active cpu' u before notIdle
    rw [← others u other] at this
    simpa [ThreadTable.leave, status, other] using this
  · exact scheduled.exclusive c d u (elsewhere c u first).2 (elsewhere d u second).2 notIdle
  · by_cases same : u = t
    · subst same
      simp [ThreadTable.leave]
    · simpa [ThreadTable.leave, same, ids u] using scheduled.ids u

theorem Owned.leave {s : ThreadTable} (owned : s.Owned) (cpu t : Nat) : (s.leave cpu t).Owned := by
  refine owned.congr rfl fun u => ?_
  by_cases same : u = t
  · subst same
    simp [ThreadTable.leave]
  · simp [ThreadTable.leave, same]

/-- A process that loses its threads, or only counts one less. -/
theorem Owned.modifyProc {s : ThreadTable} (owned : s.Owned) {p : Nat} {write : Process → Process}
    (lists : ∀ u ∈ (write (s.procs p)).threads, u ∈ (s.procs p).threads)
    (state : (write (s.procs p)).state = .free → (s.procs p).state = .free) :
    (s.modifyProc p write).Owned := by
  obtain ⟨home, owners, old⟩ := owned.home
  refine ⟨⟨home, owners, fun q u listed => ?_⟩, fun q free => ?_⟩
  · by_cases same : q = p
    · subst same
      exact old q u (lists u (by simpa using listed))
    · exact old q u (by simpa [same] using listed)
  · by_cases same : q = p
    · subst same
      obtain ⟨empty, nobody⟩ := owned.free q (state (by simpa using free))
      refine ⟨List.eq_nil_iff_forall_not_mem.mpr fun u listed => ?_, nobody⟩
      have := lists u (by simpa using listed)
      rw [empty] at this
      exact absurd this List.not_mem_nil
    · simpa [same] using owned.free q (by simpa [same] using free)

theorem wakeup_fields (s : ThreadTable) (channel : Channel) (u : Nat) :
    (s.wakeup channel).status u = s.status u ∧
      ((s.wakeup channel).threads u).id = (s.threads u).id ∧
      ((s.wakeup channel).threads u).ownerProc = (s.threads u).ownerProc := by
  rw [status, status, wakeup_threads]
  split <;> exact ⟨rfl, rfl, rfl⟩

theorem processFreeThreads_owned {s : ThreadTable} (owned : s.Owned) (p : Nat) :
    (s.processFreeThreads p).Owned := by
  have emptied : (s.modifyProc p fun proc => { proc with threads := [], threadCount := 0 }).Owned :=
    owned.modifyProc (fun u listed => absurd listed List.not_mem_nil) id
  exact emptied.congr (by simp) fun u => (processFreeThreads_fields s p u).2

/-- The invariant of the thread table. -/
structure Inv (s : ThreadTable) : Prop where
  scheduled : s.Scheduled
  owned : s.Owned

/-- The exit of a thread, up to where the thread leaves its CPU, changes no other thread. -/
theorem syshandlerExit_leave {s : ThreadTable} (owned : s.Owned) (cpu t : Nat) :
    ∃ s₁ : ThreadTable, s.syshandlerExit cpu t = s₁.leave cpu t ∧ s₁.Owned ∧
      s₁.current = s.current ∧ (∀ u, u ≠ t → s₁.status u = s.status u) ∧
      ∀ u, (s₁.threads u).id = (s.threads u).id := by
  rw [syshandlerExit]
  cases owner : (s.threads t).ownerProc with
  | none => exact ⟨s, rfl, owned, rfl, fun _ _ => rfl, fun _ => rfl⟩
  | some p =>
    have counted : (s.modifyProc p fun proc =>
        { proc with threadCount := (proc.threadCount + (2 ^ 32 - 1)) % 2 ^ 32 }).Owned :=
      owned.modifyProc (fun u listed => listed) id
    simp only
    split
    · refine ⟨_, rfl, Owned.congr ?_ (wakeup_procs _ _) fun u => (wakeup_fields _ _ u).2.2, by simp,
        fun u other => ?_, fun u => ?_⟩
      · exact (processFreeThreads_owned counted p).modifyProc (fun u listed => listed)
          fun exited => by cases exited
      · rw [(wakeup_fields _ _ u).1, status, modifyProc_threads,
          processFreeThreads_other counted owner other]
        rfl
      · rw [(wakeup_fields _ _ u).2.1, modifyProc_threads, (processFreeThreads_fields _ p u).1]
        rfl
    · exact ⟨_, rfl, counted, rfl, fun _ _ => rfl, fun _ => rfl⟩

theorem Inv.exit {s : ThreadTable} (inv : s.Inv) {cpu t : Nat} (isCurrent : s.current cpu = some t) :
    (s.syshandlerExit cpu t).Inv := by
  obtain ⟨s₁, left, owned, current, others, ids⟩ := syshandlerExit_leave inv.owned cpu t
  rw [left]
  exact ⟨inv.scheduled.leave isCurrent current others ids, owned.leave cpu t⟩

/-- A write that leaves the status of its thread alone or at sleeping. -/
theorem Scheduled.modifyThread {s : ThreadTable} (scheduled : s.Scheduled) {t : Nat}
    {write : Thread → Thread}
    (state : (write (s.threads t)).status = s.status t ∨ (write (s.threads t)).status = .sleeping)
    (id : (write (s.threads t)).id = (s.threads t).id) : (s.modifyThread t write).Scheduled := by
  refine scheduled.congr rfl (fun cpu u isCurrent notIdle => ?_) fun u => ?_
  · by_cases same : u = t
    · subst same
      rcases state with kept | sleeping
      · have := scheduled.active cpu u isCurrent notIdle
        rw [← kept] at this
        simpa [status] using this
      · right
        simpa [status] using sleeping
    · simpa [status, same] using scheduled.active cpu u isCurrent notIdle
  · by_cases same : u = t
    · subst same
      simp [id]
    · simp [same]

theorem Inv.modifyThread {s : ThreadTable} (inv : s.Inv) {t : Nat} {write : Thread → Thread}
    (state : (write (s.threads t)).status = s.status t ∨ (write (s.threads t)).status = .sleeping)
    (id : (write (s.threads t)).id = (s.threads t).id)
    (owner : (write (s.threads t)).ownerProc = (s.threads t).ownerProc) :
    (s.modifyThread t write).Inv := by
  refine ⟨inv.scheduled.modifyThread state id, inv.owned.congr rfl fun u => ?_⟩
  by_cases same : u = t
  · subst same
    simpa using owner
  · simp [same]

theorem Inv.invokeScheduler {s s' : ThreadTable} (inv : s.Inv) (contexts : s.Contexts)
    {cpu iRip : Nat} (done : s.invokeScheduler cpu iRip = .ok s') : s'.Inv := by
  rcases invokeScheduler_ok contexts inv.scheduled.ids (inv.scheduled.active cpu) done with
    rfl | ⟨i, switch⟩ | ⟨-, rfl⟩
  · exact inv
  · exact ⟨inv.scheduled.switch switch, inv.owned.congr switch.procs fun t => (switch.fields t).2.2.1⟩
  · refine ⟨inv.scheduled.turnIdle cpu, inv.owned.congr rfl fun t => ?_⟩
    by_cases idle : t = idleThread
    · subst idle
      simp [schedule]
    · simp [schedule, idle]

theorem Inv.startProcess {s : ThreadTable} (inv : s.Inv) {p t : Nat} (iRip : Nat)
    (process : s.findFreeProcess = some p) (thread : s.findFreeThread = some t) :
    (s.startProcess p t iRip).Inv := by
  obtain ⟨inside, slot⟩ := findFreeThread_some thread
  exact ⟨startProcess_scheduled inv.scheduled p iRip inside slot,
    startProcess_owned inv.owned iRip (findFreeProcess_some process).2⟩

theorem Inv.wakeup {s : ThreadTable} (inv : s.Inv) (channel : Channel) : (s.wakeup channel).Inv := by
  refine ⟨inv.scheduled.congr (wakeup_current s channel) (fun cpu t isCurrent notIdle => ?_)
    fun t => .inl (wakeup_fields s channel t).2.1,
    inv.owned.congr (wakeup_procs s channel) fun t => (wakeup_fields s channel t).2.2⟩
  rw [(wakeup_fields s channel t).1]
  exact inv.scheduled.active cpu t isCurrent notIdle

theorem Inv.startThread {s : ThreadTable} (inv : s.Inv) {t : Nat} (iRip : Nat)
    (thread : s.findFreeThread = some t) : (s.startThread t iRip).Inv := by
  obtain ⟨inside, slot⟩ := findFreeThread_some thread
  refine ⟨inv.scheduled.startThread iRip inside slot, inv.owned.congr rfl fun u => ?_⟩
  by_cases same : u = t
  · subst same
    simp [ThreadTable.startThread]
  · simp [ThreadTable.startThread, same]

theorem createKernelThread_ok {s s' : ThreadTable} {t entry : Nat}
    (thread : s.findFreeThread = some t) (done : s.createKernelThread entry = .ok s') :
    s' = s.startThread t entry := by
  rw [createKernelThread, thread] at done
  cases done
  rfl

theorem Inv.createKernelThread {s s' : ThreadTable} (inv : s.Inv) {entry : Nat}
    (done : s.createKernelThread entry = .ok s') : s'.Inv := by
  cases found : s.findFreeThread with
  | none =>
    rw [ThreadTable.createKernelThread, found] at done
    cases done
  | some t =>
    rw [createKernelThread_ok found done]
    exact inv.startThread entry found

theorem Inv.createUserProcess {s : ThreadTable} (inv : s.Inv) (iRip : Nat) :
    (s.createUserProcess iRip).Inv := by
  rw [ThreadTable.createUserProcess]
  split
  · next process thread => exact inv.startProcess iRip process thread
  · exact inv

theorem Inv.forkUserProcess {s : ThreadTable} (inv : s.Inv) (old iRip : Nat) :
    (s.forkUserProcess old iRip).Inv := by
  rw [ThreadTable.forkUserProcess]
  split
  · next process thread _ => exact inv.startProcess iRip process thread
  · exact inv

theorem Inv.exitThread {s : ThreadTable} (inv : s.Inv) {cpu t : Nat}
    (isCurrent : s.current cpu = some t) : (s.exitThread cpu t).Inv :=
  ⟨inv.scheduled.leave isCurrent rfl (fun _ _ => rfl) fun _ => rfl, inv.owned.leave cpu t⟩

theorem Inv.sleepSetStatus {s : ThreadTable} (inv : s.Inv) (t : Nat) : (s.sleepSetStatus t).Inv := by
  rw [ThreadTable.sleepSetStatus, setStatus]
  exact inv.modifyThread (.inr rfl) rfl rfl

theorem Inv.step {s s' : ThreadTable} (inv : s.Inv) (contexts : s.Contexts) (moved : Step s s') :
    s'.Inv := by
  cases moved with
  | invokeScheduler done => exact inv.invokeScheduler contexts done
  | sleepSetChannel => exact inv.modifyThread (.inl rfl) rfl rfl
  | sleepSetStatus => exact inv.sleepSetStatus _
  | sleepSetCanWakeup => exact inv.modifyThread (.inl rfl) rfl rfl
  | sleepClearChannel => exact inv.modifyThread (.inl rfl) rfl rfl
  | wakeup channel => exact inv.wakeup channel
  | createKernelThread done => exact inv.createKernelThread done
  | createUserProcess iRip => exact inv.createUserProcess iRip
  | forkUserProcess iRip => exact inv.forkUserProcess _ iRip
  | execUserProcess => exact ⟨inv.scheduled.exec inv.owned _, inv.owned.exec _⟩
  | syshandlerExit isCurrent => exact inv.exit isCurrent
  | exitThread isCurrent => exact inv.exitThread isCurrent

theorem Inv.boot (idleEntry : Nat) : (boot idleEntry).Inv := by
  have only : ∀ cpu t, (ThreadTable.boot idleEntry).current cpu = some t → cpu = 0 ∧ t = 0 := by
    intro cpu t isCurrent
    by_cases first : cpu = 0
    · subst first
      exact ⟨rfl, by simpa [ThreadTable.boot] using isCurrent.symm⟩
    · simp [ThreadTable.boot, first] at isCurrent
  have nobody : ∀ t, ((ThreadTable.boot idleEntry).threads t).ownerProc = none := by
    intro t
    by_cases first : t = 0
    · simp [ThreadTable.boot, first]
    · by_cases idle : t = idleThread
      · subst idle
        rfl
      · simp [ThreadTable.boot, first, idle]
  refine ⟨⟨fun cpu t isCurrent _ => ?_, fun c d t first second _ => ?_, fun t => ?_⟩,
    ⟨fun _ => 0, fun t p owns => ?_, fun p t listed => ?_⟩, fun p _ => ⟨rfl, fun t owns => ?_⟩⟩
  · rw [(only cpu t isCurrent).2]
    exact .inl rfl
  · rw [(only c t first).1, (only d t second).1]
  · by_cases first : t = 0
    · simp [ThreadTable.boot, first]
    · by_cases idle : t = idleThread
      · subst idle
        exact .inl (Nat.le_refl _)
      · simp [ThreadTable.boot, first, idle]
  · rw [nobody t] at owns
    cases owns
  · exact absurd listed List.not_mem_nil
  · rw [nobody t] at owns
    cases owns

theorem Inv.of_reachable {s : ThreadTable}
    (reached : Reachable (fun s => ∃ idleEntry, s = ThreadTable.boot idleEntry ∧ s.Contexts)
      ContextStep s) : s.Inv := by
  have both : s.Inv ∧ s.Contexts := by
    refine reached.invariant (P := fun s => s.Inv ∧ s.Contexts) ?_ ?_
    · rintro s ⟨idleEntry, rfl, contexts⟩
      exact ⟨Inv.boot idleEntry, contexts⟩
    · rintro s s' ⟨inv, contexts⟩ ⟨moved, contexts'⟩
      exact ⟨inv.step contexts moved, contexts'⟩
  exact both.1

/-- No thread but the idle thread is current on two CPUs, and none of these is ready,
waiting to be woken, or killed while it is current. -/
theorem scheduler_exclusive {s : ThreadTable}
    (reached : Reachable (fun s => ∃ idleEntry, s = boot idleEntry ∧ s.Contexts) ContextStep s) :
    ∀ t, t ≠ idleThread →
      (∀ cpu cpu', s.current cpu = some t → s.current cpu' = some t → cpu = cpu') ∧
      (s.status t = .ready ∨ s.status t = .wakeupReady ∨ s.status t = .killed →
        ∀ cpu, s.current cpu ≠ some t) := by
  have inv := Inv.of_reachable reached
  intro t notIdle
  refine ⟨fun cpu cpu' first second => inv.scheduled.exclusive cpu cpu' t first second notIdle, ?_⟩
  intro state cpu isCurrent
  rcases inv.scheduled.active cpu t isCurrent notIdle with running | sleeping
  · simp [running] at state
  · simp [sleeping] at state

theorem boot_contexts {idleEntry : Nat} (entry : idleEntry ≠ 0) : (boot idleEntry).Contexts := by
  intro t _ runnable
  by_cases first : t = 0
  · simp [boot, status, first] at runnable
  · by_cases idle : t = idleThread
    · subst idle
      exact entry
    · simp [boot, status, first, idle] at runnable

def idleOnSecondCpu : ThreadTable := (boot 1).schedule 1 idleThread .ready

theorem idleOnSecondCpu_reachable :
    Reachable (fun s => ∃ idleEntry, s = boot idleEntry ∧ s.Contexts) ContextStep
      idleOnSecondCpu := by
  have start : Reachable (fun s => ∃ idleEntry, s = boot idleEntry ∧ s.Contexts) ContextStep
      (boot 1) := .base ⟨1, rfl, boot_contexts (by decide)⟩
  have scanned : scan 1 none 0 ((boot 1).scanOrder none) (boot 1) = .ok (false, boot 1) := by
    apply scan_none
    intro i inside
    have notIdle : i ≠ idleThread := Nat.ne_of_lt (List.mem_range.mp inside)
    by_cases first : i = 0
    · simp [Runnable, boot, status, first]
    · simp [Runnable, boot, status, first, notIdle]
  have turned : (boot 1).invokeScheduler 1 0 = .ok idleOnSecondCpu := by
    rw [invokeScheduler]
    exact Outcome.bind_ok.mpr ⟨_, scanned, rfl⟩
  refine start.next ⟨.invokeScheduler turned, fun t inside runnable => ?_⟩
  by_cases idle : t = idleThread
  · subst idle
    exact Nat.one_ne_zero
  · have same : idleOnSecondCpu.threads t = (boot 1).threads t := by
      simp [idleOnSecondCpu, schedule, idle]
    rw [status, same] at runnable
    rw [same]
    exact boot_contexts Nat.one_ne_zero t inside runnable

theorem scheduler_exclusive_second_cpu :
    idleOnSecondCpu.current 0 = some 0 ∧
      (∀ cpu cpu', idleOnSecondCpu.current cpu = some 0 →
        idleOnSecondCpu.current cpu' = some 0 → cpu = cpu') ∧
      (idleOnSecondCpu.status 0 = .ready ∨ idleOnSecondCpu.status 0 = .wakeupReady ∨
          idleOnSecondCpu.status 0 = .killed →
        ∀ cpu, idleOnSecondCpu.current cpu ≠ some 0) :=
  ⟨rfl, scheduler_exclusive idleOnSecondCpu_reachable 0 (by decide)⟩

/-- The idle thread is current while it is ready. -/
theorem idle_thread_ready_and_current :
    ¬∀ s, Reachable (fun s => ∃ idleEntry, s = boot idleEntry ∧ s.Contexts) ContextStep s →
      (∀ t, t ≠ idleThread →
        ∀ cpu cpu', s.current cpu = some t → s.current cpu' = some t → cpu = cpu') ∧
      ∀ t, s.status t = .ready ∨ s.status t = .wakeupReady ∨ s.status t = .killed →
        ∀ cpu, s.current cpu ≠ some t := by
  intro exclusive
  exact (exclusive idleOnSecondCpu idleOnSecondCpu_reachable).2 idleThread
    (.inl (by simp [idleOnSecondCpu, schedule, status])) 1 (by simp [idleOnSecondCpu, schedule])

end SwagOS.Kernel.ThreadTable
