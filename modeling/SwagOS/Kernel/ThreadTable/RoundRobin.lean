import SwagOS.Kernel.ThreadTable.Lemmas

/-!
# Round robin

`InvokeScheduler` goes through the table in two loops, from behind the old thread to its end
and from its start to the old thread, and takes the first thread that can run.  A CPU without a
thread goes through the whole table and falls back on the idle thread.
-/

namespace SwagOS.Kernel.ThreadTable

open SwagOS.Lib

/-- `k + 1, ..., 299, 0, ..., k - 1` -/
def cyclicOrder (k : Nat) : List Nat :=
  List.range' (k + 1) (maxNumThreads - (k + 1)) ++ List.range k

/-- Thread `i` is the first of the list that can run. -/
def FirstRunnable (s : ThreadTable) (order : List Nat) (i : Nat) : Prop :=
  ∃ before after, order = before ++ i :: after ∧ s.Runnable i ∧ ∀ j ∈ before, ¬s.Runnable j

/-- CPU `cpu` has switched from its thread, interrupted at `iRip`, to thread `i`.  Of the old
thread the status and the saved context change, of the new one the status, and of no other
thread anything. -/
structure SwitchedTo (s s' : ThreadTable) (cpu iRip i : Nat) : Prop where
  current : s'.current = Function.update s.current cpu (some i)
  procs : s'.procs = s.procs
  chosen : s'.threads i = { s.threads i with status := .running }
  old : ∀ t, s.current cpu = some t → t ≠ idleThread →
    s'.threads t = { s.threads t with status := saved (s.status t), iRip := iRip }
  others : ∀ t, t ≠ i → s.current cpu ≠ some t ∨ t = idleThread → s'.threads t = s.threads t

/-- The current thread of the CPU has id `k`, and is running or about to sleep; or it is the
idle thread, which stays ready. -/
structure Interrupted (s : ThreadTable) (cpu t k : Nat) : Prop where
  current : s.current cpu = some t
  id : (s.threads t).id = k
  busy : t ≠ idleThread ∧ k < maxNumThreads ∧ (s.status t = .running ∨ s.status t = .sleeping) ∨
    t = idleThread ∧ k = maxNumThreads ∧ s.status t ≠ .killed

section Scan

variable {s : ThreadTable} {cpu iRip i : Nat}

def Busy (s : ThreadTable) (cpu : Nat) : Prop :=
  ∀ t, s.current cpu = some t → t ≠ idleThread → s.status t = .running ∨ s.status t = .sleeping

structure SavedOld (s s' : ThreadTable) (cpu iRip : Nat) : Prop where
  current : s'.current = s.current
  procs : s'.procs = s.procs
  old : ∀ t, s.current cpu = some t → t ≠ idleThread →
    s'.threads t = { s.threads t with status := saved (s.status t), iRip := iRip }
  others : ∀ t, s.current cpu ≠ some t ∨ t = idleThread → s'.threads t = s.threads t

theorem SavedOld.unchanged (free : ∀ t, s.current cpu = some t → t = idleThread) :
    SavedOld s s cpu iRip where
  current := rfl
  procs := rfl
  old t current notIdle := absurd (free t current) notIdle
  others _ _ := rfl

theorem Busy.saveThreadContext (busy : s.Busy cpu) (iRip : Nat) :
    ∃ s', s.saveThreadContext (s.current cpu) iRip = .ok s' ∧ SavedOld s s' cpu iRip := by
  cases old : s.current cpu with
  | none =>
    refine ⟨s, rfl, .unchanged ?_⟩
    intro t current
    rw [old] at current
    cases current
  | some u =>
    by_cases idle : u = idleThread
    · refine ⟨s, ?_, .unchanged ?_⟩
      · simp only [ThreadTable.saveThreadContext, idle, ↓reduceIte]
        rfl
      · intro t current
        rw [old] at current
        cases current
        exact idle
    · refine ⟨s.modifyThread u fun thread =>
        { thread with status := saved (s.status u), iRip := iRip }, ?_, rfl, rfl, ?_, ?_⟩
      · rcases busy u old idle with state | state
        · simp only [ThreadTable.saveThreadContext, idle, ↓reduceIte, state]
          rfl
        · simp only [ThreadTable.saveThreadContext, idle, ↓reduceIte, state]
          rfl
      · intro t current _
        rw [old] at current
        cases current
        simp
      · intro t other
        have different : t ≠ u := by
          rintro rfl
          rcases other with notCurrent | isIdle
          · exact notCurrent old
          · exact idle isIdle
        simp [different]

/-- The old thread is not the one that the scan comes to. -/
theorem Busy.different (busy : s.Busy cpu) (inside : i < maxNumThreads) (runnable : s.Runnable i)
    {t : Nat} (old : s.current cpu = some t) : t ≠ i := by
  rintro rfl
  have notIdle : t ≠ idleThread := Nat.ne_of_lt inside
  rcases busy t old notIdle with state | state
  · rcases runnable with ready | ⟨waking, -⟩
    · rw [state] at ready
      cases ready
    · rw [state] at waking
      cases waking
  · rcases runnable with ready | ⟨waking, -⟩
    · rw [state] at ready
      cases ready
    · rw [state] at waking
      cases waking

def promote (s : ThreadTable) (i : Nat) : ThreadTable :=
  if s.status i = .wakeupReady ∧ (s.threads i).canWakeup then s.setStatus i .ready else s

theorem promote_status (runnable : s.Runnable i) : (s.promote i).status i = .ready := by
  unfold promote
  rcases runnable with ready | waking
  · rw [if_neg (by rw [ready]; rintro ⟨⟨⟩, -⟩)]
    exact ready
  · rw [if_pos waking]
    simp [status]

theorem promote_rest : (s.promote i).current = s.current ∧ (s.promote i).procs = s.procs ∧
    ((s.promote i).threads i = { s.threads i with status := (s.promote i).status i }) ∧
    ∀ t, t ≠ i → (s.promote i).threads t = s.threads t := by
  unfold promote
  split
  · refine ⟨rfl, rfl, by simp [status], ?_⟩
    intro t different
    simp [different]
  · exact ⟨rfl, rfl, rfl, fun _ _ => rfl⟩

theorem scan_ready {old : Option Nat} (runnable : s.Runnable i) (rest : List Nat) :
    scan cpu old iRip (i :: rest) s = (do
      let s ← (s.promote i).saveThreadContext old iRip
      if (s.threads i).iRip = 0 then scan cpu old iRip rest s
      else pure (true, s.schedule cpu i .running)) := by
  rw [scan]
  exact if_neg (not_not.mpr (promote_status runnable))

theorem scan_takes (busy : s.Busy cpu) (inside : i < maxNumThreads) (runnable : s.Runnable i)
    (context : (s.threads i).iRip ≠ 0) (rest : List Nat) :
    ∃ s', scan cpu (s.current cpu) iRip (i :: rest) s = .ok (true, s') ∧
      SwitchedTo s s' cpu iRip i := by
  obtain ⟨sameCurrent, sameProcs, here, elsewhere⟩ := promote_rest (s := s) (i := i)
  have sameStatus {t : Nat} (different : t ≠ i) : (s.promote i).status t = s.status t := by
    rw [status, elsewhere t different]
    rfl
  have stillBusy : (s.promote i).Busy cpu := by
    intro t current notIdle
    rw [sameCurrent] at current
    rw [sameStatus (busy.different inside runnable current)]
    exact busy t current notIdle
  obtain ⟨s₁, save, savedOld⟩ := stillBusy.saveThreadContext iRip
  rw [sameCurrent] at save
  have chosen : s₁.threads i = (s.promote i).threads i := by
    apply savedOld.others
    rw [sameCurrent]
    by_cases idle : i = idleThread
    · exact .inr idle
    · exact .inl fun current => busy.different inside runnable current rfl
  have contextHere : (s₁.threads i).iRip ≠ 0 := by
    rw [chosen, here]
    exact context
  refine ⟨s₁.schedule cpu i .running, ?_, ?_, ?_, ?_, ?_, ?_⟩
  · rw [scan_ready runnable, save]
    exact if_neg contextHere
  · simp [schedule, savedOld.current, sameCurrent]
  · exact savedOld.procs.trans sameProcs
  · simp [schedule, chosen, here]
  · intro t current notIdle
    have different := busy.different inside runnable current
    have out := savedOld.old t (by rw [sameCurrent]; exact current) notIdle
    rw [sameStatus different, elsewhere t different] at out
    simp [schedule, different, out]
  · intro t different other
    have kept := savedOld.others t (by rw [sameCurrent]; exact other)
    rw [elsewhere t different] at kept
    simp [schedule, different, kept]

theorem scan_firstRunnable (iRip : Nat) (busy : s.Busy cpu) {order : List Nat}
    (inside : ∀ j ∈ order, j < maxNumThreads) (first : s.FirstRunnable order i)
    (context : (s.threads i).iRip ≠ 0) :
    ∃ s', scan cpu (s.current cpu) iRip order s = .ok (true, s') ∧
      SwitchedTo s s' cpu iRip i := by
  obtain ⟨before, after, rfl, runnable, none⟩ := first
  rw [scan_append none]
  exact scan_takes busy (inside i (by simp)) runnable context after

theorem invokeScheduler_takes (iRip : Nat) (busy : s.Busy cpu) {order : List Nat}
    (isOrder : s.scanOrder (s.current cpu) = order) (inside : ∀ j ∈ order, j < maxNumThreads)
    (first : s.FirstRunnable order i) (context : (s.threads i).iRip ≠ 0) :
    ∃ s', s.invokeScheduler cpu iRip = .ok s' ∧ SwitchedTo s s' cpu iRip i := by
  obtain ⟨s', scanned, switched⟩ := scan_firstRunnable iRip busy inside first context
  refine ⟨s', ?_, switched⟩
  unfold invokeScheduler
  simp only [isOrder, scanned, bind, Except.bind, ↓reduceIte]
  rfl

theorem FirstRunnable.mem {order : List Nat} (first : s.FirstRunnable order i) :
    i ∈ order ∧ s.Runnable i := by
  obtain ⟨before, after, rfl, runnable, -⟩ := first
  exact ⟨by simp, runnable⟩

end Scan

section Order

variable {s : ThreadTable} {cpu t k : Nat}

theorem mem_cyclicOrder {i : Nat} (known : k ≤ maxNumThreads) :
    i ∈ cyclicOrder k ↔ i < maxNumThreads ∧ i ≠ k := by
  rw [cyclicOrder, List.mem_append, List.mem_range'_1, List.mem_range]
  omega

theorem Interrupted.le (interrupted : s.Interrupted cpu t k) : k ≤ maxNumThreads := by
  rcases interrupted.busy with ⟨-, inside, -⟩ | ⟨-, same, -⟩
  · exact Nat.le_of_lt inside
  · exact Nat.le_of_eq same

theorem Interrupted.toBusy (interrupted : s.Interrupted cpu t k) : s.Busy cpu := by
  intro u current notIdle
  rw [interrupted.current] at current
  cases current
  rcases interrupted.busy with ⟨-, -, state⟩ | ⟨idle, -, -⟩
  · exact state
  · exact absurd idle notIdle

theorem Interrupted.order (interrupted : s.Interrupted cpu t k) :
    s.scanOrder (s.current cpu) = cyclicOrder k := by
  have inside : k ≠ 2 ^ 32 - 1 := by
    have := interrupted.le
    unfold maxNumThreads at this
    omega
  rw [interrupted.current]
  simp only [scanOrder, interrupted.id, if_neg inside]
  rfl

theorem Interrupted.alive (interrupted : s.Interrupted cpu t k) : s.status t ≠ .killed := by
  rcases interrupted.busy with ⟨-, -, state | state⟩ | ⟨-, -, alive⟩
  · rw [state]
    decide
  · rw [state]
    decide
  · exact alive

end Order

/-- For every table in which the threads that can run have a saved context: the scheduler
switches from the current thread to the first one after it in the cyclic order that can run, and
leaves the table as it was if there is none.  From no thread, it switches to the one of the
lowest index, and else to the idle thread. -/
theorem invokeScheduler_roundRobin {s : ThreadTable} {cpu iRip : Nat}
    (contexts : ∀ i < maxNumThreads, s.Runnable i → (s.threads i).iRip ≠ 0)
    (idleContext : (s.threads idleThread).iRip ≠ 0) :
    (∀ t k, s.Interrupted cpu t k →
      (∀ i, s.FirstRunnable (cyclicOrder k) i →
        ∃ s', s.invokeScheduler cpu iRip = .ok s' ∧ SwitchedTo s s' cpu iRip i) ∧
      ((∀ i < maxNumThreads, i ≠ k → ¬s.Runnable i) → s.invokeScheduler cpu iRip = .ok s)) ∧
    (s.current cpu = none →
      (∀ i < maxNumThreads, s.Runnable i → (∀ j < i, ¬s.Runnable j) →
        ∃ s', s.invokeScheduler cpu iRip = .ok s' ∧ SwitchedTo s s' cpu iRip i) ∧
      ((∀ i < maxNumThreads, ¬s.Runnable i) →
        s.invokeScheduler cpu iRip = .ok (s.schedule cpu idleThread .ready))) := by
  constructor
  · intro t k interrupted
    constructor
    · intro i first
      have inside : ∀ j ∈ cyclicOrder k, j < maxNumThreads := by
        intro j member
        exact ((mem_cyclicOrder interrupted.le).mp member).1
      obtain ⟨member, runnable⟩ := first.mem
      exact invokeScheduler_takes iRip interrupted.toBusy interrupted.order inside first
        (contexts i (inside i member) runnable)
    · intro none
      have nowhere : ∀ i ∈ cyclicOrder k, ¬s.Runnable i := by
        intro i member
        obtain ⟨inside, other⟩ := (mem_cyclicOrder interrupted.le).mp member
        exact none i inside other
      unfold invokeScheduler
      simp only [interrupted.order, scan_none nowhere, bind, Except.bind, Bool.false_eq_true,
        ↓reduceIte]
      rw [interrupted.current]
      exact if_neg interrupted.alive
  · intro noThread
    have order : s.scanOrder (s.current cpu) = List.range maxNumThreads := by
      rw [noThread]
      rfl
    constructor
    · intro i inside runnable lowest
      have busy : s.Busy cpu := by
        intro t current
        rw [noThread] at current
        cases current
      refine invokeScheduler_takes iRip busy order (fun j member => List.mem_range.mp member) ?_
        (contexts i inside runnable)
      refine ⟨List.range i, List.range' (i + 1) (maxNumThreads - (i + 1)), ?_, runnable, ?_⟩
      · rw [← List.range'_succ, List.range_eq_range', List.range_eq_range']
        have whole : i + (maxNumThreads - (i + 1) + 1) = maxNumThreads := by omega
        have split := List.range'_append_1 (s := 0) (m := i) (n := maxNumThreads - (i + 1) + 1)
        rw [Nat.zero_add, whole] at split
        exact split.symm
      · intro j member
        exact lowest j (List.mem_range.mp member)
    · intro none
      have nowhere : ∀ i ∈ List.range maxNumThreads, ¬s.Runnable i := by
        intro i member
        exact none i (List.mem_range.mp member)
      unfold invokeScheduler
      simp only [order, scan_none nowhere, bind, Except.bind, Bool.false_eq_true, ↓reduceIte]
      rw [noThread]
      exact if_neg idleContext

def threeThreads : ThreadTable where
  threads t :=
    { canWakeup := true
      status :=
        if t = 5 then .running
        else if t = 7 then .wakeupReady
        else if t = 2 ∨ t = idleThread then .ready
        else .notInitialized
      id := t
      iRip := 0x1000
      ownerProc := none
      sleepChannel := none }
  procs _ := { threads := [], threadCount := 0, state := .free }
  current _ := some 5

theorem invokeScheduler_roundRobin_threeThreads : ∃ s',
    threeThreads.invokeScheduler 0 0x2000 = .ok s' ∧ SwitchedTo threeThreads s' 0 0x2000 7 := by
  have interrupted : threeThreads.Interrupted 0 5 5 := ⟨rfl, rfl, .inl (by decide)⟩
  have context (i : Nat) : (threeThreads.threads i).iRip ≠ 0 := by
    change 0x1000 ≠ 0
    decide
  refine ((invokeScheduler_roundRobin (fun i _ _ => context i) (context _)).1 5 5 interrupted).1 7 ?_
  exact ⟨[6], List.range' 8 292 ++ List.range 5, rfl, by decide, by decide⟩

end SwagOS.Kernel.ThreadTable
