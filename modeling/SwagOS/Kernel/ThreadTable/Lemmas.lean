import SwagOS.Kernel.ThreadTable

/-!
# What the sections of the thread table change

One lemma for each function that loops over threads, and the inversion of
`InvokeScheduler`: it leaves the table alone, switches to another thread, or puts the
idle thread on a CPU that has none.
-/

namespace SwagOS.Kernel.ThreadTable

open SwagOS.Lib

section Fields

variable (s : ThreadTable) (t p cpu : Nat) (write : Thread → Thread)
  (writeProc : Process → Process) (state : ThreadState) (next : Option Nat)

@[simp] theorem modifyThread_threads : (s.modifyThread t write).threads =
    Function.update s.threads t (write (s.threads t)) := rfl
@[simp] theorem modifyThread_procs : (s.modifyThread t write).procs = s.procs := rfl
@[simp] theorem modifyThread_current : (s.modifyThread t write).current = s.current := rfl
@[simp] theorem modifyProc_threads : (s.modifyProc p writeProc).threads = s.threads := rfl
@[simp] theorem modifyProc_procs : (s.modifyProc p writeProc).procs =
    Function.update s.procs p (writeProc (s.procs p)) := rfl
@[simp] theorem modifyProc_current : (s.modifyProc p writeProc).current = s.current := rfl
@[simp] theorem setCurrent_threads : (s.setCurrent cpu next).threads = s.threads := rfl
@[simp] theorem setCurrent_procs : (s.setCurrent cpu next).procs = s.procs := rfl
@[simp] theorem setCurrent_current : (s.setCurrent cpu next).current =
    Function.update s.current cpu next := rfl
@[simp] theorem setStatus_threads : (s.setStatus t state).threads =
    Function.update s.threads t { s.threads t with status := state } := rfl
@[simp] theorem setStatus_procs : (s.setStatus t state).procs = s.procs := rfl
@[simp] theorem setStatus_current : (s.setStatus t state).current = s.current := rfl

end Fields

theorem wakeThread_threads (s : ThreadTable) (channel : Channel) (t u : Nat) :
    (s.wakeThread channel t).threads u =
      if u = t ∧ s.Sleeps channel u then { s.threads u with canWakeup := true }
      else s.threads u := by
  rw [wakeThread]
  by_cases same : u = t
  · subst same
    by_cases sleeps : s.Sleeps channel u
    · simp [sleeps]
    · simp [sleeps]
  · by_cases sleeps : s.Sleeps channel t
    · simp [sleeps, same]
    · simp [sleeps, same]

theorem wakeThread_sleeps (s : ThreadTable) (channel : Channel) (t u : Nat) :
    (s.wakeThread channel t).Sleeps channel u ↔ s.Sleeps channel u := by
  have same : ((s.wakeThread channel t).threads u).status = (s.threads u).status ∧
      ((s.wakeThread channel t).threads u).sleepChannel = (s.threads u).sleepChannel := by
    rw [wakeThread_threads]
    split <;> exact ⟨rfl, rfl⟩
  rw [Sleeps, Sleeps, status, status, same.1, same.2]

theorem foldl_wakeThread_threads (channel : Channel) (u : Nat) (l : List Nat) (s : ThreadTable) :
    (l.foldl (fun s t => s.wakeThread channel t) s).threads u =
      if u ∈ l ∧ s.Sleeps channel u then { s.threads u with canWakeup := true }
      else s.threads u := by
  induction l generalizing s with
  | nil => simp
  | cons t rest inductionHypothesis =>
    rw [List.foldl_cons, inductionHypothesis, wakeThread_threads]
    by_cases sleeps : s.Sleeps channel u
    · have still := (wakeThread_sleeps s channel t u).mpr sleeps
      by_cases same : u = t
      · subst same
        by_cases later : u ∈ rest
        · simp [sleeps, still, later]
        · simp [sleeps, later]
      · simp [sleeps, still, same]
    · have still : ¬(s.wakeThread channel t).Sleeps channel u :=
        fun now => sleeps ((wakeThread_sleeps s channel t u).mp now)
      simp [sleeps, still]

theorem wakeup_threads (s : ThreadTable) (channel : Channel) (u : Nat) :
    (s.wakeup channel).threads u =
      if u < maxNumThreads ∧ s.Sleeps channel u then { s.threads u with canWakeup := true }
      else s.threads u := by
  rw [wakeup, foldl_wakeThread_threads]
  simp

theorem foldl_wakeThread_rest (channel : Channel) (l : List Nat) (s : ThreadTable) :
    (l.foldl (fun s t => s.wakeThread channel t) s).procs = s.procs ∧
      (l.foldl (fun s t => s.wakeThread channel t) s).current = s.current := by
  induction l generalizing s with
  | nil => exact ⟨rfl, rfl⟩
  | cons t rest inductionHypothesis =>
    have kept : (s.wakeThread channel t).procs = s.procs ∧
        (s.wakeThread channel t).current = s.current := by
      rw [wakeThread]
      split <;> exact ⟨rfl, rfl⟩
    rw [List.foldl_cons]
    exact ⟨(inductionHypothesis _).1.trans kept.1, (inductionHypothesis _).2.trans kept.2⟩

@[simp] theorem wakeup_procs (s : ThreadTable) (channel : Channel) :
    (s.wakeup channel).procs = s.procs := (foldl_wakeThread_rest channel _ s).1

@[simp] theorem wakeup_current (s : ThreadTable) (channel : Channel) :
    (s.wakeup channel).current = s.current := (foldl_wakeThread_rest channel _ s).2

theorem foldl_kill_threads (u : Nat) (l : List Nat) (s : ThreadTable) :
    (l.foldl (fun s t => s.setStatus t .killed) s).threads u =
      if u ∈ l then { s.threads u with status := .killed } else s.threads u := by
  induction l generalizing s with
  | nil => simp
  | cons t rest inductionHypothesis =>
    rw [List.foldl_cons, inductionHypothesis]
    by_cases same : u = t
    · subst same
      by_cases later : u ∈ rest
      · simp [later]
      · simp [later]
    · simp [same]

theorem foldl_kill_rest (l : List Nat) (s : ThreadTable) :
    (l.foldl (fun s t => s.setStatus t .killed) s).procs = s.procs ∧
      (l.foldl (fun s t => s.setStatus t .killed) s).current = s.current := by
  induction l generalizing s with
  | nil => exact ⟨rfl, rfl⟩
  | cons t rest inductionHypothesis =>
    rw [List.foldl_cons]
    exact inductionHypothesis (s.setStatus t .killed)

theorem processFreeThreads_threads (s : ThreadTable) (p u : Nat) :
    (s.processFreeThreads p).threads u =
      if u ∈ (s.procs p).threads then { s.threads u with status := .killed }
      else s.threads u := foldl_kill_threads u _ s

@[simp] theorem processFreeThreads_procs (s : ThreadTable) (p : Nat) :
    (s.processFreeThreads p).procs = Function.update s.procs p
      { s.procs p with threads := [], threadCount := 0 } := by
  simp [processFreeThreads, foldl_kill_rest]

@[simp] theorem processFreeThreads_current (s : ThreadTable) (p : Nat) :
    (s.processFreeThreads p).current = s.current := by
  simp [processFreeThreads, foldl_kill_rest]

theorem startProcess_state (s : ThreadTable) (p t iRip q : Nat) :
    ((s.startProcess p t iRip).procs q).state =
      if q = p then .inuse else (s.procs q).state := by
  by_cases same : q = p
  · subst same
    simp [startProcess]
  · simp [startProcess, startThread, same]

theorem execUserProcess_state {s : ThreadTable} {t p : Nat}
    (owner : (s.threads t).ownerProc = some p) (q : Nat) :
    ((s.execUserProcess t).procs q).state = if q = p then .inuse else (s.procs q).state := by
  by_cases same : q = p
  · subst same
    simp [execUserProcess, owner]
  · simp [execUserProcess, owner, same]

theorem syshandlerExit_state {s : ThreadTable} {t p : Nat} (cpu : Nat)
    (owner : (s.threads t).ownerProc = some p) (q : Nat) :
    ((s.syshandlerExit cpu t).procs q).state =
      if q = p ∧ ((s.procs p).threadCount + (2 ^ 32 - 1)) % 2 ^ 32 = 0 then .exited
      else (s.procs q).state := by
  have leave_procs : ∀ table : ThreadTable, (table.leave cpu t).procs = table.procs :=
    fun _ => rfl
  have left : ((s.modifyProc p fun proc =>
      { proc with threadCount := (proc.threadCount + (2 ^ 32 - 1)) % 2 ^ 32 }).procs p).threadCount =
      ((s.procs p).threadCount + (2 ^ 32 - 1)) % 2 ^ 32 := by
    rw [modifyProc_procs, Function.update_self]
  simp only [syshandlerExit, owner]
  by_cases last : ((s.procs p).threadCount + (2 ^ 32 - 1)) % 2 ^ 32 = 0
  · rw [if_pos (left.trans last), leave_procs, wakeup_procs, modifyProc_procs,
      processFreeThreads_procs, modifyProc_procs]
    by_cases same : q = p
    · rw [if_pos ⟨same, last⟩, same, Function.update_self]
    · rw [if_neg fun both => same both.1]
      simp only [Function.update_of_ne same]
  · rw [if_neg fun none => last (left.symm.trans none), leave_procs, modifyProc_procs,
      if_neg fun both => last both.2]
    by_cases same : q = p
    · rw [same, Function.update_self]
    · rw [Function.update_of_ne same]

theorem findFreeThread_some {s : ThreadTable} {t : Nat} (found : s.findFreeThread = some t) :
    t < maxNumThreads ∧ (s.status t = .notInitialized ∨ s.status t = .killed) := by
  have inside := List.mem_of_find?_eq_some found
  have free := List.find?_some found
  exact ⟨List.mem_range.mp inside, by simpa using free⟩

theorem findFreeProcess_some {s : ThreadTable} {p : Nat} (found : s.findFreeProcess = some p) :
    p < maxNumProc ∧ (s.procs p).state = .free := by
  have inside := List.mem_of_find?_eq_some found
  have free := List.find?_some found
  exact ⟨List.mem_range.mp inside, by simpa using free⟩

def Contexts (s : ThreadTable) : Prop :=
  ∀ t ≤ idleThread, s.status t = .ready ∨ s.status t = .wakeupReady → (s.threads t).iRip ≠ 0

def saved : ThreadState → ThreadState
  | .sleeping => .wakeupReady
  | .running => .ready
  | state => state

/-- CPU `cpu` has switched from its thread, interrupted at `iRip`, to thread `i`. -/
structure Switch (s s' : ThreadTable) (cpu iRip i : Nat) : Prop where
  inside : i < maxNumThreads
  runnable : s.status i = .ready ∨ s.status i = .wakeupReady ∧ (s.threads i).canWakeup = true
  current : s'.current = Function.update s.current cpu (some i)
  procs : s'.procs = s.procs
  running : s'.status i = .running
  out : ∀ t, t ≠ i → s.current cpu = some t → t ≠ idleThread →
    s'.status t = saved (s.status t) ∧ (s.status t ≠ .killed → (s'.threads t).iRip = iRip)
  others : ∀ t, t ≠ i → s.current cpu ≠ some t ∨ t = idleThread → s'.threads t = s.threads t
  /-- No other field than the status and the context changes. -/
  fields : ∀ t, (s'.threads t).canWakeup = (s.threads t).canWakeup ∧
    (s'.threads t).id = (s.threads t).id ∧
    (s'.threads t).ownerProc = (s.threads t).ownerProc ∧
    (s'.threads t).sleepChannel = (s.threads t).sleepChannel

/-- The context of the thread `old` of a CPU was saved. -/
structure Saved (s s' : ThreadTable) (old : Option Nat) (iRip : Nat) : Prop where
  current : s'.current = s.current
  procs : s'.procs = s.procs
  out : ∀ t, old = some t → t ≠ idleThread →
    s'.status t = saved (s.status t) ∧ (s.status t ≠ .killed → (s'.threads t).iRip = iRip)
  others : ∀ t, old ≠ some t ∨ t = idleThread → s'.threads t = s.threads t
  fields : ∀ t, (s'.threads t).canWakeup = (s.threads t).canWakeup ∧
    (s'.threads t).id = (s.threads t).id ∧
    (s'.threads t).ownerProc = (s.threads t).ownerProc ∧
    (s'.threads t).sleepChannel = (s.threads t).sleepChannel

theorem Saved.unchanged {s : ThreadTable} {old : Option Nat} {iRip : Nat}
    (killed : ∀ t, old = some t → t ≠ idleThread → s.status t = .killed) :
    Saved s s old iRip where
  current := rfl
  procs := rfl
  out := by
    intro t isOld other
    rw [killed t isOld other]
    exact ⟨rfl, fun alive => absurd rfl alive⟩
  others := fun _ _ => rfl
  fields := fun _ => ⟨rfl, rfl, rfl, rfl⟩

theorem Saved.write {s : ThreadTable} {u : Nat} {state : ThreadState} (notIdle : u ≠ idleThread)
    (isSaved : saved (s.status u) = state) (iRip : Nat) :
    Saved s (s.modifyThread u fun thread => { thread with status := state, iRip := iRip })
      (some u) iRip where
  current := rfl
  procs := rfl
  out := by
    rintro t ⟨⟩ -
    rw [isSaved]
    simp [status]
  others := by
    rintro t other
    have different : t ≠ u := by
      rintro rfl
      rcases other with other | other
      · exact other rfl
      · exact notIdle other
    simp [different]
  fields := by
    intro t
    by_cases same : t = u
    · subst same
      simp
    · simp [same]

theorem saveThreadContext_ok {s s' : ThreadTable} {old : Option Nat} {iRip : Nat}
    (done : s.saveThreadContext old iRip = .ok s') : Saved s s' old iRip := by
  cases old with
  | none =>
    cases done
    exact .unchanged fun t isOld => by cases isOld
  | some u =>
    rw [saveThreadContext] at done
    by_cases idle : u = idleThread
    · simp only [idle, ↓reduceIte] at done
      cases done
      refine .unchanged fun t isOld other => ?_
      cases isOld
      exact absurd idle other
    · simp only [idle, ↓reduceIte] at done
      cases state : s.status u with
      | killed =>
        simp only [state] at done
        cases done
        refine .unchanged fun t isOld _ => ?_
        cases isOld
        exact state
      | sleeping =>
        simp only [state] at done
        cases done
        exact .write idle (by rw [state]; rfl) iRip
      | running =>
        simp only [state] at done
        cases done
        exact .write idle (by rw [state]; rfl) iRip
      | _ =>
        simp only [state] at done
        cases done

theorem scan_ok {s s' : ThreadTable} {cpu iRip : Nat} {order : List Nat} {switched : Bool}
    (contexts : s.Contexts) (inside : ∀ i ∈ order, i < maxNumThreads)
    (busy : ∀ t, s.current cpu = some t → t ≠ idleThread →
      s.status t ≠ .ready ∧ s.status t ≠ .wakeupReady)
    (done : scan cpu (s.current cpu) iRip order s = .ok (switched, s')) :
    (switched = false ∧ s' = s) ∨ (switched = true ∧ ∃ i, Switch s s' cpu iRip i) := by
  induction order with
  | nil =>
    cases done
    exact .inl ⟨rfl, rfl⟩
  | cons i rest inductionHypothesis =>
    have below := inside i List.mem_cons_self
    rw [scan] at done
    by_cases runnable :
        s.status i = .ready ∨ s.status i = .wakeupReady ∧ (s.threads i).canWakeup = true
    · -- This thread is taken: the loop flips it to ready first if it has to.
      obtain ⟨s₁, flipped, ready, same⟩ : ∃ s₁ : ThreadTable,
          (if s.status i = .wakeupReady ∧ (s.threads i).canWakeup = true
            then s.setStatus i .ready else s) = s₁ ∧
          s₁.threads i = { s.threads i with status := .ready } ∧
          s₁.current = s.current ∧ s₁.procs = s.procs ∧
          ∀ t, t ≠ i → s₁.threads t = s.threads t := by
        rcases runnable with ready | waking
        · have still : ¬(s.status i = .wakeupReady ∧ (s.threads i).canWakeup = true) := by
            simp [ready]
          refine ⟨s, if_neg still, ?_, rfl, rfl, fun t _ => rfl⟩
          rw [← ready]
          rfl
        · exact ⟨_, if_pos waking, by simp, rfl, rfl, fun t other => by simp [other]⟩
      obtain ⟨current, procs, others⟩ := same
      have isReady : s₁.status i = .ready := by
        rw [status, ready]
      simp only [flipped, isReady, ne_eq, not_true_eq_false, ↓reduceIte] at done
      obtain ⟨s₂, save, done⟩ := Outcome.bind_ok.mp done
      obtain ⟨current₂, procs₂, out, others₂, fields⟩ := saveThreadContext_ok save
      have notOld : s.current cpu ≠ some i ∨ i = idleThread := by
        left
        intro old
        have := busy i old (Nat.ne_of_lt below)
        rcases runnable with ready | waking
        · exact this.1 ready
        · exact this.2 waking.1
      have context : (s₂.threads i).iRip ≠ 0 := by
        rw [others₂ i notOld, ready]
        apply contexts i (Nat.le_of_lt below)
        rcases runnable with ready | waking
        · exact .inl ready
        · exact .inr waking.1
      rw [if_neg context] at done
      cases done
      refine .inr ⟨rfl, i, below, runnable, ?_, ?_, ?_, fun t other old notIdle => ?_,
        fun t other elsewhere => ?_, fun t => ?_⟩
      · simp [schedule, current₂, current]
      · simp [schedule, procs₂, procs]
      · simp [schedule, status]
      · have := out t old notIdle
        rw [status, status, others t other] at this
        simpa [schedule, status, other] using this
      · have := others₂ t elsewhere
        rw [others t other] at this
        simpa [schedule, other] using this
      · by_cases same : t = i
        · subst same
          simpa [schedule, ready] using fields t
        · simpa [schedule, same, others t same] using fields t
    · -- This thread is passed over.
      have notFlipped : ¬(s.status i = .wakeupReady ∧ (s.threads i).canWakeup = true) :=
        fun waking => runnable (.inr waking)
      have notReady : s.status i ≠ .ready := fun ready => runnable (.inl ready)
      simp only [notFlipped, ↓reduceIte, ne_eq, notReady, not_false_eq_true] at done
      exact inductionHypothesis (fun j later => inside j (List.mem_cons_of_mem i later)) done

def Runnable (s : ThreadTable) (i : Nat) : Prop :=
  s.status i = .ready ∨ s.status i = .wakeupReady ∧ (s.threads i).canWakeup = true

instance (s : ThreadTable) (i : Nat) : Decidable (s.Runnable i) :=
  inferInstanceAs (Decidable (_ ∨ _))

/-- The loops of the scheduler skip what is not runnable. -/
theorem scan_append {s : ThreadTable} {cpu iRip : Nat} {old : Option Nat} {order : List Nat}
    (none : ∀ i ∈ order, ¬s.Runnable i) (rest : List Nat) :
    scan cpu old iRip (order ++ rest) s = scan cpu old iRip rest s := by
  induction order with
  | nil => rfl
  | cons i order inductionHypothesis =>
    have notRunnable := none i List.mem_cons_self
    have notReady : s.status i ≠ .ready := fun ready => notRunnable (.inl ready)
    have notWaking : ¬(s.status i = .wakeupReady ∧ (s.threads i).canWakeup = true) :=
      fun waking => notRunnable (.inr waking)
    rw [List.cons_append, scan]
    simp only [notWaking, ↓reduceIte, ne_eq, notReady, not_false_eq_true]
    exact inductionHypothesis fun j later => none j (List.mem_cons_of_mem i later)

/-- A loop that finds no runnable thread runs to its end. -/
theorem scan_none {s : ThreadTable} {cpu iRip : Nat} {old : Option Nat} {order : List Nat}
    (none : ∀ i ∈ order, ¬s.Runnable i) :
    scan cpu old iRip order s = .ok (false, s) := by
  have skipped := @scan_append s cpu iRip old order none []
  rw [List.append_nil] at skipped
  exact skipped

/-- What `InvokeScheduler` does when its threads have contexts. -/
theorem invokeScheduler_ok {s s' : ThreadTable} {cpu iRip : Nat} (contexts : s.Contexts)
    (ids : ∀ t, (s.threads t).id ≤ maxNumThreads ∨ (s.threads t).id = 2 ^ 32 - 1)
    (busy : ∀ t, s.current cpu = some t → t ≠ idleThread →
      s.status t = .running ∨ s.status t = .sleeping)
    (done : s.invokeScheduler cpu iRip = .ok s') :
    s' = s ∨ (∃ i, Switch s s' cpu iRip i) ∨
      ((s.threads idleThread).iRip ≠ 0 ∧ s' = s.schedule cpu idleThread .ready) := by
  have inside : ∀ i ∈ s.scanOrder (s.current cpu), i < maxNumThreads := by
    intro i visited
    cases old : s.current cpu with
    | none =>
      rw [old] at visited
      exact List.mem_range.mp visited
    | some t =>
      rw [old, scanOrder, List.mem_append, List.mem_range'_1, List.mem_range] at visited
      have := ids t
      split at visited <;> omega
  have notReady : ∀ t, s.current cpu = some t → t ≠ idleThread →
      s.status t ≠ .ready ∧ s.status t ≠ .wakeupReady := by
    intro t old notIdle
    rcases busy t old notIdle with state | state <;> simp [state]
  rw [invokeScheduler] at done
  obtain ⟨⟨switched, s₁⟩, scanned, done⟩ := Outcome.bind_ok.mp done
  rcases scan_ok contexts inside notReady scanned with ⟨rfl, rfl⟩ | ⟨rfl, switch⟩
  · simp only [Bool.false_eq_true, ↓reduceIte] at done
    cases old : s₁.current cpu with
    | none =>
      rw [old] at done
      by_cases empty : (s₁.threads idleThread).iRip = 0
      · simp only [empty, ↓reduceIte] at done
        cases done
      · simp only [empty, ↓reduceIte] at done
        cases done
        exact .inr (.inr ⟨empty, rfl⟩)
    | some t =>
      rw [old] at done
      by_cases killed : s₁.status t = .killed
      · -- Only the idle thread may be current and killed, and its context is not saved.
        obtain rfl : t = idleThread := by
          by_contra notIdle
          rcases busy t old notIdle with state | state
          · rw [state] at killed
            cases killed
          · rw [state] at killed
            cases killed
        simp only [killed, ↓reduceIte] at done
        obtain ⟨s₂, save, done⟩ := Outcome.bind_ok.mp done
        rw [saveThreadContext, if_pos rfl] at save
        cases save
        by_cases empty : (s₁.threads idleThread).iRip = 0
        · rw [if_pos empty] at done
          cases done
          exact .inl rfl
        · rw [if_neg empty] at done
          cases done
          exact .inr (.inr ⟨empty, rfl⟩)
      · simp only [killed, ↓reduceIte] at done
        cases done
        exact .inl rfl
  · simp only [↓reduceIte] at done
    cases done
    exact .inr (.inl switch)

end SwagOS.Kernel.ThreadTable
