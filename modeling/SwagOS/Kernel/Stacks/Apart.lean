import SwagOS.Kernel.Stacks

/-!
# No shared kernel stacks

Two CPUs are on different stacks as long as a stack gets free before it is used again.  The
scheduler gives a thread to one CPU only, but that is not enough: a CPU is still on the stack of
a thread that it has saved or that has exited there, after the lock is released, and the idle
thread has one stack for all CPUs.
-/

namespace SwagOS.Kernel

open SwagOS.Lib

def ThreadTable.FreeSlot (s : ThreadTable) (t : Nat) : Prop :=
  s.status t = .notInitialized ∨ s.status t = .killed

namespace StackSystem

structure Unshared (s : StackSystem) : Prop where
  apart : ∀ cpu cpu', s.stack cpu = s.stack cpu' → cpu = cpu'
  untaken : ∀ cpu t, s.Spins cpu → s.stackOf t = s.stack cpu → s.table.FreeSlot t

def StackFree (s : StackSystem) : Event → Prop
  | .invokeScheduler => s.table.Contexts
  | .take slot => ∀ t, slot = some t → ∀ cpu, s.Spins cpu → s.stack cpu ≠ .kstack t
  | .load cpu t => ∀ cpu', cpu' ≠ cpu → s.leaving cpu' = true ∨ t = idleThread →
      s.stack cpu' ≠ s.stackOf t
  | .other => True

structure Inv (s : StackSystem) : Prop where
  table : s.table.Inv
  unshared : s.Unshared
  own : ∀ cpu t, s.leaving cpu = false → s.table.current cpu = some t → s.stack cpu = s.stackOf t
  idle : ∀ cpu, s.Spins cpu → s.stack cpu ≠ s.stackOf idleThread
  target : ∀ cpu, s.leaving cpu = true → s.table.current cpu ≠ none
  injective : Function.Injective s.stackOf
  kstack : ∀ t u, s.stackOf t = .kstack u → t = u
  allocated : ∀ n, (∃ t, s.stackOf t = .allocated n) ∨ (∃ cpu, s.stack cpu = .allocated n) →
    n < s.allocations

theorem boot_stackOf (idleEntry t : Nat) :
    (boot idleEntry).stackOf t =
      if t = 0 then .boot 0 else if t = idleThread then .allocated 0 else .kstack t := by
  dsimp only [boot]
  by_cases first : t = 0
  · rw [if_pos first, first, Function.update_self]
  · rw [if_neg first, Function.update_of_ne first]
    by_cases idle : t = idleThread
    · rw [if_pos idle, idle, Function.update_self]
    · rw [if_neg idle, Function.update_of_ne idle]

theorem boot_current {idleEntry cpu : Nat} :
    (boot idleEntry).table.current cpu = if cpu = 0 then some 0 else none := by
  by_cases first : cpu = 0
  · subst first
    rfl
  · rw [if_neg first]
    exact Function.update_of_ne first (some 0) fun _ => none

theorem Start.inv {s : StackSystem} (start : s.Start) : s.Inv := by
  obtain ⟨idleEntry, rfl⟩ := start
  exact
    { table := ThreadTable.Inv.boot idleEntry
      unshared :=
        { apart := fun cpu cpu' same => Stack.boot.inj same
          untaken := by
            rintro cpu t ⟨-, spins⟩ same
            rw [boot_stackOf] at same
            rw [boot_current] at spins
            split at same
            · rename_i first
              obtain rfl := Stack.boot.inj same
              cases spins
            · split at same
              · cases same
              · cases same }
      own := by
        intro cpu t _ current
        rw [boot_current] at current
        split at current
        · rename_i first
          obtain rfl := Option.some.inj current
          rw [first, boot_stackOf]
          rfl
        · cases current
      idle := by
        intro cpu _ same
        rw [boot_stackOf] at same
        cases same
      target := nofun
      injective := by
        intro t u same
        rw [boot_stackOf, boot_stackOf] at same
        grind
      kstack := by
        intro t u same
        rw [boot_stackOf] at same
        grind
      allocated := by
        rintro n (⟨t, same⟩ | ⟨cpu, same⟩)
        · rw [boot_stackOf] at same
          grind [boot]
        · cases same }

section Moves

variable {s : StackSystem} {cpu t : Nat} {table : ThreadTable}

theorem Inv.not_free (inv : s.Inv) (executes : s.Executes cpu t) : ¬s.table.FreeSlot t := by
  obtain ⟨-, current, notIdle⟩ := executes
  intro free
  rcases inv.table.scheduled.active cpu t current notIdle with state | state
  · rcases free with slot | slot <;> cases state.symm.trans slot
  · rcases free with slot | slot <;> cases state.symm.trans slot

/-- The threads stay where they are, and at most those that execute change their states. -/
theorem Inv.setTable (inv : s.Inv) (tableInv : table.Inv) (current : table.current = s.table.current)
    (free : ∀ u, s.table.FreeSlot u → table.FreeSlot u) : (s.setTable table).Inv where
  table := tableInv
  unshared :=
    { apart := inv.unshared.apart
      untaken := by
        rintro c u ⟨stays, spins⟩ same
        refine free u (inv.unshared.untaken c u ⟨stays, ?_⟩ same)
        rw [← current]
        exact spins }
  own := by
    intro c u stays isCurrent
    refine inv.own c u stays ?_
    rw [← current]
    exact isCurrent
  idle := by
    rintro c ⟨stays, spins⟩
    exact inv.idle c ⟨stays, current ▸ spins⟩
  target := by
    intro c leaves none
    refine inv.target c leaves ?_
    rw [← current]
    exact none
  injective := inv.injective
  kstack := inv.kstack
  allocated := inv.allocated

theorem Inv.write (inv : s.Inv) (executes : s.Executes cpu t) (tableInv : table.Inv)
    (current : table.current = s.table.current)
    (others : ∀ u, u ≠ t → table.status u = s.table.status u) : (s.setTable table).Inv := by
  refine inv.setTable tableInv current ?_
  intro u free
  have other : u ≠ t := by
    rintro rfl
    exact inv.not_free executes free
  rw [ThreadTable.FreeSlot, others u other]
  exact free

theorem Inv.exit (inv : s.Inv) (executes : s.Executes cpu t) (tableInv : table.Inv)
    (current : table.current = Function.update s.table.current cpu none)
    (killed : table.status t = .killed)
    (others : ∀ u, u ≠ t → table.status u = s.table.status u) : (s.setTable table).Inv where
  table := tableInv
  unshared :=
    { apart := inv.unshared.apart
      untaken := by
        rintro c u ⟨stays, spins⟩ same
        by_cases here : u = t
        · rw [here]
          exact .inr killed
        · show table.FreeSlot u
          rw [ThreadTable.FreeSlot, others u here]
          refine inv.unshared.untaken c u ⟨stays, ?_⟩ same
          have spins' : Function.update s.table.current cpu none c = none := current ▸ spins
          by_cases exited : c = cpu
          · subst exited
            have own := inv.own c t executes.1 executes.2.1
            exact absurd (inv.injective (same.trans own)) here
          · rwa [Function.update_of_ne exited] at spins' }
  own := by
    intro c u stays isCurrent
    have now : Function.update s.table.current cpu none c = some u := current ▸ isCurrent
    by_cases exited : c = cpu
    · rw [exited, Function.update_self] at now
      cases now
    · rw [Function.update_of_ne exited] at now
      exact inv.own c u stays now
  idle := by
    rintro c ⟨stays, spins⟩ same
    have spins' : Function.update s.table.current cpu none c = none := current ▸ spins
    by_cases exited : c = cpu
    · subst exited
      have own := inv.own c t executes.1 executes.2.1
      exact executes.2.2 (inv.injective (own.symm.trans same))
    · rw [Function.update_of_ne exited] at spins'
      exact inv.idle c ⟨stays, spins'⟩ same
  target := by
    intro c leaves none
    have now : Function.update s.table.current cpu Option.none c = Option.none := current ▸ none
    have exited : c ≠ cpu := by
      rintro rfl
      exact Bool.false_ne_true (executes.1.symm.trans leaves)
    rw [Function.update_of_ne exited] at now
    exact inv.target c leaves now
  injective := inv.injective
  kstack := inv.kstack
  allocated := inv.allocated

theorem Inv.take (inv : s.Inv) {st : Stack} {allocations : Nat} (tableInv : table.Inv)
    (current : table.current = s.table.current) (inside : t < maxNumThreads)
    (slot : s.table.FreeSlot t) (others : ∀ u, u ≠ t → table.status u = s.table.status u)
    (fresh : ∀ u, u ≠ t → s.stackOf u ≠ st) (unused : ∀ cpu, s.Spins cpu → s.stack cpu ≠ st)
    (kstack : ∀ u, st = .kstack u → t = u) (more : s.allocations ≤ allocations)
    (allocated : ∀ n, st = .allocated n → n < allocations) :
    Inv { s with
      table := table, stackOf := Function.update s.stackOf t st, allocations := allocations } where
  table := tableInv
  unshared :=
    { apart := inv.unshared.apart
      untaken := by
        rintro c u ⟨stays, spins⟩ same
        have before : s.Spins c := ⟨stays, current ▸ spins⟩
        change Function.update s.stackOf t st u = s.stack c at same
        show table.FreeSlot u
        by_cases here : u = t
        · rw [here, Function.update_self] at same
          exact absurd same.symm (unused c before)
        · rw [Function.update_of_ne here] at same
          rw [ThreadTable.FreeSlot, others u here]
          exact inv.unshared.untaken c u before same }
  own := by
    intro c u stays isCurrent
    have before : s.table.current c = some u := current ▸ isCurrent
    have other : u ≠ t := by
      rintro rfl
      exact inv.table.scheduled.not_current inside slot c before
    exact (inv.own c u stays before).trans (Function.update_of_ne other st s.stackOf).symm
  idle := by
    rintro c ⟨stays, spins⟩ same
    have notIdle : idleThread ≠ t := Nat.ne_of_gt inside
    exact inv.idle c ⟨stays, current ▸ spins⟩
      (same.trans (Function.update_of_ne notIdle st s.stackOf))
  target := by
    intro c leaves
    rw [current]
    exact inv.target c leaves
  injective := by
    intro u v same
    change Function.update s.stackOf t st u = Function.update s.stackOf t st v at same
    by_cases first : u = t
    · by_cases second : v = t
      · exact first.trans second.symm
      · rw [first, Function.update_self, Function.update_of_ne second] at same
        exact absurd same.symm (fresh v second)
    · by_cases second : v = t
      · rw [second, Function.update_self, Function.update_of_ne first] at same
        exact absurd same (fresh u first)
      · rw [Function.update_of_ne first, Function.update_of_ne second] at same
        exact inv.injective same
  kstack := by
    intro u v same
    change Function.update s.stackOf t st u = .kstack v at same
    by_cases here : u = t
    · rw [here, Function.update_self] at same
      exact here.trans (kstack v same)
    · rw [Function.update_of_ne here] at same
      exact inv.kstack u v same
  allocated := by
    rintro n (⟨u, same⟩ | ⟨c, same⟩)
    · change Function.update s.stackOf t st u = .allocated n at same
      by_cases here : u = t
      · rw [here, Function.update_self] at same
        exact allocated n same
      · rw [Function.update_of_ne here] at same
        exact Nat.lt_of_lt_of_le (inv.allocated n (.inl ⟨u, same⟩)) more
    · exact Nat.lt_of_lt_of_le (inv.allocated n (.inr ⟨c, same⟩)) more

theorem Inv.takeSlot_none (inv : s.Inv) : (s.takeSlot none s.table).Inv := inv

theorem Inv.takeSlot (inv : s.Inv) (tableInv : table.Inv)
    (current : table.current = s.table.current) (found : s.table.findFreeThread = some t)
    (others : ∀ u, u ≠ t → table.status u = s.table.status u)
    (unused : ∀ c, s.Spins c → s.stack c ≠ .kstack t) : (s.takeSlot (some t) table).Inv := by
  obtain ⟨inside, slot⟩ := ThreadTable.findFreeThread_some found
  refine inv.take tableInv current inside slot others ?_ unused ?_ (Nat.le_refl _) nofun
  · intro u other same
    exact other (inv.kstack u t same)
  · intro u same
    exact Stack.kstack.inj same

theorem Inv.takeSlotKernel (inv : s.Inv) (tableInv : table.Inv)
    (current : table.current = s.table.current) (found : s.table.findFreeThread = some t)
    (others : ∀ u, u ≠ t → table.status u = s.table.status u) :
    (s.takeSlotKernel t table).Inv := by
  obtain ⟨inside, slot⟩ := ThreadTable.findFreeThread_some found
  refine inv.take tableInv current inside slot others ?_ ?_ nofun (Nat.le_succ _) ?_
  · intro u _ same
    exact Nat.lt_irrefl _ (inv.allocated s.allocations (.inl ⟨u, same⟩))
  · intro c _ same
    exact Nat.lt_irrefl _ (inv.allocated s.allocations (.inr ⟨c, same⟩))
  · intro n same
    rw [← Stack.allocated.inj same]
    exact Nat.lt_succ_self s.allocations

/-- The scheduler chooses a thread for a CPU, which is not on the stack of that thread yet. -/
theorem Inv.switchTo (inv : s.Inv) (stays : s.leaving cpu = false) (tableInv : table.Inv)
    (elsewhere : ∀ c, c ≠ cpu → table.current c = s.table.current c)
    (here : table.current cpu = s.table.current cpu ∨ table.current cpu ≠ none)
    (free : ∀ u, u ≠ idleThread → s.table.FreeSlot u → table.FreeSlot u) :
    (s.switchTo cpu table).Inv := by
  have kept : ∀ c, (s.switchTo cpu table).leaving c = false →
      s.leaving c = false ∧ table.current c = s.table.current c := by
    intro c still
    change Function.update s.leaving cpu (table.current cpu ≠ s.table.current cpu) c = false at still
    by_cases same : c = cpu
    · rw [same, Function.update_self, decide_eq_false_iff_not, not_not] at still
      rw [same]
      exact ⟨stays, still⟩
    · rw [Function.update_of_ne same] at still
      exact ⟨still, elsewhere c same⟩
  have spun : ∀ c, (s.switchTo cpu table).Spins c → s.Spins c := by
    rintro c ⟨still, spins⟩
    obtain ⟨before, current⟩ := kept c still
    exact ⟨before, current ▸ spins⟩
  exact
    { table := tableInv
      unshared :=
        { apart := inv.unshared.apart
          untaken := by
            intro c u spins same
            refine free u ?_ (inv.unshared.untaken c u (spun c spins) same)
            rintro rfl
            exact inv.idle c (spun c spins) same.symm }
      own := by
        intro c u still isCurrent
        obtain ⟨before, current⟩ := kept c still
        exact inv.own c u before (current ▸ isCurrent)
      idle := fun c spins => inv.idle c (spun c spins)
      target := by
        intro c leaves
        change Function.update s.leaving cpu (table.current cpu ≠ s.table.current cpu) c = true
          at leaves
        by_cases same : c = cpu
        · rw [same, Function.update_self, decide_eq_true_eq] at leaves
          rw [same]
          exact here.resolve_left leaves
        · rw [Function.update_of_ne same] at leaves
          exact fun none => inv.target c leaves ((elsewhere c same).symm.trans none)
      injective := inv.injective
      kstack := inv.kstack
      allocated := inv.allocated }

/-- A CPU comes to the stack of its new thread, which no other CPU is on. -/
theorem Inv.load (inv : s.Inv) (isCurrent : s.table.current cpu = some t)
    (turn : ∀ c, c ≠ cpu → s.leaving c = true ∨ t = idleThread → s.stack c ≠ s.stackOf t) :
    (s.load cpu t).Inv := by
  have unused : ∀ c, c ≠ cpu → s.stack c ≠ s.stackOf t := by
    intro c other same
    by_cases waits : s.leaving c = true ∨ t = idleThread
    · exact turn c other waits same
    · obtain ⟨stays, notIdle⟩ := not_or.mp waits
      rw [Bool.not_eq_true] at stays
      cases current : s.table.current c with
      | none =>
        have free := inv.unshared.untaken c t ⟨stays, current⟩ same.symm
        rcases inv.table.scheduled.active cpu t isCurrent notIdle with state | state
        · rcases free with slot | slot <;> cases state.symm.trans slot
        · rcases free with slot | slot <;> cases state.symm.trans slot
      | some u =>
        have own := inv.own c u stays current
        obtain rfl := inv.injective (own.symm.trans same)
        exact other (inv.table.scheduled.exclusive c cpu u current isCurrent notIdle)
  have spun : ∀ c, (s.load cpu t).Spins c → c ≠ cpu ∧ s.Spins c := by
    rintro c ⟨still, spins⟩
    have other : c ≠ cpu := by
      rintro rfl
      cases isCurrent.symm.trans spins
    rw [load_leaving, Function.update_of_ne other] at still
    exact ⟨other, still, spins⟩
  have elsewhere : ∀ c, c ≠ cpu → (s.load cpu t).stack c = s.stack c := by
    intro c other
    rw [load_stack, Function.update_of_ne other]
  have there : (s.load cpu t).stack cpu = s.stackOf t := by
    rw [load_stack, Function.update_self]
  exact
    { table := inv.table
      unshared :=
        { apart := by
            intro c d same
            by_cases first : c = cpu
            · by_cases second : d = cpu
              · exact first.trans second.symm
              · rw [first, there, elsewhere d second] at same
                exact absurd same.symm (unused d second)
            · by_cases second : d = cpu
              · rw [second, there, elsewhere c first] at same
                exact absurd same (unused c first)
              · rw [elsewhere c first, elsewhere d second] at same
                exact inv.unshared.apart c d same
          untaken := by
            intro c u spins same
            obtain ⟨other, before⟩ := spun c spins
            rw [elsewhere c other] at same
            exact inv.unshared.untaken c u before same }
      own := by
        intro c u still current
        by_cases same : c = cpu
        · rw [same] at current
          obtain rfl := Option.some.inj (isCurrent.symm.trans current)
          rw [same]
          exact there
        · rw [load_leaving, Function.update_of_ne same] at still
          rw [elsewhere c same]
          exact inv.own c u still current
      idle := by
        intro c spins
        obtain ⟨other, before⟩ := spun c spins
        rw [elsewhere c other]
        exact inv.idle c before
      target := by
        intro c leaves
        rw [load_leaving] at leaves
        by_cases same : c = cpu
        · rw [same, Function.update_self] at leaves
          cases leaves
        · rw [Function.update_of_ne same] at leaves
          exact inv.target c leaves
      injective := inv.injective
      kstack := inv.kstack
      allocated := by
        rintro n (⟨u, same⟩ | ⟨c, same⟩)
        · exact inv.allocated n (.inl ⟨u, same⟩)
        · by_cases here : c = cpu
          · rw [here, there] at same
            exact inv.allocated n (.inl ⟨t, same⟩)
          · rw [elsewhere c here] at same
            exact inv.allocated n (.inr ⟨c, same⟩) }

end Moves

theorem modifyThread_status (s : ThreadTable) {t u : Nat} (other : u ≠ t)
    (write : Thread → Thread) : (s.modifyThread t write).status u = s.status u := by
  rw [ThreadTable.status, ThreadTable.modifyThread_threads, Function.update_of_ne other]
  rfl

theorem leave_status (s : ThreadTable) (cpu : Nat) {t u : Nat} (other : u ≠ t) :
    (s.leave cpu t).status u = s.status u :=
  modifyThread_status (s.setCurrent cpu none) other _

theorem leave_killed (s : ThreadTable) (cpu t : Nat) : (s.leave cpu t).status t = .killed := by
  simp [ThreadTable.leave, ThreadTable.status]

theorem startProcess_status (s : ThreadTable) (p iRip : Nat) {t u : Nat} (other : u ≠ t) :
    (s.startProcess p t iRip).status u = s.status u := by
  simp [ThreadTable.startProcess, ThreadTable.startThread, ThreadTable.status, other]

theorem execUserProcess_status {s : ThreadTable} (owned : s.Owned) {t u : Nat} (other : u ≠ t) :
    (s.execUserProcess t).status u = s.status u := by
  rw [ThreadTable.execUserProcess]
  cases owner : (s.threads t).ownerProc with
  | none => rfl
  | some p =>
    simp [ThreadTable.status, other, ThreadTable.processFreeThreads_other owned owner other]

theorem execUserProcess_current (s : ThreadTable) (t : Nat) :
    (s.execUserProcess t).current = s.current := by
  rw [ThreadTable.execUserProcess]
  cases (s.threads t).ownerProc with
  | none => rfl
  | some p => simp

theorem createdSlot_none {s : StackSystem} (none : s.createdSlot = none) (iRip : Nat) :
    s.table.createUserProcess iRip = s.table := by
  rw [createdSlot] at none
  rw [ThreadTable.createUserProcess]
  split
  · rename_i process thread
    rw [process, thread] at none
    cases none
  · rfl

theorem createdSlot_some {s : StackSystem} {t : Nat} (taken : s.createdSlot = some t) (iRip : Nat) :
    ∃ p, s.table.findFreeThread = some t ∧
      s.table.createUserProcess iRip = s.table.startProcess p t iRip := by
  rw [createdSlot] at taken
  split at taken
  · rename_i p u process thread
    obtain rfl := Option.some.inj taken
    exact ⟨p, thread, by rw [ThreadTable.createUserProcess, process, thread]⟩
  · cases taken

theorem forkedSlot_none {s : StackSystem} {old : Nat} (none : s.forkedSlot old = none) (iRip : Nat) :
    s.table.forkUserProcess old iRip = s.table := by
  rw [forkedSlot] at none
  rw [ThreadTable.forkUserProcess]
  split
  · rename_i process thread owner
    rw [process, thread, owner] at none
    cases none
  · rfl

theorem forkedSlot_some {s : StackSystem} {old t : Nat} (taken : s.forkedSlot old = some t)
    (iRip : Nat) :
    ∃ p, s.table.findFreeThread = some t ∧
      s.table.forkUserProcess old iRip = s.table.startProcess p t iRip := by
  rw [forkedSlot] at taken
  split at taken
  · rename_i p u q process thread owner
    obtain rfl := Option.some.inj taken
    exact ⟨p, thread, by rw [ThreadTable.forkUserProcess, process, thread, owner]⟩
  · cases taken

theorem Inv.step {s s' : StackSystem} {event : Event} (inv : s.Inv) (moved : Step s event s')
    (stackFree : s.StackFree event) : s'.Inv := by
  cases moved with
  | @invokeScheduler table cpu iRip stays done =>
    have tableInv := inv.table.invokeScheduler stackFree done
    rcases ThreadTable.invokeScheduler_ok stackFree inv.table.scheduled.ids
      (inv.table.scheduled.active cpu) done with rfl | ⟨i, switch⟩ | ⟨-, rfl⟩
    · exact inv.switchTo stays tableInv (fun _ _ => rfl) (.inl rfl) fun _ _ free => free
    · refine inv.switchTo stays tableInv ?_ (.inr ?_) ?_
      · intro c other
        rw [switch.current, Function.update_of_ne other]
      · rw [switch.current, Function.update_self]
        exact Option.some_ne_none i
      · intro u notIdle free
        have notI : u ≠ i := by
          rintro rfl
          rcases free with slot | slot
          · rcases switch.runnable with state | ⟨state, -⟩ <;> cases slot.symm.trans state
          · rcases switch.runnable with state | ⟨state, -⟩ <;> cases slot.symm.trans state
        have away : s.table.current cpu ≠ some u := by
          intro isCurrent
          exact inv.not_free ⟨stays, isCurrent, notIdle⟩ free
        rw [ThreadTable.FreeSlot, ThreadTable.status, switch.others u notI (.inl away)]
        exact free
    · refine inv.switchTo stays tableInv ?_ (.inr ?_) ?_
      · intro c other
        exact Function.update_of_ne other _ _
      · show Function.update s.table.current cpu (some idleThread) cpu ≠ none
        rw [Function.update_self]
        exact Option.some_ne_none idleThread
      · intro u notIdle free
        rw [ThreadTable.FreeSlot, ThreadTable.schedule, ThreadTable.setStatus,
          modifyThread_status _ notIdle]
        exact free
  | load _ isCurrent => exact inv.load isCurrent stackFree
  | sleepSetChannel channel executes =>
    exact inv.write executes (inv.table.modifyThread (.inl rfl) rfl rfl) rfl
      fun u other => modifyThread_status s.table other _
  | sleepSetStatus executes =>
    exact inv.write executes (inv.table.sleepSetStatus _) rfl
      fun u other => modifyThread_status s.table other fun thread => { thread with status := .sleeping }
  | sleepSetCanWakeup executes =>
    exact inv.write executes (inv.table.modifyThread (.inl rfl) rfl rfl) rfl
      fun u other => modifyThread_status s.table other _
  | sleepClearChannel executes =>
    exact inv.write executes (inv.table.modifyThread (.inl rfl) rfl rfl) rfl
      fun u other => modifyThread_status s.table other _
  | wakeup channel =>
    refine inv.setTable (inv.table.wakeup channel) (ThreadTable.wakeup_current s.table channel) ?_
    intro u free
    rw [ThreadTable.FreeSlot, (ThreadTable.wakeup_fields s.table channel u).1]
    exact free
  | @createKernelThread table t entry found done =>
    have started := ThreadTable.createKernelThread_ok found done
    refine inv.takeSlotKernel (inv.table.createKernelThread done) ?_ found ?_
    · rw [started]
      rfl
    · intro u other
      rw [started]
      exact modifyThread_status s.table other _
  | createUserProcess iRip =>
    have tableInv := inv.table.createUserProcess iRip
    cases taken : s.createdSlot with
    | none =>
      rw [createdSlot_none taken iRip] at tableInv ⊢
      exact inv.takeSlot_none
    | some t =>
      obtain ⟨p, found, created⟩ := createdSlot_some taken iRip
      rw [created] at tableInv ⊢
      exact inv.takeSlot tableInv rfl found (fun u other => startProcess_status s.table p iRip other)
        (stackFree t taken)
  | @forkUserProcess cpu old iRip executes =>
    have tableInv := inv.table.forkUserProcess old iRip
    cases taken : s.forkedSlot old with
    | none =>
      rw [forkedSlot_none taken iRip] at tableInv ⊢
      exact inv.takeSlot_none
    | some t =>
      obtain ⟨p, found, created⟩ := forkedSlot_some taken iRip
      rw [created] at tableInv ⊢
      exact inv.takeSlot tableInv rfl found (fun u other => startProcess_status s.table p iRip other)
        (stackFree t taken)
  | execUserProcess executes =>
    exact inv.write executes ⟨inv.table.scheduled.exec inv.table.owned _, inv.table.owned.exec _⟩
      (execUserProcess_current s.table _) fun u other => execUserProcess_status inv.table.owned other
  | @syshandlerExit cpu t executes =>
    have tableInv := inv.table.exit executes.2.1
    obtain ⟨s₁, left, -, current, others, -⟩ :=
      ThreadTable.syshandlerExit_leave inv.table.owned cpu t
    rw [left] at tableInv ⊢
    refine inv.exit executes tableInv ?_ (leave_killed s₁ cpu t) ?_
    · rw [← current]
      rfl
    · intro u other
      rw [leave_status s₁ cpu other, others u other]
  | @exitThread cpu t executes =>
    exact inv.exit executes (inv.table.exitThread executes.2.1) rfl (leave_killed s.table cpu t)
      fun u other => leave_status s.table cpu other

theorem unshared_of_stackFree {s : StackSystem}
    (reached : Reachable Start (Restricted Step StackFree) s) : s.Unshared := by
  refine (reached.invariant (P := Inv) (fun s start => start.inv) ?_).unshared
  rintro s s' inv ⟨event, moved, stackFree⟩
  exact inv.step moved stackFree

def oneProcess : ThreadTable := (ThreadTable.boot 1).createUserProcess 4096

theorem oneProcess_contexts : oneProcess.Contexts := by
  intro t inside runnable
  by_cases new : t = 1
  · subst new
    decide
  · have same : oneProcess.threads t = (ThreadTable.boot 1).threads t := by
      show (Function.update (Function.update (ThreadTable.boot 1).threads 1 _) 1 _) t = _
      rw [Function.update_of_ne new, Function.update_of_ne new]
    rw [ThreadTable.status, same] at runnable
    rw [same]
    exact ThreadTable.boot_contexts Nat.one_ne_zero t inside runnable

theorem unshared_of_stackFree_oneProcess :
    ∃ s : StackSystem, Reachable Start (Restricted Step StackFree) s ∧ s.stack 0 = .boot 0 ∧
      s.stack 1 = .kstack 1 ∧ s.Unshared := by
  have scheduled : oneProcess.invokeScheduler 1 4096 = .ok (oneProcess.schedule 1 1 .running) := rfl
  have started : Reachable Start (Restricted Step StackFree) (boot 1) := .base ⟨1, rfl⟩
  have created := started.next ⟨_, .createUserProcess 4096, by
    rintro t taken cpu -
    nofun⟩
  have chosen := created.next ⟨_, .invokeScheduler rfl scheduled, oneProcess_contexts⟩
  have loaded := chosen.next ⟨_, @Step.load _ 1 1 rfl rfl, by
    rintro cpu - -
    nofun⟩
  exact ⟨_, loaded, rfl, rfl, unshared_of_stackFree loaded⟩

def twoProcesses : ThreadTable := oneProcess.createUserProcess 4096

def firstRuns : ThreadTable := twoProcesses.schedule 1 1 .running

def secondChosen : ThreadTable :=
  (firstRuns.modifyThread 1 fun thread => { thread with status := .ready, iRip := 4096 }).schedule
    1 2 .running

/-- A CPU takes the thread that another CPU has saved, before that CPU is off its stack. -/
theorem stack_shared :
    ∃ s, Reachable Start (Unrestricted Step) s ∧ s.stack 1 = .kstack 1 ∧
      s.stack 2 = .kstack 1 ∧ ¬s.Unshared := by
  have firstScheduled : twoProcesses.invokeScheduler 1 4096 = .ok firstRuns := rfl
  have secondScheduled : firstRuns.invokeScheduler 1 4096 = .ok secondChosen := rfl
  have firstAgain : secondChosen.invokeScheduler 2 4096 = .ok (secondChosen.schedule 2 1 .running) :=
    rfl
  have started : Reachable Start (Unrestricted Step) (boot 1) := .base ⟨1, rfl⟩
  have first := started.next ⟨_, .createUserProcess 4096, trivial⟩
  have second := first.next ⟨_, .createUserProcess 4096, trivial⟩
  have chosen := second.next ⟨_, .invokeScheduler rfl firstScheduled, trivial⟩
  have loaded := chosen.next ⟨_, @Step.load _ 1 1 rfl rfl, trivial⟩
  have saved := loaded.next ⟨_, .invokeScheduler rfl secondScheduled, trivial⟩
  have taken := saved.next ⟨_, .invokeScheduler rfl firstAgain, trivial⟩
  have both := taken.next ⟨_, @Step.load _ 2 1 rfl rfl, trivial⟩
  refine ⟨_, both, rfl, rfl, ?_⟩
  intro unshared
  exact absurd (unshared.apart 1 2 rfl) (by decide)

end StackSystem

end SwagOS.Kernel
