import SwagOS.Kernel.Sleep

/-!
# The invariant of sleeping and waking

A thread is registered on a channel from the last write of its registration until it is
woken or clears the channel.  While it is registered, the condition is false or some
waker has still to pass it.  That is `Guarded`; it needs that no waker passes a thread
between its test of a condition and its registration once the condition is true, which
the lock gives for objects and nothing gives for processes.
-/

namespace SwagOS.Kernel

open SwagOS.Lib

namespace Place

/-- The value of `sleep_channel` in a wait on `channel`. -/
def sleepChannel : Place → Channel → Option Channel
  | .setStatus, channel | .setCanWakeup, channel | .release, channel | .checkStatus, channel
  | .int3, channel | .clearChannel, channel => some channel
  | _, _ => none

def Locked : Place → Prop
  | .test | .setChannel | .setStatus | .setCanWakeup | .release | .leave => True
  | _ => False

def Window : Place → Prop
  | .setChannel | .setStatus | .setCanWakeup => True
  | _ => False

theorem Window.locked {place : Place} (window : place.Window) : place.Locked := by
  cases place <;> simp_all [Window, Locked]

end Place

/-- The waker has set the condition of the channel and not yet passed thread `t`. -/
def Waker.Pending : Waker → Channel → Nat → Prop
  | .notify a, channel, _ => channel = .object a
  | .visit c i, channel, t => c = channel ∧ i ≤ t
  | .visitChannel c i, channel, t => c = channel ∧ i ≤ t
  | .visitWrite c i, channel, t => c = channel ∧ i ≤ t
  | _, _, _ => False

namespace SleepSystem

def Registered (s : SleepSystem) (t : Nat) (channel : Channel) : Prop :=
  (s.table.threads t).sleepChannel = some channel ∧ (s.table.threads t).canWakeup = false ∧
    (s.table.status t = .sleeping ∨ s.table.status t = .wakeupReady)

section Fields

variable (s : SleepSystem) (t w l : Nat) (place : Place) (waker : Waker) (owner : Option Agent)

@[simp] theorem goto_table : (s.goto t place).table = s.table := rfl
@[simp] theorem goto_place : (s.goto t place).place = Function.update s.place t place := rfl
@[simp] theorem goto_channel : (s.goto t place).channel = s.channel := rfl
@[simp] theorem goto_lock : (s.goto t place).lock = s.lock := rfl
@[simp] theorem wakerTo_table : (s.wakerTo w waker).table = s.table := rfl
@[simp] theorem wakerTo_place : (s.wakerTo w waker).place = s.place := rfl
@[simp] theorem wakerTo_channel : (s.wakerTo w waker).channel = s.channel := rfl
@[simp] theorem wakerTo_waker : (s.wakerTo w waker).waker = Function.update s.waker w waker := rfl
@[simp] theorem wakerTo_lock : (s.wakerTo w waker).lock = s.lock := rfl
@[simp] theorem setLock_table : (s.setLock l owner).table = s.table := rfl
@[simp] theorem setLock_place : (s.setLock l owner).place = s.place := rfl
@[simp] theorem setLock_channel : (s.setLock l owner).channel = s.channel := rfl
@[simp] theorem setLock_waker : (s.setLock l owner).waker = s.waker := rfl
@[simp] theorem setLock_lock : (s.setLock l owner).lock = Function.update s.lock l owner := rfl

end Fields

/-- The scheduler steps of the system, in terms of the table. -/
theorem invokeScheduler_effect {table table' : ThreadTable} {cpu iRip : Nat}
    (scheduled : table.Scheduled) (contexts : table.Contexts)
    (done : table.invokeScheduler cpu iRip = .ok table') :
    table' = table ∨ (∃ i, ThreadTable.Switch table table' cpu iRip i) ∨
      ((table.threads idleThread).iRip ≠ 0 ∧ table' = table.schedule cpu idleThread .ready) :=
  ThreadTable.invokeScheduler_ok contexts scheduled.ids (scheduled.active cpu) done

theorem scheduled_invokeScheduler {table table' : ThreadTable} {cpu iRip : Nat}
    (scheduled : table.Scheduled) (contexts : table.Contexts)
    (done : table.invokeScheduler cpu iRip = .ok table') : table'.Scheduled := by
  rcases invokeScheduler_effect scheduled contexts done with rfl | ⟨i, switch⟩ | ⟨-, rfl⟩
  · exact scheduled
  · exact scheduled.switch switch
  · exact scheduled.turnIdle cpu

theorem contexts_invokeScheduler {table table' : ThreadTable} {cpu iRip : Nat}
    (scheduled : table.Scheduled) (contexts : table.Contexts) (context : iRip ≠ 0)
    (done : table.invokeScheduler cpu iRip = .ok table') : table'.Contexts := by
  rcases invokeScheduler_effect scheduled contexts done with
    rfl | ⟨i, switch⟩ | ⟨entry, rfl⟩
  · exact contexts
  · intro t inside runnable
    by_cases new : t = i
    · subst new
      simp [switch.running] at runnable
    · by_cases old : table.current cpu = some t ∧ t ≠ idleThread
      · obtain ⟨-, saved⟩ := switch.out t new old.1 old.2
        have alive : table.status t ≠ .killed := by
          rcases scheduled.active cpu t old.1 old.2 with state | state <;> simp [state]
        rw [saved alive]
        exact context
      · have same := switch.others t new (by
          by_cases idle : t = idleThread
          · exact .inr idle
          · exact .inl fun isOld => old ⟨isOld, idle⟩)
        rw [ThreadTable.status, same] at runnable
        rw [same]
        exact contexts t inside runnable
  · intro t inside runnable
    by_cases idle : t = idleThread
    · subst idle
      simpa [ThreadTable.schedule] using entry
    · have same : (table.schedule cpu idleThread .ready).threads t = table.threads t := by
        simp [ThreadTable.schedule, idle]
      rw [ThreadTable.status, same] at runnable
      rw [same]
      exact contexts t inside runnable

/-- The table is sound in the sense of the scheduler. -/
structure Tabled (s : SleepSystem) : Prop where
  scheduled : s.table.Scheduled
  contexts : s.table.Contexts

/-- A write that leaves the status of its thread alone or at sleeping. -/
theorem Tabled.write {s s' : SleepSystem} (tabled : s.Tabled) {t : Nat}
    (current : s'.table.current = s.table.current)
    (others : ∀ u, u ≠ t → s'.table.threads u = s.table.threads u)
    (state : s'.table.status t = s.table.status t ∨ s'.table.status t = .sleeping)
    (id : (s'.table.threads t).id = (s.table.threads t).id)
    (context : (s'.table.threads t).iRip = (s.table.threads t).iRip) : s'.Tabled := by
  refine ⟨tabled.scheduled.congr current (fun cpu u isCurrent notIdle => ?_) fun u => .inl ?_,
    fun u inside runnable => ?_⟩
  · have active := tabled.scheduled.active cpu u isCurrent notIdle
    by_cases same : u = t
    · subst same
      rcases state with kept | sleeping
      · rw [kept]
        exact active
      · exact .inr sleeping
    · rw [ThreadTable.status, others u same]
      exact active
  · by_cases same : u = t
    · subst same
      exact id
    · rw [others u same]
  · by_cases same : u = t
    · subst same
      rw [context]
      rcases state with kept | sleeping
      · rw [kept] at runnable
        exact tabled.contexts u inside runnable
      · simp [sleeping] at runnable
    · rw [ThreadTable.status, others u same] at runnable
      rw [others u same]
      exact tabled.contexts u inside runnable

variable {lockOf : Channel → Nat}

theorem Tabled.step {s s' : SleepSystem} {event : Event} (tabled : s.Tabled)
    (moved : Step lockOf s event s') : s'.Tabled := by
  cases moved with
  | timer _ context done =>
    exact ⟨scheduled_invokeScheduler tabled.scheduled tabled.contexts done,
      contexts_invokeScheduler tabled.scheduled tabled.contexts context done⟩
  | int3 _ _ _ _ _ context done =>
    exact ⟨scheduled_invokeScheduler tabled.scheduled tabled.contexts done,
      contexts_invokeScheduler tabled.scheduled tabled.contexts context done⟩
  | @setChannel t =>
    exact tabled.write (t := t) rfl (fun u other => by simp [ThreadTable.sleepSetChannel, other])
      (.inl (by simp [ThreadTable.sleepSetChannel, ThreadTable.status]))
      (by simp [ThreadTable.sleepSetChannel]) (by simp [ThreadTable.sleepSetChannel])
  | @setStatus t =>
    exact tabled.write (t := t) rfl (fun u other => by simp [ThreadTable.sleepSetStatus, other])
      (.inr (by simp [ThreadTable.sleepSetStatus, ThreadTable.status]))
      (by simp [ThreadTable.sleepSetStatus]) (by simp [ThreadTable.sleepSetStatus])
  | @setCanWakeup t =>
    exact tabled.write (t := t) rfl (fun u other => by simp [ThreadTable.sleepSetCanWakeup, other])
      (.inl (by simp [ThreadTable.sleepSetCanWakeup, ThreadTable.status]))
      (by simp [ThreadTable.sleepSetCanWakeup]) (by simp [ThreadTable.sleepSetCanWakeup])
  | @clearChannel t =>
    exact tabled.write (t := t) rfl (fun u other => by simp [ThreadTable.sleepClearChannel, other])
      (.inl (by simp [ThreadTable.sleepClearChannel, ThreadTable.status]))
      (by simp [ThreadTable.sleepClearChannel]) (by simp [ThreadTable.sleepClearChannel])
  | @visitWrite w i =>
    exact tabled.write (t := i) rfl (fun u other => by simp [other])
      (.inl (by simp [ThreadTable.status])) (by simp) (by simp)
  | exitSet =>
    exact ⟨tabled.scheduled.congr rfl tabled.scheduled.active fun t => .inl rfl, tabled.contexts⟩
  | _ => exact ⟨tabled.scheduled, tabled.contexts⟩

/-- `sleep_channel` is set exactly between its two writes. -/
def Own (s : SleepSystem) : Prop :=
  ∀ t, (s.table.threads t).sleepChannel = (s.place t).sleepChannel (s.channel t)

theorem Own.thread {s s' : SleepSystem} (own : s.Own) {t : Nat}
    (others : ∀ u, u ≠ t → (s'.table.threads u).sleepChannel = (s.table.threads u).sleepChannel ∧
      s'.place u = s.place u ∧ s'.channel u = s.channel u)
    (self : (s'.table.threads t).sleepChannel = (s'.place t).sleepChannel (s'.channel t)) :
    s'.Own := by
  intro u
  by_cases same : u = t
  · subst same
    exact self
  · obtain ⟨channel, place, loop⟩ := others u same
    rw [channel, place, loop]
    exact own u

theorem Own.goto {s : SleepSystem} (own : s.Own) {t : Nat} {place : Place}
    (same : place.sleepChannel (s.channel t) = (s.place t).sleepChannel (s.channel t)) :
    (s.goto t place).Own := by
  refine own.thread (t := t) (fun u other => ⟨rfl, by simp [other], rfl⟩) ?_
  simp [own t, same]

theorem sleepChannel_invokeScheduler {table table' : ThreadTable} {cpu iRip : Nat}
    (scheduled : table.Scheduled) (contexts : table.Contexts)
    (done : table.invokeScheduler cpu iRip = .ok table') (t : Nat) :
    (table'.threads t).sleepChannel = (table.threads t).sleepChannel ∧
      (table'.threads t).canWakeup = (table.threads t).canWakeup := by
  rcases invokeScheduler_effect scheduled contexts done with rfl | ⟨i, switch⟩ | ⟨-, rfl⟩
  · exact ⟨rfl, rfl⟩
  · exact ⟨(switch.fields t).2.2.2, (switch.fields t).1⟩
  · by_cases idle : t = idleThread
    · subst idle
      simp [ThreadTable.schedule]
    · simp [ThreadTable.schedule, idle]

theorem Own.step {s s' : SleepSystem} {event : Event} (own : s.Own) (tabled : s.Tabled)
    (moved : Step lockOf s event s') : s'.Own := by
  cases moved with
  | timer _ _ done =>
    intro t
    rw [(sleepChannel_invokeScheduler tabled.scheduled tabled.contexts done t).1]
    exact own t
  | @int3 table cpu t iRip _ _ place _ _ _ done =>
    have kept : Own { s with table := table } := by
      intro u
      rw [(sleepChannel_invokeScheduler tabled.scheduled tabled.contexts done u).1]
      exact own u
    exact kept.goto (by simp [place, Place.sleepChannel])
  | @enter t channel _ place =>
    refine own.thread (t := t) (fun u other => ⟨rfl, by simp [other], by simp [other]⟩) ?_
    simp [own t, place, Place.sleepChannel]
  | acquire _ place =>
    exact own.goto (by rcases place with place | place <;> simp [place, Place.sleepChannel])
  | testTrue _ place => exact own.goto (by simp [place, Place.sleepChannel])
  | testFalse _ place => exact own.goto (by simp [place, Place.sleepChannel])
  | @setChannel t =>
    refine own.thread (t := t) (fun u other => ⟨?_, by simp [other], rfl⟩) ?_
    · simp [ThreadTable.sleepSetChannel, other]
    · simp [ThreadTable.sleepSetChannel, Place.sleepChannel]
  | @setStatus t _ place =>
    refine own.thread (t := t) (fun u other => ⟨?_, by simp [other], rfl⟩) ?_
    · simp [ThreadTable.sleepSetStatus, other]
    · simp [ThreadTable.sleepSetStatus, own t, place, Place.sleepChannel]
  | @setCanWakeup t _ place =>
    refine own.thread (t := t) (fun u other => ⟨?_, by simp [other], rfl⟩) ?_
    · simp [ThreadTable.sleepSetCanWakeup, other]
    · simp [ThreadTable.sleepSetCanWakeup, own t, place, Place.sleepChannel]
  | release _ place => exact own.goto (by simp [place, Place.sleepChannel])
  | checkSleeping _ place => exact own.goto (by simp [place, Place.sleepChannel])
  | checkAwake _ place => exact own.goto (by simp [place, Place.sleepChannel])
  | @clearChannel t =>
    refine own.thread (t := t) (fun u other => ⟨?_, by simp [other], rfl⟩) ?_
    · simp [ThreadTable.sleepClearChannel, other]
    · simp [ThreadTable.sleepClearChannel, Place.sleepChannel]
  | leave _ place => exact own.goto (by simp [place, Place.sleepChannel])
  | leaveReset _ place => exact own.goto (by simp [place, Place.sleepChannel])
  | @visitWrite w i =>
    refine own.thread (t := i) (fun u other => ⟨by simp [other], rfl, rfl⟩) ?_
    simpa using own i
  | _ => exact own

def Claims (lockOf : Channel → Nat) (s : SleepSystem) : Agent → Nat → Prop
  | .thread t, l => (s.place t).Locked ∧ lockOf (s.channel t) = l
  | .waker w, l => ∃ a, s.waker w = .holding a ∧ lockOf (.object a) = l

def Locks (lockOf : Channel → Nat) (s : SleepSystem) : Prop :=
  ∀ agent l, s.Claims lockOf agent l → s.lock l = some agent

theorem Locks.mono {s s' : SleepSystem} (locks : s.Locks lockOf) (lock : s'.lock = s.lock)
    (claims : ∀ agent l, s'.Claims lockOf agent l → s.Claims lockOf agent l) :
    s'.Locks lockOf := by
  intro agent l claim
  rw [lock]
  exact locks agent l (claims agent l claim)

theorem Locks.acquire {s s' : SleepSystem} (locks : s.Locks lockOf) (owner : Agent) {k : Nat}
    (free : s.lock k = none) (lock : s'.lock = Function.update s.lock k (some owner))
    (claims : ∀ agent l, s'.Claims lockOf agent l →
      s.Claims lockOf agent l ∨ agent = owner ∧ l = k) : s'.Locks lockOf := by
  intro agent l claim
  rw [lock]
  rcases claims agent l claim with old | ⟨rfl, rfl⟩
  · have held := locks agent l old
    have other : l ≠ k := by
      rintro rfl
      rw [free] at held
      cases held
    rw [Function.update_of_ne other, held]
  · exact Function.update_self l (some agent) s.lock

theorem Locks.release {s s' : SleepSystem} (locks : s.Locks lockOf) {owner : Agent} {k : Nat}
    (held : s.lock k = some owner) (lock : s'.lock = Function.update s.lock k none)
    (claims : ∀ agent l, s'.Claims lockOf agent l → s.Claims lockOf agent l ∧
      (agent = owner → l ≠ k)) : s'.Locks lockOf := by
  intro agent l claim
  obtain ⟨old, notOwner⟩ := claims agent l claim
  have isHeld := locks agent l old
  have other : l ≠ k := by
    rintro rfl
    rw [held] at isHeld
    cases isHeld
    exact notOwner rfl rfl
  rw [lock, Function.update_of_ne other, isHeld]

theorem claims_goto {s : SleepSystem} {t : Nat} {place : Place}
    (still : place.Locked → (s.place t).Locked) (agent : Agent) (l : Nat)
    (claim : (s.goto t place).Claims lockOf agent l) : s.Claims lockOf agent l := by
  cases agent with
  | thread u =>
    by_cases same : u = t
    · subst same
      obtain ⟨locked, lockIs⟩ := claim
      exact ⟨still (by simpa using locked), lockIs⟩
    · obtain ⟨locked, lockIs⟩ := claim
      exact ⟨by simpa [same] using locked, lockIs⟩
  | waker w => exact claim

theorem Locks.giveUp {s : SleepSystem} (locks : s.Locks lockOf) {t : Nat} {place : Place}
    (locked : (s.place t).Locked) (without : ¬place.Locked) :
    ((s.setLock (lockOf (s.channel t)) none).goto t place).Locks lockOf := by
  have held := locks (.thread t) _ ⟨locked, rfl⟩
  refine locks.release held rfl fun agent l claim =>
    ⟨claims_goto (fun never => absurd never without) agent l claim, ?_⟩
  rintro rfl
  simp [Claims, without] at claim

theorem Locks.wakerTo {s s' : SleepSystem} (locks : s.Locks lockOf) {w : Nat} {place : Waker}
    (moved : s'.waker = Function.update s.waker w place) (lock : s'.lock = s.lock)
    (threads : s'.place = s.place ∧ s'.channel = s.channel)
    (without : ∀ a, place ≠ .holding a) : s'.Locks lockOf := by
  apply locks.mono lock
  intro agent l claim
  cases agent with
  | thread t =>
    rw [Claims, threads.1, threads.2] at claim
    exact claim
  | waker v =>
    obtain ⟨a, holding, lockIs⟩ := claim
    rw [moved] at holding
    by_cases same : v = w
    · subst same
      exact absurd (by simpa using holding) (without a)
    · exact ⟨a, by simpa [same] using holding, lockIs⟩

theorem Locks.step {s s' : SleepSystem} {event : Event} (locks : s.Locks lockOf)
    (moved : Step lockOf s event s') : s'.Locks lockOf := by
  cases moved with
  | timer => exact locks
  | int3 => exact locks.mono rfl (claims_goto (by simp [Place.Locked]))
  | @enter t channel =>
    refine locks.mono rfl fun agent l claim => ?_
    cases agent with
    | thread u =>
      by_cases same : u = t
      · subst same
        simp [Claims, Place.Locked] at claim
      · simpa [Claims, same] using claim
    | waker w => exact claim
  | @acquire t _ place free =>
    apply locks.acquire (.thread t) free rfl
    intro agent l claim
    cases agent with
    | thread u =>
      by_cases same : u = t
      · subst same
        exact .inr ⟨rfl, claim.2.symm⟩
      · exact .inl (by simpa [Claims, same] using claim)
    | waker w => exact .inl claim
  | testTrue _ place => exact locks.mono rfl (claims_goto (by simp [place, Place.Locked]))
  | testFalse _ place => exact locks.mono rfl (claims_goto (by simp [place, Place.Locked]))
  | setChannel _ place => exact locks.mono rfl (claims_goto (by simp [place, Place.Locked]))
  | setStatus _ place => exact locks.mono rfl (claims_goto (by simp [place, Place.Locked]))
  | setCanWakeup _ place => exact locks.mono rfl (claims_goto (by simp [place, Place.Locked]))
  | release _ place => exact locks.giveUp (by simp [place, Place.Locked]) (by simp [Place.Locked])
  | checkSleeping => exact locks.mono rfl (claims_goto (by simp [Place.Locked]))
  | checkAwake => exact locks.mono rfl (claims_goto (by simp [Place.Locked]))
  | clearChannel => exact locks.mono rfl (claims_goto (by simp [Place.Locked]))
  | leave _ place => exact locks.giveUp (by simp [place, Place.Locked]) (by simp [Place.Locked])
  | @leaveReset t a _ place =>
    have left := @Locks.giveUp lockOf s locks t .outside (by simp [place, Place.Locked])
      (by simp [Place.Locked])
    exact left
  | wakerEnter => exact locks.wakerTo rfl rfl ⟨rfl, rfl⟩ (by simp)
  | @wakerAcquire w a _ free =>
    apply locks.acquire (.waker w) free rfl
    intro agent l claim
    cases agent with
    | thread t => exact .inl claim
    | waker v =>
      by_cases same : v = w
      · subst same
        obtain ⟨b, holding, lockIs⟩ := claim
        obtain rfl : a = b := by simpa using holding
        exact .inr ⟨rfl, lockIs.symm⟩
      · exact .inl (by simpa [Claims, same] using claim)
  | wakerSet => exact locks.wakerTo rfl rfl ⟨rfl, rfl⟩ (by simp)
  | @wakerRelease w a place held =>
    refine locks.release held rfl fun agent l claim => ⟨claim, ?_⟩
    rintro rfl
    obtain ⟨b, holding, -⟩ := claim
    rcases place with place | place
    · cases place.symm.trans holding
    · cases place.symm.trans holding
  | wakeupBegin => exact locks.wakerTo rfl rfl ⟨rfl, rfl⟩ (by simp)
  | exitBegin => exact locks.wakerTo rfl rfl ⟨rfl, rfl⟩ (by simp)
  | exitSet => exact locks.wakerTo rfl rfl ⟨rfl, rfl⟩ (by simp)
  | visitAwake => exact locks.wakerTo rfl rfl ⟨rfl, rfl⟩ (by simp)
  | visitAsleep => exact locks.wakerTo rfl rfl ⟨rfl, rfl⟩ (by simp)
  | visitElsewhere => exact locks.wakerTo rfl rfl ⟨rfl, rfl⟩ (by simp)
  | visitHere => exact locks.wakerTo rfl rfl ⟨rfl, rfl⟩ (by simp)
  | visitWrite => exact locks.wakerTo rfl rfl ⟨rfl, rfl⟩ (by simp)
  | visitEnd => exact locks.wakerTo rfl rfl ⟨rfl, rfl⟩ (by simp)
  | wakerDone => exact locks.wakerTo rfl rfl ⟨rfl, rfl⟩ (by simp)

theorem asleep_invokeScheduler {table table' : ThreadTable} {cpu iRip t : Nat}
    (scheduled : table.Scheduled) (contexts : table.Contexts)
    (done : table.invokeScheduler cpu iRip = .ok table')
    (asleep : table'.status t = .sleeping ∨ table'.status t = .wakeupReady) :
    table.status t = .sleeping ∨ table.status t = .wakeupReady := by
  rcases invokeScheduler_effect scheduled contexts done with rfl | ⟨i, switch⟩ | ⟨-, rfl⟩
  · exact asleep
  · by_cases new : t = i
    · subst new
      simp [switch.running] at asleep
    · by_cases old : table.current cpu = some t ∧ t ≠ idleThread
      · rw [(switch.out t new old.1 old.2).1] at asleep
        cases state : table.status t <;> simp [state, ThreadTable.saved] at asleep ⊢
      · have same := switch.others t new (by
          by_cases idle : t = idleThread
          · exact .inr idle
          · exact .inl fun isOld => old ⟨isOld, idle⟩)
        rw [ThreadTable.status, same] at asleep
        exact asleep
  · by_cases idle : t = idleThread
    · subst idle
      simp [ThreadTable.schedule, ThreadTable.status] at asleep
    · simpa [ThreadTable.schedule, ThreadTable.status, idle] using asleep

theorem registered_invokeScheduler {s s' : SleepSystem} {cpu iRip u : Nat} {channel : Channel}
    (tabled : s.Tabled) (done : s.table.invokeScheduler cpu iRip = .ok s'.table)
    (registered : s'.Registered u channel) : s.Registered u channel := by
  obtain ⟨on, waiting, asleep⟩ := registered
  obtain ⟨sameChannel, sameWakeup⟩ :=
    sleepChannel_invokeScheduler tabled.scheduled tabled.contexts done u
  exact ⟨sameChannel.symm.trans on, sameWakeup.symm.trans waiting,
    asleep_invokeScheduler tabled.scheduled tabled.contexts done asleep⟩

theorem registered_write {s s' : SleepSystem} {t u : Nat} {channel : Channel}
    (others : ∀ v, v ≠ t → s'.table.threads v = s.table.threads v) (other : u ≠ t)
    (registered : s'.Registered u channel) : s.Registered u channel := by
  rw [Registered, ThreadTable.status, others u other] at registered
  exact registered

theorem registered_step {s s' : SleepSystem} {event : Event} {u : Nat} {channel : Channel}
    (tabled : s.Tabled) (own : s.Own) (moved : Step lockOf s event s')
    (registered : s'.Registered u channel) :
    s.Registered u channel ∨ s.channel u = channel ∧ (s.place u).Window := by
  cases moved with
  | timer _ _ done => exact .inl (registered_invokeScheduler tabled done registered)
  | int3 _ _ _ _ _ _ done => exact .inl (registered_invokeScheduler tabled done registered)
  | @setChannel t _ place =>
    by_cases same : u = t
    · subst same
      right
      have on := registered.1
      simp only [goto_table, ThreadTable.sleepSetChannel, ThreadTable.modifyThread_threads,
        Function.update_self, Option.some.injEq] at on
      exact ⟨on, by simp [place, Place.Window]⟩
    · exact .inl (registered_write (t := t)
        (fun v other => by simp [ThreadTable.sleepSetChannel, other]) same registered)
  | @setStatus t _ place =>
    by_cases same : u = t
    · subst same
      right
      have on := registered.1
      simp only [goto_table, ThreadTable.sleepSetStatus, ThreadTable.setStatus_threads,
        Function.update_self, own u, place, Place.sleepChannel, Option.some.injEq] at on
      exact ⟨on, by simp [place, Place.Window]⟩
    · exact .inl (registered_write (t := t)
        (fun v other => by simp [ThreadTable.sleepSetStatus, other]) same registered)
  | @setCanWakeup t _ place =>
    by_cases same : u = t
    · subst same
      right
      have on := registered.1
      simp only [goto_table, ThreadTable.sleepSetCanWakeup, ThreadTable.modifyThread_threads,
        Function.update_self, own u, place, Place.sleepChannel, Option.some.injEq] at on
      exact ⟨on, by simp [place, Place.Window]⟩
    · exact .inl (registered_write (t := t)
        (fun v other => by simp [ThreadTable.sleepSetCanWakeup, other]) same registered)
  | @clearChannel t =>
    by_cases same : u = t
    · subst same
      have on := registered.1
      simp [ThreadTable.sleepClearChannel] at on
    · exact .inl (registered_write (t := t)
        (fun v other => by simp [ThreadTable.sleepClearChannel, other]) same registered)
  | @visitWrite w i =>
    by_cases same : u = i
    · subst same
      have waiting := registered.2.1
      simp at waiting
    · exact .inl (registered_write (t := i) (fun v other => by simp [other]) same registered)
  | _ => exact .inl registered

theorem window_step {s s' : SleepSystem} {event : Event} {u : Nat} {channel : Channel}
    (moved : Step lockOf s event s') (on : s'.channel u = channel) (window : (s'.place u).Window) :
    (s.channel u = channel ∧ (s.place u).Window) ∨
      s.holds channel = false ∧ s'.holds channel = false := by
  -- Any place but `setChannel` is in the window only if the place before it was.
  have other : ∀ {t : Nat} {place : Place}, (s'.place = Function.update s.place t place) →
      s'.channel = s.channel → (place.Window → (s.place t).Window) →
      s.channel u = channel ∧ (s.place u).Window := by
    intro t place moves same before
    rw [same] at on
    refine ⟨on, ?_⟩
    rw [moves] at window
    by_cases here : u = t
    · subst here
      exact before (by simpa using window)
    · simpa [here] using window
  cases moved with
  | timer => exact .inl ⟨on, window⟩
  | int3 => exact .inl (other rfl rfl (by simp [Place.Window]))
  | @enter t =>
    by_cases here : u = t
    · subst here
      simp [Place.Window] at window
    · exact .inl ⟨by simpa [here] using on, by simpa [here] using window⟩
  | acquire => exact .inl (other rfl rfl (by simp [Place.Window]))
  | testTrue => exact .inl (other rfl rfl (by simp [Place.Window]))
  | @testFalse t _ place false_ =>
    by_cases here : u = t
    · subst here
      obtain rfl : s.channel u = channel := on
      exact .inr ⟨false_, false_⟩
    · exact .inl ⟨on, by simpa [here] using window⟩
  | setChannel _ place => exact .inl (other rfl rfl (by simp [place, Place.Window]))
  | setStatus _ place => exact .inl (other rfl rfl (by simp [place, Place.Window]))
  | setCanWakeup _ place => exact .inl (other rfl rfl (by simp [Place.Window]))
  | release => exact .inl (other rfl rfl (by simp [Place.Window]))
  | checkSleeping => exact .inl (other rfl rfl (by simp [Place.Window]))
  | checkAwake => exact .inl (other rfl rfl (by simp [Place.Window]))
  | clearChannel => exact .inl (other rfl rfl (by simp [Place.Window]))
  | leave => exact .inl (other rfl rfl (by simp [Place.Window]))
  | leaveReset => exact .inl (other rfl rfl (by simp [Place.Window]))
  | _ => exact .inl ⟨on, window⟩

theorem procs_invokeScheduler {table table' : ThreadTable} {cpu iRip : Nat}
    (scheduled : table.Scheduled) (contexts : table.Contexts)
    (done : table.invokeScheduler cpu iRip = .ok table') : table'.procs = table.procs := by
  rcases invokeScheduler_effect scheduled contexts done with rfl | ⟨i, switch⟩ | ⟨-, rfl⟩
  · rfl
  · exact switch.procs
  · rfl

theorem holds_congr {s s' : SleepSystem} (cond : s'.cond = s.cond)
    (procs : s'.table.procs = s.table.procs) (channel : Channel) :
    s'.holds channel = s.holds channel := by
  cases channel with
  | object a => rw [SleepSystem.holds, SleepSystem.holds, cond]
  | process p => rw [SleepSystem.holds, SleepSystem.holds, procs]

theorem holds_of {s s' : SleepSystem} {channel : Channel} (holds : s'.holds channel = true)
    (cond : s'.cond = s.cond) (procs : s'.table.procs = s.table.procs) :
    s.holds channel = true := (holds_congr cond procs channel).symm.trans holds

/-- Whoever makes a condition true has still to wake everyone, and holds the lock if it is
the condition of an object. -/
theorem holds_step {s s' : SleepSystem} {event : Event} {channel : Channel} (tabled : s.Tabled)
    (moved : Step lockOf s event s') (holds : s'.holds channel = true) :
    s.holds channel = true ∨
      ∃ w, (∀ t, (s'.waker w).Pending channel t) ∧
        ∀ a, channel = .object a → s.waker w = .holding a := by
  cases moved with
  | timer _ _ done =>
    exact .inl (holds_of holds rfl (procs_invokeScheduler tabled.scheduled tabled.contexts done))
  | int3 _ _ _ _ _ _ done =>
    exact .inl (holds_of holds rfl (procs_invokeScheduler tabled.scheduled tabled.contexts done))
  | @leaveReset t a =>
    left
    cases channel with
    | object b =>
      by_cases same : b = a
      · subst same
        simp [SleepSystem.holds] at holds
      · simpa [SleepSystem.holds, same] using holds
    | process p => exact holds
  | @wakerSet w a holding =>
    cases channel with
    | object b =>
      by_cases same : b = a
      · subst same
        refine .inr ⟨w, fun t => by simp [Waker.Pending], ?_⟩
        rintro a ⟨⟩
        exact holding
      · exact .inl (by simpa [SleepSystem.holds, same] using holds)
    | process p => exact .inl holds
  | @exitSet w p =>
    cases channel with
    | object b => exact .inl holds
    | process q =>
      by_cases same : q = p
      · subst same
        exact .inr ⟨w, fun t => by simp [Waker.Pending], fun a other => by cases other⟩
      · exact .inl (by simpa [SleepSystem.holds, same] using holds)
  | _ => exact .inl (holds_of holds rfl rfl)

theorem pending_step {s s' : SleepSystem} {event : Event} {channel : Channel} {w t : Nat}
    (inside : t < maxNumThreads) (moved : Step lockOf s event s')
    (pending : (s.waker w).Pending channel t) :
    (s'.waker w).Pending channel t ∨ event = .pass channel t ∧ ¬s'.Registered t channel := by
  -- A move of another waker does not matter.
  have elsewhere : ∀ {v : Nat} {place : Waker}, s'.waker = Function.update s.waker v place →
      (v = w → place.Pending channel t ∨ event = .pass channel t ∧ ¬s'.Registered t channel) →
      (s'.waker w).Pending channel t ∨ event = .pass channel t ∧ ¬s'.Registered t channel := by
    intro v place moves here
    rw [moves]
    by_cases same : w = v
    · subst same
      simpa using here rfl
    · left
      simpa [same] using pending
  -- A waker that is not in the loop has no thread before it.
  have absent : ∀ {v : Nat} {place : Waker}, s'.waker = Function.update s.waker v place →
      ¬(s.waker v).Pending channel t →
      (s'.waker w).Pending channel t ∨ event = .pass channel t ∧ ¬s'.Registered t channel := by
    intro v place moves notPending
    apply elsewhere moves
    rintro rfl
    exact absurd pending notPending
  have passes : ∀ {v i : Nat} {c : Channel},
      s'.waker = Function.update s.waker v (.visit c (i + 1)) → event = .pass c i →
      ((s.waker v).Pending channel t → c = channel ∧ i ≤ t) → ¬s'.Registered i c →
      (s'.waker w).Pending channel t ∨ event = .pass channel t ∧ ¬s'.Registered t channel := by
    intro v i c moves passed visits unregistered
    apply elsewhere moves
    rintro rfl
    obtain ⟨rfl, le⟩ := visits pending
    rcases Nat.lt_or_eq_of_le le with later | rfl
    · exact .inl ⟨rfl, later⟩
    · exact .inr ⟨passed, unregistered⟩
  cases moved with
  | wakerEnter _ place => exact absent rfl (by simp [place, Waker.Pending])
  | wakerAcquire place => exact absent rfl (by simp [place, Waker.Pending])
  | wakerSet place => exact absent rfl (by simp [place, Waker.Pending])
  | wakeupBegin place =>
    apply elsewhere rfl
    rintro rfl
    rw [place] at pending
    exact .inl ⟨pending.symm, Nat.zero_le t⟩
  | exitBegin _ place => exact absent rfl (by simp [place, Waker.Pending])
  | exitSet place => exact absent rfl (by simp [place, Waker.Pending])
  | visitAwake place below awake =>
    exact passes rfl rfl (by simp [place, Waker.Pending]) fun registered => awake registered.2.2
  | visitAsleep place =>
    apply elsewhere rfl
    rintro rfl
    rw [place] at pending
    exact .inl pending
  | visitElsewhere place other =>
    exact passes rfl rfl (by simp [place, Waker.Pending]) fun registered => other registered.1
  | visitHere place =>
    apply elsewhere rfl
    rintro rfl
    rw [place] at pending
    exact .inl pending
  | visitWrite place =>
    refine passes rfl rfl (by simp [place, Waker.Pending]) fun registered => ?_
    simpa using registered.2.1
  | visitEnd place =>
    apply absent rfl
    rw [place]
    exact fun visits => absurd visits.2 (Nat.not_le_of_lt inside)
  | wakerDone place => exact absent rfl (by simp [place, Waker.Pending])
  | _ => exact .inl pending

def Shut (s : SleepSystem) (channel : Channel) : Prop :=
  ∀ t, s.channel t = channel → (s.place t).Window → s.holds channel = false

/-- The lock keeps everyone out of the window while the condition of an object is set. -/
theorem Shut.step {s s' : SleepSystem} {event : Event} {a : Nat} (tabled : s.Tabled)
    (locks : s.Locks lockOf) (shut : s.Shut (.object a)) (moved : Step lockOf s event s') :
    s'.Shut (.object a) := by
  intro t on window
  rcases window_step moved on window with ⟨wasOn, wasIn⟩ | ⟨-, stays⟩
  · by_contra holds
    rcases holds_step tabled moved (by simpa using holds) with before | ⟨w, -, holding⟩
    · rw [shut t wasOn wasIn] at before
      cases before
    · have byThread := locks (.thread t) (lockOf (.object a)) ⟨wasIn.locked, by rw [wasOn]⟩
      have byWaker := locks (.waker w) (lockOf (.object a)) ⟨a, holding a rfl, rfl⟩
      cases byThread.symm.trans byWaker
  · exact stays

/-- No one is about to sleep, and no one sleeps, on a condition that holds without a
waker to come. -/
structure Guarded (s : SleepSystem) (channel : Channel) : Prop where
  window : ∀ t < maxNumThreads, s.channel t = channel → (s.place t).Window →
    s.holds channel = false ∨ ∃ w, (s.waker w).Pending channel t
  registered : ∀ t < maxNumThreads, s.Registered t channel →
    s.holds channel = false ∨ ∃ w, (s.waker w).Pending channel t

/-- Channels stay guarded if no waker passes a thread in its window. -/
theorem Guarded.step {s s' : SleepSystem} {event : Event} {channel : Channel} (tabled : s.Tabled)
    (own : s.Own) (guarded : s.Guarded channel) (moved : Step lockOf s event s')
    (closed : ∀ t, event = .pass channel t → s.channel t = channel → (s.place t).Window →
      s.holds channel = false) : s'.Guarded channel where
  window := by
    intro t inside on window
    by_cases holds : s'.holds channel = true
    · right
      rcases holds_step tabled moved holds with before | ⟨w, pending, -⟩
      · rcases window_step moved on window with ⟨wasOn, wasIn⟩ | ⟨never, -⟩
        · rcases guarded.window t inside wasOn wasIn with never | ⟨w, pending⟩
          · cases before.symm.trans never
          · rcases pending_step inside moved pending with still | ⟨passed, -⟩
            · exact ⟨w, still⟩
            · cases before.symm.trans (closed t passed wasOn wasIn)
        · cases before.symm.trans never
      · exact ⟨w, pending t⟩
    · exact .inl (by simpa using holds)
  registered := by
    intro t inside registered
    by_cases holds : s'.holds channel = true
    · right
      rcases holds_step tabled moved holds with before | ⟨w, pending, -⟩
      · have was : s.holds channel = false ∨ ∃ w, (s.waker w).Pending channel t := by
          rcases registered_step tabled own moved registered with was | ⟨wasOn, wasIn⟩
          · exact guarded.registered t inside was
          · exact guarded.window t inside wasOn wasIn
        rcases was with never | ⟨w, pending⟩
        · cases before.symm.trans never
        · rcases pending_step inside moved pending with still | ⟨-, unregistered⟩
          · exact ⟨w, still⟩
          · exact absurd registered unregistered
      · exact ⟨w, pending t⟩
    · exact .inl (by simpa using holds)

/-- What every run keeps. -/
structure Inv (lockOf : Channel → Nat) (s : SleepSystem) : Prop where
  tabled : s.Tabled
  own : s.Own
  locks : s.Locks lockOf
  shut : ∀ a, s.Shut (.object a)
  objects : ∀ a, s.Guarded (.object a)

theorem Inv.step {s s' : SleepSystem} {event : Event} (inv : s.Inv lockOf)
    (moved : Step lockOf s event s') : s'.Inv lockOf where
  tabled := inv.tabled.step moved
  own := inv.own.step inv.tabled moved
  locks := inv.locks.step moved
  shut := fun a => (inv.shut a).step inv.tabled inv.locks moved
  objects := fun a => (inv.objects a).step inv.tabled inv.own moved fun t _ => inv.shut a t

theorem Start.guarded {s : SleepSystem} (start : s.Start) (channel : Channel) :
    s.Guarded channel where
  window := fun t _ _ window => by simp [start.outside t, Place.Window] at window
  registered := fun t _ registered => by
    obtain ⟨-, -, none⟩ := start.awake t
    rw [Registered, none] at registered
    cases registered.1

theorem Start.inv {s : SleepSystem} (start : s.Start) : s.Inv lockOf where
  tabled := ⟨start.scheduled, start.contexts⟩
  own := fun t => by simp [(start.awake t).2.2, start.outside t, Place.sleepChannel]
  locks := by
    intro agent l claim
    cases agent with
    | thread t => simp [Claims, start.outside t, Place.Locked] at claim
    | waker w => simp [Claims, start.idle w] at claim
  shut := fun a t _ window => by simp [start.outside t, Place.Window] at window
  objects := fun a => start.guarded (.object a)

end SleepSystem

end SwagOS.Kernel
