import SwagOS.Drivers.Ide

/-!
# The request queue

Requests pass through the queue in the order of their arrival: what has arrived is what
has completed, followed by what is pending, and the drive works on the first pending
request.  Each request belongs to one thread, which holds the sleeplock of its buffer, so
that no two pending requests are for one buffer.
-/

namespace SwagOS.Drivers

open SwagOS.Lib SwagOS.DataStructures SwagOS.Fs

def commandFor (b : Iobuf) (data : BlockData) : Command where
  device := b.dev % 2
  sector := b.blockno
  written := if b.dirty then some data else none

theorem idestart_ok {b : Iobuf} {data : BlockData} {command : Command}
    (started : idestart b data = .ok command) :
    b.blockno < fssize ∧ command = commandFor b data := by
  rw [idestart] at started
  split at started
  · cases started
  · next inside =>
    have below : b.blockno < fssize := Nat.lt_of_not_le inside
    refine ⟨below, ?_⟩
    cases started
    have sector : b.blockno % 2 ^ 8 + b.blockno / 2 ^ 8 % 2 ^ 8 * 2 ^ 8 +
        b.blockno / 2 ^ 16 % 2 ^ 8 * 2 ^ 16 + b.blockno / 2 ^ 24 % 2 ^ 4 * 2 ^ 24 = b.blockno := by
      rw [fssize] at below
      omega
    simp only [commandFor, sector]

theorem idestart_eq {b : Iobuf} (data : BlockData) (below : b.blockno < fssize) :
    idestart b data = .ok (commandFor b data) := by
  cases started : idestart b data with
  | ok command => rw [(idestart_ok started).2]
  | error halt =>
    rw [idestart, if_neg (Nat.not_le_of_lt below)] at started
    cases started

theorem IdePlace.In.functional {place : IdePlace} {b c q r : Nat} (first : place.In b q)
    (second : place.In c r) : b = c ∧ q = r := by
  cases place with
  | outside => cases first
  | entered a p => exact ⟨first.1.symm.trans second.1, first.2.symm.trans second.2⟩
  | waiting a p => exact ⟨first.1.symm.trans second.1, first.2.symm.trans second.2⟩

namespace IdeSystem

def command (s : IdeSystem) (r : Nat) : Command :=
  commandFor (s.buf (s.request r)) (s.data (s.request r))

theorem startRequest_ok {s s' : IdeSystem} {r : Nat} (done : s.startRequest r = .ok s') :
    (s.buf (s.request r)).blockno < fssize ∧
      s' = { s with drive := s.drive.start (s.command r), started := s.started ++ [r] } := by
  obtain ⟨command, started, ⟨⟩⟩ := Outcome.bind_ok.mp done
  obtain ⟨below, rfl⟩ := idestart_ok started
  exact ⟨below, rfl⟩

/-- The queue, the drive and the records of what happened. -/
structure Queued (s : IdeSystem) (pending : List Nat) : Prop where
  holds : s.queue.Holds pending
  count : s.queue.entryCount = 2 * pending.length
  arrived : s.arrived = s.completed ++ pending
  started : s.started = s.completed ++ pending.take 1
  executing : s.drive.executing = pending.head?.map s.command
  interrupt : s.drive.executing = none → s.drive.interrupt = none
  nodup : s.arrived.Nodup
  allocated : ∀ r ∈ s.arrived, r < s.queue.allocated

/-- The threads in `iderw` and their requests. -/
structure Served (s : IdeSystem) (pending : List Nat) : Prop where
  holder : ∀ t b r, (s.place t).In b r →
    b < nbuf ∧ (s.buf b).lock.holdingsleep t = true ∧ r < s.queue.allocated
  own : ∀ t u b c r, (s.place t).In b r → (s.place u).In c r → t = u
  entered : ∀ t b r, s.place t = .entered b r → r ∉ s.arrived ∧
    ¬((s.buf b).valid = true ∧ (s.buf b).dirty = false)
  waiting : ∀ t b r, s.place t = .waiting b r → r ∈ s.arrived ∧ s.request r = b ∧
    ((s.buf b).valid = true ∧ (s.buf b).dirty = false ↔ r ∈ s.completed)
  pending : ∀ r ∈ pending, ∃ t, s.place t = .waiting (s.request r) r

theorem holdingsleep_unique {lock : Sleeplock} {t u : Tid} (byT : lock.holdingsleep t = true)
    (byU : lock.holdingsleep u = true) : t = u := by
  simp only [Sleeplock.holdingsleep, Bool.and_eq_true, beq_iff_eq] at byT byU
  exact Fin.ext (byT.2.symm.trans byU.2)

theorem Served.thread {s : IdeSystem} {pending : List Nat} (served : s.Served pending)
    {t u : Tid} {b q r : Nat} (inT : (s.place t).In b q) (inU : (s.place u).In b r) : t = u :=
  holdingsleep_unique (served.holder t b q inT).2.1 (served.holder u b r inU).2.1

/-- Pending requests are for distinct buffers of the cache, so there are few of them. -/
theorem Served.short {s : IdeSystem} {pending : List Nat} (served : s.Served pending)
    (nodup : pending.Nodup) : pending.length ≤ nbuf := by
  have inside : ∀ b ∈ pending.map s.request, b ∈ List.range nbuf := by
    intro b member
    obtain ⟨r, isPending, rfl⟩ := List.mem_map.mp member
    obtain ⟨t, waits⟩ := served.pending r isPending
    exact List.mem_range.mpr (served.holder t _ r (by rw [waits]; exact ⟨rfl, rfl⟩)).1
  have distinct : (pending.map s.request).Nodup := by
    apply List.Nodup.map_on _ nodup
    intro q isPending r isPending' same
    obtain ⟨t, waitsT⟩ := served.pending q isPending
    obtain ⟨u, waitsU⟩ := served.pending r isPending'
    have inT : (s.place t).In (s.request q) q := by rw [waitsT]; exact ⟨rfl, rfl⟩
    have inU : (s.place u).In (s.request q) r := by rw [waitsU]; exact ⟨same.symm, rfl⟩
    obtain rfl := served.thread inT inU
    exact (IdePlace.In.functional inT inU).2
  have few := (List.subperm_of_subset distinct inside).length_le
  rwa [List.length_map, List.length_range] at few

def enqueue (s : IdeSystem) (pending : List Nat) (queue : Dll Nat) (b r : Nat) : IdeSystem :=
  { s with
    queue := queue
    arrived := s.arrived ++ [r]
    drive := if pending = [] then s.drive.start (commandFor (s.buf b) (s.data b)) else s.drive
    started := if pending = [] then s.started ++ [r] else s.started }

theorem iderw_effect {s s' : IdeSystem} {pending : List Nat} {b r : Nat}
    (queued : s.Queued pending) (fresh : r ∉ pending) (short : pending.length ≤ nbuf)
    (other : ∀ q ∈ pending, s.request q ≠ b) (done : s.iderw b r = .ok s') :
    ∃ queue : Dll Nat, queue.Holds (pending ++ [r]) ∧
      queue.entryCount = 2 * (pending ++ [r]).length ∧ queue.allocated = s.queue.allocated ∧
      (∀ q, (queue.records q).data = if q = r then b else s.request q) ∧
      s' = s.enqueue pending queue b r := by
  obtain ⟨filled, inserted, done⟩ := Outcome.bind_ok.mp done
  have holds : (s.queue.modify r fun _ => b).Holds pending := by
    apply Dll.Holds.congr _ _ _ queued.holds
    · rfl
    · rfl
    · intro j _
      exact ⟨Dll.modify_prev _ _ _ _, Dll.modify_next _ _ _ _⟩
  obtain ⟨queue, inserted', ring, count, allocated, data⟩ := holds.insertDllEntryTail fresh
  obtain rfl : queue = filled := Except.ok.inj (inserted'.symm.trans inserted)
  have requests : ∀ q, (queue.records q).data = if q = r then b else s.request q := by
    intro q
    rw [data, Dll.modify_data, request]
  have length : (pending ++ [r]).length = pending.length + 1 := by simp
  have counted : (queue.entryCount + 1) % 2 ^ 32 = 2 * (pending ++ [r]).length := by
    rw [count, length, show (s.queue.modify r fun _ => b).entryCount = s.queue.entryCount from rfl,
      queued.count]
    rw [nbuf] at short
    omega
  refine ⟨{ queue with entryCount := (queue.entryCount + 1) % 2 ^ 32 }, .inl ⟨ring.first,
    ring.last, ring.threads, ring.nodup⟩, counted, allocated, requests, ?_⟩
  have first := ring.first
  cases pending with
  | nil =>
    simp only [List.nil_append, Link.headOf_cons] at first
    simp only [first, request, requests, if_pos] at done
    obtain ⟨-, rfl⟩ := startRequest_ok done
    simp [enqueue, command, request, requests, first]
  | cons q rest =>
    have notNew : q ≠ r := by
      rintro rfl
      exact fresh List.mem_cons_self
    have notThis := other q List.mem_cons_self
    rw [request] at notThis
    simp only [List.cons_append, Link.headOf_cons] at first
    simp only [first, request, requests, if_neg notNew, if_neg notThis] at done
    obtain rfl := Outcome.pure_ok.mp done
    simp [enqueue, first]

def complete (s : IdeSystem) (b : Nat) : IdeSystem :=
  { s with
    buf := Function.update s.buf b { s.buf b with valid := true, dirty := false }
    data := if !(s.buf b).dirty && s.drive.idewait then
        Function.update s.data b s.drive.insl
      else s.data }

def dequeue (s : IdeSystem) (rest : List Nat) (queue : Dll Nat) (r : Nat) : IdeSystem :=
  { s.complete (s.request r) with
    queue := queue
    drive := match rest with
      | [] => { s.drive with executing := none, interrupt := none }
      | next :: _ => s.drive.start ((s.complete (s.request r)).command next)
    started := s.started ++ rest.take 1
    completed := s.completed ++ [r] }

theorem ideintr_effect {s s' : IdeSystem} {r : Nat} {rest : List Nat}
    (queued : s.Queued (r :: rest)) (short : rest.length ≤ nbuf) (done : s.ideintr = .ok s') :
    ∃ queue : Dll Nat, queue.Holds rest ∧ queue.entryCount = 2 * rest.length ∧
      queue.allocated = s.queue.allocated ∧
      (∀ q, (queue.records q).data = s.request q) ∧
      (∀ next more, rest = next :: more →
        ((s.complete (s.request r)).buf (s.request next)).blockno < fssize) ∧
      s' = s.dequeue rest queue r := by
  have count := queued.count
  rw [List.length_cons] at count
  have counted : s.queue.entryCount ≠ 0 := by omega
  obtain ⟨queue, removed, ring, left, allocated, data⟩ :=
    queued.holds.ring.removeDllEntryHead counted
  have counted' : (queue.entryCount + (2 ^ 32 - 1)) % 2 ^ 32 = 2 * rest.length := by
    rw [left, count]
    rw [nbuf] at short
    omega
  rw [ideintr, if_neg counted, removed] at done
  simp only [counted', data] at done
  refine ⟨{ queue with entryCount := 2 * rest.length }, .inl ⟨ring.first, ring.last,
    ring.threads, ring.nodup⟩, rfl, allocated, data, ?_⟩
  have first := ring.first
  cases rest with
  | nil =>
    rw [if_neg (by simp)] at done
    obtain rfl := Outcome.pure_ok.mp done
    refine ⟨by simp, ?_⟩
    simp [dequeue, complete, request]
  | cons next more =>
    rw [if_pos (by simp)] at done
    simp only [Link.headOf_cons] at first
    simp only [first] at done
    obtain ⟨below, rfl⟩ := startRequest_ok done
    simp only [request, data] at below
    refine ⟨?_, ?_⟩
    · rintro _ _ ⟨⟩
      exact below
    · simp [dequeue, complete, request, command, data, first, Drive.start]

@[simp] theorem goto_place_self (s : IdeSystem) (t : Tid) (place : IdePlace) :
    (s.goto t place).place t = place := Function.update_self ..

@[simp] theorem goto_place_other (s : IdeSystem) {t u : Tid} (place : IdePlace) (other : u ≠ t) :
    (s.goto t place).place u = s.place u := Function.update_of_ne other ..

theorem SameRequest.fields {a b : Iobuf} (same : SameRequest a b) :
    a.valid = b.valid ∧ a.dirty = b.dirty ∧ a.dev = b.dev ∧ a.blockno = b.blockno ∧
      a.lock = b.lock := by
  rw [SameRequest] at same
  rw [← same]
  exact ⟨rfl, rfl, rfl, rfl, rfl⟩

theorem SameRequest.command {a b : Iobuf} (same : SameRequest a b) (data : BlockData) :
    commandFor a data = commandFor b data := by
  rw [SameRequest] at same
  rw [← same]
  rfl

/-- Everything about the requests of a state. -/
structure Good (s : IdeSystem) (pending : List Nat) : Prop where
  queued : s.Queued pending
  served : s.Served pending

/-- The request at the head of the queue belongs to a thread. -/
theorem Served.inIderw {s : IdeSystem} {pending : List Nat} (served : s.Served pending) {r : Nat}
    (isPending : r ∈ pending) : s.InIderw (s.request r) := by
  obtain ⟨t, waits⟩ := served.pending r isPending
  exact ⟨t, r, by rw [waits]; exact ⟨rfl, rfl⟩⟩

theorem Good.use {s : IdeSystem} {pending : List Nat} (good : s.Good pending)
    {buf : Nat → Iobuf} {data : Nat → BlockData}
    (kept : ∀ b, s.InIderw b → SameRequest (buf b) (s.buf b) ∧ data b = s.data b) :
    { s with buf := buf, data := data }.Good pending := by
  obtain ⟨queued, served⟩ := good
  have commands : ∀ r ∈ pending, { s with buf := buf, data := data }.command r = s.command r := by
    intro r isPending
    obtain ⟨same, sameData⟩ := kept _ (served.inIderw isPending)
    calc commandFor (buf (s.request r)) (data (s.request r))
        = commandFor (s.buf (s.request r)) (data (s.request r)) := same.command _
      _ = s.command r := by rw [sameData, command]
  constructor
  · refine ⟨queued.holds, queued.count, queued.arrived, queued.started, ?_, queued.interrupt,
      queued.nodup, queued.allocated⟩
    rw [queued.executing]
    cases pending with
    | nil => rfl
    | cons r rest =>
      exact congrArg some (commands r List.mem_cons_self).symm
  · refine ⟨?_, served.own, ?_, ?_, served.pending⟩
    · intro t b r inside
      obtain ⟨below, holds, before⟩ := served.holder t b r inside
      obtain ⟨-, -, -, -, lock⟩ := (kept b ⟨t, r, inside⟩).1.fields
      exact ⟨below, lock ▸ holds, before⟩
    · intro t b r entered
      have inside : (s.place t).In b r := by rw [entered]; exact ⟨rfl, rfl⟩
      obtain ⟨valid, dirty, -⟩ := (kept b ⟨t, r, inside⟩).1.fields
      simp only [valid, dirty]
      exact served.entered t b r entered
    · intro t b r waits
      have inside : (s.place t).In b r := by rw [waits]; exact ⟨rfl, rfl⟩
      obtain ⟨valid, dirty, -⟩ := (kept b ⟨t, r, inside⟩).1.fields
      obtain ⟨member, isOwn, done⟩ := served.waiting t b r waits
      refine ⟨member, isOwn, ?_⟩
      simp only [valid, dirty]
      exact done

theorem Good.enter {s : IdeSystem} {pending : List Nat} (good : s.Good pending) {t : Tid} {b : Nat}
    (outside : s.place t = .outside) (below : b < nbuf)
    (holds : (s.buf b).lock.holdingsleep t = true)
    (needed : ¬((s.buf b).valid = true ∧ (s.buf b).dirty = false)) :
    ({ s with queue := s.queue.kalloc.2 }.goto t (.entered b s.queue.kalloc.1)).Good pending := by
  obtain ⟨queued, served⟩ := good
  have new : s.queue.kalloc.1 = s.queue.allocated := rfl
  constructor
  · refine ⟨?_, queued.count, queued.arrived, queued.started, queued.executing, queued.interrupt,
      queued.nodup, ?_⟩
    · apply Dll.Holds.congr _ _ _ queued.holds
      · rfl
      · rfl
      · intro i _
        exact ⟨rfl, rfl⟩
    · intro r member
      exact Nat.lt_succ_of_lt (queued.allocated r member)
  · refine ⟨?_, ?_, ?_, ?_, ?_⟩
    · intro u c r inside
      by_cases same : u = t
      · subst same
        rw [goto_place_self] at inside
        obtain ⟨rfl, rfl⟩ := inside
        exact ⟨below, holds, Nat.lt_succ_self _⟩
      · rw [goto_place_other _ _ same] at inside
        obtain ⟨belowC, holdsC, before⟩ := served.holder u c r inside
        exact ⟨belowC, holdsC, Nat.lt_succ_of_lt before⟩
    · intro u v c d r inU inV
      by_cases sameU : u = t
      · by_cases sameV : v = t
        · rw [sameU, sameV]
        · subst sameU
          rw [goto_place_self] at inU
          rw [goto_place_other _ _ sameV] at inV
          exact absurd (inU.2 ▸ (served.holder v d r inV).2.2) (lt_irrefl _)
      · rw [goto_place_other _ _ sameU] at inU
        by_cases sameV : v = t
        · subst sameV
          rw [goto_place_self] at inV
          exact absurd (inV.2 ▸ (served.holder u c r inU).2.2) (lt_irrefl _)
        · rw [goto_place_other _ _ sameV] at inV
          exact served.own u v c d r inU inV
    · intro u c r entered
      by_cases same : u = t
      · subst same
        rw [goto_place_self] at entered
        obtain ⟨rfl, rfl⟩ := IdePlace.entered.inj entered
        refine ⟨?_, needed⟩
        intro member
        exact lt_irrefl _ (queued.allocated _ member)
      · rw [goto_place_other _ _ same] at entered
        exact served.entered u c r entered
    · intro u c r waits
      by_cases same : u = t
      · subst same
        rw [goto_place_self] at waits
        cases waits
      · rw [goto_place_other _ _ same] at waits
        exact served.waiting u c r waits
    · intro r isPending
      obtain ⟨u, waits⟩ := served.pending r isPending
      refine ⟨u, ?_⟩
      rw [goto_place_other _ _ (by
        rintro rfl
        rw [outside] at waits
        cases waits)]
      exact waits

theorem Queued.nodup_pending {s : IdeSystem} {pending : List Nat} (queued : s.Queued pending) :
    pending.Nodup := by
  have nodup := queued.nodup
  rw [queued.arrived] at nodup
  exact (List.nodup_append.mp nodup).2.1

theorem Queued.mem_arrived {s : IdeSystem} {pending : List Nat} (queued : s.Queued pending)
    {r : Nat} : r ∈ s.arrived ↔ r ∈ s.completed ∨ r ∈ pending := by
  rw [queued.arrived]
  exact List.mem_append

/-- A thread about to enter the queue has another buffer than all that wait. -/
theorem Good.distinct {s : IdeSystem} {pending : List Nat} (good : s.Good pending) {t : Tid}
    {b r : Nat} (entered : s.place t = .entered b r) : ∀ q ∈ pending, s.request q ≠ b := by
  intro q isPending same
  obtain ⟨u, waits⟩ := good.served.pending q isPending
  have inT : (s.place t).In b r := by rw [entered]; exact ⟨rfl, rfl⟩
  have inU : (s.place u).In b q := by rw [waits]; exact ⟨same, rfl⟩
  obtain rfl := good.served.thread inT inU
  rw [entered] at waits
  cases waits

theorem Queued.enqueue {s : IdeSystem} {pending : List Nat} (queued : s.Queued pending)
    {queue : Dll Nat} {b r : Nat} (new : r ∉ s.arrived) (bound : r < s.queue.allocated)
    (holds : queue.Holds (pending ++ [r])) (count : queue.entryCount = 2 * (pending ++ [r]).length)
    (allocated : queue.allocated = s.queue.allocated)
    (requests : ∀ q, (queue.records q).data = if q = r then b else s.request q) :
    (s.enqueue pending queue b r).Queued (pending ++ [r]) := by
  have older : ∀ q ∈ pending, (queue.records q).data = s.request q := by
    intro q isPending
    rw [requests, if_neg]
    rintro rfl
    exact new (queued.mem_arrived.mpr (.inr isPending))
  refine ⟨holds, count, ?_, ?_, ?_, ?_, ?_, ?_⟩
  · simp [IdeSystem.enqueue, queued.arrived]
  · cases pending with
    | nil => simp [IdeSystem.enqueue, queued.started]
    | cons q rest => simp [IdeSystem.enqueue, queued.started]
  · cases pending with
    | nil => simp [IdeSystem.enqueue, Drive.start, command, request, requests]
    | cons q rest =>
      have first := older q List.mem_cons_self
      simp [IdeSystem.enqueue, queued.executing, command, request, first]
  · cases pending with
    | nil => simp [IdeSystem.enqueue, Drive.start]
    | cons q rest => simpa [IdeSystem.enqueue] using queued.interrupt
  · apply List.Nodup.append queued.nodup (List.nodup_singleton r)
    simp only [List.disjoint_singleton]
    exact new
  · intro q member
    simp only [IdeSystem.enqueue, allocated]
    rcases List.mem_append.mp member with isOld | isNew
    · exact queued.allocated q isOld
    · exact List.mem_singleton.mp isNew ▸ bound

theorem goto_in {s : IdeSystem} {t : Tid} {b r : Nat} (inT : (s.place t).In b r) {u : Tid}
    {c q : Nat} (inside : ((s.goto t (.waiting b r)).place u).In c q) : (s.place u).In c q := by
  by_cases same : u = t
  · subst same
    rw [goto_place_self] at inside
    obtain ⟨rfl, rfl⟩ := inside
    exact inT
  · rw [goto_place_other _ _ same] at inside
    exact inside

theorem Good.served_enqueue {s : IdeSystem} {pending : List Nat} (good : s.Good pending) {t : Tid}
    {queue : Dll Nat} {b r : Nat} (entered : s.place t = .entered b r)
    (allocated : queue.allocated = s.queue.allocated)
    (requests : ∀ q, (queue.records q).data = if q = r then b else s.request q) :
    ((s.enqueue pending queue b r).goto t (.waiting b r)).Served (pending ++ [r]) := by
  obtain ⟨queued, served⟩ := good
  obtain ⟨new, needed⟩ := served.entered t b r entered
  have inT : (s.place t).In b r := by rw [entered]; exact ⟨rfl, rfl⟩
  have older : ∀ q ∈ s.arrived, (queue.records q).data = s.request q := by
    intro q member
    rw [requests, if_neg]
    rintro rfl
    exact new member
  have before : ∀ u c q, (((s.enqueue pending queue b r).goto t (.waiting b r)).place u).In c q →
      (s.place u).In c q := fun u c q inside =>
    goto_in (s := s.enqueue pending queue b r) inT inside
  refine ⟨?_, ?_, ?_, ?_, ?_⟩
  · intro u c q inside
    obtain ⟨below, holds, bound⟩ := served.holder u c q (before u c q inside)
    exact ⟨below, holds, bound.trans_eq allocated.symm⟩
  · intro u v c d q inU inV
    exact served.own u v c d q (before u c q inU) (before v d q inV)
  · intro u c q enteredU
    by_cases same : u = t
    · subst same
      rw [goto_place_self] at enteredU
      cases enteredU
    · rw [goto_place_other _ _ same] at enteredU
      obtain ⟨notYet, neededU⟩ := served.entered u c q enteredU
      refine ⟨?_, neededU⟩
      intro member
      rcases List.mem_append.mp member with isOld | isNew
      · exact notYet isOld
      · obtain rfl := List.mem_singleton.mp isNew
        apply same
        apply served.own u t c b q _ inT
        have placeU : s.place u = .entered c q := enteredU
        rw [placeU]
        exact ⟨rfl, rfl⟩
  · intro u c q waits
    by_cases same : u = t
    · subst same
      rw [goto_place_self] at waits
      obtain ⟨rfl, rfl⟩ := IdePlace.waiting.inj waits
      refine ⟨?_, ?_, iff_of_false needed ?_⟩
      · simp [enqueue, goto]
      · simp [enqueue, goto, request, requests]
      · intro isDone
        exact new (queued.mem_arrived.mpr (.inl isDone))
    · rw [goto_place_other _ _ same] at waits
      obtain ⟨member, isOwn, flags⟩ := served.waiting u c q waits
      exact ⟨List.mem_append_left [r] member, (older q member).trans isOwn, flags⟩
  · intro q isPending
    rcases List.mem_append.mp isPending with isOld | isNew
    · obtain ⟨u, waits⟩ := served.pending q isOld
      have other : u ≠ t := by
        rintro rfl
        rw [entered] at waits
        cases waits
      refine ⟨u, ?_⟩
      rw [goto_place_other _ _ other]
      simp only [goto, enqueue, request, older q (queued.mem_arrived.mpr (.inr isOld))]
      exact waits
    · obtain rfl := List.mem_singleton.mp isNew
      exact ⟨t, by simp [enqueue, goto, request, requests]⟩

theorem Good.iderw {s s' : IdeSystem} {pending : List Nat} (good : s.Good pending) {t : Tid}
    {b r : Nat} (entered : s.place t = .entered b r) (done : s.iderw b r = .ok s') :
    ∃ queue, s' = s.enqueue pending queue b r ∧ (s'.goto t (.waiting b r)).Good (pending ++ [r]) := by
  have new := (good.served.entered t b r entered).1
  have fresh : r ∉ pending := fun isPending => new (good.queued.mem_arrived.mpr (.inr isPending))
  have bound := (good.served.holder t b r (by rw [entered]; exact ⟨rfl, rfl⟩)).2.2
  obtain ⟨queue, holds, count, allocated, requests, rfl⟩ := iderw_effect good.queued fresh
    (good.served.short good.queued.nodup_pending) (good.distinct entered) done
  obtain ⟨holds', count', arrived, started, executing, interrupt, nodup, all⟩ :=
    good.queued.enqueue new bound holds count allocated requests
  exact ⟨queue, rfl, ⟨holds', count', arrived, started, executing, interrupt, nodup, all⟩,
    good.served_enqueue entered allocated requests⟩

theorem Good.finish {s : IdeSystem} {pending : List Nat} (good : s.Good pending)
    {command : Command} (executing : s.drive.executing = some command)
    (disk : Nat → Nat → BlockData) (error : Bool) :
    { s with drive := { s.drive with disk := disk, interrupt := some error } }.Good pending := by
  obtain ⟨queued, served⟩ := good
  constructor
  · refine ⟨queued.holds, queued.count, queued.arrived, queued.started, queued.executing, ?_,
      queued.nodup, queued.allocated⟩
    intro idle
    rw [executing] at idle
    cases idle
  · exact ⟨served.holder, served.own, served.entered, served.waiting, served.pending⟩

theorem Queued.not_pending {s : IdeSystem} {pending : List Nat} (queued : s.Queued pending)
    {r : Nat} (isDone : r ∈ s.completed) : r ∉ pending := by
  have nodup := queued.nodup
  rw [queued.arrived] at nodup
  exact List.disjoint_of_nodup_append nodup isDone

theorem Good.leave {s : IdeSystem} {pending : List Nat} (good : s.Good pending) {t : Tid}
    {b r : Nat} (waits : s.place t = .waiting b r) (valid : (s.buf b).valid = true)
    (clean : (s.buf b).dirty = false) : (s.goto t .outside).Good pending := by
  obtain ⟨queued, served⟩ := good
  have isDone := (served.waiting t b r waits).2.2.mp ⟨valid, clean⟩
  have before : ∀ {u : Tid} {place : IdePlace}, (s.goto t .outside).place u = place →
      place ≠ .outside → s.place u = place := by
    intro u place there inside
    by_cases same : u = t
    · subst same
      rw [goto_place_self] at there
      exact absurd there.symm inside
    · rwa [goto_place_other _ _ same] at there
  have beforeIn : ∀ {u : Tid} {c q : Nat}, ((s.goto t .outside).place u).In c q →
      (s.place u).In c q := by
    intro u c q inside
    rw [before rfl]
    · exact inside
    · intro gone
      rw [gone] at inside
      cases inside
  constructor
  · exact ⟨queued.holds, queued.count, queued.arrived, queued.started, queued.executing,
      queued.interrupt, queued.nodup, queued.allocated⟩
  · refine ⟨?_, ?_, ?_, ?_, ?_⟩
    · intro u c q inside
      exact served.holder u c q (beforeIn inside)
    · intro u v c d q inU inV
      exact served.own u v c d q (beforeIn inU) (beforeIn inV)
    · intro u c q entered
      exact served.entered u c q (before entered (by simp))
    · intro u c q waitsU
      exact served.waiting u c q (before waitsU (by simp))
    · intro q isPending
      obtain ⟨u, waitsU⟩ := served.pending q isPending
      refine ⟨u, ?_⟩
      rw [goto_place_other]
      · exact waitsU
      · rintro rfl
        rw [waits] at waitsU
        obtain ⟨-, rfl⟩ := IdePlace.waiting.inj waitsU
        exact queued.not_pending isDone isPending

theorem Queued.dequeue {s : IdeSystem} {r : Nat} {rest : List Nat}
    (queued : s.Queued (r :: rest)) {queue : Dll Nat} (holds : queue.Holds rest)
    (count : queue.entryCount = 2 * rest.length) (allocated : queue.allocated = s.queue.allocated)
    (requests : ∀ q, (queue.records q).data = s.request q) :
    (s.dequeue rest queue r).Queued rest := by
  refine ⟨holds, count, ?_, ?_, ?_, ?_, queued.nodup, ?_⟩
  · simp [IdeSystem.dequeue, complete, queued.arrived]
  · simp [IdeSystem.dequeue, queued.started]
  · cases rest with
    | nil => rfl
    | cons next more =>
      have same : (s.dequeue (next :: more) queue r).request next = s.request next :=
        requests next
      have sameCommand : (s.dequeue (next :: more) queue r).command next =
          (s.complete (s.request r)).command next := by
        rw [command, same]
        rfl
      exact congrArg some sameCommand.symm
  · cases rest with
    | nil => exact fun _ => rfl
    | cons next more => exact fun idle => by cases idle
  · intro q member
    simp only [IdeSystem.dequeue, allocated]
    exact queued.allocated q member

theorem Good.complete_other {s : IdeSystem} {r : Nat} {rest : List Nat}
    (good : s.Good (r :: rest)) {t : Tid} {c q : Nat} (inside : (s.place t).In c q)
    (other : q ≠ r) : c ≠ s.request r := by
  rintro rfl
  obtain ⟨u, waits⟩ := good.served.pending r List.mem_cons_self
  have inU : (s.place u).In (s.request r) r := by rw [waits]; exact ⟨rfl, rfl⟩
  obtain rfl := good.served.thread inside inU
  exact other (IdePlace.In.functional inside inU).2

theorem Good.served_dequeue {s : IdeSystem} {r : Nat} {rest : List Nat}
    (good : s.Good (r :: rest)) {queue : Dll Nat} (allocated : queue.allocated = s.queue.allocated)
    (requests : ∀ q, (queue.records q).data = s.request q) :
    (s.dequeue rest queue r).Served rest := by
  have other := fun {t c q} inside => good.complete_other (t := t) (c := c) (q := q) inside
  obtain ⟨queued, served⟩ := good
  have isFirst : r ∈ s.arrived := queued.mem_arrived.mpr (.inr List.mem_cons_self)
  have bufOther : ∀ c ≠ s.request r, (s.dequeue rest queue r).buf c = s.buf c := by
    intro c isOther
    exact Function.update_of_ne isOther ..
  refine ⟨?_, served.own, ?_, ?_, ?_⟩
  · intro t c q inside
    obtain ⟨below, holds, bound⟩ := served.holder t c q inside
    refine ⟨below, ?_, bound.trans_eq allocated.symm⟩
    by_cases same : c = s.request r
    · subst same
      simp only [IdeSystem.dequeue, complete, Function.update_self]
      exact holds
    · rw [bufOther c same]
      exact holds
  · intro t c q entered
    have placeT : s.place t = .entered c q := entered
    obtain ⟨new, needed⟩ := served.entered t c q placeT
    refine ⟨new, ?_⟩
    rw [bufOther c]
    · exact needed
    · apply other (t := t) (q := q)
      · rw [placeT]
        exact ⟨rfl, rfl⟩
      · rintro rfl
        exact new isFirst
  · intro t c q waits
    have placeT : s.place t = .waiting c q := waits
    obtain ⟨member, isOwn, flags⟩ := served.waiting t c q placeT
    refine ⟨member, (requests q).trans isOwn, ?_⟩
    by_cases same : q = r
    · subst same
      rw [← isOwn]
      apply iff_of_true
      · simp [IdeSystem.dequeue, complete]
      · simp [IdeSystem.dequeue]
    · rw [bufOther c]
      · rw [flags]
        simp [IdeSystem.dequeue, same]
      · apply other (t := t) (q := q) _ same
        rw [placeT]
        exact ⟨rfl, rfl⟩
  · intro q isPending
    obtain ⟨t, waits⟩ := served.pending q (List.mem_cons_of_mem r isPending)
    refine ⟨t, ?_⟩
    simp only [IdeSystem.dequeue, request, requests]
    exact waits

theorem Good.ideintr {s s' : IdeSystem} {r : Nat} {rest : List Nat} (good : s.Good (r :: rest))
    (done : s.ideintr = .ok s') : ∃ queue, s' = s.dequeue rest queue r ∧ s'.Good rest := by
  have short := good.served.short good.queued.nodup_pending
  rw [List.length_cons] at short
  obtain ⟨queue, holds, count, allocated, requests, -, rfl⟩ :=
    ideintr_effect good.queued (Nat.le_of_succ_le short) done
  exact ⟨queue, rfl, good.queued.dequeue holds count allocated requests,
    good.served_dequeue allocated requests⟩

def Moves (s s' : IdeSystem) : Prop := ∃ event, s.Step event s'

theorem Step.moves {s s' : IdeSystem} {event : Event} (moved : s.Step event s') : Moves s s' :=
  ⟨event, moved⟩

theorem Start.good {s : IdeSystem} (start : s.Start) : s.Good [] := by
  obtain ⟨records, empty⟩ := start.queue
  constructor
  · refine ⟨?_, ?_, ?_, ?_, start.idle.1, fun _ => start.idle.2, ?_, ?_⟩
    · rw [empty]
      exact Dll.holds_empty records
    · rw [empty]
      rfl
    · rw [start.arrived, start.completed, List.append_nil]
    · rw [start.started, start.completed, List.take_nil, List.append_nil]
    · rw [start.arrived]
      exact List.nodup_nil
    · intro r member
      rw [start.arrived] at member
      cases member
  · refine ⟨?_, ?_, ?_, ?_, ?_⟩
    · intro t b r inside
      rw [start.outside t] at inside
      cases inside
    · intro t u b c r inT
      rw [start.outside t] at inT
      cases inT
    · intro t b r entered
      rw [start.outside t] at entered
      cases entered
    · intro t b r waits
      rw [start.outside t] at waits
      cases waits
    · intro r isPending
      cases isPending

/-- An interrupt is raised for the first pending request. -/
theorem Queued.interrupted {s : IdeSystem} {pending : List Nat} (queued : s.Queued pending)
    {error : Bool} (raised : s.drive.interrupt = some error) : ∃ r rest, pending = r :: rest := by
  cases pending with
  | nil =>
    rw [queued.interrupt queued.executing] at raised
    cases raised
  | cons r rest => exact ⟨r, rest, rfl⟩

theorem Good.step {s s' : IdeSystem} {pending : List Nat} (good : s.Good pending)
    (moved : s.Moves s') : ∃ pending', s'.Good pending' := by
  obtain ⟨event, moved⟩ := moved
  cases moved with
  | use buf data kept => exact ⟨pending, good.use kept⟩
  | enter outside below holds needed _ => exact ⟨pending, good.enter outside below holds needed⟩
  | iderw entered done =>
    obtain ⟨_, -, after⟩ := good.iderw entered done
    exact ⟨_, after⟩
  | finish executing _ _ => exact ⟨pending, good.finish executing _ _⟩
  | ideintr raised done =>
    obtain ⟨r, rest, rfl⟩ := good.queued.interrupted raised
    obtain ⟨_, -, after⟩ := good.ideintr done
    exact ⟨rest, after⟩
  | leave waits valid clean => exact ⟨pending, good.leave waits valid clean⟩

theorem good_of_reachable {s : IdeSystem} (reached : Reachable Start Moves s) :
    ∃ pending, s.Good pending := by
  apply Reachable.invariant _ _ reached
  · intro start started
    exact ⟨[], started.good⟩
  · rintro before after ⟨pending, good⟩ moved
    exact good.step moved

/-- The handler does not panic while the blocks of all requests are on the disk. -/
theorem Good.ideintr_total {s : IdeSystem} {r : Nat} {rest : List Nat} (good : s.Good (r :: rest))
    (inside : ∀ q ∈ rest, (s.buf (s.request q)).blockno < fssize) : ∃ s', s.ideintr = .ok s' := by
  have queued := good.queued
  have count := queued.count
  rw [List.length_cons] at count
  have short := good.served.short queued.nodup_pending
  rw [List.length_cons, nbuf] at short
  have counted : s.queue.entryCount ≠ 0 := by omega
  obtain ⟨queue, removed, ring, left, -, data⟩ := queued.holds.ring.removeDllEntryHead counted
  have counted' : (queue.entryCount + (2 ^ 32 - 1)) % 2 ^ 32 = 2 * rest.length := by
    rw [left, count]
    omega
  rw [IdeSystem.ideintr, if_neg counted, removed]
  simp only [counted', data]
  cases rest with
  | nil => exact ⟨_, rfl⟩
  | cons next more =>
    have first := ring.first
    simp only [Link.headOf_cons] at first
    have below : ((s.complete (s.request r)).buf (s.request next)).blockno < fssize := by
      have old := inside next List.mem_cons_self
      by_cases same : s.request next = s.request r
      · rw [same] at old ⊢
        simpa [complete] using old
      · simpa [complete, same] using old
    rw [if_pos (by simp)]
    simp only [complete, request] at below
    simp only [first, startRequest, request, data]
    rw [idestart_eq _ below]
    exact ⟨_, rfl⟩

theorem Good.iderw_total {s : IdeSystem} {pending : List Nat} (good : s.Good pending) {t : Tid}
    {b r : Nat} (entered : s.place t = .entered b r) (inside : (s.buf b).blockno < fssize) :
    ∃ s', s.iderw b r = .ok s' := by
  have new := (good.served.entered t b r entered).1
  have fresh : r ∉ pending := fun isPending => new (good.queued.mem_arrived.mpr (.inr isPending))
  have holds : (s.queue.modify r fun _ => b).Holds pending := by
    apply Dll.Holds.congr _ _ _ good.queued.holds
    · rfl
    · rfl
    · intro j _
      exact ⟨Dll.modify_prev _ _ _ _, Dll.modify_next _ _ _ _⟩
  obtain ⟨queue, inserted, ring, -, -, data⟩ := holds.insertDllEntryTail fresh
  have requests : ∀ q, (queue.records q).data = if q = r then b else s.request q := by
    intro q
    rw [data, Dll.modify_data, request]
  have first := ring.first
  rw [IdeSystem.iderw, inserted]
  cases pending with
  | nil =>
    simp only [List.nil_append, Link.headOf_cons] at first
    simp only [bind, Except.bind, first, request, requests, if_pos]
    simp only [startRequest, request, requests, if_pos]
    rw [idestart_eq _ inside]
    exact ⟨_, rfl⟩
  | cons q rest =>
    have notNew : q ≠ r := by
      rintro rfl
      exact fresh List.mem_cons_self
    have notThis := good.distinct entered q List.mem_cons_self
    rw [request] at notThis
    simp only [List.cons_append, Link.headOf_cons] at first
    simp only [bind, Except.bind, first, request, requests, if_neg notNew, if_neg notThis]
    exact ⟨_, rfl⟩

theorem finishes (disk : Nat → Nat → BlockData) (command : Command) :
    ∃ disk', Finished disk command false disk' := by
  cases written : command.written with
  | none => exact ⟨disk, .read false written⟩
  | some data => exact ⟨_, .write data written⟩

/-- Once the drive has finished its command, the handler completes the first request. -/
theorem Good.advance {s : IdeSystem} {r : Nat} {rest : List Nat} (good : s.Good (r :: rest))
    (inside : ∀ q ∈ rest, (s.buf (s.request q)).blockno < fssize) :
    ∃ s', Relation.ReflTransGen Moves s s' ∧ s'.Good rest ∧ s'.arrived = s.arrived ∧
      ∀ q, (s'.buf (s'.request q)).blockno = (s.buf (s.request q)).blockno := by
  have completes : ∀ {s₁ : IdeSystem}, s₁.Good (r :: rest) → s₁.buf = s.buf →
      s₁.queue = s.queue → s₁.arrived = s.arrived → (∃ error, s₁.drive.interrupt = some error) →
      ∃ s', s₁.Moves s' ∧ s'.Good rest ∧ s'.arrived = s.arrived ∧
        ∀ q, (s'.buf (s'.request q)).blockno = (s.buf (s.request q)).blockno := by
    intro s₁ good₁ sameBuf sameQueue sameArrived raised
    obtain ⟨error, raised⟩ := raised
    have sameRequest : ∀ q, s₁.request q = s.request q := by
      intro q
      rw [request, sameQueue, request]
    obtain ⟨s', done⟩ := good₁.ideintr_total (by
      intro q isPending
      rw [sameBuf, sameRequest]
      exact inside q isPending)
    have short := good₁.served.short good₁.queued.nodup_pending
    rw [List.length_cons] at short
    obtain ⟨queue, -, -, -, requests, -, rfl⟩ :=
      ideintr_effect good₁.queued (Nat.le_of_succ_le short) done
    obtain ⟨_, -, after⟩ := good₁.ideintr done
    refine ⟨_, ⟨.ideintr, .ideintr raised done⟩, after, sameArrived, ?_⟩
    intro q
    have requestQ : (s₁.dequeue rest queue r).request q = s.request q :=
      (requests q).trans (sameRequest q)
    rw [requestQ]
    by_cases same : s.request q = s₁.request r
    · simp [dequeue, complete, same, sameBuf]
    · simp [dequeue, complete, same, sameBuf]
  cases raised : s.drive.interrupt with
  | some error =>
    obtain ⟨s', moved, after⟩ := completes good rfl rfl rfl ⟨error, raised⟩
    exact ⟨s', .single moved, after⟩
  | none =>
    obtain ⟨disk, finished⟩ := finishes s.drive.disk (s.command r)
    have executing : s.drive.executing = some (s.command r) := good.queued.executing
    obtain ⟨s', moved, after⟩ :=
      completes (good.finish executing disk false) rfl rfl rfl ⟨false, rfl⟩
    exact ⟨s', .head ⟨.other, .finish executing raised finished⟩ (.single moved), after⟩

theorem Good.drain {s : IdeSystem} {pending : List Nat} (good : s.Good pending)
    (inside : ∀ r ∈ pending, (s.buf (s.request r)).blockno < fssize) :
    ∃ s', Relation.ReflTransGen Moves s s' ∧ s'.completed = s.arrived := by
  induction pending generalizing s with
  | nil =>
    refine ⟨s, .refl, ?_⟩
    rw [good.queued.arrived, List.append_nil]
  | cons r rest inductionHypothesis =>
    obtain ⟨s₁, run, good₁, arrived, blocks⟩ := good.advance fun q isPending =>
      inside q (List.mem_cons_of_mem r isPending)
    obtain ⟨s', more, done⟩ := inductionHypothesis good₁ fun q isPending => by
      rw [blocks]
      exact inside q (List.mem_cons_of_mem r isPending)
    exact ⟨s', run.trans more, done.trans arrived⟩

/-- An interrupt completes the first request, with the flags and the data going to its
buffer. -/
theorem Good.completion {s s' : IdeSystem} {pending : List Nat} (good : s.Good pending)
    (moved : s.Step .ideintr s') : ∃ r rest, pending = r :: rest ∧
      s'.completed = s.completed ++ [r] ∧
      s'.buf = Function.update s.buf (s.request r)
        { s.buf (s.request r) with valid := true, dirty := false } ∧
      s'.data = Function.update s.data (s.request r)
        (if (s.buf (s.request r)).dirty = false ∧ s.drive.interrupt = some false then
          s.drive.disk ((s.buf (s.request r)).dev % 2) (s.buf (s.request r)).blockno
        else s.data (s.request r)) := by
  cases moved with
  | ideintr raised done =>
    rename_i error
    obtain ⟨r, rest, rfl⟩ := good.queued.interrupted raised
    obtain ⟨queue, rfl, -⟩ := good.ideintr done
    refine ⟨r, rest, rfl, rfl, rfl, ?_⟩
    have read : s.drive.insl =
        s.drive.disk ((s.buf (s.request r)).dev % 2) (s.buf (s.request r)).blockno := by
      rw [Drive.insl, good.queued.executing]
      rfl
    have status : s.drive.idewait = true ↔ s.drive.interrupt = some false := by
      rw [Drive.idewait, raised]
      cases error with
      | false => simp
      | true => simp
    simp only [dequeue, complete, read]
    by_cases transferred : (s.buf (s.request r)).dirty = false ∧ s.drive.interrupt = some false
    · rw [if_pos transferred, if_pos]
      rw [transferred.1, status.mpr transferred.2]
      rfl
    · rw [if_neg transferred, Function.update_eq_self, if_neg]
      intro both
      apply transferred
      simp only [Bool.and_eq_true, Bool.not_eq_true'] at both
      exact ⟨both.1, status.mp both.2⟩

/-- The requests of all runs: those that have arrived are those that have completed and
those in the queue, in this order; the drive works on the first of the queue; each request
completes once, into its own buffer; and all of them complete if their blocks are on the
disk. -/
theorem requests_complete_in_order {s : IdeSystem} (reached : Reachable Start Moves s) :
    ∃ pending, s.queue.Holds pending ∧ s.queue.entryCount = 2 * pending.length ∧
      s.drive.executing = pending.head?.map s.command ∧
      s.arrived.Nodup ∧ s.arrived = s.completed ++ pending ∧
      s.started = s.completed ++ pending.take 1 ∧
      (∀ t b r, s.place t = .waiting b r → r ∈ s.arrived ∧ s.request r = b ∧
        ((s.buf b).valid = true ∧ (s.buf b).dirty = false ↔ r ∈ s.completed)) ∧
      (∀ r ∈ pending, ∃ t, s.place t = .waiting (s.request r) r) ∧
      (∀ s', s.Step .ideintr s' → ∃ r rest, pending = r :: rest ∧
        s'.completed = s.completed ++ [r] ∧
        s'.buf = Function.update s.buf (s.request r)
          { s.buf (s.request r) with valid := true, dirty := false } ∧
        s'.data = Function.update s.data (s.request r)
          (if (s.buf (s.request r)).dirty = false ∧ s.drive.interrupt = some false then
            s.drive.disk ((s.buf (s.request r)).dev % 2) (s.buf (s.request r)).blockno
          else s.data (s.request r))) ∧
      ((∀ r ∈ pending, (s.buf (s.request r)).blockno < fssize) →
        (s.drive.interrupt ≠ none → ∃ s', s.Step .ideintr s') ∧
        (∀ t b r, s.place t = .entered b r → (s.buf b).blockno < fssize →
          ∃ s', s.iderw b r = .ok s') ∧
        ∃ s', Relation.ReflTransGen Moves s s' ∧ s'.completed = s.arrived) := by
  obtain ⟨pending, good⟩ := good_of_reachable reached
  obtain ⟨queued, served⟩ := good
  refine ⟨pending, queued.holds, queued.count, queued.executing, queued.nodup, queued.arrived,
    queued.started, served.waiting, served.pending, ?_, ?_⟩
  · intro s' moved
    exact Good.completion ⟨queued, served⟩ moved
  · intro inside
    refine ⟨?_, ?_, Good.drain ⟨queued, served⟩ inside⟩
    · intro raised
      obtain ⟨error, raised⟩ := Option.ne_none_iff_exists'.mp raised
      obtain ⟨r, rest, rfl⟩ := queued.interrupted raised
      obtain ⟨s', done⟩ := Good.ideintr_total ⟨queued, served⟩ fun q isPending =>
        inside q (List.mem_cons_of_mem r isPending)
      exact ⟨s', .ideintr raised done⟩
    · intro t b r entered below
      exact Good.iderw_total ⟨queued, served⟩ entered below

/-- Two threads are about to read their buffers. -/
def twoReaders : IdeSystem where
  buf := fun b => ⟨false, false, 0, 5 + b, ⟨true, b⟩, 1⟩
  data := fun _ _ => 0
  queue := .empty fun _ => ⟨.null, .null, 0⟩
  drive := ⟨fun _ _ _ => 0, none, none⟩
  disk1 := false
  place := fun _ => .outside
  arrived := []
  started := []
  completed := []

theorem twoReaders_start : twoReaders.Start := ⟨⟨_, rfl⟩, ⟨rfl, rfl⟩, fun _ => rfl, rfl, rfl, rfl⟩

/-- Both requests are in the queue. -/
theorem requests_complete_in_order_twoReaders : ∃ s : IdeSystem, s.place 0 = .waiting 0 0 ∧
    s.place 1 = .waiting 1 1 ∧ s.queue.entryCount = 4 ∧
    ∃ pending, s.queue.entryCount = 2 * pending.length ∧ s.arrived = s.completed ++ pending ∧
      s.drive.executing = pending.head?.map s.command := by
  have entered := (Reachable.base twoReaders_start).next
    (Step.moves (@Step.enter _ 0 0 rfl (by decide) (by decide) (by decide) (.inl rfl)))
  have waiting := entered.next (Step.moves (@Step.iderw _ _ 0 0 0 rfl rfl))
  have entered' := waiting.next
    (Step.moves (@Step.enter _ 1 1 rfl (by decide) (by decide) (by decide) (.inl rfl)))
  have both := entered'.next (Step.moves (@Step.iderw _ _ 1 1 1 rfl rfl))
  obtain ⟨pending, -, count, executing, -, arrived, -⟩ := requests_complete_in_order both
  exact ⟨_, rfl, rfl, rfl, pending, count, arrived, executing⟩

end IdeSystem

end SwagOS.Drivers
