import SwagOS.Fs.CachedDisk

/-!
# Valid buffers

A buffer that is valid, or that `bwrite` is writing, has the latest contents of its block.
The handler of the driver breaks this when a read fails: it sets `B_VALID` all the same.
-/

namespace SwagOS.Fs.CachedDisk

open SwagOS.Lib SwagOS.Drivers

def InBread (place : Place) (b : Nat) : Prop :=
  place = .acquiring b ∨ place = .checking b ∨ place = .waiting b

/-- The places with a buffer of which `iderw` may be called. -/
def Busy (place : Place) (b : Nat) : Prop := InBread place b ∨ place = .marking b

/-- The cache, the driver and the threads agree. -/
structure Linked (s : CachedDisk) : Prop where
  cache : s.cache.Inv
  ide : ∃ pending, s.ide.Good pending
  waiting : ∀ t b, s.place t = .waiting b ↔ ∃ r, (s.ide.place t).In b r
  below : ∀ t b, Busy (s.place t) b → b < nbuf
  reading : ∀ t dev blockno, s.reading t = some (dev, blockno) →
    ∃ b, InBread (s.place t) b ∧ (s.ide.buf b).holdsBlock dev blockno = true

/-- A thread that is through with `acquire_Sleeplock` owns the buffer. -/
theorem Linked.owns {s : CachedDisk} (linked : s.Linked) {t : Tid} {b : Nat}
    (uses : Bcache.Place.Using (s.place t) b) :
    (s.ide.buf b).lock.holdingsleep t = true ∧ 0 < (s.ide.buf b).refcnt := by
  have placed := linked.cache.placed t
  have held := placed.using_ b uses
  exact ⟨(placed.held b).mp held, linked.cache.referenced held⟩

/-- A buffer in `iderw` is owned by the thread that waits for it. -/
theorem Linked.inIderw {s : CachedDisk} (linked : s.Linked) {b : Nat} (inside : s.ide.InIderw b) :
    ∃ t, s.place t = .waiting b ∧ (s.ide.buf b).lock.holdingsleep t = true ∧
      0 < (s.ide.buf b).refcnt := by
  obtain ⟨t, r, inT⟩ := inside
  have waits := (linked.waiting t b).mpr ⟨r, inT⟩
  refine ⟨t, waits, linked.owns ?_⟩
  rw [waits]
  rfl

/-- A thread that owns a buffer and does not wait for it: the buffer is not in `iderw`. -/
theorem Linked.not_inIderw {s : CachedDisk} (linked : s.Linked) {t : Tid} {b : Nat}
    (owns : (s.ide.buf b).lock.holdingsleep t = true) (elsewhere : s.place t ≠ .waiting b) :
    ¬s.ide.InIderw b := by
  intro inside
  obtain ⟨u, waits, owner, -⟩ := linked.inIderw inside
  obtain rfl := IdeSystem.holdingsleep_unique owns owner
  exact elsewhere waits

theorem kept_update {s : CachedDisk} {b : Nat} (outside : ¬s.ide.InIderw b) (new : Iobuf) :
    ∀ c, s.ide.InIderw c →
      IdeSystem.SameRequest (Function.update s.ide.buf b new c) (s.ide.buf c) := by
  intro c inside
  rw [Function.update_of_ne]
  · rfl
  · rintro rfl
    exact outside inside

theorem kept_refcnt (s : CachedDisk) (b refcnt : Nat) : ∀ c, s.ide.InIderw c →
    IdeSystem.SameRequest
      (Function.update s.ide.buf b { s.ide.buf b with refcnt := refcnt } c) (s.ide.buf c) := by
  intro c _
  by_cases same : c = b
  · subst same
    rw [Function.update_self]
    rfl
  · rw [Function.update_of_ne same]
    rfl

theorem Linked.reading_kept {s s' : CachedDisk} (linked : s.Linked)
    (moved : Bcache.Step s.cache s'.cache) {t : Tid} {b dev blockno : Nat}
    (place : InBread (s.place t) b)
    (keyed : (s.ide.buf b).holdsBlock dev blockno = true) :
    (s'.ide.buf b).holdsBlock dev blockno = true := by
  have used : 0 < (s.cache.buf b).refcnt := by
    have selected := Bcache.selections_le (s := s.cache) t b
    rw [(linked.cache.placed t).selections b, ← linked.cache.cached.counted b] at selected
    apply Nat.lt_of_lt_of_le _ selected
    rcases place with acquiring | checking | waits
    · have passing : Bcache.Place.Passing (s.cache.place t) b := by
        rw [show s.cache.place t = .acquiring b from acquiring]
        rfl
      rw [Bcache.tally, if_pos passing]
      omega
    · have held : b ∈ s.cache.held t := by
        apply (linked.cache.placed t).using_ b
        rw [show s.cache.place t = .checking b from checking]
        rfl
      rw [Bcache.tally, if_pos held]
      omega
    · have held : b ∈ s.cache.held t := by
        apply (linked.cache.placed t).using_ b
        rw [show s.cache.place t = .waiting b from waits]
        rfl
      rw [Bcache.tally, if_pos held]
      omega
  obtain ⟨sameDev, sameBlock⟩ := moved.kept used
  rw [Iobuf.holdsBlock_iff] at keyed ⊢
  exact ⟨sameDev.trans keyed.1, sameBlock.trans keyed.2⟩

theorem Linked.below_goto {s s' : CachedDisk} (linked : s.Linked) {t : Tid} {place : Place}
    (goes : s'.place = Function.update s.place t place) (below : ∀ b, Busy place b → b < nbuf) :
    ∀ u b, Busy (s'.place u) b → b < nbuf := by
  intro u b busy
  rw [goes] at busy
  by_cases same : u = t
  · subst same
    rw [Function.update_self] at busy
    exact below b busy
  · rw [Function.update_of_ne same] at busy
    exact linked.below u b busy

def KeepsReading (s s' : CachedDisk) : Prop := ∀ t dev blockno,
  s'.reading t = some (dev, blockno) →
    (∃ b, InBread (s'.place t) b ∧ (s'.ide.buf b).holdsBlock dev blockno = true) ∨
      s.reading t = some (dev, blockno) ∧ ∀ b, InBread (s.place t) b → InBread (s'.place t) b

theorem Linked.reading_step {s s' : CachedDisk} (linked : s.Linked)
    (moved : Bcache.Step s.cache s'.cache) (keeps : s.KeepsReading s') :
    ∀ t dev blockno, s'.reading t = some (dev, blockno) →
      ∃ b, InBread (s'.place t) b ∧ (s'.ide.buf b).holdsBlock dev blockno = true := by
  intro t dev blockno reads
  rcases keeps t dev blockno reads with found | ⟨before, places⟩
  · exact found
  · obtain ⟨b, place, keyed⟩ := linked.reading t dev blockno before
    exact ⟨b, places b place, linked.reading_kept moved place keyed⟩

theorem keepsReading_goto {s s' : CachedDisk} {t : Tid} {place : Place}
    (reading : s'.reading = s.reading)
    (moved : s'.place = Function.update s.place t place)
    (on : ∀ b, InBread (s.place t) b → InBread place b) : s.KeepsReading s' := by
  intro u dev blockno reads
  right
  rw [reading] at reads
  refine ⟨reads, ?_⟩
  intro b inside
  rw [moved]
  by_cases same : u = t
  · subst same
    rw [Function.update_self]
    exact on b inside
  · rw [Function.update_of_ne same]
    exact inside

theorem Linked.cacheStep {s s' : CachedDisk} (linked : s.Linked) (t : Tid) (place : Place)
    (moved : Bcache.Step s.cache s'.cache)
    (ide : s'.ide = { s.ide with buf := s'.ide.buf, data := s'.ide.data })
    (kept : ∀ b, s.ide.InIderw b → IdeSystem.SameRequest (s'.ide.buf b) (s.ide.buf b))
    (data : ∀ b, s.ide.InIderw b → s'.ide.data b = s.ide.data b)
    (goes : s'.place = Function.update s.place t place)
    (before : ∀ b, s.place t ≠ .waiting b) (after : ∀ b, place ≠ .waiting b)
    (below : ∀ b, Busy place b → b < nbuf) (keeps : s.KeepsReading s') : s'.Linked := by
  obtain ⟨pending, good⟩ := linked.ide
  refine ⟨linked.cache.step moved, ⟨pending, ?_⟩, ?_, linked.below_goto goes below,
    linked.reading_step moved keeps⟩
  · rw [ide]
    exact good.use fun b inside => ⟨kept b inside, data b inside⟩
  · intro u b
    have sameIde : s'.ide.place u = s.ide.place u := by rw [ide]
    rw [sameIde, ← linked.waiting u b, goes]
    by_cases same : u = t
    · subst same
      rw [Function.update_self]
      exact iff_of_false (after b) (before b)
    · rw [Function.update_of_ne same]

/-- A thread that calls `iderw` with a buffer of its own. -/
theorem Linked.call {s : CachedDisk} (linked : s.Linked) {t : Tid} {b : Nat} {cache : Bcache}
    (moved : Bcache.Step s.cache cache)
    (place : cache.place = Function.update s.place t (.waiting b))
    (kept : ∀ c, s.ide.InIderw c → IdeSystem.SameRequest (cache.buf c) (s.ide.buf c))
    (before : ∀ c, s.place t ≠ .waiting c) (below : b < nbuf)
    (owns : (cache.buf b).lock.holdingsleep t = true)
    (needed : ¬((cache.buf b).valid = true ∧ (cache.buf b).dirty = false))
    (on : ∀ c, InBread (s.place t) c → c = b) :
    ((s.withCache cache).callIderw t b).Linked := by
  obtain ⟨pending, good⟩ := linked.ide
  have outside : s.ide.place t = .outside := by
    cases here : s.ide.place t with
    | outside => rfl
    | entered c r =>
      exact absurd ((linked.waiting t c).mpr ⟨r, by rw [here]; exact ⟨rfl, rfl⟩⟩) (before c)
    | waiting c r =>
      exact absurd ((linked.waiting t c).mpr ⟨r, by rw [here]; exact ⟨rfl, rfl⟩⟩) (before c)
  have moved' : Bcache.Step s.cache ((s.withCache cache).callIderw t b).cache := moved
  have inside : ∀ c, Busy (.waiting b) c → c < nbuf := by
    intro c busy
    obtain rfl : b = c := by simpa [Busy, InBread] using busy
    exact below
  refine ⟨linked.cache.step moved', ⟨pending, ?_⟩, ?_, linked.below_goto place inside,
    linked.reading_step moved' ?_⟩
  · have used : { s.ide with buf := cache.buf, data := s.ide.data }.Good pending :=
      good.use fun c inside => ⟨kept c inside, rfl⟩
    exact used.enter outside below owns needed
  · intro u c
    have goes : ((s.withCache cache).callIderw t b).place = cache.place := rfl
    rw [goes, place]
    by_cases same : u = t
    · subst same
      rw [Function.update_self, callIderw, IdeSystem.goto_place_self]
      constructor
      · rintro ⟨⟩
        exact ⟨_, rfl, rfl⟩
      · rintro ⟨r, rfl, -⟩
        rfl
    · rw [Function.update_of_ne same, callIderw, IdeSystem.goto_place_other _ _ same]
      exact linked.waiting u c
  · apply keepsReading_goto
    · rfl
    · exact place
    · intro c inside
      obtain rfl := on c inside
      exact .inr (.inr rfl)

theorem Linked.ideStep {s s' : CachedDisk} (linked : s.Linked) (cache : s'.cache = s.cache)
    (reading : s'.reading = s.reading) (good : ∃ pending, s'.ide.Good pending)
    (places : ∀ t b, (∃ r, (s'.ide.place t).In b r) ↔ ∃ r, (s.ide.place t).In b r) :
    s'.Linked := by
  have buf : s'.ide.buf = s.ide.buf := congrArg Bcache.buf cache
  have place : s'.place = s.place := congrArg Bcache.place cache
  refine ⟨cache ▸ linked.cache, good, ?_, ?_, ?_⟩
  · intro t b
    rw [place, places]
    exact linked.waiting t b
  · rw [place]
    exact linked.below
  · intro t dev blockno reads
    rw [reading] at reads
    rw [place, buf]
    exact linked.reading t dev blockno reads

theorem ideintr_request {ide ide' : IdeSystem} {pending : List Nat} (good : ide.Good pending)
    {error : Bool} (raised : ide.drive.interrupt = some error) (done : ide.ideintr = .ok ide')
    {r : Nat} (completed : ide'.completed = ide.completed ++ [r]) :
    ∃ rest queue, pending = r :: rest ∧ ide' = ide.dequeue rest queue r ∧ ide'.Good rest := by
  obtain ⟨q, rest, rfl⟩ := good.queued.interrupted raised
  obtain ⟨queue, rfl, after⟩ := good.ideintr done
  have same : ide.completed ++ [q] = ide.completed ++ [r] := completed
  obtain rfl := List.singleton_inj.mp (List.append_cancel_left same)
  exact ⟨rest, queue, rfl, rfl, after⟩

theorem Linked.ideintr {s s' : CachedDisk} (linked : s.Linked) {error : Bool} {r : Nat}
    (raised : s.ide.drive.interrupt = some error) (done : s.ide.ideintr = .ok s'.ide)
    (completed : s'.ide.completed = s.ide.completed ++ [r])
    (others : s'.place = s.place ∧ s'.selections = s.selections ∧ s'.held = s.held ∧
      s'.reading = s.reading) : s'.Linked := by
  obtain ⟨pending, good⟩ := linked.ide
  obtain ⟨place, selections, held, reading⟩ := others
  obtain ⟨rest, queue, rfl, dequeued, after⟩ := ideintr_request good raised done completed
  obtain ⟨t, waits⟩ := good.served.pending r List.mem_cons_self
  have inT : (s.ide.place t).In (s.ide.request r) r := by rw [waits]; exact ⟨rfl, rfl⟩
  have moved : Bcache.Step s.cache s'.cache := by
    have step := Bcache.Step.ideintr (s := s.cache) ((linked.waiting t _).mpr ⟨r, inT⟩)
    refine cast (congrArg _ ?_) step
    calc s.cache.modify (s.ide.request r) _
        = ⟨(s.ide.dequeue rest queue r).buf, s.place, s.selections, s.held⟩ := rfl
      _ = s'.cache := by rw [← dequeued, ← place, ← selections, ← held, CachedDisk.cache]
  refine ⟨linked.cache.step moved, ⟨rest, after⟩, ?_, place ▸ linked.below,
    linked.reading_step moved ?_⟩
  · intro u b
    rw [place, dequeued]
    exact linked.waiting u b
  · intro u dev blockno reads
    right
    rw [reading] at reads
    rw [place]
    exact ⟨reads, fun _ inside => inside⟩

theorem Linked.leave {s : CachedDisk} (linked : s.Linked) {t : Tid} {b r : Nat}
    (waits : s.ide.place t = .waiting b r) (valid : (s.ide.buf b).valid = true)
    (clean : (s.ide.buf b).dirty = false) :
    { s.returned t with ide := s.ide.goto t .outside }.Linked := by
  obtain ⟨pending, good⟩ := linked.ide
  have inT : (s.ide.place t).In b r := by rw [waits]; exact ⟨rfl, rfl⟩
  have place : s.place t = .waiting b := (linked.waiting t b).mpr ⟨r, inT⟩
  have moved : Bcache.Step s.cache { s.returned t with ide := s.ide.goto t .outside }.cache :=
    .iderw (s := s.cache) place valid clean
  refine ⟨linked.cache.step moved, ⟨pending, good.leave waits valid clean⟩, ?_,
    linked.below_goto rfl (by simp [Busy, InBread]),
    linked.reading_step moved ?_⟩
  · intro u c
    by_cases same : u = t
    · subst same
      rw [IdeSystem.goto_place_self]
      apply iff_of_false
      · simp [returned, withCache]
      · rintro ⟨_, ⟨⟩⟩
    · rw [IdeSystem.goto_place_other _ _ same]
      simp only [returned, withCache, Bcache.goto_place, Function.update_of_ne same]
      exact linked.waiting u c
  · intro u dev blockno reads
    right
    by_cases same : u = t
    · subst same
      simp [returned] at reads
    · simp only [returned, Function.update_of_ne same] at reads
      refine ⟨reads, ?_⟩
      intro c inside
      simp only [returned, withCache, Bcache.goto_place, Function.update_of_ne same]
      exact inside

theorem Linked.returned {s : CachedDisk} (linked : s.Linked) {t : Tid} {b : Nat}
    (checking : s.place t = .checking b) (valid : (s.ide.buf b).valid = true) :
    (s.returned t).Linked := by
  apply linked.cacheStep t .outside
  · exact .breadHit (s := s.cache) checking valid
  · rfl
  · exact fun c _ => rfl
  · exact fun c _ => rfl
  · rfl
  · simp [checking]
  · simp
  · simp [Busy, InBread]
  · intro u dev blockno reads
    right
    by_cases same : u = t
    · subst same
      simp [CachedDisk.returned] at reads
    · simp only [CachedDisk.returned, Function.update_of_ne same] at reads
      refine ⟨reads, ?_⟩
      intro c inside
      simp only [CachedDisk.returned, withCache, Bcache.goto_place, Function.update_of_ne same]
      exact inside

theorem Linked.bget {s : CachedDisk} (linked : s.Linked) {t : Tid} {dev blockno b : Nat}
    {buf : Nat → Iobuf} (outside : s.place t = .outside)
    (selected : Fs.bget s.ide.buf dev blockno = .ok (b, buf)) :
    { s.withCache (({ s.cache with buf := buf }.goto t
        (.acquiring b)).setSelections t b (s.selections t b + 1)) with
      reading := Function.update s.reading t (some (dev, blockno)) }.Linked := by
  obtain ⟨below, cases⟩ := bget_ok selected
  apply linked.cacheStep t (.acquiring b)
  · exact .bget (s := s.cache) outside selected
  · rfl
  · rcases cases with ⟨-, -, rfl⟩ | ⟨-, unused, rfl⟩
    · exact kept_refcnt s b _
    · apply kept_update
      intro inside
      obtain ⟨u, -, -, used⟩ := linked.inIderw inside
      omega
  · exact fun c _ => rfl
  · rfl
  · simp [outside]
  · simp
  · intro c busy
    obtain rfl : b = c := by simpa [Busy, InBread] using busy
    exact below
  · intro u dev' blockno' reads
    by_cases same : u = t
    · subst same
      left
      simp only [Function.update_self] at reads
      cases reads
      refine ⟨b, .inl (Function.update_self ..), ?_⟩
      simp only [withCache, Bcache.setSelections_buf, Bcache.goto_buf]
      rcases cases with ⟨here, -, rfl⟩ | ⟨-, -, rfl⟩
      · rw [Function.update_self]
        exact here
      · rw [Function.update_self]
        simp [Iobuf.holdsBlock]
    · right
      simp only [Function.update_of_ne same] at reads
      refine ⟨reads, ?_⟩
      intro c inside
      simp only [withCache, Bcache.setSelections_place, Bcache.goto_place,
        Function.update_of_ne same]
      exact inside

theorem notInBread {s s' : CachedDisk} {t : Tid} {place : Place} (reading : s'.reading = s.reading)
    (goes : s'.place = Function.update s.place t place)
    (before : ∀ c, ¬InBread (s.place t) c) : s.KeepsReading s' := by
  apply keepsReading_goto reading goes
  intro c inside
  exact absurd inside (before c)

theorem Linked.acquire {s : CachedDisk} (linked : s.Linked) {t : Tid} {b : Nat}
    (acquiring : s.place t = .acquiring b) (unlocked : (s.ide.buf b).lock.isLocked = false) :
    (s.withCache (((s.cache.modify b fun buf => { buf with lock := .acquire t }).goto t
      (.checking b)).setHeld t (insert b (s.held t)))).Linked := by
  apply linked.cacheStep t (.checking b)
  · exact .acquireSleeplock (s := s.cache) acquiring unlocked
  · rfl
  · apply kept_update
    intro inside
    obtain ⟨u, -, owner, -⟩ := linked.inIderw inside
    rw [Sleeplock.holdingsleep, unlocked] at owner
    cases owner
  · exact fun c _ => rfl
  · rfl
  · simp [acquiring]
  · simp
  · intro c busy
    obtain rfl : b = c := by simpa [Busy, InBread] using busy
    exact linked.below t b (by simp [acquiring, Busy, InBread])
  · apply keepsReading_goto
    · rfl
    · rfl
    · intro c inside
      simp only [InBread, acquiring, Place.acquiring.injEq, reduceCtorEq, or_false] at inside
      exact .inr (.inl (congrArg Place.checking inside))

/-- A thread that writes to its own buffer, outside `bread`. -/
theorem Linked.owner {s s' : CachedDisk} (linked : s.Linked) {t : Tid} {b : Nat} (place : Place)
    {new : Iobuf} (owns : (s.ide.buf b).lock.holdingsleep t = true)
    (before : ∀ c, ¬InBread (s.place t) c) (after : ∀ c, place ≠ .waiting c)
    (below : ∀ c, Busy place c → c < nbuf) (moved : Bcache.Step s.cache s'.cache)
    (ide : s'.ide = { s.ide with buf := s'.ide.buf, data := s'.ide.data })
    (buf : s'.ide.buf = Function.update s.ide.buf b new)
    (data : ∀ c ≠ b, s'.ide.data c = s.ide.data c)
    (goes : s'.place = Function.update s.place t place) (reading : s'.reading = s.reading) :
    s'.Linked := by
  have waitsNot : ∀ c, s.place t ≠ .waiting c := fun c waits => before c (.inr (.inr waits))
  have outside := linked.not_inIderw owns (waitsNot b)
  apply linked.cacheStep t place moved ide
  · rw [buf]
    exact kept_update outside _
  · intro c inside
    apply data
    rintro rfl
    exact outside inside
  · exact goes
  · exact waitsNot
  · exact after
  · exact below
  · exact notInBread reading goes before

theorem Linked.bwrite {s : CachedDisk} (linked : s.Linked) {t : Tid} {b : Nat} (data : BlockData)
    (outside : s.place t = .outside) (below : b < nbuf)
    (owns : (s.ide.buf b).lock.holdingsleep t = true) :
    ({ s.withCache (s.cache.goto t (.marking b)) with
      ide := { s.ide with data := Function.update s.ide.data b data } }.record b data).Linked := by
  apply linked.owner (.marking b) owns
  · simp [outside, InBread]
  · simp
  · intro c busy
    obtain rfl : b = c := by simpa [Busy, InBread] using busy
    exact below
  · exact .bwrite (s := s.cache) outside below owns
  · rfl
  · exact (Function.update_eq_self b s.ide.buf).symm
  · intro c other
    exact Function.update_of_ne other ..
  · rfl
  · rfl

theorem Linked.brelse {s : CachedDisk} (linked : s.Linked) {t : Tid} {b : Nat}
    (outside : s.place t = .outside) (below : b < nbuf)
    (owns : (s.ide.buf b).lock.holdingsleep t = true) :
    (s.withCache (s.cache.goto t (.releasing b))).Linked := by
  apply linked.owner (.releasing b) owns
  · simp [outside, InBread]
  · simp
  · simp [Busy, InBread]
  · exact .brelse (s := s.cache) outside below owns
  · rfl
  · exact (Function.update_eq_self b s.ide.buf).symm
  · exact fun c _ => rfl
  · rfl
  · rfl

theorem Linked.release {s : CachedDisk} (linked : s.Linked) {t : Tid} {b : Nat}
    (releasing : s.place t = .releasing b) :
    (s.withCache (((s.cache.modify b fun buf => { buf with lock := .release }).goto t
      (.decrementing b)).setHeld t ((s.held t).erase b))).Linked := by
  have owns := (linked.owns (t := t) (b := b) (by rw [releasing]; rfl)).1
  apply linked.owner (.decrementing b) owns
  · simp [releasing, InBread]
  · simp
  · simp [Busy, InBread]
  · exact .releaseSleeplock (s := s.cache) releasing
  · rfl
  · rfl
  · exact fun c _ => rfl
  · rfl
  · rfl

theorem Linked.decrement {s : CachedDisk} (linked : s.Linked) {t : Tid} {b : Nat}
    (decrementing : s.place t = .decrementing b) :
    (s.withCache (((s.cache.modify b fun buf =>
      { buf with refcnt := (buf.refcnt + (2 ^ 32 - 1)) % 2 ^ 32 }).goto t
        .outside).setSelections t b (s.selections t b - 1))).Linked := by
  apply linked.cacheStep t .outside
  · exact .decrement (s := s.cache) decrementing
  · rfl
  · exact kept_refcnt s b _
  · exact fun c _ => rfl
  · rfl
  · simp [decrementing]
  · simp
  · simp [Busy, InBread]
  · apply notInBread
    · rfl
    · rfl
    · simp [decrementing, InBread]

theorem Linked.breadMiss {s : CachedDisk} (linked : s.Linked) {t : Tid} {b : Nat}
    (checking : s.place t = .checking b) (invalid : (s.ide.buf b).valid = false)
    (owns : (s.ide.buf b).lock.holdingsleep t = true) :
    ((s.withCache (s.cache.goto t (.waiting b))).callIderw t b).Linked := by
  apply linked.call
  · exact .breadMiss (s := s.cache) checking invalid owns
  · rfl
  · exact fun c _ => rfl
  · simp [checking]
  · exact linked.below t b (by simp [checking, Busy, InBread])
  · exact owns
  · rintro ⟨valid, -⟩
    exact absurd (invalid.symm.trans valid) (by simp)
  · intro c inside
    simpa [InBread, checking, eq_comm] using inside

theorem Linked.bwriteDirty {s : CachedDisk} (linked : s.Linked) {t : Tid} {b : Nat}
    (marking : s.place t = .marking b) (owns : (s.ide.buf b).lock.holdingsleep t = true) :
    ((s.withCache ((s.cache.modify b fun buf =>
      { buf with dirty := true }).goto t (.waiting b))).callIderw t b).Linked := by
  have outside := linked.not_inIderw owns (by simp [marking])
  apply linked.call
  · exact .bwriteDirty (s := s.cache) marking
  · rfl
  · exact kept_update outside _
  · simp [marking]
  · exact linked.below t b (by simp [marking, Busy])
  · simp only [Bcache.goto_buf, Bcache.modify_buf, Function.update_self]
    exact owns
  · simp
  · intro c inside
    simp [InBread, marking] at inside

theorem Linked.iderw {s : CachedDisk} (linked : s.Linked) {ide : IdeSystem} {t : Tid} {b r : Nat}
    (entered : s.ide.place t = .entered b r) (done : s.ide.iderw b r = .ok ide) :
    { s with ide := ide.goto t (.waiting b r) }.Linked := by
  obtain ⟨pending, good⟩ := linked.ide
  obtain ⟨queue, rfl, after⟩ := good.iderw entered done
  apply linked.ideStep
  · rfl
  · rfl
  · exact ⟨_, after⟩
  · intro u c
    by_cases same : u = t
    · subst same
      rw [IdeSystem.goto_place_self, entered]
      rfl
    · rw [IdeSystem.goto_place_other _ _ same]
      rfl

theorem Linked.step {s s' : CachedDisk} {event : Event} (linked : s.Linked)
    (moved : s.Step event s') : s'.Linked := by
  cases moved with
  | bget outside selected => exact linked.bget outside selected
  | acquireSleeplock acquiring unlocked => exact linked.acquire acquiring unlocked
  | breadHit checking valid => exact linked.returned checking valid
  | breadMiss checking invalid owns _ => exact linked.breadMiss checking invalid owns
  | bwrite data outside below owns => exact linked.bwrite data outside below owns
  | bwriteDirty marking owns _ => exact linked.bwriteDirty marking owns
  | iderw entered done => exact linked.iderw entered done
  | finish executing _ _ =>
    obtain ⟨pending, good⟩ := linked.ide
    apply linked.ideStep
    · rfl
    · rfl
    · exact ⟨pending, good.finish executing _ _⟩
    · exact fun t b => Iff.rfl
  | ideintrDone raised done completed _ _ =>
    apply linked.ideintr raised done completed
    split
    · exact ⟨rfl, rfl, rfl, rfl⟩
    · exact ⟨rfl, rfl, rfl, rfl⟩
  | ideintrFailed raised done completed _ _ =>
    exact linked.ideintr raised done completed ⟨rfl, rfl, rfl, rfl⟩
  | breadReturns waits valid clean _ => exact linked.leave waits valid clean
  | bwriteReturns waits valid clean _ => exact linked.leave waits valid clean
  | brelse outside below owns => exact linked.brelse outside below owns
  | releaseSleeplock releasing => exact linked.release releasing
  | decrement decrementing => exact linked.decrement decrementing

theorem Start.linked {s : CachedDisk} (start : s.Start) : s.Linked := by
  have place : s.place = fun _ => .outside := congrArg Bcache.place start.cache
  refine ⟨?_, ⟨[], start.ide.good⟩, ?_, ?_, ?_⟩
  · rw [start.cache]
    exact Bcache.Inv.binit
  · intro t b
    rw [place, start.ide.outside t]
    simp [IdePlace.In]
  · intro t b busy
    rw [place] at busy
    simp [Busy, InBread] at busy
  · intro t dev blockno reads
    rw [start.reading t] at reads
    cases reads

def Live (s : CachedDisk) (b : Nat) : Prop :=
  (s.ide.buf b).valid = true ∨ (s.ide.buf b).dirty = true ∨ ∃ t, s.place t = .marking b

/-- The data that counts is the latest of its block, while no read has failed. -/
structure Current (s : CachedDisk) : Prop where
  later : ∀ i < nbuf, ∀ j < nbuf, i < j → (s.ide.buf i).SameBlock (s.ide.buf j) → ¬s.Live j
  live : ∀ b < nbuf, s.Live b →
    s.latest (s.ide.buf b).dev (s.ide.buf b).blockno = some (s.ide.data b)
  read : ∀ b, s.readFailed b = false

def SameFlags (a b : Iobuf) : Prop := a.SameBlock b ∧ a.valid = b.valid ∧ a.dirty = b.dirty

theorem sameFlags_update {buf : Nat → Iobuf} {b : Nat} {new : Iobuf}
    (same : SameFlags new (buf b)) (c : Nat) : SameFlags (Function.update buf b new c) (buf c) := by
  by_cases here : c = b
  · subst here
    rw [Function.update_self]
    exact same
  · rw [Function.update_of_ne here]
    exact ⟨⟨rfl, rfl⟩, rfl, rfl⟩

theorem sameBlock_congr {a b c d : Iobuf} (left : a.SameBlock c) (right : b.SameBlock d)
    (same : a.SameBlock b) : c.SameBlock d :=
  ⟨left.1.symm.trans (same.1.trans right.1), left.2.symm.trans (same.2.trans right.2)⟩

theorem Current.quiet {s s' : CachedDisk} (current : s.Current)
    (keys : ∀ b, (s'.ide.buf b).SameBlock (s.ide.buf b)) (live : ∀ b, s'.Live b → s.Live b)
    (data : s'.ide.data = s.ide.data) (latest : s'.latest = s.latest)
    (read : s'.readFailed = s.readFailed) : s'.Current where
  later := by
    intro i insideI j insideJ before same isLive
    exact current.later i insideI j insideJ before (sameBlock_congr (keys i) (keys j) same)
      (live j isLive)
  live := by
    intro b inside isLive
    rw [latest, data, (keys b).1, (keys b).2]
    exact current.live b inside (live b isLive)
  read := by
    intro b
    rw [read]
    exact current.read b

theorem Live.mono {s s' : CachedDisk} (flags : ∀ b, SameFlags (s'.ide.buf b) (s.ide.buf b))
    (marks : ∀ t b, s'.place t = .marking b → s.place t = .marking b) (b : Nat)
    (live : s'.Live b) : s.Live b := by
  rcases live with valid | dirty | ⟨t, marking⟩
  · exact .inl ((flags b).2.1.symm.trans valid)
  · exact .inr (.inl ((flags b).2.2.symm.trans dirty))
  · exact .inr (.inr ⟨t, marks t b marking⟩)

theorem marks_goto {s s' : CachedDisk} {t : Tid} {place : Place}
    (goes : s'.place = Function.update s.place t place) (other : ∀ b, place ≠ .marking b)
    (u : Tid) (b : Nat) (marking : s'.place u = .marking b) : s.place u = .marking b := by
  rw [goes] at marking
  by_cases same : u = t
  · subst same
    rw [Function.update_self] at marking
    exact absurd marking (other b)
  · rwa [Function.update_of_ne same] at marking

theorem Current.goto {s s' : CachedDisk} (current : s.Current) (t : Tid) (place : Place)
    (goes : s'.place = Function.update s.place t place) (other : ∀ b, place ≠ .marking b)
    (flags : ∀ b, SameFlags (s'.ide.buf b) (s.ide.buf b)) (data : s'.ide.data = s.ide.data)
    (latest : s'.latest = s.latest) (read : s'.readFailed = s.readFailed) : s'.Current :=
  current.quiet (fun b => (flags b).1) (Live.mono flags (marks_goto goes other)) data latest read

/-- The data of one buffer in use becomes the latest of its block. -/
theorem Current.renew {s s' : CachedDisk} (linked : s.Linked) (current : s.Current) {b : Nat}
    (below : b < nbuf) (used : 0 < (s.ide.buf b).refcnt)
    (keys : ∀ c, (s'.ide.buf c).SameBlock (s.ide.buf c))
    (live : ∀ c ≠ b, s'.Live c → s.Live c) (data : ∀ c ≠ b, s'.ide.data c = s.ide.data c)
    (here : s'.latest (s.ide.buf b).dev (s.ide.buf b).blockno = some (s'.ide.data b))
    (there : ∀ dev blockno, ¬(dev = (s.ide.buf b).dev ∧ blockno = (s.ide.buf b).blockno) →
      s'.latest dev blockno = s.latest dev blockno)
    (read : ∀ c, s'.readFailed c = false) : s'.Current where
  later := by
    intro i insideI j insideJ before same' isLive
    have same := sameBlock_congr (keys i) (keys j) same'
    by_cases isThis : j = b
    · subst isThis
      have unused := linked.cache.cached.first i insideI j insideJ before same
      exact absurd used (Nat.not_lt_of_le (Nat.le_of_eq unused))
    · exact current.later i insideI j insideJ before same (live j isThis isLive)
  live := by
    intro c inside isLive
    rw [(keys c).1, (keys c).2]
    by_cases isThis : c = b
    · subst isThis
      exact here
    · have before := live c isThis isLive
      rw [there, data c isThis]
      · exact current.live c inside before
      · -- Of two buffers with one key, the later one is neither in use nor live.
        intro same
        rcases Nat.lt_or_gt_of_ne isThis with first | after
        · have unused := linked.cache.cached.first c inside b below first same
          exact absurd used (Nat.not_lt_of_le (Nat.le_of_eq unused))
        · exact current.later b below c inside after ⟨same.1.symm, same.2.symm⟩ before
  read := read

/-- `bget` recycles a buffer for a block that no buffer had. -/
theorem Current.recycle {s s' : CachedDisk} (linked : s.Linked) (current : s.Current)
    {t : Tid} {dev blockno b : Nat} (unused : (s.ide.buf b).refcnt = 0)
    (absent : ∀ i < nbuf, (s.ide.buf i).holdsBlock dev blockno = false)
    (buf : s'.ide.buf = Function.update s.ide.buf b { s.ide.buf b with
      dev := dev
      blockno := blockno
      valid := false
      dirty := false
      refcnt := 1 })
    (goes : s'.place = Function.update s.place t (.acquiring b))
    (data : s'.ide.data = s.ide.data) (latest : s'.latest = s.latest)
    (read : s'.readFailed = s.readFailed) : s'.Current := by
  have others : ∀ c ≠ b, s'.ide.buf c = s.ide.buf c := by
    intro c other
    rw [buf, Function.update_of_ne other]
  have dead : ¬s'.Live b := by
    rintro (valid | dirty | ⟨u, marking⟩)
    · simp [buf] at valid
    · simp [buf] at dirty
    · have uses := marks_goto goes (by simp) u b marking
      have used := (linked.owns (t := u) (b := b) (by rw [uses]; rfl)).2
      omega
  have live : ∀ c ≠ b, s'.Live c → s.Live c := by
    rintro c other (valid | dirty | ⟨u, marking⟩)
    · exact .inl (others c other ▸ valid)
    · exact .inr (.inl (others c other ▸ dirty))
    · exact .inr (.inr ⟨u, marks_goto goes (by simp) u c marking⟩)
  have new : ∀ c < nbuf, c ≠ b → ¬(s'.ide.buf b).SameBlock (s'.ide.buf c) := by
    intro c inside other same
    rw [others c other, buf, Function.update_self] at same
    have holds : (s.ide.buf c).holdsBlock dev blockno = true :=
      Iobuf.holdsBlock_iff.mpr ⟨same.1.symm, same.2.symm⟩
    rw [absent c inside] at holds
    cases holds
  refine ⟨?_, ?_, fun c => by rw [read]; exact current.read c⟩
  · intro i insideI j insideJ before same isLive
    by_cases isJ : j = b
    · subst isJ
      exact dead isLive
    · by_cases isI : i = b
      · subst isI
        exact new j insideJ isJ same
      · rw [others i isI, others j isJ] at same
        exact current.later i insideI j insideJ before same (live j isJ isLive)
  · intro c inside isLive
    have other : c ≠ b := by
      rintro rfl
      exact dead isLive
    rw [latest, data, others c other]
    exact current.live c inside (live c other isLive)

@[simp] theorem record_here (s : CachedDisk) (b : Nat) (data : BlockData) :
    (s.record b data).latest (s.ide.buf b).dev (s.ide.buf b).blockno = some data := by
  simp [record]

theorem record_there (s : CachedDisk) (b : Nat) (data : BlockData) {dev blockno : Nat}
    (other : ¬(dev = (s.ide.buf b).dev ∧ blockno = (s.ide.buf b).blockno)) :
    (s.record b data).latest dev blockno = s.latest dev blockno := by
  rw [record]
  by_cases sameDev : dev = (s.ide.buf b).dev
  · subst sameDev
    have otherBlock : blockno ≠ (s.ide.buf b).blockno := fun same => other ⟨rfl, same⟩
    simp [otherBlock]
  · simp [sameDev]

/-- `bwrite` makes the data of its buffer the latest. -/
theorem Current.bwrite {s : CachedDisk} (linked : s.Linked) (current : s.Current) {t : Tid}
    {b : Nat} (data : BlockData) (below : b < nbuf)
    (owns : (s.ide.buf b).lock.holdingsleep t = true) :
    ({ s.withCache (s.cache.goto t (.marking b)) with
      ide := { s.ide with data := Function.update s.ide.data b data } }.record b data).Current := by
  have held : b ∈ s.cache.held t := ((linked.cache.placed t).held b).mpr owns
  apply current.renew linked below (linked.cache.referenced held)
  · exact fun c => ⟨rfl, rfl⟩
  · rintro c other (valid | dirty | ⟨u, marking⟩)
    · exact .inl valid
    · exact .inr (.inl dirty)
    · refine .inr (.inr ⟨u, ?_⟩)
      have marking : Function.update s.place t (.marking b) u = .marking c := marking
      by_cases same : u = t
      · subst same
        rw [Function.update_self] at marking
        exact absurd (Place.marking.inj marking).symm other
      · rwa [Function.update_of_ne same] at marking
  · intro c other
    exact Function.update_of_ne other ..
  · simp [record, withCache]
  · intro dev blockno other
    exact record_there _ b data other
  · exact current.read

/-- The request that the handler completes is for a buffer in use. -/
theorem Linked.completes {s : CachedDisk} (linked : s.Linked) {ide : IdeSystem} {error : Bool}
    {r : Nat} (raised : s.ide.drive.interrupt = some error) (done : s.ide.ideintr = .ok ide)
    (completed : ide.completed = s.ide.completed ++ [r]) :
    s.ide.request r < nbuf ∧ 0 < (s.ide.buf (s.ide.request r)).refcnt ∧
      ide.buf = Function.update s.ide.buf (s.ide.request r)
        { s.ide.buf (s.ide.request r) with valid := true, dirty := false } ∧
      ide.data = Function.update s.ide.data (s.ide.request r)
        (if s.isRead (s.ide.request r) = true ∧ error = false then s.onDisk (s.ide.request r)
        else s.ide.data (s.ide.request r)) := by
  obtain ⟨pending, good⟩ := linked.ide
  obtain ⟨q, queued, pended, finished, -, data⟩ := good.completion (.ideintr raised done)
  obtain ⟨rest, queue, rfl, rfl, -⟩ := ideintr_request good raised done completed
  obtain ⟨rfl, rfl⟩ := List.cons.inj pended
  obtain ⟨t, waits⟩ := good.served.pending r List.mem_cons_self
  have inT : (s.ide.place t).In (s.ide.request r) r := by rw [waits]; exact ⟨rfl, rfl⟩
  have place := (linked.waiting t _).mpr ⟨r, inT⟩
  refine ⟨linked.below t _ (.inl (.inr (.inr place))), ?_, rfl, ?_⟩
  · apply (linked.owns (t := t) _).2
    rw [place]
    rfl
  · simpa only [raised, isRead, onDisk, Bool.not_eq_true', Option.some.injEq] using data

/-- The handler makes what it has transferred the latest data of its block. -/
theorem Current.ideintr {s s' : CachedDisk} (linked : s.Linked) (current : s.Current)
    {error : Bool} {r b : Nat} (raised : s.ide.drive.interrupt = some error)
    (done : s.ide.ideintr = .ok s'.ide) (completed : s'.ide.completed = s.ide.completed ++ [r])
    (isFirst : b = s.ide.request r) (success : ¬(s.isRead b = true ∧ error = true))
    (place : s'.place = s.place)
    (latest : s'.latest = (if s.isRead b then s.record b (s.onDisk b) else s).latest)
    (read : s'.readFailed = Function.update s.readFailed b false) : s'.Current := by
  obtain ⟨below, used, buf, data⟩ := linked.completes raised done completed
  rw [← isFirst] at below used buf data
  apply current.renew linked below used
  · rw [buf]
    apply Bcache.sameBlock_update
    exact ⟨rfl, rfl⟩
  · rintro c other (valid | dirty | ⟨u, marking⟩)
    · left
      rwa [buf, Function.update_of_ne other] at valid
    · right; left
      rwa [buf, Function.update_of_ne other] at dirty
    · exact .inr (.inr ⟨u, place ▸ marking⟩)
  · intro c other
    rw [data]
    exact Function.update_of_ne other ..
  · rw [data, Function.update_self]
    by_cases reads : s.isRead b = true
    · have worked : error = false := by
        cases error with
        | false => rfl
        | true => exact absurd ⟨reads, rfl⟩ success
      rw [latest, if_pos reads, record_here, if_pos ⟨reads, worked⟩]
    · have dirty : (s.ide.buf b).dirty = true := by simpa [isRead] using reads
      rw [latest, if_neg reads, if_neg fun both => reads both.1]
      exact current.live b below (.inr (.inl dirty))
  · intro dev blockno other
    rw [latest]
    split
    · exact record_there s b _ other
    · rfl
  · intro c
    rw [read]
    by_cases isThis : c = b
    · subst isThis
      exact Function.update_self ..
    · rw [Function.update_of_ne isThis]
      exact current.read c

theorem Current.step {s s' : CachedDisk} {event : Event} (linked : s.Linked)
    (current : s.Current) (moved : s.Step event s') (success : ∀ b, event ≠ .readFails b) :
    s'.Current := by
  have same : ∀ b : Nat, SameFlags (s.ide.buf b) (s.ide.buf b) := fun b => ⟨⟨rfl, rfl⟩, rfl, rfl⟩
  cases moved with
  | @bget t dev blockno b buf outside selected =>
    obtain ⟨-, ⟨-, -, rfl⟩ | ⟨absent, unused, rfl⟩⟩ := bget_ok selected
    · refine current.goto t (.acquiring b) rfl (by simp) (sameFlags_update ?_) rfl rfl rfl
      exact ⟨⟨rfl, rfl⟩, rfl, rfl⟩
    · exact current.recycle linked (t := t) unused absent rfl rfl rfl rfl rfl
  | @acquireSleeplock t b acquiring unlocked =>
    refine current.goto t (.checking b) rfl (by simp) (sameFlags_update ?_) rfl rfl rfl
    exact ⟨⟨rfl, rfl⟩, rfl, rfl⟩
  | @breadHit t b checking valid =>
    exact current.goto t .outside rfl (by simp) same rfl rfl rfl
  | @breadMiss t b checking invalid owns _ =>
    exact current.goto t (.waiting b) rfl (by simp) same rfl rfl rfl
  | bwrite data outside below owns => exact current.bwrite linked data below owns
  | @bwriteDirty t b marking owns _ =>
    have others : ∀ c ≠ b, Function.update s.ide.buf b { s.ide.buf b with dirty := true } c =
        s.ide.buf c := fun c other => Function.update_of_ne other ..
    refine current.quiet (Bcache.sameBlock_update ?_) ?_ rfl rfl rfl
    · exact ⟨rfl, rfl⟩
    · intro c live
      by_cases same : c = b
      · subst same
        exact .inr (.inr ⟨t, marking⟩)
      · rcases live with valid | dirty | ⟨u, marks⟩
        · exact .inl (others c same ▸ valid)
        · exact .inr (.inl (others c same ▸ dirty))
        · have goes : (s.withCache (s.cache.goto t (.waiting b))).place =
              Function.update s.place t (.waiting b) := rfl
          exact .inr (.inr ⟨u, marks_goto goes (by simp) u c marks⟩)
  | @iderw ide t b r entered done =>
    obtain ⟨pending, good⟩ := linked.ide
    obtain ⟨queue, rfl, -⟩ := good.iderw entered done
    exact current.quiet (fun b => (same b).1) (Live.mono same fun _ _ marking => marking) rfl rfl rfl
  | finish executing _ _ =>
    exact current.quiet (fun b => (same b).1) (Live.mono same fun _ _ marking => marking) rfl rfl rfl
  | ideintrDone raised done completed isFirst worked =>
    apply current.ideintr linked raised done completed isFirst worked
    · split
      · rfl
      · rfl
    · rfl
    · rfl
  | ideintrFailed _ _ _ _ _ => exact absurd rfl (success _)
  | @breadReturns t b r waits _ _ _ =>
    exact current.goto t .outside rfl (by simp) same rfl rfl rfl
  | @bwriteReturns t b r waits _ _ _ =>
    exact current.goto t .outside rfl (by simp) same rfl rfl rfl
  | @brelse t b outside below owns =>
    exact current.goto t (.releasing b) rfl (by simp) same rfl rfl rfl
  | @releaseSleeplock t b releasing =>
    refine current.goto t (.decrementing b) rfl (by simp) (sameFlags_update ?_) rfl rfl rfl
    exact ⟨⟨rfl, rfl⟩, rfl, rfl⟩
  | @decrement t b decrementing =>
    refine current.goto t .outside rfl (by simp) (sameFlags_update ?_) rfl rfl rfl
    exact ⟨⟨rfl, rfl⟩, rfl, rfl⟩

/-- A thread that has selected a buffer and not yet tested it is in `bread`. -/
def Asked (s : CachedDisk) : Prop := ∀ t b,
  s.place t = .acquiring b ∨ s.place t = .checking b → s.reading t ≠ none

theorem Asked.goto {s s' : CachedDisk} (asked : s.Asked) (t : Tid) (place : Place)
    (goes : s'.place = Function.update s.place t place)
    (reading : ∀ u ≠ t, s'.reading u = s.reading u)
    (here : ∀ b, place = .acquiring b ∨ place = .checking b → s'.reading t ≠ none) :
    s'.Asked := by
  intro u b inside
  rw [goes] at inside
  by_cases same : u = t
  · subst same
    rw [Function.update_self] at inside
    exact here b inside
  · rw [Function.update_of_ne same] at inside
    rw [reading u same]
    exact asked u b inside

theorem Asked.step {s s' : CachedDisk} {event : Event} (asked : s.Asked)
    (moved : s.Step event s') : s'.Asked := by
  cases moved with
  | @bget t dev blockno b buf outside selected =>
    apply asked.goto t (.acquiring b) rfl
    · exact fun u other => Function.update_of_ne other ..
    · simp
  | @acquireSleeplock t b acquiring unlocked =>
    exact asked.goto t (.checking b) rfl (fun _ _ => rfl) fun _ _ => asked t b (.inl acquiring)
  | @breadHit t b checking valid =>
    apply asked.goto t .outside rfl
    · exact fun u other => Function.update_of_ne other ..
    · simp
  | @breadMiss t b checking invalid owns _ =>
    exact asked.goto t (.waiting b) rfl (fun _ _ => rfl) (by simp)
  | @bwrite t b data outside below owns =>
    exact asked.goto t (.marking b) rfl (fun _ _ => rfl) (by simp)
  | @bwriteDirty t b marking owns _ =>
    exact asked.goto t (.waiting b) rfl (fun _ _ => rfl) (by simp)
  | iderw entered done => exact asked
  | finish executing _ _ => exact asked
  | ideintrDone raised done completed isFirst worked =>
    split
    · exact asked
    · exact asked
  | ideintrFailed _ _ _ _ _ => exact asked
  | @breadReturns t b r waits _ _ _ =>
    apply asked.goto t .outside rfl
    · exact fun u other => Function.update_of_ne other ..
    · simp
  | @bwriteReturns t b r waits _ _ _ =>
    apply asked.goto t .outside rfl
    · exact fun u other => Function.update_of_ne other ..
    · simp
  | @brelse t b outside below owns =>
    exact asked.goto t (.releasing b) rfl (fun _ _ => rfl) (by simp)
  | @releaseSleeplock t b releasing =>
    exact asked.goto t (.decrementing b) rfl (fun _ _ => rfl) (by simp)
  | @decrement t b decrementing =>
    exact asked.goto t .outside rfl (fun _ _ => rfl) (by simp)

theorem Start.current {s : CachedDisk} (start : s.Start) : s.Current := by
  have buf : s.ide.buf = fun _ => .zero := congrArg Bcache.buf start.cache
  have place : s.place = fun _ => .outside := congrArg Bcache.place start.cache
  have dead : ∀ b, ¬s.Live b := by
    rintro b (valid | dirty | ⟨t, marking⟩)
    · rw [buf] at valid
      cases valid
    · rw [buf] at dirty
      cases dirty
    · rw [place] at marking
      cases marking
  exact ⟨fun i _ j _ _ _ => dead j, fun b _ live => absurd live (dead b), start.readFailed⟩

theorem Start.asked {s : CachedDisk} (start : s.Start) : s.Asked := by
  have place : s.place = fun _ => .outside := congrArg Bcache.place start.cache
  intro t b inside
  rw [place] at inside
  simp at inside

/-- While no read has failed, `bread` returns the latest contents of its block. -/
theorem Current.faithful {s : CachedDisk} (linked : s.Linked) (asked : s.Asked)
    (current : s.Current) : s.Faithful where
  returned := by
    have latest : ∀ t b, InBread (s.place t) b → (s.ide.buf b).valid = true →
        s.reading t ≠ none → ∃ dev blockno, s.reading t = some (dev, blockno) ∧
          (s.ide.buf b).holdsBlock dev blockno = true ∧
            s.latest dev blockno = some (s.ide.data b) := by
      intro t b place valid reads
      obtain ⟨⟨dev, blockno⟩, reads⟩ := Option.ne_none_iff_exists'.mp reads
      obtain ⟨c, there, keyed⟩ := linked.reading t dev blockno reads
      have same : c = b := by
        rcases place with here | here | here
        all_goals simpa [InBread, here, eq_comm] using there
      subst same
      have live := current.live c (linked.below t c (.inl place)) (.inl valid)
      obtain ⟨rfl, rfl⟩ := Iobuf.holdsBlock_iff.mp keyed
      exact ⟨_, _, reads, keyed, live⟩
    intro t b s' moved
    cases moved with
    | breadHit checking valid =>
      exact latest t b (.inr (.inl checking)) valid (asked t b (.inr checking))
    | breadReturns waits valid _ reads =>
      have place := (linked.waiting t b).mpr ⟨_, by rw [waits]; exact ⟨rfl, rfl⟩⟩
      exact latest t b (.inr (.inr place)) valid reads
  failed := by
    intro b failed
    rw [current.read b] at failed
    cases failed

theorem Step.unfaithful {s s' : CachedDisk} {b : Nat} (linked : s.Linked)
    (moved : s.Step (.readFails b) s') : ¬s'.Faithful := by
  intro faithful
  cases moved with
  | ideintrFailed raised done completed isFirst reads =>
    have invalid := faithful.failed b (Function.update_self ..)
    obtain ⟨-, -, buf, -⟩ := linked.completes raised done completed
    rw [← isFirst] at buf
    rw [buf, Function.update_self] at invalid
    cases invalid

theorem Trace.linked {s s' : CachedDisk} {events : List Event} (run : Trace Step s events s')
    (linked : s.Linked) : s'.Linked :=
  run.invariant (fun _ _ _ before moved => before.step moved) linked

theorem Trace.current {s s' : CachedDisk} {events : List Event} (run : Trace Step s events s')
    (success : ∀ b, .readFails b ∉ events) (linked : s.Linked) (current : s.Current)
    (asked : s.Asked) : s'.Current ∧ s'.Asked := by
  induction run with
  | nil s => exact ⟨current, asked⟩
  | cons moved _ inductionHypothesis =>
    apply inductionHypothesis
    · exact fun b member => success b (List.mem_cons_of_mem _ member)
    · exact linked.step moved
    · apply current.step linked moved
      rintro b rfl
      exact success b List.mem_cons_self
    · exact asked.step moved

/-- In a run without a failing read, and in no other, every state is faithful. -/
theorem bread_faithful_iff {start s : CachedDisk} {events : List Event} (started : start.Start)
    (run : Trace Step start events s) :
    (∀ before after s₁, events = before ++ after → Trace Step start before s₁ →
      Trace Step s₁ after s → s₁.Faithful) ↔ ∀ b, .readFails b ∉ events := by
  constructor
  · intro faithful b member
    obtain ⟨before, after, s₁, s₂, rfl, run₁, moved, run₂⟩ := Trace.split run member
    apply moved.unfaithful (Trace.linked run₁ started.linked)
    apply faithful (before ++ [.readFails b]) after s₂ _ (Trace.snoc run₁ moved) run₂
    rw [List.append_assoc, List.singleton_append]
  · intro success before after s₁ split run₁ _
    have sofar : ∀ b, .readFails b ∉ before := by
      intro b member
      apply success b
      rw [split]
      exact List.mem_append_left after member
    obtain ⟨current, asked⟩ :=
      Trace.current run₁ sofar started.linked started.current started.asked
    exact current.faithful (Trace.linked run₁ started.linked) asked

def blank : CachedDisk where
  ide := {
    buf := fun _ => .zero
    data := fun _ _ => 0
    queue := .empty fun _ => ⟨.null, .null, 0⟩
    drive := ⟨fun _ _ _ => 1, none, none⟩
    disk1 := false
    place := fun _ => .outside
    arrived := []
    started := []
    completed := [] }
  place := fun _ => .outside
  selections := fun _ _ => 0
  held := fun _ => ∅
  reading := fun _ => none
  latest := fun _ _ => none
  readFailed := fun _ => false

theorem blank_start : blank.Start :=
  ⟨rfl, ⟨⟨_, rfl⟩, ⟨rfl, rfl⟩, fun _ => rfl, rfl, rfl, rfl⟩, fun _ => rfl, fun _ _ => rfl,
    fun _ => rfl⟩

/-- Thread 0 waits for block 5, and the drive has raised its interrupt. -/
structure Reads (s : CachedDisk) (error : Bool) : Prop where
  run : Trace Step blank [.other, .other, .other, .other, .other] s
  raised : s.ide.drive.interrupt = some error
  requests : s.ide.arrived = [0] ∧ s.ide.completed = [] ∧ s.ide.request 0 = 0
  buf : s.ide.buf 0 = ⟨false, false, 0, 5, .acquire 0, 1⟩
  waits : s.ide.place 0 = .waiting 0 0
  reading : s.reading 0 = some (0, 5) ∧ s.latest 0 5 = none
  sector : s.onDisk 0 = fun _ => 1

theorem blank_reads (error : Bool) : ∃ s : CachedDisk, s.Reads error := by
  refine ⟨_, .cons (@Step.bget _ 0 0 5 0 _ rfl rfl) (.cons (@Step.acquireSleeplock _ 0 0 rfl rfl)
    (.cons (@Step.breadMiss _ 0 0 rfl rfl rfl (.inl rfl)) (.cons (@Step.iderw _ _ 0 0 0 rfl rfl)
      (.cons (@Step.finish _ _ error _ rfl rfl (.read error rfl)) (.nil _))))), rfl,
    ⟨rfl, rfl, rfl⟩, rfl, rfl, ⟨rfl, rfl⟩, rfl⟩

theorem Reads.completes {s : CachedDisk} {error : Bool} (reads : s.Reads error) :
    ∃ ide, s.ide.ideintr = .ok ide ∧ ide.completed = s.ide.completed ++ [0] ∧
      (ide.buf 0).valid = true ∧ (ide.buf 0).dirty = false ∧ ide.place 0 = .waiting 0 0 := by
  obtain ⟨pending, good⟩ := (Trace.linked reads.run blank_start.linked).ide
  obtain ⟨arrived, completed, request⟩ := reads.requests
  have isPending : pending = [0] := by
    have split := good.queued.arrived
    rw [arrived, completed] at split
    exact split.symm
  subst isPending
  obtain ⟨ide, done⟩ := good.ideintr_total (by simp)
  obtain ⟨queue, rfl, -⟩ := good.ideintr done
  refine ⟨_, done, rfl, ?_, ?_, reads.waits⟩
  · simp [IdeSystem.dequeue, IdeSystem.complete, request]
  · simp [IdeSystem.dequeue, IdeSystem.complete, request]

/-- Thread 0 reads block 5, and the drive succeeds: `bread` returns what the sector holds. -/
theorem bread_faithful_iff_blank : ∃ s events, Trace Step blank events s ∧ s.Faithful ∧
    (∃ s', s.Step (.breadReturns 0 0) s') ∧ s.ide.data 0 = fun _ => 1 := by
  obtain ⟨s, reads⟩ := blank_reads false
  obtain ⟨ide, done, completed, valid, clean, waits⟩ := reads.completes
  have isRead : s.isRead 0 = true := by rw [isRead, reads.buf]; rfl
  have run := Trace.snoc reads.run
    (.ideintrDone reads.raised done completed reads.requests.2.2.symm (by simp))
  have faithful := (bread_faithful_iff blank_start run).mpr (by simp) _ [] _
    (List.append_nil _).symm run (.nil _)
  rw [if_pos isRead] at run faithful
  have asked : (s.record 0 (s.onDisk 0)).reading 0 = some (0, 5) := reads.reading.1
  have returns := Step.breadReturns (s := { s.record 0 (s.onDisk 0) with
    ide := ide, readFailed := Function.update s.readFailed 0 false }) waits valid clean
    (by simp [asked])
  obtain ⟨dev, blockno, reading, -, latest⟩ := faithful.returned 0 0 _ returns
  obtain ⟨rfl, rfl⟩ := Prod.mk.inj (Option.some.inj (asked.symm.trans reading))
  have recorded : (s.record 0 (s.onDisk 0)).latest 0 5 = some (s.onDisk 0) := by
    simp [record, reads.buf]
  refine ⟨_, _, run, faithful, ⟨_, returns⟩, ?_⟩
  exact (Option.some.inj (recorded.symm.trans latest)).symm.trans reads.sector

/-- Thread 0 reads block 5, and the drive fails: the buffer is valid, and `bread` returns it
although nothing was ever read from the block. -/
theorem failedRead_returned : ∃ s events, Trace Step blank events s ∧ s.readFailed 0 = true ∧
    (s.ide.buf 0).valid = true ∧ (∃ s', s.Step (.breadReturns 0 0) s') ∧
    s.reading 0 = some (0, 5) ∧ s.latest 0 5 = none ∧ ¬s.Faithful := by
  obtain ⟨s, reads⟩ := blank_reads true
  obtain ⟨ide, done, completed, valid, clean, waits⟩ := reads.completes
  have isRead : s.isRead 0 = true := by rw [isRead, reads.buf]; rfl
  have run := Trace.snoc reads.run
    (.ideintrFailed reads.raised done completed reads.requests.2.2.symm isRead)
  obtain ⟨reading, latest⟩ := reads.reading
  have failed : Function.update s.readFailed 0 true 0 = true := Function.update_self ..
  refine ⟨_, _, run, failed, valid, ?_, reading, latest, ?_⟩
  · exact ⟨_, .breadReturns waits valid clean (by simp [reading])⟩
  · intro faithful
    have invalid := faithful.failed 0 failed
    exact absurd (valid.symm.trans invalid) (by simp)

end SwagOS.Fs.CachedDisk
