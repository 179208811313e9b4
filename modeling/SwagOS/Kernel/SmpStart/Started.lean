import Mathlib.Data.Finset.Card
import SwagOS.Kernel.SmpStart.Invariant

/-!
# The processors are started

Whatever order the steps are taken in, a processor that uses a stack is on that of its own entry
of the table.  Each step brings the start on, the first processor by its place in the loop, the
processor that is being started by what it still has to load, a message by its arrival and a timer
by what it interrupts; where no step is left the loop is over, an entry of the table has another
id than its place, or the first processor waits for one that was interrupted too early.
-/

namespace SwagOS.Kernel

open SwagOS.Lib

variable {site : SmpSite} {s t : SmpState}

def ApPhase.OnStack : ApPhase → Prop
  | .calls | .initSmp | .enabled | .timed | .running => True
  | _ => False

theorem Ap.Started.onStack {i magic : Nat} {ap : Ap} (started : ap.Started site i magic)
    (onStack : ap.phase.OnStack) :
    ap.cr3 = site.pml4tPa ∧ ap.rsp = site.stackAlloc i ∧
      (ap.phase ≠ .calls → ap.entry = site.initSmp) := by
  unfold Ap.Started at started
  cases phase : ap.phase with
  | calls =>
    rw [phase] at started
    exact ⟨started.2.1, started.2.2, fun other => absurd rfl other⟩
  | initSmp | enabled | timed =>
    rw [phase] at started
    exact ⟨started.2.1, started.2.2.1, fun _ => started.2.2.2⟩
  | running =>
    rw [phase] at started
    exact ⟨started.2.cr3, started.2.rsp, fun _ => started.2.entry⟩
  | stopped | waitSipi | smpInit | smp64bitInit | scheduled | lost =>
    rw [phase] at onStack
    exact onStack.elim

theorem Ap.Told.onStack {i messages magic : Nat} {ap : Ap} (told : ap.Told site i messages magic)
    (onStack : ap.phase.OnStack) : ap.Started site i magic := by
  unfold Ap.Told at told
  by_cases first : messages = 0
  · rw [if_pos first] at told
    rw [told.1] at onStack
    exact onStack.elim
  · by_cases waits : messages < 3
    · rw [if_neg first, if_pos waits] at told
      rw [told.1] at onStack
      exact onStack.elim
    · rwa [if_neg first, if_neg waits] at told

theorem Current.onStack {i : Nat} {info : SmpInfo} {ap : Ap} {inFlight : Option (Nat × Nat)}
    {bsp : BspPhase} (current : Current site i info ap inFlight bsp) (inCall : bsp.InCall)
    (onStack : ap.phase.OnStack) : ap.Started site i info.magic := by
  cases bsp with
  | next | done | panics => exact inCall.elim
  | writes k =>
    rw [current.2.2.1] at onStack
    exact onStack.elim
  | sends k => exact current.2.2.2.onStack onStack
  | delivers k =>
    obtain ⟨-, -, ⟨-, told⟩ | ⟨-, told⟩⟩ := current
    · exact told.onStack onStack
    · exact told.onStack onStack
  | waits => exact current.2.2.onStack onStack

/-- A processor on a stack is on the stack of its own entry of the table. -/
theorem SmpState.Invariant.onStack (holds : s.Invariant site) {id : Nat}
    (onStack : (s.aps id).phase.OnStack) :
    ∃ j < site.ids.length, site.id j = id ∧ id ≠ site.own ∧ s.kstack id = site.stackAlloc j ∧
      (s.aps id).cr3 = site.pml4tPa ∧ (s.aps id).rsp = site.stackAlloc j ∧
      ((s.aps id).phase ≠ .calls → (s.aps id).entry = site.initSmp) := by
  by_cases begun : s.Begun site id
  · rcases holds.begun begun with ⟨inCall, rfl⟩ | ⟨j, before, rfl, other, -, kstack, ready⟩
    · obtain ⟨inTable, other, -, kstack⟩ := holds.called inCall
      have started := holds.current.onStack inCall onStack
      exact ⟨s.i, inTable, rfl, other, kstack, started.onStack onStack⟩
    · exact ⟨j, Nat.lt_of_lt_of_le before holds.bound, rfl, other, kstack, ready.cr3, ready.rsp,
        fun _ => ready.entry⟩
  · rw [holds.others id begun] at onStack
    exact onStack.elim

def ApPhase.rank : ApPhase → Nat
  | .stopped => 9
  | .waitSipi => 8
  | .smpInit => 7
  | .smp64bitInit => 6
  | .calls => 5
  | .initSmp => 4
  | .enabled => 3
  | .timed => 2
  | .running => 1
  | .scheduled | .lost => 0

def BspPhase.rank : BspPhase → Nat
  | .next => 50
  | .writes k => 40 - k
  | .sends k => 30 - 2 * k
  | .delivers k => 29 - 2 * k
  | .waits => 1
  | .done | .panics => 0

def SmpState.rank (site : SmpSite) (s : SmpState) : Nat :=
  2000 * (site.ids.length - s.i) + 20 * s.bsp.rank + 10 * s.inFlight.toList.length +
    (s.aps (site.id s.i)).phase.rank

def SmpState.halted (site : SmpSite) (s : SmpState) : Finset Nat :=
  site.ids.toFinset.filter fun id => (s.aps id).phase = .running

theorem ApPhase.rank_le (phase : ApPhase) : phase.rank ≤ 9 := by
  cases phase <;> decide

theorem Ap.rank_step {ap ap' : Ap} {info info' : SmpInfo}
    (step : ap.step info = some (ap', info')) : ap'.phase.rank < ap.phase.rank := by
  unfold Ap.step at step
  cases phase : ap.phase with
  | smpInit | smp64bitInit | calls | initSmp | enabled | timed =>
    rw [phase] at step
    obtain ⟨rfl, -⟩ := Prod.mk.inj (Option.some.inj step)
    exact Nat.lt_succ_self _
  | stopped | waitSipi | running | scheduled | lost =>
    rw [phase] at step
    cases step

theorem SmpState.Invariant.rank_start (holds : s.Invariant site)
    (step : s.start site = some t) : t.rank site < s.rank site := by
  have current := holds.current
  have bound := ApPhase.rank_le (s.aps (site.id (s.i + 1))).phase
  have inBounds := holds.bound
  unfold SmpState.start at step
  unfold SmpState.rank
  cases bsp : s.bsp with
  | next =>
    rw [bsp] at step current
    dsimp only at step
    split_ifs at step with inTable own listed
    · obtain rfl := Option.some.inj step
      dsimp only
      omega
    all_goals
      obtain rfl := Option.some.inj step
      simp only [BspPhase.rank]
      omega
  | writes k =>
    rw [bsp] at step current
    obtain rfl := Option.some.inj step
    obtain ⟨inBounds, -⟩ := current
    split <;> simp only [BspPhase.rank] <;> omega
  | sends k =>
    rw [bsp] at step current
    obtain rfl := Option.some.inj step
    obtain ⟨inBounds, noFlight, -⟩ := current
    rw [noFlight]
    simp only [BspPhase.rank, Option.toList_some, Option.toList_none, List.length_singleton,
      List.length_nil]
    omega
  | delivers k =>
    rw [bsp] at step current
    obtain ⟨inBounds, -⟩ := current
    by_cases noFlight : s.inFlight = none
    · obtain rfl := Option.some.inj ((if_pos noFlight).symm.trans step)
      split <;> simp only [BspPhase.rank] <;> omega
    · cases (if_neg noFlight).symm.trans step
  | waits =>
    have inTable := (holds.called (bsp ▸ trivial)).1
    rw [bsp] at step current
    dsimp only at step
    split_ifs at step with magic
    obtain rfl := Option.some.inj step
    simp only [BspPhase.rank]
    omega
  | done | panics =>
    rw [bsp] at step
    cases step

theorem SmpState.rank_deliver (step : s.deliver = some t) : t.rank site < s.rank site := by
  obtain ⟨⟨id, command⟩, inFlight, rfl⟩ := Option.map_eq_some_iff.mp step
  unfold SmpState.rank
  dsimp only
  rw [inFlight]
  by_cases here : site.id s.i = id
  · have bound := ApPhase.rank_le ((s.aps id).take command).phase
    rw [here, Function.update_self, Option.toList_some, Option.toList_none]
    simp only [List.length_singleton, List.length_nil]
    omega
  · rw [Function.update_of_ne here, Option.toList_some, Option.toList_none]
    simp only [List.length_singleton, List.length_nil]
    omega

theorem SmpState.Invariant.rank_runs (holds : s.Invariant site) {id : Nat}
    (step : s.runs id = some t) : t.rank site < s.rank site := by
  obtain ⟨⟨ap, info⟩, moved, rfl⟩ := Option.map_eq_some_iff.mp step
  obtain ⟨-, rfl⟩ := holds.starting (ApPhase.starting_of_step moved)
  have less := Ap.rank_step moved
  unfold SmpState.rank
  dsimp only
  rw [Function.update_self]
  omega

theorem SmpState.halted_update {id : Nat} (same : ∀ other ≠ id, t.aps other = s.aps other) :
    (t.halted site).card ≤ (s.halted site).card + 1 := by
  refine (Finset.card_le_card ?_).trans (Finset.card_insert_le id (s.halted site))
  intro other member
  obtain ⟨inTable, running⟩ := Finset.mem_filter.mp member
  by_cases here : other = id
  · rw [here]
    exact Finset.mem_insert_self id _
  · rw [same other here] at running
    exact Finset.mem_insert_of_mem (Finset.mem_filter.mpr ⟨inTable, running⟩)

theorem SmpState.start_aps (step : s.start site = some t) : t.aps = s.aps := by
  unfold SmpState.start at step
  cases bsp : s.bsp with
  | done | panics =>
    rw [bsp] at step
    cases step
  | sends k | writes k =>
    rw [bsp] at step
    obtain rfl := Option.some.inj step
    rfl
  | next | delivers k | waits =>
    rw [bsp] at step
    dsimp only at step
    split_ifs at step <;> obtain rfl := Option.some.inj step <;> rfl

theorem SmpState.Invariant.rank_timer (holds : s.Invariant site) {id : Nat}
    (step : s.timer id = some t) :
    t.rank site < s.rank site ∨
      t.rank site ≤ s.rank site ∧ (t.halted site).card < (s.halted site).card := by
  obtain ⟨ap, tick, rfl⟩ := Option.map_eq_some_iff.mp step
  rcases Ap.tick_some tick with ⟨phase, rfl⟩ | ⟨phase, rfl⟩
  · left
    have starting : (s.aps id).phase.Starting := by
      rw [phase]
      trivial
    obtain ⟨-, rfl⟩ := holds.starting starting
    unfold SmpState.rank
    dsimp only
    rw [Function.update_self, phase]
    simp only [ApPhase.rank]
    omega
  · right
    constructor
    · unfold SmpState.rank
      dsimp only
      by_cases here : site.id s.i = id
      · rw [here, Function.update_self, phase]
        simp only [ApPhase.rank]
        omega
      · rw [Function.update_of_ne here]
    · have inTable : id ∈ site.ids := by
        by_contra missing
        have stopped := holds.others id ?_
        · cases phase.symm.trans stopped
        · rintro ⟨j, bound, rfl, -⟩
          rw [SmpSite.id, List.getD_eq_getElem _ _ bound] at missing
          exact missing (List.getElem_mem bound)
      refine Finset.card_lt_card ((Finset.ssubset_iff_of_subset ?_).mpr ⟨id, ?_, ?_⟩)
      · intro other member
        obtain ⟨listed, running⟩ := Finset.mem_filter.mp member
        dsimp only at running
        by_cases here : other = id
        · rw [here, Function.update_self] at running
          cases running
        · rw [Function.update_of_ne here] at running
          exact Finset.mem_filter.mpr ⟨listed, running⟩
      · exact Finset.mem_filter.mpr ⟨List.mem_toFinset.mpr inTable, phase⟩
      · intro member
        have running := (Finset.mem_filter.mp member).2
        dsimp only at running
        rw [Function.update_self] at running
        cases running

theorem SmpState.Invariant.rank (holds : s.Invariant site) (step : SmpStep site s t) :
    2 * t.rank site + (t.halted site).card < 2 * s.rank site + (s.halted site).card := by
  obtain ⟨agent, step⟩ := step
  cases agent with
  | first =>
    have less := holds.rank_start step
    have same : t.halted site = s.halted site := by
      rw [SmpState.halted, SmpState.halted, SmpState.start_aps step]
    rw [same]
    omega
  | delivery =>
    have less : t.rank site < s.rank site := SmpState.rank_deliver step
    obtain ⟨⟨id, command⟩, -, rfl⟩ := Option.map_eq_some_iff.mp step
    have more := @SmpState.halted_update site s
      { s with aps := Function.update s.aps id ((s.aps id).take command), inFlight := none } id
      fun other different => Function.update_of_ne different ..
    dsimp only at less ⊢
    omega
  | other id =>
    have less := holds.rank_runs step
    obtain ⟨⟨ap, info⟩, -, rfl⟩ := Option.map_eq_some_iff.mp step
    have more := @SmpState.halted_update site s
      { s with aps := Function.update s.aps id ap, info := info } id
      fun other different => Function.update_of_ne different ..
    dsimp only at less ⊢
    omega
  | timer id =>
    rcases holds.rank_timer step with less | ⟨same, fewer⟩
    · obtain ⟨ap, -, rfl⟩ := Option.map_eq_some_iff.mp step
      have more := @SmpState.halted_update site s
        { s with aps := Function.update s.aps id ap } id
        fun other different => Function.update_of_ne different ..
      omega
    · omega

/-- A processor that was started can go on or was interrupted, or the first processor can. -/
theorem Ap.Started.goesOn {i : Nat} {ap : Ap} {info : SmpInfo}
    (started : ap.Started site i info.magic) :
    (∃ ap' info', ap.step info = some (ap', info')) ∨ info.magic = smpInfoMagic ∨
      ap.phase = .lost := by
  unfold Ap.Started at started
  unfold Ap.step
  cases phase : ap.phase with
  | smpInit | smp64bitInit | calls | initSmp | enabled | timed => exact .inl ⟨_, _, rfl⟩
  | running | scheduled =>
    rw [phase] at started
    exact .inr (.inl started.1)
  | lost => exact .inr (.inr rfl)
  | stopped | waitSipi =>
    rw [phase] at started
    exact started.elim

theorem SmpState.Invariant.stuck (holds : s.Invariant site) (stuck : ∀ t, ¬SmpStep site s t) :
    s.bsp = .done ∨ s.bsp = .panics ∨
      s.bsp = .waits ∧ (s.aps (site.id s.i)).phase = .lost := by
  have current := holds.current
  have noStart : ∀ t, s.start site ≠ some t := fun t step => stuck t ⟨.first, step⟩
  unfold SmpState.start at noStart
  cases bsp : s.bsp with
  | next =>
    rw [bsp] at noStart
    dsimp only at noStart
    split_ifs at noStart <;> exact absurd rfl (noStart _)
  | writes k =>
    rw [bsp] at noStart
    exact absurd rfl (noStart _)
  | sends k =>
    rw [bsp] at noStart
    exact absurd rfl (noStart _)
  | delivers k =>
    rw [bsp] at noStart
    cases inFlight : s.inFlight with
    | none => exact absurd (if_pos inFlight) (noStart _)
    | some message =>
      exact absurd ⟨.delivery, Option.map_eq_some_iff.mpr ⟨message, inFlight, rfl⟩⟩ (stuck _)
  | waits =>
    rw [bsp] at noStart current
    have started : (s.aps (site.id s.i)).Started site s.i s.info.magic := current.2.2
    rcases started.goesOn with ⟨ap, info, step⟩ | magic | lost
    · exact absurd ⟨.other (site.id s.i), Option.map_eq_some_iff.mpr ⟨(ap, info), step, rfl⟩⟩
        (stuck _)
    · exact absurd (if_pos magic) (noStart _)
    · exact .inr (.inr ⟨rfl, lost⟩)
  | done => exact .inl rfl
  | panics => exact .inr (.inl rfl)

theorem reaches_end {run : Nat → SmpState} (maximal : Maximal (SmpStep site) run)
    (started : SmpStart (run 0)) :
    ∃ n, Reachable SmpStart (SmpStep site) (run n) ∧ ∀ t, ¬SmpStep site (run n) t := by
  have decreases : ∀ s t, Reachable SmpStart (SmpStep site) s → SmpStep site s t →
      2 * t.rank site + (t.halted site).card < 2 * s.rank site + (s.halted site).card := by
    intro s t reached step
    exact (invariant_of_reachable reached).rank step
  obtain ⟨n, stuck⟩ := maximal.ends decreases started
  exact ⟨n, maximal.reachable started n, stuck⟩

theorem SmpSite.listed_iff {i : Nat} (inTable : i < site.ids.length) :
    site.Listed (site.id i) ↔ site.id i = i := by
  constructor
  · rintro ⟨inTable', same⟩
    exact SmpSite.id_inj inTable' inTable same
  · intro same
    rw [SmpSite.Listed, same]
    exact ⟨inTable, same⟩

/-- In whatever order the processors take their steps, each is on the stack of its own entry of
the table from when it has loaded one until its timer interrupts it, no two of them share one, at
most one of them is between its start and the magic number, and all of them have written the
magic number when `smp_start` returns. -/
theorem smp_start_safe (reached : Reachable SmpStart (SmpStep site) s) :
    (∀ id, (s.aps id).phase.OnStack →
      ∃ i < site.ids.length, site.id i = id ∧ id ≠ site.own ∧ s.kstack id = site.stackAlloc i ∧
        (s.aps id).cr3 = site.pml4tPa ∧ (s.aps id).rsp = site.stackAlloc i ∧
        ((s.aps id).phase ≠ .calls → (s.aps id).entry = site.initSmp)) ∧
      (∀ id id', (s.aps id).phase.OnStack → (s.aps id').phase.OnStack → id ≠ id' →
        (s.aps id).rsp + smpStackSize ≤ (s.aps id').rsp ∨
          (s.aps id').rsp + smpStackSize ≤ (s.aps id).rsp) ∧
      (∀ id id', (s.aps id).phase.Starting → (s.aps id').phase.Starting → id = id') ∧
      (s.bsp = .done → ∀ i < site.ids.length, site.id i ≠ site.own →
        (s.aps (site.id i)).Ready site i) := by
  have holds := invariant_of_reachable reached
  refine ⟨fun id onStack => holds.onStack onStack, ?_, ?_, ?_⟩
  · intro id id' onStack onStack' other
    obtain ⟨i, -, rfl, -, -, -, rsp, -⟩ := holds.onStack onStack
    obtain ⟨j, -, rfl, -, -, -, rsp', -⟩ := holds.onStack onStack'
    have apart := site.apart i j fun same => other (congrArg site.id same)
    rw [rsp, rsp', SmpSite.stackAlloc, SmpSite.stackAlloc]
    omega
  · intro id id' starting starting'
    exact (holds.starting starting).2.trans (holds.starting starting').2.symm
  · intro done i inTable other
    exact (holds.earlier i (holds.finished done ▸ inTable) other).2.2

def twoProcessors : SmpSite where
  ids := [0, 1]
  own := 0
  kalloc i := 0x100000 + i * smpStackSize
  gdtPtrPa := 0x5000
  pml4tPa := 0x6000
  initSmp := 0x8000
  smp32bitInitAddr := 0
  smp64bitInitAddr := 0x2040
  bytes := by decide
  nodup := by decide
  apart i j other := by
    unfold smpStackSize
    omega

def twoProcessorsStart : SmpState where
  bsp := .next
  i := 0
  info := ⟨0, 0, 0, 0, 0, 0, 0⟩
  aps _ := ⟨.stopped, 0, 0, 0⟩
  inFlight := none
  kstack _ := 0

theorem twoProcessors_start : SmpStart twoProcessorsStart := ⟨rfl, rfl, fun _ => rfl, rfl⟩

def starting (steps : Nat) : List SmpAgent :=
  List.replicate 9 .first ++ (List.replicate 4 [.first, .delivery, .first]).flatten ++
    List.replicate steps (.other 1)

def second (s : SmpState) : BspPhase × ApPhase × Nat × Nat :=
  (s.bsp, (s.aps 1).phase, (s.aps 1).rsp, s.kstack 1)

def runOf (agents : List SmpAgent) : Option SmpState :=
  agents.foldlM (SmpState.step twoProcessors) twoProcessorsStart

theorem run_of_agents {agents : List SmpAgent} {s t : SmpState}
    (run : agents.foldlM (SmpState.step site) s = some t) :
    Relation.ReflTransGen (SmpStep site) s t := by
  induction agents generalizing s with
  | nil =>
    obtain rfl := Option.some.inj run
    exact .refl
  | cons agent agents inductionHypothesis =>
    rw [List.foldlM_cons] at run
    obtain ⟨next, here, later⟩ := Option.bind_eq_some_iff.mp run
    exact .head ⟨agent, here⟩ (inductionHypothesis later)

theorem twoProcessors_run : ∃ s, Relation.ReflTransGen (SmpStep twoProcessors) twoProcessorsStart s ∧
    second s = (.done, .running, 0x120000, 0x120000) := by
  have ends : (runOf (starting 6 ++ [.first, .first])).map second =
      some (.done, .running, 0x120000, 0x120000) := by decide
  obtain ⟨s, run, here⟩ := Option.map_eq_some_iff.mp ends
  exact ⟨s, run_of_agents run, here⟩

theorem smp_start_safe_two :
    ∃ s, second s = (.done, .running, 0x120000, 0x120000) ∧
      (∀ id, (s.aps id).phase.OnStack →
        ∃ i < 2, twoProcessors.id i = id ∧ id ≠ 0 ∧ s.kstack id = twoProcessors.stackAlloc i ∧
          (s.aps id).cr3 = 0x6000 ∧ (s.aps id).rsp = twoProcessors.stackAlloc i ∧
          ((s.aps id).phase ≠ .calls → (s.aps id).entry = 0x8000)) ∧
      (s.aps 1).Ready twoProcessors 1 := by
  obtain ⟨s, run, here⟩ := twoProcessors_run
  have reached : Reachable SmpStart (SmpStep twoProcessors) s := ⟨_, twoProcessors_start, run⟩
  obtain ⟨onStacks, -, -, ready⟩ := smp_start_safe reached
  exact ⟨s, here, onStacks, ready (congrArg Prod.fst here) 1 (by decide) (by decide)⟩

/-- In whatever order the processors take their steps, the start of them ends.  Every other
processor has written the magic number, or the first whose id is not its place in the table makes
the first processor panic after those before it were started, or the first processor waits for
ever for one that was interrupted by its timer before it had written the magic number. -/
theorem smp_start_ends {run : Nat → SmpState} (maximal : Maximal (SmpStep site) run)
    (started : SmpStart (run 0)) :
    ∃ n, ((run n).bsp = .done ∧ ∀ i < site.ids.length, site.id i ≠ site.own →
        site.id i = i ∧ ((run n).aps (site.id i)).Ready site i) ∨
      ((run n).bsp = .panics ∧ (run n).i < site.ids.length ∧ site.id (run n).i ≠ site.own ∧
        site.id (run n).i ≠ (run n).i ∧ ∀ i < (run n).i, site.id i ≠ site.own →
          site.id i = i ∧ ((run n).aps (site.id i)).Ready site i) ∨
      ((run n).bsp = .waits ∧ ((run n).aps (site.id (run n).i)).phase = .lost ∧
        ∀ m, n ≤ m → run m = run n) := by
  obtain ⟨n, reached, stuck⟩ := reaches_end maximal started
  have holds : (run n).Invariant site := invariant_of_reachable reached
  have before : ∀ i < (run n).i, site.id i ≠ site.own →
      site.id i = i ∧ ((run n).aps (site.id i)).Ready site i := by
    intro i earlier other
    obtain ⟨listed, -, ready⟩ := holds.earlier i earlier other
    exact ⟨(SmpSite.listed_iff (Nat.lt_of_lt_of_le earlier holds.bound)).mp listed, ready⟩
  refine ⟨n, ?_⟩
  rcases holds.stuck stuck with done | panicked | ⟨waits, lost⟩
  · refine .inl ⟨done, ?_⟩
    rwa [holds.finished done] at before
  · obtain ⟨inTable, other, unlisted⟩ := holds.panicked panicked
    refine .inr (.inl ⟨panicked, inTable, other, ?_, before⟩)
    exact fun same => unlisted ((SmpSite.listed_iff inTable).mpr same)
  · exact .inr (.inr ⟨waits, lost, fun m later => maximal.stays stuck later⟩)

theorem smp_start_ends_two :
    ∃ run, run 0 = twoProcessorsStart ∧ Maximal (SmpStep twoProcessors) run ∧
      (∃ n, second (run n) = (.done, .running, 0x120000, 0x120000)) ∧
      ∃ n, ((run n).bsp = .done ∧ ∀ i < 2, twoProcessors.id i ≠ 0 →
          twoProcessors.id i = i ∧ ((run n).aps (twoProcessors.id i)).Ready twoProcessors i) ∨
        ((run n).bsp = .panics ∧ (run n).i < 2 ∧ twoProcessors.id (run n).i ≠ 0 ∧
          twoProcessors.id (run n).i ≠ (run n).i ∧ ∀ i < (run n).i, twoProcessors.id i ≠ 0 →
            twoProcessors.id i = i ∧ ((run n).aps (twoProcessors.id i)).Ready twoProcessors i) ∨
        ((run n).bsp = .waits ∧ ((run n).aps (twoProcessors.id (run n).i)).phase = .lost ∧
          ∀ m, n ≤ m → run m = run n) := by
  obtain ⟨s, through, here⟩ := twoProcessors_run
  obtain ⟨run, first, maximal, n, rfl⟩ := Maximal.exists_through through
  have started : SmpStart (run 0) := first ▸ twoProcessors_start
  exact ⟨run, first, maximal, ⟨n, here⟩, smp_start_ends maximal started⟩

/-- Interrupted too early, the other processor leaves the first one waiting. -/
example : (runOf (starting 5 ++ [.timer 1])).map second =
    some (.waits, .lost, 0x120000, 0x120000) := by decide

end SwagOS.Kernel
