import Mathlib.Data.List.GetD
import Mathlib.Data.List.Nodup
import SwagOS.Kernel.SmpStart

/-!
# How far the start of the processors is

One structure serves for all processors, so each of them has to be through with it before the
next one is told.  The invariant follows the first processor through its loop: those before its
entry have written the magic number, those after it are stopped, and the one at its entry is as
far as the messages that it has taken.
-/

namespace SwagOS.Kernel

open SwagOS.Lib

def ApPhase.Starting : ApPhase → Prop
  | .smpInit | .smp64bitInit | .calls | .initSmp | .enabled | .timed => True
  | _ => False

/-- A processor that has written the magic number, on the stack of its entry until its timer
interrupts it. -/
structure Ap.Ready (site : SmpSite) (i : Nat) (ap : Ap) : Prop where
  phase : ap.phase = .running ∨ ap.phase = .scheduled
  cr3 : ap.cr3 = site.pml4tPa
  rsp : ap.rsp = site.stackAlloc i
  entry : ap.entry = site.initSmp

/-- A processor that was started has loaded what it was to load, and it has written the magic
number when it runs. -/
def Ap.Started (site : SmpSite) (i magic : Nat) (ap : Ap) : Prop :=
  match ap.phase with
  | .smpInit => magic = 0x1111
  | .smp64bitInit => magic = 0x1111 ∧ ap.cr3 = site.pml4tPa
  | .calls => magic = 0x1111 ∧ ap.cr3 = site.pml4tPa ∧ ap.rsp = site.stackAlloc i
  | .initSmp | .enabled | .timed => magic = 0x1111 ∧ ap.cr3 = site.pml4tPa ∧
      ap.rsp = site.stackAlloc i ∧ ap.entry = site.initSmp
  | .running | .scheduled => magic = smpInfoMagic ∧ ap.Ready site i
  | .lost => magic = 0x1111
  | _ => False

def Ap.Told (site : SmpSite) (i messages magic : Nat) (ap : Ap) : Prop :=
  if messages = 0 then ap.phase = .stopped ∧ magic = 0x1111
  else if messages < 3 then ap.phase = .waitSipi ∧ magic = 0x1111
  else ap.Started site i magic

/-- The structure tells a processor what its entry says. -/
structure SmpInfo.For (site : SmpSite) (i : Nat) (info : SmpInfo) : Prop where
  pml4tPa : info.pml4tPa = site.pml4tPa
  kstackVa : info.kstackVa = site.stackAlloc i
  entry : info.entry = site.initSmp

structure SmpInfo.Stored (site : SmpSite) (i k : Nat) (info : SmpInfo) : Prop where
  entry : 0 < k → info.entry = site.initSmp
  kstackVa : 2 < k → info.kstackVa = site.stackAlloc i
  pml4tPa : 3 < k → info.pml4tPa = site.pml4tPa
  magic : 4 < k → info.magic = 0x1111

def BspPhase.InCall : BspPhase → Prop
  | .next | .done | .panics => False
  | _ => True

/-- What holds of the processor of entry `i` at a place of the loop. -/
def Current (site : SmpSite) (i : Nat) (info : SmpInfo) (ap : Ap)
    (inFlight : Option (Nat × Nat)) : BspPhase → Prop
  | .next | .done | .panics => inFlight = none
  | .writes k => k < 7 ∧ inFlight = none ∧ ap.phase = .stopped ∧ info.Stored site i k
  | .sends k => k < 4 ∧ inFlight = none ∧ info.For site i ∧ ap.Told site i k info.magic
  | .delivers k => k < 4 ∧ info.For site i ∧
      (inFlight = none ∧ ap.Told site i (k + 1) info.magic ∨
        inFlight = some (site.id i, startCommands.getD k 0) ∧ ap.Told site i k info.magic)
  | .waits => inFlight = none ∧ info.For site i ∧ ap.Told site i 4 info.magic

/-- Processor `id` is that of an entry whose call was made. -/
def SmpState.Begun (site : SmpSite) (s : SmpState) (id : Nat) : Prop :=
  ∃ j, j < site.ids.length ∧ site.id j = id ∧ id ≠ site.own ∧ (j < s.i ∨ j = s.i ∧ s.bsp.InCall)

structure SmpState.Invariant (site : SmpSite) (s : SmpState) : Prop where
  bound : s.i ≤ site.ids.length
  finished : s.bsp = .done → s.i = site.ids.length
  panicked : s.bsp = .panics →
    s.i < site.ids.length ∧ site.id s.i ≠ site.own ∧ ¬site.Listed (site.id s.i)
  called : s.bsp.InCall →
    s.i < site.ids.length ∧ site.id s.i ≠ site.own ∧ site.Listed (site.id s.i) ∧
      s.kstack (site.id s.i) = site.stackAlloc s.i
  earlier : ∀ j < s.i, site.id j ≠ site.own →
    site.Listed (site.id j) ∧ s.kstack (site.id j) = site.stackAlloc j ∧
      (s.aps (site.id j)).Ready site j
  others : ∀ id, ¬s.Begun site id → (s.aps id).phase = .stopped
  current : Current site s.i s.info (s.aps (site.id s.i)) s.inFlight s.bsp

variable {site : SmpSite} {s t : SmpState}

theorem SmpSite.id_lt {i : Nat} (inTable : i < site.ids.length) : site.id i < 2 ^ 8 := by
  rw [SmpSite.id, List.getD_eq_getElem _ _ inTable]
  exact site.bytes _ (List.getElem_mem inTable)

theorem SmpSite.id_inj {i j : Nat} (inTable : i < site.ids.length) (inTable' : j < site.ids.length)
    (same : site.id i = site.id j) : i = j := by
  rw [SmpSite.id, SmpSite.id, List.getD_eq_getElem _ _ inTable,
    List.getD_eq_getElem _ _ inTable'] at same
  exact (List.Nodup.getElem_inj_iff site.nodup).mp same

theorem SmpInfo.fieldAt_fields (info : SmpInfo) :
    fieldAt info.fields offsetPml4t = info.pml4tPa ∧
      fieldAt info.fields offsetKstack = info.kstackVa ∧
      fieldAt info.fields offsetEntry = info.entry :=
  ⟨rfl, rfl, rfl⟩

theorem SmpInfo.Stored.storeField {i k : Nat} {info : SmpInfo} (stored : info.Stored site i k) :
    (site.storeField i info k).Stored site i (k + 1) := by
  obtain ⟨entry, kstackVa, pml4tPa, magic⟩ := stored
  rcases k with _ | _ | _ | _ | _ | _ | k <;> constructor <;> intro later
  all_goals
    first
    | rfl
    | exact entry (by omega)
    | exact kstackVa (by omega)
    | exact pml4tPa (by omega)
    | exact magic (by omega)

theorem Ap.Told.take {i k magic : Nat} {ap : Ap} (inBounds : k < 4)
    (told : ap.Told site i k magic) :
    (ap.take (startCommands.getD k 0)).Told site i (k + 1) magic := by
  rcases k with _ | _ | _ | _ | k
  · exact ⟨rfl, told.2⟩
  · exact told
  · obtain ⟨phase, magic⟩ := told
    have starts : (ap.take 0x4602).phase = .smpInit := by simp [Ap.take, phase, smpInitAddr]
    show (ap.take 0x4602).Started site i _
    simp only [Ap.Started, starts]
    exact magic
  · have same : ap.take 0x4602 = ap := by
      simp only [Ap.take]
      rw [if_neg (by simp), if_neg ?_]
      rintro ⟨-, phase, -⟩
      rw [Ap.Told, if_neg (by decide), if_neg (by decide), Ap.Started, phase] at told
      exact told
    show (ap.take 0x4602).Started site i _
    rw [same]
    exact told
  · omega

theorem Ap.Started.step {i : Nat} {ap ap' : Ap} {info info' : SmpInfo} (forIt : info.For site i)
    (started : ap.Started site i info.magic) (step : ap.step info = some (ap', info')) :
    ap'.Started site i info'.magic ∧ info'.For site i := by
  obtain ⟨pml4t, kstack, entry⟩ := info.fieldAt_fields
  unfold Ap.Started at started
  unfold Ap.step at step
  cases phase : ap.phase with
  | smpInit =>
    rw [phase] at started step
    obtain ⟨rfl, rfl⟩ := Prod.mk.inj (Option.some.inj step)
    exact ⟨⟨started, pml4t.trans forIt.pml4tPa⟩, forIt⟩
  | smp64bitInit =>
    rw [phase] at started step
    obtain ⟨rfl, rfl⟩ := Prod.mk.inj (Option.some.inj step)
    exact ⟨⟨started.1, started.2, kstack.trans forIt.kstackVa⟩, forIt⟩
  | calls =>
    rw [phase] at started step
    obtain ⟨rfl, rfl⟩ := Prod.mk.inj (Option.some.inj step)
    exact ⟨⟨started.1, started.2.1, started.2.2, entry.trans forIt.entry⟩, forIt⟩
  | initSmp | enabled =>
    rw [phase] at started step
    obtain ⟨rfl, rfl⟩ := Prod.mk.inj (Option.some.inj step)
    exact ⟨started, forIt⟩
  | timed =>
    rw [phase] at started step
    obtain ⟨rfl, rfl⟩ := Prod.mk.inj (Option.some.inj step)
    exact ⟨⟨rfl, .inl rfl, started.2.1, started.2.2.1, started.2.2.2⟩, forIt.pml4tPa,
      forIt.kstackVa, forIt.entry⟩
  | running | scheduled | lost =>
    rw [phase] at step
    cases step
  | _ =>
    rw [phase] at started
    cases started

theorem ApPhase.starting_of_step {ap ap' : Ap} {info info' : SmpInfo}
    (step : ap.step info = some (ap', info')) : ap.phase.Starting := by
  unfold Ap.step at step
  cases phase : ap.phase with
  | smpInit | smp64bitInit | calls | initSmp | enabled | timed => trivial
  | stopped | waitSipi | running | scheduled | lost =>
    rw [phase] at step
    cases step

theorem SmpState.Invariant.inTable (holds : s.Invariant site) {j : Nat}
    (place : j < s.i ∨ j = s.i ∧ s.bsp.InCall) : j < site.ids.length := by
  rcases place with before | ⟨rfl, inCall⟩
  · exact Nat.lt_of_lt_of_le before holds.bound
  · exact (holds.called inCall).1

/-- A processor that was begun is that of the entry of the loop, or it runs. -/
theorem SmpState.Invariant.begun (holds : s.Invariant site) {id : Nat} (begun : s.Begun site id) :
    (s.bsp.InCall ∧ id = site.id s.i) ∨ ∃ j < s.i, site.id j = id ∧ id ≠ site.own ∧
      site.Listed id ∧ s.kstack id = site.stackAlloc j ∧ (s.aps id).Ready site j := by
  obtain ⟨j, inTable, rfl, other, before | ⟨rfl, inCall⟩⟩ := begun
  · exact .inr ⟨j, before, rfl, other, holds.earlier j before other⟩
  · exact .inl ⟨inCall, rfl⟩

/-- Only the processor of the entry of the loop is on its way. -/
theorem SmpState.Invariant.starting (holds : s.Invariant site) {id : Nat}
    (starting : (s.aps id).phase.Starting) : s.bsp.InCall ∧ id = site.id s.i := by
  by_cases begun : s.Begun site id
  · rcases holds.begun begun with here | ⟨j, -, -, -, -, -, ready⟩
    · exact here
    · rcases ready.phase with phase | phase
      · rw [phase] at starting
        exact starting.elim
      · rw [phase] at starting
        exact starting.elim
  · rw [holds.others id begun] at starting
    exact starting.elim

/-- In a call only the processor of the entry of the loop changes. -/
theorem SmpState.Invariant.inCall (holds : s.Invariant site) (inCall : s.bsp.InCall)
    {bsp : BspPhase} (inCall' : bsp.InCall) {info : SmpInfo} {aps : Nat → Ap}
    {inFlight : Option (Nat × Nat)} (same : ∀ id ≠ site.id s.i, aps id = s.aps id)
    (current : Current site s.i info (aps (site.id s.i)) inFlight bsp) :
    ({ s with bsp, info, aps, inFlight } : SmpState).Invariant site := by
  obtain ⟨inTable, other, listed, kstack⟩ := holds.called inCall
  refine ⟨holds.bound, ?_, ?_, fun _ => holds.called inCall, ?_, ?_, current⟩
  · rintro rfl
    exact inCall'.elim
  · rintro rfl
    exact inCall'.elim
  · intro j before other'
    have apart : site.id j ≠ site.id s.i := by
      intro same
      have here : j = s.i := SmpSite.id_inj (Nat.lt_trans before inTable) inTable same
      exact absurd (here ▸ before) (Nat.lt_irrefl s.i)
    show _ ∧ _ ∧ (aps (site.id j)).Ready site j
    rw [same _ apart]
    exact holds.earlier j before other'
  · intro id notBegun
    have apart : id ≠ site.id s.i := by
      rintro rfl
      exact notBegun ⟨s.i, inTable, rfl, other, .inr ⟨rfl, inCall'⟩⟩
    show (aps id).phase = .stopped
    rw [same id apart]
    refine holds.others id fun begun => notBegun ?_
    obtain ⟨j, inTable', rfl, other', place⟩ := begun
    exact ⟨j, inTable', rfl, other', place.imp_right fun here => ⟨here.1, inCall'⟩⟩

theorem SmpState.Invariant.next (holds : s.Invariant site) (inTable : s.i < site.ids.length)
    (noFlight : s.inFlight = none)
    (ready : site.id s.i ≠ site.own →
      site.Listed (site.id s.i) ∧ s.kstack (site.id s.i) = site.stackAlloc s.i ∧
        (s.aps (site.id s.i)).Ready site s.i) :
    ({ s with bsp := .next, i := s.i + 1 } : SmpState).Invariant site := by
  refine ⟨inTable, nofun, nofun, False.elim, ?_, ?_, noFlight⟩
  · intro j before other
    rcases Nat.lt_succ_iff_lt_or_eq.mp before with earlier | rfl
    · exact holds.earlier j earlier other
    · exact ready other
  · intro id notBegun
    refine holds.others id fun begun => notBegun ?_
    obtain ⟨j, inTable', rfl, other, earlier | ⟨rfl, -⟩⟩ := begun
    · exact ⟨j, inTable', rfl, other, .inl (Nat.lt_succ_of_lt earlier)⟩
    · exact ⟨s.i, inTable', rfl, other, .inl (Nat.lt_succ_self s.i)⟩

theorem SmpState.Invariant.begins (holds : s.Invariant site) (bsp : s.bsp = .next)
    (inTable : s.i < site.ids.length) (other : site.id s.i ≠ site.own)
    (listed : site.Listed (site.id s.i)) :
    ({ s with bsp := .writes 0,
              kstack := Function.update s.kstack (site.id s.i) (site.stackAlloc s.i) } :
        SmpState).Invariant site := by
  have notBegun : ¬s.Begun site (site.id s.i) := by
    rintro ⟨j, inTable', same, -, before | ⟨-, inCall⟩⟩
    · exact absurd (SmpSite.id_inj inTable' inTable same ▸ before) (Nat.lt_irrefl _)
    · rw [bsp] at inCall
      exact inCall
  have noFlight : s.inFlight = none := by
    have current := holds.current
    rw [bsp] at current
    exact current
  refine ⟨holds.bound, nofun, nofun, ?_, ?_, ?_, ?_⟩
  · exact fun _ => ⟨inTable, other, listed, Function.update_self ..⟩
  · intro j before other'
    obtain ⟨listed', kstack, ready⟩ := holds.earlier j before other'
    refine ⟨listed', ?_, ready⟩
    refine (Function.update_of_ne ?_ ..).trans kstack
    intro same
    have here : j = s.i := SmpSite.id_inj (Nat.lt_trans before inTable) inTable same
    exact absurd (here ▸ before) (Nat.lt_irrefl s.i)
  · intro id notBegun'
    refine holds.others id fun begun => notBegun' ?_
    obtain ⟨j, inTable', rfl, other', place⟩ := begun
    exact ⟨j, inTable', rfl, other', place.imp_right fun here => ⟨here.1, trivial⟩⟩
  · exact ⟨by decide, noFlight, holds.others _ notBegun, nofun, nofun, nofun, nofun⟩

theorem SmpState.Invariant.leaves (holds : s.Invariant site) (bsp : s.bsp = .next) {bsp' : BspPhase}
    (finished : bsp' = .done → s.i = site.ids.length)
    (panicked : bsp' = .panics →
      s.i < site.ids.length ∧ site.id s.i ≠ site.own ∧ ¬site.Listed (site.id s.i))
    (left : bsp' = .done ∨ bsp' = .panics) :
    ({ s with bsp := bsp' } : SmpState).Invariant site := by
  have noFlight : s.inFlight = none := by
    have current := holds.current
    rw [bsp] at current
    exact current
  refine ⟨holds.bound, finished, panicked, ?_, holds.earlier, ?_, ?_⟩
  · rcases left with rfl | rfl <;> exact False.elim
  · intro id notBegun
    refine holds.others id fun begun => notBegun ?_
    obtain ⟨j, inTable, rfl, other, before | ⟨-, inCall⟩⟩ := begun
    · exact ⟨j, inTable, rfl, other, .inl before⟩
    · rw [bsp] at inCall
      exact inCall.elim
  · rcases left with rfl | rfl <;> exact noFlight

theorem SmpState.invariant_start (started : SmpStart s) : s.Invariant site := by
  obtain ⟨bsp, i, aps, inFlight⟩ := started
  refine ⟨?_, ?_, ?_, ?_, ?_, ?_, ?_⟩
  · rw [i]
    exact Nat.zero_le _
  · intro done
    cases bsp.symm.trans done
  · intro panicked
    cases bsp.symm.trans panicked
  · rw [bsp]
    exact False.elim
  · intro j before
    exact absurd (i ▸ before) (Nat.not_lt_zero j)
  · exact fun id _ => aps id
  · rw [bsp]
    exact inFlight

theorem Ap.Told.step {i messages : Nat} {ap ap' : Ap} {info info' : SmpInfo}
    (forIt : info.For site i) (told : ap.Told site i messages info.magic)
    (step : ap.step info = some (ap', info')) :
    ap'.Told site i messages info'.magic ∧ info'.For site i := by
  unfold Ap.Told at told ⊢
  by_cases first : messages = 0
  · rw [if_pos first] at told
    rw [Ap.step, told.1] at step
    cases step
  · by_cases waits : messages < 3
    · rw [if_neg first, if_pos waits] at told
      rw [Ap.step, told.1] at step
      cases step
    · rw [if_neg first, if_neg waits] at told ⊢
      exact told.step forIt step

variable {i : Nat} {info info' : SmpInfo} {ap ap' : Ap} {inFlight : Option (Nat × Nat)}
  {bsp : BspPhase}

theorem Ap.tick_some (tick : ap.tick = some ap') :
    ap.phase = .timed ∧ ap' = { ap with phase := .lost } ∨
      ap.phase = .running ∧ ap' = { ap with phase := .scheduled } := by
  unfold Ap.tick at tick
  cases phase : ap.phase with
  | timed =>
    rw [phase] at tick
    exact .inl ⟨rfl, (Option.some.inj tick).symm⟩
  | running =>
    rw [phase] at tick
    exact .inr ⟨rfl, (Option.some.inj tick).symm⟩
  | _ =>
    rw [phase] at tick
    cases tick

theorem Ap.Ready.tick (ready : ap.Ready site i) (tick : ap.tick = some ap') :
    ap'.Ready site i := by
  rcases Ap.tick_some tick with ⟨phase, -⟩ | ⟨-, rfl⟩
  · rcases ready.phase with running | scheduled
    · cases phase.symm.trans running
    · cases phase.symm.trans scheduled
  · exact ⟨.inr rfl, ready.cr3, ready.rsp, ready.entry⟩

theorem Ap.Told.tick {messages magic : Nat} (told : ap.Told site i messages magic)
    (tick : ap.tick = some ap') : ap'.Told site i messages magic := by
  unfold Ap.Told at told ⊢
  rcases Ap.tick_some tick with ⟨phase, rfl⟩ | ⟨phase, rfl⟩
  · split_ifs at told ⊢ with first waits
    · cases phase.symm.trans told.1
    · cases phase.symm.trans told.1
    · rw [Ap.Started, phase] at told
      exact told.1
  · split_ifs at told ⊢ with first waits
    · cases phase.symm.trans told.1
    · cases phase.symm.trans told.1
    · rw [Ap.Started, phase] at told
      exact ⟨told.1, told.2.tick tick⟩

/-- The processor of the entry changes after it was told to start. -/
theorem Current.changes (current : Current site i info ap inFlight bsp)
    (started : ap.phase ≠ .stopped)
    (kept : ∀ messages, info.For site i → ap.Told site i messages info.magic →
      ap'.Told site i messages info'.magic ∧ info'.For site i) :
    Current site i info' ap' inFlight bsp := by
  cases bsp with
  | next | done | panics => exact current
  | writes k =>
    obtain ⟨-, -, stopped, -⟩ := current
    exact absurd stopped started
  | sends k =>
    obtain ⟨inBounds, noFlight, forIt, told⟩ := current
    obtain ⟨told, forIt⟩ := kept k forIt told
    exact ⟨inBounds, noFlight, forIt, told⟩
  | delivers k =>
    obtain ⟨inBounds, forIt, ⟨noFlight, told⟩ | ⟨inFlight, told⟩⟩ := current
    · obtain ⟨told, forIt⟩ := kept (k + 1) forIt told
      exact ⟨inBounds, forIt, .inl ⟨noFlight, told⟩⟩
    · obtain ⟨told, forIt⟩ := kept k forIt told
      exact ⟨inBounds, forIt, .inr ⟨inFlight, told⟩⟩
  | waits =>
    obtain ⟨noFlight, forIt, told⟩ := current
    obtain ⟨told, forIt⟩ := kept 4 forIt told
    exact ⟨noFlight, forIt, told⟩

theorem Current.step (current : Current site i info ap inFlight bsp)
    (step : ap.step info = some (ap', info')) : Current site i info' ap' inFlight bsp := by
  refine current.changes ?_ fun messages forIt told => told.step forIt step
  intro stopped
  rw [Ap.step, stopped] at step
  cases step

theorem Current.tick (current : Current site i info ap inFlight bsp)
    (tick : ap.tick = some ap') : Current site i info ap' inFlight bsp := by
  refine current.changes ?_ fun messages forIt told => ⟨told.tick tick, forIt⟩
  intro stopped
  rw [Ap.tick, stopped] at tick
  cases tick

theorem Current.deliver {id command : Nat}
    (current : Current site i info ap (some (id, command)) bsp) :
    id = site.id i ∧ bsp.InCall ∧ Current site i info (ap.take command) none bsp := by
  cases bsp with
  | next | done | panics => cases current
  | writes k => cases current.2.1
  | sends k => cases current.2.1
  | waits => cases current.1
  | delivers k =>
    obtain ⟨inBounds, forIt, ⟨noFlight, -⟩ | ⟨inFlight, told⟩⟩ := current
    · cases noFlight
    · obtain ⟨rfl, rfl⟩ := Prod.mk.inj (Option.some.inj inFlight)
      exact ⟨rfl, trivial, inBounds, forIt, .inl ⟨rfl, told.take inBounds⟩⟩

theorem Current.store {k : Nat} (current : Current site i info ap inFlight (.writes k)) :
    Current site i (site.storeField i info k) ap inFlight
      (if k < 6 then .writes (k + 1) else .sends 0) := by
  obtain ⟨inBounds, noFlight, stopped, stored⟩ := current
  have stored := stored.storeField
  split
  · exact ⟨by omega, noFlight, stopped, stored⟩
  · exact ⟨by omega, noFlight, ⟨stored.pml4tPa (by omega), stored.kstackVa (by omega),
      stored.entry (by omega)⟩, stopped, stored.magic (by omega)⟩

theorem Current.send {k : Nat} (inTable : i < site.ids.length)
    (current : Current site i info ap inFlight (.sends k)) :
    Current site i info ap (some (site.id i % 2 ^ 8, startCommands.getD k 0)) (.delivers k) := by
  obtain ⟨inBounds, -, forIt, told⟩ := current
  rw [Nat.mod_eq_of_lt (SmpSite.id_lt inTable)]
  exact ⟨inBounds, forIt, .inr ⟨rfl, told⟩⟩

theorem Current.delivered {k : Nat} (current : Current site i info ap none (.delivers k)) :
    Current site i info ap none (if k < 3 then .sends (k + 1) else .waits) := by
  obtain ⟨inBounds, forIt, ⟨noFlight, told⟩ | ⟨inFlight, -⟩⟩ := current
  · split
    · exact ⟨by omega, rfl, forIt, told⟩
    · obtain rfl : k = 3 := by omega
      exact ⟨rfl, forIt, told⟩
  · cases inFlight

theorem Current.goesOn (current : Current site i info ap inFlight .waits)
    (magic : info.magic = smpInfoMagic) : inFlight = none ∧ ap.Ready site i := by
  obtain ⟨noFlight, -, told⟩ := current
  refine ⟨noFlight, ?_⟩
  have started : ap.Started site i info.magic := told
  have unset : info.magic ≠ 0x1111 := by
    rw [magic]
    decide
  unfold Ap.Started at started
  cases phase : ap.phase with
  | running | scheduled =>
    rw [phase] at started
    exact started.2
  | smpInit | lost =>
    rw [phase] at started
    exact absurd started unset
  | smp64bitInit | calls | initSmp | enabled | timed =>
    rw [phase] at started
    exact absurd started.1 unset
  | stopped | waitSipi =>
    rw [phase] at started
    exact started.elim

theorem SmpState.Invariant.start (holds : s.Invariant site) (step : s.start site = some t) :
    t.Invariant site := by
  have current := holds.current
  unfold SmpState.start at step
  cases bsp : s.bsp with
  | next =>
    rw [bsp] at step current
    dsimp only at step
    split_ifs at step with inTable own listed
    · obtain rfl := Option.some.inj step
      exact holds.next inTable current fun other => absurd own other
    · obtain rfl := Option.some.inj step
      exact holds.begins bsp inTable own listed
    · obtain rfl := Option.some.inj step
      exact holds.leaves bsp nofun (fun _ => ⟨inTable, own, listed⟩) (.inr rfl)
    · obtain rfl := Option.some.inj step
      exact holds.leaves bsp (fun _ => Nat.le_antisymm holds.bound (Nat.le_of_not_lt inTable)) nofun
        (.inl rfl)
  | writes k =>
    rw [bsp] at step current
    obtain rfl := Option.some.inj step
    exact holds.inCall (bsp ▸ trivial) (by split <;> trivial) (fun _ _ => rfl) current.store
  | sends k =>
    have inCall : s.bsp.InCall := bsp ▸ trivial
    rw [bsp] at step current
    obtain rfl := Option.some.inj step
    have inCall' : (BspPhase.delivers k).InCall := trivial
    exact holds.inCall inCall inCall' (fun _ _ => rfl) (current.send (holds.called inCall).1)
  | delivers k =>
    rw [bsp] at step current
    by_cases noFlight : s.inFlight = none
    · obtain rfl := Option.some.inj ((if_pos noFlight).symm.trans step)
      rw [noFlight] at current
      exact holds.inCall (bsp ▸ trivial) (by split <;> trivial) (fun _ _ => rfl)
        (noFlight ▸ current.delivered)
    · cases (if_neg noFlight).symm.trans step
  | waits =>
    rw [bsp] at step current
    dsimp only at step
    split_ifs at step with magic
    obtain rfl := Option.some.inj step
    obtain ⟨inTable, -, listed, kstack⟩ := holds.called (bsp ▸ trivial)
    obtain ⟨noFlight, ready⟩ := current.goesOn magic
    exact holds.next inTable noFlight fun _ => ⟨listed, kstack, ready⟩
  | done | panics =>
    rw [bsp] at step
    cases step

theorem SmpState.Invariant.deliver (holds : s.Invariant site) (step : s.deliver = some t) :
    t.Invariant site := by
  have current := holds.current
  obtain ⟨⟨id, command⟩, inFlight, rfl⟩ := Option.map_eq_some_iff.mp step
  rw [inFlight] at current
  obtain ⟨rfl, inCall, current⟩ := current.deliver
  refine holds.inCall inCall inCall (fun _ other => Function.update_of_ne other ..) ?_
  rwa [Function.update_self]

theorem SmpState.Invariant.runs (holds : s.Invariant site) {id : Nat} (step : s.runs id = some t) :
    t.Invariant site := by
  obtain ⟨⟨ap, info⟩, moved, rfl⟩ := Option.map_eq_some_iff.mp step
  obtain ⟨inCall, rfl⟩ := holds.starting (ApPhase.starting_of_step moved)
  refine holds.inCall inCall inCall (fun _ other => Function.update_of_ne other ..) ?_
  rw [Function.update_self]
  exact holds.current.step moved

theorem SmpState.Invariant.ticksEarlier (holds : s.Invariant site) {j : Nat} (before : j < s.i)
    (other : site.id j ≠ site.own) {ap : Ap} (tick : (s.aps (site.id j)).tick = some ap) :
    ({ s with aps := Function.update s.aps (site.id j) ap } : SmpState).Invariant site := by
  have inTable : j < site.ids.length := Nat.lt_of_lt_of_le before holds.bound
  refine ⟨holds.bound, holds.finished, holds.panicked, holds.called, ?_, ?_, ?_⟩
  · intro k before' other'
    obtain ⟨listed, kstack, ready⟩ := holds.earlier k before' other'
    refine ⟨listed, kstack, ?_⟩
    show (Function.update s.aps (site.id j) ap (site.id k)).Ready site k
    by_cases same : site.id k = site.id j
    · rw [same] at ready ⊢
      rw [Function.update_self]
      exact ready.tick tick
    · rwa [Function.update_of_ne same]
  · intro id notBegun
    have apart : id ≠ site.id j := by
      rintro rfl
      exact notBegun ⟨j, inTable, rfl, other, .inl before⟩
    exact (congrArg Ap.phase (Function.update_of_ne apart ..)).trans (holds.others id notBegun)
  · have current := holds.current
    dsimp only
    by_cases inCall : s.bsp.InCall
    · have apart : site.id s.i ≠ site.id j := by
        intro same
        have here := SmpSite.id_inj (holds.called inCall).1 inTable same
        exact absurd (here ▸ before) (Nat.lt_irrefl j)
      rwa [Function.update_of_ne apart]
    · cases bsp : s.bsp with
      | next | done | panics =>
        rw [bsp] at current
        exact current
      | _ => exact absurd (bsp ▸ trivial) inCall

theorem SmpState.Invariant.timer (holds : s.Invariant site) {id : Nat}
    (step : s.timer id = some t) : t.Invariant site := by
  obtain ⟨ap, tick, rfl⟩ := Option.map_eq_some_iff.mp step
  have begun : s.Begun site id := by
    by_contra notBegun
    rw [Ap.tick, holds.others id notBegun] at tick
    cases tick
  rcases holds.begun begun with ⟨inCall, rfl⟩ | ⟨j, before, rfl, other, -⟩
  · refine holds.inCall inCall inCall (fun _ other => Function.update_of_ne other ..) ?_
    rw [Function.update_self]
    exact holds.current.tick tick
  · exact holds.ticksEarlier before other tick

theorem SmpState.Invariant.step (holds : s.Invariant site) (step : SmpStep site s t) :
    t.Invariant site := by
  obtain ⟨agent, step⟩ := step
  cases agent with
  | first => exact holds.start step
  | delivery => exact holds.deliver step
  | other id => exact holds.runs step
  | timer id => exact holds.timer step

theorem invariant_of_reachable (reached : Reachable SmpStart (SmpStep site) s) :
    s.Invariant site :=
  reached.invariant (fun _ started => SmpState.invariant_start started)
    fun _ _ holds step => holds.step step

end SwagOS.Kernel
