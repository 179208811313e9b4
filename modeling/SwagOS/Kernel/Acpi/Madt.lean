import SwagOS.Kernel.Acpi

/-!
# The end of the MADT

The running length is ahead of the item by the records that follow, less the first one: it
counts the length of the record that comes next.  At the end of the table this is whatever byte
lies there.
-/

namespace SwagOS.Kernel

open SwagOS.Lib

variable {m : Bytes} {settings : MadtSettings}

structure MadtFits (m : Bytes) (records : List Nat) : Prop where
  cpus : (records.filter (isProcessor m)).length ≤ cpuEntries
  overrides : ∀ item ∈ records, itemType m item = madtItemIoApicSrcoverride →
    globalSysInt m item < maxInterruptOverrideCount

def RecordFits (m : Bytes) (settings : MadtSettings) (item : Nat) : Prop :=
  (isProcessor m item = true → settings.cpu.length < cpuEntries) ∧
    (itemType m item = madtItemIoApicSrcoverride →
      globalSysInt m item < maxInterruptOverrideCount)

def listed (m : Bytes) (item : Nat) : List MadtCpu :=
  if isProcessor m item then [⟨acpiProcID m item, item⟩] else []

theorem visitItem_ok {item : Nat} {settings' : MadtSettings}
    (done : visitItem m settings item = .ok settings') :
    RecordFits m settings item ∧ settings'.visited = settings.visited ++ [item] ∧
      settings'.cpu = settings.cpu ++ listed m item := by
  rw [visitItem] at done
  rw [RecordFits, listed, isProcessor]
  split at done
  next lapic =>
    have notOverride : itemType m item ≠ madtItemIoApicSrcoverride := by
      rw [lapic]
      decide
    split at done
    next enabled =>
      obtain ⟨room, done⟩ := Checked.check_bind_eq.mp done
      obtain rfl := Checked.pure_eq.mp done
      rw [if_pos (decide_eq_true ⟨lapic, enabled⟩)]
      exact ⟨⟨fun _ => room, fun override => absurd override notOverride⟩, rfl, rfl⟩
    next disabled =>
      obtain rfl := Checked.pure_eq.mp done
      have other : ¬decide (itemType m item = madtItemProcLapic ∧ lapicEnabled m item = true) = true :=
        fun processor => disabled (of_decide_eq_true processor).2
      rw [if_neg other, List.append_nil]
      exact ⟨⟨fun processor => absurd processor other, fun override => absurd override notOverride⟩,
        rfl, rfl⟩
  next notLapic =>
    have other : ¬decide (itemType m item = madtItemProcLapic ∧ lapicEnabled m item = true) = true :=
      fun processor => notLapic (of_decide_eq_true processor).1
    rw [if_neg other, List.append_nil]
    split at done
    next ioApic =>
      have notOverride : itemType m item ≠ madtItemIoApicSrcoverride := by
        rw [ioApic]
        decide
      obtain rfl := Checked.pure_eq.mp done
      exact ⟨⟨fun processor => absurd processor other, fun override => absurd override notOverride⟩,
        rfl, rfl⟩
    next =>
      split at done
      next override =>
        obtain ⟨room, done⟩ := Checked.check_bind_eq.mp done
        obtain rfl := Checked.pure_eq.mp done
        exact ⟨⟨fun processor => absurd processor other, fun _ => room⟩, rfl, rfl⟩
      next notOverride =>
        obtain rfl := Checked.pure_eq.mp done
        exact ⟨⟨fun processor => absurd processor other,
          fun override => absurd override notOverride⟩, rfl, rfl⟩

theorem visitItem_fits {item : Nat} (fits : RecordFits m settings item) :
    ∃ settings', visitItem m settings item = .ok settings' := by
  obtain ⟨room, bound⟩ := fits
  rw [visitItem]
  split
  next lapic =>
    split
    next enabled =>
      have room := room (decide_eq_true ⟨lapic, enabled⟩)
      exact ⟨_, Checked.check_bind_eq.mpr ⟨room, rfl⟩⟩
    next => exact ⟨_, rfl⟩
  next =>
    split
    next => exact ⟨_, rfl⟩
    next =>
      split
      next override => exact ⟨_, Checked.check_bind_eq.mpr ⟨bound override, rfl⟩⟩
      next => exact ⟨_, rfl⟩

theorem visitItems_ok {records : List Nat} {settings' : MadtSettings}
    (done : records.foldlM (visitItem m) settings = .ok settings') :
    (settings.cpu.length ≤ cpuEntries →
      settings.cpu.length + (records.filter (isProcessor m)).length ≤ cpuEntries) ∧
      (∀ item ∈ records, itemType m item = madtItemIoApicSrcoverride →
        globalSysInt m item < maxInterruptOverrideCount) ∧
      settings'.visited = settings.visited ++ records ∧
      settings'.cpu = settings.cpu ++ records.flatMap (listed m) := by
  induction records generalizing settings with
  | nil =>
    obtain rfl := Checked.pure_eq.mp done
    refine ⟨id, fun _ never => absurd never List.not_mem_nil, ?_, ?_⟩
    · rw [List.append_nil]
    · rw [List.flatMap_nil, List.append_nil]
  | cons item rest inductionHypothesis =>
    rw [List.foldlM_cons] at done
    obtain ⟨next, here, done⟩ := Checked.bind_eq.mp done
    obtain ⟨⟨room, bound⟩, visited, cpu⟩ := visitItem_ok here
    obtain ⟨room', bound', visited', cpu'⟩ := inductionHypothesis done
    refine ⟨?_, List.forall_mem_cons.mpr ⟨bound, bound'⟩, ?_, ?_⟩
    · intro enough
      rw [cpu, listed, List.length_append] at room'
      by_cases processor : isProcessor m item = true
      · rw [if_pos processor, List.length_singleton] at room'
        rw [List.filter_cons_of_pos processor, List.length_cons]
        have room := room processor
        omega
      · rw [if_neg processor, List.length_nil] at room'
        rw [List.filter_cons_of_neg processor]
        exact room' enough
    · rw [visited', visited, List.append_assoc]
      rfl
    · rw [cpu', cpu, List.append_assoc, List.flatMap_cons]

theorem visitItems_fit {records : List Nat}
    (cpus : settings.cpu.length + (records.filter (isProcessor m)).length ≤ cpuEntries)
    (overrides : ∀ item ∈ records, itemType m item = madtItemIoApicSrcoverride →
      globalSysInt m item < maxInterruptOverrideCount) :
    ∃ settings', records.foldlM (visitItem m) settings = .ok settings' := by
  induction records generalizing settings with
  | nil => exact ⟨settings, rfl⟩
  | cons item rest inductionHypothesis =>
    obtain ⟨bound, bounds⟩ := List.forall_mem_cons.mp overrides
    have fits : RecordFits m settings item := by
      refine ⟨fun processor => ?_, bound⟩
      rw [List.filter_cons_of_pos processor, List.length_cons] at cpus
      omega
    obtain ⟨next, here⟩ := visitItem_fits fits
    obtain ⟨-, -, cpu⟩ := visitItem_ok here
    have room : next.cpu.length + (rest.filter (isProcessor m)).length ≤ cpuEntries := by
      rw [cpu, listed, List.length_append]
      by_cases processor : isProcessor m item = true
      · rw [List.filter_cons_of_pos processor, List.length_cons] at cpus
        rw [if_pos processor, List.length_singleton]
        omega
      · rw [List.filter_cons_of_neg processor] at cpus
        rw [if_neg processor, List.length_nil]
        omega
    obtain ⟨settings', done⟩ := inductionHypothesis room bounds
    exact ⟨settings', Checked.bind_eq.mpr ⟨next, here, done⟩⟩

theorem flatMap_listed (records : List Nat) : records.flatMap (listed m) =
    (records.filter (isProcessor m)).map fun item => ⟨acpiProcID m item, item⟩ := by
  induction records with
  | nil => rfl
  | cons item rest inductionHypothesis =>
    rw [List.flatMap_cons, inductionHypothesis, listed]
    by_cases processor : isProcessor m item = true
    · rw [if_pos processor, List.filter_cons_of_pos processor]
      rfl
    · rw [if_neg processor, List.filter_cons_of_neg processor]
      rfl

theorem madtLength_lt (m : Bytes) : madtLength m < 2 ^ 32 := m.u32_lt 4

section Walk

variable {item : Nat} {rest : List Nat}

theorem MadtRecords.eq_length (all : MadtRecords m item []) : item = madtLength m := by
  cases all
  rfl

/-- The running length at a record, and at the next one. -/
theorem MadtRecords.step {first currLength : Nat} (all : MadtRecords m item rest)
    (large : 2 ≤ first) (ahead : currLength + first = item) (some_ : rest ≠ []) :
    (currLength + recordLength m item) % 2 ^ 32 < madtLength m ∧
      (currLength + recordLength m item) % 2 ^ 32 + first = item + recordLength m item := by
  have small := madtLength_lt m
  cases all with
  | nil => exact absurd rfl some_
  | cons long inside _ =>
    rw [Nat.mod_eq_of_lt (by omega)]
    omega

variable {first currLength fuel : Nat}

theorem parseItems_records (all : MadtRecords m item rest) (large : 2 ≤ first)
    (some_ : rest ≠ []) (inside : currLength < madtLength m)
    (ahead : currLength + first = item + recordLength m item) :
    parseItems m (fuel + rest.length) item currLength settings =
      rest.foldlM (visitItem m) settings >>= parseItems m fuel (madtLength m)
        ((madtLength m - first + recordLength m (madtLength m)) % 2 ^ 32) := by
  induction all generalizing settings currLength with
  | nil => exact absurd rfl some_
  | @cons item rest long within all inductionHypothesis =>
    rw [List.length_cons, ← Nat.add_assoc, parseItems, if_pos inside, List.foldlM_cons, bind_assoc]
    refine bind_congr fun next => ?_
    cases rest with
    | nil =>
      have last := all.eq_length
      have behind : currLength = madtLength m - first := by omega
      rw [List.foldlM_nil, pure_bind, nextLength, last, behind]
      rfl
    | cons after rest =>
      obtain ⟨inside', ahead'⟩ := all.step large ahead (List.cons_ne_nil _ _)
      exact inductionHypothesis (List.cons_ne_nil _ _) inside' ahead'

theorem parseItems_visited {settings' : MadtSettings}
    (done : parseItems m fuel item currLength settings = .ok settings') :
    settings.visited <+: settings'.visited := by
  induction fuel generalizing item currLength settings with
  | zero => cases done
  | succ fuel inductionHypothesis =>
    rw [parseItems] at done
    split at done
    next =>
      obtain ⟨next, here, done⟩ := Checked.bind_eq.mp done
      obtain ⟨-, visited, -⟩ := visitItem_ok here
      have later := inductionHypothesis done
      rw [visited] at later
      exact (List.prefix_append _ _).trans later
    next =>
      obtain rfl := Checked.pure_eq.mp done
      exact List.prefix_rfl

theorem parseItems_behind {settings' : MadtSettings}
    (done : parseItems m fuel item currLength settings = .ok settings')
    (same : settings'.visited = settings.visited) :
    madtLength m ≤ currLength ∧ settings' = settings := by
  cases fuel with
  | zero => cases done
  | succ fuel =>
    rw [parseItems] at done
    split at done
    next =>
      obtain ⟨next, here, done⟩ := Checked.bind_eq.mp done
      obtain ⟨-, visited, -⟩ := visitItem_ok here
      have later := (parseItems_visited done).length_le
      rw [visited, same, List.length_append, List.length_singleton] at later
      omega
    next outside =>
      obtain rfl := Checked.pure_eq.mp done
      exact ⟨Nat.le_of_not_lt outside, rfl⟩

/-- An item is found by its type among the records, or the loop comes to the end of the table with
their number. -/
theorem getItems_records {type itemIndex currIndex : Nat} (bound : itemIndex < 2 ^ 32)
    (all : MadtRecords m item rest) (large : 2 ≤ first) (some_ : rest ≠ [])
    (inside : currLength < madtLength m) (ahead : currLength + first = item + recordLength m item)
    (below : currIndex ≤ itemIndex) :
    getItems m type itemIndex (fuel + rest.length) item currLength currIndex =
      match (rest.filter fun item => (itemType m item).toNat = type)[itemIndex - currIndex]? with
      | some found => .ok (some found)
      | none => getItems m type itemIndex fuel (madtLength m)
          ((madtLength m - first + recordLength m (madtLength m)) % 2 ^ 32)
          (currIndex + (rest.filter fun item => (itemType m item).toNat = type).length) := by
  induction all generalizing currLength currIndex with
  | nil => exact absurd rfl some_
  | @cons item rest long within all inductionHypothesis =>
    rw [List.length_cons, ← Nat.add_assoc, getItems, if_pos ⟨inside, below⟩]
    have later : ∀ index ≤ itemIndex,
        getItems m type itemIndex (fuel + rest.length) (item + recordLength m item)
          (nextLength m item currLength) index =
          match (rest.filter fun item => (itemType m item).toNat = type)[itemIndex - index]? with
          | some found => .ok (some found)
          | none => getItems m type itemIndex fuel (madtLength m)
              ((madtLength m - first + recordLength m (madtLength m)) % 2 ^ 32)
              (index + (rest.filter fun item => (itemType m item).toNat = type).length) := by
      intro index below
      cases rest with
      | nil =>
        have last := all.eq_length
        have behind : currLength = madtLength m - first := by omega
        rw [nextLength, last, behind]
        rfl
      | cons after rest =>
        obtain ⟨inside', ahead'⟩ := all.step large ahead (List.cons_ne_nil _ _)
        exact inductionHypothesis (List.cons_ne_nil _ _) inside' ahead' below
    by_cases same : (itemType m item).toNat = type
    · rw [List.filter_cons_of_pos (by simpa using same)]
      by_cases here : itemIndex = currIndex
      · rw [if_pos ⟨same, here⟩, here, Nat.sub_self]
        rfl
      · have next : (currIndex + 1) % 2 ^ 32 = currIndex + 1 := Nat.mod_eq_of_lt (by omega)
        have index : itemIndex - currIndex = itemIndex - (currIndex + 1) + 1 := by omega
        rw [if_neg fun both => here both.2, if_pos same, next, later _ (by omega), index,
          List.getElem?_cons_succ, List.length_cons, Nat.add_right_comm, Nat.add_assoc currIndex]
    · rw [List.filter_cons_of_neg (by simpa using same), if_neg fun both => same both.1,
        if_neg same, later _ below]

end Walk

/-- `parse_madt` visits the records and lists the enabled processors, and `madt_get_item` returns
the records of each type. -/
structure ParsesRight (m : Bytes) (records : List Nat) : Prop where
  parse : ∃ settings least, (∀ fuel ≥ least, parseMadt m fuel = .ok settings) ∧
    settings.visited = records ∧
    settings.cpu = (records.filter (isProcessor m)).map fun item => ⟨apicId m item, item⟩
  items : ∀ type < 2 ^ 32, ∀ itemIndex < 2 ^ 32,
    Outcome.Returns (madtGetItem m type itemIndex)
      (records.filter fun item => (itemType m item).toNat = type)[itemIndex]?

/-- The byte behind the table that is taken for a length stops the loops, and the records of the
table say what the loop takes them to say. -/
structure Parsable (m : Bytes) (records : List Nat) : Prop where
  stops : records ≠ [] → recordLength m madtHeaderSize ≤ recordLength m (madtLength m) ∧
    madtLength m - recordLength m madtHeaderSize + recordLength m (madtLength m) < 2 ^ 32
  identifiers : ∀ item ∈ records, isProcessor m item = true → acpiProcID m item = apicId m item
  fits : MadtFits m records

section Table

variable {records : List Nat}

theorem MadtRecords.first {item : Nat} (all : MadtRecords m item records) (some_ : records ≠ []) :
    2 ≤ recordLength m item ∧ recordLength m item ≤ madtLength m ∧ item < madtLength m := by
  cases all with
  | nil => exact absurd rfl some_
  | cons long inside _ => omega

theorem stops_iff {first length behind : Nat} (small : length < 2 ^ 32) (inside : first ≤ length)
    (byte : behind < 256) :
    length ≤ (length - first + behind) % 2 ^ 32 ↔
      first ≤ behind ∧ length - first + behind < 2 ^ 32 := by
  omega

theorem ParsesRight.parsable (all : MadtRecords m madtHeaderSize records)
    (right : ParsesRight m records) : Parsable m records := by
  obtain ⟨settings, least, done, visited, cpu⟩ := right.parse
  by_cases empty : records = []
  · subst empty
    refine ⟨fun never => absurd rfl never, fun _ never => absurd never List.not_mem_nil, ?_, ?_⟩
    · exact Nat.zero_le _
    · exact fun _ never => absurd never List.not_mem_nil
  · obtain ⟨large, inside, short⟩ := all.first empty
    have whole := done (least + records.length) (Nat.le_add_right _ _)
    rw [parseMadt, parseItems_records all large empty short rfl] at whole
    obtain ⟨settings', visits, rest⟩ := Checked.bind_eq.mp whole
    obtain ⟨room, bounds, visited', cpu'⟩ := visitItems_ok visits
    obtain ⟨stops, rfl⟩ := parseItems_behind rest (visited.trans visited'.symm)
    refine ⟨fun _ => ?_, ?_, ?_, bounds⟩
    · exact (stops_iff (madtLength_lt m) inside (UInt8.toNat_lt _)).mp stops
    · intro item member processor
      have same := cpu'.symm.trans cpu
      rw [flatMap_listed] at same
      have sameItem := List.map_inj_left.mp same item (List.mem_filter.mpr ⟨member, processor⟩)
      exact congrArg MadtCpu.id sameItem
    · have enough := room (Nat.zero_le _)
      rwa [MadtSettings.initial, List.length_nil, Nat.zero_add] at enough

theorem Parsable.parsesRight (all : MadtRecords m madtHeaderSize records)
    (parsable : Parsable m records) : ParsesRight m records := by
  by_cases empty : records = []
  · subst empty
    have last := all.eq_length
    have stopped : ¬madtHeaderSize < madtLength m := by omega
    refine ⟨⟨.initial, 1, fun fuel enough => ?_, rfl, rfl⟩, fun type _ itemIndex _ => ?_⟩
    · obtain ⟨k, rfl⟩ := Nat.exists_eq_add_of_le' enough
      rw [parseMadt, parseItems, if_neg stopped]
      rfl
    · refine ⟨1, fun fuel enough => ?_⟩
      obtain ⟨k, rfl⟩ := Nat.exists_eq_add_of_le' enough
      rw [madtGetItem, getItems, if_neg fun both => stopped both.1]
      rfl
  · obtain ⟨large, inside, short⟩ := all.first empty
    have stops := (stops_iff (madtLength_lt m) inside (UInt8.toNat_lt _)).mpr (parsable.stops empty)
    have stopped := Nat.not_lt_of_le stops
    have room : MadtSettings.initial.cpu.length + (records.filter (isProcessor m)).length ≤
        cpuEntries := by
      rw [MadtSettings.initial, List.length_nil, Nat.zero_add]
      exact parsable.fits.cpus
    obtain ⟨settings, visits⟩ := visitItems_fit room parsable.fits.overrides
    obtain ⟨-, -, visited, cpu⟩ := visitItems_ok visits
    refine ⟨⟨settings, 1 + records.length, fun fuel enough => ?_, visited, ?_⟩,
      fun type _ itemIndex bound => ⟨1 + records.length, fun fuel enough => ?_⟩⟩
    · obtain ⟨k, rfl⟩ := Nat.exists_eq_add_of_le' enough
      rw [← Nat.add_assoc, parseMadt, parseItems_records all large empty short rfl, visits]
      exact if_neg stopped
    · rw [cpu, flatMap_listed]
      refine List.map_congr_left fun item member => ?_
      obtain ⟨member, processor⟩ := List.mem_filter.mp member
      rw [parsable.identifiers item member processor]
    · obtain ⟨k, rfl⟩ := Nat.exists_eq_add_of_le' enough
      rw [← Nat.add_assoc, madtGetItem,
        getItems_records bound all large empty short rfl (Nat.zero_le _), Nat.sub_zero]
      split
      next found same => rw [same]
      next none_ =>
        rw [none_, getItems]
        exact if_neg fun both => stopped both.1

/-- The loops come to the end of the table and find what is in it exactly if the byte behind the
table stops them and the identifiers and indices in the records are as the loop takes them. -/
theorem parsesRight_iff (all : MadtRecords m madtHeaderSize records) :
    ParsesRight m records ↔ Parsable m records :=
  ⟨ParsesRight.parsable all, Parsable.parsesRight all⟩

end Table

def oneProcessor (behind : UInt8) : Bytes :=
  fun i =>
    if i = 4 then 52
    else if i = 45 then 8
    else if i = 48 then 1
    else if i = 53 then behind
    else 0

theorem oneProcessor_records (behind : UInt8) :
    MadtRecords (oneProcessor behind) madtHeaderSize [madtHeaderSize] := by
  have length : madtLength (oneProcessor behind) = 52 := rfl
  have record : recordLength (oneProcessor behind) madtHeaderSize = 8 := rfl
  have last : madtHeaderSize + recordLength (oneProcessor behind) madtHeaderSize =
      madtLength (oneProcessor behind) := rfl
  apply MadtRecords.cons
  · rw [record]
    decide
  · exact Nat.le_of_eq last
  · rw [last]
    exact .nil

/-- Two processors, an I/O APIC and an override; behind the table a byte happens to stop the loop. -/
def recordBytes : List UInt8 :=
  [0, 8, 0, 0, 1, 0, 0, 0] ++ ([0, 8, 1, 1, 1, 0, 0, 0] ++
    ([1, 12, 0, 0, 0, 0, 0, 0, 0, 0, 0, 0] ++ [2, 10, 0, 0, 2, 0, 0, 0, 0, 0, 0, 8]))

def fourRecords : Bytes := fun i =>
  if i = 4 then 82
  else if i < madtHeaderSize then 0
  else recordBytes.getD (i - madtHeaderSize) 0

theorem fourRecords_records : MadtRecords fourRecords madtHeaderSize [44, 52, 60, 72] :=
  .cons (by decide +kernel) (by decide +kernel) (.cons (by decide +kernel) (by decide +kernel)
    (.cons (by decide +kernel) (by decide +kernel) (.cons (by decide +kernel) (by decide +kernel)
      .nil)))

theorem parsesRight_iff_fourRecords : ParsesRight fourRecords [44, 52, 60, 72] := by
  apply (parsesRight_iff fourRecords_records).mpr
  exact ⟨fun _ => ⟨by decide +kernel, by decide +kernel⟩, by decide +kernel, by decide +kernel,
    by decide +kernel⟩

/-- A zero behind a table does not stop it. -/
theorem oneProcessor_overrun : ¬∀ (m : Bytes) (records : List Nat),
    MadtRecords m madtHeaderSize records → ParsesRight m records := by
  intro right
  have parsable := (right _ _ (oneProcessor_records 0)).parsable (oneProcessor_records 0)
  exact absurd (parsable.stops (List.cons_ne_nil _ _)).1 (by decide)

end SwagOS.Kernel
