import SwagOS.Boot.Multiboot.Tags
import SwagOS.Mem.PhysicalFrames.Safety

/-!
# The boot information

From the bytes that the boot loader writes to what the kernel starts with: the RSDP, the
framebuffer, the free frames and the MADT.
-/

namespace SwagOS.Boot

open SwagOS.Lib SwagOS.Mem

variable {m : Bytes} {place : Nat} {tag : BootTag} {info : List BootTag}
  {entries : List MultibootMmapEntry}

/-- The bytes of an entry; the last four are zero. -/
def entryBytes (entry : MultibootMmapEntry) : List UInt8 :=
  leBytes 8 entry.addr ++ (leBytes 8 entry.len ++ (leBytes 4 entry.type ++ leBytes 4 0))

def mmapPayload (entries : List MultibootMmapEntry) : List UInt8 :=
  leBytes 4 24 ++ (leBytes 4 0 ++ entries.flatMap entryBytes)

structure MemoryMap (entries : List MultibootMmapEntry) : Prop where
  fields : ∀ entry ∈ entries, entry.addr < 2 ^ 64 ∧ entry.len < 2 ^ 64 ∧ entry.type < 2 ^ 32
  low : ∀ entry ∈ entries, entry.type = multibootMemoryAvailable →
    entry.addr + entry.len ≤ 2 ^ 36
  apart : entries.Pairwise fun entry entry' => entry.type = multibootMemoryAvailable →
    entry'.type = multibootMemoryAvailable → ∀ x, ¬(entry.Covers x ∧ entry'.Covers x)

theorem length_entryBytes (entry : MultibootMmapEntry) : (entryBytes entry).length = 24 := by
  rw [entryBytes, List.length_append, List.length_append, List.length_append, length_leBytes,
    length_leBytes, length_leBytes, length_leBytes]

theorem length_entries (entries : List MultibootMmapEntry) :
    (entries.flatMap entryBytes).length = 24 * entries.length := by
  induction entries with
  | nil => rfl
  | cons entry entries inductionHypothesis =>
    rw [List.flatMap_cons, List.length_append, length_entryBytes, inductionHypothesis,
      List.length_cons, Nat.mul_succ, Nat.add_comm]

theorem read_entry {entry : MultibootMmapEntry} {p : Nat} (has : m.Has p (entryBytes entry))
    (fields : entry.addr < 2 ^ 64 ∧ entry.len < 2 ^ 64 ∧ entry.type < 2 ^ 32) :
    (⟨m.u64 p, m.u64 (p + 8), m.u32 (p + 16)⟩ : MultibootMmapEntry) = entry := by
  have addr := has.left.u64
  have rest := has.right
  have len := rest.left.u64
  have type := rest.right.left.u32
  rw [length_leBytes] at len type
  rw [length_leBytes] at type
  rw [addr, len, type, Nat.mod_eq_of_lt fields.1, Nat.mod_eq_of_lt fields.2.1,
    Nat.mod_eq_of_lt fields.2.2]

theorem read_entries {p : Nat} (has : m.Has p (entries.flatMap entryBytes))
    (fields : ∀ entry ∈ entries, entry.addr < 2 ^ 64 ∧ entry.len < 2 ^ 64 ∧ entry.type < 2 ^ 32)
    {i : Nat} (inside : i < entries.length) :
    (⟨m.u64 (p + 24 * i), m.u64 (p + 24 * i + 8), m.u32 (p + 24 * i + 16)⟩ :
      MultibootMmapEntry) = entries[i] := by
  induction entries generalizing p i with
  | nil => exact absurd inside (Nat.not_lt_zero i)
  | cons entry entries inductionHypothesis =>
    obtain ⟨own, later⟩ := List.forall_mem_cons.mp fields
    rw [List.flatMap_cons] at has
    cases i with
    | zero => exact read_entry has.left own
    | succ i =>
      have rest := has.right
      rw [length_entryBytes] at rest
      have next : p + 24 * (i + 1) = p + 24 + 24 * i := by omega
      rw [next]
      exact inductionHypothesis rest later (Nat.lt_of_succ_lt_succ inside)

theorem read_mmapTag (has : m.Has place tag.bytes) (payload : tag.payload = mmapPayload entries)
    (map : MemoryMap entries) : (mmapTag m place).size = 16 + 24 * entries.length ∧
      ∀ i (inside : i < entries.length), (mmapTag m place).entries i = entries[i] := by
  obtain ⟨-, size, -, behind⟩ := BootTag.read has
  rw [payload] at behind
  have rest := behind.right.right
  rw [length_leBytes, length_leBytes] at rest
  constructor
  · refine size.trans ?_
    rw [BootTag.size, payload, mmapPayload, List.length_append, List.length_append,
      length_leBytes, length_leBytes, length_entries]
    omega
  · intro i inside
    exact read_entries rest map.fields inside

theorem MemoryMap.wellFormed (map : MemoryMap entries) (has : m.Has place tag.bytes)
    (payload : tag.payload = mmapPayload entries) :
    (mmapTag m place).WellFormed entries.length := by
  obtain ⟨size, read⟩ := read_mmapTag has payload map
  have apart := List.pairwise_iff_getElem.mp map.apart
  refine ⟨size, ?_, ?_⟩
  · intro i inside
    rw [read i inside]
    exact map.low _ (List.getElem_mem inside)
  · intro i inside j inside' different
    rw [read i inside, read j inside']
    intro available available' x both
    rcases Nat.lt_or_gt_of_ne different with before | after
    · exact apart i j inside inside' before available available' x both
    · exact apart j i inside' inside after available' available x both.symm

theorem parseMultibootMmapEntries_encoded (map : MemoryMap entries)
    (has : m.Has place tag.bytes) (payload : tag.payload = mmapPayload entries)
    {pmm : PhysicalMemoryManager} (zeroCount : pmm.freeFramecount = 0)
    (setup : pmm.initSuccess = false) :
    ∃ pmm', pmm.parseMultibootMmapEntries (mmapTag m place) = .ok pmm' ∧
      ∀ k, k ∈ pmm'.clearFrames ↔
        ∃ entry ∈ entries, entry.type = multibootMemoryAvailable ∧ entry.Offers k := by
  obtain ⟨-, read⟩ := read_mmapTag has payload map
  obtain ⟨pmm', parsed, -, clear⟩ := parseMultibootMmapEntries_spec
    (map.wellFormed has payload) zeroCount setup
  refine ⟨pmm', parsed, fun k => (clear k).trans ?_⟩
  constructor
  · rintro ⟨i, inside, available, offers⟩
    rw [read i inside] at available offers
    exact ⟨_, List.getElem_mem inside, available, offers⟩
  · rintro ⟨entry, member, available, offers⟩
    obtain ⟨i, inside, rfl⟩ := List.mem_iff_getElem.mp member
    refine ⟨i, inside, ?_⟩
    rw [read i inside]
    exact ⟨available, offers⟩

def BootTag.ofType (type : Nat) (tag : BootTag) : Bool := tag.type = type

def BootTag.ofAcpi (tag : BootTag) : Bool :=
  tag.type = multibootTagTypeAcpiNew ∨ tag.type = multibootTagTypeAcpiOld

def extendedFirst (info : List BootTag) : Bool :=
  (info.find? BootTag.ofAcpi).any (BootTag.ofType multibootTagTypeAcpiNew)

section Whole

variable {addr fuel : Nat} (aligned : addr % 8 = 0) (has : m.Has (addr + 8) (encodeTags info))
  (enough : info.length < fuel)
include aligned has enough

theorem multibootRetrieveRsdp_encodeTags : ∃ rsdp : Option Nat,
    multibootRetrieveRsdp m fuel addr false = .ok (rsdp, extendedFirst info) ∧
      Option.Rel (fun tag sdp => m.Has sdp tag.payload) (info.find? BootTag.ofAcpi) rsdp := by
  obtain ⟨found, done, related⟩ := findTag_encodeTags aligned has enough fun type =>
    type = multibootTagTypeAcpiNew ∨ type = multibootTagTypeAcpiOld
  have first : Option.Rel (fun tag place => m.Has place tag.bytes)
      (info.find? BootTag.ofAcpi) found := related
  rw [multibootRetrieveRsdp, done, extendedFirst]
  generalize info.find? BootTag.ofAcpi = acpi at first
  cases first with
  | none => exact ⟨none, rfl, .none⟩
  | @some tag place here =>
    obtain ⟨type, -, -, payload⟩ := BootTag.read here
    refine ⟨some (place + 8), ?_, .some payload⟩
    show Except.ok _ = Except.ok _
    rw [type, Bool.false_or]
    rfl

theorem muiltibootRetrieveFramebuffer_encodeTags : ∃ framebuffer,
    muiltibootRetrieveFramebuffer m fuel addr = .ok framebuffer ∧
      Option.Rel (fun tag place => m.Has place tag.bytes)
        (info.find? (BootTag.ofType multibootTagTypeFramebuffer)) framebuffer :=
  findTag_encodeTags aligned has enough (· = multibootTagTypeFramebuffer)

end Whole

def smallInfo : List BootTag :=
  [{ type := multibootTagTypeFramebuffer, payload := [], padding := [], notEnd := by decide,
     type_lt := by decide, size_lt := by decide, short := by decide, aligned := by decide },
   { type := multibootTagTypeMmap,
     payload := mmapPayload [⟨0x100000, 0x3ff00000, 1⟩, ⟨0x7fe00000, 0x200000, 2⟩],
     padding := [], notEnd := by decide, type_lt := by decide, size_lt := by decide,
     short := by decide, aligned := by decide },
   { type := multibootTagTypeAcpiOld, payload := List.replicate 16 0 ++ leBytes 4 0x7fe00100,
     padding := [0, 0, 0, 0], notEnd := by decide, type_lt := by decide, size_lt := by decide,
     short := by decide, aligned := by decide }]

/-- The information at address 0; below 2 GB an `RSDT`, another table and a MADT. -/
def smallMemory : Bytes := fun p =>
  if p < 0x7fe00100 then (List.replicate 8 0 ++ encodeTags smallInfo).getD p 0
  else if p < 0x7fe00200 then
    ([0, 0, 0, 0, 44, 0, 0, 0, 0, 0x11] ++ (List.replicate 26 0 ++ (leBytes 4 0x7fe00200 ++
      leBytes 4 0x7fe00300))).getD (p - 0x7fe00100) 0
  else if p < 0x7fe00300 then
    [0x46, 0x41, 0x43, 0x50, 36, 0, 0, 0].getD (p - 0x7fe00200) 0
  else (madtSignature ++ [44, 0, 0, 0, 0, 0xb7]).getD (p - 0x7fe00300) 0

def smallTables : Paging.Tables :=
  KernelTables.deviceKernel.mapKernelPage KernelTables.deviceMemory 0x7fe00000 0x7fe00000 .dmIo

theorem smallItems : ItemsInPlace smallMemory .deviceKernel false 0x7fe00100 2 0 smallTables := by
  refine ⟨by decide +kernel, by decide +kernel, fun _ => ⟨by decide +kernel, by decide +kernel, ?_⟩⟩
  exact fun _ => trivial

theorem smallMap :
    MemoryMap [⟨0x100000, 0x3ff00000, 1⟩, ⟨0x7fe00000, 0x200000, 2⟩] where
  fields := by decide
  low := by decide
  apart := by
    rw [List.pairwise_pair]
    rintro - available
    exact absurd available (by decide)

end SwagOS.Boot
