import SwagOS.Lib.Checked
import SwagOS.Lib.Layout
import SwagOS.Lib.Paging.Layout
import SwagOS.Mem.ChunkedFrames
import SwagOS.Mem.KernelPageTables.DirectMap

/-!
# The system description tables

The search for the MADT in `arch/x86_64/acpi.c`.  The tables are to be mapped where they are, before
they are read; what is read at an address is what the page tables of that moment map it to.
-/

namespace SwagOS.Boot

open SwagOS.Lib SwagOS.Mem

/-- `sizeof(ACPISDTHeader)` -/
def sdtHeaderSize : Nat := 36

section Tables

variable (m : Bytes)

/-- `sdtHeader.Length` -/
def sdtLength (sdt : Nat) : Nat := m.u32 (sdt + 4)

def doSDTChecksum (sdt : Nat) : Bool :=
  ((List.range (sdtLength m sdt)).map fun i => (m (sdt + i)).toNat).sum % 2 ^ 8 = 0

def numberOfItems (useXsdt : Bool) (sdt : Nat) : Nat :=
  (sdtLength m sdt + (2 ^ 64 - sdtHeaderSize)) % 2 ^ 64 / if useXsdt then 8 else 4

/-- `sdtAddresses[i]`; the array of an `XSDT` is aligned to its elements. -/
def sdtAddress (useXsdt : Bool) (sdt i : Nat) : Nat :=
  if useXsdt then m.u64 (sdt + 40 + 8 * i) else m.u32 (sdt + sdtHeaderSize + 4 * i)

/-- `"APIC"` -/
def madtSignature : List UInt8 := [0x41, 0x50, 0x49, 0x43]

/-- `!memcmp(madt->Signature, "APIC", 4) && doSDTChecksum(madt)` -/
def isMadt (madt : Nat) : Bool := m.slice madt 4 = madtSignature ∧ doSDTChecksum m madt

/-- `"MCFG"` -/
def mcfgSignature : List UInt8 := [0x4D, 0x43, 0x46, 0x47]

/-- `&sdtAddresses[i]` -/
def itemPlace (useXsdt : Bool) (sdt i : Nat) : Nat :=
  if useXsdt then sdt + 40 + 8 * i else sdt + sdtHeaderSize + 4 * i

/-- `sizeof(sdtAddresses[i])` -/
def itemSize (useXsdt : Bool) : Nat := if useXsdt then 8 else 4

/-- An access to an address raises a page fault, for which there is no handler yet. -/
structure PageFault where
  address : Nat

variable (kernel : KernelTables)

def seen (tables : Paging.Tables) : Bytes := fun va =>
  match Paging.translate tables va kernel.pml4t with
  | some pa => m pa
  | none => 0

def touch (tables : Paging.Tables) (va count : Nat) : Checked PageFault Unit :=
  (List.range count).forM fun i => Checked.check
    ((Paging.translate tables (va + i) kernel.pml4t).isSome = true) ⟨va + i⟩

/-- `doSDTChecksum`, which reads the length before each of the bytes. -/
def readChecksum (tables : Paging.Tables) (sdt : Nat) : Checked PageFault Bool := do
  touch kernel tables (sdt + 4) 4
  touch kernel tables sdt (sdtLength (seen m kernel tables) sdt)
  pure (doSDTChecksum (seen m kernel tables) sdt)

def mapTable (tables : Paging.Tables) (a : Nat) : Paging.Tables :=
  if kernel.isFrameMappedKernel tables (pgRoundDown a) then tables
  else kernel.mapKernelPage tables (pgRoundDown a) (pgRoundDown a) .dmIo

/-- The loop over the next items, from item `i` on. -/
def searchItems (useXsdt : Bool) (sdt : Nat) :
    Nat → Nat → Paging.Tables → Checked PageFault (Nat × Paging.Tables)
  | 0, _, tables => pure (0, tables)
  | count + 1, i, tables => do
      touch kernel tables (itemPlace useXsdt sdt i) (itemSize useXsdt)
      let madt := sdtAddress (seen m kernel tables) useXsdt sdt i
      let tables := mapTable kernel tables madt
      touch kernel tables madt 4
      let signature := (seen m kernel tables).slice madt 4
      let checked ←
        if signature = madtSignature ∨ signature = mcfgSignature then readChecksum m kernel tables madt
        else pure false
      if signature = madtSignature ∧ checked then pure (madt, tables)
      else searchItems useXsdt sdt count (i + 1) tables

def searchSdt (useXsdt : Bool) (sdt : Nat) (tables : Paging.Tables) :
    Checked PageFault (Nat × Paging.Tables) := do
  touch kernel tables (sdt + 4) 4
  let items := numberOfItems (seen m kernel tables) useXsdt sdt
  let checked ← readChecksum m kernel tables sdt
  if checked then searchItems m kernel useXsdt sdt items 0 tables
  else pure (0, tables)

/-- The bytes behind a pointer; those of the boot information are read through the window of the
kernel binary, where nothing is missing. -/
def behind (tables : Paging.Tables) : Option Nat → Bytes
  | some sdp => fun i => m (sdp + i)
  | none => seen m kernel tables

def touchBehind (tables : Paging.Tables) (sdp : Option Nat) (offset count : Nat) :
    Checked PageFault Unit :=
  match sdp with
  | some _ => pure ()
  | none => touch kernel tables offset count

def retrieveMADT (tables : Paging.Tables) (useXsdt : Bool) (sdp : Option Nat) :
    Checked PageFault (Nat × Paging.Tables) := do
  touchBehind kernel tables sdp 24 8
  let xsdt := (behind m kernel tables sdp).u64 24
  touchBehind kernel tables sdp 16 4
  let rsdt := (behind m kernel tables sdp).u32 16
  let sdt := if useXsdt then xsdt else rsdt
  let tables :=
    if xsdt > 0x40000000 ∨ rsdt > 0x40000000 then
      kernel.mapKernelPage tables (hugePgRoundDown sdt) (hugePgRoundDown sdt) .dmIo
    else tables
  if kernel.isFrameMappedKernel tables rsdt = false then throw (.halt (.panic "not mapped"))
  else searchSdt m kernel useXsdt sdt tables

end Tables

section Found

variable {m : Bytes} {kernel : KernelTables} {tables : Paging.Tables} {useXsdt : Bool} {sdt : Nat}

def sdtAddresses (m : Bytes) (useXsdt : Bool) (sdt i count : Nat) : List Nat :=
  (List.range' i count).map (sdtAddress m useXsdt sdt)

def InPlace (kernel : KernelTables) (tables : Paging.Tables) (va count : Nat) : Prop :=
  ∀ i < count, Paging.translate tables (va + i) kernel.pml4t = some (va + i)

instance (va count : Nat) : Decidable (InPlace kernel tables va count) :=
  inferInstanceAs (Decidable (∀ i < count, _))

def TableInPlace (m : Bytes) (kernel : KernelTables) (tables : Paging.Tables) (sdt : Nat) : Prop :=
  InPlace kernel tables sdt 8 ∧ InPlace kernel tables sdt (sdtLength m sdt)

instance (sdt : Nat) : Decidable (TableInPlace m kernel tables sdt) :=
  inferInstanceAs (Decidable (_ ∧ _))

/-- Up to the first MADT each table, and its address in the list, are read where they are when the
loop comes to them. -/
def ItemsInPlace (m : Bytes) (kernel : KernelTables) (useXsdt : Bool) (sdt : Nat) :
    Nat → Nat → Paging.Tables → Prop
  | 0, _, _ => True
  | count + 1, i, tables =>
      let a := sdtAddress m useXsdt sdt i
      InPlace kernel tables (itemPlace useXsdt sdt i) (itemSize useXsdt) ∧
        TableInPlace m kernel (mapTable kernel tables a) a ∧
        (isMadt m a = false →
          ItemsInPlace m kernel useXsdt sdt count (i + 1) (mapTable kernel tables a))

theorem touch_inPlace {va count : Nat} (inPlace : InPlace kernel tables va count) :
    touch kernel tables va count = .ok () := by
  refine Checked.forM_eq.mpr fun i member => Checked.check_eq.mpr ?_
  rw [inPlace i (List.mem_range.mp member)]
  rfl

theorem touch_unmapped {va : Nat} (unmapped : Paging.translate tables va kernel.pml4t = none)
    (count : Nat) : touch kernel tables va (count + 1) = .error (.violation ⟨va⟩) := by
  rw [touch, List.range_succ_eq_map, List.forM_eq_forM, List.forM_cons, Nat.add_zero, unmapped]
  rfl

theorem seen_inPlace {va count : Nat} (inPlace : InPlace kernel tables va count) :
    ∀ i < count, seen m kernel tables (va + i) = m (va + i) := by
  intro i below
  rw [seen, inPlace i below]

theorem InPlace.part {va count offset part : Nat} (inPlace : InPlace kernel tables va count)
    (inside : offset + part ≤ count) : InPlace kernel tables (va + offset) part := by
  intro i below
  rw [Nat.add_assoc]
  exact inPlace (offset + i) (by omega)

theorem sdtLength_inPlace (inPlace : InPlace kernel tables sdt 8) :
    sdtLength (seen m kernel tables) sdt = sdtLength m sdt :=
  Bytes.u32_congr (seen_inPlace (inPlace.part (by decide : 4 + 4 ≤ 8)))

theorem readChecksum_inPlace (inPlace : TableInPlace m kernel tables sdt) :
    readChecksum m kernel tables sdt = .ok (doSDTChecksum m sdt) := by
  obtain ⟨header, bytes⟩ := inPlace
  have length := @sdtLength_inPlace m kernel tables sdt header
  have sum : doSDTChecksum (seen m kernel tables) sdt = doSDTChecksum m sdt := by
    rw [doSDTChecksum, doSDTChecksum, length]
    congr 4
    apply List.map_congr_left
    intro i member
    rw [seen_inPlace bytes i (List.mem_range.mp member)]
  rw [readChecksum, touch_inPlace (header.part (by decide : 4 + 4 ≤ 8)), length]
  show (touch kernel tables sdt (sdtLength m sdt) >>= _) = _
  rw [touch_inPlace bytes, sum]
  rfl

theorem sdtAddress_inPlace {i : Nat}
    (inPlace : InPlace kernel tables (itemPlace useXsdt sdt i) (itemSize useXsdt)) :
    sdtAddress (seen m kernel tables) useXsdt sdt i = sdtAddress m useXsdt sdt i := by
  have same := @seen_inPlace m kernel tables _ _ inPlace
  cases useXsdt with
  | false => exact Bytes.u32_congr same
  | true => exact Bytes.u64_congr same

theorem mapTable_directMap (a : Nat) : ∃ pages : List Nat, (∀ page ∈ pages, page = pgRoundDown a) ∧
    mapTable kernel tables a = kernel.directMap tables pages := by
  unfold mapTable
  split
  · exact ⟨[], fun page member => absurd member List.not_mem_nil, rfl⟩
  · exact ⟨[pgRoundDown a], fun page member => List.mem_singleton.mp member, rfl⟩

theorem directMap_append (pages more : List Nat) :
    kernel.directMap tables (pages ++ more) =
      kernel.directMap (kernel.directMap tables pages) more := by
  rw [KernelTables.directMap, List.foldl_append]
  rfl

theorem searchItems_inPlace {count i : Nat}
    (item : InPlace kernel tables (itemPlace useXsdt sdt i) (itemSize useXsdt))
    (table : TableInPlace m kernel (mapTable kernel tables (sdtAddress m useXsdt sdt i))
      (sdtAddress m useXsdt sdt i)) :
    searchItems m kernel useXsdt sdt (count + 1) i tables =
      if isMadt m (sdtAddress m useXsdt sdt i) then
        .ok (sdtAddress m useXsdt sdt i, mapTable kernel tables (sdtAddress m useXsdt sdt i))
      else searchItems m kernel useXsdt sdt count (i + 1)
        (mapTable kernel tables (sdtAddress m useXsdt sdt i)) := by
  have first := table.1.part (by decide : 0 + 4 ≤ 8)
  have signature := Bytes.slice_congr (@seen_inPlace m _ _ _ _ first)
  rw [Nat.add_zero] at first signature
  rw [searchItems, touch_inPlace item, sdtAddress_inPlace item]
  show (touch kernel (mapTable kernel tables (sdtAddress m useXsdt sdt i))
    (sdtAddress m useXsdt sdt i) 4 >>= _) = _
  rw [touch_inPlace first, signature, readChecksum_inPlace table, isMadt]
  by_cases madt : m.slice (sdtAddress m useXsdt sdt i) 4 = madtSignature
  · cases checked : doSDTChecksum m (sdtAddress m useXsdt sdt i) with
    | true => simp [madt, bind, Except.bind, pure, Except.pure]
    | false => simp [madt, bind, Except.bind]
  · by_cases mcfg : m.slice (sdtAddress m useXsdt sdt i) 4 = mcfgSignature
    · have different : mcfgSignature ≠ madtSignature := by decide
      simp [mcfg, different, bind, Except.bind]
    · simp [madt, mcfg, bind, Except.bind, pure, Except.pure]

theorem searchItems_spec (count i : Nat)
    (inPlace : ItemsInPlace m kernel useXsdt sdt count i tables) :
    ∃ pages : List Nat, (∀ page ∈ pages, ∃ a ∈ sdtAddresses m useXsdt sdt i count,
        page = pgRoundDown a) ∧
      searchItems m kernel useXsdt sdt count i tables =
        .ok (((sdtAddresses m useXsdt sdt i count).find? (isMadt m)).getD 0,
          kernel.directMap tables pages) := by
  induction count generalizing i tables with
  | zero => exact ⟨[], fun page member => absurd member List.not_mem_nil, rfl⟩
  | succ count inductionHypothesis =>
    have addresses : sdtAddresses m useXsdt sdt i (count + 1) =
        sdtAddress m useXsdt sdt i :: sdtAddresses m useXsdt sdt (i + 1) count := by
      rw [sdtAddresses, List.range'_succ, List.map_cons, sdtAddresses]
    obtain ⟨item, table, later⟩ := inPlace
    obtain ⟨here, among, mapped⟩ :=
      @mapTable_directMap kernel tables (sdtAddress m useXsdt sdt i)
    rw [searchItems_inPlace item table, addresses, List.find?_cons]
    cases found : isMadt m (sdtAddress m useXsdt sdt i) with
    | true =>
      rw [mapped]
      exact ⟨here, fun page member => ⟨_, List.mem_cons_self, among page member⟩, rfl⟩
    | false =>
      obtain ⟨pages, amongRest, rest⟩ := inductionHypothesis (i + 1) (later found)
      refine ⟨here ++ pages, ?_, ?_⟩
      · intro page member
        rcases List.mem_append.mp member with first | later
        · exact ⟨_, List.mem_cons_self, among page first⟩
        · obtain ⟨a, listed, same⟩ := amongRest page later
          exact ⟨a, List.mem_cons_of_mem _ listed, same⟩
      · rw [if_neg Bool.false_ne_true, rest, directMap_append, ← mapped]

theorem searchSdt_inPlace (inPlace : TableInPlace m kernel tables sdt) :
    searchSdt m kernel useXsdt sdt tables =
      if doSDTChecksum m sdt then
        searchItems m kernel useXsdt sdt (numberOfItems m useXsdt sdt) 0 tables
      else .ok (0, tables) := by
  have items : numberOfItems (seen m kernel tables) useXsdt sdt = numberOfItems m useXsdt sdt := by
    rw [numberOfItems, numberOfItems, sdtLength_inPlace inPlace.1]
  rw [searchSdt, items, readChecksum_inPlace inPlace,
    touch_inPlace (inPlace.1.part (by decide : 4 + 4 ≤ 8))]
  rfl

def sdtOf (m : Bytes) (useXsdt : Bool) (sdp : Nat) : Nat :=
  if useXsdt then m.u64 (sdp + 24) else m.u32 (sdp + 16)

def listedTables (m : Bytes) (useXsdt : Bool) (sdp : Nat) : List Nat :=
  sdtAddresses m useXsdt (sdtOf m useXsdt sdp) 0 (numberOfItems m useXsdt (sdtOf m useXsdt sdp))

def firstMadt (m : Bytes) (useXsdt : Bool) (sdp : Nat) : Nat :=
  if doSDTChecksum m (sdtOf m useXsdt sdp) then
    ((listedTables m useXsdt sdp).find? (isMadt m)).getD 0
  else 0

/-- The pages that `retrieveMADT` maps: that of the list, and those of the tables. -/
def TablePage (m : Bytes) (useXsdt : Bool) (sdp page : Nat) : Prop :=
  page = hugePgRoundDown (sdtOf m useXsdt sdp) ∨
    ∃ a ∈ listedTables m useXsdt sdp, page = pgRoundDown a

/-- The page tables in which the `RSDT` is looked up. -/
def listMapped (m : Bytes) (kernel : KernelTables) (tables : Paging.Tables) (useXsdt : Bool)
    (sdp : Nat) : Paging.Tables :=
  if m.u64 (sdp + 24) > 0x40000000 ∨ m.u32 (sdp + 16) > 0x40000000 then
    kernel.mapKernelPage tables (hugePgRoundDown (sdtOf m useXsdt sdp))
      (hugePgRoundDown (sdtOf m useXsdt sdp)) .dmIo
  else tables

def SearchedInPlace (m : Bytes) (kernel : KernelTables) (tables : Paging.Tables)
    (useXsdt : Bool) (sdp : Nat) : Prop :=
  TableInPlace m kernel (listMapped m kernel tables useXsdt sdp) (sdtOf m useXsdt sdp) ∧
    (doSDTChecksum m (sdtOf m useXsdt sdp) = true →
      ItemsInPlace m kernel useXsdt (sdtOf m useXsdt sdp)
        (numberOfItems m useXsdt (sdtOf m useXsdt sdp)) 0
        (listMapped m kernel tables useXsdt sdp))

theorem listMapped_directMap (m : Bytes) (kernel : KernelTables) (tables : Paging.Tables)
    (useXsdt : Bool) (sdp : Nat) :
    ∃ pages : List Nat, (∀ page ∈ pages, TablePage m useXsdt sdp page) ∧
      listMapped m kernel tables useXsdt sdp = kernel.directMap tables pages := by
  unfold listMapped
  split
  · refine ⟨[_], fun page member => .inl (List.mem_singleton.mp member), rfl⟩
  · exact ⟨[], fun page member => absurd member List.not_mem_nil, rfl⟩

theorem retrieveMADT_eq (m : Bytes) (kernel : KernelTables) (tables : Paging.Tables)
    (useXsdt : Bool) (sdp : Nat) :
    retrieveMADT m kernel tables useXsdt (some sdp) =
      if kernel.isFrameMappedKernel (listMapped m kernel tables useXsdt sdp)
          (m.u32 (sdp + 16)) = false then
        throw (.halt (.panic "not mapped"))
      else searchSdt m kernel useXsdt (sdtOf m useXsdt sdp)
        (listMapped m kernel tables useXsdt sdp) := by
  have xsdt : (behind m kernel tables (some sdp)).u64 24 = m.u64 (sdp + 24) :=
    Bytes.u64_congr fun i below => by rw [behind, Nat.add_assoc]
  have rsdt : (behind m kernel tables (some sdp)).u32 16 = m.u32 (sdp + 16) :=
    Bytes.u32_congr fun i below => by rw [behind, Nat.add_assoc]
  rw [retrieveMADT, xsdt, rsdt]
  rfl

/-- The first MADT of the list is found, unless the `RSDT` is not mapped, and nothing but the
tables is mapped on the way. -/
theorem retrieveMADT_spec (m : Bytes) (kernel : KernelTables) (tables : Paging.Tables)
    (useXsdt : Bool) (sdp : Nat) :
    (kernel.isFrameMappedKernel (listMapped m kernel tables useXsdt sdp)
        (m.u32 (sdp + 16)) = false →
      retrieveMADT m kernel tables useXsdt (some sdp) = .error (.halt (.panic "not mapped"))) ∧
    (kernel.isFrameMappedKernel (listMapped m kernel tables useXsdt sdp)
        (m.u32 (sdp + 16)) = true →
      SearchedInPlace m kernel tables useXsdt sdp →
      ∃ pages : List Nat, (∀ page ∈ pages, TablePage m useXsdt sdp page) ∧
        retrieveMADT m kernel tables useXsdt (some sdp) =
          .ok (firstMadt m useXsdt sdp, kernel.directMap tables pages)) := by
  obtain ⟨list, ofList, mapped⟩ := listMapped_directMap m kernel tables useXsdt sdp
  rw [retrieveMADT_eq]
  constructor
  · intro unknown
    rw [if_pos unknown]
    rfl
  · rintro known ⟨listInPlace, itemsInPlace⟩
    rw [if_neg (ne_false_of_eq_true known), searchSdt_inPlace listInPlace, firstMadt]
    cases checked : doSDTChecksum m (sdtOf m useXsdt sdp) with
    | false =>
      refine ⟨list, ofList, ?_⟩
      rw [← mapped, if_neg Bool.false_ne_true, if_neg Bool.false_ne_true]
    | true =>
      obtain ⟨pages, among, found⟩ := searchItems_spec _ _ (itemsInPlace checked)
      refine ⟨list ++ pages, ?_, ?_⟩
      · intro page member
        rcases List.mem_append.mp member with first | later
        · exact ofList page first
        · exact .inr (among page later)
      · rw [directMap_append, ← mapped, if_pos rfl, if_pos rfl, found, listedTables]

end Found

section Gap

variable {m : Bytes} {sdt : Nat} {addresses : List Nat}

theorem high_half {p : Nat} (has : m.Has p (addresses.flatMap (leBytes 8))) {i : Nat}
    (inside : i < addresses.length) : m.u32 (p + 8 * i + 4) = addresses[i] / 2 ^ 32 % 2 ^ 32 := by
  induction addresses generalizing p i with
  | nil => exact absurd inside (Nat.not_lt_zero i)
  | cons a addresses inductionHypothesis =>
    rw [List.flatMap_cons] at has
    cases i with
    | zero =>
      have own := has.left
      rw [leBytes_split 4 4] at own
      have high := own.right.u32
      rwa [length_leBytes] at high
    | succ i =>
      have rest := has.right
      rw [length_leBytes] at rest
      have next : p + 8 * (i + 1) + 4 = p + 8 + 8 * i + 4 := by omega
      rw [next]
      exact inductionHypothesis rest (Nat.lt_of_succ_lt_succ inside)

def xsdtMemory : Bytes := fun p =>
  if p < 0x100 then (List.replicate 24 0 ++ leBytes 8 0x100).getD p 0
  else if p < 0x200 then
    ([0, 0, 0, 0, 44, 0, 0, 0, 0, 0xd2] ++ (List.replicate 26 0 ++ leBytes 8 0x200)).getD
      (p - 0x100) 0
  else (madtSignature ++ [44, 0, 0, 0, 0, 0xb7]).getD (p - 0x200) 0

end Gap

end SwagOS.Boot
