import SwagOS.DataStructures.LinkedList.Fifo
import SwagOS.Drivers.Pci

/-!
# The list of PCI devices

`PCI_AddDevice`, `PCI_GenericDeviceExists` and `PCI_GetGenericDevice` of `drivers/pci.c`, one
call at a time.  The lookup counts a device that it passes over without going on to the next
one, so that it counts the first match until the index is reached.  Before the first insertion
the list starts with a null pointer, where nothing is mapped.
-/

namespace SwagOS.Drivers

open SwagOS.Lib SwagOS.DataStructures

structure PciDevice where
  bus : BitVec 8
  slot : BitVec 8
  func : BitVec 8
  classCode : BitVec 8
  subclass : BitVec 8
  progIf : BitVec 8
  deriving DecidableEq, Repr

structure PciDriver where
  deviceCount : BitVec 32
  deviceList : Dll PciDevice

def PciDriver.start (records : Nat → Cell PciDevice) : PciDriver := ⟨0, .empty records⟩

def pciConfigProgIF : BitVec 8 := 0x9
def pciConfigSubclass : BitVec 8 := 0xA
def pciConfigClassCode : BitVec 8 := 0xB

/-- The arguments of `PCI_AddDevice`, with the configuration space that it reads and whether
`kalloc` returns a record. -/
structure AddCall where
  bus : BitVec 16
  slot : BitVec 16
  function : BitVec 16
  space : ConfigSpace
  allocates : Bool

/-- What is written to the record; the parameters are cut to the fields. -/
def AddCall.device (call : AddCall) : PciDevice :=
  let bus := call.bus.setWidth 8
  let slot := call.slot.setWidth 8
  let func := call.function.setWidth 8
  let (classCode, space) := pciConfigReadByte bus slot func pciConfigClassCode call.space
  let (subclass, space) := pciConfigReadByte bus slot func pciConfigSubclass space
  let (progIf, _) := pciConfigReadByte bus slot func pciConfigProgIF space
  ⟨bus, slot, func, classCode, subclass, progIf⟩

def pciAddDevice (driver : PciDriver) (call : AddCall) : Outcome PciDriver := do
  Outcome.panicUnless call.allocates
    "PCI_AddDevice() --> unable to allocate memory for PCI_DEVICE."
  let (dev, deviceList) := driver.deviceList.kalloc
  let deviceList := deviceList.modify dev fun _ => call.device
  let deviceList ← deviceList.insertDllEntryTail dev
  pure ⟨driver.deviceCount + 1, deviceList⟩

/-- `dev->class_code == classCode && dev->subclass == subClass` -/
def PciDevice.Matches (dev : PciDevice) (classCode subClass : BitVec 16) : Prop :=
  dev.classCode.setWidth 16 = classCode ∧ dev.subclass.setWidth 16 = subClass

instance (dev : PciDevice) (classCode subClass : BitVec 16) :
    Decidable (dev.Matches classCode subClass) :=
  inferInstanceAs (Decidable (_ ∧ _))

section Lookup

variable (driver : PciDriver) (classCode subClass : BitVec 16)

/-- The loop; the memory at a null pointer is not mapped. -/
def existsFrom : Nat → Link → Outcome Bool
  | 0, _ => throw .hang
  | _ + 1, .head => pure false
  | _ + 1, .null => throw (.panic "Page Fault Interrupt")
  | fuel + 1, .record dev =>
      if (driver.deviceList.records dev).data.Matches classCode subClass then pure true
      else existsFrom fuel (driver.deviceList.records dev).next

def pciGenericDeviceExists (fuel : Nat) : Outcome Bool :=
  existsFrom driver classCode subClass fuel driver.deviceList.first

def getFrom (index : BitVec 32) : Nat → Link → BitVec 32 → Outcome (Option Nat)
  | 0, _, _ => throw .hang
  | _ + 1, .head, _ => pure none
  | _ + 1, .null, _ => throw (.panic "Page Fault Interrupt")
  | fuel + 1, .record dev, currIndex =>
      if (driver.deviceList.records dev).data.Matches classCode subClass then
        -- `continue` with the same device
        if currIndex ≠ index then getFrom index fuel (.record dev) (currIndex + 1)
        else pure (some dev)
      else getFrom index fuel (driver.deviceList.records dev).next currIndex

/-- The number of the record, or `none` for `NULL`. -/
def pciGetGenericDevice (index : BitVec 32) (fuel : Nat) : Outcome (Option Nat) :=
  getFrom driver classCode subClass index fuel driver.deviceList.first 0

end Lookup

def addedMatches (calls : List AddCall) (classCode subClass : BitVec 16) : List Nat :=
  (List.range calls.length).filter fun i =>
    calls[i]?.any fun call => call.device.Matches classCode subClass

/-- The lookup gives the device of the index or `NULL`, and the test of existence agrees with
the lookup of index 0. -/
structure LookupRight (driver : PciDriver) (calls : List AddCall) (classCode subClass : BitVec 16)
    (index : BitVec 32) : Prop where
  get : Outcome.Returns (pciGetGenericDevice driver classCode subClass index)
    (addedMatches calls classCode subClass)[index.toNat]?
  agrees : ∃ found, Outcome.Returns (pciGetGenericDevice driver classCode subClass 0) found ∧
    Outcome.Returns (pciGenericDeviceExists driver classCode subClass) found.isSome

/-- The records of the list are those of the calls, in their order. -/
structure Added (driver : PciDriver) (calls : List AddCall) : Prop where
  holds : driver.deviceList.Holds (List.range calls.length)
  allocated : driver.deviceList.allocated = calls.length
  devices : ∀ i call, calls[i]? = some call →
    (driver.deviceList.records i).data = call.device
  count : driver.deviceCount = .ofNat 32 calls.length

theorem added_start (records : Nat → Cell PciDevice) : Added (.start records) [] where
  holds := Dll.holds_empty records
  allocated := rfl
  devices := nofun
  count := rfl

theorem Added.next {driver driver' : PciDriver} {calls : List AddCall} {call : AddCall}
    (added : Added driver calls) (called : pciAddDevice driver call = .ok driver') :
    Added driver' (calls ++ [call]) := by
  obtain ⟨_, -, called⟩ := Outcome.bind_ok.mp called
  obtain ⟨deviceList, inserted, done⟩ := Outcome.bind_ok.mp called
  obtain rfl := Outcome.pure_ok.mp done
  have fresh : driver.deviceList.allocated ∉ List.range calls.length := by
    rw [added.allocated]
    exact List.not_mem_range_self
  have holds : (driver.deviceList.kalloc.2.modify driver.deviceList.kalloc.1
      fun _ => call.device).Holds (List.range calls.length) := by
    refine @Dll.Holds.congr _ driver.deviceList _ _ rfl rfl ?_ added.holds
    intro i _
    exact ⟨Dll.modify_prev _ _ _ i, Dll.modify_next _ _ _ i⟩
  obtain ⟨deviceList', inserted', ring, -, allocated, data⟩ := holds.insertDllEntryTail fresh
  obtain rfl := Except.ok.inj (inserted'.symm.trans inserted)
  rw [added.allocated, ← List.range_succ] at ring
  refine ⟨?_, ?_, ?_, ?_⟩
  · rw [List.length_append, List.length_singleton]
    exact .inl ring
  · rw [List.length_append, List.length_singleton]
    exact allocated.trans (congrArg (· + 1) added.allocated)
  · intro i other here
    have new : driver.deviceList.kalloc.1 = calls.length := added.allocated
    rw [data, Dll.modify_data, new]
    by_cases last : i = calls.length
    · subst last
      rw [List.getElem?_concat_length] at here
      rw [if_pos rfl, Option.some.inj here]
    · rw [if_neg last]
      apply added.devices
      have inside := (List.getElem?_eq_some_iff.mp here).1
      rw [List.length_append, List.length_singleton] at inside
      rwa [List.getElem?_append_left (by omega)] at here
  · dsimp only
    rw [added.count, List.length_append, List.length_singleton, BitVec.ofNat_add]
    rfl

theorem added_of_calls {records : Nat → Cell PciDevice} {calls : List AddCall}
    {driver : PciDriver} (built : calls.foldlM pciAddDevice (.start records) = .ok driver) :
    Added driver calls := by
  induction calls using List.reverseRecOn generalizing driver with
  | nil =>
    obtain rfl := Outcome.pure_ok.mp built
    exact added_start records
  | append_singleton calls call inductionHypothesis =>
    rw [List.foldlM_append] at built
    obtain ⟨before, earlier, last⟩ := Outcome.bind_ok.mp built
    rw [List.foldlM_cons] at last
    obtain ⟨after, called, done⟩ := Outcome.bind_ok.mp last
    obtain rfl := Outcome.pure_ok.mp done
    exact (inductionHypothesis earlier).next called

section Walking

variable {driver : PciDriver} {before : Link} {l : List Nat} (classCode subClass : BitVec 16)

theorem getFrom_match {dev : Nat} (index currIndex : BitVec 32)
    (fits : (driver.deviceList.records dev).data.Matches classCode subClass) :
    Outcome.Returns (fun fuel =>
      getFrom driver classCode subClass index fuel (.record dev) currIndex) (some dev) := by
  induction distance : (index - currIndex).toNat generalizing currIndex with
  | zero =>
    have same : ¬currIndex ≠ index := by bv_omega
    apply Outcome.Returns.succ
    simp only [getFrom, if_pos fits, if_neg same]
    exact .const rfl
  | succ k inductionHypothesis =>
    have other : currIndex ≠ index := by
      rintro rfl
      rw [BitVec.sub_self] at distance
      cases distance
    have nearer : (index - (currIndex + 1)).toNat = k := by bv_omega
    apply Outcome.Returns.succ
    simp only [getFrom, if_pos fits, if_pos other]
    exact inductionHypothesis (currIndex + 1) nearer

theorem getFrom_returns (index currIndex : BitVec 32)
    (threads : Dll.Threads driver.deviceList.records before l .head) :
    Outcome.Returns (fun fuel =>
      getFrom driver classCode subClass index fuel (Link.headOf l .head) currIndex)
      (l.find? fun i => (driver.deviceList.records i).data.Matches classCode subClass) := by
  induction l generalizing before with
  | nil => exact Outcome.Returns.succ (.const rfl)
  | cons dev rest inductionHypothesis =>
    obtain ⟨-, next, threads⟩ := threads
    by_cases fits : (driver.deviceList.records dev).data.Matches classCode subClass
    · rw [List.find?_cons_of_pos (by simpa using fits)]
      exact getFrom_match classCode subClass index currIndex fits
    · rw [List.find?_cons_of_neg (by simpa using fits)]
      apply Outcome.Returns.succ
      simp only [Link.headOf_cons, getFrom, if_neg fits, next]
      exact inductionHypothesis threads

theorem existsFrom_returns (threads : Dll.Threads driver.deviceList.records before l .head) :
    Outcome.Returns (fun fuel =>
      existsFrom driver classCode subClass fuel (Link.headOf l .head))
      (l.find? fun i => (driver.deviceList.records i).data.Matches classCode subClass).isSome := by
  induction l generalizing before with
  | nil => exact Outcome.Returns.succ (.const rfl)
  | cons dev rest inductionHypothesis =>
    obtain ⟨-, next, threads⟩ := threads
    by_cases fits : (driver.deviceList.records dev).data.Matches classCode subClass
    · rw [List.find?_cons_of_pos (by simpa using fits)]
      apply Outcome.Returns.succ
      simp only [Link.headOf_cons, existsFrom, if_pos fits]
      exact .const rfl
    · rw [List.find?_cons_of_neg (by simpa using fits)]
      apply Outcome.Returns.succ
      simp only [Link.headOf_cons, existsFrom, if_neg fits, next]
      exact inductionHypothesis threads

end Walking

section Iff

variable {driver : PciDriver} {calls : List AddCall} {classCode subClass : BitVec 16}
  {index : BitVec 32}

theorem Added.addedMatches_eq (added : Added driver calls) :
    addedMatches calls classCode subClass = (List.range calls.length).filter fun i =>
      (driver.deviceList.records i).data.Matches classCode subClass := by
  apply List.filter_congr
  intro i member
  have here := List.getElem?_eq_getElem (List.mem_range.mp member)
  rw [here, added.devices i _ here]
  rfl

theorem Added.ring (added : Added driver calls) (notEmpty : calls ≠ []) :
    driver.deviceList.Ring (List.range calls.length) := by
  rcases added.holds with ring | ⟨none, -, -⟩
  · exact ring
  · exact absurd (List.length_eq_zero_iff.mp (List.range_eq_nil.mp none)) notEmpty

theorem Added.get_returns (added : Added driver calls) (notEmpty : calls ≠ [])
    (index : BitVec 32) : Outcome.Returns (pciGetGenericDevice driver classCode subClass index)
      (addedMatches calls classCode subClass)[0]? := by
  have ring := added.ring notEmpty
  have returns := getFrom_returns classCode subClass index 0 ring.threads
  rwa [← ring.first, ← List.head?_filter, ← added.addedMatches_eq, List.head?_eq_getElem?]
    at returns

theorem Added.exists_returns (added : Added driver calls) (notEmpty : calls ≠ []) :
    Outcome.Returns (pciGenericDeviceExists driver classCode subClass)
      (addedMatches calls classCode subClass)[0]?.isSome := by
  have ring := added.ring notEmpty
  have returns := existsFrom_returns classCode subClass ring.threads
  rwa [← ring.first, ← List.head?_filter, ← added.addedMatches_eq, List.head?_eq_getElem?]
    at returns

theorem get_start (records : Nat → Cell PciDevice) (found : Option Nat) :
    ¬Outcome.Returns (pciGetGenericDevice (.start records) classCode subClass index) found := by
  rintro ⟨least, done⟩
  cases done (least + 1) (Nat.le_succ least)

theorem addedMatches_nil_iff : addedMatches calls classCode subClass = [] ↔
    ∀ call ∈ calls, ¬call.device.Matches classCode subClass := by
  rw [addedMatches, List.filter_eq_nil_iff]
  constructor
  · intro none call member fits
    obtain ⟨i, inside, rfl⟩ := List.getElem_of_mem member
    apply none i (List.mem_range.mpr inside)
    rw [List.getElem?_eq_getElem inside]
    simpa using fits
  · intro none i member
    have inside := List.mem_range.mp member
    rw [List.getElem?_eq_getElem inside]
    simpa using none _ (List.getElem_mem inside)

/-- The lookup is right for the first device and where there is none, on a list that is not
empty. -/
theorem lookupRight_iff {records : Nat → Cell PciDevice}
    (built : calls.foldlM pciAddDevice (.start records) = .ok driver) :
    LookupRight driver calls classCode subClass index ↔
      calls ≠ [] ∧ (index = 0 ∨ ∀ call ∈ calls, ¬call.device.Matches classCode subClass) := by
  have added := added_of_calls built
  constructor
  · intro right
    have notEmpty : calls ≠ [] := by
      rintro rfl
      obtain rfl := Outcome.pure_ok.mp built
      exact get_start records _ right.get
    refine ⟨notEmpty, ?_⟩
    by_contra neither
    obtain ⟨notFirst, some⟩ := not_or.mp neither
    have filled : addedMatches calls classCode subClass ≠ [] :=
      fun none => some (addedMatches_nil_iff.mp none)
    have nodup : (addedMatches calls classCode subClass).Nodup :=
      List.nodup_range.filter _
    have same := right.get.unique (added.get_returns notEmpty index)
    have isFirst := (List.getElem?_inj (List.length_pos_of_ne_nil filled) nodup).mp same.symm
    exact notFirst (BitVec.eq_of_toNat_eq isFirst.symm)
  · rintro ⟨notEmpty, either⟩
    refine ⟨?_, _, added.get_returns notEmpty 0, added.exists_returns notEmpty⟩
    rcases either with rfl | none
    · exact added.get_returns notEmpty 0
    · have returns : Outcome.Returns (pciGetGenericDevice driver classCode subClass index) _ :=
        added.get_returns notEmpty index
      rw [addedMatches_nil_iff.mpr none] at returns ⊢
      exact returns

end Iff

/-- A function of a SATA controller; every register is that with the class. -/
def sataCall (slot : BitVec 16) : AddCall := ⟨0, slot, 0, ⟨0, fun _ => 0x01060100⟩, true⟩

def zeroRecords : Nat → Cell PciDevice := fun _ => ⟨.null, .null, ⟨0, 0, 0, 0, 0, 0⟩⟩

theorem lookupRight_iff_sata : ∃ driver,
    [sataCall 1, sataCall 2].foldlM pciAddDevice (.start zeroRecords) = .ok driver ∧
      LookupRight driver [sataCall 1, sataCall 2] 1 6 0 :=
  ⟨_, rfl, (lookupRight_iff rfl).mpr ⟨List.cons_ne_nil _ _, .inl rfl⟩⟩

/-- With two such controllers, the lookup of the second one gives the first. -/
theorem lookup_second : ∃ driver,
    [sataCall 1, sataCall 2].foldlM pciAddDevice (.start zeroRecords) = .ok driver ∧
      Outcome.Returns (pciGetGenericDevice driver 1 6 1) (some 0) ∧
      ¬LookupRight driver [sataCall 1, sataCall 2] 1 6 1 := by
  obtain ⟨driver, built⟩ : ∃ driver,
      [sataCall 1, sataCall 2].foldlM pciAddDevice (.start zeroRecords) = .ok driver := ⟨_, rfl⟩
  have returns : Outcome.Returns (pciGetGenericDevice driver 1 6 1) _ :=
    (added_of_calls built).get_returns (List.cons_ne_nil _ _) 1
  have both : addedMatches [sataCall 1, sataCall 2] 1 6 = [0, 1] := by decide
  rw [both] at returns
  refine ⟨driver, built, returns, ?_⟩
  intro right
  have second := right.get
  rw [both] at second
  exact absurd (returns.unique second) (by decide)

end SwagOS.Drivers
