import Mathlib.Data.List.Find
import SwagOS.Kernel.ReadCall

/-!
# The descriptor table

`SYSHANDLER_open` and `SYSHANDLER_close`.  The loop of `open` looks for the path and for the
smallest free slot at once, but what it calls free is decided by slot 0 alone: while that slot
is in use it finds no free slot at all, and the index that stands for none is used.

The table is compared with a finite map over sequences of calls: `RightRun` says that each call
does what the map does, and `SparedRun` which sequences do not come to the sentinel.
-/

namespace SwagOS.Kernel

open SwagOS.Lib SwagOS.Libc SwagOS.Fs

def maxPath : Nat := 260

def maxFileDesc : Nat := 16

def uint32Max : Nat := 2 ^ 32 - 1

/-- The string in `req_path`: the buffer is zero but for the bytes that `FetchStruct` copied. -/
def reqPath (fetched : List UInt8) : List UInt8 :=
  cstring (fetched ++ List.replicate (maxPath - fetched.length) 0) 0

/-- The file system at the time of a call. -/
structure Files where
  fs : Ext2Driver
  mem : Ext2Memory
  fuel : Nat

/-- `ext2_file_exists(path) || ext2_dir_exists(path)` -/
def Files.exist (files : Files) (path : List UInt8) : Outcome Bool := do
  if ← files.fs.ext2FileExists files.mem files.fuel path then pure true
  else files.fs.ext2DirExists files.mem files.fuel path

/-- What a call leaves: `rax`, `errno` if it is set, and the table. -/
structure DescriptorResult where
  rax : Nat
  errno : Option Error
  fd : Nat → FileDescriptor

section Calls

-- What a write behind the table comes to: it may fault.
variable (beyond : Outcome Unit) (fd : Nat → FileDescriptor)

def writeSlot (i : Nat) (slot : FileDescriptor) : Outcome (Nat → FileDescriptor) :=
  if i < maxFileDesc then pure (Function.update fd i slot)
  else do
    beyond
    pure fd

/-- The loop of `SYSHANDLER_open`: the slot of the path, or `min_fd`. -/
def openLoop (path : List UInt8) : List Nat → Nat → Nat ⊕ Nat
  | [], minFd => .inr minFd
  | i :: rest, minFd =>
      if strcmp path (fd i).path = 0 then .inl i
      -- `t->fd->in_use` is the flag of the first slot.
      else if (fd 0).inUse = false then
        if i < minFd then openLoop path rest i else openLoop path rest minFd
      else openLoop path rest minFd

def syshandlerOpen (files : Files) (fetched : List UInt8) : Outcome DescriptorResult :=
  let path := reqPath fetched
  match openLoop fd path (List.range maxFileDesc) uint32Max with
  | .inl i => pure ⟨i, none, Function.update fd i { fd i with inUse := true }⟩
  | .inr minFd => do
      if ← files.exist path then
        let fd ← writeSlot beyond fd minFd ⟨true, path⟩
        pure ⟨minFd, none, fd⟩
      else pure ⟨uint64Max, some .fileNotFound, fd⟩

def syshandlerClose (rsi : Nat) : Outcome DescriptorResult := do
  let fd ← writeSlot beyond fd (rsi % 2 ^ 32) ⟨false, []⟩
  pure ⟨0, none, fd⟩

end Calls

abbrev DescriptorMap := Nat → Option (List UInt8)

namespace DescriptorMap

def empty : DescriptorMap := fun _ => none

def lowest (m : DescriptorMap) (value : Option (List UInt8)) : Option Nat :=
  (List.range maxFileDesc).find? fun i => m i = value

def openPath (m : DescriptorMap) (path : List UInt8) : Nat × DescriptorMap :=
  match m.lowest (some path) with
  | some i => (i, m)
  | none =>
      match m.lowest none with
      | some i => (i, Function.update m i (some path))
      | none => (uint64Max, m)

def close (m : DescriptorMap) (i : Nat) : DescriptorMap := Function.update m i none

end DescriptorMap

inductive DescriptorCall where
  | openPath (files : Files) (fetched : List UInt8)
  | close (fd : Nat)

namespace DescriptorCall

def run (beyond : Outcome Unit) (fd : Nat → FileDescriptor) :
    DescriptorCall → Outcome DescriptorResult
  | .openPath files fetched => syshandlerOpen beyond fd files fetched
  | .close rsi => syshandlerClose beyond fd rsi

def apply (m : DescriptorMap) : DescriptorCall → Nat × DescriptorMap
  | .openPath _ fetched => m.openPath (reqPath fetched)
  | .close i => (0, m.close i)

/-- An existing path that is not empty and shorter than `MAX_PATH`, of which no more is fetched than
`req_path` has room for, or an open descriptor. -/
def Valid (m : DescriptorMap) : DescriptorCall → Prop
  | .openPath files fetched =>
      fetched.length ≤ maxPath ∧ reqPath fetched ≠ [] ∧ (reqPath fetched).length < maxPath ∧
        files.exist (reqPath fetched) = .ok true
  | .close i => i < maxFileDesc ∧ (m i).isSome

def Spared (m : DescriptorMap) : DescriptorCall → Prop
  | .openPath _ fetched => (m.lowest (some (reqPath fetched))).isSome ∨ m 0 = none
  | .close _ => True

end DescriptorCall

def slotOf : Option (List UInt8) → FileDescriptor
  | none => ⟨false, []⟩
  | some path => ⟨true, path⟩

/-- The slots of the table are those of the map. -/
structure Represents (fd : Nat → FileDescriptor) (m : DescriptorMap) : Prop where
  slots : ∀ i < maxFileDesc, fd i = slotOf (m i)
  paths : ∀ i < maxFileDesc, ∀ path, m i = some path → path ≠ [] ∧ IsString path

namespace DescriptorMap

def ValidRun : DescriptorMap → List DescriptorCall → Prop
  | _, [] => True
  | m, call :: rest => call.Valid m ∧ ValidRun (call.apply m).2 rest

def SparedRun : DescriptorMap → List DescriptorCall → Prop
  | _, [] => True
  | m, call :: rest => call.Spared m ∧ SparedRun (call.apply m).2 rest

def RightRun (beyond : Outcome Unit) : DescriptorMap → (Nat → FileDescriptor) →
    List DescriptorCall → Prop
  | _, _, [] => True
  | m, fd, call :: rest => ∃ result, call.run beyond fd = .ok result ∧
      result.rax = (call.apply m).1 ∧ Represents result.fd (call.apply m).2 ∧
        RightRun beyond (call.apply m).2 result.fd rest

end DescriptorMap

section Call

variable {beyond : Outcome Unit} {fd : Nat → FileDescriptor} {m : DescriptorMap}
  {path : List UInt8}

theorem reqPath_isString (fetched : List UInt8) : IsString (reqPath fetched) :=
  takeWhile_isString _

theorem Represents.strcmp_iff (represents : Represents fd m) (nonempty : path ≠ [])
    (isString : IsString path) {i : Nat} (inside : i < maxFileDesc) :
    strcmp path (fd i).path = 0 ↔ m i = some path := by
  rw [represents.slots i inside]
  cases here : m i with
  | none =>
    rw [slotOf, strcmp_eq_zero isString (List.not_mem_nil : IsString [])]
    exact iff_of_false nonempty (by simp)
  | some other =>
    rw [slotOf, strcmp_eq_zero isString (represents.paths i inside other here).2,
      Option.some.injEq]
    exact eq_comm

theorem Represents.inUse (represents : Represents fd m) {i : Nat} (inside : i < maxFileDesc) :
    (fd i).inUse = (m i).isSome := by
  rw [represents.slots i inside]
  cases m i with
  | none => rfl
  | some path => rfl

/-- The loop: the first slot of the path, else slot 0 or the sentinel. -/
theorem openLoop_find (slots : List Nat) (minFd : Nat) :
    openLoop fd path slots minFd =
      match slots.find? fun i => strcmp path (fd i).path = 0 with
      | some i => .inl i
      | none => .inr (if (fd 0).inUse = false then slots.foldl min minFd else minFd) := by
  induction slots generalizing minFd with
  | nil => simp [openLoop]
  | cons i rest inductionHypothesis =>
    rw [openLoop, List.find?_cons]
    by_cases here : strcmp path (fd i).path = 0
    · rw [if_pos here, decide_eq_true here]
    · rw [if_neg here, decide_eq_false here, inductionHypothesis, inductionHypothesis]
      cases first : (fd 0).inUse with
      | true => simp
      | false =>
        by_cases smaller : i < minFd
        · have least : min minFd i = i := Nat.min_eq_right (Nat.le_of_lt smaller)
          simp [smaller, least]
        · have least : min minFd i = minFd := Nat.min_eq_left (Nat.le_of_not_lt smaller)
          simp [smaller, least]

theorem openLoop_new (new : ∀ i < maxFileDesc, strcmp path (fd i).path ≠ 0) :
    openLoop fd path (List.range maxFileDesc) uint32Max =
      .inr (if (fd 0).inUse = false then 0 else uint32Max) := by
  have none : (List.range maxFileDesc).find? (fun i => strcmp path (fd i).path = 0) = none := by
    rw [List.find?_eq_none]
    intro i member same
    exact new i (List.mem_range.mp member) (of_decide_eq_true same)
  rw [openLoop_find, none]
  rfl

theorem openLoop_old {i : Nat} (inside : i < maxFileDesc) (same : strcmp path (fd i).path = 0) :
    ∃ j, openLoop fd path (List.range maxFileDesc) uint32Max = .inl j := by
  rw [openLoop_find]
  cases found : (List.range maxFileDesc).find? fun i => strcmp path (fd i).path = 0 with
  | some j => exact ⟨j, rfl⟩
  | none =>
    have never := List.find?_eq_none.mp found i (List.mem_range.mpr inside)
    exact absurd (decide_eq_true same) never

theorem openLoop_eq (represents : Represents fd m) (nonempty : path ≠ [])
    (isString : IsString path) {slots : List Nat} (inside : ∀ i ∈ slots, i < maxFileDesc)
    {minFd : Nat} :
    openLoop fd path slots minFd =
      match slots.find? fun i => m i = some path with
      | some i => .inl i
      | none => .inr (if m 0 = none then slots.foldl min minFd else minFd) := by
  have same : slots.find? (fun i => strcmp path (fd i).path = 0) =
      slots.find? fun i => m i = some path := by
    apply List.find?_congr
    intro i member
    exact decide_eq_decide.mpr (represents.strcmp_iff nonempty isString (inside i member))
  have first := represents.inUse (by decide : 0 < maxFileDesc)
  rw [openLoop_find, same, first]
  cases m 0 with
  | none => rfl
  | some other => rfl

theorem openLoop_range (represents : Represents fd m) (nonempty : path ≠ [])
    (isString : IsString path) :
    openLoop fd path (List.range maxFileDesc) uint32Max =
      match m.lowest (some path) with
      | some i => .inl i
      | none => .inr (if m 0 = none then 0 else uint32Max) := by
  have inside : ∀ i ∈ List.range maxFileDesc, i < maxFileDesc := fun i => List.mem_range.mp
  rw [openLoop_eq represents nonempty isString inside, DescriptorMap.lowest]
  rfl

theorem DescriptorMap.lowest_spec {value : Option (List UInt8)} {i : Nat}
    (found : m.lowest value = some i) : i < maxFileDesc ∧ m i = value := by
  have member := List.mem_of_find?_eq_some found
  have holds := List.find?_some found
  exact ⟨List.mem_range.mp member, of_decide_eq_true holds⟩

theorem DescriptorMap.lowest_first (unused : m 0 = none) : m.lowest none = some 0 := by
  have range : List.range maxFileDesc = 0 :: List.range' 1 15 := rfl
  rw [DescriptorMap.lowest, range, List.find?_cons, decide_eq_true unused]

theorem DescriptorMap.openPath_get (notFull : (m.openPath path).1 ≠ uint64Max) :
    (m.openPath path).2 (m.openPath path).1 = some path := by
  rw [DescriptorMap.openPath] at notFull ⊢
  cases found : m.lowest (some path) with
  | some i => exact (lowest_spec found).2
  | none =>
    cases free : m.lowest none with
    | some i => exact Function.update_self i (some path) m
    | none =>
      rw [found, free] at notFull
      exact absurd rfl notFull

theorem Represents.update (represents : Represents fd m) (i : Nat) {value : Option (List UInt8)}
    (isPath : ∀ path, value = some path → path ≠ [] ∧ IsString path) :
    Represents (Function.update fd i (slotOf value)) (Function.update m i value) where
  slots := by
    intro j inside
    by_cases same : j = i
    · rw [same, Function.update_self, Function.update_self]
    · rw [Function.update_of_ne same, Function.update_of_ne same]
      exact represents.slots j inside
  paths := by
    intro j inside path here
    by_cases same : j = i
    · rw [same, Function.update_self] at here
      exact isPath path here
    · rw [Function.update_of_ne same] at here
      exact represents.paths j inside path here

theorem Represents.open_again (represents : Represents fd m) (files : Files)
    {fetched : List UInt8} (nonempty : reqPath fetched ≠ []) {i : Nat}
    (found : m.lowest (some (reqPath fetched)) = some i) :
    syshandlerOpen beyond fd files fetched = .ok ⟨i, none, fd⟩ := by
  obtain ⟨inside, here⟩ := DescriptorMap.lowest_spec found
  have slot : { fd i with inUse := true } = fd i := by
    rw [represents.slots i inside, here, slotOf]
  rw [syshandlerOpen, openLoop_range represents nonempty (reqPath_isString fetched), found]
  dsimp only
  rw [slot, Function.update_eq_self]
  rfl

theorem Represents.open_other (represents : Represents fd m) {files : Files}
    {fetched : List UInt8} (nonempty : reqPath fetched ≠ [])
    (missing : m.lowest (some (reqPath fetched)) = none)
    (exist : files.exist (reqPath fetched) = .ok true) :
    syshandlerOpen beyond fd files fetched =
      writeSlot beyond fd (if m 0 = none then 0 else uint32Max) ⟨true, reqPath fetched⟩ >>=
        fun fd' => pure ⟨if m 0 = none then 0 else uint32Max, none, fd'⟩ := by
  rw [syshandlerOpen, openLoop_range represents nonempty (reqPath_isString fetched), missing]
  dsimp only
  rw [exist]
  rfl

/-- A path that is open, or a free first slot: the call does what the map does. -/
theorem Represents.run_spared (represents : Represents fd m) {call : DescriptorCall}
    (valid : call.Valid m) (spared : call.Spared m) :
    ∃ result, call.run beyond fd = .ok result ∧ result.rax = (call.apply m).1 ∧
      Represents result.fd (call.apply m).2 := by
  cases call with
  | close i =>
    obtain ⟨inside, -⟩ := valid
    have cut : i % 2 ^ 32 = i := Nat.mod_eq_of_lt (Nat.lt_trans inside (by decide))
    refine ⟨⟨0, none, Function.update fd i ⟨false, []⟩⟩, ?_, rfl, ?_⟩
    · rw [DescriptorCall.run, syshandlerClose, cut, writeSlot, if_pos inside]
      rfl
    · have noPath : ∀ path, (none : Option (List UInt8)) = some path → path ≠ [] ∧ IsString path := by
        rintro path ⟨⟩
      exact represents.update i noPath
  | openPath files fetched =>
    obtain ⟨-, nonempty, -, exist⟩ := valid
    rw [DescriptorCall.run, DescriptorCall.apply, DescriptorMap.openPath]
    cases found : m.lowest (some (reqPath fetched)) with
    | some i =>
      exact ⟨⟨i, none, fd⟩, represents.open_again files nonempty found, rfl, represents⟩
    | none =>
      have unused : m 0 = none := by
        rcases spared with open_ | unused
        · rw [found] at open_
          cases open_
        · exact unused
      rw [represents.open_other nonempty found exist, if_pos unused,
        DescriptorMap.lowest_first unused]
      have isPath : ∀ path, some (reqPath fetched) = some path → path ≠ [] ∧ IsString path := by
        rintro path ⟨⟩
        exact ⟨nonempty, reqPath_isString fetched⟩
      exact ⟨⟨0, none, Function.update fd 0 ⟨true, reqPath fetched⟩⟩, rfl, rfl,
        represents.update 0 isPath⟩

theorem Represents.run_unspared (represents : Represents fd m) {call : DescriptorCall}
    (valid : call.Valid m) (unspared : ¬call.Spared m) {result : DescriptorResult}
    (done : call.run beyond fd = .ok result) : result.rax ≠ (call.apply m).1 := by
  cases call with
  | close i => exact absurd trivial unspared
  | openPath files fetched =>
    obtain ⟨-, nonempty, -, exist⟩ := valid
    rw [DescriptorCall.Spared, not_or, Option.not_isSome_iff_eq_none] at unspared
    obtain ⟨missing, taken⟩ := unspared
    rw [DescriptorCall.run, represents.open_other nonempty missing exist, if_neg taken] at done
    obtain ⟨fd', -, done⟩ := Outcome.bind_ok.mp done
    rw [← Outcome.pure_ok.mp done, DescriptorCall.apply, DescriptorMap.openPath, missing]
    dsimp only
    cases free : m.lowest none with
    | none =>
      have apart : uint32Max ≠ uint64Max := by decide
      exact apart
    | some i =>
      have inside := (DescriptorMap.lowest_spec free).1
      rw [maxFileDesc] at inside
      rw [uint32Max]
      dsimp only
      omega

end Call

/-- The table is the map over a whole sequence if and only if every `open` of the sequence
names a path that is open already, or comes while descriptor 0 is unused. -/
theorem descriptors_right_iff {beyond : Outcome Unit} {fd : Nat → FileDescriptor}
    {m : DescriptorMap} {calls : List DescriptorCall} (represents : Represents fd m)
    (valid : m.ValidRun calls) : m.RightRun beyond fd calls ↔ m.SparedRun calls := by
  induction calls generalizing fd m with
  | nil => exact Iff.rfl
  | cons call rest inductionHypothesis =>
    obtain ⟨first, later⟩ := valid
    constructor
    · rintro ⟨result, done, rax, represents', right⟩
      refine ⟨?_, (inductionHypothesis represents' later).mp right⟩
      by_contra unspared
      exact represents.run_unspared first unspared done rax
    · rintro ⟨spared, rest_spared⟩
      obtain ⟨result, done, rax, represents'⟩ := represents.run_spared first spared
      exact ⟨result, done, rax, represents', (inductionHypothesis represents' later).mpr rest_spared⟩

theorem smallImage_exist :
    ∃ files : Files, files.exist [47, 103] = .ok true ∧ files.exist [47, 104] = .ok true := by
  obtain ⟨⟨foundG, resolvesG⟩, foundH, resolvesH⟩ := Ext2Driver.smallImage_files
  let mem := Ext2Driver.smallImage.hostile
  obtain ⟨least, g⟩ :=
    foundG.fileExists resolvesG Ext2Driver.smallImage_thirteenBlocks.type mem
  obtain ⟨least', h⟩ := foundH.fileExists resolvesH Ext2Driver.smallImage_oneBlock.type mem
  refine ⟨⟨Ext2Driver.smallImage, mem, least + least'⟩, ?_, ?_⟩
  · exact Outcome.bind_ok.mpr ⟨true, g _ (Nat.le_add_right least least'), rfl⟩
  · exact Outcome.bind_ok.mpr ⟨true, h _ (Nat.le_add_left least' least), rfl⟩

theorem represents_empty : Represents (fun _ => ⟨false, []⟩) .empty where
  slots _ _ := rfl
  paths := by
    rintro i _ path ⟨⟩

theorem descriptors_right_iff_reopened : ∃ files : Files,
    let calls := [.openPath files [47, 103], .openPath files [47, 103], .close 0,
      .openPath files [47, 104]]
    DescriptorMap.empty.SparedRun calls ∧
      (DescriptorMap.empty.RightRun (.ok ()) (fun _ => ⟨false, []⟩) calls ↔
        DescriptorMap.empty.SparedRun calls) := by
  obtain ⟨files, g, h⟩ := smallImage_exist
  refine ⟨files, ⟨.inr rfl, .inl rfl, trivial, .inr rfl, trivial⟩,
    descriptors_right_iff represents_empty ⟨?_, ?_, ?_, ?_, trivial⟩⟩
  · exact ⟨by decide, by decide, by decide, g⟩
  · exact ⟨by decide, by decide, by decide, g⟩
  · exact ⟨by decide, rfl⟩
  · exact ⟨by decide, by decide, by decide, h⟩

/-- Two files opened one after the other. -/
theorem open_second_file : ∃ files : Files,
    let calls := [.openPath files [47, 103], .openPath files [47, 104]]
    DescriptorMap.empty.ValidRun calls ∧
      ¬DescriptorMap.empty.RightRun (.ok ()) (fun _ => ⟨false, []⟩) calls := by
  obtain ⟨files, g, h⟩ := smallImage_exist
  have validG : DescriptorCall.Valid .empty (.openPath files [47, 103]) :=
    ⟨by decide, by decide, by decide, g⟩
  have validH : DescriptorCall.Valid
      (DescriptorCall.apply .empty (.openPath files [47, 103])).2
      (.openPath files [47, 104]) := ⟨by decide, by decide, by decide, h⟩
  refine ⟨files, ⟨validG, validH, trivial⟩, ?_⟩
  rintro ⟨first, -, -, represents, second, done, rax, -⟩
  refine represents.run_unspared validH ?_ done rax
  rintro (⟨⟨⟩⟩ | ⟨⟨⟩⟩)

end SwagOS.Kernel
