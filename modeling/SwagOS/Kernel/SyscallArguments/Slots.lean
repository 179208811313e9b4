import SwagOS.Kernel.SyscallArguments

/-!
# The descriptors in the bytes of the table

As long as every path ends inside of its slot, the bytes of the table are a table of flags and
strings, and `SYSHANDLER_open` and `SYSHANDLER_close` do to them what the model on strings does.
-/

namespace SwagOS.Kernel.SyscallArguments

open SwagOS.Lib SwagOS.Libc

def pathOf (fd : Bytes) (i : Nat) : List UInt8 :=
  cstring ((List.range maxPath).map (pathByte fd i)) 0

def slot (fd : Bytes) (i : Nat) : FileDescriptor := ⟨inUse fd i, pathOf fd i⟩

/-- Every path ends inside of its slot. -/
def PathsEnd (fd : Bytes) : Prop := ∀ i < maxFileDesc, ∃ k < maxPath, pathByte fd i k = 0

section Strings

variable {m : Bytes} {str : List UInt8}

theorem holdsString_length {k : Nat} (holds : HoldsString m 0 str) (zero : m k = 0) :
    str.length ≤ k := by
  by_contra long
  have inside : k < str.length := Nat.lt_of_not_le long
  have read := holds.bytes k inside
  rw [Nat.zero_add, zero] at read
  have member : str[k] ∈ str := List.getElem_mem inside
  rw [← read] at member
  exact holds.isString member

theorem holdsString_congr {other : Bytes} (holds : HoldsString m 0 str)
    (same : ∀ k ≤ str.length, m k = other k) : HoldsString other 0 str where
  isString := holds.isString
  bytes j inside := by
    have read := holds.bytes j inside
    rw [Nat.zero_add] at read ⊢
    rw [← same j (Nat.le_of_lt inside), read]
  terminated := by
    have zero := holds.terminated
    rw [Nat.zero_add] at zero ⊢
    rw [← same _ (Nat.le_refl _), zero]

theorem holdsString_cstring {n : Nat} (ended : ∃ k < n, m k = 0) :
    HoldsString m 0 (cstring ((List.range n).map m) 0) := by
  obtain ⟨k, below, zero⟩ := ended
  have same : ∀ j < n, ((List.range n).map m).getD j 0 = m j := by
    intro j inside
    simp [List.getD_eq_getElem?_getD, inside]
  obtain ⟨bytes, terminated⟩ := @cstring_getD ((List.range n).map m) _ 0 rfl
  have isString : IsString (cstring ((List.range n).map m) 0) := takeWhile_isString _
  have short : (cstring ((List.range n).map m) 0).length < n := by
    by_contra long
    have inside : k < (cstring ((List.range n).map m) 0).length := by omega
    have read := bytes k inside
    have member := List.getElem_mem inside
    rw [Nat.zero_add, same k below, zero] at read
    rw [← read] at member
    exact isString member
  refine ⟨isString, fun j inside => ?_, ?_⟩
  · rw [← bytes j inside, Nat.zero_add, same j (by omega)]
  · rw [← terminated, Nat.zero_add, same _ short]

theorem holdsString_stringLength {fuel n : Nat} (length : stringLength fuel m = .ok n) :
    HoldsString m 0 ((List.range n).map m) := by
  unfold stringLength at length
  split at length
  next found =>
    cases length
    have zero := List.find?_some found
    obtain ⟨-, -, earlier⟩ := List.find?_range_eq_some.mp found
    refine ⟨fun member => ?_, fun j inside => by simp, by simpa using zero⟩
    obtain ⟨k, below, zero⟩ := List.mem_map.mp member
    have notZero := earlier k (List.mem_range.mp below)
    simp [zero] at notZero
  next => cases length

end Strings

theorem reqPath_eq {string : List UInt8} (isString : IsString string) :
    Kernel.reqPath string = string := by
  rw [Kernel.reqPath, cstring, List.drop_zero, List.takeWhile_append_of_pos isString.ne_zero]
  cases maxPath - string.length with
  | zero => rw [List.replicate_zero, List.takeWhile_nil, List.append_nil]
  | succ n =>
    rw [List.replicate_succ, List.takeWhile_cons_of_neg (by decide), List.append_nil]

section Calls

variable {fd fd' path : Bytes} {string : List UInt8} {i : Nat}

theorem PathsEnd.holds (ends : PathsEnd fd) (inside : i < maxFileDesc) :
    HoldsString (pathByte fd i) 0 (pathOf fd i) :=
  holdsString_cstring (ends i inside)

theorem slot_congr (flag : fd (slotSize * i) = fd' (slotSize * i))
    (bytes : ∀ k < maxPath, pathByte fd i k = pathByte fd' i k) : slot fd i = slot fd' i := by
  have paths : (List.range maxPath).map (pathByte fd i) =
      (List.range maxPath).map (pathByte fd' i) :=
    List.map_congr_left fun k member => bytes k (List.mem_range.mp member)
  rw [slot, slot, inUse, inUse, pathOf, pathOf, flag, paths]

theorem slot_eq (holds : HoldsString (pathByte fd i) 0 string) (short : string.length < maxPath) :
    slot fd i = ⟨inUse fd i, string⟩ := by
  have zero := holds.terminated
  rw [Nat.zero_add] at zero
  have here : HoldsString (pathByte fd i) 0 (pathOf fd i) := holdsString_cstring ⟨_, short, zero⟩
  rw [slot, holds.unique here]

theorem PathsEnd.matches_iff (ends : PathsEnd fd) (inside : i < maxFileDesc)
    (holds : HoldsString path 0 string) :
    Matches fd path i ↔ strcmp string (slot fd i).path = 0 := by
  have here := ends.holds inside
  have equal : strcmp string (pathOf fd i) = 0 ↔ string = pathOf fd i :=
    strcmp_eq_zero holds.isString here.isString
  rw [slot, equal]
  constructor
  · rintro ⟨k, -, zero, same⟩
    have before := holdsString_length here zero
    have copy := holdsString_congr here fun j upTo => (same j (Nat.le_trans upTo before)).symm
    exact copy.unique holds
  · rintro rfl
    obtain ⟨k, below, zero⟩ := ends i inside
    have before := holdsString_length here zero
    have ended := here.terminated
    rw [Nat.zero_add] at ended
    refine ⟨(pathOf fd i).length, ?_, ended, fun j upTo => ?_⟩
    · unfold maxFileDesc at inside
      unfold maxPath at below
      unfold room slotSize maxFileDesc
      omega
    · rcases Nat.lt_or_eq_of_le upTo with earlier | rfl
      · have first := holds.bytes j earlier
        rw [Nat.zero_add] at first
        have second := here.bytes j earlier
        rw [Nat.zero_add] at second
        rw [first, second]
      · have first := holds.terminated
        rw [Nat.zero_add] at first
        rw [first, ended]

/-- The comparisons of the loop are those of the strings. -/
theorem PathsEnd.openLoop_eq (ends : PathsEnd fd) (holds : HoldsString path 0 string)
    {slots : List Nat} (inside : ∀ i ∈ slots, i < maxFileDesc) {minFd : Nat} {result : Nat ⊕ Nat}
    (done : openLoop fd path slots minFd = .ok result) :
    Kernel.openLoop (slot fd) string slots minFd = result := by
  induction slots generalizing minFd with
  | nil => exact Checked.pure_eq.mp done
  | cons i rest inductionHypothesis =>
    have here := inside i List.mem_cons_self
    have later : ∀ j ∈ rest, j < maxFileDesc := fun j member =>
      inside j (List.mem_cons_of_mem i member)
    rw [openLoop] at done
    obtain ⟨same, compared, done⟩ := Checked.bind_eq.mp done
    have isSame : same = true ↔ strcmp string (slot fd i).path = 0 :=
      (samePath_eq here compared).trans (ends.matches_iff here holds)
    rw [Kernel.openLoop]
    cases same with
    | true =>
      rw [if_pos (isSame.mp rfl)]
      exact Checked.pure_eq.mp done
    | false =>
      have other : ¬strcmp string (slot fd i).path = 0 := fun zero =>
        Bool.false_ne_true (isSame.mpr zero)
      rw [if_neg other]
      obtain ⟨-, done⟩ := Checked.check_bind_eq.mp done
      have flag : (slot fd 0).inUse = inUse fd 0 := rfl
      rw [flag]
      cases first : inUse fd 0 with
      | true =>
        rw [first] at done
        rw [if_neg (by decide)]
        exact inductionHypothesis later done
      | false =>
        rw [first] at done
        rw [if_pos rfl]
        have done := inductionHypothesis later done
        split
        next smaller => rwa [if_pos smaller] at done
        next larger => rwa [if_neg larger] at done

/-- What is written to one slot leaves the others. -/
theorem slot_other {j : Nat} (other : j ≠ i)
    (same : ∀ p, p < slotSize * i ∨ slotSize * (i + 1) ≤ p → fd' p = fd p) :
    (∀ k < maxPath, pathByte fd' j k = pathByte fd j k) ∧ slot fd' j = slot fd j := by
  have outside : ∀ k < slotSize, fd' (slotSize * j + k) = fd (slotSize * j + k) := by
    intro k below
    apply same
    unfold slotSize at below ⊢
    omega
  have bytes : ∀ k < maxPath, pathByte fd' j k = pathByte fd j k := by
    intro k below
    rw [pathByte, pathByte, Nat.add_assoc]
    apply outside
    unfold maxPath at below
    unfold slotSize
    omega
  exact ⟨bytes, slot_congr (outside 0 (by decide)) bytes⟩

/-- A slot is replaced by one that holds a string. -/
theorem slots_replaced (ends : PathsEnd fd)
    (same : ∀ p, p < slotSize * i ∨ slotSize * (i + 1) ≤ p → fd' p = fd p)
    (holds : HoldsString (pathByte fd' i) 0 string) (short : string.length < maxPath) :
    slot fd' = Function.update (slot fd) i ⟨inUse fd' i, string⟩ ∧ PathsEnd fd' := by
  constructor
  · funext j
    by_cases here : j = i
    · subst here
      rw [Function.update_self, slot_eq holds short]
    · rw [Function.update_of_ne here, (slot_other here same).2]
  · intro j inside
    by_cases here : j = i
    · subst here
      have zero := holds.terminated
      rw [Nat.zero_add] at zero
      exact ⟨_, short, zero⟩
    · obtain ⟨k, below, zero⟩ := ends j inside
      exact ⟨k, below, ((slot_other here same).1 k below).trans zero⟩

/-- `in_use = true` -/
theorem slots_use (ends : PathsEnd fd) (inside : i < maxFileDesc) :
    slot (Function.update fd (slotSize * i) 1) =
        Function.update (slot fd) i { slot fd i with inUse := true } ∧
      PathsEnd (Function.update fd (slotSize * i) 1) := by
  have bytes : ∀ k, pathByte (Function.update fd (slotSize * i) 1) i k = pathByte fd i k := by
    intro k
    rw [pathByte, Function.update_of_ne (by omega), pathByte]
  have here := ends.holds inside
  obtain ⟨k, below, zero⟩ := ends i inside
  have short := Nat.lt_of_le_of_lt (holdsString_length here zero) below
  have flag : inUse (Function.update fd (slotSize * i) 1) i = true := by
    rw [inUse, Function.update_self]
    rfl
  have replaced := @slots_replaced fd (Function.update fd (slotSize * i) 1) (pathOf fd i) i ends
    (fun p outside => Function.update_of_ne (by unfold slotSize at outside ⊢; omega) _ _)
    (holdsString_congr here fun k _ => (bytes k).symm) short
  rw [flag] at replaced
  exact replaced

theorem slots_writePath (ends : PathsEnd fd) (holds : HoldsString path 0 string)
    (short : string.length < maxPath) :
    slot (writePath fd i path string.length) = Function.update (slot fd) i ⟨true, string⟩ ∧
      PathsEnd (writePath fd i path string.length) := by
  have fits : slotSize * i + 1 + string.length < slotSize * (i + 1) := by
    unfold maxPath at short
    unfold slotSize
    omega
  have room : slotSize * i + 1 + maxPath = slotSize * (i + 1) := by
    unfold maxPath slotSize
    omega
  have outside : ∀ p, p < slotSize * i ∨ slotSize * (i + 1) ≤ p →
      writePath fd i path string.length p = fd p := by
    intro p outside
    dsimp only [writePath]
    rw [Bytes.memcpy_outside (by omega), Bytes.memcpy_outside (by omega),
      Function.update_of_ne (by omega)]
  have copied : HoldsString (pathByte (writePath fd i path string.length) i) 0 string := by
    refine holdsString_congr holds fun k upTo => ?_
    dsimp only [pathByte, writePath]
    rcases Nat.lt_or_eq_of_le upTo with below | rfl
    · rw [Bytes.memcpy_inside (by omega) (by omega), Nat.add_sub_cancel_left]
    · have zero := holds.terminated
      rw [Nat.zero_add] at zero
      rw [Bytes.memcpy_outside (by omega), Bytes.memcpy_inside (by omega) (by omega), zero]
  have flag : inUse (writePath fd i path string.length) i = true := by
    dsimp only [inUse, writePath]
    rw [Bytes.memcpy_outside (by omega), Bytes.memcpy_outside (by omega), Function.update_self]
    rfl
  have replaced := slots_replaced ends outside copied short
  rw [flag] at replaced
  exact replaced

theorem slots_clear (ends : PathsEnd fd) (i : Nat) :
    slot (fd.memcpy (slotSize * i) (fun _ => 0) slotSize) =
        Function.update (slot fd) i ⟨false, []⟩ ∧
      PathsEnd (fd.memcpy (slotSize * i) (fun _ => 0) slotSize) := by
  have next : slotSize * i + slotSize = slotSize * (i + 1) := (Nat.mul_succ _ _).symm
  have outside : ∀ p, p < slotSize * i ∨ slotSize * (i + 1) ≤ p →
      fd.memcpy (slotSize * i) (fun _ => 0) slotSize p = fd p :=
    fun p outside => Bytes.memcpy_outside (by omega)
  have cleared : ∀ k < slotSize,
      fd.memcpy (slotSize * i) (fun _ => 0) slotSize (slotSize * i + k) = 0 :=
    fun k below => Bytes.memcpy_inside (by omega) (by omega)
  have empty : HoldsString (pathByte (fd.memcpy (slotSize * i) (fun _ => 0) slotSize) i) 0 [] := by
    refine ⟨List.not_mem_nil, fun j inside => absurd inside (Nat.not_lt_zero j), ?_⟩
    exact cleared 1 (by decide)
  have flag : inUse (fd.memcpy (slotSize * i) (fun _ => 0) slotSize) i = false := by
    have zero := cleared 0 (by decide)
    rw [Nat.add_zero] at zero
    rw [inUse, zero]
    rfl
  have replaced := slots_replaced ends outside empty (by decide)
  rw [flag] at replaced
  exact replaced

/-- A call of `SYSHANDLER_open` on the bytes does to the slots what the model on strings does. -/
theorem syshandlerOpen_slots {caller : Caller} {files : Files} {behind : Bytes}
    {rsi rdx n : Nat} (ends : PathsEnd fd) (fetched : fetchPath caller behind rsi rdx = .ok path)
    (length : stringLength files.fuel path = .ok n) (short : n < maxPath)
    (done : syshandlerOpen caller files behind rsi rdx fd = .ok fd') (beyond : Outcome Unit) :
    ∃ result, Kernel.syshandlerOpen beyond (slot fd) files ((List.range n).map path) =
        .ok result ∧ slot fd' = result.fd ∧ PathsEnd fd' := by
  have holds := holdsString_stringLength length
  have size : ((List.range n).map path).length = n := by simp
  have whole := reqPath_eq holds.isString
  rw [syshandlerOpen] at done
  obtain ⟨path', again, done⟩ := Checked.bind_eq.mp done
  obtain rfl : path = path' := Except.ok.inj (fetched.symm.trans again)
  obtain ⟨found, looked, done⟩ := Checked.bind_eq.mp done
  have loop := ends.openLoop_eq holds (fun i => List.mem_range.mp) looked
  rw [Kernel.syshandlerOpen]
  dsimp only
  rw [whole, loop]
  cases found with
  | inl i =>
    have inside : i < maxFileDesc := by
      rw [List.range_eq_range'] at looked
      rcases SyscallArguments.openLoop_eq (Nat.le_refl _) looked with ⟨m, same, -, -, below⟩ |
        ⟨-, never⟩
      · cases same
        exact Nat.lt_of_lt_of_eq below (Nat.zero_add _)
      · cases never
    cases Checked.pure_eq.mp done
    obtain ⟨slots, ended⟩ := slots_use ends inside
    exact ⟨_, rfl, slots, ended⟩
  | inr minFd =>
    dsimp only at done ⊢
    rw [openNew] at done
    obtain ⟨n', again, done⟩ := Checked.bind_eq.mp done
    obtain rfl : n = n' := Except.ok.inj (length.symm.trans (Checked.lift_ok.mp again))
    obtain ⟨exists_, asked, done⟩ := Checked.bind_eq.mp done
    have asked := Checked.lift_ok.mp asked
    cases exists_ with
    | false =>
      cases Checked.pure_eq.mp done
      exact ⟨_, Outcome.bind_ok.mpr ⟨false, asked, rfl⟩, rfl, ends⟩
    | true =>
      obtain ⟨inside, done⟩ := Checked.check_bind_eq.mp done
      obtain ⟨_, -, done⟩ := Checked.bind_eq.mp done
      cases Checked.pure_eq.mp done
      have written := @slots_writePath fd path _ minFd ends holds (by rwa [size])
      rw [size] at written
      refine ⟨⟨minFd, none, Function.update (slot fd) minFd ⟨true, _⟩⟩, ?_, written⟩
      refine Outcome.bind_ok.mpr ⟨true, asked, ?_⟩
      refine Outcome.bind_ok.mpr ⟨_, ?_, rfl⟩
      rw [writeSlot, if_pos (by omega)]
      rfl

/-- A call of `SYSHANDLER_close` on the bytes does to the slots what the model on strings does. -/
theorem syshandlerClose_slots {rsi : Nat} (ends : PathsEnd fd)
    (done : syshandlerClose rsi fd = .ok fd') (beyond : Outcome Unit) :
    ∃ result, Kernel.syshandlerClose beyond (slot fd) rsi = .ok result ∧
      slot fd' = result.fd ∧ PathsEnd fd' := by
  rw [syshandlerClose] at done
  obtain ⟨inside, done⟩ := Checked.check_bind_eq.mp done
  cases Checked.pure_eq.mp done
  have below := (asInt_inside rsi).mp inside
  have index : (asInt rsi).toNat = rsi % 2 ^ 32 := by
    unfold maxFileDesc at below
    rw [asInt, BitVec.toInt_eq_toNat_cond, BitVec.toNat_ofNat, if_pos (by omega)]
    exact Int.toNat_natCast _
  refine ⟨⟨0, none, Function.update (slot fd) (rsi % 2 ^ 32) ⟨false, []⟩⟩, ?_, ?_⟩
  · rw [Kernel.syshandlerClose]
    refine Outcome.bind_ok.mpr ⟨_, ?_, rfl⟩
    rw [writeSlot, if_pos below]
    rfl
  · rw [index]
    exact slots_clear ends _

/-- The call on strings that a call on bytes comes to. -/
inductive Mirrors : Call → DescriptorCall → Prop
  | open_ {caller : Caller} {files : Files} {behind path : Bytes} {rsi rdx n : Nat} :
      fetchPath caller behind rsi rdx = .ok path → stringLength files.fuel path = .ok n →
        n < maxPath →
          Mirrors (.open_ caller files behind rsi rdx) (.openPath files ((List.range n).map path))
  | close {rsi : Nat} : Mirrors (.close rsi) (.close rsi)

theorem Mirrors.slots {call : Call} {onStrings : DescriptorCall} (mirrors : Mirrors call onStrings)
    (ends : PathsEnd fd) (done : call.run fd = .ok fd') (beyond : Outcome Unit) :
    ∃ result, onStrings.run beyond (slot fd) = .ok result ∧ slot fd' = result.fd ∧
      PathsEnd fd' := by
  cases mirrors with
  | open_ fetched length short => exact syshandlerOpen_slots ends fetched length short done beyond
  | close => exact syshandlerClose_slots ends done beyond

/-- A sequence of calls on the bytes does to the slots what the sequence on strings does. -/
theorem runCalls_slots {calls : List Call} {onStrings : List DescriptorCall}
    (mirrors : List.Forall₂ Mirrors calls onStrings) (ends : PathsEnd fd)
    (done : runCalls fd calls = .ok fd') (beyond : Outcome Unit) :
    onStrings.foldlM (fun table call => DescriptorResult.fd <$> call.run beyond table) (slot fd) =
      .ok (slot fd') ∧ PathsEnd fd' := by
  induction mirrors generalizing fd with
  | nil =>
    cases done
    exact ⟨rfl, ends⟩
  | cons first rest inductionHypothesis =>
    rw [runCalls, List.foldlM_cons] at done
    obtain ⟨fd₁, called, done⟩ := Checked.bind_eq.mp done
    obtain ⟨result, ran, same, ends₁⟩ := first.slots ends called beyond
    obtain ⟨later, ended⟩ := inductionHypothesis ends₁ done
    rw [same] at later
    refine ⟨?_, ended⟩
    rw [List.foldlM_cons, ran]
    exact later

end Calls

end SwagOS.Kernel.SyscallArguments
