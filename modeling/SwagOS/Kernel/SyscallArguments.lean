import SwagOS.Kernel.Descriptors
import SwagOS.Lib.Checked
import SwagOS.Lib.Paging

/-!
# The arguments of the system calls on descriptors

`SYSHANDLER_open`, `SYSHANDLER_read`, `SYSHANDLER_fstat`, `SYSHANDLER_close` and
`SYSHANDLER_exec` up to the places where they use what user code has passed.  The table of
descriptors is taken byte by byte, with what lies behind it: a path that is not terminated
runs on into the next slot, and behind the last one out of the table.

A call breaks a rule when it looks at a slot that the table does not have, copies more into
`req_path` than fits, or passes an argument without an end to `ExecUserProcess`.
-/

namespace SwagOS.Kernel.SyscallArguments

open SwagOS.Lib SwagOS.Libc SwagOS.Mem

inductive Violation where
  /-- `proc->fd[index]` is no descriptor. -/
  | descriptor (index : Int)
  /-- A byte behind `req_path` is written. -/
  | pathBuffer
  /-- Argument `i` does not end. -/
  | argument (i : Nat)

abbrev Guarded := Checked Violation

/-- `sizeof(file_descriptor)`: the flag, and `char path[MAX_PATH]`. -/
def slotSize : Nat := 261

def pathByte (fd : Bytes) (i k : Nat) : UInt8 := fd (slotSize * i + 1 + k)

/-- `fd[i].in_use` -/
def inUse (fd : Bytes) (i : Nat) : Bool := fd (slotSize * i) != 0

def access (index : Int) : Guarded Unit :=
  .check (0 ≤ index ∧ index < maxFileDesc) (.descriptor index)

/-- The slot in which byte `k` from `fd[i].path` on lies. -/
def touch (i k : Nat) : Guarded Unit := access (i + (1 + k) / slotSize : Nat)

def tableFuel : Nat := maxFileDesc * slotSize

/-- The calling process, and the contents of the memory. -/
structure Caller where
  base : Nat
  view : View
  pgdir : ThreadPagetables
  ram : Bytes

namespace Caller

variable (caller : Caller)

/-- A byte of user memory; `load_page_table(pagetable)` comes before. -/
def userByte (va : Nat) : Outcome UInt8 :=
  match Paging.walk (caller.pgdir.tableAt caller.base caller.view) (va % 2 ^ 64) caller.base with
  | none => throw (.panic "Page Fault Interrupt")
  | some t => pure (caller.ram t.physical)

/-- `FetchStruct`, with the check of each byte that it writes. -/
def fetchStruct (write : Nat → Guarded Unit) (out : Bytes) (addr size : Nat) : Guarded Bytes :=
  if caller.pgdir.fetchStruct caller.base caller.view addr size then
    (List.range size).foldlM (fun out k => do
      let byte ← .lift (caller.userByte (addr + k))
      write k
      pure (Function.update out k byte)) out
  else pure out

/-- The loop of `FetchString`, with the bytes that it has copied; `n` are left. -/
def copyString (addr : Nat) : Nat → Nat → Outcome (List UInt8)
  | 0, _ => pure []
  | n + 1, i => do
      let byte ← caller.userByte (addr + i)
      if byte = 0 then pure []
      else do
        let rest ← copyString addr n (i + 1)
        pure (byte :: rest)

def fetchString (addr maxLen : Nat) : Outcome (Option (List UInt8)) :=
  if caller.pgdir.fetchStruct caller.base caller.view addr maxLen then do
    let string ← caller.copyString addr maxLen 0
    pure (some string)
  else pure none

end Caller

def stringLength (fuel : Nat) (string : Bytes) : Outcome Nat :=
  match (List.range fuel).find? fun k => string k == 0 with
  | some k => pure k
  | none => throw .hang

def differs (fd path : Bytes) (i k : Nat) : Bool :=
  path k != pathByte fd i k || pathByte fd i k == 0

/-- `!strcmp(req_path, t->fd[i].path)` -/
def samePath (fd path : Bytes) (i : Nat) : Guarded Bool := do
  let k ← .scan (touch i) (differs fd path i) tableFuel 0
  pure (path k == pathByte fd i k)

/-- The loop of `SYSHANDLER_open`: the slot of the path, or `min_fd`. -/
def openLoop (fd path : Bytes) : List Nat → Nat → Guarded (Nat ⊕ Nat)
  | [], minFd => pure (.inr minFd)
  | i :: rest, minFd => do
      if ← samePath fd path i then pure (.inl i)
      else do
        -- `t->fd->in_use` is the flag of the first slot.
        access 0
        if !inUse fd 0 then openLoop fd path rest (if i < minFd then i else minFd)
        else openLoop fd path rest minFd

/-- Slot `i` after `in_use = true`, `memset` and `memcpy` of `n` bytes. -/
def writePath (fd : Bytes) (i : Nat) (path : Bytes) (n : Nat) : Bytes :=
  let fd : Bytes := Function.update fd (slotSize * i) 1
  let fd := fd.memcpy (slotSize * i + 1) (fun _ => 0) maxPath
  fd.memcpy (slotSize * i + 1) path n

/-- `req_path` after its `memset`, and the stack behind it. -/
def reqPath (behind : Bytes) : Bytes := fun k => if k < maxPath then 0 else behind (k - maxPath)

/-- The end of `SYSHANDLER_open`, for a path that has no slot. -/
def openNew (fd : Bytes) (files : Files) (path : Bytes) (minFd : Nat) : Guarded Bytes := do
  let n ← .lift (stringLength files.fuel path)
  if ← .lift (files.exist ((List.range n).map path)) then do
    access minFd
    forM (List.range n) (touch minFd)
    pure (writePath fd minFd path n)
  else pure fd

/-- `FetchStruct(ctx->rsi, req_path, ctx->rdx, user_pagetable)`; the size is an `uint32_t`. -/
def fetchPath (caller : Caller) (behind : Bytes) (rsi rdx : Nat) : Guarded Bytes :=
  caller.fetchStruct (fun k => .check (k < maxPath) .pathBuffer) (reqPath behind) rsi
    (rdx % 2 ^ 32)

def syshandlerOpen (caller : Caller) (files : Files) (behind : Bytes) (rsi rdx : Nat) (fd : Bytes) :
    Guarded Bytes := do
  let path ← fetchPath caller behind rsi rdx
  match ← openLoop fd path (List.range maxFileDesc) uint32Max with
  | .inl i => pure (Function.update fd (slotSize * i) 1)
  | .inr minFd => openNew fd files path minFd

/-- The beginning of `SYSHANDLER_read` and `SYSHANDLER_fstat`; what follows uses the path only,
which is read up to its end. -/
def usePath (rsi : Nat) (fd : Bytes) : Guarded Bytes := do
  access rsi
  if !inUse fd rsi then pure fd
  else do
    let _ ← .scan (touch rsi) (fun k => pathByte fd rsi k == 0) tableFuel 0
    pure fd

def syshandlerRead (rsi : Nat) (fd : Bytes) : Guarded Bytes := usePath rsi fd

def syshandlerFstat (rsi : Nat) (fd : Bytes) : Guarded Bytes := usePath rsi fd

/-- `int fd = ctx->rsi` -/
def asInt (rsi : Nat) : Int := (BitVec.ofNat 32 rsi).toInt

def syshandlerClose (rsi : Nat) (fd : Bytes) : Guarded Bytes := do
  access (asInt rsi)
  pure (fd.memcpy (slotSize * (asInt rsi).toNat) (fun _ => 0) slotSize)

def Ends (args : Bytes) (i : Nat) : Prop := ∃ k < maxPath, args (maxPath * i + k) = 0

instance (args : Bytes) (i : Nat) : Decidable (Ends args i) :=
  inferInstanceAs (Decidable (∃ k < maxPath, _))

/-- `sizeof(exec_args)` -/
def argsSize : Nat := 16 * maxPath

/-- The block lies on the stack.  If `ExecUserProcess` runs the program, the descriptors
are cleared. -/
def syshandlerExec (caller : Caller) (stack : Bytes) (runs : Bool) (rsi rdx : Nat) (fd : Bytes) :
    Guarded Bytes := do
  match ← .lift (caller.fetchString rsi maxPath) with
  | none => pure fd
  | some _ => do
      let args ← caller.fetchStruct (fun _ => pure ()) stack rdx argsSize
      forM (List.range 16) fun i => .check (Ends args i) (.argument i)
      pure (if runs then fd.memcpy 0 (fun _ => 0) (maxFileDesc * slotSize) else fd)

inductive Call where
  | open_ (caller : Caller) (files : Files) (behind : Bytes) (rsi rdx : Nat)
  | read (rsi : Nat)
  | fstat (rsi : Nat)
  | close (rsi : Nat)
  | exec (caller : Caller) (stack : Bytes) (runs : Bool) (rsi rdx : Nat)

def Call.run (fd : Bytes) : Call → Guarded Bytes
  | .open_ caller files behind rsi rdx => syshandlerOpen caller files behind rsi rdx fd
  | .read rsi => syshandlerRead rsi fd
  | .fstat rsi => syshandlerFstat rsi fd
  | .close rsi => syshandlerClose rsi fd
  | .exec caller stack runs rsi rdx => syshandlerExec caller stack runs rsi rdx fd

def runCalls (fd : Bytes) (calls : List Call) : Guarded Bytes := calls.foldlM Call.run fd

/-- The bytes from `fd[i].path` to the end of the table. -/
def room (i : Nat) : Nat := slotSize * (maxFileDesc - i) - 1

section Conditions

variable (fd path : Bytes)

def Stops (i : Nat) : Prop :=
  ∃ k < room i, path k ≠ pathByte fd i k ∨ pathByte fd i k = 0

def Matches (i : Nat) : Prop :=
  ∃ k < room i, pathByte fd i k = 0 ∧ ∀ j ≤ k, path j = pathByte fd i j

def Terminated (i : Nat) : Prop := ∃ k < room i, pathByte fd i k = 0

/-- `FetchStruct` copies more than `MAX_PATH` bytes: it is asked to, and no page fault comes
before. -/
def Caller.Overruns (caller : Caller) (addr size : Nat) : Prop :=
  caller.pgdir.fetchStruct caller.base caller.view addr size = true ∧ maxPath < size ∧
    ∀ k ≤ maxPath, ∃ byte, caller.userByte (addr + k) = .ok byte

/-- What `open` needs: `req_path` holds what is copied; the comparisons up to the slot of the
path end inside the table; and a path that exists and has no slot finds the first slot
unused, and fits into the table. -/
structure OpenSpared (caller : Caller) (files : Files) (behind : Bytes) (rsi rdx : Nat) : Prop where
  buffer : ¬caller.Overruns rsi (rdx % 2 ^ 32)
  table : ∀ path, fetchPath caller behind rsi rdx = .ok path →
    ∀ i < maxFileDesc, (∀ j < i, ¬Matches fd path j) → Stops fd path i
  slot : ∀ path, fetchPath caller behind rsi rdx = .ok path →
    (∀ i < maxFileDesc, ¬Matches fd path i) → ∀ n, stringLength files.fuel path = .ok n →
      files.exist ((List.range n).map path) = .ok true → inUse fd 0 = false ∧ n ≤ room 0

def Call.Spared : Call → Prop
  | .open_ caller files behind rsi rdx => OpenSpared fd caller files behind rsi rdx
  | .read rsi => rsi < maxFileDesc ∧ (inUse fd rsi = true → Terminated fd rsi)
  | .fstat rsi => rsi < maxFileDesc ∧ (inUse fd rsi = true → Terminated fd rsi)
  | .close rsi => rsi % 2 ^ 32 < maxFileDesc
  | .exec caller stack _ rsi rdx =>
      ∀ path args, caller.fetchString rsi maxPath = .ok (some path) →
        caller.fetchStruct (fun _ => pure ()) stack rdx argsSize = .ok args → ∀ i < 16, Ends args i

end Conditions

def SparedRun : Bytes → List Call → Prop
  | _, [] => True
  | fd, call :: rest => call.Spared fd ∧ ∀ fd', call.run fd = .ok fd' → SparedRun fd' rest

section Spared

variable {fd path : Bytes} {i : Nat}

theorem allowed_iff (inside : i < maxFileDesc) (k : Nat) :
    (0 ≤ ((i + (1 + k) / slotSize : Nat) : Int) ∧
      ((i + (1 + k) / slotSize : Nat) : Int) < maxFileDesc) ↔ k < room i := by
  unfold maxFileDesc at inside
  unfold room slotSize maxFileDesc
  omega

theorem room_lt (i : Nat) : room i < 0 + tableFuel := by
  unfold room tableFuel slotSize maxFileDesc
  omega

theorem meets_samePath (inside : i < maxFileDesc) :
    (samePath fd path i).Meets ↔ Stops fd path i := by
  unfold samePath
  have loop : (Checked.scan (touch i) (differs fd path i) tableFuel 0).Meets ↔
      ∃ k, 0 ≤ k ∧ k < room i ∧ differs fd path i k = true :=
    Checked.meets_scan (allowed_iff inside) (Nat.zero_le _) (room_lt i)
  rw [Checked.meets_bind]
  constructor
  · rintro ⟨meets, -⟩
    obtain ⟨k, -, below, stops⟩ := loop.mp meets
    refine ⟨k, below, ?_⟩
    simpa [differs] using stops
  · rintro ⟨k, below, stops⟩
    refine ⟨loop.mpr ⟨k, Nat.zero_le k, below, ?_⟩, fun _ _ => Checked.meets_pure _⟩
    simpa [differs] using stops

theorem samePath_eq (inside : i < maxFileDesc) {same : Bool}
    (done : samePath fd path i = .ok same) : same = true ↔ Matches fd path i := by
  unfold samePath at done
  obtain ⟨k, loop, done⟩ := Checked.bind_eq.mp done
  obtain ⟨-, below, stops, first⟩ := Checked.scan_eq (allowed_iff inside) loop
  have equal : same = (path k == pathByte fd i k) := (Checked.pure_eq.mp done).symm
  have before : ∀ j < k, path j = pathByte fd i j ∧ pathByte fd i j ≠ 0 := by
    intro j earlier
    have goesOn := first j (Nat.zero_le j) earlier
    simpa [differs] using goesOn
  rw [equal, beq_iff_eq]
  constructor
  · intro here
    refine ⟨k, below, by simpa [differs, here] using stops, fun j upTo => ?_⟩
    rcases Nat.lt_or_eq_of_le upTo with earlier | rfl
    · exact (before j earlier).1
    · exact here
  · rintro ⟨end_, -, zero, all⟩
    -- The loop goes on to the end of the strings.
    apply all k
    by_contra later
    exact (before end_ (Nat.lt_of_not_le later)).2 zero

theorem samePath_ends (inside : i < maxFileDesc) (stops : Stops fd path i) :
    ∃ same, samePath fd path i = .ok same := by
  obtain ⟨k, below, stops⟩ := stops
  have found : ∃ k, 0 ≤ k ∧ k < room i ∧ differs fd path i k = true :=
    ⟨k, Nat.zero_le k, below, by simpa [differs] using stops⟩
  have loop : ∃ j, Checked.scan (touch i) (differs fd path i) tableFuel 0 = .ok j :=
    Checked.scan_ends (allowed_iff inside) (room_lt i) found
  obtain ⟨j, loop⟩ := loop
  exact ⟨_, Checked.bind_eq.mpr ⟨j, loop, rfl⟩⟩

theorem access_zero : (0 : Int) ≤ 0 ∧ (0 : Int) < maxFileDesc := by decide

theorem meets_openLoop {n minFd : Nat} (inside : i + n ≤ maxFileDesc) :
    (openLoop fd path (List.range' i n) minFd).Meets ↔
      ∀ m, i ≤ m → m < i + n → (∀ j, i ≤ j → j < m → ¬Matches fd path j) → Stops fd path m := by
  induction n generalizing i minFd with
  | zero =>
    refine iff_of_true (Checked.meets_pure _) ?_
    intro m behind before
    omega
  | succ n inductionHypothesis =>
    have here : i < maxFileDesc := by omega
    rw [List.range'_succ, openLoop, Checked.meets_bind, meets_samePath here]
    constructor
    · rintro ⟨first, later⟩ m behind before none
      rcases Nat.eq_or_lt_of_le behind with rfl | further
      · exact first
      · obtain ⟨same, done⟩ := samePath_ends here first
        have other : same = false := by
          apply Bool.eq_false_iff.mpr
          intro isSame
          exact none i (Nat.le_refl i) further ((samePath_eq here done).mp isSame)
        have meets := later same done
        simp only [other, Bool.false_eq_true, ↓reduceIte, access] at meets
        have rest := (Checked.meets_check_bind.mp meets).2
        have none' : ∀ j, i + 1 ≤ j → j < m → ¬Matches fd path j :=
          fun j after before => none j (Nat.le_of_succ_le after) before
        split at rest
        next => exact (inductionHypothesis (by omega)).mp rest m further (by omega) none'
        next => exact (inductionHypothesis (by omega)).mp rest m further (by omega) none'
    · intro all
      refine ⟨all i (Nat.le_refl i) (by omega) fun j behind before => absurd before (by omega), ?_⟩
      intro same done
      split
      next => exact Checked.meets_pure _
      next other =>
        have noMatch : ¬Matches fd path i := fun isSame => other ((samePath_eq here done).mpr isSame)
        have rest : ∀ m, i + 1 ≤ m → m < i + 1 + n →
            (∀ j, i + 1 ≤ j → j < m → ¬Matches fd path j) → Stops fd path m := by
          intro m behind before none
          refine all m (by omega) (by omega) fun j start before => ?_
          rcases Nat.eq_or_lt_of_le start with rfl | after
          · exact noMatch
          · exact none j after before
        refine Checked.meets_check_bind.mpr ⟨access_zero, ?_⟩
        split
        next => exact (inductionHypothesis (by omega)).mpr rest
        next => exact (inductionHypothesis (by omega)).mpr rest

/-- Without the path, the result is the first slot if that is unused. -/
theorem openLoop_eq {n minFd : Nat} (inside : i + n ≤ maxFileDesc) {result : Nat ⊕ Nat}
    (done : openLoop fd path (List.range' i n) minFd = .ok result) :
    (∃ m, result = .inl m ∧ Matches fd path m ∧ i ≤ m ∧ m < i + n) ∨
      (∀ m, i ≤ m → m < i + n → ¬Matches fd path m) ∧
        result = .inr (if inUse fd 0 = false ∧ 0 < n ∧ i < minFd then i else minFd) := by
  induction n generalizing i minFd with
  | zero =>
    right
    refine ⟨fun m behind before => absurd before (by omega), ?_⟩
    rw [if_neg (by omega)]
    exact (Checked.pure_eq.mp done).symm
  | succ n inductionHypothesis =>
    have here : i < maxFileDesc := by omega
    rw [List.range'_succ, openLoop] at done
    obtain ⟨same, compared, done⟩ := Checked.bind_eq.mp done
    have matched := samePath_eq here compared
    cases same with
    | true =>
      left
      exact ⟨i, (Checked.pure_eq.mp done).symm, matched.mp rfl, Nat.le_refl i, by omega⟩
    | false =>
      have noMatch : ¬Matches fd path i := fun isSame => Bool.noConfusion (matched.mpr isSame)
      obtain ⟨-, rest⟩ := Checked.check_bind_eq.mp done
      have split : ∀ {next : Nat}, openLoop fd path (List.range' (i + 1) n) next = .ok result →
          (∃ m, result = .inl m ∧ Matches fd path m ∧ i ≤ m ∧ m < i + (n + 1)) ∨
            (∀ m, i ≤ m → m < i + (n + 1) → ¬Matches fd path m) ∧ result =
              .inr (if inUse fd 0 = false ∧ 0 < n ∧ i + 1 < next then i + 1 else next) := by
        intro next later
        rcases inductionHypothesis (by omega) later with ⟨m, found, isSame, behind, before⟩ |
          ⟨none, found⟩
        · exact .inl ⟨m, found, isSame, by omega, by omega⟩
        · refine .inr ⟨fun m behind before => ?_, found⟩
          rcases Nat.eq_or_lt_of_le behind with rfl | after
          · exact noMatch
          · exact none m after (by omega)
      by_cases unused : inUse fd 0 = false
      · rw [unused] at rest
        rcases split rest with found | ⟨none, found⟩
        · exact .inl found
        · refine .inr ⟨none, found.trans (congrArg Sum.inr ?_)⟩
          simp only [unused, true_and]
          split_ifs <;> omega
      · have used : inUse fd 0 = true := by simpa using unused
        rw [used] at rest
        rcases split rest with found | ⟨none, found⟩
        · exact .inl found
        · refine .inr ⟨none, found.trans (congrArg Sum.inr ?_)⟩
          simp [used]

theorem openLoop_ends {n minFd : Nat} (inside : i + n ≤ maxFileDesc)
    (stops : ∀ m, i ≤ m → m < i + n → Stops fd path m)
    (none : ∀ m, i ≤ m → m < i + n → ¬Matches fd path m) :
    ∃ result, openLoop fd path (List.range' i n) minFd = .ok result := by
  induction n generalizing i minFd with
  | zero => exact ⟨_, rfl⟩
  | succ n inductionHypothesis =>
    have here : i < maxFileDesc := by omega
    have rest : ∀ next, ∃ result, openLoop fd path (List.range' (i + 1) n) next = .ok result :=
      fun next => inductionHypothesis (by omega) (fun m after before => stops m (by omega) (by omega))
        fun m after before => none m (by omega) (by omega)
    obtain ⟨same, compared⟩ := samePath_ends here (stops i (Nat.le_refl i) (by omega))
    have other : ¬same = true := fun isSame =>
      none i (Nat.le_refl i) (by omega) ((samePath_eq here compared).mp isSame)
    by_cases unused : (!inUse fd 0) = true
    · obtain ⟨result, done⟩ := rest (if i < minFd then i else minFd)
      refine ⟨result, Checked.bind_eq.mpr ⟨same, compared, ?_⟩⟩
      rw [if_neg other]
      refine Checked.check_bind_eq.mpr ⟨access_zero, ?_⟩
      rw [if_pos unused]
      exact done
    · obtain ⟨result, done⟩ := rest minFd
      refine ⟨result, Checked.bind_eq.mpr ⟨same, compared, ?_⟩⟩
      rw [if_neg other]
      refine Checked.check_bind_eq.mpr ⟨access_zero, ?_⟩
      rw [if_neg unused]
      exact done

end Spared

section Fetch

variable (caller : Caller) (addr : Nat)

/-- One byte that `FetchStruct` copies into `req_path`. -/
def copyByte (out : Bytes) (k : Nat) : Guarded Bytes := do
  let byte ← .lift (caller.userByte (addr + k))
  Checked.check (k < maxPath) Violation.pathBuffer
  pure (Function.update out k byte)

theorem copyBytes_ends (out : Bytes) (n : Nat) :
    (∃ out', (List.range n).foldlM (copyByte caller addr) out = .ok out') ↔
      n ≤ maxPath ∧ ∀ k < n, ∃ byte, caller.userByte (addr + k) = .ok byte := by
  induction n with
  | zero =>
    exact iff_of_true ⟨out, rfl⟩ ⟨Nat.zero_le _, fun k never => absurd never (Nat.not_lt_zero k)⟩
  | succ n inductionHypothesis =>
    simp only [List.range_succ, List.foldlM_append, List.foldlM_cons, List.foldlM_nil, bind_pure,
      Checked.bind_eq, copyByte, Checked.lift_ok, Checked.check_eq, Checked.pure_eq]
    constructor
    · rintro ⟨out', out₁, copied, byte, read, -, inside, -⟩
      obtain ⟨-, readable⟩ := inductionHypothesis.mp ⟨out₁, copied⟩
      refine ⟨inside, fun k before => ?_⟩
      rcases Nat.lt_succ_iff_lt_or_eq.mp before with earlier | rfl
      · exact readable k earlier
      · exact ⟨byte, read⟩
    · rintro ⟨inside, readable⟩
      obtain ⟨out₁, copied⟩ := inductionHypothesis.mpr
        ⟨Nat.le_of_succ_le inside, fun k before => readable k (Nat.lt_succ_of_lt before)⟩
      obtain ⟨byte, read⟩ := readable n (Nat.lt_succ_self n)
      exact ⟨_, out₁, copied, byte, read, (), inside, rfl⟩

theorem meets_copyBytes (out : Bytes) (n : Nat) :
    ((List.range n).foldlM (copyByte caller addr) out).Meets ↔
      ¬(maxPath < n ∧ ∀ k ≤ maxPath, ∃ byte, caller.userByte (addr + k) = .ok byte) := by
  induction n with
  | zero => exact iff_of_true (Checked.meets_pure out) fun both => absurd both.1 (Nat.not_lt_zero _)
  | succ n inductionHypothesis =>
    rw [List.range_succ, List.foldlM_append, Checked.meets_bind, inductionHypothesis]
    simp only [List.foldlM_cons, List.foldlM_nil, bind_pure]
    have ends := copyBytes_ends caller addr out n
    constructor
    · rintro ⟨before, last⟩ ⟨more, readable⟩
      rcases Nat.lt_succ_iff_lt_or_eq.mp more with earlier | rfl
      · exact before ⟨earlier, readable⟩
      · obtain ⟨out', copied⟩ := ends.mpr ⟨Nat.le_refl _, fun k before =>
          readable k (Nat.le_of_lt before)⟩
        obtain ⟨byte, read⟩ := readable maxPath (Nat.le_refl _)
        have rest := (Checked.meets_bind.mp (last out' copied)).2 byte (Checked.lift_ok.mpr read)
        exact Nat.lt_irrefl _ (Checked.meets_check_bind.mp rest).1
    · intro fits
      refine ⟨fun both => fits ⟨Nat.lt_succ_of_lt both.1, both.2⟩, fun out' copied => ?_⟩
      obtain ⟨inside, readable⟩ := ends.mp ⟨out', copied⟩
      unfold copyByte
      refine Checked.meets_bind.mpr ⟨Checked.meets_lift _, fun byte read => ?_⟩
      refine Checked.meets_check_bind.mpr ⟨?_, Checked.meets_pure _⟩
      rcases Nat.eq_or_lt_of_le inside with rfl | below
      · refine absurd ⟨Nat.lt_succ_self _, fun k upTo => ?_⟩ fits
        rcases Nat.lt_or_eq_of_le upTo with earlier | rfl
        · exact readable k earlier
        · exact ⟨byte, Checked.lift_ok.mp read⟩
      · exact below

theorem meets_fetchPath (behind : Bytes) (rdx : Nat) :
    (fetchPath caller behind addr rdx).Meets ↔ ¬caller.Overruns addr (rdx % 2 ^ 32) := by
  unfold fetchPath Caller.fetchStruct Caller.Overruns
  split
  next accepted =>
    rw [and_iff_right accepted]
    exact meets_copyBytes caller addr (reqPath behind) (rdx % 2 ^ 32)
  next refused => exact iff_of_true (Checked.meets_pure _) fun both => refused both.1

theorem meets_fetchFreely (out : Bytes) (size : Nat) :
    (caller.fetchStruct (fun _ => pure ()) out addr size).Meets := by
  unfold Caller.fetchStruct
  split
  next =>
    refine Checked.meets_foldlM (fun out k => ?_) _ _
    refine Checked.meets_bind.mpr ⟨Checked.meets_lift _, fun byte _ => ?_⟩
    exact Checked.meets_pure _
  next => exact Checked.meets_pure out

end Fetch

section Calls

variable (fd : Bytes)

theorem range_maxFileDesc : List.range maxFileDesc = List.range' 0 maxFileDesc :=
  List.range_eq_range'

/-- The first slot has room for every path that ends in the table; slot `UINT32_MAX` is none. -/
theorem meets_openNew (files : Files) (path : Bytes) {minFd : Nat}
    (slot : minFd = if inUse fd 0 = false then 0 else uint32Max) :
    (openNew fd files path minFd).Meets ↔
      ∀ n, stringLength files.fuel path = .ok n → files.exist ((List.range n).map path) = .ok true →
        inUse fd 0 = false ∧ n ≤ room 0 := by
  have writes : ∀ n, (do
      access minFd
      forM (List.range n) (touch minFd)
      pure (writePath fd minFd path n) : Guarded Bytes).Meets ↔
        inUse fd 0 = false ∧ n ≤ room 0 := by
    intro n
    by_cases unused : inUse fd 0 = false
    · rw [if_pos unused] at slot
      subst slot
      have each : (forM (List.range n) (touch 0)).Meets ↔ ∀ k ∈ List.range n,
          0 ≤ ((0 + (1 + k) / slotSize : Nat) : Int) ∧
            ((0 + (1 + k) / slotSize : Nat) : Int) < maxFileDesc := Checked.meets_forM
      have first : (0 : Nat) < maxFileDesc := by decide
      simp only [allowed_iff first] at each
      rw [and_iff_right unused]
      unfold access
      have zero : 0 ≤ ((0 : Nat) : Int) ∧ ((0 : Nat) : Int) < maxFileDesc := by decide
      rw [Checked.meets_check_bind, and_iff_right zero, Checked.meets_bind, each]
      constructor
      · rintro ⟨inside, -⟩
        by_contra more
        exact Nat.lt_irrefl _ (inside (room 0) (List.mem_range.mpr (Nat.lt_of_not_le more)))
      · intro fits
        refine ⟨fun k member => ?_, fun _ _ => Checked.meets_pure _⟩
        exact Nat.lt_of_lt_of_le (List.mem_range.mp member) fits
    · rw [if_neg unused] at slot
      subst slot
      unfold access
      rw [Checked.meets_check_bind]
      refine iff_of_false (fun both => ?_) fun both => unused both.1
      have below := both.1.2
      unfold uint32Max maxFileDesc at below
      omega
  unfold openNew
  rw [Checked.meets_bind]
  constructor
  · rintro ⟨-, later⟩ n length exist
    have rest := (Checked.meets_bind.mp (later n (Checked.lift_ok.mpr length))).2 true
      (Checked.lift_ok.mpr exist)
    exact (writes n).mp rest
  · intro fits
    refine ⟨Checked.meets_lift _, fun n length => ?_⟩
    refine Checked.meets_bind.mpr ⟨Checked.meets_lift _, fun exist answered => ?_⟩
    split
    next found =>
      subst found
      exact (writes n).mpr (fits n (Checked.lift_ok.mp length) (Checked.lift_ok.mp answered))
    next => exact Checked.meets_pure fd

theorem meets_open (caller : Caller) (files : Files) (behind : Bytes) (rsi rdx : Nat) :
    (syshandlerOpen caller files behind rsi rdx fd).Meets ↔
      OpenSpared fd caller files behind rsi rdx := by
  unfold syshandlerOpen
  rw [Checked.meets_bind, meets_fetchPath, range_maxFileDesc]
  have inside : 0 + maxFileDesc ≤ maxFileDesc := Nat.le_of_eq (Nat.zero_add _)
  have slot : ∀ {path minFd}, openLoop fd path (List.range' 0 maxFileDesc) uint32Max =
      .ok (.inr minFd) → (∀ i < maxFileDesc, ¬Matches fd path i) ∧
        minFd = if inUse fd 0 = false then 0 else uint32Max := by
    intro path minFd done
    rcases openLoop_eq inside done with ⟨m, never, -⟩ | ⟨none, same⟩
    · cases never
    · refine ⟨fun i below => none i (Nat.zero_le i) (by omega), ?_⟩
      have positive : 0 < maxFileDesc ∧ 0 < uint32Max := by decide
      simp only [positive, and_true, and_self] at same
      exact Sum.inr.inj same
  constructor
  · rintro ⟨buffer, rest⟩
    have table : ∀ path, fetchPath caller behind rsi rdx = .ok path →
        ∀ i < maxFileDesc, (∀ j < i, ¬Matches fd path j) → Stops fd path i := by
      intro path fetched i below none
      have loop := (Checked.meets_bind.mp (rest path fetched)).1
      exact (meets_openLoop inside).mp loop i (Nat.zero_le i) (by omega)
        fun j _ before => none j before
    refine ⟨buffer, table, fun path fetched none => ?_⟩
    obtain ⟨-, later⟩ := Checked.meets_bind.mp (rest path fetched)
    have ends : ∃ result, openLoop fd path (List.range' 0 maxFileDesc) uint32Max = .ok result :=
      openLoop_ends inside
        (fun m _ before => table path fetched m (by omega) fun j earlier => none j (by omega))
        fun m _ before => none m (by omega)
    obtain ⟨result, done⟩ := ends
    have new := later result done
    cases result with
    | inl m =>
      rcases openLoop_eq inside done with ⟨m', -, found, -, before⟩ | ⟨-, never⟩
      · exact absurd found (none m' (by omega))
      · cases never
    | inr minFd => exact (meets_openNew fd files path (slot done).2).mp new
  · intro spared
    refine ⟨spared.buffer, fun path fetched => ?_⟩
    refine Checked.meets_bind.mpr ⟨?_, fun result done => ?_⟩
    · refine (meets_openLoop inside).mpr fun m _ before none => ?_
      exact spared.table path fetched m (by omega) fun j earlier => none j (Nat.zero_le j) earlier
    · cases result with
      | inl m => exact Checked.meets_pure _
      | inr minFd =>
        obtain ⟨none, same⟩ := slot done
        exact (meets_openNew fd files path same).mpr (spared.slot path fetched none)

theorem access_natCast (i : Nat) : (access i).Meets ↔ i < maxFileDesc := by
  unfold access
  rw [Checked.meets_check]
  omega

theorem meets_usePath (rsi : Nat) : (usePath rsi fd).Meets ↔
    rsi < maxFileDesc ∧ (inUse fd rsi = true → Terminated fd rsi) := by
  unfold usePath
  rw [Checked.meets_bind, access_natCast, and_congr_right_iff]
  intro inside
  have passes : access rsi = .ok () := Checked.check_eq.mpr (by omega)
  have loop : (Checked.scan (touch rsi) (fun k => pathByte fd rsi k == 0) tableFuel 0).Meets ↔
      ∃ k, 0 ≤ k ∧ k < room rsi ∧ (pathByte fd rsi k == 0) = true :=
    Checked.meets_scan (allowed_iff inside) (Nat.zero_le _) (room_lt rsi)
  have terminated : (∃ k, 0 ≤ k ∧ k < room rsi ∧ (pathByte fd rsi k == 0) = true) ↔
      Terminated fd rsi := by
    simp [Terminated]
  cases used : inUse fd rsi with
  | false => simp
  | true =>
    simp only [Bool.not_true, Bool.false_eq_true, ↓reduceIte, forall_const]
    rw [← terminated, ← loop]
    constructor
    · intro rest
      exact (Checked.meets_bind.mp (rest () passes)).1
    · intro meets _ _
      exact Checked.meets_bind.mpr ⟨meets, fun _ _ => Checked.meets_pure fd⟩

theorem asInt_inside (rsi : Nat) :
    0 ≤ asInt rsi ∧ asInt rsi < maxFileDesc ↔ rsi % 2 ^ 32 < maxFileDesc := by
  unfold asInt maxFileDesc
  rw [BitVec.toInt_eq_toNat_cond, BitVec.toNat_ofNat]
  have below : rsi % 2 ^ 32 < 2 ^ 32 := Nat.mod_lt _ (by decide)
  split <;> omega

theorem meets_close (rsi : Nat) : (syshandlerClose rsi fd).Meets ↔ rsi % 2 ^ 32 < maxFileDesc := by
  unfold syshandlerClose access
  rw [Checked.meets_check_bind, asInt_inside]
  exact and_iff_left (Checked.meets_pure _)

theorem meets_exec (caller : Caller) (stack : Bytes) (runs : Bool) (rsi rdx : Nat) :
    (syshandlerExec caller stack runs rsi rdx fd).Meets ↔
      ∀ path args, caller.fetchString rsi maxPath = .ok (some path) →
        caller.fetchStruct (fun _ => pure ()) stack rdx argsSize = .ok args →
          ∀ i < 16, Ends args i := by
  unfold syshandlerExec
  rw [Checked.meets_bind]
  constructor
  · rintro ⟨-, later⟩ path args accepted fetched i inside
    have rest := later (some path) (Checked.lift_ok.mpr accepted)
    have checks := (Checked.meets_bind.mp ((Checked.meets_bind.mp rest).2 args fetched)).1
    exact Checked.meets_forM.mp checks i (List.mem_range.mpr inside)
  · intro ends
    refine ⟨Checked.meets_lift _, fun path accepted => ?_⟩
    cases path with
    | none => exact Checked.meets_pure fd
    | some path =>
      refine Checked.meets_bind.mpr ⟨meets_fetchFreely caller rdx stack argsSize, ?_⟩
      intro args fetched
      refine Checked.meets_bind.mpr ⟨Checked.meets_forM.mpr ?_, fun _ _ => Checked.meets_pure _⟩
      intro i member
      exact ends path args (Checked.lift_ok.mp accepted) fetched i (List.mem_range.mp member)

theorem meets_call (call : Call) : (call.run fd).Meets ↔ call.Spared fd := by
  cases call with
  | open_ caller files behind rsi rdx => exact meets_open fd caller files behind rsi rdx
  | read rsi => exact meets_usePath fd rsi
  | fstat rsi => exact meets_usePath fd rsi
  | close rsi => exact meets_close fd rsi
  | exec caller stack runs rsi rdx => exact meets_exec fd caller stack runs rsi rdx

/-- A process, with any table and any calls, keeps the rules if and only if each of its calls
finds what it needs. -/
theorem arguments_inside_iff (calls : List Call) : (runCalls fd calls).Meets ↔ SparedRun fd calls := by
  unfold runCalls
  induction calls generalizing fd with
  | nil => exact iff_of_true (Checked.meets_pure fd) trivial
  | cons call rest inductionHypothesis =>
    rw [List.foldlM_cons, Checked.meets_bind, meets_call, SparedRun]
    refine and_congr_right fun _ => forall_congr' fun fd' => ?_
    exact imp_congr_right fun _ => inductionHypothesis fd'

end Calls

/-- A process whose table is clear reads from descriptor 16. -/
theorem descriptor_outside : ¬∀ (fd : Bytes) (calls : List Call), (∀ x, fd x = 0) →
    (runCalls fd calls).Meets := by
  intro all
  exact all (fun _ => 0) [.read 16] (fun _ => rfl) (.descriptor 16) rfl

end SwagOS.Kernel.SyscallArguments
