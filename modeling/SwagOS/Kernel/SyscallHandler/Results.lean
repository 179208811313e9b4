import SwagOS.Kernel.Fork
import SwagOS.Kernel.SyscallArguments.Slots
import SwagOS.Kernel.SyscallHandler.Frame

/-!
# What the handlers return

`SYSHANDLER_open`, `SYSHANDLER_read` and `SYSHANDLER_fork` as parts of the handler leave in `rax`
what their models on descriptors, files and processes return.
-/

namespace SwagOS.Kernel.SyscallSite

open SwagOS.Lib SwagOS.Libc SwagOS.Mem SwagOS.Fs
open SyscallArguments (fetchPath stringLength holdsString_stringLength reqPath_eq)

variable {site : SyscallSite} {s s' : SyscallState}

theorem writable_mod (va : Nat) : site.Writable (va % 2 ^ 64) ↔ site.Writable va := by
  rw [Writable, Writable, walk, walk, Nat.mod_mod]

/-- The loop of `SYSHANDLER_read` copies piece after piece, to pages for user code. -/
theorem copyOut_pieces (buf : Bytes) {writeDst toRead numRead : Nat} {copied : Bool}
    (done : site.copyOut writeDst toRead numRead = .ok copied) :
    (copyPieces site.base site.view site.pgdir buf writeDst toRead numRead).1 =
        (if copied then 0 else uint64Max) ∧
      ∀ write ∈ (copyPieces site.base site.view site.pgdir buf writeDst toRead numRead).2,
        site.Writable write.1 := by
  induction remaining : toRead - numRead using Nat.strong_induction_on generalizing numRead with
  | _ left inductionHypothesis =>
    rw [copyOut] at done
    rw [copyPieces]
    split at done
    next more =>
      rw [dif_pos more]
      dsimp only at done ⊢
      split at done
      next =>
        split at done
        next copies =>
          obtain ⟨_, wrote, rest⟩ := Checked.bind_eq.mp done
          have accepted : site.pgdir.fetchStruct site.base site.view
              ((writeDst + numRead) % 2 ^ 64) (rwSize toRead numRead) = true := copies
          rw [if_pos accepted]
          have smaller : toRead - (numRead + rwSize toRead numRead) < left := by
            rw [rwSize]
            split <;> omega
          obtain ⟨rax, later⟩ := inductionHypothesis _ smaller rest rfl
          refine ⟨rax, ?_⟩
          intro write member
          rcases List.mem_append.mp member with here | behind
          · obtain ⟨k, below, rfl⟩ := List.mem_map.mp here
            exact (writable_mod _).mpr (writeUser_eq.mp wrote k (List.mem_range.mp below))
          · exact later write behind
        next refused =>
          cases Checked.pure_eq.mp done
          have refused : ¬site.pgdir.fetchStruct site.base site.view
              ((writeDst + numRead) % 2 ^ 64) (rwSize toRead numRead) = true := refused
          rw [if_neg refused]
          exact ⟨rfl, fun _ never => absurd never List.not_mem_nil⟩
      next => cases done
    next finished =>
      cases Checked.pure_eq.mp done
      rw [dif_neg finished]
      exact ⟨rfl, fun _ never => absurd never List.not_mem_nil⟩

/-- The handler of `read` returns what the model on files returns, and what that has written lies
in pages for user code. -/
theorem syshandlerRead_returns (done : site.syshandlerRead s = .ok s') :
    ∃ result, Kernel.syshandlerRead site.base site.view site.pgdir site.files.fs site.files.mem
        site.files.fuel site.fd s.ctx.rsi s.ctx.rdx s.ctx.rcx s.ctx.r8 = .ok result ∧
      s'.ctx.rax = result.rax ∧ ∀ write ∈ result.written, site.Writable write.1 := by
  unfold syshandlerRead at done
  unfold Kernel.syshandlerRead
  dsimp only at done
  split at done
  next unused =>
    cases Checked.pure_eq.mp done
    rw [if_pos unused]
    exact ⟨_, rfl, rfl, fun _ never => absurd never List.not_mem_nil⟩
  next used =>
    rw [if_neg used]
    obtain ⟨s₁, gone, done⟩ := Checked.bind_eq.mp done
    obtain ⟨cpu, -, rfl⟩ := go_eq.mp gone
    obtain ⟨fileSize, sized, done⟩ := Checked.bind_eq.mp done
    have sized := Checked.lift_ok.mp sized
    split at done
    next missing =>
      cases Checked.pure_eq.mp done
      refine ⟨⟨uint64Max, some .fileReadError, []⟩, Outcome.bind_ok.mpr ⟨_, sized, ?_⟩, rfl,
        fun _ never => absurd never List.not_mem_nil⟩
      rw [if_pos missing]
      rfl
    next found =>
      unfold readContents at done
      dsimp only at done
      obtain ⟨contents, loaded, done⟩ := Checked.bind_eq.mp done
      have loaded := Checked.lift_ok.mp loaded
      cases contents with
      | none =>
        cases Checked.pure_eq.mp done
        refine ⟨⟨uint64Max, some .fileReadError, []⟩, Outcome.bind_ok.mpr ⟨_, sized, ?_⟩, rfl,
          fun _ never => absurd never List.not_mem_nil⟩
        rw [if_neg found]
        exact Outcome.bind_ok.mpr ⟨none, loaded, rfl⟩
      | some buf =>
        obtain ⟨copied, looped, done⟩ := Checked.bind_eq.mp done
        obtain ⟨rax, written⟩ := copyOut_pieces buf looped
        let pieces := copyPieces site.base site.view site.pgdir buf s.ctx.rdx
          (clampCount fileSize s.ctx.rcx s.ctx.r8) 0
        refine ⟨⟨pieces.1, none, pieces.2⟩, Outcome.bind_ok.mpr ⟨_, sized, ?_⟩, ?_, written⟩
        · rw [if_neg found]
          exact Outcome.bind_ok.mpr ⟨some buf, loaded, rfl⟩
        · have rax : pieces.1 = if copied then 0 else uint64Max := rax
          rw [rax]
          cases copied <;> cases Checked.pure_eq.mp done <;> rfl

/-- The handler of `open` returns what the model on descriptors returns for the string that
`FetchStruct` has left in `req_path`. -/
theorem syshandlerOpen_returns (done : site.syshandlerOpen s = .ok s') (beyond : Outcome Unit) :
    ∃ path n result,
      (fetchPath site.caller site.stack s.ctx.rsi s.ctx.rdx) = .ok path ∧
      stringLength site.files.fuel path = .ok n ∧
      Kernel.syshandlerOpen beyond site.fd site.files ((List.range n).map path) = .ok result ∧
      s'.ctx.rax = result.rax := by
  unfold syshandlerOpen at done
  obtain ⟨path, fetched, done⟩ := Checked.bind_eq.mp done
  obtain ⟨s₁, copied, done⟩ := Checked.bind_eq.mp done
  obtain ⟨string, read, done⟩ := Checked.bind_eq.mp done
  obtain ⟨n, length, whole⟩ := Outcome.bind_ok.mp (Checked.lift_ok.mp read)
  cases whole
  have isString := (holdsString_stringLength length).isString
  refine ⟨path, n, ?_⟩
  suffices returns : ∃ result, Kernel.syshandlerOpen beyond site.fd site.files
      ((List.range n).map path) = .ok result ∧ s'.ctx.rax = result.rax by
    obtain ⟨result, returns, rax⟩ := returns
    exact ⟨result, Checked.mapViolation_eq.mp fetched, length, returns, rax⟩
  unfold Kernel.syshandlerOpen
  dsimp only
  rw [reqPath_eq isString]
  unfold openPath at done
  cases found : openLoop site.fd ((List.range n).map path) (List.range maxFileDesc) uint32Max with
  | inl i =>
    rw [found] at done
    cases Checked.pure_eq.mp done
    exact ⟨_, rfl, rfl⟩
  | inr minFd =>
    rw [found] at done
    obtain ⟨s₂, gone, done⟩ := Checked.bind_eq.mp done
    obtain ⟨cpu, -, rfl⟩ := go_eq.mp gone
    obtain ⟨there, asked, done⟩ := Checked.bind_eq.mp done
    have asked := Checked.lift_ok.mp asked
    cases there with
    | false =>
      cases Checked.pure_eq.mp done
      exact ⟨_, Outcome.bind_ok.mpr ⟨false, asked, rfl⟩, rfl⟩
    | true =>
      obtain ⟨inside, done⟩ := Checked.check_bind_eq.mp done
      obtain ⟨-, done⟩ := Checked.check_bind_eq.mp done
      cases Checked.pure_eq.mp done
      let string := (List.range n).map path
      refine ⟨⟨minFd, none, Function.update site.fd minFd ⟨true, string⟩⟩,
        Outcome.bind_ok.mpr ⟨true, asked, ?_⟩, rfl⟩
      refine Outcome.bind_ok.mpr ⟨_, ?_, rfl⟩
      rw [writeSlot, if_pos inside]
      rfl

/-- The handler of `fork` returns the number that `ForkUserProcess` returns, as an `uint64_t`. -/
theorem syshandlerFork_returns {buf ram : Bytes} {pid : Int} {forked : ForkSystem}
    (done : site.syshandlerFork s = .ok s')
    (made : Kernel.forkUserProcess site.layout site.view buf site.thread s.ctx.iRip
      ⟨site.system, ram⟩ = .ok (pid, forked)) :
    s'.ctx.rax = (BitVec.ofInt 64 pid).toNat := by
  obtain ⟨-, isPid⟩ := forkUserProcess_erase made
  unfold syshandlerFork forkUserProcess at done
  obtain ⟨childPid, child, done⟩ := Checked.bind_eq.mp done
  obtain ⟨_, -, child⟩ := Outcome.bind_ok.mp (Checked.lift_ok.mp child)
  obtain ⟨s₁, gone, done⟩ := Checked.bind_eq.mp done
  obtain ⟨cpu, -, rfl⟩ := go_eq.mp gone
  cases Checked.pure_eq.mp done
  rw [isPid, ThreadTable.forkPid, site.owner]
  dsimp only
  cases process : site.system.table.findFreeProcess with
  | none =>
    rw [process] at child
    cases Outcome.pure_ok.mp child
    rfl
  | some p =>
    cases thread : site.system.table.findFreeThread with
    | none =>
      rw [process, thread] at child
      cases Outcome.pure_ok.mp child
      rfl
    | some t =>
      rw [process, thread] at child
      cases Outcome.pure_ok.mp child
      have below : p < maxNumProc := (ThreadTable.findFreeProcess_some process).1
      have fits : p < 2 ^ 64 := Nat.lt_trans below (by decide)
      have number : BitVec.ofInt 64 ((some p).elim (-1) Int.ofNat) = BitVec.ofNat 64 p :=
        BitVec.ofInt_natCast 64 p
      rw [number, BitVec.toNat_ofNat, Nat.mod_eq_of_lt fits]
      rfl

end SwagOS.Kernel.SyscallSite
