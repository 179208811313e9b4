import SwagOS.Kernel.SyscallHandler

/-!
# What a system call leaves

Of the registers of the user only `rax` may change; the thread has its page table again, the
CPU its count of sections, and `noINT` is clear.  The handlers that end the interrupt
themselves do so on some of their ways out only, and `read` changes its copy of `rcx`.
-/

namespace SwagOS.Kernel

open SwagOS.Lib SwagOS.Libc SwagOS.Mem SwagOS.Drivers SwagOS.Fs
open SyscallArguments (Caller fetchPath asInt room stringLength argsSize)

structure SyscallState.FrameKept (entry s : SyscallState) : Prop where
  ctx : s.ctx = { entry.ctx with rax := s.ctx.rax }
  pml4tPhys : s.pml4tPhys = entry.pml4tPhys
  cliCount : s.cpu.cliCount = entry.cpu.cliCount
  noINT : s.cpu.noINT = false

namespace SyscallSite

section Conditions

variable (site : SyscallSite)

def KeepsFrame : Prop := site.number ≠ .exit → site.number ≠ .exec →
  site.syscallHandler.Ensures site.entry.FrameKept

def start : SyscallState :=
  ({ site.entry.cli with pml4tPhys := site.kernelPml4t } : SyscallState).noINTEnable

/-- Behind `apic_end_of_interrupt` the thread can take its way. -/
def WayTaken : Prop := site.way.Taken site.start.apicEndOfInterrupt.cpu

def Writable (va : Nat) : Prop := ∃ t, site.walk va = some t ∧ t.user = true

def Guarded (va : Nat) : Prop := ∀ t, site.walk va = some t → t.user = true

def CopyStays (addr size : Nat) : Prop :=
  ∀ k < size, (∀ j < k, site.Writable (addr + j)) → site.Guarded (addr + k)

/-- The loop of `read` comes past a piece: it can be read, and `WriteStruct` accepts it. -/
def Piece (writeDst toRead i : Nat) : Prop :=
  let size := rwSize toRead (0x200 * i)
  (∀ k < size, site.readable (0x200 * i + k) = true) ∧
    site.copies ((writeDst + 0x200 * i) % 2 ^ 64) size = true

/-- The loop of `read` writes to user pages until it ends. -/
def OutStays (writeDst toRead : Nat) : Prop :=
  ∀ m < toRead, (∀ i ≤ m / 0x200, site.Piece writeDst toRead i) →
    (∀ j < m, site.Writable (writeDst + j)) → site.Guarded (writeDst + m)

def TextFits (given : List Nat) : Prop :=
  ∀ fmt, site.console.source site.context.rsi site.context.rdx = .ok fmt →
    NumbersFit (site.contents.memory site.console.kernelPlace) false
      (vaArgs given site.contents.registers) (fmt.map site.contents.ram)

/-- `req_path` after `FetchStruct`, and the string in it. -/
def Path (string : List UInt8) : Prop :=
  ∃ path, fetchPath site.caller site.stack site.context.rsi site.context.rdx = .ok path ∧
    site.pathString path = .ok string

def NewPath (string : List UInt8) : Prop := ∀ i < maxFileDesc, strcmp string (site.fd i).path ≠ 0

def descriptor : FileDescriptor := site.fd site.context.rsi

def FileSize (size : Nat) : Prop :=
  site.files.fs.pathToFileSize site.files.mem site.files.fuel site.descriptor.path = .ok size

def Inside : SyscallNumber → Prop
  | .tprintf => site.context.rdx ≤ pgSize → site.TextFits [site.context.rcx]
  | .perror => 0 < site.context.rdx ∧ site.context.rdx < 0x1000 → site.TextFits []
  | .open_ =>
      ¬site.caller.Overruns site.context.rsi (site.context.rdx % 2 ^ 32) ∧
        ∀ string, site.Path string → site.NewPath string → site.WayTaken →
          site.files.exist string = .ok true →
            (site.fd 0).inUse = false ∧ string.length ≤ room 0
  | .read =>
      site.descriptor.inUse = true → site.WayTaken →
        ∀ size, site.FileSize size → size ≠ uint64Max →
          (∃ buf, site.files.fs.ext2ReadFile site.files.mem site.files.fuel site.descriptor.path =
            .ok (some buf)) →
              site.OutStays site.context.rdx
                (clampCount size site.context.rcx site.context.r8)
  | .fstat =>
      site.descriptor.inUse = true → site.WayTaken →
        site.files.exist site.descriptor.path = .ok true →
          (∃ inode, site.files.fs.findFileInode site.files.mem site.files.fuel site.descriptor.path =
            .ok (some inode)) → site.garbage ≠ -1 →
              site.copies site.context.rdx statSize = true →
                site.CopyStays site.context.rdx statSize
  | .close => site.context.rsi % 2 ^ 32 < maxFileDesc
  | _ => True

def Balanced : Prop := site.way.Balanced site.cpu.cliCount

/-- Behind `apic_end_of_interrupt`, the last interrupt was not a spurious one. -/
def Settled : Prop := site.Balanced ∧ site.way.Unmasked false

def Ends : SyscallNumber → Prop
  | .sbrk | .free | .fork | .tprintf | .perror => site.Balanced
  | .open_ => (∀ string, site.Path string → site.NewPath string) ∧ site.Settled
  | .read =>
      site.descriptor.inUse = true ∧ site.Settled ∧
        ∀ size, site.FileSize size → size ≠ uint64Max →
          clampCount size site.context.rcx site.context.r8 = site.context.rcx
  | .fstat => site.descriptor.inUse = true ∧ site.Settled
  | .getchar => site.Settled
  -- No interrupt is ended; only a thread that slept has the flag of another CPU.
  | .waitpid =>
      asInt site.context.rsi ≥ maxNumProc ∨ asInt site.context.rsi < 0 ∨
        site.Balanced ∧ site.way.Unmasked true
  | _ => True

def Returns (number : SyscallNumber) : Prop := ∃ s, site.handle site.start number = .ok s

def Spared (number : SyscallNumber) : Prop :=
  site.Inside number ∧ (site.Returns number → site.Ends number)

/-- What a handler has to leave for the end of `syscall_handler`. -/
structure Leaves (number : SyscallNumber) (s : SyscallState) : Prop where
  ctx : s.ctx = { site.context with rax := s.ctx.rax }
  cliCount : s.cpu.cliCount = site.cpu.cliCount
  noINT : number.doEoi = true ∨ s.cpu.noINT = false

end Conditions

variable {site : SyscallSite} {number : SyscallNumber} {s s' : SyscallState} {cpu : CPU}
  {p rax : Nat}

theorem syscallHandler_ensures : site.syscallHandler.Ensures site.entry.FrameKept ↔
    (site.handle site.start site.number).Ensures (site.Leaves site.number) := by
  unfold syscallHandler
  rw [Checked.ensures_bind]
  refine Checked.ensures_congr fun s _ => ?_
  dsimp only
  rw [Checked.ensures_pure]
  cases eoi : site.number.doEoi with
  | true =>
    constructor
    · intro kept
      exact ⟨kept.ctx, kept.cliCount, .inl eoi⟩
    · intro leaves
      exact ⟨leaves.ctx, rfl, leaves.cliCount, rfl⟩
  | false =>
    constructor
    · intro kept
      exact ⟨kept.ctx, kept.cliCount, .inr kept.noINT⟩
    · intro leaves
      have noINT := leaves.noINT
      rw [eoi] at noINT
      exact ⟨leaves.ctx, rfl, leaves.cliCount, noINT.resolve_left Bool.false_ne_true⟩

theorem go_eq : site.go s = .ok s' ↔
    ∃ cpu, s.cpu.follow site.way.events = .ok cpu ∧ { s with cpu := cpu } = s' := by
  unfold go
  rw [Checked.bind_eq]
  simp only [Checked.lift_ok, Checked.pure_eq]

theorem meets_go : (site.go s).Meets :=
  Checked.meets_bind.mpr ⟨Checked.meets_lift _, fun _ _ => Checked.meets_pure _⟩

theorem code_ordered (number : SyscallNumber) : KernelCode.Ordered number.code .outside := by
  cases number with
  | sbrk => exact KernelCode.syshandlerSbrk_ordered
  | tprintf => exact KernelCode.syshandlerTprintf_ordered
  | open_ =>
    exact .seq KernelCode.ext2FileExists_ordered
      (.seq (.choose KernelCode.ext2DirExists_ordered .skip) .skip)
  | read =>
    refine .seq KernelCode.pathToFileSize_ordered (.seq (.choose .skip ?_) .skip)
    exact .seq KernelCode.ext2ReadFile_ordered
      (.choose .skip (.seq (.many userCopy_keeps) KernelCode.free_ordered))
  | fork => exact KernelCode.forkUserProcess_ordered
  | exec => exact KernelCode.execUserProcess_ordered
  | free => exact KernelCode.freeHeapAllocEntry_ordered
  | perror => exact KernelCode.syshandlerPerror_ordered
  | getchar => exact .many KernelCode.retrieveCharacterBuf_ordered
  | waitpid => exact .any fun _ => KernelCode.sleeping_ordered
  | fstat =>
    refine .seq KernelCode.ext2FileExists_ordered
      (.seq (.choose KernelCode.ext2DirExists_ordered .skip) (.seq (.choose .skip ?_) .skip))
    exact .seq KernelCode.ext2FindFileInode_ordered (.choose userCopy_keeps .skip)
  | exit => exact .skip
  | close => exact .skip
  | clear => exact .skip
  | tchangecolor => exact .skip
  | debugvalue => exact .skip
  | none => exact .skip

theorem follow_iff {before : CPU} (count : before.cliCount = site.cpu.cliCount)
    (followed : before.follow site.way.events = .ok cpu) :
    (cpu.cliCount = site.cpu.cliCount ↔ site.Balanced) ∧
      (cpu.noINT = false ↔ site.way.Unmasked before.noINT) := by
  rw [← count, Balanced, ← count]
  exact site.way.follow_eq (code_ordered _) followed

theorem leaves_iff : site.Leaves number ⟨{ site.context with rax := rax }, p, cpu⟩ ↔
    cpu.cliCount = site.cpu.cliCount ∧ (number.doEoi = true ∨ cpu.noINT = false) := by
  constructor
  · intro leaves
    exact ⟨leaves.cliCount, leaves.noINT⟩
  · intro left
    exact ⟨rfl, left.1, left.2⟩

theorem leaves_quiet (eoi : number.doEoi = true)
    (followed : site.start.cpu.follow site.way.events = .ok cpu) :
    site.Leaves number ⟨{ site.context with rax := rax }, p, cpu⟩ ↔ site.Balanced := by
  have count : site.start.cpu.cliCount = site.cpu.cliCount := rfl
  rw [leaves_iff, eoi, (follow_iff count followed).1]
  simp

theorem leaves_settled (eoi : number.doEoi = false) {before : CPU}
    (count : before.cliCount = site.cpu.cliCount) (clear : before.noINT = false)
    (followed : before.follow site.way.events = .ok cpu) :
    site.Leaves number ⟨{ site.context with rax := rax }, p, cpu⟩ ↔ site.Settled := by
  obtain ⟨balanced, unmasked⟩ := follow_iff count followed
  rw [leaves_iff, eoi, balanced, unmasked, clear, Settled]
  simp

theorem writeByte_eq {va : Nat} : site.writeByte va = .ok () ↔ site.Writable va := by
  unfold writeByte Writable
  cases site.walk va with
  | none => simp
  | some t => simp

theorem meets_writeByte {va : Nat} : (site.writeByte va).Meets ↔ site.Guarded va := by
  unfold writeByte Guarded
  cases site.walk va with
  | none => simp
  | some t => simp

theorem meets_writeUser {addr size : Nat} :
    (site.writeUser addr size).Meets ↔ site.CopyStays addr size := by
  unfold writeUser CopyStays
  rw [Checked.meets_forM_range]
  simp only [writeByte_eq, meets_writeByte]

theorem writeUser_eq {addr size : Nat} :
    site.writeUser addr size = .ok () ↔ ∀ k < size, site.Writable (addr + k) := by
  unfold writeUser
  rw [Checked.forM_eq]
  simp only [writeByte_eq, List.mem_range]

theorem meets_copyOut {writeDst toRead numRead j : Nat} (start : numRead = min (0x200 * j) toRead) :
    (site.copyOut writeDst toRead numRead).Meets ↔
      ∀ m, numRead ≤ m → m < toRead → (∀ i, j ≤ i → i ≤ m / 0x200 → site.Piece writeDst toRead i) →
        (∀ k, numRead ≤ k → k < m → site.Writable (writeDst + k)) →
          site.Guarded (writeDst + m) := by
  induction remaining : toRead - numRead using Nat.strong_induction_on generalizing numRead j with
  | _ left inductionHypothesis =>
    rw [copyOut]
    split
    next more =>
      have here : numRead = 0x200 * j := by omega
      have size : 0 < rwSize toRead numRead ∧
          numRead + rwSize toRead numRead = min (0x200 * (j + 1)) toRead := by
        rw [rwSize]
        split <;> omega
      have readable : ((List.range (rwSize toRead numRead)).all
          fun k => site.readable (numRead + k)) = true ↔
            ∀ k < rwSize toRead numRead, site.readable (numRead + k) = true := by
        simp [List.all_eq_true]
      dsimp only
      by_cases piece : site.Piece writeDst toRead j
      · obtain ⟨read, copies⟩ := piece
        rw [← here] at read copies
        rw [if_pos (readable.mpr read), if_pos copies, Checked.meets_bind, meets_writeUser]
        have next := inductionHypothesis _ (by omega) size.2 rfl
        simp only [next, CopyStays, Nat.add_assoc]
        constructor
        · rintro ⟨first, later⟩ m behind below pieces written
          by_cases inside : m < numRead + rwSize toRead numRead
          · have position : writeDst + m = writeDst + (numRead + (m - numRead)) := by omega
            rw [position]
            refine first _ (by omega) fun k before => ?_
            exact written (numRead + k) (by omega) (by omega)
          · have done : site.writeUser (writeDst + numRead) (rwSize toRead numRead) = .ok () := by
              refine writeUser_eq.mpr fun k before => ?_
              rw [Nat.add_assoc]
              exact written (numRead + k) (by omega) (by omega)
            refine later () done m (by omega) below (fun i after => pieces i (by omega)) ?_
            exact fun k after => written k (by omega)
        · intro all
          refine ⟨fun k below before => ?_, fun _ done m behind below pieces written => ?_⟩
          · refine all (numRead + k) (by omega) (by omega) ?_ ?_
            · intro i first last
              obtain rfl : i = j := by omega
              exact ⟨here ▸ read, here ▸ copies⟩
            · intro l after earlier
              have position : writeDst + l = writeDst + (numRead + (l - numRead)) := by omega
              rw [position]
              exact before _ (by omega)
          · refine all m (by omega) below ?_ ?_
            · intro i first last
              by_cases same : i = j
              · rw [same]
                exact ⟨here ▸ read, here ▸ copies⟩
              · exact pieces i (by omega) last
            · intro l after earlier
              by_cases inside : l < numRead + rwSize toRead numRead
              · have position : writeDst + l = writeDst + numRead + (l - numRead) := by omega
                rw [position]
                exact writeUser_eq.mp done _ (by omega)
              · exact written l (by omega) earlier
      · have ends : (∀ m, numRead ≤ m → m < toRead →
            (∀ i, j ≤ i → i ≤ m / 0x200 → site.Piece writeDst toRead i) →
              (∀ k, numRead ≤ k → k < m → site.Writable (writeDst + k)) →
                site.Guarded (writeDst + m)) := by
          intro m behind below pieces written
          exact absurd (pieces j (Nat.le_refl j) (by omega)) piece
        refine iff_of_true ?_ ends
        split
        next read =>
          rw [if_neg]
          · exact Checked.meets_pure false
          · intro copies
            exact piece ⟨here ▸ readable.mp read, here ▸ copies⟩
        next => exact Checked.meets_halt _
    next done =>
      refine iff_of_true (Checked.meets_pure true) fun m behind below => ?_
      omega

theorem meets_copyOut_start {writeDst toRead : Nat} :
    (site.copyOut writeDst toRead 0).Meets ↔ site.OutStays writeDst toRead := by
  have start : 0 = min (0x200 * 0) toRead := by omega
  rw [meets_copyOut start, OutStays]
  simp only [Nat.zero_le, forall_const]

theorem meets_printed {output : Output UInt8} :
    (site.printed output s).Meets ↔ output.strayed = false := by
  unfold printed
  rw [Checked.meets_check_bind]
  refine and_iff_left ?_
  split
  next => exact Checked.meets_halt _
  next => exact meets_go

theorem printed_eq {output : Output UInt8} (done : site.printed output s = .ok s') :
    ∃ cpu, s.cpu.follow site.way.events = .ok cpu ∧ { s with cpu := cpu } = s' := by
  unfold printed at done
  obtain ⟨-, done⟩ := Checked.check_bind_eq.mp done
  split at done
  next => cases done
  next => exact go_eq.mp done

theorem printUser_strayed {given : List Nat} :
    (site.console.printUser site.context.rsi site.context.rdx given).strayed = false ↔
      site.TextFits given := by
  unfold Console.printUser TextFits
  cases site.console.source site.context.rsi site.context.rdx with
  | error why => exact iff_of_true rfl fun fmt never => by cases never
  | ok fmt =>
    constructor
    · rintro inside _ ⟨⟩
      exact printf_strayed_iff.mp inside
    · intro fits
      exact printf_strayed_iff.mpr (fits fmt rfl)

theorem meets_tprintf : (site.syshandlerTprintf site.start).Meets ↔ site.Inside .tprintf := by
  unfold syshandlerTprintf
  dsimp only
  rw [meets_printed]
  change (site.console.syshandlerTprintf site.context).1.strayed = false ↔ _
  unfold Console.syshandlerTprintf
  split
  next long => exact iff_of_true rfl fun short => absurd long (Nat.not_lt_of_le short)
  next short =>
    rw [printUser_strayed]
    exact ⟨fun fits _ => fits, fun fits => fits (Nat.le_of_not_lt short)⟩

theorem meets_perror : (site.syshandlerPerror site.start).Meets ↔ site.Inside .perror := by
  unfold syshandlerPerror
  rw [meets_printed]
  change (site.console.syshandlerPerror site.context).strayed = false ↔ _
  unfold Console.syshandlerPerror
  dsimp only
  rw [Console.printError_eq, Output.seq_put_strayed]
  split
  next prints =>
    rw [printUser_strayed]
    exact ⟨fun fits _ => fits, fun fits => fits prints⟩
  next silent => exact iff_of_true rfl fun prints => absurd prints silent

theorem leaves_sbrk (done : site.syshandlerSbrk site.start = .ok s) :
    site.Leaves .sbrk s ↔ site.Ends .sbrk := by
  unfold syshandlerSbrk at done
  obtain ⟨⟨found, space⟩, -, done⟩ := Checked.bind_eq.mp done
  obtain ⟨between, gone, done⟩ := Checked.bind_eq.mp done
  obtain ⟨cpu, followed, rfl⟩ := go_eq.mp gone
  obtain rfl := Checked.pure_eq.mp done
  exact leaves_quiet rfl followed

theorem leaves_free (done : site.syshandlerFree site.start = .ok s) :
    site.Leaves .free s ↔ site.Ends .free := by
  unfold syshandlerFree at done
  obtain ⟨space, -, gone⟩ := Checked.bind_eq.mp done
  obtain ⟨cpu, followed, rfl⟩ := go_eq.mp gone
  exact leaves_quiet rfl followed

theorem leaves_fork (done : site.syshandlerFork site.start = .ok s) :
    site.Leaves .fork s ↔ site.Ends .fork := by
  unfold syshandlerFork at done
  obtain ⟨childPid, -, done⟩ := Checked.bind_eq.mp done
  obtain ⟨between, gone, done⟩ := Checked.bind_eq.mp done
  obtain ⟨cpu, followed, rfl⟩ := go_eq.mp gone
  obtain rfl := Checked.pure_eq.mp done
  exact leaves_quiet rfl followed

theorem leaves_tprintf (done : site.syshandlerTprintf site.start = .ok s) :
    site.Leaves .tprintf s ↔ site.Ends .tprintf := by
  unfold syshandlerTprintf at done
  dsimp only at done
  obtain ⟨cpu, followed, rfl⟩ := printed_eq done
  have ctx : ∃ rax, (site.console.syshandlerTprintf site.start.ctx).2 =
      { site.context with rax := rax } := by
    unfold Console.syshandlerTprintf
    split <;> exact ⟨_, rfl⟩
  obtain ⟨rax, same⟩ := ctx
  rw [same]
  exact leaves_quiet rfl followed

theorem leaves_perror (done : site.syshandlerPerror site.start = .ok s) :
    site.Leaves .perror s ↔ site.Ends .perror := by
  unfold syshandlerPerror at done
  obtain ⟨cpu, followed, rfl⟩ := printed_eq done
  exact leaves_quiet rfl followed

theorem not_leaves (eoi : number.doEoi = false) : ¬site.Leaves number (site.start.setRax rax) := by
  intro leaves
  rcases leaves.noINT with never | never
  · cases eoi.symm.trans never
  · cases never

theorem leaves_awake (eoi : number.doEoi = false)
    (gone : site.go site.start.apicEndOfInterrupt = .ok s) :
    site.Leaves number (s.setRax rax) ↔ site.Settled := by
  obtain ⟨cpu, followed, rfl⟩ := go_eq.mp gone
  have count : site.start.apicEndOfInterrupt.cpu.cliCount = site.cpu.cliCount := rfl
  have clear : site.start.apicEndOfInterrupt.cpu.noINT = false := rfl
  exact leaves_settled eoi count clear followed

theorem go_taken (taken : site.WayTaken) :
    ∃ s, site.go site.start.apicEndOfInterrupt = .ok s := by
  obtain ⟨cpu, followed⟩ := taken
  exact ⟨_, go_eq.mpr ⟨cpu, followed, rfl⟩⟩

theorem taken_of_go (gone : site.go site.start.apicEndOfInterrupt = .ok s) : site.WayTaken := by
  obtain ⟨cpu, followed, -⟩ := go_eq.mp gone
  exact ⟨cpu, followed⟩

theorem copySection_start (copies : Bool) : site.start.copySection copies = .ok site.start := by
  cases copies with
  | false => rfl
  | true => simp [SyscallState.copySection, CPU.decCli, CPU.incCli, CPU.cli, start, entry,
      SyscallState.noINTEnable, SyscallState.cli, pure, Except.pure, bind, Except.bind]

section Open

variable {string : List UInt8}

theorem meets_openPath : (site.openPath string site.start).Meets ↔
    (site.NewPath string → site.WayTaken → site.files.exist string = .ok true →
      (site.fd 0).inUse = false ∧ string.length ≤ room 0) := by
  unfold openPath
  by_cases new : site.NewPath string
  · rw [openLoop_new new, forall_prop_of_true new]
    dsimp only
    rw [Checked.meets_bind, and_iff_right meets_go]
    have slot : ∀ s : SyscallState, (do
        .check ((if (site.fd 0).inUse = false then 0 else uint32Max) < maxFileDesc)
          (.descriptor (if (site.fd 0).inUse = false then 0 else uint32Max : Nat))
        .check (string.length ≤ room (if (site.fd 0).inUse = false then 0 else uint32Max))
          .descriptorPath
        pure (s.setRax (if (site.fd 0).inUse = false then 0 else uint32Max)) : Handled).Meets ↔
          (site.fd 0).inUse = false ∧ string.length ≤ room 0 := by
      intro s
      rw [Checked.meets_check_bind, Checked.meets_check_bind]
      by_cases unused : (site.fd 0).inUse = false
      · have first : 0 < maxFileDesc := by decide
        simp [unused, first]
      · have last : ¬uint32Max < maxFileDesc := by decide
        simp [unused, last]
    constructor
    · intro rest taken exists_
      obtain ⟨s, gone⟩ := go_taken taken
      have found := (Checked.meets_bind.mp (rest s gone)).2 true (Checked.lift_ok.mpr exists_)
      exact (slot s).mp found
    · intro fits s gone
      refine Checked.meets_bind.mpr ⟨Checked.meets_lift _, fun exists_ answered => ?_⟩
      split
      next found =>
        subst found
        exact (slot s).mpr (fits (taken_of_go gone) (Checked.lift_ok.mp answered))
      next => exact Checked.meets_pure _
  · refine iff_of_true ?_ fun never => absurd never new
    unfold NewPath at new
    push Not at new
    obtain ⟨i, inside, same⟩ := new
    obtain ⟨j, found⟩ := openLoop_old inside same
    rw [found]
    exact Checked.meets_pure _

theorem leaves_openPath (done : site.openPath string site.start = .ok s) :
    site.Leaves .open_ s ↔ site.NewPath string ∧ site.Settled := by
  unfold openPath at done
  by_cases new : site.NewPath string
  · rw [openLoop_new new] at done
    rw [and_iff_right new]
    obtain ⟨awake, gone, done⟩ := Checked.bind_eq.mp done
    obtain ⟨exists_, -, done⟩ := Checked.bind_eq.mp done
    split at done
    · obtain ⟨-, done⟩ := Checked.check_bind_eq.mp done
      obtain ⟨-, done⟩ := Checked.check_bind_eq.mp done
      obtain rfl := Checked.pure_eq.mp done
      exact leaves_awake rfl gone
    · obtain rfl := Checked.pure_eq.mp done
      exact leaves_awake rfl gone
  · refine iff_of_false ?_ fun both => new both.1
    unfold NewPath at new
    push Not at new
    obtain ⟨i, inside, same⟩ := new
    obtain ⟨j, found⟩ := openLoop_old inside same
    rw [found] at done
    obtain rfl := Checked.pure_eq.mp done
    exact not_leaves rfl

theorem meets_open : (site.syshandlerOpen site.start).Meets ↔ site.Inside .open_ := by
  unfold syshandlerOpen
  rw [Checked.meets_bind, Checked.meets_mapViolation]
  refine and_congr (SyscallArguments.meets_fetchPath _ _ _ _) ?_
  have steps : ∀ path, (do
      let s ← .lift (site.start.copySection
        (site.copies site.start.ctx.rsi (site.start.ctx.rdx % 2 ^ 32)))
      let path ← .lift (site.pathString path)
      site.openPath path s : Handled).Meets ↔
        ∀ string, site.pathString path = .ok string →
          (site.openPath string site.start).Meets := by
    intro path
    rw [copySection_start]
    constructor
    · intro meets string found
      have rest := (Checked.meets_bind.mp meets).2 site.start rfl
      exact (Checked.meets_bind.mp rest).2 string (Checked.lift_ok.mpr found)
    · intro each
      refine Checked.meets_bind.mpr ⟨Checked.meets_lift _, ?_⟩
      rintro _ ⟨⟩
      refine Checked.meets_bind.mpr ⟨Checked.meets_lift _, fun string found => ?_⟩
      exact each string (Checked.lift_ok.mp found)
  constructor
  · rintro rest string ⟨path, fetched, found⟩
    have meets := (steps path).mp (rest path (Checked.mapViolation_eq.mpr fetched)) string found
    exact meets_openPath.mp meets
  · intro rest path fetched
    refine (steps path).mpr fun string found => meets_openPath.mpr ?_
    exact rest string ⟨path, Checked.mapViolation_eq.mp fetched, found⟩

theorem leaves_open (done : site.syshandlerOpen site.start = .ok s) :
    site.Leaves .open_ s ↔ site.Ends .open_ := by
  unfold syshandlerOpen at done
  obtain ⟨path, fetched, done⟩ := Checked.bind_eq.mp done
  obtain ⟨between, section_, done⟩ := Checked.bind_eq.mp done
  rw [copySection_start] at section_
  obtain rfl := Except.ok.inj section_
  obtain ⟨string, found, done⟩ := Checked.bind_eq.mp done
  rw [leaves_openPath done]
  have fetched := Checked.mapViolation_eq.mp fetched
  have found := Checked.lift_ok.mp found
  refine and_congr_left fun _ => ?_
  constructor
  · rintro new other ⟨path', fetched', found'⟩
    cases fetched.symm.trans fetched'
    cases found.symm.trans found'
    exact new
  · intro all
    exact all string ⟨path, fetched, found⟩

end Open

section Read

theorem descriptor_eq : site.fd site.start.ctx.rsi = site.descriptor := rfl

theorem meets_readContents {size : Nat}
    (gone : site.go site.start.apicEndOfInterrupt = .ok s) :
    (site.readContents size s).Meets ↔
      ((∃ buf, site.files.fs.ext2ReadFile site.files.mem site.files.fuel site.descriptor.path =
        .ok (some buf)) →
          site.OutStays site.context.rdx (clampCount size site.context.rcx site.context.r8)) := by
  obtain ⟨cpu, -, rfl⟩ := go_eq.mp gone
  unfold readContents
  dsimp only
  rw [Checked.meets_bind, and_iff_right (Checked.meets_lift _)]
  have piece : ∀ s : SyscallState, (do
      if ← site.copyOut site.context.rdx (clampCount size site.context.rcx site.context.r8) 0 then
        pure (s.setRax 0)
      else pure (s.setRax uint64Max) : Handled).Meets ↔
        site.OutStays site.context.rdx (clampCount size site.context.rcx site.context.r8) := by
    intro s
    rw [Checked.meets_bind, meets_copyOut_start]
    refine and_iff_left fun copied _ => ?_
    cases copied <;> exact Checked.meets_pure _
  constructor
  · rintro rest ⟨buf, read⟩
    exact (piece _).mp (rest (some buf) (Checked.lift_ok.mpr read))
  · intro stays contents read
    cases contents with
    | none => exact Checked.meets_pure _
    | some buf => exact (piece _).mpr (stays ⟨buf, Checked.lift_ok.mp read⟩)

theorem meets_read : (site.syshandlerRead site.start).Meets ↔ site.Inside .read := by
  unfold syshandlerRead
  dsimp only
  rw [descriptor_eq]
  split
  next unused =>
    refine iff_of_true (Checked.meets_pure _) fun used => ?_
    cases unused.symm.trans used
  next used =>
    have inUse : site.descriptor.inUse = true := Bool.eq_true_of_not_eq_false used
    rw [Checked.meets_bind, and_iff_right meets_go]
    constructor
    · intro rest _ taken size sized notLast
      obtain ⟨s, gone⟩ := go_taken taken
      have later := (Checked.meets_bind.mp (rest s gone)).2 size (Checked.lift_ok.mpr sized)
      rw [if_neg notLast] at later
      exact (meets_readContents gone).mp later
    · intro inside s gone
      refine Checked.meets_bind.mpr ⟨Checked.meets_lift _, fun size sized => ?_⟩
      split
      next => exact Checked.meets_pure _
      next notLast =>
        refine (meets_readContents gone).mpr ?_
        exact inside inUse (taken_of_go gone) size (Checked.lift_ok.mp sized) notLast

theorem leaves_readContents {size : Nat} {between : SyscallState}
    (gone : site.go site.start.apicEndOfInterrupt = .ok between)
    (done : site.readContents size between = .ok s) : site.Leaves .read s ↔
      site.Settled ∧ clampCount size site.context.rcx site.context.r8 = site.context.rcx := by
  obtain ⟨cpu, followed, rfl⟩ := go_eq.mp gone
  have ends : ∃ rax, s = ⟨{ site.context with
      rcx := clampCount size site.context.rcx site.context.r8, rax := rax },
      site.kernelPml4t, cpu⟩ := by
    unfold readContents at done
    obtain ⟨contents, -, done⟩ := Checked.bind_eq.mp done
    cases contents with
    | none => exact ⟨_, (Checked.pure_eq.mp done).symm⟩
    | some buf =>
      obtain ⟨copied, -, done⟩ := Checked.bind_eq.mp done
      cases copied with
      | true => exact ⟨_, (Checked.pure_eq.mp done).symm⟩
      | false => exact ⟨_, (Checked.pure_eq.mp done).symm⟩
  obtain ⟨rax, rfl⟩ := ends
  have settled : site.Leaves .read ⟨{ site.context with rax := rax }, site.kernelPml4t, cpu⟩ ↔
      site.Settled := leaves_awake rfl gone
  rw [← settled]
  constructor
  · intro leaves
    refine ⟨⟨rfl, leaves.cliCount, leaves.noINT⟩, ?_⟩
    exact congrArg CpuContext.rcx leaves.ctx
  · rintro ⟨leaves, same⟩
    refine ⟨?_, leaves.cliCount, leaves.noINT⟩
    rw [same]

theorem leaves_read (done : site.syshandlerRead site.start = .ok s) :
    site.Leaves .read s ↔ site.Ends .read := by
  unfold syshandlerRead at done
  dsimp only at done
  rw [descriptor_eq] at done
  split at done
  next unused =>
    obtain rfl := Checked.pure_eq.mp done
    refine iff_of_false (not_leaves rfl) fun ends => ?_
    cases unused.symm.trans ends.1
  next used =>
    have inUse : site.descriptor.inUse = true := Bool.eq_true_of_not_eq_false used
    obtain ⟨between, gone, done⟩ := Checked.bind_eq.mp done
    obtain ⟨size, sized, done⟩ := Checked.bind_eq.mp done
    have sized : site.FileSize size := Checked.lift_ok.mp sized
    change _ ↔ _ ∧ _ ∧ _
    rw [and_iff_right inUse]
    split at done
    next last =>
      obtain rfl := Checked.pure_eq.mp done
      rw [leaves_awake rfl gone]
      refine (and_iff_left fun other same notLast => ?_).symm
      cases sized.symm.trans same
      exact absurd last notLast
    next notLast =>
      rw [leaves_readContents gone done]
      refine and_congr_right fun _ => ?_
      constructor
      · rintro unclamped other same -
        cases sized.symm.trans same
        exact unclamped
      · intro all
        exact all size sized notLast

end Read

section Fstat

theorem meets_writeStat (gone : site.go site.start.apicEndOfInterrupt = .ok s) :
    (site.writeStat site.descriptor.path s).Meets ↔
      ((∃ inode, site.files.fs.findFileInode site.files.mem site.files.fuel site.descriptor.path =
        .ok (some inode)) → site.garbage ≠ -1 → site.copies site.context.rdx statSize = true →
          site.CopyStays site.context.rdx statSize) := by
  obtain ⟨cpu, -, rfl⟩ := go_eq.mp gone
  unfold writeStat
  rw [Checked.meets_bind, and_iff_right (Checked.meets_lift _)]
  have found : ∀ s : SyscallState, (if site.garbage = -1 then pure (s.setRax uint64Max)
      else if site.copies site.context.rdx statSize then do
        site.writeUser site.context.rdx statSize
        pure (s.setRax 0)
      else pure (s.setRax uint64Max) : Handled).Meets ↔
        (site.garbage ≠ -1 → site.copies site.context.rdx statSize = true →
          site.CopyStays site.context.rdx statSize) := by
    intro s
    split
    next bad => exact iff_of_true (Checked.meets_pure _) fun good => absurd bad good
    next good =>
      rw [forall_prop_of_true good]
      split
      next copies =>
        rw [Checked.meets_bind, meets_writeUser, forall_prop_of_true copies]
        exact and_iff_left fun _ _ => Checked.meets_pure _
      next refused => exact iff_of_true (Checked.meets_pure _) fun copies => absurd copies refused
  constructor
  · rintro rest ⟨inode, here⟩
    exact (found _).mp (rest (some inode) (Checked.lift_ok.mpr here))
  · intro stays inode here
    cases inode with
    | none => exact Checked.meets_pure _
    | some inode => exact (found _).mpr (stays ⟨inode, Checked.lift_ok.mp here⟩)

theorem meets_fstat : (site.syshandlerFstat site.start).Meets ↔ site.Inside .fstat := by
  unfold syshandlerFstat
  dsimp only
  rw [descriptor_eq]
  split
  next unused =>
    refine iff_of_true (Checked.meets_pure _) fun used => ?_
    cases unused.symm.trans used
  next used =>
    have inUse : site.descriptor.inUse = true := Bool.eq_true_of_not_eq_false used
    rw [Checked.meets_bind, and_iff_right meets_go]
    constructor
    · intro rest _ taken exists_
      obtain ⟨s, gone⟩ := go_taken taken
      have later := (Checked.meets_bind.mp (rest s gone)).2 true (Checked.lift_ok.mpr exists_)
      exact (meets_writeStat gone).mp later
    · intro inside s gone
      refine Checked.meets_bind.mpr ⟨Checked.meets_lift _, fun exists_ answered => ?_⟩
      cases exists_ with
      | false => exact Checked.meets_pure _
      | true =>
        refine (meets_writeStat gone).mpr ?_
        exact inside inUse (taken_of_go gone) (Checked.lift_ok.mp answered)

theorem leaves_writeStat {between : SyscallState} {path : List UInt8}
    (gone : site.go site.start.apicEndOfInterrupt = .ok between)
    (done : site.writeStat path between = .ok s) : site.Leaves .fstat s ↔ site.Settled := by
  unfold writeStat at done
  obtain ⟨inode, -, done⟩ := Checked.bind_eq.mp done
  cases inode with
  | none =>
    obtain rfl := Checked.pure_eq.mp done
    exact leaves_awake rfl gone
  | some inode =>
    dsimp only at done
    split at done
    · obtain rfl := Checked.pure_eq.mp done
      exact leaves_awake rfl gone
    split at done
    · obtain ⟨_, -, done⟩ := Checked.bind_eq.mp done
      obtain rfl := Checked.pure_eq.mp done
      exact leaves_awake rfl gone
    · obtain rfl := Checked.pure_eq.mp done
      exact leaves_awake rfl gone

theorem leaves_fstat (done : site.syshandlerFstat site.start = .ok s) :
    site.Leaves .fstat s ↔ site.Ends .fstat := by
  unfold syshandlerFstat at done
  dsimp only at done
  rw [descriptor_eq] at done
  split at done
  next unused =>
    obtain rfl := Checked.pure_eq.mp done
    refine iff_of_false (not_leaves rfl) fun ends => ?_
    cases unused.symm.trans ends.1
  next used =>
    have inUse : site.descriptor.inUse = true := Bool.eq_true_of_not_eq_false used
    obtain ⟨between, gone, done⟩ := Checked.bind_eq.mp done
    obtain ⟨exists_, -, done⟩ := Checked.bind_eq.mp done
    change _ ↔ _ ∧ _
    rw [and_iff_right inUse]
    cases exists_ with
    | true => exact leaves_writeStat gone done
    | false =>
      obtain rfl := Checked.pure_eq.mp done
      exact leaves_awake rfl gone

end Fstat

theorem leaves_getchar (done : site.syshandlerGetchar site.start = .ok s) :
    site.Leaves .getchar s ↔ site.Ends .getchar := by
  unfold syshandlerGetchar at done
  obtain ⟨between, gone, done⟩ := Checked.bind_eq.mp done
  obtain ⟨cpu, followed, rfl⟩ := go_eq.mp gone
  obtain rfl := Checked.pure_eq.mp done
  have count : site.start.apicEndOfInterrupt.sti.cpu.cliCount = site.cpu.cliCount := rfl
  have clear : site.start.apicEndOfInterrupt.sti.cpu.noINT = false := rfl
  exact leaves_settled rfl count clear followed

theorem leaves_waitpid (done : site.syshandlerWaitpid site.start = .ok s) :
    site.Leaves .waitpid s ↔ site.Ends .waitpid := by
  unfold syshandlerWaitpid at done
  dsimp only at done
  split at done
  next outside =>
    obtain rfl := Checked.pure_eq.mp done
    refine iff_of_true ⟨rfl, rfl, .inr rfl⟩ ?_
    rcases outside with above | below
    · exact .inl above
    · exact .inr (.inl below)
  next inside =>
    obtain ⟨cpu, followed, rfl⟩ := go_eq.mp done
    have count : site.start.cpu.cliCount = site.cpu.cliCount := rfl
    obtain ⟨balanced, unmasked⟩ := follow_iff count followed
    have ends : site.Leaves .waitpid ⟨site.context, site.kernelPml4t, cpu⟩ ↔
        site.Balanced ∧ site.way.Unmasked true := by
      have left : site.Leaves .waitpid
          ⟨{ site.context with rax := site.context.rax }, site.kernelPml4t, cpu⟩ ↔
            cpu.cliCount = site.cpu.cliCount ∧
              (SyscallNumber.waitpid.doEoi = true ∨ cpu.noINT = false) := leaves_iff
      refine left.trans ?_
      rw [balanced, unmasked]
      exact and_congr_right fun _ => or_iff_right Bool.false_ne_true
    refine ends.trans ?_
    constructor
    · exact fun both => .inr (.inr both)
    · rintro (above | below | both)
      · exact absurd (.inl above) inside
      · exact absurd (.inr below) inside
      · exact both

theorem meets_close : site.start.syshandlerClose.Meets ↔ site.Inside .close := by
  unfold SyscallState.syshandlerClose
  rw [Checked.meets_check_bind, SyscallArguments.asInt_inside]
  exact and_iff_left (Checked.meets_pure _)

theorem leaves_close (done : site.start.syshandlerClose = .ok s) : site.Leaves .close s := by
  unfold SyscallState.syshandlerClose at done
  obtain ⟨-, done⟩ := Checked.check_bind_eq.mp done
  obtain rfl := Checked.pure_eq.mp done
  exact ⟨rfl, rfl, .inl rfl⟩

theorem meets_handle (number : SyscallNumber) (notExec : number ≠ .exec) :
    (site.handle site.start number).Meets ↔ site.Inside number := by
  cases number with
  | sbrk =>
    refine iff_of_true (Checked.meets_bind.mpr ⟨Checked.meets_lift _, fun found _ => ?_⟩) trivial
    exact Checked.meets_bind.mpr ⟨meets_go, fun _ _ => Checked.meets_pure _⟩
  | free =>
    exact iff_of_true (Checked.meets_bind.mpr ⟨Checked.meets_lift _, fun _ _ => meets_go⟩) trivial
  | fork =>
    refine iff_of_true (Checked.meets_bind.mpr ⟨Checked.meets_lift _, fun _ _ => ?_⟩) trivial
    exact Checked.meets_bind.mpr ⟨meets_go, fun _ _ => Checked.meets_pure _⟩
  | tprintf => exact meets_tprintf
  | perror => exact meets_perror
  | open_ => exact meets_open
  | read => exact meets_read
  | fstat => exact meets_fstat
  | close => exact meets_close
  | getchar =>
    refine iff_of_true (Checked.meets_bind.mpr ⟨meets_go, fun _ _ => ?_⟩) trivial
    exact Checked.meets_pure _
  | waitpid =>
    refine iff_of_true ?_ trivial
    change (site.syshandlerWaitpid site.start).Meets
    unfold syshandlerWaitpid
    dsimp only
    split
    next => exact Checked.meets_pure _
    next => exact meets_go
  | exec => exact absurd rfl notExec
  | exit => exact iff_of_true (Checked.meets_halt _) trivial
  | clear => exact iff_of_true (Checked.meets_pure _) trivial
  | tchangecolor => exact iff_of_true (Checked.meets_pure _) trivial
  | debugvalue => exact iff_of_true (Checked.meets_pure _) trivial
  | none => exact iff_of_true (Checked.meets_pure _) trivial

theorem leaves_handle (notExec : number ≠ .exec) (done : site.handle site.start number = .ok s) :
    site.Leaves number s ↔ site.Ends number := by
  cases number with
  | sbrk => exact leaves_sbrk done
  | free => exact leaves_free done
  | fork => exact leaves_fork done
  | tprintf => exact leaves_tprintf done
  | perror => exact leaves_perror done
  | open_ => exact leaves_open done
  | read => exact leaves_read done
  | fstat => exact leaves_fstat done
  | close => exact iff_of_true (leaves_close done) trivial
  | getchar => exact leaves_getchar done
  | waitpid => exact leaves_waitpid done
  | exec => exact absurd rfl notExec
  | exit => cases done
  | _ =>
    obtain rfl := Checked.pure_eq.mp done
    exact iff_of_true ⟨rfl, rfl, .inl rfl⟩ trivial

/-- A system call keeps to its objects and leaves the frame of its caller if and only if it
finds what it needs. -/
theorem keepsFrame_iff (site : SyscallSite) : site.KeepsFrame ↔
    (site.number ≠ .exit → site.number ≠ .exec → site.Spared site.number) := by
  refine imp_congr_right fun _ => imp_congr_right fun notExec => ?_
  rw [syscallHandler_ensures, Checked.ensures_iff, meets_handle _ notExec, Spared]
  refine and_congr_right fun _ => ?_
  constructor
  · rintro leaves ⟨s, done⟩
    exact (leaves_handle notExec done).mp (leaves s done)
  · intro ends s done
    exact (leaves_handle notExec done).mpr (ends ⟨s, done⟩)

/-- A way through the code of `fstat` on which nothing happens. -/
def statWay : Way (SyscallNumber.of 12).code where
  events := []
  runs := .silent .seq (.silent .left (.silent .skip (.silent .seq (.silent .right
    (.silent .skip (.silent .seq (.silent .left (.silent .skip (.silent .skip .done)))))))))

/-- The first process, whose descriptors are clear, calls `fstat`. -/
def unusedDescriptor : SyscallSite where
  layout := ⟨fun _ => sampleSite.base, fun _ => 0⟩
  system := ⟨execState.table, sampleState.frames, fun _ => sampleState.mem⟩
  thread := 0
  proc := 0
  owner := rfl
  kernel := windowKernel
  memory := windowMemory
  contents := ⟨fun _ => 0, fun _ => 0, fun _ => 0⟩
  errno := .noError
  terminal := emptyTerminal
  fd := fun _ => ⟨false, []⟩
  files := ⟨Ext2Driver.smallImage, Ext2Driver.smallImage.hostile, 0⟩
  execSite := ⟨sampleSite, sampleView, ⟨Ext2Driver.smallImage, Ext2Driver.smallImage.hostile, 0⟩,
    fun _ => 0⟩
  kernelPml4t := 0x1000
  context := { CpuContext.zero with rdi := 12 }
  cpu := ⟨0, false, true⟩
  stack := fun _ => 0
  readable := fun _ => true
  garbage := 0
  character := 0
  way := statWay

/-- `fstat` returns with `noINT` set. -/
theorem fstat_keeps_noINT : ¬∀ site : SyscallSite, site.KeepsFrame := by
  intro all
  have kept := (Checked.ensures_iff.mp (all unusedDescriptor (by decide) (by decide))).2 _ rfl
  cases kept.noINT

end SyscallSite

end SwagOS.Kernel
