import SwagOS.Kernel.Locking.Blocks

/-!
# `cli_count` balances

The place of a CPU in its code says which sections it is in, and so do the frames on its stack
and the saved contexts: nothing is interrupted and nothing switched away inside a section.
-/

namespace SwagOS.Kernel

open SwagOS.Lib

variable {Lock Cpu : Type} [DecidableEq Lock]
  {rules : LockRules Lock}

/-- 1 where a CPU is inside a function of a lock: `cli_count` has it already, or still. -/
def KernelOp.passing : KernelOp Lock → Nat
  | .takeSpinlock _ | .leaveSpinlock => 1
  | _ => 0

def passing : List (Code (KernelOp Lock)) → Nat
  | .op o :: _ => o.passing
  | _ => 0

def Resumable (rules : LockRules Lock)
    (code : List (Code (KernelOp Lock))) : Prop :=
  Code.FollowsAll (sections rules) code .outside .outside

/-- What the section of a CPU says about the CPU. -/
structure Processor.InSection (rules : LockRules Lock)
    (p : Processor Lock) (e : Section Lock) : Prop where
  follows : Code.FollowsAll (sections rules) p.code e .outside
  cliCount : p.cpu.cliCount = e.depth
  openCopies : p.openCopies = e.copies
  passing : e.passing = Kernel.passing p.code
  masked : p.cpu.interruptFlag = true → e = .outside
  frames : ∀ frame ∈ p.frames, Resumable rules frame.code

theorem passing_eq {code : List (Code (KernelOp Lock))} {e e' : Section Lock}
    (follows : Code.FollowsAll (sections rules) code e e') (quiet : e.passing = 0) :
    e.passing = passing code := by
  rw [quiet]
  match code with
  | [] => rfl
  | .op o :: rest =>
    obtain ⟨_, ⟨⟨nested, _⟩, _⟩, _⟩ := follows
    cases o with
    | takeSpinlock lock => exact absurd nested.2 (by omega)
    | leaveSpinlock => exact absurd nested (by rw [Section.Nested]; omega)
    | _ => rfl
  | .skip :: _ | .seq _ _ :: _ | .choose _ _ :: _ | .many _ :: _ | .any _ :: _
  | .forever :: _ => rfl

structure Context.Resumable (rules : LockRules Lock)
    (context : Context Lock) : Prop where
  top : Kernel.Resumable rules context.top.code
  below : ∀ frame ∈ context.below, Kernel.Resumable rules frame.code

namespace CPU

variable {cpu cpu' : CPU}

@[simp] theorem incCli_cliCount : cpu.incCli.cliCount = cpu.cliCount + 1 := rfl

@[simp] theorem incCli_interruptFlag : cpu.incCli.interruptFlag = false := rfl

theorem decCli_ok (done : cpu.decCli = .ok cpu') :
    cpu.interruptFlag = false ∧ cpu.cliCount = cpu'.cliCount + 1 ∧
      (cpu'.interruptFlag = true → cpu'.cliCount = 0) := by
  rw [decCli] at done
  split at done
  · cases done
  split at done
  · cases done
  case isFalse set open_ =>
    obtain rfl := Except.ok.inj done
    have unset : cpu.interruptFlag = false := Bool.eq_false_of_not_eq_true set
    refine ⟨unset, ?_, ?_⟩
    · split <;> simp only [sti] <;> omega
    · split
      case isTrue last =>
        intro _
        exact last.1
      case isFalse =>
        intro flag
        rw [unset] at flag
        cases flag

theorem decCli_total (unset : cpu.interruptFlag = false) (inside : 0 < cpu.cliCount) :
    ∃ cpu', cpu.decCli = .ok cpu' := by
  rw [decCli, unset, if_neg Bool.false_ne_true, if_neg inside.ne']
  exact ⟨_, rfl⟩

end CPU

namespace Section

variable {e : Section Lock} {lock : Lock}

theorem depth_take (new : lock ∉ e.held) (inside : 0 < e.passing) :
    (e.next (.takeSpinlock lock)).depth = e.depth := by
  simp only [next, depth, Finset.card_insert_of_notMem new]
  omega

theorem depth_acquire (new : lock ∉ e.held) :
    (e.next (.acquireSpinlock lock)).depth = e.depth + 1 := by
  simp only [next, depth, Finset.card_insert_of_notMem new]
  omega

theorem depth_release (held : lock ∈ e.held) :
    e.depth = (e.next (.releaseSpinlock lock)).depth + 1 := by
  have one := Finset.card_erase_add_one held
  simp only [next, depth]
  omega

theorem depth_leave (inside : 0 < e.passing) : e.depth = (e.next .leaveSpinlock).depth + 1 := by
  simp only [next, depth]
  omega

theorem depth_beginCopy : (e.next .beginCopy).depth = e.depth + 1 := by
  simp only [next, depth]
  omega

theorem depth_endCopy (inside : 0 < e.copies) : e.depth = (e.next .endCopy).depth + 1 := by
  simp only [next, depth]
  omega

end Section

namespace Processor.InSection

variable {p : Processor Lock} {e e' : Section Lock} {code : List (Code (KernelOp Lock))}
  {cpu : CPU} {copies : Nat}

theorem unset (inside : p.InSection rules e) (depth : 0 < e.depth) :
    p.cpu.interruptFlag = false := by
  apply Bool.eq_false_of_not_eq_true
  intro flag
  rw [inside.masked flag] at depth
  exact Nat.lt_irrefl 0 depth

theorem passing_performs {rest : List (Code (KernelOp Lock))} {o : KernelOp Lock}
    (inside : p.InSection rules e) (next : Code.Next p.code (some o) rest) :
    e.passing = o.passing := by
  have passing := inside.passing
  generalize p.code = code at next passing
  cases next with
  | op => exact passing

theorem passing_silent {rest : List (Code (KernelOp Lock))}
    (inside : p.InSection rules e) (next : Code.Next p.code none rest) : e.passing = 0 := by
  have passing := inside.passing
  generalize p.code = code at next passing
  cases next <;> exact passing

theorem stays (inside : p.InSection rules e)
    (follows : Code.FollowsAll (sections rules) code e .outside)
    (passing : e.passing = Kernel.passing code)
    (cliCount : cpu.cliCount = p.cpu.cliCount)
    (masked : cpu.interruptFlag = true → e = .outside) :
    ({ p with code := code, cpu := cpu } : Processor Lock).InSection rules e :=
  ⟨follows, cliCount.trans inside.cliCount, inside.openCopies, passing, masked, inside.frames⟩

/-- The count is that of another section, and the flag is clear. -/
theorem moves (inside : p.InSection rules e)
    (follows : Code.FollowsAll (sections rules) code e' .outside)
    (passing : e'.passing = Kernel.passing code) (depth : e'.depth = e.depth)
    (deep : 0 < e.depth) (copies : e.copies = e'.copies) :
    ({ p with code := code } : Processor Lock).InSection rules e' where
  follows := follows
  cliCount := by rw [inside.cliCount, depth]
  openCopies := by rw [inside.openCopies, copies]
  passing := passing
  masked := by
    intro flag
    have unset : p.cpu.interruptFlag = false := inside.unset deep
    rw [unset] at flag
    cases flag
  frames := inside.frames

theorem opens (inside : p.InSection rules e)
    (follows : Code.FollowsAll (sections rules) code e' .outside)
    (passing : e'.passing = Kernel.passing code)
    (depth : e'.depth = e.depth + 1) (openCopies : copies = e'.copies) :
    ({ p with code := code, cpu := p.cpu.incCli, openCopies := copies } :
      Processor Lock).InSection rules e' where
  follows := follows
  cliCount := by rw [CPU.incCli_cliCount, inside.cliCount, depth]
  openCopies := openCopies
  passing := passing
  masked := by
    intro flag
    cases flag
  frames := inside.frames

theorem closes (inside : p.InSection rules e)
    (follows : Code.FollowsAll (sections rules) code e' .outside)
    (passing : e'.passing = Kernel.passing code)
    (depth : e.depth = e'.depth + 1) (openCopies : copies = e'.copies)
    (done : p.cpu.decCli = .ok cpu) :
    ({ p with code := code, cpu := cpu, openCopies := copies } :
      Processor Lock).InSection rules e' := by
  obtain ⟨_, counted, last⟩ := CPU.decCli_ok done
  have cliCount : cpu.cliCount = e'.depth := by
    have before := inside.cliCount
    omega
  refine ⟨follows, cliCount, openCopies, passing, ?_, inside.frames⟩
  intro flag
  exact Section.eq_outside (cliCount.symm.trans (last flag))

theorem switches (inside : p.InSection rules .outside) {frames : List (Frame Lock)}
    (resumable : Resumable rules code) (cliCount : cpu.cliCount = p.cpu.cliCount)
    (below : ∀ frame ∈ frames, Resumable rules frame.code) :
    ({ p with code := code, cpu := cpu, frames := frames } :
      Processor Lock).InSection rules .outside :=
  ⟨resumable, cliCount.trans inside.cliCount, inside.openCopies, passing_eq resumable rfl,
    fun _ => rfl, below⟩

/-- The code at hand becomes a frame under the code of a handler. -/
theorem enters [DecidableEq Cpu] (inside : p.InSection rules .outside)
    (program : Program Cpu rules) (vector : Nat) (resumable : Resumable rules code) :
    ({ p with
      code := [program.handler vector]
      frames := ⟨code, p.cpu.interruptFlag⟩ :: p.frames
      cpu := if program.trapGate vector then p.cpu else p.cpu.cli } :
      Processor Lock).InSection rules .outside := by
  refine inside.switches (.single (program.handler_keeps vector)) ?_ ?_
  · split <;> rfl
  · intro frame member
    rcases List.mem_cons.mp member with rfl | earlier
    · exact resumable
    · exact inside.frames frame earlier

end Processor.InSection

namespace KernelState

variable [DecidableEq Cpu]

/-- The sections of the CPUs explain the state. -/
structure Inv (rules : LockRules Lock) (s : KernelState Cpu Lock)
    (inside : Cpu → Section Lock) : Prop where
  processor : ∀ c, (s.processor c).InSection rules (inside c)
  owner : ∀ c lock, s.owner lock = some c → lock ∈ (inside c).held
  context : ∀ thread context, s.contexts thread = some context → context.Resumable rules
  owned : ¬rules.mayInit → ∀ c, ∀ lock ∈ (inside c).held, s.owner lock = some c
  running : ¬rules.mayInit → ∀ c, (s.processor c).panic = none

variable {s t : KernelState Cpu Lock} {inside : Cpu → Section Lock} {c : Cpu}
  {e : Section Lock} {p : Processor Lock} {program : Program Cpu rules}
  {code rest : List (Code (KernelOp Lock))} {o : KernelOp Lock}

omit [DecidableEq Cpu] in
theorem Start.inv (start : Start program s) : Inv rules s fun _ => .outside where
  processor c :=
    { follows := by
        rw [start.code c]
        exact .single (program.boot_keeps c)
      cliCount := start.cliCount c
      openCopies := start.openCopies c
      passing := by
        rw [start.code c]
        exact passing_eq (.single (program.boot_keeps c)) rfl
      masked := fun _ => rfl
      frames := by
        rw [start.frames c]
        intro frame member
        cases member }
  owner := by
    intro c lock owned
    rw [start.owner lock] at owned
    cases owned
  context := by
    intro thread context saved
    rw [start.contexts thread] at saved
    cases saved
  owned := by
    intro _ c lock member
    cases member
  running _ := start.panic

theorem Inv.changes (inv : Inv rules s inside)
    (processor : t.processor = Function.update s.processor c p) (here : p.InSection rules e)
    (mine : ∀ lock, t.owner lock = some c → lock ∈ e.held)
    (owned : ¬rules.mayInit → ∀ lock ∈ e.held, t.owner lock = some c)
    (others : ∀ d lock, d ≠ c → (t.owner lock = some d ↔ s.owner lock = some d))
    (contexts : t.contexts = s.contexts) (panic : p.panic = (s.processor c).panic) :
    Inv rules t (Function.update inside c e) where
  processor := by
    intro d
    rw [processor]
    by_cases same : d = c
    · subst same
      rw [Function.update_self, Function.update_self]
      exact here
    · rw [Function.update_of_ne same, Function.update_of_ne same]
      exact inv.processor d
  owner := by
    intro d lock owner
    by_cases same : d = c
    · subst same
      rw [Function.update_self]
      exact mine lock owner
    · rw [Function.update_of_ne same]
      exact inv.owner d lock ((others d lock same).mp owner)
  context := by
    rw [contexts]
    exact inv.context
  owned := by
    intro never d lock held
    by_cases same : d = c
    · subst same
      rw [Function.update_self] at held
      exact owned never lock held
    · rw [Function.update_of_ne same] at held
      exact (others d lock same).mpr (inv.owned never d lock held)
  running := by
    intro never d
    rw [processor]
    by_cases same : d = c
    · subst same
      rw [Function.update_self, panic]
      exact inv.running never d
    · rw [Function.update_of_ne same]
      exact inv.running never d

/-- Only the CPU itself changed, and it holds what it held. -/
theorem Inv.setProcessor (inv : Inv rules s inside) (here : p.InSection rules e)
    (held : e.held = (inside c).held) (panic : p.panic = (s.processor c).panic) :
    Inv rules (s.setProcessor c p) (Function.update inside c e) := by
  refine inv.changes rfl here ?_ ?_ (fun _ _ _ => Iff.rfl) rfl panic
  · rw [held]
    exact inv.owner c
  · rw [held]
    intro never
    exact inv.owned never c

section Perform

variable (inv : Inv rules s inside)

include inv

theorem Inv.acquireSpinlock {lock : Lock} (new : lock ∉ (inside c).held)
    (may : rules.mayAcquire (inside c) lock) (quiet : (inside c).passing = 0)
    (follows : Code.FollowsAll (sections rules) rest
      ((inside c).next (.acquireSpinlock lock)) .outside) :
    Inv rules (((s.goto c rest).setCPU c (s.processor c).cpu.incCli).comesTo c
      (.takeSpinlock lock)) (Function.update inside c (inside c).passes) := by
  have taken : Code.FollowsAll (sections rules) (.op (.takeSpinlock lock) :: rest)
      (inside c).passes .outside :=
    ⟨_, ⟨⟨⟨new, Nat.succ_pos _⟩, may⟩, rfl⟩, follows⟩
  have here := (inv.processor c).opens taken (congrArg (· + 1) quiet) Section.depth_passes
    (inv.processor c).openCopies
  rw [goto_setCPU, setProcessor_comesTo]
  exact inv.setProcessor here rfl rfl

theorem Inv.takeSpinlock {lock : Lock} (nested : (inside c).Nested (.takeSpinlock lock))
    (quiet : ((inside c).next (.takeSpinlock lock)).passing = 0)
    (follows : Code.FollowsAll (sections rules) rest
      ((inside c).next (.takeSpinlock lock)) .outside)
    (done : (s.goto c rest).takeSpinlock c lock = .ok t) :
    Inv rules t (Function.update inside c ((inside c).next (.takeSpinlock lock))) := by
  obtain ⟨new, passing⟩ := nested
  rw [KernelState.takeSpinlock] at done
  split at done
  · cases done
  split at done
  · cases done
  case isFalse.isFalse free =>
    obtain rfl := Except.ok.inj done
    have deep : 0 < (inside c).depth := Nat.lt_of_lt_of_le passing (Nat.le_add_left ..)
    have here := (inv.processor c).moves follows (passing_eq follows quiet)
      (Section.depth_take new passing) deep rfl
    refine inv.changes (by simp [KernelState.goto]) here ?_ ?_ ?_ rfl rfl
    · intro other owner
      by_cases same : other = lock
      · rw [same]
        exact Finset.mem_insert_self lock _
      · refine Finset.mem_insert_of_mem (inv.owner c other ?_)
        simpa [same] using owner
    · intro never other held
      by_cases same : other = lock
      · simp [same]
      · have earlier := Finset.mem_of_mem_insert_of_ne held same
        simpa [same] using inv.owned never c other earlier
    · intro d other different
      by_cases same : other = lock
      · subst same
        rw [not_not, goto_owner] at free
        simp [free, different.symm]
      · simp [same]

theorem Inv.releaseSpinlock {lock : Lock} (held : lock ∈ (inside c).held)
    (quiet : (inside c).passing = 0)
    (follows : Code.FollowsAll (sections rules) rest
      ((inside c).next (.releaseSpinlock lock)) .outside)
    (done : (s.goto c rest).freeSpinlock c lock = .ok t) :
    Inv rules (t.comesTo c .leaveSpinlock)
      (Function.update inside c ((inside c).next (.releaseSpinlock lock)).passes) := by
  rw [KernelState.freeSpinlock] at done
  split at done
  · cases done
  case isFalse mine =>
  rw [not_not, goto_owner] at mine
  obtain rfl := Except.ok.inj done
  have left : Code.FollowsAll (sections rules) (.op .leaveSpinlock :: rest)
      ((inside c).next (.releaseSpinlock lock)).passes .outside :=
    ⟨_, ⟨⟨Nat.succ_pos _, trivial⟩, rfl⟩, follows⟩
  have released := Section.depth_release held
  have deep : 0 < (inside c).depth := released ▸ Nat.succ_pos _
  have here := (inv.processor c).moves left (congrArg (· + 1) quiet) released.symm deep rfl
  refine inv.changes (by simp [KernelState.comesTo, KernelState.goto]) here ?_ ?_ ?_ rfl rfl
  · intro other owner
    by_cases same : other = lock
    · simp [comesTo, same] at owner
    · refine Finset.mem_erase_of_ne_of_mem same (inv.owner c other ?_)
      simpa [comesTo, same] using owner
  · intro never other held
    have different := Finset.ne_of_mem_erase held
    simpa [comesTo, different] using inv.owned never c other (Finset.mem_of_mem_erase held)
  · intro d other different
    by_cases same : other = lock
    · subst same
      simp [comesTo, mine, different.symm]
    · simp [comesTo, same]

theorem Inv.leaveSpinlock (passing : 0 < (inside c).passing)
    (quiet : ((inside c).next .leaveSpinlock).passing = 0)
    (follows : Code.FollowsAll (sections rules) rest ((inside c).next .leaveSpinlock) .outside)
    (done : (s.goto c rest).leaveSpinlock c = .ok t) :
    Inv rules t (Function.update inside c ((inside c).next .leaveSpinlock)) := by
  obtain ⟨cpu, counted, done⟩ := Outcome.bind_ok.mp done
  obtain rfl := Except.ok.inj done
  have here := (inv.processor c).closes follows (passing_eq follows quiet)
    (Section.depth_leave passing) (inv.processor c).openCopies (by simpa using counted)
  rw [goto_setCPU]
  exact inv.setProcessor here rfl rfl

theorem Inv.endCopy (open_ : 0 < (inside c).copies) (quiet : (inside c).passing = 0)
    (follows : Code.FollowsAll (sections rules) rest ((inside c).next .endCopy) .outside)
    (done : (s.goto c rest).endCopy c = .ok t) :
    Inv rules t (Function.update inside c ((inside c).next .endCopy)) := by
  obtain ⟨cpu, counted, done⟩ := Outcome.bind_ok.mp done
  obtain rfl := Except.ok.inj done
  have here := (inv.processor c).closes follows (passing_eq follows quiet)
    (Section.depth_endCopy open_) (congrArg (· - 1) (inv.processor c).openCopies)
    (by simpa using counted)
  simpa using inv.setProcessor here rfl rfl

/-- An operation that neither opens nor closes a section. -/
theorem Inv.stays (cpu : CPU) (quiet : (inside c).passing = 0)
    (follows : Code.FollowsAll (sections rules) rest (inside c) .outside)
    (cliCount : cpu.cliCount = (s.processor c).cpu.cliCount)
    (masked : cpu.interruptFlag = true → inside c = .outside) :
    Inv rules ((s.goto c rest).setCPU c cpu) inside := by
  rw [goto_setCPU, ← Function.update_eq_self c inside]
  exact inv.setProcessor
    ((inv.processor c).stays follows (passing_eq follows quiet) cliCount masked) rfl rfl

theorem Inv.goto (quiet : (inside c).passing = 0)
    (follows : Code.FollowsAll (sections rules) rest (inside c) .outside) :
    Inv rules (s.goto c rest) inside := by
  have here := inv.processor c
  rw [← Function.update_eq_self c inside]
  exact inv.setProcessor (here.stays follows (passing_eq follows quiet) rfl here.masked) rfl rfl

omit [DecidableEq Cpu] in
theorem Inv.initSpinlock {lock : Lock} (mayInit : rules.mayInit) :
    Inv rules (s.setOwner lock none) inside where
  processor := inv.processor
  owner := by
    intro d other owned
    by_cases same : other = lock
    · subst same
      simp at owned
    · exact inv.owner d other (by simpa [same] using owned)
  context := inv.context
  owned never := absurd mayInit never
  running := inv.running

omit [DecidableEq Cpu] in
theorem Inv.setContext {context : Context Lock} (thread : Nat)
    (resumable : context.Resumable rules) : Inv rules (s.setContext thread context) inside where
  processor := inv.processor
  owner := inv.owner
  context := by
    intro other saved here
    by_cases same : other = thread
    · subst same
      rw [setContext_contexts, Function.update_self] at here
      exact Option.some.inj here ▸ resumable
    · rw [setContext_contexts, Function.update_of_ne same] at here
      exact inv.context other saved here
  owned := inv.owned
  running := inv.running

omit [DecidableEq Cpu] in
theorem Inv.saveThreadContext (thread : Nat) :
    Inv rules (s.saveThreadContext c thread) inside := by
  have frames := (inv.processor c).frames
  rw [KernelState.saveThreadContext]
  split
  · exact inv
  case h_2 top below here =>
    rw [here] at frames
    refine inv.setContext thread ⟨frames top List.mem_cons_self, ?_⟩
    intro frame member
    exact frames frame (List.mem_cons_of_mem top member)

theorem Inv.enter (leaves : inside c = .outside) (vector : Nat) :
    Inv rules (s.enter program c vector) inside := by
  have here := inv.processor c
  rw [leaves] at here
  have entered := here.enters program vector here.follows
  rw [← leaves] at entered
  rw [← Function.update_eq_self c inside]
  exact inv.setProcessor entered rfl rfl

theorem Inv.load {context : Context Lock} (leaves : inside c = .outside)
    (resumable : context.Resumable rules) : Inv rules (s.load c context) inside := by
  have here := inv.processor c
  rw [leaves] at here
  have loaded : ({ s.processor c with
      code := context.top.code
      frames := context.below
      cpu := { (s.processor c).cpu with interruptFlag := context.top.interruptFlag } } :
      Processor Lock).InSection rules .outside :=
    here.switches resumable.top rfl resumable.below
  rw [← leaves] at loaded
  rw [← Function.update_eq_self c inside]
  exact inv.setProcessor loaded rfl rfl

end Perform

theorem Inv.perform (inv : Inv rules s inside) (allowed : (inside c).Nested o)
    (obeyed : rules.Obeyed (inside c) o) (passing : (inside c).passing = o.passing)
    (follows : Code.FollowsAll (sections rules) rest ((inside c).next o) .outside)
    (done : (s.goto c rest).perform program c o = .ok t) :
    ∃ e, Inv rules t (Function.update inside c e) := by
  have same : Function.update inside c (inside c) = inside := Function.update_eq_self c inside
  cases o with
  | acquireSpinlock lock =>
    obtain rfl := Except.ok.inj done
    have acquired := inv.acquireSpinlock allowed obeyed passing follows
    exact ⟨_, by simpa using acquired⟩
  | takeSpinlock lock =>
    exact ⟨_, inv.takeSpinlock allowed (congrArg (· - 1) passing) follows done⟩
  | releaseSpinlock lock =>
    obtain ⟨freed, released, done⟩ := Outcome.bind_ok.mp done
    obtain rfl := Except.ok.inj done
    exact ⟨_, inv.releaseSpinlock allowed passing follows released⟩
  | leaveSpinlock =>
    exact ⟨_, inv.leaveSpinlock allowed (congrArg (· - 1) passing) follows done⟩
  | endCopy => exact ⟨_, inv.endCopy allowed passing follows done⟩
  | beginCopy =>
    obtain rfl := Except.ok.inj done
    have here : ({ s.processor c with
        code := rest
        cpu := (s.processor c).cpu.incCli
        openCopies := (s.processor c).openCopies + 1 } :
        Processor Lock).InSection rules ((inside c).next .beginCopy) :=
      (inv.processor c).opens follows (passing_eq follows passing) Section.depth_beginCopy
        (congrArg (· + 1) (inv.processor c).openCopies)
    exact ⟨_, by simpa [KernelState.beginCopy] using inv.setProcessor here rfl rfl⟩
  | initSpinlock lock =>
    obtain rfl := Except.ok.inj done
    exact ⟨inside c, by simpa using (inv.goto passing follows).initSpinlock obeyed⟩
  | cli =>
    obtain rfl := Except.ok.inj done
    exact ⟨inside c, by simpa using inv.stays (s.processor c).cpu.cli passing follows rfl nofun⟩
  | sti =>
    obtain rfl := Except.ok.inj done
    exact ⟨inside c, by
      simpa using inv.stays (s.processor c).cpu.sti passing follows rfl fun _ => allowed⟩
  | noINTEnable =>
    obtain rfl := Except.ok.inj done
    exact ⟨inside c, by
      simpa using inv.stays { (s.processor c).cpu with noINT := true } passing follows rfl
        (inv.processor c).masked⟩
  | noINTDisable =>
    obtain rfl := Except.ok.inj done
    exact ⟨inside c, by
      simpa using inv.stays { (s.processor c).cpu with noINT := false } passing follows rfl
        (inv.processor c).masked⟩
  | int vector =>
    obtain rfl := Except.ok.inj done
    exact ⟨inside c, by simpa using (inv.goto passing follows).enter allowed vector⟩
  | saveThreadContext thread =>
    obtain rfl := Except.ok.inj done
    exact ⟨inside c, by simpa using (inv.goto passing follows).saveThreadContext thread⟩
  | createThread thread entry =>
    obtain rfl := Except.ok.inj done
    have fresh : Context.Resumable rules ⟨⟨[program.thread entry], true⟩, []⟩ :=
      ⟨.single (program.thread_keeps entry), nofun⟩
    exact ⟨inside c, by simpa using (inv.goto passing follows).setContext thread fresh⟩
  | loadContext thread =>
    rw [KernelState.perform] at done
    split at done
    · cases done
    case h_2 context saved =>
      obtain rfl := Except.ok.inj done
      have resumable := inv.context thread context saved
      exact ⟨inside c, by simpa using (inv.goto passing follows).load allowed resumable⟩

omit [DecidableEq Cpu] in
/-- A CPU whose flag is set is outside of every section. -/
theorem Inv.outside (inv : Inv rules s inside)
    (flag : (s.processor c).cpu.interruptFlag = true) : inside c = .outside :=
  (inv.processor c).masked flag

theorem Inv.setCPU (inv : Inv rules s inside) {cpu : CPU}
    (cliCount : cpu.cliCount = (s.processor c).cpu.cliCount)
    (flag : cpu.interruptFlag = (s.processor c).cpu.interruptFlag) :
    Inv rules (s.setCPU c cpu) inside := by
  have here := inv.processor c
  rw [← Function.update_eq_self c inside]
  refine inv.setProcessor (here.stays here.follows here.passing cliCount ?_) rfl rfl
  intro set
  exact here.masked (flag ▸ set)

theorem Inv.no_panic (inv : Inv rules s inside) (never : ¬rules.mayInit)
    (allowed : (inside c).Nested o) (message : String) :
    (s.goto c rest).perform program c o ≠ .error (.panic message) := by
  have here := inv.processor c
  intro stopped
  cases o with
  | takeSpinlock lock =>
    have other : s.owner lock ≠ some c := fun mine => allowed.1 (inv.owner c lock mine)
    rw [KernelState.perform, KernelState.takeSpinlock, goto_owner, if_neg other] at stopped
    by_cases free : s.owner lock = none
    · rw [if_neg (not_not.mpr free)] at stopped
      cases stopped
    · rw [if_pos free] at stopped
      cases stopped
  | releaseSpinlock lock =>
    simp [KernelState.perform, KernelState.freeSpinlock, inv.owned never c lock allowed, bind,
      Except.bind, pure, Except.pure] at stopped
  | leaveSpinlock =>
    have deep : 0 < (inside c).depth := by
      rw [Section.depth_leave allowed]
      exact Nat.succ_pos _
    obtain ⟨cpu, counted⟩ := CPU.decCli_total (here.unset deep) (here.cliCount ▸ deep)
    simp [KernelState.perform, KernelState.leaveSpinlock, counted, bind, Except.bind, pure,
      Except.pure] at stopped
  | endCopy =>
    have deep : 0 < (inside c).depth := by
      rw [Section.depth_endCopy allowed]
      exact Nat.succ_pos _
    obtain ⟨cpu, counted⟩ := CPU.decCli_total (here.unset deep) (here.cliCount ▸ deep)
    simp [KernelState.perform, KernelState.endCopy, counted, bind, Except.bind, pure,
      Except.pure] at stopped
  | loadContext thread =>
    rw [KernelState.perform] at stopped
    split at stopped <;> cases stopped
  | _ => cases stopped

theorem Inv.panics (inv : Inv rules s inside) {message : String}
    (mayInit : rules.mayInit) :
    Inv rules (s.setProcessor c { s.processor c with panic := some message }) inside where
  processor := by
    intro d
    by_cases same : d = c
    · subst same
      have here := inv.processor d
      rw [setProcessor_processor, Function.update_self]
      exact ⟨here.follows, here.cliCount, here.openCopies, here.passing, here.masked, here.frames⟩
    · rw [setProcessor_processor, Function.update_of_ne same]
      exact inv.processor d
  owner := inv.owner
  context := inv.context
  owned := inv.owned
  running never := absurd mayInit never

theorem Inv.step (inv : Inv rules s inside) (step : Step program s t) :
    ∃ inside', Inv rules t inside' := by
  cases step with
  | @silent c rest running next =>
    have here := inv.processor c
    exact ⟨inside, inv.goto (here.passing_silent next) (here.follows.silent next)⟩
  | @performs _ c o rest running next done =>
    have here := inv.processor c
    obtain ⟨allowed, follows⟩ := here.follows.performs next
    obtain ⟨e, after⟩ :=
      inv.perform allowed.1 allowed.2 (here.passing_performs next) follows done
    exact ⟨_, after⟩
  | @panics c o rest message running next stopped =>
    obtain ⟨allowed, follows⟩ := (inv.processor c).follows.performs next
    exact ⟨inside, inv.panics (not_not.mp fun never => inv.no_panic never allowed.1 message stopped)⟩
  | @late c d rest running flag next =>
    have here := inv.processor c
    obtain ⟨allowed, follows⟩ := here.follows.performs next
    exact ⟨inside, (inv.goto (here.passing_performs next) follows).setCPU rfl rfl⟩
  | @interrupt c vector running flag =>
    exact ⟨inside, inv.enter (inv.outside flag) vector⟩
  | @iretq c top below running returned frames =>
    have here := inv.processor c
    have follows := here.follows
    rw [returned] at follows
    refine ⟨inside, inv.load follows.symm ⟨?_, ?_⟩⟩
    · exact here.frames top (by rw [frames]; exact List.mem_cons_self)
    · intro frame member
      exact here.frames frame (by rw [frames]; exact List.mem_cons_of_mem top member)

theorem Reachable.inv (reached : Reachable (Start program) (Step program) s) :
    ∃ inside, Inv rules s inside :=
  reached.invariant (P := fun s => ∃ inside, Inv rules s inside) (fun _ start => ⟨_, start.inv⟩)
    fun _ _ ⟨_, inv⟩ step => inv.step step

/-- Where locks are initialised once, `cli_count` of a CPU is the number of its locks and open
copies, and one more inside a function of a lock.  Its interrupt flag is set outside of them
only, and `dec_cli` does not panic. -/
theorem criticalSections_uninterrupted {program : Program Cpu (anyOrder : LockRules Lock)}
    (reached : Reachable (Start program) (Step program) s) (c : Cpu) :
    (∃ held : Finset Lock, (∀ lock, lock ∈ held ↔ s.owner lock = some c) ∧
      (s.processor c).cpu.cliCount =
        held.card + (s.processor c).openCopies + passing (s.processor c).code) ∧
    ((s.processor c).cpu.interruptFlag = true → (s.processor c).cpu.cliCount = 0) ∧
    (s.processor c).panic = none := by
  obtain ⟨inside, inv⟩ := Reachable.inv reached
  have here := inv.processor c
  refine ⟨⟨(inside c).held, ?_, ?_⟩, ?_, inv.running not_false c⟩
  · intro lock
    exact ⟨inv.owned not_false c lock, inv.owner c lock⟩
  · rw [here.cliCount, here.openCopies, ← here.passing, Section.depth]
  · intro flag
    rw [here.cliCount, here.masked flag, Section.depth_outside]

section Sample

def overlapping : Code (KernelOp Bool) :=
  .seq (.op (.acquireSpinlock false)) (.seq (.op (.acquireSpinlock true))
    (.seq (.op (.releaseSpinlock false)) (.op (.releaseSpinlock true))))

def sampleHandler (vector : Nat) : Code (KernelOp Bool) :=
  interruptStub (if vector = 0x80 then .seq userCopy (critical true (threadSleep true))
    else invokeScheduler false)

/-- The lock of the process table and one more, system calls that copy and sleep, and
interrupts that switch. -/
def sampleProgram : Program Bool (anyOrder : LockRules Bool) where
  handler := sampleHandler
  thread _ := .many (.op (.int 0x80))
  boot _ := overlapping
  trapGate vector := vector = 32
  handler_keeps := by
    intro vector
    refine interruptStub_keeps ?_
    split
    · refine .seq userCopy_keeps ?_
      exact critical_keeps (Finset.notMem_empty true) trivial (threadSleep_keeps trivial)
    · exact invokeScheduler_keeps trivial
  thread_keeps _ := .many (.op ⟨rfl, trivial⟩ rfl)
  boot_keeps _ :=
    ⟨_, ⟨⟨by decide, trivial⟩, rfl⟩, _, ⟨⟨by decide, trivial⟩, rfl⟩, _, ⟨⟨by decide, trivial⟩, rfl⟩,
      ⟨by decide, trivial⟩, by decide⟩

def bootState {Cpu Lock : Type} (program : KernelText Cpu Lock) : KernelState Cpu Lock where
  processor c :=
    { cpu := { cliCount := 0, noINT := false, interruptFlag := true }
      code := [program.boot c]
      frames := []
      openCopies := 0
      panic := none }
  owner _ := none
  contexts _ := none

/-- What a property says about the end of a run from boot, it says about a state that is
reached. -/
theorem run_reached {Cpu Lock View : Type} [DecidableEq Cpu] [DecidableEq Lock]
    {program : KernelText Cpu Lock} {view : KernelState Cpu Lock → View} {seen : View}
    (events : List (Event Cpu))
    (run : (events.foldlM (happens program) (bootState program)).map view = some seen) :
    ∃ s, Reachable (Start program) (Step program) s ∧ view s = seen := by
  obtain ⟨s, done, here⟩ := Option.map_eq_some_iff.mp run
  have booted : Reachable (Start program) (Step program) (bootState program) :=
    .base ⟨fun _ => rfl, fun _ => rfl, fun _ => rfl, fun _ => rfl, fun _ => rfl, fun _ => rfl,
      fun _ => rfl⟩
  exact ⟨s, Reachable.happens booted done, here⟩

def waiting : List (Event Bool) :=
  List.replicate 3 (.goes false 0) ++ .interrupt true 32 :: List.replicate 8 (.goes true 0)

def waiter (s : KernelState Bool Bool) : Nat × Nat × Option Bool × Option Bool :=
  ((s.processor true).cpu.cliCount, (s.processor true).openCopies, s.owner false, s.owner true)

theorem waiting_reached : ∃ s, Reachable (Start sampleProgram) (Step sampleProgram) s ∧
    waiter s = (1, 0, some false, none) :=
  run_reached waiting (by decide)

theorem criticalSections_uninterrupted_sample :
    ∃ s, Reachable (Start sampleProgram) (Step sampleProgram) s ∧
      waiter s = (1, 0, some false, none) ∧ ∀ c,
      (∃ held : Finset Bool, (∀ lock, lock ∈ held ↔ s.owner lock = some c) ∧
        (s.processor c).cpu.cliCount =
          held.card + (s.processor c).openCopies + passing (s.processor c).code) ∧
      ((s.processor c).cpu.interruptFlag = true → (s.processor c).cpu.cliCount = 0) ∧
      (s.processor c).panic = none := by
  obtain ⟨s, reached, here⟩ := waiting_reached
  exact ⟨s, reached, here, fun c => criticalSections_uninterrupted reached c⟩

/-- A thread that sleeps on one lock with another, which `ThreadSleep` does not refuse. -/
def sleepsLocked : KernelText Unit (Fin 3) where
  handler _ := interruptStub (invokeScheduler 0)
  thread _ := .forever
  boot _ := .block [.op (.createThread 7 0), critical 1 (critical 2 (threadSleep 2))]
  trapGate _ := false

def asleep : List (Event Unit) :=
  (List.replicate 28 0 ++ [1, 0, 0, 5, 0, 0, 7, 1] ++ List.replicate 9 0).map (.goes ())

/-- A CPU that waits for a lock counts it already, and one that switched threads inside of a
section goes on with its interrupts on. -/
theorem criticalSections_counted_interrupted :
    (∃ s : KernelState Bool Bool, Reachable (Start sampleProgram) (Step sampleProgram) s ∧
      (∀ lock, s.owner lock ≠ some true) ∧ (s.processor true).openCopies = 0 ∧
      (s.processor true).cpu.cliCount = 1) ∧
    ∃ s : KernelState Unit (Fin 3), Reachable (Start sleepsLocked) (Step sleepsLocked) s ∧
      (s.processor ()).cpu.interruptFlag = true ∧ (s.processor ()).cpu.cliCount = 1 := by
  constructor
  · obtain ⟨s, reached, here⟩ := waiting_reached
    simp only [waiter, Prod.mk.injEq] at here
    obtain ⟨counted, copies, first, second⟩ := here
    refine ⟨s, reached, ?_, copies, counted⟩
    intro lock
    cases lock <;> simp [first, second]
  · obtain ⟨s, reached, here⟩ := @run_reached Unit (Fin 3) _ _ _ sleepsLocked
      (fun s => ((s.processor ()).cpu.interruptFlag, (s.processor ()).cpu.cliCount)) (true, 1)
      asleep (by decide)
    simp only [Prod.mk.injEq] at here
    exact ⟨s, reached, here⟩

end Sample

end KernelState

end SwagOS.Kernel
