import SwagOS.Kernel.Exec.Arguments
import Mathlib.Data.List.Intervals

/-!
# Arguments reach the new program

The program finds its arguments if the empty ones are the last ones, and if the stack is
still mapped once the image is loaded.  Otherwise there is a call of exec that succeeds and
leaves the program with a pointer the kernel did not set, or with a stack that is not there.
-/

namespace SwagOS.Kernel

open SwagOS.Lib SwagOS.Libc SwagOS.Mem SwagOS.Fs ThreadPagetables

def arrayPlace (args : List UInt8) : Nat := argPlace args 0 - 8 * maxArgCount

def ExecSite.withStack (site : ExecSite) (found : Nat → Nat) : ExecSite :=
  { site with stack := found }

/-- What the new program is given. -/
structure Handed (base : Nat) (args : List UInt8) (found : Nat → Nat) (stack : StackPages)
    (s : ExecState) : Prop where
  rdi : s.ctx.rdi = argCount args 0
  rsi : s.ctx.rsi = arrayPlace args
  iRsp : s.ctx.iRsp = arrayPlace args
  laid : StackLaid base (arrayPlace args) stack s.load.mem.pgdir
  argv : ∃ argv : Nat → Nat,
    (∀ i < maxArgCount, argv i = if argument args i ≠ [] then argPlace args i else found i) ∧
      ∀ k < 8 * maxArgCount,
        s.load.ram (stack.physical (arrayPlace args + k)) = ExecSite.argvBytes argv k
  copies : ∀ i < maxArgCount, argument args i ≠ [] → ∀ k ≤ (argument args i).length,
    s.load.ram (stack.physical (argPlace args i + k)) = (argument args i ++ [0]).getD k 0

section Run

variable {site : ExecSite} {args : List UInt8} {elf : ElfBuffer} {t : Nat} {s s' : ExecState}

theorem arrayPlace_eq (terminated : Terminated args) :
    arrayPlace args + 8 * maxArgCount = argPlace args 0 ∧ userStackLoc - pgSize ≤ arrayPlace args ∧
      InStack (arrayPlace args) (arrayPlace args) ∧
      ExecSite.pushStack (argPlace args 0) (8 * maxArgCount) = arrayPlace args := by
  have room := argRoom_lt terminated (Nat.zero_le maxArgCount)
  have length : 8 * maxArgCount = 128 := rfl
  rw [InStack, arrayPlace, argPlace, length, stackTop, userStackLoc, pgSize]
  refine ⟨by omega, by omega, ⟨le_rfl, by omega⟩, pushStack_eq (by omega) (by omega)⟩

theorem inArray (terminated : Terminated args) {k : Nat} (below : k < 8 * maxArgCount) :
    InStack (arrayPlace args) (arrayPlace args + k) := by
  obtain ⟨length, -, -, -⟩ := arrayPlace_eq terminated
  have last : argPlace args 0 ≤ argPlace args maxArgCount := argPlace_mono (Nat.zero_le _) le_rfl
  have top : argPlace args maxArgCount < userStackLoc + pgSize := stackTop_lt
  exact ⟨Nat.le_add_right _ _, by omega⟩

theorem execImage_ok (done : site.execImage t args elf s = .ok (0, s')) :
    ∃ renewed iRip load a final, site.renewMemory s.load = .ok renewed ∧
      elfLoadSegments site.load elf renewed = .ok (iRip, load) ∧
      load.mem.pgdir.isFrameMappedThread site.load.base site.view iRip = true ∧
      load.mem.pgdir.isFrameMappedThread site.load.base site.view stackTop = true ∧
      (List.range maxArgCount).reverse.foldlM (site.copyArg args) ⟨0, stackTop, site.stack, load⟩ =
        .ok a ∧
      site.writeStruct (ExecSite.pushStack a.iRsp (8 * maxArgCount)) (ExecSite.argvBytes a.argv)
        (8 * maxArgCount) a.load = .ok final ∧
      s'.load = final ∧ s'.ctx.rdi = a.argc ∧
      s'.ctx.rsi = ExecSite.pushStack a.iRsp (8 * maxArgCount) ∧
      s'.ctx.iRsp = ExecSite.pushStack a.iRsp (8 * maxArgCount) := by
  obtain ⟨renewed, renew, done⟩ := Outcome.bind_ok.mp done
  obtain ⟨⟨iRip, load⟩, loaded, done⟩ := Outcome.bind_ok.mp done
  obtain ⟨_, ripMapped, done⟩ := Outcome.bind_ok.mp done
  obtain ⟨_, rspMapped, done⟩ := Outcome.bind_ok.mp done
  obtain ⟨a, copied, done⟩ := Outcome.bind_ok.mp done
  obtain ⟨final, wrote, ⟨⟩⟩ := Outcome.bind_ok.mp done
  exact ⟨renewed, iRip, load, a, final, renew, loaded,
    Outcome.panicUnless_ok.mp ripMapped, Outcome.panicUnless_ok.mp rspMapped, copied, wrote,
    rfl, rfl, rfl, rfl⟩

/-- A call that succeeds with one stack of the kernel succeeds with every other, where the
stack of the process is mapped. -/
theorem execImage_handed {stack : StackPages} {renewed load : LoadState} {iRip : Nat}
    (found : Nat → Nat) (t : Nat) (s : ExecState) (sound : StackSite site (arrayPlace args))
    (terminated : Terminated args) (renew : site.renewMemory s.load = .ok renewed)
    (loaded : elfLoadSegments site.load elf renewed = .ok (iRip, load))
    (ripMapped : load.mem.pgdir.isFrameMappedThread site.load.base site.view iRip = true)
    (rspMapped : load.mem.pgdir.isFrameMappedThread site.load.base site.view stackTop = true)
    (laid : StackLaid site.load.base (arrayPlace args) stack load.mem.pgdir) :
    ∃ s', (site.withStack found).execImage t args elf s = .ok (0, s') ∧
      Handed site.load.base args found stack s' := by
  obtain ⟨length, -, -, pushed⟩ := arrayPlace_eq terminated
  have sound' : StackSite (site.withStack found) (arrayPlace args) :=
    ⟨sound.placed, sound.bottom, sound.hidden⟩
  have room : arrayPlace args ≤ argPlace args 0 := Nat.sub_le _ _
  obtain ⟨a, copied, done⟩ := copyArgs_copied found sound' laid terminated room
  rw [← done.iRsp] at pushed
  have laid' : StackLaid site.load.base (arrayPlace args) stack a.load.mem.pgdir := by
    rw [done.mem]
    exact laid
  obtain ⟨final, wrote, written⟩ := writeStruct_written (ExecSite.argvBytes a.argv) sound' laid'
    (by decide : 0 < 8 * maxArgCount) fun k below => inArray terminated below
  rw [← pushed] at wrote
  refine ⟨_, Outcome.bind_ok.mpr ⟨renewed, renew, Outcome.bind_ok.mpr ⟨(iRip, load), loaded,
    Outcome.bind_ok.mpr ⟨(), Outcome.panicUnless_ok.mpr ripMapped,
    Outcome.bind_ok.mpr ⟨(), Outcome.panicUnless_ok.mpr rspMapped,
    Outcome.bind_ok.mpr ⟨a, copied, Outcome.bind_ok.mpr ⟨final, wrote, rfl⟩⟩⟩⟩⟩⟩, ?_⟩
  constructor
  case rdi => exact done.argc
  case rsi => exact pushed
  case iRsp => exact pushed
  case laid =>
    dsimp only
    rw [written.mem]
    exact laid'
  case argv =>
    refine ⟨a.argv, ?_, written.here⟩
    intro i below
    rw [done.argv i below]
    exact if_congr (and_iff_right (Nat.zero_le i)) rfl rfl
  case copies =>
    intro i below some k within
    have above : argPlace args 0 ≤ argPlace args i := argPlace_mono (Nat.zero_le i) below.le
    have member : InStack (arrayPlace args) (argPlace args i + k) := by
      refine argPlace_inStack terminated room below ?_
      rw [argSize_some some]
      exact Nat.lt_succ_of_le within
    dsimp only
    rw [written.elsewhere _ member (by omega)]
    exact done.copies i (Nat.zero_le i) below some k within

end Run

section Found

variable {args : List UInt8}

theorem length_arguments : (arguments args).length = argCount args 0 := by
  rw [arguments, ← List.countP_eq_length_filter, List.countP_map, List.range_eq_range']
  rfl

/-- The arguments are the first ones, up to some number. -/
theorem NonEmptyFirst.count (first : NonEmptyFirst args) :
    ∃ c, ∀ i < maxArgCount, argument args i ≠ [] ↔ i < c := by
  have upTo : ∀ n ≤ maxArgCount, ∃ c ≤ n, ∀ i < n, argument args i ≠ [] ↔ i < c := by
    intro n
    induction n with
    | zero =>
      intro _
      refine ⟨0, le_rfl, ?_⟩
      intro i none
      cases none
    | succ n inductionHypothesis =>
      intro inside
      obtain ⟨c, le, same⟩ := inductionHypothesis (Nat.le_of_succ_le inside)
      by_cases empty : argument args n = []
      · refine ⟨c, Nat.le_succ_of_le le, ?_⟩
        intro i below
        rcases Nat.lt_succ_iff_lt_or_eq.mp below with earlier | rfl
        · exact same i earlier
        · exact iff_of_false (not_not.mpr empty) (Nat.not_lt_of_le le)
      · refine ⟨n + 1, le_rfl, ?_⟩
        intro i below
        rcases Nat.lt_succ_iff_lt_or_eq.mp below with earlier | rfl
        · exact iff_of_true (first n inside i earlier empty) below
        · exact iff_of_true empty below
  obtain ⟨c, -, same⟩ := upTo maxArgCount le_rfl
  exact ⟨c, same⟩

theorem arguments_eq {c : Nat} (same : ∀ i < maxArgCount, argument args i ≠ [] ↔ i < c) :
    arguments args = (List.range (min maxArgCount c)).map (argument args) := by
  rw [arguments, List.filter_map]
  congr 1
  rw [← List.Ico.zero_bot, ← List.Ico.zero_bot, ← List.Ico.filter_lt]
  refine List.filter_congr ?_
  intro i member
  have below : i < maxArgCount := (List.Ico.mem.mp member).2
  have some := same i below
  rw [Function.comp_apply, Bool.eq_iff_iff, Bool.not_eq_true', decide_eq_true_iff,
    List.isEmpty_eq_false_iff]
  exact some

theorem getD_arguments {c j : Nat} (same : ∀ i < maxArgCount, argument args i ≠ [] ↔ i < c)
    (inside : j < (arguments args).length) :
    (arguments args).getD j [] = argument args j ∧ j < maxArgCount ∧ argument args j ≠ [] := by
  rw [arguments_eq same] at inside ⊢
  rw [List.length_map, List.length_range] at inside
  have below : j < maxArgCount := by omega
  refine ⟨?_, below, (same j below).mpr (by omega)⟩
  rw [List.getD_eq_getElem _ _ (by rwa [List.length_map, List.length_range]), List.getElem_map,
    List.getElem_range]

theorem empty_counted {i j : Nat} (inside : i < maxArgCount) (before : j < i)
    (some : argument args i ≠ []) (earlier : ∀ k < j, argument args k ≠ []) :
    j < (arguments args).length := by
  have nonEmpty : ∀ k, argument args k ≠ [] → (!(argument args k).isEmpty) = true := by
    intro k some
    rw [Bool.not_eq_true', List.isEmpty_eq_false_iff]
    exact some
  rw [length_arguments, argCount, ← List.range_eq_range']
  calc j = (List.range j).countP fun k => !(argument args k).isEmpty := by
        rw [List.countP_eq_length.mpr, List.length_range]
        intro k member
        exact nonEmpty k (earlier k (List.mem_range.mp member))
    _ ≤ (List.range i).countP fun k => !(argument args k).isEmpty :=
        (List.range_sublist.mpr before.le).countP_le
    _ < (List.range (i + 1)).countP fun k => !(argument args k).isEmpty := by
        rw [List.range_succ, List.countP_append, List.countP_singleton, if_pos (nonEmpty i some)]
        exact Nat.lt_succ_self _
    _ ≤ (List.range maxArgCount).countP fun k => !(argument args k).isEmpty :=
        (List.range_sublist.mpr inside).countP_le

end Found

section Reads

variable {base low : Nat} {view : View} {args : List UInt8} {found : Nat → Nat}
  {stack : StackPages} {s : ExecState}

theorem userByte_stack {load : LoadState} {va : Nat} (placed : Placed base)
    (laid : StackLaid base low stack load.mem.pgdir) (bottom : userStackLoc - pgSize ≤ low)
    (inside : InStack low va) :
    userByte base view load va = some (load.ram (stack.physical va)) := by
  rw [userByte, laid.walk view placed bottom inside]
  rfl

theorem Handed.userByte_array (placed : Placed base) (terminated : Terminated args)
    (handed : Handed base args found stack s) {k : Nat} (below : k < 8 * maxArgCount) :
    userByte base view s.load (s.ctx.rsi + k) =
      some (s.load.ram (stack.physical (arrayPlace args + k))) := by
  obtain ⟨-, bottom, -, -⟩ := arrayPlace_eq terminated
  rw [handed.rsi]
  exact userByte_stack placed handed.laid bottom (inArray terminated below)

theorem Handed.entry (view : View) (placed : Placed base) (terminated : Terminated args)
    (handed : Handed base args found stack s) {j : Nat} (inside : j < maxArgCount) :
    ∃ q, q = (if argument args j ≠ [] then argPlace args j else found j) ∧ ∀ k < 8,
      userByte base view s.load (s.ctx.rsi + 8 * j + k) =
        some (UInt8.ofNat (q / 256 ^ k % 256)) := by
  obtain ⟨argv, entries, bytes⟩ := handed.argv
  refine ⟨argv j, entries j inside, ?_⟩
  intro k below
  have within : 8 * j + k < 8 * maxArgCount := by omega
  have quotient : (8 * j + k) / 8 = j := by omega
  have remainder : (8 * j + k) % 8 = k := by omega
  rw [Nat.add_assoc, handed.userByte_array placed terminated within, bytes _ within,
    ExecSite.argvBytes, quotient, remainder]

theorem Handed.copy (placed : Placed base) (terminated : Terminated args)
    (handed : Handed base args found stack s) {j : Nat} (inside : j < maxArgCount)
    (some : argument args j ≠ []) :
    StringAt base view s.load (argPlace args j) (argument args j) := by
  intro k within
  obtain ⟨-, bottom, -, -⟩ := arrayPlace_eq terminated
  have room : arrayPlace args ≤ argPlace args 0 := Nat.sub_le _ _
  have member : InStack (arrayPlace args) (argPlace args j + k) := by
    refine argPlace_inStack terminated room inside ?_
    rw [argSize_some some]
    exact Nat.lt_succ_of_le within
  rw [userByte_stack placed handed.laid bottom member, handed.copies j inside some k within]

theorem argPlace_lt (args : List UInt8) (n : Nat) : argPlace args n < 2 ^ 64 := by
  have top := stackTop_lt
  rw [userStackLoc, pgSize] at top
  rw [argPlace]
  omega

/-- The program finds its arguments if the empty ones are the last ones. -/
theorem Handed.reach (placed : Placed base) (terminated : Terminated args)
    (handed : Handed base args found stack s) (first : NonEmptyFirst args) :
    ArgumentsReach base view args s := by
  obtain ⟨length, bottom, -, -⟩ := arrayPlace_eq terminated
  obtain ⟨c, same⟩ := first.count
  constructor
  case count => rw [handed.rdi, length_arguments]
  case above => rw [handed.iRsp, handed.rsi]
  case stack =>
    have last : argPlace args 0 ≤ argPlace args maxArgCount := argPlace_mono (Nat.zero_le _) le_rfl
    have top : argPlace args maxArgCount < userStackLoc + pgSize := stackTop_lt
    rw [handed.iRsp, handed.rsi, length]
    refine ⟨?_, last.trans top.le⟩
    rw [userStackLoc, pgSize] at *
    omega
  case mapped =>
    intro k below
    rw [handed.userByte_array placed terminated below]
    rfl
  case copies =>
    refine ⟨argPlace args, ?_⟩
    intro j inside
    obtain ⟨string, below, some⟩ := getD_arguments same inside
    have step := argPlace_step terminated below
    rw [argSize_some some] at step
    have above : argPlace args 0 ≤ argPlace args j := argPlace_mono (Nat.zero_le j) below.le
    have last : argPlace args (j + 1) ≤ argPlace args maxArgCount := argPlace_mono below le_rfl
    have top : argPlace args maxArgCount < userStackLoc + pgSize := stackTop_lt
    rw [string]
    refine ⟨?_, handed.copy placed terminated below some, ?_, by omega, ?_⟩
    · obtain ⟨q, rfl, bytes⟩ := handed.entry view placed terminated below
      rw [if_pos some] at bytes
      exact ⟨argPlace_lt args j, bytes⟩
    · rw [handed.rsi]
      omega
    · intro i before
      obtain ⟨string', below', some'⟩ := getD_arguments same (before.trans inside)
      have step' := argPlace_step terminated below'
      rw [argSize_some some'] at step'
      have next : argPlace args (i + 1) ≤ argPlace args j := argPlace_mono before below.le
      rw [string']
      left
      omega

theorem eq_zero_of_bytes {q : Nat} (below : q < 2 ^ 64)
    (bytes : ∀ k < 8, UInt8.ofNat (q / 256 ^ k % 256) = 0) : q = 0 := by
  have zero : ∀ k < 8, q / 256 ^ k % 256 = 0 := by
    intro k inside
    have byte := congrArg UInt8.toNat (bytes k inside)
    rw [UInt8.toNat_ofNat', Nat.mod_mod] at byte
    exact byte
  have low : ∀ k ≤ 8, q % 256 ^ k = 0 := by
    intro k
    induction k with
    | zero => exact fun _ => Nat.mod_one q
    | succ k inductionHypothesis =>
      intro inside
      rw [Nat.mod_pow_succ, inductionHypothesis (Nat.le_of_succ_le inside), zero k inside,
        Nat.mul_zero]
  have bound : (2 : Nat) ^ 64 = 256 ^ 8 := by decide
  rw [bound] at below
  rw [← Nat.mod_eq_of_lt below]
  exact low 8 le_rfl

/-- Where the kernel's stack held null pointers, the arguments are found only then. -/
theorem Handed.ordered (placed : Placed base) (terminated : Terminated args)
    (handed : Handed base args (fun _ => 0) stack s) (reach : ArgumentsReach base view args s) :
    NonEmptyFirst args := by
  intro i inside j before some empty
  -- the first empty argument
  classical
  have exists_ : ∃ k, argument args k = [] := ⟨j, empty⟩
  have isEmpty : argument args (Nat.find exists_) = [] := Nat.find_spec exists_
  have le : Nat.find exists_ ≤ j := Nat.find_min' exists_ empty
  have counted : Nat.find exists_ < (arguments args).length :=
    empty_counted inside (Nat.lt_of_le_of_lt le before) some fun k => Nat.find_min exists_
  have below : Nat.find exists_ < maxArgCount := (le.trans_lt before).trans inside
  obtain ⟨p, copies⟩ := reach.copies
  obtain ⟨⟨small, pointer⟩, -, above, -⟩ := copies _ counted
  obtain ⟨q, null, bytes⟩ := handed.entry view placed terminated below
  rw [if_neg (not_not.mpr isEmpty)] at null
  have zero : p (Nat.find exists_) = 0 := by
    refine eq_zero_of_bytes small ?_
    intro k within
    have same := (pointer k within).symm.trans (bytes k within)
    rw [Option.some.inj same, null, Nat.zero_div]
    rfl
  have length : 8 * maxArgCount = 128 := rfl
  omega

end Reads

section Call

variable {site : ExecSite} {t : Nat} {filepath args : List UInt8} {elf : ElfBuffer}
  {s s' : ExecState}

theorem execUserProcess_ok (read : site.files.readFile filepath = .ok (some elf))
    (done : site.execUserProcess t filepath args s = .ok (0, s')) :
    (∃ p, (s.table.threads t).ownerProc = some p) ∧ site.files.fileExists filepath = .ok true ∧
      site.execImage t args elf s = .ok (0, s') := by
  cases owner : (s.table.threads t).ownerProc with
  | none =>
    rw [ExecSite.execUserProcess, owner] at done
    cases done
  | some p =>
    rw [ExecSite.execUserProcess, owner] at done
    obtain ⟨isFile, exists_, done⟩ := Outcome.bind_ok.mp done
    cases isFile with
    | false => cases done
    | true =>
      rw [if_pos rfl] at done
      obtain ⟨file, read', done⟩ := Outcome.bind_ok.mp done
      cases read.symm.trans read'
      exact ⟨⟨p, rfl⟩, exists_, done⟩

structure ExecSound (site : ExecSite) (s : ExecState) : Prop where
  placed : Placed site.load.base
  valid : s.load.frames.Valid
  hidden : ∀ va, InStack (userStackLoc - pgSize) va → site.view.frameMappedKernel va = false

theorem ExecSound.stack (sound : ExecSound site s) (terminated : Terminated args) :
    StackSite site (arrayPlace args) :=
  ⟨sound.placed, (arrayPlace_eq terminated).2.1, sound.hidden⟩

theorem execImage_loaded (sound : ExecSound site s)
    (done : site.execImage t args elf s = .ok (0, s')) {renewed load : LoadState} {iRip : Nat}
    (renew : site.renewMemory s.load = .ok renewed)
    (loaded : elfLoadSegments site.load elf renewed = .ok (iRip, load)) :
    ∃ start pages top second, ImageOver site.load.base start pages load ∧
      NewStack site.load.base top second start ∧
      (top % pgSize = 0 ∧ top < 2 ^ 52 ∧ second % pgSize = 0 ∧ second < 2 ^ 52 ∧ top ≠ second) ∧
      ∀ index k, Touched index pages k ↔ Segmented elf index k := by
  have passes : elf.Passes := by
    by_contra refused
    obtain ⟨halt, halted⟩ : ∃ halt, site.execImage t args elf s = .error halt :=
      ExecSite.execImage_halts sound.placed refused s
    cases halted.symm.trans done
  obtain ⟨valid, top, second, topAligned, topBelow, secondAligned, secondBelow, apart, new⟩ :=
    site.renewMemory_new sound.valid renew
  obtain ⟨pages, image, segments⟩ := elfLoadSegments_imageOver passes valid loaded
  exact ⟨_, pages, top, second, image, new, ⟨topAligned, topBelow, secondAligned, secondBelow,
    apart⟩, segments⟩

theorem execImage_keeps (sound : ExecSound site s) (terminated : Terminated args)
    (done : site.execImage t args elf s = .ok (0, s'))
    (reach : ArgumentsReach site.load.base site.view args s') :
    KeepsStack elf (arrayPlace args) := by
  obtain ⟨renewed, iRip, load, a, final, renew, loaded, -, rspMapped, copied, wrote, isFinal, -,
    rsi, -⟩ := execImage_ok done
  obtain ⟨start, pages, top, second, image, new, -, segments⟩ :=
    execImage_loaded sound done renew loaded
  obtain ⟨-, bottom, inside, pushed⟩ := arrayPlace_eq terminated
  obtain ⟨iRsp, mem⟩ := copyArgs_pushed terminated copied
  have sameMem : s'.load.mem = load.mem := by
    rw [isFinal, writeStruct_mem wrote, mem]
  rw [iRsp, pushed] at rsi
  by_contra lost
  have nowhere := image.stack_lost site.view sound.placed new segments bottom inside rspMapped lost
  have mapped := reach.mapped 0 (by decide)
  rw [userByte, rsi, Nat.add_zero, sameMem, nowhere] at mapped
  cases mapped

/-- Where the stack is kept, the call succeeds whatever the stack of the kernel holds. -/
theorem execImage_whatever (sound : ExecSound site s) (terminated : Terminated args)
    (done : site.execImage t args elf s = .ok (0, s')) (keeps : KeepsStack elf (arrayPlace args))
    (found : Nat → Nat) :
    ∃ stack s₁, (site.withStack found).execImage t args elf s = .ok (0, s₁) ∧
      Handed site.load.base args found stack s₁ := by
  obtain ⟨renewed, iRip, load, a, final, renew, loaded, ripMapped, rspMapped, -⟩ :=
    execImage_ok done
  obtain ⟨start, pages, top, second, image, new, frames, segments⟩ :=
    execImage_loaded sound done renew loaded
  obtain ⟨stack, laid⟩ := image.stack new frames segments keeps
  obtain ⟨s₁, done₁, handed⟩ := execImage_handed found t s (sound.stack terminated) terminated
    renew loaded ripMapped rspMapped laid
  exact ⟨stack, s₁, done₁, handed⟩

/-- Arguments reach the new program, whatever the stack of the kernel holds, if and only if the
empty ones are the last ones and the image leaves the stack mapped. -/
theorem arguments_reach_iff (sound : ExecSound site s) (terminated : Terminated args)
    (read : site.files.readFile filepath = .ok (some elf))
    (done : site.execUserProcess t filepath args s = .ok (0, s')) :
    (∀ found s', (site.withStack found).execUserProcess t filepath args s =
        .ok (0, s') → ArgumentsReach site.load.base site.view args s') ↔
      NonEmptyFirst args ∧ KeepsStack elf (arrayPlace args) := by
  obtain ⟨⟨p, owner⟩, isFile, image⟩ := execUserProcess_ok read done
  constructor
  · intro reach
    have keeps := execImage_keeps sound terminated image (reach site.stack s' done)
    obtain ⟨stack, s₁, done₁, handed⟩ := execImage_whatever sound terminated image keeps fun _ => 0
    have read₁ : (site.withStack fun _ => 0).files.readFile filepath = .ok (some elf) := read
    have isFile₁ : (site.withStack fun _ => 0).files.fileExists filepath = .ok true := isFile
    rw [← ExecSite.execUserProcess_file owner isFile₁ read₁ args] at done₁
    exact ⟨handed.ordered sound.placed terminated (reach _ s₁ done₁), keeps⟩
  · rintro ⟨first, keeps⟩ found s₁ done₁
    obtain ⟨stack, s₂, done₂, handed⟩ := execImage_whatever sound terminated image keeps found
    have read₁ : (site.withStack found).files.readFile filepath = .ok (some elf) := read
    obtain ⟨-, -, image₁⟩ := execUserProcess_ok read₁ done₁
    cases image₁.symm.trans done₂
    exact handed.reach sound.placed terminated first

end Call

def program : List UInt8 := (List.range 124).map (oneSegment 0x400000 16).bytes

def programImage : Ext2Driver :=
  { Ext2Driver.smallImage with
    disk := fun sector =>
      if sector = 2102 then Ext2Driver.sectorOf [(0, program)]
      else Ext2Driver.smallImage.disk sector }

def programSite : ExecSite :=
  ⟨sampleSite, sampleView, ⟨programImage, programImage.hostile, 4000⟩, fun _ => 0⟩

theorem programSite_sound : ExecSound programSite execState :=
  ⟨sampleSite_sound.placed, (sampleState_image (oneSegment 0 0)).valid, fun _ _ => rfl⟩

/-- The arguments `a` and `b`, and then the same after an empty one. -/
def twoArgs (gap : Nat) : List UInt8 :=
  [97] ++ List.replicate (maxPath * (gap + 1) - 1) 0 ++ [98]

theorem program_runs {gap : Nat} (small : gap = 0 ∨ gap = 1) :
    (∃ elf, programSite.files.readFile [47, 104] = .ok (some elf) ∧
      KeepsStack elf (arrayPlace (twoArgs gap))) ∧
    ∃ s', programSite.execUserProcess 0 [47, 104] (twoArgs gap) execState = .ok (0, s') := by
  have read : (programSite.files.readFile [47, 104]).test (fun file =>
      file.any fun elf => decide (KeepsStack elf (arrayPlace (twoArgs gap)))) = true := by
    rcases small with rfl | rfl <;> decide +kernel
  have runs : (programSite.execUserProcess 0 [47, 104] (twoArgs gap) execState).test (fun result =>
      decide (result.1 = 0)) = true := by
    rcases small with rfl | rfl <;> decide +kernel
  constructor
  · obtain ⟨file, found, keeps⟩ := Outcome.of_test read
    obtain ⟨elf, rfl, keeps⟩ := (Option.any_eq_true _ _).mp keeps
    exact ⟨elf, found, of_decide_eq_true keeps⟩
  · obtain ⟨⟨ret, s'⟩, done, success⟩ := Outcome.of_test runs
    obtain rfl : ret = 0 := of_decide_eq_true success
    exact ⟨s', done⟩

theorem arguments_reach_iff_two : ∃ s',
    programSite.execUserProcess 0 [47, 104] (twoArgs 0) execState = .ok (0, s') ∧
      ArgumentsReach 0x100000 sampleView (twoArgs 0) s' := by
  obtain ⟨⟨elf, read, keeps⟩, s', done⟩ := program_runs (.inl rfl)
  refine ⟨s', done, ?_⟩
  exact (arguments_reach_iff programSite_sound (by decide +kernel) read done).mpr
    ⟨by decide +kernel, keeps⟩ programSite.stack s' done

/-- With an empty argument between them the second one is not found. -/
theorem empty_argument_between : ¬∀ (site : ExecSite) (t : Nat) (filepath args : List UInt8)
    (s s' : ExecState), ExecSound site s → Terminated args →
      site.execUserProcess t filepath args s = .ok (0, s') →
        ArgumentsReach site.load.base site.view args s' := by
  intro claim
  obtain ⟨⟨elf, read, keeps⟩, s', done⟩ := program_runs (.inr rfl)
  have terminated : Terminated (twoArgs 1) := by decide +kernel
  have reach := claim programSite 0 [47, 104] (twoArgs 1) execState s' programSite_sound terminated
    done
  obtain ⟨-, -, image⟩ := execUserProcess_ok read done
  obtain ⟨stack, s₁, done₁, handed⟩ :=
    execImage_whatever programSite_sound terminated image keeps fun _ => 0
  obtain rfl := (Prod.mk.inj (Except.ok.inj (image.symm.trans done₁))).2
  have first := handed.ordered programSite_sound.placed terminated reach
  exact absurd first (by decide +kernel)

end SwagOS.Kernel
