import SwagOS.Kernel.Exec.Stack

/-!
# The arguments of a program

`ExecUserProcess` pushes the arguments from the last one to the first, and sets the entry of
`argv` that has the number of the argument.  Empty arguments are skipped but not closed up,
so the program finds what the kernel's stack held in their entries, and its last arguments
are beyond the count.
-/

namespace SwagOS.Kernel

open SwagOS.Lib SwagOS.Libc SwagOS.Mem SwagOS.Fs ThreadPagetables

/-- `args->args[i].arg` -/
def argument (args : List UInt8) (i : Nat) : List UInt8 := cstring args (maxPath * i)

def arguments (args : List UInt8) : List (List UInt8) :=
  ((List.range maxArgCount).map (argument args)).filter fun arg => !arg.isEmpty

def Terminated (args : List UInt8) : Prop :=
  ∀ i < maxArgCount, (argument args i).length < maxPath

def NonEmptyFirst (args : List UInt8) : Prop :=
  ∀ i < maxArgCount, ∀ j < i, argument args i ≠ [] → argument args j ≠ []

instance (args : List UInt8) : Decidable (Terminated args) :=
  inferInstanceAs (Decidable (∀ i < _, _))

instance (args : List UInt8) : Decidable (NonEmptyFirst args) :=
  inferInstanceAs (Decidable (∀ i < _, _))

section User

variable (base : Nat) (view : View) (s : LoadState)

def userByte (va : Nat) : Option UInt8 :=
  match Paging.walk (s.mem.pgdir.tableAt base view) va base with
  | some t => if t.user then some (s.ram t.physical) else none
  | none => none

def QwordAt (va q : Nat) : Prop :=
  q < 2 ^ 64 ∧ ∀ k < 8, userByte base view s (va + k) = some (UInt8.ofNat (q / 256 ^ k % 256))

def StringAt (va : Nat) (str : List UInt8) : Prop :=
  ∀ k ≤ str.length, userByte base view s (va + k) = some ((str ++ [0]).getD k 0)

end User

/-- A program finds its arguments: their number in `rdi`, and from `rsi` on pointers to
copies of them, which lie above the pointers and apart from each other on the stack. -/
structure ArgumentsReach (base : Nat) (view : View) (args : List UInt8) (s : ExecState) : Prop where
  count : s.ctx.rdi = (arguments args).length
  above : s.ctx.iRsp ≤ s.ctx.rsi
  stack : userStackLoc - 4 * pgSize ≤ s.ctx.iRsp ∧
    s.ctx.rsi + 8 * maxArgCount ≤ userStackLoc + pgSize
  mapped : ∀ k < 8 * maxArgCount, (userByte base view s.load (s.ctx.rsi + k)).isSome = true
  copies : ∃ p : Nat → Nat, ∀ j < (arguments args).length,
    QwordAt base view s.load (s.ctx.rsi + 8 * j) (p j) ∧
      StringAt base view s.load (p j) ((arguments args).getD j []) ∧
      s.ctx.rsi + 8 * maxArgCount ≤ p j ∧
      p j + ((arguments args).getD j []).length < userStackLoc + pgSize ∧
      ∀ i < j, p i + ((arguments args).getD i []).length < p j ∨
        p j + ((arguments args).getD j []).length < p i

/-- A string with its terminator is what the buffer holds. -/
theorem getD_takeWhile (l : List UInt8) {k : Nat} (inside : k ≤ (l.takeWhile (· != 0)).length) :
    l.getD k 0 = (l.takeWhile (· != 0) ++ [0]).getD k 0 := by
  induction l generalizing k with
  | nil =>
    cases k with
    | zero => rfl
    | succ k => cases inside
  | cons b rest inductionHypothesis =>
    by_cases zero : b = 0
    · subst zero
      cases k with
      | zero => rfl
      | succ k => cases inside
    · have goes : (b :: rest).takeWhile (· != 0) = b :: rest.takeWhile (· != 0) := by
        rw [List.takeWhile_cons, if_pos (bne_iff_ne.mpr zero)]
      rw [goes] at inside ⊢
      cases k with
      | zero => rfl
      | succ k =>
        rw [List.cons_append, List.getD_cons_succ, List.getD_cons_succ]
        exact inductionHypothesis (Nat.le_of_succ_le_succ inside)

theorem getD_argument (args : List UInt8) (i : Nat) {k : Nat}
    (inside : k ≤ (argument args i).length) :
    args.getD (maxPath * i + k) 0 = (argument args i ++ [0]).getD k 0 := by
  have dropped : args.getD (maxPath * i + k) 0 = (args.drop (maxPath * i)).getD k 0 := by
    rw [List.getD_eq_getElem?_getD, List.getD_eq_getElem?_getD, List.getElem?_drop]
  rw [dropped]
  exact getD_takeWhile _ inside

def argSize (args : List UInt8) (i : Nat) : Nat :=
  if argument args i = [] then 0 else (argument args i).length + 1

def argRoom (args : List UInt8) (n : Nat) : Nat :=
  ((List.range' n (maxArgCount - n)).map (argSize args)).sum

def argCount (args : List UInt8) (n : Nat) : Nat :=
  (List.range' n (maxArgCount - n)).countP fun i => !(argument args i).isEmpty

section Room

variable {args : List UInt8} {n : Nat}

theorem range'_args (inside : n < maxArgCount) :
    List.range' n (maxArgCount - n) = n :: List.range' (n + 1) (maxArgCount - (n + 1)) := by
  have length : maxArgCount - n = maxArgCount - (n + 1) + 1 := by omega
  rw [length, List.range'_succ]

theorem argRoom_step (inside : n < maxArgCount) :
    argRoom args n = argSize args n + argRoom args (n + 1) := by
  rw [argRoom, range'_args inside, List.map_cons, List.sum_cons]
  rfl

theorem argCount_step (inside : n < maxArgCount) :
    argCount args n = argCount args (n + 1) + if argument args n = [] then 0 else 1 := by
  rw [argCount, range'_args inside, List.countP_cons]
  congr 1
  cases argument args n <;> rfl

theorem argRoom_mono {m : Nat} (le : n ≤ m) (inside : m ≤ maxArgCount) :
    argRoom args m ≤ argRoom args n := by
  induction le using Nat.decreasingInduction with
  | self => exact le_rfl
  | of_succ k below inductionHypothesis =>
    have step : argRoom args k = argSize args k + argRoom args (k + 1) :=
      argRoom_step (by omega)
    omega

theorem argRoom_le (terminated : Terminated args) (inside : n ≤ maxArgCount) :
    argRoom args n ≤ (maxArgCount - n) * maxPath := by
  induction inside using Nat.decreasingInduction with
  | self => exact Nat.zero_le _
  | of_succ k below inductionHypothesis =>
    have size : argSize args k ≤ maxPath := by
      have ends := terminated k below
      rw [argSize]
      split
      · exact Nat.zero_le _
      · exact ends
    have turn : (maxArgCount - k) * maxPath = maxPath + (maxArgCount - (k + 1)) * maxPath := by
      rw [maxArgCount, maxPath] at *
      omega
    rw [argRoom_step below, turn]
    exact Nat.add_le_add size inductionHypothesis

end Room

structure Written (stack : StackPages) (low addr count : Nat) (bytes : Bytes)
    (s s' : LoadState) : Prop where
  mem : s'.mem = s.mem
  here : ∀ k < count, s'.ram (stack.physical (addr + k)) = bytes k
  elsewhere : ∀ va, InStack low va → va < addr ∨ addr + count ≤ va →
    s'.ram (stack.physical va) = s.ram (stack.physical va)

/-- Exec where the tables of the kernel leave the two upper pages of the stack alone. -/
structure StackSite (site : ExecSite) (low : Nat) : Prop where
  placed : Placed site.load.base
  bottom : userStackLoc - pgSize ≤ low
  hidden : ∀ va, InStack (userStackLoc - pgSize) va → site.view.frameMappedKernel va = false

section Writes

variable {site : ExecSite} {low addr count : Nat} {stack : StackPages} {s : LoadState}

theorem copyToUser_written (bytes : Bytes) (sound : StackSite site low)
    (laid : StackLaid site.load.base low stack s.mem.pgdir)
    (inside : ∀ k < count, InStack low (addr + k)) :
    ∃ s', site.copyToUser addr bytes count s = .ok s' ∧
      Written stack low addr count bytes s s' := by
  induction count with
  | zero =>
    refine ⟨s, rfl, rfl, ?_, fun _ _ _ => rfl⟩
    intro k none
    cases none
  | succ count inductionHypothesis =>
    obtain ⟨s₁, copied, written⟩ := inductionHypothesis fun k below =>
      inside k (Nat.lt_succ_of_lt below)
    have here : InStack low (addr + count) := inside count (Nat.lt_succ_self count)
    have laid₁ : StackLaid site.load.base low stack s₁.mem.pgdir := by
      rw [written.mem]
      exact laid
    have found := laid₁.walk site.view sound.placed sound.bottom here
    refine ⟨{ s₁ with
      ram := Function.update s₁.ram (stack.physical (addr + count)) (bytes count) }, ?_, ?_⟩
    · rw [ExecSite.copyToUser, List.range_succ, List.foldlM_append]
      refine Outcome.bind_ok.mpr ⟨s₁, copied, ?_⟩
      rw [List.foldlM_cons, Nat.mod_eq_of_lt here.below, found]
      rfl
    · have other : ∀ va, InStack low va → va ≠ addr + count →
          stack.physical va ≠ stack.physical (addr + count) := by
        intro va member apart same
        exact apart (StackPages.physical_inj sound.bottom member here same)
      constructor
      case mem => exact written.mem
      case here =>
        intro k below
        rcases Nat.lt_succ_iff_lt_or_eq.mp below with earlier | rfl
        · dsimp only
          rw [Function.update_of_ne (other _ (inside k below) (by omega))]
          exact written.here k earlier
        · exact Function.update_self _ _ _
      case elsewhere =>
        intro va member outside
        dsimp only
        rw [Function.update_of_ne (other va member (by omega))]
        exact written.elsewhere va member (by omega)

theorem writeStruct_written (bytes : Bytes) (sound : StackSite site low)
    (laid : StackLaid site.load.base low stack s.mem.pgdir) (some : 0 < count)
    (inside : ∀ k < count, InStack low (addr + k)) :
    ∃ s', site.writeStruct addr bytes count s = .ok s' ∧
      Written stack low addr count bytes s s' := by
  have first : InStack low addr := inside 0 some
  have last : InStack low (addr + count - 1) := by
    rw [Nat.add_sub_assoc some]
    exact inside (count - 1) (by omega)
  have hidden : site.view.frameMappedKernel addr = false :=
    sound.hidden addr ⟨sound.bottom.trans first.1, first.2⟩
  have fetches : s.mem.pgdir.fetchStruct site.load.base site.view addr count = true := by
    rw [fetchStruct, Nat.mod_eq_of_lt last.below,
      laid.isFrameMapped site.view sound.placed sound.bottom first,
      laid.isFrameMapped site.view sound.placed sound.bottom last, hidden]
    rfl
  rw [ExecSite.writeStruct, if_pos fetches]
  exact copyToUser_written bytes sound laid inside

end Writes

/-- `USER_STACK_LOC + PGSIZE - 8` -/
def stackTop : Nat := userStackLoc + pgSize - 8

theorem stackTop_lt : stackTop < userStackLoc + pgSize := by decide

def argPlace (args : List UInt8) (i : Nat) : Nat := stackTop - argRoom args i

/-- The arguments from `n` on are copied to their places. -/
structure Copied (args : List UInt8) (found : Nat → Nat) (stack : StackPages) (s : LoadState)
    (n : Nat) (a : ArgCopy) : Prop where
  argc : a.argc = argCount args n
  iRsp : a.iRsp = argPlace args n
  argv : ∀ i < maxArgCount,
    a.argv i = if n ≤ i ∧ argument args i ≠ [] then argPlace args i else found i
  mem : a.load.mem = s.mem
  copies : ∀ i, n ≤ i → i < maxArgCount → argument args i ≠ [] →
    ∀ k ≤ (argument args i).length,
      a.load.ram (stack.physical (argPlace args i + k)) =
        (argument args i ++ [0]).getD k 0

section Loop

variable {site : ExecSite} {args : List UInt8} {found : Nat → Nat} {low n : Nat}
  {stack : StackPages} {s : LoadState} {a : ArgCopy}

theorem argRoom_lt (terminated : Terminated args) (inside : n ≤ maxArgCount) :
    argRoom args n ≤ 16 * 260 := by
  have room := argRoom_le terminated inside
  have whole : (maxArgCount - n) * maxPath ≤ 16 * 260 := Nat.mul_le_mul_right _ (Nat.sub_le _ _)
  exact room.trans whole

theorem argSize_some (some : argument args n ≠ []) :
    argSize args n = (argument args n).length + 1 := if_neg some

theorem argSize_empty (empty : argument args n = []) : argSize args n = 0 := if_pos empty

theorem argPlace_step (terminated : Terminated args) (inside : n < maxArgCount) :
    argPlace args n + argSize args n = argPlace args (n + 1) := by
  have room := argRoom_lt terminated inside.le
  have step : argRoom args n = argSize args n + argRoom args (n + 1) := argRoom_step inside
  rw [argPlace, argPlace, stackTop, userStackLoc, pgSize]
  omega

theorem argPlace_mono {m : Nat} (le : n ≤ m)
    (inside : m ≤ maxArgCount) : argPlace args n ≤ argPlace args m := by
  have rooms : argRoom args m ≤ argRoom args n := argRoom_mono le inside
  rw [argPlace, argPlace]
  omega

theorem argPlace_inStack (terminated : Terminated args) (room : low ≤ argPlace args 0)
    (inside : n < maxArgCount) {k : Nat} (within : k < argSize args n) :
    InStack low (argPlace args n + k) := by
  have first : argPlace args 0 ≤ argPlace args n := argPlace_mono (Nat.zero_le n) inside.le
  have step := argPlace_step terminated inside
  have last : argPlace args (n + 1) ≤ argPlace args maxArgCount := argPlace_mono inside le_rfl
  have top : argPlace args maxArgCount < userStackLoc + pgSize := stackTop_lt
  exact ⟨by omega, by omega⟩

theorem pushStack_eq {iRsp size : Nat} (fits : size ≤ iRsp) (below : iRsp < 2 ^ 64) :
    ExecSite.pushStack iRsp size = iRsp - size := by
  rw [ExecSite.pushStack]
  omega

theorem copyArg_empty (empty : argument args n = []) : site.copyArg args a n = .ok a := by
  have short : strlen args (maxPath * n) = (argument args n).length := rfl
  rw [ExecSite.copyArg, short, empty]
  rfl

theorem copyArg_some (terminated : Terminated args) (inside : n < maxArgCount)
    (some : argument args n ≠ []) (iRsp : a.iRsp = argPlace args (n + 1)) :
    site.copyArg args a n = (site.writeStruct (argPlace args n)
      (fun k => args.getD (maxPath * n + k) 0) ((argument args n).length + 1) a.load >>= fun load =>
        pure ⟨a.argc + 1, argPlace args n, Function.update a.argv n (argPlace args n), load⟩) := by
  have short : strlen args (maxPath * n) = (argument args n).length := rfl
  have ends : (argument args n).length < 260 := terminated n inside
  have place := argPlace_step terminated inside
  rw [argSize_some some] at place
  have pushed : ExecSite.pushStack a.iRsp ((argument args n).length + 1) = argPlace args n := by
    rw [iRsp, pushStack_eq, ← place, Nat.add_sub_cancel]
    · rw [← place]
      exact Nat.le_add_left _ _
    · rw [argPlace, stackTop, userStackLoc, pgSize]
      omega
  have nonzero : (argument args n).length ≠ 0 := by
    intro zero
    exact some (List.length_eq_zero_iff.mp zero)
  rw [ExecSite.copyArg, short, Nat.mod_eq_of_lt (by omega), if_neg nonzero,
    Nat.mod_eq_of_lt (by omega)]
  dsimp only
  rw [pushed]

theorem range_reverse_succ (n : Nat) :
    (List.range (n + 1)).reverse = n :: (List.range n).reverse := by
  rw [List.range_succ, List.reverse_append, List.reverse_singleton, List.singleton_append]

theorem copyArg_step (sound : StackSite site low)
    (laid : StackLaid site.load.base low stack s.mem.pgdir) (terminated : Terminated args)
    (room : low ≤ argPlace args 0) (inside : n < maxArgCount)
    (copied : Copied args found stack s (n + 1) a) :
    ∃ a', site.copyArg args a n = .ok a' ∧ Copied args found stack s n a' := by
  by_cases empty : argument args n = []
  · have later : ∀ i, argument args i ≠ [] → (n ≤ i ↔ n + 1 ≤ i) := by
      intro i some
      have other : i ≠ n := fun same => some (same ▸ empty)
      omega
    refine ⟨a, copyArg_empty empty, ?_⟩
    constructor
    case argc =>
      rw [argCount_step inside, if_pos empty]
      exact copied.argc
    case iRsp =>
      rw [copied.iRsp, ← argPlace_step terminated inside, argSize_empty empty]
      rfl
    case argv =>
      intro i below
      rw [copied.argv i below]
      refine if_congr ?_ rfl rfl
      constructor
      · rintro ⟨from1, some⟩
        exact ⟨(later i some).mpr from1, some⟩
      · rintro ⟨from0, some⟩
        exact ⟨(later i some).mp from0, some⟩
    case mem => exact copied.mem
    case copies =>
      intro i after below some
      exact copied.copies i ((later i some).mp after) below some
  · have size : argSize args n = (argument args n).length + 1 := argSize_some empty
    have place := argPlace_step terminated inside
    have laid' : StackLaid site.load.base low stack a.load.mem.pgdir := by
      rw [copied.mem]
      exact laid
    obtain ⟨load, wrote, written⟩ := writeStruct_written
      (fun k => args.getD (maxPath * n + k) 0) sound laid' (Nat.succ_pos _) fun k below =>
        argPlace_inStack terminated room inside (size.symm ▸ below)
    refine ⟨⟨a.argc + 1, argPlace args n, Function.update a.argv n (argPlace args n), load⟩,
      ?_, ?_⟩
    · rw [copyArg_some terminated inside empty copied.iRsp]
      exact Outcome.bind_ok.mpr ⟨load, wrote, rfl⟩
    · constructor
      case argc =>
        rw [argCount_step inside, if_neg empty]
        exact congrArg (· + 1) copied.argc
      case iRsp => rfl
      case argv =>
        intro i below
        dsimp only
        by_cases same : i = n
        · subst same
          rw [Function.update_self, if_pos ⟨le_rfl, empty⟩]
        · rw [Function.update_of_ne same, copied.argv i below]
          refine if_congr ?_ rfl rfl
          have later : n + 1 ≤ i ↔ n ≤ i := by omega
          rw [later]
      case mem => exact written.mem.trans copied.mem
      case copies =>
        intro i after below some k within
        rcases Nat.eq_or_lt_of_le after with rfl | later
        · rw [written.here k (Nat.lt_succ_of_le within)]
          exact getD_argument args _ within
        · -- the new copy is below the others
          have mono : argPlace args (n + 1) ≤ argPlace args i := argPlace_mono later below.le
          have member : InStack low (argPlace args i + k) := by
            refine argPlace_inStack terminated room below ?_
            rw [argSize_some some]
            exact Nat.lt_succ_of_le within
          rw [written.elsewhere _ member (by omega)]
          exact copied.copies i later below some k within

theorem copyArgs_copied (found : Nat → Nat) (sound : StackSite site low)
    (laid : StackLaid site.load.base low stack s.mem.pgdir) (terminated : Terminated args)
    (room : low ≤ argPlace args 0) :
    ∃ a, (List.range maxArgCount).reverse.foldlM (site.copyArg args)
        ⟨0, stackTop, found, s⟩ = .ok a ∧ Copied args found stack s 0 a := by
  have start : Copied args found stack s maxArgCount ⟨0, stackTop, found, s⟩ := by
    constructor
    case argc => rfl
    case iRsp => rfl
    case argv =>
      intro i below
      rw [if_neg]
      rintro ⟨above, -⟩
      exact absurd below (Nat.not_lt_of_le above)
    case mem => rfl
    case copies =>
      intro i above below
      exact absurd below (Nat.not_lt_of_le above)
  have run : ∀ n ≤ maxArgCount, ∀ a, Copied args found stack s n a →
      ∃ a', (List.range n).reverse.foldlM (site.copyArg args) a = .ok a' ∧
        Copied args found stack s 0 a' := by
    intro n
    induction n with
    | zero =>
      intro _ a copied
      exact ⟨a, rfl, copied⟩
    | succ n inductionHypothesis =>
      intro inside a copied
      obtain ⟨a₁, step, copied₁⟩ := copyArg_step sound laid terminated room inside copied
      obtain ⟨a', rest, done⟩ := inductionHypothesis (Nat.le_of_succ_le inside) a₁ copied₁
      refine ⟨a', ?_, done⟩
      rw [range_reverse_succ, List.foldlM_cons]
      exact Outcome.bind_ok.mpr ⟨a₁, step, rest⟩
  exact run maxArgCount le_rfl _ start

theorem writeStruct_mem {addr size : Nat} {bytes : Bytes} {s s' : LoadState}
    (done : site.writeStruct addr bytes size s = .ok s') : s'.mem = s.mem := by
  rw [ExecSite.writeStruct] at done
  split at done
  · refine Outcome.foldlM_mem (P := fun s' => s'.mem = s.mem) ?_ done rfl
    intro k _ s₁ s₂ same step
    split at step
    · cases step
    · cases step
      exact same
  · cases done
    rfl

/-- The stack pointer and the tables do not depend on what is mapped. -/
theorem copyArgs_pushed (terminated : Terminated args)
    (done : (List.range maxArgCount).reverse.foldlM (site.copyArg args) ⟨0, stackTop, found, s⟩ =
      .ok a) : a.iRsp = argPlace args 0 ∧ a.load.mem = s.mem := by
  have run : ∀ n ≤ maxArgCount, ∀ a', a'.iRsp = argPlace args n ∧ a'.load.mem = s.mem →
      (List.range n).reverse.foldlM (site.copyArg args) a' = .ok a →
        a.iRsp = argPlace args 0 ∧ a.load.mem = s.mem := by
    intro n
    induction n with
    | zero =>
      intro _ a' pushed done
      cases done
      exact pushed
    | succ n inductionHypothesis =>
      intro inside a' pushed done
      obtain ⟨iRsp, mem⟩ := pushed
      rw [range_reverse_succ, List.foldlM_cons] at done
      obtain ⟨a₁, step, rest⟩ := Outcome.bind_ok.mp done
      refine inductionHypothesis (Nat.le_of_succ_le inside) a₁ ?_ rest
      by_cases empty : argument args n = []
      · rw [copyArg_empty empty] at step
        cases step
        refine ⟨?_, mem⟩
        rw [iRsp, ← argPlace_step terminated inside, argSize_empty empty]
        rfl
      · rw [copyArg_some terminated inside empty iRsp] at step
        obtain ⟨load, wrote, ⟨⟩⟩ := Outcome.bind_ok.mp step
        exact ⟨rfl, (writeStruct_mem wrote).trans mem⟩
  exact run maxArgCount le_rfl _ ⟨rfl, rfl⟩ done

end Loop

end SwagOS.Kernel
