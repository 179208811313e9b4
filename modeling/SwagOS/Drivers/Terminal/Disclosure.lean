import SwagOS.Drivers.Terminal.Numbers

/-!
# What printing discloses

A text is printed from memory of which the reader knows a part, with some arguments that he
knows and, behind them, whatever lies where the next ones would be.  Two states that agree on
what he knows print the same if and only if the text, its conversions and the strings that
they print stay in that part.
-/

namespace SwagOS.Drivers

open SwagOS.Lib

/-- What `printf` reads: the memory, the stack and the registers of the kernel. -/
structure PrintState where
  ram : Bytes
  /-- What lies from the local buffer of a number on. -/
  stack : Bytes
  /-- What lies where the arguments behind the last one would be. -/
  registers : Nat → Nat

def vaArgs (given : List Nat) (registers : Nat → Nat) : Nat → Nat :=
  fun i => given.getD i (registers (i - given.length))

namespace PrintState

section Definitions

-- The physical address behind an address of the kernel, and the memory that the reader knows.
variable (place : Nat → Option Nat) (Known : Nat → Prop)

def memory (s : PrintState) : PrintMemory := ⟨fun va => (place va).map s.ram, s.stack⟩

def print (s : PrintState) (percent : Bool) (given fmt : List Nat) : Output UInt8 :=
  printf (s.memory place) percent (vaArgs given s.registers) (fmt.map s.ram)

def printString (s : PrintState) (fuel str : Nat) : Output UInt8 :=
  terminalPrintString (s.memory place).kernel fuel str

def Agrees (s s' : PrintState) : Prop := ∀ p, Known p → s'.ram p = s.ram p

def StringDiscreet (s : PrintState) : Nat → Nat → Prop
  | 0, _ => True
  | fuel + 1, str =>
      match place str with
      | none => True
      | some p => Known p ∧ (s.ram p = 0 ∨ StringDiscreet s fuel (str + 1))

/-- The bytes of the text are known, its conversions have their arguments, and these print
what is known; behind the conversion at which the kernel faults nothing matters. -/
def Discreet (s : PrintState) : Bool → List Nat → List Nat → Prop
  | _, _, [] => True
  | percent, given, p :: rest =>
      Known p ∧
        if s.ram p = 0 then True
        else if percent ∧ s.ram p = 100 then
          match given with
          | [] => False
          | _ :: later => Discreet s false later rest
        else if percent ∧ s.ram p = 117 then
          match given with
          | [] => False
          | arg :: later => ¬TooLong (.ofNat 64 arg) ∧ Discreet s false later rest
        else if percent ∧ s.ram p = 115 then
          match given with
          | [] => ∀ va, place va = none
          | arg :: later =>
              StringDiscreet place Known s stringFuel arg ∧
                ((s.printString place stringFuel arg).ended = none → Discreet s false later rest)
        else if s.ram p = 37 then Discreet s true given rest
        else Discreet s false given rest

end Definitions

@[simp] theorem vaArgs_head (arg : Nat) (later : List Nat) (registers : Nat → Nat) :
    vaArgs (arg :: later) registers 0 = arg := rfl

theorem vaArgs_tail (arg : Nat) (later : List Nat) (registers : Nat → Nat) :
    (fun i => vaArgs (arg :: later) registers (i + 1)) = vaArgs later registers := by
  funext i
  simp [vaArgs]

@[simp] theorem vaArgs_nil (registers : Nat → Nat) : vaArgs [] registers = registers := by
  funext i
  simp [vaArgs]

/-- What a character of a text is, behind a `%` or not. -/
inductive Character : Bool → UInt8 → Prop where
  | nul {percent : Bool} : Character percent 0
  | int : Character true 100
  | long : Character true 117
  | string : Character true 115
  | percent {percent : Bool} : Character percent 37
  | plain {percent : Bool} {c : UInt8} : c ≠ 0 → c ≠ 37 →
      (percent = true → c ≠ 100 ∧ c ≠ 117 ∧ c ≠ 115) → Character percent c

theorem character (percent : Bool) (c : UInt8) : Character percent c := by
  by_cases nul : c = 0
  · subst nul
    exact .nul
  by_cases sign : c = 37
  · subst sign
    exact .percent
  cases percent with
  | false => exact .plain nul sign fun never => by cases never
  | true =>
    by_cases int : c = 100
    · subst int
      exact .int
    by_cases long : c = 117
    · subst long
      exact .long
    by_cases string : c = 115
    · subst string
      exact .string
    exact .plain nul sign fun _ => ⟨int, long, string⟩

section Steps

variable {memory : PrintMemory} {percent : Bool} {args : Nat → Nat} {c : UInt8}
  {rest : List UInt8}

theorem printf_nul : printf memory percent args (0 :: rest) = .stop none := by
  unfold printf
  exact if_pos rfl

theorem printf_int : printf memory true args (100 :: rest) =
    (printf memory false (fun i => args (i + 1)) rest).put (intText (.ofNat 32 (args 0))) := by
  rw [printf, if_neg (by decide), if_pos (by decide), handleFormatInt_eq, Output.put_seq,
    Output.stop_seq]

theorem printf_long : printf memory true args (117 :: rest) =
    (handleFormatLong memory.stack (.ofNat 64 (args 0))).seq
      (printf memory false (fun i => args (i + 1)) rest) := by
  rw [printf, if_neg (by decide), if_neg (by decide), if_pos (by decide)]

theorem printf_string : printf memory true args (115 :: rest) =
    (terminalPrintString memory.kernel stringFuel (args 0)).seq
      (printf memory false (fun i => args (i + 1)) rest) := by
  rw [printf, if_neg (by decide), if_neg (by decide), if_neg (by decide), if_pos (by decide)]

theorem printf_percent : printf memory percent args (37 :: rest) = printf memory true args rest := by
  rw [printf, if_neg (by decide), if_neg (by simp), if_neg (by simp), if_neg (by simp), if_pos rfl]

theorem printf_char (notNul : c ≠ 0) (notPercent : c ≠ 37)
    (plain : percent = true → c ≠ 100 ∧ c ≠ 117 ∧ c ≠ 115) :
    printf memory percent args (c :: rest) = (printf memory false args rest).put [c] := by
  rw [printf, if_neg notNul, if_neg, if_neg, if_neg, if_neg notPercent]
  · exact fun both => (plain both.1).2.2 both.2
  · exact fun both => (plain both.1).2.1 both.2
  · exact fun both => (plain both.1).1 both.2

end Steps

section Same

variable {place : Nat → Option Nat} {Known : Nat → Prop} {s s' : PrintState}
  {f g : PrintState → Output UInt8} {values : List UInt8}

theorem Agrees.refl : Agrees Known s s := fun _ _ => rfl

def Same (Known : Nat → Prop) (s : PrintState) (f : PrintState → Output UInt8) : Prop :=
  ∀ s', Agrees Known s s' → f s' = f s

theorem same_congr (equal : ∀ s', Agrees Known s s' → f s' = g s') :
    Same Known s f ↔ Same Known s g := by
  have here := equal s .refl
  constructor
  · intro same s' agrees
    rw [← equal s' agrees, ← here]
    exact same s' agrees
  · intro same s' agrees
    rw [equal s' agrees, here]
    exact same s' agrees

theorem same_const (o : Output UInt8) : Same Known s fun _ => o := fun _ _ => rfl

theorem same_put : Same Known s (fun s' => (f s').put values) ↔ Same Known s f :=
  forall_congr' fun _ => imp_congr_right fun _ => Output.put_inj

theorem not_same {a b : UInt8} (apart : a ≠ b) (starts : ∀ c, c = a ∨ c = b →
    ∃ s', Agrees Known s s' ∧ ∃ l, (f s').written = c :: l) : ¬Same Known s f := by
  intro same
  have only : ∀ c, c = a ∨ c = b → (f s).written.head? = some c := by
    intro c either
    obtain ⟨s', agrees, l, written⟩ := starts c either
    rw [← same s' agrees, written]
    rfl
  have first := only a (.inl rfl)
  rw [only b (.inr rfl)] at first
  exact apart (Option.some.inj first).symm

def withByte (s : PrintState) (p : Nat) (c : UInt8) : PrintState :=
  { s with ram := Function.update s.ram p c }

def withRegister (s : PrintState) (n : Nat) : PrintState := { s with registers := fun _ => n }

@[simp] theorem withByte_self (p : Nat) (c : UInt8) : (s.withByte p c).ram p = c := by
  unfold withByte
  exact Function.update_self ..

theorem agrees_withByte {p : Nat} (unknown : ¬Known p) (c : UInt8) :
    Agrees Known s (s.withByte p c) := by
  intro q known
  have apart : q ≠ p := fun same => unknown (same ▸ known)
  exact Function.update_of_ne apart c s.ram

end Same

section Strings

variable {place : Nat → Option Nat} {Known : Nat → Prop} {s : PrintState}

theorem printString_unmapped {fuel str : Nat} (unmapped : place str = none) (s : PrintState) :
    s.printString place (fuel + 1) str = .stop (some (.panic "Page Fault Interrupt")) := by
  have read : (s.memory place).kernel str = none := by
    change (place str).map s.ram = none
    rw [unmapped, Option.map_none]
  unfold printString terminalPrintString
  rw [read]

theorem printString_mapped {fuel str p : Nat} (here : place str = some p) (s : PrintState) :
    s.printString place (fuel + 1) str =
      if s.ram p = 0 then .stop none
      else (s.printString place fuel (str + 1)).put [s.ram p] := by
  have read : (s.memory place).kernel str = some (s.ram p) := by
    change (place str).map s.ram = some (s.ram p)
    rw [here, Option.map_some]
  unfold printString
  rw [terminalPrintString, read]

theorem same_string {next : PrintState → Output UInt8} (fuel str : Nat) :
    Same Known s (fun s' => (s'.printString place fuel str).seq (next s')) ↔
      StringDiscreet place Known s fuel str ∧
        ((s.printString place fuel str).ended = none → Same Known s next) := by
  induction fuel generalizing str with
  | zero =>
    refine iff_of_true (same_const (.stop (some .hang))) ⟨trivial, ?_⟩
    intro never
    cases never
  | succ fuel inductionHypothesis =>
    unfold StringDiscreet
    cases here : place str with
    | none =>
      have faults : ∀ s' : PrintState, s'.printString place (fuel + 1) str =
          .stop (some (.panic "Page Fault Interrupt")) := printString_unmapped here
      refine iff_of_true ?_ ⟨trivial, ?_⟩
      · intro s' agrees
        simp only [faults]
        rfl
      · intro never
        rw [faults] at never
        cases never
    | some p =>
      have step : ∀ s' : PrintState, s'.printString place (fuel + 1) str =
          if s'.ram p = 0 then .stop none
          else (s'.printString place fuel (str + 1)).put [s'.ram p] := printString_mapped here
      dsimp only
      by_cases known : Known p
      · by_cases nul : s.ram p = 0
        · have ends : ∀ s', Agrees Known s s' →
              (s'.printString place (fuel + 1) str).seq (next s') = next s' := by
            intro s' agrees
            rw [step, if_pos ((agrees p known).trans nul), Output.stop_seq]
          rw [same_congr ends]
          constructor
          · exact fun same => ⟨⟨known, .inl nul⟩, fun _ => same⟩
          · rintro ⟨-, same⟩
            apply same
            rw [step, if_pos nul]
            rfl
        · have goesOn : ∀ s', Agrees Known s s' →
              (s'.printString place (fuel + 1) str).seq (next s') =
                ((s'.printString place fuel (str + 1)).seq (next s')).put [s.ram p] := by
            intro s' agrees
            have byte := agrees p known
            rw [step, if_neg (byte ▸ nul), byte, Output.put_seq]
          rw [same_congr goesOn, same_put, inductionHypothesis, and_iff_right known,
            or_iff_right nul, step, if_neg nul]
          rfl
      · have starts : ∀ c : UInt8, c = 88 ∨ c = 89 → ∃ s', Agrees Known s s' ∧
            ∃ l, ((s'.printString place (fuel + 1) str).seq (next s')).written = c :: l := by
          intro c either
          have isChar : c ≠ 0 := by rcases either with rfl | rfl <;> decide
          refine ⟨s.withByte p c, agrees_withByte known c, ?_⟩
          rw [step, withByte_self, if_neg isChar, Output.put_seq]
          exact ⟨_, rfl⟩
        refine iff_of_false (not_same (by decide) starts) ?_
        rintro ⟨⟨isKnown, -⟩, -⟩
        exact known isKnown

end Strings

section Texts

variable {place : Nat → Option Nat} {Known : Nat → Prop} {s : PrintState} {percent : Bool}
  {given rest : List Nat} {p arg : Nat}

theorem same_int (int : ∀ s', Agrees Known s s' → s'.ram p = 100) :
    (Same Known s fun s' => s'.print place true (arg :: given) (p :: rest)) ↔
      Same Known s fun s' => s'.print place false given rest := by
  have step : ∀ s', Agrees Known s s' → s'.print place true (arg :: given) (p :: rest) =
      (s'.print place false given rest).put (intText (.ofNat 32 arg)) := by
    intro s' agrees
    unfold print
    rw [List.map_cons, int s' agrees, printf_int, vaArgs_tail, vaArgs_head]
  rw [same_congr step, same_put]

theorem not_same_int (int : ∀ s', Agrees Known s s' → s'.ram p = 100) :
    ¬Same Known s fun s' => s'.print place true [] (p :: rest) := by
  have starts : ∀ c : UInt8, c = 48 ∨ c = 49 → ∃ s', Agrees Known s s' ∧
      ∃ l, (s'.print place true [] (p :: rest)).written = c :: l := by
    intro c either
    have text : ∃ n, intText (.ofNat 32 n) = [c] := by
      rcases either with rfl | rfl
      · exact ⟨0, rfl⟩
      · exact ⟨1, by decide⟩
    obtain ⟨n, text⟩ := text
    refine ⟨s.withRegister n, fun _ _ => rfl, ?_⟩
    have argument : (s.withRegister n).registers 0 = n := rfl
    unfold print
    rw [List.map_cons, int (s.withRegister n) fun _ _ => rfl, printf_int, vaArgs_nil, argument,
      text]
    exact ⟨_, rfl⟩
  exact not_same (by decide) starts

theorem same_long (long : ∀ s', Agrees Known s s' → s'.ram p = 117) :
    (Same Known s fun s' => s'.print place true (arg :: given) (p :: rest)) ↔
      ¬TooLong (.ofNat 64 arg) ∧ Same Known s fun s' => s'.print place false given rest := by
  have step : ∀ s', Agrees Known s s' → s'.print place true (arg :: given) (p :: rest) =
      (handleFormatLong s'.stack (.ofNat 64 arg)).seq (s'.print place false given rest) := by
    intro s' agrees
    unfold print
    rw [List.map_cons, long s' agrees, printf_long, vaArgs_tail, vaArgs_head]
    rfl
  rw [same_congr step]
  by_cases tooLong : TooLong (.ofNat 64 arg)
  · obtain ⟨digits, n, -, printed⟩ := handleFormatLong_tooLong tooLong
    refine iff_of_false ?_ fun both => both.1 tooLong
    -- What follows the digits comes from the stack.
    have text : ∀ s', Agrees Known s s' →
        (handleFormatLong s'.stack (.ofNat 64 arg)).seq (s'.print place false given rest) =
          (({ terminalPrintString (fun q => some (s'.stack q)) (n + 1) (2 ^ 16) with
            strayed := true } : Output UInt8).seq (s'.print place false given rest)).put digits := by
      intro s' _
      rw [printed, ← Output.put_seq]
      rfl
    rw [same_congr text, same_put]
    have starts : ∀ c : UInt8, c = 88 ∨ c = 89 → ∃ s', Agrees Known s s' ∧
        ∃ l, (({ terminalPrintString (fun q => some (s'.stack q)) (n + 1) (2 ^ 16) with
          strayed := true } : Output UInt8).seq (s'.print place false given rest)).written =
            c :: l := by
      intro c either
      have isChar : c ≠ 0 := by rcases either with rfl | rfl <;> decide
      have agrees : Agrees Known s { s with stack := fun _ => c } := fun _ _ => rfl
      refine ⟨_, agrees, ?_⟩
      rw [terminalPrintString]
      dsimp only
      rw [if_neg isChar]
      unfold Output.seq Output.put
      dsimp only
      split
      · exact ⟨_, rfl⟩
      · exact ⟨_, rfl⟩
    exact not_same (by decide) starts
  · rw [and_iff_right tooLong]
    have text : ∀ s', Agrees Known s s' →
        (handleFormatLong s'.stack (.ofNat 64 arg)).seq (s'.print place false given rest) =
          (s'.print place false given rest).put (longText (.ofNat 64 arg)) := by
      intro s' _
      rw [handleFormatLong_eq _ tooLong, Output.put_seq, Output.stop_seq]
    rw [same_congr text, same_put]

theorem not_same_long (long : ∀ s', Agrees Known s s' → s'.ram p = 117) :
    ¬Same Known s fun s' => s'.print place true [] (p :: rest) := by
  have starts : ∀ c : UInt8, c = 48 ∨ c = 49 → ∃ s', Agrees Known s s' ∧
      ∃ l, (s'.print place true [] (p :: rest)).written = c :: l := by
    intro c either
    have text : ∃ n, ¬TooLong (.ofNat 64 n) ∧ longText (.ofNat 64 n) = [c] := by
      rcases either with rfl | rfl
      · exact ⟨0, by decide, rfl⟩
      · exact ⟨1, by decide, by decide⟩
    obtain ⟨n, short, text⟩ := text
    refine ⟨s.withRegister n, fun _ _ => rfl, ?_⟩
    have argument : (s.withRegister n).registers 0 = n := rfl
    unfold print
    rw [List.map_cons, long (s.withRegister n) fun _ _ => rfl, printf_long, vaArgs_nil, argument,
      handleFormatLong_eq _ short, text, Output.put_seq]
    exact ⟨_, rfl⟩
  exact not_same (by decide) starts

theorem same_text (text : ∀ s', Agrees Known s s' → s'.ram p = 115) :
    (Same Known s fun s' => s'.print place true (arg :: given) (p :: rest)) ↔
      StringDiscreet place Known s stringFuel arg ∧
        ((s.printString place stringFuel arg).ended = none →
          Same Known s fun s' => s'.print place false given rest) := by
  have step : ∀ s', Agrees Known s s' → s'.print place true (arg :: given) (p :: rest) =
      (s'.printString place stringFuel arg).seq (s'.print place false given rest) := by
    intro s' agrees
    unfold print
    rw [List.map_cons, text s' agrees, printf_string, vaArgs_tail, vaArgs_head]
    rfl
  rw [same_congr step, same_string]

theorem stringFuel_succ : ∃ n, stringFuel = n + 1 := ⟨2 ^ 32 - 1, by decide⟩

/-- If every argument is a pointer to an empty string, then `printf` prints something or
returns. -/
theorem printf_returns {memory : PrintMemory} {pointer : Nat}
    (empty : memory.kernel pointer = some 0) {fmt : List UInt8}
    (nothing : (printf memory percent (fun _ => pointer) fmt).written = []) :
    (printf memory percent (fun _ => pointer) fmt).ended = none := by
  induction fmt generalizing percent with
  | nil => rfl
  | cons c rest inductionHypothesis =>
    cases character percent c with
    | nul =>
      rw [printf_nul]
      rfl
    | int =>
      rw [printf_int, Output.put_written] at nothing
      exact absurd (List.append_eq_nil_iff.mp nothing).1 (intText_ne_nil _)
    | long =>
      rw [printf_long] at nothing
      exact absurd (Output.seq_nil nothing).1 (handleFormatLong_written _ _)
    | string =>
      have ends : terminalPrintString memory.kernel stringFuel pointer = .stop none := by
        obtain ⟨n, fuel⟩ := stringFuel_succ
        rw [fuel, terminalPrintString_end empty]
      rw [printf_string, ends, Output.stop_seq] at nothing ⊢
      exact inductionHypothesis nothing
    | percent =>
      rw [printf_percent] at nothing ⊢
      exact inductionHypothesis nothing
    | plain notNul notPercent plain =>
      rw [printf_char notNul notPercent plain] at nothing
      cases nothing

theorem printString_faults {str : Nat} (unmapped : place str = none) (s : PrintState) :
    s.printString place stringFuel str = .stop (some (.panic "Page Fault Interrupt")) := by
  obtain ⟨n, fuel⟩ := stringFuel_succ
  rw [fuel, printString_unmapped unmapped]

/-- `%s` without an argument: whatever pointer is there, or a page fault in any case. -/
theorem same_text_nil {hole : Nat} (unmapped : place hole = none)
    (text : ∀ s', Agrees Known s s' → s'.ram p = 115) :
    (Same Known s fun s' => s'.print place true [] (p :: rest)) ↔ ∀ va, place va = none := by
  have step : ∀ n, (s.withRegister n).print place true [] (p :: rest) =
      (s.printString place stringFuel n).seq
        (printf (s.memory place) false (fun _ => n) (rest.map s.ram)) := by
    intro n
    have ram : (s.withRegister n).ram = s.ram := rfl
    have memory : (s.withRegister n).memory place = s.memory place := rfl
    unfold print printString
    rw [List.map_cons, text (s.withRegister n) fun _ _ => rfl, printf_string, vaArgs_nil, ram,
      memory]
    rfl
  constructor
  · intro same va
    by_contra isMapped
    obtain ⟨q, here⟩ := Option.ne_none_iff_exists'.mp isMapped
    have withPointer : ∀ n, Agrees Known s (s.withRegister n) := fun _ _ _ => rfl
    -- With the hole for an argument nothing is printed, and `printf` does not return.
    have stuck := (same _ (withPointer va)).trans (same _ (withPointer hole)).symm
    dsimp only at stuck
    rw [step va, step hole, printString_faults unmapped, Output.stop_some_seq] at stuck
    obtain ⟨nothing, later⟩ := Output.seq_nil (congrArg Output.written stuck)
    have ended := congrArg Output.ended stuck
    obtain ⟨n, fuel⟩ := stringFuel_succ
    by_cases empty : s.ram q = 0
    · have read : (s.memory place).kernel va = some 0 := by
        change (place va).map s.ram = some 0
        rw [here, Option.map_some, empty]
      have string : s.printString place stringFuel va = .stop none := by
        unfold printString
        rw [fuel]
        exact terminalPrintString_end read
      rw [string, Output.stop_seq] at ended
      rw [string] at later
      rw [printf_returns read (later rfl)] at ended
      cases ended
    · rw [fuel, printString_mapped here, if_neg empty] at nothing
      cases nothing
  · intro nothing
    have faults : ∀ s', Agrees Known s s' → s'.print place true [] (p :: rest) =
        .stop (some (.panic "Page Fault Interrupt")) := by
      intro s' agrees
      have string := printString_faults (nothing (s'.registers 0)) s'
      unfold printString at string
      unfold print
      rw [List.map_cons, text s' agrees, printf_string, vaArgs_nil, string, Output.stop_some_seq]
    exact (same_congr faults).mpr (same_const _)

/-- States that agree on what is known print the same if and only if the text is discreet. -/
theorem same_print_iff {hole : Nat} (unmapped : place hole = none) (fmt : List Nat) :
    (Same Known s fun s' => s'.print place percent given fmt) ↔
      Discreet place Known s percent given fmt := by
  induction fmt generalizing percent given with
  | nil => exact iff_of_true (same_const (.stop none)) trivial
  | cons p rest inductionHypothesis =>
    unfold Discreet
    by_cases known : Known p
    · rw [and_iff_right known]
      have kind := character percent (s.ram p)
      have agree : ∀ s', Agrees Known s s' → s'.ram p = s.ram p := fun s' agrees => agrees p known
      generalize s.ram p = c at kind agree ⊢
      cases kind with
      | nul =>
        have ends : ∀ s', Agrees Known s s' → s'.print place percent given (p :: rest) =
            .stop none := by
          intro s' agrees
          unfold print
          rw [List.map_cons, agree s' agrees, printf_nul]
        rw [if_pos rfl]
        exact iff_of_true ((same_congr ends).mpr (same_const _)) trivial
      | int =>
        rw [if_neg (by decide), if_pos (by decide)]
        cases given with
        | nil => exact iff_of_false (not_same_int agree) id
        | cons arg later => exact (same_int agree).trans inductionHypothesis
      | long =>
        rw [if_neg (by decide), if_neg (by decide), if_pos (by decide)]
        cases given with
        | nil => exact iff_of_false (not_same_long agree) id
        | cons arg later => exact (same_long agree).trans (and_congr_right fun _ => inductionHypothesis)
      | string =>
        rw [if_neg (by decide), if_neg (by decide), if_neg (by decide), if_pos (by decide)]
        cases given with
        | nil => exact same_text_nil unmapped agree
        | cons arg later =>
          exact (same_text agree).trans
            (and_congr_right fun _ => imp_congr_right fun _ => inductionHypothesis)
      | percent =>
        have step : ∀ s', Agrees Known s s' → s'.print place percent given (p :: rest) =
            s'.print place true given rest := by
          intro s' agrees
          unfold print
          rw [List.map_cons, agree s' agrees, printf_percent]
        rw [if_neg (by decide), if_neg (by simp), if_neg (by simp), if_neg (by simp), if_pos rfl,
          same_congr step, inductionHypothesis]
      | plain notNul notPercent plain =>
        have step : ∀ s', Agrees Known s s' → s'.print place percent given (p :: rest) =
            (s'.print place false given rest).put [c] := by
          intro s' agrees
          unfold print
          rw [List.map_cons, agree s' agrees, printf_char notNul notPercent plain]
        rw [if_neg notNul, if_neg fun both => (plain both.1).1 both.2,
          if_neg fun both => (plain both.1).2.1 both.2, if_neg fun both => (plain both.1).2.2 both.2,
          if_neg notPercent, same_congr step, same_put, inductionHypothesis]
    · have starts : ∀ c : UInt8, c = 88 ∨ c = 89 → ∃ s', Agrees Known s s' ∧
          ∃ l, (s'.print place percent given (p :: rest)).written = c :: l := by
        intro c either
        have plain : c ≠ 0 ∧ c ≠ 37 ∧ (percent = true → c ≠ 100 ∧ c ≠ 117 ∧ c ≠ 115) := by
          rcases either with rfl | rfl <;> simp
        refine ⟨s.withByte p c, agrees_withByte known c, ?_⟩
        unfold print
        rw [List.map_cons, withByte_self, printf_char plain.1 plain.2.1 plain.2.2]
        exact ⟨_, rfl⟩
      exact iff_of_false (not_same (by decide) starts) fun both => known both.1

end Texts

end PrintState

end SwagOS.Drivers
