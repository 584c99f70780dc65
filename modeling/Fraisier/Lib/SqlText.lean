import Fraisier.Lib.Text

/-!
# SQL text

The tokens of a statement, as the lexer of PostgreSQL takes them. A word outside quotes is folded to
lower case, and what stands in quotes is kept as it is, with its doubled quotes read as one. Comments
are left out, and a number is read digit by digit.

`run_append` takes a text apart, so that the tokens of a text with a name in it come from those of its
parts; `run_word` and `run_quote` are the two ways in which a name can stand there.
-/

namespace Fraisier.Lib.SqlText

open Str

/-! ## Tokens -/

/-- A token of a statement. -/
inductive Token
  /-- A keyword or a name, folded to lower case. -/
  | word (w : Str)
  /-- A name in double quotes. -/
  | name (s : Str)
  /-- A text in single quotes. -/
  | literal (s : Str)
  | symbol (c : Char)
  deriving DecidableEq, Repr

/-- What is being read. -/
inductive State
  | blank
  /-- A word, of which `w` has been read. -/
  | word (w : Str)
  /-- Inside the quotes `q`. -/
  | inside (q : Char) (s : Str)
  /-- After a quote that ends the text, unless another one follows. -/
  | closed (q : Char) (s : Str)
  deriving DecidableEq, Repr

def isBlank (c : Char) : Bool := c = ' ' || '\t' ≤ c && c ≤ '\r'

def isQuote (c : Char) : Bool := c = '"' || c = '\''

/-- A character that a word begins with. -/
def isWordStart (c : Char) : Bool := c.isAlpha || c = '_' || 0x80 ≤ c.toNat

/-- A character of a word. -/
def isWordChar (c : Char) : Bool := isWordStart c || c.isDigit || c = '$'

/-- What stands in quotes. -/
def ofQuote (q : Char) (s : Str) : Token := if q = '"' then .name s else .literal s

/-- A character that no token before it takes. -/
def start (c : Char) : List Token × State :=
  if isBlank c then ([], .blank)
  else if isWordStart c then ([], .word [c.toLower])
  else if isQuote c then ([], .inside c [])
  else ([.symbol c], .blank)

/-- One character: the tokens that are complete, and what is being read from there. -/
def step (c : Char) : State → List Token × State
  | .blank => start c
  | .word w =>
    if isWordChar c then ([], .word (w ++ [c.toLower])) else ((.word w :: (start c).1), (start c).2)
  | .inside q s => if c = q then ([], .closed q s) else ([], .inside q (s ++ [c]))
  | .closed q s =>
    if c = q then ([], .inside q (s ++ [c])) else ((ofQuote q s :: (start c).1), (start c).2)

/-- The tokens of a text, and what is being read at its end. -/
def run : State → Str → List Token × State
  | st, [] => ([], st)
  | st, c :: s => ((step c st).1 ++ (run (step c st).2 s).1, (run (step c st).2 s).2)

/-- The last token, unless the text ends inside quotes. -/
def finish : State → Option (List Token)
  | .blank => some []
  | .word w => some [.word w]
  | .inside _ _ => none
  | .closed q s => some [ofQuote q s]

/-- The tokens of a statement. -/
def tokens (s : Str) : Option (List Token) :=
  (finish (run .blank s).2).map ((run .blank s).1 ++ ·)

/-- A text in quotes, with the quotes in it doubled. -/
def quote (q : Char) (s : Str) : Str :=
  q :: s.flatMap (fun c => if c = q then [q, q] else [c]) ++ [q]

example : tokens "DROP Database \"A\"\"b\" -- 'it''s'".toList = some [.word "drop".toList,
    .word "database".toList, .name "A\"b".toList, .symbol '-', .symbol '-',
    .literal "it's".toList] := by decide

/-! ## Texts in parts -/

variable {st : State} {s t w : Str} {q c : Char}

attribute [local simp] run

/-- A text is run part by part. -/
theorem run_append (st : State) (s t : Str) :
    run st (s ++ t) = ((run st s).1 ++ (run (run st s).2 t).1, (run (run st s).2 t).2) := by
  induction s generalizing st with
  | nil => rfl
  | cons c s ih => rw [List.cons_append, run, ih, run, List.append_assoc]

/-- The rest of a word. -/
theorem run_word (hs : ∀ c ∈ s, isWordChar c = true) :
    run (.word w) s = ([], .word (w ++ s.map Char.toLower)) := by
  induction s generalizing w with
  | nil => rw [run, List.map_nil, List.append_nil]
  | cons c s ih =>
    obtain ⟨hc, hs⟩ := List.forall_mem_cons.mp hs
    have hstep : step c (.word w) = ([], .word (w ++ [c.toLower])) := if_pos hc
    rw [run, hstep, ih hs, List.map_cons, List.append_assoc]
    rfl

/-- A word. -/
theorem run_blank_word (hc : isWordStart c = true) (hblank : isBlank c = false)
    (hs : ∀ c ∈ s, isWordChar c = true) :
    run .blank (c :: s) = ([], .word ((c :: s).map Char.toLower)) := by
  have hstep : step c .blank = ([], .word [c.toLower]) := by
    rw [step, start, hblank, hc]
    rfl
  rw [run, hstep, run_word hs]
  rfl

/-- A text inside quotes, with its quotes doubled. -/
theorem run_inside (q : Char) (s t : Str) :
    run (.inside q s) (t.flatMap fun c => if c = q then [q, q] else [c]) =
      ([], .inside q (s ++ t)) := by
  induction t generalizing s with
  | nil => rw [List.flatMap_nil, run, List.append_nil]
  | cons c t ih =>
    have hchar : run (.inside q s) (if c = q then [q, q] else [c]) = ([], .inside q (s ++ [c])) := by
      by_cases hc : c = q
      · subst hc
        rw [if_pos rfl]
        simp [run, step]
      · rw [if_neg hc]
        simp [run, step, hc]
    rw [List.flatMap_cons, run_append, hchar, ih, List.append_assoc]
    rfl

/-- What is quoted comes back, whatever it is. -/
theorem run_quote (hq : isQuote q = true) (s : Str) : run .blank (quote q s) = ([], .closed q s) := by
  have hfresh : isBlank q = false ∧ isWordStart q = false := by
    obtain rfl | rfl : q = '"' ∨ q = '\'' := by simpa [isQuote] using hq
    all_goals decide
  have hstart : step q .blank = ([], .inside q []) := by
    rw [step, start, hfresh.1, hfresh.2, hq]
    rfl
  -- A quote inside is doubled, so only the last one closes.
  have hclose : run (.inside q s) [q] = ([], .closed q s) := by simp [run, step]
  calc run .blank (quote q s)
      = run (.inside q []) ((s.flatMap fun c => if c = q then [q, q] else [c]) ++ [q]) := by
        rw [quote, List.cons_append, run, hstart]
        rfl
    _ = ([], .closed q s) := by
        rw [run_append, run_inside]
        simp only [List.nil_append]
        rw [hclose]

end Fraisier.Lib.SqlText
