import Mathlib.Data.List.TakeWhile
import Fraisier.Lib.Scanning
import Fraisier.Lib.SqlText

/-!
# SQL text with everything in it

The lexemes of a text in SQL, as the lexer of PostgreSQL takes them, blanks and comments included:
written one after the other they are the text (`flatMap_lexemes`). Comments nest, strings come in
their several forms, and what is never closed goes on to the end. A number is read digit by digit,
and an operator character by character.
-/

namespace Fraisier.Lib.SqlLexemes

open Str SqlText

/-- A part of a text. -/
inductive Lexeme
  | blank (c : Char)
  | comment (s : Str)
  /-- A keyword, or a name outside quotes. -/
  | word (w : Str)
  /-- A name in double quotes: what stands between them. -/
  | name (inner : Str)
  /-- A string, a dollar-quoted text, a name with Unicode escapes, or what is not closed. -/
  | literal (s : Str)
  | symbol (c : Char)
  deriving DecidableEq, Repr

/-- The lexeme as it is written. -/
def Lexeme.text : Lexeme → Str
  | .blank c => [c]
  | .comment s => s
  | .word w => w
  | .name inner => '"' :: inner ++ ['"']
  | .literal s => s
  | .symbol c => [c]

/-- A blank or a comment. -/
def Lexeme.isGap : Lexeme → Bool
  | .blank _ => true
  | .comment _ => true
  | _ => false

/-- A name in quotes as it is read: two quotes are one. -/
def unquoted : Str → Str
  | [] => []
  | [c] => [c]
  | c :: d :: s => if c = '"' ∧ d = '"' then '"' :: unquoted s else c :: unquoted (d :: s)

/-- The name that a lexeme is. -/
def Lexeme.ident? : Lexeme → Option Str
  | .word w => some (w.map Char.toLower)
  | .name inner => some (unquoted inner)
  | _ => none

/-! ## Where a lexeme ends -/

def isNewline (c : Char) : Bool := c = '\n' || c = '\r'

/-- How far it is to the end of a block comment that has so many open in it. -/
def blockLength : ℕ → Str → Option ℕ
  | _, [] => none
  | _, [_] => none
  | n, c :: d :: s =>
    if c = '/' ∧ d = '*' then (blockLength (n + 1) s).map (· + 2)
    else if c = '*' ∧ d = '/' then
      match n with
      | 0 => some 2
      | n + 1 => (blockLength n s).map (· + 2)
    else (blockLength n (d :: s)).map (· + 1)

/-- How far it is to the quote that goes on with a string, where only blanks, line comments and at
least one newline come before it. -/
def continued : (newline comment : Bool) → Str → Option ℕ
  | _, _, [] => none
  | newline, true, c :: s =>
    if isNewline c then (continued true false s).map (· + 1)
    else (continued newline true s).map (· + 1)
  | newline, false, c :: s =>
    if c = '\'' then if newline then some 1 else none
    else if isNewline c then (continued true false s).map (· + 1)
    else if isBlank c then (continued newline false s).map (· + 1)
    else if c = '-' ∧ s.head? = some '-' then (continued newline true s).map (· + 1)
    else none

/-- How far it is to the quote that closes a text. The first so many characters are left out. -/
def closing (q : Char) (escapes : Bool) : ℕ → Str → Option ℕ
  | _, [] => none
  | k + 1, _ :: s => (closing q escapes k s).map (· + 1)
  | 0, c :: s =>
    if escapes ∧ c = '\\' then (closing q escapes 1 s).map (· + 1)
    else if c ≠ q then (closing q escapes 0 s).map (· + 1)
    else if s.head? = some q then (closing q escapes 1 s).map (· + 1)
    else if escapes then
      match continued false false s with
      | none => some 1
      | some k => (closing q escapes k s).map (· + 1)
    else some 1

/-- How far it is to the end of a text that comes up. -/
def upTo (end_ : Str) : Str → Option ℕ
  | [] => none
  | c :: s => if end_.isPrefixOf (c :: s) then some end_.length else (upTo end_ s).map (· + 1)

/-- How far it is to the end of a dollar-quoted text, after its first dollar. -/
def dollarLength (s : Str) : Option (Option ℕ) :=
  let tag := if (s.head?.map isWordStart).getD false then
    s.takeWhile fun c => isWordStart c || c.isDigit else []
  match s.drop tag.length with
  | '$' :: body =>
    some ((upTo ('$' :: tag ++ ['$']) body).map (· + (tag.length + 1)))
  | _ => none

/-! ## Lexemes -/

/-- A lexeme that covers so many characters after the first, or all when it is not closed. -/
def covering (c : Char) (s : Str) (make : Str → Lexeme) : Option ℕ → Lexeme × ℕ
  | some k => (make (c :: s.take k), k)
  | none => (.literal (c :: s), s.length)

/-- What comes before the quote of a string. -/
def isStringMark (c : Char) : Bool := ['e', 'E', 'b', 'B', 'x', 'X'].contains c

/-- The lexeme that begins with a character, and how many it covers after that. -/
def lexeme (c : Char) (s : Str) : Lexeme × ℕ :=
  if isBlank c then (.blank c, 0)
  else if c = '-' ∧ s.head? = some '-' then
    covering c s .comment (some (s.takeWhile fun c => !isNewline c).length)
  else if c = '/' ∧ s.head? = some '*' then
    covering c s .comment ((blockLength 0 (s.drop 1)).map (· + 1))
  else if c = '"' then
    covering c s (fun s => .name (s.drop 1).dropLast) (closing '"' false 0 s)
  else if c = '\'' then covering c s .literal (closing '\'' false 0 s)
  else if isStringMark c ∧ s.head? = some '\'' then
    covering c s .literal ((closing '\'' (c = 'e' || c = 'E') 0 (s.drop 1)).map (· + 1))
  else if (c = 'u' ∨ c = 'U') ∧ (s.take 2 = ['&', '"'] ∨ s.take 2 = ['&', '\'']) then
    covering c s .literal ((closing ((s.drop 1).headD '"') false 0 (s.drop 2)).map (· + 2))
  else if isWordStart c then covering c s .word (some (s.takeWhile isWordChar).length)
  else if c = '$' then
    match dollarLength s with
    | some length => covering c s .literal length
    | none => (.symbol c, 0)
  else (.symbol c, 0)

/-- The lexemes of a text. -/
def lexemes (s : Str) : List Lexeme := pieces lexeme 0 s

example : lexemes "a\"b\"\"c\"/*/**/*/E'\\''$x$'$x$".toList = [.word ['a'], .name "b\"\"c".toList,
    .comment "/*/**/*/".toList, .literal "E'\\''".toList, .literal "$x$'$x$".toList] := by decide

/-! ## The text of the lexemes -/

variable {c q : Char} {s : Str} {make : Str → Lexeme} {length : Option ℕ}

/-- A lexeme covers its text. -/
theorem text_covering (h : ∀ k, length = some k → (make (c :: s.take k)).text = c :: s.take k) :
    (covering c s make length).1.text = c :: s.take (covering c s make length).2 := by
  cases length with
  | none =>
    rw [covering, List.take_length]
    rfl
  | some k => exact h k rfl

/-- A text that is closed ends with its quote. -/
theorem take_closing {k n : ℕ} (h : closing q false k s = some n) :
    ∃ inner, s.take n = inner ++ [q] := by
  induction s generalizing k n with
  | nil => cases k <;> nomatch h
  | cons c s ih =>
    -- A character that does not close the text is passed over.
    have hmore : ∀ {k}, (closing q false k s).map (· + 1) = some n →
        ∃ inner, (c :: s).take n = inner ++ [q] := by
      intro k hmap
      obtain ⟨m, hm, rfl⟩ := Option.map_eq_some_iff.mp hmap
      obtain ⟨inner, hinner⟩ := ih hm
      exact ⟨c :: inner, by rw [List.take_succ_cons, hinner]; rfl⟩
    cases k with
    | succ k => exact hmore h
    | zero =>
      rw [closing, if_neg (by simp)] at h
      split at h
      · exact hmore h
      · next hq =>
        split at h
        · exact hmore h
        · rw [if_neg (by simp)] at h
          obtain rfl := Option.some.inj h
          exact ⟨[], by rw [not_not.mp hq]; rfl⟩

/-- A lexeme is written as what it covers. -/
theorem text_lexeme (c : Char) (s : Str) :
    (lexeme c s).1.text = c :: s.take (lexeme c s).2 := by
  have hsymbol : ∀ {l : Lexeme}, l.text = [c] → l.text = c :: s.take 0 := fun h => h
  unfold lexeme
  split
  · exact hsymbol rfl
  split
  · exact text_covering fun _ _ => rfl
  split
  · exact text_covering fun _ _ => rfl
  split
  -- A quoted name is written with its quotes, which are then taken off.
  · next hquote =>
    refine text_covering fun k hk => ?_
    obtain ⟨inner, hinner⟩ := take_closing hk
    rw [hinner, List.drop_one, List.tail_cons, List.dropLast_concat, hquote]
    rfl
  split
  · exact text_covering fun _ _ => rfl
  split
  · exact text_covering fun _ _ => rfl
  split
  · exact text_covering fun _ _ => rfl
  split
  · exact text_covering fun _ _ => rfl
  split
  · split
    · exact text_covering fun _ _ => rfl
    · exact hsymbol rfl
  · exact hsymbol rfl

/-- The lexemes, one after the other, are the text. -/
theorem flatMap_lexemes (s : Str) : (lexemes s).flatMap Lexeme.text = s :=
  flatMap_pieces text_lexeme 0 s

/-- A name in quotes that has no quote in it is read as it is written. -/
theorem unquoted_eq (h : '"' ∉ s) : unquoted s = s := by
  induction s with
  | nil => rfl
  | cons c s ih =>
    rw [List.mem_cons, not_or] at h
    cases s with
    | nil => rfl
    | cons d s => rw [unquoted, if_neg fun hc => h.1 hc.1.symm, ih h.2]

end Fraisier.Lib.SqlLexemes
