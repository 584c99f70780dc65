import Fraisier.Lib.Text

/-!
# Shell words

`shlex.split` of Python in its POSIX mode, without comments: the words of a command, with their
quotes and backslashes taken off. It raises when the text ends inside quotes or after a backslash.
-/

namespace Fraisier.Lib.Shlex

/-- What is read next. -/
inductive State
  /-- Between two words. -/
  | blank
  /-- In a word, outside quotes. -/
  | word
  /-- Inside the quotes `q`. -/
  | quoted (q : Char)
  /-- After a backslash, in a word (`none`) or inside the quotes `q`. -/
  | escaped (q : Option Char)
  deriving DecidableEq, Repr

/-- Why a text has no words. -/
inductive Error
  | noClosingQuotation | noEscapedCharacter
  deriving DecidableEq, Repr

/-- The whitespace of a shell. -/
def isBlank (c : Char) : Bool := c == ' ' || c == '\t' || c == '\r' || c == '\n'

/-- `'` and `"`. -/
def isQuote (c : Char) : Bool := c == '\'' || c == '"'

/-- The words of the rest of a text: `token` is the word that is being read, and `quoted` says
whether quotes were part of it. -/
def words : State → Str → Bool → Str → Except Error (List Str)
  | .blank, _, _, [] => .ok []
  | .word, token, quoted, [] => .ok (if token = [] ∧ quoted = false then [] else [token])
  | .quoted _, _, _, [] => .error .noClosingQuotation
  | .escaped _, _, _, [] => .error .noEscapedCharacter
  | .blank, token, quoted, c :: cs =>
    if isBlank c then words .blank token quoted cs
    else if c = '\\' then words (.escaped none) token quoted cs
    else if isQuote c then words (.quoted c) token quoted cs
    else words .word [c] quoted cs
  | .quoted q, token, _, c :: cs =>
    if c = q then words .word token true cs
    -- a backslash means something in double quotes only
    else if c = '\\' ∧ q = '"' then words (.escaped (some q)) token true cs
    else words (.quoted q) (token ++ [c]) true cs
  | .escaped none, token, quoted, c :: cs => words .word (token ++ [c]) quoted cs
  | .escaped (some q), token, quoted, c :: cs =>
    if c ≠ '\\' ∧ c ≠ q then words (.quoted q) (token ++ ['\\', c]) quoted cs
    else words (.quoted q) (token ++ [c]) quoted cs
  | .word, token, quoted, c :: cs =>
    if isBlank c then
      if token = [] ∧ quoted = false then words .blank [] false cs
      else (token :: ·) <$> words .blank [] false cs
    else if isQuote c then words (.quoted c) token quoted cs
    else if c = '\\' then words (.escaped none) token quoted cs
    else words .word (token ++ [c]) quoted cs

/-- `shlex.split`. -/
def split (s : Str) : Except Error (List Str) := words .blank [] false s

example : split "a '' \"b\\\"\\c\" d\\ e".toList =
    .ok ["a".toList, [], "b\"\\c".toList, "d e".toList] := by decide

end Fraisier.Lib.Shlex
