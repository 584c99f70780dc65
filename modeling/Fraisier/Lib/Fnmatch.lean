import Fraisier.Lib.Text

/-!
# Shell patterns

`fnmatch` of Python's standard library on a system whose file names are case-sensitive: `*` stands
for any text, `?` for one character, `[seq]` for one of a set and `[!seq]` for one that is not in it.
A `[` that is not closed stands for itself, and a `/` or a leading dot is like any other character.
-/

namespace Fraisier.Lib

namespace Str

/-- A piece of a pattern. -/
inductive Glob
  | star
  | any
  | literal (c : Char)
  /-- A set of characters, by the first and the last of each range. -/
  | oneOf (negated : Bool) (ranges : List (Char × Char))
  deriving DecidableEq, Repr

namespace Glob

/-- The ranges of what stands in brackets: `c-d`, or a character by itself. -/
def ranges : Str → List (Char × Char)
  | c :: '-' :: d :: s => (c, d) :: ranges s
  | c :: s => (c, c) :: ranges s
  | [] => []

/-- What stands in brackets, and how many characters that are with the closing one: a `!` and a `]`
may stand first. -/
def bracket (s : Str) : Option (Glob × ℕ) :=
  let negated := s.head? = some '!'
  let lead := if negated then 1 else 0
  let first := if (s.drop lead).head? = some ']' then 1 else 0
  let inner := (s.drop (lead + first)).takeWhile (· ≠ ']')
  let length := lead + first + inner.length
  if length < s.length then
    some (.oneOf negated (ranges ((s.take length).drop lead)), length + 1)
  else none

/-- The pieces of a pattern, with the characters that a bracket has taken already. -/
def parse : ℕ → Str → List Glob
  | _, [] => []
  | k + 1, _ :: s => parse k s
  | 0, '*' :: s => .star :: parse 0 s
  | 0, '?' :: s => .any :: parse 0 s
  | 0, '[' :: s =>
    match bracket s with
    | some (g, n) => g :: parse n s
    | none => .literal '[' :: parse 0 s
  | 0, c :: s => .literal c :: parse 0 s

/-- The piece stands for the character. -/
def accepts (c : Char) : Glob → Bool
  | .star => false
  | .any => true
  | .literal d => c = d
  | .oneOf negated ranges => (ranges.any fun r => r.1 ≤ c && c ≤ r.2) != negated

/-- The pieces stand for the text. -/
def stand : List Glob → Str → Bool
  | [], s => s.isEmpty
  | .star :: gs, s => s.tails.any (stand gs)
  | g :: gs, c :: s => g.accepts c && stand gs s
  | _ :: _, [] => false

end Glob

/-- `fnmatch.fnmatch(name, pattern)`. -/
def fnmatch (name pattern : Str) : Bool := Glob.stand (Glob.parse 0 pattern) name

example : fnmatch "db/migrations/001.sql".toList "db/*".toList = true ∧
    fnmatch "a1.py".toList "[!b]?.[o-q]y".toList = true ∧
    fnmatch "[a".toList "[a".toList = true ∧ fnmatch "src/a.py".toList "*.sql".toList = false := by
  decide

end Str

end Fraisier.Lib
