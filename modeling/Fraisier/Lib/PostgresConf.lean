import Fraisier.Lib.Text

/-!
# PostgreSQL's configuration files

The language of `postgresql.conf`. A line is empty, or it sets a parameter: a name, an optional `=`
and a value, which is a word, a number or a text in single quotes, and then maybe a comment. Names are
compared without regard to case. In quotes, a backslash escapes and a quote is written twice. The
directives `include`, `include_if_exists` and `include_dir` stand for the lines of other files. Of the
settings of one parameter the last one counts.

The files are `Files`, over any type of paths. A text is a list of characters; every character that is
not ASCII is a letter, as every byte from 0x80 on is.
-/

namespace Fraisier.Lib.PostgresConf

open Str

/-! ## Tokens -/

/-- A letter, or an underscore. -/
def isLetter (c : Char) : Bool := c.isAlpha || c == '_' || 0x80 ≤ c.toNat

/-- A letter or a digit. -/
def isLetterOrDigit (c : Char) : Bool := isLetter c || c.isDigit

/-- A character of an unquoted value. -/
def isWordChar (c : Char) : Bool := isLetterOrDigit c || ['-', '.', ':', '/'].contains c

/-- Blanks between tokens. -/
def isBlank (c : Char) : Bool := [' ', '\t', '\r'].contains c

/-- What stands after the blanks. -/
def skip (s : Str) : Str := s.dropWhile isBlank

/-- A letter, and then letters and digits. -/
def isId : Str → Bool
  | [] => false
  | c :: s => isLetter c && s.all isLetterOrDigit

/-- Two names with a dot between them. -/
def isQualifiedId (s : Str) : Bool :=
  let (before, dot, after) := s.partition '.'
  dot && isId before && isId after

/-- A letter, and then what an unquoted value may have, unless it is a qualified name. -/
def isWord : Str → Bool
  | [] => false
  | c :: s => isLetter c && s.all isWordChar && !isQualifiedId (c :: s)

/-- A number without its sign. -/
def unsigned : Str → Str
  | '-' :: s => s
  | '+' :: s => s
  | s => s

/-- Some characters of `p`, and then letters. -/
def isUnits (p : Char → Bool) (s : Str) : Bool :=
  !(s.takeWhile p).isEmpty && (s.dropWhile p).all Char.isAlpha

/-- An integer, in decimal or hexadecimal digits, with a unit. -/
def isInteger (s : Str) : Bool :=
  isUnits Char.isDigit (unsigned s) ||
    (unsigned s).startsWith ['0', 'x'] &&
      isUnits (fun c => c.isDigit || "abcdefABCDEF".toList.contains c) ((unsigned s).drop 2)

/-- A decimal fraction, maybe with an exponent. -/
def isReal (s : Str) : Bool :=
  match (unsigned s).dropWhile Char.isDigit with
  | '.' :: rest => match rest.dropWhile Char.isDigit with
    | [] => true
    | c :: exponent => ['e', 'E'].contains c && !(unsigned exponent).isEmpty &&
        (unsigned exponent).all Char.isDigit
  | _ => false

/-- What follows an opening quote: the text as it is written, and what stands after the closing
quote. -/
def quoted : Str → Option (Str × Str)
  | [] => none
  | '\'' :: '\'' :: s => (quoted s).map fun r => ('\'' :: '\'' :: r.1, r.2)
  | '\'' :: s => some ([], s)
  | '\\' :: c :: s => (quoted s).map fun r => ('\\' :: c :: r.1, r.2)
  | ['\\'] => none
  | c :: s => (quoted s).map fun r => (c :: r.1, r.2)

/-- What a letter stands for after a backslash. -/
def escaped : Char → Char
  | 'b' => '\x08'
  | 'f' => '\x0c'
  | 'n' => '\n'
  | 'r' => '\r'
  | 't' => '\t'
  | c => c

/-- The digits of an octal escape, at most three. -/
def octalDigits (s : Str) : Str := (s.take 3).takeWhile fun c => '0' ≤ c && c ≤ '7'

/-- The byte that they spell. -/
def octalByte (digits : Str) : Char :=
  .ofNat (digits.foldl (fun n c => 8 * n + (c.toNat - '0'.toNat)) 0 % 256)

/-- The text that is meant by a quoted one, from which as many characters are left out first. -/
def unescape : ℕ → Str → Str
  | _, [] => []
  | n + 1, _ :: s => unescape n s
  | 0, '\\' :: s => match octalDigits s with
    | [] => (s.head?.map escaped).toList ++ unescape 1 s
    | digits => octalByte digits :: unescape digits.length s
  | 0, '\'' :: '\'' :: s => '\'' :: unescape 0 s
  | 0, c :: s => c :: unescape 0 s

/-! ## Lines -/

/-- What a line says. -/
inductive Line
  | empty
  | setting (name value : Str)
  | syntaxError
  deriving DecidableEq, Repr

/-- Nothing follows but a comment. -/
def endsHere (s : Str) : Bool :=
  match skip s with
  | [] => true
  | c :: _ => c == '#'

/-- An unquoted value reaches up to a blank or a comment. -/
def inWord (c : Char) : Bool := !isBlank c && c != '#'

/-- The value that a line ends with. A text ends at a null character. -/
def parseValue : Str → Option Str
  | '\'' :: s => do
    let (raw, rest) ← quoted s
    if endsHere rest then some ((unescape 0 raw).takeWhile (· ≠ '\x00')) else none
  | s =>
    let word := s.takeWhile inWord
    if (isWord word || isInteger word || isReal word) && endsHere (s.dropWhile inWord) then some word
    else none

/-- What stands after the equal sign, if there is one. -/
def skipEquals (s : Str) : Str :=
  match skip s with
  | '=' :: s => skip s
  | s => s

/-- One line. -/
def parseLine (s : Str) : Line :=
  if endsHere s then .empty
  else
    let name := (skip s).takeWhile isWordChar
    if isId name || isQualifiedId name then
      match parseValue (skipEquals ((skip s).dropWhile isWordChar)) with
      | some value => .setting name value
      | none => .syntaxError
    else .syntaxError

/-! ## Files -/

/-- The files that a server reads. -/
structure Files (P : Type) where
  /-- The text of a file, if it can be read. -/
  read : P → Option Str
  /-- The file that a directive in a file names. -/
  locate : P → Str → P
  /-- The configuration files in a directory, in the order in which they are read. -/
  list : P → Option (List P)

/-- A setting, and the line it is made on. -/
structure Setting (P : Type) where
  file : P
  line : Str
  name : Str
  value : Str

/-- Names are compared so. -/
def fold (name : Str) : Str := name.map Char.toLower

variable {P : Type} (F : Files P)

/-- The settings that a line stands for. `other` reads another file. -/
def lineSettings (other : P → Option (List (Setting P))) (file : P) (line : Str) :
    Option (List (Setting P)) :=
  match parseLine line with
  | .empty => some []
  | .syntaxError => none
  | .setting name value =>
    if fold name = "include".toList then other (F.locate file value)
    else if fold name = "include_if_exists".toList then
      match F.read (F.locate file value) with
      | some _ => other (F.locate file value)
      | none => some []
    else if fold name = "include_dir".toList then do
      let files ← F.list (F.locate file value)
      let parts ← files.mapM other
      some parts.flatten
    else some [⟨file, line, name, value⟩]

/-- The settings that a file stands for, in order. Files may be included as deep as `depth`; `none`
when the server rejects them. -/
def settings : ℕ → P → Option (List (Setting P))
  | 0, _ => none
  | depth + 1, file => do
    let text ← F.read file
    let parts ← (text.splitOn '\n').mapM (lineSettings F (settings depth) file)
    some parts.flatten

/-- The setting of a parameter that counts. -/
def effective (name : Str) (all : List (Setting P)) : Option (Setting P) :=
  all.reverse.find? fun s => fold s.name = fold name

end Fraisier.Lib.PostgresConf
