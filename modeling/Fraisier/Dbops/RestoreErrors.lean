import Fraisier.Lib.Fallible
import Fraisier.Lib.Lines
import Fraisier.Dbops.ConfitureContract

/-!
# The errors of a schema restore

`PreflightDatabase.restore_schema` of `dbops/preflight.py` after `psql -f` has run: `psql` exits 0
when a statement of the file failed, so the failures are read from its standard error, less those of
a line that shows a session setting of the dump's header.
-/

namespace Fraisier.Dbops

open Fraisier.Lib Str

/-! ## Messages of psql -/

/-- What `_PSQL_MESSAGE_LINE` finds in a line. -/
structure PsqlMessage where
  line : Str
  sqlstate : Str
  message : Str

/-- `[0-9A-Z]`. -/
def isSqlstateChar (c : Char) : Bool := inRanges [(0x30, 0x39), (0x41, 0x5a)] c

/-- What follows `.+` in `_PSQL_MESSAGE_LINE`, matched at the beginning of a text. -/
def messageAt (s : Str) : Option PsqlMessage :=
  match s with
  | ':' :: s =>
    let line := s.takeWhile isDecimal
    match s.dropWhile isDecimal with
    | ':' :: ' ' :: s =>
      let severity := s.takeWhile (· ≠ ':')
      match s.dropWhile (· ≠ ':') with
      | _ :: s =>
        let sqlstate := (s.dropWhile isSpace).take 5
        match (s.dropWhile isSpace).drop 5 with
        | ':' :: ' ' :: message =>
          if line = [] ∨ severity = [] ∨ s.takeWhile isSpace = [] ∨
            sqlstate.all isSqlstateChar = false then none
          else some { line, sqlstate, message }
        | _ => none
      | [] => none
    | _ => none
  | _ => none

/-- It matched at the last place where it does: `.+` is greedy. -/
def lastMessage : Str → Option PsqlMessage
  | [] => none
  | c :: s => (lastMessage s).or (messageAt (c :: s))

/-- `_PSQL_MESSAGE_LINE.match`, of a line, which has no newline in it. -/
def psqlMessage (line : Str) : Option PsqlMessage :=
  if line.startsWith "psql:".toList then lastMessage (line.drop 6) else none

/-- `_NOT_AN_ERROR`. -/
def notAnError : List Str := ["00".toList, "01".toList, "02".toList]

/-! ## Inert statements -/

/-- A letter of a pattern, under `re.IGNORECASE`. -/
def sameLetter (letter c : Char) : Bool :=
  c.toLower == letter.toLower || letter.toLower == 's' && c == 'ſ' ||
    letter.toLower == 'i' && (c == 'İ' || c == 'ı')

/-- What follows a word of a pattern, under `re.IGNORECASE`. -/
def afterWord : (word s : Str) → Option Str
  | [], s => some s
  | letter :: word, c :: s => if sameLetter letter c then afterWord word s else none
  | _ :: _, [] => none

/-- `_INERT_STATEMENT.match`. -/
def inertStatement (s : Str) : Bool :=
  let s := s.dropWhile isSpace
  let set := match afterWord "SET".toList s with
    | some (c :: _) => isSpace c
    | _ => false
  let select := match afterWord "SELECT".toList s with
    | some (c :: s) => isSpace c &&
        match afterWord "pg_catalog.set_config".toList (s.dropWhile isSpace) with
        | some s => (s.dropWhile isSpace).head? == some '('
        | none => false
    | _ => false
  set || select

/-- The text is a complete statement that is inert. -/
def isComplete (line : Str) : Bool := line.strip.endsWith [';'] && inertStatement line.strip

/-- `_statement_is_inert`. -/
def statementIsInert (schemaLines : List Str) (lineNumber : ℕ) : Bool :=
  if 1 ≤ lineNumber then (schemaLines[lineNumber - 1]?).any isComplete else false

/-! ## The errors -/

/-- The messages of an error class. -/
def errorMessages (stderr : Str) : List PsqlMessage :=
  (stderr.splitlines.filterMap psqlMessage).filter fun m => m.sqlstate.take 2 ∉ notAnError

/-- An entry for a message. -/
def entryOf (m : PsqlMessage) : Str :=
  "line ".toList ++ m.line ++ ": ".toList ++ m.sqlstate ++ ": ".toList ++ m.message

/-- What `restore_schema` raises. -/
inductive RestoreRaised
  /-- A `DatabaseError` with all that `psql` wrote. -/
  | failed (stderr : Str)
  /-- A `DatabaseError` with the number of errors, the first five and how many there are more. -/
  | incomplete (count : ℕ) (listed : List Str) (more : Option ℕ)
  /-- The `ValueError` of `int`, of a number that is too long. -/
  | valueError

/-- The entry for a message, unless it is about an inert statement. -/
def entry (schemaLines : List Str) (m : PsqlMessage) : Except RestoreRaised (Option Str) :=
  match toInt m.line with
  | none => .error .valueError
  | some n => .ok (if statementIsInert schemaLines n then none else some (entryOf m))

/-- `_consequential_restore_errors`, of the text of the schema file. -/
def consequentialRestoreErrors (stderr schema : Str) : Except RestoreRaised (List Str) :=
  let hits := errorMessages stderr
  if hits = [] then .ok []
  else List.reduceOption <$> hits.mapM (entry (universalNewlines schema).splitlines)

/-- `PreflightDatabase.restore_schema`, after `psql` has run on the schema file. -/
def restoreSchema (run : CompletedProcess) (schema : Str) : Except RestoreRaised Unit :=
  if run.returncode ≠ 0 then .error (.failed run.stderr)
  else do
    let errors ← consequentialRestoreErrors run.stderr schema
    if errors = [] then pure ()
    else throw (.incomplete errors.length (errors.take 5)
      (if 5 < errors.length then some (errors.length - 5) else none))

end Fraisier.Dbops
