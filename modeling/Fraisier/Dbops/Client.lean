import Mathlib.Logic.Function.Basic
import Fraisier.Lib.SqlText

/-!
# The client tools of PostgreSQL, and the server

What `psql`, `createdb` and `dropdb` make of their arguments, and the server of the statements it
gets, as far as `operations.py` uses them. The server folds a name that stands outside quotes in a
statement to lower case, and keeps one in quotes and a string literal. The argument of a tool is a name as it
stands. A name has no more than 63 characters; of a longer one the rest is cut off.
-/

namespace Fraisier.Dbops.Client

open Fraisier.Lib Str SqlText

/-! ## Statements -/

/-- A statement about databases. -/
inductive Statement
  /-- The count of the databases of the name. -/
  | countDatabases (datname : Str)
  | terminateBackends (datname : Str)
  | unsetTemplate (datname : Str)
  | dropDatabase (name : Str) (force : Bool)
  | createDatabase (name : Str) (template owner : Option Str) (fileCopy : Bool)
  deriving DecidableEq, Repr

/-- The database that a statement is about. -/
def Statement.database : Statement → Str
  | .countDatabases datname | .terminateBackends datname | .unsetTemplate datname => datname
  | .dropDatabase name _ | .createDatabase name _ _ _ => name

/-- A database. -/
structure Database where
  isTemplate : Bool
  owner : Option Str
  /-- The database that it was copied from. -/
  origin : Str

/-- The databases by their names. -/
abbrev Catalog := Str → Option Database

/-- What a statement makes of the catalog. -/
def Statement.applied (c : Catalog) : Statement → Catalog
  | .countDatabases _ | .terminateBackends _ => c
  | .unsetTemplate d => Function.update c d ((c d).map ({ · with isTemplate := false }))
  | .dropDatabase d _ => Function.update c d ((c d).filter (·.isTemplate))
  | .createDatabase d template owner _ =>
    let origin := template.getD "template1".toList
    if (c d).isNone ∧ (c origin).isSome then Function.update c d (some ⟨false, owner, origin⟩)
    else c

/-- What `psql -t -A` writes of the result of a statement. -/
def Statement.output (c : Catalog) : Statement → Str
  | .countDatabases d => if (c d).isSome then "1\n".toList else "0\n".toList
  | _ => []

/-- A catalog that a server may come to, which executes the statements or refuses them for reasons
of its own. -/
inductive Executes : List Statement → Catalog → Catalog → Prop
  | nil {c : Catalog} : Executes [] c c
  | refused {st : Statement} {sts : List Statement} {c c' : Catalog} (h : Executes sts c c') :
      Executes (st :: sts) c c'
  | done {st : Statement} {sts : List Statement} {c c' : Catalog}
      (h : Executes sts (st.applied c) c') : Executes (st :: sts) c c'

/-- The databases that no statement is about stay as they are. -/
theorem Executes.frame {sts : List Statement} {c c' : Catalog} (h : Executes sts c c') {d : Str}
    (hd : ∀ st ∈ sts, st.database ≠ d) : c' d = c d := by
  -- Induction on the run: a statement that is carried out changes only its own database.
  induction h with
  | nil => rfl
  | refused _ ih => exact ih fun st hst => hd st (List.mem_cons_of_mem _ hst)
  | @done st sts c _ _ ih =>
    have hne : d ≠ st.database := Ne.symm (hd st List.mem_cons_self)
    have hstep : st.applied c d = c d := by
      cases st with
      | countDatabases => rfl
      | terminateBackends => rfl
      | unsetTemplate => exact Function.update_of_ne hne _ _
      | dropDatabase => exact Function.update_of_ne hne _ _
      | createDatabase name template owner =>
        unfold Statement.applied
        dsimp only
        split
        · exact Function.update_of_ne hne _ _
        · rfl
    exact (ih fun st hst => hd st (List.mem_cons_of_mem _ hst)).trans hstep

/-- A server. -/
structure Server where
  /-- `server_version_num`. -/
  version : ℕ
  /-- The words that are no names. -/
  reserved : Str → Bool

/-- A name in the catalog. -/
def cut (name : Str) : Str := name.take 63

/-- What comes after the tokens. -/
def after : List Token → List Token → Option (List Token)
  | [], ts => some ts
  | _ :: _, [] => none
  | e :: es, t :: ts => if e = t then after es ts else none

/-- The tokens of the words. -/
def tokensOf (words : String) : List Token := (tokens words.toList).getD []

/-- The text that is compared with, and the rest. -/
def literalThen : List Token → Option (Str × List Token)
  | .literal s :: ts => some (cut s, ts)
  | _ => none

variable (server : Server)

/-- A name, and the rest. -/
def Server.nameThen : List Token → Option (Str × List Token)
  | .name s :: ts => some (cut s, ts)
  | .word w :: ts => if server.reserved w then none else some (cut w, ts)
  | _ => none

/-- The options of `CREATE DATABASE`. -/
structure CreateOptions where
  template : Option Str := none
  owner : Option Str := none
  fileCopy : Bool := false
  deriving DecidableEq

/-- The options, one after the other. -/
def Server.createOptions : CreateOptions → List Token → Option CreateOptions
  | o, [] | o, [.symbol ';'] => some o
  | o, .word k :: t :: ts =>
    if k = "strategy".toList ∧ t = .symbol '=' then match ts with
      | .word v :: ts =>
        if v = "file_copy".toList then createOptions { o with fileCopy := true } ts
        else if v = "wal_log".toList then createOptions { o with fileCopy := false } ts
        else none
      | _ => none
    else match server.nameThen [t] with
      | none => none
      | some (n, _) =>
        if k = "template".toList then createOptions { o with template := some n } ts
        else if k = "owner".toList then createOptions { o with owner := some n } ts
        else none
  | _, _ => none

/-- `DROP DATABASE IF EXISTS`. -/
def Server.parseDrop (ts : List Token) : Option Statement := do
  let (name, rest) ← server.nameThen ts
  if rest = [] then some (.dropDatabase name false)
  else if rest = tokensOf "WITH (FORCE)" then some (.dropDatabase name true)
  else none

/-- `CREATE DATABASE`. -/
def Server.parseCreate (ts : List Token) : Option Statement := do
  let (name, rest) ← server.nameThen ts
  let o ← server.createOptions {} rest
  some (.createDatabase name o.template o.owner o.fileCopy)

/-- A statement with a string literal in it. -/
def parseLiteral (statement : Str → Statement) (rest ts : List Token) : Option Statement := do
  let (s, ts) ← literalThen ts
  if ts = rest then some (statement s) else none

/-- The statements that are written here. -/
def Server.parse (ts : List Token) : Option Statement :=
  if let some ts := after (tokensOf "DROP DATABASE IF EXISTS") ts then server.parseDrop ts
  else if let some ts := after (tokensOf "CREATE DATABASE") ts then server.parseCreate ts
  else if let some ts := after (tokensOf "SELECT count(*) FROM pg_database WHERE datname=") ts then
    parseLiteral .countDatabases [] ts
  else if let some ts := after
      (tokensOf ("SELECT pg_terminate_backend(pid) FROM pg_stat_activity " ++ "WHERE datname="))
        ts then
    parseLiteral .terminateBackends (tokensOf "AND pid <> pg_backend_pid()") ts
  else if let some ts := after (tokensOf ("UPDATE pg_database SET datistemplate=false " ++
      "WHERE datname=")) ts then
    parseLiteral .unsetTemplate [] ts
  else none

/-- The statement of a text. -/
def Server.reads (sql : Str) : Option Statement := (tokens sql).bind server.parse

/-! ## `psql` -/

/-- The variables of a script. -/
abbrev Variables := List (Str × Str)

/-- A part of the input of `psql`. -/
inductive Piece
  | char (c : Char)
  /-- `:"name"`. -/
  | quotedVariable (name : Str)
  deriving DecidableEq

/-- Where `psql` is in its input. -/
inductive Scan
  | plain
  | inside (q : Char)
  /-- After a colon. -/
  | colon
  /-- After a colon and a double quote. -/
  | variable (name : Str)

/-- A variable whose name does not end is text. -/
def unfinished (name : Str) : List Piece := (':' :: '"' :: name).map .char

/-- The pieces of the input. -/
def scan : Scan → Str → List Piece
  | .plain, [] | .inside _, [] => []
  | .colon, [] => [.char ':']
  | .variable name, [] => unfinished name
  | .plain, c :: s =>
    if c = ':' then scan .colon s
    else .char c :: scan (if isQuote c then .inside c else .plain) s
  | .inside q, c :: s => .char c :: scan (if c = q then .plain else .inside q) s
  | .colon, c :: s =>
    if c = '"' then scan (.variable []) s
    else .char ':' :: .char c :: scan (if isQuote c then .inside c else .plain) s
  | .variable name, c :: s =>
    if c = '"' then .quotedVariable name :: scan .plain s
    else if c.isAlphanum || c = '_' then scan (.variable (name ++ [c])) s
    else unfinished name ++ .char c :: scan (.inside '"') s

/-- A variable that is set stands for its value, quoted as a name. -/
def Piece.expand (vars : Variables) : Piece → Str
  | .char c => [c]
  | .quotedVariable name => match vars.lookup name with
    | some value => quote '"' value
    | none => ':' :: '"' :: name ++ ['"']

/-- What `psql` sends. -/
def interpolate (vars : Variables) (sql : Str) : Str := (scan .plain sql).flatMap (·.expand vars)

/-- A line of a script. -/
inductive ScriptLine
  /-- A query whose result is kept in variables. -/
  | gset (query : Str)
  | ifTrue (flag : Str)
  | otherwise
  | endIf
  | sql (statement : Str)
  deriving DecidableEq

/-- A line, where every statement stands on one. -/
def ScriptLine.of (line : Str) : Option ScriptLine :=
  if line.startsWith "\\if :".toList then some (.ifTrue (line.drop 5))
  else if line = "\\else".toList then some .otherwise
  else if line = "\\endif".toList then some .endIf
  else if line.endsWith " \\gset".toList then some (.gset (line.take (line.length - 6)))
  else if line.endsWith ";".toList then some (.sql line)
  else none

/-- The result of a query. -/
def Server.answers (query : Str) : Option Variables :=
  if tokens query = some (tokensOf
      "SELECT current_setting('server_version_num')::int >= 150000 AS has_strategy") then
    some [("has_strategy".toList, if 150000 ≤ server.version then ['t'] else ['f'])]
  else none

/-- The statements that a script sends: `active` says whether the branch is taken. It fails at a
line or a query that is not understood. -/
def Server.script (active : Bool) (vars : Variables) : List ScriptLine → Option (List Statement)
  | [] => some []
  | .gset query :: rest =>
    if active then (server.answers query).bind fun result => script active (result ++ vars) rest
    else script active vars rest
  | .ifTrue flag :: rest => script (vars.lookup flag = some ['t']) vars rest
  | .otherwise :: rest => script (!active) vars rest
  | .endIf :: rest => script true vars rest
  | .sql statement :: rest =>
    if active then do
      let st ← server.reads (interpolate vars statement)
      let sts ← script active vars rest
      some (st :: sts)
    else script active vars rest

/-- The lines of a text that ends with a newline. -/
def linesOf (s : Str) : List Str := (s.splitOn '\n').filter (· ≠ [])

/-- The options of `psql`. -/
structure PsqlOptions where
  dbname : Option Str := none
  vars : Variables := []
  command : Option Str := none
  file : Option Str := none

/-- The options of `psql`, one after the other. -/
def psqlOptions : PsqlOptions → List Str → Option PsqlOptions
  | o, [] => some o
  | o, a :: args =>
    if ["-t", "-A", "-X", "-q"].any (·.toList = a) then psqlOptions o args
    else match args with
      | [] => none
      | v :: args =>
        if a = "-d".toList then psqlOptions { o with dbname := some v } args
        else if a = "-c".toList then psqlOptions { o with command := some v } args
        else if a = "-f".toList then psqlOptions { o with file := some v } args
        else if a = "-v".toList then match partition '=' v with
          | (name, true, value) => psqlOptions { o with vars := (name, value) :: o.vars } args
          | (_, false, _) => none
        else none

/-- The statements of a run of `psql`. -/
def Server.psql (args : List Str) (stdin : Str) : Option (List Statement) := do
  let o ← psqlOptions {} args
  match o.command, o.file with
  | some sql, none => (server.reads sql).map ([·])
  | none, some file =>
    if file = ['-'] then ((linesOf stdin).mapM ScriptLine.of).bind (server.script true o.vars)
    else none
  | _, _ => none

/-! ## `createdb` and `dropdb` -/

/-- The options of `createdb` and `dropdb`, which take a name. -/
structure ToolOptions where
  template : Option Str := none
  owner : Option Str := none
  name : Option Str := none

/-- The options of `createdb` and `dropdb`, one after the other. -/
def toolOptions : ToolOptions → List Str → Option ToolOptions
  | o, [] => some o
  | o, a :: args =>
    if a = "--if-exists".toList then toolOptions o args
    else if !a.startsWith ['-'] then
      if o.name = none then toolOptions { o with name := some a } args else none
    else match args with
      | [] => none
      | v :: args =>
        if a = "--maintenance-db".toList then toolOptions o args
        else if a = "-T".toList then toolOptions { o with template := some v } args
        else if a = "-O".toList then toolOptions { o with owner := some v } args
        else none

/-- A command, and what is written to its standard input. -/
structure Invocation where
  argv : List Str
  stdin : Str := []
  deriving DecidableEq

/-- The statements that a command sends. -/
def Server.runs (i : Invocation) : Option (List Statement) :=
  match i.argv with
  | [] => none
  | tool :: args =>
    if tool = "psql".toList then server.psql args i.stdin
    else if tool = "createdb".toList then do
      let o ← toolOptions {} args
      let name ← o.name
      some [.createDatabase (cut name) (o.template.map cut) (o.owner.map cut) false]
    else if tool = "dropdb".toList then do
      let o ← toolOptions {} args
      let name ← o.name
      some [.dropDatabase (cut name) false]
    else none

end Fraisier.Dbops.Client
