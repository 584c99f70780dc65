import Mathlib
import Fraisier.Lib.Fallible
import Fraisier.Lib.Partition
import Fraisier.Backup.Names
import Fraisier.Dbops.Operations

/-!
# One name, one database

The helpers write the name of a database in four ways: into a string literal, outside quotes into a
statement, as an argument of a tool, and as a variable of a script. `one_database_iff` says for
which calls and names all of them are about the database of exactly that name. The way that is not is
the second, which `drop_db` takes when it is to force the drop.
-/

namespace Fraisier.Dbops.Operations

open Fraisier.Lib Str SqlText Client Fallible
open Fraisier.Backup (BackupError isIdent isIdentChar chomp chomp_cases validatePgIdentifier)

/-! ## Calls -/

/-- A call of a helper. -/
inductive Call
  | checkDbExists
  | terminateBackends
  | unsetTemplateFlag
  | dropDb (forceDisconnect force clearTemplateFlag : Bool)
  | createDb (template owner strategy : Option Str)
  deriving DecidableEq

/-- What a call runs. -/
def Call.invocations (dbname name : Str) : Call → Except BackupError (List Invocation)
  | .checkDbExists => Operations.checkDbExists dbname name
  | .terminateBackends => Operations.terminateBackends dbname name
  | .unsetTemplateFlag => Operations.unsetTemplateFlag dbname name
  | .dropDb forceDisconnect force clearTemplateFlag =>
    Operations.dropDb dbname name forceDisconnect force clearTemplateFlag
  | .createDb template owner strategy =>
    Operations.createDb dbname name template owner strategy

/-- What a call is for, on the database of exactly that name. -/
def Call.meant (server : Server) (name : Str) : Call → List Statement
  | .checkDbExists => [.countDatabases name]
  | .terminateBackends => [.terminateBackends name]
  | .unsetTemplateFlag => [.unsetTemplate name]
  | .dropDb forceDisconnect force clearTemplateFlag =>
    (if clearTemplateFlag then [.unsetTemplate name] else []) ++
      (if forceDisconnect then [.terminateBackends name] else []) ++ [.dropDatabase name force]
  | .createDb template owner strategy =>
    [.createDatabase name (truthy? template) (truthy? owner)
      (strategy = some "file_copy".toList ∧ 150000 ≤ server.version)]

/-- The server gets what the call is for, one statement from each command. -/
def Told (server : Server) (dbname name : Str) (call : Call) : Prop :=
  ∀ invocations, call.invocations dbname name = .ok invocations →
    invocations.map server.runs = (call.meant server name).map fun statement => some [statement]

/-- The statements that the server gets from a call. -/
def sent (server : Server) (dbname name : Str) (call : Call) : List Statement :=
  match call.invocations dbname name with
  | .ok invocations => invocations.flatMap fun i => (server.runs i).getD []
  | .error _ => []

/-- The calls are about the database of exactly that name. -/
structure OneDatabase (server : Server) (dbname name : Str) (calls : List Call) : Prop where
  /-- The server gets what the calls are for. -/
  told : ∀ call ∈ calls, Told server dbname name call
  /-- Every other database stays as it is. -/
  alone : ∀ c c', Executes (calls.flatMap (sent server dbname name)) c c' → ∀ d ≠ name, c' d = c d
  /-- The existence that is reported is that of the database. -/
  found : .checkDbExists ∈ calls → ∀ c, ∀ st ∈ sent server dbname name .checkDbExists,
    dbExists 0 (st.output c) = (c name).isSome

/-! ## The condition -/

/-- A name that `validate_pg_identifier` accepts. -/
def Identifier (name : Str) : Prop := isIdent (chomp name) = true

/-- The values that a call gets are accepted. -/
def Call.Accepted (name : Str) : Call → Prop
  | .createDb template owner strategy =>
    Identifier name ∧ (∀ v, truthy? template = some v → Identifier v) ∧
      (∀ v, truthy? owner = some v → Identifier v) ∧
        ∀ v, strategy = some v → ∃ k ∈ templateStrategies, k.toList = v
  | _ => Identifier name

/-- The name has room in the catalog. -/
def Fits (name : Str) : Prop := name.length ≤ 63

/-- The name stands for itself where it is written outside quotes: it has no upper case letters and
no newline at its end, and it is not reserved. -/
structure Folds (server : Server) (name : Str) : Prop where
  lower : ∀ c ∈ name, c.toLower = c
  noNewline : '\n' ∉ name
  notReserved : server.reserved name = false

/-- Every name in the call stands for itself. -/
def Call.Exact (server : Server) (name : Str) : Call → Prop
  | .dropDb _ true _ => Folds server name
  | .createDb template owner _ =>
    Fits name ∧ (∀ v, truthy? template = some v → Fits v) ∧ ∀ v, truthy? owner = some v → Fits v
  | _ => Fits name

variable {server : Server} {dbname name : Str} {call : Call}

/-! ## Identifiers -/

/-- An identifier, and the newline that may stand at its end. -/
theorem identifier_cases (h : Identifier name) : ∃ c core stop, name = c :: core ++ stop ∧
    chomp name = c :: core ∧ (stop = [] ∨ stop = ['\n']) ∧ (c.isAlpha = true ∨ c = '_') ∧
      (∀ c ∈ core, isIdentChar c = true) ∧ core.length ≤ 62 := by
  obtain ⟨stop, hname, hstop⟩ := chomp_cases (rfl : chomp name = _)
  unfold Identifier at h
  cases hcore : chomp name with
  | nil =>
    rw [hcore] at h
    cases h
  | cons c core =>
    rw [hcore] at h hname
    simp only [isIdent, Bool.and_eq_true, Bool.or_eq_true, decide_eq_true_eq, List.all_eq_true] at h
    exact ⟨c, core, stop, hname, rfl, hstop, h.1.1, h.1.2, h.2⟩

/-- A letter or an underscore is a character of a word, and none of the others. -/
theorem isWordStart_of_ident {c : Char} (h : c.isAlpha = true ∨ c = '_') :
    isWordStart c = true ∧ isBlank c = false ∧ isQuote c = false ∧ c ≠ '-' := by
  -- A letter is no blank by its number, and none of the other characters by being a letter.
  obtain h | rfl := h
  · have hnot : ∀ d : Char, d.isAlpha = false → c ≠ d := by
      rintro d hd rfl
      rw [hd] at h
      cases h
    refine ⟨by simp [isWordStart, h], ?_, ?_, hnot _ (by decide)⟩
    · have hval : 65 ≤ c.toNat := by
        simp only [Char.isAlpha, Char.isUpper, Char.isLower, Bool.or_eq_true, Bool.and_eq_true,
          decide_eq_true_eq, UInt32.le_iff_toNat_le] at h
        have : c.toNat = c.val.toNat := rfl
        simp at h
        omega
      have hle : ¬c ≤ '\r' := by
        intro hle
        have : c.toNat ≤ 13 := hle
        omega
      simp [isBlank, hnot ' ' (by decide), hle]
    · simp [isQuote, hnot '"' (by decide), hnot '\'' (by decide)]
  · decide

/-- A character of an identifier goes on with a word. -/
theorem isWordChar_of_ident {c : Char} (h : isIdentChar c = true) : isWordChar c = true := by
  simp only [isIdentChar, Char.isAlphanum, Bool.or_eq_true, decide_eq_true_eq] at h
  obtain (h | h) | rfl := h
  · simp [isWordChar, isWordStart, h]
  · simp [isWordChar, h]
  · decide

/-- No quote stands in an identifier, so in quotes it is written as it is. -/
theorem quote_identifier (h : Identifier name) {q : Char} (hq : isQuote q = true) :
    quote q name = q :: name ++ [q] := by
  obtain ⟨c, core, stop, rfl, -, hstop, hc, hcore, -⟩ := identifier_cases h
  -- No character of an identifier is a quote.
  have hnot : ∀ d ∈ c :: core ++ stop, d ≠ q := by
    rintro d hd rfl
    have hword : isQuote d = false := by
      simp only [List.cons_append, List.mem_cons, List.mem_append] at hd
      obtain rfl | hd | hd := hd
      · exact (isWordStart_of_ident hc).2.2.1
      · have hident := hcore d hd
        simp only [isQuote, Bool.or_eq_true, decide_eq_true_eq] at hq
        obtain rfl | rfl := hq <;> exact absurd hident (by decide)
      · obtain rfl | rfl := hstop
        · exact absurd hd List.not_mem_nil
        · rw [List.mem_singleton.mp hd]
          decide
    rw [hq] at hword
    cases hword
  have hflat : (c :: core ++ stop).flatMap (fun d => if d = q then [q, q] else [d]) =
      c :: core ++ stop := by
    calc (c :: core ++ stop).flatMap (fun d => if d = q then [q, q] else [d])
        = (c :: core ++ stop).flatMap fun d => [d] :=
          List.flatMap_congr fun d hd => if_neg (hnot d hd)
      _ = c :: core ++ stop := List.flatMap_singleton' _
  rw [quote, hflat]

/-- An identifier is taken for no option. -/
theorem not_option_of_identifier (h : Identifier name) {a : Str} (ha : a.head? = some '-') :
    name ≠ a ∧ name.startsWith ['-'] = false := by
  obtain ⟨c, core, stop, rfl, -, -, hc, -⟩ := identifier_cases h
  have hdash := (isWordStart_of_ident hc).2.2.2
  constructor
  · rintro rfl
    exact hdash (by simpa using ha)
  · simp [Str.startsWith, List.isPrefixOf, Ne.symm hdash]

/-! ## What the server reads -/

/-- The tokens after a beginning are the rest. -/
theorem after_append (es ts : List Token) : after es (es ++ ts) = some ts := by
  induction es with
  | nil => rfl
  | cons e es ih => rw [List.cons_append, after, if_pos rfl, ih]

/-- Two texts that differ in a token. -/
theorem after_eq_none {es ts : List Token} (h : (es.zip ts).any (fun p => p.1 ≠ p.2) = true)
    (rest : List Token) : after es (ts ++ rest) = none := by
  induction es generalizing ts with
  | nil => cases h
  | cons e es ih =>
    cases ts with
    | nil => cases h
    | cons t ts =>
      rw [List.cons_append, after]
      split
      · next heq =>
        subst heq
        exact ih (by simpa using h)
      · rfl

/-- What a text comes to whose last token is complete. -/
theorem tokensOf_eq {words : String} {ts : List Token}
    (h : run .blank words.toList = (ts, .blank)) : tokensOf words = ts := by
  rw [tokensOf, tokens, h]
  exact List.append_nil ts

/-- After the end of a quoted text the next token begins, unless the quote is doubled. -/
theorem run_closed {q : Char} {s rest : Str} (hrest : rest.head? ≠ some q) (hne : rest ≠ []) :
    run (.closed q s) rest = (ofQuote q s :: (run .blank rest).1, (run .blank rest).2) := by
  cases rest with
  | nil => exact absurd rfl hne
  | cons c rest =>
    have hc : c ≠ q := fun h => hrest (congrArg some h)
    have hstep : step c (.closed q s) = (ofQuote q s :: (start c).1, (start c).2) := if_neg hc
    rw [run, hstep, run]
    rfl

/-- The tokens of a text that ends with something in quotes. -/
theorem tokens_quoted {front : Str} {ts : List Token} (hfront : run .blank front = (ts, .blank))
    {q : Char} (hq : isQuote q = true) (s : Str) :
    tokens (front ++ quote q s) = some (ts ++ [ofQuote q s]) := by
  rw [tokens, run_append, hfront]
  dsimp only
  rw [run_quote hq, List.append_nil]
  rfl

/-- The tokens of a text with something in quotes in it. -/
theorem tokens_quoted_in {front rest : Str} {ts us : List Token}
    (hfront : run .blank front = (ts, .blank)) {q : Char} (hq : isQuote q = true)
    (hhead : rest.head? ≠ some q) (hne : rest ≠ []) (hrest : run .blank rest = (us, .blank))
    (s : Str) : tokens (front ++ quote q s ++ rest) = some (ts ++ ofQuote q s :: us) := by
  rw [tokens, run_append, run_append, hfront]
  dsimp only
  rw [run_quote hq]
  dsimp only
  rw [run_closed hhead hne, hrest, List.append_nil]
  exact congrArg some (List.append_nil _)

/-! The words of the statements. -/

/-- The start of a `DROP DATABASE` is its words. -/
theorem run_drop : run .blank "DROP DATABASE IF EXISTS ".toList =
    ([.word "drop".toList, .word "database".toList, .word "if".toList, .word "exists".toList],
      .blank) := by
  rfl

/-- The words of a `DROP DATABASE`. -/
theorem drop_words : tokensOf "DROP DATABASE IF EXISTS" =
    [.word "drop".toList, .word "database".toList, .word "if".toList, .word "exists".toList] := by
  rfl

/-- The start of a `CREATE DATABASE` is its words. -/
theorem run_create : run .blank "CREATE DATABASE ".toList =
    ([.word "create".toList, .word "database".toList], .blank) := by
  rfl

/-- The words of a `CREATE DATABASE`. -/
theorem create_words :
    tokensOf "CREATE DATABASE" = [.word "create".toList, .word "database".toList] := by
  rfl

/-- The start of the count of databases is its tokens. -/
theorem run_count : run .blank "SELECT count(*) FROM pg_database WHERE datname=".toList =
    ([.word "select".toList, .word "count".toList, .symbol '(', .symbol '*', .symbol ')',
      .word "from".toList, .word "pg_database".toList, .word "where".toList,
      .word "datname".toList, .symbol '='], .blank) := by
  rfl

/-- The start of the condition is its tokens. -/
theorem run_where : run .blank "WHERE datname=".toList =
    ([.word "where".toList, .word "datname".toList, .symbol '='], .blank) := by
  rfl

set_option maxRecDepth 2000 in
/-- The start of the statement that terminates backends is its tokens. -/
theorem run_terminate : run .blank
    ("SELECT pg_terminate_backend(pid) FROM pg_stat_activity " ++ "WHERE datname=").toList =
    ([.word "select".toList, .word "pg_terminate_backend".toList, .symbol '(', .word "pid".toList,
      .symbol ')', .word "from".toList, .word "pg_stat_activity".toList, .word "where".toList,
      .word "datname".toList, .symbol '='], .blank) := by
  have hfront : run .blank "SELECT pg_terminate_backend(pid) FROM pg_stat_activity ".toList =
      ([.word "select".toList, .word "pg_terminate_backend".toList, .symbol '(',
        .word "pid".toList, .symbol ')', .word "from".toList, .word "pg_stat_activity".toList],
        .blank) := by rfl
  rw [String.toList_append, run_append, hfront, run_where]
  rfl

set_option maxRecDepth 2000 in
/-- The start of the statement that unsets a template is its tokens. -/
theorem run_unset : run .blank
    ("UPDATE pg_database SET datistemplate=false " ++ "WHERE datname=").toList =
    ([.word "update".toList, .word "pg_database".toList, .word "set".toList,
      .word "datistemplate".toList, .symbol '=', .word "false".toList, .word "where".toList,
      .word "datname".toList, .symbol '='], .blank) := by
  have hfront : run .blank "UPDATE pg_database SET datistemplate=false ".toList =
      ([.word "update".toList, .word "pg_database".toList, .word "set".toList,
        .word "datistemplate".toList, .symbol '=', .word "false".toList], .blank) := by rfl
  rw [String.toList_append, run_append, hfront, run_where]
  rfl

/-- The rest of the condition on backends is its tokens. -/
theorem run_others : run .blank " AND pid <> pg_backend_pid()".toList =
    (tokensOf "AND pid <> pg_backend_pid()", .blank) := by
  rfl

/-- A string literal in a statement. -/
theorem parseLiteral_eq (statement : Str → Statement) (rest : List Token) (s : Str) :
    parseLiteral statement rest (.literal s :: rest) = some (statement (cut s)) := by
  simp [parseLiteral, literalThen]

/-- The count of databases of a name is read as that. -/
theorem reads_count (h : Identifier name) : server.reads
    ("SELECT count(*) FROM pg_database WHERE datname='".toList ++ name ++ ['\'']) =
      some (.countDatabases (cut name)) := by
  have hsql : "SELECT count(*) FROM pg_database WHERE datname='".toList ++ name ++ ['\''] =
      "SELECT count(*) FROM pg_database WHERE datname=".toList ++ quote '\'' name := by
    rw [quote_identifier h (by decide)]
    simp
  rw [Server.reads, hsql, tokens_quoted run_count (by decide), Option.bind_some, Server.parse,
    drop_words, after_eq_none (by decide), create_words, after_eq_none (by decide),
    tokensOf_eq run_count, after_append]
  exact parseLiteral_eq _ _ _

/-- The end of a database's connections is read as that. -/
theorem reads_terminate (h : Identifier name) : server.reads
    (("SELECT pg_terminate_backend(pid) FROM pg_stat_activity " ++ "WHERE datname='").toList ++
      name ++ "' AND pid <> pg_backend_pid()".toList) = some (.terminateBackends (cut name)) := by
  have hsql : ("SELECT pg_terminate_backend(pid) FROM pg_stat_activity " ++
      "WHERE datname='").toList ++ name ++ "' AND pid <> pg_backend_pid()".toList =
      ("SELECT pg_terminate_backend(pid) FROM pg_stat_activity " ++ "WHERE datname=").toList ++
        quote '\'' name ++ " AND pid <> pg_backend_pid()".toList := by
    rw [quote_identifier h (by decide)]
    simp
  rw [Server.reads, hsql, tokens_quoted_in run_terminate (by decide) (by decide) (by decide)
    run_others, Option.bind_some, Server.parse, drop_words, after_eq_none (by decide),
    create_words, after_eq_none (by decide), tokensOf_eq run_count, after_eq_none (by decide),
    tokensOf_eq run_terminate, after_append]
  exact parseLiteral_eq _ _ _

/-- Unsetting a database as a template is read as that. -/
theorem reads_unset (h : Identifier name) : server.reads
    ("UPDATE pg_database SET datistemplate=false WHERE datname='".toList ++ name ++ ['\'']) =
      some (.unsetTemplate (cut name)) := by
  have hsql : "UPDATE pg_database SET datistemplate=false WHERE datname='".toList ++ name ++
      ['\''] = ("UPDATE pg_database SET datistemplate=false " ++ "WHERE datname=").toList ++
        quote '\'' name := by
    rw [quote_identifier h (by decide)]
    simp
  rw [Server.reads, hsql, tokens_quoted run_unset (by decide), Option.bind_some, Server.parse,
    drop_words, after_eq_none (by decide), create_words, after_eq_none (by decide),
    tokensOf_eq run_count, after_eq_none (by decide), tokensOf_eq run_terminate,
    after_eq_none (by decide), tokensOf_eq run_unset, after_append]
  exact parseLiteral_eq _ _ _

/-- A name outside quotes is folded, and read without the newline at its end. -/
theorem reads_drop (h : Identifier name) : server.reads
    ("DROP DATABASE IF EXISTS ".toList ++ name ++ " WITH (FORCE)".toList) =
      if server.reserved ((chomp name).map Char.toLower) then none
      else some (.dropDatabase (cut ((chomp name).map Char.toLower)) true) := by
  obtain ⟨c, core, stop, hname, hchomp, hstop, hc, hcore, -⟩ := identifier_cases h
  have hstart := isWordStart_of_ident hc
  have hword : run .blank (c :: core) = ([], .word ((c :: core).map Char.toLower)) :=
    run_blank_word hstart.1 hstart.2.1 fun d hd => isWordChar_of_ident (hcore d hd)
  have hsql : "DROP DATABASE IF EXISTS ".toList ++ name ++ " WITH (FORCE)".toList =
      "DROP DATABASE IF EXISTS ".toList ++ (c :: core) ++ (stop ++ " WITH (FORCE)".toList) := by
    simp [hname]
  -- the newline, if there is one, is a blank
  have hrest : ∀ w, run (.word w) (stop ++ " WITH (FORCE)".toList) =
      (.word w :: tokensOf "WITH (FORCE)", .blank) := by
    intro w
    obtain rfl | rfl := hstop <;> rfl
  have htokens : tokens ("DROP DATABASE IF EXISTS ".toList ++ (c :: core) ++
      (stop ++ " WITH (FORCE)".toList)) = some (tokensOf "DROP DATABASE IF EXISTS" ++
        (.word ((c :: core).map Char.toLower) :: tokensOf "WITH (FORCE)")) := by
    rw [tokens, run_append, run_append, run_drop]
    dsimp only
    rw [hword]
    dsimp only
    rw [hrest, drop_words, List.append_nil]
    exact congrArg some (List.append_nil _)
  rw [Server.reads, hsql, htokens, hchomp, Option.bind_some, Server.parse, after_append]
  dsimp only
  have hne : tokensOf "WITH (FORCE)" ≠ [] := by decide
  unfold Server.parseDrop
  by_cases hreserved : server.reserved ((c :: core).map Char.toLower) = true
  · rw [Server.nameThen, if_pos hreserved, if_pos hreserved]
    rfl
  · rw [Server.nameThen, if_neg hreserved, if_neg hreserved]
    simp [hne]

/-! ## What the commands send -/

/-- Each tool is told the database that it connects to. -/
theorem pgCmd_eq {tool flag : Str} {args : List Str} {input : Str}
    (hflag : dbFlagForTool.lookup tool = some flag) (hnot : flag ∉ tool :: args) :
    pgCmd dbname (tool :: args) input = ⟨tool :: flag :: dbname :: args, input⟩ := by
  rw [pgCmd, hflag]
  dsimp only
  rw [if_neg hnot]
  rfl

/-- A statement on the command line of `psql`. -/
theorem runs_command (flags : List Str) {sql : Str} (hsql : sql ≠ "-d".toList)
    (hflags : flags = [] ∨ flags = ["-t".toList, "-A".toList]) :
    server.runs (pgCmd dbname ("psql".toList :: flags ++ ["-c".toList, sql])) =
      (server.reads sql).map ([·]) := by
  have hnot : "-d".toList ∉ "psql".toList :: (flags ++ ["-c".toList, sql]) := by
    have hne : "-d".toList ≠ sql := Ne.symm hsql
    obtain rfl | rfl := hflags <;> simpa using hne
  rw [List.cons_append, pgCmd_eq (by decide) hnot]
  obtain rfl | rfl := hflags <;> rfl

/-- The command that looks for a database runs one count. -/
theorem runs_check (h : Identifier name) : server.runs (pgCmd dbname ["psql".toList, "-t".toList,
    "-A".toList, "-c".toList, "SELECT count(*) FROM pg_database WHERE datname='".toList ++ name ++
      ['\'']]) = some [.countDatabases (cut name)] := by
  have hread := congrArg (Option.map ([·])) (reads_count h : server.reads _ = _)
  exact (runs_command ["-t".toList, "-A".toList] (by simp) (.inr rfl)).trans hread

/-- The command that disconnects runs one statement. -/
theorem runs_terminate (h : Identifier name) : server.runs (pgCmd dbname ["psql".toList,
    "-c".toList, ("SELECT pg_terminate_backend(pid) FROM pg_stat_activity " ++
      "WHERE datname='").toList ++ name ++ "' AND pid <> pg_backend_pid()".toList]) = some [.terminateBackends (cut name)] := by
  have hread := congrArg (Option.map ([·])) (reads_terminate h : server.reads _ = _)
  exact (runs_command [] (by simp) (.inl rfl)).trans hread

/-- The command that unsets a template runs one statement. -/
theorem runs_unset (h : Identifier name) : server.runs (pgCmd dbname ["psql".toList, "-c".toList,
    "UPDATE pg_database SET datistemplate=false WHERE datname='".toList ++ name ++ ['\'']]) =
      some [.unsetTemplate (cut name)] := by
  have hread := congrArg (Option.map ([·])) (reads_unset h : server.reads _ = _)
  exact (runs_command [] (by simp) (.inl rfl)).trans hread

/-- The forced drop names the database in lower case, unless its name is reserved. -/
theorem runs_forced (h : Identifier name) : server.runs (pgCmd dbname ["psql".toList, "-c".toList,
    "DROP DATABASE IF EXISTS ".toList ++ name ++ " WITH (FORCE)".toList]) =
      if server.reserved ((chomp name).map Char.toLower) then none
      else some [.dropDatabase (cut ((chomp name).map Char.toLower)) true] := by
  have hread := congrArg (Option.map ([·])) (reads_drop h : server.reads _ = _)
  refine ((runs_command [] (by simp) (.inl rfl)).trans hread).trans ?_
  split <;> rfl

/-- The name that a tool is given. -/
theorem toolOptions_name (h : Identifier name) (o : ToolOptions) (ho : o.name = none) :
    toolOptions o [name] = some { o with name := some name } := by
  have hnot := not_option_of_identifier h (a := "--if-exists".toList) (by decide)
  rw [toolOptions, if_neg hnot.1, hnot.2]
  simp [ho, toolOptions]

/-- A `dropdb` drops the database of the name. -/
theorem runs_dropdb (h : Identifier name) :
    server.runs (pgCmd dbname ["dropdb".toList, "--if-exists".toList, name]) =
      some [.dropDatabase (cut name) false] := by
  have hnot := not_option_of_identifier h (a := "--maintenance-db".toList) (by decide)
  have hmem : "--maintenance-db".toList ∉ ["dropdb".toList, "--if-exists".toList, name] := by
    simpa using hnot.1.symm
  have hoptions : toolOptions {} ["--maintenance-db".toList, dbname, "--if-exists".toList, name] =
      some { name := some name } := toolOptions_name h {} rfl
  rw [pgCmd_eq (by decide) hmem]
  exact congrArg (Option.bind · _) hoptions

/-- A `createdb` creates the database of the name, with its template and owner. -/
theorem runs_createdb {template owner : Option Str} (h : Identifier name)
    (ht : ∀ v, truthy? template = some v → Identifier v)
    (ho : ∀ v, truthy? owner = some v → Identifier v) :
    server.runs (pgCmd dbname
      ("createdb".toList :: option "-T" template ++ option "-O" owner ++ [name])) =
      some [.createDatabase (cut name) ((truthy? template).map cut) ((truthy? owner).map cut)
        false] := by
  have hnot : ∀ v, Identifier v → "--maintenance-db".toList ≠ v := fun v hv =>
    (not_option_of_identifier hv (a := "--maintenance-db".toList) (by decide)).1.symm
  have hflag : dbFlagForTool.lookup "createdb".toList = some "--maintenance-db".toList := by decide
  have hname : ∀ o : ToolOptions, o.name = none →
      toolOptions o [name] = some { o with name := some name } := fun o => toolOptions_name h o
  unfold option
  -- The four command lines, by whether a template and an owner are given.
  cases hT : truthy? template with
  | none =>
    cases hO : truthy? owner with
    | none =>
      refine (congrArg server.runs (pgCmd_eq hflag (by simpa using hnot _ h))).trans ?_
      exact congrArg (Option.bind · _) (hname {} rfl)
    | some o =>
      refine (congrArg server.runs (pgCmd_eq hflag
        (by simpa using ⟨hnot _ (ho o hO), hnot _ h⟩))).trans ?_
      exact congrArg (Option.bind · _) (hname { owner := some o } rfl)
  | some t =>
    cases hO : truthy? owner with
    | none =>
      refine (congrArg server.runs (pgCmd_eq hflag
        (by simpa using ⟨hnot _ (ht t hT), hnot _ h⟩))).trans ?_
      exact congrArg (Option.bind · _) (hname { template := some t } rfl)
    | some o =>
      refine (congrArg server.runs (pgCmd_eq hflag
        (by simpa using ⟨hnot _ (ht t hT), hnot _ (ho o hO), hnot _ h⟩))).trans ?_
      exact congrArg (Option.bind · _) (hname { template := some t, owner := some o } rfl)

/-! ## The script -/

/-- What has no colon and no quotes in it is sent as it is. -/
theorem interpolate_plain {vars : Variables} {a : Str}
    (ha : a.all (fun c => !(c = ':' || isQuote c)) = true) (b : Str) :
    interpolate vars (a ++ b) = a ++ interpolate vars b := by
  induction a with
  | nil => rfl
  | cons c a ih =>
    simp only [List.all_cons, Bool.and_eq_true, Bool.not_eq_true', Bool.or_eq_false_iff,
      decide_eq_false_iff_not] at ha
    have hscan : scan .plain (c :: (a ++ b)) = .char c :: scan .plain (a ++ b) := by
      rw [scan, if_neg ha.1.1, ha.1.2]
      rfl
    rw [List.cons_append, interpolate, hscan, List.flatMap_cons]
    exact congrArg (c :: ·) (ih (by simpa using ha.2))

/-- The name of a variable in a script. -/
theorem scan_variable {n : Str} (hn : n.all (fun c => c.isAlphanum || c = '_') = true) (m b : Str) :
    scan (.variable m) (n ++ '"' :: b) = .quotedVariable (m ++ n) :: scan .plain b := by
  induction n generalizing m with
  | nil => rw [List.nil_append, List.append_nil, scan, if_pos rfl]
  | cons c n ih =>
    rw [List.all_cons, Bool.and_eq_true] at hn
    have hc : c ≠ '"' := by
      rintro rfl
      exact absurd hn.1 (by decide)
    rw [List.cons_append, scan, if_neg hc, if_pos hn.1, ih hn.2, List.append_assoc]
    rfl

/-- A variable that is set is sent as a quoted name. -/
theorem interpolate_variable {vars : Variables} {n v : Str}
    (hn : n.all (fun c => c.isAlphanum || c = '_') = true) (hv : vars.lookup n = some v) (b : Str) :
    interpolate vars (':' :: '"' :: n ++ '"' :: b) = quote '"' v ++ interpolate vars b := by
  have hscan : scan .plain (':' :: '"' :: n ++ '"' :: b) = .quotedVariable n :: scan .plain b :=
    scan_variable hn [] b
  rw [interpolate, hscan, List.flatMap_cons, Piece.expand, hv]
  rfl

/-- An option of `CREATE DATABASE`, with its name quoted. -/
def clause (keyword : String) : Option Str → Str
  | none => []
  | some v => keyword.toList ++ quote '"' v

/-- An option after a quoted name. -/
theorem run_clause {keyword : String} {k : Str}
    (hk : ∀ s, run (.closed '"' s) keyword.toList = ([.name s, .word k], .blank)) (s : Str)
    (v : Option Str) : run (.closed '"' s) (clause keyword v) =
      (v.toList.flatMap fun _ => [.name s, .word k], .closed '"' (v.getD s)) := by
  cases v with
  | none => rfl
  | some v =>
    rw [clause, run_append, hk]
    dsimp only
    rw [run_quote (by decide)]
    rfl

/-- One option is read. -/
theorem createOptions_name {o : CreateOptions} {k : Str} (hk : k ≠ "strategy".toList) (v : Str)
    (ts : List Token) : server.createOptions o (.word k :: .name v :: ts) =
      if k = "template".toList then server.createOptions { o with template := some (cut v) } ts
      else if k = "owner".toList then server.createOptions { o with owner := some (cut v) } ts
      else none := by
  have hnot : ¬(k = "strategy".toList ∧ Token.name v = .symbol '=') := fun h => hk h.1
  conv_lhs => unfold Server.createOptions
  rw [if_neg hnot, Server.nameThen]

/-- The last option is the strategy. -/
theorem createOptions_strategy {o : CreateOptions} :
    server.createOptions o [.word "strategy".toList, .symbol '=', .word "file_copy".toList,
      .symbol ';'] = some { o with fileCopy := true } := by
  have hyes : "strategy".toList = "strategy".toList ∧ Token.symbol '=' = .symbol '=' := ⟨rfl, rfl⟩
  unfold Server.createOptions
  rw [if_pos hyes]
  exact if_pos rfl

/-- The text of `CREATE DATABASE`, as it is sent. -/
def createSql (n : Str) (t o : Option Str) (fileCopy : Bool) : Str :=
  "CREATE DATABASE ".toList ++ quote '"' n ++ clause " TEMPLATE " t ++ clause " OWNER " o ++
    (if fileCopy then " STRATEGY = FILE_COPY;" else ";").toList

/-- After a quoted name comes the word of the template. -/
theorem run_template (s : Str) : run (.closed '"' s) " TEMPLATE ".toList =
    ([.name s, .word "template".toList], .blank) := by
  rfl

/-- After a quoted name comes the word of the owner. -/
theorem run_owner (s : Str) : run (.closed '"' s) " OWNER ".toList =
    ([.name s, .word "owner".toList], .blank) := by
  rfl

/-- The statement that creates a database by files is cut into its tokens. -/
theorem tokens_create (n : Str) (t o : Option Str) (fileCopy : Bool) :
    tokens (createSql n t o fileCopy) = some (tokensOf "CREATE DATABASE" ++ (.name n ::
      ((t.toList.flatMap fun v => [Token.word "template".toList, Token.name v]) ++
        (o.toList.flatMap fun v => [Token.word "owner".toList, Token.name v]) ++
          (if fileCopy then tokensOf "STRATEGY = FILE_COPY;" else [Token.symbol ';'])))) := by
  have hstop : ∀ s, run (.closed '"' s)
      (if fileCopy then " STRATEGY = FILE_COPY;" else ";").toList =
        (.name s :: (if fileCopy then tokensOf "STRATEGY = FILE_COPY;" else [.symbol ';']),
          .blank) := by
    intro s
    cases fileCopy <;> rfl
  -- The pieces of the statement are read in order, each from the end of the one before it.
  unfold tokens createSql
  rw [run_append, run_append, run_append, run_append, run_create, create_words]
  dsimp only
  rw [run_quote (by decide)]
  dsimp only
  rw [run_clause run_template]
  dsimp only
  rw [run_clause run_owner]
  dsimp only
  rw [hstop]
  cases t <;> cases o <;> simp [finish]

/-- Its options are those that were given. -/
theorem createOptions_create (t o : Option Str) (fileCopy : Bool) :
    server.createOptions {}
      ((t.toList.flatMap fun v => [Token.word "template".toList, Token.name v]) ++
        (o.toList.flatMap fun v => [Token.word "owner".toList, Token.name v]) ++
          (if fileCopy then [Token.word "strategy".toList, Token.symbol '=',
            Token.word "file_copy".toList, Token.symbol ';'] else [Token.symbol ';'])) =
      some ⟨t.map cut, o.map cut, fileCopy⟩ := by
  -- The options are read off from the front: a template, an owner and the strategy.
  have hlast : ∀ o, server.createOptions o (if fileCopy then [.word "strategy".toList,
      .symbol '=', .word "file_copy".toList, .symbol ';'] else [.symbol ';']) =
        some { o with fileCopy := fileCopy || o.fileCopy } := by
    intro o
    cases fileCopy with
    | true => exact createOptions_strategy
    | false => rw [if_neg Bool.false_ne_true, Server.createOptions, Bool.false_or]
  have htemplate : ∀ o v ts, server.createOptions o (.word "template".toList :: .name v :: ts) =
      server.createOptions { o with template := some (cut v) } ts := fun o v ts =>
    (createOptions_name (by decide) v ts).trans (if_pos rfl)
  have howner : ∀ o v ts, server.createOptions o (.word "owner".toList :: .name v :: ts) =
      server.createOptions { o with owner := some (cut v) } ts := fun o v ts =>
    (createOptions_name (by decide) v ts).trans ((if_neg (by decide)).trans (if_pos rfl))
  cases t <;> cases o <;>
    simp only [Option.toList_none, Option.toList_some, List.flatMap_nil, List.flatMap_cons,
      List.nil_append, List.cons_append, htemplate, howner, hlast, Option.map_none,
      Option.map_some, Bool.or_false]

/-- The statement is read with the names in it as they are. -/
theorem reads_create (n : Str) (t o : Option Str) (fileCopy : Bool) :
    server.reads (createSql n t o fileCopy) =
      some (.createDatabase (cut n) (t.map cut) (o.map cut) fileCopy) := by
  have hstrategy : tokensOf "STRATEGY = FILE_COPY;" = [.word "strategy".toList, .symbol '=',
      .word "file_copy".toList, .symbol ';'] := by rfl
  rw [Server.reads, tokens_create, Option.bind_some, Server.parse, create_words, drop_words,
    after_eq_none (by decide), after_append]
  dsimp only
  rw [Server.parseCreate, Server.nameThen, hstrategy, Option.bind_eq_bind, Option.bind_some]
  dsimp only
  rw [createOptions_create]
  rfl

/-- A part of the script that is there when a variable is bound. -/
theorem interpolate_clause {vars : Variables} {keyword source : String} {n : Str} {v : Option Str}
    (hsource : source.toList = keyword.toList ++ (':' :: '"' :: n ++ ['"']))
    (hkeyword : keyword.toList.all (fun c => !(c = ':' || isQuote c)) = true)
    (hn : n.all (fun c => c.isAlphanum || c = '_') = true)
    (hv : ∀ x, v = some x → vars.lookup n = some x) (rest : Str) :
    interpolate vars ((if v.isSome then source.toList else []) ++ rest) =
      clause keyword v ++ interpolate vars rest := by
  cases v with
  | none => rfl
  | some x =>
    have hassoc : source.toList ++ rest = keyword.toList ++ (':' :: '"' :: n ++ '"' :: rest) := by
      simp [hsource]
    calc interpolate vars (source.toList ++ rest)
        = keyword.toList ++ interpolate vars (':' :: '"' :: n ++ '"' :: rest) := by
          rw [hassoc, interpolate_plain hkeyword]
      _ = keyword.toList ++ (quote '"' x ++ interpolate vars rest) := by
          rw [interpolate_variable hn (hv x rfl)]
      _ = clause keyword (some x) ++ interpolate vars rest := by
          rw [clause, List.append_assoc]

/-- The variables that `_create_db_file_copy` binds, the last one first. -/
def boundVariables (name : Str) (t o : Option Str) : Variables :=
  (o.toList.map fun v => ("owner".toList, v)) ++ (t.toList.map fun v => ("template".toList, v)) ++
    [("db_name".toList, name), ("ON_ERROR_STOP".toList, ['1'])]

/-- What the script sends for the statement, with the names put in. -/
theorem interpolate_create {vars : Variables} {template owner : Option Str}
    (hname : vars.lookup "db_name".toList = some name)
    (ht : ∀ v, truthy? template = some v → vars.lookup "template".toList = some v)
    (ho : ∀ v, truthy? owner = some v → vars.lookup "owner".toList = some v) (fileCopy : Bool) :
    interpolate vars (createStatement template owner ++
        (if fileCopy then " STRATEGY = FILE_COPY;" else ";").toList) =
      createSql name (truthy? template) (truthy? owner) fileCopy := by
  unfold createSql
  -- What closes the statement holds no variable.
  have hstop : interpolate vars (if fileCopy then " STRATEGY = FILE_COPY;" else ";").toList =
      (if fileCopy then " STRATEGY = FILE_COPY;" else ";").toList := by
    have hplain : (if fileCopy then " STRATEGY = FILE_COPY;" else ";").toList.all
        (fun c => !(c = ':' || isQuote c)) = true := by
      cases fileCopy <;> decide
    have hnil : interpolate vars (_ ++ []) = _ ++ interpolate vars [] := interpolate_plain hplain []
    rwa [List.append_nil, show interpolate vars [] = [] from rfl, List.append_nil] at hnil
  generalize (if fileCopy then " STRATEGY = FILE_COPY;" else ";").toList = stop at hstop
  -- The clauses as the script has them, each around its variable.
  have hnameSource : "CREATE DATABASE :\"db_name\"".toList =
      "CREATE DATABASE ".toList ++ (':' :: '"' :: "db_name".toList ++ ['"']) := by rfl
  have htSource : " TEMPLATE :\"template\"".toList =
      " TEMPLATE ".toList ++ (':' :: '"' :: "template".toList ++ ['"']) := by rfl
  have hoSource : " OWNER :\"owner\"".toList =
      " OWNER ".toList ++ (':' :: '"' :: "owner".toList ++ ['"']) := by rfl
  have hfirst : ∀ rest, interpolate vars ("CREATE DATABASE :\"db_name\"".toList ++ rest) =
      clause "CREATE DATABASE " (some name) ++ interpolate vars rest := fun rest =>
    interpolate_clause (v := some name) hnameSource (by decide) (by decide)
      (fun x hx => Option.some.inj hx ▸ hname) rest
  calc interpolate vars (createStatement template owner ++ stop)
      = interpolate vars ("CREATE DATABASE :\"db_name\"".toList ++
          ((if (truthy? template).isSome then " TEMPLATE :\"template\"".toList else []) ++
            ((if (truthy? owner).isSome then " OWNER :\"owner\"".toList else []) ++ stop))) := by
        unfold createStatement
        rw [List.append_assoc, List.append_assoc]
    _ = clause "CREATE DATABASE " (some name) ++ (clause " TEMPLATE " (truthy? template) ++
          (clause " OWNER " (truthy? owner) ++ stop)) := by
        rw [hfirst, interpolate_clause htSource (by decide) (by decide) ht,
          interpolate_clause hoSource (by decide) (by decide) ho, hstop]
    _ = "CREATE DATABASE ".toList ++ quote '"' name ++ clause " TEMPLATE " (truthy? template) ++
          clause " OWNER " (truthy? owner) ++ stop := by
        simp only [clause, List.append_assoc]

/-- A line that is not empty is kept. -/
theorem linesOf_cons {line : Str} (h : '\n' ∉ line) (hne : line ≠ []) (rest : Str) :
    linesOf (line ++ '\n' :: rest) = line :: linesOf rest := by
  rw [linesOf, List.splitOn_append_cons_self_of_not_mem h,
    List.filter_cons_of_pos (by simpa using hne), linesOf]

/-- A line that begins with no backslash and ends with a semicolon is a statement. -/
theorem scriptLine_of_statement {c : Char} (hc : c ≠ '\\') (s : Str) :
    ScriptLine.of (c :: s ++ [';']) = some (.sql (c :: s ++ [';'])) := by
  have hif : Str.startsWith (c :: s ++ [';']) "\\if :".toList = false := by
    simp [Str.startsWith, List.isPrefixOf, Ne.symm hc]
  have helse : ∀ t : Str, c :: s ++ [';'] ≠ '\\' :: t := fun t h => hc (List.cons.inj h).1
  have hgset : Str.endsWith (c :: s ++ [';']) " \\gset".toList = false := by
    simp [Str.endsWith, List.isSuffixOf, List.isPrefixOf]
  have hsemicolon : Str.endsWith (c :: s ++ [';']) ";".toList = true := by
    simp [Str.endsWith, List.isSuffixOf, List.isPrefixOf]
  rw [ScriptLine.of, hif, hgset, hsemicolon]
  exact (if_neg (helse _)).trans ((if_neg (helse _)).trans rfl)

/-- A statement of the script stands on one line. -/
theorem scriptLine_of_create (template owner : Option Str) (stop : String)
    (hstop : stop = " STRATEGY = FILE_COPY;" ∨ stop = ";") :
    '\n' ∉ createStatement template owner ++ stop.toList ∧
      ScriptLine.of (createStatement template owner ++ stop.toList) =
        some (.sql (createStatement template owner ++ stop.toList)) := by
  -- What closes the statement ends with its semicolon and breaks no line.
  have hlast : ∃ u, stop.toList = u ++ [';'] ∧ '\n' ∉ u ++ [';'] := by
    obtain rfl | rfl := hstop
    · exact ⟨" STRATEGY = FILE_COPY".toList, by decide, by decide⟩
    · exact ⟨[], by decide, by decide⟩
  obtain ⟨u, hu, hline⟩ := hlast
  have hfirst : "CREATE DATABASE :\"db_name\"".toList =
      'C' :: "REATE DATABASE :\"db_name\"".toList := by decide
  -- A clause that is left out breaks no line.
  have hclause : ∀ (b : Bool) (part : Str), '\n' ∉ part → '\n' ∉ (if b then part else []) := by
    intro b part hpart
    cases b with
    | true => exact hpart
    | false => exact List.not_mem_nil
  unfold createStatement
  rw [hu]
  constructor
  · simp only [List.mem_append, not_or]
    simp only [List.mem_append, not_or] at hline
    exact ⟨⟨⟨by decide, hclause _ _ (by decide)⟩, hclause _ _ (by decide)⟩, hline⟩
  · rw [hfirst, List.cons_append, List.cons_append, ← List.append_assoc, List.cons_append]
    exact scriptLine_of_statement (by decide) _

/-- The lines of the script. -/
theorem lines_of_script (template owner : Option Str) :
    (linesOf (fileCopyScript (createStatement template owner))).mapM ScriptLine.of =
      some [.gset ("SELECT current_setting('server_version_num')::int >= 150000 " ++
          "AS has_strategy").toList, .ifTrue "has_strategy".toList,
        .sql (createStatement template owner ++ " STRATEGY = FILE_COPY;".toList), .otherwise,
        .sql (createStatement template owner ++ ";".toList), .endIf] := by
  obtain ⟨hcopyLine, hcopy⟩ := scriptLine_of_create template owner _ (.inl rfl)
  obtain ⟨hplainLine, hplain⟩ := scriptLine_of_create template owner _ (.inr rfl)
  generalize createStatement template owner = create at *
  let query := "SELECT current_setting('server_version_num')::int >= 150000 AS has_strategy"
  -- The query stands on a line of its own.
  have hgset : '\n' ∉ (query ++ " \\gset").toList ∧ (query ++ " \\gset").toList ≠ [] ∧
      ScriptLine.of (query ++ " \\gset").toList = some (.gset query.toList) := by
    rw [String.toList_append]
    decide +kernel
  have hhead :
      ("SELECT current_setting('server_version_num')::int >= 150000 AS has_strategy \\gset\n" ++
      "\\if :has_strategy\n").toList = (query ++ " \\gset").toList ++
        '\n' :: ("\\if :has_strategy".toList ++ ['\n']) := by decide +kernel
  have hmiddle : " STRATEGY = FILE_COPY;\n\\else\n".toList =
      " STRATEGY = FILE_COPY;".toList ++ '\n' :: ("\\else".toList ++ ['\n']) := by decide +kernel
  have hlast : ";\n\\endif\n".toList = ";".toList ++ '\n' :: ("\\endif".toList ++ ['\n']) := by
    decide +kernel
  have hne : ∀ stop : String, stop.toList ≠ [] → create ++ stop.toList ≠ [] := fun _ hstop =>
    List.append_ne_nil_of_right_ne_nil _ hstop
  have hscript : fileCopyScript create = (query ++ " \\gset").toList ++ '\n' ::
      ("\\if :has_strategy".toList ++ '\n' :: ((create ++ " STRATEGY = FILE_COPY;".toList) ++
        '\n' :: ("\\else".toList ++ '\n' :: ((create ++ ";".toList) ++ '\n' ::
          ("\\endif".toList ++ '\n' :: []))))) := by
    unfold fileCopyScript
    rw [hhead, hmiddle, hlast]
    simp only [List.append_assoc, List.cons_append, List.nil_append]
  -- The six lines, cut at the newlines of the template.
  have hlines : linesOf (fileCopyScript create) = [(query ++ " \\gset").toList,
      "\\if :has_strategy".toList, create ++ " STRATEGY = FILE_COPY;".toList, "\\else".toList,
      create ++ ";".toList, "\\endif".toList] := by
    rw [hscript, linesOf_cons hgset.1 hgset.2.1, linesOf_cons (by decide) (by decide),
      linesOf_cons hcopyLine (hne _ (by decide)), linesOf_cons (by decide) (by decide),
      linesOf_cons hplainLine (hne _ (by decide)), linesOf_cons (by decide) (by decide)]
    rfl
  -- The words of psql.
  have hif : ScriptLine.of "\\if :has_strategy".toList = some (.ifTrue "has_strategy".toList) := by
    decide
  have helse : ScriptLine.of "\\else".toList = some .otherwise := by decide
  have hendIf : ScriptLine.of "\\endif".toList = some .endIf := by decide
  rw [hlines]
  simp only [List.mapM_cons, List.mapM_nil, hgset.2.2, hcopy, hplain, hif, helse, hendIf]
  rfl

/-- The option that binds a variable. -/
theorem psqlOptions_bound (o : PsqlOptions) {n : String} (hn : '=' ∉ n.toList) (value : Option Str)
    (args : List Str) : psqlOptions o (bound n value ++ args) =
      psqlOptions { o with vars := (truthy? value).toList.map (n.toList, ·) ++ o.vars } args := by
  unfold bound
  cases truthy? value with
  | none => rfl
  | some v =>
    simp only [Option.toList_some, List.flatMap_cons, List.flatMap_nil, List.append_nil,
      List.cons_append, List.nil_append, List.map_cons, List.map_nil]
    rw [psqlOptions, if_neg (by decide), if_neg (by decide), if_neg (by decide),
      if_neg (by decide), if_pos rfl, partition_append_cons hn v]

/-- The options that `psql` is given with the script. -/
theorem psqlOptions_file_copy {template owner : Option Str}
    (hname : truthy? (some name) = some name) :
    psqlOptions {} (["-d".toList, dbname] ++ (["-X".toList, "-q".toList, "-v".toList,
        "ON_ERROR_STOP=1".toList] ++ (bound "db_name" (some name) ++ (bound "template" template ++
          (bound "owner" owner ++ ["-f".toList, "-".toList]))))) =
      some { dbname := some dbname, command := none, file := some "-".toList,
             vars := boundVariables name (truthy? template) (truthy? owner) } := by
  have hfirst : ∀ args, psqlOptions {} (["-d".toList, dbname] ++ (["-X".toList, "-q".toList,
      "-v".toList, "ON_ERROR_STOP=1".toList] ++ args)) = psqlOptions
        { dbname := some dbname, vars := [("ON_ERROR_STOP".toList, ['1'])] } args := fun _ => rfl
  rw [hfirst, psqlOptions_bound _ (by decide), psqlOptions_bound _ (by decide),
    psqlOptions_bound _ (by decide), hname]
  unfold boundVariables
  rw [List.append_assoc]
  rfl

/-- One of two branches is taken. -/
theorem script_branches (active : Bool) (vars : Variables) (s t : Str) :
    server.script active vars [.sql s, .otherwise, .sql t, .endIf] =
      (server.reads (interpolate vars (if active then s else t))).map ([·]) := by
  cases active with
  | true =>
    cases h : server.reads (interpolate vars s) <;> simp [Server.script, h]
  | false =>
    cases h : server.reads (interpolate vars t) <;> simp [Server.script, h]

/-- The query for the version is written as two texts. -/
theorem tokens_version :
    tokens ("SELECT current_setting('server_version_num')::int >= 150000 " ++
      "AS has_strategy").toList = some (tokensOf
        "SELECT current_setting('server_version_num')::int >= 150000 AS has_strategy") := by
  have hquery : ("SELECT current_setting('server_version_num')::int >= 150000 " ++
      "AS has_strategy").toList =
        "SELECT current_setting('server_version_num')::int >= 150000 AS has_strategy".toList := by
    rfl
  rw [hquery]
  decide +kernel

/-- The script creates the database of exactly the name. -/
theorem runs_file_copy {template owner : Option Str} (h : Identifier name) :
    server.runs (createDbFileCopy dbname name template owner) =
      some [.createDatabase (cut name) ((truthy? template).map cut) ((truthy? owner).map cut)
        (150000 ≤ server.version)] := by
  have hname : truthy? (some name) = some name := by
    obtain ⟨c, core, stop, rfl, -⟩ := identifier_cases h
    rfl
  have hargv : createDbFileCopy dbname name template owner =
      ⟨"psql".toList :: (["-d".toList, dbname] ++ (["-X".toList, "-q".toList, "-v".toList, "ON_ERROR_STOP=1".toList] ++
        (bound "db_name" (some name) ++ (bound "template" template ++
          (bound "owner" owner ++ ["-f".toList, "-".toList]))))),
      fileCopyScript (createStatement template owner)⟩ := by
    have hbound : ∀ n value, n ∈ ["db_name", "template", "owner"] →
        "-d".toList ∉ bound n value := by
      intro n value hn hmem
      obtain ⟨v, -, hv⟩ := List.mem_flatMap.mp hmem
      simp only [List.mem_cons, List.not_mem_nil, or_false] at hn hv
      obtain hv | hv := hv
      · exact absurd hv (by decide)
      · obtain rfl | rfl | rfl := hn <;> cases hv
    have hnot : "-d".toList ∉ "psql".toList :: ["-X".toList, "-q".toList, "-v".toList,
        "ON_ERROR_STOP=1".toList] ++ bound "db_name" (some name) ++ bound "template" template ++
          bound "owner" owner ++ ["-f".toList, "-".toList] := by
      have hconst : "-d".toList ∉ ["psql".toList, "-X".toList, "-q".toList, "-v".toList,
          "ON_ERROR_STOP=1".toList] ∧ "-d".toList ∉ ["-f".toList, "-".toList] := by decide
      simp only [List.mem_append, not_or]
      exact ⟨⟨⟨⟨hconst.1, hbound _ _ (by decide)⟩, hbound _ _ (by decide)⟩, hbound _ _ (by decide)⟩,
        hconst.2⟩
    have hassoc : ["-X".toList, "-q".toList, "-v".toList, "ON_ERROR_STOP=1".toList] ++
        bound "db_name" (some name) ++ bound "template" template ++ bound "owner" owner ++
          ["-f".toList, "-".toList] = ["-X".toList, "-q".toList, "-v".toList,
        "ON_ERROR_STOP=1".toList] ++ (bound "db_name" (some name) ++ (bound "template" template ++
          (bound "owner" owner ++ ["-f".toList, "-".toList]))) := by
      simp only [List.append_assoc]
    refine (pgCmd_eq (by decide) hnot).trans ?_
    exact congrArg (fun args => Invocation.mk ("psql".toList :: "-d".toList :: dbname :: args) _)
      hassoc
  have hresult : server.answers ("SELECT current_setting('server_version_num')::int >= 150000 " ++
      "AS has_strategy").toList =
        some [("has_strategy".toList, if 150000 ≤ server.version then ['t'] else ['f'])] :=
    if_pos tokens_version
  generalize hvars : boundVariables name (truthy? template) (truthy? owner) = vars
  -- the result of the query hides none of the names
  have hread : ∀ flag : Str, ∀ fileCopy, server.reads (interpolate (("has_strategy".toList, flag) ::
      vars) (createStatement template owner ++
        (if fileCopy then " STRATEGY = FILE_COPY;" else ";").toList)) =
      some (.createDatabase (cut name) ((truthy? template).map cut) ((truthy? owner).map cut)
        fileCopy) := by
    intro flag fileCopy
    subst hvars
    rw [interpolate_create ?_ ?_ ?_, reads_create]
    · cases truthy? template <;> cases truthy? owner <;> rfl
    · intro v hv
      rw [hv]
      cases truthy? owner <;> rfl
    · intro v hv
      rw [hv]
      rfl
  have hscript : server.script true vars
      [.gset ("SELECT current_setting('server_version_num')::int >= 150000 " ++
          "AS has_strategy").toList, .ifTrue "has_strategy".toList,
        .sql (createStatement template owner ++ " STRATEGY = FILE_COPY;".toList), .otherwise,
        .sql (createStatement template owner ++ ";".toList), .endIf] =
      some [.createDatabase (cut name) ((truthy? template).map cut) ((truthy? owner).map cut)
        (150000 ≤ server.version)] := by
    rw [Server.script, if_pos rfl, hresult, Option.bind_some]
    have hbranch : ∀ flag active, (decide (some flag = some ['t'])) = active →
        server.script true ([("has_strategy".toList, flag)] ++ vars)
          [.ifTrue "has_strategy".toList,
            .sql (createStatement template owner ++ " STRATEGY = FILE_COPY;".toList), .otherwise,
            .sql (createStatement template owner ++ ";".toList), .endIf] =
          some [.createDatabase (cut name) ((truthy? template).map cut) ((truthy? owner).map cut)
            active] := by
      rintro flag active rfl
      have hlookup : ([("has_strategy".toList, flag)] ++ vars).lookup "has_strategy".toList =
          some flag := by
        simp
      rw [Server.script, hlookup, script_branches]
      have hread := hread flag (decide (some flag = some ['t']))
      cases hflag : decide (some flag = some ['t']) <;> rw [hflag] at hread <;>
        exact congrArg (Option.map ([·])) hread
    by_cases hversion : 150000 ≤ server.version
    · rw [if_pos hversion, decide_eq_true hversion]
      exact hbranch _ _ (by decide)
    · rw [if_neg hversion, decide_eq_false hversion]
      exact hbranch _ _ (by decide)
  have hlines := lines_of_script template owner
  rw [hargv]
  change server.psql _ _ = _
  unfold Server.psql
  rw [psqlOptions_file_copy hname, Option.bind_eq_bind, Option.bind_some]
  dsimp only
  rw [if_pos (by decide), hlines, hvars, Option.bind_some]
  exact hscript

/-! ## Calls that are told exactly -/

/-- A name is cut exactly when it does not fit. -/
theorem cut_eq_self_iff {s : Str} : cut s = s ↔ Fits s := List.take_eq_self_iff s

/-- The same of a name that may be missing. -/
theorem map_cut_eq_self_iff {v : Option Str} : v.map cut = v ↔ ∀ s, v = some s → Fits s := by
  cases v with
  | none => simp
  | some s => simpa using cut_eq_self_iff

/-- Outside quotes a name stands for itself when it is in lower case, has no newline at its end and
is not reserved. -/
theorem folds_iff (h : Identifier name) :
    server.reserved ((chomp name).map Char.toLower) = false ∧
        cut ((chomp name).map Char.toLower) = name ↔ Folds server name := by
  obtain ⟨c, core, stop, hname, hchomp, hstop, hc, hcore, hlength⟩ := identifier_cases h
  have hfits : cut ((chomp name).map Char.toLower) = (chomp name).map Char.toLower := by
    rw [cut_eq_self_iff, hchomp, Fits, List.length_map, List.length_cons]
    omega
  have hident : '\n' ∉ c :: core := by
    rw [List.mem_cons, not_or]
    constructor
    · rintro rfl
      exact absurd hc (by decide)
    · exact fun hmem => absurd (hcore _ hmem) (by decide)
  rw [hfits, hchomp]
  constructor
  · rintro ⟨hreserved, hfold⟩
    -- the folded name is as long as the one without a newline
    have hlen : ((c :: core).map Char.toLower).length = (c :: core ++ stop).length := by
      rw [hfold, hname]
    have hnil : stop = [] := by
      rw [List.length_map, List.length_append] at hlen
      exact List.length_eq_zero_iff.mp (by omega)
    rw [hnil, List.append_nil] at hname
    rw [hname] at hfold ⊢
    refine ⟨fun d hd => ?_, hident, by rwa [hfold] at hreserved⟩
    exact List.map_inj_left.mp (hfold.trans (List.map_id _).symm) d hd
  · rintro ⟨hlower, hnewline, hreserved⟩
    have hnil : stop = [] := by
      obtain rfl | rfl := hstop
      · rfl
      · exact absurd (by simp [hname]) hnewline
    rw [hnil, List.append_nil] at hname
    have hfold : (c :: core).map Char.toLower = c :: core := by
      rw [← hname]
      exact (List.map_congr_left hlower).trans (List.map_id _)
    rw [hfold, ← hname]
    exact ⟨hreserved, rfl⟩

/-- What is accepted is run. -/
theorem validate_of_identifier {s : Str} (h : Identifier s) (label : String) :
    validatePgIdentifier s label = .ok () := if_pos h

/-- What passes the validation is an identifier. -/
theorem identifier_of_validate {s : Str} {label : String} {u : Unit}
    (h : validatePgIdentifier s label = .ok u) : Identifier s := by
  by_contra hnot
  have herror : validatePgIdentifier s label = .error _ := if_neg hnot
  rw [herror] at h
  cases h

/-- A call that gives commands was accepted. -/
theorem accepted_of_ok {invocations : List Invocation}
    (h : call.invocations dbname name = .ok invocations) : call.Accepted name := by
  cases call with
  | checkDbExists =>
    obtain ⟨u, hname, -⟩ := bind_ok_iff.mp h
    exact identifier_of_validate hname
  | terminateBackends =>
    obtain ⟨u, hname, -⟩ := bind_ok_iff.mp h
    exact identifier_of_validate hname
  | unsetTemplateFlag =>
    obtain ⟨u, hname, -⟩ := bind_ok_iff.mp h
    exact identifier_of_validate hname
  | dropDb =>
    obtain ⟨u, hname, -⟩ := bind_ok_iff.mp h
    exact identifier_of_validate hname
  -- Each of the four checks that a creation makes has passed.
  | createDb template owner strategy =>
    obtain ⟨u, hname, h⟩ := bind_ok_iff.mp h
    obtain ⟨v, ht, h⟩ := bind_ok_iff.mp h
    obtain ⟨w, ho, h⟩ := bind_ok_iff.mp h
    obtain ⟨x, hs, -⟩ := bind_ok_iff.mp h
    refine ⟨identifier_of_validate hname, fun t heq => ?_, fun o heq => ?_, fun s heq => ?_⟩
    · rw [validateOptional, heq] at ht
      exact identifier_of_validate ht
    · rw [validateOptional, heq] at ho
      exact identifier_of_validate ho
    · subst heq
      unfold validateStrategy at hs
      dsimp only at hs
      split at hs
      · next hany => simpa using hany
      · cases hs

/-- The commands that drop a database, of a name that is accepted. -/
theorem dropDb_eq (h : Identifier name) (forceDisconnect force clearTemplateFlag : Bool) :
    dropDb dbname name forceDisconnect force clearTemplateFlag = .ok
      ((if clearTemplateFlag then [pgCmd dbname ["psql".toList, "-c".toList,
          "UPDATE pg_database SET datistemplate=false WHERE datname='".toList ++ name ++ ['\'']]]
        else []) ++
      (if forceDisconnect then [pgCmd dbname ["psql".toList, "-c".toList,
          ("SELECT pg_terminate_backend(pid) FROM pg_stat_activity " ++ "WHERE datname='").toList ++
            name ++ "' AND pid <> pg_backend_pid()".toList]]
        else []) ++
      [if force then pgCmd dbname ["psql".toList, "-c".toList,
          "DROP DATABASE IF EXISTS ".toList ++ name ++ " WITH (FORCE)".toList]
        else pgCmd dbname ["dropdb".toList, "--if-exists".toList, name]]) := by
  have hvalid : validateName name = .ok () := validate_of_identifier h _
  unfold dropDb unsetTemplateFlag terminateBackends
  rw [hvalid]
  cases clearTemplateFlag <;> cases forceDisconnect <;> rfl

/-- The command that creates a database, of names that are accepted. -/
theorem createDb_eq {template owner strategy : Option Str}
    (h : (Call.createDb template owner strategy).Accepted name) :
    createDb dbname name template owner strategy = .ok
      [if strategy = some "file_copy".toList then createDbFileCopy dbname name template owner
        else pgCmd dbname
          ("createdb".toList :: option "-T" template ++ option "-O" owner ++ [name])] := by
  obtain ⟨hname, ht, ho, hs⟩ := h
  -- Accepted names pass the checks.
  have hname : validateName name = .ok () := validate_of_identifier hname _
  have ht : validateOptional template "template name" = .ok () := by
    unfold validateOptional
    split
    · rfl
    · next v heq => exact validate_of_identifier (ht v heq) _
  have ho : validateOptional owner "owner name" = .ok () := by
    unfold validateOptional
    split
    · rfl
    · next v heq => exact validate_of_identifier (ho v heq) _
  have hs : validateStrategy strategy = .ok () := by
    unfold validateStrategy
    split
    · rfl
    · next v => exact if_pos (by simpa using hs v rfl)
  unfold createDb
  rw [hname, ht, ho, hs]
  by_cases hcopy : strategy = some "file_copy".toList
  · rw [if_pos hcopy, if_pos hcopy]
    rfl
  · rw [if_neg hcopy, if_neg hcopy]
    rfl

/-- What is told, by what a call runs. -/
theorem told_iff_of_ok {invocations : List Invocation}
    (hok : call.invocations dbname name = .ok invocations) :
    Told server dbname name call ↔ invocations.map server.runs =
      (call.meant server name).map fun statement => some [statement] := by
  constructor
  · exact fun htold => htold invocations hok
  · intro heq others hothers
    rw [← Except.ok.inj (hok.symm.trans hothers)]
    exact heq

/-- A call with one command. -/
theorem told_iff_of_single {i : Invocation} {st st' : Statement}
    (hok : call.invocations dbname name = .ok [i]) (hruns : server.runs i = some [st])
    (hmeant : call.meant server name = [st']) : Told server dbname name call ↔ st = st' := by
  rw [told_iff_of_ok hok, hmeant, List.map_singleton, List.map_singleton, hruns]
  simp

/-- The commands of a drop. -/
theorem map_drop_iff {u t d : Invocation} (hu : server.runs u = some [.unsetTemplate (cut name)])
    (ht : server.runs t = some [.terminateBackends (cut name)]) (clear disconnect force : Bool) :
    ((if clear then [u] else []) ++ (if disconnect then [t] else []) ++ [d]).map server.runs =
        ((if clear then [Statement.unsetTemplate name] else []) ++
          (if disconnect then [Statement.terminateBackends name] else []) ++
            [Statement.dropDatabase name force]).map (fun statement => some [statement]) ↔
      (clear = true → Fits name) ∧ (disconnect = true → Fits name) ∧
        server.runs d = some [.dropDatabase name force] := by
  rw [← cut_eq_self_iff]
  cases clear <;> cases disconnect <;> simp [hu, ht]

/-- A name that folds to itself fits. -/
theorem Folds.fits (h : Folds server name) (hname : Identifier name) : Fits name := by
  have hcut := ((folds_iff hname).mpr h).2
  rw [← hcut, Fits, cut, List.length_take]
  omega

/-- A call that is accepted is told as it is meant when its names stand for themselves. -/
theorem told_iff (h : call.Accepted name) :
    Told server dbname name call ↔ call.Exact server name := by
  cases call with
  | checkDbExists =>
    have hok : Call.checkDbExists.invocations dbname name = .ok _ :=
      congrArg (· >>= _) (validate_of_identifier h "database name")
    rw [told_iff_of_single hok (runs_check h) rfl, Statement.countDatabases.injEq]
    exact cut_eq_self_iff
  | terminateBackends =>
    have hok : Call.terminateBackends.invocations dbname name = .ok _ :=
      congrArg (· >>= _) (validate_of_identifier h "database name")
    rw [told_iff_of_single hok (runs_terminate h) rfl, Statement.terminateBackends.injEq]
    exact cut_eq_self_iff
  | unsetTemplateFlag =>
    have hok : Call.unsetTemplateFlag.invocations dbname name = .ok _ :=
      congrArg (· >>= _) (validate_of_identifier h "database name")
    rw [told_iff_of_single hok (runs_unset h) rfl, Statement.unsetTemplate.injEq]
    exact cut_eq_self_iff
  -- A drop may clear the flag and end the sessions first.
  | dropDb forceDisconnect force clearTemplateFlag =>
    have hname : Identifier name := h
    have hok : (Call.dropDb forceDisconnect force clearTemplateFlag).invocations dbname name =
        .ok _ := dropDb_eq hname forceDisconnect force clearTemplateFlag
    rw [told_iff_of_ok hok]
    refine (map_drop_iff (runs_unset hname) (runs_terminate hname) _ _ _).trans ?_
    cases force with
    | false =>
      rw [if_neg Bool.false_ne_true, runs_dropdb hname]
      have hdrop : some [Statement.dropDatabase (cut name) false] =
          some [.dropDatabase name false] ↔ Fits name := by
        rw [← cut_eq_self_iff]
        simp
      rw [hdrop]
      exact ⟨fun h => h.2.2, fun h => ⟨fun _ => h, fun _ => h, h⟩⟩
    | true =>
      rw [if_pos rfl, runs_forced hname]
      have hdrop : (if server.reserved ((chomp name).map Char.toLower) then none
          else some [Statement.dropDatabase (cut ((chomp name).map Char.toLower)) true]) =
            some [.dropDatabase name true] ↔ Folds server name := by
        rw [← folds_iff hname]
        cases server.reserved ((chomp name).map Char.toLower) <;> simp
      rw [hdrop]
      exact ⟨fun h => h.2.2, fun h => ⟨fun _ => h.fits hname, fun _ => h.fits hname, h⟩⟩
  -- The name, the template and the owner have each to be kept whole.
  | createDb template owner strategy =>
    have hmeant : Told server dbname name (.createDb template owner strategy) ↔
        Statement.createDatabase (cut name) ((truthy? template).map cut) ((truthy? owner).map cut)
          (strategy = some "file_copy".toList ∧ 150000 ≤ server.version) =
        .createDatabase name (truthy? template) (truthy? owner)
          (strategy = some "file_copy".toList ∧ 150000 ≤ server.version) := by
      have hok : (Call.createDb template owner strategy).invocations dbname name = .ok _ :=
        createDb_eq h
      by_cases hcopy : strategy = some "file_copy".toList
      · rw [if_pos hcopy] at hok
        rw [told_iff_of_single hok (runs_file_copy h.1) rfl]
        simp only [hcopy, true_and]
      · rw [if_neg hcopy] at hok
        rw [told_iff_of_single hok (runs_createdb h.1 h.2.1 h.2.2.1) rfl]
        simp only [hcopy, false_and, decide_false]
    rw [hmeant, Statement.createDatabase.injEq, cut_eq_self_iff, map_cut_eq_self_iff,
      map_cut_eq_self_iff, eq_self, and_true]
    rfl

/-! ## One database -/

/-- The statements that are meant are about the database of the name. -/
theorem Call.meant_database {st : Statement} (h : st ∈ call.meant server name) :
    st.database = name := by
  cases call with
  | checkDbExists =>
    rw [List.mem_singleton.mp h]
    rfl
  | terminateBackends =>
    rw [List.mem_singleton.mp h]
    rfl
  | unsetTemplateFlag =>
    rw [List.mem_singleton.mp h]
    rfl
  | dropDb forceDisconnect force clearTemplateFlag =>
    simp only [Call.meant, List.mem_append, List.mem_ite_nil_right, List.mem_singleton] at h
    obtain (⟨-, rfl⟩ | ⟨-, rfl⟩) | rfl := h <;> rfl
  | createDb template owner strategy =>
    rw [List.mem_singleton.mp h]
    rfl

/-- What a call sends is what it is meant for, when it is told as it is meant. -/
theorem sent_of_told (h : Told server dbname name call) :
    ∀ st ∈ sent server dbname name call, st ∈ call.meant server name := by
  intro st hst
  unfold sent at hst
  split at hst
  · next invocations hok =>
    obtain ⟨i, hi, hst⟩ := List.mem_flatMap.mp hst
    have hmem : server.runs i ∈ (call.meant server name).map fun statement => some [statement] := by
      rw [← h invocations hok]
      exact List.mem_map_of_mem hi
    obtain ⟨st', hst', heq⟩ := List.mem_map.mp hmem
    rw [← heq, Option.getD_some, List.mem_singleton] at hst
    rwa [hst]
  · exact absurd hst List.not_mem_nil

/-- Any calls are about the database of exactly the name when its name, and those of the template
and the owner, have room in the catalog, and a forced drop is of a name that stands for itself
outside quotes. -/
theorem one_database_iff (server : Server) (dbname name : Str) (calls : List Call) :
    OneDatabase server dbname name calls ↔
      ∀ call ∈ calls, call.Accepted name → call.Exact server name := by
  constructor
  · exact fun h call hcall haccepted => (told_iff haccepted).mp (h.told call hcall)
  · intro h
    -- Each call is sent about the name, and about nothing else.
    have htold : ∀ call ∈ calls, Told server dbname name call := by
      intro call hcall invocations hok
      have haccepted := accepted_of_ok hok
      exact (told_iff haccepted).mpr (h call hcall haccepted) invocations hok
    -- The statements of the calls leave other databases as they are.
    refine ⟨htold, fun c c' hc d hd => ?_, fun hcheck c st hst => ?_⟩
    · refine hc.frame fun st hst => ?_
      obtain ⟨call, hcall, hst⟩ := List.mem_flatMap.mp hst
      rw [Call.meant_database (sent_of_told (htold call hcall) st hst)]
      exact Ne.symm hd
    · rw [List.mem_singleton.mp (sent_of_told (htold _ hcheck) st hst)]
      have hanswer : ∀ b : Bool, dbExists 0 (if b then "1\n".toList else "0\n".toList) = b := by
        decide
      exact hanswer (c name).isSome

/-- `MyApp` is dropped as `myapp` when the drop is forced. -/
theorem forced_drop_of_another :
    ¬∀ server dbname name calls, isIdent (chomp name) = true →
      OneDatabase server dbname name calls := by
  intro h
  have hone := h ⟨160000, fun _ => false⟩ "postgres".toList "MyApp".toList
    [.dropDb false true false] (by decide)
  have haccepted : isIdent (chomp "MyApp".toList) = true := by decide
  have hexact : Folds ⟨160000, fun _ => false⟩ "MyApp".toList :=
    (told_iff (show (Call.dropDb false true false).Accepted _ from haccepted)).mp
      (hone.told _ (List.mem_singleton.mpr rfl))
  exact absurd (hexact.lower 'M' (by decide)) (by decide)

end Fraisier.Dbops.Operations
