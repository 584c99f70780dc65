import Fraisier.Dbops.RollbackTemplate

/-!
# Surplus templates

`cleanup_templates` of `dbops/templates.py`. It binds the pattern as a variable of `psql` and then
hands its query over with `-c`, which sends a text as it is: the server gets `:'pattern'`, and there
is no such expression in SQL (`queryOf_query`). `cleans_older_iff` says what is left of the cleanup then:
it is right when there is nothing to clean up.
-/

namespace Fraisier.Dbops.TemplateCleanup

open Fraisier.Lib Str SqlText Client Operations Interaction
open Fraisier.Backup (validatePgIdentifier isIdent chomp)
open RollbackTemplate (Completed Raised Commands helper)

/-! ## `cleanup_templates` -/

/-- The prefix that is checked: `prefix.rstrip("_") or "t"`. -/
def checkedPrefix (start : Str) : Str :=
  let stem := start.rdropWhile (· = '_')
  if stem = [] then "t".toList else stem

/-- The query. -/
def query : Str :=
  ("SELECT datname FROM pg_database " ++ "WHERE datname LIKE :'pattern' " ++
    "ORDER BY oid DESC").toList

/-- The command of the query. -/
def listing (dbname pattern : Str) : Invocation :=
  pgCmd dbname ["psql".toList, "-t".toList, "-A".toList, "-v".toList, "pattern=".toList ++ pattern,
    "-c".toList, query]

/-- The lines that are not blank, stripped. -/
def templatesOf (stdout : Str) : List Str :=
  (stdout.strip.splitlines.map strip).filter (· ≠ [])

/-- `cleanup_templates`. -/
def cleanupTemplates (dbname dbName start : Str) (maxTemplates : ℕ) : Commands ℕ :=
  match validatePgIdentifier dbName "database name" with
  | .error e => .raise (.valueError e)
  | .ok () => match validatePgIdentifier (checkedPrefix start) "template prefix" with
    | .error e => .raise (.valueError e)
    | .ok () => do
      let listed ← ask (listing dbname (start ++ dbName ++ ['%']))
      if listed.code ≠ 0 then pure 0
      else do
        let toDrop := (templatesOf listed.stdout).drop maxTemplates
        toDrop.foldlM (fun () template => do
          let _ ← helper dbname template .terminateBackends
          let _ ← helper dbname template (.dropDb false false false)
          pure ()) ()
        pure toDrop.length

/-! ## The server -/

/-- `s LIKE pattern`. -/
def like : Str → Str → Bool
  | [], s => s.isEmpty
  | '%' :: p, s => s.tails.any (like p)
  | '_' :: p, s => match s with
    | [] => false
    | _ :: s => like p s
  | '\\' :: c :: p, s => match s with
    | [] => false
    | d :: s => c = d && like p s
  | c :: p, s => match s with
    | [] => false
    | d :: s => c = d && like p s

/-- The pattern of a query for the names of databases, newest first. -/
def readsQuery (sql : Str) : Option Str := do
  let ts ← tokens sql
  match ← after (tokensOf "SELECT datname FROM pg_database WHERE datname LIKE") ts with
  | .literal pattern :: rest => if rest = tokensOf "ORDER BY oid DESC" then some pattern else none
  | _ => none

/-- The query that a command sends. -/
def queryOf (i : Invocation) : Option Str :=
  match i.argv with
  | [] => none
  | tool :: args =>
    if tool = "psql".toList then do
      let o ← psqlOptions {} args
      match o.command, o.file with
      | some sql, none => readsQuery sql
      | _, _ => none
    else none

/-- The databases after a statement, which the server does not refuse. -/
def left (databases : List Str) : Statement → List Str
  | .dropDatabase name _ => databases.filter (· ≠ name)
  | _ => databases

/-- The databases after a command, and what it leaves. The databases are given newest first. -/
def respond (server : Server) (databases : List Str) (i : Invocation) : List Str × Completed :=
  match queryOf i with
  | some pattern =>
    (databases, { code := 0, stdout := (databases.filter (like pattern)).flatMap (· ++ ['\n']) })
  | none => match server.runs i with
    | some statements => (statements.foldl left databases, { code := 0 })
    | none => (databases, { code := 1 })

/-- The databases after the commands. -/
def leftBy (server : Server) (databases : List Str) (h : History fun _ : Invocation => Completed) :
    List Str := h.foldl (fun databases e => (respond server databases e.1).1) databases

/-! ## What is promised -/

/-- `<base>`, or with an underscore and digits after it. -/
def isTemplate (base name : Str) : Bool :=
  name = base || name.startsWith (base ++ ['_']) &&
    !(name.drop (base.length + 1)).isEmpty && (name.drop (base.length + 1)).all Char.isDigit

/-- Arguments that the checks accept. -/
structure Request where
  dbName : Str
  start : Str
  maxTemplates : ℕ
  validName : Identifier dbName
  validPrefix : Identifier (checkedPrefix start)

/-- The templates of the database, newest first, beyond the ones that are kept. -/
def Request.surplus (r : Request) (databases : List Str) : List Str :=
  (databases.filter (isTemplate (r.start ++ r.dbName))).drop r.maxTemplates

/-- The run on a server that refuses nothing. -/
def Request.cleanup (r : Request) (server : Server) (dbname : Str) (databases : List Str) :
    History (fun _ : Invocation => Completed) × Except Raised ℕ :=
  (cleanupTemplates dbname r.dbName r.start r.maxTemplates).run
    (fun h i => (respond server (leftBy server databases h) i).2) []

/-- The surplus is dropped and nothing else, and its number is returned. -/
structure Cleans (server : Server) (dbname : Str) (r : Request) (databases : List Str) : Prop where
  removed : leftBy server databases (r.cleanup server dbname databases).1 =
    databases.filter (· ∉ r.surplus databases)
  returned : (r.cleanup server dbname databases).2 = .ok (r.surplus databases).length

variable {server : Server} {dbname : Str} {r : Request} {databases : List Str}

/-- A template is the base name, alone or with a number. -/
theorem isTemplate_iff {base name : Str} : isTemplate base name = true ↔
    name = base ∨ ∃ n, n ≠ [] ∧ (∀ c ∈ n, c.isDigit = true) ∧ name = base ++ '_' :: n := by
  unfold isTemplate
  simp only [Bool.or_eq_true, Bool.and_eq_true, decide_eq_true_eq, Bool.not_eq_true',
    List.isEmpty_eq_false_iff, List.all_eq_true, startsWith, List.isPrefixOf_iff_prefix]
  refine or_congr_right ⟨?_, ?_⟩
  -- What follows the base name and the underscore is the number.
  · rintro ⟨⟨⟨n, rfl⟩, hne⟩, hdigits⟩
    have hdrop : (base ++ ['_'] ++ n).drop (base.length + 1) = n := by
      have hlength : base.length + 1 = (base ++ ['_']).length := by simp
      rw [hlength, List.drop_left]
    rw [hdrop] at hne hdigits
    exact ⟨n, hne, hdigits, by rw [List.append_assoc]; rfl⟩
  · rintro ⟨n, hne, hdigits, rfl⟩
    have hdrop : (base ++ '_' :: n).drop (base.length + 1) = n := by
      rw [List.drop_append]
      simp
    rw [hdrop]
    exact ⟨⟨⟨n, by rw [List.append_assoc]; rfl⟩, hne⟩, hdigits⟩

/-! ## The query -/

/-- The listing is psql's with the pattern as a variable. -/
theorem pgCmd_listing (pattern : Str) : listing dbname pattern = ⟨["psql".toList, "-d".toList, dbname,
    "-t".toList, "-A".toList, "-v".toList, "pattern=".toList ++ pattern, "-c".toList, query], []⟩ := by
  have hnot : "-d".toList ∉ ["psql".toList, "-t".toList, "-A".toList, "-v".toList,
      "pattern=".toList ++ pattern, "-c".toList, query] := by
    have hpattern : "-d".toList ≠ "pattern=".toList ++ pattern := nofun
    have hother : "-d".toList ∉ ["psql".toList, "-t".toList, "-A".toList, "-v".toList,
        "-c".toList] ∧ "-d".toList ≠ query := by decide
    simp only [List.mem_cons, List.not_mem_nil, or_false, not_or] at hother ⊢
    tauto
  exact pgCmd_eq (by decide) hnot

/-- The words before the pattern. -/
def queryWords : List Token :=
  [.word "select".toList, .word "datname".toList, .word "from".toList, .word "pg_database".toList,
    .word "where".toList, .word "datname".toList, .word "like".toList]

set_option maxRecDepth 2000 in
/-- The words of the query. -/
theorem like_words : tokensOf "SELECT datname FROM pg_database WHERE datname LIKE" = queryWords := by
  rfl

set_option maxRecDepth 2000 in
/-- The name of the variable is sent, with the colon before it. -/
theorem tokens_query : tokens query = some (queryWords ++ [.symbol ':', .literal "pattern".toList,
    .word "order".toList, .word "by".toList, .word "oid".toList, .word "desc".toList]) := by
  have hfront : run .blank "SELECT datname FROM pg_database WHERE datname LIKE ".toList =
      (queryWords, .blank) := by rfl
  have hrest : run .blank ":'pattern' ORDER BY oid DESC".toList = ([.symbol ':',
      .literal "pattern".toList, .word "order".toList, .word "by".toList, .word "oid".toList],
        .word "desc".toList) := by rfl
  have hquery : query = "SELECT datname FROM pg_database WHERE datname LIKE ".toList ++
      ":'pattern' ORDER BY oid DESC".toList := by rfl
  rw [hquery, tokens, run_append, hfront]
  dsimp only
  rw [hrest]
  rfl

/-- The server cannot read it as a query. -/
theorem readsQuery_query : readsQuery query = none := by
  rw [readsQuery, tokens_query, Option.bind_eq_bind, Option.bind_some, like_words, after_append]
  rfl

/-- The server takes the query as no statement it knows. -/
theorem reads_query : server.reads query = none := by
  rw [Server.reads, tokens_query, Option.bind_some, Server.parse, drop_words,
    after_eq_none (by decide), create_words, after_eq_none (by decide), tokensOf_eq run_count,
    after_eq_none (by decide), tokensOf_eq run_terminate, after_eq_none (by decide),
    tokensOf_eq run_unset, after_eq_none (by decide)]

/-- The options of the listing are read as psql reads them. -/
theorem psqlOptions_listing (pattern : Str) : psqlOptions {} ["-d".toList, dbname, "-t".toList,
    "-A".toList, "-v".toList, "pattern=".toList ++ pattern, "-c".toList, query] =
      some { dbname := some dbname, vars := [("pattern".toList, pattern)], command := some query } := by
  rfl

/-- The query fails. -/
theorem respond_listing (pattern : Str) :
    respond server databases (listing dbname pattern) = (databases, { code := 1 }) := by
  -- The variable is not replaced in what `-c` is given, so the query is none that the server reads.
  have hquery : queryOf (listing dbname pattern) = none := by
    rw [pgCmd_listing, queryOf]
    dsimp only
    rw [if_pos rfl, psqlOptions_listing, Option.bind_eq_bind, Option.bind_some]
    dsimp only
    rw [readsQuery_query]
  have hruns : server.runs (listing dbname pattern) = none := by
    rw [pgCmd_listing, Server.runs]
    dsimp only
    rw [if_pos rfl, Server.psql, psqlOptions_listing, Option.bind_eq_bind, Option.bind_some]
    dsimp only
    rw [reads_query, Option.map_none]
  unfold respond
  rw [hquery, hruns]

/-- Nothing but the query is run. -/
theorem cleanup_eq : r.cleanup server dbname databases =
    ([⟨listing dbname (r.start ++ r.dbName ++ ['%']), { code := 1 }⟩], .ok 0) := by
  have hanswer : (respond server (leftBy server databases [])
      (listing dbname (r.start ++ r.dbName ++ ['%']))).2 = { code := 1 } :=
    congrArg Prod.snd (respond_listing _)
  unfold Request.cleanup cleanupTemplates
  rw [validate_of_identifier r.validName, validate_of_identifier r.validPrefix]
  dsimp only
  rw [run_ask_bind, hanswer]
  rfl

/-- The cleanup is right when there are no more templates than are kept. -/
theorem cleans_older_iff (server : Server) (dbname : Str) (r : Request) (databases : List Str) :
    Cleans server dbname r databases ↔
      (databases.filter (isTemplate (r.start ++ r.dbName))).length ≤ r.maxTemplates := by
  -- The listing fails, so nothing is dropped and nothing is returned.
  have hleft : leftBy server databases (r.cleanup server dbname databases).1 = databases := by
    rw [cleanup_eq]
    exact congrArg Prod.fst (respond_listing _)
  have hsurplus : r.surplus databases = [] ↔
      (databases.filter (isTemplate (r.start ++ r.dbName))).length ≤ r.maxTemplates :=
    List.drop_eq_nil_iff
  -- Then it is right exactly when there is nothing to drop.
  rw [← hsurplus]
  constructor
  · intro h
    have hreturned := h.returned
    rw [cleanup_eq] at hreturned
    exact List.eq_nil_of_length_eq_zero (Except.ok.inj hreturned).symm
  · intro h
    refine ⟨?_, ?_⟩
    · rw [hleft, h]
      simp
    · rw [cleanup_eq, h]
      rfl

/-- A request to keep one template. -/
def keepOne : Request where
  dbName := "app".toList
  start := "template_".toList
  maxTemplates := 1
  validName := show isIdent (chomp "app".toList) = true by decide
  validPrefix := show isIdent (chomp (checkedPrefix "template_".toList)) = true by decide

/-- The older one of two templates stays where one is to be kept. -/
theorem older_stays : ¬Cleans ⟨160000, fun _ => false⟩ "postgres".toList keepOne
    ["template_app_1".toList, "template_app".toList, "app".toList] := by
  intro h
  have hreturned := h.returned
  rw [cleanup_eq] at hreturned
  exact absurd (Except.ok.inj hreturned) (by decide)

end Fraisier.Dbops.TemplateCleanup
