import Fraisier.Backup.Dump
import Fraisier.Dbops.Client

/-!
# The database helpers

The commands of `operations.py` for one database: what is validated, and the arguments and the input
that `psql`, `createdb` and `dropdb` are given. `dbname` is the database of the connection URL, to
which each of them connects.
-/

namespace Fraisier.Dbops.Operations

open Fraisier.Lib Str Client
open Fraisier.Backup (BackupError validatePgIdentifier)

/-! ## Commands -/

/-- `_DB_FLAG_FOR_TOOL`. -/
def dbFlagForTool : List (Str × Str) :=
  [("psql".toList, "-d".toList), ("pg_restore".toList, "-d".toList),
    ("createdb".toList, "--maintenance-db".toList), ("dropdb".toList, "--maintenance-db".toList)]

variable (dbname name : Str)

/-- `_pg_cmd`. -/
def pgCmd (cmd : List Str) (inputText : Str := []) : Invocation :=
  match cmd with
  | [] => ⟨[], inputText⟩
  | tool :: args =>
    let dbArgs := match dbFlagForTool.lookup tool with
      | some flag => if flag ∈ cmd then [] else [flag, dbname]
      | none => []
    ⟨tool :: dbArgs ++ args, inputText⟩

/-- The check of the name. -/
def validateName : Except BackupError Unit := validatePgIdentifier name "database name"

/-- `check_db_exists`, up to the answer. -/
def checkDbExists : Except BackupError (List Invocation) := do
  validateName name
  pure [pgCmd dbname ["psql".toList, "-t".toList, "-A".toList, "-c".toList,
    "SELECT count(*) FROM pg_database WHERE datname='".toList ++ name ++ ['\'']]]

/-- The answer of `check_db_exists`. -/
def dbExists (code : ℤ) (stdout : Str) : Bool := code = 0 && stdout.strip = ['1']

/-- `terminate_backends`. -/
def terminateBackends : Except BackupError (List Invocation) := do
  validateName name
  pure [pgCmd dbname ["psql".toList, "-c".toList,
    ("SELECT pg_terminate_backend(pid) FROM pg_stat_activity " ++ "WHERE datname='").toList ++
      name ++ "' AND pid <> pg_backend_pid()".toList]]

/-- `unset_template_flag`. -/
def unsetTemplateFlag : Except BackupError (List Invocation) := do
  validateName name
  pure [pgCmd dbname ["psql".toList, "-c".toList,
    "UPDATE pg_database SET datistemplate=false WHERE datname='".toList ++ name ++ ['\'']]]

/-- `drop_db`. -/
def dropDb (forceDisconnect force clearTemplateFlag : Bool) :
    Except BackupError (List Invocation) := do
  validateName name
  let cleared ← if clearTemplateFlag then unsetTemplateFlag dbname name else pure []
  let terminated ← if forceDisconnect then terminateBackends dbname name else pure []
  let dropped :=
    if force then
      pgCmd dbname ["psql".toList, "-c".toList,
        "DROP DATABASE IF EXISTS ".toList ++ name ++ " WITH (FORCE)".toList]
    else pgCmd dbname ["dropdb".toList, "--if-exists".toList, name]
  pure (cleared ++ terminated ++ [dropped])

/-! ## `create_db` -/

/-- `TEMPLATE_STRATEGIES`. -/
def templateStrategies : List String := ["file_copy", "wal_log"]

/-- A value that is not empty. -/
def truthy? (value : Option Str) : Option Str := value.filter (· ≠ [])

/-- What `_create_db_file_copy` runs. -/
def createStatement (template owner : Option Str) : Str :=
  "CREATE DATABASE :\"db_name\"".toList ++
    (if (truthy? template).isSome then " TEMPLATE :\"template\"".toList else []) ++
    (if (truthy? owner).isSome then " OWNER :\"owner\"".toList else [])

/-- `_FILE_COPY_SCRIPT`. -/
def fileCopyScript (create : Str) : Str :=
  ("SELECT current_setting('server_version_num')::int >= 150000 AS has_strategy \\gset\n" ++
    "\\if :has_strategy\n").toList ++ create ++ " STRATEGY = FILE_COPY;\n\\else\n".toList ++
      create ++ ";\n\\endif\n".toList

/-- The option that binds a variable. -/
def bound (variableName : String) (value : Option Str) : List Str :=
  (truthy? value).toList.flatMap fun value =>
    ["-v".toList, variableName.toList ++ '=' :: value]

/-- `_create_db_file_copy`. -/
def createDbFileCopy (template owner : Option Str) : Invocation :=
  pgCmd dbname (["psql".toList, "-X".toList, "-q".toList, "-v".toList, "ON_ERROR_STOP=1".toList] ++
      bound "db_name" (some name) ++ bound "template" template ++ bound "owner" owner ++
      ["-f".toList, "-".toList])
    (fileCopyScript (createStatement template owner))

/-- The check of a value that may be left out. -/
def validateOptional (value : Option Str) (label : String) : Except BackupError Unit :=
  match truthy? value with
  | none => .ok ()
  | some value => validatePgIdentifier value label

/-- The check of the strategy. -/
def validateStrategy (strategy : Option Str) : Except BackupError Unit :=
  match strategy with
  | none => .ok ()
  | some strategy =>
    if templateStrategies.any (·.toList = strategy) then .ok ()
    else .error (.valueError [.lit "Invalid template strategy: ", .repr strategy,
      .lit " — must be one of ", .lit (", ".intercalate templateStrategies)])

/-- An option of `createdb`. -/
def option (flag : String) (value : Option Str) : List Str :=
  (truthy? value).toList.flatMap fun value => [flag.toList, value]

/-- `create_db`. -/
def createDb (template owner strategy : Option Str) : Except BackupError (List Invocation) := do
  validateName name
  validateOptional template "template name"
  validateOptional owner "owner name"
  validateStrategy strategy
  if strategy = some "file_copy".toList then pure [createDbFileCopy dbname name template owner]
  else
    pure [pgCmd dbname ("createdb".toList :: option "-T" template ++ option "-O" owner ++ [name])]

end Fraisier.Dbops.Operations
