import Mathlib.Algebra.Ring.Nat
import Mathlib.Data.List.MinMax
import Mathlib.Data.Nat.Log
import Fraisier.Lib.Text
import Fraisier.Unit.Validator

/-!
# `run_backup`

`pg_dump` into a directory, and the checks of what it wrote: that the archive can be read, that a lean
dump carries no rows of its TVIEWs, and that the dump is not below half the size of the one before it.
The one before it is found by a pattern of file names in the directory. `pg_dump`, `pg_restore` and the
clock are an `Env`.
-/

namespace Fraisier.Backup

open Fraisier.Lib Str
open Fraisier.Unit (Message)

/-! ## Arguments -/

/-- What is dumped. -/
inductive Mode
  | full | slim
  deriving DecidableEq, Repr

/-- The mode as it is written. -/
def Mode.text : Mode → Str
  | .full => "full".toList
  | .slim => "slim".toList

/-- The arguments of `run_backup`. -/
structure Call where
  dbName : Str
  outputDir : Str
  databaseUrl : Str
  compression : Str := "zstd:9".toList
  mode : Mode := .full
  excludedTables : List Str := []
  jobs : ℤ := 1
  tviewTables : List (Str × Str) := []

/-- How `run_backup` raises. -/
inductive BackupError
  | valueError (message : Message)
  /-- `pg_dump` could not be run. -/
  | raised
  deriving DecidableEq, Repr

/-- What `$` matches at: the end of the text, or a newline there. -/
def chomp (s : Str) : Str := if s.endsWith ['\n'] then s.dropLast else s

/-- A character of `_IDENT_RE`. -/
def isIdentChar (c : Char) : Bool := c.isAlphanum || c = '_'

/-- An identifier that `_IDENT_RE` matches, without a newline at its end. -/
def isIdent : Str → Bool
  | [] => false
  | c :: s => (c.isAlpha || c = '_') && s.all isIdentChar && s.length ≤ 62

/-- `validate_pg_identifier`. -/
def validatePgIdentifier (name : Str) (label : String) : Except BackupError Unit :=
  if isIdent (chomp name) then .ok ()
  else .error (.valueError [.lit "Invalid ", .lit label, .lit ": ", .repr name,
    .lit " — must match [a-zA-Z_][a-zA-Z0-9_]\x7b0,62\x7d"])

/-- `_validate_compression`. -/
def validateCompression (value : Str) : Except BackupError Unit :=
  let (algo, colon, level) := partition ':' (chomp value)
  if ["zstd", "lz4", "gzip", "none"].any (·.toList = algo) &&
      (!colon || !level.isEmpty && level.all isDecimal) then .ok ()
  else .error (.valueError [.lit "Invalid compression: ", .repr value,
    .lit " — must match (zstd|lz4|gzip|none)[:<level>]"])

/-- A character of `_PATH_RE`. -/
def isPathChar (c : Char) : Bool := c.isAlphanum || "_./ -".toList.contains c

/-- `validate_file_path`, without a base. -/
def validateFilePath (path : Str) : Except BackupError Unit :=
  if (chomp path).isEmpty || !(chomp path).all isPathChar then
    .error (.valueError [.lit "Invalid file path: ", .repr path])
  else if (PurePath.of path).parts.contains "..".toList then
    .error (.valueError [.lit "Path traversal detected: ", .repr path])
  else .ok ()

/-- The check of `jobs`. -/
def validateJobs (jobs : ℤ) : Except BackupError Unit :=
  if jobs < 1 then .error (.valueError [.lit "jobs must be a positive integer, got ", .num jobs])
  else .ok ()

/-- What `run_backup` checks before it runs `pg_dump`. -/
def Call.validate (call : Call) : Except BackupError Unit := do
  validateJobs call.jobs
  validatePgIdentifier call.dbName "database name"
  validateCompression call.compression
  validateFilePath call.outputDir
  if call.mode = .slim then call.excludedTables.forM (validatePgIdentifier · "excluded table")

/-! ## Names -/

/-- The last digits of a number, as many as the width. -/
def digits : ℕ → ℕ → Str
  | 0, _ => []
  | width + 1, n => digits width (n / 10) ++ [Nat.digitChar (n % 10)]

/-- A time of day in UTC, to the minute. -/
structure Minute where
  year : ℕ
  month : ℕ
  day : ℕ
  hour : ℕ
  minute : ℕ
  year_mem : 1000 ≤ year ∧ year ≤ 9999
  month_le : month ≤ 12
  day_le : day ≤ 31
  hour_lt : hour < 24
  minute_lt : minute < 60

/-- `strftime("%Y%m%d")`. -/
def Minute.date (now : Minute) : Str := digits 4 now.year ++ digits 2 now.month ++ digits 2 now.day

/-- `strftime("%H%M")`. -/
def Minute.time (now : Minute) : Str := digits 2 now.hour ++ digits 2 now.minute

/-- The dump leaves the rows of TVIEWs out. -/
def Call.lean (call : Call) : Bool := !call.tviewTables.isEmpty

/-- `algo`. -/
def Call.algo (call : Call) : Str := (partition ':' call.compression).1

/-- `suffix`. -/
def Call.suffix (call : Call) : Str :=
  if call.algo ≠ "none".toList then '_' :: call.algo else []

/-- What the name of a dump begins with. -/
def Call.start (call : Call) : Str := call.dbName ++ '_' :: call.mode.text

/-- `filename`. -/
def Call.filename (call : Call) (now : Minute) : Str :=
  call.start ++ '_' :: now.date ++ '_' :: now.time ++
    (if call.lean then "_lean".toList else []) ++ call.suffix ++ ".dump".toList

/-- The name is found by the pattern `{db_name}_{mode}_*.dump`. -/
def Call.finds (call : Call) (name : Str) : Bool :=
  let start := call.start ++ ['_']
  name.startsWith start && endsWith (name.drop start.length) ".dump".toList

/-- What follows the text, if the string begins with it. -/
def afterText (start s : Str) : Option Str :=
  if s.startsWith start then some (s.drop start.length) else none

/-- What follows the digits, if the string begins with as many. -/
def afterDigits : ℕ → Str → Option Str
  | 0, s => some s
  | _ + 1, [] => none
  | n + 1, c :: s => if isDecimal c then afterDigits n s else none

/-- A character of an algorithm in a pattern: `[a-z0-9]`. -/
def isAlgoChar (c : Char) : Bool := c.isLower || c.isDigit

/-- `(?:_[a-z0-9]+)?\.dump$`. -/
def endsLean (s : Str) : Bool :=
  chomp s = ".dump".toList || match s with
    | [] => false
    | c :: s => c = '_' && !(s.takeWhile isAlgoChar).isEmpty &&
      chomp (s.dropWhile isAlgoChar) = ".dump".toList

/-- `_LEAN_NAME_RE`, at the beginning of the string. -/
def leanAt (s : Str) : Bool :=
  ((afterText ['_'] s).bind fun s => (afterDigits 8 s).bind fun s =>
    (afterText ['_'] s).bind fun s => (afterDigits 4 s).bind fun s =>
      (afterText "_lean".toList s).map endsLean).getD false

/-- `is_lean_dump`, of a name. -/
def isLeanDump (name : Str) : Bool := name.tails.any leanAt

/-! ## The directory -/

/-- A dump: one file, or a directory of files. -/
inductive Dump
  | file (size : ℕ)
  | directory (sizes : List ℕ)
  deriving DecidableEq, Repr

/-- `_dump_size`. -/
def Dump.size : Dump → ℕ
  | .file size => size
  | .directory sizes => sizes.sum

/-- A dump in a directory, and when it was last modified. -/
structure Entry where
  dir : PurePath
  name : Str
  dump : Dump
  mtime : ℕ
  deriving DecidableEq, Repr

/-- The dumps that there are. -/
abbrev Disk := List Entry

/-- What a command leaves under the name it was to write. -/
inductive Left
  /-- What was there before. -/
  | kept
  | nothing
  | dump (dump : Dump)
  deriving DecidableEq, Repr

/-- The dumps without those of the name. -/
def Disk.without (disk : Disk) (dir : PurePath) (name : Str) : Disk :=
  disk.filter fun e => ¬(e.dir = dir ∧ e.name = name)

/-- The dumps, after a command has left something. -/
def Disk.leave (disk : Disk) (dir : PurePath) (name : Str) (mtime : ℕ) : Left → Disk
  | .kept => disk
  | .nothing => disk.without dir name
  | .dump dump => disk.without dir name ++ [⟨dir, name, dump, mtime⟩]

/-- `_previous_same_mode_backup`. -/
def Call.previous (call : Call) (dir : PurePath) (current : Str) (disk : Disk) : Option Entry :=
  (disk.filter fun e => e.dir = dir && call.finds e.name && e.name ≠ current &&
    isLeanDump e.name = isLeanDump current).argmax Entry.mtime

/-! ## The checks -/

/-- `ArchiveVerdict`. -/
inductive ArchiveVerdict
  | valid | invalid | unverifiable
  deriving DecidableEq, Repr

/-- `ArchiveCheck`. -/
structure ArchiveCheck where
  verdict : ArchiveVerdict
  detail : Str := []
  tableEntries : List Str := []
  tableDataEntries : List Str := []

/-- A table as it is listed. -/
def tableEntry (table : Str × Str) : Str := table.1 ++ ' ' :: table.2

/-- Names of tables, with commas. -/
def tableNames (tables : List (Str × Str)) : Message :=
  List.intercalate [.lit ", "] (tables.map fun table => [.val table.1, .lit ".", .val table.2])

/-- `_kept_tview_rows`: the problems, empty where there are none. -/
def keptTviewRows (check : ArchiveCheck) (tviews : List (Str × Str)) : Message :=
  if check.verdict ≠ .valid then []
  else
    let missing := tviews.filter fun table => !check.tableEntries.contains (tableEntry table)
    let kept := tviews.filter fun table => check.tableDataEntries.contains (tableEntry table)
    List.intercalate [.lit "; "]
      ((if kept.isEmpty then [] else [.lit "it still carries the rows of " :: tableNames kept]) ++
        if missing.isEmpty then [] else [.lit "it does not create " :: tableNames missing])

/-- An integer as a float: the nearest multiple of a power of two that has 53 digits, and of two the
even one. -/
def toFloat (n : ℕ) : ℕ :=
  let unit := 2 ^ (n.log2 - 52)
  if 2 * (n % unit) < unit ∨ 2 * (n % unit) = unit ∧ n / unit % 2 = 0 then n / unit * unit
  else (n / unit + 1) * unit

/-- The size is below `_SIZE_SANITY_RATIO` of the one before. -/
def tooSmall (size previous : ℕ) : Bool := 0 < previous && 2 * size < toFloat previous

/-! ## A run -/

/-- `BackupResult`. -/
structure BackupResult where
  success : Bool
  backupPath : Str := []
  error : Message := []
  deriving DecidableEq, Repr

/-- How `pg_dump` ends. -/
inductive PgDump
  /-- It could not be run. -/
  | raised
  | failed (stderr : Str) (left : Left)
  | wrote (dump : Dump)

/-- What it leaves. -/
def PgDump.left : PgDump → Left
  | .raised => .kept
  | .failed _ left => left
  | .wrote dump => .dump dump

/-- What `run_backup` calls, while it runs. -/
structure Env where
  now : Minute
  /-- When `pg_dump` has last written. -/
  mtime : ℕ
  /-- `_pg_cmd`, of a command and a URL. -/
  pgCmd : List Str → Str → PgDump
  /-- `verify_archive`, of what was written: for its table of contents, and for its TVIEWs. -/
  toc : ArchiveCheck
  rows : ArchiveCheck

/-- `_quoted`. -/
def quoted (table : Str × Str) : Str :=
  let quote part := '"' :: part.flatMap (fun c => if c = '"' then ['"', '"'] else [c]) ++ ['"']
  quote table.1 ++ '.' :: quote table.2

/-- `cmd`. -/
def Call.cmd (call : Call) (backupPath : Str) : List Str :=
  ["pg_dump".toList] ++
    (if 1 < call.jobs then ["-Fd".toList, "-j".toList, (toString call.jobs).toList]
      else ["-Fc".toList]) ++
    ["--compress=".toList ++ call.compression, "-f".toList, backupPath] ++
    (if call.mode = .slim then call.excludedTables.flatMap fun table => ["-T".toList, table] else []) ++
    (call.tviewTables.flatMap fun table => ["--exclude-table-data".toList, quoted table]) ++
    [call.dbName]

/-- What `run_backup` makes of a dump that `pg_dump` wrote. -/
def Call.judge (call : Call) (env : Env) (backupPath : Str) (dump : Dump) (previous : Option Entry) :
    BackupResult :=
  let refuse error : BackupResult := { success := false, backupPath, error }
  if env.toc.verdict = .invalid then
    refuse [.lit "backup failed TOC verification: ", .val env.toc.detail]
  else if call.lean ∧ keptTviewRows env.rows call.tviewTables ≠ [] then
    refuse (.lit "the lean dump is not lean: " :: keptTviewRows env.rows call.tviewTables)
  else match previous with
    | none => { success := true, backupPath }
    | some previous =>
      if tooSmall dump.size previous.dump.size then
        refuse [.lit "backup size sanity check failed: new=", .num dump.size, .lit " bytes, prev=",
          .num previous.dump.size, .lit " bytes (",
          .num (dump.size * 100 / previous.dump.size : ℕ), .lit "% of previous)"]
      else { success := true, backupPath }

/-- `run_backup`, in the directory that the call's path is, and the dumps after it. -/
def runBackup (dir : PurePath) (env : Env) (call : Call) (disk : Disk) :
    Except BackupError BackupResult × Disk :=
  match call.validate with
  | .error e => (.error e, disk)
  | .ok () =>
    let filename := call.filename env.now
    let backupPath := call.outputDir ++ '/' :: filename
    let ended := env.pgCmd (call.cmd backupPath) call.databaseUrl
    let disk' := disk.leave dir filename env.mtime ended.left
    match ended with
    | .raised => (.error .raised, disk')
    | .failed stderr _ => (.ok { success := false, backupPath, error := [.val (strip stderr)] }, disk')
    | .wrote dump =>
      (.ok (call.judge env backupPath dump (call.previous dir filename disk')), disk')

end Fraisier.Backup
