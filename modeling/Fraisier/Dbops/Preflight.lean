import Fraisier.Lib.Fallible
import Fraisier.Dbops.ConfitureContract

/-!
# Reading a migration preflight

`_run_confiture_preflight` of `dbops/preflight.py`: confiture replays the pending migrations on a
temporary database and prints a list of issues. An exit other than 0 and 7 is an error. Otherwise
two passes read the issues: the first records the migrations that cannot run in a transaction as
skipped, the second makes one failed check of the errors of each migration that was not.
-/

namespace Fraisier.Dbops

open Fraisier.Lib Json Unicode

/-! ## Results -/

/-- The `error` of a check: a value of the report, or a text joined from what a check said before
and one more value. -/
inductive CheckError
  | value (v : Json)
  | joined (before : CheckError) (v : Json)

/-- How deep the value is nested that an f-string shows of it. -/
def CheckError.depth : CheckError → ℕ
  | .value v => v.depth
  | .joined _ _ => 0

/-- `MigrationCheck`, as far as it is filled. -/
structure MigrationCheck where
  version : Json
  name : Text
  passed : Bool
  error : Option CheckError := none
  skipped : Bool := false
  skippedReason : Option Json := none

/-- `MigrationPreflightResult`, less its times. -/
structure MigrationPreflightResult where
  migrations : List MigrationCheck
  migrationsChecked : Json

/-- `MigrationPreflightResult.all_passed`. -/
def MigrationPreflightResult.allPassed (result : MigrationPreflightResult) : Bool :=
  (result.migrations.filter (!·.skipped)).all (·.passed)

/-- A line of `_extract_preflight_issues`: the words that are no empty text, and the migration and
the error when they are given. -/
structure IssueLine where
  words : List Text
  migration : Option Json
  error : Option Json

/-- What a failed preflight says of itself. -/
inductive FailureDetail
  /-- The error envelope: its code, message and remedy. -/
  | envelope (code message : Text) (actionable : Option Text)
  | issues (lines : List IssueLine)
  /-- `stdout.strip()[:2000]`. -/
  | raw (stdout : Str)

/-- The message of a `DatabaseError`. -/
inductive PreflightError
  /-- `_format_preflight_failure`. -/
  | failed (exit : ℤ) (failureClass : ConfitureFailureClass) (detail : FailureDetail) (stderr : Str)
  /-- `confiture preflight returned an unrecognized output schema`. -/
  | unrecognized (detail : FailureDetail)

/-- What `_run_confiture_preflight` raises. -/
inductive PreflightRaised
  | databaseError (e : PreflightError)
  | other (e : UseError)

/-! ## Diagnostics -/

/-- One of the words that `" ".join` joins, unless it is falsy. -/
def issueWord (v : Json) : Except UseError (Option Text) :=
  if v.truthy then match v with
    | .str s => .ok (some s)
    | _ => .error .typeError
  else .ok none

/-- A value that an f-string shows when it is truthy. -/
def shownIf (limit : ℕ) (v : Json) : Except UseError (Option Json) :=
  if v.truthy then some <$> v.shown limit else .ok none

/-- `(issue.get("details") or {}).get("error")`. -/
def detailsError (issue : List (Text × Json)) : Except UseError Json := do
  let details ← ((getD issue "details" .null).orElse (.obj [])).members
  pure (getD details "error" .null)

/-- The line of one issue. -/
def issueLine (limit : ℕ) (issue : Json) : Except UseError IssueLine := do
  let issue ← issue.members
  let error ← detailsError issue
  let severity ← issueWord (getD issue "severity" (.str []))
  let code ← issueWord (getD issue "code" (.str []))
  let message ← issueWord (getD issue "message" (.str []))
  let migration ← shownIf limit (getD issue "migration" .null)
  let error ← shownIf limit error
  pure { words := [severity, code, message].reduceOption, migration, error }

/-- The line has no text. -/
def IssueLine.isEmpty (line : IssueLine) : Bool :=
  line.words.isEmpty && line.migration.isNone && line.error.isNone

/-- `_extract_preflight_issues`: the lines, when there are any. -/
def extractPreflightIssues (limits : Limits) (stdout : Str) :
    Except UseError (Option (List IssueLine)) :=
  match loadsOutput limits.loads stdout with
  | .error .recursionError => .error .recursionError
  | .error _ => .ok none
  | .ok (.obj data) => do
    let issues ← ((getD data "issues" .null).orElse (.arr [])).iter
    let lines ← issues.mapM (issueLine limits.repr)
    let kept := lines.filter (!·.isEmpty)
    pure (if kept.isEmpty then none else some kept)
  | .ok _ => .ok none

/-- `_format_preflight_failure`. -/
def formatPreflightFailure (limits : Limits) (run : CompletedProcess) :
    Except UseError PreflightError := do
  let code ← envelopeError limits.loads run.stdout "code"
  let detail ← extractPreflightIssues limits run.stdout
  let message ← envelopeError limits.loads run.stdout "message"
  let actionable ← envelopeError limits.loads run.stdout "actionable"
  let detail := match code, message, detail with
    | some code, some message, _ => .envelope code message actionable
    | _, _, some lines => .issues lines
    | _, _, none => .raw ((Str.strip run.stdout).take 2000)
  pure (.failed run.returncode (classifyConfitureFailure run.returncode) detail
    ((Str.strip run.stderr).take 1000))

/-! ## The issues -/

/-- `_NON_TXN_CODE`. -/
def nonTxnCode : String := "PFLIGHT_NON_TRANSACTIONAL"

/-- `\S`, which every surrogate is. -/
def isWord (c : CodePoint) : Bool := !Str.isSpace (Char.ofNat c.val)

/-- `_MIGRATION_NAME_RE` at the beginning of a text: the group. -/
def matchMigrationName (s : Text) : Option Text :=
  if startsWith s "Migration " then
    let s := s.drop "Migration ".length
    let rest := s.dropWhile isWord
    let name := (rest.drop 2).takeWhile (· ≠ chr ')')
    if (s.takeWhile isWord).isEmpty || !startsWith rest " (" || name.isEmpty ||
      ((rest.drop 2).dropWhile (· ≠ chr ')')).isEmpty then none else some name
  else none

/-- `_MIGRATION_NAME_RE.search(s)`. -/
def searchMigrationName (s : Text) : Option Text :=
  s.tails.findSome? matchMigrationName

/-- `_name_from_issue_message`, which searches a text only. -/
def nameFromIssueMessage (message : Json) : Except UseError Text :=
  match message.orElse (.str []) with
  | .str s => .ok ((searchMigrationName s).getD (text "?"))
  | _ => .error .typeError

/-- What the first pass has recorded: the checks, and `skipped_versions`. -/
structure Skips where
  checks : List MigrationCheck := []
  versions : List Key := []

/-- The issue is a non-transactional migration's. -/
def skips (issue : List (Text × Json)) : Bool :=
  (getD issue "code" .null).isStr nonTxnCode && (getD issue "migration" .null).truthy

/-- The first pass, at one issue. -/
def skipIssue (s : Skips) (issue : Json) : Except UseError Skips := do
  let issue ← issue.members
  if skips issue then
    let version := getD issue "migration" .null
    let k ← version.key
    if k ∈ s.versions then pure s
    else
      let message := getD issue "message" .null
      let name ← nameFromIssueMessage (getD issue "message" (.str []))
      pure
        { checks := s.checks ++
            [{ version, name, passed := true, skipped := true, skippedReason := some message }]
          versions := s.versions ++ [k] }
  else pure s

/-- The issue has error severity. -/
def isError (issue : List (Text × Json)) : Bool := (getD issue "severity" .null).isStr "error"

/-- What an error says: its details, or else its message. -/
def errorOf (issue : List (Text × Json)) : Except UseError Json := do
  let error ← detailsError issue
  pure (error.orElse (getD issue "message" (.str [])))

/-- The failed checks by version, in the order of their first errors. -/
abbrev Failed := List (Key × MigrationCheck)

/-- `failed[version]` gets one more error. -/
def addFailure (limit : ℕ) (failed : Failed) (k : Key) (issue : List (Text × Json)) (error : Json) :
    Except UseError Failed :=
  match failed.lookup k with
  | none => do
    let name ← nameFromIssueMessage (getD issue "message" (.str []))
    let check : MigrationCheck :=
      { version := getD issue "migration" .null, name, passed := false,
        error := some (.value error) }
    pure (failed ++ [(k, check)])
  | some check => do
    let before := check.error.getD (.value .null)
    let error ← error.shown limit
    if before.depth ≤ limit then
      let joined := { check with error := some (.joined before error) }
      pure (failed.map fun entry => if entry.1 = k then (k, joined) else entry)
    else .error .recursionError

/-- The second pass, which ends with `None` at an error that names no migration. -/
def failIssues (limit : ℕ) (skipped : List Key) :
    Failed → List Json → Except UseError (Option Failed)
  | failed, [] => .ok (some failed)
  | failed, issue :: issues => do
    let issue ← issue.members
    if isError issue then
      let version := getD issue "migration" .null
      let k ← version.key
      if k ∈ skipped then failIssues limit skipped failed issues
      else if version.truthy then
        let error ← errorOf issue
        let failed ← addFailure limit failed k issue error
        failIssues limit skipped failed issues
      else .ok none
    else failIssues limit skipped failed issues

/-- `_parse_against_issues`. -/
def parseAgainstIssues (limit : ℕ) (data : List (Text × Json)) :
    Except UseError (Option MigrationPreflightResult) := do
  let summary ← ((getD data "summary" .null).orElse (.obj [])).members
  let issues ← ((getD data "issues" .null).orElse (.arr [])).iter
  let s ← issues.foldlM skipIssue {}
  let failed ← failIssues limit s.versions [] issues
  pure (failed.map fun failed =>
    { migrations := s.checks ++ failed.map Prod.snd
      migrationsChecked := getD summary "migrations_checked" (.int 0) })

/-! ## The run -/

/-- Raising the `DatabaseError` that is described so, or what describing it raises. -/
def raiseDatabaseError {α : Type} (e : Except UseError PreflightError) :
    Except PreflightRaised α :=
  match e with
  | .ok e => .error (.databaseError e)
  | .error e => .error (.other e)

/-- `_run_confiture_preflight`, after confiture has run. -/
def runConfiturePreflight (limits : Limits) (run : CompletedProcess) :
    Except PreflightRaised MigrationPreflightResult :=
  if run.returncode = 0 ∨ run.returncode = 7 then
    match loadsOutput limits.loads run.stdout with
    | .error .recursionError => .error (.other .recursionError)
    | .error _ => raiseDatabaseError (formatPreflightFailure limits run)
    | .ok data =>
      let known := match data with
        | .obj ms =>
          if (ms.lookup (text "summary")).isSome && (ms.lookup (text "issues")).isSome then some ms
          else none
        | _ => none
      match known with
      | none => raiseDatabaseError do
        let detail ← extractPreflightIssues limits run.stdout
        pure (.unrecognized (match detail with
          | some lines => .issues lines
          | none => .raw ((Str.strip run.stdout).take 2000)))
      | some ms => match parseAgainstIssues limits.repr ms with
        | .error e => .error (.other e)
        | .ok none => raiseDatabaseError (formatPreflightFailure limits run)
        | .ok (some parsed) => .ok parsed
  else raiseDatabaseError (formatPreflightFailure limits run)

end Fraisier.Dbops
