import Fraisier.Lib.Fallible
import Fraisier.Dbops.ConfitureContract

/-!
# The drift gate after a migration

`check_schema_drift` of `dbops/drift.py`: the arguments are held to closed lists, confiture builds
the expected schema and validates the live one against it, and the verdict is read off the report
that it prints. A result that has `passed` lets the deploy go on; every refusal, and an output that
is no report, has not.
-/

namespace Fraisier.Dbops

open Fraisier.Lib Json Unicode

/-- The members of a `dict`. -/
abbrev Members := List (Text × Json)

/-! ## Results -/

/-- What an item says: confiture's own text, or the text for an overload, with the signatures that
the source declares and the remedy. The text of a value is that of its `str`. -/
inductive ItemMessage
  | said (v : Json)
  | overload (declared : List Json) (remedy : Json)

/-- `DriftItem`. -/
structure DriftItem where
  kind : Json
  severity : String
  objectName : Json
  message : ItemMessage

/-- `BuildNote`. -/
structure BuildNote where
  code : Str
  severity : Str
  message : Str
  file : Option Str := none

/-- The `ValueError` of `_reports`. -/
inductive NoReport
  /-- `confiture emitted no JSON report under --format json: {head}`. -/
  | noJson (head : Str)
  /-- An integer of too many digits. -/
  | hugeInt
  /-- `confiture's JSON report is not an object: {type}`. -/
  | notObject (payload : Json)
  /-- `confiture's JSON report matches no known shape (keys: {keys})`. -/
  | unknownShape (keys : List Text)

/-- The `error` of a result. -/
inductive GateError
  /-- `no checks configured`. -/
  | noChecks
  /-- `no runnable checks: {unknown} not in {flags}`. -/
  | unknownChecks (unknown : List String)
  /-- `cannot escalate {stray}: not a drift kind confiture grades warning`. -/
  | stray (kinds : List String)
  /-- `extra_objects {mode!r} is not one of {modes}`. -/
  | extraObjects (mode : String)
  /-- `cannot escalate 'extra_object' without extra_objects: all`. -/
  | extraObjectAlone
  /-- What the steps up to the built schema refused with. -/
  | notReady (message : Str)
  /-- `confiture migrate validate exit {exit}: {code} {message}{remedy}{lost}`. -/
  | refused (exit : ℤ) (code message remedy : Option Text) (lost : Bool)
  /-- `{reason} (confiture migrate validate exit {exit}; {stderr})`. -/
  | unreadable (reason : NoReport) (exit : ℤ) (stderr : Str)

/-- `DriftResult`. -/
structure DriftResult where
  passed : Bool
  exitCode : Option ℤ := none
  critical : List DriftItem := []
  warnings : List DriftItem := []
  error : Option GateError := none
  checks : List String := []
  buildNotes : List BuildNote := []

/-! ## The report -/

/-- `_reports`: a `ValueError`, or the reports of either shape. -/
def reports (maxDepth : ℕ) (stdout : Str) : Except UseError (Except NoReport (List Members)) :=
  match loadsOutput maxDepth stdout with
  | .error .recursionError => .error .recursionError
  | .error .valueError => .ok (.error .hugeInt)
  | .error _ =>
    let head := (Str.strip stdout).take 200
    .ok (.error (.noJson (if head = [] then "<empty>".toList else head)))
  | .ok (.obj payload) => match getD payload "checks" .null with
    | .obj checks => .ok (.ok (checks.filterMap fun check => check.2.dict?))
    | _ =>
      if (payload.lookup (text "has_critical_drift")).isSome then .ok (.ok [payload])
      else .ok (.error (.unknownShape (payload.map Prod.fst)))
  | .ok payload => .ok (.error (.notObject payload))

section

variable (limit : ℕ)

/-- One element of `drift_items`, when it has the severity. -/
def driftItem (severity : String) (item : Json) : Except UseError (Option DriftItem) := do
  let item ← item.members
  let graded ← (getD item "severity" .null).shown limit
  if graded.isStr severity then
    let kind ← (getD item "type" (.str (text "unknown"))).shown limit
    let objectName ← (getD item "object" (.str (text "?"))).shown limit
    let message ← (getD item "message" (.str [])).shown limit
    pure (some { kind, severity, objectName, message := .said message })
  else pure none

/-- The elements of one report. -/
def reportItems (severity : String) (report : Members) : Except UseError (List DriftItem) := do
  let listed ← (getD report "drift_items" (.arr [])).iter
  let kept ← listed.mapM (driftItem limit severity)
  pure kept.reduceOption

/-- `_items`. -/
def items (reports : List Members) (severity : String) : Except UseError (List DriftItem) := do
  let found ← reports.mapM (reportItems limit severity)
  pure found.flatten

/-- The warning is of a kind that this deploy does not accept. -/
def DriftItem.isEscalated (escalate : List String) (item : DriftItem) : Bool :=
  escalate.any fun kind => item.kind.isStr kind

/-- `_escalate`. -/
def escalateItems (warnings : List DriftItem) (escalate : List String) :
    List DriftItem × List DriftItem :=
  if escalate.isEmpty then ([], warnings) else
    let risen := warnings.filter (·.isEscalated escalate)
    let kept := warnings.filter (!·.isEscalated escalate)
    (risen.map fun item => { item with severity := "critical" }, kept)

/-- `_stale_overload_item`, of a `dict`. -/
def staleOverloadItem (overload : Members) : Except UseError DriftItem := do
  let signatures ← ((getD overload "source_signatures" .null).orElse (.arr [])).iter
  let declared ← signatures.mapM (shown limit)
  let objectName ← (getD overload "stale_signature" (.str (text "?"))).shown limit
  let remedy ← (getD overload "drop_sql" (.str (text "?"))).shown limit
  pure
    { kind := .str (text "stale_overload")
      severity := "critical"
      objectName
      message := .overload declared remedy }

/-- The overloads of one report. -/
def reportOverloads (report : Members) : Except UseError (List DriftItem) := do
  let listed ← (getD report "stale_overloads" (.arr [])).iter
  (listed.filterMap dict?).mapM (staleOverloadItem limit)

/-- `_stale_overloads`. -/
def staleOverloads (reports : List Members) : Except UseError (List DriftItem) := do
  let found ← reports.mapM (reportOverloads limit)
  pure found.flatten

end

/-- A text, or `None`, in a condition. -/
def said (s : Option Text) : Bool := !(s.getD []).isEmpty

/-- `_no_verdict_reason`. -/
def noVerdictReason (limit : ℕ) (run : CompletedProcess) (reason : NoReport) :
    Except UseError GateError := do
  let code ← envelopeError limit run.stdout "code"
  let message ← envelopeError limit run.stdout "message"
  if said code || said message then
    let remedy ← envelopeError limit run.stdout "actionable"
    pure (.refused run.returncode code message remedy (code == some (text "DIFFER_403")))
  else pure (.unreadable reason run.returncode ((Str.strip run.stderr).take 200))

/-! ## The gate -/

/-- The keys of `CHECK_FLAGS`. -/
def checkFlags : List String := ["live-drift", "signatures"]

/-- `ESCALATABLE_KINDS`. -/
def escalatableKinds : List String :=
  ["missing_index", "default_mismatch", "type_mismatch", "nullable_mismatch",
    "tview_option_mismatch", "extra_object", "view_definition_mismatch",
    "object_definition_mismatch"]

/-- `EXTRA_OBJECTS_MODES`. -/
def extraObjectsModes : List String := ["declared", "all"]

/-- What `check_schema_drift` is asked to do. -/
structure GateArgs where
  checks : List String
  escalate : List String := []
  extraObjects : String := "declared"

/-- The arguments are held to the closed lists. -/
def refusal (args : GateArgs) : Option GateError :=
  let unknown := args.checks.filter (· ∉ checkFlags)
  let stray := (args.escalate.filter (· ∉ escalatableKinds)).dedup
  if unknown ≠ [] then some (.unknownChecks (unknown.mergeSort fun a b => decide (a ≤ b)))
  else if args.checks = [] then some .noChecks
  else if stray ≠ [] then some (.stray (stray.mergeSort fun a b => decide (a ≤ b)))
  else if args.extraObjects ∉ extraObjectsModes then some (.extraObjects args.extraObjects)
  else if "extra_object" ∈ args.escalate && args.extraObjects ≠ "all" then some .extraObjectAlone
  else none

/-- How the steps between the arguments and `migrate validate` refuse: the configuration cannot be
used, or the schema was not built. -/
structure NotReady where
  exitCode : Option ℤ := none
  message : Str
  buildNotes : List BuildNote := []

/-- What the world answers: the steps up to the built schema, which give the notes of the build, and
the run of `migrate validate`. -/
structure GateWorld where
  prepared : Except NotReady (List BuildNote)
  validate : CompletedProcess

/-- The verdict on the reports. -/
def verdict (limit : ℕ) (args : GateArgs) (notes : List BuildNote) (run : CompletedProcess)
    (reports : List Members) : Except UseError DriftResult := do
  let warned ← items limit reports "warning"
  let (risen, warnings) := escalateItems warned args.escalate
  let graded ← items limit reports "critical"
  let overloads ← staleOverloads limit reports
  let drifted := reports.any (fun report => (getD report "has_critical_drift" .null).truthy) ||
    !risen.isEmpty
  pure
    { passed := !drifted
      exitCode := some run.returncode
      critical := graded ++ overloads ++ risen
      warnings
      checks := args.checks
      buildNotes := notes }

/-- What follows the run of `migrate validate`. -/
def readVerdict (limits : Limits) (args : GateArgs) (notes : List BuildNote)
    (run : CompletedProcess) : Except UseError DriftResult := do
  match ← reports limits.loads run.stdout with
  | .ok found => verdict limits.repr args notes run found
  | .error reason => do
    let error ← noVerdictReason limits.loads run reason
    pure
      { passed := false
        exitCode := some run.returncode
        error := some error
        checks := args.checks
        buildNotes := notes }

/-- `check_schema_drift`. -/
def checkSchemaDrift (limits : Limits) (args : GateArgs) (world : GateWorld) :
    Except UseError DriftResult :=
  match refusal args with
  | some error => pure { passed := false, error := some error, checks := args.checks }
  | none => match world.prepared with
    | .error refused => pure
      { passed := false
        exitCode := refused.exitCode
        error := some (.notReady refused.message)
        checks := args.checks
        buildNotes := refused.buildNotes }
    | .ok notes => readVerdict limits args notes world.validate

end Fraisier.Dbops
