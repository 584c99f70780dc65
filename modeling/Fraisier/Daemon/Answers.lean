import Mathlib.Data.List.DropRight
import Fraisier.Lib.Fallible
import Fraisier.Lib.JsonValue
import Fraisier.Lib.Text

/-!
# Every request gets a result

`deploy_daemon` reads one request from its standard input and sends a result on the connection it
was accepted on. `parse_deployment_request` is to raise nothing but a `ValueError`, which the command
turns into a result; any other exception leaves the command, and the client that waits finds the
connection closed. `json.loads` gives a value of any kind, and of its parts `.get` is called and two
are matched before anything has looked at their types. `every_request_answered_iff` says for which
texts a result is sent.
-/

namespace Fraisier.Daemon.Answers

open Fraisier.Lib Unicode Json

/-! ## The request -/

/-- What parsing raises. -/
inductive ParseError
  | valueError (message : Text)
  | attributeError | typeError | recursionError
  deriving DecidableEq

/-- What the program says of exceptions and values. -/
structure Texts where
  /-- `str` of the exception that `json.loads` raises on a text. -/
  exception : Text → Text
  str : Json → Text
  repr : Json → Text

/-- `DeploymentRequest`. -/
structure DeploymentRequest where
  version : Json
  project : Text
  environment : Text
  branch : Json
  timestamp : Json
  triggeredBy : Json
  options : Json
  metadata : Json

/-- `_SAFE_NAME_RE.match`. -/
def isSafeName (s : Text) : Bool := matchesRun isNameChar s

/-- `_SAFE_NAME_RE.pattern`. -/
def safeNamePattern : Text := text "^[a-zA-Z0-9_\\-]+$"

/-- `version == 1`, which `1.0` and `True` are too. -/
def isOne (version : Json) : Bool := version.key = .ok (.number (.finite 1))

/-- The fields that a request must have. -/
def requiredFields : List String :=
  ["project", "environment", "branch", "timestamp", "triggered_by"]

section Parse

variable (limits : Limits) (texts : Texts)

/-- `json.loads`, of which a `JSONDecodeError` is caught. -/
def loadRequest (s : Text) : Except ParseError Json :=
  match loadsStr limits.loads s with
  | .ok data => .ok data
  | .error .jsonDecodeError => .error (.valueError (text "Invalid JSON: " ++ texts.exception s))
  | .error .recursionError => .error .recursionError
  -- an integer of too many digits is a `ValueError` of its own
  | .error _ => .error (.valueError (texts.exception s))

/-- The members that `data.get` reads. -/
def requestMembers : Json → Except ParseError (List (Text × Json))
  | .obj members => .ok members
  | _ => .error .attributeError

/-- The check of the version, whose error shows it. -/
def checkVersion (version : Json) : Except ParseError Unit :=
  if isOne version then .ok ()
  else match version.shown limits.repr with
    | .ok v => .error (.valueError (text "Unsupported version: " ++ texts.str v))
    | .error _ => .error .recursionError

/-- The check that a field is there. -/
def checkField (members : List (Text × Json)) (field : String) : Except ParseError Unit :=
  if (members.lookup (text field)).isSome then .ok ()
  else .error (.valueError (text "Missing required field: " ++ text field))

/-- The check of a name; `re.match` takes a `str` only. -/
def checkName (members : List (Text × Json)) (field : String) : Except ParseError Text :=
  match getD members field .null with
  | .str name =>
    if isSafeName name then .ok name
    else .error (.valueError (text "Invalid " ++ text field ++ text ": " ++ texts.repr (.str name) ++
      text " — must match " ++ safeNamePattern))
  | _ => .error .typeError

/-- `parse_deployment_request`. -/
def parseDeploymentRequest (s : Text) : Except ParseError DeploymentRequest := do
  let data ← loadRequest limits texts s
  let members ← requestMembers data
  let version := getD members "version" .null
  checkVersion limits texts version
  forM requiredFields (checkField members)
  let project ← checkName texts members "project"
  let environment ← checkName texts members "environment"
  pure
    { version, project, environment
      branch := getD members "branch" .null
      timestamp := getD members "timestamp" .null
      triggeredBy := getD members "triggered_by" .null
      options := getD members "options" (.obj [])
      metadata := getD members "metadata" (.obj []) }

end Parse

/-! ## The command -/

/-- `DeploymentResult` of `daemon.py`. -/
structure DeploymentResult where
  success : Bool
  status : Text
  message : Json
  deployedVersion : Json
  durationSeconds : Json
  errorMessage : Json

/-- What is sent for a result. -/
def DeploymentResult.payload (result : DeploymentResult) : Json :=
  .obj [(text "success", .bool result.success), (text "status", .str result.status),
    (text "version", result.deployedVersion), (text "duration", result.durationSeconds),
    (text "error", result.errorMessage), (text "message", result.message)]

/-- `_failure_result`. -/
def failureResult (error : Text) : Json :=
  .obj [(text "success", .bool false), (text "status", .str (text "failed")),
    (text "version", .null), (text "duration", .null), (text "error", .str error),
    (text "message", .null)]

/-- The six keys that a client reads. -/
def agreedKeys : List Text :=
  ["success", "status", "version", "duration", "error", "message"].map text

/-- How the command ended. -/
structure Ended where
  /-- What was printed for the journal. -/
  stdout : List Json
  /-- What was sent on the connection. -/
  connection : List Json
  /-- The exit status, or the exception that left the command. -/
  status : Except ParseError ℕ

/-- `_emit_result`, and the exit; a connection was `accepted`, or standard input is a pipe. -/
def emitResult (accepted : Bool) (payload : Json) (status : ℕ) : Ended where
  stdout := [payload]
  connection := if accepted then [payload] else []
  status := .ok status

section Command

variable (limits : Limits) (texts : Texts)

/-- `deploy_daemon`. Reading the standard input and executing a request give a value, or the text of
an exception. -/
def deployDaemon (accepted : Bool) (project : Text)
    (execute : DeploymentRequest → Except Text DeploymentResult) (input : Except Text Text) : Ended :=
  match input with
  | .error e => emitResult accepted (failureResult (text "Error reading stdin: " ++ e)) 1
  | .ok s =>
    if (stripBlanks s).isEmpty then
      emitResult accepted (failureResult (text "No input received on stdin")) 1
    else match parseDeploymentRequest limits texts (stripBlanks s) with
      | .error (.valueError message) =>
        emitResult accepted (failureResult (text "Error parsing request: " ++ message)) 1
      | .error e => ⟨[], [], .error e⟩
      | .ok request =>
        if request.project ≠ project then
          emitResult accepted (failureResult (text "Project mismatch: requested '" ++
            request.project ++ text "' but daemon configured for '" ++ project ++ text "'")) 1
        else match execute request with
          | .error e =>
            emitResult accepted (failureResult (text "Error executing deployment: " ++ e)) 1
          | .ok result => emitResult accepted result.payload (if result.success then 0 else 1)

end Command

/-! ## What is promised -/

/-- A value is returned or a `ValueError` is raised. -/
def OnlyValueErrors {α : Type} (r : Except ParseError α) : Prop :=
  ∀ e, r = .error e → ∃ message, e = .valueError message

/-- One result was sent, with the six keys. -/
def Answered (ended : Ended) : Prop :=
  ∃ members, ended.connection = [.obj members] ∧ members.map Prod.fst = agreedKeys

/-- The parser keeps to its contract on what is read, and the client gets a result. -/
def GetsResult (limits : Limits) (texts : Texts) (project : Text)
    (execute : DeploymentRequest → Except Text DeploymentResult) (input : Except Text Text) : Prop :=
  (∀ s, input = .ok s → OnlyValueErrors (parseDeploymentRequest limits texts s)) ∧
    Answered (deployDaemon limits texts true project execute input)

/-- The value is an object. Where its version is another than 1 it can be shown; else a field is
missing, or the project is a text, and the environment too if the project is a safe name. -/
def WellTyped (limits : Limits) (data : Json) : Prop :=
  ∃ members, data = .obj members ∧
    if isOne (getD members "version" .null) then
      (∀ field ∈ requiredFields, (members.lookup (text field)).isSome = true) →
        ∃ project, getD members "project" .null = .str project ∧
          (isSafeName project = true →
            ∃ environment, getD members "environment" .null = .str environment)
    else (getD members "version" .null).depth ≤ limits.repr

/-- The text is no JSON, or that of a value whose types are right; it is not nested too deep. -/
def Answerable (limits : Limits) (s : Text) : Prop :=
  match loadsStr limits.loads s with
  | .ok data => WellTyped limits data
  | .error e => e ≠ .recursionError

variable {limits : Limits} {texts : Texts} {project : Text}
  {execute : DeploymentRequest → Except Text DeploymentResult}

/-! ## The parser's contract -/

section OnlyValueErrors

variable {α β : Type}

/-- What returns raises no error. -/
theorem onlyValueErrors_ok {a : α} : OnlyValueErrors (.ok a) := nofun

/-- A value error is one. -/
theorem onlyValueErrors_valueError {m : Text} :
    OnlyValueErrors (.error (.valueError m) : Except ParseError α) := by
  rintro _ ⟨⟩
  exact ⟨m, rfl⟩

/-- A sequence keeps the contract when its first part does, and its second on what that gave. -/
theorem onlyValueErrors_bind {x : Except ParseError α} {f : α → Except ParseError β} :
    OnlyValueErrors (x >>= f) ↔ OnlyValueErrors x ∧ ∀ a, x = .ok a → OnlyValueErrors (f a) := by
  cases x with
  | error e => exact ⟨fun h => ⟨fun e' he => h e' (by cases he; rfl), nofun⟩, fun h e' he =>
      h.1 e' (by cases he; rfl)⟩
  | ok a => exact ⟨fun h => ⟨onlyValueErrors_ok, fun a' ha => by cases ha; exact h⟩, fun h => h.2 a rfl⟩

/-- Another error is no value error. -/
theorem not_onlyValueErrors {e : ParseError} (he : ∀ m, e ≠ .valueError m) :
    ¬OnlyValueErrors (.error e : Except ParseError α) := fun h =>
  let ⟨m, hm⟩ := h e rfl
  he m hm

/-- The version check raises value errors when the version can be shown. -/
theorem checkVersion_only {version : Json} : OnlyValueErrors (checkVersion limits texts version) ↔
    (isOne version = false → version.depth ≤ limits.repr) := by
  unfold checkVersion Json.shown
  by_cases hone : isOne version = true
  · rw [if_pos hone]
    exact iff_of_true onlyValueErrors_ok fun h => absurd (hone.symm.trans h) (by decide)
  rw [if_neg hone]
  have hone : isOne version = false := Bool.eq_false_of_not_eq_true hone
  by_cases hdepth : version.depth ≤ limits.repr
  · rw [if_pos hdepth]
    exact iff_of_true onlyValueErrors_valueError fun _ => hdepth
  · rw [if_neg hdepth]
    exact iff_of_false (not_onlyValueErrors nofun) fun h => hdepth (h hone)

/-- Only the version one passes. -/
theorem checkVersion_ok {version : Json} {u : Unit} :
    checkVersion limits texts version = .ok u ↔ isOne version = true := by
  unfold checkVersion
  split
  · next hone => exact iff_of_true rfl hone
  · next hone =>
    refine iff_of_false ?_ hone
    split <;> nofun

/-- The check of a field raises value errors only. -/
theorem checkField_only (members : List (Text × Json)) (field : String) :
    OnlyValueErrors (checkField members field) := by
  unfold checkField
  split
  · exact onlyValueErrors_ok
  · exact onlyValueErrors_valueError

/-- The checks of the fields raise value errors only. -/
theorem checkFields_only (members : List (Text × Json)) (fields : List String) :
    OnlyValueErrors (forM fields (checkField members)) := by
  induction fields with
  | nil => exact onlyValueErrors_ok
  | cons field fields ih =>
    rw [List.forM_cons, onlyValueErrors_bind]
    exact ⟨checkField_only members field, fun _ _ => ih⟩

/-- The fields pass when each is there. -/
theorem checkFields_ok {members : List (Text × Json)} {fields : List String} {u : Unit} :
    forM fields (checkField members) = .ok u ↔
      ∀ field ∈ fields, (members.lookup (text field)).isSome = true := by
  induction fields with
  | nil => exact iff_of_true rfl nofun
  | cons field fields ih =>
    rw [List.forM_cons, Fallible.bind_ok_iff, List.forall_mem_cons, ← ih]
    unfold checkField
    split <;> simp_all

/-- The members are read of an object only. -/
theorem requestMembers_only {data : Json} :
    OnlyValueErrors (requestMembers data) ↔ ∃ members, data = .obj members := by
  unfold requestMembers
  split
  · next members => exact iff_of_true onlyValueErrors_ok ⟨members, rfl⟩
  · next hdata => exact iff_of_false (not_onlyValueErrors nofun) fun ⟨members, h⟩ => hdata members h

/-- The members are those of the object. -/
theorem requestMembers_ok {data : Json} {members : List (Text × Json)} :
    requestMembers data = .ok members ↔ data = .obj members := by
  unfold requestMembers
  split
  · next members' => simp
  · next hdata => exact ⟨nofun, fun h => absurd h (hdata members)⟩

/-- The check of a name raises value errors when the name is a text. -/
theorem checkName_only {members : List (Text × Json)} {field : String} :
    OnlyValueErrors (checkName texts members field) ↔
      ∃ name, getD members field .null = .str name := by
  unfold checkName
  split
  · next name hname =>
    refine iff_of_true ?_ ⟨name, hname⟩
    split
    · exact onlyValueErrors_ok
    · exact onlyValueErrors_valueError
  · next hname =>
    refine iff_of_false (not_onlyValueErrors nofun) ?_
    rintro ⟨name, h⟩
    exact hname name h

/-- A name passes when it is a safe text. -/
theorem checkName_ok {members : List (Text × Json)} {field : String} {name : Text} :
    checkName texts members field = .ok name ↔
      getD members field .null = .str name ∧ isSafeName name = true := by
  unfold checkName
  split
  · next name' hname =>
    rw [hname]
    split
    · next hsafe => exact ⟨fun h => by cases h; exact ⟨rfl, hsafe⟩, fun h => by cases h.1; rfl⟩
    · next hsafe => exact ⟨nofun, fun h => by cases h.1; exact absurd h.2 hsafe⟩
  · next hname =>
    refine ⟨nofun, fun h => absurd h.1 (hname name)⟩

end OnlyValueErrors

/-- When the parser keeps to its contract on a text. -/
theorem parse_only {s : Text} :
    OnlyValueErrors (parseDeploymentRequest limits texts s) ↔ Answerable limits s := by
  unfold parseDeploymentRequest Answerable
  rw [onlyValueErrors_bind]
  unfold loadRequest
  -- The text has to be JSON, and its members then pass the checks in turn.
  cases hloads : loadsStr limits.loads s with
  | error e =>
    cases e with
    | jsonDecodeError | unicodeDecodeError | valueError =>
      refine iff_of_true ⟨onlyValueErrors_valueError, fun _ h => ?_⟩ fun h => ?_
      · cases h
      · cases h
    | recursionError =>
      exact iff_of_false (fun h => not_onlyValueErrors (e := .recursionError) nofun h.1) fun h => h rfl
  | ok data =>
    simp only [onlyValueErrors_ok, true_and, Except.ok.injEq, forall_eq']
    rw [onlyValueErrors_bind, requestMembers_only]
    simp only [requestMembers_ok]
    unfold WellTyped
    constructor
    · rintro ⟨⟨members, rfl⟩, h⟩
      refine ⟨members, rfl, ?_⟩
      have h := h members rfl
      rw [onlyValueErrors_bind, checkVersion_only] at h
      obtain ⟨hversion, h⟩ := h
      by_cases hone : isOne (getD members "version" .null) = true
      · rw [if_pos hone]
        intro hfields
        have h := h () (checkVersion_ok.mpr hone)
        rw [onlyValueErrors_bind] at h
        have h := h.2 () (checkFields_ok.mpr hfields)
        rw [onlyValueErrors_bind, checkName_only] at h
        obtain ⟨⟨project, hproject⟩, h⟩ := h
        refine ⟨project, hproject, fun hsafe => ?_⟩
        have h := h project (checkName_ok.mpr ⟨hproject, hsafe⟩)
        rw [onlyValueErrors_bind, checkName_only] at h
        exact h.1
      · rw [if_neg hone]
        exact hversion (Bool.eq_false_of_not_eq_true hone)
    · rintro ⟨members, rfl, h⟩
      refine ⟨⟨members, rfl⟩, fun _ hmembers => ?_⟩
      obtain rfl := Json.obj.inj hmembers
      rw [onlyValueErrors_bind, checkVersion_only]
      refine ⟨fun hone => ?_, fun _ hversion => ?_⟩
      · rwa [if_neg (by rw [hone]; exact Bool.false_ne_true)] at h
      · rw [if_pos (checkVersion_ok.mp hversion)] at h
        rw [onlyValueErrors_bind]
        refine ⟨checkFields_only _ _, fun _ hfields => ?_⟩
        obtain ⟨project, hproject, henvironment⟩ := h (checkFields_ok.mp hfields)
        rw [onlyValueErrors_bind, checkName_only]
        refine ⟨⟨project, hproject⟩, fun project' hname => ?_⟩
        obtain ⟨hproject', hsafe⟩ := checkName_ok.mp hname
        rw [hproject] at hproject'
        obtain rfl := Json.str.inj hproject'
        rw [onlyValueErrors_bind, checkName_only]
        exact ⟨henvironment hsafe, fun _ _ => onlyValueErrors_ok⟩

/-! ## The answer -/

/-- A failure is answered. -/
theorem answered_failure {message : Text} {status : ℕ} :
    Answered (emitResult true (failureResult message) status) := ⟨_, rfl, rfl⟩

/-- A result is answered. -/
theorem answered_payload {result : DeploymentResult} {status : ℕ} :
    Answered (emitResult true result.payload status) := ⟨_, rfl, rfl⟩

/-- Nothing to parse is a `ValueError`. -/
theorem answerable_nil : Answerable limits [] := by
  have hloads : loadsStr limits.loads [] = .error .jsonDecodeError := rfl
  unfold Answerable
  rw [hloads]
  nofun

/-- A client gets a result when the parser keeps to its contract. -/
theorem answered_iff {s : Text} :
    Answered (deployDaemon limits texts true project execute (.ok s)) ↔
      Answerable limits (stripBlanks s) := by
  unfold deployDaemon
  -- An empty line is answered.
  by_cases hnil : (stripBlanks s).isEmpty = true
  · simp only [hnil, if_true]
    rw [List.isEmpty_iff.mp hnil]
    exact iff_of_true answered_failure answerable_nil
  simp only [hnil, Bool.false_eq_true, if_false]
  rw [← parse_only]
  cases hparse : parseDeploymentRequest limits texts (stripBlanks s) with
  -- Only value errors are answered.
  | error e =>
    cases e with
    | valueError message => exact iff_of_true answered_failure onlyValueErrors_valueError
    | attributeError | typeError | recursionError =>
      refine iff_of_false ?_ (not_onlyValueErrors nofun)
      rintro ⟨members, h, -⟩
      cases h
  | ok request =>
    refine iff_of_true ?_ onlyValueErrors_ok
    dsimp only
    split
    · exact answered_failure
    · split
      · exact answered_failure
      · exact answered_payload

/-- A client gets a result, and the parser keeps to its contract, exactly on the texts that have the
right types as they are and stripped. -/
theorem every_request_answered_iff (limits : Limits) (texts : Texts) (project : Text)
    (execute : DeploymentRequest → Except Text DeploymentResult) (input : Except Text Text) :
    GetsResult limits texts project execute input ↔
      ∀ s, input = .ok s → Answerable limits s ∧ Answerable limits (stripBlanks s) := by
  unfold GetsResult
  cases input with
  | error e => exact iff_of_true ⟨nofun, answered_failure⟩ nofun
  | ok s =>
    rw [answered_iff]
    simp only [Except.ok.injEq, forall_eq', parse_only]

/-- A list of requests is read, and the connection is closed without a word. -/
theorem list_unanswered : ¬GetsResult ⟨990, 990⟩ ⟨id, fun _ => [], fun _ => []⟩ (text "api")
    (fun _ => .error []) (.ok (text "[]")) := by
  rintro ⟨hparse, -⟩
  obtain ⟨members, h, -⟩ := parse_only.mp (hparse _ rfl)
  cases h

end Fraisier.Daemon.Answers
