import Fraisier.Lib.JsonValue

/-!
# The socket helpers

`systemctl_helper.py` and `install_helper.py`: what each does with a connection. Both read one line,
parse it as JSON, check the fields, run a command and send its outcome as a line of JSON. An
exception that the handler does not catch is logged by `serve_until_stale`, and the connection is
closed without a response.
-/

namespace Fraisier.Socket

open Fraisier.Lib Unicode Json

/-! ## The line -/

/-- A byte that `bytes.strip` takes off. -/
def isBlank (b : ℕ) : Bool := b = 0x20 || 0x09 ≤ b && b ≤ 0x0D

/-- The line that was received, with its newline; it is empty when none came. -/
def lineOf (received : List ℕ) : List ℕ :=
  if 0x0A ∈ received then received.takeWhile (· ≠ 0x0A) ++ [0x0A] else []

/-- A lone surrogate. -/
def isSurrogate (c : CodePoint) : Bool := 0xD800 ≤ c.val && c.val ≤ 0xDFFF

/-- `bytes.decode()`, which accepts no surrogates. -/
def decode (bytes : List ℕ) : Option Text :=
  (decodeUtf8 bytes).filter fun s => s.all fun c => !isSurrogate c

/-- ASCII decodes to itself. -/
theorem decode_ascii {s : Text} (h : ∀ c ∈ s, c.val < 0x80) : decode (s.map (·.val)) = some s := by
  unfold decode
  rw [decodeUtf8_ascii h, Option.filter_some, if_pos]
  rw [List.all_eq_true]
  intro c hc
  have hlt := h c hc
  simp only [isSurrogate, Bool.not_eq_true', Bool.and_eq_false_iff, decide_eq_false_iff_not]
  omega

/-- What `json.loads(raw.decode())` comes to. -/
inductive Parsed
  /-- A `JSONDecodeError` or a `UnicodeDecodeError`. -/
  | malformed
  /-- Another exception: of a number with too many digits, or of too deep a nesting. -/
  | raised
  | value (request : Json)

/-- `json.loads(raw.decode())`. -/
def parse (limits : Limits) (raw : List ℕ) : Parsed :=
  match decode raw with
  | none => .malformed
  | some s => match loadsStr limits.loads s with
    | .ok request => .value request
    | .error .jsonDecodeError | .error .unicodeDecodeError => .malformed
    | .error _ => .raised

/-! ## Responses -/

/-- What is sent. -/
inductive Response
  | error (message : Text) (advice : Option Text)
  | ran (stdout stderr : Text) (returncode : ℤ) (advice : Option Text)

/-- The member that an advice is. -/
def adviceMember (advice : Option Text) : List (Text × Json) :=
  advice.toList.map fun advice => (text "advice", .str advice)

/-- The object that is serialised. -/
def Response.json : Response → Json
  | .error message advice =>
    .obj ([(text "ok", .bool false), (text "error", .str message)] ++ adviceMember advice)
  | .ran stdout stderr returncode advice =>
    .obj ([(text "ok", .bool (returncode = 0)), (text "stdout", .str stdout),
      (text "stderr", .str stderr), (text "returncode", .int returncode)] ++ adviceMember advice)

/-- `_send_response`. -/
def Response.line (r : Response) : Text := dumps r.json ++ [chr '\n']

/-- A command, in the directory it is run in. -/
structure Command where
  argv : List Text
  cwd : Option Text
  deriving DecidableEq

/-- What became of a connection. -/
structure Handled where
  /-- What was sent. -/
  sent : List Response
  /-- The commands that were run. -/
  ran : List Command
  /-- An exception left the handler. -/
  raised : Bool

/-- `_send_error`. -/
def sendError (message : Text) (advice : Option Text := none) : Handled :=
  ⟨[.error message advice], [], false⟩

/-- An exception that nothing catches. -/
def uncaught : Handled := ⟨[], [], true⟩

/-! ## The command -/

/-- How a command ends. -/
inductive ChildRun
  | exited (returncode : ℤ) (stdout stderr : List ℕ)
  /-- `TimeoutExpired`. -/
  | timedOut
  /-- An `OSError`. -/
  | osError

/-- A text that can be handed to a program: without NUL, and with no surrogates but the ones that
stand for bytes. -/
def passable (s : Text) : Bool :=
  s.all fun c => c.val ≠ 0 && (!isSurrogate c || 0xDC80 ≤ c.val && c.val ≤ 0xDCFF)

/-- The ends of lines, in text mode. -/
def universalNewlines : Text → Text
  | [] => []
  | [c] => [if is '\r' c then chr '\n' else c]
  | c :: d :: s =>
    if is '\r' c && is '\n' d then chr '\n' :: universalNewlines s
    else (if is '\r' c then chr '\n' else c) :: universalNewlines (d :: s)

/-- What the program says of exceptions and values. -/
structure Texts where
  /-- `str` of the exception. -/
  exception : Text
  /-- `repr` of a value. -/
  repr : Json → Text

variable (limits : Limits) (texts : Texts)

/-- `str` of a value. -/
def Texts.str : Json → Text
  | .str s => s
  | v => texts.repr v

/-- The messages about a command. -/
structure RunMessages where
  timedOut : Text
  failed : Text
  /-- The advice on what the command wrote to its standard error. -/
  advice : ℤ → Text → Option Text

/-- `subprocess.run` of a command, and the response. -/
def runCommand (messages : RunMessages) (command : Command) (child : ChildRun) : Handled :=
  if !(command.argv.all passable && command.cwd.all passable) then uncaught
  else match child with
    | .timedOut => ⟨[.error messages.timedOut none], [command], false⟩
    | .osError => ⟨[.error (messages.failed ++ texts.exception) none], [command], false⟩
    | .exited returncode stdout stderr =>
      match decode stdout, decode stderr with
      | some stdout, some stderr =>
        let stderr := universalNewlines stderr
        ⟨[.ran (universalNewlines stdout) stderr returncode (messages.advice returncode stderr)],
          [command], false⟩
      | _, _ => ⟨[], [command], true⟩

/-! ## The systemctl helper -/

/-- An argument of the helper: what `sys.argv` holds can be handed on. -/
structure Argument where
  text : Text
  passable : passable text = true

/-- `_ALLOWED_ACTIONS`. -/
def allowedActions : List String :=
  ["stop", "start", "restart", "enable", "is-active", "daemon-reload"]

/-- `_SYSTEMCTL`. -/
def systemctlPath : Text := text "/usr/bin/systemctl"

/-- What the helper says of a command. -/
def systemctlMessages : RunMessages where
  timedOut := text "systemctl timed out"
  failed := text "failed to run systemctl: "
  advice _ _ := none

/-- The checks of the service, and the command. -/
def serviceCommand (allowedServices : List Argument) (action : Text) (service : Json)
    (child : ChildRun) : Handled :=
  if !service.truthy then sendError (text "missing 'service' field")
  else match service.key with
    | .error _ => uncaught
    | .ok key => match allowedServices.find? fun allowed => key = .str allowed.text with
      | none => sendError (text "service not allowed: " ++ texts.str service)
      | some allowed =>
        runCommand texts systemctlMessages ⟨[systemctlPath, action, allowed.text], none⟩ child

/-- `_handle_connection` of `systemctl_helper.py` from the reading of the fields on. -/
def systemctlRequest (allowedServices : List Argument) (request : Json) (child : ChildRun) :
    Handled :=
  match request.members with
  | .error _ => uncaught
  | .ok members =>
    let action := getD members "action" (.str [])
    match action.key with
    | .error _ => uncaught
    | .ok key => match allowedActions.find? fun allowed => key = .str (text allowed) with
      | none => sendError (text "action not allowed: " ++ texts.repr action)
      | some "daemon-reload" =>
        runCommand texts systemctlMessages ⟨[systemctlPath, text "daemon-reload"], none⟩ child
      | some allowed => serviceCommand texts allowedServices (text allowed)
        (getD members "service" (.str [])) child

/-! ## The install helper -/

/-- The items of a list of strings. -/
def strings : List Json → Option (List Text)
  | [] => some []
  | .str s :: items => (strings items).map (s :: ·)
  | _ :: _ => none

/-- The text of the list of a command's arguments. -/
def Texts.argv (argv : List Text) : Text := texts.repr (.arr (argv.map .str))

/-- `needle in s`. -/
def contains (s : Text) (needle : String) : Bool := s.tails.any fun rest => startsWith rest needle

/-- The advice on an install that failed. -/
def installAdvice (cwd : Text) (returncode : ℤ) (stderr : Text) : Option Text :=
  if returncode ≠ 0 ∧ contains stderr "__pycache__" ∧ contains stderr "Permission denied" then
    some (text "Foreign-owned __pycache__ directories are blocking uv sync. Fix: sudo find " ++
      cwd ++ text "/.venv -name __pycache__ ! -user \"$(stat -c %U " ++ cwd ++
      text ("/.venv)\" -type d -exec rm -rf \x7b\x7b\x7d\x7d + then retry the deployment. The venv " ++
        "may be corrupted — run uv sync --frozen manually after cleanup. " ++
        "See: https://github.com/fraiseql/fraisier/issues/196"))
  else none

/-- What the helper says of a command. -/
def installMessages (cwd : Text) : RunMessages where
  timedOut := text "install command timed out"
  failed := text "failed to run command: "
  advice := installAdvice cwd

/-- A command that the unit does not permit. -/
def commandNotAllowed (allowedCommand command : List Text) : Handled :=
  sendError (text "command not allowed: this install-helper permits " ++
      texts.argv allowedCommand ++ text ", but received " ++ texts.argv command)
    (some (text ("The configured install.command no longer matches this install-helper unit's " ++
      "baked allowlist. Redeploy (which re-bakes and restarts the unit) or run scaffold-install. " ++
      "See: https://github.com/fraiseql/fraisier/issues/279")))

/-- `_handle_connection` of `install_helper.py` from the reading of the fields on. -/
def installRequest (allowedCommand : List Argument) (request : Json) (child : ChildRun) : Handled :=
  match request.members with
  | .error _ => uncaught
  | .ok members =>
    match getD members "command" .null with
    | .arr (item :: items) => match strings (item :: items) with
      | none => sendError (text "invalid request: 'command' elements must be strings")
      | some command => match getD members "cwd" .null with
        | .str cwd =>
          if !startsWith cwd "/" then
            sendError (text "invalid request: 'cwd' must be an absolute path")
          else if command ≠ allowedCommand.map (·.text) then
            commandNotAllowed texts (allowedCommand.map (·.text)) command
          else runCommand texts (installMessages cwd) ⟨command, some cwd⟩ child
        | _ => sendError (text "invalid request: 'cwd' must be an absolute path")
    | _ => sendError (text "invalid request: 'command' must be a non-empty list")

/-! ## Connections -/

/-- A helper, with the arguments of its unit. -/
inductive Helper
  | systemctl (allowedServices : List Argument)
  | install (allowedCommand : List Argument)

/-- What a helper does with a request. -/
def Helper.request : Helper → Json → ChildRun → Handled
  | .systemctl allowedServices => systemctlRequest texts allowedServices
  | .install allowedCommand => installRequest texts allowedCommand

/-- `_handle_connection`, which the two have in common up to the fields. -/
def Helper.handleConnection (helper : Helper) (received : List ℕ) (child : ChildRun) : Handled :=
  let raw := lineOf received
  if raw.all isBlank then ⟨[], [], false⟩
  else match parse limits raw with
    | .malformed => sendError (text "malformed JSON: " ++ texts.exception)
    | .raised => uncaught
    | .value request => helper.request texts request child

/-- `_serve_connection`: `rejected` says why `check_peer_creds` has refused the peer, if it has. -/
def Helper.serveConnection (helper : Helper) (rejected : Option Text) (received : List ℕ)
    (child : ChildRun) : Handled :=
  match rejected with
  | some reason => sendError (text "peer credentials rejected: " ++ reason)
  | none => helper.handleConnection limits texts received child

end Fraisier.Socket
