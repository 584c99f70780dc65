import Fraisier.Lib.UnitFile
import Fraisier.Unit.Policy

/-!
# The unit validator

`unit_validator.py`: whether root may install a unit that someone else wrote. `validateUnit` lists
the reasons against it, and allows the unit when there are none; it is `none` where `int` raises on
a `User=` or `Group=` that is made of digits. A message is the source's text in pieces, with the
values it shows.
-/

namespace Fraisier.Unit

open Fraisier.Lib Str

/-! ## Refusals -/

/-- The `RULE_` constants, with that of `scaffold_apply.py`. -/
inductive Rule
  | ruleSyntax | ruleSection | ruleDirective | ruleUser | ruleGroup | ruleExecPrefix | ruleExecPath
  | ruleReadPath | ruleEnvironment | ruleStdio | ruleDirectory | ruleUnitName | ruleUnitSuffix
  | ruleTree
  deriving DecidableEq, Repr

/-- The text of a rule. -/
def Rule.text : Rule → String
  | .ruleSyntax => "syntax"
  | .ruleSection => "section"
  | .ruleDirective => "directive"
  | .ruleUser => "user"
  | .ruleGroup => "group"
  | .ruleExecPrefix => "exec-prefix"
  | .ruleExecPath => "exec-path"
  | .ruleReadPath => "read-path"
  | .ruleEnvironment => "environment"
  | .ruleStdio => "stdio"
  | .ruleDirectory => "directory"
  | .ruleUnitName => "unit-name"
  | .ruleUnitSuffix => "unit-suffix"
  | .ruleTree => "tree"

/-- A piece of a message: text, a value as it is, its `repr`, or a number. -/
inductive Piece
  | lit (s : String) | val (s : Str) | repr (s : Str) | num (n : ℤ)
  deriving DecidableEq, Repr

/-- A message in pieces. -/
abbrev Message := List Piece

/-- `Refusal`. -/
structure Refusal where
  rule : Rule
  message : Message
  line : Option ℕ := none
  deriving DecidableEq, Repr

/-- `Refusal.__str__`. -/
def Refusal.text (r : Refusal) : Message :=
  [.lit "[", .lit r.rule.text, .lit "] "] ++
    (match r.line with
      | none => []
      | some line => [.lit "line ", .num line, .lit ": "]) ++ r.message

/-! ## The allowlist -/

/-- What a directive's value is judged as. -/
inductive Kind
  /-- `_ANY`: systemd never acts on the value as root beyond the unit. -/
  | any
  | unitRefs | exec | user | group | readPath | environment | stdio | directory
  deriving DecidableEq, Repr

/-- A section's directives and their kinds. -/
abbrev Directives := List (String × Kind)

/-- `_UNIT_SECTION`. -/
def unitSection : Directives :=
  [("Description", .any), ("Documentation", .any), ("After", .unitRefs), ("Before", .unitRefs),
    ("Requires", .unitRefs), ("Requisite", .unitRefs), ("Wants", .unitRefs),
    ("BindsTo", .unitRefs), ("PartOf", .unitRefs), ("OnFailure", .unitRefs),
    ("OnSuccess", .unitRefs), ("StartLimitIntervalSec", .any), ("StartLimitBurst", .any)]

/-- `EXEC_KEYS`. -/
def execKeys : List String :=
  ["ExecCondition", "ExecStartPre", "ExecStart", "ExecStartPost", "ExecReload", "ExecStop",
    "ExecStopPost"]

/-- `DIRECTORY_KEYS`. -/
def directoryKeys : List String :=
  ["RuntimeDirectory", "StateDirectory", "CacheDirectory", "LogsDirectory",
    "ConfigurationDirectory"]

/-- The directives of `[Service]` that take any value. -/
def anyServiceKeys : List String :=
  ["Type", "WorkingDirectory", "Restart", "RestartSec", "RemainAfterExit", "KillMode",
    "KillSignal", "TimeoutSec", "TimeoutStartSec", "TimeoutStopSec", "WatchdogSec", "MemoryMax",
    "MemoryHigh", "CPUQuota", "CPUAccounting", "TasksMax", "LimitNOFILE", "Nice", "UMask",
    "SyslogIdentifier", "RuntimeDirectoryMode", "RuntimeDirectoryPreserve", "StateDirectoryMode",
    "CacheDirectoryMode", "LogsDirectoryMode", "ConfigurationDirectoryMode", "ReadWritePaths",
    "ReadOnlyPaths", "InaccessiblePaths", "NoNewPrivileges", "ProtectSystem", "ProtectHome",
    "PrivateTmp", "PrivateDevices", "PrivateNetwork", "ProtectKernelTunables",
    "ProtectKernelModules", "ProtectKernelLogs", "ProtectControlGroups", "ProtectHostname",
    "ProtectClock", "RestrictRealtime", "RestrictNamespaces", "RestrictSUIDSGID",
    "RestrictAddressFamilies", "LockPersonality", "MemoryDenyWriteExecute", "RemoveIPC",
    "SystemCallFilter", "SystemCallArchitectures", "SystemCallErrorNumber"]

/-- `_SERVICE_SECTION`. -/
def serviceSection : Directives :=
  execKeys.map (·, .exec) ++ directoryKeys.map (·, .directory) ++
    [("User", .user), ("Group", .group), ("EnvironmentFile", .readPath),
      ("LoadCredential", .readPath), ("Environment", .environment), ("StandardInput", .stdio),
      ("StandardOutput", .stdio), ("StandardError", .stdio)] ++
    anyServiceKeys.map (·, .any)

/-- `_TIMER_SECTION`. -/
def timerSection : Directives :=
  ["OnCalendar", "OnBootSec", "OnStartupSec", "OnActiveSec", "OnUnitActiveSec",
    "OnUnitInactiveSec", "AccuracySec", "RandomizedDelaySec", "FixedRandomDelay",
    "Persistent"].map (·, .any) ++ [("Unit", .unitRefs)]

/-- `_INSTALL_SECTION`. -/
def installSection : Directives := [("WantedBy", .unitRefs), ("RequiredBy", .unitRefs)]

/-- `UNIT_SUFFIXES`. -/
inductive Suffix
  | service | timer
  deriving DecidableEq, Repr

/-- The suffix as text. -/
def Suffix.text : Suffix → Str
  | .service => ".service".toList
  | .timer => ".timer".toList

/-- The first of `UNIT_SUFFIXES` that the name ends with. -/
def suffixOf (name : Str) : Option Suffix :=
  if name.endsWith Suffix.service.text then some .service
  else if name.endsWith Suffix.timer.text then some .timer
  else none

/-- `_SECTIONS`. -/
def sections : Suffix → List (String × Directives)
  | .service => [("Unit", unitSection), ("Service", serviceSection), ("Install", installSection)]
  | .timer => [("Unit", unitSection), ("Timer", timerSection), ("Install", installSection)]

/-- A table that is keyed by texts. -/
def lookup {α : Type} (table : List (String × α)) (key : Str) : Option α :=
  (table.find? fun e => e.1.toList = key).map (·.2)

/-- The key is one of the texts. -/
def isOneOf (texts : List String) (key : Str) : Bool := texts.any fun s => s.toList = key

/-- `_EXEC_PREFIX_CHARS`. -/
def execPrefixChars : List Char := "-@:+!|".toList

/-- `_HARMLESS_EXEC_PREFIXES`. -/
def harmlessExecPrefixes : List Char := "-@:".toList

/-- `_LOADER_VARIABLES`. -/
def loaderVariables : List String :=
  ["PYTHONPATH", "PYTHONHOME", "PYTHONSTARTUP", "PYTHONUSERBASE", "PYTHONPLATLIBDIR",
    "PYTHONEXECUTABLE", "PYTHONBREAKPOINT"]

/-- `_SAFE_STDIO`. -/
def safeStdio : List String :=
  ["inherit", "null", "journal", "kmsg", "journal+console", "kmsg+console", "socket"]

/-- A character of `_UNIT_REF_RE`. -/
def isUnitRefChar (c : Char) : Bool := c.isAlphanum || ":_.\\@%-".toList.contains c

/-- `_UNIT_REF_RE`, of a text without newlines. -/
def isUnitRef (s : Str) : Bool := !s.isEmpty && s.all isUnitRefChar

/-- `_DIRECTIVE_RE`, of a text without newlines. -/
def isDirective : Str → Bool
  | [] => false
  | c :: s => c.isAlpha && s.all Char.isAlphanum

/-- `_CONTROL_RE`. -/
def isControl (c : Char) : Bool := inRanges [(0x0, 0x8), (0xb, 0x1f), (0x7f, 0x7f)] c

/-- `_is_root_identity`. -/
def isRootIdentity (value : Str) : Option Bool :=
  if value = "root".toList then some true
  else if value.allDigits then value.intIsZero
  else some false

/-! ## Lines -/

/-- The loop of `_logical_lines`, from line `number` on. -/
def joinLines : ℕ → List Str → List Str → ℕ → Except Refusal (List (ℕ × Str))
  | _, [], pending, start =>
    if pending = [] then .ok []
    else .error ⟨.ruleSyntax, [.lit "the file ends inside a continued line"], some start⟩
  | number, raw :: rest, pending, start =>
    let line := raw.rdropWhile (· == '\r')
    let stripped := strip line
    if pending ≠ [] ∧ isComment stripped then joinLines (number + 1) rest pending start
    else if pending = [] ∧ (stripped = [] ∨ isComment stripped) then
      joinLines (number + 1) rest [] start
    else
      let start := if pending = [] then number else start
      if line.getLast? = some '\\' then
        joinLines (number + 1) rest (pending ++ [line.dropLast]) start
      else
        ((start, List.intercalate [' '] ((pending ++ [line]).map strip)) :: ·) <$>
          joinLines (number + 1) rest [] start

/-- `_logical_lines`. -/
def logicalLines (text : Str) : Except Refusal (List (ℕ × Str)) :=
  joinLines 1 (text.splitOn '\n') [] 0

/-- The loop of `unit_directives`. -/
def directivesOf : Str → List (ℕ × Str) → List (Str × Str × Str)
  | _, [] => []
  | section_, (_, line) :: rest =>
    if line.head? = some '[' then
      directivesOf (stripBy (fun c => c == '[' || c == ']') line.strip) rest
    else
      let (key, sep, value) := line.partition '='
      if sep then (section_, key.strip, value.strip) :: directivesOf section_ rest
      else directivesOf section_ rest

/-- `unit_directives`: `(section, key, value)` for every assignment. -/
def unitDirectives (text : Str) : List (Str × Str × Str) :=
  match logicalLines text with
  | .error _ => []
  | .ok lines => directivesOf [] lines

/-! ## Values -/

/-- `exec_executable`. -/
def execExecutable (value : Str) : Option Str :=
  match Shlex.split (value.dropWhile (execPrefixChars.contains ·)) with
  | .error _ => none
  | .ok argv => argv.head?

/-- The text of a `ValueError` of `shlex.split`. -/
def shlexText : Shlex.Error → String
  | .noClosingQuotation => "No closing quotation"
  | .noEscapedCharacter => "No escaped character"

/-- A path that one of the `exec_prefixes` covers. -/
def granted (execPrefixes : List Str) (executable : Str) : Bool :=
  execPrefixes.any fun g => g.getLast? = some '/' && executable.startsWith g || executable = g

/-- `_exec_refusal`. -/
def execRefusal (value : Str) (policy : RootPolicy) (key : Str) : Option Refusal :=
  if value = [] then none
  else
    let prefixes := value.takeWhile (execPrefixChars.contains ·)
    let command := value.dropWhile (execPrefixChars.contains ·)
    if !prefixes.all (harmlessExecPrefixes.contains ·) then
      some ⟨.ruleExecPrefix, [.val key, .lit "= prefix ", .repr prefixes,
        .lit " runs the command with root privileges"], none⟩
    else match Shlex.split command with
      | .error e =>
        some ⟨.ruleSyntax, [.val key, .lit "= cannot be parsed: ", .lit (shlexText e)], none⟩
      | .ok [] => some ⟨.ruleExecPath, [.val key, .lit "= names no command"], none⟩
      | .ok (executable :: _) =>
        if !executable.isAbs || executable.contains '%' || executable.contains '$' ||
            executable.normpath ≠ executable then
          some ⟨.ruleExecPath, [.val key, .lit "= executable ", .repr executable,
            .lit " is not a normalised absolute path"], none⟩
        else if granted policy.execPrefixes executable then none
        else some ⟨.ruleExecPath, [.val key, .lit "= executable ", .val executable,
          .lit " is outside the root policy's exec_prefixes"], none⟩

/-- The path that `EnvironmentFile=` or `LoadCredential=` makes root read. -/
def readPath (key value : Str) : Str :=
  if key = "EnvironmentFile".toList then value.removePrefix ['-'] else (value.partition ':').2.2

/-- `_read_path_refusal`. -/
def readPathRefusal (key value : Str) (policy : RootPolicy) : Option Refusal :=
  if readPath key value ∈ policy.readPaths then none
  else some ⟨.ruleReadPath, [.val key, .lit "= makes root read ", .repr (readPath key value),
    .lit ", which the root policy does not list"], none⟩

/-- A variable that makes a process load code. -/
def isLoaderVariable (name : Str) : Bool :=
  name.startsWith "LD_".toList || isOneOf loaderVariables name

/-- `_environment_refusal`. -/
def environmentRefusal (value : Str) : Option Refusal :=
  match Shlex.split value with
  | .error e => some ⟨.ruleSyntax, [.lit "Environment= cannot be parsed: ", .lit (shlexText e)], none⟩
  | .ok assignments =>
    ((assignments.map fun a => (a.partition '=').1).find? isLoaderVariable).map fun name =>
      ⟨.ruleEnvironment, [.lit "Environment= sets loader variable ", .val name], none⟩

/-- `User=` or `Group=`: `what` is the start of the message, `kind` its noun. -/
def identityRefusal (rule : Rule) (what kind : String) (listed : List Str) (value : Str) :
    Option (Option Refusal) :=
  let refusal : Refusal := ⟨rule, [.lit what, .repr value,
    .lit " is not a non-root ", .lit kind, .lit " the policy lists"], none⟩
  if value = [] then some (some refusal)
  else (isRootIdentity value).map fun root =>
    if root || value ∉ listed then some refusal else none

/-- `_value_refusal`. -/
def valueRefusal (kind : Kind) (key value : Str) (policy : RootPolicy) : Option (Option Refusal) :=
  match kind with
  | .any => some none
  | .exec => some (execRefusal value policy key)
  | .unitRefs => some ((value.fields.find? fun t => !isUnitRef t).map fun bad =>
      ⟨.ruleSyntax, [.val key, .lit "= names ", .repr bad, .lit ", not a unit name"], none⟩)
  | .user => identityRefusal .ruleUser "User=" "user" policy.users value
  | .group => identityRefusal .ruleGroup "Group=" "group" policy.groups value
  | .readPath => some (readPathRefusal key value policy)
  | .environment => some (environmentRefusal value)
  | .stdio => some (if isOneOf safeStdio value then none
      else some ⟨.ruleStdio, [.val key, .lit "=", .val value, .lit " makes root open it"], none⟩)
  | .directory => some ((value.fields.find? fun t => t ∉ policy.directories).map fun bad =>
      ⟨.ruleDirectory, [.val key, .lit "=", .val bad, .lit (" would be created and chowned by root, " ++
        "and the root policy does not list it")], none⟩)

/-- `_safe_name`. -/
def safeName (key : Str) : Str :=
  if isDirective key ∧ key.length ≤ 64 then key else "<unreadable>".toList

/-! ## Judging a unit -/

/-- What the loop of `validate_unit` keeps from line to line: the directives of the section it is
in (`some []` once a section was refused), the users it has seen, and the refusals. -/
structure Judging where
  current : Option Directives := none
  users : List Str := []
  refusals : List Refusal := []

/-- One more refusal. -/
def Judging.refuse (j : Judging) (r : Refusal) : Judging := { j with refusals := j.refusals ++ [r] }

/-- One logical line in the loop of `validate_unit`. -/
def judgeLine (suffix : Suffix) (policy : RootPolicy) (j : Judging) (number : ℕ) (line : Str) :
    Option Judging :=
  if line.head? = some '[' then
    let section_ := line.strip
    match if section_.getLast? = some ']' then lookup (sections suffix) (section_.drop 1).dropLast
        else none with
    | none => some { j.refuse ⟨.ruleSection, [.lit "section ", .repr (section_.take 40),
        .lit " is not allowed"], some number⟩ with current := some [] }
    | some directives => some { j with current := some directives }
  else
    let (key, sep, value) := line.partition '='
    let key := key.strip
    let value := value.strip
    if !sep || !isDirective key then
      some (j.refuse ⟨.ruleSyntax, [.lit "not a directive assignment"], some number⟩)
    else match j.current with
      | none => some (j.refuse
          ⟨.ruleSyntax, [.val key, .lit "= appears before any section"], some number⟩)
      | some [] => some j
      | some directives => match lookup directives key with
        | none => some (j.refuse ⟨.ruleDirective, [.val (safeName key),
            .lit "= is not on the allowlist for this section"], some number⟩)
        | some kind =>
          let j := if key = "User".toList then { j with users := j.users ++ [value] } else j
          (valueRefusal kind key value policy).map fun
            | none => j
            | some r => j.refuse { r with line := r.line.or (some number) }

/-- The loop of `validate_unit`. -/
def judgeLines (suffix : Suffix) (policy : RootPolicy) : Judging → List (ℕ × Str) → Option Judging
  | j, [] => some j
  | j, (number, line) :: rest =>
    (judgeLine suffix policy j number line).bind fun j => judgeLines suffix policy j rest

/-- `validate_unit`. -/
def validateUnit (name text : Str) (policy : RootPolicy) : Option (List Refusal) :=
  match suffixOf name with
  | none => some [⟨.ruleUnitSuffix, [.val name, .lit " is not a .service or .timer"], none⟩]
  | some suffix =>
    if text.any isControl then
      some [⟨.ruleSyntax, [.lit "the file contains control characters"], none⟩]
    else match logicalLines text with
      | .error refusal => some [refusal]
      | .ok lines => (judgeLines suffix policy {} lines).map fun j =>
        if suffix = .service ∧ j.users = [] then
          j.refusals ++ [⟨.ruleUser,
            [.lit "no User=: the unit would run every command as root"], none⟩]
        else j.refusals

/-! ## What of the policy counts -/

section Congr

variable {policy policy' : RootPolicy}

/-- The policies list the same, in any order. -/
structure ListsSame (policy policy' : RootPolicy) : Prop where
  users : ∀ s, s ∈ policy'.users ↔ s ∈ policy.users
  groups : ∀ s, s ∈ policy'.groups ↔ s ∈ policy.groups
  execPrefixes : ∀ s, s ∈ policy'.execPrefixes ↔ s ∈ policy.execPrefixes
  readPaths : ∀ s, s ∈ policy'.readPaths ↔ s ∈ policy.readPaths
  directories : ∀ s, s ∈ policy'.directories ↔ s ∈ policy.directories

/-- The same prefixes grant the same. -/
theorem granted_congr {execPrefixes execPrefixes' : List Str}
    (h : ∀ s, s ∈ execPrefixes' ↔ s ∈ execPrefixes) (executable : Str) :
    granted execPrefixes' executable = granted execPrefixes executable := by
  unfold granted
  rw [Bool.eq_iff_iff, List.any_eq_true, List.any_eq_true]
  simp only [h]

/-- The same list refuses the same. -/
theorem identityRefusal_congr {listed listed' : List Str} (h : ∀ s, s ∈ listed' ↔ s ∈ listed)
    (rule : Rule) (what kind : String) (value : Str) :
    identityRefusal rule what kind listed' value = identityRefusal rule what kind listed value := by
  unfold identityRefusal
  simp only [h]

/-- A value is refused for what the policy lists, and not for its order. -/
theorem valueRefusal_congr (h : ListsSame policy policy') (kind : Kind) (key value : Str) :
    valueRefusal kind key value policy' = valueRefusal kind key value policy := by
  -- Only some kinds look at the policy.
  cases kind with
  | exec =>
    unfold valueRefusal execRefusal
    simp only [granted_congr h.execPrefixes]
  | user => exact identityRefusal_congr h.users _ _ _ _
  | group => exact identityRefusal_congr h.groups _ _ _ _
  | readPath =>
    unfold valueRefusal readPathRefusal
    simp only [h.readPaths]
  | directory =>
    unfold valueRefusal
    simp only [h.directories]
  | any => rfl
  | unitRefs => rfl
  | environment => rfl
  | stdio => rfl

/-- Policies that list the same judge a line alike. -/
theorem judgeLine_congr (h : ListsSame policy policy') (suffix : Suffix) (j : Judging) (number : ℕ)
    (line : Str) : judgeLine suffix policy' j number line = judgeLine suffix policy j number line := by
  unfold judgeLine
  simp only [valueRefusal_congr h]

/-- Policies that list the same judge the lines alike. -/
theorem judgeLines_congr (h : ListsSame policy policy') (suffix : Suffix) (j : Judging)
    (lines : List (ℕ × Str)) :
    judgeLines suffix policy' j lines = judgeLines suffix policy j lines := by
  induction lines generalizing j with
  | nil => rfl
  | cons line rest ih =>
    unfold judgeLines
    rw [judgeLine_congr h]
    simp only [ih]

/-- Policies that list the same refuse a unit for the same. -/
theorem validateUnit_congr (h : ListsSame policy policy') (name text : Str) :
    validateUnit name text policy' = validateUnit name text policy := by
  unfold validateUnit
  simp only [judgeLines_congr h]

end Congr

/-! ## Unit names -/

/-- `check_scaffold_unit_name`. -/
def checkScaffoldUnitName (name : Str) (policy : RootPolicy) : Option Refusal :=
  if name ∈ policy.units ∧ (suffixOf name).isSome ∧ '/' ∉ name then none
  else some ⟨.ruleUnitName, [.val name, .lit (" is not a unit the root policy lets a deploy " ++
    "install; an operator installs it with `sudo fraisier scaffold-install`")], none⟩

/-- `check_app_unit_name`. -/
def checkAppUnitName (name : Str) (policy : RootPolicy) : Option Refusal :=
  if '/' ∈ name ∨ (suffixOf name).isNone then
    some ⟨.ruleUnitSuffix, [.val name, .lit " is not a .service or .timer unit"], none⟩
  else if name ∈ policy.units ∨ name ∈ policy.operatorOnly.keys.map basename then
    some ⟨.ruleUnitName, [.val name,
      .lit " is a unit fraisier's scaffold installs; an app may not replace it"], none⟩
  else none

end Fraisier.Unit
