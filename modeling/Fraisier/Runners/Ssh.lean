import Fraisier.Config.Connection
import Fraisier.Lib.Sh

/-!
# Commands on a remote host

`SSHRunner.run` of `runners.py`: the line that is given to `ssh`, and what is written to its stdin.
On the other side, the shells that read them: the login shell splits the line, `sudo` may ask for a
password, and `sh` runs the script, which looks at the variables of libpq that it was started with,
drops them, and takes its environment from stdin. The host executes exactly the command, with
exactly the environment, or refuses it as the module `_pgconn` does on the machine itself
(`login_run`); and the values are not in the line (`line_run_eq`).
-/

namespace Fraisier.Runners

open Fraisier.Lib Str Sh Fallible
open Config (Settings isSocket envKeyword transportPolicy operatorDefaults scrubbed transportRefusal)

/-! ## The runner -/

/-- `_ENV_SENTINEL`. -/
def envSentinel : Str := "__FRAISIER_ENV__".toList

/-- `_ENV_READER`. -/
def envReader : Str :=
  ("while :; do IFS= read -r l || exit 125; " ++
    "[ \"$l\" = __FRAISIER_ENV__ ] && break; done; eval \"$(cat)\"; ").toList

/-- `_SUDO_VALIDATE`. -/
def sudoValidate : Str :=
  ("IFS= read -r p || exit 125; " ++
    "printf '%s\n' \"$p\" | sudo -S -p '' -v || exit 124; p=; ").toList

/-- `_SAFE_PATH`. -/
def safePath : Str := "/usr/local/sbin:/usr/local/bin:/usr/sbin:/usr/bin:/sbin:/bin".toList

/-- The `ValueError` of a key that is not a valid environment variable name. -/
structure BadName where
  key : Str
  deriving DecidableEq

/-- `_env_payload`. -/
def envPayload (env : Env) : Except BadName Str :=
  match env.find? fun a => !isName a.1 with
  | some a => .error ⟨a.1⟩
  | none => .ok (envSentinel ++ '\n' :: env.flatMap fun a => exportText a ++ ['\n'])

/-- The fields of an `SSHRunner` that say how a command is run. The password is empty where there is
none: the source asks whether it is true. -/
structure SSHRunner where
  useSudo : Bool
  sudoPassword : Str

/-- What goes to the host: the last argument of `ssh`, which `cmd_with_input` joins, and stdin. -/
structure Sent where
  line : Str
  stdin : Str
  deriving DecidableEq

/-- `{"PATH": self._SAFE_PATH, **env}`. -/
def environment (env : Env) : Env :=
  env.foldl (fun d a => put a.1 a.2 d) [("PATH".toList, safePath)]

def cdWord : Str := "cd ".toList

def andWord : Str := " && ".toList

def execWord : Str := "exec ".toList

/-- `f"cd {shlex.quote(cwd)} && " if cwd else ""`. -/
def cdText (cwd : Str) : Str := if cwd = [] then [] else cdWord ++ quote cwd ++ andWord

/-- What comes after the scrub. -/
def script (cmd : List Str) (cwd : Str) : Str := envReader ++ cdText cwd ++ (execWord ++ join cmd)

def ifText : Str := "if [ -n \"$\x7b".toList

def thenText : Str := "+x\x7d\" ]; then echo \"".toList

def messageText : Str :=
  (" is set in the environment, and fraisier no longer passes it to database clients: " ++
    "put it in the URL (?").toList

def exitText : Str := ")\" >&2; exit 123; fi; ".toList

/-- The command of `_transport_check` for one variable. -/
def transportText (var : Str) : Str :=
  ifText ++ (var ++
    (thenText ++ var ++ messageText ++ envKeyword var ++ "=$".toList ++ var ++ exitText))

/-- `_transport_check`. -/
def transportCheck (env : Env) : Str :=
  if isSocket env then []
  else (transportPolicy.filter fun var => !Settings.has env var).flatMap transportText

/-- `_PG_SCRUB`. -/
def pgScrub : Str :=
  ("for v in $(env | cut -d= -f1 | grep -E '^PG[A-Za-z0-9_]*$'); do case $v in PGAPPNAME|" ++
    "PGCONNECT_TIMEOUT|PGPASSFILE|PGREQUIREAUTH|PGSSLCERT|PGSSLCRL|PGSSLCRLDIR|PGSSLKEY|" ++
    "PGSSLROOTCERT) ;; *) unset \"$v\" ;; esac; done; ").toList

/-- What comes before the script. -/
def scrub (scrubPg : Bool) (env : Env) : Str :=
  if scrubPg then transportCheck env ++ pgScrub else []

/-- `SSHRunner.run`. -/
def SSHRunner.run (runner : SSHRunner) (cmd : List Str) (cwd : Str) (env : Env) (scrubPg : Bool) :
    Except BadName Sent := do
  let payload ← envPayload (environment env)
  let remoteArgv := ["sh".toList, "-c".toList, scrub scrubPg env ++ script cmd cwd]
  if runner.useSudo = true ∧ runner.sudoPassword ≠ [] then
    return { line := join ["sh".toList, "-c".toList,
               sudoValidate ++ ("sudo -n ".toList ++ join remoteArgv)]
             stdin := runner.sudoPassword ++ '\n' :: payload }
  else if runner.useSudo = true then
    return { line := join ("sudo".toList :: remoteArgv), stdin := payload }
  else return { line := join remoteArgv, stdin := payload }

/-! ## The host -/

/-- What the host does in the end. The command is executed with the variables of libpq that the
shell kept of those it was started with, those it exported, the operand of its `cd`, and its words;
or the shell exits with `TRANSPORT_REFUSED`. -/
inductive Outcome
  | executed (kept : Settings) (exported : Env) (cwd : Str) (argv : List Str)
  | refused
  deriving DecidableEq

/-- The variables that the shell is started with, which have names of a shell; whether `sudo` runs a
command without a password, and which one it takes. -/
structure Host where
  environ : Settings
  named : ∀ a ∈ environ, isName a.1 = true
  passwordless : Bool
  accepts : Str → Bool

/-- The checks at the front of a script. There is nothing after them when one of them exits. -/
def afterChecks (environ : Settings) : ℕ → Str → Option Str
  | 0, s => some s
  | fuel + 1, s =>
    -- a check is read as the one of the variable that it names first
    let var := ((s.dropPrefix? ifText).getD []).takeWhile isNameChar
    match s.dropPrefix? (transportText var) with
    | none => some s
    | some s => if environ.has var then none else afterChecks environ fuel s

/-- The variables of libpq. Of the others, the shell changes those that its own commands set. -/
def ofLibpq (environ : Settings) : Settings :=
  environ.filter fun a => startsWith a.1 "PG".toList

/-- `unset` of the variables of libpq, less those that an operator sets. -/
def unsetPg (environ : Settings) : Settings :=
  environ.filter fun a =>
    !(startsWith a.1 "PG".toList && a.1.all isNameChar) || a.1 ∈ operatorDefaults

/-- The loop of `_ENV_READER`: stdin after the line that is the sentinel. Of a line, `l` was read
before. -/
def afterSentinel (l : Str) : Str → Option Str
  | [] => none
  | c :: s =>
    if c = '\n' then if l = envSentinel then some s else afterSentinel [] s
    else afterSentinel (l ++ [c]) s

/-- `cd`, where the script has one, and what comes after it. A word that begins with `-` would be an
option of `cd`. -/
def cd (s : Str) : Option (Str × Str) :=
  match s.dropPrefix? cdWord with
  | none => some ([], s)
  | some s => do
    let (cwd, s) ← word .bare s
    if cwd.head? = some '-' then none
    else return (cwd, ← s.dropPrefix? andWord)

/-- The rest of a script: it evaluates what stdin has after the sentinel, and executes the words of
the command. -/
def runScript (kept : Settings) (s stdin : Str) : Option Outcome := do
  let s ← s.dropPrefix? envReader
  let exported ← (capture (← afterSentinel [] stdin)).bind exports
  let (cwd, s) ← cd s
  return .executed (ofLibpq kept) exported cwd (← words (← s.dropPrefix? execWord))

/-- A shell that was given a script. -/
def runScrubbed (environ : Settings) (s stdin : Str) : Option Outcome :=
  match afterChecks environ s.length s with
  | none => some .refused
  | some s =>
    match s.dropPrefix? pgScrub with
    | none => runScript environ s stdin
    | some s => runScript (unsetPg environ) s stdin

/-- A command of the host that reads a script: `sh -c`. -/
def sh (argv : List Str) (run : Str → Option Outcome) : Option Outcome :=
  match argv with
  | [sh, c, s] => if sh = "sh".toList ∧ c = "-c".toList then run s else none
  | _ => none

/-- `sudo -n`, which runs a command. -/
def sudoN (argv : List Str) (run : List Str → Option Outcome) : Option Outcome :=
  match argv with
  | command :: option :: argv =>
    if command = "sudo".toList ∧ option = "-n".toList then run argv else none
  | _ => none

/-- A shell that may have to check a password: it takes the first line for `sudo -v`, and what it
runs then is run by `sudo -n`. -/
def Host.runValidated (host : Host) (stdin s : Str) : Option Outcome :=
  match s.dropPrefix? sudoValidate with
  | none => runScrubbed host.environ s stdin
  | some s => do
    let (p, stdin) ← readLine stdin
    if host.accepts p = true then
      (words s).bind fun argv => sudoN argv fun argv => sh argv fun s =>
        runScrubbed host.environ s stdin
    else none

/-- The login shell of the host, which runs the words of its line. -/
def Host.login (host : Host) (sent : Sent) : Option Outcome := do
  match ← words sent.line with
  | [] => none
  | command :: argv =>
    if command = "sudo".toList then
      if host.passwordless = true then sh argv fun s => runScrubbed host.environ s sent.stdin
      else none
    else sh (command :: argv) (host.runValidated sent.stdin)

/-- `sudo` lets the runner in: by its password, or without one. -/
def Host.Admits (host : Host) (runner : SSHRunner) : Prop :=
  runner.useSudo = true →
    if runner.sudoPassword = [] then host.passwordless = true
    else host.accepts runner.sudoPassword = true

section Login

variable {runner : SSHRunner} {host : Host} {cmd : List Str} {cwd : Str} {env : Env} {sent : Sent}
  {environ kept : Settings} {scrubPg : Bool} {payload s l rest var : Str}

/-- The payload is written when every name is one of a shell: the sentinel, then a line for each
variable. -/
theorem envPayload_ok_iff : envPayload env = .ok payload ↔
    (∀ a ∈ env, isName a.1 = true) ∧
      payload = envSentinel ++ '\n' :: env.flatMap fun a => exportText a ++ ['\n'] := by
  rw [envPayload]
  cases hfind : env.find? fun a => !isName a.1 with
  | none =>
    have hnames : ∀ a ∈ env, isName a.1 = true := by simpa using List.find?_eq_none.mp hfind
    simp only [Except.ok.injEq]
    exact ⟨fun heq => ⟨hnames, heq.symm⟩, fun h => h.2.symm⟩
  | some a =>
    have hname : isName a.1 = false := by simpa using List.find?_some hfind
    refine ⟨fun h => (by cases h), fun h => ?_⟩
    exact absurd (h.1 a (List.mem_of_find?_eq_some hfind)) (by rw [hname]; exact Bool.false_ne_true)

/-! ## The environment -/

/-- A dict that was given a member is not empty. -/
theorem put_ne_nil (key value : Str) (d : Env) : put key value d ≠ [] := by
  cases d with
  | nil => exact List.cons_ne_nil _ _
  | cons a d =>
    rw [put]
    split_ifs <;> exact List.cons_ne_nil _ _

/-- A dict that is given more members does not get empty. -/
theorem foldl_put_ne_nil {d : Env} (h : d ≠ []) : env.foldl (fun d a => put a.1 a.2 d) d ≠ [] := by
  induction env generalizing d with
  | nil => exact h
  | cons a env ih => exact ih (put_ne_nil a.1 a.2 d)

/-- A member comes from those that were given or from the dict before. -/
theorem mem_of_mem_foldl_put {d : Env} {a : Str × Str}
    (h : a ∈ env.foldl (fun d a => put a.1 a.2 d) d) : a ∈ env ∨ a ∈ d := by
  induction env generalizing d with
  | nil => exact .inr h
  | cons b env ih =>
    obtain h | h := ih h
    · exact .inl (List.mem_cons_of_mem b h)
    · obtain rfl | h := eq_or_mem_of_mem_put h
      · exact .inl List.mem_cons_self
      · exact .inr h

/-- The environment has the path at least. -/
theorem environment_ne_nil (env : Env) : environment env ≠ [] :=
  foldl_put_ne_nil (List.cons_ne_nil _ _)

/-- A variable of the environment was given, or is the path. -/
theorem mem_environment {a : Str × Str} (h : a ∈ environment env) :
    a ∈ env ∨ a = ("PATH".toList, safePath) :=
  (mem_of_mem_foldl_put h).imp_right List.mem_singleton.mp

/-! ## The shells -/

/-- The reader takes a line at a time, until the sentinel. -/
theorem afterSentinel_line (h : '\n' ∉ s) : afterSentinel l (s ++ '\n' :: rest) =
    if l ++ s = envSentinel then some rest else afterSentinel [] rest := by
  induction s generalizing l with
  | nil => rw [List.nil_append, afterSentinel, if_pos rfl, List.append_nil]
  | cons c s ih =>
    rw [List.mem_cons, not_or] at h
    rw [List.cons_append, afterSentinel, if_neg (Ne.symm h.1), ih h.2, List.append_assoc,
      List.singleton_append]

/-- A word ends before what joins two commands. -/
theorem ends_andWord (s : Str) : Ends (andWord ++ s) := by
  intro c hc
  obtain rfl : ' ' = c := Option.some.inj hc
  rfl

/-- The directory of a script is the operand of its `cd`. -/
theorem cd_cdText {cwd : List Char} (hcwd : cwd.head? ≠ some '-') (cmd : List Char) :
    cd (cdText cwd ++ (execWord ++ cmd)) = some (cwd, execWord ++ cmd) := by
  rw [cdText]
  split_ifs with hnil
  · rw [cd, List.nil_append, hnil]
    rfl
  · rw [List.append_assoc, List.append_assoc, cd, dropPrefix_append]
    change (word .bare (quote cwd ++ (andWord ++ (execWord ++ cmd)))).bind _ = _
    rw [word_quote cwd (ends_andWord _), Option.bind_some]
    change (if cwd.head? = some '-' then none else
      ((andWord ++ (execWord ++ cmd)).dropPrefix? andWord).bind _) = _
    rw [if_neg hcwd, dropPrefix_append]
    rfl

/-- The script executes the command, with the variables that the payload exports. -/
theorem runScript_script (hcmd : cmd ≠ []) (hcwd : cwd.head? ≠ some '-') (hne : env ≠ []) (hvalues : ∀ a ∈ env, '\x00' ∉ a.2)
    (hpayload : envPayload env = .ok payload) :
    runScript kept (script cmd cwd) payload = some (.executed (ofLibpq kept) env cwd cmd) := by
  obtain ⟨hnames, rfl⟩ := envPayload_ok_iff.mp hpayload
  rw [runScript, script, List.append_assoc, dropPrefix_append, Option.bind_eq_bind,
    Option.bind_some, afterSentinel_line (by decide), List.nil_append, if_pos rfl,
    Option.bind_eq_bind, Option.bind_some, exports_capture hne hnames hvalues, Option.bind_eq_bind, Option.bind_some,
    cd_cdText hcwd, Option.bind_eq_bind, Option.bind_some]
  simp only [dropPrefix_append, Option.bind_some, words_join hcmd]
  rfl

/-- The payload is written, and the script that reads it executes the command. -/
theorem exists_payload (hcmd : cmd ≠ []) (hnames : ∀ a ∈ env, isName a.1 = true)
    (hvalues : ∀ a ∈ env, '\x00' ∉ a.2) (hcwd : cwd.head? ≠ some '-') :
    ∃ payload, envPayload (environment env) = .ok payload ∧ ∀ kept,
      runScript kept (script cmd cwd) payload =
        some (.executed (ofLibpq kept) (environment env) cwd cmd) := by
  have hpath : isName "PATH".toList = true ∧ '\x00' ∉ safePath := by decide
  have hall : ∀ a ∈ environment env, isName a.1 = true ∧ '\x00' ∉ a.2 := fun a ha =>
    (mem_environment ha).elim (fun ha => ⟨hnames a ha, hvalues a ha⟩) fun heq => heq ▸ hpath
  have hpayload := envPayload_ok_iff.mpr ⟨fun a ha => (hall a ha).1, rfl⟩
  exact ⟨_, hpayload, fun kept =>
    runScript_script hcmd hcwd (environment_ne_nil env) (fun a ha => (hall a ha).2) hpayload⟩

/-- The words that start a shell on a script run it. -/
theorem sh_script (run : Str → Option Outcome) (s : Str) :
    sh ["sh".toList, "-c".toList, s] run = run s := by
  rw [sh]
  exact if_pos ⟨rfl, rfl⟩

/-- The words that start `sudo -n` run those after them. -/
theorem sudoN_sudo (argv : List Str) (run : List Str → Option Outcome) :
    sudoN ("sudo".toList :: "-n".toList :: argv) run = run argv := by
  rw [sudoN]
  exact if_pos ⟨rfl, rfl⟩

/-- The start of a `sudo` command is the line of its words. -/
theorem join_sudo {argv : List Str} (h : argv ≠ []) :
    "sudo -n ".toList ++ join argv = join ("sudo".toList :: "-n".toList :: argv) := by
  have hmap : argv.map quote ≠ [] := by simpa using h
  rw [join, join, List.map_cons, List.map_cons, intercalate_cons _ (List.cons_ne_nil _ _),
    intercalate_cons _ hmap, show quote "sudo".toList = "sudo".toList by decide,
    show quote "-n".toList = "-n".toList by decide]
  rfl

/-! ## The variables of libpq -/

/-- A child is refused when a variable of the policy is dropped, and it does not use a socket. -/
theorem transportRefusal_isSome_iff : (transportRefusal environ env).isSome = true ↔
    isSocket env = false ∧ ∃ var ∈ transportPolicy.filter fun var => !Settings.has env var,
      environ.has var = true := by
  have hdropped : isSocket env = false → ((transportRefusal environ env).isSome = true ↔
      (transportPolicy.filter fun var => environ.has var && !Settings.has env var) ≠ []) := by
    intro hsocket
    rw [transportRefusal, hsocket]
    simp only [Bool.false_eq_true, if_false]
    split_ifs with hnil <;> simp [hnil]
  -- Over a socket nothing is refused.
  cases hsocket : isSocket env with
  | true =>
    rw [transportRefusal, hsocket]
    simp
  | false =>
    rw [hdropped hsocket, ne_eq, List.filter_eq_nil_iff]
    simp only [List.mem_filter, Bool.and_eq_true, not_forall, not_not, true_and]
    constructor
    · rintro ⟨var, hvar, hhas, hnot⟩
      exact ⟨var, ⟨hvar, hnot⟩, hhas⟩
    · rintro ⟨var, ⟨hvar, hnot⟩, hhas⟩
      exact ⟨var, hvar, hhas, hnot⟩

/-- A check begins as an `if` does. -/
theorem transportText_eq (var : Str) : ∃ t, transportText var = 'i' :: t := ⟨_, rfl⟩

/-- The scrubbing begins as a `for` does. -/
theorem pgScrub_eq : ∃ t, pgScrub = 'f' :: t := List.head?_eq_some_iff.mp (by decide +kernel)

/-- The reading of the password begins as `IFS` does. -/
theorem sudoValidate_eq : ∃ t, sudoValidate = 'I' :: t :=
  List.head?_eq_some_iff.mp (by decide +kernel)

/-- A script begins as a `while` does. -/
theorem script_eq (cmd : List Str) (cwd : Str) : ∃ t, script cmd cwd = 'w' :: t := by
  obtain ⟨t, ht⟩ : ∃ t, envReader = 'w' :: t := List.head?_eq_some_iff.mp (by decide +kernel)
  exact ⟨_, by rw [script, ht]; rfl⟩

/-- A text that begins otherwise does not have the prefix. -/
theorem dropPrefix_of_ne {c d : Char} {p : Str} (h : c ≠ d) :
    (c :: s).dropPrefix? (d :: p) = none := by
  rw [List.dropPrefix?]
  exact if_neg (by simpa using h)

/-- A text that does not begin as an `if` is no check. -/
theorem dropPrefix_transportText_ne {c : Char} (hc : c ≠ 'i') :
    (c :: s).dropPrefix? (transportText var) = none := by
  obtain ⟨t, ht⟩ := transportText_eq var
  rw [ht]
  exact dropPrefix_of_ne hc

/-- A check names its variable first. -/
theorem name_transportText (h : ∀ c ∈ var, isNameChar c = true) :
    (((transportText var ++ s).dropPrefix? ifText).getD []).takeWhile isNameChar = var := by
  have hstop : ∀ t : Str, (thenText ++ t).takeWhile isNameChar = [] := fun t => rfl
  rw [transportText, List.append_assoc, dropPrefix_append, Option.getD_some, List.append_assoc,
    List.takeWhile_append_of_pos h]
  simp only [List.append_assoc]
  rw [hstop, List.append_nil]

/-- A text that does not begin as an `if` comes after the checks. -/
theorem afterChecks_of_ne {c : Char} (hc : c ≠ 'i') (fuel : ℕ) :
    afterChecks environ fuel (c :: s) = some (c :: s) := by
  cases fuel with
  | zero => rfl
  | succ fuel => rw [afterChecks, dropPrefix_transportText_ne hc]

/-- The checks exit when one of their variables is set. -/
theorem afterChecks_flatMap {vars : List Str} {c : Char} {fuel : ℕ}
    (hnames : ∀ var ∈ vars, ∀ c ∈ var, isNameChar c = true) (hc : c ≠ 'i')
    (hfuel : vars.length ≤ fuel) :
    afterChecks environ fuel (vars.flatMap transportText ++ c :: s) =
      if ∃ var ∈ vars, environ.has var = true then none else some (c :: s) := by
  -- Induction on the variables, in the order of their checks.
  induction vars generalizing fuel with
  | nil =>
    rw [List.flatMap_nil, List.nil_append, afterChecks_of_ne hc, if_neg (by simp)]
  | cons var vars ih =>
    obtain ⟨fuel, rfl⟩ : ∃ n, fuel = n + 1 := ⟨fuel - 1, by simp at hfuel; omega⟩
    rw [List.forall_mem_cons] at hnames
    have hrest := ih hnames.2 (by simpa using hfuel)
    rw [List.flatMap_cons, List.append_assoc, afterChecks, name_transportText hnames.1]
    simp only [dropPrefix_append]
    by_cases hhas : environ.has var = true
    · rw [if_pos hhas, if_pos ⟨var, List.mem_cons_self, hhas⟩]
    · rw [if_neg hhas, hrest]
      simp [hhas]

/-- The variables that are checked. -/
def checked (env : Env) : List Str :=
  if isSocket env then [] else transportPolicy.filter fun var => !Settings.has env var

/-- The checks are one for each variable that is checked. -/
theorem transportCheck_eq (env : Env) :
    transportCheck env = (checked env).flatMap transportText := by
  rw [transportCheck, checked]
  split_ifs <;> rfl

/-- A variable that is checked is one of the policy. -/
theorem mem_of_mem_checked (h : var ∈ checked env) : var ∈ transportPolicy := by
  rw [checked] at h
  split_ifs at h
  · nomatch h
  · exact List.mem_of_mem_filter h

/-- The host has a variable that is checked where a child of its own would be refused. -/
theorem exists_checked_iff : (∃ var ∈ checked env, environ.has var = true) ↔
    (transportRefusal environ env).isSome = true := by
  rw [transportRefusal_isSome_iff, checked]
  cases isSocket env <;> simp

/-- The variables of the policy have names of a shell. -/
theorem isName_of_mem_transportPolicy (h : var ∈ transportPolicy) : isName var = true := by
  have hall : ∀ var ∈ transportPolicy, isName var = true := by decide
  exact hall var h

/-- There is a character for each check at least, so the fuel is enough. -/
theorem length_le_length_checks (vars : List Str) (s : Str) :
    vars.length ≤ (vars.flatMap transportText ++ s).length := by
  induction vars with
  | nil => exact Nat.zero_le _
  | cons var vars ih =>
    obtain ⟨t, ht⟩ := transportText_eq var
    rw [List.flatMap_cons, ht]
    simp only [List.length_cons, List.length_append] at ih ⊢
    omega

/-- A shell that was given the whole script refuses where a child on its own machine is refused. -/
theorem runScrubbed_scrub (stdin : Str) :
    runScrubbed environ (scrub scrubPg env ++ script cmd cwd) stdin =
      if scrubPg = true ∧ (transportRefusal environ env).isSome = true then some .refused
      else runScript (if scrubPg then unsetPg environ else environ) (script cmd cwd) stdin := by
  obtain ⟨t, hscript⟩ := script_eq cmd cwd
  obtain ⟨p, hp⟩ := pgScrub_eq
  -- The script is given as it is, or with the variables unset before it.
  cases scrubPg with
  | false =>
    have hnone : (script cmd cwd).dropPrefix? pgScrub = none := by
      rw [hscript, hp]
      exact dropPrefix_of_ne (by decide)
    have hafter : afterChecks environ (script cmd cwd).length (script cmd cwd) =
        some (script cmd cwd) := by
      rw [hscript]
      exact afterChecks_of_ne (by decide) _
    change runScrubbed environ (script cmd cwd) stdin = _
    rw [runScrubbed, hafter]
    simp [hnone]
  | true =>
    have hpg : pgScrub ++ script cmd cwd = 'f' :: (p ++ script cmd cwd) := by rw [hp]; rfl
    have hvars : ∀ var ∈ checked env, ∀ c ∈ var, isNameChar c = true := fun var hvar =>
      all_isNameChar_of_isName (isName_of_mem_transportPolicy (mem_of_mem_checked hvar))
    have hafter := @afterChecks_flatMap environ (p ++ script cmd cwd) (checked env) 'f' _ hvars
      (by decide) (length_le_length_checks (checked env) ('f' :: (p ++ script cmd cwd)))
    rw [scrub, if_pos rfl, List.append_assoc, runScrubbed, hpg, transportCheck_eq, hafter]
    -- The checks come first, and refuse what is refused here.
    by_cases hrefused : (transportRefusal environ env).isSome = true
    · rw [if_pos (exists_checked_iff.mpr hrefused), if_pos ⟨rfl, hrefused⟩]
    · rw [if_neg fun h => hrefused (exists_checked_iff.mp h), if_neg fun h => hrefused h.2]
      simp only [← hpg, dropPrefix_append]
      rfl

/-- The shell unsets what the local scrubbing leaves out, of variables with names of a shell. -/
theorem unsetPg_eq_scrubbed (h : ∀ a ∈ environ, isName a.1 = true) :
    unsetPg environ = scrubbed environ := by
  refine List.filter_congr fun a ha => ?_
  rw [List.all_eq_true.mpr (all_isNameChar_of_isName (h a ha)), Bool.and_true]

/-! ## The command -/

/-- The line of a runner. -/
def SSHRunner.line (runner : SSHRunner) (s : Str) : Str :=
  if runner.useSudo = true ∧ runner.sudoPassword ≠ [] then
    join ["sh".toList, "-c".toList,
      sudoValidate ++ ("sudo -n ".toList ++ join ["sh".toList, "-c".toList, s])]
  else if runner.useSudo = true then join ["sudo".toList, "sh".toList, "-c".toList, s]
  else join ["sh".toList, "-c".toList, s]

/-- What a runner writes before the payload. -/
def SSHRunner.stdin (runner : SSHRunner) (payload : Str) : Str :=
  if runner.useSudo = true ∧ runner.sudoPassword ≠ [] then runner.sudoPassword ++ '\n' :: payload
  else payload

/-- The runner sends its line, and the payload after what it writes for `sudo`. -/
theorem run_eq : runner.run cmd cwd env scrubPg =
    (envPayload (environment env)).map fun payload =>
      ⟨runner.line (scrub scrubPg env ++ script cmd cwd), runner.stdin payload⟩ := by
  rw [SSHRunner.run]
  -- Without a bad name the line is sent as it stands.
  cases envPayload (environment env) with
  | error e => rfl
  | ok payload =>
    change (if _ then _ else if _ then _ else _ : Except BadName Sent) =
      .ok ⟨runner.line (scrub scrubPg env ++ script cmd cwd), runner.stdin payload⟩
    rw [SSHRunner.line, SSHRunner.stdin]
    by_cases hpassword : runner.useSudo = true ∧ runner.sudoPassword ≠ []
    · rw [if_pos hpassword, if_pos hpassword, if_pos hpassword]
      rfl
    · rw [if_neg hpassword, if_neg hpassword, if_neg hpassword]
      by_cases hsudo : runner.useSudo = true
      · rw [if_pos hsudo, if_pos hsudo]
        rfl
      · rw [if_neg hsudo, if_neg hsudo]
        rfl

/-- A login shell that is not told to use `sudo` gives the script to `sh`. -/
theorem login_sh (host : Host) (s stdin : Str) :
    host.login ⟨join ["sh".toList, "-c".toList, s], stdin⟩ = host.runValidated stdin s := by
  rw [Host.login, words_join (List.cons_ne_nil _ _), Option.bind_eq_bind, Option.bind_some]
  exact (if_neg (by decide)).trans (sh_script _ s)

/-- A host that admits the runner gives its script to a shell, with the payload on stdin. -/
theorem login_line (hpassword : '\n' ∉ runner.sudoPassword) (hadmits : host.Admits runner)
    (hfirst : s.dropPrefix? sudoValidate = none) :
    host.login ⟨runner.line s, runner.stdin payload⟩ = runScrubbed host.environ s payload := by
  rw [SSHRunner.line, SSHRunner.stdin]
  -- By whether `sudo` is used, and whether it is given a password.
  by_cases hsudo : runner.useSudo = true
  · have hin := hadmits hsudo
    by_cases hempty : runner.sudoPassword = []
    · rw [if_pos hempty] at hin
      have hnot : ¬(runner.useSudo = true ∧ runner.sudoPassword ≠ []) := fun h => h.2 hempty
      rw [if_neg hnot, if_neg hnot, if_pos hsudo, Host.login, words_join (List.cons_ne_nil _ _),
        Option.bind_eq_bind, Option.bind_some]
      exact (if_pos rfl).trans ((if_pos hin).trans (sh_script _ s))
    · rw [if_neg hempty] at hin
      rw [if_pos ⟨hsudo, hempty⟩, if_pos ⟨hsudo, hempty⟩, login_sh, Host.runValidated,
        dropPrefix_append]
      change (readLine (runner.sudoPassword ++ '\n' :: payload)).bind _ = _
      rw [readLine_append hpassword, Option.bind_some, join_sudo (List.cons_ne_nil _ _),
        words_join (List.cons_ne_nil _ _)]
      refine (if_pos hin).trans ?_
      rw [Option.bind_some, sudoN_sudo, sh_script]
  · have hnot : ¬(runner.useSudo = true ∧ runner.sudoPassword ≠ []) := fun h => hsudo h.1
    rw [if_neg hnot, if_neg hnot, if_neg hsudo, login_sh, Host.runValidated, hfirst]

/-- The script is not one that checks a password. -/
theorem not_validated : (scrub scrubPg env ++ script cmd cwd).dropPrefix? sudoValidate = none := by
  obtain ⟨v, hv⟩ := sudoValidate_eq
  -- The script begins with another letter, or with the checks of the variables.
  cases scrubPg with
  | false =>
    obtain ⟨t, ht⟩ := script_eq cmd cwd
    rw [hv]
    change (script cmd cwd).dropPrefix? ('I' :: v) = none
    rw [ht]
    exact dropPrefix_of_ne (by decide)
  | true =>
    rw [scrub, if_pos rfl, transportCheck_eq, List.append_assoc, hv]
    cases checked env with
    | nil =>
      obtain ⟨p, hp⟩ := pgScrub_eq
      rw [hp]
      exact dropPrefix_of_ne (by decide)
    | cons var vars =>
      obtain ⟨t, ht⟩ := transportText_eq var
      rw [List.flatMap_cons, ht]
      exact dropPrefix_of_ne (by decide)

/-- The host executes the command as it was given, with the path and the variables that were given,
each with its value, over the variables of libpq that it has itself, in a directory whose path does
not begin as an option. With `scrub_pg` it keeps those
that a child on its own machine would keep, and refuses where that child would be refused. -/
theorem login_run (hcmd : cmd ≠ []) (hpassword : '\n' ∉ runner.sudoPassword)
    (hadmits : host.Admits runner) (hnames : ∀ a ∈ env, isName a.1 = true)
    (hvalues : ∀ a ∈ env, '\x00' ∉ a.2) (hcwd : cwd.head? ≠ some '-') :
    ∃ sent, runner.run cmd cwd env scrubPg = .ok sent ∧ host.login sent = some
      (if scrubPg = true ∧ (transportRefusal host.environ env).isSome = true then .refused
      else .executed (ofLibpq (if scrubPg then scrubbed host.environ else host.environ))
        (environment env) cwd cmd) := by
  obtain ⟨payload, hpayload, hrun⟩ := exists_payload hcmd hnames hvalues hcwd
  refine ⟨_, by rw [run_eq, hpayload]; rfl, ?_⟩
  rw [login_line hpassword hadmits not_validated, runScrubbed_scrub, hrun,
    unsetPg_eq_scrubbed host.named]
  split_ifs <;> rfl

/-- A password, a host that asks for TLS, and a value with a quote, a newline and the sentinel. -/
theorem login_run_sudo :
    ∃ sent, SSHRunner.run ⟨true, "pw".toList⟩ ["psql".toList, "a b".toList] "/srv".toList
        [("PGHOST".toList, "db".toList), ("PGPASSWORD".toList, "it's\n__FRAISIER_ENV__\n".toList),
          ("PGSSLMODE".toList, "prefer".toList)] true = .ok sent ∧
      Host.login ⟨[("PGSSLMODE".toList, "require".toList)], by decide, false, (· == "pw".toList)⟩
          sent =
        some (.executed [] (environment [("PGHOST".toList, "db".toList),
          ("PGPASSWORD".toList, "it's\n__FRAISIER_ENV__\n".toList),
          ("PGSSLMODE".toList, "prefer".toList)]) "/srv".toList
          ["psql".toList, "a b".toList]) := by
  obtain ⟨sent, hrun, hlogin⟩ := @login_run ⟨true, "pw".toList⟩
    ⟨[("PGSSLMODE".toList, "require".toList)], by decide, false, (· == "pw".toList)⟩
    ["psql".toList, "a b".toList] "/srv".toList
    [("PGHOST".toList, "db".toList), ("PGPASSWORD".toList, "it's\n__FRAISIER_ENV__\n".toList),
      ("PGSSLMODE".toList, "prefer".toList)] true (List.cons_ne_nil _ _) (by decide)
    (fun _ => by decide) (by decide) (by decide) (by decide)
  exact ⟨sent, hrun, hlogin⟩

/-- The line is the same for all environments with the same keys, of which both or neither name a
socket: no value is in it. -/
theorem line_run_eq {env' : Env} {sent' : Sent} (hrun : runner.run cmd cwd env scrubPg = .ok sent)
    (hrun' : runner.run cmd cwd env' scrubPg = .ok sent') (hsocket : isSocket env = isSocket env')
    (hkeys : ∀ key, key ∈ env.map Prod.fst ↔ key ∈ env'.map Prod.fst) : sent.line = sent'.line := by
  have hhas : ∀ var, Settings.has env var = Settings.has env' var := fun var => by
    rw [Bool.eq_iff_iff, Settings.has, Settings.has, List.lookup_isSome_iff, List.lookup_isSome_iff]
    simpa using hkeys var
  have hscrub : scrub scrubPg env = scrub scrubPg env' := by
    simp only [scrub, transportCheck, hsocket, hhas]
  rw [run_eq] at hrun hrun'
  obtain ⟨payload, -, rfl⟩ := map_ok_iff.mp hrun
  obtain ⟨payload', -, rfl⟩ := map_ok_iff.mp hrun'
  rw [hscrub]

/-- Two passwords of one database. -/
theorem line_run_eq_passwords : ∃ sent sent',
    SSHRunner.run ⟨false, []⟩ ["psql".toList] [] [("PGPASSWORD".toList, "a".toList)] true =
        .ok sent ∧
      SSHRunner.run ⟨false, []⟩ ["psql".toList] [] [("PGPASSWORD".toList, "b".toList)] true =
        .ok sent' ∧ sent.line = sent'.line := by
  obtain ⟨sent, hrun⟩ : ∃ sent, SSHRunner.run ⟨false, []⟩ ["psql".toList] []
      [("PGPASSWORD".toList, "a".toList)] true = .ok sent := ⟨_, rfl⟩
  obtain ⟨sent', hrun'⟩ : ∃ sent, SSHRunner.run ⟨false, []⟩ ["psql".toList] []
      [("PGPASSWORD".toList, "b".toList)] true = .ok sent := ⟨_, rfl⟩
  exact ⟨sent, sent', hrun, hrun', line_run_eq hrun hrun' (by decide) fun key => Iff.rfl⟩

end Login

end Fraisier.Runners
