import Fraisier.Lib.Interaction
import Fraisier.Lib.Text
import Fraisier.Unit.Validator

/-!
# The pgBackRest helper

`pgbackrest_helper.py`: the root side of a physical restore, one helper for one stanza and one
cluster. A request names an operation. The cluster's row is read from `pg_lsclusters` each time, and
a cluster that archives into the stanza is neither stopped nor restored. Commands and files answer its
calls; the summary and the tail of a restore, which are read off its output, are left out.
-/

namespace Fraisier.PgBackRest

open Fraisier.Lib Interaction Str
open Fraisier.Unit (Message)

/-! ## What is baked in, and what is asked -/

/-- `HelperConfig`. -/
structure HelperConfig where
  stanza : Str
  repo : ℕ
  version : Str
  name : Str
  target : Str := "latest".toList
  timeoutSeconds : ℕ := 21600
  etcRoot : PurePath := .of "/etc/postgresql".toList

/-- `HelperConfig.cluster`. -/
def HelperConfig.cluster (config : HelperConfig) : Str := config.version ++ '/' :: config.name

/-- `Request`. -/
inductive Request
  | info | status | stop
  /-- The backup set is the label that the client validated. -/
  | restore (set : Str)
  | start
  deriving DecidableEq, Repr

/-! ## Calls -/

/-- What the helper calls. -/
inductive HelperCall
  /-- `pwd.getpwnam`. -/
  | getpwnam (user : Str)
  /-- `subprocess.run`. -/
  | exec (argv : List Str) (user : Option Str) (timeout : ℕ)
  /-- `os.path.isdir`. -/
  | isDir (path : Str)
  /-- The names that `dir.glob("*.conf")` finds. -/
  | glob (dir : PurePath)
  /-- `path.read_text()`. -/
  | readText (path : PurePath)
  /-- `path.exists()`. -/
  | pathExists (path : PurePath)
  deriving DecidableEq

/-- `CompletedProcess`. -/
structure Completed where
  returncode : ℤ
  stdout : Str
  stderr : Str
  deriving DecidableEq, Repr

/-- An exception that a call raises. -/
inductive Fault
  /-- `subprocess.TimeoutExpired`. -/
  | timeoutExpired (after cmd : Str)
  | osError (text : Str)
  /-- Any other class, with its text. -/
  | other (cls text : Str)
  deriving DecidableEq, Repr

/-- What a call is answered with. -/
@[reducible] def HelperCall.Answer : HelperCall → Type
  | .getpwnam _ => Bool
  | .exec _ _ _ => Except Fault Completed
  | .isDir _ => Bool
  | .glob _ => List Str
  | .readText _ => Except Fault Str
  | .pathExists _ => Bool

/-- An exception. -/
inductive Raised
  /-- `HelperError`. -/
  | helperError (message : Message)
  | fault (f : Fault)
  deriving DecidableEq, Repr

/-- A program over these calls. -/
abbrev Helper := Interaction HelperCall.Answer Raised

/-- What a call answers, or raises. -/
def orRaise {α : Type} : Except Fault α → Helper α
  | .ok a => pure a
  | .error f => raise (.fault f)

/-- `_run_command`. -/
def runCommand (argv : List Str) (user : Option Str) (timeout : ℕ) : Helper Completed := do
  let known ← match user with
    | none => pure true
    | some user => ask (HelperCall.getpwnam user)
  if known then do
    let result ← ask (HelperCall.exec argv user timeout)
    orRaise result
  else raise (.helperError [.lit "cluster owner ", .repr (user.getD []), .lit " is not a known user"])

/-! ## The cluster -/

/-- `ClusterRow`. -/
structure ClusterRow where
  version : Str
  name : Str
  port : ℕ
  status : Str
  owner : Str
  datadir : Str
  deriving DecidableEq, Repr

/-- `ClusterRow.is_online`. -/
def ClusterRow.isOnline (row : ClusterRow) : Bool := (row.status.partition ',').1 = "online".toList

/-- One line of `pg_lsclusters`, skipped if it is no row; `none` when the port raises `ValueError`. -/
def parseRow (line : Str) : Option (Option ClusterRow) :=
  match line.fields with
  | version :: name :: port :: status :: owner :: datadir :: _ =>
    if port.allDigits && datadir.startsWith ['/'] then
      port.toInt.map fun port => some { version, name, port, status, owner, datadir }
    else some none
  | _ => some none

/-- `parse_lsclusters`. -/
def parseLsclusters (text : Str) : Option (List ClusterRow) :=
  (text.splitlines.mapM parseRow).map List.reduceOption

/-- The `argv` of the listing. -/
def lsclusters : List Str := ["/usr/bin/pg_lsclusters".toList, "--no-header".toList]

/-- `(row.version, row.name) == (config.version, config.name)`. -/
def HelperConfig.isCluster (config : HelperConfig) (row : ClusterRow) : Bool :=
  row.version = config.version && row.name = config.name

/-- What `_cluster` does with the row of the configured cluster. -/
def checkRow (config : HelperConfig) (row : ClusterRow) : Helper ClusterRow := do
  if row.owner = "root".toList then
    raise (.helperError [.lit "cluster ", .val config.cluster, .lit
      " is owned by root: pgBackRest would run as root inside its data directory"])
  else do
    let isDir ← ask (HelperCall.isDir row.datadir)
    if isDir then pure row
    else raise (.helperError [.lit "data directory ", .repr row.datadir, .lit " of cluster ",
      .val config.cluster, .lit " is not a directory"])

/-- What it does with the listing. -/
def readListing (config : HelperConfig) (listed : Completed) : Helper ClusterRow :=
  if listed.returncode ≠ 0 then
    raise (.helperError [.lit "pg_lsclusters failed: ", .val listed.stderr.strip])
  else match parseLsclusters listed.stdout with
    | none => raise (.fault (.other "ValueError".toList "invalid literal for int() with base 10".toList))
    | some rows => match rows.find? config.isCluster with
      | none => raise (.helperError
          [.lit "cluster ", .val config.cluster, .lit " not found by pg_lsclusters"])
      | some row => checkRow config row

/-- `_cluster`. -/
def cluster (config : HelperConfig) : Helper ClusterRow := do
  let listed ← runCommand lsclusters none 60
  readListing config listed

/-! ## The stanza's source -/

/-- The characters of a stanza's name. -/
def isNameChar (c : Char) : Bool := c.isAlphanum || ['_', '.', '-'].contains c

/-- The stanza, and no other whose name begins with it: `X(?![A-Za-z0-9_.-])`. -/
def nameAt (stanza s : Str) : Bool :=
  s.startsWith stanza && !(s.drop stanza.length).head?.any isNameChar

/-- The stanza, maybe after a quote. -/
def valueAt (stanza : Str) : Str → Bool
  | [] => nameAt stanza []
  | c :: s => nameAt stanza (c :: s) || (c = '\'' || c = '"') && nameAt stanza s

/-- One or more equal signs and spaces, and then the stanza. -/
def optionAt (stanza : Str) : Str → Bool
  | [] => false
  | c :: s => (c = '=' || isSpace c) && (valueAt stanza s || optionAt stanza s)

/-- `stanza.search(s)` for the pattern of `_refuse_the_stanzas_source`. -/
def namesStanza (stanza s : Str) : Bool :=
  s.tails.any fun t : Str => t.startsWith "--stanza".toList && optionAt stanza (t.drop "--stanza".length)

/-- A line that makes the cluster the stanza's source. -/
def isSourceLine (stanza line : Str) : Bool :=
  line.strip.startsWith "archive_command".toList && namesStanza stanza line.strip

/-- The directory of the cluster's configuration. -/
def confDir (config : HelperConfig) (row : ClusterRow) : PurePath :=
  (config.etcRoot.join row.version).join row.name

/-- The files that are looked through, for the names in `conf.d`. -/
def sourceFiles (config : HelperConfig) (row : ClusterRow) (names : List Str) : List PurePath :=
  (confDir config row).join "postgresql.conf".toList ::
    (names.insertionSort (· ≤ ·)).map ((confDir config row).join "conf.d".toList).join ++
    [(PurePath.of row.datadir).join "postgresql.conf".toList,
      (PurePath.of row.datadir).join "postgresql.auto.conf".toList]

/-- One of them. The newlines that `read_text` translates end a line either way. -/
def refuseSourceFile (config : HelperConfig) (path : PurePath) : Helper Unit := do
  match ← ask (HelperCall.readText path) with
  | .error (.osError _) => pure ()
  | .error f => raise (.fault f)
  | .ok text =>
    if text.splitlines.any (isSourceLine config.stanza) then
      raise (.helperError [.lit "cluster ", .val config.cluster, .lit " archives into stanza ",
        .repr config.stanza, .lit " (", .val path.text, .lit ("): it is that stanza's source, not a " ++
          "cluster to stop or refresh")])
    else pure ()

/-- `_refuse_the_stanzas_source`. -/
def refuseTheStanzasSource (config : HelperConfig) (row : ClusterRow) : Helper Unit := do
  let names ← ask (HelperCall.glob ((confDir config row).join "conf.d".toList))
  (sourceFiles config row names).foldlM (fun _ path => refuseSourceFile config path) ()

/-! ## The operations -/

/-- A reply. -/
inductive Reply
  /-- `ok` is false, and there is an `error`. -/
  | failed (error : Message)
  | info (ok : Bool) (result : Completed)
  | status (row : ClusterRow) (online : Bool) (signals : List Str)
  /-- `ok` is true, and so is what the cluster's status is. -/
  | done (status : Str)
  /-- A restore was run, with this output. -/
  | restored (ok : Bool) (returncode : ℤ) (output : Str)
  deriving DecidableEq, Repr

/-- `pgbackrest` itself. -/
def pgbackrestPath : Str := "/usr/bin/pgbackrest".toList

/-- `pg_ctlcluster` itself. -/
def pgCtlcluster : Str := "/usr/bin/pg_ctlcluster".toList

/-- `_pgbackrest`. -/
def pgbackrest (config : HelperConfig) (args : List Str) : List Str :=
  pgbackrestPath :: ("--stanza=".toList ++ config.stanza) ::
    ("--repo=".toList ++ Nat.toDigits 10 config.repo) :: args

/-- `_do_info`. -/
def doInfo (config : HelperConfig) : Helper Reply := do
  let row ← cluster config
  let result ← runCommand (pgbackrest config ["info".toList, "--output=json".toList]) (some row.owner) 60
  pure (.info (result.returncode = 0) result)

/-- The signal files that are there, onto those found before. -/
def findSignal (data : PurePath) (found : List Str) (name : Str) : Helper (List Str) := do
  let there ← ask (HelperCall.pathExists (data.join name))
  pure (if there then found ++ [name] else found)

/-- `_do_status`. -/
def doStatus (config : HelperConfig) : Helper Reply := do
  let row ← cluster config
  let signals ← ["recovery.signal".toList, "standby.signal".toList].foldlM
    (findSignal (.of row.datadir)) []
  pure (.status row row.isOnline signals)

/-- `_do_stop`. -/
def doStop (config : HelperConfig) : Helper Reply := do
  let row ← cluster config
  refuseTheStanzasSource config row
  if row.isOnline then do
    let stopped ← runCommand
      [pgCtlcluster, row.version, row.name, "stop".toList, "-m".toList, "fast".toList] none 900
    let after ← cluster config
    if after.isOnline then
      pure (.failed [.lit "cluster ", .val config.cluster, .lit " is still running after stop: ",
        .val stopped.stderr.strip])
    else pure (.done "down".toList)
  else pure (.done "down".toList)

/-- The `argv` of a restore. -/
def restoreArgv (config : HelperConfig) (row : ClusterRow) (set : Str) : List Str :=
  pgbackrest config
    (["--pg1-path=".toList ++ row.datadir, "--log-level-console=detail".toList, "restore".toList,
        "--delta".toList, "--archive-mode=off".toList, "--set=".toList ++ set] ++
      if config.target = "latest".toList then []
      else ["--type=time".toList, "--target=".toList ++ config.target,
        "--target-action=promote".toList])

/-- `_do_restore`. -/
def doRestore (config : HelperConfig) (set : Str) : Helper Reply := do
  let row ← cluster config
  refuseTheStanzasSource config row
  if row.isOnline then
    pure (.failed [.lit "cluster ", .val config.cluster, .lit (" is running; a restore only ever " ++
      "replaces a stopped cluster's data directory")])
  else do
    let result ← runCommand (restoreArgv config row set) (some row.owner) config.timeoutSeconds
    pure (.restored (result.returncode = 0) result.returncode
      (result.stdout ++ '\n' :: result.stderr))

/-- `_do_start`. -/
def doStart (config : HelperConfig) : Helper Reply := do
  let row ← cluster config
  let started ← runCommand [pgCtlcluster, row.version, row.name, "start".toList] none
    config.timeoutSeconds
  let after ← cluster config
  if after.isOnline then pure (.done "online".toList)
  else pure (.failed [.lit "cluster ", .val config.cluster, .lit " did not start: ",
    .val started.stderr.strip])

/-- The operation of a request. -/
def operation (config : HelperConfig) : Request → Helper Reply
  | .info => doInfo config
  | .status => doStatus config
  | .stop => doStop config
  | .restore set => doRestore config set
  | .start => doStart config

/-- What a request is answered with when an exception ends it. -/
def Raised.error : Raised → Message
  | .helperError message => message
  | .fault (.timeoutExpired after cmd) => [.lit "timed out after ", .val after, .lit "s: ", .val cmd]
  | .fault (.osError text) => [.lit "could not run a command: ", .val text]
  | .fault (.other cls text) => [.lit "internal error: ", .val cls, .lit ": ", .val text]

/-- `Operations.handle`: every outcome is a reply. -/
def handle (config : HelperConfig) (request : Request) : Helper Reply := do
  match ← (operation config request).attempt with
  | .ok reply => pure reply
  | .error (e : Raised) => pure (.failed e.error)

end Fraisier.PgBackRest
