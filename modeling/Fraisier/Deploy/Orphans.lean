import Fraisier.Lib.JsonIndent
import Fraisier.Lib.Lookup
import Fraisier.Lib.Text

/-!
# Records whose deploy is gone

`write_status` and `reconcile_orphaned_deploys` of `status.py`. A record is a JSON file that any
version may have written, so that its fields are JSON values when it is read; what a deploy writes is
`Proper`. `settles` says what a pass over the records does to a directory that `write_status` filled,
and that the next pass finds nothing to do.

The proof follows one file first (`reconcileOne_marks`, `reconcileOne_skips`) and then the files in
their order, with what was done to a directory by some of its files as the invariant.
-/

namespace Fraisier.Deploy.Orphans

open Fraisier.Lib Unicode Json

/-! ## The records -/

/-- `DeploymentStatusFile`. -/
structure DeploymentStatusFile where
  fraiseName : Json
  environment : Json
  state : Json := .str (text "idle")
  version : Json := .null
  commitSha : Json := .null
  startedAt : Json := .null
  finishedAt : Json := .null
  errorMessage : Json := .null
  migrationReport : Json := .null
  lastError : Json := .null
  ownerPid : Json := .null
  ownerBootId : Json := .null
  ownerInvocationId : Json := .null
  connectedAs : Json := .null

variable (status : DeploymentStatusFile)

/-- `asdict`. -/
def asdict : List (Text × Json) :=
  [(text "fraise_name", status.fraiseName), (text "environment", status.environment),
    (text "state", status.state), (text "version", status.version),
    (text "commit_sha", status.commitSha), (text "started_at", status.startedAt),
    (text "finished_at", status.finishedAt), (text "error_message", status.errorMessage),
    (text "migration_report", status.migrationReport), (text "last_error", status.lastError),
    (text "owner_pid", status.ownerPid), (text "owner_boot_id", status.ownerBootId),
    (text "owner_invocation_id", status.ownerInvocationId),
    (text "connected_as", status.connectedAs)]

/-- What is raised. `JSONDecodeError` is a `ValueError`. -/
inductive Exn
  | osError | valueError | typeError | attributeError | recursionError | overflowError
  | validationError
  deriving DecidableEq, Repr

/-- `_from_dict`: other members are ignored. -/
def fromDict : Json → Except Exn DeploymentStatusFile
  | .obj members =>
    match members.lookup (text "fraise_name"), members.lookup (text "environment") with
    | some fraiseName, some environment =>
      .ok { fraiseName, environment
            state := getD members "state" (.str (text "idle"))
            version := getD members "version" .null
            commitSha := getD members "commit_sha" .null
            startedAt := getD members "started_at" .null
            finishedAt := getD members "finished_at" .null
            errorMessage := getD members "error_message" .null
            migrationReport := getD members "migration_report" .null
            lastError := getD members "last_error" .null
            ownerPid := getD members "owner_pid" .null
            ownerBootId := getD members "owner_boot_id" .null
            ownerInvocationId := getD members "owner_invocation_id" .null
            connectedAs := getD members "connected_as" .null }
    | _, _ => .error .typeError
  | _ => .error .attributeError

/-- How deep containers may be nested: what can be written can be read. -/
structure Depths extends Limits where
  /-- In `json.dumps`. -/
  dumps : ℕ
  dumps_le : dumps ≤ loads

/-- The files of a directory by their names, with their contents as far as they can be read. -/
abbrev Directory := List (Text × Option Text)

/-- What a pass meets. -/
structure World where
  /-- What is read of `/proc/sys/kernel/random/boot_id`. -/
  bootIdFile : Option Str
  /-- The pids of the processes that exist. -/
  live : ℤ → Bool
  /-- The pid of the process that makes the pass. -/
  pid : ℤ
  pid_live : live pid = true
  /-- The processes that may not be sent a signal. -/
  foreign : ℤ → Bool
  /-- What signal 0 to a process group says, whose number is not positive. -/
  group : ℤ → Bool
  /-- The files that cannot be written. -/
  refuses : Text → Bool

variable (depths : Depths) (w : World)

/-! ## Writing -/

/-- A character of `_SAFE_NAME_RE`. -/
def isSafeChar (c : CodePoint) : Bool :=
  'a'.toNat ≤ c.val && c.val ≤ 'z'.toNat || 'A'.toNat ≤ c.val && c.val ≤ 'Z'.toNat ||
    '0'.toNat ≤ c.val && c.val ≤ '9'.toNat || is '_' c || is '-' c

/-- The name matches `_SAFE_NAME_RE`, whose `$` also stands before a newline at the end. -/
def isSafeName (name : Text) : Bool :=
  let name := if name.getLast? = some (chr '\n') then name.dropLast else name
  !name.isEmpty && name.all isSafeChar

/-- `_validate_fraise_name`. -/
def validateFraiseName : Json → Except Exn Text
  | .str name => if isSafeName name then .ok name else .error .validationError
  | _ => .error .typeError

/-- The name of the file of a fraise. -/
def fileName (name : Text) : Text := name ++ text ".status.json"

/-- The file with a record. -/
def contents : Text := dumpsIndent 0 (.obj (asdict status))

/-- `write_status`: the file is put in its place whole, or not at all. -/
def writeStatus (dir : Directory) : Except Exn Directory := do
  let name ← validateFraiseName status.fraiseName
  if w.refuses (fileName name) then throw .osError
  if depths.dumps < (Json.obj (asdict status)).depth then throw .recursionError
  return put (fileName name) (some (contents status)) dir

/-! ## Whether the owner is gone -/

/-- `_read_boot_id`. -/
def readBootId : Option Text :=
  (w.bootIdFile.map fun s => s.strip.map chr).filter (· ≠ [])

/-- What `os.kill` raises. -/
inductive KillError
  | processLookupError | permissionError | overflowError
  deriving DecidableEq, Repr

/-- `os.kill(pid, 0)`. -/
def kill (pid : ℤ) : Except KillError Unit :=
  if pid < -2 ^ 31 ∨ 2 ^ 31 ≤ pid then .error .overflowError
  else if pid ≤ 0 then if w.group pid then .ok () else .error .processLookupError
  else if w.live pid then if w.foreign pid then .error .permissionError else .ok ()
  else .error .processLookupError

/-- `_pid_alive` of an integer. -/
def intAlive (pid : ℤ) : Except Exn Bool :=
  match kill w pid with
  | .error .processLookupError => .ok false
  | .error .permissionError => .ok true
  | .error .overflowError => .error .overflowError
  | .ok () => .ok true

/-- `_pid_alive`. `True` is the integer 1. -/
def pidAlive : Json → Except Exn Bool
  | .int pid => intAlive w pid
  | .bool b => intAlive w (if b then 1 else 0)
  | _ => .error .typeError

/-- The record is of another boot than this one. -/
def otherBoot : Bool :=
  match readBootId w, status.ownerBootId with
  | none, _ => false
  | some here, .str boot => boot ≠ [] && boot ≠ here
  | some _, v => v.truthy

/-- `owner_is_gone`. -/
def ownerIsGone : Except Exn Bool :=
  if otherBoot status w then .ok true
  else match status.ownerPid with
    | .null => .ok false
    | pid => (pidAlive w pid).map (!·)

/-! ## The pass -/

/-- `status.state in NON_TERMINAL_STATES`. -/
def isNonTerminal : Json → Except Exn Bool
  | .str state => .ok (state = text "pending" || state = text "deploying")
  | .arr _ | .obj _ => .error .typeError
  | _ => .ok false

-- What `str` makes of a float or of a container.
variable (shows : Json → Text)

/-- `f"{v}"`. -/
def formatted : Json → Except Exn Text
  | .str s => .ok s
  | .int n => .ok (writeInt n)
  | .null => .ok (text "None")
  | .bool b => .ok (text (if b then "True" else "False"))
  | v => if v.depth ≤ depths.repr then .ok (shows v) else .error .recursionError

/-- The hint where the journal of the deploy is. -/
def journalHint : Except Exn Text :=
  if status.ownerInvocationId.truthy then
    (formatted depths shows status.ownerInvocationId).map
      (text " Its journal: journalctl _SYSTEMD_INVOCATION_ID=" ++ ·)
  else .ok []

/-- The record of a deploy that did not report, at a time. -/
def interrupted (now : String) : Except Exn DeploymentStatusFile := do
  let pid ← formatted depths shows status.ownerPid
  let hint ← journalHint status depths shows
  return { status with
    state := .str (text "interrupted")
    finishedAt := .str (text now)
    errorMessage := .str (text "The deploy did not report: the process that started it (pid " ++ pid ++
      text (") no longer exists. It was terminated rather than failing, so nothing rolled back and " ++
        "the tree may be half-deployed — check before redeploying.") ++ hint) }

/-- What is read of a file. -/
def readRecord : Option Text → Except Exn DeploymentStatusFile
  | none => .error .osError
  | some s => match loadsStr depths.loads s with
    | .error .recursionError => .error .recursionError
    | .error _ => .error .valueError
    | .ok v => fromDict v

/-- What is caught where a record is read. -/
def Exn.unreadable : Exn → Bool
  | .osError | .valueError | .typeError => true
  | _ => false

/-- What is caught where a record is written. -/
def Exn.unwritable : Exn → Bool
  | .osError | .validationError => true
  | _ => false

/-- One turn of the loop of `reconcile_orphaned_deploys`, at a time: the fraise that was reconciled,
and the directory after it. -/
def reconcileOne (now : String) (dir : Directory) (file : Text) :
    Except Exn (Option (Json × Directory)) :=
  match readRecord depths (dir.lookup file).join with
  | .error e => if e.unreadable then pure none else throw e
  | .ok status => do
    if !(← isNonTerminal status.state) then return none
    if !(← ownerIsGone status w) then return none
    let status ← interrupted status depths shows now
    match writeStatus status depths w dir with
    | .error e => if e.unwritable then return none else throw e
    | .ok dir => return some (status.fraiseName, dir)

variable (clock : Text → String)

/-- The loop over some files, at the times when it comes to them: the directory after it, and what
was reconciled or what was raised. -/
def reconcileFiles : List Text → Directory → Directory × Except Exn (List Json)
  | [], dir => (dir, .ok [])
  | file :: files, dir =>
    match reconcileOne depths w shows (clock file) dir file with
    | .error e => (dir, .error e)
    | .ok none => reconcileFiles files dir
    | .ok (some (name, dir)) =>
      let (dir, names) := reconcileFiles files dir
      (dir, names.map (name :: ·))

/-- The file is one that `*.status.json` matches. -/
def isStatusFile (file : Text) : Bool := (text ".status.json").isSuffixOf file

/-- The files of the records in the order of their names. -/
def statusFiles (dir : Directory) : List Text :=
  ((dir.map Prod.fst).filter isStatusFile).insertionSort (· ≤ ·)

/-- `reconcile_orphaned_deploys`. A directory that is not there has no files. -/
def reconcileOrphanedDeploys (dir : Directory) : Directory × Except Exn (List Json) :=
  reconcileFiles depths w shows clock (statusFiles dir) dir

/-! ## Records as deploys write them -/

/-- `None` or a string. -/
def IsOptionalText (v : Json) : Prop := v = .null ∨ ∃ s, v = .str s

/-- A record as a deploy writes it: its fields have their types, the name is accepted, and the pid is
one that `os.getpid` returns. -/
structure Proper (status : DeploymentStatusFile) : Prop where
  name : ∃ name, status.fraiseName = .str name ∧ isSafeName name = true
  state : ∃ state, status.state = .str state
  pid : status.ownerPid = .null ∨ ∃ pid, status.ownerPid = .int pid ∧ 0 < pid ∧ pid < 2 ^ 31
  bootId : IsOptionalText status.ownerBootId
  invocationId : IsOptionalText status.ownerInvocationId
  plain : Plain (.obj (asdict status))

/-- A directory that was filled by `write_status`, at any time and in any order. -/
inductive Reached : Directory → Prop
  | start {dir : Directory} (hkeys : (dir.map Prod.fst).Nodup)
      (hnone : ∀ file ∈ dir.map Prod.fst, isStatusFile file = false) : Reached dir
  | write {dir dir' : Directory} (h : Reached dir) {status : DeploymentStatusFile} {w : World}
      (hproper : Proper status) (hwrite : writeStatus status depths w dir = .ok dir') : Reached dir'

/-- The file has the record. -/
structure Record (dir : Directory) (file : Text) (status : DeploymentStatusFile) : Prop where
  proper : Proper status
  depth : (Json.obj (asdict status)).depth ≤ depths.dumps
  place : ∃ name, status.fraiseName = .str name ∧ file = fileName name
  mem : (file, some (contents status)) ∈ dir

/-- A process can be the one that the record names, by the boot and by the pid. -/
structure MayOwn (boot : Text) (pid : ℤ) : Prop where
  boot : ∀ b, status.ownerBootId = .str b → b ≠ [] → boot = b
  pid : ∀ p, status.ownerPid = .int p → pid = p

/-- A process of a boot can be running. -/
structure World.MayRun (boot : Text) (pid : ℤ) : Prop where
  boot : ∀ here, readBootId w = some here → boot = here
  live : w.live pid = true

/-- The owner is provably gone: no process that can be running can be it. -/
def Gone : Prop := ∀ boot pid, MayOwn status boot pid → ¬w.MayRun boot pid

/-- The deploy did not come to its end, and its process is gone. -/
structure Orphan : Prop where
  state : status.state = .str (text "pending") ∨ status.state = .str (text "deploying")
  gone : Gone status w

/-- The record is the other one, marked. -/
structure Marks (status status' : DeploymentStatusFile) : Prop where
  state : status'.state = .str (text "interrupted")
  rest : { status' with
    state := status.state
    finishedAt := status.finishedAt
    errorMessage := status.errorMessage } = status

/-- An orphan in a file that can be written. -/
structure Orphaned (dir : Directory) (file : Text) (status : DeploymentStatusFile) : Prop where
  record : Record depths dir file status
  orphan : Orphan status w
  writable : w.refuses file = false

/-- In the second directory the orphans of the first are marked, and all other files are as they
were. -/
structure Settled (dir dir' : Directory) : Prop where
  names : dir'.map Prod.fst = dir.map Prod.fst
  marked : ∀ file status, Orphaned depths w dir file status →
    ∃ status', Marks status status' ∧ Record depths dir' file status'
  kept : ∀ file content, (file, content) ∈ dir → (∀ status, ¬Orphaned depths w dir file status) →
    (file, content) ∈ dir'

/-! ## Reading a record -/

section Reading

variable {depths : Depths} {status status' : DeploymentStatusFile} {dir dir' : Directory}
  {file : Text}

/-- A record is read from its own members. -/
theorem fromDict_asdict (status : DeploymentStatusFile) :
    fromDict (.obj (asdict status)) = .ok status := rfl

/-- A proper record is read back from what was written of it. -/
theorem readRecord_contents (hproper : Proper status)
    (hdepth : (Json.obj (asdict status)).depth ≤ depths.dumps) :
    readRecord depths (some (contents status)) = .ok status := by
  have hstops : Stops [] := nofun
  have hloads := loadsStr_dumpsIndent hproper.plain (hdepth.trans depths.dumps_le) hstops rfl
  rw [List.append_nil] at hloads
  rw [readRecord, contents, hloads]
  exact fromDict_asdict status

/-- The record of a file is read from it. -/
theorem Record.read (h : Record depths dir file status) (hkeys : (dir.map Prod.fst).Nodup) :
    readRecord depths (dir.lookup file).join = .ok status := by
  rw [(lookup_eq_some_iff_mem hkeys).mpr h.mem]
  exact readRecord_contents h.proper h.depth

/-- A file has one record. -/
theorem Record.unique (h : Record depths dir file status) (h' : Record depths dir file status')
    (hkeys : (dir.map Prod.fst).Nodup) : status = status' :=
  Except.ok.inj ((h.read hkeys).symm.trans (h'.read hkeys))

end Reading

/-! ## The owner -/

section Owner

variable {w : World} {status : DeploymentStatusFile}

/-- What signal zero says of a process with a pid of the system. -/
theorem kill_eq {pid : ℤ} (hpos : 0 < pid) (hlt : pid < 2 ^ 31) :
    kill w pid = if w.live pid then if w.foreign pid then .error .permissionError else .ok ()
      else .error .processLookupError := by
  rw [kill, if_neg (by omega), if_neg (by omega)]

/-- A process is alive when it can be signalled or is another user's. -/
theorem pidAlive_eq {pid : ℤ} (hpos : 0 < pid) (hlt : pid < 2 ^ 31) :
    pidAlive w (.int pid) = .ok (w.live pid) := by
  rw [pidAlive, intAlive, kill_eq hpos hlt]
  cases w.live pid with
  | false => rfl
  | true => cases w.foreign pid <;> rfl

/-- A record is of another boot when both boots are known and differ. -/
theorem otherBoot_iff (h : IsOptionalText status.ownerBootId) : otherBoot status w = true ↔
    ∃ here boot, readBootId w = some here ∧ status.ownerBootId = .str boot ∧ boot ≠ [] ∧
      boot ≠ here := by
  obtain hnull | ⟨boot, hboot⟩ := h
  · cases hhere : readBootId w <;> simp [otherBoot, hhere, hnull, truthy]
  · cases hhere : readBootId w <;> simp [otherBoot, hhere, hboot]

/-- A boot that the record and the machine both allow. -/
theorem exists_boot (h : IsOptionalText status.ownerBootId) (hsame : otherBoot status w = false) :
    ∃ boot, (∀ b, status.ownerBootId = .str b → b ≠ [] → boot = b) ∧
      ∀ here, readBootId w = some here → boot = here := by
  by_cases hknown : ∃ b, status.ownerBootId = .str b ∧ b ≠ []
  · obtain ⟨b, hb, hne⟩ := hknown
    refine ⟨b, fun b' hb' _ => Json.str.inj (hb.symm.trans hb'), fun here hhere => ?_⟩
    by_contra hother
    have htrue := (otherBoot_iff h).mpr ⟨here, b, hhere, hb, hne, hother⟩
    exact Bool.false_ne_true (hsame.symm.trans htrue)
  · refine ⟨(readBootId w).getD [], fun b hb hne => absurd ⟨b, hb, hne⟩ hknown, ?_⟩
    intro here hhere
    rw [hhere, Option.getD_some]

/-- Whether the owner is gone is told by the boot, and else by the pid. -/
theorem ownerIsGone_spec (hproper : Proper status) :
    ∃ gone, ownerIsGone status w = .ok gone ∧ (gone = true ↔ Gone status w) := by
  -- Another boot tells that the owner is gone, else its pid does.
  cases hother : otherBoot status w with
  | true =>
    obtain ⟨here, boot, hhere, hboot, hne, hdiff⟩ := (otherBoot_iff hproper.bootId).mp hother
    refine ⟨true, if_pos hother, iff_of_true rfl fun b pid hown hrun => hdiff ?_⟩
    exact (hown.boot boot hboot hne).symm.trans (hrun.boot here hhere)
  | false =>
    obtain ⟨boot, hown, hrun⟩ := exists_boot hproper.bootId hother
    have hnot : ¬otherBoot status w = true := by rw [hother]; exact Bool.false_ne_true
    obtain hnull | ⟨pid, hpid, hpos, hlt⟩ := hproper.pid
    · -- Nothing tells against the process that makes the pass.
      refine ⟨false, ?_, iff_of_false Bool.false_ne_true fun hgone => ?_⟩
      · rw [ownerIsGone, if_neg hnot, hnull]
      · exact hgone boot w.pid ⟨hown, fun p hp => nomatch hnull.symm.trans hp⟩ ⟨hrun, w.pid_live⟩
    · refine ⟨!w.live pid, ?_, ?_⟩
      · rw [ownerIsGone, if_neg hnot, hpid]
        change (pidAlive w (.int pid)).map _ = _
        rw [pidAlive_eq hpos hlt]
        rfl
      · rw [Bool.not_eq_true', ← Bool.not_eq_true]
        constructor
        · intro hdead b p hown' hrun'
          rw [hown'.pid pid hpid] at hrun'
          exact hdead hrun'.live
        · intro hgone hlive
          have heq : ∀ p, status.ownerPid = .int p → pid = p := fun p hp =>
            Json.int.inj (hpid.symm.trans hp)
          exact hgone boot pid ⟨hown, heq⟩ ⟨hrun, hlive⟩

/-- A deploy that is pending or deploying did not come to its end. -/
theorem isNonTerminal_spec (hproper : Proper status) :
    ∃ passing, isNonTerminal status.state = .ok passing ∧ (passing = true ↔
      status.state = .str (text "pending") ∨ status.state = .str (text "deploying")) := by
  obtain ⟨state, hstate⟩ := hproper.state
  rw [hstate]
  exact ⟨_, rfl, by simp⟩

end Owner

/-! ## Marking a record -/

section Marking

variable {depths : Depths} {w : World} {shows : Json → Text} {status status' : DeploymentStatusFile}
  {dir : Directory} {file : Text} {now : String}

/-- A marked record has the same name. -/
theorem Marks.fraiseName (h : Marks status status') : status'.fraiseName = status.fraiseName := by
  have hsame := congrArg DeploymentStatusFile.fraiseName h.rest
  exact hsame

/-- A printable character is no surrogate. -/
theorem isHigh_printable {s : Text} (h : Printable s) {c : CodePoint} (hc : c ∈ s) :
    isHigh c.val = false := by
  have hlt := (h c hc).2
  simp only [isHigh, Bool.and_eq_false_iff, decide_eq_false_iff_not]
  omega

/-- The pid is shown without surrogates. -/
theorem formatted_pid (depths : Depths) (shows : Json → Text) (hproper : Proper status) : ∃ pid,
    formatted depths shows status.ownerPid = .ok pid ∧ ∀ c ∈ pid, isHigh c.val = false := by
  obtain hnull | ⟨pid, hpid, -⟩ := hproper.pid
  · rw [hnull]
    exact ⟨_, rfl, fun _ => isHigh_text⟩
  · rw [hpid]
    exact ⟨_, rfl, fun _ => isHigh_printable (printable_writeInt pid)⟩

/-- The members of a proper record are plain. -/
theorem member_plain (hproper : Proper status) {member : Text × Json} (h : member ∈ asdict status) :
    Plain member.2 := (plainMembers_iff.mp hproper.plain.2 member h).2

/-- The hint is written without surrogates. -/
theorem journalHint_ok (depths : Depths) (shows : Json → Text) (hproper : Proper status) :
    ∃ hint, journalHint status depths shows = .ok hint ∧ Apart hint := by
  unfold journalHint
  obtain hnull | ⟨id, hid⟩ := hproper.invocationId
  · rw [hnull]
    exact ⟨[], rfl, List.isChain_nil⟩
  · have hmem : (text "owner_invocation_id", Json.str id) ∈ asdict status := by
      simp [asdict, hid]
    have hapart : Apart id := member_plain hproper hmem
    rw [hid]
    by_cases hne : (Json.str id).truthy = true
    · rw [if_pos hne]
      exact ⟨_, rfl, .append (fun _ => isHigh_text) hapart⟩
    · rw [if_neg hne]
      exact ⟨[], rfl, List.isChain_nil⟩

/-- What is written over a record is one again. -/
theorem interrupted_ok (depths : Depths) (shows : Json → Text) (hproper : Proper status)
    (now : String) : ∃ status', interrupted status depths shows now = .ok status' ∧
      Marks status status' ∧ Proper status' ∧
      (Json.obj (asdict status')).depth ≤ (Json.obj (asdict status)).depth := by
  obtain ⟨pid, hpid, hhigh⟩ := formatted_pid depths shows hproper
  obtain ⟨hint, hhint, happart⟩ := journalHint_ok depths shows hproper
  unfold interrupted
  rw [hpid, hhint]
  refine ⟨_, rfl, ⟨rfl, rfl⟩, ⟨hproper.name, ⟨_, rfl⟩, hproper.pid, hproper.bootId,
    hproper.invocationId, hproper.plain.1, ?_⟩, ?_⟩
  -- The fields that are written over are plain, and the others are what they were.
  · have hplain := plainMembers_iff.mp hproper.plain.2
    refine plainMembers_iff.mpr ?_
    simp only [asdict, List.forall_mem_cons] at hplain ⊢
    obtain ⟨hname, henvironment, hstate, hversion, hsha, hstarted, hfinished, herror, hrest⟩ := hplain
    refine ⟨hname, henvironment, ⟨hstate.1, apart_text _⟩, hversion, hsha, hstarted,
      ⟨hfinished.1, apart_text _⟩, ⟨herror.1, ?_⟩, hrest⟩
    refine .append (fun c hc => ?_) happart
    simp only [List.mem_append] at hc
    obtain (hc | hc) | hc := hc
    · exact isHigh_text hc
    · exact hhigh c hc
    · exact isHigh_text hc
  -- No field that is written is nested.
  · refine Nat.succ_le_succ (depthMembers_le_iff.mpr ?_)
    have hdepth := depthMembers_le_iff.mp (Nat.le_refl (depthMembers (asdict status)))
    generalize depthMembers (asdict status) = n at hdepth ⊢
    simp only [asdict, List.forall_mem_cons] at hdepth ⊢
    obtain ⟨hname, henvironment, -, hversion, hsha, hstarted, -, -, hrest⟩ := hdepth
    exact ⟨hname, henvironment, Nat.zero_le n, hversion, hsha, hstarted, Nat.zero_le n,
      Nat.zero_le n, hrest⟩

/-- A record with a safe name is written where the directory allows it. -/
theorem writeStatus_ok {name : Text} (hname : status.fraiseName = .str name)
    (hsafe : isSafeName name = true) (hwritable : w.refuses (fileName name) = false)
    (hdepth : (Json.obj (asdict status)).depth ≤ depths.dumps) (dir : Directory) :
    writeStatus status depths w dir = .ok (put (fileName name) (some (contents status)) dir) := by
  rw [writeStatus, hname, validateFraiseName, if_pos hsafe]
  change (if _ then _ else if _ then _ else _) = _
  rw [hwritable, if_neg Bool.false_ne_true, if_neg (by omega)]
  rfl

/-- A record is not written where the directory refuses its file. -/
theorem writeStatus_refused (depths : Depths) {name : Text} (hname : status.fraiseName = .str name)
    (hsafe : isSafeName name = true) (hrefused : w.refuses (fileName name) = true)
    (dir : Directory) : writeStatus status depths w dir = .error .osError := by
  rw [writeStatus, hname, validateFraiseName, if_pos hsafe]
  exact if_pos hrefused

/-- An orphan is marked. -/
theorem reconcileOne_marks (shows : Json → Text) (now : String)
    (h : Orphaned depths w dir file status) (hkeys : (dir.map Prod.fst).Nodup) :
    ∃ status', Marks status status' ∧ Proper status' ∧
      (Json.obj (asdict status')).depth ≤ depths.dumps ∧
      status'.fraiseName = status.fraiseName ∧
      reconcileOne depths w shows now dir file =
        .ok (some (status.fraiseName, put file (some (contents status')) dir)) := by
  obtain ⟨hrecord, horphan, hwritable⟩ := h
  -- The record has a name that can be written, and its owner is gone.
  obtain ⟨name, hname, rfl⟩ := hrecord.place
  obtain ⟨name', hname', hsafe⟩ := hrecord.proper.name
  obtain rfl : name = name' := Json.str.inj (hname.symm.trans hname')
  obtain ⟨passing, hpassing, hpassing_iff⟩ := isNonTerminal_spec hrecord.proper
  obtain ⟨gone, hgone, hgone_iff⟩ := ownerIsGone_spec (w := w) hrecord.proper
  -- It is marked as interrupted, and written in its place.
  obtain ⟨status', hmarked, hmarks, hproper', hdepth'⟩ :=
    interrupted_ok depths shows hrecord.proper now
  have hsame := hmarks.fraiseName
  have hdepth := hdepth'.trans hrecord.depth
  have hwrite := writeStatus_ok (hsame.trans hname) hsafe hwritable hdepth dir
  refine ⟨status', hmarks, hproper', hdepth, hsame, ?_⟩
  rw [reconcileOne, hrecord.read hkeys]
  simp only [hpassing, hpassing_iff.mpr horphan.state, hgone, hgone_iff.mpr horphan.gone, hmarked,
    hwrite, hsame, bind, Except.bind, pure, Except.pure, Bool.not_true, Bool.false_eq_true, if_false]

/-- What is no orphan, or cannot be written, is passed over. -/
theorem reconcileOne_skips (hrecord : Record depths dir file status)
    (hkeys : (dir.map Prod.fst).Nodup) (h : ¬Orphaned depths w dir file status) :
    reconcileOne depths w shows now dir file = .ok none := by
  obtain ⟨name, hname, rfl⟩ := hrecord.place
  obtain ⟨name', hname', hsafe⟩ := hrecord.proper.name
  obtain rfl : name = name' := Json.str.inj (hname.symm.trans hname')
  obtain ⟨passing, hpassing, hpassing_iff⟩ := isNonTerminal_spec hrecord.proper
  obtain ⟨gone, hgone, hgone_iff⟩ := ownerIsGone_spec (w := w) hrecord.proper
  obtain ⟨status', hmarked, hmarks, hproper', hdepth'⟩ :=
    interrupted_ok depths shows hrecord.proper now
  have hsame := hmarks.fraiseName
  rw [reconcileOne, hrecord.read hkeys]
  -- The state is terminal, the owner is there, or the write fails.
  simp only [hpassing, bind, Except.bind]
  cases passing with
  | false => rfl
  | true =>
    simp only [hgone]
    cases gone with
    | false => rfl
    | true =>
      have hrefused : w.refuses (fileName name) = true := by
        by_contra hnot
        exact h ⟨hrecord, ⟨hpassing_iff.mp rfl, hgone_iff.mp rfl⟩, by simpa using hnot⟩
      have hwrite := writeStatus_refused depths (hsame.trans hname) hsafe hrefused dir
      simp only [hmarked, hwrite]
      rfl

end Marking

/-! ## The run -/

section Run

variable {depths : Depths} {w : World} {shows : Json → Text} {clock : Text → String}
  {status : DeploymentStatusFile} {dir dir' : Directory} {file : Text} {files : List Text}

/-- What some of the files were done to a directory. -/
structure SettledBy (depths : Depths) (w : World) (files : List Text) (dir dir' : Directory) :
    Prop where
  names : dir'.map Prod.fst = dir.map Prod.fst
  marked : ∀ file ∈ files, ∀ status, Orphaned depths w dir file status →
    ∃ status', Marks status status' ∧ Record depths dir' file status'
  kept : ∀ file content, (file, content) ∈ dir →
    (file ∈ files → ∀ status, ¬Orphaned depths w dir file status) → (file, content) ∈ dir'

/-- Nothing is settled without files. -/
theorem settledBy_nil (dir : Directory) : SettledBy depths w [] dir dir :=
  ⟨rfl, nofun, fun _ _ hmem _ => hmem⟩

/-- A file with nothing to do. -/
theorem SettledBy.skip (h : SettledBy depths w files dir dir') (hrecord : Record depths dir file status)
    (hkeys : (dir.map Prod.fst).Nodup) (hnot : ¬Orphaned depths w dir file status) :
    SettledBy depths w (file :: files) dir dir' := by
  have hnone : ∀ status', ¬Orphaned depths w dir file status' := fun status' horphaned =>
    hnot (hrecord.unique horphaned.record hkeys ▸ horphaned)
  refine ⟨h.names, fun other hother status' horphaned => ?_, fun other content hmem hother => ?_⟩
  · rcases List.mem_cons.mp hother with rfl | hother
    · exact absurd horphaned (hnone status')
    · exact h.marked other hother status' horphaned
  · exact h.kept other content hmem fun hin => hother (List.mem_cons_of_mem _ hin)

/-- A file that is written leaves the records of the others. -/
theorem record_put_iff {content : Option Text} {other : Text} (hkeys : (dir.map Prod.fst).Nodup)
    (hne : other ≠ file) :
    Record depths (put file content dir) other status ↔ Record depths dir other status := by
  have hmem : ∀ c, (other, c) ∈ put file content dir ↔ (other, c) ∈ dir := by
    intro c
    rw [mem_put_iff hkeys]
    simp [hne]
  constructor
  · intro h
    exact ⟨h.proper, h.depth, h.place, (hmem _).mp h.mem⟩
  · intro h
    exact ⟨h.proper, h.depth, h.place, (hmem _).mpr h.mem⟩

/-- A file whose orphan is marked before the others. -/
theorem SettledBy.mark {status' : DeploymentStatusFile} (hkeys : (dir.map Prod.fst).Nodup)
    (horphaned : Orphaned depths w dir file status) (hnew : file ∉ files)
    (hmarks : Marks status status') (hproper : Proper status')
    (hdepth : (Json.obj (asdict status')).depth ≤ depths.dumps)
    (h : SettledBy depths w files (put file (some (contents status')) dir) dir') :
    SettledBy depths w (file :: files) dir dir' := by
  have hin : file ∈ dir.map Prod.fst := List.mem_map.mpr ⟨_, horphaned.record.mem, rfl⟩
  -- The file that is marked is not come to again.
  have hself : (file, some (contents status')) ∈ dir' :=
    h.kept _ _ ((mem_put_iff hkeys).mpr (.inl rfl)) fun hmem => absurd hmem hnew
  -- The other files have the records they had.
  have hother : ∀ other ≠ file, ∀ status, Orphaned depths w
      (put file (some (contents status')) dir) other status ↔ Orphaned depths w dir other status := by
    intro other hne status
    constructor
    · exact fun ho => ⟨(record_put_iff hkeys hne).mp ho.record, ho.orphan, ho.writable⟩
    · exact fun ho => ⟨(record_put_iff hkeys hne).mpr ho.record, ho.orphan, ho.writable⟩
  refine ⟨h.names.trans (map_fst_put_of_mem hin), fun other hmem s ho => ?_,
    fun other content hmem hnone => ?_⟩
  · by_cases hne : other = file
    · subst hne
      obtain rfl := horphaned.record.unique ho.record hkeys
      obtain ⟨name, hname, hfile⟩ := horphaned.record.place
      exact ⟨status', hmarks, hproper, hdepth, ⟨name, hmarks.fraiseName.trans hname, hfile⟩, hself⟩
    · have hrest := (List.mem_cons.mp hmem).resolve_left hne
      exact h.marked other hrest s ((hother other hne s).mpr ho)
  · have hne : other ≠ file := by
      rintro rfl
      exact hnone List.mem_cons_self status horphaned
    refine h.kept other content ((mem_put_iff hkeys).mpr (.inr ⟨hne, hmem⟩)) fun hrest s ho => ?_
    exact hnone (List.mem_cons_of_mem _ hrest) s ((hother other hne s).mp ho)

/-- The run over some of the files, each with a record. -/
theorem reconcileFiles_settles (w : World) (shows : Json → Text) (clock : Text → String) :
    ∀ (files : List Text) (dir : Directory), (dir.map Prod.fst).Nodup → files.Nodup →
    (∀ file ∈ files, ∃ status, Record depths dir file status) →
    ∃ names dir', reconcileFiles depths w shows clock files dir = (dir', .ok names) ∧
      SettledBy depths w files dir dir'
  | [], dir, _, _, _ => ⟨[], dir, rfl, settledBy_nil dir⟩
  | file :: files, dir, hkeys, hnodup, hrecords => by
    rw [List.nodup_cons] at hnodup
    rw [List.forall_mem_cons] at hrecords
    obtain ⟨⟨status, hrecord⟩, hrest⟩ := hrecords
    -- The first file is an orphan's and is marked, or is passed over.
    by_cases horphaned : Orphaned depths w dir file status
    · obtain ⟨status', hmarks, hproper, hdepth, hname, hone⟩ :=
        reconcileOne_marks shows (clock file) horphaned hkeys
      have hrest' : ∀ other ∈ files, ∃ s,
          Record depths (put file (some (contents status')) dir) other s := by
        intro other hother
        obtain ⟨s, hs⟩ := hrest other hother
        have hne : other ≠ file := fun heq => hnodup.1 (heq ▸ hother)
        exact ⟨s, (record_put_iff hkeys hne).mpr hs⟩
      obtain ⟨names, dir', hrun, hsettled⟩ := reconcileFiles_settles w shows clock files
        (put file (some (contents status')) dir) (nodup_put hkeys) hnodup.2 hrest'
      refine ⟨status.fraiseName :: names, dir', ?_,
        .mark hkeys horphaned hnodup.1 hmarks hproper hdepth hsettled⟩
      rw [reconcileFiles, hone]
      dsimp only
      rw [hrun]
      rfl
    · obtain ⟨names, dir', hrun, hsettled⟩ :=
        reconcileFiles_settles w shows clock files dir hkeys hnodup.2 hrest
      refine ⟨names, dir', ?_, hsettled.skip hrecord hkeys horphaned⟩
      rw [reconcileFiles, reconcileOne_skips hrecord hkeys horphaned]
      exact hrun

/-- Where no file has an orphan there is nothing to do. -/
theorem reconcileFiles_quiet (hkeys : (dir.map Prod.fst).Nodup)
    (h : ∀ file ∈ files, ∃ status, Record depths dir file status ∧
      ¬Orphaned depths w dir file status) :
    reconcileFiles depths w shows clock files dir = (dir, .ok []) := by
  induction files with
  | nil => rfl
  | cons file files ih =>
    rw [List.forall_mem_cons] at h
    obtain ⟨⟨status, hrecord, hnot⟩, hrest⟩ := h
    rw [reconcileFiles, reconcileOne_skips hrecord hkeys hnot]
    exact ih hrest

end Run

/-! ## The directory -/

section Directory

variable {depths : Depths} {w : World} {dir dir' : Directory} {file : Text}
  {status : DeploymentStatusFile}

/-- Every file that is met has a record. -/
structure Written (depths : Depths) (dir : Directory) : Prop where
  keys : (dir.map Prod.fst).Nodup
  records : ∀ file ∈ dir.map Prod.fst, isStatusFile file = true →
    ∃ status, Record depths dir file status

/-- `write_status` adds a record, or replaces one. -/
theorem Written.write (h : Written depths dir) (hproper : Proper status)
    (hwrite : writeStatus status depths w dir = .ok dir') : Written depths dir' := by
  obtain ⟨name, hname, hsafe⟩ := hproper.name
  cases hrefuses : w.refuses (fileName name) with
  | true => nomatch (writeStatus_refused depths hname hsafe hrefuses dir).symm.trans hwrite
  | false =>
    have hdepth : (Json.obj (asdict status)).depth ≤ depths.dumps := by
      by_contra hdeep
      rw [writeStatus, hname, validateFraiseName, if_pos hsafe] at hwrite
      change (if _ then _ else if _ then _ else _) = _ at hwrite
      rw [hrefuses, if_neg Bool.false_ne_true, if_pos (Nat.lt_of_not_le hdeep)] at hwrite
      nomatch hwrite
    rw [writeStatus_ok hname hsafe hrefuses hdepth dir, Except.ok.injEq] at hwrite
    subst hwrite
    -- Every record but the new one was there before.
    refine ⟨nodup_put h.keys, fun file hfile hstatus => ?_⟩
    by_cases hne : file = fileName name
    · exact ⟨status, hproper, hdepth, ⟨name, hname, hne⟩, (mem_put_iff h.keys).mpr (.inl (by rw [hne]))⟩
    · obtain ⟨s, hs⟩ := h.records file ((mem_map_fst_put.mp hfile).resolve_left hne) hstatus
      exact ⟨s, (record_put_iff h.keys hne).mpr hs⟩

/-- A directory that was filled by writes has written records. -/
theorem Reached.written (h : Reached depths dir) : Written depths dir := by
  induction h with
  | start hkeys hnone =>
    refine ⟨hkeys, fun file hfile hstatus => ?_⟩
    rw [hnone file hfile] at hstatus
    nomatch hstatus
  | write _ hproper hwrite ih => exact ih.write hproper hwrite

/-- The files of a pass are those with the name of a record. -/
theorem mem_statusFiles :
    file ∈ statusFiles dir ↔ file ∈ dir.map Prod.fst ∧ isStatusFile file = true := by
  rw [statusFiles, (List.perm_insertionSort _ _).mem_iff, List.mem_filter]

/-- A pass comes to each file once. -/
theorem Written.nodup_statusFiles (h : Written depths dir) : (statusFiles dir).Nodup := by
  rw [statusFiles, (List.perm_insertionSort _ _).nodup_iff]
  exact h.keys.filter _

/-- A pass comes to the file of each record. -/
theorem Record.mem_statusFiles (h : Record depths dir file status) : file ∈ statusFiles dir := by
  obtain ⟨name, -, hfile⟩ := h.place
  have hsuffix : isStatusFile file = true := by
    rw [isStatusFile, hfile, List.isSuffixOf_iff_suffix]
    exact List.suffix_append _ _
  exact Orphans.mem_statusFiles.mpr ⟨List.mem_map.mpr ⟨_, h.mem, rfl⟩, hsuffix⟩

/-- A record that was marked, or left, is no orphan any more. -/
theorem Settled.quiet (h : Settled depths w dir dir') (hwritten : Written depths dir)
    (hfile : file ∈ statusFiles dir') :
    ∃ status, Record depths dir' file status ∧ ¬Orphaned depths w dir' file status := by
  rw [mem_statusFiles, h.names] at hfile
  obtain ⟨status, hrecord⟩ := hwritten.records file hfile.1 hfile.2
  by_cases horphaned : Orphaned depths w dir file status
  · obtain ⟨status', hmarks, hrecord'⟩ := h.marked file status horphaned
    refine ⟨status', hrecord', fun horphaned' => ?_⟩
    obtain hstate | hstate := horphaned'.orphan.state <;>
      exact absurd (Json.str.inj (hmarks.state.symm.trans hstate)) (by decide)
  · have hnone : ∀ s, ¬Orphaned depths w dir file s := fun s hs =>
      horphaned (hrecord.unique hs.record hwritten.keys ▸ hs)
    have hmem := h.kept file _ hrecord.mem hnone
    exact ⟨status, ⟨hrecord.proper, hrecord.depth, hrecord.place, hmem⟩, fun horphaned' =>
      horphaned ⟨hrecord, horphaned'.orphan, horphaned'.writable⟩⟩

/-- A pass over a directory that `write_status` filled marks the orphans, leaves every other file, and
a second one does nothing. -/
theorem settles (h : Reached depths dir) (w : World) (shows : Json → Text)
    (clock clock' : Text → String) :
    ∃ names dir', reconcileOrphanedDeploys depths w shows clock dir = (dir', .ok names) ∧
      Settled depths w dir dir' ∧
      reconcileOrphanedDeploys depths w shows clock' dir' = (dir', .ok []) := by
  have hwritten := h.written
  have hrecords : ∀ file ∈ statusFiles dir, ∃ status, Record depths dir file status :=
    fun file hfile => hwritten.records file (mem_statusFiles.mp hfile).1 (mem_statusFiles.mp hfile).2
  -- One pass leaves nothing for a second one.
  obtain ⟨names, dir', hrun, hsettled⟩ := reconcileFiles_settles w shows clock
    (statusFiles dir) dir hwritten.keys hwritten.nodup_statusFiles hrecords
  have hall : Settled depths w dir dir' :=
    ⟨hsettled.names, fun file s ho => hsettled.marked file ho.record.mem_statusFiles s ho,
      fun file content hmem hnone => hsettled.kept file content hmem fun _ => hnone⟩
  have hkeys : (dir'.map Prod.fst).Nodup := hall.names ▸ hwritten.keys
  exact ⟨names, dir', hrun, hall,
    reconcileFiles_quiet hkeys fun file hfile => hall.quiet hwritten hfile⟩

end Directory

/-! ## A deploy that was killed -/

/-- The record of a deploy whose process is gone. -/
def killed : DeploymentStatusFile where
  fraiseName := .str (text "api")
  environment := .str (text "prod")
  state := .str (text "deploying")
  ownerPid := .int 4242

/-- Only the process that makes the pass is running. -/
def webhookStart : World where
  bootIdFile := none
  live := fun pid => pid = 1
  pid := 1
  pid_live := rfl
  foreign := fun _ => false
  group := fun _ => false
  refuses := fun _ => false

/-- The record of a deploy that was killed is proper. -/
theorem proper_killed : Proper killed where
  name := ⟨_, rfl, by decide⟩
  state := ⟨_, rfl⟩
  pid := .inr ⟨4242, rfl, by decide, by decide⟩
  bootId := .inl rfl
  invocationId := .inl rfl
  plain := by
    refine ⟨by decide, plainMembers_iff.mpr ?_⟩
    simp [asdict, killed, Plain, apart_text, show digits 4242 ≤ maxStrDigits by decide]

/-- The limits of an interpreter. -/
def interpreter : Depths where
  loads := 1000
  repr := 1000
  dumps := 900
  dumps_le := by decide

/-- One orphan in the directory. -/
theorem killed_settles : ∃ names dir',
    reconcileOrphanedDeploys interpreter webhookStart (fun _ => []) (fun _ => "2026-01-01")
      [(fileName (text "api"), some (contents killed))] = (dir', .ok names) ∧
    Settled interpreter webhookStart [(fileName (text "api"), some (contents killed))] dir' ∧
    reconcileOrphanedDeploys interpreter webhookStart (fun _ => []) (fun _ => "2026-01-02") dir' =
      (dir', .ok []) := by
  have hempty : Reached interpreter [] := .start List.nodup_nil nofun
  have hwrite := @writeStatus_ok interpreter webhookStart killed (text "api") rfl (by decide) rfl
    (by decide) []
  exact settles (hempty.write proper_killed hwrite) webhookStart _ _ _

end Fraisier.Deploy.Orphans
