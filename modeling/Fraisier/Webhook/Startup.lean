import Fraisier.Dbops.Receipt
import Fraisier.Deploy.Orphans
import Fraisier.Webhook.Refused

/-!
# The start of the webhook

What `lifespan` of `webhook.py` does with what it finds on disk. `_clear_stale_drain_flag` removes a
flag, `reconcile_orphaned_deploys` closes the records of deploys that are gone,
`consume_replay_handoff` takes the handoff and `read_refused_dispatches` reads the ledger. Each of
them says that it never keeps the webhook from starting, and each catches some of the exceptions
that a malformed file raises. `starts_iff` says for which files the start comes to its end; it is
then that every orphan is closed and that the handoff is gone.
-/

namespace Fraisier.Startup

open Fraisier.Lib Fallible Unicode Json
open Deploy.Orphans (DeploymentStatusFile Depths Directory World asdict contents fileName fromDict
  isSafeName isStatusFile otherBoot ownerIsGone)
open Dbops.Receipt (Readers toInt toStr)
open Webhook.Refused (RefusedDispatch)

/-! ## Files -/

/-- A file, as `read_text` finds it. -/
inductive File
  | absent
  /-- It cannot be opened or read. -/
  | unreadable
  | bytes (content : List ℕ)
  deriving DecidableEq, Repr

/-- `path.read_text()`. A `FileNotFoundError` is an `OSError`. -/
def File.readText : File → Except Dbops.Receipt.Exn Text
  | .absent | .unreadable => throw .osError
  | .bytes content => match decodeUtf8 content with
    | none => throw .unicodeDecodeError
    | some raw => pure raw

/-- The files of `deployment.lock_dir` that the start looks at. -/
structure LockDir where
  /-- `.draining` is there. -/
  draining : Bool
  /-- `.replay-on-start`. -/
  handoff : File
  /-- `.refused-dispatches`. -/
  ledger : File
  /-- Its files can be removed. -/
  removable : Bool

/-- What is on disk. -/
structure Disk where
  /-- The files of the directory of the records, `none` where one cannot be read. -/
  records : List (Text × Option (List ℕ))
  nodup : (records.map Prod.fst).Nodup
  /-- The lock directory that the configuration names, if it can be loaded and names one. -/
  lockDir : Option LockDir

/-- The files of the records with their texts. What is no UTF-8 is passed over as what cannot be read
is, since `UnicodeDecodeError` is a `ValueError`. -/
def Disk.directory (disk : Disk) : Directory :=
  disk.records.map fun file => (file.1, file.2.bind decodeUtf8)

/-- `webhook.replay_refused`, as far as it counts. -/
inductive ReplayMode
  | head | off
  deriving DecidableEq, Repr

section

variable {τ : Type} (depths : Depths) (w : World) (readers : Readers τ) (clock : Text → String)
  (mode : ReplayMode)

/-! ## The handoff and the ledger -/

/-- `json.loads` of a file, `none` where an `OSError` or a `ValueError` is caught. Only the reading
of the file is in the first `try`, and there no `ValueError` is caught. -/
def File.load (file : File) : Except Dbops.Receipt.Exn (Option Json) :=
  match file.readText with
  | .error .osError => pure none
  | .error e => throw e
  | .ok raw => match loadsStr depths.loads raw with
    | .error .recursionError => throw .recursionError
    | .error _ => pure none
    | .ok data => pure (some data)

/-- `ReplayHandoff`. -/
structure ReplayHandoff where
  version : Text
  service : Text
  requestedAt : Text
  deriving DecidableEq, Repr

/-- `str(raw.get(key, ""))`. -/
def textOf (raw : List (Text × Json)) (key : String) : Except Dbops.Receipt.Exn Text :=
  toStr depths.toLimits readers (getD raw key (.str []))

/-- `_handoff_from`. -/
def handoffFrom : Json → Except Dbops.Receipt.Exn (Option ReplayHandoff)
  | .obj raw => do
    let version ← textOf depths readers raw "version"
    let service ← textOf depths readers raw "service"
    let requestedAt ← textOf depths readers raw "requested_at"
    pure (some { version, service, requestedAt })
  | _ => pure none

/-- `path.unlink(missing_ok=True)`, whose `OSError` is caught. -/
def LockDir.unlinkHandoff (lockDir : LockDir) : LockDir :=
  if lockDir.removable then { lockDir with handoff := .absent } else lockDir

/-- What `consume_replay_handoff` returns. -/
def readHandoff (file : File) : Except Dbops.Receipt.Exn (Option ReplayHandoff) := do
  match ← file.load depths with
  | none => pure none
  | some data => handoffFrom depths readers data

/-- `consume_replay_handoff`. The file is removed in a `finally`, so also where its reading raises. -/
def consumeReplayHandoff (lockDir : LockDir) :
    LockDir × Except Dbops.Receipt.Exn (Option ReplayHandoff) :=
  (lockDir.unlinkHandoff, readHandoff depths readers lockDir.handoff)

/-- `RefusedDispatch(…)` of an entry. -/
def refusedDispatchOf (raw : List (Text × Json)) : Except Dbops.Receipt.Exn RefusedDispatch := do
  let fraise ← textOf depths readers raw "fraise"
  let environment ← textOf depths readers raw "environment"
  let branch ← textOf depths readers raw "branch"
  let commitSha ← textOf depths readers raw "commit_sha"
  let webhookId ← toInt readers (getD raw "webhook_id" (.int 0))
  let refusedAt ← textOf depths readers raw "refused_at"
  pure { fraise, environment, branch, commitSha, webhookId, refusedAt }

/-- What `_entry_from` catches. -/
def Misfit (e : Dbops.Receipt.Exn) : Prop := e = .typeError ∨ e = .valueError

instance : DecidablePred Misfit := fun e => inferInstanceAs (Decidable (e = _ ∨ e = _))

/-- `_entry_from`. -/
def entryFrom : Json → Except Dbops.Receipt.Exn (Option RefusedDispatch)
  | .obj raw => match refusedDispatchOf depths readers raw with
    | .ok entry => pure (some entry)
    | .error e => if Misfit e then pure none else throw e
  | _ => pure none

/-- `read_refused_dispatches`. -/
def readRefusedDispatches (file : File) : Except Dbops.Receipt.Exn (List RefusedDispatch) := do
  match ← file.load depths with
  | some (.arr data) => List.reduceOption <$> data.mapM (entryFrom depths readers)
  | _ => pure []

/-! ## The steps -/

/-- `_clear_stale_drain_flag`. -/
def clearStaleDrainFlag (lockDir : LockDir) : LockDir :=
  if lockDir.removable then { lockDir with draining := false } else lockDir

/-- `_reconcile_orphaned_deploys`. -/
def reconcileOrphanedDeploys (dir : Directory) : Directory × Except Deploy.Orphans.Exn Unit :=
  let (dir, reconciled) :=
    Deploy.Orphans.reconcileOrphanedDeploys depths w readers.str clock dir
  match reconciled with
  | .error .osError => (dir, pure ())
  | .error e => (dir, throw e)
  | .ok _ => (dir, pure ())

/-- `_replay_refused_dispatches`, up to the plan: the lock directory after it, and what was read of
the ledger. -/
def replayRefusedDispatches (lockDir : LockDir) :
    LockDir × Except Dbops.Receipt.Exn (List RefusedDispatch) :=
  let (lockDir, handoff) := consumeReplayHandoff depths readers lockDir
  (lockDir, do
    match ← handoff with
    | none => pure []
    | some _ => match mode with
      | .off => pure []
      | .head => readRefusedDispatches depths readers lockDir.ledger)

/-- What a start leaves. -/
structure Started where
  records : Directory
  lockDir : Option LockDir
  /-- What is owed, or what was raised over a record or over a file of the lock directory. -/
  result : Except (Deploy.Orphans.Exn ⊕ Dbops.Receipt.Exn) (List RefusedDispatch)

/-- The steps of `lifespan` after the configuration was looked at. -/
def startUp (disk : Disk) : Started :=
  let lockDir := disk.lockDir.map clearStaleDrainFlag
  let (records, reconciled) := reconcileOrphanedDeploys depths w readers clock disk.directory
  match reconciled, lockDir with
  | .error e, _ => { records, lockDir, result := throw (.inl e) }
  | .ok (), none => { records, lockDir, result := pure [] }
  | .ok (), some lockDir =>
    let (lockDir, owed) := replayRefusedDispatches depths readers mode lockDir
    { records, lockDir := some lockDir, result := owed.mapError .inr }

/-! ## A start that ends, with every orphan closed -/

/-- The file has a record that `reconcile_orphaned_deploys` closed. -/
def Closed (dir : Directory) (file : Text) : Prop :=
  ∃ status, status.state = .str (text "interrupted") ∧ dir.lookup file = some (some (contents status))

/-- The start comes to its end, every orphan is closed, and a handoff that can be removed is gone. -/
structure Starts (disk : Disk) : Prop where
  completes : ∃ owed, (startUp depths w readers clock mode disk).result = .ok owed
  closed : ∀ file status, Deploy.Orphans.Orphaned depths w disk.directory file status →
    Closed (startUp depths w readers clock mode disk).records file
  gone : ∀ lockDir, (startUp depths w readers clock mode disk).lockDir = some lockDir →
    lockDir.removable = true → lockDir.handoff = .absent

/-! ## The files that are read -/

/-- The deploy has not come to its end. -/
def Passing (status : DeploymentStatusFile) : Prop :=
  status.state = .str (text "pending") ∨ status.state = .str (text "deploying")

/-- An integer of the size of a pid. `True` is one. -/
inductive IsPid : Json → Prop
  | int {n : ℤ} (hlow : -2 ^ 31 ≤ n) (hhigh : n < 2 ^ 31) : IsPid (.int n)
  | bool (b : Bool) : IsPid (.bool b)

/-- A record that can be closed, or not written: what the message shows and what is written is not
nested too deep, and the name is a string. -/
structure Closable (status : DeploymentStatusFile) : Prop where
  pid : status.ownerPid.depth ≤ depths.repr
  invocationId : status.ownerInvocationId.truthy = true →
    status.ownerInvocationId.depth ≤ depths.repr
  name : ∃ name, status.fraiseName = .str name
  depth : ∀ name, status.fraiseName = .str name → isSafeName name = true →
    w.refuses (fileName name) = false →
    (Json.obj (asdict { status with finishedAt := .null, errorMessage := .null })).depth ≤ depths.dumps

/-- A record whose fields have the types that the pass relies on. -/
structure TameStatus (status : DeploymentStatusFile) : Prop where
  /-- The state is no list and no object. -/
  state : status.state.depth = 0
  owner : Passing status → otherBoot status w = false →
    status.ownerPid = .null ∨ IsPid status.ownerPid
  closable : Passing status → ownerIsGone status w = .ok true → Closable depths w status

/-- A file of a record that the pass comes past: one that cannot be read, that is no JSON, or an object
that lacks a name or an environment, is passed over. -/
def TameRecord : Option Text → Prop
  | none => True
  | some raw => loadsStr depths.loads raw ≠ .error .recursionError ∧
    ∀ data, loadsStr depths.loads raw = .ok data → (∃ members, data = .obj members) ∧
      ∀ status, fromDict data = .ok status → TameStatus depths w status

/-- The directory after the turn for a file. -/
def turned (dir : Directory) (file : Text) : Directory :=
  match Deploy.Orphans.reconcileOne depths w readers.str (clock file) dir file with
  | .ok (some (_, dir)) => dir
  | _ => dir

/-- Each file is tame when the loop comes to it. -/
def TamePass : List Text → Directory → Prop
  | [], _ => True
  | file :: files, dir => TameRecord depths w (dir.lookup file).join ∧
    TamePass files (turned depths w readers clock dir file)

/-- The file is UTF-8 and not nested too deep, if it can be read at all. -/
def File.Legible : File → Prop
  | .absent | .unreadable => True
  | .bytes content => ∃ raw, decodeUtf8 content = some raw ∧
    loadsStr depths.loads raw ≠ .error .recursionError

/-- The file holds a JSON value. -/
def File.Holds (file : File) (data : Json) : Prop :=
  ∃ content raw, file = .bytes content ∧ decodeUtf8 content = some raw ∧
    loadsStr depths.loads raw = .ok data

/-- Some members, or the texts in their place, are not nested too deep for `str`. -/
def Showable (raw : List (Text × Json)) (keys : List String) : Prop :=
  ∀ key ∈ keys, (getD raw key (.str [])).depth ≤ depths.repr

/-- A handoff that can be taken. -/
structure TameHandoff (file : File) : Prop where
  legible : file.Legible depths
  shown : ∀ raw, file.Holds depths (.obj raw) →
    Showable depths raw ["version", "service", "requested_at"]

/-- An entry that is read or left out: the fields are not nested too deep, as far as they are read, and
the number of the webhook is not infinite. -/
structure TameEntry (raw : List (Text × Json)) : Prop where
  shown : Showable depths raw ["fraise", "environment", "branch", "commit_sha"]
  webhookId : ∀ literal negative, getD raw "webhook_id" (.int 0) = .float literal →
    floatValue literal ≠ .infinity negative
  refusedAt : (∃ n, toInt readers (getD raw "webhook_id" (.int 0)) = .ok n) →
    Showable depths raw ["refused_at"]

/-- A ledger that can be read. -/
structure TameLedger (file : File) : Prop where
  legible : file.Legible depths
  entries : ∀ data, file.Holds depths (.arr data) → ∀ raw, Json.obj raw ∈ data →
    TameEntry depths readers raw

/-- The files of the lock directory are as the start relies on. The ledger is read after a handoff. -/
structure TameLockDir (lockDir : LockDir) : Prop where
  handoff : TameHandoff depths lockDir.handoff
  ledger : mode = .head → (∃ raw, lockDir.handoff.Holds depths (.obj raw)) →
    TameLedger depths readers lockDir.ledger

/-- Every file is tame that the start comes to. -/
structure Tame (disk : Disk) : Prop where
  records : TamePass depths w readers clock (Deploy.Orphans.statusFiles disk.directory) disk.directory
  lockDir : ∀ lockDir, disk.lockDir = some lockDir → TameLockDir depths readers mode lockDir

end

/-! ## Reading a file -/

section LockDirectory

variable {τ : Type} {depths : Depths} {readers : Readers τ} {mode : ReplayMode} {file : File}
  {raw : List (Text × Json)} {data : Json}

/-- What the load of a file gives. -/
theorem File.load_cases (depths : Depths) (file : File) :
    (file.Legible depths ∧ file.load depths = .ok none ∧ ∀ data, ¬file.Holds depths data) ∨
      (file.Legible depths ∧ ∃ data, file.load depths = .ok (some data) ∧
        ∀ data', file.Holds depths data' ↔ data = data') ∨
      (¬file.Legible depths ∧ ∃ e, file.load depths = .error e) := by
  cases file with
  | absent => exact .inl ⟨trivial, rfl, fun _ ⟨_, _, h, _⟩ => by cases h⟩
  | unreadable => exact .inl ⟨trivial, rfl, fun _ ⟨_, _, h, _⟩ => by cases h⟩
  | bytes content =>
    -- The bytes have to decode, and the text has to parse.
    cases hdecoded : decodeUtf8 content with
    | none =>
      refine .inr (.inr ⟨?_, .unicodeDecodeError, ?_⟩)
      · rintro ⟨raw, hraw, -⟩
        simp [hdecoded] at hraw
      · simp [load, readText, hdecoded, throw, throwThe, MonadExceptOf.throw]
    | some raw =>
      have hlegible : (File.bytes content).Legible depths ↔
          loadsStr depths.loads raw ≠ .error .recursionError := by
        simp [Legible, hdecoded]
      have hholds : ∀ data, (File.bytes content).Holds depths data ↔
          loadsStr depths.loads raw = .ok data := by
        intro data
        simp [Holds, hdecoded]
      simp only [hlegible, hholds, load, readText, hdecoded, pure, Except.pure, throw, throwThe,
        MonadExceptOf.throw]
      cases loadsStr depths.loads raw with
      | ok data => simp
      | error e => cases e <;> simp

/-- A value is shown, if it is not nested too deep. -/
theorem toStr_cases (limits : Limits) (readers : Readers τ) (v : Json) :
    (v.depth ≤ limits.repr ∧ ∃ s, toStr limits readers v = .ok s) ∨
      (¬v.depth ≤ limits.repr ∧ toStr limits readers v = .error .recursionError) := by
  by_cases hstr : ∃ s, v = .str s
  · obtain ⟨s, rfl⟩ := hstr
    exact .inl ⟨Nat.zero_le _, s, rfl⟩
  · have htoStr : toStr limits readers v =
        if v.depth ≤ limits.repr then pure (readers.str v) else throw .recursionError := by
      cases v with
      | str s => exact absurd ⟨s, rfl⟩ hstr
      | _ => rfl
    by_cases hdepth : v.depth ≤ limits.repr
    · exact .inl ⟨hdepth, _, htoStr.trans (if_pos hdepth)⟩
    · exact .inr ⟨hdepth, htoStr.trans (if_neg hdepth)⟩

/-- What completes raises nothing. -/
theorem completes_iff {ε α : Type} {x : Except ε α} :
    (∃ a, x = .ok a) ↔ RaisesOnly (fun _ => False) x := by
  cases x with
  | error e => simp [raisesOnly_error_iff]
  | ok a => simp [raisesOnly_ok]

/-- A text that is read before the rest. -/
theorem raisesOnly_textOf_bind {α : Type} {p : Dbops.Receipt.Exn → Prop} (hp : ¬p .recursionError)
    {key : String} {f : Text → Except Dbops.Receipt.Exn α} {rest : Prop}
    (hf : ∀ s, RaisesOnly p (f s) ↔ rest) :
    RaisesOnly p (textOf depths readers raw key >>= f) ↔
      (getD raw key (.str [])).depth ≤ depths.repr ∧ rest := by
  rw [raisesOnly_bind_iff, textOf]
  obtain ⟨hdepth, s, hs⟩ | ⟨hdepth, hraised⟩ :=
    toStr_cases depths.toLimits readers (getD raw key (.str []))
  · simp [hs, hdepth, hf, raisesOnly_ok]
  · simp [hraised, hdepth, hp, raisesOnly_error_iff]

/-- The handoff of an object is taken, if its members can be shown. -/
theorem handoffFrom_completes : (∃ handoff, handoffFrom depths readers (.obj raw) = .ok handoff) ↔
    Showable depths raw ["version", "service", "requested_at"] := by
  have hnot : ¬False := id
  rw [completes_iff, handoffFrom]
  refine (raisesOnly_textOf_bind hnot fun version => raisesOnly_textOf_bind hnot fun service =>
    raisesOnly_textOf_bind hnot fun requestedAt => iff_of_true (raisesOnly_ok _ _) trivial).trans ?_
  simp [Showable]

/-- What is no object is no handoff. -/
theorem handoffFrom_of_not_obj (h : ∀ raw, data ≠ .obj raw) :
    handoffFrom depths readers data = .ok none := by
  cases data with
  | obj raw => exact absurd rfl (h raw)
  | _ => rfl

/-- Whether a number of a webhook is read, or is of a wrong type or value. -/
theorem raisesOnly_toInt_iff (readers : Readers τ) (v : Json) : RaisesOnly Misfit (toInt readers v) ↔
    ∀ literal negative, v = .float literal → floatValue literal ≠ .infinity negative := by
  -- Only a float or a text is converted.
  cases v with
  | float literal =>
    have hfinite : (∀ literal' negative, Json.float literal = .float literal' →
        floatValue literal' ≠ .infinity negative) ↔
          ∀ negative, floatValue literal ≠ .infinity negative := by
      constructor
      · exact fun h negative => h literal negative rfl
      · rintro h _ negative ⟨⟩
        exact h negative
    rw [hfinite]
    cases hvalue : floatValue literal <;>
      simp [toInt, hvalue, RaisesOnly, Misfit, pure, Except.pure, throw, throwThe,
        MonadExceptOf.throw]
  | str s =>
    cases hread : readers.int? s <;>
      simp [toInt, Dbops.Receipt.orValueError, hread, RaisesOnly, Misfit, pure, Except.pure, throw,
        throwThe, MonadExceptOf.throw]
  | _ => simp [toInt, RaisesOnly, Misfit, pure, Except.pure, throw, throwThe, MonadExceptOf.throw]

/-- An entry is read, or left out, if it is tame. -/
theorem entryFrom_completes :
    (∃ entry, entryFrom depths readers (.obj raw) = .ok entry) ↔ TameEntry depths readers raw := by
  have hnot : ¬Misfit .recursionError := by decide
  -- Only the recursion error leaves `_entry_from`.
  have hcaught : (∃ entry, entryFrom depths readers (.obj raw) = .ok entry) ↔
      RaisesOnly Misfit (refusedDispatchOf depths readers raw) := by
    rw [entryFrom]
    cases refusedDispatchOf depths readers raw with
    | ok entry => simp [raisesOnly_ok, pure, Except.pure]
    | error e =>
      by_cases he : Misfit e <;>
        simp [he, raisesOnly_error_iff, pure, Except.pure, throw, throwThe, MonadExceptOf.throw]
  rw [hcaught, refusedDispatchOf]
  -- Each of the six fields raises nothing else when it can be shown.
  refine (raisesOnly_textOf_bind hnot fun fraise => raisesOnly_textOf_bind hnot fun environment =>
    raisesOnly_textOf_bind hnot fun branch => raisesOnly_textOf_bind hnot fun commitSha =>
      raisesOnly_bind_iff.trans (and_congr (raisesOnly_toInt_iff readers _)
        (forall₂_congr fun webhookId _ => raisesOnly_textOf_bind hnot fun refusedAt =>
          iff_of_true (raisesOnly_ok _ _) trivial))).trans ?_
  constructor
  · rintro ⟨hfraise, henvironment, hbranch, hsha, hid, hat⟩
    exact ⟨by simp [Showable, hfraise, henvironment, hbranch, hsha], hid,
      fun ⟨n, hn⟩ => by simpa [Showable] using hat n hn⟩
  · rintro ⟨hshown, hid, hat⟩
    simp only [Showable, List.forall_mem_cons] at hshown
    obtain ⟨hfraise, henvironment, hbranch, hsha, -⟩ := hshown
    exact ⟨hfraise, henvironment, hbranch, hsha, hid,
      fun n hn => by simpa [Showable] using hat ⟨n, hn⟩⟩

/-! ## The handoff and the ledger -/

/-- The handoff is taken, or found to be none, if it is tame. -/
theorem readHandoff_completes :
    (∃ handoff, readHandoff depths readers file = .ok handoff) ↔ TameHandoff depths file := by
  rw [readHandoff]
  -- The file holds nothing, a value that can be read, or what cannot be.
  obtain ⟨hlegible, hload, hholds⟩ | ⟨hlegible, data, hload, hholds⟩ | ⟨hlegible, e, hload⟩ :=
    file.load_cases depths
  · rw [hload]
    exact iff_of_true ⟨none, rfl⟩ ⟨hlegible, fun raw h => absurd h (hholds _)⟩
  · rw [hload]
    by_cases hobj : ∃ raw, data = .obj raw
    · obtain ⟨raw, rfl⟩ := hobj
      refine handoffFrom_completes.trans ⟨fun hshown => ⟨hlegible, fun raw' h => ?_⟩, fun h => ?_⟩
      · obtain rfl := Json.obj.inj ((hholds _).mp h)
        exact hshown
      · exact h.shown raw ((hholds _).mpr rfl)
    · refine iff_of_true ⟨none, handoffFrom_of_not_obj fun raw h => hobj ⟨raw, h⟩⟩
        ⟨hlegible, fun raw h => absurd ⟨raw, (hholds _).mp h⟩ hobj⟩
  · rw [hload]
    exact iff_of_false (fun ⟨_, h⟩ => by cases h) fun h => hlegible h.legible

/-- What is taken was an object. -/
theorem readHandoff_some {handoff : ReplayHandoff}
    (h : readHandoff depths readers file = .ok (some handoff)) :
    ∃ raw, file.Holds depths (.obj raw) := by
  rw [readHandoff, bind_ok_iff] at h
  obtain ⟨loaded, hload, h⟩ := h
  obtain ⟨-, hnone, -⟩ | ⟨-, data, hsome, hholds⟩ | ⟨-, e, herror⟩ := file.load_cases depths
  · obtain rfl := Except.ok.inj (hload.symm.trans hnone)
    cases h
  · obtain rfl := Except.ok.inj (hload.symm.trans hsome)
    by_cases hobj : ∃ raw, data = .obj raw
    · obtain ⟨raw, rfl⟩ := hobj
      exact ⟨raw, (hholds _).mpr rfl⟩
    · cases (handoffFrom_of_not_obj fun raw h => hobj ⟨raw, h⟩).symm.trans h
  · cases hload.symm.trans herror

/-- What was found to be none was no object. -/
theorem readHandoff_none (h : readHandoff depths readers file = .ok none) :
    ¬∃ raw, file.Holds depths (.obj raw) := by
  rintro ⟨raw, hraw⟩
  rw [readHandoff, bind_ok_iff] at h
  obtain ⟨loaded, hload, h⟩ := h
  obtain ⟨-, -, hholds⟩ | ⟨-, data, hsome, hholds⟩ | ⟨-, e, herror⟩ := file.load_cases depths
  · exact hholds _ hraw
  · obtain rfl := (hholds _).mp hraw
    obtain rfl := Except.ok.inj (hload.symm.trans hsome)
    obtain ⟨version, -, h⟩ := bind_ok_iff.mp h
    obtain ⟨service, -, h⟩ := bind_ok_iff.mp h
    obtain ⟨requestedAt, -, h⟩ := bind_ok_iff.mp h
    cases h
  · cases hload.symm.trans herror

/-- The ledger is read, or found to be none, if it is tame. -/
theorem readRefusedDispatches_completes :
    (∃ owed, readRefusedDispatches depths readers file = .ok owed) ↔
      TameLedger depths readers file := by
  rw [readRefusedDispatches]
  -- The file is missing or no JSON, holds a value, or raises.
  obtain ⟨hlegible, hload, hholds⟩ | ⟨hlegible, data, hload, hholds⟩ | ⟨hlegible, e, hload⟩ :=
    file.load_cases depths
  · rw [hload]
    exact iff_of_true ⟨[], rfl⟩ ⟨hlegible, fun data h => absurd h (hholds _)⟩
  · rw [hload]
    by_cases harr : ∃ items, data = .arr items
    · obtain ⟨items, rfl⟩ := harr
      have hmapped : (∃ owed, List.reduceOption <$> items.mapM (entryFrom depths readers) = .ok owed) ↔
          ∃ entries, items.mapM (entryFrom depths readers) = .ok entries := by
        cases items.mapM (entryFrom depths readers) <;> simp [Functor.map, Except.map]
      refine (hmapped.trans exists_mapM_ok_iff).trans
        ⟨fun h => ⟨hlegible, fun items' hitems raw hraw => ?_⟩, fun h item hitem => ?_⟩
      · obtain rfl := Json.arr.inj ((hholds _).mp hitems)
        exact entryFrom_completes.mp (h _ hraw)
      · by_cases hobj : ∃ raw, item = .obj raw
        · obtain ⟨raw, rfl⟩ := hobj
          exact entryFrom_completes.mpr (h.entries items ((hholds _).mpr rfl) raw hitem)
        · refine ⟨none, ?_⟩
          cases item with
          | obj raw => exact absurd ⟨raw, rfl⟩ hobj
          | _ => rfl
    -- What is no list is a ledger without entries.
    · refine iff_of_true ⟨[], ?_⟩ ⟨hlegible, fun items h => absurd ⟨items, (hholds _).mp h⟩ harr⟩
      cases data with
      | arr items => exact absurd ⟨items, rfl⟩ harr
      | _ => rfl
  · rw [hload]
    exact iff_of_false (fun ⟨_, h⟩ => by cases h) fun h => hlegible h.legible

/-- The handoff is removed when it can be. -/
theorem unlinkHandoff_eq (lockDir : LockDir) : lockDir.unlinkHandoff =
    { lockDir with handoff := if lockDir.removable then .absent else lockDir.handoff } := by
  rw [LockDir.unlinkHandoff]
  split <;> rfl

/-- The replay comes as far as its plan, if the files of the lock directory are tame. -/
theorem replayRefusedDispatches_completes {lockDir : LockDir} :
    (∃ owed, (replayRefusedDispatches depths readers mode lockDir).2 = .ok owed) ↔
      TameLockDir depths readers mode lockDir := by
  simp only [replayRefusedDispatches, consumeReplayHandoff, unlinkHandoff_eq]
  -- The handoff is read first, and nothing is replayed without one.
  cases hread : readHandoff depths readers lockDir.handoff with
  | error e =>
    refine iff_of_false (fun ⟨_, h⟩ => by cases h) fun h => ?_
    obtain ⟨handoff, hok⟩ := readHandoff_completes.mpr h.handoff
    cases hread.symm.trans hok
  | ok handoff =>
    have htame := readHandoff_completes.mp ⟨handoff, hread⟩
    cases handoff with
    | none =>
      exact iff_of_true ⟨[], rfl⟩ ⟨htame, fun _ h => absurd h (readHandoff_none hread)⟩
    | some handoff =>
      have hobj := readHandoff_some hread
      cases mode with
      | off => exact iff_of_true ⟨[], rfl⟩ ⟨htame, fun h => by cases h⟩
      | head =>
        exact readRefusedDispatches_completes.trans
          ⟨fun h => ⟨htame, fun _ _ => h⟩, fun h => h.ledger rfl hobj⟩

end LockDirectory

/-! ## The turn for a record -/

section Record

variable {depths : Depths} {w : World} {shows : Json → Text} {now : String} {dir : Directory}
  {file : Text} {status : DeploymentStatusFile}

/-- A state that is not hashable raises, and any other is looked up. -/
theorem isNonTerminal_cases (status : DeploymentStatusFile) :
    (status.state.depth ≠ 0 ∧ Deploy.Orphans.isNonTerminal status.state = .error .typeError) ∨
      (status.state.depth = 0 ∧ Deploy.Orphans.isNonTerminal status.state = .ok true ∧
        Passing status) ∨
      (status.state.depth = 0 ∧ Deploy.Orphans.isNonTerminal status.state = .ok false ∧
        ¬Passing status) := by
  unfold Passing
  cases status.state with
  | arr items => exact .inl ⟨Nat.succ_ne_zero _, rfl⟩
  | obj members => exact .inl ⟨Nat.succ_ne_zero _, rfl⟩
  | str state =>
    by_cases h : state = text "pending" ∨ state = text "deploying"
    · exact .inr (.inl ⟨rfl, by simpa [Deploy.Orphans.isNonTerminal] using h, by simpa using h⟩)
    · exact .inr (.inr ⟨rfl, by simpa [Deploy.Orphans.isNonTerminal] using h, by simpa using h⟩)
  | _ => exact .inr (.inr ⟨rfl, rfl, by simp⟩)

/-- Whether the process is there can be told of a pid. -/
theorem pidAlive_completes (w : World) (v : Json) :
    (∃ alive, Deploy.Orphans.pidAlive w v = .ok alive) ↔ IsPid v := by
  have hint : ∀ n : ℤ, (∃ alive, Deploy.Orphans.intAlive w n = .ok alive) ↔
      -2 ^ 31 ≤ n ∧ n < 2 ^ 31 := by
    intro n
    rw [Deploy.Orphans.intAlive, Deploy.Orphans.kill]
    by_cases hout : n < -2 ^ 31 ∨ 2 ^ 31 ≤ n
    · rw [if_pos hout]
      refine iff_of_false ?_ (by omega)
      rintro ⟨alive, h⟩
      cases h
    · rw [if_neg hout]
      refine iff_of_true ?_ (by omega)
      -- in none of the remaining branches is the number too large for a pid
      split_ifs <;> exact ⟨_, rfl⟩
  cases v with
  | int n =>
    rw [Deploy.Orphans.pidAlive, hint n]
    constructor
    · rintro ⟨hlow, hhigh⟩
      exact .int hlow hhigh
    · intro h
      cases h with
      | int hlow hhigh => exact ⟨hlow, hhigh⟩
  | bool b => exact iff_of_true ((hint _).mpr (by split_ifs <;> omega)) (.bool b)
  | _ =>
    refine iff_of_false ?_ ?_
    · rintro ⟨alive, h⟩
      cases h
    · intro h
      cases h

/-- Whether the owner is gone can be told by the boot, or by what stands for the pid. -/
theorem ownerIsGone_completes : (∃ gone, ownerIsGone status w = .ok gone) ↔
    (otherBoot status w = false → status.ownerPid = .null ∨ IsPid status.ownerPid) := by
  rw [ownerIsGone]
  cases otherBoot status w with
  | true => exact iff_of_true ⟨true, rfl⟩ fun h => by cases h
  | false =>
    rw [if_neg Bool.false_ne_true]
    have hmapped : ∀ v, (∃ gone, (Deploy.Orphans.pidAlive w v).map (!·) = .ok gone) ↔ IsPid v := by
      intro v
      rw [← pidAlive_completes w v]
      cases Deploy.Orphans.pidAlive w v <;> simp [Except.map]
    cases status.ownerPid with
    | null => exact iff_of_true ⟨false, rfl⟩ fun _ => .inl rfl
    | _ => simpa using hmapped _

/-- A value is formatted when it is not nested too deep. -/
theorem formatted_cases (depths : Depths) (shows : Json → Text) (v : Json) :
    (v.depth ≤ depths.repr ∧ ∃ s, Deploy.Orphans.formatted depths shows v = .ok s) ∨
      (¬v.depth ≤ depths.repr ∧ Deploy.Orphans.formatted depths shows v = .error .recursionError) := by
  by_cases hdepth : v.depth ≤ depths.repr
  -- A value that is no container is never nested.
  · refine .inl ⟨hdepth, ?_⟩
    cases v with
    | str s => exact ⟨s, rfl⟩
    | int n => exact ⟨_, rfl⟩
    | null => exact ⟨_, rfl⟩
    | bool b => exact ⟨_, rfl⟩
    | _ =>
      simp only [Deploy.Orphans.formatted, if_pos hdepth]
      exact ⟨_, rfl⟩
  · refine .inr ⟨hdepth, ?_⟩
    cases v with
    | arr items => exact if_neg hdepth
    | obj members => exact if_neg hdepth
    | _ => exact absurd (Nat.zero_le _) hdepth

/-- The hint is made, if what it shows is not nested too deep. -/
theorem journalHint_cases (depths : Depths) (shows : Json → Text) (status : DeploymentStatusFile) :
    ((status.ownerInvocationId.truthy = true → status.ownerInvocationId.depth ≤ depths.repr) ∧
        ∃ hint, Deploy.Orphans.journalHint status depths shows = .ok hint) ∨
      (¬(status.ownerInvocationId.truthy = true → status.ownerInvocationId.depth ≤ depths.repr) ∧
        Deploy.Orphans.journalHint status depths shows = .error .recursionError) := by
  rw [Deploy.Orphans.journalHint]
  cases status.ownerInvocationId.truthy with
  | false => exact .inl ⟨fun h => absurd h Bool.false_ne_true, [], rfl⟩
  | true =>
    rw [if_pos rfl]
    obtain ⟨hdepth, s, hs⟩ | ⟨hdepth, hraised⟩ := formatted_cases depths shows status.ownerInvocationId
    · exact .inl ⟨fun _ => hdepth, _, by rw [hs]; rfl⟩
    · exact .inr ⟨fun h => hdepth (h rfl), by rw [hraised]; rfl⟩

/-- The record with another state, time and message. -/
def marked (status : DeploymentStatusFile) (now message : Text) : DeploymentStatusFile :=
  { status with
    state := .str (text "interrupted")
    finishedAt := .str now
    errorMessage := .str message }

/-- What a marked record is nested is told by what stays of it. -/
theorem depth_marked (hstate : status.state.depth = 0) (now message : Text) :
    (Json.obj (asdict (marked status now message))).depth =
      (Json.obj (asdict { status with finishedAt := .null, errorMessage := .null })).depth := by
  simp [asdict, marked, Json.depth, Json.depthMembers, hstate]

/-- What becomes of the attempt to write a record. -/
theorem writeStatus_completes (w : World) (dir : Directory) (status : DeploymentStatusFile) :
    (∀ e, Deploy.Orphans.writeStatus status depths w dir = .error e → e.unwritable = true) ↔
      (∃ name, status.fraiseName = .str name) ∧ ∀ name, status.fraiseName = .str name →
        isSafeName name = true → w.refuses (fileName name) = false →
          (Json.obj (asdict status)).depth ≤ depths.dumps := by
  rw [Deploy.Orphans.writeStatus]
  -- Only a text can be the name of a file.
  cases hname : status.fraiseName with
  | str name =>
    simp only [Deploy.Orphans.validateFraiseName, Json.str.injEq, exists_eq', true_and, forall_eq']
    cases hsafe : isSafeName name with
    | false =>
      refine iff_of_true ?_ fun h => absurd h Bool.false_ne_true
      intro e h
      cases h
      rfl
    | true =>
      cases hrefuses : w.refuses (fileName name) with
      | true =>
        refine iff_of_true ?_ fun _ h => absurd h.symm Bool.false_ne_true
        intro e h
        simp only [bind, Except.bind, hrefuses, if_true, throw, throwThe, MonadExceptOf.throw] at h
        cases h
        rfl
      | false =>
        simp only [bind, Except.bind, hrefuses, if_true, if_false, Bool.false_eq_true, throw, throwThe,
          MonadExceptOf.throw, pure, Except.pure, forall_const]
        by_cases hdepth : depths.dumps < (Json.obj (asdict status)).depth
        · rw [if_pos hdepth]
          refine iff_of_false ?_ (by omega)
          intro h
          cases h _ rfl
        · rw [if_neg hdepth]
          refine iff_of_true ?_ (by omega)
          intro e h
          cases h
  | _ =>
    refine iff_of_false ?_ ?_
    · intro h
      cases h _ rfl
    · rintro ⟨⟨name, h⟩, -⟩
      cases h

/-- A record is closed, or left as it is. -/
theorem interrupted_cases (depths : Depths) (shows : Json → Text) (status : DeploymentStatusFile)
    (now : String) :
    (status.ownerPid.depth ≤ depths.repr ∧
        (status.ownerInvocationId.truthy = true → status.ownerInvocationId.depth ≤ depths.repr) ∧
        ∃ message, Deploy.Orphans.interrupted status depths shows now =
          .ok (marked status (text now) message)) ∨
      (¬(status.ownerPid.depth ≤ depths.repr ∧
          (status.ownerInvocationId.truthy = true → status.ownerInvocationId.depth ≤ depths.repr)) ∧
        Deploy.Orphans.interrupted status depths shows now = .error .recursionError) := by
  rw [Deploy.Orphans.interrupted]
  -- The owner is named first, and then the hint is made.
  obtain ⟨hpid, pid, hshown⟩ | ⟨hpid, hraised⟩ := formatted_cases depths shows status.ownerPid
  · rw [hshown]
    obtain ⟨hid, hint, hhint⟩ | ⟨hid, hraised⟩ := journalHint_cases depths shows status
    · rw [hhint]
      exact .inl ⟨hpid, hid, _, rfl⟩
    · rw [hraised]
      exact .inr ⟨fun h => hid h.2, rfl⟩
  · rw [hraised]
    exact .inr ⟨fun h => hpid h.1, rfl⟩

/-- Asking for a process raises no system error. -/
theorem pidAlive_ne_osError (w : World) (v : Json) : Deploy.Orphans.pidAlive w v ≠ .error .osError := by
  have hint : ∀ n : ℤ, Deploy.Orphans.intAlive w n ≠ .error .osError := by
    intro n
    rw [Deploy.Orphans.intAlive]
    cases Deploy.Orphans.kill w n with
    | ok _ => simp
    | error e => cases e <;> simp
  cases v with
  | int n => exact hint n
  | bool b => exact hint _
  | _ => simp [Deploy.Orphans.pidAlive]

/-- The pass catches no error that the question after the owner raises. -/
theorem ownerIsGone_ne_osError (status : DeploymentStatusFile) (w : World) :
    ownerIsGone status w ≠ .error .osError := by
  -- Asking after a process raises no such error.
  have hmapped : ∀ v, (Deploy.Orphans.pidAlive w v).map (!·) ≠ .error .osError := by
    intro v h
    cases hv : Deploy.Orphans.pidAlive w v with
    | ok alive => simp [hv, Except.map] at h
    | error e =>
      rw [hv] at h
      obtain rfl := Except.error.inj h
      exact pidAlive_ne_osError w v hv
  rw [ownerIsGone]
  split_ifs
  · simp
  · cases status.ownerPid with
    | null => simp
    | _ => exact hmapped _

/-- The end of the turn for a record whose owner is gone. -/
def closing (depths : Depths) (w : World) (shows : Json → Text) (now : String) (dir : Directory)
    (status : DeploymentStatusFile) : Except Deploy.Orphans.Exn (Option (Json × Directory)) := do
  let status ← Deploy.Orphans.interrupted status depths shows now
  match Deploy.Orphans.writeStatus status depths w dir with
  | .error e => if e.unwritable then return none else throw e
  | .ok dir => return some (status.fraiseName, dir)

/-- The record is closed, or not written, if it is closable. -/
theorem closing_cases (depths : Depths) (w : World) (shows : Json → Text) (now : String)
    (dir : Directory) (hstate : status.state.depth = 0) :
    (Closable depths w status ∧ ∃ turn, closing depths w shows now dir status = .ok turn) ∨
      (¬Closable depths w status ∧
        ∃ e, closing depths w shows now dir status = .error e ∧ e ≠ .osError) := by
  rw [closing]
  -- The message is formatted, or raises.
  obtain ⟨hpid, hid, message, hmarked⟩ | ⟨hnot, hraised⟩ :=
    interrupted_cases depths shows status now
  · have hclosable : Closable depths w status ↔
        ∀ e, Deploy.Orphans.writeStatus (marked status (text now) message) depths w dir = .error e →
          e.unwritable = true := by
      rw [writeStatus_completes, depth_marked hstate]
      exact ⟨fun h => ⟨h.name, h.depth⟩, fun h => ⟨hpid, hid, h.1, h.2⟩⟩
    rw [hmarked, hclosable]
    simp only [bind, Except.bind]
    cases hwrite : Deploy.Orphans.writeStatus (marked status (text now) message) depths w dir with
    | ok dir' =>
      refine .inl ⟨?_, _, rfl⟩
      intro e h
      cases h
    | error e =>
      cases hcaught : e.unwritable with
      | true =>
        refine .inl ⟨?_, none, if_pos hcaught⟩
        intro e' h
        cases h
        exact hcaught
      | false =>
        have hnot : ¬e.unwritable = true := by rw [hcaught]; exact Bool.false_ne_true
        refine .inr ⟨fun h => hnot (h e rfl), e, if_neg hnot, ?_⟩
        rintro rfl
        exact hnot rfl
  · rw [hraised]
    refine .inr ⟨fun h => hnot ⟨h.pid, h.invocationId⟩, _, rfl, ?_⟩
    decide

/-- The turn for a record that was read. -/
theorem reconcileOne_cases_of_read (shows : Json → Text) (now : String)
    (hread : Deploy.Orphans.readRecord depths (dir.lookup file).join = .ok status) :
    (TameStatus depths w status ∧
        ∃ turn, Deploy.Orphans.reconcileOne depths w shows now dir file = .ok turn) ∨
      (¬TameStatus depths w status ∧
        ∃ e, Deploy.Orphans.reconcileOne depths w shows now dir file = .error e ∧ e ≠ .osError) := by
  rw [Deploy.Orphans.reconcileOne, hread]
  -- The state raises, is one to pass over, or is one that is not terminal.
  obtain ⟨hdepth, hraised⟩ | ⟨hdepth, hpassing, hp⟩ | ⟨hdepth, hpassing, hp⟩ :=
    isNonTerminal_cases status
  · refine .inr ⟨fun h => hdepth h.state, .typeError, ?_, by decide⟩
    simp only [hraised, bind, Except.bind]
  · simp only [hpassing, bind, Except.bind]
    cases hgone : ownerIsGone status w with
    | error e =>
      refine .inr ⟨fun h => ?_, e, rfl, ?_⟩
      · obtain ⟨gone, hok⟩ := ownerIsGone_completes.mpr (h.owner hp)
        cases hgone.symm.trans hok
      · rintro rfl
        exact ownerIsGone_ne_osError status w hgone
    | ok gone =>
      have howner := ownerIsGone_completes.mp ⟨gone, hgone⟩
      cases gone with
      | false =>
        refine .inl ⟨⟨hdepth, fun _ => howner, fun _ h => ?_⟩, none, rfl⟩
        cases hgone.symm.trans h
      | true =>
        obtain ⟨hclosable, turn, hturn⟩ | ⟨hnot, e, hraised, hne⟩ :=
          closing_cases depths w shows now dir hdepth
        · exact .inl ⟨⟨hdepth, fun _ => howner, fun _ _ => hclosable⟩, turn, hturn⟩
        · exact .inr ⟨fun h => hnot (h.closable hp hgone), e, hraised, hne⟩
  · simp only [hpassing, bind, Except.bind]
    exact .inl ⟨⟨hdepth, fun h => absurd h hp, fun h => absurd h hp⟩, none, rfl⟩

/-- What the reading of a file gives: a record, an error that is caught, or another one. -/
theorem readRecord_cases (depths : Depths) (w : World) (content : Option Text) :
    (∃ status, Deploy.Orphans.readRecord depths content = .ok status ∧
        (TameRecord depths w content ↔ TameStatus depths w status)) ∨
      (TameRecord depths w content ∧
        ∃ e, Deploy.Orphans.readRecord depths content = .error e ∧ e.unreadable = true) ∨
      (¬TameRecord depths w content ∧
        ∃ e, Deploy.Orphans.readRecord depths content = .error e ∧ e.unreadable = false) := by
  cases content with
  | none => exact .inr (.inl ⟨trivial, .osError, rfl, rfl⟩)
  | some raw =>
    rw [Deploy.Orphans.readRecord, TameRecord]
    cases loadsStr depths.loads raw with
    | error e =>
      cases e with
      | recursionError => exact .inr (.inr ⟨fun h => h.1 rfl, _, rfl, rfl⟩)
      | _ => exact .inr (.inl ⟨by simp, _, rfl, rfl⟩)
    | ok data =>
      by_cases hobj : ∃ members, data = .obj members
      · cases hread : fromDict data with
        | ok status => exact .inl ⟨status, hread, by simp [hobj, hread]⟩
        | error e =>
          refine .inr (.inl ⟨by simp [hobj, hread], e, hread, ?_⟩)
          -- of an object only a missing name or environment is told
          obtain ⟨members, rfl⟩ := hobj
          rw [fromDict] at hread
          split at hread
          · cases hread
          · cases hread
            rfl
      · refine .inr (.inr ⟨fun h => hobj (h.2 data rfl).1, .attributeError, ?_, rfl⟩)
        cases data with
        | obj members => exact absurd ⟨members, rfl⟩ hobj
        | _ => rfl

/-- The turn for a file comes to its end if the file is tame, and raises nothing that is caught. -/
theorem reconcileOne_cases (depths : Depths) (w : World) (shows : Json → Text) (now : String)
    (dir : Directory) (file : Text) :
    (TameRecord depths w (dir.lookup file).join ∧
        ∃ turn, Deploy.Orphans.reconcileOne depths w shows now dir file = .ok turn) ∨
      (¬TameRecord depths w (dir.lookup file).join ∧
        ∃ e, Deploy.Orphans.reconcileOne depths w shows now dir file = .error e ∧ e ≠ .osError) := by
  -- The record is read, is passed over, or cannot be read.
  obtain ⟨status, hread, htame⟩ | ⟨htame, e, hread, hcaught⟩ | ⟨hwild, e, hread, huncaught⟩ :=
    readRecord_cases depths w (dir.lookup file).join
  · rw [htame]
    exact reconcileOne_cases_of_read shows now hread
  · refine .inl ⟨htame, none, ?_⟩
    rw [Deploy.Orphans.reconcileOne, hread]
    exact if_pos hcaught
  · refine .inr ⟨hwild, e, ?_, ?_⟩
    · rw [Deploy.Orphans.reconcileOne, hread]
      exact if_neg (by rw [huncaught]; exact Bool.false_ne_true)
    · rintro rfl
      cases huncaught

/-- A status that is written lies in its file. -/
theorem writeStatus_eq_put {dir' : Directory}
    (h : Deploy.Orphans.writeStatus status depths w dir = .ok dir') :
    ∃ file, dir' = put file (some (contents status)) dir := by
  rw [Deploy.Orphans.writeStatus] at h
  obtain ⟨name, -, h⟩ := bind_ok_iff.mp h
  refine ⟨fileName name, ?_⟩
  change (if _ then _ else if _ then _ else _) = _ at h
  -- where it cannot be written, or is nested too deep, nothing is returned
  split_ifs at h <;> cases h
  rfl

/-- A turn that closes a record writes an interrupted one, to some file. -/
theorem reconcileOne_some {name : Json} {dir' : Directory}
    (h : Deploy.Orphans.reconcileOne depths w shows now dir file = .ok (some (name, dir'))) :
    ∃ file' status', status'.state = .str (text "interrupted") ∧
      dir' = put file' (some (contents status')) dir := by
  rw [Deploy.Orphans.reconcileOne] at h
  -- A record that cannot be read is closed by no turn.
  cases hread : Deploy.Orphans.readRecord depths (dir.lookup file).join with
  | error e =>
    rw [hread] at h
    dsimp only at h
    split_ifs at h
    cases h
  | ok status =>
    rw [hread] at h
    obtain ⟨passing, -, h⟩ := bind_ok_iff.mp h
    cases passing with
    | false => cases h
    | true =>
      obtain ⟨gone, -, h⟩ := bind_ok_iff.mp h
      cases gone with
      | false => cases h
      | true =>
        obtain ⟨status', hmarked, h⟩ := bind_ok_iff.mp h
        obtain ⟨-, -, message, hmarked'⟩ | ⟨-, hraised⟩ := interrupted_cases depths shows status now
        · obtain rfl := Except.ok.inj (hmarked.symm.trans hmarked')
          cases hwrite : Deploy.Orphans.writeStatus (marked status (text now) message) depths w dir with
          | error e =>
            rw [hwrite] at h
            dsimp only at h
            split_ifs at h
            cases h
          | ok written =>
            rw [hwrite] at h
            cases h
            obtain ⟨file', hput⟩ := writeStatus_eq_put hwrite
            exact ⟨file', _, rfl, hput⟩
        · cases hmarked.symm.trans hraised

end Record

/-! ## The pass -/

section Pass

variable {τ : Type} {depths : Depths} {w : World} {readers : Readers τ} {clock : Text → String}
  {dir dir' : Directory} {file : Text} {status : DeploymentStatusFile}

/-- Each file is as it was, or its record was closed. -/
structure Advanced (dir dir' : Directory) : Prop where
  nodup : (dir'.map Prod.fst).Nodup
  files : ∀ file, dir'.lookup file = dir.lookup file ∨ Closed dir' file

/-- A directory is as far as it is. -/
theorem Advanced.refl (hkeys : (dir.map Prod.fst).Nodup) : Advanced dir dir :=
  ⟨hkeys, fun _ => .inl rfl⟩

/-- What was closed stays closed. -/
theorem Advanced.closed (h : Advanced dir dir') (hclosed : Closed dir file) : Closed dir' file := by
  obtain hkept | hclosed' := h.files file
  · obtain ⟨status, hstate, hlookup⟩ := hclosed
    exact ⟨status, hstate, hkept.trans hlookup⟩
  · exact hclosed'

/-- What was brought forward twice was brought forward. -/
theorem Advanced.trans {dir'' : Directory} (h : Advanced dir dir') (h' : Advanced dir' dir'') :
    Advanced dir dir'' := by
  refine ⟨h'.nodup, fun file => ?_⟩
  obtain hkept | hclosed := h.files file
  · exact (h'.files file).imp_left (·.trans hkept)
  · exact .inr (h'.closed hclosed)

/-- An orphan stays one, or its record was closed. -/
theorem Advanced.orphaned (h : Advanced dir dir') (hkeys : (dir.map Prod.fst).Nodup)
    (ho : Deploy.Orphans.Orphaned depths w dir file status) :
    Deploy.Orphans.Orphaned depths w dir' file status ∨ Closed dir' file := by
  refine (h.files file).imp_left fun hkept => ⟨{ ho.record with mem := ?_ }, ho.orphan, ho.writable⟩
  have hlookup := (lookup_eq_some_iff_mem hkeys).mpr ho.record.mem
  exact (lookup_eq_some_iff_mem h.nodup).mp (hkept.trans hlookup)

/-- A turn leaves the other files, and what it writes is closed. -/
theorem advanced_turned (depths : Depths) (w : World) (readers : Readers τ) (clock : Text → String)
    (hkeys : (dir.map Prod.fst).Nodup) (file : Text) :
    Advanced dir (turned depths w readers clock dir file) := by
  rw [turned]
  -- Only a turn that closes a record writes.
  cases hturn : Deploy.Orphans.reconcileOne depths w readers.str (clock file) dir file with
  | error e => exact .refl hkeys
  | ok turn =>
    cases turn with
    | none => exact .refl hkeys
    | some closed =>
      obtain ⟨name, dir'⟩ := closed
      obtain ⟨file', status', hstate, rfl⟩ := reconcileOne_some hturn
      refine ⟨nodup_put hkeys, fun other => ?_⟩
      by_cases hother : other = file'
      · subst hother
        exact .inr ⟨status', hstate, lookup_put_self _ _ _⟩
      · exact .inl (lookup_put_of_ne hother _)

/-- The turn for an orphan closes its record. -/
theorem closed_turned (readers : Readers τ) (clock : Text → String)
    (hkeys : (dir.map Prod.fst).Nodup) (ho : Deploy.Orphans.Orphaned depths w dir file status) :
    Closed (turned depths w readers clock dir file) file := by
  obtain ⟨status', hmarks, -, -, -, hturn⟩ :=
    Deploy.Orphans.reconcileOne_marks readers.str (clock file) ho hkeys
  rw [turned, hturn]
  exact ⟨status', hmarks.state, lookup_put_self _ _ _⟩

/-- The loop goes on with the directory after the turn. -/
theorem reconcileFiles_cons (files : List Text) {turn : Option (Json × Directory)}
    (hturn : Deploy.Orphans.reconcileOne depths w readers.str (clock file) dir file = .ok turn) :
    (Deploy.Orphans.reconcileFiles depths w readers.str clock (file :: files) dir).1 =
        (Deploy.Orphans.reconcileFiles depths w readers.str clock files
          (turned depths w readers clock dir file)).1 ∧
      (Deploy.Orphans.reconcileFiles depths w readers.str clock (file :: files) dir).2 =
        (Deploy.Orphans.reconcileFiles depths w readers.str clock files
          (turned depths w readers clock dir file)).2.map
            ((turn.map Prod.fst).toList ++ ·) := by
  rw [Deploy.Orphans.reconcileFiles, turned, hturn]
  -- The turn closed a record, or nothing.
  cases turn with
  | none =>
    refine ⟨rfl, ?_⟩
    dsimp only
    cases (Deploy.Orphans.reconcileFiles depths w readers.str clock files dir).2 <;> rfl
  | some closed => exact ⟨rfl, rfl⟩

/-- The pass comes to its end where each file is tame when the loop comes to it: every orphan is then
closed. -/
theorem reconcileFiles_closes (files : List Text) (dir : Directory)
    (hkeys : (dir.map Prod.fst).Nodup) (htame : TamePass depths w readers clock files dir) :
    ∃ names dir', Deploy.Orphans.reconcileFiles depths w readers.str clock files dir =
        (dir', .ok names) ∧ Advanced dir dir' ∧
      ∀ file ∈ files, ∀ status, Deploy.Orphans.Orphaned depths w dir file status →
        Closed dir' file := by
  -- Induction on the files, each of which finds the directory as those before left it.
  induction files generalizing dir with
  | nil => exact ⟨[], dir, rfl, .refl hkeys, fun file h => absurd h List.not_mem_nil⟩
  | cons file files ih =>
    obtain ⟨hfile, hrest⟩ := htame
    obtain ⟨-, turn, hturn⟩ | ⟨hwild, -⟩ :=
      reconcileOne_cases depths w readers.str (clock file) dir file
    · have hahead := advanced_turned depths w readers clock hkeys file
      obtain ⟨names, dir', hrun, hadvanced, hclosed⟩ := ih _ hahead.nodup hrest
      obtain ⟨hleft, hresult⟩ := reconcileFiles_cons files hturn
      rw [hrun] at hleft hresult
      refine ⟨(turn.map Prod.fst).toList ++ names, dir', Prod.ext hleft hresult,
        hahead.trans hadvanced, fun other hmem status ho => ?_⟩
      obtain rfl | hmem := List.mem_cons.mp hmem
      · exact hadvanced.closed (closed_turned readers clock hkeys ho)
      · obtain ho' | hclosed' := hahead.orphaned hkeys ho
        · exact hclosed other hmem status ho'
        · exact hadvanced.closed hclosed'
    · exact absurd hfile hwild

/-- What the pass raises over a file that is not tame is not caught. -/
theorem reconcileFiles_raises (files : List Text) (dir : Directory)
    (hwild : ¬TamePass depths w readers clock files dir) :
    ∃ e, (Deploy.Orphans.reconcileFiles depths w readers.str clock files dir).2 = .error e ∧
      e ≠ .osError := by
  induction files generalizing dir with
  | nil => exact absurd trivial hwild
  | cons file files ih =>
    obtain ⟨hfile, turn, hturn⟩ | ⟨-, e, hraised, hne⟩ :=
      reconcileOne_cases depths w readers.str (clock file) dir file
    · obtain ⟨e, hrun, hne⟩ := ih _ fun hrest => hwild ⟨hfile, hrest⟩
      refine ⟨e, ?_, hne⟩
      rw [(reconcileFiles_cons files hturn).2, hrun]
      rfl
    · refine ⟨e, ?_, hne⟩
      rw [Deploy.Orphans.reconcileFiles, hraised]

end Pass

/-! ## The start -/

section Start

variable {τ : Type} {depths : Depths} {w : World} {readers : Readers τ} {clock : Text → String}
  {mode : ReplayMode} {disk : Disk} {dir : Directory}

/-- The pass over the records, where each file is tame when the loop comes to it. -/
theorem reconcileOrphanedDeploys_closes (hkeys : (dir.map Prod.fst).Nodup)
    (htame : TamePass depths w readers clock (Deploy.Orphans.statusFiles dir) dir) :
    ∃ dir', reconcileOrphanedDeploys depths w readers clock dir = (dir', .ok ()) ∧
      ∀ file status, Deploy.Orphans.Orphaned depths w dir file status → Closed dir' file := by
  obtain ⟨names, dir', hrun, -, hclosed⟩ := reconcileFiles_closes _ dir hkeys htame
  refine ⟨dir', ?_, fun file status ho => hclosed file ho.record.mem_statusFiles status ho⟩
  rw [reconcileOrphanedDeploys, Deploy.Orphans.reconcileOrphanedDeploys, hrun]
  rfl

/-- A pass over records that are not tame raises. -/
theorem reconcileOrphanedDeploys_raises
    (hwild : ¬TamePass depths w readers clock (Deploy.Orphans.statusFiles dir) dir) :
    ∃ dir' e, reconcileOrphanedDeploys depths w readers clock dir = (dir', .error e) := by
  obtain ⟨e, hraised, hne⟩ := reconcileFiles_raises _ dir hwild
  rw [reconcileOrphanedDeploys, Deploy.Orphans.reconcileOrphanedDeploys]
  generalize Deploy.Orphans.reconcileFiles depths w readers.str clock
    (Deploy.Orphans.statusFiles dir) dir = run at hraised ⊢
  obtain ⟨dir', reconciled⟩ := run
  obtain rfl : reconciled = .error e := hraised
  refine ⟨dir', e, ?_⟩
  cases e with
  | osError => exact absurd rfl hne
  | _ => rfl

/-- Clearing the drain flag touches nothing else. -/
theorem clearStaleDrainFlag_eq (lockDir : LockDir) :
    ∃ draining, clearStaleDrainFlag lockDir = { lockDir with draining } := by
  rw [clearStaleDrainFlag]
  split
  · exact ⟨false, rfl⟩
  · exact ⟨lockDir.draining, rfl⟩

/-- The flag says nothing of the other files. -/
theorem tameLockDir_clearStaleDrainFlag {lockDir : LockDir} :
    TameLockDir depths readers mode (clearStaleDrainFlag lockDir) ↔
      TameLockDir depths readers mode lockDir := by
  obtain ⟨draining, heq⟩ := clearStaleDrainFlag_eq lockDir
  rw [heq]
  constructor
  · intro h
    exact ⟨h.handoff, h.ledger⟩
  · intro h
    exact ⟨h.handoff, h.ledger⟩

/-- A handoff is removed where its file can be, whatever it holds. -/
theorem replayRefusedDispatches_gone (depths : Depths) (readers : Readers τ) (mode : ReplayMode)
    (lockDir : LockDir)
    (h : (replayRefusedDispatches depths readers mode lockDir).1.removable = true) :
    (replayRefusedDispatches depths readers mode lockDir).1.handoff = .absent := by
  change lockDir.unlinkHandoff.removable = true at h
  change lockDir.unlinkHandoff.handoff = .absent
  rw [unlinkHandoff_eq] at h ⊢
  exact if_pos h

/-- A start over records that the pass comes past. -/
theorem startUp_of_tamePass (mode : ReplayMode)
    (htame : TamePass depths w readers clock (Deploy.Orphans.statusFiles disk.directory)
      disk.directory) :
    ∃ dir', (∀ file status, Deploy.Orphans.Orphaned depths w disk.directory file status →
        Closed dir' file) ∧
      startUp depths w readers clock mode disk = match disk.lockDir with
        | none => { records := dir', lockDir := none, result := .ok [] }
        | some lockDir =>
          let (lockDir, owed) :=
            replayRefusedDispatches depths readers mode (clearStaleDrainFlag lockDir)
          { records := dir', lockDir := some lockDir, result := owed.mapError .inr } := by
  -- The names in a directory are distinct.
  have hkeys : (disk.directory.map Prod.fst).Nodup := by
    rw [Disk.directory, List.map_map]
    exact disk.nodup
  obtain ⟨dir', hrun, hclosed⟩ := reconcileOrphanedDeploys_closes hkeys htame
  refine ⟨dir', hclosed, ?_⟩
  rw [startUp, hrun]
  cases disk.lockDir <;> rfl

/-- The start comes to its end, if every file is tame that it comes to. -/
theorem startUp_completes :
    (∃ owed, (startUp depths w readers clock mode disk).result = .ok owed) ↔
      Tame depths w readers clock mode disk := by
  -- The records come before the ledger and the handoff.
  by_cases htame : TamePass depths w readers clock (Deploy.Orphans.statusFiles disk.directory)
      disk.directory
  · obtain ⟨dir', -, hstart⟩ := startUp_of_tamePass mode htame
    rw [hstart]
    cases hlockDir : disk.lockDir with
    | none =>
      refine iff_of_true ⟨[], rfl⟩ ⟨htame, fun lockDir h => ?_⟩
      cases hlockDir.symm.trans h
    | some lockDir =>
      have hmapped : (∃ owed, ((replayRefusedDispatches depths readers mode
          (clearStaleDrainFlag lockDir)).2.mapError Sum.inr :
            Except (Deploy.Orphans.Exn ⊕ Dbops.Receipt.Exn) _) = .ok owed) ↔
          ∃ owed, (replayRefusedDispatches depths readers mode
            (clearStaleDrainFlag lockDir)).2 = .ok owed := by
        cases (replayRefusedDispatches depths readers mode (clearStaleDrainFlag lockDir)).2 <;>
          simp [Except.mapError]
      refine (hmapped.trans (replayRefusedDispatches_completes.trans
        tameLockDir_clearStaleDrainFlag)).trans ⟨fun h => ⟨htame, fun lockDir' h' => ?_⟩, fun h => ?_⟩
      · obtain rfl := Option.some.inj (hlockDir.symm.trans h')
        exact h
      · exact h.lockDir lockDir hlockDir
  · obtain ⟨dir', e, hrun⟩ := reconcileOrphanedDeploys_raises htame
    refine iff_of_false ?_ fun h => htame h.records
    rw [startUp, hrun]
    rintro ⟨owed, h⟩
    cases h

/-- The webhook starts, every orphan is closed and the handoff is gone, exactly if every file is tame
that the start comes to. -/
theorem starts_iff : Starts depths w readers clock mode disk ↔
    Tame depths w readers clock mode disk := by
  constructor
  · intro h
    exact startUp_completes.mp h.completes
  · intro h
    -- A pass over tame files closes every orphan, and then the handoff is taken away.
    obtain ⟨dir', hclosed, hstart⟩ := startUp_of_tamePass mode h.records
    refine ⟨startUp_completes.mpr h, ?_, ?_⟩
    · intro file status ho
      rw [hstart]
      cases disk.lockDir <;> exact hclosed file status ho
    · intro lockDir hleft hremovable
      rw [hstart] at hleft
      cases hlockDir : disk.lockDir with
      | none =>
        rw [hlockDir] at hleft
        cases hleft
      | some before =>
        rw [hlockDir] at hleft
        obtain rfl := Option.some.inj hleft
        exact replayRefusedDispatches_gone depths readers mode _ hremovable

end Start

/-- A handoff that is no UTF-8 keeps the webhook from starting. -/
example {τ : Type} (depths : Depths) (w : World) (readers : Readers τ) (clock : Text → String) :
    (startUp depths w readers clock .head ⟨[], List.nodup_nil,
      some ⟨false, .bytes [255], .absent, true⟩⟩).result = .error (.inr .unicodeDecodeError) := rfl

end Fraisier.Startup
