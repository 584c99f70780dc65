import Mathlib.Data.List.Basic
import Fraisier.Lib.Program
import Fraisier.Lib.System

/-!
# The saved hash of the configuration

`_sync_config_if_needed` puts the checkout's configuration in place, and asks the scaffold-install
helper to install what it renders when its hash is not the saved one. `ConfigWatcher.save_hash` runs
before the request, and `forget_hash` takes the hash back on the branches that a failed request
takes (#433). `saved_hash_applied` says in which runs of deploys the saved hash is that of the live
configuration only if the helper has reported ok for it.

Every call of a sync has an answer in a `SyncWorld`, an exception at any of them included, the
timer's among them. A configuration is known by its hash.
-/

namespace Fraisier.Config

open Fraisier.Lib

variable {H : Type}

/-! ## What is on the host -/

/-- The directory of the server-side configuration, and what the helper has reported. -/
structure ConfigDir (H : Type) where
  /-- `ConfigWatcher.compute_hash` of the live configuration, if there is one. -/
  live : Option H := none
  /-- `.config_hash`. -/
  saved : Option H := none
  /-- The configurations that the helper has reported ok for. -/
  applied : List H := []

namespace ConfigDir

/-- `ConfigWatcher.has_changed`. -/
def hasChanged [DecidableEq H] (s : ConfigDir H) : Bool :=
  match s.live, s.saved with
  | some current, some previous => current ≠ previous
  | _, _ => true

/-- `ConfigWatcher.save_hash`. -/
def saveHash (s : ConfigDir H) : ConfigDir H := { s with saved := s.live }

/-- `ConfigWatcher.forget_hash`. -/
def forgetHash (s : ConfigDir H) : ConfigDir H := { s with saved := none }

/-- A configuration is put in place. -/
def install (config : H) (s : ConfigDir H) : ConfigDir H := { s with live := some config }

/-- The helper reports ok for a request, which was made for the live configuration. -/
def report (s : ConfigDir H) : ConfigDir H := { s with applied := s.live.toList ++ s.applied }

/-- The saved hash is that of the live configuration only if that is applied. -/
def Asks (s : ConfigDir H) : Prop :=
  ∀ config, s.saved = some config → s.live = some config → config ∈ s.applied

end ConfigDir

/-! ## Answers -/

/-- An exception, as far as the clauses tell them apart. -/
inductive Exc
  | timeoutError
  /-- An `OSError` that is no `TimeoutError`. -/
  | osError
  | jsonDecodeError
  | unicodeDecodeError
  | deploymentError
  /-- The deploy timer's, which is an `Exception`. -/
  | deploymentTimeoutExpired
  /-- Any other `Exception`. -/
  | other
  deriving DecidableEq, Repr

/-- How a call ends. One that raises may have done its work before. -/
inductive Answer (α : Type)
  | done (a : α)
  | raised (e : Exc) (after : Bool)
  deriving DecidableEq, Repr

/-- The call has done its work. -/
def Answer.works {α : Type} : Answer α → Bool
  | .done _ => true
  | .raised _ after => after

/-- The call returned. -/
def Answer.returned {α : Type} : Answer α → Bool
  | .done _ => true
  | .raised _ _ => false

/-- What the helper's line is. -/
inductive Reply
  /-- A JSON object, whose `ok` is true or not. -/
  | object (ok : Bool)
  /-- Another JSON value, which has no `get`. -/
  | other
  deriving DecidableEq, Repr

/-- The answers to the calls of one `_sync_config_if_needed`. -/
structure SyncWorld (H : Type) where
  /-- The checkout has a `fraises.yaml`. -/
  appConfig : Bool := true
  /-- The configuration that the sync puts in place. -/
  config : H
  validated : Answer Unit := .done ()
  copied : Answer Unit := .done ()
  /-- `has_changed` can read the files. -/
  compared : Answer Unit := .done ()
  regenerated : Answer Unit := .done ()
  hashSaved : Answer Unit := .done ()
  /-- A write of the hash that fails leaves an empty file. -/
  truncated : Bool := false
  renderedBySaved : Answer Unit := .done ()
  projectName : Answer Unit := .done ()
  /-- What precedes the request: the path of the socket, and `derived_timeout`. -/
  prepared : Answer Unit := .done ()
  /-- The exchange over the socket. One that raises may have been reported ok before. -/
  exchanged : Answer Reply := .done (.object true)
  /-- `_record_deferred_restarts`. -/
  recorded : Answer Unit := .done ()
  /-- `forget_hash`. -/
  forgotten : Answer Unit := .done ()
  /-- `_refresh_config_from_synced_file`. -/
  refreshed : Answer Unit := .done ()

/-- The helper reports ok for the request of the sync. -/
def SyncWorld.reportsOk (w : SyncWorld H) : Bool :=
  match w.exchanged with
  | .done (.object ok) => ok
  | .done .other => false
  | .raised _ after => after

/-! ## The sync -/

/-- A piece of a sync. -/
abbrev Sync (H α : Type) := Program (Law.any : Law (ConfigDir H) Exc) α

/-- A call with its answer. `effect` is its work, and `part` what it leaves when it fails first. -/
def Answer.ask {α : Type} (x : Answer α) (effect part : ConfigDir H → ConfigDir H := id) :
    Sync H α where
  run s := match x with
    | .done a => (.ok a, effect s)
    | .raised e after => (.error e, if after then effect s else part s)
  lawful _ := trivial

open Program

variable (w : SyncWorld H)

/-- `ConfigWatcher(...).forget_hash()`. -/
def forgetHash : Sync H Unit := w.forgotten.ask ConfigDir.forgetHash

/-- The `except` clauses of the request. -/
def requestFailed : Exc → Sync H Bool
  | .timeoutError => raise .deploymentError
  | .osError | .jsonDecodeError | .unicodeDecodeError => do
    forgetHash w
    raise .deploymentError
  | e => raise e

/-- `_try_scaffold_install_via_socket`: whether the helper's return code is 0. -/
def tryScaffoldInstallViaSocket : Sync H Bool := do
  tryCatch w.projectName.ask fun _ => do
    forgetHash w
    raise .deploymentError
  w.prepared.ask
  tryCatch
    (do
      let reply ← w.exchanged.ask (fun s => if w.reportsOk then s.report else s)
      match reply with
      | .object ok => pure ok
      | .other => raise .other)
    (requestFailed w)

/-- `_install_scaffold`. -/
def installScaffold : Sync H Unit := do
  let ok ← tryScaffoldInstallViaSocket w
  w.recorded.ask
  if ok then pure () else do
    forgetHash w
    raise .deploymentError

/-- `_detect_config_changes`: a change is assumed when none can be detected. -/
def detectConfigChanges [DecidableEq H] : Sync H Bool :=
  tryCatch
    (do
      w.compared.ask
      read ConfigDir.hasChanged)
    fun _ => pure true

/-- `_sync_config_if_needed`. A render by another version of fraisier installs nothing. -/
def syncConfigIfNeeded [DecidableEq H] : Sync H Unit :=
  if w.appConfig then do
    w.validated.ask
    w.copied.ask (ConfigDir.install w.config)
    let changed ← detectConfigChanges w
    if changed then do
      w.regenerated.ask
      w.hashSaved.ask ConfigDir.saveHash fun s => if w.truncated then s.forgetHash else s
      w.renderedBySaved.ask
      installScaffold w
    w.refreshed.ask
  else pure ()

/-! ## Deploys -/

/-- What one deploy comes to, as far as it touches the configuration. -/
structure DeployWorld (H : Type) where
  /-- The sync from the cached worktree, whose failure is logged, if the deploy gets to it. -/
  prePull : Option (SyncWorld H) := none
  /-- The sync after the checkout. -/
  postPull : Option (SyncWorld H) := none
  /-- What is live after `_restore_synced_config`, if the deploy fails and puts back what it
  replaced. -/
  restored : Option (Option H) := none

/-- The directory that a deploy leaves. -/
def deploy [DecidableEq H] (s : ConfigDir H) (d : DeployWorld H) : ConfigDir H :=
  let sync (s : ConfigDir H) (w : Option (SyncWorld H)) := match w with
    | some w => ((syncConfigIfNeeded w).run s).2
    | none => s
  let s := sync (sync s d.prePull) d.postPull
  match d.restored with
  | some live => { s with live }
  | none => s

/-- The system of the deploys to one server. -/
def deploys [DecidableEq H] : System (ConfigDir H) (DeployWorld H) := ⟨fun s d => some (deploy s d)⟩

/-! ## The saved hash -/

/-- An exception that `_try_scaffold_install_via_socket` forgets the hash for. -/
def Exc.forgets : Exc → Bool
  | .osError | .jsonDecodeError | .unicodeDecodeError => true
  | _ => false

/-- A sync that finds a change saves the hash. -/
def SyncWorld.saves : Bool :=
  w.appConfig && w.validated.returned && w.copied.returned && w.regenerated.returned &&
    w.hashSaved.works

/-- The request gets the helper's ok, or the hash is forgotten. -/
def SyncWorld.RequestForgets : Prop :=
  match w.projectName with
  | .done _ => w.prepared.returned = true ∧ match w.exchanged with
    | .done (.object ok) => ok = true ∨ w.recorded.returned = true ∧ w.forgotten.works = true
    | .done .other => False
    | .raised e after => after = true ∨ e.forgets = true ∧ w.forgotten.works = true
  | .raised _ _ => w.forgotten.works = true

/-- Nothing stops a sync between the save of the hash and the helper's ok, but a branch on which the
hash is forgotten. -/
def SyncWorld.Forgets : Prop :=
  w.saves = true →
    w.hashSaved.returned = true ∧ w.renderedBySaved.returned = true ∧ w.RequestForgets

/-- All the syncs of a deploy forget the hash of a request that got no ok. -/
def DeployWorld.Forgets (d : DeployWorld H) : Prop :=
  ∀ w, d.prePull = some w ∨ d.postPull = some w → w.Forgets

/-- The saved hash is that of a configuration that the helper has reported ok for. -/
def ConfigDir.Applied (s : ConfigDir H) : Prop :=
  ∀ config, s.saved = some config → config ∈ s.applied

variable {w} {s t : ConfigDir H}

/-- Where no hash is kept, the kept hash is one that was applied. -/
theorem ConfigDir.applied_forgetHash : s.forgetHash.Applied := nofun

/-- What the helper reports ok for is the live configuration. -/
theorem ConfigDir.applied_report (hs : s.saved = s.live) : s.report.Applied := by
  intro config hconfig
  have hlive : s.live = some config := hs.symm.trans hconfig
  simp [ConfigDir.report, hlive]

/-- The rule of calls. -/
theorem ends_ask {α : Type} {x : Answer α} {effect part : ConfigDir H → ConfigDir H}
    {Q : α → ConfigDir H → Prop} {E : Exc → ConfigDir H → Prop}
    (hdone : ∀ a, x = .done a → Q a (effect s))
    (hafter : ∀ e, x = .raised e true → E e (effect s))
    (hbefore : ∀ e, x = .raised e false → E e (part s)) : (x.ask effect part).Ends s Q E := by
  cases x with
  | done a => exact hdone a rfl
  | raised e after => cases after with
    | true => exact hafter e rfl
    | false => exact hbefore e rfl

/-- A call that changes nothing. -/
theorem ends_ask_id {α : Type} {x : Answer α} {Q : α → ConfigDir H → Prop}
    {E : Exc → ConfigDir H → Prop} (hdone : ∀ a, x = .done a → Q a s)
    (hraised : ∀ e after, x = .raised e after → E e s) : (x.ask : Sync H α).Ends s Q E :=
  ends_ask hdone (fun e => hraised e true) fun e => hraised e false

/-- A branch that forgets the hash, and then raises. -/
theorem forgets_then_raises {α : Type} {Q : α → ConfigDir H → Prop}
    (hs : s.Applied ∨ w.forgotten.works = true) :
    (do forgetHash w; raise .deploymentError : Sync H α).Ends s Q fun _ t => t.Applied := by
  rw [ends_bind]
  refine ends_ask (fun _ _ => ConfigDir.applied_forgetHash)
    (fun _ _ => ConfigDir.applied_forgetHash) fun e he => ?_
  obtain hs | hforgotten := hs
  · exact hs
  · rw [he] at hforgotten
    cases hforgotten

/-- What becomes of the hash when the request raises. -/
theorem requestFailed_applied {e : Exc} {Q : Bool → ConfigDir H → Prop}
    (hs : s.Applied ∨ e.forgets = true ∧ w.forgotten.works = true) :
    (requestFailed w e).Ends s Q fun _ t => t.Applied := by
  have hraise : ∀ e' : Exc, e.forgets = false →
      (raise e' : Sync H Bool).Ends s Q fun _ t => t.Applied := by
    intro e' he
    refine ends_raise.mpr (hs.resolve_right fun h => ?_)
    rw [he] at h
    cases h.1
  have hforget := forgets_then_raises (α := Bool) (Q := Q) (hs.imp_right And.right)
  cases e with
  | osError => exact hforget
  | jsonDecodeError => exact hforget
  | unicodeDecodeError => exact hforget
  | _ => exact hraise _ rfl

/-- The request: the helper reports ok, or not, or the hash is forgotten. -/
theorem tryScaffoldInstallViaSocket_forgets (hs : s.saved = s.live) (hw : w.RequestForgets) :
    (tryScaffoldInstallViaSocket w).Ends s
      (fun ok t => ok = true ∧ t.Applied ∨
        ok = false ∧ w.recorded.returned = true ∧ w.forgotten.works = true)
      fun _ t => t.Applied := by
  unfold tryScaffoldInstallViaSocket
  rw [ends_bind, ends_tryCatch]
  -- The request has a name, or it is not made.
  refine ends_ask_id (fun _ hname => ?_) fun _ _ hname => ?_
  · simp only [SyncWorld.RequestForgets, hname] at hw
    obtain ⟨hprepared, hexchanged⟩ := hw
    rw [ends_bind]
    refine ends_ask_id (fun _ _ => ?_) fun _ _ he => ?_
    · rw [ends_tryCatch, ends_bind]
      refine ends_ask (fun reply hreply => ?_) (fun e he => ?_) fun e he => ?_
      · simp only [hreply] at hexchanged
        cases reply with
        | object ok => cases ok with
          | true =>
            refine ends_pure.mpr (.inl ⟨rfl, ?_⟩)
            rw [if_pos (by rw [SyncWorld.reportsOk, hreply])]
            exact ConfigDir.applied_report hs
          | false => exact ends_pure.mpr (.inr ⟨rfl, by simpa using hexchanged⟩)
        | other => exact hexchanged.elim
      · refine requestFailed_applied (.inl ?_)
        rw [if_pos (by rw [SyncWorld.reportsOk, he])]
        exact ConfigDir.applied_report hs
      · simp only [he] at hexchanged
        exact requestFailed_applied (.inr (by simpa using hexchanged))
    · rw [he] at hprepared
      cases hprepared
  · simp only [SyncWorld.RequestForgets, hname] at hw
    exact forgets_then_raises (.inr hw)

/-- The install: the saved hash is that of a configuration that is applied. -/
theorem installScaffold_applied (hs : s.saved = s.live) (hw : w.RequestForgets) :
    (installScaffold w).Ends s (fun _ t => t.Applied) fun _ t => t.Applied := by
  unfold installScaffold
  rw [ends_bind]
  refine (tryScaffoldInstallViaSocket_forgets hs hw).mono (fun ok t ht => ?_) fun _ _ => id
  rw [ends_bind]
  obtain ⟨rfl, ht⟩ | ⟨rfl, hrecorded, hforgotten⟩ := ht
  · exact ends_ask_id (fun _ _ => ht) fun _ _ _ => ht
  · refine ends_ask_id (fun _ _ => forgets_then_raises (.inr hforgotten)) fun e _ he => ?_
    rw [he] at hrecorded
    cases hrecorded

variable [DecidableEq H]

/-- A sync leaves a saved hash of a configuration that is applied. -/
theorem syncConfigIfNeeded_applied (hs : s.Applied) (hw : w.Forgets) :
    (syncConfigIfNeeded w).Ends s (fun _ t => t.Applied) fun _ t => t.Applied := by
  unfold syncConfigIfNeeded
  refine ends_ite.mpr ⟨fun happ => ?_, fun _ => hs⟩
  rw [ends_bind]
  refine ends_ask_id (fun _ hvalidated => ?_) fun _ _ _ => hs
  rw [ends_bind]
  refine ends_ask (fun _ hcopied => ?_) (fun _ _ => hs) fun _ _ => hs
  rw [ends_bind]
  -- Comparing the configurations changes nothing.
  have hdetect : (detectConfigChanges w).Ends (s.install w.config)
      (fun _ t => t = s.install w.config) fun _ _ => False := by
    unfold detectConfigChanges
    rw [ends_tryCatch, ends_bind]
    exact ends_ask_id (fun _ _ => rfl) fun _ _ _ => rfl
  refine hdetect.mono (fun changed t ht => ?_) fun _ _ => False.elim
  subst ht
  -- A reload of the daemon changes no hash.
  have hrefreshed : ∀ t : ConfigDir H, t.Applied →
      (w.refreshed.ask : Sync H Unit).Ends t (fun _ t => t.Applied) fun _ t => t.Applied :=
    fun t ht => ends_ask_id (fun _ _ => ht) fun _ _ _ => ht
  dsimp only
  refine ends_ite.mpr ⟨fun _ => ?_, fun _ => hrefreshed _ hs⟩
  rw [ends_bind]
  refine ends_ask_id (fun _ hregenerated => ?_) fun _ _ _ => hs
  -- A hash that is saved is saved of a sync that runs to its end.
  have hsaves : w.hashSaved.works = true →
      w.hashSaved.returned = true ∧ w.renderedBySaved.returned = true ∧ w.RequestForgets := by
    intro hworks
    exact hw (by simp [SyncWorld.saves, happ, hvalidated, hcopied, hregenerated, hworks,
      Answer.returned])
  rw [ends_bind]
  refine ends_ask (fun _ hsaved => ?_) (fun _ hsaved => ?_) fun _ _ => ?_
  · obtain ⟨-, hrendered, hrequest⟩ := hsaves (by rw [hsaved]; rfl)
    rw [ends_bind]
    refine ends_ask_id (fun _ _ => ?_) fun _ _ he => ?_
    · rw [ends_bind]
      exact (installScaffold_applied rfl hrequest).mono (fun _ t ht => hrefreshed t ht) fun _ _ => id
    · rw [he] at hrendered
      cases hrendered
  · have hreturned := (hsaves (by rw [hsaved]; rfl)).1
    rw [hsaved] at hreturned
    cases hreturned
  -- A write that fails may still have cut the file off.
  · by_cases htruncated : w.truncated = true
    · rw [if_pos htruncated]
      exact ConfigDir.applied_forgetHash
    · rw [if_neg htruncated]
      exact hs

/-! ## Every run of deploys -/

/-- A deploy all of whose syncs forget the hash leaves that of a configuration that is applied. -/
theorem deploy_applied {d : DeployWorld H} (hs : s.Applied) (hd : d.Forgets) :
    (deploy s d).Applied := by
  -- The directory is synced twice, each time or not.
  have hsync : ∀ (o : Option (SyncWorld H)) (s : ConfigDir H), s.Applied →
      (∀ w, o = some w → w.Forgets) → (match o with
        | some w => ((syncConfigIfNeeded w).run s).2
        | none => s).Applied := by
    intro o s hs ho
    cases o with
    | none => exact hs
    | some w => exact ends_state.mp (syncConfigIfNeeded_applied hs (ho w rfl))
  have hboth := hsync d.postPull _ (hsync d.prePull s hs fun w h => hd w (.inl h))
    fun w h => hd w (.inr h)
  unfold deploy
  cases d.restored with
  | none => exact hboth
  | some live => exact hboth

/-- In a run of deploys that forget the hash of a request that got no ok, the saved hash is that of
the live configuration only if the helper has reported ok for it, and so a configuration that is not
applied is asked for again. -/
theorem saved_hash_applied {ds : List (DeployWorld H)} (hs : s.saved = none)
    (h : deploys.Runs (fun _ d => d.Forgets) s ds t) :
    t.Asks ∧ ∀ config, config ∉ t.applied → (t.install config).hasChanged = true := by
  have hfresh : s.Applied := by
    intro config hconfig
    rw [hs] at hconfig
    cases hconfig
  have happlied : t.Applied := by
    -- Induction on the deploys of the run.
    refine h.invariant (fun s d t hs hd ht => ?_) hfresh
    exact Option.some.inj ht ▸ deploy_applied hs hd
  refine ⟨fun config hconfig _ => happlied config hconfig, fun config hconfig => ?_⟩
  cases hsaved : t.saved with
  | none => simp [ConfigDir.hasChanged, ConfigDir.install, hsaved]
  | some previous =>
    have hne : config ≠ previous := fun he => hconfig (he ▸ happlied previous hsaved)
    simp [ConfigDir.hasChanged, ConfigDir.install, hsaved, hne]

/-- A refused install, and the next deploy, which asks again. -/
theorem saved_hash_applied_refused :
    ∃ t : ConfigDir ℕ, t.Asks ∧ t.saved = some 1 ∧ t.applied = [1] := by
  have hrun : deploys.Runs (fun _ d => d.Forgets) ({} : ConfigDir ℕ)
      [{ postPull := some { config := 1, exchanged := .done (.object false) } },
        { postPull := some { config := 1 } }] _ :=
    .cons (by rintro w (h | h) <;> cases h; exact fun _ => ⟨rfl, rfl, rfl, .inr ⟨rfl, rfl⟩⟩) rfl <|
    .cons (by rintro w (h | h) <;> cases h; exact fun _ => ⟨rfl, rfl, rfl, .inl rfl⟩) rfl <| .nil _
  exact ⟨_, (saved_hash_applied rfl hrun).1, rfl, rfl⟩

/-- The helper does not answer the request of the first sync in time; the second one finds no
change, and the deploy goes on. -/
theorem saved_hash_unapplied :
    ¬∀ ds t, deploys.Runs System.Any ({} : ConfigDir ℕ) ds t → t.Asks := by
  intro h
  let d : DeployWorld ℕ :=
    { prePull := some { config := 1, exchanged := .raised .timeoutError false }
      postPull := some { config := 1 } }
  have hasks := h [d] _ (.cons trivial rfl (.nil _))
  exact absurd (hasks 1 rfl rfl) (by decide : (1 : ℕ) ∉ [])

end Fraisier.Config
