import Mathlib.Data.Nat.Notation
import Fraisier.Lib.System

/-!
# The replay handoff

`replay_handoff.py`: a self-upgrade worker writes `.replay-on-start` and then requests the restart
of the webhook (`_restart_outcome`). The webhook consumes the file when it starts, and replays the
refused dispatches only if it was there (`_replay_refused_dispatches`). The docstring has it that a
restart for any other reason leaves nothing to act on, but a request that fails leaves the file
behind. `replays_are_granted` says that a replay follows a request that succeeded, in every run in
which each worker's request succeeds and no start comes between a worker's handoff and its request.
-/

namespace Fraisier.Restart

open Fraisier.Lib

variable {P T : Type}

/-! ## The file -/

/-- `ReplayHandoff`, less the time of the request. -/
structure ReplayHandoff where
  version : String
  service : String
  deriving DecidableEq, Repr

/-- What is in `.replay-on-start`: a handoff, or a text that is none. -/
inductive MarkerFile
  | handoff (h : ReplayHandoff)
  | garbage
  deriving DecidableEq, Repr

/-- How `record_replay_handoff` ends: an `OSError` is logged, with the file as it was, or cut
short. -/
inductive RecordEnd
  | written | unopened | cutShort
  deriving DecidableEq, Repr

/-- The file after `record_replay_handoff`. -/
def recordReplayHandoff (file : Option MarkerFile) (h : ReplayHandoff) :
    RecordEnd → Option MarkerFile
  | .written => some (.handoff h)
  | .unopened => file
  | .cutShort => some .garbage

/-- `consume_replay_handoff`: the handoff that was read, and the file that is left. It is removed
even when it could not be read. -/
def consumeReplayHandoff (file : Option MarkerFile) (readable removable : Bool) :
    Option ReplayHandoff × Option MarkerFile :=
  let left := if removable then none else file
  match file with
  | some (.handoff h) => (if readable then some h else none, left)
  | _ => (none, left)

/-! ## A start of the webhook -/

/-- What a start of the webhook meets. -/
structure Start (T : Type) where
  /-- The configuration can be loaded. -/
  config : Bool := true
  /-- It names a usable lock directory. -/
  lockDir : Bool := true
  /-- The handoff can be read. -/
  readable : Bool := true
  /-- It can be removed. -/
  removable : Bool := true
  /-- `webhook.replay_refused` is `off`. -/
  off : Bool := false
  /-- What `plan_replays` makes of the refused dispatches. -/
  targets : List T
  deriving DecidableEq, Repr

/-- `_replay_refused_dispatches`: the dispatches that are replayed, and the file that is left. -/
def replayRefusedDispatches (file : Option MarkerFile) (e : Start T) : List T × Option MarkerFile :=
  if e.config && e.lockDir then
    match consumeReplayHandoff file e.readable e.removable with
    | (none, left) => ([], left)
    | (some _, left) => if e.off then ([], left) else (e.targets, left)
  else ([], file)

/-! ## Workers and starts -/

/-- Where a worker is with its restart. -/
inductive RequestStage
  | idle
  /-- The handoff is written, and the restart not requested yet. -/
  | handedOff
  /-- The request has returned `rc`. -/
  | requested (rc : ℕ)
  | killed
  deriving DecidableEq, Repr

/-- The file, the workers, and whether a request has succeeded since the file was last written. -/
structure Handoffs (P : Type) where
  file : Option MarkerFile
  stage : P → RequestStage
  granted : Bool

/-- What happens next. -/
inductive HandoffStep (P T : Type)
  /-- A worker that has drained writes its handoff. -/
  | record (p : P) (h : ReplayHandoff) (how : RecordEnd)
  /-- Its restart request lands, or fails. -/
  | request (p : P) (ok : Bool)
  /-- It is killed. -/
  | kill (p : P)
  /-- The webhook starts, for any reason. -/
  | start (e : Start T)
  deriving DecidableEq, Repr

/-- A step writes the file. -/
def RecordEnd.writes : RecordEnd → Bool
  | .unopened => false
  | _ => true

section Steps

variable [DecidableEq P]

/-- One step of the workers and the webhook. -/
def Handoffs.next (s : Handoffs P) : HandoffStep P T → Option (Handoffs P)
  | .record p h how => match s.stage p with
    | .idle => some
        { file := recordReplayHandoff s.file h how
          stage := Function.update s.stage p .handedOff
          granted := !how.writes && s.granted }
    | _ => none
  | .request p ok => match s.stage p with
    | .handedOff => some { s with
        stage := Function.update s.stage p (.requested (if ok then 0 else 1))
        granted := ok || s.granted }
    | _ => none
  | .kill p => some { s with stage := Function.update s.stage p .killed }
  | .start e => some { s with file := (replayRefusedDispatches s.file e).2 }

/-- The system of the workers and starts of one webhook. -/
def handoffs : System (Handoffs P) (HandoffStep P T) := ⟨Handoffs.next⟩

end Steps

/-! ## Replays that were asked for -/

/-- A start that replays comes after a request that succeeded, since the handoff was written. -/
def Handoffs.Granted (s : Handoffs P) : HandoffStep P T → Prop
  | .start e => (replayRefusedDispatches s.file e).1 ≠ [] → s.granted = true
  | _ => True

/-- Every request succeeds, and between a worker's handoff and its request it is not killed and the
webhook does not start. -/
def Handoffs.Answered (s : Handoffs P) : HandoffStep P T → Prop
  | .request _ ok => ok = true
  | .kill p => s.stage p ≠ .handedOff
  | .start _ => ∀ p, s.stage p ≠ .handedOff
  | _ => True

/-- Nothing was handed off yet. -/
structure Handoffs.Fresh (s : Handoffs P) : Prop where
  file : s.file = none
  stage : ∀ p, s.stage p = .idle

/-- A file that is there was granted, or its worker is about to ask. -/
def Handoffs.Sound (s : Handoffs P) : Prop :=
  s.file ≠ none → s.granted = true ∨ ∃ p, s.stage p = .handedOff

/-- A start that replays has found a file. -/
theorem file_of_replay {file : Option MarkerFile} {e : Start T}
    (h : (replayRefusedDispatches file e).1 ≠ []) : file ≠ none := by
  rintro rfl
  refine h ?_
  unfold replayRefusedDispatches consumeReplayHandoff
  split <;> rfl

/-- A start leaves no file that it did not find. -/
theorem file_of_left {file : Option MarkerFile} {e : Start T}
    (h : (replayRefusedDispatches file e).2 ≠ none) : file ≠ none := by
  rintro rfl
  refine h ?_
  unfold replayRefusedDispatches consumeReplayHandoff
  split
  · cases e.removable <;> rfl
  · rfl

/-- A start that replays, in a state in which no worker is about to ask. -/
theorem Handoffs.Sound.granted {s : Handoffs P} {i : HandoffStep P T} (h : s.Sound)
    (hi : s.Answered i) : s.Granted i := by
  cases i with
  | start e =>
    intro hreplay
    have hfile : s.file ≠ none := file_of_replay hreplay
    obtain hgranted | ⟨p, hp⟩ := h hfile
    · exact hgranted
    · exact absurd hp (hi p)
  | record | request | kill => trivial

variable [DecidableEq P]

/-- One step in which requests are answered. -/
theorem Handoffs.Sound.next {s t : Handoffs P} {i : HandoffStep P T} (h : s.Sound)
    (hi : s.Answered i) (hn : s.next i = some t) : t.Sound := by
  -- The cases are the steps.
  cases i with
  | record p v how =>
    simp only [Handoffs.next] at hn
    split at hn
    · obtain rfl := Option.some.inj hn
      exact fun _ => .inr ⟨p, Function.update_self ..⟩
    · cases hn
  | request p ok =>
    obtain rfl : ok = true := hi
    simp only [Handoffs.next] at hn
    split at hn
    · obtain rfl := Option.some.inj hn
      exact fun _ => .inl rfl
    · cases hn
  | kill p =>
    obtain rfl := Option.some.inj hn
    -- Another process than the killed one asks for the restart.
    intro hfile
    refine (h hfile).imp_right fun ⟨q, hq⟩ => ⟨q, ?_⟩
    have hqp : q ≠ p := by
      rintro rfl
      exact hi hq
    exact (Function.update_of_ne hqp _ _).trans hq
  | start e =>
    obtain rfl := Option.some.inj hn
    exact fun hfile => h (file_of_left hfile)

/-- In a run from the start in which each worker's request succeeds before the webhook starts, the
refused dispatches are replayed only after a request that succeeded since the handoff was written. -/
theorem replays_are_granted {s t : Handoffs P} {is : List (HandoffStep P T)} (hs : s.Fresh)
    (hr : handoffs.Runs Handoffs.Answered s is t) : handoffs.Runs Handoffs.Granted s is t := by
  have hsound : s.Sound := fun hfile => absurd hs.file hfile
  exact hr.imp (fun _ _ _ h hi hn => h.next hi hn) (fun _ _ h hi => h.granted hi) hsound

/-! ## Runs -/

/-- No worker has run yet. -/
def unasked : Handoffs Unit where
  file := none
  stage _ := .idle
  granted := false

/-- The worker's request fails, and the webhook is started for another reason. -/
def failedRequest : List (HandoffStep Unit ℕ) :=
  [.record () ⟨"2.0.0", "fraisier-webhook"⟩ .written, .request () false]

/-- The webhook's next start. -/
def laterStart : Start ℕ := { targets := [7] }

/-- The handoff of a request that failed is consumed by the next start, which replays. -/
theorem failed_request_is_replayed : ∃ s : Handoffs Unit,
    handoffs.Runs System.Any unasked failedRequest s ∧
      s.stage () = .requested 1 ∧ s.granted = false ∧
      (replayRefusedDispatches s.file laterStart).1 = [7] ∧ ¬s.Granted (.start laterStart) := by
  refine ⟨_, System.runs_of_run rfl, rfl, rfl, rfl, ?_⟩
  intro hgranted
  have h : (false : Bool) = true := hgranted (by decide)
  contradiction

/-- The same upgrade with a request that lands, and the start that is its restart. -/
theorem replays_are_granted_after_restart : ∃ t : Handoffs Unit,
    handoffs.Runs Handoffs.Granted unasked
      [.record () ⟨"2.0.0", "fraisier-webhook"⟩ .written, .request () true, .start laterStart] t := by
  have hrun : ∃ t : Handoffs Unit, handoffs.Runs Handoffs.Answered unasked
      [.record () ⟨"2.0.0", "fraisier-webhook"⟩ .written, .request () true, .start laterStart] t :=
    ⟨_, .cons trivial rfl (.cons rfl rfl (.cons (fun () => by decide) rfl (.nil _)))⟩
  obtain ⟨t, ht⟩ := hrun
  exact ⟨t, replays_are_granted ⟨rfl, fun _ => rfl⟩ ht⟩

end Fraisier.Restart
