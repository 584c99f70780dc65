import Mathlib.Data.Int.Order.Basic
import Fraisier.Lib.System

/-!
# The draining flag

`drain_restart.py` and `locking.py`: a restart worker touches `.draining` in the lock directory,
waits for the deploys to end, removes the flag and sends its restart. The webhook asks `is_draining`
at every dispatch, and refuses while the flag counts: a flag older than `max_age_s` has lost its
authority, and a webhook that starts removes the flag it finds.

The flag is one file for both kinds of worker. `drain_refuses` says what a worker's own flag does:
from the moment it is raised every dispatch is refused, while it is young enough, until a worker
lowers it or the webhook starts. A worker lowers its flag before it sends its restart.
-/

namespace Fraisier.Restart

open Fraisier.Lib

variable {P : Type}

/-! ## Workers -/

/-- The two kinds of worker that drain: `_run_upgrade` and `run_deferred_restarts`. -/
inductive WorkerKind
  | selfUpgrade | deferredRestart
  deriving DecidableEq, Repr

/-- How a worker leaves the block of its flag. Only a worker that drained goes on to its restart;
the last four are ends of a self-upgrade's installation, and of a wait that took too long. -/
inductive DrainEnd
  | drained | drainTimeout | installFailed | brokenEntrypoint | noSocket
  deriving DecidableEq, Repr

/-- Where a worker is. -/
inductive DrainStage
  | idle
  /-- In the block of `draining_flag`: it installs, settles and waits. -/
  | draining (kind : WorkerKind)
  /-- Out of the block, drained, with the restart still to be sent. -/
  | restarting (kind : WorkerKind)
  /-- Finished, and whether it sent its restart. -/
  | finished (sent : Bool)
  deriving DecidableEq, Repr

/-- The flag and the workers. -/
structure Drains (P : Type) where
  clock : ℤ
  /-- `.draining`, with the time it was last touched. -/
  flag : Option ℤ
  stage : P → DrainStage

/-- What happens next. -/
inductive DrainStep (P : Type)
  /-- Time passes. -/
  | tick (d : ℕ)
  /-- A worker enters the block: it touches the flag. -/
  | raise (p : P) (kind : WorkerKind)
  /-- It leaves the block, and removes the flag or fails to. -/
  | lower (p : P) (how : DrainEnd) (removed : Bool)
  /-- It sends its restart. -/
  | send (p : P)
  /-- It is killed, with its flag left where it is. -/
  | kill (p : P)
  /-- The webhook starts, and clears the flag or fails to. -/
  | start (cleared : Bool)
  deriving DecidableEq, Repr

section Steps

variable [DecidableEq P]

/-- One step of the workers. -/
def Drains.next (s : Drains P) : DrainStep P → Option (Drains P)
  | .tick d => some { s with clock := s.clock + d }
  | .raise p kind => match s.stage p with
    | .idle => some { s with
        flag := some s.clock
        stage := Function.update s.stage p (.draining kind) }
    | _ => none
  | .lower p how removed => match s.stage p with
    | .draining kind =>
      if removed then some { s with
        flag := none
        stage := Function.update s.stage p
          (if how = .drained then .restarting kind else .finished false) }
      -- an exception of the unlink ends the worker
      else some { s with stage := Function.update s.stage p (.finished false) }
    | _ => none
  | .send p => match s.stage p with
    | .restarting _ => some { s with stage := Function.update s.stage p (.finished true) }
    | _ => none
  | .kill p => some { s with stage := Function.update s.stage p (.finished false) }
  | .start cleared => some { s with flag := if cleared then none else s.flag }

/-- The system of the workers of one lock directory. -/
def drains : System (Drains P) (DrainStep P) := ⟨Drains.next⟩

end Steps

/-! ## The webhook's decision -/

/-- `_DrainingFlag`. -/
structure DrainingFlag where
  present : Bool
  age : Option ℤ
  deriving DecidableEq, Repr

/-- `_read_draining_flag`. A flag that cannot be read is present, of no known age. -/
def readDrainingFlag (flag : Option ℤ) (now : ℤ) (readable : Bool) : DrainingFlag :=
  if readable then
    match flag with
    | none => { present := false, age := none }
    | some mtime => { present := true, age := some (max 0 (now - mtime)) }
  else { present := true, age := none }

/-- `is_draining`. -/
def isDraining (flag : DrainingFlag) (maxAge : Option ℤ) : Bool :=
  if !flag.present then false
  else match maxAge, flag.age with
    | some m, some age => age ≤ m
    | _, _ => true

/-- The check of `_dispatch_deployment`: whether a dispatch is refused. Without a usable lock
directory there is no check. -/
def Drains.refuses (s : Drains P) (lockDir readable : Bool) (maxAge : ℤ) : Bool :=
  lockDir && isDraining (readDrainingFlag s.flag s.clock readable) (some maxAge)

/-! ## One worker's flag -/

/-- The step neither lowers a flag nor starts the webhook. -/
def LeavesFlag (_ : Drains P) : DrainStep P → Prop
  | .lower _ _ _ | .start _ => False
  | _ => True

/-- The flag was touched at `since` or later, and time has not gone back. -/
structure Drains.RaisedSince (since : ℤ) (s : Drains P) : Prop where
  flag : ∃ mtime, s.flag = some mtime ∧ since ≤ mtime
  clock : since ≤ s.clock

/-- A flag that is young enough refuses. -/
theorem Drains.RaisedSince.refuses {since maxAge : ℤ} {s : Drains P} (h : s.RaisedSince since)
    (hage : s.clock - since ≤ maxAge) (readable : Bool) : s.refuses true readable maxAge = true := by
  obtain ⟨⟨mtime, hflag, hmtime⟩, hclock⟩ := h
  have hle : max 0 (s.clock - mtime) ≤ maxAge := max_le (by omega) (by omega)
  cases readable with
  | false => rfl
  | true => simp [Drains.refuses, readDrainingFlag, isDraining, hflag, hle]

/-- The flag is up, and its time is not in the future. -/
def Drains.Flagged (s : Drains P) : Prop := ∃ mtime, s.flag = some mtime ∧ mtime ≤ s.clock

/-- A flag that was touched not too long ago refuses. -/
theorem Drains.Flagged.refuses {maxAge : ℤ} {s : Drains P} (h : s.Flagged)
    (hage : ∀ mtime, s.flag = some mtime → s.clock - mtime ≤ maxAge) (readable : Bool) :
    s.refuses true readable maxAge = true := by
  obtain ⟨mtime, hflag, hmtime⟩ := h
  have hyoung := hage mtime hflag
  have hle : max 0 (s.clock - mtime) ≤ maxAge := max_le (by omega) hyoung
  cases readable with
  | false => rfl
  | true => simp [Drains.refuses, readDrainingFlag, isDraining, hflag, hle]

/-- The step does not remove the flag. -/
def KeepsFlag : DrainStep P → Prop
  | .lower _ _ removed => removed = false
  | .start cleared => cleared = false
  | _ => True

variable [DecidableEq P]

/-- A flag that nothing removes stays up. -/
theorem Drains.Flagged.next {s t : Drains P} {i : DrainStep P} (h : s.Flagged) (hi : KeepsFlag i)
    (hn : s.next i = some t) : t.Flagged := by
  obtain ⟨mtime, hflag, hmtime⟩ := h
  -- The cases are the steps.
  cases i with
  | tick d =>
    obtain rfl := Option.some.inj hn
    refine ⟨mtime, hflag, ?_⟩
    show mtime ≤ s.clock + d
    omega
  | raise p kind =>
    simp only [Drains.next] at hn
    split at hn
    · obtain rfl := Option.some.inj hn
      exact ⟨s.clock, rfl, le_rfl⟩
    · cases hn
  | lower p how removed =>
    obtain rfl : removed = false := hi
    simp only [Drains.next] at hn
    split at hn
    · obtain rfl := Option.some.inj hn
      exact ⟨mtime, hflag, hmtime⟩
    · cases hn
  | send p =>
    simp only [Drains.next] at hn
    split at hn
    · obtain rfl := Option.some.inj hn
      exact ⟨mtime, hflag, hmtime⟩
    · cases hn
  | kill p =>
    obtain rfl := Option.some.inj hn
    exact ⟨mtime, hflag, hmtime⟩
  | start cleared =>
    obtain rfl : cleared = false := hi
    obtain rfl := Option.some.inj hn
    exact ⟨mtime, hflag, hmtime⟩

/-- One step that leaves the flag. -/
theorem Drains.RaisedSince.next {since : ℤ} {s t : Drains P} {i : DrainStep P}
    (h : s.RaisedSince since) (hi : LeavesFlag s i) (hn : s.next i = some t) :
    t.RaisedSince since := by
  obtain ⟨⟨mtime, hflag, hmtime⟩, hclock⟩ := h
  -- The cases are the steps.
  cases i with
  | tick d =>
    obtain rfl := Option.some.inj hn
    refine ⟨⟨mtime, hflag, hmtime⟩, ?_⟩
    show since ≤ s.clock + d
    omega
  | raise p kind =>
    simp only [Drains.next] at hn
    split at hn
    · obtain rfl := Option.some.inj hn
      exact ⟨⟨s.clock, rfl, hclock⟩, hclock⟩
    · cases hn
  | lower p how removed => exact hi.elim
  | send p =>
    simp only [Drains.next] at hn
    split at hn
    · obtain rfl := Option.some.inj hn
      exact ⟨⟨mtime, hflag, hmtime⟩, hclock⟩
    · cases hn
  | kill p =>
    obtain rfl := Option.some.inj hn
    exact ⟨⟨mtime, hflag, hmtime⟩, hclock⟩
  | start cleared => exact hi.elim

/-- From the moment a worker raises the flag, every dispatch is refused that is decided within the
flag's maximal age, until a worker leaves its block or the webhook starts. -/
theorem drain_refuses {s s' t : Drains P} {is : List (DrainStep P)} {p : P} {kind : WorkerKind}
    {maxAge : ℤ} (hraise : s.next (.raise p kind) = some s') (hr : drains.Runs LeavesFlag s' is t)
    (hage : t.clock - s'.clock ≤ maxAge) (readable : Bool) : t.refuses true readable maxAge = true := by
  have hraised : s'.RaisedSince s'.clock := by
    simp only [Drains.next] at hraise
    split at hraise
    · obtain rfl := Option.some.inj hraise
      exact ⟨⟨s.clock, rfl, le_rfl⟩, le_rfl⟩
    · cases hraise
  exact (hr.invariant (fun _ _ _ h hi hn => h.next hi hn) hraised).refuses hage readable

/-! ## Between the flag and the restart -/

/-- No worker has started. -/
def noDrains : Drains Bool where
  clock := 0
  flag := none
  stage _ := .idle

/-- Three dispatches that are not refused though a worker has raised the flag and not sent its
restart: it has drained and removed its flag; its flag is past its maximal age; the webhook has been
started meanwhile. -/
theorem dispatched_before_restart :
    (∃ t, drains.Runs System.Any noDrains
        [.raise false .selfUpgrade, .tick 5, .lower false .drained true] t ∧
      t.stage false = .restarting .selfUpgrade ∧ t.refuses true true 3600 = false) ∧
    (∃ t, drains.Runs System.Any noDrains [.raise false .selfUpgrade, .tick 3601] t ∧
      t.stage false = .draining .selfUpgrade ∧ t.refuses true true 3600 = false) ∧
    ∃ t, drains.Runs System.Any noDrains [.raise false .selfUpgrade, .start true] t ∧
      t.stage false = .draining .selfUpgrade ∧ t.refuses true true 3600 = false := by
  have hlowered : (drains.run noDrains
      [.raise false .selfUpgrade, .tick 5, .lower false .drained true]).any (fun t => decide
        (t.stage false = .restarting .selfUpgrade ∧ t.refuses true true 3600 = false)) = true := by
    decide
  have haged : (drains.run noDrains [.raise false .selfUpgrade, .tick 3601]).any (fun t => decide
        (t.stage false = .draining .selfUpgrade ∧ t.refuses true true 3600 = false)) = true := by
    decide
  have hstarted : (drains.run noDrains [.raise false .selfUpgrade, .start true]).any (fun t => decide
        (t.stage false = .draining .selfUpgrade ∧ t.refuses true true 3600 = false)) = true := by
    decide
  exact ⟨System.exists_run hlowered, System.exists_run haged, System.exists_run hstarted⟩

/-- A sample run refuses while it drains. -/
theorem drain_refuses_while_waiting :
    ∃ t, drains.Runs LeavesFlag { noDrains with
        flag := some 0
        stage := Function.update noDrains.stage false (.draining .selfUpgrade) }
        [.tick 5, .raise true .deferredRestart] t ∧ t.refuses true true 3600 = true := by
  obtain ⟨t, hr, hclock⟩ : ∃ t, drains.Runs LeavesFlag { noDrains with
        flag := some 0
        stage := Function.update noDrains.stage false (.draining .selfUpgrade) }
        [.tick 5, .raise true .deferredRestart] t ∧ t.clock - noDrains.clock ≤ 3600 :=
    ⟨_, .cons trivial rfl (.cons trivial rfl (.nil _)), by decide⟩
  exact ⟨t, hr, drain_refuses (s := noDrains) (p := false) rfl hr hclock true⟩

end Fraisier.Restart
