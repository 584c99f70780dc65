import Fraisier.Webhook.Ledger

/-!
# What is owed from one start to the next

The lock directory as it is written between the starts of the webhook: the ledger is kept by its
operations, and an upgrade leaves the handoff by `record_replay_handoff`. A `Debt` is what the two
files are for: a bounded queue, and whether it was handed over since a start took the handoff.
`starts_read_debts` says that the bytes of the files are a debt in every run, and
`replays_handed_over` that a start replays something only after a handoff of its own.
-/

namespace Fraisier.Startup

open Fraisier.Lib Fallible Unicode Json
open Deploy.Orphans (Depths)
open Dbops.Receipt (Readers)
open Webhook.Refused (RefusedDispatch)

/-! ## Writing -/

/-- The payload of `record_replay_handoff`. -/
def ReplayHandoff.members (handoff : ReplayHandoff) : List (Text × Json) :=
  [(text "version", .str handoff.version), (text "service", .str handoff.service),
    (text "requested_at", .str handoff.requestedAt)]

/-- The texts have no two halves of a character next to each other, as no text that was decoded has. -/
structure ReplayHandoff.Writable (handoff : ReplayHandoff) : Prop where
  version : Apart handoff.version
  service : Apart handoff.service
  requestedAt : Apart handoff.requestedAt

/-- `record_replay_handoff`. -/
def recordReplayHandoff (handoff : ReplayHandoff) (ends : WriteEnd) (lockDir : LockDir) : LockDir :=
  { lockDir with
    handoff := lockDir.handoff.writeText (dumpsSorted (.obj handoff.members)) ends }

/-- What is done to the files of the lock directory. -/
inductive Step
  /-- `record_refused_dispatch`. -/
  | refuse (entry : RefusedDispatch) (writable : entry.Writable) (ends : WriteEnd)
  /-- `clear_refused_dispatch`. -/
  | discharge (fraise environment : Text) (ends : WriteEnd)
  /-- `record_replay_handoff`. -/
  | handOver (handoff : ReplayHandoff) (writable : handoff.Writable) (ends : WriteEnd)
  /-- The start of the webhook. -/
  | start (mode : ReplayMode)

section

variable {τ : Type} (depths : Depths) (readers : Readers τ)

/-- The lock directory after a step, and what a start read of the ledger, or what was raised. -/
def LockDir.step (lockDir : LockDir) :
    Step → LockDir × Except Dbops.Receipt.Exn (Option (List RefusedDispatch))
  | .refuse entry _ ends => match recordRefusedDispatch depths readers entry ends lockDir.ledger with
    | .error e => (lockDir, throw e)
    | .ok ledger => ({ lockDir with ledger }, pure none)
  | .discharge fraise environment ends =>
    match clearRefusedDispatch depths readers fraise environment ends lockDir.ledger with
    | .error e => (lockDir, throw e)
    | .ok ledger => ({ lockDir with ledger }, pure none)
  | .handOver handoff _ ends => (recordReplayHandoff handoff ends lockDir, pure none)
  | .start mode =>
    let (lockDir, owed) :=
      replayRefusedDispatches depths readers mode (clearStaleDrainFlag lockDir)
    (lockDir, some <$> owed)

/-- What comes of the steps of a run. -/
def LockDir.run : LockDir → List Step → List (Except Dbops.Receipt.Exn (Option (List RefusedDispatch)))
  | _, [] => []
  | lockDir, s :: steps =>
    (lockDir.step depths readers s).2 :: (lockDir.step depths readers s).1.run steps

end

/-! ## Debts -/

/-- What is owed, and whether it was handed over. -/
structure Debt where
  owed : List RefusedDispatch
  handedOver : Bool

/-- Whether a handoff is there after a write of one ends so. -/
def handedOverAfter (handedOver : Bool) : WriteEnd → Bool
  | .written => true
  | .unopened => handedOver
  | .emptied => false

/-- A step of the debt, and what a start is owed. A handoff that cannot be removed is there for the
next start again. -/
def Debt.step (removable : Bool) (d : Debt) : Step → Debt × Option (List RefusedDispatch)
  | .refuse entry writable ends =>
    ({ d with owed := LedgerOp.left d.owed (.record entry writable ends) }, none)
  | .discharge fraise environment ends =>
    ({ d with owed := LedgerOp.left d.owed (.clear fraise environment ends) }, none)
  | .handOver _ _ ends => ({ d with handedOver := handedOverAfter d.handedOver ends }, none)
  | .start mode => ({ d with handedOver := d.handedOver && !removable },
      some (if d.handedOver ∧ mode = .head then d.owed else []))

/-- What the starts of a run are owed. -/
def Debt.run (removable : Bool) : Debt → List Step → List (Option (List RefusedDispatch))
  | _, [] => []
  | d, s :: steps => (d.step removable s).2 :: (d.step removable s).1.run removable steps

/-- Nothing is owed. -/
def Debt.nothing : Debt := { owed := [], handedOver := false }

/-- The lock directory before anything was written to it. -/
def LockDir.fresh (removable : Bool) : LockDir :=
  { draining := false, handoff := .absent, ledger := .absent, removable }

/-! ## What is written is read -/

section Files

variable {τ : Type} {depths : Depths} {readers : Readers τ} {handoff : ReplayHandoff}

/-- A handoff that is written is taken. -/
theorem readHandoff_written (readers : Readers τ) (hdepth : 2 ≤ depths.loads) (h : handoff.Writable) :
    readHandoff depths readers (.bytes ((dumpsSorted (.obj handoff.members)).map (·.val))) =
      .ok (some handoff) := by
  have hkeys : (handoff.members.map Prod.fst).Nodup := of_decide_eq_true rfl
  have hplain : Plain (.obj handoff.members) :=
    ⟨hkeys, apart_text _, h.version, apart_text _, h.service, apart_text _, h.requestedAt, trivial⟩
  have hdepth' : (Json.obj handoff.members).depth ≤ depths.loads := (Nat.le_succ 1).trans hdepth
  rw [readHandoff, load_written hplain hdepth', sortKeys_obj]
  change handoffFrom depths readers (.obj (sortedMembers handoff.members)) = _
  simp only [handoffFrom, textOf]
  rw [getD_sorted hkeys (v := .str handoff.version) rfl, getD_sorted hkeys (v := .str handoff.service)
    rfl, getD_sorted hkeys (v := .str handoff.requestedAt) rfl]
  rfl

end Files

/-! ## The files are a debt -/

section Run

variable {τ : Type} {depths : Depths} {readers : Readers τ} {lockDir : LockDir} {d : Debt}

/-- What is read of the files is the debt. -/
structure Owes (depths : Depths) (readers : Readers τ) (lockDir : LockDir) (d : Debt) : Prop where
  ledger : Reads depths readers lockDir.ledger d.owed
  handoff : ∃ handoff, readHandoff depths readers lockDir.handoff = .ok handoff ∧
    handoff.isSome = d.handedOver

/-- Without the files nothing is owed. -/
theorem owes_fresh (depths : Depths) (readers : Readers τ) (removable : Bool) :
    Owes depths readers (LockDir.fresh removable) Debt.nothing where
  ledger := reads_absent depths readers
  handoff := ⟨none, rfl, rfl⟩

/-- A start reads what is owed, where it was handed over. -/
theorem Owes.start (h : Owes depths readers lockDir d) (mode : ReplayMode) :
    let started := replayRefusedDispatches depths readers mode (clearStaleDrainFlag lockDir)
    started.2 = .ok (if d.handedOver ∧ mode = .head then d.owed else []) ∧
      started.1.removable = lockDir.removable ∧
      Owes depths readers started.1
        { d with handedOver := d.handedOver && !lockDir.removable } := by
  obtain ⟨draining, heq⟩ := clearStaleDrainFlag_eq lockDir
  obtain ⟨handoff, hread, hsome⟩ := h.handoff
  simp only [heq, replayRefusedDispatches, consumeReplayHandoff, unlinkHandoff_eq, hread, h.ledger.read]
  refine ⟨?_, trivial, h.ledger, ?_⟩
  -- Only a handoff that is read makes the start replay.
  · cases handoff with
    | none => simp [← hsome, bind, Except.bind, pure, Except.pure]
    | some handoff =>
      cases mode <;> simp [← hsome, bind, Except.bind, pure, Except.pure]
  -- It is gone afterwards if it can be removed.
  · cases hremovable : lockDir.removable with
    | true => exact ⟨none, rfl, (Bool.and_false _).symm⟩
    | false => exact ⟨handoff, hread, by simpa using hsome⟩

/-- A step of the files is one of the debt. -/
theorem Owes.step (h : Owes depths readers lockDir d) (hdepth : 2 ≤ depths.loads) (s : Step) :
    (lockDir.step depths readers s).2 = .ok (d.step lockDir.removable s).2 ∧
      (lockDir.step depths readers s).1.removable = lockDir.removable ∧
      Owes depths readers (lockDir.step depths readers s).1 (d.step lockDir.removable s).1 := by
  -- By the kind of the step; only a start reads what the others left.
  cases s with
  | refuse entry writable ends =>
    obtain ⟨ledger, hrecorded, hreads⟩ := h.ledger.record hdepth writable ends
    simp only [LockDir.step, hrecorded]
    exact ⟨rfl, trivial, hreads, h.handoff⟩
  | discharge fraise environment ends =>
    obtain ⟨ledger, hcleared, hreads⟩ := h.ledger.clear hdepth fraise environment ends
    simp only [LockDir.step, hcleared]
    exact ⟨rfl, trivial, hreads, h.handoff⟩
  | handOver handoff writable ends =>
    refine ⟨rfl, rfl, h.ledger, ?_⟩
    -- The write ended well, changed nothing, or left an empty file.
    cases ends with
    | written => exact ⟨some handoff, readHandoff_written readers hdepth writable, rfl⟩
    | unopened => exact h.handoff
    | emptied => exact ⟨none, rfl, rfl⟩
  | start mode =>
    obtain ⟨hread, hremovable, howes⟩ := h.start mode
    refine ⟨?_, hremovable, howes⟩
    simp only [LockDir.step, hread]
    rfl

/-- A run over the files is one of the debt. -/
theorem Owes.run (h : Owes depths readers lockDir d) (hdepth : 2 ≤ depths.loads)
    (steps : List Step) : lockDir.run depths readers steps =
      (d.run lockDir.removable steps).map .ok := by
  induction steps generalizing lockDir d with
  | nil => rfl
  | cons s steps ih =>
    obtain ⟨hresult, hremovable, howes⟩ := h.step hdepth s
    have hrest := ih howes
    rw [hremovable] at hrest
    rw [LockDir.run, Debt.run, List.map_cons, hresult, hrest]

end Run

/-! ## Runs -/

section Runs

variable {τ : Type} {depths : Depths}

/-- In every run of refusals, discharges, handoffs and starts, whatever of the writing fails, no start
raises: each reads the queue of what is owed, if it was handed over since the last start, or nothing. -/
theorem starts_read_debts (readers : Readers τ) (hdepth : 2 ≤ depths.loads) (removable : Bool)
    (steps : List Step) : (LockDir.fresh removable).run depths readers steps =
      (Debt.nothing.run removable steps).map .ok :=
  (owes_fresh depths readers removable).run hdepth steps

/-- The handoff of an upgrade. -/
def upgradeHandoff : ReplayHandoff where
  version := text "0.70.0"
  service := text "fraisier-webhook"
  requestedAt := text "2026-01-01"

/-- A refusal and a handoff: the steps of an upgrade up to the start after it. -/
def upgrading : List Step :=
  [.refuse apiRefused writable_apiRefused .written,
    .handOver upgradeHandoff ⟨apart_text _, apart_text _, apart_text _⟩ .written]

/-- Two starts come after it. -/
def upgraded : List Step := upgrading ++ [.start .head, .start .head]

/-- The first start is owed what was refused, and the second nothing. -/
theorem starts_read_debts_upgraded :
    (LockDir.fresh true).run Deploy.Orphans.interpreter noReaders upgraded =
      [.ok none, .ok none, .ok (some [apiRefused]), .ok (some [])] :=
  (starts_read_debts noReaders (by decide) true upgraded).trans rfl

/-- A step starts the webhook. -/
def Step.starts : Step → Bool
  | .start _ => true
  | _ => false

/-- A handoff was written, and no start has come since. -/
def HandedOver (steps : List Step) : Prop :=
  ∃ earlier handoff writable later, steps = earlier ++ .handOver handoff writable .written :: later ∧
    ∀ s ∈ later, s.starts = false

/-- The debt after some steps. -/
def Debt.after (removable : Bool) (d : Debt) (steps : List Step) : Debt :=
  steps.foldl (fun d s => (d.step removable s).1) d

/-- What is owed in a run is owed in its parts. -/
theorem Debt.run_append (removable : Bool) (d : Debt) (before after : List Step) :
    d.run removable (before ++ after) =
      d.run removable before ++ (d.after removable before).run removable after := by
  induction before generalizing d with
  | nil => rfl
  | cons s before ih => exact congrArg _ (ih _)

/-- A step has one result. -/
theorem Debt.length_run (removable : Bool) (d : Debt) (steps : List Step) :
    (d.run removable steps).length = steps.length := by
  induction steps generalizing d with
  | nil => rfl
  | cons s steps ih => exact congrArg Nat.succ (ih _)

/-- Where a handoff can be removed, one that is there has come since the last start: a start takes it,
and no other step but an upgrade's brings one. -/
theorem Debt.handedOver_after {steps : List Step}
    (h : (Debt.nothing.after true steps).handedOver = true) : HandedOver steps := by
  induction steps using List.reverseRecOn with
  | nil => cases h
  | append_singleton steps s ih =>
    -- a handoff from before the last step is there unless that step is a start
    have hearlier : (Debt.nothing.after true steps).handedOver = true → s.starts = false →
        HandedOver (steps ++ [s]) := by
      intro hbefore hs
      obtain ⟨earlier, handoff, writable, later, rfl, hlater⟩ := ih hbefore
      refine ⟨earlier, handoff, writable, later ++ [s], by simp, fun s' hs' => ?_⟩
      rcases List.mem_append.mp hs' with hs' | hs'
      · exact hlater s' hs'
      · rw [List.mem_singleton.mp hs']
        exact hs
    rw [Debt.after, List.foldl_append] at h
    cases s with
    | refuse entry writable ends => exact hearlier h rfl
    | discharge fraise environment ends => exact hearlier h rfl
    | handOver handoff writable ends =>
      cases ends with
      | written => exact ⟨steps, handoff, writable, [], rfl, List.forall_mem_nil _⟩
      | unopened => exact hearlier h rfl
      | emptied => cases h
    | start mode =>
      have hgone : ((Debt.nothing.after true steps).handedOver && !true) = true := h
      rw [Bool.not_true, Bool.and_false] at hgone
      cases hgone

variable {before after : List Step} {mode : ReplayMode} {owed : List RefusedDispatch}

/-- Where a handoff can be removed, a start replays something only if a handoff was written since the
start before it. -/
theorem replays_handed_over (readers : Readers τ) (hdepth : 2 ≤ depths.loads)
    (hstart : ((LockDir.fresh true).run depths readers
      (before ++ .start mode :: after))[before.length]? = some (.ok (some owed)))
    (howed : owed ≠ []) : HandedOver before := by
  rw [(owes_fresh depths readers true).run hdepth, List.getElem?_map] at hstart
  have hremovable : (LockDir.fresh true).removable = true := rfl
  rw [hremovable, Debt.run_append, ← Debt.length_run true Debt.nothing before,
    List.getElem?_append_right (Nat.le_refl _), Nat.sub_self] at hstart
  -- what the start reads is nothing unless something was handed over
  have hresult : (if (Debt.nothing.after true before).handedOver = true ∧ mode = .head then
      (Debt.nothing.after true before).owed else []) = owed :=
    Option.some.inj (Except.ok.inj (Option.some.inj hstart))
  apply Debt.handedOver_after
  by_contra hnone
  rw [if_neg fun hboth => hnone hboth.1] at hresult
  exact howed hresult.symm

/-- The start after an upgrade replays what was refused, for the handoff of the upgrade. -/
theorem replays_handed_over_upgraded : HandedOver upgrading := by
  have hstart : ((LockDir.fresh true).run Deploy.Orphans.interpreter noReaders
      (upgrading ++ .start .head :: [.start .head]))[upgrading.length]? =
        some (.ok (some [apiRefused])) := by
    rw [starts_read_debts noReaders (by decide)]
    rfl
  exact replays_handed_over noReaders (by decide) hstart (by simp)

end Runs

end Fraisier.Startup
