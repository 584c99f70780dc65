import Mathlib.Data.Char
import Mathlib.Data.List.Lex
import Mathlib.Data.List.Sort
import Mathlib.Data.Prod.Lex
import Fraisier.Lib.JsonIndent

/-!
# Refused dispatches, and the plan over them

`RefusedDispatch` is what a host was asked to deploy and refused, with the text that `_write` of
`refused_dispatch_record.py` makes of some. `plan_replays` of `replay_plan.py` plans over what is read
of them: `planReplays_nodup` and `planReplays_last` say what a plan looks like, and `mem_planReplays`
what is in it. How the file is read and kept is in `Webhook/Startup.lean` and `Webhook/Ledger.lean`.
-/

namespace Fraisier.Webhook.Refused

open Fraisier.Lib Json Unicode

/-! ## Records -/

/-- `RefusedDispatch`. -/
structure RefusedDispatch where
  fraise : Text
  environment : Text
  branch : Text
  commitSha : Text
  webhookId : ℤ
  refusedAt : Text
  deriving DecidableEq, Repr

/-- The dedup key. -/
def RefusedDispatch.target (e : RefusedDispatch) : Text × Text := (e.fraise, e.environment)

/-- The texts have no two halves of a character next to each other, as no text that was decoded has,
and the number of a webhook is short enough to be written. -/
structure RefusedDispatch.Writable (e : RefusedDispatch) : Prop where
  fraise : Json.Apart e.fraise
  environment : Json.Apart e.environment
  branch : Json.Apart e.branch
  commitSha : Json.Apart e.commitSha
  webhookId : digits e.webhookId ≤ maxStrDigits
  refusedAt : Json.Apart e.refusedAt

/-- `REFUSED_DISPATCH_FILE` holds at most so many: `_MAX_ENTRIES`. -/
def maxEntries : ℕ := 20

/-- One entry of `_write`. -/
def RefusedDispatch.members (e : RefusedDispatch) : List (Text × Json) :=
  [(text "fraise", .str e.fraise), (text "environment", .str e.environment),
    (text "branch", .str e.branch), (text "commit_sha", .str e.commitSha),
    (text "webhook_id", .int e.webhookId), (text "refused_at", .str e.refusedAt)]

/-- What `_write` writes. -/
def write (entries : List RefusedDispatch) : Text :=
  dumpsSorted (.arr (entries.map fun e => .obj e.members))

/-! ## Replays -/

/-- A configuration, as far as the plan reads one: `get_fraise_environment` raises, or gives a
`dict` or `None`. -/
abbrev Config : Type := Text → Text → Except Unit (Option (List (Text × Json)))

/-- `ReplayTarget`. -/
structure ReplayTarget where
  fraise : Text
  environment : Text
  branch : Text
  fraiseConfig : List (Text × Json)

/-- `ReplayTarget.target`. -/
def ReplayTarget.target (t : ReplayTarget) : Text × Text := (t.fraise, t.environment)

/-- `_LAST_ENVIRONMENTS`. -/
def lastEnvironments : List Text := [text "production"]

/-- `_rank`. -/
def rank (environment : Text) : ℕ := if environment ∈ lastEnvironments then 1 else 0

/-- One turn of the loop of `plan_replays`. -/
def planned (config : Config) (entry : RefusedDispatch) : Option ReplayTarget :=
  if entry.branch = [] then none
  else match config entry.fraise entry.environment with
    | .ok (some fraiseConfig) =>
      if fraiseConfig.isEmpty then none
      else some ⟨entry.fraise, entry.environment, entry.branch, fraiseConfig⟩
    | _ => none

/-- What the plan is sorted by. -/
def sortKey (t : ReplayTarget) : ℕ ×ₗ Text ×ₗ Text :=
  toLex (rank t.environment, toLex (t.environment, t.fraise))

/-- `plan_replays`. -/
def planReplays (entries : List RefusedDispatch) (config : Config) : List ReplayTarget :=
  (entries.filterMap (planned config)).insertionSort fun a b => sortKey a ≤ sortKey b

/-! ## What is written -/

variable {entries : List RefusedDispatch} {e : RefusedDispatch} {config : Config} {t : ReplayTarget}

/-- The members of an entry have different keys. -/
theorem keys_members (e : RefusedDispatch) : (e.members.map Prod.fst).Nodup := of_decide_eq_true rfl

/-- An entry that is writable is an object that JSON writes and reads. -/
theorem plain_members (h : e.Writable) : Plain (.obj e.members) :=
  ⟨keys_members e, apart_text _, h.fraise, apart_text _, h.environment, apart_text _, h.branch,
    apart_text _, h.commitSha, apart_text _, h.webhookId, apart_text _, h.refusedAt, trivial⟩

/-- A ledger of writable entries is one that JSON writes and reads. -/
theorem plain_entries (h : ∀ e ∈ entries, e.Writable) :
    Plain (.arr (entries.map fun e => .obj e.members)) := by
  refine plainItems fun v hv => ?_
  obtain ⟨e, he, rfl⟩ := List.mem_map.mp hv
  exact plain_members (h e he)

/-- A ledger is a list of objects. -/
theorem depth_entries : depth (.arr (entries.map fun e => .obj e.members)) ≤ 2 := by
  have hitems : depthItems (entries.map fun e => .obj e.members) ≤ 1 := by
    refine depthItems_le fun v hv => ?_
    obtain ⟨e, -, rfl⟩ := List.mem_map.mp hv
    exact Nat.le_refl 1
  exact Nat.succ_le_succ hitems

/-! ## The plan -/

/-- What is planned of an entry has its target and its branch. -/
theorem planned_iff {entry : RefusedDispatch} (h : planned config entry = some t) :
    t.target = entry.target ∧ t.branch = entry.branch := by
  unfold planned at h
  split at h
  · cases h
  · split at h
    · split at h
      · cases h
      · obtain rfl := Option.some.inj h
        exact ⟨rfl, rfl⟩
    · cases h

/-- The plan holds what is planned of the entries. -/
theorem mem_planReplays : t ∈ planReplays entries config ↔
    ∃ entry ∈ entries, planned config entry = some t := by
  unfold planReplays
  rw [(List.perm_insertionSort _ _).mem_iff, List.mem_filterMap]

/-- One entry for each target gives one replay for each target. -/
theorem planReplays_nodup (h : (entries.map RefusedDispatch.target).Nodup) :
    ((planReplays entries config).map ReplayTarget.target).Nodup := by
  unfold planReplays
  rw [((List.perm_insertionSort _ _).map _).nodup_iff]
  -- The targets of the replays are some of those of the entries, in their order.
  refine List.Nodup.sublist ?_ h
  rw [List.map_filterMap]
  induction entries with
  | nil => exact List.Sublist.refl _
  | cons entry entries ih =>
    have ih := ih (List.nodup_cons.mp h).2
    rw [List.filterMap_cons, List.map_cons]
    cases hplanned : planned config entry with
    | none => exact ih.cons _
    | some t =>
      simp only [Option.map_some, (planned_iff hplanned).1]
      exact ih.cons_cons _

/-- The last environments come last. -/
theorem planReplays_last : (planReplays entries config).Pairwise fun a b =>
    a.environment ∈ lastEnvironments → b.environment ∈ lastEnvironments := by
  have hsorted : (planReplays entries config).Pairwise fun a b => sortKey a ≤ sortKey b :=
    List.pairwise_insertionSort _ _
  refine hsorted.imp fun {a b} hab ha => ?_
  have hrank : rank a.environment ≤ rank b.environment := by
    obtain hlt | ⟨heq, -⟩ := Prod.Lex.le_iff.mp hab
    · exact hlt.le
    · exact heq.le
  by_contra hb
  unfold rank at hrank
  rw [if_pos ha, if_neg hb] at hrank
  omega

end Fraisier.Webhook.Refused
