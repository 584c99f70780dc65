import Mathlib.Logic.Function.Basic
import Fraisier.Deploy.Git

/-!
# The self-heal of a worktree

`_verify_or_self_heal` of `git/operations.py` over the deploys of a host. `Git.lean` has the call
as one statement of a deploy; here the state file it leaves is what the next deploy reads, so the
escalation window becomes a statement about runs: between two heals of a worktree there are as many
counted deploys as the window asks for (`self_heal_bounded`).

The window is only as good as the file. `_read_selfheal_state` takes a file that is absent or
cannot be read for an empty one, which forgets the last heal (`heals_in_a_row`).
-/

namespace Fraisier.Deploy.SelfHeal

/-- An entry of the state file: the deploys counted for a worktree, and the one that last healed
it. -/
structure Entry where
  deploys : ℕ
  lastHealDeploy : Option ℕ
  deriving DecidableEq, Repr

/-- The entry that `setdefault` puts in. -/
def Entry.fresh : Entry := ⟨0, none⟩

/-- The state file: the entries under the paths of their worktrees. -/
abbrev State : Type := String → Option Entry

/-- How `verify_worktree_at_sha` ends. -/
inductive Verify where
  | equal
  | differs
  | fails
  deriving DecidableEq, Repr

/-- What one deploy of a worktree meets: whether the state file is there and readable, how the
verification after the checkout ends, whether both commands of `force_repopulate_worktree` exit 0,
and how the verification after them ends. -/
structure Deployed where
  worktree : String
  readable : Bool
  verified : Verify
  repopulated : Bool
  reverified : Verify
  deriving DecidableEq, Repr

/-- How `_verify_or_self_heal` ends: it returns after the first verification or after a heal, or it
raises, having escalated or without having written the state. -/
inductive Ending where
  | matched
  | healed
  | escalated
  | raised
  deriving DecidableEq, Repr

/-- The deploy goes on. -/
def Ending.returns : Ending → Bool
  | matched | healed => true
  | escalated | raised => false

/-- `_write_selfheal_state` was reached, with the deploy's number in the entry. -/
def Ending.counted : Ending → Bool
  | matched | healed | escalated => true
  | raised => false

/-- `_read_selfheal_state`. -/
def readSelfhealState (file : State) (readable : Bool) : State :=
  if readable then file else fun _ => none

/-- `_verify_or_self_heal`: the file it leaves, and how it ends. A deploy that raises without
escalating leaves the file as it was. -/
def verifyOrSelfHeal (file : State) (d : Deployed) : State × Ending :=
  let state := readSelfhealState file d.readable
  let entry := (state d.worktree).getD Entry.fresh
  let deployNo := entry.deploys + 1
  let counted : State :=
    Function.update state d.worktree (some ⟨deployNo, entry.lastHealDeploy⟩)
  match d.verified with
  | .fails => (file, .raised)
  | .equal => (counted, .matched)
  | .differs =>
    if shouldEscalate deployNo entry.lastHealDeploy selfhealEscalateWithinDeploys then
      (counted, .escalated)
    else if d.repopulated && d.reverified = .equal then
      (Function.update state d.worktree (some ⟨deployNo, some deployNo⟩), .healed)
    else (file, .raised)

/-- The deploys of a host, one after the other, each with how it ended. -/
def history : State → List Deployed → List (Deployed × Ending)
  | _, [] => []
  | file, d :: ds => (d, (verifyOrSelfHeal file d).2) :: history (verifyOrSelfHeal file d).1 ds

/-- The deploys of `worktree` that were counted. -/
def countedDeploys (worktree : String) (run : List (Deployed × Ending)) : ℕ :=
  run.countP fun p => p.1.worktree = worktree && p.2.counted

/-! ## One deploy -/

variable {file : State} {d : Deployed} {worktree : String}

/-- The entry of the deploy's worktree, as the deploy read it. -/
def entryRead (file : State) (d : Deployed) : Entry :=
  (readSelfhealState file d.readable d.worktree).getD Entry.fresh

/-- The file with the deploy counted, and `lastHeal` as the last heal. -/
def written (file : State) (d : Deployed) (lastHeal : Option ℕ) : State :=
  Function.update (readSelfhealState file d.readable) d.worktree
    (some ⟨(entryRead file d).deploys + 1, lastHeal⟩)

/-- All that a deploy can do: raise and write nothing, count itself, or heal the worktree outside
the window and have that verified. -/
theorem verify_cases (file : State) (d : Deployed) :
    verifyOrSelfHeal file d = (file, .raised) ∨
    (∃ e, (e = .matched ∧ d.verified = .equal ∨ e = .escalated) ∧
      verifyOrSelfHeal file d = (written file d (entryRead file d).lastHealDeploy, e)) ∨
    (shouldEscalate ((entryRead file d).deploys + 1) (entryRead file d).lastHealDeploy
        selfhealEscalateWithinDeploys = false ∧ d.reverified = .equal ∧
      verifyOrSelfHeal file d =
        (written file d (some ((entryRead file d).deploys + 1)), .healed)) := by
  unfold verifyOrSelfHeal
  -- By how the tree was verified, and then by whether the count asks for more.
  cases hv : d.verified with
  | equal => exact .inr (.inl ⟨.matched, .inl ⟨rfl, rfl⟩, rfl⟩)
  | fails => exact .inl rfl
  | differs =>
    by_cases hs : shouldEscalate ((entryRead file d).deploys + 1)
        (entryRead file d).lastHealDeploy selfhealEscalateWithinDeploys = true
    · exact .inr (.inl ⟨.escalated, .inr rfl, if_pos hs⟩)
    · by_cases hq : (d.repopulated && d.reverified = .equal) = true
      · refine .inr (.inr ⟨by simpa using hs, by simpa using (Bool.and_eq_true_iff.mp hq).2, ?_⟩)
        exact (if_neg hs).trans (if_pos hq)
      · exact .inl ((if_neg hs).trans (if_neg hq))

/-- A deploy that reads the file leaves the entries of the other worktrees. -/
theorem verify_other (hr : d.readable) (hw : d.worktree ≠ worktree) :
    (verifyOrSelfHeal file d).1 worktree = file worktree := by
  have hkeep (lastHeal : Option ℕ) : written file d lastHeal worktree = file worktree := by
    unfold written
    rw [Function.update_of_ne hw.symm, readSelfhealState, if_pos hr]
  obtain h | ⟨e, -, h⟩ | ⟨-, -, h⟩ := verify_cases file d
  · rw [h]
  · rw [h]; exact hkeep _
  · rw [h]; exact hkeep _

/-- A deploy that found a mismatch and goes on has found the two equal after the heal. -/
theorem verify_returns (file : State) (hd : d.verified ≠ .equal)
    (h : (verifyOrSelfHeal file d).2.returns) : d.reverified = .equal := by
  obtain h' | ⟨e, he | he, h'⟩ | ⟨-, hq, -⟩ := verify_cases file d
  · rw [h'] at h; cases h
  · exact absurd he.2 hd
  · rw [h', he] at h; cases h
  · exact hq

/-! ## Runs -/

/-- The window: `c` deploys have been counted since the last heal, and the file says so. -/
def Since (file : State) (worktree : String) (c : ℕ) : Prop :=
  ∃ n, file worktree = some ⟨n + c, some n⟩

/-- A heal opens a window. -/
theorem Since.healed (h : (verifyOrSelfHeal file d).2 = .healed) :
    Since (verifyOrSelfHeal file d).1 d.worktree 0 := by
  obtain h' | ⟨e, he | he, h'⟩ | ⟨-, -, h'⟩ := verify_cases file d
  · rw [h'] at h; cases h
  · rw [h', he.1] at h; cases h
  · rw [h', he] at h; cases h
  · rw [h']; exact ⟨_, Function.update_self ..⟩

/-- The entry that a deploy reads inside a window. -/
theorem Since.entryRead {c : ℕ} (hs : Since file d.worktree c) (hr : d.readable) :
    ∃ n, entryRead file d = ⟨n + c, some n⟩ := by
  obtain ⟨n, he⟩ := hs
  refine ⟨n, ?_⟩
  unfold SelfHeal.entryRead
  rw [readSelfhealState, if_pos hr, he, Option.getD_some]

/-- A heal of the worktree finds the window passed. -/
theorem Since.heal {c : ℕ} (hs : Since file d.worktree c) (hr : d.readable)
    (hh : (verifyOrSelfHeal file d).2 = .healed) : selfhealEscalateWithinDeploys ≤ c := by
  obtain ⟨n, hn⟩ := hs.entryRead hr
  obtain h | ⟨e, he | he, h⟩ | ⟨hwindow, -, -⟩ := verify_cases file d
  · rw [h] at hh; cases hh
  · rw [h, he.1] at hh; cases hh
  · rw [h, he] at hh; cases hh
  · have hlate : ¬ n + c + 1 - n ≤ selfhealEscalateWithinDeploys := by
      simpa [hn, shouldEscalate] using hwindow
    omega

/-- A deploy that does not heal the worktree keeps the window, and counts in it. -/
theorem Since.step {c : ℕ} (hs : Since file worktree c) (hr : d.readable)
    (hn : ¬(d.worktree = worktree ∧ (verifyOrSelfHeal file d).2 = .healed)) :
    Since (verifyOrSelfHeal file d).1 worktree
      (c + countedDeploys worktree [(d, (verifyOrSelfHeal file d).2)]) := by
  -- A deploy of another worktree leaves this one's entry.
  by_cases hw : d.worktree = worktree
  · subst hw
    obtain h | ⟨e, he, h⟩ | ⟨-, -, h⟩ := verify_cases file d
    · rw [h]; simpa [countedDeploys, Ending.counted] using hs
    · obtain ⟨n, hread⟩ := hs.entryRead hr
      have hone : countedDeploys d.worktree [(d, e)] = 1 := by
        obtain ⟨rfl, -⟩ | rfl := he <;> simp [countedDeploys, Ending.counted]
      refine ⟨n, ?_⟩
      rw [h, hone]
      show written file d _ d.worktree = _
      rw [written, Function.update_self, hread, Nat.add_assoc]
    · exact absurd ⟨rfl, by rw [h]⟩ hn
  · obtain ⟨n, he⟩ := hs
    refine ⟨n, ?_⟩
    rw [verify_other hr hw, he]
    simp [countedDeploys, hw]

/-- Deploys are counted one by one. -/
theorem countedDeploys_cons (p : Deployed × Ending) (run : List (Deployed × Ending)) :
    countedDeploys worktree (p :: run) =
      countedDeploys worktree [p] + countedDeploys worktree run := by
  unfold countedDeploys
  rw [List.countP_cons, List.countP_singleton]
  omega

/-- From a window of `c` deploys, any later heal has the window's deploys behind it. -/
theorem later_heal (ds : List Deployed) : ∀ {file : State} {c : ℕ}, Since file worktree c →
    ∀ between p after, history file ds = between ++ p :: after →
      (∀ q ∈ between ++ [p], q.1.readable) → p.1.worktree = worktree → p.2 = .healed →
      selfhealEscalateWithinDeploys ≤ c + countedDeploys worktree between := by
  induction ds with
  | nil => intro file c _ between p after h; simp [history] at h
  | cons d ds ih =>
    intro file c hs between p after h hread hw hh
    cases between with
    | nil =>
      obtain ⟨rfl, -⟩ := List.cons.inj h
      subst hw
      have hbound := hs.heal (hread _ (List.mem_singleton.mpr rfl)) hh
      omega
    | cons q between =>
      obtain ⟨rfl, hrest⟩ := List.cons.inj h
      have hr : d.readable := hread _ (List.mem_cons_self ..)
      -- a heal in between has found the window passed already
      by_cases hq : d.worktree = worktree ∧ (verifyOrSelfHeal file d).2 = .healed
      · have hbound := Since.heal (hq.1 ▸ hs) hr hq.2
        omega
      · have hnext := ih (hs.step hr hq) between p after hrest
          (fun r hm => hread r (List.mem_cons_of_mem _ hm)) hw hh
        rw [countedDeploys_cons]
        omega

/-- The rest of a run is the run of the rest, from the file that the deploy before it left. -/
theorem history_split (before : List (Deployed × Ending)) :
    ∀ {file : State} {ds : List Deployed} {p after}, history file ds = before ++ p :: after →
      ∃ file' ds', p.2 = (verifyOrSelfHeal file' p.1).2 ∧
        after = history (verifyOrSelfHeal file' p.1).1 ds' := by
  -- Induction on the deploys before it.
  induction before with
  | nil =>
    intro file ds p after h
    cases ds with
    | nil => simp [history] at h
    | cons d ds =>
      obtain ⟨rfl, rfl⟩ := List.cons.inj h
      exact ⟨file, ds, rfl, rfl⟩
  | cons q before ih =>
    intro file ds p after h
    cases ds with
    | nil => simp [history] at h
    | cons d ds => exact ih (List.cons.inj h).2

/-- Between two heals of a worktree there are as many counted deploys as the window requires, if
every deploy after the first heal reads the state file; and a deploy that found a mismatch goes on
only if the verification after the heal found the two equal. -/
theorem self_heal_bounded (file : State) (ds : List Deployed) (worktree : String) :
    (∀ before p between q after,
      history file ds = before ++ p :: (between ++ q :: after) →
      p.1.worktree = worktree → p.2 = .healed → q.1.worktree = worktree → q.2 = .healed →
      (∀ r ∈ between ++ [q], r.1.readable) →
      selfhealEscalateWithinDeploys ≤ countedDeploys worktree between) ∧
    ∀ p ∈ history file ds, p.1.verified ≠ .equal → p.2.returns → p.1.reverified = .equal := by
  constructor
  -- A heal opens a window, in which the deploys are counted to the next one.
  · intro before p between q after h hpw hp hqw hq hread
    obtain ⟨file', ds', hend, hrest⟩ := history_split before h
    have hopen : Since (verifyOrSelfHeal file' p.1).1 worktree 0 :=
      hpw ▸ Since.healed (hend ▸ hp)
    simpa using later_heal ds' hopen between q after hrest.symm hread hqw hq
  · intro p hp hv hret
    obtain ⟨before, after, h⟩ := List.append_of_mem hp
    obtain ⟨file', -, hend, -⟩ := history_split before h
    exact verify_returns file' hv (hend ▸ hret)

/-- Two heals in a row: the second deploy cannot read the file that the first one wrote. -/
theorem heals_in_a_row :
    let first : Deployed := ⟨"/srv/app", true, .differs, true, .equal⟩
    let second : Deployed := ⟨"/srv/app", false, .differs, true, .equal⟩
    history (fun _ => none) [first, second] = [(first, .healed), (second, .healed)] ∧
      ¬ selfhealEscalateWithinDeploys ≤ countedDeploys "/srv/app" [] := by
  decide

end Fraisier.Deploy.SelfHeal
