import Fraisier.Deploy.Account
import Fraisier.Deploy.WayBack

/-!
# A moved worktree is put back

Both ways back end at the commit that `_git_pull` has recorded. `worktree_put_back` says of a run
that has recorded one that the worktree is at it when the run has failed, or the run reports that the
rollback failed. There are two exceptions, both deliberate: smoke tests that halt leave the tree where
it is, and a way back of the failure handler that itself raised reports `FAILED`.
-/

namespace Fraisier.Deploy

open Fraisier.Lib

variable {env : Env} {prev : String}

/-! ## Where the worktree is -/

/-- What was last done to the worktree. -/
def lastMove (ds : List Deed) : Option Deed :=
  ds.foldl (fun last d => if d.aspect = .worktree then some d else last) none

/-- A failed run that moved the worktree leaves it at the commit, or says that it could not. -/
def PutBack (prev : String) (r : DeploymentResult) (ds : List Deed) : Prop :=
  r.status ≠ .success → (∃ sha, .pulled sha ∈ ds) →
    lastMove ds = some (.reverted prev) ∨ r.status = .rollbackFailed

/-- The worktree, and what was come to on the way to the end. -/
structure Tree where
  /-- What was last done to the worktree. -/
  move : Option Deed := none
  /-- A way back was entered. -/
  entered : Bool := false
  /-- The smoke tests halted. -/
  halted : Bool := false
  /-- The failure handler's way back raised. -/
  raised : Bool := false

/-- One more deed. -/
def Tree.see (m : Tree) (d : Deed) : Tree :=
  match d with
  | .goingBack _ => { m with entered := true }
  | .smokeTestsHalted => { m with halted := true }
  | .restoreRaised => { m with raised := true }
  | d => if d.aspect = .worktree then { m with move := some d } else m

/-- What putting the worktree back to the commit looks at: of the attributes, whether the commit is
the recorded one. -/
def Watch.tree (prev : String) : Watch Bool Tree where
  attrs x := x.previousSha == some prev
  init := {}
  step := Tree.see
  reads := [.worktree, .rollback, .previous]
  attrs_eq x y h := by
    have hp := h .previous (by simp)
    simp only [Attributes.Agree] at hp
    simp only [hp.1]
  step_eq m d hd := by
    cases d <;> simp_all [Deed.aspect, Tree.see]

/-- The tree of a run says what the trace says. -/
theorem Tree.foldl_move (ds : List Deed) (m : Tree) :
    (ds.foldl see m).move =
      ds.foldl (fun last d => if d.aspect = .worktree then some d else last) m.move := by
  induction ds generalizing m with
  | nil => rfl
  | cons d ds ih =>
    rw [List.foldl_cons, ih, List.foldl_cons]
    congr 1
    cases d <;> rfl

/-- A way back is entered. -/
def Deed.entersWay : Deed → Bool
  | .goingBack _ => true
  | _ => false

/-- What is known of the tree is read off the deeds. -/
theorem Tree.foldl_flags (ds : List Deed) :
    (ds.foldl see {}).entered = ds.any Deed.entersWay ∧
      ((ds.foldl see {}).halted = true ↔ .smokeTestsHalted ∈ ds) ∧
      ((ds.foldl see {}).raised = true ↔ .restoreRaised ∈ ds) := by
  refine ⟨?_, ?_, ?_⟩
  · refine foldl_flag entered _ (fun m d => ?_) ds {}
    cases d <;> simp [see, Deed.entersWay, apply_ite]
  · rw [foldl_flag halted (· == .smokeTestsHalted) fun m d => ?_]
    · simp
    · cases d <;> simp [see, apply_ite]
  · rw [foldl_flag raised (· == .restoreRaised) fun m d => ?_]
    · simp
    · cases d <;> simp [see, apply_ite]

/-! ## Along a run -/

/-- After a rollback, of its result. -/
def Tree.Rolled (prev : String) (r : DeploymentResult) (known : Bool) (m : Tree) : Prop :=
  known = true → r.success = true → m.move = some (.reverted prev)

/-- After the previous state was restored, of what was done: a restore that neither reverted the
tree nor tried the database has raised. -/
def Tree.Restored (prev : String) (o : RestoreOutcome) (known : Bool) (m : Tree) : Prop :=
  known = true →
    (o.gitReverted = true ∨ o.dbRollbackSucceeded = true → m.move = some (.reverted prev)) ∧
      (o.gitReverted = false → o.dbRollbackAttempted = false → m.raised = true)

/-- At the end of a run, of its result. -/
def Tree.Ended (prev : String) (r : DeploymentResult) (known : Bool) (m : Tree) : Prop :=
  known = true → r.status = .success ∨ m.move = some (.reverted prev) ∨ r.status = .rollbackFailed ∨
    r.status = .failed ∧ (m.raised = true ∨ m.halted = true ∧ m.entered = false)

/-- What leaves the recorded commit alone. -/
theorem recorded_invariant {β : Type} {K : List Aspect} {p : Piece K β} {P : Bool → Prop}
    (hprevious : .previous ∉ K) :
    Spec (Watch.tree prev) (fun a _ => P a) p (fun _ a _ => P a) fun _ a _ => P a := by
  refine .invariant (fun _ _ _ _ => id) fun x y hxy m h => ?_
  have hp := hxy .previous hprevious
  simp only [Attributes.Agree] at hp
  simpa only [Watch.tree, hp.1] using h

/-- No way back is entered on the way to the restart. -/
theorem way_invariant {β : Type} {K : List Aspect} {p : Piece K β} (hK : .rollback ∉ K) :
    Spec (Watch.tree prev) (fun _ m => m.entered = false) p (fun _ _ m => m.entered = false)
      fun _ _ m => m.entered = false := by
  refine .invariant (fun a m d hd h => ?_) fun _ _ _ _ h => h
  have hne : d.aspect ≠ .rollback := fun he => hK (he ▸ hd)
  cases d <;> simp_all [Deed.aspect, Watch.tree, Tree.see]

/-- The worktree is moved to the commit, or the step raises. -/
theorem gitRollback_tree {P : Bool → Tree → Prop} (target : String)
    (hP : ∀ d a m, P a m → P a { m with move := some d }) :
    Spec (Watch.tree prev) P (gitRollback env target)
      (fun _ a m => P a m ∧ m.move = some (.reverted target)) fun _ => P := by
  unfold gitRollback
  cases env.fraise.appPath with
  | none => exact .raise fun _ _ h => h
  | some _ =>
    refine .bind (R := fun _ => P) (.call (fun _ _ _ h => hP _ _ _ h) fun _ _ _ _ _ h => ⟨h, hP _ _ _ h⟩)
      fun _ => ?_
    exact .call (fun _ _ _ h => ⟨hP _ _ _ h, rfl⟩) fun _ _ _ _ _ h => ⟨h, h⟩

/-- Going back to the previous commit puts the tree back, or says that it did not. -/
theorem revert_tree (currentVersion : Option String) (dbDetails : Option ℕ) :
    Spec (Watch.tree prev) (fun known _ => known = true) (revert env currentVersion prev dbDetails)
      (Tree.Rolled prev) fun _ _ _ => True := by
  refine .lift_bind ((gitRollback_tree prev fun _ _ _ h => h).post (fun _ _ _ => id)
    fun _ _ _ _ => trivial) fun _ => ?_
  refine .frame_bind (by simp [Watch.tree]) (fun _ _ _ _ => trivial) fun _ => ?_
  exact .frame_bind (by simp [Watch.tree]) (fun _ _ _ _ => trivial) fun _ => .pure fun _ _ h _ _ => h.2

/-- A rollback puts the tree back, or says that it did not. -/
theorem rollback_tree :
    Spec (Watch.tree prev) (fun _ _ => True) (rollback env) (Tree.Rolled prev) fun _ _ _ => True := by
  refine .of_pre fun a₀ m₀ _ => ?_
  -- The commit to go back to is the previous one, or nothing is to be shown.
  cases a₀ with
  | false =>
    refine ((recorded_invariant (P := fun a => a = false) (by decide)).pre ?_).post
      ?_ fun _ _ _ _ => trivial
    · rintro a m ⟨rfl, -⟩
      rfl
    · intro r a m h htrue
      cases h.symm.trans htrue
  | true =>
    -- A rollback that says it failed owes nothing.
    have hrecord : ∀ (P : Bool → Tree → Prop) r, r.success = false →
        Spec (Watch.tree prev) P (recordOutcome env r) (Tree.Rolled prev) fun _ _ _ => True := by
      intro P r hs
      refine (recordOutcome_spec (by simp [Watch.tree]) r none).post ?_ fun _ _ _ _ => trivial
      rintro _ a m ⟨rfl, -⟩ - hs'
      cases hs.symm.trans hs'
    refine (rollback_spec_target (fun a _ => a = true) (fun _ a _ => a = true) (· = prev)
      (fun _ _ _ => True) (by simp [Watch.tree]) (fun _ _ _ => trivial) (fun _ _ _ _ _ => trivial)
      (fun _ _ h => h) (fun _ _ _ _ => trivial) (fun x m target hp h => ?_) (fun cv => ?_)
      (fun _ _ _ h => h) (fun cv target details ht => ht ▸ revert_tree cv details)
      (fun r hs _ => hrecord _ r hs) fun _ r hs _ => hrecord _ r hs).pre ?_
    · have hsome : (x.previousSha == some prev) = true := h
      rw [hp] at hsome
      exact Option.some.inj (eq_of_beq hsome)
    · refine rollbackDatabase_spec (R := fun _ (a : Bool) _ => a = true) (by simp [Watch.tree])
        (fun _ _ _ _ => trivial) (fun x resolved => ?_) (fun _ _ _ _ _ => trivial) cv
      exact (Spec.frame (by simp [Watch.tree])).post (fun _ _ _ h => h.1.1) fun _ _ _ _ => trivial
    · rintro a m ⟨rfl, -⟩
      rfl

/-- Restoring the tree puts it back, or raises. -/
theorem restoreTree_tree (attempted keepServiceStopped : Bool) :
    Spec (Watch.tree prev) (fun _ _ => True) (restoreTree env prev attempted keepServiceStopped)
      (Tree.Restored prev) fun _ _ _ => True := by
  refine .lift_bind (gitRollback_tree prev fun _ _ _ h => h) fun _ => ?_
  refine .frame_bind (by simp [Watch.tree]) (fun _ _ _ _ => trivial) fun _ =>
    .self_bind_any fun me => ?_
  refine .bind (R := fun _ a m => True ∧ m.move = some (.reverted prev)) ?_
    fun _ => .pure fun _ _ h _ => ⟨fun _ => h.2, fun hg => absurd hg (by simp)⟩
  exact .whenever (fun _ => .lift ((Spec.frame (by simp [Watch.tree])).post (fun _ _ _ => id)
    fun _ _ _ _ => trivial)) fun _ _ _ h => h

/-- Restoring the previous state puts the tree back, or says that it did not. -/
theorem restorePreviousState_tree (keepServiceStopped : Bool) :
    Calm (Watch.tree prev) (fun _ _ => True) (restorePreviousState env keepServiceStopped)
      (Tree.Restored prev) fun _ _ _ => True := by
  refine .of_pre fun a₀ m₀ _ => ?_
  -- The commit to go back to is the previous one, or nothing is to be shown.
  cases a₀ with
  | false =>
    refine Spec.calm (E := fun _ _ _ => True) (((recorded_invariant (P := fun a => a = false)
      (by decide)).pre ?_).post ?_ fun _ _ _ _ => trivial)
    · rintro a m ⟨rfl, -⟩
      rfl
    · intro o a m h htrue
      cases h.symm.trans htrue
  | true =>
    have hsome : ∀ x : Attributes, (Watch.tree prev).attrs x = true → x.previousSha = some prev :=
      fun x h => eq_of_beq h
    refine (restorePreviousState_spec_target (P := fun a _ => a = true) (fun _ _ => True) (· = prev)
      (fun _ _ _ => True) (fun _ _ _ _ => True) keepServiceStopped (fun x m hp h => ?_)
      (fun _ _ _ _ => trivial) (fun x m target hp h => ?_) (fun cv => ?_)
      (fun _ _ _ _ _ => trivial) (fun sha attempted ht => ht ▸ restoreTree_tree attempted _)
      (fun _ _ _ _ _ => ⟨by simp, by simp⟩) fun _ _ _ _ _ _ _ => ⟨by simp, fun _ _ => rfl⟩).mono ?_
      (fun _ _ _ => id) fun _ _ _ => id
    · cases hp.symm.trans (hsome x h)
    · exact Option.some.inj (hp.symm.trans (hsome x h))
    · exact rollbackDatabase_spec (P := fun _ _ => True) (R := fun _ _ _ => True)
        (by simp [Watch.tree]) (fun _ _ _ _ => trivial)
        (fun x resolved => Spec.any.post (fun _ _ _ _ => trivial) fun _ _ _ _ => trivial)
        (fun _ _ _ _ _ => trivial) cv |>.pre fun _ _ _ => trivial
    · rintro a m ⟨rfl, -⟩
      rfl

/-! ## The run -/

/-- A rollback reverts the tree, or the run says that it failed. -/
theorem Tree.Rolled.ended {r r' : DeploymentResult} {known : Bool} {m : Tree}
    (hr : r'.status = statusAfter r) (h : Rolled prev r known m) : Ended prev r' known m := by
  intro hknown
  cases hs : r.success with
  | true => exact Or.inr (Or.inl (h hknown hs))
  | false => exact Or.inr (Or.inr (Or.inl (by simp [hr, statusAfter, hs])))

/-- The failure handler says `FAILED` only of a restore that raised before it did anything. -/
theorem Tree.Restored.ended {o : RestoreOutcome} {text : String} {r : DeploymentResult}
    {known : Bool} {m : Tree} (hr : r.status = (classifyFailure o text).1)
    (h : Restored prev o known m) : Ended prev r known m := by
  intro hknown
  obtain ⟨hmove, hraised⟩ := h hknown
  -- The cases are those of the classification.
  unfold classifyFailure at hr
  split at hr
  · split at hr
    · exact Or.inr (Or.inl (hmove (Or.inr ‹_›)))
    · exact Or.inr (Or.inr (Or.inl hr))
  · rename_i hattempted
    split at hr
    · exact Or.inr (Or.inl (hmove (Or.inl ‹_›)))
    · rename_i hreverted
      exact Or.inr (Or.inr (Or.inr ⟨hr, Or.inl (hraised (by simpa using hreverted)
        (by simpa using hattempted))⟩))

/-- The account of the worktree. -/
def Tree.account (env : Env) (prev : String) : Account env (Watch.tree prev) where
  start _ m := m.entered = false
  advanced _ m := m.entered = false
  left _ _ _ := True
  expired _ _ := True
  rolled := Rolled prev
  restored := Restored prev
  ended := Ended prev
  blind := by simp [Watch.tree]
  start_init := rfl
  start_left _ _ _ _ := trivial
  advance_spec := (way_invariant (by decide)).post (fun _ _ _ => id) fun _ _ _ _ => trivial
  advanced_left _ _ _ _ := trivial
  rollback_spec := rollback_tree.pre fun _ _ _ => trivial
  rollback_expired := rollback_tree.pre fun _ _ _ => trivial
  build_spec r old := (buildRollbackResult_spec (by simp [Watch.tree]) r old).post
    (fun _ _ _ h => Rolled.ended h.1 h.2) fun _ _ _ _ => trivial
  buildTimeout_spec r old message := (buildTimeoutRollbackResult_spec (by simp [Watch.tree]) r old message).post
    (fun _ _ _ h => Rolled.ended h.1 h.2) fun _ _ _ _ => trivial
  ended_left _ _ _ _ := trivial
  halted _ _ _ hr _ h _ := Or.inr (Or.inr (Or.inr ⟨hr, Or.inr ⟨rfl, h⟩⟩))
  succeeded _ _ _ hr _ _ := Or.inl hr
  unreverted r x m hp _ _ hknown := by
    have hsome : x.previousSha = some prev := eq_of_beq hknown
    cases hp.symm.trans hsome
  restore_spec f := restorePreviousState_tree _
  classified _ _ _ _ _ hr h := h.ended hr

/-- A run that has recorded the commit that its worktree was on, and has failed after it moved it,
leaves it at that commit or says that the rollback failed; unless its smoke tests halted it with no
way back entered, or the way back of the failure handler raised. -/
theorem worktree_put_back (env : Env) (h : env.final.self.previousSha = some prev) :
    ∃ r, env.outcome = (.ok r, env.final) ∧
      (PutBack prev r env.final.deeds ∨
        r.status = .failed ∧ (.restoreRaised ∈ env.final.deeds ∨
          .smokeTestsHalted ∈ env.final.deeds ∧ ∀ way, .goingBack way ∉ env.final.deeds)) := by
  obtain ⟨r, hr, hended⟩ := (Tree.account env prev).ends fun _ _ _ _ => trivial
  refine ⟨r, hr, ?_⟩
  have hmove := Tree.foldl_move env.final.deeds {}
  obtain ⟨hentered, hhalted, hraised⟩ := Tree.foldl_flags env.final.deeds
  have hknown : (env.final.self.previousSha == some prev) = true := by rw [h, beq_self_eq_true]
  -- The fold over the deeds says how the worktree ended.
  rcases hended hknown with hs | hback | hfailed | ⟨hfailed, hmark⟩
  · exact Or.inl fun hne => absurd hs hne
  · exact Or.inl fun _ _ => Or.inl (hmove.symm.trans hback)
  · exact Or.inl fun _ _ => Or.inr hfailed
  · refine Or.inr ⟨hfailed, ?_⟩
    rcases hmark with hr | ⟨hh, hn⟩
    · exact Or.inl (hraised.mp hr)
    · have hnone : env.final.deeds.any Deed.entersWay = false := hentered.symm.trans hn
      refine Or.inr ⟨hhalted.mp hh, fun way hmem => ?_⟩
      exact Bool.false_ne_true (hnone.symm.trans (List.any_eq_true.mpr ⟨_, hmem, rfl⟩))

/-! ## Runs that fail after the tree was moved -/

/-- A deploy of a service with a smoke test that halts. The statements that matter are the fetch's own
checkout and reset, numbered 42 and 43, the sync after it, 51, where a way back starts with the
checkout at 52, and the probe of the smoke test, 90. -/
def watched : Env where
  fraise :=
    { settings :=
        { systemdService := some "api.service"
          smokeTestsConfig := [{ onFailure := .halt }] } }
  sha _ := some "0a1b2c3d"
  text _ := "4e5f6a7b"

/-- Git and the shell fail at the statements, and change nothing. -/
def Env.failingAt (env : Env) (ns : List ℕ) : Env :=
  { env with
    fault := fun n => if n ∈ ns then some { cls := .calledProcessError } else none
    took := fun n => n ∉ ns }

set_option maxRecDepth 10000 in
/-- The sync fails. -/
theorem worktree_put_back_watched :
    let env := watched.failingAt [51]
    ∃ r, env.outcome = (.ok r, env.final) ∧
      (PutBack "0a1b2c3d" r env.final.deeds ∨
        r.status = .failed ∧ (.restoreRaised ∈ env.final.deeds ∨
          .smokeTestsHalted ∈ env.final.deeds ∧ ∀ way, .goingBack way ∉ env.final.deeds)) :=
  worktree_put_back (watched.failingAt [51]) (by decide)

/-- A failed deploy whose tree was pulled and not reverted is not put back. -/
theorem not_putBack {r : DeploymentResult} {sha : String} {ds : List Deed} (hr : r.status = .failed)
    (hpulled : .pulled sha ∈ ds) (hlast : lastMove ds ≠ some (.reverted prev)) :
    ¬PutBack prev r ds := by
  intro hback
  rcases hback (by simp [hr]) ⟨sha, hpulled⟩ with h | h
  · exact hlast h
  · cases hr.symm.trans h

set_option maxRecDepth 10000 in
/-- The reset of the fetch fails, which has recorded no commit yet; the smoke test halts; the sync
fails, and the checkout of the way back after it. Each run leaves the new commit in the tree and
reports no more than that it failed. -/
theorem tree_left_moved :
    [watched.failingAt [43], { watched with flag := fun n => n != 90 },
      watched.failingAt [51, 52]].Forall fun env =>
        ∃ r, env.outcome.1 = .ok r ∧ lastMove env.final.deeds = some (.pulled "4e5f6a7b") ∧
          ¬PutBack "0a1b2c3d" r env.final.deeds := by
  -- Nothing recorded puts the worktree back.
  have hleft : ∀ env : Env, env.outcome.1.toOption.map (·.status) = some .failed →
      .pulled "4e5f6a7b" ∈ env.final.deeds →
      lastMove env.final.deeds = some (.pulled "4e5f6a7b") →
      ∃ r, env.outcome.1 = .ok r ∧ lastMove env.final.deeds = some (.pulled "4e5f6a7b") ∧
        ¬PutBack "0a1b2c3d" r env.final.deeds := by
    intro env hfailed hpulled hlast
    cases hr : env.outcome.1 with
    | error e => simp [hr, Except.toOption] at hfailed
    | ok r =>
      have hs : r.status = .failed := by simpa [hr, Except.toOption] using hfailed
      exact ⟨r, rfl, hlast, not_putBack hs hpulled (by simp [hlast])⟩
  refine ⟨hleft _ ?_ ?_ ?_, hleft _ ?_ ?_ ?_, hleft _ ?_ ?_ ?_⟩ <;> decide

end Fraisier.Deploy
