import Fraisier.Deploy.Undoing

/-!
# Old code on a newer schema

Both ways back undo the migrations before the tree, so that old code never meets a newer schema;
whether there is something to undo is decided by `_migrations_applied`. When a batch that was
committed has been counted, that is right in every run (`schema_kept`). When it has not, because
the timer's exception or one without `steps_applied` came between the commit and the assignment, the
tree goes back alone.
-/

namespace Fraisier.Deploy

open Fraisier.Lib

variable {env : Env} {K : List Aspect}

/-! ## What is kept -/

/-- Old code is not put back on a newer schema. -/
structure SchemaKept (r : DeploymentResult) (ds : List Deed) : Prop where
  /-- When the tree went back, or the run says that it rolled back, what it committed is undone. -/
  undone : (∃ sha, .checkout sha ∈ ds ∨ .reverted sha ∈ ds) ∨ r.status = .rolledBack →
    (Ledger.ofDeeds ds).committed ≤ (Ledger.ofDeeds ds).undone
  /-- A way back on which not all was undone ends as `ROLLBACK_FAILED`, and puts no old code
  back. -/
  refused : ∀ way, .goingBack way ∈ ds → (Ledger.ofDeeds ds).undone < (Ledger.ofDeeds ds).committed →
    r.status = .rollbackFailed ∧
      ∀ before d after, ds = before ++ d :: after → .goingBack way ∈ before → d.putsBack = false

/-- What the ledger says of the ways back, it says for good. -/
theorem Ledger.foldl_mono (ds : List Deed) (m : Ledger) :
    (m.went = true → (ds.foldl see m).went = true) ∧ (m.back = true → (ds.foldl see m).back = true) := by
  induction ds generalizing m with
  | nil => exact ⟨id, id⟩
  | cons d ds ih =>
    have hsee : (m.went = true → (m.see d).went = true) ∧ (m.back = true → (m.see d).back = true) := by
      cases d with
      | service v => cases v <;> simp +contextual [see]
      | rolledBack n b => cases b <;> simp [see]
      | _ => simp [see]
    exact ⟨fun h => (ih _).1 (hsee.1 h), fun h => (ih _).2 (hsee.2 h)⟩

/-- A run that goes back is known to have gone back. -/
theorem Ledger.ofDeeds_went {ds : List Deed} {way : Way} (h : .goingBack way ∈ ds) :
    (ofDeeds ds).went = true := by
  obtain ⟨before, after, rfl⟩ := List.append_of_mem h
  rw [ofDeeds, List.foldl_append, List.foldl_cons]
  exact (foldl_mono after _).1 rfl

/-- Old code that is put back is in the ledger. -/
theorem Ledger.ofDeeds_back {before after : List Deed} {d : Deed} (hd : d.putsBack = true)
    (h : (ofDeeds before).went = true ∨ d.aspect = .worktree) :
    (ofDeeds (before ++ d :: after)).back = true := by
  rw [ofDeeds, List.foldl_append, List.foldl_cons]
  refine (foldl_mono after _).2 ?_
  cases d with
  | service v =>
    have hwent : (before.foldl see {}).went = true := h.resolve_right nofun
    cases v with
    | stop => cases hd
    | start => simp [see, hwent]
    | restart => simp [see, hwent]
  | _ => simp_all [Deed.putsBack, see]

/-! ## The invariant -/

/-- The count is right, what is counted can be undone, and old code is back only when it is. -/
structure Ledger.Sound (a : View) (m : Ledger) : Prop where
  counted : a.applied = m.committed
  undoable : 0 < m.committed → a.undoable = true ∧ a.database = true
  back : m.back = true → m.committed ≤ m.undone
  went : m.went = true → a.previous = true

/-- What holds unless a batch was committed and not counted. -/
def Ledger.Unless (P : View → Ledger → Prop) (a : View) (m : Ledger) : Prop :=
  m.uncounted = true ∨ P a m

/-- What follows of one ledger follows of another with the same uncounted migrations. -/
theorem Ledger.Unless.map {P Q : View → Ledger → Prop} {a a' : View} {m m' : Ledger}
    (h : Unless P a m) (hu : m'.uncounted = m.uncounted) (hPQ : P a m → Q a' m') : Unless Q a' m' :=
  Or.imp hu.trans hPQ h

/-- What follows, follows unless a migration is uncounted. -/
theorem Ledger.Unless.imp {P Q : View → Ledger → Prop} {a : View} {m : Ledger}
    (h : Unless P a m) (hPQ : P a m → Q a m) : Unless Q a m :=
  h.map rfl hPQ

/-- Nothing of the run is left in the database. -/
def Ledger.Cleared (a : View) (m : Ledger) : Prop := Sound a m ∧ m.committed ≤ m.undone

/-- Before the first way back the ledger is sound. -/
theorem Ledger.Advanced.sound {a : View} {m : Ledger} (h : Advanced a m) :
    Unless Sound a m ∧ m.went = false := by
  obtain ⟨n, b, rfl, -, hb⟩ := h
  refine ⟨?_, rfl⟩
  cases b with
  | true => exact .inl rfl
  | false => exact .inr ⟨(hb rfl).1, (hb rfl).2, nofun, nofun⟩

/-- Undoing migrations leaves the count right. -/
theorem Ledger.Undoing.sound {a₀ a : View} {m₀ m : Ledger} (h : Undoing a₀ m₀ a m)
    (h₀ : Unless Sound a₀ m₀) : Unless Sound a m := by
  obtain ⟨rfl, u, rfl⟩ := h
  exact h₀.map rfl fun h => ⟨h.counted, h.undoable,
    fun hb => Nat.le_trans (h.back hb) (Nat.le_add_right _ u), h.went⟩

/-- A way back is entered when there is a commit to go back to. -/
theorem Ledger.Unless.goingBack {a : View} {m : Ledger} (way : Way) (h : Unless Sound a m)
    (hp : a.previous = true) : Unless Sound a (m.see (.goingBack way)) :=
  h.map rfl fun h => ⟨h.counted, h.undoable, h.back, fun _ => hp⟩

/-- The tree and the service may follow a cleared database. -/
theorem cleared_frame {β : Type} {p : Piece K β}
    (hK : ∀ a ∈ K, a ∉ [Aspect.rollback, .database, .applied, .settings, .previous]) :
    Spec Watch.ledger (Ledger.Unless Ledger.Cleared) p (fun _ => Ledger.Unless Ledger.Cleared)
      fun _ => Ledger.Unless Ledger.Cleared := by
  refine .invariant (fun a m d hd h => ?_) fun x y hxy m h => ?_
  -- No deed that is allowed counts a migration.
  · have := hK _ hd
    have hsee : (m.see d).uncounted = m.uncounted ∧ (m.see d).committed = m.committed ∧
        (m.see d).undone = m.undone ∧ (m.see d).went = m.went := by
      cases d with
      | service v => cases v <;> simp [Ledger.see]
      | _ => simp_all [Deed.aspect, Ledger.see]
    obtain ⟨hu, hc, hn, hw⟩ := hsee
    change (m.see d).uncounted = true ∨ Ledger.Cleared a (m.see d)
    rw [hu]
    refine Or.imp_right (fun hcleared => ?_) h
    have hle : (m.see d).committed ≤ (m.see d).undone := by rw [hc, hn]; exact hcleared.2
    exact ⟨⟨hc ▸ hcleared.1.counted, hc ▸ hcleared.1.undoable, fun _ => hle,
      hw ▸ hcleared.1.went⟩, hle⟩
  -- No attribute that is allowed is one that is looked at.
  · have ha := hxy .applied fun hk => by simpa using hK _ hk
    have hs := hxy .settings fun hk => by simpa using hK _ hk
    have hp := hxy .previous fun hk => by simpa using hK _ hk
    simp only [Attributes.Agree] at ha hs hp
    have hview : Watch.ledger.attrs y = Watch.ledger.attrs x := by
      simp only [Watch.ledger, Attributes.view, ha, hs, hp]
    rwa [hview]

/-! ## The ways back -/

/-- After the database's turn. -/
def Ledger.Turned : Bool → View → Ledger → Prop
  | true => Unless Cleared
  | false => Unless Sound

/-- After the database's turn the ledger is sound. -/
theorem Ledger.Turned.sound {b : Bool} {a : View} {m : Ledger} (h : Turned b a m) :
    Unless Sound a m := by
  cases b
  · exact h
  · exact h.imp And.left

/-- A rollback of the database that succeeds undoes all that was committed. -/
theorem rollbackDatabase_schema (currentVersion : Option String) :
    Spec Watch.ledger (Ledger.Unless Ledger.Sound) (rollbackDatabase env currentVersion)
      (fun r a m => (r.success = false → r.status = .rollbackFailed) ∧ Ledger.Turned r.success a m)
      fun _ => Ledger.Unless Ledger.Sound := by
  refine rollbackDatabase_spec (R := Ledger.Turned) (by decide) (fun _ _ _ => id)
    (fun x resolved => .of_pre fun a₀ m₀ ⟨h, ha⟩ => ?_) (fun _ _ _ _ ht => ht.sound) currentVersion
  refine ((rollback_ledger _ _).pre ?_).post ?_ fun _ a m hu => hu.sound h
  · rintro a m ⟨rfl, rfl⟩
    exact ⟨rfl, 0, rfl⟩
  · rintro r a m ⟨hundoing, hall⟩
    have hsound := hundoing.sound h
    obtain ⟨rfl, -⟩ := hundoing
    cases hs : r.success with
    | false => exact hsound
    | true =>
      refine Ledger.Unless.map (Q := Ledger.Cleared) hsound rfl fun hsound =>
        ⟨⟨hsound.counted, hsound.undoable, hsound.back, hsound.went⟩, ?_⟩
      -- with something committed, the strategy is the one that committed it
      obtain hzero | hpos := Nat.eq_zero_or_pos m.committed
      · exact hzero ▸ Nat.zero_le _
      have hundoes : x.executedStrategy.any Strategy.undoes = true :=
        (congrArg View.undoable ha).symm.trans (hsound.undoable hpos).1
      obtain ⟨strategy, hx, hstrategy⟩ := (Option.any_eq_true _ _).mp hundoes
      have hsteps : x.migrationsApplied = m.committed :=
        (congrArg View.applied ha).symm.trans hsound.counted
      rw [hx, Option.getD_some] at hall
      exact hall hs hstrategy (Nat.le_of_eq hsteps.symm)

/-- A deployer that owes no rollback of the database has committed nothing. -/
theorem Ledger.Unless.cleared {x : Attributes} {m : Ledger}
    (h : Unless Sound (Watch.ledger.attrs x) m) (hfree : x.owesRollback = false) :
    Unless Cleared (Watch.ledger.attrs x) m := by
  refine h.imp fun hsound => ⟨hsound, ?_⟩
  obtain hzero | hpos := Nat.eq_zero_or_pos m.committed
  · exact hzero ▸ Nat.zero_le _
  have hdb : x.settings.databaseConfig.isSome = true := (hsound.undoable hpos).2
  have happlied : x.migrationsApplied = m.committed := hsound.counted
  simp [Attributes.owesRollback, hdb, happlied, Nat.ne_of_gt hpos] at hfree

/-- After a rollback, of its result. -/
def Ledger.Rolled (r : DeploymentResult) : View → Ledger → Prop :=
  Unless fun a m => Sound a m ∧ (m.committed ≤ m.undone ∨ statusAfter r = .rollbackFailed)

/-- A rollback accounts for the migrations it takes back. -/
theorem rollback_schema :
    Spec Watch.ledger (fun a m => Ledger.Unless Ledger.Sound a m ∧ a.previous = true) (rollback env)
      Ledger.Rolled fun _ => Ledger.Unless Ledger.Sound := by
  refine rollback_spec Ledger.Turned (fun _ => Ledger.Unless Ledger.Sound) (by decide)
    (fun _ _ _ h => h.1) (fun _ _ h => ⟨h.1.goingBack .rollback h.2, h.2⟩)
    (fun cv => (rollbackDatabase_schema cv).pre fun _ _ h => h.1.1)
    (fun x m hfree h => h.1.cleared hfree) (fun cv target details => ?_) (fun r hs _ => ?_)
    fun f r hs _ => ?_
  · exact (cleared_frame (by decide)).post (fun _ _ _ h => h.imp fun hc => ⟨hc.1, .inl hc.2⟩)
      fun _ _ _ h => h.imp And.left
  all_goals
    refine (recordOutcome_spec (by decide) r none).post ?_ fun _ _ _ => id
    rintro _ a m ⟨rfl, h⟩
    exact h.imp fun hsound => ⟨hsound, .inr (by simp [statusAfter, hs])⟩

/-- After the previous state was restored, of what was done. -/
def Ledger.Restored (o : RestoreOutcome) : View → Ledger → Prop :=
  Unless fun a m => Sound a m ∧ (m.committed ≤ m.undone ∨
    (o.dbRollbackAttempted = true ∧ o.dbRollbackSucceeded = false) ∨ (m.went = false ∧ o = {}))

/-- Restoring the previous state accounts for the migrations it takes back. -/
theorem restorePreviousState_schema (keepServiceStopped : Bool) :
    Calm Watch.ledger (Ledger.Unless Ledger.Sound) (restorePreviousState env keepServiceStopped)
      Ledger.Restored fun _ _ _ => True := by
  refine restorePreviousState_spec Ledger.Turned
    (fun attempted _ => Ledger.Unless fun a m =>
      Ledger.Sound a m ∧ (m.committed ≤ m.undone ∨ attempted = true))
    keepServiceStopped (fun x m hp h => h.imp fun hsound => ⟨hsound, .inr (.inr ⟨?_, rfl⟩)⟩)
    (fun x m hp h => h.goingBack .restore hp) (fun cv => ?_) (fun x m hfree _ h => h.cleared hfree)
    (fun sha attempted => ?_)
    (fun message a m h => h.imp fun hsound => ⟨hsound, .inr (.inl ⟨rfl, rfl⟩)⟩)
    fun attempted message e a m h => h.imp fun hsound => ⟨hsound.1, ?_⟩
  · have hnone : (Watch.ledger.attrs x).previous ≠ true := by
      simp [Watch.ledger, Attributes.view, hp]
    exact (Bool.not_eq_true _).mp fun hw => hnone (hsound.went hw)
  -- The rollback of the database accounts for its steps, and then the tree is put back.
  · exact ((rollbackDatabase_schema cv).pre fun _ _ h => h.1).post (fun _ _ _ => id)
      fun _ _ _ h => h.imp fun hsound => ⟨hsound, .inr rfl⟩
  · exact (cleared_frame (by decide)).post (fun _ _ _ h => h.imp fun hc => ⟨hc.1, .inl hc.2⟩)
      fun _ _ _ h => h.imp fun hc => ⟨hc.1, .inl hc.2⟩
  · exact Or.imp_right (fun ha => .inl ⟨ha, rfl⟩) hsound.2

/-! ## The run -/

/-- At the end of a run, of its result. -/
def Ledger.Ended (r : DeploymentResult) : View → Ledger → Prop :=
  Unless fun a m => Sound a m ∧ (m.committed ≤ m.undone ∨ r.status = .rollbackFailed ∨
    (m.went = false ∧ r.status ≠ .rolledBack))

/-- A run that went no way back. -/
theorem Ledger.Unless.ended {r : DeploymentResult} {a : View} {m : Ledger} (h : Unless Sound a m)
    (hw : Sound a m → m.went = false) (hr : r.status ≠ .rolledBack) : Ended r a m :=
  h.imp fun hsound => ⟨hsound, .inr (.inr ⟨hw hsound, hr⟩)⟩

/-- A run may end with the result its rollback's state gives. -/
theorem Ledger.Rolled.ended {r r' : DeploymentResult} {a : View} {m : Ledger}
    (hr : r'.status = statusAfter r) (h : Rolled r a m) : Ended r' a m :=
  h.imp fun hrolled => ⟨hrolled.1, Or.imp_right (fun hf => .inl (hr.trans hf)) hrolled.2⟩

/-- A run may end with the result classified by what was restored. -/
theorem Ledger.Restored.ended {o : RestoreOutcome} {text : String} {r : DeploymentResult} {a : View}
    {m : Ledger} (hr : r.status = (classifyFailure o text).1) (h : Restored o a m) : Ended r a m := by
  refine h.imp fun ⟨hsound, ho⟩ => ⟨hsound, ?_⟩
  obtain hundone | ⟨hattempted, hfailed⟩ | ⟨hw, rfl⟩ := ho
  · exact .inl hundone
  · exact .inr (.inl (by simp [hr, classifyFailure, hattempted, hfailed]))
  · exact .inr (.inr ⟨hw, by simp [hr, classifyFailure]⟩)

/-- The account of the schema. -/
def Ledger.schema (env : Env) : Account env Watch.ledger where
  start := Unbegun
  advanced a m := Unless Sound a m ∧ m.went = false
  left _ := Unless Sound
  expired := Unless Sound
  rolled := Rolled
  restored := Restored
  ended := Ended
  blind := Watch.ledger_blind
  start_init := unbegun_start env
  start_left _ _ _ h := h.advanced.sound.1
  advance_spec := advance_ledger.post (fun _ _ _ h => h.sound) fun _ _ _ h => h.sound.1
  advanced_left _ _ _ h := h.1
  rollback_spec := rollback_schema.pre <| by
    rintro _ m ⟨h, x, hx, rfl⟩
    exact ⟨h.1, hx⟩
  rollback_expired := (rollback_schema.pre <| by
    rintro _ m ⟨h, x, hx, rfl⟩
    exact ⟨h, hx⟩).post (fun _ _ _ => id) fun _ _ _ _ => trivial
  build_spec r old := (buildRollbackResult_spec (by decide) r old).post
    (fun _ _ _ h => Rolled.ended h.1 h.2) fun _ _ _ h => h.imp And.left
  buildTimeout_spec r old message := (buildTimeoutRollbackResult_spec (by decide) r old message).post
    (fun _ _ _ h => Rolled.ended h.1 h.2) fun _ _ _ _ => trivial
  ended_left _ _ _ h := h.imp And.left
  halted r a m hr _ h := h.1.ended (fun _ => h.2) (by simp [hr])
  succeeded r a m hr h := h.1.ended (fun _ => h.2) (by simp [hr])
  unreverted r x m hp hr h := h.ended
    (fun hsound => (Bool.not_eq_true _).mp fun hw => by
      have := hsound.went hw
      simp [Watch.ledger, Attributes.view, hp] at this)
    (by simp [hr])
  restore_spec f := restorePreviousState_schema _
  classified _ _ _ _ _ hr h := h.ended hr

/-- A run that stored the count of what it committed puts no old code back on a newer schema. -/
theorem schema_kept (env : Env) (h : env.final.ledger.uncounted = false) :
    ∃ r, env.outcome = (.ok r, env.final) ∧ SchemaKept r env.final.deeds := by
  obtain ⟨r, hr, hended⟩ := (Ledger.schema env).ends fun _ _ _ hleft => hleft
  obtain ⟨hsound, hstatus⟩ := hended.resolve_left (by rw [Bool.not_eq_true]; exact h)
  refine ⟨r, hr, ⟨fun hback => ?_, fun way hwent hlt => ⟨?_, fun before d after hds hb => ?_⟩⟩⟩
  -- Old code came back by a restore, or by a rollback that succeeded.
  · obtain ⟨sha, hsha⟩ | hrolled := hback
    · refine hsound.back ?_
      obtain hmem | hmem := hsha <;> obtain ⟨before, after, hds⟩ := List.append_of_mem hmem <;>
        exact (congrArg (·.back) (congrArg Ledger.ofDeeds hds)).trans (Ledger.ofDeeds_back rfl (.inr rfl))
    · obtain hle | hf | ⟨-, hne⟩ := hstatus
      · exact hle
      · simp [hrolled] at hf
      · exact absurd hrolled hne
  · obtain hle | hf | ⟨hw, -⟩ := hstatus
    · exact absurd hlt (Nat.not_lt.mpr hle)
    · exact hf
    · exact nomatch hw.symm.trans (Ledger.ofDeeds_went hwent)
  -- Code that came back earlier was behind the schema then as well.
  · refine (Bool.not_eq_true _).mp fun hd => absurd hlt (Nat.not_lt.mpr (hsound.back ?_))
    exact (congrArg (·.back) (congrArg Ledger.ofDeeds hds)).trans (Ledger.ofDeeds_back hd (.inl (Ledger.ofDeeds_went hb)))

/-! ## A timer that goes off in `Migrator.up` -/

set_option maxRecDepth 10000 in
/-- The timer goes off when two migrations are committed and `Migrator.up`, the statement numbered
98, has not returned. The run says that it rolled back, and the worktree is at the previous commit;
both migrations are still there. -/
theorem old_code_on_newer_schema :
    let env := { unhealthy with timer := some (98, .inside .passed) }
    env.outcome.1.toOption.map (·.status) = some .rolledBack ∧
      env.final.ledger.committed = 2 ∧ env.final.ledger.undone = 0 ∧
        ∀ r, ¬SchemaKept r env.final.deeds := by
  refine ⟨by decide, by decide, by decide, fun r h => ?_⟩
  have hundone := h.undone (.inl ⟨"0a1b2c3d", .inr (by decide)⟩)
  exact absurd hundone (by decide)

set_option maxRecDepth 10000 in
/-- The schema is kept where a service is unhealthy after its migrations. -/
theorem schema_kept_unhealthy :
    ∃ r, unhealthy.outcome = (.ok r, unhealthy.final) ∧ SchemaKept r unhealthy.final.deeds :=
  schema_kept unhealthy (by decide)

end Fraisier.Deploy
