import Fraisier.Deploy.Api
import Fraisier.Deploy.Spec

/-!
# The count of a strategy's migrations

`_run_strategy` learns how many migrations are on the database in two ways: from the result of
`strategy.execute`, and from `steps_applied` of a `DatabaseError`. Both are right whenever they are
given (`execute_ledger`): a result carries the number of migrations committed, and so does an
exception that carries a number at all. Every other way out of `strategy.execute` leaves the count
at zero, whatever was committed; the `Ledger` keeps that in mind as `uncounted`.
-/

namespace Fraisier.Deploy

open Fraisier.Lib

variable {env : Env} {K : List Aspect}

/-! ## Exceptions that carry no count -/

/-- The exception carries no count of migrations. -/
def Exn.Uncounted : Exn → Prop
  | .deploymentTimeoutExpired => True
  | .raised f => f.stepsApplied = none

/-- What comes from outside has no count. -/
theorem Exn.Outside.uncounted {e : Exn} (h : e.Outside) : e.Uncounted := by
  obtain rfl | ⟨f, rfl⟩ := h
  · trivial
  · rfl

/-- No exception with a count leaves the piece. -/
abbrev Uncounted {β : Type} (p : Piece K β) : Prop := Raises Exn.Uncounted p

/-- A call raises only what comes from outside. -/
theorem call_uncounted {β : Type} {answer : ℕ → β} {took returned : β → Effect K} :
    Uncounted (call env answer took returned) :=
  .call fun _ h => h.uncounted

/-- A clause that raises what it does not name again. -/
theorem exceptFailure_uncounted {β : Type} {p : Piece K β} {handler : Failure → Piece K β}
    (hp : Uncounted p) (hh : ∀ f : Failure, f.stepsApplied = none → Uncounted (handler f)) :
    Uncounted (exceptFailure p handler) :=
  .exceptFailure hp id hh

/-- The preflight raises no count: it applies no step. -/
theorem preflight_uncounted (allowIrreversible : Bool) :
    Uncounted (preflight env allowIrreversible) :=
  .ite .pure <| .bind call_uncounted fun _ => .bind call_uncounted fun _ =>
    .ite .pure <| .bind call_uncounted fun _ => .raise rfl

/-- The gate of the dump raises no count. -/
theorem runDumpGate_uncounted (dump : DumpConfig) : Uncounted (runDumpGate env dump) := by
  refine .bind call_uncounted fun pending => .ite .pure ?_
  refine .bind (.ite call_uncounted .pure) fun space => .ite .pure ?_
  refine .bind (exceptFailure_uncounted (.bind call_uncounted fun _ => .pure) fun _ hf =>
    .ite .pure (.raise hf)) fun problem => ?_
  cases problem with
  | some text => exact .pure
  | none =>
    refine .bind call_uncounted fun dumped => .ite ?_ ?_
    · exact .bind call_uncounted fun _ => .pure
    · exact .bind call_uncounted fun _ => .pure

/-- The gate of the dump raises no count. -/
theorem dumpGate_uncounted (dump : DumpConfig) : Uncounted (dumpGate env dump) :=
  .ite (runDumpGate_uncounted dump) .pure

/-- A checked command raises no count when its failure has none. -/
theorem checked_uncounted {failure : String → Failure}
    (h : ∀ stderr, (failure stderr).stepsApplied = none) : Uncounted (checked env failure) :=
  .bind call_uncounted fun _ => .ite .pure <| .bind call_uncounted fun _ => .raise (h _)

/-- Roles are provisioned without a step of a migration. -/
theorem provisionRoles_uncounted (roles : List String) : Uncounted (provisionRoles env roles) := by
  induction roles with
  | nil => exact .pure
  | cons role roles ih =>
    exact .bind (checked_uncounted fun _ => rfl) fun _ =>
      .bind (checked_uncounted fun _ => rfl) fun _ => ih

/-- A rebuild raises no count: what it commits is no step. -/
theorem rebuildDatabase_uncounted (roles : List String) :
    Uncounted (rebuildDatabase env roles) :=
  .ensuring
    (.bind call_uncounted fun _ => .bind call_uncounted fun _ =>
      .bind (checked_uncounted fun _ => rfl) fun _ => .bind (provisionRoles_uncounted roles) fun _ =>
        checked_uncounted fun _ => rfl)
    (.assign trivial)

/-- The copy of the template raises no count. -/
theorem copyToTemplate_uncounted : Uncounted (copyToTemplate env) :=
  .bind (checked_uncounted fun _ => rfl) fun _ => checked_uncounted fun _ => rfl

/-- Refusing connections raises no count. -/
theorem refuseConnections_uncounted : Uncounted (refuseConnections env) :=
  exceptFailure_uncounted call_uncounted fun _ hf => .ite (.raise rfl) (.raise hf)

/-- The search for a backup raises no count. -/
theorem findBackup_uncounted (cfg : RestoreConfig) : Uncounted (findBackup env cfg) := by
  unfold findBackup
  cases cfg.backupPath with
  | some path => exact .pure
  | none =>
    refine .bind call_uncounted fun _ => .ite ?_ (.raise rfl)
    exact .bind call_uncounted fun _ => .bind call_uncounted fun _ => .ite .pure (.raise rfl)

/-- A dump is prepared before any step is applied. -/
theorem prepareDump_uncounted (cfg : RestoreConfig) : Uncounted (prepareDump env cfg) := by
  refine .bind (findBackup_uncounted cfg) fun _ => .bind call_uncounted fun _ =>
    .bind call_uncounted fun _ => .ite (.whenever ?_) (.raise rfl)
  exact .bind call_uncounted fun _ => .ite .pure <| .bind call_uncounted fun _ => .raise rfl

/-- The check of the cluster raises no count. -/
theorem requireTheHelpersCluster_uncounted : Uncounted (requireTheHelpersCluster env) := by
  refine .bind call_uncounted fun _ => .ite (.raise rfl) ?_
  refine .bind (.exceptException fun _ => .raise rfl) fun _ => ?_
  exact .bind call_uncounted fun _ => .ite .pure (.raise rfl)

/-- The check of the grant raises no count. -/
theorem requireTheTviewRebuildGrant_uncounted : Uncounted (requireTheTviewRebuildGrant env) := by
  refine .bind (exceptFailure_uncounted (.bind call_uncounted fun _ => .pure) fun _ hf =>
    .ite .pure (.raise hf)) fun problem => ?_
  cases problem with
  | none => exact .pure
  | some problem => exact .ite .pure (.raise rfl)

/-- A restore by pgBackRest is prepared before any step is applied. -/
theorem preparePgBackRest_uncounted (cfg : RestoreConfig) (spec : PgBackRestSpec) :
    Uncounted (preparePgBackRest env cfg spec) := by
  refine .bind (exceptFailure_uncounted ?_ fun _ hf => .ite (.raise rfl) (.raise hf)) fun _ => ?_
  · exact .bind call_uncounted fun _ => .bind call_uncounted fun _ => call_uncounted
  refine .bind (.whenever (.bind requireTheHelpersCluster_uncounted fun _ =>
    requireTheTviewRebuildGrant_uncounted)) fun _ => .bind call_uncounted fun _ => .ite ?_ .pure
  exact .bind call_uncounted fun _ => .bind call_uncounted fun _ => .raise rfl

/-- The source of a restore is prepared before any step is applied. -/
theorem prepareSource_uncounted (cfg : RestoreConfig) : Uncounted (prepareSource env cfg) := by
  unfold prepareSource
  cases cfg.pgbackrest with
  | none => exact prepareDump_uncounted cfg
  | some spec => exact preparePgBackRest_uncounted cfg spec

/-- Stopping the service raises no count. -/
theorem stopStrategyService_uncounted (serviceName : Option String) :
    Uncounted (stopStrategyService env serviceName) := by
  cases serviceName with
  | none => exact .pure
  | some _ => exact .exceptException fun _ => .raise rfl

/-- Restoring a dump raises no count. -/
theorem restoreDump_uncounted (cfg : RestoreConfig) (serviceName : Option String) :
    Uncounted (restoreDump env cfg serviceName) :=
  .bind (stopStrategyService_uncounted serviceName) fun _ => .bind call_uncounted fun _ =>
    .bind (.lift (checked_uncounted fun _ => rfl)) fun _ =>
      .bind (.lift (checked_uncounted fun _ => rfl)) fun _ => .lift (checked_uncounted fun _ => rfl)

/-- Stopping the cluster again raises no count. -/
theorem stopAgain_uncounted : Uncounted (stopAgain env) :=
  exceptFailure_uncounted (.bind call_uncounted fun _ => .pure) fun _ hf =>
    .ite .pure (.bind .note fun _ => .raise hf)

/-- The handler of a failed refresh raises no count where the failure has none. -/
theorem onRefreshFailed_uncounted {e : Exn} (he : e.Uncounted) :
    Uncounted (onRefreshFailed env e) := by
  have hclosed : ∀ reason, Uncounted (failClosed env reason) := fun _ =>
    .bind stopAgain_uncounted fun _ => .raise rfl
  cases e with
  | deploymentTimeoutExpired => exact hclosed _
  | raised f => exact .ite (.raise he) (hclosed _)

/-- A check of the restored cluster raises no count. -/
theorem require_uncounted (problem : String → String) : Uncounted (require env problem) :=
  .bind call_uncounted fun _ => .ite .pure <| .bind call_uncounted fun _ => .raise rfl

/-- The restored cluster is verified without a step of a migration. -/
theorem verifyRestoredCluster_uncounted (cfg : RestoreConfig) (spec : PgBackRestSpec) :
    Uncounted (verifyRestoredCluster env cfg spec) :=
  .bind requireTheHelpersCluster_uncounted fun _ => .bind (require_uncounted _) fun _ =>
    .bind (require_uncounted _) fun _ => .bind (require_uncounted _) fun _ =>
      .bind (require_uncounted _) fun _ => require_uncounted _

/-- The owner is reassigned without a step of a migration. -/
theorem reassignOwner_uncounted (cfg : RestoreConfig) : Uncounted (reassignOwner env cfg) := by
  unfold reassignOwner
  cases cfg.targetOwner with
  | none => exact .pure
  | some _ => exact require_uncounted _

/-- A refresh of the cluster raises no count. -/
theorem refresh_uncounted (cfg : RestoreConfig) (spec : PgBackRestSpec) :
    Uncounted (refresh env cfg spec) :=
  .bind call_uncounted fun _ => .bind call_uncounted fun _ => .bind call_uncounted fun _ =>
    .bind call_uncounted fun _ => .bind (.lift (verifyRestoredCluster_uncounted cfg spec)) fun _ =>
      .bind (.lift (reassignOwner_uncounted cfg)) fun _ => .bind call_uncounted fun _ =>
        .bind (.whenever call_uncounted) fun _ => .assign trivial

/-- A restore by pgBackRest raises no count. -/
theorem restorePgBackRest_uncounted (cfg : RestoreConfig) (spec : PgBackRestSpec)
    (serviceName : Option String) : Uncounted (restorePgBackRest env cfg spec serviceName) := by
  refine .bind (.lift (stopStrategyService_uncounted serviceName)) fun _ => ?_
  refine .bind (.lift (exceptFailure_uncounted call_uncounted fun _ hf =>
    .ite (.raise rfl) (.raise hf))) fun _ => ?_
  exact .lift (.exceptException_of (refresh_uncounted cfg spec) fun _ => onRefreshFailed_uncounted)

/-- A restore raises no count, whatever its source. -/
theorem restoreSource_uncounted (cfg : RestoreConfig) (serviceName : Option String) :
    Uncounted (restoreSource env cfg serviceName) := by
  unfold restoreSource
  cases cfg.pgbackrest with
  | none => exact .lift (restoreDump_uncounted cfg serviceName)
  | some spec => exact restorePgBackRest_uncounted cfg spec serviceName

/-- The decision on the template raises no count. -/
theorem decideTemplate_uncounted (mode : TemplateMode) : Uncounted (decideTemplate env mode) := by
  unfold decideTemplate
  cases mode with
  | auto => exact call_uncounted
  | always => exact .pure
  | never => exact .pure

/-- Taking the template raises no count. -/
theorem takeTemplate_uncounted (cfg : RestoreConfig) : Uncounted (takeTemplate env cfg) :=
  .bind call_uncounted fun _ => .bind (checked_uncounted fun _ => rfl) fun _ =>
    .bind call_uncounted fun _ => checked_uncounted fun _ => rfl

/-- Starting the service raises no count. -/
theorem startStrategyService_uncounted (serviceName : Option String) :
    Uncounted (startStrategyService env serviceName) := by
  cases serviceName with
  | none => exact .pure
  | some _ => exact .exceptException fun _ => .raise rfl

/-- The check of the tables raises no count. -/
theorem checkTviewsNotEmpty_uncounted (cfg : RestoreConfig) :
    Uncounted (checkTviewsNotEmpty env cfg) := by
  refine exceptFailure_uncounted (.bind call_uncounted fun _ => .ite .pure ?_) fun _ hf =>
    .ite ?_ (.raise hf)
  all_goals cases cfg.onEmptyTview
  · exact .bind call_uncounted fun _ => .raise rfl
  · exact .pure
  · exact .raise rfl
  · exact .pure

/-- The end of a restore raises no count. -/
theorem checkAndStart_uncounted (cfg : RestoreConfig) (serviceName : Option String) :
    Uncounted (checkAndStart env cfg serviceName) := by
  refine .bind (.whenever ?_) fun _ => .bind (.lift (checkTviewsNotEmpty_uncounted cfg)) fun _ =>
    .bind call_uncounted fun _ => startStrategyService_uncounted serviceName
  exact .bind call_uncounted fun _ => .ite .pure <| .bind call_uncounted fun _ => .raise rfl

/-! ## The ledger -/

/-- What the trace says of the migrations, of their count and of the ways back. -/
structure Ledger where
  /-- How many migrations were committed. -/
  committed : ℕ := 0
  /-- How many were undone in the database; the template undoes all. -/
  undone : ℕ := 0
  /-- How many were asked to be undone, over the rollbacks that succeeded. -/
  requested : ℕ := 0
  /-- A batch was committed and no count has been assigned since. -/
  uncounted : Bool := false
  /-- A way back was entered. -/
  went : Bool := false
  /-- Old code was put back: the worktree was reverted, or the service was started on a way back. -/
  back : Bool := false
  deriving DecidableEq

/-- One more deed. -/
def Ledger.see (m : Ledger) : Deed → Ledger
  | .migrated n =>
    { m with committed := m.committed + n, uncounted := m.uncounted || decide (0 < n) }
  | .reversed n => { m with undone := m.undone + n }
  | .templateRestored => { m with undone := max m.undone m.committed }
  | .counted _ => { m with uncounted := false }
  | .rolledBack n true => { m with requested := m.requested + n }
  | .goingBack _ => { m with went := true }
  | .checkout _ | .reverted _ => { m with back := true }
  | .service .start | .service .restart => { m with back := m.back || m.went }
  | _ => m

/-- The strategy can undo what it has applied: a rebuild applies no migrations. -/
def Strategy.undoes : Strategy → Bool
  | .rebuild _ _ => false
  | _ => true

/-- The attributes that decide what a way back does to the database. -/
structure View where
  /-- `_migrations_applied`. -/
  applied : ℕ
  /-- The executed strategy can undo migrations. -/
  undoable : Bool
  /-- There is a `database` block. -/
  database : Bool
  /-- There is a previous commit. -/
  previous : Bool

/-- The view of a deployer. -/
def Attributes.view (x : Attributes) : View where
  applied := x.migrationsApplied
  undoable := x.executedStrategy.any Strategy.undoes
  database := x.settings.databaseConfig.isSome
  previous := x.previousSha.isSome

/-- What the ledger looks at. -/
def Watch.ledger : Watch View Ledger where
  attrs := Attributes.view
  init := {}
  step := Ledger.see
  reads := [.rollback, .database, .applied, .worktree, .service, .settings, .previous]
  attrs_eq x y h := by
    have hs := h .settings (by simp)
    have ha := h .applied (by simp)
    have hp := h .previous (by simp)
    simp only [Attributes.Agree] at hs ha hp
    simp only [Attributes.view, hs, ha, hp]
  step_eq m d hd := by
    cases d <;> simp_all [Deed.aspect, Ledger.see]

/-- The ledger reads neither the record nor the outcome of a deploy. -/
theorem Watch.ledger_blind : .record ∉ Watch.ledger.reads ∧ .outcome ∉ Watch.ledger.reads := by
  decide

/-- The ledger of a strategy that committed `n` migrations. -/
def Ledger.of (n : ℕ) : Ledger := { committed := n, uncounted := decide (0 < n) }

/-- Before a way back is entered, whatever the service does leaves the ledger alone. -/
theorem ledger_frame {β : Type} {p : Piece K β} {P : View → Ledger → Prop}
    (hK : ∀ a ∈ K, a = .service ∨ a ∉ Watch.ledger.reads) (hP : ∀ a m, P a m → m.went = false) :
    Spec Watch.ledger P p (fun _ => P) fun _ => P := by
  -- No call before that is one that the ledger counts.
  refine .invariant (fun a m d hd h => ?_) fun x y hxy m h => ?_
  · have hsee : Watch.ledger.step m d = m := by
      obtain hs | hs := hK _ hd
      · have hw := hP a m h
        cases d <;> simp only [Deed.aspect, reduceCtorEq] at hs
        obtain ⟨⟩ := m
        rename_i v _ _ _ _ _ _
        cases v <;> simp_all [Watch.ledger, Ledger.see]
      · exact Watch.ledger.step_eq m d hs
    rwa [hsee]
  · have hview : Watch.ledger.attrs y = Watch.ledger.attrs x := Watch.ledger.attrs_eq x y fun a ha => by
      by_cases hk : a ∈ K
      · obtain rfl | hs := hK a hk
        · trivial
        · exact absurd ha hs
      · exact hxy a hk
    rwa [hview]

/-- If the exception carries a count, it is `n`. -/
def Exn.Counts (n : ℕ) : Exn → Prop
  | .deploymentTimeoutExpired => True
  | .raised f => ∀ k, f.stepsApplied = some k → k = n

/-- An exception without a count counts any number of steps. -/
theorem Exn.Uncounted.counts {e : Exn} (h : e.Uncounted) (n : ℕ) : e.Counts n := by
  cases e with
  | deploymentTimeoutExpired => trivial
  | raised f => exact fun k hk => by simp [show f.stepsApplied = none from h] at hk

/-- A strategy was cut short by `e` when it had committed some migrations. -/
def Ledger.Cut (a₀ : View) (undoes : Bool) (e : Exn) (a : View) (m : Ledger) : Prop :=
  ∃ n, a = a₀ ∧ m = of n ∧ e.Counts n ∧ (0 < n → undoes = true)

/-- Before anything is committed. -/
def Ledger.Clean (a₀ a : View) (m : Ledger) : Prop := a = a₀ ∧ m = {}

/-- Where nothing was committed, an exception without a count leaves nothing to undo. -/
theorem Ledger.Clean.cut {a₀ a : View} {m : Ledger} {e : Exn} {undoes : Bool} (h : Clean a₀ a m)
    (he : e.Uncounted) : Cut a₀ undoes e a m :=
  ⟨0, h.1, h.2, he.counts 0, nofun⟩

/-! ### Before the migrations -/

/-- A piece that comes before the migrations, and raises no count. -/
theorem clean_frame {β : Type} {p : Piece K β} {a₀ : View} {undoes : Bool}
    (hK : ∀ a ∈ K, a = .service ∨ a ∉ Watch.ledger.reads) (hp : Uncounted p) :
    Spec Watch.ledger (Ledger.Clean a₀) p (fun _ => Ledger.Clean a₀) (Ledger.Cut a₀ undoes) :=
  (hp.spec (ledger_frame hK fun _ _ h => by rw [h.2])).post (fun _ _ _ => id)
    fun _ _ _ h => h.2.cut h.1

/-- A call that comes before the migrations. -/
theorem clean_ask {β : Type} {answer : ℕ → β} {a₀ : View} {undoes : Bool} :
    Spec Watch.ledger (Ledger.Clean a₀) (call env answer : Piece K β) (fun _ => Ledger.Clean a₀)
      (Ledger.Cut a₀ undoes) :=
  (call_uncounted.spec Spec.ask).post (fun _ _ _ => id) fun _ _ _ h => h.2.cut h.1

/-! ### The migrations -/

/-- What the migrations of a batch leave when they end normally. -/
def Ledger.Applied (a₀ : View) (n : ℕ) (a : View) (m : Ledger) : Prop := a = a₀ ∧ m = of n

/-- Where steps were committed, an exception that counts them leaves them to be undone. -/
theorem Ledger.Applied.cut {a₀ a : View} {n : ℕ} {m : Ledger} {e : Exn} (h : Applied a₀ n a m)
    (he : e.Counts n) : Cut a₀ true e a m :=
  ⟨n, h.1, h.2, he, fun _ => rfl⟩

/-- A call that comes after the migrations. -/
theorem applied_ask {β : Type} {answer : ℕ → β} {a₀ : View} {n : ℕ} :
    Spec Watch.ledger (Ledger.Applied a₀ n) (call env answer : Piece K β)
      (fun _ => Ledger.Applied a₀ n) (Ledger.Cut a₀ true) :=
  (call_uncounted.spec Spec.ask).post (fun _ _ _ => id) fun _ _ _ h => h.2.cut (h.1.counts n)

/-- One attempt at `migrate up` tells how many steps it committed, if the retries do. -/
theorem upAttempt_ledger {a₀ : View} {busy : Piece [.database] (ℕ × Option String)}
    (hbusy : Spec Watch.ledger (Ledger.Clean a₀) busy (fun r => Ledger.Applied a₀ r.1)
      (Ledger.Cut a₀ true)) :
    Spec Watch.ledger (Ledger.Clean a₀) (upAttempt env busy) (fun r => Ledger.Applied a₀ r.1)
      (Ledger.Cut a₀ true) := by
  have hcall : Spec Watch.ledger (Ledger.Clean a₀)
      (call env env.up fun r => Effect.deed (.migrated r.committed) : Piece [.database] UpRun)
      (fun r => Ledger.Applied a₀ r.committed) (Ledger.Cut a₀ true) := by
    -- Steps that are applied are counted by the ledger as they are committed.
    have happlied : ∀ n a m, Ledger.Clean a₀ a m →
        Ledger.Applied a₀ n a (Watch.ledger.step m (.migrated n)) := by
      rintro n a m ⟨ha, rfl⟩
      exact ⟨ha, by simp [Watch.ledger, Ledger.see, Ledger.of]⟩
    exact .call (fun n x m h => happlied _ _ _ h) fun n e x m he h =>
      ⟨h.cut he.uncounted, (happlied (env.up n).committed _ _ h).cut (he.uncounted.counts _)⟩
  refine .bind hcall fun r => ?_
  -- The attempt returned, was refused, or found the lock busy.
  cases r with
  | returned applied incomplete => exact .pure fun _ _ h => h
  | refused message advice =>
    cases advice with
    | none => exact .raise fun _ _ h => h.cut (Exn.Uncounted.counts (by rfl) _)
    | some text => exact .raise fun _ _ h => h.cut fun k hk => by simpa [UpRun.committed] using hk.symm
  | lockBusy => exact hbusy.pre fun _ _ h => h

/-- The attempts at `migrate up` tell how many steps were committed: by induction on those left. -/
theorem upAttempts_ledger {a₀ : View} (left : ℕ) :
    Spec Watch.ledger (Ledger.Clean a₀) (upAttempts env left) (fun r => Ledger.Applied a₀ r.1)
      (Ledger.Cut a₀ true) := by
  induction left with
  | zero => exact upAttempt_ledger (.raise fun _ _ h => h.cut rfl)
  | succ left ih => exact upAttempt_ledger (.bind clean_ask fun _ => ih)

/-- A body between the context managers of a migrator, whose clean-up may replace its exception by
one from outside. -/
theorem withMigrator_spec {α β μ : Type} {w : Watch α μ} {body : Piece K β} {P : α → μ → Prop}
    {Q : β → α → μ → Prop} {E : Exn → α → μ → Prop} (hbody : Spec w P body Q E)
    (hP : ∀ e : Exn, e.Outside → ∀ a m, P a m → E e a m)
    (hQ : ∀ e : Exn, e.Outside → ∀ b a m, Q b a m → E e a m)
    (hE : ∀ e' : Exn, e'.Outside → ∀ e a m, E e a m → E e' a m) :
    Spec w P (withMigrator env body) Q E := by
  have hask : Spec w P (call env fun _ => () : Piece K Unit) (fun _ => P) E :=
    ((Raises.call fun _ => id).spec Spec.ask).post (fun _ _ _ => id) fun e a m h => hP e h.1 a m h.2
  have hensure : ∀ {p : Piece K β}, Spec w P p Q E → Spec w P (ensuring p (call env fun _ => ())) Q E :=
    fun h => .ensuring h (Raises.call fun _ => id) (fun b e a m he => hQ e he b a m)
      fun e e' a m he => hE e' he e a m
  exact .bind hask fun _ => hensure (.bind hask fun _ => hensure hbody)

/-- A body between the context managers of a migrator. -/
theorem withMigrator_ledger {β : Type} {a₀ : View} {body : Piece K β} {n : β → ℕ}
    (hbody : Spec Watch.ledger (Ledger.Clean a₀) body (fun b => Ledger.Applied a₀ (n b))
      (Ledger.Cut a₀ true)) :
    Spec Watch.ledger (Ledger.Clean a₀) (withMigrator env body) (fun b => Ledger.Applied a₀ (n b))
      (Ledger.Cut a₀ true) := by
  refine withMigrator_spec hbody (fun e he _ _ h => h.cut he.uncounted)
    (fun e he b _ _ h => h.cut (he.uncounted.counts _)) ?_
  -- a clean-up that raises carries no count
  rintro e' he' e a m ⟨k, ha, hm, -, hu⟩
  exact ⟨k, ha, hm, he'.uncounted.counts k, hu⟩

/-- The verification of a batch raises no count. -/
theorem verifyBatch_uncounted : Uncounted (verifyBatch env) :=
  .bind call_uncounted fun _ => .ite .pure <| .bind call_uncounted fun _ => .raise rfl

/-- `migrate_up` gives the number of migrations that it committed, or raises with it. -/
theorem migrateUp_ledger {a₀ : View} (preVerify : Bool) :
    Spec Watch.ledger (Ledger.Clean a₀) (migrateUp env preVerify) (Ledger.Applied a₀)
      (Ledger.Cut a₀ true) := by
  refine .bind (.whenever (fun _ => .lift (clean_frame (by decide) verifyBatch_uncounted))
    fun _ _ _ h => h) fun _ => ?_
  refine .bind clean_ask fun _ => .bind (withMigrator_ledger (n := Prod.fst) ?_) fun r => ?_
  · exact .bind clean_ask fun _ => upAttempts_ledger _
  obtain ⟨applied, incomplete⟩ := r
  cases incomplete with
  | none => exact .pure fun _ _ h => h
  | some reason => exact .raise fun _ _ h => h.cut fun k hk => by simpa using hk.symm

/-! ### The strategies -/

/-- What `strategy.execute` leaves when it returns: as many migrations as its result says. -/
def Ledger.Executed (a₀ : View) (undoes : Bool) (r : StrategyResult) (a : View) (m : Ledger) :
    Prop :=
  a = a₀ ∧ m = of r.migrationsApplied ∧ (0 < r.migrationsApplied → undoes = true)

/-- The migrate strategy tells how many steps it committed. -/
theorem executeMigrate_ledger {a₀ : View} (dump : DumpConfig) (allowIrreversible preVerify : Bool) :
    Spec Watch.ledger (Ledger.Clean a₀) (executeMigrate env dump allowIrreversible preVerify)
      (Ledger.Executed a₀ true) (Ledger.Cut a₀ true) := by
  refine .bind clean_ask fun _ => ?_
  refine .lift_bind (clean_frame (by decide) (preflight_uncounted _)) fun _ => ?_
  refine .lift_bind (clean_frame (by decide) (dumpGate_uncounted dump)) fun gateError => ?_
  cases gateError with
  | some error => exact .pure fun _ _ h => ⟨h.1, h.2, nofun⟩
  | none =>
    exact .bind (migrateUp_ledger _) fun n => .pure fun _ _ h => ⟨h.1, h.2, fun _ => rfl⟩

/-- The last steps of a restore: a `DatabaseError` among them is given the count. -/
theorem countedCheckAndStart_ledger {a₀ : View} (cfg : RestoreConfig) (serviceName : Option String)
    (n : ℕ) :
    Spec Watch.ledger (Ledger.Applied a₀ n) (countedCheckAndStart env cfg serviceName n)
      (fun _ => Ledger.Applied a₀ n) (Ledger.Cut a₀ true) := by
  have hframe : Spec Watch.ledger (Ledger.Applied a₀ n) (checkAndStart env cfg serviceName)
      (fun _ => Ledger.Applied a₀ n) fun e a m => e.Uncounted ∧ Ledger.Applied a₀ n a m :=
    (checkAndStart_uncounted cfg serviceName).spec
      (ledger_frame (by decide) fun _ _ h => by rw [h.2, Ledger.of])
  refine .exceptFailure hframe (fun _ _ h => h.2.cut trivial) fun f => .ite (fun _ => ?_) fun _ => ?_
  · exact .raise fun _ _ h => h.2.cut fun k hk => by simpa using hk.symm
  · exact .raise fun _ _ h => h.2.cut (h.1.counts n)

/-- Noting the template commits nothing. -/
theorem setTemplateTaken_ledger {a₀ : View} (taken : Bool) :
    Spec Watch.ledger (Ledger.Clean a₀) (setTemplateTaken env taken) (fun _ => Ledger.Clean a₀)
      (Ledger.Cut a₀ true) :=
  .assign (fun _ _ h => h) (fun _ _ h => h.cut trivial) fun _ _ h => Ledger.Clean.cut h trivial

/-- The restore strategy tells how many steps it committed. -/
theorem executeRestoreMigrate_ledger {a₀ : View} (cfg : RestoreConfig)
    (serviceName : Option String) :
    Spec Watch.ledger (Ledger.Clean a₀) (executeRestoreMigrate env cfg serviceName)
      (Ledger.Executed a₀ true) (Ledger.Cut a₀ true) := by
  refine .bind clean_ask fun _ => ?_
  refine .lift_bind (clean_frame (by decide) refuseConnections_uncounted) fun _ => ?_
  refine .lift_bind (clean_frame (by decide) (prepareSource_uncounted cfg)) fun _ => ?_
  refine .lift_bind (clean_frame (by decide) (restoreSource_uncounted cfg serviceName)) fun _ => ?_
  refine .lift_bind (clean_frame (by decide) (decideTemplate_uncounted _)) fun take => ?_
  refine .bind (.whenever (fun _ => .lift (clean_frame (by decide) (takeTemplate_uncounted cfg)))
    fun _ _ _ h => h) fun _ => ?_
  refine .lift_bind (setTemplateTaken_ledger take) fun _ => ?_
  refine .lift_bind (migrateUp_ledger false) fun n => ?_
  refine .lift_bind (countedCheckAndStart_ledger cfg serviceName n) fun _ => ?_
  exact .bind applied_ask fun _ => .pure fun _ _ h => ⟨h.1, h.2, fun _ => rfl⟩

/-- A rebuild applies no migrations. -/
theorem executeRebuild_ledger {a₀ : View} (roles : List String) (createTemplate : Bool) :
    Spec Watch.ledger (Ledger.Clean a₀) (executeRebuild env roles createTemplate)
      (Ledger.Executed a₀ false) (Ledger.Cut a₀ false) := by
  refine .bind clean_ask fun _ =>
    .bind (clean_frame (by simp) (rebuildDatabase_uncounted roles)) fun _ => .bind clean_ask fun _ => ?_
  refine .bind (clean_frame (by simp) (.whenever copyToTemplate_uncounted)) fun _ => ?_
  exact .pure fun _ _ h => ⟨h.1, h.2, nofun⟩

/-- A result of `strategy.execute` carries the number of migrations committed, and so does an
exception that carries one. -/
theorem execute_ledger {a₀ : View} (strategy : Strategy) (allowIrreversible preVerify : Bool) :
    Spec Watch.ledger (Ledger.Clean a₀) (strategy.execute env allowIrreversible preVerify)
      (Ledger.Executed a₀ strategy.undoes) (Ledger.Cut a₀ strategy.undoes) := by
  cases strategy with
  | migrate dump db => exact .lift (executeMigrate_ledger dump _ _)
  | restoreMigrate cfg serviceName => exact executeRestoreMigrate_ledger cfg serviceName
  | rebuild roles createTemplate => exact .lift (executeRebuild_ledger roles createTemplate)

end Fraisier.Deploy
