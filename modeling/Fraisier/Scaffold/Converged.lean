import Fraisier.Scaffold.AllOrNothing

/-!
# What a successful apply leaves running

Runs of `apply_scaffold` on one host, one after another, over changing policies and renders. A
unit is settled when the last change of its file was followed by a successful `daemon-reload` and
by its successful post-action. A run whose `systemctl` failed leaves a file that equals the render,
and the next run takes it for unchanged and reports success. `settled_of_ok` says what a successful
run does mean: each unit is settled whose file was last changed by that run itself, or by an earlier
one in which nothing failed and which granted the unit with the same action.
-/

namespace Fraisier.Scaffold

open Fraisier.Lib Interaction Fraisier.Unit

/-! ## Runs on a host -/

/-- The call may have changed the unit's file. -/
def Changes (name : Str) : Sigma ApplyCall.Answer → Prop
  | ⟨.writeUnit unit _, r⟩ => unit = name ∧ r ≠ .raised false
  | _ => False

instance (name : Str) : DecidablePred (Changes name)
  | ⟨.writeUnit unit _, r⟩ => inferInstanceAs (Decidable (unit = name ∧ r ≠ .raised false))
  | ⟨.readTree _, _⟩ => .isFalse id
  | ⟨.readInstalled _, _⟩ => .isFalse id
  | ⟨.systemctl _, _⟩ => .isFalse id

/-- What was last written to a unit's file. -/
def lastWritten (name : Str) : Calls → Option ByteArray
  | [] => none
  | e :: h => (lastWritten name h).or <| match e with
    | ⟨.writeUnit unit data, r⟩ => if unit = name ∧ r ≠ .raised false then some data else none
    | _ => none

/-- A host whose unit files only applies change: a file that was written is read as it is. -/
def OnHost : Rely ApplyCall.Answer
  | h, ⟨.readInstalled path, r⟩ => ∀ name data, path = unitPath name →
      lastWritten name h = some data → r = .file data ∨ r = .raised
  | _, _ => True

/-- One run of `apply_scaffold`: what it is given, the calls it made, and how it ended. -/
structure ApplyRun where
  loads : ByteArray → Loaded
  policy : RootPolicy
  hostname : Str
  deployInFlight : Bool
  calls : Calls
  result : Except Raised ApplyOutcome

/-- The run is one of `apply_scaffold`, after some calls. -/
def ApplyRun.Ran (r : ApplyRun) (before : Calls) : Prop :=
  (applyScaffold r.loads r.policy r.hostname r.deployInFlight).Runs OnHost before r.calls r.result

/-- The calls of runs, one run after another. -/
def callsOf (runs : List ApplyRun) : Calls := runs.flatMap ApplyRun.calls

/-- The runs are possible on one host, in this order. -/
inductive InTurn : List ApplyRun → Prop
  | nil : InTurn []
  | snoc {runs : List ApplyRun} {r : ApplyRun} (earlier : InTurn runs) (ran : r.Ran (callsOf runs)) :
      InTurn (runs ++ [r])

/-- The run changed the unit's file. -/
def ApplyRun.Changed (r : ApplyRun) (name : Str) : Prop := ∃ e ∈ r.calls, Changes name e

/-- The run put off the unit's restart. -/
def ApplyRun.Defers (r : ApplyRun) (name : Str) : Prop :=
  ∃ outcome, r.result = .ok outcome ∧ name ∈ outcome.deferredRestarts

/-- After the last change of the unit's file, `daemon-reload` has succeeded, and so has the unit's
post-action, unless its restart was put off. -/
def Settled (runs : List ApplyRun) (name : Str) (action : Action) : Prop :=
  ∀ earlier w later before e after, runs = earlier ++ w :: later → w.calls = before ++ e :: after →
    Changes name e → (∀ e' ∈ after ++ callsOf later, ¬Changes name e') →
    ⟨.systemctl daemonReload, true⟩ ∈ after ++ callsOf later ∧
      ∀ args, postAction name action false = .run args →
        ⟨.systemctl args, true⟩ ∈ after ++ callsOf later ∨ ∃ r ∈ w :: later, r.Defers name

/-! ## One run -/

/-- The call did not fail. -/
def Succeeds : Sigma ApplyCall.Answer → Prop
  | ⟨.writeUnit _ _, r⟩ => r = .done
  | ⟨.systemctl _, ok⟩ => ok = true
  | _ => True

instance : DecidablePred Succeeds
  | ⟨.writeUnit _ _, r⟩ => inferInstanceAs (Decidable (r = .done))
  | ⟨.systemctl _, ok⟩ => inferInstanceAs (Decidable (ok = true))
  | ⟨.readTree _, _⟩ => .isTrue trivial
  | ⟨.readInstalled _, _⟩ => .isTrue trivial

/-- What a written unit calls for was called, or put off. -/
def FollowedUp (policy : RootPolicy) (deployInFlight : Bool) (deferred : List Str) (tail : Calls)
    (name : Str) : Prop :=
  ∀ grant, policy.units.lookup name = some grant →
    match postAction name grant.action deployInFlight with
    | .nothing => True
    | .defer => name ∈ deferred
    | .run args => ∃ ok, ⟨.systemctl args, ok⟩ ∈ tail

/-- The write of a unit that was done. -/
def wrote (w : Str × ByteArray) : Sigma ApplyCall.Answer := ⟨.writeUnit w.1 w.2, .done⟩

/-- The calls after the writes. -/
structure Finished (policy : RootPolicy) (deployInFlight : Bool) (toWrite : ToWrite)
    (outcome : ApplyOutcome) (tail : Calls) : Prop where
  unchanged : ∀ e ∈ tail, ∀ name, ¬Changes name e
  succeeds : outcome.failed = [] → ∀ e ∈ tail, Succeeds e
  followed : (∀ e ∈ tail, Succeeds e) → ∀ w ∈ toWrite, ⟨.systemctl daemonReload, true⟩ ∈ tail ∧
    FollowedUp policy deployInFlight outcome.deferredRestarts tail w.1

variable {policy : RootPolicy} {deployInFlight : Bool} {toWrite : ToWrite}
  {outcome : ApplyOutcome} {base h tail : Calls} {name : Str}

/-- What was followed up stays so, whatever else is deferred or done. -/
theorem FollowedUp.mono {deferred deferred' : List Str} {tail tail' : Calls}
    (hf : FollowedUp policy deployInFlight deferred tail name) (hd : deferred ⊆ deferred')
    (ht : tail ⊆ tail') : FollowedUp policy deployInFlight deferred' tail' name := by
  intro grant hgrant
  have hold := hf grant hgrant
  split at hold
  · trivial
  · exact hd hold
  · exact hold.imp fun ok hok => ht hok

/-- The writes: each is done, or one of them raises. -/
theorem writes_end (toWrite : ToWrite) (hinstalled : outcome.installed = [])
    (hfailed : outcome.failed = []) :
    (toWrite.foldlM writeOne outcome).Ends AnyAnswer base
      (fun outcome h => h = base ++ toWrite.map wrote ∧
        outcome.installed = toWrite.map Prod.fst ∧ outcome.failed = [])
      fun _ h => ∃ e ∈ h, ¬Succeeds e := by
  refine Ends.foldlM (I := fun done (outcome : ApplyOutcome) h => h = base ++ done.map wrote ∧
    outcome.installed = done.map Prod.fst ∧ outcome.failed = []) []
    ⟨(List.append_nil _).symm, hinstalled, hfailed⟩ fun done w rest outcome h _ hI => ?_
  obtain ⟨rfl, hinst, hfail⟩ := hI
  unfold writeOne
  rw [ends_bind, ends_ask]
  intro r _
  -- The first write that raises ends them all.
  cases r with
  | done =>
    refine ⟨?_, ?_, hfail⟩
    · rw [List.map_append, ← List.append_assoc]
      rfl
    · rw [List.map_append, ← hinst]
      rfl
  | raised changed =>
    exact ⟨_, List.mem_append_right _ (List.mem_singleton_self _), nofun⟩

/-- The post-actions of the units that were written. -/
theorem postActions_end (names : List Str)
    (hknown : ∀ name ∈ names, policy.units.lookup name ≠ none) :
    (names.foldlM (runPostAction policy deployInFlight) outcome).Ends AnyAnswer base
      (fun outcome' h => ∃ posts, h = base ++ posts ∧ (∀ e ∈ posts, ∀ name, ¬Changes name e) ∧
        (outcome'.failed = [] → outcome.failed = [] ∧ ∀ e ∈ posts, Succeeds e) ∧
        ∀ name ∈ names, FollowedUp policy deployInFlight outcome'.deferredRestarts posts name)
      fun _ _ => False := by
  -- The invariant: the posts so far change nothing, and each unit done is followed up.
  refine Ends.foldlM (I := fun done (outcome' : ApplyOutcome) h => ∃ posts, h = base ++ posts ∧
    (∀ e ∈ posts, ∀ name, ¬Changes name e) ∧
    (outcome'.failed = [] → outcome.failed = [] ∧ ∀ e ∈ posts, Succeeds e) ∧
    ∀ name ∈ done, FollowedUp policy deployInFlight outcome'.deferredRestarts posts name) []
    ⟨[], (List.append_nil _).symm, nofun, fun hf => ⟨hf, nofun⟩, nofun⟩
    fun done name rest outcome' h hsplit hI => ?_
  obtain ⟨posts, rfl, hposts, hsucceeds, hfollowed⟩ := hI
  have hmem : name ∈ names := by
    rw [List.nil_append] at hsplit
    exact hsplit ▸ List.mem_append_right _ List.mem_cons_self
  unfold runPostAction
  split
  · exact hknown name hmem ‹_›
  rename_i grant hgrant
  have hlookup : ∀ g, policy.units.lookup name = some g → g = grant := fun g hg =>
    Option.some.inj (hg.symm.trans hgrant)
  split
  -- No post-action is called for.
  · rename_i hpost
    refine ⟨posts, rfl, hposts, hsucceeds, fun n hn => ?_⟩
    rcases List.mem_append.mp hn with hold | hnew
    · exact hfollowed n hold
    · intro g hg
      rw [List.mem_singleton.mp hnew] at hg ⊢
      rw [hlookup g hg, hpost]
      trivial
  -- The post-action is deferred, and told to the caller.
  · rename_i hpost
    refine ⟨posts, rfl, hposts, hsucceeds, fun n hn => ?_⟩
    rcases List.mem_append.mp hn with hold | hnew
    · exact (hfollowed n hold).mono (List.subset_append_left _ _) fun _ => id
    · intro g hg
      rw [List.mem_singleton.mp hnew] at hg ⊢
      rw [hlookup g hg, hpost]
      exact List.mem_append_right _ (List.mem_singleton_self _)
  -- The post-action is a call, which succeeds or is told as failed.
  · rename_i args hpost
    rw [ends_bind, ends_ask]
    intro ok _
    have hposts' : ∀ e ∈ posts ++ [(⟨.systemctl args, ok⟩ : Sigma ApplyCall.Answer)],
        ∀ name, ¬Changes name e := by
      intro e he
      rcases List.mem_append.mp he with hold | hnew
      · exact hposts e hold
      · rw [List.mem_singleton.mp hnew]
        exact fun _ => id
    have hfollowed' : ∀ n ∈ done ++ [name], FollowedUp policy deployInFlight
        outcome'.deferredRestarts (posts ++ [⟨.systemctl args, ok⟩]) n := by
      intro n hn
      rcases List.mem_append.mp hn with hold | hnew
      · exact (hfollowed n hold).mono (fun _ => id) (List.subset_append_left _ _)
      · intro g hg
        rw [List.mem_singleton.mp hnew] at hg ⊢
        rw [hlookup g hg, hpost]
        exact ⟨ok, List.mem_append_right _ (List.mem_singleton_self _)⟩
    cases ok with
    | true =>
      refine ⟨_, List.append_assoc .., hposts', fun hf => ⟨(hsucceeds hf).1, fun e he => ?_⟩,
        hfollowed'⟩
      rcases List.mem_append.mp he with hold | hnew
      · exact (hsucceeds hf).2 e hold
      · rw [List.mem_singleton.mp hnew]
        rfl
    | false =>
      refine ⟨_, List.append_assoc .., hposts', fun hf => ?_, hfollowed'⟩
      exact absurd hf (List.append_ne_nil_of_right_ne_nil _ (List.cons_ne_nil _ _))

/-- The writes, the reload, and the post-actions. -/
theorem carryOut_finished (hkeeps : ApplyOutcome.Keeps {} outcome)
    (hknown : ∀ w ∈ toWrite, policy.units.lookup w.1 ≠ none) :
    (carryOut policy deployInFlight outcome toWrite).Ends AnyAnswer base
      (fun outcome h => ∃ tail, h = base ++ toWrite.map wrote ++ tail ∧
        Finished policy deployInFlight toWrite outcome tail)
      fun _ h => ∃ e ∈ h, ¬Succeeds e := by
  unfold carryOut
  rw [ends_bind]
  refine (writes_end toWrite hkeeps.installed hkeeps.failed).mono (fun outcome h hw => ?_)
    fun _ _ => id
  obtain ⟨rfl, hinstalled, hfailed⟩ := hw
  -- Without writes there is nothing to reload.
  split
  · rename_i hempty
    rw [List.isEmpty_iff] at hempty
    refine ⟨[], (List.append_nil _).symm, nofun, fun _ => nofun, fun _ w hw => ?_⟩
    rw [hempty] at hw
    cases hw
  rw [ends_bind, ends_ask]
  intro ok _
  have hreload : ∀ e ∈ [(⟨.systemctl daemonReload, ok⟩ : Sigma ApplyCall.Answer)],
      ∀ name, ¬Changes name e := fun e he => by
    rw [List.mem_singleton.mp he]
    exact fun _ => id
  cases ok with
  -- A failed reload ends the run, and is told as failed.
  | false =>
    refine ⟨_, rfl, hreload, fun hf => ?_, fun hs => ?_⟩
    · exact absurd hf (List.append_ne_nil_of_right_ne_nil _ (List.cons_ne_nil _ _))
    · exact absurd (hs _ (List.mem_singleton_self _)) Bool.false_ne_true
  | true =>
    -- What was installed has a grant.
    have hnames : ∀ name ∈ outcome.installed, policy.units.lookup name ≠ none := by
      intro name hname
      rw [hinstalled] at hname
      obtain ⟨w, hw, rfl⟩ := List.mem_map.mp hname
      exact hknown w hw
    refine (postActions_end outcome.installed hnames).mono (fun outcome' h hposts => ?_)
      fun _ _ => False.elim
    obtain ⟨posts, rfl, hunchanged, hsucceeds, hfollowed⟩ := hposts
    refine ⟨⟨.systemctl daemonReload, true⟩ :: posts, List.append_assoc .., fun e he => ?_,
      fun hf e he => ?_, fun _ w hw => ⟨List.mem_cons_self, ?_⟩⟩
    · rcases List.mem_cons.mp he with rfl | hpost
      · exact hreload _ (List.mem_singleton_self _)
      · exact hunchanged e hpost
    · rcases List.mem_cons.mp he with rfl | hpost
      · rfl
      · exact (hsucceeds hf).2 e hpost
    · refine (hfollowed w.1 ?_).mono (fun _ => id) (List.subset_cons_self _ _)
      rw [hinstalled]
      exact List.mem_map_of_mem hw

/-- The calls of an apply: its reads, its writes, and what follows them. -/
theorem applyScaffold_finished (loads : ByteArray → Loaded) (policy : RootPolicy) (hostname : Str)
    (deployInFlight : Bool) :
    (applyScaffold loads policy hostname deployInFlight).Ends AnyAnswer []
      (fun outcome h => ∃ reads toWrite tail, h = reads ++ toWrite.map wrote ++ tail ∧
        (∀ e ∈ reads, e.1.Reads) ∧ Finished policy deployInFlight toWrite outcome tail)
      fun _ h => (∃ e ∈ h, ¬Succeeds e) ∨ ∀ e ∈ h, e.1.Reads := by
  unfold applyScaffold
  rw [ends_bind]
  refine (judge_ends loads policy hostname).mono (fun acc reads hj => ?_) fun _ _ => .inr
  dsimp only
  -- An apply that was not cleared ends after its reads.
  split
  · have hknown : ∀ w ∈ acc.2, policy.units.lookup w.1 ≠ none := by
      intro w hw
      obtain ⟨grant, hgrant, -⟩ := hj.toWrite w hw
      have hentry := (List.perm_insertionSort _ policy.units.entries).mem_iff.mp hgrant
      have hlookup : policy.units.lookup w.1 = some grant := AList.mem_lookup_iff.mpr hentry
      rw [hlookup]
      exact Option.some_ne_none grant
    refine (carryOut_finished hj.keeps hknown).mono (fun outcome h hdone => ?_) fun _ _ => .inl
    obtain ⟨tail, hsplit, hfinished⟩ := hdone
    exact ⟨reads, acc.2, tail, hsplit, hj.reads, hfinished⟩
  · exact ⟨reads, [], [], by simp, hj.reads, nofun, fun _ => nofun, fun _ => nofun⟩

/-! ## Runs in turn -/

/-- What stands after a member that is not in the last part includes that part. -/
theorem subset_after {α : Type} {front back before after : List α} {x : α}
    (h : front ++ back = before ++ x :: after) (hx : x ∉ back) : back ⊆ after := by
  rcases List.append_eq_append_iff.mp h with ⟨mid, -, hback⟩ | ⟨mid, -, hafter⟩
  · exact absurd (hback ▸ List.mem_append_right _ List.mem_cons_self) hx
  · cases mid with
    | nil =>
      rw [List.nil_append] at hafter
      exact absurd (hafter ▸ List.mem_cons_self) hx
    | cons y mid =>
      obtain ⟨-, rfl⟩ := List.cons.inj hafter
      exact List.subset_append_right _ _

/-- A run in which every call succeeded. -/
def ApplyRun.Clean (r : ApplyRun) : Prop := ∀ e ∈ r.calls, Succeeds e

/-- The run ended well. -/
def ApplyRun.Ok (r : ApplyRun) : Prop := ∃ outcome, r.result = .ok outcome ∧ outcome.ok = true

/-- A run is ok when its outcome is. -/
theorem ApplyRun.ok_of_any {r : ApplyRun} (h : r.result.toOption.any ApplyOutcome.ok = true) :
    r.Ok := by
  obtain ⟨outcome, hresult, hok⟩ := (Option.any_eq_true _ _).mp h
  refine ⟨outcome, ?_, hok⟩
  cases hr : r.result with
  | ok o =>
    rw [hr] at hresult
    exact congrArg _ (Option.some.inj hresult)
  | error e =>
    rw [hr] at hresult
    cases hresult

/-- A call that reads changes nothing. -/
theorem not_changes_of_reads {e : Sigma ApplyCall.Answer} (h : e.1.Reads) : ¬Changes name e := by
  obtain ⟨c, r⟩ := e
  cases c with
  | readTree | readInstalled | systemctl => exact id
  | writeUnit => exact h.elim

/-- How the calls of a run look. -/
theorem ApplyRun.Ran.finished {r : ApplyRun} (hr : r.Ran base) :
    Meets (fun outcome => ∃ reads toWrite tail, r.calls = reads ++ toWrite.map wrote ++ tail ∧
        (∀ e ∈ reads, e.1.Reads) ∧ Finished r.policy r.deployInFlight toWrite outcome tail)
      (fun _ => (∃ e ∈ r.calls, ¬Succeeds e) ∨ ∀ e ∈ r.calls, e.1.Reads) r.result := by
  have hend := ((applyScaffold_finished r.loads r.policy r.hostname r.deployInFlight).shift
    OnHost base).of_runs (by rw [List.append_nil]; exact hr)
  rw [List.append_nil] at hend
  -- The calls are those that this run adds to the base.
  cases hresult : r.result with
  | ok outcome =>
    rw [hresult] at hend
    obtain ⟨es, hes, hdone⟩ := hend
    obtain rfl := List.append_cancel_left hes
    exact hdone
  | error e =>
    rw [hresult] at hend
    obtain ⟨es, hes, hdone⟩ := hend
    obtain rfl := List.append_cancel_left hes
    exact hdone

/-- A run that ended well is one in which every call succeeded. -/
theorem ApplyRun.Ran.clean {r : ApplyRun} (hr : r.Ran base) (hok : r.Ok) : r.Clean := by
  obtain ⟨outcome, hresult, hok⟩ := hok
  have hend := hr.finished
  rw [hresult] at hend
  obtain ⟨reads, toWrite, tail, hcalls, hreads, hfinished⟩ := hend
  have hfailed : outcome.failed = [] := by
    simp only [ApplyOutcome.ok, Bool.and_eq_true, List.isEmpty_iff] at hok
    exact hok.2
  intro e he
  rw [hcalls] at he
  -- The reads and the writes succeeded, or the run would have raised; what follows them is told of.
  rcases List.mem_append.mp he with hfront | htail
  · rcases List.mem_append.mp hfront with hread | hwrite
    · have hreads := hreads e hread
      obtain ⟨c, a⟩ := e
      cases c with
      | readTree | readInstalled => trivial
      | writeUnit | systemctl => exact hreads.elim
    · obtain ⟨w, -, rfl⟩ := List.mem_map.mp hwrite
      rfl
  · exact hfinished.succeeds hfailed e htail

/-- In a run in which every call succeeded, what a written unit calls for follows its write. -/
theorem ApplyRun.Ran.followed {r : ApplyRun} (hr : r.Ran base) (hclean : r.Clean)
    {before after : Calls} {e : Sigma ApplyCall.Answer} (hcalls : r.calls = before ++ e :: after)
    (hchanges : Changes name e) : ∃ outcome, r.result = .ok outcome ∧
      ⟨.systemctl daemonReload, true⟩ ∈ after ∧
      FollowedUp r.policy r.deployInFlight outcome.deferredRestarts after name := by
  have hmem : e ∈ r.calls := hcalls ▸ List.mem_append_right _ List.mem_cons_self
  have hend := hr.finished
  cases hresult : r.result with
  -- A run that raised either failed in a call or wrote nothing.
  | error x =>
    rw [hresult] at hend
    rcases hend with ⟨e', he', hfails⟩ | hreads
    · exact absurd (hclean e' he') hfails
    · exact absurd hchanges (not_changes_of_reads (hreads e hmem))
  | ok outcome =>
    rw [hresult] at hend
    obtain ⟨reads, toWrite, tail, hsplit, hreads, hfinished⟩ := hend
    -- The call that changes the unit is one of the writes.
    have htail : e ∉ tail := fun h => hfinished.unchanged e h name hchanges
    have hafter : tail ⊆ after := subset_after (hsplit.symm.trans hcalls) htail
    have hsucceeds : ∀ e ∈ tail, Succeeds e := fun e' he' =>
      hclean e' (hsplit ▸ List.mem_append_right _ he')
    have hwrite : e ∈ toWrite.map wrote := by
      rw [hsplit] at hmem
      rcases List.mem_append.mp hmem with hfront | hback
      · rcases List.mem_append.mp hfront with hread | hwrite
        · exact absurd hchanges (not_changes_of_reads (hreads e hread))
        · exact hwrite
      · exact absurd hback htail
    obtain ⟨w, hw, rfl⟩ := List.mem_map.mp hwrite
    obtain ⟨rfl, -⟩ := hchanges
    obtain ⟨hreload, hfollowed⟩ := hfinished.followed hsucceeds w hw
    exact ⟨outcome, rfl, hafter hreload, hfollowed.mono (fun _ => id) hafter⟩

/-- Each of the runs is one of `apply_scaffold` after those before it. -/
theorem InTurn.ran {runs earlier later : List ApplyRun} {w : ApplyRun} (h : InTurn runs)
    (hsplit : runs = earlier ++ w :: later) : w.Ran (callsOf earlier) := by
  induction h generalizing later with
  | nil => exact absurd hsplit.symm (List.append_ne_nil_of_right_ne_nil _ (List.cons_ne_nil _ _))
  | snoc hearlier hran ih =>
    rcases List.eq_nil_or_concat later with rfl | ⟨later', v, rfl⟩
    · obtain ⟨rfl, hlast⟩ := List.append_inj' hsplit rfl
      obtain ⟨rfl, -⟩ := List.cons.inj hlast
      exact hran
    · have hassoc : earlier ++ w :: later'.concat v = (earlier ++ w :: later') ++ [v] := by simp
      obtain ⟨hruns, -⟩ := List.append_inj' (hsplit.trans hassoc) rfl
      exact ih hruns

/-- A restart is put off, or the post-action is that of a host on which no deploy runs. -/
theorem postAction_cases (name : Str) (action : Action) (deployInFlight : Bool) :
    postAction name action deployInFlight = .defer ∨
      postAction name action deployInFlight = postAction name action false := by
  cases deployInFlight with
  | false => exact .inr rfl
  | true =>
    unfold postAction
    split
    · exact .inr rfl
    · split
      · exact .inl rfl
      · exact .inr rfl

/-- Where the last change of a granted unit's file is an earlier run's, nothing failed in that run,
and it granted the unit with the action it has now. -/
def Undisturbed (runs : List ApplyRun) (r : ApplyRun) : Prop :=
  ∀ name grant, ⟨name, grant⟩ ∈ r.policy.units.entries → ∀ earlier w later,
    runs = earlier ++ w :: later → w.Changed name → (∀ v ∈ later ++ [r], ¬v.Changed name) →
    w.Clean ∧ ∃ g, w.policy.units.lookup name = some g ∧ g.action = grant.action

/-- After a run that ended well, every unit it grants is settled, if nothing failed in the earlier
runs that changed one of them last, and they granted it with the same action. -/
theorem settled_of_ok {runs : List ApplyRun} {r : ApplyRun} (hruns : InTurn (runs ++ [r]))
    (hok : r.Ok) (hundisturbed : Undisturbed runs r) :
    ∀ name grant, ⟨name, grant⟩ ∈ r.policy.units.entries →
      Settled (runs ++ [r]) name grant.action := by
  intro name grant hgrant earlier w later before e after hsplit hcalls hchanges hlast
  have hran := hruns.ran hsplit
  -- The run that changed the unit last is the run that ended well, or an earlier one.
  have hw : w.Clean ∧ ∃ g, w.policy.units.lookup name = some g ∧ g.action = grant.action := by
    rcases List.eq_nil_or_concat later with rfl | ⟨later', v, rfl⟩
    · obtain ⟨rfl, hr⟩ := List.append_inj' hsplit rfl
      obtain ⟨rfl, -⟩ := List.cons.inj hr
      exact ⟨hran.clean hok, grant, AList.mem_lookup_iff.mpr hgrant, rfl⟩
    · have hassoc : runs ++ [r] = (earlier ++ w :: later') ++ [v] := by simpa using hsplit
      obtain ⟨hruns, hr⟩ := List.append_inj' hassoc rfl
      obtain ⟨rfl, -⟩ := List.cons.inj hr
      refine hundisturbed name grant hgrant earlier w later' hruns
        ⟨e, hcalls ▸ List.mem_append_right _ List.mem_cons_self, hchanges⟩ fun u hu => ?_
      rintro ⟨e', he', hchanges'⟩
      refine hlast e' (List.mem_append_right _ (List.mem_flatMap.mpr ⟨u, ?_, he'⟩)) hchanges'
      simpa using hu
  obtain ⟨hclean, g, hg, haction⟩ := hw
  obtain ⟨outcome, hresult, hreload, hfollowed⟩ := hran.followed hclean hcalls hchanges
  refine ⟨List.mem_append_left _ hreload, fun args hargs => ?_⟩
  have hpost := hfollowed g hg
  rw [haction] at hpost
  -- A restart is deferred while a deploy is in flight.
  rcases postAction_cases name grant.action w.deployInFlight with hdefer | hsame
  · rw [hdefer] at hpost
    exact .inr ⟨w, List.mem_cons_self, outcome, hresult, hpost⟩
  · rw [hsame, hargs] at hpost
    obtain ⟨ok, hmem⟩ := hpost
    have hcall : (⟨.systemctl args, ok⟩ : Sigma ApplyCall.Answer) ∈ w.calls :=
      hcalls ▸ List.mem_append_right _ (List.mem_cons_of_mem _ hmem)
    obtain rfl : ok = true := hclean _ hcall
    exact .inl (List.mem_append_left _ hmem)

/-! ## A failed reload -/

/-- The unit that the render has. -/
def appUnit : ByteArray := "[Service]\nUser=app\n".toUTF8

/-- A policy that grants one unit. -/
def onePolicy : RootPolicy where
  project := []
  scaffoldDir := []
  users := ["app".toList]
  groups := []
  execPrefixes := []
  readPaths := []
  directories := []
  units := AList.singleton "app.service".toList ⟨"app.service".toList, .plain⟩

/-- A manifest of the host without artifacts. -/
def emptyManifest : RenderManifest where
  artifacts := []
  hosts := AList.singleton "solo".toList ⟨[], [], none⟩

/-- A host on which `systemctl` answers `ok`, and whose unit files only applies change. -/
def host (ok : Bool) : Calls → (c : ApplyCall) → c.Answer
  | _, .readTree _ => .file appUnit
  | h, .readInstalled path => ((lastWritten (path.drop (systemdDir.length + 1)) h).map
      InstalledRead.file).getD .missing
  | _, .writeUnit _ _ => .done
  | _, .systemctl _ => ok

/-- The sample host answers as it does. -/
theorem onHost_host (ok : Bool) (h : Calls) (c : ApplyCall) : OnHost h ⟨c, host ok h c⟩ := by
  cases c with
  | readInstalled path =>
    rintro name data rfl hdata
    left
    have hname : (unitPath name).drop (systemdDir.length + 1) = name := by
      unfold unitPath
      rw [← List.drop_drop, List.drop_left]
      rfl
    show ((lastWritten ((unitPath name).drop (systemdDir.length + 1)) h).map
      InstalledRead.file).getD .missing = .file data
    rw [hname, hdata]
    rfl
  | readTree | writeUnit | systemctl => trivial

/-- An apply on that host. -/
def applyOn (ok : Bool) (before : Calls) : ApplyRun :=
  let end_ := (applyScaffold (fun _ => .manifest emptyManifest) onePolicy "solo".toList false).run
    (host ok) before
  { loads := fun _ => .manifest emptyManifest
    policy := onePolicy
    hostname := "solo".toList
    deployInFlight := false
    calls := end_.1
    result := end_.2 }

/-- The sample run is a run. -/
theorem ran_applyOn (ok : Bool) (before : Calls) : (applyOn ok before).Ran before :=
  runs_run (onHost_host ok) _ before

/-- Two applies, one after the other. -/
theorem inTurn_applyOn (ok : Bool) : InTurn [applyOn ok [], applyOn ok (applyOn ok []).calls] := by
  have hfirst : InTurn [applyOn ok []] := .snoc .nil (ran_applyOn ok [])
  have hbefore : callsOf [applyOn ok []] = (applyOn ok []).calls := by simp [callsOf]
  refine .snoc hfirst ?_
  rw [hbefore]
  exact ran_applyOn ok _

/-- The first run on a host whose `systemctl` fails. -/
def failedRun : ApplyRun := applyOn false []

/-- The next run on it. -/
def nextRun : ApplyRun := applyOn false failedRun.calls

/-- The reads of the first run. -/
def firstReads : Calls :=
  [⟨.readTree "app.service".toList, .file appUnit⟩,
    ⟨.readInstalled (unitPath "app.service".toList), .missing⟩,
    ⟨.readTree artifactManifestName, .file appUnit⟩]

set_option maxRecDepth 10000 in
/-- The unit is written and the reload fails; the next run finds the file unchanged, and ends well
with the unit not settled. -/
theorem unchanged_after_failed_reload :
    InTurn [failedRun, nextRun] ∧ nextRun.Ok ∧
      ⟨"app.service".toList, ⟨"app.service".toList, .plain⟩⟩ ∈ nextRun.policy.units.entries ∧
      ¬Settled [failedRun, nextRun] "app.service".toList .plain := by
  -- The calls of the two runs.
  have hcalls : failedRun.calls = firstReads ++ ⟨.writeUnit "app.service".toList appUnit, .done⟩ ::
      [⟨.systemctl daemonReload, false⟩] := by decide
  have hnext : nextRun.calls = [⟨.readTree "app.service".toList, .file appUnit⟩,
      ⟨.readInstalled (unitPath "app.service".toList), .file appUnit⟩,
      ⟨.readTree artifactManifestName, .file appUnit⟩] := by decide
  have hok : (nextRun.result.toOption.any ApplyOutcome.ok) = true := by decide
  refine ⟨inTurn_applyOn false, ?_, List.mem_singleton_self _, fun h => ?_⟩
  · exact ApplyRun.ok_of_any hok
  -- The unit of the first run is settled by no later call.
  · have hreload := (h [] failedRun [nextRun] firstReads _ _ rfl hcalls ⟨rfl, nofun⟩ (by
      unfold callsOf
      simp only [List.flatMap_cons, List.flatMap_nil, hnext]
      decide)).1
    unfold callsOf at hreload
    simp only [List.flatMap_cons, List.flatMap_nil, hnext] at hreload
    revert hreload
    decide

set_option maxRecDepth 10000 in
/-- Two runs on a host on which nothing fails. -/
theorem settled_of_ok_twice :
    Settled [applyOn true [], applyOn true (applyOn true []).calls] "app.service".toList .plain := by
  have hsucceeds : ∀ e ∈ (applyOn true []).calls, Succeeds e := by
    have hcalls : (applyOn true []).calls = firstReads ++
        [⟨.writeUnit "app.service".toList appUnit, .done⟩, ⟨.systemctl daemonReload, true⟩] := by
      decide
    rw [hcalls]
    decide
  have hok : ((applyOn true (applyOn true []).calls).result.toOption.any ApplyOutcome.ok) = true := by
    decide
  -- The file that the second run finds is the one that the first has written.
  have hundisturbed : Undisturbed [applyOn true []] (applyOn true (applyOn true []).calls) := by
    intro name grant hgrant earlier w later hsplit _ _
    have hw : w ∈ [applyOn true []] := hsplit ▸ List.mem_append_right _ List.mem_cons_self
    obtain rfl := List.mem_singleton.mp hw
    exact ⟨hsucceeds, grant, AList.mem_lookup_iff.mpr hgrant, rfl⟩
  exact settled_of_ok (inTurn_applyOn true) (ApplyRun.ok_of_any hok) hundisturbed _
    ⟨"app.service".toList, .plain⟩ (List.mem_singleton_self _)

end Fraisier.Scaffold
