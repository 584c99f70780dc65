import Mathlib.Data.List.Forall2
import Fraisier.Install.Judged
import Fraisier.Install.Scheduled

/-!
# What the report of an install says

`report_truthful_iff`: the report that `_build_apply_report` makes of a reply says no more than what
the helper did exactly if every post-action of the reply is ok, and every timer of an installed name
is one that the manifest enables. The report reads neither the results' `ok` nor which timers were
enabled.
-/

namespace Fraisier.Install

open Fraisier.Lib Interaction Str Fraisier.Unit

variable {manifest : Manifest} {response : Response} {diffs : List UnitDiff} {force : Bool}

/-! ## Replies -/

/-- `ok` of a post-action's result. -/
def PostResult.ok : PostResult → Bool
  | .ran _ returncode _ => returncode = 0
  | .rejected _ _ | .timedOut _ => false

/-- The units that are named as installed. -/
def Response.installed : Response → List Str
  | .ok installed _ _ => installed
  | .rejected _ | .timedOut _ | .busy => []

/-- The results of the post-actions. -/
def Response.results : Response → List PostResult
  | .ok _ _ results => results
  | .rejected _ | .timedOut _ | .busy => []

/-- The first word of a post-action's command, which is the kind of its result. -/
def PostAction.kind (action : PostAction) : Str := (postActionCmd action).headD []

/-- What the helper can reply to a manifest, less why it is refused. -/
inductive ReplyTo (manifest : Manifest) : Response → Prop
  | rejected (reason : Message) : ReplyTo manifest (.rejected reason)
  | timedOut (reason : Message) : ReplyTo manifest (.timedOut reason)
  | busy : ReplyTo manifest .busy
  /-- Each post-action has its result, and each timer that is enabled is installed. -/
  | ok {installed markers : List Str} {results : List PostResult}
      (hinstalled : installed = installedBasenames manifest.operations)
      (hresults : List.Forall₂ (fun action r => r.kind = action.kind) manifest.postActions results)
      (henabled : ∀ unit, .enableNow unit ∈ manifest.postActions → unit ∈ installed) :
      ReplyTo manifest (.ok installed markers results)

/-- A program makes calls. -/
theorem makes_any {C : Type} {A : C → Type} {ε α : Type} (p : Interaction A ε α) :
    p.Makes (fun _ => True) fun _ => True := by
  induction p with
  | ret a => trivial
  | raise e => trivial
  | call c k ih => exact ⟨trivial, ih⟩

/-- The result of a post action is of its kind. -/
theorem executePostAction_kind (action : PostAction) (resolved : ResolvedAllowlist) :
    (executePostAction action resolved).Makes (fun _ => True) (·.kind = action.kind) := by
  have hrun : (runPostAction action).Makes (fun _ => True) (·.kind = action.kind) := by
    refine (makes_any _).bind fun ran _ => ?_
    cases ran with
    | exited returncode stderr => exact rfl
    | timedOut => exact rfl
    | raised => trivial
  -- Without a marker the unit's action is answered for under its own name.
  cases action with
  | daemonReload => exact hrun
  | enableNow unit => exact hrun
  | disableNow unit | stop unit =>
    refine (makes_any _).bind fun present _ => ?_
    cases present with
    | true => exact hrun
    | false => exact rfl

/-- The names installed are those of the operations in order. -/
theorem installedBasenames_append (ops ops' : List Operation) :
    installedBasenames (ops ++ ops') = installedBasenames ops ++ installedBasenames ops' :=
  List.filterMap_append

/-- A manifest that is executed is replied to with its own results. -/
theorem executeManifest_replies {contents : List (ℕ × ByteArray)} {resolved : ResolvedAllowlist}
    (henabled : ∀ unit, .enableNow unit ∈ manifest.postActions →
      unit ∈ installedBasenames manifest.operations) :
    (executeManifest manifest resolved contents).Makes (fun _ => True) (ReplyTo manifest) := by
  unfold executeManifest
  -- The names so far are those of the operations so far, and the results those of the post-actions.
  refine (Makes.foldlM (I := fun done acc => acc.1 = installedBasenames (done.map Prod.fst)) [] rfl
    fun done item rest acc _ hacc => ?_).bind fun acc hacc => ?_
  · refine (makes_any _).bind fun _ _ => ?_
    rw [List.map_append, installedBasenames_append]
    obtain ⟨op, i⟩ := item
    cases op with
    | installFile op => exact (makes_any _).bind fun _ _ => congrArg (· ++ [_]) hacc
    | writeMarker op => exact (makes_any _).bind fun _ _ => hacc.trans (List.append_nil _).symm
  · refine (Makes.foldlM (I := fun done results =>
      List.Forall₂ (fun action r => r.kind = action.kind) (done.map Prod.fst) results) [] .nil
      fun done item rest results _ hresults => ?_).bind fun results hresults => ?_
    · refine (makes_any _).bind fun _ _ => (executePostAction_kind item.1 resolved).bind fun r hr => ?_
      rw [List.map_append]
      exact List.rel_append hresults (.cons hr .nil)
    · rw [List.nil_append, List.zipIdx_map_fst] at hacc hresults
      exact .ok hacc hresults fun unit hunit => hacc ▸ henabled unit hunit

/-- A manifest that is valid enables only what it installs. -/
theorem validateManifest_enables (allowlist : List AllowlistEntry) :
    (validateManifest manifest allowlist).Makes (fun _ => True) fun _ =>
      ∀ unit, .enableNow unit ∈ manifest.postActions →
        unit ∈ installedBasenames manifest.operations := by
  unfold validateManifest
  split
  · trivial
  · refine (makes_any _).bind fun _ _ => ?_
    -- The invariant: the timers of the actions so far are installed.
    refine (Makes.foldlM (I := fun done _ => ∀ unit, .enableNow unit ∈ done.map Prod.fst →
      unit ∈ installedBasenames manifest.operations) [] nofun
        fun done item rest _ _ hdone => ?_).mono (fun _ => id) fun _ h => ?_
    · obtain ⟨action, i⟩ := item
      have hadd : (∀ unit, action = .enableNow unit → unit ∈ installedBasenames manifest.operations) →
          ∀ unit, .enableNow unit ∈ (done ++ [(action, i)]).map Prod.fst →
            unit ∈ installedBasenames manifest.operations := by
        intro haction unit hunit
        rw [List.map_append, List.mem_append] at hunit
        rcases hunit with hunit | hunit
        · exact hdone unit hunit
        · exact haction unit (List.mem_singleton.mp hunit).symm
      cases action with
      | enableNow unit =>
        unfold validatePostAction
        dsimp only
        split
        · exact hadd fun unit' h => PostAction.enableNow.inj h ▸ ‹_›
        · trivial
      | daemonReload | disableNow _ | stop _ => exact hadd nofun
    · rwa [List.nil_append, List.zipIdx_map_fst] at h

/-- What the helper replies to a manifest. -/
theorem handleManifest_replies (allowlist : List AllowlistEntry) (resolved : ResolvedAllowlist)
    (manifest : Manifest) :
    (handleManifest allowlist resolved manifest).Makes (fun _ => True) (ReplyTo manifest) := by
  have haccept : (accept allowlist resolved manifest).Makes (fun _ => True) fun _ =>
      ∀ unit, .enableNow unit ∈ manifest.postActions →
        unit ∈ installedBasenames manifest.operations :=
    (validateManifest_enables allowlist).bind fun _ henabled =>
      (makes_any _).bind fun _ _ => (makes_any _).mono (fun _ => id) fun _ _ => henabled
  unfold handleManifest
  -- The cases are how the admission and the lock come out.
  refine haccept.attempt.bind fun r hr => ?_
  rcases r with (reason | _ | _) | contents
  · exact .rejected reason
  · trivial
  · trivial
  · refine (makes_any _).bind fun lock _ => ?_
    cases lock with
    | raised => trivial
    | busy => exact .busy
    | taken =>
      refine (executeManifest_replies (hr contents rfl)).attempt.bind fun r hr => ?_
      rcases r with (reason | reason | _) | response
      · exact .rejected reason
      · exact .timedOut reason
      · trivial
      · exact hr response rfl

/-! ## Manifests of diffs -/

/-- The units that are written. -/
def written (force : Bool) (diffs : List UnitDiff) : List ScheduledUnitInstall :=
  (diffs.filter (·.writes force)).map UnitDiff.install

/-- The actions that enable timers. -/
def enableActions (installs : List ScheduledUnitInstall) : List PostAction :=
  (installs.filter (·.isTimer)).map fun install => .enableNow install.unitName

/-- The files that operations install: each by its source and its destination. -/
def installFiles (operations : List Operation) : List (Str × Str) :=
  operations.filterMap fun
    | .installFile op => some (op.sourcePath, op.destPath)
    | .writeMarker _ => none

/-- The same of units. -/
def filesOf (installs : List ScheduledUnitInstall) : List (Str × Str) :=
  installs.map fun install => (install.sourcePath, install.destPath)

/-- What a manifest of diffs installs, and the post-actions of it. -/
structure BuiltFrom (force : Bool) (diffs : List UnitDiff) (manifest : Manifest) : Prop where
  installed : installFiles manifest.operations = filesOf (written force diffs)
  postActions : manifest.postActions =
    (if written force diffs = [] then [] else [.daemonReload]) ++ enableActions (written force diffs)

/-- A draft of the diffs that are done. -/
structure DraftOf (force : Bool) (done : List UnitDiff) (draft : Draft) : Prop where
  installed : installFiles draft.operations = filesOf (written force done)
  enables : draft.enableActions = enableActions (written force done)
  count : draft.installFileCount = (written force done).length

/-- One more unit is written when it is due. -/
theorem written_append (done : List UnitDiff) (diff : UnitDiff) :
    written force (done ++ [diff]) =
      written force done ++ if diff.writes force then [diff.install] else [] := by
  simp only [written, List.filter_append, List.map_append, List.filter_singleton]
  cases diff.writes force <;> rfl

/-- The timers are enabled in the order of the units. -/
theorem enableActions_append (installs installs' : List ScheduledUnitInstall) :
    enableActions (installs ++ installs') = enableActions installs ++ enableActions installs' := by
  rw [enableActions, List.filter_append, List.map_append]
  rfl

/-- A diff that installs nothing. -/
theorem DraftOf.skip {done : List UnitDiff} {draft : Draft} (h : DraftOf force done draft)
    {diff : UnitDiff} (hdiff : diff.writes force = false) : DraftOf force (done ++ [diff]) draft := by
  have hwritten : written force (done ++ [diff]) = written force done := by
    rw [written_append, hdiff]
    exact List.append_nil _
  constructor
  · rw [hwritten]
    exact h.installed
  · rw [hwritten]
    exact h.enables
  · rw [hwritten]
    exact h.count

/-- One more unit is drafted after the others. -/
theorem draftDiff_drafts {configPath : Option PurePath} {done : List UnitDiff} {draft : Draft}
    (h : DraftOf force done draft) (diff : UnitDiff) :
    (draftDiff force configPath draft diff).Makes (fun _ => True) (DraftOf force (done ++ [diff])) := by
  unfold draftDiff
  -- A unit whose source is missing is left out.
  split
  · rename_i hstate
    exact h.skip (by simp [UnitDiff.writes, hstate])
  -- So is one that has drifted, unless the call is forced.
  split
  · rename_i hstate
    refine h.skip ?_
    simp only [Bool.and_eq_true, decide_eq_true_eq, Bool.not_eq_true'] at hstate
    simp [UnitDiff.writes, hstate.1, hstate.2]
  dsimp only
  split
  -- One that is identical may still have its marker written.
  · rename_i hstate
    have hskip : diff.writes force = false := by simp [UnitDiff.writes, hstate]
    split
    · exact h.skip hskip
    · refine (makes_any _).bind fun path _ => (makes_any _).bind fun present _ => ?_
      split
      · exact h.skip hskip
      · refine makes_pure ⟨?_, (h.skip hskip).enables, (h.skip hskip).count⟩
        rw [installFiles, List.filterMap_append, ← installFiles, (h.skip hskip).installed]
        exact List.append_nil _
  -- Everything else is written, and its timer enabled.
  · rename_i hmissing hdrifted hidentical
    have hwrites : diff.writes force = true := by
      obtain ⟨install, state⟩ := diff
      cases state <;> simp_all [UnitDiff.writes]
    have hwritten : written force (done ++ [diff]) = _ := written_append done diff
    rw [if_pos hwrites] at hwritten
    refine makes_pure ⟨?_, ?_, ?_⟩
    · rw [installFiles, List.filterMap_append, ← installFiles, h.installed, hwritten, filesOf, filesOf,
        List.map_append]
      rfl
    · rw [hwritten, enableActions_append, h.enables]
      cases htimer : diff.install.isTimer <;> simp [enableActions, htimer]
    · rw [hwritten, List.length_append, h.count]
      rfl

/-- The manifest is built of the units that are due. -/
theorem buildHelperManifest_builds (configPath : Option PurePath) :
    (buildHelperManifest force configPath diffs).Makes (fun _ => True) (BuiltFrom force diffs) := by
  unfold buildHelperManifest
  refine (Makes.foldlM (I := DraftOf force) [] ⟨rfl, rfl, rfl⟩
    fun done diff rest draft _ h => draftDiff_drafts h diff).bind fun draft h => ?_
  rw [List.nil_append] at h
  refine makes_pure ⟨h.installed, ?_⟩
  rw [h.enables, h.count]
  cases written force diffs <;> rfl

/-! ## What the report says -/

/-- The action is one of the manifest's, and every result of it is ok. -/
def Succeeded (manifest : Manifest) (response : Response) (action : PostAction) : Prop :=
  action ∈ manifest.postActions ∧
    ∀ p ∈ manifest.postActions.zip response.results, p.1 = action → p.2.ok = true

/-- The report says no more than what the helper did. -/
structure Truthful (manifest : Manifest) (response : Response) (report : ApplyReport) : Prop where
  enabled : ∀ install ∈ report.enabledTimers,
    Succeeded manifest response (.enableNow install.unitName)
  written : ∀ install ∈ report.written, install.unitName ∈ response.installed ∧
    ∃ op, .installFile op ∈ manifest.operations ∧ unitName op.destPath = install.unitName
  reloaded : report.reloaded = true → Succeeded manifest response .daemonReload

/-- Every post-action is ok, and a timer of an installed name is one that is enabled. -/
structure AllSucceeded (force : Bool) (diffs : List UnitDiff) (response : Response) : Prop where
  results : ∀ r ∈ response.results, r.ok = true
  timers : ∀ diff ∈ diffs, diff.install.isTimer = true →
    diff.install.unitName ∈ response.installed →
      ∃ install ∈ written force diffs, install.isTimer = true ∧
        install.unitName = diff.install.unitName

/-- A unit is enabled when it is an installed timer. -/
theorem mem_enableActions {installs : List ScheduledUnitInstall} {unit : Str} :
    .enableNow unit ∈ enableActions installs ↔
      ∃ install ∈ installs, install.isTimer = true ∧ install.unitName = unit := by
  simp [enableActions, and_assoc]

/-- A built manifest reloads systemd or enables a timer it writes. -/
theorem BuiltFrom.action_cases (hbuilt : BuiltFrom force diffs manifest) {action : PostAction}
    (h : action ∈ manifest.postActions) : action = .daemonReload ∨
      ∃ install ∈ written force diffs, install.isTimer = true ∧ action = .enableNow install.unitName := by
  rw [hbuilt.postActions, List.mem_append] at h
  rcases h with h | h
  · split at h
    · cases h
    · exact Or.inl (List.mem_singleton.mp h)
  · obtain ⟨install, hinstall, rfl⟩ := List.mem_map.mp h
    obtain ⟨hwritten, htimer⟩ := List.mem_filter.mp hinstall
    exact Or.inr ⟨install, hwritten, htimer, rfl⟩

/-- A built manifest enables the timers it writes. -/
theorem BuiltFrom.enables (hbuilt : BuiltFrom force diffs manifest) {unit : Str} :
    .enableNow unit ∈ manifest.postActions ↔
      ∃ install ∈ written force diffs, install.isTimer = true ∧ install.unitName = unit := by
  rw [hbuilt.postActions, List.mem_append, mem_enableActions, or_iff_right]
  split <;> simp

/-- What an item of the second list is related to. -/
theorem exists_of_mem_right {α β : Type} {R : α → β → Prop} {xs : List α} {ys : List β}
    (h : List.Forall₂ R xs ys) {y : β} (hy : y ∈ ys) : ∃ x ∈ xs, (x, y) ∈ xs.zip ys ∧ R x y := by
  rw [List.forall₂_iff_zip] at h
  obtain ⟨hlength, hzip⟩ := h
  rw [← List.map_snd_zip hlength.ge] at hy
  obtain ⟨⟨x, y⟩, hmem, rfl⟩ := List.mem_map.mp hy
  exact ⟨x, (List.of_mem_zip hmem).1, hmem, hzip hmem⟩

/-- The report of a reply is truthful exactly if every post-action of it succeeded. -/
theorem truthful_iff_allSucceeded (hbuilt : BuiltFrom force diffs manifest)
    (hreply : ReplyTo manifest response) :
    Truthful manifest response (buildApplyReport response diffs) ↔
      AllSucceeded force diffs response := by
  cases hreply with
  | rejected reason | timedOut reason | busy =>
    exact iff_of_true ⟨nofun, nofun, nofun⟩ ⟨nofun, fun _ _ _ => nofun⟩
  | @ok installed markers results hinstalled hresults henabled =>
    -- a row of the diffs is in the report as soon as its name is installed
    have hlisted : ∀ diff ∈ diffs, diff.install.isTimer = true → diff.install.unitName ∈ installed →
        diff.install ∈ (buildApplyReport (.ok installed markers results) diffs).enabledTimers := by
      intro diff hdiff htimer hname
      refine List.mem_filter.mpr ⟨List.mem_map.mpr ⟨diff, List.mem_filter.mpr ⟨hdiff, ?_⟩, rfl⟩, htimer⟩
      exact decide_eq_true hname
    constructor
    · intro h
      constructor
      · intro r hr
        obtain ⟨action, haction, hzip, hkind⟩ := exists_of_mem_right hresults hr
        rcases hbuilt.action_cases haction with rfl | ⟨install, hinstall, htimer, rfl⟩
        · have hreloaded : results.any (·.kind = "daemon-reload".toList) = true :=
            List.any_eq_true.mpr ⟨r, hr, decide_eq_true hkind⟩
          exact (h.reloaded hreloaded).2 _ hzip rfl
        · obtain ⟨diff, hdiff, rfl⟩ := List.mem_map.mp hinstall
          have hlist := hlisted diff (List.mem_filter.mp hdiff).1 htimer (henabled _ haction)
          exact (h.enabled _ hlist).2 _ hzip rfl
      · intro diff hdiff htimer hname
        exact hbuilt.enables.mp (h.enabled _ (hlisted diff hdiff htimer hname)).1
    · intro h
      have hok : ∀ p ∈ manifest.postActions.zip results, p.2.ok = true := fun p hp =>
        h.results p.2 (List.of_mem_zip hp).2
      constructor
      · intro install hinstall
        obtain ⟨hwritten, htimer⟩ := List.mem_filter.mp hinstall
        obtain ⟨diff, hdiff, rfl⟩ := List.mem_map.mp hwritten
        obtain ⟨hmem, hname⟩ := List.mem_filter.mp hdiff
        have henable := hbuilt.enables.mpr (h.timers diff hmem htimer (of_decide_eq_true hname))
        exact ⟨henable, fun p hp _ => hok p hp⟩
      · intro install hinstall
        obtain ⟨diff, hdiff, rfl⟩ := List.mem_map.mp hinstall
        have hname : diff.install.unitName ∈ installed :=
          of_decide_eq_true (List.mem_filter.mp hdiff).2
        have hbasename := hinstalled ▸ hname
        obtain ⟨op, hop, hop'⟩ := List.mem_filterMap.mp hbasename
        cases op with
        | installFile op => exact ⟨hname, op, hop, Option.some.inj hop'⟩
        | writeMarker op => cases hop'
      · intro hreloaded
        obtain ⟨r, hr, hkind⟩ := List.any_eq_true.mp hreloaded
        obtain ⟨action, haction, -, hkind'⟩ := exists_of_mem_right hresults hr
        rcases hbuilt.action_cases haction with rfl | ⟨install, -, -, rfl⟩
        · exact ⟨haction, fun p hp _ => hok p hp⟩
        · rw [decide_eq_true_eq] at hkind
          have hne : "enable".toList ≠ "daemon-reload".toList := by decide
          exact absurd (hkind'.symm.trans hkind) hne

/-- The report that is made of what the helper replies to a manifest of diffs is truthful exactly if
every post-action succeeded. -/
theorem report_truthful_iff {configPath : Option PurePath} {allowlist : List AllowlistEntry}
    {resolved : ResolvedAllowlist} {built : History ApplyCall.Answer} {served : Calls}
    (hbuild : (buildHelperManifest force configPath diffs).Runs AnyAnswer [] built (.ok manifest))
    (hreply : (handleManifest allowlist resolved manifest).Runs AnyAnswer [] served (.ok response)) :
    Truthful manifest response (buildApplyReport response diffs) ↔
      AllSucceeded force diffs response := by
  obtain ⟨-, -, -, hbuilt⟩ := ((buildHelperManifest_builds configPath).ends AnyAnswer []).of_runs hbuild
  obtain ⟨-, -, -, hreplies⟩ :=
    ((handleManifest_replies allowlist resolved manifest).ends AnyAnswer []).of_runs hreply
  exact truthful_iff_allSucceeded hbuilt hreplies

/-! ## A timer that is not enabled -/

/-- A timer that is to be installed. -/
def timerDiff : UnitDiff where
  install :=
    { fraiseName := "f".toList, environment := "e".toList, jobName := "j".toList
      unitName := "a.timer".toList, isTimer := true
      sourcePath := "/srv/app/scripts/systemd/a.timer".toList
      destPath := "/etc/systemd/system/a.timer".toList, appPath := "/srv/app".toList }
  state := .absent

/-- Its manifest. -/
def timerManifest : Manifest where
  version := 1
  operations := [.installFile
    { sourcePath := timerDiff.install.sourcePath, destPath := timerDiff.install.destPath,
      mode := "0644".toList }]
  postActions := [.daemonReload, .enableNow timerDiff.install.unitName]

/-- A host on which `systemctl` exits with the code. -/
def timerHost (returncode : ℤ) : Calls → (c : InstallCall) → c.Answer
  | _, .resolve path => .path path
  | _, .loadPolicy => .policy appPolicy
  | _, .readFile _ => .bytes "[Timer]\nOnCalendar=daily\n".toUTF8
  | _, .lock => .taken
  | _, .deadline => false
  | _, .openDir _ => .opened (1, 2)
  | _, .writeFile _ _ _ => .done
  | _, .writeMarker _ _ _ => .done
  | _, .pathExists _ => false
  | _, .systemctl _ => .exited returncode []

/-- The helper's reply there. -/
def timerReply (returncode : ℤ) : Response :=
  .ok ["a.timer".toList] [] [.ran "daemon-reload".toList returncode [],
    .ran "enable".toList returncode []]

set_option maxRecDepth 10000 in
/-- The sample host replies to the timer's manifest. -/
theorem timerHost_replies (returncode : ℤ) : ∃ served,
    (handleManifest [⟨sourceDir, unitDir⟩] ⟨[(unitDir, (1, 2))], [sourceDir]⟩ timerManifest).Runs
      AnyAnswer [] served (.ok (timerReply returncode)) := by
  have hrun := @runs_run _ _ _ _ AnyAnswer (timerHost returncode) (fun _ _ => trivial)
    (handleManifest [⟨sourceDir, unitDir⟩] ⟨[(unitDir, (1, 2))], [sourceDir]⟩ timerManifest) []
  exact ⟨_, hrun⟩

/-- The report on the sample timer is truthful when everything succeeded. -/
theorem report_truthful_iff_timer :
    Truthful timerManifest (timerReply 0) (buildApplyReport (timerReply 0) [timerDiff]) ↔
      AllSucceeded false [timerDiff] (timerReply 0) := by
  obtain ⟨served, hreply⟩ := timerHost_replies 0
  have hbuild : (buildHelperManifest false none [timerDiff]).Runs AnyAnswer [] []
      (.ok timerManifest) := .ret
  exact report_truthful_iff hbuild hreply

/-- `systemctl` fails, and the report says that the timer is enabled. -/
theorem reports_failed_timer : ∃ built served manifest response,
    (buildHelperManifest false none [timerDiff]).Runs AnyAnswer [] built (.ok manifest) ∧
    (handleManifest [⟨sourceDir, unitDir⟩] ⟨[(unitDir, (1, 2))], [sourceDir]⟩ manifest).Runs
      AnyAnswer [] served (.ok response) ∧
    ¬Truthful manifest response (buildApplyReport response [timerDiff]) := by
  obtain ⟨served, hreply⟩ := timerHost_replies 1
  refine ⟨[], served, timerManifest, timerReply 1, .ret, hreply, fun h => ?_⟩
  have hok := (h.reloaded rfl).2 (.daemonReload, .ran "daemon-reload".toList 1 []) List.mem_cons_self rfl
  exact absurd hok (by decide)

end Fraisier.Install
