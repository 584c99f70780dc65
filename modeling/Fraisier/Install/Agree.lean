import Fraisier.Install.Effects

/-!
# Both ways of installing do the same

`agree`: on one host, where the helper accepts what it is sent, where `systemctl` succeeds and where no
source is one of the files that are written, both ways of applying diffs raise in the same cases, write
the same units with the same contents in the same order, reload as often and enable the same timers.
Only the helper writes markers, if it is told to.

The conditions are needed (`disagree`): without the helper a failing `systemctl` raises; and the helper
reads every source before it writes, while a copy reads what the copies before it have written.
-/

namespace Fraisier.Install

open Fraisier.Lib Interaction Str Fraisier.Unit

variable {host : Host} {force : Bool} {diffs : List UnitDiff} {h : History ApplyCall.Answer}

/-- The helper accepted what it was sent. -/
def Accepted (calls : History ApplyCall.Answer) : Prop :=
  ∀ manifest answer, ⟨.exchange manifest, answer⟩ ∈ calls →
    ∃ served installed markers results, answer = .replied served (.ok installed markers results)

/-- Both ways of applying diffs raise in the same cases, and have the same effects. -/
def Agree (host : Host) (force : Bool) (markers : Markers) (diffs : List UnitDiff) : Prop :=
  ∀ direct viaHelper r r',
    (applyUnitDiffs systemdDestDir force diffs).Runs host.answers [] direct r →
    (applyUnitDiffsViaHelper force markers diffs).Runs host.answers [] viaHelper r' →
    Accepted viaHelper →
    ((∃ e, r = .error e) ↔ ∃ e, r' = .error e) ∧
      ∀ report report', r = .ok report → r' = .ok report' →
        host.effects viaHelper = host.effects direct

/-! ## By the helper -/

/-- The markers that an operation writes. -/
def Operation.markers : Operation → List MarkerMeta
  | .installFile op => op.marker.toList
  | .writeMarker op => [op.marker]

/-- No operation writes a marker. -/
def Unmarked (operations : List Operation) : Prop := ∀ op ∈ operations, op.markers = []

/-- Operations without markers stay so together. -/
theorem Unmarked.append {ops ops' : List Operation} (h : Unmarked ops) (h' : Unmarked ops') :
    Unmarked (ops ++ ops') :=
  List.forall_mem_append.mpr ⟨h, h'⟩

/-- Less the markers, the operations write the units. -/
theorem executes_units {ops : List Operation} {effects : List (List Effect)}
    (h : List.Forall₂ host.Executes ops effects) :
    List.Forall₂ host.Copies (installFiles ops) (effects.flatten.filter (!·.isMarker)) ∧
      (Unmarked ops → effects.flatten.filter (!·.isMarker) = effects.flatten) := by
  -- Induction on the operations: one that installs a unit writes it first.
  induction h with
  | nil => exact ⟨.nil, fun _ => rfl⟩
  | @cons op es ops effects hop _ ih =>
    rw [List.flatten_cons, List.filter_append]
    cases hop with
    | @installFile op dir data hcopies =>
      have hmarkers : (op.marker.toList.map fun marker =>
          Effect.marker dir (unitName op.destPath) marker).filter (!·.isMarker) = [] := by
        cases op.marker <;> rfl
      rw [List.filter_cons_of_pos rfl, hmarkers]
      refine ⟨.cons hcopies ih.1, fun hunmarked => ?_⟩
      rw [ih.2 fun op' hop' => hunmarked op' (List.mem_cons_of_mem _ hop')]
      have hnone : op.marker.toList = [] := hunmarked _ List.mem_cons_self
      rw [hnone]
      rfl
    | writeMarker dir => exact ⟨ih.1, fun hunmarked => nomatch hunmarked _ List.mem_cons_self⟩

/-- Drafting has no effect, and writes markers only for a configuration. -/
theorem draftDiff_ends {configPath : Option PurePath} {draft : Draft} (diff : UnitDiff)
    (hdraft : configPath = none → Unmarked draft.operations) :
    (draftDiff force configPath draft diff).Ends host.answers h
      (fun draft' h' => host.effects h' = host.effects h ∧
        (configPath = none → Unmarked draft'.operations)) fun _ _ => configPath ≠ none := by
  unfold draftDiff
  split
  · exact ⟨rfl, hdraft⟩
  split
  · exact ⟨rfl, hdraft⟩
  dsimp only
  split
  -- A marker is written only where there is a configuration to name.
  · cases configPath with
    | none => exact ⟨rfl, hdraft⟩
    | some path =>
      dsimp only [markerFor, Option.map_some]
      unfold markerPathFor
      split
      · exact Option.some_ne_none path
      rw [ends_bind, ends_pure, ends_bind, ends_ask]
      intro present _
      have hnothing : ∀ dest : PurePath,
          host.effects (h ++ [⟨.pathExists dest, present⟩]) = host.effects h :=
        fun dest => effects_snoc rfl
      cases present with
      | true => exact ⟨hnothing _, nofun⟩
      | false => exact ⟨hnothing _, nofun⟩
  · refine ⟨rfl, fun hnone => (hdraft hnone).append ?_⟩
    rintro op hop
    rw [List.mem_singleton.mp hop, hnone]
    rfl

/-- Building the manifest has no effect. -/
theorem buildHelperManifest_ends (configPath : Option PurePath) :
    (buildHelperManifest force configPath diffs).Ends host.answers h
      (fun manifest h' => host.effects h' = host.effects h ∧ BuiltFrom force diffs manifest ∧
        (configPath = none → Unmarked manifest.operations)) fun _ _ => configPath ≠ none := by
  have hmakes : (buildHelperManifest force configPath diffs).Makes _ (BuiltFrom force diffs) :=
    buildHelperManifest_builds configPath
  have hbuilds := hmakes.ends host.answers h
  -- Markers are only made where the configuration's path is known.
  have hmarks : (buildHelperManifest force configPath diffs).Ends host.answers h
      (fun manifest h' => host.effects h' = host.effects h ∧
        (configPath = none → Unmarked manifest.operations)) fun _ _ => configPath ≠ none := by
    rw [buildHelperManifest, ends_bind]
    refine (Ends.foldlM (E := fun _ _ => configPath ≠ none) (I := fun _ (draft : Draft) h' =>
      host.effects h' = host.effects h ∧ (configPath = none → Unmarked draft.operations)) []
        ⟨rfl, fun _ op hop => absurd hop List.not_mem_nil⟩ fun done diff rest draft h₁ _ hdone => ?_).mono (fun draft h₁ hdone => hdone)
          fun _ _ => id
    refine (draftDiff_ends diff hdone.2).mono ?_ fun _ _ => id
    exact fun draft' h₂ hdrafted => ⟨hdrafted.1.trans hdone.1, hdrafted.2⟩
  refine (hbuilds.and hmarks).mono ?_ fun _ _ hraised => hraised.2
  rintro manifest h' ⟨⟨-, -, -, hbuilt⟩, hnothing, hunmarked⟩
  exact ⟨hnothing, hbuilt, hunmarked⟩

/-- What was done by the helper, less the markers. -/
structure DoneByHelper (host : Host) (force : Bool) (markers : Markers) (diffs : List UnitDiff)
    (calls : History ApplyCall.Answer) : Prop where
  passes : host.Passes systemdDestDir force diffs
  units : ∃ units, List.Forall₂ host.Copies (filesOf (written force diffs)) units ∧
    (host.effects calls).filter (!·.isMarker) = units ++ followUp (written force diffs)
  unmarked : markers = .off → (host.effects calls).filter (!·.isMarker) = host.effects calls

/-- The post actions have the effects of the follow-up. -/
theorem postActions_effects {installs : List ScheduledUnitInstall} :
    ((if installs = [] then [] else [PostAction.daemonReload]) ++ enableActions installs).flatMap
      (·.effects) = followUp installs := by
  have henables : (enableActions installs).flatMap (·.effects) =
      (installs.filter (·.isTimer)).map fun install => .enable install.unitName := by
    rw [enableActions, List.flatMap_map, ← List.flatMap_singleton' (List.map _ _), List.flatMap_map]
    rfl
  rw [List.flatMap_append, henables, followUp]
  split <;> rfl

/-- A manifest of diffs that was executed did what is to be done for the diffs. -/
theorem BuiltFrom.done {manifest : Manifest} {c : Calls} (hbuilt : BuiltFrom force diffs manifest)
    (hexecuted : Executed host manifest c) :
    (∃ units, List.Forall₂ host.Copies (filesOf (written force diffs)) units ∧
      (served c).filter (!·.isMarker) = units ++ followUp (written force diffs)) ∧
    (Unmarked manifest.operations → (served c).filter (!·.isMarker) = served c) := by
  obtain ⟨effects, hops, hserved⟩ := hexecuted
  obtain ⟨hunits, hunmarked⟩ := executes_units hops
  rw [hbuilt.installed] at hunits
  rw [hbuilt.postActions, postActions_effects] at hserved
  -- What follows the units is no marker.
  have hfollow : (followUp (written force diffs)).filter (!·.isMarker) =
      followUp (written force diffs) := by
    refine List.filter_eq_self.mpr fun e he => ?_
    rcases List.mem_append.mp he with he | he
    · split at he
      · cases he
      · rw [List.mem_singleton.mp he]
        rfl
    · obtain ⟨install, -, rfl⟩ := List.mem_map.mp he
      rfl
  rw [hserved, List.filter_append, hfollow]
  exact ⟨⟨_, hunits, rfl⟩, fun h => congrArg (· ++ _) (hunmarked h)⟩

/-- What the helper accepts, it does as the host's own copy would. -/
theorem applyUnitDiffsViaHelper_ends (hsystemctl : host.Succeeds) (markers : Markers) :
    (applyUnitDiffsViaHelper force markers diffs).Ends host.answers []
      (fun _ h => Accepted h → DoneByHelper host force markers diffs h)
      fun _ h => Accepted h → ¬host.Passes systemdDestDir force diffs ∨ markers ≠ .off := by
  unfold applyUnitDiffsViaHelper
  rw [ends_bind]
  refine (checkDiffs_ends _ _ _).mono ?_ fun _ _ hnot _ => Or.inl hnot
  rintro - h₁ ⟨hpasses, hnothing⟩
  -- Looking for the configuration has no effect, and finds none when markers are off.
  have hconfig : (resolveConfig markers).Ends host.answers h₁
      (fun configPath h' => host.effects h' = [] ∧ (markers = .off → configPath = none))
      fun _ _ => markers ≠ .off := by
    cases markers with
    | off => exact ⟨hnothing, fun _ => rfl⟩
    | on configPath => cases configPath with
      | none => exact Markers.noConfusion
      | some path =>
        rw [resolveConfig, ends_bind, ends_ask]
        intro found _
        cases found with
        | path p => exact ⟨(effects_snoc rfl).trans hnothing, nofun⟩
        | notFound | raised => exact Markers.noConfusion
  rw [ends_bind]
  refine hconfig.mono ?_ fun _ _ hon _ => Or.inr hon
  rintro configPath h₂ ⟨hnothing₂, hoff⟩
  rw [ends_bind]
  refine (buildHelperManifest_ends configPath).mono ?_ fun _ _ hsome _ =>
    Or.inr fun h => hsome (hoff h)
  rintro manifest h₃ ⟨hnothing₃, hbuilt, hunmarked⟩
  split
  -- A manifest without operations is not sent.
  · rename_i hempty
    intro _
    have hfiles : filesOf (written force diffs) = [] := by
      rw [← hbuilt.installed, hempty]
      rfl
    have hwritten : written force diffs = [] := List.map_eq_nil_iff.mp hfiles
    have heffects : host.effects h₃ = [] := hnothing₃.trans hnothing₂
    refine ⟨hpasses, ⟨[], hfiles ▸ .nil, ?_⟩, fun _ => ?_⟩
    · rw [heffects, hwritten]
      rfl
    · rw [heffects]
      rfl
  -- The manifest is sent, and the helper does what it accepts.
  · rw [ends_bind, ends_ask]
    intro answer hanswer
    have hmem : (⟨.exchange manifest, answer⟩ : Sigma ApplyCall.Answer) ∈
        h₃ ++ [⟨.exchange manifest, answer⟩] := List.mem_append_right _ List.mem_cons_self
    cases answer with
    | raised =>
      intro haccepted
      obtain ⟨_, _, _, _, hreplied⟩ := haccepted _ _ hmem
      cases hreplied
    | replied calls response =>
      intro haccepted
      obtain ⟨_, installed, marked, results, hreplied⟩ := haccepted _ _ hmem
      cases hreplied
      have hactions : ∀ action ∈ manifest.postActions, action.guarded = none := by
        intro action haction
        rcases hbuilt.action_cases haction with rfl | ⟨install, -, -, rfl⟩ <;> rfl
      have hexecuted := (handleManifest_ends hsystemctl host.allowlist hactions).of_runs
        (hanswer calls _ rfl) installed marked results rfl
      have heffects : host.effects (h₃ ++ [⟨.exchange manifest, .replied calls
          (.ok installed marked results)⟩]) = served calls := by
        rw [effects_append, hnothing₃, hnothing₂, List.nil_append]
        exact List.flatMap_singleton _ _
      obtain ⟨hunits, hsame⟩ := hbuilt.done hexecuted
      refine ⟨hpasses, ?_, fun h => ?_⟩
      · rw [heffects]
        exact hunits
      · rw [heffects]
        exact hsame (hunmarked (hoff h))

/-! ## Both ways -/

/-- Units that do not pass are refused. -/
theorem applyUnitDiffs_refused (hnot : ¬host.Passes systemdDestDir force diffs) :
    (applyUnitDiffs systemdDestDir force diffs).Ends host.answers [] (fun _ _ => False)
      fun _ _ => True := by
  unfold applyUnitDiffs
  rw [ends_bind]
  exact (checkDiffs_ends _ _ _).mono (fun _ _ hchecked => absurd hchecked.1 hnot) fun _ _ _ => trivial

/-- The effect is a reload. -/
def Effect.isReload : Effect → Bool
  | .reload => true
  | .unit _ _ _ | .marker _ _ _ | .enable _ => false

/-- Units are reloaded once, if there are any. -/
theorem countP_isReload {files : List (Str × Str)} {units : List Effect}
    (hunits : List.Forall₂ host.Copies files units) (installs : List ScheduledUnitInstall) :
    (units ++ followUp installs).countP Effect.isReload = if installs = [] then 0 else 1 := by
  have hnone : units.countP Effect.isReload = 0 := by
    refine List.countP_eq_zero.mpr fun e he => ?_
    obtain ⟨file, -, -, hcopies⟩ := exists_of_mem_right hunits he
    cases hcopies
    exact Bool.false_ne_true
  have henables : ((installs.filter (·.isTimer)).map fun install =>
      Effect.enable install.unitName).countP Effect.isReload = 0 := by
    refine List.countP_eq_zero.mpr fun e he => ?_
    obtain ⟨install, -, rfl⟩ := List.mem_map.mp he
    exact Bool.false_ne_true
  rw [List.countP_append, hnone, followUp, List.countP_append, henables]
  split <;> rfl

/-- Where `systemctl` succeeds and no source is written, both ways agree. Markers are written by the
helper only, and everything else agrees with them too: units are reloaded once if there are any. -/
theorem agree (hsystemctl : host.Succeeds)
    (hapart : SourcesApart host (filesOf (written force diffs))) :
    Agree host force .off diffs ∧
      ∀ markers direct viaHelper r r',
        (applyUnitDiffs systemdDestDir force diffs).Runs host.answers [] direct r →
        (applyUnitDiffsViaHelper force markers diffs).Runs host.answers [] viaHelper r' →
        Accepted viaHelper → ∀ report report', r = .ok report → r' = .ok report' →
          (host.effects viaHelper).filter (!·.isMarker) = host.effects direct ∧
          (host.effects direct).countP Effect.isReload = if written force diffs = [] then 0 else 1 := by
  constructor
  -- Both ways do the same, or both refuse.
  · intro direct viaHelper r r' hdirect hhelper haccepted
    have hdone := (applyUnitDiffsViaHelper_ends hsystemctl .off).of_runs hhelper
    cases r' with
    | error e' =>
      have hnot := (hdone haccepted).resolve_right fun h => h rfl
      have hrefused := (applyUnitDiffs_refused hnot).of_runs hdirect
      cases r with
      | ok report => exact hrefused.elim
      | error e => exact ⟨iff_of_true ⟨e, rfl⟩ ⟨e', rfl⟩, nofun⟩
    | ok report' =>
      obtain ⟨hpasses, ⟨units, hunits, heffects⟩, hsame⟩ := hdone haccepted
      have hcopied := (applyUnitDiffs_ends hsystemctl hpasses hunits hapart).of_runs hdirect
      cases r with
      | error e => exact hcopied.elim
      | ok report =>
        refine ⟨iff_of_false nofun nofun, fun _ _ _ _ => ?_⟩
        have hcopied' : host.effects direct = units ++ followUp (written force diffs) := hcopied
        rw [List.nil_append] at heffects hsame
        rw [hcopied', ← heffects, hsame rfl]
  -- With markers, the effects differ by these only.
  · rintro markers direct viaHelper - - hdirect hhelper haccepted report report' rfl rfl
    obtain ⟨hpasses, ⟨units, hunits, heffects⟩, -⟩ :=
      (applyUnitDiffsViaHelper_ends hsystemctl markers).of_runs hhelper haccepted
    have hcopied : host.effects direct = units ++ followUp (written force diffs) :=
      (applyUnitDiffs_ends hsystemctl hpasses hunits hapart).of_runs hdirect
    rw [List.nil_append] at heffects
    rw [heffects, hcopied]
    exact ⟨rfl, countP_isReload hunits _⟩

/-! ## Hosts on which they differ -/

/-- What a file holds after the effects. -/
def Host.holdsAfter (host : Host) (effects : List Effect) (path : PurePath) : SourceRead :=
  match effects.reverse.findSome? fun
      | .unit dir name data => if fileAt dir name = path then some data else none
      | .marker _ _ _ | .reload | .enable _ => none with
  | some data => .bytes data
  | none => host.holds path

/-- The helper's calls there, under a policy that accepts units of `app`. -/
def Host.serve (host : Host) : Calls → (c : InstallCall) → c.Answer
  | _, .resolve path => host.strict path
  | _, .loadPolicy => .policy appPolicy
  | _, .readFile path => host.holds path
  | _, .lock => .taken
  | _, .deadline => false
  | _, .openDir _ => .opened (1, 2)
  | _, .writeFile dir name _ => host.write dir.path name
  | _, .writeMarker _ _ _ => .done
  | _, .pathExists _ => false
  | _, .systemctl args => host.systemctl args

/-- The helper's reply there. -/
def Host.exchange (host : Host) (manifest : Manifest) : Exchange :=
  match (handleManifest host.allowlist host.resolved manifest).run host.serve [] with
  | (calls, .ok response) => .replied calls response
  | (_, .error _) => .raised

/-- The calls of applying diffs there. -/
def Host.answer (host : Host) : History ApplyCall.Answer → (c : ApplyCall) → c.Answer
  | _, .resolve path => host.resolve path
  | _, .resolveStrict path => host.strict path
  | _, .pathExists path => host.pathExists path
  | h, .copy source _ => match host.strict source with
    | .path path => match host.holdsAfter (host.effects h) path with
      | .bytes data => .copied data
      | .link | .raised => .raised
    | .notFound | .raised => .raised
  | _, .chmod _ => some ()
  | _, .systemctl args => host.systemctl args
  | _, .exchange manifest => host.exchange manifest

/-- What no effect touches is held as before. -/
theorem holdsAfter_untouched {effects : List Effect} {path : PurePath}
    (huntouched : Untouched effects path) : host.holdsAfter effects path = host.holds path := by
  unfold Host.holdsAfter
  split
  · rename_i data hsome
    obtain ⟨e, he, hwrites⟩ := List.exists_of_findSome?_eq_some hsome
    rw [List.mem_reverse] at he
    cases e with
    | unit dir name data' => simp [huntouched dir name data' he] at hwrites
    | marker | reload | enable => cases hwrites
  · rfl

/-- The host serves a helper's call as it would. -/
theorem Host.serve_serves (host : Host) (c : Calls) (call : InstallCall) : host.serves c ⟨call, host.serve c call⟩ := by
  cases call <;> first | exact rfl | trivial

/-- The host answers a call as it would. -/
theorem Host.answer_answers (host : Host) (h : History ApplyCall.Answer) (call : ApplyCall) :
    host.answers h ⟨call, host.answer h call⟩ := by
  -- One case for each call; the exchange is a run of the helper.
  cases call with
  | resolve | resolveStrict | pathExists | systemctl => exact rfl
  | chmod path => exact fun _ _ _ => rfl
  | copy source dest =>
    intro path dir data hsource _ huntouched hread _
    simp only [Host.answer, hsource, holdsAfter_untouched huntouched, hread]
  | exchange manifest =>
    intro calls response hreplied
    have hrun := runs_run host.serve_serves (handleManifest host.allowlist host.resolved manifest) []
    change host.exchange manifest = _ at hreplied
    unfold Host.exchange at hreplied
    split at hreplied
    · rename_i calls' response' heq
      rw [heq] at hrun
      cases hreplied
      exact hrun
    · cases hreplied

/-- A host on which `systemctl` exits with the code. -/
def timerApplyHost (returncode : ℤ) : Host where
  resolve := some
  strict := .path
  pathExists _ := true
  holds _ := .bytes "[Timer]\nOnCalendar=daily\n".toUTF8
  write _ _ := .done
  systemctl _ := .exited returncode []
  allowlist := [⟨sourceDir, unitDir⟩]
  resolved := ⟨[(unitDir, (1, 2))], [sourceDir]⟩

/-- The two ways agree on the sample timer. -/
theorem agree_timer : Agree (timerApplyHost 0) false .off [timerDiff] := by
  have hfiles : filesOf (written false [timerDiff]) =
      [(timerDiff.install.sourcePath, timerDiff.install.destPath)] := rfl
  refine (agree (fun _ => ⟨[], rfl⟩) ?_).1
  rw [hfiles]
  intro file hfile file' hfile' source dir hsource hdir
  rw [List.mem_singleton] at hfile hfile'
  subst hfile hfile'
  cases hsource
  cases hdir
  decide

/-- The unit `b.timer` of another project. -/
def linkedDiff : UnitDiff where
  install :=
    { fraiseName := "g".toList, environment := "e".toList, jobName := "j".toList
      unitName := "b.timer".toList, isTimer := true
      sourcePath := "/srv/web/scripts/systemd/b.timer".toList
      destPath := "/etc/systemd/system/b.timer".toList, appPath := "/srv/web".toList }
  state := .absent

/-- The links of a host on which the source of `b.timer` is the file of `a.timer`. -/
def followLinks (path : PurePath) : PurePath :=
  if path = .of "/srv/web/scripts/systemd".toList then .of "/etc/systemd".toList
  else if path = .of "/srv/web/scripts/systemd/b.timer".toList then
    .of "/etc/systemd/system/a.timer".toList
  else path

/-- That host, where `a.timer` has drifted. -/
def linkHost : Host :=
  { timerApplyHost 0 with
    resolve := fun path => some (followLinks path)
    strict := fun path => .path (followLinks path)
    holds := fun path =>
      if path = .of "/etc/systemd/system/a.timer".toList then
        .bytes "[Timer]\nOnCalendar=daily\n".toUTF8
      else .bytes "[Timer]\nOnCalendar=weekly\n".toUTF8
    allowlist := [⟨sourceDir, unitDir⟩, ⟨.of "/etc/systemd".toList, unitDir⟩]
    resolved := ⟨[(unitDir, (1, 2))], [sourceDir, .of "/etc/systemd".toList]⟩ }

/-- The helper accepted the manifest, if one was sent. -/
def accepts : Sigma ApplyCall.Answer → Bool
  | ⟨.exchange _, .replied _ (.ok _ _ _)⟩ => true
  | ⟨.exchange _, _⟩ => false
  | _ => true

/-- What is accepted call by call is accepted. -/
theorem accepted_of_all {calls : History ApplyCall.Answer} (hall : calls.all accepts = true) :
    Accepted calls := by
  intro manifest answer hmem
  have haccepts := List.all_eq_true.mp hall _ hmem
  cases answer with
  | raised => cases haccepts
  | replied served response =>
    cases response with
    | ok installed markers results => exact ⟨served, installed, markers, results, rfl⟩
    | rejected | busy | timedOut => cases haccepts

/-- How many bytes of a unit are written. -/
def Effect.bytes : Effect → ℕ
  | .unit _ _ data => data.size
  | .marker _ _ _ | .reload | .enable _ => 0

/-- What `Agree` says of one run of each. -/
theorem Agree.run {markers : Markers} (hagree : Agree host force markers diffs)
    (haccepts : ((applyUnitDiffsViaHelper force markers diffs).run host.answer []).1.all accepts) :
    ((applyUnitDiffs systemdDestDir force diffs).run host.answer []).2.toBool =
        ((applyUnitDiffsViaHelper force markers diffs).run host.answer []).2.toBool ∧
      (((applyUnitDiffsViaHelper force markers diffs).run host.answer []).2.toBool = true →
        host.effects ((applyUnitDiffsViaHelper force markers diffs).run host.answer []).1 =
          host.effects ((applyUnitDiffs systemdDestDir force diffs).run host.answer []).1) := by
  have hdirect := runs_run host.answer_answers (applyUnitDiffs systemdDestDir force diffs) []
  have hhelper := runs_run host.answer_answers (applyUnitDiffsViaHelper force markers diffs) []
  obtain ⟨hraise, heffects⟩ := hagree _ _ _ _ hdirect hhelper (accepted_of_all haccepts)
  revert hraise heffects
  -- Four cases, by how the two runs end.
  rcases ((applyUnitDiffs systemdDestDir force diffs).run host.answer []).2 with e | report <;>
    rcases ((applyUnitDiffsViaHelper force markers diffs).run host.answer []).2 with e' | report' <;>
      intro hraise heffects
  · exact ⟨rfl, nofun⟩
  · obtain ⟨_, h⟩ := hraise.mp ⟨e, rfl⟩
    cases h
  · obtain ⟨_, h⟩ := hraise.mpr ⟨e', rfl⟩
    cases h
  · exact ⟨rfl, fun _ => heffects _ _ rfl rfl⟩

set_option maxRecDepth 10000 in
/-- `systemctl` fails and only a run without the helper raises; only the helper writes the marker; and
the helper installs in `b.timer` what `a.timer` held, a copy what it now holds. -/
theorem disagree :
    ¬Agree (timerApplyHost 1) false .off [timerDiff] ∧
      ¬Agree (timerApplyHost 0) false (.on (some (.of "/srv/app/fraises.yaml".toList)))
        [timerDiff] ∧
      ¬Agree linkHost true .off [{ timerDiff with state := .drifted }, linkedDiff] := by
  refine ⟨fun hagree => ?_, fun hagree => ?_, fun hagree => ?_⟩
  · exact absurd (hagree.run (by decide)).1 (by decide)
  · have heffects := (hagree.run (by decide)).2 (by decide)
    exact absurd (congrArg (List.countP Effect.isMarker) heffects) (by decide)
  · have heffects := (hagree.run (by decide)).2 (by decide)
    exact absurd (congrArg (List.map Effect.bytes) heffects) (by decide)

end Fraisier.Install
