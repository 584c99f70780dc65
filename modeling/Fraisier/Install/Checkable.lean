import Fraisier.Install.Answered
import Fraisier.Install.Request

/-!
# A checkable manifest is answered

`handleParsed_ends`: a manifest that is `Checkable` is answered wherever what the helper calls
behaves. In such a manifest no field is used as something that it is not before a check refuses the
manifest for sure.
-/

namespace Fraisier.Install.Wire

open Fraisier.Lib Interaction Str Unicode Json Fraisier.Unit

/-! ## What the helper relies on -/

/-- The root policy was loaded, and so the manifest was validated. -/
def PolicyLoaded (h : History InstallCall.Answer) : Prop := ∃ e ∈ h, e.1 = .loadPolicy

/-- The validator has an answer for the file: no identity in it has more digits than `int` takes. -/
def Judgeable (data : ByteArray) : Prop :=
  ∀ name policy text, decodeUtf8 data = some text → validateUnit name text policy ≠ none

/-- No call raises, no path that was there when the manifest was validated is missing later, and the
validator has an answer for each file. -/
def Behaves : Rely InstallCall.Answer := fun h e =>
  match e with
  | ⟨.resolve _, answer⟩ => answer ≠ .raised ∧ (PolicyLoaded h → answer ≠ .notFound)
  | ⟨.loadPolicy, answer⟩ => answer ≠ .raised
  | ⟨.readFile _, answer⟩ => answer ≠ .raised ∧ ∀ data, answer = .bytes data → Judgeable data
  | ⟨.lock, answer⟩ => answer ≠ .raised
  | ⟨.openDir _, answer⟩ => answer ≠ .raised
  | ⟨.writeFile _ _ _, answer⟩ => answer ≠ .raised
  | ⟨.writeMarker _ _ _, answer⟩ => answer ≠ .raised
  | ⟨.systemctl _, answer⟩ => answer ≠ .raised
  | ⟨.deadline, _⟩ | ⟨.pathExists _, _⟩ => True

/-! ## What the checks of a manifest say of its fields -/

/-- A text. -/
def IsText (v : Json) : Prop := ∃ t, v = .str t

/-- The basename of a unit, as `_check_unit_basename` has it. -/
def IsUnitBasename (basename : Str) : Prop :=
  (suffixOf basename).isSome = true ∧ hasSub "..".toList basename = false ∧
    basename.startsWith ['.'] = false ∧ isServiceName basename = true

/-- A destination that has the name of a unit. -/
def NamesUnit (destPath : Json) : Prop :=
  ∃ t, destPath = .str t ∧ IsUnitBasename (unitName (shown t))

/-- A destination that is a text and has another name. -/
def NamesOther (destPath : Json) : Prop :=
  ∃ t, destPath = .str t ∧ ¬IsUnitBasename (unitName (shown t))

/-- An absolute path. -/
def IsAbsolutePath (path : Json) : Prop :=
  ∃ t, path = .str t ∧ (PurePath.of (shown t)).isAbsolute = true

/-- A relative path. -/
def IsRelativePath (path : Json) : Prop :=
  ∃ t, path = .str t ∧ (PurePath.of (shown t)).isAbsolute = false

/-- An operation whose fields are texts and pass their checks. -/
inductive Passes : Operation Json Json → Prop
  | installFile {op : InstallFileOp Json Json} (hmode : op.mode = .str (text "0644"))
      (hdest : NamesUnit op.destPath) (hsource : IsText op.sourcePath)
      (hmarker : ∀ marker ∈ op.marker, IsAbsolutePath marker.fraisesYamlPath) :
      Passes (.installFile op)
  | writeMarker {op : WriteMarkerOp Json} (hdest : NamesUnit op.destPath)
      (hmarker : IsAbsolutePath op.marker.fraisesYamlPath) : Passes (.writeMarker op)

variable (limits : Stack)

/-- An operation with a field that a check refuses, and only texts in those that are used before. -/
inductive Refused : Operation Json Json → Prop
  | mode {op : InstallFileOp Json Json} (hmode : op.mode ≠ .str (text "0644"))
      (hdepth : op.mode.depth ≤ limits.repr) : Refused (.installFile op)
  | dest {op : InstallFileOp Json Json} (hmode : op.mode = .str (text "0644"))
      (hdest : NamesOther op.destPath) : Refused (.installFile op)
  | marker {op : InstallFileOp Json Json} {marker : MarkerMeta Json}
      (hmode : op.mode = .str (text "0644")) (hdest : NamesUnit op.destPath)
      (hsource : IsText op.sourcePath) (hmarker : op.marker = some marker)
      (hpath : IsRelativePath marker.fraisesYamlPath) : Refused (.installFile op)
  | markerDest {op : WriteMarkerOp Json} (hdest : NamesOther op.destPath) :
      Refused (.writeMarker op)
  | markerPath {op : WriteMarkerOp Json} (hdest : NamesUnit op.destPath)
      (hpath : IsRelativePath op.marker.fraisesYamlPath) : Refused (.writeMarker op)

/-- A post-action that is no `enable_now` of a unit that the manifest does not install. -/
inductive ActionPasses (installed : List Str) : PostAction Json → Prop
  | daemonReload : ActionPasses installed .daemonReload
  | enableNow {unit : Json} (h : isInstalled installed unit = true) :
      ActionPasses installed (.enableNow unit)
  | disableNow {unit : Json} : ActionPasses installed (.disableNow unit)
  | stop {unit : Json} : ActionPasses installed (.stop unit)

/-- An `enable_now` of another unit, whose name has a hash. -/
inductive ActionRefused (installed : List Str) : PostAction Json → Prop
  | enableNow {unit : Json} (h : isInstalled installed unit = false)
      (harr : ∀ items, unit ≠ .arr items) (hobj : ∀ members, unit ≠ .obj members) :
      ActionRefused installed (.enableNow unit)

/-- The marker of an operation. -/
def Operation.marker? {S B : Type} : Operation S B → Option (MarkerMeta S)
  | .installFile op => op.marker
  | .writeMarker op => some op.marker

/-- The marker of the operation can be written as JSON. -/
def IsWritable (op : Operation Json Json) : Prop :=
  ∀ marker ∈ op.marker?, ∀ v ∈ marker.fields, v.depth ≤ limits.marker

/-- The unit that is stopped or disabled is a text. -/
def StopsText : PostAction Json → Prop
  | .disableNow unit | .stop unit => IsText unit
  | .daemonReload | .enableNow _ => True

/-- A manifest that no check and no use of a field raises for. What is used after a check counts only
if the check passes. -/
structure Checkable (manifest : ParsedManifest) : Prop where
  version : manifest.version.sameKey (.int manifestVersion) = false →
    manifest.version.depth ≤ limits.repr
  operations : manifest.version.sameKey (.int manifestVersion) = true →
    Settled Passes (Refused limits) manifest.operations
  actions : manifest.version.sameKey (.int manifestVersion) = true →
    (∀ op ∈ manifest.operations, Passes op) →
      Settled (ActionPasses (installedBasenames manifest.operations))
        (ActionRefused (installedBasenames manifest.operations)) manifest.postActions
  executed : manifest.version.sameKey (.int manifestVersion) = true →
    (∀ op ∈ manifest.operations, Passes op) →
    (∀ action ∈ manifest.postActions,
      ActionPasses (installedBasenames manifest.operations) action) →
    (∀ op ∈ manifest.operations, IsWritable limits op) ∧
      ∀ action ∈ manifest.postActions, StopsText action

/-! ## Parts on texts do not raise -/

/-- The program ends normally, or by an exception that the helper handles. -/
abbrev Handled (I : History InstallCall.Answer → Prop) {α : Type} (p : InstallM α) : Prop :=
  Stays Behaves I (· ≠ .raised) p

/-- The program ends normally, or rejects the manifest. -/
abbrev Checks (I : History InstallCall.Answer → Prop) {α : Type} (p : InstallM α) : Prop :=
  Stays Behaves I (∃ reason, · = .rejected reason) p

/-- A policy that is loaded stays loaded. -/
theorem policyLoaded_append (h : History InstallCall.Answer) (e : Sigma InstallCall.Answer)
    (hloaded : PolicyLoaded h) : PolicyLoaded (h ++ [e]) := by
  obtain ⟨e', he', hload⟩ := hloaded
  exact ⟨e', List.mem_append_left _ he', hload⟩

/-- What a run does before the policy is loaded needs nothing of the calls before. -/
abbrev Anytime : History InstallCall.Answer → Prop := fun _ => True

/-- Resolving a path refuses or passes, at any time. -/
theorem checks_safeResolve (path : PurePath) : Checks Anytime (safeResolve path) := by
  refine stays_ask_bind (fun _ _ => id) fun h answer _ hanswer => ?_
  cases answer with
  | path p => exact stays_pure
  | notFound => exact stays_pure
  | raised => exact absurd rfl hanswer.1

/-- Matching a path against the prefixes refuses or passes, at any time. -/
theorem checks_matchPrefix (prefix_ : AllowlistEntry → PurePath) (isMatch : PurePath → Bool)
    (allowlist : List AllowlistEntry) : Checks Anytime (matchPrefix prefix_ isMatch allowlist) := by
  induction allowlist with
  | nil => exact stays_pure
  | cons entry rest ih =>
    refine (checks_safeResolve _).bind fun root => ?_
    split
    · exact stays_pure
    · exact ih

/-- The check of a source refuses or passes, at any time. -/
theorem checks_checkSource (sourcePath : Str) (allowlist : List AllowlistEntry) (index : ℕ) :
    Checks Anytime (checkSource sourcePath allowlist index) := by
  refine stays_ask_bind (fun _ _ => id) fun h answer _ hanswer => ?_
  cases answer with
  | raised => exact absurd rfl hanswer.1
  | notFound => exact stays_raise ⟨_, rfl⟩
  | path p =>
    refine (checks_matchPrefix _ _ allowlist).bind fun entry => ?_
    split
    · exact stays_raise ⟨_, rfl⟩
    · exact stays_pure

/-- The check of a destination refuses or passes, at any time. -/
theorem checks_checkDestParent (destPath : Str) (allowlist : List AllowlistEntry) (index : ℕ) :
    Checks Anytime (checkDestParent destPath allowlist index) := by
  refine stays_ask_bind (fun _ _ => id) fun h answer _ hanswer => ?_
  cases answer with
  | raised => exact absurd rfl hanswer.1
  | notFound => exact stays_raise ⟨_, rfl⟩
  | path p =>
    refine (checks_matchPrefix _ _ allowlist).bind fun entry => ?_
    split
    · exact stays_raise ⟨_, rfl⟩
    · exact stays_pure

/-- The bytes of a source are such that the validator has an answer. -/
theorem readSource_ends (sourcePath : Str) (resolved : ResolvedAllowlist)
    (h : History InstallCall.Answer) (hloaded : PolicyLoaded h) :
    (readSource sourcePath resolved).Ends Behaves h (fun data h => PolicyLoaded h ∧ Judgeable data)
      fun e _ => ∃ reason, e = .rejected reason := by
  -- Once the policy is loaded, a source that was resolved can be read.
  intro answer hanswer
  have hloaded' := policyLoaded_append h ⟨_, answer⟩ hloaded
  cases answer with
  | raised => exact absurd rfl hanswer.1
  | notFound => exact absurd rfl (hanswer.2 hloaded)
  | path source =>
    show Ends _ (ite _ _ _) _ _ _
    split
    · exact ⟨_, rfl⟩
    intro answer hanswer
    cases answer with
    | link => exact ⟨_, rfl⟩
    | raised => exact absurd rfl hanswer.1
    | bytes data =>
      show Ends _ (ite _ _ _) _ _ _
      split
      · exact ⟨_, rfl⟩
      · exact ⟨policyLoaded_append _ _ hloaded', hanswer.2 data rfl⟩

/-- Reading a source refuses or passes once the policy is loaded. -/
theorem checks_readSource (sourcePath : Str) (resolved : ResolvedAllowlist) :
    Checks PolicyLoaded (readSource sourcePath resolved) :=
  fun h hloaded => (readSource_ends sourcePath resolved h hloaded).mono (fun _ _ => And.left)
    fun _ _ => id

/-- Judging a source refuses or passes once the policy is loaded. -/
theorem checks_judgeSource (resolved : ResolvedAllowlist) (policy : RootPolicy) (acc : Judgement)
    (item : Install.Operation × ℕ) :
    Checks PolicyLoaded (Install.judgeSource resolved policy acc item) := by
  unfold Install.judgeSource
  split
  · exact stays_pure
  intro h hloaded
  rw [ends_bind]
  refine (readSource_ends _ resolved h hloaded).mono (fun data h' hread => ?_) fun _ _ => id
  -- A source that is no UTF-8 is refused, and any other is judged.
  split
  · exact hread.1
  rename_i text hdecode
  have hjudged := hread.2
  split
  · rename_i hnone
    exact absurd (Option.map_eq_none_iff.mp hnone) (hjudged _ policy text hdecode)
  · exact hread.1

/-- What opening a destination raises is handled. -/
theorem handled_openDest (destPath : Str) (resolved : ResolvedAllowlist) :
    Handled PolicyLoaded (openDest destPath resolved) := by
  refine stays_ask_bind policyLoaded_append fun h answer hloaded hanswer => ?_
  cases answer with
  | raised => exact absurd rfl hanswer.1
  | notFound => exact absurd rfl (hanswer.2 hloaded)
  | path parent =>
    -- The directory has to be one that was recorded, and is opened to compare it.
    show Handled PolicyLoaded (openAndVerifyDestParent parent resolved)
    unfold openAndVerifyDestParent
    split
    · exact stays_raise nofun
    refine stays_ask_bind policyLoaded_append fun h answer _ hanswer => ?_
    cases answer with
    | raised => exact absurd rfl hanswer
    | opened id =>
      dsimp only
      split
      · exact stays_raise nofun
      · exact stays_pure

/-- What a write into an open directory raises is handled. -/
theorem handled_writeIntoDirFd (dir : OpenDir) (name : Str) (data : ByteArray) :
    Handled PolicyLoaded (writeIntoDirFd dir name data) := by
  refine stays_ask_bind policyLoaded_append fun h answer _ hanswer => ?_
  cases answer with
  | done => exact stays_pure
  | link => exact stays_raise nofun
  | raised => exact absurd rfl hanswer

/-- What the write of a marker raises is handled. -/
theorem handled_writeMarkerIntoDirFd (dir : OpenDir) (unit : Str) (marker : Install.MarkerMeta) :
    Handled PolicyLoaded (Install.writeMarkerIntoDirFd dir unit marker) := by
  refine stays_ask_bind policyLoaded_append fun h answer _ hanswer => ?_
  cases answer with
  | done => exact stays_pure
  | link => exact stays_raise nofun
  | raised => exact absurd rfl hanswer

/-- What the check of the deadline raises is handled. -/
theorem handled_checkManifestDeadline (stage : String) (index : ℕ) :
    Handled PolicyLoaded (checkManifestDeadline stage index) := by
  refine stays_ask_bind policyLoaded_append fun h late _ _ => ?_
  cases late with
  | true => exact stays_raise nofun
  | false => exact stays_pure

/-- What the look for a marker raises is handled. -/
theorem handled_markerPresent (unit : Str) (dests : List (PurePath × DirId)) :
    Handled PolicyLoaded (markerPresent unit dests) := by
  induction dests with
  | nil => exact stays_pure
  | cons dest rest ih =>
    refine stays_ask_bind policyLoaded_append fun h found _ _ => ?_
    cases found with
    | true => exact stays_pure
    | false => exact ih

/-- What a post action raises is handled. -/
theorem handled_executePostAction (action : Install.PostAction) (resolved : ResolvedAllowlist) :
    Handled PolicyLoaded (Install.executePostAction action resolved) := by
  have hrun : Handled PolicyLoaded (runPostAction action) := by
    refine stays_ask_bind policyLoaded_append fun h answer _ hanswer => ?_
    cases answer with
    | exited | timedOut => exact stays_pure
    | raised => exact absurd rfl hanswer
  unfold Install.executePostAction
  split
  · exact hrun
  · refine (handled_markerPresent _ _).bind fun found => ?_
    split
    · exact hrun
    · exact stays_pure

/-- Loading the policy leaves it loaded or refuses the manifest. -/
theorem loadPolicy_ends (h : History InstallCall.Answer) :
    loadPolicy.Ends Behaves h (fun _ => PolicyLoaded) fun e _ => ∃ reason, e = .rejected reason := by
  intro answer hanswer
  cases answer with
  | policy p => exact ⟨_, List.mem_append_right _ (List.mem_singleton_self _), rfl⟩
  | refused text => exact ⟨_, rfl⟩
  | raised => exact absurd rfl hanswer

/-! ## A checkable manifest is answered -/

/-- A part on texts that does not raise does not raise here. -/
theorem Handled.lift {I : History InstallCall.Answer → Prop} {α : Type} {p : InstallM α}
    (hp : Handled I p) : Stays Behaves I (· ≠ RequestError.raised) (lift p) := by
  intro h hI
  refine ends_mapError.mpr ((hp h hI).mono (fun _ _ => id) fun e _ he => ?_)
  cases e with
  | rejected | timedOut => exact nofun
  | raised => exact absurd rfl he

/-- A rejection is handled. -/
theorem Checks.handled {I : History InstallCall.Answer → Prop} {α : Type} {p : InstallM α}
    (hp : Checks I p) : Handled I p := by
  refine fun h hI => (hp h hI).mono (fun _ _ => id) fun e _ he => ?_
  obtain ⟨reason, rfl⟩ := he
  exact nofun

/-- A check on texts is one here. -/
theorem Checks.lift {I : History InstallCall.Answer → Prop} {α : Type} {p : InstallM α}
    (hp : Checks I p) : Stays Behaves I (∃ reason, · = RequestError.rejected reason) (lift p) := by
  intro h hI
  refine ends_mapError.mpr ((hp h hI).mono (fun _ _ => id) fun e _ he => ?_)
  obtain ⟨reason, rfl⟩ := he
  exact ⟨_, rfl⟩

/-- The name of a unit passes its check. -/
theorem checkUnitBasename_eq {basename : Str} (h : IsUnitBasename basename) (index : ℕ) :
    checkUnitBasename basename index = pure () := by
  obtain ⟨hsuffix, hdots, hdot, hservice⟩ := h
  have hnone : ¬(suffixOf basename).isNone = true := by
    rw [← Option.not_isSome, hsuffix]
    exact Bool.false_ne_true
  rw [checkUnitBasename, if_neg hnone, if_neg (Bool.eq_false_iff.mp hdots),
    if_neg (Bool.eq_false_iff.mp hdot), hservice]
  rfl

/-- Another name is rejected. -/
theorem checkUnitBasename_raises {basename : Str} (h : ¬IsUnitBasename basename) (index : ℕ) :
    ∃ reason, checkUnitBasename basename index = raise (.rejected reason) := by
  unfold checkUnitBasename
  repeat' split
  · exact ⟨_, rfl⟩
  · exact ⟨_, rfl⟩
  · exact ⟨_, rfl⟩
  · exact ⟨_, rfl⟩
  · rename_i hsuffix hdots hdot hservice
    refine absurd ⟨?_, by simpa using hdots, by simpa using hdot, by simpa using hservice⟩ h
    rw [Option.isSome_iff_ne_none]
    simpa using hsuffix

variable {limits} {allowlist : List AllowlistEntry} {resolved : ResolvedAllowlist}
  {h : History InstallCall.Answer}

/-- A value that can be shown is refused with its reason. -/
theorem rejectShowing_ends {v : Json} {reason : Reason} (hdepth : v.depth ≤ limits.repr)
    {Q : Unit → History InstallCall.Answer → Prop} :
    (rejectShowing limits v reason).Ends Behaves h Q fun e _ => ∃ reason, e = .rejected reason := by
  rw [rejectShowing, if_pos hdepth]
  exact ⟨_, rfl⟩

/-- A marker's path passes or is refused. -/
theorem checkMarker_ends {marker : MarkerMeta Json} {index : ℕ}
    (hpath : IsAbsolutePath marker.fraisesYamlPath ∨ IsRelativePath marker.fraisesYamlPath) :
    (checkMarker marker index).Ends Behaves h (fun _ _ => IsAbsolutePath marker.fraisesYamlPath)
      fun e _ => ∃ reason, e = .rejected reason := by
  obtain ⟨path, name, environment, job⟩ := marker
  -- The path is a text, absolute or not.
  rcases hpath with ⟨t, rfl, habsolute⟩ | ⟨t, rfl, hrelative⟩
  · refine ends_mapError.mpr ?_
    have htold : (PurePath.of
      (MarkerMeta.told ⟨.str t, name, environment, job⟩).fraisesYamlPath).isAbsolute = true := habsolute
    rw [Install.checkMarker, if_pos htold]
    exact ⟨t, rfl, habsolute⟩
  · refine ends_mapError.mpr ?_
    have htold : (PurePath.of
      (MarkerMeta.told ⟨.str t, name, environment, job⟩).fraisesYamlPath).isAbsolute = false := hrelative
    rw [Install.checkMarker, if_neg (Bool.eq_false_iff.mp htold)]
    exact ⟨_, rfl⟩

/-- A file to install whose mode, destination and source are in order. -/
theorem validateInstallFileOp_eq {op : InstallFileOp Json Json} {dest source : Text} {index : ℕ}
    (hmode : op.mode = .str (text "0644")) (hdest : op.destPath = .str dest)
    (hname : IsUnitBasename (unitName (shown dest))) (hsource : op.sourcePath = .str source) :
    validateInstallFileOp limits op allowlist index = (do
      lift (checkSource (shown source) allowlist index)
      lift (checkDestParent (shown dest) allowlist index)
      match op.marker with
      | some marker => checkMarker marker index
      | none => pure ()) := by
  rw [validateInstallFileOp, if_pos (isStr_iff.mpr hmode), hdest, hsource]
  show (do
    lift (checkUnitBasename (unitName (shown dest)) index)
    lift (checkSource (shown source) allowlist index)
    lift (checkDestParent (shown dest) allowlist index)
    match op.marker with
    | some marker => checkMarker marker index
    | none => pure ()) = _
  rw [checkUnitBasename_eq hname]
  rfl

/-- A destination of another name is refused, whatever comes after. -/
theorem other_ends {dest : Text} {index : ℕ} {f : Unit → RequestM Unit}
    {Q : Unit → History InstallCall.Answer → Prop} (hname : ¬IsUnitBasename (unitName (shown dest))) :
    (lift (checkUnitBasename (unitName (shown dest)) index) >>= f).Ends Behaves h Q
      fun e _ => ∃ reason, e = .rejected reason := by
  obtain ⟨reason, hraise⟩ := checkUnitBasename_raises hname index
  rw [hraise]
  exact ⟨_, rfl⟩

/-- An install operation that passes or is refused is told from one that raises. -/
theorem validateInstallFileOp_ends {op : InstallFileOp Json Json} {index : ℕ}
    (hop : Passes (.installFile op) ∨ Refused limits (.installFile op)) :
    (validateInstallFileOp limits op allowlist index).Ends Behaves h
      (fun _ _ => Passes (.installFile op)) fun e _ => ∃ reason, e = .rejected reason := by
  -- where the marker's path is looked at, everything else is in order
  have hrest : ∀ {dest source : Text}, op.mode = .str (text "0644") → op.destPath = .str dest →
      IsUnitBasename (unitName (shown dest)) → op.sourcePath = .str source →
      (∀ marker ∈ op.marker, IsAbsolutePath marker.fraisesYamlPath ∨
        IsRelativePath marker.fraisesYamlPath) →
      (validateInstallFileOp limits op allowlist index).Ends Behaves h
        (fun _ _ => Passes (.installFile op)) fun e _ => ∃ reason, e = .rejected reason := by
    intro dest source hmode hdest hname hsource hmarker
    rw [validateInstallFileOp_eq hmode hdest hname hsource, ends_bind]
    refine ((checks_checkSource _ _ _).lift h trivial).mono (fun _ h' _ => ?_) fun _ _ => id
    rw [ends_bind]
    refine ((checks_checkDestParent _ _ _).lift h' trivial).mono (fun _ h' _ => ?_) fun _ _ => id
    have hpasses := Passes.installFile hmode ⟨dest, hdest, hname⟩ ⟨source, hsource⟩
    cases hm : op.marker with
    | none => exact hpasses (by simp [hm])
    | some marker =>
      refine (checkMarker_ends (hmarker marker hm)).mono (fun _ _ hpath => ?_) fun _ _ => id
      exact hpasses (by simpa [hm] using hpath)
  rcases hop with hop | hop
  · cases hop with
    | installFile hmode hdest hsource hmarker =>
      obtain ⟨dest, hdest, hname⟩ := hdest
      obtain ⟨source, hsource⟩ := hsource
      exact hrest hmode hdest hname hsource fun marker hm => .inl (hmarker marker hm)
  · cases hop with
    | mode hmode hdepth =>
      rw [validateInstallFileOp, if_neg (isStr_iff.not.mpr hmode)]
      exact rejectShowing_ends hdepth
    | dest hmode hdest =>
      obtain ⟨dest, hdest, hname⟩ := hdest
      rw [validateInstallFileOp, if_pos (isStr_iff.mpr hmode), hdest]
      exact other_ends hname
    | @marker _ marker hmode hdest hsource hmarker hpath =>
      obtain ⟨dest, hdest, hname⟩ := hdest
      obtain ⟨source, hsource⟩ := hsource
      refine hrest hmode hdest hname hsource fun marker' hm => .inr ?_
      obtain rfl := Option.some.inj (hmarker.symm.trans hm)
      exact hpath

/-- A marker to write with a destination in order. -/
theorem validateWriteMarkerOp_eq {op : WriteMarkerOp Json} {dest : Text}
    {index : ℕ} (hdest : op.destPath = .str dest)
    (hname : IsUnitBasename (unitName (shown dest))) :
    validateWriteMarkerOp op allowlist index = (do
      lift (checkDestParent (shown dest) allowlist index)
      checkMarker op.marker index) := by
  rw [validateWriteMarkerOp, hdest]
  show (do
    lift (checkUnitBasename (unitName (shown dest)) index)
    lift (checkDestParent (shown dest) allowlist index)
    checkMarker op.marker index) = _
  rw [checkUnitBasename_eq hname]
  rfl

/-- A marker operation that passes or is refused is told from one that raises. -/
theorem validateWriteMarkerOp_ends {op : WriteMarkerOp Json} {index : ℕ}
    (hop : Passes (.writeMarker op) ∨ Refused limits (.writeMarker op)) :
    (validateWriteMarkerOp op allowlist index).Ends Behaves h
      (fun _ _ => Passes (.writeMarker op)) fun e _ => ∃ reason, e = .rejected reason := by
  -- Past the unit's name, what is left to raise is the marker's path.
  have hrest : NamesUnit op.destPath → (IsAbsolutePath op.marker.fraisesYamlPath ∨
      IsRelativePath op.marker.fraisesYamlPath) →
      (validateWriteMarkerOp op allowlist index).Ends Behaves h
        (fun _ _ => Passes (.writeMarker op)) fun e _ => ∃ reason, e = .rejected reason := by
    intro hnames hpath
    obtain ⟨dest, hdest, hname⟩ := id hnames
    rw [validateWriteMarkerOp_eq hdest hname, ends_bind]
    refine ((checks_checkDestParent _ _ _).lift h trivial).mono (fun _ h' _ => ?_) fun _ _ => id
    exact (checkMarker_ends hpath).mono (fun _ _ habsolute => .writeMarker hnames habsolute)
      fun _ _ => id
  rcases hop with hop | hop
  · cases hop with
    | writeMarker hdest hmarker => exact hrest hdest (.inl hmarker)
  · cases hop with
    | markerDest hdest =>
      obtain ⟨dest, hdest, hname⟩ := hdest
      rw [validateWriteMarkerOp, hdest]
      exact other_ends hname
    | markerPath hdest hpath => exact hrest hdest (.inr hpath)

/-- An operation that passes or is refused does not raise, and passes where its checks end. -/
theorem validateOperation_ends {op : Operation Json Json} {index : ℕ}
    (hop : Passes op ∨ Refused limits op) :
    (validateOperation limits allowlist (op, index)).Ends Behaves h (fun _ _ => Passes op)
      fun e _ => ∃ reason, e = .rejected reason := by
  cases op with
  | installFile op => exact validateInstallFileOp_ends hop
  | writeMarker op => exact validateWriteMarkerOp_ends hop

/-- A value that is no container has a hash. -/
theorem exists_key {v : Json} (harr : ∀ items, v ≠ .arr items) (hobj : ∀ members, v ≠ .obj members) :
    ∃ k, v.key = .ok k := by
  cases v with
  | arr items => exact absurd rfl (harr items)
  | obj members => exact absurd rfl (hobj members)
  | _ => exact ⟨_, rfl⟩

/-- A unit that is installed is a text. -/
theorem isText_of_isInstalled {installed : List Str} {unit : Json}
    (hinstalled : isInstalled installed unit = true) : IsText unit := by
  cases unit with
  | str t => exact ⟨t, rfl⟩
  | _ => cases hinstalled

/-- A post-action that passes or is refused does not raise, and passes where its check ends. -/
theorem validatePostAction_ends {installed : List Str} {action : PostAction Json} {index : ℕ}
    (haction : ActionPasses installed action ∨ ActionRefused installed action) :
    (validatePostAction installed (action, index)).Ends Behaves h
      (fun _ _ => ActionPasses installed action) fun e _ => ∃ reason, e = .rejected reason := by
  -- Only the unit that is enabled is looked at.
  rcases haction with haction | haction
  · cases haction with
    | daemonReload => exact .daemonReload
    | disableNow => exact .disableNow
    | stop => exact .stop
    | @enableNow unit hinstalled =>
      obtain ⟨t, rfl⟩ := isText_of_isInstalled hinstalled
      show Ends _ (ite _ _ _) _ _ _
      rw [if_pos hinstalled]
      exact .enableNow hinstalled
  · cases haction with
    | @enableNow unit hnot harr hobj =>
      obtain ⟨k, hkey⟩ := exists_key harr hobj
      simp only [validatePostAction, hkey, hnot]
      exact ⟨_, rfl⟩

/-- A manifest of the version that the helper knows. -/
theorem validateManifest_eq {manifest : ParsedManifest}
    (hversion : manifest.version.sameKey (.int manifestVersion) = true) :
    validateManifest limits manifest allowlist = (do
      manifest.operations.zipIdx.foldlM (fun _ item => validateOperation limits allowlist item) ()
      manifest.postActions.zipIdx.foldlM
        (fun _ item => validatePostAction (installedBasenames manifest.operations) item) ()) := by
  rw [validateManifest, checkVersion, if_pos hversion]
  rfl

/-- Validation ends normally only where every operation and post-action passes. -/
theorem validateManifest_ends {manifest : ParsedManifest} (hc : Checkable limits manifest) :
    (validateManifest limits manifest allowlist).Ends Behaves h
      (fun _ _ => manifest.version.sameKey (.int manifestVersion) = true ∧
        (∀ op ∈ manifest.operations, Passes op) ∧ ∀ action ∈ manifest.postActions,
          ActionPasses (installedBasenames manifest.operations) action)
      fun e _ => ∃ reason, e = .rejected reason := by
  -- The version is compared first, and nothing else of another version is looked at.
  cases hversion : manifest.version.sameKey (.int manifestVersion) with
  | false =>
    rw [validateManifest, checkVersion, hversion, ends_bind]
    exact rejectShowing_ends (hc.version hversion)
  | true =>
    rw [validateManifest_eq hversion, ends_bind]
    refine (Ends.checks (hc.operations hversion) fun _ op _ i h hop =>
      validateOperation_ends hop).mono (fun _ h' hops => ?_) fun _ _ => id
    refine (Ends.checks (hc.actions hversion hops) fun _ action _ i h haction =>
      validatePostAction_ends haction).mono (fun _ _ hactions => ?_) fun _ _ => id
    exact ⟨rfl, hops, hactions⟩

/-- The program ends normally, or by an exception that the helper handles, after the policy was
loaded. -/
abbrev Loaded {α : Type} (p : RequestM α) : Prop := Stays Behaves PolicyLoaded (· ≠ .raised) p

/-- Judging the source of an operation that passed rejects at worst. -/
theorem judgeSource_stays {op : Operation Json Json} (hop : Passes op) (policy : RootPolicy)
    (acc : Judgement) (index : ℕ) : Stays Behaves PolicyLoaded (∃ reason, · = .rejected reason)
      (judgeSource resolved policy acc (op, index)) := by
  cases op with
  | writeMarker op => exact stays_pure
  | installFile op =>
    cases hop with
    | installFile _ hdest hsource _ =>
      obtain ⟨dest, hdest, -⟩ := hdest
      obtain ⟨source, hsource⟩ := hsource
      show Stays _ _ _ (asText op.destPath >>= _)
      rw [hdest, hsource]
      exact (checks_judgeSource resolved policy acc
        (.installFile ⟨shown source, shown dest, requiredMode, none⟩, index)).lift

/-- Judging the sources of operations that pass refuses at most. -/
theorem judgeSources_stays {manifest : ParsedManifest} (policy : RootPolicy)
    (hops : ∀ op ∈ manifest.operations, Passes op) :
    Stays Behaves PolicyLoaded (∃ reason, · = .rejected reason)
      (judgeSources manifest resolved policy) := by
  refine Stays.bind (Stays.foldlM fun acc item hitem =>
    judgeSource_stays (hops item.1 (List.fst_mem_of_mem_zipIdx hitem)) policy acc item.2) fun acc => ?_
  dsimp only
  split
  · exact stays_raise ⟨_, rfl⟩
  · exact stays_pure

/-- A marker whose fields are not nested too deep is written or the write is handled. -/
theorem loaded_writeMarkerIntoDirFd {marker : MarkerMeta Json} (dir : OpenDir) (unit : Str)
    (hfields : ∀ v ∈ marker.fields, v.depth ≤ limits.marker) :
    Loaded (writeMarkerIntoDirFd limits dir unit marker) := by
  have hall : marker.fields.all (fun v => decide (v.depth ≤ limits.marker)) = true :=
    List.all_eq_true.mpr fun v hv => decide_eq_true (hfields v hv)
  rw [writeMarkerIntoDirFd, if_pos hall]
  exact (handled_writeMarkerIntoDirFd dir unit _).lift

/-- An operation that passed is carried out without an exception that is not handled. -/
theorem loaded_executeOperation {op : Operation Json Json} (hop : Passes op)
    (hwritable : IsWritable limits op) (contents : List (ℕ × ByteArray)) (acc : List Str × List Str)
    (index : ℕ) : Loaded (executeOperation limits resolved contents acc (op, index)) := by
  refine (handled_checkManifestDeadline "op" index).lift.bind fun _ => ?_
  cases hop with
  | @installFile op _ hdest hsource _ =>
    obtain ⟨dest, hdest, -⟩ := hdest
    obtain ⟨source, hsource⟩ := hsource
    refine Stays.bind ?_ fun name => stays_pure
    rw [executeInstallFileOp, hdest, hsource]
    refine (handled_openDest (shown dest) resolved).lift.bind fun dir => ?_
    -- The write is handled, and so is its marker, whose fields can be written.
    have hwrite : ∀ data, Loaded (do
        lift (writeIntoDirFd dir (unitName (shown dest)) data)
        match op.marker with
        | some marker => writeMarkerIntoDirFd limits dir (unitName (shown dest)) marker
        | none => pure ()
        pure (unitName (shown dest))) := by
      intro data
      refine (handled_writeIntoDirFd _ _ _).lift.bind fun _ => ?_
      cases hm : op.marker with
      | none => exact stays_pure
      | some marker =>
        exact (loaded_writeMarkerIntoDirFd dir _ (hwritable marker hm)).bind fun _ => stays_pure
    dsimp only
    cases contents.lookup index with
    | some data => exact hwrite data
    | none => exact (checks_readSource _ resolved).handled.lift.bind hwrite
  | @writeMarker op hdest _ =>
    obtain ⟨dest, hdest, -⟩ := hdest
    refine Stays.bind ?_ fun name => stays_pure
    rw [executeWriteMarkerOp, hdest]
    exact (handled_openDest (shown dest) resolved).lift.bind fun dir =>
      (loaded_writeMarkerIntoDirFd dir _ (hwritable op.marker rfl)).bind fun _ => stays_pure

/-- The result of a post-action on a text can be written. -/
theorem executePostAction_ends {installed : List Str} {action : PostAction Json}
    (haction : ActionPasses installed action) (hstops : StopsText action) (hloaded : PolicyLoaded h) :
    (executePostAction action resolved).Ends Behaves h
      (fun result h => PolicyLoaded h ∧ result.isWritable limits = true) fun e _ => e ≠ .raised := by
  -- The result on a text is one of the typed results.
  have hof : ∀ (action : Install.PostAction),
      (do return .of (← lift (Install.executePostAction action resolved)) :
        RequestM ActionResult).Ends Behaves h
          (fun result h => PolicyLoaded h ∧ result.isWritable limits = true) fun e _ => e ≠ .raised := by
    intro action
    rw [ends_bind]
    exact ((handled_executePostAction action resolved).lift h hloaded).mono
      (fun _ _ hloaded => ⟨hloaded, rfl⟩) fun _ _ => id
  cases haction with
  | daemonReload => exact hof _
  | enableNow hinstalled =>
    obtain ⟨t, rfl⟩ := isText_of_isInstalled hinstalled
    exact hof (.enableNow (shown t))
  | disableNow =>
    obtain ⟨t, rfl⟩ := hstops
    exact hof (.disableNow (shown t))
  | stop =>
    obtain ⟨t, rfl⟩ := hstops
    exact hof (.stop (shown t))

/-- The execution of a manifest that passed ends in a response, or in an exception that the helper
handles. -/
theorem loaded_executeManifest {manifest : ParsedManifest} {installed : List Str}
    (contents : List (ℕ × ByteArray)) (hops : ∀ op ∈ manifest.operations, Passes op)
    (hactions : ∀ action ∈ manifest.postActions, ActionPasses installed action)
    (hwritable : ∀ op ∈ manifest.operations, IsWritable limits op)
    (hstops : ∀ action ∈ manifest.postActions, StopsText action) :
    Loaded (executeManifest limits manifest resolved contents) := by
  -- The operations.
  refine Stays.bind (Stays.foldlM fun acc item hitem => ?_) fun acc => ?_
  · have hmem := List.fst_mem_of_mem_zipIdx hitem
    exact loaded_executeOperation (hops _ hmem) (hwritable _ hmem) contents acc item.2
  intro h hloaded
  show Ends _ (_ >>= _) _ _ _
  rw [ends_bind]
  -- Each result can be written in the response.
  refine (Ends.foldlM (I := fun _ results h => PolicyLoaded h ∧
    ∀ result ∈ results, result.isWritable limits = true) [] ⟨hloaded, List.forall_mem_nil _⟩
    fun done item rest results h hsplit hresults => ?_).mono (fun results h hresults => ?_)
      fun _ _ => id
  · have hmem : item.1 ∈ manifest.postActions :=
      List.fst_mem_of_mem_zipIdx (by rw [← List.nil_append (manifest.postActions.zipIdx), hsplit]; simp)
    show Ends _ (_ >>= _) _ _ _
    rw [ends_bind]
    refine ((handled_checkManifestDeadline "post_action" item.2).lift h hresults.1).mono
      (fun _ h hloaded => ?_) fun _ _ => id
    rw [ends_bind]
    have hrun : (executePostAction item.1 resolved).Ends Behaves h
        (fun result h => PolicyLoaded h ∧ result.isWritable limits = true) fun e _ => e ≠ .raised :=
      executePostAction_ends (hactions _ hmem) (hstops _ hmem) hloaded
    refine hrun.mono (fun result h hresult => ?_) fun _ _ => id
    refine ⟨hresult.1, fun r hr => ?_⟩
    rcases List.mem_append.mp hr with hold | hnew
    · exact hresults.2 r hold
    · rw [List.mem_singleton.mp hnew]
      exact hresult.2
  · rw [if_pos (List.all_eq_true.mpr hresults.2)]
    exact hresults.1

/-- A manifest that no field raises for is answered, whatever the calls of the helper answer. -/
theorem handleParsed_ends {manifest : ParsedManifest} (hc : Checkable limits manifest) :
    (handleParsed limits allowlist resolved manifest).Ends Behaves h (fun _ _ => True)
      fun _ _ => False := by
  rw [handleParsed, ends_bind, ends_attempt, accept, ends_bind]
  refine (validateManifest_ends hc).mono (fun _ h hvalid => ?_) fun e _ he => ?_
  case refine_2 =>
    obtain ⟨reason, rfl⟩ := he
    trivial
  obtain ⟨hversion, hops, hactions⟩ := hvalid
  obtain ⟨hwritable, hstops⟩ := hc.executed hversion hops hactions
  rw [ends_bind, ends_mapError]
  refine (loadPolicy_ends h).mono (fun policy h hloaded => ?_) fun e _ he => ?_
  case refine_2 =>
    obtain ⟨reason, rfl⟩ := he
    trivial
  refine (judgeSources_stays policy hops h hloaded).mono (fun contents h hloaded => ?_)
    fun e _ he => ?_
  case refine_2 =>
    obtain ⟨reason, rfl⟩ := he
    trivial
  -- the sources are judged: what follows is under the lock
  intro answer hanswer
  have hloaded' := policyLoaded_append h ⟨_, answer⟩ hloaded
  cases answer with
  | raised => exact hanswer rfl
  | busy => trivial
  | taken =>
    show Ends _ (attempt (executeManifest limits manifest resolved contents) >>= _) _ _ _
    rw [ends_bind, ends_attempt]
    refine (loaded_executeManifest contents hops hactions hwritable hstops _ hloaded').mono
      (fun _ _ _ => trivial) fun e _ he => ?_
    cases e with
    | rejected | timedOut => trivial
    | raised => exact he rfl

end Fraisier.Install.Wire
