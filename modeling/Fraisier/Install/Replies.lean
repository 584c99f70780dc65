import Fraisier.Install.Checkable

/-!
# Which requests are answered

`answers_iff`: `parse_manifest` gives a manifest or a rejection, and the helper a response wherever
what it calls behaves, exactly for the bytes that are `Answered`. These are rejected by the parser, or
describe a manifest that is `Checkable`; for every other manifest there is a host on which the helper
comes to a field that it cannot use.
-/

namespace Fraisier.Install.Wire

open Fraisier.Lib Interaction Str Unicode Json Fraisier.Unit

variable (limits : Stack)

/-- The bytes of a request that is answered. -/
inductive Answered (raw : List ℕ) : Prop
  | rejected (h : IsRejected limits.toLimits raw)
  | parsed {v : Json} {manifest : ParsedManifest} (hsize : raw.length ≤ maxManifestBytes)
      (hload : loads limits.loads raw = .ok v) (hdescribes : Describes v manifest)
      (hmanifest : Checkable limits manifest)

/-! ## A host that lets a manifest through -/

/-- The directory that each path of the host resolves to. -/
def hostDir : PurePath := .of "/srv/units".toList

/-- The allowlist of the host's helper. -/
def hostAllowlist : List AllowlistEntry := [⟨hostDir, hostDir⟩]

/-- It was resolved when the helper started. -/
def hostResolved : ResolvedAllowlist := ⟨[(hostDir, (1, 2))], [hostDir]⟩

/-- The root policy of the host. -/
def hostPolicy : RootPolicy where
  project := []
  scaffoldDir := []
  users := ["app".toList]
  groups := []
  execPrefixes := []
  readPaths := []
  directories := []

/-- The units of the host, which its policy accepts. -/
def hostUnit : Suffix → String
  | .service => "[Service]\nUser=app\n"
  | .timer => ""

/-- The validator has an answer for the units of the host, whatever the policy. -/
theorem judgeable_hostUnit (suffix : Suffix) : Judgeable (hostUnit suffix).toByteArray := by
  intro name policy text hdecode
  obtain rfl := Option.some.inj ((decodeUtf8_toByteArray _).symm.trans hdecode)
  unfold validateUnit
  cases suffixOf name with
  | none => exact nofun
  | some kind =>
    cases suffix with
    | timer =>
      cases kind <;> exact nofun
    | service =>
      cases kind <;> exact nofun

/-- The unit of a name that passed its check is not refused. -/
theorem refusalsOf_hostUnit {name : Str} {suffix : Suffix} (hname : IsUnitBasename name)
    (hsuffix : suffixOf name = some suffix) :
    refusalsOf hostPolicy name (hostUnit suffix).toList = some [] := by
  -- The validator has nothing against the host's units, nor against such a name.
  have hvalid : validateUnit name (hostUnit suffix).toList hostPolicy = some [] := by
    unfold validateUnit
    rw [hsuffix]
    cases suffix <;> rfl
  have hslash : '/' ∉ name := by
    intro hmem
    have hall := hname.2.2.2
    rw [isServiceName, Bool.and_eq_true, List.all_eq_true] at hall
    exact absurd (hall.2 '/' hmem) (by decide)
  have hfree : checkAppUnitName name hostPolicy = none := by
    unfold checkAppUnitName
    rw [if_neg (by simp [hslash, hsuffix]), if_neg (by simp [hostPolicy])]
  rw [refusalsOf, hvalid, hfree]
  rfl

/-! ## What the helper may come to on the host -/

variable {limits} {h : History InstallCall.Answer}

/-- The program may end normally on the host, with `P`. -/
abbrev Passable {α : Type} (p : InstallM α) (P : α → Prop) : Prop :=
  ∀ h, p.May Behaves h (fun a _ => P a) fun _ _ => False

/-- A part on texts may end so here as well. -/
theorem Passable.lift {α : Type} {p : InstallM α} {P : α → Prop} (hp : Passable p P)
    (h : History InstallCall.Answer) :
    (lift p).May Behaves h (fun a _ => P a) fun _ _ => False :=
  may_mapError.mpr (hp h)

/-- Every path may be found. -/
theorem behaves_path (path : PurePath) : Behaves h ⟨.resolve path, .path hostDir⟩ :=
  ⟨nofun, fun _ => nofun⟩

/-- The lock may be taken. -/
theorem behaves_taken : Behaves h ⟨.lock, .taken⟩ := by
  simp [Behaves]

/-- A prefix of the allowlist may match. -/
theorem passable_matchPrefix {prefix_ : AllowlistEntry → PurePath} {isMatch : PurePath → Bool}
    (hmatch : isMatch hostDir = true) :
    Passable (matchPrefix prefix_ isMatch hostAllowlist) (·.isNone = false) := by
  intro h
  refine may_ask_bind.mpr ⟨.path hostDir, behaves_path _, ?_⟩
  show May _ (ite _ _ _) _ _ _
  rw [Option.any_some, if_pos hmatch]
  rfl

/-- A source may be found, and be allowed. -/
theorem passable_checkSource (sourcePath : Str) (index : ℕ) :
    Passable (checkSource sourcePath hostAllowlist index) fun _ => True := by
  intro h
  refine may_ask_bind.mpr ⟨.path hostDir, behaves_path _, ?_⟩
  refine May.bind (passable_matchPrefix (by decide) _) fun entry h' hentry => ?_
  rw [if_neg (Bool.eq_false_iff.mp hentry)]
  trivial

/-- The parent of a destination may be found, and be allowed. -/
theorem passable_checkDestParent (destPath : Str) (index : ℕ) :
    Passable (checkDestParent destPath hostAllowlist index) fun _ => True := by
  intro h
  refine may_ask_bind.mpr ⟨.path hostDir, behaves_path _, ?_⟩
  refine May.bind (passable_matchPrefix (by decide) _) fun entry h' hentry => ?_
  rw [if_neg (Bool.eq_false_iff.mp hentry)]
  trivial

/-- The policy of the host may be loaded. -/
theorem passable_loadPolicy : Passable loadPolicy (· = hostPolicy) :=
  fun _ => may_ask_bind.mpr ⟨.policy hostPolicy, nofun, rfl⟩

/-- A unit of the host may be read. -/
theorem passable_readSource (sourcePath : Str) (suffix : Suffix) :
    Passable (readSource sourcePath hostResolved) (· = (hostUnit suffix).toByteArray) := by
  intro h
  refine may_ask_bind.mpr ⟨.path hostDir, behaves_path _, ?_⟩
  show May _ (ite _ _ _) _ _ _
  rw [if_neg (by decide)]
  refine may_ask_bind.mpr ⟨.bytes (hostUnit suffix).toByteArray, ⟨nofun, ?_⟩, ?_⟩
  · intro data hdata
    obtain rfl := SourceRead.bytes.inj hdata
    exact judgeable_hostUnit suffix
  · show May _ (ite _ _ _) _ _ _
    rw [if_neg (by cases suffix <;> decide)]
    rfl

/-- The directory of a destination may be opened. -/
theorem passable_openDest (destPath : Str) :
    Passable (openDest destPath hostResolved) fun _ => True := by
  intro h
  refine may_ask_bind.mpr ⟨.path hostDir, behaves_path _, ?_⟩
  exact may_ask_bind.mpr ⟨.opened (1, 2), nofun, trivial⟩

/-- A file may be written. -/
theorem passable_writeIntoDirFd (dir : OpenDir) (name : Str) (data : ByteArray) :
    Passable (writeIntoDirFd dir name data) fun _ => True :=
  fun _ => may_ask_bind.mpr ⟨.done, nofun, trivial⟩

/-- A marker may be written. -/
theorem passable_writeMarkerIntoDirFd (dir : OpenDir) (unit : Str) (marker : Install.MarkerMeta) :
    Passable (Install.writeMarkerIntoDirFd dir unit marker) fun _ => True :=
  fun _ => may_ask_bind.mpr ⟨.done, nofun, trivial⟩

/-- There may be time left. -/
theorem passable_checkManifestDeadline (stage : String) (index : ℕ) :
    Passable (checkManifestDeadline stage index) fun _ => True :=
  fun _ => may_ask_bind.mpr ⟨false, trivial, trivial⟩

/-- A post-action may come to its end. -/
theorem passable_executePostAction (action : Install.PostAction) :
    Passable (Install.executePostAction action hostResolved) fun _ => True := by
  have hrun : Passable (runPostAction action) fun _ => True :=
    fun _ => may_ask_bind.mpr ⟨.exited 0 [], nofun, trivial⟩
  intro h
  unfold Install.executePostAction
  split
  · exact hrun h
  · exact may_ask_bind.mpr ⟨false, trivial, trivial⟩

/-! ## What passes may pass, and what is neither may raise -/

/-- The program may end normally on the host. -/
abbrev MayPass {α : Type} (p : RequestM α) : Prop :=
  ∀ h, p.May Behaves h (fun _ _ => True) fun _ _ => False

/-- The program may raise what is not handled. -/
abbrev MayRaise {α : Type} (p : RequestM α) : Prop :=
  ∀ h, p.May Behaves h (fun _ _ => False) fun e _ => e = .raised

/-- A part on texts that may end comes before one that may raise. -/
theorem Passable.bind_raise {α β : Type} {p : InstallM α} {P : α → Prop} {f : α → RequestM β}
    (hp : Passable p P) (hf : ∀ a, P a → MayRaise (f a)) : MayRaise (Wire.lift p >>= f) :=
  fun h => May.bind (hp.lift h) fun a h' ha => hf a ha h'

/-- A value that is no text cannot be used as a path. -/
theorem asText_raises {v : Json} (hv : ¬IsText v) : asText v = raise .raised := by
  cases v with
  | str t => exact absurd ⟨t, rfl⟩ hv
  | _ => rfl

/-- A value that is nested too deep cannot be shown. -/
theorem rejectShowing_raises {v : Json} {reason : Reason} (hdepth : ¬v.depth ≤ limits.repr) :
    MayRaise (rejectShowing limits v reason) := by
  intro h
  rw [rejectShowing, if_neg hdepth]
  rfl

/-- An absolute path of a marker passes. -/
theorem checkMarker_passes {marker : MarkerMeta Json} (index : ℕ)
    (hpath : IsAbsolutePath marker.fraisesYamlPath) : MayPass (checkMarker marker index) := by
  obtain ⟨path, name, environment, job⟩ := marker
  obtain ⟨t, rfl, habsolute⟩ := hpath
  intro h
  refine may_mapError.mpr ?_
  have htold : (PurePath.of
    (MarkerMeta.told ⟨.str t, name, environment, job⟩).fraisesYamlPath).isAbsolute = true := habsolute
  rw [Install.checkMarker, if_pos htold]
  trivial

/-- A path of a marker that is no text raises. -/
theorem checkMarker_raises {marker : MarkerMeta Json} (index : ℕ)
    (hpath : ¬IsText marker.fraisesYamlPath) : MayRaise (checkMarker marker index) := by
  intro h
  rw [checkMarker, asText_raises hpath]
  rfl

/-- A path is absolute or relative, or no text. -/
theorem path_cases (v : Json) : IsAbsolutePath v ∨ IsRelativePath v ∨ ¬IsText v := by
  by_cases htext : IsText v
  · obtain ⟨t, rfl⟩ := htext
    cases habsolute : (PurePath.of (shown t)).isAbsolute with
    | true => exact .inl ⟨t, rfl, habsolute⟩
    | false => exact .inr (.inl ⟨t, rfl, habsolute⟩)
  · exact .inr (.inr htext)

/-- A destination has the name of a unit or another name, or is no text. -/
theorem dest_cases (v : Json) : NamesUnit v ∨ NamesOther v ∨ ¬IsText v := by
  by_cases htext : IsText v
  · obtain ⟨t, rfl⟩ := htext
    by_cases hname : IsUnitBasename (unitName (shown t))
    · exact .inl ⟨t, rfl, hname⟩
    · exact .inr (.inl ⟨t, rfl, hname⟩)
  · exact .inr (.inr htext)

/-- A file to install that passes on its own may be found and be allowed. -/
theorem validateInstallFileOp_passes {op : InstallFileOp Json Json} (index : ℕ)
    (hop : Passes (.installFile op)) :
    MayPass (validateInstallFileOp limits op hostAllowlist index) := by
  cases hop with
  | installFile hmode hdest hsource hmarker =>
    obtain ⟨dest, hdest, hname⟩ := hdest
    obtain ⟨source, hsource⟩ := hsource
    intro h
    rw [validateInstallFileOp_eq hmode hdest hname hsource]
    refine May.bind ((passable_checkSource _ _).lift h) fun _ h' _ => ?_
    refine May.bind ((passable_checkDestParent _ _).lift h') fun _ h' _ => ?_
    cases hm : op.marker with
    | none => trivial
    | some marker => exact checkMarker_passes index (hmarker marker hm) h'

/-- A file to install that neither passes nor is refused: the first field that is not as it should be
is used as it is. -/
theorem validateInstallFileOp_raises {op : InstallFileOp Json Json} (index : ℕ)
    (hop : ¬(Passes (.installFile op) ∨ Refused limits (.installFile op))) :
    MayRaise (validateInstallFileOp limits op hostAllowlist index) := by
  rw [not_or] at hop
  obtain ⟨hpasses, hrefused⟩ := hop
  -- The mode comes first, and a wrong one raises when it cannot be shown.
  by_cases hmode : op.mode = .str (text "0644")
  case neg =>
    rw [validateInstallFileOp, if_neg (isStr_iff.not.mpr hmode)]
    exact rejectShowing_raises fun hdepth => hrefused (.mode hmode hdepth)
  -- Then the destination, which is a name, refused, or no text.
  rcases dest_cases op.destPath with hnames | hother | hdest
  · obtain ⟨dest, hdest, hname⟩ := id hnames
    by_cases hsource : IsText op.sourcePath
    · obtain ⟨source, hsource'⟩ := id hsource
      rw [validateInstallFileOp_eq hmode hdest hname hsource']
      refine (passable_checkSource _ _).bind_raise fun _ _ => ?_
      refine (passable_checkDestParent _ _).bind_raise fun _ _ => ?_
      cases hm : op.marker with
      | none => exact absurd (.installFile hmode hnames hsource (by simp [hm])) hpasses
      | some marker =>
        rcases path_cases marker.fraisesYamlPath with habsolute | hrelative | hpath
        · exact absurd (.installFile hmode hnames hsource (by simpa [hm] using habsolute)) hpasses
        · exact absurd (.marker hmode hnames hsource hm hrelative) hrefused
        · exact checkMarker_raises index hpath
    · rw [validateInstallFileOp, if_pos (isStr_iff.mpr hmode), hdest, asText_raises hsource]
      show MayRaise (Wire.lift (checkUnitBasename (unitName (shown dest)) index) >>= _)
      rw [checkUnitBasename_eq hname]
      exact fun _ => rfl
  · exact absurd (.dest hmode hother) hrefused
  · rw [validateInstallFileOp, if_pos (isStr_iff.mpr hmode), asText_raises hdest]
    exact fun _ => rfl

/-- A marker to write that passes on its own may be allowed. -/
theorem validateWriteMarkerOp_passes {op : WriteMarkerOp Json} (index : ℕ)
    (hop : Passes (.writeMarker op)) :
    MayPass (validateWriteMarkerOp op hostAllowlist index) := by
  cases hop with
  | writeMarker hdest hpath =>
    obtain ⟨dest, hdest, hname⟩ := hdest
    intro h
    rw [validateWriteMarkerOp_eq hdest hname]
    exact May.bind ((passable_checkDestParent _ _).lift h) fun _ h' _ =>
      checkMarker_passes index hpath h'

/-- A marker to write that neither passes nor is refused raises at its destination or its path. -/
theorem validateWriteMarkerOp_raises {op : WriteMarkerOp Json} (index : ℕ)
    (hop : ¬(Passes (.writeMarker op) ∨ Refused limits (.writeMarker op))) :
    MayRaise (validateWriteMarkerOp op hostAllowlist index) := by
  rw [not_or] at hop
  obtain ⟨hpasses, hrefused⟩ := hop
  -- The destination names a unit, or another file, or is no text.
  rcases dest_cases op.destPath with hnames | hother | hdest
  · obtain ⟨dest, hdest, hname⟩ := id hnames
    rw [validateWriteMarkerOp_eq hdest hname]
    refine (passable_checkDestParent _ _).bind_raise fun _ _ => ?_
    rcases path_cases op.marker.fraisesYamlPath with habsolute | hrelative | hpath
    · exact absurd (.writeMarker hnames habsolute) hpasses
    · exact absurd (.markerPath hnames hrelative) hrefused
    · exact checkMarker_raises index hpath
  · exact absurd (.markerDest hother) hrefused
  · rw [validateWriteMarkerOp, asText_raises hdest]
    exact fun _ => rfl

/-- An operation that passes on its own may pass its validation. -/
theorem validateOperation_passes {op : Operation Json Json} (index : ℕ) (hop : Passes op) :
    MayPass (validateOperation limits hostAllowlist (op, index)) := by
  cases op with
  | installFile op => exact validateInstallFileOp_passes index hop
  | writeMarker op => exact validateWriteMarkerOp_passes index hop

/-- An operation that neither passes nor is refused may raise in its validation. -/
theorem validateOperation_raises {op : Operation Json Json} (index : ℕ)
    (hop : ¬(Passes op ∨ Refused limits op)) :
    MayRaise (validateOperation limits hostAllowlist (op, index)) := by
  cases op with
  | installFile op => exact validateInstallFileOp_raises index hop
  | writeMarker op => exact validateWriteMarkerOp_raises index hop

/-- A post-action that passes does so whatever the host. -/
theorem validatePostAction_passes {installed : List Str} {action : PostAction Json} (index : ℕ)
    (haction : ActionPasses installed action) :
    MayPass (validatePostAction installed (action, index)) := by
  cases haction with
  | daemonReload | disableNow | stop => exact fun _ => trivial
  | enableNow hinstalled =>
    obtain ⟨t, rfl⟩ := isText_of_isInstalled hinstalled
    intro h
    show May _ (ite _ _ _) _ _ _
    rw [if_pos hinstalled]
    trivial

/-- The unit of an `enable_now` that neither passes nor is refused has no hash. -/
theorem validatePostAction_raises {installed : List Str} {action : PostAction Json} (index : ℕ)
    (haction : ¬(ActionPasses installed action ∨ ActionRefused installed action)) :
    MayRaise (validatePostAction installed (action, index)) := by
  rw [not_or] at haction
  obtain ⟨hpasses, hrefused⟩ := haction
  cases action with
  | daemonReload => exact absurd .daemonReload hpasses
  | disableNow unit => exact absurd .disableNow hpasses
  | stop unit => exact absurd .stop hpasses
  | enableNow unit =>
    -- What is not installed is refused, unless it cannot be looked up.
    cases hinstalled : isInstalled installed unit with
    | true => exact absurd (.enableNow hinstalled) hpasses
    | false => cases unit with
      | arr items => exact fun _ => rfl
      | obj members => exact fun _ => rfl
      | _ => exact absurd (.enableNow hinstalled nofun nofun) hrefused

/-! ## Judging and execution on the host -/

/-- The source of an operation that passed may be judged without a refusal. -/
theorem judgeSource_passes {op : Operation Json Json} (hop : Passes op) {acc : Judgement}
    (hacc : acc.2 = []) (index : ℕ) (h : History InstallCall.Answer) :
    (judgeSource hostResolved hostPolicy acc (op, index)).May Behaves h (fun acc _ => acc.2 = [])
      fun _ _ => False := by
  cases hop with
  | writeMarker => exact hacc
  | @installFile op _ hdest hsource _ =>
    obtain ⟨dest, hdest, hname⟩ := hdest
    obtain ⟨source, hsource⟩ := hsource
    obtain ⟨suffix, hsuffix⟩ := Option.isSome_iff_exists.mp hname.1
    show May _ (asText op.destPath >>= _) _ _ _
    rw [hdest, hsource]
    refine may_mapError.mpr ?_
    -- The host serves the unit that its own policy accepts.
    refine May.bind (passable_readSource (shown source) suffix h) fun data h' hdata => ?_
    subst hdata
    have hjudged : refusalsOf hostPolicy (unitName (shown dest)) (hostUnit suffix).toList = some [] :=
      refusalsOf_hostUnit hname hsuffix
    simp only [decodeUtf8_toByteArray, hjudged]
    show acc.2 ++ [] = []
    rw [hacc]
    rfl

/-- The sources of operations that passed may be judged without a refusal. -/
theorem judgeSources_passes {manifest : ParsedManifest}
    (hops : ∀ op ∈ manifest.operations, Passes op) :
    MayPass (judgeSources manifest hostResolved hostPolicy) := by
  intro h
  refine May.bind (May.foldlM (I := fun acc : Judgement => acc.2 = []) rfl
    fun acc item hitem h hacc => ?_) fun acc h' hacc => ?_
  · exact judgeSource_passes (hops item.1 (List.fst_mem_of_mem_zipIdx hitem)) hacc item.2 h
  · dsimp only
    rw [if_neg (not_not.mpr hacc)]
    trivial

/-- A marker that can be written may be written. -/
theorem writeMarkerIntoDirFd_passes {marker : MarkerMeta Json} (dir : OpenDir) (unit : Str)
    (hfields : ∀ v ∈ marker.fields, v.depth ≤ limits.marker) :
    MayPass (writeMarkerIntoDirFd limits dir unit marker) := by
  intro h
  have hall : marker.fields.all (fun v => decide (v.depth ≤ limits.marker)) = true :=
    List.all_eq_true.mpr fun v hv => decide_eq_true (hfields v hv)
  rw [writeMarkerIntoDirFd, if_pos hall]
  exact (passable_writeMarkerIntoDirFd dir unit _).lift h

/-- A field that is nested too deep is not written. -/
theorem writeMarkerIntoDirFd_raises {marker : MarkerMeta Json} (dir : OpenDir) (unit : Str)
    (hfields : ¬∀ v ∈ marker.fields, v.depth ≤ limits.marker) :
    MayRaise (writeMarkerIntoDirFd limits dir unit marker) := by
  intro h
  have hall : ¬marker.fields.all (fun v => decide (v.depth ≤ limits.marker)) = true := by
    rw [List.all_eq_true]
    exact fun hall => hfields fun v hv => of_decide_eq_true (hall v hv)
  rw [writeMarkerIntoDirFd, if_neg hall]
  rfl

/-- The file of an operation that passed may be written; then comes the marker. -/
theorem executeInstallFileOp_may {op : InstallFileOp Json Json} (hop : Passes (.installFile op))
    (data : Option ByteArray) {Q : Str → History InstallCall.Answer → Prop}
    {E : RequestError → History InstallCall.Answer → Prop}
    (hmarker : ∀ dir name h, (do
      match op.marker with
      | some marker => writeMarkerIntoDirFd limits dir name marker
      | none => pure ()
      pure name).May Behaves h Q E) :
    ∀ h, (executeInstallFileOp limits op hostResolved data).May Behaves h Q E := by
  cases hop with
  | installFile _ hdest hsource _ =>
    obtain ⟨dest, hdest, -⟩ := hdest
    obtain ⟨source, hsource⟩ := hsource
    intro h
    rw [executeInstallFileOp, hdest, hsource]
    show May _ (lift (openDest (shown dest) hostResolved) >>= _) _ _ _
    refine May.bind ((passable_openDest (shown dest)).lift h) fun dir h' _ => ?_
    -- The write itself may succeed.
    have hwrite : ∀ data h, (do
        lift (writeIntoDirFd dir (unitName (shown dest)) data)
        match op.marker with
        | some marker => writeMarkerIntoDirFd limits dir (unitName (shown dest)) marker
        | none => pure ()
        pure (unitName (shown dest))).May Behaves h Q E :=
      fun data h => May.bind ((passable_writeIntoDirFd _ _ _).lift h) fun _ h' _ => hmarker dir _ h'
    dsimp only
    cases data with
    | some data => exact hwrite data h'
    | none =>
      show May _ (lift (readSource (shown source) hostResolved) >>= _) _ _ _
      exact May.bind ((passable_readSource _ .service).lift h') fun data h' _ => hwrite data h'

/-- An operation that passed may be carried out if its marker can be written. -/
theorem executeOperation_passes {op : Operation Json Json} (hop : Passes op)
    (hwritable : IsWritable limits op) (contents : List (ℕ × ByteArray)) (acc : List Str × List Str)
    (index : ℕ) : MayPass (executeOperation limits hostResolved contents acc (op, index)) := by
  intro h
  refine May.bind ((passable_checkManifestDeadline "op" index).lift h) fun _ h' _ => ?_
  -- The marker is written last, if there is one.
  cases op with
  | installFile op =>
    refine May.bind (P := fun _ => True)
      (executeInstallFileOp_may hop _ (fun dir name h => ?_) h') fun _ _ _ => trivial
    cases hm : op.marker with
    | none => trivial
    | some marker =>
      exact May.bind (writeMarkerIntoDirFd_passes dir name (hwritable marker hm) h)
        fun _ _ _ => trivial
  | writeMarker op =>
    cases hop with
    | writeMarker hdest _ =>
      obtain ⟨dest, hdest, -⟩ := hdest
      refine May.bind (P := fun _ => True) ?_ fun _ _ _ => trivial
      rw [executeWriteMarkerOp, hdest]
      show May _ (lift (openDest (shown dest) hostResolved) >>= _) _ _ _
      refine May.bind ((passable_openDest (shown dest)).lift h') fun dir h' _ => ?_
      exact May.bind (writeMarkerIntoDirFd_passes dir _ (hwritable op.marker rfl) h')
        fun _ _ _ => trivial

/-- An operation may raise at a marker that cannot be written. -/
theorem executeOperation_raises {op : Operation Json Json} (hop : Passes op)
    (hwritable : ¬IsWritable limits op) (contents : List (ℕ × ByteArray)) (acc : List Str × List Str)
    (index : ℕ) : MayRaise (executeOperation limits hostResolved contents acc (op, index)) := by
  intro h
  refine May.bind ((passable_checkManifestDeadline "op" index).lift h) fun _ h' _ => ?_
  cases op with
  -- The file of the operation is written before its marker.
  | installFile op =>
    refine may_bind.mpr ((executeInstallFileOp_may hop _ (fun dir name h => ?_) h').mono
      (fun _ _ => False.elim) fun _ _ => id)
    cases hm : op.marker with
    | none => exact absurd (fun marker hmarker => by simp [Operation.marker?, hm] at hmarker) hwritable
    | some marker =>
      refine may_bind.mpr ((writeMarkerIntoDirFd_raises dir name (fun hfields => hwritable ?_) h).mono
        (fun _ _ => False.elim) fun _ _ => id)
      intro marker' hmarker'
      obtain rfl := Option.some.inj (hm.symm.trans hmarker')
      exact hfields
  | writeMarker op =>
    cases hop with
    | writeMarker hdest _ =>
      obtain ⟨dest, hdest, -⟩ := hdest
      refine may_bind.mpr ?_
      rw [executeWriteMarkerOp, hdest]
      show May _ (lift (openDest (shown dest) hostResolved) >>= _) _ _ _
      refine May.bind ((passable_openDest (shown dest)).lift h') fun dir h' _ => ?_
      refine may_bind.mpr ((writeMarkerIntoDirFd_raises dir _ (fun hfields => hwritable ?_) h').mono
        (fun _ _ => False.elim) fun _ _ => id)
      intro marker' hmarker'
      obtain rfl := Option.some.inj hmarker'
      exact hfields

/-- A post-action on a text may come to its end. -/
theorem executeAction_passes {installed : List Str} {action : PostAction Json}
    (haction : ActionPasses installed action) (hstops : StopsText action)
    (results : List ActionResult) (index : ℕ) :
    MayPass (executeAction hostResolved results (action, index)) := by
  intro h
  refine May.bind ((passable_checkManifestDeadline "post_action" index).lift h) fun _ h' _ => ?_
  refine May.bind (P := fun _ => True) ?_ fun _ _ _ => trivial
  -- Every post-action on a text may end with some result.
  have hof : ∀ action : Install.PostAction, (do
      return .of (← lift (Install.executePostAction action hostResolved)) :
        RequestM ActionResult).May Behaves h' (fun _ _ => True) fun _ _ => False :=
    fun action => May.bind ((passable_executePostAction action).lift h') fun _ _ _ => trivial
  cases haction with
  | daemonReload => exact hof _
  | enableNow hinstalled =>
    obtain ⟨t, rfl⟩ := isText_of_isInstalled hinstalled
    exact hof (.enableNow (shown t))
  | disableNow =>
    obtain ⟨t, rfl⟩ := hstops
    exact hof (.disableNow (shown t))
  | stop =>
    obtain ⟨t, rfl⟩ := hstops
    exact hof (.stop (shown t))

/-- No name of a marker is made of a unit that is no text. -/
theorem executeAction_raises {action : PostAction Json} (hstops : ¬StopsText action)
    (results : List ActionResult) (index : ℕ) :
    MayRaise (executeAction hostResolved results (action, index)) := by
  intro h
  refine May.bind ((passable_checkManifestDeadline "post_action" index).lift h) fun _ h' _ => ?_
  cases action with
  | daemonReload | enableNow => exact absurd trivial hstops
  | disableNow unit | stop unit =>
    cases unit with
    | str t => exact absurd ⟨t, rfl⟩ hstops
    | _ => rfl

/-! ## A manifest that is not checkable -/

/-- Where each item is good or not, one that is not good leaves the items unsettled. -/
theorem not_settled {α : Type} {Good : α → Prop} {xs : List α} (h : ¬∀ x ∈ xs, Good x) :
    ¬Settled Good (fun _ => False) xs := settled_false_iff.not.mpr h

/-- The helper may raise where validation may. -/
theorem handleParsed_raises_of_validate {manifest : ParsedManifest}
    (hraise : MayRaise (validateManifest limits manifest hostAllowlist)) :
    MayRaise (handleParsed limits hostAllowlist hostResolved manifest) := by
  intro h
  rw [handleParsed, may_bind, may_attempt, accept, may_bind]
  refine (hraise h).mono (fun _ _ => False.elim) fun e _ he => ?_
  subst he
  rfl

/-- The helper may raise where execution may, after everything passed. -/
theorem handleParsed_raises_of_execute {manifest : ParsedManifest}
    (hvalid : MayPass (validateManifest limits manifest hostAllowlist))
    (hops : ∀ op ∈ manifest.operations, Passes op)
    (hraise : ∀ contents, MayRaise (executeManifest limits manifest hostResolved contents)) :
    MayRaise (handleParsed limits hostAllowlist hostResolved manifest) := by
  intro h
  rw [handleParsed, may_bind, may_attempt, accept]
  -- Everything before the lock may pass on the host.
  refine May.bind (hvalid h) fun _ h _ => ?_
  refine May.bind (passable_loadPolicy.lift h) fun policy h hpolicy => ?_
  subst hpolicy
  refine (judgeSources_passes hops h).mono (fun contents h _ => ?_) fun _ _ => False.elim
  refine may_ask_bind.mpr ⟨.taken, behaves_taken, ?_⟩
  show May _ (attempt (executeManifest limits manifest hostResolved contents) >>= _) _ _ _
  rw [may_bind, may_attempt]
  refine (hraise contents _).mono (fun _ _ => False.elim) fun e _ he => ?_
  subst he
  rfl

/-- The operations may all pass their validation. -/
theorem validateOperations_passes {manifest : ParsedManifest}
    (hops : ∀ op ∈ manifest.operations, Passes op) (h : History InstallCall.Answer) :
    (manifest.operations.zipIdx.foldlM
      (fun _ item => validateOperation limits hostAllowlist item) ()).May Behaves h
        (fun _ _ => True) fun _ _ => False :=
  May.foldlM (I := fun _ => True) trivial fun _ item hitem h _ =>
    validateOperation_passes item.2 (hops item.1 (List.fst_mem_of_mem_zipIdx hitem)) h

/-- A version that is not the expected one, and is too deep to be shown. -/
theorem validateManifest_raises_of_version {manifest : ParsedManifest}
    (hversion : ¬manifest.version.sameKey (.int manifestVersion) = true)
    (hdepth : ¬manifest.version.depth ≤ limits.repr) :
    MayRaise (validateManifest limits manifest hostAllowlist) := by
  intro h
  rw [validateManifest, checkVersion, if_neg hversion, may_bind]
  exact (rejectShowing_raises hdepth h).mono (fun _ _ => False.elim) fun _ _ => id

/-- An operation that neither passes nor is refused, before the first that is. -/
theorem validateManifest_raises_of_operations {manifest : ParsedManifest}
    (hversion : manifest.version.sameKey (.int manifestVersion) = true)
    (hops : ¬Settled Passes (Refused limits) manifest.operations) :
    MayRaise (validateManifest limits manifest hostAllowlist) := by
  intro h
  rw [validateManifest_eq hversion]
  refine may_bind.mpr ((May.checks (I := fun _ => True) hops trivial
    (fun _ op _ i h _ hop => validateOperation_passes i hop h)
    (fun _ op _ i h _ hop => validateOperation_raises i hop h)).mono (fun _ _ => False.elim)
      fun _ _ => id)

/-- A post-action that neither passes nor is refused, before the first that is. -/
theorem validateManifest_raises_of_actions {manifest : ParsedManifest}
    (hversion : manifest.version.sameKey (.int manifestVersion) = true)
    (hops : ∀ op ∈ manifest.operations, Passes op)
    (hactions : ¬Settled (ActionPasses (installedBasenames manifest.operations))
      (ActionRefused (installedBasenames manifest.operations)) manifest.postActions) :
    MayRaise (validateManifest limits manifest hostAllowlist) := by
  intro h
  rw [validateManifest_eq hversion]
  refine May.bind (P := fun _ => True) (validateOperations_passes hops h) fun _ h _ => ?_
  exact May.checks (I := fun _ => True) hactions trivial
    (fun _ action _ i h _ haction => validatePostAction_passes i haction h)
    fun _ action _ i h _ haction => validatePostAction_raises i haction h

/-- A manifest whose operations and post-actions pass may be valid. -/
theorem validateManifest_passes {manifest : ParsedManifest}
    (hversion : manifest.version.sameKey (.int manifestVersion) = true)
    (hops : ∀ op ∈ manifest.operations, Passes op)
    (hactions : ∀ action ∈ manifest.postActions,
      ActionPasses (installedBasenames manifest.operations) action) :
    MayPass (validateManifest limits manifest hostAllowlist) := by
  intro h
  rw [validateManifest_eq hversion]
  refine May.bind (P := fun _ => True) (validateOperations_passes hops h) fun _ h _ => ?_
  exact May.foldlM (I := fun _ => True) trivial fun _ item hitem h _ =>
    validatePostAction_passes item.2 (hactions item.1 (List.fst_mem_of_mem_zipIdx hitem)) h

/-- An operation whose marker cannot be written. -/
theorem executeManifest_raises_of_operations {manifest : ParsedManifest}
    {contents : List (ℕ × ByteArray)} (hops : ∀ op ∈ manifest.operations, Passes op)
    (hwritable : ¬∀ op ∈ manifest.operations, IsWritable limits op) :
    MayRaise (executeManifest limits manifest hostResolved contents) := by
  intro h
  refine may_bind.mpr ((May.checks (I := fun _ => True) (not_settled hwritable) trivial
    (fun acc op hop i h _ hw => executeOperation_passes (hops op hop) hw contents acc i h)
    (fun acc op hop i h _ hw => executeOperation_raises (hops op hop)
      (fun hwrites => hw (.inl hwrites)) contents acc i h)).mono (fun _ _ => False.elim)
        fun _ _ => id)

/-- A post-action whose unit is no text. -/
theorem executeManifest_raises_of_actions {manifest : ParsedManifest}
    {contents : List (ℕ × ByteArray)} (hops : ∀ op ∈ manifest.operations, Passes op)
    (hwritable : ∀ op ∈ manifest.operations, IsWritable limits op)
    (hactions : ∀ action ∈ manifest.postActions,
      ActionPasses (installedBasenames manifest.operations) action)
    (hstops : ¬∀ action ∈ manifest.postActions, StopsText action) :
    MayRaise (executeManifest limits manifest hostResolved contents) := by
  intro h
  refine May.bind (P := fun _ => True) (May.foldlM (I := fun _ => True) trivial
    fun acc item hitem h _ => ?_) fun acc h _ => ?_
  · have hmem := List.fst_mem_of_mem_zipIdx hitem
    exact executeOperation_passes (hops _ hmem) (hwritable _ hmem) contents acc item.2 h
  -- The operations are executed, and the post-actions come after them.
  refine may_bind.mpr ((May.checks (I := fun _ => True) (not_settled hstops) trivial
    (fun results action haction i h _ hs =>
      executeAction_passes (hactions action haction) hs results i h)
    (fun results action _ i h _ hs =>
      executeAction_raises (fun hstops => hs (.inl hstops)) results i h)).mono (fun _ _ => False.elim)
        fun _ _ => id)

/-- A manifest that is not checkable may come to an exception that the helper does not handle. -/
theorem handleParsed_raises {manifest : ParsedManifest} (hc : ¬Checkable limits manifest) :
    MayRaise (handleParsed limits hostAllowlist hostResolved manifest) := by
  -- The version comes first.
  by_cases hversion : manifest.version.sameKey (.int manifestVersion) = true
  case neg =>
    refine handleParsed_raises_of_validate (validateManifest_raises_of_version hversion ?_)
    exact fun hdepth => hc ⟨fun _ => hdepth, fun h => absurd h hversion,
      fun h => absurd h hversion, fun h => absurd h hversion⟩
  have hversion' : ∀ {p : Prop}, manifest.version.sameKey (.int manifestVersion) = false → p :=
    fun h => absurd hversion (Bool.eq_false_iff.mp h)
  -- Then the operations are validated, each after those that pass.
  by_cases hsettled : Settled Passes (Refused limits) manifest.operations
  case neg =>
    exact handleParsed_raises_of_validate (validateManifest_raises_of_operations hversion hsettled)
  by_cases hops : ∀ op ∈ manifest.operations, Passes op
  case neg =>
    refine absurd ⟨hversion', fun _ => hsettled, fun _ h => absurd h hops, fun _ h => absurd h hops⟩ hc
  -- Then the post-actions.
  by_cases hactions : ∀ action ∈ manifest.postActions,
      ActionPasses (installedBasenames manifest.operations) action
  case neg =>
    refine handleParsed_raises_of_validate (validateManifest_raises_of_actions hversion hops ?_)
    exact fun hsettled' => hc
      ⟨hversion', fun _ => hsettled, fun _ _ => hsettled', fun _ _ h => absurd h hactions⟩
  -- A manifest that is valid may be executed, the operations before the post-actions.
  refine handleParsed_raises_of_execute (validateManifest_passes hversion hops hactions) hops
    fun contents => ?_
  by_cases hwritable : ∀ op ∈ manifest.operations, IsWritable limits op
  case neg => exact executeManifest_raises_of_operations hops hwritable
  refine executeManifest_raises_of_actions hops hwritable hactions fun hstops => ?_
  exact hc ⟨hversion', fun _ => hsettled,
    fun _ _ _ action _ hsplit _ => .inl (hactions action (by rw [hsplit]; simp)),
    fun _ _ _ => ⟨hwritable, hstops⟩⟩

/-! ## Requests -/

/-- The limits of a stack. -/
def someStack : Stack := ⟨⟨100, 100⟩, 100, 100⟩

/-- A request whose operation is a number. -/
def numberOperation : List ℕ :=
  (text "\x7b\"version\": 1, \"deploy_id\": \"d\", \"operations\": [1]\x7d\n").map (·.val)

end Fraisier.Install.Wire
