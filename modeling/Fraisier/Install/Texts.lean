import Fraisier.Install.Effects
import Fraisier.Install.Request
import Fraisier.Install.WireRoundTrip
import Fraisier.Lib.Simulation

/-!
# Requests of texts

The manifests that `serialize_manifest` writes hold texts where the helper looks for them. On these
`_handle_manifest` on the bytes and on the manifest of texts are one program: they make the same
calls, whatever the answers, and their responses say the same.
-/

namespace Fraisier.Install.Wire

open Fraisier.Lib Interaction Unicode Json Fraisier.Unit

/-! ## Manifests -/

/-- A marker, as the functions on texts have it. -/
def MarkerMeta.shown (marker : MarkerMeta Text) : Install.MarkerMeta :=
  ⟨Wire.shown marker.fraisesYamlPath, Wire.shown marker.fraiseName, Wire.shown marker.environment,
    Wire.shown marker.jobName⟩

/-- An operation, as the functions on texts have it. None of them looks at `force`. -/
def Operation.shown : Operation Text Bool → Install.Operation
  | .installFile op => .installFile
    ⟨Wire.shown op.sourcePath, Wire.shown op.destPath, Wire.shown op.mode,
      op.marker.map MarkerMeta.shown⟩
  | .writeMarker op => .writeMarker ⟨Wire.shown op.destPath, op.marker.shown⟩

/-- A post-action, as the functions on texts have it. -/
def PostAction.shown : PostAction Text → Install.PostAction
  | .daemonReload => .daemonReload
  | .enableNow unit => .enableNow (Wire.shown unit)
  | .disableNow unit => .disableNow (Wire.shown unit)
  | .stop unit => .stop (Wire.shown unit)

/-- A manifest, as the functions on texts have it. -/
def TypedManifest.shown (manifest : TypedManifest) : Install.Manifest where
  version := manifest.version
  operations := manifest.operations.map Operation.shown
  postActions := manifest.postActions.map PostAction.shown

/-- A character other than the replacement character is the one that is shown for its code point. -/
theorem shownChar_eq_iff {d : Char} (hd : d ≠ '\uFFFD') {c : CodePoint} :
    (charOf? c).getD '\uFFFD' = d ↔ c = chr d := by
  unfold charOf?
  constructor
  · intro h
    split at h
    case isTrue => exact absurd h.symm hd
    case isFalse hsurrogate =>
      have hvalid : c.val.isValidChar := by
        have hc := c.isLt
        simp [isHigh, isLow] at hsurrogate
        simp only [Nat.isValidChar]
        omega
      obtain rfl : Char.ofNat c.val = d := h
      refine Fin.ext ?_
      rw [chr_val, Char.toNat_ofNat, if_pos hvalid]
  -- A character is never a surrogate.
  · rintro rfl
    have hvalid := d.valid
    simp only [UInt32.isValidChar, Nat.isValidChar] at hvalid
    have hnat : d.toNat = d.val.toNat := rfl
    rw [chr_val, if_neg ?_]
    · exact Char.ofNat_toNat d
    · simp [isHigh, isLow]
      omega

/-- A text without the replacement character is shown as itself, and no other text is. -/
theorem shown_eq_iff {s : List Char} (hs : '\uFFFD' ∉ s) {t : Text} :
    shown t = s ↔ t = s.map chr := by
  induction s generalizing t with
  | nil => exact List.map_eq_nil_iff
  | cons d s ih =>
    obtain ⟨hd, hs⟩ := List.ne_and_not_mem_of_not_mem_cons hs
    cases t with
    | nil => simp [shown]
    | cons c t =>
      rw [List.map_cons, List.cons.injEq, ← ih hs, ← shownChar_eq_iff (Ne.symm hd)]
      exact Iff.of_eq (List.cons.injEq ..)

/-- The mode that is permitted. -/
theorem shown_eq_requiredMode {t : Text} :
    shown t = requiredMode ↔ (Json.str t).isStr "0644" = true := by
  rw [isStr_iff, Json.str.injEq]
  exact shown_eq_iff (by decide)

/-! ## Responses -/

/-- What a reason says, of a value that it shows. -/
inductive Reason.Says : Reason → Message → Prop
  | version (version : ℤ) : Says (.version (.int version))
      [.lit "unsupported manifest version: ", .num version]
  | mode (index : ℕ) (mode : Text) : Says (.mode index (.str mode))
      [.lit "op ", .num index, .lit ": ", .lit "mode ", .repr (shown mode),
        .lit " not permitted (must be ", .repr requiredMode, .lit ")"]
  | notInstalled (index : ℕ) (unit : Text) : Says (.notInstalled index (.str unit))
      [.lit "post_action ", .num index, .lit ": enable_now ", .repr (shown unit),
        .lit " refers to a unit not installed by this manifest"]
  | message (message : Message) : Says (.message message) message

/-- The two requests are given up alike. -/
inductive RequestError.Says : RequestError → InstallError → Prop
  | rejected {reason : Reason} {message : Message} (h : reason.Says message) :
      Says (.rejected reason) (.rejected message)
  | timedOut (reason : Message) : Says (.timedOut reason) (.timedOut reason)
  | raised : Says .raised .raised

/-- The two responses say the same. -/
inductive Reply.Says : Reply → Response → Prop
  | rejected {reason : Reason} {message : Message} (h : reason.Says message) :
      Says (.rejected reason) (.rejected message)
  | timedOut (reason : Message) : Says (.timedOut reason) (.timedOut reason)
  | busy : Says .busy .busy
  | ok (installed markersWritten : List Str) (postActions : List PostResult) :
      Says (.ok installed markersWritten (postActions.map .of))
        (.ok installed markersWritten postActions)

/-- The two results of a post-action say the same. -/
abbrev ActionResult.Says (result : ActionResult) (result' : PostResult) : Prop := result = .of result'

/-- The two lists of results do. -/
abbrev SayResults (results : List ActionResult) (results' : List PostResult) : Prop :=
  results = results'.map .of

/-- The programs make the same calls, and are given up alike. -/
abbrev Same {α β : Type} (V : α → β → Prop) (p : RequestM α) (q : InstallM β) : Prop :=
  Simulates V RequestError.Says p q

/-- A part that is the same on texts. -/
theorem same_lift {α : Type} (p : InstallM α) : Same Eq (lift p) p := by
  refine simulates_mapError (fun e => ?_) p
  cases e with
  | rejected reason => exact .rejected (.message reason)
  | timedOut reason => exact .timedOut reason
  | raised => exact .raised

/-- Both parts reject. -/
theorem same_reject {α : Type} {V : α → α → Prop} {reason : Reason} {message : Message}
    (h : reason.Says message) : Same V (raise (.rejected reason)) (raise (.rejected message)) :=
  .raise (.rejected h)

/-- A text is used as it is shown. -/
theorem asText_str_bind {β : Type} (t : Text) (f : Str → RequestM β) :
    (asText (.str t) >>= f) = f (shown t) := rfl

variable (limits : Stack)

/-! ## Validation -/

/-- The marker of an operation. -/
theorem same_checkMarker (marker : MarkerMeta Text) (index : ℕ) :
    Same Eq (checkMarker (marker.map .str) index) (Install.checkMarker marker.shown index) :=
  same_lift (Install.checkMarker marker.shown index)

/-- One operation. -/
theorem same_validateOperation (allowlist : List AllowlistEntry) (op : Operation Text Bool)
    (index : ℕ) : Same Eq (validateOperation limits allowlist (op.map .str .bool, index))
      (Install.validateOperation allowlist (op.shown, index)) := by
  cases op with
  | installFile op =>
    show Same Eq (validateInstallFileOp limits _ allowlist index)
      (Install.validateInstallFileOp _ allowlist index)
    unfold validateInstallFileOp Install.validateInstallFileOp
    by_cases hmode : shown op.mode = requiredMode
    · rw [if_pos (shown_eq_requiredMode.mp hmode), if_neg (not_not.mpr hmode)]
      -- Past the mode both make the three checks of the paths.
      simp only [asText_str_bind]
      refine (same_lift _).bind fun _ _ _ => (same_lift _).bind fun _ _ _ =>
        (same_lift _).bind fun _ _ _ => ?_
      cases op.marker with
      | none => exact simulates_pure rfl
      | some marker => exact same_checkMarker marker index
    · rw [if_neg (mt shown_eq_requiredMode.mpr hmode), if_pos hmode]
      exact same_reject (.mode index op.mode)
  | writeMarker op =>
    refine (same_lift _).bind fun _ _ _ => (same_lift _).bind fun _ _ _ => ?_
    exact same_checkMarker op.marker index

/-- The units that the operations install. -/
theorem installedBasenames_values (operations : List (Operation Text Bool)) :
    installedBasenames (operations.map (.map .str .bool)) =
      Install.installedBasenames (operations.map Operation.shown) := by
  unfold installedBasenames Install.installedBasenames
  rw [List.filterMap_map, List.filterMap_map]
  refine List.filterMap_congr fun op _ => ?_
  cases op <;> rfl

/-- One post-action. -/
theorem same_validatePostAction (installed : List Str) (action : PostAction Text) (index : ℕ) :
    Same Eq (validatePostAction installed (action.map .str, index))
      (Install.validatePostAction installed (action.shown, index)) := by
  cases action with
  | enableNow unit =>
    show Same Eq (if decide (shown unit ∈ installed) then _ else _)
      (if shown unit ∈ installed then _ else _)
    by_cases hunit : shown unit ∈ installed
    · rw [if_pos (decide_eq_true hunit), if_pos hunit]
      exact simulates_pure rfl
    · rw [if_neg (by simpa using hunit), if_neg hunit]
      exact same_reject (.notInstalled index unit)
  | daemonReload | disableNow | stop => exact simulates_pure rfl

/-- The whole manifest. -/
theorem same_validateManifest (manifest : TypedManifest) (allowlist : List AllowlistEntry) :
    Same Eq (validateManifest limits manifest.values allowlist)
      (Install.validateManifest manifest.shown allowlist) := by
  unfold validateManifest Install.validateManifest
  -- Of the numbers only 1 is the version; `1.0` and `true` are no numbers of a manifest of texts.
  by_cases hversion : manifest.version = manifestVersion
  · have hcheck : checkVersion limits (.int manifest.version) = pure () := by
      unfold checkVersion
      rw [if_pos (by rw [hversion]; rfl)]
    show Same Eq (checkVersion limits (.int manifest.version) >>= _)
      (if manifest.version ≠ manifestVersion then _ else _)
    rw [hcheck, if_neg (not_not.mpr hversion)]
    refine Simulates.bind (V := Eq) (p := List.foldlM _ _ _) (Simulates.foldlM rfl fun _ _ _ op _ i =>
      same_validateOperation limits allowlist op i) fun _ _ _ => ?_
    show Same Eq (List.foldlM (fun _ item => validatePostAction (installedBasenames
      (manifest.operations.map (.map .str .bool))) item) _ _) _
    rw [installedBasenames_values]
    exact Simulates.foldlM rfl fun _ _ _ action _ i => same_validatePostAction _ action i
  · have hcheck : checkVersion limits (.int manifest.version) =
        raise (.rejected (.version (.int manifest.version))) := by
      unfold checkVersion
      rw [if_neg ?_]
      · rfl
      · simp [sameKey, key, hversion]
    show Same Eq (checkVersion limits (.int manifest.version) >>= _)
      (if manifest.version ≠ manifestVersion then _ else _)
    rw [hcheck, if_pos hversion]
    exact same_reject (.version manifest.version)

/-- One operation whose source is judged. -/
theorem same_judgeSource (resolved : ResolvedAllowlist) (policy : RootPolicy) (acc : Judgement)
    (op : Operation Text Bool) (index : ℕ) :
    Same Eq (judgeSource resolved policy acc (op.map .str .bool, index))
      (Install.judgeSource resolved policy acc (op.shown, index)) := by
  cases op with
  | installFile op => exact same_lift (Install.judgeSource resolved policy acc
      (Operation.shown (.installFile op), index))
  | writeMarker op => exact simulates_pure rfl

/-- What the sources hold. -/
theorem same_judgeSources (manifest : TypedManifest) (resolved : ResolvedAllowlist)
    (policy : RootPolicy) : Same Eq (judgeSources manifest.values resolved policy)
      (Install.judgeSources manifest.shown resolved policy) := by
  refine Simulates.bind (V := Eq) (Simulates.foldlM rfl fun acc _ hacc op _ i =>
    hacc ▸ same_judgeSource resolved policy acc op i) fun acc _ hacc => ?_
  subst hacc
  obtain ⟨contents, reasons⟩ := acc
  show Same Eq (if reasons ≠ [] then _ else _) (if reasons ≠ [] then _ else _)
  by_cases hreasons : reasons ≠ []
  · rw [if_pos hreasons, if_pos hreasons]
    exact same_reject (.message _)
  · rw [if_neg hreasons, if_neg hreasons]
    exact simulates_pure rfl

/-! ## Execution -/

/-- A marker that is written. -/
theorem same_writeMarkerIntoDirFd (dir : OpenDir) (unit : Str) (marker : MarkerMeta Text) :
    Same Eq (writeMarkerIntoDirFd limits dir unit (marker.map .str))
      (Install.writeMarkerIntoDirFd dir unit marker.shown) := by
  unfold writeMarkerIntoDirFd
  rw [if_pos (by simp [MarkerMeta.fields, MarkerMeta.map, depth])]
  exact same_lift (Install.writeMarkerIntoDirFd dir unit marker.shown)

/-- A unit that is installed. -/
theorem same_executeInstallFileOp (op : InstallFileOp Text Bool) (resolved : ResolvedAllowlist)
    (data : Option ByteArray) : Same (fun name _ => name = unitName (shown op.destPath))
      (executeInstallFileOp limits ⟨.str op.sourcePath, .str op.destPath, .str op.mode,
        .bool op.force, op.marker.map (.map .str)⟩ resolved data)
      (Install.executeInstallFileOp ⟨shown op.sourcePath, shown op.destPath, shown op.mode,
        op.marker.map MarkerMeta.shown⟩ resolved data) := by
  obtain ⟨sourcePath, destPath, mode, force, marker⟩ := op
  refine (same_lift (openDest (shown destPath) resolved)).bind fun dir _ hdir => ?_
  subst hdir
  have hwrite (data : ByteArray) := same_lift (writeIntoDirFd dir (unitName (shown destPath)) data)
  have hread := same_lift (readSource (shown sourcePath) resolved)
  -- The marker is written last, and the source is only read without the judged bytes.
  cases marker with
  | none =>
    cases data with
    | some data => exact (hwrite data).bind fun _ _ _ => simulates_pure rfl
    | none => exact hread.bind fun data _ hdata =>
        hdata ▸ (hwrite data).bind fun _ _ _ => simulates_pure rfl
  | some marker =>
    have hmark := same_writeMarkerIntoDirFd limits dir (unitName (shown destPath)) marker
    cases data with
    | some data => exact (hwrite data).bind fun _ _ _ => hmark.bind_pure fun _ _ _ => rfl
    | none => exact hread.bind fun data _ hdata =>
        hdata ▸ (hwrite data).bind fun _ _ _ => hmark.bind_pure fun _ _ _ => rfl

/-- One operation that is carried out. -/
theorem same_executeOperation (resolved : ResolvedAllowlist) (contents : List (ℕ × ByteArray))
    (acc : List Str × List Str) (op : Operation Text Bool) (index : ℕ) :
    Same Eq (executeOperation limits resolved contents acc (op.map .str .bool, index))
      (Install.executeOperation resolved contents acc (op.shown, index)) := by
  refine (same_lift _).bind fun _ _ _ => ?_
  cases op with
  | installFile op =>
    exact (same_executeInstallFileOp limits op resolved _).bind fun name _ hname =>
      hname ▸ simulates_pure rfl
  | writeMarker op =>
    refine Simulates.bind (V := fun name _ => name = unitName (shown op.destPath)) ?_
      fun name _ hname => hname ▸ simulates_pure rfl
    refine (same_lift (openDest (shown op.destPath) resolved)).bind fun dir _ hdir => ?_
    subst hdir
    exact (same_writeMarkerIntoDirFd limits dir _ op.marker).bind_pure fun _ _ _ => rfl

/-- A result of a post-action on texts. -/
theorem same_result (p : InstallM PostResult) :
    Same ActionResult.Says (lift p >>= fun r => pure (.of r)) p :=
  (same_lift p).bind_pure fun _ _ hr => congrArg ActionResult.of hr

/-- One post-action that is carried out. -/
theorem same_executePostAction (action : PostAction Text) (resolved : ResolvedAllowlist) :
    Same ActionResult.Says (executePostAction (action.map .str) resolved)
      (Install.executePostAction action.shown resolved) := by
  cases action with
  | daemonReload | enableNow | disableNow | stop =>
    exact same_result (Install.executePostAction _ resolved)

/-- One post-action, after the results so far. -/
theorem same_executeAction (resolved : ResolvedAllowlist) {results : List ActionResult}
    {results' : List PostResult} (hresults : SayResults results results') (action : PostAction Text)
    (index : ℕ) : Same SayResults
      (executeAction resolved results (action.map .str, index))
      (Install.executeAction resolved results' (action.shown, index)) := by
  refine (same_lift _).bind fun _ _ _ => ?_
  refine (same_executePostAction action resolved).bind fun r r' hr => simulates_pure ?_
  rw [SayResults, hresults, hr, List.map_append, List.map_singleton]

/-- The whole manifest. -/
theorem same_executeManifest (manifest : TypedManifest) (resolved : ResolvedAllowlist)
    (contents : List (ℕ × ByteArray)) :
    Same Reply.Says (executeManifest limits manifest.values resolved contents)
      (Install.executeManifest manifest.shown resolved contents) := by
  refine Simulates.bind (V := Eq) (Simulates.foldlM rfl fun acc _ hacc op _ i =>
    hacc ▸ same_executeOperation limits resolved contents acc op i) fun acc _ hacc => ?_
  subst hacc
  obtain ⟨installed, markersWritten⟩ := acc
  refine Simulates.bind (V := SayResults) (Simulates.foldlM rfl fun _ _ hresults action _ i =>
    same_executeAction resolved hresults action i) fun results results' hresults => ?_
  -- A result of `systemctl` can always be written.
  show Same _ (if results.all (·.isWritable limits) then _ else _) _
  rw [if_pos (by simp [hresults, ActionResult.isWritable]), hresults]
  exact simulates_pure (.ok installed markersWritten results')

/-! ## Requests -/

/-- Before the lock. -/
theorem same_accept (allowlist : List AllowlistEntry) (resolved : ResolvedAllowlist)
    (manifest : TypedManifest) : Same Eq (accept limits allowlist resolved manifest.values)
      (Install.accept allowlist resolved manifest.shown) := by
  refine (same_validateManifest limits manifest allowlist).bind fun _ _ _ => ?_
  refine (same_lift _).bind fun policy _ hpolicy => ?_
  exact hpolicy ▸ same_judgeSources manifest resolved policy

/-- Under the lock. -/
theorem same_execute (resolved : ResolvedAllowlist) (manifest : TypedManifest)
    (contents : List (ℕ × ByteArray)) :
    Same Reply.Says (execute limits resolved manifest.values contents)
      (Install.execute resolved manifest.shown contents) := by
  refine simulates_ask_bind fun lock => ?_
  cases lock with
  | raised => exact .raise .raised
  | busy => exact simulates_pure .busy
  | taken =>
    refine (same_executeManifest limits manifest resolved contents).attempt.bind fun r r' h => ?_
    cases h with
    | ok h => exact simulates_pure h
    | error h =>
      cases h with
      | rejected h => exact simulates_pure (.rejected h)
      | timedOut reason => exact simulates_pure (.timedOut reason)
      | raised => exact .raise .raised

/-- The values of a manifest are handled as the manifest is. -/
theorem same_handleParsed (allowlist : List AllowlistEntry) (resolved : ResolvedAllowlist)
    (manifest : TypedManifest) :
    Same Reply.Says (handleParsed limits allowlist resolved manifest.values)
      (Install.handleManifest allowlist resolved manifest.shown) := by
  refine (same_accept limits allowlist resolved manifest).attempt.bind fun r r' h => ?_
  cases h with
  | ok h => exact h ▸ same_execute limits resolved manifest _
  | error h =>
    cases h with
    | rejected h => exact simulates_pure (.rejected h)
    | timedOut reason => exact .raise (.timedOut reason)
    | raised => exact .raise .raised

/-- The bytes that are written of a manifest are handled as the manifest is, whatever the helper's
calls are answered with. -/
theorem same_handleManifest {manifest : TypedManifest} {raw : List ℕ}
    (hraw : serializeManifest manifest = some raw) (hcap : raw.length ≤ maxManifestBytes)
    (hapart : ∀ s ∈ manifest.strings, Apart s) (hdepth : 4 ≤ limits.loads)
    (allowlist : List AllowlistEntry) (resolved : ResolvedAllowlist) :
    Same Reply.Says (handleManifest limits allowlist resolved raw)
      (Install.handleManifest allowlist resolved manifest.shown) := by
  unfold handleManifest
  rw [parseManifest_serialize hraw hcap hapart hdepth]
  exact same_handleParsed limits allowlist resolved manifest

/-- What the helper replies to the bytes of a manifest, the exchange of the manifest may be answered
with: the same calls, and a response that says the same. -/
theorem exchange_serialize {limits : Stack} {host : Host} {manifest : TypedManifest} {raw : List ℕ}
    (hraw : serializeManifest manifest = some raw) (hcap : raw.length ≤ maxManifestBytes)
    (hapart : ∀ s ∈ manifest.strings, Apart s) (hdepth : 4 ≤ limits.loads)
    {h : History ApplyCall.Answer} {calls : Calls} {reply : Reply}
    (hr : (handleManifest limits host.allowlist host.resolved raw).Runs host.serves [] calls
      (.ok reply)) :
    ∃ response, reply.Says response ∧
      host.answers h ⟨.exchange manifest.shown, .replied calls response⟩ := by
  obtain ⟨r', hr', halike⟩ := (same_handleManifest limits hraw hcap hapart hdepth _ _).runs hr
  cases halike with
  | ok hsays =>
    refine ⟨_, hsays, fun calls' response' hreplied => ?_⟩
    cases hreplied
    exact hr'

end Fraisier.Install.Wire
