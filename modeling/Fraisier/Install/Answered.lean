import Fraisier.Lib.Fallible
import Fraisier.Install.Wire

/-!
# Which manifests are parsed

`parseManifest_ok_iff`: `parse_manifest` gives a manifest exactly for the bytes of a payload that
`Describes` it, and `parseManifest_rejected_iff`: it rejects what is too large, what is no JSON, no
object or without a version or deploy id, and what has an operation of an unknown kind or a marker
operation without a marker. A field that is missing or of the wrong shape, and an action of an unknown
kind, raise what nothing handles.
-/

namespace Fraisier.Install.Wire

open Fraisier.Lib Fallible Unicode Json

/-! ## What is well formed -/

/-- A marker, which is `null` where there is none. -/
inductive DescribesMarker : Json → Option (MarkerMeta Json) → Prop
  | none : DescribesMarker .null none
  | some {members : Members} {marker : MarkerMeta Json}
      (hpath : members.lookup (text "fraises_yaml_path") = some marker.fraisesYamlPath)
      (hname : members.lookup (text "fraise_name") = some marker.fraiseName)
      (henvironment : members.lookup (text "environment") = some marker.environment)
      (hjob : members.lookup (text "job_name") = some marker.jobName) :
      DescribesMarker (.obj members) (some marker)

/-- The kind of an operation, which is `install_file` where none is given. -/
def opKind (members : Members) : Json := getD members "kind" (.str (text "install_file"))

/-- The marker of an operation, which is `null` where none is given. -/
def opMarker (members : Members) : Json := getD members "marker" .null

/-- An operation with its fields. -/
inductive DescribesOp : Json → Operation Json Json → Prop
  | installFile {members : Members} {op : InstallFileOp Json Json}
      (hkind : opKind members = .str (text "install_file"))
      (hsource : members.lookup (text "source_path") = some op.sourcePath)
      (hdest : members.lookup (text "dest_path") = some op.destPath)
      (hmode : members.lookup (text "mode") = some op.mode)
      (hforce : op.force = getD members "force" (.bool false))
      (hmarker : DescribesMarker (opMarker members) op.marker) :
      DescribesOp (.obj members) (.installFile op)
  | writeMarker {members : Members} {op : WriteMarkerOp Json}
      (hkind : opKind members = .str (text "write_marker"))
      (hdest : members.lookup (text "dest_path") = some op.destPath)
      (hmarker : DescribesMarker (opMarker members) (some op.marker)) :
      DescribesOp (.obj members) (.writeMarker op)

/-- A post-action with its unit. -/
inductive DescribesAction : Json → PostAction Json → Prop
  | daemonReload {members : Members}
      (hkind : members.lookup (text "kind") = some (.str (text "daemon_reload"))) :
      DescribesAction (.obj members) .daemonReload
  | enableNow {members : Members} {unit : Json}
      (hkind : members.lookup (text "kind") = some (.str (text "enable_now")))
      (hunit : members.lookup (text "unit") = some unit) :
      DescribesAction (.obj members) (.enableNow unit)
  | disableNow {members : Members} {unit : Json}
      (hkind : members.lookup (text "kind") = some (.str (text "disable_now")))
      (hunit : members.lookup (text "unit") = some unit) :
      DescribesAction (.obj members) (.disableNow unit)
  | stop {members : Members} {unit : Json}
      (hkind : members.lookup (text "kind") = some (.str (text "stop")))
      (hunit : members.lookup (text "unit") = some unit) :
      DescribesAction (.obj members) (.stop unit)

/-- A payload with the fields of a manifest. The operations and the post-actions are what iterating
over the values gives, so the empty object and the empty string hold none. -/
inductive Describes : Json → ParsedManifest → Prop
  | mk {members : Members} {ops actions : List Json} {manifest : ParsedManifest}
      (hversion : members.lookup (text "version") = some manifest.version)
      (hdeploy : members.lookup (text "deploy_id") = some manifest.deployId)
      (hops : (getD members "operations" (.arr [])).iter = .ok ops)
      (hop : List.Forall₂ DescribesOp ops manifest.operations)
      (hactions : (getD members "post_actions" (.arr [])).iter = .ok actions)
      (haction : List.Forall₂ DescribesAction actions manifest.postActions) :
      Describes (.obj members) manifest

/-! ## What is rejected -/

variable (limits : Limits)

/-- An operation that is rejected. -/
inductive IsRejectedOp : Json → Prop
  | noMarker {members : Members} (hkind : opKind members = .str (text "write_marker"))
      (hmarker : opMarker members = .null) : IsRejectedOp (.obj members)
  | unknownKind {members : Members} (hinstall : opKind members ≠ .str (text "install_file"))
      (hwrite : opKind members ≠ .str (text "write_marker"))
      (hdepth : (opKind members).depth ≤ limits.repr) : IsRejectedOp (.obj members)

/-- A payload that is rejected. -/
inductive IsRejectedPayload : Json → Prop
  | notObject {v : Json} (h : ∀ members, v ≠ .obj members) : IsRejectedPayload v
  | noVersion {members : Members} (h : has members "version" = false) :
      IsRejectedPayload (.obj members)
  | noDeployId {members : Members} (h : has members "deploy_id" = false) :
      IsRejectedPayload (.obj members)
  /-- The operations before the first that is rejected are well formed. -/
  | rejectedOp {members : Members} (before after : List Json) (op : Json)
      (hops : (getD members "operations" (.arr [])).iter = .ok (before ++ op :: after))
      (hbefore : ∀ v ∈ before, ∃ op, DescribesOp v op) (hop : IsRejectedOp limits op) :
      IsRejectedPayload (.obj members)

/-- The bytes of a manifest that is rejected. -/
inductive IsRejected (raw : List ℕ) : Prop
  | tooLarge (h : maxManifestBytes < raw.length)
  | malformed (h : loads limits.loads raw = .error .jsonDecodeError)
  | payload {v : Json} (h : loads limits.loads raw = .ok v) (hv : IsRejectedPayload limits v)

/-! ## Reading a field -/

variable {limits} {members : Members} {v : Json} {key : String}

/-- A key is read of an object that has it. -/
theorem getItem_obj_ok_iff {w : Json} :
    getItem (.obj members) key = .ok w ↔ members.lookup (text key) = some w := by
  rw [getItem]
  cases members.lookup (text key) <;> simp

/-- A key is read of an object only. -/
theorem getItem_ok_iff {w : Json} :
    getItem v key = .ok w ↔ ∃ members, v = .obj members ∧ members.lookup (text key) = some w := by
  cases v with
  | obj members => simp [getItem_obj_ok_iff]
  | _ => simp [getItem]

/-- A field that cannot be read is no rejection. -/
theorem getItem_ne_rejected {reason : Rejection} : getItem v key ≠ .error (.rejected reason) := by
  cases v with
  | obj members =>
    rw [getItem]
    cases members.lookup (text key) <;> simp
  | _ => simp [getItem]

/-- A marker is decoded exactly if it has its fields. -/
theorem markerFromJson_ok_iff {marker : Option (MarkerMeta Json)} :
    markerFromJson v = .ok marker ↔ DescribesMarker v marker := by
  constructor
  · intro hread
    -- Only nothing and an object are read as a marker.
    cases v with
    | null =>
      obtain rfl := Except.ok.inj hread
      exact .none
    | obj members =>
      obtain ⟨path, hpath, hread⟩ := bind_ok_iff.mp hread
      obtain ⟨name, hname, hread⟩ := bind_ok_iff.mp hread
      obtain ⟨environment, henvironment, hread⟩ := bind_ok_iff.mp hread
      obtain ⟨job, hjob, hread⟩ := bind_ok_iff.mp hread
      obtain rfl := Except.ok.inj hread
      exact .some (getItem_obj_ok_iff.mp hpath) (getItem_obj_ok_iff.mp hname)
        (getItem_obj_ok_iff.mp henvironment) (getItem_obj_ok_iff.mp hjob)
    | _ =>
      obtain ⟨_, hpath, -⟩ := bind_ok_iff.mp hread
      cases hpath
  · intro hmarker
    cases hmarker with
    | none => rfl
    | some hpath hname henvironment hjob =>
      exact bind_ok_iff.mpr ⟨_, getItem_obj_ok_iff.mpr hpath, bind_ok_iff.mpr ⟨_,
        getItem_obj_ok_iff.mpr hname, bind_ok_iff.mpr ⟨_, getItem_obj_ok_iff.mpr henvironment,
          bind_ok_iff.mpr ⟨_, getItem_obj_ok_iff.mpr hjob, rfl⟩⟩⟩⟩

/-- Reading a marker raises, it does not reject. -/
theorem markerFromJson_ne_rejected {reason : Rejection} :
    markerFromJson v ≠ .error (.rejected reason) := by
  cases v with
  | null => exact nofun
  | _ =>
    intro hread
    rcases bind_error_iff.mp hread with hread | ⟨_, -, hread⟩
    · exact getItem_ne_rejected hread
    rcases bind_error_iff.mp hread with hread | ⟨_, -, hread⟩
    · exact getItem_ne_rejected hread
    rcases bind_error_iff.mp hread with hread | ⟨_, -, hread⟩
    · exact getItem_ne_rejected hread
    rcases bind_error_iff.mp hread with hread | ⟨_, -, hread⟩
    · exact getItem_ne_rejected hread
    · cases hread

/-! ## Operations and post-actions -/

/-- An operation that installs a file, as it is decoded. -/
theorem opFromJson_installFile (h : opKind members = .str (text "install_file")) :
    opFromJson limits (.obj members) = (do
      let sourcePath ← getItem (.obj members) "source_path"
      let destPath ← getItem (.obj members) "dest_path"
      let mode ← getItem (.obj members) "mode"
      let marker ← markerFromJson (opMarker members)
      pure (.installFile { sourcePath, destPath, mode, force := getD members "force" (.bool false),
                           marker })) :=
  if_pos (isStr_iff.mpr h)

/-- An operation that writes a marker, as it is decoded. -/
theorem opFromJson_writeMarker (h : opKind members = .str (text "write_marker")) :
    opFromJson limits (.obj members) = (do
      match ← markerFromJson (opMarker members) with
      | none => .error (.rejected .noMarker)
      | some marker => do
        let destPath ← getItem (.obj members) "dest_path"
        pure (.writeMarker { destPath, marker })) := by
  have hne : ¬(opKind members).isStr "install_file" = true := by
    rw [isStr_iff, h, Json.str.injEq]
    decide
  exact (if_neg hne).trans (if_pos (isStr_iff.mpr h))

/-- An operation of another kind is rejected when its kind can be shown. -/
theorem opFromJson_unknownKind (hinstall : opKind members ≠ .str (text "install_file"))
    (hwrite : opKind members ≠ .str (text "write_marker")) :
    opFromJson limits (.obj members) = if (opKind members).depth ≤ limits.repr then
      .error (.rejected (.unknownKind (opKind members))) else .error .recursionError :=
  (if_neg (isStr_iff.not.mpr hinstall)).trans (if_neg (isStr_iff.not.mpr hwrite))

/-- An operation is decoded exactly if it has its fields. -/
theorem opFromJson_ok_iff {op : Operation Json Json} :
    opFromJson limits v = .ok op ↔ DescribesOp v op := by
  constructor
  · intro hread
    -- Only an object is read as an operation, by its kind.
    cases v with
    | obj members =>
      by_cases hinstall : opKind members = .str (text "install_file")
      · rw [opFromJson_installFile hinstall] at hread
        obtain ⟨source, hsource, hread⟩ := bind_ok_iff.mp hread
        obtain ⟨dest, hdest, hread⟩ := bind_ok_iff.mp hread
        obtain ⟨mode, hmode, hread⟩ := bind_ok_iff.mp hread
        obtain ⟨marker, hmarker, hread⟩ := bind_ok_iff.mp hread
        obtain rfl := Except.ok.inj hread
        exact .installFile hinstall (getItem_obj_ok_iff.mp hsource) (getItem_obj_ok_iff.mp hdest)
          (getItem_obj_ok_iff.mp hmode) rfl (markerFromJson_ok_iff.mp hmarker)
      by_cases hwrite : opKind members = .str (text "write_marker")
      · rw [opFromJson_writeMarker hwrite] at hread
        obtain ⟨marker, hmarker, hread⟩ := bind_ok_iff.mp hread
        cases marker with
        | none => cases hread
        | some marker =>
          obtain ⟨dest, hdest, hread⟩ := bind_ok_iff.mp hread
          obtain rfl := Except.ok.inj hread
          exact .writeMarker hwrite (getItem_obj_ok_iff.mp hdest) (markerFromJson_ok_iff.mp hmarker)
      · rw [opFromJson_unknownKind hinstall hwrite] at hread
        split at hread <;> cases hread
    | _ => cases hread
  · intro hop
    cases hop with
    | @installFile members op hkind hsource hdest hmode hforce hmarker =>
      obtain ⟨source, dest, mode, force, marker⟩ := op
      obtain rfl : force = _ := hforce
      rw [opFromJson_installFile hkind]
      exact bind_ok_iff.mpr ⟨_, getItem_obj_ok_iff.mpr hsource, bind_ok_iff.mpr ⟨_,
        getItem_obj_ok_iff.mpr hdest, bind_ok_iff.mpr ⟨_, getItem_obj_ok_iff.mpr hmode,
          bind_ok_iff.mpr ⟨_, markerFromJson_ok_iff.mpr hmarker, rfl⟩⟩⟩⟩
    | writeMarker hkind hdest hmarker =>
      rw [opFromJson_writeMarker hkind]
      exact bind_ok_iff.mpr ⟨_, markerFromJson_ok_iff.mpr hmarker,
        bind_ok_iff.mpr ⟨_, getItem_obj_ok_iff.mpr hdest, rfl⟩⟩

/-- An operation is rejected for its kind, or for want of its marker. -/
theorem opFromJson_rejected_iff :
    (∃ reason, opFromJson limits v = .error (.rejected reason)) ↔ IsRejectedOp limits v := by
  constructor
  · rintro ⟨reason, hread⟩
    -- What is no object raises.
    cases v with
    | obj members =>
      by_cases hinstall : opKind members = .str (text "install_file")
      · rw [opFromJson_installFile hinstall] at hread
        rcases bind_error_iff.mp hread with hread | ⟨_, -, hread⟩
        · exact absurd hread getItem_ne_rejected
        rcases bind_error_iff.mp hread with hread | ⟨_, -, hread⟩
        · exact absurd hread getItem_ne_rejected
        rcases bind_error_iff.mp hread with hread | ⟨_, -, hread⟩
        · exact absurd hread getItem_ne_rejected
        rcases bind_error_iff.mp hread with hread | ⟨_, -, hread⟩
        · exact absurd hread markerFromJson_ne_rejected
        · cases hread
      by_cases hwrite : opKind members = .str (text "write_marker")
      · rw [opFromJson_writeMarker hwrite] at hread
        rcases bind_error_iff.mp hread with hread | ⟨marker, hmarker, hread⟩
        · exact absurd hread markerFromJson_ne_rejected
        cases marker with
        | none =>
          refine .noMarker hwrite ?_
          generalize opMarker members = w at hmarker
          cases markerFromJson_ok_iff.mp hmarker
          rfl
        | some marker =>
          rcases bind_error_iff.mp hread with hread | ⟨_, -, hread⟩
          · exact absurd hread getItem_ne_rejected
          · cases hread
      · rw [opFromJson_unknownKind hinstall hwrite] at hread
        split at hread
        · exact .unknownKind hinstall hwrite ‹_›
        · cases hread
    | _ => cases hread
  · intro hop
    cases hop with
    | noMarker hkind hmarker =>
      rw [opFromJson_writeMarker hkind, hmarker]
      exact ⟨_, rfl⟩
    | unknownKind hinstall hwrite hdepth =>
      rw [opFromJson_unknownKind hinstall hwrite, if_pos hdepth]
      exact ⟨_, rfl⟩

/-- A post-action is decoded exactly if it has its kind and unit. -/
theorem actionFromJson_ok_iff {action : PostAction Json} :
    actionFromJson limits v = .ok action ↔ DescribesAction v action := by
  constructor
  · intro hread
    obtain ⟨kind, hkind, hread⟩ := bind_ok_iff.mp hread
    obtain ⟨members, rfl, hlookup⟩ := getItem_ok_iff.mp hkind
    -- The kinds, in the order they are tried.
    split at hread
    · rename_i hstr
      obtain rfl := Except.ok.inj hread
      exact .daemonReload (isStr_iff.mp hstr ▸ hlookup)
    split at hread
    · rename_i hstr
      obtain ⟨unit, hunit, hread⟩ := bind_ok_iff.mp hread
      obtain rfl := Except.ok.inj hread
      exact .enableNow (isStr_iff.mp hstr ▸ hlookup) (getItem_obj_ok_iff.mp hunit)
    split at hread
    · rename_i hstr
      obtain ⟨unit, hunit, hread⟩ := bind_ok_iff.mp hread
      obtain rfl := Except.ok.inj hread
      exact .disableNow (isStr_iff.mp hstr ▸ hlookup) (getItem_obj_ok_iff.mp hunit)
    split at hread
    · rename_i hstr
      obtain ⟨unit, hunit, hread⟩ := bind_ok_iff.mp hread
      obtain rfl := Except.ok.inj hread
      exact .stop (isStr_iff.mp hstr ▸ hlookup) (getItem_obj_ok_iff.mp hunit)
    · split at hread <;> cases hread
  · intro haction
    cases haction with
    | daemonReload hkind => exact bind_ok_iff.mpr ⟨_, getItem_obj_ok_iff.mpr hkind, rfl⟩
    | enableNow hkind hunit | disableNow hkind hunit | stop hkind hunit =>
      exact bind_ok_iff.mpr ⟨_, getItem_obj_ok_iff.mpr hkind,
        bind_ok_iff.mpr ⟨_, getItem_obj_ok_iff.mpr hunit, rfl⟩⟩

/-- No post-action is rejected: one of an unknown kind raises a `ValueError`. -/
theorem actionFromJson_ne_rejected {reason : Rejection} :
    actionFromJson limits v ≠ .error (.rejected reason) := by
  intro hread
  rcases bind_error_iff.mp hread with hread | ⟨kind, -, hread⟩
  · exact getItem_ne_rejected hread
  -- A unit that is missing is a `KeyError`, and the unit is not looked at.
  have hunit : ∀ f : Json → PostAction Json,
      (do return f (← getItem v "unit")) ≠ Except.error (.rejected reason) := by
    intro f hread
    rcases bind_error_iff.mp hread with hread | ⟨_, -, hread⟩
    · exact getItem_ne_rejected hread
    · cases hread
  -- The kinds are compared one after the other.
  split at hread
  · cases hread
  split at hread
  · exact hunit _ hread
  split at hread
  · exact hunit _ hread
  split at hread
  · exact hunit _ hread
  · split at hread <;> cases hread

/-! ## Manifests -/

/-- A list is decoded item by item. -/
theorem decodeAll_ok_iff {α : Type} {decode : Json → Except ParseError α} {xs : List α} :
    decodeAll decode v = .ok xs ↔
      ∃ items, v.iter = .ok items ∧ List.Forall₂ (fun w x => decode w = .ok x) items xs := by
  rw [decodeAll]
  cases v.iter with
  | error e => simp
  | ok items => simp [mapM_ok_iff]

/-- A list is rejected for its first item that is. -/
theorem decodeAll_error_iff {α : Type} {decode : Json → Except ParseError α} {reason : Rejection} :
    decodeAll decode v = .error (.rejected reason) ↔
      ∃ before w after, v.iter = .ok (before ++ w :: after) ∧
        (∀ y ∈ before, ∃ x, decode y = .ok x) ∧ decode w = .error (.rejected reason) := by
  rw [decodeAll]
  cases v.iter with
  | error e => simp
  | ok items => simp [mapM_error_iff]

/-- The members that a manifest must have. -/
theorem manifestFromJson_obj (hversion : has members "version" = true)
    (hdeploy : has members "deploy_id" = true) :
    manifestFromJson limits (.obj members) = (do
      let version ← getItem (.obj members) "version"
      let deployId ← getItem (.obj members) "deploy_id"
      let operations ← decodeAll (opFromJson limits) (getD members "operations" (.arr []))
      let postActions ← decodeAll (actionFromJson limits) (getD members "post_actions" (.arr []))
      pure { version, deployId, operations, postActions }) := by
  rw [manifestFromJson, hversion, hdeploy]
  rfl

/-- What is found is there. -/
theorem has_of_lookup {w : Json} (h : members.lookup (text key) = some w) : has members key = true := by
  rw [has, h]
  rfl

/-- What is there is found. -/
theorem lookup_of_has (h : has members key = true) : ∃ w, members.lookup (text key) = some w :=
  Option.isSome_iff_exists.mp h

/-- A payload is decoded exactly if it has the fields of a manifest. -/
theorem manifestFromJson_ok_iff {manifest : ParsedManifest} :
    manifestFromJson limits v = .ok manifest ↔ Describes v manifest := by
  constructor
  · intro hread
    -- Each field that is read is one of the manifest's.
    cases v with
    | obj members =>
      cases hversion : has members "version" with
      | false => simp [manifestFromJson, hversion] at hread
      | true => cases hdeploy : has members "deploy_id" with
        | false => simp [manifestFromJson, hversion, hdeploy] at hread
        | true =>
          rw [manifestFromJson_obj hversion hdeploy] at hread
          obtain ⟨version, hversion, hread⟩ := bind_ok_iff.mp hread
          obtain ⟨deployId, hdeploy, hread⟩ := bind_ok_iff.mp hread
          obtain ⟨operations, hops, hread⟩ := bind_ok_iff.mp hread
          obtain ⟨postActions, hactions, hread⟩ := bind_ok_iff.mp hread
          obtain rfl := Except.ok.inj hread
          obtain ⟨ops, hops, hop⟩ := decodeAll_ok_iff.mp hops
          obtain ⟨actions, hactions, haction⟩ := decodeAll_ok_iff.mp hactions
          exact .mk (getItem_obj_ok_iff.mp hversion) (getItem_obj_ok_iff.mp hdeploy) hops
            (hop.imp fun _ _ => opFromJson_ok_iff.mp) hactions
            (haction.imp fun _ _ => actionFromJson_ok_iff.mp)
    | _ => cases hread
  · intro h
    cases h with
    | mk hversion hdeploy hops hop hactions haction =>
      rw [manifestFromJson_obj (has_of_lookup hversion) (has_of_lookup hdeploy)]
      exact bind_ok_iff.mpr ⟨_, getItem_obj_ok_iff.mpr hversion, bind_ok_iff.mpr ⟨_,
        getItem_obj_ok_iff.mpr hdeploy, bind_ok_iff.mpr ⟨_,
          decodeAll_ok_iff.mpr ⟨_, hops, hop.imp fun _ _ => opFromJson_ok_iff.mpr⟩, bind_ok_iff.mpr
            ⟨_, decodeAll_ok_iff.mpr ⟨_, hactions, haction.imp fun _ _ => actionFromJson_ok_iff.mpr⟩,
              rfl⟩⟩⟩⟩

/-- A payload is rejected exactly if it is as `IsRejectedPayload` says. -/
theorem manifestFromJson_rejected_iff :
    (∃ reason, manifestFromJson limits v = .error (.rejected reason)) ↔
      IsRejectedPayload limits v := by
  cases v with
  | obj members =>
    -- The three fields that are asked for come first, then the lists.
    cases hversion : has members "version" with
    | false =>
      refine iff_of_true ⟨.missing "version", ?_⟩ (.noVersion hversion)
      simp [manifestFromJson, hversion]
    | true => cases hdeploy : has members "deploy_id" with
      | false =>
        refine iff_of_true ⟨.missing "deploy_id", ?_⟩ (.noDeployId hdeploy)
        simp [manifestFromJson, hversion, hdeploy]
      | true =>
        rw [manifestFromJson_obj hversion hdeploy]
        constructor
        · rintro ⟨reason, hread⟩
          rcases bind_error_iff.mp hread with hread | ⟨_, -, hread⟩
          · exact absurd hread getItem_ne_rejected
          rcases bind_error_iff.mp hread with hread | ⟨_, -, hread⟩
          · exact absurd hread getItem_ne_rejected
          rcases bind_error_iff.mp hread with hread | ⟨_, -, hread⟩
          · obtain ⟨before, op, after, hops, hbefore, hop⟩ := decodeAll_error_iff.mp hread
            exact .rejectedOp before after op hops
              (fun w hw => (hbefore w hw).imp fun _ => opFromJson_ok_iff.mp)
              (opFromJson_rejected_iff.mp ⟨reason, hop⟩)
          rcases bind_error_iff.mp hread with hread | ⟨_, -, hread⟩
          · obtain ⟨_, _, _, -, -, haction⟩ := decodeAll_error_iff.mp hread
            exact absurd haction actionFromJson_ne_rejected
          · cases hread
        · intro h
          cases h with
          | notObject h => exact absurd rfl (h members)
          | noVersion h => exact absurd hversion (Bool.eq_false_iff.mp h)
          | noDeployId h => exact absurd hdeploy (Bool.eq_false_iff.mp h)
          | rejectedOp before after op hops hbefore hop =>
            obtain ⟨reason, hop⟩ := opFromJson_rejected_iff.mpr hop
            obtain ⟨version, hversion⟩ := lookup_of_has hversion
            obtain ⟨deployId, hdeploy⟩ := lookup_of_has hdeploy
            refine ⟨reason, bind_error_iff.mpr (.inr ⟨_, getItem_obj_ok_iff.mpr hversion,
              bind_error_iff.mpr (.inr ⟨_, getItem_obj_ok_iff.mpr hdeploy,
                bind_error_iff.mpr (.inl ?_)⟩)⟩)⟩
            exact decodeAll_error_iff.mpr ⟨before, op, after, hops,
              fun w hw => (hbefore w hw).imp fun _ => opFromJson_ok_iff.mpr, hop⟩
  | _ => exact iff_of_true ⟨.notObject, rfl⟩ (.notObject nofun)

/-! ## Bytes -/

variable {raw : List ℕ}

/-- A manifest is parsed exactly from a payload that describes it. -/
theorem parseManifest_ok_iff {manifest : ParsedManifest} :
    parseManifest limits raw = .ok manifest ↔ raw.length ≤ maxManifestBytes ∧
      ∃ v, loads limits.loads raw = .ok v ∧ Describes v manifest := by
  rw [parseManifest]
  split
  case isTrue hsize => simp [Nat.not_le.mpr hsize]
  case isFalse hsize =>
    cases loads limits.loads raw with
    | error e => simp
    | ok v => simp [manifestFromJson_ok_iff, Nat.not_lt.mp hsize]

/-- What `parse_manifest` rejects. -/
theorem parseManifest_rejected_iff :
    (∃ reason, parseManifest limits raw = .error (.rejected reason)) ↔ IsRejected limits raw := by
  rw [parseManifest]
  split
  case isTrue hsize => exact iff_of_true ⟨_, rfl⟩ (.tooLarge hsize)
  case isFalse hsize =>
    constructor
    -- A text that is short enough may still be no JSON, or no manifest.
    · rintro ⟨reason, hread⟩
      cases hload : loads limits.loads raw with
      | error e =>
        rw [hload] at hread
        cases e with
        | jsonDecodeError => exact .malformed hload
        | _ => cases hread
      | ok v =>
        rw [hload] at hread
        exact .payload hload (manifestFromJson_rejected_iff.mp ⟨reason, hread⟩)
    · intro h
      cases h with
      | tooLarge h => exact absurd h hsize
      | malformed h =>
        rw [h]
        exact ⟨_, rfl⟩
      | payload h hv =>
        rw [h]
        exact manifestFromJson_rejected_iff.mpr hv

end Fraisier.Install.Wire
