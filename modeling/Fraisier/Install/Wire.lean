import Fraisier.Lib.JsonValue

/-!
# The unit-installer's wire format

`unit_installer_protocol.py`, up to the parsed manifest: `parse_manifest` and `serialize_manifest`,
and how the helper reads a manifest from its socket. The parser checks that fields are there and not
what they hold: those of a parsed manifest are JSON values.
-/

namespace Fraisier.Install.Wire

open Fraisier.Lib Unicode Json

/-! ## Manifests -/

section

variable {S S' B B' I I' : Type}

/-- `MarkerMeta`. -/
structure MarkerMeta (S : Type) where
  fraisesYamlPath : S
  fraiseName : S
  environment : S
  jobName : S
  deriving DecidableEq, Repr

/-- `InstallFileOp`. -/
structure InstallFileOp (S B : Type) where
  sourcePath : S
  destPath : S
  mode : S
  force : B
  marker : Option (MarkerMeta S)
  deriving DecidableEq, Repr

/-- `WriteMarkerOp`. -/
structure WriteMarkerOp (S : Type) where
  destPath : S
  marker : MarkerMeta S
  deriving DecidableEq, Repr

/-- `Operation`. -/
inductive Operation (S B : Type)
  | installFile (op : InstallFileOp S B)
  | writeMarker (op : WriteMarkerOp S)
  deriving DecidableEq, Repr

/-- `PostAction`. -/
inductive PostAction (S : Type)
  | daemonReload
  | enableNow (unit : S)
  | disableNow (unit : S)
  | stop (unit : S)
  deriving DecidableEq, Repr

/-- `Manifest`, with strings, flags and a version of these types. -/
structure Manifest (S B I : Type) where
  version : I
  deployId : S
  operations : List (Operation S B) := []
  postActions : List (PostAction S) := []
  deriving DecidableEq, Repr

def MarkerMeta.map (f : S → S') (marker : MarkerMeta S) : MarkerMeta S' :=
  ⟨f marker.fraisesYamlPath, f marker.fraiseName, f marker.environment, f marker.jobName⟩

def Operation.map (f : S → S') (g : B → B') : Operation S B → Operation S' B'
  | .installFile op => .installFile
    ⟨f op.sourcePath, f op.destPath, f op.mode, g op.force, op.marker.map (.map f)⟩
  | .writeMarker op => .writeMarker ⟨f op.destPath, op.marker.map f⟩

def PostAction.map (f : S → S') : PostAction S → PostAction S'
  | .daemonReload => .daemonReload
  | .enableNow unit => .enableNow (f unit)
  | .disableNow unit => .disableNow (f unit)
  | .stop unit => .stop (f unit)

def Manifest.map (f : S → S') (g : B → B') (h : I → I') (manifest : Manifest S B I) :
    Manifest S' B' I' where
  version := h manifest.version
  deployId := f manifest.deployId
  operations := manifest.operations.map (.map f g)
  postActions := manifest.postActions.map (.map f)

end

/-- A manifest whose fields have the types that the classes declare. -/
abbrev TypedManifest := Manifest Text Bool ℤ

/-- A manifest whose fields are any values. -/
abbrev ParsedManifest := Manifest Json Json Json

/-- The typed manifest, as a parsed one. -/
def TypedManifest.values (manifest : TypedManifest) : ParsedManifest :=
  manifest.map .str .bool .int

/-! ## Writing -/

/-- `_marker_to_json`. -/
def markerToJson : Option (MarkerMeta Text) → Json
  | none => .null
  | some marker => .obj [
      (text "fraises_yaml_path", .str marker.fraisesYamlPath),
      (text "fraise_name", .str marker.fraiseName),
      (text "environment", .str marker.environment),
      (text "job_name", .str marker.jobName)]

/-- `_op_to_json`. -/
def opToJson : Operation Text Bool → Json
  | .installFile op => .obj [
      (text "kind", .str (text "install_file")),
      (text "source_path", .str op.sourcePath),
      (text "dest_path", .str op.destPath),
      (text "mode", .str op.mode),
      (text "force", .bool op.force),
      (text "marker", markerToJson op.marker)]
  | .writeMarker op => .obj [
      (text "kind", .str (text "write_marker")),
      (text "dest_path", .str op.destPath),
      (text "marker", markerToJson (some op.marker))]

/-- `_action_to_json`. -/
def actionToJson : PostAction Text → Json
  | .daemonReload => .obj [(text "kind", .str (text "daemon_reload"))]
  | .enableNow unit => .obj [(text "kind", .str (text "enable_now")), (text "unit", .str unit)]
  | .disableNow unit => .obj [(text "kind", .str (text "disable_now")), (text "unit", .str unit)]
  | .stop unit => .obj [(text "kind", .str (text "stop")), (text "unit", .str unit)]

/-- The payload of `serialize_manifest`. -/
def payload (manifest : TypedManifest) : Json := .obj [
  (text "version", .int manifest.version),
  (text "deploy_id", .str manifest.deployId),
  (text "operations", .arr (manifest.operations.map opToJson)),
  (text "post_actions", .arr (manifest.postActions.map actionToJson))]

/-- `serialize_manifest`, and `none` for the `ValueError` of a version of too many digits. -/
def serializeManifest (manifest : TypedManifest) : Option (List ℕ) :=
  if digits manifest.version ≤ maxStrDigits then
    some ((dumps (payload manifest)).map (·.val) ++ [0x0A])
  else none

/-! ## Parsing -/

/-- `MAX_MANIFEST_BYTES`. -/
def maxManifestBytes : ℕ := 1024 * 1024

/-- The reason of a `ManifestRejected`. -/
inductive Rejection
  /-- `manifest too large: {bytes} bytes (cap {MAX_MANIFEST_BYTES})`. -/
  | tooLarge (bytes : ℕ)
  /-- `malformed JSON: ` and what the decoder says. -/
  | malformed
  /-- `manifest must be a JSON object`. -/
  | notObject
  /-- `missing required field: {field}`. -/
  | missing (field : String)
  /-- `write_marker op requires a marker payload`. -/
  | noMarker
  /-- `unknown op kind: {kind!r}`. -/
  | unknownKind (kind : Json)

/-- What `parse_manifest` raises. -/
inductive ParseError
  | rejected (reason : Rejection)
  | unicodeDecodeError | valueError | recursionError | attributeError | typeError
  | keyError (key : String)

/-- The error of the call of `json.loads`, which handles the one of the decoder. -/
def ParseError.ofLoads : LoadsError → ParseError
  | .jsonDecodeError => .rejected .malformed
  | .unicodeDecodeError => .unicodeDecodeError
  | .valueError => .valueError
  | .recursionError => .recursionError

/-- The members of a `dict`. -/
abbrev Members := List (Text × Json)

/-- `key in members`. -/
def has (members : Members) (key : String) : Bool := (members.lookup (text key)).isSome

/-- `data[key]`, which only a `dict` has for a text. -/
def getItem (data : Json) (key : String) : Except ParseError Json :=
  match data with
  | .obj members => match members.lookup (text key) with
    | some v => .ok v
    | none => .error (.keyError key)
  | _ => .error .typeError

/-- `tuple(decode(x) for x in v)`. -/
def decodeAll {α : Type} (decode : Json → Except ParseError α) (v : Json) :
    Except ParseError (List α) :=
  match v.iter with
  | .ok items => items.mapM decode
  | .error _ => .error .typeError

/-- `_marker_from_json`. -/
def markerFromJson (data : Json) : Except ParseError (Option (MarkerMeta Json)) :=
  match data with
  | .null => .ok none
  | data => do
    let fraisesYamlPath ← getItem data "fraises_yaml_path"
    let fraiseName ← getItem data "fraise_name"
    let environment ← getItem data "environment"
    let jobName ← getItem data "job_name"
    pure (some { fraisesYamlPath, fraiseName, environment, jobName })

variable (limits : Limits)

/-- `_op_from_json`. -/
def opFromJson (data : Json) : Except ParseError (Operation Json Json) :=
  match data with
  | .obj members =>
    let kind := getD members "kind" (.str (text "install_file"))
    if kind.isStr "install_file" then do
      let sourcePath ← getItem data "source_path"
      let destPath ← getItem data "dest_path"
      let mode ← getItem data "mode"
      let force := getD members "force" (.bool false)
      let marker ← markerFromJson (getD members "marker" .null)
      pure (.installFile { sourcePath, destPath, mode, force, marker })
    else if kind.isStr "write_marker" then do
      match ← markerFromJson (getD members "marker" .null) with
      | none => .error (.rejected .noMarker)
      | some marker => do
        let destPath ← getItem data "dest_path"
        pure (.writeMarker { destPath, marker })
    -- the message holds the kind's `repr`, which can be nested too deep for it
    else if kind.depth ≤ limits.repr then .error (.rejected (.unknownKind kind))
    else .error .recursionError
  | _ => .error .attributeError

/-- `_action_from_json`. -/
def actionFromJson (data : Json) : Except ParseError (PostAction Json) := do
  let kind ← getItem data "kind"
  if kind.isStr "daemon_reload" then pure .daemonReload
  else if kind.isStr "enable_now" then return .enableNow (← getItem data "unit")
  else if kind.isStr "disable_now" then return .disableNow (← getItem data "unit")
  else if kind.isStr "stop" then return .stop (← getItem data "unit")
  else if kind.depth ≤ limits.repr then .error .valueError
  else .error .recursionError

/-- `parse_manifest`, of a payload that was loaded. -/
def manifestFromJson (data : Json) : Except ParseError ParsedManifest :=
  match data with
  | .obj members => do
    if !has members "version" then .error (.rejected (.missing "version"))
    else if !has members "deploy_id" then .error (.rejected (.missing "deploy_id"))
    else
      let version ← getItem data "version"
      let deployId ← getItem data "deploy_id"
      let operations ← decodeAll (opFromJson limits) (getD members "operations" (.arr []))
      let postActions ← decodeAll (actionFromJson limits) (getD members "post_actions" (.arr []))
      pure { version, deployId, operations, postActions }
  | _ => .error (.rejected .notObject)

/-- `parse_manifest`. -/
def parseManifest (raw : List ℕ) : Except ParseError ParsedManifest :=
  if maxManifestBytes < raw.length then .error (.rejected (.tooLarge raw.length))
  else match loads limits.loads raw with
    | .error e => .error (.ofLoads e)
    | .ok data => manifestFromJson limits data

/-! ## What the helper receives -/

/-- `_MAX_READ_BYTES`. -/
def maxReadBytes : ℕ := 1024 * 1024 + 1

/-- `_read_manifest_bytes`, of the chunks that are received. There are no more bytes after an empty
one, nor after the last. -/
def readManifestBytes (buf : List ℕ) : List (List ℕ) → List ℕ
  | [] => buf
  | chunk :: chunks =>
    if buf.length < maxReadBytes then
      if chunk = [] then buf
      else if 0x0A ∈ buf ++ chunk then (buf ++ chunk).takeWhile (· ≠ 0x0A) ++ [0x0A]
      else readManifestBytes (buf ++ chunk) chunks
    else buf

end Fraisier.Install.Wire
