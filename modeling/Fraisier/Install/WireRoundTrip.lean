import Mathlib.Data.List.TakeWhile
import Fraisier.Lib.Fallible
import Fraisier.Lib.JsonRoundTrip
import Fraisier.Install.Wire

/-!
# A manifest survives the wire

`parse_serialize`: what `serialize_manifest` writes of a typed manifest is what the helper reads from
its socket, and `parse_manifest` gives the manifest back. The one exception are strings in which a
high surrogate stands before a low one (`joins_surrogates`): JSON writes both as the one character
that they stand for.
-/

namespace Fraisier.Install.Wire

open Fraisier.Lib Unicode Json Fallible

variable {limits : Limits} {manifest : TypedManifest}

/-! ## The strings of a manifest -/

def MarkerMeta.strings {S : Type} (marker : MarkerMeta S) : List S :=
  [marker.fraisesYamlPath, marker.fraiseName, marker.environment, marker.jobName]

def Operation.strings {S B : Type} : Operation S B → List S
  | .installFile op => [op.sourcePath, op.destPath, op.mode] ++ op.marker.toList.flatMap (·.strings)
  | .writeMarker op => op.destPath :: op.marker.strings

def PostAction.strings {S : Type} : PostAction S → List S
  | .daemonReload => []
  | .enableNow unit | .disableNow unit | .stop unit => [unit]

/-- Every string of the manifest. -/
def Manifest.strings {S B I : Type} (manifest : Manifest S B I) : List S :=
  manifest.deployId ::
    (manifest.operations.flatMap (·.strings) ++ manifest.postActions.flatMap (·.strings))

/-! ## The payload is plain -/

/-- A marker without halves next to each other is plain. -/
theorem plain_markerToJson {marker : Option (MarkerMeta Text)}
    (h : ∀ s ∈ marker.toList.flatMap (·.strings), Apart s) : Plain (markerToJson marker) := by
  cases marker with
  | none => trivial
  | some marker =>
    simp only [Option.toList_some, List.flatMap_singleton, MarkerMeta.strings, List.forall_mem_cons]
      at h
    obtain ⟨hpath, hname, henvironment, hjob, -⟩ := h
    refine ⟨of_decide_eq_true rfl, apart_text _, hpath, apart_text _, hname, apart_text _, henvironment,
      apart_text _, hjob, trivial⟩

/-- An operation without halves next to each other is plain. -/
theorem plain_opToJson {op : Operation Text Bool} (h : ∀ s ∈ op.strings, Apart s) :
    Plain (opToJson op) := by
  cases op with
  | installFile op =>
    simp only [Operation.strings, List.cons_append, List.nil_append, List.forall_mem_cons] at h
    obtain ⟨hsource, hdest, hmode, hmarker⟩ := h
    exact ⟨of_decide_eq_true rfl, apart_text _, apart_text _, apart_text _, hsource, apart_text _, hdest,
      apart_text _, hmode, apart_text _, trivial, apart_text _, plain_markerToJson hmarker, trivial⟩
  | writeMarker op =>
    simp only [Operation.strings, List.forall_mem_cons] at h
    have hmarker : ∀ s ∈ (some op.marker).toList.flatMap (·.strings), Apart s := by
      simpa using h.2
    exact ⟨of_decide_eq_true rfl, apart_text _, apart_text _, apart_text _, h.1, apart_text _,
      plain_markerToJson hmarker, trivial⟩

/-- An action without halves next to each other is plain. -/
theorem plain_actionToJson {action : PostAction Text} (h : ∀ s ∈ action.strings, Apart s) :
    Plain (actionToJson action) := by
  cases action with
  | daemonReload => exact ⟨of_decide_eq_true rfl, apart_text _, apart_text _, trivial⟩
  | enableNow unit | disableNow unit | stop unit =>
    have hunit := h unit List.mem_cons_self
    exact ⟨of_decide_eq_true rfl, apart_text _, apart_text _, apart_text _, hunit, trivial⟩

/-- A manifest without halves next to each other is plain. -/
theorem plain_payload (hversion : digits manifest.version ≤ maxStrDigits)
    (h : ∀ s ∈ manifest.strings, Apart s) : Plain (payload manifest) := by
  simp only [Manifest.strings, List.forall_mem_cons, List.forall_mem_append] at h
  obtain ⟨hdeploy, hoperations, hactions⟩ := h
  have hops : PlainItems (manifest.operations.map opToJson) := by
    refine plainItems fun v hv => ?_
    obtain ⟨op, hop, rfl⟩ := List.mem_map.mp hv
    exact plain_opToJson fun s hs => hoperations s (List.mem_flatMap.mpr ⟨op, hop, hs⟩)
  have hacts : PlainItems (manifest.postActions.map actionToJson) := by
    refine plainItems fun v hv => ?_
    obtain ⟨action, haction, rfl⟩ := List.mem_map.mp hv
    exact plain_actionToJson fun s hs => hactions s (List.mem_flatMap.mpr ⟨action, haction, hs⟩)
  exact ⟨of_decide_eq_true rfl, apart_text _, hversion, apart_text _, hdeploy, apart_text _, hops, apart_text _,
    hacts, trivial⟩

/-- A marker is nested once. -/
theorem depth_markerToJson (marker : Option (MarkerMeta Text)) : depth (markerToJson marker) ≤ 1 := by
  cases marker <;> exact of_decide_eq_true rfl

/-- An operation is nested twice at most. -/
theorem depth_opToJson (op : Operation Text Bool) : depth (opToJson op) ≤ 2 := by
  cases op with
  | installFile op =>
    have h := depth_markerToJson op.marker
    simp only [opToJson, depth, depthMembers]
    omega
  | writeMarker op =>
    have h := depth_markerToJson (some op.marker)
    simp only [opToJson, depth, depthMembers]
    omega

/-- An action is nested twice at most. -/
theorem depth_actionToJson (action : PostAction Text) : depth (actionToJson action) ≤ 2 := by
  cases action <;> exact of_decide_eq_true rfl

/-- A manifest is nested four times at most. -/
theorem depth_payload (manifest : TypedManifest) : depth (payload manifest) ≤ 4 := by
  have hops : depthItems (manifest.operations.map opToJson) ≤ 2 := by
    refine depthItems_le fun v hv => ?_
    obtain ⟨op, -, rfl⟩ := List.mem_map.mp hv
    exact depth_opToJson op
  have hacts : depthItems (manifest.postActions.map actionToJson) ≤ 2 := by
    refine depthItems_le fun v hv => ?_
    obtain ⟨action, -, rfl⟩ := List.mem_map.mp hv
    exact depth_actionToJson action
  simp only [payload, depth, depthMembers]
  omega

/-! ## The payload is parsed to the manifest -/

/-- An operation is read back. -/
theorem opFromJson_opToJson (op : Operation Text Bool) :
    opFromJson limits (opToJson op) = .ok (op.map .str .bool) := by
  cases op with
  | installFile op =>
    obtain ⟨sourcePath, destPath, mode, force, marker⟩ := op
    cases marker <;> rfl
  | writeMarker op => rfl

/-- An action is read back. -/
theorem actionFromJson_actionToJson (action : PostAction Text) :
    actionFromJson limits (actionToJson action) = .ok (action.map .str) := by
  cases action <;> rfl

/-- A manifest is read back from its payload. -/
theorem manifestFromJson_payload (manifest : TypedManifest) :
    manifestFromJson limits (payload manifest) = .ok manifest.values := by
  have hop : ∀ op, opFromJson limits (opToJson op) = .ok (op.map .str .bool) := opFromJson_opToJson
  have hact : ∀ action, actionFromJson limits (actionToJson action) = .ok (action.map .str) :=
    actionFromJson_actionToJson
  -- Each operation and each post-action is read back from its own object.
  have hops : (manifest.operations.map opToJson).mapM (opFromJson limits) =
      .ok (manifest.operations.map (.map .str .bool)) := mapM_map_ok hop
  have hacts : (manifest.postActions.map actionToJson).mapM (actionFromJson limits) =
      .ok (manifest.postActions.map (.map .str)) := mapM_map_ok hact
  show (do
    let operations ← (manifest.operations.map opToJson).mapM (opFromJson limits)
    let postActions ← (manifest.postActions.map actionToJson).mapM (actionFromJson limits)
    pure { version := .int manifest.version, deployId := .str manifest.deployId,
           operations, postActions : ParsedManifest }) = _
  rw [hops, hacts]
  rfl

/-! ## The line that is read -/

/-- The first line of a text. -/
theorem takeWhile_line {line rest : List ℕ} (hline : 0x0A ∉ line) :
    (line ++ 0x0A :: rest).takeWhile (· ≠ 0x0A) = line := by
  have hpos : ∀ b ∈ line, decide (b ≠ 0x0A) = true := by
    intro b hb
    rw [decide_eq_true_iff]
    rintro rfl
    exact hline hb
  rw [List.takeWhile_append_of_pos hpos]
  simp

/-- What comes after a newline does not change the first line. -/
theorem takeWhile_append_of_newline {buf rest : List ℕ} (h : 0x0A ∈ buf) :
    (buf ++ rest).takeWhile (· ≠ 0x0A) = buf.takeWhile (· ≠ 0x0A) := by
  rw [List.takeWhile_append, if_neg]
  intro hlength
  have hall := (List.takeWhile_prefix fun b : ℕ => decide (b ≠ 0x0A)).eq_of_length hlength
  have hnewline := List.takeWhile_eq_self_iff.mp hall 0x0A h
  simp at hnewline

/-- What is received before the newline is no longer than the line. -/
theorem length_le_of_not_newline {buf line rest rest' : List ℕ} (hbuf : 0x0A ∉ buf)
    (h : buf ++ rest' = line ++ 0x0A :: rest) : buf.length ≤ line.length := by
  by_contra hlt
  have hget : (buf ++ rest')[line.length]? = some 0x0A := by
    rw [h]
    simp
  rw [List.getElem?_append_left (by omega)] at hget
  exact hbuf (List.mem_of_getElem? hget)

/-- The helper reads the first line, whatever the chunks in which it is received. -/
theorem readManifestBytes_line {line rest : List ℕ} (hline : 0x0A ∉ line)
    (hcap : line.length < maxReadBytes) (chunks : List (List ℕ)) (hchunks : ∀ c ∈ chunks, c ≠ [])
    (buf : List ℕ) (hbuf : 0x0A ∉ buf) (h : buf ++ chunks.flatten = line ++ 0x0A :: rest) :
    readManifestBytes buf chunks = line ++ [0x0A] := by
  -- Induction on the chunks: nothing before the newline ends the line.
  induction chunks generalizing buf with
  | nil =>
    rw [List.flatten_nil, List.append_nil] at h
    rw [h] at hbuf
    exact absurd (List.mem_append_right line List.mem_cons_self) hbuf
  | cons chunk chunks ih =>
    rw [List.flatten_cons] at h
    have hchunk : chunk ≠ [] := hchunks chunk List.mem_cons_self
    have hroom : buf.length < maxReadBytes := by
      have hle := length_le_of_not_newline hbuf h
      omega
    rw [← List.append_assoc] at h
    rw [readManifestBytes, if_pos hroom, if_neg hchunk]
    split
    · rename_i hnewline
      rw [← takeWhile_append_of_newline hnewline, h, takeWhile_line hline]
    · rename_i hnewline
      exact ih (fun c hc => hchunks c (List.mem_cons_of_mem chunk hc)) _ hnewline h

/-! ## Both ways -/

/-- What is written of a manifest is parsed to the manifest. -/
theorem parseManifest_serialize {raw : List ℕ} (hraw : serializeManifest manifest = some raw)
    (hcap : raw.length ≤ maxManifestBytes) (hapart : ∀ s ∈ manifest.strings, Apart s)
    (hdepth : 4 ≤ limits.loads) : parseManifest limits raw = .ok manifest.values := by
  rw [serializeManifest] at hraw
  split at hraw
  case isFalse => cases hraw
  case isTrue hversion =>
    have hloads := loads_dumps (plain_payload hversion hapart)
      ((depth_payload manifest).trans hdepth)
    rw [List.map_append] at hloads
    change loads limits.loads ((dumps (payload manifest)).map (·.val) ++ [0x0A]) = _ at hloads
    cases Option.some.inj hraw
    rw [parseManifest, if_neg (Nat.not_lt.mpr hcap), hloads]
    exact manifestFromJson_payload manifest

/-- What is written of a manifest is read, and parsed to the manifest. -/
theorem parse_serialize {raw : List ℕ} (hraw : serializeManifest manifest = some raw)
    (hcap : raw.length ≤ maxManifestBytes) (hapart : ∀ s ∈ manifest.strings, Apart s)
    (hdepth : 4 ≤ limits.loads) :
    parseManifest limits raw = .ok manifest.values ∧
      ∀ (chunks : List (List ℕ)) (rest : List ℕ), (∀ c ∈ chunks, c ≠ []) →
        chunks.flatten = raw ++ rest → readManifestBytes [] chunks = raw := by
  refine ⟨parseManifest_serialize hraw hcap hapart hdepth, fun chunks rest hchunks h => ?_⟩
  rw [serializeManifest] at hraw
  split at hraw
  case isFalse => cases hraw
  case isTrue hversion =>
    -- What is written breaks no line before its end.
    have hline : 0x0A ∉ (dumps (payload manifest)).map (·.val) := by
      intro h
      obtain ⟨c, hc, hval⟩ := List.mem_map.mp h
      have hprintable := (printable_dumps _ (plain_payload hversion hapart) c hc).1
      omega
    cases Option.some.inj hraw
    rw [List.append_assoc] at h
    have hroom : ((dumps (payload manifest)).map (·.val)).length < maxReadBytes := by
      rw [List.length_append, List.length_singleton] at hcap
      unfold maxManifestBytes at hcap
      unfold maxReadBytes
      omega
    exact readManifestBytes_line hline hroom chunks hchunks [] List.not_mem_nil h

/-- A marker for a timer, and that the timer is enabled. -/
def enableTimer : TypedManifest where
  version := 1
  deployId := text "d"
  operations := [.writeMarker ⟨text "/e/a.timer", ⟨text "/f.yaml", text "f", text "é", text "a"⟩⟩]
  postActions := [.daemonReload, .enableNow (text "a.timer")]

/-- The manifest that enables a timer is read back, however its bytes arrive. -/
theorem parse_serialize_enableTimer :
    parseManifest ⟨4, 0⟩ ((serializeManifest enableTimer).getD []) = .ok enableTimer.values ∧
      ∀ (chunks : List (List ℕ)) (rest : List ℕ), (∀ c ∈ chunks, c ≠ []) →
        chunks.flatten = (serializeManifest enableTimer).getD [] ++ rest →
          readManifestBytes [] chunks = (serializeManifest enableTimer).getD [] :=
  parse_serialize (show serializeManifest enableTimer = some _ from rfl) (by decide +kernel) (by unfold Apart; decide)
    (Nat.le_refl 4)

/-- Two surrogates in a string are read back as one character. -/
theorem joins_surrogates : ¬∀ (manifest : TypedManifest) (raw : List ℕ),
    serializeManifest manifest = some raw → raw.length ≤ maxManifestBytes →
      parseManifest ⟨4, 0⟩ raw = .ok manifest.values := by
  intro h
  have hread := h ⟨1, [point 0xD83D, point 0xDE00], [], []⟩ _ rfl (by decide +kernel)
  have hjoined : parseManifest ⟨4, 0⟩ ((serializeManifest
      ⟨1, [point 0xD83D, point 0xDE00], [], []⟩).getD []) =
        .ok ⟨.int 1, .str [point 0x1F600], [], []⟩ := rfl
  cases hjoined.symm.trans hread

end Fraisier.Install.Wire
