import Mathlib.Data.List.Infix
import Mathlib.Data.List.Lex
import Mathlib.Data.List.Sort
import Fraisier.Lib.Fallible
import Fraisier.Lib.Yaml
import Fraisier.Socket.Helper

/-!
# Which units a prune removes

`prune_orphans` of `scheduled_install.py` reads the markers of the systemd directory and plans the
removal of the units that no scheduled job declares any more. Markers are plain files that anyone who
may write there has left: `read_marker` catches what `open` raises and a `JSONDecodeError`, and looks
for the four fields, but not at their types. `prunes_exactly_iff` says for which directories the plan
is made and is exactly the orphans.
-/

namespace Fraisier.Prune

open Fraisier.Lib Unicode Json

/-- Exceptions that leave a planner. -/
inductive Raised
  | attributeError | typeError | keyError | valueError | unicodeDecodeError | recursionError | osError
  deriving DecidableEq

/-! ## The scheduled jobs -/

/-- `ScheduledUnitInstall`, as far as the prune planner reads it. The names of the fraise and of the
job are keys of the file. -/
structure ScheduledUnitInstall where
  fraiseName : Option Text
  jobName : Option Text
  unitName : Text
  isTimer : Bool
  appPath : Text
  deriving DecidableEq

/-- A character of `[a-zA-Z0-9_@.\-]`. -/
def isServiceChar (c : CodePoint) : Bool := isNameChar c || is '@' c || is '.' c

/-- `_SERVICE_RE.match`, without which `validate_service_name` raises. -/
def validServiceName (s : Text) : Bool := matchesRun isServiceChar s

section Jobs

/-- What `.get` and `.items` need. -/
def mapping : Yaml → Except Raised (List (Option Text × Yaml))
  | .map members => .ok members
  | _ => .error .attributeError

/-- `members.get(key)`. -/
def get (members : List (Option Text × Yaml)) (key : String) : Yaml :=
  (members.lookup (some (text key))).getD .null

/-- `v or {}`. -/
def orEmpty (v : Yaml) : Yaml := if v.truthy then v else .map []

/-- `env_config["app_path"]`, and `Path` of it. -/
def appPath : Yaml → Except Raised Text
  | .map members => match members.lookup (some (text "app_path")) with
    | none => .error .keyError
    | some v => match v.text? with
      | some path => .ok path
      | none => .error .typeError
  | _ => .error .typeError

/-- One of the two unit fields of a job. -/
def unitRow (fraiseName jobName : Option Text) (appPath : Text) (job : List (Option Text × Yaml))
    (field : String × Bool) : Except Raised (Option ScheduledUnitInstall) :=
  let unitName := get job field.1
  if !unitName.truthy then .ok none
  else match unitName with
    | .str unitName =>
      if validServiceName unitName then
        .ok (some { fraiseName, jobName, unitName, isTimer := field.2, appPath })
      else .error .valueError
    | _ => .error .typeError

/-- The units of a fraise. -/
def fraiseRows (environment : Text) (fraise : Option Text × Yaml) :
    Except Raised (List ScheduledUnitInstall) := do
  let body ← mapping fraise.2
  if (get body "type").text? ≠ some (text "scheduled") then pure []
  else
    let environments ← mapping (orEmpty (get body "environments"))
    match environments.lookup (some environment) with
    | none | some .null => pure []
    | some envConfig =>
      let path ← appPath envConfig
      let envConfig ← mapping envConfig
      let jobs ← mapping (orEmpty (get envConfig "jobs"))
      let rows ← jobs.mapM fun job => do
        let body ← mapping job.2
        [("systemd_service", false), ("systemd_timer", true)].mapM (unitRow fraise.1 job.1 path body)
      pure rows.flatten.reduceOption

/-- `enumerate_scheduled_units`. -/
def enumerateScheduledUnits (fraises : Yaml) (environment : Text) :
    Except Raised (List ScheduledUnitInstall) := do
  let fraises ← mapping fraises
  let rows ← fraises.mapM (fraiseRows environment)
  pure rows.flatten

end Jobs

/-! ## The directory -/

/-- A file of the systemd directory, with its bytes or the text of the `OSError` that reading it
raises. -/
structure Entry where
  name : Text
  content : Except Text (List ℕ)

/-- What `Path.resolve` raises. -/
inductive ResolveError
  | fileNotFound
  /-- Of a text with a NUL, of a loop, or where the host says no. -/
  | other

/-- The host, as a prune finds it. -/
structure Host where
  /-- `systemd_dest_dir`. -/
  destDir : Text
  /-- Its entries; none when there is no such directory. -/
  entries : Option (List Entry)
  /-- `Path(s).resolve(strict=…)`. -/
  resolve (strict : Bool) (s : Text) : Except ResolveError Text
  /-- `(dest_dir / unit_name).exists()`; none where the file cannot be examined. -/
  unitExists (unit : Text) : Option Bool

/-- `MARKER_SUFFIX`. -/
def markerSuffix : Text := text ".fraisier-managed"

/-- The unit that a marker is named for; none of another file. -/
def unitOf (name : Text) : Option Text :=
  if markerSuffix.isSuffixOf name then some (name.take (name.length - markerSuffix.length)) else none

/-- `find_markers` accepts the name of the unit. -/
def accepts (unit : Text) : Bool :=
  validServiceName unit && !decide (text ".." <:+: unit) && !startsWith unit "."

/-- `find_markers`. -/
def findMarkers (host : Host) : List Entry :=
  ((host.entries.getD []).filter fun e => (unitOf e.name).any accepts).mergeSort
    fun a b => decide (a.name ≤ b.name)

/-! ## A marker -/

/-- `MarkerMeta`, with the values that the file has. -/
structure MarkerMeta where
  fraisesYamlPath : Json
  fraiseName : Json
  environment : Json
  jobName : Json

/-- `CorruptMarker`, or another exception. -/
inductive ReadError
  | corrupt (message : Text)
  | raised (e : Raised)

/-- `v == t`. -/
def isText (t : Text) : Json → Bool
  | .str s => s = t
  | _ => false

/-- The fields that a marker must have. -/
def requiredFields : List String := ["fraises_yaml_path", "fraise_name", "environment", "job_name"]

/-- `repr` of a list of names. -/
def listRepr (names : List String) : Text :=
  text "[" ++ (text ", ").intercalate (names.map fun name => text "'" ++ text name ++ text "'") ++
    text "]"

section Plan

-- `exception` is the text of the exception that `json.loads` raises
variable (limits : Limits) (exception : Text → Text)

/-- `read_marker`. -/
def readMarker (path : Text) (content : Except Text (List ℕ)) : Except ReadError MarkerMeta :=
  match content with
  | .error e => .error (.corrupt (text "could not read marker " ++ path ++ text ": " ++ e))
  | .ok bytes => match Socket.decode bytes with
    | none => .error (.raised .unicodeDecodeError)
    | some s => match loadsStr limits.loads (Socket.universalNewlines s) with
      | .error .jsonDecodeError =>
        .error (.corrupt (text "marker " ++ path ++ text " is not valid JSON: " ++ exception s))
      | .error .recursionError => .error (.raised .recursionError)
      | .error _ => .error (.raised .valueError)
      | .ok (.obj payload) =>
        let missing := requiredFields.filter fun field => (payload.lookup (text field)).isNone
        if missing ≠ [] then
          .error (.corrupt
            (text "marker " ++ path ++ text " missing required fields: " ++ listRepr missing))
        else
          .ok
            { fraisesYamlPath := getD payload "fraises_yaml_path" .null
              fraiseName := getD payload "fraise_name" .null
              environment := getD payload "environment" .null
              jobName := getD payload "job_name" .null }
      | .ok _ => .error (.corrupt (text "marker " ++ path ++ text " is not a JSON object"))

/-! ## The plan -/

/-- `kind`. -/
inductive Kind
  | orphan | staleMarker
  deriving DecidableEq

/-- `PrunePlan`. -/
structure PrunePlan where
  kind : Kind
  markerPath : Text
  unitName : Text
  unitPath : Option Text := none
  isTimer : Bool := false
  reason : Option Text := none
  deriving DecidableEq

/-- The key that the plans are sorted by. -/
def PrunePlan.key (plan : PrunePlan) : ℕ :=
  (if plan.kind = .orphan then 0 else 2) + if plan.isTimer then 0 else 1

variable (host : Host) (configPath : Text) (fraises : Yaml) (environment : Text)

/-- The path of the configuration, which need not exist. -/
def resolvedConfigPath : Except Raised Text :=
  match host.resolve true configPath with
  | .ok path => .ok path
  | .error .fileNotFound => match host.resolve false configPath with
    | .ok path => .ok path
    | .error _ => .error .osError
  | .error .other => .error .osError

/-- `dest_dir / name`. -/
def Host.pathOf (name : Text) : Text := host.destDir ++ text "/" ++ name

/-- `Path(meta.fraises_yaml_path).resolve()`. -/
def markerYamlPath (markerMeta : MarkerMeta) : Except Raised Text :=
  match markerMeta.fraisesYamlPath with
  | .str s => match host.resolve false s with
    | .ok path => .ok path
    | .error _ => .error .osError
  | _ => .error .typeError

/-- The plan for an orphan. -/
def removal (marker : Entry) (unitName : Text) : PrunePlan :=
  { kind := .orphan, markerPath := host.pathOf marker.name, unitName,
    unitPath := host.pathOf unitName, isTimer := (text ".timer").isSuffixOf unitName }

/-- What a marker that parses comes to. -/
def planUnit (declared : List Text) (resolved : Text) (marker : Entry) (unitName : Text)
    (markerMeta : MarkerMeta) (path : Text) : Except Raised (Option PrunePlan) :=
  if path ≠ resolved then .ok none
  else if !isText environment markerMeta.environment then .ok none
  else match host.unitExists unitName with
    | none => .error .osError
    | some false =>
      .ok (some { kind := .staleMarker, markerPath := host.pathOf marker.name, unitName,
                  reason := some (text "unit file missing on disk") })
    | some true =>
      if unitName ∈ declared then .ok none
      else .ok (some (removal host marker unitName))

/-- One pass of the loop over the markers. -/
def planMarker (declared : List Text) (resolved : Text) (marker : Entry) :
    Except Raised (Option PrunePlan) :=
  let unitName := (unitOf marker.name).getD []
  match readMarker limits exception (host.pathOf marker.name) marker.content with
  | .error (.corrupt message) =>
    .ok (some { kind := .staleMarker, markerPath := host.pathOf marker.name, unitName,
                reason := some (text "corrupt marker: " ++ message) })
  | .error (.raised e) => .error e
  | .ok markerMeta => do
    let path ← markerYamlPath host markerMeta
    planUnit host environment declared resolved marker unitName markerMeta path

/-- `prune_orphans`. -/
def pruneOrphans : Except Raised (List PrunePlan) := do
  let units ← enumerateScheduledUnits fraises environment
  let resolved ← resolvedConfigPath host configPath
  let plans ← (findMarkers host).mapM
    (planMarker limits exception host environment (units.map (·.unitName)) resolved)
  pure (plans.reduceOption.mergeSort fun p q => p.key ≤ q.key)

/-! ## What is promised -/

/-- The unit's marker parses, names the configuration file and the environment, its file exists, and
no scheduled job of the environment declares it. -/
inductive Orphaned (unit : Text) : Prop
  | intro {path yaml : Text} {units : List ScheduledUnitInstall} {marker : Entry}
    {markerMeta : MarkerMeta} (config : resolvedConfigPath host configPath = .ok path)
    (jobs : enumerateScheduledUnits fraises environment = .ok units)
    (mem : marker ∈ host.entries.getD []) (named : marker.name = unit ++ markerSuffix)
    (parses : readMarker limits exception (host.pathOf marker.name) marker.content = .ok markerMeta)
    (yamlPath : markerMeta.fraisesYamlPath = .str yaml)
    (same : host.resolve false yaml = .ok path)
    (env : markerMeta.environment = .str environment)
    (file : host.unitExists unit = some true)
    (undeclared : ∀ u ∈ units, u.unitName ≠ unit)

/-- The timers come first, then the services, then the markers without a unit. -/
def PrunePlan.group (plan : PrunePlan) : ℕ :=
  if plan.kind = .orphan then if (text ".timer").isSuffixOf plan.unitName then 0 else 1 else 2

/-- The plan is made; it removes the units that are orphaned and no other, in order. -/
def PrunesExactly : Prop :=
  ∃ plans, pruneOrphans limits exception host configPath fraises environment = .ok plans ∧
    (∀ unit, (∃ p ∈ plans, p.kind = .orphan ∧ p.unitName = unit) ↔
      Orphaned limits exception host configPath fraises environment unit) ∧
    plans.Pairwise fun p q => p.group ≤ q.group

/-- A marker does not stop the planner: it is corrupt in a way that is caught, or what it gives as the
path is a text that the host resolves, and the unit's file can be examined if it comes to that. -/
def Readable (resolved : Text) (marker : Entry) : Prop :=
  (∃ message, readMarker limits exception (host.pathOf marker.name) marker.content =
      .error (.corrupt message)) ∨
    ∃ markerMeta yaml path,
      readMarker limits exception (host.pathOf marker.name) marker.content = .ok markerMeta ∧
      markerMeta.fraisesYamlPath = .str yaml ∧ host.resolve false yaml = .ok path ∧
      (path = resolved → markerMeta.environment = .str environment →
        (host.unitExists ((unitOf marker.name).getD [])).isSome = true)

/-- The configuration can be read, no accepted marker stops the planner, and no orphaned unit has a
name that is not accepted. -/
structure Prunable : Prop where
  jobs : ∃ units, enumerateScheduledUnits fraises environment = .ok units
  markers : ∃ resolved, resolvedConfigPath host configPath = .ok resolved ∧
    ∀ marker ∈ host.entries.getD [], (unitOf marker.name).any accepts = true →
      Readable limits exception host environment resolved marker
  names : ∀ unit, Orphaned limits exception host configPath fraises environment unit →
    accepts unit = true

end Plan

variable {limits : Limits} {exception : Text → Text} {host : Host} {configPath : Text}
  {fraises : Yaml} {environment : Text}

/-! ## One marker -/

/-- A marker's name is the unit's with the suffix. -/
theorem unitOf_eq_some_iff {name unit : Text} : unitOf name = some unit ↔ name = unit ++ markerSuffix := by
  unfold unitOf
  constructor
  · intro h
    split at h
    · next hsuffix =>
      obtain ⟨t, rfl⟩ := List.isSuffixOf_iff_suffix.mp hsuffix
      rw [List.length_append, Nat.add_sub_cancel_right, List.take_left] at h
      rw [Option.some.inj h]
    · cases h
  · rintro rfl
    rw [if_pos (List.isSuffixOf_iff_suffix.mpr (List.suffix_append _ _)), List.length_append,
      Nat.add_sub_cancel_right, List.take_left]

/-- A value is a text when it is that text. -/
theorem isText_iff {t : Text} {v : Json} : isText t v = true ↔ v = .str t := by
  cases v <;> simp [isText]

/-- The path in a marker is read when it is a text that resolves. -/
theorem markerYamlPath_ok_iff {markerMeta : MarkerMeta} {path : Text} :
    markerYamlPath host markerMeta = .ok path ↔
      ∃ yaml, markerMeta.fraisesYamlPath = .str yaml ∧ host.resolve false yaml = .ok path := by
  unfold markerYamlPath
  split
  · next yaml hyaml =>
    rw [hyaml]
    split
    · next path' hpath => simp [hpath]
    · next e hpath => simp [hpath]
  · next hyaml =>
    refine ⟨nofun, ?_⟩
    rintro ⟨yaml, h, -⟩
    exact absurd h (hyaml yaml)

variable {declared : List Text} {resolved : Text} {marker : Entry}

/-- The examination of the unit's file is all that can fail for a marker that parses. -/
theorem exists_planUnit_iff {unit path : Text} {markerMeta : MarkerMeta} :
    (∃ r, planUnit host environment declared resolved marker unit markerMeta path = .ok r) ↔
      (path = resolved → markerMeta.environment = .str environment →
        (host.unitExists unit).isSome = true) := by
  unfold planUnit
  -- The file is only examined for a marker of this project and environment.
  by_cases hsame : path = resolved
  · rw [if_neg (not_not.mpr hsame)]
    by_cases henv : isText environment markerMeta.environment = true
    · rw [henv, Bool.not_true, if_neg Bool.false_ne_true]
      simp only [hsame, isText_iff.mp henv, forall_const]
      cases host.unitExists unit with
      | none => exact iff_of_false (fun ⟨_, h⟩ => nomatch h) nofun
      | some b =>
        refine iff_of_true ?_ rfl
        cases b
        · exact ⟨_, rfl⟩
        · dsimp only
          split <;> exact ⟨_, rfl⟩
    · rw [Bool.eq_false_of_not_eq_true henv]
      exact iff_of_true ⟨none, rfl⟩ fun _ h => absurd (isText_iff.mpr h) henv
  · rw [if_pos hsame]
    exact iff_of_true ⟨none, rfl⟩ fun h => absurd h hsame

/-- When a pass of the loop ends without an exception. -/
theorem exists_planMarker_iff :
    (∃ r, planMarker limits exception host environment declared resolved marker = .ok r) ↔
      Readable limits exception host environment resolved marker := by
  unfold planMarker Readable
  dsimp only
  -- A marker that is corrupt is reported, one that is read is planned.
  cases hread : readMarker limits exception (host.pathOf marker.name) marker.content with
  | error e =>
    cases e with
    | corrupt message => exact iff_of_true ⟨_, rfl⟩ (.inl ⟨message, rfl⟩)
    | raised e =>
      refine iff_of_false (fun ⟨_, h⟩ => nomatch h) ?_
      rintro (⟨_, h⟩ | ⟨_, _, _, h, -⟩) <;> cases h
  | ok markerMeta =>
    dsimp only
    constructor
    · rintro ⟨r, h⟩
      obtain ⟨path, hpath, h⟩ := Fallible.bind_ok_iff.mp h
      obtain ⟨yaml, hyaml, hresolve⟩ := markerYamlPath_ok_iff.mp hpath
      exact .inr ⟨markerMeta, yaml, path, rfl, hyaml, hresolve, exists_planUnit_iff.mp ⟨r, h⟩⟩
    · rintro (⟨_, h⟩ | ⟨markerMeta, yaml, path, hmeta, hyaml, hresolve, hexists⟩)
      · cases h
      · obtain rfl := Except.ok.inj hmeta
        obtain ⟨r, hr⟩ := (exists_planUnit_iff ).mpr hexists
        exact ⟨r, Fallible.bind_ok_iff.mpr
          ⟨path, markerYamlPath_ok_iff.mpr ⟨yaml, hyaml, hresolve⟩, hr⟩⟩

/-- What a marker must say of its unit to have it removed. -/
def Removes (limits : Limits) (exception : Text → Text) (host : Host) (environment : Text)
    (declared : List Text) (resolved : Text) (marker : Entry) : Prop :=
  ∃ markerMeta yaml,
    readMarker limits exception (host.pathOf marker.name) marker.content = .ok markerMeta ∧
    markerMeta.fraisesYamlPath = .str yaml ∧ host.resolve false yaml = .ok resolved ∧
    markerMeta.environment = .str environment ∧
    host.unitExists ((unitOf marker.name).getD []) = some true ∧
    (unitOf marker.name).getD [] ∉ declared

/-- What is planned is the unit's own plan. -/
theorem planUnit_some {unit path : Text} {markerMeta : MarkerMeta} {p : PrunePlan}
    (h : planUnit host environment declared resolved marker unit markerMeta path = .ok (some p)) :
    p.unitName = unit ∧
      ((p.kind = .orphan ∧ p.isTimer = (text ".timer").isSuffixOf unit ∧ path = resolved ∧
          markerMeta.environment = .str environment ∧ host.unitExists unit = some true ∧
          unit ∉ declared) ∨
        (p.kind = .staleMarker ∧ p.isTimer = false)) := by
  unfold planUnit at h
  -- The marker of another configuration or environment is left alone.
  split at h
  · cases h
  next hsame =>
    split at h
    · cases h
    next henv =>
      rw [Bool.not_eq_true', Bool.not_eq_false, isText_iff] at henv
      split at h
      · cases h
      · cases h
        exact ⟨rfl, .inr ⟨rfl, rfl⟩⟩
      next hexists =>
        split at h
        · cases h
        next hdeclared =>
          cases h
          exact ⟨rfl, .inl ⟨rfl, rfl, not_not.mp hsame, henv, hexists, hdeclared⟩⟩

/-- What a pass plans: the removal of the unit, or of a marker alone. -/
theorem planMarker_some {p : PrunePlan}
    (h : planMarker limits exception host environment declared resolved marker = .ok (some p)) :
    p.unitName = (unitOf marker.name).getD [] ∧
      ((p.kind = .orphan ∧ p.isTimer = (text ".timer").isSuffixOf p.unitName ∧
          Removes limits exception host environment declared resolved marker) ∨
        (p.kind = .staleMarker ∧ p.isTimer = false)) := by
  unfold planMarker at h
  dsimp only at h
  -- A marker that cannot be read plans nothing.
  split at h
  · cases h
    exact ⟨rfl, .inr ⟨rfl, rfl⟩⟩
  · cases h
  next markerMeta hread =>
    obtain ⟨path, hpath, h⟩ := Fallible.bind_ok_iff.mp h
    obtain ⟨yaml, hyaml, hresolve⟩ := markerYamlPath_ok_iff.mp hpath
    obtain ⟨hname, ⟨hkind, htimer, rfl, henv, hexists, hdeclared⟩ | hstale⟩ := planUnit_some h
    · exact ⟨hname, .inl ⟨hkind, by rw [htimer, hname], markerMeta, yaml, hread, hyaml, hresolve,
        henv, hexists, hdeclared⟩⟩
    · exact ⟨hname, .inr hstale⟩

/-- A unit that the marker removes is planned. -/
theorem planMarker_of_removes
    (h : Removes limits exception host environment declared resolved marker) :
    ∃ p, planMarker limits exception host environment declared resolved marker = .ok (some p) ∧
      p.kind = .orphan ∧ p.unitName = (unitOf marker.name).getD [] := by
  obtain ⟨markerMeta, yaml, hread, hyaml, hresolve, henv, hexists, hdeclared⟩ := h
  -- The unit is there, is of the environment and is no longer declared.
  have hplan : planUnit host environment declared resolved marker ((unitOf marker.name).getD [])
      markerMeta resolved = .ok (some (removal host marker ((unitOf marker.name).getD []))) := by
    unfold planUnit
    rw [if_neg (not_not.mpr rfl), isText_iff.mpr henv, hexists, Bool.not_true,
      if_neg Bool.false_ne_true]
    exact if_neg hdeclared
  refine ⟨removal host marker ((unitOf marker.name).getD []), ?_, rfl, rfl⟩
  unfold planMarker
  dsimp only
  rw [hread]
  exact Fallible.bind_ok_iff.mpr
    ⟨resolved, markerYamlPath_ok_iff.mpr ⟨yaml, hyaml, hresolve⟩, hplan⟩

/-! ## The plan -/

/-- A marker is found when it is an entry with an accepted name. -/
theorem mem_findMarkers : marker ∈ findMarkers host ↔
    marker ∈ host.entries.getD [] ∧ (unitOf marker.name).any accepts = true := by
  unfold findMarkers
  rw [List.mem_mergeSort, List.mem_filter]

/-- What makes a plan. -/
theorem pruneOrphans_ok_iff {plans : List PrunePlan} :
    pruneOrphans limits exception host configPath fraises environment = .ok plans ↔
      ∃ units resolved found, enumerateScheduledUnits fraises environment = .ok units ∧
        resolvedConfigPath host configPath = .ok resolved ∧
        (findMarkers host).mapM (planMarker limits exception host environment
          (units.map (·.unitName)) resolved) = .ok found ∧
        found.reduceOption.mergeSort (fun p q => p.key ≤ q.key) = plans := by
  unfold pruneOrphans
  constructor
  -- The units are listed, the path is resolved, and each marker is planned for.
  · intro h
    obtain ⟨units, hunits, h⟩ := Fallible.bind_ok_iff.mp h
    obtain ⟨resolved, hresolved, h⟩ := Fallible.bind_ok_iff.mp h
    obtain ⟨found, hfound, h⟩ := Fallible.bind_ok_iff.mp h
    exact ⟨units, resolved, found, hunits, hresolved, hfound, Except.ok.inj h⟩
  · rintro ⟨units, resolved, found, hunits, hresolved, hfound, rfl⟩
    exact Fallible.bind_ok_iff.mpr ⟨units, hunits, Fallible.bind_ok_iff.mpr
      ⟨resolved, hresolved, Fallible.bind_ok_iff.mpr ⟨found, hfound, rfl⟩⟩⟩

/-- A plan that is made removes the orphaned units whose names are accepted. -/
theorem removes_iff {plans : List PrunePlan}
    (h : pruneOrphans limits exception host configPath fraises environment = .ok plans)
    (unit : Text) :
    (∃ p ∈ plans, p.kind = .orphan ∧ p.unitName = unit) ↔
      Orphaned limits exception host configPath fraises environment unit ∧ accepts unit = true := by
  obtain ⟨units, resolved, found, hunits, hresolved, hfound, rfl⟩ := pruneOrphans_ok_iff.mp h
  constructor
  -- What is planned comes from a marker that is found.
  · rintro ⟨p, hp, hkind, rfl⟩
    rw [List.mem_mergeSort, List.reduceOption_mem_iff] at hp
    obtain ⟨marker, hmarker, hplan⟩ := (Fallible.mem_of_mapM_ok hfound).mp hp
    obtain ⟨hmem, haccepts⟩ := mem_findMarkers.mp hmarker
    obtain ⟨unit, hunit, haccepts⟩ := (Option.any_eq_true _ _).mp haccepts
    obtain ⟨hname, hcases⟩ := planMarker_some hplan
    rw [hunit, Option.getD_some] at hname
    obtain ⟨-, -, markerMeta, yaml, hread, hyaml, hsame, henv, hexists, hdeclared⟩ | ⟨hstale, -⟩ := hcases
    · rw [hunit, Option.getD_some] at hexists hdeclared
      rw [hname]
      refine ⟨.intro hresolved hunits hmem (unitOf_eq_some_iff.mp hunit) hread hyaml hsame henv
        hexists fun u hu heq => hdeclared (List.mem_map.mpr ⟨u, hu, heq⟩), haccepts⟩
    · rw [hkind] at hstale
      cases hstale
  -- The marker of an orphan is found, and planned for removal.
  · rintro ⟨@⟨path, yaml, units', marker, markerMeta, hpath, hunits', hmem, hname, hread, hyaml, hsame,
      henv, hexists, hundeclared⟩, haccepts⟩
    rw [hresolved] at hpath
    rw [hunits] at hunits'
    obtain rfl := Except.ok.inj hpath
    obtain rfl := Except.ok.inj hunits'
    have hunit := unitOf_eq_some_iff.mpr hname
    have hdeclared : unit ∉ units.map (·.unitName) := by
      intro hin
      obtain ⟨u, hu, heq⟩ := List.mem_map.mp hin
      exact hundeclared u hu heq
    have hremoves : Removes limits exception host environment (units.map (·.unitName)) resolved
        marker := by
      refine ⟨markerMeta, yaml, hread, hyaml, hsame, henv, ?_⟩
      rw [hunit, Option.getD_some]
      exact ⟨hexists, hdeclared⟩
    obtain ⟨p, hplan, hkind, hp⟩ := planMarker_of_removes hremoves
    rw [hunit, Option.getD_some] at hp
    refine ⟨p, ?_, hkind, hp⟩
    rw [List.mem_mergeSort, List.reduceOption_mem_iff, Fallible.mem_of_mapM_ok hfound]
    exact ⟨marker, mem_findMarkers.mpr ⟨hmem, by rw [hunit]; exact haccepts⟩, hplan⟩

/-- The plan is in order. -/
theorem pruneOrphans_ordered {plans : List PrunePlan}
    (h : pruneOrphans limits exception host configPath fraises environment = .ok plans) :
    plans.Pairwise fun p q => p.group ≤ q.group := by
  obtain ⟨units, resolved, found, hunits, hresolved, hfound, rfl⟩ := pruneOrphans_ok_iff.mp h
  have hsorted : (found.reduceOption.mergeSort fun p q => p.key ≤ q.key).Pairwise
      fun p q => decide (p.key ≤ q.key) = true :=
    List.pairwise_mergeSort (fun p q r hpq hqr => by simp only [decide_eq_true_eq] at *; omega)
      (fun p q => by simp only [Bool.or_eq_true, decide_eq_true_eq]; omega) _
  refine hsorted.imp_of_mem fun {p q} hp hq hle => ?_
  -- The key of a plan is its group and what orders the group.
  have hgroup : ∀ p ∈ found.reduceOption.mergeSort fun p q => p.key ≤ q.key,
      (p.kind = .orphan ∧ p.key = p.group) ∨ (p.group = 2 ∧ p.key = 3) := by
    intro p hp
    rw [List.mem_mergeSort, List.reduceOption_mem_iff, Fallible.mem_of_mapM_ok hfound] at hp
    obtain ⟨marker, -, hplan⟩ := hp
    obtain ⟨-, ⟨hkind, htimer, -⟩ | ⟨hkind, htimer⟩⟩ := planMarker_some hplan
    · refine .inl ⟨hkind, ?_⟩
      unfold PrunePlan.key PrunePlan.group
      rw [if_pos hkind, if_pos hkind, htimer, Nat.zero_add]
    · refine .inr ⟨?_, ?_⟩
      · rw [PrunePlan.group, hkind, if_neg nofun]
      · rw [PrunePlan.key, hkind, htimer, if_neg nofun, if_neg Bool.false_ne_true]
  have hle : p.key ≤ q.key := of_decide_eq_true hle
  have htwo : ∀ p : PrunePlan, p.kind = .orphan → p.group ≤ 1 := by
    intro p hkind
    rw [PrunePlan.group, if_pos hkind]
    split <;> omega
  -- The group of a plan is read off its key.
  obtain ⟨hkp, hp⟩ | ⟨hgp, hp⟩ := hgroup p hp
  · obtain ⟨-, hq⟩ | ⟨hgq, hq⟩ := hgroup q hq
    · omega
    · have := htwo p hkp
      omega
  · obtain ⟨hkq, hq⟩ | ⟨hgq, hq⟩ := hgroup q hq
    · have := htwo q hkq
      omega
    · omega

/-- Where pruning is exact, everything there is prunable. -/
theorem Prunable.of_prunesExactly
    (h : PrunesExactly limits exception host configPath fraises environment) :
    Prunable limits exception host configPath fraises environment := by
  obtain ⟨plans, hplans, hexact, -⟩ := h
  obtain ⟨units, resolved, found, hunits, hresolved, hfound, -⟩ := pruneOrphans_ok_iff.mp hplans
  refine ⟨⟨units, hunits⟩, ⟨resolved, hresolved, fun marker hmem haccepts => ?_⟩, fun unit horphaned => ?_⟩
  · exact exists_planMarker_iff.mp
      (Fallible.exists_mapM_ok_iff.mp ⟨found, hfound⟩ marker (mem_findMarkers.mpr ⟨hmem, haccepts⟩))
  · exact ((removes_iff hplans unit).mp ((hexact unit).mpr horphaned)).2

/-- A prune plans exactly the orphans when the configuration can be read, no accepted marker stops
it, and no orphaned unit has a name that is not accepted. -/
theorem prunes_exactly_iff (limits : Limits) (exception : Text → Text) (host : Host)
    (configPath : Text) (fraises : Yaml) (environment : Text) :
    PrunesExactly limits exception host configPath fraises environment ↔
      Prunable limits exception host configPath fraises environment := by
  refine ⟨.of_prunesExactly, ?_⟩
  rintro ⟨⟨units, hunits⟩, ⟨resolved, hresolved, hmarkers⟩, hnames⟩
  obtain ⟨found, hfound⟩ : ∃ found, (findMarkers host).mapM (planMarker limits exception host
      environment (units.map (·.unitName)) resolved) = .ok found :=
    Fallible.exists_mapM_ok_iff.mpr fun marker hmarker =>
      exists_planMarker_iff.mpr (hmarkers marker (mem_findMarkers.mp hmarker).1
        (mem_findMarkers.mp hmarker).2)
  have hplans := pruneOrphans_ok_iff.mpr ⟨units, resolved, found, hunits, hresolved, hfound, rfl⟩
  refine ⟨_, hplans, fun unit => ?_, pruneOrphans_ordered hplans⟩
  rw [removes_iff hplans]
  exact and_iff_left_of_imp (hnames unit)

/-- A marker that is no UTF-8. -/
def plantedMarker : Entry := ⟨text "a.timer.fraisier-managed", .ok [0xFF]⟩

/-- A host with nothing else. -/
def plantedHost : Host where
  destDir := text "/etc/systemd/system"
  entries := some [plantedMarker]
  resolve _ s := .ok s
  unitExists _ := some true

/-- It stops every prune. -/
theorem planted_stops : ¬PrunesExactly ⟨990, 990⟩ id plantedHost (text "/etc/fraises.yaml") (.map [])
    (text "production") := by
  intro h
  obtain ⟨resolved, -, hmarkers⟩ := (Prunable.of_prunesExactly h).markers
  obtain ⟨message, hread⟩ | ⟨_, _, _, hread, -⟩ :=
    hmarkers plantedMarker List.mem_cons_self (by decide)
  · cases hread
  · cases hread

end Fraisier.Prune
