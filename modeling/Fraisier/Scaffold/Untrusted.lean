import Fraisier.Lib.Fallible
import Fraisier.Lib.JsonIndent
import Fraisier.Lib.JsonValue
import Fraisier.Scaffold.Apply

/-!
# A manifest that anyone may have written

`_new_artifacts` of `scaffold_apply.py` reads `artifact-manifest.json` out of a directory that an
application's user can write. `newArtifacts_iff` says for which bytes it returns: it looks at the
type of the manifest and of its `hosts`, and at no other. What the renderer writes with
`dump_manifest` is read as it was meant.
-/

namespace Fraisier.Scaffold.Untrusted

open Fraisier.Lib Str Json Unicode Fallible Fraisier.Unit

/-! ## Reading -/

/-- The interpreter. A text is its own `str`. -/
structure Interpreter where
  str : Json → Text
  str_text : ∀ s, str (.str s) = s
  str_null : str .null = text "None"
  /-- How deep containers may be nested in `str`. -/
  shown : ℕ
  /-- How deep they may be in a comparison. -/
  compared : ℕ
  /-- How much deeper than the renderer's manifests `json.loads` reads. -/
  spare : ℕ

/-- How `read_tree` ends, unless it raises an error of the system. -/
inductive Read
  | file (bytes : List ℕ)
  | missing
  /-- `UnsafeTreeError`. -/
  | unsafeTree (why : Text)

/-- What is raised. -/
inductive Raised
  | loads (e : LoadsError)
  | use (e : UseError)
  deriving DecidableEq, Repr

/-- The code points of a text. -/
def points (s : Str) : Text := s.map chr

section Reading

variable (py : Interpreter)

/-- `str(v)`. -/
def shownText (v : Json) : Except UseError Text := py.str <$> v.shown py.shown

/-- `host_gate_open`. -/
def hostGateOpen (artifact : List (Text × Json)) (host : Json) : Except UseError Bool := do
  let fraise := getD artifact "fraise" .null
  let environment := getD artifact "environment" .null
  if fraise.truthy then do
    let host ← host.members
    let scopes := (getD host "scopes" .null).orElse (.arr [])
    let fraise ← shownText py fraise
    let environment ← shownText py environment
    if ← scopes.contains py.compared (.str (fraise ++ text ":" ++ environment)) then pure true
    else scopes.contains py.compared (.str (text "*:" ++ environment))
  else if environment.truthy then do
    let host ← host.members
    ((getD host "environments" .null).orElse (.arr [])).contains py.compared environment
  else pure true

/-- `install.sh` would copy an artifact with a destination on the host. -/
def gate (artifact : List (Text × Json)) (host : Json) : Except UseError Bool :=
  if (getD artifact "disposition" .null).isStr "webhook" then do
    let host ← host.members
    (getD artifact "source" .null).equalTo py.compared (getD host "webhook" .null)
  else hostGateOpen py artifact host

/-- The destination of an artifact, if it is one that is copied. -/
def chosenDestination (host artifact : Json) : Except UseError (Option Json) := do
  let artifact ← artifact.members
  let destination := getD artifact "destination" .null
  if !destination.truthy then pure none
  else if ← gate py artifact host then pure (some destination)
  else pure none

/-- The destinations of `host_artifacts`. -/
def hostArtifacts (payload : List (Text × Json)) (hostname : Text) :
    Except UseError (Option (List Json)) :=
  match getD payload "hosts" .null with
  | .obj hosts =>
    match hosts.lookup hostname with
    | none => .ok none
    | some host => do
      let artifacts ← ((getD payload "artifacts" .null).orElse (.arr [])).iter
      let chosen ← artifacts.mapM (chosenDestination py host)
      pure (some chosen.reduceOption)
  | _ => .ok none

/-- `_known_destinations`. -/
def known (policy : RootPolicy) : List Text := (knownDestinations policy).map points

/-- The message about an artifact. -/
def freshMessage (destination : Text) : Text :=
  destination ++ text ": new, never approved by an operator"

/-- The message when the host is none of the manifest's. -/
def notInRender (hostname : Text) : Text :=
  text "artifact-manifest.json: this host (" ++ hostname ++ text ") is not in the render"

/-- The destinations that no operator approved. -/
def fresh (policy : RootPolicy) (destinations : List Text) : List Text :=
  ((destinations.filter (· ∉ known policy)).dedup).insertionSort (· ≤ ·)

/-- `_new_artifacts` of a payload that was loaded. -/
def judgePayload (policy : RootPolicy) (hostname : Text) : Json → Except UseError (List Text)
  | .obj payload => do
    match ← hostArtifacts py payload hostname with
    | none => pure [notInRender hostname]
    | some chosen => do
      let destinations ← chosen.mapM (shownText py)
      pure ((fresh policy destinations).map freshMessage)
  | _ => .ok [text "artifact-manifest.json: not a manifest"]

/-- `_new_artifacts`. -/
def newArtifacts (policy : RootPolicy) (hostname : Text) : Read → Except Raised (List Text)
  | .unsafeTree why => .ok [text "artifact-manifest.json: " ++ why]
  | .missing => .ok [text "artifact-manifest.json: not in the render"]
  | .file bytes =>
    match loads (py.spare + 4) bytes with
    | .error .unicodeDecodeError | .error .jsonDecodeError =>
      .ok [text "artifact-manifest.json: not valid JSON"]
    | .error e => .error (.loads e)
    | .ok payload =>
      match judgePayload py policy hostname payload with
      | .ok messages => .ok messages
      | .error e => .error (.use e)

end Reading

/-! ## Writing -/

/-- `RenderedArtifact`. -/
structure RenderedArtifact extends Artifact where
  mode : Option ℕ := none
  note : Option Str := none
  sha256 : Option Str := none

/-- `AppManagedUnit`. -/
structure AppManagedUnit where
  unitName : Str
  sourceDir : Str
  installer : Str
  environment : Option Str := none
  fraise : Option Str := none

/-- `ArtifactManifest`. -/
structure ArtifactManifest where
  artifacts : List RenderedArtifact
  appManaged : List AppManagedUnit
  batchHash : Str
  hosts : AList fun _ : Str => HostScope

/-- `MANIFEST_SCHEMA_VERSION`. -/
def manifestSchemaVersion : ℤ := 2

/-- A text. -/
def strJson (s : Str) : Json := .str (points s)

/-- A value, or `null`. -/
def optional {α : Type} (f : α → Json) : Option α → Json
  | none => .null
  | some a => f a

/-- An entry of `artifacts`. -/
def RenderedArtifact.members (a : RenderedArtifact) : List (Text × Json) :=
  [(text "source", strJson a.source), (text "disposition", strJson a.disposition),
    (text "destination", optional strJson a.destination),
    (text "mode", optional (fun mode : ℕ => .int mode) a.mode),
    (text "fraise", optional strJson a.fraise),
    (text "environment", optional strJson a.environment),
    (text "sha256", optional strJson a.sha256), (text "note", optional strJson a.note)]

/-- An entry of `app_managed`. -/
def AppManagedUnit.members (u : AppManagedUnit) : List (Text × Json) :=
  [(text "unit_name", strJson u.unitName), (text "source_dir", strJson u.sourceDir),
    (text "installer", strJson u.installer), (text "fraise", optional strJson u.fraise),
    (text "environment", optional strJson u.environment)]

/-- An entry of `hosts`. -/
def hostMembers (h : HostScope) : List (Text × Json) :=
  [(text "scopes", .arr (h.scopes.map strJson)),
    (text "environments", .arr (h.environments.map strJson)),
    (text "webhook", optional strJson h.webhook)]

/-- The entries of `hosts`. -/
def ArtifactManifest.hostEntries (m : ArtifactManifest) : List (Text × Json) :=
  m.hosts.entries.map fun item => (points item.1, .obj (hostMembers item.2))

/-- The payload of a manifest. -/
def ArtifactManifest.members (m : ArtifactManifest) : List (Text × Json) :=
  [(text "schema_version", .int manifestSchemaVersion), (text "batch_hash", strJson m.batchHash),
    (text "artifacts", .arr (m.artifacts.map fun a => .obj a.members)),
    (text "app_managed", .arr (m.appManaged.map fun u => .obj u.members)),
    (text "hosts", .obj m.hostEntries)]

/-- `dump_manifest`. A number that is too long for `str` is a `ValueError`. -/
def dumpManifest (m : ArtifactManifest) : Option Text :=
  if m.artifacts.all fun a => a.mode.all fun mode => digits mode ≤ maxStrDigits then
    some (dumpsSorted (.obj m.members) ++ [chr '\n'])
  else none

/-! ## The right list -/

/-- The messages name the artifacts of this host that the policy does not know, each once and in
order, when the manifest has the host. -/
def Names (policy : RootPolicy) (hostname : Str) (m : ArtifactManifest) (messages : List Text) :
    Prop :=
  match m.hosts.lookup hostname with
  | none => messages = [notInRender (points hostname)]
  | some host => ∃ destinations : List Text, messages = destinations.map freshMessage ∧
    destinations.Pairwise (· < ·) ∧ ∀ d, d ∈ destinations ↔ ∃ a ∈ m.artifacts,
      chosenOn host a.toArtifact = true ∧ d = points a.dest ∧ a.dest ∉ knownDestinations policy

/-- A list is returned, and it is the right one for the renderer's manifests. -/
def Handles (py : Interpreter) (policy : RootPolicy) (hostname : Str) (bytes : List ℕ) : Prop :=
  ∃ messages, newArtifacts py policy (points hostname) (.file bytes) = .ok messages ∧
    ∀ m written, dumpManifest m = some written → bytes = written.map (·.val) →
      Names policy hostname m messages

/-! ## What can be read -/

/-- The value is searched for an item: it is falsy, a list whose items can be compared with it, an
object when the item is no container, or a text when the item is one. -/
def Searchable (py : Interpreter) (item v : Json) : Prop :=
  v.truthy = false ∨ (∃ vs b, v = .arr vs ∧ memberOf py.compared item vs = .ok b) ∨
    (∃ ms k, v = .obj ms ∧ item.key = .ok k) ∨ ∃ s t, v = .str s ∧ item = .str t

/-- The host's entry decides on the artifact: it is an object, unless nothing of it is asked; what
is asked of it can be searched; and what is shown is not too deep. -/
def GateRead (py : Interpreter) (artifact : List (Text × Json)) (host : Json) : Prop :=
  if (getD artifact "disposition" .null).isStr "webhook" then
    ∃ ms b, host = .obj ms ∧
      (getD artifact "source" .null).equalTo py.compared (getD ms "webhook" .null) = .ok b
  else if (getD artifact "fraise" .null).truthy then
    (getD artifact "fraise" .null).depth ≤ py.shown ∧
      (getD artifact "environment" .null).depth ≤ py.shown ∧
      ∃ ms, host = .obj ms ∧ ((getD ms "scopes" .null).truthy = false ∨
        (∃ vs, getD ms "scopes" .null = .arr vs) ∨ (∃ s, getD ms "scopes" .null = .str s) ∨
        ∃ entries, getD ms "scopes" .null = .obj entries)
  else if (getD artifact "environment" .null).truthy then
    ∃ ms, host = .obj ms ∧
      Searchable py (getD artifact "environment" .null) (getD ms "environments" .null)
  else True

/-- An entry of `artifacts` is an object. With a destination, the host's entry decides on it, and
the destination can be shown when it is chosen. -/
def ArtifactRead (py : Interpreter) (host artifact : Json) : Prop :=
  ∃ ms, artifact = .obj ms ∧ ((getD ms "destination" .null).truthy = true →
    GateRead py ms host ∧
      (gate py ms host = .ok true → (getD ms "destination" .null).depth ≤ py.shown))

/-- The payload is no object, or has no entry for the host under `hosts`, or its `artifacts` are
falsy or a list of entries that can be read. -/
def PayloadRead (py : Interpreter) (hostname : Text) (payload : Json) : Prop :=
  ∀ ms hosts host, payload = .obj ms → getD ms "hosts" .null = .obj hosts →
    hosts.lookup hostname = some host → (getD ms "artifacts" .null).truthy = true →
      ∃ artifacts, getD ms "artifacts" .null = .arr artifacts ∧
        ∀ artifact ∈ artifacts, ArtifactRead py host artifact

/-- The bytes are no JSON text, or one that can be read. -/
def Readable (py : Interpreter) (hostname : Text) (bytes : List ℕ) : Prop :=
  match loads (py.spare + 4) bytes with
  | .ok payload => PayloadRead py hostname payload
  | .error e => e = .unicodeDecodeError ∨ e = .jsonDecodeError

variable {py : Interpreter} {v w : Json} {s : Text} {n : ℕ}

/-! ## Texts in containers -/

/-- A comparison with a text needs no recursion. -/
theorem equals_str (n : ℕ) (v : Json) (s : Text) : v.equals n (.str s) = .ok (sameKey v (.str s)) := by
  cases n <;> cases v <;> rfl

/-- Only a text is equal to a text. -/
theorem sameKey_str_iff : sameKey v (.str s) = true ↔ v = .str s := by
  cases v <;> simp [sameKey, key]

/-- Texts can be compared with anything. -/
theorem memberOf_str (n : ℕ) (s : Text) (vs : List Json) :
    memberOf n (.str s) vs = .ok (vs.any fun v => sameKey v (.str s)) := by
  induction vs with
  | nil => rfl
  | cons v vs ih =>
    rw [memberOf, equals_str, List.any_cons]
    cases sameKey v (.str s)
    · exact ih
    · rfl

/-- A text is searched for in a list, an object or a text. -/
theorem exists_contains_str_iff : (∃ b, v.contains n (.str s) = .ok b) ↔
    (∃ vs, v = .arr vs) ∨ (∃ t, v = .str t) ∨ ∃ ms, v = .obj ms := by
  cases v with
  | arr vs => simp [contains, memberOf_str]
  | obj ms => simp [contains, key, bind, Except.bind, pure, Except.pure]
  | str t => simp [contains]
  | _ => simp [contains]

/-- The default stands for a false value. -/
theorem orElse_of_falsy (h : v.truthy = false) : v.orElse w = w := by
  rw [orElse, h]
  rfl

/-- A true value stands for itself. -/
theorem orElse_of_truthy (h : v.truthy = true) : v.orElse w = v := by
  rw [orElse, if_pos h]

/-- What can be searched for a text. -/
theorem exists_contains_iff : (∃ b, (v.orElse (.arr [])).contains n (.str s) = .ok b) ↔
    v.truthy = false ∨ (∃ vs, v = .arr vs) ∨ (∃ t, v = .str t) ∨ ∃ ms, v = .obj ms := by
  cases htruthy : v.truthy with
  | false =>
    rw [orElse_of_falsy htruthy]
    exact ⟨fun _ => .inl rfl, fun _ => ⟨false, rfl⟩⟩
  | true =>
    rw [orElse_of_truthy htruthy, exists_contains_str_iff]
    simp

/-- What can be searched for an item. -/
theorem searchable_iff {item : Json} :
    (∃ b, (v.orElse (.arr [])).contains py.compared item = .ok b) ↔ Searchable py item v := by
  unfold Searchable
  -- An empty list stands for what is false, and otherwise the kind of the value decides.
  cases htruthy : v.truthy with
  | false =>
    rw [orElse_of_falsy htruthy]
    exact ⟨fun _ => .inl rfl, fun _ => ⟨false, rfl⟩⟩
  | true =>
    rw [orElse_of_truthy htruthy]
    cases v with
    | arr vs => simp [contains]
    | obj ms =>
      simp only [contains, bind_ok_iff]
      constructor
      · rintro ⟨b, k, hk, -⟩
        exact .inr (.inr (.inl ⟨ms, k, rfl, hk⟩))
      · rintro (h | ⟨vs, b, h, -⟩ | ⟨ms', k, -, hk⟩ | ⟨t, s, h, -⟩)
        · cases h
        · cases h
        · exact ⟨_, k, hk, rfl⟩
        · cases h
    | str t =>
      cases item <;> simp [contains]
    | _ => simp [contains]

/-! ## The gate -/

/-- A value is shown if it is not nested too deep. -/
theorem shownText_ok_iff {t : Text} : shownText py v = .ok t ↔ v.depth ≤ py.shown ∧ py.str v = t := by
  rw [shownText, map_ok_iff]
  simp only [shown_ok_iff]
  constructor
  · rintro ⟨w, ⟨hdepth, rfl⟩, rfl⟩
    exact ⟨hdepth, rfl⟩
  · rintro ⟨hdepth, rfl⟩
    exact ⟨v, ⟨hdepth, rfl⟩, rfl⟩

/-- What the entry of the host has to be like for the artifact. -/
theorem gateRead_iff {artifact : List (Text × Json)} {host : Json} :
    (∃ b, gate py artifact host = .ok b) ↔ GateRead py artifact host := by
  unfold gate GateRead
  split
  · -- the webhook's source is compared
    simp only [bind_ok_iff, members_ok_iff]
    constructor
    · rintro ⟨b, ms, hhost, hb⟩
      exact ⟨ms, b, hhost, hb⟩
    · rintro ⟨ms, b, hhost, hb⟩
      exact ⟨b, ms, hhost, hb⟩
  · unfold hostGateOpen
    dsimp only
    split
    · -- both texts are searched for in the scopes, one as well as the other
      simp only [bind_ok_iff, members_ok_iff, shownText_ok_iff]
      constructor
      · rintro ⟨b, ms, hhost, f, ⟨hfraise, -⟩, e, ⟨henvironment, -⟩, found, hfound, -⟩
        exact ⟨hfraise, henvironment, ms, hhost, exists_contains_iff.mp ⟨found, hfound⟩⟩
      · rintro ⟨hfraise, henvironment, ms, hhost, hscopes⟩
        obtain ⟨found, hfound⟩ := exists_contains_iff.mpr hscopes
        obtain ⟨found', hfound'⟩ := exists_contains_iff.mpr hscopes
        refine ⟨if found then true else found', ms, hhost, _, ⟨hfraise, rfl⟩, _,
          ⟨henvironment, rfl⟩, found, hfound, ?_⟩
        cases found
        · exact hfound'
        · rfl
    -- An artifact of no fraise and no environment is installed everywhere.
    · split
      · simp only [bind_ok_iff, members_ok_iff]
        constructor
        · rintro ⟨b, ms, hhost, hb⟩
          exact ⟨ms, hhost, searchable_iff.mp ⟨b, hb⟩⟩
        · rintro ⟨ms, hhost, hsearch⟩
          obtain ⟨b, hb⟩ := searchable_iff.mpr hsearch
          exact ⟨b, ms, hhost, hb⟩
      · exact ⟨fun _ => trivial, fun _ => ⟨true, rfl⟩⟩

/-! ## What returns -/

/-- The destination of an artifact is chosen by the gate, if it has one. -/
theorem chosenDestination_iff {host artifact : Json} {o : Option Json} :
    chosenDestination py host artifact = .ok o ↔ ∃ ms, artifact = .obj ms ∧
      (if (getD ms "destination" .null).truthy then ∃ b, gate py ms host = .ok b ∧
        o = (if b then some (getD ms "destination" .null) else none) else o = none) := by
  simp only [chosenDestination, bind_ok_iff, members_ok_iff]
  refine exists_congr fun ms => and_congr_right fun _ => ?_
  cases (getD ms "destination" .null).truthy with
  | false => simp [pure, Except.pure, eq_comm]
  | true =>
    simp only [Bool.not_true, Bool.false_eq_true, if_false, if_true, bind_ok_iff]
    refine exists_congr fun b => and_congr_right fun _ => ?_
    cases b <;> simp [pure, Except.pure, eq_comm]

/-- The artifacts are chosen, and the destinations of those that are can be shown. -/
theorem artifactRead_iff {host artifact : Json} : ArtifactRead py host artifact ↔
    ∃ o, chosenDestination py host artifact = .ok o ∧ ∀ d, o = some d → d.depth ≤ py.shown := by
  simp only [ArtifactRead, chosenDestination_iff, ← gateRead_iff]
  constructor
  -- A destination that does not count is not looked at.
  · rintro ⟨ms, rfl, hread⟩
    cases htruthy : (getD ms "destination" .null).truthy with
    | false => exact ⟨none, ⟨ms, rfl, by simp [htruthy]⟩, nofun⟩
    | true =>
      obtain ⟨⟨b, hb⟩, hshown⟩ := hread htruthy
      refine ⟨if b then some (getD ms "destination" .null) else none,
        ⟨ms, rfl, by simp only [htruthy, if_true]; exact ⟨b, hb, rfl⟩⟩, ?_⟩
      intro d hd
      cases b with
      | false => cases hd
      | true =>
        obtain rfl := Option.some.inj hd
        exact hshown hb
  · rintro ⟨o, ⟨ms, rfl, ho⟩, hshown⟩
    refine ⟨ms, rfl, fun htruthy => ?_⟩
    rw [if_pos htruthy] at ho
    obtain ⟨b, hb, rfl⟩ := ho
    refine ⟨⟨b, hb⟩, fun hchosen => hshown _ ?_⟩
    rw [hb] at hchosen
    rw [Except.ok.inj hchosen]
    rfl

/-- The artifacts of a host are shown when each entry can be read. -/
theorem exists_shown_iff {host : Json} {artifacts : List Json} :
    (∃ os, artifacts.mapM (chosenDestination py host) = .ok os ∧
      ∃ texts, os.reduceOption.mapM (shownText py) = .ok texts) ↔
      ∀ artifact ∈ artifacts, ArtifactRead py host artifact := by
  simp only [exists_mapM_ok_iff, artifactRead_iff]
  -- The entries are read first, and then what was read is shown.
  constructor
  · rintro ⟨os, hos, hshown⟩ artifact hartifact
    obtain ⟨o, ho⟩ := exists_mapM_ok_iff.mp ⟨os, hos⟩ artifact hartifact
    refine ⟨o, ho, ?_⟩
    rintro d rfl
    have hmem : some d ∈ os := (mem_of_mapM_ok hos).mpr ⟨artifact, hartifact, ho⟩
    obtain ⟨t, ht⟩ := hshown d (List.reduceOption_mem_iff.mpr hmem)
    exact (shownText_ok_iff.mp ht).1
  · intro h
    obtain ⟨os, hos⟩ := exists_mapM_ok_iff.mpr fun artifact hartifact =>
      (h artifact hartifact).imp fun _ ho => ho.1
    refine ⟨os, hos, fun d hd => ?_⟩
    obtain ⟨artifact, hartifact, ho⟩ := (mem_of_mapM_ok hos).mp (List.reduceOption_mem_iff.mp hd)
    obtain ⟨o, ho', hshown⟩ := h artifact hartifact
    obtain rfl := Except.ok.inj (ho.symm.trans ho')
    exact ⟨_, shownText_ok_iff.mpr ⟨hshown d rfl, rfl⟩⟩

/-- The members of an object and the characters of a text are no entries. -/
theorem iter_of_truthy {host : Json} (htruthy : v.truthy = true) :
    (∃ items, v.iter = .ok items ∧ ∀ item ∈ items, ArtifactRead py host item) ↔
      ∃ items, v = .arr items ∧ ∀ item ∈ items, ArtifactRead py host item := by
  have hstr : ∀ t, ¬ArtifactRead py host (.str t) := fun t ⟨ms, h, _⟩ => by cases h
  cases v with
  | arr items => simp [iter]
  | obj ms =>
    cases ms with
    | nil => cases htruthy
    | cons member ms => simp [iter, hstr]
  | str t =>
    cases t with
    | nil => cases htruthy
    | cons c t => simp [iter, hstr]
  | _ => simp [iter]

/-- A host that the manifest does not have. -/
theorem hostArtifacts_none {ms : List (Text × Json)} {hostname : Text}
    (h : ¬∃ hosts host, getD ms "hosts" .null = .obj hosts ∧ hosts.lookup hostname = some host) :
    hostArtifacts py ms hostname = .ok none := by
  unfold hostArtifacts
  split
  · rename_i hosts hhosts
    split
    · rfl
    · rename_i host hhost
      exact (h ⟨hosts, host, hhosts, hhost⟩).elim
  · rfl

/-- The payloads of which messages are made. -/
theorem payloadRead_iff (policy : RootPolicy) {hostname : Text} {payload : Json} :
    (∃ messages, judgePayload py policy hostname payload = .ok messages) ↔
      PayloadRead py hostname payload := by
  cases payload with
  | obj ms =>
    -- The host has to be registered before its artifacts are looked at.
    by_cases hregistered : ∃ hosts host, getD ms "hosts" .null = .obj hosts ∧
        hosts.lookup hostname = some host
    · obtain ⟨hosts, host, hhosts, hhost⟩ := hregistered
      have hpayload : PayloadRead py hostname (.obj ms) ↔
          ((getD ms "artifacts" .null).truthy = true → ∃ artifacts,
            getD ms "artifacts" .null = .arr artifacts ∧
              ∀ artifact ∈ artifacts, ArtifactRead py host artifact) := by
        constructor
        · intro h
          exact h ms hosts host rfl hhosts hhost
        · rintro h ms' hosts' host' hms' hhosts' hhost'
          obtain rfl := Json.obj.inj hms'
          obtain rfl := Json.obj.inj (hhosts.symm.trans hhosts')
          obtain rfl := Option.some.inj (hhost.symm.trans hhost')
          exact h
      have hjudge : (∃ messages, judgePayload py policy hostname (.obj ms) = .ok messages) ↔
          ∃ items, ((getD ms "artifacts" .null).orElse (.arr [])).iter = .ok items ∧
            ∀ item ∈ items, ArtifactRead py host item := by
        simp only [judgePayload, hostArtifacts, hhosts, hhost, bind_ok_iff, ← exists_shown_iff]
        constructor
        · rintro ⟨messages, chosen, ⟨items, hitems, os, hos, hchosen⟩, hmessages⟩
          obtain rfl := Except.ok.inj hchosen
          obtain ⟨texts, htexts, -⟩ := bind_ok_iff.mp hmessages
          exact ⟨items, hitems, os, hos, texts, htexts⟩
        · rintro ⟨items, hitems, os, hos, texts, htexts⟩
          exact ⟨_, _, ⟨items, hitems, os, hos, rfl⟩, bind_ok_iff.mpr ⟨texts, htexts, rfl⟩⟩
      rw [hpayload, hjudge]
      cases htruthy : (getD ms "artifacts" .null).truthy with
      | false =>
        rw [orElse_of_falsy htruthy]
        exact ⟨fun _ => nofun, fun _ => ⟨[], rfl, nofun⟩⟩
      | true =>
        rw [orElse_of_truthy htruthy, iter_of_truthy htruthy]
        exact ⟨fun h _ => h, fun h => h rfl⟩
    · have hread : PayloadRead py hostname (.obj ms) := by
        rintro ms' hosts host hms' hhosts hhost
        obtain rfl := Json.obj.inj hms'
        exact (hregistered ⟨hosts, host, hhosts, hhost⟩).elim
      refine ⟨fun _ => hread, fun _ => ⟨[notInRender hostname], ?_⟩⟩
      rw [judgePayload, hostArtifacts_none hregistered]
      rfl
  | _ => exact ⟨fun _ => nofun, fun _ => ⟨_, rfl⟩⟩

/-- The bytes for which a list is returned. -/
theorem exists_newArtifacts_iff {policy : RootPolicy} {hostname : Text} {bytes : List ℕ} :
    (∃ messages, newArtifacts py policy hostname (.file bytes) = .ok messages) ↔
      Readable py hostname bytes := by
  cases hloads : loads (py.spare + 4) bytes with
  | error e => cases e <;> simp [newArtifacts, Readable, hloads]
  | ok payload =>
    simp only [newArtifacts, Readable, hloads, ← payloadRead_iff policy]
    cases judgePayload py policy hostname payload <;> simp

/-! ## What the renderer writes -/

variable {a : RenderedArtifact} {host : HostScope} {m : ArtifactManifest} {k l : Str}

/-- The code points of a text determine it. -/
theorem points_injective : Function.Injective points := by
  refine List.map_injective_iff.mpr fun c d h => ?_
  have hval := congrArg Fin.val h
  rw [chr_val, chr_val] at hval
  exact Char.toNat_inj.mp hval

/-- A text of Lean has no surrogates to join. -/
theorem apart_points (s : Str) : Apart (points s) := by
  have happart := apart_text (String.ofList s)
  rwa [text, String.toList_ofList] at happart

/-- A text is a plain value. -/
theorem plain_strJson (s : Str) : Plain (strJson s) := apart_points s

/-- A text or nothing is a plain value. -/
theorem plain_optional (o : Option Str) : Plain (optional strJson o) := by
  cases o with
  | none => trivial
  | some s => exact plain_strJson s

/-- A text or nothing has no keys to sort. -/
theorem sortKeys_optional (o : Option Str) : sortKeys (optional strJson o) = optional strJson o := by
  cases o <;> rfl

/-- A list of texts has no keys to sort. -/
theorem sortKeys_strs (l : List Str) : sortKeys (.arr (l.map strJson)) = .arr (l.map strJson) := by
  rw [sortKeys, sortItems_eq, List.map_map]
  rfl

/-- The keys of an artifact are distinct. -/
theorem keys_artifact (a : RenderedArtifact) : (a.members.map Prod.fst).Nodup := by
  have hkeys : a.members.map Prod.fst = ["source", "disposition", "destination", "mode", "fraise",
      "environment", "sha256", "note"].map text := rfl
  rw [hkeys]
  decide

/-- The keys of a host are distinct. -/
theorem keys_host (h : HostScope) : ((hostMembers h).map Prod.fst).Nodup := by
  have hkeys : (hostMembers h).map Prod.fst = ["scopes", "environments", "webhook"].map text := rfl
  rw [hkeys]
  decide

/-- The names of the hosts are distinct. -/
theorem keys_hosts (m : ArtifactManifest) : (m.hostEntries.map Prod.fst).Nodup := by
  have hkeys : m.hostEntries.map Prod.fst = m.hosts.keys.map points := by
    rw [ArtifactManifest.hostEntries, AList.keys, List.keys, List.map_map, List.map_map]
    rfl
  rw [hkeys]
  exact m.hosts.keys_nodup.map points_injective

/-- The keys of a manifest are distinct. -/
theorem keys_manifest (m : ArtifactManifest) : (m.members.map Prod.fst).Nodup := by
  have hkeys : m.members.map Prod.fst =
      ["schema_version", "batch_hash", "artifacts", "app_managed", "hosts"].map text := rfl
  rw [hkeys]
  decide

/-- An artifact is a plain value when its mode has no more digits than `int` takes. -/
theorem plain_artifact (h : ∀ mode, a.mode = some mode → digits mode ≤ maxStrDigits) :
    Plain (.obj a.members) := by
  have hmode : Plain (optional (fun mode : ℕ => .int mode) a.mode) := by
    cases hmode : a.mode with
    | none => trivial
    | some mode => exact h mode hmode
  exact ⟨keys_artifact a, apart_text _, plain_strJson _, apart_text _, plain_strJson _,
    apart_text _, plain_optional _, apart_text _, hmode, apart_text _, plain_optional _,
    apart_text _, plain_optional _, apart_text _, plain_optional _, apart_text _, plain_optional _,
    trivial⟩

/-- An app's unit is a plain value. -/
theorem plain_unit (u : AppManagedUnit) : Plain (.obj u.members) :=
  ⟨of_decide_eq_true rfl, apart_text _, plain_strJson _, apart_text _, plain_strJson _,
    apart_text _, plain_strJson _, apart_text _, plain_optional _, apart_text _, plain_optional _,
    trivial⟩

/-- A list of texts is a plain value. -/
theorem plain_strs (l : List Str) : Plain (.arr (l.map strJson)) := by
  refine plainItems fun v hv => ?_
  obtain ⟨s, -, rfl⟩ := List.mem_map.mp hv
  exact plain_strJson s

/-- A host is a plain value. -/
theorem plain_host (h : HostScope) : Plain (.obj (hostMembers h)) :=
  ⟨keys_host h, apart_text _, plain_strs _, apart_text _, plain_strs _, apart_text _,
    plain_optional _, trivial⟩

/-- A manifest is a plain value when its modes have no more digits than `int` takes. -/
theorem plain_manifest (h : ∀ a ∈ m.artifacts, ∀ mode, a.mode = some mode →
    digits mode ≤ maxStrDigits) : Plain (.obj m.members) := by
  -- The artifacts, the units, the hosts and the version are plain.
  have hartifacts : Plain (.arr (m.artifacts.map fun a => .obj a.members)) := by
    refine plainItems fun v hv => ?_
    obtain ⟨a, ha, rfl⟩ := List.mem_map.mp hv
    exact plain_artifact (h a ha)
  have hunits : Plain (.arr (m.appManaged.map fun u => .obj u.members)) := by
    refine plainItems fun v hv => ?_
    obtain ⟨u, -, rfl⟩ := List.mem_map.mp hv
    exact plain_unit u
  have hhosts : Plain (.obj m.hostEntries) := by
    refine ⟨keys_hosts m, plainMembers_iff.mpr fun member hmember => ?_⟩
    obtain ⟨item, -, rfl⟩ := List.mem_map.mp hmember
    exact ⟨apart_points item.1, plain_host item.2⟩
  have hversion : Plain (.int manifestSchemaVersion) :=
    show digits manifestSchemaVersion ≤ maxStrDigits by decide
  exact ⟨keys_manifest m, apart_text _, hversion, apart_text _, plain_strJson _, apart_text _,
    hartifacts, apart_text _, hunits, apart_text _, hhosts, trivial⟩

/-- A text is not nested. -/
theorem depth_strJson (s : Str) : depth (strJson s) = 0 := rfl

/-- A scalar or nothing is not nested. -/
theorem depth_optional {α : Type} {f : α → Json} (hf : ∀ a, depth (f a) = 0) (o : Option α) :
    depth (optional f o) = 0 := by
  cases o with
  | none => rfl
  | some a => exact hf a

/-- A list of texts is nested once. -/
theorem depth_strs (l : List Str) : depth (.arr (l.map strJson)) ≤ 1 := by
  refine Nat.succ_le_succ (depthItems_le fun v hv => ?_)
  obtain ⟨s, -, rfl⟩ := List.mem_map.mp hv
  exact Nat.le_refl 0

/-- An artifact is nested once. -/
theorem depth_artifact (a : RenderedArtifact) : depth (.obj a.members) ≤ 1 := by
  have hmode : depth (optional (fun mode : ℕ => .int mode) a.mode) = 0 :=
    depth_optional (fun _ => rfl) a.mode
  refine Nat.succ_le_succ (depthMembers_le_iff.mpr ?_)
  simp [RenderedArtifact.members, hmode, depth_optional depth_strJson, depth_strJson]

/-- An app's unit is nested once. -/
theorem depth_unit (u : AppManagedUnit) : depth (.obj u.members) ≤ 1 := by
  refine Nat.succ_le_succ (depthMembers_le_iff.mpr ?_)
  simp [AppManagedUnit.members, depth_optional depth_strJson, depth_strJson]

/-- A host is nested twice. -/
theorem depth_host (h : HostScope) : depth (.obj (hostMembers h)) ≤ 2 := by
  refine Nat.succ_le_succ (depthMembers_le_iff.mpr ?_)
  simp [hostMembers, depth_optional depth_strJson, depth_strs]

/-- A manifest is nested four times. -/
theorem depth_manifest (m : ArtifactManifest) : depth (.obj m.members) ≤ 4 := by
  -- Each list holds objects, of no more than two levels.
  have hartifacts : depth (.arr (m.artifacts.map fun a => .obj a.members)) ≤ 3 := by
    refine Nat.succ_le_succ (depthItems_le fun v hv => ?_)
    obtain ⟨a, -, rfl⟩ := List.mem_map.mp hv
    exact (depth_artifact a).trans (by decide)
  have hunits : depth (.arr (m.appManaged.map fun u => .obj u.members)) ≤ 3 := by
    refine Nat.succ_le_succ (depthItems_le fun v hv => ?_)
    obtain ⟨u, -, rfl⟩ := List.mem_map.mp hv
    exact (depth_unit u).trans (by decide)
  have hhosts : depth (.obj m.hostEntries) ≤ 3 := by
    refine Nat.succ_le_succ (depthMembers_le_iff.mpr fun member hmember => ?_)
    obtain ⟨item, -, rfl⟩ := List.mem_map.mp hmember
    exact depth_host item.2
  refine Nat.succ_le_succ (depthMembers_le_iff.mpr ?_)
  simp only [ArtifactManifest.members, List.forall_mem_cons, depth_strJson]
  exact ⟨Nat.zero_le 3, Nat.zero_le 3, hartifacts, hunits, hhosts, nofun⟩

/-! ## What is read of it -/

/-- A text or nothing is true as it is in the renderer. -/
theorem truthy_optional (o : Option Str) : (optional strJson o).truthy = Scaffold.truthy o := by
  cases o with
  | none => rfl
  | some s => cases s <;> rfl

/-- Two texts are equal as keys when they are equal. -/
theorem sameKey_points (k l : Str) : sameKey (strJson k) (.str (points l)) = decide (k = l) := by
  rw [Bool.eq_iff_iff, sameKey_str_iff, decide_eq_true_iff, strJson, Json.str.injEq]
  exact points_injective.eq_iff

/-- A text is searched for in the texts of a list. -/
theorem contains_strs (n : ℕ) (l : List Str) (k : Str) :
    ((Json.arr (l.map strJson)).orElse (.arr [])).contains n (.str (points k)) =
      .ok (l.contains k) := by
  have horElse : (Json.arr (l.map strJson)).orElse (.arr []) = .arr (l.map strJson) := by
    cases l <;> rfl
  rw [horElse, contains, memberOf_str, List.any_map]
  congr 1
  rw [Bool.eq_iff_iff, List.any_eq_true, List.contains_iff_mem]
  constructor
  · rintro ⟨j, hj, heq⟩
    rw [Function.comp_apply, sameKey_points, decide_eq_true_iff] at heq
    exact heq ▸ hj
  · intro hk
    exact ⟨k, hk, by rw [Function.comp_apply, sameKey_points, decide_eq_true rfl]⟩

/-- The source of an artifact is compared with the webhook of a host. -/
theorem equalTo_optional (n : ℕ) (k : Str) (o : Option Str) :
    (strJson k).equalTo n (optional strJson o) = .ok (some k == o) := by
  rw [equalTo, if_neg (by simp [strJson, key])]
  cases o with
  | none => cases n <;> rfl
  | some l =>
    rw [optional, show strJson l = .str (points l) from rfl, equals_str, sameKey_points]
    exact congrArg Except.ok (by rw [Bool.eq_iff_iff]; simp)

/-- The fields of an artifact. -/
theorem getD_artifact (a : RenderedArtifact) :
    getD (sortedMembers a.members) "source" .null = strJson a.source ∧
      getD (sortedMembers a.members) "disposition" .null = strJson a.disposition ∧
      getD (sortedMembers a.members) "destination" .null = optional strJson a.destination ∧
      getD (sortedMembers a.members) "fraise" .null = optional strJson a.fraise ∧
      getD (sortedMembers a.members) "environment" .null = optional strJson a.environment := by
  have hfield : ∀ {key : String} {v : Json}, a.members.lookup (text key) = some v →
      sortKeys v = v → getD (sortedMembers a.members) key .null = v := by
    intro key v hlookup hsort
    rw [getD_sorted (keys_artifact a) hlookup, hsort]
  exact ⟨hfield rfl rfl, hfield rfl rfl, hfield rfl (sortKeys_optional _),
    hfield rfl (sortKeys_optional _), hfield rfl (sortKeys_optional _)⟩

/-- The fields of a host. -/
theorem getD_host (h : HostScope) :
    getD (sortedMembers (hostMembers h)) "scopes" .null = .arr (h.scopes.map strJson) ∧
      getD (sortedMembers (hostMembers h)) "environments" .null = .arr (h.environments.map strJson) ∧
      getD (sortedMembers (hostMembers h)) "webhook" .null = optional strJson h.webhook := by
  have hfield : ∀ {key : String} {v : Json}, (hostMembers h).lookup (text key) = some v →
      sortKeys v = v → getD (sortedMembers (hostMembers h)) key .null = v := by
    intro key v hlookup hsort
    rw [getD_sorted (keys_host h) hlookup, hsort]
  exact ⟨hfield rfl (sortKeys_strs _), hfield rfl (sortKeys_strs _), hfield rfl (sortKeys_optional _)⟩

/-- An environment as it is shown, which may be missing. -/
theorem shownText_optional (py : Interpreter) (o : Option Str) :
    shownText py (optional strJson o) = .ok (points (o.getD "None".toList)) := by
  cases o with
  | none => exact shownText_ok_iff.mpr ⟨Nat.zero_le _, py.str_null⟩
  | some s => exact shownText_ok_iff.mpr ⟨Nat.zero_le _, py.str_text (points s)⟩

/-- The gate opens for the artifacts that the host installs. -/
theorem gate_rendered (py : Interpreter) (a : RenderedArtifact) (h : HostScope) :
    gate py (sortedMembers a.members) (.obj (sortedMembers (hostMembers h))) =
      .ok (if a.disposition = webhookDisposition then some a.source == h.webhook
        else Scaffold.hostGateOpen a.toArtifact h) := by
  obtain ⟨hsource, hdisposition, -, hfraise, henvironment⟩ := getD_artifact a
  obtain ⟨hscopes, henvironments, hwebhook⟩ := getD_host h
  have hwebhook' : (strJson a.disposition).isStr "webhook" = decide (a.disposition = webhookDisposition) := by
    rw [Bool.eq_iff_iff, isStr_iff, decide_eq_true_iff, strJson, Json.str.injEq]
    exact points_injective.eq_iff (b := "webhook".toList)
  unfold gate
  rw [hdisposition, hwebhook']
  -- The webhook is gated by its own field, everything else by the scopes.
  by_cases hdis : a.disposition = webhookDisposition
  · simp only [hdis, decide_true, if_true, hsource, members, hwebhook, bind, Except.bind,
      equalTo_optional]
  · simp only [hdis, decide_false, Bool.false_eq_true, if_false]
    unfold Untrusted.hostGateOpen Scaffold.hostGateOpen
    simp only [hfraise, henvironment, truthy_optional]
    cases hf : Scaffold.truthy a.fraise with
    | true =>
      have hshown : points (a.fraise.getD "None".toList) = points (a.fraise.getD []) := by
        cases hnone : a.fraise with
        | none => rw [hnone] at hf; cases hf
        | some s => rfl
      have hfirst : points (a.fraise.getD []) ++ text ":" ++ points (a.environment.getD "None".toList) =
          points (a.fraise.getD [] ++ ':' :: a.environment.getD "None".toList) := by
        simp [points, text]
      have hsecond : text "*:" ++ points (a.environment.getD "None".toList) =
          points ('*' :: ':' :: a.environment.getD "None".toList) := by
        simp [points, text]
      simp only [if_true, members, hscopes, shownText_optional, hshown, hfirst, hsecond,
        contains_strs, bind, Except.bind]
      cases h.scopes.contains (a.fraise.getD [] ++ ':' :: a.environment.getD "None".toList) <;> rfl
    | false =>
      cases he : Scaffold.truthy a.environment with
      | true =>
        have hshown : optional strJson a.environment = .str (points (a.environment.getD [])) := by
          cases hnone : a.environment with
          | none => rw [hnone] at he; cases he
          | some s => rfl
        simp only [Bool.false_eq_true, if_false, if_true, members, henvironments, hshown,
          contains_strs, bind, Except.bind]
      | false => rfl

/-- The destination of an artifact, if the host installs it. -/
theorem chosen_rendered (py : Interpreter) (a : RenderedArtifact) (h : HostScope) :
    chosenDestination py (.obj (sortedMembers (hostMembers h))) (.obj (sortedMembers a.members)) =
      .ok (if chosenOn h a.toArtifact then some (strJson a.dest) else none) := by
  obtain ⟨-, -, hdestination, -, -⟩ := getD_artifact a
  simp only [chosenDestination, members, hdestination, truthy_optional, gate_rendered, bind,
    Except.bind, chosenOn]
  -- Without a destination nothing is installed.
  by_cases htruthy : Scaffold.truthy a.destination = true
  · simp only [htruthy, Bool.not_true, Bool.false_eq_true, if_false, Bool.true_and]
    have hdest : optional strJson a.destination = strJson a.dest := by
      cases hnone : a.destination with
      | none => rw [hnone] at htruthy; cases htruthy
      | some s => rw [Artifact.dest, hnone]; rfl
    rw [hdest]
    exact (apply_ite Except.ok _ _ _).symm
  · rw [Bool.not_eq_true] at htruthy
    simp only [htruthy, Bool.not_false, if_true, Bool.false_and, Bool.false_eq_true, if_false]
    rfl

/-- The entry of a host. -/
theorem lookup_hosts (m : ArtifactManifest) (hostname : Str) :
    m.hostEntries.lookup (points hostname) =
      (m.hosts.lookup hostname).map fun h => .obj (hostMembers h) := by
  rw [ArtifactManifest.hostEntries, AList.lookup]
  -- Induction on the hosts.
  induction m.hosts.entries with
  | nil => rfl
  | cons item items ih =>
    rw [List.map_cons, List.lookup_cons]
    by_cases hname : hostname = item.1
    · subst hname
      rw [beq_self_eq_true, List.dlookup_cons_eq]
      rfl
    · have hne : (points hostname == points item.1) = false :=
        beq_eq_false_iff_ne.mpr (points_injective.ne hname)
      rw [hne, List.dlookup_cons_ne _ _ hname]
      exact ih

/-- The destinations that the host installs. -/
def installed (m : ArtifactManifest) (host : HostScope) : List Text :=
  (m.artifacts.filter fun a => chosenOn host a.toArtifact).map fun a => points a.dest

/-- Dropping what a test leaves out is filtering. -/
theorem reduceOption_ite {α β : Type} (l : List α) (f : α → β) (q : α → Bool) :
    (l.map fun a => if q a then some (f a) else none).reduceOption = (l.filter q).map f := by
  induction l with
  | nil => rfl
  | cons a l ih =>
    rw [List.map_cons, List.filter_cons]
    cases q a with
    | true => exact (List.reduceOption_cons_of_some _ _).trans (congrArg _ ih)
    | false => exact (List.reduceOption_cons_of_none _).trans ih

/-- The messages about a manifest of the renderer. -/
theorem judge_rendered (py : Interpreter) (policy : RootPolicy) (m : ArtifactManifest)
    (hostname : Str) : judgePayload py policy (points hostname) (sortKeys (.obj m.members)) =
      .ok (match m.hosts.lookup hostname with
        | none => [notInRender (points hostname)]
        | some host => (fresh policy (installed m host)).map freshMessage) := by
  -- Sorting the keys leaves the fields of the manifest what they are.
  have hhosts : getD (sortedMembers m.members) "hosts" .null = .obj (sortedMembers m.hostEntries) := by
    rw [getD_sorted (keys_manifest m) (v := .obj m.hostEntries) rfl, sortKeys_obj]
  have hartifacts : getD (sortedMembers m.members) "artifacts" .null =
      .arr (m.artifacts.map fun a => .obj (sortedMembers a.members)) := by
    rw [getD_sorted (keys_manifest m) (v := .arr (m.artifacts.map fun a => .obj a.members)) rfl,
      sortKeys, sortItems_eq, List.map_map]
    exact congrArg Json.arr (List.map_congr_left fun a _ => sortKeys_obj a.members)
  -- The host is found where the manifest has it.
  have hlookup : (sortedMembers m.hostEntries).lookup (points hostname) =
      (m.hosts.lookup hostname).map fun h => .obj (sortedMembers (hostMembers h)) := by
    rw [lookup_sortedMembers (keys_hosts m), lookup_hosts, Option.map_map]
    exact Option.map_congr fun h _ => sortKeys_obj _
  rw [sortKeys_obj, judgePayload, hostArtifacts, hhosts]
  dsimp only
  rw [hlookup]
  cases m.hosts.lookup hostname with
  | none => rfl
  | some host =>
    -- Of a registered host the artifacts are chosen, and their destinations shown.
    have hiter : ((Json.arr (m.artifacts.map fun a => .obj (sortedMembers a.members))).orElse
        (.arr [])).iter = .ok (m.artifacts.map fun a => .obj (sortedMembers a.members)) := by
      cases m.artifacts <;> rfl
    have hchosen : (m.artifacts.map fun a => Json.obj (sortedMembers a.members)).mapM
        (chosenDestination py (.obj (sortedMembers (hostMembers host)))) =
          .ok (m.artifacts.map fun a => if chosenOn host a.toArtifact then some (strJson a.dest) else none) := by
      rw [mapM_ok_iff, List.forall₂_map_left_iff, List.forall₂_map_right_iff]
      exact List.forall₂_same.mpr fun a _ => chosen_rendered py a host
    have hshown : (m.artifacts.map fun a => if chosenOn host a.toArtifact then
        some (strJson a.dest) else none).reduceOption.mapM (shownText py) = .ok (installed m host) := by
      rw [reduceOption_ite, mapM_ok_iff, installed, List.forall₂_map_left_iff,
        List.forall₂_map_right_iff]
      exact List.forall₂_same.mpr fun a _ => shownText_optional py (some a.dest)
    simp only [Option.map_some, hartifacts, hiter, hchosen, bind, Except.bind, pure, Except.pure,
      hshown]

/-- The messages name what is new, each once and in order. -/
theorem names_rendered (policy : RootPolicy) (m : ArtifactManifest) (hostname : Str) :
    Names policy hostname m (match m.hosts.lookup hostname with
      | none => [notInRender (points hostname)]
      | some host => (fresh policy (installed m host)).map freshMessage) := by
  unfold Names
  cases m.hosts.lookup hostname with
  | none => rfl
  | some host =>
    refine ⟨fresh policy (installed m host), rfl, ?_, fun d => ?_⟩
    -- What is rendered is the set of the new destinations, sorted.
    · have hsorted : (fresh policy (installed m host)).Pairwise (· ≤ ·) :=
        List.pairwise_insertionSort _ _
      have hnodup : (fresh policy (installed m host)).Nodup :=
        (List.perm_insertionSort _ _).nodup_iff.mpr (List.nodup_dedup _)
      exact hsorted.imp₂ (fun _ _ hle hne => lt_of_le_of_ne hle hne) hnodup
    · have hknown : ∀ s : Str, points s ∈ known policy ↔ s ∈ knownDestinations policy := fun s =>
        List.mem_map_of_injective points_injective
      rw [fresh, (List.perm_insertionSort _ _).mem_iff, List.mem_dedup, List.mem_filter, installed,
        List.mem_map]
      constructor
      · rintro ⟨⟨a, ha, rfl⟩, hnew⟩
        obtain ⟨hmem, hchosen⟩ := List.mem_filter.mp ha
        exact ⟨a, hmem, hchosen, rfl, by simpa [hknown] using hnew⟩
      · rintro ⟨a, hmem, hchosen, rfl, hnew⟩
        exact ⟨⟨a, List.mem_filter.mpr ⟨hmem, hchosen⟩, rfl⟩, by simpa [hknown] using hnew⟩

/-- What the renderer wrote is read back. -/
theorem newArtifacts_rendered (py : Interpreter) (policy : RootPolicy) {m : ArtifactManifest}
    {written : Text} (hwritten : dumpManifest m = some written) (hostname : Str) :
    newArtifacts py policy (points hostname) (.file (written.map (·.val))) =
      .ok (match m.hosts.lookup hostname with
        | none => [notInRender (points hostname)]
        | some host => (fresh policy (installed m host)).map freshMessage) := by
  unfold dumpManifest at hwritten
  split at hwritten
  · rename_i hdigits
    obtain rfl := Option.some.inj hwritten
    -- What was written is plain, so it is read back.
    have hplain : Plain (.obj m.members) := by
      refine plain_manifest fun a ha mode hmode => ?_
      have hall := List.all_eq_true.mp hdigits a ha
      rw [hmode] at hall
      simpa using hall
    have hloads := loads_dumpsSorted hplain
      ((depth_manifest m).trans (Nat.le_add_left 4 py.spare))
    simp only [newArtifacts, hloads, judge_rendered]
  · cases hwritten

/-- A list is returned, and the right one for the renderer's manifests, exactly for the bytes that
can be read. -/
theorem handles_iff (py : Interpreter) (policy : RootPolicy) (hostname : Str) (bytes : List ℕ) :
    Handles py policy hostname bytes ↔ Readable py (points hostname) bytes := by
  constructor
  · rintro ⟨messages, hmessages, -⟩
    exact exists_newArtifacts_iff.mp ⟨messages, hmessages⟩
  · intro hread
    obtain ⟨messages, hmessages⟩ := exists_newArtifacts_iff.mpr hread
    refine ⟨messages, hmessages, ?_⟩
    rintro m written hwritten rfl
    rw [newArtifacts_rendered py policy hwritten] at hmessages
    rw [← Except.ok.inj hmessages]
    exact names_rendered policy m hostname

/-- An interpreter that shows texts. -/
def textsOnly : Interpreter where
  str v := match v with
    | .str s => s
    | .null => text "None"
    | _ => []
  str_text _ := rfl
  str_null := rfl
  shown := 0
  compared := 0
  spare := 0

/-- A number in the place of the artifacts is a `TypeError`. -/
theorem numberForArtifacts_raises : ¬Handles textsOnly ⟨[], [], [], [], [], [], [], ∅, ∅⟩ "h".toList
    ((text "\x7b\"hosts\": \x7b\"h\": \x7b\x7d\x7d, \"artifacts\": 1\x7d").map (·.val)) := by
  rintro ⟨messages, hmessages, -⟩
  have hraises : newArtifacts textsOnly ⟨[], [], [], [], [], [], [], ∅, ∅⟩ (points "h".toList)
      (.file ((text "\x7b\"hosts\": \x7b\"h\": \x7b\x7d\x7d, \"artifacts\": 1\x7d").map (·.val))) =
        .error (.use .typeError) := rfl
  rw [hraises] at hmessages
  cases hmessages

end Fraisier.Scaffold.Untrusted
