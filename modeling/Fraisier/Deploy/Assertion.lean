import Fraisier.Lib.Yaml

/-!
# Assertions of smoke tests

`_parse_assertion` and `Assertion.matches` of `smoke_tests.py`. An assertion may state several verbs,
and the first of `not_null`, `null` and `equals` that it states is the only one that is tested; one
that states none is accepted and always holds. `meansEverything_iff` says for which assertions and
documents the answer is nevertheless what the assertion says.
-/

namespace Fraisier.Deploy.Assertions

open Fraisier.Lib Unicode

/-! ## What fraisier does -/

/-- Why an assertion is refused. -/
inductive Refusal
  /-- `unknown assertion key(s): …`, with the keys that are texts. -/
  | unknownKeys (keys : List Text)
  /-- `assertion is missing required 'json_path'`. -/
  | missingPath
  /-- `unsupported JSONPath syntax: use $.dotted.path only`. -/
  | unsupported
  /-- `JSONPath must start with $: …`. -/
  | noDollar (path : Text)
  /-- A path that is no string is a `TypeError`. -/
  | typeError
  deriving DecidableEq

/-- `Assertion`. Without `equals` this verb is not in use. -/
structure Assertion where
  jsonPath : Text
  notNull : Bool := false
  null : Bool := false
  equals : Option Yaml := none

/-- Walking a document along keys: `none` stands for `_MISSING`. -/
def walk : Json → List Text → Option Json
  | current, [] => some current
  | .obj members, key :: parts => (members.lookup key).bind (walk · parts)
  | _, _ :: _ => none

/-- `path[2:].split(".")`. -/
def parts (path : Text) : List Text := (path.drop 2).splitOn (chr '.')

/-- `_walk_json_path`. -/
def walkJsonPath (doc : Json) (path : Text) : Except Refusal (Option Json) :=
  if !Json.startsWith path "$" then throw (.noDollar path)
  else if path = text "$" then pure (some doc)
  else if !Json.startsWith path "$." then throw .unsupported
  else pure (walk doc (parts path))

/-- `_UNSUPPORTED_JSONPATH_CHARS.search`. -/
def hasUnsupported (path : Text) : Bool :=
  decide (text ".." <:+: path) || path.any (· ∈ text "[*@")

/-- `_VALID_ASSERTION_KEYS`. -/
def validAssertionKeys : List Text := ["json_path", "not_null", "null", "equals"].map text

/-- A mapping of a YAML file, by its keys. -/
abbrev Mapping := List (Option Text × Yaml)

/-- `raw.get(key)`. -/
def get? (raw : Mapping) (key : String) : Option Yaml := raw.lookup (some (text key))

/-- `bool(raw.get(key, False))`. -/
def flag (raw : Mapping) (key : String) : Bool := (get? raw key).any (·.truthy)

/-- `_parse_assertion`. -/
def parseAssertion (raw : Mapping) : Except Refusal Assertion := do
  let unknown := (raw.map (·.1)).filter (·.all (· ∉ validAssertionKeys))
  if unknown ≠ [] then throw (.unknownKeys (unknown.filterMap id))
  match get? raw "json_path" with
  | none => throw .missingPath
  | some (.str jsonPath) =>
    if hasUnsupported jsonPath then throw .unsupported
    let _ ← walkJsonPath (.obj []) jsonPath
    pure { jsonPath, notNull := flag raw "not_null", null := flag raw "null"
           equals := get? raw "equals" }
  | some _ => throw .typeError

/-- A value is absent or null. -/
def isNull : Option Json → Bool
  | none | some .null => true
  | _ => false

/-- `Assertion.matches`. -/
def Assertion.matches (a : Assertion) (doc : Json) : Except Refusal Bool := do
  let actual ← walkJsonPath doc a.jsonPath
  if a.notNull then pure !isNull actual
  else if a.null then pure (isNull actual)
  else match a.equals with
    | some v => pure (actual.any (Json.pyEq · v))
    | none => pure true

/-! ## What an assertion means -/

/-- A verb, with the value of `equals`. -/
inductive Verb
  | notNull
  | null
  | equals (v : Yaml)

/-- The verbs that a mapping states. -/
def verbs (raw : Mapping) : List Verb :=
  (if flag raw "not_null" then [.notNull] else []) ++ (if flag raw "null" then [.null] else []) ++
    ((get? raw "equals").map Verb.equals).toList

/-- The verb holds of the value at the path. -/
def Verb.holds (actual : Option Json) : Verb → Bool
  | .notNull => !isNull actual
  | .null => isNull actual
  | .equals v => actual.any (Json.sameJson · v)

/-- The keys of a path, of which the root has none. -/
def segments (path : Text) : List Text := if path = text "$" then [] else parts path

/-- An assertion that is accepted states a verb, has no empty segment in its path, and matches the
document exactly when all its verbs hold of the value there. -/
def MeansEverything (raw : Mapping) (doc : Json) : Prop :=
  ∀ a, parseAssertion raw = .ok a →
    verbs raw ≠ [] ∧ [] ∉ segments a.jsonPath ∧
      (a.matches doc = .ok true ↔ ∀ verb ∈ verbs raw, verb.holds (walk doc (segments a.jsonPath)))

/-- Of the value at the path, the verb that is tested says what all of them say. -/
structure FirstDecides (raw : Mapping) (actual : Option Json) : Prop where
  /-- Beside `not_null`, the other verbs hold of a value that is there. -/
  notNull : flag raw "not_null" → isNull actual = false →
    flag raw "null" = false ∧ ∀ v, get? raw "equals" = some v → actual.any (Json.sameJson · v)
  /-- Beside `null`, the value is there and the one to be equal to is null when it is. -/
  null : flag raw "not_null" = false → flag raw "null" → isNull actual →
    ∀ v, get? raw "equals" = some v → actual = some .null ∧ v = .null
  /-- A value that `equals` takes for another has booleans where that one has. -/
  equals : flag raw "not_null" = false → flag raw "null" = false →
    ∀ v w, get? raw "equals" = some v → actual = some w → Json.pyEq w v → Json.boolsApart w v

/-! ## When an assertion means what it says -/

section

variable {raw : Mapping} {a : Assertion} {doc other : Json} {path : Text} {value actual : Option Json}

/-- A path that can be walked in one document is walked along its keys in each. -/
theorem walkJsonPath_of_ok (h : walkJsonPath other path = .ok value) (doc : Json) :
    walkJsonPath doc path = .ok (walk doc (segments path)) := by
  unfold walkJsonPath at h ⊢
  unfold segments
  -- A path begins with `$`, and may be no more than that.
  split at h
  case isTrue => nomatch h
  case isFalse hdollar =>
    rw [if_neg hdollar]
    split at h
    case isTrue hroot =>
      rw [if_pos hroot, if_pos hroot]
      rfl
    case isFalse hroot =>
      split at h
      case isTrue => nomatch h
      case isFalse hdot =>
        rw [if_neg hroot, if_neg hdot, if_neg hroot]
        rfl

/-- What an accepted mapping is parsed to. -/
theorem parseAssertion_ok (h : parseAssertion raw = .ok a) :
    a = { jsonPath := a.jsonPath, notNull := flag raw "not_null", null := flag raw "null"
          equals := get? raw "equals" } ∧
      ∀ doc, walkJsonPath doc a.jsonPath = .ok (walk doc (segments a.jsonPath)) := by
  unfold parseAssertion at h
  dsimp only at h
  split at h
  case isTrue => nomatch h
  case isFalse =>
    -- The path is a text that parses.
    cases hpath : get? raw "json_path" with
    | none =>
      rw [hpath] at h
      nomatch h
    | some v =>
      rw [hpath] at h
      cases v with
      | str path =>
        dsimp only at h
        split at h
        case isTrue => nomatch h
        case isFalse =>
          cases hwalk : walkJsonPath (.obj []) path with
          | error e =>
            rw [hwalk] at h
            nomatch h
          | ok value =>
            rw [hwalk] at h
            obtain rfl := Except.ok.inj h
            exact ⟨rfl, walkJsonPath_of_ok hwalk⟩
      | _ => nomatch h

/-- What is answered for the value at the path, with the verbs in the order they are tested. -/
theorem matches_ok (h : parseAssertion raw = .ok a) (doc : Json)
    (hactual : walk doc (segments a.jsonPath) = actual) :
    a.matches doc = .ok (if flag raw "not_null" then !isNull actual
      else if flag raw "null" then isNull actual
      else ((get? raw "equals").map fun v => actual.any (Json.pyEq · v)).getD true) := by
  obtain ⟨ha, hwalk⟩ := parseAssertion_ok h
  rw [Assertion.matches, hwalk doc, hactual, ha]
  dsimp only [bind, Except.bind]
  split
  case isTrue => rfl
  case isFalse =>
    split
    case isTrue => rfl
    case isFalse => cases get? raw "equals" <;> rfl

/-- What holds of every verb holds of those that are given. -/
theorem forall_verbs_iff {p : Verb → Prop} : (∀ verb ∈ verbs raw, p verb) ↔
    (flag raw "not_null" → p .notNull) ∧ (flag raw "null" → p .null) ∧
      ∀ v, get? raw "equals" = some v → p (.equals v) := by
  unfold verbs
  cases flag raw "not_null" <;> cases flag raw "null" <;> cases get? raw "equals" <;> simp

/-- What is null is the same as a null only, and what is absent as nothing. -/
theorem any_sameJson_of_isNull (h : isNull actual = true) (v : Yaml) :
    actual.any (Json.sameJson · v) = true ↔ actual = some .null ∧ v = .null := by
  match actual, h with
  | none, _ => simp
  | some .null, _ => cases v <;> simp [Json.sameJson, Json.agree, Json.scalarEq, Json.number?,
      Json.isBool, Yaml.isBool]

/-- With `not_null` stated. -/
theorem notNull_iff (hnotNull : flag raw "not_null" = true) :
    (isNull actual = false ↔ ∀ verb ∈ verbs raw, verb.holds actual) ↔ FirstDecides raw actual := by
  rw [forall_verbs_iff]
  simp only [Verb.holds, Bool.not_eq_true', hnotNull, forall_const]
  constructor
  -- The verb decides first, and the others are not looked at.
  · intro h
    constructor
    case notNull =>
      intro _ hthere
      obtain ⟨-, hnull, hequals⟩ := h.mp hthere
      refine ⟨?_, hequals⟩
      by_contra hflag
      rw [hnull (by simpa using hflag)] at hthere
      nomatch hthere
    case null => exact fun hflag => nomatch hnotNull.symm.trans hflag
    case equals => exact fun hflag => nomatch hnotNull.symm.trans hflag
  · intro h
    constructor
    · intro hthere
      obtain ⟨hnull, hequals⟩ := h.notNull hnotNull hthere
      exact ⟨hthere, fun hflag => (nomatch hnull.symm.trans hflag), hequals⟩
    · exact fun hall => hall.1

/-- With `null` stated, and not `not_null`. -/
theorem null_iff (hnotNull : flag raw "not_null" = false) (hnull : flag raw "null" = true) :
    (isNull actual = true ↔ ∀ verb ∈ verbs raw, verb.holds actual) ↔ FirstDecides raw actual := by
  rw [forall_verbs_iff]
  simp only [Verb.holds, hnotNull, hnull, Bool.false_eq_true, false_imp_iff, forall_const, true_and]
  constructor
  -- The verb decides first, and `equals` is not looked at.
  · intro h
    constructor
    case notNull => exact fun hflag => nomatch hnotNull.symm.trans hflag
    case null =>
      intro _ _ hvalue v hv
      exact (any_sameJson_of_isNull hvalue v).mp ((h.mp hvalue).2 v hv)
    case equals => exact fun _ hflag => nomatch hnull.symm.trans hflag
  · intro h
    constructor
    · intro hvalue
      refine ⟨hvalue, fun v hv => ?_⟩
      exact (any_sameJson_of_isNull hvalue v).mpr (h.null hnotNull hnull hvalue v hv)
    · exact fun hall => hall.1

/-- With `equals` alone. -/
theorem equals_iff (hnotNull : flag raw "not_null" = false) (hnull : flag raw "null" = false)
    {v : Yaml} (hv : get? raw "equals" = some v) :
    (actual.any (Json.pyEq · v) = true ↔ ∀ verb ∈ verbs raw, verb.holds actual) ↔
      FirstDecides raw actual := by
  rw [forall_verbs_iff]
  simp only [Verb.holds, hnotNull, hnull, hv, Bool.false_eq_true, false_imp_iff, true_and,
    Option.some.injEq, forall_eq']
  constructor
  · intro h
    -- Without the other verbs, only the comparison counts.
    constructor
    case notNull => exact fun hflag => nomatch hnotNull.symm.trans hflag
    case null => exact fun _ hflag => nomatch hnull.symm.trans hflag
    case equals =>
      rintro _ _ v' w hv' rfl heq
      obtain rfl := Option.some.inj (hv.symm.trans hv')
      have hsame : Json.sameJson w v = true := h.mp heq
      rw [Json.sameJson_eq, Bool.and_eq_true] at hsame
      exact hsame.2
  · intro h
    -- A value that is missing equals nothing.
    cases actual with
    | none => rfl
    | some w =>
      rw [Option.any_some, Option.any_some, Json.sameJson_eq, Bool.and_eq_true]
      constructor
      · exact fun heq => ⟨heq, h.equals hnotNull hnull v w hv rfl heq⟩
      · exact fun hsame => hsame.1

/-- The one verb that is tested answers for all, of a value. -/
theorem answer_iff (hverbs : verbs raw ≠ []) :
    ((if flag raw "not_null" then !isNull actual
      else if flag raw "null" then isNull actual
      else ((get? raw "equals").map fun v => actual.any (Json.pyEq · v)).getD true) = true ↔
        ∀ verb ∈ verbs raw, verb.holds actual) ↔ FirstDecides raw actual := by
  -- By the first verb that is stated.
  cases hnotNull : flag raw "not_null" with
  | true =>
    rw [if_pos rfl, Bool.not_eq_true', notNull_iff hnotNull]
  | false =>
    rw [if_neg Bool.false_ne_true]
    cases hnull : flag raw "null" with
    | true => rw [if_pos rfl, null_iff hnotNull hnull]
    | false =>
      rw [if_neg Bool.false_ne_true]
      cases hv : get? raw "equals" with
      | none =>
        refine absurd ?_ hverbs
        simp [verbs, hnotNull, hnull, hv]
      | some v => rw [Option.map_some, Option.getD_some, equals_iff hnotNull hnull hv]

/-- An assertion means everything it says when it states a verb, its path has no empty segment, and
the verb that is tested says of the value what all of them say. -/
theorem meansEverything_iff (raw : Mapping) (doc : Json) :
    MeansEverything raw doc ↔ ∀ a, parseAssertion raw = .ok a →
      verbs raw ≠ [] ∧ [] ∉ segments a.jsonPath ∧
        FirstDecides raw (walk doc (segments a.jsonPath)) := by
  refine forall₂_congr fun a ha => and_congr_right fun hverbs => and_congr_right fun _ => ?_
  rw [matches_ok ha doc rfl, Except.ok.injEq]
  exact answer_iff hverbs

end

/-! ## A probe that passes whatever it finds -/

/-- A key that is there, and is `admin`. -/
def adminMapping : Mapping :=
  [(some (text "json_path"), .str (text "$.role")), (some (text "not_null"), .bool true),
    (some (text "equals"), .str (text "admin"))]

/-- It matches a document in which it is another one. -/
theorem adminMapping_matches :
    ¬MeansEverything adminMapping (.obj [(text "role", .str (text "guest"))]) := by
  intro h
  obtain ⟨-, -, hmatches⟩ := h { jsonPath := text "$.role", notNull := true
                                 equals := some (.str (text "admin")) } rfl
  have hall := hmatches.mp rfl (.equals (.str (text "admin")))
  exact absurd (hall (.tail _ (.head _))) (by decide)

end Fraisier.Deploy.Assertions
