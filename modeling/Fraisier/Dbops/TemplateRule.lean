import Fraisier.Lib.Fallible
import Fraisier.Lib.JsonValue

/-!
# Does a restore need a template?

`decide_template` of `dbops/template_rule.py`. Under `auto` every doubt is to take the template, and
`errs_safe_iff` says for which reports it does. The rule reads the report's fields as they come: an
empty object or an empty text goes for an empty list, `false` for the count zero, any other value for
a count, and a number for a code that does not block. A report is cleared on such a reading
(`Reading.loose`) or on its own terms (`Reading.strict`). What the rule shows of a report can be
nested too deep to be shown (`TooDeep`), and the clause does not catch that.
-/

namespace Fraisier.Dbops.TemplateRule

open Fraisier.Lib Json Unicode Fallible

/-! ## The rule -/

/-- `_BLOCKING_ISSUES`. -/
def blockingIssues : List (Text × Text) :=
  [(text "PFLIGHT_MISSING_DOWN", text "has no down"),
    (text "PFLIGHT_DOWN_EMPTY", text "has an empty down"),
    (text "PFLIGHT_DOWN_UNVERIFIED", text "has a down confiture cannot verify"),
    (text "PFLIGHT_NON_TRANSACTIONAL", text "is not transactional"),
    (text "PFLIGHT_DESTRUCTIVE_GATED", text "is gated as destructive"),
    (text "PFLIGHT_IRREVERSIBLE", text "is marked irreversible"),
    (text "PFLIGHT_UNPARSEABLE", text "could not be parsed")]

/-- `_UNDOABLE_TIERS`. -/
def undoableTiers : List Text := [text "additive", text "reversible", text "lock_risky"]

/-- `TemplateMode`. -/
inductive TemplateMode
  | auto | always | never
  deriving DecidableEq, Repr

/-- `TemplateDecision`. -/
structure TemplateDecision where
  take : Bool
  reason : Text
  forcedBy : List Text := []
  deriving DecidableEq, Repr

/-- What reading a report raises. -/
inductive Raised
  | keyError | typeError | attributeError | recursionError
  deriving DecidableEq, Repr

/-- An operation on a value. -/
def use {α : Type} : Except UseError α → Except Raised α
  | .ok a => .ok a
  | .error .attributeError => .error .attributeError
  | .error .typeError => .error .typeError
  | .error .recursionError => .error .recursionError

/-- `v[key]`. -/
def index (v : Json) (key : String) : Except Raised Json :=
  match v with
  | .obj ms => match ms.lookup (text key) with
    | some w => .ok w
    | none => .error .keyError
  | _ => .error .typeError

/-- `v == 0`. -/
def isZero (v : Json) : Bool := v.key = .ok (.number (.finite 0))

/-- `v is None`. -/
def isNone : Json → Bool
  | .null => true
  | _ => false

/-- `v is True`. -/
def isTrue : Json → Bool
  | .bool true => true
  | _ => false

/-- `v in _UNDOABLE_TIERS`, of a value with a hash. -/
def isUndoable : Json → Bool
  | .str s => s ∈ undoableTiers
  | _ => false

/-- `_BLOCKING_ISSUES.get(code)`, of a code with a hash. -/
def blockingVerdict : Json → Option Text
  | .str s => blockingIssues.lookup s
  | _ => none

section Rule

/- How deep `repr` goes, and the texts that it and `str` give where they give one. -/
variable (limit : ℕ) (repr str : Json → Text)

/-- `str(v)`, and what an f-string shows of `v`. -/
def shownText (v : Json) : Except Raised Text := str <$> use (v.shown limit)

/-- `str(item[key])`. -/
def shownField (item : Json) (key : String) : Except Raised Text := do
  let v ← index item key
  shownText limit str v

/-- What an issue adds to `why`: the migration, and what it has. -/
def issueFinding (issue : Json) : Except Raised (Option (Text × Text)) := do
  let code ← index issue "code"
  let _ ← use code.key
  match blockingVerdict code with
  | some verdict => do
    let migration ← shownField limit str issue "migration"
    pure (some (migration, verdict))
  | none => pure none

/-- What a change adds to `why`. -/
def changeFinding (change : Json) : Except Raised (Option (Text × Text)) := do
  let ms ← use change.members
  let tier := getD ms "tier" .null
  let _ ← use tier.key
  if isUndoable tier then pure none
  else do
    let migration ← shownField limit str change "migration"
    let label := if isNone tier then text "unclassified" else str tier
    let kind ← shownField limit str change "kind"
    pure (some (migration, text "is " ++ label ++ text " (" ++ kind ++ text ")"))

/-- `why`, of the findings in their order. -/
def whyOf (findings : List (Text × Text)) : List (Text × List Text) :=
  (findings.map Prod.fst).eraseDups.map fun version =>
    (version, (findings.filter (·.1 = version)).map Prod.snd)

/-- `payload["summary"]["migrations_checked"]`. -/
def migrationsChecked (payload : Json) : Except Raised Json := do
  let summary ← index payload "summary"
  index summary "migrations_checked"

/-- The two loops of `_decide_auto`. -/
def forcing (payload : Json) : Except Raised (List (Text × List Text)) := do
  let issues ← index payload "issues"
  let issues ← use issues.iter
  let blocked ← issues.mapM (issueFinding limit str)
  let changeSet ← index payload "change_set"
  let changes ← index changeSet "changes"
  let changes ← use changes.iter
  let changed ← changes.mapM (changeFinding limit str)
  pure (whyOf (blocked.reduceOption ++ changed.reduceOption))

/-- The reason of a report that is cleared, by the count that it shows. -/
def undoableReason (pending : Text) : Text :=
  text "all " ++ pending ++ text (" pending migration(s) have a down, are transactional and are " ++
    "undoable, so `migrate down` is the rollback")

/-- `_decide_auto`, once the scope is the pending migrations. -/
def decidePending (payload : Json) : Except Raised TemplateDecision := do
  let pending ← migrationsChecked payload
  if isZero pending then pure { take := false, reason := text "no pending migration" }
  else do
    let why ← forcing limit str payload
    let ms ← use payload.members
    let verdict := getD ms "reversible" .null
    if !isTrue verdict ∧ why = [] then
      pure
        { take := true
          reason := if isNone verdict then
              text "the preflight gives no `reversible` verdict (confiture < 1.40)"
            else text "the preflight says `migrate down` cannot undo the pending set" }
    else if why = [] then do
      let shown ← shownText limit str pending
      pure { take := false, reason := undoableReason shown }
    else
      pure
        { take := true
          reason := List.intercalate (text "; ") (why.map fun entry =>
            entry.1 ++ text " " ++ List.intercalate (text ", ") entry.2.eraseDups)
          forcedBy := why.map Prod.fst }

/-- `_decide_auto`. -/
def decideAuto (payload : Json) : Except Raised TemplateDecision := do
  let scope ← index payload "scope"
  if scope.isStr "pending" then decidePending limit str payload
  else do
    let _ ← use (scope.shown limit)
    pure
      { take := true
        reason := text "the preflight judged scope " ++ repr scope ++ text ", not 'pending'" }

/-- `decide_template`. A payload that is JSON's `null` is Python's `None`. -/
def decideTemplate (mode : TemplateMode) (payload : Json) : Except Raised TemplateDecision :=
  match mode with
  | .always => .ok { take := true, reason := text "restore.template is always" }
  | .never => .ok { take := false, reason := text "restore.template is never" }
  | .auto =>
    if isNone payload then .ok { take := true, reason := text "no preflight result to decide on" }
    else match decideAuto limit repr str payload with
      | .ok decision => .ok decision
      | .error .recursionError => .error .recursionError
      | .error _ => .ok { take := true, reason := text "the preflight payload could not be read" }

end Rule

/-! ## Reports -/

/-- How the fields of a report are taken. -/
structure Reading where
  /-- The value is a count. -/
  count : Json → Prop
  /-- The value is the count of no migration. -/
  zero : Json → Prop
  /-- The value lists the items. -/
  items : Json → List Json → Prop
  /-- The value is the code of an issue. -/
  code : Json → Prop

/-- A count is an integer, what is listed is a list, and a code is a text. -/
def Reading.strict : Reading where
  count v := ∃ n, v = .int n
  zero v := v = .int 0
  items v items := v = .arr items
  code v := ∃ s, v = .str s

/-- Any value is a count, and what equals zero is zero; what can be iterated over lists items; what
has a hash is a code. -/
def Reading.loose : Reading where
  count _ := True
  zero v := isZero v
  items v items := v.iter = .ok items
  code v := ∃ k, v.key = .ok k

/-- An issue that does not block. -/
def Harmless (r : Reading) (issue : Json) : Prop :=
  ∃ ms code, issue = .obj ms ∧ ms.lookup (text "code") = some code ∧ r.code code ∧
    ∀ entry ∈ blockingIssues, code ≠ .str entry.1

/-- A change that a down can undo. -/
def Undoable (change : Json) : Prop :=
  ∃ ms tier, change = .obj ms ∧ ms.lookup (text "tier") = some (.str tier) ∧ tier ∈ undoableTiers

/-- The report says that `migrate down` undoes what is pending. -/
structure Reversible (r : Reading) (ms : List (Text × Json)) : Prop where
  verdict : ms.lookup (text "reversible") = some (.bool true)
  issues : ∃ v items, ms.lookup (text "issues") = some v ∧ r.items v items ∧
    ∀ issue ∈ items, Harmless r issue
  changes : ∃ changeSet v items, ms.lookup (text "change_set") = some (.obj changeSet) ∧
    changeSet.lookup (text "changes") = some v ∧ r.items v items ∧ ∀ change ∈ items, Undoable change

/-- The report is cleared: it is on what is pending, and no migration was checked or all of it can
be undone. -/
def Cleared (r : Reading) (payload : Json) : Prop :=
  ∃ ms summary count, payload = .obj ms ∧ ms.lookup (text "scope") = some (.str (text "pending")) ∧
    ms.lookup (text "summary") = some (.obj summary) ∧
    summary.lookup (text "migrations_checked") = some count ∧
    (r.zero count ∨ r.count count ∧ Reversible r ms)

/-- The decision is one, and a template is not taken under `auto` only on a report that is cleared on
its own terms. -/
def ErrsSafe (limit : ℕ) (repr str : Json → Text) (mode : TemplateMode) (payload : Json) : Prop :=
  ∃ decision, decideTemplate limit repr str mode payload = .ok decision ∧
    (mode = .auto → decision.take = false → Cleared .strict payload)

/-! ## What cannot be shown -/

/-- An issue that blocks. -/
def Blocks (issue : Json) : Prop :=
  ∃ ms entry, issue = .obj ms ∧ entry ∈ blockingIssues ∧
    ms.lookup (text "code") = some (.str entry.1)

/-- A change whose tier has a hash, and is none that a down can undo. -/
def Forces (change : Json) : Prop :=
  ∃ ms k, change = .obj ms ∧ (getD ms "tier" .null).key = .ok k ∧
    isUndoable (getD ms "tier" .null) = false

/-- The element has a field of that depth. -/
def Shows (item : Json) (key : String) (deep : ℕ → Prop) : Prop :=
  ∃ ms v, item = .obj ms ∧ ms.lookup (text key) = some v ∧ deep v.depth

/-- An issue that the loop gets past. -/
def IssueRead (limit : ℕ) (issue : Json) : Prop :=
  Harmless .loose issue ∨ Blocks issue ∧ Shows issue "migration" (· ≤ limit)

/-- A change that the loop gets past. -/
def ChangeRead (limit : ℕ) (change : Json) : Prop :=
  Undoable change ∨
    Forces change ∧ Shows change "migration" (· ≤ limit) ∧ Shows change "kind" (· ≤ limit)

/-- An issue that blocks, with a migration that is too deep. -/
def IssueDeep (limit : ℕ) (issue : Json) : Prop := Blocks issue ∧ Shows issue "migration" (limit < ·)

/-- A change that forces the template, with a migration or a kind that is too deep. -/
def ChangeDeep (limit : ℕ) (change : Json) : Prop :=
  Forces change ∧ (Shows change "migration" (limit < ·) ∨
    Shows change "migration" (· ≤ limit) ∧ Shows change "kind" (limit < ·))

/-- The first element that the loop does not get past is too deep. -/
def Stops (read deep : Json → Prop) (items : List Json) : Prop :=
  ∃ before item after, items = before ++ item :: after ∧ (∀ other ∈ before, read other) ∧ deep item

/-- The loops come to something that is too deep. -/
def LoopsDeep (limit : ℕ) (ms : List (Text × Json)) : Prop :=
  ∃ v issues, ms.lookup (text "issues") = some v ∧ v.iter = .ok issues ∧
    (Stops (IssueRead limit) (IssueDeep limit) issues ∨
      (∀ issue ∈ issues, IssueRead limit issue) ∧
        ∃ changeSet w changes, ms.lookup (text "change_set") = some (.obj changeSet) ∧
          changeSet.lookup (text "changes") = some w ∧ w.iter = .ok changes ∧
          Stops (ChangeRead limit) (ChangeDeep limit) changes)

/-- The rule comes to something that is nested too deep to be shown: a scope that is not `pending`,
the migration or the kind of what forces the template, or the count of a report that is cleared. -/
def TooDeep (limit : ℕ) (payload : Json) : Prop :=
  ∃ ms scope, payload = .obj ms ∧ ms.lookup (text "scope") = some scope ∧
    (scope ≠ .str (text "pending") ∧ limit < scope.depth ∨
      scope = .str (text "pending") ∧ ∃ summary count,
        ms.lookup (text "summary") = some (.obj summary) ∧
        summary.lookup (text "migrations_checked") = some count ∧ isZero count = false ∧
        (LoopsDeep limit ms ∨ Reversible .loose ms ∧ limit < count.depth))

variable {limit : ℕ} {repr str : Json → Text} {v payload item : Json} {key : String}
  {ms : List (Text × Json)}

/-! ## Operations -/

/-- Only a dict has a text as a key. -/
theorem index_ok_iff {w : Json} :
    index v key = .ok w ↔ ∃ ms, v = .obj ms ∧ ms.lookup (text key) = some w := by
  unfold index
  cases v with
  | obj ms => cases h : ms.lookup (text key) <;> simp [h]
  | _ => simp

/-- Reading a member needs no recursion. -/
theorem index_deep : index v key ≠ .error .recursionError := by
  unfold index
  cases v with
  | obj ms => cases h : ms.lookup (text key) <;> simp [h]
  | _ => simp

/-- A use that succeeds gives the same value. -/
theorem use_ok_iff {α : Type} {x : Except UseError α} {a : α} : use x = .ok a ↔ x = .ok a := by
  rcases x with (_ | _ | _) | a' <;> simp [use]

/-- A use runs out of the stack where the operation does. -/
theorem use_deep_iff {α : Type} {x : Except UseError α} :
    use x = .error .recursionError ↔ x = .error .recursionError := by
  rcases x with (_ | _ | _) | a' <;> simp [use]

/-- A hash needs no recursion. -/
theorem key_deep : use v.key ≠ .error .recursionError := by
  cases v <;> simp [use, Json.key]

/-- Iterating needs no recursion. -/
theorem iter_deep : use v.iter ≠ .error .recursionError := by
  cases v <;> simp [use, Json.iter]

/-- Reading the members needs no recursion. -/
theorem members_deep : use v.members ≠ .error .recursionError := by
  cases v <;> simp [use, Json.members]

/-- A value runs out of the stack when it is nested too deep to be shown. -/
theorem shown_deep_iff : use (v.shown limit) = .error .recursionError ↔ limit < v.depth := by
  rw [use_deep_iff]
  unfold shown
  split
  · next h => simp [h]
  · next h => simp [Nat.lt_of_not_le h]

/-- A value is shown as its text, if it is not nested too deep. -/
theorem shownText_ok_iff {t : Text} :
    shownText limit str v = .ok t ↔ v.depth ≤ limit ∧ str v = t := by
  unfold shownText
  simp only [map_ok_iff, use_ok_iff, shown_ok_iff]
  constructor
  · rintro ⟨_, ⟨h, rfl⟩, ht⟩
    exact ⟨h, ht⟩
  · rintro ⟨h, ht⟩
    exact ⟨v, ⟨h, rfl⟩, ht⟩

/-- Showing runs out of the stack on what is nested too deep. -/
theorem shownText_deep_iff :
    shownText limit str v = .error .recursionError ↔ limit < v.depth := by
  rw [← shown_deep_iff]
  unfold shownText
  cases use (v.shown limit) <;> simp [Functor.map, Except.map]

/-- Only `True` is `True`. -/
theorem isTrue_iff : isTrue v = true ↔ v = .bool true := by
  cases v with
  | bool b => cases b <;> simp [isTrue]
  | _ => simp [isTrue]

/-- A member that is not `None` is there. -/
theorem getD_null_eq (hv : v ≠ .null) : getD ms key .null = v ↔ ms.lookup (text key) = some v := by
  unfold getD
  cases h : ms.lookup (text key) with
  | none => simp [Ne.symm hv]
  | some w => simp

/-! ## What is shown of an element -/

/-- A field is shown when it is not nested too deep. -/
theorem exists_shownField_iff (limit : ℕ) (str : Json → Text) :
    (∃ t, shownField limit str item key = .ok t) ↔ Shows item key (· ≤ limit) := by
  unfold shownField Shows
  simp only [bind_ok_iff, index_ok_iff, shownText_ok_iff]
  constructor
  · rintro ⟨t, v, ⟨ms, h, hv⟩, hle, -⟩
    exact ⟨ms, v, h, hv, hle⟩
  · rintro ⟨ms, v, h, hv, hle⟩
    exact ⟨str v, v, ⟨ms, h, hv⟩, hle, rfl⟩

/-- A field runs out of the stack when it is nested too deep. -/
theorem shownField_deep_iff (limit : ℕ) (str : Json → Text) :
    shownField limit str item key = .error .recursionError ↔ Shows item key (limit < ·) := by
  unfold shownField Shows
  simp only [bind_error_iff, index_deep, false_or, index_ok_iff, shownText_deep_iff]
  constructor
  · rintro ⟨v, ⟨ms, h, hv⟩, hdeep⟩
    exact ⟨ms, v, h, hv, hdeep⟩
  · rintro ⟨ms, v, h, hv, hdeep⟩
    exact ⟨v, ⟨ms, h, hv⟩, hdeep⟩

/-! ## One issue -/

/-- A verdict that is not on the list does not block. -/
theorem blockingVerdict_none_iff :
    blockingVerdict v = none ↔ ∀ entry ∈ blockingIssues, v ≠ .str entry.1 := by
  cases v with
  | str s =>
    unfold blockingVerdict
    simp only [List.lookup_eq_none_iff, bne_iff_ne, ne_eq, Json.str.injEq]
  | _ => simp [blockingVerdict]

/-- A verdict blocks when it is on the list. -/
theorem exists_blockingVerdict_iff :
    (∃ verdict, blockingVerdict v = some verdict) ↔ ∃ entry ∈ blockingIssues, v = .str entry.1 := by
  rw [← Option.ne_none_iff_exists', Ne, blockingVerdict_none_iff]
  simp only [ne_eq, not_forall, not_not, exists_prop]

/-- A code that blocks has a hash. -/
theorem blocks_iff {issue : Json} : Blocks issue ↔ ∃ ms code verdict, issue = .obj ms ∧
    ms.lookup (text "code") = some code ∧ blockingVerdict code = some verdict := by
  constructor
  · rintro ⟨ms, entry, rfl, hmem, hcode⟩
    obtain ⟨verdict, hverdict⟩ := exists_blockingVerdict_iff.mpr ⟨entry, hmem, rfl⟩
    exact ⟨ms, _, verdict, rfl, hcode, hverdict⟩
  · rintro ⟨ms, code, verdict, rfl, hcode, hverdict⟩
    obtain ⟨entry, hmem, rfl⟩ := exists_blockingVerdict_iff.mp ⟨verdict, hverdict⟩
    exact ⟨ms, entry, rfl, hmem, hcode⟩

/-- A verdict that blocks has a hash. -/
theorem key_of_blocking {verdict : Text} (h : blockingVerdict v = some verdict) :
    ∃ k, v.key = .ok k := by
  cases v with
  | str s => exact ⟨_, rfl⟩
  | _ => simp [blockingVerdict] at h

/-- An issue adds nothing when it is harmless. -/
theorem issueFinding_none_iff (limit : ℕ) (str : Json → Text) {issue : Json} :
    issueFinding limit str issue = .ok none ↔ Harmless .loose issue := by
  unfold issueFinding
  simp only [bind_ok_iff, index_ok_iff, use_ok_iff]
  constructor
  · rintro ⟨code, ⟨ms, rfl, hcode⟩, k, hk, h⟩
    -- An issue that blocks is a finding.
    cases hverdict : blockingVerdict code with
    | none => exact ⟨ms, code, rfl, hcode, ⟨k, hk⟩, blockingVerdict_none_iff.mp hverdict⟩
    | some verdict =>
      simp only [hverdict, bind_ok_iff] at h
      obtain ⟨_, -, h⟩ := h
      cases h
  · rintro ⟨ms, code, rfl, hcode, ⟨k, hk⟩, hverdict⟩
    refine ⟨code, ⟨ms, rfl, hcode⟩, k, hk, ?_⟩
    rw [blockingVerdict_none_iff.mpr hverdict]
    rfl

/-- An issue is got past when it is harmless, or blocks and can be shown. -/
theorem exists_issueFinding_iff (limit : ℕ) (str : Json → Text) (issue : Json) :
    (∃ o, issueFinding limit str issue = .ok o) ↔ IssueRead limit issue := by
  unfold IssueRead
  rw [← issueFinding_none_iff limit str, blocks_iff]
  constructor
  -- An issue without a finding is harmless, and one with a finding blocks.
  · rintro ⟨o, h⟩
    by_cases hnone : o = none
    · exact .inl (hnone ▸ h)
    · right
      unfold issueFinding at h
      simp only [bind_ok_iff, index_ok_iff, use_ok_iff] at h
      obtain ⟨code, ⟨ms, rfl, hcode⟩, k, -, h⟩ := h
      cases hverdict : blockingVerdict code with
      | none =>
        simp only [hverdict, pure, Except.pure, Except.ok.injEq] at h
        exact absurd h.symm hnone
      | some verdict =>
        simp only [hverdict, bind_ok_iff] at h
        obtain ⟨t, ht, -⟩ := h
        exact ⟨⟨ms, code, verdict, rfl, hcode, hverdict⟩, (exists_shownField_iff limit str).mp ⟨t, ht⟩⟩
  · rintro (h | ⟨⟨ms, code, verdict, rfl, hcode, hverdict⟩, hshown⟩)
    · exact ⟨none, h⟩
    · obtain ⟨t, ht⟩ := (exists_shownField_iff limit str).mpr hshown
      obtain ⟨k, hk⟩ := key_of_blocking hverdict
      refine ⟨some (t, verdict), ?_⟩
      unfold issueFinding
      simp only [bind_ok_iff, index_ok_iff, use_ok_iff]
      refine ⟨code, ⟨ms, rfl, hcode⟩, k, hk, ?_⟩
      simp only [hverdict, bind_ok_iff]
      exact ⟨t, ht, rfl⟩

/-- An issue runs out of the stack when a field that is shown does. -/
theorem issueFinding_deep_iff {issue : Json} :
    issueFinding limit str issue = .error .recursionError ↔ IssueDeep limit issue := by
  unfold IssueDeep
  rw [blocks_iff, ← shownField_deep_iff limit str]
  unfold issueFinding
  simp only [bind_error_iff, index_deep, false_or, index_ok_iff, key_deep, use_ok_iff]
  constructor
  · rintro ⟨code, ⟨ms, rfl, hcode⟩, k, -, h⟩
    -- Only the finding of an issue that blocks shows its fields.
    cases hverdict : blockingVerdict code with
    | none => simp [hverdict, pure, Except.pure] at h
    | some verdict =>
      simp only [hverdict, bind_error_iff, pure, Except.pure, reduceCtorEq, and_false, exists_false,
        or_false] at h
      exact ⟨⟨ms, code, verdict, rfl, hcode, hverdict⟩, h⟩
  · rintro ⟨⟨ms, code, verdict, rfl, hcode, hverdict⟩, h⟩
    obtain ⟨k, hk⟩ := key_of_blocking hverdict
    refine ⟨code, ⟨ms, rfl, hcode⟩, k, hk, ?_⟩
    simp only [hverdict, bind_error_iff]
    exact .inl h

/-! ## One change -/

/-- A tier is undoable when it is on the list. -/
theorem isUndoable_iff : isUndoable v = true ↔ ∃ s ∈ undoableTiers, v = .str s := by
  cases v with
  | str s => simp [isUndoable]
  | _ => simp [isUndoable]

/-- A change adds nothing when a down can undo it. -/
theorem changeFinding_none_iff (limit : ℕ) (str : Json → Text) {change : Json} :
    changeFinding limit str change = .ok none ↔ Undoable change := by
  unfold changeFinding Undoable
  simp only [bind_ok_iff, use_ok_iff, members_ok_iff]
  constructor
  · rintro ⟨ms, rfl, k, -, h⟩
    -- A change that can be undone is no finding.
    split at h
    · next hundoable =>
      obtain ⟨s, hmem, hs⟩ := isUndoable_iff.mp hundoable
      exact ⟨ms, s, rfl, (getD_null_eq (by simp)).mp hs, hmem⟩
    · simp only [bind_ok_iff] at h
      obtain ⟨_, -, _, -, h⟩ := h
      cases h
  · rintro ⟨ms, s, rfl, hs, hmem⟩
    have htier : getD ms "tier" .null = .str s := (getD_null_eq (by simp)).mpr hs
    refine ⟨ms, rfl, .str s, by rw [htier]; rfl, ?_⟩
    rw [if_pos (isUndoable_iff.mpr ⟨s, hmem, htier⟩)]
    rfl

/-- A change is read when its fields are. -/
theorem exists_changeFinding_iff (limit : ℕ) (str : Json → Text) (change : Json) :
    (∃ o, changeFinding limit str change = .ok o) ↔ ChangeRead limit change := by
  unfold ChangeRead Forces
  rw [← changeFinding_none_iff limit str,
    ← exists_shownField_iff limit str, ← exists_shownField_iff limit str]
  constructor
  -- A change without a finding is undoable, and one with a finding is not.
  · rintro ⟨o, h⟩
    by_cases hnone : o = none
    · exact .inl (hnone ▸ h)
    · right
      unfold changeFinding at h
      simp only [bind_ok_iff, use_ok_iff, members_ok_iff] at h
      obtain ⟨ms, rfl, k, hk, h⟩ := h
      split at h
      · exact absurd (Except.ok.inj h).symm hnone
      · next hundoable =>
        simp only [bind_ok_iff] at h
        obtain ⟨m, hm, kind, hkind, -⟩ := h
        exact ⟨⟨ms, k, rfl, hk, by simpa using hundoable⟩, ⟨m, hm⟩, kind, hkind⟩
  · rintro (h | ⟨⟨ms, k, rfl, hk, hundoable⟩, ⟨m, hm⟩, kind, hkind⟩)
    · exact ⟨none, h⟩
    · unfold changeFinding
      simp only [bind_ok_iff, use_ok_iff, members_ok_iff]
      let label :=
        if isNone (getD ms "tier" .null) then text "unclassified" else str (getD ms "tier" .null)
      refine ⟨some (m, text "is " ++ label ++ text " (" ++ kind ++ text ")"), ms, rfl, k, hk, ?_⟩
      rw [if_neg (by simp [hundoable])]
      simp only [bind_ok_iff]
      exact ⟨m, hm, kind, hkind, rfl⟩

/-- A change runs out of the stack when a field that is shown does. -/
theorem changeFinding_deep_iff {change : Json} :
    changeFinding limit str change = .error .recursionError ↔ ChangeDeep limit change := by
  unfold ChangeDeep Forces
  rw [← shownField_deep_iff limit str, ← exists_shownField_iff limit str,
    ← shownField_deep_iff limit str]
  unfold changeFinding
  simp only [bind_error_iff, members_deep, false_or, use_ok_iff, members_ok_iff, key_deep]
  constructor
  · rintro ⟨ms, rfl, k, hk, h⟩
    -- A change that is undoable shows nothing.
    split at h
    · cases h
    · next hundoable =>
      simp only [bind_error_iff, pure, Except.pure, reduceCtorEq, and_false, exists_false,
        or_false] at h
      refine ⟨⟨ms, k, rfl, hk, by simpa using hundoable⟩, ?_⟩
      obtain h | ⟨m, hm, h⟩ := h
      · exact .inl h
      · exact .inr ⟨⟨m, hm⟩, h⟩
  · rintro ⟨⟨ms, k, rfl, hk, hundoable⟩, h⟩
    refine ⟨ms, rfl, k, hk, ?_⟩
    rw [if_neg (by simp [hundoable])]
    simp only [bind_error_iff]
    obtain h | ⟨⟨m, hm⟩, h⟩ := h
    · exact .inl h
    · exact .inr ⟨m, hm, .inl h⟩

/-! ## The loops -/

/-- There is a reason for each finding. -/
theorem whyOf_eq_nil_iff {findings : List (Text × Text)} : whyOf findings = [] ↔ findings = [] := by
  unfold whyOf
  cases findings with
  | nil => simp
  | cons finding findings => simp [List.eraseDups_cons]

/-- A loop that adds nothing has got past every element without adding anything. -/
theorem mapM_adds_nothing {α ε : Type} {f : Json → Except ε (Option α)} {items : List Json} :
    (∃ os, items.mapM f = .ok os ∧ os.reduceOption = []) ↔ ∀ x ∈ items, f x = .ok none := by
  constructor
  · rintro ⟨os, hos, hnone⟩ x hx
    obtain ⟨o, ho⟩ := exists_mapM_ok_iff.mp ⟨os, hos⟩ x hx
    have hmem : o ∈ os := (mem_of_mapM_ok hos).mpr ⟨x, hx, ho⟩
    -- A finding of one element would be one of the loop.
    cases o with
    | none => exact ho
    | some a =>
      have ha : a ∈ os.reduceOption := List.reduceOption_mem_iff.mpr hmem
      rw [hnone] at ha
      cases ha
  · intro h
    obtain ⟨os, hos⟩ := exists_mapM_ok_iff.mpr fun x hx => ⟨none, h x hx⟩
    refine ⟨os, hos, List.eq_nil_iff_forall_not_mem.mpr fun a ha => ?_⟩
    obtain ⟨x, hx, hfx⟩ := (mem_of_mapM_ok hos).mp (List.reduceOption_mem_iff.mp ha)
    rw [h x hx] at hfx
    cases hfx

/-- Nothing forces the template when no issue blocks and every change can be undone. -/
theorem forcing_nil_iff :
    forcing limit str (.obj ms) = .ok [] ↔
      (∃ v items, ms.lookup (text "issues") = some v ∧ v.iter = .ok items ∧
        ∀ issue ∈ items, Harmless .loose issue) ∧
      ∃ changeSet v items, ms.lookup (text "change_set") = some (.obj changeSet) ∧
        changeSet.lookup (text "changes") = some v ∧ v.iter = .ok items ∧
        ∀ change ∈ items, Undoable change := by
  unfold forcing
  simp only [bind_ok_iff, index_ok_iff, use_ok_iff, pure, Except.pure, Except.ok.injEq,
    whyOf_eq_nil_iff, List.append_eq_nil_iff, Json.obj.injEq, exists_eq_left',
    ← issueFinding_none_iff limit str,
    ← changeFinding_none_iff limit str, ← mapM_adds_nothing]
  -- Each loop adds nothing exactly when none of its items does.
  constructor
  · rintro ⟨v, hv, items, hitems, os, hos, cs, hcs, w, ⟨changeSet, rfl, hw⟩, changes, hchanges, ps,
      hps, hnone, hnone'⟩
    exact ⟨⟨v, items, hv, hitems, os, hos, hnone⟩,
      changeSet, w, changes, hcs, hw, hchanges, ps, hps, hnone'⟩
  · rintro ⟨⟨v, items, hv, hitems, os, hos, hnone⟩, changeSet, w, changes, hcs, hw, hchanges, ps, hps,
      hnone'⟩
    exact ⟨v, hv, items, hitems, os, hos, _, hcs, w, ⟨changeSet, rfl, hw⟩, changes, hchanges, ps, hps,
      hnone, hnone'⟩

/-- A loop runs out of the stack at the first item that does, after items that are read. -/
theorem mapM_deep_iff {α : Type} {f : Json → Except Raised α} {read deep : Json → Prop}
    (items : List Json) (hread : ∀ x, (∃ o, f x = .ok o) ↔ read x)
    (hdeep : ∀ x, f x = .error .recursionError ↔ deep x) :
    items.mapM f = .error .recursionError ↔ Stops read deep items := by
  rw [mapM_error_iff]
  unfold Stops
  simp only [hread, hdeep]

/-- The loops fail for a depth when they come to something that is too deep. -/
theorem forcing_deep_iff :
    forcing limit str (.obj ms) = .error .recursionError ↔ LoopsDeep limit ms := by
  -- A loop fails for a depth when one of its items does, after those that can be read.
  have hissues (items : List Json) := mapM_deep_iff items
    (exists_issueFinding_iff limit str)
    (fun x => issueFinding_deep_iff)
  have hchanges (items : List Json) := mapM_deep_iff items
    (exists_changeFinding_iff limit str)
    (fun x => changeFinding_deep_iff)
  unfold forcing LoopsDeep
  simp only [bind_error_iff, index_deep, iter_deep, false_or, index_ok_iff, use_ok_iff, pure,
    Except.pure, reduceCtorEq, and_false, exists_false, or_false, Json.obj.injEq, exists_eq_left',
    hissues, hchanges]
  constructor
  · rintro ⟨v, hv, issues, hiter, hstops | ⟨os, hos, cs, hcs, w, ⟨changeSet, rfl, hw⟩, changes, hw',
      hstops⟩⟩
    · exact ⟨v, issues, hv, hiter, .inl hstops⟩
    · exact ⟨v, issues, hv, hiter, .inr ⟨fun issue hissue => (exists_issueFinding_iff limit str _).mp
        (exists_mapM_ok_iff.mp ⟨os, hos⟩ issue hissue), changeSet, w, changes, hcs, hw, hw', hstops⟩⟩
  · rintro ⟨v, issues, hv, hiter, hstops | ⟨hread, changeSet, w, changes, hcs, hw, hw', hstops⟩⟩
    · exact ⟨v, hv, issues, hiter, .inl hstops⟩
    · obtain ⟨os, hos⟩ := exists_mapM_ok_iff.mpr fun issue hissue =>
        (exists_issueFinding_iff limit str _).mpr (hread issue hissue)
      exact ⟨v, hv, issues, hiter, .inr ⟨os, hos, _, hcs, w, ⟨changeSet, rfl, hw⟩, changes, hw',
        hstops⟩⟩

/-! ## The decision -/

/-- The count is that of the summary. -/
theorem migrationsChecked_ok_iff {count : Json} :
    migrationsChecked (.obj ms) = .ok count ↔ ∃ summary,
      ms.lookup (text "summary") = some (.obj summary) ∧
        summary.lookup (text "migrations_checked") = some count := by
  unfold migrationsChecked
  simp only [bind_ok_iff, index_ok_iff, Json.obj.injEq, exists_eq_left']
  constructor
  · rintro ⟨_, h, summary, rfl, hcount⟩
    exact ⟨summary, h, hcount⟩
  · rintro ⟨summary, h, hcount⟩
    exact ⟨_, h, summary, rfl, hcount⟩

/-- Reading the count needs no recursion. -/
theorem migrationsChecked_deep : migrationsChecked payload ≠ .error .recursionError := by
  unfold migrationsChecked
  simp only [ne_eq, bind_error_iff, index_deep, and_false, exists_false, or_self, not_false_eq_true]

/-- A payload is reversible when it says so and nothing forces a rebuild. -/
theorem reversible_iff (limit : ℕ) (str : Json → Text) : Reversible .loose ms ↔
    getD ms "reversible" .null = .bool true ∧ forcing limit str (.obj ms) = .ok [] := by
  rw [forcing_nil_iff, getD_null_eq (by simp)]
  constructor
  · rintro ⟨hverdict, hissues, hchanges⟩
    exact ⟨hverdict, hissues, hchanges⟩
  · rintro ⟨hverdict, hissues, hchanges⟩
    exact ⟨hverdict, hissues, hchanges⟩

/-- On what is pending, no template is taken when there is nothing to undo, or all of it can be
undone and the count can be shown. -/
theorem decidePending_clears_iff :
    (∃ decision, decidePending limit str (.obj ms) = .ok decision ∧ decision.take = false) ↔
      ∃ count, migrationsChecked (.obj ms) = .ok count ∧
        (isZero count ∨ Reversible .loose ms ∧ isZero count = false ∧ count.depth ≤ limit) := by
  unfold decidePending
  simp only [bind_ok_iff]
  constructor
  · rintro ⟨decision, ⟨count, hcount, h⟩, htake⟩
    refine ⟨count, hcount, ?_⟩
    by_cases hzero : isZero count = true
    · exact .inl hzero
    · right
      rw [if_neg hzero] at h
      simp only [bind_ok_iff, use_ok_iff, members_ok_iff] at h
      obtain ⟨why, hwhy, ms', hms, h⟩ := h
      obtain rfl := Json.obj.inj hms
      -- the template is not taken by the second branch alone
      split at h
      · obtain rfl := Except.ok.inj h
        cases htake
      · next hverdict =>
        split at h
        · next hnil =>
          simp only [bind_ok_iff, shownText_ok_iff] at h
          obtain ⟨shown, ⟨hdepth, -⟩, -⟩ := h
          subst hnil
          have htrue : isTrue (getD ms "reversible" .null) = true := by simpa using hverdict
          exact ⟨(reversible_iff limit str).mpr ⟨isTrue_iff.mp htrue, hwhy⟩, by simpa using hzero, hdepth⟩
        · obtain rfl := Except.ok.inj h
          cases htake
  · rintro ⟨count, hcount, hzero | ⟨hreversible, hzero, hdepth⟩⟩
    · refine ⟨{ take := false, reason := text "no pending migration" }, ⟨count, hcount, ?_⟩, rfl⟩
      rw [if_pos hzero]
      rfl
    · obtain ⟨hverdict, hwhy⟩ := (reversible_iff limit str).mp hreversible
      refine ⟨{ take := false, reason := undoableReason (str count) }, ⟨count, hcount, ?_⟩, rfl⟩
      rw [if_neg (by simp [hzero])]
      simp only [bind_ok_iff, use_ok_iff, members_ok_iff]
      refine ⟨[], hwhy, ms, rfl, ?_⟩
      rw [if_neg (by simp [hverdict, isTrue]), if_pos rfl]
      simp only [bind_ok_iff, shownText_ok_iff]
      exact ⟨str count, ⟨hdepth, rfl⟩, rfl⟩

/-- The decision runs out of the stack in its loops, or when it shows the count. -/
theorem decidePending_deep_iff :
    decidePending limit str (.obj ms) = .error .recursionError ↔
      ∃ count, migrationsChecked (.obj ms) = .ok count ∧ isZero count = false ∧
        (LoopsDeep limit ms ∨ Reversible .loose ms ∧ limit < count.depth) := by
  unfold decidePending
  simp only [bind_error_iff, migrationsChecked_deep, false_or]
  refine exists_congr fun count => and_congr_right fun _ => ?_
  -- Without pending migrations nothing more is read.
  cases hzero : isZero count with
  | true => simp [pure, Except.pure]
  | false =>
    simp only [Bool.false_eq_true, if_false, bind_error_iff, forcing_deep_iff, true_and,
      members_deep, false_or, use_ok_iff, members_ok_iff, Json.obj.injEq, exists_eq_left']
    refine or_congr_right ?_
    rw [reversible_iff limit str]
    constructor
    -- The loops come before the count is shown.
    · rintro ⟨why, hwhy, h⟩
      split at h
      · cases h
      · next hverdict =>
        split at h
        · next hnil =>
          subst hnil
          simp only [bind_error_iff, shownText_deep_iff, pure, Except.pure, reduceCtorEq, and_false,
            exists_false, or_false] at h
          have htrue : isTrue (getD ms "reversible" .null) = true := by simpa using hverdict
          exact ⟨⟨isTrue_iff.mp htrue, hwhy⟩, h⟩
        · cases h
    · rintro ⟨⟨hverdict, hwhy⟩, hdepth⟩
      refine ⟨[], hwhy, ?_⟩
      rw [if_neg (by simp [hverdict, isTrue]), if_pos rfl]
      simp only [bind_error_iff, shownText_deep_iff]
      exact .inl hdepth

/-- A decision that takes no template is one on a report that is cleared as the rule reads it. -/
theorem cleared_of_decideAuto {decision : TemplateDecision}
    (h : decideAuto limit repr str payload = .ok decision) (htake : decision.take = false) :
    Cleared .loose payload := by
  unfold decideAuto at h
  simp only [bind_ok_iff, index_ok_iff] at h
  obtain ⟨scope, ⟨ms, rfl, hscope⟩, h⟩ := h
  -- Only a pending change set can take no template.
  split at h
  · next hpending =>
    obtain rfl := isStr_iff.mp hpending
    obtain ⟨count, hcount, hcleared⟩ := decidePending_clears_iff.mp ⟨decision, h, htake⟩
    obtain ⟨summary, hsummary, hchecked⟩ := migrationsChecked_ok_iff.mp hcount
    refine ⟨ms, summary, count, rfl, hscope, hsummary, hchecked, ?_⟩
    exact hcleared.imp id fun hreversible => ⟨trivial, hreversible.1⟩
  · simp only [bind_ok_iff] at h
    obtain ⟨_, -, h⟩ := h
    obtain rfl := Except.ok.inj h
    cases htake

/-- Something is too deep for the rule exactly when it raises what the clause does not catch. -/
theorem decideAuto_deep_iff :
    decideAuto limit repr str payload = .error .recursionError ↔ TooDeep limit payload := by
  unfold decideAuto TooDeep
  simp only [bind_error_iff, index_deep, false_or, index_ok_iff]
  constructor
  · rintro ⟨scope, ⟨ms, rfl, hscope⟩, h⟩
    refine ⟨ms, scope, rfl, hscope, ?_⟩
    -- A scope other than the known ones is shown.
    split at h
    · next hpending =>
      obtain ⟨count, hcount, hdeep⟩ := decidePending_deep_iff.mp h
      obtain ⟨summary, hsummary, hchecked⟩ := migrationsChecked_ok_iff.mp hcount
      exact .inr ⟨isStr_iff.mp hpending, summary, count, hsummary, hchecked, hdeep⟩
    · next hpending =>
      simp only [bind_error_iff, shown_deep_iff, pure, Except.pure, reduceCtorEq, and_false,
        exists_false, or_false] at h
      exact .inl ⟨fun hscope => hpending (isStr_iff.mpr hscope), h⟩
  · rintro ⟨ms, scope, rfl, hscope, h⟩
    refine ⟨scope, ⟨ms, rfl, hscope⟩, ?_⟩
    obtain ⟨hpending, hdepth⟩ | ⟨rfl, summary, count, hsummary, hchecked, hdeep⟩ := h
    · rw [if_neg fun hstr => hpending (isStr_iff.mp hstr)]
      simp only [bind_error_iff, shown_deep_iff]
      exact .inl hdepth
    · rw [if_pos (isStr_iff.mpr rfl)]
      exact decidePending_deep_iff.mpr
        ⟨count, migrationsChecked_ok_iff.mpr ⟨summary, hsummary, hchecked⟩, hdeep⟩

/-- A report that is cleared as the rule reads it takes no template, if its count can be shown. -/
theorem decideAuto_of_cleared (h : Cleared .loose payload) (hdeep : ¬TooDeep limit payload) :
    ∃ decision, decideAuto limit repr str payload = .ok decision ∧ decision.take = false := by
  obtain ⟨ms, summary, count, rfl, hscope, hsummary, hchecked, hcleared⟩ := h
  have hcount := migrationsChecked_ok_iff.mpr ⟨summary, hsummary, hchecked⟩
  have hclears : isZero count = true ∨
      Reversible .loose ms ∧ isZero count = false ∧ count.depth ≤ limit := by
    cases hzero : isZero count with
    | true => exact .inl rfl
    | false =>
      obtain hzero' | ⟨-, hreversible⟩ := hcleared
      · rw [show isZero count = true from hzero'] at hzero
        cases hzero
      · refine .inr ⟨hreversible, rfl, Nat.le_of_not_lt fun hdepth => hdeep ?_⟩
        exact ⟨ms, _, rfl, hscope, .inr ⟨rfl, summary, count, hsummary, hchecked, hzero,
          .inr ⟨hreversible, hdepth⟩⟩⟩
  -- A count that clears the report takes no template.
  obtain ⟨decision, hdecision, htake⟩ : ∃ decision,
      decidePending limit str (.obj ms) = .ok decision ∧ decision.take = false :=
    decidePending_clears_iff.mpr ⟨count, hcount, hclears⟩
  refine ⟨decision, ?_, htake⟩
  unfold decideAuto
  simp only [bind_ok_iff, index_ok_iff]
  refine ⟨_, ⟨ms, rfl, hscope⟩, ?_⟩
  rw [if_pos (isStr_iff.mpr rfl)]
  exact hdecision

/-- The decision errs on the safe side exactly when nothing that it comes to is too deep to be shown,
and the report, if the rule reads it as cleared, is cleared on its own terms. -/
theorem errs_safe_iff (limit : ℕ) (repr str : Json → Text) (mode : TemplateMode) (payload : Json) :
    ErrsSafe limit repr str mode payload ↔ (mode = .auto →
      ¬TooDeep limit payload ∧ (Cleared .loose payload → Cleared .strict payload)) := by
  unfold ErrsSafe decideTemplate
  cases mode with
  | always => simp
  | never => simp
  | auto =>
    -- Without a payload the decision is a copy.
    simp only [forall_const]
    by_cases hnull : isNone payload = true
    · rw [if_pos hnull]
      cases payload with
      | null => simp [TooDeep, Cleared]
      | _ => cases hnull
    rw [if_neg hnull]
    constructor
    -- The decision is read as the rule reads the payload, which is looser than it should be.
    · rintro ⟨decision, hdecision, hstrict⟩
      have hdeep : ¬TooDeep limit payload := by
        intro hdeep
        rw [decideAuto_deep_iff.mpr hdeep] at hdecision
        cases hdecision
      refine ⟨hdeep, fun hloose => ?_⟩
      obtain ⟨decision', hauto, htake⟩ : ∃ decision',
          decideAuto limit repr str payload = .ok decision' ∧ decision'.take = false :=
        decideAuto_of_cleared hloose hdeep
      rw [hauto] at hdecision
      obtain rfl := Except.ok.inj hdecision
      exact hstrict htake
    · rintro ⟨hdeep, hcleared⟩
      cases hauto : decideAuto limit repr str payload with
      | ok decision =>
        exact ⟨decision, rfl, fun htake => hcleared (cleared_of_decideAuto hauto htake)⟩
      | error e =>
        cases e with
        | recursionError => exact absurd (decideAuto_deep_iff.mp hauto) hdeep
        | _ => exact ⟨_, rfl, fun htake => nomatch htake⟩

/-- A report whose count is `false`. -/
def falseCount : Json :=
  .obj [(text "scope", .str (text "pending")),
    (text "summary", .obj [(text "migrations_checked", .bool false)])]

/-- No template is taken on a count that is `false`. -/
theorem falseCount_unsafe :
    decideTemplate 100 (fun _ => []) (fun _ => []) .auto falseCount =
      .ok { take := false, reason := text "no pending migration" } ∧
    ¬ErrsSafe 100 (fun _ => []) (fun _ => []) .auto falseCount := by
  have hdecision : decideTemplate 100 (fun _ => []) (fun _ => []) .auto falseCount =
      .ok { take := false, reason := text "no pending migration" } := by decide
  -- The count is `false`, which equals zero and is no number.
  refine ⟨hdecision, ?_⟩
  rintro ⟨decision, h, hstrict⟩
  obtain rfl := Except.ok.inj (hdecision.symm.trans h)
  obtain ⟨ms, summary, count, hms, -, hsummary, hcount, hcleared⟩ := hstrict rfl rfl
  obtain rfl := Json.obj.inj hms
  have hsummary' : some (Json.obj [(text "migrations_checked", .bool false)]) =
      some (.obj summary) := hsummary
  obtain rfl := Json.obj.inj (Option.some.inj hsummary')
  have hcount' : some (Json.bool false) = some count := hcount
  obtain rfl := Option.some.inj hcount'
  obtain hzero | ⟨⟨n, hn⟩, -⟩ := hcleared
  · cases hzero
  · cases hn

end Fraisier.Dbops.TemplateRule
