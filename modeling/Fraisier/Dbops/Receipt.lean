import Fraisier.Lib.Fallible
import Fraisier.Dbops.ConfitureContract

/-!
# The receipt of a restore

`read_receipt` and `verify_actuation` of `receipt.py`. `psql` is called twice, to ask whether there is
a table of receipts and to read the newest row of it as JSON. Only the first call is guarded against
a `psql` that does not start, and the decoder of the row only against some of the errors that it can
raise. `honest_iff` says for which outcomes of the two calls the verdict is what the module says it
is. The details of a verdict are texts for the operator and left out, and the database is one whose
name and URL are accepted.
-/

namespace Fraisier.Dbops.Receipt

open Fraisier.Lib Fallible Unicode Json

/-! ## Reading a row -/

/-- What is raised. `FileNotFoundError` is an `OSError`, and `UnicodeDecodeError` apart from the other
`ValueError`s. -/
inductive Exn
  | valueError | typeError | keyError | attributeError | overflowError | recursionError | osError
  | unicodeDecodeError
  deriving DecidableEq, Repr

/-- What `_parse_receipt` catches. -/
def Exn.caught : Exn → Bool
  | .valueError | .typeError | .keyError => true
  | _ => false

/-- What the standard library makes of a text, `none` when it raises `ValueError`, and of a value that
is to be a text. -/
structure Readers (τ : Type) where
  /-- `int(s)`. -/
  int? : Text → Option ℤ
  /-- `float(s)`. -/
  float? : Text → Option Number
  /-- `datetime.fromisoformat(s)`. -/
  fromIsoFormat? : Text → Option τ
  /-- `str(v)` of a value that is no string. -/
  str : Json → Text

/-- `RestoreReceipt`. -/
structure RestoreReceipt (τ : Type) where
  runId : Text
  backupPath : Text
  backupBytes : ℤ
  restoredAt : τ
  ageSeconds : Number
  floorSchema : Option Text := none
  templateTaken : Option Bool := none
  templateReason : Option Text := none

/-- `age_seconds / 3600.0`, rounded as a `float` is. -/
def hours : Number → Number
  | .finite q => nearest (decide (q < 0)) q.num.natAbs (q.den * 3600)
  | x => x

/-- `RestoreReceipt.age_hours`. -/
def RestoreReceipt.ageHours {τ : Type} (r : RestoreReceipt τ) : Number := hours r.ageSeconds

/-- `x < y` of two floats. -/
def Number.below : Number → Number → Bool
  | .nan, _ | _, .nan => false
  | .finite p, .finite q => p < q
  | .infinity negative, .finite _ => negative
  | .finite _, .infinity negative => !negative
  | .infinity negative, .infinity negative' => negative && !negative'

section

variable {τ : Type} (limits : Limits) (readers : Readers τ) (members : List (Text × Json))

/-- `row[key]`. -/
def item (key : String) : Except Exn Json :=
  match members.lookup (text key) with
  | some v => pure v
  | none => throw .keyError

/-- `str(v)`. -/
def toStr : Json → Except Exn Text
  | .str s => pure s
  | v => if v.depth ≤ limits.repr then pure (readers.str v) else throw .recursionError

/-- What a reader returns, or its `ValueError`. -/
def orValueError {α : Type} : Option α → Except Exn α
  | some a => pure a
  | none => throw .valueError

/-- `int(v)`. -/
def toInt : Json → Except Exn ℤ
  | .int n => pure n
  | .bool b => pure (if b then 1 else 0)
  | .float literal => match floatValue literal with
    | .finite q => pure (q.num.tdiv q.den)
    | .nan => throw .valueError
    | .infinity _ => throw .overflowError
  | .str s => orValueError (readers.int? s)
  | _ => throw .typeError

/-- `float(v)`. -/
def toFloat : Json → Except Exn Number
  | .int n => match nearest (decide (n < 0)) n.natAbs 1 with
    | .infinity _ => throw .overflowError
    | x => pure x
  | .bool b => pure (.finite (if b then 1 else 0))
  | .float literal => pure (floatValue literal)
  | .str s => orValueError (readers.float? s)
  | _ => throw .typeError

/-- `datetime.fromisoformat(v)`. -/
def toDatetime : Json → Except Exn τ
  | .str s => orValueError (readers.fromIsoFormat? s)
  | _ => throw .typeError

/-- `str(v) if v else None`. -/
def toOptionalStr (v : Json) : Except Exn (Option Text) :=
  if v.truthy then (toStr limits readers v).map some else pure none

/-! The fields of a receipt, in the order in which they are read. -/

def runId : Except Exn Text := item members "run_id" >>= toStr limits readers
def backupPath : Except Exn Text := item members "backup_path" >>= toStr limits readers
def backupBytes : Except Exn ℤ := item members "backup_bytes" >>= toInt readers
def restoredAt : Except Exn τ := item members "restored_at" >>= toDatetime readers
def ageSeconds : Except Exn Number := item members "age_seconds" >>= toFloat readers

def floorSchema : Except Exn (Option Text) :=
  toOptionalStr limits readers (getD members "floor_schema" .null)

def templateTaken : Option Bool :=
  match getD members "template_taken" .null with
  | .bool b => some b
  | _ => none

def templateReason : Except Exn (Option Text) :=
  toOptionalStr limits readers (getD members "template_reason" .null)

/-- `RestoreReceipt(…)` of a row. -/
def receiptOf : Except Exn (RestoreReceipt τ) := do
  let runId ← runId limits readers members
  let backupPath ← backupPath limits readers members
  let backupBytes ← backupBytes readers members
  let restoredAt ← restoredAt readers members
  let ageSeconds ← ageSeconds readers members
  let floorSchema ← floorSchema limits readers members
  let templateReason ← templateReason limits readers members
  pure { runId, backupPath, backupBytes, restoredAt, ageSeconds, floorSchema
         templateTaken := templateTaken members, templateReason }

/-- `json.loads` and what is read of the row. -/
def readPayload (payload : Str) : Except Exn (RestoreReceipt τ) :=
  match loadsOutput limits.loads payload with
  | .error .recursionError => throw .recursionError
  | .error _ => throw .valueError
  | .ok (.obj members) => receiptOf limits readers members
  | .ok _ => throw .attributeError

/-- `_parse_receipt`. -/
def parseReceipt (payload : Str) : Except Exn (Option (RestoreReceipt τ)) :=
  match readPayload limits readers payload with
  | .ok receipt => pure (some receipt)
  | .error e => if e.caught then pure none else throw e

/-! ## The verdict -/

/-- `ActuationVerdict`. -/
inductive ActuationVerdict
  | actuated | stale | missing | unverifiable
  deriving DecidableEq, Repr

/-- `ActuationCheck`. -/
structure ActuationCheck (τ : Type) where
  verdict : ActuationVerdict
  receipt : Option (RestoreReceipt τ) := none

/-- What becomes of a call of `psql`. -/
inductive Call
  /-- It is not there, or cannot be started. -/
  | notStarted
  /-- What it prints is no text. -/
  | garbled
  | exited (code : ℤ) (stdout : Str)
  deriving DecidableEq, Repr

/-- `_psql`. -/
def Call.run : Call → Except Exn (ℤ × Str)
  | .notStarted => throw .osError
  | .garbled => throw .unicodeDecodeError
  | .exited code stdout => pure (code, stdout)

/-- What `read_receipt` answers to the second call. -/
def readRow (read : Call) : Except Exn (ActuationCheck τ) := do
  let (code, stdout) ← read.run
  if code ≠ 0 then return { verdict := .unverifiable }
  if stdout.strip = [] then return { verdict := .missing }
  match ← parseReceipt limits readers stdout.strip with
  | none => return { verdict := .unverifiable }
  | some receipt => return { verdict := .actuated, receipt := some receipt }

/-- `read_receipt`, by the outcomes of its two calls. -/
def readReceipt (probe read : Call) : Except Exn (ActuationCheck τ) :=
  match probe.run with
  | .error .osError => pure { verdict := .unverifiable }
  | .error e => throw e
  | .ok (code, stdout) =>
    if code ≠ 0 then pure { verdict := .unverifiable }
    else if stdout.strip ≠ "t".toList then pure { verdict := .missing }
    else readRow limits readers read

/-- `verify_actuation`. -/
def verifyActuation (expectedRunId : Option Text) (maxAgeHours : Option Number)
    (probe read : Call) : Except Exn (ActuationCheck τ) := do
  if expectedRunId = none ∧ maxAgeHours = none then throw .valueError
  let check ← readReceipt limits readers probe read
  match check.receipt with
  | none => return check
  | some receipt =>
    if expectedRunId.any (receipt.runId ≠ ·) then return { check with verdict := .stale }
    if maxAgeHours.any (Number.below · receipt.ageHours) then return { check with verdict := .stale }
    return check

/-! ## What accounts for a receipt -/

/-- What a receipt is checked against, of which something is given. -/
structure Criterion where
  expectedRunId : Option Text
  maxAgeHours : Option Number
  given : ¬(expectedRunId = none ∧ maxAgeHours = none)

variable (c : Criterion)

/-- The row is a complete receipt: it names a run and a backup, and has their size, time and age. -/
structure IsReceipt (r : RestoreReceipt τ) : Prop where
  runId : members.lookup (text "run_id") = some (.str r.runId)
  backupPath : members.lookup (text "backup_path") = some (.str r.backupPath)
  backupBytes : backupBytes readers members = .ok r.backupBytes
  restoredAt : restoredAt readers members = .ok r.restoredAt
  ageSeconds : ageSeconds readers members = .ok r.ageSeconds
  measured : r.ageSeconds ≠ .nan
  floorSchema : floorSchema limits readers members = .ok r.floorSchema
  templateTaken : templateTaken members = r.templateTaken
  templateReason : templateReason limits readers members = .ok r.templateReason

/-- The text is one of a complete receipt. -/
def Reads (payload : Str) (r : RestoreReceipt τ) : Prop :=
  ∃ members, loadsOutput limits.loads payload = .ok (.obj members) ∧
    IsReceipt limits readers members r

/-- `x ≤ y` of two floats. -/
def Number.atMost (x y : Number) : Bool := Number.below x y || x = y && x ≠ .nan

/-- The receipt satisfies every criterion that is given. -/
structure Satisfies {τ : Type} (c : Criterion) (r : RestoreReceipt τ) : Prop where
  runId : ∀ id, c.expectedRunId = some id → r.runId = id
  age : ∀ hours, c.maxAgeHours = some hours → Number.atMost r.ageHours hours

/-- The call failed. -/
def Call.Failed : Call → Prop
  | .exited code _ => code ≠ 0
  | _ => True

/-- The call succeeded and printed the text, between blanks. -/
def Call.Answered (text : Str) : Call → Prop
  | .exited code stdout => code = 0 ∧ stdout.strip = text
  | _ => False

/-- The outcomes of the calls allow a verdict. -/
structure Allowed (probe read : Call) (verdict : ActuationVerdict) : Prop where
  actuated : verdict = .actuated → probe.Answered "t".toList ∧ ∃ payload r, read.Answered payload ∧
    Reads limits readers payload r ∧ Satisfies c r
  missing : verdict = .missing →
    probe.Answered "f".toList ∨ probe.Answered "t".toList ∧ read.Answered []
  unverifiable : probe.Failed ∨ probe.Answered "t".toList ∧ (read.Failed ∨ ∃ payload ≠ [],
    read.Answered payload ∧ ∀ r, ¬Reads limits readers payload r) → verdict = .unverifiable

/-- A verdict is reached that the outcomes of the calls allow. -/
def Honest (probe read : Call) : Prop :=
  ∃ check, verifyActuation limits readers c.expectedRunId c.maxAgeHours probe read = .ok check ∧
    Allowed limits readers c probe read check.verdict

/-! ## When it is -/

/-- What is raised. -/
def raises {α : Type} : Except Exn α → Option Exn
  | .error e => some e
  | .ok _ => none

/-- What the fields of a row raise, each for itself. -/
def failures : List Exn :=
  [raises (runId limits readers members), raises (backupPath limits readers members),
    raises (backupBytes readers members), raises (restoredAt readers members),
    raises (ageSeconds readers members), raises (floorSchema limits readers members),
    raises (templateReason limits readers members)].reduceOption

/-- A row that has its fields names the run and the backup by texts and has an age that is a number,
and a maximum that is none is not what decides. -/
structure Plain : Prop where
  runId : ∃ s, members.lookup (text "run_id") = some (.str s) ∧
    (c.maxAgeHours = some .nan → ∃ id, c.expectedRunId = some id ∧ s ≠ id)
  backupPath : ∃ s, members.lookup (text "backup_path") = some (.str s)
  ageSeconds : ageSeconds readers members ≠ .ok .nan

/-- The first of the fields that cannot be read is one whose error is caught, or the row is plain. -/
def RowJudged : Prop :=
  match (failures limits readers members).head? with
  | some e => e.caught
  | none => Plain readers members c

/-- The row is an object, and not nested too deeply to be decoded. -/
def Judged (payload : Str) : Prop :=
  match loadsOutput limits.loads payload with
  | .error e => e ≠ .recursionError
  | .ok (.obj members) => RowJudged limits readers members c
  | .ok _ => False

/-- The second call was made and printed what can be judged. -/
def ReadJudged : Call → Prop
  | .exited code stdout => code = 0 → stdout.strip ≠ [] → Judged limits readers c stdout.strip
  | _ => False

/-- The first call did not print what cannot be read, or something else than `t` or `f`, and the
second one is made only when it can be judged. -/
def Judgeable (read : Call) : Call → Prop
  | .notStarted => True
  | .garbled => False
  | .exited code stdout => code = 0 → stdout.strip = "f".toList ∨
    stdout.strip = "t".toList ∧ ReadJudged limits readers c read

/-! ## Rows -/

section Rows

variable {limits readers members c} {r r' : RestoreReceipt τ} {e : Exn}

/-- A row is read as far as the first of its fields that cannot be. -/
theorem head?_failures (limits : Limits) (readers : Readers τ) (members : List (Text × Json)) :
    (failures limits readers members).head? = raises (receiptOf limits readers members) := by
  unfold failures receiptOf
  -- The fields are read in this order, and the first that cannot be ends the reading.
  cases runId limits readers members with
  | error e => rfl
  | ok runId =>
    cases backupPath limits readers members with
    | error e => rfl
    | ok backupPath =>
      cases backupBytes readers members with
      | error e => rfl
      | ok backupBytes =>
        cases restoredAt readers members with
        | error e => rfl
        | ok restoredAt =>
          cases ageSeconds readers members with
          | error e => rfl
          | ok ageSeconds =>
            cases floorSchema limits readers members with
            | error e => rfl
            | ok floorSchema => cases templateReason limits readers members <;> rfl

/-- What is read of a row, field by field. -/
structure Fields (limits : Limits) (readers : Readers τ) (members : List (Text × Json))
    (r : RestoreReceipt τ) : Prop where
  runId : runId limits readers members = .ok r.runId
  backupPath : backupPath limits readers members = .ok r.backupPath
  backupBytes : backupBytes readers members = .ok r.backupBytes
  restoredAt : restoredAt readers members = .ok r.restoredAt
  ageSeconds : ageSeconds readers members = .ok r.ageSeconds
  floorSchema : floorSchema limits readers members = .ok r.floorSchema
  templateTaken : templateTaken members = r.templateTaken
  templateReason : templateReason limits readers members = .ok r.templateReason

/-- A receipt is read of its fields. -/
theorem receiptOf_ok_iff : receiptOf limits readers members = .ok r ↔
    Fields limits readers members r := by
  constructor
  -- The fields are read one after the other.
  · intro h
    unfold receiptOf at h
    obtain ⟨runId, hrunId, h⟩ := bind_ok_iff.mp h
    obtain ⟨backupPath, hbackupPath, h⟩ := bind_ok_iff.mp h
    obtain ⟨backupBytes, hbackupBytes, h⟩ := bind_ok_iff.mp h
    obtain ⟨restoredAt, hrestoredAt, h⟩ := bind_ok_iff.mp h
    obtain ⟨ageSeconds, hageSeconds, h⟩ := bind_ok_iff.mp h
    obtain ⟨floorSchema, hfloorSchema, h⟩ := bind_ok_iff.mp h
    obtain ⟨templateReason, htemplateReason, h⟩ := bind_ok_iff.mp h
    obtain rfl := Except.ok.inj h
    exact ⟨hrunId, hbackupPath, hbackupBytes, hrestoredAt, hageSeconds, hfloorSchema, rfl,
      htemplateReason⟩
  · intro h
    rw [receiptOf, h.runId, h.backupPath, h.backupBytes, h.restoredAt, h.ageSeconds, h.floorSchema,
      h.templateReason, h.templateTaken]
    rfl

/-- A text is read as it is. -/
theorem runId_of_str {s : Text} (h : members.lookup (text "run_id") = some (.str s)) :
    runId limits readers members = .ok s := by
  rw [runId, item, h]
  rfl

/-- A backup path that is a text is taken as it is. -/
theorem backupPath_of_str {s : Text} (h : members.lookup (text "backup_path") = some (.str s)) :
    backupPath limits readers members = .ok s := by
  rw [backupPath, item, h]
  rfl

/-- A complete receipt has all its fields. -/
theorem IsReceipt.fields (h : IsReceipt limits readers members r) :
    Fields limits readers members r :=
  ⟨runId_of_str h.runId, backupPath_of_str h.backupPath, h.backupBytes, h.restoredAt, h.ageSeconds,
    h.floorSchema, h.templateTaken, h.templateReason⟩

/-- What `verify_actuation` finds fault with in a receipt. -/
def stale (c : Criterion) (r : RestoreReceipt τ) : Bool :=
  c.expectedRunId.any (r.runId ≠ ·) || c.maxAgeHours.any (Number.below · r.ageHours)

/-- The nearest float of a fraction is a number. -/
theorem nearest_ne_nan (negative : Bool) (num den : ℕ) : nearest negative num den ≠ .nan := by
  unfold nearest
  dsimp only
  split
  · exact nofun
  · split <;> exact nofun

/-- The hours of a number are a number. -/
theorem hours_ne_nan {x : Number} (hx : x ≠ .nan) : hours x ≠ .nan := by
  cases x with
  | nan => exact absurd rfl hx
  | infinity negative => exact nofun
  | finite q => exact nearest_ne_nan _ _ _

/-- Two numbers can be compared. -/
theorem Number.atMost_of_not_below {x y : Number} (hx : x ≠ .nan) (hy : y ≠ .nan)
    (h : Number.below y x = false) : Number.atMost x y = true := by
  -- Neither is `nan`, and the others are in order.
  cases x with
  | nan => exact absurd rfl hx
  | finite p =>
    cases y with
    | nan => exact absurd rfl hy
    | finite q =>
      have hle : p ≤ q := by simpa [Number.below] using h
      simpa [Number.atMost, Number.below] using hle.lt_or_eq
    | infinity negative => cases negative <;> simp_all [Number.atMost, Number.below]
  | infinity negative =>
    cases y with
    | nan => exact absurd rfl hy
    | finite q => cases negative <;> simp_all [Number.atMost, Number.below]
    | infinity negative' =>
      cases negative <;> cases negative' <;> simp_all [Number.atMost, Number.below]

/-- Nothing is at most NaN. -/
theorem Number.atMost_nan (x : Number) : Number.atMost x .nan = false := by
  cases x <;> simp [Number.atMost, Number.below]

/-- Against a maximum that is no number nothing is too old. -/
theorem stale_of_nan (hmax : c.maxAgeHours = some .nan)
    (hrun : ∀ id, c.expectedRunId = some id → r.runId = id) : stale c r = false := by
  have hfirst : c.expectedRunId.any (r.runId ≠ ·) = false := by
    cases hid : c.expectedRunId with
    | none => rfl
    | some id => simpa using hrun id hid
  rw [stale, hfirst, hmax]
  rfl

/-- A receipt without fault satisfies the criterion, unless the maximum is no number. -/
theorem satisfies_of_not_stale (hstale : stale c r = false) (hage : r.ageSeconds ≠ .nan)
    (hmax : c.maxAgeHours = some .nan → ∃ id, c.expectedRunId = some id ∧ r.runId ≠ id) :
    Satisfies c r := by
  obtain ⟨hfirst, hsecond⟩ := Bool.or_eq_false_iff.mp hstale
  have hrun : ∀ id, c.expectedRunId = some id → r.runId = id := by
    intro id hid
    rw [hid] at hfirst
    simpa using hfirst
  refine ⟨hrun, fun h hh => Number.atMost_of_not_below (hours_ne_nan hage) ?_ ?_⟩
  · rintro rfl
    obtain ⟨id, hid, hne⟩ := hmax hh
    exact hne (hrun id hid)
  · rw [hh] at hsecond
    exact hsecond

/-- A row that is read and plain is a complete receipt, and one without fault satisfies the
criterion. -/
theorem plain_iff (h : Fields limits readers members r) :
    Plain readers members c ↔
      IsReceipt limits readers members r ∧ (stale c r = false → Satisfies c r) := by
  -- What is read as a field is the field.
  have hrun : ∀ {s}, members.lookup (text "run_id") = some (.str s) → s = r.runId := fun hs =>
    Except.ok.inj ((runId_of_str hs).symm.trans h.runId)
  have hbackup : ∀ {s}, members.lookup (text "backup_path") = some (.str s) → s = r.backupPath :=
    fun hs => Except.ok.inj ((backupPath_of_str hs).symm.trans h.backupPath)
  constructor
  · rintro ⟨⟨s, hs, hmax⟩, ⟨path, hpath⟩, hage⟩
    obtain rfl := hrun hs
    obtain rfl := hbackup hpath
    have hmeasured : r.ageSeconds ≠ .nan := fun heq => hage (h.ageSeconds.trans (congrArg _ heq))
    exact ⟨⟨hs, hpath, h.backupBytes, h.restoredAt, h.ageSeconds, hmeasured, h.floorSchema,
      h.templateTaken, h.templateReason⟩, fun hstale => satisfies_of_not_stale hstale hmeasured hmax⟩
  · rintro ⟨hreceipt, hsatisfies⟩
    -- The run's id fits what was expected, and the age was measured.
    refine ⟨⟨r.runId, hreceipt.runId, fun hmax => ?_⟩, ⟨r.backupPath, hreceipt.backupPath⟩, ?_⟩
    · by_contra hnone
      have hstale : stale c r = false := stale_of_nan hmax fun id hid => by
        by_contra hne
        exact hnone ⟨id, hid, hne⟩
      have hage := (hsatisfies hstale).age .nan hmax
      rw [Number.atMost_nan] at hage
      exact Bool.false_ne_true hage
    · rw [h.ageSeconds]
      exact fun heq => hreceipt.measured (Except.ok.inj heq)

end Rows

/-! ## The second call -/

section Payloads

variable {limits readers c} {r : RestoreReceipt τ} {payload : Str} {e : Exn}

/-- A text of which nothing is read can be judged when the error is caught. -/
theorem judged_of_error (h : readPayload limits readers payload = .error e) :
    Judged limits readers c payload ↔ e.caught = true := by
  unfold readPayload at h
  unfold Judged
  -- The text is no JSON, no object, or has a field that cannot be read.
  cases hloads : loadsOutput limits.loads payload with
  | error loads =>
    rw [hloads] at h
    cases loads <;> obtain rfl := Except.error.inj h <;> simp [Exn.caught]
  | ok row =>
    rw [hloads] at h
    cases row with
    | obj members =>
      dsimp only at h ⊢
      rw [RowJudged, head?_failures, h]
      rfl
    | _ =>
      obtain rfl := Except.error.inj h
      exact iff_of_false id Bool.false_ne_true

/-- A text that is read can be judged when it is a complete receipt, and one without fault satisfies
the criterion. -/
theorem judged_of_ok (h : readPayload limits readers payload = .ok r) :
    Judged limits readers c payload ↔
      Reads limits readers payload r ∧ (stale c r = false → Satisfies c r) := by
  unfold readPayload at h
  unfold Judged Reads
  -- Only an object is read.
  cases hloads : loadsOutput limits.loads payload with
  | error loads =>
    rw [hloads] at h
    cases loads <;> nomatch h
  | ok row =>
    rw [hloads] at h
    cases row with
    | obj members =>
      dsimp only at h ⊢
      rw [RowJudged, head?_failures, h]
      simp only [Except.ok.injEq, Json.obj.injEq, exists_eq_left']
      exact plain_iff (receiptOf_ok_iff.mp h)
    | _ => nomatch h

/-- A complete receipt is the one that is read. -/
theorem Reads.readPayload_eq (h : Reads limits readers payload r) :
    readPayload limits readers payload = .ok r := by
  obtain ⟨members, hloads, hreceipt⟩ := h
  rw [readPayload, hloads]
  exact receiptOf_ok_iff.mpr hreceipt.fields

end Payloads

/-! ## Both calls -/

section Calls

variable {limits readers c} {r : RestoreReceipt τ} {payload : Str} {e : Exn} {probe read : Call}
  {check : ActuationCheck τ}

/-- The check of a receipt against the criterion. -/
def judge (c : Criterion) (check : ActuationCheck τ) : ActuationCheck τ :=
  if check.receipt.any (stale c ·) then { check with verdict := .stale } else check

/-- Verifying is reading the receipt and judging it. -/
theorem verifyActuation_eq (limits : Limits) (readers : Readers τ) (c : Criterion)
    (probe read : Call) : verifyActuation limits readers c.expectedRunId c.maxAgeHours probe read =
      (readReceipt limits readers probe read).map (judge c) := by
  rw [verifyActuation, if_neg c.given]
  -- The receipt is read, and there may be none.
  cases readReceipt limits readers probe read with
  | error e => rfl
  | ok check =>
    obtain ⟨verdict, receipt⟩ := check
    cases receipt with
    | none => rfl
    | some r =>
      simp only [Except.map, judge, Option.any_some, stale, Bool.or_eq_true]
      change (if _ then _ else if _ then _ else _) = _
      by_cases hfirst : c.expectedRunId.any (r.runId ≠ ·) = true
      · rw [if_pos hfirst, if_pos (.inl hfirst)]
        rfl
      · rw [if_neg hfirst]
        by_cases hsecond : c.maxAgeHours.any (Number.below · r.ageHours) = true
        · rw [if_pos hsecond, if_pos (.inr hsecond)]
          rfl
        · rw [if_neg hsecond, if_neg (not_or.mpr ⟨hfirst, hsecond⟩)]
          rfl

/-- A receipt that raises is not verified honestly. -/
theorem not_honest_of_error (h : readReceipt limits readers probe read = .error e) :
    ¬Honest limits readers c probe read := by
  rintro ⟨check, hcheck, -⟩
  rw [verifyActuation_eq, h] at hcheck
  nomatch hcheck

/-- A receipt that is read is verified honestly when its verdict is allowed. -/
theorem honest_iff_of_ok (h : readReceipt limits readers probe read = .ok check) :
    Honest limits readers c probe read ↔
      Allowed limits readers c probe read (judge c check).verdict := by
  have hcheck : verifyActuation limits readers c.expectedRunId c.maxAgeHours probe read =
      .ok (judge c check) := by
    rw [verifyActuation_eq, h]
    rfl
  constructor
  · rintro ⟨other, hother, hallowed⟩
    obtain rfl := Except.ok.inj (hcheck.symm.trans hother)
    exact hallowed
  · intro hallowed
    exact ⟨_, hcheck, hallowed⟩

/-- To say that nothing can be verified is honest. -/
theorem honest_of_unverifiable
    (h : readReceipt limits readers probe read = .ok { verdict := .unverifiable }) :
    Honest limits readers c probe read :=
  (honest_iff_of_ok h).mpr ⟨nofun, nofun, fun _ => rfl⟩

/-- The calls that a receipt is read by leave it to the payload. -/
theorem not_failed (hprobe : probe.Answered "t".toList) (hread : read.Answered payload)
    (hpayload : payload ≠ [] → ∃ r, Reads limits readers payload r) :
    ¬(probe.Failed ∨ probe.Answered "t".toList ∧ (read.Failed ∨ ∃ payload ≠ [],
      read.Answered payload ∧ ∀ r, ¬Reads limits readers payload r)) := by
  -- Both calls have to end with an output.
  cases probe with
  | notStarted => exact hprobe.elim
  | garbled => exact hprobe.elim
  | exited code stdout =>
    cases read with
    | notStarted => exact hread.elim
    | garbled => exact hread.elim
    | exited code' stdout' =>
      obtain ⟨hcode, -⟩ := hprobe
      obtain ⟨hcode', rfl⟩ := hread
      rintro (hfailed | ⟨-, hfailed | ⟨other, hne, ⟨-, rfl⟩, hnone⟩⟩)
      · exact hfailed hcode
      · exact hfailed hcode'
      · obtain ⟨r, hr⟩ := hpayload hne
        exact hnone r hr

/-- A call has one answer. -/
theorem eq_of_answered {text : Str} (h : read.Answered text) (h' : read.Answered payload) :
    text = payload := by
  cases read with
  | exited code stdout => exact h.2.symm.trans h'.2
  | _ => exact h.elim

/-- The verdict on a row that was read. -/
theorem honest_of_receipt (hprobe : probe.Answered "t".toList) (hread : read.Answered payload)
    (hne : payload ≠ []) (hpayload : readPayload limits readers payload = .ok r)
    (h : readReceipt limits readers probe read = .ok { verdict := .actuated, receipt := some r }) :
    Honest limits readers c probe read ↔
      Reads limits readers payload r ∧ (stale c r = false → Satisfies c r) := by
  -- A payload is one receipt at most.
  have huniq : ∀ {r'}, Reads limits readers payload r' → r' = r := fun hr' =>
    Except.ok.inj (hr'.readPayload_eq.symm.trans hpayload)
  rw [honest_iff_of_ok h, judge, Option.any_some]
  constructor
  · intro hallowed
    -- A verdict that is allowed says what was read.
    have hreads : ∃ r', Reads limits readers payload r' := by
      by_contra hnone
      have hverdict := hallowed.unverifiable
        (.inr ⟨hprobe, .inr ⟨payload, hne, hread, fun r' hr' => hnone ⟨r', hr'⟩⟩⟩)
      split at hverdict <;> nomatch hverdict
    obtain ⟨r', hr'⟩ := hreads
    obtain rfl := huniq hr'
    refine ⟨hr', fun hstale => ?_⟩
    rw [hstale, if_neg Bool.false_ne_true] at hallowed
    -- A receipt without fault is told as actuated, which asks for the criterion.
    obtain ⟨-, other, r'', hother, hr'', hsatisfies⟩ := hallowed.actuated rfl
    obtain rfl := eq_of_answered hread hother
    obtain rfl := huniq hr''
    exact hsatisfies
  · rintro ⟨hreads, hsatisfies⟩
    constructor
    case actuated =>
      intro hverdict
      have hstale : stale c r = false := by
        by_contra hstale
        rw [if_pos (by simpa using hstale)] at hverdict
        nomatch hverdict
      exact ⟨hprobe, payload, r, hread, hreads, hsatisfies hstale⟩
    case missing =>
      intro hverdict
      split at hverdict <;> nomatch hverdict
    case unverifiable =>
      exact fun hfailed => absurd hfailed (not_failed hprobe hread fun _ => ⟨r, hreads⟩)

/-- What was read of the second call is judged when the table was found. -/
theorem honest_iff_of_payload {stdout : Str} (hprobe : probe.Answered "t".toList)
    (hne : stdout.strip ≠ []) (h : readReceipt limits readers probe (.exited 0 stdout) =
      readRow limits readers (.exited 0 stdout)) :
    Honest limits readers c probe (.exited 0 stdout) ↔ Judged limits readers c stdout.strip := by
  have hread : (Call.exited 0 stdout).Answered stdout.strip := ⟨rfl, rfl⟩
  have hrow : readRow limits readers (.exited 0 stdout) = (do
      match ← parseReceipt limits readers stdout.strip with
      | none => pure { verdict := .unverifiable }
      | some receipt => pure { verdict := .actuated, receipt := some receipt }) := by
    rw [readRow, Call.run]
    exact if_neg hne
  rw [hrow, parseReceipt] at h
  cases hpayload : readPayload limits readers stdout.strip with
  | error e =>
    rw [hpayload] at h
    dsimp only at h
    rw [judged_of_error hpayload]
    -- What is caught is told as unverifiable.
    by_cases hcaught : e.caught = true
    · rw [if_pos hcaught] at h
      exact iff_of_true (honest_of_unverifiable h) hcaught
    · rw [if_neg hcaught] at h
      exact iff_of_false (not_honest_of_error h) hcaught
  | ok r =>
    rw [hpayload] at h
    rw [judged_of_ok hpayload]
    exact honest_of_receipt hprobe hread hne hpayload h

/-- The second call, when the table was found. -/
theorem honest_iff_of_table (hprobe : probe.Answered "t".toList)
    (h : readReceipt limits readers probe read = readRow limits readers read) :
    Honest limits readers c probe read ↔ ReadJudged limits readers c read := by
  -- Only an output with the code zero is judged.
  cases read with
  | notStarted => exact iff_of_false (not_honest_of_error h) id
  | garbled => exact iff_of_false (not_honest_of_error h) id
  | exited code stdout =>
    by_cases hcode : code = 0
    case neg =>
      refine iff_of_true (honest_of_unverifiable (h.trans ?_)) fun heq => absurd heq hcode
      exact if_pos hcode
    case pos =>
      subst hcode
      by_cases hblank : stdout.strip = []
      · have hread : (Call.exited 0 stdout).Answered [] := ⟨rfl, hblank⟩
        have hmissing : readRow limits readers (.exited 0 stdout) = .ok { verdict := .missing } := by
          rw [readRow, Call.run]
          exact if_pos hblank
        refine iff_of_true ((honest_iff_of_ok (h.trans hmissing)).mpr ?_) fun _ hne =>
          absurd hblank hne
        exact ⟨nofun, fun _ => .inr ⟨hprobe, hread⟩, fun hfailed =>
          absurd hfailed (not_failed hprobe hread fun hne => absurd rfl hne)⟩
      · rw [honest_iff_of_payload hprobe hblank h]
        simp [ReadJudged, hblank]

/-- The verdict is honest exactly when the outcomes of the calls are such that it can be. -/
theorem honest_iff (limits : Limits) (readers : Readers τ) (c : Criterion) (probe read : Call) :
    Honest limits readers c probe read ↔ Judgeable limits readers c read probe := by
  cases probe with
  | notStarted => exact iff_of_true (honest_of_unverifiable rfl) trivial
  | garbled => exact iff_of_false (not_honest_of_error (e := .unicodeDecodeError) rfl) id
  | exited code stdout =>
    -- A probe that failed says nothing of the table.
    by_cases hcode : code = 0
    case neg =>
      refine iff_of_true (honest_of_unverifiable ?_) fun h => absurd h hcode
      exact if_pos hcode
    case pos =>
      subst hcode
      by_cases hfound : stdout.strip = "t".toList
      · have hreceipt : readReceipt limits readers (.exited 0 stdout) read =
            readRow limits readers read := if_neg (not_not.mpr hfound)
        have htable : (Call.exited 0 stdout).Answered "t".toList := ⟨rfl, hfound⟩
        rw [honest_iff_of_table htable hreceipt]
        simp [Judgeable, hfound]
      · have hmissing : readReceipt limits readers (.exited 0 stdout) read =
            .ok { verdict := .missing } := if_pos hfound
        have hnot : ¬(Call.exited 0 stdout).Answered "t".toList := fun h => hfound h.2
        rw [honest_iff_of_ok hmissing]
        constructor
        · intro hallowed _
          exact .inl ((hallowed.missing rfl).resolve_right fun h => hnot h.1).2
        · intro hjudgeable
          have habsent := (hjudgeable rfl).resolve_right fun h => hfound h.1
          refine ⟨nofun, fun _ => .inl ⟨rfl, habsent⟩, ?_⟩
          rintro (hfailed | ⟨h, -⟩)
          · exact absurd rfl hfailed
          · exact absurd h hnot

end Calls

end

/-! ## A `psql` that goes missing -/

/-- Between the two calls `psql` is uninstalled. -/
theorem uninstalled_raises : ¬Honest { loads := 1000, repr := 1000 }
    { int? := fun _ => none, float? := fun _ => none, fromIsoFormat? := fun _ => some ()
      str := fun _ => [] }
    { expectedRunId := some (text "run-1"), maxAgeHours := none, given := nofun }
    (.exited 0 "t\n".toList) .notStarted := by
  rintro ⟨check, hcheck, -⟩
  nomatch hcheck

end Fraisier.Dbops.Receipt
