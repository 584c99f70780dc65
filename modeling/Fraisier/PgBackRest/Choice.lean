import Mathlib.Data.List.Lex
import Mathlib.Data.List.Sort
import Fraisier.Lib.Fallible
import Fraisier.Lib.JsonIndent
import Fraisier.Dbops.Receipt

/-!
# The backup that is restored

`parse_info` and `select_backup` of `dbops/pgbackrest.py`: what `pgbackrest info` prints is read as
JSON, the stanza's backups that have no error mark are sorted by their stop times, and the last one
is chosen, or the last one that stopped before an instant. `PgBackRestSource.prepare` handles the
one error that the two are to raise; whatever else a malformed text makes them raise passes it.
`right_iff` says for which texts the choice is what it should be.
-/

namespace Fraisier.PgBackRest.Choice

open Fraisier.Lib Unicode Json Fallible
open Fraisier.Dbops.Receipt (Exn Readers item toStr toInt)

/-- The members of an object. -/
abbrev Members := List (Text × Json)

/-! ## The choice -/

/-- A `datetime` that is read from a text, in microseconds since 1970: by its own clock when the
text gives no zone. -/
inductive Stamp where
  | naive (micros : ℤ)
  | aware (micros : ℤ)
  deriving DecidableEq, Repr

/-- `Backup`. -/
structure Backup where
  label : Text
  kind : Text
  /-- In seconds since 1970. -/
  stop : ℤ
  sizeBytes : ℤ
  deriving DecidableEq

/-- What a `BackupChoiceError` says. -/
inductive Reason where
  /-- `pgbackrest info did not return JSON: {exc}` -/
  | notJson
  /-- `pgbackrest info has no stanza {stanza!r}` -/
  | noStanza (stanza : Text)
  /-- `stanza {stanza!r}: {message}` -/
  | stanzaError (stanza message : Text)
  /-- `stanza {stanza!r} has no backups to restore` -/
  | noBackups (stanza : Text)
  /-- `target {spec.target!r} is not an instant: {exc}` -/
  | notInstant (target : Text)
  /-- `no backup stopped before {spec.target}; the earliest is {earliest.label} (stopped …)` -/
  | noneBefore (target : Text) (earliest : Backup)

/-- What is raised. -/
inductive Raised where
  | backupChoiceError (reason : Reason)
  | indexError
  | other (e : Exn)

/-- `PgBackRestSource.prepare` catches it. -/
def Raised.handled : Raised → Bool
  | .backupChoiceError _ => true
  | _ => false

def raising {α : Type} : Except Exn α → Except Raised α
  | .ok a => .ok a
  | .error e => .error (.other e)

/-- The first and the last second of the years 1 to 9999. -/
def firstSecond : ℤ := -62135596800

def lastSecond : ℤ := 253402300799

/-- The seconds whose year is an `int` of C. -/
def gmtimeFirst : ℤ := -67768040609740800

def gmtimeLast : ℤ := 67768036191676799

/-- `datetime.fromtimestamp(n, UTC)`. -/
def fromTimestamp (n : ℤ) : Except Exn ℤ :=
  if n < -2 ^ 63 ∨ 2 ^ 63 ≤ n then throw .overflowError
  else if n < gmtimeFirst ∨ gmtimeLast < n then throw .osError
  else if n < firstSecond ∨ lastSecond < n then throw .valueError
  else pure n

/-- What has a `get`. -/
def dict : Json → Except Exn Members
  | .obj members => pure members
  | _ => throw .attributeError

/-- `v[key]`. -/
def subscript (v : Json) (key : String) : Except Exn Json :=
  match v with
  | .obj members => item members key
  | _ => throw .typeError

/-- `for b in v`. -/
def elements (v : Json) : Except Exn (List Json) :=
  match iter v with
  | .ok items => pure items
  | .error _ => throw .typeError

section

variable (limits : Limits) (readers : Readers Stamp)

/-- `datetime.fromtimestamp(int(b["timestamp"]["stop"]), UTC)`. -/
def stopOf (b : Members) : Except Exn ℤ := do
  let timestamp ← item b "timestamp"
  let stop ← subscript timestamp "stop"
  let n ← toInt readers stop
  fromTimestamp n

/-- `int((b.get("info") or {}).get("size", 0))`. -/
def sizeOf (b : Members) : Except Exn ℤ := do
  let info ← dict (orElse (getD b "info" .null) (.obj []))
  toInt readers (getD info "size" (.int 0))

/-- `Backup(…)`. -/
def backupOf (b : Members) : Except Exn Backup := do
  let label ← item b "label" >>= toStr limits readers
  let kind ← toStr limits readers (getD b "type" (.str []))
  let stop ← stopOf readers b
  let sizeBytes ← sizeOf readers b
  pure { label, kind, stop, sizeBytes }

/-- It has an error mark. -/
def marked (b : Members) : Bool := (getD b "error" .null).truthy

/-- What an element of the list adds to the backups. -/
def element (b : Json) : Except Exn (Option Backup) := do
  let b ← dict b
  if marked b then pure none else some <$> backupOf limits readers b

/-- `(a.stop, a.label) <= (b.stop, b.label)`. -/
def notAfter (a b : Backup) : Prop := a.stop < b.stop ∨ a.stop = b.stop ∧ a.label ≤ b.label

instance : DecidableRel notAfter := fun _ _ => inferInstanceAs (Decidable (_ ∨ _ ∧ _))

/-- `e.get("name") == stanza`. -/
def named (stanza : Text) (e : Members) : Bool :=
  match e.lookup (text "name") with
  | some (.str name) => name = stanza
  | _ => false

/-- The first entry of the stanza. -/
def findEntry (stanza : Text) (payload : Json) : Option Members :=
  let entries := match payload with
    | .arr items => items
    | _ => []
  entries.findSome? fun e => match e with
    | .obj members => if named stanza members then some members else none
    | _ => none

/-- `entry.get("status") or {}`. -/
def statusOf (entry : Members) : Json := orElse (getD entry "status" .null) (.obj [])

/-- `status.get("message", …)`. -/
def messageOf (status : Members) : Json :=
  getD status "message" (.str (text "pgBackRest reported an error"))

/-- `entry.get("backup") or []`. -/
def listOf (entry : Members) : Json := orElse (getD entry "backup" .null) (.arr [])

/-- `parse_info` from the entry of the stanza on. -/
def readEntry (stanza : Text) (entry : Members) : Except Raised (List Backup) := do
  let status ← raising (dict (statusOf entry))
  if !sameKey (getD status "code" (.int 0)) (.int 0) then do
    let message ← raising (toStr limits readers (messageOf status))
    throw (.backupChoiceError (.stanzaError stanza message))
  else do
    let items ← raising (elements (listOf entry))
    let backups ← raising (items.mapM (element limits readers))
    if backups.reduceOption = [] then throw (.backupChoiceError (.noBackups stanza))
    else pure (backups.reduceOption.insertionSort notAfter)

/-- `parse_info`. -/
def parseInfo (raw stanza : Text) : Except Raised (List Backup) :=
  match loadsStr limits.loads raw with
  | .error .jsonDecodeError => throw (.backupChoiceError .notJson)
  | .error .recursionError => throw (.other .recursionError)
  | .error _ => throw (.other .valueError)
  | .ok payload => match findEntry stanza payload with
    | none => throw (.backupChoiceError (.noStanza stanza))
    | some entry => readEntry limits readers stanza entry

/-- `LATEST`. -/
def latest : Text := text "latest"

/-- `[b for b in backups if b.stop < target]`. Only a time with a zone can be compared with one. -/
def stoppedBefore (target : Stamp) (backups : List Backup) : Except Exn (List Backup) :=
  match target with
  | .naive _ => if backups = [] then pure [] else throw .typeError
  | .aware micros => pure (backups.filter fun b => b.stop * 10 ^ 6 < micros)

/-- `select_backup`. -/
def selectBackup (target : Text) (backups : List Backup) : Except Raised Backup :=
  if target = latest then
    match backups.getLast? with
    | some b => pure b
    | none => throw .indexError
  else match readers.fromIsoFormat? target with
    | none => throw (.backupChoiceError (.notInstant target))
    | some stamp => do
      let eligible ← raising (stoppedBefore stamp backups)
      match eligible.getLast?, backups.head? with
      | some b, _ => pure b
      | none, some earliest => throw (.backupChoiceError (.noneBefore target earliest))
      | none, none => throw .indexError

/-- The backup that `PgBackRestSource.prepare` asks for. -/
def choose (raw stanza target : Text) : Except Raised Backup := do
  let backups ← parseInfo limits readers raw stanza
  selectBackup readers target backups

/-! ## The backups that are listed -/

/-- The stanza has this entry in what is printed. -/
def Printed (raw stanza : Text) (entry : Members) : Prop :=
  ∃ payload, loadsStr limits.loads raw = .ok payload ∧ findEntry stanza payload = some entry

/-- The status has a code, and it is not zero. -/
def HasError (entry : Members) : Prop :=
  ∃ status code, entry.lookup (text "status") = some (.obj status) ∧
    status.lookup (text "code") = some code ∧ sameKey code (.int 0) = false

/-- A backup of the entry, without an error mark. -/
def Listed (entry b : Members) : Prop :=
  ∃ items, entry.lookup (text "backup") = some (.arr items) ∧ .obj b ∈ items ∧ marked b = false

/-- The backup has a label, which is a text. -/
def Labelled (b : Members) (label : Text) : Prop := b.lookup (text "label") = some (.str label)

/-- The backup has a stop time, which is an instant. -/
def Stopped (b : Members) (stop : ℤ) : Prop :=
  ∃ timestamp v, b.lookup (text "timestamp") = some (.obj timestamp) ∧
    timestamp.lookup (text "stop") = some v ∧ toInt readers v = .ok stop ∧
    firstSecond ≤ stop ∧ stop ≤ lastSecond

/-- The target is the latest backup, or an instant after this one. -/
def Allows (target : Text) (stop : ℤ) : Prop :=
  target = latest ∨ target ≠ latest ∧
    ∃ micros, readers.fromIsoFormat? target = some (.aware micros) ∧ stop * 10 ^ 6 < micros

/-- There is nothing to restore, or something cannot be relied on. -/
def Refusable (entry : Members) (target : Text) : Prop :=
  HasError entry ∨
    (∀ b stop, Listed entry b → Stopped readers b stop → ¬Allows readers target stop) ∨
    ∃ b, Listed entry b ∧ ¬((∃ label, Labelled b label) ∧ ∃ stop, Stopped readers b stop)

/-- The right backup is chosen, or a `BackupChoiceError` raised. -/
structure Right (raw stanza target : Text) : Prop where
  raises : RaisesOnly (Raised.handled ·) (choose limits readers raw stanza target)
  chosen : ∀ b, choose limits readers raw stanza target = .ok b →
    ∃ entry c, Printed limits raw stanza entry ∧ Listed entry c ∧ Labelled c b.label ∧
      Stopped readers c b.stop ∧ Allows readers target b.stop ∧
      ∀ c' stop, Listed entry c' → Stopped readers c' stop → Allows readers target stop →
        stop ≤ b.stop
  refuses : (∀ entry, Printed limits raw stanza entry → Refusable readers entry target) →
    ∃ e, choose limits readers raw stanza target = .error e

/-! ## When it is -/

/-- What is read of the backup can be converted. -/
structure Convertible (b : Members) : Prop where
  label : ∃ v s, b.lookup (text "label") = some v ∧ toStr limits readers v = .ok s
  kind : ∃ s, toStr limits readers (getD b "type" (.str [])) = .ok s
  stop : ∃ stop, Stopped readers b stop
  info : ∃ info n, orElse (getD b "info" .null) (.obj []) = .obj info ∧
    toInt readers (getD info "size" (.int 0)) = .ok n

/-- The entry can be read: its status is an object, if it is anything, and so is each of its
backups, and what is read of them can be converted. -/
structure Readable (entry : Members) : Prop where
  status : ∃ status, statusOf entry = .obj status ∧
    (HasError entry → ∃ s, toStr limits readers (messageOf status) = .ok s)
  items : ¬HasError entry → ∃ items, listOf entry = .arr items ∧ ∀ v ∈ items, ∃ b, v = .obj b
  backups : ¬HasError entry → ∀ b, Listed entry b → Convertible limits readers b

/-- The target and the backups of the entry fit together: an instant has a zone, and a choice among
the backups is one among labels. -/
structure Fits (entry : Members) (target : Text) : Prop where
  zone : target ≠ latest → (∃ micros, readers.fromIsoFormat? target = some (.naive micros)) →
    ∀ b, ¬Listed entry b
  labels : (∃ b stop, Listed entry b ∧ Stopped readers b stop ∧ Allows readers target stop) →
    ∀ b, Listed entry b → ∃ label, Labelled b label

/-- What is printed can be read, as far as the stanza is concerned. -/
def Sound (raw stanza target : Text) : Prop :=
  match loadsStr limits.loads raw with
  | .error e => e = .jsonDecodeError
  | .ok payload => ∀ entry, findEntry stanza payload = some entry → Readable limits readers entry ∧
    (¬HasError entry → Fits readers entry target)

/-! ## One backup -/

variable {limits readers} {b entry : Members} {stop : ℤ} {c : Backup} {v : Json}

/-- A member is read when it is there. -/
theorem item_ok_iff {members : Members} {key : String} :
    item members key = .ok v ↔ members.lookup (text key) = some v := by
  unfold item
  cases members.lookup (text key) with
  | none => simp [throw, throwThe, MonadExceptOf.throw]
  | some w => simp [pure, Except.pure]

/-- Only an object is a dict. -/
theorem dict_ok_iff {members : Members} : dict v = .ok members ↔ v = .obj members := by
  cases v <;> simp [dict, throw, throwThe, MonadExceptOf.throw, pure, Except.pure]

/-- Only an object has a member. -/
theorem subscript_ok_iff {w : Json} {key : String} :
    subscript v key = .ok w ↔ ∃ members, v = .obj members ∧ members.lookup (text key) = some w := by
  cases v with
  | obj members => simp [subscript, item_ok_iff]
  | _ => simp [subscript, throw, throwThe, MonadExceptOf.throw]

/-- A time stamp is one of the calendar. -/
theorem fromTimestamp_ok_iff {n : ℤ} :
    fromTimestamp n = .ok stop ↔ n = stop ∧ firstSecond ≤ stop ∧ stop ≤ lastSecond := by
  unfold fromTimestamp firstSecond lastSecond gmtimeFirst gmtimeLast
  constructor
  · intro h
    split_ifs at h with h₁ h₂ h₃
    obtain rfl := Except.ok.inj h
    omega
  · rintro ⟨rfl, h₁, h₂⟩
    rw [if_neg (by omega), if_neg (by omega), if_neg (by omega)]
    rfl

/-- The stop of a backup is read from its time stamps. -/
theorem stopOf_ok_iff : stopOf readers b = .ok stop ↔ Stopped readers b stop := by
  simp only [stopOf, bind_ok_iff, item_ok_iff, subscript_ok_iff, fromTimestamp_ok_iff]
  constructor
  · rintro ⟨_, htimestamp, v, ⟨timestamp, rfl, hstop⟩, n, hn, rfl, hrange⟩
    exact ⟨timestamp, v, htimestamp, hstop, hn, hrange⟩
  · rintro ⟨timestamp, v, htimestamp, hstop, hn, hrange⟩
    exact ⟨_, htimestamp, v, ⟨timestamp, rfl, hstop⟩, stop, hn, rfl, hrange⟩

/-- The size of a backup is read from its info. -/
theorem sizeOf_ok_iff {n : ℤ} : sizeOf readers b = .ok n ↔
    ∃ info, orElse (getD b "info" .null) (.obj []) = .obj info ∧
      toInt readers (getD info "size" (.int 0)) = .ok n := by
  simp only [sizeOf, bind_ok_iff, dict_ok_iff]

/-- What is read of a backup, field by field. -/
theorem backupOf_ok_iff : backupOf limits readers b = .ok c ↔
    (∃ v, b.lookup (text "label") = some v ∧ toStr limits readers v = .ok c.label) ∧
      toStr limits readers (getD b "type" (.str [])) = .ok c.kind ∧ Stopped readers b c.stop ∧
      sizeOf readers b = .ok c.sizeBytes := by
  simp only [backupOf, bind_ok_iff, item_ok_iff, stopOf_ok_iff]
  constructor
  · rintro ⟨label, hlabel, kind, hkind, stop, hstop, size, hsize, hc⟩
    obtain rfl := Except.ok.inj hc
    exact ⟨hlabel, hkind, hstop, hsize⟩
  · rintro ⟨hlabel, hkind, hstop, hsize⟩
    exact ⟨c.label, hlabel, c.kind, hkind, c.stop, hstop, c.sizeBytes, hsize, rfl⟩

/-- A backup is converted when its fields are. -/
theorem convertible_iff :
    Convertible limits readers b ↔ ∃ c, backupOf limits readers b = .ok c := by
  constructor
  · rintro ⟨⟨v, label, hv, hlabel⟩, ⟨kind, hkind⟩, ⟨stop, hstop⟩, ⟨info, n, hinfo, hn⟩⟩
    exact ⟨⟨label, kind, stop, n⟩,
      backupOf_ok_iff.mpr ⟨⟨v, hv, hlabel⟩, hkind, hstop, sizeOf_ok_iff.mpr ⟨info, hinfo, hn⟩⟩⟩
  · rintro ⟨c, hc⟩
    obtain ⟨⟨v, hv, hlabel⟩, hkind, hstop, hsize⟩ := backupOf_ok_iff.mp hc
    obtain ⟨info, hinfo, hn⟩ := sizeOf_ok_iff.mp hsize
    exact ⟨⟨v, c.label, hv, hlabel⟩, ⟨c.kind, hkind⟩, ⟨c.stop, hstop⟩, ⟨info, _, hinfo, hn⟩⟩

/-- A label that is a text is read as it is. -/
theorem label_eq {label : Text} (hlabel : Labelled b label)
    (hc : backupOf limits readers b = .ok c) : c.label = label := by
  obtain ⟨⟨v, hv, hstr⟩, -⟩ := backupOf_ok_iff.mp hc
  obtain rfl := Option.some.inj (hlabel.symm.trans hv)
  exact (Except.ok.inj hstr).symm

/-- A backup stopped once. -/
theorem Stopped.unique {stop' : ℤ} (h : Stopped readers b stop) (h' : Stopped readers b stop') :
    stop = stop' :=
  Except.ok.inj ((stopOf_ok_iff.mpr h).symm.trans (stopOf_ok_iff.mpr h'))

/-- An element that is marked is left out, and another is converted. -/
theorem element_obj (b : Members) : element limits readers (.obj b) =
    if marked b then .ok none else some <$> backupOf limits readers b := rfl

/-- An element is read when it is an object, and with an error mark whatever else it says. -/
theorem exists_element_ok_iff : (∃ o, element limits readers v = .ok o) ↔
    ∃ b, v = .obj b ∧ (marked b = false → Convertible limits readers b) := by
  cases v with
  | obj b =>
    rw [element_obj]
    cases hmarked : marked b with
    | true => simp [hmarked]
    | false => simp [hmarked, convertible_iff, map_ok_iff]
  | _ => simp [element, dict, throw, throwThe, MonadExceptOf.throw, bind, Except.bind]

/-- An element is kept when it is converted and not marked. -/
theorem element_some_iff : element limits readers v = .ok (some c) ↔
    ∃ b, v = .obj b ∧ marked b = false ∧ backupOf limits readers b = .ok c := by
  cases v with
  | obj b =>
    rw [element_obj]
    cases hmarked : marked b with
    | true => simp [hmarked]
    | false => simp [hmarked, map_ok_iff]
  | _ => simp [element, dict, throw, throwThe, MonadExceptOf.throw, bind, Except.bind]

/-! ## The entry of a stanza -/

/-- A member that is true is there. -/
theorem lookup_of_truthy {members : Members} {key : String}
    (h : (getD members key .null).truthy = true) :
    members.lookup (text key) = some (getD members key .null) := by
  unfold getD at h ⊢
  cases hlookup : members.lookup (text key) with
  | none =>
    rw [hlookup] at h
    nomatch h
  | some v => rfl

/-- A status that is nothing has no error, and one that is an object has its own. -/
theorem hasError_iff {status : Members} (h : statusOf entry = .obj status) :
    HasError entry ↔ sameKey (getD status "code" (.int 0)) (.int 0) = false := by
  have hzero : sameKey (.int 0) (.int 0) = true := by decide
  -- An error code that is missing is zero.
  have hcode : sameKey (getD status "code" (.int 0)) (.int 0) = false ↔
      ∃ code, status.lookup (text "code") = some code ∧ sameKey code (.int 0) = false := by
    unfold getD
    cases status.lookup (text "code") with
    | none => simp [hzero]
    | some code => simp
  rw [hcode]
  unfold statusOf orElse at h
  -- The status is the entry's, or nothing at all.
  split_ifs at h with htruthy
  · have hlookup := lookup_of_truthy htruthy
    rw [h] at hlookup
    constructor
    · rintro ⟨status', code, hstatus, hlook, hne⟩
      obtain rfl := Json.obj.inj (Option.some.inj (hlookup.symm.trans hstatus))
      exact ⟨code, hlook, hne⟩
    · rintro ⟨code, hlook, hne⟩
      exact ⟨status, code, hlookup, hlook, hne⟩
  · obtain rfl := Json.obj.inj h
    constructor
    · rintro ⟨status, code, hstatus, hlook, -⟩
      rw [getD, hstatus] at htruthy
      cases status with
      | nil => cases hlook
      | cons => exact absurd rfl htruthy
    · rintro ⟨code, hlook, -⟩
      cases hlook

/-- The listed backups are the elements that are not marked. -/
theorem listed_iff {items : List Json} (h : listOf entry = .arr items) :
    Listed entry b ↔ .obj b ∈ items ∧ marked b = false := by
  unfold listOf orElse at h
  -- The list is there, or one without items stands for it.
  split_ifs at h with htruthy
  · have hlookup := lookup_of_truthy htruthy
    rw [h] at hlookup
    constructor
    · rintro ⟨items', hitems, hmem, hmarked⟩
      obtain rfl := Json.arr.inj (Option.some.inj (hlookup.symm.trans hitems))
      exact ⟨hmem, hmarked⟩
    · rintro ⟨hmem, hmarked⟩
      exact ⟨items, hlookup, hmem, hmarked⟩
  · obtain rfl := Json.arr.inj h
    constructor
    · rintro ⟨items, hitems, hmem, -⟩
      rw [getD, hitems] at htruthy
      cases items with
      | nil => exact absurd hmem List.not_mem_nil
      | cons => exact absurd rfl htruthy
    · rintro ⟨hmem, -⟩
      exact absurd hmem List.not_mem_nil

/-- Of what can be iterated over, only a list has objects as its elements, or nothing at all. -/
theorem listOf_of_elements {items : List Json} (h : elements (listOf entry) = .ok items)
    (hobj : ∀ v ∈ items, ∃ b, v = .obj b) : listOf entry = .arr items := by
  unfold elements at h
  -- What can be iterated over is a list, an object or a text.
  cases hlist : listOf entry with
  | arr items' =>
    rw [hlist] at h
    exact congrArg Json.arr (Except.ok.inj h)
  | obj members =>
    rw [hlist] at h
    obtain rfl := Except.ok.inj h
    cases members with
    | nil =>
      unfold listOf orElse at hlist
      split_ifs at hlist with htruthy
      rw [hlist] at htruthy
      nomatch htruthy
    | cons m members =>
      obtain ⟨b, hb⟩ := hobj _ List.mem_cons_self
      nomatch hb
  | str s =>
    rw [hlist] at h
    obtain rfl := Except.ok.inj h
    cases s with
    | nil =>
      unfold listOf orElse at hlist
      split_ifs at hlist with htruthy
      rw [hlist] at htruthy
      nomatch htruthy
    | cons x s =>
      obtain ⟨b, hb⟩ := hobj _ List.mem_cons_self
      nomatch hb
  | _ =>
    rw [hlist] at h
    nomatch h

/-- What raises in the entry gives a value where the conversion does. -/
theorem raising_ok_iff {α : Type} {x : Except Exn α} {a : α} :
    raising x = .ok a ↔ x = .ok a := by
  cases x <;> simp [raising]

/-- What the language raises is not handled. -/
theorem raisesOnly_raising_iff {α : Type} {x : Except Exn α} :
    RaisesOnly (Raised.handled ·) (raising x) ↔ ∃ a, x = .ok a := by
  cases x with
  | error e => simp [raising, raisesOnly_error_iff, Raised.handled]
  | ok a => simp [raising, raisesOnly_ok]

/-- The elements of the list are read when each of them is an object, and converted if it has no
error mark. -/
theorem exists_mapM_element_iff {items : List Json} (hlist : listOf entry = .arr items) :
    (∃ os, items.mapM (element limits readers) = .ok os) ↔
      (∀ v ∈ items, ∃ b, v = .obj b) ∧ ∀ b, Listed entry b → Convertible limits readers b := by
  simp only [exists_mapM_ok_iff, exists_element_ok_iff, listed_iff hlist]
  constructor
  · intro h
    refine ⟨fun v hv => ?_, fun b ⟨hb, hmarked⟩ => ?_⟩
    · obtain ⟨b, hb, -⟩ := h v hv
      exact ⟨b, hb⟩
    · obtain ⟨b', hb', hconv⟩ := h _ hb
      obtain rfl := Json.obj.inj hb'
      exact hconv hmarked
  · rintro ⟨hobj, hconv⟩ v hv
    obtain ⟨b, rfl⟩ := hobj v hv
    exact ⟨b, rfl, fun hmarked => hconv b ⟨hv, hmarked⟩⟩

/-- An entry with a status is read on when its code is zero. -/
theorem readEntry_of_status {stanza : Text} {status : Members} (h : statusOf entry = .obj status) :
    readEntry limits readers stanza entry =
      if sameKey (getD status "code" (.int 0)) (.int 0) = false then
        raising (toStr limits readers (messageOf status)) >>= fun message =>
          .error (.backupChoiceError (.stanzaError stanza message))
      else raising (elements (listOf entry)) >>= fun items =>
        raising (items.mapM (element limits readers)) >>= fun backups =>
          if backups.reduceOption = [] then .error (.backupChoiceError (.noBackups stanza))
          else .ok (backups.reduceOption.insertionSort notAfter) := by
  rw [readEntry, h]
  change (if (!sameKey (getD status "code" (.int 0)) (.int 0)) = true then _ else _) = _
  cases sameKey (getD status "code" (.int 0)) (.int 0) <;> rfl

/-- What the entry makes `parse_info` raise is handled exactly when it can be read. -/
theorem raisesOnly_readEntry_iff (stanza : Text) :
    RaisesOnly (Raised.handled ·) (readEntry limits readers stanza entry) ↔
      Readable limits readers entry := by
  -- A status that is no object raises what is not handled.
  by_cases hobj : ∃ status, statusOf entry = .obj status
  · obtain ⟨status, hstatus⟩ := hobj
    have herror := hasError_iff hstatus
    rw [readEntry_of_status hstatus]
    -- With an error, the message is formatted; without one, the backups are read.
    by_cases h : HasError entry
    · rw [if_pos (herror.mp h), raisesOnly_bind_iff, raisesOnly_raising_iff]
      constructor
      · rintro ⟨hmessage, -⟩
        exact ⟨⟨status, hstatus, fun _ => hmessage⟩, fun hno => absurd h hno,
          fun hno => absurd h hno⟩
      · rintro ⟨⟨status', hstatus', hmessage⟩, -, -⟩
        obtain rfl := Json.obj.inj (hstatus.symm.trans hstatus')
        exact ⟨hmessage h, fun _ _ => raisesOnly_error_iff.mpr rfl⟩
    · rw [if_neg (mt herror.mpr h), raisesOnly_bind_iff, raisesOnly_raising_iff]
      simp only [raisesOnly_bind_iff, raisesOnly_raising_iff, raising_ok_iff]
      constructor
      · rintro ⟨⟨items, hitems⟩, hrest⟩
        obtain ⟨hmap, -⟩ := hrest items hitems
        have hobjs : ∀ v ∈ items, ∃ b, v = .obj b := fun v hv =>
          (exists_element_ok_iff.mp (exists_mapM_ok_iff.mp hmap v hv)).imp fun b hb => hb.1
        have hlist := listOf_of_elements hitems hobjs
        exact ⟨⟨status, hstatus, fun hyes => absurd hyes h⟩, fun _ => ⟨items, hlist, hobjs⟩,
          fun _ => ((exists_mapM_element_iff hlist).mp hmap).2⟩
      · rintro ⟨-, hitems, hconv⟩
        obtain ⟨items, hlist, hobjs⟩ := hitems h
        have helements : elements (listOf entry) = .ok items := by
          rw [hlist]
          rfl
        refine ⟨⟨items, helements⟩, fun items' hitems' => ?_⟩
        obtain rfl := Except.ok.inj (helements.symm.trans hitems')
        refine ⟨(exists_mapM_element_iff hlist).mpr ⟨hobjs, hconv h⟩, fun os _ => ?_⟩
        split_ifs
        · exact raisesOnly_error_iff.mpr rfl
        · exact raisesOnly_ok _ _
  · refine ⟨fun hraises => ?_, fun hread => ?_⟩
    · rw [readEntry, raisesOnly_bind_iff, raisesOnly_raising_iff] at hraises
      obtain ⟨status, hdict⟩ := hraises.1
      exact absurd ⟨status, dict_ok_iff.mp hdict⟩ hobj
    · obtain ⟨status, hstatus, -⟩ := hread.status
      exact absurd ⟨status, hstatus⟩ hobj

/-- The backups of the entry, oldest first. -/
structure Holds (limits : Limits) (readers : Readers Stamp) (entry : Members)
    (backups : List Backup) : Prop where
  mem : ∀ c, c ∈ backups ↔ ∃ b, Listed entry b ∧ backupOf limits readers b = .ok c
  ne : backups ≠ []
  sorted : backups.Pairwise fun a b => a.stop ≤ b.stop

instance : Std.Total notAfter := ⟨fun a b => by
  unfold notAfter
  rcases lt_trichotomy a.stop b.stop with h | h | h
  · exact .inl (.inl h)
  · exact (le_total a.label b.label).imp (fun hle => .inr ⟨h, hle⟩) fun hle => .inr ⟨h.symm, hle⟩
  · exact .inr (.inl h)⟩

instance : IsTrans Backup notAfter := ⟨fun a b c hab hbc => by
  unfold notAfter at *
  rcases hab with h | ⟨h, hle⟩
  · exact .inl (by omega)
  · rcases hbc with h' | ⟨h', hle'⟩
    · exact .inl (by omega)
    · exact .inr ⟨h.trans h', hle.trans hle'⟩⟩

/-- A backup that does not come after another stopped no later. -/
theorem stop_le_of_notAfter {a b : Backup} (h : notAfter a b) : a.stop ≤ b.stop := by
  rcases h with h | ⟨h, -⟩ <;> omega

/-- What `parse_info` returns of an entry. -/
theorem readEntry_ok_iff {stanza : Text} {backups : List Backup}
    (h : readEntry limits readers stanza entry = .ok backups) :
    ¬HasError entry ∧ Holds limits readers entry backups := by
  obtain ⟨status, hdict, -⟩ := bind_ok_iff.mp h
  have hstatus := dict_ok_iff.mp (raising_ok_iff.mp hdict)
  have herror := hasError_iff hstatus
  rw [readEntry_of_status hstatus] at h
  -- An entry that was read has no error, and has backups.
  split_ifs at h with hcode
  · obtain ⟨_, -, h⟩ := bind_ok_iff.mp h
    nomatch h
  · obtain ⟨items, hitems, h⟩ := bind_ok_iff.mp h
    obtain ⟨os, hos, h⟩ := bind_ok_iff.mp h
    rw [raising_ok_iff] at hitems hos
    split_ifs at h with hnil
    obtain rfl := Except.ok.inj h
    -- The items are those of the list of backups.
    have hobjs : ∀ v ∈ items, ∃ b, v = .obj b := fun v hv =>
      (exists_element_ok_iff.mp (exists_mapM_ok_iff.mp ⟨os, hos⟩ v hv)).imp fun b hb => hb.1
    have hlist := listOf_of_elements hitems hobjs
    refine ⟨mt herror.mp hcode, ?_, ?_, ?_⟩
    · intro c
      rw [List.mem_insertionSort, List.reduceOption_mem_iff, mem_of_mapM_ok hos]
      simp only [element_some_iff, listed_iff hlist]
      constructor
      · rintro ⟨_, hv, b, rfl, hmarked, hc⟩
        exact ⟨b, ⟨hv, hmarked⟩, hc⟩
      · rintro ⟨b, ⟨hv, hmarked⟩, hc⟩
        exact ⟨_, hv, b, rfl, hmarked, hc⟩
    · intro hsorted
      exact hnil (List.perm_nil.mp (hsorted ▸ (List.perm_insertionSort notAfter _).symm))
    · exact (List.pairwise_insertionSort notAfter _).imp stop_le_of_notAfter

/-- An entry that can be read and lists a backup gives backups. -/
theorem exists_readEntry_ok (stanza : Text) (hread : Readable limits readers entry)
    (hno : ¬HasError entry) (hlisted : ∃ b, Listed entry b) :
    ∃ backups, readEntry limits readers stanza entry = .ok backups := by
  obtain ⟨status, hstatus, -⟩ := hread.status
  obtain ⟨items, hlist, hobjs⟩ := hread.items hno
  obtain ⟨os, hos⟩ := (exists_mapM_element_iff hlist).mpr ⟨hobjs, hread.backups hno⟩
  obtain ⟨b, hb⟩ := hlisted
  obtain ⟨c, hc⟩ := convertible_iff.mp (hread.backups hno b hb)
  -- The backup that is listed is among those that are read, so they are not empty.
  have hmem : c ∈ os.reduceOption := by
    rw [List.reduceOption_mem_iff, mem_of_mapM_ok hos]
    obtain ⟨hmem, hmarked⟩ := (listed_iff hlist).mp hb
    exact ⟨_, hmem, element_some_iff.mpr ⟨b, rfl, hmarked, hc⟩⟩
  have helements : raising (elements (listOf entry)) = .ok items := by
    rw [hlist]
    rfl
  refine ⟨os.reduceOption.insertionSort notAfter, ?_⟩
  rw [readEntry_of_status hstatus, if_neg (mt (hasError_iff hstatus).mpr hno), helements]
  refine bind_ok_iff.mpr ⟨items, rfl, bind_ok_iff.mpr ⟨os, raising_ok_iff.mpr hos, ?_⟩⟩
  exact if_neg (List.ne_nil_of_mem hmem)

/-! ## The selection -/

variable {target raw stanza : Text} {backups : List Backup}

/-- None of a sorted list is after the last one. -/
theorem stop_le_last (hsorted : backups.Pairwise fun a b => a.stop ≤ b.stop)
    (hlast : backups.getLast? = some c) : ∀ d ∈ backups, d.stop ≤ c.stop := by
  obtain ⟨before, rfl⟩ := List.getLast?_eq_some_iff.mp hlast
  intro d hd
  rcases List.mem_append.mp hd with hd | hd
  · exact (List.pairwise_append.mp hsorted).2.2 d hd c (List.mem_singleton_self c)
  · rw [List.mem_singleton.mp hd]

/-- A target in time allows the backups that stopped before it. -/
theorem allows_iff {micros : ℤ} (hlatest : target ≠ latest)
    (hstamp : readers.fromIsoFormat? target = some (.aware micros)) :
    Allows readers target stop ↔ stop * 10 ^ 6 < micros := by
  constructor
  · rintro (h | ⟨-, micros', hstamp', hlt⟩)
    · exact absurd h hlatest
    · obtain rfl := Stamp.aware.inj (Option.some.inj (hstamp.symm.trans hstamp'))
      exact hlt
  · exact fun h => .inr ⟨hlatest, micros, hstamp, h⟩

/-- The selection from sorted backups picks one that the target allows, and none that it allows is
later. -/
theorem selectBackup_ok (hsorted : backups.Pairwise fun a b => a.stop ≤ b.stop)
    (h : selectBackup readers target backups = .ok c) :
    c ∈ backups ∧ Allows readers target c.stop ∧
      ∀ d ∈ backups, Allows readers target d.stop → d.stop ≤ c.stop := by
  unfold selectBackup at h
  -- The latest is the last of the sorted backups.
  split_ifs at h with hlatest
  · split at h
    · rename_i b hlast
      obtain rfl := Except.ok.inj h
      exact ⟨List.mem_of_getLast? hlast, .inl hlatest,
        fun d hd _ => stop_le_last hsorted hlast d hd⟩
    · nomatch h
  -- Otherwise it is the last one that the target allows.
  · split at h
    · nomatch h
    · rename_i stamp hstamp
      obtain ⟨eligible, heligible, h⟩ := bind_ok_iff.mp h
      rw [raising_ok_iff] at heligible
      split at h
      · rename_i b hlast
        obtain rfl := Except.ok.inj h
        cases stamp with
        | naive micros =>
          unfold stoppedBefore at heligible
          split_ifs at heligible
          obtain rfl := Except.ok.inj heligible
          nomatch hlast
        | aware micros =>
          obtain rfl := Except.ok.inj heligible
          obtain ⟨hmem, hlt⟩ := List.mem_filter.mp (List.mem_of_getLast? hlast)
          refine ⟨hmem, (allows_iff hlatest hstamp).mpr (of_decide_eq_true hlt),
            fun d hd hallow => ?_⟩
          have hlt' := (allows_iff hlatest hstamp).mp hallow
          exact stop_le_last (hsorted.filter _) hlast d
            (List.mem_filter.mpr ⟨hd, decide_eq_true hlt'⟩)
      · nomatch h
      · nomatch h

/-- Where the target allows a backup, one is picked. -/
theorem exists_selectBackup_ok (h : ∃ d ∈ backups, Allows readers target d.stop) :
    ∃ c, selectBackup readers target backups = .ok c := by
  obtain ⟨d, hd, hallow⟩ := h
  unfold selectBackup
  -- The latest is the last of all, and a time has the last before it.
  by_cases hlatest : target = latest
  · obtain ⟨c, hlast⟩ := Option.isSome_iff_exists.mp
      (List.getLast?_isSome.mpr (List.ne_nil_of_mem hd))
    exact ⟨c, by rw [if_pos hlatest, hlast]; rfl⟩
  · obtain ⟨-, micros, hstamp, hlt⟩ := hallow.resolve_left hlatest
    have hd' : d ∈ backups.filter fun b => b.stop * 10 ^ 6 < micros :=
      List.mem_filter.mpr ⟨hd, decide_eq_true hlt⟩
    obtain ⟨c, hlast⟩ := Option.isSome_iff_exists.mp
      (List.getLast?_isSome.mpr (List.ne_nil_of_mem hd'))
    refine ⟨c, ?_⟩
    rw [if_neg hlatest, hstamp]
    refine bind_ok_iff.mpr ⟨_, rfl, ?_⟩
    rw [hlast]
    rfl

/-- The selection raises what is handled, unless the target has no zone. -/
theorem raisesOnly_selectBackup_iff (hne : backups ≠ []) :
    RaisesOnly (Raised.handled ·) (selectBackup readers target backups) ↔
      (target ≠ latest → ¬∃ micros, readers.fromIsoFormat? target = some (.naive micros)) := by
  obtain ⟨first, rest, rfl⟩ := List.exists_cons_of_ne_nil hne
  unfold selectBackup
  -- The latest backup needs no time.
  by_cases hlatest : target = latest
  · obtain ⟨c, hlast⟩ := Option.isSome_iff_exists.mp (List.getLast?_isSome.mpr hne)
    rw [if_pos hlatest, hlast]
    exact ⟨fun _ h => absurd hlatest h, fun _ => raisesOnly_ok _ _⟩
  · rw [if_neg hlatest]
    cases hstamp : readers.fromIsoFormat? target with
    | none => exact ⟨fun _ _ => nofun, fun _ => raisesOnly_error_iff.mpr rfl⟩
    | some stamp =>
      cases stamp with
      | naive micros =>
        refine ⟨fun h => ?_, fun h => absurd ⟨micros, rfl⟩ (h hlatest)⟩
        obtain ⟨eligible, heligible⟩ := raisesOnly_raising_iff.mp (raisesOnly_bind_iff.mp h).1
        rw [stoppedBefore, if_neg hne] at heligible
        nomatch heligible
      | aware micros =>
        refine ⟨fun _ _ => nofun, fun _ => raisesOnly_bind_iff.mpr ⟨?_, fun eligible _ => ?_⟩⟩
        · exact raisesOnly_raising_iff.mpr ⟨_, rfl⟩
        · cases hlast : eligible.getLast? with
          | none => exact raisesOnly_error_iff.mpr rfl
          | some b => exact raisesOnly_ok _ _

/-! ## The whole choice -/

/-- Backups are those of the entry that is printed. -/
theorem parseInfo_ok_iff : parseInfo limits readers raw stanza = .ok backups ↔
    ∃ entry, Printed limits raw stanza entry ∧
      readEntry limits readers stanza entry = .ok backups := by
  unfold parseInfo Printed
  cases hload : loadsStr limits.loads raw with
  | error e => cases e <;> simp [throw, throwThe, MonadExceptOf.throw]
  | ok payload =>
    cases hfind : findEntry stanza payload with
    | none => simp [hfind, throw, throwThe, MonadExceptOf.throw]
    | some entry => simp [hfind]

/-- Only handled exceptions come of what is printed, when it is JSON or fails as JSON, and the entry
can be read. -/
theorem raisesOnly_parseInfo_iff :
    RaisesOnly (Raised.handled ·) (parseInfo limits readers raw stanza) ↔
      match loadsStr limits.loads raw with
      | .error e => e = .jsonDecodeError
      | .ok payload => ∀ entry, findEntry stanza payload = some entry →
        Readable limits readers entry := by
  unfold parseInfo
  cases loadsStr limits.loads raw with
  | error e =>
    cases e <;> simp [throw, throwThe, MonadExceptOf.throw, raisesOnly_error_iff, Raised.handled]
  | ok payload =>
    cases hfind : findEntry stanza payload with
    | none =>
      simp [hfind, throw, throwThe, MonadExceptOf.throw, raisesOnly_error_iff, Raised.handled]
    | some entry => simp [hfind, raisesOnly_readEntry_iff]

/-- The entry can be read where only handled exceptions come. -/
theorem readable_of_printed
    (h : RaisesOnly (Raised.handled ·) (parseInfo limits readers raw stanza))
    (hprinted : Printed limits raw stanza entry) : Readable limits readers entry := by
  rw [raisesOnly_parseInfo_iff] at h
  obtain ⟨payload, hload, hfind⟩ := hprinted
  rw [hload] at h
  exact h entry hfind

/-- A stanza is printed once. -/
theorem Printed.unique {entry' : Members} (h : Printed limits raw stanza entry)
    (h' : Printed limits raw stanza entry') : entry = entry' := by
  obtain ⟨payload, hload, hfind⟩ := h
  obtain ⟨payload', hload', hfind'⟩ := h'
  obtain rfl := Except.ok.inj (hload.symm.trans hload')
  exact Option.some.inj (hfind.symm.trans hfind')

/-- What is chosen is chosen among the backups of the stanza's entry. -/
theorem choose_ok_iff : choose limits readers raw stanza target = .ok c ↔
    ∃ entry backups, Printed limits raw stanza entry ∧
      readEntry limits readers stanza entry = .ok backups ∧
      selectBackup readers target backups = .ok c := by
  simp only [choose, bind_ok_iff, parseInfo_ok_iff]
  constructor
  · rintro ⟨backups, ⟨entry, hprinted, hread⟩, hselect⟩
    exact ⟨entry, backups, hprinted, hread, hselect⟩
  · rintro ⟨entry, backups, hprinted, hread, hselect⟩
    exact ⟨backups, ⟨entry, hprinted, hread⟩, hselect⟩

/-- The text is no JSON, or what it says of the stanza can be read and compared with the target. -/
theorem raisesOnly_choose_iff :
    RaisesOnly (Raised.handled ·) (choose limits readers raw stanza target) ↔
      RaisesOnly (Raised.handled ·) (parseInfo limits readers raw stanza) ∧
        ∀ entry, Printed limits raw stanza entry → ¬HasError entry → target ≠ latest →
          (∃ micros, readers.fromIsoFormat? target = some (.naive micros)) →
            ∀ b, ¬Listed entry b := by
  rw [choose, raisesOnly_bind_iff]
  refine and_congr_right fun hparse => ?_
  -- What is printed is read first, and then what is listed is compared with the target.
  constructor
  · intro h entry hprinted hno hlatest hnaive b hb
    have hread := readable_of_printed hparse hprinted
    obtain ⟨backups, hbackups⟩ := exists_readEntry_ok stanza hread hno ⟨b, hb⟩
    have hselect := h backups (parseInfo_ok_iff.mpr ⟨entry, hprinted, hbackups⟩)
    exact (raisesOnly_selectBackup_iff (readEntry_ok_iff hbackups).2.ne).mp hselect hlatest hnaive
  · intro h backups hbackups
    obtain ⟨entry, hprinted, hread⟩ := parseInfo_ok_iff.mp hbackups
    obtain ⟨hno, hholds⟩ := readEntry_ok_iff hread
    refine (raisesOnly_selectBackup_iff hholds.ne).mpr fun hlatest hnaive => ?_
    obtain ⟨c, hc⟩ := List.exists_mem_of_ne_nil backups hholds.ne
    obtain ⟨b, hb, -⟩ := (hholds.mem c).mp hc
    exact h entry hprinted hno hlatest hnaive b hb

/-- The choice is sound when only handled exceptions come of it and it chooses where it can. -/
theorem sound_iff : Sound limits readers raw stanza target ↔
    RaisesOnly (Raised.handled ·) (choose limits readers raw stanza target) ∧
      ∀ entry, Printed limits raw stanza entry → ¬HasError entry →
        (∃ b stop, Listed entry b ∧ Stopped readers b stop ∧ Allows readers target stop) →
          ∀ b, Listed entry b → ∃ label, Labelled b label := by
  rw [raisesOnly_choose_iff, raisesOnly_parseInfo_iff]
  unfold Sound Printed
  -- By whether the text is JSON.
  cases loadsStr limits.loads raw with
  | error e => simp
  | ok payload =>
    simp only [Except.ok.injEq, exists_eq_left']
    constructor
    · intro h
      exact ⟨⟨fun entry hfind => (h entry hfind).1, fun entry hfind hno =>
        ((h entry hfind).2 hno).zone⟩, fun entry hfind hno => ((h entry hfind).2 hno).labels⟩
    · rintro ⟨⟨hread, hzone⟩, hlabels⟩ entry hfind
      exact ⟨hread entry hfind, fun hno => ⟨hzone entry hfind hno, hlabels entry hfind hno⟩⟩

/-- The choice among the backups of an entry that can be read. -/
theorem Right.of_sound (h : Sound limits readers raw stanza target) :
    Right limits readers raw stanza target := by
  obtain ⟨hraises, hlabels⟩ := sound_iff.mp h
  have hread : ∀ entry, Printed limits raw stanza entry → Readable limits readers entry :=
    fun entry => readable_of_printed (raisesOnly_choose_iff.mp hraises).1
  -- What is chosen is of an entry that was printed, and no allowed one is later.
  have hchosen : ∀ c, choose limits readers raw stanza target = .ok c →
      ∃ entry b, Printed limits raw stanza entry ∧ ¬HasError entry ∧ Listed entry b ∧
        Labelled b c.label ∧ Stopped readers b c.stop ∧ Allows readers target c.stop ∧
        ∀ b' stop, Listed entry b' → Stopped readers b' stop → Allows readers target stop →
          stop ≤ c.stop := by
    intro c hc
    obtain ⟨entry, backups, hprinted, hbackups, hselect⟩ := choose_ok_iff.mp hc
    obtain ⟨hno, hholds⟩ := readEntry_ok_iff hbackups
    obtain ⟨hmem, hallow, hmost⟩ := selectBackup_ok hholds.sorted hselect
    obtain ⟨b, hb, hbackup⟩ := (hholds.mem c).mp hmem
    have hstop := (backupOf_ok_iff.mp hbackup).2.2.1
    obtain ⟨label, hlabel⟩ := hlabels entry hprinted hno ⟨b, c.stop, hb, hstop, hallow⟩ b hb
    refine ⟨entry, b, hprinted, hno, hb, label_eq hlabel hbackup ▸ hlabel, hstop, hallow, ?_⟩
    -- A later one would have been read and sorted behind it.
    intro b' stop hb' hstop' hallow'
    obtain ⟨d, hd⟩ := convertible_iff.mp ((hread entry hprinted).backups hno b' hb')
    obtain rfl := (backupOf_ok_iff.mp hd).2.2.1.unique hstop'
    exact hmost d ((hholds.mem d).mpr ⟨b', hb', hd⟩) hallow'
  refine ⟨hraises, fun c hc => ?_, fun hrefuse => ?_⟩
  · obtain ⟨entry, b, hprinted, -, hrest⟩ := hchosen c hc
    exact ⟨entry, b, hprinted, hrest⟩
  · cases hc : choose limits readers raw stanza target with
    | error e => exact ⟨e, rfl⟩
    | ok c =>
      obtain ⟨entry, b, hprinted, hno, hb, -, hstop, hallow, -⟩ := hchosen c hc
      rcases hrefuse entry hprinted with herror | hnone | ⟨d, hd, hnot⟩
      · exact absurd herror hno
      · exact absurd hallow (hnone b c.stop hb hstop)
      · have hlabel := hlabels entry hprinted hno ⟨b, c.stop, hb, hstop, hallow⟩ d hd
        exact absurd ⟨hlabel, ((hread entry hprinted).backups hno d hd).stop⟩ hnot

/-- The right backup is chosen, and what is raised is handled, exactly when what is printed can be
read as far as the stanza is concerned. -/
theorem right_iff (limits : Limits) (readers : Readers Stamp) (raw stanza target : Text) :
    Right limits readers raw stanza target ↔ Sound limits readers raw stanza target := by
  refine ⟨fun h => sound_iff.mpr ⟨h.raises, fun entry hprinted hno hallowed => ?_⟩, .of_sound⟩
  obtain ⟨b, stop, hb, hstop, hallow⟩ := hallowed
  have hread := readable_of_printed (raisesOnly_choose_iff.mp h.raises).1 hprinted
  -- the entry can be read and has a backup that the target allows, so one is chosen
  obtain ⟨backups, hbackups⟩ := exists_readEntry_ok stanza hread hno ⟨b, hb⟩
  obtain ⟨d, hd⟩ := convertible_iff.mp (hread.backups hno b hb)
  obtain rfl := (backupOf_ok_iff.mp hd).2.2.1.unique hstop
  obtain ⟨c, hc⟩ := exists_selectBackup_ok
    ⟨d, ((readEntry_ok_iff hbackups).2.mem d).mpr ⟨b, hb, hd⟩, hallow⟩
  have hchoose := choose_ok_iff.mpr ⟨entry, backups, hprinted, hbackups, hc⟩
  by_contra hnot
  push Not at hnot
  obtain ⟨b', hb', hnolabel⟩ := hnot
  obtain ⟨e, herror⟩ := h.refuses fun entry' hprinted' => by
    obtain rfl := hprinted.unique hprinted'
    exact .inr (.inr ⟨b', hb', fun hboth => hboth.1.elim fun label hlabel => hnolabel label hlabel⟩)
  nomatch hchoose.symm.trans herror

end

/-! ## A backup without a stop time -/

/-- A stanza with one backup, which has a label only. -/
def unstopped : Json :=
  .arr [.obj [(text "name", .str (text "main")),
    (text "backup", .arr [.obj [(text "label", .str (text "20260101-010101F"))]])]]

/-- The entry is read back from what is printed of it. -/
theorem loads_unstopped : loadsStr 1000 (dumps unstopped) = .ok unstopped := by
  have hplain : Plain unstopped :=
    ⟨⟨of_decide_eq_true rfl, apart_text _, apart_text _, apart_text _,
      ⟨⟨List.nodup_singleton _, apart_text _, apart_text _, trivial⟩, trivial⟩, trivial⟩, trivial⟩
  have hload : loadsStr 1000 (dumps unstopped ++ []) = .ok unstopped :=
    loadsStr_dumps hplain (by decide) nofun rfl
  rwa [List.append_nil] at hload

/-- The backup has no time stamp: `parse_info` raises `KeyError`. -/
theorem unstopped_raises : ¬Right ⟨1000, 1000⟩
    ⟨fun _ => none, fun _ => none, fun _ => none, fun _ => []⟩
    (dumps unstopped) (text "main") latest := by
  intro h
  have hraised : choose ⟨1000, 1000⟩ ⟨fun _ => none, fun _ => none, fun _ => none, fun _ => []⟩
      (dumps unstopped) (text "main") latest = .error (.other .keyError) := by
    rw [choose, parseInfo, loads_unstopped]
    rfl
  exact absurd (h.raises _ hraised) Bool.false_ne_true

end Fraisier.PgBackRest.Choice
