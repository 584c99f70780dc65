import Mathlib.Data.List.Lex
import Fraisier.Lib.Fallible
import Fraisier.Lib.JsonIndent
import Fraisier.Socket.Helper

/-!
# The helper's requests

`pgbackrest_protocol.py`: what the root helper accepts, and what `HelperClient` sends. The label of a
restore reaches the argument vector of a root process, so it is matched whole against pgBackRest's own
grammar (`isLabel_iff`). `exact_iff` says for which bytes `parse_request` is exact: it returns what
was asked, and everything else is rejected, unless the bytes are nested too deep or have too long an
integer.
-/

namespace Fraisier.PgBackRest.Protocol

open Fraisier.Lib Unicode Json

/-! ## Labels -/

/-- `n` digits of ASCII, and what comes after them. -/
def takeDigits (n : ℕ) (s : Text) : Option Text :=
  if (s.take n).length = n ∧ (s.take n).all isDigit = true then some (s.drop n) else none

/-- One character. -/
def takeChar (x : Char) : Text → Option Text
  | c :: s => if c = chr x then some s else none
  | [] => none

/-- `[0-9]{8}-[0-9]{6}`. -/
def takeStamp (s : Text) : Option Text := do
  let s ← takeDigits 8 s
  let s ← takeChar '-' s
  takeDigits 6 s

/-- `_[0-9]{8}-[0-9]{6}[DI]`, and nothing else. -/
def isBase (s : Text) : Bool :=
  ((takeChar '_' s).bind takeStamp).any fun rest => rest = [chr 'D'] || rest = [chr 'I']

/-- `LABEL_RE.fullmatch`. -/
def isLabel (s : Text) : Bool :=
  ((takeStamp s).bind (takeChar 'F')).any fun rest => rest.isEmpty || isBase rest

/-- A date and a time, in digits of ASCII. -/
def Stamp (s : Text) : Prop :=
  ∃ date time, date.length = 8 ∧ time.length = 6 ∧ (∀ c ∈ date, isDigit c = true) ∧
    (∀ c ∈ time, isDigit c = true) ∧ s = date ++ chr '-' :: time

/-- pgBackRest's labels: of a full backup, and of a differential or an incremental one with the full
one that it hangs off. -/
inductive LabelGrammar : Text → Prop
  | full {s : Text} (hs : Stamp s) : LabelGrammar (s ++ [chr 'F'])
  | dependent {s t : Text} {kind : CodePoint} (hs : Stamp s) (ht : Stamp t)
    (hkind : kind = chr 'D' ∨ kind = chr 'I') :
    LabelGrammar (s ++ chr 'F' :: chr '_' :: (t ++ [kind]))

/-! ## Requests -/

/-- `ACTIONS`. -/
def actions : List Text := ["info", "status", "stop", "restore", "start"].map text

/-- The actions that take no label. -/
def plainActions : List Text := ["info", "status", "stop", "start"].map text

/-- `Request`. -/
structure Request where
  action : Text
  set : Option Text := none
  deriving DecidableEq

/-- What `parse_request` raises. -/
inductive ParseError
  /-- `RequestRejected`. -/
  | rejected (message : Text)
  /-- A `RecursionError`, or the `ValueError` of an integer with too many digits. -/
  | raised

/-- What the program says of exceptions and values. -/
structure Texts where
  /-- `str` of the exception that decoding and `json.loads` raise on the bytes. -/
  exception : List ℕ → Text
  repr : Json → Text

section Parse

variable (limits : Limits) (texts : Texts)

/-- A rejection that shows a value. -/
def rejectShowing (v : Json) (message : Text → Text) : ParseError :=
  match v.shown limits.repr with
  | .ok v => .rejected (message (texts.repr v))
  | .error _ => .raised

/-- The check of the action. -/
def checkAction (action : Json) : Except ParseError Text :=
  let refuse := rejectShowing limits texts action fun shown =>
    text "action not allowed: " ++ shown ++ text "; allowed: " ++
      texts.repr (.arr (actions.map .str))
  match action with
  | .str action => if action ∈ actions then .ok action else .error refuse
  | _ => .error refuse

/-- The check of the label. -/
def checkLabel (action : Text) (label : Json) : Except ParseError Request :=
  if action ≠ text "restore" then
    match label with
    | .null => .ok { action }
    | _ => .error (.rejected (text "'set' is only for restore, not " ++ texts.repr (.str action)))
  else match label with
    | .null => .error (.rejected
        (text "restore requires a 'set': the backup label the client validated"))
    | .str label =>
      if isLabel label then .ok { action, set := some label }
      else .error (.rejected
        (text "'set' is not a pgBackRest backup label: " ++ texts.repr (.str label)))
    | label => .error (rejectShowing limits texts label fun shown =>
        text "'set' is not a pgBackRest backup label: " ++ shown)

/-- `parse_request` from the check of the action on. -/
def parseFields (members : List (Text × Json)) : Except ParseError Request := do
  let action ← checkAction limits texts (getD members "action" .null)
  checkLabel limits texts action (getD members "set" .null)

/-- `set(payload) - {"action", "set"}`. -/
def unexpected (members : List (Text × Json)) : List Text :=
  (members.map Prod.fst).filter fun key => key ≠ text "action" ∧ key ≠ text "set"

/-- `parse_request`. -/
def parseRequest (raw : List ℕ) : Except ParseError Request :=
  match Socket.parse limits raw with
  | .malformed => .error (.rejected (text "malformed request: " ++ texts.exception raw))
  | .raised => .error .raised
  | .value (.obj members) =>
    if unexpected members ≠ [] then
      let sorted := (unexpected members).mergeSort fun a b => decide (a ≤ b)
      .error (.rejected (text "unexpected field(s) " ++ texts.repr (.arr (sorted.map .str)) ++
        text (": this helper takes an action and nothing else — its stanza, repository, cluster " ++
          "and target are baked into its unit")))
    else parseFields limits texts members
  | .value _ => .error (.rejected (text "malformed request: expected a JSON object"))

end Parse

/-! ## The client -/

/-- A label that the client has validated. -/
structure Label where
  text : Text
  valid : LabelGrammar text

/-- The five operations of `HelperClient`. -/
inductive Operation
  | info | status | stop
  | restore (label : Label)
  | start

/-- The action that is sent. -/
def Operation.action : Operation → Text
  | .info => text "info"
  | .status => text "status"
  | .stop => text "stop"
  | .restore _ => text "restore"
  | .start => text "start"

/-- The label that is sent. -/
def Operation.label : Operation → Option Text
  | .restore label => some label.text
  | _ => none

/-- `{"action": action, **fields}`. -/
def Operation.payload (op : Operation) : Json :=
  .obj ((text "action", .str op.action) :: (op.label.map fun label => (text "set", .str label)).toList)

/-- `json.dumps(…).encode() + b"\n"`. -/
def Operation.line (op : Operation) : List ℕ := (dumps op.payload ++ [chr '\n']).map (·.val)

/-! ## What is promised -/

/-- The bytes are the UTF-8 JSON of an object whose keys are among the two. -/
def IsRequest (limits : Limits) (raw : List ℕ) (members : List (Text × Json)) : Prop :=
  Socket.parse limits raw = .value (.obj members) ∧
    ∀ m ∈ members, m.1 = text "action" ∨ m.1 = text "set"

/-- A request for an action other than `restore`, with no label. -/
def AsksPlain (limits : Limits) (raw : List ℕ) (action : Text) : Prop :=
  ∃ members, IsRequest limits raw members ∧ members.lookup (text "action") = some (.str action) ∧
    action ∈ plainActions ∧
    (members.lookup (text "set") = none ∨ members.lookup (text "set") = some .null)

/-- A request for a restore. -/
def AsksRestore (limits : Limits) (raw : List ℕ) (label : Text) : Prop :=
  ∃ members, IsRequest limits raw members ∧
    members.lookup (text "action") = some (.str (text "restore")) ∧
    members.lookup (text "set") = some (.str label) ∧ LabelGrammar label

/-- What is asked is returned, and everything else is rejected; a request of the client is accepted as
what it asks. -/
structure Exact (limits : Limits) (texts : Texts) (raw : List ℕ) : Prop where
  plain : ∀ action, parseRequest limits texts raw = .ok ⟨action, none⟩ ↔ AsksPlain limits raw action
  restore : ∀ label, parseRequest limits texts raw = .ok ⟨text "restore", some label⟩ ↔
    AsksRestore limits raw label
  other : (∀ action, ¬AsksPlain limits raw action) → (∀ label, ¬AsksRestore limits raw label) →
    ∃ message, parseRequest limits texts raw = .error (.rejected message)
  client : ∀ op : Operation, raw = op.line →
    parseRequest limits texts raw = .ok ⟨op.action, op.label⟩

/-- The bytes are malformed, or `json.loads` gives a value for them; and of an object with the two keys
only, the action can be shown, and the label of a restore. -/
def Followed (limits : Limits) (raw : List ℕ) : Prop :=
  Socket.parse limits raw ≠ .raised ∧
    ∀ members, IsRequest limits raw members →
      (getD members "action" .null).depth ≤ limits.repr ∧
      (getD members "action" .null = .str (text "restore") →
        (getD members "set" .null).depth ≤ limits.repr)

variable {limits : Limits} {texts : Texts} {raw : List ℕ} {members : List (Text × Json)} {s : Text}

/-! ## The grammar -/

/-- `takeDigits` takes as many digits as it is asked for and leaves the rest. -/
theorem takeDigits_eq_some_iff {n : ℕ} {rest : Text} : takeDigits n s = some rest ↔
    ∃ digits, digits.length = n ∧ (∀ c ∈ digits, isDigit c = true) ∧ s = digits ++ rest := by
  unfold takeDigits
  constructor
  · intro h
    split at h
    · next hdigits =>
      obtain rfl := Option.some.inj h
      exact ⟨s.take n, hdigits.1, List.all_eq_true.mp hdigits.2, (List.take_append_drop n s).symm⟩
    · cases h
  · rintro ⟨digits, rfl, hdigits, rfl⟩
    rw [List.take_left, List.drop_left, if_pos ⟨rfl, List.all_eq_true.mpr hdigits⟩]

/-- `takeChar` takes the one character it is asked for. -/
theorem takeChar_eq_some_iff {x : Char} {rest : Text} :
    takeChar x s = some rest ↔ s = chr x :: rest := by
  cases s with
  | nil => simp [takeChar]
  | cons c s =>
    rw [takeChar, List.cons.injEq]
    split
    · next hc => simp [hc]
    · next hc => simp [hc]

/-- `takeStamp` takes a time stamp off the front. -/
theorem takeStamp_eq_some_iff {rest : Text} :
    takeStamp s = some rest ↔ ∃ stamp, Stamp stamp ∧ s = stamp ++ rest := by
  unfold takeStamp
  constructor
  -- The date, a hyphen and the time come off the front.
  · intro h
    obtain ⟨u, hu, htail⟩ := Option.bind_eq_some_iff.mp h
    obtain ⟨v, hv, hlast⟩ := Option.bind_eq_some_iff.mp htail
    obtain ⟨date, hdate, hdigits, rfl⟩ := takeDigits_eq_some_iff.mp hu
    obtain rfl := takeChar_eq_some_iff.mp hv
    obtain ⟨time, htime, hdigits', rfl⟩ := takeDigits_eq_some_iff.mp hlast
    exact ⟨date ++ chr '-' :: time, ⟨date, time, hdate, htime, hdigits, hdigits', rfl⟩, by simp⟩
  · rintro ⟨_, ⟨date, time, hdate, htime, hdigits, hdigits', rfl⟩, rfl⟩
    refine Option.bind_eq_some_iff.mpr ⟨chr '-' :: (time ++ rest), ?_,
      Option.bind_eq_some_iff.mpr ⟨time ++ rest, takeChar_eq_some_iff.mpr rfl, ?_⟩⟩
    · exact takeDigits_eq_some_iff.mpr ⟨date, hdate, hdigits, by simp⟩
    · exact takeDigits_eq_some_iff.mpr ⟨time, htime, hdigits', rfl⟩

/-- What follows a full label is an underscore, a time stamp and `D` or `I`. -/
theorem isBase_iff : isBase s = true ↔
    ∃ stamp kind, Stamp stamp ∧ (kind = chr 'D' ∨ kind = chr 'I') ∧ s = chr '_' :: (stamp ++ [kind]) := by
  unfold isBase
  rw [Option.any_eq_true]
  constructor
  -- After the underscore and the stamp one character is left.
  · rintro ⟨rest, h, hkind⟩
    obtain ⟨t, ht, h⟩ := Option.bind_eq_some_iff.mp h
    obtain rfl := takeChar_eq_some_iff.mp ht
    obtain ⟨stamp, hstamp, rfl⟩ := takeStamp_eq_some_iff.mp h
    simp only [Bool.or_eq_true, decide_eq_true_eq] at hkind
    obtain rfl | rfl := hkind
    · exact ⟨stamp, _, hstamp, .inl rfl, rfl⟩
    · exact ⟨stamp, _, hstamp, .inr rfl, rfl⟩
  · rintro ⟨stamp, kind, hstamp, hkind, rfl⟩
    refine ⟨[kind], Option.bind_eq_some_iff.mpr ⟨stamp ++ [kind], takeChar_eq_some_iff.mpr rfl,
      takeStamp_eq_some_iff.mpr ⟨stamp, hstamp, rfl⟩⟩, ?_⟩
    simpa using hkind

/-- The pattern matches the labels of the grammar, whole. -/
theorem isLabel_iff : isLabel s = true ↔ LabelGrammar s := by
  unfold isLabel
  rw [Option.any_eq_true]
  constructor
  -- A label is the stamp of a full backup, and one more where it depends on that.
  · rintro ⟨rest, h, hrest⟩
    obtain ⟨t, ht, hfull⟩ := Option.bind_eq_some_iff.mp h
    obtain ⟨stamp, hstamp, rfl⟩ := takeStamp_eq_some_iff.mp ht
    obtain rfl := takeChar_eq_some_iff.mp hfull
    rw [Bool.or_eq_true, List.isEmpty_iff, isBase_iff] at hrest
    obtain rfl | ⟨stamp', kind, hstamp', hkind, rfl⟩ := hrest
    · exact .full hstamp
    · exact .dependent hstamp hstamp' hkind
  · intro h
    cases h with
    | @full stamp hs =>
      exact ⟨[], Option.bind_eq_some_iff.mpr ⟨[chr 'F'], takeStamp_eq_some_iff.mpr ⟨stamp, hs, rfl⟩,
        takeChar_eq_some_iff.mpr rfl⟩, rfl⟩
    | @dependent stamp t kind hs ht hkind =>
      refine ⟨chr '_' :: (t ++ [kind]), Option.bind_eq_some_iff.mpr ⟨_,
        takeStamp_eq_some_iff.mpr ⟨stamp, hs, rfl⟩, takeChar_eq_some_iff.mpr rfl⟩, ?_⟩
      rw [Bool.or_eq_true]
      exact .inr (isBase_iff.mpr ⟨t, kind, ht, hkind, rfl⟩)

/-! ## The fields -/

/-- A member read with `null` in its place is a text when the object says so. -/
theorem getD_eq_str_iff {key : String} : getD members key .null = .str s ↔
    members.lookup (text key) = some (.str s) := by
  unfold getD
  cases members.lookup (text key) <;> simp

/-- A member read with `null` in its place is `null` when it is missing or says so. -/
theorem getD_eq_null_iff {key : String} : getD members key .null = .null ↔
    members.lookup (text key) = none ∨ members.lookup (text key) = some .null := by
  unfold getD
  cases members.lookup (text key) <;> simp

/-- Rejecting a value raises when the value is nested too deep to be shown. -/
theorem rejectShowing_raised_iff {v : Json} {message : Text → Text} :
    rejectShowing limits texts v message = .raised ↔ limits.repr < v.depth := by
  unfold rejectShowing Json.shown
  by_cases hdepth : v.depth ≤ limits.repr
  · rw [if_pos hdepth]
    exact iff_of_false nofun (by omega)
  · rw [if_neg hdepth]
    exact iff_of_true rfl (by omega)

/-- An action passes when it is the name of a known one. -/
theorem checkAction_ok_iff {v : Json} {action : Text} :
    checkAction limits texts v = .ok action ↔ v = .str action ∧ action ∈ actions := by
  unfold checkAction
  dsimp only
  split
  · next a =>
    split
    · next ha => exact ⟨fun h => by cases h; exact ⟨rfl, ha⟩, fun h => by cases h.1; rfl⟩
    · next ha => exact ⟨nofun, fun h => by cases h.1; exact absurd h.2 ha⟩
  · next hv => exact ⟨nofun, fun h => absurd h.1 (hv action)⟩

/-- Checking an action raises when it is nested too deep to be shown. -/
theorem checkAction_raised_iff {v : Json} :
    checkAction limits texts v = .error .raised ↔ limits.repr < v.depth := by
  unfold checkAction
  dsimp only
  split
  · next a =>
    split
    · exact iff_of_false nofun (Nat.not_lt_zero _)
    · rw [Except.error.injEq, rejectShowing_raised_iff]
  · rw [Except.error.injEq, rejectShowing_raised_iff]

/-- A label passes when only a restore carries one, and it is of the grammar. -/
theorem checkLabel_ok_iff {action : Text} {v : Json} {r : Request} :
    checkLabel limits texts action v = .ok r ↔
      (action ≠ text "restore" ∧ v = .null ∧ r = ⟨action, none⟩) ∨
        (action = text "restore" ∧ ∃ label, v = .str label ∧ isLabel label = true ∧
          r = ⟨action, some label⟩) := by
  unfold checkLabel
  -- A restore has to have a label, and nothing else may.
  by_cases hrestore : action = text "restore"
  · subst hrestore
    rw [if_neg (not_not.mpr rfl)]
    simp only [ne_eq, not_true, false_and, false_or, true_and]
    cases v with
    | str label =>
      simp only [Json.str.injEq, exists_eq_left']
      by_cases hlabel : isLabel label = true
      · rw [if_pos hlabel, Except.ok.injEq, and_iff_right hlabel, eq_comm]
      · rw [if_neg hlabel]
        exact iff_of_false nofun fun h => hlabel h.1
    | null | bool _ | int _ | float _ | arr _ | obj _ =>
      refine iff_of_false nofun ?_
      rintro ⟨label, h, -⟩
      cases h
  · rw [if_pos hrestore]
    simp only [hrestore, ne_eq, not_false_iff, false_and, or_false, true_and]
    cases v with
    | null =>
      dsimp only
      rw [Except.ok.injEq, and_iff_right rfl, eq_comm]
    | str _ | bool _ | int _ | float _ | arr _ | obj _ =>
      refine iff_of_false nofun fun h => ?_
      cases h.1

/-- Checking a label raises on a restore whose label is nested too deep to be shown. -/
theorem checkLabel_raised_iff {action : Text} {v : Json} :
    checkLabel limits texts action v = .error .raised ↔
      action = text "restore" ∧ limits.repr < v.depth := by
  unfold checkLabel
  by_cases hrestore : action = text "restore"
  · rw [if_neg (not_not.mpr hrestore), and_iff_right hrestore]
    split
    · exact iff_of_false nofun (Nat.not_lt_zero _)
    · split <;> exact iff_of_false nofun (Nat.not_lt_zero _)
    · rw [Except.error.injEq, rejectShowing_raised_iff]
  · rw [if_pos hrestore]
    split <;> exact iff_of_false nofun fun h => hrestore h.1

/-! ## The request -/

/-- No field is unexpected when each is the action or the set. -/
theorem unexpected_eq_nil_iff :
    unexpected members = [] ↔ ∀ m ∈ members, m.1 = text "action" ∨ m.1 = text "set" := by
  unfold unexpected
  simp only [List.filter_eq_nil_iff, List.mem_map, decide_eq_true_eq, forall_exists_index, and_imp,
    forall_apply_eq_imp_iff₂, not_and, not_not]
  exact forall₂_congr fun _ _ => or_iff_not_imp_left.symm

/-- An object with the two keys only is parsed field by field. -/
theorem parseRequest_of_isRequest (h : IsRequest limits raw members) :
    parseRequest limits texts raw = parseFields limits texts members := by
  unfold parseRequest
  rw [h.1]
  exact if_neg (not_not.mpr (unexpected_eq_nil_iff.mpr h.2))

/-- Anything else is rejected, unless `json.loads` raises. -/
theorem parseRequest_of_not_isRequest (h : ∀ members, ¬IsRequest limits raw members)
    (hraised : Socket.parse limits raw ≠ .raised) :
    ∃ message, parseRequest limits texts raw = .error (.rejected message) := by
  unfold parseRequest
  -- Only an object can be a request.
  cases hparse : Socket.parse limits raw with
  | malformed => exact ⟨_, rfl⟩
  | raised => exact absurd hparse hraised
  | value v =>
    cases v with
    | obj members =>
      have hunexpected : unexpected members ≠ [] := fun hnil =>
        h members ⟨hparse, unexpected_eq_nil_iff.mp hnil⟩
      dsimp only
      rw [if_pos hunexpected]
      exact ⟨_, rfl⟩
    | null | bool _ | int _ | float _ | str _ | arr _ => exact ⟨_, rfl⟩

/-- The plain actions are the known ones but the restore. -/
theorem mem_plainActions_iff {action : Text} :
    action ∈ plainActions ↔ action ∈ actions ∧ action ≠ text "restore" := by
  unfold plainActions actions
  simp only [List.map_cons, List.map_nil, List.mem_cons, List.not_mem_nil, or_false]
  constructor
  · rintro (rfl | rfl | rfl | rfl) <;> exact ⟨by tauto, by decide⟩
  · tauto

/-- The fields make a request when they are those of a plain action or of a restore. -/
theorem parseFields_ok_iff {r : Request} : parseFields limits texts members = .ok r ↔
    (∃ action, members.lookup (text "action") = some (.str action) ∧ action ∈ plainActions ∧
      (members.lookup (text "set") = none ∨ members.lookup (text "set") = some .null) ∧
        r = ⟨action, none⟩) ∨
    (members.lookup (text "action") = some (.str (text "restore")) ∧
      ∃ label, members.lookup (text "set") = some (.str label) ∧ LabelGrammar label ∧
        r = ⟨text "restore", some label⟩) := by
  unfold parseFields
  simp only [Fallible.bind_ok_iff, checkAction_ok_iff, checkLabel_ok_iff, getD_eq_null_iff,
    isLabel_iff, mem_plainActions_iff]
  -- Only a restore comes with a label.
  constructor
  · rintro ⟨action, ⟨haction, hmem⟩, ⟨hne, hset, rfl⟩ | ⟨rfl, label, hset, hlabel, rfl⟩⟩
    · exact .inl ⟨action, getD_eq_str_iff.mp haction, ⟨hmem, hne⟩, hset, rfl⟩
    · exact .inr ⟨getD_eq_str_iff.mp haction, label, getD_eq_str_iff.mp hset, hlabel, rfl⟩
  · rintro (⟨action, haction, ⟨hmem, hne⟩, hset, rfl⟩ | ⟨haction, label, hset, hlabel, rfl⟩)
    · exact ⟨action, ⟨getD_eq_str_iff.mpr haction, hmem⟩, .inl ⟨hne, hset, rfl⟩⟩
    · exact ⟨text "restore", ⟨getD_eq_str_iff.mpr haction, by decide⟩,
        .inr ⟨rfl, label, getD_eq_str_iff.mpr hset, hlabel, rfl⟩⟩

/-- Parsing the fields raises when one that is rejected is nested too deep. -/
theorem parseFields_raised_iff : parseFields limits texts members = .error .raised ↔
    limits.repr < (getD members "action" .null).depth ∨
      (getD members "action" .null = .str (text "restore") ∧
        limits.repr < (getD members "set" .null).depth) := by
  unfold parseFields
  simp only [Fallible.bind_error_iff, checkAction_raised_iff, checkAction_ok_iff,
    checkLabel_raised_iff]
  refine or_congr_right ⟨?_, ?_⟩
  · rintro ⟨_, ⟨haction, -⟩, rfl, hdepth⟩
    exact ⟨haction, hdepth⟩
  · rintro ⟨haction, hdepth⟩
    exact ⟨_, ⟨haction, by decide⟩, rfl, hdepth⟩

/-! ## The client's lines -/

/-- A time stamp is of plain ASCII. -/
theorem Stamp.ascii {stamp : Text} (h : Stamp stamp) : ∀ c ∈ stamp, c.val < 0x80 := by
  obtain ⟨date, time, -, -, hdate, htime, rfl⟩ := h
  have hdigit : ∀ c : CodePoint, isDigit c = true → c.val < 0x80 := by
    intro c hc
    simp only [isDigit, Bool.and_eq_true, decide_eq_true_eq] at hc
    change 48 ≤ c.val ∧ c.val ≤ 57 at hc
    omega
  intro c hc
  rcases List.mem_append.mp hc with hc | hc
  · exact hdigit c (hdate c hc)
  rcases List.mem_cons.mp hc with rfl | hc
  · decide
  · exact hdigit c (htime c hc)

/-- A label of the grammar is of plain ASCII. -/
theorem LabelGrammar.ascii {label : Text} (h : LabelGrammar label) : ∀ c ∈ label, c.val < 0x80 := by
  intro c hc
  -- Digits, hyphens and letters are ASCII.
  cases h with
  | full hs =>
    rcases List.mem_append.mp hc with hc | hc
    · exact hs.ascii c hc
    · obtain rfl := List.mem_singleton.mp hc
      decide
  | dependent hs ht hkind =>
    simp only [List.mem_append, List.mem_cons, List.not_mem_nil, or_false] at hc
    obtain hc | rfl | rfl | hc | rfl := hc
    · exact hs.ascii c hc
    · decide
    · decide
    · exact ht.ascii c hc
    · rcases hkind with rfl | rfl <;> decide

/-- What is sent is read back as it was. -/
theorem Operation.plain (op : Operation) : Plain op.payload := by
  have hlabel : ∀ label : Label, Apart label.text := by
    intro label
    have happart : Apart (label.text ++ []) := .append (fun c hc => ?_) List.isChain_nil
    · rwa [List.append_nil] at happart
    · have hascii := label.valid.ascii c hc
      simp only [isHigh, Bool.and_eq_false_iff, decide_eq_false_iff_not]
      omega
  cases op with
  | restore label =>
    have hkeys : [text "action", text "set"].Nodup := by decide
    exact ⟨hkeys, apart_text _, apart_text _, apart_text _, hlabel label, trivial⟩
  | info | status | stop | start =>
    exact ⟨List.nodup_singleton _, apart_text _, apart_text _, trivial⟩

/-- The payload of an operation is an object of texts. -/
theorem Operation.depth (op : Operation) : op.payload.depth = 1 := by
  cases op <;> rfl

/-- The line is UTF-8, and one that `json.loads` follows gives what was sent. -/
theorem Operation.parse_line (op : Operation) :
    Socket.parse limits op.line = .raised ∨ Socket.parse limits op.line = .value op.payload := by
  have hascii : ∀ c ∈ dumps op.payload ++ [chr '\n'], c.val < 0x80 := by
    intro c hc
    rcases List.mem_append.mp hc with hc | hc
    · have h := printable_dumps op.payload op.plain c hc
      omega
    · rw [List.mem_singleton.mp hc]
      decide
  have hdecode : Socket.decode op.line = some (dumps op.payload ++ [chr '\n']) :=
    Socket.decode_ascii hascii
  have hstops : Stops [chr '\n'] := stops_cons ⟨rfl, rfl, rfl, rfl⟩
  unfold Socket.parse
  rw [hdecode]
  -- An operation is nested once, which the limit may not allow.
  by_cases hlimit : 1 ≤ limits.loads
  · right
    have hdepth : op.payload.depth ≤ limits.loads := by rw [op.depth]; exact hlimit
    dsimp only
    rw [loadsStr_dumps op.plain hdepth hstops rfl]
  · left
    have hzero : limits.loads = 0 := by omega
    have hlex : lex (dumps op.payload ++ [chr '\n']) = tokens op.payload ++ lex [chr '\n'] :=
      lex_dumps op.payload [chr '\n'] op.plain hstops
    dsimp only
    rw [hzero, loadsStr, hlex]
    rfl

/-! ## Exactness -/

/-- A line asks for a plain action when it is parsed as one. -/
theorem asksPlain_iff {action : Text} :
    AsksPlain limits raw action ↔ ∃ members, IsRequest limits raw members ∧
      parseFields limits texts members = .ok ⟨action, none⟩ := by
  unfold AsksPlain
  refine exists_congr fun members => and_congr_right fun _ => ?_
  rw [parseFields_ok_iff]
  constructor
  · rintro ⟨haction, hmem, hset⟩
    exact .inl ⟨action, haction, hmem, hset, rfl⟩
  · rintro (⟨_, haction, hmem, hset, h⟩ | ⟨-, _, -, -, h⟩)
    · cases h
      exact ⟨haction, hmem, hset⟩
    · cases h

/-- A line asks for a restore when it is parsed as one. -/
theorem asksRestore_iff {label : Text} :
    AsksRestore limits raw label ↔ ∃ members, IsRequest limits raw members ∧
      parseFields limits texts members = .ok ⟨text "restore", some label⟩ := by
  unfold AsksRestore
  refine exists_congr fun members => and_congr_right fun _ => ?_
  rw [parseFields_ok_iff]
  constructor
  · rintro ⟨haction, hset, hlabel⟩
    exact .inr ⟨haction, label, hset, hlabel, rfl⟩
  · rintro (⟨_, -, -, -, h⟩ | ⟨haction, _, hset, hlabel, h⟩)
    · cases h
    · cases h
      exact ⟨haction, hset, hlabel⟩

/-- What is returned is what was asked. -/
theorem parseRequest_ok_iff {r : Request} : parseRequest limits texts raw = .ok r ↔
    ∃ members, IsRequest limits raw members ∧ parseFields limits texts members = .ok r := by
  constructor
  · intro h
    by_cases hrequest : ∃ members, IsRequest limits raw members
    · obtain ⟨members, hmembers⟩ := hrequest
      exact ⟨members, hmembers, by rwa [← parseRequest_of_isRequest hmembers]⟩
    · by_cases hraised : Socket.parse limits raw = .raised
      · rw [parseRequest, hraised] at h
        cases h
      · obtain ⟨message, hmessage⟩ :=
          parseRequest_of_not_isRequest (not_exists.mp hrequest) hraised
        rw [hmessage] at h
        cases h
  · rintro ⟨members, hmembers, h⟩
    rwa [parseRequest_of_isRequest hmembers]

/-- An exception that is no rejection leaves it where `json.loads` or the text of a rejection raises
one. -/
theorem parseRequest_raised_iff :
    parseRequest limits texts raw = .error .raised ↔ ¬Followed limits raw := by
  unfold Followed
  -- The line is not read.
  by_cases hraised : Socket.parse limits raw = .raised
  · refine iff_of_true ?_ fun h => h.1 hraised
    rw [parseRequest, hraised]
  rw [and_iff_right hraised]
  -- The line is an object, or is rejected as it is.
  by_cases hrequest : ∃ members, IsRequest limits raw members
  · obtain ⟨members, hmembers⟩ := hrequest
    have honly : ∀ members', IsRequest limits raw members' → members' = members := fun members' h => by
      have heq := h.1.symm.trans hmembers.1
      injection heq with heq
      injection heq
    rw [parseRequest_of_isRequest hmembers, parseFields_raised_iff]
    constructor
    · intro h hall
      obtain ⟨haction, hset⟩ := hall members hmembers
      rcases h with h | ⟨hrestore, h⟩
      · omega
      · have hle := hset hrestore
        omega
    · intro h
      by_contra hnone
      rw [not_or, not_and, not_lt] at hnone
      refine h fun members' hmembers' => ?_
      rw [honly members' hmembers']
      exact ⟨hnone.1, fun hrestore => Nat.le_of_not_lt (hnone.2 hrestore)⟩
  · obtain ⟨message, hmessage⟩ :=
      parseRequest_of_not_isRequest (not_exists.mp hrequest) hraised
    rw [hmessage]
    exact iff_of_false nofun fun h => h fun members hmembers => absurd ⟨members, hmembers⟩ hrequest

/-- What is returned was asked. -/
theorem asks_of_ok {r : Request} (h : parseRequest limits texts raw = .ok r) :
    (∃ action, AsksPlain limits raw action) ∨ ∃ label, AsksRestore limits raw label := by
  obtain ⟨members, hmembers, hfields⟩ := parseRequest_ok_iff.mp h
  rcases parseFields_ok_iff.mp hfields with
    ⟨action, haction, hmem, hset, -⟩ | ⟨haction, label, hset, hlabel, -⟩
  · exact .inl ⟨action, members, hmembers, haction, hmem, hset⟩
  · exact .inr ⟨label, members, hmembers, haction, hset, hlabel⟩

/-- The client's object is a request, for what the client asked. -/
theorem Operation.parseFields_payload (op : Operation) : ∃ members, op.payload = .obj members ∧
    (∀ m ∈ members, m.1 = text "action" ∨ m.1 = text "set") ∧
    parseFields limits texts members = .ok ⟨op.action, op.label⟩ := by
  refine ⟨_, rfl, ?_, parseFields_ok_iff.mpr ?_⟩
  · intro m hm
    rcases List.mem_cons.mp hm with rfl | hm
    · exact .inl rfl
    · rw [Option.mem_toList, Option.map_eq_some_iff] at hm
      obtain ⟨label, -, rfl⟩ := hm
      exact .inr rfl
  -- The client sends a label with a restore only.
  · cases op with
    | restore label => exact .inr ⟨rfl, label.text, rfl, label.valid, rfl⟩
    | info => exact .inl ⟨text "info", rfl, by decide, .inl rfl, rfl⟩
    | status => exact .inl ⟨text "status", rfl, by decide, .inl rfl, rfl⟩
    | stop => exact .inl ⟨text "stop", rfl, by decide, .inl rfl, rfl⟩
    | start => exact .inl ⟨text "start", rfl, by decide, .inl rfl, rfl⟩

/-- A line that is read exactly does not raise. -/
theorem Exact.not_raised (h : Exact limits texts raw) :
    parseRequest limits texts raw ≠ .error .raised := by
  intro hraised
  obtain ⟨message, hmessage⟩ := h.other
    (fun action hasks => by
      have hok := (h.plain action).mpr hasks
      rw [hraised] at hok
      cases hok)
    fun label hasks => by
      have hok := (h.restore label).mpr hasks
      rw [hraised] at hok
      cases hok
  rw [hraised] at hmessage
  cases hmessage

/-- The helper is exact on the bytes that raise nothing but a rejection. -/
theorem exact_iff (limits : Limits) (texts : Texts) (raw : List ℕ) :
    Exact limits texts raw ↔ Followed limits raw := by
  constructor
  · intro h
    by_contra hfollowed
    exact h.not_raised (parseRequest_raised_iff.mpr hfollowed)
  · intro h
    have hraised : parseRequest limits texts raw ≠ .error .raised := fun hparse =>
      parseRequest_raised_iff.mp hparse h
    -- Every plain action, every restore, every rejection, and every request that is written.
    refine ⟨fun action => ?_, fun label => ?_, fun hplain hrestore => ?_, fun op hraw => ?_⟩
    · rw [parseRequest_ok_iff, asksPlain_iff]
    · rw [parseRequest_ok_iff, asksRestore_iff]
    · cases hparse : parseRequest limits texts raw with
      | ok r => exact absurd (asks_of_ok hparse) (not_or.mpr ⟨not_exists.mpr hplain,
          not_exists.mpr hrestore⟩)
      | error e =>
        cases e with
        | rejected message => exact ⟨message, rfl⟩
        | raised => exact absurd hparse hraised
    · obtain ⟨members, hpayload, hkeys, hfields⟩ := op.parseFields_payload
      have hparse : Socket.parse limits raw = .value (.obj members) := by
        rw [hraw, ← hpayload]
        exact op.parse_line.resolve_left (hraw ▸ h.1)
      exact parseRequest_ok_iff.mpr ⟨members, ⟨hparse, hkeys⟩, hfields⟩

/-! ## Too long a number -/

/-- Many digits are one token, which `int` refuses. -/
theorem lex_ones {n : ℕ} (h : maxStrDigits ≤ n) :
    lex (List.replicate (n + 1) (chr '1')) = [.hugeInt] := by
  have hdigits : (List.replicate (n + 1) (chr '1')).takeWhile isDigit =
      List.replicate (n + 1) (chr '1') :=
    List.takeWhile_eq_self_iff.mpr fun c hc => by rw [List.eq_of_mem_replicate hc]; rfl
  have hint : intDigits (List.replicate (n + 1) (chr '1')) = List.replicate (n + 1) (chr '1') := by
    rw [List.replicate_succ, intDigits, if_neg (by decide), ← List.replicate_succ, hdigits]
  -- There are more digits than `int` reads.
  have hunsigned : unsigned false (List.replicate (n + 1) (chr '1')) = some (.hugeInt, n + 1) := by
    have hlong : ¬n + 1 ≤ maxStrDigits := by omega
    simp [unsigned, hint, fraction, exponent, hlong]
  have htoken : token (chr '1') (List.replicate n (chr '1') ++ []) =
      (some .hugeInt, (List.replicate n (chr '1')).length) := by
    rw [List.append_nil, token_digit (by decide), ← List.replicate_succ, hunsigned,
      List.length_replicate]
    rfl
  have hlex := lex_cons htoken
  rw [List.append_nil] at hlex
  rw [List.replicate_succ, hlex]
  rfl

/-- The `ValueError` of `int` is none that the decoder makes. -/
theorem parse_ones {n : ℕ} (h : maxStrDigits ≤ n) :
    Socket.parse limits (List.replicate (n + 1) 0x31) = .raised := by
  have hascii : ∀ c ∈ List.replicate (n + 1) (chr '1'), c.val < 0x80 := by
    intro c hc
    rw [List.eq_of_mem_replicate hc]
    decide
  have hdecode : Socket.decode (List.replicate (n + 1) 0x31) =
      some (List.replicate (n + 1) (chr '1')) := by
    rw [← Socket.decode_ascii hascii, List.map_replicate]
    rfl
  unfold Socket.parse
  rw [hdecode]
  dsimp only
  rw [loadsStr, lex_ones h]
  rfl

/-- An integer of one digit more than `int` reads leaves the parser with that error. -/
theorem digits_raise :
    ¬Exact ⟨9000, 9000⟩ ⟨fun _ => [], fun _ => []⟩ (List.replicate (maxStrDigits + 1) 0x31) :=
  fun h => h.not_raised (by rw [parseRequest, parse_ones (Nat.le_refl _)])

end Fraisier.PgBackRest.Protocol
