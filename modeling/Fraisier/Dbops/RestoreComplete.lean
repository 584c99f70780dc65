import Fraisier.Lib.Decimal
import Fraisier.Lib.Partition
import Fraisier.Dbops.RestoreErrors

/-!
# When every failed statement is told

`psql` names the line on which a failed statement ends, by the newlines before it; the restore looks
that line up among the lines of Python, which has more breaks, and excuses the statement when the
line shows a complete `SET`, whatever statement it is the end of. So a statement that is no session
setting is told exactly when its report can be read and its line does not look like one
(`failures_told_iff`).
-/

namespace Fraisier.Dbops

open Fraisier.Lib Str Fallible

/-! ## A script and what psql writes of it -/

/-- A statement, from its first token to its last, with the blanks and comments before it. -/
structure Piece where
  gap : Str
  body : Str
  body_ne : body ≠ []
  starts : ∀ c ∈ body.head?, isSpace c = false
  ends : ∀ c ∈ body.getLast?, isSpace c = false

/-- A text split into statements. -/
structure Script where
  pieces : List Piece
  rest : Str

/-- The text of a piece. -/
def Piece.text (p : Piece) : Str := p.gap ++ p.body

/-- A complete `SET` or `SELECT pg_catalog.set_config` statement. -/
def Piece.isSetting (p : Piece) : Bool := p.body.endsWith [';'] && inertStatement p.body

/-- The text of the script. -/
def Script.text (script : Script) : Str := script.pieces.flatMap Piece.text ++ script.rest

variable {script : Script}

/-- The text up to the end of a statement. -/
def Script.upTo (script : Script) (i : Fin script.pieces.length) : Str :=
  (script.pieces.take (i + 1)).flatMap Piece.text

/-- The line that a statement ends on. -/
def Script.endLine (script : Script) (i : Fin script.pieces.length) : ℕ :=
  (script.upTo i).count '\n' + 1

/-- A statement that failed, with the server's error: a severity in the server's language, an
SQLSTATE of an error class and a message. -/
structure Failure (script : Script) where
  index : Fin script.pieces.length
  severity : Str
  sqlstate : Str
  message : Str
  severity_ne : severity ≠ []
  severity_word : ∀ c ∈ severity, c ≠ ':' ∧ isLineBreak c = false
  sqlstate_length : sqlstate.length = 5
  sqlstate_chars : ∀ c ∈ sqlstate, isSqlstateChar c = true
  isError : sqlstate.take 2 ∉ notAnError

/-- The number of the line, as `psql` writes it. -/
def Failure.number (f : Failure script) : Str := Nat.toDigits 10 (script.endLine f.index)

/-- What stands in the report between the path and the message. -/
def Failure.header (f : Failure script) : Str :=
  f.number ++ ": ".toList ++ f.severity ++ ":  ".toList ++ f.sqlstate ++ ": ".toList

/-- `psql:<file>:<n>: <severity>:  <sqlstate>: <message>`. -/
def Failure.report (file : Str) (f : Failure script) : Str :=
  "psql:".toList ++ file ++ [':'] ++ f.header ++ f.message

/-- The line of the report that has the number in it. -/
def Failure.mainLine (file : Str) (f : Failure script) : Str :=
  lastLine ("psql:".toList ++ file) ++ [':'] ++ f.header ++ firstLine f.message

/-- What `psql` writes to its standard error: reports of failed statements, and other text. -/
inductive Written (script : Script)
  | report (f : Failure script)
  | other (text : Str)

/-- The text of it, with a newline. -/
def Written.text (file : Str) : Written script → Str
  | .report f => f.report file ++ ['\n']
  | .other text => text ++ ['\n']

/-- The standard error. -/
def written (file : Str) (out : List (Written script)) : Str := out.flatMap (Written.text file)

/-- The run of `psql`, which exits 0. -/
def restored (file : Str) (out : List (Written script)) : CompletedProcess where
  returncode := 0
  stderr := universalNewlines (written file out)

/-- The statement failed, and it is no session setting. -/
def Fails (out : List (Written script)) (f : Failure script) : Prop :=
  .report f ∈ out ∧ script.pieces[f.index].isSetting = false

/-- The entry is about the statement. -/
def Failure.EntryFor (f : Failure script) (e : Str) : Prop :=
  "line ".toList ++ f.number ++ ": ".toList ++ f.sqlstate ++ ": ".toList <+: e

/-- Each statement that failed and is no session setting has an entry, and the restore raises. -/
structure FailuresTold (file : Str) (out : List (Written script)) : Prop where
  entries : ∃ errors,
    consequentialRestoreErrors (restored file out).stderr script.text = .ok errors ∧
      ∀ f, Fails out f → ∃ e ∈ errors, f.EntryFor e
  raises : ∀ f, Fails out f → ∃ count listed more,
    restoreSchema (restored file out) script.text = .error (.incomplete count listed more)

/-! ## When they are told -/

/-- A line is read as a message with the number and the SQLSTATE of the failure. -/
def Failure.ReadIn (f : Failure script) (line : Str) : Prop :=
  ∃ m, psqlMessage line = some m ∧ m.line = f.number ∧ m.sqlstate = f.sqlstate

/-- The report is read as it was written: its line starts with `psql:` and something more of the
path, and its message does not continue with what looks like the end of another report, unless with
the same number and SQLSTATE. -/
def Failure.Legible (file : Str) (f : Failure script) : Prop :=
  (f.mainLine file).startsWith "psql:".toList = true ∧
    match lastMessage (firstLine f.message) with
    | none => 6 ≤ (lastLine ("psql:".toList ++ file)).length
    | some m => m.line = f.number ∧ m.sqlstate = f.sqlstate

/-- Every number can be read, every statement that failed has a report that can be read, or another
line that is read alike, and the line it ends on does not look like a session setting. -/
structure Told (file : Str) (out : List (Written script)) : Prop where
  numbers : ∀ line ∈ (written file out).splitlines, ∀ m, psqlMessage line = some m →
    m.sqlstate.take 2 ∉ notAnError → m.line.length ≤ maxDigits
  read : ∀ f, Fails out f → f.Legible file ∨
    ∃ line ∈ (written file out).splitlines, line ≠ f.mainLine file ∧ f.ReadIn line
  shown : ∀ f, Fails out f →
    statementIsInert script.text.splitlines (script.endLine f.index) = false

/-! ## The pattern -/

variable {c : Char} {s u v : Str} {m : PsqlMessage} {f : Failure script}

/-- Where no message begins, the last message is a later one. -/
theorem lastMessage_cons (h : messageAt (c :: s) = none) :
    lastMessage (c :: s) = lastMessage s := by
  rw [lastMessage, h, Option.or_none]

/-- A message starts at a colon. -/
theorem lastMessage_noColon (hu : ∀ c ∈ u, c ≠ ':') : lastMessage (u ++ v) = lastMessage v := by
  induction u with
  | nil => rfl
  | cons c u ih =>
    have hat : messageAt (c :: (u ++ v)) = none := by
      unfold messageAt
      split
      · next heq => exact absurd (List.cons.inj heq).1 (hu c List.mem_cons_self)
      · rfl
    rw [List.cons_append, lastMessage_cons hat, ih fun d hd => hu d (List.mem_cons_of_mem c hd)]

/-- A number comes after the colon. -/
theorem lastMessage_colon (h : ∀ c ∈ s.head?, isDecimal c = false) :
    lastMessage (':' :: s) = lastMessage s := by
  refine lastMessage_cons ?_
  have hline : s.takeWhile isDecimal = [] := by
    cases s with
    | nil => rfl
    | cons d s => simp [h d rfl]
  unfold messageAt
  simp only [hline, true_or, if_true]
  split
  · split
    · split <;> rfl
    · rfl
  · rfl

/-- What is read as a message. -/
structure PsqlMessage.Shape (m : PsqlMessage) (severity blanks : Str) : Prop where
  line_ne : m.line ≠ []
  line : ∀ c ∈ m.line, isDecimal c = true
  severity_ne : severity ≠ []
  severity : ∀ c ∈ severity, c ≠ ':'
  blanks_ne : blanks ≠ []
  blanks : ∀ c ∈ blanks, isSpace c = true
  sqlstate_length : m.sqlstate.length = 5
  sqlstate : ∀ c ∈ m.sqlstate, isSqlstateChar c = true

/-- A colon is no digit. -/
theorem isDecimal_colon : isDecimal ':' = false := by decide

/-- A character of a state code is no space. -/
theorem not_isSpace_of_isSqlstateChar (h : isSqlstateChar c = true) : isSpace c = false := by
  simp only [isSqlstateChar, isSpace, inRanges, List.any_cons, List.any_nil, Bool.or_false,
    Bool.or_eq_true, Bool.and_eq_true, decide_eq_true_eq] at h ⊢
  simp only [Bool.or_eq_false_iff, Bool.and_eq_false_iff, decide_eq_false_iff_not]
  omega

/-- A message is found where the text has its shape. -/
theorem messageAt_eq_some_iff : messageAt s = some m ↔ ∃ severity blanks, m.Shape severity blanks ∧
    s = ':' :: (m.line ++ ':' :: ' ' :: (severity ++ ':' :: (blanks ++ (m.sqlstate ++
      ':' :: ' ' :: m.message)))) := by
  constructor
  · intro h
    -- The colons are found one after the other.
    unfold messageAt at h
    split at h <;> [skip; cases h]
    next s =>
    dsimp only at h
    split at h <;> [skip; cases h]
    next _ s₁ h₁ =>
    split at h <;> [skip; cases h]
    next d s₂ h₂ =>
    split at h <;> [skip; cases h]
    next _ message h₃ =>
    split at h <;> [cases h; skip]
    next hall =>
    obtain rfl := Option.some.inj h
    push Not at hall
    obtain ⟨hline, hseverity, hblanks, hstate⟩ := hall
    obtain rfl : d = ':' := by
      have hd := List.head?_dropWhile_not (· ≠ ':') s₁
      rw [h₂] at hd
      simpa using hd
    have hlength : 5 < (s₂.dropWhile isSpace).length := by
      have := congrArg List.length h₃
      rw [List.length_drop, List.length_cons] at this
      omega
    refine ⟨s₁.takeWhile (· ≠ ':'), s₂.takeWhile isSpace,
      ⟨hline, fun c hc => List.mem_takeWhile_imp hc, hseverity,
        fun c hc => by simpa using List.mem_takeWhile_imp hc, hblanks,
        fun c hc => List.mem_takeWhile_imp hc, by simp; omega,
        by simpa [List.all_eq_true] using hstate⟩, ?_⟩
    dsimp only
    rw [← h₃, List.take_append_drop, List.takeWhile_append_dropWhile, ← h₂,
      List.takeWhile_append_dropWhile, ← h₁, List.takeWhile_append_dropWhile]
  -- A text of the shape is cut at its colons.
  · rintro ⟨severity, blanks, h, rfl⟩
    obtain ⟨d, state, hcons⟩ := List.exists_cons_of_ne_nil (l := m.sqlstate) fun hnil => by
      simpa [hnil] using h.sqlstate_length
    have hd : isSpace d = false :=
      not_isSpace_of_isSqlstateChar (h.sqlstate d (by simp [hcons]))
    have hsev : ∀ c ∈ severity, decide (c ≠ ':') = true := fun c hc => by
      simpa using h.severity c hc
    have htake :
        (blanks ++ (m.sqlstate ++ ':' :: ' ' :: m.message)).takeWhile isSpace = blanks := by
      rw [hcons, List.cons_append, takeWhile_until h.blanks hd]
    have hdrop : (blanks ++ (m.sqlstate ++ ':' :: ' ' :: m.message)).dropWhile isSpace =
        m.sqlstate ++ ':' :: ' ' :: m.message := by
      rw [hcons, List.cons_append, dropWhile_until h.blanks hd]
    unfold messageAt
    simp only [takeWhile_until h.line isDecimal_colon, dropWhile_until h.line isDecimal_colon,
      takeWhile_until hsev (c := ':') (by simp), dropWhile_until hsev (c := ':') (by simp), htake,
      hdrop, List.drop_left' h.sqlstate_length, List.take_left' h.sqlstate_length]
    rw [if_neg]
    simpa [h.line_ne, h.severity_ne, h.blanks_ne] using h.sqlstate

/-! ## The report -/

/-- A failure's line number is written in digits. -/
theorem Failure.isDecimal_number (f : Failure script) : ∀ c ∈ f.number, isDecimal c = true := by
  intro c hc
  rw [isDecimal, decimal?_of_mem_toDigits hc]
  rfl

/-- A failure's line number holds no colon. -/
theorem Failure.number_noColon (f : Failure script) : ∀ c ∈ f.number, c ≠ ':' := by
  rintro c hc rfl
  simpa [isDecimal_colon] using f.isDecimal_number ':' hc

/-- A character of a state code is no colon. -/
theorem ne_colon_of_isSqlstateChar (h : isSqlstateChar c = true) : c ≠ ':' := by
  rintro rfl
  exact absurd h (by decide)

/-- No message starts in what is left of the header. -/
theorem Failure.lastMessage_header (hu : ∀ c ∈ u, c ≠ ':') (v : Str) :
    lastMessage (u ++ ':' :: ' ' :: (f.severity ++ ':' :: ' ' :: ' ' :: (f.sqlstate ++
      ':' :: ' ' :: v))) = lastMessage v := by
  have hcolon : ∀ w : Str, lastMessage (':' :: ' ' :: w) = lastMessage w := fun w => by
    have hspace : isDecimal ' ' = false := by decide
    rw [lastMessage_colon (by simp [hspace])]
    exact lastMessage_noColon (u := [' ']) (forall_of_all (by decide))
  have hstate : lastMessage (' ' :: (f.sqlstate ++ ':' :: ' ' :: v)) = lastMessage v := by
    rw [← List.cons_append, lastMessage_noColon, hcolon]
    rintro c (_ | ⟨_, hc⟩)
    · decide
    · exact ne_colon_of_isSqlstateChar (f.sqlstate_chars c hc)
  rw [lastMessage_noColon hu, hcolon, lastMessage_noColon fun c hc => (f.severity_word c hc).1,
    hcolon, hstate]

/-- The message of the report itself. -/
theorem Failure.messageAt_header (f : Failure script) (v : Str) :
    messageAt (':' :: (f.number ++ ':' :: ' ' :: (f.severity ++ ':' :: ' ' :: ' ' :: (f.sqlstate ++
      ':' :: ' ' :: v)))) = some ⟨f.number, f.sqlstate, v⟩ :=
  messageAt_eq_some_iff.mpr ⟨f.severity, [' ', ' '],
    { line_ne := Nat.toDigits_ne_nil
      line := f.isDecimal_number
      severity_ne := f.severity_ne
      severity := fun c hc => (f.severity_word c hc).1
      blanks_ne := by simp
      blanks := forall_of_all (by decide)
      sqlstate_length := f.sqlstate_length
      sqlstate := f.sqlstate_chars }, rfl⟩

/-- A failure's header and what follows, spelt out. -/
theorem Failure.header_append (f : Failure script) (v : Str) :
    f.header ++ v = f.number ++ ':' :: ' ' :: (f.severity ++ ':' :: ' ' :: ' ' :: (f.sqlstate ++
      ':' :: ' ' :: v)) := by
  simp [Failure.header]

/-- A line is searched from behind, so what is found in a part of it is found. -/
theorem lastMessage_append (h : lastMessage v = some m) : lastMessage (u ++ v) = some m := by
  induction u with
  | nil => exact h
  | cons c u ih => rw [List.cons_append, lastMessage, ih, Option.some_or]

/-- A line that starts with `psql:` has no colon before. -/
theorem length_of_startsWith (h : (u ++ ':' :: v).startsWith "psql:".toList = true) :
    4 ≤ u.length := by
  match u with
  | [] | [_] | [_, _] | [_, _, _] => simp [startsWith] at h
  | _ :: _ :: _ :: _ :: _ => simp

/-- What is found after `psql:` and one character more. -/
theorem Failure.lastMessage_mainLine (file : Str) (f : Failure script)
    (h : (f.mainLine file).startsWith "psql:".toList = true) :
    lastMessage ((f.mainLine file).drop 6) = (lastMessage (firstLine f.message)).or
      (if 6 ≤ (lastLine ("psql:".toList ++ file)).length
        then some ⟨f.number, f.sqlstate, firstLine f.message⟩ else none) := by
  unfold Failure.mainLine at *
  generalize lastLine ("psql:".toList ++ file) = p at *
  rw [List.append_assoc, List.append_assoc, List.singleton_append, f.header_append] at *
  -- The name of the file may hold the rest of the header, or end before it.
  split
  · next hp =>
    rw [List.drop_append_of_le_length hp]
    cases hm : lastMessage (firstLine f.message) with
    | some m =>
      refine lastMessage_append ?_
      rw [lastMessage, f.lastMessage_header f.number_noColon]
      simp [hm]
    | none =>
      refine lastMessage_append ?_
      rw [lastMessage, f.lastMessage_header f.number_noColon, hm, f.messageAt_header]
      rfl
  · next hp =>
    have hlength := length_of_startsWith h
    have hnumber : 0 < f.number.length := List.length_pos_iff.mpr Nat.toDigits_ne_nil
    rw [Option.or_none, List.drop_append, List.drop_of_length_le (by omega), List.nil_append,
      show 6 - p.length = (5 - p.length) + 1 by omega, List.drop_succ_cons,
      List.drop_append_of_le_length (by omega)]
    exact f.lastMessage_header (fun c hc => f.number_noColon c (List.mem_of_mem_drop hc)) _

/-- The report is read as it was written exactly when it is legible. -/
theorem Failure.readIn_mainLine_iff (file : Str) (f : Failure script) :
    f.ReadIn (f.mainLine file) ↔ f.Legible file := by
  unfold ReadIn Legible psqlMessage
  -- A report without the prefix is not read, and any other from the last message in it.
  cases h : (f.mainLine file).startsWith "psql:".toList with
  | false =>
    refine iff_of_false ?_ fun h => Bool.false_ne_true h.1
    rintro ⟨m, hm, -⟩
    cases hm
  | true =>
    rw [if_pos rfl, f.lastMessage_mainLine file h]
    cases lastMessage (firstLine f.message) with
    | some m =>
      constructor
      · rintro ⟨_, ⟨⟩, hread⟩
        exact ⟨rfl, hread⟩
      · exact fun h => ⟨m, rfl, h.2⟩
    | none =>
      by_cases hlength : 6 ≤ (lastLine ("psql:".toList ++ file)).length
      · exact iff_of_true ⟨_, by rw [if_pos hlength]; rfl, rfl, rfl⟩ ⟨rfl, hlength⟩
      · refine iff_of_false ?_ fun h => hlength h.2
        rw [if_neg hlength]
        rintro ⟨m, hm, -⟩
        cases hm

/-- A digit of a number in a report is an ASCII one. -/
theorem Failure.number_noBreak (f : Failure script) : ∀ c ∈ f.number, isLineBreak c = false := by
  intro c hc
  have hdigit : c.isDigit = true := Nat.isDigit_of_mem_toDigits (by decide) (by decide) hc
  simp only [Char.isDigit, Bool.and_eq_true, decide_eq_true_eq, UInt32.le_iff_toNat_le] at hdigit
  have hrange : 48 ≤ c.toNat ∧ c.toNat ≤ 57 := hdigit
  simp only [isLineBreak, inRanges, List.any_cons, List.any_nil, Bool.or_false,
    Bool.or_eq_false_iff, Bool.and_eq_false_iff, decide_eq_false_iff_not]
  omega

/-- A character of a state code breaks no line. -/
theorem noBreak_of_isSqlstateChar (h : isSqlstateChar c = true) : isLineBreak c = false := by
  simp only [isSqlstateChar, isLineBreak, inRanges, List.any_cons, List.any_nil, Bool.or_false,
    Bool.or_eq_true, Bool.and_eq_true, decide_eq_true_eq] at h ⊢
  simp only [Bool.or_eq_false_iff, Bool.and_eq_false_iff, decide_eq_false_iff_not]
  omega

/-- A failure's header is on one line. -/
theorem Failure.header_noBreak (f : Failure script) : ∀ c ∈ f.header, isLineBreak c = false := by
  have hcolon : ∀ c ∈ ": ".toList, isLineBreak c = false :=
    forall_of_all (by decide)
  have hcolons : ∀ c ∈ ":  ".toList, isLineBreak c = false :=
    forall_of_all (by decide)
  unfold header
  simp only [List.forall_mem_append]
  exact ⟨⟨⟨⟨⟨f.number_noBreak, hcolon⟩, fun c hc => (f.severity_word c hc).2⟩, hcolons⟩,
    fun c hc => noBreak_of_isSqlstateChar (f.sqlstate_chars c hc)⟩, hcolon⟩

/-- What is written ends with a newline. -/
theorem getLast?_written (file : Str) (out : List (Written script)) :
    ∀ c ∈ (written file out).getLast?, isLineBreak c = true := by
  intro c hc
  rcases List.eq_nil_or_concat out with rfl | ⟨out, last, rfl⟩
  · simp [written] at hc
  · have hlast : ∃ text, last.text file = text ++ ['\n'] := by
      cases last with
      | report f => exact ⟨_, rfl⟩
      | other text => exact ⟨_, rfl⟩
    obtain ⟨text, htext⟩ := hlast
    obtain rfl : '\n' = c := by simpa [written, htext] using hc
    decide

/-- The line of the report is one of those that are written. -/
theorem Failure.mainLine_mem {file : Str} {out : List (Written script)} (h : .report f ∈ out) :
    f.mainLine file ∈ (written file out).splitlines := by
  obtain ⟨before, after, rfl⟩ := List.append_of_mem h
  obtain ⟨a, ha, hbreak⟩ := exists_lastLine ("psql:".toList ++ file)
  obtain ⟨b, hb, hrest⟩ := exists_firstLine f.message
  -- The report is put together from what stands before the line, the line, and what stands after
  -- it.
  have hparts : ∀ q l : Str, a ++ l = q → q ++ [':'] ++ f.header ++ f.message =
      a ++ (l ++ [':'] ++ f.header ++ firstLine f.message) ++ b := by
    rintro q l rfl
    conv_lhs => rw [← hb]
    simp only [List.append_assoc]
  have hreport : f.report file = a ++ f.mainLine file ++ b := hparts _ _ ha
  have htext : written file (before ++ .report f :: after) =
      (written file before ++ a) ++ f.mainLine file ++ (b ++ '\n' :: written file after) := by
    simp only [written, List.flatMap_append, List.flatMap_cons, Written.text, hreport,
      List.append_assoc, List.cons_append, List.nil_append]
  rw [htext]
  -- The line is cut off at both ends, and is one line.
  refine mem_splitlines ?_ ?_ ?_ ?_
  · intro c hc
    cases hlast : a.getLast? with
    | none =>
      rw [List.getLast?_eq_none_iff.mp hlast, List.append_nil] at hc
      exact getLast?_written file before c hc
    | some d =>
      rw [List.getLast?_append, hlast, Option.some_or] at hc
      exact hbreak c (hlast.trans hc)
  · unfold mainLine
    simp only [List.forall_mem_append]
    exact ⟨⟨⟨lastLine_noBreak _, forall_of_all (by decide)⟩, f.header_noBreak⟩, firstLine_noBreak _⟩
  · exact List.append_ne_nil_of_left_ne_nil (List.append_ne_nil_of_left_ne_nil
      (List.append_ne_nil_of_right_ne_nil _ (List.cons_ne_nil _ _)) _) _
  · intro c hc
    cases b with
    | nil =>
      obtain rfl : '\n' = c := by simpa using hc
      decide
    | cons d b => exact hrest c (by simpa using hc)

/-! ## The entries -/

/-- An error is collected when a line shows it and its class is an error's. -/
theorem mem_errorMessages_iff {stderr : Str} : m ∈ errorMessages stderr ↔
    (∃ line ∈ stderr.splitlines, psqlMessage line = some m) ∧ m.sqlstate.take 2 ∉ notAnError := by
  simp [errorMessages]

/-- What a line is read as. -/
theorem psqlMessage_shape {line : Str} (h : psqlMessage line = some m) :
    ∃ severity blanks, m.Shape severity blanks := by
  -- Induction on the text: the last message in it counts.
  have hlast : ∀ s, lastMessage s = some m → ∃ severity blanks, m.Shape severity blanks := by
    intro s
    induction s with
    | nil => simp [lastMessage]
    | cons c s ih =>
      intro hs
      rw [lastMessage] at hs
      obtain hs | ⟨-, hs⟩ := Option.or_eq_some_iff.mp hs
      · exact ih hs
      · obtain ⟨severity, blanks, hshape, -⟩ := messageAt_eq_some_iff.mp hs
        exact ⟨severity, blanks, hshape⟩
  unfold psqlMessage at h
  split at h
  · exact hlast _ h
  · cases h

/-- A number is read when it is not too long. -/
theorem exists_toInt_iff (h : ∀ c ∈ s, isDecimal c = true) :
    (∃ n, toInt s = some n) ↔ s.length ≤ maxDigits := by
  have hfold : ∀ n, ∃ k, s.foldlM (fun n c => (decimal? c).map (10 * n + ·)) n = some k := by
    induction s with
    | nil => exact fun n => ⟨n, rfl⟩
    | cons c s ih =>
      intro n
      obtain ⟨d, hd⟩ := Option.isSome_iff_exists.mp (h c List.mem_cons_self)
      obtain ⟨k, hk⟩ := ih (fun e he => h e (List.mem_cons_of_mem c he)) (10 * n + d)
      exact ⟨k, by simpa [hd] using hk⟩
  unfold toInt
  by_cases hlength : maxDigits < s.length
  · simp [hlength]
  · simpa [hlength, Nat.not_lt.mp hlength] using hfold 0

/-- The errors that count are those entered for the messages. -/
theorem consequentialRestoreErrors_eq (stderr schema : Str) :
    consequentialRestoreErrors stderr schema =
      List.reduceOption <$> (errorMessages stderr).mapM (entry schema.splitlines) := by
  unfold consequentialRestoreErrors
  rw [splitlines_universalNewlines]
  dsimp only
  split
  · next h => rw [h]; rfl
  · rfl

/-- A message is entered when its line number is not too long to read. -/
theorem exists_entry_iff {lines : List Str} (hm : ∀ c ∈ m.line, isDecimal c = true) :
    (∃ o, entry lines m = .ok o) ↔ m.line.length ≤ maxDigits := by
  rw [← exists_toInt_iff hm]
  unfold entry
  cases toInt m.line <;> simp

/-- The errors are given when each number can be read. -/
theorem exists_errors_iff {stderr schema : Str} :
    (∃ errors, consequentialRestoreErrors stderr schema = .ok errors) ↔
      ∀ m ∈ errorMessages stderr, m.line.length ≤ maxDigits := by
  simp only [consequentialRestoreErrors_eq, map_ok_iff]
  rw [exists_comm]
  simp only [exists_and_left, exists_eq', and_true, exists_mapM_ok_iff]
  refine forall₂_congr fun m hm => exists_entry_iff ?_
  obtain ⟨⟨line, -, hline⟩, -⟩ := mem_errorMessages_iff.mp hm
  obtain ⟨severity, blanks, hshape⟩ := psqlMessage_shape hline
  exact hshape.line

/-- Each is the entry for a message about a line that does not look inert. -/
theorem mem_errors_iff {stderr schema : Str} {errors : List Str}
    (h : consequentialRestoreErrors stderr schema = .ok errors) {e : Str} :
    e ∈ errors ↔ ∃ m ∈ errorMessages stderr, ∃ n, toInt m.line = some n ∧
      statementIsInert schema.splitlines n = false ∧ entryOf m = e := by
  rw [consequentialRestoreErrors_eq, map_ok_iff] at h
  obtain ⟨entries, hentries, rfl⟩ := h
  rw [List.reduceOption_mem_iff, mem_of_mapM_ok hentries]
  refine exists_congr fun m => and_congr_right fun _ => ?_
  unfold entry
  cases toInt m.line with
  | none => simp
  | some n => cases statementIsInert schema.splitlines n <;> simp

/-- An entry is about a failure when it was made of its number and SQLSTATE. -/
theorem Failure.entryFor_entryOf_iff (f : Failure script) {severity blanks : Str}
    (hm : m.Shape severity blanks) :
    f.EntryFor (entryOf m) ↔ m.line = f.number ∧ m.sqlstate = f.sqlstate := by
  unfold EntryFor entryOf
  simp only [List.append_assoc, List.prefix_append_right_inj]
  constructor
  · rintro ⟨t, ht⟩
    -- Both begin with a number up to its colon, and then with an SQLSTATE of the same length.
    have htext : f.number ++ ':' :: ' ' :: (f.sqlstate ++ (": ".toList ++ t)) =
        m.line ++ ':' :: ' ' :: (m.sqlstate ++ (": ".toList ++ m.message)) := by
      simpa using ht
    have hline : m.line = f.number := by
      rw [← takeWhile_until hm.line isDecimal_colon, ← htext,
        takeWhile_until f.isDecimal_number isDecimal_colon]
    rw [hline, List.append_cancel_left_eq, List.cons.injEq, List.cons.injEq] at htext
    have hlength : m.sqlstate.length = f.sqlstate.length :=
      hm.sqlstate_length.trans f.sqlstate_length.symm
    exact ⟨hline, (List.append_inj htext.2.2.symm hlength).1⟩
  · rintro ⟨hline, hstate⟩
    rw [hline, hstate]
    exact ⟨m.message, by simp⟩

/-- A failure has an entry when some line is read as its report and the line it ends on does not
look inert. -/
theorem Failure.exists_entry_iff {stderr schema : Str} {errors : List Str} (f : Failure script)
    (h : consequentialRestoreErrors stderr schema = .ok errors) :
    (∃ e ∈ errors, f.EntryFor e) ↔ (∃ line ∈ stderr.splitlines, f.ReadIn line) ∧
      statementIsInert schema.splitlines (script.endLine f.index) = false := by
  have hlengths := exists_errors_iff.mp ⟨errors, h⟩
  -- The number of a failure is that of the line it ends on.
  have hnumber : f.number.length ≤ maxDigits → toInt f.number = some (script.endLine f.index) :=
    fun hlength => toInt_toDigits hlength
  simp only [mem_errors_iff h]
  constructor
  · rintro ⟨_, ⟨m, hm, n, hn, hinert, rfl⟩, hentry⟩
    obtain ⟨⟨line, hmem, hline⟩, -⟩ := mem_errorMessages_iff.mp hm
    obtain ⟨severity, blanks, hshape⟩ := psqlMessage_shape hline
    obtain ⟨hl, hs⟩ := (f.entryFor_entryOf_iff hshape).mp hentry
    have hlength := hlengths m hm
    rw [hl] at hlength hn
    rw [hnumber hlength, Option.some.injEq] at hn
    exact ⟨⟨line, hmem, m, hline, hl, hs⟩, hn ▸ hinert⟩
  · rintro ⟨⟨line, hmem, m, hline, hl, hs⟩, hinert⟩
    obtain ⟨severity, blanks, hshape⟩ := psqlMessage_shape hline
    have hm : m ∈ errorMessages stderr :=
      mem_errorMessages_iff.mpr ⟨⟨line, hmem, hline⟩, hs ▸ f.isError⟩
    have hlength := hlengths m hm
    rw [hl] at hlength
    exact ⟨entryOf m, ⟨m, hm, _, hl ▸ hnumber hlength, hinert, rfl⟩,
      (f.entryFor_entryOf_iff hshape).mpr ⟨hl, hs⟩⟩

/-- A failure is read in a line of what is written when its report is legible, or in another
line. -/
theorem Failure.exists_readIn_iff {file : Str} {out : List (Written script)} (f : Failure script)
    (h : .report f ∈ out) : (∃ line ∈ (written file out).splitlines, f.ReadIn line) ↔
      f.Legible file ∨
        ∃ line ∈ (written file out).splitlines, line ≠ f.mainLine file ∧ f.ReadIn line := by
  rw [← f.readIn_mainLine_iff file]
  constructor
  · rintro ⟨line, hmem, hline⟩
    by_cases heq : line = f.mainLine file
    · exact .inl (heq ▸ hline)
    · exact .inr ⟨line, hmem, heq, hline⟩
  · rintro (hline | ⟨line, hmem, -, hline⟩)
    · exact ⟨_, f.mainLine_mem h, hline⟩
    · exact ⟨line, hmem, hline⟩

/-! ## The verdict -/

/-- Every statement that failed and is no session setting is told exactly when its report can be
read, the line it ends on does not look like a session setting, and no number is too long. -/
theorem failures_told_iff (script : Script) (file : Str) (out : List (Written script)) :
    FailuresTold file out ↔ Told file out := by
  have hlines : (restored file out).stderr.splitlines = (written file out).splitlines :=
    splitlines_universalNewlines _
  -- The entries are made when no number is too long to read.
  have hnumbers : (∃ errors,
      consequentialRestoreErrors (restored file out).stderr script.text = .ok errors) ↔
      ∀ line ∈ (written file out).splitlines, ∀ m, psqlMessage line = some m →
        m.sqlstate.take 2 ∉ notAnError → m.line.length ≤ maxDigits := by
    simp only [exists_errors_iff, mem_errorMessages_iff, hlines]
    constructor
    · exact fun h line hline m hm herror => h m ⟨⟨line, hline, hm⟩, herror⟩
    · rintro h m ⟨⟨line, hline, hm⟩, herror⟩
      exact h line hline m hm herror
  constructor
  · rintro ⟨⟨errors, herrors, hentries⟩, -⟩
    have hfails := fun f (hf : Fails out f) => (f.exists_entry_iff herrors).mp (hentries f hf)
    rw [hlines] at hfails
    exact ⟨hnumbers.mp ⟨errors, herrors⟩, fun f hf => (f.exists_readIn_iff hf.1).mp (hfails f hf).1,
      fun f hf => (hfails f hf).2⟩
  · intro h
    obtain ⟨errors, herrors⟩ := hnumbers.mpr h.numbers
    -- A failure that is told has its entry.
    have hentries : ∀ f, Fails out f → ∃ e ∈ errors, f.EntryFor e := fun f hf =>
      (f.exists_entry_iff herrors).mpr
        ⟨by rw [hlines]; exact (f.exists_readIn_iff hf.1).mpr (h.read f hf), h.shown f hf⟩
    refine ⟨⟨errors, herrors, hentries⟩, fun f hf => ?_⟩
    obtain ⟨e, he, -⟩ := hentries f hf
    have hne : errors ≠ [] := List.ne_nil_of_mem he
    refine ⟨errors.length, errors.take 5,
      if 5 < errors.length then some (errors.length - 5) else none, ?_⟩
    unfold restoreSchema
    rw [if_neg (by simp [restored]), herrors]
    exact if_neg hne

/-! ## A view over two lines -/

/-- A view whose second line shows a complete `SELECT pg_catalog.set_config`. -/
def viewScript : Script where
  pieces := [
    { gap := []
      body := "CREATE VIEW v AS\nSELECT pg_catalog.set_config('a.b', '', false);".toList
      body_ne := by decide
      starts := forall_of_option_all (by decide)
      ends := forall_of_option_all (by decide) }]
  rest := ['\n']

/-- It could not be created. -/
def viewFailure : Failure viewScript where
  index := ⟨0, by decide⟩
  severity := "ERROR".toList
  sqlstate := "42501".toList
  message := "permission denied for schema public".toList
  severity_ne := by decide
  severity_word := forall_of_all (by decide)
  sqlstate_length := by decide
  sqlstate_chars := forall_of_all (by decide)
  isError := by decide

/-- The restore accepts the schema without it. -/
theorem view_not_told : ¬∀ (script : Script) (file : Str) (out : List (Written script)),
    FailuresTold file out := by
  intro h
  have hfails : Fails [.report viewFailure] viewFailure := ⟨by simp, by decide +kernel⟩
  obtain ⟨count, listed, more, hraises⟩ :=
    (h viewScript "s.sql".toList [.report viewFailure]).raises viewFailure hfails
  have hok : (restoreSchema (restored "s.sql".toList [.report viewFailure])
      viewScript.text).toOption = some () := by decide +kernel
  rw [hraises] at hok
  cases hok

end Fraisier.Dbops
