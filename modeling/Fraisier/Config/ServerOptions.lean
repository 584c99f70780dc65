import Mathlib.Data.Rat.Floor
import Fraisier.Lib.Partition

/-!
# The `options` of a connection, as the server reads them

PostgreSQL cuts the text into words at blanks that no backslash stands before, and reads the words as
its command line: `-c name=value` and `--name=value` set a parameter, and the last setting counts.
`Server.timeout_append` says when a setting that is appended is the one that counts.
-/

namespace Fraisier.Config

open Fraisier.Lib Str

/-- A setting of the timeout, as `-c` takes it. -/
def timeoutSetting (n : ℕ) : Str := "statement_timeout=".toList ++ Nat.toDigits 10 n

/-- What PostgreSQL brings along: the switches of its command line, and how a timeout is read. -/
structure Server where
  /-- A switch takes an argument or none; other characters are no switch. -/
  takesArgument : Char → Option Bool
  /-- The argument of a switch is accepted. -/
  accepts : Char → Str → Bool
  /-- A timeout in milliseconds, of the text that it is set to. -/
  milliseconds : Str → Option ℕ
  takesArgument_c : takesArgument 'c' = some true
  takesArgument_space : takesArgument ' ' = none
  /-- The timeout is a number of 32 bits with a sign. -/
  accepts_timeout : ∀ n, accepts 'c' (timeoutSetting n) = decide (n < 2 ^ 31)
  milliseconds_timeout : ∀ n, n < 2 ^ 31 → milliseconds (Nat.toDigits 10 n) = some n

/-- The appended switch. -/
def timeoutSwitch (n : ℕ) : Str := "-c ".toList ++ timeoutSetting n

/-! ## Reading -/

/-- What comes next on the command line. -/
inductive Mode
  | ready
  | pending (switch : Char)
  | closed
  | refused
  deriving DecidableEq

/-- What has been read: the mode, and the last value of `statement_timeout`. -/
structure Reading where
  mode : Mode
  timeout : Option Str

/-- The switches of one word. -/
inductive Cluster
  | flags
  | argument (switch : Char) (value : Str)
  | next (switch : Char)
  | unknown
  deriving DecidableEq

/-- Names of parameters go by neither case nor the kind of dash. -/
def isTimeoutName (name : Str) : Bool :=
  name.map (fun c => if c = '-' then '_' else c.toLower) = "statement_timeout".toList

namespace Server

variable (server : Server)

/-- `getopt` within one word, after the dash. -/
def cluster : Str → Cluster
  | [] => .flags
  | c :: rest =>
    match server.takesArgument c with
    | none => .unknown
    | some false => cluster rest
    | some true => if rest = [] then .next c else .argument c rest

/-- A switch with its argument. -/
def apply (reading : Reading) (switch : Char) (value : Str) : Reading :=
  if server.accepts switch value then
    let (name, _, text) := Str.partition '=' value
    ⟨.ready, if (switch = 'c' ∨ switch = '-') ∧ isTimeoutName name then some text
      else reading.timeout⟩
  else ⟨.refused, none⟩

/-- One word of the command line. -/
def word (reading : Reading) (text : Str) : Reading :=
  match reading.mode with
  | .pending switch => server.apply reading switch text
  | .ready =>
    match text with
    | ['-', '-'] => { reading with mode := .closed }
    | '-' :: c :: rest =>
      match server.cluster (c :: rest) with
      | .flags => reading
      | .argument switch value => server.apply reading switch value
      | .next switch => { reading with mode := .pending switch }
      | .unknown => ⟨.refused, none⟩
    | _ => ⟨.refused, none⟩
  | .closed | .refused => ⟨.refused, none⟩

/-- The words read, and the one that is being read, with a backslash before its next character or
without. -/
structure Scan where
  reading : Reading
  current : Option (Str × Bool)

/-- `isspace`. -/
def isBlank (c : Char) : Bool := c ∈ [' ', '\t', '\n', '\x0b', '\x0c', '\r']

/-- `pg_split_opts`, a character at a time. -/
def step (scan : Scan) (c : Char) : Scan :=
  match scan.current with
  | none => if isBlank c then scan else ⟨scan.reading, if c = '\\' then some ([], true)
      else some ([c], false)⟩
  | some (text, true) => ⟨scan.reading, some (text ++ [c], false)⟩
  | some (text, false) =>
    if isBlank c then ⟨server.word scan.reading text, none⟩
    else ⟨scan.reading, if c = '\\' then some (text, true) else some (text ++ [c], false)⟩

/-- The end of the text. -/
def finish (scan : Scan) : Reading :=
  match scan.current with
  | none => scan.reading
  | some (text, _) => server.word scan.reading text

/-- The text up to here. -/
def scan (options : Str) : Scan := options.foldl server.step ⟨⟨.ready, none⟩, none⟩

/-- The timeout that the options set: `none` when they set none, or are refused. -/
def timeout (options : Str) : Option ℕ :=
  let reading := server.finish (server.scan options)
  if reading.mode = .ready ∨ reading.mode = .closed then
    reading.timeout.bind server.milliseconds
  else none

/-- What has been read is accepted, and a further switch would be read as one: no backslash stands at
the end, and no switch that lacks its argument or that ends the command line. -/
def Open (scan : Scan) : Prop :=
  scan.current.all (·.2 = false) = true ∧ (server.finish scan).mode = .ready

/-- The options are accepted, and can be extended by a switch. -/
def Extends (options : Str) : Prop := server.Open (server.scan options)

instance (scan : Scan) : Decidable (server.Open scan) := inferInstanceAs (Decidable (_ ∧ _))

instance (options : Str) : Decidable (server.Extends options) :=
  inferInstanceAs (Decidable (server.Open _))

/-! ## A switch at the end -/

variable {server : Server} {reading : Reading}

/-- Text without blanks and backslashes goes into the word that is being read. -/
theorem foldl_plain {text : Str} (h : ∀ c ∈ text, isBlank c = false ∧ c ≠ '\\') (word : Str) :
    text.foldl server.step ⟨reading, some (word, false)⟩ = ⟨reading, some (word ++ text, false)⟩ := by
  induction text generalizing word with
  | nil => rw [List.append_nil, List.foldl_nil]
  | cons c text ih =>
    obtain ⟨⟨hblank, hslash⟩, hrest⟩ := List.forall_mem_cons.mp h
    have hstep : server.step ⟨reading, some (word, false)⟩ c =
        ⟨reading, some (word ++ [c], false)⟩ := by
      unfold step
      simp only [hblank, if_neg hslash, Bool.false_eq_true, if_false]
    rw [List.foldl_cons, hstep, ih hrest, List.append_assoc, List.singleton_append]

/-- The timeout's setting holds no blank and no backslash. -/
theorem timeoutSetting_plain (n : ℕ) :
    ∀ c ∈ timeoutSetting n, isBlank c = false ∧ c ≠ '\\' := by
  intro c hc
  obtain hc | hc := List.mem_append.mp hc
  · have hname : ("statement_timeout=".toList).all (fun c => !isBlank c && c ≠ '\\') = true := by
      decide
    simpa using List.all_eq_true.mp hname c hc
  · have hdigit := Nat.isDigit_of_mem_toDigits (by decide) (by decide) hc
    have hne : ∀ d, d.isDigit = false → c ≠ d := by
      rintro d hd rfl
      rw [hdigit] at hd
      cases hd
    refine ⟨?_, hne '\\' (by decide)⟩
    simp [isBlank, hne ' ' (by decide), hne '\t' (by decide), hne '\n' (by decide),
      hne '\x0b' (by decide), hne '\x0c' (by decide), hne '\r' (by decide)]

/-- The setting is no switch: it is read as the argument of one, or refused. -/
theorem word_timeoutSetting (n : ℕ) (h : ∀ switch, reading.mode ≠ .pending switch) :
    server.word reading (timeoutSetting n) = ⟨.refused, none⟩ := by
  unfold word
  cases hmode : reading.mode with
  | pending switch => exact absurd hmode (h switch)
  | ready => rfl
  | closed => rfl
  | refused => rfl

/-- A cluster with a blank in it does not wait for an argument. -/
theorem cluster_blank (start rest : Str) (switch : Char) :
    server.cluster (start ++ ' ' :: rest) ≠ .next switch := by
  -- Induction on the switches: a blank is none of them.
  induction start with
  | nil =>
    simp only [List.nil_append, cluster, server.takesArgument_space]
    intro h
    cases h
  | cons c start ih =>
    rw [List.cons_append, cluster]
    split
    · intro h
      cases h
    · exact ih
    · rw [if_neg (by simp)]
      intro h
      cases h

/-- A switch that is applied leaves the reading ready or refused. -/
theorem apply_mode (switch : Char) (value : Str) :
    (server.apply reading switch value).mode = .ready ∨
      (server.apply reading switch value).mode = .refused := by
  unfold apply
  split
  · exact .inl rfl
  · exact .inr rfl

/-- A switch that is applied leaves no switch pending. -/
theorem apply_mode_ne (switch' : Char) (value : Str) (switch : Char) :
    (server.apply reading switch' value).mode ≠ .pending switch := by
  intro h
  have hmode : (server.apply reading switch' value).mode = .ready ∨
      (server.apply reading switch' value).mode = .refused := server.apply_mode switch' value
  rw [h] at hmode
  obtain hmode | hmode := hmode <;> cases hmode

/-- The word that waits for an argument is a cluster whose last switch takes one. -/
theorem cluster_of_pending {text : Str} {switch : Char}
    (h : (server.word reading text).mode = .pending switch) :
    ∃ switches, text = '-' :: switches ∧ server.cluster switches = .next switch := by
  unfold word at h
  -- A word waits only when it is a cluster that ends in a switch with an argument.
  split at h
  · exact absurd h (server.apply_mode_ne _ _ _)
  · next hmode =>
    split at h
    · cases h
    · next c rest =>
      refine ⟨_, rfl, ?_⟩
      split at h
      · rw [hmode] at h
        cases h
      · exact absurd h (server.apply_mode_ne _ _ _)
      · next hnext =>
        rw [hnext, Mode.pending.inj h]
      · cases h
    · cases h
  · cases h
  · cases h

/-- A word that a backslash has joined to the switch does not wait for an argument. -/
theorem word_joined (start : Str) (switch : Char) :
    (server.word reading (start ++ " -c".toList)).mode ≠ .pending switch := by
  intro h
  obtain ⟨switches, htext, hnext⟩ := cluster_of_pending h
  cases start with
  | nil => cases htext
  | cons dash start =>
    rw [← (List.cons.inj htext).2] at hnext
    exact cluster_blank _ _ _ hnext

/-- A switch that is a word of its own waits for its argument, if a switch can stand there. -/
theorem word_switch (hmode : reading.mode = .ready) :
    server.word reading "-c".toList = { reading with mode := .pending 'c' } := by
  obtain ⟨mode, timeout⟩ := reading
  obtain rfl : mode = .ready := hmode
  show (match server.cluster ['c'] with
    | .flags => (⟨.ready, timeout⟩ : Reading)
    | .argument switch value => server.apply ⟨.ready, timeout⟩ switch value
    | .next switch => ⟨.pending switch, timeout⟩
    | .unknown => ⟨.refused, none⟩) = _
  simp only [cluster, server.takesArgument_c, if_true]

/-- A switch is pending only where the reading was ready. -/
theorem word_switch_not (hmode : reading.mode ≠ .ready) (switch : Char) :
    (server.word reading "-c".toList).mode ≠ .pending switch := by
  unfold word
  cases h : reading.mode with
  | ready => exact absurd h hmode
  | pending c => exact server.apply_mode_ne _ _ _
  | closed =>
    intro hpending
    cases hpending
  | refused =>
    intro hpending
    cases hpending

/-- The setting as the argument that a switch waits for. -/
theorem apply_timeoutSetting (n : ℕ) : server.apply reading 'c' (timeoutSetting n) =
    if n < 2 ^ 31 then ⟨.ready, some (Nat.toDigits 10 n)⟩ else ⟨.refused, none⟩ := by
  have hcut : Str.partition '=' (timeoutSetting n) =
      ("statement_timeout".toList, true, Nat.toDigits 10 n) :=
    partition_append_cons (show '=' ∉ "statement_timeout".toList by decide) _
  unfold apply
  rw [server.accepts_timeout, hcut]
  simp only [decide_eq_true_eq]
  split
  · rw [if_pos ⟨.inl trivial, by decide⟩]
  · rfl

/-- The setting as the last word. -/
theorem finish_setting (n : ℕ) :
    server.finish ((timeoutSetting n).foldl server.step ⟨reading, none⟩) =
      server.word reading (timeoutSetting n) := by
  have hplain := timeoutSetting_plain n
  obtain ⟨rest, hrest⟩ : ∃ rest, timeoutSetting n = 's' :: rest := ⟨_, rfl⟩
  rw [hrest] at hplain ⊢
  have hstep : server.step ⟨reading, none⟩ 's' = ⟨reading, some (['s'], false)⟩ := rfl
  rw [List.foldl_cons, hstep, foldl_plain fun c hc => hplain c (List.mem_cons_of_mem _ hc)]
  rfl

/-- The switch is written in plain characters. -/
theorem plain_dash (c : Char) (h : c ∈ "-c".toList) : isBlank c = false ∧ c ≠ '\\' := by
  obtain rfl | rfl : c = '-' ∨ c = 'c' := by simpa using h
  · exact ⟨rfl, by decide⟩
  · exact ⟨rfl, by decide⟩

/-- The switch as two words. -/
theorem finish_switch (n : ℕ) :
    server.finish ((timeoutSwitch n).foldl server.step ⟨reading, none⟩) =
      server.word (server.word reading "-c".toList) (timeoutSetting n) := by
  have hwords : timeoutSwitch n = "-c".toList ++ ' ' :: timeoutSetting n := rfl
  have hdash : "-c".toList.foldl server.step ⟨reading, none⟩ =
      ⟨reading, some ("-c".toList, false)⟩ := rfl
  rw [hwords, List.foldl_append, hdash, List.foldl_cons, ← finish_setting]
  rfl

/-- The switch is read where it can stand, and refused elsewhere. -/
theorem word_switch_setting (n : ℕ) :
    server.word (server.word reading "-c".toList) (timeoutSetting n) =
      if reading.mode = .ready ∧ n < 2 ^ 31 then ⟨.ready, some (Nat.toDigits 10 n)⟩
      else ⟨.refused, none⟩ := by
  by_cases hmode : reading.mode = .ready
  · have happly : server.word { reading with mode := .pending 'c' } (timeoutSetting n) =
        server.apply { reading with mode := .pending 'c' } 'c' (timeoutSetting n) := rfl
    rw [word_switch hmode, happly, apply_timeoutSetting]
    simp only [hmode, true_and]
  · rw [word_timeoutSetting n (word_switch_not hmode), if_neg fun h => hmode h.1]

/-- A text after the options is scanned after a blank. -/
theorem scan_append (options text : Str) : server.scan (options ++ ' ' :: text) =
    text.foldl server.step (server.step (server.scan options) ' ') := by
  unfold scan
  rw [List.foldl_append, List.foldl_cons]

/-- After a blank no word is being read, or a backslash has joined the blank to one. -/
theorem step_blank (scan : Scan) : server.step scan ' ' =
    match scan.current with
    | some (text, true) => ⟨scan.reading, some (text ++ [' '], false)⟩
    | _ => ⟨server.finish scan, none⟩ := by
  obtain ⟨reading, current⟩ := scan
  cases current with
  | none => rfl
  | some word =>
    obtain ⟨text, escaped⟩ := word
    cases escaped <;> rfl

/-- What is read of an appended switch. -/
theorem finish_append (scan : Scan) (n : ℕ) :
    server.finish ((timeoutSwitch n).foldl server.step (server.step scan ' ')) =
      if server.Open scan ∧ n < 2 ^ 31 then ⟨.ready, some (Nat.toDigits 10 n)⟩
      else ⟨.refused, none⟩ := by
  rw [step_blank]
  unfold Open
  -- Before the blank no word is open, or one is, or one that ends with a backslash.
  obtain ⟨reading, current⟩ := scan
  obtain rfl | ⟨text, rfl⟩ | ⟨text, rfl⟩ : current = none ∨ (∃ text, current = some (text, false)) ∨
      ∃ text, current = some (text, true) := by
    rcases current with _ | ⟨text, _ | _⟩ <;> simp
  · dsimp only
    rw [finish_switch, word_switch_setting]
    simp
  · dsimp only
    rw [finish_switch, word_switch_setting]
    simp
  · -- the backslash takes the blank into the word that `-c` is then part of
    dsimp only
    have hwords : timeoutSwitch n = "-c".toList ++ ' ' :: timeoutSetting n := rfl
    have hjoined : text ++ [' '] ++ "-c".toList = text ++ " -c".toList := by
      rw [List.append_assoc]
      rfl
    rw [hwords, List.foldl_append, foldl_plain plain_dash, List.foldl_cons, step_blank, hjoined]
    dsimp only
    rw [show server.finish ⟨reading, some (text ++ " -c".toList, false)⟩ =
      server.word reading (text ++ " -c".toList) from rfl, finish_setting,
      word_timeoutSetting n (word_joined text)]
    simp

/-- A setting that is appended counts when the options can be extended and the server takes it;
otherwise the options are refused. -/
theorem timeout_append (options : Str) (n : ℕ) :
    server.timeout (options ++ ' ' :: timeoutSwitch n) =
      if server.Extends options ∧ n < 2 ^ 31 then some n else none := by
  unfold timeout Extends
  rw [scan_append, finish_append]
  by_cases h : server.Open (server.scan options) ∧ n < 2 ^ 31
  · simp only [if_pos h, true_or, if_true, Option.bind_some, server.milliseconds_timeout n h.2]
  · simp only [if_neg h, reduceCtorEq, or_self, if_false]

/-- The setting alone. -/
theorem timeout_switch (n : ℕ) :
    server.timeout (timeoutSwitch n) = if n < 2 ^ 31 then some n else none := by
  have hscan : server.finish (server.scan (timeoutSwitch n)) =
      if n < 2 ^ 31 then ⟨.ready, some (Nat.toDigits 10 n)⟩ else ⟨.refused, none⟩ := by
    unfold scan
    rw [finish_switch, word_switch_setting]
    simp only [true_and]
  unfold timeout
  rw [hscan]
  by_cases h : n < 2 ^ 31
  · simp only [if_pos h, true_or, if_true, Option.bind_some, server.milliseconds_timeout n h]
  · simp only [if_neg h, reduceCtorEq, or_self, if_false]

end Server

/-! ## A server -/

/-- A timeout of whole milliseconds, without a unit. -/
def readTimeout (text : Str) : Option ℕ :=
  let n := Nat.ofDigitChars 10 text 0
  if text ≠ [] ∧ text.all Char.isDigit ∧ n < 2 ^ 31 then some n else none

/-- `-c` and `--` take `name=value`. -/
def acceptsSetting (switch : Char) (value : Str) : Bool :=
  if switch = 'c' ∨ switch = '-' then
    let (name, found, text) := Str.partition '=' value
    found && (!isTimeoutName name || (readTimeout text).isSome)
  else true

/-- A timeout is read when it is less than 2^31. -/
theorem readTimeout_digits (n : ℕ) :
    readTimeout (Nat.toDigits 10 n) = if n < 2 ^ 31 then some n else none := by
  have hdigits : (Nat.toDigits 10 n).all Char.isDigit = true := by
    rw [List.all_eq_true]
    exact fun c hc => Nat.isDigit_of_mem_toDigits (by decide) (by decide) hc
  unfold readTimeout
  simp only [hdigits, Nat.ofDigitChars_ten_toDigits, Nat.toDigits_ne_nil, ne_eq, not_false_eq_true,
    true_and]

/-- The switches of PostgreSQL, with timeouts in whole milliseconds. -/
def postgres : Server where
  takesArgument c :=
    if c ∈ "BCcDdfhkNprStvW-".toList then some true
    else if c ∈ "bEeFijlnOPsT".toList then some false
    else none
  accepts := acceptsSetting
  milliseconds := readTimeout
  takesArgument_c := rfl
  takesArgument_space := rfl
  accepts_timeout n := by
    have hcut : Str.partition '=' (timeoutSetting n) =
        ("statement_timeout".toList, true, Nat.toDigits 10 n) :=
      partition_append_cons (show '=' ∉ "statement_timeout".toList by decide) _
    have hname : isTimeoutName "statement_timeout".toList = true := by decide
    unfold acceptsSetting
    rw [if_pos (.inl rfl), hcut]
    dsimp only
    rw [hname, readTimeout_digits]
    by_cases h : n < 2 ^ 31
    · rw [if_pos h, decide_eq_true h]
      rfl
    · rw [if_neg h, decide_eq_false h]
      rfl
  milliseconds_timeout n h := by rw [readTimeout_digits, if_pos h]

example : postgres.timeout "-e -c statement-timeout=5 --Statement_Timeout=7".toList = some 7 := by
  decide

end Fraisier.Config
