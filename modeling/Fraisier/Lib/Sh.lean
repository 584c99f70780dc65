import Fraisier.Lib.Text

/-!
# Words of a POSIX shell

How a shell reads a word that has nothing to expand: characters as they are, in single quotes, or in
double quotes. `quote` is `shlex.quote` of Python, and a shell reads what it gives as the text that
was quoted, whatever is in it (`word_quote`); `join` and `words` are the same for a list of words
(`words_join`). `exports` reads commands that export variables, and finds each value as it was
(`exports_capture`); `readLine` is `read -r` with an empty `IFS`, and `capture` a command substitution.
-/

namespace Fraisier.Lib.Sh

/-! ## Words -/

/-- A character that `shlex.quote` leaves as it is. -/
def isSafe (c : Char) : Bool := c.isAlphanum || "_@%+=:,./-".toList.contains c

/-- What ends a word: a blank or a newline. -/
def isBreak (c : Char) : Bool := c == ' ' || c == '\t' || c == '\n'

/-- Whether the shell expands something at the character in double quotes: a parameter or a command
after a dollar, a command after a backquote, a character after a backslash. -/
def isSpecial (c : Char) : Bool := c == '$' || c == Char.ofNat 96 || c == '\\'

/-- Where a word is being read. -/
inductive Mode
  | bare | single | double

/-- The word at the front, without its quotes, and what comes after it. There is none where quotes
are not closed, and none is read where the shell has something to expand or to run. -/
def word : Mode → Str → Option (Str × Str)
  | .bare, [] => some ([], [])
  | .bare, c :: s =>
    if c = '\'' then word .single s
    else if c = '"' then word .double s
    else if isBreak c then some ([], c :: s)
    else if isSafe c then (word .bare s).map fun (w, rest) => (c :: w, rest)
    else none
  | .single, [] => none
  | .single, c :: s =>
    if c = '\'' then word .bare s else (word .single s).map fun (w, rest) => (c :: w, rest)
  | .double, [] => none
  | .double, c :: s =>
    if c = '"' then word .bare s
    else if isSpecial c then none
    else (word .double s).map fun (w, rest) => (c :: w, rest)

/-- A character inside single quotes: a single quote ends them, stands in double quotes, and begins
them anew. -/
def escape (c : Char) : Str := if c = '\'' then "'\"'\"'".toList else [c]

/-- `shlex.quote`. -/
def quote (s : Str) : Str :=
  if s = [] then "''".toList
  else if s.all isSafe then s
  else '\'' :: s.flatMap escape ++ ['\'']

/-- What comes after a word ends it. -/
def Ends (rest : Str) : Prop := ∀ c ∈ rest.head?, isBreak c = true

section

variable {s rest : Str} {c : Char}

/-- What breaks a word is no quote. -/
theorem not_quote_of_break (h : isBreak c = true) : c ≠ '\'' ∧ c ≠ '"' := by
  constructor <;> rintro rfl <;> exact absurd h (by decide)

/-- A safe character is no quote and breaks no word. -/
theorem not_quote_of_safe (h : isSafe c = true) : c ≠ '\'' ∧ c ≠ '"' ∧ isBreak c = false := by
  refine ⟨?_, ?_, ?_⟩
  · rintro rfl
    exact absurd h (by decide)
  · rintro rfl
    exact absurd h (by decide)
  · by_contra hbreak
    simp only [isBreak, Bool.not_eq_false, Bool.or_eq_true, beq_iff_eq] at hbreak
    obtain (rfl | rfl) | rfl := hbreak <;> exact absurd h (by decide)

/-- A word ends where the text does or a break stands. -/
theorem word_ends (h : Ends rest) : word .bare rest = some ([], rest) := by
  cases rest with
  | nil => rfl
  | cons c rest =>
    have hbreak := h c rfl
    obtain ⟨hsingle, hdouble⟩ := not_quote_of_break hbreak
    rw [word, if_neg hsingle, if_neg hdouble, if_pos hbreak]

/-- Safe characters are read as they are. -/
theorem word_safe (hsafe : ∀ c ∈ s, isSafe c = true) (h : Ends rest) :
    word .bare (s ++ rest) = some (s, rest) := by
  induction s with
  | nil => exact word_ends h
  | cons c s ih =>
    rw [List.forall_mem_cons] at hsafe
    obtain ⟨hsingle, hdouble, hbreak⟩ := not_quote_of_safe hsafe.1
    rw [List.cons_append, word, if_neg hsingle, if_neg hdouble,
      if_neg (by rw [hbreak]; exact Bool.false_ne_true), if_pos hsafe.1, ih hsafe.2]
    rfl

/-- What is escaped between single quotes is read back. -/
theorem word_single (s : Str) (h : Ends rest) :
    word .single (s.flatMap escape ++ '\'' :: rest) = some (s, rest) := by
  induction s with
  | nil =>
    rw [List.flatMap_nil, List.nil_append, word, if_pos rfl]
    exact word_ends h
  | cons c s ih =>
    rw [List.flatMap_cons, List.append_assoc]
    by_cases hquote : c = '\''
    · subst hquote
      change Option.map _ (word .single (s.flatMap escape ++ '\'' :: rest)) = _
      rw [ih]
      rfl
    · rw [escape, if_neg hquote, List.singleton_append, word, if_neg hquote, ih]
      rfl

/-- A quoted text is one word, and stands for itself. -/
theorem word_quote (s : Str) (h : Ends rest) : word .bare (quote s ++ rest) = some (s, rest) := by
  rw [quote]
  split_ifs with hempty hsafe
  · subst hempty
    change word .bare rest = _
    exact word_ends h
  · exact word_safe (List.all_eq_true.mp hsafe) h
  · rw [List.cons_append, List.cons_append, List.append_assoc, List.singleton_append, word,
      if_pos rfl]
    exact word_single s h

/-- Quoting adds quotes only. -/
theorem mem_quote (h : c ∈ quote s) : c ∈ s ∨ c = '\'' ∨ c = '"' := by
  rw [quote] at h
  -- Nothing, a safe text, or a text between quotes whose own quotes are escaped.
  split_ifs at h
  · exact .inr (.inl (by simpa using h))
  · exact .inl h
  · simp only [List.cons_append, List.mem_cons, List.mem_append, List.mem_flatMap,
      List.not_mem_nil, or_false] at h
    obtain rfl | ⟨a, ha, hc⟩ | rfl := h
    · exact .inr (.inl rfl)
    · rw [escape] at hc
      split_ifs at hc
      · have hor : c = '\'' ∨ c = '"' ∨ c = '\'' ∨ c = '"' ∨ c = '\'' := by simpa using hc
        tauto
      · obtain rfl := List.mem_singleton.mp hc
        exact .inl ha
    · exact .inr (.inl rfl)

/-- What quoting gives is not empty, and does not end in a newline. -/
theorem quote_eq_concat (s : Str) : ∃ t c, quote s = t ++ [c] ∧ c ≠ '\n' := by
  rw [quote]
  split_ifs with hempty hsafe
  · exact ⟨['\''], '\'', rfl, by decide⟩
  · obtain ⟨t, c, rfl⟩ := List.eq_nil_or_concat s |>.resolve_left hempty
    refine ⟨t, c, by simp, ?_⟩
    rintro rfl
    have := List.all_eq_true.mp hsafe '\n' (by simp)
    exact absurd this (by decide)
  · exact ⟨_, '\'', rfl, by decide⟩

end

/-! ## Lists of words -/

section

variable {α : Type*} {item : Str → Option (α × Str)} {sep : Char} {f : α → Str} {l : List α}

/-- What `item` reads, one after another, with one `sep` between them, up to the end of the text. -/
def sepBy (item : Str → Option (α × Str)) (sep : Char) : ℕ → Str → Option (List α)
  | 0, _ => none
  | fuel + 1, s => do
    let (a, rest) ← item s
    match rest with
    | [] => return [a]
    | c :: rest => if c = sep then return a :: (← sepBy item sep fuel rest) else none

/-- The first text is put before the rest with the separator. -/
theorem intercalate_cons (s : Str) {l : List Str} (h : l ≠ []) :
    [sep].intercalate (s :: l) = s ++ sep :: [sep].intercalate l := by
  rw [List.intercalate_cons_of_ne_nil h, List.append_assoc, List.singleton_append]

/-- Texts that are put together are no fewer than the separators allow. -/
theorem length_le_length_intercalate (sep : Char) (l : List Str) :
    l.length ≤ ([sep].intercalate l).length + 1 := by
  induction l with
  | nil => simp
  | cons s l ih =>
    by_cases hnil : l = []
    · simp [hnil]
    · rw [intercalate_cons s hnil]
      simp only [List.length_cons, List.length_append]
      omega

/-- Texts that all end alike, put together, end alike. -/
theorem intercalate_eq_concat {P : Char → Prop} {l : List Str} (hne : l ≠ [])
    (h : ∀ s ∈ l, ∃ t c, s = t ++ [c] ∧ P c) : ∃ t c, [sep].intercalate l = t ++ [c] ∧ P c := by
  induction l with
  | nil => exact absurd rfl hne
  | cons s l ih =>
    rw [List.forall_mem_cons] at h
    by_cases hnil : l = []
    · rw [hnil, List.intercalate_singleton]
      exact h.1
    · obtain ⟨t, c, heq, hc⟩ := ih hnil h.2
      exact ⟨s ++ sep :: t, c, by rw [intercalate_cons s hnil, heq]; simp, hc⟩

/-- What ends with a separator after each is separated by them, and ends with one. -/
theorem flatMap_concat (sep : Char) (f : α → Str) (h : l ≠ []) :
    l.flatMap (fun a => f a ++ [sep]) = [sep].intercalate (l.map f) ++ [sep] := by
  induction l with
  | nil => exact absurd rfl h
  | cons a l ih =>
    by_cases hnil : l = []
    · simp [hnil]
    · rw [List.flatMap_cons, List.map_cons, intercalate_cons _ (by simpa using hnil), ih hnil]
      simp

/-- A list is read as it was separated, where each of its members is read as it was written. -/
theorem sepBy_intercalate {fuel : ℕ}
    (hitem : ∀ a ∈ l, ∀ rest : Str, (∀ c ∈ rest.head?, c = sep) →
      item (f a ++ rest) = some (a, rest))
    (hne : l ≠ []) (hfuel : l.length ≤ fuel) :
    sepBy item sep fuel ([sep].intercalate (l.map f)) = some l := by
  -- Induction on the list: only the last member has no separator after it.
  induction l generalizing fuel with
  | nil => exact absurd rfl hne
  | cons a l ih =>
    obtain ⟨fuel, rfl⟩ : ∃ n, fuel = n + 1 := ⟨fuel - 1, by simp at hfuel; omega⟩
    rw [List.forall_mem_cons] at hitem
    by_cases hnil : l = []
    · have hread := hitem.1 [] (by simp)
      rw [List.append_nil] at hread
      have hone : [sep].intercalate ([a].map f) = f a := by simp
      rw [hnil, sepBy, hone, hread]
      rfl
    · have hread := hitem.1 (sep :: [sep].intercalate (l.map f)) (by simp)
      have hrest := ih hitem.2 hnil (by simpa using hfuel)
      rw [List.map_cons, intercalate_cons _ (by simpa using hnil), sepBy, hread]
      change (if sep = sep then (sepBy item sep fuel ([sep].intercalate (l.map f))).bind _
        else none) = _
      rw [if_pos rfl, hrest]
      rfl

end

/-- The words of a simple command, with single blanks between them, up to the end of the text. -/
def words (s : Str) : Option (List Str) := sepBy (word .bare) ' ' (s.length + 1) s

/-- `shlex.join`. -/
def join (argv : List Str) : Str := [' '].intercalate (argv.map quote)

/-- The shell runs what was joined. -/
theorem words_join {argv : List Str} (h : argv ≠ []) : words (join argv) = some argv := by
  refine sepBy_intercalate (fun arg _ rest hrest => word_quote arg fun c hc => ?_) h ?_
  · obtain rfl := hrest c hc
    rfl
  · exact (List.length_map quote).ge.trans (length_le_length_intercalate ' ' _)

/-! ## Variables -/

/-- A character of a variable's name. -/
def isNameChar (c : Char) : Bool := c.isAlphanum || c == '_'

/-- A variable's name: `[A-Za-z_][A-Za-z0-9_]*`. -/
def isName : Str → Bool
  | [] => false
  | c :: s => (c.isAlpha || c == '_') && s.all isNameChar

/-- Variables and their values. -/
abbrev Env := List (Str × Str)

/-- The word that exports, and a blank. -/
def exportWord : Str := "export ".toList

/-- A command that exports a variable, with its value quoted. -/
def exportText (a : Str × Str) : Str := exportWord ++ a.1 ++ '=' :: quote a.2

/-- A command at the front that exports a variable, and what comes after it. -/
def assignment (s : Str) : Option ((Str × Str) × Str) := do
  let s ← s.dropPrefix? exportWord
  let name := s.takeWhile isNameChar
  match s.dropWhile isNameChar with
  | [] => none
  | c :: rest =>
    if c = '=' ∧ isName name = true then do
      let (value, rest) ← word .bare rest
      return ((name, value), rest)
    else none

/-- Commands that export variables, each on a line. -/
def exports (s : Str) : Option Env := sepBy assignment '\n' (s.length + 1) s

/-- A command substitution of what is on stdin: newlines at the end are dropped. A shell may make of
a zero character what it likes. -/
def capture (stdin : Str) : Option Str :=
  if '\x00' ∈ stdin then none else some (stdin.rdropWhile (· == '\n'))

/-- `read -r` with an empty `IFS`: a line of stdin, and what is left. It fails where stdin ends
first. -/
def readLine : Str → Option (Str × Str)
  | [] => none
  | c :: s => if c = '\n' then some ([], s) else (readLine s).map fun (l, rest) => (c :: l, rest)

section

variable {s rest : Str} {c : Char} {env : Env}

/-- A name is made of name characters. -/
theorem all_isNameChar_of_isName {name : Str} (h : isName name = true) :
    ∀ c ∈ name, isNameChar c = true := by
  cases name with
  | nil => simp
  | cons c name =>
    rw [isName, Bool.and_eq_true, List.all_eq_true] at h
    rw [List.forall_mem_cons]
    refine ⟨?_, h.2⟩
    have hc := h.1
    simp only [Bool.or_eq_true, isNameChar, Char.isAlphanum] at hc ⊢
    tauto

/-- A prefix is dropped. -/
theorem dropPrefix_append (p s : Str) : (p ++ s).dropPrefix? p = some s :=
  List.dropPrefix?_append_of_beq s (beq_self_eq_true p)

/-- An exported assignment is read back. -/
theorem assignment_export {a : Str × Str} (hname : isName a.1 = true) (h : Ends rest) :
    assignment (exportText a ++ rest) = some (a, rest) := by
  have hchars := all_isNameChar_of_isName hname
  have hstop : isNameChar '=' = false := by decide
  have hprefix : (exportText a ++ rest).dropPrefix? exportWord =
      some (a.1 ++ '=' :: (quote a.2 ++ rest)) := by
    rw [exportText, List.append_assoc, List.append_assoc, List.cons_append]
    exact dropPrefix_append _ _
  -- The name ends at the `=`, which is no character of a name.
  have htake : (a.1 ++ '=' :: (quote a.2 ++ rest)).takeWhile isNameChar = a.1 := by
    rw [List.takeWhile_append_of_pos hchars]
    simp [hstop]
  have hdrop : (a.1 ++ '=' :: (quote a.2 ++ rest)).dropWhile isNameChar =
      '=' :: (quote a.2 ++ rest) := by
    rw [List.dropWhile_append_of_pos hchars]
    simp [hstop]
  rw [assignment, hprefix, Option.bind_eq_bind, Option.bind_some]
  simp only [htake, hdrop]
  rw [if_pos ⟨trivial, hname⟩, word_quote _ h]
  rfl

/-- An exported assignment holds no zero byte. -/
theorem zero_notMem_exportText {a : Str × Str} (hname : isName a.1 = true) (hvalue : '\x00' ∉ a.2) :
    '\x00' ∉ exportText a := by
  intro hmem
  rw [exportText, List.mem_append, List.mem_append, List.mem_cons] at hmem
  obtain (hmem | hmem) | hmem | hmem := hmem
  · exact absurd hmem (by decide)
  · exact absurd (all_isNameChar_of_isName hname _ hmem) (by decide)
  · exact absurd hmem (by decide)
  · obtain hmem | hmem | hmem := mem_quote hmem
    · exact hvalue hmem
    · exact absurd hmem (by decide)
    · exact absurd hmem (by decide)

/-- Whatever the values are, commands that export them give them back, however stdin ends. -/
theorem exports_capture (hne : env ≠ []) (hnames : ∀ a ∈ env, isName a.1 = true)
    (hvalues : ∀ a ∈ env, '\x00' ∉ a.2) :
    (capture (env.flatMap fun a => exportText a ++ ['\n'])).bind exports = some env := by
  have hnul : '\x00' ∉ env.flatMap fun a => exportText a ++ ['\n'] := by
    intro hmem
    obtain ⟨a, ha, hin⟩ := List.mem_flatMap.mp hmem
    obtain hin | hin := List.mem_append.mp hin
    · exact zero_notMem_exportText (hnames a ha) (hvalues a ha) hin
    · exact absurd (List.mem_singleton.mp hin) (by decide)
  have hmap : env.map exportText ≠ [] := by simpa using hne
  -- The last command ends with the end of its quotes, which is no newline.
  obtain ⟨t, c, hlast, hc⟩ :
      ∃ t c, ['\n'].intercalate (env.map exportText) = t ++ [c] ∧ c ≠ '\n' := by
    refine intercalate_eq_concat hmap (List.forall_mem_map.mpr fun a _ => ?_)
    obtain ⟨t, c, hquote, hc⟩ := quote_eq_concat a.2
    exact ⟨exportWord ++ a.1 ++ '=' :: t, c, by rw [exportText, hquote]; simp, hc⟩
  -- Only the newline after the last command is stripped.
  have hstrip : (env.flatMap fun a => exportText a ++ ['\n']).rdropWhile (· == '\n') =
      ['\n'].intercalate (env.map exportText) := by
    rw [flatMap_concat _ _ hne, List.rdropWhile_concat_pos _ _ _ (by decide), hlast]
    exact List.rdropWhile_concat_neg _ _ _ (by simpa using hc)
  rw [capture, if_neg hnul, Option.bind_some, hstrip]
  refine sepBy_intercalate (fun a ha rest hrest => assignment_export (hnames a ha) fun c hc => ?_)
    hne ?_
  · obtain rfl := hrest c hc
    rfl
  · exact (List.length_map exportText).ge.trans (length_le_length_intercalate '\n' _)

/-- A line is read up to its newline. -/
theorem readLine_append (h : '\n' ∉ s) : readLine (s ++ '\n' :: rest) = some (s, rest) := by
  induction s with
  | nil => rfl
  | cons c s ih =>
    rw [List.mem_cons, not_or] at h
    rw [List.cons_append, readLine, if_neg (Ne.symm h.1), ih h.2]
    rfl

end

end Fraisier.Lib.Sh
