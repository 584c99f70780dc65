import Fraisier.Lib.Shlex

/-!
# Command lines of unit files

The commands that systemd takes out of the value of an `Exec` directive. The value is read word by
word: quotes of both kinds are taken off, and the escapes of C are decoded, inside quotes as well. A
`;` that stands alone separates two commands. The first word of a command begins with its prefixes,
and what follows them is the executable.

A shell takes words apart otherwise: a backslash stands for the character after it, and `;` is a
character like others. `firstWord_eq` says what the two have in common: a first word that is written
without a backslash.
-/

namespace Fraisier.Lib.CommandLine

open Str
open Shlex (isBlank isQuote)

/-! ## Escapes -/

/-- The escapes of one character. -/
def simpleEscapes : List (Char × Char) :=
  [('a', '\x07'), ('b', '\x08'), ('f', '\x0c'), ('n', '\n'), ('r', '\r'), ('t', '\t'),
    ('v', '\x0b'), ('\\', '\\'), ('"', '"'), ('\'', '\''), ('s', ' ')]

/-- The value of a digit. -/
def digit? (base : ℕ) (c : Char) : Option ℕ :=
  let n := if c.isDigit then c.toNat - 48 else if 'a' ≤ c ∧ c ≤ 'f' then c.toNat - 87
    else if 'A' ≤ c ∧ c ≤ 'F' then c.toNat - 55 else base
  if n < base then some n else none

/-- The character whose code is written in the next `count` digits. A code of zero is none, and a
byte stands for the character of its value. -/
def coded (base count limit : ℕ) (s : Str) : Option Char :=
  if s.length < count then none
  else
    ((s.take count).foldlM (fun n c => (digit? base c).map (base * n + ·)) 0).bind fun n =>
      if 0 < n ∧ n < limit ∧ n.isValidChar then some (Char.ofNat n) else none

/-- The character that an escape stands for, and how long it is, after its backslash. -/
def unescape : Str → Option (Char × ℕ)
  | [] => none
  | c :: rest =>
    match simpleEscapes.lookup c with
    | some d => some (d, 1)
    | none =>
      if c = 'x' then (coded 16 2 0x100 rest).map (·, 3)
      else if c = 'u' then (coded 16 4 0x10000 rest).map (·, 5)
      else if c = 'U' then (coded 16 8 0x110000 rest).map (·, 9)
      else (coded 8 3 0x100 (c :: rest)).map (·, 3)

/-- What a backslash adds to its word, and how many characters after it are part of it. One that
begins no escape stays, with the character after it. -/
def escaped (s : Str) : Str × ℕ :=
  match unescape s with
  | some (c, n) => ([c], n)
  | none => ('\\' :: s.take 1, 1)

example : escaped "x2e/".toList = (".".toList, 3) ∧ escaped "057bin".toList = ("/".toList, 3) ∧
    escaped "q".toList = ("\\q".toList, 1) := by decide

/-! ## Words -/

/-- What is read next. -/
inductive Mode
  /-- Between two words. -/
  | blank
  /-- In a word, outside quotes. -/
  | word
  /-- Inside the quotes `q`. -/
  | quoted (q : Char)
  deriving DecidableEq, Repr

/-- What a value is made of: words, and what separates two commands. `broken` is an end inside
quotes. -/
inductive Item
  | word (w : Str) | separator | broken
  deriving DecidableEq, Repr

/-- A word ends here. -/
def atEnd : Str → Bool
  | [] => true
  | c :: _ => isBlank c

/-- The items of the rest of a value: `token` is the word that is being read, and `skip` characters
were part of an escape. -/
def items : Mode → ℕ → Str → Str → List Item
  | .blank, _, _, [] => []
  | .word, _, token, [] => [.word token]
  | .quoted _, _, _, [] => [.broken]
  | mode, skip + 1, token, _ :: cs => items mode skip token cs
  | .blank, 0, _, c :: cs =>
    if isBlank c then items .blank 0 [] cs
    else if c = ';' ∧ atEnd cs then .separator :: items .blank 0 [] cs
    else if c = '\\' ∧ cs.head? = some ';' ∧ atEnd cs.tail then
      .word [';'] :: items .blank 1 [] cs
    else if c = '\\' then items .word (escaped cs).2 (escaped cs).1 cs
    else if isQuote c then items (.quoted c) 0 [] cs
    else items .word 0 [c] cs
  | .word, 0, token, c :: cs =>
    if isBlank c then .word token :: items .blank 0 [] cs
    else if c = '\\' then items .word (escaped cs).2 (token ++ (escaped cs).1) cs
    else if isQuote c then items (.quoted c) 0 token cs
    else items .word 0 (token ++ [c]) cs
  | .quoted q, 0, token, c :: cs =>
    if c = q then items .word 0 token cs
    else if c = '\\' then items (.quoted q) (escaped cs).2 (token ++ (escaped cs).1) cs
    else items (.quoted q) 0 (token ++ [c]) cs

/-! ## Commands -/

/-- A command: the prefixes of its first word, what follows them, and the other words. -/
structure Command where
  prefixes : Str
  executable : Str
  arguments : List Str
  deriving DecidableEq, Repr

section Commands

variable (isPrefix : Char → Bool)

/-- The command of the words, unless it names no executable; `isPrefix` are the characters that can be
prefixes. -/
def command : List Str → Option Command
  | [] => none
  | first :: arguments =>
    if first.dropWhile isPrefix = [] then none
    else some ⟨first.takeWhile isPrefix, first.dropWhile isPrefix, arguments⟩

/-- The commands of the items, after the words of one that has begun. One that names no executable,
or that does not end, is the last to be looked at. -/
def commands : List Str → List Item → List Command
  | words, [] => (command isPrefix words).toList
  | words, .word w :: rest => commands (words ++ [w]) rest
  | words, .separator :: rest =>
    if words = [] then commands [] rest
    else match command isPrefix words with
      | none => []
      | some c => c :: commands [] rest
  | _, .broken :: _ => []

/-- The commands of a value. -/
def ofValue (value : Str) : List Command := commands isPrefix [] (items .blank 0 [] value)

end Commands

example : ofValue (· == '-') "-/bin/a 'b;' ; /bin/c\\x20d \\;".toList =
    [⟨['-'], "/bin/a".toList, ["b;".toList]⟩, ⟨[], "/bin/c d".toList, [[';']]⟩] := by decide

/-! ## First words -/

attribute [local simp] items Shlex.words

/-- A word as it is written, up to the first blank outside quotes. -/
def written : Option Char → Str → Str
  | _, [] => []
  | none, c :: cs =>
    if isBlank c then [] else c :: written (if isQuote c then some c else none) cs
  | some q, c :: cs => c :: written (if c = q then none else some q) cs

section

variable {isPrefix : Char → Bool} {its : List Item} {words : List Str} {c : Command}

/-- A command is its prefixes and its executable. -/
theorem command_cons {w : Str} (h : command isPrefix (w :: words) = some c) :
    c.prefixes = w.takeWhile isPrefix ∧ c.executable = w.dropWhile isPrefix ∧ c.executable ≠ [] := by
  rw [command] at h
  split_ifs at h with hnil
  obtain rfl := Option.some.inj h
  exact ⟨rfl, rfl, hnil⟩

/-- The first command begins with the first word. -/
theorem commands_head {w : Str} (h : (commands isPrefix (w :: words) its).head? = some c) :
    c.prefixes = w.takeWhile isPrefix ∧ c.executable = w.dropWhile isPrefix ∧ c.executable ≠ [] := by
  -- Induction on the items, up to the first separator.
  induction its generalizing words with
  | nil =>
    rw [commands, Option.head?_toList] at h
    exact command_cons h
  | cons item rest ih =>
    cases item with
    | word w' => exact ih h
    | separator =>
      rw [commands, if_neg (List.cons_ne_nil w words)] at h
      cases hcommand : command isPrefix (w :: words) with
      | none => simp [hcommand] at h
      | some c' =>
        simp only [hcommand, List.head?_cons, Option.some.injEq] at h
        subst h
        exact command_cons hcommand
    | broken => exact absurd h (by simp [commands])

/-- Without a separator there is one command at most. -/
theorem commands_tail (h : Item.separator ∉ its) : (commands isPrefix words its).tail = [] := by
  induction its generalizing words with
  | nil =>
    rw [commands]
    cases command isPrefix words <;> rfl
  | cons item rest ih =>
    rw [List.mem_cons, not_or] at h
    cases item with
    | word w => exact ih h.2
    | separator => exact absurd rfl h.1
    | broken => rfl

end

/-- The state of a shell, and that of systemd, inside a word. -/
def inside : Option Char → Shlex.State × Mode
  | none => (.word, .word)
  | some q => (.quoted q, .quoted q)

/-- The rest of a word that is written without a backslash is the same for both. `front` is what only
systemd takes for a part of it. -/
theorem items_inside {ws : List Str} (q : Option Char) (front token : Str) (quoted : Bool) (s : Str)
    (hbegun : q = none → token ≠ [] ∨ quoted = true) (hwritten : '\\' ∉ written q s)
    (h : Shlex.words (inside q).1 token quoted s = .ok ws) :
    ∃ e args rest, ws = e :: args ∧
      items (inside q).2 0 (front ++ token) s = .word (front ++ e) :: rest := by
  -- Induction on the rest of the word.
  induction s generalizing q token quoted with
  | nil =>
    cases q with
    | none =>
      have hnot : ¬(token = [] ∧ quoted = false) := by
        rintro ⟨rfl, rfl⟩
        simpa using hbegun rfl
      rw [inside, Shlex.words, if_neg hnot] at h
      exact ⟨token, [], [], (Except.ok.inj h).symm, rfl⟩
    | some q => exact absurd h (by simp [inside, Shlex.words])
  | cons c cs ih =>
    -- Outside quotes a blank ends the word; inside, only the quote ends them.
    cases q with
    | none =>
      simp only [inside, items]
      simp only [inside, Shlex.words] at h
      rw [written] at hwritten
      by_cases hblank : isBlank c = true
      · have hnot : ¬(token = [] ∧ quoted = false) := by
          rintro ⟨rfl, rfl⟩
          simpa using hbegun rfl
        rw [if_pos hblank, if_neg hnot] at h
        rw [if_pos hblank]
        cases hrest : Shlex.words .blank [] false cs with
        | error e => simp [hrest] at h
        | ok args =>
          rw [hrest] at h
          exact ⟨token, args, _, (Except.ok.inj h).symm, rfl⟩
      rw [if_neg hblank] at hwritten h ⊢
      rw [List.mem_cons, not_or] at hwritten
      rw [if_neg (Ne.symm hwritten.1)] at h ⊢
      by_cases hquote : isQuote c = true
      · rw [if_pos hquote] at hwritten h ⊢
        exact ih (some c) token quoted nofun hwritten.2 h
      · rw [if_neg hquote] at hwritten h ⊢
        rw [List.append_assoc]
        exact ih none (token ++ [c]) quoted (fun _ => .inl (by simp)) hwritten.2 h
    | some q =>
      simp only [inside, items]
      simp only [inside, Shlex.words] at h
      rw [written, List.mem_cons, not_or] at hwritten
      by_cases hclose : c = q
      · rw [if_pos hclose] at hwritten h ⊢
        exact ih none token true (fun _ => .inr rfl) hwritten.2 h
      · rw [if_neg hclose] at hwritten h ⊢
        rw [if_neg fun hq => hwritten.1 hq.1.symm] at h
        rw [if_neg (Ne.symm hwritten.1), List.append_assoc]
        exact ih (some q) (token ++ [c]) true nofun hwritten.2 h

/-- A character that neither reader takes for anything but itself. -/
def IsPlain (c : Char) : Prop := isBlank c = false ∧ c ≠ ';' ∧ c ≠ '\\' ∧ isQuote c = false

variable {front s e : Str} {args : List Str} {c : Char}

/-- A plain character goes on with a word. -/
theorem items_plain (hc : IsPlain c) (token s : Str) :
    items .word 0 token (c :: s) = items .word 0 (token ++ [c]) s := by
  obtain ⟨hblank, -, hbackslash, hquote⟩ := hc
  simp [items, hblank, hbackslash, hquote]

/-- A plain character begins a word. -/
theorem items_plain_first (hc : IsPlain c) (s : Str) :
    items .blank 0 [] (c :: s) = items .word 0 [c] s := by
  obtain ⟨hblank, hsemicolon, hbackslash, hquote⟩ := hc
  simp [items, hblank, hsemicolon, hbackslash, hquote]

/-- Plain characters go on with a word. -/
theorem items_front (hfront : ∀ c ∈ front, IsPlain c) (token s : Str) :
    items .word 0 token (front ++ s) = items .word 0 (token ++ front) s := by
  induction front generalizing token with
  | nil => rw [List.nil_append, List.append_nil]
  | cons c front ih =>
    obtain ⟨hc, hfront⟩ := List.forall_mem_cons.mp hfront
    rw [List.cons_append, items_plain hc, ih hfront, List.append_assoc, List.singleton_append]

/-- The character that begins a word of the shell: the quotes it opens, and the word so far. -/
def opening (c : Char) : Option Char × Str := if isQuote c then (some c, []) else (none, [c])

/-- A line is split from its first character on. -/
theorem split_cons (hblank : isBlank c = false) (hbackslash : c ≠ '\\') (s : Str) :
    Shlex.split (c :: s) = Shlex.words (inside (opening c).1).1 (opening c).2 false s := by
  rw [Shlex.split, Shlex.words, if_neg (by rw [hblank]; exact Bool.false_ne_true), if_neg hbackslash,
    opening]
  split_ifs <;> rfl

/-- Inside a word, items are read from the next character on. -/
theorem items_opening (hblank : isBlank c = false) (hbackslash : c ≠ '\\') (s : Str) :
    items .word 0 front (c :: s) = items (inside (opening c).1).2 0 (front ++ (opening c).2) s := by
  rw [items, if_neg (by rw [hblank]; exact Bool.false_ne_true), if_neg hbackslash, opening]
  split_ifs
  · rw [List.append_nil]
    rfl
  · rfl

/-- Items are read from the first character on. -/
theorem items_first (hblank : isBlank c = false) (hbackslash : c ≠ '\\')
    (hlone : ¬(c = ';' ∧ atEnd s = true)) :
    items .blank 0 [] (c :: s) = items (inside (opening c).1).2 0 (opening c).2 s := by
  rw [items, if_neg (by rw [hblank]; exact Bool.false_ne_true), if_neg hlone,
    if_neg fun h => hbackslash h.1, if_neg hbackslash, opening]
  split_ifs <;> rfl

/-- A semicolon that stands alone is a word of the shell. -/
theorem split_semicolon (hend : atEnd s = true) (h : Shlex.split (';' :: s) = .ok (e :: args)) :
    e = [';'] := by
  rw [split_cons (by decide) (by decide)] at h
  cases s with
  | nil => exact (List.cons.inj (Except.ok.inj h)).1.symm
  -- The word ends with the blank that follows it.
  | cons c s =>
    have hblank : isBlank c = true := hend
    have hrest : Shlex.words .word [';'] false (c :: s) =
        ([';'] :: ·) <$> Shlex.words .blank [] false s := by
      rw [Shlex.words, if_pos hblank, if_neg (by simp)]
    replace h : Shlex.words .word [';'] false (c :: s) = .ok (e :: args) := h
    rw [hrest] at h
    cases hs : Shlex.words .blank [] false s with
    | error r => simp [hs] at h
    | ok words =>
      rw [hs] at h
      exact (List.cons.inj (Except.ok.inj h)).1.symm

/-- Where no backslash is written, none is written of the rest. -/
theorem not_mem_written (hfront : ∀ c ∈ front, IsPlain c) (h : '\\' ∉ written none (front ++ s)) :
    '\\' ∉ written none s := by
  induction front with
  | nil => exact h
  | cons c front ih =>
    obtain ⟨⟨hblank, -, -, hquote⟩, hfront⟩ := List.forall_mem_cons.mp hfront
    rw [List.cons_append, written, if_neg (by rw [hblank]; exact Bool.false_ne_true),
      if_neg (by rw [hquote]; exact Bool.false_ne_true), List.mem_cons, not_or] at h
    exact ih hfront h.2

/-- A first word that is written without a backslash is the same for both, but for what stands before
it and is no part of it for the shell. -/
theorem firstWord_eq (hfront : ∀ c ∈ front, IsPlain c)
    (hhead : ∀ c r, front ++ s = c :: r → isBlank c = false)
    (hwritten : '\\' ∉ written none (front ++ s)) (h : Shlex.split s = .ok (e :: args))
    (he : e ≠ [';']) :
    ∃ w rest, items .blank 0 [] (front ++ s) = .word w :: rest ∧ (w = front ∨ w = front ++ e) := by
  cases s with
  | nil => exact absurd h (by simp [Shlex.split, Shlex.words])
  | cons c s =>
    have hafter := not_mem_written hfront hwritten
    -- the word of the shell, as systemd goes on from its first character
    have hword : isBlank c = false → c ≠ '\\' ∧ ∃ rest,
        items (inside (opening c).1).2 0 (front ++ (opening c).2) s = .word (front ++ e) :: rest := by
      intro hblank
      have hopening : written none (c :: s) = c :: written (opening c).1 s := by
        rw [written, if_neg (by rw [hblank]; exact Bool.false_ne_true), opening]
        split_ifs <;> rfl
      rw [hopening, List.mem_cons, not_or] at hafter
      have hbackslash : c ≠ '\\' := Ne.symm hafter.1
      rw [split_cons hblank hbackslash] at h
      have hbegun : (opening c).1 = none → (opening c).2 ≠ [] ∨ false = true := by
        unfold opening
        split_ifs
        · exact nofun
        · exact fun _ => .inl (List.cons_ne_nil c [])
      obtain ⟨e', args', rest, hwords, hitems⟩ :=
        items_inside (opening c).1 front (opening c).2 false s hbegun hafter.2 h
      rw [(List.cons.inj hwords).1]
      exact ⟨hbackslash, rest, hitems⟩
    cases front with
    | nil =>
      have hblank := hhead c s rfl
      obtain ⟨hbackslash, rest, hitems⟩ := hword hblank
      have hlone : ¬(c = ';' ∧ atEnd s = true) := by
        rintro ⟨rfl, hend⟩
        exact he (split_semicolon hend h)
      refine ⟨e, rest, ?_, .inr rfl⟩
      rw [List.nil_append, items_first hblank hbackslash hlone]
      exact hitems
    | cons f front =>
      obtain ⟨hf, hfront⟩ := List.forall_mem_cons.mp hfront
      rw [List.cons_append, items_plain_first hf, items_front hfront, List.singleton_append]
      cases hblank : isBlank c with
      | true =>
        refine ⟨f :: front, items .blank 0 [] s, ?_, .inl rfl⟩
        rw [items, if_pos hblank]
      | false =>
        obtain ⟨hbackslash, rest, hitems⟩ := hword hblank
        refine ⟨f :: front ++ e, rest, ?_, .inr rfl⟩
        rw [items_opening hblank hbackslash]
        exact hitems

end Fraisier.Lib.CommandLine
