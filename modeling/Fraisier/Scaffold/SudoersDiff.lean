import Fraisier.Lib.Lines
import Fraisier.Lib.Partition

/-!
# The difference of two sudoers fragments

`scaffold/sudoers_diff.py` compares two fragments by their physical lines. `sudo` reads rules: a line
that ends with a backslash goes on in the next one, and `#include`, `#includedir` and `#` with a
digit are no comments. Both are taken up to white space, which the module's docstring sets aside.

`chunks` cuts a fragment where `sudo` does. A chunk is `Whole` when it is one line that does not go on,
has no break but its newline and is no directive; there both read the same. `no_change_iff` says for
which fragments without a reported change the rules are the same, in terms of the chunks that are not
whole: a rule that is written in one must be a rule of the other fragment, and so must a rule of its
own that the other fragment has only as a part of one. `plain_spec` has the fragments without any.
-/

namespace Fraisier.Scaffold.Sudoers

open Fraisier.Lib Str

/-! ## The comparison -/

/-- `_normalize_whitespace`. -/
def normalizeWhitespace (rule : Str) : Str := List.intercalate [' '] (fields rule)

/-- One turn of the loop of `_parse_rules`. -/
def parseLine (raw : Str) : Option Str :=
  let stripped := strip raw
  if stripped = [] || stripped.startsWith ['#'] then none else some (normalizeWhitespace stripped)

/-- `_parse_rules`. -/
def parseRules (content : Str) : List Str := (splitlines content).filterMap parseLine

/-- `SudoersDiff`. -/
structure Diff where
  added : List Str
  removed : List Str
  deriving DecidableEq, Repr

/-- `SudoersDiff.has_changes`. -/
def Diff.hasChanges (d : Diff) : Bool := d.added ≠ [] || d.removed ≠ []

/-- `diff_sudoers`. -/
def diffSudoers (current new : Str) : Diff where
  added := (parseRules new).filter (· ∉ parseRules current)
  removed := (parseRules current).filter (· ∉ parseRules new)

/-! ## What sudo reads -/

/-- The forms that begin with `#` and are no comments: `#include`, `#includedir` and `#<digits>`. -/
def isDirective (stripped : Str) : Bool :=
  (fields stripped).head? = some "#include".toList ||
    (fields stripped).head? = some "#includedir".toList ||
    match stripped with
    | '#' :: d :: _ => '0' ≤ d && d ≤ '9'
    | _ => false

/-- A comment, to the end of its line. -/
def isComment (line : Str) : Bool := (strip line).startsWith ['#'] && !isDirective (strip line)

/-- The line goes on in the next one. -/
def continues (line : Str) : Bool := line.endsWith ['\\']

/-- The logical lines, after the beginning of one that goes on. The white space at the start of a
line is dropped when it continues one. -/
def logicalLines : Option Str → List Str → List Str
  | pending, [] => pending.toList
  | none, line :: rest =>
    if isComment line then logicalLines none rest
    else if continues line then logicalLines (some line.dropLast) rest
    else line :: logicalLines none rest
  | some pending, line :: rest =>
    if continues line then logicalLines (some (pending ++ (line.dropWhile isSpace).dropLast)) rest
    else (pending ++ line.dropWhile isSpace) :: logicalLines none rest

/-- The rule of a logical line, up to white space. -/
def ruleOf (line : Str) : Option Str :=
  if strip line = [] then none else some (normalizeWhitespace (strip line))

/-- The logical rules of a fragment. -/
def logicalRules (content : Str) : List Str :=
  (logicalLines none (content.splitOn '\n')).filterMap ruleOf

example : logicalRules "# a\napp ALL=(root) \\\n  /bin/ls\n#1000 ALL=ALL".toList =
    ["app ALL=(root) /bin/ls", "#1000 ALL=ALL"].map String.toList := by decide

/-- Two fragments have the same rules. -/
def SameRules (a b : Str) : Prop := ∀ r, r ∈ logicalRules a ↔ r ∈ logicalRules b

/-! ## The chunks of a fragment -/

/-- The lines, put together where a line goes on in the next one, after the beginning of such a
chunk. -/
def group : Option (List Str) → List Str → List (List Str)
  | pending, [] => pending.toList
  | none, line :: rest =>
    if isComment line then [line] :: group none rest
    else if continues line then group (some [line]) rest
    else [line] :: group none rest
  | some pending, line :: rest =>
    if continues line then group (some (pending ++ [line])) rest
    else (pending ++ [line]) :: group none rest

/-- The chunks of a fragment: each is a comment, or what makes one logical line. -/
def chunks (content : Str) : List (List Str) := group none (content.splitOn '\n')

/-- The rule of a chunk, as `sudo` reads it. -/
def rulesOf (chunk : List Str) : List Str := (logicalLines none chunk).filterMap ruleOf

/-- The rules of a chunk, as the comparison reads it: each physical line is one. -/
def linesOf (chunk : List Str) : List Str := chunk.flatMap parseRules

/-- The chunk is one line that does not go on, has no break inside and is no directive. -/
def Whole (chunk : List Str) : Prop :=
  ∃ line, chunk = [line] ∧ continues line = false ∧ (∀ c ∈ line, isLineBreak c = false) ∧
    isDirective (strip line) = false

/-- The rule is written on a line of its own. -/
def Own (content r : Str) : Prop := ∃ chunk ∈ chunks content, Whole chunk ∧ r ∈ rulesOf chunk

/-- The rule is written over several lines, as a directive, or on a line with another break. -/
def Joined (content r : Str) : Prop := ∃ chunk ∈ chunks content, ¬Whole chunk ∧ r ∈ rulesOf chunk

/-- The text is one line of what is written so. -/
def Torn (content l : Str) : Prop := ∃ chunk ∈ chunks content, ¬Whole chunk ∧ l ∈ linesOf chunk

/-- What a fragment writes in chunks that are not whole, and what the other one does, hides no rule
of the first: a rule that is joined is a rule of the other, and so is a rule of its own that the other
tears from a chunk. -/
structure Keeps (a b : Str) : Prop where
  joined : ∀ r, Joined a r → Own b r ∨ Joined b r
  torn : ∀ r, Own a r → Torn b r → Own b r ∨ Joined b r

/-- A fragment that is written one rule a line: newlines are its only breaks, no line ends with a
backslash, and no line is a directive. -/
def Plain (content : Str) : Prop :=
  (∀ c ∈ content, isLineBreak c → c = '\n') ∧
    ∀ line ∈ content.splitOn '\n', continues line = false ∧ isDirective (strip line) = false

variable {a b content : Str}

/-! ## Both readings go by the chunks -/

/-- The lines that a text and a newline have are those of the text, and perhaps an empty one. -/
theorem splitlines_endNewline (s : Str) :
    splitlines (s ++ ['\n']) = splitlines s ∨ splitlines (s ++ ['\n']) = splitlines s ++ [[]] := by
  -- a character that is no break changes the first line, of a text that has one
  have hchar : ∀ d t, isLineBreak d = false →
      (splitlines (t ++ ['\n']) = splitlines t ∨ splitlines (t ++ ['\n']) = splitlines t ++ [[]]) →
      splitlines (d :: (t ++ ['\n'])) = splitlines (d :: t) ∨
        splitlines (d :: (t ++ ['\n'])) = splitlines (d :: t) ++ [[]] := by
    intro d t hd ih
    rw [splitlines_char hd, splitlines_char hd]
    cases t with
    | nil => exact .inl rfl
    | cons e t =>
      obtain ⟨line, lines, hlines⟩ := List.exists_cons_of_ne_nil (splitlines_ne_nil (c := e) (s := t))
      rw [hlines] at ih ⊢
      obtain ih | ih := ih <;> rw [ih]
      · exact .inl rfl
      · exact .inr rfl
  induction s using splitlines.induct with
  | case1 => exact .inr rfl
  | case2 s ih =>
    simp only [List.cons_append, splitlines_crlf]
    obtain ih | ih := ih <;> simp [ih]
  | case3 d s hnot hd ih =>
    by_cases hcr : d = '\r' ∧ s = []
    · obtain ⟨rfl, rfl⟩ := hcr
      exact .inl rfl
    · have hhead : ∀ u, d = '\r' → (s ++ u).head? ≠ some '\n' ∨ s = [] := by
        intro u hd'
        cases s with
        | nil => exact .inr rfl
        | cons e s =>
          refine .inl fun he => ?_
          obtain rfl : e = '\n' := by simpa using he
          exact hnot s hd' rfl
      rw [List.cons_append,
        splitlines_break hd fun hd' => (hhead ['\n'] hd').resolve_right fun hs => hcr ⟨hd', hs⟩,
        splitlines_break hd fun hd' => by
          simpa using (hhead [] hd').resolve_right fun hs => hcr ⟨hd', hs⟩]
      obtain ih | ih := ih <;> simp [ih]
  | case4 d s hnot hd _ ih => exact hchar d s (by simpa using hd) ih
  | case5 d s hnot hd _ _ _ ih => exact hchar d s (by simpa using hd) ih

/-- The comparison reads what stands before a newline and what stands after it. -/
theorem parseRules_newline (a b : Str) : parseRules (a ++ '\n' :: b) = parseRules a ++ parseRules b := by
  have hblank : parseLine [] = none := rfl
  unfold parseRules
  rw [splitlines_append (by decide) (fun h => absurd h (by decide)), List.filterMap_append]
  obtain h | h := splitlines_endNewline a
  · rw [h]
  · simp [h, hblank]

/-- The rules of a text are those of its lines. -/
theorem parseRules_intercalate (lines : List Str) :
    parseRules (List.intercalate ['\n'] lines) = lines.flatMap parseRules := by
  induction lines with
  | nil => rfl
  | cons line lines ih =>
    cases lines with
    | nil => simp
    | cons next lines =>
      have hcut : List.intercalate ['\n'] (line :: next :: lines) =
          line ++ '\n' :: List.intercalate ['\n'] (next :: lines) := by
        simp [List.intercalate_cons_cons]
      rw [hcut, parseRules_newline, ih]
      rfl

/-- The chunks have every line of the fragment. -/
theorem flatten_group (lines : List Str) (pending : Option (List Str)) :
    (group pending lines).flatten = pending.getD [] ++ lines := by
  induction lines generalizing pending with
  | nil => cases pending <;> simp [group]
  | cons line lines ih =>
    cases pending with
    | none =>
      unfold group
      split
      · simp [ih]
      · split <;> simp [ih]
    | some pending =>
      unfold group
      split <;> simp [ih]

/-- The lines that the comparison reads are those of the chunks. -/
theorem parseRules_eq (content : Str) : parseRules content = (chunks content).flatMap linesOf := by
  have hlines : (chunks content).flatten = content.splitOn '\n' := flatten_group _ none
  have hflat : (chunks content).flatMap linesOf = (chunks content).flatten.flatMap parseRules := by
    induction chunks content with
    | nil => rfl
    | cons chunk rest ih => rw [List.flatMap_cons, ih, List.flatten_cons, List.flatMap_append, linesOf]
  rw [hflat, hlines, ← parseRules_intercalate, List.intercalate_splitOn]

/-- The logical lines are those of the chunks. A chunk that has begun comes to a logical line that
has begun. -/
theorem flatMap_group (lines : List Str) :
    ((group none lines).flatMap (logicalLines none) = logicalLines none lines) ∧
      ∀ begun pending, (∀ rest, logicalLines none (begun ++ rest) = logicalLines (some pending) rest) →
        (group (some begun) lines).flatMap (logicalLines none) = logicalLines (some pending) lines := by
  -- Induction on the lines, with the line that has begun.
  induction lines with
  | nil =>
    refine ⟨rfl, fun begun pending h => ?_⟩
    have hbegun := h []
    rw [List.append_nil] at hbegun
    simp [group, hbegun]
  | cons line lines ih =>
    obtain ⟨hnone, hsome⟩ := ih
    refine ⟨?_, fun begun pending h => ?_⟩
    -- The line is a comment, or goes on, or ends.
    · by_cases hcomment : isComment line = true
      · simp [group, logicalLines, hcomment, hnone]
      · by_cases hgoes : continues line = true
        · rw [group, if_neg hcomment, if_pos hgoes, logicalLines, if_neg hcomment, if_pos hgoes]
          refine hsome [line] line.dropLast fun rest => ?_
          rw [List.singleton_append, logicalLines, if_neg hcomment, if_pos hgoes]
        · rw [group, if_neg hcomment, if_neg hgoes, List.flatMap_cons, hnone]
          simp [logicalLines, hcomment, hgoes]
    · by_cases hgoes : continues line = true
      · rw [group, if_pos hgoes, logicalLines, if_pos hgoes]
        refine hsome _ _ fun rest => ?_
        rw [List.append_assoc, List.singleton_append, h, logicalLines, if_pos hgoes]
      · rw [group, if_neg hgoes, List.flatMap_cons, hnone, h [line]]
        simp [logicalLines, hgoes]

/-- The rules that `sudo` reads are those of the chunks. -/
theorem logicalRules_eq (content : Str) : logicalRules content = (chunks content).flatMap rulesOf := by
  have hlines := (flatMap_group (content.splitOn '\n')).1
  unfold logicalRules chunks
  rw [← hlines, List.filterMap_flatMap]
  rfl

/-- A line that is no directive is read alike. -/
theorem parseLine_eq {line : Str} (h : isDirective (strip line) = false) :
    parseLine line = if isComment line then none else ruleOf line := by
  unfold parseLine ruleOf isComment
  rw [h, Bool.not_false, Bool.and_true]
  by_cases hcomment : (strip line).startsWith ['#'] = true
  · simp [hcomment]
  · by_cases hempty : strip line = [] <;> simp [hcomment, hempty]

/-- A whole chunk is read alike. -/
theorem linesOf_whole {chunk : List Str} (h : Whole chunk) : linesOf chunk = rulesOf chunk := by
  obtain ⟨line, rfl, hgoes, hbreak, hdirective⟩ := h
  have hlines : parseRules line = (parseLine line).toList := by
    unfold parseRules
    cases line with
    | nil => rfl
    | cons c line =>
      have hsplit := splitlines_line (b := []) hbreak (List.cons_ne_nil c line) (by simp)
      rw [List.append_nil] at hsplit
      rw [hsplit]
      cases hl : parseLine (c :: line) <;> simp [splitlines, hl]
  unfold linesOf rulesOf
  rw [List.flatMap_singleton, hlines, parseLine_eq hdirective]
  -- The line is a comment, a rule, or neither.
  by_cases hcomment : isComment line = true
  · simp [logicalLines, hcomment]
  · cases hr : ruleOf line <;> simp [logicalLines, hcomment, hgoes, hr]

/-- `sudo` reads the rules of their own and the joined ones. -/
theorem mem_logicalRules {r : Str} : r ∈ logicalRules content ↔ Own content r ∨ Joined content r := by
  rw [logicalRules_eq, List.mem_flatMap]
  constructor
  · rintro ⟨chunk, hc, hr⟩
    by_cases hw : Whole chunk
    · exact .inl ⟨chunk, hc, hw, hr⟩
    · exact .inr ⟨chunk, hc, hw, hr⟩
  · rintro (⟨chunk, hc, -, hr⟩ | ⟨chunk, hc, -, hr⟩) <;> exact ⟨chunk, hc, hr⟩

/-- The comparison reads the rules of their own, and tears the other chunks. -/
theorem mem_parseRules {l : Str} : l ∈ parseRules content ↔ Own content l ∨ Torn content l := by
  rw [parseRules_eq, List.mem_flatMap]
  constructor
  · rintro ⟨chunk, hc, hl⟩
    by_cases hw : Whole chunk
    · exact .inl ⟨chunk, hc, hw, linesOf_whole hw ▸ hl⟩
    · exact .inr ⟨chunk, hc, hw, hl⟩
  · rintro (⟨chunk, hc, hw, hl⟩ | ⟨chunk, hc, -, hl⟩)
    · exact ⟨chunk, hc, (linesOf_whole hw).symm ▸ hl⟩
    · exact ⟨chunk, hc, hl⟩

/-! ## The condition -/

/-- No change is reported when the lines are the same. -/
theorem hasChanges_iff :
    (diffSudoers a b).hasChanges = false ↔ ∀ l, l ∈ parseRules a ↔ l ∈ parseRules b := by
  unfold Diff.hasChanges diffSudoers
  simp only [ne_eq, Bool.or_eq_false_iff, decide_eq_false_iff_not, not_not,
    List.filter_eq_nil_iff, decide_eq_true_eq]
  constructor
  · rintro ⟨hadded, hremoved⟩ l
    exact ⟨hremoved l, hadded l⟩
  · intro h
    exact ⟨fun l => (h l).mpr, fun l => (h l).mp⟩

/-- The rules of one fragment are rules of the other, which has its lines, when neither hides one. -/
theorem logicalRules_sub_iff (h : ∀ l, l ∈ parseRules a → l ∈ parseRules b) :
    (∀ r, r ∈ logicalRules a → r ∈ logicalRules b) ↔ Keeps a b := by
  simp only [mem_logicalRules]
  constructor
  · exact fun hsub => ⟨fun r hr => hsub r (.inr hr), fun r hr _ => hsub r (.inl hr)⟩
  · rintro ⟨hjoined, htorn⟩ r (hown | hr)
    · -- a rule of its own is a line of the other: one of its own, or a part of a chunk
      obtain hb | hb := mem_parseRules.mp (h r (mem_parseRules.mpr (.inl hown)))
      · exact .inl hb
      · exact htorn r hown hb
    · exact hjoined r hr

/-- Rules are the same when each text keeps the other's. -/
theorem sameRules_iff (h : ∀ l, l ∈ parseRules a ↔ l ∈ parseRules b) :
    SameRules a b ↔ Keeps a b ∧ Keeps b a := by
  rw [← logicalRules_sub_iff fun l => (h l).mp, ← logicalRules_sub_iff fun l => (h l).mpr]
  exact ⟨fun hs => ⟨fun r => (hs r).mp, fun r => (hs r).mpr⟩, fun hs r => ⟨hs.1 r, hs.2 r⟩⟩

/-- A line that does not go on is a chunk. -/
theorem mem_group_plain {lines chunk : List Str} (h : ∀ line ∈ lines, continues line = false)
    (hc : chunk ∈ group none lines) : ∃ line ∈ lines, chunk = [line] := by
  induction lines with
  | nil => simp [group] at hc
  | cons line lines ih =>
    have hrest : chunk ∈ [line] :: group none lines := by
      rw [group] at hc
      split at hc
      · exact hc
      · rwa [if_neg (by simp [h line List.mem_cons_self])] at hc
    obtain rfl | hc := List.mem_cons.mp hrest
    · exact ⟨line, List.mem_cons_self, rfl⟩
    · obtain ⟨l, hl, rfl⟩ := ih (fun l hl => h l (List.mem_cons_of_mem line hl)) hc
      exact ⟨l, List.mem_cons_of_mem line hl, rfl⟩

/-- A fragment that is written one rule a line has only whole chunks. -/
theorem plain_spec (h : Plain content) : ∀ chunk ∈ chunks content, Whole chunk := by
  obtain ⟨hbreaks, hlines⟩ := h
  intro chunk hc
  obtain ⟨line, hline, rfl⟩ := mem_group_plain (fun l hl => (hlines l hl).1) hc
  refine ⟨line, rfl, (hlines line hline).1, fun c hcl => ?_, (hlines line hline).2⟩
  refine (Bool.not_eq_true _).mp fun hbreak => ?_
  obtain rfl := hbreaks c (mem_of_mem_splitOn hline hcl) hbreak
  exact notMem_of_mem_splitOn hline hcl

/-- Without a reported change the rules are the same exactly when a line of one fragment is neither
a rule of its own nor torn in the other, or neither hides a rule of the other in its chunks that are
not whole; and a fragment that is written one rule a line has no such chunk. -/
theorem no_change_iff (a b : Str) :
    (((diffSudoers a b).hasChanges = false → SameRules a b) ↔
      ((∃ l, ¬(Own a l ∨ Torn a l ↔ Own b l ∨ Torn b l)) ∨ Keeps a b ∧ Keeps b a)) ∧
    ∀ content, Plain content → ∀ chunk ∈ chunks content, Whole chunk := by
  refine ⟨?_, fun content h => plain_spec h⟩
  simp only [← mem_parseRules]
  rw [hasChanges_iff]
  -- The lines that are compared are the same, or one of them is in one fragment only.
  by_cases hlines : ∀ l, l ∈ parseRules a ↔ l ∈ parseRules b
  · rw [← sameRules_iff hlines]
    constructor
    · exact fun h => .inr (h hlines)
    · rintro (⟨l, hl⟩ | h) _
      · exact absurd (hlines l) hl
      · exact h
  · obtain ⟨l, hl⟩ := not_forall.mp hlines
    exact ⟨fun _ => .inl ⟨l, hl⟩, fun _ h => absurd (h l) hl⟩

/-- A directory of rules is taken out, and no change is reported. -/
theorem include_unnoticed :
    let current := "#includedir /etc/sudoers.d/app\nops ALL=(ALL) ALL\n".toList
    let new := "ops ALL=(ALL) ALL\n".toList
    (diffSudoers current new).hasChanges = false ∧ ¬SameRules current new := by
  refine ⟨by decide, fun h => ?_⟩
  have hrule := (h "#includedir /etc/sudoers.d/app".toList).mp (by decide)
  exact absurd hrule (by decide)

end Fraisier.Scaffold.Sudoers
