import Fraisier.Lib.Partition
import Fraisier.Lib.UnitFile
import Fraisier.Unit.Validator

/-!
# Reading units as systemd does

`validateUnit` judges the assignments that it reads, and systemd acts on those that it reads itself.
`_logical_lines` is a reader of lines that strips every blank of Unicode and takes a line to go on
when it ends in a backslash (`reader`). systemd strips ASCII blanks only, and takes a line to go on
when it ends in an odd run of backslashes (`systemd`). Both drop comments, and put one space between
the pieces of a line. `readsAsSystemd_iff` says on which texts they read the same; on the others a
directive that systemd honours can be part of a value for the validator.
-/

namespace Fraisier.Unit

open Fraisier.Lib Str

/-! ## The readers -/

/-- The reader of `_logical_lines`. -/
def reader : Dialect where
  blank := isSpace
  continues := fun line => line.getLast? = some '\\'

/-- The reader of systemd. -/
def systemd : Dialect where
  blank := Shlex.isBlank
  continues := fun line => (line.rtakeWhile (· == '\\')).length % 2 = 1

/-- A blank of the shell's is a space. -/
theorem isSpace_of_isBlank {c : Char} (h : Shlex.isBlank c = true) : isSpace c = true := by
  simp only [Shlex.isBlank, Bool.or_eq_true, beq_iff_eq] at h
  rcases h with ((rfl | rfl) | rfl) | rfl <;> decide

/-- The reader strips at least what systemd strips. -/
theorem reader_coarser : Dialect.Coarser reader systemd where
  blank c := isSpace_of_isBlank
  space := by decide
  hash := by decide
  semicolon := by decide
  backslash := by decide
  ends line := by simp [reader, List.getLast?_eq_some_iff]
  fewer line h := by
    -- An odd number of backslashes is at least one.
    have hodd : (line.rtakeWhile (· == '\\')).length % 2 = 1 := by simpa [systemd] using h
    rcases List.eq_nil_or_concat line with rfl | ⟨x, c, rfl⟩
    · simp at hodd
    · rw [List.concat_eq_append] at hodd ⊢
      by_cases hc : c = '\\'
      · simp [reader, hc]
      · rw [List.rtakeWhile_concat_neg _ _ _ (by simpa using hc)] at hodd
        simp at hodd
  pairs x h := by
    -- Before a backslash that does not continue there is another.
    have heven : ¬((x ++ ['\\']).rtakeWhile (· == '\\')).length % 2 = 1 := by
      simpa [systemd] using h
    rw [List.rtakeWhile_concat_pos _ _ _ (by simp), List.length_append, List.length_singleton] at heven
    rcases List.eq_nil_or_concat x with rfl | ⟨y, c, rfl⟩
    · simp at heven
    · rw [List.concat_eq_append] at heven ⊢
      by_cases hc : c = '\\'
      · exact ⟨y, by rw [hc]⟩
      · rw [List.rtakeWhile_concat_neg _ _ _ (by simpa using hc)] at heven
        simp at heven

/-! ## Logical lines -/

/-- The lines end inside a continued line: the last of them that is no comment goes on. Before any
such line it is `open_` that says so. -/
def endsOpen (open_ : Bool) (lines : List Str) : Bool :=
  ((lines.filter fun line => !isComment (strip line)).getLast?.map reader.continues).getD open_

/-- The text ends inside a continued line. -/
def endsInside (text : Str) : Bool := endsOpen false (text.splitOn '\n')

variable {line text : Str} {open_ : Bool}

attribute [local simp] joinLines

/-- A comment leaves the lines as open as they were. -/
theorem endsOpen_comment (h : isComment (strip line) = true) (rest : List Str) :
    endsOpen open_ (line :: rest) = endsOpen open_ rest := by
  unfold endsOpen
  rw [List.filter_cons_of_neg (by simp [h])]

/-- A line is open when it is continued. -/
theorem endsOpen_line (h : isComment (strip line) = false) (rest : List Str) :
    endsOpen open_ (line :: rest) = endsOpen (reader.continues line) rest := by
  unfold endsOpen
  rw [List.filter_cons_of_pos (by simp [h]), List.getLast?_cons]
  cases (rest.filter fun line => !isComment (strip line)).getLast? <;> rfl

/-- A blank line is not continued. -/
theorem continues_of_strip_nil (h : strip line = []) : reader.continues line = false := by
  by_contra hc
  obtain ⟨x, rfl⟩ := (reader_coarser.ends line).mp (by simpa using hc)
  have hblank := stripBy_eq_nil_iff.mp h '\\' (by simp)
  exact absurd hblank (by decide)

section Steps

variable {number start : ℕ} {pending rest : List Str} (hreturn : line.rdropWhile (· == '\r') = line)
include hreturn

/-- A comment is left out where lines are joined. -/
theorem joinLines_comment (h : isComment (strip line) = true) :
    joinLines number (line :: rest) pending start = joinLines (number + 1) rest pending start := by
  rw [joinLines, hreturn]
  by_cases hp : pending = [] <;> simp [h, hp]

/-- A blank line is left out where no line is pending. -/
theorem joinLines_blank (h : strip line = []) :
    joinLines number (line :: rest) [] start = joinLines (number + 1) rest [] start := by
  rw [joinLines, hreturn]
  simp [h]

variable (hcomment : ¬isComment (strip line) = true) (hblank : ¬(pending = [] ∧ strip line = []))
include hcomment hblank

/-- A continued line is kept for the next. -/
theorem joinLines_continued (h : reader.continues line = true) :
    joinLines number (line :: rest) pending start =
      joinLines (number + 1) rest (pending ++ [line.dropLast])
        (if pending = [] then number else start) := by
  have hlast : line.getLast? = some '\\' := by simpa [reader] using h
  rw [joinLines, hreturn, if_neg fun h => hcomment h.2,
    if_neg fun h => h.2.elim (fun hs => hblank ⟨h.1, hs⟩) hcomment]
  exact if_pos hlast

/-- A line that ends is joined to those kept before it. -/
theorem joinLines_ended (h : reader.continues line = false) :
    joinLines number (line :: rest) pending start =
      ((if pending = [] then number else start, joined ((pending ++ [line]).map strip)) :: ·) <$>
        joinLines (number + 1) rest [] (if pending = [] then number else start) := by
  have hlast : ¬line.getLast? = some '\\' := by simpa [reader] using h
  rw [joinLines, hreturn, if_neg fun h => hcomment h.2,
    if_neg fun h => h.2.elim (fun hs => hblank ⟨h.1, hs⟩) hcomment]
  exact if_neg hlast

end Steps

/-- `joinLines` finds the logical lines of `reader`, unless the lines end inside a continued one. -/
theorem joinLines_eq (number : ℕ) (lines pending : List Str) (start : ℕ)
    (hreturn : ∀ line ∈ lines, line.rdropWhile (· == '\r') = line) :
    if endsOpen (pending ≠ []) lines then ∃ r, joinLines number lines pending start = .error r
    else ∃ out, joinLines number lines pending start = .ok out ∧
      out.map Prod.snd = reader.logical (pending.map strip) lines := by
  -- Induction on the lines, with the pieces that are pending.
  induction lines generalizing number pending start with
  | nil =>
    by_cases hp : pending = []
    · simp [endsOpen, joinLines, Dialect.logical, hp]
    · simp [endsOpen, joinLines, hp]
  | cons line rest ih =>
    obtain ⟨hline, hrest⟩ := List.forall_mem_cons.mp hreturn
    by_cases hcomment : isComment (strip line) = true
    · rw [endsOpen_comment hcomment, joinLines_comment hline hcomment,
        Dialect.logical_comment (d := reader) hcomment]
      exact ih (number + 1) pending start hrest
    rw [endsOpen_line (by simpa using hcomment)]
    by_cases hblank : pending = [] ∧ strip line = []
    · obtain ⟨rfl, hstrip⟩ := hblank
      rw [continues_of_strip_nil hstrip, joinLines_blank hline hstrip, List.map_nil,
        Dialect.logical_blank (d := reader) hstrip]
      exact ih (number + 1) [] start hrest
    have hblank' : ¬(pending.map strip = [] ∧ strip line = []) := by simpa using hblank
    -- The line is continued, or ends what is pending.
    cases hc : reader.continues line with
    | true =>
      have hpiece : reader.piece line = strip line.dropLast := by rw [Dialect.piece, if_pos hc]; rfl
      rw [joinLines_continued hline hcomment hblank hc,
        Dialect.logical_continued (d := reader) hcomment hblank' hc, hpiece]
      have := ih (number + 1) (pending ++ [line.dropLast]) (if pending = [] then number else start) hrest
      simpa using this
    | false =>
      have hpiece : reader.piece line = strip line := by rw [Dialect.piece, if_neg (by simp [hc])]; rfl
      rw [joinLines_ended hline hcomment hblank hc,
        Dialect.logical_ended (d := reader) hcomment hblank' hc, hpiece]
      generalize (if pending = [] then number else start) = begun
      have := ih (number + 1) [] begun hrest
      rw [show decide (([] : List Str) ≠ []) = false from rfl] at this
      cases hopen : endsOpen false rest with
      | true =>
        rw [if_pos hopen] at this
        obtain ⟨r, hr⟩ := this
        exact ⟨r, by rw [hr]; rfl⟩
      | false =>
        rw [if_neg (by rw [hopen]; exact Bool.false_ne_true)] at this
        obtain ⟨out, hout, hlines⟩ := this
        refine ⟨_, by rw [hout]; rfl, ?_⟩
        rw [List.map_cons, hlines, List.map_append]
        rfl

/-- The logical lines of a text without control characters are those of `reader`. -/
theorem logicalLines_eq (h : text.any isControl = false) :
    if endsInside text then ∃ r, logicalLines text = .error r
    else ∃ out, logicalLines text = .ok out ∧
      out.map Prod.snd = reader.logical [] (text.splitOn '\n') := by
  have := joinLines_eq 1 (text.splitOn '\n') [] 0 fun line hline => by
    rcases List.eq_nil_or_concat line with rfl | ⟨x, c, rfl⟩
    · rfl
    · rw [List.concat_eq_append] at hline ⊢
      have hcontrol := List.any_eq_false.mp h c (mem_of_mem_splitOn hline (by simp))
      refine List.rdropWhile_concat_neg _ _ _ fun hreturn => hcontrol ?_
      rw [beq_iff_eq.mp hreturn]
      rfl
  exact this

/-! ## What the logical lines say -/

/-- What a logical line says: a header, stripped, an assignment, or nothing. -/
inductive Entry
  | header (line : Str)
  | assignment (key value : Str)
  | other
  deriving DecidableEq, Repr

/-- A logical line as `unit_directives` and `validate_unit` take it. -/
def entry (line : Str) : Entry :=
  if line.head? = some '[' then .header line.strip
  else
    let (key, sep, value) := line.partition '='
    if sep then .assignment key.strip value.strip else .other

/-- A logical line as systemd takes it. -/
def systemdEntry (line : Str) : Entry :=
  if (systemd.strip line).head? = some '[' then .header (systemd.strip line)
  else
    let (key, sep, value) := line.partition '='
    if sep then .assignment (systemd.strip key) (systemd.strip value) else .other

/-- `(section, key, value)` for every assignment. -/
def assignments : Str → List Entry → List (Str × Str × Str)
  | _, [] => []
  | _, .header line :: rest => assignments (stripBy (fun c => c == '[' || c == ']') line) rest
  | section_, .assignment key value :: rest => (section_, key, value) :: assignments section_ rest
  | section_, .other :: rest => assignments section_ rest

/-- The logical lines that systemd reads. -/
def systemdLines (text : Str) : List Str := systemd.logical [] (text.splitOn '\n')

/-- The assignments that systemd reads. -/
def systemdDirectives (text : Str) : List (Str × Str × Str) :=
  assignments [] ((systemdLines text).map systemdEntry)

/-- The directives of a section are its assignments. -/
theorem directivesOf_eq (section_ : Str) (lines : List (ℕ × Str)) :
    directivesOf section_ lines = assignments section_ ((lines.map Prod.snd).map entry) := by
  induction lines generalizing section_ with
  | nil => rfl
  | cons first rest ih =>
    obtain ⟨number, line⟩ := first
    rw [directivesOf, List.map_cons, List.map_cons, entry]
    by_cases hheader : line.head? = some '['
    · rw [if_pos hheader, if_pos hheader, assignments, ih]
    · rw [if_neg hheader, if_neg hheader]
      rcases line.partition '=' with ⟨key, sep, value⟩
      cases sep with
      | true => simp only [if_true, assignments, ih]
      | false => simp only [Bool.false_eq_true, if_false, assignments, ih]

/-- `_logical_lines` reads the lines of the text as systemd does, and they say the same. A text that
ends inside a continued line has no logical lines: it is refused. -/
def ReadsAsSystemd (text : Str) : Prop :=
  ∀ lines, logicalLines text = .ok lines → lines.map Prod.snd = systemdLines text ∧
    (lines.map Prod.snd).map entry = (systemdLines text).map systemdEntry

/-! ## Where they agree -/

/-- Apart from ASCII blanks, no blank stands at the ends. -/
def PlainEnds (s : Str) : Prop :=
  ∀ c, (systemd.strip s).head? = some c ∨ (systemd.strip s).getLast? = some c → isSpace c = false

/-- A comment, or a line that ends in no backslashes or in an odd run of them, with plain ends but
for the backslash by which it goes on. -/
def PlainLine (line : Str) : Prop :=
  isComment (systemd.strip line) = true ∨
    (line.getLast? = some '\\' → systemd.continues line = true) ∧
      PlainEnds (if systemd.continues line then line.dropLast else line)

/-- A logical line that begins with its header, or of which the key and the value have plain
ends. -/
def PlainEntry (line : Str) : Prop :=
  if (systemd.strip line).head? = some '[' then line.head? = some '[' ∧ PlainEnds line
  else ∀ key value, line.partition '=' = (key, true, value) → PlainEnds key ∧ PlainEnds value

/-- The lines of the text are plain, and so is what systemd reads in them. -/
def Plain (text : Str) : Prop :=
  (∀ line ∈ text.splitOn '\n', PlainLine line) ∧ ∀ line ∈ systemdLines text, PlainEntry line

/-- A text has plain ends when both strip it alike. -/
theorem plainEnds_iff (s : Str) : PlainEnds s ↔ strip s = systemd.strip s := by
  -- `strip` takes off all that systemd does.
  have hstrip : stripBy isSpace (systemd.strip s) = strip s := stripBy_stripBy reader_coarser.blank s
  constructor
  · intro h
    have hfix : stripBy isSpace ([] ++ (systemd.strip s ++ [])) = systemd.strip s := by
      refine stripBy_eq nofun nofun (fun c r hq => h c (.inl ?_)) fun c r hq => h c (.inr ?_)
      · rw [hq, List.head?_cons]
      · rw [hq, List.getLast?_concat]
    rw [List.nil_append, List.append_nil] at hfix
    rw [← hstrip, hfix]
  · intro h c hc
    rw [← h] at hc
    rcases hc with hc | hc
    · obtain ⟨r, hr⟩ := List.head?_eq_some_iff.mp hc
      exact stripBy_head hr
    · obtain ⟨r, hr⟩ := List.getLast?_eq_some_iff.mp hc
      exact stripBy_last hr

/-- Both continue a line alike when a last backslash continues it for systemd. -/
theorem continues_iff (line : Str) : reader.continues line = systemd.continues line ↔
    (line.getLast? = some '\\' → systemd.continues line = true) := by
  have hlast : reader.continues line = true ↔ line.getLast? = some '\\' := by simp [reader]
  rw [← hlast, Bool.eq_iff_iff]
  exact ⟨Iff.mp, fun h => ⟨h, reader_coarser.fewer line⟩⟩

/-- A plain line is one both readers take alike. -/
theorem plainLine_iff (line : Str) : PlainLine line ↔ Dialect.Alike reader systemd line := by
  unfold PlainLine Dialect.Alike
  rw [← continues_iff]
  refine or_congr Iff.rfl (and_congr_right fun hcontinues => ?_)
  rw [plainEnds_iff, Dialect.piece, Dialect.piece, hcontinues]
  rfl

/-- A bracket is no blank: a line that begins with one still does when it is stripped. -/
theorem systemd_strip_header (h : line.head? = some '[') : (systemd.strip line).head? = some '[' := by
  obtain ⟨r, rfl⟩ := List.head?_eq_some_iff.mp h
  obtain ⟨r', hr'⟩ : ∃ r', systemd.strip ('[' :: r) = '[' :: r' := stripBy_cons (by decide) r
  rw [hr', List.head?_cons]

/-- A plain entry is one both readers take alike. -/
theorem plainEntry_iff (line : Str) : PlainEntry line ↔ entry line = systemdEntry line := by
  unfold PlainEntry entry systemdEntry
  -- A line that is a header for systemd alone is an assignment for the reader.
  by_cases hheader : (systemd.strip line).head? = some '['
  · rw [if_pos hheader, if_pos hheader]
    by_cases hfirst : line.head? = some '['
    · rw [if_pos hfirst, Entry.header.injEq, plainEnds_iff]
      exact and_iff_right hfirst
    · rw [if_neg hfirst]
      refine iff_of_false (fun h => hfirst h.1) ?_
      rcases line.partition '=' with ⟨key, sep, value⟩
      cases sep <;> simp
  · have hfirst : ¬line.head? = some '[' := fun h => hheader (systemd_strip_header h)
    rw [if_neg hheader, if_neg hheader, if_neg hfirst]
    rcases line.partition '=' with ⟨key, sep, value⟩
    cases sep with
    | false => simp
    | true => simp [plainEnds_iff]

/-- `_logical_lines` reads a text as systemd does exactly when it ends inside a continued line, or is
plain. -/
theorem plain_iff (h : text.any isControl = false) :
    ReadsAsSystemd text ↔ endsInside text = true ∨ Plain text := by
  have hlogical := logicalLines_eq h
  cases hends : endsInside text with
  | true =>
    -- A text that ends inside a continued line is not read at all.
    rw [if_pos hends] at hlogical
    obtain ⟨r, hr⟩ := hlogical
    refine iff_of_true (fun lines hlines => ?_) (.inl rfl)
    rw [hr] at hlines
    exact absurd hlines (by simp)
  | false =>
    rw [if_neg (by rw [hends]; exact Bool.false_ne_true)] at hlogical
    obtain ⟨lines, hlines, hmap⟩ := hlogical
    -- The lines are the same when each is plain.
    have hlinesIff : lines.map Prod.snd = systemdLines text ↔
        ∀ line ∈ text.splitOn '\n', PlainLine line := by
      rw [hmap, systemdLines, reader_coarser.logical_eq_iff]
      exact forall₂_congr fun line _ => (plainLine_iff line).symm
    have hreads : ReadsAsSystemd text ↔ lines.map Prod.snd = systemdLines text ∧
        (lines.map Prod.snd).map entry = (systemdLines text).map systemdEntry := by
      unfold ReadsAsSystemd
      simp [hlines]
    rw [hreads, Plain, ← hlinesIff]
    simp only [Bool.false_eq_true, false_or]
    refine and_congr_right fun heq => ?_
    rw [heq, List.map_inj_left]
    exact forall₂_congr fun line _ => (plainEntry_iff line).symm

/-! ## What was judged -/

/-- The assignment was judged, and allowed: its section and its directive are on the allowlist, and
its value was not refused. -/
def Allowed (suffix : Suffix) (policy : RootPolicy) (assignment : Str × Str × Str) : Prop :=
  ∃ directives kind, lookup (sections suffix) assignment.1 = some directives ∧
    lookup directives assignment.2.1 = some kind ∧
    valueRefusal kind assignment.2.1 assignment.2.2 policy = some none

variable {suffix : Suffix} {policy : RootPolicy} {j j' : Judging} {number : ℕ}

/-- What a table gives for a key is an entry of it. -/
theorem lookup_mem {α : Type} {table : List (String × α)} {key : Str} {a : α}
    (h : lookup table key = some a) : ∃ e ∈ table, e.1.toList = key ∧ e.2 = a := by
  obtain ⟨e, he, ha⟩ := Option.map_eq_some_iff.mp h
  exact ⟨e, List.mem_of_find?_eq_some he, by simpa using List.find?_some he, ha⟩

/-- No section has a bracket in its name. -/
theorem sections_names (suffix : Suffix) {e : String × Directives} (he : e ∈ sections suffix)
    {c : Char} (hc : c ∈ e.1.toList) : (c == '[' || c == ']') = false := by
  have hall : (sections suffix).all (fun e => e.1.toList.all fun c => !(c == '[' || c == ']')) =
      true := by cases suffix <;> decide
  simpa using List.all_eq_true.mp (List.all_eq_true.mp hall e he) c hc

set_option maxRecDepth 100000 in
/-- A unit type's table of sections has no empty name. -/
theorem sections_ne_nil : ∀ suffix, ∀ e ∈ sections suffix, e.2 ≠ [] := by
  intro suffix
  cases suffix <;> decide

/-- Both ways to take the name out of a header agree on the names of sections. -/
theorem header_name {directives : Directives} (hhead : line.head? = some '[')
    (hlast : line.getLast? = some ']')
    (h : lookup (sections suffix) (line.drop 1).dropLast = some directives) :
    stripBy (fun c => c == '[' || c == ']') line = (line.drop 1).dropLast := by
  obtain ⟨e, he, hname, -⟩ := lookup_mem h
  -- No name of a section has a bracket in it.
  have hclean : ∀ c ∈ e.1.toList, (c == '[' || c == ']') = false := fun c => sections_names suffix he
  rw [hname] at hclean
  obtain ⟨r, rfl⟩ := List.head?_eq_some_iff.mp hhead
  rw [List.drop_one, List.tail_cons] at hclean ⊢
  rcases List.eq_nil_or_concat r with rfl | ⟨q, c, rfl⟩
  · exact absurd hlast (by decide)
  · rw [List.concat_eq_append] at hlast hclean ⊢
    rw [← List.cons_append, List.getLast?_concat, Option.some.injEq] at hlast
    rw [List.dropLast_concat] at hclean ⊢
    refine stripBy_eq (a := ['[']) (b := [c]) ?_ ?_ ?_ ?_
    · intro c' hc'
      rw [List.mem_singleton.mp hc']
      rfl
    · intro c' hc'
      rw [List.mem_singleton.mp hc', hlast]
      rfl
    · rintro c' r' rfl
      exact hclean c' List.mem_cons_self
    · rintro c' r' rfl
      exact hclean c' (by simp)

/-- What a line is that adds no refusal: a header of the allowlist, or an assignment in a refused
section, or one that is allowed. -/
def Passes (suffix : Suffix) (policy : RootPolicy) (j j' : Judging) (line : Str) : Prop :=
  if line.head? = some '[' then
    ∃ directives, line.strip.getLast? = some ']' ∧
      lookup (sections suffix) (line.strip.drop 1).dropLast = some directives ∧
      j'.current = some directives
  else ∃ key value, line.partition '=' = (key, true, value) ∧ j'.current = j.current ∧
    (j.current = some [] ∨ ∃ directives kind, j.current = some directives ∧
      lookup directives key.strip = some kind ∧
      valueRefusal kind key.strip value.strip policy = some none)

/-- A refusal is recorded. -/
theorem not_refused {r : Refusal} : (j.refuse r).refusals ≠ [] :=
  List.append_ne_nil_of_right_ne_nil _ (List.cons_ne_nil r [])

/-- A line adds to the refusals, or passes. -/
theorem judgeLine_cases (h : judgeLine suffix policy j number line = some j') :
    j.refusals <+: j'.refusals ∧ (j'.refusals = [] → Passes suffix policy j j' line) := by
  have hrefuse : ∀ r, j.refuse r = j' →
      j.refusals <+: j'.refusals ∧ (j'.refusals = [] → Passes suffix policy j j' line) := by
    rintro r rfl
    exact ⟨List.prefix_append _ _, fun hnil => absurd hnil not_refused⟩
  unfold judgeLine at h
  by_cases hheader : line.head? = some '['
  · rw [if_pos hheader] at h
    unfold Passes
    rw [if_pos hheader]
    cases hsection : (if line.strip.getLast? = some ']' then
        lookup (sections suffix) (line.strip.drop 1).dropLast else none) with
    | none =>
      simp only [hsection, Option.some.injEq] at h
      subst h
      exact ⟨List.prefix_append _ _, fun hnil => absurd hnil not_refused⟩
    | some directives =>
      simp only [hsection, Option.some.injEq] at h
      subst h
      obtain ⟨hlast, hlookup⟩ := (Option.ite_none_right_eq_some).mp hsection
      exact ⟨List.prefix_rfl, fun _ => ⟨directives, hlast, hlookup, rfl⟩⟩
  · rw [if_neg hheader] at h
    rcases hpartition : line.partition '=' with ⟨key, sep, value⟩
    simp only [hpartition] at h
    by_cases hdirective : (!sep || !isDirective key.strip) = true
    · rw [if_pos hdirective] at h
      exact hrefuse _ (Option.some.inj h)
    rw [if_neg hdirective] at h
    have hsep : sep = true := by
      by_contra hsep
      exact hdirective (by simp [hsep])
    subst hsep
    have hpasses : ∀ hcurrent : j'.current = j.current, (j.current = some [] ∨
        ∃ directives kind, j.current = some directives ∧ lookup directives key.strip = some kind ∧
          valueRefusal kind key.strip value.strip policy = some none) →
        Passes suffix policy j j' line := by
      intro hcurrent hallowed
      unfold Passes
      rw [if_neg hheader]
      exact ⟨key, value, hpartition, hcurrent, hallowed⟩
    cases hcurrent : j.current with
    | none =>
      simp only [hcurrent] at h
      exact hrefuse _ (Option.some.inj h)
    | some directives => cases directives with
      | nil =>
        simp only [hcurrent] at h
        obtain rfl := Option.some.inj h
        exact ⟨List.prefix_rfl, fun _ => hpasses rfl (.inl hcurrent)⟩
      | cons d ds =>
        simp only [hcurrent] at h
        cases hkind : lookup (d :: ds) key.strip with
        | none =>
          simp only [hkind] at h
          exact hrefuse _ (Option.some.inj h)
        | some kind =>
          simp only [hkind] at h
          obtain ⟨verdict, hverdict, hj'⟩ := Option.map_eq_some_iff.mp h
          -- the list of users is all that changes before the verdict
          cases verdict with
          | none =>
            simp only at hj'
            refine ⟨?_, fun _ => hpasses ?_ (.inr ⟨d :: ds, kind, hcurrent, hkind, hverdict⟩)⟩
            · rw [← hj']
              split <;> exact List.prefix_rfl
            · rw [← hj']
              split <;> simp [hcurrent]
          | some r =>
            simp only at hj'
            rw [← hj']
            refine ⟨?_, fun hnil => absurd hnil not_refused⟩
            split <;> exact List.prefix_append _ _

/-- Lines only add to the refusals. -/
theorem judgeLines_refusals {lines : List (ℕ × Str)}
    (h : judgeLines suffix policy j lines = some j') : j.refusals <+: j'.refusals := by
  induction lines generalizing j with
  | nil =>
    obtain rfl := Option.some.inj h
    exact List.prefix_rfl
  | cons first rest ih =>
    obtain ⟨j₁, hfirst, hrest⟩ := Option.bind_eq_some_iff.mp h
    exact (judgeLine_cases hfirst).1.trans (ih hrest)

/-- The directives that are being judged are those of the section, once there is one. -/
def InSection (suffix : Suffix) (section_ : Str) (j : Judging) : Prop :=
  ∀ directives, j.current = some directives → lookup (sections suffix) section_ = some directives

/-- Where nothing was refused every assignment was allowed. -/
theorem judgeLines_allowed {lines : List (ℕ × Str)} (section_ : Str)
    (hsection : InSection suffix section_ j) (h : judgeLines suffix policy j lines = some j')
    (hnil : j'.refusals = []) : ∀ a ∈ directivesOf section_ lines, Allowed suffix policy a := by
  -- Induction on the lines, with the section that is open.
  induction lines generalizing j section_ with
  | nil => exact nofun
  | cons first rest ih =>
    obtain ⟨number, line⟩ := first
    obtain ⟨j₁, hfirst, hrest⟩ := Option.bind_eq_some_iff.mp h
    have hnil₁ : j₁.refusals = [] := by
      have := judgeLines_refusals hrest
      rw [hnil] at this
      exact List.prefix_nil.mp this
    have hpasses := (judgeLine_cases hfirst).2 hnil₁
    unfold Passes at hpasses
    rw [directivesOf]
    -- A header has no assignment.
    by_cases hheader : line.head? = some '['
    · rw [if_pos hheader] at hpasses ⊢
      obtain ⟨directives, hlast, hlookup, hcurrent⟩ := hpasses
      refine ih _ (fun directives' h' => ?_) hrest
      have hfirst : line.strip.head? = some '[' := by
        obtain ⟨r, rfl⟩ := List.head?_eq_some_iff.mp hheader
        obtain ⟨r', hr'⟩ : ∃ r', strip ('[' :: r) = '[' :: r' := stripBy_cons (by decide) r
        rw [hr', List.head?_cons]
      rw [header_name hfirst hlast hlookup, hlookup, ← hcurrent, h']
    · rw [if_neg hheader] at hpasses ⊢
      obtain ⟨key, value, hpartition, hcurrent, hallowed⟩ := hpasses
      have hsection₁ : InSection suffix section_ j₁ := by
        unfold InSection
        rw [hcurrent]
        exact hsection
      simp only [hpartition, if_true, List.forall_mem_cons]
      refine ⟨?_, ih section_ hsection₁ hrest⟩
      rcases hallowed with hempty | ⟨directives, kind, hin, hkind, hvalue⟩
      · obtain ⟨e, he, -, hdirectives⟩ := lookup_mem (hsection [] hempty)
        exact absurd hdirectives (sections_ne_nil suffix e he)
      · exact ⟨directives, kind, hsection directives hin, hkind, hvalue⟩

/-- Every assignment of a unit that is not refused was allowed. -/
theorem validateUnit_allowed {name : Str} (h : validateUnit name text policy = some []) :
    ∃ suffix lines, suffixOf name = some suffix ∧ text.any isControl = false ∧
      logicalLines text = .ok lines ∧ ∀ a ∈ directivesOf [] lines, Allowed suffix policy a := by
  unfold validateUnit at h
  -- Whatever ends the reading early is a refusal.
  cases hsuffix : suffixOf name with
  | none => simp [hsuffix] at h
  | some suffix =>
    simp only [hsuffix] at h
    by_cases hcontrol : text.any isControl = true
    · simp [hcontrol] at h
    rw [if_neg hcontrol] at h
    cases hlines : logicalLines text with
    | error r => simp [hlines] at h
    | ok lines =>
      simp only [hlines, Option.map_eq_some_iff] at h
      obtain ⟨j, hj, hrefusals⟩ := h
      have hnil : j.refusals = [] := by
        split_ifs at hrefusals
        · exact (List.append_eq_nil_iff.mp hrefusals).1
        · exact hrefusals
      have hstart : InSection suffix [] {} := fun directives hnone => absurd hnone (by simp)
      exact ⟨suffix, lines, rfl, by simpa using hcontrol, rfl,
        judgeLines_allowed [] hstart hj hnil⟩

/-! ## What systemd honours -/

/-- What the two readers have to do with each other, for a text without control characters. They read
it the same exactly when it ends inside a continued line or is plain. Then they find the same
assignments in it, and all that systemd honours in a unit that is not refused was allowed. -/
theorem readsAsSystemd_iff (text : Str) (h : text.any isControl = false) :
    (ReadsAsSystemd text ↔ endsInside text = true ∨ Plain text) ∧
      (ReadsAsSystemd text → ∀ lines, logicalLines text = .ok lines →
        directivesOf [] lines = systemdDirectives text) ∧
      (ReadsAsSystemd text → ∀ name policy, validateUnit name text policy = some [] →
        ∃ suffix, suffixOf name = some suffix ∧
          ∀ a ∈ systemdDirectives text, Allowed suffix policy a) := by
  -- The two readers have the same directives.
  have hsame : ReadsAsSystemd text → ∀ lines, logicalLines text = .ok lines →
      directivesOf [] lines = systemdDirectives text := by
    intro hreads lines hlines
    rw [directivesOf_eq, (hreads lines hlines).2]
    rfl
  refine ⟨plain_iff h, hsame, fun hreads name policy haccepted => ?_⟩
  obtain ⟨suffix, lines, hsuffix, -, hlines, hallowed⟩ := validateUnit_allowed haccepted
  rw [hsame hreads lines hlines] at hallowed
  exact ⟨suffix, hsuffix, hallowed⟩

/-- A policy that grants one user and one program. -/
def appPolicy : RootPolicy where
  project := "app".toList
  scaffoldDir := "/opt/app".toList
  users := ["app".toList]
  groups := []
  execPrefixes := ["/usr/bin/app".toList]
  readPaths := []
  directories := []

/-- A unit that both read the same: a command that goes on in a second line. -/
def appUnit : Str := "[Service]\nUser=app\nExecStart=/usr/bin/app \\\n  --serve\n".toList

set_option maxRecDepth 100000 in
/-- The application's unit is read as systemd reads it, and everything in it is allowed. -/
theorem readsAsSystemd_appUnit : ReadsAsSystemd appUnit ∧
    ∃ suffix, suffixOf "app.service".toList = some suffix ∧
      ∀ a ∈ systemdDirectives appUnit, Allowed suffix appPolicy a := by
  have hreads : ReadsAsSystemd appUnit := by
    have hlogical : logicalLines appUnit = .ok [(1, "[Service]".toList), (2, "User=app".toList),
        (3, "ExecStart=/usr/bin/app --serve".toList)] := by decide
    intro lines hlines
    obtain rfl := Except.ok.inj (hlogical.symm.trans hlines)
    decide
  exact ⟨hreads, (readsAsSystemd_iff appUnit (by decide)).2.2 hreads _ _ (by decide)⟩

/-- A unit with a line that ends in two backslashes. It goes on for the validator, and not for systemd,
which then runs the service as root. -/
def rootUnit : Str :=
  "[Service]\nUser=app\nExecStart=/usr/bin/app \\\\\nUser=root\n".toList

set_option maxRecDepth 100000 in
/-- A unit that runs as root passes when systemd reads another line than the validator. -/
theorem not_readsAsSystemd_rootUnit : rootUnit.any isControl = false ∧
    validateUnit "app.service".toList rootUnit appPolicy = some [] ∧
    unitDirectives rootUnit ≠ systemdDirectives rootUnit ∧
    ("Service".toList, "User".toList, "root".toList) ∈ systemdDirectives rootUnit ∧
    ¬Allowed .service appPolicy ("Service".toList, "User".toList, "root".toList) := by
  refine ⟨by decide, by decide, by decide, by decide, ?_⟩
  rintro ⟨directives, kind, hdirectives, hkind, hvalue⟩
  have hservice : lookup (sections .service) "Service".toList = some serviceSection := by
    decide
  obtain rfl := Option.some.inj (hservice.symm.trans hdirectives)
  have huser : lookup serviceSection "User".toList = some Kind.user := by decide
  obtain rfl := Option.some.inj (huser.symm.trans hkind)
  exact absurd hvalue (by decide)

end Fraisier.Unit
