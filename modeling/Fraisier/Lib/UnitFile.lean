import Fraisier.Lib.Shlex
import Fraisier.Lib.Strip

/-!
# Lines of unit files

A unit file is read line by line: comments are dropped, and a line may go on in the next one. Two
readers can differ in the characters they strip and in the lines they take to go on (`Dialect`).
`logical_eq_iff` says when a reader that strips more, and that takes more lines to go on, reads the
same logical lines as another: exactly when it treats every line alike. A line that it does not
treat alike cannot be made up for by what follows.
-/

namespace Fraisier.Lib

/-! ## Readers -/

open Str

/-- How a reader of unit files takes its lines. -/
structure Dialect where
  /-- The characters that are stripped. -/
  blank : Char → Bool
  /-- The lines that go on in the next one. -/
  continues : Str → Bool

/-- A comment, of a line without leading blanks. -/
def isComment (stripped : Str) : Bool := stripped.head? == some '#' || stripped.head? == some ';'

/-- The pieces of a logical line. -/
def joined (pieces : List Str) : Str := List.intercalate [' '] pieces

namespace Dialect

/-- A line without the blanks at its ends. -/
def strip (d : Dialect) (line : Str) : Str := stripBy d.blank line

/-- What a line gives to its logical line: a backslash at the end only says that it goes on. -/
def piece (d : Dialect) (line : Str) : Str :=
  d.strip (if d.continues line then line.dropLast else line)

/-- The logical lines, after the pieces of one that goes on. -/
def logical (d : Dialect) : List Str → List Str → List Str
  | pending, [] => if pending = [] then [] else [joined pending]
  | pending, line :: rest =>
    if isComment (d.strip line) then d.logical pending rest
    else if pending = [] ∧ d.strip line = [] then d.logical [] rest
    else if d.continues line then d.logical (pending ++ [d.piece line]) rest
    else joined (pending ++ [d.piece line]) :: d.logical [] rest

variable {d v s : Dialect} {pending lines rest : List Str} {line q w z : Str} {c : Char}

/-- A comment is left out of a logical line. -/
theorem logical_comment (h : isComment (d.strip line) = true) :
    d.logical pending (line :: rest) = d.logical pending rest := by
  rw [logical, if_pos h]

/-- A blank line is left out between logical lines. -/
theorem logical_blank (h : d.strip line = []) :
    d.logical [] (line :: rest) = d.logical [] rest := by
  rw [logical, if_neg (by rw [h]; exact Bool.false_ne_true), if_pos ⟨rfl, h⟩]

/-- A continued line is kept for the next. -/
theorem logical_continued (hcomment : ¬isComment (d.strip line) = true)
    (hblank : ¬(pending = [] ∧ d.strip line = [])) (h : d.continues line = true) :
    d.logical pending (line :: rest) = d.logical (pending ++ [d.piece line]) rest := by
  rw [logical, if_neg hcomment, if_neg hblank, if_pos h]

/-- A line that ends is joined to those kept before it. -/
theorem logical_ended (hcomment : ¬isComment (d.strip line) = true)
    (hblank : ¬(pending = [] ∧ d.strip line = [])) (h : d.continues line = false) :
    d.logical pending (line :: rest) = joined (pending ++ [d.piece line]) :: d.logical [] rest := by
  rw [logical, if_neg hcomment, if_neg hblank, if_neg (by rw [h]; exact Bool.false_ne_true)]

/-! ## The first logical line -/

/-- The text begins with spaces, as far as it begins with blanks. -/
def Spaced (d : Dialect) (w : Str) : Prop := ∀ c ∈ w.takeWhile d.blank, c = ' '

/-- What may follow the pieces of a logical line that has begun. -/
def Follows (d : Dialect) (z : Str) : Prop := z = [] ∨ ∃ w, z = ' ' :: w ∧ d.Spaced w

/-- What may follow begins with spaces, as far as it begins with blanks. -/
theorem Follows.spaced (hz : d.Follows z) : d.Spaced z := by
  rcases hz with rfl | ⟨w, rfl, hw⟩
  · exact nofun
  · intro c hc
    rw [List.takeWhile_cons] at hc
    split_ifs at hc
    · rcases List.mem_cons.mp hc with rfl | hc
      · rfl
      · exact hw c hc
    · exact absurd hc List.not_mem_nil

/-- A stripped text has no blank to begin with. -/
theorem spaced_strip (line : Str) (hz : d.Follows z) : d.Spaced (d.strip line ++ z) := by
  cases hq : d.strip line with
  | nil => exact hz.spaced
  | cons c r =>
    have hc : d.blank c = false := stripBy_head hq
    intro c' hc'
    rw [List.cons_append, List.takeWhile_cons_of_neg (by rw [hc]; exact Bool.false_ne_true)] at hc'
    exact absurd hc' List.not_mem_nil

/-- One more piece is joined with a blank. -/
theorem joined_snoc (hne : pending ≠ []) (q : Str) :
    joined (pending ++ [q]) = joined pending ++ ' ' :: q := by
  induction pending with
  | nil => exact absurd rfl hne
  | cons p rest ih =>
    cases rest with
    | nil => simp [joined, List.intercalate]
    | cons p' rest =>
      have := ih (List.cons_ne_nil p' rest)
      simp only [joined, List.intercalate, List.cons_append, List.intersperse_cons_cons,
        List.flatten_cons, List.append_assoc] at this ⊢
      rw [this]

/-- One piece is joined to itself. -/
theorem joined_singleton (q : Str) : joined [q] = q := by simp [joined, List.intercalate]

/-- A logical line that has begun is the first one that is read. -/
theorem logical_head (hne : pending ≠ []) (lines : List Str) :
    ∃ z, (d.logical pending lines).head? = some (joined pending ++ z) ∧ d.Follows z := by
  -- Induction on the lines: the first that ends the logical one, or the last.
  induction lines generalizing pending with
  | nil =>
    refine ⟨[], ?_, .inl rfl⟩
    rw [logical, if_neg hne, List.append_nil]
    rfl
  | cons line rest ih =>
    rw [logical]
    split_ifs with hcomment hblank hcontinues
    · exact ih hne
    · exact absurd hblank.1 hne
    · obtain ⟨z, hz, hfollows⟩ := ih (List.append_ne_nil_of_right_ne_nil pending (List.cons_ne_nil (d.piece line) []))
      refine ⟨' ' :: (d.piece line ++ z), ?_, .inr ⟨_, rfl, spaced_strip _ hfollows⟩⟩
      rw [hz, joined_snoc hne, List.append_assoc, List.cons_append]
    · refine ⟨' ' :: d.piece line, ?_, .inr ⟨_, rfl, ?_⟩⟩
      · rw [joined_snoc hne]
        rfl
      · have := spaced_strip (d := d) (if d.continues line then line.dropLast else line) (.inl rfl)
        rwa [List.append_nil] at this

/-- No logical line begins with a blank other than a space. -/
theorem logical_nil_head (lines : List Str) :
    ∀ first, (d.logical [] lines).head? = some first → d.Spaced first := by
  induction lines with
  | nil => exact nofun
  | cons line rest ih =>
    intro first hfirst
    rw [logical] at hfirst
    -- A comment and a blank line begin no logical line.
    split_ifs at hfirst with hcomment hblank hcontinues
    · exact ih first hfirst
    · exact ih first hfirst
    · obtain ⟨z, hz, hfollows⟩ := logical_head (d := d) (List.cons_ne_nil (d.piece line) []) rest
      rw [List.nil_append, hz, joined_singleton] at hfirst
      rw [← Option.some.inj hfirst]
      exact spaced_strip _ hfollows
    · rw [List.nil_append, joined_singleton] at hfirst
      rw [← Option.some.inj hfirst, ← List.append_nil (d.piece line)]
      exact spaced_strip _ (.inl rfl)

/-! ## Two readers -/

/-- `v` strips more than `s`, and takes more lines to go on: those that end in a backslash, of which
`s` leaves out lines that end in more than one. -/
structure Coarser (v s : Dialect) : Prop where
  blank : ∀ c, s.blank c = true → v.blank c = true
  space : s.blank ' ' = true
  hash : v.blank '#' = false
  semicolon : v.blank ';' = false
  backslash : v.blank '\\' = false
  ends : ∀ line, v.continues line = true ↔ ∃ x, line = x ++ ['\\']
  fewer : ∀ line, s.continues line = true → v.continues line = true
  pairs : ∀ x, s.continues (x ++ ['\\']) = false → ∃ y, x = y ++ ['\\']

/-- The readers take the line for the same: a comment, or a piece that goes on or not. -/
def Alike (v s : Dialect) (line : Str) : Prop :=
  isComment (s.strip line) = true ∨ v.continues line = s.continues line ∧ v.piece line = s.piece line

/-- A backslash is no blank. -/
theorem Coarser.notBlank_backslash (h : Coarser v s) : s.blank '\\' = false := by
  by_contra hb
  exact absurd (h.blank _ (by simpa using hb)) (by rw [h.backslash]; exact Bool.false_ne_true)

/-- Where `s` strips all that `v` strips on the left, `v` strips more on the right at most. -/
theorem Coarser.strip_split (h : Coarser v s) {x : Str}
    (hhead : ∀ c r, s.strip x = c :: r → v.blank c = false) :
    ∃ t, s.strip x = v.strip x ++ t ∧ ∀ c ∈ t, v.blank c = true := by
  obtain ⟨a, b, hsplit, ha, hb⟩ := stripBy_split v.blank (s.strip x)
  have hv : stripBy v.blank (s.strip x) = v.strip x := stripBy_stripBy h.blank x
  rw [hv] at hsplit
  cases a with
  | nil => exact ⟨b, hsplit, hb⟩
  | cons c a =>
    have hc := hhead c (a ++ (v.strip x ++ b)) (by rw [hsplit, List.cons_append])
    exact absurd (ha c List.mem_cons_self) (by rw [hc]; exact Bool.false_ne_true)

/-- A character that neither strips is the first of both. -/
theorem Coarser.strip_head (h : Coarser v s) {r : Str} (hs : s.strip line = c :: r)
    (hc : v.blank c = false) : ∃ r', v.strip line = c :: r' := by
  obtain ⟨t, ht, hblank⟩ := h.strip_split fun c' r' h' => by
    rw [← (List.cons.inj (hs.symm.trans h')).1]
    exact hc
  rw [hs] at ht
  cases hv : v.strip line with
  | nil =>
    rw [hv, List.nil_append] at ht
    exact absurd (hblank c (ht ▸ List.mem_cons_self)) (by rw [hc]; exact Bool.false_ne_true)
  | cons c' r' =>
    rw [hv, List.cons_append] at ht
    exact ⟨r', by rw [(List.cons.inj ht).1]⟩

/-- A line of blanks. -/
theorem Coarser.of_strip_nil (h : Coarser v s) (hs : s.strip line = []) :
    v.strip line = [] ∧ v.continues line = false ∧ s.continues line = false := by
  have hblank := stripBy_eq_nil_iff.mp hs
  have hv : v.continues line = false := by
    by_contra hv
    obtain ⟨x, hx⟩ := (h.ends line).mp (by simpa using hv)
    have := hblank '\\' (by rw [hx]; simp)
    rw [h.notBlank_backslash] at this
    exact Bool.false_ne_true this
  refine ⟨stripBy_eq_nil_iff.mpr fun c hc => h.blank c (hblank c hc), hv, ?_⟩
  by_contra hs'
  exact Bool.false_ne_true (hv ▸ h.fewer line (by simpa using hs'))

/-- A backslash after a text stays, and with it what was stripped before it. -/
theorem strip_concat (hd : d.blank '\\' = false) (x : Str) : ∃ a b, x = a ++ (d.strip x ++ b) ∧
    (∀ c ∈ b, d.blank c = true) ∧ d.strip (x ++ ['\\']) = d.strip x ++ (b ++ ['\\']) := by
  -- What ends with a backslash is not stripped at its end.
  have hlast : ∀ w c r, w ++ ['\\'] = r ++ [c] → d.blank c = false := by
    intro w c r h
    obtain ⟨-, hc⟩ := List.append_inj' h rfl
    rw [← List.singleton_inj.mp hc]
    exact hd
  obtain ⟨a, b, hx, ha, hb⟩ := stripBy_split d.blank x
  -- The text is all blanks, or has something to keep.
  cases hq : d.strip x with
  | nil =>
    have hstrip : d.strip (x ++ (['\\'] ++ [])) = ['\\'] := by
      refine stripBy_eq (stripBy_eq_nil_iff.mp hq) nofun (fun c r h => ?_) (hlast [])
      rw [← (List.cons.inj h).1]
      exact hd
    refine ⟨x, [], by simp, nofun, ?_⟩
    rwa [List.append_nil] at hstrip
  | cons c r =>
    have hq' : stripBy d.blank x = c :: r := hq
    rw [hq'] at hx
    refine ⟨a, b, hx, hb, ?_⟩
    have hstrip : d.strip (a ++ ((c :: r ++ b ++ ['\\']) ++ [])) = c :: r ++ b ++ ['\\'] := by
      refine stripBy_eq ha nofun (fun c' r' h => ?_) (hlast _)
      rw [List.cons_append, List.cons_append] at h
      rw [← (List.cons.inj h).1]
      exact stripBy_head hq'
    have hline : x ++ ['\\'] = a ++ ((c :: r ++ b ++ ['\\']) ++ []) := by
      conv_lhs => rw [hx]
      simp only [List.append_assoc, List.append_nil]
    rw [hline, hstrip, List.append_assoc]

/-- What comes before a backslash begins as the line does. -/
theorem Coarser.piece_head (h : Coarser v s) {r : Str} (hs : s.strip line = c :: r)
    (hc : c ≠ '\\') : ∃ r', s.piece line = c :: r' := by
  unfold piece
  split_ifs with hcontinues
  · obtain ⟨x, rfl⟩ := (h.ends line).mp (h.fewer line hcontinues)
    rw [List.dropLast_concat]
    -- The coarser dialect strips the line once more, but only at its end.
    obtain ⟨a, b, -, hb, hstrip⟩ := strip_concat h.notBlank_backslash x
    rw [hs] at hstrip
    cases hq : s.strip x with
    | cons c' r' =>
      rw [hq, List.cons_append] at hstrip
      exact ⟨r', by rw [(List.cons.inj hstrip).1]⟩
    | nil =>
      cases b with
      | nil =>
        rw [hq] at hstrip
        exact absurd (List.cons.inj hstrip).1 hc
      | cons c' b =>
        rw [hq] at hstrip
        have hblank := hb c' List.mem_cons_self
        rw [← (List.cons.inj hstrip).1, stripBy_head hs] at hblank
        exact absurd hblank Bool.false_ne_true
  · exact ⟨r, hs⟩

/-- A comment begins with `#` or `;`. -/
theorem isComment_cons {r : Str} : isComment (c :: r) = true ↔ c = '#' ∨ c = ';' := by
  simp [isComment]

/-- What a comment begins with is no blank. -/
theorem Coarser.notBlank_of_comment (h : Coarser v s) {r : Str} (hc : isComment (c :: r) = true) :
    v.blank c = false := by
  rcases isComment_cons.mp hc with rfl | rfl
  · exact h.hash
  · exact h.semicolon

/-- A blank of `v` only, at the beginning of a line, is in the piece of `s` only. -/
theorem Coarser.notBlank_of_alike (h : Coarser v s) {r : Str} (hs : s.strip line = c :: r)
    (hpiece : v.piece line = s.piece line) : v.blank c = false := by
  by_contra hc
  have hbackslash : c ≠ '\\' := by
    rintro rfl
    exact hc h.backslash
  obtain ⟨r', hr'⟩ := h.piece_head hs hbackslash
  exact hc (stripBy_head (hpiece.trans hr'))

/-- A line that both treat alike leaves both with the same to read. -/
theorem Coarser.alike_step (h : Coarser v s) (ha : Alike v s line) (pending : List Str) :
    ∃ next, ∀ rest, v.logical pending (line :: rest) = s.logical pending (line :: rest) ↔
      v.logical next rest = s.logical next rest := by
  -- The line is blank, a comment, or has something on it.
  cases hs : s.strip line with
  | nil =>
    obtain ⟨hv, hvc, hsc⟩ := h.of_strip_nil hs
    refine ⟨[], fun rest => ?_⟩
    by_cases hp : pending = []
    · simp [logical, hv, hs, isComment, hp]
    · simp [logical, hv, hs, isComment, hp, hvc, hsc, piece]
  | cons c r =>
    by_cases hcomment : isComment (s.strip line) = true
    · have hc : v.blank c = false := h.notBlank_of_comment (hs ▸ hcomment)
      obtain ⟨r', hv⟩ := h.strip_head hs hc
      have hvcomment : isComment (v.strip line) = true := by
        rw [hv, isComment_cons, ← isComment_cons (r := r), ← hs]
        exact hcomment
      refine ⟨pending, fun rest => ?_⟩
      rw [logical_comment hvcomment, logical_comment hcomment]
    · obtain ⟨hcontinues, hpiece⟩ := ha.resolve_left hcomment
      have hc := h.notBlank_of_alike hs hpiece
      obtain ⟨r', hv⟩ := h.strip_head hs hc
      have hvcomment : ¬isComment (v.strip line) = true := by
        rw [hv, isComment_cons, ← isComment_cons (r := r), ← hs]
        exact hcomment
      have hvblank : ¬(pending = [] ∧ v.strip line = []) := by rw [hv]; simp
      have hsblank : ¬(pending = [] ∧ s.strip line = []) := by rw [hs]; simp
      cases hsc : s.continues line with
      | true =>
        refine ⟨pending ++ [s.piece line], fun rest => ?_⟩
        rw [logical_continued hvcomment hvblank (hcontinues.trans hsc),
          logical_continued hcomment hsblank hsc, hpiece]
      | false =>
        refine ⟨[], fun rest => ?_⟩
        rw [logical_ended hvcomment hvblank (hcontinues.trans hsc),
          logical_ended hcomment hsblank hsc, hpiece, List.cons_inj_right]

/-- What is put behind the last piece is put behind them all. -/
theorem joined_snoc_append (pending : List Str) (q t : Str) :
    joined (pending ++ [q ++ t]) = joined (pending ++ [q]) ++ t := by
  by_cases hp : pending = []
  · rw [hp, List.nil_append, List.nil_append, joined_singleton, joined_singleton]
  · rw [joined_snoc hp, joined_snoc hp, List.append_assoc, List.cons_append]

/-- The same pieces joined to the same text end with the same piece. -/
theorem joined_snoc_inj {q q' : Str} (h : joined (pending ++ [q]) = joined (pending ++ [q'])) :
    q = q' := by
  have hpieces := joined_snoc_append pending [] q
  rw [List.nil_append] at hpieces
  have hpieces' := joined_snoc_append pending [] q'
  rw [List.nil_append] at hpieces'
  exact List.append_cancel_left (hpieces.symm.trans (h.trans hpieces'))

/-- A blank that only `v` strips, at the beginning of a piece, is not in the first line of `v`. -/
theorem Coarser.not_blank_head (h : Coarser v s) {r : Str} (hs : s.strip line = c :: r)
    (hc : v.blank c = true) : (v.logical pending lines).head? ≠
      some (joined (pending ++ [s.piece line]) ++ z) := by
  intro hz
  -- The blank is no backslash, and no space of the other reader's.
  have hbackslash : c ≠ '\\' := by
    rintro rfl
    exact absurd hc (by rw [h.backslash]; exact Bool.false_ne_true)
  have hspace : c ≠ ' ' := by
    rintro rfl
    exact absurd (stripBy_head hs) (by rw [h.space]; decide)
  obtain ⟨r', hpiece⟩ := h.piece_head hs hbackslash
  have hfirst : ∀ w, v.Spaced (s.piece line ++ w) → False := by
    intro w hw
    refine hspace (hw c ?_)
    rw [hpiece, List.cons_append, List.takeWhile_cons_of_pos hc]
    exact List.mem_cons_self
  -- Nothing is pending, or the piece is joined with a space.
  by_cases hp : pending = []
  · rw [hp, List.nil_append, joined_singleton] at hz
    exact hfirst _ (logical_nil_head lines _ hz)
  · obtain ⟨z', hz', hfollows⟩ := logical_head (d := v) hp lines
    rw [hz', joined_snoc hp, List.append_assoc] at hz
    have hrest := List.append_cancel_left (Option.some.inj hz)
    rcases hfollows with rfl | ⟨w, rfl, hw⟩
    · exact absurd hrest (by simp)
    · rw [List.cons_append] at hrest
      rw [(List.cons.inj hrest).2] at hw
      exact hfirst _ hw

/-- What the coarser reader strips more is blank to it. -/
theorem Coarser.strip_split_before (h : Coarser v s) {x r : Str}
    (hs : s.strip (x ++ ['\\']) = c :: r) (hc : v.blank c = false) :
    ∃ t, s.strip x = v.strip x ++ t ∧ ∀ c ∈ t, v.blank c = true := by
  refine h.strip_split fun c' r' hx => ?_
  obtain ⟨a, b, -, -, hstrip⟩ := strip_concat h.notBlank_backslash x
  rw [hs, hx, List.cons_append] at hstrip
  rw [← (List.cons.inj hstrip).1]
  exact hc

/-- Of two backslashes at the end of a line, `v` takes the last one off. -/
theorem Coarser.strip_pair (h : Coarser v s) {y r : Str}
    (hs : s.strip (y ++ ['\\'] ++ ['\\']) = c :: r) (hc : v.blank c = false) :
    s.strip (y ++ ['\\'] ++ ['\\']) = v.strip (y ++ ['\\']) ++ ['\\'] := by
  obtain ⟨t, ht, hblank⟩ := h.strip_split_before hs hc
  obtain ⟨a, b, hx, hb, hstrip⟩ := strip_concat h.notBlank_backslash (y ++ ['\\'])
  have hlast : ∀ w w' c', y ++ ['\\'] = w ++ (w' ++ [c']) → c' = '\\' := by
    intro w w' c' hsplit
    rw [← List.append_assoc] at hsplit
    exact (List.singleton_inj.mp (List.append_inj' hsplit rfl).2).symm
  -- Nothing that either dialect strips is a backslash.
  have hb' : b = [] := by
    rcases List.eq_nil_or_concat b with rfl | ⟨b, c', rfl⟩
    · rfl
    · rw [List.concat_eq_append] at hx hb
      rw [← List.append_assoc] at hx
      obtain rfl := hlast _ _ _ hx
      exact absurd (hb '\\' (by simp)) (by rw [h.notBlank_backslash]; exact Bool.false_ne_true)
  have ht' : t = [] := by
    rcases List.eq_nil_or_concat t with rfl | ⟨t, c', rfl⟩
    · rfl
    · rw [List.concat_eq_append] at ht hblank
      rw [hb', List.append_nil, ht, ← List.append_assoc] at hx
      obtain rfl := hlast _ _ _ hx
      exact absurd (hblank '\\' (by simp)) (by rw [h.backslash]; exact Bool.false_ne_true)
  rw [hstrip, ht, ht', hb', List.append_nil, List.nil_append]

/-- A line that they do not treat alike shows in the first logical line after it, whatever else
follows. -/
theorem Coarser.not_alike_ne (h : Coarser v s) (ha : ¬Alike v s line) (pending rest : List Str) :
    v.logical pending (line :: rest) ≠ s.logical pending (line :: rest) := by
  intro heq
  unfold Alike at ha
  rw [not_or] at ha
  obtain ⟨hcomment, hdiffers⟩ := ha
  cases hs : s.strip line with
  | nil =>
    obtain ⟨hv, hvc, hsc⟩ := h.of_strip_nil hs
    refine hdiffers ⟨hvc.trans hsc.symm, ?_⟩
    simp [piece, hvc, hsc, hv, hs]
  | cons c r =>
    have hsblank : ¬(pending = [] ∧ s.strip line = []) := by rw [hs]; simp
    -- the first logical line of `s`, from the piece of this line on
    obtain ⟨z, hz⟩ : ∃ z, (s.logical pending (line :: rest)).head? =
        some (joined (pending ++ [s.piece line]) ++ z) := by
      cases hsc : s.continues line with
      | true =>
        obtain ⟨z, hz, -⟩ := logical_head (d := s)
          (List.append_ne_nil_of_right_ne_nil pending (List.cons_ne_nil (s.piece line) [])) rest
        exact ⟨z, by rw [logical_continued hcomment hsblank hsc, hz]⟩
      | false =>
        rw [logical_ended hcomment hsblank hsc]
        exact ⟨[], by rw [List.append_nil]; rfl⟩
    rw [← heq] at hz
    by_cases hc : v.blank c = true
    · exact h.not_blank_head hs hc hz
    have hc : v.blank c = false := by simpa using hc
    obtain ⟨r', hv⟩ := h.strip_head hs hc
    have hvcomment : ¬isComment (v.strip line) = true := by
      rw [hv, isComment_cons, ← isComment_cons (r := r), ← hs]
      exact hcomment
    have hvblank : ¬(pending = [] ∧ v.strip line = []) := by rw [hv]; simp
    cases hvc : v.continues line with
    | false =>
      have hsc : s.continues line = false := by
        by_contra hsc
        exact Bool.false_ne_true (hvc ▸ h.fewer line (by simpa using hsc))
      rw [logical_ended hvcomment hvblank hvc, logical_ended hcomment hsblank hsc] at heq
      exact hdiffers ⟨hvc.trans hsc.symm, joined_snoc_inj (List.cons.inj heq).1⟩
    | true =>
      rw [logical_continued hvcomment hvblank hvc] at hz
      obtain ⟨z', hz', hfollows⟩ := logical_head (d := v)
        (List.append_ne_nil_of_right_ne_nil pending (List.cons_ne_nil (v.piece line) [])) rest
      rw [hz'] at hz
      obtain ⟨x, rfl⟩ := (h.ends line).mp hvc
      have hvpiece : v.piece (x ++ ['\\']) = v.strip x := by
        rw [piece, if_pos hvc, List.dropLast_concat]
      cases hsc : s.continues (x ++ ['\\']) with
      | true =>
        have hspiece : s.piece (x ++ ['\\']) = s.strip x := by
          rw [piece, if_pos hsc, List.dropLast_concat]
        obtain ⟨t, ht, hblank⟩ := h.strip_split_before hs hc
        rw [hvpiece, hspiece, ht, joined_snoc_append, List.append_assoc] at hz
        have hrest := List.append_cancel_left (Option.some.inj hz)
        rcases List.eq_nil_or_concat t with rfl | ⟨t', c', rfl⟩
        · rw [List.append_nil] at ht
          exact hdiffers ⟨hvc.trans hsc.symm, by rw [hvpiece, hspiece, ht]⟩
        · -- the blank that only `v` strips is followed by no space in the line of `v`
          rw [List.concat_eq_append] at ht hrest hblank
          have hc' : s.blank c' = false := stripBy_last (ht.trans (List.append_assoc ..).symm)
          have hspace : c' = ' ' := by
            refine hfollows.spaced c' ?_
            rw [hrest, List.takeWhile_append_of_pos hblank]
            simp
          rw [hspace, h.space] at hc'
          exact absurd hc' (by decide)
      | false =>
        obtain ⟨y, rfl⟩ := h.pairs x hsc
        have hne : ¬s.continues (y ++ ['\\'] ++ ['\\']) = true := by
          rw [hsc]
          exact Bool.false_ne_true
        rw [hvpiece, piece, if_neg hne, h.strip_pair hs hc, joined_snoc_append,
          List.append_assoc] at hz
        -- a backslash cannot follow a piece
        have hrest := List.append_cancel_left (Option.some.inj hz)
        rcases hfollows with rfl | ⟨w, rfl, -⟩
        · exact absurd hrest (by simp)
        · exact absurd (List.cons.inj hrest).1 (by decide)

/-- The two read the same logical lines exactly when they treat every line alike. -/
theorem Coarser.logical_eq_iff (h : Coarser v s) (pending lines : List Str) :
    v.logical pending lines = s.logical pending lines ↔ ∀ line ∈ lines, Alike v s line := by
  induction lines generalizing pending with
  | nil => simp [logical]
  | cons line rest ih =>
    rw [List.forall_mem_cons]
    by_cases ha : Alike v s line
    · obtain ⟨next, hnext⟩ := h.alike_step ha pending
      rw [hnext rest, ih next]
      exact (and_iff_right ha).symm
    · exact iff_of_false (h.not_alike_ne ha pending rest) fun hall => ha hall.1

end Dialect

end Fraisier.Lib
