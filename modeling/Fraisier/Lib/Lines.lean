import Fraisier.Lib.Text

/-!
# Lines of a text

`str.splitlines` on a text that is put together: a break ends a line, whatever comes before it
(`splitlines_append`), so what stands between two breaks is a line (`mem_splitlines`).
-/

namespace Fraisier.Lib

namespace Str

variable {c : Char} {a b s t line : Str}

/-- What is said of every character of a text, looked up in the text and not among all
characters. -/
theorem forall_of_all {p : Char → Prop} [DecidablePred p] (h : s.all (fun c => decide (p c)) = true) :
    ∀ c ∈ s, p c := by
  simpa using h

/-- What holds of all of an option holds of its member. -/
theorem forall_of_option_all {p : Char → Prop} [DecidablePred p] {o : Option Char}
    (h : o.all (fun c => decide (p c)) = true) : ∀ c ∈ o, p c := by
  rintro c rfl
  simpa using h

/-- The newlines of a text file, as `open` translates them. -/
def universalNewlines : Str → Str
  | [] => []
  | '\r' :: '\n' :: s => '\n' :: universalNewlines s
  | c :: s => (if c = '\r' then '\n' else c) :: universalNewlines s

/-- What stands after the last break. -/
def lastLine (s : Str) : Str := s.rtakeWhile (!isLineBreak ·)

/-- What stands before the first break. -/
def firstLine (s : Str) : Str := s.takeWhile (!isLineBreak ·)

/-- A line break is a space. -/
theorem isSpace_of_isLineBreak (h : isLineBreak c = true) : isSpace c = true := by
  simp only [isSpace, isLineBreak, inRanges, List.any_cons, List.any_nil, Bool.or_false,
    Bool.or_eq_true, Bool.and_eq_true, decide_eq_true_eq] at h ⊢
  omega

/-- A last line holds no break. -/
theorem lastLine_noBreak (s : Str) : ∀ c ∈ lastLine s, isLineBreak c = false := fun c hc => by
  simpa using List.mem_rtakeWhile_imp hc

/-- A first line holds no break. -/
theorem firstLine_noBreak (s : Str) : ∀ c ∈ firstLine s, isLineBreak c = false := fun c hc => by
  simpa using List.mem_takeWhile_imp hc

/-- A text is its last line after nothing, or after a break. -/
theorem exists_lastLine (s : Str) :
    ∃ a, a ++ lastLine s = s ∧ ∀ c ∈ a.getLast?, isLineBreak c = true := by
  refine ⟨s.rdropWhile (!isLineBreak ·), List.rdropWhile_append_rtakeWhile .., fun c hc => ?_⟩
  have hne : s.rdropWhile (!isLineBreak ·) ≠ [] := by
    intro h
    simp [h] at hc
  rw [List.getLast?_eq_some_getLast hne, Option.mem_def, Option.some.injEq] at hc
  simpa [hc] using List.rdropWhile_last_not _ s hne

/-- A text is its first line before nothing, or before a break. -/
theorem exists_firstLine (s : Str) :
    ∃ b, firstLine s ++ b = s ∧ ∀ c ∈ b.head?, isLineBreak c = true := by
  refine ⟨s.dropWhile (!isLineBreak ·), List.takeWhile_append_dropWhile, fun c hc => ?_⟩
  have h := List.head?_dropWhile_not (!isLineBreak ·) s
  rw [Option.mem_def.mp hc] at h
  simpa using h

/-! ## One character -/

/-- A break ends a line, unless a newline makes it one break with what follows. -/
theorem splitlines_break (hc : isLineBreak c = true) (h : c = '\r' → s.head? ≠ some '\n') :
    splitlines (c :: s) = [] :: splitlines s := by
  rw [splitlines]
  · rw [if_pos hc]
  · rintro s' rfl rfl
    exact h rfl rfl

/-- A carriage return and a newline end one line. -/
theorem splitlines_crlf : splitlines ('\r' :: '\n' :: s) = [] :: splitlines s := rfl

/-- Another character continues the line. -/
theorem splitlines_char (hc : isLineBreak c = false) :
    splitlines (c :: s) = match splitlines s with
      | [] => [[c]]
      | line :: lines => (c :: line) :: lines := by
  have hcr : c ≠ '\r' := by
    rintro rfl
    simp [isLineBreak, inRanges] at hc
  have hchar : splitlines (c :: s) = if isLineBreak c then [] :: splitlines s
      else match splitlines s with
        | [] => [[c]]
        | line :: lines => (c :: line) :: lines :=
    splitlines.eq_3 c s fun _ h _ => hcr h
  rw [hchar, if_neg (by simp [hc])]

/-- A text that is not empty has a line. -/
theorem splitlines_ne_nil : splitlines (c :: s) ≠ [] := by
  cases hc : isLineBreak c with
  | false =>
    rw [splitlines_char hc]
    split <;> simp
  | true =>
    by_cases h : c = '\r' ∧ s.head? = some '\n'
    · obtain ⟨rfl, hs⟩ := h
      obtain ⟨s', rfl⟩ := List.head?_eq_some_iff.mp hs
      simp [splitlines_crlf]
    · rw [splitlines_break hc fun hcr hs => h ⟨hcr, hs⟩]
      simp

/-- Translating the newlines leaves the lines as they are. -/
theorem splitlines_universalNewlines (s : Str) :
    splitlines (universalNewlines s) = splitlines s := by
  -- The cases are those of the translation.
  fun_induction universalNewlines s with
  | case1 => rfl
  | case2 s ih =>
    rw [splitlines_break (by decide) (by simp), ih, splitlines_crlf]
  | case3 c s h ih =>
    by_cases hcr : c = '\r'
    · subst hcr
      have hs : s.head? ≠ some '\n' := by
        intro hs
        obtain ⟨s', rfl⟩ := List.head?_eq_some_iff.mp hs
        exact h s' rfl rfl
      rw [if_pos rfl, splitlines_break (by decide) (by simp), splitlines_break (by decide)
        fun _ => hs, ih]
    · rw [if_neg hcr]
      cases hc : isLineBreak c with
      | true => rw [splitlines_break hc (by simp [hcr]), splitlines_break hc (by simp [hcr]), ih]
      | false => rw [splitlines_char hc, splitlines_char hc, ih]

/-! ## Lines of a text put together -/

/-- The lines up to a break and those after it. -/
theorem splitlines_append (hc : isLineBreak c = true) (h : c = '\r' → t.head? ≠ some '\n') :
    splitlines (a ++ c :: t) = splitlines (a ++ [c]) ++ splitlines t := by
  -- a character that is no break goes to the first line of what follows it
  have hchar : ∀ d a, isLineBreak d = false →
      splitlines (a ++ c :: t) = splitlines (a ++ [c]) ++ splitlines t →
        splitlines (d :: (a ++ c :: t)) = splitlines (d :: (a ++ [c])) ++ splitlines t := by
    intro d a hd ih
    rw [splitlines_char hd, splitlines_char hd, ih]
    cases hlines : splitlines (a ++ [c]) with
    | nil =>
      cases a with
      | nil => exact absurd hlines splitlines_ne_nil
      | cons e a => exact absurd hlines splitlines_ne_nil
    | cons line lines => rfl
  induction a using splitlines.induct with
  | case1 =>
    rw [List.nil_append, List.nil_append, splitlines_break hc h, splitlines_break hc (by simp)]
    rfl
  | case2 a ih => simp only [List.cons_append, splitlines_crlf, ih]
  | case3 d a hnot hd ih =>
    by_cases hcrlf : d = '\r' ∧ a = [] ∧ c = '\n'
    · obtain ⟨rfl, rfl, rfl⟩ := hcrlf
      rfl
    · have hhead : ∀ u, d = '\r' → (a ++ c :: u).head? ≠ some '\n' := by
        intro u hcr hhead
        cases a with
        | nil => exact hcrlf ⟨hcr, rfl, by simpa using hhead⟩
        | cons e a =>
          obtain rfl : e = '\n' := by simpa using hhead
          exact hnot a hcr rfl
      rw [List.cons_append, List.cons_append, splitlines_break hd (hhead t),
        splitlines_break hd (hhead []), ih, List.cons_append]
  | case4 d a hnot hd _ ih => exact hchar d a (by simpa using hd) ih
  | case5 d a hnot hd _ _ _ ih => exact hchar d a (by simpa using hd) ih

/-- A line that is not empty comes first, before a break or at the end. -/
theorem splitlines_line (hline : ∀ d ∈ line, isLineBreak d = false) (hne : line ≠ [])
    (hb : ∀ d ∈ b.head?, isLineBreak d = true) :
    splitlines (line ++ b) = line :: (splitlines b).tail := by
  -- What follows is nothing, or begins with a break.
  have hbreak : splitlines b = [] ∨ ∃ lines, splitlines b = [] :: lines := by
    cases b with
    | nil => exact .inl rfl
    | cons d b =>
      have hd : isLineBreak d = true := hb d rfl
      by_cases h : d = '\r' ∧ b.head? = some '\n'
      · obtain ⟨rfl, hs⟩ := h
        obtain ⟨s', rfl⟩ := List.head?_eq_some_iff.mp hs
        exact .inr ⟨_, splitlines_crlf⟩
      · exact .inr ⟨_, splitlines_break hd fun hcr hs => h ⟨hcr, hs⟩⟩
  -- Induction on the line, which holds no break.
  induction line with
  | nil => exact absurd rfl hne
  | cons d line ih =>
    have hd := hline d List.mem_cons_self
    rw [List.cons_append, splitlines_char hd]
    cases line with
    | nil => obtain h | ⟨lines, h⟩ := hbreak <;> simp [h]
    | cons e line => rw [ih (fun f hf => hline f (List.mem_cons_of_mem d hf)) (by simp)]

/-- A line and the newline that ends it come first. -/
theorem splitlines_newline (h : ∀ d ∈ line, isLineBreak d = false) (s : Str) :
    splitlines (line ++ '\n' :: s) = line :: splitlines s := by
  rw [splitlines_append (by decide) (by simp)]
  cases line with
  | nil => rfl
  | cons d line =>
    rw [splitlines_line h (List.cons_ne_nil d line) (by simp [isLineBreak, inRanges])]
    rfl

/-- The lines of a text that is written line by line. -/
theorem splitlines_flatMap {lines : List Str}
    (h : ∀ line ∈ lines, ∀ d ∈ line, isLineBreak d = false) :
    splitlines (lines.flatMap (· ++ ['\n'])) = lines := by
  induction lines with
  | nil => rfl
  | cons line lines ih =>
    rw [List.flatMap_cons, List.append_assoc, List.singleton_append,
      splitlines_newline (h line List.mem_cons_self),
      ih fun l hl => h l (List.mem_cons_of_mem line hl)]

/-- What stands between two breaks is a line. -/
theorem mem_splitlines (ha : ∀ d ∈ a.getLast?, isLineBreak d = true)
    (hline : ∀ d ∈ line, isLineBreak d = false) (hne : line ≠ [])
    (hb : ∀ d ∈ b.head?, isLineBreak d = true) : line ∈ splitlines (a ++ line ++ b) := by
  have hfirst : line ∈ splitlines (line ++ b) := by
    rw [splitlines_line hline hne hb]
    exact List.mem_cons_self
  -- The line is the first, or stands after a break.
  cases h : a.getLast? with
  | none =>
    rw [List.getLast?_eq_none_iff.mp h]
    exact hfirst
  | some c =>
    obtain ⟨a, rfl⟩ := List.getLast?_eq_some_iff.mp h
    have hhead : (line ++ b).head? ≠ some '\n' := by
      cases line with
      | nil => exact absurd rfl hne
      | cons d line =>
        intro hd
        obtain rfl : d = '\n' := by simpa using hd
        exact absurd (hline '\n' List.mem_cons_self) (by decide)
    rw [List.append_assoc, List.append_assoc, List.singleton_append,
      splitlines_append (ha c h) fun _ => hhead]
    exact List.mem_append_right _ hfirst

end Str

end Fraisier.Lib
