import Fraisier.Lib.Text

/-!
# Components of a path

The parts of a `PurePosixPath` as the components between slashes, less those that are empty or a
dot, and the last of them as the basename.
-/

namespace Fraisier.Lib

namespace Str

variable {c : Char} {s t u w : Str}

/-- A component that a path keeps. -/
def Kept (s : Str) : Prop := s ≠ [] ∧ s ≠ ['.']

instance : Decidable (Kept s) := inferInstanceAs (Decidable (_ ∧ _))

/-- The components of a relative path. -/
def components (t : Str) : List Str := (t.splitOn '/').filter fun p => p ≠ [] ∧ p ≠ ['.']

/-- A name that is kept is its own only component. -/
theorem components_single (h : '/' ∉ t) (hkept : Kept t) : components t = [t] := by
  rw [components, List.splitOn_eq_singleton h]
  simp [hkept.1, hkept.2]

/-- The components of two texts with a slash between them are those of each. -/
theorem components_append (s t : Str) :
    components (s ++ '/' :: t) = components s ++ components t := by
  rw [components, List.splitOn_append_cons_self, List.filter_append]
  rfl

/-- A text is its basename after nothing, or after a slash. -/
theorem exists_basename (s : Str) : '/' ∉ basename s ∧
    (s = basename s ∨ ∃ d, s = d ++ '/' :: basename s) := by
  refine ⟨fun h => by simpa using List.mem_rtakeWhile_imp h, ?_⟩
  have hsplit : s.rdropWhile (· ≠ '/') ++ basename s = s := List.rdropWhile_append_rtakeWhile ..
  -- What stands before the basename is nothing, or ends with a slash.
  cases hlast : (s.rdropWhile (· ≠ '/')).getLast? with
  | none =>
    rw [List.getLast?_eq_none_iff.mp hlast] at hsplit
    exact .inl hsplit.symm
  | some c =>
    obtain ⟨d, hd⟩ := List.getLast?_eq_some_iff.mp hlast
    have hne : s.rdropWhile (· ≠ '/') ≠ [] := by
      rw [hd]
      exact List.append_ne_nil_of_right_ne_nil _ (List.cons_ne_nil _ _)
    have hnot := List.rdropWhile_last_not (· ≠ '/') s hne
    simp only [hd, List.getLast_append_singleton] at hnot
    obtain rfl : c = '/' := by simpa using hnot
    refine .inr ⟨d, ?_⟩
    rw [hd, List.append_assoc, List.singleton_append] at hsplit
    exact hsplit.symm

/-- The last component is the basename. -/
theorem getLast?_components (h : Kept (basename t)) :
    (components t).getLast? = some (basename t) := by
  obtain ⟨hslash, heq | ⟨d, hd⟩⟩ := exists_basename t
  · rw [← heq] at h hslash ⊢
    rw [components_single hslash h]
    rfl
  · conv_lhs => rw [hd, components_append, components_single hslash h]
    simp

/-- The text before the first slash is a component. -/
theorem firstComponent_mem (h : Kept (t.takeWhile (· ≠ '/'))) :
    t.takeWhile (· ≠ '/') ∈ components t := by
  have hslash : '/' ∉ t.takeWhile (· ≠ '/') := fun hmem => by
    simpa using List.mem_takeWhile_imp hmem
  have hsplit : t.takeWhile (· ≠ '/') ++ t.dropWhile (· ≠ '/') = t :=
    List.takeWhile_append_dropWhile
  -- There may be no slash, and then the text is its only component.
  cases hrest : t.dropWhile (· ≠ '/') with
  | nil =>
    rw [hrest, List.append_nil] at hsplit
    rw [hsplit] at h hslash ⊢
    rw [components_single hslash h]
    exact List.mem_singleton_self t
  | cons c rest =>
    obtain rfl : c = '/' := by
      have hc := List.head?_dropWhile_not (· ≠ '/') t
      rw [hrest] at hc
      simpa using hc
    have hmem : t.takeWhile (· ≠ '/') ∈ components (t.takeWhile (· ≠ '/') ++ '/' :: rest) := by
      rw [components_append, components_single hslash h]
      exact List.mem_append_left _ (List.mem_singleton_self _)
    rwa [← hrest, hsplit] at hmem

/-- A text without a slash goes on with the base name. -/
theorem basename_append (hw : '/' ∉ w) : basename (u ++ w) = basename u ++ w := by
  have hall : ∀ c ∈ w.reverse, decide (c ≠ '/') = true := by
    intro c hc
    have hmem := List.mem_reverse.mp hc
    simp only [decide_eq_true_eq]
    rintro rfl
    exact hw hmem
  unfold basename List.rtakeWhile
  rw [List.reverse_append, List.takeWhile_append_of_pos hall, List.reverse_append,
    List.reverse_reverse]

/-- A slash ends what counts. -/
theorem basename_append_of_mem (h : '/' ∈ s) (u : Str) : basename (u ++ s) = basename s := by
  obtain ⟨hslash, heq | ⟨d, hd⟩⟩ := exists_basename s
  · exact absurd h (heq ▸ hslash)
  · have hsingle : basename (u ++ d ++ ['/']) = [] := by simp [basename]
    have htail : ∀ x : Str,
        basename (x ++ '/' :: basename s) = basename (x ++ ['/']) ++ basename s := by
      intro x
      rw [← basename_append hslash]
      simp
    calc basename (u ++ s) = basename (u ++ d ++ '/' :: basename s) := by
          conv_lhs => rw [hd]
          rw [List.append_assoc]
      _ = basename s := by rw [htail, hsingle, List.nil_append]

/-- A text without slashes is its own basename. -/
theorem basename_of_notMem (h : '/' ∉ s) : basename s = s := by
  obtain ⟨-, heq | ⟨d, hd⟩⟩ := exists_basename s
  · exact heq.symm
  · exact absurd (by rw [hd]; simp) h

/-- An absolute path. -/
theorem PurePath.of_slash (hc : c ≠ '/') (t : Str) :
    PurePath.of ('/' :: c :: t) = ⟨['/'], components (c :: t)⟩ := by
  simp [PurePath.of, splitRoot, startsWith, components, Ne.symm hc]

/-- A relative path. -/
theorem PurePath.of_relative (ht : t.head? ≠ some '/') :
    PurePath.of t = ⟨[], components t⟩ := by
  cases t with
  | nil => rfl
  | cons c t =>
    have hc : c ≠ '/' := by simpa using ht
    simp [PurePath.of, splitRoot, startsWith, components, Ne.symm hc]

/-- Joining two lists of components puts one more slash between them. -/
theorem intercalate_append {ps qs : List Str} (hps : ps ≠ []) (hqs : qs ≠ []) :
    ['/'].intercalate (ps ++ qs) = ['/'].intercalate ps ++ '/' :: ['/'].intercalate qs := by
  induction ps with
  | nil => exact absurd rfl hps
  | cons p ps ih =>
    rw [List.cons_append, List.intercalate_cons_of_ne_nil (List.append_ne_nil_of_right_ne_nil _ hqs)]
    cases ps with
    | nil => simp
    | cons q ps =>
      rw [ih (List.cons_ne_nil q ps), List.intercalate_cons_cons]
      simp

/-- Two ends of a list of components have the same text only when they are the same. -/
theorem intercalate_inj_of_suffix {w ps qs : List Str} (hp : ps <:+ w) (hq : qs <:+ w) (hps : ps ≠ [])
    (hqs : qs ≠ []) : ['/'].intercalate ps = ['/'].intercalate qs ↔ ps = qs := by
  -- the longer one has a slash more before the text of the other
  have hlonger : ∀ {as bs : List Str}, as <:+ bs → as ≠ [] →
      ['/'].intercalate bs = ['/'].intercalate as → bs = as := by
    rintro as bs ⟨pre, rfl⟩ has h
    by_contra hne
    have hpre : pre ≠ [] := by
      rintro rfl
      exact hne (List.nil_append as)
    rw [intercalate_append hpre has] at h
    have hlength := congrArg List.length h
    simp only [List.length_append, List.length_cons] at hlength
    omega
  constructor
  · intro h
    obtain hsuffix | hsuffix := List.suffix_or_suffix_of_suffix hp hq
    · exact (hlonger hsuffix hps h.symm).symm
    · exact hlonger hsuffix hqs h
  · rintro rfl
    rfl

/-- Components joined by slashes are the components again. -/
theorem components_intercalate {ps : List Str} (hps : ps ≠ []) (hkept : ∀ p ∈ ps, Kept p)
    (hslash : ∀ p ∈ ps, '/' ∉ p) : components (['/'].intercalate ps) = ps := by
  rw [components, List.splitOn_intercalate '/' hslash hps]
  exact List.filter_eq_self.mpr fun p hp => by simpa [Kept] using hkept p hp

/-- The text of a relative path joins its components. -/
theorem PurePath.text_relative {ps : List Str} (hps : ps ≠ []) :
    PurePath.text ⟨[], ps⟩ = ['/'].intercalate ps := by
  simp [PurePath.text, hps]

/-- The text of a relative path is read as the path. -/
theorem PurePath.of_text {ps : List Str} (hps : ps ≠ []) (hkept : ∀ p ∈ ps, Kept p)
    (hslash : ∀ p ∈ ps, '/' ∉ p) : PurePath.of (PurePath.text ⟨[], ps⟩) = ⟨[], ps⟩ := by
  have hhead : (['/'].intercalate ps).head? ≠ some '/' := by
    obtain ⟨p, ps, rfl⟩ := List.exists_cons_of_ne_nil hps
    obtain ⟨c, p, rfl⟩ := List.exists_cons_of_ne_nil (hkept p List.mem_cons_self).1
    have hc : '/' ≠ c := List.ne_of_not_mem_cons (hslash _ List.mem_cons_self)
    cases ps <;> simpa using Ne.symm hc
  rw [text_relative hps, of_relative hhead, components_intercalate hps hkept hslash]

end Str

end Fraisier.Lib
