import Fraisier.Lib.Text

/-!
# Stripping

What is left of a text when the characters of a set are stripped from both its ends (`stripBy_eq`),
and what is in it.
-/

namespace Fraisier.Lib

namespace Str

variable {p p' : Char → Bool} {s a b q r : Str} {c : Char}

/-- What is stripped does not begin with a blank. -/
theorem stripBy_head (h : stripBy p s = c :: r) : p c = false := by
  obtain ⟨t, ht⟩ : stripBy p s <+: s.dropWhile p := List.rdropWhile_prefix p _
  have hdrop : s.dropWhile p = c :: (r ++ t) := by rw [← ht, h, List.cons_append]
  have hhead := List.head?_dropWhile_not p s
  rw [hdrop] at hhead
  simpa using hhead

/-- What is stripped does not end with a blank. -/
theorem stripBy_last (h : stripBy p s = r ++ [c]) : p c = false := by
  by_contra hc
  have hfix : (r ++ [c]).rdropWhile p = r ++ [c] := h ▸ List.rdropWhile_idempotent p _
  rw [List.rdropWhile_concat_pos p r c (by simpa using hc)] at hfix
  have hlength := (List.rdropWhile_prefix p r).length_le
  rw [hfix, List.length_append, List.length_singleton] at hlength
  omega

/-- What is stripped from a text. -/
theorem stripBy_split (p : Char → Bool) (s : Str) :
    ∃ a b, s = a ++ (stripBy p s ++ b) ∧ (∀ c ∈ a, p c = true) ∧ ∀ c ∈ b, p c = true := by
  refine ⟨s.takeWhile p, (s.dropWhile p).rtakeWhile p, ?_, fun c => List.mem_takeWhile_imp,
    fun c => List.mem_rtakeWhile_imp⟩
  have hright : stripBy p s ++ (s.dropWhile p).rtakeWhile p = s.dropWhile p :=
    List.rdropWhile_append_rtakeWhile
  rw [hright, List.takeWhile_append_dropWhile]

/-- A character that is not stripped stays the first. -/
theorem stripBy_cons (hc : p c = false) (r : Str) : ∃ r', stripBy p (c :: r) = c :: r' := by
  have hnot : ¬p c = true := by rw [hc]; exact Bool.false_ne_true
  unfold stripBy
  rw [List.dropWhile_cons_of_neg hnot]
  obtain ⟨t, ht⟩ := List.rdropWhile_prefix p (c :: r)
  cases hq : (c :: r).rdropWhile p with
  | nil => exact absurd (List.rdropWhile_eq_nil_iff.mp hq c List.mem_cons_self) hnot
  | cons c' r' =>
    rw [hq, List.cons_append] at ht
    exact ⟨r', by rw [(List.cons.inj ht).1]⟩

/-- A text between characters that are stripped, which has none of them at its ends. -/
theorem stripBy_eq (ha : ∀ c ∈ a, p c = true) (hb : ∀ c ∈ b, p c = true)
    (hhead : ∀ c r, q = c :: r → p c = false) (hlast : ∀ c r, q = r ++ [c] → p c = false) :
    stripBy p (a ++ (q ++ b)) = q := by
  unfold stripBy
  rw [List.dropWhile_append_of_pos ha]
  -- Where nothing is left, both ends have taken all.
  cases q with
  | nil => rw [List.nil_append, List.dropWhile_eq_nil_iff.mpr hb, List.rdropWhile_nil]
  | cons c r =>
    rw [List.cons_append, List.dropWhile_cons_of_neg (by rw [hhead c r rfl]; exact Bool.false_ne_true),
      ← List.cons_append]
    unfold List.rdropWhile
    rw [List.reverse_append, List.dropWhile_append_of_pos fun c hc => hb c (List.mem_reverse.mp hc)]
    obtain ⟨r', c', hq⟩ := List.eq_nil_or_concat (c :: r) |>.resolve_left (List.cons_ne_nil c r)
    rw [List.concat_eq_append] at hq
    rw [hq, List.reverse_append, List.reverse_singleton, List.singleton_append,
      List.dropWhile_cons_of_neg (by rw [hlast c' r' hq]; exact Bool.false_ne_true),
      List.reverse_cons, List.reverse_reverse]

/-- Only blanks are stripped to nothing. -/
theorem stripBy_eq_nil_iff : stripBy p s = [] ↔ ∀ c ∈ s, p c = true := by
  constructor
  · intro h
    obtain ⟨a, b, hs, ha, hb⟩ := stripBy_split p s
    rw [h, List.nil_append] at hs
    rw [hs]
    exact fun c hc => (List.mem_append.mp hc).elim (ha c) (hb c)
  · intro h
    have := stripBy_eq (q := []) (b := []) h nofun nofun fun c r hr => absurd hr (by simp)
    simpa using this

/-- Stripping fewer characters first changes nothing. -/
theorem stripBy_stripBy (hp : ∀ c, p' c = true → p c = true) (s : Str) :
    stripBy p (stripBy p' s) = stripBy p s := by
  obtain ⟨a, b, hs, ha, hb⟩ := stripBy_split p' s
  obtain ⟨a', b', hs', ha', hb'⟩ := stripBy_split p (stripBy p' s)
  have hsplit : s = a ++ a' ++ (stripBy p (stripBy p' s) ++ (b' ++ b)) := by
    conv_lhs => rw [hs, hs']
    simp only [List.append_assoc]
  conv_rhs => rw [hsplit]
  refine (stripBy_eq ?_ ?_ (fun c r => stripBy_head) fun c r => stripBy_last).symm
  · exact fun c hc => (List.mem_append.mp hc).elim (fun h => hp c (ha c h)) (ha' c)
  · exact fun c hc => (List.mem_append.mp hc).elim (hb' c) fun h => hp c (hb c h)

/-- A character that is not stripped is still there. -/
theorem mem_stripBy (hc : p c = false) (h : c ∈ s) : c ∈ stripBy p s := by
  obtain ⟨a, b, hs, ha, hb⟩ := stripBy_split p s
  rw [hs, List.mem_append, List.mem_append] at h
  rcases h with h | h | h
  · simp [ha c h] at hc
  · exact h
  · simp [hb c h] at hc

end Str

end Fraisier.Lib
