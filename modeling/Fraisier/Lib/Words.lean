import Fraisier.Lib.Separator
import Fraisier.Lib.Strip

/-!
# The words of a text

`str.split` without a separator and `" ".join`. A blank parts the words of a text (`fields_append`),
so texts that are joined by blanks have their own words one after another (`fields_unwords`), and
words that are joined are read back (`fields_unwords_of_isWord`). A text that is joined from its own
words need not be the text itself; `unwords_fields_of_unwords` says that one is that was joined.
-/

namespace Fraisier.Lib

namespace Str

variable {c : Char} {s t w : Str} {words texts : List Str}

/-- A text that is not empty and has no white space. -/
def IsWord (w : Str) : Prop := w ≠ [] ∧ ∀ c ∈ w, isSpace c = false

/-- `" ".join`. -/
def unwords (texts : List Str) : Str := List.intercalate [' '] texts

/-- A blank is a space. -/
theorem isSpace_blank : isSpace ' ' = true := by decide

/-- A word is put before the others with a blank. -/
theorem unwords_cons_cons (s t : Str) (texts : List Str) :
    unwords (s :: t :: texts) = s ++ ' ' :: unwords (t :: texts) := by
  unfold unwords
  rw [List.intercalate_cons_cons, List.append_assoc, List.singleton_append]

/-- One word is put together to itself. -/
theorem unwords_singleton (s : Str) : unwords [s] = s := List.intercalate_singleton

/-- A character of joined texts is a blank or stands in one of them. -/
theorem mem_unwords (h : c ∈ unwords texts) : c = ' ' ∨ ∃ s ∈ texts, c ∈ s := by
  -- Induction on the texts, which are joined with blanks.
  induction texts with
  | nil => nomatch h
  | cons s texts ih =>
    cases texts with
    | nil =>
      rw [unwords_singleton] at h
      exact .inr ⟨s, List.mem_cons_self, h⟩
    | cons t texts =>
      rw [unwords_cons_cons, List.mem_append, List.mem_cons] at h
      rcases h with h | h | h
      · exact .inr ⟨s, List.mem_cons_self, h⟩
      · exact .inl h
      · refine (ih h).imp_right ?_
        rintro ⟨u, hu, hc⟩
        exact ⟨u, List.mem_cons_of_mem s hu, hc⟩

/-! ## What is read -/

/-- A character of white space parts the words. -/
theorem fields_append (hc : isSpace c = true) (s t : Str) :
    fields (s ++ c :: t) = fields s ++ fields t := by
  unfold fields
  rw [List.splitOnP_append_cons _ _ hc, List.filter_append]

/-- A word is its own only field. -/
theorem fields_word (h : IsWord w) : fields w = [w] := by
  unfold fields
  rw [List.splitOnP_eq_singleton h.2, List.filter_cons_of_pos (by simp [h.1]), List.filter_nil]

/-- Texts that are joined have their words one after another. -/
theorem fields_unwords (texts : List Str) : fields (unwords texts) = texts.flatMap fields := by
  induction texts with
  | nil => rfl
  | cons s texts ih =>
    cases texts with
    | nil => rw [unwords_singleton, List.flatMap_cons, List.flatMap_nil, List.append_nil]
    | cons t texts =>
      rw [unwords_cons_cons, fields_append isSpace_blank, ih]
      exact List.flatMap_cons.symm

/-- Words that are joined are read back. -/
theorem fields_unwords_of_isWord (h : ∀ w ∈ words, IsWord w) : fields (unwords words) = words := by
  rw [fields_unwords]
  induction words with
  | nil => rfl
  | cons w words ih =>
    have hwords := ih fun v hv => h v (List.mem_cons_of_mem w hv)
    rw [List.flatMap_cons, fields_word (h w List.mem_cons_self), hwords, List.singleton_append]

/-- What is read is a word. -/
theorem isWord_of_mem_fields (h : w ∈ fields s) : IsWord w := by
  obtain ⟨hmem, hne⟩ := List.mem_filter.mp h
  refine ⟨of_decide_eq_true hne, ?_⟩
  clear hne h
  -- Induction on the text: a blank ends a word, and another character goes on with it.
  induction s generalizing w with
  | nil =>
    obtain rfl : w = [] := List.mem_singleton.mp hmem
    exact nofun
  | cons c s ih =>
    rw [List.splitOnP_cons_eq_if_modifyHead] at hmem
    split at hmem
    · rcases List.mem_cons.mp hmem with rfl | hmem
      · exact nofun
      · exact ih hmem
    · rename_i hc
      obtain ⟨first, rest, hsplit⟩ := List.exists_cons_of_ne_nil (List.splitOnP_ne_nil isSpace s)
      rw [hsplit, List.modifyHead_cons] at hmem
      rcases List.mem_cons.mp hmem with rfl | hmem
      · have hfirst := ih (w := first) (by rw [hsplit]; exact List.mem_cons_self)
        intro d hd
        rcases List.mem_cons.mp hd with rfl | hd
        · simpa using hc
        · exact hfirst d hd
      · exact ih (by rw [hsplit]; exact List.mem_cons_of_mem first hmem)

/-- Nothing is stripped from a text between two words. -/
theorem strip_between (ht : IsWord t) (hw : IsWord w) (s : Str) :
    strip (t ++ (s ++ w)) = t ++ (s ++ w) := by
  obtain ⟨d, t', rfl⟩ := List.exists_cons_of_ne_nil ht.1
  obtain ⟨w', f, rfl⟩ := (List.eq_nil_or_concat w).resolve_left hw.1
  rw [List.concat_eq_append] at hw ⊢
  -- The text begins and ends with a character of a word.
  have hhead : ∀ c r, d :: t' ++ (s ++ (w' ++ [f])) = c :: r → isSpace c = false := by
    intro c r h
    rw [List.cons_append] at h
    exact (List.cons.inj h).1 ▸ ht.2 d List.mem_cons_self
  have hlast : ∀ c r, d :: t' ++ (s ++ (w' ++ [f])) = r ++ [c] → isSpace c = false := by
    intro c r h
    rw [← List.append_assoc, ← List.append_assoc] at h
    have hf : f = c := List.singleton_inj.mp (List.append_inj_right' h rfl)
    exact hf ▸ hw.2 f (List.mem_append_right w' List.mem_cons_self)
  have hstrip := stripBy_eq (p := isSpace) (a := []) (b := []) nofun nofun hhead hlast
  rwa [List.nil_append, List.append_nil] at hstrip

/-- A word has no space at either end. -/
theorem strip_word (h : IsWord w) : strip w = w := by
  have hstrip := stripBy_eq (p := isSpace) (a := []) (b := []) (q := w) nofun nofun
    (fun c r hw => h.2 c (hw ▸ List.mem_cons_self)) fun c r hw =>
      h.2 c (hw ▸ List.mem_append_right r List.mem_cons_self)
  rwa [List.nil_append, List.append_nil] at hstrip

/-! ## What is joined -/

/-- A word is not joined from two texts. -/
theorem IsWord.ne_append (h : IsWord w) (s t : Str) : w ≠ s ++ ' ' :: t := by
  rintro rfl
  have hblank := h.2 ' ' (List.mem_append_right s List.mem_cons_self)
  exact absurd hblank (by decide)

/-- Words that are joined as two texts are at least two. -/
theorem two_le_of_unwords_eq (h : ∀ w ∈ words, IsWord w) (heq : unwords words = s ++ ' ' :: t) :
    2 ≤ words.length := by
  match words, h, heq with
  | [], _, heq => exact absurd heq (by simp [unwords])
  | [w], h, heq =>
    rw [unwords_singleton] at heq
    exact absurd heq ((h w List.mem_cons_self).ne_append s t)
  | _ :: _ :: _, _, _ => exact Nat.le_add_left 2 _

/-- A text that is joined from words is joined from its own words again. -/
theorem unwords_fields_of_unwords (h : ∀ w ∈ words, IsWord w) (heq : unwords words = s) :
    unwords (fields s) = s := by
  rw [← heq, fields_unwords_of_isWord h]

/-- What follows a word and a blank is a word, when it has no blank and all white space is single
blanks. -/
theorem isWord_of_unwords_fields (hs : IsWord s)
    (hjoin : unwords (fields (s ++ ' ' :: t)) = s ++ ' ' :: t) (hblank : ' ' ∉ t) : IsWord t := by
  rw [fields_append isSpace_blank, fields_word hs, List.singleton_append] at hjoin
  -- With no word after it the blank would be lost, and with two there would be a blank more.
  cases ht : fields t with
  | nil =>
    rw [ht, unwords_singleton] at hjoin
    exact absurd hjoin (hs.ne_append s t)
  | cons w ws =>
    rw [ht, unwords_cons_cons] at hjoin
    have hw : unwords (w :: ws) = t := (List.cons.inj (List.append_cancel_left hjoin)).2
    cases ws with
    | nil =>
      rw [unwords_singleton] at hw
      rw [← hw]
      exact isWord_of_mem_fields (s := t) (by rw [ht]; exact List.mem_cons_self)
    | cons v ws =>
      rw [unwords_cons_cons] at hw
      exact absurd (hw ▸ List.mem_append_right w List.mem_cons_self) hblank

/-- Two words with a blank between them are read in one way only. -/
theorem append_blank_inj {s' t' : Str} (hs : IsWord s) (ht : IsWord t)
    (heq : s ++ ' ' :: t = s' ++ ' ' :: t') : s = s' ∧ t = t' := by
  rcases append_cons_eq_iff.mp heq with h | ⟨u, -, rfl⟩ | ⟨u, rfl, -⟩
  · exact h
  · exact absurd rfl (ht.ne_append u t')
  · exact absurd rfl (hs.ne_append s' u)

end Str

end Fraisier.Lib
