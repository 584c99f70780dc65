import Mathlib.Tactic.Common
import Fraisier.Lib.Text

/-!
# Texts cut at a character

`str.partition` of a text that is put together of what stands before the character and what stands
after it, and `str.split` of a joined list.
-/

namespace Fraisier.Lib

namespace Str

variable {c : Char} {s t a b : Str}

/-- A test that a text passes goes on to the first character that fails it. -/
theorem takeWhile_until {p : Char → Bool} (hs : ∀ d ∈ s, p d = true) (hc : p c = false) :
    (s ++ c :: t).takeWhile p = s := by
  simp [List.takeWhile_append_of_pos hs, hc]

/-- Dropping stops at the first character that does not match. -/
theorem dropWhile_until {p : Char → Bool} (hs : ∀ d ∈ s, p d = true) (hc : p c = false) :
    (s ++ c :: t).dropWhile p = c :: t := by
  simp [List.dropWhile_append_of_pos hs, hc]

/-- Without the separator the first part is all. -/
theorem partition_of_notMem (h : c ∉ s) : partition c s = (s, false, []) := by
  unfold partition
  have hdrop : s.dropWhile (· ≠ c) = [] := by
    rw [List.dropWhile_eq_nil_iff]
    intro d hd
    simp only [ne_eq, decide_eq_true_eq]
    rintro rfl
    exact h hd
  rw [hdrop]

/-- A text is cut at the first separator. -/
theorem partition_append_cons (h : c ∉ s) (t : Str) : partition c (s ++ c :: t) = (s, true, t) := by
  have hall : ∀ d ∈ s, decide (d ≠ c) = true := by
    intro d hd
    simp only [ne_eq, decide_eq_true_eq]
    rintro rfl
    exact h hd
  have hc : decide (c ≠ c) = false := by simp
  unfold partition
  rw [dropWhile_until hall hc, takeWhile_until hall hc]

/-- A text is cut where the character first stands, if it stands anywhere. -/
theorem partition_cases (c : Char) (s : Str) :
    (c ∉ s ∧ partition c s = (s, false, [])) ∨
      ∃ a b, s = a ++ c :: b ∧ c ∉ a ∧ partition c s = (a, true, b) := by
  by_cases h : c ∈ s
  · obtain ⟨a, b, rfl, ha⟩ := List.eq_append_cons_of_mem h
    exact .inr ⟨a, b, rfl, ha, partition_append_cons ha b⟩
  · exact .inl ⟨h, partition_of_notMem h⟩

/-- A cut has nothing to do with what stands before it. -/
theorem partition_append (h : c ∉ s) (t : Str) :
    partition c (s ++ t) = (s ++ (partition c t).1, (partition c t).2) := by
  obtain ⟨ht, hcut⟩ | ⟨a, b, rfl, ha, hcut⟩ := partition_cases c t
  · rw [hcut, partition_of_notMem (by simp [h, ht])]
  · rw [hcut, ← List.append_assoc, partition_append_cons (by simp [h, ha])]

/-- The first part holds no separator. -/
theorem notMem_of_partition {f : Bool} (h : partition c s = (a, f, b)) : c ∉ a := by
  obtain ⟨hnot, hcut⟩ | ⟨a', b', -, ha, hcut⟩ := partition_cases c s
  · obtain ⟨rfl, -⟩ := Prod.mk.inj (hcut.symm.trans h)
    exact hnot
  · obtain ⟨rfl, -⟩ := Prod.mk.inj (hcut.symm.trans h)
    exact ha

/-- What stands before the cut is of the text. -/
theorem mem_of_partition {f : Bool} (h : partition c s = (a, f, b)) {d : Char} :
    (d ∈ a → d ∈ s) ∧ (d ∈ b → d ∈ s) := by
  obtain ⟨-, hcut⟩ | ⟨a', b', rfl, -, hcut⟩ := partition_cases c s
  · obtain ⟨rfl, htail⟩ := Prod.mk.inj (hcut.symm.trans h)
    obtain ⟨-, rfl⟩ := Prod.mk.inj htail
    exact ⟨id, fun hd => absurd hd List.not_mem_nil⟩
  · obtain ⟨rfl, htail⟩ := Prod.mk.inj (hcut.symm.trans h)
    obtain ⟨-, rfl⟩ := Prod.mk.inj htail
    exact ⟨fun hd => by simp [hd], fun hd => by simp [hd]⟩

/-- A piece of a split text has no separator. -/
theorem notMem_of_mem_splitOn (h : t ∈ s.splitOn c) : c ∉ t := by
  -- Induction on the text: a separator ends a piece.
  induction s generalizing t with
  | nil =>
    obtain rfl : t = [] := by simpa using h
    exact List.not_mem_nil
  | cons d s ih =>
    rw [List.splitOn_cons_eq_if_modifyHead] at h
    split at h
    · obtain rfl | h := List.mem_cons.mp h
      · exact List.not_mem_nil
      · exact ih h
    · next hd =>
      obtain ⟨first, rest, hsplit⟩ := List.exists_cons_of_ne_nil (List.splitOn_ne_nil c s)
      rw [hsplit, List.modifyHead_cons, List.mem_cons] at h
      obtain rfl | h := h
      · rw [List.mem_cons, not_or]
        refine ⟨fun hc => hd (by simp [hc]), ih (by simp [hsplit])⟩
      · exact ih (by simp [hsplit, h])

/-- A character of a piece of a split text is of the text. -/
theorem mem_of_mem_splitOn {d : Char} (ht : t ∈ s.splitOn c) (hd : d ∈ t) : d ∈ s := by
  have hjoin : List.intercalate [c] (s.splitOn c) = s := List.intercalate_splitOn c
  rw [← hjoin]
  generalize s.splitOn c = pieces at ht
  induction pieces with
  | nil => exact absurd ht List.not_mem_nil
  | cons first rest ih =>
    by_cases hrest : rest = []
    · rw [hrest, List.mem_singleton] at ht
      rw [hrest, List.intercalate_singleton, ← ht]
      exact hd
    · rw [List.intercalate_cons_of_ne_nil hrest]
      rcases List.mem_cons.mp ht with rfl | ht
      · exact List.mem_append_left _ (List.mem_append_left _ hd)
      · exact List.mem_append_right _ (ih ht)

/-- The last piece is empty when the text ends with the separator. -/
theorem getLast?_splitOn (h : s ≠ []) :
    (s.splitOn c).getLast? = some [] ↔ s.getLast? = some c := by
  -- Induction on the text.
  induction s with
  | nil => exact absurd rfl h
  | cons d s ih =>
    obtain ⟨first, rest, hsplit⟩ := List.exists_cons_of_ne_nil (List.splitOn_ne_nil c s)
    rw [List.splitOn_cons_eq_if_modifyHead, hsplit]
    by_cases hs : s = []
    · subst hs
      obtain ⟨rfl, rfl⟩ : first = [] ∧ rest = [] := by simpa using hsplit.symm
      by_cases hd : d = c <;> simp [hd]
    · have hlast : (d :: s).getLast? = s.getLast? := by
        obtain ⟨e, s, rfl⟩ := List.exists_cons_of_ne_nil hs
        rw [List.getLast?_cons_cons]
      rw [hlast, ← ih hs, hsplit]
      by_cases hd : d = c
      · simp [hd, List.getLast?_cons_cons]
      · cases rest with
        | nil =>
          have hjoin : List.intercalate [c] (s.splitOn c) = s := List.intercalate_splitOn c
          rw [hsplit] at hjoin
          have hfirst : first ≠ [] := by
            rintro rfl
            exact hs (by simpa [List.intercalate] using hjoin.symm)
          simp [hd, hfirst]
        | cons second rest => simp [hd, List.getLast?_cons_cons]

end Str

end Fraisier.Lib
