import Mathlib.Data.List.Basic
import Mathlib.Data.List.Induction

/-!
# Recording by a key

A list with one element for each key: another element with the key is merged into the one that is
there. What is recorded for a key is the first element with it, merged with the later ones in their
order (`filter_recordAll`).
-/

namespace Fraisier.Lib.Merge

variable {α κ : Type} [DecidableEq κ] (key : α → κ) (merge : α → α → α)

/-- Recording an element. -/
def record (a : α) : List α → List α
  | [] => [a]
  | b :: l => if key b = key a then merge b a :: l else b :: record a l

/-- Recording one element after another. -/
def recordAll (l : List α) : List α := l.foldl (fun recorded a => record key merge a recorded) []

/-- The elements of a list merged into the first one. -/
def mergeAll : List α → Option α
  | [] => none
  | a :: l => some (l.foldl merge a)

variable {key merge} {k : κ}

/-- One more value is merged last. -/
theorem mergeAll_snoc (l : List α) (a : α) :
    mergeAll merge (l ++ [a]) = some (((mergeAll merge l).map (merge · a)).getD a) := by
  cases l with
  | nil => rfl
  | cons b l => simp [mergeAll]

/-- An element changes nothing at another key. -/
theorem filter_record_ne (hmerge : ∀ a b, key (merge a b) = key a) {a : α} (h : key a ≠ k)
    (l : List α) : (record key merge a l).filter (key · = k) = l.filter (key · = k) := by
  induction l with
  | nil => simp [record, h]
  | cons b l ih =>
    unfold record
    split_ifs with hkey
    · have hb : key b ≠ k := fun hb => h (hkey ▸ hb)
      rw [List.filter_cons_of_neg (by simpa [hmerge] using hb), List.filter_cons_of_neg (by simpa using hb)]
    · by_cases hb : key b = k
      · rw [List.filter_cons_of_pos (by simpa using hb), List.filter_cons_of_pos (by simpa using hb), ih]
      · rw [List.filter_cons_of_neg (by simpa using hb), List.filter_cons_of_neg (by simpa using hb), ih]

/-- At its own key, an element is merged into the one that is there, or added. -/
theorem filter_record_self (hmerge : ∀ a b, key (merge a b) = key a) {a : α} (h : key a = k)
    {l : List α} {o : Option α} (hl : l.filter (key · = k) = o.toList) :
    (record key merge a l).filter (key · = k) = [(o.map (merge · a)).getD a] := by
  -- Induction on the list, up to the element with the key.
  induction l with
  | nil =>
    obtain rfl : o = none := by simpa using hl.symm
    simp [record, h]
  | cons b l ih =>
    unfold record
    by_cases hb : key b = k
    · rw [List.filter_cons_of_pos (by simpa using hb)] at hl
      obtain ⟨b', rfl⟩ : ∃ b', o = some b' := by
        cases o with
        | none => cases hl
        | some b' => exact ⟨b', rfl⟩
      obtain ⟨rfl, hrest⟩ := List.cons.inj hl
      rw [if_pos (hb.trans h.symm), List.filter_cons_of_pos (by simpa [hmerge] using hb), hrest]
      rfl
    · rw [List.filter_cons_of_neg (by simpa using hb)] at hl
      rw [if_neg fun hkey => hb (hkey.trans h), List.filter_cons_of_neg (by simpa using hb), ih hl]

/-- What is recorded for a key. -/
theorem filter_recordAll (hmerge : ∀ a b, key (merge a b) = key a) (l : List α) (k : κ) :
    (recordAll key merge l).filter (key · = k) = (mergeAll merge (l.filter (key · = k))).toList := by
  induction l using List.reverseRecOn with
  | nil => rfl
  | append_singleton l a ih =>
    have hsnoc : recordAll key merge (l ++ [a]) = record key merge a (recordAll key merge l) := by
      simp [recordAll]
    rw [hsnoc]
    by_cases h : key a = k
    · have hfilter : (l ++ [a]).filter (key · = k) = l.filter (key · = k) ++ [a] := by simp [h]
      rw [filter_record_self hmerge h ih, hfilter, mergeAll_snoc]
      rfl
    · have hfilter : (l ++ [a]).filter (key · = k) = l.filter (key · = k) := by simp [h]
      rw [filter_record_ne hmerge h, hfilter, ih]

end Fraisier.Lib.Merge
