import Mathlib.Data.List.Sort

/-!
# Selections of a sorted list

Sorting commutes with a selection, whatever the order of equal elements.
-/

namespace Fraisier.Lib.Sorting

variable {α : Type} {r : α → α → Prop} [DecidableRel r]

/-- What comes before everything is put first. -/
theorem orderedInsert_of_forall {a : α} {l : List α} (h : ∀ b ∈ l, r a b) :
    l.orderedInsert r a = a :: l := by
  cases l with
  | nil => rfl
  | cons b l => exact List.orderedInsert_cons_of_le r l (h b List.mem_cons_self)

/-- Filtering goes through an insertion. -/
theorem filter_orderedInsert [IsTrans α r] (p : α → Bool) (a : α) {l : List α}
    (hsorted : l.Pairwise r) :
    (l.orderedInsert r a).filter p =
      if p a then (l.filter p).orderedInsert r a else l.filter p := by
  -- Induction on the list, up to where the element is inserted.
  induction l with
  | nil => cases h : p a <;> simp [h]
  | cons b l ih =>
    obtain ⟨hb, hl⟩ := List.pairwise_cons.mp hsorted
    by_cases hab : r a b
    · have hall : ∀ c ∈ (b :: l).filter p, r a c := by
        intro c hc
        obtain rfl | hc := List.mem_cons.mp (List.mem_of_mem_filter hc)
        · exact hab
        · exact IsTrans.trans a b c hab (hb c hc)
      rw [List.orderedInsert_cons_of_le r l hab, orderedInsert_of_forall hall, List.filter_cons]
    · rw [List.orderedInsert_of_not_le r l hab, List.filter_cons, List.filter_cons, ih hl]
      by_cases hpb : p b = true
      · rw [if_pos hpb, if_pos hpb, List.orderedInsert_of_not_le r _ hab]
        split <;> rfl
      · rw [if_neg hpb, if_neg hpb]

/-- A selection of the sorted list is the sorted list of the selection. -/
theorem filter_insertionSort [Std.Total r] [IsTrans α r] (p : α → Bool) (l : List α) :
    (l.insertionSort r).filter p = (l.filter p).insertionSort r := by
  induction l with
  | nil => rfl
  | cons a l ih =>
    rw [List.insertionSort_cons, filter_orderedInsert p a (List.pairwise_insertionSort r l), ih,
      List.filter_cons]
    split <;> rfl

end Fraisier.Lib.Sorting
