import Mathlib.Data.List.Flatten
import Mathlib.Logic.Relation

/-!
# Lists written without their borders

What a list of pieces still says when the pieces are written one after the other: two lists write
the same exactly when one becomes the other by taking borders away and putting borders in
(`flatten_eq_iff`).
-/

namespace Fraisier.Lib

variable {α : Type}

/-- The border between two neighbouring pieces is taken away. -/
inductive Merged : List (List α) → List (List α) → Prop
  | mk (before : List (List α)) (a b : List α) (after : List (List α)) :
      Merged (before ++ a :: b :: after) (before ++ (a ++ b) :: after)

/-- The pieces differ in their borders at most. -/
def SameButBorders (p q : List (List α)) : Prop := Relation.EqvGen Merged p q

variable {p q : List (List α)}

/-- Merging pieces keeps their text. -/
theorem Merged.flatten (h : Merged p q) : p.flatten = q.flatten := by
  obtain ⟨before, a, b, after⟩ := h
  simp

/-- Moving borders keeps the text. -/
theorem SameButBorders.flatten (h : SameButBorders p q) : p.flatten = q.flatten := by
  induction h with
  | rel _ _ h => exact h.flatten
  | refl _ => rfl
  | symm _ _ _ ih => exact ih.symm
  | trans _ _ _ _ _ ih₁ ih₂ => exact ih₁.trans ih₂

/-- Pieces become one piece. -/
theorem sameButBorders_flatten (a : List α) (rest : List (List α)) :
    SameButBorders (a :: rest) [(a :: rest).flatten] := by
  induction rest generalizing a with
  | nil => rw [List.flatten_singleton]; exact .refl _
  | cons b rest ih =>
    have hmerge : SameButBorders (a :: b :: rest) ((a ++ b) :: rest) :=
      .rel _ _ (.mk [] a b rest)
    have hrest := ih (a ++ b)
    rw [List.flatten_cons, List.append_assoc, ← List.flatten_cons, ← List.flatten_cons] at hrest
    exact hmerge.trans _ _ _ hrest

/-- Two lists write the same when they differ in their borders at most. -/
theorem flatten_eq_iff (hp : p ≠ []) (hq : q ≠ []) :
    p.flatten = q.flatten ↔ SameButBorders p q := by
  refine ⟨fun h => ?_, SameButBorders.flatten⟩
  obtain ⟨a, p, rfl⟩ := List.exists_cons_of_ne_nil hp
  obtain ⟨b, q, rfl⟩ := List.exists_cons_of_ne_nil hq
  have hone := sameButBorders_flatten a p
  rw [h] at hone
  exact hone.trans _ _ _ ((sameButBorders_flatten b q).symm _ _)

end Fraisier.Lib
