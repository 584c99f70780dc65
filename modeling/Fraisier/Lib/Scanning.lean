import Mathlib.Data.List.Flatten
import Fraisier.Lib.Unicode

/-!
# Scanning a part of a text

`piecesOf f k xs rest` is the scanning of `xs` where `rest` comes behind it: the pieces that begin in
`xs`, and how many items of `rest` the last one covers. Pieces are found with all that follows in
view, and so parts can be put together (`piecesOf_append`).
-/

namespace Fraisier.Lib

variable {α β : Type} (f : α → List α → β × ℕ)

/-- The pieces that begin in a part, and how many items behind it are covered. -/
def piecesOf : ℕ → List α → List α → List β × ℕ
  | k, [], _ => ([], k)
  | k + 1, _ :: xs, rest => piecesOf k xs rest
  | 0, x :: xs, rest =>
    let piece := f x (xs ++ rest)
    let others := piecesOf piece.2 xs rest
    (piece.1 :: others.1, others.2)

variable {f}

/-- A text falls into the pieces of its parts. -/
theorem piecesOf_append (k : ℕ) (xs ys rest : List α) :
    piecesOf f k (xs ++ ys) rest =
      ((piecesOf f k xs (ys ++ rest)).1 ++
        (piecesOf f (piecesOf f k xs (ys ++ rest)).2 ys rest).1,
        (piecesOf f (piecesOf f k xs (ys ++ rest)).2 ys rest).2) := by
  induction xs generalizing k with
  | nil => cases k <;> rfl
  | cons x xs ih =>
    cases k with
    | zero =>
      rw [List.cons_append, piecesOf, piecesOf, ih, List.append_assoc]
      rfl
    | succ k => exact ih k

/-- Scanning a text goes on behind a part of it. -/
theorem pieces_append (k : ℕ) (xs rest : List α) :
    pieces f k (xs ++ rest) =
      (piecesOf f k xs rest).1 ++ pieces f (piecesOf f k xs rest).2 rest := by
  induction xs generalizing k with
  | nil => cases k <;> rfl
  | cons x xs ih =>
    cases k with
    | zero =>
      rw [List.cons_append, pieces, piecesOf, ih]
      rfl
    | succ k => exact ih k

/-- The pieces of a text, by where they begin. -/
theorem mem_pieces_iff {xs : List α} {y : β} : y ∈ pieces f 0 xs ↔
    ∃ before x rest, xs = before ++ x :: rest ∧ (piecesOf f 0 before (x :: rest)).2 = 0 ∧
      y = (f x rest).1 := by
  -- Induction on the text, for every number of characters to skip.
  suffices h : ∀ k, y ∈ pieces f k xs ↔ ∃ before x rest, xs = before ++ x :: rest ∧
      (piecesOf f k before (x :: rest)).2 = 0 ∧ y = (f x rest).1 from h 0
  induction xs with
  | nil =>
    intro k
    constructor
    · intro h
      cases k <;> exact absurd h List.not_mem_nil
    · rintro ⟨before, x, rest, h, -⟩
      exact absurd h.symm (by simp)
  | cons x' xs ih =>
    intro k
    constructor
    · intro h
      cases k with
      | succ k =>
        obtain ⟨before, x, rest, rfl, hzero, hy⟩ := (ih k).mp h
        exact ⟨x' :: before, x, rest, rfl, hzero, hy⟩
      | zero =>
        rcases List.mem_cons.mp h with rfl | h
        · exact ⟨[], x', xs, rfl, rfl, rfl⟩
        · obtain ⟨before, x, rest, rfl, hzero, hy⟩ := (ih _).mp h
          exact ⟨x' :: before, x, rest, rfl, hzero, hy⟩
    · rintro ⟨before, x, rest, hxs, hzero, rfl⟩
      cases before with
      | nil =>
        obtain ⟨rfl, rfl⟩ := List.cons.inj hxs
        have hk : k = 0 := by simpa [piecesOf] using hzero
        subst hk
        exact List.mem_cons_self
      | cons b before =>
        obtain ⟨rfl, rfl⟩ := List.cons.inj hxs
        cases k with
        | succ k => exact (ih k).mpr ⟨before, x, rest, rfl, hzero, rfl⟩
        | zero =>
          exact List.mem_cons_of_mem _ ((ih _).mpr ⟨before, x, rest, rfl, hzero, rfl⟩)

/-- What holds of every piece. -/
theorem forall_pieces {p : β → Prop} (h : ∀ x xs, p (f x xs).1) (k : ℕ) (xs : List α) :
    ∀ y ∈ pieces f k xs, p y := by
  induction xs generalizing k with
  | nil => cases k <;> exact List.forall_mem_nil _
  | cons x xs ih =>
    cases k with
    | zero =>
      rw [pieces]
      exact List.forall_mem_cons.mpr ⟨h x xs, ih _⟩
    | succ k => exact ih k

/-- Pieces that are written as what they cover are written as the text. -/
theorem flatMap_pieces {write : β → List α}
    (h : ∀ x xs, write (f x xs).1 = x :: xs.take (f x xs).2) (k : ℕ) (xs : List α) :
    (pieces f k xs).flatMap write = xs.drop k := by
  induction xs generalizing k with
  | nil => cases k <;> rfl
  | cons x xs ih =>
    cases k with
    | zero =>
      rw [pieces, List.flatMap_cons, h, ih, List.cons_append, List.take_append_drop]
      rfl
    | succ k => exact ih k

end Fraisier.Lib
