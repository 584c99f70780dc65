import Mathlib.Data.List.Infix

/-!
# Removing the occurrences of a text

`s.replace(old, "")` takes out the occurrences of `old` from the left, each after the end of the one
before.
-/

namespace Fraisier.Lib

variable {α : Type} [DecidableEq α] {old s : List α}

/-- The text without the occurrences of `old`, from where `skip` more elements are passed over. -/
def eraseFrom (old : List α) : ℕ → List α → List α
  | _, [] => []
  | skip + 1, _ :: s => eraseFrom old skip s
  | 0, c :: s => if old <+: c :: s then eraseFrom old (old.length - 1) s else c :: eraseFrom old 0 s

/-- `s.replace(old, "")`, for an `old` that is not empty. -/
def eraseAll (old s : List α) : List α := eraseFrom old 0 s

/-- Erasing begins after what is skipped. -/
theorem eraseFrom_append (old t s : List α) : eraseFrom old t.length (t ++ s) = eraseAll old s := by
  induction t with
  | nil => rfl
  | cons c t ih => exact ih

/-- A text that begins with `old` loses it. -/
theorem eraseAll_append (hold : old ≠ []) (s : List α) :
    eraseAll old (old ++ s) = eraseAll old s := by
  obtain ⟨c, t, rfl⟩ := List.exists_cons_of_ne_nil hold
  have hprefix : c :: t <+: c :: (t ++ s) := List.prefix_append (c :: t) s
  calc eraseAll (c :: t) (c :: t ++ s) = eraseFrom (c :: t) t.length (t ++ s) := if_pos hprefix
    _ = eraseAll (c :: t) s := eraseFrom_append _ _ _

/-- Erasing makes nothing longer. -/
theorem length_eraseFrom_le (old : List α) (skip : ℕ) (s : List α) :
    (eraseFrom old skip s).length ≤ s.length := by
  induction s generalizing skip with
  | nil => cases skip <;> exact Nat.le_refl 0
  | cons c s ih =>
    cases skip with
    | succ skip => exact Nat.le_succ_of_le (ih skip)
    | zero =>
      unfold eraseFrom
      split
      · exact Nat.le_succ_of_le (ih _)
      · exact Nat.succ_le_succ (ih 0)

/-- A text is kept as it is exactly when `old` does not occur in it. -/
theorem eraseAll_eq_self_iff (hold : old ≠ []) : eraseAll old s = s ↔ ¬old <:+: s := by
  -- Induction on the text: an occurrence at its front would be taken out.
  induction s with
  | nil => simp [eraseAll, eraseFrom, hold]
  | cons c s ih =>
    have hcons : eraseAll old (c :: s) = if old <+: c :: s then
        eraseFrom old (old.length - 1) s else c :: eraseAll old s := rfl
    rw [List.infix_cons_iff, not_or, ← ih, hcons]
    split
    · next hprefix =>
      have hlength := length_eraseFrom_le old (old.length - 1) s
      constructor
      · intro h
        rw [h, List.length_cons] at hlength
        omega
      · exact fun h => absurd hprefix h.1
    · next hstarts => simp [hstarts]

end Fraisier.Lib
