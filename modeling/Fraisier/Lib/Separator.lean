import Mathlib.Data.List.Basic
import Mathlib.Data.List.Infix

/-!
# Texts joined by a separator

Two texts joined by a separator can be read in two ways when the separator may also stand inside
them: `append_cons_eq_iff` says how the parts must straddle each other then.
-/

namespace Fraisier.Lib

variable {α : Type} {c : α} {a b a' b' s t : List α}

/-- The first part goes on, over the separator, into what is the second part of the other. -/
def Straddles (c : α) (a b a' b' : List α) : Prop := ∃ s, a' = a ++ c :: s ∧ b = s ++ c :: b'

/-- Two joined texts are equal when their parts are, or when they straddle each other. -/
theorem append_cons_eq_iff : a ++ c :: b = a' ++ c :: b' ↔
    (a = a' ∧ b = b') ∨ Straddles c a b a' b' ∨ Straddles c a' b' a b := by
  constructor
  · intro h
    -- One of the texts before the separator is a beginning of the other.
    obtain ⟨s, rfl, hs⟩ | ⟨s, rfl, hs⟩ := List.append_eq_append_iff.mp h
    · cases s with
      | nil => exact .inl ⟨by simp, by simpa using hs⟩
      | cons d s =>
        obtain ⟨rfl, rfl⟩ := List.cons.inj hs
        exact .inr (.inl ⟨s, rfl, rfl⟩)
    · cases s with
      | nil => exact .inl ⟨by simp, by simpa [eq_comm] using hs⟩
      | cons d s =>
        obtain ⟨rfl, rfl⟩ := List.cons.inj hs
        exact .inr (.inr ⟨s, rfl, rfl⟩)
  · rintro (⟨rfl, rfl⟩ | ⟨s, rfl, rfl⟩ | ⟨s, rfl, rfl⟩) <;> simp

/-- A text without the separator ends where the separator first stands. -/
theorem append_cons_inj (h : c ∉ a) (h' : c ∉ a') : a ++ c :: b = a' ++ c :: b' ↔ a = a' ∧ b = b' := by
  rw [append_cons_eq_iff]
  constructor
  · rintro (heq | ⟨s, rfl, -⟩ | ⟨s, rfl, -⟩)
    · exact heq
    · exact (h' (List.mem_append_right _ List.mem_cons_self)).elim
    · exact (h (List.mem_append_right _ List.mem_cons_self)).elim
  · exact fun heq => .inl heq

/-- Of two ends of one text the shorter is an end of the longer. -/
theorem suffix_of_append_eq (h : a ++ s = b ++ t) (hlength : s.length ≤ t.length) : s <:+ t :=
  List.suffix_of_suffix_length_le ⟨a, h⟩ ⟨b, rfl⟩ hlength

/-- Two texts with ends that are no ends of each other differ. -/
theorem ne_of_ends (hst : ¬s <:+ t) (hts : ¬t <:+ s) : a ++ s ≠ b ++ t := by
  intro h
  obtain hle | hle := Nat.le_total s.length t.length
  · exact hst (suffix_of_append_eq h hle)
  · exact hts (suffix_of_append_eq h.symm hle)

/-- A text that goes on with `c` is not itself after a text without `c`. -/
theorem append_cons_ne_append (hc : c ∉ t) (ht : t ≠ []) (s a b : List α) :
    s ++ c :: a ≠ t ++ (s ++ b) := by
  induction hn : s.length using Nat.strong_induction_on generalizing s with
  | _ n ih =>
    intro h
    obtain ⟨u, hu, hrest⟩ | ⟨u, rfl, hrest⟩ := List.append_eq_append_iff.mp h
    · -- then `c` stands in the text before, or begins the text
      cases u with
      | nil =>
        obtain ⟨d, t, rfl⟩ := List.exists_cons_of_ne_nil ht
        obtain rfl : d :: t = s := by simpa using hu
        obtain rfl : c = d := (List.cons.inj hrest).1
        exact hc List.mem_cons_self
      | cons d u =>
        obtain rfl : c = d := (List.cons.inj hrest).1
        exact hc (by rw [hu]; simp)
    · -- the text starts with the text before, which can be dropped on both sides
      have hlength : u.length < n := by
        have := List.length_pos_iff.mpr ht
        rw [List.length_append] at hn
        omega
      exact ih u.length hlength u rfl (by rw [← hrest, List.append_assoc])

end Fraisier.Lib
