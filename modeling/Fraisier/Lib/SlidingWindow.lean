import Mathlib.Algebra.Order.Group.Unbundled.Basic
import Mathlib.Algebra.Order.Group.Defs
import Mathlib.Data.List.Basic
import Mathlib.Data.List.Induction

/-!
# A limit in a sliding window

Requests at times that do not decrease, of which a limited number is accepted in a window. The times
of the accepted ones that are still in the window are kept (`counting_kept`), so that no window of
the width has more than the limit (`length_window_le`), and a request is refused only when the window
that ends with it has as many (`full_of_refused`).
-/

namespace Fraisier.Lib.SlidingWindow

section Log

variable {T : Type}

/-- The times of the requests that were accepted. -/
def accepted (log : List (T × Bool)) : List T := (log.filter (·.2)).map (·.1)

/-- What is accepted is accepted in order. -/
theorem accepted_append (a b : List (T × Bool)) : accepted (a ++ b) = accepted a ++ accepted b := by
  simp [accepted]

/-- One request is accepted or not. -/
theorem accepted_singleton (t : T) (ok : Bool) : accepted [(t, ok)] = if ok then [t] else [] := by
  cases ok <;> rfl

end Log

variable {T : Type} [AddCommGroup T] [LinearOrder T] (width : T) (limit : ℕ)

/-- Those of some past times that are in the window which ends now. -/
def counting (now : T) (times : List T) : List T := times.filter (now - · < width)

/-- A request: whether it is accepted, and the times that are kept then. -/
def admitting (now : T) (kept : List T) : Bool × List T :=
  if limit ≤ (counting width now kept).length then (false, counting width now kept)
  else (true, counting width now kept ++ [now])

/-- The requests with their answers, and the times that are kept. -/
def step (s : List (T × Bool) × List T) (now : T) : List (T × Bool) × List T :=
  (s.1 ++ [(now, (admitting width limit now s.2).1)], (admitting width limit now s.2).2)

def run (times : List T) : List (T × Bool) × List T := times.foldl (step width limit) ([], [])

variable {width limit} {times : List T} {now t : T}

/-- What counts is counted in order. -/
theorem counting_append (a b : List T) :
    counting width now (a ++ b) = counting width now a ++ counting width now b :=
  List.filter_append ..

/-- One more request is handled after the others. -/
theorem run_snoc (times : List T) (now : T) :
    run width limit (times ++ [now]) = step width limit (run width limit times) now := by
  simp [run]

/-- One more request is accepted while the window is not full. -/
theorem accepted_snoc (times : List T) (now : T) :
    accepted (run width limit (times ++ [now])).1 = accepted (run width limit times).1 ++
      if limit ≤ (counting width now (run width limit times).2).length then [] else [now] := by
  rw [run_snoc, step, accepted_append, accepted_singleton, admitting]
  split_ifs <;> simp_all

/-- What is accepted was asked for. -/
theorem mem_of_accepted (h : t ∈ accepted (run width limit times).1) : t ∈ times := by
  induction times using List.reverseRecOn with
  | nil => exact h
  | append_singleton times now ih =>
    rw [accepted_snoc, List.mem_append] at h
    obtain h | h := h
    · exact List.mem_append_left _ (ih h)
    · split_ifs at h
      · exact absurd h List.not_mem_nil
      · exact List.mem_append_right _ h

section Ordered

variable [IsOrderedAddMonoid T]

/-- What counted before and counts now is what counts now. -/
theorem counting_counting {l : List T} (h : now ≤ t) :
    counting width t (counting width now l) = counting width t l := by
  unfold counting
  rw [List.filter_filter]
  apply List.filter_congr
  intro a _
  have hle : now - a ≤ t - a := sub_le_sub_right h a
  by_cases ht : t - a < width
  · simp [ht, hle.trans_lt ht]
  · simp [ht]

/-- The times that are kept count like all that were accepted. -/
theorem counting_kept (hsorted : times.Pairwise (· ≤ ·)) (ht : ∀ a ∈ times, a ≤ t) :
    counting width t (run width limit times).2 =
      counting width t (accepted (run width limit times).1) := by
  induction times using List.reverseRecOn generalizing t with
  | nil => rfl
  | append_singleton times now ih =>
    obtain ⟨hpast, -, hnow⟩ := List.pairwise_append.mp hsorted
    have hle : now ≤ t := ht now (by simp)
    have hkept : counting width t (counting width now (run width limit times).2) =
        counting width t (accepted (run width limit times).1) := by
      rw [ih hpast fun a ha => hnow a ha now (by simp), counting_counting hle]
    rw [accepted_snoc, run_snoc, step, admitting]
    split_ifs
    · rw [List.append_nil, hkept]
    · rw [counting_append, counting_append, hkept]

/-- No window has more than the limit. -/
theorem length_window_le (hsorted : times.Pairwise (· ≤ ·)) (t : T) :
    ((accepted (run width limit times).1).filter fun a => t ≤ a ∧ a - t < width).length ≤ limit := by
  -- Induction on the requests: the last one is accepted when the window is not full.
  induction times using List.reverseRecOn with
  | nil => exact Nat.zero_le _
  | append_singleton times now ih =>
    obtain ⟨hpast, -, hnow⟩ := List.pairwise_append.mp hsorted
    have hbefore : ∀ a ∈ times, a ≤ now := fun a ha => hnow a ha now (by simp)
    rw [accepted_snoc, counting_kept hpast hbefore]
    split_ifs with hfull
    · rw [List.append_nil]
      exact ih hpast
    · rw [List.filter_append, List.length_append]
      by_cases hin : t ≤ now ∧ now - t < width
      · -- what is in the window with the new request counted when it came
        have hsub : ((accepted (run width limit times).1).filter fun a => t ≤ a ∧ a - t < width).length ≤
            (counting width now (accepted (run width limit times).1)).length := by
          apply List.Sublist.length_le
          apply List.monotone_filter_right
          intro a ha
          simp only [decide_eq_true_eq] at ha ⊢
          exact (sub_le_sub_left ha.1 now).trans_lt hin.2
        simp only [List.filter_cons_of_pos, hin, decide_true, List.filter_nil, List.length_singleton,
          and_self]
        omega
      · rw [List.filter_cons_of_neg (by simpa using hin), List.filter_nil]
        exact ih hpast

/-- A request is refused only when the window before it is full. -/
theorem full_of_refused (hsorted : times.Pairwise (· ≤ ·)) {before after : List (T × Bool)}
    (h : (run width limit times).1 = before ++ (t, false) :: after) :
    limit ≤ ((accepted before).filter fun a => a ≤ t ∧ t - a < width).length := by
  -- Induction on the requests: the refused one is the last, or an earlier one.
  induction times using List.reverseRecOn generalizing after with
  | nil => simp [run] at h
  | append_singleton times now ih =>
    obtain ⟨hpast, -, hnow⟩ := List.pairwise_append.mp hsorted
    have hbefore : ∀ a ∈ times, a ≤ now := fun a ha => hnow a ha now (by simp)
    rw [run_snoc, step] at h
    obtain rfl | ⟨front, last, rfl⟩ := List.eq_nil_or_concat after
    · obtain ⟨hrun, hlast⟩ := List.append_inj' h rfl
      obtain ⟨rfl, hok⟩ := Prod.mk.inj (List.singleton_inj.mp hlast)
      have hfull : limit ≤ (counting width now (accepted before)).length := by
        rw [← hrun, ← counting_kept hpast hbefore]
        unfold admitting at hok
        split_ifs at hok with hle
        exact hle
      rw [← hrun] at hfull ⊢
      refine hfull.trans (le_of_eq (congrArg List.length ?_))
      apply List.filter_congr
      intro a ha
      simp [hbefore a (mem_of_accepted ha)]
    · have hsplit : (run width limit times).1 ++
          [(now, (admitting width limit now (run width limit times).2).1)] =
            (before ++ (t, false) :: front) ++ [last] := by simpa using h
      exact ih hpast (List.append_inj' hsplit rfl).1

end Ordered

end Fraisier.Lib.SlidingWindow
