import Mathlib.Data.List.Perm.Basic
import Mathlib.Data.List.Forall2
import Mathlib.Data.List.Flatten

/-!
# Fallible computations

What a computation in `Except ε` gave, when it gave something: for a sequence of two, for one over a
list, and for a search in one; and for one over a list in `Option`.
-/

namespace Fraisier.Lib.Fallible

variable {ε α β : Type}

/-- A sequence gives what its second part gives on what its first part gave. -/
theorem bind_ok_iff {x : Except ε α} {f : α → Except ε β} {b : β} :
    x >>= f = .ok b ↔ ∃ a, x = .ok a ∧ f a = .ok b := by
  cases x with
  | error e => simp [bind, Except.bind]
  | ok a => simp [bind, Except.bind]

/-- A sequence fails where its first part does, or its second part on what the first part gave. -/
theorem bind_error_iff {x : Except ε α} {f : α → Except ε β} {e : ε} :
    x >>= f = .error e ↔ x = .error e ∨ ∃ a, x = .ok a ∧ f a = .error e := by
  cases x with
  | error e' => simp [bind, Except.bind]
  | ok a => simp [bind, Except.bind]

/-- A function of a result gives something where there is a result. -/
theorem map_ok_iff {x : Except ε α} {f : α → β} {b : β} :
    f <$> x = .ok b ↔ ∃ a, x = .ok a ∧ f a = b := by
  cases x with
  | error e => simp [Functor.map, Except.map]
  | ok a => simp [Functor.map, Except.map]

/-- Every failure is of this kind. -/
def RaisesOnly (p : ε → Prop) (x : Except ε α) : Prop := ∀ e, x = .error e → p e

/-- What gives a value raises nothing. -/
theorem raisesOnly_ok (p : ε → Prop) (a : α) : RaisesOnly p (.ok a : Except ε α) := nofun

/-- A failure is of a kind when its exception is. -/
theorem raisesOnly_error_iff {p : ε → Prop} {e : ε} :
    RaisesOnly p (.error e : Except ε α) ↔ p e :=
  ⟨fun h => h e rfl, fun h _ he => Except.error.inj he ▸ h⟩

/-- A sequence raises what its parts raise, of which the second comes only after the first. -/
theorem raisesOnly_bind_iff {p : ε → Prop} {x : Except ε α} {f : α → Except ε β} :
    RaisesOnly p (x >>= f) ↔ RaisesOnly p x ∧ ∀ a, x = .ok a → RaisesOnly p (f a) := by
  cases x with
  | error e =>
    refine raisesOnly_error_iff.trans (raisesOnly_error_iff.symm.trans (and_iff_left ?_).symm)
    exact nofun
  | ok a =>
    refine Iff.trans ?_ (and_iff_right (raisesOnly_ok p a)).symm
    exact ⟨fun h b hb => Except.ok.inj hb ▸ h, fun h => h a rfl⟩

/-- A computation over a list gives one result for each element. -/
theorem mapM_ok_iff {f : α → Except ε β} {xs : List α} {ys : List β} :
    xs.mapM f = .ok ys ↔ List.Forall₂ (fun x y => f x = .ok y) xs ys := by
  induction xs generalizing ys with
  | nil => simp [pure, Except.pure, eq_comm]
  | cons x xs ih =>
    rw [List.mapM_cons, bind_ok_iff, List.forall₂_cons_left_iff]
    constructor
    · rintro ⟨y, hy, h⟩
      obtain ⟨ys', hys', h⟩ := bind_ok_iff.mp h
      exact ⟨y, ys', hy, ih.mp hys', (Except.ok.inj h).symm⟩
    · rintro ⟨y, ys', hy, hys', rfl⟩
      exact ⟨y, hy, bind_ok_iff.mpr ⟨ys', ih.mpr hys', rfl⟩⟩

/-- A computation that undoes a function undoes it on a list. -/
theorem mapM_map_ok {γ : Type} {f : β → Except ε γ} {g : α → β} {h : α → γ} {xs : List α}
    (hf : ∀ x, f (g x) = .ok (h x)) : (xs.map g).mapM f = .ok (xs.map h) := by
  rw [mapM_ok_iff, List.forall₂_map_left_iff, List.forall₂_map_right_iff]
  exact List.forall₂_same.mpr fun x _ => hf x

/-- A computation over a list fails at the first element that it fails for. -/
theorem mapM_error_iff {f : α → Except ε β} {xs : List α} {e : ε} :
    xs.mapM f = .error e ↔ ∃ before x after, xs = before ++ x :: after ∧
      (∀ y ∈ before, ∃ b, f y = .ok b) ∧ f x = .error e := by
  induction xs with
  | nil =>
    constructor
    · intro h
      cases h
    · rintro ⟨before, x, after, h, -⟩
      simp at h
  | cons x xs ih =>
    simp only [List.mapM_cons, bind_error_iff, ih]
    constructor
    -- The first element fails, or a later one does.
    · rintro (hx | ⟨b, hb, ⟨before, y, after, rfl, hbefore, hy⟩ | ⟨bs, -, h⟩⟩)
      · exact ⟨[], x, xs, rfl, by simp, hx⟩
      · exact ⟨x :: before, y, after, rfl, List.forall_mem_cons.mpr ⟨⟨b, hb⟩, hbefore⟩, hy⟩
      · cases h
    · rintro ⟨before, y, after, h, hbefore, hy⟩
      cases before with
      | nil =>
        obtain ⟨rfl, rfl⟩ := List.cons.inj h
        exact .inl hy
      | cons z before =>
        obtain ⟨rfl, rfl⟩ := List.cons.inj h
        obtain ⟨⟨b, hb⟩, hbefore⟩ := List.forall_mem_cons.mp hbefore
        exact .inr ⟨b, hb, .inl ⟨before, y, after, rfl, hbefore, hy⟩⟩

/-- A computation that undoes a function undoes it on a list in any order. -/
theorem mapM_ok_of_perm {f : β → Except ε α} {g : α → β} {xs : List α} {ys : List β}
    (hf : ∀ x, f (g x) = .ok x) (h : ys.Perm (xs.map g)) :
    ∃ zs, ys.mapM f = .ok zs ∧ zs.Perm xs := by
  have hundone : List.Forall₂ (fun y x => f y = .ok x) (xs.map g) xs := by
    rw [List.forall₂_map_left_iff]
    exact List.forall₂_same.mpr fun x _ => hf x
  obtain ⟨zs, hzs, hperm⟩ := List.perm_comp_forall₂ h hundone
  exact ⟨zs, mapM_ok_iff.mpr hzs, hperm⟩

/-- It gives something when each of its parts does. -/
theorem exists_mapM_ok_iff {f : α → Except ε β} {xs : List α} :
    (∃ ys, xs.mapM f = .ok ys) ↔ ∀ x ∈ xs, ∃ y, f x = .ok y := by
  simp only [mapM_ok_iff]
  induction xs with
  | nil => simp
  | cons x xs ih =>
    simp only [List.forall₂_cons_left_iff, List.forall_mem_cons]
    constructor
    · rintro ⟨_, y, ys, hy, hys, -⟩
      exact ⟨⟨y, hy⟩, ih.mp ⟨ys, hys⟩⟩
    · rintro ⟨⟨y, hy⟩, h⟩
      obtain ⟨ys, hys⟩ := ih.mpr h
      exact ⟨y :: ys, y, ys, hy, hys, rfl⟩

/-- Each result is that of an element. -/
theorem mem_of_mapM_ok {f : α → Except ε β} {xs : List α} {ys : List β} (h : xs.mapM f = .ok ys)
    {y : β} : y ∈ ys ↔ ∃ x ∈ xs, f x = .ok y := by
  rw [mapM_ok_iff] at h
  induction h with
  | nil => simp
  | @cons x z xs ys hx _ ih =>
    simp only [List.mem_cons, ih]
    constructor
    · rintro (rfl | ⟨w, hw, hy⟩)
      · exact ⟨x, .inl rfl, hx⟩
      · exact ⟨w, .inr hw, hy⟩
    · rintro ⟨w, rfl | hw, hy⟩
      · exact .inl (Except.ok.inj (hy.symm.trans hx))
      · exact .inr ⟨w, hw, hy⟩

/-- What a computation over a longer list gives, its first element and the rest give. -/
theorem mapM_cons_some {f : α → Option β} {x : α} {xs : List α} {ys : List β}
    (h : (x :: xs).mapM f = some ys) :
    ∃ y ys', f x = some y ∧ xs.mapM f = some ys' ∧ ys = y :: ys' := by
  rw [List.mapM_cons] at h
  obtain ⟨y, hy, h⟩ := Option.bind_eq_some_iff.mp h
  obtain ⟨ys', hys', h⟩ := Option.bind_eq_some_iff.mp h
  exact ⟨y, ys', hy, hys', (Option.some.inj h).symm⟩

/-- What is mapped is mapped one by one. -/
theorem mem_of_mapM {f : α → Option β} {xs : List α} {ys : List β} (h : xs.mapM f = some ys)
    {x : α} (hx : x ∈ xs) : ∃ y ∈ ys, f x = some y := by
  induction xs generalizing ys with
  | nil => cases hx
  | cons x' xs ih =>
    obtain ⟨y, ys', hy, hys', rfl⟩ := mapM_cons_some h
    obtain rfl | hx := List.mem_cons.mp hx
    · exact ⟨y, List.mem_cons_self, hy⟩
    · obtain ⟨z, hz, hfz⟩ := ih hys' hx
      exact ⟨z, List.mem_cons_of_mem y hz, hfz⟩

/-- It gives something when each element does. -/
theorem exists_mapM {f : α → Option β} {xs : List α} (h : ∀ x ∈ xs, ∃ y, f x = some y) :
    ∃ ys, xs.mapM f = some ys := by
  induction xs with
  | nil => exact ⟨[], rfl⟩
  | cons x xs ih =>
    obtain ⟨⟨y, hy⟩, h⟩ := List.forall_mem_cons.mp h
    obtain ⟨ys, hys⟩ := ih h
    exact ⟨y :: ys, by rw [List.mapM_cons, hy, hys]; rfl⟩

/-- Each result is that of an element. -/
theorem exists_of_mapM {f : α → Option β} {xs : List α} {ys : List β} (h : xs.mapM f = some ys)
    {y : β} (hy : y ∈ ys) : ∃ x ∈ xs, f x = some y := by
  induction xs generalizing ys with
  | nil =>
    obtain rfl := Option.some.inj h
    nomatch hy
  | cons x xs ih =>
    obtain ⟨z, ys', hz, hys', rfl⟩ := mapM_cons_some h
    obtain rfl | hy := List.mem_cons.mp hy
    · exact ⟨x, List.mem_cons_self, hz⟩
    · obtain ⟨w, hw, hfw⟩ := ih hys' hy
      exact ⟨w, List.mem_cons_of_mem x hw, hfw⟩

/-- There are as many results as elements. -/
theorem length_of_mapM {f : α → Option β} {xs : List α} {ys : List β} (h : xs.mapM f = some ys) :
    ys.length = xs.length := by
  induction xs generalizing ys with
  | nil =>
    obtain rfl := Option.some.inj h
    rfl
  | cons x xs ih =>
    obtain ⟨y, ys', -, hys', rfl⟩ := mapM_cons_some h
    rw [List.length_cons, List.length_cons, ih hys']

/-- A search goes on after an element that is not found. -/
theorem anyM_cons {f : α → Except ε Bool} {x : α} {xs : List α} :
    (x :: xs).anyM f = match f x with
      | .ok true => .ok true
      | .ok false => xs.anyM f
      | .error e => .error e := by
  rw [List.anyM]
  cases f x with
  | error e => rfl
  | ok b => cases b <;> rfl

/-- A search ends with the first element that is not passed over. -/
theorem anyM_eq_iff {f : α → Except ε Bool} {xs : List α} {r : Except ε Bool}
    (hr : r ≠ .ok false) : xs.anyM f = r ↔
      ∃ before x after, xs = before ++ x :: after ∧ (∀ y ∈ before, f y = .ok false) ∧ f x = r := by
  induction xs with
  | nil =>
    constructor
    · rintro rfl
      exact absurd rfl hr
    · rintro ⟨before, x, after, h, -⟩
      simp at h
  | cons x xs ih =>
    rw [anyM_cons]
    constructor
    -- The first element decides, or is passed over.
    · intro h
      split at h
      · next hx => exact ⟨[], x, xs, rfl, by simp, hx.trans h⟩
      · next hx =>
        obtain ⟨before, y, after, rfl, hbefore, hy⟩ := ih.mp h
        exact ⟨x :: before, y, after, rfl, List.forall_mem_cons.mpr ⟨hx, hbefore⟩, hy⟩
      · next hx => exact ⟨[], x, xs, rfl, by simp, hx.trans h⟩
    · rintro ⟨before, y, after, h, hbefore, hy⟩
      cases before with
      | nil =>
        obtain ⟨rfl, rfl⟩ := List.cons.inj h
        rw [hy]
        split <;> first | rfl | exact absurd rfl hr
      | cons z before =>
        obtain ⟨rfl, rfl⟩ := List.cons.inj h
        rw [hbefore x List.mem_cons_self]
        exact ih.mpr ⟨before, y, after, rfl, fun z hz => hbefore z (List.mem_cons_of_mem _ hz), hy⟩

/-- Nothing is found just when no element is, and none fails. -/
theorem anyM_ok_false_iff {f : α → Except ε Bool} {xs : List α} :
    xs.anyM f = .ok false ↔ ∀ x ∈ xs, f x = .ok false := by
  induction xs with
  | nil => simp [List.anyM, pure, Except.pure]
  | cons x xs ih =>
    rw [anyM_cons, List.forall_mem_cons, ← ih]
    split
    · next hx => simp [hx]
    · next hx => simp [hx]
    · next hx => simp [hx]

/-- A search in which every element answers alike. -/
theorem anyM_const {f : α → Except ε Bool} {r : Except ε Bool} {xs : List α} (hxs : xs ≠ [])
    (h : ∀ x ∈ xs, f x = r) : xs.anyM f = r := by
  obtain ⟨x, xs, rfl⟩ := List.exists_cons_of_ne_nil hxs
  have hx := h x List.mem_cons_self
  match r with
  | .ok false => exact anyM_ok_false_iff.mpr h
  | .ok true => rw [anyM_cons, hx]
  | .error e => rw [anyM_cons, hx]

/-- A search among images is one among the elements. -/
theorem anyM_map (g : β → α) (f : α → Except ε Bool) (xs : List β) :
    (xs.map g).anyM f = xs.anyM fun x => f (g x) := by
  induction xs with
  | nil => rfl
  | cons x xs ih => rw [List.map_cons, anyM_cons, anyM_cons, ih]

/-- A search goes by what the test says of the elements. -/
theorem anyM_congr {f g : α → Except ε Bool} {xs : List α} (h : ∀ x ∈ xs, f x = g x) :
    xs.anyM f = xs.anyM g := by
  induction xs with
  | nil => rfl
  | cons x xs ih =>
    rw [anyM_cons, anyM_cons, h x List.mem_cons_self,
      ih fun y hy => h y (List.mem_cons_of_mem _ hy)]

section Search

variable {f : α → Except ε Bool} {usable valid : α → Prop} {xs : List α}

/-- A search fails when it comes to an element that is not usable before a valid one. -/
theorem exists_anyM_error_iff (husable : ∀ x, usable x → ∃ b, f x = .ok b ∧ (b = true ↔ valid x))
    (hnot : ∀ x, ¬usable x → ∃ e, f x = .error e) :
    (∃ e, xs.anyM f = .error e) ↔ ∃ before x after, xs = before ++ x :: after ∧
      (∀ y ∈ before, ¬valid y) ∧ ¬usable x := by
  constructor
  · rintro ⟨e, he⟩
    obtain ⟨before, x, after, rfl, hbefore, hx⟩ := (anyM_eq_iff (by simp)).mp he
    refine ⟨before, x, after, rfl, fun y hy hvalid => ?_, fun hu => ?_⟩
    -- A usable element before it would have ended the search.
    · by_cases hu : usable y
      · obtain ⟨b, hb, hiff⟩ := husable y hu
        have hfalse := Except.ok.inj (hb.symm.trans (hbefore y hy))
        rw [hiff.mpr hvalid] at hfalse
        cases hfalse
      · obtain ⟨e', he'⟩ := hnot y hu
        cases he'.symm.trans (hbefore y hy)
    · obtain ⟨b, hb, -⟩ := husable x hu
      cases hb.symm.trans hx
  · rintro ⟨before, x, after, rfl, hbefore, hx⟩
    -- Induction on the elements that are passed over.
    induction before with
    | nil =>
      obtain ⟨e, he⟩ := hnot x hx
      exact ⟨e, by rw [List.nil_append, anyM_cons, he]⟩
    | cons y before ih =>
      rw [List.forall_mem_cons] at hbefore
      by_cases hu : usable y
      · obtain ⟨b, hb, hiff⟩ := husable y hu
        obtain rfl : b = false := by
          cases b with
          | false => rfl
          | true => exact absurd (hiff.mp rfl) hbefore.1
        obtain ⟨e, he⟩ := ih hbefore.2
        exact ⟨e, by rw [List.cons_append, anyM_cons, hb]; exact he⟩
      · obtain ⟨e, he⟩ := hnot y hu
        exact ⟨e, by rw [List.cons_append, anyM_cons, he]⟩

/-- A search that does not fail finds a valid element when there is one. -/
theorem anyM_ok_true_iff (husable : ∀ x, usable x → ∃ b, f x = .ok b ∧ (b = true ↔ valid x))
    (hnot : ∀ x, ¬usable x → ∃ e, f x = .error e) (hok : ∀ e, xs.anyM f ≠ .error e) :
    xs.anyM f = .ok true ↔ ∃ x ∈ xs, valid x := by
  constructor
  · intro h
    obtain ⟨before, x, after, rfl, -, hx⟩ := (anyM_eq_iff (by simp)).mp h
    refine ⟨x, by simp, ?_⟩
    by_cases hu : usable x
    · obtain ⟨b, hb, hiff⟩ := husable x hu
      exact hiff.mp (Except.ok.inj (hb.symm.trans hx))
    · obtain ⟨e, he⟩ := hnot x hu
      cases he.symm.trans hx
  -- A search that finds nothing has passed over the valid element.
  · rintro ⟨x, hx, hvalid⟩
    cases hr : xs.anyM f with
    | error e => exact absurd hr (hok e)
    | ok b =>
      cases b with
      | true => rfl
      | false =>
        have hfalse := anyM_ok_false_iff.mp hr x hx
        by_cases hu : usable x
        · obtain ⟨b, hb, hiff⟩ := husable x hu
          rw [hiff.mpr hvalid, hfalse] at hb
          cases hb
        · obtain ⟨e, he⟩ := hnot x hu
          cases he.symm.trans hfalse

end Search

end Fraisier.Lib.Fallible
