import Mathlib.Data.Finset.Card
import Mathlib.Data.List.MinMax

/-!
# Remembering keys for a time

A store of keys with the times at which they were first seen. Keys are forgotten when they have
expired, and the oldest one when the store is full: a key that was recorded is still there at a time
when it has not expired, unless as many other keys came in between as the store holds
(`kept_or_crowded`).
-/

namespace Fraisier.Lib

/-- How long keys are remembered, and how many. -/
structure Window (T : Type) [LinearOrder T] where
  max : ℕ
  /-- At a time, a key of an earlier one has expired. -/
  expired : T → T → Bool
  mono : ∀ {now now' t : T}, now ≤ now' → expired now t = true → expired now' t = true

namespace Window

section Others

variable {K : Type} [DecidableEq K] {k c : K} {others : Finset K}

/-- The other keys once another one has arrived. -/
def addOther (k : K) (others : Finset K) (key : K) : Finset K := (insert key others).erase k

/-- A key is among the others when it is another key and was seen. -/
theorem mem_addOther {key : K} :
    c ∈ addOther k others key ↔ c ≠ k ∧ (c = key ∨ c ∈ others) := by
  rw [addOther, Finset.mem_erase, Finset.mem_insert]

/-- The other keys once several have arrived. -/
def addOthers (k : K) (others : Finset K) (keys : List K) : Finset K :=
  keys.foldl (addOther k) others

/-- One more key loses none of the others. -/
theorem addOther_subset (hk : k ∉ others) (key : K) :
    others ⊆ addOther k others key := fun _ hc =>
  mem_addOther.mpr ⟨fun heq => hk (heq ▸ hc), .inr hc⟩

/-- More keys lose none of the others. -/
theorem addOthers_subset (hk : k ∉ others) (keys : List K) :
    others ⊆ addOthers k others keys := by
  induction keys generalizing others with
  | nil => exact Finset.Subset.refl _
  | cons key keys ih =>
    have hk' : k ∉ addOther k others key := fun hmem => (mem_addOther.mp hmem).1 rfl
    exact (addOther_subset hk key).trans (ih hk')

/-- The other keys are those that have arrived. -/
theorem addOthers_eq (hk : k ∉ others) (keys : List K) :
    addOthers k others keys = others ∪ keys.toFinset.erase k := by
  -- Induction on the keys, each of which is added unless it is `k`.
  induction keys generalizing others with
  | nil => simp [addOthers]
  | cons key keys ih =>
    have hk' : k ∉ addOther k others key := fun hmem => (mem_addOther.mp hmem).1 rfl
    have hcons : addOthers k others (key :: keys) =
        addOthers k (addOther k others key) keys := rfl
    rw [hcons, ih hk']
    ext c
    simp only [Finset.mem_union, mem_addOther, Finset.mem_erase, List.toFinset_cons,
      Finset.mem_insert, List.mem_toFinset]
    constructor
    · rintro (⟨hc, h | h⟩ | ⟨hc, h⟩)
      · exact .inr ⟨hc, .inl h⟩
      · exact .inl h
      · exact .inr ⟨hc, .inr h⟩
    · rintro (h | ⟨hc, h | h⟩)
      · exact .inl ⟨fun heq => hk (heq ▸ h), .inr h⟩
      · exact .inl ⟨hc, .inl h⟩
      · exact .inr ⟨hc, h⟩

end Others

variable {K T : Type} [LinearOrder T]

/-- The keys in the order in which they were recorded. -/
abbrev Store (K T : Type) := List (K × T)

variable (w : Window T)

/-- Without the keys that have expired. -/
def prune (now : T) (s : Store K T) : Store K T := s.filter fun e => !w.expired now e.2

/-- Each key once, in the order of the times, which are past. -/
structure Ordered (s : Store K T) (now : T) : Prop where
  nodup : (s.map (·.1)).Nodup
  sorted : s.Pairwise (·.2 ≤ ·.2)
  past : ∀ e ∈ s, e.2 ≤ now

variable {w} {s : Store K T} {t now now' : T}

/-- An empty store is ordered. -/
theorem ordered_nil : Ordered ([] : Store K T) now :=
  ⟨List.nodup_nil, List.Pairwise.nil, fun _ h => absurd h List.not_mem_nil⟩

/-- A part of an ordered store is ordered at any later time. -/
theorem Ordered.of_sublist {s' : Store K T} (h : Ordered s now) (hsub : s'.Sublist s)
    (hnow : now ≤ now') : Ordered s' now' where
  nodup := h.nodup.sublist (hsub.map _)
  sorted := h.sorted.sublist hsub
  past e he := (h.past e (hsub.subset he)).trans hnow

/-- Pruning only removes. -/
theorem prune_sublist : (w.prune now s).Sublist s := List.filter_sublist

section Keys

variable (w) [DecidableEq K]

/-- Without the oldest key, when there is no place for another. -/
def evict (s : Store K T) : Store K T :=
  if w.max ≤ s.length then
    match s.argmin (·.2) with
    | some oldest => s.filter (·.1 ≠ oldest.1)
    | none => s
  else s

/-- Whether the key was seen before; it is recorded if it was not. -/
def seen (s : Store K T) (k : K) (now : T) : Bool × Store K T :=
  if (w.prune now s).any (·.1 = k) then (true, w.prune now s)
  else (false, w.evict (w.prune now s) ++ [(k, now)])

/-- The store after keys arrived one after another. -/
def recordAll (s : Store K T) (arrivals : List (K × T)) : Store K T :=
  arrivals.foldl (fun s a => (w.seen s a.1 a.2).2) s

variable {w} {k : K}

/-- Evicting only removes. -/
theorem evict_sublist : (w.evict s).Sublist s := by
  unfold evict
  split
  · split
    · exact List.filter_sublist
    · exact List.Sublist.refl s
  · exact List.Sublist.refl s

/-- In order, the oldest key is the first. -/
theorem evict_cons {e : K × T} (h : Ordered (e :: s) now) (hfull : w.max ≤ s.length + 1) :
    w.evict (e :: s) = s := by
  have hle : ∀ c ∈ s, e.2 ≤ c.2 := (List.pairwise_cons.mp h.sorted).1
  -- The first entry is the oldest, since none after it is older.
  have hfirst : (e :: s).argmin (·.2) = some e := by
    rw [List.argmin_cons]
    cases hmin : s.argmin (·.2) with
    | none => rfl
    | some c =>
      have hc := hle c (List.argmin_mem hmin)
      exact if_neg (not_lt.mpr hc)
  have hnodup := List.nodup_cons.mp h.nodup
  unfold evict
  rw [List.length_cons, if_pos hfull, hfirst]
  dsimp only
  rw [List.filter_cons_of_neg (by simp), List.filter_eq_self]
  intro c hc
  have hne : c.1 ≠ e.1 := by
    intro heq
    have hmem : e.1 ∈ s.map (·.1) := heq ▸ List.mem_map_of_mem hc
    exact hnodup.1 hmem
  simpa using hne

/-- A key is seen when it was recorded and has not expired. -/
theorem seen_iff : (w.seen s k now).1 = true ↔ ∃ t, (k, t) ∈ s ∧ w.expired now t = false := by
  have hany : (w.prune now s).any (·.1 = k) = true ↔ ∃ t, (k, t) ∈ s ∧ w.expired now t = false := by
    simp only [List.any_eq_true, prune, List.mem_filter, decide_eq_true_eq, Prod.exists,
      Bool.not_eq_true']
    constructor
    · rintro ⟨k', t, h, rfl⟩
      exact ⟨t, h⟩
    · rintro ⟨t, h⟩
      exact ⟨k, t, h, rfl⟩
  unfold seen
  split
  · next h => exact iff_of_true rfl (hany.mp h)
  · next h => exact iff_of_false Bool.false_ne_true fun hex => h (hany.mpr hex)

/-- A key that was seen leaves the store as it was pruned. -/
theorem seen_of_true (h : (w.seen s k now).1 = true) : (w.seen s k now).2 = w.prune now s := by
  unfold seen at h ⊢
  split
  · rfl
  · next hnot =>
    rw [if_neg hnot] at h
    cases h

/-- A key that was not seen is added at the end. -/
theorem seen_of_false (h : (w.seen s k now).1 = false) :
    (w.seen s k now).2 = w.evict (w.prune now s) ++ [(k, now)] ∧
      k ∉ (w.prune now s).map (·.1) := by
  unfold seen at h ⊢
  split
  · next hany =>
    rw [if_pos hany] at h
    cases h
  · next hnot =>
    refine ⟨rfl, fun hmem => hnot ?_⟩
    obtain ⟨e, he, rfl⟩ := List.mem_map.mp hmem
    exact List.any_eq_true.mpr ⟨e, he, by simp⟩

/-- What is in the store was there before, or has just been recorded. -/
theorem mem_of_mem_seen {e : K × T} (h : e ∈ (w.seen s k now).2) :
    e ∈ s ∨ (w.seen s k now).1 = false ∧ e = (k, now) := by
  cases hseen : (w.seen s k now).1 with
  | true =>
    rw [seen_of_true hseen] at h
    exact .inl (prune_sublist.subset h)
  | false =>
    rw [(seen_of_false hseen).1] at h
    obtain hold | hnew := List.mem_append.mp h
    · exact .inl (prune_sublist.subset (evict_sublist.subset hold))
    · exact .inr ⟨rfl, List.mem_singleton.mp hnew⟩

/-- The order is kept as time goes on. -/
theorem Ordered.seen (h : Ordered s now) (hnow : now ≤ now') (k : K) :
    Ordered (w.seen s k now').2 now' := by
  cases hseen : (w.seen s k now').1 with
  | true =>
    rw [seen_of_true hseen]
    exact h.of_sublist prune_sublist hnow
  -- The key is put behind what is left, and no key in it is its own.
  | false =>
    obtain ⟨heq, hnew⟩ := seen_of_false hseen
    have hsub : (w.evict (w.prune now' s)).Sublist (w.prune now' s) := evict_sublist
    have hkept := h.of_sublist (hsub.trans prune_sublist) hnow
    rw [heq]
    refine ⟨?_, ?_, ?_⟩
    · rw [List.map_append, List.map_singleton, List.nodup_append]
      refine ⟨hkept.nodup, List.nodup_singleton _, ?_⟩
      intro a ha b hb
      rw [List.mem_singleton.mp hb]
      rintro rfl
      exact hnew ((hsub.map _).subset ha)
    · refine List.pairwise_append.mpr ⟨hkept.sorted, List.pairwise_singleton _ _, ?_⟩
      intro a ha b hb
      rw [List.mem_singleton.mp hb]
      exact hkept.past a ha
    · intro e he
      obtain hold | hlast := List.mem_append.mp he
      · exact hkept.past e hold
      · rw [List.mem_singleton.mp hlast]

/-- The key is still there, and everything behind it is one of the others. -/
def Kept (s : Store K T) (k : K) (t : T) (others : Finset K) : Prop :=
  ∃ older newer, s = older ++ (k, t) :: newer ∧ ∀ e ∈ newer, e.1 ∈ others

/-- A key that has not expired stays when another arrives, unless the store is full of others. -/
theorem Kept.seen {others : Finset K} (h : Kept s k t others) (hs : Ordered s now)
    (hk : k ∉ others) (hnow : now ≤ now') (hfresh : w.expired now' t = false) (key : K) :
    Kept (w.seen s key now').2 k t (addOther k others key) ∨
      w.max ≤ (addOther k others key).card := by
  obtain ⟨older, newer, rfl, hnewer⟩ := h
  have hmono : ∀ e ∈ newer, e.1 ∈ addOther k others key := fun e he =>
    mem_addOther.mpr ⟨fun heq => hk (heq ▸ hnewer e he), .inr (hnewer e he)⟩
  -- what has expired is dropped on both sides of the key
  have hprune : w.prune now' (older ++ (k, t) :: newer) =
      w.prune now' older ++ (k, t) :: w.prune now' newer := by
    rw [prune, List.filter_append, List.filter_cons_of_pos (by simpa using hfresh)]
    rfl
  have hpruned : ∀ e ∈ w.prune now' newer, e.1 ∈ addOther k others key := fun e he =>
    hmono e (prune_sublist.subset he)
  have hsub : (w.prune now' (older ++ (k, t) :: newer)).Sublist (older ++ (k, t) :: newer) :=
    prune_sublist
  have hordered := hs.of_sublist hsub hnow
  cases hseen : (w.seen (older ++ (k, t) :: newer) key now').1 with
  | true =>
    rw [seen_of_true hseen, hprune]
    exact .inl ⟨_, _, rfl, hpruned⟩
  | false =>
    obtain ⟨heq, hnew⟩ := seen_of_false hseen
    rw [hprune] at heq hnew hordered
    have hkey : key ≠ k := by
      rintro rfl
      exact hnew (List.mem_map_of_mem (List.mem_append_right _ List.mem_cons_self))
    have hlast : ∀ e ∈ w.prune now' newer ++ [(key, now')], e.1 ∈ addOther k others key := by
      intro e he
      obtain hold | hnew := List.mem_append.mp he
      · exact hpruned e hold
      · rw [List.mem_singleton.mp hnew]
        exact mem_addOther.mpr ⟨hkey, .inl rfl⟩
    rw [heq]
    by_cases hfull : w.max ≤ (w.prune now' older ++ (k, t) :: w.prune now' newer).length
    · cases holder : w.prune now' older with
      | cons e older =>
        -- an older key makes place
        rw [holder, List.cons_append] at hordered hfull
        rw [List.cons_append, evict_cons hordered (by simpa using hfull), List.append_assoc]
        exact .inl ⟨older, _, rfl, hlast⟩
      | nil =>
        -- the key is the oldest, so the store holds only others, and another has arrived
        rw [holder, List.nil_append] at hfull hnew hordered
        have hnodup : ((w.prune now' newer ++ [(key, now')]).map (·.1)).Nodup := by
          rw [List.map_append, List.map_singleton, List.nodup_append]
          refine ⟨(List.nodup_cons.mp hordered.nodup).2, List.nodup_singleton _, ?_⟩
          intro a ha b hb
          rw [List.mem_singleton.mp hb]
          rintro rfl
          exact hnew (List.mem_cons_of_mem _ ha)
        have hsubset : ((w.prune now' newer ++ [(key, now')]).map (·.1)).toFinset ⊆
            addOther k others key := by
          intro c hc
          obtain ⟨e, he, rfl⟩ := List.mem_map.mp (List.mem_toFinset.mp hc)
          exact hlast e he
        refine .inr ?_
        calc w.max ≤ (w.prune now' newer).length + 1 := by simpa using hfull
          _ = ((w.prune now' newer ++ [(key, now')]).map (·.1)).toFinset.card := by
            rw [List.toFinset_card_of_nodup hnodup]
            simp
          _ ≤ (addOther k others key).card := Finset.card_le_card hsubset
    · have hkeep : w.evict (w.prune now' older ++ (k, t) :: w.prune now' newer) =
          w.prune now' older ++ (k, t) :: w.prune now' newer := if_neg hfull
      rw [hkeep, List.append_assoc]
      exact .inl ⟨_, _, rfl, hlast⟩

/-- A key that has not expired stays, however many arrive after it, unless as many other keys came
as the store holds. -/
theorem kept_or_crowded {others : Finset K} {arrivals : List (K × T)} (h : Kept s k t others)
    (hs : Ordered s now) (hk : k ∉ others)
    (hsorted : (now :: arrivals.map (·.2)).Pairwise (· ≤ ·))
    (hfresh : ∀ a ∈ arrivals, w.expired a.2 t = false) :
    Kept (w.recordAll s arrivals) k t (addOthers k others (arrivals.map (·.1))) ∨
      w.max ≤ (addOthers k others (arrivals.map (·.1))).card := by
  -- Induction on the arrivals, each of which keeps the key or has crowded it out.
  induction arrivals generalizing s others now with
  | nil => exact .inl h
  | cons a arrivals ih =>
    rw [List.map_cons, List.pairwise_cons] at hsorted
    rw [List.forall_mem_cons] at hfresh
    have hnow := hsorted.1 a.2 List.mem_cons_self
    have hk' : k ∉ addOther k others a.1 := fun hmem => (mem_addOther.mp hmem).1 rfl
    obtain hkept | hcrowded := h.seen hs hk hnow hfresh.1 a.1
    · exact ih hkept (hs.seen hnow a.1) hk' hsorted.2 hfresh.2
    · exact .inr (hcrowded.trans (Finset.card_le_card (addOthers_subset hk' _)))

/-- A key that was recorded, and is not seen at a time when it has not expired, was crowded out by
as many others as the store holds. -/
theorem crowded_of_unseen {arrivals : List (K × T)} (hs : Ordered s now) (hnow : now ≤ t)
    (hnew : (w.seen s k t).1 = false)
    (hsorted : (t :: (arrivals.map (·.2) ++ [now'])).Pairwise (· ≤ ·))
    (hfresh : w.expired now' t = false)
    (hunseen : (w.seen (w.recordAll (w.seen s k t).2 arrivals) k now').1 = false) :
    w.max ≤ ((arrivals.map (·.1)).toFinset.erase k).card := by
  have hkept : Kept (w.seen s k t).2 k t ∅ :=
    ⟨_, [], (seen_of_false hnew).1, fun e he => absurd he List.not_mem_nil⟩
  -- Time does not go back, so none of the arrivals has expired.
  have hbefore : ∀ a ∈ arrivals, a.2 ≤ now' := by
    intro a ha
    have hpairs := (List.pairwise_append.mp (List.pairwise_cons.mp hsorted).2).2.2
    exact hpairs a.2 (List.mem_map_of_mem ha) now' (List.mem_singleton_self now')
  have hfreshAll : ∀ a ∈ arrivals, w.expired a.2 t = false := by
    intro a ha
    cases hexpired : w.expired a.2 t with
    | false => rfl
    | true =>
      have hlater := w.mono (hbefore a ha) hexpired
      rw [hfresh] at hlater
      exact hlater.symm
  have hsortedArrivals : (t :: arrivals.map (·.2)).Pairwise (· ≤ ·) :=
    hsorted.sublist ((List.sublist_append_left _ _).cons_cons t)
  -- The key is still there, or was crowded out.
  obtain ⟨older, newer, heq, -⟩ | hcrowded := kept_or_crowded hkept (hs.seen hnow k)
    (Finset.notMem_empty k) hsortedArrivals hfreshAll
  · -- if it was still there, it would be seen
    have hseen : (w.seen (w.recordAll (w.seen s k t).2 arrivals) k now').1 = true :=
      seen_iff.mpr ⟨t, by rw [heq]; simp, hfresh⟩
    rw [hunseen] at hseen
    cases hseen
  · rwa [addOthers_eq (Finset.notMem_empty k), Finset.empty_union] at hcrowded

end Keys

end Window

end Fraisier.Lib
