import Mathlib.Data.List.Basic
import Mathlib.Data.List.Nodup
import Mathlib.Tactic.Tauto

/-!
# Looking up a key

`List.lookup` in a list of entries, as a dictionary is one: with the entries of a key left out, with
other values, and where the key does not occur. `put` gives a key a value, and leaves the entries of
the others.
-/

namespace Fraisier.Lib

variable {κ β γ : Type} {key other : κ}

section Lookup

variable [BEq κ] [LawfulBEq κ]

/-- A key that no entry has. -/
theorem lookup_of_forall_ne {l : List (κ × β)} (h : ∀ entry ∈ l, entry.1 ≠ key) :
    l.lookup key = none := by
  rw [List.lookup_eq_none_iff]
  intro entry hentry
  simpa using (h entry hentry).symm

section Filter

variable [DecidableEq κ]

/-- Leaving the entries of another key out changes nothing. -/
theorem lookup_filter_ne (h : other ≠ key) (l : List (κ × β)) :
    (l.filter (·.1 ≠ key)).lookup other = l.lookup other := by
  induction l with
  | nil => rfl
  | cons entry l ih =>
    by_cases hkey : entry.1 = key
    · have hne : (other == entry.1) = false := by simpa [hkey] using h
      rw [List.filter_cons_of_neg (by simpa using hkey), List.lookup_cons, hne, ih]
    · rw [List.filter_cons_of_pos (by simpa using hkey), List.lookup_cons, List.lookup_cons, ih]

/-- A key that is filtered out is not found. -/
theorem lookup_filter_self (l : List (κ × β)) : (l.filter (·.1 ≠ key)).lookup key = none :=
  lookup_of_forall_ne fun _ h => of_decide_eq_true (List.mem_filter.mp h).2

end Filter

omit [LawfulBEq κ] in
/-- Other values for the same keys. -/
theorem lookup_map (f : β → γ) (l : List (κ × β)) (key : κ) :
    (l.map fun entry => (entry.1, f entry.2)).lookup key = (l.lookup key).map f := by
  induction l with
  | nil => rfl
  | cons entry l ih =>
    rw [List.map_cons, List.lookup_cons, List.lookup_cons, ih]
    split <;> rfl

/-- Leaving entries out by their keys. -/
theorem lookup_filter_key (p : κ → Bool) (l : List (κ × β)) (key : κ) :
    (l.filter fun entry => p entry.1).lookup key = if p key then l.lookup key else none := by
  induction l with
  | nil => simp
  | cons entry l ih =>
    obtain ⟨k, v⟩ := entry
    by_cases hkey : key = k
    · cases hp : p k <;> simp [hkey, hp, hkey ▸ ih]
    · have hne : (key == k) = false := by simpa using hkey
      cases hp : p k <;> simp [hp, ih, List.lookup_cons, hne]

/-- What is found is an entry. -/
theorem mem_of_lookup {l : List (κ × β)} {v : β} (h : l.lookup key = some v) : (key, v) ∈ l := by
  obtain ⟨before, after, rfl, -⟩ := List.lookup_eq_some_iff.mp h
  exact List.mem_append_right _ List.mem_cons_self

/-- Entries that are made of the members of a list, one for each key at most. -/
theorem lookup_filterMap {α : Type} {name : α → κ} {l : List α} (h : (l.map name).Nodup)
    (f : α → Option β) {a : α} (ha : a ∈ l) :
    (l.filterMap fun a => (f a).map (name a, ·)).lookup (name a) = f a := by
  -- Induction on the members: those that follow the one of the key have other keys.
  induction l with
  | nil => nomatch ha
  | cons b l ih =>
    rw [List.map_cons, List.nodup_cons] at h
    have hnone : (l.filterMap fun a => (f a).map (name a, ·)).lookup (name b) = none := by
      refine lookup_of_forall_ne fun entry hentry heq => h.1 ?_
      obtain ⟨c, hc, hsome⟩ := List.mem_filterMap.mp hentry
      obtain ⟨v, -, rfl⟩ := Option.map_eq_some_iff.mp hsome
      exact heq ▸ List.mem_map_of_mem hc
    rcases List.mem_cons.mp ha with rfl | ha
    · cases hf : f a with
      | none => rw [List.filterMap_cons_none (by rw [hf]; rfl), hnone]
      | some v =>
        rw [List.filterMap_cons_some (b := (name a, v)) (by rw [hf]; rfl), List.lookup_cons_self]
    · have hne : name a ≠ name b := fun heq => h.1 (heq ▸ List.mem_map_of_mem ha)
      have hbeq : (name a == name b) = false := by simpa using hne
      cases hf : f b with
      | none => rw [List.filterMap_cons_none (by rw [hf]; rfl), ih h.2 ha]
      | some v =>
        rw [List.filterMap_cons_some (b := (name b, v)) (by rw [hf]; rfl), List.lookup_cons, hbeq,
          ih h.2 ha]

/-- Entries that are made of the members of a list, one for each key. -/
theorem lookup_map_name {α : Type} {name : α → κ} {l : List α} (h : (l.map name).Nodup)
    (f : α → β) {a : α} (ha : a ∈ l) : (l.map fun a => (name a, f a)).lookup (name a) = some (f a) := by
  have hsome := lookup_filterMap h (fun a => some (f a)) ha
  rw [← hsome, ← List.filterMap_eq_map]
  rfl

/-- Two keys that have one value, where no value is there twice. -/
theorem lookup_injective {l : List (κ × β)} (h : (l.map Prod.snd).Nodup) {v : β}
    (hkey : l.lookup key = some v) (hother : l.lookup other = some v) : key = other := by
  -- Induction on the entries: a value of the first is none of the others'.
  induction l with
  | nil => nomatch hkey
  | cons entry l ih =>
    rw [List.map_cons, List.nodup_cons] at h
    have hmem : ∀ {k}, l.lookup k = some v → v ∈ l.map Prod.snd := fun hk =>
      List.mem_map_of_mem (f := Prod.snd) (mem_of_lookup hk)
    rw [List.lookup_cons] at hkey hother
    by_cases h₁ : key = entry.1
    · by_cases h₂ : other = entry.1
      · rw [h₁, h₂]
      · rw [beq_false_of_ne h₂] at hother
        rw [h₁, beq_self_eq_true] at hkey
        exact absurd (Option.some.inj hkey ▸ hmem hother) h.1
    · rw [beq_false_of_ne h₁] at hkey
      by_cases h₂ : other = entry.1
      · rw [h₂, beq_self_eq_true] at hother
        exact absurd (Option.some.inj hother ▸ hmem hkey) h.1
      · rw [beq_false_of_ne h₂] at hother
        exact ih h.2 hkey hother

/-- A key that is there once has the value it stands beside. -/
theorem lookup_eq_some_iff_mem {l : List (κ × β)} (h : (l.map Prod.fst).Nodup) {v : β} :
    l.lookup key = some v ↔ (key, v) ∈ l := by
  induction l with
  | nil => simp
  | cons entry l ih =>
    rw [List.map_cons, List.nodup_cons] at h
    obtain ⟨k, v'⟩ := entry
    rw [List.lookup_cons, List.mem_cons, Prod.mk.injEq]
    by_cases hk : key = k
    · subst hk
      have hnot : (key, v) ∉ l := fun hmem => h.1 (List.mem_map.mpr ⟨_, hmem, rfl⟩)
      simp [hnot, eq_comm]
    · have hother : (key == k) = false := beq_eq_false_iff_ne.mpr hk
      rw [hother, ih h.2]
      simp [hk]

/-- The order of the keys does not count. -/
theorem lookup_perm {l l' : List (κ × β)} (hperm : l.Perm l') (h : (l'.map Prod.fst).Nodup)
    (key : κ) : l.lookup key = l'.lookup key := by
  have hkeys : (l.map Prod.fst).Nodup := (hperm.map _).nodup_iff.mpr h
  ext v
  rw [lookup_eq_some_iff_mem hkeys, lookup_eq_some_iff_mem h, hperm.mem_iff]

end Lookup

/-! ## Giving a key a value -/

section Put

variable [DecidableEq κ] {value : β}

/-- `l[key] = value`. -/
def put (key : κ) (value : β) : List (κ × β) → List (κ × β)
  | [] => [(key, value)]
  | entry :: l => if entry.1 = key then (key, value) :: l else entry :: put key value l

attribute [local simp] put

/-- Putting a value under a key that is there keeps the keys. -/
theorem map_fst_put_of_mem {l : List (κ × β)} (h : key ∈ l.map Prod.fst) :
    (put key value l).map Prod.fst = l.map Prod.fst := by
  induction l with
  | nil => nomatch h
  | cons entry l ih =>
    by_cases hkey : entry.1 = key
    · rw [put, if_pos hkey, List.map_cons, List.map_cons, hkey]
    · have hrest := (List.mem_cons.mp h).resolve_left (Ne.symm hkey)
      rw [put, if_neg hkey, List.map_cons, List.map_cons, ih hrest]

/-- A key is there when it was or was put. -/
theorem mem_map_fst_put {l : List (κ × β)} :
    other ∈ (put key value l).map Prod.fst ↔ other = key ∨ other ∈ l.map Prod.fst := by
  induction l with
  | nil => simp [put]
  | cons entry l ih =>
    by_cases hkey : entry.1 = key
    · rw [put, if_pos hkey, List.map_cons, List.map_cons, hkey, List.mem_cons, ← or_assoc, or_self]
    · rw [put, if_neg hkey, List.map_cons, List.map_cons, List.mem_cons, List.mem_cons, ih,
        or_left_comm]

/-- Putting a value makes no two keys equal. -/
theorem nodup_put {l : List (κ × β)} (h : (l.map Prod.fst).Nodup) :
    ((put key value l).map Prod.fst).Nodup := by
  induction l with
  | nil => exact List.nodup_singleton _
  | cons entry l ih =>
    rw [List.map_cons, List.nodup_cons] at h
    by_cases hkey : entry.1 = key
    · rw [put, if_pos hkey, List.map_cons, ← hkey, List.nodup_cons]
      exact h
    · rw [put, if_neg hkey, List.map_cons, List.nodup_cons, mem_map_fst_put]
      exact ⟨fun hor => hor.elim hkey h.1, ih h.2⟩

/-- Other values for the same keys, before or after. -/
theorem map_put (f : κ → β → γ) (l : List (κ × β)) :
    (put key value l).map (fun entry => (entry.1, f entry.1 entry.2)) =
      put key (f key value) (l.map fun entry => (entry.1, f entry.1 entry.2)) := by
  induction l with
  | nil => rfl
  | cons entry l ih =>
    by_cases hkey : entry.1 = key
    · rw [put, if_pos hkey, List.map_cons, List.map_cons, put, if_pos hkey]
    · rw [put, if_neg hkey, List.map_cons, List.map_cons, put, if_neg hkey, ih]

/-- What was put is found. -/
theorem lookup_put_self [BEq κ] [LawfulBEq κ] (key : κ) (value : β) (l : List (κ × β)) :
    (put key value l).lookup key = some value := by
  induction l with
  | nil => exact List.lookup_cons_self
  | cons entry l ih =>
    by_cases hkey : entry.1 = key
    · rw [put, if_pos hkey, List.lookup_cons_self]
    · rw [put, if_neg hkey, List.lookup_cons, beq_false_of_ne (Ne.symm hkey), ih]

/-- Putting a value leaves the other keys' values. -/
theorem lookup_put_of_ne [BEq κ] [LawfulBEq κ] (h : other ≠ key) (l : List (κ × β)) :
    (put key value l).lookup other = l.lookup other := by
  induction l with
  | nil => rw [put, List.lookup_cons, beq_false_of_ne h]
  | cons entry l ih =>
    by_cases hkey : entry.1 = key
    · have hother : (other == entry.1) = false := beq_false_of_ne (hkey ▸ h)
      rw [put, if_pos hkey, List.lookup_cons, beq_false_of_ne h, List.lookup_cons, hother]
    · rw [put, if_neg hkey, List.lookup_cons, List.lookup_cons, ih]

/-- An entry is the new one or an old one. -/
theorem eq_or_mem_of_mem_put {l : List (κ × β)} {entry : κ × β} (h : entry ∈ put key value l) :
    entry = (key, value) ∨ entry ∈ l := by
  induction l with
  | nil => exact .inl (List.mem_singleton.mp h)
  | cons first l ih =>
    rw [put] at h
    split at h
    · exact (List.mem_cons.mp h).imp_right (List.mem_cons_of_mem _)
    · rcases List.mem_cons.mp h with rfl | h
      · exact .inr List.mem_cons_self
      · exact (ih h).imp_right (List.mem_cons_of_mem _)

/-- The key has the value, and the other keys those they had. -/
theorem mem_put_iff {l : List (κ × β)} (h : (l.map Prod.fst).Nodup) {entry : κ × β} :
    entry ∈ put key value l ↔ entry = (key, value) ∨ entry.1 ≠ key ∧ entry ∈ l := by
  induction l with
  | nil => simp [put]
  | cons first l ih =>
    rw [List.map_cons, List.nodup_cons] at h
    by_cases hkey : first.1 = key
    · have hother : entry ∈ l → entry.1 ≠ key := fun hmem heq =>
        h.1 (List.mem_map.mpr ⟨entry, hmem, heq.trans hkey.symm⟩)
      have hfirst : entry = first → entry.1 = key := fun heq => heq ▸ hkey
      rw [put, if_pos hkey, List.mem_cons, List.mem_cons]
      tauto
    · have hfirst : entry = first → entry.1 ≠ key := fun heq => heq ▸ hkey
      rw [put, if_neg hkey, List.mem_cons, List.mem_cons, ih h.2]
      tauto

end Put

end Fraisier.Lib
