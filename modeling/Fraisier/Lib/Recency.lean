import Mathlib.Data.Finset.Dedup
import Mathlib.Data.List.Dedup
import Mathlib.Data.Finset.Card

/-!
# A bounded queue in the order of the last push

A queue keeps the newest push of each key and drops the oldest key over a bound. `Recent` says what
it holds after a history of pushes and drops, and `run_recent` that it does: a key is missing only
for one of the three reasons of `Missing`.
-/

namespace Fraisier.Lib.Recency

variable {α κ : Type} [DecidableEq κ] (key : α → κ) (bound : ℕ)

/-- What is done to the queue. -/
inductive Op (α κ : Type) where
  | push (a : α)
  | drop (k : κ)

/-- The last `n` elements. -/
def keepLast (n : ℕ) (q : List α) : List α := q.drop (q.length - n)

/-- The queue after a push or a drop. -/
def step (q : List α) : Op α κ → List α
  | .push a => keepLast bound (q.filter (key · ≠ key a) ++ [a])
  | .drop k => q.filter (key · ≠ k)

/-- The queue after a history. -/
def run (ops : List (Op α κ)) : List α := ops.foldl (step key bound) []

/-! ## Histories -/

/-- The operation pushes the key. -/
def pushes (k : κ) : Op α κ → Bool
  | .push a => key a = k
  | .drop _ => false

/-- What has come after the last push of a key, if there was one. -/
def since (k : κ) : List (Op α κ) → Option (List (Op α κ))
  | [] => none
  | op :: ops => match since k ops with
    | some after => some after
    | none => if pushes key k op then some ops else none

/-- The keys that are pushed, in their order. -/
def pushedKeys (ops : List (Op α κ)) : List κ := ops.filterMap fun op => match op with
  | .push a => some (key a)
  | .drop _ => none

/-- Why a key is missing: it was never pushed, or has been dropped after its last push, or as many
other keys as the queue holds have been pushed after it. -/
def Missing (ops : List (Op α κ)) (k : κ) : Prop :=
  ∀ after, since key k ops = some after →
    .drop k ∈ after ∨ bound ≤ ((pushedKeys key after).toFinset.erase k).card

/-- The push is the last one of its key, and the key has not been dropped after it. -/
def Newest (ops : List (Op α κ)) (a : α) : Prop :=
  ∃ before after, ops = before ++ .push a :: after ∧
    ∀ op ∈ after, pushes key (key a) op = false ∧ op ≠ .drop (key a)

/-- The last push of the one key has come before a push of the other. -/
def Before (ops : List (Op α κ)) (a b : α) : Prop :=
  ∃ after, since key (key a) ops = some after ∧ key b ∈ pushedKeys key after

/-- What the queue holds after a history: at most as many as the bound, one for each key, each the
newest, in the order of their last pushes; and whatever is missing is missing for a reason. -/
structure Recent (ops : List (Op α κ)) (q : List α) : Prop where
  bounded : q.length ≤ bound
  nodup : (q.map key).Nodup
  newest : ∀ a ∈ q, Newest key ops a
  ordered : q.Pairwise (Before key ops)
  missing : ∀ k, k ∉ q.map key → Missing key bound ops k

variable {key bound} {ops : List (Op α κ)} {op : Op α κ} {q : List α} {a b : α} {k : κ}

/-- One more operation comes after the last push of a key, or is it. -/
theorem since_snoc : since key k (ops ++ [op]) =
    if pushes key k op then some [] else (since key k ops).map (· ++ [op]) := by
  induction ops with
  | nil => rfl
  | cons first ops ih =>
    rw [List.cons_append, since, since, ih]
    by_cases hop : pushes key k op = true
    · simp [hop]
    · simp only [hop, if_false, Bool.false_eq_true]
      cases since key k ops with
      | some after => rfl
      | none =>
        simp only [Option.map_none]
        split <;> rfl

/-- What has come after the last push of a key is what follows a push of it, with no other. -/
theorem since_of_newest {before after : List (Op α κ)}
    (h : ∀ op ∈ after, pushes key (key a) op = false) :
    since key (key a) (before ++ .push a :: after) = some after := by
  have hafter : since key (key a) after = none := by
    induction after with
    | nil => rfl
    | cons first after ih =>
      obtain ⟨hfirst, hrest⟩ := List.forall_mem_cons.mp h
      rw [since, ih hrest, hfirst]
      rfl
  induction before with
  | nil =>
    rw [List.nil_append, since, hafter]
    simp [pushes]
  | cons first before ih => rw [List.cons_append, since, ih]

omit [DecidableEq κ] in
/-- One more operation adds the keys it pushes. -/
theorem pushedKeys_snoc : pushedKeys key (ops ++ [op]) = pushedKeys key ops ++ pushedKeys key [op] :=
  List.filterMap_append

/-! ## One operation more -/

/-- The operation neither pushes the key nor drops it. -/
def Leaves (key : α → κ) (k : κ) (op : Op α κ) : Prop := pushes key k op = false ∧ op ≠ .drop k

/-- The newest element of a key stays so where an operation leaves the key. -/
theorem Newest.snoc (h : Newest key ops a) (hop : Leaves key (key a) op) :
    Newest key (ops ++ [op]) a := by
  obtain ⟨before, after, rfl, hafter⟩ := h
  refine ⟨before, after ++ [op], by simp, fun other hother => ?_⟩
  obtain hother | hother := List.mem_append.mp hother
  · exact hafter other hother
  · rw [List.mem_singleton.mp hother]
    exact hop

/-- A key with a newest element was pushed. -/
theorem Newest.since (h : Newest key ops a) : ∃ after, since key (key a) ops = some after := by
  obtain ⟨before, after, rfl, hafter⟩ := h
  exact ⟨after, since_of_newest fun op hop => (hafter op hop).1⟩

/-- One element stays before another where an operation leaves its key. -/
theorem Before.snoc (h : Before key ops a b) (hop : Leaves key (key a) op) :
    Before key (ops ++ [op]) a b := by
  obtain ⟨after, hafter, hb⟩ := h
  refine ⟨after ++ [op], ?_, ?_⟩
  · rw [since_snoc, hop.1, hafter]
    rfl
  · rw [pushedKeys_snoc]
    exact List.mem_append_left _ hb

/-- A key that is pushed comes after every key whose last push was before. -/
theorem before_push (h : Newest key ops a) (hne : key b ≠ key a) :
    Before key (ops ++ [.push b]) a b := by
  obtain ⟨after, hafter⟩ := h.since
  refine ⟨after ++ [.push b], ?_, ?_⟩
  · rw [since_snoc, hafter]
    simp [pushes, hne]
  · rw [pushedKeys_snoc]
    exact List.mem_append_right _ (by simp [pushedKeys])

/-- A key stays missing where an operation does not push it. -/
theorem Missing.snoc (h : Missing key bound ops k) (hop : pushes key k op = false) :
    Missing key bound (ops ++ [op]) k := by
  intro after hafter
  rw [since_snoc, hop] at hafter
  obtain ⟨old, hold, rfl⟩ := Option.map_eq_some_iff.mp (by simpa using hafter)
  obtain hdrop | hcrowd := h old hold
  · exact .inl (List.mem_append_left _ hdrop)
  · right
    refine hcrowd.trans (Finset.card_le_card (Finset.erase_subset_erase k ?_))
    rw [pushedKeys_snoc, List.toFinset_append]
    exact Finset.subset_union_left

/-- A key that is dropped is missing. -/
theorem missing_drop : Missing key bound (ops ++ [.drop k]) k := by
  intro after hafter
  rw [since_snoc] at hafter
  obtain ⟨old, -, rfl⟩ := Option.map_eq_some_iff.mp (by simpa [pushes] using hafter)
  exact .inl (List.mem_append_right _ (List.mem_singleton_self _))

/-- A key that has as many others behind it as the queue holds is missing. -/
theorem missing_of_crowd {rest : List α} (ha : ∀ b ∈ rest, Before key ops a b ∧ key b ≠ key a)
    (hnodup : (rest.map key).Nodup) (hlength : bound ≤ rest.length) :
    Missing key bound ops (key a) := by
  intro after hafter
  right
  have hsub : (rest.map key).toFinset ⊆ (pushedKeys key after).toFinset.erase (key a) := by
    intro k hk
    obtain ⟨b, hb, rfl⟩ := List.mem_map.mp (List.mem_toFinset.mp hk)
    obtain ⟨⟨after', hafter', hpushed⟩, hne⟩ := ha b hb
    obtain rfl := Option.some.inj (hafter.symm.trans hafter')
    exact Finset.mem_erase.mpr ⟨hne, List.mem_toFinset.mpr hpushed⟩
  calc bound ≤ (rest.map key).length := by rwa [List.length_map]
    _ = (rest.map key).toFinset.card := (List.toFinset_card_of_nodup hnodup).symm
    _ ≤ _ := Finset.card_le_card hsub

omit [DecidableEq κ] in
/-- Filtering makes no two keys equal. -/
theorem map_filter_nodup (h : (q.map key).Nodup) (p : α → Bool) : ((q.filter p).map key).Nodup :=
  h.sublist (List.filter_sublist.map key)

/-! ## The queue -/

/-- Dropping a key keeps the queue the recent one. -/
theorem step_drop_recent (h : Recent key bound ops q) (k : κ) :
    Recent key bound (ops ++ [.drop k]) (step key bound q (.drop k)) := by
  -- What stays in the queue has another key, so the drop passes it by.
  have hleaves : ∀ a ∈ q.filter (key · ≠ k), Leaves key (key a) (.drop k) := by
    intro a ha
    have hne : key a ≠ k := by simpa using (List.mem_filter.mp ha).2
    exact ⟨rfl, fun hdrop => hne (Op.drop.inj hdrop).symm⟩
  constructor
  · exact (List.length_filter_le _ _).trans h.bounded
  · exact map_filter_nodup h.nodup _
  · exact fun a ha => (h.newest a (List.mem_of_mem_filter ha)).snoc (hleaves a ha)
  · exact (h.ordered.filter _).imp_of_mem fun ha _ hab => hab.snoc (hleaves _ ha)
  · intro k' hk'
    by_cases heq : k' = k
    · exact heq ▸ missing_drop
    · refine (h.missing k' fun hmem => hk' ?_).snoc rfl
      obtain ⟨a, ha, rfl⟩ := List.mem_map.mp hmem
      exact List.mem_map_of_mem (List.mem_filter.mpr ⟨ha, by simpa using heq⟩)

/-- The queue before it is cut to the bound. -/
theorem push_ordered (h : Recent key bound ops q) (a : α) :
    (((q.filter (key · ≠ key a) ++ [a]).map key).Nodup) ∧
      (∀ b ∈ q.filter (key · ≠ key a) ++ [a], Newest key (ops ++ [.push a]) b) ∧
      (q.filter (key · ≠ key a) ++ [a]).Pairwise (Before key (ops ++ [.push a])) := by
  -- The pushed key is filtered out before it is put at the end.
  have hother : ∀ b ∈ q.filter (key · ≠ key a), key b ≠ key a := by
    intro b hb
    simpa using (List.mem_filter.mp hb).2
  have hleaves : ∀ b ∈ q.filter (key · ≠ key a), Leaves key (key b) (.push a) := by
    intro b hb
    exact ⟨by simpa [pushes] using (hother b hb).symm, nofun⟩
  have hnewest : ∀ b ∈ q.filter (key · ≠ key a), Newest key ops b :=
    fun b hb => h.newest b (List.mem_of_mem_filter hb)
  -- The keys are different, each element is its key's newest, and they are in order.
  refine ⟨?_, ?_, ?_⟩
  · rw [List.map_append, List.nodup_append]
    refine ⟨map_filter_nodup h.nodup _, List.nodup_singleton _, ?_⟩
    intro k hk k' hk' heq
    obtain ⟨b, hb, rfl⟩ := List.mem_map.mp hk
    exact hother b hb (heq.trans (List.mem_singleton.mp hk'))
  · intro b hb
    obtain hb | hb := List.mem_append.mp hb
    · exact (hnewest b hb).snoc (hleaves b hb)
    · rw [List.mem_singleton.mp hb]
      exact ⟨ops, [], rfl, nofun⟩
  · rw [List.pairwise_append]
    refine ⟨(h.ordered.filter _).imp_of_mem fun hb _ hbc => hbc.snoc (hleaves _ hb),
      List.pairwise_singleton _ _, ?_⟩
    intro b hb c hc
    rw [List.mem_singleton.mp hc]
    exact before_push (hnewest b hb) (hother b hb).symm

/-- Pushing an element keeps the queue the recent one. -/
theorem step_push_recent (h : Recent key bound ops q) (a : α) :
    Recent key bound (ops ++ [.push a]) (step key bound q (.push a)) := by
  obtain ⟨hnodup, hnewest, hordered⟩ := push_ordered h a
  -- The queue is cut to the bound after the push.
  show Recent key bound _ (keepLast bound (q.filter (key · ≠ key a) ++ [a]))
  generalize hfull : q.filter (key · ≠ key a) ++ [a] = full at hnodup hnewest hordered ⊢
  have hsplit : full.take (full.length - bound) ++ keepLast bound full = full :=
    List.take_append_drop _ _
  have hsub : (keepLast bound full).Sublist full := List.drop_sublist _ _
  constructor
  · unfold keepLast
    rw [List.length_drop]
    omega
  · exact hnodup.sublist (hsub.map key)
  · exact fun b hb => hnewest b (hsub.mem hb)
  · exact hordered.sublist hsub
  · intro k hk
    by_cases hfullmem : k ∈ full.map key
    · -- an element over the bound: all that is kept has come after it
      obtain ⟨b, hb, rfl⟩ := List.mem_map.mp hfullmem
      rw [← hsplit] at hb
      obtain hb | hb := List.mem_append.mp hb
      · rw [← hsplit] at hnodup hordered
        rw [List.map_append] at hnodup
        have hlong : full.length - bound ≠ 0 := by
          intro hzero
          rw [hzero, List.take_zero] at hb
          cases hb
        have hlength : bound ≤ (keepLast bound full).length := by
          unfold keepLast
          rw [List.length_drop]
          omega
        have hbehind : ∀ c ∈ keepLast bound full,
            Before key (ops ++ [.push a]) b c ∧ key c ≠ key b := by
          intro c hc
          refine ⟨(List.pairwise_append.mp hordered).2.2 b hb c hc, fun heq => ?_⟩
          exact hk (heq ▸ List.mem_map_of_mem hc)
        exact missing_of_crowd hbehind (List.nodup_append.mp hnodup).2.1 hlength
      · exact absurd (List.mem_map_of_mem hb) hk
    -- A key that was not in the queue was missing before.
    · subst hfull
      have hne : key a ≠ k := by
        rintro rfl
        exact hfullmem (by simp)
      refine (h.missing k fun hmem => hfullmem ?_).snoc (by simpa [pushes] using hne)
      obtain ⟨b, hb, rfl⟩ := List.mem_map.mp hmem
      refine List.mem_map_of_mem (List.mem_append_left _ (List.mem_filter.mpr ⟨hb, ?_⟩))
      simpa using hne.symm

/-- After every history the queue is what `Recent` says. -/
theorem run_recent (ops : List (Op α κ)) : Recent key bound ops (run key bound ops) := by
  induction ops using List.reverseRecOn with
  | nil =>
    constructor
    · exact Nat.zero_le _
    · exact List.nodup_nil
    · nofun
    · exact List.Pairwise.nil
    · nofun
  | append_singleton ops op ih =>
    unfold run
    rw [List.foldl_append]
    cases op with
    | push a => exact step_push_recent ih a
    | drop k => exact step_drop_recent ih k

end Fraisier.Lib.Recency
