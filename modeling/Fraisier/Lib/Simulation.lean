import Fraisier.Lib.Interaction

/-!
# Programs that run in step

Two programs over the same calls, with values and exceptions of their own: `Simulates V W p q` says
that they make the same calls, whatever the answers, and end alike, with values in the relation `V` or
exceptions in the relation `W`. It has one rule for each way of building a program, so that the proof
follows the two programs side by side; and the runs of the one are then those of the other.
-/

namespace Fraisier.Lib.Interaction

variable {C : Type} {A : C → Type} {ε ε' ε₁ ε₁' α α' β β' γ : Type}

/-- The programs make the same calls, and end with values in `V` or exceptions in `W`. -/
inductive Simulates (V : α → α' → Prop) (W : ε → ε' → Prop) :
    Interaction A ε α → Interaction A ε' α' → Prop
  | ret {a : α} {a' : α'} (h : V a a') : Simulates V W (.ret a) (.ret a')
  | raise {e : ε} {e' : ε'} (h : W e e') : Simulates V W (.raise e) (.raise e')
  | call {c : C} {k : A c → Interaction A ε α} {k' : A c → Interaction A ε' α'}
      (h : ∀ a, Simulates V W (k a) (k' a)) : Simulates V W (.call c k) (.call c k')

/-- Two ends that are alike. -/
inductive EndsAlike (V : α → α' → Prop) (W : ε → ε' → Prop) : Except ε α → Except ε' α' → Prop
  | ok {a : α} {a' : α'} (h : V a a') : EndsAlike V W (.ok a) (.ok a')
  | error {e : ε} {e' : ε'} (h : W e e') : EndsAlike V W (.error e) (.error e')

variable {V : α → α' → Prop} {V' : β → β' → Prop} {W : ε → ε' → Prop} {W' : ε₁ → ε₁' → Prop}
  {p : Interaction A ε α} {q : Interaction A ε' α'} {f : α → Interaction A ε β}
  {g : α' → Interaction A ε' β'} {R : Rely A}

/-! ## Rules -/

/-- The rule of a value. -/
theorem simulates_pure {a : α} {a' : α'} (h : V a a') :
    Simulates V W (pure a : Interaction A ε α) (pure a') := .ret h

/-- The rule of calls. -/
theorem simulates_ask_bind {c : C} {f : A c → Interaction A ε β} {g : A c → Interaction A ε' β'}
    (h : ∀ a, Simulates V' W (f a) (g a)) : Simulates V' W (ask c >>= f) (ask c >>= g) := .call h

/-- The rule of sequencing: the second parts are run on values in `V`. -/
theorem Simulates.bind (hp : Simulates V W p q) (hf : ∀ a a', V a a' → Simulates V' W (f a) (g a')) :
    Simulates V' W (p >>= f) (q >>= g) := by
  induction hp with
  | ret h => exact hf _ _ h
  | raise h => exact .raise h
  | call _ ih => exact .call ih

/-- The rule of a value that only the first program makes of its own. -/
theorem Simulates.bind_pure {h : α → β} {V' : β → α' → Prop} (hp : Simulates V W p q)
    (hV : ∀ a a', V a a' → V' (h a) a') : Simulates V' W (p >>= fun a => pure (h a)) q := by
  induction hp with
  | ret ha => exact .ret (hV _ _ ha)
  | raise he => exact .raise he
  | call _ ih => exact .call ih

/-- The rule of loops over the items of one list, each as the one program has it and as the other:
the values so far stay in `V'`. -/
theorem Simulates.foldlM {s : γ → α} {t : γ → α'} {f : β → α × ℕ → Interaction A ε β}
    {g : β' → α' × ℕ → Interaction A ε' β'} {b : β} {b' : β'} {xs : List γ} {k : ℕ} (hb : V' b b')
    (hstep : ∀ b b', V' b b' → ∀ x ∈ xs, ∀ i, Simulates V' W (f b (s x, i)) (g b' (t x, i))) :
    Simulates V' W (((xs.map s).zipIdx k).foldlM f b) (((xs.map t).zipIdx k).foldlM g b') := by
  induction xs generalizing b b' k with
  | nil => exact simulates_pure hb
  | cons x xs ih =>
    rw [List.map_cons, List.map_cons, List.zipIdx_cons, List.zipIdx_cons, List.foldlM_cons,
      List.foldlM_cons]
    refine (hstep b b' hb x List.mem_cons_self k).bind fun b b' hb => ?_
    exact ih hb fun b b' hb y hy => hstep b b' hb y (List.mem_cons_of_mem x hy)

/-- The rule of handlers: what they see is alike. -/
theorem Simulates.attempt (hp : Simulates V W p q) :
    Simulates (EndsAlike V W) W' (p.attempt : Interaction A ε₁ _) q.attempt := by
  induction hp with
  | ret h => exact .ret (.ok h)
  | raise h => exact .ret (.error h)
  | call _ ih => exact .call ih

/-- A program whose exceptions are told in other words runs as the program does. -/
theorem simulates_mapError {h : ε' → ε} (hW : ∀ e, W (h e) e) (q : Interaction A ε' α) :
    Simulates Eq W (q.mapError h) q := by
  induction q with
  | ret a => exact .ret rfl
  | raise e => exact .raise (hW e)
  | call c k ih => exact .call ih

/-! ## Runs -/

/-- A run of the one is a run of the other, with an end that is alike. -/
theorem Simulates.runs (hp : Simulates V W p q) {h es : History A} {r : Except ε α}
    (hr : p.Runs R h es r) : ∃ r', q.Runs R h es r' ∧ EndsAlike V W r r' := by
  induction hr generalizing q with
  | ret =>
    cases hp with
    | ret hV => exact ⟨_, .ret, .ok hV⟩
  | raise =>
    cases hp with
    | raise hW => exact ⟨_, .raise, .error hW⟩
  | call a ha _ ih =>
    cases hp with
    | call hk =>
      obtain ⟨r', hr', halike⟩ := ih (hk a)
      exact ⟨r', .call a ha hr', halike⟩

end Fraisier.Lib.Interaction
