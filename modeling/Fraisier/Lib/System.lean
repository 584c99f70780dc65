import Mathlib.Logic.Function.Basic

/-!
# Systems of steps

A `System` takes one labelled step at a time; a label that is not enabled in a state has no step
there. Interleavings of processes are runs whose labels say who moves. `Runs S C s is t` is a run
from `s` to `t` along the labels `is` in which every step meets the condition `C`, read in the state
the step is taken from.

- `Runs.invariant`: what every step that meets the condition preserves, every run does;
- `Runs.imp`: along such an invariant, one condition gives another;
- `Runs.congr`: where an invariant makes two conditions the same, they admit the same runs;
- `runs_of_run`: a run that is computed is a run;
- `Runs.meets`: what the steps of a run meet is read in the states that are computed.
-/

namespace Fraisier.Lib

variable {σ ι : Type}

/-- A system that takes one labelled step at a time. -/
structure System (σ ι : Type) where
  /-- The state after a step, when the label is enabled. -/
  next : σ → ι → Option σ

namespace System

variable {S : System σ ι} {C D : σ → ι → Prop} {s t u : σ} {i : ι} {is js : List ι}

/-- The state after the steps of a list of labels, when each is enabled in its turn. -/
def run (S : System σ ι) : σ → List ι → Option σ
  | s, [] => some s
  | s, i :: is => (S.next s i).bind fun t => S.run t is

/-- A run whose steps all meet the condition `C`. -/
inductive Runs (S : System σ ι) (C : σ → ι → Prop) : σ → List ι → σ → Prop
  | nil (s : σ) : Runs S C s [] s
  | cons {s t u : σ} {i : ι} {is : List ι} (meets : C s i) (step : S.next s i = some t)
      (rest : Runs S C t is u) : Runs S C s (i :: is) u

/-- Any run at all. -/
abbrev Any : σ → ι → Prop := fun _ _ => True

/-- A run is a step and the run after it. -/
theorem runs_cons : S.Runs C s (i :: is) u ↔ C s i ∧ ∃ t, S.next s i = some t ∧ S.Runs C t is u := by
  constructor
  · rintro ⟨⟩
    exact ⟨‹_›, _, ‹_›, ‹_›⟩
  · rintro ⟨hc, t, hs, hr⟩
    exact .cons hc hs hr

/-- A weaker condition admits more runs. -/
theorem Runs.mono (h : S.Runs C s is t) (hCD : ∀ s i, C s i → D s i) : S.Runs D s is t := by
  induction h with
  | nil s => exact .nil s
  | cons hc hs _ ih => exact .cons (hCD _ _ hc) hs ih

/-- One run after another. -/
theorem Runs.append (h : S.Runs C s is t) (h' : S.Runs C t js u) : S.Runs C s (is ++ js) u := by
  induction h with
  | nil s => exact h'
  | cons hc hs _ ih => exact .cons hc hs (ih h')

/-- What every step preserves, every run does. -/
theorem Runs.invariant {I : σ → Prop} (h : S.Runs C s is t)
    (hstep : ∀ s i t, I s → C s i → S.next s i = some t → I t) (hs : I s) : I t := by
  induction h with
  | nil s => exact hs
  | cons hc hn _ ih => exact ih (hstep _ _ _ hs hc hn)

/-- What is preserved may be used to read one condition off another. -/
theorem Runs.imp {I : σ → Prop} (h : S.Runs C s is t)
    (hstep : ∀ s i t, I s → C s i → S.next s i = some t → I t) (hCD : ∀ s i, I s → C s i → D s i)
    (hs : I s) : S.Runs D s is t := by
  induction h with
  | nil s => exact .nil s
  | cons hc hn _ ih => exact .cons (hCD _ _ hs hc) hn (ih (hstep _ _ _ hs hc hn))

/-- Two conditions that agree wherever a run can be admit the same runs. -/
theorem Runs.congr {I : σ → Prop} (hstep : ∀ s i t, I s → D s i → S.next s i = some t → I t)
    (hCD : ∀ s i t, I s → S.next s i = some t → (C s i ↔ D s i)) (hs : I s) :
    S.Runs C s is t ↔ S.Runs D s is t := by
  constructor
  · intro h
    induction h with
    | nil s => exact .nil s
    | cons hc hn _ ih =>
      have hd := (hCD _ _ _ hs hn).mp hc
      exact .cons hd hn (ih (hstep _ _ _ hs hd hn))
  · intro h
    induction h with
    | nil s => exact .nil s
    | cons hd hn _ ih => exact .cons ((hCD _ _ _ hs hn).mpr hd) hn (ih (hstep _ _ _ hs hd hn))

/-- A computed run is a run. -/
theorem runs_of_run (h : S.run s is = some t) : S.Runs Any s is t := by
  induction is generalizing s with
  | nil => exact Option.some.inj h ▸ .nil s
  | cons i is ih =>
    obtain ⟨u, hu, hr⟩ := Option.bind_eq_some_iff.mp h
    exact .cons trivial hu (ih hr)

/-- A step of a run meets its condition in the state that the steps before it lead to. -/
theorem Runs.meets (h : S.Runs C s (is ++ i :: js) t) (hu : S.run s is = some u) : C u i := by
  induction is generalizing s with
  | nil =>
    obtain rfl := Option.some.inj hu
    exact (runs_cons.mp h).1
  | cons j is ih =>
    obtain ⟨-, v, hv, hr⟩ := runs_cons.mp h
    refine ih hr ?_
    rw [run, hv] at hu
    exact hu

/-- A run whose last state is checked by computation. -/
theorem exists_run {p : σ → Prop} [DecidablePred p]
    (h : (S.run s is).any (fun t => decide (p t)) = true) : ∃ t, S.Runs Any s is t ∧ p t := by
  obtain ⟨t, ht, hp⟩ := (Option.any_eq_true _ _).mp h
  exact ⟨t, runs_of_run ht, of_decide_eq_true hp⟩

end System

end Fraisier.Lib
