import Mathlib.Order.Basic

/-!
# Programs that obey a law

A `Law` says what a piece of a program may do: it relates the state the piece starts in, how it
ends (normally, or by an exception) and the state it leaves. A `Program` is a state transformer
with exceptions that carries the proof that it obeys its law, so that a fact every statement has
(what it leaves alone, how it treats one kind of exception) is proved once, at the statement, and
holds of everything built from it.

- `Program.lawful`: every run of a program obeys its law;
- `Program.weaken`: a program under a law is one under any law that allows more;
- `Program.Ends`: the outcome of a program from a state, as two postconditions, one for a normal
  end and one for an exception, with one rule for each way of building a program.
-/

namespace Fraisier.Lib

variable {σ ε α β : Type}

/-- What a piece of a program may do: `Allows s e t` when it may start in `s`, end with the
exception `e` (`none` for a normal end) and leave `t`. -/
structure Law (σ ε : Type) where
  /-- The steps the law allows. -/
  Allows : σ → Option ε → σ → Prop
  /-- Doing nothing is allowed. -/
  skip : ∀ s, Allows s none s
  /-- A piece that ends normally may be followed by another. -/
  chain : ∀ {s t u e}, Allows s none t → Allows t e u → Allows s e u

namespace Law

/-- A law is below another when the other allows everything it does. -/
instance : LE (Law σ ε) := ⟨fun L M => ∀ s e t, L.Allows s e t → M.Allows s e t⟩

/-- The law that allows everything. -/
def any : Law σ ε where
  Allows _ _ _ := True
  skip _ := trivial
  chain _ _ := trivial

/-- Every law is below the one that allows everything. -/
theorem le_any (L : Law σ ε) : L ≤ any := fun _ _ _ _ => trivial

end Law

/-! ## Results -/

/-- How a run ended and the state it left. The state survives an exception: what was done
before it stays done. -/
abbrev Result (σ ε α : Type) := Except ε α × σ

namespace Result

/-- The exception a result carries, if it is one. -/
def raised? : Result σ ε α → Option ε
  | (.ok _, _) => none
  | (.error e, _) => some e

/-- Going on after a normal end; an exception skips what follows. -/
def andThen (r : Result σ ε α) (k : α → σ → Result σ ε β) : Result σ ε β :=
  match r with
  | (.ok a, t) => k a t
  | (.error e, t) => (.error e, t)

/-- A result meets `Q` if it is a normal end and `E` if it is an exception. -/
def Meets (r : Result σ ε α) (Q : α → σ → Prop) (E : ε → σ → Prop) : Prop :=
  match r with
  | (.ok a, t) => Q a t
  | (.error e, t) => E e t

variable {r : Result σ ε α} {Q Q' : α → σ → Prop} {E E' : ε → σ → Prop}

/-- A sequence meets what its second part meets after the first. -/
theorem meets_andThen {k : α → σ → Result σ ε β} {R : β → σ → Prop} :
    (r.andThen k).Meets R E ↔ r.Meets (fun a t => (k a t).Meets R E) E := by
  rcases r with ⟨_ | _, _⟩ <;> rfl

/-- What is met may be weakened. -/
theorem Meets.mono (h : r.Meets Q E) (hQ : ∀ a t, Q a t → Q' a t)
    (hE : ∀ e t, E e t → E' e t) : r.Meets Q' E' := by
  rcases r with ⟨e | a, t⟩
  · exact hE e t h
  · exact hQ a t h

/-- Two conditions that are met are met together. -/
theorem Meets.and (h : r.Meets Q E) (h' : r.Meets Q' E') :
    r.Meets (fun a t => Q a t ∧ Q' a t) fun e t => E e t ∧ E' e t := by
  rcases r with ⟨_ | _, _⟩ <;> exact ⟨h, h'⟩

end Result

/-! ## Programs -/

/-- A state transformer with exceptions that obeys the law `L`. -/
structure Program (L : Law σ ε) (α : Type) where
  /-- The run from a state. -/
  run : σ → Result σ ε α
  /-- Every run obeys the law. -/
  lawful : ∀ s, L.Allows s (run s).raised? (run s).2

namespace Program

variable {L M : Law σ ε}

/-- Returning a value does nothing. -/
protected def pure (a : α) : Program L α where
  run s := (.ok a, s)
  lawful s := L.skip s

/-- Running one program after another. -/
protected def bind (p : Program L α) (f : α → Program L β) : Program L β where
  run s := (p.run s).andThen fun a t => (f a).run t
  lawful s := by
    have h := p.lawful s
    rcases hp : p.run s with ⟨_ | a, t⟩ <;> rw [hp] at h
    · exact h
    · exact L.chain h ((f a).lawful t)

instance : Monad (Program L) where
  pure := Program.pure
  bind := Program.bind

/-- A program under a law is one under a law that allows more. -/
def weaken (h : L ≤ M) (p : Program L α) : Program M α where
  run := p.run
  lawful s := h _ _ _ (p.lawful s)

/-- Reading the state changes nothing. -/
def read (f : σ → α) : Program L α where
  run s := (.ok (f s), s)
  lawful s := L.skip s

/-- Raising an exception changes nothing. -/
def raise (e : ε) : Program (Law.any : Law σ ε) α where
  run s := (.error e, s)
  lawful _ := trivial

/-- Catching every exception. The handler starts in the state the exception left. -/
def tryCatch (p : Program (Law.any : Law σ ε) α) (handler : ε → Program (Law.any : Law σ ε) α) :
    Program (Law.any : Law σ ε) α where
  run s := match p.run s with
    | (.ok a, t) => (.ok a, t)
    | (.error e, t) => (handler e).run t
  lawful _ := trivial

/-- Any program may be called where everything is allowed. -/
instance : MonadLiftT (Program L) (Program (Law.any : Law σ ε)) where
  monadLift := weaken L.le_any

/-- The program, started in `s`, meets `Q` if it ends normally and `E` if it raises. -/
def Ends (p : Program L α) (s : σ) (Q : α → σ → Prop) (E : ε → σ → Prop) : Prop :=
  (p.run s).Meets Q E

variable {p : Program L α} {f : α → Program L β} {s : σ} {Q Q' : α → σ → Prop}
  {R : β → σ → Prop} {E E' : ε → σ → Prop}

/-- A value ends at once. -/
theorem ends_pure {a : α} : (pure a : Program L α).Ends s Q E ↔ Q a s := Iff.rfl

/-- Raising ends with what is raised. -/
theorem ends_raise {e : ε} {Q : α → σ → Prop} :
    (raise e : Program (Law.any : Law σ ε) α).Ends s Q E ↔ E e s := Iff.rfl

/-- The rule of sequencing. -/
theorem ends_bind : (p >>= f).Ends s R E ↔ p.Ends s (fun a t => (f a).Ends t R E) E :=
  Result.meets_andThen

/-- The rule of handlers. -/
theorem ends_tryCatch {p : Program (Law.any : Law σ ε) α}
    {handler : ε → Program (Law.any : Law σ ε) α} :
    (p.tryCatch handler).Ends s Q E ↔ p.Ends s Q fun e t => (handler e).Ends t Q E := by
  unfold Ends tryCatch
  rcases hp : p.run s with ⟨_ | _, _⟩ <;> simp only [hp] <;> rfl

/-- A program under a condition. -/
theorem ends_ite {c : Prop} [Decidable c] {q : Program L α} :
    (if c then p else q).Ends s Q E ↔ (c → p.Ends s Q E) ∧ (¬c → q.Ends s Q E) := by
  by_cases h : c
  · simp [h]
  · simp [h]

/-- The rule of consequence. -/
theorem Ends.mono (h : p.Ends s Q E) (hQ : ∀ a t, Q a t → Q' a t)
    (hE : ∀ e t, E e t → E' e t) : p.Ends s Q' E' :=
  Result.Meets.mono h hQ hE

/-- Two outcomes hold together. -/
theorem Ends.and (h : p.Ends s Q E) (h' : p.Ends s Q' E') :
    p.Ends s (fun a t => Q a t ∧ Q' a t) fun e t => E e t ∧ E' e t :=
  Result.Meets.and h h'

/-- What holds of the state however the program ends. -/
theorem ends_state {P : σ → Prop} : p.Ends s (fun _ => P) (fun _ => P) ↔ P (p.run s).2 := by
  unfold Ends
  rcases p.run s with ⟨_ | _, _⟩ <;> exact Iff.rfl

/-- Every program ends somehow. -/
theorem ends_true (p : Program L α) (s : σ) : p.Ends s (fun _ _ => True) fun _ _ => True := by
  unfold Ends
  rcases p.run s with ⟨_ | _, _⟩ <;> trivial

/-- Every program ends as its law says. -/
theorem ends_lawful (p : Program L α) (s : σ) :
    p.Ends s (fun _ t => L.Allows s none t) fun e t => L.Allows s (some e) t := by
  have h := p.lawful s
  unfold Ends
  rcases hp : p.run s with ⟨_ | _, _⟩ <;> rw [hp] at h <;> exact h

end Program

end Fraisier.Lib
