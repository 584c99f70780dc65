import Fraisier.Deploy.Record

/-!
# Specifications of the pieces of a deploy

A `Watch` is what one property looks at: some attributes of the deployer, and a mark that it keeps
as deeds are done. `Spec w P p Q E` says that the piece `p`, started where `P` holds of the
attributes and the mark, ends where `Q` holds of them if it returns, and `E` if it raises. There
is one rule for each kind of statement; `Spec.frame` covers every piece that touches nothing the
watch looks at, whatever it does. `Raises φ p` says which exceptions leave `p`.
-/

namespace Fraisier.Deploy

open Fraisier.Lib

variable {α β γ μ : Type} {K K' : List Aspect} {L M : Law Run Exn}

/-- A flag of a mark that one kind of deed turns on, for good, says whether such a deed was done. -/
theorem foldl_flag {step : μ → Deed → μ} (flag : μ → Bool) (turns : Deed → Bool)
    (h : ∀ m d, flag (step m d) = (flag m || turns d)) (ds : List Deed) (m : μ) :
    flag (ds.foldl step m) = (flag m || ds.any turns) := by
  induction ds generalizing m with
  | nil => simp
  | cons d ds ih => rw [List.foldl_cons, ih, h, List.any_cons, Bool.or_assoc]

/-- What a property looks at. -/
structure Watch (α μ : Type) where
  /-- The attributes it reads. -/
  attrs : Attributes → α
  /-- The mark at the beginning of a run. -/
  init : μ
  /-- The mark after one more deed. -/
  step : μ → Deed → μ
  /-- The aspects it looks at. -/
  reads : List Aspect
  /-- Only attributes of these aspects matter. -/
  attrs_eq : ∀ x y : Attributes, (∀ a ∈ reads, x.Agree y a) → attrs y = attrs x
  /-- Only deeds of these aspects matter. -/
  step_eq : ∀ m d, d.aspect ∉ reads → step m d = m

namespace Watch

variable (w : Watch α μ)

/-- The mark of a run. -/
def mark (s : Run) : μ := s.deeds.foldl w.step w.init

/-- A tick of the clock is no deed. -/
@[simp] theorem mark_tick (s : Run) : w.mark s.tick = w.mark s := rfl

/-- Further deeds are folded onto the mark. -/
theorem mark_of_deeds {s t : Run} {ds : List Deed} (h : t.deeds = s.deeds ++ ds) :
    w.mark t = ds.foldl w.step (w.mark s) := by
  rw [mark, h, List.foldl_append, mark]

/-- Deeds of aspects that a watch does not read leave its mark. -/
theorem foldl_step_eq (ds : List Deed) (h : ∀ d ∈ ds, d.aspect ∉ w.reads) (m : μ) :
    ds.foldl w.step m = m := by
  induction ds with
  | nil => rfl
  | cons d ds ih =>
    rw [List.foldl_cons, w.step_eq m d (h d (by simp)), ih fun d hd => h d (by simp [hd])]

/-- A piece that touches none of the aspects changes nothing that is looked at. -/
theorem eq_of_touches {s t : Run} (h : Touches K s t) (hK : ∀ a ∈ K, a ∉ w.reads) :
    w.attrs t.self = w.attrs s.self ∧ w.mark t = w.mark s := by
  obtain ⟨ds, hds, hin⟩ := h.deeds
  refine ⟨w.attrs_eq _ _ fun a ha => h.keeps a fun haK => hK a haK ha, ?_⟩
  rw [w.mark_of_deeds hds, w.foldl_step_eq ds fun d hd => hK _ (hin d hd)]

/-- The mark of an effect's deeds. -/
@[simp] theorem mark_apply (f : Effect K) (s : Run) :
    w.mark (f.apply s) = f.deeds.foldl w.step (w.mark s) :=
  w.mark_of_deeds (by simp [Run.deeds, List.flatMap_map, Event.deeds])

/-- The end of the timer leaves the mark. -/
@[simp] theorem mark_see_expired (s : Run) (hs : List Handler) :
    w.mark (s.see (.expired hs)) = w.mark s := by
  simp [mark, Run.deeds, Event.deeds]

/-- A displaced exception leaves the mark. -/
@[simp] theorem mark_see_displaced (s : Run) (e : Exn) : w.mark (s.see (.displaced e)) = w.mark s := by
  simp [mark, Run.deeds, Event.deeds]

end Watch

/-- What a call may end with: the timer's exception, or one from outside. -/
def Exn.Outside (e : Exn) : Prop :=
  e = .deploymentTimeoutExpired ∨ ∃ f : Fault, e = .raised f.failure

/-- The piece `p`, started where `P` holds, returns where `Q` holds or raises where `E` holds. -/
def Spec (w : Watch α μ) (P : α → μ → Prop) (p : Program L β) (Q : β → α → μ → Prop)
    (E : Exn → α → μ → Prop) : Prop :=
  ∀ s, P (w.attrs s.self) (w.mark s) →
    p.Ends s (fun b t => Q b (w.attrs t.self) (w.mark t)) fun e t => E e (w.attrs t.self) (w.mark t)

namespace Spec

variable {w : Watch α μ} {P P' : α → μ → Prop} {p : Program L β} {Q Q' : β → α → μ → Prop}
  {E E' : Exn → α → μ → Prop}

/-- The rule of consequence. -/
theorem mono (h : Spec w P p Q E) (hP : ∀ a m, P' a m → P a m)
    (hQ : ∀ b a m, Q b a m → Q' b a m) (hE : ∀ e a m, E e a m → E' e a m) : Spec w P' p Q' E' :=
  fun s hs => (h s (hP _ _ hs)).mono (fun b _ => hQ b _ _) fun e _ => hE e _ _

/-- A weaker outcome. -/
theorem post (h : Spec w P p Q E) (hQ : ∀ b a m, Q b a m → Q' b a m)
    (hE : ∀ e a m, E e a m → E' e a m) : Spec w P p Q' E' :=
  h.mono (fun _ _ => id) hQ hE

/-- A stronger start. -/
theorem pre (h : Spec w P p Q E) (hP : ∀ a m, P' a m → P a m) : Spec w P' p Q E :=
  h.mono hP (fun _ _ _ => id) fun _ _ _ => id

/-- A specification from the facts that hold at the start. -/
theorem of_pre (h : ∀ a m, P a m → Spec w (fun a' m' => a' = a ∧ m' = m) p Q E) : Spec w P p Q E :=
  fun s hs => h _ _ hs s ⟨rfl, rfl⟩

/-- Every program ends somehow. -/
theorem any : Spec w P p (fun _ _ _ => True) fun _ _ _ => True :=
  fun s _ => Program.ends_true p s

/-- Two outcomes hold together. -/
theorem and (h : Spec w P p Q E) (h' : Spec w P p Q' E') :
    Spec w P p (fun b a m => Q b a m ∧ Q' b a m) fun e a m => E e a m ∧ E' e a m :=
  fun s hs => (h s hs).and (h' s hs)

/-- A fact that neither the attributes nor the mark can change. -/
theorem keep {c : Prop} (h : Spec w P p Q E) :
    Spec w (fun a m => c ∧ P a m) p (fun b a m => c ∧ Q b a m) fun e a m => c ∧ E e a m :=
  fun s hs => (h s hs.2).mono (fun _ _ hq => ⟨hs.1, hq⟩) fun _ _ he => ⟨hs.1, he⟩

/-- What every deed of `K` preserves, whatever becomes of the attributes in `K`, is kept by
whatever touches `K`. -/
theorem invariant {p : Piece K β} (hstep : ∀ a m d, d.aspect ∈ K → P a m → P a (w.step m d))
    (hattrs : ∀ x y : Attributes, (∀ a ∉ K, x.Agree y a) → ∀ m, P (w.attrs x) m → P (w.attrs y) m) :
    Spec w P p (fun _ => P) fun _ => P := by
  intro s hs
  -- one step for each deed, then the attributes
  have hrun : ∀ ds : List Deed, (∀ d ∈ ds, d.aspect ∈ K) → ∀ m, P (w.attrs s.self) m →
      P (w.attrs s.self) (ds.foldl w.step m) := by
    intro ds hds
    induction ds with
    | nil => exact fun _ => id
    | cons d ds ih =>
      intro m hm
      exact ih (fun d hd => hds d (by simp [hd])) _ (hstep _ m d (hds d (by simp)) hm)
  have hend : ∀ t, Touches K s t → P (w.attrs t.self) (w.mark t) := by
    intro t ht
    obtain ⟨ds, hds, hin⟩ := ht.deeds
    rw [w.mark_of_deeds hds]
    exact hattrs _ _ ht.keeps _ (hrun ds hin _ hs)
  exact (Program.ends_lawful p s).mono (fun _ t (ht : Obeys K s none t) => hend t ht.touches)
    fun e t (ht : Obeys K s (some e) t) => hend t ht.touches

/-- Whatever touches nothing that is looked at keeps what is known. -/
theorem frame {p : Piece K β} (hK : ∀ a ∈ K, a ∉ w.reads) :
    Spec w P p (fun _ => P) fun _ => P := by
  intro s hs
  refine (Program.ends_lawful p s).mono (fun _ t (ht : Obeys K s none t) => ?_)
    fun e t (ht : Obeys K s (some e) t) => ?_
  · obtain ⟨ha, hm⟩ := w.eq_of_touches ht.touches hK
    rwa [ha, hm]
  · obtain ⟨ha, hm⟩ := w.eq_of_touches ht.touches hK
    rwa [ha, hm]

/-- The rule of a value. -/
theorem pure {b : β} (h : ∀ a m, P a m → Q b a m) : Spec w P (pure b : Program L β) Q E :=
  fun _ hs => h _ _ hs

/-- The rule of sequencing. -/
theorem bind {R : γ → α → μ → Prop} {q : Program L γ} {f : γ → Program L β}
    (h : Spec w P q R E) (hf : ∀ c, Spec w (R c) (f c) Q E) : Spec w P (q >>= f) Q E :=
  fun s hs => Program.ends_bind.2 ((h s hs).mono (fun c t ht => hf c t ht) fun _ _ => id)

/-- Whatever comes first, when it and its exceptions do not matter. -/
theorem after {q : Program L γ} {f : γ → Program L β}
    (hf : ∀ c, Spec w (fun _ _ => True) (f c) Q fun _ _ _ => True) :
    Spec w P (q >>= f) Q fun _ _ _ => True :=
  bind any hf

/-- A called function does what it does. -/
theorem lift {p : Piece K β} [Within K K'] (h : Spec w P p Q E) :
    Spec w P (monadLift p : Piece K' β) Q E := h

/-- A called function, and what follows it. -/
theorem lift_bind {p : Piece K β} [Within K K'] {f : β → Piece K' γ} {R : γ → α → μ → Prop}
    {Q : β → α → μ → Prop} (h : Spec w P p Q E) (hf : ∀ b, Spec w (Q b) (f b) R E) :
    Spec w P ((monadLift p : Piece K' β) >>= f) R E :=
  bind (lift h) hf

/-- A called function that touches nothing that is looked at, and what follows it. -/
theorem frame_bind {p : Piece K β} [Within K K'] {f : β → Piece K' γ} {R : γ → α → μ → Prop}
    (hK : ∀ a ∈ K, a ∉ w.reads) (hE : ∀ e a m, P a m → E e a m)
    (hf : ∀ b, Spec w P (f b) R E) : Spec w P ((monadLift p : Piece K' β) >>= f) R E :=
  bind ((lift (frame hK)).post (fun _ _ _ => id) hE) hf

/-- The rule of a failure. -/
theorem raise {f : Failure} (h : ∀ a m, P a m → E (.raised f) a m) :
    Spec w P (raise f : Piece K β) Q E :=
  fun _ hs => h _ _ hs

/-- Reading the attributes gives those that the watch sees. -/
theorem self_bind {f : Attributes → Piece K β}
    (hf : ∀ x, Spec w (fun a m => P a m ∧ a = w.attrs x) (f x) Q E) :
    Spec w P (self >>= f) Q E :=
  fun s hs => Program.ends_bind.2 (hf s.self s ⟨hs, rfl⟩)

/-- Reading the attributes, when what they are does not matter. -/
theorem self_bind_any {f : Attributes → Piece K β} (hf : ∀ x, Spec w P (f x) Q E) :
    Spec w P (self >>= f) Q E :=
  self_bind fun x => (hf x).pre fun _ _ h => h.1

/-- The rule of a condition. -/
theorem ite {c : Prop} [Decidable c] {q : Program L β} (ht : c → Spec w P p Q E)
    (hf : ¬c → Spec w P q Q E) : Spec w P (if c then p else q) Q E := by
  split
  · exact ht ‹_›
  · exact hf ‹_›

/-- A statement under a condition. -/
theorem whenever {c : Bool} {p : Piece K Unit} {Q : Unit → α → μ → Prop}
    (ht : c = true → Spec w P p Q E) (hf : c = false → ∀ a m, P a m → Q () a m) :
    Spec w P (whenever c p) Q E := by
  cases c
  · exact pure (hf rfl)
  · exact ht rfl

/-! ### Statements -/

/-- The rule of an effect that cannot fail. -/
theorem note {f : Effect K} {Q : Unit → α → μ → Prop}
    (ok : ∀ x m, P (w.attrs x) m → Q () (w.attrs (f.update x)) (f.deeds.foldl w.step m)) :
    Spec w P (note f) Q E := by
  intro s hs
  simpa [Program.Ends, Deploy.note, Result.Meets] using ok s.self (w.mark s) hs

/-- The rule of an effect at which the timer may go off, before or after it. -/
theorem assign {env : Env} {f : Effect K} {Q : Unit → α → μ → Prop}
    (ok : ∀ x m, P (w.attrs x) m → Q () (w.attrs (f.update x)) (f.deeds.foldl w.step m))
    (hE : ∀ a m, P a m → E .deploymentTimeoutExpired a m)
    (hE' : ∀ x m, P (w.attrs x) m →
      E .deploymentTimeoutExpired (w.attrs (f.update x)) (f.deeds.foldl w.step m)) :
    Spec w P (assign env f) Q E := by
  intro s hs
  unfold Program.Ends Deploy.assign
  rcases hd : s.due env with _ | (_ | _)
  · simpa [Result.Meets, hd] using ok s.self (w.mark s) hs
  · simpa [Result.Meets, hd] using hE _ _ hs
  · simpa [Result.Meets, hd] using hE' s.self (w.mark s) hs

/-- The rule of an effect that may fail, done or not. -/
theorem attempt {env : Env} {fails : ℕ → Bool} {f : Effect K} {Q : Bool → α → μ → Prop}
    (ok : ∀ x m, P (w.attrs x) m → Q true (w.attrs (f.update x)) (f.deeds.foldl w.step m))
    (failed : (∃ n, fails n = true) → ∀ x m, P (w.attrs x) m → Q false (w.attrs x) m ∧
      Q false (w.attrs (f.update x)) (f.deeds.foldl w.step m))
    (hE : ∀ x m, P (w.attrs x) m → E .deploymentTimeoutExpired (w.attrs x) m ∧
      E .deploymentTimeoutExpired (w.attrs (f.update x)) (f.deeds.foldl w.step m)) :
    Spec w P (attempt env fails f) Q E := by
  intro s hs
  unfold Program.Ends Deploy.attempt
  have hok := ok s.self (w.mark s) hs
  have hx := hE s.self (w.mark s) hs
  -- By whether the timer is due, and in which part of the effect.
  rcases hd : s.due env with _ | (_ | _)
  · by_cases hf : fails s.clock
    · have hfail := failed ⟨_, hf⟩ s.self (w.mark s) hs
      cases ht : env.took s.clock
      · simpa [Result.Meets, hd, hf, ht] using hfail.1
      · simpa [Result.Meets, hd, hf, ht] using hfail.2
    · simpa [Result.Meets, hd, hf] using hok
  · simpa [Result.Meets, hd] using hx.1
  · cases ht : env.took s.clock
    · simpa [Result.Meets, hd, ht] using hx.1
    · simpa [Result.Meets, hd, ht] using hx.2

/-- The rule of a call, which is answered or raises what comes from outside. -/
theorem call {env : Env} {answer : ℕ → β} {took returned : β → Effect K}
    (ok : ∀ n x m, P (w.attrs x) m →
      Q (answer n) (w.attrs ((returned (answer n)).update ((took (answer n)).update x)))
        ((returned (answer n)).deeds.foldl w.step ((took (answer n)).deeds.foldl w.step m)))
    (hE : ∀ n e x m, e.Outside → P (w.attrs x) m → E e (w.attrs x) m ∧
      E e (w.attrs ((took (answer n)).update x)) ((took (answer n)).deeds.foldl w.step m)) :
    Spec w P (call env answer took returned) Q E := by
  intro s hs
  unfold Program.Ends Deploy.call
  have hok := ok s.clock s.self (w.mark s) hs
  -- a call that raises has had its effect or none
  have hx : ∀ e : Exn, e.Outside → ∀ t, t = (if env.took s.clock then
      (took (answer s.clock)).apply s.tick else s.tick) → E e (w.attrs t.self) (w.mark t) := by
    rintro e he t rfl
    cases env.took s.clock
    · exact (hE s.clock e s.self (w.mark s) he hs).1
    · simpa using (hE s.clock e s.self (w.mark s) he hs).2
  rcases hd : s.due env with _ | (_ | (_ | _ | f))
  · rcases hf : env.fault s.clock with _ | f
    · simpa [Result.Meets, hd, hf] using hok
    · simpa [Result.Meets, hd, hf] using hx _ (.inr ⟨f, rfl⟩) _ rfl
  · have h := (hE s.clock _ s.self (w.mark s) (.inl rfl) hs).1
    simpa [Result.Meets, hd] using h
  · simpa [Result.Meets, hd] using hx _ (.inl rfl) _ rfl
  · simpa [Result.Meets, hd] using hok
  · simpa [Result.Meets, hd] using hx _ (.inr ⟨f, rfl⟩) _ rfl

/-- A call that does nothing the run can see keeps what is known. -/
theorem ask {env : Env} {answer : ℕ → β} :
    Spec w P (Deploy.call env answer : Piece K β) (fun _ => P) fun _ => P :=
  call (fun _ _ _ h => h) fun _ _ _ _ _ h => ⟨h, h⟩

/-- The rule of a call without effects. -/
theorem ask_bind {env : Env} {answer : ℕ → γ} {f : γ → Piece K β} (hE : ∀ e a m, P a m → E e a m)
    (hf : ∀ c, Spec w P (f c) Q E) : Spec w P (Deploy.call env answer >>= f) Q E :=
  bind (ask.post (fun _ _ _ => id) hE) hf

/-- The rule of a handler of every exception. -/
theorem exceptException {p : Piece K β} {h : Handler} {handler : Exn → Piece K β} {E' : Exn → α → μ → Prop}
    (hb : Spec w P p Q E') (hh : ∀ e, Spec w (E' e) (handler e) Q E) :
    Spec w P (exceptException h p handler) Q E := by
  intro s hs
  have hs' := hb (s.enter h) hs
  unfold Program.Ends Deploy.exceptException at *
  rcases hr : p.run (s.enter h) with ⟨e | b, t⟩ <;> rw [hr] at hs' <;> dsimp only <;> rw [hr]
  · exact hh e t.leave hs'
  · exact hs'

/-- The rule of a handler of failures, which lets the timer's exception pass. -/
theorem exceptFailure {p : Piece K β} {handler : Failure → Piece K β} {E' : Exn → α → μ → Prop}
    (hb : Spec w P p Q E') (ht : ∀ a m, E' .deploymentTimeoutExpired a m →
      E .deploymentTimeoutExpired a m)
    (hh : ∀ f, Spec w (E' (.raised f)) (handler f) Q E) :
    Spec w P (exceptFailure p handler) Q E := by
  intro s hs
  have hs' := hb s hs
  unfold Program.Ends Deploy.exceptFailure at *
  rcases hr : p.run s with ⟨(_ | f) | b, t⟩ <;> rw [hr] at hs' <;> dsimp only <;> rw [hr]
  · exact ht _ _ hs'
  · exact hh f t hs'
  · exact hs'

/-- The rule of a note that is made when the timer goes off. -/
theorem noteTimeout {p : Piece K β} {note : Effect K} {hn : note.deeds = []} {E' : Exn → α → μ → Prop}
    (hb : Spec w P p Q E') (ht : ∀ x m, E' .deploymentTimeoutExpired (w.attrs x) m →
      E .deploymentTimeoutExpired (w.attrs (note.update x)) m)
    (hr : ∀ f a m, E' (.raised f) a m → E (.raised f) a m) :
    Spec w P (noteTimeout p note hn) Q E := by
  intro s hs
  have hs' := hb s hs
  unfold Program.Ends Deploy.noteTimeout at *
  rcases hr' : p.run s with ⟨(_ | f) | b, t⟩ <;> rw [hr'] at hs' <;> dsimp only <;> rw [hr']
  · simpa [Result.Meets, hn] using ht t.self _ hs'
  · exact hr f _ _ hs'
  · exact hs'

/-- A clause whose body may raise anything. -/
theorem exceptFailure_after {p : Piece K β} {handler : Failure → Piece K β}
    (hb : Spec w P p Q fun _ _ _ => True)
    (hh : ∀ f, Spec w (fun _ _ => True) (handler f) Q fun _ _ _ => True) :
    Spec w P (Deploy.exceptFailure p handler) Q fun _ _ _ => True :=
  exceptFailure hb (fun _ _ => id) hh

/-- The rule of that note where nothing is asked of an exception. -/
theorem noteTimeout_after {p : Piece K β} {note : Effect K} {hn : note.deeds = []}
    (hb : Spec w P p Q fun _ _ _ => True) :
    Spec w P (Deploy.noteTimeout p note hn) Q fun _ _ _ => True :=
  noteTimeout hb (fun _ _ => id) fun _ _ _ => id

/-- A clean-up changes nothing that is looked at, but it may replace the exception by one of its
own, which is of the kind `φ`, and leave the mark `lost`. -/
theorem ensuring_lost {p : Piece K β} {cleanup : Piece [] Unit} {lost : Effect K} {φ : Exn → Prop}
    (hb : Spec w P p Q E) (hφ : ∀ s, cleanup.Ends s (fun _ _ => True) fun e _ => φ e)
    (hQ : ∀ b e a m, φ e → Q b a m → E e a m)
    (ht : ∀ e a m, φ .deploymentTimeoutExpired → E e a m → E .deploymentTimeoutExpired a m)
    (hE : ∀ e f x m, φ (.raised f) → E e (w.attrs x) m →
      E (.raised f) (w.attrs (lost.update x)) (lost.deeds.foldl w.step m)) :
    Spec w P (ensuring p cleanup lost) Q E := by
  intro s hs
  have hs' := hb s hs
  unfold Program.Ends Deploy.ensuring at *
  -- By how the program ends, and then by how the clean-up does.
  rcases hr' : p.run s with ⟨e | b, t⟩ <;> rw [hr'] at hs'
  · have hu := ((Spec.frame (w := w) (p := cleanup) (P := E e) (by simp)) t hs').and (hφ t)
    unfold Program.Ends at hu
    rcases hcr : cleanup.run t with ⟨(_ | f) | ⟨⟩, u⟩ <;> rw [hcr] at hu
    · simpa [Result.Meets, hr', hcr] using ht _ _ _ hu.2 hu.1
    · simpa [Result.Meets, hr', hcr] using hE _ _ _ _ hu.2 hu.1
    · simpa [Result.Meets, hr', hcr] using hu.1
  · have hu := ((Spec.frame (w := w) (p := cleanup) (P := Q b) (by simp)) t hs').and (hφ t)
    unfold Program.Ends at hu
    rcases hcr : cleanup.run t with ⟨(_ | f) | ⟨⟩, u⟩ <;> rw [hcr] at hu
    · simpa [Result.Meets, hr', hcr] using hQ _ _ _ _ hu.2 hu.1
    · simpa [Result.Meets, hr', hcr] using hQ _ _ _ _ hu.2 hu.1
    · simpa [Result.Meets, hr', hcr] using hu.1

/-- A clean-up that leaves no mark. -/
theorem ensuring {p : Piece K β} {cleanup : Piece [] Unit} {φ : Exn → Prop} (hb : Spec w P p Q E)
    (hφ : ∀ s, cleanup.Ends s (fun _ _ => True) fun e _ => φ e)
    (hQ : ∀ b e a m, φ e → Q b a m → E e a m)
    (hE : ∀ e e' a m, φ e' → E e a m → E e' a m) :
    Spec w P (ensuring p cleanup) Q E :=
  ensuring_lost hb hφ hQ (fun e a m => hE e _ a m) fun e _ x m => hE e _ (w.attrs x) m

/-- The rule of a handler. -/
theorem tryCatch {p : Program (Law.any : Law Run Exn) β} {handler : Exn → Program Law.any β}
    {E' : Exn → α → μ → Prop} (hb : Spec w P p Q E') (hh : ∀ e, Spec w (E' e) (handler e) Q E) :
    Spec w P (p.tryCatch handler) Q E :=
  fun s hs => Program.ends_tryCatch.2 ((hb s hs).mono (fun _ _ => id) fun e t ht => hh e t ht)

end Spec

/-! ## What a piece raises -/

/-- Every exception that leaves the piece is of the kind `φ`. -/
def Raises (φ : Exn → Prop) (p : Program L β) : Prop :=
  ∀ s, p.Ends s (fun _ _ => True) fun e _ => φ e

namespace Raises

variable {p : Program L β} {φ ψ : Exn → Prop}

/-- A value raises nothing. -/
theorem pure {b : β} : Raises φ (pure b : Program L β) := fun _ => trivial

/-- A sequence raises what its parts raise. -/
theorem bind {f : β → Program L γ} (h : Raises φ p) (hf : ∀ b, Raises φ (f b)) :
    Raises φ (p >>= f) :=
  fun s => Program.ends_bind.2 ((h s).mono (fun b t _ => hf b t) fun _ _ => id)

/-- A piece raises the same among larger ones. -/
theorem lift {p : Piece K β} [Within K K'] (h : Raises φ p) :
    Raises φ (monadLift p : Piece K' β) := h

/-- Reading the attributes raises nothing. -/
theorem self_bind {f : Attributes → Piece K β} (hf : ∀ x, Raises φ (f x)) :
    Raises φ (self >>= f) :=
  fun s => Program.ends_bind.2 (hf s.self s)

/-- A condition raises what its branches raise. -/
theorem ite {c : Prop} [Decidable c] {q : Program L β} (ht : Raises φ p) (hf : Raises φ q) :
    Raises φ (if c then p else q) := by
  split <;> assumption

/-- What is done under a condition raises what it raises. -/
theorem whenever {c : Bool} {p : Piece K Unit} (h : Raises φ p) : Raises φ (whenever c p) :=
  ite h pure

/-- A note raises nothing. -/
theorem note {f : Effect K} : Raises φ (note f) := fun _ => trivial

/-- A failure raises itself. -/
theorem raise {f : Failure} (h : φ (.raised f)) : Raises φ (raise f : Piece K β) := fun _ => h

/-- An effect raises the timer's exception at most. -/
theorem assign {env : Env} {f : Effect K} (h : φ .deploymentTimeoutExpired) :
    Raises φ (assign env f) := by
  intro s
  unfold Program.Ends Deploy.assign
  rcases hd : s.due env with _ | (_ | _) <;> simp [Result.Meets, hd, h]

/-- An effect that may fail raises the timer's exception at most. -/
theorem attempt {env : Env} {fails : ℕ → Bool} {f : Effect K} (h : φ .deploymentTimeoutExpired) :
    Raises φ (attempt env fails f) := by
  intro s
  unfold Program.Ends Deploy.attempt
  rcases hd : s.due env with _ | (_ | _)
  · by_cases hf : fails s.clock <;> simp [Result.Meets, hd, hf]
  all_goals simp [Result.Meets, hd, h]

/-- A call raises what comes from outside. -/
theorem call {env : Env} {answer : ℕ → β} {took returned : β → Effect K}
    (h : ∀ e : Exn, e.Outside → φ e) : Raises φ (call env answer took returned) := by
  intro s
  unfold Program.Ends Deploy.call
  rcases hd : s.due env with _ | (_ | (_ | _ | f))
  · rcases hf : env.fault s.clock with _ | f
    · simp [Result.Meets, hd, hf]
    · simpa [Result.Meets, hd, hf] using h _ (.inr ⟨f, rfl⟩)
  · simpa [Result.Meets, hd] using h _ (.inl rfl)
  · simpa [Result.Meets, hd] using h _ (.inl rfl)
  · simp [Result.Meets, hd]
  · simpa [Result.Meets, hd] using h _ (.inr ⟨f, rfl⟩)

/-- Every exception is caught, so only the handler's get out. -/
theorem exceptException_of {p : Piece K β} {h : Handler} {handler : Exn → Piece K β}
    (hp : Raises ψ p) (hh : ∀ e, ψ e → Raises φ (handler e)) :
    Raises φ (exceptException h p handler) := by
  intro s
  have hs := hp (s.enter h)
  unfold Program.Ends Deploy.exceptException at *
  rcases hr : p.run (s.enter h) with ⟨e | b, t⟩ <;> rw [hr] at hs <;> dsimp only <;> rw [hr]
  · exact hh e hs t.leave
  · trivial

/-- Every program raises something or nothing. -/
theorem any : Raises (fun _ => True) p := Program.ends_true p

/-- A handler of every exception raises what is raised in handling. -/
theorem exceptException {p : Piece K β} {h : Handler} {handler : Exn → Piece K β}
    (hh : ∀ e, Raises φ (handler e)) : Raises φ (exceptException h p handler) :=
  exceptException_of any fun e _ => hh e

/-- Every exception but the timer's is caught, so only the timer's and the handler's get out. -/
theorem exceptFailure {p : Piece K β} {handler : Failure → Piece K β} (hp : Raises ψ p)
    (ht : ψ .deploymentTimeoutExpired → φ .deploymentTimeoutExpired)
    (hh : ∀ f, ψ (.raised f) → Raises φ (handler f)) : Raises φ (exceptFailure p handler) := by
  intro s
  have hs := hp s
  unfold Program.Ends Deploy.exceptFailure at *
  rcases hr : p.run s with ⟨(_ | f) | b, t⟩ <;> rw [hr] at hs <;> dsimp only <;> rw [hr]
  · exact ht hs
  · exact hh f hs t
  · trivial

/-- A cleanup adds what it raises itself. -/
theorem ensuring {p : Piece K β} {cleanup : Piece [] Unit} {lost : Effect K} (hp : Raises φ p)
    (hc : Raises φ cleanup) : Raises φ (ensuring p cleanup lost) := by
  intro s
  have hs := hp s
  unfold Program.Ends Deploy.ensuring at *
  rcases hr : p.run s with ⟨e | b, t⟩ <;> rw [hr] at hs
  all_goals
    have hu := hc t
    unfold Program.Ends at hu
    rcases hcr : cleanup.run t with ⟨(_ | f) | ⟨⟩, u⟩ <;> rw [hcr] at hu <;> simp only [hr, hcr]
    -- the clean-up's exception, if it raises; else what the body ended with
    · exact hu
    · exact hu
    · exact hs

/-- What a piece raises, beside what it does. -/
theorem spec {w : Watch α μ} {P : α → μ → Prop} {Q : β → α → μ → Prop} {E : Exn → α → μ → Prop}
    (h : Raises φ p) (hs : Spec w P p Q E) : Spec w P p Q fun e a m => φ e ∧ E e a m :=
  fun s hP => ((h s).and (hs s hP)).mono (fun _ _ => And.right) fun _ _ => id

end Raises

/-! ## Outside the block -/

/-- A specification outside the `deployment_timeout` block, where no exception is the timer's. -/
def Calm (w : Watch α μ) (P : α → μ → Prop) (p : Program L β) (Q : β → α → μ → Prop)
    (E : Failure → α → μ → Prop) : Prop :=
  ∀ s, s.armed = false → P (w.attrs s.self) (w.mark s) →
    p.Ends s (fun b t => t.armed = false ∧ Q b (w.attrs t.self) (w.mark t))
      fun e t => ∃ f, e = .raised f ∧ t.armed = false ∧ E f (w.attrs t.self) (w.mark t)

/-- Outside the block the timer does not go off. -/
theorem Spec.calm {w : Watch α μ} {P : α → μ → Prop} {Q : β → α → μ → Prop}
    {E : Exn → α → μ → Prop} {p : Piece K β} (h : Spec w P p Q E) :
    Calm w P p Q fun f => E (.raised f) := by
  intro s ha hP
  refine ((h s hP).and (Program.ends_lawful p s)).mono
    (fun b t ⟨hq, (hlaw : Obeys K s none t)⟩ => ⟨hlaw.armed.trans ha, hq⟩)
    fun e t ⟨he, (hlaw : Obeys K s (some e) t)⟩ => ?_
  cases e with
  | raised f => exact ⟨f, rfl, hlaw.armed.trans ha, he⟩
  | deploymentTimeoutExpired =>
    cases hlaw.timer with
    | spent _ _ _ exit => exact absurd rfl exit
    | quiet _ _ exit => exact absurd rfl exit
    | wentOff armed => simp [ha] at armed

namespace Calm

variable {w : Watch α μ} {P P' : α → μ → Prop} {p : Program L β} {Q Q' : β → α → μ → Prop}
  {E E' : Failure → α → μ → Prop}

/-- The rule of consequence, without a timer. -/
theorem mono (h : Calm w P p Q E) (hP : ∀ a m, P' a m → P a m)
    (hQ : ∀ b a m, Q b a m → Q' b a m) (hE : ∀ f a m, E f a m → E' f a m) : Calm w P' p Q' E' :=
  fun s ha hs => (h s ha (hP _ _ hs)).mono (fun b _ ⟨ht, hq⟩ => ⟨ht, hQ b _ _ hq⟩)
    fun _ _ ⟨f, he, ht, hf⟩ => ⟨f, he, ht, hE f _ _ hf⟩

/-- A specification from the facts that hold at the start. -/
theorem of_pre (h : ∀ a m, P a m → Calm w (fun a' m' => a' = a ∧ m' = m) p Q E) : Calm w P p Q E :=
  fun s ha hs => h _ _ hs s ha ⟨rfl, rfl⟩

/-- The rule of sequencing, without a timer. -/
theorem bind {R : γ → α → μ → Prop} {q : Program L γ} {f : γ → Program L β}
    (h : Calm w P q R E) (hf : ∀ c, Calm w (R c) (f c) Q E) : Calm w P (q >>= f) Q E :=
  fun s ha hs => Program.ends_bind.2 ((h s ha hs).mono (fun c t ht => hf c t ht.1 ht.2) fun _ _ => id)

/-- The rule of a piece among larger ones, without a timer. -/
theorem lift {p : Piece K β} [Within K K'] (h : Calm w P p Q E) :
    Calm w P (monadLift p : Piece K' β) Q E := h

/-- The rule of a handler, without a timer. -/
theorem exceptException {p : Piece K β} {h : Handler} {handler : Exn → Piece K β}
    {E' : Failure → α → μ → Prop} (hb : Calm w P p Q E')
    (hh : ∀ f, Calm w (E' f) (handler (.raised f)) Q E) :
    Calm w P (exceptException h p handler) Q E := by
  intro s ha hs
  have hs' := hb (s.enter h) ha hs
  unfold Program.Ends Deploy.exceptException at *
  rcases hr : p.run (s.enter h) with ⟨e | b, t⟩ <;> rw [hr] at hs' <;> dsimp only <;> rw [hr]
  · obtain ⟨f, rfl, ht, hf⟩ := hs'
    exact hh f t.leave ht hf
  · exact hs'

/-- Reading the attributes gives those that the watch sees. -/
theorem self_bind {f : Attributes → Piece K β}
    (hf : ∀ x, Calm w (fun a m => P a m ∧ a = w.attrs x) (f x) Q E) : Calm w P (self >>= f) Q E :=
  fun s ha hs => Program.ends_bind.2 (hf s.self s ha ⟨hs, rfl⟩)

end Calm

/-- No exception but the timer's leaves the piece. -/
abbrev Contained (p : Program L β) : Prop := Raises (· = .deploymentTimeoutExpired) p

/-- Outside the block there is no timer, so a contained piece returns. -/
theorem Contained.returns {w : Watch α μ} {P : α → μ → Prop} {Q : β → α → μ → Prop}
    {E : Failure → α → μ → Prop} {p : Piece K β} (h : Contained p) (hs : Calm w P p Q E) {s : Run}
    (ha : s.armed = false) (hP : P (w.attrs s.self) (w.mark s)) :
    p.Ends s (fun b t => Q b (w.attrs t.self) (w.mark t) ∧ Obeys K s none t) fun _ _ => False := by
  refine (((h s).and (hs s ha hP)).and (Program.ends_lawful p s)).mono
    (fun b t ht => ⟨ht.1.2.2, ht.2⟩) fun e t ht => ?_
  obtain ⟨⟨rfl, f, hf, -⟩, -⟩ := ht
  cases hf

end Fraisier.Deploy
