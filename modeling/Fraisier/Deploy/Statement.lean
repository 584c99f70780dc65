import Fraisier.Deploy.Run

/-!
# Statements of a deploy

`Piece K α` is a piece of a run that returns an `α` and touches nothing but the aspects in `K`.
Its law (`law K`) has two parts:

- `Touches K`: the attributes and the kinds of deeds outside `K` are left alone;
- `Timer`: the timer's exception leaves the piece exactly when it was raised in it with none of
  the piece's own handlers open.

Both are proved here, once for each kind of statement: an outside call (`call`), an assignment
(`assign`), `raise`, the `except` clauses (`exceptException`, `exceptFailure`) and `finally`
(`ensuring`). Every function of the deploy path is built from these.
-/

namespace Fraisier.Deploy

open Fraisier.Lib

variable {α β : Type} {K K' C : List Aspect} {s t u : Run} {e : Option Exn}

/-! ## The law of a piece -/

/-- The piece leaves alone everything that does not belong to `K`. -/
structure Touches (K : List Aspect) (s t : Run) : Prop where
  /-- It adds events to the trace: deeds of `K`, and the timer's. -/
  grows : ∃ es, t.trace = s.trace ++ es ∧ ∀ d, Event.did d ∈ es → d.aspect ∈ K
  /-- It leaves the other attributes alone. -/
  keeps : ∀ a ∉ K, s.self.Agree t.self a

/-- What does nothing touches nothing. -/
theorem Touches.refl (s : Run) : Touches K s s :=
  ⟨⟨[], by simp⟩, fun _ _ => .refl _ _⟩

/-- Two steps in a row touch what either touches. -/
theorem Touches.trans (h : Touches K s t) (h' : Touches K t u) : Touches K s u := by
  obtain ⟨es, ht, hes⟩ := h.grows
  obtain ⟨es', hu, hes'⟩ := h'.grows
  refine ⟨⟨es ++ es', by rw [hu, ht, List.append_assoc], fun d hd => ?_⟩,
    fun a ha => (h.keeps a ha).trans (h'.keeps a ha)⟩
  rcases List.mem_append.mp hd with hd | hd
  · exact hes d hd
  · exact hes' d hd

/-- What touches little touches no more than what is allowed. -/
theorem Touches.mono (hK : K ⊆ K') (h : Touches K s t) : Touches K' s t := by
  obtain ⟨es, ht, hes⟩ := h.grows
  exact ⟨⟨es, ht, fun d hd => hK (hes d hd)⟩, fun a ha => h.keeps a fun ha' => ha (hK ha')⟩

/-- The deeds of a piece that touches `K`. -/
theorem Touches.deeds (h : Touches K s t) :
    ∃ ds, t.deeds = s.deeds ++ ds ∧ ∀ d ∈ ds, d.aspect ∈ K := by
  obtain ⟨es, ht, hes⟩ := h.grows
  refine ⟨es.flatMap Event.deeds, by simp [Run.deeds, ht], fun d hd => ?_⟩
  obtain ⟨e, he, hd⟩ := List.mem_flatMap.mp hd
  cases e with
  | did d' => exact hes d (by simp_all [Event.deeds])
  | _ => simp [Event.deeds] at hd

/-- What a piece that starts in `s`, ends with `e` and leaves `t` does to the timer. -/
inductive Timer (s : Run) (e : Option Exn) (t : Run) : Prop
  /-- The timer had gone off before. -/
  | spent (before : s.alarm.expiry.isSome) (same : t.alarm.expiry = s.alarm.expiry)
      (early : t.alarm.early = s.alarm.early) (exit : e ≠ some .deploymentTimeoutExpired)
  /-- The timer did not go off. -/
  | quiet (before : s.alarm.expiry = none) (after : t.alarm.expiry = none)
      (exit : e ≠ some .deploymentTimeoutExpired)
  /-- The timer went off in the piece, with the piece's handlers `inner` open. -/
  | wentOff (armed : s.armed = true) (before : s.alarm.expiry = none) (inner : List Handler)
      (after : t.alarm.expiry = some (inner ++ s.handlers))
      (exit : e = some .deploymentTimeoutExpired ↔ inner = [])
      (late : inner = [] → t.alarm.late = [])

/-- A piece in which the timer does not go off. -/
theorem Timer.idle (hx : t.alarm.expiry = s.alarm.expiry)
    (hl : s.alarm.expiry.isSome → t.alarm.early = s.alarm.early)
    (he : e ≠ some .deploymentTimeoutExpired) : Timer s e t := by
  cases h : s.alarm.expiry with
  | none => exact .quiet h (hx.trans h) he
  | some hs => exact .spent (by simp [h]) hx (hl (by simp [h])) he

/-- What every piece of a deploy obeys. -/
structure Obeys (K : List Aspect) (s : Run) (e : Option Exn) (t : Run) : Prop where
  touches : Touches K s t
  armed : t.armed = s.armed
  handlers : t.handlers = s.handlers
  timer : Timer s e t

namespace Obeys

/-- Doing nothing obeys every footprint. -/
theorem skip (K : List Aspect) (s : Run) : Obeys K s none s where
  touches := .refl s
  armed := rfl
  handlers := rfl
  timer := .idle rfl (fun _ => rfl) nofun

/-- Two steps that obey a footprint obey it in a row. -/
theorem chain (h : Obeys K s none t) (h' : Obeys K t e u) : Obeys K s e u where
  touches := h.touches.trans h'.touches
  armed := h'.armed.trans h.armed
  handlers := h'.handlers.trans h.handlers
  timer := by
    -- The cases are what the timer did in each of the two.
    cases h.timer with
    | spent before same early _ =>
      cases h'.timer with
      | spent _ same' early' exit =>
        exact .spent before (same'.trans same) (early'.trans early) exit
      | quiet before' => rw [← same, before'] at before; cases before
      | wentOff _ before' => rw [← same, before'] at before; cases before
    | quiet before after _ =>
      cases h'.timer with
      | spent before' => simp [after] at before'
      | quiet _ after' exit => exact .quiet before after' exit
      | wentOff armed _ inner after' exit late' =>
        exact .wentOff (h.armed ▸ armed) before inner (h.handlers ▸ after') exit late'
    | wentOff armed before inner after exit _ =>
      have hinner : inner ≠ [] := fun hi => nomatch exit.mpr hi
      cases h'.timer with
      | spent _ same' _ exit' =>
        exact .wentOff armed before inner (same'.trans after)
          ⟨fun he => absurd he exit', fun hi => absurd hi hinner⟩ fun hi => absurd hi hinner
      | quiet before' => simp [after] at before'
      | wentOff _ before' => simp [after] at before'

/-- What obeys a footprint obeys a larger one. -/
theorem mono (hK : K ⊆ K') (h : Obeys K s e t) : Obeys K' s e t :=
  { h with touches := h.touches.mono hK }

/-- A piece that did not end with the timer's exception may end with any other one, or
normally: the exception is caught, or one is raised. -/
theorem exchange {e' : Option Exn} (h : Obeys K s e t) (he : e ≠ some .deploymentTimeoutExpired)
    (he' : e' ≠ some .deploymentTimeoutExpired) : Obeys K s e' t where
  touches := h.touches
  armed := h.armed
  handlers := h.handlers
  timer := by
    cases h.timer with
    | spent before same early _ => exact .spent before same early he'
    | quiet before after _ => exact .quiet before after he'
    | wentOff armed before inner after exit late =>
      have hinner : inner ≠ [] := fun hi => he (exit.mpr hi)
      exact .wentOff armed before inner after
        ⟨fun h => absurd h he', fun h => absurd h hinner⟩ late

/-- A piece that ran under one more handler, however it ended, has ended normally outside it:
the handler catches every exception. -/
theorem leave {h : Handler} (ho : Obeys K (s.enter h) e t) : Obeys K s none t.leave where
  touches := ⟨ho.touches.grows, ho.touches.keeps⟩
  armed := ho.armed
  handlers := by simp [Run.leave, ho.handlers, Run.enter]
  timer := by
    cases ho.timer with
    | spent before same early _ => exact .spent before same early nofun
    | quiet before after _ => exact .quiet before after nofun
    | wentOff armed before inner after =>
      refine .wentOff armed before (inner ++ [h]) ?_ ?_ ?_
      · simpa [Run.enter] using after
      · simp
      · simp

/-- A tick of the clock obeys every footprint. -/
theorem tick (K : List Aspect) (s : Run) : Obeys K s none s.tick where
  touches := ⟨⟨[], by simp⟩, fun _ _ => .refl _ _⟩
  armed := rfl
  handlers := rfl
  timer := .idle rfl (fun _ => rfl) nofun

/-- The timer goes off after a piece that ended normally, with the handlers `inner` of the
statement itself open. -/
theorem expire (h : Obeys K s none t) (ha : s.armed = true) (hx : s.alarm.expiry = none)
    (ht : t.alarm.expiry = s.alarm.expiry) (inner : List Handler)
    (he : e = some .deploymentTimeoutExpired ↔ inner = []) :
    Obeys K s e (t.see (.expired (inner ++ s.handlers))) where
  touches := h.touches.trans ⟨⟨[_], rfl, by simp⟩, fun _ _ => .refl _ _⟩
  armed := h.armed
  handlers := h.handlers
  timer := .wentOff ha hx inner (by simp [Alarm.see, ht, hx]) he fun _ => by
    simpa [Alarm.see] using t.sorts.fresh (ht.trans hx)

/-- A clean-up that does nothing the world sees leaves the piece's exception as it was. -/
theorem conclude (h : Obeys K s e t) (hc : Obeys K t none u) (hd : u.deeds = t.deeds) :
    Obeys K s e u := by
  -- Only the timer's own exception has been spent by leaving.
  by_cases he : e = some .deploymentTimeoutExpired
  · refine ⟨h.touches.trans hc.touches, hc.armed.trans h.armed, hc.handlers.trans h.handlers, ?_⟩
    cases h.timer with
    | spent _ _ _ exit => exact absurd he exit
    | quiet _ _ exit => exact absurd he exit
    | wentOff armed before inner after exit late =>
      cases hc.timer with
      | spent _ same early =>
        refine .wentOff armed before inner (same.trans after) exit fun hi => ?_
        have hu := u.sorts.split
        rw [early, hd, ← t.sorts.split, late hi] at hu
        simpa using hu
      | quiet before' => simp [after] at before'
      | wentOff _ before' => simp [after] at before'
  · have hn : Obeys K s none t := h.exchange he nofun
    exact (hn.chain hc).exchange nofun he

/-- A `finally` clause that raises replaces the exception on its way out. -/
theorem displace (h : Obeys K s e t) {x : Exn} (hx : e = some x) (f : Failure) :
    Obeys K s (some (.raised f)) (t.see (.displaced x)) where
  touches := h.touches.trans ⟨⟨[_], rfl, by simp⟩, fun _ _ => .refl _ _⟩
  armed := h.armed
  handlers := h.handlers
  timer := by
    -- The exception that is replaced is the timer's, or another one.
    subst hx
    cases x with
    | raised g =>
      have hn : Obeys K s (some (.raised f)) t := h.exchange (by simp) (by simp)
      cases hn.timer with
      | spent before same early exit =>
        exact .spent before (by simpa [Alarm.see] using same) (by simpa [Alarm.see] using early) exit
      | quiet before after exit => exact .quiet before (by simpa [Alarm.see] using after) exit
      | wentOff armed before inner after exit late =>
        exact .wentOff armed before inner (by simpa [Alarm.see] using after) exit
          (by simpa [Alarm.see] using late)
    | deploymentTimeoutExpired =>
      cases h.timer with
      | spent _ _ _ exit => exact absurd rfl exit
      | quiet _ _ exit => exact absurd rfl exit
      | wentOff armed before inner after =>
        exact .wentOff armed before (.cleanup :: inner) (by simp [Alarm.see, after]) (by simp)
          (by simp)

end Obeys

/-- The law of the pieces that touch `K`. -/
def law (K : List Aspect) : Law Run Exn where
  Allows := Obeys K
  skip := Obeys.skip K
  chain := Obeys.chain

/-- A larger footprint allows more. -/
theorem law_mono (h : K ⊆ K') : law K ≤ law K' := fun _ _ _ => Obeys.mono h

/-- A piece of a run that touches nothing but the aspects in `K`. -/
abbrev Piece (K : List Aspect) (α : Type) := Program (law K) α

/-! ## Calling a function that touches less -/

/-- `a` is one of `K`, by instance search. -/
class IsAspect (a : Aspect) (K : List Aspect) : Type where
  mem : a ∈ K

instance : IsAspect a (a :: K) := ⟨List.mem_cons_self⟩

instance (priority := low) [h : IsAspect a K] : IsAspect a (b :: K) :=
  ⟨List.mem_cons_of_mem _ h.mem⟩

/-- Every aspect of `K` is one of `K'`, by instance search. -/
class Within (K K' : List Aspect) : Type where
  sub : K ⊆ K'

instance : Within [] K' := ⟨List.nil_subset _⟩

instance [h : IsAspect a K'] [hK : Within K K'] : Within (a :: K) K' :=
  ⟨List.cons_subset.mpr ⟨h.mem, hK.sub⟩⟩

instance (priority := high) : Within K K := ⟨List.Subset.refl _⟩

/-- A function is called from one that touches at least as much. -/
instance [h : Within K K'] : MonadLiftT (Program (law K)) (Program (law K')) where
  monadLift p := p.weaken (law_mono h.sub)

/-! ## Effects -/

/-- What a statement does when it takes effect: it changes attributes of `K` and does deeds of
`K`. -/
structure Effect (K : List Aspect) where
  /-- The change of the attributes. -/
  update : Attributes → Attributes := id
  /-- What is done. -/
  deeds : List Deed := []
  /-- The attributes outside `K` are left alone. -/
  keeps : ∀ x : Attributes, ∀ a ∉ K, x.Agree (update x) a
  /-- The deeds are of `K`. -/
  within : ∀ d ∈ deeds, d.aspect ∈ K

namespace Effect

/-- No effect. -/
def none : Effect K where
  keeps _ _ _ := .refl _ _
  within := by simp

/-- One thing is done. -/
def deed (d : Deed) : Effect [d.aspect] where
  deeds := [d]
  keeps _ _ _ := .refl _ _
  within := by simp

/-- Attributes of one aspect are assigned, which may be a deed. -/
def set (a : Aspect) (update : Attributes → Attributes) (deeds : List Deed := [])
    (keeps : ∀ (x : Attributes) (b : Aspect), b ≠ a → x.Agree (update x) b := by
      intro x b h; cases b <;> first | contradiction | simp [Attributes.Agree])
    (within : ∀ d ∈ deeds, d.aspect = a := by simp [Deed.aspect]) : Effect [a] where
  update := update
  deeds := deeds
  keeps x b hb := keeps x b (by simpa using hb)
  within d hd := by simpa using within d hd

/-- Attributes of one aspect are assigned, and nothing is done. -/
abbrev put (a : Aspect) (update : Attributes → Attributes)
    (keeps : ∀ (x : Attributes) (b : Aspect), b ≠ a → x.Agree (update x) b := by
      intro x b h; cases b <;> first | contradiction | simp [Attributes.Agree]) : Effect [a] :=
  .set a update [] keeps

/-- An effect of `K` is one of every list of aspects that has those of `K`. -/
def widen [h : Within K K'] (f : Effect K) : Effect K' where
  update := f.update
  deeds := f.deeds
  keeps x a ha := f.keeps x a fun h' => ha (h.sub h')
  within d hd := h.sub (f.within d hd)

/-- The effect on a run. -/
def apply (f : Effect K) (s : Run) : Run :=
  { s with self := f.update s.self, trace := s.trace ++ f.deeds.map .did }

/-- An effect sets the attributes it updates. -/
@[simp] theorem apply_self (f : Effect K) (s : Run) : (f.apply s).self = f.update s.self := rfl
/-- An effect adds its deeds to the trace. -/
@[simp] theorem apply_trace (f : Effect K) (s : Run) :
    (f.apply s).trace = s.trace ++ f.deeds.map .did := rfl
/-- An effect leaves the timer armed or not. -/
@[simp] theorem apply_armed (f : Effect K) (s : Run) : (f.apply s).armed = s.armed := rfl
/-- An effect leaves the open handlers. -/
@[simp] theorem apply_handlers (f : Effect K) (s : Run) :
    (f.apply s).handlers = s.handlers := rfl

/-- Deeds are not the timer's: none changes whether it has gone off, and none is early once it
has. -/
theorem foldl_see_did (ds : List Deed) (a : Alarm) :
    ((ds.map Event.did).foldl Alarm.see a).expiry = a.expiry ∧
      (a.expiry.isSome → ((ds.map Event.did).foldl Alarm.see a).early = a.early) := by
  induction ds generalizing a with
  | nil => simp
  | cons d ds ih =>
    obtain ⟨hx, hl⟩ := ih (a.see (.did d))
    have hd : (a.see (.did d)).expiry = a.expiry ∧
        (a.expiry.isSome → (a.see (.did d)).early = a.early) := by
      cases h : a.expiry <;> simp [Alarm.see, h]
    exact ⟨hx.trans hd.1, fun ha => (hl (by rwa [hd.1])).trans (hd.2 ha)⟩

/-- An effect leaves the time the timer goes off. -/
@[simp] theorem apply_expiry (f : Effect K) (s : Run) :
    (f.apply s).alarm.expiry = s.alarm.expiry := by
  simp only [Run.alarm, apply_trace, List.foldl_append]
  exact (foldl_see_did _ _).1

/-- Taking effect is a piece of its own. -/
theorem obeys (f : Effect K) (s : Run) : Obeys K s Option.none (f.apply s) where
  touches := ⟨⟨_, rfl, by simpa using f.within⟩, f.keeps s.self⟩
  armed := rfl
  handlers := rfl
  timer := .idle (f.apply_expiry s)
    (fun h => by
      simp only [Run.alarm, apply_trace, List.foldl_append]
      exact (foldl_see_did f.deeds s.alarm).2 h)
    nofun

/-- A statement that may have taken effect. -/
theorem obeys_tried (f : Effect K) (s : Run) (took : Bool) :
    Obeys K s Option.none (if took then f.apply s.tick else s.tick) ∧
      (if took then f.apply s.tick else s.tick).alarm.expiry = s.alarm.expiry := by
  cases took
  · exact ⟨.tick K s, rfl⟩
  · exact ⟨(Obeys.tick K s).chain (f.obeys s.tick), by simp⟩

end Effect

/-! ## Statements -/

/-- An assignment, or another statement that nothing outside can fail. The timer may go off
before it or after it. -/
def assign (env : Env) (f : Effect K) : Piece K Unit where
  run s := match s.due env with
    | some .before => (.error .deploymentTimeoutExpired, s.tick.see (.expired s.handlers))
    | some (.inside _) =>
      (.error .deploymentTimeoutExpired, (f.apply s.tick).see (.expired s.handlers))
    | none => (.ok (), f.apply s.tick)
  lawful s := by
    have hf : Obeys K s none (f.apply s.tick) := (Obeys.tick K s).chain (f.obeys s.tick)
    rcases hd : s.due env with _ | (_ | r)
    · exact hf
    all_goals obtain ⟨ha, hx⟩ := Run.armed_of_due hd
    · exact (Obeys.tick K s).expire ha hx rfl [] (by simp [Result.raised?])
    · exact hf.expire ha hx (by simp) [] (by simp [Result.raised?])

/-- A mark in the trace of what the code has come to. No statement runs for it, so the timer
cannot go off there. -/
def note (f : Effect K) : Piece K Unit where
  run s := (.ok (), f.apply s)
  lawful s := f.obeys s

/-- A call whose failures its own clause catches and logs (`except OSError`,
`except (sqlite3.Error, OSError)`). It returns whether it succeeded; a failed one may have had its
effect. -/
def attempt (env : Env) (fails : ℕ → Bool) (f : Effect K := .none) : Piece K Bool where
  run s :=
    let tried := if env.took s.clock then f.apply s.tick else s.tick
    match s.due env with
    | some .before => (.error .deploymentTimeoutExpired, s.tick.see (.expired s.handlers))
    | some (.inside _) => (.error .deploymentTimeoutExpired, tried.see (.expired s.handlers))
    | none => if fails s.clock then (.ok false, tried) else (.ok true, f.apply s.tick)
  lawful s := by
    have hf : Obeys K s none (f.apply s.tick) := (Obeys.tick K s).chain (f.obeys s.tick)
    obtain ⟨ht, htx⟩ := Effect.obeys_tried f s (env.took s.clock)
    rcases hd : s.due env with _ | (_ | r)
    · dsimp only
      split
      · exact ht
      · exact hf
    all_goals obtain ⟨ha, hx⟩ := Run.armed_of_due hd
    · exact (Obeys.tick K s).expire ha hx rfl [] (by simp [Result.raised?])
    · exact ht.expire ha hx htx [] (by simp [Result.raised?])

/-- A call of something outside the modelled functions. It answers `answer n` as the statement
numbered `n`. `took` is what the call does to the world, which may have happened even when the
call raises; `returned` is what follows from its having returned. -/
def call (env : Env) (answer : ℕ → α) (took : α → Effect K := fun _ => .none)
    (returned : α → Effect K := fun _ => .none) : Piece K α where
  run s :=
    let a := answer s.clock
    let tried := if env.took s.clock then (took a).apply s.tick else s.tick
    match s.due env with
    | some .before => (.error .deploymentTimeoutExpired, s.tick.see (.expired s.handlers))
    | some (.inside .passed) =>
      (.error .deploymentTimeoutExpired, tried.see (.expired s.handlers))
    | some (.inside .absorbed) =>
      (.ok a, (returned a).apply ((took a).apply (s.tick.see (.expired (.callee :: s.handlers)))))
    | some (.inside (.turned f)) =>
      (.error (.raised f.failure), tried.see (.expired (.callee :: s.handlers)))
    | none => match env.fault s.clock with
      | some f => (.error (.raised f.failure), tried)
      | none => (.ok a, (returned a).apply ((took a).apply s.tick))
  lawful s := by
    have htook : Obeys K s none ((took (answer s.clock)).apply s.tick) :=
      (Obeys.tick K s).chain ((took (answer s.clock)).obeys _)
    -- a call that does not return has its effect or none
    obtain ⟨ht, htx⟩ := Effect.obeys_tried (took (answer s.clock)) s (env.took s.clock)
    rcases hd : s.due env with _ | (_ | (_ | _ | f))
    · rcases env.fault s.clock with _ | f
      · exact htook.chain ((returned (answer s.clock)).obeys _)
      · exact ht.exchange nofun nofun
    all_goals obtain ⟨ha, hx⟩ := Run.armed_of_due hd
    · exact (Obeys.tick K s).expire ha hx rfl [] (by simp [Result.raised?])
    · exact ht.expire ha hx htx [] (by simp [Result.raised?])
    · have hn : Obeys K s none (s.tick.see (.expired ([.callee] ++ s.handlers))) :=
        (Obeys.tick K s).expire ha hx rfl [.callee] (by simp)
      exact (hn.chain ((took _).obeys _)).chain ((returned _).obeys _)
    · exact ht.expire ha hx htx [.callee] (by simp [Result.raised?])

/-- `raise`: an exception that the modelled code raises. -/
def raise (f : Failure) : Piece K α where
  run s := (.error (.raised f), s)
  lawful s := (Obeys.skip K s).exchange nofun nofun

/-- Reading the deployer's attributes. -/
def self : Piece K Attributes := Program.read Run.self

/-- `try: body / except Exception as e: handler`. The clause catches the timer's exception as it
catches any other. -/
def exceptException (h : Handler) (body : Piece K α) (handler : Exn → Piece K α) :
    Piece K α where
  run s := match body.run (s.enter h) with
    | (.ok a, t) => (.ok a, t.leave)
    | (.error e, t) => (handler e).run t.leave
  lawful s := by
    have hb := body.lawful (s.enter h)
    rcases hr : body.run (s.enter h) with ⟨e | a, t⟩ <;> rw [hr] at hb
    · exact hb.leave.chain ((handler e).lawful _)
    · exact hb.leave

/-- `try: body / except SomeError as e: handler`, for clauses that the timer's exception passes.
The handler gets every other exception and raises again those its clauses do not name. -/
def exceptFailure (body : Piece K α) (handler : Failure → Piece K α) : Piece K α where
  run s := match body.run s with
    | (.ok a, t) => (.ok a, t)
    | (.error .deploymentTimeoutExpired, t) => (.error .deploymentTimeoutExpired, t)
    | (.error (.raised f), t) => (handler f).run t
  lawful s := by
    have hb := body.lawful s
    rcases hr : body.run s with ⟨(_ | f) | a, t⟩ <;> rw [hr] at hb
    · exact hb
    · have hn : Obeys K s none t := Obeys.exchange hb (by simp [Result.raised?]) nofun
      exact hn.chain ((handler f).lawful t)
    · exact hb

/-- `try: body / except DeploymentTimeoutExpired: note; raise`. -/
def noteTimeout (body : Piece K α) (note : Effect K) (hn : note.deeds = [] := by rfl) :
    Piece K α where
  run s := match body.run s with
    | (.error .deploymentTimeoutExpired, t) => (.error .deploymentTimeoutExpired, note.apply t)
    | r => r
  lawful s := by
    have hb := body.lawful s
    rcases hr : body.run s with ⟨(_ | f) | a, t⟩ <;> rw [hr] at hb
    · exact Obeys.conclude hb (note.obeys t) (by simp [Run.deeds, hn])
    · exact hb
    · exact hb

/-- `try: body / finally: cleanup`, where the clean-up does nothing that the world, or a later
step of the run, can see (it leaves a directory, or removes a temporary one). `lost` marks in the
trace that the clean-up raised in place of the body's exception. -/
def ensuring (body : Piece K α) (cleanup : Piece [] Unit) (lost : Effect K := .none) :
    Piece K α where
  run s :=
    let r := body.run s
    let c := cleanup.run r.2
    match r.1, c.1 with
    | x, .ok () => (x, c.2)
    | .ok _, .error e => (.error e, c.2)
    | .error _, .error .deploymentTimeoutExpired => (.error .deploymentTimeoutExpired, c.2)
    | .error e, .error (.raised f) => (.error (.raised f), lost.apply (c.2.see (.displaced e)))
  lawful s := by
    have hb := body.lawful s
    have hc := Obeys.mono (List.nil_subset K) (cleanup.lawful (body.run s).2)
    have hd : (cleanup.run (body.run s).2).2.deeds = (body.run s).2.deeds := by
      obtain ⟨ds, hds, hK⟩ := (cleanup.lawful (body.run s).2).touches.deeds
      have : ds = [] := List.eq_nil_iff_forall_not_mem.mpr fun d hd => by simpa using hK d hd
      simpa [this] using hds
    rcases hr : body.run s with ⟨e | a, t⟩ <;> rw [hr] at hb hc hd <;>
      rcases hcr : cleanup.run t with ⟨(_ | f) | ⟨⟩, u⟩ <;> dsimp only at hc hd ⊢ <;>
      rw [hcr] at hc hd ⊢
    · by_cases he : e = .deploymentTimeoutExpired
      · -- the timer goes off once
        subst he
        cases hc.timer with
        | spent _ _ _ exit => exact absurd rfl exit
        | quiet _ _ exit => exact absurd rfl exit
        | wentOff _ before =>
          cases (show Obeys K s _ t from hb).timer with
          | spent _ _ _ exit => exact absurd rfl exit
          | quiet _ _ exit => exact absurd rfl exit
          | wentOff _ _ inner after => simp [after] at before
      · have hn : Obeys K s none t := Obeys.exchange hb (by simpa [Result.raised?] using he) nofun
        exact hn.chain hc
    · have hn : Obeys K t none u := Obeys.exchange hc (by simp [Result.raised?]) nofun
      have hf : Obeys K s (some (.raised f)) (u.see (.displaced e)) :=
        Obeys.displace (Obeys.conclude hb hn hd) rfl f
      have hn' : Obeys K s none (u.see (.displaced e)) := hf.exchange (by simp) nofun
      exact (hn'.chain (lost.obeys _)).exchange nofun (by simp [Result.raised?])
    · exact Obeys.conclude hb hc hd
    · exact Obeys.chain hb hc
    · exact Obeys.chain hb hc
    · exact Obeys.chain hb hc

end Fraisier.Deploy
