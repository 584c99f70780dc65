import Mathlib

/-!
# Programs and what they call

An `Interaction` is a program that calls its surroundings: the file system, a clock, other programs.
Nothing is known of an answer but what a rely condition `R` says, which may read the calls and
answers so far; so whatever another party does between two calls is covered. A history lists the
calls with their answers.

- `Runs R p h es r`: from the history `h`, the program may make the calls `es` and end as `r`;
- `Ends R p h Q E`: however it runs, it ends normally with `Q` or by an exception with `E`, with one
  rule for each way of building a program (`ends_bind`, `ends_ask`, `Ends.foldlM`);
- `May R p h Q E`: in some run it ends so, with the same rules;
- `Keeps R I p`: however it runs, it keeps the invariant `I` of the history;
- `Stays R I E p`: it keeps `I`, or raises an exception with `E`;
- `Makes P Q p`: every call of the program meets `P`, and every value it returns meets `Q`;
- `Halts F p`: an answer with `F` is the program's last: it raises, and calls nothing more;
- `run`: a run against given surroundings, which computes.
-/

namespace Fraisier.Lib

/-- A program that makes calls, and ends with a value or an exception. -/
inductive Interaction {C : Type} (A : C → Type) (ε α : Type)
  | ret (a : α)
  | raise (e : ε)
  | call (c : C) (k : A c → Interaction A ε α)

namespace Interaction

variable {C : Type} {A : C → Type} {ε ε' α β : Type}

/-- Running one program after another. An exception skips what follows. -/
protected def bind (p : Interaction A ε α) (f : α → Interaction A ε β) : Interaction A ε β :=
  match p with
  | .ret a => f a
  | .raise e => .raise e
  | .call c k => .call c fun a => (k a).bind f

instance : Monad (Interaction A ε) where
  pure := .ret
  bind := Interaction.bind

/-- One call. -/
def ask (c : C) : Interaction A ε (A c) := .call c .ret

/-! ## Runs -/

/-- The calls made so far, with their answers. -/
abbrev History (A : C → Type) := List (Sigma A)

/-- What the surroundings may answer, given the calls so far. -/
abbrev Rely (A : C → Type) := History A → Sigma A → Prop

/-- Any answer at all. -/
abbrev AnyAnswer : Rely A := fun _ _ => True

variable {R R' : Rely A}

/-- From the history `h`, the program may make the calls `es` and end as `r`. -/
inductive Runs (R : Rely A) : Interaction A ε α → History A → History A → Except ε α → Prop
  | ret {a : α} {h : History A} : Runs R (.ret a) h [] (.ok a)
  | raise {e : ε} {h : History A} : Runs R (.raise e) h [] (.error e)
  | call {c : C} {k : A c → Interaction A ε α} {h es : History A} {r : Except ε α} (a : A c)
      (allowed : R h ⟨c, a⟩) (rest : Runs R (k a) (h ++ [⟨c, a⟩]) es r) :
      Runs R (.call c k) h (⟨c, a⟩ :: es) r

/-- The calls that are made, and the end, against surroundings that answer by the calls so far. -/
def run (env : History A → (c : C) → A c) : Interaction A ε α → History A → History A × Except ε α
  | .ret a, _ => ([], .ok a)
  | .raise e, _ => ([], .error e)
  | .call c k, h =>
    let (es, r) := (k (env h c)).run env (h ++ [⟨c, env h c⟩])
    (⟨c, env h c⟩ :: es, r)

/-- A computed run whose first call is known. -/
theorem run_ask_bind (env : History A → (c : C) → A c) (c : C) (f : A c → Interaction A ε α)
    (h : History A) : (ask c >>= f).run env h =
      (⟨c, env h c⟩ :: ((f (env h c)).run env (h ++ [⟨c, env h c⟩])).1,
        ((f (env h c)).run env (h ++ [⟨c, env h c⟩])).2) := rfl

/-- A computed run is a run. -/
theorem runs_run {env : History A → (c : C) → A c} (henv : ∀ h c, R h ⟨c, env h c⟩)
    (p : Interaction A ε α) (h : History A) : p.Runs R h (p.run env h).1 (p.run env h).2 := by
  induction p generalizing h with
  | ret a => exact .ret
  | raise e => exact .raise
  | call c k ih => exact .call _ (henv h c) (ih _ _)

/-! ## Outcomes -/

/-- However the program runs from the history `h`, it ends normally with `Q` or by an exception
with `E`, which also read the history that is left. -/
def Ends (R : Rely A) : Interaction A ε α → History A → (α → History A → Prop) →
    (ε → History A → Prop) → Prop
  | .ret a, h, Q, _ => Q a h
  | .raise e, h, _, E => E e h
  | .call c k, h, Q, E => ∀ a, R h ⟨c, a⟩ → (k a).Ends R (h ++ [⟨c, a⟩]) Q E

variable {p : Interaction A ε α} {f : α → Interaction A ε β} {h : History A}
  {Q Q' : α → History A → Prop} {S : β → History A → Prop} {E E' : ε → History A → Prop}

/-- An end is a normal one with `Q`, or an exception with `E`. -/
def Meets (Q : α → Prop) (E : ε → Prop) : Except ε α → Prop
  | .ok a => Q a
  | .error e => E e

/-- What every run ends with, a run ends with. -/
theorem Ends.of_runs (hp : p.Ends R h Q E) {es : History A} {r : Except ε α}
    (hr : p.Runs R h es r) : Meets (Q · (h ++ es)) (E · (h ++ es)) r := by
  induction hr with
  | ret => rw [List.append_nil]; exact hp
  | raise => rw [List.append_nil]; exact hp
  | call a ha _ ih =>
    have hrest := ih (hp a ha)
    rwa [List.append_assoc] at hrest

/-- The rule of a value. -/
theorem ends_pure {a : α} : (pure a : Interaction A ε α).Ends R h Q E ↔ Q a h := Iff.rfl

/-- The rule of an exception. -/
theorem ends_raise {e : ε} : (raise e : Interaction A ε α).Ends R h Q E ↔ E e h := Iff.rfl

/-- The rule of calls. -/
theorem ends_ask {c : C} {Q : A c → History A → Prop} :
    (ask c : Interaction A ε (A c)).Ends R h Q E ↔ ∀ a, R h ⟨c, a⟩ → Q a (h ++ [⟨c, a⟩]) := Iff.rfl

/-- The rule of sequencing. -/
theorem ends_bind : (p >>= f).Ends R h S E ↔ p.Ends R h (fun a h => (f a).Ends R h S E) E := by
  induction p generalizing h with
  | ret a => exact Iff.rfl
  | raise e => exact Iff.rfl
  | call c k ih => exact forall_congr' fun a => forall_congr' fun _ => ih a

/-- The rule of consequence. -/
theorem Ends.mono (hp : p.Ends R h Q E) (hQ : ∀ a h, Q a h → Q' a h) (hE : ∀ e h, E e h → E' e h) :
    p.Ends R h Q' E' := by
  induction p generalizing h with
  | ret a => exact hQ a h hp
  | raise e => exact hE e h hp
  | call c k ih => exact fun a ha => ih a (hp a ha)

/-- Two outcomes hold together. -/
theorem Ends.and (hp : p.Ends R h Q E) (hp' : p.Ends R h Q' E') :
    p.Ends R h (fun a h => Q a h ∧ Q' a h) fun e h => E e h ∧ E' e h := by
  induction p generalizing h with
  | ret a => exact ⟨hp, hp'⟩
  | raise e => exact ⟨hp, hp'⟩
  | call c k ih => exact fun a ha => ih a (hp a ha) (hp' a ha)

/-- A program does not read the history: what holds of its own calls holds of them after any
others, whatever the surroundings may answer. -/
theorem Ends.shift (hp : p.Ends AnyAnswer h Q E) (R : Rely A) (h₀ : History A) :
    p.Ends R (h₀ ++ h) (fun a h' => ∃ es, h' = h₀ ++ es ∧ Q a es)
      fun e h' => ∃ es, h' = h₀ ++ es ∧ E e es := by
  induction p generalizing h with
  | ret a => exact ⟨h, rfl, hp⟩
  | raise e => exact ⟨h, rfl, hp⟩
  | call c k ih =>
    intro a _
    rw [List.append_assoc]
    exact ih a (hp a trivial)

/-- A program ends with one of its runs. -/
theorem ends_runs (R : Rely A) (p : Interaction A ε α) (h : History A) :
    p.Ends R h (fun a h' => ∃ es, h' = h ++ es ∧ p.Runs R h es (.ok a))
      fun e h' => ∃ es, h' = h ++ es ∧ p.Runs R h es (.error e) := by
  induction p generalizing h with
  | ret a => exact ⟨[], (List.append_nil h).symm, .ret⟩
  | raise e => exact ⟨[], (List.append_nil h).symm, .raise⟩
  | call c k ih =>
    intro a ha
    refine (ih a (h ++ [⟨c, a⟩])).mono ?_ ?_
    · rintro b _ ⟨es, rfl, hr⟩
      exact ⟨_, List.append_assoc .., .call a ha hr⟩
    · rintro e _ ⟨es, rfl, hr⟩
      exact ⟨_, List.append_assoc .., .call a ha hr⟩

/-- The rule of loops: `I` of what is done, the value so far and the history is kept by each round. -/
theorem Ends.foldlM {f : β → α → Interaction A ε β} {I : List α → β → History A → Prop} {b : β}
    {todo : List α} (done : List α) (hb : I done b h)
    (hstep : ∀ done' x rest b h, done ++ todo = done' ++ x :: rest → I done' b h →
      (f b x).Ends R h (I (done' ++ [x])) E) :
    (todo.foldlM f b).Ends R h (I (done ++ todo)) E := by
  -- Induction on what is still to do.
  induction todo generalizing done b h with
  | nil =>
    rw [List.append_nil]
    exact hb
  | cons x rest ih =>
    rw [List.foldlM_cons, ends_bind]
    refine (hstep done x rest b h rfl hb).mono (fun b' h' hb' => ?_) fun _ _ => id
    have happ : done ++ x :: rest = done ++ [x] ++ rest := by rw [List.append_assoc]; rfl
    rw [happ]
    exact ih (done ++ [x]) hb' fun done' y rest' b h hsplit =>
      hstep done' y rest' b h (happ.trans hsplit)

/-- In some run from the history `h` the program ends normally with `Q`, or by an exception with
`E`. -/
def May (R : Rely A) : Interaction A ε α → History A → (α → History A → Prop) →
    (ε → History A → Prop) → Prop
  | .ret a, h, Q, _ => Q a h
  | .raise e, h, _, E => E e h
  | .call c k, h, Q, E => ∃ a, R h ⟨c, a⟩ ∧ (k a).May R (h ++ [⟨c, a⟩]) Q E

/-- The rule of sequencing, for one run. -/
theorem may_bind : (p >>= f).May R h S E ↔ p.May R h (fun a h => (f a).May R h S E) E := by
  induction p generalizing h with
  | ret a => exact Iff.rfl
  | raise e => exact Iff.rfl
  | call c k ih => exact exists_congr fun a => and_congr_right fun _ => ih a

/-- The rule of calls, for one run. -/
theorem may_ask_bind {c : C} {f : A c → Interaction A ε β} :
    (ask c >>= f).May R h S E ↔ ∃ a, R h ⟨c, a⟩ ∧ (f a).May R (h ++ [⟨c, a⟩]) S E := Iff.rfl

/-- The rule of consequence, for one run. -/
theorem May.mono (hp : p.May R h Q E) (hQ : ∀ a h, Q a h → Q' a h) (hE : ∀ e h, E e h → E' e h) :
    p.May R h Q' E' := by
  induction p generalizing h with
  | ret a => exact hQ a h hp
  | raise e => exact hE e h hp
  | call c k ih =>
    obtain ⟨a, ha, hrest⟩ := hp
    exact ⟨a, ha, ih a hrest⟩

/-- One part may run after another that may end normally. -/
theorem May.bind {P : α → Prop} (hp : p.May R h (fun a _ => P a) fun _ _ => False)
    (hf : ∀ a h', P a → (f a).May R h' S E) : (p >>= f).May R h S E :=
  may_bind.mpr (hp.mono (fun a h' => hf a h') fun _ _ => False.elim)

/-- What every run ends with, the run that there may be ends with. -/
theorem May.and_ends (hp : p.May R h Q E) (hp' : p.Ends R h Q' E') :
    p.May R h (fun a h => Q a h ∧ Q' a h) fun e h => E e h ∧ E' e h := by
  induction p generalizing h with
  | ret a => exact ⟨hp, hp'⟩
  | raise e => exact ⟨hp, hp'⟩
  | call c k ih =>
    obtain ⟨a, ha, hrest⟩ := hp
    exact ⟨a, ha, ih a hrest (hp' a ha)⟩

/-- There is no run that ends as none may. -/
theorem not_may_false : ¬p.May R h (fun _ _ => False) fun _ _ => False := by
  intro hp
  induction p generalizing h with
  | ret a => exact hp
  | raise e => exact hp
  | call c k ih =>
    obtain ⟨a, -, hrest⟩ := hp
    exact ih a hrest

/-- The rule of loops, for one run: each round may keep `I`. -/
theorem May.foldlM {f : β → α → Interaction A ε β} {I : β → Prop} {b : β} {todo : List α}
    (hb : I b)
    (hstep : ∀ b, ∀ x ∈ todo, ∀ h, I b → (f b x).May R h (fun b _ => I b) E) :
    (todo.foldlM f b).May R h (fun b _ => I b) E := by
  induction todo generalizing b h with
  | nil => exact hb
  | cons x rest ih =>
    rw [List.foldlM_cons, may_bind]
    refine (hstep b x List.mem_cons_self h hb).mono (fun b' h' hb' => ?_) fun _ _ => id
    exact ih hb' fun b y hy => hstep b y (List.mem_cons_of_mem _ hy)

/-! ## Invariants of the history -/

/-- From every history with `I`, the program ends with `I`, one way or the other. -/
def Keeps (R : Rely A) (I : History A → Prop) (p : Interaction A ε α) : Prop :=
  ∀ h, I h → p.Ends R h (fun _ => I) fun _ => I

variable {I : History A → Prop}

/-- A value leaves the history as it is. -/
theorem keeps_pure {a : α} : Keeps R I (pure a : Interaction A ε α) := fun _ hI => hI

/-- An exception leaves the history as it is. -/
theorem keeps_raise {e : ε} : Keeps R I (raise e : Interaction A ε α) := fun _ hI => hI

/-- The rule of sequencing: what both parts keep, the whole keeps. -/
theorem Keeps.bind (hp : Keeps R I p) (hf : ∀ a, Keeps R I (f a)) : Keeps R I (p >>= f) := by
  intro h hI
  rw [ends_bind]
  exact (hp h hI).mono (fun a h' hI' => hf a h' hI') fun _ _ => id

/-- The rule of loops: what each round keeps, the loop keeps. -/
theorem Keeps.foldlM {f : β → α → Interaction A ε β} {todo : List α} {b : β}
    (hstep : ∀ b, ∀ x ∈ todo, Keeps R I (f b x)) : Keeps R I (todo.foldlM f b) := by
  induction todo generalizing b with
  | nil => exact keeps_pure
  | cons x rest ih =>
    rw [List.foldlM_cons]
    exact (hstep b x List.mem_cons_self).bind fun b' =>
      ih fun b y hy => hstep b y (List.mem_cons_of_mem _ hy)

/-- What no call can break, every program keeps. -/
theorem keeps_any (hI : ∀ h e, I h → I (h ++ [e])) (p : Interaction A ε α) : Keeps R I p := by
  induction p with
  | ret a => exact keeps_pure
  | raise e => exact keeps_raise
  | call c k ih => exact fun h hIh a _ => ih a _ (hI h ⟨c, a⟩ hIh)

/-- From every history with `I`, the program ends with `I`, or by an exception with `X`. -/
def Stays (R : Rely A) (I : History A → Prop) (X : ε → Prop) (p : Interaction A ε α) : Prop :=
  ∀ h, I h → p.Ends R h (fun _ => I) fun e _ => X e

variable {X : ε → Prop}

/-- A value leaves the history as it is. -/
theorem stays_pure {a : α} : Stays R I X (pure a : Interaction A ε α) := fun _ hI => hI

/-- An exception with `X` is one of those that are allowed. -/
theorem stays_raise {e : ε} (he : X e) : Stays R I X (raise e : Interaction A ε α) := fun _ _ => he

/-- The rule of sequencing: both parts keep `I`. -/
theorem Stays.bind (hp : Stays R I X p) (hf : ∀ a, Stays R I X (f a)) : Stays R I X (p >>= f) := by
  intro h hI
  rw [ends_bind]
  exact (hp h hI).mono (fun a h' hI' => hf a h' hI') fun _ _ => id

/-- The rule of calls, for an invariant that no call can break. -/
theorem stays_ask_bind {c : C} {f : A c → Interaction A ε α} (hI : ∀ h e, I h → I (h ++ [e]))
    (hf : ∀ h a, I h → R h ⟨c, a⟩ → Stays R I X (f a)) : Stays R I X (ask c >>= f) :=
  fun h hIh a ha => hf h a hIh ha _ (hI h ⟨c, a⟩ hIh)

/-- The rule of loops: each round keeps `I`. -/
theorem Stays.foldlM {f : β → α → Interaction A ε β} {todo : List α} {b : β}
    (hstep : ∀ b, ∀ x ∈ todo, Stays R I X (f b x)) : Stays R I X (todo.foldlM f b) := by
  induction todo generalizing b with
  | nil => exact stays_pure
  | cons x rest ih =>
    rw [List.foldlM_cons]
    exact (hstep b x List.mem_cons_self).bind fun b' =>
      ih fun b y hy => hstep b y (List.mem_cons_of_mem _ hy)

/-! ## Loops of checks -/

/-- Each item is good up to the first that is bad, if there is one. -/
def Settled (Good Bad : α → Prop) (xs : List α) : Prop :=
  ∀ before x after, xs = before ++ x :: after → (∀ y ∈ before, Good y) → Good x ∨ Bad x

variable {Good Bad : α → Prop}

/-- What follows a good item is settled if all is. -/
theorem Settled.tail {x : α} {xs : List α} (hx : Good x) (h : Settled Good Bad (x :: xs)) :
    Settled Good Bad xs := by
  intro before y after hsplit hbefore
  refine h (x :: before) y after (by rw [hsplit]; rfl) ?_
  rw [List.forall_mem_cons]
  exact ⟨hx, hbefore⟩

/-- Without bad items, all are good. -/
theorem settled_false_iff {xs : List α} :
    Settled Good (fun _ => False) xs ↔ ∀ x ∈ xs, Good x := by
  constructor
  · intro h
    induction xs with
    | nil => exact List.forall_mem_nil _
    | cons x xs ih =>
      have hx : Good x := (h [] x xs rfl (List.forall_mem_nil _)).resolve_right id
      exact List.forall_mem_cons.mpr ⟨hx, ih (h.tail hx)⟩
  · intro h before x after hsplit _
    exact .inl (h x (by rw [hsplit]; simp))

/-- The rule of loops that check items in order: a bad item ends the loop by an exception, so that all
are good where the loop ends. -/
theorem Ends.checks {f : β → α × ℕ → Interaction A ε β} {b : β} {xs : List α} {k : ℕ} {h : History A}
    (hxs : Settled Good Bad xs)
    (hstep : ∀ b, ∀ x ∈ xs, ∀ i h, Good x ∨ Bad x →
      (f b (x, i)).Ends R h (fun _ _ => Good x) fun e _ => X e) :
    ((xs.zipIdx k).foldlM f b).Ends R h (fun _ _ => ∀ x ∈ xs, Good x) fun e _ => X e := by
  induction xs generalizing b k h with
  | nil => exact List.forall_mem_nil _
  | cons x xs ih =>
    rw [List.zipIdx_cons, List.foldlM_cons, ends_bind]
    have hx : Good x ∨ Bad x := hxs [] x xs rfl (List.forall_mem_nil _)
    refine (hstep b x List.mem_cons_self k h hx).mono (fun b' h' hgood => ?_) fun _ _ => id
    refine (ih (hxs.tail hgood) fun b y hy => hstep b y (List.mem_cons_of_mem x hy)).mono
      (fun _ _ hall => ?_) fun _ _ => id
    exact List.forall_mem_cons.mpr ⟨hgood, hall⟩

/-- Where the items are not settled, there is a run of the loop that comes to the item that is neither
good nor bad. -/
theorem May.checks {f : β → α × ℕ → Interaction A ε β} {b : β} {xs : List α} {k : ℕ} {h : History A}
    {I : β → Prop} (hxs : ¬Settled Good Bad xs) (hb : I b)
    (hgood : ∀ b, ∀ x ∈ xs, ∀ i h, I b → Good x →
      (f b (x, i)).May R h (fun b _ => I b) fun _ _ => False)
    (hneither : ∀ b, ∀ x ∈ xs, ∀ i h, I b → ¬(Good x ∨ Bad x) →
      (f b (x, i)).May R h (fun _ _ => False) fun e _ => X e) :
    ((xs.zipIdx k).foldlM f b).May R h (fun _ _ => False) fun e _ => X e := by
  -- Induction on the items: the first one that is not good is refused or is neither.
  induction xs generalizing b k h with
  | nil => exact absurd (fun before x after hsplit => by simp at hsplit) hxs
  | cons x xs ih =>
    rw [List.zipIdx_cons, List.foldlM_cons, may_bind]
    by_cases hx : Good x
    · refine (hgood b x List.mem_cons_self k h hb hx).mono (fun b' h' hb' => ?_) fun _ _ => False.elim
      refine ih (fun htail => hxs fun before y after hsplit hbefore => ?_) hb'
        (fun b y hy => hgood b y (List.mem_cons_of_mem x hy))
        fun b y hy => hneither b y (List.mem_cons_of_mem x hy)
      cases before with
      | nil =>
        obtain ⟨rfl, -⟩ := List.cons.inj hsplit
        exact .inl hx
      | cons z before =>
        obtain ⟨rfl, hrest⟩ := List.cons.inj hsplit
        exact htail before y after hrest fun w hw => hbefore w (List.mem_cons_of_mem x hw)
    · refine (hneither b x List.mem_cons_self k h hb fun hor => hxs ?_).mono
        (fun _ _ => False.elim) fun _ _ => id
      intro before y after hsplit hbefore
      cases before with
      | nil =>
        obtain ⟨rfl, -⟩ := List.cons.inj hsplit
        exact hor
      | cons z before =>
        obtain ⟨rfl, -⟩ := List.cons.inj hsplit
        exact absurd (hbefore x List.mem_cons_self) hx

/-! ## What a program may call -/

/-- Every call of the program meets `P`, and every value it returns meets `Q`. -/
def Makes (P : C → Prop) (Q : α → Prop) : Interaction A ε α → Prop
  | .ret a => Q a
  | .raise _ => True
  | .call c k => P c ∧ ∀ a, (k a).Makes P Q

variable {P P' : C → Prop} {Q₀ Q₁ : α → Prop} {S₀ : β → Prop}

/-- A value calls nothing. -/
theorem makes_pure {a : α} (ha : Q₀ a) : (pure a : Interaction A ε α).Makes P Q₀ := ha

/-- An exception calls nothing, and returns nothing. -/
theorem makes_raise {e : ε} : (raise e : Interaction A ε α).Makes P Q₀ := trivial

/-- The rule of calls: one call is made, and any answer may come. -/
theorem makes_ask {c : C} (hc : P c) : (ask c : Interaction A ε (A c)).Makes P fun _ => True :=
  ⟨hc, fun _ => trivial⟩

/-- The rule of sequencing: the second part is run on what the first returns. -/
theorem Makes.bind (hp : p.Makes P Q₀) (hf : ∀ a, Q₀ a → (f a).Makes P S₀) :
    (p >>= f).Makes P S₀ := by
  induction p with
  | ret a => exact hf a hp
  | raise e => trivial
  | call c k ih => exact ⟨hp.1, fun a => ih a (hp.2 a)⟩

/-- The rule of consequence. -/
theorem Makes.mono (hp : p.Makes P Q₀) (hP : ∀ c, P c → P' c) (hQ : ∀ a, Q₀ a → Q₁ a) :
    p.Makes P' Q₁ := by
  induction p with
  | ret a => exact hQ a hp
  | raise e => trivial
  | call c k ih => exact ⟨hP c hp.1, fun a => ih a (hp.2 a)⟩

/-- The rule of loops: `I` of what is done and of the value so far is kept by each round. -/
theorem Makes.foldlM {f : β → α → Interaction A ε β} {I : List α → β → Prop} {b : β}
    {todo : List α} (done : List α) (hb : I done b)
    (hstep : ∀ done' x rest b, done ++ todo = done' ++ x :: rest → I done' b →
      (f b x).Makes P (I (done' ++ [x]))) : (todo.foldlM f b).Makes P (I (done ++ todo)) := by
  induction todo generalizing done b with
  | nil =>
    rw [List.append_nil]
    exact hb
  | cons x rest ih =>
    rw [List.foldlM_cons]
    refine (hstep done x rest b rfl hb).bind fun b' hb' => ?_
    have happ : done ++ x :: rest = done ++ [x] ++ rest := by rw [List.append_assoc]; rfl
    rw [happ]
    exact ih (done ++ [x]) hb' fun done' y rest' b hsplit => hstep done' y rest' b (happ.trans hsplit)

/-- The calls that a program adds to the history. -/
theorem Makes.ends (hp : p.Makes P Q₀) (R : Rely A) (h : History A) :
    p.Ends R h (fun a h' => ∃ es, h' = h ++ es ∧ (∀ e ∈ es, P e.1) ∧ Q₀ a)
      fun _ h' => ∃ es, h' = h ++ es ∧ ∀ e ∈ es, P e.1 := by
  -- Induction on the program, whose first call is the first of the history.
  induction p generalizing h with
  | ret a => exact ⟨[], (List.append_nil h).symm, nofun, hp⟩
  | raise e => exact ⟨[], (List.append_nil h).symm, nofun⟩
  | call c k ih =>
    intro a _
    refine (ih a (hp.2 a) (h ++ [⟨c, a⟩])).mono ?_ ?_
    · rintro b _ ⟨es, rfl, hes, hb⟩
      refine ⟨⟨c, a⟩ :: es, List.append_assoc .., fun e he => ?_, hb⟩
      rcases List.mem_cons.mp he with rfl | he
      · exact hp.1
      · exact hes e he
    · rintro x _ ⟨es, rfl, hes⟩
      refine ⟨⟨c, a⟩ :: es, List.append_assoc .., fun e he => ?_⟩
      rcases List.mem_cons.mp he with rfl | he
      · exact hp.1
      · exact hes e he

/-- Calls that keep an invariant are all that a program needs to keep it. -/
theorem Makes.keeps (hp : p.Makes P Q₀) (hI : ∀ h e, I h → P e.1 → I (h ++ [e])) :
    Keeps R I p := by
  induction p with
  | ret a => exact keeps_pure
  | raise e => exact keeps_raise
  | call c k ih => exact fun h hIh a _ => ih a (hp.2 a) _ (hI h ⟨c, a⟩ hIh hp.1)

/-! ## Exceptions -/

/-- Running a program that another one is called by, which sees how it ended. -/
def attempt (p : Interaction A ε α) : Interaction A ε' (Except ε α) :=
  match p with
  | .ret a => .ret (.ok a)
  | .raise e => .ret (.error e)
  | .call c k => .call c fun a => (k a).attempt

/-- The rule of handlers. -/
theorem ends_attempt {Q : Except ε α → History A → Prop} {E : ε' → History A → Prop} :
    (p.attempt : Interaction A ε' _).Ends R h Q E ↔
      p.Ends R h (fun a => Q (.ok a)) fun e => Q (.error e) := by
  induction p generalizing h with
  | ret a => exact Iff.rfl
  | raise e => exact Iff.rfl
  | call c k ih => exact forall_congr' fun a => forall_congr' fun _ => ih a

/-- A handler keeps what the program in it keeps. -/
theorem Keeps.attempt (hp : Keeps R I p) : Keeps R I (p.attempt : Interaction A ε' _) :=
  fun h hI => ends_attempt.mpr (hp h hI)

/-- A handler calls what the program in it calls, and hands on what that returns. -/
theorem Makes.attempt (hp : p.Makes P Q₀) :
    (p.attempt : Interaction A ε' _).Makes P fun r => ∀ a, r = .ok a → Q₀ a := by
  induction p with
  | ret a => exact fun b hb => Except.ok.inj hb ▸ hp
  | raise e => exact nofun
  | call c k ih => exact ⟨hp.1, fun a => ih a (hp.2 a)⟩

/-- A program whose exceptions are told in other words. -/
def mapError (g : ε → ε') : Interaction A ε α → Interaction A ε' α
  | .ret a => .ret a
  | .raise e => .raise (g e)
  | .call c k => .call c fun a => (k a).mapError g

variable {g : ε → ε'} {E₁ : ε' → History A → Prop}

/-- The rule of exceptions that are told in other words. -/
theorem ends_mapError : (p.mapError g).Ends R h Q E₁ ↔ p.Ends R h Q fun e => E₁ (g e) := by
  induction p generalizing h with
  | ret a => exact Iff.rfl
  | raise e => exact Iff.rfl
  | call c k ih => exact forall_congr' fun a => forall_congr' fun _ => ih a

/-- The rule of exceptions that are told in other words, for one run. -/
theorem may_mapError : (p.mapError g).May R h Q E₁ ↔ p.May R h Q fun e => E₁ (g e) := by
  induction p generalizing h with
  | ret a => exact Iff.rfl
  | raise e => exact Iff.rfl
  | call c k ih => exact exists_congr fun a => and_congr_right fun _ => ih a

/-- The rule of handlers, for one run. -/
theorem may_attempt {Q : Except ε α → History A → Prop} {E : ε' → History A → Prop} :
    (p.attempt : Interaction A ε' _).May R h Q E ↔
      p.May R h (fun a => Q (.ok a)) fun e => Q (.error e) := by
  induction p generalizing h with
  | ret a => exact Iff.rfl
  | raise e => exact Iff.rfl
  | call c k ih => exact exists_congr fun a => and_congr_right fun _ => ih a

/-! ## Answers that stop a program -/

/-- An answer with `F` is the last: the program raises at once, and calls nothing more. -/
def Halts (F : Sigma A → Prop) : Interaction A ε α → Prop
  | .ret _ => True
  | .raise _ => True
  | .call c k => ∀ a, (k a).Halts F ∧ (F ⟨c, a⟩ → ∃ e, k a = .raise e)

/-- Nothing in the history follows an event with `F`. -/
def LastOnly (F : Sigma A → Prop) (es : History A) : Prop :=
  ∀ before e after, es = before ++ e :: after → F e → after = []

variable {F : Sigma A → Prop}

/-- A value has no answer that could stop it. -/
theorem halts_pure {a : α} : (pure a : Interaction A ε α).Halts F := trivial

/-- An exception comes after no answer. -/
theorem halts_raise {e : ε} : (raise e : Interaction A ε α).Halts F := trivial

/-- The rule of calls: what an answer with `F` is followed by raises. -/
theorem halts_ask_bind {c : C} {f : A c → Interaction A ε α} (hf : ∀ a, (f a).Halts F)
    (hF : ∀ a, F ⟨c, a⟩ → ∃ e, f a = raise e) : (ask c >>= f).Halts F :=
  fun a => ⟨hf a, hF a⟩

/-- The rule of sequencing: a program that raised skips what comes after it. -/
theorem Halts.bind (hp : p.Halts F) (hf : ∀ a, (f a).Halts F) : (p >>= f).Halts F := by
  induction p with
  | ret a => exact hf a
  | raise e => trivial
  | call c k ih =>
    intro a
    refine ⟨ih a (hp a).1, fun hF => ?_⟩
    obtain ⟨e, he⟩ := (hp a).2 hF
    exact ⟨e, congrArg (·.bind f) he⟩

/-- The rule of loops. -/
theorem Halts.foldlM {f : β → α → Interaction A ε β} {todo : List α} {b : β}
    (hstep : ∀ b, ∀ x ∈ todo, (f b x).Halts F) : (todo.foldlM f b).Halts F := by
  induction todo generalizing b with
  | nil => exact halts_pure
  | cons x rest ih =>
    rw [List.foldlM_cons]
    exact (hstep b x List.mem_cons_self).bind fun b' =>
      ih fun b y hy => hstep b y (List.mem_cons_of_mem _ hy)

/-- Nothing follows anything in an empty history. -/
theorem lastOnly_nil : LastOnly F ([] : History A) := by
  intro before e after hsplit
  simp at hsplit

/-- An event without `F` may be followed by others. -/
theorem LastOnly.cons {e : Sigma A} {es : History A} (he : ¬F e) (hes : LastOnly F es) :
    LastOnly F (e :: es) := by
  intro before e' after hsplit hF
  cases before with
  | nil =>
    obtain ⟨rfl, -⟩ := List.cons.inj hsplit
    exact absurd hF he
  | cons b before => exact hes before e' after (List.cons.inj hsplit).2 hF

/-- Nothing follows the one event of a history. -/
theorem lastOnly_singleton (e : Sigma A) : LastOnly F [e] := by
  intro before e' after hsplit _
  cases before with
  | nil => exact (List.cons.inj hsplit).2.symm
  | cons b before => simp at hsplit

/-- However such a program runs, an answer with `F` is the last of the history it adds. -/
theorem Halts.ends (hp : p.Halts F) (R : Rely A) (h : History A) :
    p.Ends R h (fun _ h' => ∃ es, h' = h ++ es ∧ LastOnly F es)
      fun _ h' => ∃ es, h' = h ++ es ∧ LastOnly F es := by
  induction p generalizing h with
  | ret a => exact ⟨[], (List.append_nil h).symm, lastOnly_nil⟩
  | raise e => exact ⟨[], (List.append_nil h).symm, lastOnly_nil⟩
  | call c k ih =>
    intro a _
    by_cases hF : F ⟨c, a⟩
    · -- the program raises: the answer stands alone
      obtain ⟨e, he⟩ := (hp a).2 hF
      rw [he]
      exact ⟨[⟨c, a⟩], rfl, lastOnly_singleton _⟩
    · refine (ih a (hp a).1 (h ++ [⟨c, a⟩])).mono ?_ ?_
      · rintro b _ ⟨es, rfl, hes⟩
        exact ⟨⟨c, a⟩ :: es, List.append_assoc .., hes.cons hF⟩
      · rintro e _ ⟨es, rfl, hes⟩
        exact ⟨⟨c, a⟩ :: es, List.append_assoc .., hes.cons hF⟩

end Interaction

end Fraisier.Lib
