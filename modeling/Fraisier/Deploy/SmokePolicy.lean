import Fraisier.Deploy.WayBack

/-!
# What a smoke test's failure does to a deploy

A smoke test says what its failure is to cost: a warning, the deploy, or the deploy and the new
code (`on_failure`). `_run_one` turns a failure into a `SmokeTestError` in the places it has a
clause for: while the request is sent and while the body is decoded, besides the answers it judges
itself. Every other exception (`Strays`) leaves the probe as it is, past the policy: an unset
variable behind the URL, a URL the client cannot parse, a body nested too deeply to decode. It is
answered where it lands: by the clause for token providers, or by the handler of every other
failure, which goes back to the previous commit (`policy_kept_iff`).

The runs are those in which the deploy's own timer does not go off.
-/

namespace Fraisier.Deploy

open Fraisier.Lib

variable {α β : Type} {K : List Aspect} {L : Law Run Exn} {env : Env} {test : SmokeTest} {n : ℕ}
  {f g : Failure} {s t u : Run}

/-! ## How a piece ends -/

/-- The piece, started in `s`, returns `a` and leaves `t`. -/
abbrev Returns (p : Program L α) (s : Run) (a : α) (t : Run) : Prop := p.run s = (.ok a, t)

/-- The piece, started in `s`, raises `f` and leaves `t`. -/
abbrev Throws (p : Program L α) (s : Run) (f : Failure) (t : Run) : Prop :=
  p.run s = (.error (.raised f), t)

/-- A sequence returns when both parts do. -/
theorem returns_bind {p : Program L α} {q : α → Program L β} {b : β} :
    Returns (p >>= q) s b u ↔ ∃ a t, Returns p s a t ∧ Returns (q a) t b u := by
  change (p.run s).andThen (fun a t => (q a).run t) = _ ↔ _
  unfold Returns
  rcases p.run s with ⟨_ | a, t⟩ <;> simp [Result.andThen]

/-- A sequence throws in one of its parts. -/
theorem throws_bind {p : Program L α} {q : α → Program L β} :
    Throws (p >>= q) s f u ↔ Throws p s f u ∨ ∃ a t, Returns p s a t ∧ Throws (q a) t f u := by
  change (p.run s).andThen (fun a t => (q a).run t) = _ ↔ _
  unfold Returns Throws
  rcases p.run s with ⟨_ | a, t⟩ <;> simp [Result.andThen]

/-- A value is returned as it is. -/
theorem returns_pure {a b : α} : Returns (pure a : Program L α) s b t ↔ a = b ∧ s = t := by
  change ((.ok a, s) : Result Run Exn α) = _ ↔ _
  simp

/-- A value throws nothing. -/
theorem not_throws_pure {a : α} : ¬Throws (pure a : Program L α) s f t := by
  change ¬((.ok a, s) : Result Run Exn α) = _
  simp

/-- Raising throws what is raised. -/
theorem throws_raise : Throws (raise g : Piece K α) s f t ↔ g = f ∧ s = t := by
  change ((.error (.raised g), s) : Result Run Exn α) = _ ↔ _
  simp

/-- Raising returns nothing. -/
theorem not_returns_raise {a : α} : ¬Returns (raise g : Piece K α) s a t := by
  change ¬((.error (.raised g), s) : Result Run Exn α) = _
  simp

/-- A guarded piece returns by itself or through its handler. -/
theorem returns_exceptFailure {p : Piece K α} {handler : Failure → Piece K α} {a : α} :
    Returns (exceptFailure p handler) s a u ↔
      Returns p s a u ∨ ∃ g t, Throws p s g t ∧ Returns (handler g) t a u := by
  unfold Returns Throws exceptFailure
  rcases hp : p.run s with ⟨(_ | g) | b, t⟩ <;> simp [hp]

/-- A guarded piece throws what its handler throws. -/
theorem throws_exceptFailure {p : Piece K α} {handler : Failure → Piece K α} :
    Throws (exceptFailure p handler) s f u ↔
      ∃ g t, Throws p s g t ∧ Throws (handler g) t f u := by
  unfold Throws exceptFailure
  rcases hp : p.run s with ⟨(_ | g) | b, t⟩ <;> simp [hp]

/-- The clause answers what the piece raises. -/
theorem run_exceptFailure {p : Piece K α} (handler : Failure → Piece K α) (h : Throws p s g t) :
    (exceptFailure p handler).run s = (handler g).run t := by
  unfold exceptFailure
  simp only [show p.run s = _ from h]

/-- A call raises nothing that only the modelled functions raise. -/
theorem call_throws {answer : ℕ → α} (h : Throws (call env answer : Piece K α) s f t) :
    f.cls ≠ .smokeTestError := by
  have hr : Raises Exn.Outside (call env answer : Piece K α) := .call fun _ => id
  have hs := hr s
  unfold Program.Ends at hs
  rw [h] at hs
  obtain hs | ⟨⟨cls, _, _, _, _, hout⟩, hs⟩ := hs
  · cases hs
  · obtain rfl := Exn.raised.inj hs
    rintro rfl
    cases hout

/-! ## What a probe raises -/

/-- What a probe is doing when the world raises an exception in it. -/
inductive Doing
  | resolving | sending | reading | decoding | asserting
  deriving DecidableEq, Repr

/-- The clauses of `_run_one`: `httpx.RequestError` around the request and `ValueError` around
`response.json()`. -/
def Doing.caught : Doing → ErrorClass → Bool
  | .sending, c => c.isInstance .httpxError
  | .decoding, c => c.isInstance .valueError
  | _, _ => false

/-- While `n` assertions are evaluated, the world raises `f`. -/
inductive BreaksAsserting (env : Env) (f : Failure) : ℕ → Run → Prop
  | evaluating {n : ℕ} {s t : Run} (h : Throws (call env env.flag : Piece [] Bool) s f t) :
      BreaksAsserting env f (n + 1) s
  | showing {n : ℕ} {s t u : Run} (h : Returns (call env env.flag : Piece [] Bool) s false t)
      (h' : Throws (call env env.text : Piece [] String) t f u) : BreaksAsserting env f (n + 1) s
  | next {n : ℕ} {s t : Run} (h : Returns (call env env.flag : Piece [] Bool) s true t)
      (h' : BreaksAsserting env f n t) : BreaksAsserting env f (n + 1) s

/-- The URL is resolved and the request answered; the run is then in `u`. -/
def Answered (env : Env) (s u : Run) : Prop :=
  ∃ t, Returns (call env fun _ => () : Piece [] Unit) s () t ∧
    Returns (call env fun _ => () : Piece [] Unit) t () u

/-- The world raises `f` in a probe of `n` assertions that begins in `s`, while the probe is doing
the given thing. -/
inductive Breaks (env : Env) (n : ℕ) (f : Failure) (s : Run) : Doing → Prop
  | resolving {t : Run} (h : Throws (call env fun _ => () : Piece [] Unit) s f t) :
      Breaks env n f s .resolving
  | sending {t u : Run} (h : Returns (call env fun _ => () : Piece [] Unit) s () t)
      (h' : Throws (call env fun _ => () : Piece [] Unit) t f u) : Breaks env n f s .sending
  | reading {u v : Run} (h : Answered env s u)
      (h' : Throws (call env env.flag : Piece [] Bool) u f v) : Breaks env n f s .reading
  | naming {u v w : Run} (h : Answered env s u)
      (h' : Returns (call env env.flag : Piece [] Bool) u false v)
      (hv : Throws (call env env.count : Piece [] ℕ) v f w) : Breaks env n f s .reading
  | decoding {u v w : Run} (h : Answered env s u)
      (h' : Returns (call env env.flag : Piece [] Bool) u true v)
      (hv : Throws (call env fun _ => () : Piece [] Unit) v f w) : Breaks env n f s .decoding
  | asserting {u v w : Run} (h : Answered env s u)
      (h' : Returns (call env env.flag : Piece [] Bool) u true v)
      (hv : Returns (call env fun _ => () : Piece [] Unit) v () w)
      (hw : BreaksAsserting env f n w) : Breaks env n f s .asserting

/-- The world raises `f` in the probe, at a place with no clause that names it. -/
def Strays (env : Env) (test : SmokeTest) (s : Run) (f : Failure) : Prop :=
  ∃ doing, Breaks env test.assertions f s doing ∧ doing.caught f.cls = false

/-- The exception carries the policy of the test: a `SmokeTestError`, whose `rollback` says whether
the policy is to roll back. -/
def Converted (test : SmokeTest) (f : Failure) : Prop :=
  f.cls = .smokeTestError ∧ f.rollback = decide (test.onFailure = .rollback)

/-- A test's own error is one it is converted to. -/
theorem converted_error (test : SmokeTest) (problem : String) :
    Converted test (test.error problem) := ⟨rfl, rfl⟩

/-- The clause of a probe that names a class `c` and turns its exceptions into failures under the
policy. -/
theorem converting_throws {p : Piece K α} {c : ErrorClass} {problem : Failure → String}
    (h : Throws (exceptFailure p fun g =>
      if g.cls.isInstance c then raise (test.error (problem g)) else raise g) s f u) :
    Converted test f ∨ Throws p s f u ∧ f.cls.isInstance c = false := by
  obtain ⟨g, t, hg, h⟩ := throws_exceptFailure.mp h
  split_ifs at h with hc <;> obtain ⟨rfl, rfl⟩ := throws_raise.mp h
  · exact .inl (converted_error test _)
  · exact .inr ⟨hg, by simpa using hc⟩

/-- An exception that the clause does not name passes it. -/
theorem converting_passes {p : Piece K α} {c : ErrorClass} {problem : Failure → String}
    (h : Throws p s f t) (hc : f.cls.isInstance c = false) :
    Throws (exceptFailure p fun g =>
      if g.cls.isInstance c then raise (test.error (problem g)) else raise g) s f t :=
  throws_exceptFailure.mpr ⟨f, t, h, by simpa [hc] using throws_raise.mpr ⟨rfl, rfl⟩⟩

/-- The clause returns only what it was given. -/
theorem converting_returns {p : Piece K α} {c : ErrorClass} {problem : Failure → String} {a : α} :
    Returns (exceptFailure p fun g =>
      if g.cls.isInstance c then raise (test.error (problem g)) else raise g) s a u ↔
      Returns p s a u := by
  refine returns_exceptFailure.trans ⟨fun h => h.elim id ?_, .inl⟩
  rintro ⟨g, t, -, h⟩
  split_ifs at h <;> exact absurd h not_returns_raise

/-- What leaves the assertions. -/
theorem runAssertions_throws (h : Throws (runAssertions env test n) s f t) :
    Converted test f ∨ BreaksAsserting env f n s := by
  induction n generalizing s with
  | zero => exact absurd h not_throws_pure
  | succ n ih =>
    obtain h | ⟨holds, u, hu, h⟩ := throws_bind.mp h
    · exact .inr (.evaluating h)
    cases holds with
    | true => exact (ih h).imp_right (.next hu)
    | false =>
      obtain h | ⟨found, v, hv, h⟩ := throws_bind.mp h
      · exact .inr (.showing hu h)
      · obtain ⟨rfl, -⟩ := throws_raise.mp h
        exact .inl (converted_error test _)

/-- Assertions that break throw something other than a smoke test's error. -/
theorem BreaksAsserting.throws (h : BreaksAsserting env f n s) :
    f.cls ≠ .smokeTestError ∧ ∃ t, Throws (runAssertions env test n) s f t := by
  induction h with
  | evaluating h => exact ⟨call_throws h, _, throws_bind.mpr (.inl h)⟩
  | showing h h' =>
    exact ⟨call_throws h', _, throws_bind.mpr (.inr ⟨_, _, h, throws_bind.mpr (.inl h')⟩)⟩
  | next h _ ih =>
    obtain ⟨hf, t, ht⟩ := ih
    exact ⟨hf, t, throws_bind.mpr (.inr ⟨_, _, h, ht⟩)⟩

/-- What leaves a probe is a failure under its policy, or a stray exception. -/
theorem runOne_throws (h : Throws (runOne env test) s f t) :
    Converted test f ∨ Strays env test s f := by
  -- The probe's steps are taken in order, and each may throw.
  obtain h | ⟨⟨⟩, s₁, hurl, h⟩ := throws_bind.mp h
  · exact .inr ⟨_, .resolving h, rfl⟩
  obtain h | ⟨⟨⟩, s₂, hsent, h⟩ := throws_bind.mp h
  · exact (converting_throws h).imp_right fun ⟨h, hc⟩ => ⟨_, .sending hurl h, hc⟩
  have hanswered : Answered env s s₂ := ⟨s₁, hurl, converting_returns.mp hsent⟩
  obtain h | ⟨ok, s₃, hok, h⟩ := throws_bind.mp h
  · exact .inr ⟨_, .reading hanswered h, rfl⟩
  cases ok with
  | false =>
    obtain h | ⟨statusCode, s₄, -, h⟩ := throws_bind.mp h
    · exact .inr ⟨_, .naming hanswered hok h, rfl⟩
    · obtain ⟨rfl, -⟩ := throws_raise.mp h
      exact .inl (converted_error test _)
  | true =>
    obtain h | ⟨⟨⟩, s₄, hbody, h⟩ := throws_bind.mp h
    · exact (converting_throws h).imp_right fun ⟨h, hc⟩ => ⟨_, .decoding hanswered hok h, hc⟩
    · exact (runAssertions_throws h).imp_right fun hw =>
        ⟨_, .asserting hanswered hok (converting_returns.mp hbody) hw, rfl⟩

/-- A probe that is answered goes on to the answer. -/
theorem Answered.throws (h : Answered env s u)
    (hu : Throws (do
      let ok ← call env env.flag
      if ok then do
        exceptFailure (call env fun _ => ()) fun f =>
          if f.cls.isInstance .valueError then
            raise (test.error ("returned non-JSON body: " ++ f.text))
          else raise f
        runAssertions env test test.assertions
      else do
        let statusCode ← call env env.count
        raise (test.error ("returned HTTP " ++ toString statusCode)) : Piece [] Unit) u f t) :
    Throws (runOne env test) s f t := by
  obtain ⟨v, hurl, hsent⟩ := h
  exact throws_bind.mpr (.inr ⟨(), v, hurl, throws_bind.mpr
    (.inr ⟨(), u, converting_returns.mpr hsent, hu⟩)⟩)

/-- A stray exception leaves the probe as it is. -/
theorem Strays.throws (h : Strays env test s f) :
    f.cls ≠ .smokeTestError ∧ ∃ t, Throws (runOne env test) s f t := by
  obtain ⟨doing, h, hc⟩ := h
  -- By the step at which the exception was thrown, after those that passed.
  cases h with
  | resolving h => exact ⟨call_throws h, _, throws_bind.mpr (.inl h)⟩
  | sending h h' =>
    exact ⟨call_throws h', _, throws_bind.mpr
      (.inr ⟨(), _, h, throws_bind.mpr (.inl (converting_passes h' hc))⟩)⟩
  | reading h h' => exact ⟨call_throws h', _, h.throws (throws_bind.mpr (.inl h'))⟩
  | naming h h' hv =>
    exact ⟨call_throws hv, _, h.throws (throws_bind.mpr
      (.inr ⟨false, _, h', throws_bind.mpr (.inl hv)⟩))⟩
  | decoding h h' hv =>
    exact ⟨call_throws hv, _, h.throws (throws_bind.mpr
      (.inr ⟨true, _, h', throws_bind.mpr (.inl (converting_passes hv hc))⟩))⟩
  | asserting h h' hv hw =>
    obtain ⟨hf, t, ht⟩ : f.cls ≠ .smokeTestError ∧ ∃ t, Throws (runAssertions env test _) _ f t :=
      hw.throws
    exact ⟨hf, t, h.throws (throws_bind.mpr (.inr ⟨true, _, h', throws_bind.mpr
      (.inr ⟨(), _, converting_returns.mpr hv, ht⟩)⟩))⟩

/-! ## The probes of a run -/

/-- What is left of a deploy once it is healthy: the smoke tests, and the end of a deploy that went
well. -/
def smokeTestsAndSuccess (env : Env) (dbPk : Option ℕ) (newSha : String) :
    Piece rollbackAspects DeploymentResult := do
  let smoke ← runSmokeTestsOrHalt env dbPk
  match smoke with
  | some result => pure result
  | none => succeed env dbPk newSha

/-- The rest of the run of a healthy deploy: inside the `deployment_timeout` block, and under the
two `except` clauses of `_execute`. -/
def finish (env : Env) (dbPk : Option ℕ) (newSha : String) : Whole DeploymentResult :=
  (deploymentTimeout env (smokeTestsAndSuccess env dbPk newSha)).tryCatch fun e =>
    monadLift (handle env dbPk e)

/-- In the run of a healthy deploy that starts in `s`, the probes of the tests `rest` are still to
be run, and the first of them begins in `t`; with none left, the tests are over. -/
inductive ProbesLeft (env : Env) (s : Run) : List SmokeTest → Run → Prop
  | start {t u : Run} (h : Returns (call env fun _ => () : Piece [] Unit) (s.arm true) () t)
      (h' : Returns (materializeTestHeaders env s.self.settings.smokeTestsConfig) t () u) :
      ProbesLeft env s s.self.settings.smokeTestsConfig u
  | next {test : SmokeTest} {rest : List SmokeTest} {t u : Run}
      (h : ProbesLeft env s (test :: rest) t) (h' : Returns (runSmokeTests env [test]) t () u) :
      ProbesLeft env s rest u

/-- A test whose failure is only a warning, and which failed under its policy, is over. -/
theorem runSmokeTests_warned {rest : List SmokeTest} (h : Throws (runOne env test) s f t)
    (hf : f.cls = .smokeTestError) (hwarn : test.onFailure = .warn) :
    (runSmokeTests env (test :: rest)).run s = (runSmokeTests env rest).run t := by
  have hhead : Returns (exceptFailure (runOne env test) fun f =>
      if f.cls = .smokeTestError && test.onFailure = .warn then pure () else raise f) s () t :=
    returns_exceptFailure.mpr
      (.inr ⟨f, t, h, by simpa [hf, hwarn] using returns_pure.mpr ⟨rfl, rfl⟩⟩)
  change ((_ : Program _ _).run s).andThen _ = _
  rw [hhead]
  rfl

/-- Every other failure ends the tests. -/
theorem runSmokeTests_throws {rest : List SmokeTest} (h : Throws (runOne env test) s f t)
    (hf : f.cls = .smokeTestError → test.onFailure ≠ .warn) :
    Throws (runSmokeTests env (test :: rest)) s f t := by
  refine throws_bind.mpr (.inl (throws_exceptFailure.mpr ⟨f, t, h, ?_⟩))
  have hc : (decide (f.cls = .smokeTestError) && decide (test.onFailure = .warn)) = false := by
    simpa using hf
  simpa [hc] using throws_raise.mpr ⟨rfl, rfl⟩

/-- A test that is over leaves the others to be run. -/
theorem runSmokeTests_next {rest : List SmokeTest} (h : Returns (runSmokeTests env [test]) s () t) :
    (runSmokeTests env (test :: rest)).run s = (runSmokeTests env rest).run t := by
  obtain ⟨⟨⟩, u, hu, hpure⟩ := returns_bind.mp h
  obtain ⟨-, rfl⟩ := returns_pure.mp hpure
  change ((_ : Program _ _).run s).andThen _ = _
  rw [hu]
  rfl

namespace ProbesLeft

variable {rest rest' : List SmokeTest}

/-- Nothing the run can see happens between two probes. -/
theorem obeys (h : ProbesLeft env s rest t) : Obeys [] (s.arm true) none t := by
  induction h with
  | @start t _ h h' =>
    have hload := Program.lawful (call env fun _ => () : Piece [] Unit) (s.arm true)
    have htokens := Program.lawful (materializeTestHeaders env s.self.settings.smokeTestsConfig) t
    rw [h] at hload
    rw [h'] at htokens
    exact Obeys.chain hload htokens
  | @next test _ t _ _ h' ih =>
    have hprobe := Program.lawful (runSmokeTests env [test]) t
    rw [h'] at hprobe
    exact ih.chain hprobe

/-- The tests end as the ones that are left do. -/
theorem resolveAndRun (h : ProbesLeft env s rest t) :
    ∃ u, Returns (call env fun _ => () : Piece [] Unit) (s.arm true) () u ∧
      (resolveAndRun env s.self.settings.smokeTestsConfig).run u =
        (runSmokeTests env rest).run t := by
  induction h with
  | @start t u h h' =>
    refine ⟨t, h, ?_⟩
    change ((_ : Program _ _).run t).andThen _ = _
    rw [h']
    rfl
  | next _ h' ih =>
    obtain ⟨u, hu, hr⟩ := ih
    exact ⟨u, hu, hr.trans (runSmokeTests_next h')⟩

/-- No more probes are left than are configured. -/
theorem length_le (h : ProbesLeft env s rest t) :
    rest.length ≤ s.self.settings.smokeTestsConfig.length := by
  induction h with
  | start => exact Nat.le_refl _
  | next _ _ ih => exact Nat.le_of_succ_le ih

/-- A run comes to a probe once. -/
theorem unique (h : ProbesLeft env s rest t) (h' : ProbesLeft env s rest' u)
    (hlen : rest.length = rest'.length) : rest = rest' ∧ t = u := by
  -- Both runs start alike, and as many probes are left in both.
  induction h generalizing rest' u with
  | start h₁ h₂ =>
    cases h' with
    | start h₃ h₄ =>
      rw [Returns, h₁] at h₃
      cases h₃
      rw [Returns, h₂] at h₄
      cases h₄
      exact ⟨rfl, rfl⟩
    | next h₃ _ =>
      have := h₃.length_le
      simp only [List.length_cons] at this
      omega
  | next h₁ h₂ ih =>
    cases h' with
    | start =>
      have := h₁.length_le
      simp only [List.length_cons] at this
      omega
    | next h₃ h₄ =>
      obtain ⟨hrest, rfl⟩ := ih h₃ (by simp [hlen])
      cases hrest
      rw [Returns, h₂] at h₄
      cases h₄
      exact ⟨rfl, rfl⟩

/-- After a test that ended the run of the tests, no other is run. -/
theorem not_left (h : ProbesLeft env s (test :: rest) t)
    (hf : Throws (runSmokeTests env [test]) t f u) (v : Run) : ¬ProbesLeft env s rest v := by
  intro hv
  cases hv with
  | start =>
    have := h.length_le
    simp only [List.length_cons] at this
    omega
  | next h₃ h₄ =>
    obtain ⟨hrest, rfl⟩ := h.unique h₃ rfl
    cases hrest
    rw [Throws, h₄] at hf
    cases hf

end ProbesLeft

/-! ## What the deploy answers -/

/-- The `except` clauses of `_run_smoke_tests_or_halt`. -/
def answerSmokeFailure (env : Env) (dbPk : Option ℕ) (me : Attributes) (f : Failure) :
    Piece rollbackAspects (Option DeploymentResult) :=
  if f.cls.isInstance .deploymentError then haltAtSmokeTests env dbPk f.text (some f)
  else if f.cls = .smokeTestError then
    if f.rollback && me.previousSha.isSome then do
      let rollbackResult ← rollback env
      let result ← buildRollbackResult env rollbackResult me.oldVersion
      completeDbRecord env dbPk result
      pure (some result)
    else haltAtSmokeTests env dbPk f.text none
  else raise f

/-- An exception that leaves the tests is answered by the clauses. -/
theorem runSmokeTestsOrHalt_answers {rest : List SmokeTest} (dbPk : Option ℕ)
    (h : ProbesLeft env s (test :: rest) t) (hf : Throws (runSmokeTests env (test :: rest)) t f u) :
    (runSmokeTestsOrHalt env dbPk).run (s.arm true) =
      (answerSmokeFailure env dbPk s.self f).run u := by
  have hsome : s.self.settings.smokeTestsConfig.isEmpty = false := by
    have := h.length_le
    cases hs : s.self.settings.smokeTestsConfig with
    | nil => simp [hs] at this
    | cons => rfl
  -- The tests are loaded and run inside the clauses that answer the exception.
  obtain ⟨v, hload, hrun⟩ := h.resolveAndRun
  have htests : Throws (do
      resolveAndRun env s.self.settings.smokeTestsConfig
      pure none : Piece rollbackAspects (Option DeploymentResult)) v f u :=
    throws_bind.mpr (.inl (hrun.trans hf))
  change (if s.self.settings.smokeTestsConfig.isEmpty then _ else _ :
    Piece rollbackAspects (Option DeploymentResult)).run (s.arm true) = _
  rw [hsome]
  change ((_ : Program _ _).run (s.arm true)).andThen _ = _
  rw [show (call env fun _ => () : Piece rollbackAspects Unit).run (s.arm true) = _ from hload]
  exact run_exceptFailure (answerSmokeFailure env dbPk s.self) htests

/-- What the ways back look at: whether there is a commit to go back to. The mark is how many ways
back the run has entered. -/
def Watch.waysBack : Watch Bool ℕ where
  attrs x := x.previousSha.isSome
  init := 0
  step n
    | .goingBack _ => n + 1
    | _ => n
  reads := [.rollback, .previous]
  attrs_eq x y h := by
    have hp := h .previous (by simp)
    simp only [Attributes.Agree] at hp
    rw [hp.1]
  step_eq n d hd := by cases d <;> simp_all [Deed.aspect]

/-- A way back that was entered stays entered. -/
theorem entered_invariant {p : Piece K β} (n : ℕ) :
    Spec Watch.waysBack (fun _ m => n < m) p (fun _ _ m => n < m) fun _ _ m => n < m := by
  refine .invariant (fun _ m d _ h => ?_) fun _ _ _ _ h => h
  cases d <;> simp only [Watch.waysBack] <;> omega

/-- A database rollback is a way back that was entered. -/
theorem rollbackDatabase_entered (n : ℕ) (currentVersion : Option String) :
    Spec Watch.waysBack (fun _ m => n < m) (rollbackDatabase env currentVersion)
      (fun r _ m => (r.success = false → r.status = .rollbackFailed) ∧ n < m) fun _ _ m => n < m :=
  rollbackDatabase_spec (R := fun _ _ m => n < m) (by decide) (fun _ _ _ => id)
    (fun _ _ => (entered_invariant n).mono (fun _ _ h => h.1) (fun _ _ _ h => h) fun _ _ _ h => h)
    (fun _ _ _ _ => id) currentVersion

/-- A rollback enters a way back when there is a commit to go back to. -/
theorem rollback_entered (n : ℕ) :
    Spec Watch.waysBack (fun known m => known = true ∧ m = n) (rollback env) (fun _ _ m => n < m)
      fun _ _ _ => True := by
  refine (rollback_spec_entered (fun _ m => n < m) (fun _ _ m => n < m)
    (fun e _ m => e = .deploymentTimeoutExpired ∨ n < m) (by decide) (fun _ _ _ => .inl rfl)
    (fun x f m hnone h => ?_) (fun a m h => ?_) (fun _ _ _ => .inr) (fun _ => ?_) (fun _ _ _ => id)
    (fun _ _ _ => ?_) (fun r _ _ => ?_) fun f r _ _ => ?_).post (fun _ _ _ => id)
      fun _ _ _ _ => trivial
  -- Only a rollback without a commit enters none.
  · simp [Watch.waysBack, hnone] at h
  · obtain ⟨-, rfl⟩ := h
    exact Nat.lt_succ_self m
  · exact ((rollbackDatabase_entered n _).pre fun _ _ h => h.1).post (fun _ _ _ => id)
      fun _ _ _ => .inr
  · exact (entered_invariant n).post (fun _ _ _ => id) fun _ _ _ => .inr
  · exact (entered_invariant n).post (fun _ _ _ => id) fun _ _ _ => .inr
  · refine ((entered_invariant n).pre fun _ _ h => h.resolve_left (by simp)).post (fun _ _ _ => id)
      fun _ _ _ => .inr

/-- The restore after a failure enters a way back exactly when there is a commit to go back to. -/
theorem restorePreviousState_entered (known keep : Bool) (n : ℕ) :
    Spec Watch.waysBack (fun k m => k = known ∧ m = n) (restorePreviousState env keep)
      (fun outcome _ m => (known = true → n < m) ∧ (known = false → outcome = {} ∧ m = n))
      fun _ _ _ => True := by
  refine .self_bind fun me => ?_
  -- Without a commit there is nothing to restore.
  cases hp : me.previousSha with
  | none =>
    refine .pure ?_
    rintro a m ⟨⟨rfl, rfl⟩, ha⟩
    simp [ha, Watch.waysBack, hp]
  | some sha =>
    have hgo : Spec Watch.waysBack (fun k m => (k = known ∧ m = n) ∧ k = Watch.waysBack.attrs me)
        (goBack .restore) (fun _ _ m => known = true ∧ n < m) fun _ _ _ => True := by
      refine .note ?_
      rintro x _ ⟨⟨hk, rfl⟩, ha⟩
      exact ⟨hk.symm.trans (ha.trans (by simp [Watch.waysBack, hp])), Nat.lt_succ_self _⟩
    refine .lift_bind hgo fun _ => (entered_invariant n).keep.post (fun outcome a m h => ?_)
      fun _ _ _ _ => trivial
    exact ⟨fun _ => h.2, by simp [h.1]⟩

/-- The handler of every failure that the clauses before it do not name goes back when it can. -/
theorem handleFailure_entered (dbPk : Option ℕ) (known : Bool) (n : ℕ) :
    Spec Watch.waysBack (fun k m => k = known ∧ m = n) (handleFailure env dbPk f)
      (fun r _ m => (known = true → n < m) ∧
        (known = false → r.success = false ∧ r.status = .failed ∧ m = n)) fun _ _ _ => True := by
  have hframe : ∀ {K : List Aspect} (p : Piece K Unit) {P : Bool → ℕ → Prop},
      (∀ a ∈ K, a ∉ Watch.waysBack.reads) →
        Spec Watch.waysBack P p (fun _ => P) fun _ _ _ => True :=
    fun p _ hK => (Spec.frame hK).post (fun _ _ _ => id) fun _ _ _ _ => trivial
  refine .lift_bind (hframe _ (by decide)) fun _ => ?_
  refine .lift_bind (restorePreviousState_entered known _ n) fun outcome => ?_
  refine .lift_bind (hframe _ (by decide)) fun _ => .lift_bind (hframe _ (by decide)) fun _ => ?_
  refine .self_bind_any fun me => .lift_bind (hframe _ (by decide)) fun _ => ?_
  refine .lift_bind (hframe _ (by decide)) fun _ => .pure fun a m h => ⟨h.1, fun hk => ?_⟩
  obtain ⟨rfl, rfl⟩ := h.2 hk
  exact ⟨rfl, rfl, rfl⟩

/-- A deploy that stops at its smoke tests has failed, and goes nowhere. -/
theorem haltAtSmokeTests_halts (dbPk : Option ℕ) (message : String) (error : Option Failure)
    (P : Bool → ℕ → Prop) :
    Spec Watch.waysBack P (haltAtSmokeTests env dbPk message error)
      (fun smoke a m => (∃ r, smoke = some r ∧ r.success = false ∧ r.status = .failed) ∧ P a m)
      fun e _ _ => e = .deploymentTimeoutExpired := by
  have hraises : Contained (haltAtSmokeTests env dbPk message error) :=
    .bind (.lift .note) fun _ => .bind (.lift (writeStatus_contained env _)) fun _ =>
      .self_bind fun _ => .bind (.lift (completeDbRecord_contained env _ _)) fun _ => .pure
  refine (hraises.spec (?_ : Spec _ P _ _ fun _ _ _ => True)).post (fun _ _ _ => id)
    fun _ _ _ h => h.1
  refine .lift_bind (Q := fun _ => P) (.note fun _ _ h => h) fun _ => ?_
  refine .frame_bind (by decide) (fun _ _ _ _ => trivial) fun _ => ?_
  refine .self_bind_any fun me => .frame_bind (by decide) (fun _ _ _ _ => trivial) fun _ => ?_
  exact .pure fun a m h => ⟨⟨_, rfl, rfl, rfl⟩, h⟩

/-- A failure that asks for no rollback enters no way back. -/
theorem answerSmokeFailure_halts (dbPk : Option ℕ) (me : Attributes) (P : Bool → ℕ → Prop)
    (hf : f.cls.isInstance .deploymentError = true ∨
      f.cls = .smokeTestError ∧ (f.rollback && me.previousSha.isSome) = false) :
    Spec Watch.waysBack P (answerSmokeFailure env dbPk me f)
      (fun smoke a m => (∃ r, smoke = some r ∧ r.success = false ∧ r.status = .failed) ∧ P a m)
      fun e _ _ => e = .deploymentTimeoutExpired := by
  refine .ite (fun _ => .lift (haltAtSmokeTests_halts dbPk _ _ P)) fun hc => ?_
  obtain ⟨hcls, hback⟩ := hf.resolve_left hc
  refine .ite (fun _ => .ite (fun h => ?_) fun _ => ?_) fun h => absurd hcls h
  · exact absurd h (by simp [hback])
  · exact .lift (haltAtSmokeTests_halts dbPk _ _ P)

/-- A failure that asks for a rollback enters a way back. -/
theorem answerSmokeFailure_goesBack (dbPk : Option ℕ) (me : Attributes) (n : ℕ)
    (hf : f.cls = .smokeTestError) (hback : (f.rollback && me.previousSha.isSome) = true) :
    Spec Watch.waysBack (fun known m => known = true ∧ m = n) (answerSmokeFailure env dbPk me f)
      (fun smoke _ m => smoke.isSome ∧ n < m) fun e _ _ => e = .deploymentTimeoutExpired := by
  have hentered : ∀ {γ : Type} {p : Piece rollbackAspects γ}, Contained p →
      Spec Watch.waysBack (fun _ m => n < m) p (fun _ _ m => n < m)
        fun e _ _ => e = .deploymentTimeoutExpired := fun h =>
    (h.spec (entered_invariant n)).post (fun _ _ _ => id) fun _ _ _ h => h.1
  have hroll : Spec Watch.waysBack (fun known m => known = true ∧ m = n) (rollback env)
      (fun _ _ m => n < m) fun e _ _ => e = .deploymentTimeoutExpired :=
    ((rollback_contained env _).spec (rollback_entered n)).post (fun _ _ _ => id) fun _ _ _ h => h.1
  -- Of the clauses only the one that rolls back is taken.
  refine .ite (fun h => absurd h (by rw [hf]; decide)) fun _ => ?_
  refine .ite (fun _ => .ite (fun _ => ?_) fun h => absurd hback h) fun h => absurd hf h
  refine .bind hroll fun r => .bind (hentered (.lift (buildRollbackResult_contained env _ _))) ?_
  refine fun result => .bind (hentered (.lift (completeDbRecord_contained env _ _))) fun _ => ?_
  exact .pure fun _ _ h => ⟨rfl, h⟩

/-- What the clauses do not name passes them. -/
theorem answerSmokeFailure_throws (dbPk : Option ℕ) (me : Attributes) (s : Run)
    (hf : f.cls.isInstance .deploymentError = false) (hcls : f.cls ≠ .smokeTestError) :
    Throws (answerSmokeFailure env dbPk me f) s f s := by
  simp only [answerSmokeFailure, hf, hcls, if_false]
  exact throws_raise.mpr ⟨rfl, rfl⟩

/-! ## The end of the run -/

/-- A run whose timer's exception reached the handler is one in which the timer went off. -/
theorem Obeys.expired_of_handled {K' : List Aspect} {e : Option Exn}
    (h : Obeys K s (some .deploymentTimeoutExpired) t) (h' : Obeys K' (t.arm false) e u) :
    u.alarm.expiry ≠ none := by
  have ht : t.alarm.expiry ≠ none := by
    cases h.timer with
    | spent _ _ _ exit => exact absurd rfl exit
    | quiet _ _ exit => exact absurd rfl exit
    | wentOff _ _ inner after => simp [after]
  cases h'.timer with
  | spent _ same => rwa [same]
  | quiet before => exact absurd before ht
  | wentOff armed => simp at armed

variable {dbPk : Option ℕ} {newSha : String}

/-- The rest of the block, with the last point at which the timer may go off. -/
def finishBlock (env : Env) (dbPk : Option ℕ) (newSha : String) :
    Piece rollbackAspects DeploymentResult := do
  let r ← smokeTestsAndSuccess env dbPk newSha
  quiet env
  pure r

/-- The clauses of a run around its block. -/
theorem finish_run (s : Run) :
    (finish env dbPk newSha).run s =
      match (finishBlock env dbPk newSha).run (s.arm true) with
      | (.ok r, t) => (.ok r, t.arm false)
      | (.error e, t) => (handle env dbPk e).run (t.arm false) := by
  have hblock : (deploymentTimeout env (smokeTestsAndSuccess env dbPk newSha)).run s =
      (((finishBlock env dbPk newSha).run (s.arm true)).1,
        ((finishBlock env dbPk newSha).run (s.arm true)).2.arm false) := rfl
  unfold finish Program.tryCatch
  simp only [hblock]
  rcases (finishBlock env dbPk newSha).run (s.arm true) with ⟨_ | _, _⟩ <;> rfl

/-- A run in which the timer does not go off ends as its block does. -/
theorem finish_returns {Q : DeploymentResult → ℕ → Prop}
    (hquiet : ((finish env dbPk newSha).run s).2.alarm.expiry = none)
    (h : (smokeTestsAndSuccess env dbPk newSha).Ends (s.arm true)
      (fun r t => Q r (Watch.waysBack.mark t)) fun e _ => e = .deploymentTimeoutExpired) :
    ∃ r t, (finish env dbPk newSha).run s = (.ok r, t) ∧ Q r (Watch.waysBack.mark t) := by
  have hlast : ∀ r, Spec Watch.waysBack (fun _ m => Q r m)
      (do quiet env; pure r : Piece rollbackAspects DeploymentResult) (fun r _ m => Q r m)
      fun e _ _ => e = .deploymentTimeoutExpired := fun r =>
    .bind (.assign (Q := fun _ _ => Q r) (fun _ _ h => h) (fun _ _ _ => rfl) fun _ _ _ => rfl)
      fun _ => .pure fun _ _ h => h
  have hblock : (finishBlock env dbPk newSha).Ends (s.arm true)
      (fun r t => Q r (Watch.waysBack.mark t)) fun e _ => e = .deploymentTimeoutExpired :=
    Program.ends_bind.2 (h.mono (fun r t hr => hlast r t hr) fun _ _ => id)
  -- The block handles all but the timer's exception, which the run does not meet.
  rw [finish_run] at hquiet ⊢
  have hlaw := Program.lawful (finishBlock env dbPk newSha) (s.arm true)
  unfold Program.Ends at hblock
  rcases hrun : (finishBlock env dbPk newSha).run (s.arm true) with ⟨e | r, t⟩ <;>
    rw [hrun] at hquiet hlaw hblock
  · obtain rfl : e = .deploymentTimeoutExpired := hblock
    exact absurd hquiet (Obeys.expired_of_handled hlaw
      (Program.lawful (handle env dbPk .deploymentTimeoutExpired) (t.arm false)))
  · exact ⟨r, t.arm false, rfl, hblock⟩

/-- What the block raises of its own goes to the handler of every other failure. -/
theorem finish_throws (h : Throws (smokeTestsAndSuccess env dbPk newSha) (s.arm true) f t) :
    (finish env dbPk newSha).run s = (handleFailure env dbPk f).run (t.arm false) := by
  have hblock : Throws (finishBlock env dbPk newSha) (s.arm true) f t := throws_bind.mpr (.inl h)
  rw [finish_run, show (finishBlock env dbPk newSha).run (s.arm true) = _ from hblock]
  rfl

section Stopped

variable {rest : List SmokeTest} (h : ProbesLeft env s (test :: rest) t)
  (hstop : Throws (runSmokeTests env (test :: rest)) t f u)

include h hstop

/-- Up to the exception that ends the tests, no way back is entered, and the commit to go back to
stays what it was. -/
theorem stopped_same : Watch.waysBack.attrs u.self = s.self.previousSha.isSome ∧
    Watch.waysBack.mark u = Watch.waysBack.mark s := by
  have hprobe := Program.lawful (runSmokeTests env (test :: rest)) t
  rw [hstop] at hprobe
  have htouches : Touches [] (s.arm true) u := (h.obeys.chain hprobe).touches
  have hsame := Watch.waysBack.eq_of_touches htouches fun a ha => absurd ha List.not_mem_nil
  exact hsame

/-- The deploy goes on with what its clauses answer. -/
theorem stopped_ends {Q : DeploymentResult → ℕ → Prop}
    (hquiet : ((finish env dbPk newSha).run s).2.alarm.expiry = none)
    (hans : Spec Watch.waysBack
      (fun known m => known = s.self.previousSha.isSome ∧ m = Watch.waysBack.mark s)
      (answerSmokeFailure env dbPk s.self f) (fun smoke _ m => ∃ r, smoke = some r ∧ Q r m)
      fun e _ _ => e = .deploymentTimeoutExpired) :
    ∃ r t', (finish env dbPk newSha).run s = (.ok r, t') ∧ Q r (Watch.waysBack.mark t') := by
  refine finish_returns hquiet (Program.ends_bind.2 ?_)
  unfold Program.Ends
  rw [runSmokeTestsOrHalt_answers dbPk h hstop]
  refine (hans u (stopped_same h hstop)).mono ?_ fun _ _ => id
  rintro _ v ⟨r, rfl, hr⟩
  exact hr

/-- A failure that halts fails the deploy, and goes nowhere. -/
theorem stopped_halts (hquiet : ((finish env dbPk newSha).run s).2.alarm.expiry = none)
    (hf : f.cls.isInstance .deploymentError = true ∨
      f.cls = .smokeTestError ∧ (f.rollback && s.self.previousSha.isSome) = false) :
    ∃ r t', (finish env dbPk newSha).run s = (.ok r, t') ∧
      (r.success = false ∧ r.status = .failed) ∧
        Watch.waysBack.mark t' = Watch.waysBack.mark s := by
  refine stopped_ends h hstop (Q := fun r m => (r.success = false ∧ r.status = .failed) ∧
    m = Watch.waysBack.mark s) hquiet
    ((answerSmokeFailure_halts dbPk s.self _ hf).post ?_ fun _ _ _ => id)
  rintro smoke a m ⟨⟨r, hr, hfailed⟩, -, hm⟩
  exact ⟨r, hr, hfailed, hm⟩

/-- A failure under the policy to roll back goes back to the commit that is known. -/
theorem stopped_goesBack (hquiet : ((finish env dbPk newSha).run s).2.alarm.expiry = none)
    (hf : f.cls = .smokeTestError) (hback : (f.rollback && s.self.previousSha.isSome) = true) :
    ∃ r t', (finish env dbPk newSha).run s = (.ok r, t') ∧
      Watch.waysBack.mark s < Watch.waysBack.mark t' := by
  have hknown : s.self.previousSha.isSome = true := (Bool.and_eq_true_iff.mp hback).2
  refine stopped_ends h hstop (Q := fun _ m => Watch.waysBack.mark s < m) hquiet
    ((answerSmokeFailure_goesBack dbPk s.self (Watch.waysBack.mark s) hf hback).mono ?_ ?_
      fun _ _ _ => id)
  · rintro a m ⟨rfl, hm⟩
    exact ⟨hknown, hm⟩
  · rintro smoke a m ⟨hsome, hm⟩
    obtain ⟨r, hr⟩ := Option.isSome_iff_exists.mp hsome
    exact ⟨r, hr, hm⟩

/-- Any other exception goes back when a commit is known, and fails the deploy when none is. -/
theorem stopped_strays (dbPk : Option ℕ) (newSha : String)
    (hf : f.cls.isInstance .deploymentError = false) (hcls : f.cls ≠ .smokeTestError) :
    ∃ r t', (finish env dbPk newSha).run s = (.ok r, t') ∧
      (s.self.previousSha.isSome = true → Watch.waysBack.mark s < Watch.waysBack.mark t') ∧
        (s.self.previousSha.isSome = false → r.success = false ∧ r.status = .failed ∧
          Watch.waysBack.mark t' = Watch.waysBack.mark s) := by
  have hthrows : Throws (smokeTestsAndSuccess env dbPk newSha) (s.arm true) f u :=
    throws_bind.mpr (.inl ((runSmokeTestsOrHalt_answers dbPk h hstop).trans
      (answerSmokeFailure_throws dbPk s.self u hf hcls)))
  -- The exception is none that the tests' clauses answer, so the handler of the run has it.
  rw [finish_throws hthrows]
  have hsame := stopped_same h hstop
  have hreturns := (handleFailure_contained env dbPk f).returns
    (handleFailure_entered dbPk s.self.previousSha.isSome (Watch.waysBack.mark s)).calm
    (s := u.arm false) rfl hsame
  unfold Program.Ends at hreturns
  rcases hrun : (handleFailure env dbPk f).run (u.arm false) with ⟨e | r, t'⟩ <;>
    rw [hrun] at hreturns
  · exact hreturns.elim
  · exact ⟨r, t', rfl, hreturns.1⟩

end Stopped

/-! ## The policies -/

/-- What a test's policy asks of the run of a healthy deploy that starts in `s`, when its probe has
failed and left `u`, with the tests `rest` after it: a warning leaves those tests to be run, a
halt fails the deploy with no way back entered, and a rollback enters one when there is a commit to
go back to. -/
def PolicyKept (env : Env) (dbPk : Option ℕ) (newSha : String) (s : Run) (rest : List SmokeTest)
    (u : Run) : OnFailure → Prop
  | .warn => ProbesLeft env s rest u
  | .halt => ∃ r t', (finish env dbPk newSha).run s = (.ok r, t') ∧
      (r.success = false ∧ r.status = .failed) ∧ Watch.waysBack.mark t' = Watch.waysBack.mark s
  | .rollback => s.self.previousSha.isSome = true → ∃ r t',
      (finish env dbPk newSha).run s = (.ok r, t') ∧ Watch.waysBack.mark s < Watch.waysBack.mark t'

/-- A stray exception does what the policy asks for: no policy to warn allows one; a policy to halt
allows what the clause for token providers names, or any when there is nothing to go back to; a
policy to roll back allows the others. -/
def OnFailure.Tolerates (f : Failure) (known : Bool) : OnFailure → Prop
  | .warn => False
  | .halt => f.cls.isInstance .deploymentError = true ∨ known = false
  | .rollback => f.cls.isInstance .deploymentError = false ∨ known = false

/-- A failure under its policy is answered as the policy says. -/
theorem kept_of_converted {rest : List SmokeTest} (h : ProbesLeft env s (test :: rest) t)
    (hf : Throws (runOne env test) t f u) (hconv : Converted test f)
    (hquiet : ((finish env dbPk newSha).run s).2.alarm.expiry = none) :
    PolicyKept env dbPk newSha s rest u test.onFailure := by
  obtain ⟨hcls, hback⟩ := hconv
  cases hp : test.onFailure with
  | warn => exact .next h (runSmokeTests_warned hf hcls hp)
  | halt =>
    have hstop : Throws (runSmokeTests env (test :: rest)) _ _ _ :=
      runSmokeTests_throws hf fun _ => by simp [hp]
    exact stopped_halts h hstop hquiet (.inr ⟨hcls, by simp [hback, hp]⟩)
  | rollback =>
    have hstop : Throws (runSmokeTests env (test :: rest)) _ _ _ :=
      runSmokeTests_throws hf fun _ => by simp [hp]
    exact fun hknown => stopped_goesBack h hstop hquiet hcls (by simp [hback, hp, hknown])

/-- A stray exception keeps the policy exactly when the policy tolerates it. -/
theorem kept_of_stray_iff {rest : List SmokeTest} (h : ProbesLeft env s (test :: rest) t)
    (hf : Throws (runOne env test) t f u) (hcls : f.cls ≠ .smokeTestError)
    (hquiet : ((finish env dbPk newSha).run s).2.alarm.expiry = none) :
    PolicyKept env dbPk newSha s rest u test.onFailure ↔
      test.onFailure.Tolerates f s.self.previousSha.isSome := by
  -- A stray exception is no smoke test's, and ends the tests.
  have hstop : ∀ rest, Throws (runSmokeTests env (test :: rest)) t f u := fun rest =>
    runSmokeTests_throws hf fun hc => absurd hc hcls
  -- The cases are the policies.
  cases test.onFailure with
  | warn => exact iff_of_false (h.not_left (hstop []) u) id
  | halt =>
    refine ⟨fun hkept => ?_, fun htol => ?_⟩
    · by_contra hnot
      obtain ⟨hdep, hknown⟩ := not_or.mp hnot
      obtain ⟨r, t', hrun, hback, -⟩ := stopped_strays h (hstop rest) dbPk newSha
        (by simpa using hdep) hcls
      obtain ⟨r', t'', hrun', -, hsame⟩ := hkept
      obtain ⟨-, rfl⟩ := Prod.mk.inj (hrun.symm.trans hrun')
      have := hback ((Bool.not_eq_false _).mp hknown)
      omega
    · cases hdep : f.cls.isInstance .deploymentError with
      | true => exact stopped_halts h (hstop rest) hquiet (.inl hdep)
      | false =>
        obtain ⟨r, t', hrun, -, hfailed⟩ := stopped_strays h (hstop rest) dbPk newSha hdep hcls
        obtain ⟨hs, hst, hm⟩ := hfailed (htol.resolve_left (by simp [hdep]))
        exact ⟨r, t', hrun, ⟨hs, hst⟩, hm⟩
  | rollback =>
    refine ⟨fun hkept => ?_, fun htol hknown => ?_⟩
    · by_contra hnot
      obtain ⟨hdep, hknown⟩ := not_or.mp hnot
      obtain ⟨r, t', hrun, -, hsame⟩ :=
        stopped_halts h (hstop rest) hquiet (.inl (by simpa using hdep))
      obtain ⟨r', t'', hrun', hback⟩ := hkept ((Bool.not_eq_false _).mp hknown)
      obtain ⟨-, rfl⟩ := Prod.mk.inj (hrun.symm.trans hrun')
      omega
    · obtain ⟨r, t', hrun, hback, -⟩ :=
        stopped_strays h (hstop rest) dbPk newSha (htol.resolve_right (by simp [hknown])) hcls
      exact ⟨r, t', hrun, hback hknown⟩

/-- In the run of a healthy deploy in which the timer does not go off, every smoke test that fails
is answered as its policy says exactly when no exception strays from a probe whose policy does not
tolerate it. -/
theorem policy_kept_iff (env : Env) (dbPk : Option ℕ) (newSha : String) (s : Run)
    (hquiet : ((finish env dbPk newSha).run s).2.alarm.expiry = none) :
    (∀ test rest t f u, ProbesLeft env s (test :: rest) t → Throws (runOne env test) t f u →
        PolicyKept env dbPk newSha s rest u test.onFailure) ↔
      ∀ test rest t f, ProbesLeft env s (test :: rest) t → Strays env test t f →
        test.onFailure.Tolerates f s.self.previousSha.isSome := by
  constructor
  · intro h test rest t f hleft hstray
    obtain ⟨hcls, u, hu⟩ := hstray.throws
    exact (kept_of_stray_iff hleft hu hcls hquiet).mp (h test rest t f u hleft hu)
  · intro h test rest t f u hleft hu
    -- What leaves the probe is a failure under its policy, or a stray exception.
    by_cases hcls : f.cls = .smokeTestError
    · refine kept_of_converted hleft hu ((runOne_throws hu).resolve_right fun hstray => ?_) hquiet
      exact hstray.throws.1 hcls
    · refine (kept_of_stray_iff hleft hu hcls hquiet).mpr (h test rest t f hleft ?_)
      exact (runOne_throws hu).resolve_left fun hconv => hcls hconv.1

/-! ## A URL whose variable is not set -/

/-- A healthy deploy with one smoke test, whose failure is to be only a warning. -/
def warned : Run where
  self :=
    { settings := { smokeTestsConfig := [{ name := "login", onFailure := .warn }] }
      previousSha := some "4e5f6a7b" }

/-- What `LazyEnv.resolve` raises. -/
def notSet : Fault where
  cls := .configurationError
  message := "!envvar references environment variable 'SMOKE_URL' which is not set (at " ++
    "fraises.api.environments.production.smoke_tests[0].url)"

/-- The variable behind the test's URL is not set. -/
def unsetUrl : Env where
  fault n := if n = 1 then some notSet else none
  text _ := "4e5f6a7b"

set_option maxRecDepth 10000 in
/-- With the variable unset, the policy is kept when no test asks for a rollback. -/
theorem policy_kept_iff_unset :
    (∀ test rest t f u, ProbesLeft unsetUrl warned (test :: rest) t →
        Throws (runOne unsetUrl test) t f u →
        PolicyKept unsetUrl none "9c8d7e6f" warned rest u test.onFailure) ↔
      ∀ test rest t f, ProbesLeft unsetUrl warned (test :: rest) t → Strays unsetUrl test t f →
        test.onFailure.Tolerates f true :=
  policy_kept_iff unsetUrl none "9c8d7e6f" warned (by decide)

set_option maxRecDepth 10000 in
/-- The deploy is rolled back for a test that was only to warn. -/
theorem warning_rolls_back :
    ((finish unsetUrl none "9c8d7e6f").run warned).1.toOption.map (·.status) = some .rolledBack ∧
      ¬∀ (env : Env) (s : Run), ((finish env none "9c8d7e6f").run s).2.alarm.expiry = none →
        ∀ test rest t f u, ProbesLeft env s (test :: rest) t → Throws (runOne env test) t f u →
          PolicyKept env none "9c8d7e6f" s rest u test.onFailure := by
  refine ⟨by decide, fun h => ?_⟩
  let test : SmokeTest := { name := "login", onFailure := .warn }
  have hleft : ProbesLeft unsetUrl warned [test] { warned with clock := 1, armed := true } :=
    .start (t := { warned with clock := 1, armed := true }) rfl rfl
  have hthrows : Throws (runOne unsetUrl test) { warned with clock := 1, armed := true }
    notSet.failure { warned with clock := 2, armed := true } := rfl
  exact hleft.not_left (runSmokeTests_throws hthrows (by decide)) _
    (h unsetUrl warned (by decide) _ _ _ _ _ hleft hthrows)

end Fraisier.Deploy
