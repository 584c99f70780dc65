import Fraisier.Dbops.OneDatabase
import Fraisier.Dbops.TemplateRule
import Fraisier.Lib.Interaction
import Fraisier.Scaffold.Naming

/-!
# The template of a restore

Step 8 of `RestoreMigrateStrategy.execute` copies the database that was restored, when
`decide_template` says so, and `rollback` puts the copy back. The server is a map from the names of
databases to their contents, which executes a command or refuses it (`Serves`); it cuts names as
`Client.cut` says. `rolls_back_iff` says for which configurations the constructor accepts the template
brings the restore back: not for a template that may be taken and is the database itself, which step 8
drops before there is a copy of it (`createTemplate_loses`).
-/

namespace Fraisier.Dbops.RollbackTemplate

open Fraisier.Lib Str Client Operations Interaction
open Fraisier.Backup (BackupError validatePgIdentifier)
open Fraisier.Scaffold (removeSuffix)
open TemplateRule (TemplateMode TemplateDecision decideTemplate)

/-! ## The configuration -/

/-- `RestoreConfig`, as far as the template goes. -/
structure RestoreConfig where
  dbName : Str
  targetOwner : Option Str := none
  createTemplate : Bool := false
  template : Option TemplateMode := none
  templateName : Option Str := none
  templateStrategy : Str := "file_copy".toList

/-- `template_mode`. -/
def RestoreConfig.templateMode (config : RestoreConfig) : TemplateMode :=
  config.template.getD (if config.createTemplate then .auto else .never)

/-- `_resolved_template_name`. -/
def RestoreConfig.resolvedTemplateName (config : RestoreConfig) : Str :=
  (truthy? config.templateName).getD ("template_".toList ++ config.dbName)

/-- The names that the constructor checks. -/
def RestoreConfig.check (config : RestoreConfig) : Except BackupError Unit := do
  validatePgIdentifier config.dbName "database name"
  validateOptional config.targetOwner "target owner"
  validateOptional config.templateName "template name"

/-- A strategy, of a configuration that the constructor accepts. -/
structure Strategy where
  config : RestoreConfig
  accepted : config.check = .ok ()

/-! ## Commands -/

/-- What a command leaves. -/
structure Completed where
  code : ℤ
  stdout : Str := []
  stderr : Str := []

/-- What a step raises. -/
inductive Raised
  | valueError (e : BackupError)
  | databaseError (message : Str)
  /-- A report that `decide_template` cannot show. -/
  | reportError (e : TemplateRule.Raised)

/-- Steps that run commands. -/
abbrev Commands := Interaction (fun _ : Invocation => Completed) Raised

/-- Commands one after another; the outcome is that of the last one. -/
def runEach : List Invocation → Commands Completed
  | [] => pure { code := 0 }
  | [i] => ask i
  | i :: j :: is => do
    let _ ← ask i
    runEach (j :: is)

/-- A call of a helper. -/
def helper (dbname name : Str) (call : Call) : Commands Completed :=
  match call.invocations dbname name with
  | .ok invocations => runEach invocations
  | .error e => .raise (.valueError e)

/-! ## The steps -/

/-- `StrategyResult`. -/
structure StrategyResult where
  success : Bool
  migrationsApplied : ℕ := 0
  errors : List Str := []

/-- `TemplateResult`. -/
structure TemplateResult where
  success : Bool
  templateName : Str := []
  error : Str := []

section Steps

/- The database of `admin_url`. -/
variable (dbname : Str)

/-- `reset_from_template`. -/
def resetFromTemplate (dbName start strategy : Str) : Commands TemplateResult := do
  let templateName := start ++ dbName
  let dropped ← helper dbname dbName (.dropDb true false false)
  if dropped.code ≠ 0 then
    pure { success := false, templateName, error := dropped.stderr.strip }
  else do
    let _ ← helper dbname templateName .terminateBackends
    let created ← helper dbname dbName (.createDb (some templateName) none (some strategy))
    if created.code ≠ 0 then
      pure { success := false, templateName, error := created.stderr.strip }
    else pure { success := true, templateName }

variable (strategy : Strategy)

/-- What step 8 does when it takes a template. -/
def createTemplate : Commands Unit := do
  let config := strategy.config
  let templateName := config.resolvedTemplateName
  let _ ← helper dbname templateName .terminateBackends
  let dropped ← helper dbname templateName (.dropDb false false true)
  if dropped.code ≠ 0 then
    .raise (.databaseError ("Failed to drop template ".toList ++ templateName ++ ": ".toList ++
      dropped.stderr.strip))
  else do
    let _ ← helper dbname config.dbName .terminateBackends
    let created ← helper dbname templateName
      (.createDb (some config.dbName) none (some config.templateStrategy))
    if created.code ≠ 0 then
      .raise (.databaseError ("Failed to create template ".toList ++ templateName ++ ": ".toList ++
        created.stderr.strip))
    else pure ()

/- How deep `repr` goes, and the texts that it and `str` give of a report's values. -/
variable (limit : ℕ) (repr str : Json → Text)

/-- `_decide_template`, of the report on the pending migrations, which is read under `auto` only. -/
def decision (payload : Json) : Commands TemplateDecision :=
  match decideTemplate limit repr str strategy.config.templateMode payload with
  | .ok template => pure template
  | .error e => .raise (.reportError e)

/-- Step 8 of `execute`, up to the new `_template_taken`. -/
def step8 (payload : Json) : Commands Bool := do
  let template ← decision strategy limit repr str payload
  if template.take then createTemplate dbname strategy
  pure template.take

/-- The way of `rollback` onto a template that is not named after the database. -/
def recreate : Commands StrategyResult := do
  let config := strategy.config
  let templateName := config.resolvedTemplateName
  let _ ← helper dbname config.dbName .terminateBackends
  let dropped ← helper dbname config.dbName (.dropDb false false false)
  if dropped.code ≠ 0 then
    pure {
      success := false
      errors := ["Failed to drop database for rollback: ".toList ++ dropped.stderr.strip] }
  else do
    let _ ← helper dbname templateName .terminateBackends
    let created ← helper dbname config.dbName
      (.createDb (some templateName) none (some config.templateStrategy))
    if created.code ≠ 0 then
      pure {
        success := false
        errors := ["Template rollback failed: ".toList ++ created.stderr.strip] }
    else pure { success := true }

/-- `rollback`, where `migrateDown` is what it does without a template. -/
def rollback (migrateDown : Commands StrategyResult) (templateTaken : Option Bool) :
    Commands StrategyResult := do
  let config := strategy.config
  if templateTaken.getD (config.templateMode = .always) then
    let templateName := config.resolvedTemplateName
    let start := removeSuffix templateName config.dbName
    if start ++ config.dbName ≠ templateName then recreate dbname strategy
    else do
      let result ← resetFromTemplate dbname config.dbName start config.templateStrategy
      if result.success then pure { success := true }
      else pure {
        success := false
        errors := ["Template rollback failed: ".toList ++ result.error] }
  else migrateDown

end Steps

/-! ## The server -/

/-- The contents of the databases, by their names. -/
abbrev Databases (α : Type) := Str → Option α

section Server

variable {α : Type} (server : Server)

/-- What a statement makes of the databases; `none` for an error. -/
def executed (d : Databases α) : Statement → Option (Databases α)
  | .countDatabases _ | .terminateBackends _ | .unsetTemplate _ => some d
  | .dropDatabase name _ => some (Function.update d name none)
  | .createDatabase name template _ _ =>
    match d name, d (template.getD "template1".toList) with
    | none, some content => some (Function.update d name (some content))
    | _, _ => none

/-- What a command makes of the databases. -/
def effect (d : Databases α) (i : Invocation) : Option (Databases α) :=
  (server.runs i).bind fun statements => statements.foldlM executed d

/-- The databases after the commands. -/
def after (s : Databases α) (h : History fun _ : Invocation => Completed) : Databases α :=
  h.foldl (fun d e => if e.2.code = 0 then (effect server d e.1).getD d else d) s

/-- A command that succeeds has been executed; a server that is willing refuses none that it could
execute. -/
def Serves (willing : Prop) (s : Databases α) : Rely fun _ : Invocation => Completed := fun h e =>
  (e.2.code = 0 → (effect server (after server s h) e.1).isSome = true) ∧
    (willing → (effect server (after server s h) e.1).isSome = true → e.2.code = 0)

/-- From the databases `d`, the steps end normally with `Q` or raise with `E`, which also read the
databases that are left. -/
def Leaves {β : Type} (willing : Prop) (m : Commands β) (d : Databases α)
    (Q : β → Databases α → Prop) (E : Raised → Databases α → Prop) : Prop :=
  ∀ s h, after server s h = d → m.Ends (Serves server willing s) h
    (fun a h' => Q a (after server s h')) fun e h' => E e (after server s h')

end Server

/-! ## What is promised -/

/-- The command drops no database but those of the names. -/
def DropsOnly (server : Server) (names : List Str) (i : Invocation) : Prop :=
  ∀ statements, server.runs i = some statements → ∀ name force,
    Statement.dropDatabase name force ∈ statements → name ∈ names

section Promise

variable (limit : ℕ) (repr str : Json → Text)

/-- Step 8 decides to take a template. -/
def Takes (config : RestoreConfig) (payload : Json) : Prop :=
  ∃ template, decideTemplate limit repr str config.templateMode payload = .ok template ∧
    template.take = true

/-- The template of a restore rolls back to that restore. -/
structure RollsBack (server : Server) (dbname : Str) (strategy : Strategy) : Prop where
  /-- Step 8 takes the template when it decides to, unless the server refuses. -/
  taken : ∀ (α : Type) (s : Databases α) (content : α) (payload : Json),
    s (cut strategy.config.dbName) = some content → Takes limit repr str strategy.config payload →
    Leaves server True (step8 dbname strategy limit repr str payload) s (fun _ _ => True)
      fun _ _ => False
  /-- The database and its template then have the content that was restored. A rollback that succeeds
  later brings it back, whatever has become of the database. -/
  kept : ∀ (α : Type) (s : Databases α) (content : α) (payload : Json),
    s (cut strategy.config.dbName) = some content → Takes limit repr str strategy.config payload →
    Leaves server False (step8 dbname strategy limit repr str payload) s
      (fun templateTaken d => d (cut strategy.config.dbName) = some content ∧
        d (cut strategy.config.resolvedTemplateName) = some content ∧
        ∀ migrateDown later, later (cut strategy.config.resolvedTemplateName) =
            d (cut strategy.config.resolvedTemplateName) →
          Leaves server False (rollback dbname strategy migrateDown (some templateTaken)) later
            (fun r d' => r.success = true → d' (cut strategy.config.dbName) = some content)
            fun _ _ => True)
      fun _ _ => True
  /-- Neither drops another database. -/
  drops : ∀ (payload : Json) migrateDown,
    let only := DropsOnly server
      [cut strategy.config.dbName, cut strategy.config.resolvedTemplateName]
    (step8 dbname strategy limit repr str payload).Makes only (fun _ => True) ∧
      (rollback dbname strategy migrateDown (some true)).Makes only fun _ => True

end Promise

/-- A strategy that `create_db` knows. -/
def Known (strategy : Str) : Prop := ∃ k ∈ templateStrategies, k.toList = strategy

/-- The name of the template is an identifier, and to the server not that of the database; and the
copy is made in a way that `create_db` knows. -/
structure KeptApart (config : RestoreConfig) : Prop where
  identifier : Identifier config.resolvedTemplateName
  strategy : Known config.templateStrategy
  distinct : cut config.resolvedTemplateName ≠ cut config.dbName

variable {α β γ : Type} {server : Server} {willing : Prop} {dbname name : Str} {d : Databases α}
  {E : Raised → Databases α → Prop}

/-! ## Steps from given databases -/

/-- One more command changes the databases if it completes. -/
theorem after_append (s : Databases α) (h : History fun _ : Invocation => Completed) (i : Invocation)
    (c : Completed) : after server s (h ++ [⟨i, c⟩]) =
      if c.code = 0 then (effect server (after server s h) i).getD (after server s h)
      else after server s h := by
  unfold after
  rw [List.foldl_append]
  rfl

/-- A value leaves the databases as they are. -/
theorem leaves_pure {a : β} {Q : β → Databases α → Prop} (h : Q a d) :
    Leaves server willing (pure a) d Q E := by
  rintro s hist rfl
  exact h

/-- An exception leaves the databases as they are. -/
theorem leaves_raise {e : Raised} {Q : β → Databases α → Prop} (h : E e d) :
    Leaves server willing (.raise e) d Q E := by
  rintro s hist rfl
  exact h

/-- The rule of sequencing. -/
theorem Leaves.bind {p : Commands β} {f : β → Commands γ} {Q : γ → Databases α → Prop}
    (h : Leaves server willing p d (fun a d' => Leaves server willing (f a) d' Q E) E) :
    Leaves server willing (p >>= f) d Q E := by
  intro s hist hd
  rw [ends_bind]
  exact (h s hist hd).mono (fun a hist' hf => hf s hist' rfl) fun _ _ => id

/-- The rule of consequence. -/
theorem Leaves.mono {p : Commands β} {Q Q' : β → Databases α → Prop}
    {E' : Raised → Databases α → Prop} (h : Leaves server willing p d Q E)
    (hQ : ∀ a d', Q a d' → Q' a d') (hE : ∀ e d', E e d' → E' e d') :
    Leaves server willing p d Q' E' :=
  fun s hist hd => (h s hist hd).mono (fun a _ => hQ a _) fun e _ => hE e _

/-- Two outcomes hold together. -/
theorem Leaves.and {p : Commands β} {Q Q' : β → Databases α → Prop}
    {E' : Raised → Databases α → Prop} (h : Leaves server willing p d Q E)
    (h' : Leaves server willing p d Q' E') :
    Leaves server willing p d (fun a d' => Q a d' ∧ Q' a d') fun e d' => E e d' ∧ E' e d' :=
  fun s hist hd => (h s hist hd).and (h' s hist hd)

/-- The rule of commands. -/
theorem leaves_ask {i : Invocation} {Q : Completed → Databases α → Prop}
    (hno : ∀ c, c.code ≠ 0 → (willing → effect server d i = none) → Q c d)
    (hyes : ∀ c d', c.code = 0 → effect server d i = some d' → Q c d') :
    Leaves server willing (ask i) d Q E := by
  rintro s hist rfl
  rw [ends_ask]
  intro c hc
  rw [after_append]
  by_cases hcode : c.code = 0
  · obtain ⟨d', hd'⟩ := Option.isSome_iff_exists.mp (hc.1 hcode)
    rw [if_pos hcode, hd']
    exact hyes c d' hcode hd'
  · rw [if_neg hcode]
    refine hno c hcode fun hwilling => Option.not_isSome_iff_eq_none.mp fun hsome => ?_
    exact hcode (hc.2 hwilling hsome)

/-- The steps end somehow. -/
theorem not_leaves_false {m : Commands β} :
    ¬Leaves server willing m d (fun _ _ => False) fun _ _ => False := by
  intro h
  have henv : ∀ hist i, Serves server willing d hist
      ⟨i, ⟨if (effect server (after server d hist) i).isSome then 0 else 1, [], []⟩⟩ := by
    intro hist i
    unfold Serves
    dsimp only
    split
    · next hsome => exact ⟨fun _ => hsome, fun _ _ => rfl⟩
    · next hnone => exact ⟨fun hone => absurd hone one_ne_zero, fun _ hsome => absurd hsome hnone⟩
  have hend := (h d [] rfl).of_runs (runs_run henv m [])
  revert hend
  generalize (m.run _ []).2 = r
  cases r <;> exact id

/-! ## The helpers -/

/-- The effect of a command is that of its one statement. -/
theorem effect_of_runs {i : Invocation} {st : Statement} (h : server.runs i = some [st]) :
    effect server d i = executed d st := by
  unfold effect
  rw [h, Option.bind_some, List.foldlM_cons]
  exact bind_pure _

/-- A helper runs the commands of its call. -/
theorem helper_of_ok {call : Call} {is : List Invocation}
    (h : call.invocations dbname name = .ok is) : helper dbname name call = runEach is := by
  unfold helper
  rw [h]

/-- A helper raises when a name is not accepted. -/
theorem helper_of_error {call : Call} {e : BackupError}
    (h : call.invocations dbname name = .error e) :
    helper dbname name call = .raise (.valueError e) := by
  unfold helper
  rw [h]

/-- Commands that change no contents come first. -/
theorem leaves_runEach {is : List Invocation} {j : Invocation} {Q : Completed → Databases α → Prop}
    (his : ∀ i ∈ is, effect server d i = some d) (h : Leaves server willing (ask j) d Q E) :
    Leaves server willing (runEach (is ++ [j])) d Q E := by
  induction is with
  | nil => exact h
  | cons i is ih =>
    have hrest := ih fun i hi => his i (List.mem_cons_of_mem _ hi)
    have hstep : runEach (i :: is ++ [j]) = ask i >>= fun _ => runEach (is ++ [j]) := by
      cases is <;> rfl
    rw [hstep]
    refine .bind (leaves_ask (fun _ _ _ => hrest) fun _ d' _ hd' => ?_)
    rw [his i List.mem_cons_self] at hd'
    obtain rfl := Option.some.inj hd'
    exact hrest

/-- A call that is not accepted gives an error. -/
theorem exists_error {call : Call} (h : ¬call.Accepted name) :
    ∃ e, call.invocations dbname name = .error e := by
  cases hok : call.invocations dbname name with
  | ok is => exact absurd (accepted_of_ok hok) h
  | error e => exact ⟨e, rfl⟩

/-- A call that a helper does not accept. -/
theorem leaves_refused {call : Call} {Q : Completed → Databases α → Prop} (h : ¬call.Accepted name)
    (hE : ∀ e, E e d) : Leaves server willing (helper dbname name call) d Q E := by
  obtain ⟨e, he⟩ : ∃ e, call.invocations dbname name = .error e := exists_error h
  rw [helper_of_error he]
  exact leaves_raise (hE _)

variable (server dbname) in
/-- Disconnecting is one command of one statement. -/
theorem invocations_terminate (h : Identifier name) : ∃ i,
    Call.terminateBackends.invocations dbname name = .ok [i] ∧
      server.runs i = some [.terminateBackends (cut name)] :=
  ⟨_, congrArg (· >>= _) (validate_of_identifier h "database name"), runs_terminate h⟩

/-- Disconnecting leaves the databases as they are. -/
theorem leaves_terminate {Q : Completed → Databases α → Prop} (h : Identifier name)
    (hQ : ∀ c, Q c d) : Leaves server willing (helper dbname name .terminateBackends) d Q E := by
  obtain ⟨i, hok, hruns⟩ := invocations_terminate server dbname h
  rw [helper_of_ok hok]
  refine leaves_ask (fun c _ _ => hQ c) fun c d' _ hd' => ?_
  rw [effect_of_runs hruns] at hd'
  obtain rfl := Option.some.inj hd'
  exact hQ c

variable (server dbname) in
/-- The commands of a drop: some that change no contents, and the drop. -/
theorem invocations_drop (h : Identifier name) (disconnect clear : Bool) : ∃ is j,
    (Call.dropDb disconnect false clear).invocations dbname name = .ok (is ++ [j]) ∧
      (∀ i ∈ is, server.runs i = some [.unsetTemplate (cut name)] ∨
        server.runs i = some [.terminateBackends (cut name)]) ∧
      server.runs j = some [.dropDatabase (cut name) false] := by
  refine ⟨_, _, dropDb_eq h disconnect false clear, fun i hi => ?_, runs_dropdb h⟩
  rcases List.mem_append.mp hi with hi | hi
  · obtain ⟨-, hi⟩ := List.mem_ite_nil_right.mp hi
    obtain rfl := List.mem_singleton.mp hi
    exact .inl (runs_unset h)
  · obtain ⟨-, hi⟩ := List.mem_ite_nil_right.mp hi
    obtain rfl := List.mem_singleton.mp hi
    exact .inr (runs_terminate h)

/-- A drop removes the database when it completes, and nothing when it fails. -/
theorem leaves_drop {disconnect clear : Bool} {Q : Completed → Databases α → Prop}
    (h : Identifier name) (hno : ∀ c, c.code ≠ 0 → ¬willing → Q c d)
    (hyes : ∀ c, c.code = 0 → Q c (Function.update d (cut name) none)) :
    Leaves server willing (helper dbname name (.dropDb disconnect false clear)) d Q E := by
  obtain ⟨is, j, hok, his, hj⟩ := invocations_drop server dbname h disconnect clear
  rw [helper_of_ok hok]
  refine leaves_runEach (fun i hi => ?_) (leaves_ask (fun c hcode hnone => ?_) fun c d' hcode hd' => ?_)
  -- What comes before the drop changes no database.
  · rcases his i hi with hruns | hruns
    · exact effect_of_runs hruns
    · exact effect_of_runs hruns
  · refine hno c hcode fun hwilling => ?_
    have heffect := hnone hwilling
    rw [effect_of_runs hj] at heffect
    cases heffect
  · rw [effect_of_runs hj] at hd'
    obtain rfl := Option.some.inj hd'
    exact hyes c hcode

variable (server dbname) in
/-- Creating a database is one command of one statement. -/
theorem invocations_create {template owner strategy : Option Str}
    (h : (Call.createDb template owner strategy).Accepted name) : ∃ i fileCopy,
    (Call.createDb template owner strategy).invocations dbname name = .ok [i] ∧
      server.runs i = some [.createDatabase (cut name) ((truthy? template).map cut)
        ((truthy? owner).map cut) fileCopy] := by
  have hok : (Call.createDb template owner strategy).invocations dbname name = .ok _ := createDb_eq h
  by_cases hcopy : strategy = some "file_copy".toList
  · rw [if_pos hcopy] at hok
    exact ⟨_, _, hok, runs_file_copy h.1⟩
  · rw [if_neg hcopy] at hok
    exact ⟨_, _, hok, runs_createdb h.1 h.2.1 h.2.2.1⟩

/-- A copy is made when the new name is free and the template there. -/
theorem executed_create_eq_some_iff {template : Str} {owner : Option Str} {fileCopy : Bool}
    {d' : Databases α} : executed d (.createDatabase name (some template) owner fileCopy) = some d' ↔
      d name = none ∧ ∃ content, d template = some content ∧
        d' = Function.update d name (some content) := by
  unfold executed
  dsimp only [Option.getD_some]
  -- The name must be free, and the template be there.
  cases d name with
  | some _ => exact iff_of_false nofun fun h => nomatch h.1
  | none =>
    rw [and_iff_right rfl]
    cases d template with
    | none =>
      refine iff_of_false nofun ?_
      rintro ⟨_, h, -⟩
      cases h
    | some content => simp only [Option.some.injEq, exists_eq_left', eq_comm]

/-- The call of `create_db` that copies a template. -/
abbrev copyOf (template strategy : Str) : Call := .createDb (some template) none (some strategy)

/-- An identifier is not empty. -/
theorem truthy_identifier (h : Identifier name) : truthy? (some name) = some name := by
  obtain ⟨c, core, stop, rfl, -⟩ := identifier_cases h
  rfl

/-- A copy from a template is accepted with identifiers and a known way. -/
theorem accepted_copy {template strategy : Str} (h : Identifier name) (ht : Identifier template)
    (hs : Known strategy) : (copyOf template strategy).Accepted name := by
  refine ⟨h, fun v hv => ?_, nofun, fun v hv => ?_⟩
  · rw [truthy_identifier ht] at hv
    exact Option.some.inj hv ▸ ht
  · exact Option.some.inj hv ▸ hs

/-- A copy that is accepted has a known way. -/
theorem known_of_accepted {template strategy : Str} (h : (copyOf template strategy).Accepted name) :
    Known strategy := h.2.2.2 strategy rfl

/-- A copy has the content of the template when it completes, and is not made when it fails. -/
theorem leaves_copy {template strategy : Str} {Q : Completed → Databases α → Prop}
    (h : Identifier name) (ht : Identifier template) (hs : Known strategy)
    (hno : ∀ c, c.code ≠ 0 → (willing → d (cut name) = none → d (cut template) = none) → Q c d)
    (hyes : ∀ c content, c.code = 0 → d (cut template) = some content →
      Q c (Function.update d (cut name) (some content))) :
    Leaves server willing (helper dbname name (copyOf template strategy)) d Q E := by
  obtain ⟨i, fileCopy, hok, hruns⟩ := invocations_create server dbname (accepted_copy h ht hs)
  rw [truthy_identifier ht, Option.map_some] at hruns
  rw [helper_of_ok hok]
  -- A copy that fails changes nothing, unless its name was taken.
  refine leaves_ask (fun c hcode hnone => ?_) fun c d' hcode hd' => ?_
  · refine hno c hcode fun hwilling hfree => ?_
    have heffect := hnone hwilling
    rw [effect_of_runs hruns] at heffect
    by_contra hsome
    obtain ⟨content, hcontent⟩ := Option.ne_none_iff_exists'.mp hsome
    rw [executed_create_eq_some_iff.mpr ⟨hfree, content, hcontent, rfl⟩] at heffect
    cases heffect
  · rw [effect_of_runs hruns] at hd'
    obtain ⟨-, content, hcontent, rfl⟩ := executed_create_eq_some_iff.mp hd'
    exact hyes c content hcode hcontent

/-! ## Step 8 -/

variable {strategy : Strategy} {s : Databases α} {content : α} {payload : Json} {limit : ℕ}
  {repr str : Json → Text}

/-- The database of a strategy has an identifier. -/
theorem Strategy.identifier (strategy : Strategy) : Identifier strategy.config.dbName := by
  have h := strategy.accepted
  unfold RestoreConfig.check at h
  obtain ⟨_, hname, -⟩ := Fallible.bind_ok_iff.mp h
  exact identifier_of_validate hname

/-- Step 8 leaves two copies of what was restored; a server that is willing makes them of a template
that is kept apart. -/
theorem createTemplate_leaves (hcontent : s (cut strategy.config.dbName) = some content) :
    Leaves server willing (createTemplate dbname strategy) s
      (fun _ d => KeptApart strategy.config ∧ d (cut strategy.config.dbName) = some content ∧
        d (cut strategy.config.resolvedTemplateName) = some content)
      fun _ _ => ¬(willing ∧ KeptApart strategy.config) := by
  unfold createTemplate
  dsimp only
  by_cases hname : Identifier strategy.config.resolvedTemplateName
  · refine .bind (leaves_terminate hname fun _ => ?_)
    refine .bind (leaves_drop hname (fun c hcode hrefused => ?_) fun c hcode => ?_)
    · rw [if_pos hcode]
      exact leaves_raise fun h => hrefused h.1
    rw [if_neg (not_not.mpr hcode)]
    refine .bind (leaves_terminate strategy.identifier fun _ => ?_)
    by_cases hs : Known strategy.config.templateStrategy
    · refine .bind (leaves_copy hname strategy.identifier hs (fun c hcode hnone => ?_)
        fun c found hcode hfound => ?_)
      · rw [if_pos hcode]
        refine leaves_raise ?_
        rintro ⟨hwilling, hapart⟩
        have hsource := hnone hwilling (Function.update_self _ _ _)
        rw [Function.update_of_ne (Ne.symm hapart.distinct), hcontent] at hsource
        cases hsource
      · rw [if_neg (not_not.mpr hcode)]
        -- what was copied had not been dropped
        have hne : cut strategy.config.dbName ≠ cut strategy.config.resolvedTemplateName := by
          intro heq
          rw [heq, Function.update_self] at hfound
          cases hfound
        rw [Function.update_of_ne hne, hcontent] at hfound
        obtain rfl := Option.some.inj hfound
        refine leaves_pure ⟨⟨hname, hs, Ne.symm hne⟩, ?_, Function.update_self _ _ _⟩
        rw [Function.update_of_ne hne, Function.update_of_ne hne]
        exact hcontent
    · refine .bind (leaves_refused (fun haccepted => hs (known_of_accepted haccepted)) fun _ h => ?_)
      exact hs h.2.strategy
  · exact .bind (leaves_refused hname fun _ h => hname h.2.identifier)

/-- Step 8 keeps the database and takes the template of it. -/
theorem step8_leaves (htakes : Takes limit repr str strategy.config payload)
    (hcontent : s (cut strategy.config.dbName) = some content) :
    Leaves server willing (step8 dbname strategy limit repr str payload) s
      (fun taken d => taken = true ∧ KeptApart strategy.config ∧
        d (cut strategy.config.dbName) = some content ∧
        d (cut strategy.config.resolvedTemplateName) = some content)
      fun _ _ => ¬(willing ∧ KeptApart strategy.config) := by
  obtain ⟨template, htemplate, htake⟩ := htakes
  unfold step8 decision
  rw [htemplate]
  refine .bind (leaves_pure ?_)
  rw [if_pos htake]
  exact .bind ((createTemplate_leaves hcontent).mono (fun _ _ h => leaves_pure ⟨htake, h⟩)
    fun _ _ => id)

/-- A template that is the database is dropped, and then there is nothing to copy. -/
theorem createTemplate_loses (hname : Identifier strategy.config.resolvedTemplateName)
    (heq : cut strategy.config.resolvedTemplateName = cut strategy.config.dbName) :
    Leaves server True (createTemplate dbname strategy) s (fun _ _ => False)
      fun _ d => d (cut strategy.config.dbName) = none := by
  have hlost : Function.update s (cut strategy.config.resolvedTemplateName) none
      (cut strategy.config.dbName) = none := by
    rw [heq, Function.update_self]
  unfold createTemplate
  dsimp only
  -- The old template is dropped first, and it is the database.
  refine .bind (leaves_terminate hname fun _ => ?_)
  refine .bind (leaves_drop hname (fun c _ hrefused => absurd trivial hrefused) fun c hcode => ?_)
  rw [if_neg (not_not.mpr hcode)]
  refine .bind (leaves_terminate strategy.identifier fun _ => ?_)
  by_cases hs : Known strategy.config.templateStrategy
  · refine .bind (leaves_copy hname strategy.identifier hs (fun c hcode _ => ?_)
      fun c found _ hfound => ?_)
    · rw [if_pos hcode]
      exact leaves_raise hlost
    · rw [hlost] at hfound
      cases hfound
  · exact .bind (leaves_refused (fun haccepted => hs (known_of_accepted haccepted)) fun _ => hlost)

/-! ## The rollback -/

/-- Where the database was, there is a copy of the template, if `create_db` succeeds. -/
theorem leaves_copy_back {name template way : Str} {Q : Completed → Databases α → Prop}
    (hname : Identifier name) (ht : Identifier template)
    (hcontent : s (cut template) = some content) (hno : ∀ c d, c.code ≠ 0 → Q c d)
    (hyes : ∀ c d, c.code = 0 → d (cut name) = some content → Q c d) :
    Leaves server willing (helper dbname name (copyOf template way))
      (Function.update s (cut name) none) Q fun _ _ => True := by
  by_cases hs : Known way
  · refine leaves_copy hname ht hs (fun c hcode _ => hno c _ hcode) fun c found hcode hfound => ?_
    -- The drop has left the template, which has another name.
    have hne : cut template ≠ cut name := by
      intro heq
      rw [heq, Function.update_self] at hfound
      cases hfound
    rw [Function.update_of_ne hne, hcontent] at hfound
    obtain rfl := Option.some.inj hfound
    exact hyes c _ hcode (Function.update_self _ _ _)
  · exact leaves_refused (fun haccepted => hs (known_of_accepted haccepted)) fun _ => trivial

/-- A rollback that succeeds leaves the content of the template. -/
theorem recreate_leaves (ht : Identifier strategy.config.resolvedTemplateName)
    (hcontent : s (cut strategy.config.resolvedTemplateName) = some content) :
    Leaves server willing (recreate dbname strategy) s
      (fun r d => r.success = true → d (cut strategy.config.dbName) = some content)
      fun _ _ => True := by
  unfold recreate
  dsimp only
  -- The database is dropped, and then copied from the template; a step that fails is reported.
  refine .bind (leaves_terminate strategy.identifier fun _ => ?_)
  refine .bind (leaves_drop strategy.identifier (fun c hcode _ => ?_) fun c hcode => ?_)
  · rw [if_pos hcode]
    exact leaves_pure nofun
  rw [if_neg (not_not.mpr hcode)]
  refine .bind (leaves_terminate ht fun _ => ?_)
  refine .bind (leaves_copy_back strategy.identifier ht hcontent (fun c d hcode => ?_)
    fun c d hcode hback => ?_)
  · rw [if_pos hcode]
    exact leaves_pure nofun
  · rw [if_neg (not_not.mpr hcode)]
    exact leaves_pure fun _ => hback

/-- A reset that succeeds leaves the content of the template. -/
theorem resetFromTemplate_leaves {start way : Str} (hname : Identifier name)
    (ht : Identifier (start ++ name)) (hcontent : s (cut (start ++ name)) = some content) :
    Leaves server willing (resetFromTemplate dbname name start way) s
      (fun r d => r.success = true → d (cut name) = some content) fun _ _ => True := by
  unfold resetFromTemplate
  dsimp only
  -- The database is dropped, and then copied from the template.
  refine .bind (leaves_drop hname (fun c hcode _ => ?_) fun c hcode => ?_)
  · rw [if_pos hcode]
    exact leaves_pure nofun
  rw [if_neg (not_not.mpr hcode)]
  refine .bind (leaves_terminate ht fun _ => ?_)
  refine .bind (leaves_copy_back hname ht hcontent (fun c d hcode => ?_) fun c d hcode hback => ?_)
  · rw [if_pos hcode]
    exact leaves_pure nofun
  · rw [if_neg (not_not.mpr hcode)]
    exact leaves_pure fun _ => hback

/-- A rollback onto the template that reports success brings its content back, on either way. -/
theorem rollback_leaves {migrateDown : Commands StrategyResult}
    (ht : Identifier strategy.config.resolvedTemplateName)
    (hcontent : s (cut strategy.config.resolvedTemplateName) = some content) :
    Leaves server willing (rollback dbname strategy migrateDown (some true)) s
      (fun r d => r.success = true → d (cut strategy.config.dbName) = some content)
      fun _ _ => True := by
  unfold rollback
  dsimp only
  rw [Option.getD_some, if_pos rfl]
  -- The template is the old one, or it is the one that was taken first.
  split
  · exact recreate_leaves ht hcontent
  · next hstart =>
    rw [not_not] at hstart
    rw [← hstart] at ht hcontent
    refine .bind ((resetFromTemplate_leaves strategy.identifier ht hcontent).mono (fun r d h => ?_)
      fun _ _ => id)
    split
    · next hsuccess => exact leaves_pure fun _ => h hsuccess
    · exact leaves_pure nofun

/-! ## What is dropped -/

variable {names : List Str}

/-- A command of one statement drops what that statement drops. -/
theorem dropsOnly_of_runs {i : Invocation} {st : Statement} (h : server.runs i = some [st])
    (hst : ∀ name force, st = .dropDatabase name force → name ∈ names) : DropsOnly server names i := by
  intro statements hstatements name force hmem
  rw [h] at hstatements
  obtain rfl := Option.some.inj hstatements
  exact hst name force (List.mem_singleton.mp hmem).symm

/-- Commands in turn call each of them. -/
theorem makes_runEach {P : Invocation → Prop} {is : List Invocation} (h : ∀ i ∈ is, P i) :
    (runEach is).Makes P fun _ => True := by
  fun_induction runEach is with
  | case1 => exact makes_pure trivial
  | case2 i => exact makes_ask (h i List.mem_cons_self)
  | case3 i j is ih =>
    exact (makes_ask (h i List.mem_cons_self)).bind fun _ _ =>
      ih fun k hk => h k (List.mem_cons_of_mem i hk)

/-- A helper drops what the commands of its call drop. -/
theorem makes_helper {call : Call} (h : ∀ is, call.invocations dbname name = .ok is →
    ∀ i ∈ is, DropsOnly server names i) :
    (helper dbname name call).Makes (DropsOnly server names) fun _ => True := by
  cases hok : call.invocations dbname name with
  | error e =>
    rw [helper_of_error hok]
    exact makes_raise
  | ok is =>
    rw [helper_of_ok hok]
    exact makes_runEach (h is hok)

/-- Disconnecting drops nothing. -/
theorem makes_terminate :
    (helper dbname name .terminateBackends).Makes (DropsOnly server names) fun _ => True := by
  refine makes_helper fun is hok i hi => ?_
  obtain ⟨j, hj, hruns⟩ := invocations_terminate server dbname (accepted_of_ok hok)
  obtain rfl := Except.ok.inj (hok.symm.trans hj)
  obtain rfl := List.mem_singleton.mp hi
  exact dropsOnly_of_runs hruns nofun

/-- A drop drops the database of its name. -/
theorem makes_drop {disconnect clear : Bool} (hname : cut name ∈ names) :
    (helper dbname name (.dropDb disconnect false clear)).Makes (DropsOnly server names)
      fun _ => True := by
  refine makes_helper fun is hok i hi => ?_
  obtain ⟨js, j, hj, hjs, hruns⟩ :=
    invocations_drop server dbname (accepted_of_ok hok) disconnect clear
  obtain rfl := Except.ok.inj (hok.symm.trans hj)
  rcases List.mem_append.mp hi with hi | hi
  · rcases hjs i hi with hquiet | hquiet
    · exact dropsOnly_of_runs hquiet nofun
    · exact dropsOnly_of_runs hquiet nofun
  · obtain rfl := List.mem_singleton.mp hi
    refine dropsOnly_of_runs hruns fun dropped force heq => ?_
    cases heq
    exact hname

/-- Creating a database drops none. -/
theorem makes_create {template owner way : Option Str} :
    (helper dbname name (.createDb template owner way)).Makes (DropsOnly server names)
      fun _ => True := by
  refine makes_helper fun is hok i hi => ?_
  obtain ⟨j, fileCopy, hj, hruns⟩ := invocations_create server dbname (accepted_of_ok hok)
  obtain rfl := Except.ok.inj (hok.symm.trans hj)
  obtain rfl := List.mem_singleton.mp hi
  exact dropsOnly_of_runs hruns nofun

/-- Step 8 drops nothing but the old template. -/
theorem step8_makes (hname : cut strategy.config.resolvedTemplateName ∈ names) :
    (step8 dbname strategy limit repr str payload).Makes (DropsOnly server names) fun _ => True := by
  have hcreate : (createTemplate dbname strategy).Makes (DropsOnly server names) fun _ => True := by
    unfold createTemplate
    dsimp only
    refine makes_terminate.bind fun _ _ => (makes_drop hname).bind fun c _ => ?_
    split
    · exact makes_raise
    refine makes_terminate.bind fun _ _ => makes_create.bind fun c _ => ?_
    split
    · exact makes_raise
    · exact makes_pure trivial
  unfold step8 decision
  -- The template is taken or not, by what the rule decides.
  cases decideTemplate limit repr str strategy.config.templateMode payload with
  | error e => exact makes_raise
  | ok template =>
    have hpure : (pure template : Commands _).Makes (DropsOnly server names) fun _ => True :=
      makes_pure trivial
    refine hpure.bind fun template _ => ?_
    split
    · exact hcreate.bind fun _ _ => makes_pure trivial
    · exact makes_pure trivial

/-- A rollback drops nothing but the database. -/
theorem rollback_makes {migrateDown : Commands StrategyResult}
    (hname : cut strategy.config.dbName ∈ names) :
    (rollback dbname strategy migrateDown (some true)).Makes (DropsOnly server names)
      fun _ => True := by
  unfold rollback
  dsimp only
  rw [Option.getD_some, if_pos rfl]
  split
  -- The database is created anew, or made of the template.
  · unfold recreate
    dsimp only
    refine makes_terminate.bind fun _ _ => (makes_drop hname).bind fun c _ => ?_
    split
    · exact makes_pure trivial
    refine makes_terminate.bind fun _ _ => makes_create.bind fun c _ => ?_
    split <;> exact makes_pure trivial
  · have hreset : (resetFromTemplate dbname strategy.config.dbName
        (removeSuffix strategy.config.resolvedTemplateName strategy.config.dbName)
          strategy.config.templateStrategy).Makes (DropsOnly server names) fun _ => True := by
      unfold resetFromTemplate
      dsimp only
      refine (makes_drop hname).bind fun c _ => ?_
      split
      · exact makes_pure trivial
      refine makes_terminate.bind fun _ _ => makes_create.bind fun c _ => ?_
      split <;> exact makes_pure trivial
    refine hreset.bind fun r _ => ?_
    split <;> exact makes_pure trivial

/-! ## The way back -/

/-- The databases of a server with one. -/
def single (name : Str) : Databases Unit := Function.update (fun _ => none) name (some ())

/-- Unless no template is ever taken, one is on some report: on none, under `auto`. -/
theorem exists_takes (limit : ℕ) (repr str : Json → Text) {config : RestoreConfig}
    (h : config.templateMode ≠ .never) : ∃ payload, Takes limit repr str config payload := by
  refine ⟨.null, ?_⟩
  unfold Takes
  cases hmode : config.templateMode with
  | auto => exact ⟨_, rfl, rfl⟩
  | always => exact ⟨_, rfl, rfl⟩
  | never => exact absurd hmode h

/-- No template is taken in the mode `never`. -/
theorem not_takes_of_never {config : RestoreConfig} (h : config.templateMode = .never) :
    ¬Takes limit repr str config payload := by
  rintro ⟨template, htemplate, htake⟩
  rw [h] at htemplate
  obtain rfl := Except.ok.inj htemplate
  cases htake

/-- A strategy that may take a template, and rolls back onto it, keeps it apart from the database. -/
theorem RollsBack.keptApart (h : RollsBack limit repr str server dbname strategy)
    (hmode : strategy.config.templateMode ≠ .never) : KeptApart strategy.config := by
  by_contra hnot
  have hcontent : single (cut strategy.config.dbName) (cut strategy.config.dbName) = some () :=
    Function.update_self _ _ _
  obtain ⟨payload, htakes⟩ := exists_takes limit repr str hmode
  have htaken := h.taken Unit _ () payload hcontent htakes
  exact not_leaves_false ((htaken.and (step8_leaves htakes hcontent)).mono
    (fun _ _ hq => hnot hq.2.2.1) fun _ _ he => he.1)

/-- The template of a restore rolls back to it exactly when none is ever taken, or it is kept apart
from the database. -/
theorem rolls_back_iff (limit : ℕ) (repr str : Json → Text) (server : Server) (dbname : Str)
    (strategy : Strategy) : RollsBack limit repr str server dbname strategy ↔
      (strategy.config.templateMode ≠ .never → KeptApart strategy.config) := by
  refine ⟨RollsBack.keptApart, fun h => ⟨?_, ?_, ?_⟩⟩
  -- A template that is taken is one of a mode other than `never`.
  · intro α s content payload hcontent htakes
    have hapart := h fun hmode => not_takes_of_never hmode htakes
    exact (step8_leaves htakes hcontent).mono (fun _ _ _ => trivial) fun _ _ he => he ⟨trivial, hapart⟩
  · intro α s content payload hcontent htakes
    have hapart := h fun hmode => not_takes_of_never hmode htakes
    refine (step8_leaves htakes hcontent).mono (fun taken d hd => ?_) fun _ _ _ => trivial
    obtain ⟨rfl, -, hdatabase, htemplate⟩ := hd
    refine ⟨hdatabase, htemplate, fun migrateDown later hlater => ?_⟩
    exact rollback_leaves hapart.identifier (hlater.trans htemplate)
  · intro payload migrateDown
    exact ⟨step8_makes (List.mem_cons_of_mem _ List.mem_cons_self),
      rollback_makes List.mem_cons_self⟩

/-- A configuration that always takes a template, and gives it the name of the database. -/
def sameName : Strategy where
  config := {
    dbName := "app".toList
    template := some .always
    templateName := some "app".toList }
  accepted := rfl

/-- The only copy is dropped. -/
theorem same_name_loses : ¬RollsBack 100 (fun _ => []) (fun _ => []) ⟨160000, fun _ => false⟩
    "postgres".toList sameName := by
  intro h
  have htakes : Takes 100 (fun _ => []) (fun _ => []) sameName.config .null := ⟨_, rfl, rfl⟩
  have htaken := h.taken Unit (single "app".toList) () .null rfl htakes
  have hloses : Leaves ⟨160000, fun _ => false⟩ True (createTemplate "postgres".toList sameName)
      (single "app".toList) (fun _ _ => False) fun _ d => d "app".toList = none :=
    createTemplate_loses sameName.identifier rfl
  have hstep : Leaves ⟨160000, fun _ => false⟩ True
      (step8 "postgres".toList sameName 100 (fun _ => []) (fun _ => []) .null)
      (single "app".toList) (fun _ _ => False) fun _ d => d "app".toList = none :=
    .bind (leaves_pure (.bind (hloses.mono (fun _ _ h => h.elim) fun _ _ => id)))
  exact not_leaves_false ((htaken.and hstep).mono (fun _ _ h => h.2) fun _ _ h => h.1)

end Fraisier.Dbops.RollbackTemplate
