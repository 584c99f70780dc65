import Mathlib.Data.List.Basic

/-!
# What a deploy reads from its configuration

The blocks of `fraises.yaml` that `APIDeployer._bind_deploy_settings`, `_resolve_strategy` and the
gates read, resolved to values: an absent block is `none` or the default its reader gives it.
Values that are only handed on to a child process or a library (paths, job counts, time limits)
are left out.
-/

namespace Fraisier.Deploy

/-- `database.strategy`: the names `_resolve_strategy` knows, or any other text. -/
inductive StrategyName
  | apply | migrate | rebuild | restoreMigrate
  | other (name : String)
  deriving DecidableEq, Repr

/-- What a gate does with a finding: `fail` stops the deploy, `warn` only reports. -/
inductive OnFinding
  | fail | warn
  deriving DecidableEq, Repr

/-- `database.post_migrate_check`, as a project writes it. -/
structure GateBlock where
  enabled : Bool := true
  onCritical : OnFinding := .fail
  onEmpty : OnFinding := .fail
  deriving DecidableEq, Repr

/-- `PostMigrateCheck`: the gate's resolved configuration. -/
structure PostMigrateCheck where
  enabled : Bool := true
  onCritical : OnFinding := .fail
  onEmpty : OnFinding := .fail
  /-- A human wrote this gate; the default one arrives on its own. -/
  declared : Bool := false
  deriving DecidableEq, Repr

/-- `load_post_migrate_check`: on unless the project declines. -/
def loadPostMigrateCheck : Option GateBlock → PostMigrateCheck
  | none => {}
  | some block =>
    if block.enabled then
      { onCritical := block.onCritical, onEmpty := block.onEmpty, declared := true }
    else
      { enabled := false, declared := true }

/-- `PostMigrateStep`: one entry of `database.post_migrate`, a file or a directory of files. -/
structure PostMigrateStep where
  isDir : Bool := false
  /-- `on_error`, `halt` unless the entry says `warn`. -/
  halt : Bool := true
  deriving DecidableEq, Repr

/-- `database.pre_migrate_dump`. -/
structure DumpConfig where
  enabled : Bool := false
  outputDir : Option String := none
  minFreeGb : Option ℕ := none
  deriving DecidableEq, Repr

/-- `restore.template`, or what `create_template` derives (`RestoreConfig.template_mode`). -/
inductive TemplateMode
  | auto | always | never
  deriving DecidableEq, Repr

/-- `PgBackRestSpec`: the `restore.pgbackrest` block. -/
structure PgBackRestSpec where
  stanza : String := "main"
  cluster : String := "17-staging"
  /-- The target is the latest backup rather than an instant. -/
  isLatest : Bool := true
  deriving DecidableEq, Repr

/-- `RestoreConfig`: the `restore` block of a `restore_migrate` strategy. -/
structure RestoreConfig where
  dbName : String
  /-- `restore.pgbackrest`, when `restore.source` is `pgbackrest`; otherwise it is a dump. -/
  pgbackrest : Option PgBackRestSpec := none
  /-- `restore.backup_path`: the archive is named rather than searched for. -/
  backupPath : Option String := none
  backupDir : String := "."
  backupPattern : String := "*.dump"
  /-- `max_age_hours`, as an f-string shows it. -/
  maxAgeHours : String := "48.0"
  targetOwner : Option String := none
  template : Option TemplateMode := none
  createTemplate : Bool := false
  templateName : Option String := none
  minTables : ℕ := 0
  preflight : Bool := true
  onEmptyTview : OnFinding := .fail
  deriving DecidableEq, Repr

/-- `RestoreConfig.template_mode`. -/
def RestoreConfig.templateMode (cfg : RestoreConfig) : TemplateMode :=
  match cfg.template with
  | some mode => mode
  | none => if cfg.createTemplate then .auto else .never

/-- `_resolved_template_name`. -/
def RestoreConfig.resolvedTemplateName (cfg : RestoreConfig) : String :=
  cfg.templateName.getD ("template_" ++ cfg.dbName)

/-- The `database` block of an environment. -/
structure DatabaseConfig where
  strategy : StrategyName := .apply
  name : String := ""
  adminUrl : Option String := none
  databaseUrl : Option String := none
  requiredRoles : List String := []
  createTemplate : Bool := false
  preMigrateDump : Option DumpConfig := none
  preMigrateVerify : Bool := false
  /-- `restore`, absent or empty when `none`. -/
  restore : Option RestoreConfig := none
  postMigrateCheck : Option GateBlock := none
  postMigrate : List PostMigrateStep := []
  deriving DecidableEq, Repr

/-- `SmokeTest.on_failure`. -/
inductive OnFailure
  | rollback | halt | warn
  deriving DecidableEq, Repr

/-- `SmokeTest`: one authenticated probe. -/
structure SmokeTest where
  name : String := ""
  onFailure : OnFailure := .rollback
  /-- The test carries a `token_provider`. -/
  tokenProvider : Bool := false
  assertions : ℕ := 0
  deriving DecidableEq, Repr

/-- What `_bind_deploy_settings` derives from the configuration. -/
structure Settings where
  systemdService : Option String := none
  healthCheckUrl : Option String := none
  healthCheckRetries : ℕ := 5
  /-- `database`; `none` is the empty block. -/
  databaseConfig : Option DatabaseConfig := none
  smokeTestsConfig : List SmokeTest := []
  allowIrreversible : Bool := false
  installCommand : Option (List String) := none
  installUser : Option String := none
  deriving DecidableEq, Repr

end Fraisier.Deploy
