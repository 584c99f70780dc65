import Fraisier.Deploy.Schema
import Fraisier.Deploy.StaysClosed
import Fraisier.Deploy.Delivery
import Fraisier.Deploy.Filing
import Fraisier.Deploy.FailsClosed
import Fraisier.Deploy.FailedRollback
import Fraisier.Deploy.SelfHeal
import Fraisier.Deploy.Shelf
import Fraisier.Deploy.PutBack
import Fraisier.Deploy.SmokePolicy
import Fraisier.Locking.Database
import Fraisier.Locking.File
import Fraisier.Locking.Entries
import Fraisier.Restart.Deferred
import Fraisier.Restart.Drain
import Fraisier.Restart.InFlight
import Fraisier.Restart.Handoff
import Fraisier.Scaffold.Converged
import Fraisier.Install.Markers
import Fraisier.Scaffold.Consistent
import Fraisier.Unit.Commands
import Fraisier.Config.Reload
import Fraisier.Config.Watcher
import Fraisier.Config.RestoreClusters
import Fraisier.Webhook.Gate
import Fraisier.Install.WireRoundTrip
import Fraisier.Install.Replies
import Fraisier.Install.Texts
import Fraisier.Install.Agree
import Fraisier.Backup.Yardstick
import Fraisier.PgBackRest.Source
import Fraisier.PgBackRest.Protocol
import Fraisier.Ship.Sync
import Fraisier.Ship.Scope
import Fraisier.Dbops.DriftVerdict
import Fraisier.Dbops.PreflightVerdict
import Fraisier.Dbops.RestoreComplete
import Fraisier.Dbops.TemplateRule
import Fraisier.Dbops.RollbackTemplate
import Fraisier.Dbops.TemplateCleanup
import Fraisier.Dbops.LatestBackup
import Fraisier.Dbops.Receipt
import Fraisier.Scaffold.Owners
import Fraisier.Webhook.Replay
import Fraisier.Webhook.Signature
import Fraisier.Webhook.RateLimit
import Fraisier.Daemon.Skipped
import Fraisier.Socket.Answers
import Fraisier.Dbops.OneDatabase
import Fraisier.Unit.Sound
import Fraisier.Backup.Policy
import Fraisier.Scaffold.Secrets
import Fraisier.Config.StatementTimeout
import Fraisier.Config.Password
import Fraisier.Config.ChangeStream
import Fraisier.Scaffold.SudoersDiff
import Fraisier.Scaffold.Untrusted
import Fraisier.Scaffold.Drift
import Fraisier.Scaffold.Manifest
import Fraisier.Unit.PolicyFile
import Fraisier.Zfs.Snapshots
import Fraisier.Deploy.Assertion
import Fraisier.Deploy.Statuses
import Fraisier.Deploy.TokenProviders
import Fraisier.Config.Connection
import Fraisier.Dbops.RoutineCoverage
import Fraisier.Logs.Redaction
import Fraisier.Daemon.Answers
import Fraisier.Install.Prune
import Fraisier.Dbops.ArchiveToc
import Fraisier.PgBackRest.Choice
import Fraisier.Webhook.Debts
import Fraisier.Runners.Ssh
