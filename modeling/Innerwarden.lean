import Innerwarden.Store.TamperEvidence
import Innerwarden.Store.Retention
import Innerwarden.Store.MigrationCrash
import Innerwarden.Response.BlockEffects
import Innerwarden.Response.BlockCallers
import Innerwarden.Playbook.Dispatch
import Innerwarden.Agent.ConcurrentLog
import Innerwarden.Agent.ReportBudget
import Innerwarden.Agent.TwoFactor
import Innerwarden.Agent.IncidentLoop
import Innerwarden.Agent.LearnedSuppression
import Innerwarden.Ctl.GdprErase
import Innerwarden.Response.OperatorUnblock
import Innerwarden.Dashboard.LoginLimit
import Innerwarden.Dashboard.AuditExport
import Innerwarden.Supervisor.Spawning
import Innerwarden.Supervisor.Strikes
import Innerwarden.Supervisor.LoopbackUrl
import Innerwarden.Playbook.Glob
import Innerwarden.Shield.StaleBlocks
import Innerwarden.Shield.BucketBound
import Innerwarden.Shield.WindowLimit
import Innerwarden.Shield.IncidentPeaks
import Innerwarden.Shield.SynTracker
import Innerwarden.TcpStream.Directions
import Innerwarden.Knowledge.ActiveNodes
import Innerwarden.Knowledge.Eviction
import Innerwarden.Knowledge.Expiry
import Innerwarden.Knowledge.Paths
import Innerwarden.Guard.InFlight
import Innerwarden.Guard.CappedLines
import Innerwarden.Killchain.Blocked
import Innerwarden.Killchain.Expiry
import Innerwarden.Correlation.Window
import Innerwarden.Correlation.Cooldown
import Innerwarden.Correlation.Panic
import Innerwarden.Pipeline.Meaning
import Innerwarden.Pipeline.Totals
import Innerwarden.Pipeline.ScoreDecay
import Innerwarden.Sigma.Agreement
import Innerwarden.RuleOverride
import Innerwarden.Agent.Reader
import Innerwarden.Dna.Ingest
import Innerwarden.Shield.OriginLockdown
import Innerwarden.Response.Reconcile
import Innerwarden.Agent.WarmGzip
