import OpenTulpa.DeepAgent.RunLog
import OpenTulpa.DeepAgent.SharedConnection
import OpenTulpa.Host.CrashLoop
import OpenTulpa.Host.ContainmentRuns
import OpenTulpa.Host.JournalRecovery
import OpenTulpa.Jobs.Refinement
import OpenTulpa.Persistence.ClaimOwnership
import OpenTulpa.Capabilities.Generations
import OpenTulpa.Capabilities.ServingRuns
import OpenTulpa.Schedules.Updatable
import OpenTulpa.Secrets.Grants
import OpenTulpa.Specs.ExecutionFencing
import OpenTulpa.Library.Provenance
import OpenTulpa.Secrets.Redaction
import OpenTulpa.Intake.QueuedEvents
import OpenTulpa.Intake.OpenBookings
import OpenTulpa.Intake.Reconciliation
import OpenTulpa.Intake.Confirmations
import OpenTulpa.Telegram.Retries
import OpenTulpa.DeepAgent.SandboxRecovery
import OpenTulpa.Repositories.Bindings
import OpenTulpa.Repositories.LostUpdates
import OpenTulpa.Inference.DeviceLogins
import OpenTulpa.Repositories.Publishing
import OpenTulpa.Telegram.StateFile
import OpenTulpa.Telegram.Replies
import OpenTulpa.Telegram.Recovery
import OpenTulpa.Telegram.Notifications
import OpenTulpa.Secrets.Handles
import OpenTulpa.Context.ProfileUpdates
import OpenTulpa.Context.Identities
import OpenTulpa.Mcp.ToolCalls
import OpenTulpa.Tui.Decisions
import OpenTulpa.Host.ControllerRuns
import OpenTulpa.Knowledge.Extraction
import OpenTulpa.Migrations.MemoryIndex
import OpenTulpa.Context.FileVault
import OpenTulpa.Knowledge.FactCounts
import OpenTulpa.Knowledge.TableEvidence
import OpenTulpa.Knowledge.Preflight
import OpenTulpa.Evolution.GitSecurity
import OpenTulpa.Telegram.Chunks
import OpenTulpa.Host.DotenvUpdates
import OpenTulpa.Host.ChildEnvironment
import OpenTulpa.Persistence.Replays
import OpenTulpa.Capabilities.WorkerFencing
import OpenTulpa.Secrets.PayloadRedaction
import OpenTulpa.Specs.IntervalKeys
import OpenTulpa.Integrations.ContentFetch
import OpenTulpa.Repositories.CommitPayload
import OpenTulpa.Knowledge.ColumnNames
import OpenTulpa.Host.ProcessTable
import OpenTulpa.Host.Descendants
import OpenTulpa.Host.DirtyTree
import OpenTulpa.Secrets.TextRedaction
import OpenTulpa.DeepAgent.ZipExtraction
import OpenTulpa.Schedules.Projection
import OpenTulpa.Intake.CsvSink
import OpenTulpa.DeepAgent.StreamRedaction
import OpenTulpa.DeepAgent.Following
import OpenTulpa.Host.ConfigStore
import OpenTulpa.Jobs.Runners
import OpenTulpa.Capabilities.Credentials
