import Turbohaul.Coop.Program
import Turbohaul.Slot
import Turbohaul.Manifest
import Turbohaul.World
import Turbohaul.Interface
import Turbohaul.Calls
import Turbohaul.Queue
import Turbohaul.Submit
import Turbohaul.Worker
import Turbohaul.Resident
import Turbohaul.Dispatch
import Turbohaul.Manager
import Turbohaul.Quiet
import Turbohaul.QuietPrograms
import Turbohaul.Coop.System
import Turbohaul.Coop.Logic
import Turbohaul.Coop.Keeps
import Turbohaul.Coop.Episode
import Turbohaul.Coop.Turn
import Turbohaul.Coop.Finds
import Turbohaul.Sharing
import Turbohaul.Single
import Turbohaul.SingleSteps
import Turbohaul.SingleWorker
import Turbohaul.SingleSidecar
import Turbohaul.Ports
import Turbohaul.PortRuns
import Turbohaul.PortSpawn
import Turbohaul.PortReserve
import Turbohaul.PortExclusive
import Turbohaul.Coop.Total
import Turbohaul.TwoTier
import Turbohaul.QueueCalls
import Turbohaul.QueueRuns
import Turbohaul.RequeueOrder
import Turbohaul.Statements
import Turbohaul.Refusal
import Turbohaul.Plain
import Turbohaul.Walk
import Turbohaul.StagingBound
import Turbohaul.CoResidence
import Turbohaul.Orphans
import Turbohaul.CustodyRuns
import Turbohaul.PyString
import Turbohaul.Register
import Turbohaul.ManifestStore
import Turbohaul.ManifestEtags
import Turbohaul.SsrfGuard
import Turbohaul.Pull
import Turbohaul.PullHops
import Turbohaul.PullCredentials
import Turbohaul.Json
import Turbohaul.ChatCompletion
import Turbohaul.ChatKnobs
import Turbohaul.ConfigPut
import Turbohaul.ConfigRuns
import Turbohaul.Safety
import Turbohaul.LoneSpawn
import Turbohaul.StreamEviction
import Turbohaul.Fairness
import Turbohaul.Paging
import Turbohaul.JsonText
import Turbohaul.JsonRoundTrip
import Turbohaul.Regex
import Turbohaul.ToolCallRecovery
import Turbohaul.ToolCallSpans
import Turbohaul.ToolCallSound
import Turbohaul.AuditLog
import Turbohaul.Telemetry
import Turbohaul.Reasoning
import Turbohaul.ChatRoutes
import Turbohaul.Files
import Turbohaul.BlobStore
import Turbohaul.BlobRuns
import Turbohaul.Parking
import Turbohaul.Absent
import Turbohaul.AbsentRuns
import Turbohaul.SubmitAtomic
import Turbohaul.KvFit
import Turbohaul.LivePoller
import Turbohaul.LiveBuffers
import Turbohaul.LiveText
import Turbohaul.LivePane
import Turbohaul.VramVerify
import Turbohaul.KeepAlive
import Turbohaul.AffinityDefault
import Turbohaul.LiveSlots
import Turbohaul.LivePoll
import Turbohaul.Windows
import Turbohaul.IdleWindow
import Turbohaul.Reconcile
import Turbohaul.JsonPath
import Turbohaul.Redaction
import Turbohaul.JsonGrammar
import Turbohaul.BraceMatch
import Turbohaul.SchemaGuard
import Turbohaul.LlamaFlags
import Turbohaul.FlagBounds
import Turbohaul.FlagArgv
import Turbohaul.ManifestDir
import Turbohaul.VramProbe
import Turbohaul.TelemetryFiles
import Turbohaul.JsonQuotes
import Turbohaul.CompleteFn
import Turbohaul.OllamaChat
import Turbohaul.Polling
import Turbohaul.Signals
import Turbohaul.SlotRows
import Turbohaul.EventBus
import Turbohaul.FileTree
import Turbohaul.Import
import Turbohaul.LogsPane
import Turbohaul.ModelEditor
import Turbohaul.LiveSupervisor
import Turbohaul.StatusPolls
import Turbohaul.BinaryPin
import Turbohaul.UiServe
import Turbohaul.TelemetryHooks
