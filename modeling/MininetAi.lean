import MininetAi.Agents.BoundedSafety
import MininetAi.Runtime.Delivery
import MininetAi.Coordination.RoutingOrphans
import MininetAi.Runtime.StateEquivalence
import MininetAi.Runtime.StateIsolation
import MininetAi.Substrates.TeardownRetry
import MininetAi.Experiment.FailedStart
import MininetAi.Experiment.Evidence
import MininetAi.Runtime.LedgerReading
import MininetAi.Substrates.FlowPlain
import MininetAi.Substrates.ObservedFlows
import MininetAi.Substrates.NetworkRollback
import MininetAi.Substrates.ScenarioReadBack
import MininetAi.Agents.NativeResponses
import MininetAi.Agents.BundlePath
import MininetAi.Agents.CompletionReport
import MininetAi.Coordination.ArbitrationLaws
import MininetAi.Compiler.ResourcesImplicit
import MininetAi.Compiler.ResourcesDpids
import MininetAi.Compiler.InstancesPartition
import MininetAi.Runtime.SupervisionRecord
import MininetAi.Runtime.ControlFraming
import MininetAi.Coordination.ConflictWinners
import MininetAi.Substrates.CrashSafety
import MininetAi.Coordination.ChannelLaws
import MininetAi.Substrates.Descendants
import MininetAi.Runtime.ContinuousTicks
import MininetAi.Runtime.ContinuousCooldown
import MininetAi.Runtime.TelemetryCooldown
import MininetAi.Substrates.ProcessCalls
import MininetAi.Runtime.TelemetryAggregation
import MininetAi.Audit.Sinks
