import Ulpf.IngestGateway.Server
import Ulpf.IngestGateway.FirewallStream
import Ulpf.IngestGateway.SafeRender
import Ulpf.IngestGateway.RawStore
import Ulpf.Exporters.Agreement
import Ulpf.Exporters.Guarantees
import Ulpf.AiAssist.Screening
import Ulpf.Drift.Guarantees
import Ulpf.Drift.NoTolerance
import Ulpf.DetectionContracts.Dps
import Ulpf.DetectionContracts.Preservation
import Ulpf.IngestGateway.EventBus
import Ulpf.Exporters.RoundTrip
import Ulpf.Normalize.EventDocuments
import Ulpf.Normalize.LineageRecords
import Ulpf.Normalize.Preservation
import Ulpf.Onboarding.Orchestrator
import Ulpf.ParserRuntime.CefHeaders
import Ulpf.ParserRuntime.EnumTables
import Ulpf.ParserRuntime.HeaderIntegrity
import Ulpf.ParserRuntime.IntegerCoercion
import Ulpf.ParserRuntime.IntegerMeaning
import Ulpf.ParserRuntime.Timestamps
import Ulpf.ParserRuntime.JsonPointers
import Ulpf.ParserRuntime.PairTokens
import Ulpf.ParserRuntime.OrderIndependence
import Ulpf.ParserRuntime.LineageDocuments
import Ulpf.SelfHealing.Evidence
import Ulpf.SelfHealing.RunnableSpec
import Ulpf.Shadow.Guarantees
import Ulpf.Shadow.Isolation
import Ulpf.SourceProfiler.LeefAttributes
import Ulpf.SourceProfiler.MixedValues
import Ulpf.SourceProfiler.SyslogBodies
import Ulpf.SpecCompiler.Precedence
import Ulpf.Drift.StructuralReports
import Ulpf.SemanticMapper.Ties
import Ulpf.SpecCompiler.Retention
import Ulpf.SpecCompiler.Injection
import Ulpf.SpecCompiler.Targets
import Ulpf.Validation.Agreement
import Ulpf.Validation.Certification
import Ulpf.SelfHealing.ReportDocuments
import Ulpf.Deployment.Stacks
import Ulpf.Cli.EventRingBuffer
import Ulpf.ParserRuntime.KeyValueScan
import Ulpf.SourceProfiler.TemplateMiner
import Ulpf.IngestGateway.Delivery
import Ulpf.IngestGateway.EnvelopeDocuments
import Ulpf.SelfHealing.RepairRollbacks
import Ulpf.Passport.PassportDocuments
import Ulpf.Shadow.Divergences
import Ulpf.Pipeline.Evidence
import Ulpf.Pipeline.LogContent
import Ulpf.Validation.CsvRows
import Ulpf.Cli.LogRotation
import Ulpf.ParserRuntime.SpecDocuments
import Ulpf.Shadow.ComparisonDocuments
import Ulpf.Drift.ReportDocuments
