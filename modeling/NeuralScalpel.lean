import NeuralScalpel.Dict
import NeuralScalpel.Effect
import NeuralScalpel.Runs
import NeuralScalpel.Tensor
import NeuralScalpel.RuntimeState
import NeuralScalpel.FailurePolicy
import NeuralScalpel.Registry
import NeuralScalpel.Payload
import NeuralScalpel.LayerNames
import NeuralScalpel.Runtime
import NeuralScalpel.RuntimeSpec
import NeuralScalpel.Weights
import NeuralScalpel.Restoration
import NeuralScalpel.Gateways
import NeuralScalpel.LeaveNoTrace
import NeuralScalpel.ForwardPass
import NeuralScalpel.Quarantine
import NeuralScalpel.RollbackFailure
import NeuralScalpel.Authorisation
import NeuralScalpel.SwapCalls
import NeuralScalpel.ShapeGuard
import NeuralScalpel.DeltaCache
import NeuralScalpel.Agreement
import NeuralScalpel.CurrentRoute
import NeuralScalpel.HashChain
import NeuralScalpel.PrefixCache
import NeuralScalpel.PayloadQuarantine
import NeuralScalpel.Interleaving
import NeuralScalpel.ConcurrentInfer
import NeuralScalpel.SwapInterference
import NeuralScalpel.KeyedFifo
import NeuralScalpel.ServingScheduler
import NeuralScalpel.SchedulerPatch
import NeuralScalpel.Shelving
import NeuralScalpel.VllmProxy
import NeuralScalpel.ProxyInvariant
import NeuralScalpel.ProxyAnswers
import NeuralScalpel.VllmBridge
import NeuralScalpel.MockPipeline
import NeuralScalpel.PipelineSafety
import NeuralScalpel.Json
import NeuralScalpel.RouteDocument
import NeuralScalpel.RouteFiles
import NeuralScalpel.RegistryRuns
import NeuralScalpel.AutoLoad
import NeuralScalpel.DictFill
import NeuralScalpel.Alignment
import NeuralScalpel.ShapedMatrix
import NeuralScalpel.LoraKeys
import NeuralScalpel.Adapters
import NeuralScalpel.CropAndPad
import NeuralScalpel.Substrings
import NeuralScalpel.Pairing
import NeuralScalpel.PairBuffer
import NeuralScalpel.PairStream
import NeuralScalpel.AdaptiveScale
import NeuralScalpel.PortLora
import NeuralScalpel.Fallback
import NeuralScalpel.PortRun
import NeuralScalpel.PortKeys
import NeuralScalpel.AdapterConfig
import NeuralScalpel.AlphaMap
import NeuralScalpel.AlphaLaw
import NeuralScalpel.RouteSigner
import NeuralScalpel.PayloadAgreement
import NeuralScalpel.Package
import NeuralScalpel.SafetensorsWriter
import NeuralScalpel.GgufBridge
import NeuralScalpel.SnapshotChecksums
import NeuralScalpel.SettledPhases
import NeuralScalpel.PhaseHistory
import NeuralScalpel.LayerBoundaries
import NeuralScalpel.PilotServer
import NeuralScalpel.SchedulerFairness
import NeuralScalpel.DrainLoop
import NeuralScalpel.BatchGates
import NeuralScalpel.TokenBucket
import NeuralScalpel.RateLimiter
import NeuralScalpel.ActiveRouteGauge
import NeuralScalpel.BackendRegistry
import NeuralScalpel.Words
import NeuralScalpel.LicensePolicy
import NeuralScalpel.LexicalPath
import NeuralScalpel.PayloadPath
import NeuralScalpel.PiecewiseShapes
import NeuralScalpel.Rounding
import NeuralScalpel.DeltaHealth
import NeuralScalpel.OutlierDamping
import NeuralScalpel.HealthReport
import NeuralScalpel.PeftNaming
import NeuralScalpel.MalformedAlphaMap
import NeuralScalpel.Replacing
import NeuralScalpel.Stacking
import NeuralScalpel.QwenFusion
import NeuralScalpel.ShapeVerifier
import NeuralScalpel.BlockDecoding
import NeuralScalpel.FloatFormat
import NeuralScalpel.Q40Order
import NeuralScalpel.Q80Bound
import NeuralScalpel.LoraExport
import NeuralScalpel.ComparisonSort
import NeuralScalpel.SqlSuite
import NeuralScalpel.Finding
import NeuralScalpel.SqlExtraction
import NeuralScalpel.QualityGate
import NeuralScalpel.ReleaseDecision
import NeuralScalpel.Decimals
import NeuralScalpel.AlphaRecommender
import NeuralScalpel.RecommendationReport
import NeuralScalpel.ModuleRisk
import NeuralScalpel.ShadowInjection
import NeuralScalpel.ConcurrentInjections
import NeuralScalpel.Perplexity
import NeuralScalpel.LayerFolding
import NeuralScalpel.Int4Packing
import NeuralScalpel.WassersteinRouting
import NeuralScalpel.VarianceSparsity
import NeuralScalpel.Frobenius
import NeuralScalpel.Procrustes
import NeuralScalpel.Ridge
import NeuralScalpel.AdapterSolving
import NeuralScalpel.LinearCka
import NeuralScalpel.SinkhornRounds
import NeuralScalpel.PilotApi
import NeuralScalpel.PilotRuns
import NeuralScalpel.ForwardHooks
import NeuralScalpel.HookCollector
import NeuralScalpel.LowRank
import NeuralScalpel.LoraOptimal
import NeuralScalpel.BehaviorTransfer
import NeuralScalpel.InPlaceInjections
import NeuralScalpel.AdaptiveRsvd
