import SurfaceAi.Library.Averages
import SurfaceAi.Library.BoundedSearch
import SurfaceAi.Library.ByteWords
import SurfaceAi.Library.Chain
import SurfaceAi.Library.Checked
import SurfaceAi.Library.Covariance
import SurfaceAi.Library.Deflation
import SurfaceAi.Library.DepthFirst
import SurfaceAi.Library.Double
import SurfaceAi.Library.ExactDouble
import SurfaceAi.Library.Exchanges
import SurfaceAi.Library.FarthestPoint
import SurfaceAi.Library.FlatMatrix
import SurfaceAi.Library.Grid
import SurfaceAi.Library.KCenter
import SurfaceAi.Library.Kahn
import SurfaceAi.Library.KeyedFold
import SurfaceAi.Library.Lru
import SurfaceAi.Library.Monitor
import SurfaceAi.Library.OrderStatistics
import SurfaceAi.Library.Paths
import SurfaceAi.Library.Returns
import SurfaceAi.Library.Ring
import SurfaceAi.Library.Rows
import SurfaceAi.Library.Savepoint
import SurfaceAi.Library.Stores
import SurfaceAi.Library.Tally
import SurfaceAi.Library.Thresholding
import SurfaceAi.Library.Transition
import SurfaceAi.Library.Triangular
import SurfaceAi.Library.UnionFind
import SurfaceAi.Library.Walk
import SurfaceAi.Core.Arithmetic
import SurfaceAi.Core.Context
import SurfaceAi.Core.Error
import SurfaceAi.Core.Image
import SurfaceAi.Core.RealMath
import SurfaceAi.Core.TypeId
import SurfaceAi.Infra.ConfigStore
import SurfaceAi.Infra.RotatingSink
import SurfaceAi.Io.BasicImporter
import SurfaceAi.Io.CoresetManifest
import SurfaceAi.Io.Tiff
import SurfaceAi.Device.RingBuffer
import SurfaceAi.Memory.ArenaAllocator
import SurfaceAi.Memory.AtomicStack
import SurfaceAi.Memory.FreeList
import SurfaceAi.Memory.HandleLocks
import SurfaceAi.Memory.PinnedPool
import SurfaceAi.Memory.PooledPtr
import SurfaceAi.Memory.SlabReturn
import SurfaceAi.Plugin.PluginCycles
import SurfaceAi.Plugin.PluginLoading
import SurfaceAi.Plugin.PluginManager
import SurfaceAi.Plugin.Shutdown
import SurfaceAi.Runtime.CallbackLoop
import SurfaceAi.Runtime.CompletionQueue
import SurfaceAi.Runtime.CopyResumer
import SurfaceAi.Runtime.Dispatch
import SurfaceAi.Runtime.QueueDelivery
import SurfaceAi.Runtime.TaskCycles
import SurfaceAi.Runtime.TaskGraph
import SurfaceAi.Runtime.TaskOrder
import SurfaceAi.Runtime.WorkerPool
import SurfaceAi.Image.GeometricSteps
import SurfaceAi.Image.GpuUpload
import SurfaceAi.Image.Preprocess
import SurfaceAi.Image.PreprocessBounds
import SurfaceAi.Image.Roi
import SurfaceAi.Inference.MultiLayerAggregator
import SurfaceAi.Inference.SaliencyMask
import SurfaceAi.Rule.ConditionBuilder
import SurfaceAi.Rule.ConflictResolver
import SurfaceAi.Rule.Expression
import SurfaceAi.Rule.FactBase
import SurfaceAi.Rule.FactBuilder
import SurfaceAi.Rule.MemoisedRules
import SurfaceAi.Rule.Memoization
import SurfaceAi.Rule.OverrideElimination
import SurfaceAi.Rule.RuleEngine
import SurfaceAi.Rule.RuleLoader
import SurfaceAi.Rule.RuleOverlaps
import SurfaceAi.Rule.Value
import SurfaceAi.Retrieval.FusionConfig
import SurfaceAi.Retrieval.FusionConsistency
import SurfaceAi.Retrieval.HybridRetriever
import SurfaceAi.Retrieval.MetadataPath
import SurfaceAi.Retrieval.RetrievalRequests
import SurfaceAi.Retrieval.ScoreFusion
import SurfaceAi.Retrieval.VectorPath
import SurfaceAi.Knowledge.EdgeIntegrity
import SurfaceAi.Knowledge.EvolutionLog
import SurfaceAi.Knowledge.FieldSurvival
import SurfaceAi.Knowledge.Graph
import SurfaceAi.Knowledge.Record
import SurfaceAi.Knowledge.Snapshot
import SurfaceAi.Knowledge.SnapshotRuns
import SurfaceAi.Knowledge.Store
import SurfaceAi.Knowledge.StoreCalls
import SurfaceAi.Knowledge.Traversal
import SurfaceAi.Embedding.CheckedScore
import SurfaceAi.Embedding.DimensionReducer
import SurfaceAi.Embedding.Embedding
import SurfaceAi.Embedding.FeatureCache
import SurfaceAi.Embedding.PatchFeatures
import SurfaceAi.Embedding.PcaFile
import SurfaceAi.Embedding.PcaFitting
import SurfaceAi.Embedding.PcaOrthonormal
import SurfaceAi.Embedding.PcaScoring
import SurfaceAi.Embedding.PcaStreaming
import SurfaceAi.Embedding.PowerIteration
import SurfaceAi.Embedding.SimplePatch
import SurfaceAi.Embedding.TopEigen
import SurfaceAi.Detection.AdaptiveThreshold
import SurfaceAi.Detection.BankIndex
import SurfaceAi.Detection.BankOrigin
import SurfaceAi.Detection.BufferHistory
import SurfaceAi.Detection.CandidateBuffer
import SurfaceAi.Detection.CheckedDetect
import SurfaceAi.Detection.CheckedSmoothing
import SurfaceAi.Detection.CheckedUpdate
import SurfaceAi.Detection.Collection
import SurfaceAi.Detection.Components
import SurfaceAi.Detection.Coreset
import SurfaceAi.Detection.CoresetBound
import SurfaceAi.Detection.CoresetEvolution
import SurfaceAi.Detection.DriftCheck
import SurfaceAi.Detection.EvolutionRun
import SurfaceAi.Detection.EvolutionYaml
import SurfaceAi.Detection.FeatureBank
import SurfaceAi.Detection.Initialize
import SurfaceAi.Detection.Labelling
import SurfaceAi.Detection.Maturity
import SurfaceAi.Detection.NormalityProfile
import SurfaceAi.Detection.PatchCore
import SurfaceAi.Detection.PatchDistances
import SurfaceAi.Detection.PostProcess
import SurfaceAi.Detection.ProfileTracking
import SurfaceAi.Detection.QuerySpace
import SurfaceAi.Detection.Result
import SurfaceAi.Detection.ScoreBounds
import SurfaceAi.Detection.ScoreComparability
import SurfaceAi.Detection.Subsampling
import SurfaceAi.Detection.UpdateLoop
import SurfaceAi.Detection.UpdateSafety
import SurfaceAi.Detection.VectorRetention
import SurfaceAi.Detection.WhitenedBank
import SurfaceAi.Pipeline.Bootstrap
import SurfaceAi.Pipeline.BootstrapTolerance
import SurfaceAi.Pipeline.Channel
import SurfaceAi.Pipeline.DetectStage
import SurfaceAi.Pipeline.DetectionFacts
import SurfaceAi.Pipeline.Drain
import SurfaceAi.Pipeline.DropAccounting
import SurfaceAi.Pipeline.ExportStage
import SurfaceAi.Pipeline.FailedFrames
import SurfaceAi.Pipeline.FrameConservation
import SurfaceAi.Pipeline.FrameOrder
import SurfaceAi.Pipeline.FramePairing
import SurfaceAi.Pipeline.InferenceStage
import SurfaceAi.Pipeline.InspectionRecorder
import SurfaceAi.Pipeline.LatencyReservoir
import SurfaceAi.Pipeline.LifeCycle
import SurfaceAi.Pipeline.Movement
import SurfaceAi.Pipeline.PipelineBuilder
import SurfaceAi.Pipeline.PipelineChain
import SurfaceAi.Pipeline.Placement
import SurfaceAi.Pipeline.QueueMonitor
import SurfaceAi.Pipeline.ReasonStage
import SurfaceAi.Pipeline.RingBuffer
import SurfaceAi.Pipeline.RingInterleaving
import SurfaceAi.Pipeline.RingRuns
import SurfaceAi.Pipeline.RuleEvalStage
import SurfaceAi.Pipeline.Scheduler
import SurfaceAi.Pipeline.Stage
import SurfaceAi.Pipeline.StageData
import SurfaceAi.Pipeline.StageGraph
import SurfaceAi.Pipeline.System
import SurfaceAi.Reasoner.DecisionTree
import SurfaceAi.Reasoner.Evidence
import SurfaceAi.Reasoner.Reasoner
import SurfaceAi.Reasoner.TreeWalker
import SurfaceAi.Tuning.AppliedTree
import SurfaceAi.Tuning.AuditTrail
import SurfaceAi.Tuning.BayesianOptimizer
import SurfaceAi.Tuning.Cholesky
import SurfaceAi.Tuning.CholeskyRows
import SurfaceAi.Tuning.Clamping
import SurfaceAi.Tuning.GaussianProcess
import SurfaceAi.Tuning.ObservationDimension
import SurfaceAi.Tuning.ParameterApplier
import SurfaceAi.Tuning.Proposals
import SurfaceAi.Tuning.Rollback
import SurfaceAi.Tuning.TuningObjective
import SurfaceAi.Tuning.TuningScheduler
import SurfaceAi.Tuning.TuningSpace
import SurfaceAi.Visualization.FrameProvider
import SurfaceAi.Web.HttpServer
import SurfaceAi.App.HeadlessRunner
