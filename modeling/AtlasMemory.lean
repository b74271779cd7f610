import AtlasMemory.L2Semantic.TamperEvidence
import AtlasMemory.Sync.Convergence
import AtlasMemory.Sync.Gossip
import AtlasMemory.Sync.Deletion
import AtlasMemory.Sync.LogShipping
import AtlasMemory.Sync.CausalOrder
import AtlasMemory.L2Semantic.HashBinding
import AtlasMemory.L2Semantic.StateFold
import AtlasMemory.L2Semantic.StatementFaults
import AtlasMemory.Cognitive.EntityBoundary
import AtlasMemory.Cognitive.SupersessionChains
import AtlasMemory.L3Procedural.SagaRecovery
import AtlasMemory.Ipc.Deliveries
import AtlasMemory.Security.DeleteProtection
import AtlasMemory.Server.SleepController
import AtlasMemory.Orchestrator
import AtlasMemory.Server.IndexedRecords
import AtlasMemory.Ipc.AsyncClient
import AtlasMemory.Hermes.PrefetchQueue
import AtlasMemory.Hermes.SessionEnd
import AtlasMemory.L1Working.EvictionSafety
import AtlasMemory.L3Procedural.GenuineConflicts
import AtlasMemory.Hermes.TruthfulReplies
import AtlasMemory.L3Procedural.ScannerSoundness
import AtlasMemory.L3Procedural.HandlerTemplate
import AtlasMemory.Sync.ClockOrder
import AtlasMemory.Sync.TombstoneGc
import AtlasMemory.Sync.MalformedDeltas
import AtlasMemory.Cognitive.PackingOptimality
import AtlasMemory.L2Semantic.Healing
import AtlasMemory.L2Semantic.RedactionRuns
import AtlasMemory.Server.AnsweredOnce
import AtlasMemory.Active.ShadowOutcomes
import AtlasMemory.L2Semantic.PassageRollback
import AtlasMemory.Causal.KernelEquivalence
import AtlasMemory.Server.Acknowledgements
import AtlasMemory.Cognitive.Prefetch
import AtlasMemory.Cognitive.IterationOrder
import AtlasMemory.Cognitive.SavepointBalance
import AtlasMemory.Causal.Diffusion
import AtlasMemory.Ipc.Fragmentation
import AtlasMemory.L1Working.ColumnAlignment
import AtlasMemory.Causal.SubgraphBalls
import AtlasMemory.Cognitive.ArtifactIntegrity
import AtlasMemory.Cognitive.FingerprintSeparation
import AtlasMemory.Cognitive.LiveFacts
import AtlasMemory.Cognitive.StructureCaches
import AtlasMemory.L1Working.TouchedKeys
import AtlasMemory.L2Semantic.MultiHopAgreement
import AtlasMemory.L2Semantic.RelationHydration
import AtlasMemory.L2Semantic.SessionFilter
import AtlasMemory.L3Procedural.ClusterOrder
import AtlasMemory.L3Procedural.SopGroups
import AtlasMemory.Server.KeySanitizing
import AtlasMemory.Active.ErrorHistory
import AtlasMemory.Active.Relapses
import AtlasMemory.Active.FactReadback
import AtlasMemory.Hermes.Verdicts
import AtlasMemory.Hermes.ResultMatching
import AtlasMemory.Server.TurnKeys
import AtlasMemory.Extensions.Canonicalizer
import AtlasMemory.L2Semantic.PointMigration
import AtlasMemory.L2Semantic.OrphanCollection
import AtlasMemory.Ingest.MemoryFiles
