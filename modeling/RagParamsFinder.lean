import RagParamsFinder.Explore.Interruptions
import RagParamsFinder.Pipeline.FinalStatus
import RagParamsFinder.Pipeline.History
import RagParamsFinder.Pipeline.StartupReconciliation
import RagParamsFinder.Lifecycle.Settled
import RagParamsFinder.Lifecycle.Cancel
import RagParamsFinder.Lifecycle.InFlight
import RagParamsFinder.Lifecycle.Reads
import RagParamsFinder.Lifecycle.Delete
import RagParamsFinder.Lifecycle.OnError
import RagParamsFinder.Lifecycle.PlannedRuns
import RagParamsFinder.Store.CompletedAt
import RagParamsFinder.Migrate.DropSource
import RagParamsFinder.Migrate.MergeLossless
import RagParamsFinder.PreEmbed.WatcherSafety
import RagParamsFinder.PreEmbed.AllOrNothing
import RagParamsFinder.PreEmbed.Coverage
import RagParamsFinder.Retrieval.HybridSearch
import RagParamsFinder.Embedding.Batches
import RagParamsFinder.Embedding.RateLimiter
import RagParamsFinder.Explore.SoundRanking
import RagParamsFinder.Lifecycle.BayesianTrials
import RagParamsFinder.Pipeline.BestTrial
import RagParamsFinder.Explore.Compare
import RagParamsFinder.Guards.SearchIndexGuard
import RagParamsFinder.Export.WalkthruExport
import RagParamsFinder.Export.OrderIndependence
import RagParamsFinder.Embedding.ContextSegments
import RagParamsFinder.Chunking.Semantic
import RagParamsFinder.Chunking.Fixed
import RagParamsFinder.Chunking.Padding
import RagParamsFinder.PreEmbed.PlanExact
import RagParamsFinder.Retrieval.Rerank
import RagParamsFinder.VectorStores.RedisQuery
import RagParamsFinder.VectorStores.InsertAllOrNothing
import RagParamsFinder.VectorStores.Statistics
import RagParamsFinder.Queries.QueryLoader
import RagParamsFinder.Retrieval.RunIsolation
import RagParamsFinder.Embedding.DoublewordEmbedder
import RagParamsFinder.Embedding.Pacing
import RagParamsFinder.Pipeline.RunSingleSafety
