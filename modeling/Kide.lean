import Kide.Canonical
import Kide.Protocol
import Kide.Lib.Collect
import Kide.Proto.Worker
import Kide.Proto.WorkerAdapter
import Kide.InputInventory
import Kide.Lib.Table
import Kide.Lib.Transaction
import Kide.Lib.Run
import Kide.Lib.Pages
import Kide.Lib.FirstWins
import Kide.Lib.Scan
import Kide.Cache.HeaderArithmetic
import Kide.Workers.JavaPatterns
import Kide.Workers.JavaTypeIds
import Kide.Lib.Checks
import Kide.Lib.Trace
import Kide.Lib.Intern
import Kide.Lib.Chunks
import Kide.Lib.Fixpoint
import Kide.Lib.Codec
import Kide.Lib.Bytes
import Kide.Lib.Gzip
import Kide.Lib.Wire
import Kide.Lib.Sha256
import Kide.Lib.Directory
import Kide.Lib.Restart
import Kide.Lib.Sql
import Kide.Lib.BreadthFirst
import Kide.Lib.Unicode
import Kide.Lib.Varint
import Kide.Store.Schema
import Kide.Store.Validate
import Kide.Proto.RoundTrip
import Kide.Proto.Manifest
import Kide.Artifact.GraphRoundTrip
import Kide.Proto.Artifact
import Kide.Proto.ArtifactWire
import Kide.Artifact.Adapter
import Kide.Artifact.Toc
import Kide.Artifact.Layout
import Kide.Artifact.Readers
import Kide.Artifact.Jvm
import Kide.Artifact.Blocks
import Kide.Artifact.ReadBack
import Kide.Artifact.Typed
import Kide.Artifact.Bounds
import Kide.Artifact.Query
import Kide.Artifact.Details
import Kide.Artifact.Implementations
import Kide.Artifact.Ordinals
import Kide.Artifact.Transparency
import Kide.Store.Snapshots
import Kide.Store.Rows
import Kide.Store.Holding
import Kide.Store.Refinement
import Kide.Store.Keys
import Kide.Store.Storable
import Kide.Store.Batch
import Kide.Store.Queries
import Kide.Store.Publication
import Kide.Store.WorkspaceRecords
import Kide.Store.Hierarchy
import Kide.Store.Dependents
import Kide.Store.SymbolRecords
import Kide.Store.Migrations
import Kide.Store.MigrationRestart
import Kide.Store.Migrated
import Kide.Freshness
import Kide.Planning
import Kide.Workers.Supervisor
import Kide.Workers.Exchange
import Kide.Workers.Correlation
import Kide.Workers.Discipline
import Kide.Workers.Registry
import Kide.Workers.Semantic
import Kide.Workers.Framing
import Kide.Index.Orchestrator
import Kide.Index.Plans
import Kide.Index.History
import Kide.Index.Paths
import Kide.Index.Commits
import Kide.Index.Effects
import Kide.Index.Dependencies
import Kide.Index.Invalidation
import Kide.Index.Materialize
import Kide.Index.BlobReferences
import Kide.Index.Command
import Kide.Index.ArtifactLinks
import Kide.Index.Demand
import Kide.Index.DescriptorWrites
import Kide.Cache.BlobFile
import Kide.Cache.Publish
import Kide.Cache.Interleaving
import Kide.Cache.Calls
import Kide.Cache.Repair
import Kide.Index.Sessions
import Kide.Index.FreshnessGate
import Kide.Artifact.Bytecode
import Kide.Artifact.WorkerPostings
import Kide.Index.CrossArtifact
import Kide.Index.Locators
import Kide.Index.Records
import Kide.Index.CatalogContexts
import Kide.Index.ArtifactPages
import Kide.Index.CatalogMaterialization
import Kide.Index.Status
import Kide.Index.ManifestReuse
import Kide.Lib.Parts
import Kide.Kotlin.StructuralExtractor
import Kide.Kotlin.PublicApi
import Kide.Lib.Text
import Kide.Query.Positions
import Kide.Query.Resolver
import Kide.Query.Navigation
import Kide.Workers.Responses
import Kide.Query.StoredSymbols
import Kide.Query.Selector
import Kide.Query.Applications
import Kide.Query.SemanticQuery
import Kide.Query.Capabilities
import Kide.Query.ProjectQuery
import Kide.Query.ProjectQueryText
import Kide.Query.ProjectQueryRoundTrip
import Kide.Query.ProjectQueryLaw
import Kide.Query.PackageGrammar
import Kide.Lib.OrderFree
import Kide.Lib.Grouping
import Kide.Workers.Selection
import Kide.Index.FingerprintParsers
import Kide.Index.IncrementalPlan
import Kide.Query.QualifiedNames
import Kide.Query.Binding
import Kide.Query.Commands
import Kide.Index.SelectedTotal
import Kide.Index.AffectedComponents
import Kide.Discovery
import Kide.Lib.Paths
import Kide.Discovery.ComponentScope
import Kide.Discovery.ComponentIds
import Kide.Lib.Fields
import Kide.Index.CheckpointFingerprints
import Kide.Index.CheckpointCoverage
import Kide.Query.FrameworkResult
import Kide.Kotlin.ComponentContext
import Kide.Kotlin.SnapshotJson
import Kide.Kotlin.SnapshotAdapter
import Kide.Kotlin.StructuralSnapshots
import Kide.Lib.Split
import Kide.Workers.JavaSharding
import Kide.Workers.Answering
import Kide.Lib.Panics
import Kide.Query.References
import Kide.Query.Packages
import Kide.Query.MacroExpansion
import Kide.Query.Invocation
import Kide.Query.Arguments
import Kide.Lib.Like
import Kide.Query.SymbolNames
import Kide.Lib.MaximalRuns
import Kide.Query.LexicalTerms
import Kide.Query.TextIndex
import Kide.Lib.Reach
import Kide.Kotlin.CompilationContexts
import Kide.Kotlin.MavenReactor
import Kide.Proto.Envelope
import Kide.Workers.Dispatch
import Kide.Workers.Serving
import Kide.Lib.StampCache
import Kide.Discovery.SourceMetadata
