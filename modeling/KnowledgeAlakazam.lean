import KnowledgeAlakazam.Ingest.Polling
import KnowledgeAlakazam.Ingest.RetryBudget
import KnowledgeAlakazam.Ingest.Fencing
import KnowledgeAlakazam.Ingest.Uploads
import KnowledgeAlakazam.Ingest.Acceptance
import KnowledgeAlakazam.Ingest.Agreement
import KnowledgeAlakazam.Ingest.Assets
import KnowledgeAlakazam.Ingest.SyncLease
import KnowledgeAlakazam.Wiki.Links
import KnowledgeAlakazam.Wiki.Revisions
import KnowledgeAlakazam.Wiki.CompileFailure
import KnowledgeAlakazam.Wiki.PageMetadata
import KnowledgeAlakazam.Wiki.PageSections
import KnowledgeAlakazam.Wiki.Provenance
import KnowledgeAlakazam.Wiki.Backlinks
import KnowledgeAlakazam.Wiki.CompileRaces
import KnowledgeAlakazam.Ingest.JobRows
import KnowledgeAlakazam.Wiki.LinkGrammar
import KnowledgeAlakazam.Wiki.SlugStability
import KnowledgeAlakazam.Ingest.Reingest
import KnowledgeAlakazam.Ingest.Confinement
import KnowledgeAlakazam.Rag.Tenants
import KnowledgeAlakazam.Rag.Lifecycle
import KnowledgeAlakazam.Wiki.UnitOfWork
import KnowledgeAlakazam.Wiki.TenantIsolation
import KnowledgeAlakazam.Wiki.LinkRuns
import KnowledgeAlakazam.Wiki.UpsertRuns
import KnowledgeAlakazam.Wiki.Findings
import KnowledgeAlakazam.Log.Redaction
import KnowledgeAlakazam.Ingest.Heartbeats
import KnowledgeAlakazam.Wiki.TextLimits
import KnowledgeAlakazam.Wiki.StorableJson
import KnowledgeAlakazam.Ingest.Drain
import KnowledgeAlakazam.Wiki.History
import KnowledgeAlakazam.Core.JsonRoundTrip
import KnowledgeAlakazam.Log.Lines
import KnowledgeAlakazam.Ingest.AssetUrls
import KnowledgeAlakazam.Rag.Readiness
import KnowledgeAlakazam.Rag.Requests
import KnowledgeAlakazam.Rag.Shutdown
import KnowledgeAlakazam.Wiki.Endpoints
import KnowledgeAlakazam.Wiki.CompileRoute
import KnowledgeAlakazam.Wiki.ApiHistory
import KnowledgeAlakazam.Ingest.TextFirst
