import SearchTrust.Interleave.Rely
import SearchTrust.Jobs.Store
import SearchTrust.Jobs.System
import SearchTrust.Jobs.Effects
import SearchTrust.Jobs.Durable
import SearchTrust.Jobs.StreamRevisions
import SearchTrust.Jobs.Indexes
import SearchTrust.Jobs.Callbacks
import SearchTrust.Jobs.Revisions
import SearchTrust.Jobs.Fencing
import SearchTrust.Jobs.CallbackSoundness
import SearchTrust.Jobs.Client
import SearchTrust.Jobs.CapabilityTerminal
import SearchTrust.Jobs.Reconciler
import SearchTrust.Jobs.RecoveryMarkers
import SearchTrust.Jobs.RecoveryBarrier
import SearchTrust.Jobs.Worker
import SearchTrust.Jobs.Leases
import SearchTrust.Jobs.SingleWriter
import SearchTrust.Jobs.Heartbeats
import SearchTrust.Jobs.Registration
import SearchTrust.Costs.Ledger
import SearchTrust.Costs.LedgerRuns
import SearchTrust.Costs.ClaimLimits
import SearchTrust.Costs.Counters
import SearchTrust.Costs.Contributions
import SearchTrust.Costs.Snapshot
import SearchTrust.Costs.Outbox
import SearchTrust.Numeric.Binary64
import SearchTrust.Costs.Models
import SearchTrust.Jobs.Digest
import SearchTrust.Interleave.Procedures
import SearchTrust.Jobs.CheckpointRuns
import SearchTrust.Jobs.Staleness
import SearchTrust.Jobs.Decisions
import SearchTrust.Jobs.TerminalDecisions
import SearchTrust.Jobs.DecisionRuns
import SearchTrust.Providers.Circuit
import SearchTrust.Providers.HalfOpen
import SearchTrust.Providers.Episodes
import SearchTrust.Interleave.Answers
import SearchTrust.Providers.Search
import SearchTrust.Providers.PermitDiscipline
import SearchTrust.Providers.Attempts
import SearchTrust.Providers.AttemptRuns
import SearchTrust.Interleave.Traces
import SearchTrust.Web.UrlText
import SearchTrust.Web.Urls
import SearchTrust.Web.UrlSafety
import SearchTrust.Web.Fetchers
import SearchTrust.Web.PublicConnections
import SearchTrust.Report.Encoding
import SearchTrust.Report.Validation
import SearchTrust.Report.Identifiers
import SearchTrust.Report.JsonText
import SearchTrust.Report.ActionCatalog
import SearchTrust.Report.CopyModels
import SearchTrust.Report.CopyCatalog
import SearchTrust.Report.CopyContract
import SearchTrust.Report.Outcomes
import SearchTrust.Report.CopyClosed
import SearchTrust.Order.Scheduling
import SearchTrust.Order.Sorting
import SearchTrust.Report.CanonicalText
import SearchTrust.Report.Findings
import SearchTrust.Report.Dates
import SearchTrust.Report.ActionModels
import SearchTrust.Report.Actions
import SearchTrust.Report.CopyRequest
import SearchTrust.Report.CopyFacts
import SearchTrust.Report.CopyShortest
import SearchTrust.Report.CopySatisfiable
import SearchTrust.Partition.Components
import SearchTrust.Partition.UnionFind
import SearchTrust.Competitors.Grouping
import SearchTrust.Competitors.GroupingContract
import SearchTrust.Market.Payloads
import SearchTrust.Market.Checkpoints
import SearchTrust.Market.Normalization
import SearchTrust.Capability.Models
import SearchTrust.Capability.Priority
import SearchTrust.Capability.CandidatePriority
import SearchTrust.Capability.Reports
import SearchTrust.Capability.Deliveries
import SearchTrust.Capability.CandidateSelection
import SearchTrust.Capability.DeliveryContract
import SearchTrust.Calendar.Zones
import SearchTrust.Comparison.Windows
import SearchTrust.Comparison.Snapshots
import SearchTrust.Comparison.Compare
import SearchTrust.Comparison.CompareContract
import SearchTrust.Alignment.Comparators
import SearchTrust.Identity.Lookup
import SearchTrust.Identity.LookupRuns
import SearchTrust.Identity.LookupEvidence
import SearchTrust.Identity.LookupOrder
import SearchTrust.Identity.LookupContract
import SearchTrust.Alignment.Selection
import SearchTrust.Alignment.Build
import SearchTrust.Alignment.BuildContract
import SearchTrust.Alignment.AlignmentContract
import SearchTrust.Capability.PriorityInputs
import SearchTrust.Capability.CandidateOrder
import SearchTrust.Capability.DeliveryOrder
import SearchTrust.Inventory.Selection
import SearchTrust.Inventory.SelectionContract
import SearchTrust.Inventory.SiteUrls
import SearchTrust.Inventory.DeepPages
import SearchTrust.Inventory.DeepContract
import SearchTrust.Order.BreadthFirst
import SearchTrust.Inventory.Sitemaps
import SearchTrust.Inventory.SitemapContract
import SearchTrust.Competitors.Normalization
import SearchTrust.Competitors.Candidates
import SearchTrust.Competitors.Ranking
import SearchTrust.Order.Replacement
import SearchTrust.Competitors.RankingContract
import SearchTrust.Order.Permutations
import SearchTrust.Report.DelimitedText
import SearchTrust.Report.ActionOrder
import SearchTrust.Report.ActionSelection
import SearchTrust.Report.PlanContract
import SearchTrust.Hours.Week
import SearchTrust.Hours.WeekContract
import SearchTrust.Hours.Comparison
import SearchTrust.Competitors.PublicProfile
import SearchTrust.Competitors.PublicProfileStage
import SearchTrust.Competitors.PlaceIdentity
import SearchTrust.Findings.SerpEvidence
import SearchTrust.Findings.Decision
import SearchTrust.Findings.Market
import SearchTrust.Findings.MarketDecisions
import SearchTrust.Findings.MarketOrder
import SearchTrust.Findings.MarketContract
import SearchTrust.Order.Arena
import SearchTrust.Site.Html
import SearchTrust.Site.HtmlInvariant
import SearchTrust.Site.HtmlContract
import SearchTrust.Web.Escapes
import SearchTrust.CrossSource.Pages
import SearchTrust.CrossSource.PageSpelling
import SearchTrust.CrossSource.PageUrls
import SearchTrust.CrossSource.PageIdentity
import SearchTrust.CrossSource.PageContract
import SearchTrust.Text.JsonDecoder
import SearchTrust.Site.JsonLd
import SearchTrust.Site.JsonLdBounds
import SearchTrust.Text.JsonLexemes
import SearchTrust.Text.JsonReading
import SearchTrust.Site.JsonLdContract
import SearchTrust.Competitors.ReviewPages
import SearchTrust.CrossSource.RankCorrelation
import SearchTrust.CrossSource.Weeks
import SearchTrust.Execution.Guardrail
import SearchTrust.Execution.GuardrailContract
import SearchTrust.Google.Answers
import SearchTrust.Order.RoundRobin
import SearchTrust.Report.EvidenceLimits
import SearchTrust.Site.TagPrefix
import SearchTrust.Google.Analytics
import SearchTrust.Google.AnalyticsContract
import SearchTrust.Google.AnswersContract
import SearchTrust.Google.ProfileReplay
import SearchTrust.Locality.Audit
import SearchTrust.Locality.AuditContract
