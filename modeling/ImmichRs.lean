import ImmichRs.Application.Archive
import ImmichRs.Calendar.Dates
import ImmichRs.Calendar.Instants
import ImmichRs.Calendar.Rfc3339
import ImmichRs.Client.Archive
import ImmichRs.Client.ArchiveListing
import ImmichRs.Client.Endpoint
import ImmichRs.Client.Membership
import ImmichRs.Client.Migration
import ImmichRs.Client.Paging
import ImmichRs.Client.Requests
import ImmichRs.Client.Timestamps
import ImmichRs.Collections.Keyed
import ImmichRs.Collections.Maps
import ImmichRs.Collections.Newest
import ImmichRs.Collections.SlidingWindow
import ImmichRs.Collections.Sorting
import ImmichRs.Collections.Tally
import ImmichRs.Core.Archive
import ImmichRs.Core.Json
import ImmichRs.Core.JsonText
import ImmichRs.Core.Metadata
import ImmichRs.Core.Migration
import ImmichRs.Core.Planning
import ImmichRs.Core.Production
import ImmichRs.Core.Sha1
import ImmichRs.Core.Sha256
import ImmichRs.Core.Text
import ImmichRs.Core.Timestamps
import ImmichRs.Core.Totals
import ImmichRs.Core.Upload
import ImmichRs.Encoding.Json
import ImmichRs.Encoding.Splitting
import ImmichRs.Executor.Accounting
import ImmichRs.Executor.AccountingRun
import ImmichRs.Executor.Apply
import ImmichRs.Executor.ApplyResume
import ImmichRs.Executor.ApplyTrace
import ImmichRs.Executor.ArchiveApply
import ImmichRs.Executor.ArchiveOutcome
import ImmichRs.Executor.ArchivePaths
import ImmichRs.Executor.ArchivePlan
import ImmichRs.Executor.ArchiveResults
import ImmichRs.Executor.ArchiveRuns
import ImmichRs.Executor.Calls
import ImmichRs.Executor.Cancellation
import ImmichRs.Executor.Checkpoint
import ImmichRs.Executor.Config
import ImmichRs.Executor.ImportAlbums
import ImmichRs.Executor.ImportApply
import ImmichRs.Executor.ImportCancellation
import ImmichRs.Executor.ImportEffects
import ImmichRs.Executor.ImportJournal
import ImmichRs.Executor.ImportMembership
import ImmichRs.Executor.ImportOutcome
import ImmichRs.Executor.ImportPlanner
import ImmichRs.Executor.ImportResume
import ImmichRs.Executor.ImportRows
import ImmichRs.Executor.ImportRun
import ImmichRs.Executor.ImportStaging
import ImmichRs.Executor.ImportSteps
import ImmichRs.Executor.ImportTrace
import ImmichRs.Executor.LocalChecks
import ImmichRs.Executor.MigrationExecution
import ImmichRs.Executor.MigrationPlan
import ImmichRs.Executor.MigrationStaging
import ImmichRs.Executor.Operation
import ImmichRs.Executor.Planner
import ImmichRs.Executor.RetryBudget
import ImmichRs.Executor.Schedule
import ImmichRs.Executor.SourceBinding
import ImmichRs.Executor.Staging
import ImmichRs.Executor.StagingRuns
import ImmichRs.Executor.Verify
import ImmichRs.Files.Contents
import ImmichRs.Files.Directory
import ImmichRs.Files.Tree
import ImmichRs.Interaction.Broadcast
import ImmichRs.Interaction.Concurrent
import ImmichRs.Interaction.Evaluation
import ImmichRs.Interaction.Fallible
import ImmichRs.Interaction.History
import ImmichRs.Interaction.Interleaving
import ImmichRs.Interaction.Interruption
import ImmichRs.Interaction.Loops
import ImmichRs.Interaction.Machine
import ImmichRs.Interaction.Pool
import ImmichRs.Interaction.Program
import ImmichRs.Sources.Adapters
import ImmichRs.Sources.Albums
import ImmichRs.Sources.Aliases
import ImmichRs.Sources.ApplePhotos
import ImmichRs.Sources.Archive
import ImmichRs.Sources.Association
import ImmichRs.Sources.Collapse
import ImmichRs.Sources.Discovery
import ImmichRs.Sources.FilenameDates
import ImmichRs.Sources.Fingerprint
import ImmichRs.Sources.IndexedNames
import ImmichRs.Sources.IniSections
import ImmichRs.Sources.Lawful
import ImmichRs.Sources.LivePhotos
import ImmichRs.Sources.Locations
import ImmichRs.Sources.Matching
import ImmichRs.Sources.OrderIndependence
import ImmichRs.Sources.Picasa
import ImmichRs.Sources.Produced
import ImmichRs.Sources.Reconcile
import ImmichRs.Sources.Refreshed
import ImmichRs.Sources.Scan
import ImmichRs.Sources.Scanned
import ImmichRs.Sources.Sidecars
import ImmichRs.Sources.State
import ImmichRs.Sources.Streaming
import ImmichRs.Sources.Takeout
import ImmichRs.Sources.Touched
import ImmichRs.Sources.Validity
import ImmichRs.Web.CancelledJobs
import ImmichRs.Web.ChannelLogs
import ImmichRs.Web.Coherence
import ImmichRs.Web.Console
import ImmichRs.Web.Deliveries
import ImmichRs.Web.EventLogs
import ImmichRs.Web.GrantRuns
import ImmichRs.Web.Grants
import ImmichRs.Web.HistoryStore
import ImmichRs.Web.JobCancellation
import ImmichRs.Web.JobRuns
import ImmichRs.Web.JobSteps
import ImmichRs.Web.JobWork
import ImmichRs.Web.Jobs
import ImmichRs.Web.Limits
import ImmichRs.Web.Oidc
import ImmichRs.Web.OidcRuns
import ImmichRs.Web.PlanFaults
import ImmichRs.Web.PlanRuns
import ImmichRs.Web.PlanSharing
import ImmichRs.Web.PlanStore
import ImmichRs.Web.PlanWriters
import ImmichRs.Web.Receipts
import ImmichRs.Web.Resume
import ImmichRs.Web.ServerProfiles
import ImmichRs.Web.SessionRuns
import ImmichRs.Web.SessionSteps
import ImmichRs.Web.Sessions
import ImmichRs.Web.Store
import ImmichRs.Web.SubscriptionRuns
import ImmichRs.Web.Subscriptions
import ImmichRs.Web.TerminalHistory
import ImmichRs.Web.UploadWorkflows
import ImmichRs.Web.Wakeups
import ImmichRs.Web.Workers
