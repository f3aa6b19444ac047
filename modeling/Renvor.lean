import Renvor.Foundation.TransitionSystem
import Renvor.Foundation.Windows
import Renvor.Foundation.Digraph
import Renvor.Foundation.OrderedMap
import Renvor.Foundation.RowSet
import Renvor.Foundation.Paging
import Renvor.Foundation.Transaction
import Renvor.Foundation.LockedTable
import Renvor.Foundation.Interleaving
import Renvor.Kernel.Error
import Renvor.Config.Merge
import Renvor.Config.Settings
import Renvor.Config.MergeLaws
import Renvor.Config.MergeResult
import Renvor.Config.Environment
import Renvor.Config.EnvironmentLayer
import Renvor.Config.Decode
import Renvor.Config.DecodeLaws
import Renvor.Kernel.Arithmetic
import Renvor.Kernel.Entropy
import Renvor.Database.Error
import Renvor.Database.Engine
import Renvor.Foundation.Quoted
import Renvor.Database.Page
import Renvor.Database.PageText
import Renvor.Lifecycle.Phase
import Renvor.Lifecycle.Drain
import Renvor.Lifecycle.Application
import Renvor.Lifecycle.Rollback
import Renvor.Provider.Registry
import Renvor.Provider.Graph
import Renvor.Provider.Resolve
import Renvor.Jobs.Job
import Renvor.Jobs.Table
import Renvor.Jobs.Answers
import Renvor.Jobs.Memory
import Renvor.Jobs.MemoryInvariant
import Renvor.Jobs.Leases
import Renvor.Jobs.Indexes
import Renvor.Jobs.Attempts
import Renvor.Jobs.SqlRow
import Renvor.Jobs.Sql
import Renvor.Jobs.SqlStatements
import Renvor.Jobs.SqlRefinement
import Renvor.Jobs.Agreement
import Renvor.Jobs.Failures
import Renvor.Jobs.Depth
import Renvor.Auth.Refresh
import Renvor.Auth.RefreshStore
import Renvor.Auth.RefreshProtocol
import Renvor.Auth.RefreshOutline
import Renvor.Auth.RefreshRuns
import Renvor.Auth.RefreshFamilies
import Renvor.Auth.Error
import Renvor.Auth.Opaque
import Renvor.Auth.Scope
import Renvor.Auth.Lifetime
import Renvor.Auth.AccessToken
import Renvor.Auth.Admission
import Renvor.Auth.RefreshRotation
import Renvor.Auth.RefreshChains
import Renvor.Auth.Audit
import Renvor.Auth.Abuse
import Renvor.Auth.AttemptStore
import Renvor.Auth.AttemptStatements
import Renvor.Auth.AttemptCounts
import Renvor.Foundation.Machine
import Renvor.Auth.AttemptPruning
import Renvor.Foundation.Concurrent
import Renvor.Auth.Columns
import Renvor.Auth.Cookie
import Renvor.Auth.SessionStore
import Renvor.Auth.Session
import Renvor.Auth.SessionStages
import Renvor.Auth.SessionRows
import Renvor.Auth.SessionRuns
import Renvor.Auth.SessionLogout
import Renvor.Auth.SessionReplacement
import Renvor.Auth.SessionBound
import Renvor.Auth.AccountStore
import Renvor.Auth.Accounts
import Renvor.Auth.Registration
import Renvor.Auth.UserAgreement
import Renvor.Http.Origin
import Renvor.Auth.Logout
import Renvor.Auth.SessionOrder
import Renvor.Auth.LogoutProtection
import Renvor.Generate.Filesystem
import Renvor.Generate.Place
import Renvor.Generate.PlaceStages
import Renvor.Generate.PlaceRuns
import Renvor.Generate.Placement
import Renvor.Kernel.Address
import Renvor.Http.Forwarded
import Renvor.Http.Identity
import Renvor.Foundation.Loop
import Renvor.Retry.Retry
import Renvor.Retry.Timeline
import Renvor.Retry.Bounds
import Renvor.Metrics.Registry
import Renvor.Metrics.Accounts
import Renvor.Auth.AttemptBursts
import Renvor.Foundation.FileTree
import Renvor.Storage.Port
import Renvor.Storage.Memory
import Renvor.Storage.Filesystem
import Renvor.Storage.Agreement
import Renvor.Http.Route
import Renvor.Http.RouteRegistry
import Renvor.Http.RouteBuild
import Renvor.Http.Authority
import Renvor.Http.SerialisedOrigin
import Renvor.Http.OriginGrammar
import Renvor.Foundation.Expiry
import Renvor.Cache.Port
import Renvor.Cache.Memory
import Renvor.Cache.MemoryRuns
import Renvor.Foundation.Digits
import Renvor.Foundation.Calendar
import Renvor.Foundation.Gregorian
import Renvor.Generate.Migration
import Renvor.Generate.Clock
import Renvor.Generate.MigrationVersions
import Renvor.Foundation.Base64
import Renvor.Foundation.BigEndian
import Renvor.Validation.Cursor
import Renvor.Validation.Issue
import Renvor.Validation.Collection
import Renvor.Validation.CollectionLaws
import Renvor.Database.Keyset
import Renvor.Database.PageReads
import Renvor.Foundation.Utf8
import Renvor.Foundation.Delimited
import Renvor.Generate.Digest
import Renvor.Generate.DigestTexts
import Renvor.Auth.TokenVerify
import Renvor.Auth.TokenAcceptance
import Renvor.Foundation.Binary64
import Renvor.Validation.Decimal
import Renvor.Storage.ObjectFile
import Renvor.Toolchain.WindowsTokens
import Renvor.Database.Migrate
import Renvor.Database.MigrateRuns
import Renvor.Foundation.Binary64Digits
import Renvor.Metrics.Prometheus
import Renvor.Metrics.Exposition
import Renvor.Metrics.Numerals
import Renvor.Metrics.Rendered
import Renvor.Metrics.Samples
import Renvor.Jobs.Worker
import Renvor.Jobs.WorkerRuns
import Renvor.Jobs.WorkerAccounts
import Renvor.Output.Redact
import Renvor.Output.RedactPairs
import Renvor.Kernel.ErrorContext
import Renvor.Kernel.ErrorContextLaws
import Renvor.Foundation.Marks
import Renvor.Foundation.Replacement
import Renvor.Generate.Seal
import Renvor.Generate.SealLaws
import Renvor.Generate.ChildOutput
import Renvor.Generate.ChildOutputLaws
import Renvor.Generate.ChildOutputTexts
import Renvor.Foundation.Json
import Renvor.Foundation.JsonRead
import Renvor.Foundation.MapEntries
import Renvor.Observe.JsonEvent
import Renvor.Observe.EventRecord
import Renvor.Observe.EventLines
import Renvor.Observe.EventReads
