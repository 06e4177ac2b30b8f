import NokincFactory.Lib.Checked
import NokincFactory.Lib.Dict
import NokincFactory.Lib.Binary64
import NokincFactory.Domain.Json
import NokincFactory.Domain.ReviewBase
import NokincFactory.Domain.Review
import NokincFactory.Domain.ReviewReport
import NokincFactory.Domain.ReviewSession
import NokincFactory.Policy.ReviewRules
import NokincFactory.Policy.ReviewFindings
import NokincFactory.Policy.ReviewReducer
import NokincFactory.Policy.Review
import NokincFactory.Lib.Runs
import NokincFactory.Policy.ReviewPersistence
import NokincFactory.Session.Ledger
import NokincFactory.Session.Replay
import NokincFactory.Session.Budget
import NokincFactory.Session.Findings
import NokincFactory.Session.Provenance
import NokincFactory.Session.Stops
import NokincFactory.Session.Progress
import NokincFactory.Lib.Pool
import NokincFactory.Domain.ReviewBudget
import NokincFactory.Adapters.PostgresReviewStore
import NokincFactory.Store.Aggregate
import NokincFactory.Lib.Traces
import NokincFactory.Domain.States
import NokincFactory.Lifecycle.Gates
import NokincFactory.Lifecycle.Redelivery
import NokincFactory.Adapters.PostgresReviewReader
import NokincFactory.Store.History
import NokincFactory.Store.Settlement
import NokincFactory.Application.Dispatch
import NokincFactory.Adapters.GithubIssues
import NokincFactory.Lifecycle.Labels
import NokincFactory.Domain.PyValue
import NokincFactory.Domain.Authorization
import NokincFactory.Approval.Digest
import NokincFactory.Approval.TwoPerson
import NokincFactory.Domain.Chat
import NokincFactory.Lib.Programs
import NokincFactory.Application.Discussion
import NokincFactory.Application.Chat
import NokincFactory.Application.InMemoryWorkflowStore
import NokincFactory.Adapters.PostgresWorkflowStore
import NokincFactory.Lib.Allowance
import NokincFactory.Chat.Metering
import NokincFactory.Chat.InMemory
import NokincFactory.Chat.Postgres
import NokincFactory.Chat.TurnBudget
import NokincFactory.Chat.Trail
import NokincFactory.Chat.Audited
import NokincFactory.Chat.Elicitation
import NokincFactory.Workflow.Serial
import NokincFactory.Workflow.InMemory
import NokincFactory.Workflow.Postgres
import NokincFactory.Workflow.Agreement
import NokincFactory.Workflow.Isolation
import NokincFactory.Lib.RowTable
import NokincFactory.Adapters.PostgresWorkflowBoxes
import NokincFactory.Workflow.BoxRules
import NokincFactory.Workflow.Outbox
import NokincFactory.Workflow.OutboxLeases
import NokincFactory.Workflow.Inbox
import NokincFactory.Domain.GateEvidence
import NokincFactory.Policy.Baseline
import NokincFactory.Session.Deliveries
import NokincFactory.Session.Repairs
import NokincFactory.Session.Reopening
import NokincFactory.Adapters.PytestProbe
import NokincFactory.Lib.Fnmatch
import NokincFactory.Policy.Impact
import NokincFactory.Lib.PythonLexer
import NokincFactory.Policy.ImpactLaws
import NokincFactory.Policy.Cosmetic
import NokincFactory.Domain.CanonicalJson
import NokincFactory.Lib.Bytes
import NokincFactory.Domain.Preflight
import NokincFactory.Preflight.Binding
import NokincFactory.Adapters.GitCaptureView
import NokincFactory.Preflight.Materialise
import NokincFactory.Domain.JsonScanner
import NokincFactory.Adapters.SubprocessToolchain
import NokincFactory.Toolchain.Splitting
import NokincFactory.Adapters.MaestroReports
import NokincFactory.Reports.Acceptance
import NokincFactory.Domain.CompactJson
import NokincFactory.Application.HmacTokenIssuer
import NokincFactory.Token.Verification
import NokincFactory.Token.RoundTrip
import NokincFactory.Domain.Identity
import NokincFactory.Policy.ReleaseSigning
import NokincFactory.Release.Promotion
import NokincFactory.Application.GroundedSchemas
import NokincFactory.Chat.Grounding
import NokincFactory.Release.DeployPilot
import NokincFactory.Release.DeployAnswers
import NokincFactory.Release.Shipping
import NokincFactory.Application.Clearance
import NokincFactory.Application.ReviewInspection
import NokincFactory.Lib.Greedy
import NokincFactory.Lib.Url
import NokincFactory.Adapters.GithubRepositoryReader
import NokincFactory.Sources.Selection
import NokincFactory.Sources.Reading
import NokincFactory.Application.Api
import NokincFactory.Api.Guard
import NokincFactory.Api.Tenancy
import NokincFactory.Lib.Form
import NokincFactory.Application.BrowserLogin
import NokincFactory.Api.Login
import NokincFactory.Api.LoginRoundTrip
