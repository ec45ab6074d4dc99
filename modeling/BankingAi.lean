import BankingAi.Agents.Affordability
import BankingAi.Agents.Audit
import BankingAi.Agents.Base
import BankingAi.Agents.Compliance
import BankingAi.Agents.Document
import BankingAi.Agents.DocumentFields
import BankingAi.Agents.DocumentReview
import BankingAi.Agents.Fraud
import BankingAi.Agents.FraudRisk
import BankingAi.Agents.Grounding
import BankingAi.Agents.Kyc
import BankingAi.Agents.KycAge
import BankingAi.Agents.KycDates
import BankingAi.Agents.KycDecision
import BankingAi.Agents.Loan
import BankingAi.Agents.LoanRounding
import BankingAi.Agents.Orchestrator
import BankingAi.Agents.ScreeningNoise
import BankingAi.Agents.Summarization
import BankingAi.Ai.Cost
import BankingAi.Ai.Factory
import BankingAi.Ai.HashingEmbedder
import BankingAi.Ai.OpenAICompatible
import BankingAi.Ai.PriceLookup
import BankingAi.Ai.ProviderContract
import BankingAi.Ai.Providers
import BankingAi.Ai.Router
import BankingAi.Ai.Routing
import BankingAi.Ai.Types
import BankingAi.Ai.VectorRanking
import BankingAi.Ai.VectorSearch
import BankingAi.Ai.VectorStore
import BankingAi.Api.Approvers
import BankingAi.Api.Auth
import BankingAi.Api.AuthenticatedRuns
import BankingAi.Api.Bootstrap
import BankingAi.Api.Citations
import BankingAi.Api.DocumentIndex
import BankingAi.Api.Documents
import BankingAi.Api.ExceptionHandlers
import BankingAi.Api.Integrity
import BankingAi.Api.Ledger
import BankingAi.Api.Listings
import BankingAi.Api.Middleware
import BankingAi.Api.Reads
import BankingAi.Api.RefreshReplay
import BankingAi.Api.RequestRuns
import BankingAi.Api.ReviewQueue
import BankingAi.Api.Revocation
import BankingAi.Api.RunRecords
import BankingAi.Api.Search
import BankingAi.Api.SearchIndex
import BankingAi.Api.StoredFiles
import BankingAi.Api.UploadColumns
import BankingAi.Api.WorkflowColumns
import BankingAi.Api.Workflows
import BankingAi.Core.Config
import BankingAi.Core.Errors
import BankingAi.Core.Rbac
import BankingAi.Core.Security
import BankingAi.Core.Token
import BankingAi.Core.Uuid
import BankingAi.Db.Columns
import BankingAi.Db.Document
import BankingAi.Db.Workflow
import BankingAi.Json
import BankingAi.Json.Access
import BankingAi.Json.Dumps
import BankingAi.Json.Escape
import BankingAi.Json.Mask
import BankingAi.Lib.Annuity
import BankingAi.Lib.Calendar
import BankingAi.Lib.Constraint
import BankingAi.Lib.Delimited
import BankingAi.Lib.Dict
import BankingAi.Lib.DictHistory
import BankingAi.Lib.Dot
import BankingAi.Lib.Fallible
import BankingAi.Lib.FindOrCreate
import BankingAi.Lib.History
import BankingAi.Lib.Machine
import BankingAi.Lib.Paging
import BankingAi.Lib.Pattern
import BankingAi.Lib.PosixPath
import BankingAi.Lib.PythonDate
import BankingAi.Lib.PythonInt
import BankingAi.Lib.PythonLines
import BankingAi.Lib.PythonStr
import BankingAi.Lib.RunningMax
import BankingAi.Lib.Session
import BankingAi.Lib.Table
import BankingAi.Lib.Unicode
import BankingAi.Lib.Utf8
import BankingAi.Lib.Windows
import BankingAi.Review.Case
import BankingAi.Services.AgentAdapters
import BankingAi.Services.AgentExecutor
import BankingAi.Services.AuditService
import BankingAi.Services.Chunking
import BankingAi.Services.CostAccounting
import BankingAi.Services.DecideRace
import BankingAi.Services.DecideRaceSafety
import BankingAi.Services.DecideSpec
import BankingAi.Services.DecideView
import BankingAi.Services.DocumentService
import BankingAi.Services.IngestSpec
import BankingAi.Services.Observer
import BankingAi.Services.Redaction
import BankingAi.Services.Seed
import BankingAi.Services.SeedClosure
import BankingAi.Services.SeedSpec
import BankingAi.Services.StartOutcome
import BankingAi.Services.StartSpec
import BankingAi.Services.StorageService
import BankingAi.Services.TokenService
import BankingAi.Services.Traceability
import BankingAi.Services.UserService
import BankingAi.Services.WorkflowInvariants
import BankingAi.Services.WorkflowRuns
import BankingAi.Services.WorkflowService
import BankingAi.Worker.RunnersAgree
import BankingAi.Worker.Workflows
