import KitchenSense.Api.Accountability
import KitchenSense.Api.Admission
import KitchenSense.Api.Entrance
import KitchenSense.Api.Inventory
import KitchenSense.Api.Progress
import KitchenSense.Api.Provenance
import KitchenSense.Api.Receipts
import KitchenSense.Api.Responses
import KitchenSense.Api.Schemas
import KitchenSense.Api.Security
import KitchenSense.Api.Separation
import KitchenSense.Api.Service
import KitchenSense.Api.UploadService
import KitchenSense.Api.Uploads
import KitchenSense.Api.Visibility
import KitchenSense.Auth.CurrentKeys
import KitchenSense.Auth.Discovery
import KitchenSense.Auth.KeySource
import KitchenSense.Auth.Principal
import KitchenSense.Auth.Progress
import KitchenSense.Auth.RateLimit
import KitchenSense.Auth.Refusals
import KitchenSense.Auth.Rotation
import KitchenSense.Auth.Verifier
import KitchenSense.Concurrency.Append
import KitchenSense.Concurrency.Confirm
import KitchenSense.Concurrency.FirstSight
import KitchenSense.Concurrency.LateCommits
import KitchenSense.Concurrency.Projections
import KitchenSense.Concurrency.RowLocks
import KitchenSense.Concurrency.Server
import KitchenSense.Concurrency.Watermark
import KitchenSense.Database.Statements
import KitchenSense.Database.Tables
import KitchenSense.Domain.Fold
import KitchenSense.Domain.GroupBy
import KitchenSense.Domain.Household
import KitchenSense.Domain.Inventory
import KitchenSense.Domain.Merge
import KitchenSense.Domain.Receipts
import KitchenSense.Domain.Values
import KitchenSense.Domain.WellFormed
import KitchenSense.Foundations.Dict
import KitchenSense.Foundations.Json
import KitchenSense.Foundations.Ledger
import KitchenSense.Foundations.Progress
import KitchenSense.Foundations.Relational
import KitchenSense.Foundations.Runs
import KitchenSense.Foundations.Scientific
import KitchenSense.Foundations.Segments
import KitchenSense.Foundations.Text
import KitchenSense.Foundations.Transaction
import KitchenSense.Migrations.Triggers
import KitchenSense.Migrations.Versions
import KitchenSense.Migrations.Walks
import KitchenSense.Projection.Columns
import KitchenSense.Projection.Incremental
import KitchenSense.Projection.Queries
import KitchenSense.Projection.Refinement
import KitchenSense.Projection.Replay
import KitchenSense.Projection.Store
import KitchenSense.Projection.Windows
import KitchenSense.Provider.BackOff
import KitchenSense.Provider.Calls
import KitchenSense.Provider.Database
import KitchenSense.Provider.Engines
import KitchenSense.Provider.Progress
import KitchenSense.Provider.Session
import KitchenSense.Provider.Status
import KitchenSense.Repositories.Effects
import KitchenSense.Repositories.Households
import KitchenSense.Repositories.Inventory
import KitchenSense.Repositories.Receipts
import KitchenSense.Storage.BlobNames
import KitchenSense.Storage.BlobStore
import KitchenSense.Storage.KeyLifetime
import KitchenSense.Tenancy.Isolation
import KitchenSense.Tenancy.Noninterference
import KitchenSense.Tenancy.Operations
