import HomeLlmGateway.Lib.Runs
import HomeLlmGateway.Lib.Assoc
import HomeLlmGateway.Lib.Changes
import HomeLlmGateway.Lib.Holding
import HomeLlmGateway.Lib.Split
import HomeLlmGateway.Lib.Url
import HomeLlmGateway.Lib.ByteCodec
import HomeLlmGateway.Lib.TokenBucket
import HomeLlmGateway.Lib.Fallible
import HomeLlmGateway.Lib.Decimal
import HomeLlmGateway.Lib.Sorted
import HomeLlmGateway.Lib.Streaks
import HomeLlmGateway.Lib.Permits
import HomeLlmGateway.Lib.Exposition
import HomeLlmGateway.Gateway.Tenant
import HomeLlmGateway.Proto.Frames
import HomeLlmGateway.Proto.Io
import HomeLlmGateway.Proto.Http
import HomeLlmGateway.Proto.HeaderText
import HomeLlmGateway.Agent.Stream
import HomeLlmGateway.Agent.Protocol
import HomeLlmGateway.Agent.Relay
import HomeLlmGateway.Agent.PathGuard
import HomeLlmGateway.Agent.Backoff
import HomeLlmGateway.Agent.Heartbeat
import HomeLlmGateway.Agent.Connection
import HomeLlmGateway.Storage.Usage
import HomeLlmGateway.Storage.UsageLedger
import HomeLlmGateway.Storage.Cache
import HomeLlmGateway.Storage.Keys
import HomeLlmGateway.Storage.Versions
import HomeLlmGateway.Storage.Revocation
import HomeLlmGateway.Storage.Attribution
import HomeLlmGateway.Storage.UsageArithmetic
import HomeLlmGateway.Storage.CacheTransparency
import HomeLlmGateway.Storage.Migration
import HomeLlmGateway.Storage.SingleFlight
import HomeLlmGateway.Storage.Users
import HomeLlmGateway.Storage.Accounts
import HomeLlmGateway.Storage.UserSync
import HomeLlmGateway.Storage.UserUpdates
import HomeLlmGateway.Storage.LastAdmin
import HomeLlmGateway.Storage.KeyRows
import HomeLlmGateway.Storage.KeyOwners
import HomeLlmGateway.Storage.KeyTenants
import HomeLlmGateway.Storage.WriteThrough
import HomeLlmGateway.Storage.Deletions
import HomeLlmGateway.Storage.Sessions
import HomeLlmGateway.Storage.SessionTables
import HomeLlmGateway.Storage.SessionRevocation
import HomeLlmGateway.Storage.UserDeletion
import HomeLlmGateway.Storage.Tenants
import HomeLlmGateway.Storage.TenantUpdates
import HomeLlmGateway.Proxy.Usage
import HomeLlmGateway.Proxy.Metering
import HomeLlmGateway.Proxy.Forward
import HomeLlmGateway.Proxy.Head
import HomeLlmGateway.Proxy.HeaderFilters
import HomeLlmGateway.Proxy.Relay
import HomeLlmGateway.Proxy.Transparency
import HomeLlmGateway.Proxy.Truncation
import HomeLlmGateway.Registry.Node
import HomeLlmGateway.Registry.Table
import HomeLlmGateway.Registry.Routing
import HomeLlmGateway.Registry.System
import HomeLlmGateway.Registry.Accounting
import HomeLlmGateway.Registry.Ownership
import HomeLlmGateway.Registry.Takeover
import HomeLlmGateway.Registry.Lineage
import HomeLlmGateway.Registry.CloseSafety
import HomeLlmGateway.Registry.Isolation
import HomeLlmGateway.Registry.Selection
import HomeLlmGateway.Registry.Authority
import HomeLlmGateway.Registry.Strikes
import HomeLlmGateway.Registry.IdleAgents
import HomeLlmGateway.Registry.Discovery
import HomeLlmGateway.Proxy.Routing
import HomeLlmGateway.Proxy.Delivery
import HomeLlmGateway.Proxy.Rejection
import HomeLlmGateway.Metrics.Admission
import HomeLlmGateway.Metrics.Tickets
import HomeLlmGateway.Http.Observability
import HomeLlmGateway.Http.Stall
import HomeLlmGateway.Http.Entry
import HomeLlmGateway.Http.RequestId
import HomeLlmGateway.Http.IndexHtml
import HomeLlmGateway.Metrics.Render
import HomeLlmGateway.Pki.Verifier
import HomeLlmGateway.Pki.Service
import HomeLlmGateway.Pki.Atomicity
import HomeLlmGateway.Pki.Pairs
import HomeLlmGateway.Pki.Download
import HomeLlmGateway.Access.Rbac
import HomeLlmGateway.Access.Cookies
import HomeLlmGateway.Access.AdminAuth
import HomeLlmGateway.Access.Logout
import HomeLlmGateway.Admin.Handlers
import HomeLlmGateway.Admin.Upkeep
import HomeLlmGateway.Admin.LimitRequests
import HomeLlmGateway.Admin.Confinement
import HomeLlmGateway.Admin.Integrity
import HomeLlmGateway.Admin.Confidentiality
import HomeLlmGateway.Admin.Bootstrap
import HomeLlmGateway.Admin.Listings
import HomeLlmGateway.Admin.ListingConfinement
import HomeLlmGateway.Gateway.Shutdown
import HomeLlmGateway.Gateway.TenantLimits
import HomeLlmGateway.Gateway.RateLimit
import HomeLlmGateway.Access.RequestLimits
import HomeLlmGateway.Access.FailedLogins
import HomeLlmGateway.Proxy.Prepare
import HomeLlmGateway.Proxy.Passage
import HomeLlmGateway.Gateway.Settlement
