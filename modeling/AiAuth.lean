import AiAuth.Library.Runs
import AiAuth.Library.Dict
import AiAuth.Library.OneTime
import AiAuth.Library.Bytes
import AiAuth.Library.Base64
import AiAuth.Library.Url
import AiAuth.Library.UrlBase
import AiAuth.Library.TokenBucket
import AiAuth.Library.Time
import AiAuth.Library.P256
import AiAuth.Library.Json
import AiAuth.Library.Jws
import AiAuth.Http
import AiAuth.Registry
import AiAuth.Authorize
import AiAuth.Codes
import AiAuth.Tokens
import AiAuth.Dpop
import AiAuth.TokenEndpoint
import AiAuth.Sessions
import AiAuth.SessionRuns
import AiAuth.ReplayRuns
import AiAuth.SenderConstraint
import AiAuth.RequestBinding
import AiAuth.Limits
import AiAuth.LimitRuns
import AiAuth.LimitIsolation
import AiAuth.Library.Aead
import AiAuth.Messages
import AiAuth.Login
import AiAuth.Context
import AiAuth.Webauthn
import AiAuth.Software
import AiAuth.Service
import AiAuth.Envelope
import AiAuth.LoginFlow
import AiAuth.LoginProvenance
import AiAuth.SingleUse
import AiAuth.CodeFlow
import AiAuth.CloneDetection
import AiAuth.Logout
import AiAuth.Library.Thinned
import AiAuth.Store
import AiAuth.RevocationStores
import AiAuth.CodeStores
import AiAuth.KeyOperations
import AiAuth.CredentialPrivacy
import AiAuth.Library.UrlShape
import AiAuth.Library.UrlEscape
import AiAuth.Library.UrlHost
import AiAuth.Library.UrlRoundTrip
import AiAuth.Registration
import AiAuth.OpenRedirect
import AiAuth.Discovery
import AiAuth.Library.JsonText
import AiAuth.AuditLog
import AiAuth.Library.Scan
import AiAuth.Library.Grammar
import AiAuth.Library.Proto3
import AiAuth.SchemaGuard
import AiAuth.SchemaSoundness
import AiAuth.Acceptance
import AiAuth.LoginRequests
import AiAuth.FailedLogins
import AiAuth.ReplayCalls
import AiAuth.PendingCeremonies
import AiAuth.LimitEviction
import AiAuth.CryptoFailures
import AiAuth.TokenRoundTrip
import AiAuth.Library.Frames
import AiAuth.Library.Quote
import AiAuth.Framing
import AiAuth.RevocationPrivacy
import AiAuth.KeyEncodings
import AiAuth.Library.Machine
import AiAuth.GuardRuns
import AiAuth.LimitLoad
import AiAuth.TenantIsolation
import AiAuth.ReleaseBudget
import AiAuth.TokenSignatures
import AiAuth.HonestLogin
import AiAuth.DurableRevocation
import AiAuth.Server
import AiAuth.ServerFlow
import AiAuth.Startup
import AiAuth.GuardClient
import AiAuth.Sweeps
import AiAuth.CodeDelivery
import AiAuth.CodeReplicas
import AiAuth.Library.Tables
import AiAuth.Grants
import AiAuth.SharedStores
