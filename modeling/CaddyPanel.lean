import CaddyPanel.Accesslog.Delivery
import CaddyPanel.Accounts.SuperAdmins
import CaddyPanel.Auth.Fleet
import CaddyPanel.Auth.Totp
import CaddyPanel.Backup.Crypto
import CaddyPanel.Backup.Scheduler
import CaddyPanel.Caddyapi.CacheApp
import CaddyPanel.Caddyapi.EmissionLaws
import CaddyPanel.Caddyapi.WafDirectives
import CaddyPanel.Dnssteer.Fairness
import CaddyPanel.Dnssteer.Plan
import CaddyPanel.Handlers.HostProof
import CaddyPanel.Handlers.LoginMethods
import CaddyPanel.Handlers.MtlsRbac
import CaddyPanel.Handlers.NodePsk
import CaddyPanel.Handlers.PeerStats
import CaddyPanel.Handlers.PortalGate
import CaddyPanel.Handlers.Reset
import CaddyPanel.Handlers.ScopeAgreement
import CaddyPanel.Handlers.SecondFactor
import CaddyPanel.Handlers.SsoJump
import CaddyPanel.Middleware.Idempotency
import CaddyPanel.Middleware.RealIP
import CaddyPanel.NodeAgent.AdminProxy
import CaddyPanel.Nodejoin.Subnets
import CaddyPanel.Quota.Accounting
import CaddyPanel.RotateSecret.Recovery
import CaddyPanel.Routes.FailoverRaces
import CaddyPanel.Routes.HttpScreen
import CaddyPanel.Routes.Incremental
import CaddyPanel.Routes.Outbox
import CaddyPanel.Routes.Ports
import CaddyPanel.Routes.Streams
import CaddyPanel.Routes.WafIsolation
import CaddyPanel.Security.Ssrf
import CaddyPanel.Webhook.Dispatch
import CaddyPanel.Wgpeer.Service
