import CaddyPanel.Caddy.Handlers
import CaddyPanel.Caddyapi.TenantTemplate

/-!
# Routes of the panel (`caddyapi.Route`)

The record that the panel compiles into a route of the web server, and the small functions on its
strings. `Helpers` stands for functions of other packages; every result holds for all of them.
-/

namespace Caddyapi

open Text (Str trimSpace toLower)

inductive Kind where
  | proxy
  | redirect
  deriving DecidableEq

/-- `route_location_rules.action`. -/
inductive Action where
  | proxy
  | redirect
  | block
  | rewrite
  deriving DecidableEq

structure LocationRule where
  path : Str
  action : Action
  upstreamHost : Str := []
  upstreamPort : Int := 0
  upstreamScheme : Str := []
  pinnedSNI : Str := []
  redirectURL : Str := []
  redirectCode : Nat := 0
  rewriteURI : Str := []
  deriving DecidableEq

structure Upstream where
  host : Str
  port : Int
  weight : Int := 1
  maxRequests : Int := 0
  deriving DecidableEq

structure MTLSPathRule where
  pathPattern : Str
  requiredRole : Str
  deriving DecidableEq

structure ErrorBranding where
  brand : Str := []
  logoURL : Str := []
  logoLink : Str := []
  bgColor : Str := []
  deriving DecidableEq

/-- The fields that `BuildRoute` and the emission screen read. -/
structure Route where
  id : Str
  hosts : List Str
  pathPrefix : Str := []
  upstreamIP : Str := []
  upstreamPort : Int := 0
  isPanelSelfRoute : Bool := false
  backendResolver : Str := []
  resolveNodeSide : Bool := false
  upstreamScheme : Str := []
  upstreamSkipTLSVerify : Bool := false
  webSocket : Bool := false
  forceHTTPS : Bool := false
  headers : List (Str × Str) := []
  kind : Kind := .proxy
  redirectURL : Str := []
  redirectCode : Nat := 0
  cacheEnabled : Bool := false
  cacheTTLSeconds : Int := 0
  cachePublic : Bool := false
  cacheVary : List Str := []
  cacheModuleAvailable : Bool := false
  maintenanceMode : Bool := false
  maintenanceMessage : Str := []
  accessAllow : List Str := []
  accessDeny : List Str := []
  accessBlockAll : Bool := false
  maintenanceAllow : List Str := []
  basicAuthUser : Str := []
  basicAuthBcrypt : Str := []
  /-- user name and bcrypt hash -/
  basicAuthUsers : List (Str × Str) := []
  ssoProviderURL : Str := []
  ssoCopyHeaders : List Str := []
  ssoPaths : List Str := []
  ssoHosts : List Str := []
  ssoResolver : Str := []
  ssoStrictMode : Bool := false
  external : Bool := false
  externalWildcard : Bool := false
  upstreamSNI : Str := []
  upstreamHostHeader : Str := []
  pinnedSNI : Str := []
  proxySecret : Str := []
  errorBranding : ErrorBranding := {}
  customErrorOverride : Bool := false
  customErrorHTML : Str := []
  customErrorBranding : ErrorBranding := {}
  portalPublicPaths : List Str := []
  portalNoGrants : Bool := false
  customHandlers : Str := []
  compressDisabled : Bool := false
  stripPathPrefix : Bool := false
  upstreamPathPrefix : Str := []
  upstreams : List Upstream := []
  locationRules : List LocationRule := []
  lbPolicy : Str := []
  weightedLBAvailable : Bool := false
  lbHeaderField : Str := []
  lbCookieName : Str := []
  lbCookieSecret : Str := []
  lbTryDurationMs : Int := 0
  lbTryIntervalMs : Int := 0
  dialTimeoutMs : Int := 0
  responseHeaderTimeoutMs : Int := 0
  healthURI : Str := []
  healthIntervalSecs : Int := 0
  healthTimeoutSecs : Int := 0
  healthExpectStatus : Int := 0
  healthFails : Int := 0
  healthPassive : Bool := false
  healthFailDurationSecs : Int := 0
  healthMaxFails : Int := 0
  rateLimitEnabled : Bool := false
  rateLimitWindow : Str := []
  rateLimitMaxEvents : Int := 0
  rateLimitKey : Str := []
  rateLimitModuleAvailable : Bool := false
  wafEnabled : Bool := false
  wafBlocking : Bool := false
  wafDirectives : Str := []
  wafModuleAvailable : Bool := false
  wafFailOpen : Bool := false
  geoMode : Str := []
  geoCountries : Str := []
  geoModuleAvailable : Bool := false
  geoResponseCode : Nat := 0
  geoFailClosed : Bool := false
  geoAllowCIDRs : Str := []
  geoContinents : Str := []
  geoBlockCIDRs : Str := []
  geoBlockAction : Str := []
  geoRedirectURL : Str := []
  geoBlockTitle : Str := []
  geoBlockMessage : Str := []
  geoBlockBranding : ErrorBranding := {}
  outboundIPMode : Str := []
  outboundIP : Str := []
  dnsResolverIP : Str := []
  dnsResolverViaWGPeerIP : Str := []
  dnsAddressFamily : Str := []
  portalProtect : Bool := false
  portalDial : Str := []
  portalTLS : Bool := false
  portalSNI : Str := []
  portalDenyOnMisconfig : Bool := false
  requireClientCert : Bool := false
  mtlsCACertPEM : Str := []
  mtlsDenyOnMisconfig : Bool := false
  mtlsRevokedFingerprints : List Str := []
  tlsPQOnly : Bool := false
  mtlsPathRules : List MTLSPathRule := []
  panelBaseURL : Str := []
  rbacNodeID : Nat := 0
  rbacToken : Str := []
  wildcardZone : Str := []

/-- What a stored custom chain may hold once the allow-list has passed it. -/
inductive Shaping where
  | headers (request response : Caddy.HeaderOps)
  | encode (config : Str)
  | rewrite (rewrite : Caddy.Rewrite)
  | vars (config : Str)
  | requestBody (config : Str)

def Shaping.handler : Shaping → Caddy.Handler
  | .headers request response => .headers request response
  | .encode config => .encode config
  | .rewrite r => .rewrite r
  | .vars config => .vars config
  | .requestBody config => .requestBody config

/-- Functions of other packages and of other files. -/
structure Helpers where
  /-- `net.ParseIP` answers an address -/
  isIP : Str → Bool
  /-- `net.ParseCIDR` answers a network -/
  isCIDR : Str → Bool
  /-- `SanitizeCustomHandlers` and the decoded chain -/
  sanitizeCustomHandlers : Str → Except Str (List Shaping)
  customHandlersAuth : Str → Bool
  screenReplacerValue : Str → Except Str Unit
  sanitizeWAFDirectives : Str → Str
  renderErrorPage : Nat → Str → Str → ErrorBranding → Str
  maintenanceBody : Str → ErrorBranding → Str
  statusText : Nat → Str
  countriesInContinent : Str → List Str
  /-- host, port and scheme of a URL that has a host -/
  parseURL : Str → Option (Str × Str × Str)
  quoteMeta : Str → Str
  /-- `strconv.ParseInt` and back -/
  normalizeID : Str → Option Str

/-- Packages that find nothing to reject. -/
def plainHelpers : Helpers where
  isIP := fun _ => false
  isCIDR := fun _ => false
  sanitizeCustomHandlers := fun _ => .ok []
  customHandlersAuth := fun _ => false
  screenReplacerValue := fun _ => .ok ()
  sanitizeWAFDirectives := id
  renderErrorPage := fun _ _ _ _ => []
  maintenanceBody := fun _ _ => []
  statusText := fun _ => []
  countriesInContinent := fun _ => []
  parseURL := fun _ => none
  quoteMeta := id
  normalizeID := some

end Caddyapi
