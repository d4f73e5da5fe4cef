import AuthGateway.Common.SsrfProtection
import AuthGateway.Lib.Lowering

/-!
# service/passkey/service.go: `resolveOrigins`

The origins that a WebAuthn ceremony accepts: the ones that are configured, or else one
made of the scheme and the host of the request.  `parse` is `url.Parse`, and `none` is
an error of it.
-/

namespace AuthGateway.Service

open Common GoString

/-- `http.Request`, as far as it is read. -/
structure Request where
  /-- `r.Host` -/
  host : String
  /-- `r.TLS != nil` -/
  tls : Bool
  /-- `r.URL.Scheme` -/
  urlScheme : String
  /-- the header `X-Forwarded-Proto` -/
  forwardedProto : String
  /-- the header `X-Forwarded-Protocol` -/
  forwardedProtocol : String

variable (lower : Lowering)

def detectScheme (r : Request) : String :=
  if r.forwardedProto ≠ "" then
    toLower lower.rune (trimSpace ((split ',' r.forwardedProto).headD ""))
  else if r.tls then "https"
  else if r.urlScheme ≠ "" then toLower lower.rune r.urlScheme
  else if r.forwardedProtocol ≠ "" then toLower lower.rune (trimSpace r.forwardedProtocol)
  else "http"

/-- The loop over `originList`, with the origins so far. -/
def configuredFrom (allowInsecureOrigin : Bool) (origins : List String) :
    List String → Except String (List String)
  | [] => .ok origins
  | origin :: originList =>
    let trimmed := trimSpace origin
    if trimmed = "" then configuredFrom allowInsecureOrigin origins originList
    else if !allowInsecureOrigin && hasPrefix (toLower lower.rune trimmed) "http://" then
      .error s!"Passkey 不允许使用不安全的 Origin: {trimmed}"
    else configuredFrom allowInsecureOrigin (origins ++ [trimmed]) originList

/-- The host names this machine. -/
def namesLocalHost (host : String) : Bool :=
  host == "localhost" || host == "127.0.0.1" || hasPrefix host "127.0.0.1:" ||
    hasPrefix host "localhost:"

/-- The scheme and the host, with `ServerAddress` where the request names no host. -/
def schemeAndHost (parse : String → Option URL) (serverAddress scheme host : String) :
    String × String :=
  if host = "" ∧ serverAddress ≠ "" then
    match parse serverAddress with
    | none => (scheme, host)
    | some parsed =>
      if parsed.host = "" then (scheme, host)
      else (if scheme = "" ∧ parsed.scheme ≠ "" then parsed.scheme else scheme, parsed.host)
  else (scheme, host)

/-- From the label `autoDetect` on. -/
def autoDetect (parse : String → Option URL) (serverAddress : String) (r : Request)
    (allowInsecureOrigin : Bool) : Except String (List String) :=
  let scheme := detectScheme lower r
  if scheme == "http" && !allowInsecureOrigin && !namesLocalHost r.host then
    .error s!"Passkey 仅支持 HTTPS，当前访问: {scheme}://{r.host}，请在 Passkey 设置中允许不安全 Origin 或配置 HTTPS"
  else
    let (scheme, host) := schemeAndHost parse serverAddress scheme r.host
    if host = "" then
      .error s!"无法确定 Passkey 的 Origin，请在系统设置或 Passkey 设置中指定。当前 Host: '{r.host}', ServerAddress: '{serverAddress}'"
    else .ok [(if scheme = "" then "https" else scheme) ++ "://" ++ host]

/-- `settings.Origins` and `settings.AllowInsecureOrigin` are what is read of the settings. -/
def resolveOrigins (parse : String → Option URL) (serverAddress : String) (r : Request)
    (settingsOrigins : String) (allowInsecureOrigin : Bool) : Except String (List String) :=
  let originsStr := trimSpace settingsOrigins
  if originsStr ≠ "" then
    match configuredFrom lower allowInsecureOrigin [] (split ',' originsStr) with
    | .error err => .error err
    | .ok origins =>
      if origins.length = 0 then autoDetect lower parse serverAddress r allowInsecureOrigin
      else .ok origins
  else autoDetect lower parse serverAddress r allowInsecureOrigin

end AuthGateway.Service
