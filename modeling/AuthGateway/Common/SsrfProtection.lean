import AuthGateway.Lib.HostPort
import AuthGateway.Lib.IpAddress

/-!
# common/ssrf_protection.go

What a URL is checked against before it is fetched: its port, and its address or its
domain.  `NetLib` stands for what is called of `net` and `net/url` to read a URL, an
address, or a block, and to ask DNS.
-/

namespace AuthGateway.Common

open GoString Net

/-- `url.URL`, as far as it is read here. -/
structure URL where
  scheme : String
  host : String

/-- The calls into `net/url` and `net`. -/
structure NetLib where
  /-- `url.Parse` -/
  parse : String → Except String URL
  parseIP : String → Option IP
  parseCIDR : String → Option IPNet
  lookupIP : String → Except String (List IP)

structure SSRFProtection where
  allowPrivateIp : Bool
  /-- `true` is a whitelist, `false` a blacklist -/
  domainFilterMode : Bool
  domainList : List String
  ipFilterMode : Bool
  ipList : List String
  allowedPorts : List Int
  applyIPFilterForDomain : Bool

/-! ### Addresses -/

/-- `private`. -/
def privateNets : List IPNet :=
  [⟨ipv4 10 0 0 0, cidrMask 8 4⟩, ⟨ipv4 172 16 0 0, cidrMask 12 4⟩,
    ⟨ipv4 192 168 0 0, cidrMask 16 4⟩, ⟨ipv4 127 0 0 0, cidrMask 8 4⟩,
    ⟨ipv4 169 254 0 0, cidrMask 16 4⟩, ⟨ipv4 224 0 0 0, cidrMask 4 4⟩,
    ⟨ipv4 240 0 0 0, cidrMask 4 4⟩]

def isPrivateIP (ip : IP) : Bool :=
  if ip.isLoopback || ip.isLinkLocalUnicast || ip.isLinkLocalMulticast then true
  else if privateNets.any fun privateNet => privateNet.contains ip then true
  else if ip.to4.isNone then
    if ip.equal ipv6loopback then true
    else if hasPrefix ip.string "fe80:" then true
    else hasPrefix ip.string "fc" || hasPrefix ip.string "fd"
  else false

def isIPListed (net : NetLib) (ip : IP) (list : List String) : Bool :=
  list.any fun whitelistCIDR =>
    match net.parseCIDR whitelistCIDR with
    | some network => network.contains ip
    | none =>
      match net.parseIP whitelistCIDR with
      | some whitelistIP => ip.equal whitelistIP
      | none => false

def SSRFProtection.isIPAccessAllowed (p : SSRFProtection) (net : NetLib) (ip : IP) : Bool :=
  if isPrivateIP ip && !p.allowPrivateIp then false
  else if p.ipFilterMode then isIPListed net ip p.ipList
  else !isIPListed net ip p.ipList

/-! ### Ports -/

/-- `for port := startPort; port <= endPort; port++`. -/
def portsFrom (startPort endPort : Int) : List Int :=
  (List.range (endPort - startPort + 1).toNat).map fun (i : Nat) => startPort + i

/-- The ports of one entry, which is trimmed and not blank. -/
def parsePortEntry (config : String) : Except String (List Int) :=
  if contains config '-' then
    match split '-' config with
    | [first, second] =>
      match atoi (trimSpace first) with
      | (_, some err) =>
        .error s!"invalid start port in range {config}: {err.text (trimSpace first)}"
      | (startPort, none) =>
        match atoi (trimSpace second) with
        | (_, some err) =>
          .error s!"invalid end port in range {config}: {err.text (trimSpace second)}"
        | (endPort, none) =>
          if startPort > endPort then
            .error s!"invalid port range {config}: start port cannot be greater than end port"
          else if startPort < 1 ∨ startPort > 65535 ∨ endPort < 1 ∨ endPort > 65535 then
            .error s!"port range {config} contains invalid port numbers (must be 1-65535)"
          else .ok (portsFrom startPort endPort)
    | _ => .error s!"invalid port range format: {config}"
  else
    match atoi config with
    | (_, some _) => .error s!"invalid port number: {config}"
    | (port, none) =>
      if port < 1 ∨ port > 65535 then
        .error s!"invalid port number {itoa port} (must be 1-65535)"
      else .ok [port]

/-- The loop of `parsePortRanges`, with the ports so far. -/
def parsePortsFrom (ports : List Int) : List String → Except String (List Int)
  | [] => .ok ports
  | config :: portConfigs =>
    if trimSpace config = "" then parsePortsFrom ports portConfigs
    else
      match parsePortEntry (trimSpace config) with
      | .error err => .error err
      | .ok more => parsePortsFrom (ports ++ more) portConfigs

def parsePortRanges (portConfigs : List String) : Except String (List Int) :=
  parsePortsFrom [] portConfigs

def SSRFProtection.isAllowedPort (p : SSRFProtection) (port : Int) : Bool :=
  if p.allowedPorts.length = 0 then true else p.allowedPorts.any fun allowed => port == allowed

/-! ### Domains -/

section Domains

variable (lower : Char → Char)

/-- Does an entry, trimmed and in lower case, cover the domain? -/
def covers (item domain : String) : Bool :=
  if item = "" then false
  else if domain = item then true
  else if hasPrefix item "*." then
    let suffix := String.ofList (item.toList.drop 2)
    hasSuffix domain ("." ++ suffix) || domain == suffix
  else false

def isDomainListed (domain : String) (list : List String) : Bool :=
  list.any fun item => covers (toLower lower (trimSpace item)) (toLower lower domain)

def SSRFProtection.isDomainAllowed (p : SSRFProtection) (domain : String) : Bool :=
  if p.domainFilterMode then isDomainListed lower domain p.domainList
  else !isDomainListed lower domain p.domainList

/-! ### URLs -/

/-- Every address of a domain has to pass. -/
def SSRFProtection.checkIPs (p : SSRFProtection) (net : NetLib) (host : String) :
    List IP → Except String Unit
  | [] => .ok ()
  | ip :: ips =>
    if !p.isIPAccessAllowed net ip then
      if isPrivateIP ip && !p.allowPrivateIp then
        .error s!"private IP address not allowed: {host} resolves to {ip.string}"
      else if p.ipFilterMode then .error s!"ip not in whitelist: {host} resolves to {ip.string}"
      else .error s!"ip in blacklist: {host} resolves to {ip.string}"
    else p.checkIPs net host ips

/-- The last part of `ValidateURL`, once the host is read and the port is allowed. -/
def SSRFProtection.checkHost (p : SSRFProtection) (net : NetLib) (host : String) :
    Except String Unit :=
  match net.parseIP host with
  | some ip =>
    if !p.isIPAccessAllowed net ip then
      if isPrivateIP ip then .error s!"private IP address not allowed: {ip.string}"
      else if p.ipFilterMode then .error s!"ip not in whitelist: {ip.string}"
      else .error s!"ip in blacklist: {ip.string}"
    else .ok ()
  | none =>
    if !p.isDomainAllowed lower host then
      if p.domainFilterMode then .error s!"domain not in whitelist: {host}"
      else .error s!"domain in blacklist: {host}"
    else if !p.applyIPFilterForDomain then .ok ()
    else
      match net.lookupIP host with
      | .error err => .error s!"DNS resolution failed for {host}: {err}"
      | .ok ips => p.checkIPs net host ips

/-- The port of a URL that names none. -/
def defaultPort (scheme : String) : String := if scheme = "https" then "443" else "80"

/-- The host and the port of a URL. -/
def hostAndPort (u : URL) : String × String :=
  match splitHostPort u.host.toList with
  | some (host, port) => (String.ofList host, String.ofList port)
  | none => (String.ofList (hostname u.host.toList), defaultPort u.scheme)

def SSRFProtection.validateURL (p : SSRFProtection) (net : NetLib) (urlStr : String) :
    Except String Unit :=
  match net.parse urlStr with
  | .error err => .error s!"invalid URL format: {err}"
  | .ok u =>
    if u.scheme ≠ "http" ∧ u.scheme ≠ "https" then
      .error s!"unsupported protocol: {u.scheme} (only http/https allowed)"
    else
      let (host, portStr) := hostAndPort u
      match atoi portStr with
      | (_, some _) => .error s!"invalid port: {portStr}"
      | (port, none) =>
        if !p.isAllowedPort port then .error s!"port {itoa port} is not allowed"
        else p.checkHost lower net host

/-- `ValidateURLWithFetchSetting`, the lists and switches in `p` and the ports as text. -/
def validateURLWithFetchSetting (net : NetLib) (urlStr : String) (enableSSRFProtection : Bool)
    (p : SSRFProtection) (allowedPorts : List String) : Except String Unit :=
  if !enableSSRFProtection then .ok ()
  else
    match parsePortRanges allowedPorts with
    | .error err => .error s!"request reject - invalid port configuration: {err}"
    | .ok ports => { p with allowedPorts := ports }.validateURL lower net urlStr

end Domains

end AuthGateway.Common
