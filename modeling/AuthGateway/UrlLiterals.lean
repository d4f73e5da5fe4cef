import AuthGateway.Common.SsrfProtection

/-!
# URLs with an address as their host

`Literal` is an address as a URL writes it: with brackets or without, with a zone, with
a port.  **The check judges the address that is written, and the port, exactly for the
spellings that `Safe` names** (`right_iff_safe`).  A zone hides the address from
`ParseIP`, and without brackets the last group of an IPv6 address is taken for a port;
what is left is judged as a domain, or as another address.
-/

namespace AuthGateway.UrlLiterals

open Common Net GoString Decimal

/-! ### What is assumed of the library -/

/-- A character of a textual address. -/
def AddressChar (c : Char) : Prop :=
  IsDigit c ∨ (97 ≤ c.toNat ∧ c.toNat ≤ 102) ∨ (65 ≤ c.toNat ∧ c.toNat ≤ 70) ∨ c = '.' ∨ c = ':'

/-- What `net` and `net/url` promise. -/
structure Documented (net : NetLib) : Prop where
  /-- an address is hexadecimal digits, dots and colons; in particular it has no zone -/
  charset : ∀ s ip, net.parseIP s = some ip → ∀ c ∈ s.toList, AddressChar c
  /-- an IPv6 address has at least two colons -/
  colons : ∀ s ip, net.parseIP s = some ip → ':' ∈ s.toList → 2 ≤ s.toList.count ':'
  /-- an address is returned in its 16 byte form -/
  long : ∀ s ip, net.parseIP s = some ip → ip.bytes.length = 16
  /-- a block has a slash -/
  slash : ∀ s n, net.parseCIDR s = some n → '/' ∈ s.toList
  /-- outside of brackets a colon is followed by the port -/
  port : ∀ s u before after, net.parse s = .ok u → (∀ rest, u.host.toList ≠ '[' :: rest) →
    lastColon u.host.toList = some (before, after) → ∀ c ∈ after, IsDigit c

/-! ### Spellings -/

/-- An address as a host: the zone in its decoded form, the port without its colon. -/
structure Literal where
  address : List Char
  zone : Option (List Char)
  bracketed : Bool
  port : Option (List Char)
  /-- only IPv6 addresses have a zone -/
  zoned : zone ≠ none → ':' ∈ address
  digits : ∀ p, port = some p → ∀ c ∈ p, IsDigit c

namespace Literal

variable (l : Literal)

def inner : List Char :=
  match l.zone with
  | none => l.address
  | some zone => l.address ++ '%' :: zone

/-- What becomes of it in the URL. -/
def host : List Char :=
  let host := if l.bracketed then '[' :: l.inner ++ [']'] else l.inner
  match l.port with
  | none => host
  | some port => host ++ ':' :: port

end Literal

def defaultNumber (scheme : String) : Int := if scheme = "https" then 443 else 80

/-- The port that the URL names, or else the one of its scheme. -/
def Literal.portNumber (l : Literal) (scheme : String) : Int :=
  match l.port with
  | none => defaultNumber scheme
  | some [] => defaultNumber scheme
  | some port => value port

/-- No number of 63 bits. -/
def Unreadable (port : List Char) : Prop := port = [] ∨ 2 ^ 63 ≤ value port

/-- **The spellings that are judged as they should be.** -/
def Safe (net : NetLib) (l : Literal) (ip : IP) (scheme : String) : Prop :=
  (scheme ≠ "http" ∧ scheme ≠ "https") ∨
    if l.bracketed then
      l.zone = none ∨ ∃ zone port, l.zone = some zone ∧ l.port = some port ∧
        '[' ∉ zone ∧ ']' ∉ zone ∧ Unreadable port
    else l.zone = none ∧ (':' ∉ l.address ∨
      (l.port = none ∧ ∃ before after, lastColon l.address = some (before, after) ∧
        net.parseIP (String.ofList before) = some ip) ∨
      (l.port ≠ none ∧ l.portNumber scheme = defaultNumber scheme))

/-- The URL is judged by its port and its address, and never by the domain list. -/
structure Right (lower : Char → Char) (net : NetLib) (urlStr scheme : String) (l : Literal)
    (ip : IP) : Prop where
  checked : ∀ p : SSRFProtection, p.validateURL lower net urlStr = .ok () →
    p.isAllowedPort (l.portNumber scheme) = true ∧ p.isIPAccessAllowed net ip = true
  undisturbed : ∀ (p : SSRFProtection) mode list applies,
    SSRFProtection.validateURL lower
      { p with domainFilterMode := mode, domainList := list, applyIPFilterForDomain := applies }
      net urlStr = p.validateURL lower net urlStr

/-! ### What the check reads -/

variable {lower : Char → Char} {net : NetLib} {urlStr : String} {u : URL} {l : Literal} {ip : IP}

/-- Nothing is filtered, with the one exception of addresses: none is on the whitelist. -/
def openDomains : SSRFProtection where
  allowPrivateIp := true
  domainFilterMode := false
  domainList := []
  ipFilterMode := true
  ipList := []
  allowedPorts := []
  applyIPFilterForDomain := false

/-- The whitelist has the one address. -/
def onlyAddress (address : String) : SSRFProtection := { openDomains with ipList := [address] }

/-- One port is open, to all addresses. -/
def onlyPort (port : Int) : SSRFProtection :=
  { openDomains with ipFilterMode := false, allowedPorts := [port] }

theorem validateURL_eq (hparse : net.parse urlStr = .ok u)
    (hscheme : ¬ (u.scheme ≠ "http" ∧ u.scheme ≠ "https")) {host port : String}
    (hread : hostAndPort u = (host, port)) (p : SSRFProtection) :
    p.validateURL lower net urlStr =
      match atoi port with
      | (_, some _) => .error s!"invalid port: {port}"
      | (n, none) =>
        if !p.isAllowedPort n then .error s!"port {itoa n} is not allowed"
        else p.checkHost lower net host := by
  rw [SSRFProtection.validateURL, hparse]
  dsimp only
  rw [hread]
  exact if_neg hscheme

variable (lower) in
theorem checkHost_address {host : String} (hip : net.parseIP host = some ip) (p : SSRFProtection) :
    p.checkHost lower net host = .ok () ↔ p.isIPAccessAllowed net ip = true := by
  rw [SSRFProtection.checkHost, hip]
  dsimp only
  cases p.isIPAccessAllowed net ip with
  | true => simp
  | false =>
    simp only [Bool.not_false, if_true, Bool.false_eq_true, iff_false]
    cases isPrivateIP ip <;> cases p.ipFilterMode <;> simp

/-- A configuration that accepts the URL. -/
theorem accepts (hparse : net.parse urlStr = .ok u)
    (hscheme : ¬ (u.scheme ≠ "http" ∧ u.scheme ≠ "https")) {host port : String} {n : Int}
    (hread : hostAndPort u = (host, port)) (hport : atoi port = (n, none)) {p : SSRFProtection}
    (hallowed : p.isAllowedPort n = true) (hhost : p.checkHost lower net host = .ok ()) :
    p.validateURL lower net urlStr = .ok () := by
  rw [validateURL_eq hparse hscheme hread, hport]
  simp [hallowed, hhost]

/-- **The check is right when it reads the port and the address that are written**, or
reads no port. -/
theorem right_iff (hnet : Documented net) (hparse : net.parse urlStr = .ok u)
    (hscheme : ¬ (u.scheme ≠ "http" ∧ u.scheme ≠ "https")) {address : String}
    (hip : net.parseIP address = some ip) {host port : String}
    (hread : hostAndPort u = (host, port)) :
    Right lower net urlStr u.scheme l ip ↔ ∀ n, atoi port = (n, none) →
      net.parseIP host = some ip ∧ n = l.portNumber u.scheme := by
  constructor
  · intro h n hport
    cases hhost : net.parseIP host with
    | none =>
      -- the host is taken for a domain
      have hopen : openDomains.checkHost lower net host = .ok () := by
        rw [SSRFProtection.checkHost, hhost]
        rfl
      have hchecked := (h.checked openDomains (accepts hparse hscheme hread hport rfl hopen)).2
      simp [SSRFProtection.isIPAccessAllowed, openDomains, isIPListed] at hchecked
    | some ip' =>
      have hequal : ip'.equal ip' = true := by simp [IP.equal]
      have hlisted : ∀ x, isIPListed net x [host] = x.equal ip' := by
        intro x
        have hcidr : net.parseCIDR host = none := by
          cases hblock : net.parseCIDR host with
          | none => rfl
          | some n =>
            have hslash := hnet.charset host ip' hhost '/' (hnet.slash host n hblock)
            simp [AddressChar, IsDigit] at hslash
        simp [isIPListed, hcidr, hhost]
      have hsame : ip' = ip := by
        have hopen : (onlyAddress host).checkHost lower net host = .ok () := by
          rw [checkHost_address lower hhost]
          simp [SSRFProtection.isIPAccessAllowed, onlyAddress, openDomains, hlisted, hequal]
        have hchecked := (h.checked (onlyAddress host)
          (accepts hparse hscheme hread hport rfl hopen)).2
        have hbytes : ip.equal ip' = true := by
          simpa [SSRFProtection.isIPAccessAllowed, onlyAddress, openDomains, hlisted] using hchecked
        have hlen : ip.bytes.length = ip'.bytes.length := by
          rw [hnet.long address ip hip, hnet.long host ip' hhost]
        rw [IP.equal, if_pos hlen, beq_iff_eq] at hbytes
        cases ip
        cases ip'
        simp only at hbytes
        subst hbytes
        rfl
      refine ⟨by rw [hsame], ?_⟩
      have hopen : (onlyPort n).checkHost lower net host = .ok () := by
        rw [checkHost_address lower hhost]
        simp [SSRFProtection.isIPAccessAllowed, onlyPort, openDomains, isIPListed]
      have hallowed : (onlyPort n).isAllowedPort n = true := by
        simp [SSRFProtection.isAllowedPort, onlyPort]
      have hchecked := (h.checked (onlyPort n)
        (accepts hparse hscheme hread hport hallowed hopen)).1
      have hwritten : l.portNumber u.scheme = n := by
        simpa [SSRFProtection.isAllowedPort, onlyPort] using hchecked
      exact hwritten.symm
  · intro h
    constructor
    · intro p hp
      rw [validateURL_eq hparse hscheme hread] at hp
      cases hport : atoi port with
      | mk n e =>
        rw [hport] at hp
        cases e with
        | some e => simp at hp
        | none =>
          obtain ⟨hhost, rfl⟩ := h n hport
          dsimp only at hp
          cases hallowed : p.isAllowedPort (l.portNumber u.scheme) with
          | false => simp [hallowed] at hp
          | true =>
            refine ⟨rfl, ?_⟩
            rw [← checkHost_address lower hhost]
            simpa [hallowed] using hp
    · intro p mode list applies
      rw [validateURL_eq hparse hscheme hread, validateURL_eq hparse hscheme hread]
      cases hport : atoi port with
      | mk n e =>
        cases e with
        | some e => rfl
        | none =>
          obtain ⟨hhost, -⟩ := h n hport
          simp only [SSRFProtection.checkHost, hhost]
          rfl

/-! ### What is read of a spelling -/

theorem plain_address (hnet : Documented net) (hip : net.parseIP (String.ofList l.address) = some ip) :
    '[' ∉ l.address ∧ ']' ∉ l.address ∧ '%' ∉ l.address := by
  have hchars := hnet.charset _ ip hip
  rw [String.toList_ofList] at hchars
  have hnot : ∀ c, ¬ AddressChar c → c ∉ l.address := fun c hc hmem => hc (hchars c hmem)
  exact ⟨hnot '[' (by simp [AddressChar, IsDigit]), hnot ']' (by simp [AddressChar, IsDigit]),
    hnot '%' (by simp [AddressChar, IsDigit])⟩

/-- A host with a zone is no address. -/
theorem parseIP_percent (hnet : Documented net) {host : List Char} (h : '%' ∈ host) :
    net.parseIP (String.ofList host) = none := by
  cases hhost : net.parseIP (String.ofList host) with
  | none => rfl
  | some ip =>
    have hchar := hnet.charset _ ip hhost '%' (by rw [String.toList_ofList]; exact h)
    simp [AddressChar, IsDigit] at hchar

theorem atoi_defaultPort (scheme : String) :
    atoi (defaultPort scheme) = (defaultNumber scheme, none) := by
  rw [defaultPort, defaultNumber]
  by_cases h : scheme = "https"
  · rw [if_pos h, if_pos h]
    decide
  · rw [if_neg h, if_neg h]
    decide

/-- Digits are read as their number, if they are read. -/
theorem atoi_digits {port : List Char} (h : ∀ c ∈ port, IsDigit c) {n : Int} :
    atoi (String.ofList port) = (n, none) ↔ ¬ Unreadable port ∧ n = value port := by
  rw [atoi_eq_iff, String.toList_ofList, Unreadable, not_or]
  constructor
  · rintro ⟨hn, -, hhigh⟩
    have hsign : ∀ c digits, c :: digits = port → c ≠ '+' ∧ c ≠ '-' := by
      rintro c digits rfl
      have hc := h c (by simp)
      exact ⟨fun he => by simp [he, IsDigit] at hc, fun he => by simp [he, IsDigit] at hc⟩
    cases hn with
    | plain hd => exact ⟨⟨hd.1, by omega⟩, rfl⟩
    | @plus digits hd => exact absurd rfl (hsign '+' digits rfl).1
    | @minus digits hd => exact absurd rfl (hsign '-' digits rfl).2
  · rintro ⟨⟨hne, hlt⟩, rfl⟩
    exact ⟨.plain ⟨hne, h⟩, by omega, by omega⟩

theorem portNumber_eq {port : List Char} (h : l.port = some port) (hne : port ≠ []) (scheme : String) :
    l.portNumber scheme = value port := by
  rw [Literal.portNumber, h]
  cases port with
  | nil => exact absurd rfl hne
  | cons c cs => rfl

section Shapes

variable (hhost : u.host = String.ofList l.host)

include hhost

theorem hostAndPort_eq : hostAndPort u = match splitHostPort l.host with
    | some (host, port) => (String.ofList host, String.ofList port)
    | none => (String.ofList (hostname l.host), defaultPort u.scheme) := by
  have hchars : u.host.toList = l.host := by rw [hhost, String.toList_ofList]
  rw [← hchars]
  rfl

/-- In brackets, without a port. -/
theorem read_brackets (hbracketed : l.bracketed = true) (hport : l.port = none) :
    hostAndPort u = (String.ofList l.inner, defaultPort u.scheme) := by
  have htext : l.host = '[' :: l.inner ++ [']'] := by simp [Literal.host, hbracketed, hport]
  rw [hostAndPort_eq hhost, htext, splitHostPort_brackets, hostname_brackets]

/-- In brackets, with a port, and no further bracket. -/
theorem read_brackets_port (hbracketed : l.bracketed = true) {port : List Char}
    (hport : l.port = some port) (hopen : '[' ∉ l.inner) (hclose : ']' ∉ l.inner) :
    hostAndPort u = (String.ofList l.inner, String.ofList port) := by
  have htext : l.host = '[' :: l.inner ++ ']' :: ':' :: port := by
    simp [Literal.host, hbracketed, hport]
  rw [hostAndPort_eq hhost, htext, splitHostPort_brackets_port hopen hclose (l.digits port hport)]

/-- A further bracket hides the port. -/
theorem read_inner_bracket (hbracketed : l.bracketed = true) {port : List Char}
    (hport : l.port = some port) (hinner : '[' ∈ l.inner ∨ ']' ∈ l.inner) :
    hostAndPort u = (String.ofList l.inner, defaultPort u.scheme) := by
  have htext : l.host = '[' :: l.inner ++ ']' :: ':' :: port := by
    simp [Literal.host, hbracketed, hport]
  rw [hostAndPort_eq hhost, htext, splitHostPort_inner_bracket hinner (l.digits port hport),
    hostname_brackets_port _ (l.digits port hport)]

/-- Without brackets and colons, as IPv4 addresses are. -/
theorem read_plain (hbracketed : l.bracketed = false) (hcolon : ':' ∉ l.inner)
    (hopen : '[' ∉ l.inner) (hclose : ']' ∉ l.inner) :
    hostAndPort u = (String.ofList l.inner, match l.port with
      | none => defaultPort u.scheme
      | some port => String.ofList port) := by
  have hhead : ∀ rest, l.inner ≠ '[' :: rest := fun rest he => hopen (by simp [he])
  rw [hostAndPort_eq hhost]
  cases hport : l.port with
  | none =>
    have htext : l.host = l.inner := by simp [Literal.host, hbracketed, hport]
    rw [htext, splitHostPort_plain hcolon, hostname_plain hhead hcolon]
  | some port =>
    have htext : l.host = l.inner ++ ':' :: port := by simp [Literal.host, hbracketed, hport]
    rw [htext, splitHostPort_port hcolon hopen hclose (l.digits port hport)]

/-- **Without brackets the digits behind the last colon are cut off**, and the port is
the default. -/
theorem read_colons (hhead : ∀ rest, l.host ≠ '[' :: rest) {before after : List Char}
    (htext : l.host = before ++ ':' :: after) (hcolon : ':' ∈ before)
    (hafter : ∀ c ∈ after, IsDigit c) :
    hostAndPort u = (String.ofList before, defaultPort u.scheme) := by
  have hbefore : ∀ rest, before ≠ '[' :: rest := by
    intro rest he
    exact hhead (rest ++ ':' :: after) (by rw [htext, he, List.cons_append])
  rw [hostAndPort_eq hhost, htext, splitHostPort_two_colons hbefore hcolon (not_mem_digits hafter).1,
    hostname_port hbefore hafter]

end Shapes

/-! ### The spellings that are judged rightly -/

theorem right_of_bad_scheme (hparse : net.parse urlStr = .ok u)
    (hscheme : u.scheme ≠ "http" ∧ u.scheme ≠ "https") : Right lower net urlStr u.scheme l ip := by
  have hrefused : ∀ p : SSRFProtection, p.validateURL lower net urlStr =
      .error s!"unsupported protocol: {u.scheme} (only http/https allowed)" := by
    intro p
    rw [SSRFProtection.validateURL, hparse]
    dsimp only
    rw [if_pos hscheme]
  constructor
  · intro p hp
    rw [hrefused] at hp
    simp at hp
  · intro p mode list applies
    rw [hrefused, hrefused]

section Cases

variable (hnet : Documented net) (hparse : net.parse urlStr = .ok u)
  (hscheme : ¬ (u.scheme ≠ "http" ∧ u.scheme ≠ "https"))
  (hip : net.parseIP (String.ofList l.address) = some ip) (hhost : u.host = String.ofList l.host)

include hnet hparse hscheme hip

/-- The port of the scheme is read. -/
theorem right_default_iff {host : String} (hread : hostAndPort u = (host, defaultPort u.scheme)) :
    Right lower net urlStr u.scheme l ip ↔
      net.parseIP host = some ip ∧ defaultNumber u.scheme = l.portNumber u.scheme := by
  rw [right_iff hnet hparse hscheme hip hread]
  constructor
  · intro h
    exact h _ (atoi_defaultPort u.scheme)
  · intro h n hn
    rw [atoi_defaultPort, Prod.mk.injEq] at hn
    rw [← hn.1]
    exact h

include hhost

theorem right_brackets (hbracketed : l.bracketed = true) (hzone : l.zone = none) :
    Right lower net urlStr u.scheme l ip := by
  obtain ⟨hopen, hclose, -⟩ := plain_address hnet hip
  have hinner : l.inner = l.address := by simp [Literal.inner, hzone]
  cases hport : l.port with
  | none =>
    have hread := read_brackets hhost hbracketed hport
    rw [hinner] at hread
    rw [right_default_iff hnet hparse hscheme hip hread]
    exact ⟨hip, by simp [Literal.portNumber, hport]⟩
  | some port =>
    have hread := read_brackets_port hhost hbracketed hport (hinner ▸ hopen) (hinner ▸ hclose)
    rw [hinner] at hread
    rw [right_iff hnet hparse hscheme hip hread]
    intro n hn
    obtain ⟨hreadable, rfl⟩ := (atoi_digits (l.digits port hport)).mp hn
    have hne : port ≠ [] := fun he => hreadable (Or.inl he)
    exact ⟨hip, (portNumber_eq hport hne u.scheme).symm⟩

theorem right_brackets_zone (hbracketed : l.bracketed = true) {zone : List Char}
    (hzone : l.zone = some zone) : Right lower net urlStr u.scheme l ip ↔
      ∃ port, l.port = some port ∧ '[' ∉ zone ∧ ']' ∉ zone ∧ Unreadable port := by
  obtain ⟨hopen, hclose, -⟩ := plain_address hnet hip
  have hinner : l.inner = l.address ++ '%' :: zone := by simp [Literal.inner, hzone]
  have hnone : net.parseIP (String.ofList l.inner) = none :=
    parseIP_percent hnet (by simp [hinner])
  cases hport : l.port with
  | none =>
    rw [right_default_iff hnet hparse hscheme hip (read_brackets hhost hbracketed hport), hnone]
    simp
  | some port =>
    by_cases hplain : '[' ∉ zone ∧ ']' ∉ zone
    · have hread := read_brackets_port hhost hbracketed hport (by simp [hinner, hopen, hplain])
        (by simp [hinner, hclose, hplain])
      rw [right_iff hnet hparse hscheme hip hread, hnone]
      simp only [atoi_digits (l.digits port hport), reduceCtorEq, false_and, imp_false, not_and,
        Option.some.injEq, exists_eq_left', hplain, not_false_eq_true, true_and]
      constructor
      · intro h
        by_contra hreadable
        exact h _ hreadable rfl
      · intro h n hreadable
        exact absurd h hreadable
    · have hbracket : '[' ∈ l.inner ∨ ']' ∈ l.inner := by
        rw [hinner]
        by_cases ho : '[' ∈ zone
        · exact Or.inl (by simp [ho])
        · have hc : ']' ∈ zone := by
            by_contra hc
            exact hplain ⟨ho, hc⟩
          exact Or.inr (by simp [hc])
      rw [right_default_iff hnet hparse hscheme hip
        (read_inner_bracket hhost hbracketed hport hbracket), hnone]
      simp only [reduceCtorEq, false_and, false_iff, Option.some.injEq, exists_eq_left']
      exact fun h => hplain ⟨h.1, h.2.1⟩

omit hscheme in
/-- The colons of the address, without brackets: what is read ends at the last colon. -/
theorem read_unbracketed (hbracketed : l.bracketed = false) (hcolon : ':' ∈ l.address) :
    ∃ before after, l.host = before ++ ':' :: after ∧
      hostAndPort u = (String.ofList before, defaultPort u.scheme) ∧ ':' ∉ after ∧
      ('%' ∈ l.inner → '%' ∈ before) ∧
      (l.port = none → l.inner = before ++ ':' :: after) ∧ (l.port ≠ none → before = l.inner) := by
  obtain ⟨hopen, -, -⟩ := plain_address hnet hip
  have hmem : ':' ∈ l.inner := by
    rw [Literal.inner]
    cases l.zone with
    | none => exact hcolon
    | some zone => simp [hcolon]
  have hcount : 2 ≤ l.inner.count ':' := by
    have haddress := hnet.colons _ ip hip (by rw [String.toList_ofList]; exact hcolon)
    rw [String.toList_ofList] at haddress
    rw [Literal.inner]
    cases l.zone with
    | none => exact haddress
    | some zone =>
      dsimp only
      rw [List.count_append]
      omega
  have hhead : ∀ rest, l.host ≠ '[' :: rest := by
    have hne : ∃ c cs, l.host = c :: cs ∧ c ∈ l.address := by
      cases haddress : l.address with
      | nil => rw [haddress] at hcolon; simp at hcolon
      | cons c cs =>
        cases hzone : l.zone <;> cases hport : l.port <;>
          simp [Literal.host, Literal.inner, hbracketed, haddress, hzone, hport]
    intro rest he
    obtain ⟨c, cs, htext, hc⟩ := hne
    rw [he, List.cons.injEq] at htext
    exact hopen (htext.1 ▸ hc)
  cases hport : l.port with
  | some port =>
    have htext : l.host = l.inner ++ ':' :: port := by simp [Literal.host, hbracketed, hport]
    have hread := read_colons hhost hhead htext hmem (l.digits port hport)
    exact ⟨l.inner, port, htext, hread, (not_mem_digits (l.digits port hport)).1, id, by simp,
      fun _ => rfl⟩
  | none =>
    have hsame : l.host = l.inner := by simp [Literal.host, hbracketed, hport]
    obtain ⟨before, after, htext, hafter⟩ := exists_lastColon hmem
    have hdigits : ∀ c ∈ after, IsDigit c := by
      apply hnet.port urlStr u before after hparse
      · rw [hhost, String.toList_ofList]
        exact hhead
      · rw [hhost, String.toList_ofList, hsame, htext, lastColon_append before hafter]
    have hbefore : ':' ∈ before := by
      rw [htext, List.count_append, List.count_cons_self, List.count_eq_zero.mpr hafter] at hcount
      exact List.count_pos_iff.mp (by omega)
    have hread := read_colons hhost hhead (hsame.trans htext) hbefore hdigits
    refine ⟨before, after, hsame.trans htext, hread, hafter, ?_, fun _ => htext, by simp⟩
    intro hpercent
    rw [htext] at hpercent
    rcases List.mem_append.mp hpercent with h | h
    · exact h
    · rcases List.mem_cons.mp h with h | h
      · simp at h
      · have hdigit := hdigits '%' h
        simp [IsDigit] at hdigit

theorem right_unbracketed (hbracketed : l.bracketed = false) (hzone : l.zone = none) :
    Right lower net urlStr u.scheme l ip ↔ ':' ∉ l.address ∨
      (l.port = none ∧ ∃ before after, lastColon l.address = some (before, after) ∧
        net.parseIP (String.ofList before) = some ip) ∨
      (l.port ≠ none ∧ l.portNumber u.scheme = defaultNumber u.scheme) := by
  obtain ⟨hopen, hclose, -⟩ := plain_address hnet hip
  have hinner : l.inner = l.address := by simp [Literal.inner, hzone]
  by_cases hcolon : ':' ∈ l.address
  · rw [or_iff_right (not_not.mpr hcolon)]
    obtain ⟨before, after, -, hread, hafter, -, hnoport, hwithport⟩ :=
      read_unbracketed hnet hparse hip hhost hbracketed hcolon
    rw [right_default_iff hnet hparse hscheme hip hread]
    cases hport : l.port with
    | none =>
      have htext := hnoport hport
      rw [hinner] at htext
      have hnumber : defaultNumber u.scheme = l.portNumber u.scheme := by
        simp [Literal.portNumber, hport]
      rw [htext, lastColon_append before hafter]
      simp [hnumber]
    | some port =>
      have htext := hwithport (by simp [hport])
      rw [htext, hinner, hip]
      simp [eq_comm]
  · have hread := read_plain hhost hbracketed (hinner ▸ hcolon) (hinner ▸ hopen) (hinner ▸ hclose)
    rw [hinner] at hread
    refine ⟨fun _ => Or.inl hcolon, fun _ => ?_⟩
    cases hport : l.port with
    | none =>
      rw [hport] at hread
      rw [right_default_iff hnet hparse hscheme hip hread]
      exact ⟨hip, by simp [Literal.portNumber, hport]⟩
    | some port =>
      rw [hport] at hread
      rw [right_iff hnet hparse hscheme hip hread]
      intro n hn
      obtain ⟨hreadable, rfl⟩ := (atoi_digits (l.digits port hport)).mp hn
      have hne : port ≠ [] := fun he => hreadable (Or.inl he)
      exact ⟨hip, (portNumber_eq hport hne u.scheme).symm⟩

theorem wrong_unbracketed_zone (hbracketed : l.bracketed = false) {zone : List Char}
    (hzone : l.zone = some zone) : ¬ Right lower net urlStr u.scheme l ip := by
  have hcolon : ':' ∈ l.address := l.zoned (by simp [hzone])
  have hinner : '%' ∈ l.inner := by simp [Literal.inner, hzone]
  obtain ⟨before, after, -, hread, -, hpercent, -⟩ :=
    read_unbracketed hnet hparse hip hhost hbracketed hcolon
  rw [right_default_iff hnet hparse hscheme hip hread, parseIP_percent hnet (hpercent hinner)]
  simp

end Cases

/-- **A URL with an address as its host is judged by that address and its port, and by
nothing else, exactly when its spelling is safe.** -/
theorem right_iff_safe (hnet : Documented net) (hparse : net.parse urlStr = .ok u)
    (hhost : u.host = String.ofList l.host) (hip : net.parseIP (String.ofList l.address) = some ip) :
    Right lower net urlStr u.scheme l ip ↔ Safe net l ip u.scheme := by
  by_cases hscheme : u.scheme ≠ "http" ∧ u.scheme ≠ "https"
  · exact ⟨fun _ => Or.inl hscheme, fun _ => right_of_bad_scheme hparse hscheme⟩
  rw [Safe, or_iff_right hscheme]
  cases hbracketed : l.bracketed with
  | true =>
    rw [if_pos rfl]
    cases hzone : l.zone with
    | none =>
      exact ⟨fun _ => Or.inl rfl,
        fun _ => right_brackets hnet hparse hscheme hip hhost hbracketed hzone⟩
    | some zone =>
      rw [right_brackets_zone hnet hparse hscheme hip hhost hbracketed hzone]
      simp
  | false =>
    rw [if_neg Bool.false_ne_true]
    cases hzone : l.zone with
    | none =>
      rw [right_unbracketed hnet hparse hscheme hip hhost hbracketed hzone]
      simp
    | some zone =>
      have hwrong : ¬ Right lower net urlStr u.scheme l ip :=
        wrong_unbracketed_zone hnet hparse hscheme hip hhost hbracketed hzone
      simp [hwrong]

/-! ### fe80::1 -/

/-- The address fe80::1. -/
def linkLocal : IP := ⟨[0xfe, 0x80, 0, 0, 0, 0, 0, 0, 0, 0, 0, 0, 0, 0, 0, 1], Or.inr rfl⟩

/-- The library on two URLs with this address, one of them with a zone. -/
def linkLocalNet : NetLib where
  parse s :=
    if s = "http://[fe80::1]/" then .ok ⟨"http", "[fe80::1]"⟩
    else if s = "http://[fe80::1%25eth0]/" then .ok ⟨"http", "[fe80::1%eth0]"⟩
    else .error ""
  parseIP s := if s = "fe80::1" then some linkLocal else none
  parseCIDR _ := none
  lookupIP _ := .error ""

theorem documented_linkLocalNet : Documented linkLocalNet := by
  have haddress : ∀ s ip, linkLocalNet.parseIP s = some ip → s = "fe80::1" ∧ ip = linkLocal := by
    intro s ip h
    by_cases hs : s = "fe80::1"
    · simp only [linkLocalNet, hs, if_true, Option.some.injEq] at h
      exact ⟨hs, h.symm⟩
    · simp [linkLocalNet, hs] at h
  constructor
  · intro s ip h c hc
    rw [(haddress s ip h).1] at hc
    have hmem : c ∈ ['f', 'e', '8', '0', ':', ':', '1'] := hc
    simp only [List.mem_cons, List.not_mem_nil, or_false] at hmem
    rcases hmem with rfl | rfl | rfl | rfl | rfl | rfl | rfl <;> simp [AddressChar, IsDigit]
  · intro s ip h _
    rw [(haddress s ip h).1]
    decide
  · intro s ip h
    rw [(haddress s ip h).2]
    rfl
  · intro s n h
    simp [linkLocalNet] at h
  · intro s u before after h hhead
    simp only [linkLocalNet] at h
    split at h
    · obtain rfl := Except.ok.inj h
      exact absurd rfl (hhead ['f', 'e', '8', '0', ':', ':', '1', ']'])
    · split at h
      · obtain rfl := Except.ok.inj h
        exact absurd rfl (hhead ['f', 'e', '8', '0', ':', ':', '1', '%', 'e', 't', 'h', '0', ']'])
      · simp at h

/-- `[fe80::1]`, and `[fe80::1%eth0]`. -/
def linkLocalHost (zone : Option (List Char)) : Literal where
  address := ['f', 'e', '8', '0', ':', ':', '1']
  zone := zone
  bracketed := true
  port := none
  zoned := fun _ => by decide
  digits := by simp

theorem right_iff_safe_brackets :
    Right Char.toLower linkLocalNet "http://[fe80::1]/" "http" (linkLocalHost none) linkLocal ↔
      Safe linkLocalNet (linkLocalHost none) linkLocal "http" :=
  right_iff_safe (u := ⟨"http", "[fe80::1]"⟩) documented_linkLocalNet rfl rfl rfl

/-- With a zone the address is let through although none is on the whitelist. -/
theorem zone_is_a_domain : ¬ ∀ net, Documented net → ∀ urlStr u l ip, net.parse urlStr = .ok u →
    u.host = String.ofList l.host → net.parseIP (String.ofList l.address) = some ip →
    Right Char.toLower net urlStr u.scheme l ip := by
  intro hall
  have hright := hall linkLocalNet documented_linkLocalNet "http://[fe80::1%25eth0]/"
    ⟨"http", "[fe80::1%eth0]"⟩ (linkLocalHost (some ['e', 't', 'h', '0'])) linkLocal rfl rfl rfl
  have hallowed := (hright.checked openDomains rfl).2
  revert hallowed
  decide +kernel

end AuthGateway.UrlLiterals
