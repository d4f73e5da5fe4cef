import AuthGateway.Service.PasskeyOrigins

/-!
# Insecure origins

With `AllowInsecureOrigin` off no origin may have the scheme `http`, but for the hosts
`localhost` and `127.0.0.1`.  **`resolveOrigins` keeps to that exactly under `Safe`**
(`secure_iff`): no configured origin starts with `http:` but not with `http://`, no
forwarded scheme brings a colon of its own, nothing but a port is behind the host name
of this machine, and a request without host and scheme does not meet an address of the
server that has the scheme `http`.
-/

namespace AuthGateway.SecureOrigins

open Service Common GoString Decimal

variable (lower : Lowering) (parse : String → Option URL) (serverAddress : String) (r : Request)
  (settingsOrigins : String)

/-- The text in lower case, character by character. -/
def lowered (s : String) : List Char := s.toList.map lower.rune

/-- The scheme is `http`. -/
def HttpScheme (origin : String) : Prop := ['h', 't', 't', 'p', ':'] <+: lowered lower origin

/-- This machine, with or without a port. -/
def LocalHost (host : List Char) : Prop :=
  ∃ name ∈ ["localhost".toList, "127.0.0.1".toList], host = name ∨
    ∃ port, (∀ c ∈ port, IsDigit c) ∧ host = name ++ ':' :: port

/-- An origin with the scheme `http` that may be. -/
def LocalOrigin (origin : String) : Prop :=
  ∃ host, lowered lower origin = "http://".toList ++ host ∧ LocalHost host

/-- What is resolved with `AllowInsecureOrigin` off: some origins, and none insecure. -/
def Secure : Prop :=
  ∀ origins, resolveOrigins lower parse serverAddress r settingsOrigins false = .ok origins →
    origins ≠ [] ∧ ∀ origin ∈ origins, HttpScheme lower origin → LocalOrigin lower origin

/-- The origins that are configured. -/
def entries (settingsOrigins : String) : List String :=
  ((split ',' (trimSpace settingsOrigins)).map trimSpace).filter fun origin => origin ≠ ""

/-- A scheme and a host that may be put together. -/
def SafeParts (scheme host : String) : Prop :=
  ¬ HttpScheme lower scheme ∧
    (lowered lower scheme = "http".toList → LocalHost (lowered lower host))

/-- The host of the server's own address is used. -/
def Addressed (u : URL) : Prop :=
  r.host = "" ∧ serverAddress ≠ "" ∧ parse serverAddress = some u ∧ u.host ≠ ""

/-- **The requests from which no insecure origin is made.** -/
def SafeRequest : Prop :=
  let scheme := detectScheme lower r
  (scheme = "http" → namesLocalHost r.host = true → LocalHost (lowered lower r.host)) ∧
    (HttpScheme lower scheme → r.host = "" ∧ ∀ u, ¬ Addressed parse serverAddress r u) ∧
    (scheme = "" → ∀ u, Addressed parse serverAddress r u → SafeParts lower u.scheme u.host)

/-- The settings and requests for which `Secure` holds. -/
def Safe : Prop :=
  if entries settingsOrigins = [] then SafeRequest lower parse serverAddress r
  else (∃ origin ∈ entries settingsOrigins,
      hasPrefix (toLower lower.rune origin) "http://" = true) ∨
    ∀ origin ∈ entries settingsOrigins, ¬ HttpScheme lower origin

/-! ### Origins made of two parts -/

variable {lower parse serverAddress r settingsOrigins}

theorem lowered_origin (scheme host : String) : lowered lower (scheme ++ "://" ++ host) =
    lowered lower scheme ++ ':' :: '/' :: '/' :: lowered lower host := by
  have hcolon : lower.rune ':' = ':' := lower.ascii ':' (by decide)
  have hslash : lower.rune '/' = '/' := lower.ascii '/' (by decide)
  simp [lowered, hcolon, hslash]

theorem prefix_colon_iff {scheme rest : List Char} :
    ['h', 't', 't', 'p', ':'] <+: scheme ++ ':' :: rest ↔
      ['h', 't', 't', 'p', ':'] <+: scheme ∨ scheme = ['h', 't', 't', 'p'] := by
  match scheme with
  | [] => simp
  | [a] => simp
  | [a, b] => simp
  | [a, b, c] => simp
  | [a, b, c, d] => simp [eq_comm]
  | a :: b :: c :: d :: e :: more => simp

theorem slash_not_mem {host : List Char} (h : LocalHost host) : '/' ∉ host := by
  obtain ⟨name, hname, hhost⟩ := h
  have hplain : '/' ∉ name := by
    rcases List.mem_cons.mp hname with rfl | hname
    · decide
    · obtain rfl := List.mem_singleton.mp hname
      decide
  rcases hhost with rfl | ⟨port, hport, rfl⟩
  · exact hplain
  · intro hmem
    rcases List.mem_append.mp hmem with h | h
    · exact hplain h
    · rcases List.mem_cons.mp h with h | h
      · simp at h
      · have hdigit := hport '/' h
        simp [IsDigit] at hdigit

/-- A colon in the scheme makes no local origin. -/
theorem not_local_of_colon {more rest host : List Char} (hhost : LocalHost host)
    (h : more ++ ':' :: '/' :: rest = '/' :: '/' :: host) : False := by
  match more with
  | [] => simp at h
  | [a] => simp at h
  | a :: b :: more =>
    have htail : more ++ ':' :: '/' :: rest = host := by
      simp only [List.cons_append, List.cons.injEq] at h
      exact h.2.2
    apply slash_not_mem hhost
    rw [← htail]
    simp

/-- **An origin made of a scheme and a host is in order exactly when its parts are.** -/
theorem origin_iff {scheme host : String} :
    (HttpScheme lower (scheme ++ "://" ++ host) → LocalOrigin lower (scheme ++ "://" ++ host)) ↔
      SafeParts lower scheme host := by
  have hhttp : "http".toList = ['h', 't', 't', 'p'] := rfl
  have horigin : "http://".toList = ['h', 't', 't', 'p', ':', '/', '/'] := rfl
  rw [HttpScheme, LocalOrigin, SafeParts, HttpScheme, lowered_origin, prefix_colon_iff, hhttp,
    horigin]
  generalize lowered lower scheme = scheme
  generalize lowered lower host = host
  constructor
  · intro h
    refine ⟨?_, ?_⟩
    · intro hcolon
      obtain ⟨host', hsame, hlocal⟩ := h (Or.inl hcolon)
      obtain ⟨more, rfl⟩ := hcolon
      have htail : more ++ ':' :: '/' :: '/' :: host = '/' :: '/' :: host' := by
        simpa using hsame
      exact not_local_of_colon hlocal htail
    · rintro rfl
      obtain ⟨host', hsame, hlocal⟩ := h (Or.inr rfl)
      obtain rfl : host = host' := by simpa using hsame
      exact hlocal
  · rintro ⟨hcolon, hlocal⟩ (h | rfl)
    · exact absurd h hcolon
    · exact ⟨host, rfl, hlocal rfl⟩

/-! ### The request -/

theorem not_http_lowered {text : String} (h : lowered lower (toLower lower.rune text) = "http".toList) :
    toLower lower.rune text = "http" := by
  have hword : ∀ d ∈ "http".toList, d.toNat < 128 ∧ d ≠ 'i' ∧ d ≠ 'k' :=
    List.forall_iff_forall_mem.mp (by decide)
  rw [lowered, toLower, String.toList_ofList] at h
  rw [toLower, lower.map_rune_rune hword h]
  rfl

theorem lowered_ascii {s : String} (h : ∀ c ∈ s.toList, c.toNat < 128) :
    lowered lower s = s.toList.map Char.toLower := by
  apply List.map_congr_left
  intro c hc
  exact lower.ascii c (h c hc)

theorem lowered_http : lowered lower "http" = "http".toList :=
  lowered_ascii (List.forall_iff_forall_mem.mp (by decide))

theorem lowered_https : lowered lower "https" = "https".toList :=
  lowered_ascii (List.forall_iff_forall_mem.mp (by decide))

/-- A detected scheme is `http` in lower case only if it is that. -/
theorem detectScheme_http (h : lowered lower (detectScheme lower r) = "http".toList) :
    detectScheme lower r = "http" := by
  have hhttps : lowered lower "https" ≠ "http".toList := by
    rw [lowered_https]
    decide
  rw [detectScheme] at h ⊢
  by_cases hproto : r.forwardedProto ≠ ""
  · rw [if_pos hproto] at h ⊢
    exact not_http_lowered h
  · rw [if_neg hproto] at h ⊢
    by_cases htls : r.tls = true
    · rw [if_pos htls] at h
      exact absurd h hhttps
    · rw [if_neg htls] at h ⊢
      by_cases hurl : r.urlScheme ≠ ""
      · rw [if_pos hurl] at h ⊢
        exact not_http_lowered h
      · rw [if_neg hurl] at h ⊢
        by_cases hprotocol : r.forwardedProtocol ≠ ""
        · rw [if_pos hprotocol] at h ⊢
          exact not_http_lowered h
        · rw [if_neg hprotocol]

theorem host_ne_empty (h : namesLocalHost r.host = true) : r.host ≠ "" := by
  intro he
  rw [he] at h
  revert h
  decide

theorem not_httpScheme_http : ¬ HttpScheme lower "http" := by
  rw [HttpScheme, lowered_http]
  decide

theorem not_httpScheme_empty : ¬ HttpScheme lower "" := by
  show ¬ ['h', 't', 't', 'p', ':'] <+: []
  simp

theorem detectScheme_http_iff : lowered lower (detectScheme lower r) = "http".toList ↔
    detectScheme lower r = "http" := by
  constructor
  · exact detectScheme_http
  · intro h
    rw [h, lowered_http]

/-- A scheme that is not `http` in lower case goes with every host. -/
theorem safeParts_of_ne {scheme host : String} (hcolon : ¬ HttpScheme lower scheme)
    (hhttp : lowered lower scheme ≠ "http".toList) : SafeParts lower scheme host :=
  ⟨hcolon, fun h => absurd h hhttp⟩

theorem safeParts_https (host : String) : SafeParts lower "https" host := by
  apply safeParts_of_ne
  · rw [HttpScheme, lowered_https]
    decide
  · rw [lowered_https]
    decide

theorem safeParts_empty (host : String) : SafeParts lower "" host :=
  safeParts_of_ne not_httpScheme_empty (by simp [lowered])

/-- Without a scheme it is `https`. -/
theorem safeParts_default {scheme host : String} :
    SafeParts lower (if scheme = "" then "https" else scheme) host ↔
      SafeParts lower scheme host := by
  by_cases h : scheme = ""
  · rw [if_pos h, h]
    exact ⟨fun _ => safeParts_empty host, fun _ => safeParts_https host⟩
  · rw [if_neg h]

/-- One origin is resolved. -/
theorem one_origin_iff {result : Except String (List String)} {scheme host : String}
    (h : result = .ok [scheme ++ "://" ++ host]) :
    (∀ origins, result = .ok origins → origins ≠ [] ∧
      ∀ origin ∈ origins, HttpScheme lower origin → LocalOrigin lower origin) ↔
      SafeParts lower scheme host := by
  rw [← origin_iff, h]
  constructor
  · intro hall
    exact (hall _ rfl).2 _ (by simp)
  · intro hone origins horigins
    rw [Except.ok.injEq] at horigins
    subst horigins
    refine ⟨by simp, ?_⟩
    intro origin horigin
    obtain rfl := List.mem_singleton.mp horigin
    exact hone

/-- Nothing is resolved. -/
theorem no_origin {result : Except String (List String)} {err : String} (h : result = .error err) :
    ∀ origins, result = .ok origins → origins ≠ [] ∧
      ∀ origin ∈ origins, HttpScheme lower origin → LocalOrigin lower origin := by
  intro origins horigins
  rw [h] at horigins
  simp at horigins

/-- Past the check the scheme and the host are put together. -/
theorem autoDetect_parts (hpast : detectScheme lower r = "http" → namesLocalHost r.host = true)
    {scheme host : String} (hparts : schemeAndHost parse serverAddress (detectScheme lower r) r.host =
      (scheme, host)) (hhost : host ≠ "") :
    autoDetect lower parse serverAddress r false =
      .ok [(if scheme = "" then "https" else scheme) ++ "://" ++ host] := by
  have hcheck : (detectScheme lower r == "http" && !false && !namesLocalHost r.host) = false := by
    by_cases hscheme : detectScheme lower r = "http"
    · simp [hpast hscheme]
    · simp [hscheme]
  simp only [autoDetect, hcheck, hparts, if_neg hhost, Bool.false_eq_true, if_false]

/-- The request names its host. -/
theorem autoDetect_own_host (hhost : r.host ≠ "")
    (hpast : detectScheme lower r = "http" → namesLocalHost r.host = true) :
    SafeParts lower (detectScheme lower r) r.host ↔ SafeRequest lower parse serverAddress r := by
  rw [SafeParts, detectScheme_http_iff]
  constructor
  · rintro ⟨hcolon, hlocal⟩
    refine ⟨fun h _ => hlocal h, fun h => absurd h hcolon, ?_⟩
    intro _ u hu
    exact absurd hu.1 hhost
  · rintro ⟨hlocal, hcolon, -⟩
    exact ⟨fun h => hhost (hcolon h).1, fun h => hlocal h (hpast h)⟩

/-- The server's address names the host. -/
theorem autoDetect_address {u : URL} (hu : Addressed parse serverAddress r u)
    (hscheme : detectScheme lower r ≠ "http") :
    SafeParts lower (if detectScheme lower r = "" ∧ u.scheme ≠ "" then u.scheme
      else detectScheme lower r) u.host ↔ SafeRequest lower parse serverAddress r := by
  have hunique : ∀ u', Addressed parse serverAddress r u' → u' = u := by
    intro u' hu'
    exact Option.some.inj (hu'.2.2.1.symm.trans hu.2.2.1)
  by_cases hempty : detectScheme lower r = ""
  · have hparts : SafeParts lower (if detectScheme lower r = "" ∧ u.scheme ≠ "" then u.scheme
        else detectScheme lower r) u.host ↔ SafeParts lower u.scheme u.host := by
      by_cases hurl : u.scheme = ""
      · simp [hempty, hurl]
      · simp [hempty, hurl]
    rw [hparts, SafeRequest]
    constructor
    · intro h
      refine ⟨fun hs => absurd hs hscheme, ?_, ?_⟩
      · intro hcolon
        rw [hempty] at hcolon
        exact absurd hcolon not_httpScheme_empty
      · intro _ u' hu'
        rw [hunique u' hu']
        exact h
    · intro h
      exact h.2.2 hempty u hu
  · rw [if_neg (by simp [hempty]), SafeParts, detectScheme_http_iff]
    constructor
    · rintro ⟨hcolon, -⟩
      exact ⟨fun hs => absurd hs hscheme, fun h => absurd h hcolon, fun h => absurd h hempty⟩
    · rintro ⟨-, hcolon, -⟩
      exact ⟨fun h => (hcolon h).2 u hu, fun h => absurd h hscheme⟩

/-- **The requests without an insecure origin are the safe ones.** -/
theorem autoDetect_iff :
    (∀ origins, autoDetect lower parse serverAddress r false = .ok origins →
      origins ≠ [] ∧ ∀ origin ∈ origins, HttpScheme lower origin → LocalOrigin lower origin) ↔
      SafeRequest lower parse serverAddress r := by
  by_cases hpast : detectScheme lower r = "http" → namesLocalHost r.host = true
  · by_cases hhost : r.host = ""
    · have hscheme : detectScheme lower r ≠ "http" := fun h => host_ne_empty (hpast h) hhost
      by_cases haddress : ∃ u, Addressed parse serverAddress r u
      · obtain ⟨u, hu⟩ := haddress
        have hparts : schemeAndHost parse serverAddress (detectScheme lower r) r.host =
            (if detectScheme lower r = "" ∧ u.scheme ≠ "" then u.scheme else detectScheme lower r,
              u.host) := by
          obtain ⟨-, hserver, hparse, hne⟩ := hu
          rw [schemeAndHost, if_pos ⟨hhost, hserver⟩, hparse]
          dsimp only
          rw [if_neg hne]
        rw [one_origin_iff (autoDetect_parts hpast hparts hu.2.2.2), safeParts_default]
        exact autoDetect_address hu hscheme
      · have hnone : ∀ u, ¬ Addressed parse serverAddress r u := by simpa using haddress
        have hparts : (schemeAndHost parse serverAddress (detectScheme lower r) r.host).2 = "" := by
          rw [schemeAndHost]
          by_cases hserver : r.host = "" ∧ serverAddress ≠ ""
          · rw [if_pos hserver]
            cases hparse : parse serverAddress with
            | none => exact hhost
            | some u =>
              have hempty : u.host = "" := by
                by_contra hne
                exact hnone u ⟨hhost, hserver.2, hparse, hne⟩
              simp [hempty, hhost]
          · rw [if_neg hserver]
            exact hhost
        have hrefused : ∃ err, autoDetect lower parse serverAddress r false = .error err := by
          simp only [autoDetect, beq_eq_false_iff_ne.mpr hscheme, Bool.false_and, hparts,
            Bool.false_eq_true, if_false, if_true]
          exact ⟨_, rfl⟩
        obtain ⟨err, herr⟩ := hrefused
        refine ⟨fun _ => ⟨fun h => absurd h hscheme, fun _ => ⟨hhost, hnone⟩, ?_⟩,
          fun _ => no_origin herr⟩
        intro _ u hu
        exact absurd hu (hnone u)
    · have hparts : schemeAndHost parse serverAddress (detectScheme lower r) r.host =
          (detectScheme lower r, r.host) := by
        rw [schemeAndHost, if_neg (by simp [hhost])]
      rw [one_origin_iff (autoDetect_parts hpast hparts hhost), safeParts_default]
      exact autoDetect_own_host hhost hpast
  · -- the check refuses the request
    obtain ⟨hscheme, hlocal⟩ := Classical.not_imp.mp hpast
    have hrefused : ∃ err, autoDetect lower parse serverAddress r false = .error err := by
      simp only [autoDetect, hscheme, hlocal]
      exact ⟨_, rfl⟩
    obtain ⟨err, herr⟩ := hrefused
    refine ⟨fun _ => ⟨fun _ h => absurd h hlocal, ?_, ?_⟩, fun _ => no_origin herr⟩
    · intro h
      rw [hscheme] at h
      exact absurd h not_httpScheme_http
    · intro h
      rw [hscheme] at h
      exact absurd h (by decide)

/-! ### The configured origins -/

variable (lower) in
/-- The loop refuses a list with an origin that starts with `http://`, and keeps the others. -/
theorem configuredFrom_eq (originList origins : List String) :
    (∃ err, configuredFrom lower false origins originList = .error err ∧
        ∃ origin ∈ (originList.map trimSpace).filter fun origin => origin ≠ "",
          hasPrefix (toLower lower.rune origin) "http://" = true) ∨
      (configuredFrom lower false origins originList =
          .ok (origins ++ (originList.map trimSpace).filter fun origin => origin ≠ "") ∧
        ∀ origin ∈ (originList.map trimSpace).filter fun origin => origin ≠ "",
          hasPrefix (toLower lower.rune origin) "http://" = false) := by
  induction originList generalizing origins with
  | nil => exact Or.inr ⟨by simp [configuredFrom], by simp⟩
  | cons origin originList ih =>
    simp only [configuredFrom, List.map_cons]
    by_cases hblank : trimSpace origin = ""
    · rw [if_pos hblank, List.filter_cons_of_neg (by simp [hblank])]
      exact ih origins
    · rw [if_neg hblank, List.filter_cons_of_pos (by simp [hblank])]
      cases hinsecure : hasPrefix (toLower lower.rune (trimSpace origin)) "http://" with
      | true => exact Or.inl ⟨_, rfl, trimSpace origin, by simp, hinsecure⟩
      | false =>
        rcases ih (origins ++ [trimSpace origin]) with ⟨err, herr, o, ho, hbad⟩ | ⟨hok, hall⟩
        · exact Or.inl ⟨err, herr, o, List.mem_cons_of_mem _ ho, hbad⟩
        · refine Or.inr ⟨?_, ?_⟩
          · rw [List.append_assoc, List.singleton_append] at hok
            exact hok
          · intro o ho
            rcases List.mem_cons.mp ho with rfl | ho
            · exact hinsecure
            · exact hall o ho

/-- A local origin starts with `http://`. -/
theorem hasPrefix_of_local {origin : String} (h : LocalOrigin lower origin) :
    hasPrefix (toLower lower.rune origin) "http://" = true := by
  obtain ⟨host, hhost, -⟩ := h
  have htext : (toLower lower.rune origin).toList = lowered lower origin := String.toList_ofList
  rw [hasPrefix, List.isPrefixOf_iff_prefix, htext, hhost]
  exact List.prefix_append _ host

/-- **The resolved origins are in order exactly for safe settings and requests.** -/
theorem secure_iff (lower : Lowering) (parse : String → Option URL) (serverAddress : String)
    (r : Request) (settingsOrigins : String) :
    Secure lower parse serverAddress r settingsOrigins ↔
      Safe lower parse serverAddress r settingsOrigins := by
  have hauto : entries settingsOrigins = [] →
      resolveOrigins lower parse serverAddress r settingsOrigins false =
        autoDetect lower parse serverAddress r false := by
    intro hempty
    rw [resolveOrigins]
    by_cases hblank : trimSpace settingsOrigins = ""
    · rw [if_neg (by simp [hblank])]
    · rw [if_pos hblank]
      rcases configuredFrom_eq lower (split ',' (trimSpace settingsOrigins)) [] with
        ⟨err, -, o, ho, -⟩ | ⟨hok, -⟩
      · change o ∈ entries settingsOrigins at ho
        rw [hempty] at ho
        simp at ho
      · change _ = Except.ok ([] ++ entries settingsOrigins) at hok
        rw [hok, hempty]
        rfl
  rw [Safe]
  by_cases hempty : entries settingsOrigins = []
  · rw [if_pos hempty, Secure, hauto hempty]
    exact autoDetect_iff
  · rw [if_neg hempty]
    have hblank : trimSpace settingsOrigins ≠ "" := by
      intro hblank
      apply hempty
      rw [entries, hblank]
      decide
    rw [Secure, resolveOrigins]
    rw [if_pos hblank]
    rcases configuredFrom_eq lower (split ',' (trimSpace settingsOrigins)) [] with
      ⟨err, herr, hbad⟩ | ⟨hok, hall⟩
    · rw [herr]
      exact ⟨fun _ => Or.inl hbad, fun _ => no_origin rfl⟩
    · change _ = Except.ok ([] ++ entries settingsOrigins) at hok
      rw [hok, List.nil_append]
      dsimp only
      rw [if_neg (by simp [hempty])]
      have hnone : ¬ ∃ origin ∈ entries settingsOrigins,
          hasPrefix (toLower lower.rune origin) "http://" = true := by
        rintro ⟨o, ho, hbad⟩
        rw [hall o ho] at hbad
        exact Bool.false_ne_true hbad
      rw [or_iff_right hnone]
      constructor
      · intro h origin horigin hhttp
        have hinsecure := hasPrefix_of_local ((h _ rfl).2 origin horigin hhttp)
        rw [hall origin horigin] at hinsecure
        exact Bool.false_ne_true hinsecure
      · intro h origins horigins
        rw [Except.ok.injEq] at horigins
        subst horigins
        refine ⟨hempty, ?_⟩
        intro origin horigin hhttp
        exact absurd hhttp (h origin horigin)

/-- Lower case of ASCII letters only. -/
def asciiLowering : Lowering where
  rune := Char.toLower
  ascii := fun _ _ => rfl
  beyond := by
    intro c hc
    refine Or.inr (Or.inr ?_)
    have hupper : ¬ (c.val ≥ 'A'.val ∧ c.val ≤ 'Z'.val) := by
      rintro ⟨-, hle⟩
      have hle' : c.toNat ≤ 90 := hle
      omega
    rw [Char.toLower, dif_neg hupper]
    exact hc

/-- A request without a host, and with a forwarded scheme that is blank. -/
def blankRequest : Request where
  host := ""
  tls := false
  urlScheme := ""
  forwardedProto := ","
  forwardedProtocol := ""

theorem http_address_resolved : ¬ ∀ lower parse serverAddress r settingsOrigins,
    Secure lower parse serverAddress r settingsOrigins := by
  intro hall
  have hsecure := hall asciiLowering
    (fun s => if s = "http://example.com" then some ⟨"http", "example.com"⟩ else none)
    "http://example.com" blankRequest ","
  have hscheme : HttpScheme asciiLowering "http://example.com" := by
    show ['h', 't', 't', 'p', ':'] <+: lowered asciiLowering "http://example.com"
    decide +kernel
  have hresolved := (hsecure ["http://example.com"] rfl).2 "http://example.com" (by simp) hscheme
  obtain ⟨host, htext, name, hname, hhost⟩ := hresolved
  have hexample : host = "example.com".toList := by
    have hlowered : lowered asciiLowering "http://example.com" =
      "http://".toList ++ "example.com".toList := by decide +kernel
    rw [hlowered] at htext
    exact (List.append_cancel_left htext).symm
  subst hexample
  rcases List.mem_cons.mp hname with rfl | hname
  · rcases hhost with h | ⟨port, -, h⟩ <;> simp at h
  · obtain rfl := List.mem_singleton.mp hname
    rcases hhost with h | ⟨port, -, h⟩ <;> simp at h

end AuthGateway.SecureOrigins
