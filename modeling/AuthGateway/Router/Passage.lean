import AuthGateway.Lib.Chain
import AuthGateway.Middleware.Auth
import AuthGateway.Middleware.EmailVerification
import AuthGateway.RateLimit
import AuthGateway.Router.ApiRouter
import AuthGateway.SessionValues

/-!
# What a request passes on its way to its handler

The middlewares of a route, with the limiter in memory and the session of the
request.  `TurnstileCheck` remembers in the session that a robot was kept away; when
the session cannot be saved it has answered, but it has not aborted, and the
handler runs all the same.

The handlers are not spelled out here: what they do to the session is a list of
`Write`s, of which none is that of `TurnstileCheck`.
-/

namespace AuthGateway.Router

open Common Model SessionValues

/-- How many requests of a client in how many seconds, if it is switched on. -/
structure RateLimitSetting where
  enable : Bool := true
  num : Nat
  duration : Int

/-- `common/init.go`. -/
structure RateLimits where
  globalApi : RateLimitSetting := { num := 180, duration := 180 }
  globalWeb : RateLimitSetting := { num := 60, duration := 180 }
  critical : RateLimitSetting := { num := 20, duration := 20 * 60 }

/-- What a handler writes into the session. -/
abbrev HandlerWrite : Type := { w : Write // w ≠ .turnstileCheck }

/-- A request, and what it meets outside the middlewares. -/
structure Incoming where
  method : Method
  path : String
  clientIP : String
  authorization : String := ""
  /-- `c.Query("turnstile")`. -/
  turnstile : String := ""
  /-- `time.Now()`. -/
  now : Int
  /-- `common.TurnstileCheckEnabled`. -/
  turnstileCheckEnabled : Bool := false
  /-- Whether `siteverify` accepts a token, or the request to it or its answer fails. -/
  siteverify : String → Except Err Bool
  /-- Why the cookie of a session cannot be written, if it cannot. -/
  saveError : Values → Option Err := fun _ => none
  store : Store
  /-- What a handler has written when it saves the session last, if it does. -/
  writes : Handler → Option Middleware.Auth → Values → Option (List HandlerWrite) :=
    fun _ _ _ => none

/-- The answer of a middleware that aborts. -/
inductive Refusal
  | status (status : Nat)
  | reply (r : Reply)

/-- A request on its way. -/
structure Passage where
  limiter : InMemoryRateLimiter
  cur : Values
  saved : Values
  auth : Option Middleware.Auth := none
  store : Store
  /-- What has been written into the body without an abort. -/
  written : List Reply := []

/-! ### The middlewares -/

/-- What `rateLimitFactory` makes for the limiter in memory, or `defNext`. -/
def rateLimit (setting : RateLimitSetting) (mark : String) (a : Incoming) (p : Passage) :
    Option Refusal × Passage :=
  if setting.enable then
    let (verdict, limiter) := Middleware.memoryRateLimiter p.limiter a.clientIP setting.num
      setting.duration mark a.now
    (match verdict with
      | .next => none
      | .abort status => some (.status status), { p with limiter := limiter })
  else (none, p)

def emailVerificationRateLimit (a : Incoming) (p : Passage) : Option Refusal × Passage :=
  let (outcome, g) := Middleware.emailVerificationRateLimit false {} a.clientIP a.now
    { limiter := some p.limiter }
  (match outcome with
    | .next => none
    | .abort status message => some (.reply (.json status false message none))
    | .panicked => some (.reply .panicked), { p with limiter := g.limiter.getD p.limiter })

def turnstileCheck (a : Incoming) (p : Passage) : Option Refusal × Passage :=
  if a.turnstileCheckEnabled then
    match p.cur "turnstile" with
    | some _ => (none, p)
    | none =>
      if a.turnstile = "" then (some (.reply (.failure "Turnstile token 为空")), p)
      else match a.siteverify a.turnstile with
        | .error e => (some (.reply (.failure e.error)), p)
        | .ok false => (some (.reply (.failure "Turnstile 校验失败，请刷新重试！")), p)
        | .ok true =>
          let cur := Write.turnstileCheck.apply p.cur
          match a.saveError cur with
          -- answered, but not aborted
          | some _ => (none, { p with
              cur := cur
              written := p.written ++ [.failure "无法保存会话信息，请重试"] })
          | none => (none, { p with cur := cur, saved := cur })
  else (none, p)

/-- `authHelper`, behind which the context has the account. -/
def authenticate (minRole : Int) (a : Incoming) (p : Passage) : Option Refusal × Passage :=
  match serve (Middleware.authHelper minRole (view p.cur) a.authorization) p.store with
  | (.error reply, store) => (some (.reply reply), { p with store := store })
  | (.ok auth, store) => (none, { p with auth := some auth, store := store })

def check (limits : RateLimits) (a : Incoming) :
    Guard → Passage → Option Refusal × Passage
  | .gzip => fun p => (none, p)
  | .globalAPIRateLimit => rateLimit limits.globalApi "GA" a
  | .globalWebRateLimit => rateLimit limits.globalWeb "GW" a
  | .criticalRateLimit => rateLimit limits.critical "CT" a
  | .emailVerificationRateLimit => emailVerificationRateLimit a
  | .turnstileCheck => turnstileCheck a
  | .userAuth => authenticate roleCommonUser a
  | .adminAuth => authenticate roleAdminUser a
  | .rootAuth => authenticate roleRootUser a
  | .cache => fun p => (none, p)

/-! ### A request -/

/-- What becomes of a request: the cookie it leaves, and the handler that ran, if
one did, with the account of the context. -/
structure Served where
  limiter : InMemoryRateLimiter
  cookie : Values
  handled : Option (Handler × Option Middleware.Auth)
  refusal : Option Refusal
  written : List Reply

def Passage.start (a : Incoming) (limiter : InMemoryRateLimiter) (cookie : Values) : Passage where
  limiter := limiter
  cur := cookie
  saved := cookie
  store := a.store

/-- The writes of a handler on the session. -/
def applyWrites (v : Values) (ws : List HandlerWrite) : Values :=
  ws.foldl (fun v w => w.1.apply v) v

def respond (limits : RateLimits) (E : Engine) (a : Incoming) (limiter : InMemoryRateLimiter)
    (cookie : Values) : Served :=
  let (chain, handler) := E.dispatch a.method a.path
  match Chain.run (check limits a) chain (Passage.start a limiter cookie) with
  | (some refusal, p) => ⟨p.limiter, p.saved, none, some refusal, p.written⟩
  | (none, p) =>
    let cookie := match a.writes handler p.auth p.cur with
      | some ws => applyWrites p.cur ws
      | none => p.saved
    ⟨p.limiter, cookie, some (handler, p.auth), none, p.written⟩

/-! ### One check -/

section Check

variable (limits : RateLimits) (a : Incoming)

theorem rateLimit_rest (setting : RateLimitSetting) (mark : String) (p : Passage) :
    (rateLimit setting mark a p).2
      = { p with limiter := (rateLimit setting mark a p).2.limiter } := by
  unfold rateLimit
  split <;> rfl

/-- The request shows a token that `siteverify` accepts, when one is asked for. -/
structure Incoming.Proves (a : Incoming) : Prop where
  enabled : a.turnstileCheckEnabled = true
  shown : a.turnstile ≠ ""
  accepted : a.siteverify a.turnstile = .ok true

/-- **What `TurnstileCheck` does**: nothing to the session, and then it lets nobody
through without a proof it has, unless it is off; or it writes the proof. -/
theorem turnstileCheck_spec (p : Passage) :
    ((turnstileCheck a p).2 = p ∧ ((turnstileCheck a p).1 = none →
        a.turnstileCheckEnabled = false ∨ (p.cur "turnstile").isSome = true)) ∨
      a.Proves ∧ ∃ saved written,
        (saved = p.saved ∨ saved = Write.turnstileCheck.apply p.cur) ∧
        turnstileCheck a p = (none, { p with
          cur := Write.turnstileCheck.apply p.cur
          saved := saved
          written := written }) := by
  unfold turnstileCheck
  split
  · rename_i henabled
    cases hproof : p.cur "turnstile" with
    | some x => exact Or.inl ⟨rfl, fun _ => Or.inr rfl⟩
    | none =>
      dsimp only
      split
      · exact Or.inl ⟨rfl, fun h => nomatch h⟩
      · rename_i hshown
        cases hanswer : a.siteverify a.turnstile with
        | error e => exact Or.inl ⟨rfl, fun h => nomatch h⟩
        | ok success =>
          cases success with
          | false => exact Or.inl ⟨rfl, fun h => nomatch h⟩
          | true =>
            refine Or.inr ⟨⟨henabled, hshown, hanswer⟩, ?_⟩
            dsimp only
            cases a.saveError (Write.turnstileCheck.apply p.cur) with
            | some e => exact ⟨p.saved, _, Or.inl rfl, rfl⟩
            | none => exact ⟨_, p.written, Or.inr rfl, rfl⟩
  · rename_i hoff
    exact Or.inl ⟨rfl, fun _ => Or.inl (Bool.not_eq_true _ ▸ hoff)⟩

/-- What a middleware asks the limiter. -/
def asks : Guard → Option RateLimit.Act
  | .globalAPIRateLimit => ask limits.globalApi "GA"
  | .globalWebRateLimit => ask limits.globalWeb "GW"
  | .criticalRateLimit => ask limits.critical "CT"
  | .emailVerificationRateLimit =>
    some (.request (Middleware.emailMemoryKey a.clientIP) Middleware.emailVerificationMaxRequests
      Middleware.emailVerificationDuration a.now)
  | _ => none
where
  ask (setting : RateLimitSetting) (mark : String) : Option RateLimit.Act :=
    if setting.enable then some (.request (mark ++ a.clientIP) setting.num setting.duration a.now)
    else none

theorem rateLimit_limiter (setting : RateLimitSetting) (mark : String) (p : Passage) :
    (rateLimit setting mark a p).2.limiter
      = (asks.ask a setting mark).toList.foldl RateLimit.step p.limiter := by
  unfold rateLimit asks.ask
  split <;> rfl

theorem check_limiter (m : Guard) (p : Passage) :
    (check limits a m p).2.limiter = (asks limits a m).toList.foldl RateLimit.step p.limiter := by
  cases m with
  | globalAPIRateLimit => exact rateLimit_limiter a _ _ p
  | globalWebRateLimit => exact rateLimit_limiter a _ _ p
  | criticalRateLimit => exact rateLimit_limiter a _ _ p
  | emailVerificationRateLimit => rfl
  | turnstileCheck =>
    rcases turnstileCheck_spec a p with ⟨hsame, -⟩ | ⟨-, saved, written, -, hsame⟩
    · exact congrArg Passage.limiter hsame
    · exact congrArg (fun r => r.2.limiter) hsame
  | userAuth => simp only [check, authenticate]; split <;> rfl
  | adminAuth => simp only [check, authenticate]; split <;> rfl
  | rootAuth => simp only [check, authenticate]; split <;> rfl
  | gzip => rfl
  | cache => rfl

end Check

end AuthGateway.Router
