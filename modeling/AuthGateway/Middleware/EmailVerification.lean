import AuthGateway.Common.Redis
import AuthGateway.Middleware.RateLimit

/-!
# middleware/email-verification-rate-limit.go

`redisEmailVerificationRateLimiter` counts the requests of a client under a key
that lives for `EmailVerificationDuration` seconds; each of its three commands may
fail.  When the `INCR` fails it falls back to the `InMemoryRateLimiter`, which
panics as long as nobody has called `Init`: its map is nil then.
-/

namespace AuthGateway.Middleware

open Common GoString

/-! ### Counters in Redis -/

/-- A number, and when it expires, if ever.  Nothing but `INCR` writes a counter. -/
structure Counter where
  value : Nat
  positive : 0 < value
  deadline : Option Int := none

structure CounterServer where
  counters : String → Option Counter := fun _ => none
  /-- In milliseconds. -/
  now : Int := 0

inductive CounterOp
  | incr (key : String)
  | expire (key : String) (duration : Int)
  | ttl (key : String)

abbrev CounterOp.Ans : CounterOp → Type
  | incr _ => Except Err Nat
  | expire _ _ => Except Err Unit
  | ttl _ => Except Err Int

/-- Which of the commands of a request fail. -/
structure Faults where
  incr : Option Outage := none
  expire : Option Outage := none
  ttl : Option Outage := none

namespace CounterServer

/-- A key that has not expired. -/
def counter (s : CounterServer) (key : String) : Option Counter :=
  (s.counters key).filter fun c => c.deadline.all fun d => s.now ≤ d

def put (s : CounterServer) (key : String) (c : Counter) : CounterServer :=
  { s with counters := Function.update s.counters key (some c) }

/-- The counter after `INCR`; a key that is not there counts as 0, and a counter
that is there keeps its time to live. -/
def increased (s : CounterServer) (key : String) : Counter :=
  match s.counter key with
  | none => { value := 1, positive := Nat.one_pos }
  | some c => { c with value := c.value + 1, positive := Nat.succ_pos _ }

/-- `EXPIRE`. -/
def expire (s : CounterServer) (key : String) (duration : Int) : CounterServer :=
  match s.counter key with
  | none => s
  | some c => s.put key { c with deadline := some (s.now + formatSec duration * 1000) }

/-- `TTL`: in whole seconds, -1 without a time to live, -2 without the key.  The
client makes the negative answers nanoseconds. -/
def ttl (s : CounterServer) (key : String) : Int :=
  match s.counter key with
  | none => -2
  | some c =>
    match c.deadline with
    | none => -1
    | some d => (d - s.now + 500) / 1000 * second

/-- What a command answers and does when it reaches the server and comes back. -/
def serve : (o : CounterOp) → CounterServer → o.Ans × CounterServer
  | .incr key, s => (.ok (s.increased key).value, s.put key (s.increased key))
  | .expire key duration, s => (.ok (), s.expire key duration)
  | .ttl key, s => (.ok (s.ttl key), s)

/-- A command that may fail, and may have been performed all the same. -/
def exec (faults : Faults) : (o : CounterOp) → CounterServer → o.Ans × CounterServer
  | .incr key, s =>
    match faults.incr with
    | none => serve (.incr key) s
    | some f => (.error f.err, if f.applied then (serve (.incr key) s).2 else s)
  | .expire key duration, s =>
    match faults.expire with
    | none => serve (.expire key duration) s
    | some f => (.error f.err, if f.applied then (serve (.expire key duration) s).2 else s)
  | .ttl key, s =>
    match faults.ttl with
    | none => serve (.ttl key) s
    | some f => (.error f.err, s)

end CounterServer

/-! ### The middleware -/

def emailVerificationRateLimitMark : String := "EV"
def emailVerificationMaxRequests : Nat := 2
/-- In seconds. -/
def emailVerificationDuration : Int := 30

/-- What becomes of a request: on with it, an answer, or the panic that the
recovery middleware sees. -/
inductive Outcome
  | next
  | abort (status : Nat) (message : String)
  | panicked
deriving DecidableEq

/-- The Redis server, and the limiter of the process: none before `Init`. -/
structure Limiters where
  server : CounterServer := {}
  limiter : Option InMemoryRateLimiter := none

namespace Limiters

/-- `inMemoryRateLimiter.Init`. -/
def init (g : Limiters) : Limiters :=
  { g with
    limiter := some (g.limiter.getD { expirationDuration := rateLimitKeyExpirationDuration }) }

/-- The server's clock says what the request's does. -/
def at' (g : Limiters) (now : Int) : CounterServer := { g.server with now := now / millisecond }

end Limiters

def emailRedisKey (clientIP : String) : String :=
  "emailVerification:" ++ emailVerificationRateLimitMark ++ ":" ++ clientIP

def emailMemoryKey (clientIP : String) : String := emailVerificationRateLimitMark ++ ":" ++ clientIP

def memoryEmailVerificationRateLimiter (clientIP : String) (now : Int) (g : Limiters) :
    Outcome × Limiters :=
  match g.limiter with
  -- an assignment to an entry of a nil map
  | none => (.panicked, g)
  | some l =>
    let (passes, l) := l.request (emailMemoryKey clientIP) emailVerificationMaxRequests
      emailVerificationDuration now
    (if passes then .next else .abort statusTooManyRequests "发送过于频繁，请稍后再试",
      { g with limiter := some l })

/-- What a client is told to wait. -/
def waitSeconds : Except Err Int → Int
  | .ok ttl => if 0 < ttl then ttl.tdiv second else emailVerificationDuration
  | .error _ => emailVerificationDuration

def redisEmailVerificationRateLimiter (faults : Faults) (clientIP : String) (now : Int)
    (g : Limiters) : Outcome × Limiters :=
  let key := emailRedisKey clientIP
  match CounterServer.exec faults (.incr key) (g.at' now) with
  | (.error _, server) => memoryEmailVerificationRateLimiter clientIP now { g with server := server }
  | (.ok count, server) =>
    let server := if (show Nat from count) = 1 then
      (server.exec faults (.expire key (emailVerificationDuration * second))).2 else server
    if (show Nat from count) ≤ emailVerificationMaxRequests then (.next, { g with server := server })
    else
      let (ttl, server) := server.exec faults (.ttl key)
      (.abort statusTooManyRequests ("发送过于频繁，请等待 " ++ itoa (waitSeconds ttl) ++ " 秒后再试"),
        { g with server := server })

/-- `EmailVerificationRateLimit`. -/
def emailVerificationRateLimit (redisEnabled : Bool) (faults : Faults) (clientIP : String)
    (now : Int) (g : Limiters) : Outcome × Limiters :=
  if redisEnabled then redisEmailVerificationRateLimiter faults clientIP now g
  else memoryEmailVerificationRateLimiter clientIP now g.init

/-! ### One request -/

/-- The counter that a request of the client finds. -/
def Limiters.met (g : Limiters) (clientIP : String) (now : Int) : Option Counter :=
  (g.at' now).counter (emailRedisKey clientIP)

/-- Its value: 0 when there is none. -/
def Limiters.count (g : Limiters) (clientIP : String) (now : Int) : Nat :=
  ((g.met clientIP now).map Counter.value).getD 0

/-- The `EXPIRE` of the request is performed, whatever the client hears of it. -/
def Faults.Expires (faults : Faults) : Prop := faults.expire.all Outage.applied = true

instance (faults : Faults) : Decidable faults.Expires := inferInstanceAs (Decidable (_ = _))

/-- The counter that a request leaves. -/
def left (faults : Faults) (now : Int) : Option Counter → Counter
  | none =>
    { value := 1
      positive := Nat.one_pos
      deadline := if faults.Expires then
        some (now / millisecond + emailVerificationDuration * 1000) else none }
  | some c => { c with value := c.value + 1, positive := Nat.succ_pos _ }

theorem redisKey_ne {clientIP clientIP' : String} (h : clientIP' ≠ clientIP) :
    emailRedisKey clientIP' ≠ emailRedisKey clientIP := by
  unfold emailRedisKey
  exact fun hkey => h ((String.append_right_inj _).mp hkey)

theorem counter_put_self {s : CounterServer} {key : String} {c : Counter}
    (h : ∀ d, c.deadline = some d → s.now ≤ d) : (s.put key c).counter key = some c := by
  have hall : (c.deadline.all fun d => decide (s.now ≤ d)) = true := by
    cases hd : c.deadline with
    | none => rfl
    | some d => simpa using h d hd
  have hget : (s.put key c).counters key = some c := Function.update_self _ _ _
  rw [CounterServer.counter, hget, Option.filter_some]
  exact if_pos hall

/-- A failed `EXPIRE` may have been performed. -/
theorem exec_expire (faults : Faults) (s : CounterServer) (key : String) (duration : Int) :
    (s.exec faults (.expire key duration)).2
      = if faults.Expires then s.expire key duration else s := by
  obtain ⟨incr, failed, ttl⟩ := faults
  cases failed with
  | none => simp [CounterServer.exec, CounterServer.serve, Faults.Expires]
  | some f =>
    obtain ⟨err, applied⟩ := f
    cases applied with
    | true => simp [CounterServer.exec, CounterServer.serve, Faults.Expires]
    | false => simp [CounterServer.exec, Faults.Expires]

theorem exec_ttl (faults : Faults) (s : CounterServer) (key : String) :
    (s.exec faults (.ttl key)).2 = s := by
  obtain ⟨incr, expire, failed⟩ := faults
  cases failed with
  | none => rfl
  | some f => rfl

/-- The answer to a count, and what is told when it is too high. -/
def verdict (faults : Faults) (key : String) (server : CounterServer) (count : Nat) : Outcome :=
  if count ≤ emailVerificationMaxRequests then .next
  else .abort statusTooManyRequests
    ("发送过于频繁，请等待 " ++ itoa (waitSeconds (server.exec faults (.ttl key)).1) ++ " 秒后再试")

theorem verdict_eq_next {faults : Faults} {key : String} {server : CounterServer} {count : Nat} :
    verdict faults key server count = .next ↔ count ≤ emailVerificationMaxRequests := by
  unfold verdict
  by_cases h : count ≤ emailVerificationMaxRequests
  · simp [h]
  · simp [h]

theorem verdict_cases (faults : Faults) (key : String) (server : CounterServer) (count : Nat) :
    verdict faults key server count = .next ∨
      ∃ message, verdict faults key server count = .abort statusTooManyRequests message := by
  unfold verdict
  by_cases h : count ≤ emailVerificationMaxRequests
  · exact Or.inl (if_pos h)
  · exact Or.inr ⟨_, if_neg h⟩

section Answered

variable {faults : Faults} (hincr : faults.incr = none) (clientIP : String) (now : Int)
  (g : Limiters)

include hincr

theorem redis_answered {c : Counter}
    (hc : (g.at' now).increased (emailRedisKey clientIP) = c) :
    ∃ server, redisEmailVerificationRateLimiter faults clientIP now g
        = (verdict faults (emailRedisKey clientIP) server c.value, { g with server := server }) ∧
      server = if c.value = 1 then
        (((g.at' now).put (emailRedisKey clientIP) c).exec faults
          (.expire (emailRedisKey clientIP) (emailVerificationDuration * second))).2
        else (g.at' now).put (emailRedisKey clientIP) c := by
  have hexec : (g.at' now).exec faults (.incr (emailRedisKey clientIP))
      = (.ok c.value, (g.at' now).put (emailRedisKey clientIP) c) := by
    rw [← hc]
    unfold CounterServer.exec
    rw [hincr]
    rfl
  refine ⟨_, ?_, rfl⟩
  unfold redisEmailVerificationRateLimiter
  dsimp only
  rw [hexec]
  dsimp only
  unfold verdict
  split
  · rfl
  · rw [exec_ttl]

/-- The request is let through, or told that there are too many. -/
theorem redis_answers :
    (redisEmailVerificationRateLimiter faults clientIP now g).1 = .next ∨
      ∃ message, (redisEmailVerificationRateLimiter faults clientIP now g).1
        = .abort statusTooManyRequests message := by
  obtain ⟨server, hrun, -⟩ := redis_answered hincr clientIP now g rfl
  rw [hrun]
  exact verdict_cases _ _ _ _

/-- No counter is there: a new one, that lives on without its expiry. -/
theorem redis_opens (h : g.met clientIP now = none) :
    (redisEmailVerificationRateLimiter faults clientIP now g).1 = .next ∧
      (redisEmailVerificationRateLimiter faults clientIP now g).2.limiter = g.limiter ∧
      (redisEmailVerificationRateLimiter faults clientIP now g).2.server.counters
        = Function.update g.server.counters (emailRedisKey clientIP)
          (some (left faults now none)) := by
  have hincreased : (g.at' now).increased (emailRedisKey clientIP)
      = { value := 1, positive := Nat.one_pos } := by
    unfold Limiters.met at h
    unfold CounterServer.increased
    rw [h]
  have hput : ((g.at' now).put (emailRedisKey clientIP)
      { value := 1, positive := Nat.one_pos }).counter (emailRedisKey clientIP)
        = some { value := 1, positive := Nat.one_pos } := counter_put_self fun d hd => nomatch hd
  obtain ⟨server, hrun, hserver⟩ := redis_answered hincr clientIP now g hincreased
  have hfirst : verdict faults (emailRedisKey clientIP) server 1 = .next :=
    verdict_eq_next.mpr (by decide)
  rw [hrun]
  refine ⟨hfirst, rfl, ?_⟩
  show server.counters = _
  rw [hserver, if_pos rfl, exec_expire]
  by_cases hexpires : faults.Expires
  · rw [if_pos hexpires, CounterServer.expire, hput]
    simp only [left, if_pos hexpires]
    exact Function.update_idem _ _ _
  · rw [if_neg hexpires]
    simp only [left, if_neg hexpires]
    rfl

/-- A counter is there: it is increased. -/
theorem redis_counts {c : Counter} (h : g.met clientIP now = some c) :
    ((redisEmailVerificationRateLimiter faults clientIP now g).1 = .next ↔
        c.value < emailVerificationMaxRequests) ∧
      (redisEmailVerificationRateLimiter faults clientIP now g).2.limiter = g.limiter ∧
      (redisEmailVerificationRateLimiter faults clientIP now g).2.server.counters
        = Function.update g.server.counters (emailRedisKey clientIP)
          (some (left faults now (some c))) := by
  have hincreased : (g.at' now).increased (emailRedisKey clientIP) = left faults now (some c) := by
    unfold Limiters.met at h
    unfold CounterServer.increased
    rw [h]
    rfl
  have hcount : (left faults now (some c)).value = c.value + 1 := rfl
  have hmore : c.value + 1 ≠ 1 := by
    have := c.positive
    omega
  obtain ⟨server, hrun, hserver⟩ := redis_answered hincr clientIP now g hincreased
  rw [hcount, if_neg hmore] at hserver
  rw [hrun, hserver]
  exact ⟨verdict_eq_next, rfl, rfl⟩

end Answered

/-- An `INCR` that fails: the request goes to the limiter in memory. -/
theorem redis_falls_back {faults : Faults} {f : Outage} (h : faults.incr = some f)
    (clientIP : String) (now : Int) (g : Limiters) :
    ∃ server, redisEmailVerificationRateLimiter faults clientIP now g
      = memoryEmailVerificationRateLimiter clientIP now { g with server := server } := by
  refine ⟨((g.at' now).exec faults (.incr (emailRedisKey clientIP))).2, ?_⟩
  have hexec : ((g.at' now).exec faults (.incr (emailRedisKey clientIP))).1 = .error f.err := by
    unfold CounterServer.exec
    rw [h]
  unfold redisEmailVerificationRateLimiter
  dsimp only
  revert hexec
  generalize (g.at' now).exec faults (.incr (emailRedisKey clientIP)) = r
  obtain ⟨answer, server⟩ := r
  intro hanswer
  obtain rfl : answer = .error f.err := hanswer
  rfl

/-- Before `Init` the limiter in memory panics. -/
theorem redis_panics {faults : Faults} {f : Outage} (h : faults.incr = some f) (clientIP : String)
    (now : Int) {g : Limiters} (hlimiter : g.limiter = none) :
    (redisEmailVerificationRateLimiter faults clientIP now g).1 = .panicked ∧
      (redisEmailVerificationRateLimiter faults clientIP now g).2.limiter = none := by
  obtain ⟨server, hrun⟩ := redis_falls_back h clientIP now g
  rw [hrun, memoryEmailVerificationRateLimiter, hlimiter]
  exact ⟨rfl, rfl⟩

end AuthGateway.Middleware
