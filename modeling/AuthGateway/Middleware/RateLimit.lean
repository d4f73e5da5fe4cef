import AuthGateway.Common.RateLimit
import AuthGateway.Lib.Hoare

/-!
# middleware/rate-limit.go

`redisRateLimiter` is a program over the commands of the Redis server;
`memoryRateLimiter` asks the `InMemoryRateLimiter`.  A time that `timeFormat`
writes is kept as its local milliseconds, so the texts that the limiter pushes
all parse.  The server's own steps (time passes, the zone's offset changes, a key
expires) are operations that no request performs.
-/

namespace AuthGateway.Common

/-- `RateLimitKeyExpirationDuration`. -/
def rateLimitKeyExpirationDuration : Int := 20 * 60 * second

/-- In nanoseconds. -/
def millisecond : Int := 1000000

end AuthGateway.Common

namespace AuthGateway.Middleware

open Common Prog

/-! ### The Redis server -/

/-- `time.Now().Format(timeFormat)`: no fraction below the millisecond is
written, and the offset of the zone is not. -/
def formatTime (zone now : Int) : Int := (now + zone) / millisecond

/-- A list, its head first, and when it expires, if ever. -/
structure RedisList where
  entries : List Int := []
  deadline : Option Int := none
deriving DecidableEq

structure RedisServer where
  lists : String → Option RedisList := fun _ => none
  /-- In nanoseconds. -/
  now : Int := 0
  /-- What the local time is ahead. -/
  zone : Int := 0

namespace RedisServer

/-- A key that is not there is an empty list. -/
def list (s : RedisServer) (key : String) : RedisList := (s.lists key).getD {}

/-- Give a key its list; a key whose list is empty is removed. -/
def put (s : RedisServer) (key : String) (l : RedisList) : RedisServer :=
  { s with lists := Function.update s.lists key (if l.entries = [] then none else some l) }

/-- `LPUSH`. -/
def push (s : RedisServer) (key : String) (stamp : Int) : RedisServer :=
  s.put key { s.list key with entries := stamp :: (s.list key).entries }

/-- `LTRIM key 0 stop`. -/
def trim (s : RedisServer) (key : String) (stop : Int) : RedisServer :=
  let entries := (s.list key).entries
  let count := if stop < 0 then (entries.length : Int) + stop + 1 else stop + 1
  s.put key { s.list key with entries := entries.take count.toNat }

/-- `EXPIRE`; a key that is not there stays so. -/
def expire (s : RedisServer) (key : String) (ttl : Int) : RedisServer :=
  s.put key { s.list key with deadline := some (s.now + ttl) }

theorem list_put (s : RedisServer) (key : String) (l : RedisList) :
    (s.put key l).list key = if l.entries = [] then {} else l := by
  by_cases h : l.entries = [] <;> simp [list, put, h]

@[simp] theorem entries_put (s : RedisServer) (key : String) (l : RedisList) :
    ((s.put key l).list key).entries = l.entries := by
  rw [list_put]
  split
  · rename_i h
    rw [h]
  · rfl

/-- A key does not get a deadline by being removed. -/
theorem deadline_put {s : RedisServer} {key : String} {l : RedisList} {d : Int}
    (h : ((s.put key l).list key).deadline = some d) : l.deadline = some d := by
  rw [list_put] at h
  split at h
  · simp at h
  · exact h

theorem list_put_of_ne (s : RedisServer) {key key' : String} (l : RedisList) (h : key' ≠ key) :
    (s.put key l).list key' = s.list key' := by
  simp [list, put, Function.update_of_ne h]

@[simp] theorem entries_push (s : RedisServer) (key : String) (stamp : Int) :
    ((s.push key stamp).list key).entries = stamp :: (s.list key).entries := by
  simp [push]

@[simp] theorem entries_expire (s : RedisServer) (key : String) (ttl : Int) :
    ((s.expire key ttl).list key).entries = (s.list key).entries := by
  simp [expire]

/-- `LTRIM key 0 (n-1)` keeps the `n` newest. -/
theorem entries_trim (s : RedisServer) (key : String) {n : Nat} (h : 1 ≤ n) :
    ((s.trim key (n - 1)).list key).entries = (s.list key).entries.take n := by
  have hstop : ¬ ((n : Int) - 1 < 0) := by omega
  simp [trim, hstop]

/-- After `EXPIRE` a key expires when it was told to. -/
theorem deadline_expire {s : RedisServer} {key : String} {ttl d : Int}
    (h : ((s.expire key ttl).list key).deadline = some d) : d = s.now + ttl := by
  have hd := deadline_put h
  simpa using hd.symm

/-- The key's time has come. -/
def Due (s : RedisServer) (key : String) : Prop := ∃ d, (s.list key).deadline = some d ∧ d ≤ s.now

instance (s : RedisServer) (key : String) : Decidable (s.Due key) :=
  decidable_of_iff ((s.list key).deadline.any fun d => decide (d ≤ s.now)) (by
    simp [Due, Option.any_eq_true])

end RedisServer

inductive RedisOp
  | lLen (key : String)
  /-- `LINDEX key -1`. -/
  | lIndex (key : String)
  | lPush (key : String) (stamp : Int)
  /-- `LTRIM key 0 stop`. -/
  | lTrim (key : String) (stop : Int)
  | expire (key : String) (ttl : Int)
  /-- `time.Now().Format(timeFormat)`. -/
  | now
  /-- Time passes. -/
  | pass (d : Nat)
  /-- The local time changes its offset. -/
  | rezone (zone : Int)
  /-- The server drops the key if it is due. -/
  | expireDue (key : String)
deriving DecidableEq

abbrev RedisOp.Ans : RedisOp → Type
  | lLen _ => Except Err Nat
  | lIndex _ => Option Int
  | now => Int
  | _ => Unit

/-- **The effect and the answer of a command**, on a server that works. -/
def redisExec : (o : RedisOp) → RedisServer → o.Ans × RedisServer
  | .lLen key, s => (.ok (s.list key).entries.length, s)
  | .lIndex key, s => ((s.list key).entries.getLast?, s)
  | .lPush key stamp, s => ((), s.push key stamp)
  | .lTrim key stop, s => ((), s.trim key stop)
  | .expire key ttl, s => ((), s.expire key ttl)
  | .now, s => (formatTime s.zone s.now, s)
  | .pass d, s => ((), { s with now := s.now + d })
  | .rezone zone, s => ((), { s with zone := zone })
  | .expireDue key, s => ((), if s.Due key then s.put key {} else s)

/-- A command on a key, or a look at the clock. -/
def RedisOp.On (key : String) : RedisOp → Prop
  | lLen k | lIndex k | lPush k _ | lTrim k _ | expire k _ => k = key
  | now => True
  | pass _ | rezone _ | expireDue _ => False

/-- A command leaves the clock, its zone and the other keys as they are. -/
theorem exec_on {o : RedisOp} {key : String} (h : o.On key) (s : RedisServer) :
    (redisExec o s).2.now = s.now ∧ (redisExec o s).2.zone = s.zone ∧
      ∀ key', key' ≠ key → (redisExec o s).2.list key' = s.list key' := by
  cases o with
  | lLen k => exact ⟨rfl, rfl, fun _ _ => rfl⟩
  | lIndex k => exact ⟨rfl, rfl, fun _ _ => rfl⟩
  | lPush k stamp =>
    obtain rfl : k = key := h
    exact ⟨rfl, rfl, fun key' hne => s.list_put_of_ne _ hne⟩
  | lTrim k stop =>
    obtain rfl : k = key := h
    exact ⟨rfl, rfl, fun key' hne => s.list_put_of_ne _ hne⟩
  | expire k ttl =>
    obtain rfl : k = key := h
    exact ⟨rfl, rfl, fun key' hne => s.list_put_of_ne _ hne⟩
  | now => exact ⟨rfl, rfl, fun _ _ => rfl⟩
  | pass d => exact h.elim
  | rezone zone => exact h.elim
  | expireDue k => exact h.elim

abbrev RedisM := Prog RedisOp RedisOp.Ans

/-- One command. -/
def rdb (o : RedisOp) : RedisM o.Ans := perform o

/-! ### The middleware -/

/-- What the middleware does with a request: on with it, or a status and no
further. -/
inductive Verdict
  | next
  | abort (status : Nat)
deriving DecidableEq, Repr

def statusInternalServerError : Nat := 500
def statusTooManyRequests : Nat := 429

/-- `int64(nowTime.Sub(oldTime).Seconds())`. -/
def elapsed (oldTime nowTime : Int) : Int := (nowTime - oldTime).tdiv 1000

def redisKey (clientIP mark : String) : String := "rateLimit:" ++ (mark ++ clientIP)

def redisRateLimiter (clientIP : String) (maxRequestNum : Nat) (duration : Int) (mark : String) :
    RedisM Verdict := do
  let key := redisKey clientIP mark
  match ← rdb (.lLen key) with
  | .error _ => return .abort statusInternalServerError
  | .ok listLength =>
    if (show Nat from listLength) < maxRequestNum then
      let stamp ← rdb .now
      rdb (.lPush key stamp)
      rdb (.expire key rateLimitKeyExpirationDuration)
      return .next
    else
      match ← rdb (.lIndex key) with
      -- the empty text is no time
      | none => return .abort statusInternalServerError
      | some oldTime =>
        let nowTime ← rdb .now
        if elapsed oldTime nowTime < duration then
          rdb (.expire key rateLimitKeyExpirationDuration)
          return .abort statusTooManyRequests
        else
          let stamp ← rdb .now
          rdb (.lPush key stamp)
          rdb (.lTrim key (maxRequestNum - 1))
          rdb (.expire key rateLimitKeyExpirationDuration)
          return .next

def memoryRateLimiter (l : InMemoryRateLimiter) (clientIP : String) (maxRequestNum : Nat)
    (duration : Int) (mark : String) (now : Int) : Verdict × InMemoryRateLimiter :=
  let (passes, l) := l.request (mark ++ clientIP) maxRequestNum duration now
  (if passes then .next else .abort statusTooManyRequests, l)

/-- A request gives commands on its own key only. -/
theorem redisRateLimiter_on (clientIP : String) (maxRequestNum : Nat) (duration : Int)
    (mark : String) :
    Only (RedisOp.On (redisKey clientIP mark))
      (redisRateLimiter clientIP maxRequestNum duration mark) := by
  unfold redisRateLimiter rdb
  refine Only.perform_bind rfl fun r => ?_
  cases r with
  | error e => exact Only.pure
  | ok listLength =>
    dsimp only
    split
    · exact Only.perform_bind trivial fun _ => Only.perform_bind rfl fun _ =>
        Only.perform_bind rfl fun _ => Only.pure
    · refine Only.perform_bind rfl fun oldTime => ?_
      cases oldTime with
      | none => exact Only.pure
      | some oldTime =>
        refine Only.perform_bind trivial fun nowTime => ?_
        split
        · exact Only.perform_bind rfl fun _ => Only.pure
        · exact Only.perform_bind trivial fun _ => Only.perform_bind rfl fun _ =>
            Only.perform_bind rfl fun _ => Only.perform_bind rfl fun _ => Only.pure

/-! ### A request alone -/

/-- It leaves the zone and the other keys as they are. -/
theorem run_redisRateLimiter_others (clientIP : String) (maxRequestNum : Nat) (duration : Int)
    (mark : String) (s : RedisServer) :
    ((redisRateLimiter clientIP maxRequestNum duration mark).run redisExec s).2.zone = s.zone ∧
      ∀ key, key ≠ redisKey clientIP mark →
        ((redisRateLimiter clientIP maxRequestNum duration mark).run redisExec s).2.list key
          = s.list key := by
  refine (redisRateLimiter_on clientIP maxRequestNum duration mark).run_invariant
    (I := fun s' : RedisServer => s'.zone = s.zone ∧ ∀ key, key ≠ redisKey clientIP mark →
      s'.list key = s.list key) ?_ ⟨rfl, fun _ _ => rfl⟩
  intro o s' ho hs'
  obtain ⟨-, hzone, hlist⟩ := exec_on ho s'
  exact ⟨hzone.trans hs'.1, fun key hne => (hlist key hne).trans (hs'.2 key hne)⟩

section Alone

variable {clientIP mark : String} {maxRequestNum : Nat} {duration : Int} {s : RedisServer}

/-- The list is not full. -/
theorem run_redisRateLimiter_short
    (h : (s.list (redisKey clientIP mark)).entries.length < maxRequestNum) :
    (redisRateLimiter clientIP maxRequestNum duration mark).run redisExec s
      = (.next, (s.push (redisKey clientIP mark) (formatTime s.zone s.now)).expire
          (redisKey clientIP mark) rateLimitKeyExpirationDuration) := by
  unfold redisRateLimiter rdb
  simp only [perform_bind, run_call, redisExec]
  rw [if_pos h]
  rfl

variable {oldTime : Int}

/-- It is full, and its oldest entry is in the window. -/
theorem run_redisRateLimiter_early
    (h : ¬ (s.list (redisKey clientIP mark)).entries.length < maxRequestNum)
    (hold : (s.list (redisKey clientIP mark)).entries.getLast? = some oldTime)
    (hearly : elapsed oldTime (formatTime s.zone s.now) < duration) :
    (redisRateLimiter clientIP maxRequestNum duration mark).run redisExec s
      = (.abort statusTooManyRequests,
          s.expire (redisKey clientIP mark) rateLimitKeyExpirationDuration) := by
  unfold redisRateLimiter rdb
  simp only [perform_bind, run_call, redisExec]
  rw [if_neg h, run_call]
  simp only [redisExec]
  rw [hold]
  dsimp only
  have hif : elapsed oldTime (redisExec .now s).1 < duration := hearly
  rw [run_call, if_pos hif]
  rfl

/-- It is full, and its oldest entry has left the window. -/
theorem run_redisRateLimiter_late
    (h : ¬ (s.list (redisKey clientIP mark)).entries.length < maxRequestNum)
    (hold : (s.list (redisKey clientIP mark)).entries.getLast? = some oldTime)
    (hlate : ¬ elapsed oldTime (formatTime s.zone s.now) < duration) :
    (redisRateLimiter clientIP maxRequestNum duration mark).run redisExec s
      = (.next, ((s.push (redisKey clientIP mark) (formatTime s.zone s.now)).trim
          (redisKey clientIP mark) (maxRequestNum - 1)).expire
            (redisKey clientIP mark) rateLimitKeyExpirationDuration) := by
  unfold redisRateLimiter rdb
  simp only [perform_bind, run_call, redisExec]
  rw [if_neg h, run_call]
  simp only [redisExec]
  rw [hold]
  dsimp only
  have hif : ¬ elapsed oldTime (redisExec .now s).1 < duration := hlate
  rw [run_call, if_neg hif]
  rfl

end Alone

end AuthGateway.Middleware
