import AuthGateway.Lib.Float64

/-!
# common/limiter

A number of a Lua script is a double.  The server stores one with seventeen
digits, and reads back the same.  `TIME` gives seconds and microseconds.
-/

namespace AuthGateway.Common.Limiter

open Float64

structure RedisTime where
  seconds : Nat
  microseconds : Nat
  microseconds_lt : microseconds < 10 ^ 6

/-- In seconds. -/
def RedisTime.time (t : RedisTime) : ℚ := t.seconds + t.microseconds / 10 ^ 6

structure Config where
  capacity : Int
  rate : Int
  requested : Int

/-- The fields of the bucket; a script reads nothing of a field that is not there. -/
structure Bucket where
  tokens : Option ℚ
  lastTime : Option ℚ

def Bucket.missing : Bucket := { tokens := none, lastTime := none }

/-- `tonumber`, of an integer. -/
def tonumber (n : Int) : ℚ := nearest n

/-- What the script takes for the time. -/
def RedisTime.nowInSeconds (t : RedisTime) : ℚ := tonumber t.seconds

/-- The tokens before the request. -/
def tokensAt (config : Config) (now : RedisTime) (bucket : Bucket) : ℚ :=
  match bucket.tokens, bucket.lastTime with
  | some tokens, some lastTime =>
    let elapsed := nearest (now.nowInSeconds - lastTime)
    let addTokens := nearest (elapsed * tonumber config.rate)
    min (tonumber config.capacity) (nearest (tokens + addTokens))
  | _, _ => tonumber config.capacity

/-- `rate_limit.lua`: whether the request is allowed, and the bucket. -/
def rateLimit (config : Config) (now : RedisTime) (bucket : Bucket) : Bool × Bucket :=
  let tokens := tokensAt config now bucket
  if tonumber config.requested ≤ tokens then
    (true, { tokens := some (nearest (tokens - tonumber config.requested))
             lastTime := some now.nowInSeconds })
  else (false, { tokens := some tokens, lastTime := some now.nowInSeconds })

/-! ### `RedisLimiter.Allow` -/

def defaultConfig : Config := { capacity := 10, rate := 1, requested := 1 }

def withCapacity (c : Int) (cfg : Config) : Config := { cfg with capacity := c }

def withRate (r : Int) (cfg : Config) : Config := { cfg with rate := r }

def withRequested (n : Int) (cfg : Config) : Config := { cfg with requested := n }

def allow (opts : List (Config → Config)) (now : RedisTime) (bucket : Bucket) : Bool × Bucket :=
  rateLimit (opts.foldl (fun cfg opt => opt cfg) defaultConfig) now bucket

/-! ### Executions -/

/-- An execution and its result. -/
structure Execution where
  time : RedisTime
  allowed : Bool

/-- The bucket of a key and what was executed on it. -/
structure State where
  bucket : Bucket
  executions : List Execution

def State.fresh : State := { bucket := Bucket.missing, executions := [] }

def execute (config : Config) (st : State) (now : RedisTime) : State :=
  let r := rateLimit config now st.bucket
  { bucket := r.2, executions := st.executions ++ [{ time := now, allowed := r.1 }] }

end AuthGateway.Common.Limiter
