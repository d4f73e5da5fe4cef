import AuthGateway.Lib.Prog
import AuthGateway.Lib.GoString
import AuthGateway.Common.Constants

/-!
# common/redis.go

Objects kept as hashes in Redis: one field for each field of the struct, and a
time to live.  A `HashOp` is one command of the client, or one transaction, and
is atomic.  A command that fails may have been performed all the same (`Outage`).
A key whose time has come is not there any more, whether the server has dropped
it or not.
-/

namespace AuthGateway.Common

open GoString

/-! ### The server -/

/-- The fields of a hash, by name. -/
abbrev Fields : Type := String → Option String

/-- A hash, and when it expires, if ever. -/
structure RedisHash where
  fields : Fields
  deadline : Option Int := none

/-- The client reports an error; the command may have reached the server. -/
structure Outage where
  err : Err
  applied : Bool

structure HashServer where
  hashes : String → Option RedisHash := fun _ => none
  /-- In milliseconds. -/
  now : Int := 0
  calls : Nat := 0
  /-- Which commands to come will fail. -/
  outages : Nat → Option Outage := fun _ => none

namespace HashServer

/-- A key that has not expired. -/
def hash (s : HashServer) (key : String) : Option RedisHash :=
  (s.hashes key).filter fun h => h.deadline.all fun d => s.now ≤ d

/-- What `HGETALL` sees of a key. -/
def fields (s : HashServer) (key : String) : Option Fields := (s.hash key).map RedisHash.fields

def put (s : HashServer) (key : String) (h : RedisHash) : HashServer :=
  { s with hashes := Function.update s.hashes key (some h) }

/-- `DEL`. -/
def del (s : HashServer) (key : String) : HashServer :=
  { s with hashes := Function.update s.hashes key none }

/-- A command has been sent. -/
def called (s : HashServer) : HashServer := { s with calls := s.calls + 1 }

end HashServer

/-! ### What a command does -/

/-- The fields after `HSET`; the names of `data` are those of a map. -/
def setFields (fields : Fields) (data : List (String × String)) : Fields :=
  fun name => (data.lookup name).or (fields name)

/-- A string that Redis takes for an integer: it is written the way `Itoa` would. -/
def redisInt (value : String) : Option Int :=
  match atoi value with
  | (n, none) => if itoa n = value then some n else none
  | (_, some _) => none

/-- The fields after `HINCRBY`; a field that is not there counts as 0. -/
def incrField (fields : Fields) (field : String) (delta : Int) : Except Err Fields :=
  match (match fields field with | none => some 0 | some value => redisInt value) with
  | none => .error (.new "ERR hash value is not an integer")
  | some n =>
    if n + delta < -2 ^ 63 ∨ 2 ^ 63 ≤ n + delta then
      .error (.new "ERR increment or decrement would overflow")
    else .ok (setFields fields [(field, itoa (n + delta))])

/-- A duration in whole seconds, as the client sends it. -/
def formatSec (duration : Int) : Int :=
  if 0 < duration ∧ duration < second then 1 else duration.tdiv second

/-- `n * time.Second`, on 64 bits. -/
def ofSeconds (n : Int) : Int := (n * second).bmod (2 ^ 64)

namespace HashServer

/-- `TTL`: in whole seconds, -1 without a time to live, -2 without the key.  The
client makes the negative answers nanoseconds. -/
def ttl (s : HashServer) (key : String) : Int :=
  match s.hash key with
  | none => -2
  | some h =>
    match h.deadline with
    | none => -1
    | some d => (d - s.now + 500) / 1000 * second

/-- `EXPIRE`, with a positive duration. -/
def expire (s : HashServer) (key : String) (duration : Int) : HashServer :=
  match s.hash key with
  | none => s
  | some h => s.put key { h with deadline := some (s.now + formatSec duration * 1000) }

/-- The hash that a command writes to: a new one when the key is not there. -/
def current (s : HashServer) (key : String) : RedisHash :=
  (s.hash key).getD { fields := fun _ => none }

/-- `HSET`; a key that is there keeps its time to live. -/
def hSet (s : HashServer) (key : String) (data : List (String × String)) : HashServer :=
  s.put key { s.current key with fields := setFields (s.current key).fields data }

/-- `HINCRBY`. -/
def hIncrBy (s : HashServer) (key field : String) (delta : Int) : Except Err Unit × HashServer :=
  match incrField (s.current key).fields field delta with
  | .error e => (.error e, s)
  | .ok fields => (.ok (), s.put key { s.current key with fields := fields })

end HashServer

/-! ### The commands -/

inductive HashOp
  | ttl (key : String)
  | hGetAll (key : String)
  | del (key : String)
  /-- The transaction of `RedisHSetObj`. -/
  | hSetObj (key : String) (data : List (String × String)) (expiration : Int)
  /-- The transaction of `RedisHSetField`. -/
  | hSetField (key field value : String) (ttl : Int)
  /-- The transaction of `RedisHIncrBy`. -/
  | hIncrBy (key field : String) (delta ttl : Int)
  /-- Time passes, in milliseconds. -/
  | pass (d : Nat)
deriving DecidableEq

abbrev HashOp.Ans : HashOp → Type
  | ttl _ => Except Err Int
  | hGetAll _ => Except Err (Option Fields)
  | pass _ => Unit
  | _ => Except Err Unit

/-- The answer and the effect of a command that reaches the server.  `HGETALL`
answers no fields for a key that is not there. -/
def serve : (o : HashOp) → HashServer → o.Ans × HashServer
  | .ttl key, s => (.ok (s.ttl key), s)
  | .hGetAll key, s => (.ok (s.fields key), s)
  | .del key, s => (.ok (), s.del key)
  | .hSetObj key data expiration, s =>
    (.ok (), if 0 < expiration then (s.hSet key data).expire key expiration else s.hSet key data)
  | .hSetField key field value ttl, s => (.ok (), (s.hSet key [(field, value)]).expire key ttl)
  | .hIncrBy key field delta ttl, s =>
    -- A transaction goes on after a command that fails.
    ((s.hIncrBy key field delta).1, (s.hIncrBy key field delta).2.expire key ttl)
  | .pass d, s => ((), { s with now := s.now + d })

/-- The answer of a command that failed. -/
def HashOp.failed (e : Err) : (o : HashOp) → o.Ans
  | ttl _ => .error e
  | hGetAll _ => .error e
  | del _ => .error e
  | hSetObj _ _ _ => .error e
  | hSetField _ _ _ _ => .error e
  | hIncrBy _ _ _ _ => .error e
  | pass _ => ()

/-- Whether the next command fails; the time always passes. -/
def HashServer.outage (s : HashServer) : HashOp → Option Outage
  | .pass _ => none
  | _ => s.outages s.calls

/-- The command reaches the server. -/
def HashServer.reached (s : HashServer) (o : HashOp) : Bool := (s.outage o).all Outage.applied

/-- **What a command answers and does.** -/
def hashExec (o : HashOp) (s : HashServer) : o.Ans × HashServer :=
  match s.outage o with
  | none => ((serve o s).1, (serve o s).2.called)
  | some f => (o.failed f.err, (if f.applied then (serve o s).2 else s).called)

/-! ### The fields of a key -/

namespace HashServer

variable (s : HashServer) (key : String)

theorem fields_eq_some {s : HashServer} {key : String} {h : RedisHash} (hh : s.hash key = some h) :
    s.fields key = some h.fields := by
  rw [fields, hh]
  rfl

theorem hash_put_of_ne {key' : String} (h : RedisHash) (hne : key' ≠ key) :
    (s.put key h).hash key' = s.hash key' := by
  show (Function.update s.hashes key (some h) key').filter _ = _
  rw [Function.update_of_ne hne]
  rfl

theorem fields_put_of_ne {key' : String} (h : RedisHash) (hne : key' ≠ key) :
    (s.put key h).fields key' = s.fields key' := by
  rw [fields, hash_put_of_ne s key h hne, fields]

theorem fields_current : (s.current key).fields = (s.fields key).getD fun _ => none := by
  rw [current, fields]
  cases s.hash key with
  | none => rfl
  | some h => rfl

/-- What is put is seen, unless its time has come. -/
theorem fields_put {h : RedisHash} {fields' : Fields}
    (hseen : (s.put key h).fields key = some fields') : h.fields = fields' := by
  obtain ⟨h', hh', hfields⟩ := Option.map_eq_some_iff.mp hseen
  have hsome : some h = some h' := by
    have hfilter := Option.filter_eq_some_iff.mp hh'
    simpa [put] using hfilter.1
  rw [Option.some.inj hsome]
  exact hfields

theorem fields_del : (s.del key).fields key = none := by
  simp [fields, hash, del]

theorem fields_del_of_ne {key' : String} (hne : key' ≠ key) :
    (s.del key).fields key' = s.fields key' := by
  show ((Function.update s.hashes key none key').filter _).map _ = _
  rw [Function.update_of_ne hne]
  rfl

theorem fields_called : s.called.fields key = s.fields key := rfl

/-- Time can only take a key away. -/
theorem fields_pass (d : Nat) {fields' : Fields}
    (hseen : fields { s with now := s.now + d } key = some fields') : s.fields key = some fields' := by
  obtain ⟨h, hh, hfields⟩ := Option.map_eq_some_iff.mp hseen
  obtain ⟨hput, hlive⟩ := Option.filter_eq_some_iff.mp hh
  have hbefore : s.hash key = some h := by
    refine Option.filter_eq_some_iff.mpr ⟨hput, ?_⟩
    cases hd : h.deadline with
    | none => rfl
    | some deadline =>
      rw [hd] at hlive
      simp only [Option.all_some, decide_eq_true_eq] at hlive ⊢
      omega
  rw [fields_eq_some hbefore, hfields]

theorem fields_expire (duration : Int) {key' : String} {fields' : Fields}
    (hseen : (s.expire key duration).fields key' = some fields') : s.fields key' = some fields' := by
  rw [expire] at hseen
  cases hh : s.hash key with
  | none =>
    rw [hh] at hseen
    exact hseen
  | some h =>
    rw [hh] at hseen
    by_cases hkey : key' = key
    · subst hkey
      rw [fields_eq_some hh, ← fields_put s key' hseen]
    · exact (fields_put_of_ne s key _ hkey).symm.trans hseen

theorem fields_hSet (data : List (String × String)) {fields' : Fields}
    (hseen : (s.hSet key data).fields key = some fields') :
    setFields ((s.fields key).getD fun _ => none) data = fields' := by
  rw [← fields_current]
  exact fields_put s key hseen

theorem fields_hSet_of_ne (data : List (String × String)) {key' : String} (hne : key' ≠ key) :
    (s.hSet key data).fields key' = s.fields key' :=
  fields_put_of_ne s key _ hne

theorem fields_hIncrBy (field : String) (delta : Int) {fields' : Fields}
    (hseen : (s.hIncrBy key field delta).2.fields key = some fields') :
    (∃ e, incrField ((s.fields key).getD fun _ => none) field delta = .error e ∧
        s.fields key = some fields') ∨
      incrField ((s.fields key).getD fun _ => none) field delta = .ok fields' := by
  rw [← fields_current]
  rw [hIncrBy] at hseen
  cases hincr : incrField (s.current key).fields field delta with
  | error e =>
    rw [hincr] at hseen
    exact Or.inl ⟨e, rfl, hseen⟩
  | ok fields =>
    rw [hincr] at hseen
    rw [← fields_put s key hseen]
    exact Or.inr rfl

theorem fields_hIncrBy_of_ne (field : String) (delta : Int) {key' : String} (hne : key' ≠ key) :
    (s.hIncrBy key field delta).2.fields key' = s.fields key' := by
  rw [hIncrBy]
  cases incrField (s.current key).fields field delta with
  | error e => rfl
  | ok fields => exact fields_put_of_ne s key _ hne

end HashServer

/-- What a command makes of the fields of a key, whose time may come as well. -/
def HashOp.effect (key : String) : HashOp → Option Fields → Option Fields
  | del k, b => if k = key then none else b
  | hSetObj k data _, b => if k = key then some (setFields (b.getD fun _ => none) data) else b
  | hSetField k field value _, b =>
    if k = key then some (setFields (b.getD fun _ => none) [(field, value)]) else b
  | hIncrBy k field delta _, b =>
    if k = key then
      match incrField (b.getD fun _ => none) field delta with
      | .error _ => b
      | .ok fields => some fields
    else b
  | _, b => b

open HashServer in
/-- **What is seen of a key after a command.** -/
theorem fields_serve (o : HashOp) (s : HashServer) (key : String) {fields' : Fields}
    (hseen : (serve o s).2.fields key = some fields') :
    o.effect key (s.fields key) = some fields' := by
  cases o with
  | ttl k => exact hseen
  | hGetAll k => exact hseen
  | pass d => exact fields_pass s key d hseen
  | del k =>
    simp only [serve] at hseen
    simp only [HashOp.effect]
    by_cases hkey : k = key
    · rw [hkey, fields_del] at hseen
      cases hseen
    · rw [fields_del_of_ne s k (Ne.symm hkey)] at hseen
      rw [if_neg hkey, hseen]
  | hSetObj k data expiration =>
    have hset : (s.hSet k data).fields key = some fields' := by
      simp only [serve] at hseen
      split at hseen
      · exact fields_expire _ k expiration hseen
      · exact hseen
    simp only [HashOp.effect]
    by_cases hkey : k = key
    · subst hkey
      rw [if_pos rfl, fields_hSet s k data hset]
    · rw [fields_hSet_of_ne s k data (Ne.symm hkey)] at hset
      rw [if_neg hkey, hset]
  | hSetField k field value ttl =>
    have hset : (s.hSet k [(field, value)]).fields key = some fields' :=
      fields_expire _ k ttl hseen
    simp only [HashOp.effect]
    by_cases hkey : k = key
    · subst hkey
      rw [if_pos rfl, fields_hSet s k _ hset]
    · rw [fields_hSet_of_ne s k _ (Ne.symm hkey)] at hset
      rw [if_neg hkey, hset]
  | hIncrBy k field delta ttl =>
    have hset : (s.hIncrBy k field delta).2.fields key = some fields' :=
      fields_expire _ k ttl hseen
    simp only [HashOp.effect]
    by_cases hkey : k = key
    · subst hkey
      rw [if_pos rfl]
      rcases fields_hIncrBy s k field delta hset with ⟨e, hincr, hsame⟩ | hincr
      · rw [hincr, hsame]
      · rw [hincr]
    · rw [fields_hIncrBy_of_ne s k field delta (Ne.symm hkey)] at hset
      rw [if_neg hkey, hset]

/-- The same, for a command that may fail. -/
theorem fields_hashExec (o : HashOp) (s : HashServer) (key : String) {fields' : Fields}
    (hseen : (hashExec o s).2.fields key = some fields') :
    (if s.reached o then o.effect key (s.fields key) else s.fields key) = some fields' := by
  rw [hashExec] at hseen
  cases hout : s.outage o with
  | none =>
    rw [hout] at hseen
    have hreached : s.reached o = true := by rw [HashServer.reached, hout]; rfl
    rw [if_pos hreached]
    exact fields_serve o s key hseen
  | some f =>
    rw [hout] at hseen
    simp only [HashServer.reached, hout, Option.all_some]
    cases hf : f.applied with
    | true =>
      simp only [hf, if_true] at hseen
      exact fields_serve o s key hseen
    | false =>
      simp only [hf, Bool.false_eq_true, if_false] at hseen
      exact hseen

/-! ### A server that answers -/

namespace HashServer

theorem outages_serve (o : HashOp) (s : HashServer) : (serve o s).2.outages = s.outages := by
  have hexpire : ∀ (s : HashServer) key d, (s.expire key d).outages = s.outages := by
    intro s key d
    rw [expire]
    split
    · rfl
    · rfl
  cases o with
  | hSetObj key data expiration =>
    simp only [serve]
    split
    · exact hexpire _ _ _
    · rfl
  | hSetField key field value ttl => exact hexpire _ _ _
  | hIncrBy key field delta ttl =>
    refine (hexpire _ _ _).trans ?_
    rw [hIncrBy]
    split
    · rfl
    · rfl
  | _ => rfl

/-- Every command that is sent reaches the server and is answered. -/
def Up (s : HashServer) : Prop := s.outages = fun _ => none

theorem Up.hashExec {s : HashServer} (h : s.Up) (o : HashOp) :
    hashExec o s = ((serve o s).1, (serve o s).2.called) := by
  have hout : s.outage o = none := by
    cases o <;> first | rfl | exact congrFun h _
  rw [Common.hashExec, hout]

theorem Up.serve {s : HashServer} (h : s.Up) (o : HashOp) : (Common.serve o s).2.Up :=
  (outages_serve o s).trans h

theorem ttl_of_fields_eq_none {s : HashServer} {key : String} (h : s.fields key = none) :
    s.ttl key = -2 := by
  have hhash : s.hash key = none := by
    rw [fields, Option.map_eq_none_iff] at h
    exact h
  rw [ttl, hhash]

theorem hash_put_self {s : HashServer} {key : String} {h : RedisHash}
    (hlive : ∀ d, h.deadline = some d → s.now ≤ d) : (s.put key h).hash key = some h := by
  have hall : (h.deadline.all fun d => decide (s.now ≤ d)) = true := by
    cases hd : h.deadline with
    | none => rfl
    | some d => simpa using hlive d hd
  have hget : (s.put key h).hashes key = some h := Function.update_self _ _ _
  rw [hash, hget, Option.filter_some]
  exact if_pos hall

theorem current_live {s : HashServer} {key : String} {d : Int}
    (hd : (s.current key).deadline = some d) : s.now ≤ d := by
  rw [current] at hd
  cases hh : s.hash key with
  | none =>
    rw [hh] at hd
    cases hd
  | some h =>
    rw [hh, Option.getD_some] at hd
    have hlive := (Option.filter_eq_some_iff.mp hh).2
    rw [hd] at hlive
    simpa using hlive

/-- A key that was given a time to live has it. -/
theorem ttl_expire {s : HashServer} {key : String} {h : RedisHash} (hh : s.hash key = some h)
    {duration : Int} (hd : 0 < duration) : 0 < (s.expire key duration).ttl key := by
  have hsec : 1 ≤ formatSec duration := by
    rw [formatSec]
    split
    · exact Int.le_refl 1
    · rename_i hlong
      have hlong' : second ≤ duration := by
        by_contra hshort
        exact hlong ⟨hd, by omega⟩
      rw [Int.tdiv_eq_ediv_of_nonneg (by omega)]
      simp only [second] at hlong' ⊢
      omega
  have hput : (s.expire key duration).hash key
      = some { h with deadline := some (s.now + formatSec duration * 1000) } := by
    rw [expire, hh]
    refine hash_put_self fun d hd => ?_
    rw [← Option.some.inj hd]
    omega
  have hnow : (s.expire key duration).now = s.now := by
    rw [expire, hh]
    rfl
  rw [ttl, hput, hnow]
  simp only [second]
  omega

/-- `RedisHSetObj` gives a key its time to live. -/
theorem ttl_hSetObj (s : HashServer) (key : String) (data : List (String × String))
    {expiration : Int} (h : 0 < expiration) :
    0 < (Common.serve (.hSetObj key data expiration) s).2.ttl key := by
  simp only [Common.serve]
  rw [if_pos h]
  have hhash : (s.hSet key data).hash key
      = some { s.current key with fields := setFields (s.current key).fields data } :=
    hash_put_self fun d hd => current_live hd
  exact ttl_expire hhash h

end HashServer

/-- An integer field after an increment. -/
theorem incrField_itoa {f : Fields} {field : String} {n delta : Int} (h : f field = some (itoa n))
    (hlow : -2 ^ 63 ≤ n) (hhigh : n < 2 ^ 63) (hlow' : -2 ^ 63 ≤ n + delta)
    (hhigh' : n + delta < 2 ^ 63) :
    incrField f field delta = .ok (setFields f [(field, itoa (n + delta))]) := by
  have hint : redisInt (itoa n) = some n := by
    rw [redisInt, atoi_itoa hlow hhigh]
    exact if_pos rfl
  rw [incrField, h]
  simp only [hint]
  rw [if_neg (by omega)]

/-- Programs over the server. -/
abbrev HashM : Type → Type := Prog HashOp HashOp.Ans

/-- One command. -/
def hashPerform (o : HashOp) : HashM o.Ans := Prog.perform o

/-! ### The functions -/

/-- `common.RedisDelKey`. -/
def redisDelKey (key : String) : HashM (Option Err) := do
  match ← hashPerform (.del key) with
  | .error e => return some e
  | .ok _ => return none

/-- `common.RedisHSetObj`: `data` is the object, each field as `fmt` writes it. -/
def redisHSetObj (key : String) (data : List (String × String)) (expiration : Int) :
    HashM (Option Err) := do
  match ← hashPerform (.hSetObj key data expiration) with
  | .error e => return some (.new ("failed to execute transaction: " ++ e.error))
  | .ok _ => return none

/-- A field of kind string: its zero value when the hash does not have it. -/
def stringField (result : Fields) (name : String) : String := (result name).getD ""

/-- The text of the error of `strconv.ParseInt`. -/
def parseIntError (value : String) : NumError → String
  | .invalidSyntax => "strconv.ParseInt: parsing " ++ value.quote ++ ": invalid syntax"
  | .range => "strconv.ParseInt: parsing " ++ value.quote ++ ": value out of range"

/-- A field of kind int: its zero value when the hash does not have it. -/
def intField (result : Fields) (name : String) : Except Err Int :=
  match result name with
  | none => .ok 0
  | some value =>
    match atoi value with
    | (n, none) => .ok n
    | (_, some e) =>
      .error (.new ("failed to parse int field " ++ name ++ ": " ++ parseIntError value e))

/-- `common.RedisHGetObj`: `load` sets the fields of the object, one after the
other. -/
def redisHGetObj {α : Type} (key : String) (load : Fields → Except Err α) :
    HashM (Except Err α) := do
  match ← hashPerform (.hGetAll key) with
  | .error e => return .error (.new ("failed to load hash from Redis: " ++ e.error))
  | .ok none => return .error (.new ("key " ++ key ++ " not found in Redis"))
  | .ok (some result) => return load result

/-- `common.RedisHIncrBy`. -/
def redisHIncrBy (key field : String) (delta : Int) : HashM (Option Err) := do
  match ← hashPerform (.ttl key) with
  | .error e => return some (.new ("failed to get TTL: " ++ e.error))
  | .ok ttl =>
    if 0 < ttl then
      match ← hashPerform (.hIncrBy key field delta ttl) with
      | .error e => return some e
      | .ok _ => return none
    else return none

/-- `common.RedisHSetField`. -/
def redisHSetField (key field value : String) : HashM (Option Err) := do
  match ← hashPerform (.ttl key) with
  | .error e => return some (.new ("failed to get TTL: " ++ e.error))
  | .ok ttl =>
    if 0 < ttl then
      match ← hashPerform (.hSetField key field value ttl) with
      | .error e => return some e
      | .ok _ => return none
    else return none

end AuthGateway.Common
