import AuthGateway.Common.Redis
import AuthGateway.Model.Rows

/-!
# model/user_cache.go

Users are cached in Redis, each as the hash of a `UserBase`.  One that is written
whole is read back (`UserBase.load_data`), and no two users share a key
(`getUserCacheKey_injective`).
-/

namespace AuthGateway.Model

open Common GoString

/-- What the configuration says of the cache. -/
structure CacheConfig where
  redisEnabled : Bool := true
  /-- In seconds. -/
  syncFrequency : Int := 60

/-- `common.RedisKeyCacheSeconds`. -/
def redisKeyCacheSeconds (cfg : CacheConfig) : Int := cfg.syncFrequency

/-! ### The cached object -/

structure UserBase where
  id : Int := 0
  group : String := ""
  email : String := ""
  quota : Int := 0
  status : Int := 0
  username : String := ""
  setting : String := ""
deriving DecidableEq

def User.toBaseUser (user : User) : UserBase where
  id := user.id
  group := user.group
  quota := user.quota
  status := user.status
  username := user.username
  setting := user.setting
  email := user.email

namespace UserBase

/-- The names of its fields. -/
def names : List String := ["Id", "Group", "Email", "Quota", "Status", "Username", "Setting"]

/-- What `RedisHSetObj` writes of it. -/
def data (cache : UserBase) : List (String × String) :=
  [("Id", itoa cache.id), ("Group", cache.group), ("Email", cache.email),
    ("Quota", itoa cache.quota), ("Status", itoa cache.status), ("Username", cache.username),
    ("Setting", cache.setting)]

/-- What `RedisHGetObj` reads into it, up to the first field that does not parse. -/
def load (result : Fields) : Except Err UserBase := do
  let id ← intField result "Id"
  let quota ← intField result "Quota"
  let status ← intField result "Status"
  return {
    id := id
    group := stringField result "Group"
    email := stringField result "Email"
    quota := quota
    status := status
    username := stringField result "Username"
    setting := stringField result "Setting" }

end UserBase

/-! ### The functions -/

def getUserCacheKey (userId : Int) : String := "user:" ++ itoa userId

section

variable (cfg : CacheConfig)

def invalidateUserCache (userId : Int) : HashM (Option Err) :=
  if cfg.redisEnabled then redisDelKey (getUserCacheKey userId) else return none

def updateUserCache (user : User) : HashM (Option Err) :=
  if cfg.redisEnabled then
    redisHSetObj (getUserCacheKey user.id) user.toBaseUser.data
      (ofSeconds (redisKeyCacheSeconds cfg))
  else return none

def cacheGetUserBase (userId : Int) : HashM (Except Err UserBase) :=
  if cfg.redisEnabled then redisHGetObj (getUserCacheKey userId) UserBase.load
  else return .error (.new "redis is not enabled")

def cacheIncrUserQuota (userId delta : Int) : HashM (Option Err) :=
  if cfg.redisEnabled then redisHIncrBy (getUserCacheKey userId) "Quota" delta else return none

def cacheDecrUserQuota (userId delta : Int) : HashM (Option Err) :=
  cacheIncrUserQuota cfg userId (-delta)

/-- One field of a cached user. -/
def updateUserFieldCache (userId : Int) (field value : String) : HashM (Option Err) :=
  if cfg.redisEnabled then redisHSetField (getUserCacheKey userId) field value else return none

def updateUserStatusCache (userId : Int) (status : Bool) : HashM (Option Err) :=
  updateUserFieldCache cfg userId "Status"
    (itoa (if status then userStatusEnabled else userStatusDisabled))

def updateUserQuotaCache (userId quota : Int) : HashM (Option Err) :=
  updateUserFieldCache cfg userId "Quota" (itoa quota)

def updateUserGroupCache (userId : Int) (group : String) : HashM (Option Err) :=
  updateUserFieldCache cfg userId "Group" group

def updateUserNameCache (userId : Int) (username : String) : HashM (Option Err) :=
  updateUserFieldCache cfg userId "Username" username

def updateUserSettingCache (userId : Int) (setting : String) : HashM (Option Err) :=
  updateUserFieldCache cfg userId "Setting" setting

end

/-! ### On a server that answers -/

section Up

variable {cfg : CacheConfig} (henabled : cfg.redisEnabled = true) {server : HashServer}
  (hup : server.Up)

include henabled hup

theorem run_updateUserCache (user : User) : ((updateUserCache cfg user).run hashExec server)
    = (none, (Common.serve (.hSetObj (getUserCacheKey user.id) user.toBaseUser.data
        (ofSeconds (redisKeyCacheSeconds cfg))) server).2.called) := by
  rw [updateUserCache, if_pos henabled, redisHSetObj, hashPerform, Prog.perform_bind,
    Prog.run_call, hup.hashExec]
  rfl

theorem run_invalidateUserCache (userId : Int) :
    ((invalidateUserCache cfg userId).run hashExec server)
      = (none, (Common.serve (.del (getUserCacheKey userId)) server).2.called) := by
  rw [invalidateUserCache, if_pos henabled, redisDelKey, hashPerform, Prog.perform_bind,
    Prog.run_call, hup.hashExec]
  rfl

theorem run_cacheGetUserBase (userId : Int) :
    ((cacheGetUserBase cfg userId).run hashExec server).2 = server.called := by
  rw [cacheGetUserBase, if_pos henabled, redisHGetObj, hashPerform, Prog.perform_bind,
    Prog.run_call, hup.hashExec]
  simp only [Common.serve]
  cases server.fields (getUserCacheKey userId) with
  | none => rfl
  | some f => rfl

theorem run_cacheIncrUserQuota (userId delta : Int) :
    ((cacheIncrUserQuota cfg userId delta).run hashExec server).2
      = if 0 < server.ttl (getUserCacheKey userId) then
          (Common.serve (.hIncrBy (getUserCacheKey userId) "Quota" delta
            (server.ttl (getUserCacheKey userId))) server.called).2.called
        else server.called := by
  have hcalled : server.called.Up := hup
  rw [cacheIncrUserQuota, if_pos henabled, redisHIncrBy, hashPerform, Prog.perform_bind,
    Prog.run_call, hup.hashExec]
  simp only [Common.serve]
  split
  · rw [hashPerform, Prog.perform_bind, Prog.run_call, hcalled.hashExec]
    simp only [Common.serve]
    split
    · rfl
    · rfl
  · rfl

end Up

/-! ### What is read -/

theorem getUserCacheKey_injective {m n : Int} (h : getUserCacheKey m = getUserCacheKey n) :
    m = n := by
  have hlist := congrArg String.toList h
  rw [getUserCacheKey, getUserCacheKey, String.toList_append, String.toList_append] at hlist
  exact itoa_injective (String.toList_inj.mp (List.append_cancel_left hlist))

namespace UserBase

theorem intField_congr {f g : Fields} {name : String} (h : f name = g name) :
    intField f name = intField g name := by
  rw [intField, intField, h]

theorem stringField_congr {f g : Fields} {name : String} (h : f name = g name) :
    stringField f name = stringField g name := by
  rw [stringField, stringField, h]

/-- Only the named fields are read. -/
theorem load_congr {f g : Fields} (h : ∀ name ∈ names, f name = g name) : load f = load g := by
  have hid := intField_congr (h "Id" (by decide))
  have hquota := intField_congr (h "Quota" (by decide))
  have hstatus := intField_congr (h "Status" (by decide))
  have hgroup := stringField_congr (h "Group" (by decide))
  have hemail := stringField_congr (h "Email" (by decide))
  have hname := stringField_congr (h "Username" (by decide))
  have hsetting := stringField_congr (h "Setting" (by decide))
  rw [load, load, hid, hquota, hstatus, hgroup, hemail, hname, hsetting]

theorem names_data (cache : UserBase) : ∀ name ∈ names, (cache.data.lookup name).isSome := by
  intro name hname
  simp only [names, List.mem_cons, List.not_mem_nil, or_false] at hname
  rcases hname with rfl | rfl | rfl | rfl | rfl | rfl | rfl <;> rfl

/-- A 64-bit integer. -/
def InInt64 (n : Int) : Prop := -2 ^ 63 ≤ n ∧ n < 2 ^ 63

theorem intField_itoa {f : Fields} {name : String} {n : Int} (h : f name = some (itoa n))
    (hn : InInt64 n) : intField f name = .ok n := by
  rw [intField, h]
  simp only [atoi_itoa hn.1 hn.2]

/-- **What is written whole is read back.** -/
theorem load_data (cache : UserBase) (f : Fields) (hid : InInt64 cache.id)
    (hquota : InInt64 cache.quota) (hstatus : InInt64 cache.status) :
    load (setFields f cache.data) = .ok cache := by
  have hid' : intField (setFields f cache.data) "Id" = .ok cache.id := intField_itoa rfl hid
  have hquota' : intField (setFields f cache.data) "Quota" = .ok cache.quota :=
    intField_itoa rfl hquota
  have hstatus' : intField (setFields f cache.data) "Status" = .ok cache.status :=
    intField_itoa rfl hstatus
  rw [load, hid', hquota', hstatus']
  rfl

end UserBase

end AuthGateway.Model
