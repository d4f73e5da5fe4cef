import AuthGateway.Model.User
import AuthGateway.Model.UserCache

/-!
# model/user.go, with Redis

The functions of `model/user.go` that keep the cache of users up to date, as
programs over the database and the Redis server.  What they start with
`gopool.Go` is done before they return.  Without Redis they are those of
`Model/User.lean` (`Cached.insert_disabled` and its like).
-/

namespace AuthGateway.Model

open Common Prog

/-! ### The two stores -/

@[ext]
structure CachedStore where
  db : DB
  server : HashServer

inductive CacheOp
  | database (o : DBOp)
  | redis (o : HashOp)

abbrev CacheOp.Ans : CacheOp → Type
  | database o => Except Err o.Ans
  | redis o => o.Ans

def cacheExec : (o : CacheOp) → CachedStore → o.Ans × CachedStore
  | .database o, s => ((exec o s.db).1, { s with db := (exec o s.db).2 })
  | .redis o, s => ((hashExec o s.server).1, { s with server := (hashExec o s.server).2 })

/-- Programs over the two stores. -/
abbrev CacheM : Type → Type := Prog CacheOp CacheOp.Ans

/-- A program of the database alone. -/
def onDB {α : Type} (p : M α) : CacheM α := p.embed CacheOp.database fun _ r => r

/-- A program of the server alone. -/
def onServer {α : Type} (p : HashM α) : CacheM α := p.embed CacheOp.redis fun _ r => r

theorem run_onDB {α : Type} (p : M α) (s : CachedStore) :
    (onDB p).run cacheExec s = ((p.run exec s.db).1, { s with db := (p.run exec s.db).2 }) := by
  have hexec : ∀ (o : DBOp) (s : CachedStore),
      (cacheExec (.database o) s).1 = (exec o s.db).1 ∧
        (cacheExec (.database o) s).2 = { s with db := (exec o s.db).2 } := fun _ _ => ⟨rfl, rfl⟩
  exact run_embed CacheOp.database (fun _ r => r) CachedStore.db (fun s db => { s with db := db })
    (fun _ _ => rfl) (fun _ => rfl) (fun _ _ _ => rfl) hexec p s

theorem run_onServer {α : Type} (p : HashM α) (s : CachedStore) :
    (onServer p).run cacheExec s
      = ((p.run hashExec s.server).1, { s with server := (p.run hashExec s.server).2 }) := by
  have hexec : ∀ (o : HashOp) (s : CachedStore),
      (cacheExec (.redis o) s).1 = (hashExec o s.server).1 ∧
        (cacheExec (.redis o) s).2 = { s with server := (hashExec o s.server).2 } :=
    fun _ _ => ⟨rfl, rfl⟩
  exact run_embed CacheOp.redis (fun _ r => r) CachedStore.server
    (fun s server => { s with server := server })
    (fun _ _ => rfl) (fun _ => rfl) (fun _ _ _ => rfl) hexec p s

/-- On the two stores, `p` ends in `Q`. -/
def Leaves {α : Type} (p : CacheM α) (Q : α → CachedStore → Prop) (s : CachedStore) : Prop :=
  Q (p.run cacheExec s).1 (p.run cacheExec s).2

namespace Leaves

variable {α β : Type} {s : CachedStore}

theorem pure {a : α} {Q : α → CachedStore → Prop} (h : Q a s) : Leaves (Pure.pure a) Q s := h

theorem bind {p : CacheM α} {f : α → CacheM β} {R : α → CachedStore → Prop}
    {Q : β → CachedStore → Prop} (h : Leaves p R s) (hf : ∀ a s', R a s' → Leaves (f a) Q s') :
    Leaves (p >>= f) Q s := by
  unfold Leaves
  rw [run_bind]
  exact hf _ _ h

theorem mono {p : CacheM α} {Q Q' : α → CachedStore → Prop} (h : Leaves p Q s)
    (hQ : ∀ a s', Q a s' → Q' a s') : Leaves p Q' s := hQ _ _ h

theorem onDB {p : M α} {Q : α → DB → Prop} (h : Ends p Q s.db) :
    Leaves (Model.onDB p) (fun a s' => Q a s'.db ∧ s'.server = s.server) s := by
  unfold Leaves
  rw [run_onDB]
  exact ⟨h, rfl⟩

theorem onServer (p : HashM α) : Leaves (Model.onServer p) (fun a s' => s'.db = s.db ∧
    a = (p.run hashExec s.server).1 ∧ s'.server = (p.run hashExec s.server).2) s := by
  unfold Leaves
  rw [run_onServer]
  exact ⟨rfl, rfl, rfl⟩

end Leaves

/-! ### The functions -/

namespace Cached

/-- The end of `User.Update` and `User.Edit`. -/
def andUpdateCache (cfg : CacheConfig) (r : Option Err × User) : CacheM (Option Err × User) :=
  match r with
  | (some e, user) => return (some e, user)
  | (none, user) => do
    let err ← onServer (updateUserCache cfg user)
    return (err, user)

/-- `User.Update`. -/
def update (cfg : CacheConfig) (ctx : Ctx) (user : User) (updatePassword : Bool) :
    CacheM (Option Err × User) := do
  andUpdateCache cfg (← onDB (user.update ctx updatePassword))

/-- `User.Edit`. -/
def edit (cfg : CacheConfig) (ctx : Ctx) (user : User) (updatePassword : Bool) :
    CacheM (Option Err × User) := do
  andUpdateCache cfg (← onDB (user.edit ctx updatePassword))

/-- `User.Delete`. -/
def delete (cfg : CacheConfig) (ctx : Ctx) (user : User) : CacheM (Option Err × User) := do
  match ← onDB (User.delete ctx user) with
  | (some e, user) => return (some e, user)
  | (none, user) =>
    let err ← onServer (invalidateUserCache cfg user.id)
    return (err, user)

/-- `IncreaseUserQuota`; batch updates are off. -/
def increaseUserQuota (cfg : CacheConfig) (id quota : Int) : CacheM (Option Err) := do
  if quota < 0 then return some (.new "quota 不能为负数！")
  let _ ← onServer (cacheIncrUserQuota cfg id quota)
  onDB (Model.increaseUserQuota id quota)

/-- `DecreaseUserQuota`; batch updates are off. -/
def decreaseUserQuota (cfg : CacheConfig) (id quota : Int) : CacheM (Option Err) := do
  if quota < 0 then return some (.new "quota 不能为负数！")
  let _ ← onServer (cacheDecrUserQuota cfg id quota)
  onDB (Model.decreaseUserQuota id quota)

/-- The sidebar of a new account. -/
def initSidebar (cfg : CacheConfig) (env : Env) (ctx : Ctx) (username : String) :
    CacheM Unit := do
  match ← onDB (perform (.userFirst false fun u => u.username == username)) with
  | .error _ => return ()
  | .ok createdUser =>
    let currentSetting := User.getSetting env createdUser
    let createdUser := User.setSetting env createdUser { currentSetting with
      sidebarModules := generateDefaultSidebarConfigForRole (show User from createdUser).role }
    let _ ← update cfg ctx createdUser false
    return ()

/-- The quota for having been invited. -/
def rewardInvitee (cfg : CacheConfig) (env : Env) (id : Int) : CacheM Unit := do
  if 0 < env.cfg.quotaForInvitee then
    let _ ← increaseUserQuota cfg id env.cfg.quotaForInvitee
    return ()
  else return ()

/-- `User.Insert`. -/
def insert (cfg : CacheConfig) (env : Env) (ctx : Ctx) (user : User) (inviterId : Int) :
    CacheM (Option Err × User) := do
  match user.hashPassword ctx (user.password != "") with
  | .error e => return (some e, user)
  | .ok user =>
    match ← onDB (perform (.userCreate (user.toInsert env ctx))) with
    | .error e => return (some e, user)
    | .ok row =>
      initSidebar cfg env ctx user.username
      if inviterId ≠ 0 then
        rewardInvitee cfg env (show User from row).id
        onDB (rewardInviter env inviterId)
      return (none, row)

/-- `GetUserCache`: the cached user, or the row, which is cached. -/
def getUserCache (cfg : CacheConfig) (userId : Int) : CacheM (Except Err UserBase) := do
  match ← onServer (cacheGetUserBase cfg userId) with
  | .ok cache => return .ok cache
  | .error _ =>
    match ← onDB (getUserById userId false) with
    | .error e => return .error e
    | .ok user =>
      let _ ← onServer (updateUserCache cfg user)
      return .ok user.toBaseUser

/-! ### Without Redis -/

variable {cfg : CacheConfig} (h : cfg.redisEnabled = false)

include h

theorem andUpdateCache_disabled (r : Option Err × User) : andUpdateCache cfg r = pure r := by
  obtain ⟨err, user⟩ := r
  cases err with
  | some e => rfl
  | none =>
    simp only [andUpdateCache, updateUserCache, h, Bool.false_eq_true, if_false]
    rfl

theorem update_disabled (ctx : Ctx) (user : User) (updatePassword : Bool) :
    update cfg ctx user updatePassword = onDB (user.update ctx updatePassword) := by
  simp only [update, andUpdateCache_disabled h, bind_pure]

theorem edit_disabled (ctx : Ctx) (user : User) (updatePassword : Bool) :
    edit cfg ctx user updatePassword = onDB (user.edit ctx updatePassword) := by
  simp only [edit, andUpdateCache_disabled h, bind_pure]

theorem delete_disabled (ctx : Ctx) (user : User) :
    delete cfg ctx user = onDB (User.delete ctx user) := by
  have hsame : ∀ r : Option Err × User, (match r with
      | (some e, user) => pure (some e, user)
      | (none, user) => do
        let err ← onServer (invalidateUserCache cfg user.id)
        return (err, user) : CacheM (Option Err × User)) = pure r := by
    intro r
    obtain ⟨err, user⟩ := r
    cases err with
    | some e => rfl
    | none =>
      simp only [invalidateUserCache, h, Bool.false_eq_true, if_false]
      rfl
  simp only [delete]
  rw [funext hsame, bind_pure]

theorem increaseUserQuota_disabled (id quota : Int) :
    increaseUserQuota cfg id quota = onDB (Model.increaseUserQuota id quota) := by
  simp only [increaseUserQuota, cacheIncrUserQuota, h, Bool.false_eq_true, if_false]
  by_cases hquota : quota < 0
  · simp only [hquota, if_true, Model.increaseUserQuota]
    rfl
  · simp only [hquota, if_false]
    rfl

theorem decreaseUserQuota_disabled (id quota : Int) :
    decreaseUserQuota cfg id quota = onDB (Model.decreaseUserQuota id quota) := by
  simp only [decreaseUserQuota, cacheDecrUserQuota, cacheIncrUserQuota, h, Bool.false_eq_true,
    if_false]
  by_cases hquota : quota < 0
  · simp only [hquota, if_true, Model.decreaseUserQuota]
    rfl
  · simp only [hquota, if_false]
    rfl

theorem initSidebar_disabled (env : Env) (ctx : Ctx) (username : String) :
    initSidebar cfg env ctx username = onDB (Model.initSidebar env ctx username) := by
  have hsplit : onDB (Model.initSidebar env ctx username) = initSidebar cfg env ctx username := by
    unfold Model.initSidebar initSidebar
    simp only [onDB, embed_bind, update_disabled h]
    refine congrArg _ (funext fun r => ?_)
    cases r with
    | error e => rfl
    | ok row =>
      simp only [embed_bind]
      rfl
  exact hsplit.symm

theorem rewardInvitee_disabled (env : Env) (id : Int) :
    rewardInvitee cfg env id = onDB (Model.rewardInvitee env id) := by
  unfold rewardInvitee Model.rewardInvitee
  rw [increaseUserQuota_disabled h]
  split
  · simp only [onDB, embed_bind]
    rfl
  · rfl

/-- **Without Redis an insertion is the plain one.** -/
theorem insert_disabled (env : Env) (ctx : Ctx) (user : User) (inviterId : Int) :
    insert cfg env ctx user inviterId = onDB (User.insert env ctx user inviterId) := by
  unfold insert User.insert
  cases user.hashPassword ctx (user.password != "") with
  | error e => rfl
  | ok user' =>
    simp only [onDB, embed_bind, initSidebar_disabled h, rewardInvitee_disabled h]
    refine congrArg _ (funext fun r => ?_)
    cases r with
    | error e => rfl
    | ok row =>
      simp only [embed_bind]
      refine congrArg _ (funext fun _ => ?_)
      split
      · simp only [embed_bind]
        rfl
      · rfl

end Cached

end AuthGateway.Model
