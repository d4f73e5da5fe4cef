import AuthGateway.Lib.Runs
import AuthGateway.Model.CachedUser
import AuthGateway.Model.Live

/-!
# Cached users and their rows

The operations on users, one after the other, on the database and a Redis server
that answers.  Each writer of `users` has to write the cached user as well, or to
drop it.

* `Coherent`: every cached user is the live row.
* `Fits`: the operation is one that leaves the two the same.

An update of a user who was deleted caches him again (`deleted_and_cached`), a
transfer and a hard deletion leave the cache as it is, and a quota whose key has no
time to live, or one that is about to end, is changed in the database alone.
**Every other operation keeps the cache coherent** (`coherent_of_fits`).
-/

namespace AuthGateway.CacheCoherence

open Common Model Prog GoString

/-! ### Operations, one after the other -/

inductive Request
  | insert (user : User) (inviterId : Int)
  | update (user : User) (updatePassword : Bool)
  | edit (user : User) (updatePassword : Bool)
  | delete (user : User)
  | hardDeleteUserById (id : Int)
  | transferAffQuotaToQuota (id quota : Int)
  | increaseUserQuota (id quota : Int)
  | decreaseUserQuota (id quota : Int)
  | getUserCache (id : Int)
  /-- Time passes, in milliseconds. -/
  | pass (d : Nat)

structure Act where
  request : Request
  ctx : Ctx

/-- The settings of the run, and how the logger writes a quota. -/
structure Site where
  cache : CacheConfig
  env : Env
  logQuota : Int → String

def handle (site : Site) (a : Act) : CacheM Unit := do
  match a.request with
  | .insert user inviterId => let _ ← Cached.insert site.cache site.env a.ctx user inviterId
  | .update user updatePassword => let _ ← Cached.update site.cache a.ctx user updatePassword
  | .edit user updatePassword => let _ ← Cached.edit site.cache a.ctx user updatePassword
  | .delete user => let _ ← Cached.delete site.cache a.ctx user
  | .hardDeleteUserById id => let _ ← onDB (hardDeleteUserById id)
  | .transferAffQuotaToQuota id quota =>
    let _ ← onDB (User.transferAffQuotaToQuota site.logQuota { id := id } quota)
  | .increaseUserQuota id quota => let _ ← Cached.increaseUserQuota site.cache id quota
  | .decreaseUserQuota id quota => let _ ← Cached.decreaseUserQuota site.cache id quota
  | .getUserCache id => let _ ← Cached.getUserCache site.cache id
  | .pass d => onServer (hashPerform (.pass d))

def step (site : Site) (s : CachedStore) (a : Act) : CachedStore :=
  ((handle site a).run cacheExec s).2

/-- A database, and a server without cached users that answers every command. -/
def start (db : DB) (now : Int) : CachedStore := ⟨db, { now := now }⟩

/-! ### Coherence -/

/-- The hash is that of the user, field by field. -/
def Shows (f : Fields) (cache : UserBase) : Prop :=
  ∀ name ∈ UserBase.names, f name = cache.data.lookup name

/-- **Every cached user is the live row with that id.** -/
def Coherent (s : CachedStore) : Prop :=
  ∀ id f, s.server.fields (getUserCacheKey id) = some f →
    ∃ row, liveRow s.db id = some row ∧ Shows f row.toBaseUser

/-! ### When it is kept -/

/-- The user is not cached. -/
def Uncached (s : CachedStore) (id : Int) : Prop := s.server.fields (getUserCacheKey id) = none

/-- A quota that is changed is changed in both: the user is not cached, or the key
has a time to live, and the quotas are 64-bit numbers. -/
def Adds (s : CachedStore) (id d : Int) : Prop :=
  Uncached s id ∨
    (0 < s.server.ttl (getUserCacheKey id) ∧ ∀ row, liveRow s.db id = some row →
      UserBase.InInt64 row.quota ∧ UserBase.InInt64 (row.quota + d)) ∨
    (s.server.ttl (getUserCacheKey id) ≤ 0 ∧ d = 0)

/-- **When an operation keeps the cache coherent.** -/
def Fits (site : Site) (s : CachedStore) (a : Act) : Prop :=
  match a.request with
  | .insert _ inviterId =>
    inviterId ≠ 0 → 0 < site.env.cfg.quotaForInvitee →
      0 < ofSeconds (redisKeyCacheSeconds site.cache) ∧
        UserBase.InInt64 site.env.cfg.quotaForNewUser ∧
        UserBase.InInt64 (site.env.cfg.quotaForNewUser + site.env.cfg.quotaForInvitee)
  | .update user updatePassword =>
    Refused a.ctx user updatePassword ∨
      (liveRow s.db user.id).isSome ∧ user.deletedAt = none
  | .edit user updatePassword =>
    Refused a.ctx user updatePassword ∨ (liveRow s.db user.id).isSome
  | .hardDeleteUserById id => Uncached s id
  | .transferAffQuotaToQuota id quota =>
    Uncached s id ∨ quota < quotaPerUnit ∨ ∀ row, liveRow s.db id = some row → row.affQuota < quota
  | .increaseUserQuota id quota => quota < 0 ∨ Adds s id quota
  | .decreaseUserQuota id quota => quota < 0 ∨ Adds s id (-quota)
  | _ => True

/-! ### The invariant -/

/-- What the cache should hold of a user. -/
def cachedOf (db : DB) (id : Int) : Option UserBase := (liveRow db id).map User.toBaseUser

structure Inv (s : CachedStore) : Prop where
  up : s.server.Up
  coherent : Coherent s

theorem coherent_iff {s : CachedStore} : Coherent s ↔
    ∀ id f, s.server.fields (getUserCacheKey id) = some f →
      ∃ cache, cachedOf s.db id = some cache ∧ Shows f cache := by
  constructor
  · intro h id f hf
    obtain ⟨row, hrow, hshows⟩ := h id f hf
    exact ⟨row.toBaseUser, by rw [cachedOf, hrow]; rfl, hshows⟩
  · intro h id f hf
    obtain ⟨cache, hcache, hshows⟩ := h id f hf
    obtain ⟨row, hrow, rfl⟩ := Option.map_eq_some_iff.mp hcache
    exact ⟨row, hrow, hshows⟩

/-- **The rule for a step**: what is cached afterwards was cached before and its row
is as it was, or it is the row. -/
theorem Inv.step {s s' : CachedStore} (h : Inv s) (hup : s'.server.Up)
    (hfields : ∀ id f, s'.server.fields (getUserCacheKey id) = some f →
      (s.server.fields (getUserCacheKey id) = some f ∧ cachedOf s'.db id = cachedOf s.db id) ∨
        ∃ cache, cachedOf s'.db id = some cache ∧ Shows f cache) : Inv s' := by
  refine ⟨hup, coherent_iff.mpr fun id f hf => ?_⟩
  rcases hfields id f hf with ⟨hbefore, hsame⟩ | hshows
  · rw [hsame]
    exact coherent_iff.mp h.coherent id f hbefore
  · exact hshows

/-- A user without a live row is not cached. -/
theorem Inv.uncached {s : CachedStore} (h : Inv s) {id : Int} (hnone : liveRow s.db id = none) :
    Uncached s id := by
  cases hf : s.server.fields (getUserCacheKey id) with
  | none => exact hf
  | some f =>
    obtain ⟨row, hrow, -⟩ := h.coherent id f hf
    rw [hnone] at hrow
    cases hrow

/-- Rows change, but of no cached user. -/
theorem Inv.rows {s s' : CachedStore} (h : Inv s) (hserver : s'.server = s.server)
    (hrows : ∀ id, cachedOf s'.db id = cachedOf s.db id ∨ Uncached s id) : Inv s' := by
  refine h.step (by rw [hserver]; exact h.up) fun id f hf => ?_
  rw [hserver] at hf
  rcases hrows id with hsame | hnone
  · exact Or.inl ⟨hf, hsame⟩
  · rw [hnone] at hf
    cases hf

/-! ### A cached user is written, dropped, increased -/

theorem shows_data (f : Fields) (cache : UserBase) : Shows (setFields f cache.data) cache := by
  intro name hname
  obtain ⟨value, hvalue⟩ := Option.isSome_iff_exists.mp (UserBase.names_data cache name hname)
  simp [setFields, hvalue]

theorem fields_called_serve (o : HashOp) (s : HashServer) (id : Int) {f : Fields}
    (h : (serve o s).2.called.fields (getUserCacheKey id) = some f) :
    o.effect (getUserCacheKey id) (s.fields (getUserCacheKey id)) = some f :=
  fields_serve o s (getUserCacheKey id) h

theorem key_ne {id id' : Int} (h : id ≠ id') : getUserCacheKey id ≠ getUserCacheKey id' :=
  fun he => h (getUserCacheKey_injective he)

/-- `updateUserCache` with the struct of a live row. -/
theorem Inv.write {s s' : CachedStore} (h : Inv s) (u : User) (expiration : Int)
    (hserver : s'.server
      = (serve (.hSetObj (getUserCacheKey u.id) u.toBaseUser.data expiration) s.server).2.called)
    (hself : cachedOf s'.db u.id = some u.toBaseUser)
    (hrows : ∀ id, id ≠ u.id → cachedOf s'.db id = cachedOf s.db id) : Inv s' := by
  refine h.step ?_ fun id f hf => ?_
  · rw [hserver]
    exact h.up.serve _
  · rw [hserver] at hf
    have heffect := fields_called_serve _ _ _ hf
    simp only [HashOp.effect] at heffect
    by_cases hid : id = u.id
    · subst hid
      rw [if_pos rfl] at heffect
      rw [← Option.some.inj heffect]
      exact Or.inr ⟨_, hself, shows_data _ _⟩
    · rw [if_neg (key_ne (Ne.symm hid))] at heffect
      exact Or.inl ⟨heffect, hrows id hid⟩

/-- `invalidateUserCache`. -/
theorem Inv.drop {s s' : CachedStore} (h : Inv s) (key : Int)
    (hserver : s'.server = (serve (.del (getUserCacheKey key)) s.server).2.called)
    (hrows : ∀ id, id ≠ key → cachedOf s'.db id = cachedOf s.db id) : Inv s' := by
  refine h.step ?_ fun id f hf => ?_
  · rw [hserver]
    exact h.up.serve _
  · rw [hserver] at hf
    have heffect := fields_called_serve _ _ _ hf
    simp only [HashOp.effect] at heffect
    by_cases hid : id = key
    · rw [hid, if_pos rfl] at heffect
      cases heffect
    · rw [if_neg (key_ne (Ne.symm hid))] at heffect
      exact Or.inl ⟨heffect, hrows id hid⟩

theorem shows_quota {f : Fields} {cache : UserBase} (h : Shows f cache) (quota : Int) :
    Shows (setFields f [("Quota", itoa quota)]) { cache with quota := quota } := by
  intro name hname
  have hf := h name hname
  simp only [UserBase.names, List.mem_cons, List.not_mem_nil, or_false] at hname
  rcases hname with rfl | rfl | rfl | rfl | rfl | rfl | rfl
  · exact hf
  · exact hf
  · exact hf
  · rfl
  · exact hf
  · exact hf
  · exact hf

/-- The rows of a quota that was changed. -/
def Added (db db' : DB) (key d : Int) : Prop := ∀ id, liveRow db' id
  = if id = key then (liveRow db id).map (fun u => { u with quota := u.quota + d })
    else liveRow db id

theorem Added.cachedOf_of_ne {db db' : DB} {key d id : Int} (h : Added db db' key d)
    (hid : id ≠ key) : cachedOf db' id = cachedOf db id := by
  rw [cachedOf, h, if_neg hid, cachedOf]

theorem Added.cachedOf_self {db db' : DB} {key d : Int} (h : Added db db' key d) :
    cachedOf db' key = (cachedOf db key).map fun cache => { cache with quota := cache.quota + d } := by
  rw [cachedOf, h, if_pos rfl, cachedOf, Option.map_map, Option.map_map]
  rfl

/-- **A quota that is changed in both.** -/
theorem Inv.add {s s' : CachedStore} (h : Inv s) {key d : Int} (hadds : Adds s key d)
    (hserver : s'.server = if 0 < s.server.ttl (getUserCacheKey key) then
        (serve (.hIncrBy (getUserCacheKey key) "Quota" d (s.server.ttl (getUserCacheKey key)))
          s.server.called).2.called
      else s.server.called)
    (hrows : Added s.db s'.db key d) : Inv s' := by
  have hup : s.server.called.Up := h.up
  by_cases httl : 0 < s.server.ttl (getUserCacheKey key)
  · rw [if_pos httl] at hserver
    have hint : ∀ row, liveRow s.db key = some row →
        UserBase.InInt64 row.quota ∧ UserBase.InInt64 (row.quota + d) := by
      rcases hadds with hnone | ⟨-, hint⟩ | ⟨hle, -⟩
      · rw [HashServer.ttl_of_fields_eq_none hnone] at httl
        omega
      · exact hint
      · omega
    refine h.step ?_ fun id f hf => ?_
    · rw [hserver]
      exact hup.serve _
    · rw [hserver] at hf
      have heffect := fields_called_serve _ _ _ hf
      rw [HashServer.fields_called] at heffect
      simp only [HashOp.effect] at heffect
      by_cases hid : id = key
      · subst hid
        rw [if_pos rfl] at heffect
        cases hfields : s.server.fields (getUserCacheKey id) with
        | none =>
          rw [HashServer.ttl_of_fields_eq_none hfields] at httl
          omega
        | some g =>
          obtain ⟨row, hrow, hshows⟩ := h.coherent id g hfields
          obtain ⟨hquota, hsum⟩ := hint row hrow
          have hincr : incrField g "Quota" d
              = .ok (setFields g [("Quota", itoa (row.quota + d))]) :=
            incrField_itoa (hshows "Quota" (by decide)) hquota.1 hquota.2 hsum.1 hsum.2
          rw [hfields, Option.getD_some, hincr] at heffect
          rw [← Option.some.inj heffect]
          refine Or.inr ⟨_, ?_, shows_quota hshows (row.quota + d)⟩
          rw [hrows.cachedOf_self, cachedOf, hrow]
          rfl
      · rw [if_neg (key_ne (Ne.symm hid))] at heffect
        exact Or.inl ⟨heffect, hrows.cachedOf_of_ne hid⟩
  · rw [if_neg httl] at hserver
    have hsame : ∀ id, cachedOf s'.db id = cachedOf s.db id ∨ Uncached s id := by
      intro id
      by_cases hid : id = key
      · rcases hadds with hnone | ⟨hpos, -⟩ | ⟨-, hd⟩
        · exact Or.inr (hid ▸ hnone)
        · exact absurd hpos httl
        · left
          rw [hid, hrows.cachedOf_self, hd]
          simp
      · exact Or.inl (hrows.cachedOf_of_ne hid)
    have hinv : Inv { s with db := s'.db } := h.rows rfl hsame
    refine hinv.step ?_ fun id f hf => ?_
    · rw [hserver]
      exact hup
    · rw [hserver, HashServer.fields_called] at hf
      exact Or.inl ⟨hf, rfl⟩

/-! ### What the operations do -/

section Operations

variable {site : Site} (henabled : site.cache.redisEnabled = true)

/-- A user was written to his row and to the cache. -/
structure Rewritten (site : Site) (s s' : CachedStore) (u : User) : Prop where
  rows : ∀ id, liveRow s'.db id = if id = u.id then some u else liveRow s.db id
  server : s'.server = (serve (.hSetObj (getUserCacheKey u.id) u.toBaseUser.data
    (ofSeconds (redisKeyCacheSeconds site.cache))) s.server).2.called

theorem Rewritten.inv {s s' : CachedStore} {u : User} (h : Rewritten site s s' u) (hinv : Inv s) :
    Inv s' := by
  refine hinv.write u _ h.server ?_ fun id hid => ?_
  · rw [cachedOf, h.rows, if_pos rfl]
    rfl
  · rw [cachedOf, h.rows, if_neg hid, cachedOf]

include henabled

/-- The end of `Update` and `Edit`. -/
theorem andUpdateCache_leaves {s₀ s : CachedStore} {u : User} (hserver : s.server = s₀.server)
    (hup : s₀.server.Up)
    (hrows : ∀ id, liveRow s.db id = if id = u.id then some u else liveRow s₀.db id) :
    Leaves (Cached.andUpdateCache site.cache (none, u)) (fun _ s' => Rewritten site s₀ s' u) s := by
  refine (Leaves.onServer _).bind ?_
  rintro err s' ⟨hdb, -, hserver'⟩
  refine Leaves.pure ⟨?_, ?_⟩
  · rw [hdb]
    exact hrows
  · rw [hserver', hserver, run_updateUserCache henabled hup]

omit henabled in
/-- An error of the database ends `Update` and `Edit`. -/
theorem andUpdateCache_error {s₀ s : CachedStore} {r : Option Err × User} (herr : r.1 ≠ none)
    (hdb : s.db = s₀.db) (hserver : s.server = s₀.server) :
    Leaves (Cached.andUpdateCache site.cache r) (fun _ s' => s' = s₀) s := by
  obtain ⟨err, u⟩ := r
  obtain ⟨e, rfl⟩ := Option.ne_none_iff_exists'.mp herr
  exact Leaves.pure (CachedStore.ext hdb hserver)

/-- `Update` of a live row. -/
theorem update_leaves (ctx : Ctx) (user : User) {row : User} (updatePassword : Bool) {s : CachedStore}
    (hup : s.server.Up) (hrow : liveRow s.db user.id = some row) (hdeleted : user.deletedAt = none) :
    Leaves (Cached.update site.cache ctx user updatePassword) (fun _ s' => s' = s ∨
      ∃ password, Rewritten site s s' (row.overlay { user with password := password })) s := by
  have hid : row.id = user.id := liveRow_id hrow
  refine (Leaves.onDB (update_ends ctx updatePassword hrow hdeleted)).bind ?_
  rintro r s₁ ⟨⟨herr, hdb⟩ | ⟨password, rfl, hrows⟩, hserver⟩
  · exact (andUpdateCache_error herr hdb hserver).mono fun _ _ h => Or.inl h
  · refine (andUpdateCache_leaves henabled hserver hup ?_).mono ?_
    · intro id
      rw [hrows, User.overlay_id, hid]
    · intro _ s' h
      exact Or.inr ⟨password, h⟩

theorem update_inv (ctx : Ctx) {user : User} {updatePassword : Bool} {s : CachedStore} (hinv : Inv s)
    (h : Refused ctx user updatePassword ∨
      (liveRow s.db user.id).isSome ∧ user.deletedAt = none) :
    Leaves (Cached.update site.cache ctx user updatePassword) (fun _ s' => Inv s') s := by
  rcases h with hrefused | ⟨hlive, hdeleted⟩
  · refine (Leaves.onDB (update_refused hrefused s.db)).bind ?_
    rintro r s₁ ⟨⟨herr, hdb⟩, hserver⟩
    refine (andUpdateCache_error herr hdb hserver).mono ?_
    rintro _ s' rfl
    exact hinv
  · obtain ⟨row, hrow⟩ := Option.isSome_iff_exists.mp hlive
    refine (update_leaves henabled ctx user updatePassword hinv.up hrow hdeleted).mono ?_
    rintro _ s' (rfl | ⟨password, hrewritten⟩)
    · exact hinv
    · exact hrewritten.inv hinv

theorem edit_inv (ctx : Ctx) {user : User} {updatePassword : Bool} {s : CachedStore} (hinv : Inv s)
    (h : Refused ctx user updatePassword ∨ (liveRow s.db user.id).isSome) :
    Leaves (Cached.edit site.cache ctx user updatePassword) (fun _ s' => Inv s') s := by
  rcases h with hrefused | hlive
  · refine (Leaves.onDB (edit_refused hrefused s.db)).bind ?_
    rintro r s₁ ⟨⟨herr, hdb⟩, hserver⟩
    refine (andUpdateCache_error herr hdb hserver).mono ?_
    rintro _ s' rfl
    exact hinv
  · obtain ⟨row, hrow⟩ := Option.isSome_iff_exists.mp hlive
    refine (Leaves.onDB (edit_ends ctx updatePassword hrow)).bind ?_
    rintro r s₁ ⟨⟨herr, hdb⟩ | ⟨u, rfl, hid, hrows⟩, hserver⟩
    · refine (andUpdateCache_error herr hdb hserver).mono ?_
      rintro _ s' rfl
      exact hinv
    · rw [← hid] at hrows
      refine (andUpdateCache_leaves henabled hserver hinv.up hrows).mono ?_
      intro _ s' hrewritten
      exact hrewritten.inv hinv

theorem delete_inv (ctx : Ctx) (user : User) {s : CachedStore} (hinv : Inv s) :
    Leaves (Cached.delete site.cache ctx user) (fun _ s' => Inv s') s := by
  refine (Leaves.onDB (delete_ends ctx user s.db)).bind ?_
  rintro ⟨err, u⟩ s₁ ⟨⟨hid, herr, hrows⟩, hserver⟩
  cases err with
  | some e =>
    have hsame : s₁ = s := CachedStore.ext (herr (by simp)) hserver
    exact Leaves.pure (hsame ▸ hinv)
  | none =>
    refine (Leaves.onServer _).bind ?_
    rintro err s' ⟨hdb, -, hserver'⟩
    refine Leaves.pure (hinv.drop user.id ?_ fun id hne => ?_)
    · have hup : s₁.server.Up := hserver ▸ hinv.up
      rw [hserver', run_invalidateUserCache henabled hup, hserver]
      rw [← hid]
    · rw [cachedOf, hdb, hrows id hne, cachedOf]

/-- A change of the cached quota and then of the row. -/
theorem add_inv {key d : Int} {p : M (Option Err)} {s : CachedStore} (hinv : Inv s)
    (hadds : Adds s key d) (hp : Ends p (fun _ db' => Added s.db db' key d) s.db) :
    Leaves (do let _ ← onServer (cacheIncrUserQuota site.cache key d); onDB p)
      (fun _ s' => Inv s') s := by
  refine (Leaves.onServer _).bind ?_
  rintro err s₁ ⟨hdb, -, hserver⟩
  rw [← hdb] at hp
  refine (Leaves.onDB hp).mono ?_
  rintro _ s' ⟨hrows, hserver'⟩
  refine hinv.add hadds ?_ ?_
  · rw [hserver', hserver, run_cacheIncrUserQuota henabled hinv.up]
  · rw [hdb] at hrows
    exact hrows

omit henabled in
/-- The statement that adds to a quota. -/
theorem added_userUpdates {f : User → User} {d : Int}
    (hf : ∀ u, f u = { u with quota := u.quota + d }) (key : Int) (db : DB) :
    Added db (exec (.userUpdates (fun u => u.id == key) f) db).2 key d := by
  have hplain : User.Plain f := by
    refine ⟨fun u => by rw [hf], fun u v => ?_⟩
    rw [hf]
    rfl
  intro id
  rw [liveRow_plain hplain]
  split
  · cases hrow : liveRow db id with
    | none => rfl
    | some row =>
      have hrowlive : row.live = true := liveRow_live hrow
      have hlive : (f row).live = true := by
        rw [hf]
        exact hrowlive
      rw [Option.map_some, Option.filter_some, if_pos hlive, Option.map_some, hf]
  · rfl

theorem increaseUserQuota_inv {id quota : Int} {s : CachedStore} (hinv : Inv s)
    (h : quota < 0 ∨ Adds s id quota) :
    Leaves (Cached.increaseUserQuota site.cache id quota) (fun _ s' => Inv s') s := by
  unfold Cached.increaseUserQuota
  by_cases hquota : quota < 0
  · simp only [hquota, if_true]
    exact Leaves.pure hinv
  · simp only [hquota, if_false]
    refine add_inv henabled hinv (h.resolve_left hquota) ?_
    unfold Model.increaseUserQuota
    simp only [hquota, if_false]
    exact Ends.perform (Ends.pure (added_userUpdates (fun _ => rfl) id s.db))

theorem decreaseUserQuota_inv {id quota : Int} {s : CachedStore} (hinv : Inv s)
    (h : quota < 0 ∨ Adds s id (-quota)) :
    Leaves (Cached.decreaseUserQuota site.cache id quota) (fun _ s' => Inv s') s := by
  unfold Cached.decreaseUserQuota cacheDecrUserQuota
  by_cases hquota : quota < 0
  · simp only [hquota, if_true]
    exact Leaves.pure hinv
  · simp only [hquota, if_false]
    refine add_inv henabled hinv (h.resolve_left hquota) ?_
    unfold Model.decreaseUserQuota
    simp only [hquota, if_false]
    exact Ends.perform (Ends.pure (added_userUpdates (fun _ => rfl) id s.db))

omit henabled in
/-- A change of the database alone, of users that are not cached. -/
theorem onDB_inv {α : Type} {p : M α} {s : CachedStore} (hinv : Inv s)
    (hp : Ends p (fun _ db' => ∀ id, cachedOf db' id = cachedOf s.db id ∨ Uncached s id) s.db) :
    Leaves (onDB p) (fun _ s' => Inv s') s := by
  refine (Leaves.onDB hp).mono ?_
  rintro _ s' ⟨hrows, hserver⟩
  exact hinv.rows hserver hrows

omit henabled in
theorem hardDelete_inv {id : Int} {s : CachedStore} (hinv : Inv s) (h : Uncached s id) :
    Leaves (onDB (hardDeleteUserById id)) (fun _ s' => Inv s') s := by
  refine onDB_inv hinv ?_
  unfold hardDeleteUserById
  split
  · exact Ends.pure fun _ => Or.inl rfl
  · refine Ends.perform (Ends.pure fun key => ?_)
    by_cases hkey : key = id
    · exact Or.inr (hkey ▸ h)
    · left
      rw [cachedOf, liveRow_userHardDelete id s.db hkey, cachedOf]

omit henabled in
theorem transfer_inv {id quota : Int} {s : CachedStore} (hinv : Inv s)
    (h : Uncached s id ∨ quota < quotaPerUnit ∨
      ∀ row, liveRow s.db id = some row → row.affQuota < quota) :
    Leaves (onDB (User.transferAffQuotaToQuota site.logQuota { id := id } quota))
      (fun _ s' => Inv s') s := by
  refine onDB_inv hinv ((transfer_ends site.logQuota id quota s.db).mono ?_)
  rintro _ db' ⟨hrows, hrefused⟩ key
  rcases h with hnone | hrefuse
  · by_cases hkey : key = id
    · exact Or.inr (hkey ▸ hnone)
    · left
      rw [cachedOf, hrows key hkey, cachedOf]
  · left
    rw [hrefused hrefuse]

theorem getUserCache_inv {id : Int} {s : CachedStore} (hinv : Inv s) :
    Leaves (Cached.getUserCache site.cache id) (fun _ s' => Inv s') s := by
  refine (Leaves.onServer _).bind ?_
  rintro answer s₁ ⟨hdb, -, hserver⟩
  rw [run_cacheGetUserBase henabled hinv.up] at hserver
  have hinv₁ : Inv s₁ := by
    refine hinv.step ?_ fun key f hf => Or.inl ⟨?_, ?_⟩
    · rw [hserver]
      exact hinv.up
    · rw [hserver, HashServer.fields_called] at hf
      exact hf
    · rw [hdb]
  cases answer with
  | ok cache => exact Leaves.pure hinv₁
  | error e =>
    refine (Leaves.onDB (getUserById_ends id false s₁.db)).bind ?_
    rintro found s₂ ⟨⟨hdb₂, hfound⟩, hserver₂⟩
    have hsame : s₂ = s₁ := CachedStore.ext hdb₂ hserver₂
    subst hsame
    cases found with
    | error e => exact Leaves.pure hinv₁
    | ok u =>
      obtain ⟨row, hrow, hu⟩ := hfound u rfl
      have hbase : u.toBaseUser = row.toBaseUser := by
        rw [hu]
        rfl
      have hid : u.id = id := (congrArg UserBase.id hbase).trans (liveRow_id hrow)
      refine (Leaves.onServer _).bind ?_
      rintro err s₃ ⟨hdb₃, -, hserver₃⟩
      refine Leaves.pure (hinv₁.write u (ofSeconds (redisKeyCacheSeconds site.cache)) ?_ ?_ ?_)
      · rw [hserver₃, run_updateUserCache henabled hinv₁.up]
      · rw [cachedOf, hdb₃, hid, hrow, hbase]
        rfl
      · intro key _
        rw [hdb₃]

/-! ### An insertion -/

/-- The sidebar of a new account: a live row is written, to the cache as well. -/
theorem initSidebar_leaves (ctx : Ctx) (username : String) {s : CachedStore} (hinv : Inv s) :
    Leaves (Cached.initSidebar site.cache site.env ctx username) (fun _ s' => s' = s ∨
      ∃ row u, liveRow s.db row.id = some row ∧ u.id = row.id ∧ u.quota = row.quota ∧
        Rewritten site s s' u) s := by
  have hread : Ends (Model.perform (.userFirst false fun u => u.username == username))
      (fun r db' => db' = s.db ∧ ∀ row : User, r = .ok row → liveRow s.db row.id = some row)
      s.db := by
    refine ⟨rfl, fun row hrow => ?_⟩
    have hfound : found (s.db.users.find? (seen false fun u => u.username == username)) = .ok row :=
      hrow
    cases hfind : s.db.users.find? (seen false fun u => u.username == username) with
    | none =>
      rw [hfind] at hfound
      cases hfound
    | some row' =>
      rw [hfind] at hfound
      obtain rfl := Except.ok.inj hfound
      have hholds := Table.find?_holds hfind
      rw [seen, Bool.false_or, Bool.and_eq_true] at hholds
      exact liveRow_eq_some.mpr ⟨Table.get?_key (Table.find?_mem hfind), hholds.1⟩
  refine (Leaves.onDB hread).bind ?_
  rintro answer s₁ ⟨⟨hdb, hrow⟩, hserver⟩
  have hsame : s₁ = s := CachedStore.ext hdb hserver
  subst hsame
  cases answer with
  | error e => exact Leaves.pure (Or.inl rfl)
  | ok row =>
    have hlive := hrow row rfl
    obtain ⟨text, htext⟩ := setSetting_eq site.env row { User.getSetting site.env row with
      sidebarModules := generateDefaultSidebarConfigForRole row.role }
    have hdeleted : row.deletedAt = none := by
      have h := liveRow_live hlive
      simpa [User.live] using h
    simp only [htext]
    refine (update_leaves henabled ctx { row with setting := text } false hinv.up hlive
      hdeleted).bind ?_
    rintro _ s' (rfl | ⟨password, hrewritten⟩)
    · exact Leaves.pure (Or.inl rfl)
    · have hquota : (row.overlay { row with setting := text, password := password }).quota
          = row.quota := by
        simp [User.overlay]
      exact Leaves.pure (Or.inr ⟨row, row.overlay { row with setting := text, password := password },
        hlive, rfl, hquota, hrewritten⟩)

/-- A new user whose quota can be increased: he is not cached, or his key has a time
to live. -/
structure Fresh (s : CachedStore) (id quota : Int) : Prop where
  ready : Uncached s id ∨ 0 < s.server.ttl (getUserCacheKey id)
  quota : ∀ row, liveRow s.db id = some row → row.quota = quota

omit henabled in
theorem fresh_rewritten {s s' : CachedStore} {id quota : Int} {row u : User} (hnone : Uncached s id)
    (hrows : ∀ row, liveRow s.db id = some row → row.quota = quota)
    (hcache : 0 < ofSeconds (redisKeyCacheSeconds site.cache)) (hrow : liveRow s.db row.id = some row)
    (hid : u.id = row.id) (hquota : u.quota = row.quota) (hrewritten : Rewritten site s s' u) :
    Fresh s' id quota := by
  by_cases hkey : id = u.id
  · subst hkey
    refine ⟨Or.inr ?_, fun row' hrow' => ?_⟩
    · rw [hrewritten.server]
      exact HashServer.ttl_hSetObj _ _ _ hcache
    · rw [hrewritten.rows, if_pos rfl] at hrow'
      rw [← Option.some.inj hrow', hquota]
      rw [← hid] at hrow
      exact hrows row hrow
  · refine ⟨Or.inl ?_, fun row' hrow' => ?_⟩
    · cases hf : s'.server.fields (getUserCacheKey id) with
      | none => exact hf
      | some f =>
        rw [hrewritten.server] at hf
        have heffect := fields_called_serve _ _ _ hf
        simp only [HashOp.effect] at heffect
        rw [if_neg (key_ne (Ne.symm hkey)), hnone] at heffect
        cases heffect
    · rw [hrewritten.rows, if_neg hkey] at hrow'
      exact hrows row' hrow'

theorem rewardInvitee_inv {s : CachedStore} {id : Int} (hinv : Inv s)
    (h : 0 < site.env.cfg.quotaForInvitee → Adds s id site.env.cfg.quotaForInvitee) :
    Leaves (Cached.rewardInvitee site.cache site.env id) (fun _ s' => Inv s') s := by
  unfold Cached.rewardInvitee
  split
  · rename_i hpos
    refine (increaseUserQuota_inv henabled hinv (Or.inr (h hpos))).bind ?_
    intro _ s' hinv'
    exact Leaves.pure hinv'
  · exact Leaves.pure hinv

omit henabled in
/-- A live row that is saved with what is cached of it unchanged. -/
theorem cachedOf_userSave {db : DB} {u v : User} (hrow : liveRow db v.id = some u)
    (hlive : v.live = true) (hbase : v.toBaseUser = u.toBaseUser) (id : Int) :
    cachedOf (exec (.userSave v) db).2 id = cachedOf db id := by
  rcases liveRow_userSave v db with ⟨e, -, hsame⟩ | ⟨-, hrows⟩
  · rw [hsame]
  · rw [cachedOf, hrows, cachedOf]
    by_cases hkey : v.id = id
    · rw [if_pos hkey, Option.filter_some, if_pos hlive, ← hkey, hrow, Option.map_some, hbase]
      rfl
    · rw [if_neg hkey]

omit henabled in
/-- What an inviter earns is not cached. -/
theorem rewardInviter_inv {s : CachedStore} (inviterId : Int) (hinv : Inv s) :
    Leaves (onDB (rewardInviter site.env inviterId)) (fun _ s' => Inv s') s := by
  refine onDB_inv hinv ?_
  unfold rewardInviter inviteUser
  split
  · refine (getUserById_ends inviterId true s.db).bind ?_
    rintro found db' ⟨rfl, hfound⟩
    cases found with
    | error e => exact Ends.pure fun _ => Or.inl rfl
    | ok u =>
      obtain ⟨row, hrow, hu⟩ := hfound u rfl
      obtain rfl : u = row := hu
      have hid : u.id = inviterId := liveRow_id hrow
      have hlive : u.live = true := liveRow_live hrow
      rw [← hid] at hrow
      refine Ends.perform (Ends.pure fun id => Or.inl ?_)
      refine cachedOf_userSave (u := u) ?_ ?_ ?_ id
      · exact hrow
      · exact hlive
      · rfl
  · exact Ends.pure fun _ => Or.inl rfl

/-- An insertion, whose bonus is added to the cached user too. -/
theorem insert_inv (ctx : Ctx) (user : User) (inviterId : Int) {s : CachedStore} (hinv : Inv s)
    (h : inviterId ≠ 0 → 0 < site.env.cfg.quotaForInvitee →
      0 < ofSeconds (redisKeyCacheSeconds site.cache) ∧
        UserBase.InInt64 site.env.cfg.quotaForNewUser ∧
        UserBase.InInt64 (site.env.cfg.quotaForNewUser + site.env.cfg.quotaForInvitee)) :
    Leaves (Cached.insert site.cache site.env ctx user inviterId) (fun _ s' => Inv s') s := by
  unfold Cached.insert
  cases user.hashPassword ctx (user.password != "") with
  | error e => exact Leaves.pure hinv
  | ok user' =>
    have hcreate : Ends (Model.perform (.userCreate (user'.toInsert site.env ctx)))
        (fun r db' => ((∃ e, r = .error e) ∧ db' = s.db) ∨
          ∃ row : User, r = .ok row ∧ row.quota = site.env.cfg.quotaForNewUser ∧
            liveRow s.db row.id = none ∧ ∀ id, liveRow db' id
              = if row.id = id then (some row).filter User.live else liveRow s.db id) s.db := by
      obtain ⟨text, htext⟩ := toInsert_eq site.env ctx user'
      rcases liveRow_userCreate (user'.toInsert site.env ctx) s.db
        with ⟨e, he, hsame⟩ | ⟨row, hok, hquota, hnone, hrows⟩
      · exact Or.inl ⟨⟨e, he⟩, hsame⟩
      · refine Or.inr ⟨row, hok, ?_, hnone, hrows⟩
        rw [hquota, htext]
    refine (Leaves.onDB hcreate).bind ?_
    rintro answer s₁ ⟨⟨⟨e, rfl⟩, hdb⟩ | ⟨row, rfl, hquota, hnone, hrows⟩, hserver⟩
    · have hsame : s₁ = s := CachedStore.ext hdb hserver
      exact Leaves.pure (hsame ▸ hinv)
    · have huncached : Uncached s row.id := hinv.uncached hnone
      have hinv₁ : Inv s₁ := by
        refine hinv.rows hserver fun id => ?_
        by_cases hid : row.id = id
        · exact Or.inr (hid ▸ huncached)
        · left
          rw [cachedOf, hrows, if_neg hid, cachedOf]
      have huncached₁ : Uncached s₁ row.id := by
        rw [Uncached, hserver]
        exact huncached
      have hquota₁ : ∀ row', liveRow s₁.db row.id = some row' →
          row'.quota = site.env.cfg.quotaForNewUser := by
        intro row' hrow'
        rw [hrows, if_pos rfl] at hrow'
        rw [← Option.some.inj (Option.filter_eq_some_iff.mp hrow').1]
        exact hquota
      refine (initSidebar_leaves henabled ctx user'.username hinv₁).bind ?_
      intro _ s₂ hsidebar
      have hinv₂ : Inv s₂ := by
        rcases hsidebar with rfl | ⟨_, _, -, -, -, hrewritten⟩
        · exact hinv₁
        · exact hrewritten.inv hinv₁
      dsimp only
      split
      · rename_i hinviter
        have hadds : 0 < site.env.cfg.quotaForInvitee →
            Adds s₂ row.id site.env.cfg.quotaForInvitee := by
          intro hpos
          obtain ⟨hcache, hnew, hsum⟩ := h hinviter hpos
          have hfresh : Fresh s₂ row.id site.env.cfg.quotaForNewUser := by
            rcases hsidebar with rfl | ⟨row', u, hrow', hid, hquota', hrewritten⟩
            · exact ⟨Or.inl huncached₁, hquota₁⟩
            · exact fresh_rewritten huncached₁ hquota₁ hcache hrow' hid hquota' hrewritten
          rcases hfresh.ready with hready | hready
          · exact Or.inl hready
          · refine Or.inr (Or.inl ⟨hready, fun row' hrow' => ?_⟩)
            rw [hfresh.quota row' hrow']
            exact ⟨hnew, hsum⟩
        refine (rewardInvitee_inv henabled hinv₂ hadds).bind ?_
        intro _ s₃ hinv₃
        refine (rewardInviter_inv inviterId hinv₃).bind ?_
        intro _ s₄ hinv₄
        exact Leaves.pure hinv₄
      · exact Leaves.pure hinv₂

/-! ### Runs -/

/-- **One operation.** -/
theorem step_inv {s : CachedStore} {a : Act} (hinv : Inv s) (h : Fits site s a) :
    Inv (step site s a) := by
  have hdone : ∀ {α : Type} {p : CacheM α}, Leaves p (fun _ s' => Inv s') s →
      Leaves (p >>= fun _ => pure ()) (fun _ s' => Inv s') s := by
    intro α p hp
    refine hp.bind ?_
    intro _ s' hinv'
    exact Leaves.pure hinv'
  obtain ⟨request, ctx⟩ := a
  cases request with
  | insert user inviterId => exact hdone (insert_inv henabled ctx user inviterId hinv h)
  | update user updatePassword => exact hdone (update_inv henabled ctx hinv h)
  | edit user updatePassword => exact hdone (edit_inv henabled ctx hinv h)
  | delete user => exact hdone (delete_inv henabled ctx user hinv)
  | hardDeleteUserById id => exact hdone (hardDelete_inv hinv h)
  | transferAffQuotaToQuota id quota => exact hdone (transfer_inv hinv h)
  | increaseUserQuota id quota => exact hdone (increaseUserQuota_inv henabled hinv h)
  | decreaseUserQuota id quota => exact hdone (decreaseUserQuota_inv henabled hinv h)
  | getUserCache id => exact hdone (getUserCache_inv henabled hinv)
  | pass d =>
    show Leaves (onServer (hashPerform (.pass d))) (fun _ s' => Inv s') s
    refine (Leaves.onServer _).mono ?_
    rintro _ s' ⟨hdb, -, hserver⟩
    have hrun : s'.server = (serve (.pass d) s.server).2.called := by
      rw [hserver, hashPerform, Prog.run_perform, hinv.up.hashExec]
    refine hinv.step ?_ fun id f hf => Or.inl ⟨?_, by rw [hdb]⟩
    · rw [hrun]
      exact hinv.up.serve _
    · rw [hrun] at hf
      exact fields_called_serve _ _ _ hf

omit henabled in
theorem inv_start (db : DB) (now : Int) : Inv (start db now) := by
  refine ⟨rfl, fun id f hf => ?_⟩
  cases hf

end Operations

/-- **The cache is coherent after every run** whose operations are of the kind that
keeps it so. -/
theorem coherent_of_fits (site : Site) (henabled : site.cache.redisEnabled = true) (db : DB)
    (now : Int) {acts : List Act}
    (h : Runs.Always (fun pre a => Fits site (Runs.after (step site) (start db now) pre) a) acts) :
    Coherent (Runs.after (step site) (start db now) acts) := by
  have hinv : Inv (Runs.after (step site) (start db now) acts) := by
    refine Runs.run_induction (P := fun acts => Inv (Runs.after (step site) (start db now) acts))
      (inv_start db now) ?_ acts h
    intro pre a _ hinv hfits
    rw [Runs.after_snoc]
    exact step_inv henabled hinv hfits
  exact hinv.coherent

/-! ### A deleted user who is cached again -/

/-- Alice, an administrator's target. -/
def alice : User :=
  { id := 1, username := "alice", affCode := "a", role := 1, status := 1, group := "default" }

def aliceDB : DB where
  users := Table.single alice
  twoFAs := Table.empty
  backupCodes := Table.empty
  passkeys := Table.empty

def site₁ : Site where
  cache := {}
  env := Env.plain
  logQuota _ := ""

/-- What the handler of an administrator's deletion does: delete the struct, and
update it. -/
def deleteAndUpdate : List Act :=
  [⟨.delete alice, Ctx.plain 5⟩, ⟨.update { alice with deletedAt := some 5 } false, Ctx.plain 5⟩]

/-- **A user who was deleted is cached again**, and his row is gone. -/
theorem deleted_and_cached :
    ¬ Coherent (Runs.after (step site₁) (start aliceDB 0) deleteAndUpdate) := by
  intro h
  have hcached : ((Runs.after (step site₁) (start aliceDB 0) deleteAndUpdate).server.fields
      (getUserCacheKey 1)).isSome = true := by decide
  have hgone : liveRow (Runs.after (step site₁) (start aliceDB 0) deleteAndUpdate).db 1 = none := by
    decide
  obtain ⟨f, hf⟩ := Option.isSome_iff_exists.mp hcached
  obtain ⟨row, hrow, -⟩ := h 1 f hf
  rw [hgone] at hrow
  cases hrow

/-- Bob registers, and his quota is increased; Alice is cached and deleted. -/
def ordinary : List Act :=
  [⟨.insert { username := "bob", role := 1, status := 1 } 0, { Ctx.plain 5 with randomString := "b" }⟩,
    ⟨.increaseUserQuota 2 7, Ctx.plain 5⟩, ⟨.getUserCache 1, Ctx.plain 5⟩,
    ⟨.delete alice, Ctx.plain 6⟩]

/-- Bob is cached with what he has. -/
theorem ordinary_coherent :
    ((Runs.after (step site₁) (start aliceDB 0) ordinary).server.fields (getUserCacheKey 2)).bind
        (fun f => f "Quota") = some "7" ∧
      Coherent (Runs.after (step site₁) (start aliceDB 0) ordinary) := by
  refine ⟨by decide, coherent_of_fits site₁ rfl aliceDB 0 ?_⟩
  show Runs.Always _ (([] : List Act) ++ [_] ++ [_] ++ [_] ++ [_])
  simp only [Runs.always_snoc]
  refine ⟨⟨⟨⟨Runs.always_nil, ?_⟩, ?_⟩, ?_⟩, ?_⟩
  · exact fun h => absurd rfl h
  · refine Or.inr (Or.inr (Or.inl ⟨by decide, fun row hrow => ?_⟩))
    have hnew : (liveRow (Runs.after (step site₁) (start aliceDB 0) (ordinary.take 1)).db 2).map
        User.quota = some 0 := by decide
    have hquota : row.quota = 0 := by
      have hmap := congrArg (Option.map User.quota) hrow
      exact Option.some.inj (hmap.symm.trans hnew)
    rw [hquota]
    exact ⟨⟨by decide, by decide⟩, ⟨by decide, by decide⟩⟩
  · exact trivial
  · exact trivial

end AuthGateway.CacheCoherence
