import AuthGateway.Lib.Runs
import AuthGateway.Middleware.Auth

/-!
# Counters of authenticators

An assertion carries a counter, which a genuine authenticator raises with every
use; `updateCounter` is what the WebAuthn library makes of it and of the counter
that is stored.  The three requests that take an assertion come one at a time.

`CloneSafe` says of a request what the counters are for: what is stored is not
behind any assertion accepted so far, and no assertion is accepted that does not
go beyond them.  `PasskeyVerifyFinish` and `PasskeyVerifyForSecure` drop the
credential that the library returns, and nobody reads `CloneWarning`.  **In a run
in which every counter that is accepted goes up, and goes up only at a login,
every request is clone-safe** (`clone_safe_of_counted`).
-/

namespace AuthGateway.CloneDetection

open Common Model Controller Middleware

/-! ### The library -/

/-- `Authenticator.UpdateCounter`. -/
def updateCounter (count : Nat) (c : WebAuthnCredential) : WebAuthnCredential :=
  if count ≤ c.signCount ∧ (count ≠ 0 ∨ c.signCount ≠ 0) then { c with cloneWarning := true }
  else { c with signCount := count }

/-- What is relied on of the library: an assertion that is accepted is counted in
the credential that is returned, and that one is the same credential. -/
structure Counts (env : Env) (counter : String → Nat) : Prop where
  finishLogin : ∀ user credential data body c,
    env.finishLogin user credential data body = .ok c →
      c.id = credential.credential.id ∧
        c.signCount = (updateCounter (counter body) credential.credential).signCount
  finishPasskeyLogin : ∀ user credential data body c,
    env.finishPasskeyLogin user credential data body = .ok c →
      c.id = credential.credential.id ∧
        c.signCount = (updateCounter (counter body) credential.credential).signCount

/-! ### The requests -/

inductive Ceremony
  | passkeyLoginFinish
  | passkeyVerifyFinish
  | passkeyVerifyForSecure
deriving DecidableEq

/-- A request with an assertion in its body. -/
structure Act where
  ceremony : Ceremony
  body : String
  cookie : Session := {}
  authorization : String := ""
  ctx : Ctx

def handle (env : Env) (a : Act) : M Out :=
  let s := Sess.ofCookie a.cookie
  match a.ceremony with
  | .passkeyLoginFinish => passkeyLoginFinish env a.ctx s a.body
  | .passkeyVerifyFinish =>
    behind userAuth s a.authorization a.ctx fun ctx => passkeyVerifyFinish env ctx s a.body
  | .passkeyVerifyForSecure =>
    behind userAuth s a.authorization a.ctx fun ctx => passkeyVerifyForSecure env ctx s a.body

def respond (env : Env) (db : DB) (a : Act) : Out × DB := (handle env a).run exec db

def step (env : Env) (db : DB) (a : Act) : DB := (respond env db a).2

/-! ### The stored credential -/

/-- The credential of a user. -/
def stored (db : DB) (u : Int) : Option PasskeyCredential :=
  db.passkeys.find? fun c => c.live && c.userID == u

theorem stored_eq_some {db : DB} {u : Int} {c : PasskeyCredential} :
    stored db u = some c ↔ c ∈ db.passkeys ∧ c.live = true ∧ c.userID = u := by
  have huniq : ∀ a ∈ db.passkeys, ∀ b ∈ db.passkeys, (a.live && a.userID == u) = true →
      (b.live && b.userID == u) = true → a = b := by
    intro a ha b hb hpa hpb
    rw [Bool.and_eq_true, beq_iff_eq] at hpa hpb
    refine Table.eq_of_clash ha hb ?_
    rw [PasskeyCredential.clash_eq, PasskeyCredential.clash, hpa.2, hpb.2, beq_self_eq_true,
      Bool.true_or]
  unfold stored
  rw [Table.find?_eq_some_of_unique huniq, Bool.and_eq_true, beq_iff_eq]

/-- Storing a credential over the one it was read from succeeds, replaces it, and
leaves those of the others. -/
theorem exec_upsert {db : DB} {row c : PasskeyCredential} (hrow : row ∈ db.passkeys)
    (huser : c.userID = row.userID) (hid : c.credential.id = row.credential.id)
    (hlive : c.live = true) (hkey : c.id = 0 ∨ c.id = row.id) :
    (exec (.passkeyUpsert c) db).1 = .ok () ∧
      (∃ c', stored (exec (.passkeyUpsert c) db).2 row.userID = some c' ∧
        c'.credential = c.credential) ∧
      ∀ v, v ≠ row.userID → stored (exec (.passkeyUpsert c) db).2 v = stored db v := by
  have hother : ∀ x ∈ db.passkeys.delete (fun x => x.userID == c.userID),
      x ∈ db.passkeys ∧ x.userID ≠ c.userID := by
    intro x hx
    obtain ⟨hx, hne⟩ := Table.mem_delete.mp hx
    exact ⟨hx, beq_eq_false_iff_ne.mp hne⟩
  have hclash : ∀ k : Int, ∀ x ∈ db.passkeys.delete (fun x => x.userID == c.userID),
      Row.clash x { c with id := k } = false := by
    intro k x hx
    obtain ⟨hx, hne⟩ := hother x hx
    rw [PasskeyCredential.clash_eq, PasskeyCredential.clash, Bool.or_eq_false_iff,
      beq_eq_false_iff_ne, beq_eq_false_iff_ne]
    refine ⟨hne, fun hsame => ?_⟩
    have he : x = row := by
      refine Table.eq_of_clash hx hrow ?_
      have hcred : x.credentialID = row.credentialID := hsame.trans hid
      rw [PasskeyCredential.clash_eq, PasskeyCredential.clash, hcred, beq_self_eq_true,
        Bool.or_true]
    rw [he, huser] at hne
    exact hne rfl
  have hcreate : ∃ k table,
      (db.passkeys.delete fun x => x.userID == c.userID).create c
        = some ({ c with id := k }, table) := by
    by_cases hzero : c.id = 0
    · have hpos := (db.passkeys.delete fun x => x.userID == c.userID).nextKey_pos
      obtain ⟨table, htable⟩ := Table.put_isSome
        (r := { c with id := (db.passkeys.delete fun x => x.userID == c.userID).nextKey })
        (fun x hx _ => hclash _ x hx) hpos
      refine ⟨(db.passkeys.delete fun x => x.userID == c.userID).nextKey, table, ?_⟩
      rw [Table.create, PasskeyCredential.key_eq, if_pos hzero, Table.insert]
      exact congrArg (Option.map fun t => (_, t)) htable
    · have hrowid : c.id = row.id := hkey.resolve_left hzero
      have hnone : (db.passkeys.delete fun x => x.userID == c.userID).get? c.id = none := by
        rw [Table.get?_eq_none]
        intro x hx hxid
        obtain ⟨hx, hne⟩ := hother x hx
        have he : x = row := Table.eq_of_key hx hrow (hxid.trans hrowid)
        rw [he, huser] at hne
        exact hne rfl
      have hpos : 0 < Row.key c := by
        rw [PasskeyCredential.key_eq, hrowid]
        exact Table.key_pos hrow
      obtain ⟨table, htable⟩ := Table.put_isSome (fun x hx _ => hclash c.id x hx) hpos
      refine ⟨c.id, table, ?_⟩
      rw [Table.create, PasskeyCredential.key_eq, if_neg hzero, hnone, Option.isSome_none,
        if_neg Bool.false_ne_true]
      exact congrArg (Option.map fun t => (_, t)) htable
  obtain ⟨k, table, hcreate⟩ := hcreate
  have hexec : exec (.passkeyUpsert c) db = (.ok (), db.setPasskeys table) := by
    simp only [exec]
    rw [hcreate]
    rfl
  have hmem : ∀ x, x ∈ table ↔ x = { c with id := k } ∨
      x ∈ db.passkeys.delete (fun x => x.userID == c.userID) := fun x => Table.mem_create hcreate
  rw [hexec]
  refine ⟨rfl, ⟨{ c with id := k }, ?_, rfl⟩, ?_⟩
  · exact stored_eq_some.mpr ⟨(hmem _).mpr (Or.inl rfl), hlive, huser⟩
  · intro v hv
    apply Option.ext
    intro x
    rw [stored_eq_some, stored_eq_some]
    have hx : x ∈ (db.setPasskeys table).passkeys ↔ _ := hmem x
    rw [hx]
    constructor
    · rintro ⟨rfl | hold, hxlive, hxuser⟩
      · exact absurd (hxuser.symm.trans huser) hv
      · exact ⟨(hother x hold).1, hxlive, hxuser⟩
    · rintro ⟨hold, hxlive, hxuser⟩
      refine ⟨Or.inr (Table.mem_delete.mpr ⟨hold, ?_⟩), hxlive, hxuser⟩
      rw [beq_eq_false_iff_ne, hxuser, huser]
      exact hv

/-! ### What a request does -/

/-- **The request comes to the library with `row`, which was read for its user, and the library
accepts the assertion.** -/
def Passes (env : Env) (db : DB) (a : Act) (row : PasskeyCredential) : Prop :=
  env.cfg.passkeyEnabled = true ∧ a.ctx.webAuthnError = none ∧
    match a.ceremony with
    | .passkeyLoginFinish => ∃ data userHandle user c,
      a.cookie.passkeyLogin = some data ∧
      env.passkeyHandles a.body = .ok (row.credentialID, userHandle) ∧
      ((passkeyLoginHandler row.credentialID userHandle).run exec db).1 = .ok (user, row) ∧
      env.finishPasskeyLogin user row data a.body = .ok c
    | .passkeyVerifyFinish => ∃ data auth user c,
      a.cookie.passkeyVerify = some data ∧
      ((userAuth a.cookie a.authorization).run exec db).1 = .ok auth ∧
      ((getSessionUser (Sess.ofCookie a.cookie)).run exec db).1 = .ok user ∧
      ((getPasskeyByUserID user.id).run exec db).1 = .ok row ∧
      env.finishLogin user row data a.body = .ok c
    | .passkeyVerifyForSecure => ∃ data auth user c,
      a.cookie.passkeyVerify = some data ∧
      ((userAuth a.cookie a.authorization).run exec db).1 = .ok auth ∧ auth.id ≠ 0 ∧
      ((User.fillUserById { id := auth.id }).run exec db).1 = (none, user) ∧
      user.status = userStatusEnabled ∧
      ((getPasskeyByUserID auth.id).run exec db).1 = .ok row ∧
      env.finishLogin user row data a.body = .ok c

/-- What a query answers besides what holds of the answer. -/
theorem ends_result {α : Type} {p : M α} {Q : α → DB → Prop} {db : DB} (h : Ends p Q db) :
    Ends p (fun r db' => Q r db' ∧ (p.run exec db).1 = r) db := ⟨h, rfl⟩

theorem popVerifySession_ok {env : Env} {s s' : Sess} {data : String}
    (h : popVerifySession env s = (.ok data, s')) : s.cur.passkeyVerify = some data := by
  unfold popVerifySession at h
  split at h
  · cases h
  · rename_i hdata
    cases h
    exact hdata

theorem popLoginSession_ok {env : Env} {s s' : Sess} {data : String}
    (h : popLoginSession env s = (.ok data, s')) : s.cur.passkeyLogin = some data := by
  unfold popLoginSession at h
  split at h
  · cases h
  · rename_i hdata
    cases h
    exact hdata

/-- What became of the assertion of a request. -/
inductive Effect (env : Env) (counter : String → Nat) (a : Act) (db : DB) (out : Out) (db' : DB) :
    Prop
  | refused (hchecks : out.checks = []) (hdb : db' = db)
  | accepted (row c : PasskeyCredential) (hrow : stored db row.userID = some row)
      (hpasses : Passes env db a row)
      (hchecks : out.checks = [(row.userID, .ok true)])
      (hstored : stored db' row.userID = some c)
      (hcount : c.credential.signCount = if a.ceremony = .passkeyLoginFinish then
        (updateCounter (counter a.body) row.credential).signCount else row.credential.signCount)
      (hothers : ∀ v, v ≠ row.userID → stored db' v = stored db v)

theorem upsert_ends {db : DB} {row c : PasskeyCredential} (hrow : row ∈ db.passkeys)
    (huser : c.userID = row.userID) (hid : c.credential.id = row.credential.id)
    (hlive : c.live = true) (hkey : c.id = 0 ∨ c.id = row.id) :
    Ends (upsertPasskeyCredential c) (fun r db' => r = none ∧
      (∃ c', stored db' row.userID = some c' ∧ c'.credential = c.credential) ∧
      ∀ v, v ≠ row.userID → stored db' v = stored db v) db := by
  obtain ⟨hok, hstored, hothers⟩ := exec_upsert hrow huser hid hlive hkey
  unfold upsertPasskeyCredential
  refine Ends.perform ?_
  rw [hok]
  exact Ends.pure ⟨rfl, hstored, hothers⟩

/-- The last use of a credential that was read is stored; its counter stays. -/
theorem effect_of_use {env : Env} {counter : String → Nat} {a : Act} {db : DB}
    {row : PasskeyCredential} (hrow : row ∈ db.passkeys) (hlive : row.live = true)
    (hpasses : Passes env db a row) (hverify : a.ceremony ≠ .passkeyLoginFinish) (now : Int)
    {f : Option Err → M Out}
    (hf : ∃ out : Out, f none = pure out ∧ out.checks = [(row.userID, .ok true)]) :
    Ends (upsertPasskeyCredential { row with lastUsedAt := some now } >>= f)
      (Effect env counter a db) db := by
  have hupsert := upsert_ends (c := { row with lastUsedAt := some now }) hrow rfl rfl hlive
    (Or.inr rfl)
  refine hupsert.bind ?_
  rintro r db' ⟨rfl, ⟨c, hc, hcred⟩, hothers⟩
  obtain ⟨out, hout, hchecks⟩ := hf
  rw [hout]
  refine Ends.pure (.accepted row c (stored_eq_some.mpr ⟨hrow, hlive, rfl⟩) hpasses hchecks hc ?_
    hothers)
  rw [if_neg hverify, hcred]

theorem passkeyVerifyFinish_effect (env : Env) {counter : String → Nat} {a : Act}
    (ha : a.ceremony = .passkeyVerifyFinish) {db : DB} {auth : Auth}
    (hauth : ((userAuth a.cookie a.authorization).run exec db).1 = .ok auth) :
    Ends (passkeyVerifyFinish env (auth.toCtx a.ctx) (Sess.ofCookie a.cookie) a.body)
      (Effect env counter a db) db := by
  have hverify : a.ceremony ≠ .passkeyLoginFinish := by
    rw [ha]
    decide
  unfold passkeyVerifyFinish
  split
  · exact Ends.pure (.refused rfl rfl)
  rename_i hon
  rw [Bool.not_eq_true', Bool.not_eq_false] at hon
  refine (ends_result (getSessionUser_sat (Sess.ofCookie a.cookie) db).ends).bind ?_
  rintro r db₁ ⟨⟨rfl, -⟩, hr⟩
  cases r with
  | error e => exact Ends.pure (.refused rfl rfl)
  | ok user =>
    dsimp only [Auth.toCtx]
    cases hlib : a.ctx.webAuthnError with
    | some e => exact Ends.pure (.refused rfl rfl)
    | none =>
      refine (ends_result (getPasskeyByUserID_sat user.id db₁).ends).bind ?_
      rintro r db₂ ⟨⟨rfl, hread⟩, hrow⟩
      cases r with
      | error e => exact Ends.pure (.refused rfl rfl)
      | ok credential =>
        obtain ⟨hmem, hlive, huser⟩ := hread credential rfl
        dsimp only
        split
        · exact Ends.pure (.refused rfl rfl)
        · rename_i hpop
          split
          · exact Ends.pure (.refused rfl rfl)
          · rename_i hfinish
            have hpasses : Passes env db₂ a credential := by
              rw [Passes, ha]
              exact ⟨hon, hlib, _, auth, user, _, popVerifySession_ok hpop, hauth, hr, hrow,
                hfinish⟩
            refine effect_of_use hmem hlive hpasses hverify a.ctx.now ⟨_, rfl, ?_⟩
            rw [huser]
            rfl

theorem passkeyVerifyForSecure_effect (env : Env) {counter : String → Nat} {a : Act}
    (ha : a.ceremony = .passkeyVerifyForSecure) {db : DB} {auth : Auth}
    (hauth : ((userAuth a.cookie a.authorization).run exec db).1 = .ok auth) :
    Ends (passkeyVerifyForSecure env (auth.toCtx a.ctx) (Sess.ofCookie a.cookie) a.body)
      (Effect env counter a db) db := by
  have hverify : a.ceremony ≠ .passkeyLoginFinish := by
    rw [ha]
    decide
  unfold passkeyVerifyForSecure
  split
  · exact Ends.pure (.refused rfl rfl)
  rename_i hon
  rw [Bool.not_eq_true', Bool.not_eq_false] at hon
  split
  · exact Ends.pure (.refused rfl rfl)
  rename_i hid
  refine (ends_result (fillUserById_sat auth.id db).ends).bind ?_
  rintro ⟨err, user⟩ db₁ ⟨⟨rfl, -⟩, hfill⟩
  cases err with
  | some e => exact Ends.pure (.refused rfl rfl)
  | none =>
    dsimp only
    split
    · exact Ends.pure (.refused rfl rfl)
    rename_i hstatus
    refine (ends_result (getPasskeyByUserID_sat auth.id db₁).ends).bind ?_
    rintro r db₂ ⟨⟨rfl, hread⟩, hrow⟩
    cases r with
    | error e => exact Ends.pure (.refused rfl rfl)
    | ok credential =>
      obtain ⟨hmem, hlive, huser⟩ := hread credential rfl
      dsimp only [Auth.toCtx]
      cases hlib : a.ctx.webAuthnError with
      | some e => exact Ends.pure (.refused rfl rfl)
      | none =>
        dsimp only
        split
        · exact Ends.pure (.refused rfl rfl)
        · rename_i hpop
          split
          · exact Ends.pure (.refused rfl rfl)
          · rename_i hfinish
            have hpasses : Passes env db₂ a credential := by
              rw [Passes, ha]
              exact ⟨hon, hlib, _, auth, user, _, popVerifySession_ok hpop, hauth, hid, hfill,
                not_not.mp hstatus, hrow, hfinish⟩
            refine effect_of_use hmem hlive hpasses hverify a.ctx.now ⟨_, rfl, ?_⟩
            rw [huser]
            rfl

/-- The user that the callback names is enabled and holds the credential it read. -/
theorem passkeyLoginHandler_ends (rawID userHandle : String) (db : DB) :
    Ends (passkeyLoginHandler rawID userHandle) (fun r db' => db' = db ∧ ∀ user c,
      r = .ok (user, c) → c ∈ db.passkeys ∧ c.live = true ∧ c.credentialID = rawID ∧
        user.id = c.userID ∧ user.status = userStatusEnabled) db := by
  have hlookup : Sat (getPasskeyByCredentialID rawID) (fun r db' => db' = db ∧ ∀ c, r = .ok c →
      c ∈ db.passkeys ∧ c.live = true ∧ c.credentialID = rawID) db := by
    unfold getPasskeyByCredentialID
    split
    · exact Sat.pure ⟨rfl, fun c hc => nomatch hc⟩
    · refine Sat.perform fun r db' h => ?_
      obtain ⟨rfl, ⟨row, hmem, hp, -, rfl⟩ | ⟨e, rfl⟩⟩ := h.passkeyFirst
      · refine Sat.pure ⟨rfl, fun c hc => ?_⟩
        obtain rfl := Except.ok.inj hc
        rw [Bool.and_eq_true, beq_iff_eq] at hp
        exact ⟨hmem, hp⟩
      · exact Sat.pure ⟨rfl, fun c hc => nomatch hc⟩
  unfold passkeyLoginHandler
  refine hlookup.ends.bind ?_
  rintro r db₁ ⟨rfl, hr⟩
  cases r with
  | error e => exact Ends.pure ⟨rfl, fun user c h => nomatch h⟩
  | ok credential =>
    obtain ⟨hmem, hlive, hraw⟩ := hr credential rfl
    refine (fillUserById_sat credential.userID db₁).ends.bind ?_
    rintro ⟨err, user⟩ db₂ ⟨rfl, huser⟩
    have hid : user.id = credential.userID := by
      rcases huser with h | ⟨row, -, h, -, hrow⟩
      · rw [show user = _ from h]
      · rw [show user = row from congrArg Prod.snd h, hrow]
    cases err with
    | some e => exact Ends.pure ⟨rfl, fun user c h => nomatch h⟩
    | none =>
      dsimp only
      split
      · exact Ends.pure ⟨rfl, fun user c h => nomatch h⟩
      · rename_i hstatus
        rw [not_not] at hstatus
        split
        · exact Ends.pure ⟨rfl, fun user c h => nomatch h⟩
        · refine Ends.pure ⟨rfl, fun user' c h => ?_⟩
          obtain ⟨rfl, rfl⟩ := Prod.mk.inj (Except.ok.inj h)
          exact ⟨hmem, hlive, hraw, hid, hstatus⟩

theorem passkeyLoginFinish_effect {env : Env} {counter : String → Nat} (hlib : Counts env counter)
    {a : Act} (ha : a.ceremony = .passkeyLoginFinish) (db : DB) :
    Ends (passkeyLoginFinish env a.ctx (Sess.ofCookie a.cookie) a.body) (Effect env counter a db)
      db := by
  unfold passkeyLoginFinish
  split
  · exact Ends.pure (.refused rfl rfl)
  rename_i hon
  rw [Bool.not_eq_true', Bool.not_eq_false] at hon
  split
  · exact Ends.pure (.refused rfl rfl)
  rename_i hready
  split
  · exact Ends.pure (.refused rfl rfl)
  rename_i hpop
  split
  · exact Ends.pure (.refused rfl rfl)
  · rename_i rawID userHandle hhandles
    refine (ends_result (passkeyLoginHandler_ends rawID userHandle db)).bind ?_
    rintro r db₁ ⟨⟨rfl, hr⟩, hfound⟩
    cases r with
    | error e => exact Ends.pure (.refused rfl rfl)
    | ok found =>
      obtain ⟨modelUser, row⟩ := found
      obtain ⟨hmem, hlive, rfl, huser, hstatus⟩ := hr modelUser row rfl
      dsimp only
      split
      · exact Ends.pure (.refused rfl rfl)
      · rename_i validated hvalidated
        obtain ⟨hid, hcount⟩ := hlib.finishPasskeyLogin _ _ _ _ _ hvalidated
        rw [if_neg (not_not.mpr hstatus)]
        have hpasses : Passes env db₁ a row := by
          rw [Passes, ha]
          exact ⟨hon, hready, _, userHandle, modelUser, validated, popLoginSession_ok hpop,
            hhandles, hfound, hvalidated⟩
        have hupsert := upsert_ends (c := { PasskeyCredential.ofWebAuthn modelUser.id validated with
          lastUsedAt := some a.ctx.now }) hmem huser hid rfl (Or.inl rfl)
        refine hupsert.bind ?_
        rintro r db' ⟨rfl, ⟨c, hc, hcred⟩, hothers⟩
        refine Ends.pure (.accepted row c (stored_eq_some.mpr ⟨hmem, hlive, rfl⟩) hpasses ?_ hc ?_
          hothers)
        · rw [Out.withChecks_checks, huser]
          rfl
        · rw [if_pos ha, hcred]
          exact hcount

/-- A request that does not come through, or the handler behind it. -/
theorem behind_effect {env : Env} {counter : String → Nat} {a : Act} {handler : Ctx → M Out}
    {db : DB} (hhandler : ∀ auth : Auth,
      ((userAuth a.cookie a.authorization).run exec db).1 = .ok auth →
        Ends (handler (auth.toCtx a.ctx)) (Effect env counter a db) db) :
    Ends (behind userAuth (Sess.ofCookie a.cookie) a.authorization a.ctx handler)
      (Effect env counter a db) db := by
  have hread := ((authHelper_readOnly roleCommonUser a.cookie a.authorization).sat db).ends
  unfold behind
  refine (ends_result hread).bind ?_
  rintro r db' ⟨rfl, hr⟩
  cases r with
  | error reply => exact Ends.pure (.refused rfl rfl)
  | ok auth => exact hhandler auth hr

/-- **What a request does**: nothing, or it accepts an assertion for a credential
that is stored, and stores it with the counter that its handler keeps. -/
theorem effect {env : Env} {counter : String → Nat} (hlib : Counts env counter) (db : DB)
    (a : Act) : Effect env counter a db (respond env db a).1 (step env db a) := by
  have hends : Ends (handle env a) (Effect env counter a db) db := by
    unfold handle
    cases ha : a.ceremony with
    | passkeyLoginFinish => exact passkeyLoginFinish_effect hlib ha db
    | passkeyVerifyFinish =>
      exact behind_effect fun _ hauth => passkeyVerifyFinish_effect env ha hauth
    | passkeyVerifyForSecure =>
      exact behind_effect fun _ hauth => passkeyVerifyForSecure_effect env ha hauth
  exact hends

/-! ### The property -/

/-- The request has an assertion of `u` accepted, with the counter `n`. -/
def Accepts (env : Env) (counter : String → Nat) (db : DB) (a : Act) (u : Int) (n : Nat) : Prop :=
  (u, Except.ok true) ∈ (respond env db a).1.checks ∧ counter a.body = n

/-- Some request of the run had one accepted. -/
def Accepted (env : Env) (counter : String → Nat) (db₀ : DB) (acts : List Act) (u : Int) (n : Nat) :
    Prop :=
  Runs.Earlier (step env) db₀ (fun db a => Accepts env counter db a u n) acts

/-- A login, or a verification, with success. -/
def Granted (out : Out) : Prop := ∃ status message data, out.reply = .json status true message data

/-- **What the counters are for**, of a request with the run before it. -/
structure CloneSafe (env : Env) (counter : String → Nat) (db₀ : DB) (pre : List Act) (a : Act) :
    Prop where
  kept : ∀ u n, Accepts env counter (Runs.after (step env) db₀ pre) a u n →
    ∀ m, Accepted env counter db₀ (pre ++ [a]) u m →
      ∃ c, stored (Runs.after (step env) db₀ (pre ++ [a])) u = some c ∧ m ≤ c.credential.signCount
  beyond : ∀ u n, Accepts env counter (Runs.after (step env) db₀ pre) a u n →
    Granted (respond env (Runs.after (step env) db₀ pre) a).1 →
      ∀ m, Accepted env counter db₀ pre u m → m ≠ 0 → m < n

/-- The counter of an assertion that passes goes up, and the request is a login,
which stores it; or there are no counters. -/
def Counted (env : Env) (counter : String → Nat) (db₀ : DB) (pre : List Act) (a : Act) : Prop :=
  ∀ row, stored (Runs.after (step env) db₀ pre) row.userID = some row →
    Passes env (Runs.after (step env) db₀ pre) a row →
      (row.credential.signCount < counter a.body ∧ a.ceremony = .passkeyLoginFinish) ∨
        (counter a.body = 0 ∧ row.credential.signCount = 0)

/-- What is stored is not behind what was accepted. -/
def Inv (env : Env) (counter : String → Nat) (db₀ : DB) (acts : List Act) : Prop :=
  ∀ u m, Accepted env counter db₀ acts u m →
    ∃ c, stored (Runs.after (step env) db₀ acts) u = some c ∧ m ≤ c.credential.signCount

theorem updateCounter_signCount (count : Nat) (c : WebAuthnCredential) :
    (updateCounter count c).signCount = max count c.signCount := by
  unfold updateCounter
  split
  · show c.signCount = _
    omega
  · show count = _
    omega

section
variable {env : Env} {counter : String → Nat} {db₀ : DB} {acts : List Act} {a : Act}

theorem accepted_snoc {u : Int} {m : Nat} (h : Accepted env counter db₀ (acts ++ [a]) u m) :
    Accepted env counter db₀ acts u m ∨
      Accepts env counter (Runs.after (step env) db₀ acts) a u m :=
  Runs.earlier_snoc.mp h

theorem inv_step (hlib : Counts env counter) (hinv : Inv env counter db₀ acts)
    (hcounted : Counted env counter db₀ acts a) : Inv env counter db₀ (acts ++ [a]) := by
  intro u m hm
  rw [Runs.after_snoc]
  rcases effect hlib (Runs.after (step env) db₀ acts) a with
    ⟨hchecks, hdb⟩ | ⟨row, c, hrow, hpasses, hchecks, hstored, hcount, hothers⟩
  · rw [hdb]
    rcases accepted_snoc hm with hold | ⟨hnew, -⟩
    · exact hinv u m hold
    · rw [hchecks] at hnew
      exact nomatch hnew
  · -- the stored counter does not fall, and reaches the one that is accepted
    have hle : row.credential.signCount ≤ c.credential.signCount ∧
        counter a.body ≤ c.credential.signCount := by
      rw [hcount, updateCounter_signCount]
      rcases hcounted row hrow hpasses with ⟨-, hlogin⟩ | ⟨hzero, -⟩
      · rw [if_pos hlogin]
        omega
      · split <;> omega
    rcases accepted_snoc hm with hold | ⟨hnew, hn⟩
    · obtain ⟨c₀, hc₀, hm₀⟩ := hinv u m hold
      by_cases hu : u = row.userID
      · subst hu
        obtain rfl : c₀ = row := Option.some.inj (hc₀.symm.trans hrow)
        exact ⟨c, hstored, by omega⟩
      · exact ⟨c₀, (hothers u hu).trans hc₀, hm₀⟩
    · rw [hchecks, List.mem_singleton] at hnew
      obtain rfl : u = row.userID := congrArg Prod.fst hnew
      exact ⟨c, hstored, by omega⟩

theorem cloneSafe_of_inv (hlib : Counts env counter) (hinv : Inv env counter db₀ acts)
    (hcounted : Counted env counter db₀ acts a) : CloneSafe env counter db₀ acts a where
  kept := fun u _ _ m hm => inv_step hlib hinv hcounted u m hm
  beyond := by
    rintro u n ⟨hcheck, rfl⟩ - m hm hzero
    obtain ⟨c, hc, hle⟩ := hinv u m hm
    rcases effect hlib (Runs.after (step env) db₀ acts) a with
      ⟨hchecks, -⟩ | ⟨row, -, hrow, hpasses, hchecks, -⟩
    · rw [hchecks] at hcheck
      exact nomatch hcheck
    · rw [hchecks, List.mem_singleton] at hcheck
      obtain rfl : u = row.userID := congrArg Prod.fst hcheck
      obtain rfl : c = row := Option.some.inj (hc.symm.trans hrow)
      rcases hcounted c hrow hpasses with ⟨hlt, -⟩ | ⟨-, hnone⟩ <;> omega

end

/-- **Every request of a run is clone-safe when the counters that pass go up,
and do so at logins.** -/
theorem clone_safe_of_counted (env : Env) (counter : String → Nat) (hlib : Counts env counter)
    (db₀ : DB) (acts : List Act) (h : Runs.Always (Counted env counter db₀) acts) :
    Runs.Always (CloneSafe env counter db₀) acts := by
  have hrun : Inv env counter db₀ acts ∧ Runs.Always (CloneSafe env counter db₀) acts := by
    refine Runs.run_induction (C := Counted env counter db₀)
      (P := fun acts => Inv env counter db₀ acts ∧ Runs.Always (CloneSafe env counter db₀) acts)
      ?_ ?_ acts h
    · exact ⟨fun u m hm => absurd hm Runs.not_earlier_nil, Runs.always_nil⟩
    · rintro acts a - ⟨hinv, hsafe⟩ hcounted
      exact ⟨inv_step hlib hinv hcounted,
        Runs.always_snoc.mpr ⟨hsafe, cloneSafe_of_inv hlib hinv hcounted⟩⟩
  exact hrun.2

/-! ### Gloria and her key -/

/-- A library that counts; every assertion is good. -/
def counting (counter : String → Nat) : Env :=
  { Env.plain with
    passkeyHandles := fun _ => .ok ("key", "")
    finishLogin := fun _ credential _ body =>
      .ok (updateCounter (counter body) credential.credential)
    finishPasskeyLogin := fun _ credential _ body =>
      .ok (updateCounter (counter body) credential.credential) }

theorem updateCounter_id (count : Nat) (c : WebAuthnCredential) :
    (updateCounter count c).id = c.id := by
  unfold updateCounter
  split <;> rfl

theorem counts_counting (counter : String → Nat) : Counts (counting counter) counter where
  finishLogin := by
    intro user credential data body c h
    obtain rfl := Except.ok.inj h
    exact ⟨updateCounter_id _ _, rfl⟩
  finishPasskeyLogin := by
    intro user credential data body c h
    obtain rfl := Except.ok.inj h
    exact ⟨updateCounter_id _ _, rfl⟩

def fiveOrSix (body : String) : Nat := if body = "five" then 5 else 6

def gloriaDB : DB where
  users := Table.single { id := 1, username := "gloria", role := 1, status := 1 }
  twoFAs := Table.empty
  backupCodes := Table.empty
  passkeys := Table.single { id := 1, userID := 1, credential := { id := "key" } }

def gloriaLogin (body : String) : Act where
  ceremony := .passkeyLoginFinish
  body := body
  cookie := { passkeyLogin := some "challenge" }
  ctx := Ctx.plain 0

def gloriaVerify (body : String) : Act where
  ceremony := .passkeyVerifyFinish
  body := body
  cookie := { id := some 1, username := some "gloria", role := some 1, status := some 1,
              passkeyVerify := some "challenge" }
  ctx := Ctx.plain 0

/-- **Two logins with a counter that goes up are clone-safe.** -/
theorem clone_safe_gloria :
    Accepted (counting fiveOrSix) fiveOrSix gloriaDB [gloriaLogin "five", gloriaLogin "six"] 1 6 ∧
      Runs.Always (CloneSafe (counting fiveOrSix) fiveOrSix gloriaDB)
        [gloriaLogin "five", gloriaLogin "six"] := by
  have hsplit : [gloriaLogin "five", gloriaLogin "six"]
      = [] ++ [gloriaLogin "five"] ++ [gloriaLogin "six"] := rfl
  refine ⟨?_, clone_safe_of_counted _ _ (counts_counting fiveOrSix) _ _ ?_⟩
  · exact ⟨[gloriaLogin "five"], gloriaLogin "six", [], rfl, List.mem_singleton.mpr rfl, rfl⟩
  · rw [hsplit, Runs.always_snoc, Runs.always_snoc]
    refine ⟨⟨Runs.always_nil, ?_⟩, ?_⟩
    · intro row hrow _
      obtain ⟨hmem, -⟩ := stored_eq_some.mp hrow
      rw [List.mem_singleton.mp (Table.mem_def.mp hmem)]
      exact Or.inl ⟨by decide, rfl⟩
    · intro row hrow _
      obtain ⟨hmem, -⟩ := stored_eq_some.mp hrow
      rw [List.mem_singleton.mp (Table.mem_def.mp hmem)]
      exact Or.inl ⟨by decide, rfl⟩

/-- **A verification leaves the counter where it was**: the same assertion counter
logs in afterwards. -/
theorem copied_key_logs_in : Counts (counting fiveOrSix) fiveOrSix ∧
    ¬ Runs.Always (CloneSafe (counting fiveOrSix) fiveOrSix gloriaDB)
      [gloriaVerify "five", gloriaLogin "five"] := by
  refine ⟨counts_counting fiveOrSix, fun h => ?_⟩
  have hsafe := h [gloriaVerify "five"] (gloriaLogin "five") [] rfl
  have hverified : Accepted (counting fiveOrSix) fiveOrSix gloriaDB [gloriaVerify "five"] 1 5 :=
    ⟨[], gloriaVerify "five", [], rfl, List.mem_singleton.mpr rfl, rfl⟩
  have hlogin := hsafe.beyond 1 5 ⟨List.mem_singleton.mpr rfl, rfl⟩ ⟨_, _, _, rfl⟩ 5 hverified
    (by decide)
  exact absurd hlogin (by decide)

end AuthGateway.CloneDetection
