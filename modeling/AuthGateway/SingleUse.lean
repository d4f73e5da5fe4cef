import AuthGateway.Lib.Copies
import AuthGateway.Lib.Runs
import AuthGateway.Middleware.Auth

/-!
# Session state that is used once

A WebAuthn ceremony is taken out of the session by `PopSessionData`, the pending
user by `Verify2FALogin`, a login by `Logout`.  The session store of `main.go` is
a cookie: the server keeps nothing (`Lib.Copies`), and a client may send any
cookie it ever received.

* `takes`: the value a request takes out of the session; `accepts`: the values
  it acts upon.
* `Reuses`: a request acts upon a value that was taken earlier in the run.
* `never_reused`: **no request does**, as long as a cookie sent is no older than
  the last taking of a value it holds, and what is taken can be saved.
* `logout_replayed`: a cookie from before the logout still signs in.

Between two requests the tables may change in any way.
-/

namespace AuthGateway.SingleUse

open Common Model Controller Middleware

/-! ### Values of the session -/

inductive Kind
  | challenge
  | verification
  | pending
  | login
deriving DecidableEq

inductive Value
  | text (s : String)
  | number (n : Int)
  | account (username : String) (id : Option Int)
deriving DecidableEq

def value : Kind → Session → Option Value
  | .challenge, s => s.passkeyLogin.map .text
  | .verification, s => s.passkeyVerify.map .text
  | .pending, s => s.pendingUserId.map .number
  | .login, s => s.username.map fun username => .account username s.id

/-- The session that is saved when the value is taken out. -/
def drop : Kind → Session → Session
  | .challenge, s => { s with passkeyLogin := none }
  | .verification, s => { s with passkeyVerify := none }
  | .pending, s => s.unpend
  | .login, _ => {}

theorem value_blank (k : Kind) : value k {} = none := by
  cases k <;> rfl

/-! ### Requests -/

/-- The handlers that take something out, and any other handler, behind
`authHelper` or not. -/
inductive Request
  | passkeyLoginFinish (body : String)
  | passkeyVerifyFinish (body : String)
  | verify2FALogin (code : Option String)
  | logout
  | guarded (minRole : Int) (handler : Ctx → Sess → M Out)
  | other (handler : Ctx → Sess → M Out)

/-- A request of a client, with the cookie it sends: its `i`-th, or none. -/
structure Act (Client : Type) where
  client : Client
  resends : Option Nat
  request : Request
  authorization : String := ""
  env : Env
  ctx : Ctx
  store : Store

variable {Client : Type}

def handle (a : Act Client) (s : Sess) : M Out :=
  match a.request with
  | .passkeyLoginFinish body => passkeyLoginFinish a.env a.ctx s body
  | .passkeyVerifyFinish body =>
    behind userAuth s a.authorization a.ctx fun ctx => passkeyVerifyFinish a.env ctx s body
  | .verify2FALogin code => verify2FALogin a.env a.ctx s code
  | .logout => return logout a.env s
  | .guarded minRole handler =>
    behind (authHelper minRole) s a.authorization a.ctx fun ctx => handler ctx s
  | .other handler => handler a.ctx s

/-- What the server answers to a request with a cookie. -/
def respond (a : Act Client) (c : Session) : Out := (serve (handle a (Sess.ofCookie c)) a.store).1

/-- `PasskeyVerifyFinish` comes as far as `PopSessionData`. -/
def reachesPop (env : Env) (ctx : Ctx) (s : Sess) : M Bool := do
  if !env.cfg.passkeyEnabled then return false
  match ← getSessionUser s with
  | .error _ => return false
  | .ok user =>
    match ctx.webAuthnError with
    | some _ => return false
    | none =>
      match ← getPasskeyByUserID (show User from user).id with
      | .error _ => return false
      | .ok _ => return true

/-- `authHelper` lets the request through; with what the handler then meets. -/
def admitted (a : Act Client) (minRole : Int) (c : Session) : Option (Auth × Store) :=
  match serve (authHelper minRole c a.authorization) a.store with
  | (.ok auth, st) => some (auth, st)
  | (.error _, _) => none

/-- `PopSessionData` is asked for the ceremony of a verification. -/
def popsVerification (a : Act Client) (c : Session) : Bool :=
  match admitted a roleCommonUser c with
  | some (auth, st) => (serve (reachesPop a.env (auth.toCtx a.ctx) (Sess.ofCookie c)) st).1
  | none => false

/-- The value that a request takes out of the session. -/
def takes (a : Act Client) (c : Session) : Option Kind :=
  match a.request with
  | .passkeyLoginFinish _ =>
    if a.env.cfg.passkeyEnabled && a.ctx.webAuthnError.isNone && c.passkeyLogin.isSome then
      some .challenge
    else none
  | .passkeyVerifyFinish _ =>
    if c.passkeyVerify.isSome && popsVerification a c then some .verification else none
  | .verify2FALogin _ => if (respond a c).login.isSome then some .pending else none
  | .logout => if c.username.isSome && (a.env.saveError {}).isNone then some .login else none
  | .guarded _ _ => none
  | .other _ => none

/-- The role the route asks of `authHelper`, if it is behind it. -/
def Request.minRole : Request → Option Int
  | .passkeyVerifyFinish _ => some roleCommonUser
  | .guarded minRole _ => some minRole
  | _ => none

/-- `authHelper` lets the request through on the login in the session. -/
def admitsLogin (a : Act Client) (c : Session) : Bool :=
  match a.request.minRole with
  | some minRole => c.username.isSome && (admitted a minRole c).isSome
  | none => false

/-- The values that a request acts upon. -/
def accepts (a : Act Client) (c : Session) : List Kind :=
  (match a.request with
    | .logout => []
    | _ => (takes a c).toList) ++ if admitsLogin a c then [.login] else []

/-! ### The handlers that take a value out -/

theorem popLoginSession_taken {env : Env} {s : Sess} (hsome : s.cur.passkeyLogin.isSome = true)
    (hsave : env.saveError (drop .challenge s.cur) = none) :
    ∃ data s', popLoginSession env s = (.ok data, s') ∧ s'.cur.passkeyLogin = none ∧
      s'.saved.passkeyLogin = none := by
  obtain ⟨data, hdata⟩ := Option.isSome_iff_exists.mp hsome
  have hsaved : (s.set fun s => { s with passkeyLogin := none }).save env
      = (none, ⟨drop .challenge s.cur, drop .challenge s.cur⟩) := by
    unfold Sess.save
    rw [show env.saveError (s.set fun s => { s with passkeyLogin := none }).cur = none from hsave]
    rfl
  refine ⟨data, ⟨drop .challenge s.cur, drop .challenge s.cur⟩, ?_, rfl, rfl⟩
  unfold popLoginSession
  rw [hdata, hsaved]

theorem popVerifySession_taken {env : Env} {s : Sess} (hsome : s.cur.passkeyVerify.isSome = true)
    (hsave : env.saveError (drop .verification s.cur) = none) :
    ∃ data s', popVerifySession env s = (.ok data, s') ∧ s'.saved.passkeyVerify = none := by
  obtain ⟨data, hdata⟩ := Option.isSome_iff_exists.mp hsome
  have hsaved : (s.set fun s => { s with passkeyVerify := none }).save env
      = (none, ⟨drop .verification s.cur, drop .verification s.cur⟩) := by
    unfold Sess.save
    rw [show env.saveError (s.set fun s => { s with passkeyVerify := none }).cur = none from hsave]
    rfl
  refine ⟨data, ⟨drop .verification s.cur, drop .verification s.cur⟩, ?_, rfl⟩
  unfold popVerifySession
  rw [hdata, hsaved]

theorem setupLogin_passkeyLogin {env : Env} {s : Sess} (user : User)
    (hcur : s.cur.passkeyLogin = none) (hsaved : s.saved.passkeyLogin = none) :
    (setupLogin env s user).cookie.passkeyLogin = none := by
  rcases setupLogin_cookie env s user with h | h
  · rw [h]
    exact hsaved
  · rw [h]
    exact hcur

theorem passkeyLoginFinish_taken (env : Env) (ctx : Ctx) (s : Sess) (body : String) (db : DB)
    (hon : env.cfg.passkeyEnabled = true) (hweb : ctx.webAuthnError = none)
    (hsome : s.cur.passkeyLogin.isSome = true)
    (hsave : env.saveError (drop .challenge s.cur) = none) :
    Sat (passkeyLoginFinish env ctx s body) (fun out _ => out.cookie.passkeyLogin = none) db := by
  obtain ⟨data, s', hpop, hcur, hsaved⟩ := popLoginSession_taken hsome hsave
  unfold passkeyLoginFinish
  rw [if_neg (by rw [hon]; decide), hweb, hpop]
  dsimp only
  cases env.passkeyHandles body with
  | error e => exact Sat.pure hsaved
  | ok handles =>
    obtain ⟨rawID, userHandle⟩ := handles
    refine (Prog.Holds.trivial _ db).bind fun found db₁ _ => ?_
    cases found with
    | error e => exact Sat.pure hsaved
    | ok found =>
      obtain ⟨user, credential⟩ := found
      dsimp only
      split
      · exact Sat.pure hsaved
      · split
        · exact Sat.pure hsaved
        · refine (Prog.Holds.trivial _ db₁).bind fun err db₂ _ => ?_
          cases err with
          | some e => exact Sat.pure hsaved
          | none => exact Sat.pure (setupLogin_passkeyLogin user hcur hsaved)

theorem passkeyVerifyFinish_taken (env : Env) (ctx : Ctx) (s : Sess) (body : String) (st : Store)
    (hpop : (serve (reachesPop env ctx s) st).1 = true) (hsome : s.cur.passkeyVerify.isSome = true)
    (hsave : env.saveError (drop .verification s.cur) = none) :
    (serve (passkeyVerifyFinish env ctx s body) st).1.cookie.passkeyVerify = none := by
  obtain ⟨data, s', htaken, hsaved⟩ := popVerifySession_taken hsome hsave
  unfold reachesPop at hpop
  unfold passkeyVerifyFinish
  split at hpop
  · cases hpop
  · rename_i hon
    rw [if_neg hon]
    rw [serve_bind] at hpop ⊢
    generalize (serve (getSessionUser s) st).2 = st₁ at hpop ⊢
    cases huser : (serve (getSessionUser s) st).1 with
    | error e =>
      rw [huser] at hpop
      cases hpop
    | ok user =>
      rw [huser] at hpop
      dsimp only at hpop ⊢
      cases hweb : ctx.webAuthnError with
      | some e =>
        rw [hweb] at hpop
        cases hpop
      | none =>
        rw [hweb] at hpop
        dsimp only at hpop ⊢
        rw [serve_bind] at hpop ⊢
        generalize (serve (getPasskeyByUserID user.id) st₁).2 = st₂ at hpop ⊢
        cases hfound : (serve (getPasskeyByUserID user.id) st₁).1 with
        | error e =>
          rw [hfound] at hpop
          cases hpop
        | ok credential =>
          dsimp only
          rw [htaken]
          dsimp only
          cases env.finishLogin user credential data body with
          | error e => exact hsaved
          | ok validated =>
            dsimp only
            rw [serve_bind]
            cases (serve (upsertPasskeyCredential { credential with lastUsedAt := some ctx.now })
              st₂).1 with
            | some e => exact hsaved
            | none => exact hsaved

theorem verify2FALogin_taken (env : Env) (ctx : Ctx) (s : Sess) (code : Option String) (db : DB)
    (hsave : env.saveError s.cur.unpend = none) :
    Sat (verify2FALogin env ctx s code) (fun out _ => out.login.isSome = true →
      s.cur.pendingUserId.isSome = true ∧ out.cookie.pendingUserId = none) db := by
  refine (verify2FALogin_sat env ctx s code db).mono ?_
  rintro out db' ⟨-, ⟨hnone, -⟩ | ⟨row, -, -, hpend, -, -, -, hcookie⟩⟩ hlogin
  · rw [hnone] at hlogin
    cases hlogin
  · refine ⟨by rw [hpend]; rfl, ?_⟩
    have hunpend : ((s.set Session.unpend).save env).2.saved = s.cur.unpend := by
      simp [Sess.save, Sess.set, hsave]
    rcases hcookie with h | h
    · rw [h, hunpend]
      rfl
    · rw [h]
      rfl

/-! ### What a request takes -/

theorem admitted_eq {a : Act Client} {minRole : Int} {c : Session} {auth : Auth} {st : Store}
    (h : admitted a minRole c = some (auth, st)) :
    serve (authHelper minRole c a.authorization) a.store = (.ok auth, st) := by
  unfold admitted at h
  split at h
  · rename_i heq
    obtain ⟨rfl, rfl⟩ := Prod.mk.inj (Option.some.inj h)
    exact heq
  · cases h

theorem respond_verify2FALogin {a : Act Client} {code : Option String}
    (hreq : a.request = .verify2FALogin code) (c : Session) :
    respond a c = (serve (verify2FALogin a.env a.ctx (Sess.ofCookie c) code) a.store).1 := by
  unfold respond handle
  rw [hreq]

/-- What is taken out was there. -/
theorem takes_value {a : Act Client} {c : Session} {k : Kind} (h : takes a c = some k) :
    value k c ≠ none := by
  unfold takes at h
  cases hreq : a.request with
  | passkeyLoginFinish body =>
    rw [hreq] at h
    dsimp only at h
    split at h
    · rename_i hif
      obtain rfl := Option.some.inj h
      have hsome := (Bool.and_eq_true_iff.mp hif).2
      simpa [value, Option.isSome_iff_ne_none] using hsome
    · cases h
  | passkeyVerifyFinish body =>
    rw [hreq] at h
    dsimp only at h
    split at h
    · rename_i hif
      obtain rfl := Option.some.inj h
      have hsome := (Bool.and_eq_true_iff.mp hif).1
      simpa [value, Option.isSome_iff_ne_none] using hsome
    · cases h
  | verify2FALogin code =>
    rw [hreq] at h
    dsimp only at h
    split at h
    · rename_i hif
      obtain rfl := Option.some.inj h
      rw [respond_verify2FALogin hreq] at hif
      have hpend := (verify2FALogin_sat a.env a.ctx (Sess.ofCookie c) code a.store.db).serve.2
      rcases hpend with ⟨hnone, -⟩ | ⟨row, -, -, hpend, -⟩
      · rw [hnone] at hif
        cases hif
      · have hvalue : c.pendingUserId = some row.id := hpend
        simp [value, hvalue]
    · cases h
  | logout =>
    rw [hreq] at h
    dsimp only at h
    split at h
    · rename_i hif
      obtain rfl := Option.some.inj h
      have hsome := (Bool.and_eq_true_iff.mp hif).1
      simpa [value, Option.isSome_iff_ne_none] using hsome
    · cases h
  | guarded minRole handler =>
    rw [hreq] at h
    cases h
  | other handler =>
    rw [hreq] at h
    cases h

/-- **What is taken out, and can be saved so, is not in the cookie that answers.** -/
theorem takes_empties {a : Act Client} {c : Session} {k : Kind} (h : takes a c = some k)
    (hsave : a.env.saveError (drop k c) = none) : value k (respond a c).cookie = none := by
  unfold takes at h
  cases hreq : a.request with
  | passkeyLoginFinish body =>
    rw [hreq] at h
    dsimp only at h
    split at h
    · rename_i hif
      obtain rfl := Option.some.inj h
      obtain ⟨hgates, hsome⟩ := Bool.and_eq_true_iff.mp hif
      obtain ⟨hon, hweb⟩ := Bool.and_eq_true_iff.mp hgates
      have hnone := (passkeyLoginFinish_taken a.env a.ctx (Sess.ofCookie c) body a.store.db hon
        (Option.isNone_iff_eq_none.mp hweb) hsome hsave).serve
      have hrespond : respond a c
          = (serve (passkeyLoginFinish a.env a.ctx (Sess.ofCookie c) body) a.store).1 := by
        unfold respond handle
        rw [hreq]
      show (respond a c).cookie.passkeyLogin.map _ = none
      rw [hrespond, hnone]
      rfl
    · cases h
  | passkeyVerifyFinish body =>
    rw [hreq] at h
    dsimp only at h
    split at h
    · rename_i hif
      obtain rfl := Option.some.inj h
      obtain ⟨hsome, hpops⟩ := Bool.and_eq_true_iff.mp hif
      unfold popsVerification at hpops
      split at hpops
      · rename_i auth st hadmitted
        have hnone := passkeyVerifyFinish_taken a.env (auth.toCtx a.ctx) (Sess.ofCookie c) body st
          hpops hsome hsave
        have hrespond : respond a c = (serve (passkeyVerifyFinish a.env (auth.toCtx a.ctx)
            (Sess.ofCookie c) body) st).1 := by
          unfold respond handle
          rw [hreq]
          unfold behind
          dsimp only
          rw [serve_bind]
          have hauth : serve (userAuth (Sess.ofCookie c).cur a.authorization) a.store
              = (.ok auth, st) := admitted_eq hadmitted
          rw [hauth]
        show (respond a c).cookie.passkeyVerify.map _ = none
        rw [hrespond, hnone]
        rfl
      · cases hpops
    · cases h
  | verify2FALogin code =>
    rw [hreq] at h
    dsimp only at h
    split at h
    · rename_i hif
      obtain rfl := Option.some.inj h
      rw [respond_verify2FALogin hreq] at hif ⊢
      have hnone := ((verify2FALogin_taken a.env a.ctx (Sess.ofCookie c) code a.store.db
        hsave).serve hif).2
      show Option.map _ _ = none
      rw [hnone]
      rfl
    · cases h
  | logout =>
    rw [hreq] at h
    dsimp only at h
    split at h
    · obtain rfl := Option.some.inj h
      have hcookie : (respond a c).cookie = {} := by
        unfold respond handle
        rw [hreq]
        dsimp only
        rw [serve_pure]
        unfold logout Sess.save
        rw [show a.env.saveError ((Sess.ofCookie c).set fun _ => {}).cur = none from hsave]
        rfl
      rw [hcookie]
      rfl
    · cases h
  | guarded minRole handler =>
    rw [hreq] at h
    cases h
  | other handler =>
    rw [hreq] at h
    cases h

/-- What a request acts upon is in the cookie it sends. -/
theorem accepts_value {a : Act Client} {c : Session} {k : Kind} (h : k ∈ accepts a c) :
    value k c ≠ none := by
  unfold accepts at h
  rcases List.mem_append.mp h with h | h
  · split at h
    · cases h
    · exact takes_value (Option.mem_toList.mp h)
  · split at h
    · rename_i hadmits
      obtain rfl := List.mem_singleton.mp h
      unfold admitsLogin at hadmits
      split at hadmits
      · have hsome := (Bool.and_eq_true_iff.mp hadmits).1
        simpa [value, Option.isSome_iff_ne_none] using hsome
      · cases hadmits
    · cases h

/-! ### The clients and the server -/

section Run

variable [DecidableEq Client]

/-- The cookies that the clients have. -/
abbrev State (Client : Type) := Copies.State Client Kind Session

/-- The cookie that a request sends. -/
def sent (s : State Client) (a : Act Client) : Copies.Copy Kind Session :=
  s.present {} a.client a.resends

/-- A request is answered, and its client has one more cookie. -/
def step (s : State Client) (a : Act Client) : State Client :=
  s.answer value a.client (sent s a) (respond a (sent s a).data).cookie (takes a (sent s a).data)

/-- The request acts upon a value that was taken out earlier. -/
def Reuses (s : State Client) (a : Act Client) : Prop :=
  ∃ k ∈ accepts a (sent s a).data, (k, (sent s a).tag k) ∈ s.taken

/-- The client does not go back behind a value it saw taken, and what the request
takes out can be saved. -/
def Careful (s : State Client) (a : Act Client) : Prop :=
  Copies.Current value s {} a.client a.resends ∧
    ∀ k, takes a (sent s a).data = some k → a.env.saveError (drop k (sent s a).data) = none

theorem sound_step {s : State Client} {a : Act Client} (h : Copies.Sound value s)
    (hcareful : Careful s a) : Copies.Sound value (step s a) := by
  apply h.answer (h.presented value_blank hcareful.1)
  · intro k hk
    exact takes_value hk
  · intro k hk
    exact takes_empties hk (hcareful.2 k hk)

/-- **No value that was taken out of a session is acted upon again**, in any run
in which the clients are careful. -/
theorem never_reused (acts : List (Act Client))
    (h : Runs.Always (fun pre a => Careful (Runs.after step Copies.State.start pre) a) acts) :
    Runs.Always (fun pre a => ¬ Reuses (Runs.after step Copies.State.start pre) a) acts := by
  refine Runs.always_of_invariant
    (P := fun acts => Copies.Sound value (Runs.after step Copies.State.start acts))
    (Copies.Sound.start value) ?_ ?_ acts h
  · intro acts a _ hsound hcareful
    rw [Runs.after_snoc]
    exact sound_step hsound hcareful
  · rintro acts a hsound hcareful ⟨k, hk, htaken⟩
    exact hsound.untaken value_blank hcareful.1 (accepts_value hk) htaken

end Run

/-! ### Bob logs out -/

def bobDB : DB where
  users := Table.single { id := 1, username := "bob", password := "#pw", role := 1, status := 1 }
  twoFAs := Table.empty
  backupCodes := Table.empty
  passkeys := Table.empty

def bob (resends : Option Nat) (request : Request) : Act Unit where
  client := ()
  resends := resends
  request := request
  env := Env.plain
  ctx := Ctx.plain 0
  store := Store.ofDB bobDB

def bobLogin : Act Unit :=
  bob none (.other fun _ s => login Env.plain s (some { username := "bob", password := "pw" }))

/-- A request behind `UserAuth`. -/
def bobRequest (resends : Option Nat) : Act Unit :=
  bob resends (.guarded roleCommonUser fun _ s => return s.answer (.done ""))

theorem bob_saves (resends : Option Nat) (request : Request) (s : State Unit) (k : Kind) :
    (bob resends request).env.saveError (drop k (sent s (bob resends request)).data) = none := rfl

/-- He logs in, is let through, logs out, and is not let through any more. -/
def orderly : List (Act Unit) :=
  [bobLogin, bobRequest (some 0), bob (some 1) .logout, bobRequest (some 2)]

theorem orderly_never_reused :
    Runs.Always (fun pre a => ¬ Reuses (Runs.after step Copies.State.start pre) a) orderly := by
  refine never_reused orderly ?_
  have hsplit : orderly = [] ++ [bobLogin] ++ [bobRequest (some 0)] ++ [bob (some 1) .logout]
      ++ [bobRequest (some 2)] := rfl
  rw [hsplit, Runs.always_snoc, Runs.always_snoc, Runs.always_snoc, Runs.always_snoc]
  refine ⟨⟨⟨⟨Runs.always_nil, ?_⟩, ?_⟩, ?_⟩, ?_⟩
  · exact ⟨fun k _ j hj => (nomatch hj), fun k _ => bob_saves _ _ _ k⟩
  · refine ⟨fun k _ j hj => ?_, fun k _ => bob_saves _ _ _ k⟩
    exact Nat.zero_le j
  · refine ⟨fun k _ j hj => ?_, fun k _ => bob_saves _ _ _ k⟩
    exact Nat.zero_le j
  · refine ⟨fun k hk => ?_, fun k _ => bob_saves _ _ _ k⟩
    -- the last cookie is empty
    exact absurd (show value k ({} : Session) = none from value_blank k) hk

/-- **He logs out, sends the cookie from before, and is let through.** -/
theorem logout_replayed :
    ¬ ∀ acts : List (Act Unit),
      Runs.Always (fun pre a => ¬ Reuses (Runs.after step Copies.State.start pre) a) acts := by
  intro h
  have hreplay := h [bobLogin, bob (some 0) .logout, bobRequest (some 0)]
    [bobLogin, bob (some 0) .logout] (bobRequest (some 0)) [] rfl
  refine hreplay ⟨.login, by decide, ?_⟩
  decide

end AuthGateway.SingleUse
