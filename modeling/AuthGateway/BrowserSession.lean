import AuthGateway.Lib.Runs
import AuthGateway.Middleware.Auth

/-!
# One browser session

The requests a browser sends with one session cookie: logins, verifications, the
status of the verification, logout, and any other request behind `UserAuth` and
`SecureVerificationRequired` (`secured`).  Each comes with its own context and
its own database, so between two requests the tables may change in any way; only
the cookie is carried over.

`respond_effect` says once what a request can do to the cookie; every invariant
of a session is a case analysis over `Effect`.
-/

namespace AuthGateway.BrowserSession

open Common Model Controller Middleware

/-! ### The requests -/

inductive Request
  | login (req : Option LoginRequest)
  | verify2FALogin (code : Option String)
  | passkeyVerifyBegin
  | passkeyVerifyFinish (body : String)
  | universalVerify (req : Except Err UniversalVerifyRequest)
  | getVerificationStatus
  | logout
  | secured

/-- A request, the moment and the database it meets. -/
structure Act where
  request : Request
  authorization : String := ""
  ctx : Ctx
  store : Store

/-- The handler behind the authentication of the route. -/
def route (env : Env) (s : Sess) : Request → Ctx → M Out
  | .passkeyVerifyBegin, ctx => passkeyVerifyBegin env ctx s
  | .passkeyVerifyFinish body, ctx => passkeyVerifyFinish env ctx s body
  | .universalVerify req, ctx => universalVerify env ctx s req
  | .getVerificationStatus, ctx => return getVerificationStatus env ctx s
  | _, ctx => do
    let (refusal, s) := secureVerificationRequired env ctx s
    return s.answer (refusal.getD (.done ""))

def handle (env : Env) (s : Sess) (a : Act) : M Out :=
  match a.request with
  | .login req => login env s req
  | .verify2FALogin code => verify2FALogin env a.ctx s code
  | .logout => return logout env s
  | request => behind userAuth s a.authorization a.ctx (route env s request)

/-- What the server answers to a request with a cookie. -/
def respond (env : Env) (c : Session) (a : Act) : Out × Store :=
  serve (handle env (Sess.ofCookie c) a) a.store

/-- The cookie afterwards. -/
def step (env : Env) (c : Session) (a : Act) : Session := (respond env c a).1.cookie

/-- The account that `UserAuth` finds on a request. -/
def authenticated (c : Session) (a : Act) : Except Reply Auth :=
  (serve (userAuth c a.authorization) a.store).1

/-- `UniversalVerify` takes its passkey branch for the user `w`: the method is
asked for, the account is enabled and has a credential, both are read without a
failure, and the cookie can be written. -/
def PasskeyBranch (env : Env) (c : Session) (a : Act) (w : Int) : Prop :=
  (∃ r, a.request = .universalVerify (.ok r) ∧ r.method = "passkey") ∧
    (∃ auth, authenticated c a = .ok auth ∧ auth.id = w) ∧ HasPasskey a.store.db w ∧
    (serve (userAuth c a.authorization) a.store).2.outages 0 = none ∧
    (serve (userAuth c a.authorization) a.store).2.outages 2 = none ∧
    env.saveError (c.stamp (unix a.ctx.now)) = none

/-! ### What a request can do to the cookie -/

/-- The cookie stays, but for the passkey ceremony and a stamp that is dropped. -/
def Keeps (c c' : Session) : Prop :=
  c'.id = c.id ∧ c'.username = c.username ∧ c'.pendingUserId = c.pendingUserId ∧
    (c'.secureVerifiedAt = c.secureVerifiedAt ∨ c'.secureVerifiedAt = none)

theorem Keeps.same {c c' : Session} (h : c' = c) : Keeps c c' := by
  rw [h]
  exact ⟨rfl, rfl, rfl, Or.inl rfl⟩

theorem Keeps.ceremony {c c' : Session} {d : Option String}
    (h : c' = { c with passkeyVerify := d }) : Keeps c c' := by
  rw [h]
  exact ⟨rfl, rfl, rfl, Or.inl rfl⟩

theorem Keeps.unstamp {c c' : Session} (h : c' = c.unstamp) : Keeps c c' := by
  rw [h]
  exact ⟨rfl, rfl, rfl, Or.inr rfl⟩

/-- What a request does: the cookie afterwards, and why. -/
inductive Effect (env : Env) (c : Session) (a : Act) (out : Out) : Prop
  | kept (hlogin : out.login = none) (h : Keeps c out.cookie)
  | cleared (hlogin : out.login = none) (h : out.cookie = {})
  | pending (r : LoginRequest) (u : User) (hreq : a.request = .login (some r))
      (hpass : Validates env a.store r u) (hlogin : out.login = none)
      (h : out.cookie = c.pend u)
  | passwordLogin (r : LoginRequest) (u : User) (hreq : a.request = .login (some r))
      (hon : env.cfg.passwordLoginEnabled = true) (hpass : Validates env a.store r u)
      (hoff : (serve (isTwoFAEnabled u.id) a.store.rest).1 = false) (hlogin : out.login = some u)
      (h : out.cookie = c ∨ out.cookie = c.signIn u)
  | codeLogin (code : String) (u : User) (hreq : a.request = .verify2FALogin (some code))
      (hpend : c.pendingUserId = some u.id)
      (hcode : Presents env a.store.db a.ctx.now u.id code) (hcheck : (u.id, .ok true) ∈ out.checks)
      (hlogin : out.login = some u)
      (h : out.cookie = c ∨ out.cookie = c.unpend ∨ out.cookie = c.unpend.signIn u)
  | stamped (req : Except Err UniversalVerifyRequest) (auth : Auth)
      (hreq : a.request = .universalVerify req) (hauth : authenticated c a = .ok auth)
      (hlogin : out.login = none) (h : out.cookie = c.stamp (unix a.ctx.now))
      (hwhy : (auth.id, .ok true) ∈ out.checks ∨ PasskeyBranch env c a auth.id)

theorem effect_login (env : Env) (c : Session) (a : Act) (req : Option LoginRequest)
    (hreq : a.request = .login req) :
    Effect env c a (serve (login env (Sess.ofCookie c) req) a.store).1 := by
  obtain ⟨reply, hout⟩ | ⟨hon, r, u, rfl, hpass, ⟨reply, hout⟩ | ⟨hoff, hout⟩⟩ :=
    serve_login env (Sess.ofCookie c) req a.store
  · rw [hout]
    exact .kept rfl (Keeps.same rfl)
  · rw [hout]
    rcases Sess.saved_save env ((Sess.ofCookie c).set (Session.pend u)) with hs | hs
    · exact .kept rfl (Keeps.same hs)
    · exact .pending r u hreq hpass rfl hs
  · rw [hout]
    exact .passwordLogin r u hreq hon hpass hoff (setupLogin_login _ _ _) (setupLogin_cookie env _ u)

theorem effect_verify2FALogin (env : Env) (c : Session) (a : Act) (code : Option String)
    (hreq : a.request = .verify2FALogin code) :
    Effect env c a (serve (verify2FALogin env a.ctx (Sess.ofCookie c) code) a.store).1 := by
  obtain ⟨-, ⟨hlogin, hcookie⟩ |
      ⟨row, -, -, hpend, ⟨code, rfl, hcode⟩, hcheck, hlogin, hcookie⟩⟩ :=
    (verify2FALogin_sat env a.ctx (Sess.ofCookie c) code a.store.db).serve
  · exact .kept hlogin (Keeps.same hcookie)
  · refine .codeLogin code row.omitPassword hreq hpend hcode hcheck hlogin ?_
    rcases hcookie with h | h
    · rcases Sess.saved_save env ((Sess.ofCookie c).set Session.unpend) with hs | hs
      · exact Or.inl (h.trans hs)
      · exact Or.inr (Or.inl (h.trans hs))
    · exact Or.inr (Or.inr h)

theorem effect_logout (env : Env) (c : Session) (a : Act) :
    Effect env c a (logout env (Sess.ofCookie c)) := by
  have hsaved := Sess.saved_save env ((Sess.ofCookie c).set fun _ => {})
  unfold logout
  split
  · rename_i hsave
    rw [hsave] at hsaved
    rcases hsaved with h | h
    · exact .kept rfl (Keeps.same h)
    · exact .cleared rfl h
  · rename_i hsave
    rw [hsave] at hsaved
    rcases hsaved with h | h
    · exact .kept rfl (Keeps.same h)
    · exact .cleared rfl h

theorem effect_secured (env : Env) (c : Session) (a : Act) (ctx : Ctx) (reply : Reply) :
    Effect env c a ((secureVerificationRequired env ctx (Sess.ofCookie c)).2.answer reply) := by
  rcases secureVerificationRequired_saved env ctx (Sess.ofCookie c) with h | h
  · exact .kept rfl (Keeps.same h)
  · exact .kept rfl (Keeps.unstamp h)

theorem effect_universalVerify (env : Env) (c : Session) (a : Act) (auth : Auth)
    (req : Except Err UniversalVerifyRequest) (hreq : a.request = .universalVerify req)
    (hauth : authenticated c a = .ok auth) :
    Effect env c a (serve (universalVerify env (auth.toCtx a.ctx) (Sess.ofCookie c) req)
      (serve (userAuth c a.authorization) a.store).2).1 := by
  have hdb := (authHelper_readOnly roleCommonUser c a.authorization).serve a.store
  obtain ⟨hlogin, hkept | ⟨hsave, hcookie, hwhy⟩⟩ :=
    (universalVerify_sat env (auth.toCtx a.ctx) (Sess.ofCookie c) req
      (serve (userAuth c a.authorization) a.store).2.db).serve
  · exact .kept hlogin (Keeps.same hkept)
  rcases hwhy with hcheck | ⟨⟨r, rfl, hmethod⟩, hhas⟩
  · exact .stamped req auth hreq hauth hlogin hcookie (Or.inl hcheck)
  · have hhas' : HasPasskey a.store.db auth.id := by
      rw [← hdb]
      exact hhas
    -- a failed read of the account or of the credential leaves the cookie
    cases hfirst : (serve (userAuth c a.authorization) a.store).2.outages 0 with
    | some e =>
      exact .kept hlogin
        (Keeps.same (serve_universalVerify_down env _ _ hmethod (Or.inl hfirst)))
    | none =>
      cases hthird : (serve (userAuth c a.authorization) a.store).2.outages 2 with
      | some e =>
        exact .kept hlogin
          (Keeps.same (serve_universalVerify_down env _ _ hmethod (Or.inr hthird)))
      | none =>
        exact .stamped (.ok r) auth hreq hauth hlogin hcookie
          (Or.inr ⟨⟨r, hreq, hmethod⟩, ⟨auth, hauth, rfl⟩, hhas', hfirst, hthird, hsave⟩)

/-- The handlers behind `UserAuth`, on a request that was let through as `auth`. -/
theorem effect_route (env : Env) (c : Session) (a : Act) (auth : Auth)
    (hauth : authenticated c a = .ok auth) :
    Effect env c a
      (serve (route env (Sess.ofCookie c) a.request (auth.toCtx a.ctx))
        (serve (userAuth c a.authorization) a.store).2).1 := by
  cases hreq : a.request with
  | passkeyVerifyBegin =>
    obtain ⟨hlogin, h | ⟨d, h⟩⟩ :=
      (passkeyVerifyBegin_sat env (auth.toCtx a.ctx) (Sess.ofCookie c) _).serve
    · exact .kept hlogin (Keeps.same h)
    · exact .kept hlogin (Keeps.ceremony h)
  | passkeyVerifyFinish body =>
    obtain ⟨hlogin, h | h⟩ :=
      (passkeyVerifyFinish_sat env (auth.toCtx a.ctx) (Sess.ofCookie c) body _).serve
    · exact .kept hlogin (Keeps.same h)
    · exact .kept hlogin (Keeps.ceremony h)
  | universalVerify req => exact effect_universalVerify env c a auth req hreq hauth
  | getVerificationStatus =>
    obtain ⟨hlogin, h | h⟩ := getVerificationStatus_cookie env (auth.toCtx a.ctx) (Sess.ofCookie c)
    · exact .kept hlogin (Keeps.same h)
    · exact .kept hlogin (Keeps.unstamp h)
  | secured => exact effect_secured env c a _ _
  | login req => exact effect_secured env c a _ _
  | verify2FALogin code => exact effect_secured env c a _ _
  | logout => exact effect_secured env c a _ _

/-- **What a request can do to the cookie.** -/
theorem respond_effect (env : Env) (c : Session) (a : Act) :
    Effect env c a (respond env c a).1 := by
  have hbehind : Effect env c a (serve (behind userAuth (Sess.ofCookie c) a.authorization a.ctx
      (route env (Sess.ofCookie c) a.request)) a.store).1 := by
    unfold behind
    rw [serve_bind]
    cases hauth : (serve (userAuth (Sess.ofCookie c).cur a.authorization) a.store).1 with
    | error reply => exact .kept rfl (Keeps.same rfl)
    | ok auth => exact effect_route env c a auth hauth
  unfold respond handle
  cases hreq : a.request with
  | login req => exact effect_login env c a req hreq
  | verify2FALogin code => exact effect_verify2FALogin env c a code hreq
  | logout => exact effect_logout env c a
  | passkeyVerifyBegin => rw [hreq] at hbehind; exact hbehind
  | passkeyVerifyFinish body => rw [hreq] at hbehind; exact hbehind
  | universalVerify req => rw [hreq] at hbehind; exact hbehind
  | getVerificationStatus => rw [hreq] at hbehind; exact hbehind
  | secured => rw [hreq] at hbehind; exact hbehind

end AuthGateway.BrowserSession
