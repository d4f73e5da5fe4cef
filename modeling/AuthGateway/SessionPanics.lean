import AuthGateway.Common.Verification
import AuthGateway.SessionValues

/-!
# Which requests panic

The handlers that read the session by unchecked assertions, on its values
themselves: `authHelper`, the check of the OAuth state, and the `id.(int)` of the
bindings.  On every session that is reached they are the typed handlers
(`authHelper_view`, `callback_view`), so the assertions about types hold.

What is left is an id that is not there.  The OAuth callbacks bind only for a
session with a username, and such a session has an id; `EmailBind`, `WeChatBind`
and `TelegramBind` stand on routes without authentication and look at nothing.
Telegram's handlers take the first value of a parameter that the signature does
not require.  **These four are all there is to it** (`panics_iff`).
-/

namespace AuthGateway.SessionPanics

open Common Model Controller SessionValues
open Middleware (Auth refuse validUserInfo)

/-! ### The assertions -/

/-- The assertions of `authHelper` on a session that has a username.  The id is
passed on as it is, and `c.GetInt` takes what is no int for zero. -/
def sessionAuth (minRole : Int) (v : Values) : Except Reply Auth :=
  match asInt (v "status") with
  | none => .error .panicked
  | some status =>
    if status = userStatusDisabled then refuse 200 "User has been disabled"
    else match asInt (v "role") with
      | none => .error .panicked
      | some role =>
        if role < minRole then refuse 200 "Insufficient permissions"
        else match asString (v "username") with
          | none => .error .panicked
          | some username =>
            if !validUserInfo username role then refuse 200 "Invalid user info"
            else .ok
              { username := username
                role := role
                id := (asInt (v "id")).getD 0
                group := asString (v "group")
                useAccessToken := false }

/-- A session without a username is left to the access token. -/
def authHelper (minRole : Int) (v : Values) (authorization : String) : M (Except Reply Auth) :=
  match v "username" with
  | none => Middleware.authHelper minRole (view v) authorization
  | some _ => return sessionAuth minRole v

/-- `state == "" || session.Get("oauth_state") == nil || state != session.Get("oauth_state").(string)`;
no answer where the assertion panics. -/
def stateRefused (v : Values) (state : String) : Option Bool :=
  if state = "" then some true
  else match v "oauth_state" with
    | none => some true
    | some x => (asString (some x)).map fun saved => decide (state ≠ saved)

/-- The start of an OAuth callback. -/
def callback (v : Values) (state : String) (bind login : M Out) : M Out :=
  match stateRefused v state with
  | none => return (Sess.ofCookie (view v)).answer .panicked
  | some true => return wrongState (Sess.ofCookie (view v))
  | some false => if (v "username").isSome then bind else login

/-! ### The requests -/

inductive Request
  /-- Any route behind `authHelper`. -/
  | authorized (minRole : Int) (authorization : String)
  | emailBind (email code : String)
  | weChatBind (code : String) (answer : Except Err String)
  | telegramBind (params : Params)
  | telegramLogin (params : Params)
  | gitHubOAuth (req : OAuthRequest) (answer : Except Err GitHubUser)
  | discordOAuth (req : OAuthRequest) (answer : Except Err DiscordUser)
  | oidcAuth (req : OAuthRequest) (answer : Except Err OidcUser)
  | linuxdoOAuth (refusal : Option String) (req : OAuthRequest) (answer : Except Err LinuxdoUser)

/-- The handlers; `id.(int)` in a binding is the id of the view. -/
def handle (env : Env) (ctx : Ctx) (codes : VerificationMap) (v : Values) : Request → M Out
  | .authorized minRole authorization => do
    match ← authHelper minRole v authorization with
    | .error reply => return (Sess.ofCookie (view v)).answer reply
    | .ok _ => return (Sess.ofCookie (view v)).answer (.done "")
  | .emailBind email code =>
    emailBind ctx (Sess.ofCookie (view v)) email
      (codes.verify ctx.now email code emailVerificationPurpose)
  | .weChatBind code answer => weChatBind env ctx (Sess.ofCookie (view v)) code answer
  | .telegramBind params => telegramBind env ctx (Sess.ofCookie (view v)) params
  | .telegramLogin params => telegramLogin env (Sess.ofCookie (view v)) params
  | .gitHubOAuth req answer =>
    callback v req.state (gitHubBind env ctx (Sess.ofCookie (view v)) req answer)
      (gitHubOAuth env ctx (Sess.ofCookie (view v)) req answer)
  | .discordOAuth req answer =>
    callback v req.state (discordBind env ctx (Sess.ofCookie (view v)) req answer)
      (discordOAuth env ctx (Sess.ofCookie (view v)) req answer)
  | .oidcAuth req answer =>
    callback v req.state (oidcBind env ctx (Sess.ofCookie (view v)) req answer)
      (oidcAuth env ctx (Sess.ofCookie (view v)) req answer)
  | .linuxdoOAuth (some errorDescription) _ _ =>
    return (Sess.ofCookie (view v)).fail errorDescription
  | .linuxdoOAuth none req answer =>
    callback v req.state (linuxDoBind env ctx (Sess.ofCookie (view v)) req answer)
      (linuxdoOAuth env ctx (Sess.ofCookie (view v)) none req answer)

/-- The request panics. -/
def Panics (env : Env) (ctx : Ctx) (codes : VerificationMap) (v : Values) (q : Request)
    (st : Store) : Prop :=
  (serve (handle env ctx codes v q) st).1.reply = .panicked

/-- The look for another row with an outside id finds none, or fails. -/
def Unseen (st : Store) (p : User → Bool) : Prop :=
  (∃ e, st.outages 0 = some e) ∨ ∀ u ∈ st.db.users, p u = false

/-- The requests that get as far as an assertion that does not hold. -/
inductive Unguarded (env : Env) (ctx : Ctx) (codes : VerificationMap) (v : Values) (st : Store) :
    Request → Prop
  | emailBind {email code : String}
      (hcode : codes.verify ctx.now email code emailVerificationPurpose = true)
      (hid : v "id" = none) : Unguarded env ctx codes v st (.emailBind email code)
  | weChatBind {code : String} {answer : Except Err String} {weChatId : String}
      (hon : env.cfg.weChatAuthEnabled = true)
      (hcode : getWeChatIdByCode code answer = .ok weChatId)
      (hunseen : Unseen st fun u => u.weChatId == weChatId)
      (hid : v "id" = none) : Unguarded env ctx codes v st (.weChatBind code answer)
  | telegramBind {params : Params} {telegramId : String}
      (hon : env.cfg.telegramOAuthEnabled = true)
      (hsigned : checkTelegramAuthorization env params = true)
      (hparam : params.get "id" = some telegramId)
      (hunseen : Unseen st fun u => u.telegramId == telegramId)
      (hid : v "id" = none) : Unguarded env ctx codes v st (.telegramBind params)
  | telegramBindIndex {params : Params}
      (hon : env.cfg.telegramOAuthEnabled = true)
      (hsigned : checkTelegramAuthorization env params = true)
      (hparam : params.get "id" = none) : Unguarded env ctx codes v st (.telegramBind params)
  | telegramLoginIndex {params : Params}
      (hon : env.cfg.telegramOAuthEnabled = true)
      (hsigned : checkTelegramAuthorization env params = true)
      (hparam : params.get "id" = none) : Unguarded env ctx codes v st (.telegramLogin params)

/-! ### On a session that is reached, the assertions about types hold -/

section Typed

variable {v : Values}

theorem authHelper_view (h : Sound v) (minRole : Int) (authorization : String) :
    authHelper minRole v authorization = Middleware.authHelper minRole (view v) authorization := by
  obtain ⟨-, husername, -⟩ | ⟨user, hid, husername, hrole, hstatus⟩ := h.login
  · simp [authHelper, husername]
  · simp [authHelper, sessionAuth, Middleware.authHelper, Middleware.checkRole, view, asInt,
      asString, hid, husername, hrole, hstatus]

theorem stateRefused_view (h : Sound v) (state : String) :
    stateRefused v state = some (!sameState (Sess.ofCookie (view v)) state) := by
  by_cases hstate : state = ""
  · simp [stateRefused, sameState, hstate]
  · rcases h.oauthState with hnone | ⟨saved, hsaved⟩
    · simp [stateRefused, sameState, hstate, hnone, view, asString, Sess.ofCookie]
    · by_cases he : state = saved
      · subst he
        simp [stateRefused, sameState, hstate, hsaved, view, asString, Sess.ofCookie]
      · have hne : (saved == state) = false := beq_false_of_ne fun h => he h.symm
        simp [stateRefused, sameState, hstate, hsaved, view, asString, Sess.ofCookie, he, hne]

theorem username_isSome_view (h : Sound v) :
    (v "username").isSome = (view v).username.isSome := by
  obtain ⟨-, husername, -⟩ | ⟨user, -, husername, -⟩ := h.login
  · simp [view, husername, asString]
  · simp [view, husername, asString]

/-- A handler that starts as a callback does is the callback. -/
theorem callback_view (h : Sound v) {state : String} {bind login : M Out}
    (hrefused : sameState (Sess.ofCookie (view v)) state = false →
      login = return wrongState (Sess.ofCookie (view v)))
    (hbind : sameState (Sess.ofCookie (view v)) state = true →
      (Sess.ofCookie (view v)).cur.username.isSome = true → login = bind) :
    callback v state bind login = login := by
  unfold callback
  rw [stateRefused_view h, username_isSome_view h]
  cases hsame : sameState (Sess.ofCookie (view v)) state with
  | false => exact (hrefused hsame).symm
  | true =>
    show (if (view v).username.isSome = true then bind else login) = login
    split
    · rename_i husername
      exact (hbind hsame husername).symm
    · rfl

/-- **On a session that is reached the handlers are the typed ones.** -/
theorem handle_view (env : Env) (ctx : Ctx) (codes : VerificationMap) (h : Sound v) :
    (∀ req answer, handle env ctx codes v (.gitHubOAuth req answer)
      = gitHubOAuth env ctx (Sess.ofCookie (view v)) req answer) ∧
    (∀ req answer, handle env ctx codes v (.discordOAuth req answer)
      = discordOAuth env ctx (Sess.ofCookie (view v)) req answer) ∧
    (∀ req answer, handle env ctx codes v (.oidcAuth req answer)
      = oidcAuth env ctx (Sess.ofCookie (view v)) req answer) ∧
    ∀ refusal req answer, handle env ctx codes v (.linuxdoOAuth refusal req answer)
      = linuxdoOAuth env ctx (Sess.ofCookie (view v)) refusal req answer := by
  refine ⟨?_, ?_, ?_, ?_⟩
  · intro req answer
    apply callback_view h
    · intro hsame
      simp [gitHubOAuth, hsame]
    · intro hsame husername
      simp [gitHubOAuth, hsame, husername]
  · intro req answer
    apply callback_view h
    · intro hsame
      simp [discordOAuth, hsame]
    · intro hsame husername
      simp [discordOAuth, hsame, husername]
  · intro req answer
    apply callback_view h
    · intro hsame
      simp [oidcAuth, hsame]
    · intro hsame husername
      simp [oidcAuth, hsame, husername]
  · intro refusal req answer
    cases refusal with
    | some errorDescription => rfl
    | none =>
      apply callback_view h
      · intro hsame
        simp [linuxdoOAuth, hsame]
      · intro hsame husername
        simp [linuxdoOAuth, hsame, husername]

end Typed

/-! ### The requests that do not panic -/

section Guarded

variable {env : Env} {ctx : Ctx} {codes : VerificationMap} {v : Values} {st : Store}

/-- `authHelper` refuses with a reply. -/
theorem authHelper_not_panicked (h : Sound v) (minRole : Int) (authorization : String) (db : DB) :
    Sat (authHelper minRole v authorization) (fun r _ => r ≠ .error .panicked) db := by
  rw [authHelper_view h]
  have hcheck : ∀ status auth, Middleware.checkRole minRole status auth ≠ .error .panicked := by
    intro status auth
    unfold Middleware.checkRole refuse
    repeat' split
    all_goals simp
  obtain ⟨-, husername, -⟩ | ⟨user, hid, husername, hrole, hstatus⟩ := h.login
  · have hnone : (view v).username = none := by simp [view, husername, asString]
    unfold Middleware.authHelper
    rw [hnone]
    dsimp only
    split
    · exact Sat.pure (by simp [refuse])
    refine (Prog.Holds.trivial _ db).bind ?_
    rintro (_ | user) db' -
    · exact Sat.pure (by simp [refuse])
    dsimp only
    split
    · exact Sat.pure (by simp [refuse])
    split
    · exact Sat.pure (by simp [refuse])
    · exact Sat.pure (hcheck _ _)
  · have hsome : (view v).username = some user.username ∧ (view v).role = some user.role ∧
        (view v).id = some user.id ∧ (view v).status = some user.status := by
      simp [view, asInt, asString, hid, husername, hrole, hstatus]
    obtain ⟨h₁, h₂, h₃, h₄⟩ := hsome
    unfold Middleware.authHelper
    rw [h₁, h₂, h₃, h₄]
    exact Sat.pure (hcheck _ _)

theorem guarded_authorized (h : Sound v) (minRole : Int) (authorization : String) :
    ¬ Panics env ctx codes v (.authorized minRole authorization) st := by
  have hreply : Sat (handle env ctx codes v (.authorized minRole authorization))
      (fun out _ => out.reply ≠ .panicked) st.db := by
    refine (authHelper_not_panicked h minRole authorization st.db).bind ?_
    rintro (reply | auth) db' hr
    · exact Sat.pure fun h => hr (congrArg Except.error h)
    · exact Sat.pure fun h => nomatch h
  exact hreply.serve

theorem guarded_gitHubOAuth (h : Sound v) (req : OAuthRequest) (answer : Except Err GitHubUser) :
    ¬ Panics env ctx codes v (.gitHubOAuth req answer) st := by
  unfold Panics
  rw [(handle_view env ctx codes h).1]
  exact ((leaves_gitHubOAuth h.whole req answer).serve st).reply

theorem guarded_discordOAuth (h : Sound v) (req : OAuthRequest)
    (answer : Except Err DiscordUser) : ¬ Panics env ctx codes v (.discordOAuth req answer) st := by
  unfold Panics
  rw [(handle_view env ctx codes h).2.1]
  exact ((leaves_discordOAuth h.whole req answer).serve st).reply

theorem guarded_oidcAuth (h : Sound v) (req : OAuthRequest) (answer : Except Err OidcUser) :
    ¬ Panics env ctx codes v (.oidcAuth req answer) st := by
  unfold Panics
  rw [(handle_view env ctx codes h).2.2.1]
  exact ((leaves_oidcAuth h.whole req answer).serve st).reply

theorem guarded_linuxdoOAuth (h : Sound v) (refusal : Option String) (req : OAuthRequest)
    (answer : Except Err LinuxdoUser) :
    ¬ Panics env ctx codes v (.linuxdoOAuth refusal req answer) st := by
  unfold Panics
  rw [(handle_view env ctx codes h).2.2.2]
  exact ((leaves_linuxdoOAuth h.whole refusal req answer).serve st).reply

end Guarded

/-! ### The requests that may -/

section Unguarded

variable {env : Env} {ctx : Ctx} {codes : VerificationMap} {v : Values} {st : Store}

theorem serve_alreadyTaken (st : Store) (p : User → Bool) :
    (serve (alreadyTaken true p) st).1 = false ↔ Unseen st p := by
  unfold alreadyTaken Unseen
  rw [serve_perform]
  cases houtage : st.outages 0 with
  | some e =>
    rw [Store.exec_down houtage rfl]
    simp
  | none =>
    rw [Store.exec_up houtage]
    have hfind : st.db.users.find? (seen true p) = none ↔ ∀ u ∈ st.db.users, p u = false := by
      rw [Table.find?_eq_none]
      simp [seen]
    rw [← hfind]
    cases hrow : st.db.users.find? (seen true p) with
    | none => simp [Model.exec, hrow]
    | some row => simp [Model.exec, hrow]

/-- Where there is an id in the view, there is one in the session. -/
theorem view_id (h : Sound v) : v "id" = none ∨ ∃ id, (view v).id = some id ∧ v "id" ≠ none := by
  obtain ⟨hid, -⟩ | ⟨user, hid, -⟩ := h.login
  · exact Or.inl hid
  · exact Or.inr ⟨user.id, by simp [view, hid, asInt], by simp [hid]⟩

theorem panics_emailBind (h : Sound v) (email code : String) :
    Panics env ctx codes v (.emailBind email code) st ↔
      codes.verify ctx.now email code emailVerificationPurpose = true ∧ v "id" = none := by
  unfold Panics
  rcases view_id h with hid | ⟨id, hview, hid⟩
  · have hview : (view v).id = none := by simp [view, hid, asInt]
    cases hcode : codes.verify ctx.now email code emailVerificationPurpose with
    | false => simp [handle, emailBind, hcode, Sess.fail, Sess.answer, Reply.failure]
    | true => simp [handle, emailBind, hcode, Sess.ofCookie, hview, Sess.answer, hid]
  · have hleaves : Leaves env (Sess.ofCookie (view v)) (handle env ctx codes v
        (.emailBind email code)) := leaves_emailBind hview email _
    have hreply := (hleaves.serve st).reply
    simp only [hid, and_false, iff_false]
    exact hreply

/-- The shared body of the bindings, without an id. -/
theorem panicked_bindAccount (ctx : Ctx) {s : Sess} (hid : s.cur.id = none) (taken : M Bool)
    (takenMsg : String) (blank : User) (set : User → User) (bound : Reply) (st : Store) :
    (serve (bindAccount ctx s taken takenMsg blank set bound) st).1.reply = .panicked ↔
      (serve taken st).1 = false := by
  unfold bindAccount
  rw [serve_bind, hid]
  cases (serve taken st).1 with
  | true => simp [Sess.fail, Sess.answer, Reply.failure]
  | false => simp [Sess.answer]

theorem panics_weChatBind (h : Sound v) (code : String) (answer : Except Err String) :
    Panics env ctx codes v (.weChatBind code answer) st ↔ env.cfg.weChatAuthEnabled = true ∧
      (∃ weChatId, getWeChatIdByCode code answer = .ok weChatId ∧
        Unseen st fun u => u.weChatId == weChatId) ∧ v "id" = none := by
  unfold Panics
  rcases view_id h with hid | ⟨id, hview, hid⟩
  · have hview : (Sess.ofCookie (view v)).cur.id = none := by
      simp [Sess.ofCookie, view, hid, asInt]
    cases hon : env.cfg.weChatAuthEnabled with
    | false =>
      simp [handle, weChatBind, weChatOff, hon, Sess.fail, Sess.answer, Reply.failure]
    | true =>
      cases hcode : getWeChatIdByCode code answer with
      | error e =>
        simp [handle, weChatBind, hon, hcode, Sess.apiError, Sess.answer, Reply.failure]
      | ok weChatId =>
        have hbind := panicked_bindAccount ctx hview (isWeChatIdAlreadyTaken weChatId)
          "该微信账号已被绑定" {} (fun u => { u with weChatId := weChatId }) (.done "") st
        simp only [handle, weChatBind, hon, hcode, hid, Bool.not_true, Bool.false_eq_true, if_false]
        rw [hbind, isWeChatIdAlreadyTaken, serve_alreadyTaken]
        simp
  · have hleaves : Leaves env (Sess.ofCookie (view v)) (handle env ctx codes v
        (.weChatBind code answer)) := leaves_weChatBind hview code answer
    have hreply := (hleaves.serve st).reply
    simp only [hid, and_false, iff_false]
    exact hreply

theorem panics_telegramLogin (params : Params) :
    Panics env ctx codes v (.telegramLogin params) st ↔ env.cfg.telegramOAuthEnabled = true ∧
      checkTelegramAuthorization env params = true ∧ params.get "id" = none := by
  unfold Panics
  cases hparam : params.get "id" with
  | some telegramId =>
    have hleaves : Leaves env (Sess.ofCookie (view v)) (handle env ctx codes v
        (.telegramLogin params)) := leaves_telegramLogin hparam
    have hreply := (hleaves.serve st).reply
    simp only [reduceCtorEq, and_false, iff_false]
    exact hreply
  | none =>
    cases hon : env.cfg.telegramOAuthEnabled with
    | false =>
      simp [handle, telegramLogin, telegramOff, hon, Sess.fail, Sess.answer, Reply.failure]
    | true =>
      cases hsigned : checkTelegramAuthorization env params with
      | false => simp [handle, telegramLogin, hon, hsigned, Sess.fail, Sess.answer, Reply.failure]
      | true => simp [handle, telegramLogin, hon, hsigned, hparam, Sess.answer]

theorem panics_telegramBind (h : Sound v) (params : Params) :
    Panics env ctx codes v (.telegramBind params) st ↔ env.cfg.telegramOAuthEnabled = true ∧
      checkTelegramAuthorization env params = true ∧ (params.get "id" = none ∨
        (∃ telegramId, params.get "id" = some telegramId ∧
          Unseen st fun u => u.telegramId == telegramId) ∧ v "id" = none) := by
  unfold Panics
  cases hon : env.cfg.telegramOAuthEnabled with
  | false => simp [handle, telegramBind, telegramOff, hon, Sess.fail, Sess.answer, Reply.failure]
  | true =>
    cases hsigned : checkTelegramAuthorization env params with
    | false => simp [handle, telegramBind, hon, hsigned, Sess.fail, Sess.answer, Reply.failure]
    | true =>
      cases hparam : params.get "id" with
      | none => simp [handle, telegramBind, hon, hsigned, hparam, Sess.answer]
      | some telegramId =>
        rcases view_id h with hid | ⟨id, hview, hid⟩
        · have hview : (Sess.ofCookie (view v)).cur.id = none := by
            simp [Sess.ofCookie, view, hid, asInt]
          simp only [handle, telegramBind, hon, hsigned, hparam, hview, Bool.not_true,
            Bool.false_eq_true, if_false, serve_bind]
          have hunseen : (serve (isTelegramIdAlreadyTaken telegramId) st).1 = false ↔ _ :=
            serve_alreadyTaken st fun u => u.telegramId == telegramId
          cases htaken : (serve (isTelegramIdAlreadyTaken telegramId) st).1 with
          | true =>
            rw [htaken] at hunseen
            simpa [Sess.fail, Sess.answer, Reply.failure, hid] using hunseen
          | false =>
            rw [htaken] at hunseen
            simpa [Sess.answer, hid] using hunseen
        · have hleaves : Leaves env (Sess.ofCookie (view v)) (handle env ctx codes v
              (.telegramBind params)) := leaves_telegramBind hview hparam
          have hreply := (hleaves.serve st).reply
          simp only [hid, and_false, or_false, reduceCtorEq, iff_false]
          exact hreply

end Unguarded

/-- **Which requests panic**: whatever the session is, however it came about,
these requests and no others. -/
theorem panics_iff (env : Env) (ctx : Ctx) (codes : VerificationMap) (ws : List Write) (q : Request)
    (st : Store) :
    Panics env ctx codes (after ws) q st ↔ Unguarded env ctx codes (after ws) st q := by
  have h := sound_after ws
  cases q with
  | authorized minRole authorization =>
    exact ⟨fun hp => absurd hp (guarded_authorized h minRole authorization), fun hu => nomatch hu⟩
  | emailBind email code =>
    rw [panics_emailBind h]
    constructor
    · rintro ⟨hcode, hid⟩
      exact .emailBind hcode hid
    · rintro (⟨hcode, hid⟩)
      exact ⟨hcode, hid⟩
  | weChatBind code answer =>
    rw [panics_weChatBind h]
    constructor
    · rintro ⟨hon, ⟨weChatId, hcode, hunseen⟩, hid⟩
      exact .weChatBind hon hcode hunseen hid
    · intro hu
      cases hu with
      | weChatBind hon hcode hunseen hid => exact ⟨hon, ⟨_, hcode, hunseen⟩, hid⟩
  | telegramBind params =>
    rw [panics_telegramBind h]
    constructor
    · rintro ⟨hon, hsigned, hparam | ⟨⟨telegramId, hparam, hunseen⟩, hid⟩⟩
      · exact .telegramBindIndex hon hsigned hparam
      · exact .telegramBind hon hsigned hparam hunseen hid
    · intro hu
      cases hu with
      | telegramBind hon hsigned hparam hunseen hid =>
        exact ⟨hon, hsigned, Or.inr ⟨⟨_, hparam, hunseen⟩, hid⟩⟩
      | telegramBindIndex hon hsigned hparam => exact ⟨hon, hsigned, Or.inl hparam⟩
  | telegramLogin params =>
    rw [panics_telegramLogin]
    constructor
    · rintro ⟨hon, hsigned, hparam⟩
      exact .telegramLoginIndex hon hsigned hparam
    · intro hu
      cases hu with
      | telegramLoginIndex hon hsigned hparam => exact ⟨hon, hsigned, hparam⟩
  | gitHubOAuth req answer =>
    exact ⟨fun hp => absurd hp (guarded_gitHubOAuth h req answer), fun hu => nomatch hu⟩
  | discordOAuth req answer =>
    exact ⟨fun hp => absurd hp (guarded_discordOAuth h req answer), fun hu => nomatch hu⟩
  | oidcAuth req answer =>
    exact ⟨fun hp => absurd hp (guarded_oidcAuth h req answer), fun hu => nomatch hu⟩
  | linuxdoOAuth refusal req answer =>
    exact ⟨fun hp => absurd hp (guarded_linuxdoOAuth h refusal req answer), fun hu => nomatch hu⟩

/-- Eve has a code for her address and no session. -/
def eveCodes : VerificationMap :=
  VerificationMap.register {} 0 "eve@example.com" "123456" emailVerificationPurpose

/-- Binding it panics. -/
theorem eve_panics : Panics Env.plain (Ctx.plain 0) eveCodes (after [])
    (.emailBind "eve@example.com" "123456")
    (Store.ofDB ⟨Table.empty, Table.empty, Table.empty, Table.empty⟩) := by
  have hcode : eveCodes.verify 0 "eve@example.com" "123456" emailVerificationPurpose = true := by
    decide
  exact (panics_emailBind (sound_after []) _ _).mpr ⟨hcode, rfl⟩

end AuthGateway.SessionPanics
