import Mathlib.Logic.Function.Basic
import AuthGateway.BrowserSession
import AuthGateway.LoginGate

/-!
# The values of a session

Go keeps a session as a map from keys to values of any type, and reads it by
type assertions.  `Values` is that map and `Write` lists what the handlers write
into it; `view` is the typed `Session` that the rest of the development works
with.

**Every value that is there has the type it is read with, and the four values of
a login are there together** (`sound_after`), after every run of writes.  On such
a session the typed one is the whole story, and the handlers leave no other:
each does to the cookie what a run of writes does (`written_visits`).
-/

namespace AuthGateway.SessionValues

open Common Model Controller Middleware

/-! ### Values and type assertions -/

/-- A value with its Go type. -/
inductive Value
  | string (s : String)
  | int (n : Int)
  | int64 (n : Int)
  | bool (b : Bool)
deriving DecidableEq, Repr

/-- `x.(int)`, on a value that may be nil; the assertion panics where there is no
answer. -/
def asInt : Option Value → Option Int
  | some (.int n) => some n
  | _ => none

/-- `x.(string)`. -/
def asString : Option Value → Option String
  | some (.string s) => some s
  | _ => none

/-- `x.(int64)`. -/
def asInt64 : Option Value → Option Int
  | some (.int64 n) => some n
  | _ => none

abbrev Values : Type := String → Option Value

/-- `session.Get` is application; an empty session has nothing. -/
def Values.empty : Values := fun _ => none

/-- `session.Set`. -/
def Values.set (v : Values) (key : String) (x : Value) : Values := Function.update v key (some x)

/-- `session.Delete`. -/
def Values.delete (v : Values) (key : String) : Values := Function.update v key none

@[simp] theorem Values.set_apply (v : Values) (key k : String) (x : Value) :
    v.set key x k = if k = key then some x else v k := by
  simp [Values.set, Function.update]

@[simp] theorem Values.delete_apply (v : Values) (key k : String) :
    v.delete key k = if k = key then none else v k := by
  simp [Values.delete, Function.update]

/-- The session as the handlers read it. -/
def view (v : Values) : Session where
  id := asInt (v "id")
  username := asString (v "username")
  role := asInt (v "role")
  status := asInt (v "status")
  group := asString (v "group")
  pendingUsername := asString (v "pending_username")
  pendingUserId := asInt (v "pending_user_id")
  secureVerifiedAt := asInt64 (v "secure_verified_at")
  oauthState := asString (v "oauth_state")
  aff := asString (v "aff")
  passkeyLogin := asString (v "passkey_login_session")
  passkeyVerify := asString (v "passkey_verify_session")
  passkeyRegistration := asString (v "passkey_registration_session")

/-! ### The writes -/

/-- The ceremonies of `service/passkey`. -/
inductive Ceremony
  | registration
  | login
  | verify

def Ceremony.key : Ceremony → String
  | registration => "passkey_registration_session"
  | login => "passkey_login_session"
  | verify => "passkey_verify_session"

def Ceremony.set (data : Option String) (s : Session) : Ceremony → Session
  | registration => { s with passkeyRegistration := data }
  | login => { s with passkeyLogin := data }
  | verify => { s with passkeyVerify := data }

/-- What a handler writes between two `Save`s, under its name. -/
inductive Write
  | setupLogin (user : User)
  | login (user : User)
  | verify2FALogin
  | logout
  | generateOAuthCode (affCode state : String)
  | universalVerify (now : Int)
  | clearSecureVerification
  | saveSessionData (ceremony : Ceremony) (payload : String)
  | popSessionData (ceremony : Ceremony)
  | turnstileCheck

/-- The writes, on the map. -/
def Write.apply (v : Values) : Write → Values
  | setupLogin user =>
    ((((v.set "id" (.int user.id)).set "username" (.string user.username)).set "role"
      (.int user.role)).set "status" (.int user.status)).set "group" (.string user.group)
  | login user =>
    (v.set "pending_username" (.string user.username)).set "pending_user_id" (.int user.id)
  | verify2FALogin => (v.delete "pending_username").delete "pending_user_id"
  | logout => Values.empty
  | generateOAuthCode affCode state =>
    (if affCode ≠ "" then v.set "aff" (.string affCode) else v).set "oauth_state" (.string state)
  | universalVerify now => v.set "secure_verified_at" (.int64 now)
  | clearSecureVerification => v.delete "secure_verified_at"
  | saveSessionData ceremony payload => v.set ceremony.key (.string payload)
  | popSessionData ceremony => v.delete ceremony.key
  | turnstileCheck => v.set "turnstile" (.bool true)

/-- The writes, on the typed session. -/
def Write.typed (s : Session) : Write → Session
  | setupLogin user => s.signIn user
  | login user => s.pend user
  | verify2FALogin => s.unpend
  | logout => {}
  | generateOAuthCode affCode state =>
    { s with aff := if affCode ≠ "" then some affCode else s.aff, oauthState := some state }
  | universalVerify now => s.stamp now
  | clearSecureVerification => s.unstamp
  | saveSessionData ceremony payload => ceremony.set (some payload) s
  | popSessionData ceremony => ceremony.set none s
  | turnstileCheck => s

/-- The values after a run of writes. -/
abbrev after (ws : List Write) : Values := Runs.after Write.apply Values.empty ws

@[simp] theorem view_empty : view Values.empty = {} := rfl

/-- **The typed writes are the writes.** -/
theorem view_apply (v : Values) (w : Write) : view (w.apply v) = w.typed (view v) := by
  cases w with
  | setupLogin user => simp [view, Write.apply, Write.typed, Session.signIn, asInt, asString]
  | login user => simp [view, Write.apply, Write.typed, Session.pend, asInt, asString]
  | verify2FALogin => simp [view, Write.apply, Write.typed, Session.unpend, asInt, asString]
  | logout => rfl
  | generateOAuthCode affCode state =>
    by_cases haff : affCode = ""
    · simp [view, Write.apply, Write.typed, asString, haff]
    · simp [view, Write.apply, Write.typed, asString, haff]
  | universalVerify now => simp [view, Write.apply, Write.typed, Session.stamp, asInt64]
  | clearSecureVerification => simp [view, Write.apply, Write.typed, Session.unstamp, asInt64]
  | saveSessionData ceremony payload =>
    cases ceremony <;> simp [view, Write.apply, Write.typed, Ceremony.set, Ceremony.key, asString]
  | popSessionData ceremony =>
    cases ceremony <;> simp [view, Write.apply, Write.typed, Ceremony.set, Ceremony.key, asString]
  | turnstileCheck => simp [view, Write.apply, Write.typed]

theorem view_after (ws : List Write) : view (after ws) = Runs.after Write.typed {} ws := by
  induction ws using List.reverseRecOn with
  | nil => rfl
  | append_singleton ws w ih => simp [after, view_apply, ← ih]

/-! ### What a session holds -/

/-- Nobody is logged in. -/
def Anonymous (v : Values) : Prop :=
  v "id" = none ∧ v "username" = none ∧ v "role" = none ∧ v "status" = none

/-- The login of an account, with the types it is read with. -/
def LoggedIn (v : Values) (user : User) : Prop :=
  v "id" = some (.int user.id) ∧ v "username" = some (.string user.username) ∧
    v "role" = some (.int user.role) ∧ v "status" = some (.int user.status)

/-- What the unchecked assertions need: a login is whole or absent, and the
texts of an OAuth login are texts. -/
structure Sound (v : Values) : Prop where
  login : Anonymous v ∨ ∃ user, LoggedIn v user
  oauthState : v "oauth_state" = none ∨ ∃ state, v "oauth_state" = some (.string state)
  aff : v "aff" = none ∨ ∃ affCode, v "aff" = some (.string affCode)

theorem sound_empty : Sound Values.empty :=
  ⟨Or.inl ⟨rfl, rfl, rfl, rfl⟩, Or.inl rfl, Or.inl rfl⟩

/-- Writes to other keys keep it. -/
theorem Sound.congr {v v' : Values} (h : Sound v)
    (hsame : ∀ k ∈ ["id", "username", "role", "status", "oauth_state", "aff"], v' k = v k) :
    Sound v' := by
  have hid := hsame "id" (by decide)
  have husername := hsame "username" (by decide)
  have hrole := hsame "role" (by decide)
  have hstatus := hsame "status" (by decide)
  refine ⟨?_, ?_, ?_⟩
  · unfold Anonymous LoggedIn
    rw [hid, husername, hrole, hstatus]
    exact h.login
  · rw [hsame "oauth_state" (by decide)]
    exact h.oauthState
  · rw [hsame "aff" (by decide)]
    exact h.aff

theorem Sound.apply {v : Values} (h : Sound v) (w : Write) : Sound (w.apply v) := by
  cases w with
  | setupLogin user =>
    refine ⟨Or.inr ⟨user, ?_⟩, ?_, ?_⟩
    · simp [LoggedIn, Write.apply]
    · simpa [Write.apply] using h.oauthState
    · simpa [Write.apply] using h.aff
  | login user => exact h.congr (by simp [Write.apply])
  | verify2FALogin => exact h.congr (by simp [Write.apply])
  | logout => exact sound_empty
  | generateOAuthCode affCode state =>
    refine ⟨?_, Or.inr ⟨state, by simp [Write.apply]⟩, ?_⟩
    · simp only [Anonymous, LoggedIn, Write.apply]
      split <;> simpa [Anonymous, LoggedIn] using h.login
    · by_cases haff : affCode = ""
      · simpa [Write.apply, haff] using h.aff
      · exact Or.inr ⟨affCode, by simp [Write.apply, haff]⟩
  | universalVerify now => exact h.congr (by simp [Write.apply])
  | clearSecureVerification => exact h.congr (by simp [Write.apply])
  | saveSessionData ceremony payload =>
    refine h.congr ?_
    cases ceremony <;> simp [Write.apply, Ceremony.key]
  | popSessionData ceremony =>
    refine h.congr ?_
    cases ceremony <;> simp [Write.apply, Ceremony.key]
  | turnstileCheck => exact h.congr (by simp [Write.apply])

/-- **Every session that is reached is sound.** -/
theorem sound_after (ws : List Write) : Sound (after ws) := by
  induction ws using List.reverseRecOn with
  | nil => exact sound_empty
  | append_singleton ws w ih =>
    show Sound (Runs.after Write.apply Values.empty (ws ++ [w]))
    rw [Runs.after_snoc]
    exact ih.apply w

/-! ### How the handlers end -/

/-- The end of a handler that does not panic and at most logs somebody in. -/
inductive Ends (env : Env) (s : Sess) : Out → Prop
  | answer (r : Reply) (h : r ≠ .panicked) : Ends env s (s.answer r)
  | setupLogin (user : User) : Ends env s (Controller.setupLogin env s user)

theorem Ends.reply {env : Env} {s : Sess} {out : Out} (h : Ends env s out) :
    out.reply ≠ .panicked := by
  cases h with
  | answer r hr => exact hr
  | setupLogin user =>
    unfold Controller.setupLogin
    split <;> exact fun h => nomatch h

theorem Ends.cookie {env : Env} {s : Sess} {out : Out} (h : Ends env s out) :
    out.cookie = s.saved ∨ ∃ user, out.cookie = s.cur.signIn user := by
  cases h with
  | answer r hr => exact Or.inl rfl
  | setupLogin user => exact (setupLogin_cookie env s user).imp_right fun h => ⟨user, h⟩

/-- Whatever the database answers, the handler ends so. -/
def Leaves (env : Env) (s : Sess) (p : M Out) : Prop := ∀ db, Sat p (fun out _ => Ends env s out) db

section Leaves

variable {env : Env} {s : Sess}

theorem Leaves.serve {p : M Out} (h : Leaves env s p) (st : Store) :
    Ends env s (Model.serve p st).1 := (h st.db).serve

theorem Leaves.pure {out : Out} (h : Ends env s out) : Leaves env s (Pure.pure out) :=
  fun _ => Sat.pure h

theorem Leaves.bind {α : Type} {p : M α} {f : α → M Out} (h : ∀ a, Leaves env s (f a)) :
    Leaves env s (p >>= f) :=
  fun db => (Prog.Holds.trivial p db).bind fun a db' _ => h a db'

theorem Leaves.json (status : Nat) (success : Bool) (msg : String) (data : Option Json) :
    Leaves env s (Pure.pure (s.answer (.json status success msg data))) :=
  .pure (.answer _ fun h => nomatch h)

theorem Leaves.fail (msg : String) : Leaves env s (Pure.pure (s.fail msg)) := .json _ _ _ _

theorem Leaves.apiError (e : Err) : Leaves env s (Pure.pure (s.apiError e)) := .json _ _ _ _

theorem leaves_admitLogin (user : User) : Leaves env s (Pure.pure (admitLogin env s user)) := by
  unfold admitLogin
  split
  · exact .fail _
  · exact .pure (.setupLogin user)

/-- The shared body of the OAuth logins. -/
theorem leaves_oauthLogin (taken : M Bool) (fill : M (Option Err × User)) (checkGone : Bool)
    (register : M (Option Err × User)) :
    Leaves env s (oauthLogin env s taken fill checkGone register) := by
  unfold oauthLogin
  apply Leaves.bind
  intro isTaken
  split
  · apply Leaves.bind
    rintro ⟨err, user⟩
    cases err with
    | some e => exact .apiError e
    | none =>
      dsimp only
      split
      · exact .fail _
      · exact leaves_admitLogin user
  · split
    · exact .fail _
    · apply Leaves.bind
      rintro ⟨err, user⟩
      cases err with
      | some e => exact .apiError e
      | none => exact leaves_admitLogin user

/-- The shared body of the bindings, in a session that has an id. -/
theorem leaves_bindAccount {ctx : Ctx} {id : Int} (hid : s.cur.id = some id) (taken : M Bool)
    (takenMsg : String) (blank : User) (set : User → User) {bound : Reply}
    (hbound : bound ≠ .panicked) :
    Leaves env s (bindAccount ctx s taken takenMsg blank set bound) := by
  unfold bindAccount
  apply Leaves.bind
  intro isTaken
  split
  · exact .fail _
  · rw [hid]
    apply Leaves.bind
    rintro ⟨err, user⟩
    cases err with
    | some e => exact .apiError e
    | none =>
      apply Leaves.bind
      rintro ⟨err, user'⟩
      cases err with
      | some e => exact .apiError e
      | none => exact .pure (.answer _ hbound)

theorem leaves_emailBind {ctx : Ctx} {id : Int} (hid : s.cur.id = some id) (email : String)
    (codeAccepted : Bool) : Leaves env s (emailBind ctx s email codeAccepted) := by
  unfold emailBind
  split
  · exact .fail _
  · rw [hid]
    apply Leaves.bind
    rintro ⟨err, user⟩
    cases err with
    | some e => exact .apiError e
    | none =>
      apply Leaves.bind
      rintro ⟨err, user'⟩
      cases err with
      | some e => exact .apiError e
      | none => exact .json _ _ _ _

/-- A login is whole: where there is a username there is an id. -/
def Whole (c : Session) : Prop := c.username.isSome = true → ∃ id, c.id = some id

variable {ctx : Ctx}

theorem leaves_gitHubOAuth (hwhole : Whole s.cur) (req : OAuthRequest)
    (answer : Except Err GitHubUser) : Leaves env s (gitHubOAuth env ctx s req answer) := by
  unfold gitHubOAuth gitHubBind gitHubOff
  split
  · exact .json _ _ _ _
  split
  · rename_i husername
    obtain ⟨id, hid⟩ := hwhole husername
    split
    · exact .fail _
    split
    · exact .apiError _
    · exact leaves_bindAccount hid _ _ _ _ fun h => nomatch h
  split
  · exact .fail _
  split
  · exact .apiError _
  · exact leaves_oauthLogin _ _ _ _

theorem leaves_discordOAuth (hwhole : Whole s.cur) (req : OAuthRequest)
    (answer : Except Err DiscordUser) : Leaves env s (discordOAuth env ctx s req answer) := by
  unfold discordOAuth discordBind discordOff
  split
  · exact .json _ _ _ _
  split
  · rename_i husername
    obtain ⟨id, hid⟩ := hwhole husername
    split
    · exact .fail _
    split
    · exact .apiError _
    · exact leaves_bindAccount hid _ _ _ _ fun h => nomatch h
  split
  · exact .fail _
  split
  · exact .apiError _
  · exact leaves_oauthLogin _ _ _ _

theorem leaves_oidcAuth (hwhole : Whole s.cur) (req : OAuthRequest)
    (answer : Except Err OidcUser) : Leaves env s (oidcAuth env ctx s req answer) := by
  unfold oidcAuth oidcBind oidcOff
  split
  · exact .json _ _ _ _
  split
  · rename_i husername
    obtain ⟨id, hid⟩ := hwhole husername
    split
    · exact .fail _
    split
    · exact .apiError _
    · exact leaves_bindAccount hid _ _ _ _ fun h => nomatch h
  split
  · exact .fail _
  split
  · exact .apiError _
  · exact leaves_oauthLogin _ _ _ _

theorem leaves_linuxdoOAuth (hwhole : Whole s.cur) (refusal : Option String) (req : OAuthRequest)
    (answer : Except Err LinuxdoUser) :
    Leaves env s (linuxdoOAuth env ctx s refusal req answer) := by
  unfold linuxdoOAuth linuxDoBind linuxDOOff
  cases refusal with
  | some errorDescription => exact .fail _
  | none =>
    dsimp only
    split
    · exact .json _ _ _ _
    split
    · rename_i husername
      obtain ⟨id, hid⟩ := hwhole husername
      split
      · exact .fail _
      split
      · exact .apiError _
      · exact leaves_bindAccount hid _ _ _ _ fun h => nomatch h
    split
    · exact .fail _
    split
    · exact .apiError _
    · exact leaves_oauthLogin _ _ _ _

theorem leaves_weChatAuth (code : String) (answer : Except Err String) :
    Leaves env s (weChatAuth env ctx s code answer) := by
  unfold weChatAuth weChatOff
  split
  · exact .fail _
  split
  · exact .apiError _
  · exact leaves_oauthLogin _ _ _ _

theorem leaves_weChatBind {id : Int} (hid : s.cur.id = some id) (code : String)
    (answer : Except Err String) : Leaves env s (weChatBind env ctx s code answer) := by
  unfold weChatBind weChatOff
  split
  · exact .fail _
  split
  · exact .apiError _
  · exact leaves_bindAccount hid _ _ _ _ fun h => nomatch h

theorem leaves_telegramBind {id : Int} (hid : s.cur.id = some id) {params : Params}
    {telegramId : String} (hparams : params.get "id" = some telegramId) :
    Leaves env s (telegramBind env ctx s params) := by
  unfold telegramBind telegramOff
  split
  · exact .fail _
  split
  · exact .fail _
  · rw [hparams]
    apply Leaves.bind
    intro isTaken
    split
    · exact .fail _
    · rw [hid]
      apply Leaves.bind
      rintro ⟨err, user⟩
      cases err with
      | some e => exact .apiError e
      | none =>
        dsimp only
        split
        · exact .fail _
        · apply Leaves.bind
          rintro ⟨err, user'⟩
          cases err with
          | some e => exact .apiError e
          | none => exact .pure (.answer _ fun h => nomatch h)

theorem leaves_telegramLogin {params : Params} {telegramId : String}
    (hparams : params.get "id" = some telegramId) :
    Leaves env s (telegramLogin env s params) := by
  unfold telegramLogin telegramOff
  split
  · exact .fail _
  split
  · exact .fail _
  · rw [hparams]
    apply Leaves.bind
    rintro ⟨err, user⟩
    cases err with
    | some e => exact .apiError e
    | none => exact .pure (.setupLogin user)

end Leaves

/-! ### What the handlers leave in the cookie -/

/-- One cookie comes from another by a run of writes. -/
def Written (c c' : Session) : Prop := ∃ ws, c' = Runs.after Write.typed c ws

theorem Written.refl (c : Session) : Written c c := ⟨[], rfl⟩

theorem Written.snoc {c c' : Session} (h : Written c c') (w : Write) : Written c (w.typed c') := by
  obtain ⟨ws, rfl⟩ := h
  exact ⟨ws ++ [w], (Runs.after_snoc _ _ ws w).symm⟩

/-- The session of a request comes from the cookie that the request brought. -/
structure Grown (c : Session) (s : Sess) : Prop where
  cur : Written c s.cur
  saved : Written c s.saved

section Written

variable {env : Env} {c : Session} {s : Sess}

theorem Grown.ofCookie (c : Session) : Grown c (Sess.ofCookie c) := ⟨.refl c, .refl c⟩

theorem Grown.save (env : Env) (h : Grown c s) : Grown c (s.save env).2 := by
  refine ⟨?_, ?_⟩
  · rw [Sess.cur_save]
    exact h.cur
  · rcases Sess.saved_save env s with hs | hs
    · rw [hs]
      exact h.saved
    · rw [hs]
      exact h.cur

theorem Grown.set (h : Grown c s) (w : Write) : Grown c (s.set fun c => w.typed c) :=
  ⟨h.cur.snoc w, h.saved⟩

theorem Grown.setupLogin (h : Grown c s) (user : User) :
    Written c (Controller.setupLogin env s user).cookie := by
  rcases setupLogin_cookie env s user with hs | hs
  · rw [hs]
    exact h.saved
  · rw [hs]
    exact h.cur.snoc (.setupLogin user)

theorem Ends.written {out : Out} (h : Ends env s out) (hs : Grown c s) : Written c out.cookie := by
  rcases h.cookie with he | ⟨user, he⟩
  · rw [he]
    exact hs.saved
  · rw [he]
    exact hs.cur.snoc (.setupLogin user)

theorem written_login (req : Option LoginRequest) (st : Store) :
    Written c (serve (login env (Sess.ofCookie c) req) st).1.cookie := by
  rcases serve_login env (Sess.ofCookie c) req st with
    ⟨reply, he⟩ | ⟨-, r, u, -, -, ⟨reply, he⟩ | ⟨-, he⟩⟩
  · rw [he]
    exact .refl c
  · rw [he]
    exact (((Grown.ofCookie c).set (.login u)).save env).saved
  · rw [he]
    exact (Grown.ofCookie c).setupLogin u

theorem written_verify2FALogin (ctx : Ctx) (req : Option String) (st : Store) :
    Written c (serve (verify2FALogin env ctx (Sess.ofCookie c) req) st).1.cookie := by
  obtain ⟨-, ⟨-, he⟩ | ⟨row, -, -, -, -, -, -, he | he⟩⟩ :=
    (verify2FALogin_sat env ctx (Sess.ofCookie c) req st.db).serve
  · rw [he]
    exact .refl c
  · rw [he]
    exact (((Grown.ofCookie c).set .verify2FALogin).save env).saved
  · rw [he]
    exact ((Written.refl c).snoc .verify2FALogin).snoc (.setupLogin _)

theorem Grown.popLoginSession (env : Env) (h : Grown c s) : Grown c (popLoginSession env s).2 := by
  unfold Controller.popLoginSession
  split
  · exact h
  · exact (h.set (.popSessionData .login)).save env

theorem written_passkeyLoginFinish (hs : Grown c s) (ctx : Ctx) (body : String) (db : DB) :
    Sat (passkeyLoginFinish env ctx s body) (fun out _ => Written c out.cookie) db := by
  unfold passkeyLoginFinish
  split
  · exact Sat.pure hs.saved
  split
  · exact Sat.pure hs.saved
  have hpop := hs.popLoginSession env
  split
  · rename_i he
    rw [he] at hpop
    exact Sat.pure hpop.saved
  rename_i he
  rw [he] at hpop
  split
  · exact Sat.pure hpop.saved
  refine (Prog.Holds.trivial _ db).bind ?_
  rintro (e | ⟨user, credential⟩) db₁ -
  · exact Sat.pure hpop.saved
  dsimp only
  split
  · exact Sat.pure hpop.saved
  split
  · exact Sat.pure hpop.saved
  refine (Prog.Holds.trivial _ db₁).bind ?_
  rintro (_ | e) db₂ -
  · exact Sat.pure (hpop.setupLogin user)
  · exact Sat.pure hpop.saved

/-- Each login does to the cookie what a run of writes does. -/
theorem written_loginPath (ctx : Ctx) (path : LoginGate.LoginPath) (hwhole : Whole c) (st : Store) :
    Written c (serve (LoginGate.handle env ctx (Sess.ofCookie c) path) st).1.cookie := by
  have hs := Grown.ofCookie c
  cases path with
  | login req => exact written_login req st
  | verify2FALogin code => exact written_verify2FALogin ctx code st
  | passkeyLoginFinish body => exact (written_passkeyLoginFinish hs ctx body st.db).serve
  | gitHubOAuth req answer => exact ((leaves_gitHubOAuth hwhole req answer).serve st).written hs
  | discordOAuth req answer => exact ((leaves_discordOAuth hwhole req answer).serve st).written hs
  | oidcAuth req answer => exact ((leaves_oidcAuth hwhole req answer).serve st).written hs
  | linuxdoOAuth refusal req answer =>
    exact ((leaves_linuxdoOAuth hwhole refusal req answer).serve st).written hs
  | weChatAuth code answer => exact ((leaves_weChatAuth code answer).serve st).written hs
  | telegramLogin params =>
    cases hid : params.get "id" with
    | some telegramId => exact ((leaves_telegramLogin hid).serve st).written hs
    | none =>
      show Written c (serve (telegramLogin env (Sess.ofCookie c) params) st).1.cookie
      unfold telegramLogin
      rw [hid]
      split
      · exact .refl c
      split <;> exact .refl c

theorem written_generateOAuthCode (ctx : Ctx) (affCode : String) :
    Written c (generateOAuthCode env ctx (Sess.ofCookie c) affCode).cookie := by
  have hset : ((if affCode ≠ "" then (Sess.ofCookie c).set fun c => { c with aff := some affCode }
      else Sess.ofCookie c).set fun c => { c with oauthState := some ctx.randomString })
      = (Sess.ofCookie c).set fun c => (Write.generateOAuthCode affCode ctx.randomString).typed c := by
    by_cases haff : affCode = "" <;> simp [haff, Sess.set, Sess.ofCookie, Write.typed]
  have hsaved := (((Grown.ofCookie c).set (.generateOAuthCode affCode ctx.randomString)).save
    env).saved
  unfold generateOAuthCode
  dsimp only
  rw [hset]
  split
  · rename_i he
    rw [he] at hsaved
    exact hsaved
  · rename_i he
    rw [he] at hsaved
    exact hsaved

theorem written_logout : Written c (logout env (Sess.ofCookie c)).cookie := by
  have hsaved := (((Grown.ofCookie c).set .logout).save env).saved
  unfold logout
  split
  · rename_i he
    have hsave : ((Sess.ofCookie c).set fun c => Write.logout.typed c).save env = _ := he
    rw [hsave] at hsaved
    exact hsaved
  · rename_i he
    have hsave : ((Sess.ofCookie c).set fun c => Write.logout.typed c).save env = _ := he
    rw [hsave] at hsaved
    exact hsaved

theorem written_ceremony {c' : Session}
    (h : c' = c ∨ ∃ data, c' = { c with passkeyVerify := data }) : Written c c' := by
  obtain rfl | ⟨_ | payload, rfl⟩ := h
  · exact .refl _
  · exact (Written.refl c).snoc (.popSessionData .verify)
  · exact (Written.refl c).snoc (.saveSessionData .verify payload)

theorem written_unstamp {c' : Session} (h : c' = c ∨ c' = c.unstamp) : Written c c' := by
  rcases h with rfl | rfl
  · exact .refl _
  · exact (Written.refl c).snoc .clearSecureVerification

theorem written_route (request : BrowserSession.Request) (ctx : Ctx) (st : Store) :
    Written c (serve (BrowserSession.route env (Sess.ofCookie c) request ctx) st).1.cookie := by
  have hsecured : ∀ reply : Reply, Written c
      ((secureVerificationRequired env ctx (Sess.ofCookie c)).2.answer reply).cookie :=
    fun _ => written_unstamp (secureVerificationRequired_saved env ctx (Sess.ofCookie c))
  cases request with
  | passkeyVerifyBegin =>
    obtain ⟨-, h⟩ := (passkeyVerifyBegin_sat env ctx (Sess.ofCookie c) st.db).serve
    exact written_ceremony h
  | passkeyVerifyFinish body =>
    obtain ⟨-, h⟩ := (passkeyVerifyFinish_sat env ctx (Sess.ofCookie c) body st.db).serve
    exact written_ceremony (h.imp_right fun h => ⟨_, h⟩)
  | universalVerify req =>
    obtain ⟨-, h | ⟨-, h, -⟩⟩ := (universalVerify_sat env ctx (Sess.ofCookie c) req st.db).serve
    · exact written_unstamp (Or.inl h)
    · show Written c (serve (universalVerify env ctx (Sess.ofCookie c) req) st).1.cookie
      rw [h]
      exact (Written.refl c).snoc (.universalVerify (unix ctx.now))
  | getVerificationStatus =>
    exact written_unstamp (getVerificationStatus_cookie env ctx (Sess.ofCookie c)).2
  | login req => exact hsecured _
  | verify2FALogin code => exact hsecured _
  | logout => exact hsecured _
  | secured => exact hsecured _

/-- The requests of a session that knows its user. -/
theorem written_step (a : BrowserSession.Act) : Written c (BrowserSession.step env c a) := by
  have hbehind : ∀ request, Written c (serve (behind userAuth (Sess.ofCookie c) a.authorization
      a.ctx (BrowserSession.route env (Sess.ofCookie c) request)) a.store).1.cookie := by
    intro request
    unfold behind
    rw [serve_bind]
    cases (serve (userAuth (Sess.ofCookie c).cur a.authorization) a.store).1 with
    | error reply => exact .refl c
    | ok auth => exact written_route request _ _
  unfold BrowserSession.step BrowserSession.respond BrowserSession.handle
  cases a.request with
  | login req => exact written_login req _
  | verify2FALogin code => exact written_verify2FALogin _ code _
  | logout => exact written_logout
  | passkeyVerifyBegin => exact hbehind _
  | passkeyVerifyFinish body => exact hbehind _
  | universalVerify req => exact hbehind _
  | getVerificationStatus => exact hbehind _
  | secured => exact hbehind _

end Written

/-! ### Whole sessions -/

/-- A request that may write into the session, with the database it meets. -/
inductive Visit
  | login (path : LoginGate.LoginPath) (ctx : Ctx) (store : Store)
  | generateOAuthCode (ctx : Ctx) (affCode : String)
  | session (a : BrowserSession.Act)

/-- The cookie afterwards. -/
def visit (env : Env) (c : Session) : Visit → Session
  | .login path ctx store =>
    (serve (LoginGate.handle env ctx (Sess.ofCookie c) path) store).1.cookie
  | .generateOAuthCode ctx affCode => (generateOAuthCode env ctx (Sess.ofCookie c) affCode).cookie
  | .session a => BrowserSession.step env c a

theorem Sound.whole {v : Values} (h : Sound v) : Whole (view v) := by
  intro husername
  obtain ⟨-, hnone, -⟩ | ⟨user, hid, -⟩ := h.login
  · simp [view, hnone, asString] at husername
  · exact ⟨user.id, by simp [view, hid, asInt]⟩

/-- **The cookies that requests leave are runs of writes**, whatever the
databases were and whatever failed. -/
theorem written_visits (env : Env) (visits : List Visit) :
    ∃ ws, Runs.after (visit env) {} visits = view (after ws) := by
  induction visits using List.reverseRecOn with
  | nil => exact ⟨[], rfl⟩
  | append_singleton visits a ih =>
    obtain ⟨ws, hws⟩ := ih
    have hstep : Written (view (after ws)) (visit env (view (after ws)) a) := by
      cases a with
      | login path ctx store => exact written_loginPath ctx path (sound_after ws).whole store
      | generateOAuthCode ctx affCode => exact written_generateOAuthCode ctx affCode
      | session a => exact written_step a
    obtain ⟨more, hmore⟩ := hstep
    refine ⟨ws ++ more, ?_⟩
    rw [Runs.after_snoc, hws, hmore, view_after, view_after]
    simp [Runs.after]

end AuthGateway.SessionValues
