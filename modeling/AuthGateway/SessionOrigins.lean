import AuthGateway.Lib.Handed
import AuthGateway.SessionValues

/-!
# What a session may answer for

Four texts wait in a session for the request that uses them up: the state of an
OAuth login and the data of the three WebAuthn ceremonies.  The session is a cookie,
of which a client may send any copy it was ever handed (`Lib.Handed`), and between
two requests the tables may change in any way.

* `callback_asked_for`: **an OAuth callback does nothing**, unless its state was
  answered to this very client by `GenerateOAuthCode` before; so nobody can be
  logged in, or bound, with a callback that somebody else started.
* `finished_begun`: a ceremony that is finished was begun by this very client, and
  the assertion was accepted against the data of that beginning.
-/

namespace AuthGateway.SessionOrigins

open Common Model Controller Middleware SessionValues

/-! ### The texts that wait -/

inductive Slot
  | oauthState
  | passkeyLogin
  | passkeyVerify
  | passkeyRegistration

def Slot.value : Slot → Session → Option String
  | oauthState, c => c.oauthState
  | passkeyLogin, c => c.passkeyLogin
  | passkeyVerify, c => c.passkeyVerify
  | passkeyRegistration, c => c.passkeyRegistration

theorem value_blank (k : Slot) : k.value {} = none := by
  cases k <;> rfl

/-! ### Requests -/

inductive Request
  | login (path : LoginGate.LoginPath)
  | generateOAuthCode (affCode : String)
  | logout
  | passkeyLoginBegin (begun : Except Err (Json × String))
  | passkeyVerifyBegin
  | passkeyVerifyFinish (body : String)
  | passkeyRegisterBegin
      (beginRegistration : User → Option PasskeyCredential → Except Err (Json × String))
  | passkeyRegisterFinish (body : String)
  | universalVerify (req : Except Err UniversalVerifyRequest)
  | getVerificationStatus
  /-- A handler behind `SecureVerificationRequired`, which saves no session. -/
  | secured (handler : Ctx → M Reply)
  /-- Any other handler that saves no session, behind `authHelper` or not. -/
  | rest (minRole : Option Int) (handler : Ctx → Sess → M Reply)

/-- A request of a client, with the cookie it sends: its `i`-th, or none. -/
structure Act (Client : Type) where
  client : Client
  resends : Option Nat
  request : Request
  authorization : String := ""
  env : Env
  ctx : Ctx
  store : Store

variable {Client : Type}

def route (env : Env) (s : Sess) (ctx : Ctx) : Request → M Out
  | .login path => LoginGate.handle env ctx s path
  | .generateOAuthCode affCode => return generateOAuthCode env ctx s affCode
  | .logout => return logout env s
  | .passkeyLoginBegin begun => passkeyLoginBegin env ctx s begun
  | .passkeyVerifyBegin => passkeyVerifyBegin env ctx s
  | .passkeyVerifyFinish body => passkeyVerifyFinish env ctx s body
  | .passkeyRegisterBegin beginRegistration => passkeyRegisterBegin env ctx s beginRegistration
  | .passkeyRegisterFinish body => passkeyRegisterFinish env ctx s body
  | .universalVerify req => universalVerify env ctx s req
  | .getVerificationStatus => return getVerificationStatus env ctx s
  | .secured handler =>
    match secureVerificationRequired env ctx s with
    | (some reply, s) => return s.answer reply
    | (none, s) => do return s.answer (← handler ctx)
  | .rest _ handler => do return s.answer (← handler ctx s)

/-- The least role that a route asks for, if it is behind `authHelper`. -/
def minRole : Request → Option Int
  | .login _ | .generateOAuthCode _ | .logout | .passkeyLoginBegin _ => none
  | .rest minRole _ => minRole
  | _ => some roleCommonUser

def handle (a : Act Client) (s : Sess) : M Out :=
  match minRole a.request with
  | none => route a.env s a.ctx a.request
  | some role => behind (authHelper role) s a.authorization a.ctx fun ctx =>
      route a.env s ctx a.request

/-- The answer to a request with a cookie, and the store afterwards. -/
def respond (a : Act Client) (c : Session) : Out × Store := serve (handle a (Sess.ofCookie c)) a.store

/-- The server keeps no session. -/
def server (Client : Type) : Handed.Server Client Session (Act Client) where
  blank := {}
  client := Act.client
  resends := Act.resends
  answer a c := (respond a c).1.cookie

/-! ### What is issued -/

/-- **The handlers that put a text into a session**, and what they put there. -/
inductive Issues (env : Env) (ctx : Ctx) (c : Session) : Request → Slot → String → Prop
  | oauthState {affCode : String} : Issues env ctx c (.generateOAuthCode affCode) .oauthState
      ctx.randomString
  | passkeyLogin {assertion : Json} {sessionData : String} :
      Issues env ctx c (.passkeyLoginBegin (.ok (assertion, sessionData))) .passkeyLogin sessionData
  | passkeyVerify {user : User} {credential : PasskeyCredential} {assertion : Json}
      {sessionData : String} (hid : c.id = some user.id) (hown : credential.userID = user.id)
      (hbegun : env.beginLogin ctx.randomString user credential = .ok (assertion, sessionData)) :
      Issues env ctx c .passkeyVerifyBegin .passkeyVerify sessionData
  | passkeyRegistration {user : User} {credential : Option PasskeyCredential} {creation : Json}
      {sessionData : String}
      {beginRegistration : User → Option PasskeyCredential → Except Err (Json × String)}
      (hid : c.id = some user.id)
      (hbegun : beginRegistration user credential = .ok (creation, sessionData)) :
      Issues env ctx c (.passkeyRegisterBegin beginRegistration) .passkeyRegistration sessionData

/-- What is in `c'` was in `c`, or is given by `I`; and `c'` still has the id of its login. -/
structure Gives (I : Slot → String → Prop) (c c' : Session) : Prop where
  texts : ∀ k v, k.value c' = some v → k.value c = some v ∨ I k v
  whole : Whole c → Whole c'

/-- Both sessions of a request come from the cookie. -/
structure Fed (I : Slot → String → Prop) (c : Session) (s : Sess) : Prop where
  cur : Gives I c s.cur
  saved : Gives I c s.saved

section Gives

variable {I : Slot → String → Prop} {c c' c'' : Session} {s : Sess} {env : Env} {ctx : Ctx}

theorem Gives.refl (c : Session) : Gives I c c := ⟨fun _ _ => Or.inl, id⟩

theorem Gives.trans (h : Gives I c c') (h' : Gives I c' c'') : Gives I c c'' := by
  refine ⟨?_, fun hwhole => h'.whole (h.whole hwhole)⟩
  intro k v hv
  rcases h'.texts k v hv with hold | hnew
  · exact h.texts k v hold
  · exact Or.inr hnew

/-- The texts are those that were there, or fewer, and the login is as it was. -/
theorem Gives.of_fewer (h : ∀ k : Slot, k.value c' = k.value c ∨ k.value c' = none)
    (husername : c'.username = c.username) (hid : c'.id = c.id) : Gives I c c' := by
  refine ⟨?_, ?_⟩
  · intro k v hv
    rcases h k with hk | hk
    · rw [hk] at hv
      exact Or.inl hv
    · rw [hk] at hv
      cases hv
  · unfold Whole
    rw [husername, hid]
    exact id

/-- One text is put in. -/
theorem Gives.of_text (k : Slot) {v : String} (hv : k.value c' = some v) (hI : I k v)
    (h : ∀ k', k' ≠ k → k'.value c' = k'.value c) (husername : c'.username = c.username)
    (hid : c'.id = c.id) : Gives I c c' := by
  refine ⟨?_, ?_⟩
  · intro k' v' hv'
    by_cases hk : k' = k
    · subst hk
      obtain rfl := Option.some.inj (hv.symm.trans hv')
      exact Or.inr hI
    · rw [h k' hk] at hv'
      exact Or.inl hv'
  · unfold Whole
    rw [husername, hid]
    exact id

theorem Gives.signIn (h : Gives I c c') (user : User) : Gives I c (c'.signIn user) := by
  refine ⟨?_, fun _ _ => ⟨user.id, rfl⟩⟩
  intro k v hv
  refine h.texts k v ?_
  cases k <;> exact hv

theorem Gives.clear : Gives I c {} := by
  refine ⟨?_, fun _ h => ?_⟩
  · intro k v hv
    rw [value_blank] at hv
    cases hv
  · cases h

theorem gives_unpend (c : Session) : Gives I c c.unpend := by
  refine Gives.of_fewer (fun k => ?_) rfl rfl
  cases k <;> exact Or.inl rfl

theorem gives_stamped {c c' : Session} (h : c' = c ∨ c' = c.unstamp ∨ ∃ t, c' = c.stamp t) :
    Gives I c c' := by
  rcases h with rfl | rfl | ⟨t, rfl⟩
  · exact .refl _
  · refine Gives.of_fewer (fun k => ?_) rfl rfl
    cases k <;> exact Or.inl rfl
  · refine Gives.of_fewer (fun k => ?_) rfl rfl
    cases k <;> exact Or.inl rfl

theorem Fed.ofCookie (c : Session) : Fed I c (Sess.ofCookie c) := ⟨.refl c, .refl c⟩

theorem Fed.save (h : Fed I c s) (env : Env) : Fed I c (s.save env).2 := by
  refine ⟨?_, ?_⟩
  · rw [Sess.cur_save]
    exact h.cur
  · rcases Sess.saved_save env s with hs | hs
    · rw [hs]
      exact h.saved
    · rw [hs]
      exact h.cur

theorem Fed.set (h : Fed I c s) {f : Session → Session} (hf : Gives I s.cur (f s.cur)) :
    Fed I c (s.set f) := ⟨h.cur.trans hf, h.saved⟩

theorem Fed.setupLogin (h : Fed I c s) (user : User) :
    Gives I c (Controller.setupLogin env s user).cookie := by
  rcases setupLogin_cookie env s user with hs | hs
  · rw [hs]
    exact h.saved
  · rw [hs]
    exact h.cur.signIn user

theorem Fed.ends {out : Out} (h : Fed I c s) (hends : Ends env s out) : Gives I c out.cookie := by
  rcases hends.cookie with hs | ⟨user, hs⟩
  · rw [hs]
    exact h.saved
  · rw [hs]
    exact h.cur.signIn user

/-- The end of a handler that saves the session and answers. -/
theorem Fed.answered (h : Fed I c s) (env : Env) (reply : Reply) :
    Gives I c (match s.save env with
      | (some e, s) => s.apiError e
      | (none, s) => s.answer reply).cookie := by
  have hsaved := (h.save env).saved
  split
  · rename_i he
    rw [he] at hsaved
    exact hsaved
  · rename_i he
    rw [he] at hsaved
    exact hsaved

theorem Fed.begun (h : Fed I c s) (env : Env) (reply : Reply) (db : DB) :
    Sat (match s.save env with
      | (some e, s) => pure (s.apiError e)
      | (none, s) => pure (s.answer reply)) (fun out _ => Gives I c out.cookie) db := by
  have hsaved := (h.save env).saved
  split
  · rename_i he
    rw [he] at hsaved
    exact Sat.pure hsaved
  · rename_i he
    rw [he] at hsaved
    exact Sat.pure hsaved

/-- Taking a text out of the session puts none in. -/
theorem Fed.drop (h : Fed I c s) {f : Session → Session} (env : Env)
    (hf : ∀ k : Slot, k.value (f s.cur) = k.value s.cur ∨ k.value (f s.cur) = none)
    (husername : (f s.cur).username = s.cur.username) (hid : (f s.cur).id = s.cur.id) :
    Fed I c ((s.set f).save env).2 := (h.set (Gives.of_fewer hf husername hid)).save env

theorem Fed.popLoginSession (h : Fed I c s) (env : Env) : Fed I c (popLoginSession env s).2 := by
  unfold Controller.popLoginSession
  split
  · exact h
  · refine h.drop env (fun k => ?_) rfl rfl
    cases k with
    | passkeyLogin => exact Or.inr rfl
    | _ => exact Or.inl rfl

theorem Fed.popRegistrationSession (h : Fed I c s) (env : Env) :
    Fed I c (popRegistrationSession env s).2 := by
  unfold Controller.popRegistrationSession
  split
  · exact h
  · refine h.drop env (fun k => ?_) rfl rfl
    cases k with
    | passkeyRegistration => exact Or.inr rfl
    | _ => exact Or.inl rfl

/-! ### The handlers -/

theorem gives_login (req : Option LoginRequest) (st : Store) :
    Gives I c (serve (login env (Sess.ofCookie c) req) st).1.cookie := by
  have hs := Fed.ofCookie (I := I) c
  rcases serve_login env (Sess.ofCookie c) req st with
    ⟨reply, he⟩ | ⟨-, r, u, -, -, ⟨reply, he⟩ | ⟨-, he⟩⟩
  · rw [he]
    exact .refl c
  · rw [he]
    refine (hs.drop env (fun k => ?_) rfl rfl).saved
    cases k <;> exact Or.inl rfl
  · rw [he]
    exact hs.setupLogin u

theorem gives_verify2FALogin (req : Option String) (st : Store) :
    Gives I c (serve (verify2FALogin env ctx (Sess.ofCookie c) req) st).1.cookie := by
  obtain ⟨-, ⟨-, he⟩ | ⟨row, -, -, -, -, -, -, he | he⟩⟩ :=
    (verify2FALogin_sat env ctx (Sess.ofCookie c) req st.db).serve
  · rw [he]
    exact .refl c
  · rw [he]
    exact (((Fed.ofCookie c).set (gives_unpend c)).save env).saved
  · rw [he]
    exact (gives_unpend c).signIn _

theorem gives_passkeyLoginFinish (hs : Fed I c s) (body : String) (db : DB) :
    Sat (passkeyLoginFinish env ctx s body) (fun out _ => Gives I c out.cookie) db := by
  unfold passkeyLoginFinish
  split
  · exact Sat.pure hs.saved
  split
  · exact Sat.pure hs.saved
  have hpop := hs.popLoginSession env
  split
  · rename_i he
    rw [he] at hpop
    exact Sat.pure hpop.saved
  rename_i he
  rw [he] at hpop
  split
  · exact Sat.pure hpop.saved
  refine (Prog.Holds.trivial _ db).bind ?_
  rintro (e | ⟨user, credential⟩) db₁ -
  · exact Sat.pure hpop.saved
  dsimp only
  split
  · exact Sat.pure hpop.saved
  split
  · exact Sat.pure hpop.saved
  refine (Prog.Holds.trivial _ db₁).bind ?_
  rintro (_ | e) db₂ -
  · exact Sat.pure (hpop.setupLogin user)
  · exact Sat.pure hpop.saved

theorem gives_loginPath (hwhole : Whole c) (path : LoginGate.LoginPath) (st : Store) :
    Gives I c (serve (LoginGate.handle env ctx (Sess.ofCookie c) path) st).1.cookie := by
  have hs := Fed.ofCookie (I := I) c
  cases path with
  | login req => exact gives_login req st
  | verify2FALogin code => exact gives_verify2FALogin code st
  | passkeyLoginFinish body => exact (gives_passkeyLoginFinish hs body st.db).serve
  | gitHubOAuth req answer => exact hs.ends ((leaves_gitHubOAuth hwhole req answer).serve st)
  | discordOAuth req answer => exact hs.ends ((leaves_discordOAuth hwhole req answer).serve st)
  | oidcAuth req answer => exact hs.ends ((leaves_oidcAuth hwhole req answer).serve st)
  | linuxdoOAuth refusal req answer =>
    exact hs.ends ((leaves_linuxdoOAuth hwhole refusal req answer).serve st)
  | weChatAuth code answer => exact hs.ends ((leaves_weChatAuth code answer).serve st)
  | telegramLogin params =>
    cases hid : params.get "id" with
    | some telegramId => exact hs.ends ((leaves_telegramLogin hid).serve st)
    | none =>
      show Gives I c (serve (telegramLogin env (Sess.ofCookie c) params) st).1.cookie
      unfold telegramLogin
      rw [hid]
      split
      · exact .refl c
      split <;> exact .refl c

theorem gives_generateOAuthCode (affCode : String) :
    Gives (Issues env ctx c (.generateOAuthCode affCode)) c
      (generateOAuthCode env ctx (Sess.ofCookie c) affCode).cookie := by
  have haff : Fed (Issues env ctx c (.generateOAuthCode affCode)) c
      (if affCode ≠ "" then (Sess.ofCookie c).set fun c => { c with aff := some affCode }
        else Sess.ofCookie c) := by
    split
    · refine (Fed.ofCookie c).set (Gives.of_fewer (fun k => ?_) rfl rfl)
      cases k <;> exact Or.inl rfl
    · exact Fed.ofCookie c
  refine (haff.set (Gives.of_text .oauthState rfl .oauthState ?_ rfl rfl)).answered env _
  intro k hk
  cases k <;> first | rfl | exact absurd rfl hk

theorem gives_logout : Gives I c (logout env (Sess.ofCookie c)).cookie :=
  ((Fed.ofCookie c).set Gives.clear).answered env _

theorem gives_passkeyLoginBegin (begun : Except Err (Json × String)) (db : DB) :
    Sat (passkeyLoginBegin env ctx (Sess.ofCookie c) begun) (fun out _ =>
      Gives (Issues env ctx c (.passkeyLoginBegin begun)) c out.cookie) db := by
  unfold passkeyLoginBegin
  split
  · exact Sat.pure (.refl c)
  split
  · exact Sat.pure (.refl c)
  split
  · exact Sat.pure (.refl c)
  refine ((Fed.ofCookie c).set
    (Gives.of_text .passkeyLogin rfl .passkeyLogin ?_ rfl rfl)).begun env _ db
  intro k hk
  cases k <;> first | rfl | exact absurd rfl hk

theorem gives_passkeyVerifyBegin (db : DB) :
    Sat (passkeyVerifyBegin env ctx (Sess.ofCookie c)) (fun out _ =>
      Gives (Issues env ctx c .passkeyVerifyBegin) c out.cookie) db := by
  unfold passkeyVerifyBegin
  split
  · exact Sat.pure (.refl c)
  refine (getSessionUser_sat (Sess.ofCookie c) db).bind ?_
  rintro r db₁ ⟨rfl, huser⟩
  cases r with
  | error e => exact Sat.pure (.refl c)
  | ok user =>
    obtain ⟨-, -, -, hid⟩ := huser user rfl
    refine (getPasskeyByUserID_sat user.id db₁).bind ?_
    rintro r db₂ ⟨rfl, hcredential⟩
    cases r with
    | error e => exact Sat.pure (.refl c)
    | ok credential =>
      obtain ⟨-, -, hown⟩ := hcredential credential rfl
      dsimp only
      split
      · exact Sat.pure (.refl c)
      split
      · exact Sat.pure (.refl c)
      rename_i hbegun
      refine ((Fed.ofCookie c).set (Gives.of_text .passkeyVerify rfl
        (.passkeyVerify hid hown hbegun) ?_ rfl rfl)).begun env _ db₂
      intro k hk
      cases k <;> first | rfl | exact absurd rfl hk

theorem gives_passkeyVerifyFinish (hs : Fed I c s) (body : String) (db : DB) :
    Sat (passkeyVerifyFinish env ctx s body) (fun out _ => Gives I c out.cookie) db := by
  refine Prog.Holds.mono (passkeyVerifyFinish_sat env ctx s body db) ?_
  rintro out - ⟨-, he | he⟩
  · rw [he]
    exact hs.saved
  · rw [he]
    refine hs.cur.trans (Gives.of_fewer (fun k => ?_) rfl rfl)
    cases k with
    | passkeyVerify => exact Or.inr rfl
    | _ => exact Or.inl rfl

theorem gives_passkeyRegisterBegin
    (beginRegistration : User → Option PasskeyCredential → Except Err (Json × String)) (db : DB) :
    Sat (passkeyRegisterBegin env ctx (Sess.ofCookie c) beginRegistration) (fun out _ =>
      Gives (Issues env ctx c (.passkeyRegisterBegin beginRegistration)) c out.cookie) db := by
  unfold passkeyRegisterBegin
  split
  · exact Sat.pure (.refl c)
  refine (getSessionUser_sat (Sess.ofCookie c) db).bind ?_
  rintro r db₁ ⟨rfl, huser⟩
  cases r with
  | error e => exact Sat.pure (.refl c)
  | ok user =>
    obtain ⟨-, -, -, hid⟩ := huser user rfl
    refine (Prog.Holds.trivial _ db₁).bind ?_
    rintro r db₂ -
    cases existingPasskey r with
    | error e => exact Sat.pure (.refl c)
    | ok credential =>
      dsimp only
      split
      · exact Sat.pure (.refl c)
      split
      · exact Sat.pure (.refl c)
      rename_i hbegun
      refine ((Fed.ofCookie c).set (Gives.of_text .passkeyRegistration rfl
        (.passkeyRegistration hid hbegun) ?_ rfl rfl)).begun env _ db₂
      intro k hk
      cases k <;> first | rfl | exact absurd rfl hk

theorem gives_passkeyRegisterFinish (hs : Fed I c s) (body : String) (db : DB) :
    Sat (passkeyRegisterFinish env ctx s body) (fun out _ => Gives I c out.cookie) db := by
  unfold passkeyRegisterFinish
  split
  · exact Sat.pure hs.saved
  refine (Prog.Holds.trivial _ db).bind ?_
  rintro (e | user) db₁ -
  · exact Sat.pure hs.saved
  dsimp only
  split
  · exact Sat.pure hs.saved
  refine (Prog.Holds.trivial _ db₁).bind ?_
  rintro r db₂ -
  split
  · exact Sat.pure hs.saved
  have hpop := hs.popRegistrationSession env
  split
  · rename_i he
    rw [he] at hpop
    exact Sat.pure hpop.saved
  rename_i he
  rw [he] at hpop
  split
  · exact Sat.pure hpop.saved
  refine (Prog.Holds.trivial _ db₂).bind ?_
  rintro (_ | e) db₃ -
  · exact Sat.pure hpop.saved
  · exact Sat.pure hpop.saved

/-- **What a handler puts into the session, it issues.** -/
theorem route_gives (hwhole : Whole c) (q : Request) (st : Store) :
    Gives (Issues env ctx c q) c (serve (route env (Sess.ofCookie c) ctx q) st).1.cookie := by
  have hs := Fed.ofCookie (I := Issues env ctx c q) c
  unfold route
  cases q with
  | login path => exact gives_loginPath hwhole path st
  | generateOAuthCode affCode => exact gives_generateOAuthCode affCode
  | logout => exact gives_logout
  | passkeyLoginBegin begun => exact (gives_passkeyLoginBegin begun st.db).serve
  | passkeyVerifyBegin => exact (gives_passkeyVerifyBegin st.db).serve
  | passkeyVerifyFinish body => exact (gives_passkeyVerifyFinish hs body st.db).serve
  | passkeyRegisterBegin begun => exact (gives_passkeyRegisterBegin begun st.db).serve
  | passkeyRegisterFinish body => exact (gives_passkeyRegisterFinish hs body st.db).serve
  | universalVerify req =>
    refine gives_stamped ?_
    obtain ⟨-, h | ⟨-, h, -⟩⟩ := (universalVerify_sat env ctx (Sess.ofCookie c) req st.db).serve
    · exact Or.inl h
    · exact Or.inr (Or.inr ⟨_, h⟩)
  | getVerificationStatus =>
    exact gives_stamped ((getVerificationStatus_cookie env ctx (Sess.ofCookie c)).2.imp_right Or.inl)
  | secured handler =>
    have hsaved := secureVerificationRequired_saved env ctx (Sess.ofCookie c)
    refine gives_stamped (Or.imp_right Or.inl ?_)
    dsimp only
    split
    · rename_i he
      rw [he] at hsaved
      exact hsaved
    · rename_i he
      rw [he] at hsaved
      rw [serve_bind]
      exact hsaved
  | rest minRole handler =>
    dsimp only
    rw [serve_bind]
    exact .refl c

end Gives

/-! ### What a client presents -/

/-- Whoever the request is from, the same texts are issued. -/
theorem Issues.of_toCtx {env : Env} {ctx : Ctx} {auth : Auth} {c : Session} {q : Request} {k : Slot}
    {v : String} (h : Issues env (auth.toCtx ctx) c q k v) : Issues env ctx c q k v := by
  cases h with
  | oauthState => exact .oauthState
  | passkeyLogin => exact .passkeyLogin
  | passkeyVerify hid hown hbegun => exact .passkeyVerify hid hown hbegun
  | passkeyRegistration hid hbegun => exact .passkeyRegistration hid hbegun

/-- Behind `authHelper` a request is refused, or comes to its handler on the same tables. -/
theorem respond_behind {a : Act Client} {c : Session} {role : Int}
    (hrole : minRole a.request = some role) :
    (∃ reply, (respond a c).1 = (Sess.ofCookie c).answer reply ∧
      (respond a c).2.db = a.store.db) ∨
    ∃ auth : Auth, ∃ st : Store, st.db = a.store.db ∧
      respond a c = serve (route a.env (Sess.ofCookie c) (auth.toCtx a.ctx) a.request) st := by
  have hdb := (authHelper_readOnly role c a.authorization).serve a.store
  unfold respond handle
  rw [hrole]
  dsimp only
  unfold behind
  rw [serve_bind]
  cases hauth : (serve (authHelper role (Sess.ofCookie c).cur a.authorization) a.store).1 with
  | error reply => exact Or.inl ⟨reply, rfl, hdb⟩
  | ok auth => exact Or.inr ⟨auth, _, hdb, rfl⟩

theorem respond_gives (a : Act Client) {c : Session} (hwhole : Whole c) :
    Gives (Issues a.env a.ctx c a.request) c (respond a c).1.cookie := by
  cases hrole : minRole a.request with
  | none =>
    unfold respond handle
    rw [hrole]
    exact route_gives hwhole a.request a.store
  | some role =>
    rcases respond_behind (c := c) hrole with ⟨reply, he, -⟩ | ⟨auth, st, -, he⟩
    · rw [he]
      exact .refl c
    · rw [he]
      have hgives : Gives (Issues a.env (auth.toCtx a.ctx) c a.request) c
          (serve (route a.env (Sess.ofCookie c) (auth.toCtx a.ctx) a.request) st).1.cookie :=
        route_gives hwhole a.request st
      exact ⟨fun k v hv => (hgives.texts k v hv).imp_right Issues.of_toCtx, hgives.whole⟩

variable [DecidableEq Client]

/-- The cookie that a request sends after a run. -/
abbrev sent (acts : List (Act Client)) (a : Act Client) : Session :=
  (server Client).presented ((server Client).handed acts) a

theorem sent_whole (acts : List (Act Client)) (a : Act Client) : Whole (sent acts a) := by
  refine (server Client).presented_invariant (fun h => ?_) ?_ acts a
  · cases h
  · intro b c hwhole
    exact (respond_gives b hwhole).whole hwhole

/-- The client was issued the text, in the answer to the request. -/
def IssuedTo (client : Client) (k : Slot) (v : String) (handed : Client → List Session)
    (b : Act Client) : Prop :=
  b.client = client ∧
    Issues b.env b.ctx ((server Client).presented handed b) b.request k v ∧
    k.value ((server Client).presented handed b) ≠ some v ∧
    k.value (respond b ((server Client).presented handed b)).1.cookie = some v

/-- **What a cookie holds was issued to the client that sends it.** -/
theorem issued (acts : List (Act Client)) (a : Act Client) {k : Slot} {v : String}
    (h : k.value (sent acts a) = some v) :
    (server Client).Earlier (IssuedTo a.client k v) acts := by
  have hblank : ¬ k.value (server Client).blank = some v := by
    rw [show (server Client).blank = {} from rfl, value_blank]
    intro he
    cases he
  obtain ⟨pre, b, post, rfl, hclient, hold, hnew⟩ :=
    (server Client).presented_origin (P := fun c => k.value c = some v) hblank acts a h
  refine ⟨pre, b, post, rfl, hclient, ?_, hold, hnew⟩
  rcases (respond_gives b (sent_whole pre b)).texts k v hnew with h' | h'
  · exact absurd h' hold
  · exact h'

/-! ### OAuth callbacks -/

/-- The state that a callback shows. -/
def callback : Request → Option String
  | .login (.gitHubOAuth req _) => some req.state
  | .login (.discordOAuth req _) => some req.state
  | .login (.oidcAuth req _) => some req.state
  | .login (.linuxdoOAuth _ req _) => some req.state
  | _ => none

/-- The request signs nobody in, and leaves the cookie and the database. -/
def Idle (a : Act Client) (c : Session) : Prop :=
  (respond a c).1.login = none ∧ (respond a c).1.cookie = c ∧ (respond a c).2 = a.store

omit [DecidableEq Client] in
/-- A callback with another state is refused before anything is looked up. -/
theorem idle_of_wrong_state {a : Act Client} {c : Session} {state : String}
    (hcallback : callback a.request = some state)
    (hwrong : sameState (Sess.ofCookie c) state = false) : Idle a c := by
  obtain ⟨client, resends, request, authorization, env, ctx, store⟩ := a
  cases request with
  | login path =>
    cases path with
    | gitHubOAuth req answer =>
      obtain rfl := Option.some.inj hcallback
      unfold Idle respond handle
      dsimp only [minRole, route, LoginGate.handle]
      unfold gitHubOAuth
      rw [hwrong]
      exact ⟨rfl, rfl, rfl⟩
    | discordOAuth req answer =>
      obtain rfl := Option.some.inj hcallback
      unfold Idle respond handle
      dsimp only [minRole, route, LoginGate.handle]
      unfold discordOAuth
      rw [hwrong]
      exact ⟨rfl, rfl, rfl⟩
    | oidcAuth req answer =>
      obtain rfl := Option.some.inj hcallback
      unfold Idle respond handle
      dsimp only [minRole, route, LoginGate.handle]
      unfold oidcAuth
      rw [hwrong]
      exact ⟨rfl, rfl, rfl⟩
    | linuxdoOAuth refusal req answer =>
      obtain rfl := Option.some.inj hcallback
      unfold Idle respond handle
      dsimp only [minRole, route, LoginGate.handle]
      unfold linuxdoOAuth
      cases refusal with
      | some errorDescription => exact ⟨rfl, rfl, rfl⟩
      | none =>
        dsimp only
        rw [hwrong]
        exact ⟨rfl, rfl, rfl⟩
    | _ => cases hcallback
  | _ => cases hcallback

/-- The client asked for a state, and was answered this one. -/
def Asked (client : Client) (state : String) (handed : Client → List Session) (b : Act Client) :
    Prop :=
  b.client = client ∧ (∃ affCode, b.request = .generateOAuthCode affCode) ∧
    b.ctx.randomString = state ∧
    (respond b ((server Client).presented handed b)).1.reply = .apiSuccess (.str state)

/-- A state that is in the new cookie is in the reply. -/
theorem generateOAuthCode_reply {env : Env} {ctx : Ctx} {c : Session} {affCode : String}
    (h : (generateOAuthCode env ctx (Sess.ofCookie c) affCode).cookie.oauthState ≠ c.oauthState) :
    (generateOAuthCode env ctx (Sess.ofCookie c) affCode).reply
      = .apiSuccess (.str ctx.randomString) := by
  have hsaved : (if affCode ≠ "" then (Sess.ofCookie c).set fun c => { c with aff := some affCode }
      else Sess.ofCookie c).saved = c := by
    split <;> rfl
  unfold generateOAuthCode at h ⊢
  dsimp only at h ⊢
  generalize (if affCode ≠ "" then (Sess.ofCookie c).set fun c => { c with aff := some affCode }
      else Sess.ofCookie c) = s at h hsaved ⊢
  unfold Sess.save at h ⊢
  cases hsave : env.saveError (s.set fun c => { c with oauthState := some ctx.randomString }).cur with
  | some e =>
    rw [hsave] at h
    exact absurd (congrArg Session.oauthState hsaved) h
  | none => rfl

omit [DecidableEq Client] in
theorem Asked.of_issued {client : Client} {state : String} {handed : Client → List Session}
    {b : Act Client} (h : IssuedTo client .oauthState state handed b) :
    Asked client state handed b := by
  obtain ⟨hclient, hissues, hold, hnew⟩ := h
  obtain ⟨bclient, resends, request, authorization, env, ctx, store⟩ := b
  dsimp only at hissues
  cases hissues with
  | @oauthState affCode =>
    refine ⟨hclient, ⟨affCode, rfl⟩, rfl, ?_⟩
    refine generateOAuthCode_reply fun hsame => ?_
    exact hold (hsame.symm.trans hnew)

/-- **An OAuth callback does nothing that its client did not ask for**: it is
refused, or its state was answered to the same client by `GenerateOAuthCode` before. -/
theorem callback_asked_for (acts : List (Act Client)) (a : Act Client) {state : String}
    (hcallback : callback a.request = some state) : Idle a (sent acts a) ∨
      state ≠ "" ∧ (server Client).Earlier (Asked a.client state) acts := by
  cases hstate : sameState (Sess.ofCookie (sent acts a)) state with
  | false => exact Or.inl (idle_of_wrong_state hcallback hstate)
  | true =>
    unfold sameState at hstate
    rw [Bool.and_eq_true, bne_iff_ne, beq_iff_eq] at hstate
    refine Or.inr ⟨hstate.1, ?_⟩
    exact (issued acts a (k := .oauthState) hstate.2).mono fun _ _ => Asked.of_issued

/-! ### Ceremonies -/

/-- The request finishes a ceremony: it signs somebody in, books a verification or
stores a credential. -/
def Finishes (a : Act Client) (c : Session) : Slot → Prop
  | .passkeyLogin => (∃ body, a.request = .login (.passkeyLoginFinish body)) ∧
      (respond a c).1.login ≠ none
  | .passkeyVerify => (∃ body, a.request = .passkeyVerifyFinish body) ∧
      (respond a c).1.checks ≠ []
  | .passkeyRegistration => (∃ body, a.request = .passkeyRegisterFinish body) ∧
      (respond a c).2.db.passkeys ≠ a.store.db.passkeys
  | .oauthState => False

/-- The library accepted the answer to the request's ceremony, against `data`. -/
inductive Accepts (a : Act Client) (data : String) : Slot → Prop
  | passkeyLogin {user : User} {credential : PasskeyCredential} {validated : WebAuthnCredential}
      {body : String} (hreq : a.request = .login (.passkeyLoginFinish body))
      (h : a.env.finishPasskeyLogin user credential data body = .ok validated) :
      Accepts a data .passkeyLogin
  | passkeyVerify {user : User} {credential : PasskeyCredential} {validated : WebAuthnCredential}
      {body : String} (hreq : a.request = .passkeyVerifyFinish body)
      (h : a.env.finishLogin user credential data body = .ok validated) :
      Accepts a data .passkeyVerify
  | passkeyRegistration {user : User} {record : Option PasskeyCredential}
      {credential : WebAuthnCredential} {body : String}
      (hreq : a.request = .passkeyRegisterFinish body)
      (h : a.env.finishRegistration user record data body = .ok credential) :
      Accepts a data .passkeyRegistration

section Ceremonies

variable {env : Env} {ctx : Ctx} {s : Sess}

theorem passkeyLoginFinish_accepts (body : String) (db : DB) :
    Sat (passkeyLoginFinish env ctx s body) (fun out _ => out.login ≠ none →
      ∃ data user credential validated, s.cur.passkeyLogin = some data ∧
        env.finishPasskeyLogin user credential data body = .ok validated) db := by
  have hnot : ∀ {P : Prop} {o : Option User}, o = none → o ≠ none → P := fun h hne => absurd h hne
  unfold passkeyLoginFinish
  split
  · exact Sat.pure (hnot rfl)
  split
  · exact Sat.pure (hnot rfl)
  unfold popLoginSession
  cases hdata : s.cur.passkeyLogin with
  | none => exact Sat.pure (hnot rfl)
  | some data =>
    dsimp only
    split
    · exact Sat.pure (hnot rfl)
    refine (Prog.Holds.trivial _ db).bind ?_
    rintro (e | ⟨user, credential⟩) db₁ -
    · exact Sat.pure (hnot rfl)
    dsimp only
    split
    · exact Sat.pure (hnot rfl)
    rename_i validated haccepted
    split
    · exact Sat.pure (hnot rfl)
    refine (Prog.Holds.trivial _ db₁).bind ?_
    rintro (_ | e) db₂ -
    · exact Sat.pure fun _ => ⟨data, user, credential, validated, rfl, haccepted⟩
    · exact Sat.pure (hnot rfl)

theorem passkeyVerifyFinish_accepts (body : String) (db : DB) :
    Sat (passkeyVerifyFinish env ctx s body) (fun out _ => out.checks ≠ [] →
      ∃ data user credential validated, s.cur.passkeyVerify = some data ∧
        env.finishLogin user credential data body = .ok validated) db := by
  have hnot : ∀ {P : Prop} {l : List (Int × Except Err Bool)}, l = [] → l ≠ [] → P :=
    fun h hne => absurd h hne
  unfold passkeyVerifyFinish
  split
  · exact Sat.pure (hnot rfl)
  refine (Prog.Holds.trivial _ db).bind ?_
  rintro (e | user) db₁ -
  · exact Sat.pure (hnot rfl)
  dsimp only
  split
  · exact Sat.pure (hnot rfl)
  refine (Prog.Holds.trivial _ db₁).bind ?_
  rintro (e | credential) db₂ -
  · exact Sat.pure (hnot rfl)
  unfold popVerifySession
  cases hdata : s.cur.passkeyVerify with
  | none => exact Sat.pure (hnot rfl)
  | some data =>
    dsimp only
    split
    · exact Sat.pure (hnot rfl)
    rename_i validated haccepted
    refine (Prog.Holds.trivial _ db₂).bind ?_
    rintro r db₃ -
    cases r <;> exact Sat.pure fun _ => ⟨data, user, credential, validated, rfl, haccepted⟩

theorem passkeyRegisterFinish_accepts (body : String) (db : DB) :
    Sat (passkeyRegisterFinish env ctx s body) (fun _ db' => db'.passkeys ≠ db.passkeys →
      ∃ data user record credential, s.cur.passkeyRegistration = some data ∧
        env.finishRegistration user record data body = .ok credential) db := by
  have hnot : ∀ {P : Prop}, db.passkeys ≠ db.passkeys → P := fun hne => absurd rfl hne
  unfold passkeyRegisterFinish
  split
  · exact Sat.pure hnot
  refine (getSessionUser_sat s db).bind ?_
  rintro r db₁ ⟨rfl, -⟩
  cases r with
  | error e => exact Sat.pure hnot
  | ok user =>
    dsimp only
    split
    · exact Sat.pure hnot
    refine (getPasskeyByUserID_sat user.id db₁).bind ?_
    rintro r db₂ ⟨rfl, -⟩
    cases existingPasskey r with
    | error e => exact Sat.pure hnot
    | ok record =>
      unfold popRegistrationSession
      cases hdata : s.cur.passkeyRegistration with
      | none => exact Sat.pure hnot
      | some data =>
        dsimp only
        split
        · exact Sat.pure hnot
        rename_i credential haccepted
        refine (Prog.Holds.trivial _ db₂).bind ?_
        rintro r db₃ -
        cases r <;> exact Sat.pure fun _ => ⟨data, user, record, credential, rfl, haccepted⟩

end Ceremonies

omit [DecidableEq Client] in
/-- A ceremony is finished with the data that the cookie holds of it. -/
theorem Finishes.accepts {a : Act Client} {c : Session} {k : Slot} (h : Finishes a c k) :
    ∃ data, k.value c = some data ∧ Accepts a data k := by
  obtain ⟨client, resends, request, authorization, env, ctx, store⟩ := a
  cases k with
  | oauthState => exact h.elim
  | passkeyLogin =>
    obtain ⟨⟨body, hreq⟩, hlogin⟩ := h
    dsimp only at hreq
    subst hreq
    have haccepts : Sat (passkeyLoginFinish env ctx (Sess.ofCookie c) body) _ store.db :=
      passkeyLoginFinish_accepts body store.db
    obtain ⟨data, user, credential, validated, hdata, haccepted⟩ := haccepts.serve hlogin
    exact ⟨data, hdata, .passkeyLogin rfl haccepted⟩
  | passkeyVerify =>
    obtain ⟨⟨body, hreq⟩, hchecks⟩ := h
    dsimp only at hreq
    subst hreq
    rcases respond_behind (c := c) (a := ⟨client, resends, .passkeyVerifyFinish body, authorization,
      env, ctx, store⟩) rfl with ⟨reply, he, -⟩ | ⟨auth, st, -, he⟩
    · rw [he] at hchecks
      exact absurd rfl hchecks
    · rw [he] at hchecks
      have haccepts : Sat (passkeyVerifyFinish env (auth.toCtx ctx) (Sess.ofCookie c) body) _ st.db :=
        passkeyVerifyFinish_accepts body st.db
      obtain ⟨data, user, credential, validated, hdata, haccepted⟩ := haccepts.serve hchecks
      exact ⟨data, hdata, .passkeyVerify rfl haccepted⟩
  | passkeyRegistration =>
    obtain ⟨⟨body, hreq⟩, hstored⟩ := h
    dsimp only at hreq
    subst hreq
    rcases respond_behind (c := c) (a := ⟨client, resends, .passkeyRegisterFinish body,
      authorization, env, ctx, store⟩) rfl with ⟨reply, -, hdb⟩ | ⟨auth, st, hdb, he⟩
    · rw [hdb] at hstored
      exact absurd rfl hstored
    · rw [he] at hstored
      dsimp only at hstored hdb
      rw [← hdb] at hstored
      have haccepts : Sat (passkeyRegisterFinish env (auth.toCtx ctx) (Sess.ofCookie c) body) _
        st.db := passkeyRegisterFinish_accepts body st.db
      obtain ⟨data, user, record, credential, hdata, haccepted⟩ := haccepts.serve hstored
      exact ⟨data, hdata, .passkeyRegistration rfl haccepted⟩

/-- **A ceremony that is finished was begun by the same client**, and what it ends
with was accepted against the data of that beginning. -/
theorem finished_begun (acts : List (Act Client)) (a : Act Client) {k : Slot}
    (h : Finishes a (sent acts a) k) : ∃ data, Accepts a data k ∧
      (server Client).Earlier (IssuedTo a.client k data) acts := by
  obtain ⟨data, hdata, haccepts⟩ := h.accepts
  exact ⟨data, haccepts, issued acts a hdata⟩

/-! ### Two clients -/

/-- A client asks for a state, another one begins a passkey login. -/
def twoClients : List (Act Bool) :=
  [{ client := false
     resends := none
     request := .generateOAuthCode ""
     env := Env.plain
     ctx := { Ctx.plain 0 with randomString := "state" }
     store := Store.ofDB ⟨Table.empty, Table.empty, Table.empty, Table.empty⟩ },
   { client := true
     resends := none
     request := .passkeyLoginBegin (.ok (.str "options", "challenge"))
     env := Env.plain
     ctx := Ctx.plain 0
     store := Store.ofDB ⟨Table.empty, Table.empty, Table.empty, Table.empty⟩ }]

/-- The second client is led to a callback with the state of the first. -/
def foreignCallback : Act Bool where
  client := true
  resends := some 0
  request := .login (.gitHubOAuth ⟨"state", "code"⟩ (.ok ⟨"mallory", "Mallory", ""⟩))
  env := { Env.plain with cfg := { gitHubOAuthEnabled := true } }
  ctx := Ctx.plain 0
  store := Store.ofDB ⟨Table.empty, Table.empty, Table.empty, Table.empty⟩

theorem foreignCallback_asked_for : Idle foreignCallback (sent twoClients foreignCallback) ∨
    "state" ≠ "" ∧ (server Bool).Earlier (Asked true "state") twoClients :=
  callback_asked_for twoClients foreignCallback rfl

/-- The second client finishes its login. -/
def finish : Act Bool where
  client := true
  resends := some 0
  request := .login (.passkeyLoginFinish "key")
  env := Env.plain
  ctx := Ctx.plain 0
  store := Store.ofDB
    { users := Table.single { id := 1, username := "bob", role := 1, status := 1, affCode := "B" }
      twoFAs := Table.empty
      backupCodes := Table.empty
      passkeys := Table.single { id := 1, userID := 1, credential := { id := "key" } } }

theorem finish_begun : ∃ data, Accepts finish data .passkeyLogin ∧
    (server Bool).Earlier (IssuedTo true .passkeyLogin data) twoClients :=
  finished_begun twoClients finish ⟨⟨"key", rfl⟩, by decide⟩

end AuthGateway.SessionOrigins
