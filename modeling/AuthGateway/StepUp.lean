import AuthGateway.BrowserSession

/-!
# Step-up verification of a session

A request is let through to a protected operation when its session carries a
stamp that is less than `secureVerificationTimeout` seconds old.  `Verified`
says of one request what that is for: the user of the request has shown a second
factor in this session, and not longer ago than that.

Two things of the code work against it.  The passkey branch of `UniversalVerify`
stamps without looking for a finished ceremony, and `setupLogin` and the access
token change the user of a session without dropping the stamp.  `Honest` says of
one request that it uses neither, and **a run of honest requests is verified
throughout** (`verified_of_honest`).

The invariant is `StampInv`: the stamp of the cookie was set by a user who has
shown a second factor in that second or later, and whom the cookie names if it
names anyone.
-/

namespace AuthGateway.StepUp

open Common Model Controller Middleware BrowserSession

/-! ### Second factors and stamps -/

/-- The request showed a second factor of the user `w`: `UniversalVerify` had a
code of that user accepted, or `PasskeyVerifyFinish` an assertion. -/
def Proves (env : Env) (w : Int) (c : Session) (a : Act) : Prop :=
  ((∃ req, a.request = .universalVerify req) ∨ ∃ body, a.request = .passkeyVerifyFinish body) ∧
    (w, .ok true) ∈ (respond env c a).1.checks

/-- The request is a `UniversalVerify` of the user `w` that stamped the session. -/
def Stamps (env : Env) (w : Int) (c : Session) (a : Act) : Prop :=
  (∃ req auth, a.request = .universalVerify req ∧ authenticated c a = .ok auth ∧ auth.id = w) ∧
    step env c a = c.stamp (unix a.ctx.now) ∧
    ((w, .ok true) ∈ (respond env c a).1.checks ∨ PasskeyBranch env c a w)

/-- The last stamp of the session was set by `w`. -/
abbrev SetBy (env : Env) (w : Int) (acts : List Act) : Prop :=
  Runs.Latest (step env) {} (Stamps env) w acts

/-- If the request carries a fresh stamp, its user has shown a second factor in
this session in the last `secureVerificationTimeout` seconds. -/
def Verified (env : Env) (acts : List Act) (a : Act) : Prop :=
  ∀ auth v, authenticated (Runs.after (step env) {} acts) a = .ok auth →
    (Runs.after (step env) {} acts).secureVerifiedAt = some v → fresh a.ctx.now v = true →
      Runs.Earlier (step env) {} (fun c b => Proves env auth.id c b ∧
        a.ctx.now - b.ctx.now < secureVerificationTimeout * second) acts

theorem secureVerificationRequired_none {env : Env} {ctx : Ctx} {s : Sess} (hid : ctx.id ≠ 0) :
    (secureVerificationRequired env ctx s).1 = none ↔
      ∃ v, s.cur.secureVerifiedAt = some v ∧ fresh ctx.now v = true := by
  unfold secureVerificationRequired
  rw [if_neg hid]
  cases hv : s.cur.secureVerifiedAt with
  | none => simp
  | some v =>
    by_cases hfresh : fresh ctx.now v = true
    · simp [hfresh]
    · simp [hfresh]

/-- The request keeps to what a second factor is for:

* the passkey branch of `UniversalVerify` comes in the second of an accepted
  assertion of that user;
* nobody signs in over a stamp that someone else set;
* no access token is used with a fresh stamp that someone else set. -/
structure Honest (env : Env) (acts : List Act) (a : Act) : Prop where
  passkey : ∀ w, PasskeyBranch env (Runs.after (step env) {} acts) a w →
    Runs.Earlier (step env) {} (fun c b => Proves env w c b ∧ unix a.ctx.now ≤ unix b.ctx.now) acts
  login : ∀ u, (respond env (Runs.after (step env) {} acts) a).1.login = some u →
    (Runs.after (step env) {} acts).secureVerifiedAt.isSome = true →
      ∀ w, SetBy env w acts → w = u.id
  token : ∀ auth v, (Runs.after (step env) {} acts).username = none →
    authenticated (Runs.after (step env) {} acts) a = .ok auth →
    (Runs.after (step env) {} acts).secureVerifiedAt = some v → fresh a.ctx.now v = true →
      ∀ w, SetBy env w acts → w = auth.id

/-! ### The invariant -/

/-- The stamp of the cookie: who set it, and on what. -/
def StampInv (env : Env) (acts : List Act) : Prop :=
  ∀ v, (Runs.after (step env) {} acts).secureVerifiedAt = some v → ∃ w, SetBy env w acts ∧
    Runs.Earlier (step env) {} (fun c b => Proves env w c b ∧ v ≤ unix b.ctx.now) acts ∧
    ((Runs.after (step env) {} acts).username.isSome = true →
      (Runs.after (step env) {} acts).id = some w)

theorem id_of_authenticated {c : Session} {a : Act} {auth : Auth}
    (h : authenticated c a = .ok auth) (hname : c.username.isSome = true) :
    c.id = some auth.id := by
  obtain ⟨-, hauth⟩ := (authHelper_sat roleCommonUser c a.authorization a.store.db).serve
  rcases hauth auth h with hsession | htoken
  · exact hsession.2.1
  · rw [htoken.1] at hname
    exact absurd hname Bool.false_ne_true

theorem stampInv_of_stamps {env : Env} {acts : List Act} {a : Act} {w : Int}
    (hstamps : Stamps env w (Runs.after (step env) {} acts) a) (hhonest : Honest env acts a) :
    StampInv env (acts ++ [a]) := by
  intro v hv
  have hset : SetBy env w (acts ++ [a]) := Runs.latest_of_step hstamps
  obtain ⟨⟨req, auth, hreq, hauth, rfl⟩, hstep, hwhy⟩ := hstamps
  rw [Runs.after_snoc, hstep] at hv ⊢
  obtain rfl : unix a.ctx.now = v := Option.some.inj hv
  refine ⟨auth.id, hset, ?_, ?_⟩
  · rw [Runs.earlier_snoc]
    rcases hwhy with hcheck | hbranch
    · exact Or.inr ⟨⟨Or.inl ⟨req, hreq⟩, hcheck⟩, le_refl _⟩
    · exact Or.inl (hhonest.passkey auth.id hbranch)
  · intro hname
    exact id_of_authenticated hauth hname

/-- A request that leaves the stamp, and either the user of the session or a
session of the user who set it, keeps the invariant. -/
theorem stampInv_of_not_stamps {env : Env} {acts : List Act} {a : Act} (hinv : StampInv env acts)
    (hnot : ∀ w, ¬ Stamps env w (Runs.after (step env) {} acts) a)
    (hstamp : ∀ v, (step env (Runs.after (step env) {} acts) a).secureVerifiedAt = some v →
      (Runs.after (step env) {} acts).secureVerifiedAt = some v)
    (hid : ∀ w, SetBy env w acts →
      (Runs.after (step env) {} acts).secureVerifiedAt.isSome = true →
      ((Runs.after (step env) {} acts).username.isSome = true →
        (Runs.after (step env) {} acts).id = some w) →
      (step env (Runs.after (step env) {} acts) a).username.isSome = true →
      (step env (Runs.after (step env) {} acts) a).id = some w) :
    StampInv env (acts ++ [a]) := by
  intro v hv
  rw [Runs.after_snoc] at hv ⊢
  have hold := hstamp v hv
  obtain ⟨w, hset, hproof, hname⟩ := hinv v hold
  refine ⟨w, Runs.latest_of_not_step hset hnot, ?_, ?_⟩
  · rw [Runs.earlier_snoc]
    exact Or.inl hproof
  · exact hid w hset (by rw [hold]; rfl) hname

theorem stampInv_step {env : Env} {acts : List Act} {a : Act} (hinv : StampInv env acts)
    (hhonest : Honest env acts a) : StampInv env (acts ++ [a]) := by
  by_cases hstamps : ∃ w, Stamps env w (Runs.after (step env) {} acts) a
  · obtain ⟨w, hw⟩ := hstamps
    exact stampInv_of_stamps hw hhonest
  have hnot : ∀ w, ¬ Stamps env w (Runs.after (step env) {} acts) a := not_exists.mp hstamps
  -- a session that signs nobody in keeps its user
  have hsame : ∀ c, step env (Runs.after (step env) {} acts) a = c →
      c.username = (Runs.after (step env) {} acts).username →
      c.id = (Runs.after (step env) {} acts).id →
      (∀ v, c.secureVerifiedAt = some v →
        (Runs.after (step env) {} acts).secureVerifiedAt = some v) →
      StampInv env (acts ++ [a]) := by
    rintro c rfl husername hid hstamp
    refine stampInv_of_not_stamps hinv hnot hstamp ?_
    intro w _ _ hname
    rw [husername, hid]
    exact hname
  have hsigned : ∀ c u, (respond env (Runs.after (step env) {} acts) a).1.login = some u →
      step env (Runs.after (step env) {} acts) a = Session.signIn u c →
      c.secureVerifiedAt = (Runs.after (step env) {} acts).secureVerifiedAt →
      StampInv env (acts ++ [a]) := by
    intro c u hlogin hstep hstamp
    refine stampInv_of_not_stamps hinv hnot ?_ ?_
    · intro v hv
      rw [hstep] at hv
      rw [← hstamp]
      exact hv
    · intro w hset hsome _ _
      rw [hstep, hhonest.login u hlogin hsome w hset]
      rfl
  have heffect := respond_effect env (Runs.after (step env) {} acts) a
  cases heffect with
  | kept _ hkeep =>
    refine hsame _ rfl hkeep.2.1 hkeep.1 ?_
    intro v hv
    rcases hkeep.2.2.2 with he | he
    · rw [← he]
      exact hv
    · have hnone : (none : Option Int) = some v := he.symm.trans hv
      exact nomatch hnone
  | cleared _ hcookie =>
    intro v hv
    rw [Runs.after_snoc, show step env (Runs.after (step env) {} acts) a = {} from hcookie] at hv
    exact nomatch hv
  | pending r u _ _ _ hcookie => exact hsame _ hcookie rfl rfl fun v hv => hv
  | passwordLogin r u _ _ _ _ hlogin hcookie =>
    rcases hcookie with hcookie | hcookie
    · exact hsame _ hcookie rfl rfl fun v hv => hv
    · exact hsigned _ u hlogin hcookie rfl
  | codeLogin code u _ _ _ _ hlogin hcookie =>
    rcases hcookie with hcookie | hcookie | hcookie
    · exact hsame _ hcookie rfl rfl fun v hv => hv
    · exact hsame _ hcookie rfl rfl fun v hv => hv
    · exact hsigned _ u hlogin hcookie rfl
  | stamped req auth hreq hauth _ hcookie hwhy =>
    exact absurd ⟨⟨req, auth, hreq, hauth, rfl⟩, hcookie, hwhy⟩ (hnot auth.id)

/-! ### Runs of honest requests -/

theorem stampInv_of_honest (env : Env) (acts : List Act) (h : Runs.Always (Honest env) acts) :
    StampInv env acts := by
  refine Runs.run_induction ?_ ?_ acts h
  · intro v hv
    exact nomatch hv
  · intro acts a _ hinv hhonest
    exact stampInv_step hinv hhonest

/-- **In a run of honest requests, a fresh stamp means that the user of the
request has shown a second factor in the last five minutes.** -/
theorem verified_of_honest (env : Env) (acts : List Act) (h : Runs.Always (Honest env) acts) :
    Runs.Always (Verified env) acts := by
  intro pre a post he auth v hauth hv hfresh
  have hhonest := h pre a post he
  rw [he] at h
  obtain ⟨w, hset, hproof, hid⟩ := stampInv_of_honest env pre h.of_append v hv
  have hw : w = auth.id := by
    cases hname : (Runs.after (step env) {} pre).username with
    | none => exact hhonest.token auth v hname hauth hv hfresh w hset
    | some name =>
      have hsome : (Runs.after (step env) {} pre).username.isSome = true := by
        rw [hname]
        rfl
      exact Option.some.inj ((hid hsome).symm.trans (id_of_authenticated hauth hsome))
  rw [← hw]
  refine hproof.mono ?_
  rintro c b ⟨hproves, hle⟩
  have hlt : unix a.ctx.now - v < secureVerificationTimeout := by
    simpa [fresh] using hfresh
  exact ⟨hproves, sub_lt_of_unix (by omega)⟩

/-! ### A run that shows a second factor -/

theorem honest_of_unstamped {env : Env} {acts : List Act} {a : Act}
    (hstamp : (Runs.after (step env) {} acts).secureVerifiedAt = none)
    (hmethod : ∀ r, a.request = .universalVerify (.ok r) → r.method ≠ "passkey") :
    Honest env acts a where
  passkey := by
    intro w hbranch
    obtain ⟨⟨r, hreq, hpasskey⟩, -⟩ := hbranch
    exact absurd hpasskey (hmethod r hreq)
  login := by
    intro u _ hsome
    rw [hstamp] at hsome
    exact absurd hsome Bool.false_ne_true
  token := by
    intro auth v _ _ hv
    rw [hstamp] at hv
    exact nomatch hv

/-- Carol, who has a password and a TOTP secret. -/
def carolDB : DB where
  users := Table.single { id := 1, username := "carol", password := "#pw", role := 1, status := 1 }
  twoFAs := Table.single { id := 1, userId := 1, secret := "123456", isEnabled := true }
  backupCodes := Table.empty
  passkeys := Table.empty

def carolAct (request : Request) : Act where
  request := request
  ctx := Ctx.plain 0
  store := Store.ofDB carolDB

/-- She logs in, shows her code twice, and is let through. -/
def proven : List Act :=
  [carolAct (.login (some { username := "carol", password := "pw" })),
    carolAct (.verify2FALogin (some "123456")),
    carolAct (.universalVerify (.ok { method := "2fa", code := "123456" })),
    carolAct .secured]

/-- **With her TOTP code shown, a stamp of hers is verified.** -/
theorem verified_carol : (Runs.after (step Env.plain) {} proven).secureVerifiedAt = some 0 ∧
    Runs.Always (Verified Env.plain) proven := by
  refine ⟨by decide, verified_of_honest Env.plain proven ?_⟩
  have hsplit : proven = [] ++ [carolAct (.login (some { username := "carol", password := "pw" }))]
      ++ [carolAct (.verify2FALogin (some "123456"))]
      ++ [carolAct (.universalVerify (.ok { method := "2fa", code := "123456" }))]
      ++ [carolAct .secured] := rfl
  rw [hsplit, Runs.always_snoc, Runs.always_snoc, Runs.always_snoc, Runs.always_snoc]
  refine ⟨⟨⟨⟨Runs.always_nil, ?_⟩, ?_⟩, ?_⟩, ?_⟩
  · exact honest_of_unstamped (by decide) fun r h => nomatch h
  · exact honest_of_unstamped (by decide) fun r h => nomatch h
  · refine honest_of_unstamped (by decide) fun r h => ?_
    obtain rfl := Except.ok.inj (Request.universalVerify.inj h)
    decide
  · refine ⟨fun w h => ?_, fun u h => ?_, fun auth v h => ?_⟩
    · obtain ⟨⟨r, hreq, -⟩, -⟩ := h
      exact nomatch hreq
    · exact nomatch h
    · exact nomatch h

/-! ### A stamp for the asking -/

/-- Bob, who has a passkey. -/
def bobDB : DB where
  users := Table.single { id := 1, username := "bob", password := "#pw", role := 1, status := 1 }
  twoFAs := Table.empty
  backupCodes := Table.empty
  passkeys := Table.single { id := 1, userID := 1, credential := { id := "key" } }

def bobAct (request : Request) : Act where
  request := request
  ctx := Ctx.plain 0
  store := Store.ofDB bobDB

/-- Bob logs in with his password and asks to be verified by his passkey, with
no ceremony begun or finished. -/
def unproven : List Act :=
  [bobAct (.login (some { username := "bob", password := "pw" })),
    bobAct (.universalVerify (.ok { method := "passkey" }))]

theorem unproven_stamped : (Runs.after (step Env.plain) {} unproven).secureVerifiedAt = some 0 := by
  decide

/-- **The stamp needs no second factor**: a protected request of Bob is let
through after a password alone. -/
theorem unproven_not_verified :
    ¬ Runs.Always (Verified Env.plain) (unproven ++ [bobAct .secured]) := by
  intro h
  have hverified := h unproven (bobAct .secured) [] rfl
  have hauth : authenticated (Runs.after (step Env.plain) {} unproven) (bobAct .secured)
      = .ok ⟨"bob", 1, 1, some "", false⟩ := rfl
  have hproved := hverified _ 0 hauth unproven_stamped (by decide)
  have hsplit : unproven = ([] ++ [bobAct (.login (some { username := "bob", password := "pw" }))])
      ++ [bobAct (.universalVerify (.ok { method := "passkey" }))] := rfl
  rw [hsplit, Runs.earlier_snoc, Runs.earlier_snoc] at hproved
  -- neither of the two requests has a validator accept anything
  rcases hproved with (hnone | ⟨⟨-, hcheck⟩, -⟩) | ⟨⟨-, hcheck⟩, -⟩
  · exact Runs.not_earlier_nil hnone
  · exact nomatch hcheck
  · exact nomatch hcheck

end AuthGateway.StepUp
