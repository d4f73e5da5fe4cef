import AuthGateway.BrowserSession

/-!
# The second factor of a password login

A password login of a user who has two-factor authentication switched on takes
two requests: `Login` checks the password and leaves the user pending in the
session, `Verify2FALogin` checks a code of that user.  `Gated` says of one
request that it keeps to this.

`Login` asks `isTwoFAEnabled`, which answers "no" when its read fails, so a
request whose second read fails (`ReadFails`) goes straight to `setupLogin`.
**That is the only way around the gate** (`gated_iff`): a run keeps to it in
every step exactly when no request of it is such a login.  The argument is one
invariant: a user pending in the session has passed the password check in it.
-/

namespace AuthGateway.TwoFactorGate

open Common Model Controller BrowserSession GoString

/-- The request checked the password of the user `id`. -/
def PassedPassword (env : Env) (id : Int) (_ : Session) (a : Act) : Prop :=
  ∃ r u, a.request = .login (some r) ∧ Validates env a.store r u ∧ u.id = id

/-- If the request signs in a user who has two-factor authentication on, the
session has checked that user's password before, and the request presents an
accepted code of that user. -/
def Gated (env : Env) (acts : List Act) (a : Act) : Prop :=
  ∀ u, (respond env (Runs.after (step env) {} acts) a).1.login = some u →
    TwoFAOn (respond env (Runs.after (step env) {} acts) a).2.db u.id →
      Runs.Earlier (step env) {} (PassedPassword env u.id) acts ∧
        ∃ code, a.request = .verify2FALogin (some code) ∧
          Presents env a.store.db a.ctx.now u.id code ∧
          (u.id, .ok true) ∈ (respond env (Runs.after (step env) {} acts) a).1.checks

/-- A login with the right password of a user who has two-factor authentication
on, whose second read, that of `two_fas`, fails. -/
def ReadFails (env : Env) (a : Act) : Prop :=
  ∃ r u e, a.request = .login (some r) ∧ env.cfg.passwordLoginEnabled = true ∧
    r.username ≠ "" ∧ Accepted env a.store.db r.username r.password u ∧
    TwoFAOn a.store.db u.id ∧ a.store.outages 0 = none ∧ a.store.outages 1 = some e

/-! ### A pending user has passed the password check -/

theorem pending_step (env : Env) (c : Session) (a : Act) {id : Int}
    (h : (step env c a).pendingUserId = some id) :
    c.pendingUserId = some id ∨ PassedPassword env id c a := by
  have heffect := respond_effect env c a
  unfold step at h
  cases heffect with
  | kept _ hkeep =>
    rw [hkeep.2.2.1] at h
    exact Or.inl h
  | cleared _ hcookie =>
    rw [hcookie] at h
    exact nomatch h
  | pending r u hreq hpass _ hcookie =>
    rw [hcookie] at h
    exact Or.inr ⟨r, u, hreq, hpass, Option.some.inj h⟩
  | passwordLogin r u _ _ _ _ _ hcookie =>
    rcases hcookie with hcookie | hcookie
    · rw [hcookie] at h
      exact Or.inl h
    · rw [hcookie] at h
      exact Or.inl h
  | codeLogin code u _ _ _ _ _ hcookie =>
    rcases hcookie with hcookie | hcookie | hcookie
    · rw [hcookie] at h
      exact Or.inl h
    · rw [hcookie] at h
      exact nomatch h
    · rw [hcookie] at h
      exact nomatch h
  | stamped req auth _ _ _ hcookie _ =>
    rw [hcookie] at h
    exact Or.inl h

/-- **Whoever is pending in a session has passed the password check in it.** -/
theorem pending_passed (env : Env) (acts : List Act) {id : Int}
    (h : (Runs.after (step env) {} acts).pendingUserId = some id) :
    Runs.Earlier (step env) {} (PassedPassword env id) acts := by
  induction acts using List.reverseRecOn with
  | nil => exact nomatch h
  | append_singleton acts a ih =>
    rw [Runs.after_snoc] at h
    rw [Runs.earlier_snoc]
    rcases pending_step env _ a h with hpend | hpass
    · exact Or.inl (ih hpend)
    · exact Or.inr hpass

/-! ### The gate and the way around it -/

/-- `Login` leaves the database as it is. -/
theorem respond_login_db (env : Env) (c : Session) (a : Act) {r : Option LoginRequest}
    (hreq : a.request = .login r) : (respond env c a).2.db = a.store.db := by
  have hread := (login_readOnly env (Sess.ofCookie c) r).serve a.store
  unfold respond handle
  rw [hreq]
  exact hread

/-- A login that goes past two-factor authentication has had its read fail. -/
theorem readFails_of_login {env : Env} {a : Act} {r : LoginRequest} {u : User}
    (hreq : a.request = .login (some r)) (hon : env.cfg.passwordLoginEnabled = true)
    (hpass : Validates env a.store r u) (hoff : (serve (isTwoFAEnabled u.id) a.store.rest).1 = false)
    (htwoFA : TwoFAOn a.store.db u.id) : ReadFails env a := by
  obtain ⟨hout, hacc⟩ := (serve_validateAndFill env r.username r.password u a.store).mp hpass
  have hname : r.username ≠ "" := by
    intro hempty
    have htrim := hacc.1
    rw [hempty] at htrim
    exact htrim (by decide)
  have hid : u.id ≠ 0 := ne_of_gt (Table.key_pos hacc.row.1)
  cases hsecond : a.store.outages 1 with
  | none =>
    have hyes := (serve_isTwoFAEnabled_up hid (s := a.store.rest) hsecond).mpr htwoFA
    rw [hoff] at hyes
    exact absurd hyes Bool.false_ne_true
  | some e => exact ⟨r, u, e, hreq, hon, hname, hacc, htwoFA, hout, hsecond⟩

theorem gated_of_not_readFails {env : Env} (acts : List Act) {a : Act} (h : ¬ ReadFails env a) :
    Gated env acts a := by
  intro u hlogin htwoFA
  have heffect := respond_effect env (Runs.after (step env) {} acts) a
  cases heffect with
  | kept hnone _ => rw [hnone] at hlogin; exact nomatch hlogin
  | cleared hnone _ => rw [hnone] at hlogin; exact nomatch hlogin
  | pending _ _ _ _ hnone _ => rw [hnone] at hlogin; exact nomatch hlogin
  | passwordLogin r v hreq hon hpass hoff hsome _ =>
    rw [hsome] at hlogin
    obtain rfl := Option.some.inj hlogin
    rw [respond_login_db env _ a hreq] at htwoFA
    exact absurd (readFails_of_login hreq hon hpass hoff htwoFA) h
  | codeLogin code v hreq hpend hcode hcheck hsome _ =>
    rw [hsome] at hlogin
    obtain rfl := Option.some.inj hlogin
    exact ⟨pending_passed env acts hpend, code, hreq, hcode, hcheck⟩
  | stamped _ _ _ _ hnone _ _ => rw [hnone] at hlogin; exact nomatch hlogin

theorem not_gated_of_readFails {env : Env} (acts : List Act) {a : Act} (h : ReadFails env a) :
    ¬ Gated env acts a := by
  obtain ⟨r, u, e, hreq, hon, hname, hacc, htwoFA, hfirst, hsecond⟩ := h
  intro hgated
  have hpass : Validates env a.store r u :=
    (serve_validateAndFill env r.username r.password u a.store).mpr ⟨hfirst, hacc⟩
  have hoff : (serve (isTwoFAEnabled u.id) a.store.rest).1 = false :=
    serve_isTwoFAEnabled_down u.id (s := a.store.rest) hsecond
  have hout : (respond env (Runs.after (step env) {} acts) a).1
      = setupLogin env (Sess.ofCookie (Runs.after (step env) {} acts)) u := by
    unfold respond handle
    rw [hreq]
    exact serve_login_of_validates hon hname hpass hoff
  have hlogin : (respond env (Runs.after (step env) {} acts) a).1.login = some u := by
    rw [hout]
    exact setupLogin_login _ _ _
  rw [← respond_login_db env (Runs.after (step env) {} acts) a hreq] at htwoFA
  obtain ⟨-, code, hcode, -⟩ := hgated u hlogin htwoFA
  rw [hreq] at hcode
  exact nomatch hcode

/-- **The password login of a run never bypasses two-factor authentication,
exactly when no login of it has its read of `two_fas` fail.** -/
theorem gated_iff (env : Env) (acts : List Act) :
    Runs.Always (Gated env) acts ↔ ∀ a ∈ acts, ¬ ReadFails env a := by
  constructor
  · intro h a ha hfails
    obtain ⟨pre, post, he⟩ := List.append_of_mem ha
    exact not_gated_of_readFails pre hfails (h pre a post he)
  · intro h pre a post he
    have ha : a ∈ acts := by
      rw [he]
      exact List.mem_append_right pre List.mem_cons_self
    exact gated_of_not_readFails pre (h a ha)

/-! ### A login whose second read fails -/

def alice : User :=
  { id := 1, username := "alice", password := "#pw", role := 1, status := 1, affCode := "A" }

/-- Alice has two-factor authentication on. -/
def aliceDB : DB where
  users := Table.single alice
  twoFAs := Table.single { id := 1, userId := 1, secret := "123456", isEnabled := true }
  backupCodes := Table.empty
  passkeys := Table.empty

/-- Her login, with an outage at the second read. -/
def bypass : Act where
  request := .login (some { username := "alice", password := "pw" })
  ctx := Ctx.plain 0
  store := ⟨aliceDB, fun n => if n = 1 then some (.new "connection lost") else none⟩

theorem bypass_readFails : ReadFails Env.plain bypass := by
  have haccount : account aliceDB "alice" = some alice := by decide
  have hcompare : Env.plain.bcryptCompare alice.password "pw" = true := by decide
  refine ⟨{ username := "alice", password := "pw" }, alice, .new "connection lost", rfl, rfl,
    by decide, ⟨by decide, by decide, haccount, hcompare, rfl⟩, ?_, rfl, rfl⟩
  exact ⟨_, List.mem_singleton.mpr rfl, rfl, rfl, rfl⟩

/-- **One failed read, and a password alone signs in a user with two-factor
authentication on.** -/
theorem bypass_not_gated : ¬ Runs.Always (Gated Env.plain) [bypass] := by
  intro h
  exact not_gated_of_readFails [] bypass_readFails (h [] bypass [] rfl)

end AuthGateway.TwoFactorGate
