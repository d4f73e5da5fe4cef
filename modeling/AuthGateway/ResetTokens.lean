import AuthGateway.Controller.PasswordReset
import AuthGateway.Lib.Threads

/-!
# Tokens of password resets

Requests that send a reset token and requests that reset a password with one run
side by side, for any e-mail addresses, while time passes.  A reset verifies its
token, updates the password and deletes the key: three steps, and the last goes
by the address, not by the token.

* `SingleUse`: a token changes the password at most once.
* `Independent`: a token that was issued is accepted until it expires, is used,
  or a newer one is issued.
* `Apart`: no request is accepted for a token while another one is under way with
  it, and no request deletes the key of a token other than its own.

Both fail (`used_twice_or_lost`): two requests are accepted for a token before
the first deletes the key, and a request deletes the key of a token issued after
it was accepted.  **Both hold in every run whose steps are apart**
(`once_and_independent`).
-/

namespace AuthGateway.ResetTokens

open Common Model Controller Prog
open Controller.PasswordReset hiding sendPasswordResetEmail resetPassword

/-! ### Requests, side by side -/

inductive Request
  | sendPasswordResetEmail (email : String)
  | resetPassword (req : Option PasswordResetRequest)

structure Act where
  request : Request
  cookie : Session := {}
  env : Env
  ctx : Ctx

def handle (a : Act) : ResetM Out :=
  let s := Sess.ofCookie a.cookie
  match a.request with
  | .sendPasswordResetEmail email => PasswordReset.sendPasswordResetEmail a.env a.ctx s email
  | .resetPassword req => PasswordReset.resetPassword a.ctx s req

/-- Time passes, again and again. -/
def clock : List Nat → ResetM (Option Out)
  | [] => return none
  | d :: rest => do
    reset (.pass d)
    clock rest

variable {ι : Type}

abbrev System (ι : Type) : Type := Prog.Config ResetOp ResetOp.Ans (Option Out) ResetStore (Option ι)

/-- The requests before their first step; no code is out. -/
def start (acts : ι → Act) (passes : List Nat) (now : Int) (database : Store) : System ι where
  threads
    | none => clock passes
    | some i => do
      let out ← handle (acts i)
      return some out
  store := { now := now, database := database }

/-- The token that a request sends, if it gets that far. -/
def Act.Sends (a : Act) (token : String) : Prop :=
  (∃ email, a.request = .sendPasswordResetEmail email) ∧ generateVerificationCode a.ctx.uuid 0 = token

/-- The request is a reset with this token. -/
def Act.Resets (a : Act) (email token : String) : Prop :=
  a.request = .resetPassword (some ⟨email, token⟩)

/-! ### Steps -/

/-- The key of the map. -/
abbrev resetKey (email : String) : String := passwordResetPurpose ++ email

/-- The step issues the token. -/
def Issues (email token : String) (c : System ι) (i : Option ι) : Prop :=
  ∃ k, c.threads i = call (.register email token passwordResetPurpose) k

/-- The step verifies the token. -/
def Verifies (email token : String) (c : System ι) (i : Option ι) : Prop :=
  ∃ k, c.threads i = call (.verify email token passwordResetPurpose) k

/-- The token is accepted. -/
def Accepted (email token : String) (c : System ι) : Prop :=
  c.store.codes.verify c.store.now email token passwordResetPurpose = true

/-- The step changes the password, for a reset with this token. -/
def Changes (acts : ι → Act) (email token : String) (c : System ι) (i : Option ι) : Prop :=
  (∃ j, i = some j ∧ (acts j).Resets email token) ∧
    ∃ p f k, c.threads i = call (.database (.userUpdates p f)) k ∧
      (resetExec (.database (.userUpdates p f)) c.store).1 = .ok ()

section
variable [DecidableEq ι]

/-- A step of the kind came earlier. -/
abbrev Earlier (s₀ : System ι) (E : System ι → Option ι → Prop) (pre : List (Option ι)) : Prop :=
  Runs.Earlier (step resetExec) s₀ E pre

/-- **A token changes the password at most once.** -/
def SingleUse (acts : ι → Act) (s₀ : System ι) : List (Option ι) → Prop :=
  Runs.Always fun pre i => ∀ email token, Changes acts email token (play resetExec s₀ pre) i →
    ¬ Earlier s₀ (Changes acts email token) pre

/-- **A token that was issued is accepted** unless it is expired, was used, or a
newer one was issued. -/
def Independent (acts : ι → Act) (s₀ : System ι) : List (Option ι) → Prop :=
  Runs.Always fun pre i => ∀ email token, Verifies email token (play resetExec s₀ pre) i →
    ∀ before j after, pre = before ++ j :: after →
      Issues email token (play resetExec s₀ before) j →
      Accepted email token (play resetExec s₀ pre) ∨
        (VerificationValue.mk token (play resetExec s₀ before).store.now).expired
          (play resetExec s₀ pre).store.now = true ∨
        Earlier s₀ (Changes acts email token) pre ∨
        ∃ mid j' rest token', after = mid ++ j' :: rest ∧
          Issues email token' (play resetExec s₀ (before ++ j :: mid)) j'

/-- The reset has verified its token and has not returned. -/
def UnderWay (acts : ι → Act) (email token : String) (c : System ι) (j : ι) : Prop :=
  (acts j).Resets email token ∧ (∃ o k, c.threads (some j) = call o k) ∧
    ¬ Verifies email token c (some j)

/-- **The requests with a token are apart**, and a request deletes no token but
its own. -/
structure Apart (acts : ι → Act) (s₀ : System ι) (pre : List (Option ι)) (i : Option ι) : Prop where
  accept : ∀ email token, Verifies email token (play resetExec s₀ pre) i →
    Accepted email token (play resetExec s₀ pre) →
    ∀ j, some j ≠ i → ¬ UnderWay acts email token (play resetExec s₀ pre) j
  delete : ∀ email k, (play resetExec s₀ pre).threads i
      = call (.deleteKey email passwordResetPurpose) k →
    ∀ v, (play resetExec s₀ pre).store.codes.get? (resetKey email) = some v →
      ∃ j, i = some j ∧ (acts j).Resets email v.code

end

/-! ### Where a request is -/

/-- How far a request is, and with which token. -/
inductive Stage
  | sending (token : String)
  | asking (email token : String)
  | accepted (email token : String)
  | changed (email token : String)
  | over

/-- What a request may do next, and how far it is then. -/
inductive Next : Stage → ResetStore → ResetOp → Stage → Prop
  | pass {s : ResetStore} {d : Nat} : Next .over s (.pass d) .over
  | look {s : ResetStore} {token : String} {o : DBOp} (ho : o.isRead = true) :
      Next (.sending token) s (.database o) (.sending token)
  | issue {s : ResetStore} {email token : String} :
      Next (.sending token) s (.register email token passwordResetPurpose) .over
  | accept {s : ResetStore} {email token : String}
      (h : s.codes.verify s.now email token passwordResetPurpose = true) :
      Next (.asking email token) s (.verify email token passwordResetPurpose)
        (.accepted email token)
  | refuse {s : ResetStore} {email token : String}
      (h : s.codes.verify s.now email token passwordResetPurpose = false) :
      Next (.asking email token) s (.verify email token passwordResetPurpose) .over
  | change {s : ResetStore} {email token : String} {p : User → Bool} {f : User → User}
      (h : (resetExec (.database (.userUpdates p f)) s).1 = .ok ()) :
      Next (.accepted email token) s (.database (.userUpdates p f)) (.changed email token)
  | fail {s : ResetStore} {email token : String} {p : User → Bool} {f : User → User} {e : Err}
      (h : (resetExec (.database (.userUpdates p f)) s).1 = .error e) :
      Next (.accepted email token) s (.database (.userUpdates p f)) .over
  | delete {s : ResetStore} {email token : String} :
      Next (.changed email token) s (.deleteKey email passwordResetPurpose) .over

/-- A request that has changed the password deletes the key before it returns. -/
def Ended {α : Type} (l : Stage) (_ : α) : Prop := ∀ email token, l ≠ .changed email token

abbrev Goes {α : Type} (p : ResetM α) (l : Stage) : Prop := Follows resetExec Next Ended p l

/-- The stage of a request before its first step. -/
def stage (a : Act) : Stage :=
  match a.request with
  | .sendPasswordResetEmail _ => .sending (generateVerificationCode a.ctx.uuid 0)
  | .resetPassword none => .over
  | .resetPassword (some req) => .asking req.email req.token

theorem clock_goes (passes : List Nat) : Goes (clock passes) .over := by
  induction passes with
  | nil => exact fun _ _ h => nomatch h
  | cons d rest ih => exact fun s => ⟨_, .pass, ih⟩

theorem taken_goes (email token : String) :
    Follows resetExec Next (fun l _ => l = .sending token)
      (onDatabase (isEmailAlreadyTaken email)) (.sending token) := by
  intro s
  refine ⟨_, .look rfl, ?_⟩
  generalize (resetExec (.database (.userFind true fun u => u.email == email)) s).1 = answer
  cases answer with
  | ok n => exact rfl
  | error e => exact rfl

theorem send_goes (env : Env) (ctx : Ctx) (s : Sess) (email : String) :
    Goes (PasswordReset.sendPasswordResetEmail env ctx s email)
      (.sending (generateVerificationCode ctx.uuid 0)) := by
  unfold PasswordReset.sendPasswordResetEmail
  by_cases hvalid : env.validEmail email = true
  · simp only [hvalid, Bool.not_true, Bool.false_eq_true, if_false]
    refine (taken_goes email _).bind ?_
    rintro taken l rfl
    cases taken with
    | false => exact fun _ _ h => nomatch h
    | true =>
      intro st
      refine ⟨_, .issue, ?_⟩
      simp only
      cases ctx.sendEmailError with
      | none => exact fun _ _ h => nomatch h
      | some e => exact fun _ _ h => nomatch h
  · simp only [Bool.not_eq_true] at hvalid
    simp only [hvalid, Bool.not_false, if_true]
    exact fun _ _ h => nomatch h

/-- Where the update of the password leaves a request. -/
def Updated (email token : String) (l : Stage) : Option Err → Prop
  | none => l = .changed email token
  | some _ => ∀ email token, l ≠ .changed email token

theorem update_goes (ctx : Ctx) (email token password : String) :
    Follows resetExec Next (Updated email token)
      (onDatabase (resetUserPasswordByEmail ctx email password)) (.accepted email token) := by
  unfold resetUserPasswordByEmail
  split
  · exact fun _ _ h => nomatch h
  · cases ctx.password2Hash password with
    | error e => exact fun _ _ h => nomatch h
    | ok hashedPassword =>
      intro s
      cases hanswer : (resetExec (.database (.userUpdates (fun u => u.email == email)
          fun u => { u with password := hashedPassword })) s).1 with
      | ok _ =>
        refine ⟨_, .change hanswer, ?_⟩
        exact rfl
      | error e =>
        refine ⟨_, .fail hanswer, ?_⟩
        exact fun _ _ h => nomatch h

theorem reset_goes (ctx : Ctx) (s : Sess) (req : PasswordResetRequest) :
    Goes (PasswordReset.resetPassword ctx s (some req)) (.asking req.email req.token) := by
  unfold PasswordReset.resetPassword
  simp only
  split
  · exact fun _ _ h => nomatch h
  · intro st
    cases hverify : (resetExec (.verify req.email req.token passwordResetPurpose) st).1 with
    | false =>
      refine ⟨_, .refuse hverify, ?_⟩
      exact fun _ _ h => nomatch h
    | true =>
      refine ⟨_, .accept hverify, ?_⟩
      refine (update_goes ctx req.email req.token _).bind ?_
      intro answer l hl
      cases answer with
      | some e => exact hl
      | none =>
        obtain rfl : l = .changed req.email req.token := hl
        intro st'
        refine ⟨_, .delete, ?_⟩
        exact fun _ _ h => nomatch h

theorem handle_goes (a : Act) : Goes (handle a) (stage a) := by
  unfold handle stage
  cases a.request with
  | sendPasswordResetEmail email => exact send_goes a.env a.ctx _ email
  | resetPassword req =>
    cases req with
    | none => exact fun _ _ h => nomatch h
    | some req => exact reset_goes a.ctx _ req

/-! ### One step -/

/-- The stage speaks of a reset with this token. -/
def Stage.With (email token : String) : Stage → Prop
  | asking e t | accepted e t | changed e t => e = email ∧ t = token
  | _ => False

section Step

variable {acts : ι → Act} {c : System ι} {l : Option ι → Stage} {i : Option ι} {o : ResetOp}
  {k : o.Ans → ResetM (Option Out)} {l' : Stage}

/-- The stages are those of the requests' own tokens. -/
structure Owned (acts : ι → Act) (l : Option ι → Stage) : Prop where
  resets : ∀ i email token, (l i).With email token → ∃ j, i = some j ∧ (acts j).Resets email token
  sends : ∀ i token, l i = .sending token → ∃ j, i = some j ∧ (acts j).Sends token

theorem next_with {s : ResetStore} {l l' : Stage} (h : Next l s o l') {email token : String}
    (hl' : l'.With email token) : l.With email token := by
  cases h <;> first | exact hl' | exact hl'.elim

theorem next_sending {s : ResetStore} {l l' : Stage} (h : Next l s o l') {token : String}
    (hl' : l' = .sending token) : l = .sending token := by
  cases h <;> first | exact hl' | exact nomatch hl'

theorem Owned.next [DecidableEq ι] {s : ResetStore} (howned : Owned acts l)
    (hnext : Next (l i) s o l') : Owned acts (Function.update l i l') := by
  constructor
  · intro j email token hj
    by_cases hne : j = i
    · subst hne
      rw [Function.update_self] at hj
      exact howned.resets j email token (next_with hnext hj)
    · rw [Function.update_of_ne hne] at hj
      exact howned.resets j email token hj
  · intro j token hj
    by_cases hne : j = i
    · subst hne
      rw [Function.update_self] at hj
      exact howned.sends j token (next_sending hnext hj)
    · rw [Function.update_of_ne hne] at hj
      exact howned.sends j token hj

theorem Act.Resets.unique {a : Act} {email token email' token' : String}
    (h : a.Resets email token) (h' : a.Resets email' token') : email = email' ∧ token = token' := by
  unfold Act.Resets at h h'
  rw [h] at h'
  simpa using h'

theorem Owned.resets_eq (howned : Owned acts l) {email token email' token' : String}
    (hl : (l i).With email token) (h : ∃ j, i = some j ∧ (acts j).Resets email' token') :
    email = email' ∧ token = token' := by
  obtain ⟨j, rfl, hj⟩ := howned.resets i email token hl
  obtain ⟨j', hj', hresets⟩ := h
  obtain rfl : j = j' := Option.some.inj hj'
  exact hj.unique hresets

/-- A step that changes the password for a token is the step of a request that
was accepted for it. -/
theorem stage_of_changes (howned : Owned acts l) (hi : c.threads i = call o k)
    (hnext : Next (l i) c.store o l') {email token : String} (h : Changes acts email token c i) :
    l i = .accepted email token ∧ l' = .changed email token := by
  obtain ⟨hresets, p, f, k', hi', hanswer⟩ := h
  obtain ⟨rfl, -⟩ : o = .database (.userUpdates p f) ∧ HEq k k' := by
    simpa using hi.symm.trans hi'
  generalize hl : l i = stage at hnext
  cases hnext with
  | look ho => exact absurd ho (by simp [DBOp.isRead])
  | change hchange =>
    obtain ⟨rfl, rfl⟩ := howned.resets_eq (by rw [hl]; exact ⟨rfl, rfl⟩) hresets
    exact ⟨rfl, rfl⟩
  | fail hfail =>
    rw [hfail] at hanswer
    exact nomatch hanswer

theorem changes_of_stage (howned : Owned acts l) (hi : c.threads i = call o k)
    (hnext : Next (l i) c.store o l') {email token : String} (h : l' = .changed email token) :
    Changes acts email token c i := by
  generalize hl : l i = stage at hnext
  cases hnext with
  | change hchange =>
    obtain ⟨rfl, rfl⟩ := Stage.changed.inj h
    exact ⟨howned.resets i _ _ (by rw [hl]; exact ⟨rfl, rfl⟩), _, _, k, hi, hchange⟩
  | _ => exact nomatch h

/-- The request was accepted for the token and may yet change the password, or
has just changed it. -/
def Holding (c : System ι) (l : Option ι → Stage) (email token : String) (i : Option ι) : Prop :=
  (l i = .accepted email token ∧ ∃ o k, c.threads i = call o k) ∨ l i = .changed email token

theorem Holding.resets {email token : String} (h : Holding c l email token i) :
    (l i).With email token := by
  rcases h with ⟨h, -⟩ | h
  · rw [h]
    exact ⟨rfl, rfl⟩
  · rw [h]
    exact ⟨rfl, rfl⟩

/-- A request that holds a token is under way. -/
theorem Holding.underWay {email token : String} {j : ι} (howned : Owned acts l)
    (hfollows : Goes (c.threads (some j)) (l (some j))) (h : Holding c l email token (some j)) :
    UnderWay acts email token c j := by
  obtain ⟨j', hj', hresets⟩ := howned.resets _ _ _ h.resets
  obtain rfl : j = j' := Option.some.inj hj'
  have hcall : ∃ o k, c.threads (some j) = call o k := by
    rcases h with ⟨-, h⟩ | h
    · exact h
    · cases hthread : c.threads (some j) with
      | ret out =>
        rw [hthread, h] at hfollows
        exact absurd rfl (hfollows email token)
      | call o k => exact ⟨o, k, rfl⟩
  refine ⟨hresets, hcall, ?_⟩
  rintro ⟨k, hk⟩
  rw [hk] at hfollows
  obtain ⟨l', hnext, -⟩ := hfollows c.store
  rcases h with ⟨h, -⟩ | h
  · rw [h] at hnext
    exact nomatch hnext
  · rw [h] at hnext
    exact nomatch hnext

end Step

/-! ### What is out -/

/-- The token is under the key of the address. -/
def Out? (codes : VerificationMap) (email token : String) : Prop :=
  ∃ time, (resetKey email, ⟨token, time⟩) ∈ codes.entries

/-- **What a step makes of the codes**: it issues one, deletes those of a key, or
leaves them; and no step turns the clock back. -/
theorem next_codes {s : ResetStore} {l l' : Stage} {o : ResetOp} (h : Next l s o l') :
    s.now ≤ (resetExec o s).2.now ∧
      ((∃ email token, o = .register email token passwordResetPurpose ∧ l = .sending token) ∨
        (∃ email token, o = .deleteKey email passwordResetPurpose ∧ l = .changed email token ∧
          l' = .over) ∨
        (resetExec o s).2.codes = s.codes) := by
  cases h with
  | pass =>
    refine ⟨?_, Or.inr (Or.inr rfl)⟩
    simp [resetExec]
  | issue => exact ⟨le_refl _, Or.inl ⟨_, _, rfl, rfl⟩⟩
  | delete => exact ⟨le_refl _, Or.inr (Or.inl ⟨_, _, rfl, rfl, rfl⟩)⟩
  | _ => exact ⟨le_refl _, Or.inr (Or.inr rfl)⟩

/-- What is out after a step was out before it, or was issued by it. -/
theorem out_next {s : ResetStore} {l l' : Stage} {o : ResetOp} (h : Next l s o l')
    {email token : String} (hout : Out? (resetExec o s).2.codes email token) :
    Out? s.codes email token ∨ l = .sending token := by
  obtain ⟨time, hmem⟩ := hout
  rcases (next_codes h).2 with ⟨email', token', rfl, hl⟩ | ⟨email', token', rfl, -, -⟩ | hsame
  · rcases VerificationMap.mem_register hmem with he | ⟨he, -⟩
    · have htoken : token = token' := by
        have hvalue := congrArg (fun e => e.2.code) he
        exact hvalue
      rw [htoken]
      exact Or.inr hl
    · exact Or.inl ⟨time, he⟩
  · exact Or.inl ⟨time, (VerificationMap.mem_delete.mp hmem).1⟩
  · rw [hsame] at hmem
    exact Or.inl ⟨time, hmem⟩

/-! ### The invariant -/

section Run

variable [DecidableEq ι] {acts : ι → Act} {s₀ : System ι} {pre : List (Option ι)}
  {l : Option ι → Stage}

/-- A token that was issued is still out, or there is a reason why it is not. -/
def Fate (acts : ι → Act) (s₀ : System ι) (pre : List (Option ι)) : Prop :=
  ∀ before j after email token, pre = before ++ j :: after →
    Issues email token (play resetExec s₀ before) j →
    (play resetExec s₀ pre).store.codes.get? (resetKey email)
        = some ⟨token, (play resetExec s₀ before).store.now⟩ ∨
      (VerificationValue.mk token (play resetExec s₀ before).store.now).expired
        (play resetExec s₀ pre).store.now = true ∨
      Earlier s₀ (Changes acts email token) pre ∨
      ∃ mid j' rest token', after = mid ++ j' :: rest ∧
        Issues email token' (play resetExec s₀ (before ++ j :: mid)) j'

structure Inv (acts : ι → Act) (s₀ : System ι) (pre : List (Option ι)) (l : Option ι → Stage) :
    Prop where
  owned : Owned acts l
  /-- A token that is not issued yet is nowhere. -/
  unsent : ∀ i token, l i = .sending token → ∀ email,
    ¬ Out? (play resetExec s₀ pre).store.codes email token ∧
      ¬ Earlier s₀ (Changes acts email token) pre ∧ ∀ j, l j ≠ .accepted email token
  /-- A token is held by one request at most. -/
  alone : ∀ email token i j, Holding (play resetExec s₀ pre) l email token i →
    Holding (play resetExec s₀ pre) l email token j → i = j
  /-- A token that has changed the password is about to be deleted, or it is out no more. -/
  spent : ∀ email token, Earlier s₀ (Changes acts email token) pre →
    (∀ i, Holding (play resetExec s₀ pre) l email token i → l i = .changed email token) ∧
      ((∃ i, l i = .changed email token) ∨
        ¬ Out? (play resetExec s₀ pre).store.codes email token)
  used : ∀ i email token, l i = .changed email token → Earlier s₀ (Changes acts email token) pre
  fate : Fate acts s₀ pre

/-- What one step of a run does. -/
structure Step (acts : ι → Act) (s₀ : System ι) (pre : List (Option ι)) (l : Option ι → Stage)
    (i : Option ι) (o : ResetOp) (l' : Stage) : Prop where
  inv : Inv acts s₀ pre l
  apart : Apart acts s₀ pre i
  follows : ∀ j, Goes ((play resetExec s₀ pre).threads j) (l j)
  call : ∃ k, (play resetExec s₀ pre).threads i = call o k
  next : Next (l i) (play resetExec s₀ pre).store o l'

variable {i : Option ι} {o : ResetOp} {l' : Stage}

namespace Step

theorem store (h : Step acts s₀ pre l i o l') :
    (play resetExec s₀ (pre ++ [i])).store = (resetExec o (play resetExec s₀ pre).store).2 := by
  obtain ⟨k, hi⟩ := h.call
  rw [play_append, play_cons, play_nil, step_call resetExec hi]

theorem threads_of_ne {j : Option ι} (hne : j ≠ i) :
    (play resetExec s₀ (pre ++ [i])).threads j = (play resetExec s₀ pre).threads j := by
  rw [play_append, play_cons, play_nil]
  exact step_threads_of_ne resetExec _ hne

theorem earlier {E : System ι → Option ι → Prop} :
    Earlier s₀ E (pre ++ [i]) ↔ Earlier s₀ E pre ∨ E (play resetExec s₀ pre) i := Runs.earlier_snoc

theorem changes_iff (h : Step acts s₀ pre l i o l') {email token : String} :
    Changes acts email token (play resetExec s₀ pre) i ↔ l' = .changed email token := by
  obtain ⟨k, hi⟩ := h.call
  constructor
  · intro hchanges
    exact (stage_of_changes h.inv.owned hi h.next hchanges).2
  · intro hl'
    exact changes_of_stage h.inv.owned hi h.next hl'

/-- What a thread that the step is not of holds, it held before. -/
theorem holding_of_ne {j : Option ι} (hne : j ≠ i) {email token : String}
    (hj : Holding (play resetExec s₀ (pre ++ [i])) (Function.update l i l') email token j) :
    Holding (play resetExec s₀ pre) l email token j := by
  unfold Holding at hj ⊢
  rw [Function.update_of_ne hne, threads_of_ne hne] at hj
  exact hj

/-- A thread that holds a token after its step held it before, or was just
accepted for it. -/
theorem holding_self (h : Step acts s₀ pre l i o l') {email token : String}
    (hi : Holding (play resetExec s₀ (pre ++ [i])) (Function.update l i l') email token i) :
    Holding (play resetExec s₀ pre) l email token i ∧ l' = .changed email token ∨
      Verifies email token (play resetExec s₀ pre) i ∧
        Accepted email token (play resetExec s₀ pre) ∧ l' = .accepted email token := by
  obtain ⟨k, hcall⟩ := h.call
  unfold Holding at hi
  rw [Function.update_self] at hi
  have hnext := h.next
  generalize hl : l i = stage at hnext
  cases hnext with
  | accept haccept =>
    rcases hi with ⟨hi, -⟩ | hi
    · obtain ⟨rfl, rfl⟩ := Stage.accepted.inj hi
      exact Or.inr ⟨⟨k, hcall⟩, haccept, rfl⟩
    · exact nomatch hi
  | change hchange =>
    rcases hi with ⟨hi, -⟩ | hi
    · exact nomatch hi
    · obtain ⟨rfl, rfl⟩ := Stage.changed.inj hi
      exact Or.inl ⟨Or.inl ⟨hl, _, k, hcall⟩, rfl⟩
  | _ => rcases hi with ⟨hi, -⟩ | hi <;> exact nomatch hi

/-- When a request is accepted for a token, no other holds it. -/
theorem not_holding (h : Step acts s₀ pre l i o l') {email token : String}
    (hverifies : Verifies email token (play resetExec s₀ pre) i)
    (haccepted : Accepted email token (play resetExec s₀ pre)) {j : Option ι} (hne : j ≠ i) :
    ¬ Holding (play resetExec s₀ pre) l email token j := by
  intro hj
  obtain ⟨j', rfl, -⟩ := h.inv.owned.resets j email token hj.resets
  exact h.apart.accept email token hverifies haccepted j' hne
    (hj.underWay h.inv.owned (h.follows (some j')))

theorem unsent (h : Step acts s₀ pre l i o l')
    (hdistinct : ∀ i j token, (acts i).Sends token → (acts j).Sends token → i = j)
    {j : Option ι} {token : String} (hj : Function.update l i l' j = .sending token)
    (email : String) :
    ¬ Out? (play resetExec s₀ (pre ++ [i])).store.codes email token ∧
      ¬ Earlier s₀ (Changes acts email token) (pre ++ [i]) ∧
      ∀ j', Function.update l i l' j' ≠ .accepted email token := by
  have hbefore : l j = .sending token := by
    by_cases hne : j = i
    · subst hne
      rw [Function.update_self] at hj
      exact next_sending h.next hj
    · rw [Function.update_of_ne hne] at hj
      exact hj
  obtain ⟨hout, hchanged, haccepted⟩ := h.inv.unsent j token hbefore email
  -- the request that would issue the token now is the one that has not
  have hissue : ∀ token', l' = .over → l i = .sending token' → token' ≠ token := by
    rintro token' hl' hi rfl
    obtain ⟨i', rfl, hsends⟩ := h.inv.owned.sends i token' hi
    obtain ⟨j', rfl, hsends'⟩ := h.inv.owned.sends j token' hbefore
    obtain rfl := hdistinct i' j' token' hsends hsends'
    rw [Function.update_self, hl'] at hj
    exact nomatch hj
  refine ⟨?_, ?_, ?_⟩
  · rw [h.store]
    intro hnow
    have hnext := h.next
    rcases out_next hnext hnow with hold | hi
    · exact hout hold
    · rw [hi] at hnext
      cases hnext with
      | look => exact hout hnow
      | issue => exact hissue token rfl hi rfl
  · rw [earlier, h.changes_iff]
    rintro (hold | hl')
    · exact hchanged hold
    · obtain ⟨k, hcall⟩ := h.call
      have hstage := stage_of_changes h.inv.owned hcall h.next (h.changes_iff.mpr hl')
      exact haccepted i hstage.1
  · intro j'
    by_cases hne : j' = i
    · subst hne
      rw [Function.update_self]
      rintro rfl
      have hnext := h.next
      generalize l j' = stage at hnext
      cases hnext with
      | accept haccept => exact hout (VerificationMap.mem_of_verify haccept)
    · rw [Function.update_of_ne hne]
      exact haccepted j'

theorem alone (h : Step acts s₀ pre l i o l') {email token : String} {j j' : Option ι}
    (hj : Holding (play resetExec s₀ (pre ++ [i])) (Function.update l i l') email token j)
    (hj' : Holding (play resetExec s₀ (pre ++ [i])) (Function.update l i l') email token j') :
    j = j' := by
  by_cases hne : j = i
  · subst hne
    by_cases hne' : j' = j
    · exact hne'.symm
    · rcases h.holding_self hj with ⟨hbefore, -⟩ | ⟨hverifies, haccepted, -⟩
      · exact h.inv.alone email token j j' hbefore (holding_of_ne hne' hj')
      · exact absurd (holding_of_ne hne' hj') (h.not_holding hverifies haccepted hne')
  · by_cases hne' : j' = i
    · subst hne'
      rcases h.holding_self hj' with ⟨hbefore, -⟩ | ⟨hverifies, haccepted, -⟩
      · exact h.inv.alone email token j j' (holding_of_ne hne hj) hbefore
      · exact absurd (holding_of_ne hne hj) (h.not_holding hverifies haccepted hne)
    · exact h.inv.alone email token j j' (holding_of_ne hne hj) (holding_of_ne hne' hj')

/-- **A token that has changed the password is not accepted again.** -/
theorem not_accepted (h : Step acts s₀ pre l i o l') {email token : String}
    (hchanged : Earlier s₀ (Changes acts email token) pre)
    (hverifies : Verifies email token (play resetExec s₀ pre) i) :
    ¬ Accepted email token (play resetExec s₀ pre) := by
  intro haccepted
  rcases (h.inv.spent email token hchanged).2 with ⟨j, hj⟩ | hgone
  · have hne : j ≠ i := by
      rintro rfl
      obtain ⟨k, hk⟩ := hverifies
      have hfollows := h.follows j
      rw [hk, hj] at hfollows
      obtain ⟨l'', hnext, -⟩ := hfollows (play resetExec s₀ pre).store
      exact nomatch hnext
    exact h.not_holding hverifies haccepted hne (Or.inr hj)
  · exact hgone (VerificationMap.mem_of_verify haccepted)

theorem spent (h : Step acts s₀ pre l i o l') {email token : String}
    (hearlier : Earlier s₀ (Changes acts email token) (pre ++ [i])) :
    (∀ j, Holding (play resetExec s₀ (pre ++ [i])) (Function.update l i l') email token j →
        Function.update l i l' j = .changed email token) ∧
      ((∃ j, Function.update l i l' j = .changed email token) ∨
        ¬ Out? (play resetExec s₀ (pre ++ [i])).store.codes email token) := by
  obtain ⟨k, hcall⟩ := h.call
  rw [earlier, h.changes_iff] at hearlier
  by_cases hl' : l' = .changed email token
  · -- the step changes the password
    have hself : Function.update l i l' i = .changed email token := by
      rw [Function.update_self]
      exact hl'
    refine ⟨?_, Or.inl ⟨i, hself⟩⟩
    intro j hj
    obtain rfl := h.alone hj (Or.inr hself)
    exact hself
  · have hchanged := hearlier.resolve_right hl'
    obtain ⟨hholding, hgone⟩ := h.inv.spent email token hchanged
    constructor
    · intro j hj
      by_cases hne : j = i
      · subst hne
        rcases h.holding_self hj with ⟨-, hl''⟩ | ⟨hverifies, haccepted, -⟩
        · exact absurd hl'' hl'
        · exact absurd haccepted (h.not_accepted hchanged hverifies)
      · rw [Function.update_of_ne hne]
        exact hholding j (holding_of_ne hne hj)
    · rw [h.store]
      rcases hgone with ⟨j, hj⟩ | hgone
      · by_cases hne : j = i
        · -- the step deletes the key
          subst hne
          right
          have hnext := h.next
          rw [hj] at hnext
          cases hnext with
          | delete =>
            rintro ⟨time, hmem⟩
            exact (VerificationMap.mem_delete.mp hmem).2 rfl
        · exact Or.inl ⟨j, by rw [Function.update_of_ne hne]; exact hj⟩
      · right
        intro hnow
        rcases out_next h.next hnow with hold | hi
        · exact hgone hold
        · exact (h.inv.unsent i token hi email).2.1 hchanged

theorem used (h : Step acts s₀ pre l i o l') {email token : String} {j : Option ι}
    (hj : Function.update l i l' j = .changed email token) :
    Earlier s₀ (Changes acts email token) (pre ++ [i]) := by
  rw [earlier, h.changes_iff]
  by_cases hne : j = i
  · subst hne
    rw [Function.update_self] at hj
    exact Or.inr hj
  · rw [Function.update_of_ne hne] at hj
    exact Or.inl (h.inv.used j email token hj)

theorem fate (h : Step acts s₀ pre l i o l') : Fate acts s₀ (pre ++ [i]) := by
  intro before j after email token he hissues
  rcases Runs.eq_snoc_split he with ⟨rfl, rfl, rfl⟩ | ⟨after', rfl, hpre⟩
  · -- the step issues the token
    obtain ⟨k, hk⟩ := hissues
    left
    rw [play_append, play_cons, play_nil, step_call resetExec hk]
    exact VerificationMap.get?_register_self _ _ email token passwordResetPurpose
  · have hnewer : ∀ token', Issues email token' (play resetExec s₀ pre) i →
        ∃ mid j' rest token', after' ++ [i] = mid ++ j' :: rest ∧
          Issues email token' (play resetExec s₀ (before ++ j :: mid)) j' := by
      intro token' hi
      refine ⟨after', i, [], token', rfl, ?_⟩
      rw [← hpre]
      exact hi
    obtain ⟨hclock, hcodes⟩ := next_codes h.next
    obtain ⟨k, hcall⟩ := h.call
    rw [h.store]
    rcases h.inv.fate before j after' email token hpre hissues with hget | hexpired | hchanged |
      ⟨mid, j', rest, token', rfl, hnew⟩
    · by_cases hexpired : (VerificationValue.mk token (play resetExec s₀ before).store.now).expired
        (play resetExec s₀ pre).store.now = true
      · exact Or.inr (Or.inl (VerificationValue.expired_mono hclock hexpired))
      · rw [Bool.not_eq_true] at hexpired
        rcases hcodes with ⟨email', token', rfl, -⟩ | ⟨email', token', rfl, hl, -⟩ | hsame
        · by_cases hkey : email' = email
          · subst hkey
            exact Or.inr (Or.inr (Or.inr (hnewer token' ⟨k, hcall⟩)))
          · refine Or.inl (VerificationMap.get?_register_of_ne hget ?_ hexpired)
            intro hkeys
            exact hkey ((String.append_right_inj passwordResetPurpose).mp hkeys).symm
        · by_cases hkey : email' = email
          · subst hkey
            have hown := h.apart.delete email' k hcall _ hget
            obtain ⟨-, rfl⟩ := h.inv.owned.resets_eq (by rw [hl]; exact ⟨rfl, rfl⟩) hown
            exact Or.inr (Or.inr (Or.inl (earlier.mpr (Or.inl (h.inv.used i email' _ hl)))))
          · refine Or.inl (VerificationMap.get?_delete_of_ne hget ?_)
            intro hkeys
            exact hkey ((String.append_right_inj passwordResetPurpose).mp hkeys).symm
        · rw [hsame]
          exact Or.inl hget
    · exact Or.inr (Or.inl (VerificationValue.expired_mono hclock hexpired))
    · exact Or.inr (Or.inr (Or.inl (earlier.mpr (Or.inl hchanged))))
    · refine Or.inr (Or.inr (Or.inr ⟨mid, j', rest ++ [i], token', ?_, hnew⟩))
      rw [List.append_assoc, List.cons_append]

theorem inv_snoc (h : Step acts s₀ pre l i o l')
    (hdistinct : ∀ i j token, (acts i).Sends token → (acts j).Sends token → i = j) :
    Inv acts s₀ (pre ++ [i]) (Function.update l i l') where
  owned := h.inv.owned.next h.next
  unsent _ _ hj email := h.unsent hdistinct hj email
  alone _ _ _ _ hj hj' := h.alone hj hj'
  spent _ _ hearlier := h.spent hearlier
  used _ _ _ hj := h.used hj
  fate := h.fate

end Step

/-- A thread that has returned changes nothing. -/
theorem Inv.idle {answer : Option Out} (hinv : Inv acts s₀ pre l)
    (hi : (play resetExec s₀ pre).threads i = ret answer) : Inv acts s₀ (pre ++ [i]) l := by
  have hsame : play resetExec s₀ (pre ++ [i]) = play resetExec s₀ pre := by
    rw [play_append, play_cons, play_nil, step_ret resetExec hi]
  have hearlier : ∀ email token, Earlier s₀ (Changes acts email token) (pre ++ [i]) ↔
      Earlier s₀ (Changes acts email token) pre := by
    intro email token
    rw [Step.earlier]
    constructor
    · rintro (hold | ⟨-, p, f, k, hcall, -⟩)
      · exact hold
      · exact nomatch hi.symm.trans hcall
    · exact Or.inl
  refine ⟨hinv.owned, ?_, ?_, ?_, ?_, ?_⟩
  · intro j token hj email
    rw [hsame, hearlier]
    exact hinv.unsent j token hj email
  · rw [hsame]
    exact hinv.alone
  · intro email token
    rw [hsame, hearlier]
    exact hinv.spent email token
  · intro j email token hj
    rw [hearlier]
    exact hinv.used j email token hj
  · intro before j after email token he hissues
    rcases Runs.eq_snoc_split he with ⟨rfl, rfl, -⟩ | ⟨after', rfl, hpre⟩
    · obtain ⟨k, hk⟩ := hissues
      exact nomatch hi.symm.trans hk
    · rw [hsame, hearlier]
      refine (hinv.fate before j after' email token hpre hissues).imp_right fun h =>
        h.imp_right fun h => h.imp_right ?_
      rintro ⟨mid, j', rest, token', rfl, hnew⟩
      exact ⟨mid, j', rest ++ [i], token', by rw [List.append_assoc, List.cons_append], hnew⟩

end Run

/-- The stage of every thread before its first step. -/
def stages (acts : ι → Act) : Option ι → Stage
  | none => .over
  | some i => stage (acts i)

theorem stage_cases (a : Act) :
    (∃ email, a.request = .sendPasswordResetEmail email ∧
        stage a = .sending (generateVerificationCode a.ctx.uuid 0)) ∨
      (∃ email token, a.Resets email token ∧ stage a = .asking email token) ∨
      stage a = .over := by
  unfold stage Act.Resets
  cases a.request with
  | sendPasswordResetEmail email => exact Or.inl ⟨email, rfl, rfl⟩
  | resetPassword req =>
    cases req with
    | none => exact Or.inr (Or.inr rfl)
    | some req => exact Or.inr (Or.inl ⟨req.email, req.token, rfl, rfl⟩)

theorem stages_owned (acts : ι → Act) : Owned acts (stages acts) := by
  constructor
  · intro i email token h
    cases i with
    | none => exact h.elim
    | some j =>
      rw [stages] at h
      rcases stage_cases (acts j) with ⟨email', -, hl⟩ | ⟨email', token', hresets, hl⟩ | hl
      · rw [hl] at h
        exact h.elim
      · rw [hl] at h
        obtain ⟨rfl, rfl⟩ := h
        exact ⟨j, rfl, hresets⟩
      · rw [hl] at h
        exact h.elim
  · intro i token h
    cases i with
    | none => exact nomatch h
    | some j =>
      rw [stages] at h
      rcases stage_cases (acts j) with ⟨email, hrequest, hl⟩ | ⟨email', token', -, hl⟩ | hl
      · rw [hl] at h
        exact ⟨j, rfl, ⟨email, hrequest⟩, Stage.sending.inj h⟩
      · rw [hl] at h
        exact nomatch h
      · rw [hl] at h
        exact nomatch h

theorem stages_goes (acts : ι → Act) (passes : List Nat) (now : Int) (database : Store)
    (i : Option ι) : Goes ((start acts passes now database).threads i) (stages acts i) := by
  cases i with
  | none => exact clock_goes passes
  | some i => exact (handle_goes (acts i)).bind fun _ _ h => h

theorem stages_inv [DecidableEq ι] (acts : ι → Act) (passes : List Nat) (now : Int)
    (database : Store) : Inv acts (start acts passes now database) [] (stages acts) := by
  have hfirst : ∀ i email token, stages acts i ≠ .accepted email token ∧
      stages acts i ≠ .changed email token := by
    intro i email token
    cases i with
    | none => simp [stages]
    | some i =>
      rw [stages]
      rcases stage_cases (acts i) with ⟨email', -, hl⟩ | ⟨email', token', -, hl⟩ | hl
      all_goals simp [hl]
  refine ⟨stages_owned acts, ?_, ?_, ?_, ?_, ?_⟩
  · intro i token _ email
    refine ⟨?_, Runs.not_earlier_nil, fun j => (hfirst j email token).1⟩
    rintro ⟨time, hmem⟩
    exact nomatch hmem
  · intro email token i j hi _
    rcases hi with ⟨hi, -⟩ | hi
    · exact absurd hi (hfirst i email token).1
    · exact absurd hi (hfirst i email token).2
  · intro email token h
    exact absurd h Runs.not_earlier_nil
  · intro i email token h
    exact absurd h (hfirst i email token).2
  · intro before j after email token he
    exact absurd he (by simp)

/-- The state of a run whose steps are apart. -/
theorem inv_run [DecidableEq ι] {acts : ι → Act}
    (hdistinct : ∀ i j token, (acts i).Sends token → (acts j).Sends token → i = j)
    (passes : List Nat) (now : Int) (database : Store) {sched : List (Option ι)}
    (h : Runs.Always (Apart acts (start acts passes now database)) sched) :
    ∃ l, (∀ j, Goes ((play resetExec (start acts passes now database) sched).threads j) (l j)) ∧
      Inv acts (start acts passes now database) sched l :=
  ghost_run_following (stages_goes acts passes now database) (stages_inv acts passes now database)
    (fun _ _ _ _ hinv hi => hinv.idle hi)
    (fun _ _ _ _ k _ hfollows _ hinv hapart hi hnext =>
      Step.inv_snoc ⟨hinv, hapart, hfollows, ⟨k, hi⟩, hnext⟩ hdistinct) sched h

/-- **Tokens are used once and do not disturb each other** in a run whose steps are
apart, when the generator gives every request a UUID of its own. -/
theorem once_and_independent {ι : Type} [DecidableEq ι] (acts : ι → Act)
    (huuid : Function.Injective fun i => (acts i).ctx.uuid) (passes : List Nat) (now : Int)
    (database : Store) {sched : List (Option ι)}
    (h : Runs.Always (Apart acts (start acts passes now database)) sched) :
    SingleUse acts (start acts passes now database) sched ∧
      Independent acts (start acts passes now database) sched := by
  have hdistinct : ∀ i j token, (acts i).Sends token → (acts j).Sends token → i = j := by
    rintro i j token ⟨-, hi⟩ ⟨-, hj⟩
    exact huuid (hi.trans hj.symm)
  constructor
  · intro pre i post he email token hchanges hbefore
    rw [he] at h
    obtain ⟨l, hfollows, hinv⟩ := inv_run hdistinct passes now database h.of_append
    obtain ⟨p, f, k, hi, -⟩ := hchanges.2
    have hthread := hfollows i
    rw [hi] at hthread
    obtain ⟨l', hnext, -⟩ := hthread _
    have hstage := (stage_of_changes hinv.owned hi hnext hchanges).1
    have hnow := (hinv.spent email token hbefore).1 i (Or.inl ⟨hstage, _, _, hi⟩)
    rw [hstage] at hnow
    exact nomatch hnow
  · intro pre i post he email token hverifies before j after hpre hissues
    rw [he] at h
    obtain ⟨l, -, hinv⟩ := inv_run hdistinct passes now database h.of_append
    rcases hinv.fate before j after email token hpre hissues with hget | hexcuse
    · by_cases hexpired : (VerificationValue.mk token
          (play resetExec (start acts passes now database) before).store.now).expired
          (play resetExec (start acts passes now database) pre).store.now = true
      · exact Or.inr (Or.inl hexpired)
      · rw [Bool.not_eq_true] at hexpired
        exact Or.inl (VerificationMap.verify_of_get? hget hexpired)
    · exact Or.inr hexcuse

/-! ### Two tokens for one address -/

def judyDB : DB where
  users := Table.single { id := 1, username := "judy", email := "judy@example.com", affCode := "j" }
  twoFAs := Table.empty
  backupCodes := Table.empty
  passkeys := Table.empty

/-- A token is sent and two resets come with it; another one is sent and a reset
comes with that. -/
def forgetful : Fin 5 → Act
  | 0 => ⟨.sendPasswordResetEmail "judy@example.com", {}, .plain, { Ctx.plain 0 with uuid := "A" }⟩
  | 1 => ⟨.resetPassword (some ⟨"judy@example.com", "A"⟩), {}, .plain,
    { Ctx.plain 0 with uuid := "x" }⟩
  | 2 => ⟨.resetPassword (some ⟨"judy@example.com", "A"⟩), {}, .plain,
    { Ctx.plain 0 with uuid := "y" }⟩
  | 3 => ⟨.sendPasswordResetEmail "judy@example.com", {}, .plain, { Ctx.plain 0 with uuid := "B" }⟩
  | 4 => ⟨.resetPassword (some ⟨"judy@example.com", "B"⟩), {}, .plain,
    { Ctx.plain 0 with uuid := "z" }⟩

abbrev forgot : System (Fin 5) := start forgetful [] 0 (Store.ofDB judyDB)

/-- Both resets are accepted before either changes the password. -/
def twice : List (Option (Fin 5)) := [some 0, some 0, some 1, some 2, some 1, some 2]

/-- The second token is sent when the first reset is about to delete the key. -/
def overtaken : List (Option (Fin 5)) :=
  [some 0, some 0, some 1, some 1, some 3, some 3, some 1, some 4]

/-- The resets of the two tokens. -/
theorem resets_forgetful {j : Fin 5} :
    ((forgetful j).Resets "judy@example.com" "A" → j = 1 ∨ j = 2) ∧
      ((forgetful j).Resets "judy@example.com" "B" → j = 4) := by
  unfold Act.Resets forgetful
  match j with
  | 0 | 1 | 2 | 3 | 4 => simp

theorem changes_first : Changes forgetful "judy@example.com" "A"
    (play resetExec forgot [some 0, some 0, some 1, some 2]) (some 1) :=
  ⟨⟨1, rfl, rfl⟩, _, _, _, rfl, rfl⟩

theorem changes_second : Changes forgetful "judy@example.com" "A"
    (play resetExec forgot [some 0, some 0, some 1, some 2, some 1]) (some 2) :=
  ⟨⟨2, rfl, rfl⟩, _, _, _, rfl, rfl⟩

/-- **One token changes the password twice, and one is refused that nobody used.** -/
theorem used_twice_or_lost :
    ¬ SingleUse forgetful forgot twice ∧ ¬ Independent forgetful forgot overtaken := by
  constructor
  · intro h
    exact h [some 0, some 0, some 1, some 2, some 1] (some 2) [] rfl "judy@example.com" "A"
      changes_second ⟨[some 0, some 0, some 1, some 2], some 1, [], rfl, changes_first⟩
  · intro h
    rcases h [some 0, some 0, some 1, some 1, some 3, some 3, some 1] (some 4) [] rfl
      "judy@example.com" "B" ⟨_, rfl⟩ [some 0, some 0, some 1, some 1, some 3] (some 3) [some 1] rfl
      ⟨_, rfl⟩ with haccepted | hexpired | ⟨before, i, after, he, ⟨j, rfl, hresets⟩, -⟩ |
        ⟨mid, i, rest, token, he, k, hk⟩
    · exact absurd haccepted (by unfold Accepted; decide)
    · exact absurd hexpired (by decide)
    · obtain rfl := resets_forgetful.2 hresets
      have hmem : (some 4 : Option (Fin 5)) ∈
          [some 0, some 0, some 1, some 1, some 3, some 3, some 1] := by
        rw [he]
        simp
      exact absurd hmem (by decide)
    · obtain ⟨rfl, rfl, rfl⟩ : mid = [] ∧ i = some 1 ∧ rest = [] := by
        cases mid with
        | nil => simpa [eq_comm] using he
        | cons a mid => simp at he
      exact nomatch hk

/-- One reset after the other. -/
def inTurn : List (Option (Fin 5)) :=
  [some 0, some 0, some 1, some 1, some 1, some 3, some 3, some 4, some 4, some 4, some 2]

section
variable {acts : Fin 5 → Act} {s₀ : System (Fin 5)} {pre : List (Option (Fin 5))}
  {i : Option (Fin 5)}

theorem apart_of_other {o : ResetOp} (h : performed (play resetExec s₀ pre) i = [(i, o)])
    (hverify : ∀ email token purpose, o ≠ .verify email token purpose)
    (hdelete : ∀ email purpose, o ≠ .deleteKey email purpose) : Apart acts s₀ pre i := by
  constructor
  · rintro email token ⟨k, hk⟩
    rw [performed_call hk] at h
    exact absurd (Prod.mk.inj (List.cons.inj h).1).2.symm (hverify _ _ _)
  · intro email k hk
    rw [performed_call hk] at h
    exact absurd (Prod.mk.inj (List.cons.inj h).1).2.symm (hdelete _ _)

theorem apart_of_verify {email token : String}
    (h : performed (play resetExec s₀ pre) i = [(i, .verify email token passwordResetPurpose)])
    (hothers : ∀ j, some j ≠ i → (acts j).Resets email token →
      performed (play resetExec s₀ pre) (some j) = [] ∨
        Verifies email token (play resetExec s₀ pre) (some j)) : Apart acts s₀ pre i := by
  constructor
  · rintro email' token' ⟨k, hk⟩ - j hj ⟨hresets, ⟨o, k', hcall⟩, hverifies⟩
    rw [performed_call hk] at h
    obtain ⟨rfl, rfl⟩ : email' = email ∧ token' = token := by simpa using h
    rcases hothers j hj hresets with hreturned | hasks
    · rw [performed_call hcall] at hreturned
      exact nomatch hreturned
    · exact hverifies hasks
  · intro email' k hk
    rw [performed_call hk] at h
    simp at h

theorem apart_of_delete {email : String}
    (h : performed (play resetExec s₀ pre) i = [(i, .deleteKey email passwordResetPurpose)])
    (hown : ∀ v, (play resetExec s₀ pre).store.codes.get? (resetKey email) = some v →
      ∃ j, i = some j ∧ (acts j).Resets email v.code) : Apart acts s₀ pre i := by
  constructor
  · rintro email' token' ⟨k, hk⟩
    rw [performed_call hk] at h
    simp at h
  · intro email' k hk v hv
    rw [performed_call hk] at h
    obtain rfl : email' = email := by simpa using h
    exact hown v hv

end

theorem inTurn_once_and_independent :
    SingleUse forgetful forgot inTurn ∧ Independent forgetful forgot inTurn := by
  refine once_and_independent forgetful ?_ [] 0 (Store.ofDB judyDB) ?_
  · intro i j
    revert i j
    decide
  · show Runs.Always (Apart forgetful forgot) (([] : List (Option (Fin 5))) ++ [some 0] ++ [some 0]
      ++ [some 1] ++ [some 1] ++ [some 1] ++ [some 3] ++ [some 3] ++ [some 4] ++ [some 4]
      ++ [some 4] ++ [some 2])
    simp only [Runs.always_snoc]
    refine ⟨⟨⟨⟨⟨⟨⟨⟨⟨⟨⟨Runs.always_nil, ?_⟩, ?_⟩, ?_⟩, ?_⟩, ?_⟩, ?_⟩, ?_⟩, ?_⟩, ?_⟩, ?_⟩, ?_⟩
    case refine_3 =>
      refine apart_of_verify rfl fun j hj hresets => ?_
      rcases resets_forgetful.1 hresets with rfl | rfl
      · exact absurd rfl hj
      · exact Or.inr ⟨_, rfl⟩
    case refine_5 =>
      refine apart_of_delete rfl fun v hv => ⟨1, rfl, ?_⟩
      obtain rfl := Option.some.inj hv
      exact rfl
    case refine_8 =>
      refine apart_of_verify rfl fun j hj hresets => ?_
      obtain rfl := resets_forgetful.2 hresets
      exact absurd rfl hj
    case refine_10 =>
      refine apart_of_delete rfl fun v hv => ⟨4, rfl, ?_⟩
      obtain rfl := Option.some.inj hv
      exact rfl
    case refine_11 =>
      refine apart_of_verify rfl fun j hj hresets => ?_
      rcases resets_forgetful.1 hresets with rfl | rfl
      · exact Or.inl rfl
      · exact absurd rfl hj
    all_goals exact apart_of_other rfl (by simp) (by simp)

end AuthGateway.ResetTokens
