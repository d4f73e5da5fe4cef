import AuthGateway.Model.Identity
import AuthGateway.Accounts

/-!
# An outside identity belongs to one account

Logins, registrations, bindings and soft deletions run side by side, one
statement at a time.  No index and no transaction keeps an identity unique: a
request *looks* whether an id is held, or what a row holds, and writes later.

* `Looks`: the statement tells the request that an id is free, or that a row has it.
* `Gives`: the statement gives an id to a row that did not have it.
* `Clear`: since the request looked, the id it gives now was given to no other
  row; and no soft-deleted row held it then, which only the query of OIDC
  (`isOidcIdAlreadyTaken`) does not tell.

**No identity is held by two rows, deleted ones too, after any schedule of clear
steps** (`unique_of_clear`).  An account that is deleted loses its OIDC identity
to the next one that registers with it (`oidc_taken_over`).
-/

namespace AuthGateway.IdentityRace

open Common Model Controller Middleware Prog LoginGate
open Accounts (manageAction_ok)

/-! ### Identities in the table -/

/-- A row of this id has the identity. -/
def Holds (db : DB) (p : Provider) (x : String) (id : Int) : Prop :=
  ∃ row ∈ db.users, row.id = id ∧ p.column row = x

/-- **No identity is held by two rows**, soft-deleted ones included. -/
def Unique (db : DB) : Prop :=
  ∀ p, ∀ row ∈ db.users, ∀ row' ∈ db.users, Provider.column p row ≠ "" →
    Provider.column p row = Provider.column p row' → row = row'

theorem Unique.id {db : DB} (h : Unique db) {p : Provider} {x : String} (hx : x ≠ "") {id id' : Int}
    (hid : Holds db p x id) (hid' : Holds db p x id') : id = id' := by
  obtain ⟨row, hrow, rfl, hcol⟩ := hid
  obtain ⟨row', hrow', rfl, hcol'⟩ := hid'
  rw [h p row hrow row' hrow' (by rw [hcol]; exact hx) (hcol.trans hcol'.symm)]

theorem unique_of_id {db : DB}
    (h : ∀ p x, x ≠ "" → ∀ id id', Holds db p x id → Holds db p x id' → id = id') : Unique db := by
  intro p row hrow row' hrow' hne he
  have hid := h p _ hne row.id row'.id ⟨row, hrow, rfl, rfl⟩ ⟨row', hrow', rfl, he.symm⟩
  exact Table.eq_of_key hrow hrow' hid

/-- The statement gives the identity to a row that did not have it. -/
def Gives (o : DBOp) (db : DB) (p : Provider) (x : String) (id : Int) : Prop :=
  x ≠ "" ∧ Holds (exec o db).2 p x id ∧ ¬ Holds db p x id

/-- The statement asks for the identity and finds that no row it sees has it, or
answers a row that has it. -/
inductive Looks : DBOp → DB → Provider → String → Int → Prop
  | find {unscoped : Bool} {q : User → Bool} {db : DB} {p : Provider} {x : String} {id : Int}
      (hq : ∀ u, q u = (p.column u == x)) (hnone : db.users.find? (seen unscoped q) = none) :
      Looks (.userFind unscoped q) db p x id
  | first {unscoped : Bool} {q : User → Bool} {db : DB} {p : Provider} {x : String} {id : Int}
      (hq : ∀ u, q u = (p.column u == x)) (hnone : db.users.find? (seen unscoped q) = none) :
      Looks (.userFirst unscoped q) db p x id
  | row {unscoped : Bool} {q : User → Bool} {db : DB} {p : Provider} {x : String} {row : User}
      (hfind : db.users.find? (seen unscoped q) = some row) (hx : p.column row = x) :
      Looks (.userFirst unscoped q) db p x row.id

theorem Looks.read {o : DBOp} {db : DB} {p : Provider} {x : String} {id : Int}
    (h : Looks o db p x id) : o.isRead = true := by
  cases h <;> rfl

/-- What a look says, when no soft-deleted row is in the way. -/
theorem Looks.unheld {o : DBOp} {db : DB} {p : Provider} {x : String} {id : Int}
    (h : Looks o db p x id) (hx : x ≠ "") (hunique : Unique db)
    (hdeleted : ∀ row ∈ db.users, row.live = false → row.id ≠ id → p.column row ≠ x) {id' : Int}
    (hne : id' ≠ id) : ¬ Holds db p x id' := by
  have hfree : ∀ {unscoped : Bool} {q : User → Bool}, (∀ u, q u = (p.column u == x)) →
      db.users.find? (seen unscoped q) = none → ¬ Holds db p x id' := by
    rintro unscoped q hq hnone ⟨row, hrow, rfl, hcol⟩
    have hnot := Table.find?_eq_none.mp hnone row hrow
    have hlive : row.live = false := by
      simpa [seen, hq, hcol] using (Bool.and_eq_false_iff.mp hnot).imp_left
        fun h => (Bool.or_eq_false_iff.mp h).2
    exact hdeleted row hrow hlive hne hcol
  cases h with
  | find hq hnone => exact hfree hq hnone
  | first hq hnone => exact hfree hq hnone
  | @row _ _ _ _ _ row hfind hcol =>
    intro hheld
    exact hne (hunique.id hx hheld ⟨row, Table.find?_mem hfind, rfl, hcol⟩)

/-! ### Requests, side by side -/

inductive Request
  | login (path : LoginPath)
  | weChatBind (code : String) (answer : Except Err String)
  | telegramBind (params : Params)
  | manageUser (req : Option ManageRequest)
  | deleteSelf

structure Act where
  request : Request
  cookie : Session := {}
  authorization : String := ""
  env : Env
  ctx : Ctx

def handle (a : Act) : M Out :=
  let s := Sess.ofCookie a.cookie
  match a.request with
  | .login path => LoginGate.handle a.env a.ctx s path
  | .weChatBind code answer => weChatBind a.env a.ctx s code answer
  | .telegramBind params => telegramBind a.env a.ctx s params
  | .manageUser req => behind adminAuth s a.authorization a.ctx fun ctx => manageUser ctx s req
  | .deleteSelf => behind userAuth s a.authorization a.ctx fun ctx => deleteSelf ctx s

variable {ι : Type}

abbrev Requests (ι : Type) : Type := Prog.Config DBOp DBOp.Res Out DB ι

/-- The requests before their first statement. -/
def start (acts : ι → Act) (db : DB) : Requests ι := ⟨fun i => handle (acts i), db⟩

/-- The next statement of the request gives the identity to the row. -/
def GivesAt (c : Requests ι) (i : ι) (p : Provider) (x : String) (id : Int) : Prop :=
  ∃ o k, c.threads i = .call o k ∧ Gives o c.store p x id

/-- The next statement of the request looks at the identity, for the row. -/
def LooksAt (c : Requests ι) (i : ι) (p : Provider) (x : String) (id : Int) : Prop :=
  ∃ o k, c.threads i = .call o k ∧ Looks o c.store p x id

variable [DecidableEq ι]

/-- **What the request looked at still stands when it writes.**  `pre` are the
steps so far. -/
def Clear (c : Requests ι) (pre : List ι) (i : ι) : Prop :=
  ∀ p x id, GivesAt (play exec c pre) i p x id → ∀ before since, pre = before ++ i :: since →
    LooksAt (play exec c before) i p x id →
      (∀ row ∈ (play exec c before).store.users, row.live = false → row.id ≠ id →
        Provider.column p row ≠ x) ∧
      ∀ mid j rest id', since = mid ++ j :: rest → id' ≠ id →
        ¬ GivesAt (play exec c (before ++ i :: mid)) j p x id'

theorem holds_step {c : Requests ι} {j : ι} {p : Provider} {x : String} {id : Int} (hx : x ≠ "")
    (h : Holds (step exec c j).store p x id) : Holds c.store p x id ∨ GivesAt c j p x id := by
  cases hj : c.threads j with
  | ret a =>
    rw [step_ret exec hj] at h
    exact Or.inl h
  | call o k =>
    rw [step_call exec hj] at h
    by_cases hold : Holds c.store p x id
    · exact Or.inl hold
    · exact Or.inr ⟨o, k, hj, hx, h, hold⟩

/-- What no other row held when the request looked, no other row holds. -/
theorem unheld_since {c : Requests ι} {p : Provider} {x : String} (hx : x ≠ "") {i : ι}
    {before since : List ι} {id id' : Int} (hne : id' ≠ id)
    (hlook : LooksAt (play exec c before) i p x id)
    (hthen : ¬ Holds (play exec c before).store p x id')
    (hsince : ∀ mid j rest id', since = mid ++ j :: rest → id' ≠ id →
      ¬ GivesAt (play exec c (before ++ i :: mid)) j p x id') :
    ¬ Holds (play exec c (before ++ i :: since)).store p x id' := by
  have hafter : ¬ Holds (play exec c (before ++ [i])).store p x id' := by
    obtain ⟨o, k, hi, hlooks⟩ := hlook
    rw [play_append, play_cons, play_nil, step_call exec hi]
    show ¬ Holds (exec o _).2 p x id'
    rw [exec_read hlooks.read]
    exact hthen
  have hstep : ∀ (c : Requests ι) j, ¬ Holds c.store p x id' → ¬ GivesAt c j p x id' →
      ¬ Holds (step exec c j).store p x id' := by
    intro c j hnot hquiet hheld
    exact (holds_step hx hheld).elim hnot hquiet
  have hsplit : before ++ i :: since = (before ++ [i]) ++ since := by simp
  rw [hsplit]
  refine play_keeps (P := fun db : DB => ¬ Holds db p x id') hstep hafter ?_
  intro mid j rest he hgives
  have hmid : before ++ [i] ++ mid = before ++ i :: mid := by simp
  rw [hmid] at hgives
  exact hsince mid j rest id' he hne hgives

/-! ### What a request has seen -/

/-- What a request goes by when it writes: an id that was free, or a row it read. -/
inductive Look
  | free (p : Provider) (x : String)
  | row (r : User)

/-- The look is about giving the identity to the row. -/
inductive Look.About : Look → Provider → String → Int → Prop
  | free {p : Provider} {x : String} {id : Int} : About (.free p x) p x id
  | row {p : Provider} {r : User} : About (.row r) p (p.column r) r.id

/-- The statement makes the look. -/
def Learns (o : DBOp) (db : DB) (look : Look) : Prop :=
  ∀ p x id, look.About p x id → Looks o db p x id

/-- A statement gives only what the request has looked at, and to one row. -/
structure Next (l : List Look) (db : DB) (o : DBOp) (l' : List Look) : Prop where
  learns : ∀ look ∈ l', look ∈ l ∨ Learns o db look
  gives : ∀ p x id, Gives o db p x id → ∃ look ∈ l, look.About p x id
  one : ∀ p x id id', Gives o db p x id → Gives o db p x id' → id = id'

/-- The identities are unique so far, and what the requests have seen they have
seen on the way. -/
structure Inv (c : Requests ι) (pre : List ι) (l : ι → List Look) : Prop where
  unique : ∀ before rest, pre = before ++ rest → Unique (play exec c before).store
  seen : ∀ j, ∀ look ∈ l j, ∃ before since, pre = before ++ j :: since ∧
    ∀ p x id, look.About p x id → LooksAt (play exec c before) j p x id

/-- Looks that were made stay made. -/
theorem seen_snoc {c : Requests ι} {pre : List ι} {l : ι → List Look} (h : Inv c pre l) (i : ι)
    {j : ι} {look : Look} (hlook : look ∈ l j) :
    ∃ before since, pre ++ [i] = before ++ j :: since ∧
      ∀ p x id, look.About p x id → LooksAt (play exec c before) j p x id := by
  obtain ⟨before, since, rfl, hmade⟩ := h.seen j look hlook
  exact ⟨before, since ++ [i], by simp, hmade⟩

/-- **A clear step keeps the identities unique.** -/
theorem unique_step {c : Requests ι} {pre : List ι} {l : ι → List Look} (h : Inv c pre l) {i : ι}
    (hclear : Clear c pre i) {o : DBOp} {k : DBOp.Res o → M Out}
    (hi : (play exec c pre).threads i = .call o k) {l' : List Look}
    (hnext : Next (l i) (play exec c pre).store o l') : Unique (exec o (play exec c pre).store).2 := by
  have hunique : Unique (play exec c pre).store := h.unique pre [] (List.append_nil pre).symm
  -- whoever is given an identity is the only one who has it
  have hgiven : ∀ p x id id', Gives o (play exec c pre).store p x id →
      Holds (play exec c pre).store p x id' → id' = id := by
    intro p x id id' hgives hheld
    obtain ⟨look, hlook, habout⟩ := hnext.gives p x id hgives
    obtain ⟨before, since, hpre, hmade⟩ := h.seen i look hlook
    have hlooked := hmade p x id habout
    obtain ⟨hdeleted, hsince⟩ := hclear p x id ⟨o, k, hi, hgives⟩ before since hpre hlooked
    have hbefore : Unique (play exec c before).store := h.unique before (i :: since) hpre
    by_contra hne
    have hlooked' := hlooked
    obtain ⟨o', k', -, hlooks⟩ := hlooked'
    have hthen := hlooks.unheld hgives.1 hbefore hdeleted hne
    rw [hpre] at hheld
    exact unheld_since hgives.1 hne hlooked hthen hsince hheld
  apply unique_of_id
  intro p x hx id id' hid hid'
  by_cases hold : Holds (play exec c pre).store p x id
  · by_cases hold' : Holds (play exec c pre).store p x id'
    · exact hunique.id hx hold hold'
    · exact hgiven p x id' id ⟨hx, hid', hold'⟩ hold
  · by_cases hold' : Holds (play exec c pre).store p x id'
    · exact (hgiven p x id id' ⟨hx, hid, hold⟩ hold').symm
    · exact hnext.one p x id id' ⟨hx, hid, hold⟩ ⟨hx, hid', hold'⟩

omit [DecidableEq ι] in
theorem prefix_snoc {pre before rest : List ι} {i : ι} (h : pre ++ [i] = before ++ rest) :
    before = pre ++ [i] ∨ ∃ rest', pre = before ++ rest' := by
  rcases List.eq_nil_or_concat rest with rfl | ⟨rest', a, rfl⟩
  · exact Or.inl (by simpa using h.symm)
  · rw [List.concat_eq_append, ← List.append_assoc] at h
    exact Or.inr ⟨rest', (List.append_inj' h rfl).1⟩

theorem inv_step {c : Requests ι} {pre : List ι} {l : ι → List Look} (h : Inv c pre l) {i : ι}
    (hclear : Clear c pre i) {o : DBOp} {k : DBOp.Res o → M Out}
    (hi : (play exec c pre).threads i = .call o k) {l' : List Look}
    (hnext : Next (l i) (play exec c pre).store o l') :
    Inv c (pre ++ [i]) (Function.update l i l') := by
  refine ⟨?_, ?_⟩
  · intro before rest he
    rcases prefix_snoc he with rfl | ⟨rest', rfl⟩
    · rw [play_append, play_cons, play_nil, step_call exec hi]
      exact unique_step h hclear hi hnext
    · exact h.unique before rest' rfl
  · intro j look hlook
    by_cases hj : j = i
    · subst hj
      rw [Function.update_self] at hlook
      rcases hnext.learns look hlook with hold | hlearns
      · exact seen_snoc h j hold
      · exact ⟨pre, [], rfl, fun p x id habout => ⟨o, k, hi, hlearns p x id habout⟩⟩
    · rw [Function.update_of_ne hj] at hlook
      exact seen_snoc h i hlook

theorem inv_idle {c : Requests ι} {pre : List ι} {l : ι → List Look} (h : Inv c pre l) {i : ι}
    {a : Out} (hi : (play exec c pre).threads i = .ret a) : Inv c (pre ++ [i]) l := by
  refine ⟨?_, ?_⟩
  · intro before rest he
    rcases prefix_snoc he with rfl | ⟨rest', rfl⟩
    · rw [play_append, play_cons, play_nil, step_ret exec hi]
      exact h.unique pre [] (List.append_nil pre).symm
    · exact h.unique before rest' rfl
  · intro j look hlook
    exact seen_snoc h i hlook

/-! ### What the statements give -/

/-- A statement that gives no row an identity. -/
def Quiet (o : DBOp) (db : DB) : Prop := ∀ p x id, ¬ Gives o db p x id

theorem quiet_of_users {o : DBOp} (h : o.writesUsers = false) (db : DB) : Quiet o db := by
  rintro p x id ⟨-, hheld, hnot⟩
  unfold Holds at hheld
  rw [exec_users h] at hheld
  exact hnot hheld

theorem next_quiet {l : List Look} {db : DB} {o : DBOp} (h : Quiet o db) : Next l db o l where
  learns _ hlook := Or.inl hlook
  gives p x id hgives := absurd hgives (h p x id)
  one p x id _ hgives := absurd hgives (h p x id)

/-- A read that makes a look. -/
theorem next_learn {l : List Look} {db : DB} {o : DBOp} (h : o.writesUsers = false) {look : Look}
    (hlearns : Learns o db look) : Next l db o (look :: l) where
  learns look' hlook := by
    rcases List.mem_cons.mp hlook with rfl | hold
    · exact Or.inr hlearns
    · exact Or.inl hold
  gives p x id hgives := absurd hgives (quiet_of_users h db p x id)
  one p x id _ hgives := absurd hgives (quiet_of_users h db p x id)

/-- What an update gives, it gives to a row of its condition. -/
theorem gives_userUpdates {q : User → Bool} {f : User → User} (hid : ∀ u, (f u).id = u.id)
    {db : DB} {p : Provider} {x : String} {id : Int} (h : Gives (.userUpdates q f) db p x id) :
    ∃ row ∈ db.users, row.id = id ∧ q row = true ∧ p.column (f row) = x ∧ p.column row ≠ x := by
  obtain ⟨-, ⟨row', hrow', hrowid, hcol⟩, hnot⟩ := h
  simp only [exec] at hrow'
  cases hup : db.users.update (fun u => u.live && q u) f with
  | none =>
    rw [hup] at hrow'
    exact absurd ⟨row', hrow', hrowid, hcol⟩ hnot
  | some t =>
    rw [hup] at hrow'
    obtain ⟨row, hrow, rfl⟩ := (Table.mem_update hup).mp hrow'
    by_cases hq : (row.live && q row) = true
    · rw [Table.touch, if_pos hq] at hrowid hcol
      rw [hid] at hrowid
      refine ⟨row, hrow, hrowid, (Bool.and_eq_true_iff.mp hq).2, hcol, ?_⟩
      intro hold
      exact hnot ⟨row, hrow, hrowid, hold⟩
    · rw [Table.touch, if_neg hq] at hrowid hcol
      exact absurd ⟨row, hrow, hrowid, hcol⟩ hnot

/-- An update of other columns. -/
theorem quiet_userUpdates {q : User → Bool} {f : User → User} (hid : ∀ u, (f u).id = u.id)
    (hcol : ∀ u p, Provider.column p (f u) = p.column u) (db : DB) : Quiet (.userUpdates q f) db := by
  intro p x id hgives
  obtain ⟨row, -, -, -, hnew, hold⟩ := gives_userUpdates hid hgives
  rw [hcol] at hnew
  exact hold hnew

theorem gives_userSave {u : User} {db : DB} {p : Provider} {x : String} {id : Int}
    (h : Gives (.userSave u) db p x id) : id = u.id ∧ x = p.column u := by
  obtain ⟨-, ⟨row', hrow', hrowid, hcol⟩, hnot⟩ := h
  simp only [exec] at hrow'
  cases hput : db.users.put u with
  | none =>
    rw [hput] at hrow'
    exact absurd ⟨row', hrow', hrowid, hcol⟩ hnot
  | some t =>
    rw [hput] at hrow'
    rcases (Table.mem_put hput).mp hrow' with rfl | ⟨hold, -⟩
    · exact ⟨hrowid.symm, hcol.symm⟩
    · exact absurd ⟨row', hold, hrowid, hcol⟩ hnot

/-- What a creation gives, it gives to the new row. -/
theorem gives_userCreate {u : User} {db : DB} {p : Provider} {x : String} {id : Int}
    (h : Gives (.userCreate u) db p x id) :
    x = p.column u ∧ ∃ row t, db.users.create u.withDefaults = some (row, t) ∧ id = row.id := by
  obtain ⟨-, ⟨row', hrow', hrowid, hcol⟩, hnot⟩ := h
  simp only [exec] at hrow'
  cases hcreate : db.users.create u.withDefaults with
  | none =>
    rw [hcreate] at hrow'
    exact absurd ⟨row', hrow', hrowid, hcol⟩ hnot
  | some created =>
    obtain ⟨row, t⟩ := created
    rw [hcreate] at hrow'
    rcases (Table.mem_create hcreate).mp hrow' with rfl | hold
    · refine ⟨?_, row', t, rfl, hrowid.symm⟩
      rw [← hcol]
      rcases Table.eq_of_create hcreate with he | he <;> rw [he] <;> cases p <;> rfl
    · exact absurd ⟨row', hold, hrowid, hcol⟩ hnot

/-! ### What a struct may be written for -/

/-- The request has looked at every identity of the struct. -/
def Vouched (l : List Look) (u : User) : Prop :=
  ∀ p, Provider.column p u ≠ "" → ∃ look ∈ l, look.About p (p.column u) u.id

/-- The identities of the struct were free when the request looked. -/
def Fresh (l : List Look) (u : User) : Prop :=
  ∀ p, Provider.column p u ≠ "" → Look.free p (p.column u) ∈ l

theorem Vouched.mono {l l' : List Look} {u : User} (h : Vouched l u) (hl : l ⊆ l') :
    Vouched l' u := by
  intro p hp
  obtain ⟨look, hlook, habout⟩ := h p hp
  exact ⟨look, hl hlook, habout⟩

theorem Fresh.vouched {l : List Look} {u : User} (h : Fresh l u) : Vouched l u :=
  fun p hp => ⟨_, h p hp, .free⟩

theorem vouched_row {l : List Look} {row : User} (h : Look.row row ∈ l) : Vouched l row :=
  fun _ _ => ⟨_, h, .row⟩

/-- A struct with the same identities. -/
theorem Vouched.congr {l : List Look} {u v : User} (h : Vouched l u) (hid : v.id = u.id)
    (hcol : ∀ p, Provider.column p v = p.column u) : Vouched l v := by
  intro p hp
  rw [hcol] at hp
  rw [hcol, hid]
  exact h p hp

/-- A struct without identities. -/
theorem fresh_blank {l : List Look} {u : User} (h : ∀ p, Provider.column p u = "") : Fresh l u :=
  fun p hp => absurd (h p) hp

/-- A struct with one identity. -/
theorem fresh_of_free {l : List Look} {u : User} {p : Provider} {x : String}
    (h : Look.free p x ∈ l) (hcol : ∀ q : Provider, q.column u = q.column (p.bind x {})) :
    Fresh l u := by
  intro q hq
  rw [hcol] at hq ⊢
  by_cases hqp : q = p
  · rw [hqp, Provider.column_bind]
    exact h
  · rw [Provider.column_bind_of_ne hqp] at hq
    exact absurd (show q.column {} = "" by cases q <;> rfl) hq

/-- The struct with an identity that was free. -/
theorem Vouched.bind {l : List Look} {u : User} {p : Provider} {x : String} (h : Vouched l u)
    (hfree : Look.free p x ∈ l) : Vouched l (p.bind x u) := by
  intro q hq
  rw [Provider.bind_id]
  by_cases hqp : q = p
  · rw [hqp, Provider.column_bind]
    exact ⟨_, hfree, .free⟩
  · rw [Provider.column_bind_of_ne hqp] at hq ⊢
    exact h q hq

theorem column_overlay (p : Provider) (row u : User) :
    p.column (row.overlay u) = if p.column u = "" then p.column row else p.column u := by
  cases p <;> rfl

theorem next_overlay {l : List Look} {u : User} (h : Vouched l u) (db : DB) :
    Next l db (.userUpdates (fun row => row.id == u.id) fun row => row.overlay u) l := by
  have hgives : ∀ {p x id}, Gives (.userUpdates (fun row => row.id == u.id)
      fun row => row.overlay u) db p x id → id = u.id ∧ ∃ look ∈ l, look.About p x id := by
    intro p x id hg
    obtain ⟨row, -, rfl, hrowid, hcol, hold⟩ := gives_userUpdates (f := fun row => row.overlay u) (fun _ => rfl) hg
    have hid : row.id = u.id := beq_iff_eq.mp hrowid
    refine ⟨hid, ?_⟩
    rw [column_overlay] at hcol
    split at hcol
    · exact absurd hcol hold
    · rename_i hne
      rw [hid, ← hcol]
      exact h p hne
  refine ⟨fun look hlook => Or.inl hlook, fun p x id hg => (hgives hg).2, ?_⟩
  intro p x id id' hg hg'
  rw [(hgives hg).1, (hgives hg').1]

theorem next_userSave {l : List Look} {u : User} (h : Vouched l u) (db : DB) :
    Next l db (.userSave u) l := by
  refine ⟨fun look hlook => Or.inl hlook, ?_, ?_⟩
  · intro p x id hg
    obtain ⟨rfl, rfl⟩ := gives_userSave hg
    exact h p hg.1
  · intro p x id id' hg hg'
    rw [(gives_userSave hg).1, (gives_userSave hg').1]

theorem next_userCreate {l : List Look} {u : User} (h : Fresh l u) (db : DB) :
    Next l db (.userCreate u) l := by
  refine ⟨fun look hlook => Or.inl hlook, ?_, ?_⟩
  · intro p x id hg
    obtain ⟨rfl, -⟩ := gives_userCreate hg
    exact ⟨_, h p hg.1, .free⟩
  · intro p x id id' hg hg'
    obtain ⟨-, row, t, hcreate, rfl⟩ := gives_userCreate hg
    obtain ⟨-, row', t', hcreate', rfl⟩ := gives_userCreate hg'
    rw [hcreate] at hcreate'
    obtain ⟨rfl, rfl⟩ := Prod.mk.inj (Option.some.inj hcreate')
    rfl

/-! ### What the functions of the model go by -/

/-- From these looks, the program gives only what it has looked at. -/
abbrev Goes {α : Type} (fin : List Look → α → Prop) (p : M α) (l : List Look) : Prop :=
  Follows exec Next fin p l

/-- The program has looked at more. -/
abbrev Adds (l : List Look) {α : Type} (l' : List Look) (_ : α) : Prop := l ⊆ l'

/-- Whatever the program has seen in the end. -/
abbrev Any {α : Type} (_ : List Look) (_ : α) : Prop := True

theorem goes_readOnly {α : Type} {p : M α} (hp : ReadOnly p) (l : List Look) :
    Goes (fun l' _ => l' = l) p l := by
  refine Follows.of_only hp fun s o ho => next_quiet (quiet_of_users ?_ s)
  cases o <;> first | rfl | exact absurd ho Bool.false_ne_true

theorem goes_spares {α : Type} {p : M α} (hp : SparesUsers p) (l : List Look) :
    Goes (fun l' _ => l' = l) p l :=
  Follows.of_only hp fun s _ ho => next_quiet (quiet_of_users ho s)

theorem goes_any {α : Type} {p : M α} {fin : List Look → α → Prop} {l : List Look}
    (h : Goes fin p l) : Goes Any p l := h.mono fun _ _ _ => trivial

/-- `First` into a struct: the request goes by the row, or by what it had. -/
theorem first_goes {user : User} {l : List Look} (hv : Vouched l user) (unscoped : Bool)
    (q : User → Bool) :
    Goes (fun l' (r : Option Err × User) => l ⊆ l' ∧ Vouched l' r.2) (user.first unscoped q) l := by
  unfold User.first
  refine Follows.perform_bind fun s => ?_
  simp only [exec]
  cases hfind : s.users.find? (seen unscoped fun u => q u && (user.id == 0 || u.id == user.id)) with
  | none => exact ⟨l, next_quiet (quiet_of_users rfl s), fun _ h => h, hv⟩
  | some row =>
    refine ⟨.row row :: l, next_learn rfl ?_, List.subset_cons_self _ _,
      vouched_row List.mem_cons_self⟩
    rintro p x id ⟨⟩
    exact .row hfind rfl

theorem fillUserById_goes {user : User} {l : List Look} (hv : Vouched l user) :
    Goes (fun l' (r : Option Err × User) => l ⊆ l' ∧ Vouched l' r.2) user.fillUserById l := by
  unfold User.fillUserById User.fillBy
  split
  · exact ⟨fun _ h => h, hv⟩
  · refine (first_goes hv false _).bind ?_
    intro r l' h
    exact h

theorem getUserById_goes (id : Int) (l : List Look) (selectAll : Bool) :
    Goes (fun l' (r : Except Err User) => l ⊆ l' ∧ ∀ u, r = .ok u → Vouched l' u)
      (getUserById id selectAll) l := by
  unfold getUserById
  split
  · exact ⟨fun _ h => h, fun u hu => by cases hu⟩
  · refine Follows.perform_bind fun s => ?_
    simp only [exec]
    cases hfind : s.users.find? (seen false fun u => u.id == id) with
    | none =>
      exact ⟨l, next_quiet (quiet_of_users rfl s), fun _ h => h, fun u hu => by cases hu⟩
    | some row =>
      refine ⟨.row row :: l, next_learn rfl ?_, List.subset_cons_self _ _, ?_⟩
      · rintro p x id ⟨⟩
        exact .row hfind rfl
      · intro u hu
        have hrow := vouched_row (l := .row row :: l) List.mem_cons_self
        obtain rfl := Except.ok.inj hu
        split
        · exact hrow
        · exact hrow.congr rfl fun p => by cases p <;> rfl

/-- A query for an id that finds nothing has seen that it is free. -/
theorem alreadyTaken_goes {p : Provider} {x : String} {q : User → Bool}
    (hq : ∀ u, q u = (p.column u == x)) (unscoped : Bool) (l : List Look) :
    Goes (fun l' r => l ⊆ l' ∧ (r = false → Look.free p x ∈ l')) (alreadyTaken unscoped q) l := by
  unfold alreadyTaken
  refine Follows.perform_bind fun s => ?_
  simp only [exec]
  cases hfind : s.users.find? (seen unscoped q) with
  | none =>
    refine ⟨.free p x :: l, next_learn rfl ?_, List.subset_cons_self _ _,
      fun _ => List.mem_cons_self⟩
    rintro p x id ⟨⟩
    exact .find hq hfind
  | some row =>
    exact ⟨l, next_quiet (quiet_of_users rfl s), fun _ h => h, fun h => absurd h (by simp)⟩

theorem isLinuxDOIdAlreadyTaken_goes (linuxDOId : String) (l : List Look) :
    Goes (fun l' r => l ⊆ l' ∧ (r = false → Look.free .linuxDO linuxDOId ∈ l'))
      (isLinuxDOIdAlreadyTaken linuxDOId) l := by
  unfold isLinuxDOIdAlreadyTaken
  refine Follows.perform_bind fun s => ?_
  simp only [exec]
  cases hfind : s.users.find? (seen true fun u => u.linuxDOId == linuxDOId) with
  | none =>
    refine ⟨.free .linuxDO linuxDOId :: l, next_learn rfl ?_, List.subset_cons_self _ _,
      fun _ => List.mem_cons_self⟩
    rintro p x id ⟨⟩
    exact .first (fun _ => rfl) hfind
  | some row =>
    exact ⟨l, next_quiet (quiet_of_users rfl s), fun _ h => h, fun h => absurd h (by decide)⟩

theorem update_goes {user : User} {l : List Look} (hv : Vouched l user) (ctx : Ctx)
    (updatePassword : Bool) : Goes (fun l' _ => l ⊆ l') (user.update ctx updatePassword) l := by
  unfold User.update
  cases hhash : user.hashPassword ctx updatePassword with
  | error e => exact fun _ h => h
  | ok newUser =>
    obtain ⟨password, rfl, -⟩ := hashPassword_fields hhash
    have hnew : Vouched l { user with password := password } := hv.congr rfl fun p => by cases p <;> rfl
    generalize { user with password := password } = newUser at hnew ⊢
    dsimp only
    unfold User.firstAndUpdates
    refine (User.first_follows (fun s _ _ => next_quiet (quiet_of_users rfl s)) newUser false).bind
      ?_
    rintro ⟨err, row⟩ l' ⟨rfl, hid⟩
    dsimp only at hid ⊢
    rw [hid]
    split
    · exact fun _ h => h
    · refine Follows.perform_bind fun s => ⟨l', next_overlay hnew s, ?_⟩
      split <;> exact fun _ h => h

theorem setSetting_vouched {l : List Look} {user : User} (hv : Vouched l user) (env : Env)
    (setting : UserSetting) : Vouched l (user.setSetting env setting) := by
  obtain ⟨text, htext⟩ := setSetting_eq env user setting
  rw [htext]
  exact hv.congr rfl fun p => by cases p <;> rfl

theorem initSidebar_goes (env : Env) (ctx : Ctx) (username : String) (l : List Look) :
    Goes Any (initSidebar env ctx username) l := by
  unfold initSidebar
  refine Follows.perform_bind fun s => ?_
  simp only [exec]
  cases hfind : s.users.find? (seen false fun u => u.username == username) with
  | none => exact ⟨l, next_quiet (quiet_of_users rfl s), trivial⟩
  | some row =>
    refine ⟨.row row :: l, next_learn rfl ?_, ?_⟩
    · rintro p x id ⟨⟩
      exact .row hfind rfl
    · have hrow : Vouched (.row row :: l) row := vouched_row List.mem_cons_self
      exact (update_goes (setSetting_vouched hrow env _) ctx false).bind fun _ _ _ => trivial

theorem increaseUserQuota_goes (id quota : Int) (l : List Look) :
    Goes Any (increaseUserQuota id quota) l := by
  unfold increaseUserQuota
  split
  · exact trivial
  · refine Follows.perform_bind fun s => ⟨l, next_quiet ?_, trivial⟩
    exact quiet_userUpdates (f := fun u => { u with quota := u.quota + quota }) (fun _ => rfl)
      (fun _ p => by cases p <;> rfl) s

theorem rewardInvitee_goes (env : Env) (id : Int) (l : List Look) :
    Goes Any (rewardInvitee env id) l := by
  unfold rewardInvitee
  split
  · exact (increaseUserQuota_goes id _ l).bind fun _ _ _ => trivial
  · exact trivial

theorem rewardInviter_goes (env : Env) (inviterId : Int) (l : List Look) :
    Goes Any (rewardInviter env inviterId) l := by
  unfold rewardInviter inviteUser
  split
  · refine (getUserById_goes inviterId l true).bind ?_
    rintro r l' ⟨-, hr⟩
    cases r with
    | error e => exact trivial
    | ok user =>
      have hsaved : Vouched l' { user with
          affCount := user.affCount + 1
          affQuota := user.affQuota + env.cfg.quotaForInviter
          affHistoryQuota := user.affHistoryQuota + env.cfg.quotaForInviter } :=
        (hr user rfl).congr rfl fun p => by cases p <;> rfl
      exact Follows.perform_bind fun s => ⟨l', next_userSave hsaved s, trivial⟩
  · exact trivial

/-- **A registration** gives the new row what was free. -/
theorem insert_goes {user : User} {l : List Look} (hfresh : Fresh l user) (env : Env) (ctx : Ctx)
    (inviterId : Int) : Goes Any (user.insert env ctx inviterId) l := by
  unfold User.insert
  cases hhash : user.hashPassword ctx (user.password != "") with
  | error e => exact trivial
  | ok newUser =>
    obtain ⟨password, rfl, -⟩ := hashPassword_fields hhash
    dsimp only
    obtain ⟨text, htext⟩ := toInsert_eq env ctx { user with password := password }
    rw [htext]
    refine Follows.perform_bind fun s => ⟨l, next_userCreate ?_ s, ?_⟩
    · intro p hp
      have hcol : ∀ q : Provider, q.column { user with
          password := password
          quota := env.cfg.quotaForNewUser
          affCode := ctx.randomString
          setting := text } = q.column user := fun q => by cases q <;> rfl
      rw [hcol] at hp ⊢
      exact hfresh p hp
    · split
      · exact trivial
      · refine (initSidebar_goes env ctx _ l).bind fun _ l' _ => ?_
        split
        · refine (rewardInvitee_goes env _ l').bind fun _ l'' _ => ?_
          exact (rewardInviter_goes env inviterId l'').bind fun _ _ _ => trivial
        · exact trivial

/-! ### What the handlers go by -/

variable {env : Env} {ctx : Ctx} {s : Sess} {p : Provider} {x : String} {l : List Look}

theorem oauthLogin_goes {taken : M Bool} {fill register : M (Option Err × User)}
    {checkGone : Bool}
    (htaken : ∀ l, Goes (fun l' r => l ⊆ l' ∧ (r = false → Look.free p x ∈ l')) taken l)
    (hfill : ReadOnly fill) (hregister : ∀ l, Look.free p x ∈ l → Goes Any register l) :
    Goes Any (oauthLogin env s taken fill checkGone register) l := by
  unfold oauthLogin
  refine (htaken l).bind ?_
  rintro isTaken l' ⟨-, hfree⟩
  cases isTaken with
  | true =>
    refine (goes_readOnly hfill l').bind fun r l'' _ => ?_
    obtain ⟨err, user⟩ := r
    cases err with
    | some e => exact trivial
    | none =>
      dsimp only
      split <;> exact trivial
  | false =>
    rw [if_neg Bool.false_ne_true]
    split
    · exact trivial
    · refine (hregister l' (hfree rfl)).bind fun r l'' _ => ?_
      obtain ⟨err, user⟩ := r
      cases err <;> exact trivial

/-- **A binding** gives the account what was free, and what its row had. -/
theorem bindAccount_goes {taken : M Bool} {takenMsg : String} {blank : User} {bound : Reply}
    (htaken : ∀ l, Goes (fun l' r => l ⊆ l' ∧ (r = false → Look.free p x ∈ l')) taken l)
    (hblank : blank = {} ∨ blank = p.bind x {}) :
    Goes Any (bindAccount ctx s taken takenMsg blank (fun u => p.bind x u) bound) l := by
  unfold bindAccount
  refine (htaken l).bind ?_
  rintro isTaken l₁ ⟨-, hfree⟩
  cases isTaken with
  | true => exact trivial
  | false =>
    rw [if_neg Bool.false_ne_true]
    have hfree₁ := hfree rfl
    cases s.cur.id with
    | none => exact trivial
    | some id =>
      have hempty : Vouched l₁ { id := id } :=
        (fresh_blank fun q => by cases q <;> rfl).vouched
      have hv : Vouched l₁ { blank with id := id } := by
        rcases hblank with rfl | rfl
        · exact hempty
        · have hbind : ({ p.bind x {} with id := id } : User) = p.bind x { id := id } := by
            cases p <;> rfl
          rw [hbind]
          exact hempty.bind hfree₁
      refine (fillUserById_goes hv).bind ?_
      rintro ⟨err, user⟩ l₂ ⟨hsub, huser⟩
      cases err with
      | some e => exact trivial
      | none =>
        refine (update_goes (huser.bind (hsub hfree₁)) ctx false).bind fun r _ _ => ?_
        obtain ⟨err, u⟩ := r
        cases err <;> exact trivial

/-- A read before the rest of a program. -/
theorem goes_read {α β : Type} {q : M α} {f : α → M β} (hq : ReadOnly q)
    (hf : ∀ a, Goes Any (f a) l) : Goes Any (q >>= f) l := by
  refine (goes_readOnly hq l).bind ?_
  rintro a l' rfl
  exact hf a

theorem gitHubOAuth_goes (req : OAuthRequest) (answer : Except Err GitHubUser) :
    Goes Any (gitHubOAuth env ctx s req answer) l := by
  have htaken : ∀ id l, Goes (fun l' r => l ⊆ l' ∧ (r = false → Look.free .gitHub id ∈ l'))
      (isGitHubIdAlreadyTaken id) l := fun id l => alreadyTaken_goes (fun _ => rfl) true l
  unfold gitHubOAuth
  split
  · exact trivial
  split
  · unfold gitHubBind
    split
    · exact trivial
    split
    · exact trivial
    · exact bindAccount_goes (p := .gitHub) (htaken _) (Or.inr rfl)
  · split
    · exact trivial
    split
    · exact trivial
    · refine oauthLogin_goes (htaken _) (fillBy_readOnly _ _ _ _) fun l hfree => ?_
      refine goes_read getMaxUserId_readOnly fun maxId => ?_
      refine goes_read (sessionInviter_readOnly s) fun inviterId => ?_
      apply insert_goes
      exact fresh_of_free hfree fun q => by cases q <;> rfl

theorem discordOAuth_goes (req : OAuthRequest) (answer : Except Err DiscordUser) :
    Goes Any (discordOAuth env ctx s req answer) l := by
  have htaken : ∀ id l, Goes (fun l' r => l ⊆ l' ∧ (r = false → Look.free .discord id ∈ l'))
      (isDiscordIdAlreadyTaken id) l := fun id l => alreadyTaken_goes (fun _ => rfl) true l
  unfold discordOAuth
  split
  · exact trivial
  split
  · unfold discordBind
    split
    · exact trivial
    split
    · exact trivial
    · exact bindAccount_goes (p := .discord) (htaken _) (Or.inr rfl)
  · split
    · exact trivial
    split
    · exact trivial
    · refine oauthLogin_goes (htaken _) (fillBy_readOnly _ _ _ _) fun l hfree => ?_
      refine goes_read (usernameOr_readOnly _ _) fun username => ?_
      apply insert_goes
      exact fresh_of_free hfree fun q => by cases q <;> rfl

/-- The query is scoped here, and `Look.free` is what it says all the same. -/
theorem oidcAuth_goes (req : OAuthRequest) (answer : Except Err OidcUser) :
    Goes Any (oidcAuth env ctx s req answer) l := by
  have htaken : ∀ id l, Goes (fun l' r => l ⊆ l' ∧ (r = false → Look.free .oidc id ∈ l'))
      (isOidcIdAlreadyTaken id) l := fun id l => alreadyTaken_goes (fun _ => rfl) false l
  unfold oidcAuth
  split
  · exact trivial
  split
  · unfold oidcBind
    split
    · exact trivial
    split
    · exact trivial
    · exact bindAccount_goes (p := .oidc) (htaken _) (Or.inr rfl)
  · split
    · exact trivial
    split
    · exact trivial
    · refine oauthLogin_goes (htaken _) (fillBy_readOnly _ _ _ _) fun l hfree => ?_
      refine goes_read (usernameOr_readOnly _ _) fun username => ?_
      apply insert_goes
      exact fresh_of_free hfree fun q => by cases q <;> rfl

theorem linuxdoOAuth_goes (refusal : Option String) (req : OAuthRequest)
    (answer : Except Err LinuxdoUser) : Goes Any (linuxdoOAuth env ctx s refusal req answer) l := by
  unfold linuxdoOAuth
  split
  · exact trivial
  split
  · exact trivial
  split
  · unfold linuxDoBind
    split
    · exact trivial
    split
    · exact trivial
    · exact bindAccount_goes (p := .linuxDO) (isLinuxDOIdAlreadyTaken_goes _) (Or.inr rfl)
  · split
    · exact trivial
    split
    · exact trivial
    · refine oauthLogin_goes (isLinuxDOIdAlreadyTaken_goes _) (fillUserByLinuxDOId_readOnly _)
        fun l hfree => ?_
      split
      · exact trivial
      · refine goes_read getMaxUserId_readOnly fun maxId => ?_
        refine goes_read (sessionInviter_readOnly s) fun inviterId => ?_
        apply insert_goes
        exact fresh_of_free hfree fun q => by cases q <;> rfl

theorem weChatAuth_goes (code : String) (answer : Except Err String) :
    Goes Any (weChatAuth env ctx s code answer) l := by
  unfold weChatAuth
  split
  · exact trivial
  split
  · exact trivial
  · rename_i wechatId _
    have htaken : ∀ l, Goes (fun l' r => l ⊆ l' ∧ (r = false → Look.free .weChat wechatId ∈ l'))
        (isWeChatIdAlreadyTaken wechatId) l := alreadyTaken_goes (fun _ => rfl) true
    refine oauthLogin_goes htaken (fillBy_readOnly _ _ _ _) fun l hfree => ?_
    refine goes_read getMaxUserId_readOnly fun maxId => ?_
    apply insert_goes
    exact fresh_of_free hfree fun q => by cases q <;> rfl

theorem weChatBind_goes (code : String) (answer : Except Err String) :
    Goes Any (weChatBind env ctx s code answer) l := by
  unfold weChatBind
  split
  · exact trivial
  split
  · exact trivial
  · rename_i wechatId _
    have htaken : ∀ l, Goes (fun l' r => l ⊆ l' ∧ (r = false → Look.free .weChat wechatId ∈ l'))
        (isWeChatIdAlreadyTaken wechatId) l := alreadyTaken_goes (fun _ => rfl) true
    exact bindAccount_goes (p := .weChat) htaken (Or.inl rfl)

theorem telegramBind_goes (params : Params) : Goes Any (telegramBind env ctx s params) l := by
  unfold telegramBind
  split
  · exact trivial
  split
  · exact trivial
  split
  · exact trivial
  · rename_i telegramId _
    refine (alreadyTaken_goes (p := .telegram) (x := telegramId) (fun _ => rfl) true l).bind ?_
    rintro isTaken l₁ ⟨-, hfree⟩
    cases isTaken with
    | true => exact trivial
    | false =>
      rw [if_neg Bool.false_ne_true]
      have hfree₁ := hfree rfl
      cases s.cur.id with
      | none => exact trivial
      | some id =>
        have hempty : Vouched l₁ { id := id } :=
          (fresh_blank fun q => by cases q <;> rfl).vouched
        refine (fillUserById_goes hempty).bind ?_
        rintro ⟨err, user⟩ l₂ ⟨hsub, huser⟩
        cases err with
        | some e => exact trivial
        | none =>
          dsimp only
          split
          · exact trivial
          · have hv : Vouched l₂ (Provider.telegram.bind telegramId user) :=
              huser.bind (hsub hfree₁)
            refine (update_goes hv ctx false).bind fun r _ _ => ?_
            obtain ⟨err, u⟩ := r
            cases err <;> exact trivial

theorem verify2FALogin_spares (code : Option String) : SparesUsers (verify2FALogin env ctx s code) := by
  unfold verify2FALogin
  split
  · exact Prog.Only.pure
  split
  · exact Prog.Only.pure
  · refine (getUserById_only (fun _ _ => rfl) _ _).bind fun r => ?_
    split
    · exact Prog.Only.pure
    · refine (getTwoFAByUserId_only (fun _ => rfl) _).bind fun r => ?_
      split
      · exact Prog.Only.pure
      · refine (tryCode_sparesUsers env ctx _ _).bind fun answers => ?_
        dsimp only
        split <;> exact Prog.Only.pure

theorem passkeyLoginFinish_spares (body : String) :
    SparesUsers (passkeyLoginFinish env ctx s body) := by
  have hlookup : ∀ rawID userHandle, SparesUsers (passkeyLoginHandler rawID userHandle) := by
    intro rawID userHandle
    unfold passkeyLoginHandler
    refine (getPasskeyByCredentialID_only (fun _ => rfl) rawID).bind fun r => ?_
    split
    · exact Prog.Only.pure
    · refine (User.fillBy_only (fun _ _ => rfl) _ _ _ _).bind fun r => ?_
      obtain ⟨err, user⟩ := r
      cases err with
      | some e => exact Prog.Only.pure
      | none =>
        dsimp only
        split
        · exact Prog.Only.pure
        · split <;> exact Prog.Only.pure
  unfold passkeyLoginFinish
  split
  · exact Prog.Only.pure
  split
  · exact Prog.Only.pure
  split
  · exact Prog.Only.pure
  split
  · exact Prog.Only.pure
  · refine (hlookup _ _).bind fun r => ?_
    split
    · exact Prog.Only.pure
    split
    · exact Prog.Only.pure
    dsimp only
    split
    · exact Prog.Only.pure
    · unfold upsertPasskeyCredential
      refine Prog.Only.bind (only_perform rfl fun r => ?_) fun r => ?_
      · cases r <;> exact Prog.Only.pure
      · cases r <;> exact Prog.Only.pure

theorem login_goes (path : LoginPath) : Goes Any (LoginGate.handle env ctx s path) l := by
  unfold LoginGate.handle
  cases path with
  | login req => exact goes_any (goes_readOnly (login_readOnly env s req) l)
  | verify2FALogin code => exact goes_any (goes_spares (verify2FALogin_spares code) l)
  | passkeyLoginFinish body => exact goes_any (goes_spares (passkeyLoginFinish_spares body) l)
  | gitHubOAuth req answer => exact gitHubOAuth_goes req answer
  | discordOAuth req answer => exact discordOAuth_goes req answer
  | oidcAuth req answer => exact oidcAuth_goes req answer
  | linuxdoOAuth refusal req answer => exact linuxdoOAuth_goes refusal req answer
  | weChatAuth code answer => exact weChatAuth_goes code answer
  | telegramLogin params => exact goes_any (goes_readOnly (telegramLogin_readOnly env s params) l)

/-- A soft delete leaves the identities to the row. -/
theorem delete_goes {user : User} (hv : Vouched l user) :
    Goes (fun l' (r : Option Err × User) => l ⊆ l' ∧ Vouched l' r.2) (user.delete ctx) l := by
  unfold User.delete
  split
  · exact ⟨fun _ h => h, hv⟩
  · refine Follows.perform_bind fun s => ⟨l, next_quiet ?_, fun _ h => h, ?_⟩
    · exact quiet_userUpdates (f := fun u => { u with deletedAt := some ctx.now }) (fun _ => rfl)
        (fun _ p => by cases p <;> rfl) s
    · exact hv.congr rfl fun p => by cases p <;> rfl

theorem manageUser_goes (req : Option ManageRequest) : Goes Any (manageUser ctx s req) l := by
  unfold manageUser
  cases req with
  | none => exact trivial
  | some req =>
    have hempty : Vouched l { id := req.id } := (fresh_blank fun q => by cases q <;> rfl).vouched
    refine (first_goes hempty true _).bind ?_
    rintro ⟨err, user⟩ l₁ ⟨-, huser⟩
    dsimp only
    split
    · exact trivial
    split
    · exact trivial
    split
    · exact trivial
    · rename_i managed haction
      have hmanaged : Vouched l₁ managed := by
        obtain ⟨role, status, rfl, -⟩ := manageAction_ok haction
        exact huser.congr rfl fun q => by cases q <;> rfl
      have hdelete : Goes (fun l' (r : Option Err × User) => l₁ ⊆ l' ∧ Vouched l' r.2)
          (manageDelete ctx managed req.action) l₁ := by
        unfold manageDelete
        split
        · exact delete_goes hmanaged
        · exact ⟨fun _ h => h, hmanaged⟩
      refine hdelete.bind ?_
      rintro ⟨err, deleted⟩ l₂ ⟨-, hdeleted⟩
      cases err with
      | some e => exact trivial
      | none =>
        refine (update_goes hdeleted ctx false).bind fun r _ _ => ?_
        obtain ⟨err, u⟩ := r
        cases err <;> exact trivial

theorem deleteUserById_goes (l : List Look) : Goes Any (deleteUserById ctx ctx.id) l := by
  unfold deleteUserById
  split
  · exact trivial
  · have hblank : Vouched l { id := ctx.id } := (fresh_blank fun q => by cases q <;> rfl).vouched
    exact (delete_goes hblank).bind fun _ _ _ => trivial

/-- The end of `DeleteSelf`, when the account was looked up. -/
theorem deleteSelf_end_goes (role : Int) (l : List Look) : Goes Any (do
    if role = roleRootUser then return s.fail "不能删除超级管理员账户"
    match ← deleteUserById ctx ctx.id with
    | some e => return s.apiError e
    | none => return s.answer (.done "")) l := by
  split
  · exact trivial
  · refine (deleteUserById_goes l).bind fun r _ _ => ?_
    cases r <;> exact trivial

theorem deleteSelf_goes : Goes Any (deleteSelf ctx s) l := by
  unfold deleteSelf
  split
  · exact trivial
  · refine (getUserById_goes ctx.id l false).bind ?_
    rintro r l₁ -
    cases r with
    | error e => exact deleteSelf_end_goes 0 l₁
    | ok user => exact deleteSelf_end_goes _ l₁

theorem handle_goes (a : Act) : Goes Any (handle a) [] := by
  have hbehind : ∀ (minRole : Int) (handler : Ctx → M Out), (∀ ctx l, Goes Any (handler ctx) l) →
      Goes Any (behind (authHelper minRole) (Sess.ofCookie a.cookie) a.authorization a.ctx handler)
        [] := by
    intro minRole handler hhandler
    refine (goes_readOnly (authHelper_readOnly minRole _ _) []).bind fun r l _ => ?_
    cases r with
    | error reply => exact trivial
    | ok auth => exact hhandler _ l
  unfold handle
  dsimp only
  cases a.request with
  | login path => exact login_goes path
  | weChatBind code answer => exact weChatBind_goes code answer
  | telegramBind params => exact telegramBind_goes params
  | manageUser req => exact hbehind _ _ fun ctx l => manageUser_goes req
  | deleteSelf => exact hbehind _ _ fun ctx l => deleteSelf_goes

/-! ### Every schedule -/

/-- **No identity is held by two rows, at any moment of a schedule of clear
steps.** -/
theorem unique_of_clear (acts : ι → Act) {db : DB} (h₀ : Unique db) {sched : List ι}
    (hclear : Runs.Always (Clear (start acts db)) sched) :
    ∀ pre post, sched = pre ++ post → Unique (play exec (start acts db) pre).store := by
  rintro pre post rfl
  have hstart : Inv (start acts db) [] fun _ => [] := by
    refine ⟨?_, fun j look hlook => nomatch hlook⟩
    intro before rest he
    obtain ⟨rfl, rfl⟩ := List.nil_eq_append_iff.mp he
    exact h₀
  obtain ⟨l, -, hinv⟩ := ghost_run (I := Inv (start acts db)) (fun j => handle_goes (acts j)) hstart
    (fun pre i l a h hi => inv_idle h hi)
    (fun pre i l o k l' h hC hi hnext => inv_step h hC hi hnext) pre hclear.of_append
  exact hinv.unique pre [] (List.append_nil pre).symm

/-- A request alone whose statements give nothing before the last is clear. -/
theorem clear_alone {c : Requests Unit} {n : Nat}
    (hlive : ∀ m < n, ∀ row ∈ (play exec c (List.replicate m ())).store.users, row.live = true)
    (hquiet : ∀ m < n, ∀ p x id, ¬ GivesAt (play exec c (List.replicate m ())) () p x id) :
    Runs.Always (Clear c) (List.replicate (n + 1) ()) := by
  have hall : ∀ l : List Unit, l = List.replicate l.length () :=
    fun l => List.eq_replicate_of_mem fun _ _ => rfl
  intro pre i post hsched p x id hgives before since hpre hlook
  have hlen := congrArg List.length hsched
  have hlen' := congrArg List.length hpre
  simp only [List.length_replicate, List.length_append, List.length_cons] at hlen hlen'
  refine ⟨?_, ?_⟩
  · intro row hrow hdeleted
    rw [hall before] at hrow
    have hrowlive := hlive before.length (by omega) row hrow
    rw [hdeleted] at hrowlive
    cases hrowlive
  · intro mid j rest id' hsince _ hother
    have hlen'' := congrArg List.length hsince
    simp only [List.length_append, List.length_cons] at hlen''
    rw [hall (before ++ i :: mid)] at hother
    refine hquiet _ ?_ p x id' hother
    simp only [List.length_append, List.length_cons]
    omega

/-- Heidi, signed in with OIDC at some time. -/
def heidi : User :=
  { id := 1, username := "heidi", role := 1, status := 1, oidcId := "sub-1", affCode := "h" }

def heidiDB : DB where
  users := Table.single heidi
  twoFAs := Table.empty
  backupCodes := Table.empty
  passkeys := Table.empty

def heidiCookie : Session :=
  { id := some 1, username := some "heidi", role := some 1, status := some 1 }

theorem heidi_unique : Unique heidiDB := by
  intro p row hrow row' hrow' _ _
  rw [List.mem_singleton.mp hrow, List.mem_singleton.mp hrow']

/-- Heidi binds her WeChat account. -/
def weChatBinding : Act where
  request := .weChatBind "code" (.ok "wx-1")
  cookie := heidiCookie
  env := { Env.plain with cfg := { weChatAuthEnabled := true } }
  ctx := Ctx.plain 0

theorem weChatBinding_unique :
    Unique (play exec (start (fun _ => weChatBinding) heidiDB) (List.replicate 4 ())).store := by
  refine unique_of_clear (fun _ => weChatBinding) heidi_unique (clear_alone ?_ ?_) _ []
    (List.append_nil _).symm
  · intro m hm
    have hsame : (play exec (start (fun _ => weChatBinding) heidiDB)
        (List.replicate m ())).store = heidiDB := by
      obtain rfl | rfl | rfl : m = 0 ∨ m = 1 ∨ m = 2 := by omega
      all_goals rfl
    rw [hsame]
    intro row hrow
    rw [List.mem_singleton.mp hrow]
    rfl
  · intro m hm p x id hgives
    obtain ⟨o, k, ho, hgives⟩ := hgives
    refine quiet_of_users ?_ _ p x id hgives
    -- the first three statements are reads
    obtain rfl | rfl | rfl : m = 0 ∨ m = 1 ∨ m = 2 := by omega
    all_goals
      cases ho
      rfl

/-! ### An account that was deleted -/

/-- Heidi deletes her account. -/
def deletion : Act where
  request := .deleteSelf
  cookie := heidiCookie
  env := Env.plain
  ctx := Ctx.plain 0

/-- Someone registers with the OIDC identity that was hers. -/
def oidcRegistration : Act where
  request := .login (.oidcAuth ⟨"state", "code"⟩
    (.ok { openID := "sub-1", email := "ivan@example.com", name := "", preferredUsername := "ivan" }))
  cookie := { oauthState := some "state" }
  env := { Env.plain with cfg := { oidcEnabled := true, registerEnabled := true } }
  ctx := Ctx.plain 1

/-- The deletion, and then the registration. -/
def deletedThenRegistered : Requests Bool :=
  play exec (start (fun b => if b then oidcRegistration else deletion) heidiDB)
    [false, false, true, true]

/-- **The identity of a deleted account is given to the next one that registers
with it**: the query that should find it taken sees live rows only. -/
theorem oidc_taken_over : Unique heidiDB ∧ ¬ Unique deletedThenRegistered.store := by
  have htwo : ∃ row ∈ deletedThenRegistered.store.users.rows,
      ∃ row' ∈ deletedThenRegistered.store.users.rows,
        row.oidcId ≠ "" ∧ row.oidcId = row'.oidcId ∧ row ≠ row' := by decide
  refine ⟨heidi_unique, fun h => ?_⟩
  obtain ⟨row, hrow, row', hrow', hne, hsame, hdiffer⟩ := htwo
  exact hdiffer (h .oidc row hrow row' hrow' hne hsame)

end AuthGateway.IdentityRace
