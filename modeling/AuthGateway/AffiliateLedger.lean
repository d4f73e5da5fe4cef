import AuthGateway.Lib.Threads
import AuthGateway.Model.Live

/-!
# The ledger of invitations

Registrations credit their inviter (`inviteUser`), users move what they earned to
their quota (`TransferAffQuotaToQuota`), and quotas are increased and decreased,
one statement at a time.  A credit and a transfer read the account and save the
whole row, and a registration writes back the row that it has created, with a
sidebar; the statement that should lock the row locks nothing.

* `Request.post`: what a request that succeeded is worth to a user, by the request's
  own amount.  `book` posts it at the step that answers the request.
* `Balances`: the row agrees with its account.
* `Undisturbed`: when a request writes a row back, no other request has changed the
  columns of the ledger since it read the row.

A credit and a transfer of one account lose one of the two (`credit_lost`).  **The
ledger is kept in every run whose steps are undisturbed** (`kept_of_undisturbed`).
The books never look at a statement, so each step has to be worth what it does:
`Step.kept` goes through the statements, and a `Look` says which of them answers.
-/

namespace AuthGateway.AffiliateLedger

open Common Model Prog

/-! ### Requests, side by side -/

inductive Request
  | insert (user : User) (inviterId : Int)
  | transferAffQuotaToQuota (id quota : Int)
  | increaseUserQuota (id quota : Int)
  | decreaseUserQuota (id quota : Int)

structure Act where
  request : Request
  ctx : Ctx

/-- The settings of the run, and how the logger writes a quota. -/
structure Site where
  env : Env
  logQuota : Int → String

def handle (site : Site) (a : Act) : M (Option Err) :=
  match a.request with
  | .insert user inviterId => do
    let (err, _) ← User.insert site.env a.ctx user inviterId
    return err
  | .transferAffQuotaToQuota id quota =>
    User.transferAffQuotaToQuota site.logQuota { id := id } quota
  | .increaseUserQuota id quota => increaseUserQuota id quota
  | .decreaseUserQuota id quota => decreaseUserQuota id quota

variable {ι : Type}

abbrev Requests (ι : Type) : Type := Prog.Config DBOp DBOp.Res (Option Err) DB ι

/-- The requests before their first statement. -/
def start (site : Site) (acts : ι → Act) (db : DB) : Requests ι :=
  ⟨fun i => handle site (acts i), db⟩

/-! ### The books -/

/-- What a user had at first, which request has registered him, if one has, and what
has been done for him since. -/
structure Account (ι : Type) where
  base : User
  opener : Option ι := none
  credits : Int := 0
  moved : Int := 0
  added : Int := 0

/-- **What a request that succeeded is worth to a user.** -/
def Request.post (quotaForInviter : Int) (q : Request) (id : Int) (a : Account ι) : Account ι :=
  match q with
  | .insert _ inviterId =>
    if inviterId = id ∧ 0 < quotaForInviter then { a with credits := a.credits + 1 } else a
  | .transferAffQuotaToQuota key quota =>
    if key = id then { a with moved := a.moved + quota } else a
  | .increaseUserQuota key quota => if key = id then { a with added := a.added + quota } else a
  | .decreaseUserQuota key quota => if key = id then { a with added := a.added - quota } else a

/-- What a registration is worth to the user whom it registers. -/
def Request.bonus (site : Site) : Request → Int
  | .insert _ inviterId =>
    if inviterId ≠ 0 ∧ 0 < site.env.cfg.quotaForInvitee then site.env.cfg.quotaForInvitee else 0
  | _ => 0

section
variable [DecidableEq ι]

/-- The step answers its request, and reports no error. -/
def Succeeds (c : Requests ι) (i : ι) : Prop :=
  (c.threads i).answer = none ∧ ((step exec c i).threads i).answer = some none

instance (c : Requests ι) (i : ι) : Decidable (Succeeds c i) := inferInstanceAs (Decidable (_ ∧ _))

/-- The entry of a step in the book of one user, which is opened when he is there. -/
def entry (site : Site) (acts : ι → Act) (id : Int) (c : Requests ι) (i : ι)
    (b : Option (Account ι)) : Option (Account ι) :=
  match liveRow c.store id, liveRow (step exec c i).store id with
  | none, some row => some { base := row, opener := some i }
  | _, _ =>
    if Succeeds c i then b.map ((acts i).request.post site.env.cfg.quotaForInviter id) else b

/-- The book of one user, carried through a run. -/
def bookFrom (site : Site) (acts : ι → Act) (id : Int) :
    Requests ι → Option (Account ι) → List ι → Option (Account ι)
  | _, b, [] => b
  | c, b, i :: sched => bookFrom site acts id (step exec c i) (entry site acts id c i b) sched

def book (site : Site) (acts : ι → Act) (s₀ : Requests ι) (sched : List ι) (id : Int) :
    Option (Account ι) :=
  bookFrom site acts id s₀ ((liveRow s₀.store id).map fun row => { base := row }) sched

/-- What the registration of a user has paid him: the bonus, or nothing yet. -/
def Paid (site : Site) (acts : ι → Act) (c : Requests ι) : Option ι → Int → Prop
  | none, paid => paid = 0
  | some i, paid => paid = (acts i).request.bonus site ∨ paid = 0 ∧ (c.threads i).answer = none

/-- **The row agrees with its account**: the invitations are those that were
credited, each is worth `quotaForInviter`, what was not moved is left and never
negative, and the quota is what was moved, added and paid. -/
structure Balances (quotaForInviter paid : Int) (a : Account ι) (u : User) : Prop where
  count : u.affCount = a.base.affCount + a.credits
  history : u.affHistoryQuota - a.base.affHistoryQuota
    = quotaForInviter * (u.affCount - a.base.affCount)
  left : u.affQuota - a.base.affQuota = (u.affHistoryQuota - a.base.affHistoryQuota) - a.moved
  nonneg : 0 ≤ a.base.affQuota → 0 ≤ u.affQuota
  quota : u.quota = a.base.quota + a.moved + a.added + paid

/-- **Every user who is not deleted has an account, and the two agree.** -/
def Kept (site : Site) (acts : ι → Act) (s₀ : Requests ι) (sched : List ι) : Prop :=
  ∀ id row, liveRow (play exec s₀ sched).store id = some row →
    ∃ a paid, book site acts s₀ sched id = some a ∧
      Paid site acts (play exec s₀ sched) a.opener paid ∧
      Balances site.env.cfg.quotaForInviter paid a row

/-! ### When they are kept -/

/-- The columns of the ledger, and whether the user is deleted. -/
def columns (u : User) : Option Int × Int × Int × Int × Int :=
  (u.deletedAt, u.quota, u.affCount, u.affQuota, u.affHistoryQuota)

/-- The statement that writes a struct that was read. -/
abbrev overlayOf (u : User) : DBOp :=
  .userUpdates (fun row => row.id == u.id) fun row => row.overlay u

omit [DecidableEq ι] in
/-- The step writes back a row of this id. -/
def WritesBack (c : Requests ι) (i : ι) (id : Int) : Prop :=
  ∃ u : User, u.id = id ∧
    ((∃ k, c.threads i = call (.userSave u) k) ∨ ∃ k, c.threads i = call (overlayOf u) k)

omit [DecidableEq ι] in
/-- The step reads the row. -/
def Reads (c : Requests ι) (i : ι) (row : User) : Prop :=
  ∃ p k, c.threads i = call (.userFirst false p) k ∧ c.store.users.find? (seen false p) = some row

/-- The step changes the columns of the ledger. -/
def Disturbs (c : Requests ι) (j : ι) (id : Int) : Prop :=
  ((step exec c j).store.users.get? id).map columns ≠ (c.store.users.get? id).map columns

/-- **When a request writes a row back, no other has changed the columns of the
ledger since it read the row.** -/
def Undisturbed (s₀ : Requests ι) (pre : List ι) (i : ι) : Prop :=
  ∀ id, WritesBack (play exec s₀ pre) i id →
    ∀ before since row, pre = before ++ i :: since → Reads (play exec s₀ before) i row →
      row.id = id → ∀ mid j rest, since = mid ++ j :: rest → j ≠ i →
        ¬ Disturbs (play exec s₀ (before ++ i :: mid)) j id

end

/-! ### Statements -/

/-- The statement that adds to a quota. -/
abbrev addQuota (id d : Int) : DBOp :=
  .userUpdates (fun u => u.id == id) fun u => { u with quota := u.quota + d }

/-- The struct that a credit saves. -/
def credited (quotaForInviter : Int) (u : User) : User :=
  { u with
    affCount := u.affCount + 1
    affQuota := u.affQuota + quotaForInviter
    affHistoryQuota := u.affHistoryQuota + quotaForInviter }

/-- The struct that a transfer saves. -/
def transferred (quota : Int) (u : User) : User :=
  { u with affQuota := u.affQuota - quota, quota := u.quota + quota }

theorem addQuota_plain (d : Int) : User.Plain fun u => { u with quota := u.quota + d } :=
  ⟨fun _ => rfl, fun _ _ => rfl⟩

/-! ### What a request carries -/

/-- How far a request is. -/
inductive Stage
  | begun
  /-- The registration has created this row, and has paid it nothing. -/
  | registered (id : Int)
  | rewarded
  | answered (answer : Option Err)

/-- A request, how far it is, and the row that it has read and may write back. -/
structure Look where
  request : Request
  stage : Stage := .begun
  row : Option User := none

/-- A registration that has paid what it pays to the user whom it registers. -/
def Settled (site : Site) (l : Look) : Prop :=
  l.stage = .rewarded ∨ (∃ id, l.stage = .registered id) ∧ l.request.bonus site = 0

/-- What a request may do next, and what it carries then. -/
inductive Next (site : Site) : Look → DB → DBOp → Look → Prop
  | read {q : Request} {st : Stage} {r : Option User} {db : DB} {p : User → Bool} {row : User}
      (hopen : ∀ answer, st ≠ .answered answer) (h : db.users.find? (seen false p) = some row) :
      Next site ⟨q, st, r⟩ db (.userFirst false p) ⟨q, st, some row⟩
  /-- The row is not there, or it is read a second time. -/
  | pass {q : Request} {st : Stage} {r : Option User} {db : DB} {unscoped : Bool}
      {p : User → Bool} (hopen : ∀ answer, st ≠ .answered answer) :
      Next site ⟨q, st, r⟩ db (.userFirst unscoped p) ⟨q, st, r⟩
  | create {user u created : User} {inviterId : Int} {db : DB}
      (h : (exec (.userCreate u) db).1 = .ok created) :
      Next site ⟨.insert user inviterId, .begun, none⟩ db (.userCreate u)
        ⟨.insert user inviterId, .registered created.id, none⟩
  | refused {user u : User} {inviterId : Int} {db : DB} {e : Err}
      (h : (exec (.userCreate u) db).1 = .error e) :
      Next site ⟨.insert user inviterId, .begun, none⟩ db (.userCreate u)
        ⟨.insert user inviterId, .answered (some e), none⟩
  | sidebar {user row : User} {inviterId id : Int} {db : DB} {setting : String} :
      Next site ⟨.insert user inviterId, .registered id, some row⟩ db
        (overlayOf { row with setting := setting }) ⟨.insert user inviterId, .registered id, none⟩
  | bonus {user : User} {inviterId id d : Int} {r : Option User} {db : DB}
      (h : (Request.insert user inviterId).bonus site = d) :
      Next site ⟨.insert user inviterId, .registered id, r⟩ db (addQuota id d)
        ⟨.insert user inviterId, .rewarded, none⟩
  | credit {user row : User} {st : Stage} {db : DB}
      (hsettled : Settled site ⟨.insert user row.id, st, some row⟩)
      (hpos : 0 < site.env.cfg.quotaForInviter) :
      Next site ⟨.insert user row.id, st, some row⟩ db
        (.userSave (credited site.env.cfg.quotaForInviter row))
        ⟨.insert user row.id, .answered none, none⟩
  /-- There is nobody to credit. -/
  | missed {user : User} {inviterId : Int} {st : Stage} {r : Option User} {db : DB}
      (hsettled : Settled site ⟨.insert user inviterId, st, r⟩)
      (h : db.users.find? (seen false fun u => u.id == inviterId) = none) :
      Next site ⟨.insert user inviterId, st, r⟩ db (.userFirst false fun u => u.id == inviterId)
        ⟨.insert user inviterId, .answered none, none⟩
  | transfer {quota : Int} {row : User} {db : DB} {answer : Option Err}
      (hleft : quota ≤ row.affQuota)
      (h : errorOf (exec (.userSave (transferred quota row)) db).1 = answer) :
      Next site ⟨.transferAffQuotaToQuota row.id quota, .begun, some row⟩ db
        (.userSave (transferred quota row))
        ⟨.transferAffQuotaToQuota row.id quota, .answered answer, none⟩
  | increase {id quota : Int} {r : Option User} {db : DB} :
      Next site ⟨.increaseUserQuota id quota, .begun, r⟩ db (addQuota id quota)
        ⟨.increaseUserQuota id quota, .answered none, none⟩
  | decrease {id quota : Int} {r : Option User} {db : DB} :
      Next site ⟨.decreaseUserQuota id quota, .begun, r⟩ db (addQuota id (-quota))
        ⟨.decreaseUserQuota id quota, .answered none, none⟩

/-- What a request may answer: as its last statement said, an error before it has done
anything, or no error because nobody is to be credited. -/
def Done (site : Site) (l : Look) (answer : Option Err) : Prop :=
  l.stage = .answered answer ∨ l.stage = .begun ∧ answer ≠ none ∨
    Settled site l ∧ answer = none ∧ ∃ user inviterId, l.request = .insert user inviterId ∧
      (inviterId = 0 ∨ ¬ 0 < site.env.cfg.quotaForInviter)

abbrev Goes {α : Type} (site : Site) (fin : Look → α → Prop) (p : M α) (l : Look) : Prop :=
  Follows exec (Next site) fin p l

variable {site : Site}

theorem Settled.open {l : Look} (h : Settled site l) (answer : Option Err) :
    l.stage ≠ .answered answer := by
  rcases h with he | ⟨⟨id, he⟩, -⟩
  · simp [he]
  · simp [he]

/-- Crediting the inviter, if there is one. -/
theorem inviteUser_goes {user : User} {inviterId : Int} {st : Stage} {r : Option User}
    (hinviter : inviterId ≠ 0) (hpos : 0 < site.env.cfg.quotaForInviter)
    (hsettled : Settled site ⟨.insert user inviterId, st, r⟩) :
    Goes site (fun l' _ => Done site l' none) (inviteUser site.env inviterId)
      ⟨.insert user inviterId, st, r⟩ := by
  unfold inviteUser getUserById
  rw [if_neg hinviter]
  refine Follows.perform_bind fun db => ?_
  cases hfind : db.users.find? (seen false fun u => u.id == inviterId) with
  | none =>
    refine ⟨_, .missed hsettled hfind, ?_⟩
    simp only [exec, hfind, found]
    exact Or.inl rfl
  | some row =>
    have hid : row.id = inviterId := (find_user_eq_some.mp hfind).2.2
    refine ⟨_, .read hsettled.open hfind, ?_⟩
    simp only [exec, hfind, found]
    subst hid
    exact Follows.perform_bind fun db => ⟨_, .credit hsettled hpos, Or.inl rfl⟩

theorem rewardInviter_goes {user : User} {inviterId : Int} {st : Stage} {r : Option User}
    (hinviter : inviterId ≠ 0) (hsettled : Settled site ⟨.insert user inviterId, st, r⟩) :
    Goes site (fun l' _ => Done site l' none) (rewardInviter site.env inviterId)
      ⟨.insert user inviterId, st, r⟩ := by
  unfold rewardInviter
  split
  · rename_i hpos
    exact inviteUser_goes hinviter hpos hsettled
  · rename_i hnone
    exact Or.inr (Or.inr ⟨hsettled, rfl, user, inviterId, rfl, Or.inr hnone⟩)

/-- Paying for having been invited. -/
theorem rewardInvitee_goes {user : User} {inviterId : Int} (id : Int) (r : Option User)
    (hinviter : inviterId ≠ 0) :
    Goes site (fun l' _ => l'.request = .insert user inviterId ∧ Settled site l')
      (rewardInvitee site.env id) ⟨.insert user inviterId, .registered id, r⟩ := by
  unfold rewardInvitee increaseUserQuota
  split
  · rename_i hpos
    rw [if_neg (by omega)]
    refine Follows.perform_bind fun db => ⟨_, .bonus (if_pos ⟨hinviter, hpos⟩), rfl, Or.inl rfl⟩
  · rename_i hnone
    exact ⟨rfl, Or.inr ⟨⟨id, rfl⟩, if_neg fun h => hnone h.2⟩⟩

/-- `User.Update` with the struct that was read, but for its setting. -/
theorem update_goes (ctx : Ctx) (user row : User) (inviterId id : Int) (setting : String) :
    Goes site (fun l' _ => ∃ r, l' = ⟨.insert user inviterId, .registered id, r⟩)
      (User.update ctx { row with setting := setting } false)
      ⟨.insert user inviterId, .registered id, some row⟩ := by
  have hhash : User.hashPassword ctx { row with setting := setting } false
      = .ok { row with setting := setting } := rfl
  have hwrite : ∀ db, Next site ⟨.insert user inviterId, .registered id, some row⟩ db
      (overlayOf { row with setting := setting }) ⟨.insert user inviterId, .registered id, none⟩ :=
    fun _ => .sidebar
  unfold User.update
  rw [hhash]
  dsimp only
  unfold User.firstAndUpdates
  refine (User.first_follows (fun _ _ _ => .pass (by simp)) _ false).bind ?_
  rintro ⟨err, row'⟩ l ⟨rfl, hid⟩
  dsimp only at hid ⊢
  rw [hid]
  split
  · exact ⟨_, rfl⟩
  · refine Follows.perform_bind fun db => ⟨_, hwrite db, ?_⟩
    split
    · exact ⟨_, rfl⟩
    · exact ⟨_, rfl⟩

theorem initSidebar_goes (ctx : Ctx) (user : User) (inviterId id : Int) (username : String) :
    Goes site (fun l' _ => ∃ r, l' = ⟨.insert user inviterId, .registered id, r⟩)
      (initSidebar site.env ctx username) ⟨.insert user inviterId, .registered id, none⟩ := by
  unfold initSidebar
  refine Follows.perform_bind fun db => ?_
  cases hfind : db.users.find? (seen false fun u => u.username == username) with
  | none =>
    refine ⟨_, .pass (by simp), ?_⟩
    simp only [exec, hfind, found]
    exact ⟨_, rfl⟩
  | some row =>
    refine ⟨_, .read (by simp) hfind, ?_⟩
    simp only [exec, hfind, found]
    obtain ⟨text, htext⟩ := setSetting_eq site.env row { User.getSetting site.env row with
      sidebarModules := generateDefaultSidebarConfigForRole row.role }
    rw [htext]
    refine (update_goes ctx user row inviterId id text).bind ?_
    intro _ l h
    exact h

theorem insert_goes (ctx : Ctx) (user : User) (inviterId : Int) :
    Goes site (fun l' answer => Done site l' answer.1) (User.insert site.env ctx user inviterId)
      ⟨.insert user inviterId, .begun, none⟩ := by
  unfold User.insert
  cases user.hashPassword ctx (user.password != "") with
  | error e => exact Or.inr (Or.inl ⟨rfl, by simp⟩)
  | ok user' =>
    refine Follows.perform_bind fun db => ?_
    cases hcreate : (exec (.userCreate (user'.toInsert site.env ctx)) db).1 with
    | error e => exact ⟨_, .refused hcreate, Or.inl rfl⟩
    | ok row =>
      refine ⟨_, .create hcreate, ?_⟩
      refine (initSidebar_goes ctx user inviterId _ _).bind ?_
      rintro - l ⟨r, rfl⟩
      dsimp only
      split
      · rename_i hinviter
        refine (rewardInvitee_goes _ r hinviter).bind ?_
        rintro - ⟨q, st, r'⟩ ⟨rfl, hsettled⟩
        refine (rewardInviter_goes hinviter hsettled).bind ?_
        intro _ l h
        exact h
      · rename_i hnone
        have hzero : inviterId = 0 := not_not.mp hnone
        have hbonus : (Request.insert user inviterId).bonus site = 0 := if_neg fun h => h.1 hzero
        exact Or.inr (Or.inr
          ⟨Or.inr ⟨⟨_, rfl⟩, hbonus⟩, rfl, user, inviterId, rfl, Or.inl hzero⟩)

theorem transfer_goes (id quota : Int) :
    Goes site (Done site) (User.transferAffQuotaToQuota site.logQuota { id := id } quota)
      ⟨.transferAffQuotaToQuota id quota, .begun, none⟩ := by
  unfold User.transferAffQuotaToQuota
  split
  · exact Or.inr (Or.inl ⟨rfl, by simp⟩)
  · unfold User.first
    refine Follows.perform_bind fun db => ?_
    cases hfind : db.users.find? (seen false fun u => (u.id == id) && (id == 0 || u.id == id)) with
    | none =>
      refine ⟨_, .pass (by simp), ?_⟩
      simp only [exec, hfind, found]
      exact Or.inr (Or.inl ⟨rfl, by simp⟩)
    | some row =>
      have hholds := Table.find?_holds hfind
      have hid : row.id = id := by
        simp only [seen, Bool.and_eq_true, beq_iff_eq] at hholds
        exact hholds.2.1
      refine ⟨_, .read (by simp) hfind, ?_⟩
      simp only [exec, hfind, found]
      subst hid
      show Follows exec (Next site) (Done site) (if row.affQuota < quota then _ else _) _
      split
      · exact Or.inr (Or.inl ⟨rfl, by simp⟩)
      · rename_i hleft
        exact Follows.perform_bind fun db => ⟨_, .transfer (by omega) rfl, Or.inl rfl⟩

theorem addQuota_done {q : Request} (id d : Int) (db : DB) :
    Done site ⟨q, .answered none, none⟩ (errorOf (exec (addQuota id d) db).1) := by
  rw [(exec_plain (addQuota_plain d) (fun u => u.id == id) db).1]
  exact Or.inl rfl

theorem increaseUserQuota_goes (id quota : Int) :
    Goes site (Done site) (increaseUserQuota id quota)
      ⟨.increaseUserQuota id quota, .begun, none⟩ := by
  unfold increaseUserQuota
  split
  · exact Or.inr (Or.inl ⟨rfl, by simp⟩)
  · exact Follows.perform_bind fun db => ⟨_, .increase, addQuota_done id quota db⟩

theorem decreaseUserQuota_goes (id quota : Int) :
    Goes site (Done site) (decreaseUserQuota id quota)
      ⟨.decreaseUserQuota id quota, .begun, none⟩ := by
  unfold decreaseUserQuota
  split
  · exact Or.inr (Or.inl ⟨rfl, by simp⟩)
  · exact Follows.perform_bind fun db => ⟨_, .decrease, addQuota_done id (-quota) db⟩

theorem handle_goes (a : Act) :
    Goes site (Done site) (handle site a) ⟨a.request, .begun, none⟩ := by
  unfold handle
  cases a.request with
  | insert user inviterId =>
    refine (insert_goes a.ctx user inviterId).bind ?_
    rintro ⟨err, _⟩ l h
    exact h
  | transferAffQuotaToQuota id quota => exact transfer_goes id quota
  | increaseUserQuota id quota => exact increaseUserQuota_goes id quota
  | decreaseUserQuota id quota => exact decreaseUserQuota_goes id quota

/-- **No request succeeds without a statement**, so the books miss no success. -/
theorem answer_handle_ne (a : Act) : (handle site a).answer ≠ some none := by
  intro h
  have hgoes : Goes site (Done site) (handle site a) _ := handle_goes a
  cases hhandle : handle site a with
  | call o k => rw [hhandle] at h; cases h
  | ret answer =>
    rw [hhandle] at h hgoes
    obtain rfl := Option.some.inj h
    rcases hgoes with hanswered | ⟨-, hne⟩ | ⟨hsettled, -⟩
    · cases hanswered
    · exact hne rfl
    · rcases hsettled with he | ⟨⟨id, he⟩, -⟩
      · cases he
      · cases he

/-! ### Accounts and rows -/

section Account

variable {quotaForInviter paid : Int} {a : Account ι} {u v : User}

theorem Balances.of_columns (h : Balances quotaForInviter paid a v) (he : columns u = columns v) :
    Balances quotaForInviter paid a u := by
  obtain ⟨-, hquota, hcount, hleft, hhistory⟩ : u.deletedAt = v.deletedAt ∧ u.quota = v.quota ∧
      u.affCount = v.affCount ∧ u.affQuota = v.affQuota ∧
      u.affHistoryQuota = v.affHistoryQuota := by simpa [columns] using he
  constructor
  · rw [hcount]
    exact h.count
  · rw [hhistory, hcount]
    exact h.history
  · rw [hleft, hhistory]
    exact h.left
  · rw [hleft]
    exact h.nonneg
  · rw [hquota]
    exact h.quota

theorem balances_base (opener : Option ι) (u : User) :
    Balances quotaForInviter 0 { base := u, opener := opener } u := by
  constructor <;> simp

theorem Balances.credited (h : Balances quotaForInviter paid a u) (hpos : 0 < quotaForInviter) :
    Balances quotaForInviter paid { a with credits := a.credits + 1 }
      (credited quotaForInviter u) := by
  have hcount := h.count
  have hleft := h.left
  constructor
  · simp only [AffiliateLedger.credited]
    omega
  · have hsplit : u.affCount + 1 - a.base.affCount = (u.affCount - a.base.affCount) + 1 := by omega
    have hmul := Int.mul_add quotaForInviter (u.affCount - a.base.affCount) 1
    simp only [AffiliateLedger.credited]
    rw [hsplit, hmul, ← h.history]
    omega
  · simp only [AffiliateLedger.credited]
    omega
  · intro hbase
    have hnonneg := h.nonneg hbase
    simp only [AffiliateLedger.credited]
    omega
  · exact h.quota

theorem Balances.transferred {quota : Int} (h : Balances quotaForInviter paid a u)
    (hleft : quota ≤ u.affQuota) :
    Balances quotaForInviter paid { a with moved := a.moved + quota } (transferred quota u) := by
  have hsum := h.left
  have hquota := h.quota
  constructor
  · exact h.count
  · exact h.history
  · simp only [AffiliateLedger.transferred]
    omega
  · intro _
    simp only [AffiliateLedger.transferred]
    omega
  · simp only [AffiliateLedger.transferred]
    omega

theorem Balances.added {d : Int} (h : Balances quotaForInviter paid a u) :
    Balances quotaForInviter paid { a with added := a.added + d }
      { u with quota := u.quota + d } := by
  have hquota := h.quota
  refine ⟨h.count, h.history, h.left, h.nonneg, ?_⟩
  simp only
  omega

theorem Balances.rewarded {d : Int} (h : Balances quotaForInviter 0 a u) :
    Balances quotaForInviter d a { u with quota := u.quota + d } := by
  have hquota := h.quota
  refine ⟨h.count, h.history, h.left, h.nonneg, ?_⟩
  simp only
  omega

@[simp] theorem Request.post_opener (q : Request) (id : Int) (a : Account ι) :
    (q.post quotaForInviter id a).opener = a.opener := by
  unfold Request.post
  cases q <;> dsimp only <;> split <;> rfl

end Account

theorem columns_credited {quotaForInviter : Int} {u v : User} (h : columns u = columns v) :
    columns (credited quotaForInviter u) = columns (credited quotaForInviter v) := by
  simp only [columns, Prod.mk.injEq] at h
  simp [columns, credited, h]

theorem columns_transferred {quota : Int} {u v : User} (h : columns u = columns v) :
    columns (transferred quota u) = columns (transferred quota v) := by
  simp only [columns, Prod.mk.injEq] at h
  simp [columns, transferred, h]

theorem columns_overlay {u row : User} {setting : String} (h : columns row = columns u) :
    columns (u.overlay { row with setting := setting }) = columns u := by
  simp only [columns, Prod.mk.injEq] at h
  simp [columns, User.overlay, h]

theorem live_of_columns {u v : User} (h : columns u = columns v) : u.live = v.live := by
  have hdeleted : u.deletedAt = v.deletedAt := congrArg Prod.fst h
  unfold User.live
  rw [hdeleted]

/-! ### What a statement does to the rows -/

/-- The columns that are unique. -/
def unique (u : User) : String × Option String × String := (u.username, u.accessToken, u.affCode)

theorem clash_of_unique {u v : User} (h : unique u = unique v) (w : User) :
    u.clash w = v.clash w := by
  simp only [unique, Prod.mk.injEq] at h
  simp [User.clash, h]

theorem unique_overlay {u row : User} {setting : String} (h : unique row = unique u) :
    unique (u.overlay { row with setting := setting }) = unique u := by
  simp only [unique, Prod.mk.injEq] at h
  simp [unique, User.overlay, h]

/-- The live row of one id is changed, and keeps its unique columns. -/
structure Edits (db db' : DB) (key : Int) (f : User → User) : Prop where
  get : ∀ id, db'.users.get? id
    = (db.users.get? id).map (Table.touch (fun u => u.live && u.id == key) f)
  live : ∀ row, db.users.get? key = some row → (f row).live = row.live
  unique : ∀ row, db.users.get? key = some row → unique (f row) = unique row

/-- A row is added under an id that no row had. -/
structure Adds (db db' : DB) (created : User) : Prop where
  fresh : db.users.get? created.id = none
  get : ∀ id, db'.users.get? id = if created.id = id then some created else db.users.get? id

section Rows

variable {db db' : DB} {key : Int} {f : User → User}

theorem Edits.refl (db : DB) (key : Int) : Edits db db key id := by
  refine ⟨fun id => ?_, fun _ _ => rfl, fun _ _ => rfl⟩
  cases db.users.get? id with
  | none => rfl
  | some row => simp [Table.touch]

theorem touch_key {row : User} (hlive : row.live = true) (hid : row.id = key) :
    Table.touch (fun u : User => u.live && u.id == key) f row = f row :=
  if_pos (by simp [hlive, hid])

theorem touch_of_ne {row : User} (hid : row.id ≠ key) :
    Table.touch (fun u : User => u.live && u.id == key) f row = row := if_neg (by simp [hid])

theorem Edits.touched (h : Edits db db' key f) {id : Int} {row : User}
    (hrow : db.users.get? id = some row) :
    (Table.touch (fun u => u.live && u.id == key) f row).live = row.live ∧
      AffiliateLedger.unique (Table.touch (fun u => u.live && u.id == key) f row)
        = AffiliateLedger.unique row := by
  have hid : row.id = id := (Table.get?_eq_some.mp hrow).2
  by_cases hkey : row.id = key
  · rw [← hid, hkey] at hrow
    by_cases hlive : row.live = true
    · rw [touch_key hlive hkey]
      exact ⟨h.live row hrow, h.unique row hrow⟩
    · have hsame : Table.touch (fun u => u.live && u.id == key) f row = row :=
        if_neg (by simp [hlive])
      rw [hsame]
      exact ⟨rfl, rfl⟩
  · rw [touch_of_ne hkey]
    exact ⟨rfl, rfl⟩

/-- **The live rows after an edit** are those before it, one of them edited. -/
theorem Edits.liveRow (h : Edits db db' key f) {id : Int} {v : User}
    (hv : liveRow db' id = some v) :
    ∃ row, liveRow db id = some row ∧ v = if id = key then f row else row := by
  obtain ⟨hget, hlive⟩ := liveRow_eq_some.mp hv
  rw [h.get] at hget
  obtain ⟨row, hrow, rfl⟩ := Option.map_eq_some_iff.mp hget
  have hid : row.id = id := (Table.get?_eq_some.mp hrow).2
  have hrowlive : row.live = true := (h.touched hrow).1.symm.trans hlive
  refine ⟨row, liveRow_eq_some.mpr ⟨hrow, hrowlive⟩, ?_⟩
  by_cases hkey : id = key
  · rw [if_pos hkey, touch_key hrowlive (hid.trans hkey)]
  · rw [if_neg hkey, touch_of_ne (by rw [hid]; exact hkey)]

/-- A row with these unique columns is there, under its id. -/
def Known (db : DB) (row : User) : Prop :=
  ∃ row', db.users.get? row.id = some row' ∧ unique row' = unique row

theorem Edits.known (h : Edits db db' key f) {row : User} (hknown : Known db row) :
    Known db' row := by
  obtain ⟨row', hrow', hunique⟩ := hknown
  exact ⟨_, (h.get row.id).trans (congrArg _ hrow'), (h.touched hrow').2.trans hunique⟩

theorem Adds.get_of_some {created : User} (h : Adds db db' created) {id : Int} {row : User}
    (hrow : db.users.get? id = some row) : db'.users.get? id = some row := by
  rw [h.get, if_neg, hrow]
  rintro rfl
  rw [h.fresh] at hrow
  cases hrow

/-- **A row that is saved under the id and the unique columns of a row is accepted.** -/
theorem save_edits {u row : User} (hkey : u.id = key) (hrow : db.users.get? key = some row)
    (hunique : unique u = unique row) (hlive : u.live = true) (hrowlive : row.live = true) :
    (exec (.userSave u) db).1 = .ok () ∧
      Edits db (exec (.userSave u) db).2 key fun _ => u := by
  subst hkey
  obtain ⟨hmem, hid⟩ := Table.get?_eq_some.mp hrow
  obtain ⟨t, hput⟩ : ∃ t, db.users.put u = some t := by
    refine Table.put_isSome (fun x hx hne => ?_) ?_
    · have hxrow := (Table.eq_or_apart hx hmem).resolve_left fun he =>
        hne ((congrArg Row.key he).trans hid)
      rw [User.clash_eq, User.clash_comm, clash_of_unique hunique, User.clash_comm]
      exact hxrow.2
    · have hpos : 0 < Row.key row := Table.key_pos hmem
      rw [hid] at hpos
      exact hpos
  rcases saved u db with ⟨hok, hget⟩ | ⟨e, herror, -⟩
  · refine ⟨hok, fun id => ?_, fun row' hrow' => ?_, fun row' hrow' => ?_⟩
    · rw [hget]
      by_cases hkey : u.id = id
      · subst hkey
        have htouch : Table.touch (fun v : User => v.live && v.id == u.id) (fun _ => u) row = u :=
          touch_key hrowlive hid
        rw [if_pos rfl, hrow, Option.map_some, htouch]
      · rw [if_neg hkey]
        cases hget' : db.users.get? id with
        | none => rfl
        | some row' =>
          have hrowid : row'.id = id := (Table.get?_eq_some.mp hget').2
          have hne : row'.id ≠ u.id := fun he => hkey (he.symm.trans hrowid)
          have htouch : Table.touch (fun v : User => v.live && v.id == u.id) (fun _ => u) row'
              = row' := touch_of_ne hne
          rw [Option.map_some, htouch]
    · obtain rfl := Option.some.inj (hrow.symm.trans hrow')
      exact hlive.trans hrowlive.symm
    · obtain rfl := Option.some.inj (hrow.symm.trans hrow')
      exact hunique
  · simp [exec, hput, DB.written] at herror

theorem addQuota_edits (id d : Int) (db : DB) :
    Edits db (exec (addQuota id d) db).2 id fun u => { u with quota := u.quota + d } :=
  ⟨(exec_plain (addQuota_plain d) (fun u => u.id == id) db).2, fun _ _ => rfl, fun _ _ => rfl⟩

/-- Writing back the struct that was read changes no column of the ledger. -/
theorem overlay_edits {row : User} (setting : String) (hknown : Known db row)
    (hrow : (db.users.get? row.id).map columns = some (columns row)) :
    ∃ f, Edits db (exec (overlayOf { row with setting := setting }) db).2 row.id f ∧
      ∀ row', db.users.get? row.id = some row' → columns (f row') = columns row' := by
  cases hup : db.users.update (fun u => u.live && u.id == row.id)
      (fun u => u.overlay { row with setting := setting }) with
  | none =>
    have hsame : (exec (overlayOf { row with setting := setting }) db).2 = db := by
      simp only [exec, hup, DB.written]
    rw [hsame]
    exact ⟨id, Edits.refl db _, fun _ _ => rfl⟩
  | some t =>
    have hexec : (exec (overlayOf { row with setting := setting }) db).2 = db.setUsers t := by
      simp only [exec, hup, DB.written]
    obtain ⟨now, hnow, hunique⟩ := hknown
    rw [hnow, Option.map_some] at hrow
    have hcolumns : columns (now.overlay { row with setting := setting }) = columns now :=
      columns_overlay (Option.some.inj hrow).symm
    refine ⟨fun u => u.overlay { row with setting := setting }, ⟨fun id => ?_, ?_, ?_⟩, ?_⟩
    · rw [hexec]
      exact Table.get?_update hup (fun _ => rfl) id
    · intro row' hrow'
      obtain rfl := Option.some.inj (hnow.symm.trans hrow')
      exact live_of_columns hcolumns
    · intro row' hrow'
      obtain rfl := Option.some.inj (hnow.symm.trans hrow')
      exact unique_overlay hunique.symm
    · intro row' hrow'
      obtain rfl := Option.some.inj (hnow.symm.trans hrow')
      exact hcolumns

theorem create_adds {u created : User} (h : (exec (.userCreate u) db).1 = .ok created) :
    Adds db (exec (.userCreate u) db).2 created := by
  simp only [exec] at h ⊢
  cases hcreate : db.users.create u.withDefaults with
  | none => rw [hcreate] at h; cases h
  | some made =>
    obtain ⟨row, t⟩ := made
    rw [hcreate] at h
    obtain rfl := Except.ok.inj h
    exact ⟨Table.get?_eq_none.mpr (Table.create_fresh hcreate), Table.get?_create hcreate⟩

theorem create_refused {u : User} {e : Err} (h : (exec (.userCreate u) db).1 = .error e) :
    (exec (.userCreate u) db).2 = db := by
  simp only [exec] at h ⊢
  cases hcreate : db.users.create u.withDefaults with
  | none => rfl
  | some made => rw [hcreate] at h; cases h

end Rows

/-! ### Runs -/

/-- What a request has paid to the user whom it registers. -/
def Look.paid (site : Site) (l : Look) : Int :=
  match l.stage with
  | .begun => 0
  | .registered _ => 0
  | .rewarded => l.request.bonus site
  | .answered _ => l.request.bonus site

theorem Settled.paid {l : Look} (h : Settled site l) : l.paid site = l.request.bonus site := by
  rcases h with he | ⟨⟨id, he⟩, hnone⟩
  · simp only [Look.paid, he]
  · simp only [Look.paid, he, hnone]

/-- What an account has been paid by the request that opened it. -/
def paidTo (site : Site) (l : ι → Look) : Option ι → Int
  | none => 0
  | some j => (l j).paid site

/-- The row that a statement writes back has the columns that it has in the table. -/
def Current (db : DB) (r : Option User) (o : DBOp) : Prop :=
  ∀ row, r = some row → (∃ u : User, u.id = row.id ∧ (o = .userSave u ∨ o = overlayOf u)) →
    (db.users.get? row.id).map columns = some (columns row)

/-- **A struct whose row is as it was read is saved over that row.** -/
theorem save_current {db : DB} {u row : User} (hcurrent : Current db (some row) (.userSave u))
    (hknown : Known db row ∧ row.live = true)
    (hu : u.id = row.id ∧ unique u = unique row ∧ u.live = true) :
    (∃ row', db.users.get? row.id = some row' ∧ columns row' = columns row) ∧
      (exec (.userSave u) db).1 = .ok () ∧
      Edits db (exec (.userSave u) db).2 row.id fun _ => u := by
  obtain ⟨⟨row', hrow', hunique⟩, hlive⟩ := hknown
  have hnow := hcurrent row rfl ⟨u, hu.1, Or.inl rfl⟩
  rw [hrow', Option.map_some] at hnow
  have hcolumns : columns row' = columns row := Option.some.inj hnow
  exact ⟨⟨row', hrow', hcolumns⟩, save_edits hu.1 hrow' (hu.2.1.trans hunique.symm) hu.2.2
    ((live_of_columns hcolumns).trans hlive)⟩

theorem next_request {l l' : Look} {db : DB} {o : DBOp} (h : Next site l db o l') :
    l'.request = l.request := by
  cases h <;> rfl

theorem next_stage {l l' : Look} {db : DB} {o : DBOp} (h : Next site l db o l')
    (hbegun : l.stage ≠ .begun) :
    l'.stage ≠ .begun ∧ ∀ id, l'.stage = .registered id → l.stage = .registered id := by
  cases h with
  | read => exact ⟨hbegun, fun _ he => he⟩
  | pass => exact ⟨hbegun, fun _ he => he⟩
  | sidebar => exact ⟨hbegun, fun _ he => he⟩
  | create => exact absurd rfl hbegun
  | refused => exact absurd rfl hbegun
  | _ => exact ⟨by simp, fun _ he => by cases he⟩

section Run

variable [DecidableEq ι] {acts : ι → Act} {s₀ : Requests ι} {pre : List ι} {l : ι → Look} {i : ι}

theorem bookFrom_snoc (site : Site) (acts : ι → Act) (id : Int) (c : Requests ι)
    (b : Option (Account ι)) (sched : List ι) (i : ι) :
    bookFrom site acts id c b (sched ++ [i])
      = entry site acts id (play exec c sched) i (bookFrom site acts id c b sched) := by
  induction sched generalizing c b with
  | nil => rfl
  | cons j sched ih =>
    rw [List.cons_append, bookFrom, ih, bookFrom, play_cons]

theorem columns_of_undisturbed {c : Requests ι} {id : Int} {since : List ι}
    (h : ∀ mid j rest, since = mid ++ j :: rest → ¬ Disturbs (play exec c mid) j id) :
    ((play exec c since).store.users.get? id).map columns
      = (c.store.users.get? id).map columns := by
  induction since using List.reverseRecOn with
  | nil => rfl
  | append_singleton since j ih =>
    have hlast := h since j [] rfl
    have hbefore : ((play exec c since).store.users.get? id).map columns
        = (c.store.users.get? id).map columns := by
      apply ih
      intro mid j' rest he
      apply h mid j' (rest ++ [j])
      rw [he, List.append_assoc, List.cons_append]
    unfold Disturbs at hlast
    rw [ne_eq, not_not] at hlast
    rw [play_append, play_cons, play_nil, hlast]
    exact hbefore

theorem not_disturbs_of_read {c : Requests ι} {unscoped : Bool} {p : User → Bool}
    {k : Except Err User → M (Option Err)} (hi : c.threads i = call (.userFirst unscoped p) k)
    (id : Int) : ¬ Disturbs c i id := by
  unfold Disturbs
  rw [step_call exec hi]
  simp [exec]

/-- The request read the row that it carries, and has disturbed nothing since. -/
def Held (s₀ : Requests ι) (pre : List ι) (i : ι) (row : User) : Prop :=
  ∃ before since, pre = before ++ i :: since ∧ Reads (play exec s₀ before) i row ∧
    ∀ mid rest, since = mid ++ i :: rest → ¬ Disturbs (play exec s₀ (before ++ i :: mid)) i row.id

theorem Held.snoc {row : User} {j : ι} (h : Held s₀ pre j row)
    (hquiet : j = i → ¬ Disturbs (play exec s₀ pre) i row.id) : Held s₀ (pre ++ [i]) j row := by
  obtain ⟨before, since, rfl, hreads, hown⟩ := h
  refine ⟨before, since ++ [i], by rw [List.append_assoc, List.cons_append], hreads, ?_⟩
  intro mid rest he
  rcases Runs.eq_snoc_split he with ⟨rfl, rfl, -⟩ | ⟨rest', -, he'⟩
  · exact hquiet rfl
  · exact hown mid rest' he'

/-- **What an undisturbed request writes back is current.** -/
theorem Held.current {row : User} (h : Held s₀ pre i row) (hundisturbed : Undisturbed s₀ pre i)
    (hwrites : WritesBack (play exec s₀ pre) i row.id) :
    ((play exec s₀ pre).store.users.get? row.id).map columns = some (columns row) := by
  obtain ⟨before, since, rfl, hreads, hown⟩ := h
  have hothers := hundisturbed row.id hwrites before since row rfl hreads rfl
  obtain ⟨p, k, hi, hfind⟩ := hreads
  have hread : (play exec s₀ (before ++ [i])).store = (play exec s₀ before).store := by
    rw [play_append, play_cons, play_nil, step_call exec hi]
    rfl
  have hsplit : play exec s₀ (before ++ i :: since) =
      play exec (play exec s₀ (before ++ [i])) since := by
    rw [← play_append, List.append_assoc, List.singleton_append]
  have hget : (play exec s₀ before).store.users.get? row.id = some row :=
    Table.get?_key (Table.find?_mem hfind)
  rw [hsplit, columns_of_undisturbed, hread, hget, Option.map_some]
  intro mid j rest he
  rw [← play_append, List.append_assoc, List.singleton_append]
  by_cases hj : j = i
  · subst hj
    exact hown mid rest he
  · exact hothers mid j rest he hj

/-! ### Entries -/

theorem entry_opened {c : Requests ι} {id : Int} {b : Option (Account ι)} {row : User}
    (hbefore : liveRow c.store id = none) (hafter : liveRow (step exec c i).store id = some row) :
    entry site acts id c i b = some { base := row, opener := some i } := by
  unfold entry
  rw [hbefore, hafter]

theorem entry_live {c : Requests ι} {id : Int} {b : Option (Account ι)} {row : User}
    (hbefore : liveRow c.store id = some row) :
    entry site acts id c i b
      = if Succeeds c i then b.map ((acts i).request.post site.env.cfg.quotaForInviter id)
        else b := by
  unfold entry
  rw [hbefore]

theorem entry_eq_some {c : Requests ι} {id : Int} {b : Option (Account ι)} {a : Account ι}
    (h : entry site acts id c i b = some a) :
    (a.opener = some i ∧ liveRow c.store id = none ∧
        ∃ row, liveRow (step exec c i).store id = some row) ∨
      ∃ a₀, b = some a₀ ∧ a.opener = a₀.opener := by
  have hposted : ∀ {b' : Option (Account ι)}, (if Succeeds c i then
      b'.map ((acts i).request.post site.env.cfg.quotaForInviter id) else b') = some a →
      ∃ a₀, b' = some a₀ ∧ a.opener = a₀.opener := by
    intro b' hb
    split at hb
    · obtain ⟨a₀, ha₀, rfl⟩ := Option.map_eq_some_iff.mp hb
      exact ⟨a₀, ha₀, Request.post_opener _ _ _⟩
    · exact ⟨a, hb, rfl⟩
  cases hbefore : liveRow c.store id with
  | some row =>
    rw [entry_live hbefore] at h
    exact Or.inr (hposted h)
  | none =>
    cases hafter : liveRow (step exec c i).store id with
    | some row =>
      rw [entry_opened hbefore hafter] at h
      obtain rfl := Option.some.inj h
      exact Or.inl ⟨rfl, rfl, row, rfl⟩
    | none =>
      unfold entry at h
      rw [hbefore, hafter] at h
      exact Or.inr (hposted h)

theorem book_snoc (id : Int) : book site acts s₀ (pre ++ [i]) id
    = entry site acts id (play exec s₀ pre) i (book site acts s₀ pre id) :=
  bookFrom_snoc site acts id s₀ _ pre i

/-! ### One step -/

/-- The live rows agree with their accounts, as far as the requests have come. -/
def Agreed (site : Site) (acts : ι → Act) (s₀ : Requests ι) (pre : List ι) (l : ι → Look) : Prop :=
  ∀ id row, liveRow (play exec s₀ pre).store id = some row →
    ∃ a, book site acts s₀ pre id = some a ∧
      Balances site.env.cfg.quotaForInviter (paidTo site l a.opener) a row

/-- What holds between the steps of a run. -/
structure Inv (site : Site) (acts : ι → Act) (s₀ : Requests ι) (pre : List ι) (l : ι → Look) :
    Prop where
  request : ∀ i, (l i).request = (acts i).request
  held : ∀ i row, (l i).row = some row → Held s₀ pre i row
  known : ∀ i row, (l i).row = some row → Known (play exec s₀ pre).store row ∧ row.live = true
  /-- Who has opened an account has created its row. -/
  opened : ∀ id a j, book site acts s₀ pre id = some a → a.opener = some j →
    (l j).stage ≠ .begun ∧ ∀ key, (l j).stage = .registered key → key = id
  /-- Who has created a live row has opened its account. -/
  registered : ∀ j id, (l j).stage = .registered id →
    (∃ row, (play exec s₀ pre).store.users.get? id = some row) ∧
      ∀ row a, liveRow (play exec s₀ pre).store id = some row →
        book site acts s₀ pre id = some a → a.opener = some j
  kept : Agreed site acts s₀ pre l

/-- A step of a run as it should be. -/
structure Step (site : Site) (acts : ι → Act) (s₀ : Requests ι) (pre : List ι) (l : ι → Look)
    (i : ι) (o : DBOp) (l' : Look) : Prop where
  inv : Inv site acts s₀ pre l
  undisturbed : Undisturbed s₀ pre i
  follows : ∀ j, Follows exec (Next site) (Done site) ((step exec (play exec s₀ pre) i).threads j)
    (Function.update l i l' j)
  calls : ∃ k, (play exec s₀ pre).threads i = call o k
  next : Next site (l i) (play exec s₀ pre).store o l'

section Step

variable {o : DBOp} {l' : Look}

theorem Step.store (h : Step site acts s₀ pre l i o l') :
    (step exec (play exec s₀ pre) i).store = (exec o (play exec s₀ pre).store).2 := by
  obtain ⟨k, hi⟩ := h.calls
  rw [step_call exec hi]

theorem Step.store_snoc (h : Step site acts s₀ pre l i o l') :
    (play exec s₀ (pre ++ [i])).store = (exec o (play exec s₀ pre).store).2 := by
  rw [play_append, play_cons, play_nil, h.store]

theorem Step.current (h : Step site acts s₀ pre l i o l') :
    Current (play exec s₀ pre).store (l i).row o := by
  obtain ⟨k, hi⟩ := h.calls
  rintro row hrow ⟨u, hu, rfl | rfl⟩
  · exact (h.inv.held i row hrow).current h.undisturbed ⟨u, hu, Or.inl ⟨k, hi⟩⟩
  · exact (h.inv.held i row hrow).current h.undisturbed ⟨u, hu, Or.inr ⟨k, hi⟩⟩

theorem Step.request (h : Step site acts s₀ pre l i o l') : l'.request = (acts i).request :=
  (next_request h.next).trans (h.inv.request i)

theorem Step.done (h : Step site acts s₀ pre l i o l') (hok : Succeeds (play exec s₀ pre) i) :
    Done site l' none := by
  have hfollows := h.follows i
  rw [Function.update_self] at hfollows
  cases hafter : (step exec (play exec s₀ pre) i).threads i with
  | call o' k' =>
    have hanswer := hok.2
    rw [hafter] at hanswer
    cases hanswer
  | ret answer =>
    have hanswer := hok.2
    rw [hafter] at hanswer hfollows
    obtain rfl := Option.some.inj hanswer
    exact hfollows

theorem Step.answered (h : Step site acts s₀ pre l i o l') (hanswered : l'.stage = .answered none) :
    Succeeds (play exec s₀ pre) i := by
  obtain ⟨k, hi⟩ := h.calls
  refine ⟨by rw [hi]; rfl, ?_⟩
  have hfollows := h.follows i
  rw [Function.update_self] at hfollows
  cases hafter : (step exec (play exec s₀ pre) i).threads i with
  | call o' k' =>
    rw [hafter] at hfollows
    obtain ⟨l'', hnext, -⟩ := hfollows (play exec s₀ pre).store
    cases hnext with
    | read hopen => exact absurd hanswered (hopen none)
    | pass hopen => exact absurd hanswered (hopen none)
    | credit hsettled => exact absurd hanswered (hsettled.open none)
    | missed hsettled => exact absurd hanswered (hsettled.open none)
    | _ => cases hanswered
  | ret answer =>
    rw [hafter] at hfollows
    rcases hfollows with he | ⟨he, -⟩ | ⟨hsettled, -⟩
    · obtain rfl := Stage.answered.inj (hanswered.symm.trans he)
      rfl
    · rw [hanswered] at he
      cases he
    · exact absurd hanswered (hsettled.open none)

/-- A step that does not answer its request with success is worth nothing. -/
theorem Step.unposted (h : Step site acts s₀ pre l i o l') (hquiet : l'.stage ≠ .answered none)
    {id : Int} (hid : 0 < id) (b : Option (Account ι)) :
    (if Succeeds (play exec s₀ pre) i then
      b.map ((acts i).request.post site.env.cfg.quotaForInviter id) else b) = b := by
  split
  · rename_i hok
    rcases h.done hok with he | ⟨-, hne⟩ | ⟨-, -, user, inviterId, hrequest, hnobody⟩
    · exact absurd he hquiet
    · exact absurd rfl hne
    · rw [← h.request, hrequest]
      have hpost : ∀ a : Account ι,
          (Request.insert user inviterId).post site.env.cfg.quotaForInviter id a = a := by
        intro a
        refine if_neg fun hboth => ?_
        rcases hnobody with hzero | hnone
        · omega
        · exact hnone hboth.2
      cases b with
      | none => rfl
      | some a => exact congrArg some (hpost a)
  · rfl

theorem paidTo_of_ne {opener : Option ι} (h : opener ≠ some i) :
    paidTo site (Function.update l i l') opener = paidTo site l opener := by
  cases opener with
  | none => rfl
  | some j =>
    have hj : j ≠ i := fun he => h (congrArg some he)
    simp only [paidTo]
    rw [Function.update_of_ne hj]

theorem paidTo_of_paid (h : l'.paid site = (l i).paid site) (opener : Option ι) :
    paidTo site (Function.update l i l') opener = paidTo site l opener := by
  by_cases hopener : opener = some i
  · subst hopener
    simp only [paidTo]
    rw [Function.update_self, h]
  · exact paidTo_of_ne hopener

/-! ### The rows and their accounts -/

/-- An edit, and what it does to each account. -/
theorem Step.kept_of_edits (h : Step site acts s₀ pre l i o l') {key : Int} {f : User → User}
    (hedits : Edits (play exec s₀ pre).store (exec o (play exec s₀ pre).store).2 key f)
    (hself : ∀ id row a, 0 < id → liveRow (play exec s₀ pre).store id = some row →
      book site acts s₀ pre id = some a →
      Balances site.env.cfg.quotaForInviter (paidTo site l a.opener) a row →
      ∃ a', (if Succeeds (play exec s₀ pre) i then
          (some a).map ((acts i).request.post site.env.cfg.quotaForInviter id)
          else some a) = some a' ∧
        Balances site.env.cfg.quotaForInviter (paidTo site (Function.update l i l') a'.opener) a'
          (if id = key then f row else row)) :
    Agreed site acts s₀ (pre ++ [i]) (Function.update l i l') := by
  intro id v hv
  rw [h.store_snoc] at hv
  obtain ⟨row, hrow, rfl⟩ := hedits.liveRow hv
  obtain ⟨a, ha, hbalances⟩ := h.inv.kept id row hrow
  rw [book_snoc, entry_live hrow, ha]
  exact hself id row a (liveRow_pos hrow) hrow ha hbalances

/-- An edit by a step that is not worth anything. -/
theorem Step.kept_unposted (h : Step site acts s₀ pre l i o l') {key : Int} {f : User → User}
    (hedits : Edits (play exec s₀ pre).store (exec o (play exec s₀ pre).store).2 key f)
    (hquiet : l'.stage ≠ .answered none)
    (hself : ∀ id row a, liveRow (play exec s₀ pre).store id = some row →
      book site acts s₀ pre id = some a →
      Balances site.env.cfg.quotaForInviter (paidTo site l a.opener) a row →
      Balances site.env.cfg.quotaForInviter (paidTo site (Function.update l i l') a.opener) a
        (if id = key then f row else row)) :
    Agreed site acts s₀ (pre ++ [i]) (Function.update l i l') :=
  h.kept_of_edits hedits fun id row a hid hrow ha hbalances =>
    ⟨a, h.unposted hquiet hid _, hself id row a hrow ha hbalances⟩

/-- An edit by the last step of a request that succeeds. -/
theorem Step.kept_posted (h : Step site acts s₀ pre l i o l') {key : Int} {f : User → User}
    (hedits : Edits (play exec s₀ pre).store (exec o (play exec s₀ pre).store).2 key f)
    (hanswered : l'.stage = .answered none) (hpaid : l'.paid site = (l i).paid site)
    (hself : ∀ id row a, liveRow (play exec s₀ pre).store id = some row →
      Balances site.env.cfg.quotaForInviter (paidTo site l a.opener) a row →
      Balances site.env.cfg.quotaForInviter (paidTo site l a.opener)
        (l'.request.post site.env.cfg.quotaForInviter id a) (if id = key then f row else row)) :
    Agreed site acts s₀ (pre ++ [i]) (Function.update l i l') := by
  refine h.kept_of_edits hedits fun id row a _ hrow _ hbalances => ?_
  rw [if_pos (h.answered hanswered), ← h.request]
  refine ⟨_, rfl, ?_⟩
  rw [Request.post_opener, paidTo_of_paid hpaid]
  exact hself id row a hrow hbalances

/-- What a registration creates has an account, and nothing more. -/
theorem Step.kept_of_adds (h : Step site acts s₀ pre l i o l') {created : User}
    (hadds : Adds (play exec s₀ pre).store (exec o (play exec s₀ pre).store).2 created)
    (hbefore : (l i).stage = .begun) (hafter : l'.stage = .registered created.id) :
    Agreed site acts s₀ (pre ++ [i]) (Function.update l i l') := by
  have hnothing : l'.paid site = 0 := by simp only [Look.paid, hafter]
  intro id v hv
  rw [book_snoc]
  rw [h.store_snoc] at hv
  obtain ⟨hget, hlive⟩ := liveRow_eq_some.mp hv
  rw [hadds.get] at hget
  by_cases hid : created.id = id
  · rw [if_pos hid] at hget
    obtain rfl := Option.some.inj hget
    have hnone : liveRow (play exec s₀ pre).store id = none := by
      rw [liveRow, ← hid, hadds.fresh]
      rfl
    rw [entry_opened hnone (h.store ▸ hv)]
    refine ⟨_, rfl, ?_⟩
    simp only [paidTo]
    rw [Function.update_self, hnothing]
    exact balances_base _ _
  · rw [if_neg hid] at hget
    have hrow := liveRow_eq_some.mpr ⟨hget, hlive⟩
    obtain ⟨a, ha, hbalances⟩ := h.inv.kept id v hrow
    have hbegun : (l i).paid site = 0 := by simp only [Look.paid, hbefore]
    rw [entry_live hrow, h.unposted (by simp [hafter]) (liveRow_pos hrow)]
    refine ⟨a, ha, ?_⟩
    rw [paidTo_of_paid (hnothing.trans hbegun.symm)]
    exact hbalances

/-- **Every row agrees with its account after the step.** -/
theorem Step.kept (h : Step site acts s₀ pre l i o l') :
    Agreed site acts s₀ (pre ++ [i]) (Function.update l i l') := by
  have hnext := h.next
  have hcurrent := h.current
  generalize hli : l i = li at hnext hcurrent
  have hunchanged : l'.paid site = li.paid site → ∀ opener,
      paidTo site (Function.update l i l') opener = paidTo site l opener :=
    fun he => paidTo_of_paid (by rw [he, hli])
  cases hnext with
  | read hopen =>
    refine h.kept_unposted (Edits.refl _ 0) (hopen none) fun id row a _ _ hbalances => ?_
    rw [hunchanged rfl]
    simpa using hbalances
  | pass hopen =>
    refine h.kept_unposted (Edits.refl _ 0) (hopen none) fun id row a _ _ hbalances => ?_
    rw [hunchanged rfl]
    simpa using hbalances
  | create hcreated => exact h.kept_of_adds (create_adds hcreated) (by rw [hli]) rfl
  | @refused user u _ _ _ herror =>
    have hedits : Edits (play exec s₀ pre).store
        (exec (.userCreate u) (play exec s₀ pre).store).2 0 id := by
      rw [create_refused herror]
      exact Edits.refl _ 0
    refine h.kept_unposted hedits (by simp) fun id row a _ ha hbalances => ?_
    -- a registration that is refused has not opened an account
    have hopener : a.opener ≠ some i := fun he =>
      (h.inv.opened id a i ha he).1 (by rw [hli])
    rw [paidTo_of_ne hopener]
    simpa using hbalances
  | @sidebar user row₀ inviterId key _ setting =>
    have hknown := h.inv.known i row₀ (by rw [hli])
    obtain ⟨f, hedits, hcolumns⟩ := overlay_edits setting hknown.1
      (hcurrent row₀ rfl ⟨{ row₀ with setting := setting }, rfl, Or.inr rfl⟩)
    refine h.kept_unposted hedits (by simp) fun id row a hrow _ hbalances => ?_
    rw [hunchanged rfl]
    split
    · rename_i hid
      rw [hid] at hrow
      exact hbalances.of_columns (hcolumns row (liveRow_eq_some.mp hrow).1)
    · exact hbalances
  | @bonus user inviterId key d r _ hbonus =>
    refine h.kept_unposted (addQuota_edits key d _) (by simp) fun id row a hrow ha hbalances => ?_
    split
    · rename_i hid
      subst hid
      have hopener := (h.inv.registered i id (by rw [hli])).2 row a hrow ha
      have hbefore : paidTo site l (some i) = 0 := by simp only [paidTo, Look.paid, hli]
      have hafter : paidTo site (Function.update l i
          ⟨.insert user inviterId, .rewarded, none⟩) (some i) = d := by
        simp only [paidTo]
        rw [Function.update_self]
        exact hbonus
      rw [hopener] at hbalances ⊢
      rw [hbefore] at hbalances
      rw [hafter]
      exact hbalances.rewarded
    · rename_i hid
      have hopener : a.opener ≠ some i := fun he =>
        hid ((h.inv.opened id a i ha he).2 key (by rw [hli])).symm
      rw [paidTo_of_ne hopener]
      exact hbalances
  | @credit user row₀ st _ hsettled hpos =>
    have hknown := h.inv.known i row₀ (by rw [hli])
    obtain ⟨⟨row', hrow', hcolumns⟩, -, hedits⟩ := save_current hcurrent hknown
      ⟨rfl, rfl, hknown.2⟩
    refine h.kept_posted hedits rfl (by rw [hli, hsettled.paid]; rfl)
      fun id row a hrow hbalances => ?_
    by_cases hid : id = row₀.id
    · subst hid
      obtain rfl := Option.some.inj (hrow'.symm.trans (liveRow_eq_some.mp hrow).1)
      rw [Request.post, if_pos ⟨rfl, hpos⟩, if_pos rfl]
      exact (hbalances.credited hpos).of_columns (columns_credited hcolumns.symm)
    · rw [Request.post, if_neg fun hboth => hid hboth.1.symm, if_neg hid]
      exact hbalances
  | @missed user inviterId st r _ hsettled hnobody =>
    refine h.kept_posted (Edits.refl _ 0) rfl (by rw [hli, hsettled.paid]; rfl)
      fun id row a hrow hbalances => ?_
    have hid : inviterId ≠ id := by
      rintro rfl
      rw [find_liveRow, hrow] at hnobody
      cases hnobody
    rw [Request.post, if_neg fun hboth => hid hboth.1]
    simpa using hbalances
  | @transfer quota row₀ _ answer hleft hanswer =>
    have hknown := h.inv.known i row₀ (by rw [hli])
    obtain ⟨⟨row', hrow', hcolumns⟩, hok, hedits⟩ := save_current hcurrent hknown
      ⟨rfl, rfl, hknown.2⟩
    have hnone : answer = none := by
      rw [← hanswer, hok]
      rfl
    subst hnone
    refine h.kept_posted hedits rfl (by rw [hli]; rfl) fun id row a hrow hbalances => ?_
    by_cases hid : id = row₀.id
    · subst hid
      obtain rfl := Option.some.inj (hrow'.symm.trans (liveRow_eq_some.mp hrow).1)
      have hsame : row'.affQuota = row₀.affQuota := congrArg (fun x => x.2.2.2.1) hcolumns
      rw [← hsame] at hleft
      rw [Request.post, if_pos rfl, if_pos rfl]
      exact (hbalances.transferred hleft).of_columns (columns_transferred hcolumns.symm)
    · rw [Request.post, if_neg fun he => hid he.symm, if_neg hid]
      exact hbalances
  | @increase key quota r _ =>
    refine h.kept_posted (addQuota_edits key quota _) rfl (by rw [hli]; rfl)
      fun id row a _ hbalances => ?_
    rw [Request.post]
    by_cases hid : id = key
    · rw [if_pos hid.symm, if_pos hid]
      exact hbalances.added
    · rw [if_neg (Ne.symm hid), if_neg hid]
      exact hbalances
  | @decrease key quota r _ =>
    refine h.kept_posted (addQuota_edits key (-quota) _) rfl (by rw [hli]; rfl)
      fun id row a _ hbalances => ?_
    rw [Request.post]
    by_cases hid : id = key
    · rw [if_pos hid.symm, if_pos hid]
      exact hbalances.added
    · rw [if_neg (Ne.symm hid), if_neg hid]
      exact hbalances

/-! ### What stands after the step -/

/-- **What a statement does to the rows**: it edits one, or a registration adds one. -/
theorem Step.writes (h : Step site acts s₀ pre l i o l') :
    ((∃ key f, Edits (play exec s₀ pre).store (exec o (play exec s₀ pre).store).2 key f) ∧
        ∀ id, l'.stage = .registered id → (l i).stage = .registered id) ∨
      ∃ created, (l i).stage = .begun ∧ l'.stage = .registered created.id ∧
        Adds (play exec s₀ pre).store (exec o (play exec s₀ pre).store).2 created := by
  have hnext := h.next
  have hcurrent := h.current
  have hknown := h.inv.known i
  generalize l i = li at hnext hcurrent hknown
  cases hnext with
  | read => exact Or.inl ⟨⟨0, _, Edits.refl _ 0⟩, fun _ he => he⟩
  | pass => exact Or.inl ⟨⟨0, _, Edits.refl _ 0⟩, fun _ he => he⟩
  | create hcreated => exact Or.inr ⟨_, rfl, rfl, create_adds hcreated⟩
  | refused herror =>
    rw [create_refused herror]
    exact Or.inl ⟨⟨0, _, Edits.refl _ 0⟩, fun _ he => by cases he⟩
  | @sidebar user row inviterId id _ setting =>
    obtain ⟨f, hedits, -⟩ := overlay_edits setting (hknown row rfl).1
      (hcurrent row rfl ⟨{ row with setting := setting }, rfl, Or.inr rfl⟩)
    exact Or.inl ⟨⟨_, f, hedits⟩, fun _ he => he⟩
  | bonus => exact Or.inl ⟨⟨_, _, addQuota_edits _ _ _⟩, fun _ he => by cases he⟩
  | @credit user row st =>
    obtain ⟨-, -, hedits⟩ := save_current hcurrent (hknown row rfl)
      ⟨rfl, rfl, (hknown row rfl).2⟩
    exact Or.inl ⟨⟨_, _, hedits⟩, fun _ he => by cases he⟩
  | missed => exact Or.inl ⟨⟨0, _, Edits.refl _ 0⟩, fun _ he => by cases he⟩
  | @transfer quota row =>
    obtain ⟨-, -, hedits⟩ := save_current hcurrent (hknown row rfl)
      ⟨rfl, rfl, (hknown row rfl).2⟩
    exact Or.inl ⟨⟨_, _, hedits⟩, fun _ he => by cases he⟩
  | increase => exact Or.inl ⟨⟨_, _, addQuota_edits _ _ _⟩, fun _ he => by cases he⟩
  | decrease => exact Or.inl ⟨⟨_, _, addQuota_edits _ _ _⟩, fun _ he => by cases he⟩

theorem Step.known_snoc (h : Step site acts s₀ pre l i o l') {row : User}
    (hknown : Known (play exec s₀ pre).store row) :
    Known (play exec s₀ (pre ++ [i])).store row := by
  rw [h.store_snoc]
  rcases h.writes with ⟨⟨key, f, hedits⟩, -⟩ | ⟨created, -, -, hadds⟩
  · exact hedits.known hknown
  · obtain ⟨row', hrow', hunique⟩ := hknown
    exact ⟨row', hadds.get_of_some hrow', hunique⟩

/-- What the request carries was read by it, and no row loses its unique columns. -/
theorem Step.row (h : Step site acts s₀ pre l i o l') {row : User} (hrow : l'.row = some row) :
    Held s₀ (pre ++ [i]) i row ∧ Known (play exec s₀ pre).store row ∧ row.live = true := by
  obtain ⟨k, hi⟩ := h.calls
  have hnext := h.next
  have hheld := h.inv.held i
  have hknown := h.inv.known i
  generalize l i = li at hnext hheld hknown
  cases hnext with
  | @read _ _ _ _ p row' _ hfind =>
    obtain rfl := Option.some.inj hrow
    refine ⟨⟨pre, [], rfl, ⟨p, k, hi, hfind⟩, ?_⟩, ?_⟩
    · intro mid rest he
      simp at he
    · have hseen := Table.find?_holds hfind
      simp only [seen, Bool.false_or, Bool.and_eq_true] at hseen
      exact ⟨⟨row', Table.get?_key (Table.find?_mem hfind), rfl⟩, hseen.1⟩
  | pass => exact ⟨(hheld row hrow).snoc fun _ => not_disturbs_of_read hi _, hknown row hrow⟩
  | _ => cases hrow

/-- **The account of a user, and who has opened it.** -/
theorem Step.book_cases (h : Step site acts s₀ pre l i o l') {id : Int} {a : Account ι}
    (ha : book site acts s₀ (pre ++ [i]) id = some a) :
    (a.opener = some i ∧ (l i).stage = .begun ∧ l'.stage = .registered id) ∨
      ∃ a₀, book site acts s₀ pre id = some a₀ ∧ a.opener = a₀.opener := by
  rw [book_snoc] at ha
  rcases entry_eq_some ha with ⟨hopener, hnone, row, hrow⟩ | hold
  · rw [h.store] at hrow
    rcases h.writes with ⟨⟨key, f, hedits⟩, -⟩ | ⟨created, hbegun, hregistered, hadds⟩
    · obtain ⟨row', hrow', -⟩ := hedits.liveRow hrow
      rw [hnone] at hrow'
      cases hrow'
    · obtain ⟨hget, hlive⟩ := liveRow_eq_some.mp hrow
      rw [hadds.get] at hget
      by_cases hid : created.id = id
      · rw [hid] at hregistered
        exact Or.inl ⟨hopener, hbegun, hregistered⟩
      · rw [if_neg hid] at hget
        rw [liveRow_eq_some.mpr ⟨hget, hlive⟩] at hnone
        cases hnone
  · exact Or.inr hold

theorem Step.opened (h : Step site acts s₀ pre l i o l') (id : Int) (a : Account ι) (j : ι)
    (ha : book site acts s₀ (pre ++ [i]) id = some a) (hopener : a.opener = some j) :
    (Function.update l i l' j).stage ≠ .begun ∧
      ∀ key, (Function.update l i l' j).stage = .registered key → key = id := by
  rcases h.book_cases ha with ⟨hself, -, hregistered⟩ | ⟨a₀, ha₀, hsame⟩
  · obtain rfl := Option.some.inj (hself.symm.trans hopener)
    rw [Function.update_self, hregistered]
    exact ⟨by simp, fun key he => (Stage.registered.inj he).symm⟩
  · have hbefore := h.inv.opened id a₀ j ha₀ (hsame.symm.trans hopener)
    by_cases hj : j = i
    · subst hj
      rw [Function.update_self]
      obtain ⟨hbegun, hregistered⟩ := next_stage h.next hbefore.1
      exact ⟨hbegun, fun key he => hbefore.2 key (hregistered key he)⟩
    · rw [Function.update_of_ne hj]
      exact hbefore

theorem Step.registered (h : Step site acts s₀ pre l i o l') (j : ι) (id : Int)
    (hstage : (Function.update l i l' j).stage = .registered id) :
    (∃ row, (play exec s₀ (pre ++ [i])).store.users.get? id = some row) ∧
      ∀ row a, liveRow (play exec s₀ (pre ++ [i])).store id = some row →
        book site acts s₀ (pre ++ [i]) id = some a → a.opener = some j := by
  rw [h.store_snoc]
  rcases h.writes with ⟨⟨key, f, hedits⟩, hkeeps⟩ | ⟨created, hbegun, hregistered, hadds⟩
  · have hbefore : (l j).stage = .registered id := by
      by_cases hj : j = i
      · subst hj
        rw [Function.update_self] at hstage
        exact hkeeps id hstage
      · rw [Function.update_of_ne hj] at hstage
        exact hstage
    obtain ⟨⟨row, hrow⟩, haccount⟩ := h.inv.registered j id hbefore
    refine ⟨⟨_, (hedits.get id).trans (congrArg _ hrow)⟩, fun v a hv ha => ?_⟩
    obtain ⟨row', hrow', -⟩ := hedits.liveRow hv
    rcases h.book_cases ha with ⟨hself, hbegun, hstage'⟩ | ⟨a₀, ha₀, hsame⟩
    · -- whoever opens an account has begun before
      have he := hkeeps id hstage'
      rw [hbegun] at he
      cases he
    · rw [hsame]
      exact haccount row' a₀ hrow' ha₀
  · by_cases hj : j = i
    · subst hj
      rw [Function.update_self, hregistered] at hstage
      obtain rfl := Stage.registered.inj hstage
      refine ⟨⟨created, (hadds.get _).trans (if_pos rfl)⟩, fun v a hv ha => ?_⟩
      have hnone : liveRow (play exec s₀ pre).store created.id = none := by
        rw [liveRow, hadds.fresh]
        rfl
      rw [book_snoc, entry_opened hnone (h.store ▸ hv)] at ha
      obtain rfl := Option.some.inj ha
      rfl
    · rw [Function.update_of_ne hj] at hstage
      obtain ⟨⟨row, hrow⟩, haccount⟩ := h.inv.registered j id hstage
      refine ⟨⟨row, hadds.get_of_some hrow⟩, fun v a hv ha => ?_⟩
      rcases h.book_cases ha with ⟨-, -, hstage'⟩ | ⟨a₀, ha₀, hsame⟩
      · -- no row is added under an id that is there
        obtain rfl := Stage.registered.inj (hregistered.symm.trans hstage')
        rw [hadds.fresh] at hrow
        cases hrow
      · rw [hsame]
        refine haccount v a₀ (liveRow_eq_some.mpr ⟨?_, (liveRow_eq_some.mp hv).2⟩) ha₀
        have hget := (liveRow_eq_some.mp hv).1
        rw [hadds.get_of_some hrow] at hget
        rw [hrow, hget]

/-- **A step keeps the invariant.** -/
theorem Step.inv_snoc (h : Step site acts s₀ pre l i o l') :
    Inv site acts s₀ (pre ++ [i]) (Function.update l i l') where
  request j := by
    by_cases hj : j = i
    · subst hj
      rw [Function.update_self]
      exact h.request
    · rw [Function.update_of_ne hj]
      exact h.inv.request j
  held j row hrow := by
    by_cases hj : j = i
    · subst hj
      rw [Function.update_self] at hrow
      exact (h.row hrow).1
    · rw [Function.update_of_ne hj] at hrow
      exact (h.inv.held j row hrow).snoc fun he => absurd he hj
  known j row hrow := by
    by_cases hj : j = i
    · subst hj
      rw [Function.update_self] at hrow
      obtain ⟨-, hknown, hlive⟩ := h.row hrow
      exact ⟨h.known_snoc hknown, hlive⟩
    · rw [Function.update_of_ne hj] at hrow
      obtain ⟨hknown, hlive⟩ := h.inv.known j row hrow
      exact ⟨h.known_snoc hknown, hlive⟩
  opened := h.opened
  registered := h.registered
  kept := h.kept

end Step

theorem Inv.idle {answer : Option Err} (hinv : Inv site acts s₀ pre l)
    (hi : (play exec s₀ pre).threads i = ret answer) : Inv site acts s₀ (pre ++ [i]) l := by
  have hstep : step exec (play exec s₀ pre) i = play exec s₀ pre := step_ret exec hi
  have hplay : play exec s₀ (pre ++ [i]) = play exec s₀ pre := by
    rw [play_append, play_cons, play_nil, hstep]
  have hnot : ¬ Succeeds (play exec s₀ pre) i := by
    rintro ⟨h, -⟩
    rw [hi] at h
    cases h
  have hbook : ∀ id, book site acts s₀ (pre ++ [i]) id = book site acts s₀ pre id := by
    intro id
    rw [book_snoc]
    unfold entry
    rw [hstep, if_neg hnot]
    cases liveRow (play exec s₀ pre).store id <;> rfl
  refine ⟨hinv.request, fun j row hrow => ?_, ?_, ?_, ?_, ?_⟩
  · refine (hinv.held j row hrow).snoc fun _ => ?_
    unfold Disturbs
    rw [hstep]
    simp
  · rw [hplay]
    exact hinv.known
  · intro id a j ha
    rw [hbook] at ha
    exact hinv.opened id a j ha
  · intro j id
    rw [hplay, hbook]
    exact hinv.registered j id
  · intro id
    rw [hplay, hbook]
    exact hinv.kept id

theorem inv_start (site : Site) (acts : ι → Act) (db : DB) :
    Inv site acts (start site acts db) [] fun i => ⟨(acts i).request, .begun, none⟩ := by
  refine ⟨fun _ => rfl, fun _ _ h => (by cases h), fun _ _ h => (by cases h), ?_, ?_, ?_⟩
  · intro id a j ha hopener
    obtain ⟨row, -, rfl⟩ := Option.map_eq_some_iff.mp ha
    cases hopener
  · intro j id h
    cases h
  · intro id row hrow
    refine ⟨{ base := row }, ?_, balances_base none row⟩
    have hfirst : liveRow db id = some row := hrow
    simp [book, bookFrom, start, hfirst]

/-- What the books of a run have, in terms of what the requests have answered. -/
theorem Inv.paid (hinv : Inv site acts s₀ pre l)
    (hfollows : ∀ j, Follows exec (Next site) (Done site) ((play exec s₀ pre).threads j) (l j))
    {id : Int} {a : Account ι} (ha : book site acts s₀ pre id = some a) :
    Paid site acts (play exec s₀ pre) a.opener (paidTo site l a.opener) := by
  cases hopener : a.opener with
  | none => exact rfl
  | some j =>
    have hbonus : (l j).request.bonus site = (acts j).request.bonus site := by
      rw [hinv.request j]
    have hstage := hinv.opened id a j ha hopener
    simp only [Paid, paidTo]
    rw [← hbonus]
    have hj := hfollows j
    cases hthread : (play exec s₀ pre).threads j with
    | ret answer =>
      rw [hthread] at hj
      rcases hj with hanswered | ⟨hbegun, -⟩ | ⟨hsettled, -⟩
      · exact Or.inl (by simp only [Look.paid, hanswered])
      · exact absurd hbegun hstage.1
      · exact Or.inl hsettled.paid
    | call o k =>
      cases hl : (l j).stage with
      | begun => exact absurd hl hstage.1
      | registered key => exact Or.inr ⟨by simp only [Look.paid, hl], rfl⟩
      | rewarded => exact Or.inl (by simp only [Look.paid, hl])
      | answered answer => exact Or.inl (by simp only [Look.paid, hl])

end Run

theorem undisturbed_of_alone [DecidableEq ι] {s₀ : Requests ι} {i : ι} (others own : List ι)
    (hothers : i ∉ others) (hown : ∀ j ∈ own, j = i) : Undisturbed s₀ (others ++ own) i := by
  intro id _ before since row he _ _ mid j rest hsince hj
  have hmem : j ∈ since := by
    rw [hsince]
    simp
  have hin : j ∈ own := by
    rcases List.append_eq_append_iff.mp he with ⟨more, -, rfl⟩ | ⟨more, rfl, hrest⟩
    · simp [hmem]
    · cases more with
      | nil =>
        rw [List.nil_append] at hrest
        rw [← hrest]
        exact List.mem_cons_of_mem _ hmem
      | cons a more =>
        obtain ⟨rfl, -⟩ := List.cons.inj hrest
        simp at hothers
  exact absurd (hown j hin) hj

/-! ### An invitation during a transfer -/

/-- Judy has earned 600000 with earlier invitations. -/
def judyDB : DB where
  users := Table.single
    { id := 1, username := "judy", affCode := "j", affCount := 2, affQuota := 600000
      affHistoryQuota := 600000 }
  twoFAs := Table.empty
  backupCodes := Table.empty
  passkeys := Table.empty

def generous : Site where
  env := { Env.plain with cfg := { quotaForInviter := 300000 } }
  logQuota _ := ""

/-- Kim registers with Judy's code; Judy moves 500000 to her quota. -/
def inviting : Bool → Act
  | false => ⟨.insert { username := "kim", role := 1, status := 1 } 1,
    { Ctx.plain 0 with randomString := "k" }⟩
  | true => ⟨.transferAffQuotaToQuota 1 500000, Ctx.plain 0⟩

/-- The transfer reads Judy's row; the registration runs; the transfer saves. -/
def transferAround : List Bool := [true, false, false, false, false, false, false, true]

/-- The transfer, and then the registration. -/
def oneAfterTheOther : List Bool := [true, true, false, false, false, false, false, false]

end AuthGateway.AffiliateLedger
