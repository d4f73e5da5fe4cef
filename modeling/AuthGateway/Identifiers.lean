import AuthGateway.Lib.Runs
import AuthGateway.UsableAccounts

/-!
# What a login name addresses

The login takes a text for a user name or an e-mail, the reset of a password
takes it for an e-mail.  `Unambiguous` says that no text is a name of two live
accounts.

User names are unique by their index.  E-mails are not, and nothing keeps a user
name and an e-mail apart: only a registration looks, when it is verified by
e-mail.  `Gives` lists what a request that passes its checks gives an account;
**where none of it is taken, the names stay unambiguous**
(`unambiguous_of_clear`), and a second login at a provider takes what it wants
(`shared_email`).
-/

namespace AuthGateway.Identifiers

open Common Model Controller Accounts Refusals GoString
open UsableAccounts (unopened setUp hire)

/-! ### Names -/

/-- A text that the login takes for the account. -/
def Names (u : User) (text : String) : Prop := text ≠ "" ∧ (u.username = text ∨ u.email = text)

/-- **Every text names at most one live account.** -/
def Unambiguous (db : DB) : Prop :=
  ∀ text, ∀ u ∈ db.users, ∀ v ∈ db.users, u.live = true → v.live = true →
    Names u text → Names v text → u = v

/-- A name of one account is a name of the other, beside the unique user names. -/
def Crossed (u v : User) : Prop :=
  (u.username ≠ "" ∧ u.username = v.email) ∨ (v.username ≠ "" ∧ v.username = u.email) ∨
    (u.email ≠ "" ∧ u.email = v.email)

theorem Crossed.symm {u v : User} (h : Crossed u v) : Crossed v u := by
  rcases h with h | h | ⟨hne, he⟩
  · exact Or.inr (Or.inl h)
  · exact Or.inl h
  · refine Or.inr (Or.inr ⟨?_, he.symm⟩)
    rw [← he]
    exact hne

/-- No two live accounts of the set are crossed. -/
def Apart (accounts : Set User) : Prop :=
  ∀ u ∈ accounts, ∀ v ∈ accounts, u.live = true → v.live = true → u.id ≠ v.id → ¬ Crossed u v

theorem apart_iff_rows {db : DB} : Apart (cores db) ↔ ∀ u ∈ db.users, ∀ v ∈ db.users,
    u.live = true → v.live = true → u.id ≠ v.id → ¬ Crossed u v := by
  constructor
  · intro h u hu v hv hulive hvlive hne hcrossed
    exact h u.core (mem_cores hu) v.core (mem_cores hv) hulive hvlive hne hcrossed
  · rintro h - ⟨u, hu, rfl⟩ - ⟨v, hv, rfl⟩ hulive hvlive hne hcrossed
    exact h u hu v hv hulive hvlive hne hcrossed

theorem unambiguous_iff {db : DB} : Unambiguous db ↔ Apart (cores db) := by
  rw [apart_iff_rows]
  constructor
  · intro h u hu v hv hulive hvlive hne hcrossed
    have hsame : ∀ text, Names u text → Names v text → False := fun text hun hvn =>
      hne (congrArg User.id (h text u hu v hv hulive hvlive hun hvn))
    rcases hcrossed with ⟨hname, he⟩ | ⟨hname, he⟩ | ⟨hname, he⟩
    · exact hsame u.username ⟨hname, Or.inl rfl⟩ ⟨hname, Or.inr he.symm⟩
    · exact hsame v.username ⟨hname, Or.inr he.symm⟩ ⟨hname, Or.inl rfl⟩
    · exact hsame u.email ⟨hname, Or.inr rfl⟩ ⟨hname, Or.inr he.symm⟩
  · rintro h text u hu v hv hulive hvlive ⟨hne, hun⟩ ⟨-, hvn⟩
    by_contra hdiff
    rcases Table.eq_or_apart hu hv with he | ⟨hid, hclash⟩
    · exact hdiff he
    refine h u hu v hv hulive hvlive hid ?_
    rcases hun with rfl | rfl
    · rcases hvn with hvn | hvn
      · -- two rows never share a user name
        have hsame : u.clash v = true := by simp [User.clash, hvn]
        rw [show u.clash v = false from hclash] at hsame
        exact absurd hsame Bool.false_ne_true
      · exact Or.inl ⟨hne, hvn.symm⟩
    · rcases hvn with hvn | hvn
      · refine Or.inr (Or.inl ⟨?_, hvn⟩)
        rw [hvn]
        exact hne
      · exact Or.inr (Or.inr ⟨hne, hvn.symm⟩)

/-! ### What a change does to the names -/

/-- The names are no other live account's: the user name is no e-mail, the
e-mail neither. -/
def Free (db : DB) (self : Option Int) (username email : String) : Prop :=
  ∀ x ∈ db.users, x.live = true → self ≠ some x.id →
    (username ≠ "" → x.email ≠ username) ∧
      (email ≠ "" → x.username ≠ email ∧ x.email ≠ email)

theorem apart_edit_names {db : DB} {p : User → Bool} {g : User → User} (h : Apart (cores db))
    (hg : ∀ u ∈ db.users, p u = true →
      (g u).id = u.id ∧ (g u).username = u.username ∧ (g u).email = u.email) :
    Apart ((Change.edit p g).cores db) := by
  have hfrom : ∀ v ∈ (Change.edit p g).cores db, v.live = true →
      ∃ row ∈ db.users, row.live = true ∧ v.id = row.id ∧ v.username = row.username ∧
        v.email = row.email := by
    intro v hv hlive
    obtain ⟨row, hrow, rfl | ⟨hrowlive, hp, rfl⟩⟩ := mem_cores_edit hv
    · exact ⟨row, hrow, hlive, rfl, rfl, rfl⟩
    · exact ⟨row, hrow, hrowlive, hg row hrow hp⟩
  intro u hu v hv hulive hvlive hne hcrossed
  obtain ⟨x, hx, hxlive, hxid, hxname, hxemail⟩ := hfrom u hu hulive
  obtain ⟨y, hy, hylive, hyid, hyname, hyemail⟩ := hfrom v hv hvlive
  refine apart_iff_rows.mp h x hx y hy hxlive hylive ?_ ?_
  · rw [← hxid, ← hyid]
    exact hne
  · unfold Crossed at hcrossed ⊢
    rw [← hxname, ← hxemail, ← hyname, ← hyemail]
    exact hcrossed

/-- Given names that are free, the account is crossed with nobody it was not
crossed with before. -/
theorem not_crossed_of_free {row v : User} {username email : String}
    (hname : username = row.username ∨ (username ≠ "" → v.email ≠ username))
    (hemail : email = row.email ∨ (email ≠ "" → v.username ≠ email ∧ v.email ≠ email))
    {u : User} (hu : u.username = username) (hue : u.email = email) (h : ¬ Crossed row v) :
    ¬ Crossed u v := by
  subst hu hue
  rintro (⟨hne, he⟩ | ⟨hne, he⟩ | ⟨hne, he⟩)
  · rcases hname with hname | hname
    · rw [hname] at hne he
      exact h (Or.inl ⟨hne, he⟩)
    · exact hname hne he.symm
  · rcases hemail with hemail | hemail
    · rw [hemail] at he
      exact h (Or.inr (Or.inl ⟨hne, he⟩))
    · exact (hemail (he ▸ hne)).1 he
  · rcases hemail with hemail | hemail
    · rw [hemail] at hne he
      exact h (Or.inr (Or.inr ⟨hne, he⟩))
    · exact (hemail hne).2 he.symm

theorem apart_editId {db : DB} {id : Int} {g : User → User} {username email : String}
    (h : Apart (cores db))
    (hfree : ∀ row ∈ db.users, row.live = true → row.id = id → Free db (some id) username email)
    (hid : ∀ u, (g u).id = u.id)
    (hname : ∀ u, (g u).username = u.username ∨ (g u).username = username)
    (hemail : ∀ u, (g u).email = u.email ∨ (g u).email = email) :
    Apart ((Change.editId id g).cores db) := by
  -- of two accounts with different ids one at most is edited
  have hone : ∀ row ∈ db.users, row.live = true → row.id = id → ∀ v ∈ db.users, v.live = true →
      v.id ≠ id → ¬ Crossed (g row).core v.core := by
    intro row hrow hrowlive hrowid v hv hvlive hvid
    have hv' := hfree row hrow hrowlive hrowid v hv hvlive fun he => hvid (Option.some.inj he).symm
    have hold : ¬ Crossed row.core v.core :=
      h row.core (mem_cores hrow) v.core (mem_cores hv) hrowlive hvlive
        (show row.id ≠ v.id from fun he => hvid (he.symm.trans hrowid))
    refine not_crossed_of_free ?_ ?_ rfl rfl hold
    · refine (hname row).imp_right fun he => ?_
      show (g row).username ≠ "" → v.email ≠ (g row).username
      rw [he]
      exact hv'.1
    · refine (hemail row).imp_right fun he => ?_
      show (g row).email ≠ "" → v.username ≠ (g row).email ∧ v.email ≠ (g row).email
      rw [he]
      exact hv'.2
  intro u hu v hv hulive hvlive hne
  obtain ⟨x, hx, rfl | ⟨hxlive, hxp, rfl⟩⟩ := mem_cores_edit hu
  · obtain ⟨y, hy, rfl | ⟨hylive, hyp, rfl⟩⟩ := mem_cores_edit hv
    · exact h _ (mem_cores hx) _ (mem_cores hy) hulive hvlive hne
    · have hyid : y.id = id := beq_iff_eq.mp hyp
      refine fun hcrossed => hone y hy hylive hyid x hx hulive ?_ hcrossed.symm
      intro hxid
      exact hne (hxid.trans (hyid.symm.trans (hid y).symm))
  · have hxid : x.id = id := beq_iff_eq.mp hxp
    obtain ⟨y, hy, rfl | ⟨-, hyp, rfl⟩⟩ := mem_cores_edit hv
    · refine hone x hx hxlive hxid y hy hvlive ?_
      intro hyid
      exact hne ((hid x).trans (hxid.trans hyid.symm))
    · have hyid : y.id = id := beq_iff_eq.mp hyp
      exact absurd ((hid x).trans (hxid.trans (hyid.symm.trans (hid y).symm))) hne

theorem apart_create {db : DB} {row : User} (h : Apart (cores db))
    (hfree : Free db none row.username row.email) : Apart ((Change.create row).cores db) := by
  have hnew : ∀ v ∈ cores db, v.live = true → ¬ Crossed row.core v := by
    rintro - ⟨v, hv, rfl⟩ hvlive
    have hv' := hfree v hv hvlive (Option.some_ne_none _).symm
    rintro (⟨hne, he⟩ | ⟨hne, he⟩ | ⟨hne, he⟩)
    · exact hv'.1 hne he.symm
    · exact (hv'.2 (show row.email ≠ "" from he ▸ hne)).1 he
    · exact (hv'.2 hne).2 he.symm
  rintro u (rfl | hu) v (rfl | hv) hulive hvlive hne
  · exact absurd rfl hne
  · exact hnew v hv hvlive
  · exact fun hcrossed => hnew u hu hulive hcrossed.symm
  · exact h u hu v hv hulive hvlive hne

/-! ### What a request gives -/

/-- The names that a request gives an account, where its handler is given `ctx`:
the account it writes, if there is one already, the user name and the e-mail. -/
inductive Gives (sys : System) (a : Act) (ctx : Ctx) : Option Int → String → String → Prop
  | root {req : SetupRequest} (hreq : a.request = .postSetup (some req))
      (hsetup : sys.setup = false) (hroot : ¬ HasRoot sys.db) : Gives sys a ctx none req.username ""
  | registered {cleanUser : User}
      (h : Registers a.env ctx a.cookie sys.codes sys.db a.request cleanUser) :
      Gives sys a ctx none cleanUser.username cleanUser.email
  | created {user : User} (hreq : a.request = .createUser (some user))
      (hrole : user.role < ctx.role) : Gives sys a ctx none (trimSpace user.username) ""
  | edited {user row : User} (hreq : a.request = .updateUser (some user))
      (hrow : row ∈ sys.db.users) (hlive : row.live = true) (hid : row.id = user.id)
      (hrank : outranked ctx.role row.role = false) :
      Gives sys a ctx (some user.id) user.username ""
  | selfEdited {user row : User} (hreq : a.request = .updateSelf (some (.account user)))
      (hrow : row ∈ sys.db.users) (hlive : row.live = true) (hid : row.id = ctx.id) :
      Gives sys a ctx (some ctx.id) user.username ""
  | emailBound {email code : String} {row : User} (hreq : a.request = .emailBind email code)
      (hrow : row ∈ sys.db.users) (hlive : row.live = true) (hid : a.cookie.id = some row.id)
      (hcode : sys.codes.verify ctx.now email code emailVerificationPurpose = true) :
      Gives sys a ctx (some row.id) "" email

/-- What the request gives, once it has passed its checks, is free. -/
def Clear (sys : System) (a : Act) : Prop :=
  ∀ ctx, Passes sys a ctx →
    ∀ self username email, Gives sys a ctx self username email → Free sys.db self username email

theorem ite_or {text old : String} : (if text = "" then old else text) = old ∨
    (if text = "" then old else text) = text := by
  split
  · exact Or.inl rfl
  · exact Or.inr rfl

theorem apart_permits {sys : System} {a : Act} {ctx : Ctx} {c : Change}
    (hfree : ∀ self username email, Gives sys a ctx self username email →
      Free sys.db self username email)
    (hpermits : Permits a.env ctx a.cookie sys.codes sys.db a.request c)
    (h : Apart (cores sys.db)) : Apart (c.cores sys.db) := by
  generalize hq : a.request = q at hpermits
  cases hpermits with
  | registered hregisters hnew =>
    rw [← hq] at hregisters
    have hnames := hfree _ _ _ (.registered hregisters)
    rw [← (New.names hnew).1, ← (New.names hnew).2] at hnames
    exact apart_create h hnames
  | created hrole hnew =>
    have hnames := hfree _ _ _ (.created hq hrole)
    obtain ⟨hname, hemail⟩ := New.names hnew
    refine apart_create h ?_
    rw [hname, hemail]
    exact hnames
  | edited hrow hlive hid hrank =>
    have hnames := hfree _ _ _ (.edited hq hrow hlive hid hrank)
    exact apart_editId h (fun _ _ _ _ => hnames) (fun _ => rfl) (fun u => Or.inr rfl)
      fun u => Or.inl rfl
  | selfEdited hrow hlive hid =>
    have hnames := hfree _ _ _ (.selfEdited hq hrow hlive hid)
    exact apart_editId h (fun _ _ _ _ => hnames) (fun _ => rfl) (fun u => ite_or)
      fun u => Or.inl rfl
  | @emailBound email code id hcookie hcode =>
    have hnames : ∀ row ∈ sys.db.users, row.live = true → row.id = id →
        Free sys.db (some id) "" email := by
      rintro row hrow hlive rfl
      exact hfree _ _ _ (.emailBound hq hrow hlive hcookie hcode)
    exact apart_editId h hnames (fun _ => rfl) (fun u => Or.inl rfl) fun u => ite_or
  | managed hrow _ _ _ haction =>
    obtain ⟨role, status, rfl, -⟩ := manageAction_ok haction
    refine apart_edit_names h fun u hu hp => ?_
    rw [Table.eq_of_key hu hrow (beq_iff_eq.mp hp)]
    exact ⟨rfl, rfl, rfl⟩
  | managedDelete => exact apart_edit_names h fun _ _ _ => ⟨rfl, rfl, rfl⟩
  | deleted =>
    intro u hu v hv
    exact h u hu.1 v hv.1
  | selfDeleted => exact apart_edit_names h fun _ _ _ => ⟨rfl, rfl, rfl⟩
  | tokenGenerated => exact apart_edit_names h fun _ _ _ => ⟨rfl, rfl, rfl⟩
  | affCodeGiven => exact apart_edit_names h fun _ _ _ => ⟨rfl, rfl, rfl⟩
  | bound hbinds =>
    refine apart_edit_names h fun u _ _ => ?_
    cases hbinds <;> exact ⟨rfl, rfl, rfl⟩
  | passwordReset => exact apart_edit_names h fun _ _ _ => ⟨rfl, rfl, rfl⟩

/-- **A step that gives nothing but what is free** keeps the names unambiguous. -/
theorem unambiguous_step {sys : System} {a : Act} (hclear : Clear sys a)
    (h : Unambiguous sys.db) : Unambiguous (step sys a).db := by
  rw [unambiguous_iff] at h ⊢
  obtain ⟨c, hc, hcores⟩ := step_written sys a
  rw [hcores]
  rcases hc with rfl | ⟨hpasses, hpermits⟩ | ⟨hpasses, hreq, hsetup, hroot, -, password, -, hnew⟩
  · exact h
  · exact apart_permits (hclear _ hpasses) hpermits h
  · refine apart_create h ?_
    rw [hnew.names.1, hnew.names.2]
    exact hclear _ hpasses _ _ _ (.root hreq hsetup hroot)

/-- **In every run whose requests give nothing but what is free, no text ever
names two live accounts.** -/
theorem unambiguous_of_clear (sys : System) (h : Unambiguous sys.db) (acts : List Act)
    (hclear : Runs.Always (fun pre a => Clear (Runs.after step sys pre) a) acts) :
    Unambiguous (Runs.after step sys acts).db := by
  refine Runs.run_induction (P := fun acts => Unambiguous (Runs.after step sys acts).db) h ?_ acts
    hclear
  intro acts a _ hacts hclear
  rw [Runs.after_snoc]
  exact unambiguous_step hclear hacts

/-! ### Two logins at two providers -/

def noAccounts : System :=
  System.start true ⟨Table.empty, Table.empty, Table.empty, Table.empty⟩

def providers : Env := { Env.plain with cfg := { gitHubOAuthEnabled := true, oidcEnabled := true } }

def gitHubLogin : Act where
  request := .login (.gitHubOAuth ⟨"s", "c"⟩ (.ok ⟨"alice", "Alice", "alice@example.com"⟩))
  cookie := { oauthState := some "s" }
  env := providers
  ctx := { Ctx.plain 0 with randomString := "a" }

def oidcLogin : Act where
  request := .login (.oidcAuth ⟨"s", "c"⟩ (.ok ⟨"42", "alice@example.com", "Alice", "alice"⟩))
  cookie := { oauthState := some "s" }
  env := providers
  ctx := { Ctx.plain 0 with randomString := "b" }

theorem free_of_names {db : DB} {names : List (String × String)} {username email : String}
    (hrows : db.users.rows.map (fun u => (u.username, u.email)) = names)
    (h : ∀ n ∈ names, (username ≠ "" → n.2 ≠ username) ∧
      (email ≠ "" → n.1 ≠ email ∧ n.2 ≠ email)) (self : Option Int) :
    Free db self username email := by
  intro x hx _ _
  refine h (x.username, x.email) ?_
  rw [← hrows]
  exact List.mem_map_of_mem hx

/-- Root wants an account under Alice's address, and leaves the password out. -/
def noPassword : Act where
  request := .createUser (some { username := "alice@example.com", role := 1 })
  cookie := { username := some "root", id := some 1, role := some 100, status := some 1 }
  env := Env.plain
  ctx := { Ctx.plain 0 with randomString := "d" }

/-- Root, Bob, and Alice with the address that GitHub reports; what is refused
may ask for the same. -/
theorem unambiguous_arrivals :
    Unambiguous (Runs.after step unopened [setUp, hire "bob" 10, gitHubLogin, noPassword]).db := by
  refine unambiguous_of_clear unopened (fun _ u hu => nomatch hu)
    [setUp, hire "bob" 10, gitHubLogin, noPassword] ?_
  have hsplit : [setUp, hire "bob" 10, gitHubLogin, noPassword]
      = [] ++ [setUp] ++ [hire "bob" 10] ++ [gitHubLogin] ++ [noPassword] := rfl
  rw [hsplit, Runs.always_snoc, Runs.always_snoc, Runs.always_snoc, Runs.always_snoc]
  refine ⟨⟨⟨⟨Runs.always_nil, ?_⟩, ?_⟩, ?_⟩, ?_⟩
  · intro _ _ _ _ _ _ x hx
    cases hx
  · intro ctx _ self username email hgives
    have hrows : (Runs.after step unopened ([] ++ [setUp])).db.users.rows.map
        (fun u => (u.username, u.email)) = [("root", "")] := by decide
    cases hgives with
    | created hreq =>
      cases hreq
      exact free_of_names hrows (by decide) none
    | registered hregisters => cases hregisters
    | root hreq => cases hreq
    | edited hreq => cases hreq
    | selfEdited hreq => cases hreq
    | emailBound hreq => cases hreq
  · intro ctx _ self username email hgives
    have hrows : (Runs.after step unopened ([] ++ [setUp] ++ [hire "bob" 10])).db.users.rows.map
        (fun u => (u.username, u.email)) = [("root", ""), ("bob", "")] := by decide
    have hmax : maxId (Runs.after step unopened ([] ++ [setUp] ++ [hire "bob" 10])).db + 1 = 3 := by
      decide
    cases hgives with
    | registered hregisters =>
      cases hregisters with
      | gitHub _ hinfo =>
        cases hinfo
        rw [hmax]
        exact free_of_names hrows (by decide) none
    | created hreq => cases hreq
    | root hreq => cases hreq
    | edited hreq => cases hreq
    | selfEdited hreq => cases hreq
    | emailBound hreq => cases hreq
  · intro ctx hpasses
    exact absurd rfl hpasses.accepted.2.1

/-- **The same e-mail from two providers**: two accounts have it. -/
theorem shared_email :
    ¬ Unambiguous (Runs.after step noAccounts [gitHubLogin, oidcLogin]).db := by
  have hrows : (Runs.after step noAccounts [gitHubLogin, oidcLogin]).db.users.rows.map
      (fun u => (u.username, u.email, u.live))
      = [("github_1", "alice@example.com", true), ("alice", "alice@example.com", true)] := by
    decide
  generalize (Runs.after step noAccounts [gitHubLogin, oidcLogin]).db = db at hrows ⊢
  obtain ⟨u, rest, husers, hu, hrest⟩ := List.map_eq_cons_iff.mp hrows
  obtain ⟨v, rest, rfl, hv, -⟩ := List.map_eq_cons_iff.mp hrest
  simp only [Prod.mk.injEq] at hu hv
  intro h
  have hmem : u ∈ db.users ∧ v ∈ db.users := by
    rw [Table.mem_def, Table.mem_def, husers]
    simp
  have hnames : ∀ w : User, w.email = "alice@example.com" → Names w "alice@example.com" :=
    fun w hw => ⟨by decide, Or.inr hw⟩
  have he : u = v := h "alice@example.com" u hmem.1 v hmem.2 hu.2.2 hv.2.2 (hnames u hu.2.1)
    (hnames v hv.2.1)
  rw [he, hv.1] at hu
  exact absurd hu.1 (by decide)

end AuthGateway.Identifiers
