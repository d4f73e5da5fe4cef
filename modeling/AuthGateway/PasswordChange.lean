import AuthGateway.Accounts
import AuthGateway.Lib.Bcrypt

/-!
# A changed password logs in

`UpdateSelf` and `UpdateUser` let the word `$I_LOVE_U` stand for "no new password", although
the validator takes it for a password like any other.

**After a change that was answered with success, the new password is the one that logs in,
exactly when the account can log in at all, the password is not that word, and it repeats no
other one around a NUL** (`new_password_logs_in_iff`).
-/

namespace AuthGateway.PasswordChange

open Common GoString Model Controller

/-! ### What a change writes -/

/-- The live row with this id becomes what `f` makes of it. -/
def Written (db : DB) (id : Int) (f : User → User) (db' : DB) : Prop :=
  ∃ t, db.users.update (fun u => u.live && u.id == id) f = some t ∧ db' = db.setUsers t

/-- Name and password are new; what else decides a login stays. -/
structure Alters (username : User → String) (hash : Option String) (f : User → User) : Prop where
  id : ∀ u, (f u).id = u.id
  live : ∀ u, (f u).live = u.live
  email : ∀ u, (f u).email = u.email
  status : ∀ u, (f u).status = u.status
  username : ∀ u, (f u).username = username u
  password : ∀ u, (f u).password = hash.getD u.password

/-- The hash that is stored for a password; the word that stands for none stores none. -/
def Hashes (ctx : Ctx) (password : String) (hash : Option String) : Prop :=
  if password = iLoveU then hash = none
  else ∃ h, ctx.password2Hash password = .ok h ∧ hash = some h

theorem hashes_none {ctx : Ctx} {password : String} (h : password = iLoveU) :
    Hashes ctx password none := by
  rw [Hashes, if_pos h]

theorem hashes_some {ctx : Ctx} {password hash : String} (h : password ≠ iLoveU)
    (hhash : ctx.password2Hash password = .ok hash) : Hashes ctx password (some hash) := by
  rw [Hashes, if_neg h]
  exact ⟨hash, hhash, rfl⟩

theorem exec_userUpdates_ok {p : User → Bool} {f : User → User} {db : DB} {a : Unit}
    (h : (exec (.userUpdates p f) db).1 = .ok a) :
    ∃ t, db.users.update (fun u => u.live && p u) f = some t ∧
      (exec (.userUpdates p f) db).2 = db.setUsers t := by
  simp only [exec] at h ⊢
  cases hupdate : db.users.update (fun u => u.live && p u) f with
  | none =>
    rw [hupdate] at h
    cases h
  | some t => exact ⟨t, rfl, rfl⟩

/-- Whatever fails, a `First` and `Updates` without an error has written the row. -/
theorem firstAndUpdates_written (newUser : User) (f : User → User) (db : DB) :
    Sat (newUser.firstAndUpdates f) (fun r db' => r.1 = none → Written db newUser.id f db') db := by
  unfold User.firstAndUpdates
  refine (newUser.first_sat false _ db).bind ?_
  rintro ⟨err, user⟩ db₁ ⟨rfl, hr⟩
  have hid : user.id = newUser.id := by
    rcases hr with ⟨e, he⟩ | ⟨row, -, he, -, hrow, -⟩
    · obtain rfl : user = newUser := congrArg Prod.snd he
      rfl
    · obtain rfl : user = row := congrArg Prod.snd he
      exact beq_iff_eq.mp hrow
  dsimp only
  split
  · exact Sat.pure fun h => nomatch h
  · refine Sat.perform fun r db₂ h => ?_
    rw [hid] at h
    cases r with
    | error e => exact Sat.pure fun h => nomatch h
    | ok a =>
      refine Sat.pure fun _ => ?_
      rcases h with ⟨hok, hdb⟩ | ⟨⟨e, he⟩, -⟩
      · obtain ⟨t, ht, hstored⟩ := exec_userUpdates_ok hok.symm
        exact ⟨t, ht, hdb.trans hstored⟩
      · exact nomatch he

theorem update_written (ctx : Ctx) (user : User) (updatePassword : Bool) (db : DB) :
    Sat (user.update ctx updatePassword) (fun r db' => r.1 = none →
      ∃ newUser, user.hashPassword ctx updatePassword = .ok newUser ∧
        Written db newUser.id (fun row => row.overlay newUser) db') db := by
  unfold User.update
  cases hhash : user.hashPassword ctx updatePassword with
  | error e => exact Sat.pure fun h => nomatch h
  | ok newUser =>
    refine Prog.Holds.mono (firstAndUpdates_written newUser _ db) fun r db' h hnone => ?_
    exact ⟨newUser, rfl, h hnone⟩

theorem edit_written (ctx : Ctx) (user : User) (updatePassword : Bool) (db : DB) :
    Sat (user.edit ctx updatePassword) (fun r db' => r.1 = none →
      ∃ newUser, user.hashPassword ctx updatePassword = .ok newUser ∧
        Written db newUser.id (Accounts.editColumns newUser
          (if updatePassword then some newUser.password else none)) db') db := by
  unfold User.edit
  cases hhash : user.hashPassword ctx updatePassword with
  | error e => exact Sat.pure fun h => nomatch h
  | ok newUser =>
    refine Prog.Holds.mono (firstAndUpdates_written newUser _ db) fun r db' h hnone => ?_
    refine ⟨newUser, rfl, ?_⟩
    have hf : Accounts.editColumns newUser
        (if updatePassword then some newUser.password else none) =
        fun row => { row with
          username := newUser.username
          displayName := newUser.displayName
          group := newUser.group
          quota := newUser.quota
          remark := newUser.remark
          password := if updatePassword then newUser.password else row.password } := by
      funext row
      cases updatePassword <;> rfl
    rw [hf]
    exact h hnone

/-! ### The two handlers -/

/-- A request that gives an account a new password. -/
inductive Change
  | updateSelf (user : User)
  | updateUser (user : User)

namespace Change

/-- The fields of the body. -/
def body : Change → User
  | updateSelf user => user
  | updateUser user => user

def handler (env : Env) (ctx : Ctx) (s : Sess) : Change → M Out
  | updateSelf user => Controller.updateSelf env ctx s (some (.account user))
  | updateUser user => Controller.updateUser ctx s (some user)

/-- Whose password it is. -/
def target (ctx : Ctx) : Change → Int
  | updateSelf _ => ctx.id
  | updateUser user => user.id

/-- The user name of the account afterwards: `Update` leaves it for an empty one. -/
def username : Change → User → String
  | updateSelf user, row => if user.username = "" then row.username else user.username
  | updateUser user, _ => user.username

end Change

/-- What a change writes when it is answered with success. -/
def Changes (ctx : Ctx) (c : Change) (db db' : DB) : Prop :=
  ∃ hash f, Hashes ctx c.body.password hash ∧ Alters c.username hash f ∧
    Written db (c.target ctx) f db'

/-- **What the code relies on of bcrypt**: it hashes no password of more than 72 bytes, no hash
is empty and each fits its password, and what fits a hash depends on the key alone. -/
structure Bcrypted (env : Env) (ctx : Ctx) : Prop where
  short : ∀ password hash, ctx.password2Hash password = .ok hash →
    (Bcrypt.bytes password).length ≤ 72
  nonempty : ∀ password hash, ctx.password2Hash password = .ok hash → hash ≠ ""
  accepts : ∀ password hash, ctx.password2Hash password = .ok hash →
    env.bcryptCompare hash password = true
  same : ∀ hash password, env.bcryptCompare hash password = true →
    ∀ other, env.bcryptCompare hash other = true ↔ Bcrypt.key other = Bcrypt.key password

variable {env : Env} {ctx : Ctx} {s : Sess}

theorem checkUpdatePassword_sat (env : Env) (original password : String) (id : Int) (db : DB) :
    Sat (checkUpdatePassword env original password id) (fun r db' => db' = db ∧
      ∀ b, r = .ok b → b = (password != "")) db := by
  unfold checkUpdatePassword
  refine (getUserById_sat id true db).bind ?_
  rintro r db' ⟨rfl, -⟩
  cases r with
  | error e => exact Sat.pure ⟨rfl, fun b h => nomatch h⟩
  | ok user =>
    dsimp only
    split
    · exact Sat.pure ⟨rfl, fun b h => nomatch h⟩
    · exact Sat.pure ⟨rfl, fun b h => (Except.ok.inj h).symm⟩

/-- What `Update` makes of a row, when the struct has a password or none. -/
theorem alters_overlay (user : User) (id : Int) (hash : Option String) (hne : hash ≠ some "") :
    Alters (Change.updateSelf user).username hash fun row => row.overlay
      { id := id, username := user.username, password := hash.getD "",
        displayName := user.displayName } where
  id _ := rfl
  live _ := rfl
  email _ := rfl
  status _ := rfl
  username _ := rfl
  password row := by
    cases hash with
    | none => rfl
    | some hash =>
      have hfull : hash ≠ "" := fun h => hne (congrArg some h)
      exact if_neg hfull

theorem hashPassword_some {user newUser : User}
    (h : user.hashPassword ctx true = .ok newUser) :
    ∃ hash, ctx.password2Hash user.password = .ok hash ∧
      newUser = { user with password := hash } := by
  rw [User.hashPassword, if_pos rfl] at h
  cases hhash : ctx.password2Hash user.password with
  | error e =>
    rw [hhash] at h
    exact nomatch h
  | ok hash =>
    rw [hhash] at h
    exact ⟨hash, rfl, (Except.ok.inj h).symm⟩

theorem updateSelf_changes (hbcrypt : Bcrypted env ctx) {user : User} (hne : user.password ≠ "")
    (db : DB) :
    Sat (Controller.updateSelf env ctx s (some (.account user))) (fun out db' =>
      out.reply = .done "" → Changes ctx (.updateSelf user) db db') db := by
  show Sat (accountUpdate env ctx s user) _ db
  unfold accountUpdate
  dsimp only
  rw [if_neg hne]
  split
  · exact Sat.pure fun h => nomatch h
  refine (checkUpdatePassword_sat env _ _ _ db).bind ?_
  rintro r db₁ ⟨rfl, hr⟩
  cases r with
  | error e => exact Sat.pure fun h => nomatch h
  | ok updatePassword =>
    obtain rfl := hr updatePassword rfl
    dsimp only
    refine (update_written ctx _ _ db₁).bind ?_
    rintro ⟨err, u⟩ db₂ hwritten
    cases err with
    | some e => exact Sat.pure fun h => nomatch h
    | none =>
      refine Sat.pure fun _ => ?_
      obtain ⟨newUser, hhash, hwritten⟩ := hwritten rfl
      by_cases hword : user.password = iLoveU
      · rw [if_pos hword] at hhash
        obtain rfl := Except.ok.inj hhash
        exact ⟨none, _, hashes_none hword, alters_overlay user ctx.id none nofun, hwritten⟩
      · rw [if_neg hword, bne_iff_ne.mpr hne] at hhash
        obtain ⟨hash, hok, rfl⟩ := hashPassword_some hhash
        have hfull : some hash ≠ some "" := fun h =>
          hbcrypt.nonempty _ _ hok (Option.some.inj h)
        exact ⟨some hash, _, hashes_some hword hok,
          alters_overlay user ctx.id (some hash) hfull, hwritten⟩

theorem alters_edit (user : User) (hash : Option String) :
    Alters (Change.updateUser user).username hash (Accounts.editColumns user hash) where
  id _ := rfl
  live _ := rfl
  email _ := rfl
  status _ := rfl
  username _ := rfl
  password _ := rfl

theorem updateUser_changes {user : User} (hne : user.password ≠ "") (db : DB) :
    Sat (Controller.updateUser ctx s (some user)) (fun out db' =>
      out.reply = .done "" → Changes ctx (.updateUser user) db db') db := by
  unfold Controller.updateUser
  dsimp only
  split
  · exact Sat.pure fun h => nomatch h
  split
  · exact Sat.pure fun h => nomatch h
  refine (getUserById_sat user.id false db).bind ?_
  rintro r db₁ ⟨rfl, -⟩
  cases r with
  | error e => exact Sat.pure fun h => nomatch h
  | ok origin =>
    dsimp only
    split
    · exact Sat.pure fun h => nomatch h
    split
    · exact Sat.pure fun h => nomatch h
    refine (edit_written ctx _ _ db₁).bind ?_
    rintro ⟨err, u⟩ db₂ hwritten
    cases err with
    | some e => exact Sat.pure fun h => nomatch h
    | none =>
      refine Sat.pure fun _ => ?_
      obtain ⟨newUser, hhash, hwritten⟩ := hwritten rfl
      by_cases hword : user.password = iLoveU
      · rw [if_pos hword] at hhash hwritten
        obtain rfl := Except.ok.inj hhash
        exact ⟨none, _, hashes_none hword, alters_edit user none, hwritten⟩
      · rw [if_neg hword, bne_iff_ne.mpr hne] at hhash hwritten
        obtain ⟨hash, hok, rfl⟩ := hashPassword_some hhash
        exact ⟨some hash, _, hashes_some hword hok, alters_edit user (some hash), hwritten⟩

/-- **What a change that was answered with success has written**, whatever failed on the way. -/
theorem handler_changes (hbcrypt : Bcrypted env ctx) (c : Change) (hne : c.body.password ≠ "")
    (db : DB) :
    Sat (c.handler env ctx s) (fun out db' => out.reply = .done "" → Changes ctx c db db') db := by
  cases c with
  | updateSelf user =>
    rw [Change.handler]
    exact updateSelf_changes hbcrypt hne db
  | updateUser user =>
    rw [Change.handler]
    exact updateUser_changes hne db

/-! ### Who logs in afterwards -/

/-- **`ValidateAndFill` succeeds with this password**, for this account, **and with no other**
that bcrypt reads to its end. -/
def OnlyWith (env : Env) (db : DB) (name : String) (id : Int) (password : String) : Prop :=
  (∃ u, Validates env (Store.ofDB db) ⟨name, password⟩ u ∧ u.id = id) ∧
    ∀ other, Bcrypt.Plain other → other ≠ password →
      ∀ u, ¬ Validates env (Store.ofDB db) ⟨name, other⟩ u

/-- The name leads to the account of a row whose user name becomes `username`: it is that user
name or the e-mail address, and no older account has it as either. -/
def Leads (db : DB) (row : User) (username name : String) : Prop :=
  trimSpace name ≠ "" ∧ (username = trimSpace name ∨ row.email = trimSpace name) ∧
    ∀ x ∈ db.users, x.live = true → x.id < row.id →
      x.username ≠ trimSpace name ∧ x.email ≠ trimSpace name

theorem mem_written {db db' : DB} {id : Int} {f : User → User} (h : Written db id f db')
    {x : User} : x ∈ db'.users ↔ (∃ u ∈ db.users, u.live = true ∧ u.id = id ∧ f u = x) ∨
      x ∈ db.users ∧ ¬ (x.live = true ∧ x.id = id) := by
  obtain ⟨t, ht, rfl⟩ := h
  show x ∈ t ↔ _
  have htouched : ∀ u : User, (u.live && u.id == id) = true ↔ u.live = true ∧ u.id = id := by
    intro u
    simp
  rw [Table.mem_update ht]
  constructor
  · rintro ⟨u, hu, rfl⟩
    by_cases hrow : u.live = true ∧ u.id = id
    · left
      refine ⟨u, hu, hrow.1, hrow.2, ?_⟩
      rw [Table.touch, if_pos ((htouched u).mpr hrow)]
    · right
      rw [Table.touch, if_neg (fun h => hrow ((htouched u).mp h))]
      exact ⟨hu, hrow⟩
  · rintro (⟨u, hu, hlive, hid, rfl⟩ | ⟨hx, hother⟩)
    · exact ⟨u, hu, by rw [Table.touch, if_pos ((htouched u).mpr ⟨hlive, hid⟩)]⟩
    · exact ⟨x, hx, by rw [Table.touch, if_neg (fun h => hother ((htouched x).mp h))]⟩

section Afterwards

variable {db db' : DB} {row : User} {username : User → String} {hash : Option String}
  {f : User → User} {name password : String}

/-- **The name finds the account afterwards exactly when it leads there.** -/
theorem account_written (hrow : row ∈ db.users) (hlive : row.live = true)
    (hf : Alters username hash f) (h : Written db row.id f db') (hname : trimSpace name ≠ "")
    {u : User} :
    account db' name = some u ∧ u.id = row.id ↔ u = f row ∧ Leads db row (username row) name := by
  have hone : ∀ x ∈ db.users, x.id = row.id → x = row := fun x hx hid =>
    Table.eq_of_key hx hrow hid
  have hfrow : f row ∈ db'.users := (mem_written h).mpr (Or.inl ⟨row, hrow, hlive, rfl, rfl⟩)
  rw [account_eq_some]
  constructor
  · rintro ⟨⟨hmem, -, hnamed, hfirst⟩, hid⟩
    have hu : u = f row := by
      rcases (mem_written h).mp hmem with ⟨x, hx, -, hxid, rfl⟩ | ⟨hx, hother⟩
      · rw [hone x hx hxid]
      · rw [hone u hx hid] at hother
        exact absurd ⟨hlive, rfl⟩ hother
    subst hu
    rw [Named, hf.username, hf.email] at hnamed
    refine ⟨rfl, hname, hnamed, fun x hx hxlive hlt => ?_⟩
    have hx' : x ∈ db'.users := (mem_written h).mpr (Or.inr ⟨hx, fun he => by omega⟩)
    have hnot := hfirst x hx' hxlive (by rw [hid]; exact hlt)
    rwa [Named, not_or] at hnot
  · rintro ⟨rfl, -, hnamed, hfirst⟩
    refine ⟨⟨hfrow, ?_, ?_, fun x hx hxlive hlt => ?_⟩, hf.id row⟩
    · rw [hf.live, hlive]
    · rw [Named, hf.username, hf.email]
      exact hnamed
    · rw [hf.id] at hlt
      rcases (mem_written h).mp hx with ⟨y, hy, -, hyid, rfl⟩ | ⟨hx, -⟩
      · rw [hf.id] at hlt
        omega
      · rw [Named, not_or]
        exact hfirst x hx hxlive hlt

theorem onlyWith_iff {id : Int} : OnlyWith env db name id password ↔
    ∃ u, account db name = some u ∧ u.id = id ∧ trimSpace name ≠ "" ∧ password ≠ "" ∧
      u.status = userStatusEnabled ∧ env.bcryptCompare u.password password = true ∧
      ∀ other, Bcrypt.Plain other → other ≠ "" → env.bcryptCompare u.password other = true →
        other = password := by
  have hvalid : ∀ other u, Validates env (Store.ofDB db) ⟨name, other⟩ u ↔
      Accepted env db name other u := by
    intro other u
    rw [Validates, serve_validateAndFill]
    exact and_iff_right rfl
  constructor
  · rintro ⟨⟨u, hu, hid⟩, hothers⟩
    obtain ⟨hname, hne, haccount, hfits, hstatus⟩ := (hvalid password u).mp hu
    refine ⟨u, haccount, hid, hname, hne, hstatus, hfits, fun other hplain hother hcompare => ?_⟩
    by_contra hdiffers
    exact hothers other hplain hdiffers u ((hvalid other u).mpr
      ⟨hname, hother, haccount, hcompare, hstatus⟩)
  · rintro ⟨u, haccount, hid, hname, hne, hstatus, hfits, halone⟩
    refine ⟨⟨u, (hvalid password u).mpr ⟨hname, hne, haccount, hfits, hstatus⟩, hid⟩, ?_⟩
    intro other hplain hdiffers v hv
    obtain ⟨-, hother, hv, hcompare, -⟩ := (hvalid other v).mp hv
    obtain rfl : u = v := Option.some.inj (haccount.symm.trans hv)
    exact hdiffers (halone other hplain hother hcompare)

theorem short_of_hashes (hbcrypt : Bcrypted env ctx) (hhash : Hashes ctx password hash) :
    (Bcrypt.bytes password).length ≤ 72 := by
  by_cases hword : password = iLoveU
  · rw [hword]
    decide
  · rw [Hashes, if_neg hword] at hhash
    obtain ⟨h, hok, -⟩ := hhash
    exact hbcrypt.short _ _ hok

/-- **The password that fits a hash is the only one when it repeats none.** -/
theorem fits_alone_iff (hbcrypt : Bcrypted env ctx) (hshort : (Bcrypt.bytes password).length ≤ 72)
    {stored : String} (hfits : env.bcryptCompare stored password = true) :
    (∀ other, Bcrypt.Plain other → other ≠ "" → env.bcryptCompare stored other = true →
      other = password) ↔ ¬ Bcrypt.Repeats password := by
  rw [← Bcrypt.alone_iff hshort]
  refine forall_congr' fun other => ?_
  rw [hbcrypt.same _ _ hfits other]

theorem fits_written_iff (hbcrypt : Bcrypted env ctx) (hhash : Hashes ctx password hash)
    (hf : Alters username hash f) :
    env.bcryptCompare (f row).password password = true ↔
      password ≠ iLoveU ∨ env.bcryptCompare row.password iLoveU = true := by
  rw [hf.password]
  by_cases hword : password = iLoveU
  · rw [Hashes, if_pos hword] at hhash
    rw [hhash, Option.getD_none, hword]
    simp
  · rw [Hashes, if_neg hword] at hhash
    obtain ⟨h, hok, rfl⟩ := hhash
    rw [Option.getD_some]
    exact iff_of_true (hbcrypt.accepts _ _ hok) (Or.inl hword)

end Afterwards

/-- **After a change that was answered with success, the new password is the only one that logs
in, exactly when** the account is enabled, the name leads to it, the password repeats no other
one, and it is not the word for none, or fitted already. -/
theorem new_password_logs_in_iff (hbcrypt : Bcrypted env ctx) (s : Sess) (c : Change)
    (st : Store) {row : User} (hrow : row ∈ st.db.users) (hlive : row.live = true)
    (hid : row.id = c.target ctx) (hne : c.body.password ≠ "")
    (hdone : (serve (c.handler env ctx s) st).1.reply = .done "") (name : String) :
    OnlyWith env (serve (c.handler env ctx s) st).2.db name row.id c.body.password ↔
      row.status = userStatusEnabled ∧ Leads st.db row (c.username row) name ∧
        ¬ Bcrypt.Repeats c.body.password ∧
        (c.body.password ≠ iLoveU ∨ env.bcryptCompare row.password iLoveU = true) := by
  obtain ⟨hash, f, hhash, hf, hwritten⟩ := (handler_changes hbcrypt c hne st.db).serve hdone
  rw [← hid] at hwritten
  have hshort := short_of_hashes hbcrypt hhash
  have hstored : env.bcryptCompare (f row).password c.body.password = true ↔
      c.body.password ≠ iLoveU ∨ env.bcryptCompare row.password iLoveU = true :=
    fits_written_iff hbcrypt hhash hf
  rw [onlyWith_iff, ← hstored]
  constructor
  · rintro ⟨u, haccount, huid, hname, -, hstatus, hfits, halone⟩
    obtain ⟨rfl, hleads⟩ := (account_written hrow hlive hf hwritten hname).mp ⟨haccount, huid⟩
    rw [hf.status] at hstatus
    exact ⟨hstatus, hleads, (fits_alone_iff hbcrypt hshort hfits).mp halone, hfits⟩
  · rintro ⟨hstatus, hleads, halone, hfits⟩
    have hname := hleads.1
    obtain ⟨haccount, huid⟩ := (account_written hrow hlive hf hwritten hname).mpr ⟨rfl, hleads⟩
    refine ⟨f row, haccount, huid, hname, hne, ?_, hfits, ?_⟩
    · rw [hf.status, hstatus]
    · exact (fits_alone_iff hbcrypt hshort hfits).mpr halone

/-! ### The word that stands for none -/

/-- A hash that shows the key. -/
def hashOf (password : String) : String :=
  "#" ++ String.ofList ((Bcrypt.key password).map fun b => Char.ofNat b.toNat)

/-- bcrypt, with that hash. -/
def keyed : Env := { Env.plain with bcryptCompare := fun hash password => hash == hashOf password }

/-- Erin, whose password is `old password`. -/
def erin : User :=
  { id := 1, username := "erin", password := hashOf "old password", role := 1, status := 1 }

def erinDB : DB where
  users := Table.single erin
  twoFAs := Table.empty
  backupCodes := Table.empty
  passkeys := Table.empty

def erinContext : Ctx :=
  { Ctx.plain 0 with
    id := 1
    role := 1
    password2Hash := fun password =>
      if 72 < (Bcrypt.bytes password).length then .error (.new "password length exceeds 72 bytes")
      else .ok (hashOf password) }

/-- Erin changes her password, giving her old one. -/
def erinChange (password : String) : Change :=
  .updateSelf { password := password, originalPassword := "old password" }

def erinServed (password : String) : Out × Store :=
  serve ((erinChange password).handler keyed erinContext (Sess.ofCookie {})) (Store.ofDB erinDB)

theorem hashOf_eq_iff {password other : String} :
    hashOf password = hashOf other ↔ Bcrypt.key other = Bcrypt.key password := by
  have hbyte : Function.Injective fun b : UInt8 => Char.ofNat b.toNat := by
    intro b b' h
    have hval : ∀ b : UInt8, (Char.ofNat b.toNat).toNat = b.toNat := by
      intro b
      have hlt := b.toNat_lt
      rw [Char.toNat_ofNat, if_pos (Or.inl (by omega))]
    have hnat := congrArg Char.toNat h
    rw [hval, hval] at hnat
    exact UInt8.toNat_inj.mp hnat
  unfold hashOf
  rw [String.append_right_inj, String.ofList_inj, hbyte.list_map.eq_iff]
  exact eq_comm

theorem bcrypted_keyed : Bcrypted keyed erinContext := by
  have hok : ∀ password hash, erinContext.password2Hash password = .ok hash →
      (Bcrypt.bytes password).length ≤ 72 ∧ hash = hashOf password := by
    intro password hash h
    unfold erinContext at h
    dsimp only at h
    split at h
    · cases h
    · exact ⟨by omega, (Except.ok.inj h).symm⟩
  refine ⟨fun password hash h => (hok password hash h).1, ?_, ?_, ?_⟩
  · intro password hash h hempty
    rw [(hok password hash h).2] at hempty
    exact absurd (congrArg String.length hempty) (by simp [hashOf])
  · intro password hash h
    rw [(hok password hash h).2]
    exact beq_self_eq_true _
  · intro hash password h other
    obtain rfl : hash = hashOf password := eq_of_beq h
    show (hashOf password == hashOf other) = true ↔ _
    rw [beq_iff_eq, hashOf_eq_iff]

theorem erin_logs_in :
    OnlyWith keyed (erinServed "new password").2.db "erin" 1 "new password" := by
  have hrow : erin ∈ (Store.ofDB erinDB).db.users := List.mem_cons_self
  refine (new_password_logs_in_iff bcrypted_keyed (Sess.ofCookie {}) (erinChange "new password")
    (Store.ofDB erinDB) hrow rfl rfl (by decide) rfl "erin").mpr
      ⟨rfl, ⟨by decide, by decide, ?_⟩, Bcrypt.not_repeats (by decide), Or.inl (by decide)⟩
  intro x hx _ hlt
  obtain rfl := List.mem_singleton.mp hx
  exact absurd hlt (by decide)

/-- **Erin chooses `$I_LOVE_U` and is told that it is done; it does not log her in, and her old
password still does.** -/
theorem word_for_none_kept_old :
    (erinServed "$I_LOVE_U").1.reply = .done "" ∧
      (serve (User.validateAndFill keyed { username := "erin", password := "$I_LOVE_U" })
        (Store.ofDB (erinServed "$I_LOVE_U").2.db)).1.1 ≠ none ∧
      (serve (User.validateAndFill keyed { username := "erin", password := "old password" })
        (Store.ofDB (erinServed "$I_LOVE_U").2.db)).1.1 = none :=
  ⟨rfl, by decide, by decide⟩

end AuthGateway.PasswordChange
