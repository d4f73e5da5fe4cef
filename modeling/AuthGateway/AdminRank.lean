import AuthGateway.Controller.SecureVerification

/-!
# Rank among administrators

The five handlers an administrator has for other users, and what they may touch:
`Respected` says that a request changes the stored data of a user only when the
administrator outranks that user, or is root.  Each handler makes its own check;
`Spares` lemmas say for each that the data of everyone else stays as it is.

`AdminResetPasskey` makes no check.  **A request keeps the rank exactly when it
is not a reset of the passkey of a user of equal or higher rank**
(`respected_iff`).
-/

namespace AuthGateway.AdminRank

open Common Model Controller GoString

/-! ### The stored data of a user -/

structure Stored where
  user : Option User
  twoFAs : List TwoFA
  backupCodes : List TwoFABackupCode
  passkeys : List PasskeyCredential
deriving DecidableEq

/-- What the tables hold of the user `k`. -/
def stored (db : DB) (k : Int) : Stored where
  user := db.users.get? k
  twoFAs := db.twoFAs.select fun t => t.userId == k
  backupCodes := db.backupCodes.select fun c => c.userId == k
  passkeys := db.passkeys.select fun c => c.userID == k

/-- The program leaves the stored data of the user `k` as it is, whichever of its
operations fail. -/
def Spares {α : Type} (k : Int) (p : M α) (db : DB) : Prop :=
  Sat p (fun _ db' => stored db' k = stored db k) db

/-! ### What the writes spare -/

theorem stored_setUsers {db : DB} {t : Table User} {k : Int} (h : t.get? k = db.users.get? k) :
    stored (db.setUsers t) k = stored db k := by
  unfold stored DB.setUsers
  rw [h]

/-- An update of the row of one user spares the others. -/
theorem spares_userUpdates {id k : Int} (hne : k ≠ id) {f : User → User}
    (hf : ∀ u, (f u).id = u.id) {db db' : DB} {r : Except Err Unit}
    (h : May (.userUpdates (fun u => u.id == id) f) db r db') : stored db' k = stored db k := by
  rcases h with ⟨-, rfl⟩ | ⟨-, rfl⟩
  · simp only [exec]
    cases hup : db.users.update (fun u => u.live && u.id == id) f with
    | none => rfl
    | some t =>
      refine stored_setUsers ?_
      rw [Table.get?_update hup hf]
      cases hget : db.users.get? k with
      | none => rfl
      | some u =>
        have hid : u.id ≠ id := by
          rw [show u.id = k from (Table.get?_eq_some.mp hget).2]
          exact hne
        simp [Table.touch, hid]
  · rfl

theorem spares_userHardDelete {id k : Int} (hne : k ≠ id) {db db' : DB} {r : Except Err Unit}
    (h : May (.userHardDelete id) db r db') : stored db' k = stored db k := by
  rcases h with ⟨-, rfl⟩ | ⟨-, rfl⟩
  · refine stored_setUsers (Table.get?_congr ?_)
    intro u hu
    have hid : u.id ≠ id := by
      rw [show u.id = k from hu]
      exact hne
    simp [hid]
  · rfl

/-- Dropping the record of one user, with the backup codes, spares the others. -/
theorem spares_twoFADelete {t : TwoFA} {k : Int} (hne : k ≠ t.userId) {db db' : DB}
    (ht : t ∈ db.twoFAs) {r : Except Err Unit} (h : May (.twoFADelete t) db r db') :
    stored db' k = stored db k := by
  rcases h with ⟨-, rfl⟩ | ⟨-, rfl⟩
  · have htwoFAs : (db.twoFAs.delete fun x => x.id == t.id).select (fun x => x.userId == k)
        = db.twoFAs.select fun x => x.userId == k := by
      refine Table.select_delete_of_not ?_
      intro x hx hk
      rw [beq_iff_eq] at hk
      by_contra hid
      rw [Bool.not_eq_false, beq_iff_eq] at hid
      have he : x = t := Table.eq_of_key hx ht hid
      rw [he] at hk
      exact hne hk.symm
    have hcodes : (db.backupCodes.delete fun c => c.userId == t.userId).select
        (fun c => c.userId == k) = db.backupCodes.select fun c => c.userId == k := by
      refine Table.select_delete_of_not ?_
      intro c _ hk
      rw [beq_iff_eq] at hk
      rw [beq_eq_false_iff_ne, hk]
      exact hne
    simp only [exec, stored, DB.setTwoFAs, DB.setBackupCodes, htwoFAs, hcodes]
  · rfl

theorem spares_passkeyDelete {id k : Int} (hne : k ≠ id) {db db' : DB} {r : Except Err Unit}
    (h : May (.passkeyDelete id) db r db') : stored db' k = stored db k := by
  rcases h with ⟨-, rfl⟩ | ⟨-, rfl⟩
  · have hpasskeys : (db.passkeys.delete fun c => c.userID == id).select (fun c => c.userID == k)
        = db.passkeys.select fun c => c.userID == k := by
      refine Table.select_delete_of_not ?_
      intro c _ hk
      rw [beq_iff_eq] at hk
      rw [beq_eq_false_iff_ne, hk]
      exact hne
    simp only [exec, stored, DB.setPasskeys, hpasskeys]
  · rfl

/-! ### What the functions of the model spare -/

theorem spares_firstAndUpdates {k : Int} {newUser : User} (hne : k ≠ newUser.id) {f : User → User}
    (hf : ∀ u, (f u).id = u.id) (db : DB) : Spares k (newUser.firstAndUpdates f) db := by
  unfold User.firstAndUpdates
  refine (newUser.first_sat false _ db).bind ?_
  intro r db₁ hr
  obtain ⟨rfl, hr⟩ := hr
  have hid : r.2.id = newUser.id := by
    rcases hr with ⟨e, rfl⟩ | ⟨row, -, rfl, -, hrow, -⟩
    · rfl
    · exact beq_iff_eq.mp hrow
  obtain ⟨err, user⟩ := r
  dsimp only at hid ⊢
  split
  · exact Sat.pure rfl
  · refine Sat.perform fun r db₂ h => ?_
    rw [hid] at h
    have hstored := spares_userUpdates hne hf h
    cases r <;> exact Sat.pure hstored

theorem hashPassword_id {ctx : Ctx} {user newUser : User} {updatePassword : Bool}
    (h : user.hashPassword ctx updatePassword = .ok newUser) : newUser.id = user.id := by
  unfold User.hashPassword at h
  split at h
  · split at h
    · rw [← Except.ok.inj h]
    · cases h
  · rw [← Except.ok.inj h]

theorem spares_update {k : Int} {user : User} (hne : k ≠ user.id) (ctx : Ctx)
    (updatePassword : Bool) (db : DB) : Spares k (user.update ctx updatePassword) db := by
  unfold User.update
  cases hhash : user.hashPassword ctx updatePassword with
  | error e => exact Sat.pure rfl
  | ok newUser =>
    rw [← hashPassword_id hhash] at hne
    refine spares_firstAndUpdates hne ?_ db
    intro u
    rfl

theorem spares_edit {k : Int} {user : User} (hne : k ≠ user.id) (ctx : Ctx)
    (updatePassword : Bool) (db : DB) : Spares k (user.edit ctx updatePassword) db := by
  unfold User.edit
  cases hhash : user.hashPassword ctx updatePassword with
  | error e => exact Sat.pure rfl
  | ok newUser =>
    rw [← hashPassword_id hhash] at hne
    refine spares_firstAndUpdates hne ?_ db
    intro u
    rfl

theorem spares_delete {k : Int} {user : User} (hne : k ≠ user.id) (ctx : Ctx) (db : DB) :
    Spares k (user.delete ctx) db := by
  unfold User.delete
  split
  · exact Sat.pure rfl
  · refine Sat.perform fun r db' h => ?_
    have hstored := spares_userUpdates hne (f := fun u => { u with deletedAt := some ctx.now })
      (fun _ => rfl) h
    exact Sat.pure hstored

theorem spares_disableTwoFA {k id : Int} (hne : k ≠ id) (db : DB) :
    Spares k (disableTwoFA id) db := by
  unfold disableTwoFA
  refine (getTwoFAByUserId_sat id db).bind ?_
  intro r db₁ hr
  obtain ⟨rfl, hr⟩ := hr
  cases r with
  | error e => exact Sat.pure rfl
  | ok found =>
    cases found with
    | none => exact Sat.pure rfl
    | some t =>
      obtain ⟨hmem, -, huser⟩ := hr t rfl
      rw [← huser] at hne
      unfold TwoFA.delete
      dsimp only
      split
      · exact Sat.pure rfl
      · refine Sat.perform fun r db₂ h => ?_
        exact Sat.pure (spares_twoFADelete hne hmem h)

/-! ### The handlers -/

/-- Strictly higher in rank, or root. -/
def Outranks (myRole role : Int) : Prop := role < myRole ∨ myRole = roleRootUser

theorem outranks_of_not_outranked {myRole role : Int} (h : outranked myRole role = false) :
    Outranks myRole role := by
  unfold outranked at h
  by_cases hlt : role < myRole
  · exact Or.inl hlt
  · have hle : myRole ≤ role := by omega
    refine Or.inr ?_
    simpa [hle] using h

/-- A user whom the administrator does not outrank is not the one whose row
passed the check. -/
theorem ne_of_outranks {db : DB} {x row : User} (hx : x ∈ db.users) (hrow : row ∈ db.users)
    {myRole : Int} (hrank : ¬ Outranks myRole x.role) (hcheck : Outranks myRole row.role) :
    x.id ≠ row.id := by
  intro hid
  have he : x = row := Table.eq_of_key hx hrow hid
  rw [he] at hrank
  exact hrank hcheck

theorem spares_updateUser {ctx : Ctx} {db : DB} {x : User} (hx : x ∈ db.users)
    (hrank : ¬ Outranks ctx.role x.role) (s : Sess) (req : Option User) :
    Spares x.id (updateUser ctx s req) db := by
  unfold updateUser
  cases req with
  | none => exact Sat.pure rfl
  | some updatedUser =>
    dsimp only
    split
    · exact Sat.pure rfl
    · generalize hnew : (if updatedUser.password = "" then
        { updatedUser with password := iLoveU } else updatedUser) = newUser
      have hid : newUser.id = updatedUser.id := by
        rw [← hnew]
        split <;> rfl
      split
      · exact Sat.pure rfl
      · refine (getUserById_sat newUser.id false db).bind ?_
        intro r db₁ hr
        obtain ⟨rfl, hr⟩ := hr
        cases r with
        | error e => exact Sat.pure rfl
        | ok originUser =>
          obtain ⟨row, hrow, -, hrowid, rfl⟩ := hr originUser rfl
          have hrole : row.omitPassword.role = row.role := rfl
          simp only [Bool.false_eq_true, if_false, hrole]
          by_cases hcheck : outranked ctx.role row.role = true
          · rw [if_pos hcheck]
            exact Sat.pure rfl
          · rw [if_neg hcheck]
            by_cases hraise : outranked ctx.role newUser.role = true
            · rw [if_pos hraise]
              exact Sat.pure rfl
            · rw [if_neg hraise]
              have hne : x.id ≠ row.id := by
                refine ne_of_outranks hx hrow hrank (outranks_of_not_outranked ?_)
                rw [Bool.not_eq_true] at hcheck
                exact hcheck
              generalize hclean : (if newUser.password = iLoveU then
                { newUser with password := "" } else newUser) = cleanUser
              have hcleanid : cleanUser.id = row.id := by
                rw [hrowid, ← hclean]
                split <;> rfl
              rw [← hcleanid] at hne
              refine (spares_edit hne ctx _ db₁).bind ?_
              intro r db₂ hstored
              obtain ⟨err, u⟩ := r
              cases err <;> exact Sat.pure hstored

theorem spares_deleteUser {ctx : Ctx} {db : DB} {x : User} (hx : x ∈ db.users)
    (hrank : ¬ Outranks ctx.role x.role) (s : Sess) (idParam : String) :
    Spares x.id (deleteUser ctx s idParam) db := by
  unfold deleteUser
  split
  · exact Sat.pure rfl
  · rename_i id _
    refine (getUserById_sat id false db).bind ?_
    intro r db₁ hr
    obtain ⟨rfl, hr⟩ := hr
    cases r with
    | error e => exact Sat.pure rfl
    | ok originUser =>
      obtain ⟨row, hrow, -, rfl, rfl⟩ := hr originUser rfl
      have hrole : row.omitPassword.role = row.role := rfl
      simp only [Bool.false_eq_true, if_false, hrole]
      by_cases hcheck : ctx.role ≤ row.role
      · rw [if_pos hcheck]
        exact Sat.pure rfl
      · rw [if_neg hcheck]
        have hlt : row.role < ctx.role := by omega
        have hne : x.id ≠ row.id := ne_of_outranks hx hrow hrank (Or.inl hlt)
        have hdelete : Spares x.id (hardDeleteUserById row.id) db₁ := by
          unfold hardDeleteUserById
          split
          · exact Sat.pure rfl
          · refine Sat.perform fun r db₂ h => ?_
            exact Sat.pure (spares_userHardDelete hne h)
        refine hdelete.bind ?_
        intro err db₂ hstored
        cases err <;> exact Sat.pure hstored

theorem spares_adminDisable2FA {ctx : Ctx} {db : DB} {x : User} (hx : x ∈ db.users)
    (hrank : ¬ Outranks ctx.role x.role) (s : Sess) (idParam : String) :
    Spares x.id (adminDisable2FA ctx s idParam) db := by
  unfold adminDisable2FA
  split
  · exact Sat.pure rfl
  · rename_i userId _
    refine (getUserById_sat userId false db).bind ?_
    intro r db₁ hr
    obtain ⟨rfl, hr⟩ := hr
    cases r with
    | error e => exact Sat.pure rfl
    | ok targetUser =>
      obtain ⟨row, hrow, -, rfl, rfl⟩ := hr targetUser rfl
      have hrole : row.omitPassword.role = row.role := rfl
      simp only [Bool.false_eq_true, if_false, hrole]
      by_cases hcheck : outranked ctx.role row.role = true
      · rw [if_pos hcheck]
        exact Sat.pure rfl
      · rw [if_neg hcheck]
        have hne : x.id ≠ row.id := by
          refine ne_of_outranks hx hrow hrank (outranks_of_not_outranked ?_)
          rw [Bool.not_eq_true] at hcheck
          exact hcheck
        refine (spares_disableTwoFA hne db₁).bind ?_
        intro err db₂ hstored
        split <;> exact Sat.pure hstored

/-- The passkey of the user with this id goes, and nothing of anyone else. -/
theorem spares_adminResetPasskey {k id : Int} (s : Sess) {idParam : String}
    (hid : atoi idParam = (id, none)) {db : DB}
    (h : k ≠ id ∨ ∀ c ∈ db.passkeys, c.live = true → c.userID ≠ id) :
    Spares k (adminResetPasskey s idParam) db := by
  unfold adminResetPasskey
  rw [hid]
  dsimp only
  refine (fillUserById_sat id db).bind ?_
  intro r db₁ hr
  obtain ⟨rfl, hr⟩ := hr
  have hrid : r.2.id = id := by
    rcases hr with he | ⟨row, -, rfl, -, he⟩
    · rw [he]
    · exact he
  obtain ⟨err, user⟩ := r
  cases err with
  | some e => exact Sat.pure rfl
  | none =>
    dsimp only at hrid ⊢
    rw [hrid]
    refine (getPasskeyByUserID_sat id db₁).bind ?_
    intro r db₂ hr
    obtain ⟨rfl, hc⟩ := hr
    split
    · exact Sat.pure rfl
    · exact Sat.pure rfl
    · rename_i c
      obtain ⟨hmem, hlive, huser⟩ := hc c rfl
      have hne : k ≠ id := by
        rcases h with hne | hnone
        · exact hne
        · exact absurd huser (hnone c hmem hlive)
      have hdelete : Spares k (deletePasskeyByUserID id) db₂ := by
        unfold deletePasskeyByUserID
        split
        · exact Sat.pure rfl
        · refine Sat.perform fun r db₃ h => ?_
          have hstored := spares_passkeyDelete hne h
          cases r <;> exact Sat.pure hstored
      refine hdelete.bind ?_
      intro err db₃ hstored
      cases err <;> exact Sat.pure hstored

theorem manageAction_id {myRole : Int} {user user' : User} {action : String}
    (h : manageAction myRole user action = .ok user') : user'.id = user.id := by
  unfold manageAction at h
  split_ifs at h <;> (rw [← Except.ok.inj h])

theorem spares_manageDelete {k : Int} {user : User} (hne : k ≠ user.id) (ctx : Ctx)
    (action : String) (db : DB) :
    Sat (manageDelete ctx user action)
      (fun r db' => r.2.id = user.id ∧ stored db' k = stored db k) db := by
  unfold manageDelete
  by_cases hdelete : action = "delete"
  · rw [if_pos hdelete]
    have hid : Sat (user.delete ctx) (fun r _ => r.2.id = user.id) db := by
      unfold User.delete
      split
      · exact Sat.pure rfl
      · refine Sat.perform fun r db' _ => ?_
        exact Sat.pure rfl
    exact hid.and (spares_delete hne ctx db)
  · rw [if_neg hdelete]
    exact Sat.pure ⟨rfl, rfl⟩

theorem spares_manageUser {ctx : Ctx} {db : DB} {x : User} (hx : x ∈ db.users)
    (hrank : ¬ Outranks ctx.role x.role) (s : Sess) (req : Option ManageRequest) :
    Ends (manageUser ctx s req) (fun _ db' => stored db' x.id = stored db x.id) db := by
  unfold manageUser
  cases req with
  | none => exact Ends.pure rfl
  | some req =>
    dsimp only
    refine (User.first_ends { id := req.id } true (fun _ => true) db).bind ?_
    intro r db₁ hr
    obtain ⟨rfl, hr⟩ := hr
    obtain ⟨err, user⟩ := r
    dsimp only
    by_cases hzero : user.id = 0
    · rw [if_pos hzero]
      exact Ends.pure rfl
    rw [if_neg hzero]
    by_cases hcheck : outranked ctx.role user.role = true
    · rw [if_pos hcheck]
      exact Ends.pure rfl
    rw [if_neg hcheck]
    have hne : x.id ≠ user.id := by
      rcases hr with ⟨row, hrow, he, -⟩ | ⟨he, hnone⟩
      · obtain rfl : user = row := congrArg Prod.snd he
        refine ne_of_outranks hx hrow hrank (outranks_of_not_outranked ?_)
        rw [Bool.not_eq_true] at hcheck
        exact hcheck
      · -- a struct that was not filled has the id of no row
        obtain rfl : user = { id := req.id } := congrArg Prod.snd he
        exact (hnone x hx (Or.inl rfl) rfl).2
    cases haction : manageAction ctx.role user req.action with
    | error msg => exact Ends.pure rfl
    | ok user' =>
      rw [← manageAction_id haction] at hne
      refine Sat.ends ((spares_manageDelete hne ctx req.action db₁).bind ?_)
      intro r db₂ hdelete
      obtain ⟨err, user''⟩ := r
      obtain ⟨hid, hstored⟩ := hdelete
      cases err with
      | some e => exact Sat.pure hstored
      | none =>
        dsimp only at hid ⊢
        rw [← hid] at hne
        refine (spares_update hne ctx false db₂).bind ?_
        intro r db₃ hupdate
        obtain ⟨err, u⟩ := r
        have hall : stored db₃ x.id = stored db₁ x.id := hupdate.trans hstored
        cases err <;> exact Sat.pure hall

/-! ### The five handlers together -/

inductive AdminRequest
  | updateUser (req : Option User)
  | manageUser (req : Option ManageRequest)
  | deleteUser (idParam : String)
  | adminDisable2FA (idParam : String)
  | adminResetPasskey (idParam : String)

def handle (ctx : Ctx) (s : Sess) : AdminRequest → M Out
  | .updateUser req => updateUser ctx s req
  | .manageUser req => manageUser ctx s req
  | .deleteUser idParam => deleteUser ctx s idParam
  | .adminDisable2FA idParam => adminDisable2FA ctx s idParam
  | .adminResetPasskey idParam => adminResetPasskey s idParam

/-- The database after the request of an administrator. -/
def after (ctx : Ctx) (s : Sess) (q : AdminRequest) (db : DB) : DB := ((handle ctx s q).run exec db).2

/-- If the request changes the stored data of the user `x`, the administrator
outranks that user. -/
def Respected (ctx : Ctx) (s : Sess) (q : AdminRequest) (db : DB) (x : User) : Prop :=
  x ∈ db.users → stored (after ctx s q db) x.id ≠ stored db x.id → Outranks ctx.role x.role

/-- A reset of the passkey, which is there, of a user whom the administrator
does not outrank. -/
def Overreach (ctx : Ctx) (q : AdminRequest) (db : DB) (x : User) : Prop :=
  x ∈ db.users ∧ ¬ Outranks ctx.role x.role ∧
    (∃ idParam, q = .adminResetPasskey idParam ∧ atoi idParam = (x.id, none)) ∧
    ∃ c ∈ db.passkeys, c.live = true ∧ c.userID = x.id

/-- A reset of somebody's passkey, or of none, spares the user `x`. -/
theorem resetPasskey_spares {db : DB} {x : User} (s : Sess) (idParam : String)
    (h : ¬ (atoi idParam = (x.id, none) ∧ ∃ c ∈ db.passkeys, c.live = true ∧ c.userID = x.id)) :
    Spares x.id (adminResetPasskey s idParam) db := by
  cases hatoi : atoi idParam with
  | mk id err =>
    cases err with
    | some e =>
      unfold adminResetPasskey
      rw [hatoi]
      exact Sat.pure rfl
    | none =>
      refine spares_adminResetPasskey s hatoi ?_
      by_cases hid : x.id = id
      · refine Or.inr ?_
        intro c hc hlive huser
        rw [hatoi, hid] at h
        exact h ⟨rfl, c, hc, hlive, huser⟩
      · exact Or.inl hid

/-- The passkey of the user named is gone afterwards. -/
theorem resetPasskey_changes {db : DB} {x : User} (hx : x ∈ db.users) (s : Sess) {idParam : String}
    (hid : atoi idParam = (x.id, none)) {c : PasskeyCredential} (hc : c ∈ db.passkeys)
    (hlive : c.live = true) (huser : c.userID = x.id) :
    stored ((adminResetPasskey s idParam).run exec db).2 x.id ≠ stored db x.id := by
  have hpos : x.id ≠ 0 := ne_of_gt (Table.key_pos hx)
  have hgone : Ends (adminResetPasskey s idParam)
      (fun _ db' => (db'.passkeys.select fun c => c.userID == x.id) = []) db := by
    unfold adminResetPasskey
    rw [hid]
    dsimp only
    refine (fillUserById_ends hpos db).bind ?_
    rintro ⟨err, user⟩ db₁ ⟨rfl, rfl, hrid⟩
    dsimp only at hrid ⊢
    rw [hrid]
    refine (getPasskeyByUserID_ends hpos hc hlive huser).bind ?_
    rintro r db₂ ⟨rfl, c', rfl⟩
    dsimp only
    unfold deletePasskeyByUserID
    rw [if_neg hpos]
    show (List.filter _ (List.filter _ _)) = []
    rw [List.filter_filter, List.filter_eq_nil_iff]
    intro c'' _
    simp
  intro hsame
  have hmem : c ∈ db.passkeys.select fun c => c.userID == x.id :=
    Table.mem_select.mpr ⟨hc, by rw [huser, beq_self_eq_true]⟩
  have hpasskeys := congrArg Stored.passkeys hsame
  rw [show (stored ((adminResetPasskey s idParam).run exec db).2 x.id).passkeys = [] from hgone]
    at hpasskeys
  have hnil : (db.passkeys.select fun c => c.userID == x.id) = [] := hpasskeys.symm
  rw [hnil] at hmem
  exact nomatch hmem

theorem respected_of_not_overreach {ctx : Ctx} {s : Sess} {q : AdminRequest} {db : DB} {x : User}
    (h : ¬ Overreach ctx q db x) : Respected ctx s q db x := by
  intro hx hchanged
  by_contra hrank
  refine hchanged ?_
  unfold after handle
  cases q with
  | updateUser req => exact (spares_updateUser hx hrank s req).ends
  | manageUser req => exact spares_manageUser hx hrank s req
  | deleteUser idParam => exact (spares_deleteUser hx hrank s idParam).ends
  | adminDisable2FA idParam => exact (spares_adminDisable2FA hx hrank s idParam).ends
  | adminResetPasskey idParam =>
    refine (resetPasskey_spares s idParam ?_).ends
    rintro ⟨hid, hpasskey⟩
    exact h ⟨hx, hrank, ⟨idParam, rfl, hid⟩, hpasskey⟩

/-- **A request of an administrator keeps the rank, exactly when it is not a
reset of the passkey of a user whom the administrator does not outrank.** -/
theorem respected_iff (ctx : Ctx) (s : Sess) (q : AdminRequest) (db : DB) (x : User) :
    Respected ctx s q db x ↔ ¬ Overreach ctx q db x := by
  constructor
  · rintro hrespected ⟨hx, hrank, ⟨idParam, rfl, hid⟩, c, hc, hlive, huser⟩
    exact hrank (hrespected hx (resetPasskey_changes hx s hid hc hlive huser))
  · exact respected_of_not_overreach

/-! ### The passkey of root, reset by an administrator -/

def root : User := { id := 1, username := "root", role := 100, status := 1 }

def rootDB : DB where
  users := Table.single root
  twoFAs := Table.empty
  backupCodes := Table.empty
  passkeys := Table.single { id := 1, userID := 1, credential := { id := "key" } }

/-- **An administrator of role 10 takes the passkey of root.** -/
theorem root_passkey_reset :
    ¬ Respected { Ctx.plain 0 with id := 2, role := 10 } (Sess.ofCookie {})
      (.adminResetPasskey "1") rootDB root := by
  intro hrespected
  have hmem : root ∈ rootDB.users := List.mem_singleton.mpr rfl
  have hrank := hrespected hmem (by decide)
  rcases hrank with hlt | hroot
  · exact absurd hlt (by decide)
  · exact absurd hroot (by decide)

end AuthGateway.AdminRank
