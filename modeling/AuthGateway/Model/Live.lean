import AuthGateway.Model.Account

/-!
# What the statements make of the live rows

`liveRow db id` is the user with an id who is not deleted.  Each statement on
`users` changes it for one id and leaves it for all others, and so do the
functions that write an account, on a database in order.
-/

namespace AuthGateway.Model

open Common

/-! ### Statements -/

/-- An update by id. -/
theorem liveRow_userUpdates {f : User → User} (hid : ∀ u, (f u).id = u.id) (key : Int) (db : DB) :
    (∃ e, (exec (.userUpdates (fun u => u.id == key) f) db).1 = .error e ∧
        (exec (.userUpdates (fun u => u.id == key) f) db).2 = db) ∨
      (exec (.userUpdates (fun u => u.id == key) f) db).1 = .ok () ∧
        ∀ id, liveRow (exec (.userUpdates (fun u => u.id == key) f) db).2 id
          = if id = key then ((liveRow db id).map f).filter User.live else liveRow db id := by
  simp only [exec]
  cases hup : db.users.update (fun u => u.live && u.id == key) f with
  | none => exact Or.inl ⟨_, rfl, rfl⟩
  | some t =>
    refine Or.inr ⟨rfl, fun id => ?_⟩
    have hget : t.get? id
        = (db.users.get? id).map (Table.touch (fun u => u.live && u.id == key) f) :=
      Table.get?_update hup hid id
    show (t.get? id).filter User.live = _
    rw [hget, liveRow]
    cases hrow : db.users.get? id with
    | none => simp
    | some row =>
      have hrowid : row.id = id := (Table.get?_eq_some.mp hrow).2
      by_cases hlive : row.live = true
      · by_cases hkey : id = key
        · simp [Table.touch, Option.filter_some, hlive, hrowid, hkey]
        · simp [Table.touch, hlive, hrowid, hkey]
      · simp [Table.touch, Option.filter_some, hlive]

/-- A plain update by id is accepted. -/
theorem liveRow_plain {f : User → User} (hf : User.Plain f) (key : Int) (db : DB) (id : Int) :
    liveRow (exec (.userUpdates (fun u => u.id == key) f) db).2 id
      = if id = key then ((liveRow db id).map f).filter User.live else liveRow db id := by
  rcases liveRow_userUpdates hf.id key db with ⟨e, he, -⟩ | ⟨-, hlive⟩
  · have hok := (exec_plain hf (fun u => u.id == key) db).1
    rw [hok] at he
    cases he
  · exact hlive id

theorem liveRow_userSave (u : User) (db : DB) :
    (∃ e, (exec (.userSave u) db).1 = .error e ∧ (exec (.userSave u) db).2 = db) ∨
      (exec (.userSave u) db).1 = .ok () ∧ ∀ id, liveRow (exec (.userSave u) db).2 id
        = if u.id = id then (some u).filter User.live else liveRow db id := by
  rcases saved u db with ⟨hok, hget⟩ | herr
  · refine Or.inr ⟨hok, fun id => ?_⟩
    rw [liveRow, hget, liveRow]
    split
    · rfl
    · rfl
  · exact Or.inl herr

theorem liveRow_userHardDelete (key : Int) (db : DB) {id : Int} (hne : id ≠ key) :
    liveRow (exec (.userHardDelete key) db).2 id = liveRow db id := by
  have hget : (db.users.delete fun u => u.id == key).get? id = db.users.get? id := by
    refine Table.get?_congr fun row hrow => ?_
    have hrowid : row.id ≠ key := fun h => hne (hrow.symm.trans h)
    simp [hrowid]
  show ((db.users.delete fun u => u.id == key).get? id).filter User.live = _
  rw [hget, liveRow]

/-- A new row: no live row had its id. -/
theorem liveRow_userCreate (u : User) (db : DB) :
    (∃ e, (exec (.userCreate u) db).1 = .error e ∧ (exec (.userCreate u) db).2 = db) ∨
      ∃ row : User, (exec (.userCreate u) db).1 = .ok row ∧ row.quota = u.quota ∧
        liveRow db row.id = none ∧
        ∀ id, liveRow (exec (.userCreate u) db).2 id
          = if row.id = id then (some row).filter User.live else liveRow db id := by
  have hnew := (userCreate_new (may_exec (.userCreate u) db)).1
  revert hnew
  simp only [exec]
  cases hcreate : db.users.create u.withDefaults with
  | none => exact fun _ => Or.inl ⟨_, rfl, rfl⟩
  | some p =>
    obtain ⟨row, t⟩ := p
    intro hnew
    obtain ⟨key, hrow⟩ := (hnew row rfl).1.columns
    refine Or.inr ⟨row, rfl, by rw [hrow]; rfl, ?_, fun id => ?_⟩
    · have hnone : db.users.get? row.id = none := Table.get?_eq_none.mpr (hnew row rfl).1.fresh
      rw [liveRow, hnone]
      rfl
    · show (t.get? id).filter User.live = _
      have hget : t.get? id = if row.id = id then some row else db.users.get? id :=
        Table.get?_create hcreate id
      rw [hget, liveRow]
      split
      · rfl
      · rfl

/-! ### Functions -/

/-- `First` by the id of the struct. -/
theorem first_ends (user : User) (db : DB) :
    Ends (user.first false fun u => u.id == user.id) (fun r db' => db' = db ∧
      ((∃ row, liveRow db user.id = some row ∧ r = (none, row)) ∨
        liveRow db user.id = none ∧ r = (some .recordNotFound, user))) db := by
  have hcond : (fun u : User => (u.id == user.id) && (user.id == 0 || u.id == user.id))
      = fun u => u.id == user.id := by
    funext u
    cases hu : u.id == user.id with
    | true => simp
    | false => simp
  unfold User.first
  refine Ends.perform ?_
  rw [hcond]
  simp only [exec, find_liveRow]
  cases hrow : liveRow db user.id with
  | none => exact Ends.pure ⟨rfl, Or.inr ⟨rfl, rfl⟩⟩
  | some row => exact Ends.pure ⟨rfl, Or.inl ⟨row, rfl, rfl⟩⟩

theorem liveRow_id {db : DB} {id : Int} {row : User} (h : liveRow db id = some row) : row.id = id :=
  (Table.get?_eq_some.mp (liveRow_eq_some.mp h).1).2

theorem liveRow_live {db : DB} {id : Int} {row : User} (h : liveRow db id = some row) :
    row.live = true := (liveRow_eq_some.mp h).2

theorem liveRow_pos {db : DB} {id : Int} {row : User} (h : liveRow db id = some row) : 0 < id := by
  have hget := Table.get?_eq_some.mp (liveRow_eq_some.mp h).1
  rw [← hget.2]
  exact Table.key_pos hget.1

/-- `First` and `Updates` of a live row: the row and the struct become the same. -/
theorem firstAndUpdates_ends (f : User → User) (hid : ∀ u, (f u).id = u.id) (newUser row : User)
    {db : DB} (hrow : liveRow db newUser.id = some row) (hlive : (f row).live = true) :
    Ends (newUser.firstAndUpdates f) (fun r db' => (r.1 ≠ none ∧ db' = db) ∨
      r = (none, f row) ∧
        ∀ id, liveRow db' id = if id = newUser.id then some (f row) else liveRow db id) db := by
  unfold User.firstAndUpdates
  refine (first_ends newUser db).bind ?_
  rintro r db' ⟨rfl, ⟨row', hrow', rfl⟩ | ⟨hnone, -⟩⟩
  · obtain rfl : row = row' := Option.some.inj (hrow.symm.trans hrow')
    have hkey : row.id = newUser.id := liveRow_id hrow
    have hpos := liveRow_pos hrow
    have hnonzero : row.id ≠ 0 := by omega
    dsimp only
    rw [if_neg hnonzero]
    refine Ends.perform ?_
    rcases liveRow_userUpdates hid row.id db' with ⟨e, he, hsame⟩ | ⟨hok, hrows⟩
    · rw [he, hsame]
      exact Ends.pure (Or.inl ⟨by simp, rfl⟩)
    · rw [hok]
      refine Ends.pure (Or.inr ⟨rfl, fun id => ?_⟩)
      rw [hrows, hkey]
      by_cases hne : id = newUser.id
      · rw [if_pos hne, if_pos hne, hne, hrow, Option.map_some, Option.filter_some, if_pos hlive]
      · rw [if_neg hne, if_neg hne]
  · rw [hrow] at hnone
    cases hnone

/-- Without an id nothing is written. -/
theorem firstAndUpdates_refused (f : User → User) (newUser : User) (hid : newUser.id = 0) (db : DB) :
    Ends (newUser.firstAndUpdates f) (fun r db' => r.1 ≠ none ∧ db' = db) db := by
  unfold User.firstAndUpdates
  refine (first_ends newUser db).bind ?_
  rintro r db' ⟨rfl, ⟨row, hrow, -⟩ | ⟨-, rfl⟩⟩
  · have hpos := liveRow_pos hrow
    omega
  · dsimp only
    rw [if_pos hid]
    exact Ends.pure ⟨by simp, rfl⟩

/-- `Update` and `Edit` stop before they write. -/
def Refused (ctx : Ctx) (user : User) (updatePassword : Bool) : Prop :=
  user.id = 0 ∨ ∃ e, user.hashPassword ctx updatePassword = .error e

theorem update_refused {ctx : Ctx} {user : User} {updatePassword : Bool}
    (h : Refused ctx user updatePassword) (db : DB) :
    Ends (user.update ctx updatePassword) (fun r db' => r.1 ≠ none ∧ db' = db) db := by
  unfold User.update
  cases hhash : user.hashPassword ctx updatePassword with
  | error e => exact Ends.pure ⟨by simp, rfl⟩
  | ok newUser =>
    obtain ⟨password, rfl, -⟩ := hashPassword_fields hhash
    rcases h with hid | ⟨e, he⟩
    · exact firstAndUpdates_refused _ { user with password := password } hid db
    · rw [he] at hhash
      cases hhash

theorem edit_refused {ctx : Ctx} {user : User} {updatePassword : Bool}
    (h : Refused ctx user updatePassword) (db : DB) :
    Ends (user.edit ctx updatePassword) (fun r db' => r.1 ≠ none ∧ db' = db) db := by
  unfold User.edit
  cases hhash : user.hashPassword ctx updatePassword with
  | error e => exact Ends.pure ⟨by simp, rfl⟩
  | ok newUser =>
    obtain ⟨password, rfl, -⟩ := hashPassword_fields hhash
    rcases h with hid | ⟨e, he⟩
    · exact firstAndUpdates_refused _ { user with password := password } hid db
    · rw [he] at hhash
      cases hhash

/-- `User.Update` of a live row. -/
theorem update_ends (ctx : Ctx) {user row : User} (updatePassword : Bool) {db : DB}
    (hrow : liveRow db user.id = some row) (hdeleted : user.deletedAt = none) :
    Ends (user.update ctx updatePassword) (fun r db' => (r.1 ≠ none ∧ db' = db) ∨
      ∃ password, r = (none, row.overlay { user with password := password }) ∧
        ∀ id, liveRow db' id = if id = user.id
          then some (row.overlay { user with password := password }) else liveRow db id) db := by
  unfold User.update
  cases hhash : user.hashPassword ctx updatePassword with
  | error e => exact Ends.pure (Or.inl ⟨by simp, rfl⟩)
  | ok newUser =>
    obtain ⟨password, rfl, -⟩ := hashPassword_fields hhash
    have hlive : (row.overlay { user with password := password }).live = true := by
      have hrowlive := liveRow_live hrow
      simpa [User.live, User.overlay, hdeleted] using hrowlive
    refine Ends.mono (firstAndUpdates_ends _ ?_ { user with password := password } row hrow ?_) ?_
    · exact fun _ => rfl
    · exact hlive
    · rintro r db' (herr | ⟨rfl, hrows⟩)
      · exact Or.inl herr
      · exact Or.inr ⟨password, rfl, hrows⟩

/-- `User.Edit` of a live row. -/
theorem edit_ends (ctx : Ctx) {user row : User} (updatePassword : Bool) {db : DB}
    (hrow : liveRow db user.id = some row) :
    Ends (user.edit ctx updatePassword) (fun r db' => (r.1 ≠ none ∧ db' = db) ∨
      ∃ u, r = (none, u) ∧ u.id = user.id ∧
        ∀ id, liveRow db' id = if id = user.id then some u else liveRow db id) db := by
  have hlive : row.live = true := liveRow_live hrow
  have hid : row.id = user.id := liveRow_id hrow
  unfold User.edit
  cases hhash : user.hashPassword ctx updatePassword with
  | error e => exact Ends.pure (Or.inl ⟨by simp, rfl⟩)
  | ok newUser =>
    obtain ⟨password, rfl, -⟩ := hashPassword_fields hhash
    refine Ends.mono (firstAndUpdates_ends _ ?_ { user with password := password } row hrow ?_) ?_
    · exact fun _ => rfl
    · exact hlive
    · rintro r db' (herr | ⟨rfl, hrows⟩)
      · exact Or.inl herr
      · exact Or.inr ⟨_, rfl, hid, hrows⟩

/-- `User.Delete` changes one id. -/
theorem delete_ends (ctx : Ctx) (user : User) (db : DB) :
    Ends (User.delete ctx user) (fun r db' => r.2.id = user.id ∧ (r.1 ≠ none → db' = db) ∧
      ∀ id, id ≠ user.id → liveRow db' id = liveRow db id) db := by
  unfold User.delete
  split
  · exact Ends.pure ⟨rfl, fun _ => rfl, fun _ _ => rfl⟩
  · refine Ends.perform (Ends.pure ?_)
    rcases liveRow_userUpdates (f := fun u => { u with deletedAt := some ctx.now }) (fun _ => rfl)
      user.id db with ⟨e, he, hsame⟩ | ⟨hok, hrows⟩
    · rw [hsame]
      exact ⟨rfl, fun _ => rfl, fun _ _ => rfl⟩
    · rw [hok]
      refine ⟨rfl, fun h => absurd rfl h, fun id hne => ?_⟩
      rw [hrows, if_neg hne]

/-- `GetUserById` finds the live row. -/
theorem getUserById_ends (id : Int) (selectAll : Bool) (db : DB) :
    Ends (getUserById id selectAll) (fun r db' => db' = db ∧ ∀ u, r = .ok u →
      ∃ row, liveRow db id = some row ∧ u = if selectAll then row else row.omitPassword) db := by
  refine (getUserById_sat id selectAll db).ends.mono ?_
  rintro r db' ⟨rfl, hr⟩
  refine ⟨rfl, fun u hu => ?_⟩
  obtain ⟨row, hmem, hlive, hid, hu⟩ := hr u hu
  exact ⟨row, liveRow_eq_some.mpr ⟨Table.get?_eq_some.mpr ⟨hmem, hid⟩, hlive⟩, hu⟩

/-- A transfer changes one id, and only when it is not refused. -/
theorem transfer_ends (logQuota : Int → String) (id quota : Int) (db : DB) :
    Ends (User.transferAffQuotaToQuota logQuota { id := id } quota) (fun _ db' =>
      (∀ key, key ≠ id → liveRow db' key = liveRow db key) ∧
        (quota < quotaPerUnit ∨ (∀ row, liveRow db id = some row → row.affQuota < quota) →
          db' = db)) db := by
  unfold User.transferAffQuotaToQuota
  split
  · exact Ends.pure ⟨fun _ _ => rfl, fun _ => rfl⟩
  · rename_i hunit
    refine (first_ends { id := id } db).bind ?_
    rintro r db' ⟨rfl, ⟨row, hrow, rfl⟩ | ⟨-, rfl⟩⟩
    · have hid : row.id = id := liveRow_id hrow
      dsimp only
      split
      · exact Ends.pure ⟨fun _ _ => rfl, fun _ => rfl⟩
      · rename_i hleft
        refine Ends.perform (Ends.pure ⟨?_, ?_⟩)
        · intro key hkey
          rcases liveRow_userSave
            { row with affQuota := row.affQuota - quota, quota := row.quota + quota } db'
            with ⟨e, -, hsame⟩ | ⟨-, hrows⟩
          · rw [hsame]
          · rw [hrows]
            exact if_neg fun h => hkey (h.symm.trans hid)
        · rintro (hrefused | hrefused)
          · exact absurd hrefused hunit
          · exact absurd (hrefused row hrow) hleft
    · exact Ends.pure ⟨fun _ _ => rfl, fun _ => rfl⟩

end AuthGateway.Model
