import AuthGateway.Accounts

/-!
# What the replies of an administrator's request say

`ManageUser` and `DeleteUser` on a database whose driver may fail.  `watch` is
`serve` with the ids of the rows that were touched, so that a request that wrote
nothing is told apart from one that wrote what was there before.

A reply tells the truth when it reports success exactly for a request that took
effect: the row with the requested id, and no other, was written and is now what
the request asks for.
-/

namespace AuthGateway.AdminReplies

open Common Model Controller GoString

/-! ### The rows that a request touches -/

/-- The rows that a write of these handlers matches, by their ids. -/
def affected : DBOp → DB → List Int
  | .userUpdates p f, db =>
    match (exec (.userUpdates p f) db).1 with
    | .ok _ => (db.users.select fun u => u.live && p u).map User.id
    | .error _ => []
  | .userHardDelete id, db => (db.users.select fun u => u.id == id).map User.id
  | _, _ => []

/-- A store, and the rows touched so far. -/
structure Watched where
  store : Store
  touched : List Int

def watchExec (o : DBOp) (w : Watched) : Except Err o.Ans × Watched :=
  ((w.store.exec (fun _ => true) o).1,
    { store := (w.store.exec (fun _ => true) o).2
      touched := w.touched ++ if (w.store.outages 0).isSome then [] else affected o w.store.db })

/-- A request served under watch. -/
def watch {α : Type} (p : M α) (st : Store) : α × Watched := p.run watchExec ⟨st, []⟩

section Watch

variable {α : Type}

/-- Nobody sees that he is watched. -/
theorem run_watched (p : M α) (w : Watched) :
    (p.run watchExec w).1 = (serve p w.store).1 ∧
      (p.run watchExec w).2.store = (serve p w.store).2 := by
  induction p generalizing w with
  | ret a => exact ⟨rfl, rfl⟩
  | call o k ih => exact ih _ _

theorem affected_read {o : DBOp} (h : o.isRead = true) (db : DB) : affected o db = [] := by
  cases o <;> first | rfl | exact absurd h Bool.false_ne_true

/-- Reading touches nothing. -/
theorem touched_readOnly {p : M α} (hp : ReadOnly p) (w : Watched) :
    (p.run watchExec w).2.touched = w.touched := by
  induction p generalizing w with
  | ret a => rfl
  | call o k ih =>
    obtain ⟨ho, hk⟩ := hp.of_call
    refine (ih _ (hk _) _).trans ?_
    simp [watchExec, affected_read ho]

theorem run_readOnly {p : M α} (hp : ReadOnly p) (w : Watched) :
    p.run watchExec w = ((serve p w.store).1, ⟨(serve p w.store).2, w.touched⟩) := by
  obtain ⟨hvalue, hstore⟩ := run_watched p w
  have htouched := touched_readOnly hp w
  rw [← hvalue, ← hstore, ← htouched]

theorem run_perform (o : DBOp) (f : Except Err o.Ans → M α) (w : Watched) :
    (perform o >>= f).run watchExec w = (f (watchExec o w).1).run watchExec (watchExec o w).2 := rfl

end Watch

/-- The live rows with an id. -/
def liveIds (db : DB) (id : Int) : List Int :=
  (db.users.select fun u => u.live && u.id == id).map User.id

theorem mem_liveIds {db : DB} {id k : Int} (h : k ∈ liveIds db id) : k = id := by
  obtain ⟨u, hu, rfl⟩ := List.mem_map.mp h
  obtain ⟨-, hp⟩ := Table.mem_select.mp hu
  simp only [Bool.and_eq_true, beq_iff_eq] at hp
  exact hp.2

theorem liveIds_ne_nil {db : DB} {id : Int} :
    liveIds db id ≠ [] ↔ ∃ row ∈ db.users, row.id = id ∧ row.live = true := by
  constructor
  · intro h
    obtain ⟨k, hk⟩ := List.exists_mem_of_ne_nil _ h
    obtain ⟨u, hu, -⟩ := List.mem_map.mp hk
    obtain ⟨hmem, hp⟩ := Table.mem_select.mp hu
    simp only [Bool.and_eq_true, beq_iff_eq] at hp
    exact ⟨u, hmem, hp.2, hp.1⟩
  · rintro ⟨row, hmem, hid, hlive⟩ hnil
    have hin : row.id ∈ liveIds db id :=
      List.mem_map_of_mem (Table.mem_select.mpr ⟨hmem, by simp [hid, hlive]⟩)
    rw [hnil] at hin
    exact nomatch hin

/-! ### The writes -/

/-- A statement that was refused, and left everything as it was. -/
structure Failed (w w' : Watched) : Prop where
  db : w'.store.db = w.store.db
  touched : w'.touched = w.touched

/-- A statement that made `f` of the live row with an id. -/
structure Wrote (id : Int) (f : User → User) (w w' : Watched) : Prop where
  row : ∀ k, w'.store.db.users.get? k
    = (w.store.db.users.get? k).map (Table.touch (fun u => u.live && u.id == id) f)
  touched : w'.touched = w.touched ++ liveIds w.store.db id

/-- Updates that agree on the rows they match are one. -/
theorem update_congr {R : Type} [Row R] (t : Table R) {p : R → Bool} {f g : R → R}
    (h : ∀ r ∈ t, p r = true → f r = g r) : t.update p f = t.update p g := by
  have hmap : t.rows.map (Table.touch p f) = t.rows.map (Table.touch p g) := by
    refine List.map_congr_left fun r hr => ?_
    unfold Table.touch
    split
    · rename_i hp
      exact h r hr hp
    · rfl
  unfold Table.update
  simp only [hmap]

/-- One update of the rows with an id, by a function that is plain on them. -/
theorem run_updates (id : Int) (w : Watched) {f g : User → User} (hg : User.Plain g)
    (hsame : ∀ x ∈ w.store.db.users, x.live = true → x.id = id → f x = g x) :
    (∃ e, w.store.outages 0 = some e ∧
      (watchExec (.userUpdates (fun u => u.id == id) f) w).1 = .error e ∧
      Failed w (watchExec (.userUpdates (fun u => u.id == id) f) w).2) ∨
    w.store.outages 0 = none ∧
      (watchExec (.userUpdates (fun u => u.id == id) f) w).1 = .ok () ∧
      Wrote id g w (watchExec (.userUpdates (fun u => u.id == id) f) w).2 := by
  cases houtage : w.store.outages 0 with
  | some e =>
    have hdown : ∀ o : DBOp, w.store.exec (fun _ => true) o = (.error e, w.store.rest) :=
      fun o => Store.exec_down houtage rfl
    refine Or.inl ⟨e, rfl, ?_, ?_, ?_⟩
    · simp [watchExec, hdown]
    · simp [watchExec, hdown, Store.rest]
    · simp [watchExec, houtage]
  | none =>
    have hexec : exec (.userUpdates (fun u => u.id == id) f) w.store.db
        = exec (.userUpdates (fun u => u.id == id) g) w.store.db := by
      have hup : w.store.db.users.update (fun u => u.live && u.id == id) f
          = w.store.db.users.update (fun u => u.live && u.id == id) g := by
        refine update_congr _ fun r hr hp => ?_
        simp only [Bool.and_eq_true, beq_iff_eq] at hp
        exact hsame r hr hp.1 hp.2
      simp only [exec, hup]
      rfl
    obtain ⟨hok, hrow⟩ := exec_plain hg (fun u => u.id == id) w.store.db
    refine Or.inr ⟨rfl, ?_, ?_, ?_⟩
    · simp only [watchExec, Store.exec_up houtage, hexec]
      exact hok
    · intro k
      simp only [watchExec, Store.exec_up houtage, hexec]
      exact hrow k
    · simp only [watchExec, houtage, affected, hexec, hok]
      simp [liveIds]

/-- `User.Update` writes the non-zero fields of the struct over the live row. -/
theorem run_update (ctx : Ctx) {user : User} (hid : user.id ≠ 0) {g : User → User}
    (hg : User.Plain g) {w : Watched}
    (hsame : ∀ x ∈ w.store.db.users, x.live = true → x.id = user.id → x.overlay user = g x) :
    (∃ e, w.store.outages 1 = some e ∧ ((user.update ctx false).run watchExec w).1.1 = some e ∧
      Failed w ((user.update ctx false).run watchExec w).2) ∨
    w.store.outages 1 = none ∧ ((user.update ctx false).run watchExec w).1.1 = none ∧
      Wrote user.id g w ((user.update ctx false).run watchExec w).2 := by
  have hread := run_readOnly (user.first_readOnly false fun u => u.id == user.id) w
  obtain ⟨hrest, hkey⟩ : (serve (user.first false fun u => u.id == user.id) w.store).2
      = w.store.rest ∧
      (serve (user.first false fun u => u.id == user.id) w.store).1.2.id = user.id := by
    cases houtage : w.store.outages 0 with
    | some e => rw [serve_first_down _ _ _ houtage]; exact ⟨rfl, rfl⟩
    | none =>
      rw [serve_first_up _ _ _ houtage]
      refine ⟨rfl, ?_⟩
      dsimp only
      split
      · rename_i row hfind
        have hholds := Table.find?_holds hfind
        simp only [seen, Bool.and_eq_true, beq_iff_eq] at hholds
        exact hholds.2.1
      · rfl
  generalize hr : serve (user.first false fun u => u.id == user.id) w.store = r at *
  obtain ⟨⟨err, found⟩, store⟩ := r
  dsimp only at hread hrest hkey
  subst hrest
  obtain ⟨hanswered, hleft⟩ : ((user.update ctx false).run watchExec w).1.1
        = errorOf (watchExec (.userUpdates (fun u => u.id == user.id) fun row => row.overlay user)
          ⟨w.store.rest, w.touched⟩).1 ∧
      ((user.update ctx false).run watchExec w).2
        = (watchExec (.userUpdates (fun u => u.id == user.id) fun row => row.overlay user)
          ⟨w.store.rest, w.touched⟩).2 := by
    unfold User.update User.hashPassword User.firstAndUpdates
    simp only [Bool.false_eq_true, if_false]
    rw [Prog.run_bind, hread]
    dsimp only
    rw [if_neg (by rw [hkey]; exact hid), hkey]
    rw [run_perform]
    cases (watchExec (.userUpdates (fun u => u.id == user.id) fun row => row.overlay user)
      ⟨w.store.rest, w.touched⟩).1 <;> exact ⟨rfl, rfl⟩
  have hwrite := run_updates user.id ⟨w.store.rest, w.touched⟩ hg hsame
  rw [hanswered, hleft]
  rcases hwrite with ⟨e, houtage, hanswer, hfailed⟩ | ⟨houtage, hanswer, hwrote⟩
  · rw [hanswer]
    exact Or.inl ⟨e, houtage, rfl, hfailed.db, hfailed.touched⟩
  · rw [hanswer]
    exact Or.inr ⟨houtage, rfl, hwrote.row, hwrote.touched⟩

/-- `User.Delete` marks the live row. -/
theorem run_delete (ctx : Ctx) {user : User} (hid : user.id ≠ 0) (w : Watched) :
    ((user.delete ctx).run watchExec w).2.store.outages = w.store.rest.outages ∧
    ((∃ e, w.store.outages 0 = some e ∧ ((user.delete ctx).run watchExec w).1.1 = some e ∧
        Failed w ((user.delete ctx).run watchExec w).2) ∨
      w.store.outages 0 = none ∧
        ((user.delete ctx).run watchExec w).1 = (none, { user with deletedAt := some ctx.now }) ∧
        Wrote user.id (fun u => { u with deletedAt := some ctx.now }) w
          ((user.delete ctx).run watchExec w).2) := by
  have hplain : User.Plain fun u => { u with deletedAt := some ctx.now } :=
    ⟨fun _ => rfl, fun _ _ => rfl⟩
  have hwrite := run_updates user.id w hplain fun _ _ _ _ => rfl
  have hrun : (user.delete ctx).run watchExec w
      = ((errorOf (watchExec (.userUpdates (fun u => u.id == user.id)
          fun u => { u with deletedAt := some ctx.now }) w).1,
          { user with deletedAt := some ctx.now }),
        (watchExec (.userUpdates (fun u => u.id == user.id)
          fun u => { u with deletedAt := some ctx.now }) w).2) := by
    unfold User.delete
    rw [if_neg hid]
    rfl
  rw [hrun]
  refine ⟨?_, ?_⟩
  · show (w.store.exec _ _).2.outages = _
    unfold Store.exec
    split <;> rfl
  · rcases hwrite with ⟨e, houtage, hanswer, hfailed⟩ | ⟨houtage, hanswer, hwrote⟩
    · rw [hanswer]
      exact Or.inl ⟨e, houtage, rfl, hfailed⟩
    · rw [hanswer]
      exact Or.inr ⟨houtage, rfl, hwrote⟩

/-- No live row is left where the rows were marked. -/
theorem Wrote.liveIds_nil {id : Int} {f : User → User} {w w' : Watched} (h : Wrote id f w w')
    (hdeleted : ∀ u, (f u).live = false) : liveIds w'.store.db id = [] := by
  by_contra hne
  obtain ⟨row, hmem, hid, hlive⟩ := liveIds_ne_nil.mp hne
  have hget : some row = _ := (Table.get?_key hmem).symm.trans (h.row row.id)
  obtain ⟨before, -, hbefore⟩ := Option.map_eq_some_iff.mp hget.symm
  unfold Table.touch at hbefore
  split at hbefore
  · rw [← hbefore, hdeleted] at hlive
    exact absurd hlive Bool.false_ne_true
  · rename_i hcond
    subst hbefore
    simp [hlive, hid] at hcond

/-- An update that finds no live row changes nothing. -/
theorem run_update_none (ctx : Ctx) (user : User) (hid : user.id ≠ 0) (w : Watched)
    (hnone : liveIds w.store.db user.id = []) :
    (∃ e, w.store.outages 1 = some e ∧ ((user.update ctx false).run watchExec w).1.1 = some e ∧
      Failed w ((user.update ctx false).run watchExec w).2) ∨
    w.store.outages 1 = none ∧ ((user.update ctx false).run watchExec w).1.1 = none ∧
      ((user.update ctx false).run watchExec w).2.touched = w.touched ∧
      ∀ k, ((user.update ctx false).run watchExec w).2.store.db.users.get? k
        = w.store.db.users.get? k := by
  have hplain : User.Plain id := ⟨fun _ => rfl, fun _ _ => rfl⟩
  have hupdate := run_update ctx hid hplain (w := w) fun row hmem hlive hrid =>
    absurd hnone (liveIds_ne_nil.mpr ⟨row, hmem, hrid, hlive⟩)
  rcases hupdate with hfailed | ⟨hup, herr, hwrote⟩
  · exact Or.inl hfailed
  · refine Or.inr ⟨hup, herr, ?_, fun k => ?_⟩
    · rw [hwrote.touched, hnone, List.append_nil]
    · rw [hwrote.row]
      cases w.store.db.users.get? k with
      | none => rfl
      | some row => simp [Table.touch]

/-! ### The requests -/

inductive Request
  | manageUser (req : ManageRequest)
  | deleteUser (idParam : String)

def handle (ctx : Ctx) (s : Sess) : Request → M Out
  | .manageUser req => manageUser ctx s (some req)
  | .deleteUser idParam => deleteUser ctx s idParam

/-- The account that `ManageUser` decides on: the first row with the requested
id, deleted or not, where zero is the id of any row; or, when no row is read, a
struct with nothing but the id. -/
def looked (st : Store) (id : Int) : User :=
  match st.outages 0 with
  | some _ => { id := id }
  | none => (st.db.users.find? fun u => id == 0 || u.id == id).getD { id := id }

/-- The request passes the rank check of its handler. -/
def Passes (ctx : Ctx) (st : Store) : Request → Prop
  | .manageUser req =>
    (looked st req.id).id ≠ 0 ∧ outranked ctx.role (looked st req.id).role = false
  | .deleteUser idParam => st.outages 0 = none ∧ ∃ row ∈ st.db.users,
      atoi idParam = (row.id, none) ∧ row.live = true ∧ row.role < ctx.role

/-- What a known action makes of a row. -/
def change (now : Int) (action : String) : Option (User → User) :=
  if action = "disable" then some fun u => { u with status := userStatusDisabled }
  else if action = "enable" then some fun u => { u with status := userStatusEnabled }
  else if action = "delete" then some fun u => { u with deletedAt := some now }
  else if action = "promote" then some fun u => { u with role := roleAdminUser }
  else if action = "demote" then some fun u => { u with role := roleCommonUser }
  else none

/-- The id that a request names and what is to become of its row, if it asks for
something; a row that becomes `none` is removed. -/
def asked (ctx : Ctx) : Request → Option (Int × (User → Option User))
  | .manageUser req => (change ctx.now req.action).map fun f => (req.id, fun u => some (f u))
  | .deleteUser idParam => some ((atoi idParam).1, fun _ => none)

/-- The row with the id, and no other, was written, and is now what `g` makes of
it. -/
structure TookEffect (id : Int) (g : User → Option User) (db : DB) (w : Watched) : Prop where
  touched : w.touched ≠ [] ∧ ∀ k ∈ w.touched, k = id
  row : w.store.db.users.get? id = (db.users.get? id).bind g
  others : ∀ k, k ≠ id → w.store.db.users.get? k = db.users.get? k

/-- `"success": true`. -/
def reported : Reply → Bool
  | .json _ success _ _ => success
  | _ => false

/-- **The reply tells the truth**: it reports success exactly when the request
took effect. -/
def Truthful (ctx : Ctx) (s : Sess) (st : Store) (q : Request) : Prop :=
  reported (watch (handle ctx s q) st).1.reply = true ↔
    ∃ id g, asked ctx q = some (id, g) ∧ TookEffect id g st.db (watch (handle ctx s q) st).2

def Live (st : Store) (id : Int) : Prop := ∃ row ∈ st.db.users, row.id = id ∧ row.live = true

/-- The requests whose reply tells the truth.  The statements of `ManageUser` are
the look-up, for `delete` the soft delete, and the two of `User.Update`. -/
inductive Honest (ctx : Ctx) (st : Store) : Request → Prop
  | refused {req : ManageRequest} {msg : String}
      (h : manageAction ctx.role (looked st req.id) req.action = .error msg) :
      Honest ctx st (.manageUser req)
  | written {req : ManageRequest} (hknown : (change ctx.now req.action).isSome = true)
      (hlive : Live st req.id)
      (hup : if req.action = "delete" then st.outages 1 = none ∧ st.outages 3 = none
        else st.outages 2 = none) :
      Honest ctx st (.manageUser req)
  | failed {req : ManageRequest}
      (hdown : if req.action = "delete" then
          st.outages 1 ≠ none ∨ st.outages 3 ≠ none ∧ ¬ Live st req.id
        else st.outages 2 ≠ none) :
      Honest ctx st (.manageUser req)

/-! ### What the action asks for -/

theorem change_plain (now : Int) (action : String) :
    User.Plain ((change now action).getD id) := by
  unfold change
  refine ⟨?_, ?_⟩
  · intro u
    split_ifs <;> rfl
  · intro u v
    split_ifs <;> rfl

theorem manageAction_change (now : Int) {myRole : Int} {user user' : User} {action : String}
    (h : manageAction myRole user action = .ok user') (hdelete : action ≠ "delete") :
    user' = (change now action).getD id user := by
  unfold manageAction at h
  unfold change
  split_ifs at h ⊢ <;> exact (Except.ok.inj h).symm

/-- The overlay of a struct with nothing but an id and the change is the change. -/
theorem overlay_blank (now : Int) {action : String} (hdelete : action ≠ "delete") (k : Int)
    (row : User) :
    row.overlay ((change now action).getD id { id := k }) = (change now action).getD id row := by
  unfold change
  split_ifs <;> simp_all [User.overlay, userStatusDisabled, userStatusEnabled, roleAdminUser,
    roleCommonUser]

theorem looked_cases (st : Store) (id : Int) :
    looked st id ∈ st.db.users ∧ (id ≠ 0 → (looked st id).id = id) ∨ looked st id = { id := id } := by
  unfold looked
  split
  · exact Or.inr rfl
  · cases hfind : st.db.users.find? fun u => id == 0 || u.id == id with
    | none => exact Or.inr rfl
    | some row =>
      have hholds := Table.find?_holds hfind
      simp only [Bool.or_eq_true, beq_iff_eq] at hholds
      exact Or.inl ⟨Table.find?_mem hfind, fun hid => hholds.resolve_left hid⟩

theorem looked_id {st : Store} {id : Int} (hid : id ≠ 0) : (looked st id).id = id := by
  rcases looked_cases st id with ⟨-, h⟩ | h
  · exact h hid
  · rw [h]

/-- What `User.Update` writes after an action other than `delete`. -/
theorem overlay_action {ctx : Ctx} {st : Store} {req : ManageRequest} {user : User}
    (h : manageAction ctx.role (looked st req.id) req.action = .ok user)
    (hdelete : req.action ≠ "delete") {row : User} (hrow : row ∈ st.db.users)
    (hid : row.id = user.id) : row.overlay user = (change ctx.now req.action).getD id row := by
  have huser := manageAction_change ctx.now h hdelete
  have huid : user.id = (looked st req.id).id := AdminRank.manageAction_id h
  rcases looked_cases st req.id with ⟨hmem, -⟩ | hblank
  · obtain rfl : row = looked st req.id := Table.eq_of_key hrow hmem (hid.trans huid)
    rw [Accounts.overlay_managed h]
    exact huser
  · rw [huser, hblank]
    exact overlay_blank ctx.now hdelete req.id row

/-! ### Whether a write took effect -/

theorem live_iff {st : Store} {id : Int} : Live st id ↔ liveIds st.db id ≠ [] := liveIds_ne_nil.symm

/-- A write on the live row with one id takes effect for a request that names
this id and has such a row. -/
theorem tookEffect_iff (st : Store) {id k : Int} {f : User → User} {w : Watched}
    (htouched : w.touched = liveIds st.db k)
    (hrow : ∀ j, w.store.db.users.get? j
      = (st.db.users.get? j).map (Table.touch (fun u => u.live && u.id == k) f))
    (hk : id ≠ 0 → k = id) (hpos : k ≠ 0) :
    TookEffect id (fun u => some (f u)) st.db w ↔ Live st id := by
  constructor
  · rintro ⟨⟨hne, hall⟩, -, -⟩
    rw [htouched] at hne hall
    obtain ⟨j, hj⟩ := List.exists_mem_of_ne_nil _ hne
    obtain rfl : k = id := (mem_liveIds hj).symm.trans (hall j hj)
    exact live_iff.mpr hne
  · rintro ⟨row, hmem, rfl, hlive⟩
    obtain rfl : k = row.id := hk (ne_of_gt (Table.key_pos hmem))
    have hget : st.db.users.get? row.id = some row := Table.get?_key hmem
    refine ⟨⟨?_, ?_⟩, ?_, ?_⟩
    · rw [htouched]
      exact live_iff.mp ⟨row, hmem, rfl, hlive⟩
    · intro j hj
      rw [htouched] at hj
      exact mem_liveIds hj
    · rw [hrow, hget]
      simp [Table.touch, hlive]
    · intro j hj
      rw [hrow]
      cases hother : st.db.users.get? j with
      | none => rfl
      | some other =>
        obtain ⟨-, hkey⟩ := Table.get?_eq_some.mp hother
        have hne : (other.id == row.id) = false := beq_false_of_ne fun he => hj (hkey ▸ he)
        simp [Table.touch, hne]

/-- Without a write there is no effect. -/
theorem not_tookEffect {id : Int} {g : User → Option User} {db : DB} {w : Watched}
    (h : w.touched = []) : ¬ TookEffect id g db w := fun he => he.touched.1 h

/-! ### ManageUser -/

section ManageUser

variable {ctx : Ctx} {s : Sess} {st : Store} {req : ManageRequest}

/-- The reply after the last write. -/
def manageReply (s : Sess) (r : Option Err × User) : Out :=
  match r with
  | (some e, _) => s.apiError e
  | (none, user) => s.answer (.apiSuccess (User.toJson { role := user.role, status := user.status }))

theorem reported_manageReply (s : Sess) (r : Option Err × User) :
    reported (manageReply s r).reply = true ↔ r.1 = none := by
  obtain ⟨_ | e, user⟩ := r
  · simp [manageReply, reported, Sess.answer, Reply.apiSuccess]
  · simp [manageReply, reported, Sess.apiError, Sess.answer, Reply.failure]

/-- The end of `ManageUser`. -/
def finish (ctx : Ctx) (s : Sess) (user : User) : M Out := do
  return manageReply s (← user.update ctx false)

theorem run_finish (ctx : Ctx) (s : Sess) (user : User) (w : Watched) :
    (finish ctx s user).run watchExec w
      = (manageReply s ((user.update ctx false).run watchExec w).1,
        ((user.update ctx false).run watchExec w).2) := by
  unfold finish
  rw [Prog.run_bind]
  rfl

theorem serve_looked (st : Store) (id : Int) :
    (serve (User.first { id := id } true fun _ => true) st).1.2 = looked st id ∧
      (serve (User.first { id := id } true fun _ => true) st).2 = st.rest := by
  unfold looked
  cases houtage : st.outages 0 with
  | some e =>
    rw [serve_first_down _ _ _ houtage]
    exact ⟨rfl, rfl⟩
  | none =>
    rw [serve_first_up _ _ _ houtage]
    have hseen : seen true (fun u => id == 0 || u.id == id) = fun u => id == 0 || u.id == id := by
      funext u
      simp [seen]
    refine ⟨?_, rfl⟩
    simp only [Bool.true_and, hseen]
    cases st.db.users.find? fun u => id == 0 || u.id == id <;> rfl

/-- A request that passes the rank check, up to the action. -/
theorem watch_manageUser (hpass : Passes ctx st (.manageUser req)) :
    watch (manageUser ctx s (some req)) st
      = match manageAction ctx.role (looked st req.id) req.action with
        | .error msg => (s.fail msg, ⟨st.rest, []⟩)
        | .ok user => Prog.run watchExec (do
            let (err, user) ← manageDelete ctx user req.action
            match err with
            | some e => return s.apiError e
            | none => finish ctx s user) ⟨st.rest, []⟩ := by
  obtain ⟨hid, hrank⟩ := hpass
  obtain ⟨hlooked, hrest⟩ := serve_looked st req.id
  have hfirst := run_readOnly
    (User.first_readOnly { id := req.id } true fun _ => true) ⟨st, []⟩
  rw [hrest] at hfirst
  unfold watch manageUser
  rw [Prog.run_bind, hfirst]
  generalize serve (User.first { id := req.id } true fun _ => true) st = r at hlooked ⊢
  obtain ⟨⟨err, user⟩, st'⟩ := r
  obtain rfl : user = looked st req.id := hlooked
  dsimp only
  rw [if_neg hid, hrank, if_neg Bool.false_ne_true]
  cases manageAction ctx.role (looked st req.id) req.action with
  | error msg => rfl
  | ok user =>
    dsimp only
    congr 2
    funext r
    obtain ⟨_ | e, user'⟩ := r
    · dsimp only
      unfold finish
      congr 1
      funext r'
      obtain ⟨_ | e, user''⟩ := r' <;> rfl
    · rfl

/-- An action that is refused. -/
theorem truthful_refused {msg : String} (hpass : Passes ctx st (.manageUser req))
    (h : manageAction ctx.role (looked st req.id) req.action = .error msg) :
    Truthful ctx s st (.manageUser req) := by
  have hwatch := watch_manageUser (s := s) hpass
  rw [h] at hwatch
  unfold Truthful handle
  rw [hwatch]
  refine iff_of_false Bool.false_ne_true ?_
  rintro ⟨id, g, -, htook⟩
  exact not_tookEffect rfl htook

/-- The actions with one write. -/
theorem truthful_updated {user : User} (hpass : Passes ctx st (.manageUser req))
    (h : manageAction ctx.role (looked st req.id) req.action = .ok user)
    (hdelete : req.action ≠ "delete") :
    Truthful ctx s st (.manageUser req) ↔ st.outages 2 ≠ none ∨
      (change ctx.now req.action).isSome = true ∧ Live st req.id := by
  have huid : user.id = (looked st req.id).id := AdminRank.manageAction_id h
  have hid : user.id ≠ 0 := by
    rw [huid]
    exact hpass.1
  have hwatch := watch_manageUser (s := s) hpass
  rw [h] at hwatch
  have hrun : watch (manageUser ctx s (some req)) st
      = (manageReply s ((user.update ctx false).run watchExec ⟨st.rest, []⟩).1,
        ((user.update ctx false).run watchExec ⟨st.rest, []⟩).2) := by
    rw [hwatch, ← run_finish]
    simp only [manageDelete, if_neg hdelete, pure_bind]
  have hupdate := run_update ctx hid (change_plain ctx.now req.action) (w := ⟨st.rest, []⟩)
    fun row hrow _ hrid => overlay_action h hdelete hrow hrid
  unfold Truthful handle
  rw [hrun, reported_manageReply]
  rcases hupdate with ⟨e, houtage, herr, hfailed⟩ | ⟨houtage, herr, hwrote⟩
  · have houtage : st.outages 2 = some e := houtage
    rw [herr, houtage]
    refine iff_of_true (iff_of_false (fun h => nomatch h) ?_) (Or.inl fun h => nomatch h)
    rintro ⟨id, g, -, htook⟩
    exact not_tookEffect hfailed.touched htook
  · have houtage : st.outages 2 = none := houtage
    rw [herr, houtage]
    have hkey : req.id ≠ 0 → user.id = req.id := fun hreq => huid.trans (looked_id hreq)
    cases hchange : change ctx.now req.action with
    | none => simp [asked, hchange]
    | some f =>
      have hrow := hwrote.row
      rw [hchange] at hrow
      have htook := tookEffect_iff st (f := f) hwrote.touched hrow hkey hid
      simp [asked, hchange, htook]

/-- `delete` writes twice, and the second write finds the row gone. -/
theorem truthful_deleted {user : User} (hpass : Passes ctx st (.manageUser req))
    (h : manageAction ctx.role (looked st req.id) req.action = .ok user)
    (hdelete : req.action = "delete") :
    Truthful ctx s st (.manageUser req) ↔ st.outages 1 ≠ none ∨
      (st.outages 3 = none ↔ Live st req.id) := by
  have huid : user.id = (looked st req.id).id := AdminRank.manageAction_id h
  have hid : user.id ≠ 0 := by
    rw [huid]
    exact hpass.1
  have hkey : req.id ≠ 0 → user.id = req.id := fun hreq => huid.trans (looked_id hreq)
  have hwatch := watch_manageUser (s := s) hpass
  rw [h] at hwatch
  obtain ⟨hrest, hgone⟩ := run_delete ctx hid ⟨st.rest, []⟩
  have hrun : watch (manageUser ctx s (some req)) st
      = Prog.run watchExec (match ((user.delete ctx).run watchExec ⟨st.rest, []⟩).1.1 with
          | some e => return s.apiError e
          | none => finish ctx s ((user.delete ctx).run watchExec ⟨st.rest, []⟩).1.2)
        ((user.delete ctx).run watchExec ⟨st.rest, []⟩).2 := by
    rw [hwatch]
    simp only [manageDelete, if_pos hdelete]
    rw [Prog.run_bind]
  have hasked : asked ctx (.manageUser req)
      = some (req.id, fun u => some { u with deletedAt := some ctx.now }) := by
    simp [asked, change, hdelete]
  generalize (user.delete ctx).run watchExec ⟨st.rest, []⟩ = r at hrest hgone hrun
  obtain ⟨⟨err, gone⟩, w⟩ := r
  dsimp only at hrest hgone hrun
  unfold Truthful handle
  rcases hgone with ⟨e, houtage, herr, hfailed⟩ | ⟨houtage, hr, hwrote⟩
  · have houtage : st.outages 1 = some e := houtage
    subst herr
    rw [hrun, houtage]
    refine iff_of_true (iff_of_false Bool.false_ne_true ?_) (Or.inl fun h => nomatch h)
    rintro ⟨id, g, -, htook⟩
    exact not_tookEffect hfailed.touched htook
  · have houtage : st.outages 1 = none := houtage
    obtain ⟨rfl, rfl⟩ := Prod.mk.inj hr
    have hnone : liveIds w.store.db user.id = [] := hwrote.liveIds_nil fun _ => rfl
    have hlater := run_update_none ctx { user with deletedAt := some ctx.now } hid w hnone
    have hshift : w.store.outages 1 = st.outages 3 := by rw [hrest]; rfl
    rw [hrun, houtage]
    dsimp only
    rw [run_finish, reported_manageReply, hasked]
    have htook : ∀ w' : Watched, w'.touched = w.touched →
        (∀ k, w'.store.db.users.get? k = w.store.db.users.get? k) →
        (TookEffect req.id (fun u => some { u with deletedAt := some ctx.now }) st.db w' ↔
          Live st req.id) := by
      intro w' htouched hrow
      refine tookEffect_iff st (htouched.trans hwrote.touched) (fun k => ?_) hkey hid
      rw [hrow]
      exact hwrote.row k
    rcases hlater with ⟨e, hdown, herr, hfailed⟩ | ⟨hup, herr, htouched, hrow⟩
    · rw [hshift] at hdown
      rw [herr, hdown]
      have hiff := htook _ hfailed.touched fun k => by rw [hfailed.db]
      simp [hiff]
    · rw [hshift] at hup
      rw [herr, hup]
      have hiff := htook _ htouched hrow
      simp [hiff]

end ManageUser

/-! ### DeleteUser -/

/-- A request that is let through removes the row and says nothing, or fails and
reports success. -/
theorem not_truthful_deleteUser {ctx : Ctx} {st : Store} {idParam : String}
    (hpass : Passes ctx st (.deleteUser idParam)) (s : Sess) :
    ¬ Truthful ctx s st (.deleteUser idParam) := by
  obtain ⟨hup, row, hmem, hatoi, hlive, hrole⟩ := hpass
  have hid : row.id ≠ 0 := ne_of_gt (Table.key_pos hmem)
  have hfirst := run_readOnly (getUserById_only (fun _ _ => rfl) row.id false) ⟨st, []⟩
  rw [serve_getUserById_up hup hmem hlive rfl] at hfirst
  have hasked : asked ctx (.deleteUser idParam) = some (row.id, fun _ => none) := by
    simp [asked, hatoi]
  have hrun : watch (deleteUser ctx s idParam) st
      = ((match (watchExec (.userHardDelete row.id) ⟨st.rest, []⟩).1 with
          | .ok _ => s.answer .none
          | .error _ => s.answer (.done "")),
        (watchExec (.userHardDelete row.id) ⟨st.rest, []⟩).2) := by
    unfold watch deleteUser
    rw [hatoi]
    dsimp only
    rw [Prog.run_bind, hfirst]
    have hrank : ¬ ctx.role ≤ row.role := not_le.mpr hrole
    simp only [User.omitPassword, Bool.false_eq_true, if_false, hrank, hardDeleteUserById, hid]
    rw [bind_assoc, run_perform]
    cases (watchExec (.userHardDelete row.id) ⟨st.rest, []⟩).1 <;> rfl
  unfold Truthful handle
  rw [hrun, hasked]
  cases houtage : st.outages 1 with
  | some e =>
    have hrest : (st.rest).outages 0 = some e := houtage
    have hdown : ∀ o : DBOp, st.rest.exec (fun _ => true) o = (.error e, st.rest.rest) :=
      fun o => Store.exec_down hrest rfl
    have hanswer : (watchExec (.userHardDelete row.id) ⟨st.rest, []⟩).1 = .error e := by
      simp [watchExec, hdown]
    rw [hanswer]
    intro h
    obtain ⟨id, g, -, htook⟩ := h.mp rfl
    refine not_tookEffect ?_ htook
    simp [watchExec, hrest]
  | none =>
    have hrest : (st.rest).outages 0 = none := houtage
    have hanswer : (watchExec (.userHardDelete row.id) ⟨st.rest, []⟩).1 = .ok () := by
      simp only [watchExec, Store.exec_up hrest]
      rfl
    rw [hanswer]
    intro h
    refine absurd (h.mpr ⟨row.id, _, rfl, ?_⟩) Bool.false_ne_true
    have htouched : (watchExec (.userHardDelete row.id) ⟨st.rest, []⟩).2.touched
        = (st.db.users.select fun u => u.id == row.id).map User.id := by
      simp [watchExec, houtage, affected, Store.rest]
    have hget : ∀ k, (watchExec (.userHardDelete row.id) ⟨st.rest, []⟩).2.store.db.users.get? k
        = (st.db.users.delete fun u => u.id == row.id).get? k := by
      intro k
      simp only [watchExec, Store.exec_up hrest]
      rfl
    refine ⟨⟨?_, ?_⟩, ?_, ?_⟩
    · rw [htouched]
      exact List.ne_nil_of_mem (List.mem_map_of_mem (Table.mem_select.mpr ⟨hmem, by simp⟩))
    · intro k hk
      rw [htouched] at hk
      obtain ⟨u, hu, rfl⟩ := List.mem_map.mp hk
      exact beq_iff_eq.mp (Table.mem_select.mp hu).2
    · rw [hget]
      refine (Table.get?_eq_none.mpr fun u hu => ?_).trans (by simp)
      have hne := (Table.mem_delete.mp hu).2
      simpa using hne
    · intro k hk
      rw [hget]
      refine Table.get?_congr fun u hu => ?_
      rw [Table.mem_delete]
      have hne : u.id ≠ row.id := fun he => hk (hu.symm.trans he)
      simp [hne]

/-- **Which replies tell the truth**, of the requests that pass the rank check:
those of `ManageUser` that are refused, that fail, or that name a known action
and a live row; none of `DeleteUser`. -/
theorem truthful_iff (ctx : Ctx) (s : Sess) (st : Store) (q : Request) (hpass : Passes ctx st q) :
    Truthful ctx s st q ↔ Honest ctx st q := by
  cases q with
  | deleteUser idParam =>
    exact iff_of_false (not_truthful_deleteUser hpass s) fun h => nomatch h
  | manageUser req =>
    cases haction : manageAction ctx.role (looked st req.id) req.action with
    | error msg => exact iff_of_true (truthful_refused hpass haction) (.refused haction)
    | ok user =>
      by_cases hdelete : req.action = "delete"
      · have hknown : (change ctx.now req.action).isSome = true := by simp [change, hdelete]
        rw [truthful_deleted hpass haction hdelete]
        constructor
        · rintro (hdown | hiff)
          · exact .failed (by rw [if_pos hdelete]; exact Or.inl hdown)
          · by_cases hlive : Live st req.id
            · by_cases hup : st.outages 1 = none
              · exact .written hknown hlive (by rw [if_pos hdelete]; exact ⟨hup, hiff.mpr hlive⟩)
              · exact .failed (by rw [if_pos hdelete]; exact Or.inl hup)
            · exact .failed (by rw [if_pos hdelete]; exact Or.inr ⟨fun h => hlive (hiff.mp h), hlive⟩)
        · intro h
          cases h with
          | refused h => exact nomatch haction.symm.trans h
          | written _ hlive hup =>
            rw [if_pos hdelete] at hup
            exact Or.inr (iff_of_true hup.2 hlive)
          | failed hdown =>
            rw [if_pos hdelete] at hdown
            exact hdown.imp_right fun h => iff_of_false h.1 h.2
      · rw [truthful_updated hpass haction hdelete]
        constructor
        · rintro (hdown | ⟨hknown, hlive⟩)
          · exact .failed (by rw [if_neg hdelete]; exact hdown)
          · by_cases hup : st.outages 2 = none
            · exact .written hknown hlive (by rw [if_neg hdelete]; exact hup)
            · exact .failed (by rw [if_neg hdelete]; exact hup)
        · intro h
          cases h with
          | refused h => exact nomatch haction.symm.trans h
          | written hknown hlive _ => exact Or.inr ⟨hknown, hlive⟩
          | failed hdown =>
            rw [if_neg hdelete] at hdown
            exact Or.inl hdown

/-- The company: root and Oscar. -/
def companyDB : DB where
  users := Table.pair { id := 1, username := "root", role := 100, status := 1, affCode := "r" }
    { id := 2, username := "oscar", role := 1, status := 1, affCode := "o" } (by decide)
  twoFAs := Table.empty
  backupCodes := Table.empty
  passkeys := Table.empty

def rootCtx : Ctx := { Ctx.plain 0 with id := 1, role := roleRootUser }

/-- Root disables Oscar. -/
def disableOscar : Request := .manageUser ⟨2, "disable"⟩

theorem truthful_oscar :
    Truthful rootCtx (Sess.ofCookie {}) (Store.ofDB companyDB) disableOscar ↔
      Honest rootCtx (Store.ofDB companyDB) disableOscar :=
  truthful_iff _ _ _ _ ⟨by decide, by decide⟩

/-- Root disables somebody who is not there, and is told that it was done. -/
theorem nobody_disabled :
    Passes rootCtx (Store.ofDB companyDB) (.manageUser ⟨7, "disable"⟩) ∧
      ¬ Truthful rootCtx (Sess.ofCookie {}) (Store.ofDB companyDB) (.manageUser ⟨7, "disable"⟩) := by
  have hpass : Passes rootCtx (Store.ofDB companyDB) (.manageUser ⟨7, "disable"⟩) :=
    ⟨by decide, by decide⟩
  refine ⟨hpass, fun h => ?_⟩
  have hdecided : manageAction rootCtx.role (looked (Store.ofDB companyDB) 7) "disable"
      = .ok { id := 7, status := userStatusDisabled } := rfl
  rcases (truthful_updated hpass hdecided (by decide)).mp h with hdown | ⟨-, row, hmem, hid, -⟩
  · exact hdown rfl
  · have hrow : ∀ row ∈ companyDB.users.rows, row.id ≠ 7 := by decide
    exact hrow row hmem hid

end AuthGateway.AdminReplies
