import AuthGateway.Lib.Hoare
import AuthGateway.Model.Rows

/-!
# The database and its operations

A `DB` is the four tables the login code touches.  A `DBOp` is one statement or
one transaction of the code, performed atomically; `exec` is what it does and
answers.  Programs over them are `M`.

A `Store` is a database that can be out of order: it carries, for every
operation still to come, whether the driver fails it.  `Store.exec` is `exec`
where the driver works, and answers the driver's error, without any effect,
where it does not.

`Sat p Q db` says that `p` ends in `Q` whichever of its operations fail.  It is
proved once for a function and covers both: `Sat.run` for a database in order,
`Sat.serve` for one that is not.
-/

namespace AuthGateway.Model

open Common

structure DB where
  users : Table User
  twoFAs : Table TwoFA
  backupCodes : Table TwoFABackupCode
  passkeys : Table PasskeyCredential

/-- The statements and transactions of the code. -/
inductive DBOp
  /-- `First` on `users`; `unscoped` sees soft-deleted rows. -/
  | userFirst (unscoped : Bool) (p : User → Bool)
  /-- `DB.Unscoped().Last(&user)`. -/
  | userLast
  /-- `Find(&User{}).RowsAffected`: at most one row is scanned into a struct. -/
  | userFind (unscoped : Bool) (p : User → Bool)
  /-- The transaction that counts and reads one page, highest id first, of all
  users, soft-deleted ones too. -/
  | userPage (p : User → Bool) (limit offset : Int)
  | userCreate (u : User)
  /-- `UPDATE users … WHERE p`, live rows only. -/
  | userUpdates (p : User → Bool) (f : User → User)
  | userSave (u : User)
  | userHardDelete (id : Int)
  | twoFAFirst (userId : Int)
  | twoFACreate (t : TwoFA)
  | twoFASave (t : TwoFA)
  /-- `TwoFA.Delete`: the user's backup codes and the record, in one transaction. -/
  | twoFADelete (t : TwoFA)
  /-- `WHERE user_id = ? AND is_used = false`. -/
  | codesUnused (userId : Int)
  | codeSave (c : TwoFABackupCode)
  /-- `CreateBackupCodes`: drop the user's codes and store the new hashes, in
  one transaction. -/
  | codesReplace (userId : Int) (hashes : List String) (now : Int)
  | passkeyFirst (p : PasskeyCredential → Bool)
  /-- `UpsertPasskeyCredential`, in one transaction. -/
  | passkeyUpsert (c : PasskeyCredential)
  | passkeyDelete (userId : Int)

namespace DBOp

/-- What an operation answers when the driver works or reports a constraint. -/
def Ans : DBOp → Type
  | userFirst _ _ => User
  | userLast => User
  | userFind _ _ => Int
  | userPage _ _ _ => List User × Int
  | userCreate _ => User
  | twoFAFirst _ => TwoFA
  | codesUnused _ => List TwoFABackupCode
  | passkeyFirst _ => PasskeyCredential
  | _ => Unit

/-- The answer of an operation, or its error. -/
abbrev Res (o : DBOp) : Type := Except Err o.Ans

def isRead : DBOp → Bool
  | userFirst _ _ | userLast | userFind _ _ | userPage _ _ _ => true
  | twoFAFirst _ | codesUnused _ | passkeyFirst _ => true
  | _ => false

/-- The operations that can change `users`. -/
def writesUsers : DBOp → Bool
  | userCreate _ | userUpdates _ _ | userSave _ | userHardDelete _ => true
  | _ => false

end DBOp

/-- Programs over the database. -/
abbrev M : Type → Type := Prog DBOp DBOp.Res

/-- One operation. -/
def perform (o : DBOp) : M (Except Err o.Ans) := Prog.perform o

/-! ### What an operation does -/

/-- What the driver says when a unique index is violated. -/
def uniqueViolation : Err := .new "UNIQUE constraint failed"

def found {R : Type} : Option R → Except Err R
  | some r => .ok r
  | none => .error .recordNotFound

/-- Rows of one page: no limit and no offset when they are negative. -/
def page {R : Type} (limit offset : Int) (rows : List R) : List R :=
  let rows := rows.drop offset.toNat
  if limit < 0 then rows else rows.take limit.toNat

/-- The rows a query sees. -/
def seen (unscoped : Bool) (p : User → Bool) (u : User) : Bool := (unscoped || u.live) && p u

namespace DB

/-- Store a table that a write may have been refused for. -/
def written {R A : Type} [Row R] (db : DB) (set : Table R → DB) (a : A) :
    Option (Table R) → Except Err A × DB
  | some t => (.ok a, set t)
  | none => (.error uniqueViolation, db)

def setUsers (db : DB) (t : Table User) : DB := { db with users := t }

def setTwoFAs (db : DB) (t : Table TwoFA) : DB := { db with twoFAs := t }

def setBackupCodes (db : DB) (t : Table TwoFABackupCode) : DB := { db with backupCodes := t }

def setPasskeys (db : DB) (t : Table PasskeyCredential) : DB := { db with passkeys := t }

/-- Drop the user's codes (a soft delete) and add the new ones. -/
def replaceCodes (t : Table TwoFABackupCode) (userId : Int) (hashes : List String) (now : Int) :
    Option (Table TwoFABackupCode) :=
  hashes.foldl (fun acc h => acc.bind fun t =>
      (t.create { userId := userId, codeHash := h }).map Prod.snd)
    (t.update (fun c => c.live && c.userId == userId) fun c => { c with deletedAt := some now })

end DB

open DB in
/-- **The effect and the answer of one operation.** -/
def exec : (o : DBOp) → DB → Except Err o.Ans × DB
  | .userFirst unscoped p, db => (found (db.users.find? (seen unscoped p)), db)
  | .userLast, db => (found db.users.rows.getLast?, db)
  | .userFind unscoped p, db =>
    (.ok (if (db.users.find? (seen unscoped p)).isSome then (1 : Int) else (0 : Int)), db)
  | .userPage p limit offset, db =>
    (.ok (page limit offset (db.users.select p).reverse, (db.users.select p).length), db)
  | .userCreate u, db =>
    match db.users.create u.withDefaults with
    | some (row, t) => (.ok row, db.setUsers t)
    | none => (.error uniqueViolation, db)
  | .userUpdates p f, db =>
    db.written db.setUsers () (db.users.update (fun u => u.live && p u) f)
  | .userSave u, db => db.written db.setUsers () (db.users.put u)
  | .userHardDelete id, db => (.ok (), db.setUsers (db.users.delete fun u => u.id == id))
  | .twoFAFirst userId, db =>
    (found (db.twoFAs.find? fun t => t.live && t.userId == userId), db)
  | .twoFACreate t, db => db.written db.setTwoFAs () ((db.twoFAs.create t).map Prod.snd)
  | .twoFASave t, db => db.written db.setTwoFAs () (db.twoFAs.put t)
  | .twoFADelete t, db =>
    (.ok (), (db.setBackupCodes (db.backupCodes.delete fun c => c.userId == t.userId)).setTwoFAs
      (db.twoFAs.delete fun x => x.id == t.id))
  | .codesUnused userId, db =>
    (.ok (db.backupCodes.select fun c => c.live && c.userId == userId && !c.isUsed), db)
  | .codeSave c, db => db.written db.setBackupCodes () (db.backupCodes.put c)
  | .codesReplace userId hashes now, db =>
    db.written db.setBackupCodes () (replaceCodes db.backupCodes userId hashes now)
  | .passkeyFirst p, db => (found (db.passkeys.find? fun c => c.live && p c), db)
  | .passkeyUpsert c, db =>
    db.written db.setPasskeys ()
      (((db.passkeys.delete fun x => x.userID == c.userID).create c).map Prod.snd)
  | .passkeyDelete userId, db =>
    (.ok (), db.setPasskeys (db.passkeys.delete fun x => x.userID == userId))

/-- A read leaves the database as it is. -/
theorem exec_read {o : DBOp} (h : o.isRead = true) (db : DB) : (exec o db).2 = db := by
  cases o <;> first | rfl | exact absurd h Bool.false_ne_true

theorem written_users {R A : Type} [Row R] {db : DB} {set : Table R → DB} {a : A}
    {t : Option (Table R)} (hset : ∀ t, (set t).users = db.users) :
    (db.written set a t).2.users = db.users := by
  cases t with
  | none => rfl
  | some t => exact hset t

theorem exec_users {o : DBOp} (h : o.writesUsers = false) (db : DB) :
    (exec o db).2.users = db.users := by
  cases o <;> first | rfl | exact written_users fun _ => rfl | exact absurd h (show true ≠ false by decide)

/-- One operation and what follows, on a database in order. -/
theorem run_perform_bind {β : Type} (o : DBOp) (f : Except Err o.Ans → M β) (db : DB) :
    (perform o >>= f).run exec db = (f (exec o db).1).run exec (exec o db).2 := rfl

/-! ### Outages -/

/-- A database whose driver may fail: `outages n` is what it says to the `n`-th
operation from here on, if that one fails. -/
structure Store where
  db : DB
  outages : Nat → Option Err

namespace Store

/-- The driver works throughout. -/
def ofDB (db : DB) : Store := ⟨db, fun _ => none⟩

/-- `exec`, unless the driver fails an operation that may fail. -/
def exec (mayFail : DBOp → Bool) (o : DBOp) (s : Store) : Except Err o.Ans × Store :=
  match (s.outages 0).filter fun _ => mayFail o with
  | some e => (.error e, ⟨s.db, fun n => s.outages (n + 1)⟩)
  | none => ((Model.exec o s.db).1, ⟨(Model.exec o s.db).2, fun n => s.outages (n + 1)⟩)

end Store

/-- The store once an operation has gone by that left the database alone. -/
def Store.rest (s : Store) : Store := ⟨s.db, fun n => s.outages (n + 1)⟩

theorem Store.exec_up {mayFail : DBOp → Bool} {s : Store} (h : s.outages 0 = none) (o : DBOp) :
    s.exec mayFail o
      = ((Model.exec o s.db).1, ⟨(Model.exec o s.db).2, fun n => s.outages (n + 1)⟩) := by
  unfold Store.exec
  rw [h]
  rfl

theorem Store.exec_read_up {mayFail : DBOp → Bool} {s : Store} (h : s.outages 0 = none) {o : DBOp}
    (ho : o.isRead = true) : s.exec mayFail o = ((Model.exec o s.db).1, s.rest) := by
  rw [Store.exec_up h, exec_read ho]
  rfl

theorem Store.exec_down {mayFail : DBOp → Bool} {s : Store} {e : Err} (h : s.outages 0 = some e)
    {o : DBOp} (ho : mayFail o = true) : s.exec mayFail o = (.error e, s.rest) := by
  unfold Store.exec
  rw [h, Option.filter_some, if_pos ho]
  rfl

/-- A request served on a store. -/
def serve {α : Type} (p : M α) (s : Store) : α × Store := p.run (Store.exec fun _ => true) s

@[simp] theorem serve_pure {α : Type} (a : α) (s : Store) : serve (pure a) s = (a, s) := rfl

theorem serve_bind {α β : Type} (p : M α) (f : α → M β) (s : Store) :
    serve (p >>= f) s = serve (f (serve p s).1) (serve p s).2 := Prog.run_bind _ p f s

theorem serve_perform {β : Type} (o : DBOp) (f : Except Err o.Ans → M β) (s : Store) :
    serve (perform o >>= f) s
      = serve (f (s.exec (fun _ => true) o).1) (s.exec (fun _ => true) o).2 := rfl

/-- On a database in order, serving is running. -/
theorem serve_ofDB {α : Type} (p : M α) (db : DB) :
    serve p (Store.ofDB db) = ((p.run exec db).1, Store.ofDB (p.run exec db).2) := by
  induction p generalizing db with
  | ret a => rfl
  | call o k ih =>
    have hexec : (Store.ofDB db).exec (fun _ => true) o
        = ((exec o db).1, Store.ofDB (exec o db).2) := Store.exec_up rfl o
    have hcall : serve (Prog.call o k) (Store.ofDB db)
        = serve (k ((Store.ofDB db).exec (fun _ => true) o).1)
            ((Store.ofDB db).exec (fun _ => true) o).2 := rfl
    rw [hcall, hexec, ih, Prog.run_call]

/-! ### Postconditions under failures -/

/-- An operation does what it does, or fails without an effect. -/
def May (o : DBOp) (db : DB) (r : Except Err o.Ans) (db' : DB) : Prop :=
  (r = (exec o db).1 ∧ db' = (exec o db).2) ∨ ((∃ e, r = .error e) ∧ db' = db)

/-- Whichever operations fail, `p` ends in `Q`. -/
abbrev Sat {α : Type} (p : M α) (Q : α → DB → Prop) (db : DB) : Prop := Prog.Holds May Q p db

theorem may_exec (o : DBOp) (db : DB) : May o db (exec o db).1 (exec o db).2 :=
  Or.inl ⟨rfl, rfl⟩

theorem may_storeExec (mayFail : DBOp → Bool) (o : DBOp) (s : Store) :
    May o s.db (s.exec mayFail o).1 (s.exec mayFail o).2.db := by
  unfold Store.exec
  split
  · rename_i e _
    exact Or.inr ⟨⟨e, rfl⟩, rfl⟩
  · exact Or.inl ⟨rfl, rfl⟩

/-- A read answers what the database holds, or fails. -/
theorem May.read {o : DBOp} (ho : o.isRead = true) {db db' : DB} {r : Except Err o.Ans}
    (h : May o db r db') : db' = db ∧ (r = (exec o db).1 ∨ ∃ e, r = .error e) := by
  rcases h with ⟨hr, hdb⟩ | ⟨hr, hdb⟩
  · exact ⟨hdb.trans (exec_read ho db), Or.inl hr⟩
  · exact ⟨hdb, Or.inr hr⟩

theorem found_cases {R : Type} (x : Option R) :
    (∃ r, x = some r ∧ found x = .ok r) ∨ x = none ∧ found x = .error .recordNotFound := by
  cases x with
  | none => exact Or.inr ⟨rfl, rfl⟩
  | some r => exact Or.inl ⟨r, rfl, rfl⟩

/-- What the answer of a lookup says: the row is there, or nothing is learnt. -/
def Looked {R : Type} [Row R] (t : Table R) (p : R → Bool) (r : Except Err R) : Prop :=
  (∃ row ∈ t, p row = true ∧ t.find? p = some row ∧ r = .ok row) ∨ ∃ e, r = .error e

theorem looked_found {R : Type} [Row R] (t : Table R) (p : R → Bool) :
    Looked t p (found (t.find? p)) := by
  rcases found_cases (t.find? p) with ⟨row, hfind, hr⟩ | ⟨-, hr⟩
  · exact Or.inl ⟨row, Table.find?_mem hfind, Table.find?_holds hfind, hfind, hr⟩
  · exact Or.inr ⟨_, hr⟩

theorem May.userFirst {unscoped : Bool} {p : User → Bool} {db db' : DB} {r : Except Err User}
    (h : May (.userFirst unscoped p) db r db') :
    db' = db ∧ Looked db.users (seen unscoped p) r := by
  obtain ⟨hdb, hr | hr⟩ := h.read rfl
  · exact ⟨hdb, by rw [hr]; exact looked_found _ _⟩
  · exact ⟨hdb, Or.inr hr⟩

theorem May.twoFAFirst {userId : Int} {db db' : DB} {r : Except Err TwoFA}
    (h : May (.twoFAFirst userId) db r db') :
    db' = db ∧ Looked db.twoFAs (fun t => t.live && t.userId == userId) r := by
  obtain ⟨hdb, hr | hr⟩ := h.read rfl
  · exact ⟨hdb, by rw [hr]; exact looked_found _ _⟩
  · exact ⟨hdb, Or.inr hr⟩

theorem May.passkeyFirst {p : PasskeyCredential → Bool} {db db' : DB}
    {r : Except Err PasskeyCredential} (h : May (.passkeyFirst p) db r db') :
    db' = db ∧ Looked db.passkeys (fun c => c.live && p c) r := by
  obtain ⟨hdb, hr | hr⟩ := h.read rfl
  · exact ⟨hdb, by rw [hr]; exact looked_found _ _⟩
  · exact ⟨hdb, Or.inr hr⟩

/-- An operation on another table leaves `users` alone. -/
theorem May.users {o : DBOp} {db db' : DB} {r : Except Err o.Ans}
    (ho : o.writesUsers = false) (h : May o db r db') : db'.users = db.users := by
  rcases h with ⟨-, rfl⟩ | ⟨-, rfl⟩
  · exact exec_users ho db
  · rfl

/-- On a database in order, `p` ends in `Q`. -/
def Ends {α : Type} (p : M α) (Q : α → DB → Prop) (db : DB) : Prop :=
  Q (p.run exec db).1 (p.run exec db).2

theorem Ends.pure {α : Type} {a : α} {Q : α → DB → Prop} {db : DB} (h : Q a db) :
    Ends (Pure.pure a) Q db := h

theorem Ends.bind {α β : Type} {p : M α} {f : α → M β} {R : α → DB → Prop} {Q : β → DB → Prop}
    {db : DB} (h : Ends p R db) (hf : ∀ a db', R a db' → Ends (f a) Q db') : Ends (p >>= f) Q db := by
  unfold Ends
  rw [Prog.run_bind]
  exact hf _ _ h

theorem Ends.mono {α : Type} {p : M α} {Q Q' : α → DB → Prop} {db : DB} (h : Ends p Q db)
    (hQ : ∀ a db', Q a db' → Q' a db') : Ends p Q' db := hQ _ _ h

/-- One operation and what follows. -/
theorem Ends.perform {β : Type} {o : DBOp} {f : Except Err o.Ans → M β} {Q : β → DB → Prop}
    {db : DB} (h : Ends (f (exec o db).1) Q (exec o db).2) : Ends (perform o >>= f) Q db := h

theorem Sat.run {α : Type} {p : M α} {Q : α → DB → Prop} {db : DB} (h : Sat p Q db) :
    Q (p.run exec db).1 (p.run exec db).2 :=
  Prog.Holds.run id may_exec h

theorem Sat.serve {α : Type} {p : M α} {Q : α → DB → Prop} {s : Store} (h : Sat p Q s.db) :
    Q (serve p s).1 (serve p s).2.db :=
  Prog.Holds.run Store.db (may_storeExec _) h

theorem Sat.bind {α β : Type} {p : M α} {f : α → M β} {R : α → DB → Prop} {Q : β → DB → Prop}
    {db : DB} (h : Sat p R db) (hf : ∀ a db', R a db' → Sat (f a) Q db') : Sat (p >>= f) Q db :=
  Prog.Holds.bind h hf

theorem Sat.ends {α : Type} {p : M α} {Q : α → DB → Prop} {db : DB} (h : Sat p Q db) :
    Ends p Q db := h.run

/-- One operation and what follows. -/
theorem Sat.perform {β : Type} {o : DBOp} {f : Except Err o.Ans → M β} {Q : β → DB → Prop}
    {db : DB} (h : ∀ r db', May o db r db' → Sat (f r) Q db') : Sat (perform o >>= f) Q db :=
  Prog.Holds.perform_bind h

theorem Sat.pure {α : Type} {a : α} {Q : α → DB → Prop} {db : DB} (h : Q a db) :
    Sat (Pure.pure a) Q db := Prog.Holds.pure h

/-! ### Postconditions when writes succeed -/

/-- An operation does what it does, or, if it is a read, fails. -/
def MayRead (o : DBOp) (db : DB) (r : Except Err o.Ans) (db' : DB) : Prop :=
  (r = (exec o db).1 ∧ db' = (exec o db).2) ∨
    (o.isRead = true ∧ (∃ e, r = .error e) ∧ db' = db)

/-- Whichever reads fail, `p` ends in `Q`. -/
abbrev Steady {α : Type} (p : M α) (Q : α → DB → Prop) (db : DB) : Prop := Prog.Holds MayRead Q p db

theorem MayRead.may {o : DBOp} {db db' : DB} {r : Except Err o.Ans} (h : MayRead o db r db') :
    May o db r db' := by
  rcases h with h | ⟨-, h⟩
  · exact Or.inl h
  · exact Or.inr h

theorem MayRead.write {o : DBOp} (ho : o.isRead = false) {db db' : DB} {r : Except Err o.Ans}
    (h : MayRead o db r db') : r = (exec o db).1 ∧ db' = (exec o db).2 := by
  rcases h with h | ⟨hread, -⟩
  · exact h
  · rw [ho] at hread
    exact absurd hread Bool.false_ne_true

theorem Sat.steady {α : Type} {p : M α} {Q : α → DB → Prop} {db : DB} (h : Sat p Q db) :
    Steady p Q db := h.restrict fun _ _ _ _ hmay => hmay.may

theorem Steady.pure {α : Type} {a : α} {Q : α → DB → Prop} {db : DB} (h : Q a db) :
    Steady (Pure.pure a) Q db := Prog.Holds.pure h

theorem Steady.bind {α β : Type} {p : M α} {f : α → M β} {R : α → DB → Prop} {Q : β → DB → Prop}
    {db : DB} (h : Steady p R db) (hf : ∀ a db', R a db' → Steady (f a) Q db') :
    Steady (p >>= f) Q db := Prog.Holds.bind h hf

/-- A write and what follows. -/
theorem Steady.write {β : Type} {o : DBOp} (ho : o.isRead = false) {f : Except Err o.Ans → M β}
    {Q : β → DB → Prop} {db : DB} (h : Steady (f (exec o db).1) Q (exec o db).2) :
    Steady (perform o >>= f) Q db := by
  refine Prog.Holds.perform_bind fun r db' hmay => ?_
  obtain ⟨rfl, rfl⟩ := hmay.write ho
  exact h

theorem Steady.run {α : Type} {p : M α} {Q : α → DB → Prop} {s : Store} (h : Steady p Q s.db) :
    Q (p.run (Store.exec DBOp.isRead) s).1 (p.run (Store.exec DBOp.isRead) s).2.db := by
  refine Prog.Holds.run Store.db ?_ h
  intro o s
  unfold Store.exec
  split
  · rename_i e he
    exact Or.inr ⟨(Option.filter_eq_some_iff.mp he).2, ⟨e, rfl⟩, rfl⟩
  · exact Or.inl ⟨rfl, rfl⟩

/-- One operation of the footprint and what follows. -/
theorem only_perform {β : Type} {P : DBOp → Prop} {o : DBOp} {f : Except Err o.Ans → M β}
    (h : P o) (hf : ∀ r, Prog.Only P (f r)) : Prog.Only P (perform o >>= f) :=
  Prog.Only.perform_bind h hf

/-- A program that only reads. -/
abbrev ReadOnly {α : Type} (p : M α) : Prop := Prog.Only (fun o => o.isRead = true) p

theorem ReadOnly.sat {α : Type} {p : M α} (h : ReadOnly p) (db : DB) :
    Sat p (fun _ db' => db' = db) db := by
  have hkeep : ∀ o db₁ r db₂, o.isRead = true → May o db₁ r db₂ → db₁ = db → db₂ = db :=
    fun _ _ _ _ ho hmay hs => (hmay.read ho).1.trans hs
  exact h.keeps hkeep rfl

/-- What reading leaves of a store is its database. -/
theorem ReadOnly.serve {α : Type} {p : M α} (h : ReadOnly p) (s : Store) :
    (serve p s).2.db = s.db := (h.sat s.db).serve

/-- A program that leaves `users` alone. -/
abbrev SparesUsers {α : Type} (p : M α) : Prop := Prog.Only (fun o => o.writesUsers = false) p

theorem SparesUsers.sat {α : Type} {p : M α} (h : SparesUsers p) (db : DB) :
    Sat p (fun _ db' => db'.users = db.users) db := by
  have hkeep : ∀ o (db₁ : DB) r (db₂ : DB), o.writesUsers = false → May o db₁ r db₂ →
      db₁.users = db.users → db₂.users = db.users :=
    fun _ _ _ _ ho hmay hs => (hmay.users ho).trans hs
  exact h.keeps hkeep rfl

end AuthGateway.Model
