import Mathlib.Data.List.AList
import AuthGateway.Lib.Threads
import AuthGateway.Model.Store

/-!
# The batch updater

`model/utils.go`: with `BatchUpdateEnabled`, changes of a quota are recorded in
memory, one store for each kind of update, and written to the database by
`batchUpdate`.  Each store has its lock; a `BatchOp` is one critical section, or
one statement of the database, and is atomic.
-/

namespace AuthGateway.Model

open Common Prog

/-! ### The stores -/

inductive BatchUpdateType
  | userQuota
  | tokenQuota
  | usedQuota
  | channelUsedQuota
  | requestCount
deriving DecidableEq

/-- The types in the order of their numbers. -/
def BatchUpdateType.all : List BatchUpdateType :=
  [userQuota, tokenQuota, usedQuota, channelUsedQuota, requestCount]

/-- A `map[int]int`. -/
abbrev BatchStore : Type := AList fun _ : Int => Int

/-- What a `range` over a map goes through: its entries, in some order. -/
structure RangeOrder where
  arrange : BatchStore → List (Σ _ : Int, Int)
  perm : ∀ store, (arrange store).Perm store.entries

/-- The stores, and the database that they are written to. -/
structure Batcher where
  stores : BatchUpdateType → BatchStore
  database : Store

/-- The pending entry of an id, zero when there is none. -/
def Batcher.pending (s : Batcher) (type_ : BatchUpdateType) (id : Int) : Int :=
  ((s.stores type_).lookup id).getD 0

/-! ### The operations -/

inductive BatchOp
  /-- `addNewRecord`, under the lock of the store. -/
  | addNewRecord (type_ : BatchUpdateType) (id value : Int)
  /-- `len(batchUpdateStores[i])`, under its lock. -/
  | len (type_ : BatchUpdateType)
  /-- The store, swapped for an empty one under its lock. -/
  | swap (type_ : BatchUpdateType)
  | database (o : DBOp)

abbrev BatchOp.Ans : BatchOp → Type
  | addNewRecord _ _ _ => Unit
  | len _ => Nat
  | swap _ => BatchStore
  | database o => Except Err o.Ans

def addNewRecord (store : BatchStore) (id value : Int) : BatchStore :=
  match store.lookup id with
  | none => store.insert id value
  | some old => store.insert id (old + value)

def batchExec : (o : BatchOp) → Batcher → o.Ans × Batcher
  | .addNewRecord type_ id value, s =>
    ((), { s with
      stores := Function.update s.stores type_ (addNewRecord (s.stores type_) id value) })
  | .len type_, s => ((s.stores type_).entries.length, s)
  | .swap type_, s => (s.stores type_, { s with stores := Function.update s.stores type_ ∅ })
  | .database o, s =>
    ((s.database.exec (fun _ => true) o).1,
      { s with database := (s.database.exec (fun _ => true) o).2 })

/-- Programs over the stores and the database. -/
abbrev BatchM : Type → Type := Prog BatchOp BatchOp.Ans

/-- One operation. -/
def batchPerform (o : BatchOp) : BatchM o.Ans := Prog.perform o

/-- A program of the database alone. -/
def onDatabase {α : Type} (p : M α) : BatchM α := p.embed BatchOp.database fun _ r => r

/-! ### What is written -/

/-- A column of the user that batches write. -/
inductive Counter
  | quota
  | usedQuota
  | requestCount
deriving DecidableEq

namespace Counter

def type_ : Counter → BatchUpdateType
  | quota => .userQuota
  | usedQuota => .usedQuota
  | requestCount => .requestCount

def get : Counter → User → Int
  | quota, u => u.quota
  | usedQuota, u => u.usedQuota
  | requestCount, u => u.requestCount

/-- `gorm.Expr("… + ?", delta)` on the column. -/
def add : Counter → Int → User → User
  | quota, delta, u => { u with quota := u.quota + delta }
  | usedQuota, delta, u => { u with usedQuota := u.usedQuota + delta }
  | requestCount, delta, u => { u with requestCount := u.requestCount + delta }

/-- `UPDATE users SET … = … + delta WHERE id = ?`. -/
def statement (c : Counter) (id delta : Int) : DBOp :=
  .userUpdates (fun u => u.id == id) (c.add delta)

theorem type_injective {c c' : Counter} (h : c.type_ = c'.type_) : c = c' := by
  cases c <;> cases c' <;> first | rfl | exact nomatch h

@[simp] theorem add_id (c : Counter) (delta : Int) (u : User) : (c.add delta u).id = u.id := by
  cases c <;> rfl

@[simp] theorem add_live (c : Counter) (delta : Int) (u : User) :
    (c.add delta u).live = u.live := by
  cases c <;> rfl

@[simp] theorem add_clash (c : Counter) (delta : Int) (u v : User) :
    (c.add delta u).clash v = u.clash v := by
  cases c <;> rfl

@[simp] theorem get_add_self (c : Counter) (delta : Int) (u : User) :
    c.get (c.add delta u) = c.get u + delta := by
  cases c <;> rfl

theorem get_add_of_ne {c c' : Counter} (h : c' ≠ c) (delta : Int) (u : User) :
    c'.get (c.add delta u) = c'.get u := by
  cases c <;> cases c' <;> first | rfl | exact absurd rfl h

end Counter

namespace Batch

/-- The unexported `increaseUserQuota`, without the check of its callers. -/
def increaseUserQuota (id quota : Int) : M (Option Err) := do
  match ← perform (Counter.quota.statement id quota) with
  | .ok _ => return none
  | .error e => return some e

def updateUserUsedQuota (id quota : Int) : M Unit := do
  let _ ← perform (Counter.usedQuota.statement id quota)
  return ()

def updateUserRequestCount (id count : Int) : M Unit := do
  let _ ← perform (Counter.requestCount.statement id count)
  return ()

/-- A stub: tokens have no quota any more. -/
def increaseTokenQuota (_tokenId _quota : Int) : M (Option Err) := return none

/-- A stub: channels have no quota any more. -/
def updateChannelUsedQuota (_channelId _quota : Int) : M (Option Err) := return none

/-- One entry of a store, by its type; an error is only logged. -/
def write (type_ : BatchUpdateType) (key value : Int) : M Unit :=
  match type_ with
  | .userQuota => do let _ ← increaseUserQuota key value; return ()
  | .tokenQuota => do let _ ← increaseTokenQuota key value; return ()
  | .usedQuota => updateUserUsedQuota key value
  | .requestCount => updateUserRequestCount key value
  | .channelUsedQuota => do let _ ← updateChannelUsedQuota key value; return ()

/-- Whether one of the stores has an entry; the first that has ends the search. -/
def hasData : List BatchUpdateType → BatchM Bool
  | [] => return false
  | type_ :: rest => do
    let n ← batchPerform (.len type_)
    if 0 < n then return true else hasData rest

/-- The entries of one store, written one after the other. -/
def writeAll (type_ : BatchUpdateType) : List (Σ _ : Int, Int) → BatchM Unit
  | [] => return ()
  | entry :: rest => do
    onDatabase (write type_ entry.1 entry.2)
    writeAll type_ rest

def flush (order : BatchUpdateType → RangeOrder) : List BatchUpdateType → BatchM Unit
  | [] => return ()
  | type_ :: rest => do
    let store ← batchPerform (.swap type_)
    writeAll type_ ((order type_).arrange store)
    flush order rest

end Batch

def batchUpdate (order : BatchUpdateType → RangeOrder) : BatchM Unit := do
  let hasData ← Batch.hasData BatchUpdateType.all
  if !hasData then return ()
  Batch.flush order BatchUpdateType.all

end AuthGateway.Model
