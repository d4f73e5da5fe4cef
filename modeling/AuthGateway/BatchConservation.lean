import AuthGateway.Lib.Holdings
import AuthGateway.Model.User
import AuthGateway.Model.Utils

/-!
# The batch updater loses nothing

Calls of `addNewRecord` and runs of `batchUpdate` go side by side.  A delta is in
its store until a batch swaps the store out, then in the hands of that batch, and
at last in the database: what is stored, pending and in flight is what was stored
at first and has been recorded since (`Balance`).

* `InFlight`: the entries that a batch has taken and not yet written.
* `Lands`: a write of a delta for this column and id is not failed by the database.

An entry whose write fails is in none of the three places any more: the error is
logged and the delta is gone (`delta_lost`).  **When the writes land, nothing is
lost and nothing applied twice** (`conserved_of_lands`).
-/

namespace AuthGateway.BatchConservation

open Common Model Prog Holdings

/-! ### Calls, side by side -/

inductive Call
  | addNewRecord (type_ : BatchUpdateType) (id value : Int)
  | batchUpdate (order : BatchUpdateType → RangeOrder)

def handle : Call → BatchM Unit
  | .addNewRecord type_ id value => batchPerform (.addNewRecord type_ id value)
  | .batchUpdate order => batchUpdate order

variable {ι : Type}

abbrev Calls (ι : Type) : Type := Prog.Config BatchOp BatchOp.Ans Unit Batcher ι

/-- The calls before their first step; nothing is pending. -/
def start (calls : ι → Call) (database : Store) : Calls ι :=
  ⟨fun i => handle (calls i), ⟨fun _ => ∅, database⟩⟩

/-- The column of the live row with this id. -/
def stored (c : Counter) (id : Int) (db : DB) : Option Int :=
  ((db.users.get? id).filter User.live).map c.get

/-- What an operation records for a column and an id. -/
def delta (c : Counter) (id : Int) : BatchOp → Int
  | .addNewRecord type_ key value => if type_ = c.type_ ∧ key = id then value else 0
  | _ => 0

/-- All deltas that a schedule has recorded. -/
def recorded [DecidableEq ι] (c : Counter) (id : Int) (s₀ : Calls ι) (sched : List ι) : Int :=
  ((playLog batchExec s₀ sched).map fun e => delta c id e.2).sum

/-- Every call that has begun has returned; so no batch is in progress. -/
def Quiet [DecidableEq ι] (s₀ : Calls ι) (sched : List ι) : Prop :=
  ∀ i ∈ sched, ∃ a, (play batchExec s₀ sched).threads i = ret a

/-- **What is stored and pending is what was stored and has been recorded.** -/
def Conserved [DecidableEq ι] (c : Counter) (id : Int) (s₀ : Calls ι) (sched : List ι) : Prop :=
  ∀ x₀, stored c id s₀.store.database.db = some x₀ →
    ∃ x, stored c id (play batchExec s₀ sched).store.database.db = some x ∧
      x + (play batchExec s₀ sched).store.pending c.type_ id = x₀ + recorded c id s₀ sched

/-- The step does not fail to write a delta for this column and id. -/
def Lands [DecidableEq ι] (c : Counter) (id : Int) (s₀ : Calls ι) (pre : List ι) (i : ι) : Prop :=
  ∀ value k, (play batchExec s₀ pre).threads i = call (.database (c.statement id value)) k →
    value = 0 ∨ (play batchExec s₀ pre).store.database.outages 0 = none

/-! ### Entries -/

/-- What the entries hold for an id. -/
def due (id : Int) (entries : List (Σ _ : Int, Int)) : Int := (entries.lookupAll id).sum

@[simp] theorem due_nil (id : Int) : due id [] = 0 := rfl

theorem due_cons (id : Int) (entry : Σ _ : Int, Int) (rest : List (Σ _ : Int, Int)) :
    due id (entry :: rest) = (if entry.1 = id then entry.2 else 0) + due id rest := by
  unfold due
  by_cases h : entry.1 = id
  · subst h
    rw [if_pos rfl, List.lookupAll_cons_eq, List.sum_cons]
  · have hne : id ≠ entry.1 := fun he => h he.symm
    rw [if_neg h, List.lookupAll_cons_ne _ _ hne, zero_add]

/-- A store, in any order, holds its pending entry. -/
theorem due_of_perm {id : Int} {entries : List (Σ _ : Int, Int)} {store : BatchStore}
    (h : entries.Perm store.entries) : due id entries = (store.lookup id).getD 0 := by
  have hnodup : entries.NodupKeys := (List.perm_nodupKeys h).mpr store.nodupKeys
  have hlookup : entries.dlookup id = store.lookup id := List.perm_dlookup id hnodup h
  rw [due, List.lookupAll_eq_dlookup id hnodup, hlookup]
  cases store.lookup id <;> simp

theorem lookup_addNewRecord (store : BatchStore) (key value id : Int) :
    ((addNewRecord store key value).lookup id).getD 0
      = (store.lookup id).getD 0 + if key = id then value else 0 := by
  unfold addNewRecord
  by_cases h : key = id
  · subst h
    rw [if_pos rfl]
    cases hold : store.lookup key with
    | none => simp
    | some old => simp
  · have hne : id ≠ key := fun he => h he.symm
    rw [if_neg h, add_zero]
    cases store.lookup key with
    | none => rw [AList.lookup_insert_ne hne]
    | some old => rw [AList.lookup_insert_ne hne]

/-! ### The database -/

theorem add_plain (c : Counter) (value : Int) : User.Plain (c.add value) :=
  ⟨c.add_id value, c.add_clash value⟩

/-- The statement of a column writes that column of that row. -/
theorem stored_statement (c c' : Counter) (id key value : Int) (db : DB) :
    stored c id (exec (c'.statement key value) db).2
      = (stored c id db).map fun x => if c' = c ∧ key = id then x + value else x := by
  have hget := (exec_plain (add_plain c' value) (fun u => u.id == key) db).2 id
  unfold stored Counter.statement
  rw [hget]
  cases hrow : db.users.get? id with
  | none => rfl
  | some row =>
    have hid : row.id = id := (Table.get?_eq_some.mp hrow).2
    rw [Option.map_some]
    by_cases hlive : row.live = true
    · by_cases hk : key = id
      · have htouch : Table.touch (fun u => u.live && u.id == key) (c'.add value) row
            = c'.add value row := if_pos (by simp [hlive, hid, hk])
        rw [htouch]
        by_cases hc : c' = c
        · simp [Option.filter, hlive, hk, hc]
        · have hne : c ≠ c' := fun he => hc he.symm
          simp [Option.filter, hlive, hk, hc, Counter.get_add_of_ne hne]
      · have htouch : Table.touch (fun u => u.live && u.id == key) (c'.add value) row = row :=
          if_neg (by simp [hid, Ne.symm hk])
        rw [htouch]
        simp [Option.filter, hlive, hk]
    · have htouch : Table.touch (fun u => u.live && u.id == key) (c'.add value) row = row :=
        if_neg (by simp [hlive])
      rw [htouch]
      simp [Option.filter, hlive]

theorem storeExec_db (o : DBOp) (s : Store) :
    (s.exec (fun _ => true) o).2.db = s.db ∨
      (s.exec (fun _ => true) o).2.db = (exec o s.db).2 := by
  rcases may_storeExec (fun _ => true) o s with ⟨-, h⟩ | ⟨-, h⟩
  · exact Or.inr h
  · exact Or.inl h

/-! ### What a batch has in hand -/

/-- The entries that a batch has taken and not yet written, all of one store. -/
structure InFlight where
  counter : Counter := .quota
  entries : List (Σ _ : Int, Int) := []

/-- What is in flight for a column and an id. -/
def InFlight.amount (c : Counter) (id : Int) (l : InFlight) : Int :=
  if l.counter = c then due id l.entries else 0

theorem amount_empty {c : Counter} {id : Int} {l : InFlight} (h : l.entries = []) :
    l.amount c id = 0 := by
  unfold InFlight.amount
  rw [h]
  simp

/-- What a call may do next, and what it has in hand then. -/
inductive Next : InFlight → Batcher → BatchOp → InFlight → Prop
  | record {l : InFlight} {s : Batcher} {type_ : BatchUpdateType} {id value : Int} :
      Next l s (.addNewRecord type_ id value) l
  | len {l : InFlight} {s : Batcher} {type_ : BatchUpdateType} : Next l s (.len type_) l
  | swap {l : InFlight} {s : Batcher} {c : Counter} {entries : List (Σ _ : Int, Int)}
      (hdone : l.entries = []) (h : entries.Perm (s.stores c.type_).entries) :
      Next l s (.swap c.type_) ⟨c, entries⟩
  /-- Tokens and channels: their writers are stubs. -/
  | drop {l : InFlight} {s : Batcher} {type_ : BatchUpdateType} (h : ∀ c : Counter, c.type_ ≠ type_) :
      Next l s (.swap type_) l
  | write {s : Batcher} {c : Counter} {entry : Σ _ : Int, Int} {rest : List (Σ _ : Int, Int)} :
      Next ⟨c, entry :: rest⟩ s (.database (c.statement entry.1 entry.2)) ⟨c, rest⟩

/-- At its end a call has nothing in hand. -/
abbrev Goes (p : BatchM Unit) (l : InFlight) : Prop :=
  Follows batchExec Next (fun l' _ => l'.entries = []) p l

theorem write_goes (c : Counter) (entry : Σ _ : Int, Int) (rest : List (Σ _ : Int, Int)) :
    Follows batchExec Next (fun l' _ => l' = ⟨c, rest⟩)
      (onDatabase (Batch.write c.type_ entry.1 entry.2)) ⟨c, entry :: rest⟩ := by
  cases c with
  | quota =>
    intro s
    refine ⟨_, .write, ?_⟩
    generalize (batchExec (.database (Counter.quota.statement entry.1 entry.2)) s).1 = answer
    cases answer with
    | ok _ => exact rfl
    | error e => exact rfl
  | usedQuota => exact fun s => ⟨_, .write, rfl⟩
  | requestCount => exact fun s => ⟨_, .write, rfl⟩

theorem writeAll_goes (c : Counter) (entries : List (Σ _ : Int, Int)) :
    Goes (Batch.writeAll c.type_ entries) ⟨c, entries⟩ := by
  induction entries with
  | nil => exact rfl
  | cons entry rest ih =>
    refine (write_goes c entry rest).bind ?_
    rintro - l rfl
    exact ih

theorem writeAll_stub {type_ : BatchUpdateType} (h : ∀ c : Counter, c.type_ ≠ type_)
    (entries : List (Σ _ : Int, Int)) : Batch.writeAll type_ entries = pure () := by
  induction entries with
  | nil => rfl
  | cons entry rest ih =>
    cases type_ with
    | userQuota => exact absurd rfl (h .quota)
    | usedQuota => exact absurd rfl (h .usedQuota)
    | requestCount => exact absurd rfl (h .requestCount)
    | tokenQuota => exact ih
    | channelUsedQuota => exact ih

theorem flush_goes (order : BatchUpdateType → RangeOrder) (types : List BatchUpdateType)
    (l : InFlight) (hl : l.entries = []) : Goes (Batch.flush order types) l := by
  induction types generalizing l with
  | nil => exact hl
  | cons type_ rest ih =>
    intro s
    by_cases htype : ∃ c : Counter, c.type_ = type_
    · obtain ⟨c, rfl⟩ := htype
      refine ⟨_, .swap hl ((order c.type_).perm _), ?_⟩
      exact (writeAll_goes c _).bind fun _ l' hl' => ih l' hl'
    · have hstub : ∀ c : Counter, c.type_ ≠ type_ := fun c hc => htype ⟨c, hc⟩
      refine ⟨_, .drop hstub, ?_⟩
      show Goes (Batch.writeAll type_ _ >>= fun _ => Batch.flush order rest) l
      rw [writeAll_stub hstub]
      exact ih l hl

theorem hasData_goes (types : List BatchUpdateType) (l : InFlight) :
    Follows batchExec Next (fun l' _ => l' = l) (Batch.hasData types) l := by
  induction types with
  | nil => exact rfl
  | cons type_ rest ih =>
    intro s
    refine ⟨l, .len, ?_⟩
    show Follows batchExec Next _
      (if 0 < (batchExec (.len type_) s).1 then pure true else Batch.hasData rest) l
    split
    · exact rfl
    · exact ih

theorem handle_goes (call : Call) : Goes (handle call) {} := by
  cases call with
  | addNewRecord type_ id value => exact fun s => ⟨_, .record, rfl⟩
  | batchUpdate order =>
    refine (hasData_goes _ _).bind ?_
    rintro found l rfl
    cases found with
    | false => exact rfl
    | true => exact flush_goes order _ _ rfl

/-! ### The balance -/

section Balance

variable [DecidableEq ι] {c : Counter} {id : Int} {s₀ : Calls ι} {pre : List ι} {l : ι → InFlight}

/-- **What is stored, pending and in flight is what was stored and has been
recorded.** -/
structure Balance (c : Counter) (id : Int) (s₀ : Calls ι) (pre : List ι) (l : ι → InFlight) :
    Prop where
  idle : ∀ i ∉ pre, (l i).entries = []
  sum : ∀ x₀, stored c id s₀.store.database.db = some x₀ →
    ∃ x, stored c id (play batchExec s₀ pre).store.database.db = some x ∧
      x + (play batchExec s₀ pre).store.pending c.type_ id + held (InFlight.amount c id) l pre
        = x₀ + recorded c id s₀ pre

/-- What one operation adds to the stored value, to the pending entry and to what
the thread has in hand is what it records. -/
theorem next_balance {l l' : InFlight} {s : Batcher} {o : BatchOp} (h : Next l s o l')
    (hlands : ∀ value, o = .database (c.statement id value) →
      value = 0 ∨ s.database.outages 0 = none) {x : Int}
    (hx : stored c id s.database.db = some x) :
    ∃ x', stored c id (batchExec o s).2.database.db = some x' ∧
      x' + (batchExec o s).2.pending c.type_ id + l'.amount c id
        = x + s.pending c.type_ id + l.amount c id + delta c id o := by
  cases h with
  | @record _ _ type_ key value =>
    refine ⟨x, hx, ?_⟩
    by_cases htype : type_ = c.type_
    · subst htype
      have hpending := lookup_addNewRecord (s.stores c.type_) key value id
      simp only [batchExec, Batcher.pending, Function.update_self, delta, true_and]
      rw [hpending]
      omega
    · have hne : c.type_ ≠ type_ := fun he => htype he.symm
      simp [batchExec, Batcher.pending, Function.update_of_ne hne, delta, htype]
  | len => exact ⟨x, hx, by simp [batchExec, delta, Batcher.pending]⟩
  | @swap _ _ c' entries hdone hperm =>
    refine ⟨x, hx, ?_⟩
    rw [amount_empty hdone]
    by_cases hc : c' = c
    · subst hc
      have hdue : due id entries = ((s.stores c'.type_).lookup id).getD 0 := due_of_perm hperm
      simp [batchExec, Batcher.pending, InFlight.amount, delta, hdue]
    · have hne : c.type_ ≠ c'.type_ := fun he => hc (Counter.type_injective he).symm
      simp [batchExec, Batcher.pending, InFlight.amount, delta, hc, Function.update_of_ne hne]
  | @drop _ _ type_ hstub =>
    refine ⟨x, hx, ?_⟩
    have hne : c.type_ ≠ type_ := hstub c
    simp [batchExec, Batcher.pending, delta, Function.update_of_ne hne]
  | @write _ c' entry rest =>
    have hwritten := stored_statement c c' id entry.1 entry.2 s.database.db
    rw [hx, Option.map_some] at hwritten
    have hamount : InFlight.amount c id ⟨c', entry :: rest⟩
        = (if c' = c ∧ entry.1 = id then entry.2 else 0) + InFlight.amount c id ⟨c', rest⟩ := by
      unfold InFlight.amount
      by_cases hc : c' = c
      · simp [hc, due_cons]
      · simp [hc]
    have hrest : (batchExec (.database (c'.statement entry.1 entry.2)) s).2.pending c.type_ id
        = s.pending c.type_ id := rfl
    have hdelta : delta c id (.database (c'.statement entry.1 entry.2)) = 0 := rfl
    rw [hrest, hdelta, hamount]
    by_cases hown : c' = c ∧ entry.1 = id
    · obtain ⟨rfl, rfl⟩ := hown
      rw [if_pos ⟨rfl, rfl⟩] at hwritten ⊢
      rcases hlands entry.2 rfl with hzero | hup
      · refine ⟨x, ?_, by omega⟩
        rcases storeExec_db (c'.statement entry.1 entry.2) s.database with hdb | hdb
        · exact (congrArg (stored c' entry.1) hdb).trans hx
        · rw [hzero, add_zero] at hwritten
          exact (congrArg (stored c' entry.1) hdb).trans (by rw [hzero]; exact hwritten)
      · refine ⟨x + entry.2, ?_, by omega⟩
        have hdb : (batchExec (.database (c'.statement entry.1 entry.2)) s).2.database.db
            = (exec (c'.statement entry.1 entry.2) s.database.db).2 := by
          simp only [batchExec]
          rw [Store.exec_up hup]
        rw [hdb]
        exact hwritten
    · rw [if_neg hown] at hwritten ⊢
      refine ⟨x, ?_, by omega⟩
      rcases storeExec_db (c'.statement entry.1 entry.2) s.database with hdb | hdb
      · exact (congrArg (stored c id) hdb).trans hx
      · exact (congrArg (stored c id) hdb).trans hwritten

theorem balance_step {i : ι} {o : BatchOp} {k : o.Ans → BatchM Unit} {l' : InFlight}
    (hbalance : Balance c id s₀ pre l) (hlands : Lands c id s₀ pre i)
    (hi : (play batchExec s₀ pre).threads i = call o k)
    (hnext : Next (l i) (play batchExec s₀ pre).store o l') :
    Balance c id s₀ (pre ++ [i]) (Function.update l i l') := by
  have hplay : (play batchExec s₀ (pre ++ [i])).store
      = (batchExec o (play batchExec s₀ pre).store).2 := by
    rw [play_append, play_cons, play_nil, step_call batchExec hi]
  have hrecorded : recorded c id s₀ (pre ++ [i]) = recorded c id s₀ pre + delta c id o := by
    unfold recorded
    rw [playLog_snoc, performed_call hi]
    simp
  have hheld : held (InFlight.amount c id) (Function.update l i l') (pre ++ [i])
      = held (InFlight.amount c id) l pre - (l i).amount c id + l'.amount c id :=
    held_snoc (fun h => amount_empty (hbalance.idle i h)) l'
  constructor
  · intro j hj
    obtain ⟨hpre, hne⟩ : j ∉ pre ∧ j ≠ i := by simpa using hj
    rw [Function.update_of_ne hne]
    exact hbalance.idle j hpre
  · intro x₀ hx₀
    obtain ⟨x, hx, hsum⟩ := hbalance.sum x₀ hx₀
    obtain ⟨x', hx', hstep⟩ := next_balance hnext
      (fun value ho => hlands value (fun r => k (ho ▸ r)) (by subst ho; exact hi)) hx
    refine ⟨x', ?_, ?_⟩
    · rw [hplay]
      exact hx'
    · rw [hplay, hrecorded, hheld]
      omega

theorem balance_idle {i : ι} {a : Unit} (hbalance : Balance c id s₀ pre l)
    (hi : (play batchExec s₀ pre).threads i = ret a) : Balance c id s₀ (pre ++ [i]) l := by
  have hsame : play batchExec s₀ (pre ++ [i]) = play batchExec s₀ pre := by
    rw [play_append, play_cons, play_nil, step_ret batchExec hi]
  have hrecorded : recorded c id s₀ (pre ++ [i]) = recorded c id s₀ pre := by
    unfold recorded
    rw [playLog_snoc, performed_ret hi, List.append_nil]
  constructor
  · intro j hj
    apply hbalance.idle
    intro h
    exact hj (List.mem_append_left _ h)
  · intro x₀ hx₀
    rw [hsame, hrecorded, held_idle fun h => amount_empty (hbalance.idle i h)]
    exact hbalance.sum x₀ hx₀

theorem balance_start (calls : ι → Call) (database : Store) :
    Balance c id (start calls database) [] fun _ => {} := by
  constructor
  · intro i _
    rfl
  · intro x₀ hx₀
    refine ⟨x₀, hx₀, ?_⟩
    simp [recorded, Batcher.pending, start, playLog]

end Balance

/-- **Nothing is lost and nothing applied twice** in a run whose writes land. -/
theorem conserved_of_lands {ι : Type} [DecidableEq ι] (calls : ι → Call) (database : Store)
    (c : Counter) (id : Int) {sched : List ι}
    (hlands : Runs.Always (Lands c id (start calls database)) sched)
    (hquiet : Quiet (start calls database) sched) :
    Conserved c id (start calls database) sched := by
  have hstart : ∀ i, Goes ((start calls database).threads i) {} := fun i => handle_goes (calls i)
  obtain ⟨l, hfollows, hbalance⟩ := ghost_run
    (I := Balance c id (start calls database)) hstart (balance_start calls database)
    (fun pre i l a hbalance hi => balance_idle hbalance hi)
    (fun pre i l o k l' hbalance hlands hi hnext => balance_step hbalance hlands hi hnext)
    sched hlands
  intro x₀ hx₀
  obtain ⟨x, hx, hsum⟩ := hbalance.sum x₀ hx₀
  have hheld : held (InFlight.amount c id) l sched = 0 := by
    apply held_eq_zero
    intro i hi
    obtain ⟨a, ha⟩ := hquiet i hi
    have hends := hfollows i
    rw [ha] at hends
    exact amount_empty hends
  rw [hheld, add_zero] at hsum
  exact ⟨x, hx, hsum⟩

/-! ### One delta -/

/-- The entries as they are stored. -/
def inOrder : BatchUpdateType → RangeOrder := fun _ => ⟨fun store => store.entries, fun _ => .refl _⟩

/-- Peggy is given five; a batch runs. -/
def crediting : Bool → Call
  | false => .addNewRecord .userQuota 1 5
  | true => .batchUpdate inOrder

def peggyDB : DB where
  users := Table.single { id := 1, username := "peggy", affCode := "p", quota := 10 }
  twoFAs := Table.empty
  backupCodes := Table.empty
  passkeys := Table.empty

/-- The record, and the whole batch: five stores are swapped and one entry is written. -/
def oneBatch : List Bool := false :: List.replicate 7 true

theorem oneBatch_conserved : Conserved .quota 1 (start crediting (Store.ofDB peggyDB)) oneBatch := by
  refine conserved_of_lands crediting (Store.ofDB peggyDB) .quota 1 ?_ ?_
  · show Runs.Always _ ([] ++ [false] ++ [true] ++ [true] ++ [true] ++ [true] ++ [true] ++ [true]
      ++ [true])
    simp only [Runs.always_snoc]
    refine ⟨⟨⟨⟨⟨⟨⟨⟨Runs.always_nil, ?_⟩, ?_⟩, ?_⟩, ?_⟩, ?_⟩, ?_⟩, ?_⟩, ?_⟩
    all_goals exact fun _ _ _ => Or.inr rfl
  · intro i _
    cases i
    · exact ⟨(), rfl⟩
    · exact ⟨(), rfl⟩

/-- The database is locked while the batch runs. -/
def lockedStore : Store := ⟨peggyDB, fun _ => some (.new "database is locked")⟩

/-- **A delta whose write fails is lost**: it was recorded, it is not stored, and
it is not pending any more. -/
theorem delta_lost : Quiet (start crediting lockedStore) oneBatch ∧
    ¬ Conserved .quota 1 (start crediting lockedStore) oneBatch := by
  constructor
  · intro i _
    cases i
    · exact ⟨(), rfl⟩
    · exact ⟨(), rfl⟩
  · intro h
    obtain ⟨x, hx, hsum⟩ := h 10 rfl
    have hten : x = 10 := (Option.some.inj hx).symm
    have hpending : (play batchExec (start crediting lockedStore) oneBatch).store.pending
        Counter.quota.type_ 1 = 0 := rfl
    have hfive : recorded .quota 1 (start crediting lockedStore) oneBatch = 5 := rfl
    omega

end AuthGateway.BatchConservation
