import AuthGateway.Controller.Option
import AuthGateway.Lib.Replicas
import AuthGateway.Lib.Threads

/-!
# Processes that share the options

Every process keeps the settings in its memory and, in the loop of `SyncOptions`,
replays the table every now and then.  `UpdateOption` writes the table and the
memory of the one process that serves the request; what the others hold may be
stale, and a round of theirs that began before may write a stale value after.

* `Cluster`: the table and the settings of every process; the threads are one loop
  for each process and one for each request, a statement, or a row, at a time.
* `rounds`: how often a process has gone to sleep, in a log.

**Once the requests are over, a process that goes to sleep twice has the settings of
a process that starts on the table** (`in_step`), whatever it held and however
the rounds of the others lie.
-/

namespace AuthGateway.Replicas

open Common Model Controller Prog Replay

/-! ### The operations of the threads -/

inductive Op (N : Type)
  /-- A statement on the table. -/
  | stmt (o : OptionOp)
  /-- The variables that the validation of a request looks at. -/
  | settings (n : N)
  /-- `updateOptionMap`, under its lock. -/
  | assign (n : N) (key value : String)
  /-- `time.Sleep` of the loop. -/
  | sleep (n : N)

namespace Op

variable {N : Type}

def Res : Op N → Type
  | stmt o => o.Res
  | settings _ => Settings
  | _ => Unit

def isSleep [DecidableEq N] (n : N) : Op N → Bool
  | sleep m => m = n
  | _ => false

end Op

/-- The table, and what every process holds in memory. -/
structure Cluster (N : Type) where
  table : OptionTable
  settings : N → Settings

variable {N : Type} [DecidableEq N]

def exec : (o : Op N) → Cluster N → o.Res × Cluster N
  | .stmt o, c => ((execOption o c.table).1, { c with table := (execOption o c.table).2 })
  | .settings n, c => (c.settings n, c)
  | .assign n key value, c =>
    ((), { c with settings :=
      Function.update c.settings n (updateOptionMap key value (c.settings n)) })
  | .sleep _, c => ((), c)

/-! ### The threads -/

abbrev Thread (N α : Type) : Type := Prog (Op N) Op.Res α

def statements {α : Type} (p : OM α) : Thread N α := p.embed .stmt fun _ answer => answer

def readSettings (n : N) : Thread N Settings := perform (Op.settings n)

/-- The loop of `loadOptionsFromDatabase`. -/
def assignRows (n : N) : List (Σ _ : String, String) → Thread N Unit
  | [] => return ()
  | option :: options => do
    let _ ← perform (.assign n option.1 option.2)
    assignRows n options

def loadOptionsFromDatabase (n : N) : Thread N Unit := do
  match ← statements (performOption .all) with
  | .ok options => assignRows n (show List _ from options)
  | .error _ => return ()

/-- The first rounds of `SyncOptions`. -/
def syncOptions (n : N) : Nat → Thread N Unit
  | 0 => return ()
  | rounds + 1 => do
    let _ ← perform (.sleep n)
    loadOptionsFromDatabase n
    syncOptions n rounds

/-- The handler `UpdateOption` of the process. -/
def updateOption (n : N) (req : Option OptionUpdateRequest) : Thread N Reply := do
  match req with
  | none => return .json 400 false "Invalid parameters" none
  | some option =>
    match checkOption (← readSettings n) option.key option.value.print with
    | some msg => return .failure msg
    | none =>
      statements (storeOption option.key option.value.print)
      let _ ← perform (.assign n option.key option.value.print)
      return .done ""

/-- A request, and the process that serves it. -/
structure Request (N : Type) where
  node : N
  body : Option OptionUpdateRequest

def thread {R : Type} (requests : R → Request N) (rounds : N → Nat) :
    N ⊕ R → Thread N (Option Reply)
  | .inl n => do
    syncOptions n (rounds n)
    return none
  | .inr r => some <$> updateOption (requests r).node (requests r).body

abbrev System (N R : Type) : Type := Prog.Config (Op N) Op.Res (Option Reply) (Cluster N) (N ⊕ R)

/-- The processes have started on the table. -/
def start {R : Type} (requests : R → Request N) (rounds : N → Nat) (table : OptionTable) :
    System N R :=
  ⟨thread requests rounds, ⟨table, fun _ => restarted table.entries⟩⟩

/-- How often the process goes to sleep in a log. -/
def rounds {R : Type} (n : N) (log : List ((N ⊕ R) × Op N)) : Nat :=
  log.countP fun e => e.2.isSleep n

/-! ### Alone -/

section Alone

variable {α : Type}

omit [DecidableEq N] in
theorem statements_bind {β : Type} (p : OM α) (f : α → OM β) :
    (statements (p >>= f) : Thread N β) = statements p >>= fun a => statements (f a) :=
  embed_bind Op.stmt _ p f

/-- **The statements alone** do to the table what they do to that of one process. -/
theorem run_statements (p : OM α) (c : Cluster N) :
    (statements p).run exec c
      = ((p.run execOption c.table).1, { c with table := (p.run execOption c.table).2 }) := by
  have hexec : ∀ (o : OptionOp) (c : Cluster N),
      (exec (.stmt o) c).1 = (execOption o c.table).1 ∧
        (exec (.stmt o) c).2 = { c with table := (execOption o c.table).2 } :=
    fun _ _ => ⟨rfl, rfl⟩
  exact run_embed Op.stmt (fun _ answer => answer) Cluster.table (fun c t => { c with table := t })
    (fun _ _ => rfl) (fun _ => rfl) (fun _ _ _ => rfl) hexec p c

theorem run_assignRows (n : N) (options : List (Σ _ : String, String)) (c : Cluster N) :
    (assignRows n options).run exec c
      = ((), { c with settings :=
          Function.update c.settings n (replay updateOptionMap options (c.settings n)) }) := by
  induction options generalizing c with
  | nil =>
    rw [assignRows, run_pure, replay_nil, Function.update_eq_self]
  | cons option options ih =>
    rw [assignRows, run_bind, run_perform, ih]
    simp only [exec, Function.update_self, Function.update_idem, replay_cons]

/-- **A round alone is the loader of one process.** -/
theorem run_loadOptionsFromDatabase (n : N) (c : Cluster N) {outages : Nat → Option Err}
    (h : ∀ n, outages n = none) :
    ((loadOptionsFromDatabase n).run exec c).2.settings n
      = (Model.loadOptionsFromDatabase ⟨c.settings n, ⟨c.table, outages⟩⟩).settings := by
  have hexec : (OptionStore.mk c.table outages).exec .all
      = (.ok c.table.entries, ⟨c.table, fun n => outages (n + 1)⟩) := by
    unfold OptionStore.exec
    dsimp only
    rw [h 0]
    rfl
  unfold Model.loadOptionsFromDatabase
  rw [performOption, run_perform, hexec, loadOptionsFromDatabase, run_bind, run_statements]
  show ((assignRows n c.table.entries).run exec c).2.settings n = _
  rw [run_assignRows]
  exact Function.update_self _ _ _

/-- **A request alone is the handler of one process.** -/
theorem run_updateOption (n : N) (req : Option OptionUpdateRequest) (c : Cluster N)
    {outages : Nat → Option Err} (h : ∀ n, outages n = none) :
    let alone := Controller.updateOption req ⟨c.settings n, ⟨c.table, outages⟩⟩
    ((updateOption n req).run exec c).1 = alone.1 ∧
      ((updateOption n req).run exec c).2.settings n = alone.2.settings ∧
      ((updateOption n req).run exec c).2.table = alone.2.options.table := by
  unfold updateOption Controller.updateOption
  cases req with
  | none => exact ⟨rfl, rfl, rfl⟩
  | some option =>
    have hread : (readSettings n).run exec c = (c.settings n, c) := rfl
    dsimp only
    rw [run_bind, hread]
    dsimp only
    cases checkOption (c.settings n) option.key option.value.print with
    | some msg => exact ⟨rfl, rfl, rfl⟩
    | none =>
      dsimp only
      rw [run_bind, run_statements, run_bind, run_perform]
      obtain ⟨-, htable, -⟩ :=
        OptionStore.run_up (storeOption option.key option.value.print) (s := ⟨c.table, outages⟩) h
      exact ⟨rfl, Function.update_self _ _ _, htable.symm⟩

end Alone

/-! ### What the statements do to the table -/

/-- A statement writes a row, or none. -/
theorem execOption_table (o : OptionOp) (t : OptionTable) :
    (execOption o t).2 = t ∨ ∃ key value, (execOption o t).2 = t.insert key value := by
  cases o with
  | create option =>
    by_cases h : option.key ∈ t
    · exact Or.inl (by rw [execOption, if_pos h])
    · exact Or.inr ⟨option.key, option.value, by rw [execOption, if_neg h]⟩
  | update option =>
    by_cases h : option.key ∈ t
    · exact Or.inr ⟨option.key, option.value, by rw [execOption, if_pos h]⟩
    · exact Or.inl (by rw [execOption, if_neg h])
  | upsert option => exact Or.inr ⟨option.key, option.value, rfl⟩
  | _ => exact Or.inl rfl

/-- No row is lost. -/
theorem mem_execOption (o : OptionOp) {t : OptionTable} {key : String} (h : key ∈ t) :
    key ∈ (execOption o t).2 := by
  rcases execOption_table o t with he | ⟨key', value, he⟩
  · rw [he]
    exact h
  · rw [he, AList.mem_insert]
    exact Or.inr h

/-! ### The stages of a thread -/

/-- Where a thread is, and the keys that it may assign. -/
inductive Stage (N : Type)
  /-- The loop is about to read the table. -/
  | awake (n : N)
  /-- The loop has these rows left to assign. -/
  | writing (n : N) (options : List (Σ _ : String, String))
  /-- A request, and the keys that it has stored. -/
  | serving (n : N) (stored : List String)

namespace Stage

variable {N : Type}

/-- The keys that the thread knows to be in the table. -/
def keys : Stage N → List String
  | awake _ => []
  | writing _ options => options.keys
  | serving _ stored => stored

/-- The stage is one of the loop of the process. -/
def LoopOf (n : N) : Stage N → Prop
  | awake m => m = n
  | writing m _ => m = n
  | serving _ _ => False

end Stage

/-- The steps of a thread. -/
inductive Next : Stage N → Cluster N → Op N → Stage N → Prop
  | sleep (n c) : Next (.writing n []) c (.sleep n) (.awake n)
  | read (n c) : Next (.awake n) c (.stmt .all) (.writing n c.table.entries)
  | row (n key value options c) :
      Next (.writing n (⟨key, value⟩ :: options)) c (.assign n key value) (.writing n options)
  | look (n stored c) : Next (.serving n stored) c (.settings n) (.serving n stored)
  | stmt (n stored o c) : Next (.serving n stored) c (.stmt o) (.serving n stored)
  | store (n stored key o c) (h : key ∈ (execOption o c.table).2) :
      Next (.serving n stored) c (.stmt o) (.serving n (key :: stored))
  | assign (n stored key value c) (h : key ∈ stored) :
      Next (.serving n stored) c (.assign n key value) (.serving n stored)

abbrev Goes {α : Type} (fin : Stage N → α → Prop) (p : Thread N α) (l : Stage N) : Prop :=
  Follows exec Next fin p l

/-! ### The loop -/

theorem assignRows_goes (n : N) (options : List (Σ _ : String, String)) :
    Goes (fun l _ => l = .writing n []) (assignRows n options) (.writing n options) := by
  induction options with
  | nil => exact Follows.pure rfl
  | cons option options ih => exact .perform_bind fun c => ⟨_, .row n _ _ options c, ih⟩

theorem syncOptions_goes (n : N) (k : Nat) :
    Goes (fun l _ => l = .writing n []) (syncOptions n k) (.writing n []) := by
  induction k with
  | zero => exact Follows.pure rfl
  | succ k ih =>
    refine .perform_bind fun c => ⟨_, .sleep n c, ?_⟩
    have hload : Goes (fun l _ => l = .writing n []) (loadOptionsFromDatabase n) (.awake n) :=
      fun c => ⟨_, .read n c, assignRows_goes n c.table.entries⟩
    refine hload.bind ?_
    rintro - l rfl
    exact ih

/-! ### A request -/

/-- Statements that store nothing the thread relies on. -/
theorem statements_goes {α : Type} (p : OM α) (n : N) (stored : List String) :
    Goes (fun l _ => l = .serving n stored) (statements p) (.serving n stored) := by
  induction p with
  | ret a => exact Follows.pure rfl
  | call o k ih => exact fun c => ⟨_, .stmt n stored o c, ih _⟩

/-- The row of a non-empty key is in the table when `FirstOrCreate` is over. -/
theorem firstOrCreate_goes (n : N) {key : String} (hkey : key ≠ "") :
    Goes (fun l _ => l = .serving n [key]) (statements (firstOrCreate key)) (.serving n []) := by
  have hcreate : Goes (fun l (_ : OptionRow) => l = .serving n [key])
      (statements do
        let _ ← performOption (.create { key := key })
        return { key := key }) (.serving n []) := by
    intro c
    refine ⟨_, .store n [] key _ c ?_, Follows.pure rfl⟩
    by_cases h : key ∈ c.table
    · exact mem_execOption _ h
    · rw [execOption, if_neg h, AList.mem_insert]
      exact Or.inl rfl
  intro c
  by_cases h : key ∈ c.table
  · refine ⟨_, .store n [] key _ c (mem_execOption _ h), ?_⟩
    obtain ⟨value, hvalue⟩ := Option.isSome_iff_exists.mp (AList.lookup_isSome.mpr h)
    simp only [exec, execOption, if_neg hkey, Option.bind_some, hvalue, Option.map_some]
    exact Follows.pure rfl
  · refine ⟨_, .stmt n [] _ c, ?_⟩
    simp only [exec, execOption, if_neg hkey, Option.bind_some, AList.lookup_eq_none.mpr h,
      Option.map_none]
    exact hcreate

theorem storeOption_goes (n : N) {key : String} (hkey : key ≠ "") (value : String) :
    Goes (fun l _ => l = .serving n [key]) (statements (storeOption key value))
      (.serving n []) := by
  unfold storeOption
  rw [statements_bind]
  refine (firstOrCreate_goes n hkey).bind ?_
  rintro option l rfl
  exact statements_goes _ n [key]

theorem updateOption_goes (n : N) (req : Option OptionUpdateRequest)
    (hkey : ∀ option, req = some option → option.key ≠ "") :
    Goes (fun l _ => ∃ stored, l = .serving n stored) (updateOption n req) (.serving n []) := by
  unfold updateOption
  cases req with
  | none => exact Follows.pure ⟨[], rfl⟩
  | some option =>
    refine .perform_bind fun c => ⟨_, .look n [] c, ?_⟩
    cases checkOption (exec (.settings n) c).1 option.key option.value.print with
    | some msg => exact Follows.pure ⟨[], rfl⟩
    | none =>
      refine (storeOption_goes n (hkey option rfl) _).bind ?_
      rintro - l rfl
      refine .perform_bind fun c => ⟨_, .assign n [option.key] option.key _ c ?_, ?_⟩
      · exact List.mem_singleton.mpr rfl
      · exact Follows.pure ⟨[option.key], rfl⟩

/-! ### All processes, at any time -/

variable {R : Type} [DecidableEq R]

/-- A process differs from one that starts only in what the table holds. -/
def IsReplica (t : OptionTable) (s : Settings) : Prop :=
  Replica updateOptionMap (freshOptionMap Settings.default) t.entries s

/-- What holds after every schedule. -/
structure Inv (c : Cluster N) (l : N ⊕ R → Stage N) : Prop where
  replicas : ∀ n, IsReplica c.table (c.settings n)
  keys : ∀ i, ∀ key ∈ (l i).keys, key ∈ c.table
  loops : ∀ n, (l (.inl n)).LoopOf n

section Invariant

variable {c : Cluster N} {l : N ⊕ R → Stage N}

theorem isReplica_exec {t : OptionTable} {s : Settings} (h : IsReplica t s) (o : OptionOp) :
    IsReplica (execOption o t).2 s := by
  rcases execOption_table o t with he | ⟨key, value, he⟩
  · rw [he]
    exact h
  · rw [he]
    exact h.insert overwrites key value

theorem isReplica_assign {t : OptionTable} {s : Settings} (h : IsReplica t s) {key : String}
    (hkey : key ∈ t) (value : String) : IsReplica t (updateOptionMap key value s) :=
  h.put_mem overwrites t.nodupKeys (AList.mem_keys.mp hkey) value

omit [DecidableEq R] in
/-- An assignment of one process, of a key that the table holds. -/
theorem Inv.assign (h : Inv c l) {key : String} (hkey : key ∈ c.table) (n : N) (value : String) :
    Inv (exec (.assign n key value) c).2 l where
  replicas := by
    intro m
    by_cases hm : m = n
    · rw [hm]
      show IsReplica c.table (Function.update c.settings n _ n)
      rw [Function.update_self]
      exact isReplica_assign (h.replicas n) hkey value
    · show IsReplica c.table (Function.update c.settings n _ m)
      rw [Function.update_of_ne hm]
      exact h.replicas m
  keys := h.keys
  loops := h.loops

omit [DecidableEq R] in
theorem Inv.stmt (h : Inv c l) (o : OptionOp) : Inv (exec (.stmt o) c).2 l where
  replicas n := isReplica_exec (h.replicas n) o
  keys i key hkey := mem_execOption o (h.keys i key hkey)
  loops := h.loops

/-- The thread is in another stage. -/
theorem Inv.update (h : Inv c l) {i : N ⊕ R} {l' : Stage N}
    (hkeys : ∀ key ∈ l'.keys, key ∈ c.table)
    (hloop : ∀ n, (l i).LoopOf n → l'.LoopOf n) : Inv c (Function.update l i l') where
  replicas := h.replicas
  keys := by
    intro j key hkey
    by_cases hj : j = i
    · rw [hj, Function.update_self] at hkey
      exact hkeys key hkey
    · rw [Function.update_of_ne hj] at hkey
      exact h.keys j key hkey
  loops := by
    intro n
    by_cases hi : Sum.inl n = i
    · rw [hi, Function.update_self]
      exact hloop n (hi ▸ h.loops n)
    · rw [Function.update_of_ne hi]
      exact h.loops n

/-- **A step of any thread.** -/
theorem Inv.next (h : Inv c l) {i : N ⊕ R} {o : Op N} {l' : Stage N} (hnext : Next (l i) c o l') :
    Inv (exec o c).2 (Function.update l i l') := by
  have hkeys := h.keys i
  generalize hl : l i = stage at hnext hkeys
  have hstage : ∀ {l'' : Stage N}, (∀ n, stage.LoopOf n → l''.LoopOf n) →
      ∀ n, (l i).LoopOf n → l''.LoopOf n := by
    intro l'' hloop n hn
    exact hloop n (hl ▸ hn)
  cases hnext with
  | sleep n c => exact h.update (fun key hkey => nomatch hkey) (hstage fun m hm => hm)
  | read n c =>
    refine (h.stmt .all).update (fun key hkey => ?_) (hstage fun m hm => hm)
    exact AList.mem_keys.mpr hkey
  | row n key value options c =>
    have hkey : key ∈ c.table := hkeys key List.mem_cons_self
    refine (h.assign hkey n value).update ?_ (hstage fun m hm => hm)
    exact fun key' (hkey' : key' ∈ options.keys) => hkeys key' (List.mem_cons_of_mem key hkey')
  | look n stored c => exact h.update hkeys (hstage fun m hm => hm)
  | stmt n stored o c =>
    refine (h.stmt o).update ?_ (hstage fun m hm => hm)
    exact fun key hkey => mem_execOption o (hkeys key hkey)
  | store n stored key o c hstored =>
    refine (h.stmt o).update ?_ (hstage fun m hm => hm)
    intro key' (hkey' : key' ∈ key :: stored)
    rcases List.mem_cons.mp hkey' with rfl | hkey'
    · exact hstored
    · exact mem_execOption o (hkeys key' hkey')
  | assign n stored key value c hstored =>
    exact (h.assign (hkeys key hstored) n value).update hkeys (hstage fun m hm => hm)

end Invariant

/-- The stage of a thread before its first step. -/
def stages (requests : R → Request N) : N ⊕ R → Stage N
  | .inl n => .writing n []
  | .inr r => .serving (requests r).node []

/-- No request is made for the empty key. -/
def Keyed (requests : R → Request N) : Prop :=
  ∀ r option, (requests r).body = some option → option.key ≠ ""

omit [DecidableEq R] in
theorem thread_goes {requests : R → Request N} (hkeyed : Keyed requests) (rounds : N → Nat)
    (i : N ⊕ R) : Goes (fun _ _ => True) (thread requests rounds i) (stages requests i) := by
  cases i with
  | inl n => exact (syncOptions_goes n (rounds n)).bind fun _ _ _ => trivial
  | inr r =>
    rw [thread, map_eq_pure_bind]
    exact (updateOption_goes _ _ (hkeyed r)).bind fun _ _ _ => trivial

omit [DecidableEq N] [DecidableEq R] in
theorem inv_start (requests : R → Request N) (rounds : N → Nat) (table : OptionTable) :
    Inv (start requests rounds table).store (stages requests) where
  replicas _ := Replica.replayed overwrites table.nodupKeys _
  keys i key hkey := by cases i <;> exact nomatch hkey
  loops _ := rfl

/-- **After every schedule**, every process is a replica of the table. -/
theorem inv_run {requests : R → Request N} (hkeyed : Keyed requests) (rounds : N → Nat)
    (table : OptionTable) (sched : List (N ⊕ R)) :
    ∃ l, (∀ j, Goes (fun _ _ => True)
        ((play exec (start requests rounds table) sched).threads j) (l j)) ∧
      Inv (play exec (start requests rounds table) sched).store l := by
  refine ghost_run (C := fun _ _ => True)
    (I := fun sched l => Inv (play exec (start requests rounds table) sched).store l)
    (thread_goes hkeyed rounds) (inv_start requests rounds table) ?_ ?_ sched
    fun _ _ _ _ => trivial
  · intro pre i l a hinv hi
    rw [play_append, play_cons, play_nil, step_ret exec hi]
    exact hinv
  · intro pre i l o k l' hinv _ hi hnext
    rw [play_append, play_cons, play_nil, step_call exec hi]
    exact hinv.next hnext

/-! ### When the requests are over -/

/-- The rows that the round has still to write. -/
def Stage.ahead (t : OptionTable) : Stage N → List (Σ _ : String, String)
  | awake _ => t.entries
  | writing _ options => options
  | serving _ _ => []

/-- How far a process is that has gone to sleep `k` times since the table stands:
from the first time on its rounds read this table, and from the second on one of
them has written every row. -/
structure Progress (t : OptionTable) (k : Nat) (l : Stage N) (s : Settings) : Prop where
  rows : 1 ≤ k → ∀ r ∈ t.entries, Settled updateOptionMap r s ∨ r ∈ l.ahead t
  ahead : 1 ≤ k → ∀ r ∈ l.ahead t, r ∈ t.entries
  settled : 2 ≤ k → ∀ r ∈ t.entries, Settled updateOptionMap r s

section Quiet

variable {c : Cluster N} {n : N} {k : Nat} {l l' : Stage N} {o : Op N}

/-- A step of a loop leaves the table. -/
theorem table_next (hloop : l.LoopOf n) (hnext : Next l c o l') :
    (exec o c).2.table = c.table := by
  cases hnext with
  | sleep n c => rfl
  | read n c => rfl
  | row n key value options c => rfl
  | look n stored c => rfl
  | stmt n stored o c => exact hloop.elim
  | store n stored key o c h => exact hloop.elim
  | assign n stored key value c h => rfl

/-- A step of another loop. -/
theorem settings_next (hloop : l.LoopOf n) (hnext : Next l c o l') {m : N} (hm : m ≠ n) :
    (exec o c).2.settings m = c.settings m ∧ o.isSleep m = false := by
  cases hnext with
  | sleep n c =>
    obtain rfl : n = _ := hloop
    exact ⟨rfl, decide_eq_false (Ne.symm hm)⟩
  | read n c => exact ⟨rfl, rfl⟩
  | row n key value options c =>
    obtain rfl : n = _ := hloop
    exact ⟨Function.update_of_ne hm _ _, rfl⟩
  | look n stored c => exact hloop.elim
  | stmt n stored o c => exact hloop.elim
  | store n stored key o c h => exact hloop.elim
  | assign n stored key value c h => exact hloop.elim

omit [DecidableEq N] in
/-- A row is written. -/
theorem Progress.row {t : OptionTable} {s : Settings} {key value : String}
    {options : List (Σ _ : String, String)}
    (h : Progress t k (.writing n (⟨key, value⟩ :: options)) s) :
    Progress t k (.writing n options) (updateOptionMap key value s) where
  rows := by
    intro hk r hr
    have hrow : (⟨key, value⟩ : Σ _ : String, String) ∈ t.entries :=
      h.ahead hk _ List.mem_cons_self
    by_cases hkey : r.1 = key
    · obtain rfl : r = ⟨key, value⟩ := t.nodupKeys.eq_of_fst_eq hr hrow hkey
      exact Or.inl (settled_put overwrites key value s)
    · rcases h.rows hk r hr with hsettled | hahead
      · exact Or.inl (hsettled.of_ne overwrites hkey value)
      · rcases List.mem_cons.mp hahead with rfl | hahead
        · exact absurd rfl hkey
        · exact Or.inr hahead
  ahead := fun hk r hr => h.ahead hk r (List.mem_cons_of_mem _ hr)
  settled := by
    intro hk r hr
    have hk' : 1 ≤ k := by omega
    have hsame : updateOptionMap key value s = s :=
      h.settled hk ⟨key, value⟩ (h.ahead hk' _ List.mem_cons_self)
    rw [hsame]
    exact h.settled hk r hr

/-- **A step of the loop of the process.** -/
theorem Progress.next (h : Progress c.table k l (c.settings n)) (hloop : l.LoopOf n)
    (hnext : Next l c o l') :
    Progress c.table (k + (if o.isSleep n then 1 else 0)) l' ((exec o c).2.settings n) := by
  cases hnext with
  | sleep m c =>
    obtain rfl : m = n := hloop
    have hsleep : (Op.sleep m).isSleep m = true := decide_eq_true rfl
    rw [if_pos hsleep]
    refine ⟨fun _ r hr => Or.inr hr, fun _ r hr => hr, fun hk r hr => ?_⟩
    -- the round before has nothing left to write
    rcases h.rows (by omega) r hr with hsettled | hahead
    · exact hsettled
    · exact absurd hahead List.not_mem_nil
  | read m c => exact ⟨fun _ r hr => Or.inr hr, fun _ r hr => hr, h.settled⟩
  | row m key value options c =>
    obtain rfl : m = n := hloop
    show Progress c.table k _ (Function.update c.settings m _ m)
    rw [Function.update_self]
    exact h.row
  | look m stored c => exact hloop.elim
  | stmt m stored o c => exact hloop.elim
  | store m stored key o c h => exact hloop.elim
  | assign m stored key value c h => exact hloop.elim

end Quiet

/-- The requests have been answered. -/
def Over (c : System N R) : Prop := ∀ r, ∃ reply, c.threads (.inr r) = .ret reply

/-- What holds in a run that begins when the requests are over. -/
structure Quiet (c : System N R) (since : List (N ⊕ R)) (l : N ⊕ R → Stage N) : Prop where
  inv : Inv (play exec c since).store l
  answered : Over (play exec c since)
  table : (play exec c since).store.table = c.store.table
  progress : ∀ n, Progress c.store.table (rounds n (playLog exec c since)) (l (.inl n))
    ((play exec c since).store.settings n)

omit [DecidableEq R] in
theorem rounds_snoc (n : N) (log : List ((N ⊕ R) × Op N)) (i : N ⊕ R) (o : Op N) :
    rounds n (log ++ [(i, o)]) = rounds n log + if o.isSleep n then 1 else 0 := by
  rw [rounds, List.countP_append, List.countP_singleton]
  rfl

/-- **A step when the requests are over** is one of a loop. -/
theorem Quiet.snoc {c : System N R} {since : List (N ⊕ R)} {l : N ⊕ R → Stage N}
    (h : Quiet c since l) {i : N ⊕ R} {o : Op N} {k : o.Res → Thread N (Option Reply)}
    {l' : Stage N} (hi : (play exec c since).threads i = .call o k)
    (hnext : Next (l i) (play exec c since).store o l') :
    Quiet c (since ++ [i]) (Function.update l i l') := by
  obtain ⟨n, rfl⟩ : ∃ n, i = .inl n := by
    cases i with
    | inl n => exact ⟨n, rfl⟩
    | inr r =>
      obtain ⟨reply, hr⟩ := h.answered r
      rw [hr] at hi
      exact nomatch hi
  have hloop := h.inv.loops n
  have hplay : play exec c (since ++ [.inl n]) = step exec (play exec c since) (.inl n) := by
    rw [play_append, play_cons, play_nil]
  have hstore : (play exec c (since ++ [.inl n])).store
      = (exec o (play exec c since).store).2 := by
    rw [hplay, step_call exec hi]
  refine ⟨?_, ?_, ?_, ?_⟩
  · rw [hstore]
    exact h.inv.next hnext
  · intro r
    rw [hplay, step_threads_of_ne exec _ Sum.inr_ne_inl]
    exact h.answered r
  · rw [hstore, table_next hloop hnext]
    exact h.table
  · intro m
    rw [hstore, playLog_snoc, performed_call hi, rounds_snoc]
    have hprogress := h.progress m
    by_cases hm : m = n
    · subst hm
      rw [Function.update_self]
      rw [← h.table] at hprogress ⊢
      exact hprogress.next hloop hnext
    · obtain ⟨hsettings, hsleep⟩ := settings_next hloop hnext hm
      have hother : (Sum.inl m : N ⊕ R) ≠ .inl n := fun he => hm (Sum.inl.inj he)
      rw [Function.update_of_ne hother, hsettings, hsleep]
      exact hprogress

/-- A thread that has returned. -/
theorem Quiet.idle {c : System N R} {since : List (N ⊕ R)} {l : N ⊕ R → Stage N}
    (h : Quiet c since l) {i : N ⊕ R} {a : Option Reply}
    (hi : (play exec c since).threads i = .ret a) : Quiet c (since ++ [i]) l := by
  have hplay : play exec c (since ++ [i]) = play exec c since := by
    rw [play_append, play_cons, play_nil, step_ret exec hi]
  have hlog : playLog exec c (since ++ [i]) = playLog exec c since := by
    rw [playLog_snoc, performed_ret hi, List.append_nil]
  constructor
  · rw [hplay]
    exact h.inv
  · rw [hplay]
    exact h.answered
  · rw [hplay]
    exact h.table
  · rw [hplay, hlog]
    exact h.progress

/-- **Once the requests are over, a process that goes to sleep twice has the settings
of a process that starts on the table**, whatever the others do meanwhile. -/
theorem in_step {N R : Type} [DecidableEq N] [DecidableEq R] (requests : R → Request N)
    (hkeyed : Keyed requests) (loops : N → Nat) (table : OptionTable) (before since : List (N ⊕ R))
    (hover : Over (play exec (start requests loops table) before)) (n : N)
    (hrounds : 2 ≤ rounds n
      (playLog exec (play exec (start requests loops table) before) since)) :
    let c := play exec (start requests loops table) (before ++ since)
    c.store.settings n = restarted c.store.table.entries := by
  obtain ⟨l₁, hgoes, hinv⟩ := inv_run hkeyed loops table before
  dsimp only
  rw [play_append]
  generalize play exec (start requests loops table) before = c at hover hrounds hgoes hinv ⊢
  have hstart : Quiet c [] l₁ := by
    refine ⟨hinv, hover, rfl, fun m => ⟨fun hk => ?_, fun hk => ?_, fun hk => ?_⟩⟩
    all_goals exact absurd hk (by simp [rounds, playLog])
  obtain ⟨l, -, hquiet⟩ := ghost_run (C := fun _ _ => True) (I := Quiet c) hgoes hstart
    (fun _ _ _ _ h hi => h.idle hi) (fun _ _ _ _ _ _ h _ hi hnext => h.snoc hi hnext) since
    fun _ _ _ _ => trivial
  have hreplica := hquiet.inv.replicas n
  rw [hquiet.table] at hreplica ⊢
  exact hreplica.eq_of_settled ((hquiet.progress n).settled hrounds)

/-! ### A footer -/

/-- The first process serves a request. -/
def setFooter (_ : Unit) : Request Bool := ⟨false, some ⟨"Footer", .string "powered"⟩⟩

/-- The second process reads the table between the two writes of the request. -/
def stale : List (Bool ⊕ Unit) :=
  [.inl true, .inr (), .inr (), .inr (), .inl true, .inr (), .inr ()]

/-- It has no footer when the request is over, and is in step after one more round. -/
theorem footer_in_step :
    ((play exec (start setFooter (fun _ => 3) ∅) stale).store.settings true).texts .footer = "" ∧
      (play exec (start setFooter (fun _ => 3) ∅)
          (stale ++ List.replicate 5 (.inl true))).store.settings true
        = restarted (play exec (start setFooter (fun _ => 3) ∅)
          (stale ++ List.replicate 5 (.inl true))).store.table.entries := by
  refine ⟨rfl, in_step setFooter ?_ (fun _ => 3) ∅ stale _ (fun r => ⟨_, rfl⟩) true ?_⟩
  · intro r option h
    obtain rfl := Option.some.inj h
    decide
  · decide

end AuthGateway.Replicas
