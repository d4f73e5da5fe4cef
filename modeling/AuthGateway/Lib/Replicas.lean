import AuthGateway.Lib.Replay

/-!
# Copies of a table

Several processes replay one table, each at its own pace.  A `Replica` differs
from a fresh process only in what the rows write, whatever it has written so
far; it stays one when it writes a key of the table and when the table gets a
row.  A row is `Settled` when writing it again changes nothing.

**A replica in which every row is settled is a fresh process**
(`Replica.eq_of_settled`): a single pass through the table is enough, however
stale the replica was.
-/

namespace Replay

variable {K V S : Type} {put : K → V → S → S}

/-! ### Settled rows -/

/-- Writing the row again changes nothing. -/
def Settled (put : K → V → S → S) (r : Σ _ : K, V) (s : S) : Prop := put r.1 r.2 s = s

theorem settled_put (hput : Overwrites put) (k : K) (v : V) (s : S) :
    Settled put ⟨k, v⟩ (put k v s) := hput.last k v v s

/-- A row stays settled when another key is written. -/
theorem Settled.of_ne (hput : Overwrites put) {r : Σ _ : K, V} {s : S} (h : Settled put r s) {k : K}
    (hk : r.1 ≠ k) (v : V) : Settled put r (put k v s) := by
  unfold Settled at h ⊢
  rw [hput.comm hk, h]

theorem replay_settled {rows : List (Σ _ : K, V)} {s : S} (h : ∀ r ∈ rows, Settled put r s) :
    replay put rows s = s := by
  induction rows with
  | nil => rfl
  | cons r rows ih =>
    have hr : put r.1 r.2 s = s := h r List.mem_cons_self
    rw [replay_cons, hr]
    exact ih fun r' hr' => h r' (List.mem_cons_of_mem r hr')

/-- What is written under a key of the table, replaying it writes over. -/
theorem replay_put_mem (hput : Overwrites put) {rows : List (Σ _ : K, V)}
    (hnodup : rows.NodupKeys) {k : K} (hk : k ∈ rows.keys) (v : V) (s : S) :
    replay put rows (put k v s) = replay put rows s := by
  induction rows generalizing s with
  | nil => exact absurd hk List.not_mem_nil
  | cons r rows ih =>
    obtain ⟨k', v'⟩ := r
    obtain ⟨-, hrows⟩ := List.nodupKeys_cons.mp hnodup
    rw [replay_cons, replay_cons]
    by_cases hkey : k' = k
    · rw [hkey, hput.last]
    · have hk' : k ∈ rows.keys := by
        rcases List.mem_cons.mp hk with h | h
        · exact absurd h.symm hkey
        · exact h
      rw [hput.comm hkey, ih hrows hk']

/-! ### Replicas -/

/-- The process differs from one that starts at `s₀` only in what the rows write. -/
def Replica (put : K → V → S → S) (s₀ : S) (rows : List (Σ _ : K, V)) (s : S) : Prop :=
  replay put rows s = replay put rows s₀

namespace Replica

variable {s₀ s : S}

/-- A process that has replayed the table. -/
theorem replayed (hput : Overwrites put) {rows : List (Σ _ : K, V)} (hnodup : rows.NodupKeys)
    (s₀ : S) : Replica put s₀ rows (replay put rows s₀) := by
  refine replay_settled fun r hr => ?_
  -- the row comes last, in some order of the table
  obtain ⟨before, after, he⟩ := List.append_of_mem hr
  have hperm : rows.Perm (before ++ after ++ [r]) := by
    rw [he]
    refine List.perm_middle.trans ?_
    exact (List.perm_append_singleton r (before ++ after)).symm
  rw [replay_perm hput hnodup hperm]
  unfold replay
  rw [List.foldl_append]
  exact settled_put hput r.1 r.2 _

theorem put_mem (hput : Overwrites put) {rows : List (Σ _ : K, V)} (hnodup : rows.NodupKeys)
    (h : Replica put s₀ rows s) {k : K} (hk : k ∈ rows.keys) (v : V) :
    Replica put s₀ rows (put k v s) :=
  (replay_put_mem hput hnodup hk v s).trans h

/-- The table gets a row, or another value in one. -/
theorem insert [DecidableEq K] (hput : Overwrites put) {table : AList fun _ : K => V}
    (h : Replica put s₀ table.entries s) (k : K) (v : V) :
    Replica put s₀ (table.insert k v).entries s := by
  unfold Replica at h ⊢
  rw [replay_insert hput, replay_insert hput, h]

/-- **One pass is enough.** -/
theorem eq_of_settled {rows : List (Σ _ : K, V)} (h : Replica put s₀ rows s)
    (hrows : ∀ r ∈ rows, Settled put r s) : s = replay put rows s₀ :=
  (replay_settled hrows).symm.trans h

end Replica

end Replay
