import Mathlib.Data.List.AList
import Mathlib.Logic.Function.Basic

/-!
# Settings kept in a table, and replayed

A process keeps settings in memory and their values in a table of keys and
values.  `put k v s` writes one setting.  `Overwrites put` is all that is asked
of it: settings of different keys do not interfere, and the last value of a key
counts.

`replay put rows s` writes what a table holds, row by row, as a process does
that starts again.  **The order of the rows does not matter** (`replay_perm`),
and **to store a value and replay is to replay and write it** (`replay_insert`),
so a process that stores what it writes is reproduced by its table.  What a
single setting is after a replay says `replay_read`.
-/

namespace Replay

variable {K V S : Type}

/-- Writes to different keys commute, and a later write to a key hides an
earlier one. -/
structure Overwrites (put : K → V → S → S) : Prop where
  comm : ∀ {k k' : K}, k ≠ k' → ∀ v v' s, put k v (put k' v' s) = put k' v' (put k v s)
  last : ∀ k v v' s, put k v (put k v' s) = put k v s

/-- Write the rows of a table, in their order. -/
def replay (put : K → V → S → S) (rows : List (Σ _ : K, V)) (s : S) : S :=
  rows.foldl (fun s r => put r.1 r.2 s) s

variable {put : K → V → S → S} {k : K} {v : V}

@[simp] theorem replay_nil (s : S) : replay put [] s = s := rfl

@[simp] theorem replay_cons (r : Σ _ : K, V) (rows : List (Σ _ : K, V)) (s : S) :
    replay put (r :: rows) s = replay put rows (put r.1 r.2 s) := rfl

theorem replay_keeps {P : S → Prop} (rows : List (Σ _ : K, V))
    (h : ∀ r ∈ rows, ∀ s, P s → P (put r.1 r.2 s)) {s : S} (hs : P s) : P (replay put rows s) := by
  induction rows generalizing s with
  | nil => exact hs
  | cons r rows ih =>
    refine ih (fun r' hr' => h r' (List.mem_cons_of_mem r hr')) ?_
    exact h r List.mem_cons_self s hs

/-- A write to a key that the table does not hold can be made afterwards. -/
theorem replay_put (hput : Overwrites put) {rows : List (Σ _ : K, V)} (hk : k ∉ rows.keys) (v : V)
    (s : S) : replay put rows (put k v s) = put k v (replay put rows s) := by
  induction rows generalizing s with
  | nil => rfl
  | cons r rows ih =>
    rw [List.keys_cons, List.mem_cons, not_or] at hk
    rw [replay_cons, replay_cons, hput.comm (Ne.symm hk.1), ih hk.2]

/-- **The order of the rows does not matter.** -/
theorem replay_perm (hput : Overwrites put) {rows rows' : List (Σ _ : K, V)}
    (hnodup : rows.NodupKeys) (h : rows.Perm rows') (s : S) :
    replay put rows s = replay put rows' s := by
  refine h.foldl_eq' ?_ s
  intro r hr r' hr' s
  by_cases hkey : r.1 = r'.1
  · obtain rfl : r = r' := hnodup.eq_of_fst_eq hr hr' hkey
    rfl
  · exact (hput.comm hkey r.2 r'.2 s).symm

/-! ### Registers -/

/-- Write the register that a key selects, if it selects one. -/
def select {R A : Type} [DecidableEq R] (switch : K → Option R) (parse : R → V → A) (k : K) (v : V)
    (b : R → A) : R → A :=
  match switch k with
  | some r => Function.update b r (parse r v)
  | none => b

theorem overwrites_select {R A : Type} [DecidableEq R] {switch : K → Option R} {parse : R → V → A}
    (h : ∀ {k k' r}, switch k = some r → switch k' = some r → k = k') :
    Overwrites (select switch parse) where
  comm := by
    intro k k' hne v v' b
    unfold select
    cases hk : switch k with
    | none => rfl
    | some r =>
      cases hk' : switch k' with
      | none => rfl
      | some r' =>
        refine Function.update_comm ?_ _ _ b
        rintro rfl
        exact hne (h hk hk')
  last := by
    intro k v v' b
    unfold select
    cases switch k with
    | none => rfl
    | some r => exact Function.update_idem _ _ b

/-! ### The table follows -/

variable [DecidableEq K]

theorem replay_erase (hput : Overwrites put) {rows : List (Σ _ : K, V)} (hnodup : rows.NodupKeys)
    (v : V) (s : S) :
    put k v (replay put (rows.kerase k) s) = put k v (replay put rows s) := by
  by_cases hk : k ∈ rows.keys
  · obtain ⟨v', before, after, hbefore, he, herase⟩ := List.exists_of_kerase hk
    have hperm : rows.Perm (⟨k, v'⟩ :: (before ++ after)) := he ▸ List.perm_middle
    have hnot : k ∉ (before ++ after).keys := by
      have h := (List.perm_nodupKeys hperm).mp hnodup
      exact (List.nodupKeys_cons.mp h).1
    rw [herase, replay_perm hput hnodup hperm, replay_cons, replay_put hput hnot, hput.last]
  · rw [List.kerase_of_notMem_keys hk]

/-- **To store a value and replay is to replay and write it.** -/
theorem replay_insert (hput : Overwrites put) (table : AList fun _ : K => V) (k : K) (v : V)
    (s : S) :
    replay put (table.insert k v).entries s = put k v (replay put table.entries s) := by
  have hnot : k ∉ (table.entries.kerase k).keys := List.notMem_keys_kerase k table.nodupKeys
  rw [AList.entries_insert, replay_cons, replay_put hput hnot,
    replay_erase hput table.nodupKeys]

/-- **A setting after a replay**: what the table holds under its key, or what it
was before. -/
theorem replay_read {A : Type} (get : S → A) (parse : V → A)
    (hself : ∀ v s, get (put k v s) = parse v)
    (hother : ∀ k' v s, k' ≠ k → get (put k' v s) = get s) {rows : List (Σ _ : K, V)}
    (hnodup : rows.NodupKeys) (s : S) :
    get (replay put rows s) = ((rows.dlookup k).map parse).getD (get s) := by
  induction rows generalizing s with
  | nil => rfl
  | cons r rows ih =>
    obtain ⟨k', v'⟩ := r
    obtain ⟨hnot, hrows⟩ := List.nodupKeys_cons.mp hnodup
    rw [replay_cons, ih hrows]
    by_cases hk : k' = k
    · subst hk
      rw [List.dlookup_eq_none.mpr hnot, List.dlookup_cons_eq, hself]
      rfl
    · rw [List.dlookup_cons_ne rows ⟨k', v'⟩ (Ne.symm hk), hother k' v' s hk]

end Replay
