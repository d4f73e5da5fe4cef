import Mathlib

/-!
# Finite maps in key order

A map is the list of its entries, with strictly rising keys, so that two maps with the same
lookups are the same (`ext_get?`).
-/

structure SortedMap (K V : Type) [LinearOrder K] where
  entries : List (K × V)
  sorted : entries.Pairwise fun a b => a.1 < b.1

namespace SortedMap

variable {K V W : Type} [LinearOrder K]

def empty : SortedMap K V := ⟨[], List.Pairwise.nil⟩

def get? (m : SortedMap K V) (k : K) : Option V := m.entries.lookup k

/-! ### Lookups -/

theorem lookup_cons_eq (k k' : K) (v : V) (l : List (K × V)) :
    ((k', v) :: l).lookup k = if k = k' then some v else l.lookup k := by
  by_cases hk : k = k'
  · rw [if_pos hk, hk, List.lookup_cons_self]
  · rw [if_neg hk, List.lookup_cons, beq_false_of_ne hk]

theorem lookup_eq_some {l : List (K × V)} (h : l.Pairwise fun a b => a.1 < b.1) {k : K} {v : V} :
    l.lookup k = some v ↔ (k, v) ∈ l := by
  induction l with
  | nil => simp
  | cons p l ih =>
    obtain ⟨k', v'⟩ := p
    obtain ⟨hhead, htail⟩ := List.pairwise_cons.mp h
    by_cases hk : k = k'
    · subst hk
      have hnot : (k, v) ∉ l := fun hmem => absurd (hhead _ hmem) (lt_irrefl k)
      simp [hnot, eq_comm]
    · rw [lookup_cons_eq, if_neg hk, ih htail]
      simp [hk]

theorem get?_eq_some {m : SortedMap K V} {k : K} {v : V} :
    m.get? k = some v ↔ (k, v) ∈ m.entries := lookup_eq_some m.sorted

/-- **Two maps with the same lookups are the same.** -/
theorem ext_get? {m m' : SortedMap K V} (h : ∀ k, m.get? k = m'.get? k) : m = m' := by
  have hnodup : ∀ m : SortedMap K V, m.entries.Nodup := fun m =>
    m.sorted.imp fun hlt heq => absurd hlt (by rw [heq]; exact lt_irrefl _)
  have hperm : m.entries.Perm m'.entries := by
    rw [List.perm_ext_iff_of_nodup (hnodup m) (hnodup m')]
    rintro ⟨k, v⟩
    rw [← get?_eq_some, ← get?_eq_some, h k]
  have hentries : m.entries = m'.entries :=
    hperm.eq_of_pairwise (fun a b _ _ hab hba => absurd hab (lt_asymm hba)) m.sorted m'.sorted
  cases m
  cases m'
  simpa using hentries

@[simp] theorem get?_empty (k : K) : (empty : SortedMap K V).get? k = none := rfl

/-! ### One entry more -/

def insertEntry (k : K) (v : V) : List (K × V) → List (K × V)
  | [] => [(k, v)]
  | (k', v') :: rest =>
    if k < k' then (k, v) :: (k', v') :: rest
    else if k = k' then (k, v) :: rest
    else (k', v') :: insertEntry k v rest

theorem mem_insertEntry {k : K} {v : V} {l : List (K × V)} {p : K × V}
    (h : p ∈ insertEntry k v l) : p = (k, v) ∨ p ∈ l := by
  induction l with
  | nil => simpa [insertEntry] using h
  | cons q l ih =>
    obtain ⟨k', v'⟩ := q
    rw [insertEntry] at h
    split at h
    · simpa using h
    split at h
    · rcases List.mem_cons.mp h with h | h
      · exact Or.inl h
      · exact Or.inr (List.mem_cons_of_mem _ h)
    · rcases List.mem_cons.mp h with h | h
      · exact Or.inr (by simp [h])
      · rcases ih h with h | h
        · exact Or.inl h
        · exact Or.inr (List.mem_cons_of_mem _ h)

theorem sorted_insertEntry (k : K) (v : V) {l : List (K × V)}
    (h : l.Pairwise fun a b => a.1 < b.1) :
    (insertEntry k v l).Pairwise fun a b => a.1 < b.1 := by
  induction l with
  | nil => simp [insertEntry]
  | cons p l ih =>
    obtain ⟨k', v'⟩ := p
    obtain ⟨hhead, htail⟩ := List.pairwise_cons.mp h
    rw [insertEntry]
    split
    · rename_i hlt
      refine List.pairwise_cons.mpr ⟨fun q hq => ?_, h⟩
      rcases List.mem_cons.mp hq with rfl | hq
      · exact hlt
      · exact lt_trans hlt (hhead q hq)
    split
    · rename_i heq
      subst heq
      exact List.pairwise_cons.mpr ⟨hhead, htail⟩
    · rename_i hlt hne
      refine List.pairwise_cons.mpr ⟨fun q hq => ?_, ih htail⟩
      rcases mem_insertEntry hq with rfl | hq
      · exact lt_of_le_of_ne (not_lt.mp hlt) (Ne.symm hne)
      · exact hhead q hq

def insert (m : SortedMap K V) (k : K) (v : V) : SortedMap K V :=
  ⟨insertEntry k v m.entries, sorted_insertEntry k v m.sorted⟩

theorem get?_insert (m : SortedMap K V) (k : K) (v : V) (k' : K) :
    (m.insert k v).get? k' = if k' = k then some v else m.get? k' := by
  show (insertEntry k v m.entries).lookup k' = if k' = k then some v else m.entries.lookup k'
  induction m.entries with
  | nil => rw [insertEntry, lookup_cons_eq]
  | cons p l ih =>
    obtain ⟨k₀, v₀⟩ := p
    rw [insertEntry]
    split
    · rw [lookup_cons_eq]
    split
    · rename_i heq
      subst heq
      rw [lookup_cons_eq, lookup_cons_eq]
      by_cases hk : k' = k
      · rw [if_pos hk, if_pos hk]
      · rw [if_neg hk, if_neg hk, if_neg hk]
    · rename_i hne
      rw [lookup_cons_eq, lookup_cons_eq, ih]
      by_cases hk₀ : k' = k₀
      · subst hk₀
        rw [if_pos rfl, if_pos rfl, if_neg (Ne.symm hne)]
      · rw [if_neg hk₀, if_neg hk₀]

/-- One entry after the other; a later one wins. -/
def insertAll (m : SortedMap K V) (l : List (K × V)) : SortedMap K V :=
  l.foldl (fun m p => m.insert p.1 p.2) m

/-- Entries with different keys are all there afterwards, and what they do not name stays. -/
theorem get?_insertAll {l : List (K × V)} (h : l.Pairwise fun a b => a.1 < b.1)
    (m : SortedMap K V) (k : K) : (m.insertAll l).get? k = (l.lookup k).or (m.get? k) := by
  induction l generalizing m with
  | nil => rfl
  | cons p l ih =>
    obtain ⟨k', v'⟩ := p
    obtain ⟨hhead, htail⟩ := List.pairwise_cons.mp h
    show ((m.insert k' v').insertAll l).get? k = _
    rw [ih htail, get?_insert]
    by_cases hk : k = k'
    · subst hk
      have hnone : l.lookup k = none := by
        cases hlookup : l.lookup k with
        | none => rfl
        | some v => exact absurd (hhead _ ((lookup_eq_some htail).mp hlookup)) (lt_irrefl k)
      simp [hnone]
    · rw [lookup_cons_eq, if_neg hk, if_neg hk]

/-! ### New values -/

def mapValues (f : V → W) (m : SortedMap K V) : SortedMap K W :=
  ⟨m.entries.map fun p => (p.1, f p.2), List.pairwise_map.mpr m.sorted⟩

theorem lookup_map (f : V → W) (l : List (K × V)) (k : K) :
    (l.map fun p => (p.1, f p.2)).lookup k = (l.lookup k).map f := by
  induction l with
  | nil => rfl
  | cons p l ih =>
    obtain ⟨k', v⟩ := p
    rw [List.map_cons, lookup_cons_eq, lookup_cons_eq, ih]
    by_cases hk : k = k'
    · rw [if_pos hk, if_pos hk, Option.map_some]
    · rw [if_neg hk, if_neg hk]

@[simp] theorem get?_mapValues (f : V → W) (m : SortedMap K V) (k : K) :
    (m.mapValues f).get? k = (m.get? k).map f := lookup_map f m.entries k

end SortedMap
