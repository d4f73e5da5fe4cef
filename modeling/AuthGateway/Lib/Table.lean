import Mathlib

/-!
# Tables with a primary key and unique columns

A `Table` is what a relational table holds: rows in the order of their primary
key, all keys positive, no two the same, no two rows that clash in a unique
column, and a sequence that is past every key.  All of it is in the fields, so a table that
breaks it cannot be built; a write that would break it answers `none`.

Everything a caller needs is said by membership: `mem_put`, `mem_insert`,
`mem_delete`, `mem_update`.  `find?` is `SELECT … ORDER BY key LIMIT 1`;
`find?_eq_some_of_unique` turns it into membership where the condition picks out
at most one row, which the key and every unique column do.
-/

/-- A row: its primary key, and which pairs of rows may not stand in one table. -/
class Row (R : Type) where
  key : R → Int
  withKey : Int → R → R
  clash : R → R → Bool
  key_withKey : ∀ k r, key (withKey k r) = k
  clash_comm : ∀ a b, clash a b = clash b a

open Row

/-- Rows in key order, no two clashing, all keys positive and below the sequence. -/
structure Table (R : Type) [Row R] where
  rows : List R
  nextKey : Int
  apart : rows.Pairwise fun a b => key a < key b ∧ clash a b = false
  bounds : ∀ r ∈ rows, 0 < key r ∧ key r < nextKey
  nextKey_pos : 0 < nextKey

namespace Table

variable {R : Type} [Row R]

/-- The empty table; keys are given from `1` on. -/
def empty : Table R := ⟨[], 1, List.Pairwise.nil, by simp, one_pos⟩

/-- A table of one row, under the first key. -/
def single (r : R) : Table R where
  rows := [withKey 1 r]
  nextKey := 2
  apart := List.pairwise_singleton _ _
  bounds := by simp [key_withKey]
  nextKey_pos := two_pos

/-- A table of two rows. -/
def pair (r r' : R) (h : clash (withKey 1 r) (withKey 2 r') = false) : Table R where
  rows := [withKey 1 r, withKey 2 r']
  nextKey := 3
  apart := by simp [key_withKey, h]
  bounds := by simp [key_withKey]
  nextKey_pos := three_pos

instance : Membership R (Table R) := ⟨fun t r => r ∈ t.rows⟩

theorem mem_def {t : Table R} {r : R} : r ∈ t ↔ r ∈ t.rows := Iff.rfl

theorem key_pos {t : Table R} {r : R} (h : r ∈ t) : 0 < key r := (t.bounds r h).1

theorem key_lt_nextKey {t : Table R} {r : R} (h : r ∈ t) : key r < t.nextKey := (t.bounds r h).2

/-- Two rows of a table are the same row, or differ in the key and do not clash. -/
theorem eq_or_apart {t : Table R} {a b : R} (ha : a ∈ t) (hb : b ∈ t) :
    a = b ∨ (key a ≠ key b ∧ clash a b = false) := by
  have hfwd : t.rows.Pairwise fun a b => a = b ∨ (key a ≠ key b ∧ clash a b = false) :=
    t.apart.imp fun h => Or.inr ⟨ne_of_lt h.1, h.2⟩
  have hbwd : t.rows.Pairwise (flip fun a b => a = b ∨ (key a ≠ key b ∧ clash a b = false)) :=
    t.apart.imp fun h => Or.inr ⟨ne_of_gt h.1, by rw [clash_comm]; exact h.2⟩
  exact List.Pairwise.forall_of_forall_of_flip
    (R := fun a b => a = b ∨ (key a ≠ key b ∧ clash a b = false))
    (fun _ _ => Or.inl rfl) hfwd hbwd ha hb

theorem eq_of_key {t : Table R} {a b : R} (ha : a ∈ t) (hb : b ∈ t) (h : key a = key b) :
    a = b := by
  rcases eq_or_apart ha hb with he | he
  · exact he
  · exact absurd h he.1

theorem eq_of_clash {t : Table R} {a b : R} (ha : a ∈ t) (hb : b ∈ t) (h : clash a b = true) :
    a = b := by
  rcases eq_or_apart ha hb with he | he
  · exact he
  · rw [he.2] at h
    exact absurd h Bool.false_ne_true

/-! ### Reading -/

/-- `SELECT … WHERE p ORDER BY key LIMIT 1`. -/
def find? (t : Table R) (p : R → Bool) : Option R := t.rows.find? p

/-- The row with a given key. -/
def get? (t : Table R) (k : Int) : Option R := t.find? fun r => key r == k

/-- `SELECT … WHERE p`, in key order. -/
def select (t : Table R) (p : R → Bool) : List R := t.rows.filter p

theorem find?_mem {t : Table R} {p : R → Bool} {r : R} (h : t.find? p = some r) : r ∈ t :=
  List.mem_of_find?_eq_some h

theorem find?_holds {t : Table R} {p : R → Bool} {r : R} (h : t.find? p = some r) :
    p r = true := List.find?_some h

theorem find?_eq_none {t : Table R} {p : R → Bool} :
    t.find? p = none ↔ ∀ r ∈ t, p r = false := by
  rw [find?, List.find?_eq_none]
  exact ⟨fun h r hr => by simpa using h r hr, fun h r hr => by simpa using h r hr⟩

theorem mem_select {t : Table R} {p : R → Bool} {r : R} :
    r ∈ t.select p ↔ r ∈ t ∧ p r = true := List.mem_filter

/-- A lookup answers the row with the least key. -/
theorem find?_le {t : Table R} {p : R → Bool} {r x : R} (h : t.find? p = some r) (hx : x ∈ t)
    (hp : p x = true) : key r ≤ key x := by
  obtain ⟨-, before, after, hrows, hbefore⟩ := List.find?_eq_some_iff_append.mp h
  have hsorted := t.apart
  rw [hrows] at hsorted
  have hmem : x ∈ before ++ r :: after := by
    rw [← hrows]
    exact hx
  rcases List.mem_append.mp hmem with hx | hx
  · have hnot := hbefore x hx
    rw [hp] at hnot
    exact absurd hnot (by decide)
  · rcases List.mem_cons.mp hx with rfl | hx
    · exact le_refl _
    · have hafter := (List.pairwise_append.mp hsorted).2.1
      exact le_of_lt ((List.pairwise_cons.mp hafter).1 x hx).1

/-- **A condition that at most one row of the table meets is answered by
membership.** -/
theorem find?_eq_some_of_unique {t : Table R} {p : R → Bool}
    (hp : ∀ a ∈ t, ∀ b ∈ t, p a = true → p b = true → a = b) {r : R} :
    t.find? p = some r ↔ r ∈ t ∧ p r = true := by
  constructor
  · intro h
    exact ⟨find?_mem h, find?_holds h⟩
  · rintro ⟨hr, hpr⟩
    cases h : t.find? p with
    | none => rw [find?_eq_none.mp h r hr] at hpr; exact absurd hpr Bool.false_ne_true
    | some x => rw [hp x (find?_mem h) r hr (find?_holds h) hpr]

theorem get?_eq_some {t : Table R} {k : Int} {r : R} :
    t.get? k = some r ↔ r ∈ t ∧ key r = k := by
  rw [get?, find?_eq_some_of_unique, beq_iff_eq]
  intro a ha b hb hka hkb
  rw [beq_iff_eq] at hka hkb
  exact eq_of_key ha hb (hka.trans hkb.symm)

theorem get?_eq_none {t : Table R} {k : Int} : t.get? k = none ↔ ∀ r ∈ t, key r ≠ k := by
  rw [get?, find?_eq_none]
  simp

theorem get?_key {t : Table R} {r : R} (h : r ∈ t) : t.get? (key r) = some r :=
  get?_eq_some.mpr ⟨h, rfl⟩

/-- Two tables with the same members answer every lookup by key alike. -/
theorem get?_congr {t t' : Table R} {k : Int} (h : ∀ r, key r = k → (r ∈ t ↔ r ∈ t')) :
    t.get? k = t'.get? k := by
  apply Option.ext
  intro r
  rw [get?_eq_some, get?_eq_some]
  constructor
  · rintro ⟨hr, hk⟩; exact ⟨(h r hk).mp hr, hk⟩
  · rintro ⟨hr, hk⟩; exact ⟨(h r hk).mpr hr, hk⟩

/-! ### Writing -/

/-- Whether a row may stand beside every row with another key. -/
def fits (t : Table R) (r : R) : Bool := t.rows.all fun x => key x == key r || !clash x r

/-- Write a row under its own key, replacing the row that has it.  `none` when
a row with another key clashes with it, or the key is no key. -/
def put (t : Table R) (r : R) : Option (Table R) :=
  if h : t.fits r = true ∧ 0 < key r then
    some
      { rows := (t.rows.filter fun x => decide (key x < key r))
          ++ r :: t.rows.filter fun x => decide (key r < key x)
        nextKey := max t.nextKey (key r + 1)
        apart := by
          have hclash : ∀ x ∈ t.rows, key x ≠ key r → clash x r = false := by
            intro x hx hne
            have := List.all_eq_true.mp h.1 x hx
            simpa [hne] using this
          rw [List.pairwise_append, List.pairwise_cons]
          refine ⟨t.apart.filter _, ⟨?_, t.apart.filter _⟩, ?_⟩
          · intro x hx
            rw [List.mem_filter, decide_eq_true_eq] at hx
            refine ⟨hx.2, ?_⟩
            rw [clash_comm]
            exact hclash x hx.1 (ne_of_gt hx.2)
          · intro a ha b hb
            rw [List.mem_filter, decide_eq_true_eq] at ha
            rcases List.mem_cons.mp hb with rfl | hb
            · exact ⟨ha.2, hclash a ha.1 (ne_of_lt ha.2)⟩
            · rw [List.mem_filter, decide_eq_true_eq] at hb
              have hlt : key a < key b := lt_trans ha.2 hb.2
              rcases eq_or_apart (t := t) ha.1 hb.1 with he | he
              · exact absurd (he ▸ hlt) (lt_irrefl _)
              · exact ⟨hlt, he.2⟩
        bounds := by
          intro x hx
          have hold : ∀ y ∈ t.rows, 0 < key y ∧ key y < max t.nextKey (key r + 1) := fun y hy =>
            ⟨(t.bounds y hy).1, lt_of_lt_of_le (t.bounds y hy).2 (le_max_left _ _)⟩
          rcases List.mem_append.mp hx with hx | hx
          · exact hold x (List.mem_filter.mp hx).1
          · rcases List.mem_cons.mp hx with rfl | hx
            · exact ⟨h.2, lt_of_lt_of_le (lt_add_one _) (le_max_right _ _)⟩
            · exact hold x (List.mem_filter.mp hx).1
        nextKey_pos := lt_of_lt_of_le t.nextKey_pos (le_max_left _ _) }
  else none

theorem fits_iff {t : Table R} {r : R} :
    t.fits r = true ↔ ∀ x ∈ t, key x ≠ key r → clash x r = false := by
  rw [fits, List.all_eq_true]
  constructor
  · intro h x hx hne
    simpa [hne] using h x hx
  · intro h x hx
    by_cases hk : key x = key r
    · simp [hk]
    · simp [h x hx hk]

theorem put_isSome {t : Table R} {r : R} (h : ∀ x ∈ t, key x ≠ key r → clash x r = false)
    (hpos : 0 < key r) : ∃ t', t.put r = some t' := ⟨_, dif_pos ⟨fits_iff.mpr h, hpos⟩⟩

theorem mem_put {t t' : Table R} {r x : R} (h : t.put r = some t') :
    x ∈ t' ↔ x = r ∨ (x ∈ t ∧ key x ≠ key r) := by
  unfold put at h
  split at h
  · rw [← Option.some.inj h]
    show x ∈ (t.rows.filter fun y => decide (key y < key r))
      ++ r :: t.rows.filter (fun y => decide (key r < key y)) ↔ _
    rw [List.mem_append, List.mem_cons, List.mem_filter, List.mem_filter, decide_eq_true_eq,
      decide_eq_true_eq, mem_def]
    constructor
    · rintro (⟨hx, hlt⟩ | rfl | ⟨hx, hlt⟩)
      · exact Or.inr ⟨hx, ne_of_lt hlt⟩
      · exact Or.inl rfl
      · exact Or.inr ⟨hx, ne_of_gt hlt⟩
    · rintro (rfl | ⟨hx, hne⟩)
      · exact Or.inr (Or.inl rfl)
      · rcases lt_or_gt_of_ne hne with hlt | hgt
        · exact Or.inl ⟨hx, hlt⟩
        · exact Or.inr (Or.inr ⟨hx, hgt⟩)
  · cases h

theorem get?_put_self {t t' : Table R} {r : R} (h : t.put r = some t') :
    t'.get? (key r) = some r := get?_eq_some.mpr ⟨(mem_put h).mpr (Or.inl rfl), rfl⟩

theorem get?_put_of_ne {t t' : Table R} {r : R} {k : Int} (h : t.put r = some t')
    (hk : k ≠ key r) : t'.get? k = t.get? k := by
  refine get?_congr fun x hx => ?_
  rw [mem_put h]
  constructor
  · rintro (rfl | hx')
    · exact absurd hx.symm hk
    · exact hx'.1
  · intro hx'
    exact Or.inr ⟨hx', by rw [hx]; exact hk⟩

/-- A new row, under the next key of the sequence. -/
def insert (t : Table R) (r : R) : Option (R × Table R) :=
  (t.put (withKey t.nextKey r)).map fun t' => (withKey t.nextKey r, t')

theorem insert_eq_some {t t' : Table R} {r r' : R} (h : t.insert r = some (r', t')) :
    r' = withKey t.nextKey r ∧ t.put r' = some t' := by
  rw [insert, Option.map_eq_some_iff] at h
  obtain ⟨t'', hput, he⟩ := h
  rw [Prod.mk.injEq] at he
  obtain ⟨rfl, rfl⟩ := he
  exact ⟨rfl, hput⟩

theorem key_insert {t t' : Table R} {r r' : R} (h : t.insert r = some (r', t')) :
    key r' = t.nextKey := by
  rw [(insert_eq_some h).1, key_withKey]

theorem mem_insert {t t' : Table R} {r r' x : R} (h : t.insert r = some (r', t')) :
    x ∈ t' ↔ x = r' ∨ x ∈ t := by
  rw [mem_put (insert_eq_some h).2, key_insert h]
  constructor
  · rintro (rfl | hx)
    · exact Or.inl rfl
    · exact Or.inr hx.1
  · rintro (rfl | hx)
    · exact Or.inl rfl
    · exact Or.inr ⟨hx, ne_of_lt (key_lt_nextKey hx)⟩

/-- `INSERT`: under its own key when it has one, which no row may have, else
under the next key of the sequence. -/
def create (t : Table R) (r : R) : Option (R × Table R) :=
  if key r = 0 then t.insert r
  else if (t.get? (key r)).isSome then none
  else (t.put r).map fun t' => (r, t')

theorem create_of_key {t t' : Table R} {r r' : R} (h : t.create r = some (r', t'))
    (hk : key r ≠ 0) : r' = r ∧ (∀ x ∈ t, key x ≠ key r) ∧ t.put r = some t' := by
  rw [create, if_neg hk] at h
  split at h
  · cases h
  · rename_i hnone
    obtain ⟨t'', hput, he⟩ := Option.map_eq_some_iff.mp h
    rw [Prod.mk.injEq] at he
    obtain ⟨rfl, rfl⟩ := he
    rw [Option.not_isSome_iff_eq_none, get?_eq_none] at hnone
    exact ⟨rfl, hnone, hput⟩

/-- What is stored is the row given, under its own key or the next one. -/
theorem eq_of_create {t t' : Table R} {r r' : R} (h : t.create r = some (r', t')) :
    r' = r ∨ r' = withKey t.nextKey r := by
  by_cases hk : key r = 0
  · rw [create, if_pos hk] at h
    exact Or.inr (insert_eq_some h).1
  · exact Or.inl (create_of_key h hk).1

theorem mem_create {t t' : Table R} {r r' x : R} (h : t.create r = some (r', t')) :
    x ∈ t' ↔ x = r' ∨ x ∈ t := by
  by_cases hk : key r = 0
  · rw [create, if_pos hk] at h
    exact mem_insert h
  · obtain ⟨rfl, hnone, hput⟩ := create_of_key h hk
    rw [mem_put hput]
    constructor
    · rintro (hx | hx)
      · exact Or.inl hx
      · exact Or.inr hx.1
    · rintro (hx | hx)
      · exact Or.inl hx
      · exact Or.inr ⟨hx, hnone x hx⟩

/-- A row without a key of its own is stored when it clashes with none, whichever
key it gets. -/
theorem create_isSome {t : Table R} {r : R} (hk : key r = 0)
    (h : ∀ k, ∀ x ∈ t, clash x (withKey k r) = false) : ∃ r' t', t.create r = some (r', t') := by
  have hkey : key (withKey t.nextKey r) = t.nextKey := key_withKey t.nextKey r
  obtain ⟨t', hput⟩ := put_isSome (t := t) (r := withKey t.nextKey r)
    (fun x hx _ => h t.nextKey x hx) (by rw [hkey]; exact t.nextKey_pos)
  refine ⟨withKey t.nextKey r, t', ?_⟩
  rw [create, if_pos hk, insert, hput]
  rfl

/-- No row had the key of the row that is stored. -/
theorem create_fresh {t t' : Table R} {r r' : R} (h : t.create r = some (r', t')) :
    ∀ x ∈ t, key x ≠ key r' := by
  intro x hx
  by_cases hk : key r = 0
  · rw [create, if_pos hk] at h
    rw [key_insert h]
    exact ne_of_lt (key_lt_nextKey hx)
  · obtain ⟨rfl, hnone, -⟩ := create_of_key h hk
    exact hnone x hx

theorem get?_create {t t' : Table R} {r r' : R} (h : t.create r = some (r', t')) (k : Int) :
    t'.get? k = if key r' = k then some r' else t.get? k := by
  by_cases hk : key r' = k
  · rw [if_pos hk, ← hk]
    exact get?_key ((mem_create h).mpr (Or.inl rfl))
  · rw [if_neg hk]
    refine get?_congr fun x hx => ?_
    rw [mem_create h]
    constructor
    · rintro (rfl | hold)
      · exact absurd hx hk
      · exact hold
    · exact Or.inr

/-- A row without a key of its own gets one past all others. -/
theorem create_later {t t' : Table R} {r r' : R} (h : t.create r = some (r', t'))
    (hk : key r = 0) : ∀ x ∈ t, key x < key r' := by
  intro x hx
  rw [create, if_pos hk] at h
  rw [key_insert h]
  exact key_lt_nextKey hx

/-- `DELETE … WHERE p`. -/
def delete (t : Table R) (p : R → Bool) : Table R where
  rows := t.rows.filter fun r => !p r
  nextKey := t.nextKey
  apart := t.apart.filter _
  bounds := fun r hr => t.bounds r (List.mem_filter.mp hr).1
  nextKey_pos := t.nextKey_pos

@[simp] theorem mem_delete {t : Table R} {p : R → Bool} {r : R} :
    r ∈ t.delete p ↔ r ∈ t ∧ p r = false := by
  show r ∈ List.filter _ _ ↔ _
  rw [List.mem_filter, mem_def, Bool.not_eq_true']

/-- What `UPDATE … SET f WHERE p` makes of one row. -/
def touch (p : R → Bool) (f : R → R) (r : R) : R := if p r then f r else r

/-- `UPDATE … SET f WHERE p`.  `none` when the new rows clash. -/
def update (t : Table R) (p : R → Bool) (f : R → R) : Option (Table R) :=
  if h : (t.rows.map (touch p f)).Pairwise (fun a b => key a < key b ∧ clash a b = false)
      ∧ ∀ r ∈ t.rows.map (touch p f), 0 < key r ∧ key r < t.nextKey then
    some ⟨t.rows.map (touch p f), t.nextKey, h.1, h.2, t.nextKey_pos⟩
  else none

theorem rows_update {t t' : Table R} {p : R → Bool} {f : R → R} (h : t.update p f = some t') :
    t'.rows = t.rows.map (touch p f) := by
  unfold update at h
  split at h
  · rw [← Option.some.inj h]
  · cases h

theorem mem_update {t t' : Table R} {p : R → Bool} {f : R → R} (h : t.update p f = some t')
    {r : R} : r ∈ t' ↔ ∃ x ∈ t, touch p f x = r := by
  rw [mem_def, rows_update h, List.mem_map]
  exact Iff.rfl

/-- An update that touches no key succeeds when the new rows do not clash. -/
theorem update_isSome {t : Table R} {p : R → Bool} {f : R → R} (hkey : ∀ r, key (f r) = key r)
    (hclash : ∀ a ∈ t, ∀ b ∈ t, key a ≠ key b → clash (touch p f a) (touch p f b) = false) :
    ∃ t', t.update p f = some t' := by
  have hk : ∀ r, key (touch p f r) = key r := by
    intro r
    unfold touch
    split
    · exact hkey r
    · rfl
  refine ⟨_, dif_pos ⟨?_, ?_⟩⟩
  · rw [List.pairwise_map]
    refine t.apart.imp_of_mem ?_
    intro a b ha hb h
    rw [hk, hk]
    exact ⟨h.1, hclash a ha b hb (ne_of_lt h.1)⟩
  · intro r hr
    obtain ⟨x, hx, rfl⟩ := List.mem_map.mp hr
    rw [hk]
    exact t.bounds x hx

/-- An update changes no key that the sequence knows of. -/
theorem nextKey_update {t t' : Table R} {p : R → Bool} {f : R → R} (h : t.update p f = some t') :
    t'.nextKey = t.nextKey := by
  unfold update at h
  split at h
  · rw [← Option.some.inj h]
  · cases h

/-- An update of rows that touches no key changes each row under its own key. -/
theorem get?_update {t t' : Table R} {p : R → Bool} {f : R → R} (h : t.update p f = some t')
    (hkey : ∀ r, key (f r) = key r) (k : Int) : t'.get? k = (t.get? k).map (touch p f) := by
  have hk : ∀ r, key (touch p f r) = key r := by
    intro r
    unfold touch
    split
    · exact hkey r
    · rfl
  apply Option.ext
  intro r
  rw [get?_eq_some, mem_update h, Option.map_eq_some_iff]
  constructor
  · rintro ⟨⟨x, hx, rfl⟩, he⟩
    exact ⟨x, get?_eq_some.mpr ⟨hx, by rw [← he, hk]⟩, rfl⟩
  · rintro ⟨x, hx, rfl⟩
    obtain ⟨hm, he⟩ := get?_eq_some.mp hx
    exact ⟨⟨x, hm, rfl⟩, by rw [hk, he]⟩

/-! ### What a write leaves alone -/

theorem select_delete_of_not {t : Table R} {p q : R → Bool}
    (h : ∀ r ∈ t, p r = true → q r = false) : (t.delete q).select p = t.select p := by
  show List.filter p (List.filter _ t.rows) = List.filter p t.rows
  rw [List.filter_filter]
  refine List.filter_congr fun r hr => ?_
  cases hp : p r with
  | false => rfl
  | true => rw [h r hr hp]; rfl

end Table
