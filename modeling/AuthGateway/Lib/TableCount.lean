import AuthGateway.Lib.Table
import Mathlib.Data.List.Count
import Mathlib.Data.List.Nodup

/-!
# Counting the rows of a table

How many rows meet a condition after a write, from how many met it before.  A
table holds no row twice, so the rows after a write are a permutation of the
rows before with one row put for another (`countP_put`) or one more
(`countP_create`).
-/

namespace Table

open Row

variable {R : Type} [Row R] {t t' : Table R}

theorem nodup (t : Table R) : t.rows.Nodup := by
  apply t.apart.imp
  rintro a b ⟨hlt, -⟩ rfl
  exact lt_irrefl _ hlt

/-- The rows of a table that has one more. -/
theorem perm_cons {r : R} (hr : r ∉ t) (h : ∀ x, x ∈ t' ↔ x = r ∨ x ∈ t) :
    t'.rows.Perm (r :: t.rows) := by
  apply (List.perm_ext_iff_of_nodup t'.nodup (List.nodup_cons.mpr ⟨hr, t.nodup⟩)).mpr
  intro x
  rw [List.mem_cons]
  exact h x

theorem countP_create {r r' : R} (h : t.create r = some (r', t')) (q : R → Bool) :
    t'.rows.countP q = t.rows.countP q + if q r' then 1 else 0 := by
  have hfresh : r' ∉ t := fun hr => create_fresh h r' hr rfl
  rw [(perm_cons hfresh fun _ => mem_create h).countP_eq q, List.countP_cons]

/-- **One row is put for another.** -/
theorem countP_put {r x : R} (h : t.put r = some t') (hx : x ∈ t) (hk : key x = key r)
    (q : R → Bool) :
    t'.rows.countP q + (if q x then 1 else 0) = t.rows.countP q + if q r then 1 else 0 := by
  -- what is left of both tables without the row
  have hold : ∀ y, y ∈ t ↔ y = x ∨ y ∈ t.delete fun y => decide (key y = key r) := by
    intro y
    rw [mem_delete, decide_eq_false_iff_not]
    constructor
    · intro hy
      by_cases hky : key y = key r
      · exact Or.inl (eq_of_key hy hx (hky.trans hk.symm))
      · exact Or.inr ⟨hy, hky⟩
    · rintro (rfl | ⟨hy, -⟩)
      · exact hx
      · exact hy
  have hnew : ∀ y, y ∈ t' ↔ y = r ∨ y ∈ t.delete fun y => decide (key y = key r) := by
    intro y
    rw [mem_put h, mem_delete, decide_eq_false_iff_not]
  have hxout : x ∉ t.delete fun y => decide (key y = key r) := by simp [hk]
  have hrout : r ∉ t.delete fun y => decide (key y = key r) := by simp
  rw [(perm_cons hrout hnew).countP_eq q, (perm_cons hxout hold).countP_eq q, List.countP_cons,
    List.countP_cons]
  omega

theorem countP_update {p : R → Bool} {f : R → R} (h : t.update p f = some t') (q : R → Bool) :
    t'.rows.countP q = t.rows.countP fun r => q (touch p f r) := by
  rw [rows_update h, List.countP_map]
  rfl

theorem countP_delete (t : Table R) (p q : R → Bool) :
    (t.delete p).rows.countP q = t.rows.countP fun r => q r && !p r :=
  List.countP_filter

end Table
