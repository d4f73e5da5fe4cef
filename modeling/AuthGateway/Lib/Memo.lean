import Mathlib.Logic.Function.Basic

/-!
# A memo table

`fetch` looks an argument up under its key; on a miss it computes the value and
notes it, unless there is none.  A table that was only filled by fetches of `xs`
(`Filled`) holds under each key the value of some argument of `xs` with that key.

**A fetch gives the argument's own value as soon as the arguments of one key have
one value** (`Filled.fetch_eq`); an entry never changes (`fetch_keeps`).
-/

namespace Memo

/-- The entries, by key. -/
abbrev Table (κ β : Type) := κ → Option β

variable {α κ β : Type} (key : α → κ) (f : α → Option β)

def fetch [DecidableEq κ] (t : Table κ β) (x : α) : Option β × Table κ β :=
  match t (key x) with
  | some m => (some m, t)
  | none =>
    match f x with
    | some m => (some m, Function.update t (key x) (some m))
    | none => (none, t)

/-- Every entry is the value of one of the arguments `xs`. -/
def Filled (xs : α → Prop) (t : Table κ β) : Prop :=
  ∀ k m, t k = some m → ∃ x, xs x ∧ key x = k ∧ f x = some m

variable {key f} {xs : α → Prop} {t : Table κ β} {x : α}

theorem filled_empty : Filled key f xs fun _ => none := by
  intro k m h
  simp at h

variable [DecidableEq κ]

theorem fetch_hit {m : β} (h : t (key x) = some m) : fetch key f t x = (some m, t) := by
  simp [fetch, h]

theorem fetch_miss {m : β} (h : t (key x) = none) (hf : f x = some m) :
    fetch key f t x = (some m, Function.update t (key x) (some m)) := by
  simp [fetch, h, hf]

theorem fetch_fail (h : t (key x) = none) (hf : f x = none) : fetch key f t x = (none, t) := by
  simp [fetch, h, hf]

theorem Filled.fetch (h : Filled key f xs t) (hx : xs x) : Filled key f xs (fetch key f t x).2 := by
  cases ht : t (key x) with
  | some m =>
    rw [fetch_hit ht]
    exact h
  | none =>
    cases hf : f x with
    | none =>
      rw [fetch_fail ht hf]
      exact h
    | some m =>
      rw [fetch_miss ht hf]
      intro k m' hm'
      change Function.update t (key x) (some m) k = some m' at hm'
      by_cases hk : k = key x
      · subst hk
        rw [Function.update_self] at hm'
        exact ⟨x, hx, rfl, by rw [hf, hm']⟩
      · rw [Function.update_of_ne hk] at hm'
        exact h k m' hm'

/-- **The value fetched is the argument's own**, when arguments of its key agree with it. -/
theorem Filled.fetch_eq (h : Filled key f xs t) (hagree : ∀ y, xs y → key y = key x → f y = f x) :
    (Memo.fetch key f t x).1 = f x := by
  cases ht : t (key x) with
  | some m =>
    rw [fetch_hit ht]
    obtain ⟨y, hy, hkey, hfy⟩ := h _ _ ht
    rw [← hagree y hy hkey, hfy]
  | none =>
    cases hf : f x with
    | none => rw [fetch_fail ht hf]
    | some m => rw [fetch_miss ht hf]

theorem fetch_keeps {k : κ} {m : β} (h : t k = some m) : (fetch key f t x).2 k = some m := by
  cases ht : t (key x) with
  | some m' =>
    rw [fetch_hit ht]
    exact h
  | none =>
    cases hf : f x with
    | none =>
      rw [fetch_fail ht hf]
      exact h
    | some m' =>
      have hk : k ≠ key x := by
        intro he
        rw [he, ht] at h
        simp at h
      rw [fetch_miss ht hf]
      show Function.update t (key x) (some m') k = some m
      rw [Function.update_of_ne hk, h]

/-- What was fetched is in the table. -/
theorem fetch_noted {m : β} (h : (fetch key f t x).1 = some m) :
    (fetch key f t x).2 (key x) = some m := by
  cases ht : t (key x) with
  | some m' =>
    rw [fetch_hit ht] at h ⊢
    show t (key x) = some m
    rw [ht]
    exact h
  | none =>
    cases hf : f x with
    | none =>
      rw [fetch_fail ht hf] at h
      simp at h
    | some m' =>
      rw [fetch_miss ht hf] at h ⊢
      show Function.update t (key x) (some m') (key x) = some m
      rw [Function.update_self]
      exact h

end Memo
