import AuthGateway.Lib.Runs
import Mathlib.Data.Option.Basic
import Mathlib.Logic.Function.Basic
import Mathlib.Order.Basic

/-!
# Entries that expire

A store keeps entries under keys, and an entry that has expired stays expired.
`latest` is the store as it should be: what was written last under a key.  A
store that also drops expired entries now and then is `Thinned`, and **a reader
that turns down what has expired cannot tell the two apart** (`Thinned.read`).

`latest_eq_some` says what the ideal store holds in terms of the writes alone,
and `latest_filter` that the writes under other keys do not count.
-/

namespace Expiry

variable {K V T : Type} [DecidableEq K]

/-! ### What was written last -/

/-- The store after some writes, oldest first; writing `none` deletes. -/
def latest (writes : List (K × Option V)) : K → Option V :=
  writes.foldl (fun s w => Function.update s w.1 w.2) fun _ => none

@[simp] theorem latest_nil (k : K) : latest ([] : List (K × Option V)) k = none := rfl

@[simp] theorem latest_snoc (writes : List (K × Option V)) (w : K × Option V) :
    latest (writes ++ [w]) = Function.update (latest writes) w.1 w.2 := by
  simp [latest]

/-- **An entry is there when it was written and its key not written since.** -/
theorem latest_eq_some {writes : List (K × Option V)} {k : K} {v : V} :
    latest writes k = some v
      ↔ ∃ before after, writes = before ++ (k, some v) :: after ∧ ∀ w ∈ after, w.1 ≠ k := by
  induction writes using List.reverseRecOn with
  | nil => simp
  | append_singleton writes w ih =>
    rw [latest_snoc]
    by_cases hk : k = w.1
    · rw [hk, Function.update_self]
      constructor
      · intro hw
        exact ⟨writes, [], by rw [← hw], by simp⟩
      · rintro ⟨before, after, he, hafter⟩
        rcases Runs.eq_snoc_split he with ⟨-, hw, -⟩ | ⟨after', rfl, -⟩
        · rw [hw]
        · exact absurd rfl (hafter w (by simp))
    · rw [Function.update_of_ne hk, ih]
      constructor
      · rintro ⟨before, after, rfl, hafter⟩
        refine ⟨before, after ++ [w], by simp, ?_⟩
        intro w' hw'
        rcases List.mem_append.mp hw' with hw' | hw'
        · exact hafter w' hw'
        · obtain rfl : w' = w := by simpa using hw'
          exact Ne.symm hk
      · rintro ⟨before, after, he, hafter⟩
        rcases Runs.eq_snoc_split he with ⟨-, hw, -⟩ | ⟨after', rfl, he'⟩
        · rw [hw] at hk
          exact absurd rfl hk
        · exact ⟨before, after', he', fun w' hw' => hafter w' (by simp [hw'])⟩

/-- Only the writes under a key decide what is under it. -/
theorem latest_filter (writes : List (K × Option V)) (k : K) :
    latest (writes.filter fun w => decide (w.1 = k)) k = latest writes k := by
  induction writes using List.reverseRecOn with
  | nil => rfl
  | append_singleton writes w ih =>
    rw [List.filter_append, latest_snoc]
    by_cases hk : w.1 = k
    · subst hk
      simp
    · rw [Function.update_of_ne (Ne.symm hk), ← ih]
      simp [hk]

/-! ### A store that drops what has expired -/

variable [Preorder T] (expired : T → V → Bool)

/-- What has expired stays so. -/
def Lasting : Prop := ∀ ⦃now later : T⦄ ⦃v : V⦄, now ≤ later → expired now v = true →
  expired later v = true

/-- The real store holds what the ideal one does, less some entries that have expired. -/
def Thinned (now : T) (ideal real : K → Option V) : Prop :=
  ∀ k, real k = ideal k ∨ real k = none ∧ ∃ v, ideal k = some v ∧ expired now v = true

variable {expired} {now : T} {ideal real : K → Option V}

omit [DecidableEq K] in
theorem Thinned.later (hlasting : Lasting expired) (h : Thinned expired now ideal real)
    {later : T} (hle : now ≤ later) : Thinned expired later ideal real := by
  intro k
  rcases h k with hk | ⟨hnone, v, hv, hexpired⟩
  · exact Or.inl hk
  · exact Or.inr ⟨hnone, v, hv, hlasting hle hexpired⟩

omit [Preorder T] in
/-- The same write to both stores. -/
theorem Thinned.update (h : Thinned expired now ideal real) (k : K) (e : Option V) :
    Thinned expired now (Function.update ideal k e) (Function.update real k e) := by
  intro k'
  by_cases hk : k' = k
  · subst hk
    simp
  · rw [Function.update_of_ne hk, Function.update_of_ne hk]
    exact h k'

omit [DecidableEq K] [Preorder T] in
/-- What has expired is dropped. -/
theorem Thinned.sweep (h : Thinned expired now ideal real) :
    Thinned expired now ideal fun k => (real k).filter fun v => !expired now v := by
  intro k
  rcases h k with hk | ⟨hnone, hgone⟩
  · cases hv : ideal k with
    | none =>
      left
      simp [hk, hv]
    | some v =>
      cases hexpired : expired now v with
      | false =>
        left
        simp [hk, hv, hexpired]
      | true =>
        right
        exact ⟨by simp [hk, hv, hexpired], v, rfl, hexpired⟩
  · right
    exact ⟨by simp [hnone], hgone⟩

omit [DecidableEq K] [Preorder T] in
/-- **A reader that turns down what has expired sees the ideal store.** -/
theorem Thinned.read (h : Thinned expired now ideal real) {accept : V → Bool}
    (haccept : ∀ v, expired now v = true → accept v = false) (k : K) :
    (real k).any accept = (ideal k).any accept := by
  rcases h k with hk | ⟨hnone, v, hv, hexpired⟩
  · rw [hk]
  · rw [hnone, hv, Option.any_some, haccept v hexpired]
    rfl

end Expiry
