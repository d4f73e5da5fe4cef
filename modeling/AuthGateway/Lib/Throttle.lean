import Mathlib.Data.List.Basic
import Mathlib.Algebra.Order.Ring.Int

/-!
# Attempt counters with a lock

A `Meter` counts failures.  From the `max`-th failure on, each one locks the
meter for `lockout`; while it is locked no failure is let through, and nothing
sets the counter back, so once a lock has run out the next failure locks again.

**Between two moments, at most `max` failures come through, and one more for
every `lockout` that lies between them** (`failures_le`).  The invariant is
`Spent`: after `n` failures, either `n < max`, or the lock that the last failure
set was set `(n - max) * lockout` after the beginning or later.
-/

/-- Failures so far, and the moment until which no more are let through. -/
structure Meter where
  attempts : Nat := 0
  lockedUntil : Option Int := none
deriving DecidableEq, Repr

namespace Meter

/-- The lock lies in the future. -/
def Locked (now : Int) (m : Meter) : Prop := ∃ l, m.lockedUntil = some l ∧ now < l

variable (max : Nat) (lockout : Int)

/-- The meter after a failure. -/
def fail (now : Int) (m : Meter) : Meter where
  attempts := m.attempts + 1
  lockedUntil := if max ≤ m.attempts + 1 then some (now + lockout) else m.lockedUntil

/-- What one moment does to a meter, and how many failures it lets through. -/
inductive Tick (now : Int) : Meter → Nat → Meter → Prop
  | idle {m : Meter} : Tick now m 0 m
  | failed {m : Meter} (h : ¬ m.Locked now) : Tick now m 1 (m.fail max lockout now)

/-- A list of moments, and how many failures come through. -/
inductive Run : Meter → List Int → Nat → Meter → Prop
  | nil {m : Meter} : Run m [] 0 m
  | cons {m m' m'' : Meter} {now : Int} {moments : List Int} {n k : Nat}
      (htick : Tick max lockout now m n m') (hrun : Run m' moments k m'') :
      Run m (now :: moments) (n + k) m''

/-- What `n` failures since `t₀` have cost, at `t₁` or before. -/
def Spent (t₀ t₁ : Int) (n : Nat) (m : Meter) : Prop :=
  n ≤ m.attempts ∧ (n < max ∨ ∃ last, last ≤ t₁ ∧ m.lockedUntil = some (last + lockout) ∧
    ((n : Int) - max) * lockout ≤ last - t₀)

variable {max : Nat} {lockout : Int}

theorem spent_tick {t₀ t₁ now : Int} (h₀ : t₀ ≤ now) (h₁ : now ≤ t₁)
    {m m' : Meter} {n k : Nat} (h : Spent max lockout t₀ t₁ n m)
    (htick : Tick max lockout now m k m') : Spent max lockout t₀ t₁ (n + k) m' := by
  cases htick with
  | idle => exact h
  | failed hfree =>
    obtain ⟨hcount, hspent⟩ := h
    have hattempts : n + 1 ≤ (m.fail max lockout now).attempts := Nat.succ_le_succ hcount
    by_cases hlt : n + 1 < max
    · exact ⟨hattempts, Or.inl hlt⟩
    have hlock : (m.fail max lockout now).lockedUntil = some (now + lockout) := by
      have hreached : max ≤ m.attempts + 1 := by omega
      exact if_pos hreached
    refine ⟨hattempts, Or.inr ⟨now, h₁, hlock, ?_⟩⟩
    rcases hspent with hfew | ⟨last, -, hlast, hcost⟩
    · -- the failure that reaches the limit
      have heq : ((n + 1 : Nat) : Int) - max = 0 := by omega
      rw [heq, zero_mul]
      exact sub_nonneg.mpr h₀
    · -- the lock of the one before has run out
      have hpast : last + lockout ≤ now := by
        by_contra hlt
        exact hfree ⟨last + lockout, hlast, not_le.mp hlt⟩
      have hsplit : ((n + 1 : Nat) : Int) - max = ((n : Int) - max) + 1 := by omega
      rw [hsplit, add_mul, one_mul]
      omega

theorem spent_run {t₀ t₁ : Int} {m m' : Meter} {moments : List Int} {n k : Nat}
    (htimes : ∀ now ∈ moments, t₀ ≤ now ∧ now ≤ t₁) (h : Spent max lockout t₀ t₁ n m)
    (hrun : Run max lockout m moments k m') : Spent max lockout t₀ t₁ (n + k) m' := by
  induction hrun generalizing n with
  | nil => exact h
  | cons htick _ ih =>
    obtain ⟨h₀, h₁⟩ := htimes _ List.mem_cons_self
    rw [← Nat.add_assoc]
    exact ih (fun now hnow => htimes now (List.mem_cons_of_mem _ hnow))
      (spent_tick h₀ h₁ h htick)

/-- **How many failures come through between two moments.** -/
theorem failures_le (hmax : 0 < max) (hlockout : 0 < lockout) {t₀ T : Int} (hT : 0 ≤ T)
    {m m' : Meter} {moments : List Int} {n : Nat}
    (htimes : ∀ now ∈ moments, t₀ ≤ now ∧ now ≤ t₀ + T) (hrun : Run max lockout m moments n m') :
    (n : Int) ≤ max + T / lockout := by
  have hstart : Spent max lockout t₀ (t₀ + T) 0 m := ⟨Nat.zero_le _, Or.inl hmax⟩
  have hend := spent_run htimes hstart hrun
  rw [Nat.zero_add] at hend
  have hnonneg : 0 ≤ T / lockout := Int.ediv_nonneg hT (le_of_lt hlockout)
  rcases hend.2 with hfew | ⟨last, hlast, -, hcost⟩
  · omega
  · have hle : (n : Int) - max ≤ T / lockout := by
      refine (Int.le_ediv_iff_mul_le hlockout).mpr ?_
      omega
    omega

end Meter
