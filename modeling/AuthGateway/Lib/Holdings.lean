import Mathlib.Algebra.BigOperators.Group.Finset.Basic
import Mathlib.Logic.Function.Basic
import Mathlib.Tactic.Abel

/-!
# What all threads hold together

The ghost state of a thread may say that it holds an amount: something it has
taken from one place and not yet brought to another.  `held` is what all threads
of a schedule hold together.  A step of one thread changes it by what that thread
holds more or less (`held_snoc`), so conservation is a statement about one step.
-/

namespace Holdings

variable {ι L M : Type} [DecidableEq ι] [AddCommGroup M]

/-- The amount that the threads of the schedule hold together. -/
def held (amount : L → M) (l : ι → L) (sched : List ι) : M := ∑ i ∈ sched.toFinset, amount (l i)

variable {amount : L → M} {l : ι → L} {sched : List ι} {i : ι}

@[simp] theorem held_nil : held amount l [] = 0 := by
  simp [held]

/-- A thread that held nothing before its first step adds nothing by it. -/
theorem held_idle (h : i ∉ sched → amount (l i) = 0) :
    held amount l (sched ++ [i]) = held amount l sched := by
  have hset : (sched ++ [i]).toFinset = insert i sched.toFinset := by
    ext j
    simp
  unfold held
  rw [hset]
  by_cases hi : i ∈ sched
  · rw [Finset.insert_eq_of_mem (List.mem_toFinset.mpr hi)]
  · rw [Finset.sum_insert (by simpa using hi), h hi, zero_add]

/-- **A step changes what its thread holds, and nothing else.** -/
theorem held_snoc (h : i ∉ sched → amount (l i) = 0) (x : L) :
    held amount (Function.update l i x) (sched ++ [i])
      = held amount l sched - amount (l i) + amount x := by
  have hi : i ∈ (sched ++ [i]).toFinset := by simp
  have hothers : ∑ j ∈ (sched ++ [i]).toFinset.erase i, amount (Function.update l i x j)
      = ∑ j ∈ (sched ++ [i]).toFinset.erase i, amount (l j) := by
    apply Finset.sum_congr rfl
    intro j hj
    rw [Function.update_of_ne (Finset.ne_of_mem_erase hj)]
  have hold := held_idle h
  unfold held at hold ⊢
  rw [← Finset.sum_erase_add _ _ hi] at hold
  rw [← Finset.sum_erase_add _ _ hi, hothers, Function.update_self, ← hold]
  abel

theorem held_eq_zero (h : ∀ i ∈ sched, amount (l i) = 0) : held amount l sched = 0 := by
  apply Finset.sum_eq_zero
  intro i hi
  exact h i (List.mem_toFinset.mp hi)

end Holdings
