import Mathlib.Data.List.Count
import Mathlib.Data.List.Pairwise
import Mathlib.Algebra.Order.Ring.Int
import AuthGateway.Lib.Runs

/-!
# The sliding window, and a queue that is enough for it

A request at `now` passes when fewer than `n` of the requests that passed before
it lie in the window of `duration` that ends at `now`.  That speaks of the whole
history.

A queue of the newest `n` of them decides it (`passes_iff`): its length when it is
short, and its oldest entry when it is full.  What the queue must not have
forgotten is `Remembers`, and that is kept when a request passes and when a
queue is dropped that lies before every window to come.
-/

namespace SlidingWindow

/-- How many of the times lie in the window that ends at `now`. -/
def recent (duration now : Int) (times : List Int) : Nat :=
  times.countP fun t => decide (now - duration < t)

/-- The request at `now` may pass. -/
def Passes (n : Nat) (duration now : Int) (times : List Int) : Prop := recent duration now times < n

instance (n : Nat) (duration now : Int) (times : List Int) :
    Decidable (Passes n duration now times) := Nat.decLt _ _

/-- **The queue is the newest of the times**, at most `n`; it is short of `n` only
if what it has forgotten is not after `cutoff`. -/
structure Remembers (n : Nat) (cutoff : Int) (times queue : List Int) : Prop where
  sorted : times.Pairwise (· ≤ ·)
  length : queue.length ≤ n
  newest : ∃ forgotten, times = forgotten ++ queue ∧
    (queue.length < n → ∀ t ∈ forgotten, t ≤ cutoff)

variable {n : Nat} {cutoff : Int} {times queue : List Int}

theorem remembers_nil : Remembers n cutoff [] [] :=
  ⟨List.Pairwise.nil, Nat.zero_le n, [], rfl, fun _ _ ht => nomatch ht⟩

theorem Remembers.later (h : Remembers n cutoff times queue) {cutoff' : Int}
    (hle : cutoff ≤ cutoff') : Remembers n cutoff' times queue := by
  obtain ⟨forgotten, htimes, hold⟩ := h.newest
  refine ⟨h.sorted, h.length, forgotten, htimes, ?_⟩
  intro hshort t ht
  have hbefore := hold hshort t ht
  omega

theorem passes_of_short {duration now : Int}
    (h : Remembers n (now - duration) times queue) (hshort : queue.length < n) :
    Passes n duration now times := by
  obtain ⟨forgotten, htimes, hold⟩ := h.newest
  have hforgotten : recent duration now forgotten = 0 := by
    unfold recent
    rw [List.countP_eq_zero]
    intro t ht
    have hbefore := hold hshort t ht
    simp only [decide_eq_true_eq]
    omega
  have hqueue : recent duration now queue ≤ queue.length := List.countP_le_length
  have hsplit : recent duration now times
      = recent duration now forgotten + recent duration now queue := by
    unfold recent
    rw [htimes, List.countP_append]
  unfold Passes
  omega

/-- **The oldest entry of a full queue decides.** -/
theorem passes_iff_of_full {duration now oldest : Int} {newer : List Int}
    (h : Remembers n (now - duration) times (oldest :: newer))
    (hfull : (oldest :: newer).length = n) :
    Passes n duration now times ↔ duration ≤ now - oldest := by
  obtain ⟨forgotten, htimes, -⟩ := h.newest
  have hsorted := h.sorted
  rw [htimes, List.pairwise_append, List.pairwise_cons] at hsorted
  obtain ⟨-, ⟨hnewer, -⟩, hforgotten⟩ := hsorted
  have hsplit : recent duration now times = recent duration now forgotten
      + recent duration now (oldest :: newer) := by
    unfold recent
    rw [htimes, List.countP_append]
  constructor
  · intro hpasses
    by_contra hlate
    -- the oldest is recent, and so are all
    have hall : recent duration now (oldest :: newer) = (oldest :: newer).length := by
      unfold recent
      rw [List.countP_eq_length]
      intro t ht
      simp only [decide_eq_true_eq]
      rcases List.mem_cons.mp ht with rfl | ht
      · omega
      · have hafter := hnewer t ht
        omega
    unfold Passes at hpasses
    omega
  · intro hlate
    have hnone : recent duration now forgotten = 0 := by
      unfold recent
      rw [List.countP_eq_zero]
      intro t ht
      have hbefore := hforgotten t ht oldest List.mem_cons_self
      simp only [decide_eq_true_eq]
      omega
    have hrest : recent duration now (oldest :: newer) ≤ newer.length := by
      have hfirst : decide (now - duration < oldest) = false := by
        simp only [decide_eq_false_iff_not]
        omega
      unfold recent
      rw [List.countP_cons_of_neg (by simp [hfirst])]
      exact List.countP_le_length
    rw [List.length_cons] at hfull
    unfold Passes
    omega

/-- **The decision of the queue**: it is short, or its oldest entry has left the
window. -/
theorem passes_iff {duration now : Int} (h : Remembers n (now - duration) times queue) :
    Passes n duration now times ↔
      queue.length < n ∨ ∃ oldest newer, queue = oldest :: newer ∧ duration ≤ now - oldest := by
  constructor
  · intro hpasses
    by_cases hshort : queue.length < n
    · exact Or.inl hshort
    · have hfull : queue.length = n := le_antisymm h.length (not_lt.mp hshort)
      cases queue with
      | nil =>
        rw [← hfull] at hpasses
        exact absurd hpasses (Nat.not_lt_zero _)
      | cons oldest newer => exact Or.inr ⟨oldest, newer, rfl, (passes_iff_of_full h hfull).mp hpasses⟩
  · rintro (hshort | ⟨oldest, newer, rfl, hlate⟩)
    · exact passes_of_short h hshort
    · by_cases hshort : (oldest :: newer).length < n
      · exact passes_of_short h hshort
      · exact (passes_iff_of_full h (le_antisymm h.length (not_lt.mp hshort))).mpr hlate

/-! ### What keeps the queue right -/

theorem sorted_snoc {now : Int} (h : times.Pairwise (· ≤ ·)) (hnow : ∀ t ∈ times, t ≤ now) :
    (times ++ [now]).Pairwise (· ≤ ·) := by
  rw [List.pairwise_append]
  refine ⟨h, List.pairwise_singleton _ _, ?_⟩
  intro t ht x hx
  rw [List.mem_singleton.mp hx]
  exact hnow t ht

theorem Remembers.append {now : Int} (h : Remembers n cutoff times queue)
    (hnow : ∀ t ∈ times, t ≤ now) (hshort : queue.length < n) :
    Remembers n cutoff (times ++ [now]) (queue ++ [now]) := by
  obtain ⟨forgotten, htimes, hold⟩ := h.newest
  refine ⟨sorted_snoc h.sorted hnow, ?_, forgotten, ?_, fun _ => hold hshort⟩
  · simp only [List.length_append, List.length_singleton]
    omega
  · rw [htimes, List.append_assoc]

theorem Remembers.shift {now oldest : Int} {newer : List Int}
    (h : Remembers n cutoff times (oldest :: newer)) (hnow : ∀ t ∈ times, t ≤ now)
    (hfull : (oldest :: newer).length = n) :
    Remembers n cutoff (times ++ [now]) (newer ++ [now]) := by
  obtain ⟨forgotten, htimes, -⟩ := h.newest
  have hlength : (newer ++ [now]).length = n := by
    rw [← hfull]
    simp
  refine ⟨sorted_snoc h.sorted hnow, le_of_eq hlength, forgotten ++ [oldest], ?_, ?_⟩
  · rw [htimes]
    simp
  · intro hshort
    omega

theorem Remembers.le_last (h : Remembers n cutoff times queue) {last : Int}
    (hlast : queue.getLast? = some last) : ∀ t ∈ times, t ≤ last := by
  obtain ⟨forgotten, htimes, -⟩ := h.newest
  obtain ⟨earlier, hqueue⟩ := List.getLast?_eq_some_iff.mp hlast
  have hsorted := h.sorted
  rw [htimes, hqueue, ← List.append_assoc] at hsorted
  intro t ht
  rw [htimes, hqueue, ← List.append_assoc, List.mem_append, List.mem_singleton] at ht
  rcases ht with ht | rfl
  · exact (List.pairwise_append.mp hsorted).2.2 t ht last (by simp)
  · exact le_refl t

/-- A queue may be dropped that is out of every window to come. -/
theorem Remembers.drop (h : Remembers n cutoff times queue) {cutoff' : Int}
    (hold : ∀ t ∈ times, t ≤ cutoff') : Remembers n cutoff' times [] :=
  ⟨h.sorted, Nat.zero_le n, times, (List.append_nil times).symm, fun _ => hold⟩

/-! ### A list that holds the newest first -/

/-- **A request passes, and its time becomes the head of the list**; the `n`
newest entries are what counts. -/
theorem Remembers.push {now : Int} {entries : List Int} (hn : 1 ≤ n)
    (h : Remembers n cutoff times (entries.take n).reverse) (hnow : ∀ t ∈ times, t ≤ now) :
    Remembers n cutoff (times ++ [now]) ((now :: entries).take n).reverse := by
  obtain ⟨m, rfl⟩ : ∃ m, n = m + 1 := ⟨n - 1, by omega⟩
  rw [List.take_succ_cons, List.reverse_cons]
  by_cases hlong : m < entries.length
  · have hlast : entries.take (m + 1) = entries.take m ++ [entries[m]] :=
      List.take_succ_eq_append_getElem hlong
    rw [hlast, List.reverse_append, List.reverse_singleton, List.singleton_append] at h
    apply h.shift hnow
    simp only [List.length_cons, List.length_reverse, List.length_take]
    omega
  · have hall : entries.take (m + 1) = entries.take m := by
      rw [List.take_of_length_le (by omega), List.take_of_length_le (by omega)]
    rw [hall] at h
    apply h.append hnow
    simp only [List.length_reverse, List.length_take]
    omega

/-! ### What the window is for -/

/-- **No interval shorter than `duration` holds more than `n`**, when each passed
in the window of those before it. -/
theorem countP_interval_le {duration : Int}
    (h : Runs.Always (fun before t => Passes n duration t before) times) {first last : Int}
    (hshort : last - first < duration) :
    times.countP (fun t => decide (first ≤ t ∧ t ≤ last)) ≤ n := by
  induction times using List.reverseRecOn with
  | nil => exact Nat.zero_le n
  | append_singleton times now ih =>
    obtain ⟨hbefore, hnow⟩ := Runs.always_snoc.mp h
    rw [List.countP_append, List.countP_singleton]
    by_cases hin : first ≤ now ∧ now ≤ last
    · -- what lies in the interval before it lies in its window
      have hsub : times.countP (fun t => decide (first ≤ t ∧ t ≤ last))
          ≤ recent duration now times := by
        apply List.countP_mono_left
        intro t _ ht
        simp only [decide_eq_true_eq] at ht ⊢
        omega
      have hfew : recent duration now times < n := hnow
      rw [if_pos (decide_eq_true hin)]
      omega
    · rw [if_neg (by simpa using hin)]
      exact ih hbefore

end SlidingWindow
