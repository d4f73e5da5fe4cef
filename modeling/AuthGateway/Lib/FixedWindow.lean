import Mathlib.Data.List.Count
import Mathlib.Data.List.Flatten
import Mathlib.Data.List.Pairwise
import Mathlib.Algebra.Order.Ring.Int

/-!
# Two in a window that begins with the first

A window opens with an event, and takes in a second one if it comes before the
window is over; the next window opens with the first event after that.  So two
windows side by side may hold four events close together.

**No interval shorter than `duration` holds more than two events exactly when
the second events are `duration` apart** (`limited_iff`).
-/

namespace FixedWindow

variable {duration : Int}

/-- The event that opens the window, and the second one, if there is one. -/
structure Window (duration : Int) where
  opened : Int
  second : Option Int
  inside : ∀ t ∈ second, opened ≤ t ∧ t ≤ opened + duration

/-- The times of its events. -/
def Window.times (w : Window duration) : List Int := w.opened :: w.second.toList

/-- Every window is over when a later one opens. -/
def InTurn (ws : List (Window duration)) : Prop :=
  ws.Pairwise fun w w' => w.opened + duration < w'.opened

def times (ws : List (Window duration)) : List Int := ws.flatMap Window.times

def seconds (ws : List (Window duration)) : List Int := ws.flatMap fun w => w.second.toList

/-- **No interval shorter than `duration` holds more than `n` of the times.** -/
def Limited (n : Nat) (duration : Int) (times : List Int) : Prop :=
  ∀ first last : Int, last - first < duration →
    times.countP (fun t => decide (first ≤ t ∧ t ≤ last)) ≤ n

/-- Later times are `duration` later. -/
def Spaced (duration : Int) (times : List Int) : Prop :=
  times.Pairwise fun t t' => t + duration ≤ t'

theorem countP_le_one {l : List Int} (h : Spaced duration l) {first last : Int}
    (hshort : last - first < duration) :
    l.countP (fun t => decide (first ≤ t ∧ t ≤ last)) ≤ 1 := by
  induction l with
  | nil => simp
  | cons t l ih =>
    obtain ⟨hlater, hrest⟩ := List.pairwise_cons.mp h
    by_cases hin : first ≤ t ∧ t ≤ last
    · have hnone : l.countP (fun t => decide (first ≤ t ∧ t ≤ last)) = 0 := by
        rw [List.countP_eq_zero]
        intro t' ht'
        have hapart := hlater t' ht'
        simp only [decide_eq_true_eq]
        omega
      rw [List.countP_cons, hnone]
      simp [hin]
    · rw [List.countP_cons_of_neg (by simpa using hin)]
      exact ih hrest

/-- The events are those that open a window and the second ones. -/
theorem countP_times (p : Int → Bool) (ws : List (Window duration)) :
    (times ws).countP p = (ws.map Window.opened).countP p + (seconds ws).countP p := by
  induction ws with
  | nil => rfl
  | cons w ws ih =>
    have htimes : times (w :: ws) = w.opened :: (w.second.toList ++ times ws) := rfl
    have hseconds : seconds (w :: ws) = w.second.toList ++ seconds ws := rfl
    rw [htimes, hseconds, List.map_cons, List.countP_cons, List.countP_cons, List.countP_append,
      List.countP_append, ih]
    omega

theorem limited_of_spaced {ws : List (Window duration)} (h : InTurn ws)
    (hspaced : Spaced duration (seconds ws)) : Limited 2 duration (times ws) := by
  intro first last hshort
  have hopened : Spaced duration (ws.map Window.opened) := by
    unfold Spaced
    rw [List.pairwise_map]
    exact h.imp fun hw => by omega
  have hone := countP_le_one hopened hshort
  have hother := countP_le_one hspaced hshort
  rw [countP_times]
  omega

/-- Two second events that are too close, and the window that opened between them. -/
theorem three_between {w w' : Window duration} (h : w.opened + duration < w'.opened) {t t' : Int}
    (ht : t ∈ w.second) (ht' : t' ∈ w'.second) :
    3 ≤ (times [w, w']).countP (fun x => decide (t ≤ x ∧ x ≤ t')) := by
  have hin := w.inside t ht
  have hin' := w'.inside t' ht'
  have hsecond : w.second = some t := ht
  have hsecond' : w'.second = some t' := ht'
  have htimes : times [w, w'] = [w.opened, t, w'.opened, t'] := by
    simp [times, Window.times, hsecond, hsecond']
  have hsub : [t, w'.opened, t'].Sublist (times [w, w']) := by
    rw [htimes]
    exact List.sublist_cons_self _ _
  have hall : [t, w'.opened, t'].countP (fun x => decide (t ≤ x ∧ x ≤ t')) = 3 := by
    have hmid : t ≤ w'.opened ∧ w'.opened ≤ t' := by omega
    have hlast : t ≤ t' := by omega
    simp [hmid, hlast]
  rw [← hall]
  exact hsub.countP_le

theorem spaced_of_limited {ws : List (Window duration)} (h : InTurn ws)
    (hlimited : Limited 2 duration (times ws)) : Spaced duration (seconds ws) := by
  unfold Spaced seconds
  rw [List.pairwise_flatMap]
  constructor
  · intro w _
    cases w.second with
    | none => simp
    | some t => simp
  · rw [List.pairwise_iff_forall_sublist]
    intro w w' hsub t ht t' ht'
    by_contra hclose
    have hapart : w.opened + duration < w'.opened := List.pairwise_iff_forall_sublist.mp h hsub
    have hthree := three_between hapart (by simpa using ht) (by simpa using ht')
    have hmore : (times [w, w']).countP (fun x => decide (t ≤ x ∧ x ≤ t'))
        ≤ (times ws).countP (fun x => decide (t ≤ x ∧ x ≤ t')) :=
      (hsub.flatMap _).countP_le
    have hfew := hlimited t t' (by omega)
    omega

/-- **When windows in turn keep to two.** -/
theorem limited_iff {ws : List (Window duration)} (h : InTurn ws) :
    Limited 2 duration (times ws) ↔ Spaced duration (seconds ws) :=
  ⟨spaced_of_limited h, limited_of_spaced h⟩

end FixedWindow
