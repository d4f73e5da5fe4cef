import AuthGateway.Lib.Runs
import Mathlib.Data.List.Count

/-!
# Codes that are good once

A holder is issued codes, a new issue replaces the one before, and the holder's
codes can be voided.  A code is spent at most as often as the issue has it.
`left` counts how often a holder can still spend a code, along a history;
`left_pos` reads it off the history: **the code is of the last issue, which was not
voided since, and was spent less often than issued**.
-/

namespace OneTimeCodes

variable {H C : Type} [DecidableEq H] [DecidableEq C]

inductive Event (H C : Type)
  | issued (h : H) (codes : List C)
  | voided (h : H)
  | spent (h : H) (c : C)
deriving DecidableEq

/-- The holder's codes are no longer those of the last issue. -/
def Event.Ends (h : H) : Event H C → Prop
  | .issued h' _ => h' = h
  | .voided h' => h' = h
  | .spent _ _ => False

/-- How often the code is left after an event. -/
def Event.count (h : H) (c : C) (n : Nat) : Event H C → Nat
  | .issued h' codes => if h' = h then codes.count c else n
  | .voided h' => if h' = h then 0 else n
  | .spent h' c' => if h' = h ∧ c' = c then n - 1 else n

/-- How often the holder can spend the code after a history. -/
def left (history : List (Event H C)) (h : H) (c : C) : Nat :=
  history.foldl (fun n e => e.count h c n) 0

/-- The holder has the code from the last issue, and has not spent it up. -/
def Outstanding (history : List (Event H C)) (h : H) (c : C) : Prop :=
  ∃ before codes after, history = before ++ .issued h codes :: after ∧
    (∀ e ∈ after, ¬ e.Ends h) ∧ after.count (.spent h c) < codes.count c

@[simp] theorem left_nil (h : H) (c : C) : left ([] : List (Event H C)) h c = 0 := rfl

@[simp] theorem left_snoc (history : List (Event H C)) (e : Event H C) (h : H) (c : C) :
    left (history ++ [e]) h c = e.count h c (left history h c) := by
  simp [left]

/-- What was voided is gone, and nothing else. -/
theorem left_voided (history : List (Event H C)) (voided : List H) (h : H) (c : C) :
    left (history ++ voided.map .voided) h c = if h ∈ voided then 0 else left history h c := by
  induction voided using List.reverseRecOn with
  | nil => simp
  | append_singleton voided h' ih =>
    rw [List.map_append, ← List.append_assoc, List.map_singleton, left_snoc, ih]
    by_cases hh : h' = h
    · simp [Event.count, hh]
    · simp [Event.count, hh, Ne.symm hh]

/-- What is left after an issue, as long as it lasts. -/
theorem left_issued (before after : List (Event H C)) (codes : List C) {h : H} {c : C}
    (hafter : ∀ e ∈ after, ¬ e.Ends h) :
    left (before ++ .issued h codes :: after) h c
      = codes.count c - after.count (.spent h c) := by
  induction after using List.reverseRecOn with
  | nil => simp [Event.count]
  | append_singleton after e ih =>
    have hrest : ∀ e ∈ after, ¬ e.Ends h := fun e he => hafter e (by simp [he])
    have hlast : ¬ e.Ends h := hafter e (by simp)
    rw [← List.cons_append, ← List.append_assoc, left_snoc, ih hrest, List.count_append]
    cases e with
    | issued h' codes' => simp [Event.count, show ¬ h' = h from hlast]
    | voided h' => simp [Event.count, show ¬ h' = h from hlast]
    | spent h' c' =>
      by_cases hspent : h' = h ∧ c' = c
      · obtain ⟨rfl, rfl⟩ := hspent
        simp [Event.count]
        omega
      · rw [Event.count, if_neg hspent, List.count_singleton, if_neg (by simpa using hspent)]
        rfl

theorem exists_issue_of_left {history : List (Event H C)} {h : H} {c : C}
    (hleft : 0 < left history h c) :
    ∃ before codes after, history = before ++ .issued h codes :: after ∧ ∀ e ∈ after, ¬ e.Ends h := by
  induction history using List.reverseRecOn with
  | nil => simp at hleft
  | append_singleton history e ih =>
    by_cases hends : e.Ends h
    · cases e with
      | issued h' codes =>
        obtain rfl : h' = h := hends
        exact ⟨history, codes, [], rfl, by simp⟩
      | voided h' => simp [Event.count, show h' = h from hends] at hleft
      | spent h' c' => exact absurd hends id
    · have hbefore : 0 < left history h c := by
        rw [left_snoc] at hleft
        cases e with
        | issued h' codes => simpa [Event.count, show ¬ h' = h from hends] using hleft
        | voided h' => simpa [Event.count, show ¬ h' = h from hends] using hleft
        | spent h' c' =>
          rw [Event.count] at hleft
          split at hleft
          · omega
          · exact hleft
      obtain ⟨before, codes, after, rfl, hafter⟩ := ih hbefore
      refine ⟨before, codes, after ++ [e], by simp, ?_⟩
      intro e' he'
      rcases List.mem_append.mp he' with he' | he'
      · exact hafter e' he'
      · obtain rfl : e' = e := by simpa using he'
        exact hends

/-- **What is left is outstanding.** -/
theorem left_pos {history : List (Event H C)} {h : H} {c : C} :
    0 < left history h c ↔ Outstanding history h c := by
  constructor
  · intro hleft
    obtain ⟨before, codes, after, rfl, hafter⟩ := exists_issue_of_left hleft
    rw [left_issued before after codes hafter] at hleft
    exact ⟨before, codes, after, rfl, hafter, by omega⟩
  · rintro ⟨before, codes, after, rfl, hafter, hcount⟩
    rw [left_issued before after codes hafter]
    omega

end OneTimeCodes
