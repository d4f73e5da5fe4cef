import Mathlib.Data.List.Basic

/-!
# A chain of checks

A request passes the checks of a chain one after the other; each may refuse it,
and may leave something in the state for those behind it.  `made` are the checks
that are really made, each with the state that it meets.

**Whoever gets through has passed every check of the chain** (`passed_of_mem`),
and a part of the state that only some checks act on is what their acts make of
it (`part_run`).
-/

namespace Chain

variable {G S R : Type} (check : G → S → Option R × S)

/-- The checks, one after the other, until one refuses. -/
def run : List G → S → Option R × S
  | [], s => (none, s)
  | g :: gs, s =>
    match check g s with
    | (some refusal, s') => (some refusal, s')
    | (none, s') => run gs s'

/-- The checks that are made, and the states that they meet. -/
def made : List G → S → List (G × S)
  | [], _ => []
  | g :: gs, s => (g, s) ::
    match check g s with
    | (some _, _) => []
    | (none, s') => made gs s'

variable {check} {g : G} {gs : List G} {s : S}

@[simp] theorem run_nil : run check [] s = (none, s) := rfl

@[simp] theorem made_nil : made check [] s = [] := rfl

theorem run_cons_pass (h : (check g s).1 = none) :
    run check (g :: gs) s = run check gs (check g s).2 := by
  rw [run]
  generalize check g s = answer at h ⊢
  obtain ⟨refusal, s'⟩ := answer
  obtain rfl := h
  rfl

theorem run_cons_refuse {r : R} (h : (check g s).1 = some r) :
    run check (g :: gs) s = check g s := by
  rw [run]
  generalize check g s = answer at h ⊢
  obtain ⟨refusal, s'⟩ := answer
  obtain rfl := h
  rfl

theorem made_cons_pass (h : (check g s).1 = none) :
    made check (g :: gs) s = (g, s) :: made check gs (check g s).2 := by
  rw [made]
  generalize check g s = answer at h ⊢
  obtain ⟨refusal, s'⟩ := answer
  obtain rfl := h
  rfl

theorem made_cons_refuse {r : R} (h : (check g s).1 = some r) :
    made check (g :: gs) s = [(g, s)] := by
  rw [made]
  generalize check g s = answer at h ⊢
  obtain ⟨refusal, s'⟩ := answer
  obtain rfl := h
  rfl

/-- A chain is passed when its first check is, and the rest. -/
theorem run_cons_eq_none :
    (run check (g :: gs) s).1 = none ↔
      (check g s).1 = none ∧ (run check gs (check g s).2).1 = none := by
  cases h : (check g s).1 with
  | none => rw [run_cons_pass h, eq_self, true_and]
  | some r => simp [run_cons_refuse h, h]

/-- What every check keeps, the chain keeps. -/
theorem run_keeps {I : S → Prop} (hkeep : ∀ g ∈ gs, ∀ s, I s → I (check g s).2) (hs : I s) :
    I (run check gs s).2 := by
  induction gs generalizing s with
  | nil => exact hs
  | cons g gs ih =>
    have hfirst := hkeep g List.mem_cons_self s hs
    cases h : (check g s).1 with
    | none =>
      rw [run_cons_pass h]
      exact ih (fun g' hg' => hkeep g' (List.mem_cons_of_mem g hg')) hfirst
    | some r =>
      rw [run_cons_refuse h]
      exact hfirst

/-- **Whoever gets through has passed every check**, in a state with what all
checks keep. -/
theorem passed_of_mem {I : S → Prop} (hkeep : ∀ g ∈ gs, ∀ s, I s → I (check g s).2) (hs : I s)
    (hpass : (run check gs s).1 = none) (hg : g ∈ gs) : ∃ s', I s' ∧ (check g s').1 = none := by
  induction gs generalizing s with
  | nil => exact absurd hg List.not_mem_nil
  | cons g' gs ih =>
    obtain ⟨hfirst, hrest⟩ := run_cons_eq_none.mp hpass
    rcases List.mem_cons.mp hg with rfl | hg
    · exact ⟨s, hs, hfirst⟩
    · exact ih (fun g hg => hkeep g (List.mem_cons_of_mem g' hg))
        (hkeep g' List.mem_cons_self s hs) hrest hg

/-- **A part of the state** is what the acts of the checks that were made do to it. -/
theorem part_run {L A : Type} (part : S → L) (step : L → A → L) (act : G → Option A)
    (hact : ∀ g s, part (check g s).2 = (act g).toList.foldl step (part s)) (gs : List G) (s : S) :
    part (run check gs s).2
      = ((made check gs s).filterMap fun p => act p.1).foldl step (part s) := by
  induction gs generalizing s with
  | nil => rfl
  | cons g gs ih =>
    have hsplit : ∀ rest : List (G × S),
        (((g, s) :: rest).filterMap fun p => act p.1)
          = (act g).toList ++ rest.filterMap fun p => act p.1 := by
      intro rest
      cases h : act g with
      | none => rw [List.filterMap_cons_none (by simpa using h), Option.toList_none, List.nil_append]
      | some a =>
        rw [List.filterMap_cons_some (by simpa using h), Option.toList_some, List.singleton_append]
    cases h : (check g s).1 with
    | none => rw [run_cons_pass h, made_cons_pass h, hsplit, List.foldl_append, ih, hact]
    | some r =>
      rw [run_cons_refuse h, made_cons_refuse h, hsplit, List.foldl_append, hact]
      rfl

end Chain
