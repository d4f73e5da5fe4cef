import Mathlib.Data.List.Induction

/-!
# Runs of a system, with their history

A system is a step function `step : σ → α → σ`.  A run is a list of actions,
oldest first; `after step s₀ acts` is the state it ends in.  A statement about
what happened *earlier* in a run is `Earlier`, a condition on every step is
`Always`; both see the actions before the step, so a condition may speak of the
state before the step and of the whole history.

`run_induction` is the one induction: a property of histories that holds at the
start and survives every step meeting the condition holds after every run whose
steps all meet it.
-/

namespace Runs

variable {σ α : Type} (step : σ → α → σ) (s₀ : σ)

/-- The state after a run. -/
def after (acts : List α) : σ := acts.foldl step s₀

@[simp] theorem after_nil : after step s₀ [] = s₀ := rfl

@[simp] theorem after_snoc (acts : List α) (a : α) :
    after step s₀ (acts ++ [a]) = step (after step s₀ acts) a := by
  simp [after]

/-- Some step of the run was an `E`-step. -/
def Earlier (E : σ → α → Prop) (acts : List α) : Prop :=
  ∃ pre a post, acts = pre ++ a :: post ∧ E (after step s₀ pre) a

/-- Every step of the run meets `C`, which sees the actions before it. -/
def Always (C : List α → α → Prop) (acts : List α) : Prop :=
  ∀ pre a post, acts = pre ++ a :: post → C pre a

theorem eq_snoc_split {acts pre post : List α} {a b : α} (h : acts ++ [a] = pre ++ b :: post) :
    (acts = pre ∧ a = b ∧ post = []) ∨ ∃ post', post = post' ++ [a] ∧ acts = pre ++ b :: post' := by
  rcases List.eq_nil_or_concat post with rfl | ⟨post', c, rfl⟩
  · obtain ⟨h₁, h₂⟩ := List.append_inj' h rfl
    exact Or.inl ⟨h₁, by simpa using h₂, rfl⟩
  · rw [List.concat_eq_append, ← List.cons_append, ← List.append_assoc] at h
    obtain ⟨h₁, h₂⟩ := List.append_inj' h rfl
    obtain rfl : a = c := by simpa using h₂
    exact Or.inr ⟨post', by rw [List.concat_eq_append], h₁⟩

variable {step s₀}

theorem not_earlier_nil {E : σ → α → Prop} : ¬ Earlier step s₀ E [] := by
  rintro ⟨pre, a, post, h, -⟩
  simp at h

theorem earlier_snoc {E : σ → α → Prop} {acts : List α} {a : α} :
    Earlier step s₀ E (acts ++ [a]) ↔ Earlier step s₀ E acts ∨ E (after step s₀ acts) a := by
  constructor
  · rintro ⟨pre, b, post, h, hE⟩
    rcases eq_snoc_split h with ⟨rfl, rfl, -⟩ | ⟨post', -, h'⟩
    · exact Or.inr hE
    · exact Or.inl ⟨pre, b, post', h', hE⟩
  · rintro (⟨pre, b, post, rfl, hE⟩ | hE)
    · exact ⟨pre, b, post ++ [a], by simp, hE⟩
    · exact ⟨acts, a, [], rfl, hE⟩

theorem Earlier.mono {E F : σ → α → Prop} (hEF : ∀ s a, E s a → F s a) {acts : List α}
    (h : Earlier step s₀ E acts) : Earlier step s₀ F acts := by
  obtain ⟨pre, a, post, he, hE⟩ := h
  exact ⟨pre, a, post, he, hEF _ _ hE⟩

theorem always_nil {C : List α → α → Prop} : Always C [] := by
  intro pre a post h
  simp at h

theorem always_snoc {C : List α → α → Prop} {acts : List α} {a : α} :
    Always C (acts ++ [a]) ↔ Always C acts ∧ C acts a := by
  constructor
  · intro h
    refine ⟨fun pre b post he => h pre b (post ++ [a]) ?_, h acts a [] rfl⟩
    rw [he, List.append_assoc, List.cons_append]
  · rintro ⟨h, ha⟩ pre b post he
    rcases eq_snoc_split he with ⟨rfl, rfl, -⟩ | ⟨post', -, h'⟩
    · exact ha
    · exact h pre b post' h'

/-! ### The last step of a kind -/

variable (step s₀) in
/-- The last step of the run that was an `E j`-step for some `j` was an `E i`-step. -/
def Latest {ι : Type} (E : ι → σ → α → Prop) (i : ι) (acts : List α) : Prop :=
  ∃ pre a post, acts = pre ++ a :: post ∧ E i (after step s₀ pre) a ∧
    ∀ mid b rest, post = mid ++ b :: rest → ∀ j, ¬ E j (after step s₀ (pre ++ a :: mid)) b

theorem latest_of_step {ι : Type} {E : ι → σ → α → Prop} {i : ι} {acts : List α} {a : α}
    (h : E i (after step s₀ acts) a) : Latest step s₀ E i (acts ++ [a]) := by
  refine ⟨acts, a, [], rfl, h, ?_⟩
  intro mid b rest he
  simp at he

theorem latest_of_not_step {ι : Type} {E : ι → σ → α → Prop} {i : ι} {acts : List α} {a : α}
    (h : Latest step s₀ E i acts) (ha : ∀ j, ¬ E j (after step s₀ acts) a) :
    Latest step s₀ E i (acts ++ [a]) := by
  obtain ⟨pre, b, post, rfl, hb, hpost⟩ := h
  refine ⟨pre, b, post ++ [a], by simp, hb, ?_⟩
  intro mid c rest he
  rcases eq_snoc_split he with ⟨rfl, rfl, -⟩ | ⟨rest', -, he'⟩
  · exact ha
  · exact hpost mid c rest' he'

/-- **Induction along a run** whose steps all meet `C`. -/
theorem run_induction {C : List α → α → Prop} {P : List α → Prop} (h₀ : P [])
    (hstep : ∀ acts a, Always C acts → P acts → C acts a → P (acts ++ [a])) :
    ∀ acts, Always C acts → P acts := by
  intro acts
  induction acts using List.reverseRecOn with
  | nil => intro _; exact h₀
  | append_singleton acts a ih =>
    intro h
    obtain ⟨hacts, ha⟩ := always_snoc.mp h
    exact hstep acts a hacts (ih hacts) ha

theorem Always.of_append {C : List α → α → Prop} {acts rest : List α} (h : Always C (acts ++ rest)) :
    Always C acts := by
  intro pre a post he
  apply h pre a (post ++ rest)
  rw [he, List.append_assoc, List.cons_append]

/-- **A law of every step**, from what holds of the history before it. -/
theorem always_of_invariant {C D : List α → α → Prop} {P : List α → Prop} (h₀ : P [])
    (hstep : ∀ acts a, Always C acts → P acts → C acts a → P (acts ++ [a]))
    (hlaw : ∀ acts a, P acts → C acts a → D acts a) (acts : List α) (h : Always C acts) :
    Always D acts := by
  intro pre a post he
  rw [he] at h
  exact hlaw pre a (run_induction h₀ hstep pre h.of_append) (h pre a post rfl)

/-- An invariant of every step holds after every run. -/
theorem invariant {I : σ → Prop} (h₀ : I s₀) (hstep : ∀ s a, I s → I (step s a))
    (acts : List α) : I (after step s₀ acts) := by
  induction acts using List.reverseRecOn with
  | nil => exact h₀
  | append_singleton acts a ih =>
    rw [after_snoc]
    exact hstep _ _ ih

/-! ### What a run brings about -/

/-- What the steps of a run bring, one after the other. -/
def gather {β : Type} (step : σ → α → σ) (f : σ → α → List β) : σ → List α → List β
  | _, [] => []
  | s, a :: acts => f s a ++ gather step f (step s a) acts

theorem gather_snoc {β : Type} (f : σ → α → List β) (s : σ) (acts : List α) (a : α) :
    gather step f s (acts ++ [a]) = gather step f s acts ++ f (after step s acts) a := by
  induction acts generalizing s with
  | nil => simp [gather]
  | cons b acts ih =>
    have hafter : after step s (b :: acts) = after step (step s b) acts := rfl
    rw [List.cons_append, gather, gather, ih, List.append_assoc, hafter]

end Runs
