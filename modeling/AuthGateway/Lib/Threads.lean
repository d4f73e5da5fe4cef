import AuthGateway.Lib.Hoare
import AuthGateway.Lib.Runs

/-!
# Threads with a ghost state

What a thread knows, and what it may do next, is a ghost state that no program
carries.  `next l s o l'` says that a thread in the ghost state `l` may perform
`o` on the store `s`, and is in `l'` after the answer.  `Follows next fin p l`
says that `p` does so from `l` on **whatever the others do to the store between
its operations**, and answers within `fin`.

It is proved for a program alone, along its text (`Follows.bind`,
`Follows.perform_bind`, `Follows.of_only`).  `ghost_run` is what it is for: an
invariant of the ghost states and the history holds after every schedule when
each operation keeps it.
-/

namespace Prog

variable {Op : Type} {Res : Op → Type} {α β S L ι : Type}
variable (exec : (o : Op) → S → Res o × S)
variable (next : L → S → Op → L → Prop)

/-- From the ghost state `l`, the program performs what `next` allows. -/
def Follows (fin : L → α → Prop) : Prog Op Res α → L → Prop
  | ret a, l => fin l a
  | call o k, l => ∀ s, ∃ l', next l s o l' ∧ Follows fin (k (exec o s).1) l'

variable {exec next}

theorem Follows.pure {fin : L → α → Prop} {a : α} {l : L} (h : fin l a) :
    Follows exec next fin (Pure.pure a) l := h

theorem Follows.perform_bind {fin : L → β → Prop} {o : Op} {f : Res o → Prog Op Res β} {l : L}
    (h : ∀ s, ∃ l', next l s o l' ∧ Follows exec next fin (f (exec o s).1) l') :
    Follows exec next fin ((perform o : Prog Op Res (Res o)) >>= f) l := h

theorem Follows.bind {p : Prog Op Res α} {f : α → Prog Op Res β} {fin : L → α → Prop}
    {fin' : L → β → Prop} {l : L} (h : Follows exec next fin p l)
    (hf : ∀ a l', fin l' a → Follows exec next fin' (f a) l') :
    Follows exec next fin' (p >>= f) l := by
  induction p generalizing l with
  | ret a => exact hf a l h
  | call o k ih =>
    intro s
    obtain ⟨l', hnext, hk⟩ := h s
    exact ⟨l', hnext, ih _ hk⟩

theorem Follows.mono {p : Prog Op Res α} {fin fin' : L → α → Prop} {l : L}
    (h : Follows exec next fin p l) (hfin : ∀ l' a, fin l' a → fin' l' a) :
    Follows exec next fin' p l := by
  induction p generalizing l with
  | ret a => exact hfin l a h
  | call o k ih =>
    intro s
    obtain ⟨l', hnext, hk⟩ := h s
    exact ⟨l', hnext, ih _ hk⟩

/-- A program of operations that leave the ghost state leaves it. -/
theorem Follows.of_only {P : Op → Prop} {p : Prog Op Res α} {l : L} (hp : Only P p)
    (h : ∀ s o, P o → next l s o l) : Follows exec next (fun l' _ => l' = l) p l := by
  induction p with
  | ret a => exact rfl
  | call o k ih =>
    obtain ⟨ho, hk⟩ := hp.of_call
    exact fun s => ⟨l, h s o ho, ih _ (hk _)⟩

/-! ### Configurations -/

variable [DecidableEq ι]

theorem follows_step {fin : L → α → Prop} {c : Config Op Res α S ι} {l : ι → L}
    (h : ∀ j, Follows exec next fin (c.threads j) (l j)) (i : ι) :
    (∃ a, c.threads i = ret a) ∨ ∃ o k l', c.threads i = call o k ∧ next (l i) c.store o l' ∧
      ∀ j, Follows exec next fin ((step exec c i).threads j) (Function.update l i l' j) := by
  cases hi : c.threads i with
  | ret a => exact Or.inl ⟨a, rfl⟩
  | call o k =>
    have hself := h i
    rw [hi] at hself
    obtain ⟨l', hnext, hk⟩ := hself c.store
    refine Or.inr ⟨o, k, l', rfl, hnext, fun j => ?_⟩
    by_cases hj : j = i
    · rw [hj, step_call exec hi, Function.update_self]
      show Follows exec next fin (Function.update c.threads i _ i) l'
      rw [Function.update_self]
      exact hk
    · rw [step_threads_of_ne exec c hj, Function.update_of_ne hj]
      exact h j

/-- **An invariant of the ghost states and the history** holds after every
schedule whose steps all meet `C`; each step knows that all threads follow their
ghost states, before it and after it. -/
theorem ghost_run_following {fin : L → α → Prop} {c : Config Op Res α S ι} {l₀ : ι → L}
    {C : List ι → ι → Prop} {I : List ι → (ι → L) → Prop}
    (h₀ : ∀ j, Follows exec next fin (c.threads j) (l₀ j)) (hI : I [] l₀)
    (hidle : ∀ pre i l a, I pre l → (play exec c pre).threads i = ret a → I (pre ++ [i]) l)
    (hstep : ∀ pre i l o k l', (∀ j, Follows exec next fin ((play exec c pre).threads j) (l j)) →
      (∀ j, Follows exec next fin ((step exec (play exec c pre) i).threads j)
        (Function.update l i l' j)) →
      I pre l → C pre i → (play exec c pre).threads i = call o k →
      next (l i) (play exec c pre).store o l' → I (pre ++ [i]) (Function.update l i l')) :
    ∀ sched, Runs.Always C sched →
      ∃ l, (∀ j, Follows exec next fin ((play exec c sched).threads j) (l j)) ∧ I sched l := by
  refine Runs.run_induction ⟨l₀, h₀, hI⟩ ?_
  rintro pre i - ⟨l, hfollows, hinv⟩ hC
  rw [play_append, play_cons, play_nil]
  rcases follows_step hfollows i with ⟨a, hi⟩ | ⟨o, k, l', hi, hnext, hfollows'⟩
  · rw [step_ret exec hi]
    exact ⟨l, hfollows, hidle pre i l a hinv hi⟩
  · exact ⟨_, hfollows', hstep pre i l o k l' hfollows hfollows' hinv hC hi hnext⟩

theorem ghost_run {fin : L → α → Prop} {c : Config Op Res α S ι} {l₀ : ι → L}
    {C : List ι → ι → Prop} {I : List ι → (ι → L) → Prop}
    (h₀ : ∀ j, Follows exec next fin (c.threads j) (l₀ j)) (hI : I [] l₀)
    (hidle : ∀ pre i l a, I pre l → (play exec c pre).threads i = ret a → I (pre ++ [i]) l)
    (hstep : ∀ pre i l o k l', I pre l → C pre i → (play exec c pre).threads i = call o k →
      next (l i) (play exec c pre).store o l' → I (pre ++ [i]) (Function.update l i l')) :
    ∀ sched, Runs.Always C sched →
      ∃ l, (∀ j, Follows exec next fin ((play exec c sched).threads j) (l j)) ∧ I sched l :=
  ghost_run_following h₀ hI hidle fun pre i l o k l' _ _ => hstep pre i l o k l'

/-- **What every operation of every program keeps** holds after every schedule. -/
theorem play_invariant {P : Op → Prop} {I : S → Prop} (hkeep : ∀ o s, P o → I s → I (exec o s).2)
    {c : Config Op Res α S ι} (hc : ∀ i, Only P (c.threads i)) (h : I c.store) (sched : List ι) :
    I (play exec c sched).store := by
  have hboth : (∀ i, Only P ((play exec c sched).threads i)) ∧ I (play exec c sched).store := by
    induction sched using List.reverseRecOn with
    | nil => exact ⟨hc, h⟩
    | append_singleton sched i ih =>
      obtain ⟨honly, hinv⟩ := ih
      rw [play_append, play_cons, play_nil]
      cases hi : (play exec c sched).threads i with
      | ret a =>
        rw [step_ret exec hi]
        exact ⟨honly, hinv⟩
      | call o k =>
        have hcall := honly i
        rw [hi] at hcall
        obtain ⟨ho, hk⟩ := hcall.of_call
        rw [step_call exec hi]
        refine ⟨fun j => ?_, hkeep o _ ho hinv⟩
        dsimp only
        by_cases hj : j = i
        · rw [hj, Function.update_self]
          exact hk _
        · rw [Function.update_of_ne hj]
          exact honly j
  exact hboth.2

/-- **What only some steps can break** stands as long as none of them is taken. -/
theorem play_keeps {P : S → Prop} {B : Config Op Res α S ι → ι → Prop}
    (hstep : ∀ c i, P c.store → ¬ B c i → P (step exec c i).store) {c : Config Op Res α S ι}
    {pre since : List ι} (h : P (play exec c pre).store)
    (hnone : ∀ mid j rest, since = mid ++ j :: rest → ¬ B (play exec c (pre ++ mid)) j) :
    P (play exec c (pre ++ since)).store := by
  induction since using List.reverseRecOn with
  | nil =>
    rw [List.append_nil]
    exact h
  | append_singleton since j ih =>
    have hbefore : P (play exec c (pre ++ since)).store := by
      apply ih
      intro mid k rest he
      exact hnone mid k (rest ++ [j]) (by rw [he]; simp)
    rw [← List.append_assoc, play_append, play_cons, play_nil]
    exact hstep _ _ hbefore (hnone since j [] rfl)

end Prog
