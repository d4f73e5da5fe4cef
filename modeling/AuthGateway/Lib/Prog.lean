import Mathlib.Logic.Function.Basic

/-!
# Programs over atomic operations

A program either returns a value or performs one atomic operation on a shared
store and continues with the answer.  `run` executes a program alone; a
`Config` holds one program for every thread, and `play` executes a schedule,
one atomic operation for each entry.  Both come from the same `exec`, so a
program written once has its sequential meaning and its interleavings.

`play_log` is the schedule with what was performed: it is the same execution,
and its log names for every step the thread and the operation.  `solo` says
that a thread scheduled without interruption computes what `run` computes.
-/

/-- A program: return, or perform `o` and continue with its answer. -/
inductive Prog (Op : Type) (Res : Op → Type) (α : Type) : Type
  | ret (a : α)
  | call (o : Op) (k : Res o → Prog Op Res α)

namespace Prog

variable {Op : Type} {Res : Op → Type} {α β γ S ι : Type}

/-! ### The monad of programs -/

protected def bind : Prog Op Res α → (α → Prog Op Res β) → Prog Op Res β
  | ret a, f => f a
  | call o k, f => call o (fun r => (k r).bind f)

instance : Monad (Prog Op Res) where
  pure := ret
  bind := Prog.bind

/-- One operation, whose answer is the result. -/
def perform (o : Op) : Prog Op Res (Res o) := call o ret

@[simp] theorem ret_bind (a : α) (f : α → Prog Op Res β) : (ret a >>= f) = f a := rfl

@[simp] theorem call_bind (o : Op) (k : Res o → Prog Op Res α) (f : α → Prog Op Res β) :
    (call o k >>= f) = call o (fun r => k r >>= f) := rfl

@[simp] theorem perform_bind (o : Op) (f : Res o → Prog Op Res β) :
    ((perform o : Prog Op Res (Res o)) >>= f) = call o f := rfl

theorem bind_ret (p : Prog Op Res α) : (p >>= ret) = p := by
  induction p with
  | ret a => rfl
  | call o k ih =>
    rw [call_bind]
    exact congrArg (call o) (funext ih)

theorem bind_assoc' (p : Prog Op Res α) (f : α → Prog Op Res β) (g : β → Prog Op Res γ) :
    (p >>= f >>= g) = (p >>= fun a => f a >>= g) := by
  induction p with
  | ret a => rfl
  | call o k ih =>
    rw [call_bind, call_bind, call_bind]
    exact congrArg (call o) (funext ih)

instance : LawfulMonad (Prog Op Res) :=
  LawfulMonad.mk' _ (fun p => bind_ret p) (fun _ _ => rfl) (fun p f g => bind_assoc' p f g)

/-! ### A program alone -/

variable (exec : (o : Op) → S → Res o × S)

/-- The sequential meaning: perform the operations in order. -/
def run : Prog Op Res α → S → α × S
  | ret a, s => (a, s)
  | call o k, s => run (k (exec o s).1) (exec o s).2

@[simp] theorem run_ret (a : α) (s : S) : run exec (ret a) s = (a, s) := rfl

@[simp] theorem run_pure (a : α) (s : S) : run exec (pure a) s = (a, s) := rfl

@[simp] theorem run_call (o : Op) (k : Res o → Prog Op Res α) (s : S) :
    run exec (call o k) s = run exec (k (exec o s).1) (exec o s).2 := rfl

@[simp] theorem run_perform (o : Op) (s : S) : run exec (perform o) s = exec o s := rfl

@[simp] theorem run_bind (p : Prog Op Res α) (f : α → Prog Op Res β) (s : S) :
    run exec (p >>= f) s = run exec (f (run exec p s).1) (run exec p s).2 := by
  induction p generalizing s with
  | ret a => rfl
  | call o k ih =>
    rw [call_bind, run_call, run_call]
    exact ih _ _

@[simp] theorem run_map (g : α → β) (p : Prog Op Res α) (s : S) :
    run exec (g <$> p) s = (g (run exec p s).1, (run exec p s).2) := by
  rw [map_eq_pure_bind, run_bind, run_pure]

/-- An invariant of every operation a program can perform is one of its run. -/
theorem run_invariant {P : S → Prop} (h : ∀ o s, P s → P (exec o s).2)
    (p : Prog Op Res α) {s : S} (hs : P s) : P (run exec p s).2 := by
  induction p generalizing s with
  | ret a => exact hs
  | call o k ih => exact ih _ (h o s hs)

/-! ### A program among more operations -/

/-- The program, each of its operations being one of a larger system. -/
def embed {Op' : Type} {Res' : Op' → Type} (e : Op → Op') (h : ∀ o, Res' (e o) → Res o) :
    Prog Op Res α → Prog Op' Res' α
  | ret a => ret a
  | call o k => call (e o) (fun r => (k (h o r)).embed e h)

section Embed

variable {Op' : Type} {Res' : Op' → Type} (e : Op → Op') (h : ∀ o, Res' (e o) → Res o)

@[simp] theorem embed_pure (a : α) : (pure a : Prog Op Res α).embed e h = pure a := rfl

@[simp] theorem embed_bind (p : Prog Op Res α) (f : α → Prog Op Res β) :
    (p >>= f).embed e h = p.embed e h >>= fun a => (f a).embed e h := by
  induction p with
  | ret a => rfl
  | call o k ih =>
    rw [call_bind, embed, embed, call_bind]
    exact congrArg (call (e o)) (funext fun r => ih (h o r))

/-- **A program runs on its part of a larger store.** -/
theorem run_embed {S' : Type} {exec : (o : Op) → S → Res o × S}
    {exec' : (o : Op') → S' → Res' o × S'} (view : S' → S) (put : S' → S → S')
    (hview : ∀ s t, view (put s t) = t) (hput : ∀ s, put s (view s) = s)
    (hputput : ∀ s t t', put (put s t) t' = put s t')
    (hexec : ∀ o s, h o (exec' (e o) s).1 = (exec o (view s)).1 ∧
      (exec' (e o) s).2 = put s (exec o (view s)).2) (p : Prog Op Res α) (s : S') :
    (p.embed e h).run exec' s = ((p.run exec (view s)).1, put s (p.run exec (view s)).2) := by
  induction p generalizing s with
  | ret a => rw [embed, run_ret, run_ret, hput]
  | call o k ih =>
    obtain ⟨hanswer, hstore⟩ := hexec o s
    rw [embed, run_call, run_call, ih, hanswer, hstore, hview, hputput]

end Embed

/-! ### Programs side by side -/

/-- One program for every thread, and the store they share. -/
structure Config (Op : Type) (Res : Op → Type) (α S ι : Type) where
  threads : ι → Prog Op Res α
  store : S

/-- What a step of thread `i` performs, if anything. -/
def performed (c : Config Op Res α S ι) (i : ι) : List (ι × Op) :=
  match c.threads i with
  | ret _ => []
  | call o _ => [(i, o)]

theorem performed_call {c : Config Op Res α S ι} {i : ι} {o : Op} {k : Res o → Prog Op Res α}
    (h : c.threads i = call o k) : performed c i = [(i, o)] := by
  rw [performed, h]

theorem performed_ret {c : Config Op Res α S ι} {i : ι} {a : α} (h : c.threads i = ret a) :
    performed c i = [] := by
  rw [performed, h]

variable [DecidableEq ι]

/-- One step of thread `i`: its next operation, performed atomically.  A thread
that has returned stays as it is. -/
def step (c : Config Op Res α S ι) (i : ι) : Config Op Res α S ι :=
  match c.threads i with
  | ret _ => c
  | call o k => ⟨Function.update c.threads i (k (exec o c.store).1), (exec o c.store).2⟩

/-- The execution of a schedule. -/
def play (c : Config Op Res α S ι) (sched : List ι) : Config Op Res α S ι :=
  sched.foldl (step exec) c

theorem step_ret {c : Config Op Res α S ι} {i : ι} {a : α} (h : c.threads i = ret a) :
    step exec c i = c := by
  rw [step, h]

theorem step_call {c : Config Op Res α S ι} {i : ι} {o : Op} {k : Res o → Prog Op Res α}
    (h : c.threads i = call o k) :
    step exec c i
      = ⟨Function.update c.threads i (k (exec o c.store).1), (exec o c.store).2⟩ := by
  rw [step, h]

@[simp] theorem play_nil (c : Config Op Res α S ι) : play exec c [] = c := rfl

@[simp] theorem play_cons (c : Config Op Res α S ι) (i : ι) (sched : List ι) :
    play exec c (i :: sched) = play exec (step exec c i) sched := rfl

theorem play_append (c : Config Op Res α S ι) (l₁ l₂ : List ι) :
    play exec c (l₁ ++ l₂) = play exec (play exec c l₁) l₂ := List.foldl_append

/-- The answer of a program that has returned. -/
def answer : Prog Op Res α → Option α
  | ret a => some a
  | call _ _ => none

@[simp] theorem answer_ret (a : α) : (ret a : Prog Op Res α).answer = some a := rfl

@[simp] theorem answer_call (o : Op) (k : Res o → Prog Op Res α) :
    (call o k).answer = none := rfl

theorem answer_eq_some {p : Prog Op Res α} {a : α} : p.answer = some a ↔ p = ret a := by
  cases p with
  | ret b => simp
  | call o k => simp

/-- A thread's own steps do not touch the others. -/
theorem step_threads_of_ne (c : Config Op Res α S ι) {i j : ι} (h : j ≠ i) :
    (step exec c i).threads j = c.threads j := by
  rw [step]
  cases c.threads i with
  | ret a => rfl
  | call o k => exact Function.update_of_ne h _ _

/-- **A thread scheduled alone computes what `run` computes.** -/
theorem solo (p : Prog Op Res α) (c : Config Op Res α S ι) (i : ι) (h : c.threads i = p) :
    ∃ n, play exec c (List.replicate n i)
      = ⟨Function.update c.threads i (ret (run exec p c.store).1), (run exec p c.store).2⟩ := by
  induction p generalizing c with
  | ret a =>
    refine ⟨0, ?_⟩
    rw [run_ret, ← h, Function.update_eq_self]
    rfl
  | call o k ih =>
    obtain ⟨n, hn⟩ := ih (exec o c.store).1
      ⟨Function.update c.threads i (k (exec o c.store).1), (exec o c.store).2⟩
      (Function.update_self _ _ _)
    refine ⟨n + 1, ?_⟩
    rw [List.replicate_succ, play_cons, step_call exec h, hn, run_call, Function.update_idem]

/-! ### The log of an execution -/

/-- The operations a schedule performs, in order, each with its thread. -/
def playLog (c : Config Op Res α S ι) : List ι → List (ι × Op)
  | [] => []
  | i :: sched => performed c i ++ playLog (step exec c i) sched

theorem playLog_append (c : Config Op Res α S ι) (l₁ l₂ : List ι) :
    playLog exec c (l₁ ++ l₂) = playLog exec c l₁ ++ playLog exec (play exec c l₁) l₂ := by
  induction l₁ generalizing c with
  | nil => rfl
  | cons i l₁ ih => simp only [List.cons_append, playLog, play_cons, ih, List.append_assoc]

theorem playLog_snoc (c : Config Op Res α S ι) (l : List ι) (i : ι) :
    playLog exec c (l ++ [i]) = playLog exec c l ++ performed (play exec c l) i := by
  rw [playLog_append, playLog, playLog, List.append_nil]

end Prog
