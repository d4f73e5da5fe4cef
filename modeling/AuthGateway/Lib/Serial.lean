import AuthGateway.Lib.Runs
import AuthGateway.Lib.Threads

/-!
# Schedules that are as good as serial

`serial c order s` performs the programs of some threads one after the other.  A
schedule is `Orderly` when a thread that does not end with its first operation
begins only while no other thread is under way.

A thread may keep parts of the store to itself until its last operation: `Until P`
says that every operation of a program but the last is in `P`, and what `P`
leaves is the `view`.  Threads that end with their first operation, and only look
at the view, may come at any moment.

**An orderly schedule has the answers and the store of a serial order**
(`serial_of_orderly`).  The invariant is `Stage`: the store is that of a serial
order, or one thread is under way from there.
-/

namespace Prog

variable {Op : Type} {Res : Op → Type} {α S V ι : Type}
variable (exec : (o : Op) → S → Res o × S)

/-- The store after the programs of these threads, one after the other. -/
def serial (c : Config Op Res α S ι) (order : List ι) (s : S) : S :=
  order.foldl (fun s i => (run exec (c.threads i) s).2) s

@[simp] theorem serial_nil (c : Config Op Res α S ι) (s : S) : serial exec c [] s = s := rfl

@[simp] theorem serial_snoc (c : Config Op Res α S ι) (order : List ι) (i : ι) (s : S) :
    serial exec c (order ++ [i]) s = (run exec (c.threads i) (serial exec c order s)).2 := by
  simp [serial]

/-- Every operation of the program, but for the last, is in `P`. -/
inductive Until (P : Op → Prop) : Prog Op Res α → Prop
  | ret {a : α} : Until P (ret a)
  | call {o : Op} {k : Res o → Prog Op Res α} (h : P o ∨ ∀ r, ∃ a, k r = ret a)
      (hk : ∀ r, Until P (k r)) : Until P (call o k)

theorem Until.of_only {P : Op → Prop} {p : Prog Op Res α} (h : Only P p) : Until P p := by
  induction h with
  | ret => exact .ret
  | call ho _ ih => exact .call (Or.inl ho) ih

theorem Until.of_call {P : Op → Prop} {o : Op} {k : Res o → Prog Op Res α}
    (h : Until P (Prog.call o k)) : (P o ∨ ∀ r, ∃ a, k r = .ret a) ∧ ∀ r, Until P (k r) := by
  cases h with
  | call h hk => exact ⟨h, hk⟩

theorem Until.bind_only {β : Type} {P : Op → Prop} {p : Prog Op Res α} {f : α → Prog Op Res β}
    (h : Only P p) (hf : ∀ a, Until P (f a)) : Until P (p >>= f) := by
  induction h with
  | ret => exact hf _
  | call ho _ ih => exact .call (Or.inl ho) ih

/-- What only computes after the last operation leaves it the last. -/
theorem Until.bind_pure {β : Type} {P : Op → Prop} {p : Prog Op Res α} {f : α → Prog Op Res β}
    (h : Until P p) (hf : ∀ a, ∃ b, f a = .ret b) : Until P (p >>= f) := by
  induction h with
  | @ret a =>
    obtain ⟨b, hb⟩ := hf a
    show Until P (f a)
    rw [hb]
    exact .ret
  | call ho _ ih =>
    refine .call ?_ ih
    rcases ho with ho | hlast
    · exact Or.inl ho
    · refine Or.inr fun r => ?_
      obtain ⟨a, ha⟩ := hlast r
      obtain ⟨b, hb⟩ := hf a
      refine ⟨b, ?_⟩
      rw [ha]
      exact hb

theorem Until.last {β : Type} {P : Op → Prop} (o : Op) {f : Res o → Prog Op Res β}
    (hf : ∀ r, ∃ b, f r = .ret b) : Until P ((perform o : Prog Op Res (Res o)) >>= f) := by
  refine .call (Or.inr hf) fun r => ?_
  obtain ⟨b, hb⟩ := hf r
  show Until P (f r)
  rw [hb]
  exact .ret

variable [DecidableEq ι]

/-- The thread has performed a step and has not returned. -/
def UnderWay (c : Config Op Res α S ι) (pre : List ι) (i : ι) : Prop :=
  i ∈ pre ∧ ((play exec c pre).threads i).answer = none

/-- **A thread that does not end with its first step begins only while no other
is under way.** -/
def Orderly (c : Config Op Res α S ι) (pre : List ι) (i : ι) : Prop :=
  i ∉ pre → ((play exec c (pre ++ [i])).threads i).answer ≠ none ∨ ∀ j, ¬ UnderWay exec c pre j

/-- The answers and the store are those of the threads of `order`, in turn. -/
structure SerialAs (c : Config Op Res α S ι) (pre order : List ι) : Prop where
  nodup : order.Nodup
  scheduled : ∀ i ∈ order, i ∈ pre
  answers : ∀ before i after, order = before ++ i :: after →
    (play exec c pre).threads i = ret (run exec (c.threads i) (serial exec c before c.store)).1

/-- Where a schedule stands: at a serial order, or on the way to the next. -/
inductive Stage (view : S → V) (c : Config Op Res α S ι) (pre order : List ι) : Prop
  | rest (hall : ∀ i ∈ pre, i ∈ order)
      (hstore : (play exec c pre).store = serial exec c order c.store)
  | moving (x : ι) (hx : x ∉ order) (hpre : x ∈ pre)
      (hall : ∀ i ∈ pre, i ∈ order ∨ i = x)
      (hgoing : ((play exec c pre).threads x).answer = none)
      (hrun : run exec (c.threads x) (serial exec c order c.store)
        = run exec ((play exec c pre).threads x) (play exec c pre).store)
      (hview : view (play exec c pre).store = view (serial exec c order c.store))

variable {exec}

theorem answer_ne_none {p : Prog Op Res α} (h : p.answer ≠ none) : ∃ a, p = ret a := by
  cases p with
  | ret a => exact ⟨a, rfl⟩
  | call o k => exact absurd rfl h

theorem threads_of_not_mem (c : Config Op Res α S ι) {pre : List ι} {i : ι} (h : i ∉ pre) :
    (play exec c pre).threads i = c.threads i := by
  induction pre using List.reverseRecOn with
  | nil => rfl
  | append_singleton pre j ih =>
    rw [List.mem_append, List.mem_singleton, not_or] at h
    rw [play_append, play_cons, play_nil, step_threads_of_ne exec _ h.2]
    exact ih h.1

theorem threads_of_ret {c : Config Op Res α S ι} {pre : List ι} {i : ι} {a : α}
    (h : (play exec c pre).threads i = ret a) (j : ι) :
    (play exec c (pre ++ [j])).threads i = ret a := by
  rw [play_append, play_cons, play_nil]
  by_cases hj : i = j
  · subst hj
    rw [step_ret exec h]
    exact h
  · rw [step_threads_of_ne exec _ hj]
    exact h

/-- The same order, one step later. -/
theorem SerialAs.later {c : Config Op Res α S ι} {pre order : List ι}
    (h : SerialAs exec c pre order) (j : ι) : SerialAs exec c (pre ++ [j]) order where
  nodup := h.nodup
  scheduled i hi := List.mem_append_left _ (h.scheduled i hi)
  answers before i after he := threads_of_ret (h.answers before i after he) j

theorem SerialAs.snoc {c : Config Op Res α S ι} {pre order : List ι}
    (h : SerialAs exec c pre order) {i : ι} (hi : i ∉ order)
    (hanswer : (play exec c (pre ++ [i])).threads i
      = ret (run exec (c.threads i) (serial exec c order c.store)).1) :
    SerialAs exec c (pre ++ [i]) (order ++ [i]) where
  nodup := by
    rw [List.nodup_append]
    refine ⟨h.nodup, by simp, ?_⟩
    intro a ha b hb hab
    rw [List.mem_singleton] at hb
    rw [hab, hb] at ha
    exact hi ha
  scheduled j hj := by
    rcases List.mem_append.mp hj with hj | hj
    · exact List.mem_append_left _ (h.scheduled j hj)
    · exact List.mem_append_right _ hj
  answers before j after he := by
    rcases Runs.eq_snoc_split he with ⟨rfl, rfl, -⟩ | ⟨after', -, he'⟩
    · exact hanswer
    · exact (h.later i).answers before j after' he'

section
variable {P : Op → Prop} {view : S → V} {c : Config Op Res α S ι}
variable (huntil : ∀ i, Until P (c.threads i))
variable (hview : ∀ o s, P o → view (exec o s).2 = view s)
variable (hglance : ∀ i o k, c.threads i = call o k → ∀ s s', view s' = view s →
  exec o s' = ((exec o s).1, s'))

include huntil in
theorem until_play (pre : List ι) (i : ι) : Until P ((play exec c pre).threads i) := by
  induction pre using List.reverseRecOn with
  | nil => exact huntil i
  | append_singleton pre j ih =>
    rw [play_append, play_cons, play_nil]
    by_cases hij : i = j
    · subst hij
      cases hi : (play exec c pre).threads i with
      | ret a =>
        rw [step_ret exec hi, hi]
        exact .ret
      | call o k =>
        rw [hi] at ih
        rw [step_call exec hi]
        show Until P (Function.update (play exec c pre).threads i (k (exec o (play exec c pre).store).1) i)
        rw [Function.update_self]
        exact ih.of_call.2 _
    · rw [step_threads_of_ne exec _ hij]
      exact ih

include huntil hview in
/-- A step of the thread under way. -/
theorem stage_step_moving {pre order : List ι} {x : ι} (hserial : SerialAs exec c pre order)
    (hx : x ∉ order) (hpre : x ∈ pre) (hall : ∀ i ∈ pre, i ∈ order ∨ i = x)
    (hgoing : ((play exec c pre).threads x).answer = none)
    (hrun : run exec (c.threads x) (serial exec c order c.store)
      = run exec ((play exec c pre).threads x) (play exec c pre).store)
    (hsame : view (play exec c pre).store = view (serial exec c order c.store)) :
    ∃ order', SerialAs exec c (pre ++ [x]) order' ∧ Stage exec view c (pre ++ [x]) order' := by
  have huntilx : Until P ((play exec c pre).threads x) := until_play huntil pre x
  cases hp : (play exec c pre).threads x with
  | ret a =>
    rw [hp] at hgoing
    cases hgoing
  | call o k =>
    rw [hp] at huntilx hrun
    have hplay : play exec c (pre ++ [x])
        = ⟨Function.update (play exec c pre).threads x (k (exec o (play exec c pre).store).1),
            (exec o (play exec c pre).store).2⟩ := by
      rw [play_append, play_cons, play_nil, step_call exec hp]
    have hthread : (play exec c (pre ++ [x])).threads x
        = k (exec o (play exec c pre).store).1 := by
      rw [hplay]
      exact Function.update_self _ _ _
    rw [run_call] at hrun
    cases hnext : k (exec o (play exec c pre).store).1 with
    | ret a =>
      -- the thread is over, and comes next in the order
      rw [hnext] at hrun hthread
      rw [run_ret] at hrun
      refine ⟨order ++ [x], hserial.snoc hx ?_, .rest ?_ ?_⟩
      · rw [hrun]
        exact hthread
      · intro i hi
        rcases List.mem_append.mp hi with hi | hi
        · rcases hall i hi with hi | rfl
          · exact List.mem_append_left _ hi
          · simp
        · exact List.mem_append_right _ hi
      · rw [serial_snoc, hrun, hplay]
    | call o' k' =>
      -- it goes on, and the view is kept
      have hP : P o := by
        rcases huntilx.of_call.1 with hP | hlast
        · exact hP
        · obtain ⟨a, ha⟩ := hlast (exec o (play exec c pre).store).1
          rw [hnext] at ha
          cases ha
      refine ⟨order, hserial.later x, .moving x hx (List.mem_append_left _ hpre) ?_ ?_ ?_ ?_⟩
      · intro i hi
        rcases List.mem_append.mp hi with hi | hi
        · exact hall i hi
        · exact Or.inr (List.mem_singleton.mp hi)
      · rw [hthread, hnext]
        rfl
      · rw [hthread, hplay]
        exact hrun
      · rw [hplay, hview o _ hP]
        exact hsame

include huntil hview hglance in
/-- **The induction step.** -/
theorem stage_step {pre order : List ι} {i : ι} (hserial : SerialAs exec c pre order)
    (hstage : Stage exec view c pre order) (horderly : Orderly exec c pre i) :
    ∃ order', SerialAs exec c (pre ++ [i]) order' ∧ Stage exec view c (pre ++ [i]) order' := by
  by_cases hmem : i ∈ pre
  · -- the thread under way, or one that is over
    have hidle : ∀ {a}, (play exec c pre).threads i = ret a →
        play exec c (pre ++ [i]) = play exec c pre := by
      intro a ha
      rw [play_append, play_cons, play_nil, step_ret exec ha]
    have hmore : ∀ {Q : ι → Prop}, (∀ j ∈ pre, Q j) → ∀ j ∈ pre ++ [i], Q j := by
      intro Q hQ j hj
      rcases List.mem_append.mp hj with hj | hj
      · exact hQ j hj
      · rw [List.mem_singleton.mp hj]
        exact hQ i hmem
    have hover : i ∈ order → ∃ a, (play exec c pre).threads i = ret a := by
      intro hi
      obtain ⟨before, after, he⟩ := List.append_of_mem hi
      exact ⟨_, hserial.answers before i after he⟩
    cases hstage with
    | rest hall hstore =>
      obtain ⟨a, ha⟩ := hover (hall i hmem)
      refine ⟨order, hserial.later i, .rest (hmore hall) ?_⟩
      rw [hidle ha]
      exact hstore
    | moving x hx hpre hall hgoing hrun hsame =>
      rcases hall i hmem with hi | rfl
      · obtain ⟨a, ha⟩ := hover hi
        refine ⟨order, hserial.later i,
          .moving x hx (List.mem_append_left _ hpre) (hmore hall) ?_ ?_ ?_⟩
        all_goals rw [hidle ha]
        · exact hgoing
        · exact hrun
        · exact hsame
      · exact stage_step_moving huntil hview hserial hx hpre hall hgoing hrun hsame
  · -- a thread that begins
    have hbegin : (play exec c pre).threads i = c.threads i := threads_of_not_mem c hmem
    have hnot : i ∉ order := fun hi => hmem (hserial.scheduled i hi)
    have hmore : (∀ j ∈ pre, j ∈ order) → ∀ j ∈ pre ++ [i], j ∈ order ++ [i] := by
      intro hall j hj
      rcases List.mem_append.mp hj with hj | hj
      · exact List.mem_append_left _ (hall j hj)
      · exact List.mem_append_right _ hj
    have horderly := horderly hmem
    cases hi : c.threads i with
    | ret a =>
      have hplay : play exec c (pre ++ [i]) = play exec c pre := by
        rw [play_append, play_cons, play_nil, step_ret exec (hbegin.trans hi)]
      have hanswer : (play exec c (pre ++ [i])).threads i
          = ret (run exec (c.threads i) (serial exec c order c.store)).1 := by
        rw [hplay, hbegin, hi, run_ret]
      have hsnoc : serial exec c (order ++ [i]) c.store = serial exec c order c.store := by
        rw [serial_snoc, hi, run_ret]
      refine ⟨order ++ [i], hserial.snoc hnot hanswer, ?_⟩
      cases hstage with
      | rest hall hstore =>
        refine .rest (hmore hall) ?_
        rw [hplay, hsnoc]
        exact hstore
      | moving x hx hpre hall hgoing hrun hsame =>
        refine .moving x ?_ (List.mem_append_left _ hpre) ?_ ?_ ?_ ?_
        · rw [List.mem_append, List.mem_singleton, not_or]
          exact ⟨hx, fun he => hmem (he ▸ hpre)⟩
        · intro j hj
          rcases List.mem_append.mp hj with hj | hj
          · exact (hall j hj).imp_left (List.mem_append_left _)
          · exact Or.inl (List.mem_append_right _ hj)
        · rw [hplay]
          exact hgoing
        · rw [hplay, hsnoc]
          exact hrun
        · rw [hplay, hsnoc]
          exact hsame
    | call o k =>
      have hplay : play exec c (pre ++ [i])
          = ⟨Function.update (play exec c pre).threads i (k (exec o (play exec c pre).store).1),
              (exec o (play exec c pre).store).2⟩ := by
        rw [play_append, play_cons, play_nil, step_call exec (hbegin.trans hi)]
      have hthread : (play exec c (pre ++ [i])).threads i
          = k (exec o (play exec c pre).store).1 := by
        rw [hplay]
        exact Function.update_self _ _ _
      cases hstage with
      | rest hall hstore =>
        have hrun : run exec (c.threads i) (serial exec c order c.store)
            = run exec (k (exec o (play exec c pre).store).1) (exec o (play exec c pre).store).2 := by
          rw [hi, run_call, hstore]
        cases hnext : k (exec o (play exec c pre).store).1 with
        | ret a =>
          rw [hnext, run_ret] at hrun
          refine ⟨order ++ [i], hserial.snoc hnot ?_, .rest (hmore hall) ?_⟩
          · rw [hrun, hthread, hnext]
          · rw [serial_snoc, hrun, hplay]
        | call o' k' =>
          have hP : P o := by
            have huntili := huntil i
            rw [hi] at huntili
            rcases huntili.of_call.1 with hP | hlast
            · exact hP
            · obtain ⟨a, ha⟩ := hlast (exec o (play exec c pre).store).1
              rw [hnext] at ha
              cases ha
          refine ⟨order, hserial.later i, .moving i hnot (by simp) ?_ ?_ ?_ ?_⟩
          · intro j hj
            rcases List.mem_append.mp hj with hj | hj
            · exact Or.inl (hall j hj)
            · exact Or.inr (List.mem_singleton.mp hj)
          · rw [hthread, hnext]
            rfl
          · rw [hthread, hplay]
            exact hrun
          · rw [hplay, hview o _ hP, hstore]
      | moving x hx hpre hall hgoing hrun hsame =>
        -- another thread is under way: this one ends at once, and only looks
        have hend : ∃ a, (play exec c (pre ++ [i])).threads i = ret a := by
          rcases horderly with hend | hnone
          · exact answer_ne_none hend
          · exact absurd ⟨hpre, hgoing⟩ (hnone x)
        obtain ⟨a, ha⟩ := hend
        have hne : x ≠ i := fun he => hmem (he ▸ hpre)
        have hlook := hglance i o k hi (serial exec c order c.store) (play exec c pre).store hsame
        have hself := hglance i o k hi (serial exec c order c.store)
          (serial exec c order c.store) rfl
        have hkeeps : (exec o (serial exec c order c.store)).2 = serial exec c order c.store := by
          rw [hself]
        have hstore : (play exec c (pre ++ [i])).store = (play exec c pre).store := by
          rw [hplay, hlook]
        have hx' : (play exec c (pre ++ [i])).threads x = (play exec c pre).threads x := by
          rw [hplay]
          exact Function.update_of_ne hne _ _
        have hk : k (exec o (serial exec c order c.store)).1 = ret a := by
          rw [hthread, hlook] at ha
          exact ha
        have hruni : run exec (c.threads i) (serial exec c order c.store)
            = (a, serial exec c order c.store) := by
          rw [hi, run_call, hk, run_ret, hkeeps]
        have hsnoc : serial exec c (order ++ [i]) c.store = serial exec c order c.store := by
          rw [serial_snoc, hruni]
        refine ⟨order ++ [i], hserial.snoc hnot ?_,
          .moving x ?_ (List.mem_append_left _ hpre) ?_ ?_ ?_ ?_⟩
        · rw [ha, hruni]
        · rw [List.mem_append, List.mem_singleton, not_or]
          exact ⟨hx, hne⟩
        · intro j hj
          rcases List.mem_append.mp hj with hj | hj
          · exact (hall j hj).imp_left (List.mem_append_left _)
          · exact Or.inl (List.mem_append_right _ hj)
        · rw [hx']
          exact hgoing
        · rw [hx', hstore, hsnoc]
          exact hrun
        · rw [hstore, hsnoc]
          exact hsame

include huntil hview hglance in
/-- **An orderly schedule whose threads are all over is as good as serial.** -/
theorem serial_of_orderly {sched : List ι} (horderly : Runs.Always (Orderly exec c) sched)
    (hover : ∀ i ∈ sched, ((play exec c sched).threads i).answer ≠ none) :
    ∃ order, SerialAs exec c sched order ∧ (∀ i, i ∈ order ↔ i ∈ sched) ∧
      (play exec c sched).store = serial exec c order c.store := by
  have hrun : ∀ pre, Runs.Always (Orderly exec c) pre →
      ∃ order, SerialAs exec c pre order ∧ Stage exec view c pre order := by
    refine Runs.run_induction ?_ ?_
    · refine ⟨[], ⟨List.nodup_nil, (fun i hi => nomatch hi), ?_⟩, .rest (fun i hi => hi) rfl⟩
      intro before i after he
      simp at he
    · intro pre i _ ⟨order, hserial, hstage⟩ hi
      exact stage_step huntil hview hglance hserial hstage hi
  obtain ⟨order, hserial, hstage⟩ := hrun sched horderly
  refine ⟨order, hserial, ?_⟩
  cases hstage with
  | rest hall hstore => exact ⟨fun i => ⟨hserial.scheduled i, hall i⟩, hstore⟩
  | moving x _ hpre _ hgoing _ _ => exact absurd hgoing (hover x hpre)

end

end Prog
