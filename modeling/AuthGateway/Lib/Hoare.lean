import AuthGateway.Lib.Prog

/-!
# Postconditions and footprints of programs

An operation need not be deterministic: `may o s r s'` says that `o`, performed
in `s`, may answer `r` and leave `s'`.  `Holds may p Q s` says that every way in
which `p` can run from `s` ends in a value and a store that satisfy `Q`.
`Only P p` is the footprint of a program: every operation it can perform is in
`P`.  What all operations of the footprint keep, the program keeps (`Only.keeps`).

Both are inductive, so that a goal about a program is never computed: the rules
`pure`, `perform_bind` and `bind` take it apart along the program's text.
`Holds.run` brings the result back to an execution: whatever executes the
operations within `may`, seen through a view of its store, ends in `Q`.
-/

namespace Prog

variable {Op : Type} {Res : Op → Type} {α β S T : Type}
variable {may : (o : Op) → S → Res o → S → Prop}

/-! ### Postconditions -/

/-- Every way to run `p` from `s` ends in `Q`. -/
inductive Holds (may : (o : Op) → S → Res o → S → Prop) (Q : α → S → Prop) :
    Prog Op Res α → S → Prop
  | ret {a : α} {s : S} (h : Q a s) : Holds may Q (ret a) s
  | call {o : Op} {k : Res o → Prog Op Res α} {s : S}
      (h : ∀ r s', may o s r s' → Holds may Q (k r) s') : Holds may Q (call o k) s

theorem Holds.pure {Q : α → S → Prop} {a : α} {s : S} (h : Q a s) :
    Holds may Q (Pure.pure a) s := Holds.ret h

theorem Holds.of_ret {Q : α → S → Prop} {a : α} {s : S} (h : Holds may Q (Prog.ret a) s) :
    Q a s := by
  cases h with
  | ret h => exact h

theorem Holds.of_call {Q : α → S → Prop} {o : Op} {k : Res o → Prog Op Res α} {s : S}
    (h : Holds may Q (Prog.call o k) s) : ∀ r s', may o s r s' → Holds may Q (k r) s' := by
  cases h with
  | call h => exact h

/-- One operation and what follows. -/
theorem Holds.perform_bind {Q : β → S → Prop} {o : Op} {f : Res o → Prog Op Res β} {s : S}
    (h : ∀ r s', may o s r s' → Holds may Q (f r) s') :
    Holds may Q ((perform o : Prog Op Res (Res o)) >>= f) s := Holds.call h

/-- **A sequence**: a specification of the first part, and the second part from
whatever the specification leaves. -/
theorem Holds.bind {p : Prog Op Res α} {f : α → Prog Op Res β} {R : α → S → Prop}
    {Q : β → S → Prop} {s : S} (h : Holds may R p s)
    (hf : ∀ a s', R a s' → Holds may Q (f a) s') : Holds may Q (p >>= f) s := by
  induction p generalizing s with
  | ret a => exact hf a s h.of_ret
  | call o k ih => exact Holds.call fun r s' hr => ih r (h.of_call r s' hr)

/-- Every program ends. -/
theorem Holds.trivial (p : Prog Op Res α) (s : S) : Holds may (fun _ _ => True) p s := by
  induction p generalizing s with
  | ret a => exact Holds.ret True.intro
  | call o k ih => exact Holds.call fun r s' _ => ih r s'

/-- **Consequence.** -/
theorem Holds.mono {p : Prog Op Res α} {Q Q' : α → S → Prop} {s : S} (h : Holds may Q p s)
    (hQ : ∀ a s', Q a s' → Q' a s') : Holds may Q' p s := by
  induction p generalizing s with
  | ret a => exact Holds.ret (hQ a s h.of_ret)
  | call o k ih => exact Holds.call fun r s' hr => ih r (h.of_call r s' hr)

theorem Holds.and {p : Prog Op Res α} {Q Q' : α → S → Prop} {s : S} (h : Holds may Q p s)
    (h' : Holds may Q' p s) : Holds may (fun a s' => Q a s' ∧ Q' a s') p s := by
  induction p generalizing s with
  | ret a => exact Holds.ret ⟨h.of_ret, h'.of_ret⟩
  | call o k ih =>
    exact Holds.call fun r s' hr => ih r (h.of_call r s' hr) (h'.of_call r s' hr)

/-- Operations that may do less leave less to show. -/
theorem Holds.restrict {may' : (o : Op) → S → Res o → S → Prop}
    (hmay : ∀ o s r s', may' o s r s' → may o s r s') {p : Prog Op Res α} {Q : α → S → Prop} {s : S}
    (h : Holds may Q p s) : Holds may' Q p s := by
  induction p generalizing s with
  | ret a => exact Holds.ret h.of_ret
  | call o k ih => exact Holds.call fun r s' hr => ih r (h.of_call r s' (hmay o s r s' hr))

/-- **An execution within `may` ends in `Q`.**  The store executed on may hold
more than the specification sees. -/
theorem Holds.run {exec : (o : Op) → T → Res o × T} (view : T → S)
    (hexec : ∀ o t, may o (view t) (exec o t).1 (view (exec o t).2)) {p : Prog Op Res α}
    {Q : α → S → Prop} {t : T} (h : Holds may Q p (view t)) :
    Q (p.run exec t).1 (view (p.run exec t).2) := by
  induction p generalizing t with
  | ret a => exact h.of_ret
  | call o k ih => exact ih _ (h.of_call _ _ (hexec o t))

/-! ### Footprints -/

/-- Every operation that `p` can perform is in `P`. -/
inductive Only (P : Op → Prop) : Prog Op Res α → Prop
  | ret {a : α} : Only P (ret a)
  | call {o : Op} {k : Res o → Prog Op Res α} (h : P o) (hk : ∀ r, Only P (k r)) :
      Only P (call o k)

theorem Only.pure {P : Op → Prop} {a : α} : Only P (Pure.pure a : Prog Op Res α) := Only.ret

theorem Only.of_call {P : Op → Prop} {o : Op} {k : Res o → Prog Op Res α}
    (h : Only P (Prog.call o k)) : P o ∧ ∀ r, Only P (k r) := by
  cases h with
  | call h hk => exact ⟨h, hk⟩

theorem Only.perform_bind {P : Op → Prop} {o : Op} {f : Res o → Prog Op Res β} (h : P o)
    (hf : ∀ r, Only P (f r)) : Only P ((perform o : Prog Op Res (Res o)) >>= f) :=
  Only.call h hf

theorem Only.bind {P : Op → Prop} {p : Prog Op Res α} {f : α → Prog Op Res β} (h : Only P p)
    (hf : ∀ a, Only P (f a)) : Only P (p >>= f) := by
  induction p with
  | ret a => exact hf a
  | call o k ih => exact Only.call h.of_call.1 fun r => ih r (h.of_call.2 r)

theorem Only.mono {P Q : Op → Prop} {p : Prog Op Res α} (h : Only P p) (hPQ : ∀ o, P o → Q o) :
    Only Q p := by
  induction h with
  | ret => exact Only.ret
  | call h _ ih => exact Only.call (hPQ _ h) ih

/-- **A property that every operation of the footprint keeps** is kept by the
program. -/
theorem Only.keeps {P : Op → Prop} {I : S → Prop} {p : Prog Op Res α} (hp : Only P p)
    (h : ∀ o s r s', P o → may o s r s' → I s → I s') {s : S} (hs : I s) :
    Holds may (fun _ s' => I s') p s := by
  induction p generalizing s with
  | ret a => exact Holds.ret hs
  | call o k ih =>
    obtain ⟨ho, hk⟩ := hp.of_call
    exact Holds.call fun r s' hr => ih r (hk r) (h o s r s' ho hr hs)

/-- The same of an execution. -/
theorem Only.run_invariant {P : Op → Prop} {I : S → Prop} {exec : (o : Op) → S → Res o × S}
    {p : Prog Op Res α} (hp : Only P p) (h : ∀ o s, P o → I s → I (exec o s).2) {s : S}
    (hs : I s) : I (p.run exec s).2 := by
  induction p generalizing s with
  | ret a => exact hs
  | call o k ih =>
    obtain ⟨ho, hk⟩ := hp.of_call
    exact ih _ (hk _) (h o s ho hs)

end Prog
