import AuthGateway.Lib.Runs
import Mathlib.Logic.Function.Basic

/-!
# Where the state came from that a client presents

A server without a store hands its state out with every answer, and a request
presents one of the states its client was ever handed, or none.  The server can be
sure of one thing: what a client presents, the server made, for that client
(`origin`).
-/

namespace Handed

/-- A server: what a client has who has nothing, and the answer to a request that
presents a state. -/
structure Server (Client δ α : Type) where
  blank : δ
  client : α → Client
  resends : α → Option Nat
  answer : α → δ → δ

namespace Server

variable {Client δ α : Type} (S : Server Client δ α)

/-- What a request presents, of what its client was handed. -/
def presented (handed : Client → List δ) (a : α) : δ :=
  ((S.resends a).bind fun i => (handed (S.client a))[i]?).getD S.blank

variable [DecidableEq Client]

def step (handed : Client → List δ) (a : α) : Client → List δ :=
  Function.update handed (S.client a)
    (handed (S.client a) ++ [S.answer a (S.presented handed a)])

/-- What everybody has been handed after a run. -/
abbrev handed (acts : List α) : Client → List δ := Runs.after S.step (fun _ => []) acts

/-- Some request of the client was an `E`-request. -/
abbrev Earlier (E : (Client → List δ) → α → Prop) (acts : List α) : Prop :=
  Runs.Earlier S.step (fun _ => []) E acts

omit [DecidableEq Client] in
theorem presented_mem (handed : Client → List δ) (a : α) :
    S.presented handed a ∈ handed (S.client a) ∨ S.presented handed a = S.blank := by
  unfold presented
  cases S.resends a with
  | none => exact Or.inr rfl
  | some i =>
    rw [Option.bind_some]
    cases hi : (handed (S.client a))[i]? with
    | none => exact Or.inr rfl
    | some d => exact Or.inl (List.mem_of_getElem? hi)

theorem mem_step {handed : Client → List δ} {a : α} {c : Client} {d : δ}
    (h : d ∈ S.step handed a c) :
    d ∈ handed c ∨ c = S.client a ∧ d = S.answer a (S.presented handed a) := by
  unfold step at h
  by_cases hc : c = S.client a
  · subst hc
    rw [Function.update_self, List.mem_append, List.mem_singleton] at h
    exact h.imp_right fun hd => ⟨rfl, hd⟩
  · rw [Function.update_of_ne hc] at h
    exact Or.inl h

/-- What every answer keeps, every presented state has. -/
theorem presented_invariant {I : δ → Prop} (hblank : I S.blank)
    (hstep : ∀ a d, I d → I (S.answer a d)) (acts : List α) (a : α) :
    I (S.presented (S.handed acts) a) := by
  have hpresented : ∀ {handed : Client → List δ}, (∀ c, ∀ d ∈ handed c, I d) →
      ∀ b, I (S.presented handed b) := by
    intro handed h b
    rcases S.presented_mem handed b with hmem | he
    · exact h _ _ hmem
    · rw [he]
      exact hblank
  have hhanded : ∀ c, ∀ d ∈ S.handed acts c, I d := by
    refine Runs.invariant (I := fun h : Client → List δ => ∀ c, ∀ d ∈ h c, I d) ?_ ?_ acts
    · intro c d hd
      cases hd
    · intro handed b h c d hd
      rcases S.mem_step hd with hd | ⟨-, rfl⟩
      · exact h c d hd
      · exact hstep b _ (hpresented h b)
  exact hpresented hhanded a

/-- **What a client has was made for it**: some answer to a request of its own had
the property, which the request had not presented. -/
theorem origin {P : δ → Prop} (hblank : ¬ P S.blank) (acts : List α) {c : Client} {d : δ}
    (hd : d ∈ S.handed acts c) (hP : P d) :
    S.Earlier (fun handed a => S.client a = c ∧ ¬ P (S.presented handed a) ∧
      P (S.answer a (S.presented handed a))) acts := by
  induction acts using List.reverseRecOn generalizing d with
  | nil => cases hd
  | append_singleton acts a ih =>
    rw [handed, Runs.after_snoc] at hd
    rw [Earlier, Runs.earlier_snoc]
    rcases S.mem_step hd with hd | ⟨rfl, rfl⟩
    · exact Or.inl (ih hd hP)
    by_cases hold : P (S.presented (S.handed acts) a)
    · rcases S.presented_mem (S.handed acts) a with hmem | he
      · exact Or.inl (ih hmem hold)
      · rw [he] at hold
        exact absurd hold hblank
    · exact Or.inr ⟨rfl, hold, hP⟩

theorem presented_origin {P : δ → Prop} (hblank : ¬ P S.blank) (acts : List α) (a : α)
    (hP : P (S.presented (S.handed acts) a)) :
    S.Earlier (fun handed b => S.client b = S.client a ∧ ¬ P (S.presented handed b) ∧
      P (S.answer b (S.presented handed b))) acts := by
  rcases S.presented_mem (S.handed acts) a with hmem | he
  · exact S.origin hblank acts hmem hP
  · rw [he] at hP
    exact absurd hP hblank

end Server

end Handed
