import Mathlib.Data.List.Basic
import Mathlib.Logic.Function.Basic

/-!
# State that the client keeps

A server without a store hands its state out: every answer carries the state
as it now is, and a request presents one of the copies its client was ever
given, or none.  The state has slots, `value k d` being what the slot `k` of `d`
holds.  An answer may *take* the value of a slot.

The bookkeeping around it names the values: a value keeps its `tag` as long as
answers leave it as it was presented, and gets a fresh one when it is written.
`taken` are the names that were taken; `since` counts the copies a client
already had when a value of the slot was last taken from it.

`Sound.untaken`: as long as nobody presents a copy from before the last taking
of a value it holds, and every taking empties its slot, no presented value was
taken before.
-/

namespace Copies

variable {Client Slot δ ν : Type}

structure Copy (Slot δ : Type) where
  data : δ
  tag : Slot → Nat

structure State (Client Slot δ : Type) where
  received : Client → List (Copy Slot δ)
  since : Client → Slot → Nat
  clock : Nat
  taken : List (Slot × Nat)

/-- Nobody has received anything. -/
def State.start : State Client Slot δ := ⟨fun _ => [], fun _ _ => 0, 0, []⟩

/-- The copy a request presents: the `i`-th its client received, or the blank state. -/
def State.present (s : State Client Slot δ) (blank : δ) (client : Client) (i : Option Nat) :
    Copy Slot δ :=
  (i.bind fun i => (s.received client)[i]?).getD ⟨blank, fun _ => 0⟩

variable (value : Slot → δ → Option ν)

/-- What is presented is no older than the last taking of a value it holds. -/
def Current (s : State Client Slot δ) (blank : δ) (client : Client) (i : Option Nat) : Prop :=
  ∀ k, value k (s.present blank client i).data ≠ none → ∀ j, i = some j → s.since client k ≤ j

variable [DecidableEq ν]

/-- The copy that answers `c`. -/
def Copy.next (c : Copy Slot δ) (clock : Nat) (data : δ) : Copy Slot δ where
  data := data
  tag k := if value k data = value k c.data then c.tag k else clock

variable [DecidableEq Client] [DecidableEq Slot]

/-- Answer the copy `c` of a client with `data`. -/
def State.answer (s : State Client Slot δ) (client : Client) (c : Copy Slot δ) (data : δ)
    (takes : Option Slot) : State Client Slot δ where
  received := Function.update s.received client
    (s.received client ++ [c.next value s.clock data])
  since := match takes with
    | none => s.since
    | some k => Function.update s.since client
        (Function.update (s.since client) k (s.received client).length)
  clock := s.clock + 1
  taken := match takes with
    | none => s.taken
    | some k => (k, c.tag k) :: s.taken

omit [DecidableEq ν] [DecidableEq Client] [DecidableEq Slot] in
/-- A presented value is in a copy that was received. -/
theorem State.present_received {s : State Client Slot δ} {blank : δ} {client : Client}
    {i : Option Nat} {k : Slot} (hblank : value k blank = none)
    (h : value k (s.present blank client i).data ≠ none) :
    ∃ j, i = some j ∧ (s.received client)[j]? = some (s.present blank client i) := by
  cases i with
  | none => exact absurd hblank h
  | some j =>
    refine ⟨j, rfl, ?_⟩
    unfold State.present at h ⊢
    rw [Option.bind_some] at h ⊢
    cases hj : (s.received client)[j]? with
    | none =>
      rw [hj] at h
      exact absurd hblank h
    | some c => rfl

/-! ### The invariant -/

structure Sound (s : State Client Slot δ) : Prop where
  bound : ∀ client, ∀ c ∈ s.received client, ∀ k, value k c.data ≠ none → c.tag k < s.clock
  /-- A value belongs to one client. -/
  own : ∀ a b, a ≠ b → ∀ c ∈ s.received a, ∀ d ∈ s.received b, ∀ k,
    value k c.data ≠ none → value k d.data ≠ none → c.tag k ≠ d.tag k
  past : ∀ k t, (k, t) ∈ s.taken → t < s.clock
  length : ∀ client k, s.since client k ≤ (s.received client).length
  live : ∀ client i c, (s.received client)[i]? = some c → ∀ k, s.since client k ≤ i →
    value k c.data ≠ none → (k, c.tag k) ∉ s.taken

omit [DecidableEq ν] [DecidableEq Client] [DecidableEq Slot] in
theorem Sound.start : Sound value (State.start : State Client Slot δ) where
  bound := fun _ _ hc => nomatch hc
  own := fun _ _ _ _ hc => nomatch hc
  past := fun _ _ h => nomatch h
  length := fun _ _ => Nat.le_refl 0
  live := fun _ _ _ hc => nomatch hc

variable {value} {s : State Client Slot δ} {blank : δ} {client : Client} {i : Option Nat}

omit [DecidableEq ν] [DecidableEq Client] [DecidableEq Slot] in
/-- **A value presented in a current copy was not taken.** -/
theorem Sound.untaken (h : Sound value s) (hblank : ∀ k, value k blank = none)
    (hcurrent : Current value s blank client i) {k : Slot}
    (hk : value k (s.present blank client i).data ≠ none) :
    (k, (s.present blank client i).tag k) ∉ s.taken := by
  obtain ⟨j, hj, hreceived⟩ := State.present_received value (hblank k) hk
  exact h.live client j _ hreceived k (hcurrent k hk j hj) hk

/-- A copy whose values its client has, and nobody took. -/
structure Presented (value : Slot → δ → Option ν) (s : State Client Slot δ) (client : Client)
    (c : Copy Slot δ) : Prop where
  received : ∀ k, value k c.data ≠ none → c ∈ s.received client
  untaken : ∀ k, value k c.data ≠ none → (k, c.tag k) ∉ s.taken

omit [DecidableEq ν] [DecidableEq Client] [DecidableEq Slot] in
theorem Sound.presented (h : Sound value s) (hblank : ∀ k, value k blank = none)
    (hcurrent : Current value s blank client i) :
    Presented value s client (s.present blank client i) where
  received k hk := by
    obtain ⟨j, -, hj⟩ := State.present_received value (hblank k) hk
    exact List.mem_of_getElem? hj
  untaken k hk := h.untaken hblank hcurrent hk

variable {c : Copy Slot δ} {data : δ} {takes : Option Slot}

omit [DecidableEq Client] [DecidableEq Slot] in
/-- A value in the answer is the one presented, or new. -/
theorem Copy.next_tag (clock : Nat) (data : δ) {k : Slot} (h : value k data ≠ none) :
    (value k c.data ≠ none ∧ (c.next value clock data).tag k = c.tag k) ∨
      (c.next value clock data).tag k = clock := by
  unfold Copy.next
  dsimp only
  by_cases heq : value k data = value k c.data
  · rw [if_pos heq]
    exact Or.inl ⟨heq ▸ h, rfl⟩
  · rw [if_neg heq]
    exact Or.inr rfl

/-! ### The books after an answer -/

@[simp] theorem State.received_answer_self :
    (s.answer value client c data takes).received client
      = s.received client ++ [c.next value s.clock data] :=
  Function.update_self _ _ _

@[simp] theorem State.received_answer_of_ne {b : Client} (hb : b ≠ client) :
    (s.answer value client c data takes).received b = s.received b :=
  Function.update_of_ne hb _ _

/-- Who has a copy after an answer: the client the new one, everybody the old ones. -/
theorem State.mem_received_answer {b : Client} {d : Copy Slot δ}
    (h : d ∈ (s.answer value client c data takes).received b) :
    d ∈ s.received b ∨ b = client ∧ d = c.next value s.clock data := by
  by_cases hb : b = client
  · subst hb
    simp only [State.received_answer_self, List.mem_append, List.mem_singleton] at h
    exact h.imp_right fun hd => ⟨rfl, hd⟩
  · rw [State.received_answer_of_ne hb] at h
    exact Or.inl h

theorem State.mem_taken_answer {k : Slot} {t : Nat}
    (h : (k, t) ∈ (s.answer value client c data takes).taken) :
    (k, t) ∈ s.taken ∨ takes = some k ∧ t = c.tag k := by
  cases takes with
  | none => exact Or.inl h
  | some k' =>
    rcases List.mem_cons.mp h with heq | hmem
    · obtain ⟨rfl, rfl⟩ := Prod.mk.inj heq
      exact Or.inr ⟨rfl, rfl⟩
    · exact Or.inl hmem

/-- Taking a value makes all the copies old that its client had; nothing else changes. -/
theorem State.since_answer (b : Client) (k : Slot) :
    (s.answer value client c data takes).since b k
      = if b = client ∧ takes = some k then (s.received client).length else s.since b k := by
  cases takes with
  | none => simp [State.answer]
  | some k' =>
    by_cases hb : b = client
    · by_cases hk : k = k'
      · simp [State.answer, hb, hk]
      · simp [State.answer, hb, Function.update_of_ne hk, Ne.symm hk]
    · simp [State.answer, hb]

/-- A value of the answer has not been taken, now that its slot was emptied if it was. -/
theorem Presented.next_untaken (h : Sound value s) (hc : Presented value s client c)
    (hempties : ∀ k, takes = some k → value k data = none) {k : Slot} (hk : value k data ≠ none) :
    (k, (c.next value s.clock data).tag k) ∉ (s.answer value client c data takes).taken := by
  intro hmem
  rcases State.mem_taken_answer hmem with hold | ⟨htakes, -⟩
  · rcases Copy.next_tag (c := c) s.clock data hk with ⟨hvalue, htag⟩ | htag
    · rw [htag] at hold
      exact hc.untaken k hvalue hold
    · rw [htag] at hold
      have hlt := h.past k _ hold
      omega
  · exact hk (hempties k htakes)

theorem Sound.answer_bound (h : Sound value s) (hc : Presented value s client c) {b : Client}
    {d : Copy Slot δ} (hd : d ∈ (s.answer value client c data takes).received b) {k : Slot}
    (hk : value k d.data ≠ none) : d.tag k < s.clock + 1 := by
  rcases State.mem_received_answer hd with hd | ⟨-, rfl⟩
  · have hlt := h.bound b d hd k hk
    omega
  · rcases Copy.next_tag (c := c) s.clock data hk with ⟨hvalue, htag⟩ | htag
    · have hlt := h.bound client c (hc.received k hvalue) k hvalue
      rw [htag]
      omega
    · rw [htag]
      omega

omit [DecidableEq Client] [DecidableEq Slot] in
/-- The new copy shares no value with another client's. -/
theorem Sound.next_own (h : Sound value s) (hc : Presented value s client c) {b : Client}
    (hb : client ≠ b) {d : Copy Slot δ} (hd : d ∈ s.received b) {k : Slot}
    (hk : value k data ≠ none) (hdk : value k d.data ≠ none) :
    (c.next value s.clock data).tag k ≠ d.tag k := by
  rcases Copy.next_tag (c := c) s.clock data hk with ⟨hvalue, htag⟩ | htag
  · rw [htag]
    exact h.own client b hb c (hc.received k hvalue) d hd k hvalue hdk
  · have hlt := h.bound b d hd k hdk
    rw [htag]
    omega

theorem Sound.answer_own (h : Sound value s) (hc : Presented value s client c) {a b : Client}
    (hab : a ≠ b) {d e : Copy Slot δ} (hd : d ∈ (s.answer value client c data takes).received a)
    (he : e ∈ (s.answer value client c data takes).received b) {k : Slot}
    (hdk : value k d.data ≠ none) (hek : value k e.data ≠ none) : d.tag k ≠ e.tag k := by
  rcases State.mem_received_answer hd with hd' | ⟨rfl, rfl⟩
  · rcases State.mem_received_answer he with he' | ⟨rfl, rfl⟩
    · exact h.own a b hab d hd' e he' k hdk hek
    · exact (h.next_own hc hab.symm hd' hek hdk).symm
  · rcases State.mem_received_answer he with he' | ⟨rfl, -⟩
    · exact h.next_own hc hab he' hdk hek
    · exact absurd rfl hab

/-- An old copy that is current still holds no taken value. -/
theorem Sound.answer_live (h : Sound value s) (hc : Presented value s client c)
    (htakes : ∀ k, takes = some k → value k c.data ≠ none) {b : Client} {j : Nat}
    {d : Copy Slot δ} (hd : (s.received b)[j]? = some d) {k : Slot}
    (hsince : (s.answer value client c data takes).since b k ≤ j) (hk : value k d.data ≠ none) :
    (k, d.tag k) ∉ (s.answer value client c data takes).taken := by
  rw [State.since_answer] at hsince
  intro hmem
  by_cases htaken : b = client ∧ takes = some k
  · -- all the copies the client had are old now
    rw [if_pos htaken, ← htaken.1] at hsince
    have hlt := (List.getElem?_eq_some_iff.mp hd).1
    omega
  · rw [if_neg htaken] at hsince
    rcases State.mem_taken_answer hmem with hold | ⟨htake, htag⟩
    · exact h.live b j d hd k hsince hk hold
    · have hb : b ≠ client := fun hb => htaken ⟨hb, htake⟩
      have hvalue := htakes k htake
      exact h.own b client hb d (List.mem_of_getElem? hd) c (hc.received k hvalue) k hk hvalue htag

/-- **An answer to a current copy keeps the books sound**, if a taking empties its slot. -/
theorem Sound.answer (h : Sound value s) (hc : Presented value s client c)
    (htakes : ∀ k, takes = some k → value k c.data ≠ none)
    (hempties : ∀ k, takes = some k → value k data = none) :
    Sound value (s.answer value client c data takes) where
  bound b d hd k hk := h.answer_bound hc hd hk
  own a b hab d hd e he k hdk hek := h.answer_own hc hab hd he hdk hek
  past k t hmem := by
    show t < s.clock + 1
    rcases State.mem_taken_answer hmem with hold | ⟨htake, rfl⟩
    · have hlt := h.past k t hold
      omega
    · have hvalue := htakes k htake
      have hlt := h.bound client c (hc.received k hvalue) k hvalue
      omega
  length b k := by
    rw [State.since_answer]
    have hlength := h.length b k
    by_cases hb : b = client
    · subst hb
      rw [State.received_answer_self, List.length_append]
      split <;> omega
    · rw [State.received_answer_of_ne hb, if_neg fun hand => hb hand.1]
      exact hlength
  live b j d hd k hsince hk := by
    by_cases hb : b = client
    · subst hb
      rw [State.received_answer_self] at hd
      by_cases hj : j < (s.received b).length
      · rw [List.getElem?_append_left hj] at hd
        exact h.answer_live hc htakes hd hsince hk
      · rw [List.getElem?_append_right (by omega)] at hd
        obtain rfl : d = c.next value s.clock data :=
          List.mem_singleton.mp (List.mem_of_getElem? hd)
        exact hc.next_untaken h hempties hk
    · rw [State.received_answer_of_ne hb] at hd
      exact h.answer_live hc htakes hd hsince hk

end Copies
