import Mathlib.Data.List.Infix
import Mathlib.Logic.Nontrivial.Basic

/-!
# Searching a text by skipping

A pattern is laid against the text, letter by letter; where it does not match,
the letter that follows it in the text says how far to move on.  The table of
these jumps is arbitrary here.

A jump is *cautious* when it does not pass over a place of the pattern where that
letter stands.  **The search finds the pattern in every text that has it exactly
when its jumps are cautious** (`search_complete_iff`): a jump that is not passes
over the pattern in a text made of other letters and the pattern.  Whatever the
table, the search reads no letter that is not there, comes to an end, and finds
nothing that is not there (`search_sound`).
-/

namespace SkipSearch

variable {α : Type} [DecidableEq α]

/-- `for j < m && text[i+j] == pattern[j] { j++ }`; `none` is an access that is
out of range. -/
def advance (text pattern : List α) (i j : Nat) : Option Nat :=
  if _ : j < pattern.length then
    match text[i + j]?, pattern[j]? with
    | some a, some b => if a = b then advance text pattern i (j + 1) else some j
    | _, _ => none
  else some j
termination_by pattern.length - j

/-- The main loop from position `i` on; `none` is an access out of range, or a loop
that is not over after `fuel` rounds. -/
def loop (jump : α → Nat) (text pattern : List α) : (fuel i : Nat) → Option Bool
  | 0, _ => none
  | fuel + 1, i =>
    if i + pattern.length ≤ text.length then
      match advance text pattern i 0 with
      | none => none
      | some j =>
        if j = pattern.length then some true
        else if i + pattern.length < text.length then
          match text[i + pattern.length]? with
          | none => none
          | some next => loop jump text pattern fuel (i + jump next)
        else some false
    else some false

/-- The search; every round but the last moves on by one letter or more. -/
def search (jump : α → Nat) (text pattern : List α) : Option Bool :=
  loop jump text pattern (text.length + 1) 0

/-- The pattern stands in the text at position `i`. -/
def At (text pattern : List α) (i : Nat) : Prop := pattern <+: text.drop i

variable {jump : α → Nat} {text pattern : List α}

omit [DecidableEq α] in
theorem infix_iff_at : pattern <:+: text ↔ ∃ i, At text pattern i := by
  constructor
  · rintro ⟨before, after, rfl⟩
    exact ⟨before.length, after, by simp⟩
  · rintro ⟨i, hi⟩
    exact hi.isInfix.trans (List.drop_suffix i text).isInfix

omit [DecidableEq α] in
theorem At.get {i j : Nat} (h : At text pattern i) (hj : j < pattern.length) :
    text[i + j]? = pattern[j]? := by
  obtain ⟨after, hafter⟩ := h
  have hdrop : (text.drop i)[j]? = pattern[j]? := by
    rw [← hafter, List.getElem?_append_left hj]
  rw [← hdrop, List.getElem?_drop]

omit [DecidableEq α] in
theorem at_of_get {i : Nat} (h : ∀ j < pattern.length, text[i + j]? = pattern[j]?) :
    At text pattern i := by
  apply List.prefix_iff_eq_take.mpr
  apply List.ext_getElem?
  intro j
  by_cases hj : j < pattern.length
  · rw [List.getElem?_take, if_pos hj, List.getElem?_drop, h j hj]
  · rw [List.getElem?_take, if_neg hj]
    exact List.getElem?_eq_none (by omega)

/-! ### One alignment -/

/-- **Within the text, the comparison gets to the end exactly where the pattern stands.** -/
theorem advance_spec {i : Nat} (hi : i + pattern.length ≤ text.length) :
    ∃ j, advance text pattern i 0 = some j ∧ (j = pattern.length ↔ At text pattern i) := by
  have hfrom : ∀ k j, j + k = pattern.length →
      (∀ l < j, text[i + l]? = pattern[l]?) →
      ∃ j', advance text pattern i j = some j' ∧ (j' = pattern.length ↔ At text pattern i) := by
    intro k
    induction k with
    | zero =>
      intro j hj hbefore
      refine ⟨j, ?_, ?_⟩
      · rw [advance, dif_neg (by omega)]
      · have hat : At text pattern i := at_of_get fun l hl => hbefore l (by omega)
        exact ⟨fun _ => hat, fun _ => by omega⟩
    | succ k ih =>
      intro j hj hbefore
      have hjp : j < pattern.length := by omega
      have hjt : i + j < text.length := by omega
      rw [advance, dif_pos hjp, List.getElem?_eq_getElem hjt, List.getElem?_eq_getElem hjp]
      by_cases hsame : text[i + j] = pattern[j]
      · rw [show (match some text[i + j], some pattern[j] with
          | some a, some b => if a = b then advance text pattern i (j + 1) else some j
          | _, _ => none) = advance text pattern i (j + 1) from if_pos hsame]
        apply ih (j + 1) (by omega)
        intro l hl
        by_cases hlj : l = j
        · rw [hlj, List.getElem?_eq_getElem hjt, List.getElem?_eq_getElem hjp, hsame]
        · exact hbefore l (by omega)
      · refine ⟨j, if_neg hsame, ?_⟩
        constructor
        · omega
        · intro hat
          have hget := hat.get hjp
          rw [List.getElem?_eq_getElem hjt, List.getElem?_eq_getElem hjp] at hget
          exact absurd (Option.some.inj hget) hsame
  exact hfrom pattern.length 0 (by omega) (by omega)

/-- **One round**: the pattern is found, or the text is over, or the loop goes on. -/
theorem loop_succ (jump : α → Nat) (text pattern : List α) (fuel i : Nat) :
    (At text pattern i ∧ i + pattern.length ≤ text.length ∧
        loop jump text pattern (fuel + 1) i = some true) ∨
      (¬ At text pattern i ∧ ∃ next, text[i + pattern.length]? = some next ∧
        loop jump text pattern (fuel + 1) i = loop jump text pattern fuel (i + jump next)) ∨
      (text.length ≤ i + pattern.length ∧
        (i + pattern.length ≤ text.length → ¬ At text pattern i) ∧
        loop jump text pattern (fuel + 1) i = some false) := by
  rw [loop]
  by_cases hi : i + pattern.length ≤ text.length
  · obtain ⟨j, hj, hfound⟩ := advance_spec hi
    rw [if_pos hi, hj]
    dsimp only
    by_cases hend : j = pattern.length
    · left
      exact ⟨hfound.mp hend, hi, if_pos hend⟩
    · rw [if_neg hend]
      have hnot : ¬ At text pattern i := fun hat => hend (hfound.mpr hat)
      by_cases hmore : i + pattern.length < text.length
      · right
        left
        rw [if_pos hmore, List.getElem?_eq_getElem hmore]
        exact ⟨hnot, text[i + pattern.length], rfl, rfl⟩
      · right
        right
        exact ⟨by omega, fun _ => hnot, if_neg hmore⟩
  · right
    right
    exact ⟨by omega, fun h => absurd h hi, if_neg hi⟩

/-! ### The search -/

/-- A jump moves on. -/
def Moving (jump : α → Nat) : Prop := ∀ c, 0 < jump c

theorem loop_sound (hjump : Moving jump) :
    ∀ fuel i, text.length < i + fuel → 0 < fuel →
      ∃ found, loop jump text pattern fuel i = some found ∧
        (found = true → ∃ k, At text pattern k) := by
  intro fuel
  induction fuel with
  | zero =>
    intro i _ hpos
    omega
  | succ fuel ih =>
    intro i hfuel _
    rcases loop_succ jump text pattern fuel i with ⟨hat, -, hloop⟩ | ⟨-, next, hnext, hloop⟩ |
      ⟨-, -, hloop⟩
    · exact ⟨true, hloop, fun _ => ⟨i, hat⟩⟩
    · have hmove := hjump next
      have hlt : i + pattern.length < text.length := by
        by_contra hge
        rw [List.getElem?_eq_none (by omega)] at hnext
        cases hnext
      rw [hloop]
      exact ih (i + jump next) (by omega) (by omega)
    · exact ⟨false, hloop, by simp⟩

/-- **Whatever the jumps, the search ends, and what it finds is there.** -/
theorem search_sound (hjump : Moving jump) (text pattern : List α) :
    ∃ found, search jump text pattern = some found ∧ (found = true → pattern <:+: text) := by
  have hloop : ∃ found, loop jump text pattern (text.length + 1) 0 = some found ∧
      (found = true → ∃ k, At text pattern k) := by
    apply loop_sound hjump
    · omega
    · omega
  obtain ⟨found, hsearch, hfound⟩ := hloop
  exact ⟨found, hsearch, fun h => infix_iff_at.mpr (hfound h)⟩

/-- A jump over a letter does not go past a place where the pattern has it, and no
jump goes past the letter itself. -/
structure Cautious (jump : α → Nat) (pattern : List α) : Prop where
  inside : ∀ k c, pattern[k]? = some c → k + jump c ≤ pattern.length
  outside : ∀ c, jump c ≤ pattern.length + 1

omit [DecidableEq α] in
theorem Cautious.not_at (h : Cautious jump pattern) {i k : Nat} {next : α}
    (hnext : text[i + pattern.length]? = some next) (hnot : ¬ At text pattern i) (hik : i ≤ k)
    (hki : k < i + jump next) : ¬ At text pattern k := by
  intro hat
  by_cases hsame : i = k
  · rw [hsame] at hnot
    exact hnot hat
  -- the pattern would have the letter where it meets it
  have houtside := h.outside next
  have hplace : pattern.length - (k - i) < pattern.length := by omega
  have hletter := hat.get hplace
  rw [show k + (pattern.length - (k - i)) = i + pattern.length by omega, hnext] at hletter
  have hinside := h.inside _ next hletter.symm
  omega

theorem loop_complete (hjump : Moving jump) (h : Cautious jump pattern) :
    ∀ fuel i, text.length < i + fuel → (∃ k, i ≤ k ∧ k + pattern.length ≤ text.length ∧
      At text pattern k) → loop jump text pattern fuel i = some true := by
  intro fuel
  induction fuel with
  | zero =>
    rintro i hfuel ⟨k, hik, hk, -⟩
    omega
  | succ fuel ih =>
    rintro i hfuel ⟨k, hik, hk, hat⟩
    rcases loop_succ jump text pattern fuel i with ⟨-, -, hloop⟩ | ⟨hnot, next, hnext, hloop⟩ |
      ⟨hend, hnot, -⟩
    · exact hloop
    · rw [hloop]
      have hmove := hjump next
      apply ih (i + jump next) (by omega)
      refine ⟨k, ?_, hk, hat⟩
      by_contra hki
      exact h.not_at hnext hnot hik (by omega) hat
    · have hsame : i = k := by omega
      rw [hsame] at hnot
      exact absurd hat (hnot hk)

theorem search_complete (hjump : Moving jump) (h : Cautious jump pattern)
    (hpart : pattern <:+: text) : search jump text pattern = some true := by
  apply loop_complete hjump h (text.length + 1) 0 (by omega)
  obtain ⟨before, after, rfl⟩ := hpart
  exact ⟨before.length, by omega, by simp, after, by simp⟩

/-- **A jump past a place of the pattern passes over the pattern in some text.** -/
theorem exists_missed {k : Nat} {c x : α} (hk : pattern[k]? = some c)
    (hpast : pattern.length < k + jump c) (hx : pattern.head? ≠ some x) :
    ∃ text, pattern <:+: text ∧ search jump text pattern = some false := by
  have hkp : k < pattern.length := by
    by_contra hge
    rw [List.getElem?_eq_none (by omega)] at hk
    cases hk
  -- as many other letters as bring the place of the letter behind the pattern
  have hlen : (List.replicate (pattern.length - k) x ++ pattern).length
      = pattern.length - k + pattern.length := by simp
  refine ⟨List.replicate (pattern.length - k) x ++ pattern,
    ⟨List.replicate (pattern.length - k) x, [], by simp⟩, ?_⟩
  unfold search
  have hnot : ¬ At (List.replicate (pattern.length - k) x ++ pattern) pattern 0 := by
    intro hat
    have hfirst := hat.get (j := 0) (by omega)
    rw [List.getElem?_append_left (by simp; omega), List.getElem?_replicate,
      if_pos (by omega), ← List.head?_eq_getElem?] at hfirst
    exact hx hfirst.symm
  rcases loop_succ jump (List.replicate (pattern.length - k) x ++ pattern) pattern
      (List.replicate (pattern.length - k) x ++ pattern).length 0 with
    ⟨hat, -, -⟩ | ⟨-, next, hnext, hloop⟩ | ⟨hend, -, -⟩
  · exact absurd hat hnot
  · have hletter : (List.replicate (pattern.length - k) x ++ pattern)[0 + pattern.length]?
        = some c := by
      rw [List.getElem?_append_right (by simp), List.length_replicate]
      rw [show 0 + pattern.length - (pattern.length - k) = k by omega]
      exact hk
    rw [hletter] at hnext
    obtain rfl := Option.some.inj hnext
    rw [hloop, hlen]
    rcases loop_succ jump (List.replicate (pattern.length - k) x ++ pattern) pattern
        (pattern.length - k + pattern.length - 1) (0 + jump c) with
      ⟨-, hle, -⟩ | ⟨-, next, hnext, -⟩ | ⟨-, -, hloop⟩
    · rw [hlen] at hle
      omega
    · rw [List.getElem?_eq_none (by rw [hlen]; omega)] at hnext
      cases hnext
    · rw [show pattern.length - k + pattern.length
        = pattern.length - k + pattern.length - 1 + 1 by omega]
      exact hloop
  · rw [hlen] at hend
    omega

/-- **The search is complete exactly when its jumps are cautious.** -/
theorem search_complete_iff [Nontrivial α] (hjump : Moving jump)
    (houtside : ∀ c, jump c ≤ pattern.length + 1) :
    (∀ text, pattern <:+: text → search jump text pattern = some true)
      ↔ ∀ k c, pattern[k]? = some c → k + jump c ≤ pattern.length := by
  constructor
  · intro h k c hk
    by_contra hpast
    obtain ⟨x, hx⟩ : ∃ x, pattern.head? ≠ some x := by
      cases pattern with
      | nil => simp at hk
      | cons a rest =>
        obtain ⟨x, hx⟩ := exists_ne a
        exact ⟨x, fun he => hx (Option.some.inj he).symm⟩
    obtain ⟨text, hpart, hmissed⟩ := exists_missed hk (not_le.mp hpast) hx
    rw [h text hpart] at hmissed
    cases hmissed
  · intro h text hpart
    exact search_complete hjump ⟨h, houtside⟩ hpart

end SkipSearch
