import Mathlib.Data.List.TakeWhile

/-!
# Escapes and queries of a URL

A URL is a string of bytes.  `unescape` undoes the escapes of a path or, with
`plus`, of a component of a query; `query` reads the pairs of a query, and leaves
out a pair that it cannot read.

**A text is its own escape exactly when it has no `%` in it**, and in a query no
`+` (`unescape_eq_self_iff`): an escape is longer than what it stands for.
-/

namespace Url

abbrev Bytes : Type := List UInt8

/-- The bytes of an ASCII text. -/
def ascii (s : String) : Bytes := s.toList.map fun c => UInt8.ofNat c.toNat

/-- The byte of an ASCII character. -/
def code (c : Char) : UInt8 := UInt8.ofNat c.toNat

/-- Up to the first `b`, and what follows it. -/
def cut (b : UInt8) (l : Bytes) : Bytes × Bytes :=
  (l.takeWhile (· != b), (l.dropWhile (· != b)).tail)

/-! ### Escapes -/

/-- The value of a digit in base 16. -/
def unhex (b : UInt8) : Option UInt8 :=
  if 0x30 ≤ b ∧ b ≤ 0x39 then some (b - 0x30)
  else if 0x61 ≤ b ∧ b ≤ 0x66 then some (b - 0x61 + 10)
  else if 0x41 ≤ b ∧ b ≤ 0x46 then some (b - 0x41 + 10)
  else none

/-- A byte that is no escape. -/
def plain (plus : Bool) (b : UInt8) : UInt8 := if plus ∧ b = code '+' then code ' ' else b

/-- The text that is escaped, if the escapes are well formed. -/
def unescape (plus : Bool) : Bytes → Option Bytes
  | [] => some []
  | b :: l =>
    if b = code '%' then
      match l with
      | high :: low :: rest =>
        match unhex high, unhex low with
        | some h, some w => (unescape plus rest).map ((h * 16 + w) :: ·)
        | _, _ => none
      | _ => none
    else (unescape plus l).map (plain plus b :: ·)

theorem unescape_length {plus : Bool} {l l' : Bytes} (h : unescape plus l = some l') :
    l'.length ≤ l.length ∧ (code '%' ∈ l → l'.length < l.length) := by
  fun_induction unescape plus l generalizing l' with
  | case1 =>
    obtain rfl := Option.some.inj h
    simp
  | case2 high low rest hh ll hhigh hlow ih =>
    obtain ⟨rest', hrest, rfl⟩ := Option.map_eq_some_iff.mp h
    have hle := (ih hrest).1
    simp only [List.length_cons]
    omega
  | case3 => exact nomatch h
  | case4 => exact nomatch h
  | case5 b l hb ih =>
    obtain ⟨rest', hrest, rfl⟩ := Option.map_eq_some_iff.mp h
    obtain ⟨hle, hlt⟩ := ih hrest
    simp only [List.length_cons, List.mem_cons]
    refine ⟨by omega, ?_⟩
    rintro (heq | hmem)
    · exact absurd heq.symm hb
    · have := hlt hmem
      omega

theorem unescape_cons {plus : Bool} {b : UInt8} (h : b ≠ code '%') (l : Bytes) :
    unescape plus (b :: l) = (unescape plus l).map (plain plus b :: ·) := by
  rcases l with _ | ⟨x, _ | ⟨y, l⟩⟩ <;> simp [unescape, h]

/-- Without escapes it is read byte for byte. -/
theorem unescape_of_not_mem {plus : Bool} {l : Bytes} (h : code '%' ∉ l) :
    unescape plus l = some (l.map (plain plus)) := by
  induction l with
  | nil => rfl
  | cons b l ih =>
    rw [List.mem_cons, not_or] at h
    rw [unescape_cons (Ne.symm h.1), ih h.2]
    rfl

/-- **What is its own escape.** -/
theorem unescape_eq_self_iff {plus : Bool} {l : Bytes} :
    unescape plus l = some l ↔ code '%' ∉ l ∧ (plus = true → code '+' ∉ l) := by
  constructor
  · intro h
    have hpercent : code '%' ∉ l := fun hmem => absurd ((unescape_length h).2 hmem) (Nat.lt_irrefl _)
    refine ⟨hpercent, ?_⟩
    rintro rfl hplus
    rw [unescape_of_not_mem hpercent] at h
    have hsame : ∀ b ∈ l, plain true b = b := by
      have hmap : l.map (plain true) = l.map id := by
        rw [List.map_id]
        exact Option.some.inj h
      exact List.map_inj_left.mp hmap
    exact absurd (hsame _ hplus) (by decide)
  · rintro ⟨hpercent, hplus⟩
    rw [unescape_of_not_mem hpercent]
    have hsame : l.map (plain plus) = l.map id := by
      apply List.map_congr_left
      intro b hb
      unfold plain
      rw [if_neg]
      · rfl
      · rintro ⟨htrue, rfl⟩
        exact hplus htrue hb
    rw [hsame, List.map_id]

/-! ### Cutting -/

theorem cut_of_not_mem {b : UInt8} {l : Bytes} (h : b ∉ l) : cut b l = (l, []) := by
  have hall : ∀ x ∈ l, (x != b) = true := by
    intro x hx
    rw [bne_iff_ne]
    rintro rfl
    exact h hx
  unfold cut
  rw [List.takeWhile_eq_self_iff.mpr hall, List.dropWhile_eq_nil_iff.mpr hall]
  rfl

theorem cut_append {b : UInt8} {l l' : Bytes} (h : b ∉ l) : cut b (l ++ b :: l') = (l, l') := by
  have hall : ∀ x ∈ l, (x != b) = true := by
    intro x hx
    rw [bne_iff_ne]
    rintro rfl
    exact h hx
  unfold cut
  rw [List.takeWhile_append_of_pos hall, List.dropWhile_append_of_pos hall]
  simp

theorem cut_append_left {b : UInt8} {l : Bytes} (h : b ∉ l) (l' : Bytes) :
    cut b (l ++ l') = (l ++ (cut b l').1, (cut b l').2) := by
  have hall : ∀ x ∈ l, (x != b) = true := by
    intro x hx
    rw [bne_iff_ne]
    rintro rfl
    exact h hx
  unfold cut
  rw [List.takeWhile_append_of_pos hall, List.dropWhile_append_of_pos hall]

/-- What has no `b` and begins a text ends before its first `b`. -/
theorem prefix_of_not_mem {b : UInt8} {l front back : Bytes} (hb : b ∉ l)
    (h : l <+: front ++ b :: back) : l <+: front := by
  obtain hshort | hlong := Nat.lt_or_ge front.length l.length
  · exfalso
    have hend : front ++ [b] <+: front ++ b :: back := ⟨back, by simp⟩
    have hin : front ++ [b] <+: l :=
      List.prefix_of_prefix_length_le hend h (by rw [List.length_append]; exact hshort)
    exact hb (hin.subset (by simp))
  · exact List.prefix_of_prefix_length_le h (List.prefix_append _ _) hlong

theorem cut_begins (b : UInt8) (l : Bytes) : (cut b l).1 <+: l := List.takeWhile_prefix _

theorem not_mem_cut (b : UInt8) (l : Bytes) : b ∉ (cut b l).1 := by
  intro h
  have hne := List.mem_takeWhile_imp h
  simp at hne

/-! ### Queries -/

/-- A pair `key=value`; `;` is no separator. -/
def pair (segment : Bytes) : Option (Bytes × Bytes) :=
  if code ';' ∈ segment then none
  else if segment = [] then none
  else
    match unescape true (cut (code '=') segment).1, unescape true (cut (code '=') segment).2 with
    | some key, some value => some (key, value)
    | _, _ => none

/-- The pairs of a query that can be read. -/
def query (l : Bytes) : List (Bytes × Bytes) := (l.splitOn (code '&')).filterMap pair

/-- The values of a key. -/
def values (key : Bytes) (pairs : List (Bytes × Bytes)) : List Bytes :=
  (pairs.filter fun p => p.1 == key).map Prod.snd

theorem values_append (key : Bytes) (pairs pairs' : List (Bytes × Bytes)) :
    values key (pairs ++ pairs') = values key pairs ++ values key pairs' := by
  unfold values
  rw [List.filter_append, List.map_append]

theorem mem_values {key value : Bytes} {pairs : List (Bytes × Bytes)} :
    value ∈ values key pairs ↔ (key, value) ∈ pairs := by
  unfold values
  rw [List.mem_map]
  constructor
  · rintro ⟨⟨k, v⟩, hmem, rfl⟩
    obtain ⟨hpair, hkey⟩ := List.mem_filter.mp hmem
    obtain rfl : k = key := by simpa using hkey
    exact hpair
  · intro h
    exact ⟨(key, value), List.mem_filter.mpr ⟨h, by simp⟩, rfl⟩

/-- **A pair of plain texts.** -/
theorem pair_eq {key value : Bytes} (hkey : code '=' ∉ key)
    (hsemicolon : code ';' ∉ key ++ code '=' :: value)
    (hkeyself : unescape true key = some key) (hvalueself : unescape true value = some value) :
    pair (key ++ code '=' :: value) = some (key, value) := by
  unfold pair
  rw [if_neg hsemicolon, if_neg (by simp), cut_append hkey]
  simp only [hkeyself, hvalueself]

/-- What a pair of a plain key is read as. -/
theorem pair_some {key value : Bytes} {p : Bytes × Bytes} (hkey : code '=' ∉ key)
    (h : pair (key ++ code '=' :: value) = some p) :
    code ';' ∉ value ∧ unescape true value = some p.2 := by
  unfold pair at h
  split at h
  · exact nomatch h
  · next hsemicolon =>
    rw [if_neg (by simp), cut_append hkey] at h
    cases hname : unescape true key with
    | none =>
      rw [hname] at h
      exact nomatch h
    | some name =>
      cases hvalue : unescape true value with
      | none =>
        rw [hname, hvalue] at h
        exact nomatch h
      | some value' =>
        rw [hname, hvalue] at h
        refine ⟨fun hmem => hsemicolon (by simp [hmem]), ?_⟩
        exact congrArg some (congrArg Prod.snd (Option.some.inj h))

/-- A key is no longer than what it is read from, and the value takes the rest. -/
theorem pair_length {segment : Bytes} {p : Bytes × Bytes} (h : pair segment = some p)
    (hvalue : p.2 ≠ []) : p.1.length + 1 + p.2.length ≤ segment.length := by
  unfold pair at h
  split at h
  · exact nomatch h
  · split at h
    · exact nomatch h
    · cases hkey : unescape true (cut (code '=') segment).1 with
      | none =>
        rw [hkey] at h
        exact nomatch h
      | some key =>
        cases hrest : unescape true (cut (code '=') segment).2 with
        | none =>
          rw [hkey, hrest] at h
          exact nomatch h
        | some value =>
          rw [hkey, hrest] at h
          obtain rfl := Option.some.inj h
          have hkeyle := (unescape_length hkey).1
          have hvaluele := (unescape_length hrest).1
          have hpos : 0 < value.length := List.length_pos_iff.mpr hvalue
          have hsplit : (segment.takeWhile (· != code '=')).length
              + (segment.dropWhile (· != code '=')).length = segment.length := by
            rw [← List.length_append, List.takeWhile_append_dropWhile]
          have hcut : (cut (code '=') segment).1.length = (segment.takeWhile (· != code '=')).length :=
            rfl
          have htail : (cut (code '=') segment).2.length
              = (segment.dropWhile (· != code '=')).length - 1 := List.length_tail
          dsimp only
          omega

theorem length_le_of_mem_splitOn {b : UInt8} {l segment : Bytes} (h : segment ∈ l.splitOn b) :
    segment.length ≤ l.length := by
  by_cases hb : b ∈ l
  · obtain ⟨front, back, rfl⟩ := List.append_of_mem hb
    rw [List.splitOn_append_cons_self, List.mem_append] at h
    simp only [List.length_append, List.length_cons]
    obtain hfront | hback := h
    · have hle := length_le_of_mem_splitOn hfront
      omega
    · have hle := length_le_of_mem_splitOn hback
      omega
  · rw [List.splitOn_eq_singleton hb, List.mem_singleton] at h
    rw [h]
termination_by l.length
decreasing_by all_goals subst_vars; simp; try omega

/-- A segment of a query that is cut is shorter. -/
theorem length_lt_of_mem_splitOn {b : UInt8} {l segment : Bytes} (hb : b ∈ l)
    (h : segment ∈ l.splitOn b) : segment.length < l.length := by
  obtain ⟨front, back, rfl⟩ := List.append_of_mem hb
  rw [List.splitOn_append_cons_self, List.mem_append] at h
  simp only [List.length_append, List.length_cons]
  obtain hfront | hback := h
  · have hle := length_le_of_mem_splitOn hfront
    omega
  · have hle := length_le_of_mem_splitOn hback
    omega

end Url
