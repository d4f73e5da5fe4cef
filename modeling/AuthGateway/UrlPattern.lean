import AuthGateway.Common.Str

/-!
# Where a URL is found

What `maskURLPattern` finds in front of a URL does not depend on what follows the URL's scheme,
and where the URL ends depends only on the blanks behind it.

**A URL that is found is found in the same place with another address in it**
(`UrlIn.pieces_replace`).
-/

namespace AuthGateway.UrlPattern

open Url Regex Common

/-! ### The pattern -/

theorem decodeRune_width (b : UInt8) (l : Bytes) :
    1 ≤ (Utf8.decodeRune b l).2 ∧ (Utf8.decodeRune b l).2 ≤ 4 := by
  unfold Utf8.decodeRune
  simp only
  split
  · simp
  split
  · split
    · split <;> simp
    · simp
  split
  · split
    · split <;> simp
    · simp
  split
  · split
    · split <;> simp
    · simp
  · simp

theorem decodeRune_take (b : UInt8) (l : Bytes) :
    Utf8.decodeRune b (l.take 3) = Utf8.decodeRune b l := by
  rcases l with _ | ⟨b₁, _ | ⟨b₂, _ | ⟨b₃, l⟩⟩⟩ <;> rfl

theorem runeWidth_take (p : Nat → Bool) (l : Bytes) : runeWidth p (l.take 4) = runeWidth p l := by
  cases l with
  | nil => rfl
  | cons b l =>
    show runeWidth p (b :: l.take 3) = runeWidth p (b :: l)
    rw [runeWidth, runeWidth, decodeRune_take]

theorem runeWidth_le {p : Nat → Bool} {l : Bytes} {n : Nat} (h : runeWidth p l = some n) :
    1 ≤ n ∧ n ≤ 4 := by
  cases l with
  | nil => exact nomatch h
  | cons b l =>
    rw [runeWidth] at h
    split at h
    · obtain rfl := Option.some.inj h
      exact decodeRune_width b l
    · exact nomatch h

/-- Two runes are within eight bytes. -/
theorem twoRunes_congr {l l' : Bytes} (h : l.take 8 = l'.take 8) : twoRunes l = twoRunes l' := by
  have hfirst : runeWidth isHostStart l = runeWidth isHostStart l' := by
    rw [← runeWidth_take, ← runeWidth_take isHostStart l']
    have htake := congrArg (List.take 4) h
    rw [List.take_take, List.take_take] at htake
    rw [show l.take 4 = l'.take 4 from htake]
  rw [twoRunes, twoRunes, hfirst]
  cases hn : runeWidth isHostStart l' with
  | none => rfl
  | some n =>
    have hle := (runeWidth_le hn).2
    have hdrop : (l.drop n).take 4 = (l'.drop n).take 4 := by
      have heq := congrArg (fun l => (l.drop n).take 4) h
      simp only [List.drop_take, List.take_take] at heq
      rwa [Nat.min_eq_left (by omega)] at heq
    show (runeWidth _ (l.drop n)).map _ = (runeWidth _ (l'.drop n)).map _
    rw [← runeWidth_take, hdrop, runeWidth_take]

theorem runeWidth_ascii {p : Nat → Bool} {b : UInt8} (hb : b.toNat < 0x80) (hp : p b.toNat = true)
    (l : Bytes) : runeWidth p (b :: l) = some 1 := by
  rw [runeWidth, Utf8.decodeRune_ascii hb, if_pos hp]

theorem twoRunes_ascii {b c : UInt8} (hb : b.toNat < 0x80) (hb' : isHostStart b.toNat = true)
    (hc : c.toNat < 0x80) (hc' : c.toNat ≠ 10) (l : Bytes) : twoRunes (b :: c :: l) = some 2 := by
  have hdot : (c.toNat != 10) = true := by simpa using hc'
  rw [twoRunes, runeWidth_ascii hb hb', Option.bind_some]
  show (runeWidth _ (c :: l)).map _ = some 2
  rw [runeWidth_ascii hc hdot]
  rfl

theorem isTail_ascii {c : UInt8} (hc : c.toNat < 0x80) : Utf8.isTail c = false := by
  unfold Utf8.isTail
  rw [Bool.and_eq_false_iff]
  exact Or.inl (decide_eq_false (by omega))

/-- **An ASCII byte ends the rune before it**, whatever is behind it. -/
theorem decodeRune_stop {c : UInt8} (hc : c.toNat < 0x80) (b : UInt8) (x y y' : Bytes) :
    Utf8.decodeRune b (x ++ c :: y) = Utf8.decodeRune b (x ++ c :: y') ∧
      (Utf8.decodeRune b (x ++ c :: y)).2 ≤ x.length + 1 := by
  have htail := isTail_ascii hc
  rcases x with _ | ⟨b₁, _ | ⟨b₂, _ | ⟨b₃, x⟩⟩⟩
  · have hone : ∀ y, Utf8.decodeRune b (c :: y) =
        if b.toNat < 0x80 then (b.toNat, 1) else (Utf8.runeError, 1) := by
      intro y
      unfold Utf8.decodeRune
      rcases y with _ | ⟨b₂, _ | ⟨b₃, y⟩⟩ <;> simp [htail]
    refine ⟨(hone y).trans (hone y').symm, ?_⟩
    rw [List.nil_append, hone]
    split <;> exact Nat.le_refl 1
  · constructor
    · show Utf8.decodeRune b (b₁ :: c :: y) = Utf8.decodeRune b (b₁ :: c :: y')
      unfold Utf8.decodeRune
      rcases y with _ | ⟨b₂, y⟩ <;> rcases y' with _ | ⟨b₂', y'⟩ <;> simp [htail]
    · show (Utf8.decodeRune b (b₁ :: c :: y)).2 ≤ 2
      unfold Utf8.decodeRune
      rcases y with _ | ⟨b₂, y⟩ <;> simp [htail] <;> split_ifs <;> simp
  · refine ⟨rfl, ?_⟩
    show (Utf8.decodeRune b (b₁ :: b₂ :: c :: y)).2 ≤ 3
    unfold Utf8.decodeRune
    simp only [htail, Bool.and_false, Bool.false_and, Bool.false_eq_true, if_false]
    split_ifs <;> simp
  · refine ⟨rfl, ?_⟩
    have hwidth := (decodeRune_width b (b₁ :: b₂ :: b₃ :: x ++ c :: y)).2
    simp only [List.length_cons]
    omega

theorem runeWidth_stop {c : UInt8} (hc : c.toNat < 0x80) (p : Nat → Bool) (x y y' : Bytes) :
    runeWidth p (x ++ c :: y) = runeWidth p (x ++ c :: y') ∧
      ∀ n, runeWidth p (x ++ c :: y) = some n → n ≤ max 1 x.length := by
  cases x with
  | nil =>
    have hone : ∀ y, runeWidth p (c :: y) = if p c.toNat then some 1 else none := by
      intro y
      rw [runeWidth, Utf8.decodeRune_ascii hc]
    refine ⟨(hone y).trans (hone y').symm, fun n hn => ?_⟩
    rw [List.nil_append, hone] at hn
    split at hn
    · obtain rfl := Option.some.inj hn
      exact Nat.le_refl 1
    · cases hn
  | cons b x =>
    obtain ⟨hsame, hwidth⟩ := decodeRune_stop hc b x y y'
    rw [List.cons_append, List.cons_append, runeWidth, runeWidth, hsame]
    refine ⟨rfl, fun n hn => ?_⟩
    rw [← hsame] at hn
    split at hn
    · obtain rfl := Option.some.inj hn
      rw [List.length_cons]
      omega
    · cases hn

/-- The two spellings of a scheme. -/
def IsScheme (scheme : Bytes) : Prop := scheme = ascii "http" ∨ scheme = ascii "https"

theorem dropScheme_append {scheme : Bytes} (h : IsScheme scheme) (l : Bytes) :
    dropScheme (scheme ++ ascii "://" ++ l) = some (scheme, l) := by
  rcases h with rfl | rfl
  · rfl
  · rfl

theorem dropScheme_eq_some {l scheme rest : Bytes} (h : dropScheme l = some (scheme, rest)) :
    IsScheme scheme ∧ l = scheme ++ ascii "://" ++ rest := by
  rw [dropScheme] at h
  split at h
  · rename_i hprefix
    obtain ⟨rfl, rfl⟩ := Prod.mk.inj (Option.some.inj h)
    obtain ⟨t, rfl⟩ := List.isPrefixOf_iff_prefix.mp hprefix
    exact ⟨Or.inl rfl, rfl⟩
  · split at h
    · rename_i hprefix
      obtain ⟨rfl, rfl⟩ := Prod.mk.inj (Option.some.inj h)
      obtain ⟨t, rfl⟩ := List.isPrefixOf_iff_prefix.mp hprefix
      exact ⟨Or.inr rfl, rfl⟩
    · exact nomatch h

/-- A URL that begins in front of an `h` has its scheme there. -/
theorem scheme_in_front {scheme u v rest : Bytes} (hscheme : IsScheme scheme) (hu : u ≠ [])
    (h : u ++ code 'h' :: v = scheme ++ ascii "://" ++ rest) :
    ∃ t, u = scheme ++ ascii "://" ++ t ∧ rest = t ++ code 'h' :: v := by
  have hnot : code 'h' ∉ (scheme ++ ascii "://").tail := by
    rcases hscheme with rfl | rfl
    · decide
    · decide
  rcases List.append_eq_append_iff.mp h with ⟨t, hscheme, hv⟩ | ⟨t, hu', hrest⟩
  · cases t with
    | nil =>
      rw [List.append_nil] at hscheme
      exact ⟨[], by rw [hscheme, List.append_nil], hv.symm⟩
    | cons b t =>
      obtain ⟨rfl, -⟩ := List.cons.inj hv
      obtain ⟨c, u, rfl⟩ := List.exists_cons_of_ne_nil hu
      rw [hscheme] at hnot
      exact absurd (List.mem_append_right u List.mem_cons_self) hnot
  · exact ⟨t, hu', hrest⟩

/-- What begins with the same scheme. -/
def Alike (v v' : Bytes) : Prop :=
  v.take 7 = v'.take 7 ∧ ∃ t t', v = code 'h' :: code 't' :: t ∧ v' = code 'h' :: code 't' :: t'

theorem twoRunes_alike {v v' : Bytes} (h : Alike v v') (x : Bytes) :
    twoRunes (x ++ v) = twoRunes (x ++ v') := by
  obtain ⟨htake, t, t', rfl, rfl⟩ := h
  cases x with
  | nil =>
    rw [List.nil_append, List.nil_append,
      twoRunes_ascii (by decide) (by decide) (by decide) (by decide),
      twoRunes_ascii (by decide) (by decide) (by decide) (by decide)]
  | cons b x =>
    apply twoRunes_congr
    show b :: (x ++ _).take 7 = b :: (x ++ _).take 7
    have hshort := congrArg (List.take (7 - x.length)) htake
    rw [List.take_take, List.take_take, Nat.min_eq_left (Nat.sub_le 7 x.length)] at hshort
    rw [List.take_append, List.take_append, hshort]

/-- Whether a URL begins in front does not depend on what follows the scheme. -/
theorem urlMatch_none {u v v' : Bytes} (h : Alike v v') (hu : u ≠ [])
    (hnone : urlMatch (u ++ v) = none) : urlMatch (u ++ v') = none := by
  have halike := h
  obtain ⟨-, t, t', rfl, rfl⟩ := h
  rw [urlMatch, Option.bind_eq_none_iff] at hnone ⊢
  rintro ⟨scheme, rest⟩ hdrop
  obtain ⟨hscheme, heq⟩ := dropScheme_eq_some hdrop
  obtain ⟨x, rfl, rfl⟩ := scheme_in_front hscheme hu heq
  have hsame := hnone (scheme, x ++ code 'h' :: code 't' :: t) (by
    rw [List.append_assoc]
    exact dropScheme_append hscheme _)
  rw [Option.map_eq_none_iff] at hsame ⊢
  rw [← twoRunes_alike halike x]
  exact hsame

/-- A dropped part has only what is dropped. -/
theorem all_of_dropWhile {p : UInt8 → Bool} {l t : Bytes} (h : (l ++ t).dropWhile p = t) :
    ∀ b ∈ l, p b = true := by
  induction l with
  | nil => exact fun _ hb => nomatch hb
  | cons b l ih =>
    have hp : p b = true := by
      by_contra hp
      rw [List.cons_append, List.dropWhile_cons_of_neg hp] at h
      have hlength := congrArg List.length h
      rw [List.length_cons, List.length_append] at hlength
      omega
    rw [List.cons_append, List.dropWhile_cons_of_pos hp] at h
    rw [List.forall_mem_cons]
    exact ⟨hp, ih h⟩

theorem length_dropWhile_le (p : UInt8 → Bool) (l : Bytes) :
    (l.dropWhile p).length ≤ l.length := (List.dropWhile_suffix p).length_le

/-- **A URL that ends in front ends there whatever follows the scheme.** -/
theorem urlMatch_in_front {u v v' y : Bytes} (h : Alike v v')
    (hsome : urlMatch (u ++ v) = some (y ++ v)) (hu : u ≠ []) :
    urlMatch (u ++ v') = some (y ++ v') := by
  have halike := h
  obtain ⟨-, t, t', rfl, rfl⟩ := h
  rw [urlMatch, Option.bind_eq_some_iff] at hsome
  obtain ⟨⟨scheme, rest⟩, hdrop, hmatch⟩ := hsome
  obtain ⟨n, hn, hrest⟩ := Option.map_eq_some_iff.mp hmatch
  obtain ⟨hscheme, heq⟩ := dropScheme_eq_some hdrop
  obtain ⟨x, rfl, rfl⟩ := scheme_in_front hscheme hu heq
  change ((x ++ code 'h' :: code 't' :: t).drop n).dropWhile (fun b => !isSpace b) = _ at hrest
  have hlong : n ≤ x.length := by
    by_contra hlt
    have hle := length_dropWhile_le (fun b => !isSpace b)
      ((x ++ code 'h' :: code 't' :: t).drop n)
    rw [hrest, List.length_drop, List.length_append, List.length_append, List.length_cons,
      List.length_cons] at hle
    omega
  rw [List.drop_append_of_le_length hlong] at hrest
  -- the match ends at a blank that is in front
  have hblank : ∃ b ∈ x.drop n, isSpace b = true := by
    by_contra hnone
    push Not at hnone
    have hall : ∀ b ∈ x.drop n, (!isSpace b) = true := fun b hb => by simp [hnone b hb]
    rw [List.dropWhile_append_of_pos hall, List.dropWhile_cons_of_pos (by decide)] at hrest
    have hle := length_dropWhile_le (fun b => !isSpace b) (code 't' :: t)
    rw [hrest, List.length_append, List.length_cons] at hle
    omega
  have hfront : ∀ t : Bytes, (x.drop n ++ t).dropWhile (fun b => !isSpace b) =
      (x.drop n).dropWhile (fun b => !isSpace b) ++ t := by
    intro t
    rw [List.dropWhile_append, if_neg]
    intro hempty
    obtain ⟨b, hb, hspace⟩ := hblank
    have hall := List.dropWhile_eq_nil_iff.mp (List.isEmpty_iff.mp hempty) b hb
    rw [hspace] at hall
    exact absurd hall (by decide)
  rw [hfront] at hrest
  have hy := List.append_cancel_right hrest
  have hn' : twoRunes (x ++ code 'h' :: code 't' :: t') = some n := by
    rw [← twoRunes_alike halike x]
    exact hn
  rw [urlMatch, List.append_assoc, dropScheme_append hscheme, Option.bind_some, hn',
    Option.map_some]
  show some (((x ++ code 'h' :: code 't' :: t').drop n).dropWhile fun b => !isSpace b) = _
  rw [List.drop_append_of_le_length hlong, hfront, hy]

/-! ### The text in front of a URL -/

theorem forward_maskURLPattern : Forward maskURLPattern := by
  intro x y h
  obtain ⟨l, hl, rfl⟩ := Option.map_eq_some_iff.mp h
  rw [urlMatch, Option.bind_eq_some_iff] at hl
  obtain ⟨⟨scheme, rest⟩, hdrop, hmatch⟩ := hl
  obtain ⟨n, -, rfl⟩ := Option.map_eq_some_iff.mp hmatch
  obtain ⟨hscheme, heq⟩ := dropScheme_eq_some hdrop
  refine ⟨scheme ++ ascii "://" ++
    (rest.take n ++ (rest.drop n).takeWhile fun b => !isSpace b), ?_, ?_⟩
  · rcases hscheme with rfl | rfl <;> exact List.cons_ne_nil _ _
  · show x.rest = _ ++ (rest.drop n).dropWhile fun b => !isSpace b
    rw [List.append_assoc, List.append_assoc, List.append_assoc,
      List.takeWhile_append_dropWhile, List.take_append_drop, ← List.append_assoc]
    exact heq

/-- **What is found in front of a scheme** does not depend on what follows it. -/
theorem pieces_in_front {v v' : Bytes} (halike : Alike v v') {ps : List (Piece UInt8)}
    (hps : ps.flatMap Piece.text = v) : ∀ (before : List (Piece UInt8)) (x : Place UInt8),
    pieces isWord maskURLPattern x = before ++ ps →
    ∀ b, pieces isWord maskURLPattern ⟨b, before.flatMap Piece.text ++ v'⟩ =
      before ++ pieces isWord maskURLPattern ⟨false, v'⟩ := by
  intro before
  induction before with
  | nil => exact fun _ _ _ => pieces_flag rfl
  | cons p before ih =>
    intro x hx b
    have htext := flatMap_text forward_maskURLPattern _ x hx
    rw [List.flatMap_append, List.flatMap_cons, hps] at htext
    rcases pieces_eq_cons forward_maskURLPattern hx with
      ⟨c, l, -, hnone, rfl, hl⟩ | ⟨w, y, hw, hrest, hsome, rfl, hl⟩
    · have hnone' : urlMatch ((c :: before.flatMap Piece.text) ++ v') = none := by
        apply urlMatch_none halike (List.cons_ne_nil _ _)
        rw [maskURLPattern, ← htext] at hnone
        exact Option.map_eq_none_iff.mp hnone
      have hfind : maskURLPattern ⟨b, c :: (before.flatMap Piece.text ++ v')⟩ = none :=
        Option.map_eq_none_iff.mpr hnone'
      show pieces _ _ ⟨b, c :: (before.flatMap Piece.text ++ v')⟩ = _
      rw [pieces_plain hfind, ih _ hl.symm]
      rfl
    · have hbehind : (before ++ ps).flatMap Piece.text = y.rest :=
        flatMap_text forward_maskURLPattern _ y hl.symm
      rw [List.flatMap_append, hps] at hbehind
      obtain ⟨t, ht, rfl⟩ := Option.map_eq_some_iff.mp hsome
      change _ = t at hbehind
      rw [← htext, ← hbehind] at ht
      have hmatch : urlMatch ((w ++ before.flatMap Piece.text) ++ v') =
          some (before.flatMap Piece.text ++ v') := by
        apply urlMatch_in_front halike ht
        exact List.append_ne_nil_of_left_ne_nil hw _
      rw [List.append_assoc] at hmatch
      have hfind : maskURLPattern ⟨b, w ++ (before.flatMap Piece.text ++ v')⟩ =
          some ⟨false, before.flatMap Piece.text ++ v'⟩ := by
        rw [maskURLPattern, hmatch]
        rfl
      rw [List.flatMap_cons, List.append_assoc]
      show pieces _ _ ⟨b, w ++ (before.flatMap Piece.text ++ v')⟩ = _
      rw [pieces_found hw hfind, ih _ hl.symm]
      rfl

/-! ### Addresses -/

structure IPv4 where
  o1 : UInt8
  o2 : UInt8
  o3 : UInt8
  o4 : UInt8

/-- The decimal digits of an octet. -/
def octet (n : UInt8) : Bytes := (Nat.toDigits 10 n.toNat).map code

/-- The octets, with dots between them. -/
def IPv4.text (a : IPv4) : Bytes :=
  [code '.'].intercalate [octet a.o1, octet a.o2, octet a.o3, octet a.o4]

theorem octet_spec (n : UInt8) :
    (octet n).all isDigit = true ∧ 1 ≤ (octet n).length ∧ (octet n).length ≤ 3 ∧
      (octet n).foldl (fun v b => v * 10 + (b.toNat - 48)) 0 = n.toNat := by
  have hall : ∀ k < 256, (octet (UInt8.ofNat k)).all isDigit = true ∧
      1 ≤ (octet (UInt8.ofNat k)).length ∧ (octet (UInt8.ofNat k)).length ≤ 3 ∧
      (octet (UInt8.ofNat k)).foldl (fun v b => v * 10 + (b.toNat - 48)) 0 =
        (UInt8.ofNat k).toNat := by
    decide +kernel
  have hn := hall n.toNat n.toNat_lt
  rwa [UInt8.ofNat_toNat] at hn

theorem isDigit_of_mem_octet {n b : UInt8} (h : b ∈ octet n) : isDigit b = true :=
  List.all_eq_true.mp (octet_spec n).1 b h

theorem dot_not_mem_octet (n : UInt8) : code '.' ∉ octet n := fun h =>
  absurd (isDigit_of_mem_octet h) (by decide)

theorem octet_injective {m n : UInt8} (h : octet m = octet n) : m = n := by
  have hm := (octet_spec m).2.2.2
  rw [h, (octet_spec n).2.2.2] at hm
  exact UInt8.toNat_inj.mp hm.symm

theorem IPv4.text_eq (a : IPv4) : a.text = octet a.o1 ++ code '.' ::
    (octet a.o2 ++ code '.' :: (octet a.o3 ++ code '.' :: octet a.o4)) := by
  simp only [IPv4.text, List.intercalate_cons_cons, List.intercalate_singleton, List.append_assoc,
    List.singleton_append]

theorem IPv4.mem_text {a : IPv4} {b : UInt8} (h : b ∈ a.text) :
    isDigit b = true ∨ b = code '.' := by
  rw [IPv4.text_eq] at h
  simp only [List.mem_append, List.mem_cons] at h
  rcases h with h | rfl | h | rfl | h | rfl | h
  · exact Or.inl (isDigit_of_mem_octet h)
  · exact Or.inr rfl
  · exact Or.inl (isDigit_of_mem_octet h)
  · exact Or.inr rfl
  · exact Or.inl (isDigit_of_mem_octet h)
  · exact Or.inr rfl
  · exact Or.inl (isDigit_of_mem_octet h)

theorem isDigit_cases {b : UInt8} (h : isDigit b = true) :
    b.toNat < 0x80 ∧ isHostStart b.toNat = true ∧ b.toNat ≠ 10 ∧ isSpace b = false := by
  have hall : ∀ k < 256, isDigit (UInt8.ofNat k) = true →
      (UInt8.ofNat k).toNat < 0x80 ∧ isHostStart (UInt8.ofNat k).toNat = true ∧
        (UInt8.ofNat k).toNat ≠ 10 ∧ isSpace (UInt8.ofNat k) = false := by
    decide +kernel
  have hb := hall b.toNat b.toNat_lt
  rw [UInt8.ofNat_toNat] at hb
  exact hb h

theorem IPv4.isSpace_of_mem {a : IPv4} {b : UInt8} (h : b ∈ a.text) : isSpace b = false := by
  rcases a.mem_text h with h | rfl
  · exact (isDigit_cases h).2.2.2
  · rfl

/-- An address begins with a digit, and has something behind it. -/
theorem IPv4.text_begins (a : IPv4) : ∃ b c l, a.text = b :: c :: l ∧ isDigit b = true ∧
    (isDigit c = true ∨ c = code '.') := by
  obtain ⟨b, l, hl⟩ := List.exists_cons_of_length_pos (octet_spec a.o1).2.1
  have htext := a.text_eq
  have hb : isDigit b = true := isDigit_of_mem_octet (hl ▸ List.mem_cons_self)
  rw [hl] at htext
  cases l with
  | nil => exact ⟨b, _, _, htext, hb, Or.inr rfl⟩
  | cons c l =>
    have hc : c ∈ octet a.o1 := hl ▸ List.mem_cons_of_mem _ List.mem_cons_self
    exact ⟨b, c, _, htext, hb, Or.inl (isDigit_of_mem_octet hc)⟩

theorem twoRunes_text (a : IPv4) (l : Bytes) : twoRunes (a.text ++ l) = some 2 := by
  obtain ⟨b, c, t, htext, hb, hc⟩ := a.text_begins
  obtain ⟨hb, hstart, -⟩ := isDigit_cases hb
  rw [htext]
  rcases hc with hc | rfl
  · obtain ⟨hc, -, hbreak, -⟩ := isDigit_cases hc
    exact twoRunes_ascii hb hstart hc hbreak _
  · exact twoRunes_ascii hb hstart (by decide) (by decide) _

theorem IPv4.two_le_length (a : IPv4) : 2 ≤ a.text.length := by
  obtain ⟨b, c, t, htext, -, -⟩ := a.text_begins
  simp [htext]

theorem twoRunes_at (a : IPv4) (l : Bytes) : twoRunes (code '@' :: (a.text ++ l)) = some 2 := by
  obtain ⟨b, c, t, htext, hb, -⟩ := a.text_begins
  obtain ⟨hb, -, hbreak, -⟩ := isDigit_cases hb
  rw [htext]
  exact twoRunes_ascii (by decide) (by decide) hb hbreak _

/-- **The first two runes behind the scheme** do not depend on the address. -/
theorem twoRunes_around {login : Bytes} (h : IsLogin login) : ∃ m : Option Nat,
    (∀ n, m = some n → n ≤ login.length + 2) ∧
      ∀ (a : IPv4) (l : Bytes), twoRunes (login ++ (a.text ++ l)) = m := by
  rcases h with rfl | ⟨userinfo, rfl⟩
  · exact ⟨some 2, fun n hn => (Option.some.inj hn) ▸ Nat.le_refl 2, twoRunes_text⟩
  · cases userinfo with
    | nil => exact ⟨some 2, fun n hn => (Option.some.inj hn) ▸ Nat.le_succ 2, twoRunes_at⟩
    | cons b u =>
      have hat : (code '@').toNat < 0x80 := by decide
      refine ⟨twoRunes (b :: u ++ code '@' :: []), fun n hn => ?_, fun a l => ?_⟩
      · rw [twoRunes, Option.bind_eq_some_iff] at hn
        obtain ⟨k, hk, hn⟩ := hn
        obtain ⟨m, hm, rfl⟩ := Option.map_eq_some_iff.mp hn
        have hfirst := (runeWidth_stop hat isHostStart (b :: u) [] []).2 k hk
        rw [List.length_cons] at hfirst
        rw [List.drop_append_of_le_length (by rw [List.length_cons]; omega)] at hm
        have hsecond := (runeWidth_stop hat _ ((b :: u).drop k) [] []).2 m hm
        rw [List.length_drop, List.length_cons] at hsecond
        simp only [List.length_append, List.length_cons, List.length_nil]
        omega
      · rw [List.append_assoc, List.singleton_append, twoRunes, twoRunes,
          (runeWidth_stop hat isHostStart (b :: u) (a.text ++ l) []).1]
        cases hk : runeWidth isHostStart (b :: u ++ code '@' :: []) with
        | none => rfl
        | some k =>
          have hfirst := (runeWidth_stop hat isHostStart (b :: u) [] []).2 k hk
          rw [List.length_cons] at hfirst
          have hle : k ≤ (b :: u).length := by
            rw [List.length_cons]
            omega
          simp only [Option.bind_some]
          rw [List.drop_append_of_le_length hle, List.drop_append_of_le_length hle,
            (runeWidth_stop hat _ ((b :: u).drop k) (a.text ++ l) []).1]

/-- **A URL with an address ends where it ends with any other one.** -/
theorem urlMatch_replace {scheme login l post : Bytes} (hscheme : IsScheme scheme)
    (hlogin : IsLogin login) {a : IPv4}
    (h : urlMatch (scheme ++ ascii "://" ++ (login ++ (a.text ++ l)) ++ post) = some post)
    (b : IPv4) :
    urlMatch (scheme ++ ascii "://" ++ (login ++ (b.text ++ l)) ++ post) = some post ∧
      post.dropWhile (fun b => !isSpace b) = post := by
  obtain ⟨m, hbound, hrunes⟩ := twoRunes_around hlogin
  have hmatch : ∀ a : IPv4, urlMatch (scheme ++ ascii "://" ++ (login ++ (a.text ++ l)) ++ post) =
      m.map fun n => ((login.drop n ++ (a.text.drop (n - login.length) ++ l)) ++ post).dropWhile
        fun b => !isSpace b := by
    intro a
    rw [List.append_assoc (scheme ++ ascii "://"), urlMatch, dropScheme_append hscheme,
      Option.bind_some, List.append_assoc login, List.append_assoc a.text, hrunes]
    cases m with
    | none => rfl
    | some n =>
      have hle : n - login.length ≤ a.text.length := by
        have hn := hbound n rfl
        have htwo := a.two_le_length
        omega
      rw [Option.map_some, Option.map_some, List.drop_append,
        List.drop_append_of_le_length hle]
      simp only [List.append_assoc]
  rw [hmatch] at h
  obtain ⟨n, rfl, hdrop⟩ := Option.map_eq_some_iff.mp h
  have hall := all_of_dropWhile hdrop
  rw [List.dropWhile_append_of_pos hall] at hdrop
  refine ⟨?_, hdrop⟩
  have hall' : ∀ c ∈ login.drop n ++ (b.text.drop (n - login.length) ++ l),
      (!isSpace c) = true := by
    intro c hc
    rcases List.mem_append.mp hc with hc | hc
    · exact hall c (List.mem_append_left _ hc)
    · rcases List.mem_append.mp hc with hc | hc
      · rw [b.isSpace_of_mem (List.mem_of_mem_drop hc)]
        rfl
      · exact hall c (List.mem_append_right _ (List.mem_append_right _ hc))
  rw [hmatch, Option.map_some, List.dropWhile_append_of_pos hall', hdrop]

/-! ### URLs in a text -/

/-- What an address or a domain can contain. -/
def Joins (b : UInt8) : Prop := (isWord b || b == code '-' || b == code '.') = true

instance (b : UInt8) : Decidable (Joins b) := inferInstanceAs (Decidable (_ = true))

/-- A text that nothing in front of it is joined with. -/
def Apart (l : Bytes) : Prop := ∀ c ∈ l.head?, ¬ Joins c

theorem apart_nil : Apart [] := fun _ h => nomatch h

theorem apart_cons {c : UInt8} (hc : ¬ Joins c) (l : Bytes) : Apart (c :: l) := by
  intro d hd
  obtain rfl := Option.some.inj hd
  exact hc

theorem Apart.append {l t : Bytes} (hl : Apart l) (ht : Apart t) : Apart (l ++ t) := by
  cases l with
  | nil => exact ht
  | cons c l => exact hl

/-- What an address can be followed by without being continued. -/
def IsRun (run : Bytes) : Prop := ∀ b ∈ run, b = code '.' ∨ b = code '-'

theorem IsRun.isWord_head {run : Bytes} (h : IsRun run) : run.head?.any isWord = false := by
  cases run with
  | nil => rfl
  | cons b run =>
    rcases h b List.mem_cons_self with rfl | rfl
    · rfl
    · rfl

theorem IsRun.isLetter {run : Bytes} (h : IsRun run) {b : UInt8} (hb : b ∈ run) :
    isLetter b = false := by
  rcases h b hb with rfl | rfl
  · rfl
  · rfl

/-- **An address ends in front of the text**: past dots and hyphens there is a byte of no
name, or nothing. -/
def Ended (l : Bytes) : Prop := ∃ run t, l = run ++ t ∧ IsRun run ∧ Apart t

/-- **A URL that is found in a text and has an address as its host.** -/
structure UrlIn (s : Bytes) (a : IPv4) where
  before : List (Piece UInt8)
  scheme : Bytes
  /-- A name with its at sign, perhaps with a password. -/
  login : Bytes
  /-- What follows the address: the port, and whatever else the text goes on with. -/
  tail : Bytes
  /-- The path, the query and the fragment. -/
  rest : Bytes
  after : List (Piece UInt8)
  isScheme : IsScheme scheme
  isLogin : IsLogin login
  inLogin : ∀ b ∈ login, InAuthority b
  inTail : ∀ b ∈ tail, InAuthority b
  /-- The address is not a part of a login. -/
  isHost : code '@' ∉ tail
  isEnded : Ended tail
  isRest : IsRest rest
  found : pieces isWord maskURLPattern ⟨false, s⟩ =
    before ++ .found (scheme ++ ascii "://" ++ (login ++ (a.text ++ (tail ++ rest)))) :: after

namespace UrlIn

variable {s : Bytes} {a : IPv4} (u : UrlIn s a)

/-- The URL with another address. -/
def url (b : IPv4) : Bytes :=
  u.scheme ++ ascii "://" ++ (u.login ++ (b.text ++ (u.tail ++ u.rest)))

/-- What is behind the URL. -/
def post : Bytes := u.after.flatMap Piece.text

/-- The text with another address. -/
def replace (b : IPv4) : Bytes := u.before.flatMap Piece.text ++ (u.url b ++ u.post)

theorem replace_self : u.replace a = s := by
  have htext := flatMap_text forward_maskURLPattern _ _ u.found
  rwa [List.flatMap_append, List.flatMap_cons] at htext

theorem alike (b : IPv4) : Alike (u.url a ++ u.post) (u.url b ++ u.post) := by
  unfold url
  rcases u.isScheme with h | h
  · rw [h]
    exact ⟨rfl, _, _, rfl, rfl⟩
  · rw [h]
    exact ⟨rfl, _, _, rfl, rfl⟩

theorem found_spec : urlMatch (u.url a ++ u.post) = some u.post ∧
    pieces isWord maskURLPattern ⟨false, u.post⟩ = u.after := by
  obtain ⟨b, hb⟩ := pieces_append forward_maskURLPattern _ _ _ u.found
  rcases pieces_eq_cons forward_maskURLPattern hb with
    ⟨c, l, -, -, hp, -⟩ | ⟨w, y, -, hrest, hsome, hp, hl⟩
  · exact nomatch hp
  · obtain ⟨t, ht, rfl⟩ := Option.map_eq_some_iff.mp hsome
    have hpost := flatMap_text forward_maskURLPattern _ _ hl.symm
    change u.post = t at hpost
    subst hpost
    exact ⟨ht, hl.symm⟩

theorem url_ne_nil (b : IPv4) : u.url b ≠ [] := by
  unfold url
  rcases u.isScheme with h | h
  · rw [h]
    exact List.cons_ne_nil _ _
  · rw [h]
    exact List.cons_ne_nil _ _

theorem post_spec : u.post.dropWhile (fun b => !isSpace b) = u.post :=
  (urlMatch_replace u.isScheme u.isLogin u.found_spec.1 a).2

/-- **With another address the URL is found in the same place**, and nothing else changes. -/
theorem pieces_replace (b : IPv4) : pieces isWord maskURLPattern ⟨false, u.replace b⟩ =
    u.before ++ .found (u.url b) :: u.after := by
  have hmatch : urlMatch (u.url b ++ u.post) = some u.post :=
    (urlMatch_replace u.isScheme u.isLogin u.found_spec.1 b).1
  have hfind : maskURLPattern ⟨false, u.url b ++ u.post⟩ = some ⟨false, u.post⟩ :=
    Option.map_eq_some_iff.mpr ⟨_, hmatch, rfl⟩
  rw [replace, pieces_in_front (u.alike b) (List.flatMap_cons ..) u.before _ u.found,
    pieces_found (u.url_ne_nil b) hfind, u.found_spec.2]

end UrlIn

end AuthGateway.UrlPattern
