import AuthGateway.UrlPattern

/-!
# Addresses in URLs are not masked

`maskHostForURL` keeps the last part of a host, and two parts where the last one has two bytes,
as of a country.  Of an address that is its last octet, with the port, or its last two; what the
text goes on with behind the address counts as a part of the host.

**A URL's address can be told from another one in the masked text exactly when octets that are
kept differ**, unless the URL cannot be parsed: then it stays in the text, and is masked there as
any other address (`masked_alike_iff`).
-/

namespace AuthGateway.MaskedUrls

open Url Regex Common UrlPattern

/-! ### Bytes that stop a match -/

theorem joins_of_isWord {b : UInt8} (h : isWord b = true) : Joins b := by
  unfold Joins
  rw [h]
  rfl

theorem joins_of_isAlphanumeric {b : UInt8} (h : isAlphanumeric b = true) : Joins b := by
  apply joins_of_isWord
  unfold isWord
  rw [h]
  rfl

theorem joins_of_isLetter {b : UInt8} (h : isLetter b = true) : Joins b := by
  apply joins_of_isAlphanumeric
  unfold isAlphanumeric
  rw [h]
  rfl

theorem joins_of_isDigit {b : UInt8} (h : isDigit b = true) : Joins b := by
  apply joins_of_isAlphanumeric
  unfold isAlphanumeric
  rw [h, Bool.or_true]

theorem joins_of_dot {b : UInt8} (h : (b == code '.') = true) : Joins b := by
  obtain rfl := beq_iff_eq.mp h
  decide

theorem isWord_of_not_joins {b : UInt8} (h : ¬ Joins b) : isWord b = false :=
  Bool.eq_false_iff.mpr fun hword => h (joins_of_isWord hword)

theorem within_maskDomainPattern : maskDomainPattern.Within Joins := by
  have hinner : ∀ b : UInt8, (isAlphanumeric b || b == code '-') = true → Joins b := by
    intro b hb
    rcases Bool.or_eq_true_iff.mp hb with hb | hb
    · exact joins_of_isAlphanumeric hb
    · obtain rfl := beq_iff_eq.mp hb
      decide
  have hletter : ∀ b : UInt8, isLetter b = true → Joins b := fun _ => joins_of_isLetter
  have halphanumeric : ∀ b : UInt8, isAlphanumeric b = true → Joins b := fun _ =>
    joins_of_isAlphanumeric
  have hlabel : domainLabel.Within Joins :=
    ⟨⟨halphanumeric, hinner, halphanumeric⟩, fun _ => joins_of_dot⟩
  exact ⟨trivial, ⟨⟨hlabel, hlabel⟩, hletter, hletter, hletter⟩, trivial⟩

theorem within_maskIPPattern : maskIPPattern.Within Joins := by
  have hdigits : ipDigits.Within Joins := ⟨fun _ => joins_of_isDigit, fun _ => joins_of_isDigit⟩
  have hpart : ipPart.Within Joins := ⟨hdigits, fun _ => joins_of_dot⟩
  exact ⟨trivial, ⟨hpart, hpart, hpart, hdigits⟩, trivial⟩

theorem stops_of_within {r : Regex UInt8} (hr : r.Within Joins) {c : UInt8} (hc : ¬ Joins c) :
    Stops (first isWord r) c :=
  stops_first hr hc (isWord_of_not_joins hc)

theorem replaceAll_apart {r : Regex UInt8} (hr : r.Within Joins) (f : Bytes → Bytes) {t : Bytes}
    (ht : Apart t) (l : Bytes) :
    replaceAll isWord (first isWord r) f (l ++ t) =
      replaceAll isWord (first isWord r) f l ++ replaceAll isWord (first isWord r) f t := by
  cases t with
  | nil =>
    rw [List.append_nil]
    exact (List.append_nil _).symm
  | cons c t =>
    have hc : ¬ Joins c := ht c rfl
    have hword : isWord c = false := isWord_of_not_joins hc
    have hright := replaceAll_stop (stops_of_within hr hc) hword f [] t
    rw [List.nil_append] at hright
    rw [replaceAll_stop (stops_of_within hr hc) hword, hright]
    rfl

theorem apart_replaceAll {r : Regex UInt8} (hr : r.Within Joins) (f : Bytes → Bytes) {t : Bytes}
    (ht : Apart t) : Apart (replaceAll isWord (first isWord r) f t) := by
  cases t with
  | nil => exact apart_nil
  | cons c t =>
    have hc : ¬ Joins c := ht c rfl
    have hword : isWord c = false := isWord_of_not_joins hc
    have hright := replaceAll_stop (stops_of_within hr hc) hword f [] t
    rw [List.nil_append] at hright
    rw [hright]
    exact apart_cons hc _

/-- What is masked when the URLs are. -/
def maskOthers (l : Bytes) : Bytes := maskIPs (maskDomains l)

theorem maskSensitiveInfo_eq (range : Nat → List Bytes → List Bytes) (s : Bytes) :
    maskSensitiveInfo range s = maskOthers (maskURLs range s) := rfl

/-- **Parts that are not joined are masked each for itself.** -/
theorem maskOthers_append {t : Bytes} (ht : Apart t) (l : Bytes) :
    maskOthers (l ++ t) = maskOthers l ++ maskOthers t := by
  have hdomains : maskDomains (l ++ t) = maskDomains l ++ maskDomains t :=
    replaceAll_apart within_maskDomainPattern _ ht l
  have happart : Apart (maskDomains t) := apart_replaceAll within_maskDomainPattern _ ht
  rw [maskOthers, hdomains]
  exact replaceAll_apart within_maskIPPattern _ happart _

theorem maskOthers_cons {c : UInt8} (hc : ¬ Joins c) (l : Bytes) :
    maskOthers (c :: l) = c :: maskOthers l := by
  have hword : isWord c = false := isWord_of_not_joins hc
  have hdomains : maskDomains (c :: l) = c :: maskDomains l :=
    replaceAll_stop (stops_of_within within_maskDomainPattern hc) hword _ [] l
  rw [maskOthers, hdomains]
  exact replaceAll_stop (stops_of_within within_maskIPPattern hc) hword _ [] _

theorem maskOthers_between {c : UInt8} (hc : ¬ Joins c) {t : Bytes} (ht : Apart t) (l m : Bytes) :
    maskOthers (l ++ c :: (m ++ t)) = maskOthers l ++ c :: (maskOthers m ++ maskOthers t) := by
  rw [maskOthers_append (apart_cons hc _), maskOthers_cons hc, maskOthers_append ht]

theorem maskHostForPlainDomain_ne_nil {w : Bytes} (h : w ≠ []) : maskHostForPlainDomain w ≠ [] := by
  unfold maskHostForPlainDomain
  dsimp only
  split
  · exact h
  · exact List.append_ne_nil_of_left_ne_nil (List.append_ne_nil_of_right_ne_nil _ (by decide)) _

theorem maskOthers_ne_nil {l : Bytes} (h : l ≠ []) : maskOthers l ≠ [] := by
  have hdomains : maskDomains l ≠ [] :=
    replaceAll_ne_nil (fun _ hw => maskHostForPlainDomain_ne_nil hw) h
  exact replaceAll_ne_nil (fun _ _ => by decide) hdomains

/-! ### Texts without a domain -/

theorem isLetter_of_isDigit {b : UInt8} (h : isDigit b = true) : isLetter b = false := by
  have hall : ∀ k < 256, isDigit (UInt8.ofNat k) = true → isLetter (UInt8.ofNat k) = false := by
    decide +kernel
  have hb := hall b.toNat b.toNat_lt
  rw [UInt8.ofNat_toNat] at hb
  exact hb h

theorem mem_ends_of_first {r : Regex UInt8} {x y : Place UInt8}
    (h : first isWord r x = some y) : y ∈ r.ends isWord x := List.mem_of_head? h

theorem exists_isLetter {w : Bytes} (h : maskDomainPattern.Lang w) :
    ∃ b ∈ w, isLetter b = true := by
  obtain ⟨-, w, -, ⟨w, -, ⟨u, v, -, ⟨-, v, ⟨b, hb, rfl⟩, -, rfl⟩, rfl⟩, -, rfl⟩, rfl⟩ := h
  exact ⟨b, by simp, hb⟩

theorem maskDomains_of_letterless {l : Bytes} (h : ∀ b ∈ l, isLetter b = false) :
    maskDomains l = l := by
  apply replaceAll_of_none
  intro flag t ht
  by_contra hsome
  obtain ⟨y, hy⟩ := Option.ne_none_iff_exists'.mp hsome
  obtain ⟨w, hw, hrest, -⟩ := passes_of_mem_ends _ _ _ (mem_ends_of_first hy)
  obtain ⟨b, hb, hletter⟩ := exists_isLetter hw
  change t = w ++ y.rest at hrest
  have hmem : b ∈ t := by
    rw [hrest]
    exact List.mem_append_left _ hb
  rw [h b (ht.mem hmem)] at hletter
  cases hletter

theorem exists_dot {w : Bytes} (h : maskDomainPattern.Lang w) :
    ∃ c l, w = c :: l ∧ isAlphanumeric c = true ∧ code '.' ∈ l := by
  obtain ⟨-, -, rfl, ⟨-, -, ⟨-, letters, ⟨-, labels, ⟨-, -, ⟨-, inner, ⟨c, hc, rfl⟩, -, rfl⟩,
    ⟨d, hd, rfl⟩, rfl⟩, -, rfl⟩, -, rfl⟩, rfl, rfl⟩, rfl⟩ := h
  obtain rfl := beq_iff_eq.mp hd
  exact ⟨c, inner ++ [code '.'] ++ labels ++ letters ++ [], by simp, hc, by simp⟩

theorem maskDomains_of_dotless {l : Bytes} (h : code '.' ∉ l) :
    maskDomains (code '.' :: l) = code '.' :: l := by
  apply replaceAll_of_none
  intro flag t ht
  by_contra hsome
  obtain ⟨y, hy⟩ := Option.ne_none_iff_exists'.mp hsome
  obtain ⟨w, hw, hrest, -⟩ := passes_of_mem_ends _ _ _ (mem_ends_of_first hy)
  obtain ⟨c, w, rfl, hc, hdot⟩ := exists_dot hw
  change t = c :: w ++ y.rest at hrest
  rw [hrest, List.cons_append, List.suffix_cons_iff] at ht
  rcases ht with heq | hsuffix
  · obtain ⟨rfl, -⟩ := List.cons.inj heq
    exact absurd hc (by decide)
  · exact h (hsuffix.mem (List.mem_cons_of_mem _ (List.mem_append_left _ hdot)))

/-! ### Addresses -/

theorem lang_ipDigits {w : Bytes} (h : ipDigits.Lang w) :
    w ≠ [] ∧ ∀ b ∈ w, isDigit b = true := by
  obtain ⟨-, -, ⟨b, hb, rfl⟩, ⟨us, -, hus, rfl⟩, rfl⟩ := h
  refine ⟨List.cons_ne_nil _ _, ?_⟩
  intro c hc
  rcases List.mem_append.mp hc with hc | hc
  · obtain rfl := List.mem_singleton.mp hc
    exact hb
  · obtain ⟨u, hu, hc⟩ := List.mem_flatten.mp hc
    obtain ⟨-, d, hd, rfl⟩ := hus u hu
    obtain rfl := List.mem_singleton.mp hc
    exact hd

/-- An address has three dots, and a number at its end. -/
theorem lang_ipBody {w : Bytes} (h : ipBody.Lang w) :
    ∃ front last, w = front ++ last ∧ ipDigits.Lang last ∧ 3 ≤ front.count (code '.') := by
  obtain ⟨-, -, ⟨d₁, -, -, ⟨c₁, hc₁, rfl⟩, rfl⟩, ⟨-, -, ⟨d₂, -, -, ⟨c₂, hc₂, rfl⟩, rfl⟩,
    ⟨-, d₄, ⟨d₃, -, -, ⟨c₃, hc₃, rfl⟩, rfl⟩, hlast, rfl⟩, rfl⟩, rfl⟩ := h
  obtain rfl := beq_iff_eq.mp hc₁
  obtain rfl := beq_iff_eq.mp hc₂
  obtain rfl := beq_iff_eq.mp hc₃
  refine ⟨d₁ ++ [code '.'] ++ (d₂ ++ [code '.'] ++ (d₃ ++ [code '.'])), d₄, ?_, hlast, ?_⟩
  · simp only [List.append_assoc]
  · simp only [List.count_append, List.count_singleton_self]
    omega

theorem lang_maskIPPattern {w : Bytes} (h : maskIPPattern.Lang w) : ipBody.Lang w := by
  obtain ⟨-, -, rfl, ⟨w, -, hw, rfl, rfl⟩, rfl⟩ := h
  rwa [List.nil_append, List.append_nil]

theorem maskIPs_of_count_lt {l : Bytes} (h : l.count (code '.') < 3) : maskIPs l = l := by
  apply replaceAll_of_none
  intro flag t ht
  by_contra hsome
  obtain ⟨y, hy⟩ := Option.ne_none_iff_exists'.mp hsome
  obtain ⟨w, hw, hrest, -⟩ := passes_of_mem_ends _ _ _ (mem_ends_of_first hy)
  obtain ⟨front, last, rfl, -, hcount⟩ := lang_ipBody (lang_maskIPPattern hw)
  change t = front ++ last ++ y.rest at hrest
  have hle : front.count (code '.') ≤ t.count (code '.') := by
    rw [hrest, List.append_assoc, List.count_append]
    exact Nat.le_add_right _ _
  have hle' := ht.sublist.count_le (code '.')
  omega

theorem ipDigits_octet (n : UInt8) : ipDigits.Lang (octet n) := by
  obtain ⟨b, l, hl⟩ := List.exists_cons_of_length_pos (octet_spec n).2.1
  have hdigits : ∀ c ∈ b :: l, isDigit c = true := fun c hc => isDigit_of_mem_octet (hl ▸ hc)
  rw [List.forall_mem_cons] at hdigits
  have hlength := (octet_spec n).2.2.1
  rw [hl, List.length_cons] at hlength
  refine ⟨[b], l, ⟨b, hdigits.1, rfl⟩, ⟨l.map fun c => [c], ?_, ?_, ?_⟩, hl⟩
  · rw [List.length_map]
    omega
  · intro u hu
    obtain ⟨c, hc, rfl⟩ := List.mem_map.mp hu
    exact ⟨List.cons_ne_nil _ _, c, hdigits.2 c hc, rfl⟩
  · exact (List.flatMap_singleton' l).symm

theorem ipBody_text (a : IPv4) : ipBody.Lang a.text := by
  have hpart : ∀ n, ipPart.Lang (octet n ++ [code '.']) := fun n =>
    ⟨octet n, [code '.'], ipDigits_octet n, ⟨code '.', rfl, rfl⟩, rfl⟩
  refine ⟨_, _, hpart a.o1, ⟨_, _, hpart a.o2, ⟨_, _, hpart a.o3, ipDigits_octet a.o4, rfl⟩, rfl⟩,
    ?_⟩
  rw [a.text_eq]
  simp only [List.append_assoc, List.singleton_append]

theorem isWord_of_isDigit {b : UInt8} (h : isDigit b = true) : isWord b = true := by
  unfold isWord isAlphanumeric
  rw [h, Bool.or_true, Bool.true_or]

theorem count_octet (n : UInt8) : (octet n).count (code '.') = 0 :=
  List.count_eq_zero.mpr (dot_not_mem_octet n)

theorem count_text (a : IPv4) : a.text.count (code '.') = 3 := by
  rw [a.text_eq]
  simp only [List.count_append, List.count_cons_self, count_octet]

theorem after_ipDigits {w : Bytes} (h : ipDigits.Lang w) (b : Bool) (front : Bytes) :
    after isWord b (front ++ w) = true := by
  obtain ⟨hne, hdigits⟩ := lang_ipDigits h
  rw [after_append, after, List.getLast?_eq_some_getLast hne]
  exact isWord_of_isDigit (hdigits _ (List.getLast_mem hne))

theorem rest_of_mem_ends {a : IPv4} {run : Bytes} (hrun : IsRun run) {y : Place UInt8}
    (h : y ∈ maskIPPattern.ends isWord ⟨false, a.text ++ run⟩) : y.rest = run := by
  obtain ⟨-, hbody, hend⟩ := mem_ends_bounded.mp h
  obtain ⟨w, hw, hrest, hafter⟩ := passes_of_mem_ends _ _ _ hbody
  obtain ⟨front, last, rfl, hlast, hcount⟩ := lang_ipBody hw
  change a.text ++ run = front ++ last ++ y.rest at hrest
  rw [after_ipDigits hlast] at hafter
  rw [hafter] at hend
  rcases List.append_eq_append_iff.mp hrest with ⟨z, hlong, hz⟩ | ⟨z, hshort, hz⟩
  · -- a match ends with a digit, so it ends with the address
    cases hcase : z.getLast? with
    | none =>
      obtain rfl := List.getLast?_eq_none_iff.mp hcase
      exact hz.symm
    | some c =>
      obtain ⟨hne, hdigits⟩ := lang_ipDigits hlast
      have hmem : c ∈ last := by
        have hfront : (front ++ last).getLast? = some c := by
          rw [hlong, List.getLast?_append, hcase]
          rfl
        rw [List.getLast?_append_of_ne_nil _ hne] at hfront
        exact List.mem_of_getLast? hfront
      have hdigit := hdigits c hmem
      have hin : c ∈ run := by
        rw [hz]
        exact List.mem_append_left _ (List.mem_of_getLast? hcase)
      rcases hrun c hin with rfl | rfl
      · exact absurd hdigit (by decide)
      · exact absurd hdigit (by decide)
  · -- and there is no fourth dot in an address
    cases z with
    | nil => exact hz
    | cons c z =>
      have hdots : (c :: z).count (code '.') = 0 := by
        have htext := count_text a
        rw [hshort, List.append_assoc, List.count_append, List.count_append] at htext
        omega
      have hmem : c ∈ a.text := by
        rw [hshort]
        exact List.mem_append_right _ List.mem_cons_self
      rcases a.mem_text hmem with hdigit | rfl
      · rw [hz, List.cons_append, List.head?_cons, Option.any_some,
          isWord_of_isDigit hdigit] at hend
        exact absurd rfl hend
      · rw [List.count_cons_self] at hdots
        exact absurd hdots (Nat.succ_ne_zero _)

theorem mem_ends_text (a : IPv4) {run : Bytes} (hrun : IsRun run) :
    ⟨true, run⟩ ∈ maskIPPattern.ends isWord ⟨false, a.text ++ run⟩ := by
  obtain ⟨c, d, t, htext, hc, -⟩ := a.text_begins
  have hstart : false ≠ (a.text ++ run).head?.any isWord := by
    rw [htext, List.cons_append, List.head?_cons, Option.any_some, isWord_of_isDigit hc]
    exact Bool.false_ne_true
  have hplain : ipBody.Plain := by
    have hpart : ipPart.Plain := ⟨⟨trivial, trivial⟩, trivial⟩
    exact ⟨hpart, hpart, hpart, trivial, trivial⟩
  have hbody : Place.mk (after isWord false a.text) run ∈
      ipBody.ends isWord ⟨false, a.text ++ run⟩ :=
    mem_ends_of_lang ipBody hplain a.text false run (ipBody_text a)
  have hafter : after isWord false a.text = true := by
    obtain ⟨front, last, heq, hlast, -⟩ := lang_ipBody (ipBody_text a)
    rw [heq]
    exact after_ipDigits hlast _ _
  rw [hafter] at hbody
  refine mem_ends_bounded.mpr ⟨hstart, hbody, ?_⟩
  show true ≠ run.head?.any isWord
  rw [hrun.isWord_head]
  decide

/-- Dots and hyphens are no address. -/
theorem first_run {run t : Bytes} (hrun : IsRun run) (ht : t <:+ run) (flag : Bool) :
    first isWord maskIPPattern ⟨flag, t⟩ = none := by
  by_contra hsome
  obtain ⟨y, hy⟩ := Option.ne_none_iff_exists'.mp hsome
  obtain ⟨w, hw, hrest, -⟩ := passes_of_mem_ends _ _ _ (mem_ends_of_first hy)
  obtain ⟨front, last, rfl, hlast, -⟩ := lang_ipBody (lang_maskIPPattern hw)
  obtain ⟨hne, hdigits⟩ := lang_ipDigits hlast
  obtain ⟨c, last, rfl⟩ := List.exists_cons_of_ne_nil hne
  change t = front ++ c :: last ++ y.rest at hrest
  have hmem : c ∈ t := by
    rw [hrest]
    simp
  have hdigit := hdigits c List.mem_cons_self
  rcases hrun c (ht.mem hmem) with rfl | rfl
  · exact absurd hdigit (by decide)
  · exact absurd hdigit (by decide)

/-- **An address is masked as a whole.** -/
theorem maskIPs_text (a : IPv4) {run : Bytes} (hrun : IsRun run) :
    maskIPs (a.text ++ run) = ascii "***.***.***.***" ++ run := by
  have hne : maskIPPattern.ends isWord ⟨false, a.text ++ run⟩ ≠ [] :=
    List.ne_nil_of_mem (mem_ends_text a hrun)
  obtain ⟨⟨b, t⟩, hfirst⟩ := Option.ne_none_iff_exists'.mp (mt List.head?_eq_none_iff.mp hne)
  obtain rfl : t = run := rest_of_mem_ends hrun (List.mem_of_head? hfirst)
  have htext : a.text ≠ [] := by
    obtain ⟨c, d, t, htext, -, -⟩ := a.text_begins
    rw [htext]
    exact List.cons_ne_nil _ _
  exact replaceAll_of_found htext hfirst (fun flag l hl => first_run hrun hl flag) _

theorem letterless_text {a : IPv4} {b : UInt8} (h : b ∈ a.text) : isLetter b = false := by
  rcases a.mem_text h with hdigit | rfl
  · exact isLetter_of_isDigit hdigit
  · rfl

theorem maskOthers_text (a : IPv4) {run : Bytes} (hrun : IsRun run) :
    maskOthers (a.text ++ run) = ascii "***.***.***.***" ++ run := by
  have hletters : ∀ b ∈ a.text ++ run, isLetter b = false := by
    intro b hb
    rcases List.mem_append.mp hb with hb | hb
    · exact letterless_text hb
    · exact hrun.isLetter hb
  rw [maskOthers, maskDomains_of_letterless hletters, maskIPs_text a hrun]

/-! ### Hosts -/

/-- **The octets that are kept** of an address that `t` follows in a host: the last one, and the
one before it where the last part of the host has two bytes.  With a dot in `t` the last octet is
kept in front of a part of two bytes, if it makes at most three with what follows it; with more
dots none is. -/
def kept (t : Bytes) (a : IPv4) : Option Bytes :=
  match t.splitOn (code '.') with
  | [t₀] =>
    some (if (octet a.o4).length + t₀.length = 2 then octet a.o3 ++ code '.' :: octet a.o4
      else octet a.o4)
  | [t₀, t₁] =>
    if t₁.length = 2 ∧ (octet a.o4).length + t₀.length ≤ 3 then some (octet a.o4) else none
  | _ => none

/-- What is kept where no octet is. -/
def keptBehind (t : Bytes) : Bytes :=
  [code '.'].intercalate (maskHostTail (t.splitOn (code '.')).tail)

theorem splitOn_append_left {b : UInt8} {l : Bytes} (h : b ∉ l) (t : Bytes) :
    (l ++ t).splitOn b = (t.splitOn b).modifyHead (l ++ ·) := by
  induction l with
  | nil =>
    rw [List.nil_append]
    cases t.splitOn b <;> rfl
  | cons c l ih =>
    rw [List.mem_cons, not_or] at h
    rw [List.cons_append, List.splitOn_cons_eq_if_modifyHead, if_neg (by simpa using Ne.symm h.1),
      ih h.2, List.modifyHead_modifyHead]
    rfl

theorem splitOn_text (a : IPv4) {t t₀ : Bytes} {ts : List Bytes}
    (h : t.splitOn (code '.') = t₀ :: ts) : (a.text ++ t).splitOn (code '.') =
      octet a.o1 :: octet a.o2 :: octet a.o3 :: (octet a.o4 ++ t₀) :: ts := by
  rw [a.text_eq, List.append_assoc, List.cons_append, List.append_assoc, List.cons_append,
    List.append_assoc, List.cons_append,
    List.splitOn_append_cons_self_of_not_mem (dot_not_mem_octet a.o1),
    List.splitOn_append_cons_self_of_not_mem (dot_not_mem_octet a.o2),
    List.splitOn_append_cons_self_of_not_mem (dot_not_mem_octet a.o3),
    splitOn_append_left (dot_not_mem_octet a.o4), h]
  rfl

/-- Only the last two parts count. -/
theorem maskHostTail_cons (p p₁ p₂ : Bytes) (parts : List Bytes) :
    maskHostTail (p :: p₁ :: p₂ :: parts) = maskHostTail (p₁ :: p₂ :: parts) := by
  have hlong : ∀ l : List Bytes, 2 ≤ l.length → maskHostTail l =
      if (l.getD (l.length - 1) []).length = 2 ∧ (l.getD (l.length - 2) []).length ≤ 3 then
        [l.getD (l.length - 2) [], l.getD (l.length - 1) []] else [l.getD (l.length - 1) []] :=
    fun l hl => if_neg (Nat.not_lt.mpr hl)
  rw [hlong _ (by simp), hlong _ (by simp)]
  rfl

/-- **Of an address as a host its end is kept.** -/
theorem maskHostForURL_text (a : IPv4) (t : Bytes) : maskHostForURL (a.text ++ t) =
    ascii "***" ++ code '.' :: (match kept t a with
      | some octets => octets ++ t
      | none => keptBehind t) := by
  have hthree : (octet a.o3).length ≤ 3 := (octet_spec a.o3).2.2.1
  have hjoin : [code '.'].intercalate (t.splitOn (code '.')) = t := List.intercalate_splitOn _
  obtain ⟨t₀, ts, hsplit⟩ := List.exists_cons_of_ne_nil (List.splitOn_ne_nil (code '.') t)
  have hstars : ∀ l : Bytes, ascii "***." ++ l = ascii "***" ++ code '.' :: l := fun _ => rfl
  have hhost : maskHostForURL (a.text ++ t) = ascii "***." ++ [code '.'].intercalate (maskHostTail
      (octet a.o1 :: octet a.o2 :: octet a.o3 :: (octet a.o4 ++ t₀) :: ts)) := by
    rw [maskHostForURL, splitOn_text a hsplit]
    exact if_neg (by simp)
  rw [hhost, hstars]
  unfold kept keptBehind
  rw [hsplit] at hjoin ⊢
  rcases ts with _ | ⟨t₁, _ | ⟨t₂, ts⟩⟩
  · rw [List.intercalate_singleton] at hjoin
    subst hjoin
    have htail : maskHostTail [octet a.o1, octet a.o2, octet a.o3, octet a.o4 ++ t₀] =
        if (octet a.o4 ++ t₀).length = 2 ∧ (octet a.o3).length ≤ 3 then
          [octet a.o3, octet a.o4 ++ t₀] else [octet a.o4 ++ t₀] := rfl
    rw [htail, List.length_append]
    by_cases htwo : (octet a.o4).length + t₀.length = 2
    · simp [htwo, hthree]
    · simp [htwo]
  · rw [List.intercalate_cons_cons, List.intercalate_singleton] at hjoin
    have htail : maskHostTail [octet a.o1, octet a.o2, octet a.o3, octet a.o4 ++ t₀, t₁] =
        if t₁.length = 2 ∧ (octet a.o4 ++ t₀).length ≤ 3 then [octet a.o4 ++ t₀, t₁]
        else [t₁] := rfl
    rw [htail, List.length_append]
    by_cases htwo : t₁.length = 2 ∧ (octet a.o4).length + t₀.length ≤ 3
    · rw [if_pos htwo, ← hjoin]
      simp [htwo]
    · rw [if_neg htwo]
      simp [htwo, maskHostTail]
  · have htail : maskHostTail (octet a.o1 :: octet a.o2 :: octet a.o3 :: (octet a.o4 ++ t₀) ::
        t₁ :: t₂ :: ts) = maskHostTail (t₁ :: t₂ :: ts) := by
      rw [maskHostTail_cons, maskHostTail_cons, maskHostTail_cons, maskHostTail_cons]
    rw [htail]
    rfl

theorem length_splitOn (b : UInt8) (l : Bytes) : (l.splitOn b).length = l.count b + 1 := by
  induction l with
  | nil => simp
  | cons c l ih =>
    rw [List.splitOn_cons_eq_if_modifyHead, List.count_cons]
    split
    · rw [List.length_cons, ih]
    · rw [List.length_modifyHead, ih]

/-- The octets that are kept, and how many dots are left. -/
theorem kept_spec {t octets : Bytes} {a : IPv4} (h : kept t a = some octets) :
    (∀ b ∈ octets, isDigit b = true ∨ b = code '.') ∧ octets ≠ [] ∧
      octets.count (code '.') + t.count (code '.') ≤ 1 := by
  have hcount := length_splitOn (code '.') t
  have hdigits : ∀ {n b : UInt8}, b ∈ octet n → isDigit b = true ∨ b = code '.' :=
    fun hb => Or.inl (isDigit_of_mem_octet hb)
  have hne : octet a.o4 ≠ [] := List.ne_nil_of_length_pos (octet_spec a.o4).2.1
  unfold kept at h
  split at h
  · rename_i t₀ hsplit
    rw [hsplit, List.length_singleton] at hcount
    obtain rfl := Option.some.inj h
    split
    · refine ⟨fun b hb => ?_, by simp, ?_⟩
      · rcases List.mem_append.mp hb with hb | hb
        · exact hdigits hb
        · rcases List.mem_cons.mp hb with rfl | hb
          · exact Or.inr rfl
          · exact hdigits hb
      · simp only [List.count_append, List.count_cons_self, count_octet]
        omega
    · refine ⟨fun b hb => hdigits hb, hne, ?_⟩
      rw [count_octet]
      omega
  · rename_i t₀ t₁ hsplit
    rw [hsplit, List.length_cons, List.length_singleton] at hcount
    split at h
    · obtain rfl := Option.some.inj h
      refine ⟨fun b hb => hdigits hb, hne, ?_⟩
      rw [count_octet]
      omega
    · cases h
  · cases h

/-- What is kept is not masked later on. -/
theorem maskOthers_kept {t octets run : Bytes} {a : IPv4} (h : kept t a = some octets)
    (hrun : IsRun run) (hbegins : run <+: t) :
    maskOthers (code '.' :: (octets ++ run)) = code '.' :: (octets ++ run) := by
  obtain ⟨hnumeric, -, hcount⟩ := kept_spec h
  have hletters : ∀ b ∈ code '.' :: (octets ++ run), isLetter b = false := by
    intro b hb
    rcases List.mem_cons.mp hb with rfl | hb
    · rfl
    · rcases List.mem_append.mp hb with hb | hb
      · rcases hnumeric b hb with hdigit | rfl
        · exact isLetter_of_isDigit hdigit
        · rfl
      · exact hrun.isLetter hb
  have hle := hbegins.sublist.count_le (code '.')
  rw [maskOthers, maskDomains_of_letterless hletters]
  apply maskIPs_of_count_lt
  rw [List.count_cons_self, List.count_append]
  omega

/-- **The octets in which two addresses have to agree** in front of `t`. -/
def Agree (t : Bytes) (a b : IPv4) : Prop :=
  match t.splitOn (code '.') with
  | [t₀] => a.o4 = b.o4 ∧ ((octet a.o4).length + t₀.length = 2 → a.o3 = b.o3)
  | [t₀, t₁] =>
    t₁.length = 2 → (octet a.o4).length + t₀.length ≤ 3 ∨ (octet b.o4).length + t₀.length ≤ 3 →
      a.o4 = b.o4
  | _ => True

/-- **What is kept tells which octets are kept.** -/
theorem kept_eq_iff (t : Bytes) (a b : IPv4) : kept t a = kept t b ↔ Agree t a b := by
  have hnodot : ∀ {l t : Bytes} {n : UInt8}, l ++ code '.' :: t ≠ octet n := by
    intro l t n h
    have hmem : code '.' ∈ octet n := h ▸ List.mem_append_right l List.mem_cons_self
    exact dot_not_mem_octet n hmem
  unfold kept Agree
  rcases t.splitOn (code '.') with _ | ⟨t₀, _ | ⟨t₁, _ | ⟨t₂, ts⟩⟩⟩
  · simp
  · dsimp only
    rw [Option.some.injEq]
    constructor
    · intro h
      split at h
      · split at h
        · obtain ⟨h3, -, h4⟩ := (List.append_cons_inj_of_notMem (dot_not_mem_octet a.o3)
            (dot_not_mem_octet a.o4)).mp h
          exact ⟨octet_injective h4, fun _ => octet_injective h3⟩
        · exact absurd h hnodot
      · rename_i hone
        split at h
        · exact absurd h.symm hnodot
        · exact ⟨octet_injective h, fun htwo => absurd htwo hone⟩
    · rintro ⟨h4, h3⟩
      rw [h4] at h3 ⊢
      split
      · rename_i htwo
        rw [h3 htwo]
      · rfl
  · dsimp only
    by_cases htwo : t₁.length = 2
    · by_cases ha : (octet a.o4).length + t₀.length ≤ 3
      · rw [if_pos ⟨htwo, ha⟩]
        constructor
        · intro h _ _
          split at h
          · exact octet_injective (Option.some.inj h)
          · cases h
        · intro h
          rw [← h htwo (Or.inl ha), if_pos ⟨htwo, ha⟩]
      · rw [if_neg fun h => ha h.2]
        constructor
        · intro h _ hshort
          have hb := hshort.resolve_left ha
          rw [if_pos ⟨htwo, hb⟩] at h
          cases h
        · intro h
          split
          · rename_i hb
            rw [h htwo (Or.inr hb.2)] at ha
            exact absurd hb.2 ha
          · rfl
    · simp [htwo]
  · simp

/-- A part of two bytes behind a dot is not masked later on. -/
theorem maskOthers_part {l : Bytes} (h : code '.' ∉ l) :
    maskOthers (code '.' :: l) = code '.' :: l := by
  rw [maskOthers, maskDomains_of_dotless h]
  apply maskIPs_of_count_lt
  rw [List.count_cons_self, List.count_eq_zero.mpr h]
  decide

/-- **A host of which an octet is kept looks different from one of which none is.** -/
theorem shown_ne {t run rest octets : Bytes} {a b : IPv4} (ha : kept t a = some octets)
    (hb : kept t b = none) (ht : t = run ++ rest) (hrest : Apart rest) :
    code '.' :: (octets ++ run) ++ maskOthers rest ≠ maskOthers (code '.' :: keptBehind t) := by
  obtain ⟨-, hne, -⟩ := kept_spec ha
  have hcount := length_splitOn (code '.') t
  have hjoin : [code '.'].intercalate (t.splitOn (code '.')) = t := List.intercalate_splitOn _
  have hb3 := (octet_spec b.o4).2.2.1
  unfold kept at ha hb
  unfold keptBehind
  generalize t.splitOn (code '.') = parts at ha hb hcount hjoin ⊢
  rcases parts with _ | ⟨t₀, _ | ⟨t₁, _ | ⟨t₂, parts⟩⟩⟩
  · cases ha
  · cases hb
  · dsimp only at ha hb
    split at ha
    · rename_i hshort
      split at hb
      · cases hb
      · rename_i hlong
        have hpart : code '.' ∉ t₁ := by
          rw [← hjoin, List.intercalate_cons_cons, List.intercalate_singleton, List.append_assoc,
            List.count_append, List.count_append, List.count_singleton_self] at hcount
          simp only [List.length_cons, List.length_nil] at hcount
          exact List.count_eq_zero.mp (by omega)
        have htail : [code '.'].intercalate (maskHostTail [t₀, t₁].tail) = t₁ := by
          simp [maskHostTail]
        rw [htail, maskOthers_part hpart]
        intro heq
        have hlength := congrArg List.length heq
        have hwhole := congrArg List.length (hjoin.trans ht)
        simp only [List.intercalate_cons_cons, List.intercalate_singleton, List.length_append,
          List.length_cons, List.length_nil] at hlength hwhole
        have hpos := List.length_pos_iff.mpr hne
        cases rest with
        | nil =>
          simp only [List.length_nil] at hwhole
          omega
        | cons c rest =>
          have hc : ¬ Joins c := hrest c rfl
          rw [maskOthers_cons hc, List.length_cons] at hlength
          rw [List.length_cons] at hwhole
          by_cases hnil : rest = []
          · subst hnil
            simp only [List.length_nil] at hwhole
            omega
          · have hmore := List.length_pos_iff.mpr (maskOthers_ne_nil hnil)
            omega
    · cases ha
  · cases ha

theorem ended_unescapeHost {tail t : Bytes} (h : unescapeHost tail = some t) (hended : Ended tail) :
    Ended t := by
  obtain ⟨run, rest, rfl, hrun, hrest⟩ := hended
  have hplain : ∀ b ∈ run, b ≠ code '%' ∧ isHostByte b = true := by
    intro b hb
    rcases hrun b hb with rfl | rfl
    · decide
    · decide
  have hhigh : ∀ n < 256, 0x80 ≤ UInt8.ofNat n → ¬ Joins (UInt8.ofNat n) := by
    decide +kernel
  rw [unescapeHost_append hplain] at h
  obtain ⟨t, ht, rfl⟩ := Option.map_eq_some_iff.mp h
  refine ⟨run, t, rfl, hrun, fun c hc => ?_⟩
  rcases head_unescapeHost ht c hc with hc | rfl | hc
  · exact hrest c hc
  · decide
  · have hn := hhigh c.toNat c.toNat_lt
    rw [UInt8.ofNat_toNat] at hn
    exact hn hc

/-! ### Masked URLs -/

theorem apart_rest {rest : Bytes} (h : IsRest rest) : Apart rest := by
  intro c hc
  rcases h c hc with rfl | rfl | rfl
  · decide
  · decide
  · decide

theorem apart_maskPath (path : Bytes) : Apart (maskPath path) := by
  unfold maskPath
  split
  · exact apart_cons (by decide) _
  · split
    · exact apart_cons (by decide) _
    · exact apart_nil

theorem apart_maskQuery (range : List Bytes → List Bytes) (rawQuery : Bytes) :
    Apart (maskQuery range rawQuery) := by
  unfold maskQuery
  split
  · exact apart_nil
  · split
    · exact apart_cons (by decide) _
    · simp only
      split
      · exact apart_nil
      · exact apart_cons (by decide) _

theorem maskURL_text (range : List Bytes → List Bytes) {scheme login tail rest : Bytes}
    (hscheme : IsScheme scheme) (hlogin : IsLogin login) (hlogins : ∀ b ∈ login, InAuthority b)
    (htails : ∀ b ∈ tail, InAuthority b) (hat : code '@' ∉ tail) (hrest : IsRest rest) (a : IPv4) :
    maskURL range (scheme ++ ascii "://" ++ (login ++ (a.text ++ (tail ++ rest)))) =
      match parseAround login tail rest with
      | none => scheme ++ ascii "://" ++ (login ++ (a.text ++ (tail ++ rest)))
      | some (t, p) => scheme ++ ascii "://" ++ maskHostForURL (a.text ++ t) ++ maskPath p.1 ++
          maskQuery range p.2 := by
  have htext : a.text ≠ [] := List.ne_nil_of_length_pos (Nat.le_of_succ_le a.two_le_length)
  have hparse : (dropScheme (scheme ++ ascii "://" ++ (login ++ (a.text ++ (tail ++ rest))))).bind
      (fun p => parseHierarchical p.1 p.2) =
        (parseAround login tail rest).map fun p => ⟨scheme, a.text ++ p.1, p.2.1, p.2.2⟩ := by
    have hsplit : login ++ (a.text ++ (tail ++ rest)) = login ++ (a.text ++ tail) ++ rest := by
      simp only [List.append_assoc]
    rw [dropScheme_append hscheme, hsplit]
    exact parseHierarchical_around scheme hlogin htext (fun b hb => a.mem_text hb) hlogins htails
      hat hrest
  unfold maskURL
  rw [hparse]
  cases parseAround login tail rest with
  | none => rfl
  | some p => exact if_neg (List.append_ne_nil_of_left_ne_nil htext _)

section

variable {s : Bytes} {a : IPv4} (u : UrlIn s a) (range : Nat → List Bytes → List Bytes)

/-- The masked text in front of the URL. -/
def front : Bytes := u.before.zipIdx.flatMap fun p => p.1.replaced (maskURL (range p.2))

/-- The masked text behind the URL. -/
def back : Bytes :=
  (u.after.zipIdx (u.before.length + 1)).flatMap fun p => p.1.replaced (maskURL (range p.2))

theorem maskURLs_replace (b : IPv4) : maskURLs range (u.replace b) =
    front u range ++ (maskURL (range u.before.length) (u.url b) ++ back u range) := by
  rw [maskURLs, u.pieces_replace b, List.zipIdx_append, List.flatMap_append, List.zipIdx_cons,
    List.flatMap_cons, Nat.zero_add]
  rfl

theorem urlMatch_blank {c : UInt8} (h : isSpace c = true) (l : Bytes) :
    urlMatch (c :: l) = none := by
  have hdrop : dropScheme (c :: l) = none := by
    cases hdrop : dropScheme (c :: l) with
    | none => rfl
    | some p =>
      obtain ⟨hscheme, heq⟩ := dropScheme_eq_some hdrop
      rcases hscheme with hscheme | hscheme
      · rw [hscheme] at heq
        obtain rfl := (List.cons.inj heq).1
        exact absurd h (by decide)
      · rw [hscheme] at heq
        obtain rfl := (List.cons.inj heq).1
        exact absurd h (by decide)
  rw [urlMatch, hdrop]
  rfl

theorem apart_back : Apart (back u range) := by
  obtain ⟨-, hafter⟩ := u.found_spec
  have hpost := u.post_spec
  unfold back
  cases hcase : u.post with
  | nil =>
    rw [hcase] at hafter
    rw [← hafter]
    exact apart_nil
  | cons c l =>
    have hspace : isSpace c = true := by
      by_contra hc
      rw [hcase, List.dropWhile_cons_of_pos (by simpa using hc)] at hpost
      have hle := length_dropWhile_le (fun b => !isSpace b) l
      rw [hpost, List.length_cons] at hle
      omega
    have hfind : maskURLPattern ⟨false, c :: l⟩ = none :=
      Option.map_eq_none_iff.mpr (urlMatch_blank hspace l)
    have hnot : ¬ Joins c := by
      simp only [isSpace, Bool.or_eq_true, beq_iff_eq] at hspace
      rcases hspace with (((rfl | rfl) | rfl) | rfl) | rfl <;> decide
    rw [hcase, pieces_plain hfind] at hafter
    rw [← hafter, List.zipIdx_cons, List.flatMap_cons]
    exact apart_cons hnot _

theorem maskURL_url (b : IPv4) : maskURL (range u.before.length) (u.url b) =
    match parseAround u.login u.tail u.rest with
    | none => u.url b
    | some (t, p) => u.scheme ++ ascii "://" ++ maskHostForURL (b.text ++ t) ++ maskPath p.1 ++
        maskQuery (range u.before.length) p.2 :=
  maskURL_text _ u.isScheme u.isLogin u.inLogin u.inTail u.isHost u.isRest b

/-- **A URL that can be parsed shows the octets that are kept.** -/
theorem mask_parsed {t : Bytes} {p : Bytes × Bytes}
    (h : parseAround u.login u.tail u.rest = some (t, p)) :
    ∃ front back run rest : Bytes, t = run ++ rest ∧ Apart rest ∧ ∀ b,
      maskSensitiveInfo range (u.replace b) = front ++ ((match kept t b with
        | some octets => code '.' :: (octets ++ run) ++ maskOthers rest
        | none => maskOthers (code '.' :: keptBehind t)) ++ back) := by
  have htail : parseTail u.tail = some t := by
    unfold parseAround at h
    split at h
    · obtain ⟨t', ht', h⟩ := Option.bind_eq_some_iff.mp h
      obtain ⟨p', -, he⟩ := Option.map_eq_some_iff.mp h
      rw [ht', ← (Prod.mk.inj he).1]
    · cases h
  obtain ⟨run, rest, ht, hrun, hrest⟩ :=
    ended_unescapeHost (unescapeHost_of_parseTail htail) u.isEnded
  have hback : Apart (maskPath p.1 ++ (maskQuery (range u.before.length) p.2 ++ back u range)) :=
    (apart_maskPath _).append ((apart_maskQuery _ _).append (apart_back u range))
  refine ⟨maskOthers (front u range ++ (u.scheme ++ ascii "://**")) ++ [code '*'],
    maskOthers (maskPath p.1 ++ (maskQuery (range u.before.length) p.2 ++ back u range)), run, rest,
    ht, hrest, fun b => ?_⟩
  have hstars : ∀ t : Bytes, ascii "://" ++ (ascii "***" ++ t) = ascii "://**" ++ code '*' :: t :=
    fun _ => rfl
  have htext : ∀ shown : Bytes, maskHostForURL (b.text ++ t) = ascii "***" ++ code '.' :: shown →
      maskURLs range (u.replace b) = (front u range ++ (u.scheme ++ ascii "://**")) ++
        code '*' :: (code '.' :: shown ++
          (maskPath p.1 ++ (maskQuery (range u.before.length) p.2 ++ back u range))) := by
    intro shown hshown
    rw [maskURLs_replace, maskURL_url, h]
    simp only [hshown, List.append_assoc, List.cons_append]
    rw [hstars]
  have hhost := maskHostForURL_text b t
  cases hkept : kept t b with
  | some octets =>
    rw [hkept] at hhost
    have hrow : ∀ X : Bytes, code '.' :: (octets ++ t) ++ X =
        (code '.' :: (octets ++ run)) ++ (rest ++ X) := by
      intro X
      rw [ht]
      simp only [List.cons_append, List.append_assoc]
    rw [maskSensitiveInfo_eq, htext _ hhost, hrow,
      maskOthers_between (by decide) (hrest.append hback), maskOthers_append hback,
      maskOthers_kept hkept hrun ⟨rest, ht.symm⟩]
    simp only [List.append_assoc, List.cons_append, List.nil_append]
  | none =>
    rw [hkept] at hhost
    rw [maskSensitiveInfo_eq, htext _ hhost, maskOthers_between (by decide) hback]
    simp only [List.append_assoc, List.cons_append, List.nil_append]

/-- The last byte in front of the address belongs to no name. -/
theorem lead_spec : ∃ (l : Bytes) (c : UInt8), u.scheme ++ ascii "://" ++ u.login = l ++ [c] ∧
    ¬ Joins c := by
  rcases u.isLogin with h | ⟨userinfo, h⟩
  · rw [h, List.append_nil]
    exact ⟨u.scheme ++ ascii ":/", code '/', by rw [List.append_assoc]; rfl, by decide⟩
  · rw [h]
    exact ⟨u.scheme ++ ascii "://" ++ userinfo, code '@', (List.append_assoc ..).symm, by decide⟩

/-- A URL that cannot be parsed stays, and its address is masked as any other. -/
theorem mask_unparsed (h : parseAround u.login u.tail u.rest = none) : ∃ l : Bytes, ∀ b,
    maskSensitiveInfo range (u.replace b) = l := by
  obtain ⟨lead, c, hlead, hc⟩ := lead_spec u
  obtain ⟨run, tail, htail, hrun, happart⟩ := u.isEnded
  have hback : Apart (tail ++ (u.rest ++ back u range)) :=
    happart.append ((apart_rest u.isRest).append (apart_back u range))
  refine ⟨maskOthers (front u range ++ lead) ++ c :: ((ascii "***.***.***.***" ++ run) ++
    maskOthers (tail ++ (u.rest ++ back u range))), fun b => ?_⟩
  have htext : maskURLs range (u.replace b) = (front u range ++ lead) ++
      c :: ((b.text ++ run) ++ (tail ++ (u.rest ++ back u range))) := by
    rw [maskURLs_replace, maskURL_url, h]
    show front u range ++ (u.url b ++ back u range) = _
    rw [UrlIn.url, ← List.append_assoc (u.scheme ++ ascii "://"), hlead, htail]
    simp only [List.append_assoc, List.cons_append, List.nil_append]
  rw [maskSensitiveInfo_eq, htext, maskOthers_between hc hback, maskOthers_text b hrun]

end

/-- **A URL's address can be told from another one exactly by the octets that are kept**; `t` is
what `url.Parse` reads in the host behind the address. -/
theorem masked_alike_iff (range : Nat → List Bytes → List Bytes) (s : Bytes) (a b : IPv4)
    (u : UrlIn s a) :
    maskSensitiveInfo range (u.replace b) = maskSensitiveInfo range s ↔
      ∀ t p, parseAround u.login u.tail u.rest = some (t, p) → Agree t a b := by
  have hself : maskSensitiveInfo range s = maskSensitiveInfo range (u.replace a) := by
    rw [u.replace_self]
  rw [hself]
  cases hparse : parseAround u.login u.tail u.rest with
  | none =>
    obtain ⟨l, hl⟩ := mask_unparsed u range hparse
    rw [hl, hl]
    exact ⟨fun _ _ _ h => (by cases h), fun _ => rfl⟩
  | some read =>
    obtain ⟨t, p⟩ := read
    obtain ⟨front, back, run, rest, ht, hrest, hmask⟩ := mask_parsed u range hparse
    have hiff : (∀ t' p', some (t, p) = some (t', p') → Agree t' a b) ↔ kept t b = kept t a := by
      rw [eq_comm (a := kept t b), kept_eq_iff]
      constructor
      · exact fun h => h t p rfl
      · intro h t' p' he
        obtain ⟨rfl, -⟩ := Prod.mk.inj (Option.some.inj he)
        exact h
    rw [hiff, hmask, hmask, List.append_cancel_left_eq, List.append_cancel_right_eq]
    cases ha : kept t a with
    | none =>
      cases hb : kept t b with
      | none => exact iff_of_true rfl rfl
      | some octets => exact iff_of_false (shown_ne hb ha ht hrest) (by simp)
    | some octets =>
      cases hb : kept t b with
      | none => exact iff_of_false (shown_ne ha hb ht hrest).symm (by simp)
      | some octets' =>
        dsimp only
        rw [List.append_cancel_right_eq, List.cons_inj_right, List.append_cancel_right_eq,
          Option.some.injEq]

/-- A URL with a port, and a comma behind it. -/
def urlWithPort : UrlIn (ascii "at http://10.0.0.4:80/x?k=v, now") ⟨10, 0, 0, 4⟩ where
  before := (ascii "at ").map Piece.plain
  scheme := ascii "http"
  login := []
  tail := ascii ":80"
  rest := ascii "/x?k=v,"
  after := (ascii " now").map Piece.plain
  isScheme := Or.inl rfl
  isLogin := Or.inl rfl
  inLogin := fun _ h => nomatch h
  inTail := by decide +kernel
  isHost := by decide +kernel
  isEnded := ⟨[], ascii ":80", rfl, fun _ h => (by cases h), apart_cons (by decide) _⟩
  isRest := fun _ h => Or.inl (Option.some.inj h).symm
  found := by rfl

/-- With the same last octet the other ones are hidden. -/
theorem hidden_but_last : maskSensitiveInfo (fun _ => id) (urlWithPort.replace ⟨172, 16, 9, 4⟩) =
    maskSensitiveInfo (fun _ => id) (ascii "at http://10.0.0.4:80/x?k=v, now") := by
  refine (masked_alike_iff _ _ _ ⟨172, 16, 9, 4⟩ urlWithPort).mpr fun t p h => ?_
  have hread : parseAround [] (ascii ":80") (ascii "/x?k=v,") =
      some (ascii ":80", ascii "/x", ascii "k=v,") := by decide +kernel
  obtain ⟨rfl, -⟩ := Prod.mk.inj (Option.some.inj (hread.symm.trans h))
  exact ⟨rfl, fun hlength => absurd hlength (by decide)⟩

/-- A URL that is the whole text. -/
def bareUrl : UrlIn (ascii "http://1.2.3.4") ⟨1, 2, 3, 4⟩ where
  before := []
  scheme := ascii "http"
  login := []
  tail := []
  rest := []
  after := []
  isScheme := Or.inl rfl
  isLogin := Or.inl rfl
  inLogin := fun _ h => nomatch h
  inTail := fun _ h => nomatch h
  isHost := List.not_mem_nil
  isEnded := ⟨[], [], rfl, fun _ h => (by cases h), apart_nil⟩
  isRest := fun _ h => nomatch h
  found := by rfl

/-- `http://***.4` and `http://***.5`. -/
theorem last_octet_survives : ¬ ∀ u : UrlIn (ascii "http://1.2.3.4") ⟨1, 2, 3, 4⟩,
    maskSensitiveInfo (fun _ => id) (u.replace ⟨1, 2, 3, 5⟩) =
      maskSensitiveInfo (fun _ => id) (ascii "http://1.2.3.4") := by
  intro h
  have heq := h bareUrl
  revert heq
  decide +kernel

end AuthGateway.MaskedUrls
