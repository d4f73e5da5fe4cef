import AuthGateway.Common.SsrfProtection

/-!
# Spellings of a domain

A name in DNS is the same in upper and in lower case, and with a dot at its end.  The
domain list ignores the case.  **It does not ignore the dot**: an entry covers `h.`
when the entry itself ends in a dot and covers `h` without it (`covers_dot_iff`).  So
the two spellings are judged alike exactly when `h` is covered by an entry of both
kinds or by none (`respellable_iff`).
-/

namespace AuthGateway.DomainSpelling

open Common GoString

variable (lower : Char → Char)

/-- The entry as it is compared. -/
def prepared (item : String) : String := toLower lower (trimSpace item)

/-- All spellings of `h` are judged alike: in whatever case, and with a dot at the end. -/
def Respellable (p : SSRFProtection) (h : String) : Prop :=
  (∀ h', toLower lower h' = toLower lower h →
      p.isDomainAllowed lower h' = p.isDomainAllowed lower h) ∧
    p.isDomainAllowed lower (h ++ ".") = p.isDomainAllowed lower h

/-- Some entry covers `h`. -/
def Covered (list : List String) (h : String) : Prop :=
  ∃ item ∈ list, covers (prepared lower item) (toLower lower h) = true

/-- Some entry ends in a dot and covers `h` without it; `*.` covers every name. -/
def CoveredAtRoot (list : List String) (h : String) : Prop :=
  ∃ item ∈ list, ∃ name, prepared lower item = name ++ "." ∧
    (name = "*" ∨ name = toLower lower h ∨ covers name (toLower lower h) = true)

/-! ### The dot -/

theorem suffix_concat_iff {l l' : List Char} {c : Char} : l ++ [c] <:+ l' ++ [c] ↔ l <:+ l' := by
  constructor
  · rintro ⟨front, h⟩
    rw [← List.append_assoc] at h
    exact ⟨front, List.append_cancel_right h⟩
  · rintro ⟨front, rfl⟩
    exact ⟨front, by simp⟩

/-- What an entry covers, on lists of characters. -/
theorem covers_iff {item domain : String} :
    covers item domain = true ↔ item.toList ≠ [] ∧ (domain.toList = item.toList ∨
      ∃ suffix, item.toList = '*' :: '.' :: suffix ∧
        ('.' :: suffix <:+ domain.toList ∨ domain.toList = suffix)) := by
  have hempty : item = "" ↔ item.toList = [] := by
    rw [← String.toList_inj]
    rfl
  rw [covers]
  by_cases hitem : item = ""
  · simp [hitem]
  · rw [if_neg hitem]
    have hne : item.toList ≠ [] := fun h => hitem (hempty.mpr h)
    by_cases hsame : domain = item
    · simp [hsame, hne]
    · rw [if_neg hsame]
      have hsame' : domain.toList ≠ item.toList := fun h => hsame (String.toList_inj.mp h)
      by_cases hstar : hasPrefix item "*." = true
      · obtain ⟨suffix, hsuffix⟩ := hasPrefix_iff.mp hstar
        have htext : item.toList = '*' :: '.' :: suffix := hsuffix.symm
        have hwhole : ∀ {l : List Char}, domain = String.ofList l ↔ domain.toList = l := by
          intro l
          rw [← String.toList_inj, String.toList_ofList]
        simp only [hstar, if_true, htext, List.drop_succ_cons, List.drop_zero, Bool.or_eq_true,
          hasSuffix_iff, beq_iff_eq, hwhole, String.toList_append, String.toList_ofList]
        rw [htext] at hsame'
        simp [hsame']
      · rw [if_neg hstar]
        have hno : ∀ suffix, item.toList ≠ '*' :: '.' :: suffix := by
          intro suffix h
          apply hstar
          rw [hasPrefix_iff, h]
          exact ⟨suffix, rfl⟩
        simp [hsame', hno]

/-- **A name with a dot at its end is covered by the entries with a dot at their end**
that cover the name without the dots, and by `*.`. -/
theorem covers_dot_iff {name domain : String} : covers (name ++ ".") (domain ++ ".") = true ↔
    name = "*" ∨ name = domain ∨ covers name domain = true := by
  have hdot : ∀ s : String, (s ++ ".").toList = s.toList ++ ['.'] := by
    intro s
    rw [String.toList_append]
    rfl
  have hstar : name = "*" ↔ name.toList = ['*'] := by
    rw [← String.toList_inj]
    rfl
  rw [covers_iff, covers_iff, hdot, hdot, hstar, ← String.toList_inj]
  generalize name.toList = n
  generalize domain.toList = d
  constructor
  · rintro ⟨-, hsame | ⟨suffix, hitem, hcover⟩⟩
    · exact Or.inr (Or.inl (List.append_cancel_right hsame).symm)
    · match n, hitem with
      | [], hitem => simp at hitem
      | [c], hitem =>
        simp only [List.cons_append, List.nil_append, List.cons.injEq] at hitem
        exact Or.inl (by rw [hitem.1])
      | c :: c' :: rest, hitem =>
        simp only [List.cons_append, List.cons.injEq] at hitem
        obtain ⟨rfl, rfl, rfl⟩ := hitem
        refine Or.inr (Or.inr ⟨by simp, Or.inr ⟨rest, rfl, ?_⟩⟩)
        rcases hcover with hsuffix | hwhole
        · rw [← List.cons_append] at hsuffix
          exact Or.inl (suffix_concat_iff.mp hsuffix)
        · exact Or.inr (List.append_cancel_right hwhole)
  · rintro (rfl | rfl | ⟨-, hsame | ⟨suffix, rfl, hcover⟩⟩)
    · exact ⟨by simp, Or.inr ⟨[], rfl, Or.inl ⟨d, rfl⟩⟩⟩
    · exact ⟨by simp, Or.inl rfl⟩
    · exact ⟨by simp, Or.inl (by rw [hsame])⟩
    · refine ⟨by simp, Or.inr ⟨suffix ++ ['.'], rfl, ?_⟩⟩
      rcases hcover with hsuffix | rfl
      · rw [← List.cons_append]
        exact Or.inl (suffix_concat_iff.mpr hsuffix)
      · exact Or.inr rfl

theorem ends_in_dot {l d : List Char} (hne : l ≠ []) (h : l <:+ d ++ ['.']) :
    ∃ front, l = front ++ ['.'] := by
  have hlast := h.getLast hne
  rw [List.getLast_concat] at hlast
  exact ⟨l.dropLast, by rw [← hlast, List.dropLast_append_getLast hne]⟩

/-- Entries without a dot at their end cover no name with one. -/
theorem covers_dot_only {item domain : String} (h : covers item (domain ++ ".") = true) :
    ∃ name, item = name ++ "." := by
  have hchars : ∃ front, item.toList = front ++ ['.'] := by
    rw [covers_iff, String.toList_append] at h
    obtain ⟨-, hsame | ⟨suffix, hitem, hsuffix | hwhole⟩⟩ := h
    · exact ⟨domain.toList, hsame.symm⟩
    · obtain ⟨front, hfront⟩ := ends_in_dot (by simp) hsuffix
      exact ⟨'*' :: front, by rw [hitem, hfront, List.cons_append]⟩
    · exact ⟨'*' :: '.' :: domain.toList, by rw [hitem, ← hwhole]; rfl⟩
  obtain ⟨front, hfront⟩ := hchars
  refine ⟨String.ofList front, ?_⟩
  rw [← String.toList_inj, hfront, String.toList_append, String.toList_ofList]
  rfl

/-! ### The verdict -/

variable {lower}

theorem isDomainListed_iff {list : List String} {h : String} :
    isDomainListed lower h list = true ↔ Covered lower list h := by
  rw [isDomainListed, List.any_eq_true]
  rfl

theorem isDomainListed_dot_iff (hdot : lower '.' = '.') {list : List String} {h : String} :
    isDomainListed lower (h ++ ".") list = true ↔ CoveredAtRoot lower list h := by
  have hname : toLower lower (h ++ ".") = toLower lower h ++ "." := by
    rw [← String.toList_inj]
    simp [toLower, hdot]
  rw [isDomainListed_iff, Covered, hname]
  constructor
  · rintro ⟨item, hitem, hcovers⟩
    obtain ⟨name, hprepared⟩ := covers_dot_only hcovers
    rw [hprepared, covers_dot_iff] at hcovers
    exact ⟨item, hitem, name, hprepared, hcovers⟩
  · rintro ⟨item, hitem, name, hprepared, hcovers⟩
    refine ⟨item, hitem, ?_⟩
    rw [hprepared, covers_dot_iff]
    exact hcovers

/-- The verdict on two names is the same when both or neither are listed. -/
theorem isDomainAllowed_eq_iff {p : SSRFProtection} {h h' : String} :
    p.isDomainAllowed lower h' = p.isDomainAllowed lower h ↔
      (isDomainListed lower h' p.domainList = true ↔ isDomainListed lower h p.domainList = true) := by
  rw [SSRFProtection.isDomainAllowed, SSRFProtection.isDomainAllowed]
  cases p.domainFilterMode <;> cases isDomainListed lower h' p.domainList <;>
    cases isDomainListed lower h p.domainList <;> decide

/-- **All spellings of a name are judged alike exactly when it is covered by an entry with
a dot at its end and by an entry, or by neither.**  The case never matters. -/
theorem respellable_iff (hdot : lower '.' = '.') (p : SSRFProtection) (h : String) :
    Respellable lower p h ↔
      (Covered lower p.domainList h ↔ CoveredAtRoot lower p.domainList h) := by
  have hcase : ∀ h', toLower lower h' = toLower lower h →
      p.isDomainAllowed lower h' = p.isDomainAllowed lower h := by
    intro h' hsame
    rw [isDomainAllowed_eq_iff, isDomainListed, isDomainListed, hsame]
  rw [Respellable, isDomainAllowed_eq_iff, isDomainListed_dot_iff hdot, isDomainListed_iff]
  constructor
  · rintro ⟨-, hroot⟩
    exact hroot.symm
  · intro hroot
    exact ⟨hcase, hroot.symm⟩

/-- Where no entry ends in a dot, only the names that no entry covers are judged alike. -/
theorem respellable_iff_not_covered (hdot : lower '.' = '.') {p : SSRFProtection}
    (hlist : ∀ item ∈ p.domainList, ∀ name, prepared lower item ≠ name ++ ".") (h : String) :
    Respellable lower p h ↔ ¬ Covered lower p.domainList h := by
  have hroot : ¬ CoveredAtRoot lower p.domainList h := by
    rintro ⟨item, hitem, name, hname, -⟩
    exact hlist item hitem name hname
  rw [respellable_iff hdot]
  simp [hroot]

/-- A blacklist with the one domain `example.com`. -/
def blacklist : SSRFProtection where
  allowPrivateIp := false
  domainFilterMode := false
  domainList := ["example.com"]
  ipFilterMode := false
  ipList := []
  allowedPorts := []
  applyIPFilterForDomain := false

theorem respellable_iff_elsewhere : Respellable Char.toLower blacklist "example.org" ↔
    (Covered Char.toLower ["example.com"] "example.org" ↔
      CoveredAtRoot Char.toLower ["example.com"] "example.org") :=
  respellable_iff (by decide) blacklist "example.org"

/-- `example.com.` is not on the blacklist. -/
theorem trailing_dot_passes : ¬ ∀ p h, Respellable Char.toLower p h := by
  intro hall
  have hdot := (hall blacklist "example.com").2
  revert hdot
  decide +kernel

end AuthGateway.DomainSpelling
