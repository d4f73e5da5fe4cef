import AuthGateway.Lib.Url
import Mathlib.Data.List.Basic
import Mathlib.Tactic.Tauto

/-!
# The URI of a new TOTP key

`GenerateQRCodeData` puts the name of the system and that of the user into a URI as
they are.  Its label has a space, which no URI has (`not_uri`).  A parser that takes
the space, as `net/url` does, reads back what was put in **exactly when neither
name has a character that means something to it** (`readsBack_iff`).
-/

namespace AuthGateway.Common

open Url

/-! ### GenerateQRCodeData -/

def accountName (username issuer : Bytes) : Bytes := username ++ ascii " (" ++ issuer ++ ascii ")"

/-- The path of the URI. -/
def keyLabel (username issuer : Bytes) : Bytes :=
  issuer ++ ascii ":" ++ accountName username issuer

/-- `issuer` is `SystemName`. -/
def generateQRCodeData (secret username issuer : Bytes) : Bytes :=
  ascii "otpauth://totp/" ++ keyLabel username issuer ++ ascii "?secret=" ++ secret
    ++ ascii "&issuer=" ++ issuer ++ ascii "&digits=6&period=30"

/-! ### Reading it -/

/-- What a URI consists of: the unreserved and the reserved characters, and `%`. -/
def IsUriByte (b : UInt8) : Prop :=
  b ∈ ascii "ABCDEFGHIJKLMNOPQRSTUVWXYZabcdefghijklmnopqrstuvwxyz0123456789-._~:/?#[]@!$&'()*+,;=%"

/-- A control character, which `url.Parse` refuses. -/
def isControl (b : UInt8) : Bool := b < 0x20 || b == 0x7F

structure KeyUri where
  label : Bytes
  parameters : List (Bytes × Bytes)

/-- What `net/url` reads of a URI of this kind; the fragment must be well formed too. -/
def parseKeyUri (raw : Bytes) : Option KeyUri :=
  let u := (cut (code '#') raw).1
  if u.any isControl then none
  else if unescape false (cut (code '#') raw).2 = none then none
  else if (ascii "otpauth://totp/").isPrefixOf u then
    let rest := u.drop (ascii "otpauth://totp/").length
    (unescape false (cut (code '?') rest).1).map fun label =>
      { label := label, parameters := query (cut (code '?') rest).2 }
  else none

/-- **What was put in is read back**: one secret, the issuer, and the label. -/
def ReadsBack (secret username issuer : Bytes) : Prop :=
  ∃ k, parseKeyUri (generateQRCodeData secret username issuer) = some k ∧
    values (ascii "secret") k.parameters = [secret] ∧
    values (ascii "issuer") k.parameters = [issuer] ∧
    k.label = keyLabel username issuer

/-- The alphabet of base32, with its padding. -/
def IsBase32 (secret : Bytes) : Prop :=
  ∀ b ∈ secret, (0x41 ≤ b.toNat ∧ b.toNat ≤ 0x5A) ∨ (0x32 ≤ b.toNat ∧ b.toNat ≤ 0x37) ∨
    b.toNat = 0x3D

/-- No `?`, `#`, `%` or control character. -/
def PlainInPath (text : Bytes) : Prop :=
  ∀ b ∈ text, b ≠ code '?' ∧ b ≠ code '#' ∧ b ≠ code '%' ∧ isControl b = false

/-- No `&`, `;` or `+`. -/
def PlainInQuery (text : Bytes) : Prop :=
  code '&' ∉ text ∧ code ';' ∉ text ∧ code '+' ∉ text

/-- **The space of the label is in no URI.** -/
theorem not_uri (secret username issuer : Bytes) :
    ∃ b ∈ generateQRCodeData secret username issuer, ¬ IsUriByte b := by
  refine ⟨code ' ', ?_, by unfold IsUriByte; decide +kernel⟩
  have hspace : code ' ' ∈ ascii " (" := by decide
  unfold generateQRCodeData keyLabel accountName
  simp only [List.mem_append, hspace, true_or, or_true]

/-! ### The query -/

/-- What follows the `?`. -/
def keyQuery (secret issuer : Bytes) : Bytes :=
  (ascii "secret=" ++ secret) ++ code '&' :: ((ascii "issuer=" ++ issuer)
    ++ code '&' :: (ascii "digits=6" ++ code '&' :: ascii "period=30"))

theorem generateQRCodeData_eq (secret username issuer : Bytes) :
    generateQRCodeData secret username issuer
      = ascii "otpauth://totp/" ++ (keyLabel username issuer
        ++ code '?' :: keyQuery secret issuer) := by
  have hsecret : ascii "?secret=" = code '?' :: ascii "secret=" := rfl
  have hissuer : ascii "&issuer=" = code '&' :: ascii "issuer=" := rfl
  have hdigits : ascii "&digits=6&period=30"
      = code '&' :: (ascii "digits=6" ++ code '&' :: ascii "period=30") := rfl
  unfold generateQRCodeData keyQuery
  rw [hsecret, hissuer, hdigits]
  simp only [List.append_assoc, List.cons_append]

/-- The pairs between the first and the last two. -/
def issuerPairs (issuer : Bytes) : List (Bytes × Bytes) :=
  ((ascii "issuer=" ++ issuer).splitOn (code '&')).filterMap pair

theorem IsBase32.ne {secret : Bytes} (h : IsBase32 secret) {b : UInt8}
    (hb : ¬ ((0x41 ≤ b.toNat ∧ b.toNat ≤ 0x5A) ∨ (0x32 ≤ b.toNat ∧ b.toNat ≤ 0x37) ∨
      b.toNat = 0x3D)) : b ∉ secret :=
  fun hmem => hb (h b hmem)

theorem query_eq {secret : Bytes} (h : IsBase32 secret) (issuer : Bytes) :
    query (keyQuery secret issuer) = [(ascii "secret", secret)] ++ issuerPairs issuer
      ++ [(ascii "digits", ascii "6"), (ascii "period", ascii "30")] := by
  have hamp : code '&' ∉ ascii "secret=" ++ secret := by
    rw [List.mem_append, not_or]
    exact ⟨by decide, h.ne (by decide)⟩
  have hsecret : pair (ascii "secret=" ++ secret) = some (ascii "secret", secret) := by
    have heq : ascii "secret=" ++ secret = ascii "secret" ++ code '=' :: secret := rfl
    rw [heq]
    refine pair_eq (by decide) ?_ (unescape_eq_self_iff.mpr ⟨by decide, fun _ => by decide⟩) ?_
    · rw [← heq, List.mem_append, not_or]
      exact ⟨by decide, h.ne (by decide)⟩
    · exact unescape_eq_self_iff.mpr ⟨h.ne (by decide), fun _ => h.ne (by decide)⟩
  have hlast : (ascii "digits=6" ++ code '&' :: ascii "period=30").splitOn (code '&')
      = [ascii "digits=6", ascii "period=30"] := by
    rw [List.splitOn_append_cons_self, List.splitOn_eq_singleton (by decide),
      List.splitOn_eq_singleton (by decide)]
    rfl
  have hpairs : [ascii "digits=6", ascii "period=30"].filterMap pair
      = [(ascii "digits", ascii "6"), (ascii "period", ascii "30")] := by decide +kernel
  unfold query keyQuery
  rw [List.splitOn_append_cons_self, List.splitOn_append_cons_self,
    List.splitOn_eq_singleton hamp, hlast, List.filterMap_append, List.filterMap_append, hpairs,
    List.filterMap_cons, hsecret]
  rfl

theorem values_issuer {secret : Bytes} (h : IsBase32 secret) (issuer : Bytes) :
    values (ascii "issuer") (query (keyQuery secret issuer))
      = values (ascii "issuer") (issuerPairs issuer) := by
  have hfirst : values (ascii "issuer") [(ascii "secret", secret)] = [] := rfl
  have hlast : values (ascii "issuer") [(ascii "digits", ascii "6"), (ascii "period", ascii "30")]
      = [] := by decide
  rw [query_eq h, values_append, values_append, hfirst, hlast, List.nil_append, List.append_nil]

theorem key_value_eq (issuer : Bytes) :
    ascii "issuer=" ++ issuer = ascii "issuer" ++ code '=' :: issuer := rfl

theorem issuerPairs_of_no_amp {issuer : Bytes} (h : code '&' ∉ issuer) :
    issuerPairs issuer = (pair (ascii "issuer=" ++ issuer)).toList := by
  have hamp : code '&' ∉ ascii "issuer=" ++ issuer := by
    rw [List.mem_append, not_or]
    exact ⟨by decide, h⟩
  unfold issuerPairs
  rw [List.splitOn_eq_singleton hamp, List.filterMap_cons]
  cases pair (ascii "issuer=" ++ issuer) with
  | none => rfl
  | some p => rfl

theorem issuerPairs_of_plain {issuer : Bytes} (hpercent : code '%' ∉ issuer)
    (h : PlainInQuery issuer) : issuerPairs issuer = [(ascii "issuer", issuer)] := by
  have hpair : pair (ascii "issuer=" ++ issuer) = some (ascii "issuer", issuer) := by
    rw [key_value_eq]
    refine pair_eq (by decide) ?_ (unescape_eq_self_iff.mpr ⟨by decide, fun _ => by decide⟩) ?_
    · rw [← key_value_eq, List.mem_append, not_or]
      exact ⟨by decide, h.2.1⟩
    · exact unescape_eq_self_iff.mpr ⟨hpercent, fun _ => h.2.2⟩
  rw [issuerPairs_of_no_amp h.1, hpair]
  rfl

/-- **The issuer is read back only if it is plain.** -/
theorem plainInQuery_of_values {issuer : Bytes}
    (h : values (ascii "issuer") (issuerPairs issuer) = [issuer]) : PlainInQuery issuer := by
  have hmem : (ascii "issuer", issuer) ∈ issuerPairs issuer := by
    rw [← mem_values, h]
    exact List.mem_singleton.mpr rfl
  obtain ⟨segment, hsegment, hpair⟩ := List.mem_filterMap.mp hmem
  have hamp : code '&' ∉ issuer := by
    intro hin
    have hlong := pair_length hpair (List.ne_nil_of_mem hin)
    have hshort := length_lt_of_mem_splitOn (List.mem_append_right (ascii "issuer=") hin) hsegment
    rw [List.length_append] at hshort
    have hname : (ascii "issuer").length + 1 = (ascii "issuer=").length := rfl
    dsimp only at hlong
    omega
  have hamp' : code '&' ∉ ascii "issuer=" ++ issuer := by
    rw [List.mem_append, not_or]
    exact ⟨by decide, hamp⟩
  rw [List.splitOn_eq_singleton hamp', List.mem_singleton] at hsegment
  subst hsegment
  obtain ⟨hsemicolon, hself⟩ := pair_some (by decide) (key_value_eq issuer ▸ hpair)
  exact ⟨hamp, hsemicolon, (unescape_eq_self_iff.mp hself).2 rfl⟩

/-! ### The path -/

/-- What the label consists of: the names, and what stands between them. -/
theorem mem_keyLabel {b : UInt8} {username issuer : Bytes} :
    b ∈ keyLabel username issuer ↔ b ∈ issuer ∨ b ∈ username ∨ b ∈ ascii ": ()" := by
  have hfixed : ascii ": ()" = ascii ":" ++ ascii " (" ++ ascii ")" := rfl
  unfold keyLabel accountName
  rw [hfixed]
  generalize ascii ":" = colon
  generalize ascii " (" = opening
  generalize ascii ")" = closing
  simp only [List.mem_append]
  tauto

theorem plainInPath_keyLabel {username issuer : Bytes} :
    PlainInPath (keyLabel username issuer) ↔ PlainInPath username ∧ PlainInPath issuer := by
  have hfixed : PlainInPath (ascii ": ()") := List.forall_iff_forall_mem.mp (by decide)
  unfold PlainInPath at hfixed ⊢
  simp only [mem_keyLabel]
  constructor
  · exact fun h => ⟨fun b hb => h b (Or.inr (Or.inl hb)), fun b hb => h b (Or.inl hb)⟩
  · rintro ⟨husername, hissuer⟩ b (hb | hb | hb)
    · exact hissuer b hb
    · exact husername b hb
    · exact hfixed b hb

theorem mem_keyQuery {b : UInt8} {secret issuer : Bytes} (h : b ∈ keyQuery secret issuer) :
    b ∈ issuer ∨ b ∈ secret ∨ b ∈ ascii "secret=&issuer=&digits=6&period=30" := by
  have hfixed : ascii "secret=&issuer=&digits=6&period=30" = ascii "secret=" ++ code '&' ::
      (ascii "issuer=" ++ code '&' :: (ascii "digits=6" ++ code '&' :: ascii "period=30")) := rfl
  rw [hfixed]
  unfold keyQuery at h
  generalize ascii "secret=" = first at h ⊢
  generalize ascii "issuer=" = second at h ⊢
  generalize ascii "digits=6" ++ code '&' :: ascii "period=30" = last at h ⊢
  simp only [List.mem_append, List.mem_cons] at h ⊢
  tauto

/-- The query has nothing in it that ends it, but what the issuer has. -/
theorem plainInPath_keyQuery {secret issuer : Bytes} (hsecret : IsBase32 secret)
    (hissuer : PlainInPath issuer) : PlainInPath (keyQuery secret issuer) := by
  have hfixed : PlainInPath (ascii "secret=&issuer=&digits=6&period=30") :=
    List.forall_iff_forall_mem.mp (by decide)
  intro b hb
  obtain hin | hin | hin := mem_keyQuery hb
  · exact hissuer b hin
  · have hrange := hsecret b hin
    have hne {c : UInt8} (hc : ¬ ((0x41 ≤ c.toNat ∧ c.toNat ≤ 0x5A) ∨
        (0x32 ≤ c.toNat ∧ c.toNat ≤ 0x37) ∨ c.toNat = 0x3D)) : b ≠ c := by
      rintro rfl
      exact hc hrange
    refine ⟨hne (by decide), hne (by decide), hne (by decide), ?_⟩
    have hlow : ¬ b < 0x20 := by
      rw [UInt8.lt_iff_toNat_lt]
      have hval : (0x20 : UInt8).toNat = 0x20 := rfl
      omega
    have hdel : b ≠ 0x7F := hne (by decide)
    unfold isControl
    rw [decide_eq_false hlow, beq_eq_false_iff_ne.mpr hdel]
    rfl
  · exact hfixed b hin

theorem PlainInPath.not_mem {text : Bytes} (h : PlainInPath text) {c : UInt8}
    (hc : c = code '?' ∨ c = code '#' ∨ c = code '%') : c ∉ text := by
  intro hmem
  obtain ⟨h1, h2, h3, -⟩ := h c hmem
  obtain rfl | rfl | rfl := hc
  · exact h1 rfl
  · exact h2 rfl
  · exact h3 rfl

/-- **What is read of a URI**, past the part that is fixed. -/
theorem parseKeyUri_eq (rest : Bytes) : parseKeyUri (ascii "otpauth://totp/" ++ rest)
    = if (cut (code '#') rest).1.any isControl then none
      else if unescape false (cut (code '#') rest).2 = none then none
      else (unescape false (cut (code '?') (cut (code '#') rest).1).1).map fun label =>
        { label := label, parameters := query (cut (code '?') (cut (code '#') rest).1).2 } := by
  have hcut : cut (code '#') (ascii "otpauth://totp/" ++ rest)
      = (ascii "otpauth://totp/" ++ (cut (code '#') rest).1, (cut (code '#') rest).2) :=
    cut_append_left (by decide) rest
  have hcontrol : (ascii "otpauth://totp/" ++ (cut (code '#') rest).1).any isControl
      = (cut (code '#') rest).1.any isControl := by
    have hfixed : (ascii "otpauth://totp/").any isControl = false := by decide
    rw [List.any_append, hfixed, Bool.false_or]
  have hbegin : (ascii "otpauth://totp/").isPrefixOf
      (ascii "otpauth://totp/" ++ (cut (code '#') rest).1) = true :=
    List.isPrefixOf_iff_prefix.mpr (List.prefix_append _ _)
  unfold parseKeyUri
  rw [hcut]
  dsimp only
  rw [hcontrol, hbegin, if_pos rfl, List.drop_left]

theorem parseKeyUri_some {rest : Bytes} {k : KeyUri}
    (h : parseKeyUri (ascii "otpauth://totp/" ++ rest) = some k) :
    (∀ b ∈ (cut (code '#') rest).1, isControl b = false) ∧
      unescape false (cut (code '?') (cut (code '#') rest).1).1 = some k.label ∧
      k.parameters = query (cut (code '?') (cut (code '#') rest).1).2 := by
  rw [parseKeyUri_eq] at h
  split at h
  · exact nomatch h
  · next hcontrol =>
    split at h
    · exact nomatch h
    · obtain ⟨label, hlabel, rfl⟩ := Option.map_eq_some_iff.mp h
      refine ⟨?_, hlabel, rfl⟩
      intro b hb
      by_contra hb'
      exact hcontrol (List.any_eq_true.mpr ⟨b, hb, by simpa using hb'⟩)

/-! ### What is read back -/

/-- **The label is read back only if it is plain.** -/
theorem plainInPath_of_label {label query : Bytes} {k : KeyUri}
    (hread : parseKeyUri (ascii "otpauth://totp/" ++ (label ++ code '?' :: query)) = some k)
    (hlabel : k.label = label) : PlainInPath label := by
  obtain ⟨hcontrol, hunescape, -⟩ := parseKeyUri_some hread
  rw [hlabel] at hunescape
  set rest := (cut (code '#') (label ++ code '?' :: query)).1 with hrest
  set raw := (cut (code '?') rest).1 with hraw
  have hbegin : raw <+: rest := cut_begins _ _
  have hbegins : raw <+: label :=
    prefix_of_not_mem (not_mem_cut _ _) (hbegin.trans (cut_begins _ _))
  -- an escape is longer than what it stands for, so nothing was cut off or undone
  have hsame : raw = label :=
    hbegins.eq_of_length (le_antisymm hbegins.length_le (unescape_length hunescape).1)
  rw [hsame] at hunescape hbegin
  have hquestion : code '?' ∉ label := by
    rw [← hsame]
    exact not_mem_cut _ _
  have hhash : code '#' ∉ label := fun hmem => not_mem_cut _ _ (hbegin.subset hmem)
  have hpercent : code '%' ∉ label := (unescape_eq_self_iff.mp hunescape).1
  intro b hb
  refine ⟨?_, ?_, ?_, hcontrol b (hbegin.subset hb)⟩
  · rintro rfl
    exact hquestion hb
  · rintro rfl
    exact hhash hb
  · rintro rfl
    exact hpercent hb

/-- **A plain URI is read as it was put together.** -/
theorem parseKeyUri_plain {label query : Bytes} (hlabel : PlainInPath label)
    (hquery : PlainInPath query) :
    parseKeyUri (ascii "otpauth://totp/" ++ (label ++ code '?' :: query))
      = some { label := label, parameters := Url.query query } := by
  have hhash : code '#' ∉ label ++ code '?' :: query := by
    rw [List.mem_append, List.mem_cons, not_or, not_or]
    exact ⟨hlabel.not_mem (Or.inr (Or.inl rfl)), by decide, hquery.not_mem (Or.inr (Or.inl rfl))⟩
  have hcontrol : (label ++ code '?' :: query).any isControl = false := by
    rw [List.any_eq_false]
    intro b hb
    rw [Bool.not_eq_true]
    obtain hin | hin := List.mem_append.mp hb
    · exact (hlabel b hin).2.2.2
    · obtain rfl | hin := List.mem_cons.mp hin
      · decide
      · exact (hquery b hin).2.2.2
  have hself : unescape false label = some label :=
    unescape_eq_self_iff.mpr ⟨hlabel.not_mem (Or.inr (Or.inr rfl)), fun h => nomatch h⟩
  rw [parseKeyUri_eq, cut_of_not_mem hhash, if_neg (by rw [hcontrol]; exact Bool.false_ne_true),
    if_neg (by simp [unescape]), cut_append (hlabel.not_mem (Or.inl rfl)), hself]
  rfl

/-- **No URI, and read back exactly when both names are plain**: no `?`, `#`, `%` or control
character in either, and no `&`, `;` or `+` in that of the system. -/
theorem readsBack_iff {secret : Bytes} (hsecret : IsBase32 secret) (username issuer : Bytes) :
    (∃ b ∈ generateQRCodeData secret username issuer, ¬ IsUriByte b) ∧
      (ReadsBack secret username issuer ↔
        PlainInPath username ∧ PlainInPath issuer ∧ PlainInQuery issuer) := by
  refine ⟨not_uri secret username issuer, ?_⟩
  unfold ReadsBack
  rw [generateQRCodeData_eq]
  constructor
  · rintro ⟨k, hread, -, hissuer, hlabel⟩
    obtain ⟨husername, hplain⟩ := plainInPath_keyLabel.mp (plainInPath_of_label hread hlabel)
    have hquery := plainInPath_keyQuery hsecret hplain
    rw [parseKeyUri_plain (plainInPath_keyLabel.mpr ⟨husername, hplain⟩) hquery] at hread
    obtain rfl := Option.some.inj hread
    rw [values_issuer hsecret] at hissuer
    exact ⟨husername, hplain, plainInQuery_of_values hissuer⟩
  · rintro ⟨husername, hplain, hissuer⟩
    have hquery := plainInPath_keyQuery hsecret hplain
    have hpercent : code '%' ∉ issuer := hplain.not_mem (Or.inr (Or.inr rfl))
    refine ⟨_, parseKeyUri_plain (plainInPath_keyLabel.mpr ⟨husername, hplain⟩) hquery, ?_, ?_, rfl⟩
    · rw [query_eq hsecret, issuerPairs_of_plain hpercent hissuer]
      rfl
    · rw [values_issuer hsecret, issuerPairs_of_plain hpercent hissuer]
      rfl

/-- A user of `Auth Gateway`. -/
theorem alice_read_back :
    (∃ b ∈ generateQRCodeData (ascii "JBSWY3DPEHPK3PXP") (ascii "alice") (ascii "Auth Gateway"),
        ¬ IsUriByte b) ∧
      ReadsBack (ascii "JBSWY3DPEHPK3PXP") (ascii "alice") (ascii "Auth Gateway") := by
  have hsecret : IsBase32 (ascii "JBSWY3DPEHPK3PXP") :=
    List.forall_iff_forall_mem.mp (by decide)
  have h := readsBack_iff hsecret (ascii "alice") (ascii "Auth Gateway")
  refine ⟨h.1, h.2.mpr ⟨?_, ?_, ?_⟩⟩
  · exact List.forall_iff_forall_mem.mp (by decide)
  · exact List.forall_iff_forall_mem.mp (by decide)
  · unfold PlainInQuery
    decide

/-- **A space is in no URI, a user `a#b` ends it, and a system `R&D` is read as `R`.** -/
theorem provisioning_uri_broken :
    (∃ b ∈ generateQRCodeData (ascii "JBSWY3DPEHPK3PXP") (ascii "alice") (ascii "Auth Gateway"),
        ¬ IsUriByte b) ∧
      ¬ ReadsBack (ascii "JBSWY3DPEHPK3PXP") (ascii "a#b") (ascii "Auth Gateway") ∧
      ¬ ReadsBack (ascii "JBSWY3DPEHPK3PXP") (ascii "alice") (ascii "R&D") := by
  refine ⟨not_uri _ _ _, ?_, ?_⟩
  · rintro ⟨k, hread, hsecret, -⟩
    have hnone : (parseKeyUri (generateQRCodeData (ascii "JBSWY3DPEHPK3PXP") (ascii "a#b")
        (ascii "Auth Gateway"))).map (fun k => values (ascii "secret") k.parameters)
        = some [] := by
      decide +kernel
    rw [hread] at hnone
    exact nomatch hsecret.symm.trans (Option.some.inj hnone)
  · rintro ⟨k, hread, -, hissuer, -⟩
    have hshort : (parseKeyUri (generateQRCodeData (ascii "JBSWY3DPEHPK3PXP") (ascii "alice")
        (ascii "R&D"))).map (fun k => values (ascii "issuer") k.parameters)
        = some [ascii "R"] := by
      decide +kernel
    rw [hread] at hshort
    have heq : [ascii "R&D"] = [ascii "R"] := hissuer.symm.trans (Option.some.inj hshort)
    exact absurd heq (by decide)

end AuthGateway.Common
