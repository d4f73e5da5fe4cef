import AuthGateway.Lib.Url

/-!
# Parsing a URL

`url.Parse` of a text that begins with a scheme and `://`, with the parts of the result that
are used, and `url.ParseQuery`.  Every text is a string of bytes.

**An address at the beginning of a host is read as it stands**, and what is read in front of it
and behind it does not depend on it (`parseHierarchical_around`).
-/

namespace Url

def isDigit (b : UInt8) : Bool := 0x30 ≤ b && b ≤ 0x39

def isLetter (b : UInt8) : Bool := (0x41 ≤ b && b ≤ 0x5A) || (0x61 ≤ b && b ≤ 0x7A)

/-! ### Hosts -/

/-- What is before and behind the last `b`. -/
def cutLast (b : UInt8) : Bytes → Option (Bytes × Bytes)
  | [] => none
  | c :: l =>
    match cutLast b l with
    | some (front, back) => some (c :: front, back)
    | none => if c = b then some ([], l) else none

/-- The bytes that a host may have unescaped. -/
def isHostByte (b : UInt8) : Bool :=
  0x80 ≤ b || isLetter b || isDigit b || (ascii "!$&'()*+,;=:[]<>\"-_.~").contains b

/-- `unescape` in a host: only bytes from 0x80 on may be escaped, and the sign `%` itself. -/
def unescapeHost : Bytes → Option Bytes
  | [] => some []
  | b :: l =>
    if b = code '%' then
      match l with
      | high :: low :: rest =>
        match unhex high, unhex low with
        | some h, some w =>
          if h < 8 ∧ ¬ (high = code '2' ∧ low = code '5') then none
          else (unescapeHost rest).map ((h * 16 + w) :: ·)
        | _, _ => none
      | _ => none
    else if isHostByte b then (unescapeHost l).map (b :: ·) else none

/-- `unescape` in the zone of an address: a blank may be escaped, and what needs no escape. -/
def unescapeZone : Bytes → Option Bytes
  | [] => some []
  | b :: l =>
    if b = code '%' then
      match l with
      | high :: low :: rest =>
        match unhex high, unhex low with
        | some h, some w =>
          if (high = code '2' ∧ low = code '5') ∨ h * 16 + w = code ' ' ∨
              (h * 16 + w < 0x80 ∧ isHostByte (h * 16 + w)) then
            (unescapeZone rest).map ((h * 16 + w) :: ·)
          else none
        | _, _ => none
      | _ => none
    else if isHostByte b then (unescapeZone l).map (b :: ·) else none

/-- `strings.Index` of a text, as what is before it and the text from there on. -/
def cutAt (pat : Bytes) : Bytes → Option (Bytes × Bytes)
  | [] => if pat = [] then some ([], []) else none
  | b :: l =>
    if pat.isPrefixOf (b :: l) then some ([], b :: l)
    else (cutAt pat l).map fun p => (b :: p.1, p.2)

/-- A colon and digits, or nothing. -/
def validOptionalPort : Bytes → Bool
  | [] => true
  | c :: l => c == code ':' && l.all isDigit

def parseHost (host : Bytes) : Option Bytes :=
  if host.head? = some (code '[') then
    match cutLast (code ']') host with
    | none => none
    | some (front, colonPort) =>
      if validOptionalPort colonPort then
        match cutAt (ascii "%25") front with
        | some (address, zone) =>
          (unescapeHost address).bind fun host1 => (unescapeZone zone).bind fun host2 =>
            (unescapeHost (code ']' :: colonPort)).map fun host3 => host1 ++ host2 ++ host3
        | none => unescapeHost host
      else none
  else
    match cutLast (code ':') host with
    | some (_, port) => if port.all isDigit then unescapeHost host else none
    | none => unescapeHost host

def validUserinfo (s : Bytes) : Bool :=
  s.all fun b => isLetter b || isDigit b || (ascii "-._:~!$&'()*+,;=%@").contains b

/-- The name and the password have to be escaped well. -/
def readableUserinfo (userinfo : Bytes) : Bool :=
  validUserinfo userinfo && (unescape false (cut (code ':') userinfo).1).isSome &&
    (unescape false (cut (code ':') userinfo).2).isSome

/-- The host of an authority. -/
def parseAuthority (authority : Bytes) : Option Bytes :=
  match cutLast (code '@') authority with
  | none => parseHost authority
  | some (userinfo, hostport) =>
    (parseHost hostport).bind fun host => if readableUserinfo userinfo then some host else none

/-! ### The whole URL -/

structure URL where
  scheme : Bytes
  host : Bytes
  path : Bytes
  rawQuery : Bytes

def isControl (b : UInt8) : Bool := b < 0x20 || b == 0x7F

/-- What is behind the host: the path and the query. -/
def parseRest (rest : Bytes) : Option (Bytes × Bytes) :=
  if (cut (code '#') rest).1.any isControl then none
  else
    (unescape false
        ((cut (code '?') (cut (code '#') rest).1).1.dropWhile (· != code '/'))).bind fun path =>
      (unescape false (cut (code '#') rest).2).map fun _ =>
        (path, (cut (code '?') (cut (code '#') rest).1).2)

/-- `url.Parse` of the scheme, `://` and what follows. -/
def parseHierarchical (scheme rest : Bytes) : Option URL :=
  (parseAuthority
      ((cut (code '?') (cut (code '#') rest).1).1.takeWhile (· != code '/'))).bind fun host =>
    (parseRest rest).map fun p => ⟨scheme, host, p.1, p.2⟩

/-- `url.ParseQuery`: the pairs, unless one of them cannot be read. -/
def parseQuery (rawQuery : Bytes) : Option (List (Bytes × Bytes)) :=
  let segments := (rawQuery.splitOn (code '&')).filter (· ≠ [])
  if segments.all fun segment => (pair segment).isSome then some (segments.filterMap pair)
  else none

/-! ### Addresses as hosts -/

/-- What is read of a host behind an address. -/
def parseTail (tail : Bytes) : Option Bytes :=
  match cutLast (code ':') tail with
  | some (_, port) => if port.all isDigit then unescapeHost tail else none
  | none => unescapeHost tail

/-- A name with its at sign, perhaps with a password; or nothing. -/
def IsLogin (login : Bytes) : Prop := login = [] ∨ ∃ userinfo, login = userinfo ++ [code '@']

def readableLogin (login : Bytes) : Bool := login.isEmpty || readableUserinfo login.dropLast

/-- What is read around an address: the rest of the host, the path and the query. -/
def parseAround (login tail rest : Bytes) : Option (Bytes × Bytes × Bytes) :=
  if readableLogin login then
    (parseTail tail).bind fun t => (parseRest rest).map fun p => (t, p)
  else none

/-- What can stand in an authority. -/
def InAuthority (b : UInt8) : Prop := b ≠ code '/' ∧ b ≠ code '?' ∧ b ≠ code '#'

instance (b : UInt8) : Decidable (InAuthority b) := inferInstanceAs (Decidable (_ ∧ _ ∧ _))

/-- A digit or a dot, as an address has them. -/
def IsNumeric (b : UInt8) : Prop := isDigit b = true ∨ b = code '.'

/-- A path, a query or a fragment, or nothing. -/
def IsRest (rest : Bytes) : Prop :=
  ∀ b ∈ rest.head?, b = code '/' ∨ b = code '?' ∨ b = code '#'

theorem numeric_cases {b : UInt8} (h : IsNumeric b) :
    InAuthority b ∧ b ≠ code '@' ∧ b ≠ code '[' ∧ b ≠ code ':' ∧ b ≠ code '%' ∧
      isControl b = false ∧ isHostByte b = true := by
  have hall : ∀ n < 256, (isDigit (UInt8.ofNat n) || UInt8.ofNat n == code '.') = true →
      (UInt8.ofNat n ≠ code '/' ∧ UInt8.ofNat n ≠ code '?' ∧ UInt8.ofNat n ≠ code '#') ∧
        UInt8.ofNat n ≠ code '@' ∧ UInt8.ofNat n ≠ code '[' ∧ UInt8.ofNat n ≠ code ':' ∧
        UInt8.ofNat n ≠ code '%' ∧ isControl (UInt8.ofNat n) = false ∧
        isHostByte (UInt8.ofNat n) = true := by
    decide +kernel
  have hb := hall b.toNat b.toNat_lt
  rw [UInt8.ofNat_toNat] at hb
  apply hb
  rcases h with h | rfl
  · simp [h]
  · rfl

theorem isControl_of_isHostByte {b : UInt8} (h : isHostByte b = true) : isControl b = false := by
  have hall : ∀ n < 256, isHostByte (UInt8.ofNat n) = true → isControl (UInt8.ofNat n) = false := by
    decide +kernel
  have hb := hall b.toNat b.toNat_lt
  rw [UInt8.ofNat_toNat] at hb
  exact hb h

theorem isControl_of_unhex {b v : UInt8} (h : unhex b = some v) : isControl b = false := by
  have hall : ∀ n < 256, (unhex (UInt8.ofNat n)).isSome = true →
      isControl (UInt8.ofNat n) = false := by
    decide +kernel
  have hb := hall b.toNat b.toNat_lt
  rw [UInt8.ofNat_toNat] at hb
  exact hb (by rw [h]; rfl)

theorem cutLast_of_not_mem {b : UInt8} {l : Bytes} (h : b ∉ l) : cutLast b l = none := by
  induction l with
  | nil => rfl
  | cons c l ih =>
    rw [List.mem_cons, not_or] at h
    rw [cutLast, ih h.2]
    exact if_neg (Ne.symm h.1)

theorem cutLast_append {b : UInt8} {back : Bytes} (h : b ∉ back) (front : Bytes) :
    cutLast b (front ++ b :: back) = some (front, back) := by
  induction front with
  | nil =>
    rw [List.nil_append, cutLast, cutLast_of_not_mem h]
    exact if_pos rfl
  | cons c front ih => rw [List.cons_append, cutLast, ih]

theorem cutLast_append_left {b : UInt8} {l : Bytes} (h : b ∉ l) (l' : Bytes) :
    cutLast b (l ++ l') = (cutLast b l').map fun p => (l ++ p.1, p.2) := by
  induction l with
  | nil => simp
  | cons c l ih =>
    rw [List.mem_cons, not_or] at h
    rw [List.cons_append, cutLast, ih h.2]
    cases cutLast b l' with
    | none => exact if_neg (Ne.symm h.1)
    | some p => rfl

theorem unescapeHost_cons {b : UInt8} (h : b ≠ code '%') (l : Bytes) : unescapeHost (b :: l) =
    if isHostByte b then (unescapeHost l).map (b :: ·) else none := by
  rcases l with _ | ⟨x, _ | ⟨y, l⟩⟩ <;> simp [unescapeHost, h]

theorem unescapeHost_append {l : Bytes} (h : ∀ b ∈ l, b ≠ code '%' ∧ isHostByte b = true)
    (tail : Bytes) : unescapeHost (l ++ tail) = (unescapeHost tail).map (l ++ ·) := by
  induction l with
  | nil => simp
  | cons b l ih =>
    rw [List.forall_mem_cons] at h
    obtain ⟨⟨hpercent, hhost⟩, h⟩ := h
    rw [List.cons_append, unescapeHost_cons hpercent, if_pos hhost, ih h]
    cases unescapeHost tail <;> rfl

theorem isControl_of_unescapeHost (l t : Bytes) (h : unescapeHost l = some t) :
    l.any isControl = false := by
  induction l using unescapeHost.induct generalizing t with
  | case1 => rfl
  | case2 high low rest v w hlow hhigh hsmall =>
    rw [unescapeHost, if_pos rfl, hhigh, hlow] at h
    simp [hsmall] at h
  | case3 high low rest v w hlow hhigh hlarge ih =>
    rw [unescapeHost, if_pos rfl, hhigh, hlow] at h
    simp only [if_neg hlarge] at h
    obtain ⟨t', ht', -⟩ := Option.map_eq_some_iff.mp h
    have hpercent : isControl (code '%') = false := by decide
    simp [hpercent, isControl_of_unhex hhigh, isControl_of_unhex hlow, ih t' ht']
  | case4 high low rest hnone =>
    simp [unescapeHost] at h
  | case5 l hshort =>
    rw [unescapeHost, if_pos rfl] at h
    · simp at h
    · exact hshort
  | case6 c l hpercent hhost ih =>
    rw [unescapeHost_cons hpercent, if_pos hhost] at h
    obtain ⟨t', ht', -⟩ := Option.map_eq_some_iff.mp h
    simp [isControl_of_isHostByte hhost, ih t' ht']
  | case7 c l hpercent hhost =>
    rw [unescapeHost_cons hpercent, if_neg hhost] at h
    cases h

theorem parseHost_append {host : Bytes} (hne : host ≠ []) (hhost : ∀ b ∈ host, IsNumeric b)
    (tail : Bytes) : parseHost (host ++ tail) = (parseTail tail).map (host ++ ·) := by
  have hbracket : (host ++ tail).head? ≠ some (code '[') := by
    cases host with
    | nil => exact absurd rfl hne
    | cons b host =>
      intro hb
      exact (numeric_cases (hhost b List.mem_cons_self)).2.2.1 (Option.some.inj hb)
  have hcolon : code ':' ∉ host := fun hmem => (numeric_cases (hhost _ hmem)).2.2.2.1 rfl
  have hplain : ∀ b ∈ host, b ≠ code '%' ∧ isHostByte b = true := by
    intro b hb
    obtain ⟨-, -, -, -, hpercent, -, hbyte⟩ := numeric_cases (hhost b hb)
    exact ⟨hpercent, hbyte⟩
  rw [parseHost, if_neg hbracket, cutLast_append_left hcolon, parseTail]
  cases cutLast (code ':') tail with
  | none => exact unescapeHost_append hplain tail
  | some p =>
    show (if p.2.all isDigit = true then unescapeHost (host ++ tail) else none) =
      (if p.2.all isDigit = true then unescapeHost tail else none).map _
    split
    · exact unescapeHost_append hplain tail
    · rfl

/-- The first byte that is read is the first byte, or none of ASCII but the sign `%`. -/
theorem head_unescapeHost {l t : Bytes} (h : unescapeHost l = some t) :
    ∀ c ∈ t.head?, c ∈ l.head? ∨ c = code '%' ∨ 0x80 ≤ c := by
  have hvalue : ∀ v < 16, ∀ w < 16, 8 ≤ v → 0x80 ≤ UInt8.ofNat v * 16 + UInt8.ofNat w := by
    decide +kernel
  have hunhex : ∀ n < 256, ∀ v ∈ unhex (UInt8.ofNat n), v.toNat < 16 := by
    decide +kernel
  have hsmall : ∀ {b v : UInt8}, unhex b = some v → v.toNat < 16 := by
    intro b v hb
    have hn := hunhex b.toNat b.toNat_lt v
    rw [UInt8.ofNat_toNat] at hn
    exact hn hb
  intro c hc
  cases l with
  | nil =>
    obtain rfl := Option.some.inj h
    cases hc
  | cons b l =>
    by_cases hpercent : b = code '%'
    · subst hpercent
      rcases l with _ | ⟨high, _ | ⟨low, l⟩⟩
      · simp [unescapeHost] at h
      · simp [unescapeHost] at h
      · cases hhigh : unhex high with
        | none => simp [unescapeHost, hhigh] at h
        | some v =>
          cases hlow : unhex low with
          | none => simp [unescapeHost, hhigh, hlow] at h
          | some w =>
            rw [unescapeHost, if_pos rfl, hhigh, hlow] at h
            dsimp only at h
            split at h
            · cases h
            · rename_i hlarge
              obtain ⟨t', -, rfl⟩ := Option.map_eq_some_iff.mp h
              obtain rfl := Option.some.inj hc
              right
              by_cases hv : v < 8
              · obtain ⟨rfl, rfl⟩ := not_not.mp fun hne => hlarge ⟨hv, hne⟩
                obtain rfl : 2 = v := Option.some.inj hhigh
                obtain rfl : 5 = w := Option.some.inj hlow
                exact Or.inl rfl
              · have hle : 8 ≤ v.toNat :=
                  Nat.not_lt.mp fun hlt => hv (UInt8.lt_iff_toNat_lt.mpr hlt)
                have hlarge := hvalue v.toNat (hsmall hhigh) w.toNat (hsmall hlow) hle
                rw [UInt8.ofNat_toNat, UInt8.ofNat_toNat] at hlarge
                exact Or.inr hlarge
    · rw [unescapeHost_cons hpercent] at h
      split at h
      · obtain ⟨t', -, rfl⟩ := Option.map_eq_some_iff.mp h
        exact Or.inl hc
      · cases h

/-- **The authority of a URL with an address**, which a login may precede. -/
theorem parseAuthority_append {login host tail : Bytes} (hlogin : IsLogin login) (hne : host ≠ [])
    (hhost : ∀ b ∈ host, IsNumeric b) (hat : code '@' ∉ tail) :
    parseAuthority (login ++ (host ++ tail)) =
      if readableLogin login then (parseTail tail).map (host ++ ·) else none := by
  have hnone : code '@' ∉ host ++ tail := by
    rw [List.mem_append, not_or]
    exact ⟨fun hmem => (numeric_cases (hhost _ hmem)).2.1 rfl, hat⟩
  rcases hlogin with rfl | ⟨userinfo, rfl⟩
  · rw [List.nil_append, parseAuthority, cutLast_of_not_mem hnone]
    exact parseHost_append hne hhost tail
  · have hreadable : readableLogin (userinfo ++ [code '@']) = readableUserinfo userinfo := by
      simp [readableLogin]
    rw [List.append_assoc, List.singleton_append, parseAuthority, cutLast_append hnone, hreadable]
    show (parseHost (host ++ tail)).bind _ = _
    rw [parseHost_append hne hhost]
    cases parseTail tail <;> cases readableUserinfo userinfo <;> rfl

theorem isControl_of_readableLogin {login : Bytes} (hlogin : IsLogin login)
    (h : readableLogin login = true) : login.any isControl = false := by
  have hall : ∀ n < 256, (isLetter (UInt8.ofNat n) || isDigit (UInt8.ofNat n) ||
      (ascii "-._:~!$&'()*+,;=%@").contains (UInt8.ofNat n)) = true →
      isControl (UInt8.ofNat n) = false := by
    decide +kernel
  rcases hlogin with rfl | ⟨userinfo, rfl⟩
  · rfl
  · have hreadable : readableUserinfo userinfo = true := by simpa [readableLogin] using h
    unfold readableUserinfo validUserinfo at hreadable
    rw [Bool.and_eq_true, Bool.and_eq_true, List.all_eq_true] at hreadable
    rw [List.any_append, List.any_eq_false.mpr]
    · rfl
    · intro b hb
      have hvalid := hall b.toNat b.toNat_lt
      rw [UInt8.ofNat_toNat] at hvalid
      rw [hvalid (hreadable.1.1 b hb)]
      exact Bool.false_ne_true

theorem unescapeHost_of_parseTail {tail t : Bytes} (h : parseTail tail = some t) :
    unescapeHost tail = some t := by
  unfold parseTail at h
  split at h
  · split at h
    · exact h
    · cases h
  · exact h

theorem takeWhile_rest {rest : Bytes} (h : IsRest rest) :
    ((cut (code '?') (cut (code '#') rest).1).1.takeWhile (· != code '/')) = [] := by
  cases rest with
  | nil => rfl
  | cons b rest =>
    rcases h b rfl with rfl | rfl | rfl
    · rfl
    · rfl
    · rfl

/-- **An address is read as it stands**, and nothing else depends on it. -/
theorem parseHierarchical_around (scheme : Bytes) {login host tail rest : Bytes}
    (hlogin : IsLogin login) (hne : host ≠ []) (hhost : ∀ b ∈ host, IsNumeric b)
    (hlogins : ∀ b ∈ login, InAuthority b) (htails : ∀ b ∈ tail, InAuthority b)
    (hat : code '@' ∉ tail) (hrest : IsRest rest) :
    parseHierarchical scheme (login ++ (host ++ tail) ++ rest) =
      (parseAround login tail rest).map fun p => ⟨scheme, host ++ p.1, p.2.1, p.2.2⟩ := by
  have hall : ∀ b ∈ login ++ (host ++ tail), InAuthority b := by
    intro b hb
    rcases List.mem_append.mp hb with hb | hb
    · exact hlogins b hb
    · rcases List.mem_append.mp hb with hb | hb
      · exact (numeric_cases (hhost b hb)).1
      · exact htails b hb
  have hhash : code '#' ∉ login ++ (host ++ tail) := fun hmem => (hall _ hmem).2.2 rfl
  have hquestion : code '?' ∉ login ++ (host ++ tail) := fun hmem => (hall _ hmem).2.1 rfl
  have hslash : ∀ b ∈ login ++ (host ++ tail), (b != code '/') = true := fun b hb =>
    bne_iff_ne.mpr (hall b hb).1
  have hnumeric : host.any isControl = false := by
    rw [List.any_eq_false]
    intro b hb
    rw [(numeric_cases (hhost b hb)).2.2.2.2.2.1]
    exact Bool.false_ne_true
  unfold parseHierarchical parseAround
  rw [cut_append_left hhash, cut_append_left hquestion, List.takeWhile_append_of_pos hslash,
    takeWhile_rest hrest, List.append_nil, parseAuthority_append hlogin hne hhost hat]
  cases hreadable : readableLogin login with
  | false => rfl
  | true =>
    cases htail : parseTail tail with
    | none => rfl
    | some t =>
      have hcontrol : (login ++ (host ++ tail)).any isControl = false := by
        rw [List.any_append, List.any_append, isControl_of_readableLogin hlogin hreadable, hnumeric,
          isControl_of_unescapeHost _ _ (unescapeHost_of_parseTail htail)]
        rfl
      have hparseRest : parseRest (login ++ (host ++ tail) ++ rest) = parseRest rest := by
        unfold parseRest
        rw [cut_append_left hhash, cut_append_left hquestion, List.any_append, hcontrol,
          Bool.false_or, List.dropWhile_append_of_pos hslash]
      simp only [if_true, Option.map_some, Option.bind_some, hparseRest]
      cases parseRest rest <;> rfl

end Url
