import AuthGateway.Lib.Decimal

/-!
# Hosts and ports

`splitHostPort` is `net.SplitHostPort`, without the texts of its errors, and
`hostname` is `(*url.URL).Hostname`.  The first reads a port behind the last colon
and does not take a colon in front of it, unless the host stands in brackets; the
second cuts off whatever is a colon and digits at the end.
-/

namespace Net

/-- What is before and behind the last colon. -/
def lastColon : List Char → Option (List Char × List Char)
  | [] => none
  | c :: cs =>
    match lastColon cs with
    | some (before, after) => some (c :: before, after)
    | none => if c = ':' then some ([], cs) else none

/-- What is before and behind the first `c`. -/
def cut (c : Char) : List Char → Option (List Char × List Char)
  | [] => none
  | d :: ds => if d = c then some ([], ds) else (cut c ds).map fun (before, after) => (d :: before, after)

/-- `net.SplitHostPort`. -/
def splitHostPort (hostport : List Char) : Option (List Char × List Char) :=
  match lastColon hostport with
  | none => none
  | some (before, port) =>
    match hostport with
    | '[' :: rest =>
      match cut ']' rest with
      | none => none
      | some (host, tail) =>
        -- the first `]` stands in front of the last colon
        if '[' :: host ++ [']'] = before then
          if '[' ∈ rest ∨ ']' ∈ tail then none else some (host, port)
        else none
    | _ =>
      if ':' ∈ before then none
      else if '[' ∈ hostport ∨ ']' ∈ hostport then none
      else some (before, port)

/-- A colon and digits, or nothing. -/
def validOptionalPort : List Char → Bool
  | [] => true
  | c :: cs => c == ':' && cs.all fun d => (GoString.digit? d).isSome

/-- `u.Hostname()`, of `u.Host`. -/
def hostname (host : List Char) : List Char :=
  let host :=
    match lastColon host with
    | some (before, after) => if validOptionalPort (':' :: after) then before else host
    | none => host
  match host with
  | '[' :: rest => if rest.getLast? = some ']' then rest.dropLast else host
  | _ => host

/-! ### The last colon -/

theorem lastColon_eq_none {text : List Char} : lastColon text = none ↔ ':' ∉ text := by
  induction text with
  | nil => simp [lastColon]
  | cons c cs ih =>
    rw [lastColon]
    cases hcs : lastColon cs with
    | some p =>
      have hmem : ':' ∈ cs := by
        by_contra hmem
        rw [ih.mpr hmem] at hcs
        simp at hcs
      simp [hmem]
    | none =>
      have hmem := ih.mp hcs
      by_cases hc : c = ':'
      · simp [hc]
      · simp [hc, hmem, Ne.symm hc]

theorem lastColon_append (before : List Char) {after : List Char} (h : ':' ∉ after) :
    lastColon (before ++ ':' :: after) = some (before, after) := by
  induction before with
  | nil => simp [lastColon, lastColon_eq_none.mpr h]
  | cons c cs ih => simp [lastColon, ih]

theorem lastColon_eq_some {text before after : List Char} (h : lastColon text = some (before, after)) :
    text = before ++ ':' :: after ∧ ':' ∉ after := by
  induction text generalizing before with
  | nil => simp [lastColon] at h
  | cons c cs ih =>
    rw [lastColon] at h
    cases hcs : lastColon cs with
    | some p =>
      obtain ⟨before', after'⟩ := p
      rw [hcs] at h
      simp only [Option.some.injEq, Prod.mk.injEq] at h
      obtain ⟨rfl, rfl⟩ := h
      obtain ⟨htext, hafter⟩ := ih hcs
      exact ⟨by rw [htext, List.cons_append], hafter⟩
    | none =>
      rw [hcs] at h
      by_cases hc : c = ':'
      · simp only [if_pos hc, Option.some.injEq, Prod.mk.injEq] at h
        obtain ⟨rfl, rfl⟩ := h
        exact ⟨by rw [hc, List.nil_append], lastColon_eq_none.mp hcs⟩
      · simp [hc] at h

/-- **A text with a colon is what is before the last one, the colon, and the rest.** -/
theorem exists_lastColon {text : List Char} (h : ':' ∈ text) :
    ∃ before after, text = before ++ ':' :: after ∧ ':' ∉ after := by
  cases hlast : lastColon text with
  | none => exact absurd h (lastColon_eq_none.mp hlast)
  | some p => exact ⟨p.1, p.2, lastColon_eq_some hlast⟩

theorem cut_append {c : Char} {before : List Char} (h : c ∉ before) (after : List Char) :
    cut c (before ++ c :: after) = some (before, after) := by
  induction before with
  | nil => simp [cut]
  | cons d ds ih =>
    rw [List.mem_cons, not_or] at h
    simp [cut, Ne.symm h.1, ih h.2]

/-! ### Ports -/

theorem validOptionalPort_iff {port : List Char} :
    validOptionalPort (':' :: port) = true ↔ ∀ c ∈ port, Decimal.IsDigit c := by
  have hdigit : ∀ c, (GoString.digit? c).isSome = true ↔ Decimal.IsDigit c := by
    intro c
    by_cases hc : Decimal.IsDigit c
    · simp [Decimal.digit?_eq hc, hc]
    · simp [Decimal.digit?_eq_none hc, hc]
  simp [validOptionalPort, hdigit]

/-- Digits are no colon and no bracket. -/
theorem not_mem_digits {port : List Char} (h : ∀ c ∈ port, Decimal.IsDigit c) :
    ':' ∉ port ∧ '[' ∉ port ∧ ']' ∉ port := by
  have hnot : ∀ c, ¬ Decimal.IsDigit c → c ∉ port := fun c hc hmem => hc (h c hmem)
  exact ⟨hnot ':' (by simp [Decimal.IsDigit]), hnot '[' (by simp [Decimal.IsDigit]),
    hnot ']' (by simp [Decimal.IsDigit])⟩

theorem cut_eq_some {c : Char} {text before after : List Char}
    (h : cut c text = some (before, after)) : text = before ++ c :: after ∧ c ∉ before := by
  induction text generalizing before with
  | nil => simp [cut] at h
  | cons d ds ih =>
    rw [cut] at h
    by_cases hd : d = c
    · simp only [if_pos hd, Option.some.injEq, Prod.mk.injEq] at h
      obtain ⟨rfl, rfl⟩ := h
      exact ⟨by rw [hd, List.nil_append], by simp⟩
    · rw [if_neg hd, Option.map_eq_some_iff] at h
      obtain ⟨⟨before', after'⟩, hcut, h⟩ := h
      simp only [Prod.mk.injEq] at h
      obtain ⟨rfl, rfl⟩ := h
      obtain ⟨rfl, hbefore⟩ := ih hcut
      exact ⟨rfl, by simp [hbefore, Ne.symm hd]⟩

/-! ### A host in brackets -/

/-- **Without a port there is nothing to split**, whatever is in the brackets. -/
theorem splitHostPort_brackets (inner : List Char) :
    splitHostPort ('[' :: inner ++ [']']) = none := by
  rw [List.cons_append, splitHostPort]
  cases hlast : lastColon ('[' :: (inner ++ [']'])) with
  | none => rfl
  | some p =>
    obtain ⟨before, port⟩ := p
    obtain ⟨htext, -⟩ := lastColon_eq_some hlast
    cases hcut : cut ']' (inner ++ [']']) with
    | none => simp [hcut]
    | some q =>
      obtain ⟨host, tail⟩ := q
      obtain ⟨hrest, -⟩ := cut_eq_some hcut
      by_cases hbefore : '[' :: host ++ [']'] = before
      · -- the colon is behind the first bracket, and the last character behind the colon
        have htail : tail = ':' :: port := by
          rw [hrest, ← hbefore] at htext
          simpa using htext
        have hclose : ']' ∈ tail := by
          have hlastChar := congrArg List.getLast? hrest
          rw [List.getLast?_concat, List.getLast?_append, htail, List.getLast?_cons_cons] at hlastChar
          rw [htail]
          have hmem := List.mem_of_getLast? (by simpa using hlastChar.symm)
          exact hmem
        simp [hcut, hclose]
      · rw [List.cons_append] at hbefore
        simp [hcut, hbefore]

/-- What is in the brackets is split from the port, when it has no bracket itself. -/
theorem splitHostPort_brackets_port {inner port : List Char} (hopen : '[' ∉ inner)
    (hclose : ']' ∉ inner) (hport : ∀ c ∈ port, Decimal.IsDigit c) :
    splitHostPort ('[' :: inner ++ ']' :: ':' :: port) = some (inner, port) := by
  obtain ⟨hcolon, hopen', hclose'⟩ := not_mem_digits hport
  have hlast : lastColon ('[' :: (inner ++ ']' :: ':' :: port)) =
      some ('[' :: inner ++ [']'], port) := by
    have h := lastColon_append ('[' :: inner ++ [']']) hcolon
    simpa using h
  have hcut := cut_append hclose (':' :: port)
  rw [List.cons_append, splitHostPort]
  simp [hlast, hcut, hopen, hopen', hclose']

/-- A bracket inside is not accepted. -/
theorem splitHostPort_inner_bracket {inner port : List Char} (h : '[' ∈ inner ∨ ']' ∈ inner)
    (hport : ∀ c ∈ port, Decimal.IsDigit c) :
    splitHostPort ('[' :: inner ++ ']' :: ':' :: port) = none := by
  obtain ⟨hcolon, hopen', hclose'⟩ := not_mem_digits hport
  have hlast : lastColon ('[' :: (inner ++ ']' :: ':' :: port)) =
      some ('[' :: inner ++ [']'], port) := by
    have h := lastColon_append ('[' :: inner ++ [']']) hcolon
    simpa using h
  rw [List.cons_append, splitHostPort]
  cases hcut : cut ']' (inner ++ ']' :: ':' :: port) with
  | none => simp [hlast, hcut]
  | some q =>
    obtain ⟨host, tail⟩ := q
    obtain ⟨-, hhost⟩ := cut_eq_some hcut
    by_cases hsame : host = inner
    · subst hsame
      have hopen : '[' ∈ host := h.resolve_right hhost
      simp [hlast, hcut, hopen]
    · simp [hlast, hcut, hsame]

/-- **The brackets fall away.** -/
theorem strip_brackets (inner : List Char) :
    (match '[' :: inner ++ [']'] with
      | '[' :: rest => if rest.getLast? = some ']' then rest.dropLast else '[' :: inner ++ [']']
      | _ => '[' :: inner ++ [']']) = inner := by
  simp

theorem hostname_brackets (inner : List Char) : hostname ('[' :: inner ++ [']']) = inner := by
  have hport : (match lastColon ('[' :: inner ++ [']']) with
      | some (before, after) =>
        if validOptionalPort (':' :: after) then before else '[' :: inner ++ [']']
      | none => '[' :: inner ++ [']']) = '[' :: inner ++ [']'] := by
    cases hlast : lastColon ('[' :: inner ++ [']']) with
    | none => rfl
    | some p =>
      obtain ⟨before, after⟩ := p
      obtain ⟨htext, -⟩ := lastColon_eq_some hlast
      dsimp only
      rw [if_neg]
      intro hvalid
      obtain ⟨hcolon, -, hclose⟩ := not_mem_digits (validOptionalPort_iff.mp hvalid)
      have hlastChar := congrArg List.getLast? htext
      rw [List.getLast?_concat, List.getLast?_append_cons] at hlastChar
      have hmem : ']' ∈ ':' :: after := List.mem_of_getLast? hlastChar.symm
      rw [List.mem_cons] at hmem
      exact hmem.elim (by decide) hclose
  rw [hostname, hport]
  exact strip_brackets inner

theorem hostname_brackets_port (inner : List Char) {port : List Char}
    (hport : ∀ c ∈ port, Decimal.IsDigit c) :
    hostname ('[' :: inner ++ ']' :: ':' :: port) = inner := by
  obtain ⟨hcolon, -, -⟩ := not_mem_digits hport
  have hlast : lastColon ('[' :: inner ++ ']' :: ':' :: port) =
      some ('[' :: inner ++ [']'], port) := by
    have h := lastColon_append ('[' :: inner ++ [']']) hcolon
    simpa using h
  rw [hostname, hlast]
  dsimp only
  rw [if_pos (validOptionalPort_iff.mpr hport)]
  exact strip_brackets inner

/-! ### A host without brackets -/

theorem hostname_plain {host : List Char} (hhead : ∀ rest, host ≠ '[' :: rest) (hcolon : ':' ∉ host) :
    hostname host = host := by
  rw [hostname, lastColon_eq_none.mpr hcolon]
  cases host with
  | nil => rfl
  | cons c cs => simp

/-- **Digits at the end are taken for a port.** -/
theorem hostname_port {host port : List Char} (hhead : ∀ rest, host ≠ '[' :: rest)
    (hport : ∀ c ∈ port, Decimal.IsDigit c) : hostname (host ++ ':' :: port) = host := by
  rw [hostname, lastColon_append host (not_mem_digits hport).1]
  dsimp only
  rw [if_pos (validOptionalPort_iff.mpr hport)]
  cases host with
  | nil => rfl
  | cons c cs => simp

theorem splitHostPort_plain {host : List Char} (hcolon : ':' ∉ host) : splitHostPort host = none := by
  rw [splitHostPort, lastColon_eq_none.mpr hcolon]

theorem splitHostPort_port {host port : List Char} (hcolon : ':' ∉ host) (hopen : '[' ∉ host)
    (hclose : ']' ∉ host) (hport : ∀ c ∈ port, Decimal.IsDigit c) :
    splitHostPort (host ++ ':' :: port) = some (host, port) := by
  obtain ⟨hcolon', hopen', hclose'⟩ := not_mem_digits hport
  rw [splitHostPort, lastColon_append host hcolon']
  cases host with
  | nil => simp [hopen', hclose']
  | cons c cs =>
    have hc : c ≠ '[' := fun he => hopen (by simp [he])
    have hopen'' : '[' ∉ cs := fun h => hopen (List.mem_cons_of_mem c h)
    have hclose'' : ']' ∉ cs := fun h => hclose (List.mem_cons_of_mem c h)
    have hclosehead : ']' ≠ c := by
      rintro rfl
      exact hclose List.mem_cons_self
    simp [hc, Ne.symm hc, hcolon, hopen', hclose', hopen'', hclose'', hclosehead]

/-- **A second colon is not accepted** outside of brackets. -/
theorem splitHostPort_two_colons {host port : List Char} (hhead : ∀ rest, host ≠ '[' :: rest)
    (hcolon : ':' ∈ host) (hport : ':' ∉ port) : splitHostPort (host ++ ':' :: port) = none := by
  rw [splitHostPort, lastColon_append host hport]
  cases host with
  | nil => simp at hcolon
  | cons c cs =>
    have hc : c ≠ '[' := fun he => hhead cs (by rw [he])
    simp [hc, hcolon]

end Net
