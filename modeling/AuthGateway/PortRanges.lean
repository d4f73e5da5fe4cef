import AuthGateway.Common.SsrfProtection

/-!
# Port ranges

What the entries of the port configuration mean, apart from how they are read: an
entry is one port or a range of ports (`Single`, `Range`), in decimal, with blanks
around it and around the two ends.  **`parsePortRanges` takes exactly the lists whose
entries are blank or mean something, and then allows exactly the ports that they
mean**, or all ports when all entries are blank (`ports_iff`).
-/

namespace AuthGateway.PortRanges

open Common GoString Decimal

/-- The text is the integer `n`, less the blanks around it. -/
def Spells (s : String) (n : Int) : Prop := IsInteger (trimSpace s).toList n

def Blank (entry : String) : Prop := trimSpace entry = ""

/-- The entry is the port `n`. -/
def Single (entry : String) (n : Int) : Prop := Spells entry n ∧ 1 ≤ n ∧ n ≤ 65535

/-- The entry is the range from `a` to `b`. -/
def Range (entry : String) (a b : Int) : Prop :=
  ∃ first second, (trimSpace entry).toList = first ++ '-' :: second ∧
    Spells (String.ofList first) a ∧ Spells (String.ofList second) b ∧
    1 ≤ a ∧ a ≤ b ∧ b ≤ 65535

def WellFormed (entry : String) : Prop := (∃ n, Single entry n) ∨ ∃ a b, Range entry a b

/-- The entry denotes the port `n`. -/
def Denotes (entry : String) (n : Int) : Prop :=
  Single entry n ∨ ∃ a b, Range entry a b ∧ a ≤ n ∧ n ≤ b

/-! ### Integers and their texts -/

theorem atoi_of_spells {s : String} {n : Int} (h : Spells s n) (hlow : 1 ≤ n) (hhigh : n ≤ 65535) :
    atoi (trimSpace s) = (n, none) :=
  atoi_eq_iff.mpr ⟨h, by omega, by omega⟩

theorem spells_of_atoi {s : String} {n : Int} (h : atoi (trimSpace s) = (n, none)) : Spells s n :=
  (atoi_eq_iff.mp h).1

/-- A positive integer has no minus sign. -/
theorem dash_not_mem {text : List Char} {n : Int} (h : IsInteger text n) (hn : 1 ≤ n) :
    '-' ∉ text := by
  have hdigits : ∀ {digits}, Digits digits → '-' ∉ digits := by
    intro digits hd hmem
    exact absurd (hd.2 '-' hmem) (by simp [IsDigit])
  cases h with
  | plain hd => exact hdigits hd
  | plus hd => simp [hdigits hd]
  | minus hd => omega

/-- A character that is no blank is not trimmed. -/
theorem mem_trimSpace {s : String} {c : Char} (hc : GoString.isSpace c = false) :
    c ∈ (trimSpace s).toList ↔ c ∈ s.toList := by
  have hdrop : ∀ l : List Char, c ∈ l.dropWhile GoString.isSpace ↔ c ∈ l := by
    intro l
    constructor
    · intro h
      exact List.dropWhile_subset _ h
    · intro h
      rw [← List.takeWhile_append_dropWhile (p := GoString.isSpace) (l := l), List.mem_append] at h
      refine h.resolve_left fun htake => ?_
      rw [List.mem_takeWhile_imp htake] at hc
      simp at hc
  rw [trimSpace, String.toList_ofList, List.mem_reverse, hdrop, List.mem_reverse, hdrop]

/-- The text of a positive integer has no minus sign, in the blanks neither. -/
theorem dash_not_mem_of_spells {text : List Char} {n : Int} (h : Spells (String.ofList text) n)
    (hn : 1 ≤ n) : '-' ∉ text := by
  have htrim := dash_not_mem h hn
  rw [mem_trimSpace (by decide), String.toList_ofList] at htrim
  exact htrim

/-! ### One entry -/

theorem mem_portsFrom {a b n : Int} : n ∈ portsFrom a b ↔ a ≤ n ∧ n ≤ b := by
  simp only [portsFrom, List.mem_map, List.mem_range]
  constructor
  · rintro ⟨i, hi, rfl⟩
    omega
  · intro h
    refine ⟨(n - a).toNat, ?_, ?_⟩ <;> omega

/-- An entry that is read: it means something, and its ports are those it denotes. -/
def Reads (entry : String) (ports : List Int) : Prop :=
  WellFormed entry ∧ ∀ n, n ∈ ports ↔ Denotes entry n

theorem split_eq_pair {s first second : String} (h : split '-' s = [first, second]) :
    s.toList = first.toList ++ '-' :: second.toList := by
  have hlists : s.toList.splitOn '-' = [first.toList, second.toList] := by
    have hmap := congrArg (fun l => l.map String.toList) h
    simpa [split, Function.comp_def] using hmap
  have hjoin : ['-'].intercalate (s.toList.splitOn '-') = s.toList := List.intercalate_splitOn '-'
  rw [hlists] at hjoin
  simpa using hjoin.symm

theorem split_of_range {entry : String} {a b : Int} (h : Range entry a b) :
    ∃ first second, split '-' (trimSpace entry) = [first, second] ∧ Spells first a ∧
      Spells second b := by
  obtain ⟨first, second, htext, ha, hb, hlow, hle, -⟩ := h
  refine ⟨String.ofList first, String.ofList second, ?_, ha, hb⟩
  have hplain : ∀ l ∈ [first, second], '-' ∉ l := by
    intro l hl
    rcases List.mem_cons.mp hl with rfl | hl
    · exact dash_not_mem_of_spells ha hlow
    · obtain rfl := List.mem_singleton.mp hl
      exact dash_not_mem_of_spells hb (by omega)
  have hjoin : (['-'].intercalate [first, second]).splitOn '-' = [first, second] :=
    List.splitOn_intercalate '-' hplain (by simp)
  have hsplit : (first ++ '-' :: second).splitOn '-' = [first, second] := by
    simpa using hjoin
  rw [split, htext, hsplit]
  rfl

/-- The single ports of an entry without a dash. -/
theorem parse_single {entry : String} (h : contains (trimSpace entry) '-' = false) :
    (∃ ports, parsePortEntry (trimSpace entry) = .ok ports ∧ Reads entry ports) ∨
      (∃ err, parsePortEntry (trimSpace entry) = .error err) ∧ ¬ WellFormed entry := by
  have hdash : '-' ∉ (trimSpace entry).toList := by simpa [contains] using h
  have hrange : ∀ a b, ¬ Range entry a b := by
    rintro a b ⟨first, second, htext, -⟩
    exact hdash (by simp [htext])
  rw [parsePortEntry, if_neg (by simp [h])]
  cases hatoi : atoi (trimSpace entry) with
  | mk m e =>
    cases e with
    | some e =>
      refine Or.inr ⟨⟨_, rfl⟩, ?_⟩
      rintro (⟨n, hn, hlow, hhigh⟩ | ⟨a, b, hab⟩)
      · rw [atoi_of_spells hn hlow hhigh] at hatoi
        simp at hatoi
      · exact hrange a b hab
    | none =>
      have hunique : ∀ {n}, Single entry n → n = m := by
        rintro n ⟨hn, hlow, hhigh⟩
        rw [atoi_of_spells hn hlow hhigh] at hatoi
        exact congrArg Prod.fst hatoi
      dsimp only
      by_cases hport : m < 1 ∨ m > 65535
      · rw [if_pos hport]
        refine Or.inr ⟨⟨_, rfl⟩, ?_⟩
        rintro (⟨n, hn⟩ | ⟨a, b, hab⟩)
        · obtain rfl := hunique hn
          have := hn.2
          omega
        · exact hrange a b hab
      · rw [if_neg hport]
        have hm : Single entry m := ⟨spells_of_atoi hatoi, by omega, by omega⟩
        refine Or.inl ⟨_, rfl, Or.inl ⟨m, hm⟩, fun n => ?_⟩
        rw [List.mem_singleton]
        constructor
        · rintro rfl
          exact Or.inl hm
        · rintro (hn | ⟨a, b, hab, -⟩)
          · exact hunique hn
          · exact absurd hab (hrange a b)

/-- The range of an entry with a dash. -/
theorem parse_range {entry : String} (h : contains (trimSpace entry) '-' = true) :
    (∃ ports, parsePortEntry (trimSpace entry) = .ok ports ∧ Reads entry ports) ∨
      (∃ err, parsePortEntry (trimSpace entry) = .error err) ∧ ¬ WellFormed entry := by
  have hdash : '-' ∈ (trimSpace entry).toList := by simpa [contains] using h
  have hsingle : ∀ n, ¬ Single entry n := fun n hn => dash_not_mem hn.1 hn.2.1 hdash
  have hunique : ∀ {first second : String} {a b : Int},
      split '-' (trimSpace entry) = [first, second] → Range entry a b →
        atoi (trimSpace first) = (a, none) ∧ atoi (trimSpace second) = (b, none) := by
    intro first second a b hsplit hrange
    obtain ⟨first', second', hsplit', ha, hb⟩ := split_of_range hrange
    obtain ⟨-, -, -, -, -, hlow, hle, hhigh⟩ := hrange
    rw [hsplit, List.cons.injEq, List.cons.injEq] at hsplit'
    obtain ⟨rfl, rfl, -⟩ := hsplit'
    exact ⟨atoi_of_spells ha hlow (by omega), atoi_of_spells hb (by omega) hhigh⟩
  rw [parsePortEntry, if_pos h]
  have hshape : ∀ texts, split '-' (trimSpace entry) = texts → texts.length ≠ 2 →
      ¬ WellFormed entry := by
    rintro texts htexts hlen (⟨n, hn⟩ | ⟨a, b, hab⟩)
    · exact hsingle n hn
    · obtain ⟨first, second, hsplit, -⟩ := split_of_range hab
      rw [hsplit] at htexts
      exact hlen (by rw [← htexts]; rfl)
  match hsplit : split '-' (trimSpace entry) with
  | [] => exact Or.inr ⟨⟨_, rfl⟩, hshape _ hsplit (by simp)⟩
  | [first] => exact Or.inr ⟨⟨_, rfl⟩, hshape _ hsplit (by simp)⟩
  | first :: second :: third :: rest => exact Or.inr ⟨⟨_, rfl⟩, hshape _ hsplit (by simp)⟩
  | [first, second] =>
    dsimp only
    -- without a range of the entry's own there is nothing that it means
    have hnone : (∀ a b, atoi (trimSpace first) = (a, none) → atoi (trimSpace second) = (b, none) →
        ¬ (1 ≤ a ∧ a ≤ b ∧ b ≤ 65535)) → ¬ WellFormed entry := by
      rintro hbad (⟨n, hn⟩ | ⟨a, b, hab⟩)
      · exact hsingle n hn
      · obtain ⟨ha, hb⟩ := hunique hsplit hab
        obtain ⟨-, -, -, -, -, hports⟩ := hab
        exact hbad a b ha hb hports
    cases hfirst : atoi (trimSpace first) with
    | mk a ea =>
      cases ea with
      | some ea => exact Or.inr ⟨⟨_, rfl⟩, hnone fun a' b ha _ => by simp [hfirst] at ha⟩
      | none =>
        cases hsecond : atoi (trimSpace second) with
        | mk b eb =>
          cases eb with
          | some eb => exact Or.inr ⟨⟨_, rfl⟩, hnone fun a' b' _ hb => by simp [hsecond] at hb⟩
          | none =>
            have hbad : ¬ (1 ≤ a ∧ a ≤ b ∧ b ≤ 65535) → ¬ WellFormed entry := by
              intro hports
              apply hnone
              intro a' b' ha hb
              rw [hfirst] at ha
              rw [hsecond] at hb
              obtain rfl : a = a' := congrArg Prod.fst ha
              obtain rfl : b = b' := congrArg Prod.fst hb
              exact hports
            dsimp only
            by_cases horder : a > b
            · rw [if_pos horder]
              exact Or.inr ⟨⟨_, rfl⟩, hbad (by omega)⟩
            · rw [if_neg horder]
              by_cases hports : a < 1 ∨ a > 65535 ∨ b < 1 ∨ b > 65535
              · rw [if_pos hports]
                exact Or.inr ⟨⟨_, rfl⟩, hbad (by omega)⟩
              · rw [if_neg hports]
                have hab : Range entry a b :=
                  ⟨first.toList, second.toList, split_eq_pair hsplit,
                    by simpa using spells_of_atoi hfirst, by simpa using spells_of_atoi hsecond,
                    by omega, by omega, by omega⟩
                refine Or.inl ⟨_, rfl, Or.inr ⟨a, b, hab⟩, fun n => ?_⟩
                rw [mem_portsFrom]
                constructor
                · intro hn
                  exact Or.inr ⟨a, b, hab, hn⟩
                · rintro (hn | ⟨a', b', hab', hn⟩)
                  · exact absurd hn (hsingle n)
                  · obtain ⟨ha, hb⟩ := hunique hsplit hab'
                    rw [hfirst] at ha
                    rw [hsecond] at hb
                    obtain rfl : a = a' := congrArg Prod.fst ha
                    obtain rfl : b = b' := congrArg Prod.fst hb
                    exact hn

/-- **An entry is read when it means something**, as what it means. -/
theorem parse_entry (entry : String) :
    (∃ ports, parsePortEntry (trimSpace entry) = .ok ports ∧ Reads entry ports) ∨
      (∃ err, parsePortEntry (trimSpace entry) = .error err) ∧ ¬ WellFormed entry := by
  cases h : contains (trimSpace entry) '-' with
  | true => exact parse_range h
  | false => exact parse_single h

/-! ### The list -/

theorem blank_denotes_nothing {entry : String} (h : Blank entry) (n : Int) : ¬ Denotes entry n := by
  have htext : (trimSpace entry).toList = [] := by
    rw [h]
    rfl
  rintro (⟨hn, -⟩ | ⟨a, b, ⟨first, second, hrange, -⟩, -⟩)
  · rw [Spells, htext] at hn
    cases hn with
    | plain hd => exact hd.1 rfl
  · rw [htext] at hrange
    simp at hrange

theorem exists_denoted {entry : String} (h : WellFormed entry) : ∃ n, Denotes entry n := by
  rcases h with ⟨n, hn⟩ | ⟨a, b, hab⟩
  · exact ⟨n, Or.inl hn⟩
  · obtain ⟨-, -, -, -, -, -, hle, -⟩ := id hab
    exact ⟨a, Or.inr ⟨a, b, hab, Int.le_refl a, hle⟩⟩

/-- The loop fails at an entry that means nothing, and otherwise adds what the entries denote. -/
theorem parsePortsFrom_spec (configs : List String) (ports : List Int) :
    (∃ all, parsePortsFrom ports configs = .ok all ∧
        (∀ entry ∈ configs, Blank entry ∨ WellFormed entry) ∧
        ∀ n, n ∈ all ↔ n ∈ ports ∨ ∃ entry ∈ configs, Denotes entry n) ∨
      (∃ err, parsePortsFrom ports configs = .error err) ∧
        ∃ entry ∈ configs, ¬ Blank entry ∧ ¬ WellFormed entry := by
  induction configs generalizing ports with
  | nil => exact Or.inl ⟨ports, rfl, by simp, by simp⟩
  | cons entry configs ih =>
    rw [parsePortsFrom]
    by_cases hblank : trimSpace entry = ""
    · rw [if_pos hblank]
      rcases ih ports with ⟨all, hall, hform, hmem⟩ | ⟨herr, bad, hbad, hbad'⟩
      · refine Or.inl ⟨all, hall, ?_, fun n => ?_⟩
        · intro e he
          rcases List.mem_cons.mp he with rfl | he
          · exact Or.inl hblank
          · exact hform e he
        · simp [hmem, blank_denotes_nothing hblank]
      · exact Or.inr ⟨herr, bad, by simp [hbad], hbad'⟩
    · rw [if_neg hblank]
      rcases parse_entry entry with ⟨more, hmore, hread⟩ | ⟨⟨err, herr⟩, hill⟩
      · rw [hmore]
        rcases ih (ports ++ more) with ⟨all, hall, hform, hmem⟩ | ⟨herr, bad, hbad, hbad'⟩
        · refine Or.inl ⟨all, hall, ?_, fun n => ?_⟩
          · intro e he
            rcases List.mem_cons.mp he with rfl | he
            · exact Or.inr hread.1
            · exact hform e he
          · simp [hmem, hread.2, or_assoc]
        · exact Or.inr ⟨herr, bad, by simp [hbad], hbad'⟩
      · rw [herr]
        exact Or.inr ⟨⟨err, rfl⟩, entry, by simp, hblank, hill⟩

/-- **The configuration is refused exactly for an entry that is not blank and means nothing;
else the ports that the entries denote are allowed, and no others**, unless all entries
are blank. -/
theorem ports_iff (configs : List String) :
    ((∃ err, parsePortRanges configs = .error err) ↔
        ∃ entry ∈ configs, ¬ Blank entry ∧ ¬ WellFormed entry) ∧
      ∀ p : SSRFProtection, parsePortRanges configs = .ok p.allowedPorts →
        ∀ n, p.isAllowedPort n = true ↔
          (∀ entry ∈ configs, Blank entry) ∨ ∃ entry ∈ configs, Denotes entry n := by
  rcases parsePortsFrom_spec configs [] with ⟨all, hall, hform, hmem⟩ | ⟨⟨err, herr⟩, hbad⟩
  · constructor
    · constructor
      · rintro ⟨err, herr⟩
        rw [parsePortRanges, hall] at herr
        simp at herr
      · rintro ⟨entry, hentry, hblank, hill⟩
        exact absurd (hform entry hentry) (by simp [hblank, hill])
    · intro p hp n
      rw [parsePortRanges, hall, Except.ok.injEq] at hp
      have hports : ∀ n, n ∈ p.allowedPorts ↔ ∃ entry ∈ configs, Denotes entry n := by
        intro n
        rw [← hp, hmem]
        simp
      have hnil : p.allowedPorts.length = 0 ↔ ∀ entry ∈ configs, Blank entry := by
        rw [List.length_eq_zero_iff, List.eq_nil_iff_forall_not_mem]
        constructor
        · intro h entry hentry
          refine (hform entry hentry).resolve_right fun hwell => ?_
          obtain ⟨m, hm⟩ := exists_denoted hwell
          exact h m ((hports m).mpr ⟨entry, hentry, hm⟩)
        · intro h m hm
          obtain ⟨entry, hentry, hdenotes⟩ := (hports m).mp hm
          exact blank_denotes_nothing (h entry hentry) m hdenotes
      rw [SSRFProtection.isAllowedPort, ← hports]
      by_cases hlen : p.allowedPorts.length = 0
      · rw [if_pos hlen]
        exact ⟨fun _ => Or.inl (hnil.mp hlen), fun _ => rfl⟩
      · rw [if_neg hlen]
        have hblank : ¬ ∀ entry ∈ configs, Blank entry := fun h => hlen (hnil.mpr h)
        simp [hblank]
  · constructor
    · exact ⟨fun _ => hbad, fun _ => ⟨err, herr⟩⟩
    · intro p hp
      rw [parsePortRanges, herr] at hp
      simp at hp

/-- The configuration `80, 8000 - 8002` and a blank entry. -/
def webPorts : SSRFProtection where
  allowPrivateIp := false
  domainFilterMode := true
  domainList := []
  ipFilterMode := true
  ipList := []
  allowedPorts := [80, 8000, 8001, 8002]
  applyIPFilterForDomain := false

theorem ports_iff_web : ∀ n, webPorts.isAllowedPort n = true ↔
    (∀ entry ∈ ["80", " 8000 - 8002", " "], Blank entry) ∨
      ∃ entry ∈ ["80", " 8000 - 8002", " "], Denotes entry n :=
  (ports_iff ["80", " 8000 - 8002", " "]).2 webPorts (by decide +kernel)

end AuthGateway.PortRanges
