import AuthGateway.Lib.GoRoundTrip

/-!
# Documents in variables of type any

`document` is the check that comes before all decoding: the syntax, and how deep the brackets
are nested.  A variable of type `interface{}` takes any document whose numbers are in range.
Its value is kept as the document that marshalling makes of it: every number is written anew,
and the members of an object are in the order of their names, the last one of each name.

**What is marshalled and decoded again is the same value** (`plain_plain`).
-/

namespace SortedMap

variable {K V : Type} [LinearOrder K]

theorem mem_insertAll {l : List (K × V)} {m : SortedMap K V} {p : K × V}
    (h : p ∈ (m.insertAll l).entries) : p ∈ l ∨ p ∈ m.entries := by
  induction l generalizing m with
  | nil => exact Or.inr h
  | cons q l ih =>
    rcases ih (m := m.insert q.1 q.2) h with h | h
    · exact Or.inl (List.mem_cons_of_mem _ h)
    · rcases mem_insertEntry h with rfl | h
      · exact Or.inl List.mem_cons_self
      · exact Or.inr h

/-- The entries of a map, written into an empty one. -/
theorem insertAll_entries (m : SortedMap K V) : empty.insertAll m.entries = m := by
  refine ext_get? fun k => ?_
  rw [get?_insertAll m.sorted, get?_empty, Option.or_none]
  rfl

end SortedMap

/-- Where every item is as it should be, nothing is done. -/
theorem convertAll_fixed {α : Type} {f : α → Option α} {l : List α} (h : ∀ a ∈ l, f a = some a) :
    convertAll f l = some l := by
  induction l with
  | nil => rfl
  | cons a l ih =>
    have hhead := h a List.mem_cons_self
    have htail := ih fun b hb => h b (List.mem_cons_of_mem _ hb)
    rw [convertAll, hhead, htail]

namespace JsonTree

/-- Induction on documents. -/
theorem ind {P : JsonTree → Prop} (hnull : P null) (hbool : ∀ b, P (bool b))
    (hnum : ∀ literal, P (num literal)) (hstr : ∀ s, P (str s))
    (harr : ∀ items, (∀ t ∈ items, P t) → P (arr items))
    (hobj : ∀ members, (∀ m ∈ members, P m.2) → P (obj members)) : ∀ t, P t
  | null => hnull
  | bool b => hbool b
  | num literal => hnum literal
  | str s => hstr s
  | arr items => harr items fun t _ => ind hnull hbool hnum hstr harr hobj t
  | obj members => hobj members fun m _ => ind hnull hbool hnum hstr harr hobj m.2
termination_by t => sizeOf t
decreasing_by
  · simp_wf
    have := List.sizeOf_lt_of_mem ‹t ∈ items›
    omega
  · simp_wf
    have := List.sizeOf_lt_of_mem ‹m ∈ members›
    obtain ⟨key, t⟩ := m
    simp at this ⊢
    omega

/-! ### Syntax -/

mutual

/-- How deep the brackets of a document are nested. -/
def nesting : JsonTree → Nat
  | arr items => nestingItems items + 1
  | obj members => nestingMembers members + 1
  | _ => 0

def nestingItems : List JsonTree → Nat
  | [] => 0
  | t :: rest => max (nesting t) (nestingItems rest)

def nestingMembers : List (String × JsonTree) → Nat
  | [] => 0
  | (_, t) :: rest => max (nesting t) (nestingMembers rest)

end

theorem nestingItems_le {items : List JsonTree} {n : Nat} :
    nestingItems items ≤ n ↔ ∀ t ∈ items, nesting t ≤ n := by
  induction items with
  | nil => simp [nestingItems]
  | cons t items ih => simp [nestingItems, ih]

theorem nestingMembers_le {members : List (String × JsonTree)} {n : Nat} :
    nestingMembers members ≤ n ↔ ∀ m ∈ members, nesting m.2 ≤ n := by
  induction members with
  | nil => simp [nestingMembers]
  | cons m members ih =>
    obtain ⟨key, t⟩ := m
    simp [nestingMembers, ih]

def maxNestingDepth : Nat := 10000

/-- `checkValid`, and the document that it accepts. -/
def document (text : String) : Option JsonTree :=
  (read text).filter fun t => decide (nesting t ≤ maxNestingDepth)

theorem document_toText {t : JsonTree} (ht : Literal t) (hnesting : nesting t ≤ maxNestingDepth) :
    document t.toText = some t := by
  rw [document, read_toText t ht, Option.filter_some, if_pos (decide_eq_true hnesting)]

theorem nesting_of_document {text : String} {t : JsonTree} (h : document text = some t) :
    nesting t ≤ maxNestingDepth :=
  of_decide_eq_true (Option.filter_eq_some_iff.mp h).2

/-! ### Values of type any -/

variable (lib : GoLibrary)

/-- A number in a `float64`, as it is written again. -/
def inRange (literal : String) : Option JsonTree :=
  (lib.parseFloat .f64 literal).bind fun f =>
    if isFinite .f64 f.bits then some (num (lib.literal .f64 f)) else none

/-- The map that members make: a later one takes the place of an earlier one. -/
def sortMembers (members : List (String × JsonTree)) : List (String × JsonTree) :=
  (SortedMap.empty.insertAll members).entries

mutual

/-- A document in a variable of type `interface{}`; a number out of range is a type error. -/
def plain : JsonTree → Option JsonTree
  | num literal => inRange lib literal
  | arr items => (plainItems items).map arr
  | obj members => (plainMembers members).map fun ms => obj (sortMembers ms)
  | t => some t

def plainItems : List JsonTree → Option (List JsonTree)
  | [] => some []
  | t :: rest =>
    match plain t, plainItems rest with
    | some t, some rest => some (t :: rest)
    | _, _ => none

def plainMembers : List (String × JsonTree) → Option (List (String × JsonTree))
  | [] => some []
  | (key, t) :: rest =>
    match plain t, plainMembers rest with
    | some t, some rest => some ((key, t) :: rest)
    | _, _ => none

end

theorem plainItems_eq (items : List JsonTree) :
    plainItems lib items = convertAll (plain lib) items := by
  induction items with
  | nil => rfl
  | cons t items ih =>
    rw [plainItems, convertAll, ih]
    cases plain lib t <;> cases convertAll (plain lib) items <;> rfl

theorem plainMembers_eq (members : List (String × JsonTree)) :
    plainMembers lib members = convertAll (fun m => (plain lib m.2).map (m.1, ·)) members := by
  induction members with
  | nil => rfl
  | cons m members ih =>
    obtain ⟨key, t⟩ := m
    rw [plainMembers, convertAll, ih]
    cases plain lib t <;>
      cases convertAll (fun m => (plain lib m.2).map (m.1, ·)) members <;> rfl

/-- A value that decoding has made. -/
structure Plain (t : JsonTree) : Prop where
  fixed : plain lib t = some t
  literal : Literal t

variable {lib}

theorem plain_inRange (hlib : lib.Lawful) {literal : String} {u : JsonTree}
    (h : inRange lib literal = some u) : Plain lib u ∧ nesting u = 0 := by
  obtain ⟨f, -, hf⟩ := Option.bind_eq_some_iff.mp h
  split at hf
  · rename_i hfinite
    obtain rfl := Option.some.inj hf
    refine ⟨⟨?_, ?_⟩, rfl⟩
    · rw [plain, inRange, hlib.parseFloat_literal .f64 f hfinite, Option.bind_some, if_pos hfinite]
    · rw [Literal]
      exact ⟨hlib.literal_isNumber .f64 f hfinite, hlib.literal_isNumeric .f64 f hfinite⟩
  · cases hf

/-- Values of type any make one, in the order of their names. -/
theorem plain_sortMembers {ms : List (String × JsonTree)} (h : ∀ m ∈ ms, Plain lib m.2) :
    Plain lib (obj (sortMembers ms)) := by
  have hsorted : ∀ m ∈ sortMembers ms, Plain lib m.2 := by
    intro m hm
    rcases SortedMap.mem_insertAll hm with hm | hm
    · exact h m hm
    · exact nomatch hm
  refine ⟨?_, ?_⟩
  · have hfixed : plainMembers lib (sortMembers ms) = some (sortMembers ms) := by
      rw [plainMembers_eq]
      refine convertAll_fixed fun m hm => ?_
      rw [(hsorted m hm).fixed]
      rfl
    have hagain : sortMembers (sortMembers ms) = sortMembers ms :=
      congrArg SortedMap.entries (SortedMap.insertAll_entries _)
    rw [plain, hfixed, Option.map_some, hagain]
  · rw [Literal]
    exact literalMembers_iff.mpr fun m hm => (hsorted m hm).literal

/-- **A value of type any is the same after marshalling and decoding**, and its brackets are
nested no deeper. -/
theorem plain_plain (hlib : lib.Lawful) (t : JsonTree) :
    ∀ u, plain lib t = some u → Plain lib u ∧ nesting u ≤ nesting t := by
  induction t using ind with
  | hnull =>
    intro u h
    obtain rfl := Option.some.inj h
    exact ⟨⟨rfl, trivial⟩, le_refl _⟩
  | hbool b =>
    intro u h
    obtain rfl := Option.some.inj h
    exact ⟨⟨rfl, trivial⟩, le_refl _⟩
  | hnum literal =>
    intro u h
    rw [plain] at h
    obtain ⟨hplain, hnesting⟩ := plain_inRange hlib h
    exact ⟨hplain, by omega⟩
  | hstr s =>
    intro u h
    obtain rfl := Option.some.inj h
    exact ⟨⟨rfl, trivial⟩, le_refl _⟩
  | harr items ih =>
    intro u h
    rw [plain, plainItems_eq] at h
    obtain ⟨us, hus, rfl⟩ := Option.map_eq_some_iff.mp h
    have hall : ∀ u ∈ us, ∃ t ∈ items, Plain lib u ∧ nesting u ≤ nesting t := by
      intro u hu
      obtain ⟨t, ht, htu⟩ := convertAll_mem hus hu
      exact ⟨t, ht, ih t ht u htu⟩
    refine ⟨⟨?_, ?_⟩, ?_⟩
    · rw [plain, plainItems_eq, convertAll_fixed fun u hu => ?_]
      · rfl
      · obtain ⟨-, -, hplain, -⟩ := hall u hu
        exact hplain.fixed
    · rw [Literal]
      refine literalItems_iff.mpr fun u hu => ?_
      obtain ⟨-, -, hplain, -⟩ := hall u hu
      exact hplain.literal
    · rw [nesting, nesting, Nat.add_le_add_iff_right, nestingItems_le]
      intro u hu
      obtain ⟨t, ht, -, hle⟩ := hall u hu
      exact hle.trans (nestingItems_le.mp (le_refl _) t ht)
  | hobj members ih =>
    intro u h
    rw [plain, plainMembers_eq] at h
    obtain ⟨ms, hms, rfl⟩ := Option.map_eq_some_iff.mp h
    have hall : ∀ m' ∈ ms, ∃ m ∈ members, Plain lib m'.2 ∧ nesting m'.2 ≤ nesting m.2 := by
      intro m' hm'
      obtain ⟨m, hm, hmm'⟩ := convertAll_mem hms hm'
      obtain ⟨u, hu, rfl⟩ := Option.map_eq_some_iff.mp hmm'
      exact ⟨m, hm, ih m hm u hu⟩
    refine ⟨plain_sortMembers fun m' hm' => ?_, ?_⟩
    · obtain ⟨-, -, hplain, -⟩ := hall m' hm'
      exact hplain
    · rw [nesting, nesting, Nat.add_le_add_iff_right, nestingMembers_le]
      intro m' hm'
      rcases SortedMap.mem_insertAll hm' with hm' | hm'
      · obtain ⟨m, hm, -, hle⟩ := hall m' hm'
        exact hle.trans (nestingMembers_le.mp (le_refl _) m hm)
      · exact nomatch hm'

end JsonTree
