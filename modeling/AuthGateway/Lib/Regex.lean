import Mathlib.Data.List.Basic

/-!
# Regular expressions

What Go's `regexp` finds: at each place the first of the matches in the order of preference, in
which repetition is greedy, and the leftmost place at which there is one.  `ends` lists the
places where the matches end; `replaceAll` puts another text for each part that is found.

**A character that no match can contain cuts the text in two** (`replaceAll_stop`), and a part
without any match stays as it is (`replaceAll_of_none`).
-/

inductive Regex (α : Type)
  | empty
  /-- One character of a class. -/
  | one (p : α → Bool)
  | seq (r s : Regex α)
  | alt (r s : Regex α)
  /-- `r{0,n}`. -/
  | upTo (n : Nat) (r : Regex α)
  /-- `r*`. -/
  | many (r : Regex α)
  /-- `\b`. -/
  | boundary

/-- What stands before a place, if it belongs to a word, and the text from there on. -/
structure Place (α : Type) where
  afterWord : Bool
  rest : List α

namespace Regex

variable {α : Type}

/-- Up to so many steps that go forward, as many as can be. -/
def greedy (step : Place α → List (Place α)) : Nat → Place α → List (Place α)
  | 0, x => [x]
  | n + 1, x =>
    ((step x).filter fun y => y.rest.length < x.rest.length).flatMap (greedy step n) ++ [x]

/-- The ends of the matches, in the order of preference. -/
def ends (word : α → Bool) : Regex α → Place α → List (Place α)
  | empty, x => [x]
  | one p, x =>
    match x.rest with
    | [] => []
    | c :: l => if p c then [⟨word c, l⟩] else []
  | seq r s, x => (r.ends word x).flatMap (s.ends word)
  | alt r s, x => r.ends word x ++ s.ends word x
  | upTo n r, x => greedy (r.ends word) n x
  | many r, x => greedy (r.ends word) x.rest.length x
  | boundary, x => if x.afterWord = x.rest.head?.any word then [] else [x]

/-- The end of the match that is found at a place. -/
def first (word : α → Bool) (r : Regex α) (x : Place α) : Option (Place α) :=
  (r.ends word x).head?

theorem mem_ends_boundary {word : α → Bool} {x y : Place α} : y ∈ boundary.ends word x ↔
    x.afterWord ≠ x.rest.head?.any word ∧ y = x := by
  show y ∈ (if x.afterWord = x.rest.head?.any word then [] else [x]) ↔ _
  split
  · rename_i h
    exact ⟨fun hy => absurd hy List.not_mem_nil, fun hy => absurd h hy.1⟩
  · rename_i h
    exact List.mem_singleton.trans ⟨fun hy => ⟨h, hy⟩, And.right⟩

/-- A match between two boundaries. -/
theorem mem_ends_bounded {word : α → Bool} {r : Regex α} {x y : Place α} :
    y ∈ (seq boundary (seq r boundary)).ends word x ↔ x.afterWord ≠ x.rest.head?.any word ∧
      y ∈ r.ends word x ∧ y.afterWord ≠ y.rest.head?.any word := by
  constructor
  · intro hy
    obtain ⟨z, hz, hinner⟩ := List.mem_flatMap.mp hy
    obtain ⟨z', hz', hlast⟩ := List.mem_flatMap.mp hinner
    obtain ⟨hstart, rfl⟩ := mem_ends_boundary.mp hz
    obtain ⟨hend, rfl⟩ := mem_ends_boundary.mp hlast
    exact ⟨hstart, hz', hend⟩
  · rintro ⟨hstart, hy, hend⟩
    have hlast : y ∈ (seq r boundary).ends word x :=
      List.mem_flatMap.mpr ⟨y, hy, mem_ends_boundary.mpr ⟨hend, rfl⟩⟩
    exact List.mem_flatMap.mpr ⟨x, mem_ends_boundary.mpr ⟨hstart, rfl⟩, hlast⟩

/-! ### The words of an expression -/

/-- What a match can contain; boundaries are left out of account. -/
def Lang : Regex α → List α → Prop
  | empty, w => w = []
  | one p, w => ∃ c, p c = true ∧ w = [c]
  | seq r s, w => ∃ u v, r.Lang u ∧ s.Lang v ∧ w = u ++ v
  | alt r s, w => r.Lang w ∨ s.Lang w
  | upTo n r, w => ∃ us : List (List α), us.length ≤ n ∧ (∀ u ∈ us, u ≠ [] ∧ r.Lang u) ∧
      w = us.flatten
  | many r, w => ∃ us : List (List α), (∀ u ∈ us, u ≠ [] ∧ r.Lang u) ∧ w = us.flatten
  | boundary, w => w = []

/-- The flag behind a word. -/
def after (word : α → Bool) (b : Bool) (w : List α) : Bool := (w.getLast?.map word).getD b

theorem after_append (word : α → Bool) (b : Bool) (u v : List α) :
    after word b (u ++ v) = after word (after word b u) v := by
  unfold after
  rw [List.getLast?_append]
  cases v.getLast? <;> rfl

/-- The place behind a word. -/
def Passes (word : α → Bool) (P : List α → Prop) (x y : Place α) : Prop :=
  ∃ w, P w ∧ x.rest = w ++ y.rest ∧ y.afterWord = after word x.afterWord w

theorem passes_greedy {word : α → Bool} {P : List α → Prop}
    {step : Place α → List (Place α)} (hstep : ∀ x, ∀ y ∈ step x, Passes word P x y) (n : Nat) :
    ∀ x, ∀ y ∈ greedy step n x, Passes word
      (fun w => ∃ us : List (List α), us.length ≤ n ∧ (∀ u ∈ us, u ≠ [] ∧ P u) ∧ w = us.flatten)
      x y := by
  induction n with
  | zero =>
    intro x y hy
    obtain rfl := List.mem_singleton.mp hy
    exact ⟨[], ⟨[], Nat.zero_le _, by simp, rfl⟩, rfl, rfl⟩
  | succ n ih =>
    intro x y hy
    rcases List.mem_append.mp hy with hy | hy
    · obtain ⟨z, hz, hy⟩ := List.mem_flatMap.mp hy
      obtain ⟨hz, hshort⟩ := List.mem_filter.mp hz
      obtain ⟨u, hu, hrest, hafter⟩ := hstep x z hz
      obtain ⟨w, ⟨us, hlength, hus, rfl⟩, hrest', hafter'⟩ := ih z y hy
      have hne : u ≠ [] := by
        rintro rfl
        rw [hrest] at hshort
        exact absurd (of_decide_eq_true hshort) (Nat.lt_irrefl _)
      refine ⟨u ++ us.flatten, ⟨u :: us, Nat.succ_le_succ hlength, ?_, rfl⟩, ?_, ?_⟩
      · rw [List.forall_mem_cons]
        exact ⟨⟨hne, hu⟩, hus⟩
      · rw [hrest, hrest', List.append_assoc]
      · rw [hafter', hafter, after_append]
    · obtain rfl := List.mem_singleton.mp hy
      exact ⟨[], ⟨[], Nat.zero_le _, by simp, rfl⟩, rfl, rfl⟩

/-- **A match is a word of the expression.** -/
theorem passes_of_mem_ends {word : α → Bool} (r : Regex α) :
    ∀ x, ∀ y ∈ r.ends word x, Passes word r.Lang x y := by
  induction r with
  | empty =>
    intro x y hy
    obtain rfl := List.mem_singleton.mp hy
    exact ⟨[], rfl, rfl, rfl⟩
  | one p =>
    rintro ⟨b, rest⟩ y hy
    cases rest with
    | nil => exact nomatch hy
    | cons c l =>
      change y ∈ (if p c = true then [⟨word c, l⟩] else []) at hy
      split at hy
      · rename_i hc
        obtain rfl := List.mem_singleton.mp hy
        exact ⟨[c], ⟨c, hc, rfl⟩, rfl, rfl⟩
      · exact nomatch hy
  | seq r s ihr ihs =>
    intro x y hy
    obtain ⟨z, hz, hy⟩ := List.mem_flatMap.mp hy
    obtain ⟨u, hu, hrest, hafter⟩ := ihr x z hz
    obtain ⟨v, hv, hrest', hafter'⟩ := ihs z y hy
    refine ⟨u ++ v, ⟨u, v, hu, hv, rfl⟩, ?_, ?_⟩
    · rw [hrest, hrest', List.append_assoc]
    · rw [hafter', hafter, after_append]
  | alt r s ihr ihs =>
    intro x y hy
    rcases List.mem_append.mp hy with hy | hy
    · obtain ⟨w, hw, h⟩ := ihr x y hy
      exact ⟨w, Or.inl hw, h⟩
    · obtain ⟨w, hw, h⟩ := ihs x y hy
      exact ⟨w, Or.inr hw, h⟩
  | upTo n r ih => exact passes_greedy ih n
  | many r ih =>
    intro x y hy
    obtain ⟨w, ⟨us, -, hus, rfl⟩, h⟩ := passes_greedy ih _ x y hy
    exact ⟨us.flatten, ⟨us, hus, rfl⟩, h⟩
  | boundary =>
    intro x y hy
    change y ∈ (if x.afterWord = x.rest.head?.any word then [] else [x]) at hy
    split at hy
    · exact nomatch hy
    · obtain rfl := List.mem_singleton.mp hy
      exact ⟨[], rfl, rfl, rfl⟩

/-- There is no boundary in the expression. -/
def Plain : Regex α → Prop
  | seq r s | alt r s => r.Plain ∧ s.Plain
  | upTo _ r | many r => r.Plain
  | boundary => False
  | _ => True

theorem mem_greedy {word : α → Bool} {P : List α → Prop} {step : Place α → List (Place α)}
    (hstep : ∀ u b t, P u → ⟨after word b u, t⟩ ∈ step ⟨b, u ++ t⟩) {us : List (List α)}
    (hus : ∀ u ∈ us, u ≠ [] ∧ P u) : ∀ {n}, us.length ≤ n → ∀ b t,
    ⟨after word b us.flatten, t⟩ ∈ greedy step n ⟨b, us.flatten ++ t⟩ := by
  induction us with
  | nil =>
    intro n _ b t
    cases n with
    | zero => exact List.mem_singleton_self _
    | succ n => exact List.mem_append_right _ (List.mem_singleton_self _)
  | cons u us ih =>
    intro n hlength b t
    rw [List.forall_mem_cons] at hus
    cases n with
    | zero => exact absurd hlength (Nat.not_succ_le_zero _)
    | succ n =>
      have hrest := ih hus.2 (Nat.le_of_succ_le_succ hlength) (after word b u) t
      rw [← after_append] at hrest
      refine List.mem_append_left _
        (List.mem_flatMap.mpr ⟨⟨after word b u, us.flatten ++ t⟩, ?_, hrest⟩)
      have hshort : (us.flatten ++ t).length < ((u :: us).flatten ++ t).length := by
        have hpos := List.length_pos_of_ne_nil hus.1.1
        have hsum : (u ++ (us.flatten ++ t)).length = u.length + (us.flatten ++ t).length :=
          List.length_append
        rw [List.flatten_cons, List.append_assoc]
        omega
      refine List.mem_filter.mpr ⟨?_, decide_eq_true hshort⟩
      rw [List.flatten_cons, List.append_assoc]
      exact hstep u b (us.flatten ++ t) hus.1.2

theorem length_le_flatten {us : List (List α)} (h : ∀ u ∈ us, u ≠ []) :
    us.length ≤ us.flatten.length := by
  induction us with
  | nil => exact Nat.le_refl _
  | cons u us ih =>
    rw [List.forall_mem_cons] at h
    have hpos := List.length_pos_of_ne_nil h.1
    have hrest := ih h.2
    rw [List.flatten_cons, List.length_append, List.length_cons]
    omega

/-- **A word of an expression without boundaries is matched.** -/
theorem mem_ends_of_lang {word : α → Bool} (r : Regex α) (hr : r.Plain) :
    ∀ w b t, r.Lang w → ⟨after word b w, t⟩ ∈ r.ends word ⟨b, w ++ t⟩ := by
  induction r with
  | empty =>
    rintro w b t rfl
    exact List.mem_singleton_self _
  | one p =>
    rintro w b t ⟨c, hc, rfl⟩
    show _ ∈ (if p c = true then [(⟨word c, t⟩ : Place α)] else [])
    rw [if_pos hc]
    exact List.mem_singleton_self _
  | seq r s ihr ihs =>
    rintro w b t ⟨u, v, hu, hv, rfl⟩
    rw [List.append_assoc, after_append]
    have hfirst := ihr hr.1 u b (v ++ t) hu
    exact List.mem_flatMap.mpr ⟨_, hfirst, ihs hr.2 v _ t hv⟩
  | alt r s ihr ihs =>
    rintro w b t (hw | hw)
    · exact List.mem_append_left _ (ihr hr.1 w b t hw)
    · exact List.mem_append_right _ (ihs hr.2 w b t hw)
  | upTo n r ih =>
    rintro w b t ⟨us, hlength, hus, rfl⟩
    exact mem_greedy (ih hr) hus hlength b t
  | many r ih =>
    rintro w b t ⟨us, hus, rfl⟩
    refine mem_greedy (ih hr) hus ?_ b t
    have hlength := length_le_flatten fun u hu => (hus u hu).1
    show us.length ≤ (us.flatten ++ t).length
    rw [List.length_append]
    omega
  | boundary => exact hr.elim

/-! ### Characters that stop a match -/

/-- Every character of a match is in the class. -/
def Within (K : α → Prop) : Regex α → Prop
  | one p => ∀ c, p c = true → K c
  | seq r s | alt r s => r.Within K ∧ s.Within K
  | upTo _ r | many r => r.Within K
  | _ => True

/-- The same place in a longer text. -/
def extend (t : List α) (x : Place α) : Place α := ⟨x.afterWord, x.rest ++ t⟩

/-- More steps than there are characters change nothing. -/
theorem greedy_eq (step : Place α → List (Place α)) : ∀ (n m : Nat) (x : Place α),
    x.rest.length ≤ n → x.rest.length ≤ m → greedy step n x = greedy step m x := by
  intro n
  induction n with
  | zero =>
    intro m x hn _
    cases m with
    | zero => rfl
    | succ m =>
      have hnone : ((step x).filter fun y => y.rest.length < x.rest.length) = [] := by
        rw [List.filter_eq_nil_iff]
        intro y _ hy
        exact absurd (of_decide_eq_true hy) (by omega)
      rw [greedy, greedy, hnone]
      rfl
  | succ n ih =>
    intro m x hn hm
    cases m with
    | zero =>
      have hnone : ((step x).filter fun y => y.rest.length < x.rest.length) = [] := by
        rw [List.filter_eq_nil_iff]
        intro y _ hy
        exact absurd (of_decide_eq_true hy) (by omega)
      rw [greedy, greedy, hnone]
      rfl
    | succ m =>
      rw [greedy, greedy]
      congr 1
      apply List.flatMap_congr
      intro y hy
      have hshort := of_decide_eq_true (List.mem_filter.mp hy).2
      exact ih m y (by omega) (by omega)

theorem greedy_extend {step : Place α → List (Place α)} {t : List α}
    (hstep : ∀ x, step (extend t x) = (step x).map (extend t)) (n : Nat) :
    ∀ x, greedy step n (extend t x) = (greedy step n x).map (extend t) := by
  induction n with
  | zero => exact fun _ => rfl
  | succ n ih =>
    intro x
    have hfilter : ((step (extend t x)).filter fun y => y.rest.length < (extend t x).rest.length) =
        ((step x).filter fun y => y.rest.length < x.rest.length).map (extend t) := by
      rw [hstep, List.filter_map]
      congr 1
      apply List.filter_congr
      intro y _
      show decide ((y.rest ++ t).length < (x.rest ++ t).length) = _
      rw [List.length_append, List.length_append]
      exact decide_eq_decide.mpr (Nat.add_lt_add_iff_right)
    rw [greedy, greedy, hfilter, List.map_append, List.map_flatMap, List.flatMap_map]
    congr 1
    exact List.flatMap_congr fun y _ => ih y

variable {word : α → Bool} {K : α → Prop}

/-- **A character that no match can contain ends the text as far as matches are concerned.** -/
theorem ends_extend {c : α} (hc : ¬ K c) (hword : word c = false) (l : List α) (r : Regex α)
    (hr : r.Within K) : ∀ x, r.ends word (extend (c :: l) x) =
    (r.ends word x).map (extend (c :: l)) := by
  induction r with
  | empty => exact fun _ => rfl
  | one p =>
    rintro ⟨b, rest⟩
    cases rest with
    | nil =>
      have hp : p c = false := Bool.eq_false_iff.mpr fun hp => hc (hr c hp)
      show (if p c = true then _ else []) = _
      rw [hp]
      rfl
    | cons d rest =>
      show (if p d = true then [⟨word d, rest ++ c :: l⟩] else []) =
        (if p d = true then [⟨word d, rest⟩] else []).map (extend (c :: l))
      split <;> rfl
  | seq r s ihr ihs =>
    intro x
    rw [ends, ends, ihr hr.1, List.flatMap_map, List.map_flatMap]
    exact List.flatMap_congr fun y _ => ihs hr.2 y
  | alt r s ihr ihs =>
    intro x
    rw [ends, ends, ihr hr.1, ihs hr.2, List.map_append]
  | upTo n r ih => exact greedy_extend (ih hr) n
  | many r ih =>
    intro x
    show greedy _ (extend (c :: l) x).rest.length _ = (greedy _ x.rest.length x).map _
    rw [greedy_extend (ih hr)]
    have hlength : x.rest.length ≤ (extend (c :: l) x).rest.length := by
      show x.rest.length ≤ (x.rest ++ c :: l).length
      rw [List.length_append]
      omega
    rw [greedy_eq _ _ x.rest.length x hlength (Nat.le_refl _)]
  | boundary =>
    rintro ⟨b, rest⟩
    have hhead : (rest ++ c :: l).head?.any word = rest.head?.any word := by
      cases rest with
      | nil => exact hword
      | cons d rest => rfl
    show (if b = (rest ++ c :: l).head?.any word then [] else [_]) =
      (if b = rest.head?.any word then [] else [_]).map (extend (c :: l))
    rw [hhead]
    split <;> rfl

end Regex

/-! ### What is found in a text -/

/-- A character that is passed over, or a part that is found. -/
inductive Piece (α : Type)
  | plain (c : α)
  | found (w : List α)

namespace Piece

variable {α : Type}

def text : Piece α → List α
  | plain c => [c]
  | found w => w

/-- The piece after `f` was put for what is found. -/
def replaced (f : List α → List α) : Piece α → List α
  | plain c => [c]
  | found w => f w

end Piece

namespace Regex

variable {α : Type} (word : α → Bool) (find : Place α → Option (Place α))

/-- The piece at a place in front of a character, and the place behind it. -/
def next (b : Bool) (c : α) (l : List α) : Piece α × Place α :=
  match find ⟨b, c :: l⟩ with
  | some y =>
    if y.rest.length ≤ l.length then
      (.found ((c :: l).take (l.length + 1 - y.rest.length)), y)
    else (.plain c, ⟨word c, l⟩)
  | none => (.plain c, ⟨word c, l⟩)

/-- The pieces from a place on, so many at most. -/
def piecesFrom : Nat → Place α → List (Piece α)
  | 0, _ => []
  | n + 1, x =>
    match x.rest with
    | [] => []
    | c :: l =>
      let p := next word find x.afterWord c l
      p.1 :: piecesFrom n p.2

def pieces (x : Place α) : List (Piece α) := piecesFrom word find x.rest.length x

/-- `ReplaceAllStringFunc`. -/
def replaceAll (f : List α → List α) (text : List α) : List α :=
  (pieces word find ⟨false, text⟩).flatMap (Piece.replaced f)

variable {word find}

theorem length_next (b : Bool) (c : α) (l : List α) :
    (next word find b c l).2.rest.length ≤ l.length := by
  unfold next
  split
  · split
    · assumption
    · exact Nat.le_refl _
  · exact Nat.le_refl _

theorem piecesFrom_eq : ∀ (n m : Nat) (x : Place α), x.rest.length ≤ n → x.rest.length ≤ m →
    piecesFrom word find n x = piecesFrom word find m x := by
  intro n
  induction n with
  | zero =>
    rintro m ⟨b, rest⟩ hn _
    obtain rfl := List.eq_nil_of_length_eq_zero (Nat.le_zero.mp hn)
    cases m <;> rfl
  | succ n ih =>
    rintro m ⟨b, rest⟩ hn hm
    cases rest with
    | nil => cases m <;> rfl
    | cons c l =>
      cases m with
      | zero => exact absurd hm (Nat.not_succ_le_zero _)
      | succ m =>
        have hnext : (next word find b c l).2.rest.length ≤ l.length := length_next b c l
        have hn' : l.length ≤ n := Nat.le_of_succ_le_succ hn
        have hm' : l.length ≤ m := Nat.le_of_succ_le_succ hm
        exact congrArg (_ :: ·) (ih m _ (Nat.le_trans hnext hn') (Nat.le_trans hnext hm'))

/-- One piece after the other. -/
theorem pieces_cons (b : Bool) (c : α) (l : List α) :
    pieces word find ⟨b, c :: l⟩ =
      (next word find b c l).1 :: pieces word find (next word find b c l).2 :=
  congrArg (_ :: ·) (piecesFrom_eq _ _ _ (length_next b c l) (Nat.le_refl _))

/-! ### Texts that are cut in two -/

/-- No match goes past the character. -/
def Stops (find : Place α → Option (Place α)) (c : α) : Prop :=
  ∀ l x, find (extend (c :: l) x) = (find x).map (extend (c :: l))

theorem stops_first {K : α → Prop} {r : Regex α} (hr : r.Within K) {c : α} (hc : ¬ K c)
    (hword : word c = false) : Stops (first word r) c := by
  intro l x
  rw [first, first, ends_extend hc hword l r hr, List.head?_map]

theorem next_extend {c : α} (hstop : Stops find c) (b : Bool) (d : α) (l t : List α) :
    next word find b d (l ++ c :: t) =
      ((next word find b d l).1, extend (c :: t) (next word find b d l).2) := by
  have hfind : find ⟨b, d :: (l ++ c :: t)⟩ = (find ⟨b, d :: l⟩).map (extend (c :: t)) :=
    hstop t ⟨b, d :: l⟩
  unfold next
  rw [hfind]
  cases find ⟨b, d :: l⟩ with
  | none => rfl
  | some y =>
    have hlength : (y.rest ++ c :: t).length ≤ (l ++ c :: t).length ↔
        y.rest.length ≤ l.length := by
      rw [List.length_append, List.length_append]
      exact Nat.add_le_add_iff_right
    show (if (y.rest ++ c :: t).length ≤ (l ++ c :: t).length then
      ((.found ((d :: (l ++ c :: t)).take
        ((l ++ c :: t).length + 1 - (y.rest ++ c :: t).length)), extend (c :: t) y) :
          Piece α × Place α)
      else (.plain d, ⟨word d, l ++ c :: t⟩)) = _
    by_cases hle : y.rest.length ≤ l.length
    · have hcount : (l ++ c :: t).length + 1 - (y.rest ++ c :: t).length =
          l.length + 1 - y.rest.length := by
        rw [List.length_append, List.length_append]
        omega
      have htake : (d :: (l ++ c :: t)).take (l.length + 1 - y.rest.length) =
          (d :: l).take (l.length + 1 - y.rest.length) := by
        rw [← List.cons_append]
        exact List.take_append_of_le_length (Nat.sub_le _ _)
      rw [if_pos (hlength.mpr hle), hcount, htake]
      simp only [if_pos hle]
    · rw [if_neg fun h => hle (hlength.mp h)]
      simp only [if_neg hle]
      rfl

theorem pieces_stop {c : α} (hstop : Stops find c) (hword : word c = false) (t : List α) :
    ∀ (n : Nat) (b : Bool) (l : List α), l.length ≤ n →
    pieces word find ⟨b, l ++ c :: t⟩ =
      pieces word find ⟨b, l⟩ ++ .plain c :: pieces word find ⟨false, t⟩ := by
  intro n
  induction n with
  | zero =>
    intro b l hl
    obtain rfl := List.eq_nil_of_length_eq_zero (Nat.le_zero.mp hl)
    have hfind : find ⟨b, c :: t⟩ = (find ⟨b, []⟩).map (extend (c :: t)) := hstop t ⟨b, []⟩
    have hnext : next word find b c t = (.plain c, ⟨false, t⟩) := by
      rw [← hword]
      unfold next
      rw [hfind]
      cases find ⟨b, []⟩ with
      | none => rfl
      | some y =>
        have hlong : ¬ (y.rest ++ c :: t).length ≤ t.length := by
          rw [List.length_append, List.length_cons]
          omega
        exact if_neg hlong
    rw [List.nil_append, pieces_cons, hnext]
    rfl
  | succ n ih =>
    intro b l hl
    cases l with
    | nil => exact ih b [] (Nat.zero_le _)
    | cons d l =>
      have hshort : (next word find b d l).2.rest.length ≤ n :=
        Nat.le_trans (length_next b d l) (Nat.le_of_succ_le_succ hl)
      rw [List.cons_append, pieces_cons, pieces_cons, next_extend hstop]
      exact congrArg (_ :: ·) (ih _ (next word find b d l).2.rest hshort)

/-- **A character at which every match stops cuts the text in two.** -/
theorem replaceAll_stop {c : α} (hstop : Stops find c) (hword : word c = false)
    (f : List α → List α) (l t : List α) :
    replaceAll word find f (l ++ c :: t) =
      replaceAll word find f l ++ c :: replaceAll word find f t := by
  rw [replaceAll, pieces_stop hstop hword t l.length false l (Nat.le_refl _), List.flatMap_append,
    List.flatMap_cons]
  rfl

/-- A text without a match stays as it is. -/
theorem flatMap_of_none {text : List α} (h : ∀ b l, l <:+ text → find ⟨b, l⟩ = none)
    (f : List α → List α) (b : Bool) :
    (pieces word find ⟨b, text⟩).flatMap (Piece.replaced f) = text := by
  induction text generalizing b with
  | nil => rfl
  | cons c l ih =>
    have hnext : next word find b c l = (.plain c, ⟨word c, l⟩) := by
      unfold next
      rw [h b (c :: l) List.suffix_rfl]
    rw [pieces_cons, hnext, List.flatMap_cons,
      ih (fun b l' hl => h b l' (hl.trans (List.suffix_cons c l)))]
    rfl

theorem replaceAll_of_none {text : List α} (h : ∀ b l, l <:+ text → find ⟨b, l⟩ = none)
    (f : List α → List α) : replaceAll word find f text = text := flatMap_of_none h f false

/-- Something is put for each piece, so something is left. -/
theorem replaceAll_ne_nil {f : List α → List α} (hf : ∀ w, w ≠ [] → f w ≠ []) {text : List α}
    (h : text ≠ []) : replaceAll word find f text ≠ [] := by
  cases text with
  | nil => exact absurd rfl h
  | cons c l =>
    have hnext : (next word find false c l).1.replaced f ≠ [] := by
      unfold next
      split
      · split
        · apply hf
          rename_i y _ hy
          have hpos : 0 < l.length + 1 - y.rest.length := by omega
          rw [← List.length_pos_iff, List.length_take, List.length_cons]
          omega
        · exact List.cons_ne_nil _ _
      · exact List.cons_ne_nil _ _
    rw [replaceAll, pieces_cons, List.flatMap_cons]
    exact List.append_ne_nil_of_left_ne_nil hnext _

/-! ### The pieces of a text -/

/-- What is found goes from the place on, and is not empty. -/
def Forward (find : Place α → Option (Place α)) : Prop :=
  ∀ x y, find x = some y → ∃ w, w ≠ [] ∧ x.rest = w ++ y.rest

theorem pieces_plain {b : Bool} {c : α} {l : List α} (h : find ⟨b, c :: l⟩ = none) :
    pieces word find ⟨b, c :: l⟩ = .plain c :: pieces word find ⟨word c, l⟩ := by
  have hnext : next word find b c l = (.plain c, ⟨word c, l⟩) := by
    unfold next
    rw [h]
  rw [pieces_cons, hnext]

theorem pieces_found {b b' : Bool} {w t : List α} (hw : w ≠ [])
    (h : find ⟨b, w ++ t⟩ = some ⟨b', t⟩) :
    pieces word find ⟨b, w ++ t⟩ = .found w :: pieces word find ⟨b', t⟩ := by
  cases w with
  | nil => exact absurd rfl hw
  | cons c w =>
    have hcount : (w ++ t).length + 1 - t.length = (c :: w).length := by
      rw [List.length_append, List.length_cons]
      omega
    have hle : t.length ≤ (w ++ t).length := by
      rw [List.length_append]
      omega
    have hnext : next word find b c (w ++ t) = (.found (c :: w), ⟨b', t⟩) := by
      unfold next
      rw [← List.cons_append, h]
      show (if t.length ≤ (w ++ t).length then
        ((.found (((c :: w) ++ t).take ((w ++ t).length + 1 - t.length)), ⟨b', t⟩) :
          Piece α × Place α) else _) = _
      rw [if_pos hle, hcount, List.take_left]
    rw [List.cons_append, pieces_cons, hnext]

/-- **The first piece**, and what is behind it. -/
theorem pieces_eq_cons (hfind : Forward find) {x : Place α} {p : Piece α} {ps : List (Piece α)}
    (h : pieces word find x = p :: ps) :
    (∃ c l, x.rest = c :: l ∧ find x = none ∧ p = .plain c ∧
      ps = pieces word find ⟨word c, l⟩) ∨
    ∃ w y, w ≠ [] ∧ x.rest = w ++ y.rest ∧ find x = some y ∧ p = .found w ∧
      ps = pieces word find y := by
  obtain ⟨b, rest⟩ := x
  cases rest with
  | nil => exact nomatch h
  | cons c l =>
    cases hfound : find ⟨b, c :: l⟩ with
    | none =>
      rw [pieces_plain hfound] at h
      obtain ⟨rfl, rfl⟩ := List.cons.inj h
      exact Or.inl ⟨c, l, rfl, rfl, rfl, rfl⟩
    | some y =>
      obtain ⟨w, hw, hrest⟩ := hfind _ _ hfound
      change c :: l = w ++ y.rest at hrest
      rw [hrest] at h hfound
      rw [pieces_found hw hfound] at h
      obtain ⟨rfl, rfl⟩ := List.cons.inj h
      exact Or.inr ⟨w, y, hw, hrest, rfl, rfl, rfl⟩

/-- Flags that are not looked at change nothing. -/
theorem pieces_flag {b b' : Bool} {l : List α} (h : find ⟨b, l⟩ = find ⟨b', l⟩) :
    pieces word find ⟨b, l⟩ = pieces word find ⟨b', l⟩ := by
  cases l with
  | nil => rfl
  | cons c l =>
    have hnext : next word find b c l = next word find b' c l := by
      unfold next
      rw [h]
    rw [pieces_cons, pieces_cons, hnext]

/-- A text of a match and what has no match. -/
theorem replaceAll_of_found {w t : List α} (hw : w ≠ []) {b : Bool}
    (h : find ⟨false, w ++ t⟩ = some ⟨b, t⟩) (hnone : ∀ b l, l <:+ t → find ⟨b, l⟩ = none)
    (f : List α → List α) : replaceAll word find f (w ++ t) = f w ++ t := by
  rw [replaceAll, pieces_found hw h, List.flatMap_cons, flatMap_of_none hnone]
  rfl

/-- The pieces are all of the text. -/
theorem flatMap_text (hfind : Forward find) (l : List (Piece α)) :
    ∀ x : Place α, pieces word find x = l → l.flatMap Piece.text = x.rest := by
  induction l with
  | nil =>
    rintro ⟨b, rest⟩ hx
    cases rest with
    | nil => rfl
    | cons c l =>
      rw [pieces_cons] at hx
      exact nomatch hx
  | cons p l ih =>
    intro x hx
    rcases pieces_eq_cons hfind hx with ⟨c, t, hrest, -, rfl, hl⟩ | ⟨w, y, -, hrest, -, rfl, hl⟩
    · rw [List.flatMap_cons, ih _ hl.symm, hrest]
      rfl
    · rw [List.flatMap_cons, ih _ hl.symm, hrest]
      rfl

/-- Behind some of the pieces the text goes on with the others. -/
theorem pieces_append (hfind : Forward find) (l₂ : List (Piece α)) :
    ∀ (l₁ : List (Piece α)) (x : Place α), pieces word find x = l₁ ++ l₂ →
    ∃ b, pieces word find ⟨b, l₂.flatMap Piece.text⟩ = l₂ := by
  intro l₁
  induction l₁ with
  | nil =>
    intro x hx
    refine ⟨x.afterWord, ?_⟩
    rw [flatMap_text hfind l₂ x hx]
    exact hx
  | cons p l₁ ih =>
    intro x hx
    rcases pieces_eq_cons hfind hx with ⟨c, t, -, -, -, hl⟩ | ⟨w, y, -, -, -, -, hl⟩
    · exact ih _ hl.symm
    · exact ih _ hl.symm

end Regex
