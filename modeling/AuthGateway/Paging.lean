import AuthGateway.Controller.UserList

/-!
# Pages of a list

What a request asks for is read off its four parameters: the page is the value
that `Atoi` gives for `p`, and the size is the first that is not zero of
`page_size`, `ps`, `size` and the default.  Nothing negative is turned down, and
a page may lie beyond the numbers of the machine.  **A request for neither is
answered with one window of at most a hundred** (`bounded_iff`), and the windows of
the pages tile the table.
-/

namespace AuthGateway.Paging

open Common Model Controller GoString

/-! ### What is asked for -/

def requestedPage (q : PageQuery) : Int := (atoi q.p).1

/-- The first that is not zero; of `page_size` the value counts only without an error. -/
def requestedSize (q : PageQuery) : Int :=
  ([queryInt q.pageSize, (atoi q.ps).1, (atoi q.size).1].find? (· ≠ 0)).getD itemsPerPage

theorem queryInt_eq (s : String) : queryInt s = (atoi s).1 ∨ queryInt s = 0 := by
  unfold queryInt
  rcases atoi s with ⟨n, _ | e⟩
  · exact Or.inl rfl
  · exact Or.inr rfl

theorem getPageQuery_page (q : PageQuery) :
    (getPageQuery q).page = if requestedPage q = 0 then 1 else requestedPage q := by
  have hvalue := queryInt_eq q.p
  show (if queryInt q.p < 1 then if (atoi q.p).1 ≠ 0 then (atoi q.p).1 else 1 else queryInt q.p)
    = _
  unfold requestedPage
  split_ifs <;> omega

theorem getPageQuery_pageSize (q : PageQuery) :
    (getPageQuery q).pageSize = min (requestedSize q) 100 := by
  have hclamp (n : Int) : (if 100 < n then 100 else n) = min n 100 := by
    split_ifs <;> omega
  have hfirst (a b c : Int) :
      (if (if (if a = 0 then b else a) = 0 then c else if a = 0 then b else a) = 0 then itemsPerPage
        else if (if a = 0 then b else a) = 0 then c else if a = 0 then b else a)
      = ([a, b, c].find? (· ≠ 0)).getD itemsPerPage := by
    by_cases ha : a = 0 <;> by_cases hb : b = 0 <;> by_cases hc : c = 0 <;> simp [ha, hb, hc]
  exact (hclamp _).trans (congrArg (fun n => min n 100) (hfirst _ _ _))

/-! ### Numbers of the machine -/

theorem wrap64_eq_self_iff {x : Int} : wrap64 x = x ↔ -2 ^ 63 ≤ x ∧ x < 2 ^ 63 := by
  have hmod : wrap64 x = x.bmod 18446744073709551616 := rfl
  rw [hmod, Int.bmod_def]
  omega

/-- `Atoi` gives a number of the machine, with an error or without. -/
theorem atoi_range (s : String) : -2 ^ 63 ≤ (atoi s).1 ∧ (atoi s).1 < 2 ^ 63 := by
  have hsigned (neg : Bool) (r : Except NumError Nat) :
      -2 ^ 63 ≤ (signed neg r).1 ∧ (signed neg r).1 < 2 ^ 63 := by
    unfold signed
    split
    · decide
    · cases neg <;> decide
    · split_ifs <;> constructor <;> simp only <;> omega
  exact hsigned _ _

theorem page_lt (q : PageQuery) : (getPageQuery q).page < 2 ^ 63 := by
  have hrange := atoi_range q.p
  rw [getPageQuery_page]
  unfold requestedPage
  split_ifs <;> omega

/-! ### Windows -/

/-- Its first index is a number of the machine. -/
def Fits (info : PageInfo) : Prop := (info.page - 1) * info.pageSize < 2 ^ 63

/-- The index is in the window of the page. -/
def Covers (info : PageInfo) (i : Int) : Prop :=
  info.getStartIdx ≤ i ∧ i < info.getStartIdx + info.pageSize

theorem getStartIdx_eq_iff {info : PageInfo} (hpage : 1 ≤ info.page) (hlt : info.page < 2 ^ 63)
    (hsize : 1 ≤ info.pageSize) :
    info.getStartIdx = (info.page - 1) * info.pageSize ↔ Fits info := by
  have hbefore : wrap64 (info.page - 1) = info.page - 1 :=
    wrap64_eq_self_iff.mpr ⟨by omega, by omega⟩
  have hnonneg : 0 ≤ (info.page - 1) * info.pageSize :=
    mul_nonneg (by omega) (by omega)
  unfold PageInfo.getStartIdx Fits
  rw [hbefore, wrap64_eq_self_iff]
  constructor
  · exact And.right
  · exact fun h => ⟨by omega, h⟩

/-- A window is the indices that the size divides by the page before. -/
theorem covers_iff {info : PageInfo} (hsize : 1 ≤ info.pageSize)
    (hstart : info.getStartIdx = (info.page - 1) * info.pageSize) {i : Int} :
    Covers info i ↔ info.page - 1 = i / info.pageSize := by
  unfold Covers
  rw [hstart, eq_comm, Int.ediv_eq_iff_of_pos (by omega)]

/-- **The windows of the pages tile the table**: each index is in one. -/
theorem tiles {size : Int} (hsize : 1 ≤ size) {i : Int} (hi : 0 ≤ i) (hlt : i < 2 ^ 63 - 1) :
    ∃! page, (1 ≤ page ∧ page < 2 ^ 63 ∧ Fits ⟨page, size⟩) ∧ Covers ⟨page, size⟩ i := by
  have hdiv : i / size ≤ i := Int.ediv_le_self _ hi
  have hnonneg : 0 ≤ i / size := Int.ediv_nonneg hi (by omega)
  have hfits : Fits ⟨i / size + 1, size⟩ := by
    show (i / size + 1 - 1) * size < 2 ^ 63
    have hle : i / size * size ≤ i := Int.ediv_mul_le i (by omega)
    rw [Int.add_sub_cancel]
    omega
  have hpage : 1 ≤ i / size + 1 ∧ i / size + 1 < 2 ^ 63 := by omega
  refine ⟨i / size + 1, ⟨⟨hpage.1, hpage.2, hfits⟩, ?_⟩, ?_⟩
  · rw [covers_iff hsize ((getStartIdx_eq_iff hpage.1 hpage.2 hsize).mpr hfits)]
    exact Int.add_sub_cancel _ _
  · rintro page ⟨⟨hpos, hmax, hfit⟩, hcovers⟩
    have hstart := (getStartIdx_eq_iff hpos hmax hsize).mpr hfit
    have heq : page - 1 = i / size := (covers_iff hsize hstart).mp hcovers
    omega

/-! ### A request -/

/-- **The paging of a request is bounded.** -/
structure Bounded (q : PageQuery) : Prop where
  page_pos : 1 ≤ (getPageQuery q).page
  size : 1 ≤ (getPageQuery q).pageSize ∧ (getPageQuery q).pageSize ≤ 100
  start_exact : (getPageQuery q).getStartIdx
    = ((getPageQuery q).page - 1) * (getPageQuery q).pageSize
  start_nonneg : 0 ≤ (getPageQuery q).getStartIdx
  /-- With this page size the windows of the pages tile the table. -/
  tiles : ∀ i, 0 ≤ i → i < 2 ^ 63 - 1 → ∃! page,
    (1 ≤ page ∧ page < 2 ^ 63 ∧ Fits ⟨page, (getPageQuery q).pageSize⟩) ∧
      Covers ⟨page, (getPageQuery q).pageSize⟩ i
  /-- Whatever users there are, at most a hundred are read. -/
  users : ∀ (db db' : DB) (users : List User) (total : Int),
    exec (.userPage (fun _ => true) (getPageQuery q).pageSize (getPageQuery q).getStartIdx) db
      = (.ok (users, total), db') → users.length ≤ 100

theorem length_page_le {R : Type} {limit offset : Int} {rows : List R} (hlimit : 0 ≤ limit)
    (hle : limit ≤ 100) : (page limit offset rows).length ≤ 100 := by
  unfold page
  rw [if_neg (by omega), List.length_take]
  omega

/-- **A request is bounded exactly when it asks for no negative page, no negative size, and no
page whose first index is past the numbers of the machine.** -/
theorem bounded_iff (q : PageQuery) : Bounded q ↔ 0 ≤ requestedPage q ∧ 0 < requestedSize q ∧
    (requestedPage q - 1) * min (requestedSize q) 100 < 2 ^ 63 := by
  have hpage := getPageQuery_page q
  have hsize := getPageQuery_pageSize q
  have hlt := page_lt q
  constructor
  · intro h
    have hpos := h.page_pos
    have hfits := (getStartIdx_eq_iff hpos hlt h.size.1).mp h.start_exact
    have hsizepos := h.size.1
    rw [hpage] at hpos
    rw [hsize] at hsizepos
    have hrequested : 0 ≤ requestedPage q := by
      split_ifs at hpos <;> omega
    refine ⟨hrequested, by omega, ?_⟩
    unfold Fits at hfits
    rw [hpage, hsize] at hfits
    split_ifs at hfits with hzero
    · rw [hzero]
      omega
    · exact hfits
  · rintro ⟨hrequested, hpositive, hfit⟩
    have hpos : 1 ≤ (getPageQuery q).page := by
      rw [hpage]
      split_ifs <;> omega
    have hbounds : 1 ≤ (getPageQuery q).pageSize ∧ (getPageQuery q).pageSize ≤ 100 := by
      rw [hsize]
      omega
    have hfits : Fits (getPageQuery q) := by
      unfold Fits
      rw [hpage, hsize]
      split_ifs
      · omega
      · exact hfit
    have hstart := (getStartIdx_eq_iff hpos hlt hbounds.1).mpr hfits
    exact {
      page_pos := hpos
      size := hbounds
      start_exact := hstart
      start_nonneg := by
        rw [hstart]
        exact mul_nonneg (by omega) (by omega)
      tiles := fun i hi hmax => Paging.tiles hbounds.1 hi hmax
      users := by
        rintro db db' users total h
        obtain ⟨hanswer, -⟩ := Prod.mk.inj h
        obtain ⟨rfl, -⟩ := Prod.mk.inj (Except.ok.inj hanswer)
        exact length_page_le (by omega) hbounds.2 }

/-- **A negative page, a negative size and a page far away**: `p=-1` is page -1, `page_size=-1`
is no limit, and page 2^62 of four begins at -4. -/
theorem paging_unbounded :
    ¬ Bounded { p := "-1" } ∧ ¬ Bounded { pageSize := "-1" } ∧
      ¬ Bounded { p := "4611686018427387904", pageSize := "4" } := by
  refine ⟨?_, ?_, ?_⟩
  · intro h
    exact absurd h.page_pos (by decide +kernel)
  · intro h
    exact absurd h.size.1 (by decide +kernel)
  · intro h
    exact absurd h.start_nonneg (by decide +kernel)

end AuthGateway.Paging
