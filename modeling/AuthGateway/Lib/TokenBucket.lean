import Mathlib.Algebra.BigOperators.Group.List.Basic
import Mathlib.Algebra.Order.BigOperators.Group.List
import Mathlib.Order.Bounds.Basic
import Mathlib.Tactic.Linarith
import Mathlib.Tactic.Ring
import AuthGateway.Lib.Runs

/-!
# The token bucket

A bucket holds at most `capacity` tokens and fills by `rate` in a unit of time.  A
request takes the tokens it wants when they are there, and none when they are
not.  The bucket is filled only when a request looks at it.

An interval that ends now leaves of `capacity` and of what flows in meanwhile what
was not granted in it.  **The tokens of the bucket are the least that any interval
leaves** (`Balanced.level`): so no interval has more granted than that, and a
request is refused only for an interval that leaves too little for it.
-/

namespace TokenBucket

variable {α : Type} [CommRing α] [LinearOrder α]

structure Bucket (α : Type) where
  tokens : α
  last : α

structure Request (α : Type) where
  time : α
  wanted : α

structure Answer (α : Type) extends Request α where
  granted : Bool

/-- What it takes. -/
def Answer.amount (a : Answer α) : α := if a.granted then a.wanted else 0

/-- The total granted in the interval from `s` to `t`. -/
def grantedIn (s t : α) (answers : List (Answer α)) : α :=
  ((answers.filter fun a => decide (s ≤ a.time ∧ a.time ≤ t)).map Answer.amount).sum

/-! ### A request -/

/-- The tokens at `now`; a new bucket is full. -/
def refilled (capacity rate : α) (bucket : Option (Bucket α)) (now : α) : α :=
  match bucket with
  | none => capacity
  | some b => min capacity (b.tokens + rate * (now - b.last))

def answer (capacity rate : α) (bucket : Option (Bucket α)) (r : Request α) : Answer α :=
  { r with granted := decide (r.wanted ≤ refilled capacity rate bucket r.time) }

/-- The bucket and the answers so far. -/
structure State (α : Type) where
  bucket : Option (Bucket α)
  answers : List (Answer α)

def State.fresh : State α := { bucket := none, answers := [] }

def step (capacity rate : α) (st : State α) (r : Request α) : State α :=
  let a := answer capacity rate st.bucket r
  { bucket := some ⟨refilled capacity rate st.bucket r.time - a.amount, r.time⟩
    answers := st.answers ++ [a] }

/-! ### What an interval leaves -/

/-- Of the capacity and what flows in from `s` on, what is not granted. -/
def leaves (capacity rate : α) (answers : List (Answer α)) (now s : α) : α :=
  capacity + rate * (now - s) - grantedIn s now answers

/-- **The least that an interval up to `now` leaves.** -/
def Level (capacity rate : α) (answers : List (Answer α)) (now x : α) : Prop :=
  IsLeast (leaves capacity rate answers now '' Set.Iic now) x

theorem level_of_le {capacity rate now x : α} {answers : List (Answer α)}
    (hall : ∀ s ≤ now, x ≤ leaves capacity rate answers now s)
    (hsome : ∃ s ≤ now, leaves capacity rate answers now s ≤ x) :
    Level capacity rate answers now x := by
  obtain ⟨s, hs, hle⟩ := hsome
  refine ⟨⟨s, hs, le_antisymm hle (hall s hs)⟩, ?_⟩
  rintro _ ⟨s', hs', rfl⟩
  exact hall s' hs'

theorem Level.le {capacity rate now x : α} {answers : List (Answer α)}
    (h : Level capacity rate answers now x) {s : α} (hs : s ≤ now) :
    x ≤ leaves capacity rate answers now s :=
  h.2 ⟨s, hs, rfl⟩

/-! ### Sums -/

@[simp]
theorem grantedIn_nil (s t : α) : grantedIn s t [] = 0 := rfl

theorem grantedIn_append (s t : α) (l l' : List (Answer α)) :
    grantedIn s t (l ++ l') = grantedIn s t l + grantedIn s t l' := by
  unfold grantedIn
  rw [List.filter_append, List.map_append, List.sum_append]

theorem grantedIn_single_in {s t : α} {a : Answer α} (hs : s ≤ a.time) (ht : a.time ≤ t) :
    grantedIn s t [a] = a.amount := by
  simp [grantedIn, hs, ht]

theorem grantedIn_single_late {s t : α} {a : Answer α} (ht : t < a.time) :
    grantedIn s t [a] = 0 := by
  simp [grantedIn, not_le.mpr ht]

/-- What comes later does not count. -/
theorem grantedIn_of_past {s t t' : α} {l : List (Answer α)} (hpast : ∀ a ∈ l, a.time ≤ t)
    (htt' : t ≤ t') : grantedIn s t' l = grantedIn s t l := by
  unfold grantedIn
  congr 2
  apply List.filter_congr
  intro a ha
  have hle := hpast a ha
  simp [hle, hle.trans htt']

theorem grantedIn_of_before {s t : α} {l : List (Answer α)} (hpast : ∀ a ∈ l, a.time < s) :
    grantedIn s t l = 0 := by
  have hnone : l.filter (fun a => decide (s ≤ a.time ∧ a.time ≤ t)) = [] := by
    rw [List.filter_eq_nil_iff]
    intro a ha
    simp [hpast a ha]
  unfold grantedIn
  rw [hnone]
  rfl

/-! ### A run -/

/-- **What holds after a run.** -/
structure Balanced (capacity rate : α) (st : State α) : Prop where
  fresh : st.bucket = none → st.answers = []
  wanted : ∀ a ∈ st.answers, 0 ≤ a.wanted
  past : ∀ b ∈ st.bucket, ∀ a ∈ st.answers, a.time ≤ b.last
  tokens : ∀ b ∈ st.bucket, 0 ≤ b.tokens ∧ b.tokens ≤ capacity
  level : ∀ b ∈ st.bucket, Level capacity rate st.answers b.last b.tokens
  bounded : ∀ s t, s ≤ t → grantedIn s t st.answers ≤ capacity + rate * (t - s)
  refused : ∀ earlier a later, st.answers = earlier ++ a :: later → a.granted = false →
    ∃ s ≤ a.time, leaves capacity rate earlier a.time s < a.wanted

/-- The request does not come before the bucket. -/
def InOrder (st : State α) (r : Request α) : Prop := ∀ b ∈ st.bucket, b.last ≤ r.time

theorem Balanced.answers_past {capacity rate : α} {st : State α} (h : Balanced capacity rate st)
    {r : Request α} (horder : InOrder st r) :
    ∀ a ∈ (step capacity rate st r).answers, a.time ≤ r.time := by
  intro a ha
  obtain hold | hnew := List.mem_append.mp ha
  · cases hbucket : st.bucket with
    | none =>
      rw [h.fresh hbucket] at hold
      exact nomatch hold
    | some b => exact (h.past b hbucket a hold).trans (horder b hbucket)
  · rw [List.mem_singleton.mp hnew]
    exact le_rfl

theorem inOrder_run {capacity rate : α} {requests : List (Request α)} {r : Request α}
    (h : ∀ r' ∈ requests, r'.time ≤ r.time) :
    InOrder (Runs.after (step capacity rate) State.fresh requests) r := by
  intro b hb
  rcases List.eq_nil_or_concat requests with rfl | ⟨earlier, r', rfl⟩
  · exact nomatch hb
  · rw [List.concat_eq_append, Runs.after_snoc] at hb
    cases hb
    exact h r' (by simp)

theorem answer_amount_mem {capacity rate : α} {bucket : Option (Bucket α)} {r : Request α}
    (hwanted : 0 ≤ r.wanted) (htokens : 0 ≤ refilled capacity rate bucket r.time) :
    0 ≤ (answer capacity rate bucket r).amount ∧
      (answer capacity rate bucket r).amount ≤ refilled capacity rate bucket r.time := by
  unfold Answer.amount answer
  split
  · next hgranted => exact ⟨hwanted, of_decide_eq_true hgranted⟩
  · exact ⟨le_rfl, htokens⟩

variable [IsStrictOrderedRing α]

theorem grantedIn_nonneg {s t : α} {l : List (Answer α)} (h : ∀ a ∈ l, 0 ≤ a.wanted) :
    0 ≤ grantedIn s t l := by
  unfold grantedIn
  apply List.sum_nonneg
  intro x hx
  obtain ⟨a, ha, rfl⟩ := List.mem_map.mp hx
  unfold Answer.amount
  split
  · exact h a (List.mem_of_mem_filter ha)
  · exact le_rfl

/-- A full bucket is what the interval leaves that begins now. -/
theorem level_capacity {capacity rate now : α} (hrate : 0 ≤ rate) :
    Level capacity rate [] now capacity := by
  apply level_of_le
  · intro s hs
    have hflow : 0 ≤ rate * (now - s) := mul_nonneg hrate (sub_nonneg.mpr hs)
    simp only [leaves, grantedIn_nil]
    linarith
  · exact ⟨now, le_rfl, by simp [leaves]⟩

/-- **Filling keeps the level.** -/
theorem Level.refill {capacity rate last now tokens : α} {answers : List (Answer α)}
    (h : Level capacity rate answers last tokens) (hrate : 0 ≤ rate) (hlast : last ≤ now)
    (hpast : ∀ a ∈ answers, a.time ≤ last) (hwanted : ∀ a ∈ answers, 0 ≤ a.wanted) :
    Level capacity rate answers now (min capacity (tokens + rate * (now - last))) := by
  have hkept (s : α) : leaves capacity rate answers now s
      = leaves capacity rate answers last s + rate * (now - last) := by
    unfold leaves
    rw [grantedIn_of_past hpast hlast]
    ring
  apply level_of_le
  · intro s hs
    obtain hbefore | hafter := le_or_gt s last
    · rw [hkept]
      have hle := h.le hbefore
      exact (min_le_right _ _).trans (by linarith)
    · have hnone : grantedIn s now answers = 0 :=
        grantedIn_of_before fun a ha => (hpast a ha).trans_lt hafter
      have hflow : 0 ≤ rate * (now - s) := mul_nonneg hrate (sub_nonneg.mpr hs)
      unfold leaves
      rw [hnone]
      exact (min_le_left _ _).trans (by linarith)
  · obtain hfull | hpart := le_total capacity (tokens + rate * (now - last))
    · refine ⟨now, le_rfl, ?_⟩
      have hnonneg := grantedIn_nonneg (s := now) (t := now) hwanted
      rw [min_eq_left hfull]
      simp only [leaves, sub_self, mul_zero]
      linarith
    · obtain ⟨s, hs, heq⟩ := h.1
      refine ⟨s, le_trans hs hlast, ?_⟩
      rw [min_eq_right hpart, hkept, heq]

/-- What is taken is taken from what every interval leaves. -/
theorem Level.take {capacity rate x : α} {answers : List (Answer α)} {a : Answer α}
    (h : Level capacity rate answers a.time x) :
    Level capacity rate (answers ++ [a]) a.time (x - a.amount) := by
  have hkept {s : α} (hs : s ≤ a.time) : leaves capacity rate (answers ++ [a]) a.time s
      = leaves capacity rate answers a.time s - a.amount := by
    unfold leaves
    rw [grantedIn_append, grantedIn_single_in hs le_rfl]
    ring
  apply level_of_le
  · intro s hs
    rw [hkept hs]
    exact sub_le_sub_right (h.le hs) _
  · obtain ⟨s, hs, heq⟩ := h.1
    exact ⟨s, hs, by rw [hkept hs, heq]⟩

theorem balanced_fresh {capacity rate : α} (hcapacity : 0 ≤ capacity) (hrate : 0 ≤ rate) :
    Balanced capacity rate State.fresh where
  fresh _ := rfl
  wanted a ha := nomatch ha
  past b hb := nomatch hb
  tokens b hb := nomatch hb
  level b hb := nomatch hb
  bounded s t hst := add_nonneg hcapacity (mul_nonneg hrate (sub_nonneg.mpr hst))
  refused earlier a later h := by simp [State.fresh] at h

theorem Balanced.refilled {capacity rate : α} {st : State α} (h : Balanced capacity rate st)
    (hrate : 0 ≤ rate) {r : Request α} (horder : InOrder st r) :
    Level capacity rate st.answers r.time (refilled capacity rate st.bucket r.time) := by
  cases hbucket : st.bucket with
  | none =>
    rw [h.fresh hbucket]
    exact level_capacity hrate
  | some b =>
    exact (h.level b hbucket).refill hrate (horder b hbucket) (h.past b hbucket) h.wanted

theorem Balanced.refilled_mem {capacity rate : α} {st : State α} (h : Balanced capacity rate st)
    (hcapacity : 0 ≤ capacity) (hrate : 0 ≤ rate) {r : Request α} (horder : InOrder st r) :
    0 ≤ TokenBucket.refilled capacity rate st.bucket r.time ∧
      TokenBucket.refilled capacity rate st.bucket r.time ≤ capacity := by
  cases hbucket : st.bucket with
  | none => exact ⟨hcapacity, le_rfl⟩
  | some b =>
    have hflow : 0 ≤ rate * (r.time - b.last) :=
      mul_nonneg hrate (sub_nonneg.mpr (horder b hbucket))
    have htokens := (h.tokens b hbucket).1
    exact ⟨le_min hcapacity (by linarith), min_le_left _ _⟩

/-- Nothing comes after the last answer, so no interval holds more than the level allows. -/
theorem grantedIn_le_of_level {capacity rate now x : α} {answers : List (Answer α)}
    (hlevel : Level capacity rate answers now x) (hx : 0 ≤ x) (hcapacity : 0 ≤ capacity)
    (hrate : 0 ≤ rate) (hpast : ∀ a ∈ answers, a.time ≤ now) {s t : α} (hst : s ≤ t)
    (hnow : now ≤ t) : grantedIn s t answers ≤ capacity + rate * (t - s) := by
  obtain hin | hout := le_or_gt s now
  · have hle := hlevel.le hin
    have hflow : 0 ≤ rate * (t - now) := mul_nonneg hrate (sub_nonneg.mpr hnow)
    have hsplit : rate * (t - s) = rate * (now - s) + rate * (t - now) := by ring
    unfold leaves at hle
    rw [grantedIn_of_past hpast hnow, hsplit]
    linarith
  · rw [grantedIn_of_before fun a ha => (hpast a ha).trans_lt hout]
    exact add_nonneg hcapacity (mul_nonneg hrate (sub_nonneg.mpr hst))

/-- **A request keeps the balance.** -/
theorem Balanced.step {capacity rate : α} {st : State α} (h : Balanced capacity rate st)
    (hcapacity : 0 ≤ capacity) (hrate : 0 ≤ rate) {r : Request α} (hwanted : 0 ≤ r.wanted)
    (horder : InOrder st r) : Balanced capacity rate (step capacity rate st r) := by
  have hlevel := h.refilled hrate horder
  have hmem := h.refilled_mem hcapacity hrate horder
  have hamount := answer_amount_mem hwanted hmem.1
  have hafter : Level capacity rate (TokenBucket.step capacity rate st r).answers r.time
      (TokenBucket.refilled capacity rate st.bucket r.time
        - (answer capacity rate st.bucket r).amount) := Level.take hlevel
  exact {
    fresh := fun hnone => nomatch hnone
    wanted := by
      intro a ha
      obtain hold | hnew := List.mem_append.mp ha
      · exact h.wanted a hold
      · rw [List.mem_singleton.mp hnew]
        exact hwanted
    past := by
      rintro b ⟨⟩
      exact h.answers_past horder
    tokens := by
      rintro b ⟨⟩
      exact ⟨sub_nonneg.mpr hamount.2, (sub_le_self _ hamount.1).trans hmem.2⟩
    level := by
      rintro b ⟨⟩
      exact hafter
    bounded := by
      intro s t hst
      obtain hlate | hnow := lt_or_ge t r.time
      · show grantedIn s t (st.answers ++ [answer capacity rate st.bucket r]) ≤ _
        rw [grantedIn_append, grantedIn_single_late hlate, add_zero]
        exact h.bounded s t hst
      · exact grantedIn_le_of_level hafter (sub_nonneg.mpr hamount.2) hcapacity hrate
          (h.answers_past horder) hst hnow
    refused := by
      intro earlier a later heq hrefused
      obtain ⟨rfl, rfl, rfl⟩ | ⟨later', rfl, hold⟩ := Runs.eq_snoc_split heq
      · obtain ⟨s, hs, hleast⟩ := hlevel.1
        have hshort : ¬ r.wanted ≤ TokenBucket.refilled capacity rate st.bucket r.time :=
          of_decide_eq_false hrefused
        exact ⟨s, hs, lt_of_eq_of_lt hleast (not_le.mp hshort)⟩
      · exact h.refused earlier a later' hold hrefused }

/-- **After a run of requests in order the bucket is balanced.** -/
theorem balanced_run {capacity rate : α} (hcapacity : 0 ≤ capacity) (hrate : 0 ≤ rate)
    (requests : List (Request α)) (hwanted : ∀ r ∈ requests, 0 ≤ r.wanted)
    (horder : requests.Pairwise fun r r' => r.time ≤ r'.time) :
    Balanced capacity rate (Runs.after (step capacity rate) State.fresh requests) := by
  induction requests using List.reverseRecOn with
  | nil => exact balanced_fresh hcapacity hrate
  | append_singleton earlier r ih =>
    obtain ⟨hearlier, -, hlast⟩ := List.pairwise_append.mp horder
    rw [Runs.after_snoc]
    have hbalanced := ih (fun r' hr' => hwanted r' (List.mem_append_left _ hr')) hearlier
    exact hbalanced.step hcapacity hrate (hwanted r (by simp))
      (inOrder_run fun r' hr' => hlast r' hr' r (by simp))

end TokenBucket
