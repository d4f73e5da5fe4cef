import AuthGateway.Common.RateLimit
import AuthGateway.Lib.Runs
import AuthGateway.Lib.SlidingWindow

/-!
# The rate limiter in memory is the sliding window

A run is what happens to one `InMemoryRateLimiter`: requests, and the rounds of
`clearExpiredItems` between them, at clock readings that do not go back.

`request_iff`: a request passes exactly when fewer than `maxRequestNum` of the
requests of its key that passed before it are younger than `duration`.  The
queue of a key is enough to know that because it is the newest of them, and a
round drops it only when all of them are out of every window to come
(`remembers_accepted`).
-/

namespace AuthGateway.RateLimit

open Common SlidingWindow

inductive Act
  | request (key : String) (maxRequestNum : Nat) (duration now : Int)
  | sweep (now : Int)

/-- The clock when it happens. -/
@[simp] def Act.now : Act → Int
  | request _ _ _ now => now
  | sweep now => now

/-- The limiter after one act. -/
def step (l : InMemoryRateLimiter) : Act → InMemoryRateLimiter
  | .request key maxRequestNum duration now => (l.request key maxRequestNum duration now).2
  | .sweep now => l.clearExpiredItems now

/-- The reading in seconds of a request of the key that passes. -/
def granted (key : String) (l : InMemoryRateLimiter) : Act → List Int
  | .request key' maxRequestNum duration now =>
    if key' = key ∧ (l.request key' maxRequestNum duration now).1 = true then [unix now] else []
  | .sweep _ => []

/-- **The requests of the key that passed**, by their readings in seconds. -/
def accepted (key : String) (l : InMemoryRateLimiter) : List Act → List Int
  | [] => []
  | a :: acts => granted key l a ++ accepted key (step l a) acts

theorem accepted_snoc (key : String) (l : InMemoryRateLimiter) (acts : List Act) (a : Act) :
    accepted key l (acts ++ [a])
      = accepted key l acts ++ granted key (Runs.after step l acts) a := by
  induction acts generalizing l with
  | nil => simp [accepted]
  | cons b acts ih =>
    have hafter : Runs.after step l (b :: acts) = Runs.after step (step l b) acts := rfl
    rw [List.cons_append, accepted, accepted, ih, List.append_assoc, hafter]

/-- **The calls as they are meant**: the clock does not go back, and a request
of the key comes with its `maxRequestNum` and with a duration that the limiter
keeps entries for. -/
structure Proper (expirationDuration : Int) (key : String) (n : Nat) (acts : List Act) : Prop where
  inOrder : acts.Pairwise fun a b => a.now ≤ b.now
  limits : ∀ m duration now, .request key m duration now ∈ acts →
    m = n ∧ 0 ≤ duration ∧ duration ≤ expirationDuration.tdiv second

variable {expirationDuration : Int} {key : String} {n : Nat} {acts : List Act}

theorem Proper.of_snoc {a : Act} (h : Proper expirationDuration key n (acts ++ [a])) :
    Proper expirationDuration key n acts :=
  ⟨(List.pairwise_append.mp h.inOrder).1, fun m d t hm => h.limits m d t (by simp [hm])⟩

theorem Proper.le_last {a b : Act} (h : Proper expirationDuration key n (acts ++ [a]))
    (hb : b ∈ acts) : b.now ≤ a.now :=
  (List.pairwise_append.mp h.inOrder).2.2 b hb a (by simp)

/-- The limiter as `Init` leaves it. -/
abbrev start (expirationDuration : Int) : InMemoryRateLimiter :=
  { expirationDuration := expirationDuration }

theorem expirationSeconds_after (expirationDuration : Int) (acts : List Act) :
    (Runs.after step (start expirationDuration) acts).expirationSeconds
      = expirationDuration.tdiv second := by
  have hstep : ∀ (l : InMemoryRateLimiter) (a : Act),
      l.expirationSeconds = expirationDuration.tdiv second →
        (step l a).expirationSeconds = expirationDuration.tdiv second := by
    intro l a hl
    cases a with
    | request key m duration now => simpa [step] using hl
    | sweep now => simpa [step] using hl
  exact Runs.invariant
    (I := fun l : InMemoryRateLimiter => l.expirationSeconds = expirationDuration.tdiv second) rfl
    hstep acts

/-- No request that passed is later than the clock. -/
theorem accepted_le (key : String) (l : InMemoryRateLimiter) {now : Int} (h : ∀ a ∈ acts, a.now ≤ now) :
    ∀ t ∈ accepted key l acts, t ≤ unix now := by
  induction acts generalizing l with
  | nil => simp [accepted]
  | cons a acts ih =>
    intro t ht
    rw [accepted, List.mem_append] at ht
    rcases ht with ht | ht
    · cases a with
      | request key' m duration at' =>
        have hle : at' ≤ now := h _ List.mem_cons_self
        simp only [granted] at ht
        split at ht
        · rw [List.mem_singleton.mp ht]
          exact unix_mono hle
        · simp at ht
      | sweep at' => simp [granted] at ht
    · exact ih _ (fun b hb => h b (List.mem_cons_of_mem _ hb)) t ht

/-! ### The invariant -/

section Request

variable {l : InMemoryRateLimiter} {times : List Int} {duration now cutoff : Int}

/-- **A request decides by the window**, and remembers that it passed. -/
theorem request_passes (hn : 1 ≤ n) (hduration : cutoff ≤ unix now - duration)
    (hnow : ∀ t ∈ times, t ≤ unix now) (h : Remembers n cutoff times (l.times key)) :
    ((l.request key n duration now).1 = true ↔ Passes n duration (unix now) times) ∧
      Remembers n cutoff
        (times ++ if (l.request key n duration now).1 = true then [unix now] else [])
        ((l.request key n duration now).2.times key) := by
  have hwindow : Passes n duration (unix now) times ↔ _ := passes_iff (h.later hduration)
  unfold InMemoryRateLimiter.request
  cases hstore : l.store key with
  | none =>
    rw [InMemoryRateLimiter.times_of_no_store hstore] at h hwindow
    have hshort : ([] : List Int).length < n := hn
    refine ⟨?_, ?_⟩
    · simp only [true_iff]
      exact hwindow.mpr (Or.inl hshort)
    · simpa [InMemoryRateLimiter.times_put] using h.append hnow hshort
  | some queue =>
    rw [InMemoryRateLimiter.times_of_store hstore] at h hwindow
    by_cases hshort : queue.times.length < n
    · simp only [hshort, if_true]
      refine ⟨?_, ?_⟩
      · simp only [true_iff]
        exact hwindow.mpr (Or.inl hshort)
      · simpa [InMemoryRateLimiter.times_put] using h.append hnow hshort
    · have hfull : queue.times.length = n := le_antisymm h.length (not_lt.mp hshort)
      have holdest : Passes n duration (unix now) times ↔ duration ≤ unix now - queue.oldest := by
        rw [queue.times_eq] at h hfull
        exact passes_iff_of_full (h.later hduration) hfull
      by_cases hlate : duration ≤ unix now - queue.oldest
      · simp only [hshort, hlate, if_true, if_false]
        refine ⟨?_, ?_⟩
        · simp only [true_iff]
          exact holdest.mpr hlate
        · rw [queue.times_eq] at h hfull
          simpa [InMemoryRateLimiter.times_put] using h.shift hnow hfull
      · simp only [hshort, hlate, if_false, Bool.false_eq_true, List.append_nil]
        refine ⟨?_, ?_⟩
        · simp only [false_iff]
          exact fun hpasses => hlate (holdest.mp hpasses)
        · rw [InMemoryRateLimiter.times_of_store hstore]
          exact h

end Request

/-- **The queue of a key is the newest of what passed**, and has forgotten only
what has expired. -/
theorem remembers_accepted (hn : 1 ≤ n) (h : Proper expirationDuration key n acts) {now : Int}
    (hnow : ∀ a ∈ acts, a.now ≤ now) :
    Remembers n (unix now - expirationDuration.tdiv second)
      (accepted key (start expirationDuration) acts)
      ((Runs.after step (start expirationDuration) acts).times key) := by
  induction acts using List.reverseRecOn generalizing now with
  | nil => exact remembers_nil
  | append_singleton acts a ih =>
    have hbefore : ∀ b ∈ acts, b.now ≤ a.now := fun b hb => h.le_last hb
    have hclock : unix a.now ≤ unix now := unix_mono (hnow a (by simp))
    have hold := accepted_le key (start expirationDuration) hbefore
    have hremembers := ih h.of_snoc hbefore
    have hseconds := expirationSeconds_after expirationDuration acts
    rw [accepted_snoc, Runs.after_snoc]
    refine Remembers.later ?_ (Int.sub_le_sub_right hclock _)
    cases a with
    | request key' m duration at' =>
      by_cases hkey : key' = key
      · subst hkey
        obtain ⟨rfl, -, hle⟩ := h.limits m duration at' (by simp)
        have hcutoff : unix at' - expirationDuration.tdiv second ≤ unix at' - duration := by
          omega
        have hrequest := (request_passes hn hcutoff hold hremembers).2
        simpa [granted, step] using hrequest
      · have hsame := InMemoryRateLimiter.times_request_of_ne
          (Runs.after step (start expirationDuration) acts) m duration at' (Ne.symm hkey)
        simpa [granted, step, hkey, hsame] using hremembers
    | sweep at' =>
      simp only [granted, List.append_nil, step]
      have hround := InMemoryRateLimiter.times_clearExpiredItems
        (Runs.after step (start expirationDuration) acts) key at'
      rcases hround with hkept | ⟨hgone, newest, hlast, hexpired⟩
      · rw [hkept]
        exact hremembers
      · rw [hgone]
        apply hremembers.drop
        intro t ht
        have hnewest : t ≤ newest := hremembers.le_last hlast t ht
        rw [hseconds] at hexpired
        simp only [Act.now]
        omega

/-- **What passed kept to the window**, when all requests of the key have one. -/
theorem accepted_passes (hn : 1 ≤ n) (h : Proper expirationDuration key n acts) {window : Int}
    (hwindow : ∀ m duration now, .request key m duration now ∈ acts → duration = window) :
    Runs.Always (fun before t => Passes n window t before)
      (accepted key (start expirationDuration) acts) := by
  induction acts using List.reverseRecOn with
  | nil => exact Runs.always_nil
  | append_singleton acts a ih =>
    have hbefore : ∀ b ∈ acts, b.now ≤ a.now := fun b hb => h.le_last hb
    have hpassed := ih h.of_snoc fun m duration now hm =>
      hwindow m duration now (List.mem_append_left _ hm)
    rw [accepted_snoc]
    cases a with
    | sweep at' =>
      simp only [granted, List.append_nil]
      exact hpassed
    | request key' m duration at' =>
      by_cases hgranted : key' = key ∧
          ((Runs.after step (start expirationDuration) acts).request key' m duration at').1 = true
      · obtain ⟨rfl, hpass⟩ := hgranted
        obtain ⟨rfl, -, hle⟩ := h.limits m duration at' (by simp)
        obtain rfl : duration = window := hwindow m duration at' (by simp)
        have hcutoff : unix at' - expirationDuration.tdiv second ≤ unix at' - duration := by omega
        have hiff := (request_passes hn hcutoff (accepted_le key' _ hbefore)
          (remembers_accepted hn h.of_snoc hbefore)).1
        simp only [granted, hpass, and_self, if_true]
        exact Runs.always_snoc.mpr ⟨hpassed, hiff.mp hpass⟩
      · simp only [granted, if_neg hgranted, List.append_nil]
        exact hpassed

/-- **A request passes exactly when fewer than `maxRequestNum` of the requests of
its key that passed before it are in its window.** -/
theorem request_iff {expirationDuration : Int} {key : String} {maxRequestNum : Nat}
    (hmax : 1 ≤ maxRequestNum) {acts : List Act} {duration now : Int}
    (h : Proper expirationDuration key maxRequestNum
      (acts ++ [.request key maxRequestNum duration now])) :
    ((Runs.after step (start expirationDuration) acts).request key maxRequestNum duration now).1 = true ↔
      ((accepted key (start expirationDuration) acts).filter
        fun t => decide (unix now - duration < t)).length < maxRequestNum := by
  have hbefore : ∀ a ∈ acts, a.now ≤ now := fun a ha => h.le_last ha
  obtain ⟨-, -, hle⟩ := h.limits maxRequestNum duration now (by simp)
  have hcutoff : unix now - expirationDuration.tdiv second ≤ unix now - duration := by omega
  have hremembers := remembers_accepted hmax h.of_snoc hbefore
  rw [(request_passes hmax hcutoff (accepted_le key _ hbefore) hremembers).1, Passes, recent,
    List.countP_eq_length_filter]

/-- Two requests a minute: at `0` and `30` they pass, at `59` none does, and at
`60` the first has left the window, though a round came by. -/
theorem third_request_passes :
    ((Runs.after step (start (1200 * second))
      [.request "CT" 2 60 0, .request "CT" 2 60 (30 * second), .request "CT" 2 60 (59 * second),
        .sweep (59 * second)]).request "CT" 2 60 (60 * second)).1 = true ↔
      ((accepted "CT" (start (1200 * second))
        [.request "CT" 2 60 0, .request "CT" 2 60 (30 * second), .request "CT" 2 60 (59 * second),
          .sweep (59 * second)]).filter
        fun t => decide (unix (60 * second) - 60 < t)).length < 2 := by
  refine request_iff (by decide) ⟨by decide, ?_⟩
  intro m duration now hmem
  have hlimits : m = 2 ∧ duration = 60 := by
    simp only [List.cons_append, List.nil_append, List.mem_cons, Act.request.injEq, reduceCtorEq,
      List.not_mem_nil, or_false, false_or] at hmem
    omega
  rw [hlimits.1, hlimits.2]
  decide

end AuthGateway.RateLimit
