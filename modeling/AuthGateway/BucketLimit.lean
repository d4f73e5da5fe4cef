import AuthGateway.Common.Limiter
import AuthGateway.Lib.TokenBucket

/-!
# The limiter of tokens

The script is a token bucket over whole numbers, and rounding does not show as
long as the capacity is below `2 ^ 53`: what is rounded is above the capacity
(`execute_sim`).  Its unit of time is the second it reads, so an interval may have
as much more granted as flows in during a second.
-/

namespace AuthGateway.Common.Limiter

open Float64

/-! ### A token bucket -/

/-- The second that the script reads. -/
def RedisTime.second (t : RedisTime) : Int := roundEven t.nowInSeconds

theorem nowInSeconds_eq (t : RedisTime) : t.nowInSeconds = (t.second : ℚ) := by
  obtain ⟨m, hm⟩ := exists_nearest_intCast t.seconds
  have hnow : t.nowInSeconds = (m : ℚ) := hm
  unfold RedisTime.second
  rw [hnow, roundEven_intCast]

/-- It is the second of the time, for as long as that is a double. -/
theorem second_eq {t : RedisTime} (h : t.seconds < 2 ^ 53) : t.second = t.seconds := by
  have hnow : t.nowInSeconds = ((t.seconds : ℤ) : ℚ) := nearest_intCast (by
    rw [abs_of_nonneg (by omega)]
    omega)
  unfold RedisTime.second
  rw [hnow, roundEven_intCast]

theorem seconds_mono {t t' : RedisTime} (h : t.time ≤ t'.time) : t.seconds ≤ t'.seconds := by
  by_contra hlt
  have hnext : ((t'.seconds : ℚ) + 1) ≤ t.seconds := by
    have hint : t'.seconds + 1 ≤ t.seconds := by omega
    exact_mod_cast hint
  have hmicro : (t'.microseconds : ℚ) / 10 ^ 6 < 1 := by
    rw [div_lt_one (by norm_num)]
    exact_mod_cast t'.microseconds_lt
  have hnonneg : (0 : ℚ) ≤ (t.microseconds : ℚ) / 10 ^ 6 := by positivity
  unfold RedisTime.time at h
  linarith

theorem second_mono {t t' : RedisTime} (h : t.time ≤ t'.time) : t.second ≤ t'.second := by
  have hnow : t.nowInSeconds ≤ t'.nowInSeconds := by
    apply nearest_mono
    · exact_mod_cast Int.natCast_nonneg t.seconds
    · exact_mod_cast seconds_mono h
  rw [nowInSeconds_eq, nowInSeconds_eq] at hnow
  exact_mod_cast hnow

/-- The bucket as whole numbers. -/
def Bucket.Holds (bucket : Bucket) : Option (TokenBucket.Bucket Int) → Prop
  | none => bucket = Bucket.missing
  | some b => bucket = { tokens := some (b.tokens : ℚ), lastTime := some (b.last : ℚ) }

/-- The request of an execution. -/
def Config.request (config : Config) (now : RedisTime) : TokenBucket.Request Int :=
  { time := now.second, wanted := config.requested }

def Config.answer (config : Config) (e : Execution) : TokenBucket.Answer Int :=
  { config.request e.time with granted := e.allowed }

/-- A capacity that a double tells from every other number, and nothing negative. -/
structure Config.Exact (config : Config) : Prop where
  capacity_nonneg : 0 ≤ config.capacity
  capacity_lt : config.capacity < 2 ^ 53
  rate_nonneg : 0 ≤ config.rate
  requested_pos : 1 ≤ config.requested

/-- **The state of the script is that of a token bucket.** -/
structure Sim (config : Config) (st : State) (abstract : TokenBucket.State Int) : Prop where
  bucket : st.bucket.Holds abstract.bucket
  answers : st.executions.map config.answer = abstract.answers

theorem Config.Exact.tonumber_capacity {config : Config} (h : config.Exact) :
    tonumber config.capacity = config.capacity :=
  nearest_intCast (by
    rw [abs_of_nonneg h.capacity_nonneg]
    exact h.capacity_lt)

/-- **The tokens are those of the token bucket.** -/
theorem tokensAt_eq {config : Config} (h : config.Exact) {now : RedisTime} {bucket : Bucket}
    {abstract : Option (TokenBucket.Bucket Int)} (hholds : bucket.Holds abstract)
    (htokens : ∀ b ∈ abstract, 0 ≤ b.tokens) (hlast : ∀ b ∈ abstract, b.last ≤ now.second) :
    tokensAt config now bucket
      = ((TokenBucket.refilled config.capacity config.rate abstract now.second : ℤ) : ℚ) := by
  cases abstract with
  | none =>
    rw [show bucket = Bucket.missing from hholds]
    exact h.tonumber_capacity
  | some b =>
    have hb0 := htokens b rfl
    have helapsed : 0 ≤ now.second - b.last := sub_nonneg.mpr (hlast b rfl)
    rw [show bucket = { tokens := some (b.tokens : ℚ), lastTime := some (b.last : ℚ) } from hholds]
    show min (tonumber config.capacity) (nearest (b.tokens
      + nearest (nearest (now.nowInSeconds - b.last) * tonumber config.rate))) = _
    have htell : Tells (nearest (now.nowInSeconds - b.last)) (now.second - b.last) := by
      rw [nowInSeconds_eq, ← Int.cast_sub]
      exact (tells_intCast _).nearest helapsed
    have hrate : Tells (tonumber config.rate) config.rate :=
      (tells_intCast _).nearest h.rate_nonneg
    have hflow := (htell.mul hrate helapsed h.rate_nonneg).nearest
      (mul_nonneg helapsed h.rate_nonneg)
    have hsum := ((tells_intCast b.tokens).add hflow hb0
      (mul_nonneg helapsed h.rate_nonneg)).nearest
      (add_nonneg hb0 (mul_nonneg helapsed h.rate_nonneg))
    rw [h.tonumber_capacity, hsum.min_eq h.capacity_lt, mul_comm]
    rfl

/-- **A request is answered as by the token bucket.** -/
theorem rateLimit_eq {config : Config} (h : config.Exact) {now : RedisTime} {bucket : Bucket}
    {tokens : Int} (htokens : tokensAt config now bucket = tokens)
    (hle : tokens ≤ config.capacity) :
    rateLimit config now bucket = (decide (config.requested ≤ tokens),
      { tokens := some ((tokens - (if config.requested ≤ tokens then config.requested else 0) : ℤ) : ℚ)
        lastTime := some (now.second : ℚ) }) := by
  have hsmall : tokens < 2 ^ 53 := lt_of_le_of_lt hle h.capacity_lt
  have hrequested : 0 ≤ config.requested := le_trans (by norm_num) h.requested_pos
  have hiff : tonumber config.requested ≤ tokens ↔ config.requested ≤ tokens :=
    ((tells_intCast _).nearest hrequested).le_iff hsmall
  unfold rateLimit
  simp only [htokens, nowInSeconds_eq]
  by_cases hallowed : config.requested ≤ tokens
  · have hexact : tonumber config.requested = config.requested :=
      nearest_intCast (by
        rw [abs_of_nonneg hrequested]
        exact lt_of_le_of_lt hallowed hsmall)
    have hleft : nearest ((tokens : ℚ) - tonumber config.requested)
        = ((tokens - config.requested : ℤ) : ℚ) := by
      rw [hexact, ← Int.cast_sub]
      apply nearest_intCast
      rw [abs_of_nonneg (sub_nonneg.mpr hallowed)]
      omega
    rw [if_pos (hiff.mpr hallowed), hleft, if_pos hallowed, decide_eq_true hallowed]
  · rw [if_neg (mt hiff.mp hallowed), if_neg hallowed, decide_eq_false hallowed, sub_zero]

/-- **An execution is a request of the token bucket.** -/
theorem execute_sim {config : Config} (h : config.Exact) {now : RedisTime} {st : State}
    {abstract : TokenBucket.State Int} (hsim : Sim config st abstract)
    (hbalanced : TokenBucket.Balanced config.capacity config.rate abstract)
    (horder : TokenBucket.InOrder abstract (config.request now)) :
    Sim config (execute config st now)
      (TokenBucket.step config.capacity config.rate abstract (config.request now)) := by
  have htokens := tokensAt_eq h hsim.bucket (fun b hb => (hbalanced.tokens b hb).1) horder
  have hmem := hbalanced.refilled_mem h.capacity_nonneg h.rate_nonneg horder
  have hrun := rateLimit_eq h htokens hmem.2
  have hamount : (TokenBucket.answer config.capacity config.rate abstract.bucket
        (config.request now)).amount
      = if config.requested ≤ TokenBucket.refilled config.capacity config.rate abstract.bucket
          now.second then config.requested else 0 := by
    unfold TokenBucket.Answer.amount TokenBucket.answer
    simp only [decide_eq_true_eq]
    rfl
  constructor
  · show (rateLimit config now st.bucket).2 = _
    rw [hrun, ← hamount]
    rfl
  · show (st.executions ++ [_]).map config.answer = abstract.answers ++ [_]
    rw [List.map_append, hsim.answers, hrun]
    rfl

/-! ### A run -/

/-- The executions at the times, on a key that is not there. -/
def Config.run (config : Config) (times : List RedisTime) : State :=
  Runs.after (execute config) State.fresh times

/-- The total granted by the executions at such a time. -/
def Config.granted (config : Config) (executions : List Execution) (p : RedisTime → Bool) : Int :=
  config.requested * executions.countP fun e => e.allowed && p e.time

/-- In the seconds from `s` to `t`. -/
def inSeconds (s t : Int) (now : RedisTime) : Bool := decide (s ≤ now.second ∧ now.second ≤ t)

/-- In the interval from `s` to `t`. -/
def within (s t now : RedisTime) : Bool := decide (s.time ≤ now.time ∧ now.time ≤ t.time)

/-- **The token bucket that the script is**, after a run. -/
def Config.abstractRun (config : Config) (times : List RedisTime) : TokenBucket.State Int :=
  Runs.after (TokenBucket.step config.capacity config.rate) TokenBucket.State.fresh
    (times.map config.request)

/-- One execution after another. -/
def InOrder (times : List RedisTime) : Prop := times.Pairwise fun t t' => t.time ≤ t'.time

instance (times : List RedisTime) : Decidable (InOrder times) :=
  inferInstanceAs (Decidable (times.Pairwise fun t t' => t.time ≤ t'.time))

theorem Config.Exact.balanced {config : Config} (h : config.Exact) {times : List RedisTime}
    (horder : InOrder times) :
    TokenBucket.Balanced config.capacity config.rate (config.abstractRun times) := by
  have hwanted : ∀ r ∈ times.map config.request, 0 ≤ r.wanted := by
    intro r hr
    obtain ⟨t, -, rfl⟩ := List.mem_map.mp hr
    exact le_trans (by norm_num) h.requested_pos
  have hsorted : (times.map config.request).Pairwise fun r r' => r.time ≤ r'.time := by
    rw [List.pairwise_map]
    exact horder.imp second_mono
  exact TokenBucket.balanced_run h.capacity_nonneg h.rate_nonneg _ hwanted hsorted

/-- **The script refines the token bucket**, over a run. -/
theorem run_sim {config : Config} (h : config.Exact) {times : List RedisTime}
    (horder : InOrder times) : Sim config (config.run times) (config.abstractRun times) := by
  induction times using List.reverseRecOn with
  | nil => exact ⟨rfl, rfl⟩
  | append_singleton earlier now ih =>
    obtain ⟨hearlier, -, hlast⟩ := List.pairwise_append.mp horder
    unfold Config.run Config.abstractRun
    rw [List.map_append, List.map_singleton, Runs.after_snoc, Runs.after_snoc]
    refine execute_sim h (ih hearlier) (h.balanced hearlier) (TokenBucket.inOrder_run ?_)
    intro r hr
    obtain ⟨t, ht, rfl⟩ := List.mem_map.mp hr
    exact second_mono (hlast t ht now (by simp))

/-- The total, as the token bucket counts it. -/
theorem granted_eq (config : Config) (executions : List Execution) (s t : Int) :
    config.granted executions (inSeconds s t)
      = TokenBucket.grantedIn s t (executions.map config.answer) := by
  induction executions with
  | nil => simp [Config.granted]
  | cons e rest ih =>
    have hcons : TokenBucket.grantedIn s t ((e :: rest).map config.answer)
        = TokenBucket.grantedIn s t [config.answer e]
          + TokenBucket.grantedIn s t (rest.map config.answer) :=
      TokenBucket.grantedIn_append s t [config.answer e] _
    have hone : TokenBucket.grantedIn s t [config.answer e]
        = if e.allowed && inSeconds s t e.time then config.requested else 0 := by
      cases hin : inSeconds s t e.time <;>
        cases hallowed : e.allowed <;>
          simp_all [TokenBucket.grantedIn, inSeconds, Config.answer, Config.request,
            TokenBucket.Answer.amount]
    rw [hcons, hone, ← ih]
    unfold Config.granted
    rw [List.countP_cons]
    split
    · push_cast
      ring
    · simp

theorem granted_within_le {config : Config} (h : config.Exact) (executions : List Execution)
    (s t : RedisTime) : config.granted executions (within s t)
      ≤ config.granted executions (inSeconds s.second t.second) := by
  apply mul_le_mul_of_nonneg_left _ (le_trans (by norm_num) h.requested_pos)
  have hmono : executions.countP (fun e => e.allowed && within s t e.time)
      ≤ executions.countP fun e => e.allowed && inSeconds s.second t.second e.time := by
    apply List.countP_mono_left
    intro e _ he
    obtain ⟨hallowed, hin⟩ := Bool.and_eq_true_iff.mp he
    obtain ⟨hs, ht⟩ := of_decide_eq_true hin
    rw [hallowed, Bool.true_and]
    exact decide_eq_true ⟨second_mono hs, second_mono ht⟩
  exact_mod_cast hmono

/-- **The limit in whole seconds.**  For a capacity below `2 ^ 53` the tokens lie between
none and the capacity; an interval has granted at most the capacity and what flows in
during the seconds between its ends; and a request is refused only if less than it asks
for is left of what accumulated since some second. -/
theorem limited_in_seconds {config : Config} (h : config.Exact) {times : List RedisTime}
    (horder : InOrder times) :
    (∀ tokens ∈ (config.run times).bucket.tokens, 0 ≤ tokens ∧ tokens ≤ config.capacity) ∧
    (∀ s t : RedisTime, s.time ≤ t.time →
      config.granted (config.run times).executions (within s t)
        ≤ config.capacity + config.rate * (t.second - s.second)) ∧
    (∀ earlier e later, (config.run times).executions = earlier ++ e :: later →
      e.allowed = false → ∃ s ≤ e.time.second,
        config.capacity + config.rate * (e.time.second - s)
          - config.granted earlier (inSeconds s e.time.second) < config.requested) := by
  have hsim := run_sim h horder
  have hbalanced := h.balanced horder
  refine ⟨?_, ?_, ?_⟩
  · intro tokens htokens
    have hbucket := hsim.bucket
    cases habstract : (config.abstractRun times).bucket with
    | none =>
      rw [habstract] at hbucket
      rw [show (config.run times).bucket = Bucket.missing from hbucket] at htokens
      exact nomatch htokens
    | some b =>
      rw [habstract] at hbucket
      rw [show (config.run times).bucket
        = { tokens := some (b.tokens : ℚ), lastTime := some (b.last : ℚ) } from hbucket] at htokens
      obtain rfl : (b.tokens : ℚ) = tokens := Option.some.inj htokens
      have hmem := hbalanced.tokens b habstract
      exact ⟨by exact_mod_cast hmem.1, by exact_mod_cast hmem.2⟩
  · intro s t hst
    calc config.granted (config.run times).executions (within s t)
        ≤ config.granted (config.run times).executions (inSeconds s.second t.second) :=
          granted_within_le h _ s t
      _ = TokenBucket.grantedIn s.second t.second (config.abstractRun times).answers := by
          rw [granted_eq, hsim.answers]
      _ ≤ config.capacity + config.rate * (t.second - s.second) :=
          hbalanced.bounded _ _ (second_mono hst)
  · intro earlier e later heq hrefused
    have hanswers : (config.abstractRun times).answers
        = earlier.map config.answer ++ config.answer e :: later.map config.answer := by
      rw [← hsim.answers, heq, List.map_append, List.map_cons]
    obtain ⟨s, hs, hless⟩ := hbalanced.refused _ _ _ hanswers hrefused
    refine ⟨s, hs, ?_⟩
    rw [granted_eq]
    exact hless

/-- Ten a second, within one. -/
theorem limited_within_a_second :
    let config : Config := ⟨10, 10, 10⟩
    let s : RedisTime := ⟨43200, 0, by decide⟩
    let t : RedisTime := ⟨43200, 900000, by decide⟩
    config.granted (config.run [s, t]).executions (within s t) ≤ 10 := by
  intro config s t
  have hexact : config.Exact := ⟨by decide, by decide, by decide, by decide⟩
  have horder : InOrder [s, t] := by decide +kernel
  have hle := (limited_in_seconds hexact horder).2.1 s t (by decide +kernel)
  have hsame : config.capacity + config.rate * (t.second - s.second) = 10 := by decide +kernel
  exact hle.trans hsame.le

/-- **A second begins between two requests**: at 0.999999 s and at 1 s a bucket of ten that
fills by ten grants ten and ten.  At 0.9 s it refuses nine, of the one left and the nine that
came.  And a capacity that is not a double is exceeded. -/
theorem limit_not_in_time :
    (let config : Config := ⟨10, 10, 10⟩
     let s : RedisTime := ⟨0, 999999, by decide⟩
     let t : RedisTime := ⟨1, 0, by decide⟩
     (config.capacity + config.rate * (t.time - s.time) : ℚ)
       < config.granted (config.run [s, t]).executions (within s t)) ∧
    (let config : Config := ⟨10, 10, 9⟩
     let s : RedisTime := ⟨0, 0, by decide⟩
     let t : RedisTime := ⟨0, 900000, by decide⟩
     ((config.run [s, t]).executions.map Execution.allowed = [true, false]) ∧
       (config.requested : ℚ) ≤ config.capacity - config.requested
         + config.rate * (t.time - s.time)) ∧
    (let config : Config := ⟨2 ^ 53 + 3, 1, 1⟩
     (config.run [⟨0, 0, by decide⟩]).bucket.tokens = some (2 ^ 53 + 4) ∧
       (config.capacity : ℚ) < 2 ^ 53 + 4) := by
  decide +kernel

end AuthGateway.Common.Limiter
