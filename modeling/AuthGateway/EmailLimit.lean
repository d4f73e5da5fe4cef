import AuthGateway.Lib.FixedWindow
import AuthGateway.Middleware.EmailVerification
import AuthGateway.RateLimit

/-!
# The e-mail limit on both sides

Requests at whole seconds, one at a time, meet `EmailVerificationRateLimit` with
Redis, which answers every command, or without it.

In memory a request passes by the window that ends with it, so no interval shorter
than `EmailVerificationDuration` sees more than `EmailVerificationMaxRequests` of
a client.  The counter in Redis has a window that begins with its first request
(`Counted`): the second request of one life of the counter and the two of the next
may come close together.

**The limit in Redis is kept exactly when the requests that find the counter at
one are `EmailVerificationDuration` apart** (`limited_iff_spaced`).
-/

namespace AuthGateway.EmailLimit

open Common Middleware FixedWindow

/-! ### Runs -/

inductive Act
  | request (clientIP : String) (k : Int)
  /-- A round of `clearExpiredItems`. -/
  | sweep (k : Int)

/-- The second at which it happens. -/
@[simp] def Act.at : Act → Int
  | request _ k => k
  | sweep k => k

def respond (redisEnabled : Bool) (clientIP : String) (k : Int) (g : Limiters) :
    Outcome × Limiters :=
  emailVerificationRateLimit redisEnabled {} clientIP (k * second) g

def step (redisEnabled : Bool) (g : Limiters) : Act → Limiters
  | .request clientIP k => (respond redisEnabled clientIP k g).2
  | .sweep k => { g with limiter := g.limiter.map fun l => l.clearExpiredItems (k * second) }

/-- The second of a request of the client that is let through. -/
def letThrough (redisEnabled : Bool) (clientIP : String) (g : Limiters) : Act → List Int
  | .request clientIP' k =>
    if clientIP' = clientIP ∧ (respond redisEnabled clientIP' k g).1 = .next then [k] else []
  | .sweep _ => []

/-- **The requests of the client that were let through.** -/
def admitted (redisEnabled : Bool) (clientIP : String) (acts : List Act) : List Int :=
  Runs.gather (step redisEnabled) (letThrough redisEnabled clientIP) {} acts

/-- The second of a request of the client that finds its counter at one. -/
def findsOne (clientIP : String) (g : Limiters) : Act → List Int
  | .request clientIP' k =>
    if clientIP' = clientIP ∧ g.count clientIP' (k * second) = 1 then [k] else []
  | .sweep _ => []

/-- The requests of the client that find its counter at one. -/
def seconds (clientIP : String) (acts : List Act) : List Int :=
  Runs.gather (step true) (findsOne clientIP) {} acts

/-- The clock does not go back. -/
def InOrder (acts : List Act) : Prop := acts.Pairwise fun a b => a.at ≤ b.at

theorem InOrder.of_snoc {acts : List Act} {a : Act} (h : InOrder (acts ++ [a])) : InOrder acts :=
  (List.pairwise_append.mp h).1

theorem InOrder.le_last {acts : List Act} {a b : Act} (h : InOrder (acts ++ [a])) (hb : b ∈ acts) :
    b.at ≤ a.at := (List.pairwise_append.mp h).2.2 b hb a (by simp)

theorem whole_millisecond (k : Int) : k * second / millisecond = k * 1000 := by
  unfold second millisecond
  omega

/-! ### In memory -/

/-- What the limiter in memory sees of it. -/
def inMemory : Act → RateLimit.Act
  | .request clientIP k =>
    .request (emailMemoryKey clientIP) emailVerificationMaxRequests emailVerificationDuration
      (k * second)
  | .sweep k => .sweep (k * second)

abbrev fresh : InMemoryRateLimiter := RateLimit.start rateLimitKeyExpirationDuration

theorem memoryKey_inj {clientIP clientIP' : String} :
    emailMemoryKey clientIP' = emailMemoryKey clientIP ↔ clientIP' = clientIP := by
  unfold emailMemoryKey
  exact String.append_right_inj _

/-- `Init` comes before the first request; a round before that finds nothing. -/
theorem limiter_after (acts : List Act) :
    (Runs.after (step false) {} acts).limiter.getD fresh
      = Runs.after RateLimit.step fresh (acts.map inMemory) := by
  induction acts using List.reverseRecOn with
  | nil => rfl
  | append_singleton acts a ih =>
    rw [Runs.after_snoc, List.map_append, List.map_singleton, Runs.after_snoc, ← ih]
    cases a with
    | request clientIP k => rfl
    | sweep k =>
      simp only [step, inMemory, RateLimit.step]
      cases (Runs.after (step false) {} acts).limiter with
      | none => rfl
      | some l => rfl

theorem admitted_memory (clientIP : String) (acts : List Act) :
    admitted false clientIP acts
      = RateLimit.accepted (emailMemoryKey clientIP) fresh (acts.map inMemory) := by
  unfold admitted
  induction acts using List.reverseRecOn with
  | nil => rfl
  | append_singleton acts a ih =>
    rw [Runs.gather_snoc, List.map_append, List.map_singleton, RateLimit.accepted_snoc, ih,
      ← limiter_after]
    congr 1
    cases a with
    | sweep k => rfl
    | request clientIP' k =>
      have hverdict : (respond false clientIP' k (Runs.after (step false) {} acts)).1 = .next ↔
          (((Runs.after (step false) {} acts).limiter.getD fresh).request
            (emailMemoryKey clientIP') emailVerificationMaxRequests emailVerificationDuration
            (k * second)).1 = true := by
        show (if (((Runs.after (step false) {} acts).limiter.getD fresh).request
          (emailMemoryKey clientIP') emailVerificationMaxRequests emailVerificationDuration
          (k * second)).1 then Outcome.next else _) = .next ↔ _
        split
        · rename_i h
          simp [h]
        · rename_i h
          simp [h]
      simp only [letThrough, inMemory, RateLimit.granted, memoryKey_inj, hverdict, unix_whole]

theorem proper_inMemory (clientIP : String) {acts : List Act} (h : InOrder acts) :
    RateLimit.Proper rateLimitKeyExpirationDuration (emailMemoryKey clientIP)
      emailVerificationMaxRequests (acts.map inMemory) := by
  constructor
  · rw [List.pairwise_map]
    refine h.imp fun {a b} hab => ?_
    have hle : a.at * second ≤ b.at * second :=
      Int.mul_le_mul_of_nonneg_right hab (by decide)
    cases a <;> cases b <;> exact hle
  · intro m duration now hmem
    obtain ⟨a, -, ha⟩ := List.mem_map.mp hmem
    cases a with
    | request clientIP' k =>
      simp only [inMemory, RateLimit.Act.request.injEq] at ha
      obtain ⟨-, rfl, rfl, -⟩ := ha
      exact ⟨rfl, by decide, by decide⟩
    | sweep k => cases ha

/-- **In memory the limit is kept.** -/
theorem limited_memory (clientIP : String) {acts : List Act} (h : InOrder acts) :
    Limited emailVerificationMaxRequests emailVerificationDuration
      (admitted false clientIP acts) := by
  rw [admitted_memory]
  intro first last hshort
  refine SlidingWindow.countP_interval_le
    (RateLimit.accepted_passes (by decide) (proper_inMemory clientIP h) ?_) hshort
  intro m duration now hmem
  obtain ⟨a, -, ha⟩ := List.mem_map.mp hmem
  cases a with
  | request clientIP' k =>
    simp only [inMemory, RateLimit.Act.request.injEq] at ha
    exact ha.2.2.1.symm
  | sweep k => cases ha

/-! ### In Redis -/

theorem no_faults : ({} : Faults).incr = none := rfl

/-- The counter of a client in the server. -/
def counterOf (clientIP : String) (g : Limiters) : Option Counter :=
  g.server.counters (emailRedisKey clientIP)

/-- The counter is that of the window: it lives as long, and is at one as long as
the window has no second request. -/
structure Shows (c : Counter) (w : Window emailVerificationDuration) : Prop where
  deadline : c.deadline = some (w.opened * 1000 + emailVerificationDuration * 1000)
  value : c.value = 1 ↔ w.second = none

/-- **The run so far in windows**: the counter is that of the last one. -/
structure Counted (clientIP : String) (acts : List Act)
    (ws : List (Window emailVerificationDuration)) : Prop where
  inTurn : InTurn ws
  admitted : admitted true clientIP acts = times ws
  seconds : seconds clientIP acts = FixedWindow.seconds ws
  counter : (ws = [] ∧ counterOf clientIP (Runs.after (step true) {} acts) = none) ∨
    ∃ earlier w c, ws = earlier ++ [w] ∧
      counterOf clientIP (Runs.after (step true) {} acts) = some c ∧ Shows c w

/-- The counter that a request finds is one whose time has not come. -/
theorem met_eq_some {g : Limiters} {clientIP : String} {k : Int} {c : Counter} :
    g.met clientIP (k * second) = some c ↔
      counterOf clientIP g = some c ∧ ∀ d, c.deadline = some d → k * 1000 ≤ d := by
  have hnow : (g.at' (k * second)).now = k * 1000 := whole_millisecond k
  unfold Limiters.met CounterServer.counter
  rw [Option.filter_eq_some_iff, hnow]
  refine and_congr_right fun _ => ?_
  cases c.deadline with
  | none => simp
  | some d => simp

theorem met_of_shows {g : Limiters} {clientIP : String} {k : Int} {c : Counter}
    {w : Window emailVerificationDuration} (hc : counterOf clientIP g = some c) (h : Shows c w) :
    (k ≤ w.opened + emailVerificationDuration → g.met clientIP (k * second) = some c) ∧
      (w.opened + emailVerificationDuration < k → g.met clientIP (k * second) = none) := by
  constructor
  · intro hin
    refine met_eq_some.mpr ⟨hc, fun d hd => ?_⟩
    rw [h.deadline] at hd
    have hd' := Option.some.inj hd
    omega
  · intro hover
    cases hmet : g.met clientIP (k * second) with
    | none => rfl
    | some c' =>
      obtain ⟨hc', hlive⟩ := met_eq_some.mp hmet
      obtain rfl : c = c' := Option.some.inj (hc.symm.trans hc')
      have hle := hlive _ h.deadline
      omega

/-- Other clients' requests, and the rounds in memory, leave the counter alone. -/
theorem counterOf_other {clientIP : String} {g : Limiters} {a : Act}
    (h : ∀ k, a ≠ .request clientIP k) : counterOf clientIP (step true g a) = counterOf clientIP g := by
  cases a with
  | sweep k => rfl
  | request clientIP' k =>
    have hne : emailRedisKey clientIP ≠ emailRedisKey clientIP' :=
      redisKey_ne fun he => h k (by rw [he])
    show (redisEmailVerificationRateLimiter {} clientIP' (k * second) g).2.server.counters
      (emailRedisKey clientIP) = _
    cases hmet : g.met clientIP' (k * second) with
    | none =>
      rw [(redis_opens no_faults clientIP' (k * second) g hmet).2.2, Function.update_of_ne hne]
      rfl
    | some c =>
      rw [(redis_counts no_faults clientIP' (k * second) g hmet).2.2, Function.update_of_ne hne]
      rfl

theorem Counted.other {clientIP : String} {acts : List Act}
    {ws : List (Window emailVerificationDuration)} (h : Counted clientIP acts ws) {a : Act}
    (ha : ∀ k, a ≠ .request clientIP k) : Counted clientIP (acts ++ [a]) ws := by
  have hquiet : ∀ g, letThrough true clientIP g a = [] ∧ findsOne clientIP g a = [] := by
    intro g
    cases a with
    | sweep k => exact ⟨rfl, rfl⟩
    | request clientIP' k =>
      have hne : clientIP' ≠ clientIP := fun he => ha k (by rw [he])
      simp [letThrough, findsOne, hne]
  obtain ⟨hinTurn, hadmitted, hseconds, hcounter⟩ := h
  refine ⟨hinTurn, ?_, ?_, ?_⟩
  · rw [EmailLimit.admitted, Runs.gather_snoc, (hquiet _).1, List.append_nil]
    exact hadmitted
  · rw [EmailLimit.seconds, Runs.gather_snoc, (hquiet _).2, List.append_nil]
    exact hseconds
  · rw [Runs.after_snoc, counterOf_other ha]
    exact hcounter

/-- The window that a request opens. -/
def opening (k : Int) : Window emailVerificationDuration := ⟨k, none, fun _ h => nomatch h⟩

theorem times_snoc (ws : List (Window emailVerificationDuration))
    (w : Window emailVerificationDuration) : times (ws ++ [w]) = times ws ++ w.times := by
  simp [times]

theorem seconds_snoc (ws : List (Window emailVerificationDuration))
    (w : Window emailVerificationDuration) :
    FixedWindow.seconds (ws ++ [w]) = FixedWindow.seconds ws ++ w.second.toList := by
  simp [FixedWindow.seconds]

/-- A request that finds no counter. -/
theorem Counted.opens {clientIP : String} {acts : List Act} {k : Int}
    {ws : List (Window emailVerificationDuration)} (h : Counted clientIP acts ws)
    (hmet : (Runs.after (step true) {} acts).met clientIP (k * second) = none)
    (hover : ∀ w ∈ ws, w.opened + emailVerificationDuration < k) :
    Counted clientIP (acts ++ [.request clientIP k]) (ws ++ [opening k]) := by
  obtain ⟨hnext, -, hcounters⟩ := redis_opens no_faults clientIP (k * second) _ hmet
  have hcount : (Runs.after (step true) {} acts).count clientIP (k * second) = 0 := by
    rw [Limiters.count, hmet]
    rfl
  have hthrough : letThrough true clientIP (Runs.after (step true) {} acts) (.request clientIP k)
      = [k] := if_pos ⟨rfl, hnext⟩
  have hfinds : findsOne clientIP (Runs.after (step true) {} acts) (.request clientIP k) = [] := by
    simp [findsOne, hcount]
  refine ⟨?_, ?_, ?_, Or.inr ⟨ws, opening k, left {} (k * second) none, rfl, ?_, ?_⟩⟩
  · exact List.pairwise_append.mpr ⟨h.inTurn, List.pairwise_singleton _ _, fun w hw w' hw' => by
      rw [List.mem_singleton.mp hw']
      exact hover w hw⟩
  · rw [EmailLimit.admitted, Runs.gather_snoc, hthrough, times_snoc]
    exact congrArg (· ++ [k]) h.admitted
  · rw [EmailLimit.seconds, Runs.gather_snoc, hfinds, seconds_snoc]
    exact congrArg (· ++ []) h.seconds
  · rw [Runs.after_snoc]
    refine (congrFun hcounters _).trans ?_
    rw [Function.update_self]
  · refine ⟨?_, ?_⟩
    · simp [left, Faults.Expires, opening, whole_millisecond]
    · simp [left, opening]

/-- A request that finds the counter of the last window. -/
theorem Counted.counts {clientIP : String} {acts : List Act} {k : Int}
    {earlier : List (Window emailVerificationDuration)} {w : Window emailVerificationDuration}
    {c : Counter} (h : Counted clientIP acts (earlier ++ [w])) (hshows : Shows c w)
    (hmet : (Runs.after (step true) {} acts).met clientIP (k * second) = some c)
    (hfirst : w.opened ≤ k) (hin : k ≤ w.opened + emailVerificationDuration) :
    ∃ w' : Window emailVerificationDuration, w'.opened = w.opened ∧
      Counted clientIP (acts ++ [.request clientIP k]) (earlier ++ [w']) := by
  obtain ⟨hnext, -, hcounters⟩ := redis_counts no_faults clientIP (k * second) _ hmet
  have hcount : (Runs.after (step true) {} acts).count clientIP (k * second) = c.value := by
    rw [Limiters.count, hmet]
    rfl
  have hcounter : counterOf clientIP (Runs.after (step true) {} (acts ++ [.request clientIP k]))
      = some (left {} (k * second) (some c)) := by
    rw [Runs.after_snoc]
    refine (congrFun hcounters _).trans ?_
    rw [Function.update_self]
  have hmore : (left {} (k * second) (some c)).value ≠ 1 := by
    have hpositive := c.positive
    show c.value + 1 ≠ 1
    omega
  by_cases hone : c.value = 1
  · -- the second request of the window
    have hnone : w.second = none := hshows.value.mp hone
    let w' : Window emailVerificationDuration := ⟨w.opened, some k, fun t ht => by
      obtain rfl : k = t := Option.some.inj ht
      exact ⟨hfirst, hin⟩⟩
    have hthrough : letThrough true clientIP (Runs.after (step true) {} acts) (.request clientIP k)
        = [k] := if_pos ⟨rfl, hnext.mpr (by rw [hone]; decide)⟩
    have hfinds : findsOne clientIP (Runs.after (step true) {} acts) (.request clientIP k) = [k] :=
      if_pos ⟨rfl, hcount.trans hone⟩
    have htimes : w.times ++ [k] = w'.times := by simp [Window.times, hnone, w']
    refine ⟨w', rfl, ?_, ?_, ?_, Or.inr ⟨earlier, w', _, rfl, hcounter, hshows.deadline, ?_⟩⟩
    · have hinTurn := List.pairwise_append.mp h.inTurn
      exact List.pairwise_append.mpr ⟨hinTurn.1, List.pairwise_singleton _ _, fun v hv v' hv' => by
        rw [List.mem_singleton.mp hv']
        exact hinTurn.2.2 v hv w (List.mem_singleton.mpr rfl)⟩
    · rw [EmailLimit.admitted, Runs.gather_snoc, hthrough, times_snoc, ← htimes,
        ← List.append_assoc, ← times_snoc]
      exact congrArg (· ++ [k]) h.admitted
    · have hbefore := h.seconds
      rw [seconds_snoc, hnone] at hbefore
      rw [EmailLimit.seconds, Runs.gather_snoc, hfinds, seconds_snoc]
      exact congrArg (· ++ [k]) (hbefore.trans (List.append_nil _))
    · exact iff_of_false hmore (by simp [w'])
  · -- the window has its two
    have hpositive := c.positive
    have hthrough : letThrough true clientIP (Runs.after (step true) {} acts) (.request clientIP k)
        = [] := by
      refine if_neg fun hpass => ?_
      have hlow := hnext.mp hpass.2
      simp only [emailVerificationMaxRequests] at hlow
      omega
    have hfinds : findsOne clientIP (Runs.after (step true) {} acts) (.request clientIP k) = [] := by
      simp [findsOne, hcount, hone]
    refine ⟨w, rfl, h.inTurn, ?_, ?_, Or.inr ⟨earlier, w, _, rfl, hcounter, hshows.deadline, ?_⟩⟩
    · rw [EmailLimit.admitted, Runs.gather_snoc, hthrough, List.append_nil]
      exact h.admitted
    · rw [EmailLimit.seconds, Runs.gather_snoc, hfinds, List.append_nil]
      exact h.seconds
    · exact iff_of_false hmore fun hnone => hone (hshows.value.mpr hnone)

/-- **Every run is counted in windows**, that opened before its end. -/
theorem exists_counted (clientIP : String) {acts : List Act} (h : InOrder acts) :
    ∃ ws, Counted clientIP acts ws ∧
      ∀ now, (∀ a ∈ acts, a.at ≤ now) → ∀ w ∈ ws, w.opened ≤ now := by
  induction acts using List.reverseRecOn with
  | nil => exact ⟨[], ⟨List.Pairwise.nil, rfl, rfl, Or.inl ⟨rfl, rfl⟩⟩, fun _ _ w hw => nomatch hw⟩
  | append_singleton acts a ih =>
    obtain ⟨ws, hcounted, hopened⟩ := ih h.of_snoc
    have hbefore : ∀ w ∈ ws, w.opened ≤ a.at := hopened _ fun b hb => h.le_last hb
    have hlater : ∀ now, (∀ b ∈ acts ++ [a], b.at ≤ now) → a.at ≤ now := fun now hnow =>
      hnow a (by simp)
    have hstill : ∀ now, (∀ b ∈ acts ++ [a], b.at ≤ now) → ∀ w ∈ ws, w.opened ≤ now :=
      fun now hnow w hw => le_trans (hbefore w hw) (hlater now hnow)
    by_cases hown : ∃ k, a = .request clientIP k
    · obtain ⟨k, rfl⟩ := hown
      rcases hcounted.counter with ⟨rfl, hnone⟩ | ⟨earlier, w, c, rfl, hc, hshows⟩
      · have hmet : (Runs.after (step true) {} acts).met clientIP (k * second) = none := by
          cases hmet : (Runs.after (step true) {} acts).met clientIP (k * second) with
          | none => rfl
          | some c =>
            rw [(met_eq_some.mp hmet).1] at hnone
            cases hnone
        refine ⟨_, hcounted.opens hmet (fun w hw => nomatch hw), fun now hnow w hw => ?_⟩
        rw [List.mem_singleton.mp hw]
        exact hlater now hnow
      · have hmem : w ∈ earlier ++ [w] := by simp
        by_cases hin : k ≤ w.opened + emailVerificationDuration
        · obtain ⟨w', hw', hcounted'⟩ := hcounted.counts hshows ((met_of_shows hc hshows).1 hin)
            (hbefore w hmem) hin
          refine ⟨_, hcounted', fun now hnow v hv => ?_⟩
          rcases List.mem_append.mp hv with hv | hv
          · exact hstill now hnow v (by simp [hv])
          · rw [List.mem_singleton.mp hv, hw']
            exact hstill now hnow w hmem
        · have hover : w.opened + emailVerificationDuration < k := by omega
          have hall : ∀ v ∈ earlier ++ [w], v.opened + emailVerificationDuration < k := by
            intro v hv
            rcases List.mem_append.mp hv with hv | hv
            · have hearlier := (List.pairwise_append.mp hcounted.inTurn).2.2 v hv w (by simp)
              have hlast := hbefore w hmem
              simp only [Act.at] at hlast
              omega
            · rw [List.mem_singleton.mp hv]
              exact hover
          refine ⟨_, hcounted.opens ((met_of_shows hc hshows).2 hover) hall, fun now hnow v hv => ?_⟩
          rcases List.mem_append.mp hv with hv | hv
          · exact hstill now hnow v hv
          · rw [List.mem_singleton.mp hv]
            exact hlater now hnow
    · exact ⟨ws, hcounted.other fun k hk => hown ⟨k, hk⟩, hstill⟩

/-- **In Redis the limit is kept** when the second requests are far apart. -/
theorem limited_redis_iff (clientIP : String) {acts : List Act} (h : InOrder acts) :
    Limited emailVerificationMaxRequests emailVerificationDuration (admitted true clientIP acts) ↔
      Spaced emailVerificationDuration (seconds clientIP acts) := by
  obtain ⟨ws, hcounted, -⟩ := exists_counted clientIP h
  rw [hcounted.admitted, hcounted.seconds]
  exact limited_iff hcounted.inTurn

/-- **The e-mail limit**: always kept in memory, and in Redis exactly when the
requests that find the counter at one are far enough apart. -/
theorem limited_iff_spaced (clientIP : String) {acts : List Act} (h : InOrder acts) :
    Limited emailVerificationMaxRequests emailVerificationDuration (admitted false clientIP acts) ∧
      (Limited emailVerificationMaxRequests emailVerificationDuration
          (admitted true clientIP acts) ↔
        Spaced emailVerificationDuration (seconds clientIP acts)) :=
  ⟨limited_memory clientIP h, limited_redis_iff clientIP h⟩

/-- Two requests, and two when the counter is new. -/
def aroundExpiry : List Act :=
  [.request "::1" 0, .request "::1" 29, .request "::1" 31, .request "::1" 31]

theorem aroundExpiry_limited :
    Limited emailVerificationMaxRequests emailVerificationDuration
        (admitted false "::1" aroundExpiry) ∧
      (Limited emailVerificationMaxRequests emailVerificationDuration
          (admitted true "::1" aroundExpiry) ↔
        Spaced emailVerificationDuration (seconds "::1" aroundExpiry)) :=
  limited_iff_spaced "::1" (by unfold InOrder; decide)

/-- Three requests pass within two seconds. -/
theorem three_around_expiry :
    InOrder aroundExpiry ∧
      ¬ Limited emailVerificationMaxRequests emailVerificationDuration
        (admitted true "::1" aroundExpiry) := by
  have horder : InOrder aroundExpiry := by
    unfold InOrder
    decide
  have hseconds : seconds "::1" aroundExpiry = [29, 31] := by decide +kernel
  refine ⟨horder, ?_⟩
  rw [limited_redis_iff "::1" horder, hseconds]
  unfold Spaced
  decide

end AuthGateway.EmailLimit
