import AuthGateway.Middleware.RateLimit
import AuthGateway.RateLimit

/-!
# The two rate limiters agree

One client, one request at a time.  The same acts befall an `InMemoryRateLimiter`
and a Redis server: requests at whole seconds, the rounds of `clearExpiredItems`,
and the expiry of keys at any time at which they are due.

Both remember the newest of the requests that passed: the memory as a queue of
seconds, the server as a list of local times, newest first (`Mirrors`).  So both
decide by the same window (`redis_passes`, `RateLimit.request_passes`), and what
either of them drops can no longer matter.
-/

namespace AuthGateway.RateLimitBackends

open Common Middleware SlidingWindow

/-- What `rateLimitFactory` is called with for a mark. -/
structure Limit where
  maxRequestNum : Nat
  duration : Int

/-- At least one request, and no window longer than the keys are kept. -/
def Limit.Valid (l : Limit) : Prop :=
  1 ≤ l.maxRequestNum ∧ 0 ≤ l.duration ∧ l.duration ≤ rateLimitKeyExpirationDuration.tdiv second

inductive Act
  | request (mark : String) (now : Int)
  | sweep (now : Int)
  /-- The Redis server looks at the key of a mark. -/
  | expireDue (mark : String) (now : Int)

@[simp] def Act.now : Act → Int
  | request _ now => now
  | sweep now => now
  | expireDue _ now => now

/-- The clock does not go back, and requests come at whole seconds. -/
structure Serial (acts : List Act) : Prop where
  inOrder : acts.Pairwise fun a b => a.now ≤ b.now
  whole : ∀ mark now, .request mark now ∈ acts → ∃ k, now = k * second

variable (clientIP : String) (limits : String → Limit)

/-- What the limiter in memory sees of it. -/
def inMemory : Act → Option RateLimit.Act
  | .request mark now =>
    some (.request (mark ++ clientIP) (limits mark).maxRequestNum (limits mark).duration now)
  | .sweep now => some (.sweep now)
  | .expireDue _ _ => none

/-- The limiter in memory after the acts. -/
def memory (acts : List Act) : InMemoryRateLimiter :=
  Runs.after RateLimit.step (RateLimit.start rateLimitKeyExpirationDuration)
    (acts.filterMap (inMemory clientIP limits))

/-- A request on the server. -/
def onRedis (mark : String) (s : RedisServer) : Verdict × RedisServer :=
  (redisRateLimiter clientIP (limits mark).maxRequestNum (limits mark).duration mark).run redisExec s

/-- The server's clock says `now`. -/
def at' (s : RedisServer) (now : Int) : RedisServer := { s with now := now }

def redisStep (s : RedisServer) : Act → RedisServer
  | .request mark now => (onRedis clientIP limits mark (at' s now)).2
  | .sweep _ => s
  | .expireDue mark now => (redisExec (.expireDue (redisKey clientIP mark)) (at' s now)).2

/-- The server after the acts. -/
def redis (zone : Int) (acts : List Act) : RedisServer :=
  Runs.after (redisStep clientIP limits) { zone := zone } acts

/-! ### Times on the server -/

/-- A whole second as the server holds it. -/
def stamp (zone k : Int) : Int := k * 1000 + zone / millisecond

theorem formatTime_whole (zone k : Int) : formatTime zone (k * second) = stamp zone k := by
  have hsplit : k * second + zone = zone + k * 1000 * millisecond := by
    unfold second millisecond
    omega
  have hpos : millisecond ≠ 0 := by decide
  rw [formatTime, hsplit, Int.add_mul_ediv_right _ _ hpos, stamp]
  omega

theorem elapsed_stamp (zone k l : Int) : elapsed (stamp zone l) (stamp zone k) = k - l := by
  have hsub : stamp zone k - stamp zone l = (k - l) * 1000 := by
    unfold stamp
    omega
  rw [elapsed, hsub, Int.mul_tdiv_cancel _ (by decide)]

/-! ### A request on the server -/

/-- **The server holds the newest of the times**, and keeps them until the last
of them is as old as the expiration. -/
structure Mirrors (zone : Int) (n : Nat) (cutoff : Int) (times : List Int) (s : RedisServer)
    (key : String) : Prop where
  newest : ∃ queue, Remembers n cutoff times queue ∧
    (s.list key).entries = (queue.map (stamp zone)).reverse
  kept : ∀ d, (s.list key).deadline = some d →
    ∀ t ∈ times, t * second + rateLimitKeyExpirationDuration ≤ d

theorem Mirrors.later {zone cutoff cutoff' : Int} {n : Nat} {times : List Int} {s : RedisServer}
    {key : String} (h : Mirrors zone n cutoff times s key) (hle : cutoff ≤ cutoff') :
    Mirrors zone n cutoff' times s key := by
  obtain ⟨queue, hremembers, hentries⟩ := h.newest
  exact ⟨⟨queue, hremembers.later hle, hentries⟩, h.kept⟩

section Request

variable {n : Nat} {zone duration cutoff k : Int} {times : List Int} {s : RedisServer}
variable {mark : String}

/-- The deadline that a request sets is late enough for all. -/
theorem kept_expire {key : String} {d : Int}
    (hd : ((s.expire key rateLimitKeyExpirationDuration).list key).deadline = some d)
    (hclock : s.now = k * second) (hnow : ∀ t ∈ times, t ≤ k) :
    ∀ t ∈ times, t * second + rateLimitKeyExpirationDuration ≤ d := by
  intro t ht
  have hle := hnow t ht
  rw [RedisServer.deadline_expire hd, hclock]
  unfold second
  omega

/-- **A request on the server decides by the window**, and is held when it passes. -/
theorem redis_passes (hn : 1 ≤ n) (hclock : s.now = k * second) (hzone : s.zone = zone)
    (hcutoff : cutoff ≤ k - duration) (hnow : ∀ t ∈ times, t ≤ k)
    (h : Mirrors zone n cutoff times s (redisKey clientIP mark)) :
    ((redisRateLimiter clientIP n duration mark).run redisExec s).1
        = (if Passes n duration k times then .next else .abort statusTooManyRequests) ∧
      Mirrors zone n cutoff (times ++ if Passes n duration k times then [k] else [])
        ((redisRateLimiter clientIP n duration mark).run redisExec s).2
        (redisKey clientIP mark) := by
  obtain ⟨queue, hremembers, hentries⟩ := h.newest
  have hwindow := passes_iff (hremembers.later hcutoff)
  have hformat : formatTime s.zone s.now = stamp zone k := by
    rw [hclock, hzone, formatTime_whole]
  have hlength : (s.list (redisKey clientIP mark)).entries.length = queue.length := by
    rw [hentries, List.length_reverse, List.length_map]
  have hnow' : ∀ t ∈ times ++ [k], t ≤ k := by
    intro t ht
    rcases List.mem_append.mp ht with ht | ht
    · exact hnow t ht
    · exact le_of_eq (List.mem_singleton.mp ht)
  by_cases hshort : queue.length < n
  · have hpasses : Passes n duration k times := hwindow.mpr (Or.inl hshort)
    rw [run_redisRateLimiter_short (by rw [hlength]; exact hshort), if_pos hpasses, if_pos hpasses]
    refine ⟨rfl, ⟨queue ++ [k], hremembers.append hnow hshort, ?_⟩, ?_⟩
    · rw [RedisServer.entries_expire, RedisServer.entries_push, hentries, hformat]
      simp
    · exact fun d hd => kept_expire hd hclock hnow'
  · have hfull : queue.length = n := le_antisymm hremembers.length (not_lt.mp hshort)
    have hnot : ¬ (s.list (redisKey clientIP mark)).entries.length < n := by
      rw [hlength]
      exact hshort
    cases queue with
    | nil =>
      simp at hfull
      omega
    | cons oldest newer =>
      have hlast : (s.list (redisKey clientIP mark)).entries.getLast? = some (stamp zone oldest) := by
        rw [hentries]
        simp
      have hdecides := passes_iff_of_full (hremembers.later hcutoff) hfull
      have helapsed : elapsed (stamp zone oldest) (formatTime s.zone s.now) = k - oldest := by
        rw [hformat, elapsed_stamp]
      by_cases hlate : duration ≤ k - oldest
      · have hpasses : Passes n duration k times := hdecides.mpr hlate
        have hrun : ¬ elapsed (stamp zone oldest) (formatTime s.zone s.now) < duration := by
          omega
        rw [run_redisRateLimiter_late hnot hlast hrun, if_pos hpasses, if_pos hpasses]
        refine ⟨rfl, ⟨newer ++ [k], hremembers.shift hnow hfull, ?_⟩, ?_⟩
        · rw [RedisServer.entries_expire, RedisServer.entries_trim _ _ hn, RedisServer.entries_push,
            hentries, hformat]
          have hnewer : n = newer.length + 1 := hfull.symm
          simp [hnewer]
        · exact fun d hd => kept_expire hd hclock hnow'
      · have hpasses : ¬ Passes n duration k times := fun hp => hlate (hdecides.mp hp)
        have hrun : elapsed (stamp zone oldest) (formatTime s.zone s.now) < duration := by
          omega
        rw [run_redisRateLimiter_early hnot hlast hrun, if_neg hpasses, if_neg hpasses,
          List.append_nil]
        refine ⟨rfl, ⟨oldest :: newer, hremembers, ?_⟩, ?_⟩
        · rw [RedisServer.entries_expire, hentries]
        · exact fun d hd => kept_expire hd hclock hnow

end Request

/-! ### Runs -/

variable {limits}

theorem Serial.of_snoc {acts : List Act} {a : Act} (h : Serial (acts ++ [a])) : Serial acts :=
  ⟨(List.pairwise_append.mp h.inOrder).1, fun mark now hm => h.whole mark now (by simp [hm])⟩

theorem Serial.le_last {acts : List Act} {a b : Act} (h : Serial (acts ++ [a])) (hb : b ∈ acts) :
    b.now ≤ a.now := (List.pairwise_append.mp h.inOrder).2.2 b hb a (by simp)

theorem now_inMemory {a : Act} {b : RateLimit.Act} (h : inMemory clientIP limits a = some b) :
    b.now = a.now := by
  cases a with
  | request mark now =>
    obtain rfl := Option.some.inj h
    rfl
  | sweep now =>
    obtain rfl := Option.some.inj h
    rfl
  | expireDue mark now => exact nomatch h

/-- The limiter in memory sees what it may expect. -/
theorem proper_inMemory (hlimits : ∀ mark, (limits mark).Valid) {acts : List Act}
    (h : Serial acts) (mark : String) :
    RateLimit.Proper rateLimitKeyExpirationDuration (mark ++ clientIP) (limits mark).maxRequestNum
      (acts.filterMap (inMemory clientIP limits)) := by
  constructor
  · rw [List.pairwise_filterMap]
    refine h.inOrder.imp ?_
    intro a b hab x hx y hy
    rw [now_inMemory clientIP hx, now_inMemory clientIP hy]
    exact hab
  · intro m duration now hmem
    obtain ⟨a, -, ha⟩ := List.mem_filterMap.mp hmem
    cases a with
    | request mark' now' =>
      simp only [inMemory, Option.some.injEq, RateLimit.Act.request.injEq,
        String.append_left_inj] at ha
      obtain ⟨rfl, rfl, rfl, rfl⟩ := ha
      exact ⟨rfl, (hlimits mark').2⟩
    | sweep now' => simp [inMemory] at ha
    | expireDue mark' now' => simp [inMemory] at ha

theorem le_inMemory {acts : List Act} {now : Int} (h : ∀ a ∈ acts, a.now ≤ now) :
    ∀ b ∈ acts.filterMap (inMemory clientIP limits), b.now ≤ now := by
  intro b hb
  obtain ⟨a, ha, hab⟩ := List.mem_filterMap.mp hb
  rw [now_inMemory clientIP hab]
  exact h a ha

variable (limits) in
/-- The requests of a mark that passed in memory. -/
def passed (mark : String) (acts : List Act) : List Int :=
  RateLimit.accepted (mark ++ clientIP) (RateLimit.start rateLimitKeyExpirationDuration)
    (acts.filterMap (inMemory clientIP limits))

theorem passed_le {mark : String} {acts : List Act} {now : Int} (h : ∀ a ∈ acts, a.now ≤ now) :
    ∀ t ∈ passed clientIP limits mark acts, t ≤ unix now :=
  RateLimit.accepted_le _ _ (le_inMemory clientIP h)

/-- **In memory a request decides by the window.** -/
theorem memory_passes (hlimits : ∀ mark, (limits mark).Valid) {acts : List Act} {mark : String}
    {now : Int} (h : Serial (acts ++ [.request mark now])) :
    ((memory clientIP limits acts).request (mark ++ clientIP) (limits mark).maxRequestNum
        (limits mark).duration now).1 = true ↔
      Passes (limits mark).maxRequestNum (limits mark).duration (unix now)
        (passed clientIP limits mark acts) := by
  have hbefore : ∀ a ∈ acts, a.now ≤ now := fun a ha => h.le_last ha
  have hremembers := RateLimit.remembers_accepted (hlimits mark).1
    (proper_inMemory clientIP hlimits h.of_snoc mark) (le_inMemory clientIP hbefore)
  have hcutoff : unix now - rateLimitKeyExpirationDuration.tdiv second
      ≤ unix now - (limits mark).duration := by
    have hle := (hlimits mark).2.2
    omega
  exact (RateLimit.request_passes (hlimits mark).1 hcutoff (passed_le clientIP hbefore) hremembers).1

theorem passed_snoc (mark : String) (acts : List Act) (a : Act) :
    passed clientIP limits mark (acts ++ [a]) = passed clientIP limits mark acts ++
      ((inMemory clientIP limits a).map
        (RateLimit.granted (mark ++ clientIP) (memory clientIP limits acts))).getD [] := by
  unfold passed
  rw [List.filterMap_append]
  cases h : inMemory clientIP limits a with
  | none => simp [h]
  | some b => simp [h, RateLimit.accepted_snoc, memory]

theorem redis_snoc (zone : Int) (acts : List Act) (a : Act) :
    redis clientIP limits zone (acts ++ [a])
      = redisStep clientIP limits (redis clientIP limits zone acts) a :=
  Runs.after_snoc _ _ acts a

theorem zone_redis (zone : Int) (acts : List Act) : (redis clientIP limits zone acts).zone = zone := by
  have hstep : ∀ (s : RedisServer) (a : Act), s.zone = zone →
      (redisStep clientIP limits s a).zone = zone := by
    intro s a hs
    cases a with
    | request mark now => exact (run_redisRateLimiter_others _ _ _ _ _).1.trans hs
    | sweep now => exact hs
    | expireDue mark now =>
      simp only [redisStep, redisExec]
      split
      · exact hs
      · exact hs
  exact Runs.invariant (I := fun s : RedisServer => s.zone = zone) rfl hstep acts

theorem redisKey_inj {mark mark' : String} : redisKey clientIP mark = redisKey clientIP mark' ↔
    mark = mark' := by
  simp [redisKey, String.append_right_inj, String.append_left_inj]

/-- What is not done to the key leaves it as it mirrors. -/
theorem Mirrors.congr {zone cutoff : Int} {n : Nat} {times : List Int} {s s' : RedisServer}
    {key : String} (h : Mirrors zone n cutoff times s key) (hlist : s'.list key = s.list key) :
    Mirrors zone n cutoff times s' key := by
  obtain ⟨queue, hremembers, hentries⟩ := h.newest
  refine ⟨⟨queue, hremembers, ?_⟩, ?_⟩
  · rw [hlist]
    exact hentries
  · rw [hlist]
    exact h.kept

/-- **A key that is due can be dropped.** -/
theorem Mirrors.expired {zone cutoff : Int} {n : Nat} {times : List Int} {s : RedisServer}
    {key : String} (h : Mirrors zone n cutoff times s key) (hdue : s.Due key) :
    Mirrors zone n (unix s.now - rateLimitKeyExpirationDuration.tdiv second) times (s.put key {})
      key := by
  obtain ⟨queue, hremembers, -⟩ := h.newest
  obtain ⟨d, hd, hnow⟩ := hdue
  refine ⟨⟨[], hremembers.drop ?_, ?_⟩, ?_⟩
  · intro t ht
    have hkept := h.kept d hd t ht
    have hunix := lt_unix s.now
    have hseconds : rateLimitKeyExpirationDuration = 1200 * second := by decide
    have hwhole : (1200 * second).tdiv second = 1200 := by decide
    rw [hseconds] at hkept
    rw [hseconds, hwhole]
    unfold second at hkept hunix
    omega
  · simp
  · intro d' hd'
    exact nomatch RedisServer.deadline_put hd'

/-- **Both remember the same requests.** -/
theorem mirrors_passed (hlimits : ∀ mark, (limits mark).Valid) (zone : Int) {acts : List Act}
    (h : Serial acts) (mark : String) {now : Int} (hnow : ∀ a ∈ acts, a.now ≤ now) :
    Mirrors zone (limits mark).maxRequestNum
      (unix now - rateLimitKeyExpirationDuration.tdiv second) (passed clientIP limits mark acts)
      (redis clientIP limits zone acts) (redisKey clientIP mark) := by
  induction acts using List.reverseRecOn generalizing now with
  | nil => exact ⟨⟨[], remembers_nil, rfl⟩, fun d hd => nomatch hd⟩
  | append_singleton acts a ih =>
    have hbefore : ∀ b ∈ acts, b.now ≤ a.now := fun b hb => h.le_last hb
    have hclock : unix a.now ≤ unix now := unix_mono (hnow a (by simp))
    have hmirrors := ih h.of_snoc hbefore
    rw [passed_snoc, redis_snoc]
    refine Mirrors.later ?_ (Int.sub_le_sub_right hclock _)
    cases a with
    | request mark' now' =>
      obtain ⟨k, rfl⟩ := h.whole mark' now' (by simp)
      by_cases hmark : mark' = mark
      · subst hmark
        have hpasses := memory_passes clientIP hlimits h
        have hgranted : (inMemory clientIP limits (.request mark' (k * second))).map
            (RateLimit.granted (mark' ++ clientIP) (memory clientIP limits acts))
              = some (if Passes (limits mark').maxRequestNum (limits mark').duration k
                  (passed clientIP limits mark' acts) then [k] else []) := by
          rw [unix_whole] at hpasses
          simp [inMemory, RateLimit.granted, hpasses, unix_whole]
        rw [hgranted, Option.getD_some]
        have hle := (hlimits mark').2.2
        have hcutoff : unix (k * second) - rateLimitKeyExpirationDuration.tdiv second
            ≤ k - (limits mark').duration := by
          rw [unix_whole]
          omega
        have hold : ∀ t ∈ passed clientIP limits mark' acts, t ≤ k := by
          have hle' : ∀ t ∈ passed clientIP limits mark' acts, t ≤ unix (k * second) :=
            passed_le clientIP hbefore
          rw [unix_whole] at hle'
          exact hle'
        exact (redis_passes clientIP (hlimits mark').1 (s := at' _ (k * second)) rfl
          (zone_redis clientIP zone acts) hcutoff hold (hmirrors.congr rfl)).2
      · have hgranted : (inMemory clientIP limits (.request mark' (k * second))).map
            (RateLimit.granted (mark ++ clientIP) (memory clientIP limits acts)) = some [] := by
          simp [inMemory, RateLimit.granted, String.append_left_inj, hmark]
        rw [hgranted, Option.getD_some, List.append_nil]
        apply hmirrors.congr
        have hkey : redisKey clientIP mark ≠ redisKey clientIP mark' :=
          fun he => hmark ((redisKey_inj clientIP).mp he).symm
        exact (run_redisRateLimiter_others _ _ _ _ _).2 _ hkey
    | sweep now' => simpa [inMemory, RateLimit.granted, redisStep] using hmirrors
    | expireDue mark' now' =>
      simp only [inMemory, Option.map_none, Option.getD_none, List.append_nil, redisStep, redisExec]
      split
      · rename_i hdue
        by_cases hmark : mark' = mark
        · subst hmark
          exact Mirrors.expired (s := at' _ now') (hmirrors.congr rfl) hdue
        · apply hmirrors.congr
          have hkey : redisKey clientIP mark ≠ redisKey clientIP mark' :=
            fun he => hmark ((redisKey_inj clientIP).mp he).symm
          exact RedisServer.list_put_of_ne _ _ hkey
      · exact hmirrors.congr rfl

/-- **The two limiters agree**: after the same acts both let a request of the
client pass, or both answer that there are too many. -/
theorem redis_eq_memory (clientIP : String) {limits : String → Limit}
    (hlimits : ∀ mark, (limits mark).Valid) (zone : Int) {acts : List Act} {mark : String}
    {now : Int} (h : Serial (acts ++ [.request mark now])) :
    (onRedis clientIP limits mark (at' (redis clientIP limits zone acts) now)).1
      = (memoryRateLimiter (memory clientIP limits acts) clientIP (limits mark).maxRequestNum
          (limits mark).duration mark now).1 := by
  obtain ⟨k, rfl⟩ := h.whole mark now (by simp)
  have hbefore : ∀ a ∈ acts, a.now ≤ k * second := fun a ha => h.le_last ha
  have hmemory := memory_passes clientIP hlimits h
  have hmirrors := mirrors_passed clientIP hlimits zone h.of_snoc mark hbefore
  have hold : ∀ t ∈ passed clientIP limits mark acts, t ≤ unix (k * second) :=
    passed_le clientIP hbefore
  rw [unix_whole] at hmemory hmirrors hold
  have hcutoff : k - rateLimitKeyExpirationDuration.tdiv second ≤ k - (limits mark).duration := by
    have hle := (hlimits mark).2.2
    omega
  have hredis := (redis_passes clientIP (hlimits mark).1 (s := at' _ (k * second)) rfl
    (zone_redis clientIP zone acts) hcutoff hold (hmirrors.congr rfl)).1
  unfold onRedis memoryRateLimiter
  rw [hredis]
  simp only [hmemory]

/-- Two requests a minute on either side: the third waits until the first has
left the window. -/
theorem third_request_agrees :
    (onRedis "::1" (fun _ => ⟨2, 60⟩) "CT" (at' (redis "::1" (fun _ => ⟨2, 60⟩) 0
      [.request "CT" 0, .request "CT" (30 * second), .request "CT" (59 * second),
        .sweep (59 * second), .expireDue "CT" (59 * second)]) (60 * second))).1
      = (memoryRateLimiter (memory "::1" (fun _ => ⟨2, 60⟩)
          [.request "CT" 0, .request "CT" (30 * second), .request "CT" (59 * second),
            .sweep (59 * second), .expireDue "CT" (59 * second)]) "::1" 2 60 "CT"
              (60 * second)).1 := by
  refine redis_eq_memory "::1" (fun _ => ⟨by decide, by decide, by decide⟩) 0 ⟨by decide, ?_⟩
  intro mark now hmem
  have hnow : now = 0 * second ∨ now = 30 * second ∨ now = 59 * second ∨ now = 60 * second := by
    simp only [List.cons_append, List.nil_append, List.mem_cons, Act.request.injEq, reduceCtorEq,
      List.not_mem_nil, or_false, false_or] at hmem
    omega
  rcases hnow with rfl | rfl | rfl | rfl <;> exact ⟨_, rfl⟩

end AuthGateway.RateLimitBackends
