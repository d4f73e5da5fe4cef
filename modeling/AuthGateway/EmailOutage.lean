import AuthGateway.Lib.Runs
import AuthGateway.Middleware.EmailVerification

/-!
# The e-mail limit when Redis fails

Requests of any clients, one at a time, meet `EmailVerificationRateLimit` with
Redis enabled, and any of their commands may fail, with or without its effect.

* An `INCR` that fails sends the request to the limiter in memory, which nobody
  has called `Init` on: the request panics.
* An `EXPIRE` that is not performed leaves a counter that never goes away.

`Survives`: every request is let through or told to wait, and one that comes after
`EmailVerificationDuration` seconds of silence is let through.  **A run survives
exactly when it is `Lasting`** (`survives_iff`): no `INCR` fails, and no request
after a silence finds a counter with two requests or more whose `EXPIRE` was lost,
or whose very last millisecond it is.
-/

namespace AuthGateway.EmailOutage

open Common Middleware

/-! ### Runs -/

structure Act where
  clientIP : String
  /-- In nanoseconds. -/
  now : Int
  faults : Faults := {}

def respond (g : Limiters) (a : Act) : Outcome × Limiters :=
  emailVerificationRateLimit true a.faults a.clientIP a.now g

def step (g : Limiters) (a : Act) : Limiters := (respond g a).2

/-- A process that has just started. -/
def after (acts : List Act) : Limiters := Runs.after step {} acts

def InOrder (acts : List Act) : Prop := acts.Pairwise fun a b => a.now ≤ b.now

theorem InOrder.before {acts pre post : List Act} {a : Act} (h : InOrder acts)
    (hsplit : acts = pre ++ a :: post) : ∀ b ∈ pre, b.now ≤ a.now := by
  intro b hb
  rw [InOrder, hsplit] at h
  exact (List.pairwise_append.mp h).2.2 b hb a List.mem_cons_self

/-- The client has sent nothing for `EmailVerificationDuration` seconds. -/
def Silent (pre : List Act) (a : Act) : Prop :=
  ∀ b ∈ pre, b.clientIP = a.clientIP → b.now + emailVerificationDuration * second ≤ a.now

/-! ### The property and the condition -/

/-- **Whatever fails, every request is let through or told that there are too
many, and after a silence it is let through.** -/
def Survives (acts : List Act) : Prop :=
  Runs.Always (fun pre a =>
    ((respond (after pre) a).1 = .next ∨
      ∃ message, (respond (after pre) a).1 = .abort statusTooManyRequests message) ∧
    (Silent pre a → (respond (after pre) a).1 = .next)) acts

/-- The request finds no counter of its client. -/
def Opens (pre : List Act) (a : Act) : Prop := (after pre).met a.clientIP a.now = none

/-- The counter that `o` began does not outlast it: its `EXPIRE` is performed, and
its last millisecond is not that of `a`. -/
def Gone (o a : Act) : Prop :=
  o.faults.Expires ∧ a.now / millisecond ≠ o.now / millisecond + emailVerificationDuration * 1000

/-- **No `INCR` fails, and a counter that has seen two requests is gone when its
client comes back after a silence.** -/
structure Lasting (acts : List Act) : Prop where
  answered : ∀ a ∈ acts, a.faults.incr = none
  gone : Runs.Always (fun pre a => Silent pre a → ∀ before o mid, pre = before ++ o :: mid →
    o.clientIP = a.clientIP → Opens before o → (∃ b ∈ mid, b.clientIP = a.clientIP) → Gone o a) acts

/-! ### Nobody initialises the limiter in memory -/

theorem limiter_none (acts : List Act) : (after acts).limiter = none := by
  refine Runs.invariant (I := fun g : Limiters => g.limiter = none) rfl ?_ acts
  intro g a hg
  show (redisEmailVerificationRateLimiter a.faults a.clientIP a.now g).2.limiter = none
  cases hincr : a.faults.incr with
  | some f => exact (redis_panics hincr a.clientIP a.now hg).2
  | none =>
    cases hmet : g.met a.clientIP a.now with
    | none => exact (redis_opens hincr _ _ g hmet).2.1.trans hg
    | some c => exact (redis_counts hincr _ _ g hmet).2.1.trans hg

/-- **A request whose `INCR` fails panics.** -/
theorem panics_of_failed (acts : List Act) {a : Act} {f : Outage} (h : a.faults.incr = some f) :
    (respond (after acts) a).1 = .panicked :=
  (redis_panics h a.clientIP a.now (limiter_none acts)).1

/-! ### The counter of a client -/

/-- The counter that `o` began: it has been increased since by the requests `mid`
of the client, and expires if the `EXPIRE` of `o` was performed. -/
structure Began (clientIP : String) (before : List Act) (o : Act) (mid : List Act) (c : Counter) :
    Prop where
  client : o.clientIP = clientIP
  opens : Opens before o
  value : c.value = 1 + mid.countP fun b => b.clientIP == clientIP
  deadline : c.deadline = if o.faults.Expires then
    some (o.now / millisecond + emailVerificationDuration * 1000) else none

/-- The counter that was there before `o` is gone. -/
def Over (o' o : Act) : Prop :=
  o'.faults.Expires ∧
    o'.now / millisecond + emailVerificationDuration * 1000 < o.now / millisecond

/-- **The counter after a run**: none without a request, or one that the last
request to find none began; all that were there before are over. -/
def Counted (clientIP : String) (acts : List Act) : Prop :=
  ((∀ a ∈ acts, a.clientIP ≠ clientIP) ∧
      (after acts).server.counters (emailRedisKey clientIP) = none) ∨
    ∃ before o mid c, acts = before ++ o :: mid ∧
      (after acts).server.counters (emailRedisKey clientIP) = some c ∧
      Began clientIP before o mid c ∧
      ∀ before' o' mid', acts = before' ++ o' :: mid' → o'.clientIP = clientIP →
        Opens before' o' → before' = before ∨ Over o' o

theorem met_eq_some {g : Limiters} {clientIP : String} {now : Int} {c : Counter} :
    g.met clientIP now = some c ↔ g.server.counters (emailRedisKey clientIP) = some c ∧
      ∀ d, c.deadline = some d → now / millisecond ≤ d := by
  unfold Limiters.met CounterServer.counter
  rw [Option.filter_eq_some_iff]
  refine and_congr_right fun _ => ?_
  cases c.deadline with
  | none => simp
  | some d =>
    simp only [Option.all_some, decide_eq_true_eq, Option.some.injEq, forall_eq']
    exact Iff.rfl

/-- Other clients leave the counter alone. -/
theorem counters_other {clientIP : String} (acts : List Act) {a : Act}
    (hincr : a.faults.incr = none) (h : a.clientIP ≠ clientIP) :
    (after (acts ++ [a])).server.counters (emailRedisKey clientIP)
      = (after acts).server.counters (emailRedisKey clientIP) := by
  have hne : emailRedisKey clientIP ≠ emailRedisKey a.clientIP := redisKey_ne (Ne.symm h)
  have hafter : after (acts ++ [a])
      = (redisEmailVerificationRateLimiter a.faults a.clientIP a.now (after acts)).2 :=
    Runs.after_snoc _ _ acts a
  rw [hafter]
  cases hmet : (after acts).met a.clientIP a.now with
  | none => rw [(redis_opens hincr _ _ _ hmet).2.2, Function.update_of_ne hne]
  | some c => rw [(redis_counts hincr _ _ _ hmet).2.2, Function.update_of_ne hne]

theorem counters_own (acts : List Act) {a : Act} (hincr : a.faults.incr = none) :
    (after (acts ++ [a])).server.counters (emailRedisKey a.clientIP)
      = some (left a.faults a.now ((after acts).met a.clientIP a.now)) := by
  have hafter : after (acts ++ [a])
      = (redisEmailVerificationRateLimiter a.faults a.clientIP a.now (after acts)).2 :=
    Runs.after_snoc _ _ acts a
  rw [hafter]
  cases hmet : (after acts).met a.clientIP a.now with
  | none => rw [(redis_opens hincr _ _ _ hmet).2.2, Function.update_self]
  | some c => rw [(redis_counts hincr _ _ _ hmet).2.2, Function.update_self]

/-- A counter that is not found any more has expired. -/
theorem Began.over {clientIP : String} {before mid : List Act} {o a : Act} {c : Counter}
    {g : Limiters} (h : Began clientIP before o mid c)
    (hc : g.server.counters (emailRedisKey clientIP) = some c)
    (hmet : g.met clientIP a.now = none) : Over o a := by
  by_contra hover
  refine absurd (met_eq_some.mpr ⟨hc, fun d hd => ?_⟩) (by rw [hmet]; simp : ¬ g.met clientIP a.now = some c)
  rw [h.deadline] at hd
  by_cases hexpires : o.faults.Expires
  · rw [if_pos hexpires, Option.some.injEq] at hd
    by_contra hlate
    exact hover ⟨hexpires, by omega⟩
  · rw [if_neg hexpires] at hd
    cases hd

theorem counted_snoc {clientIP : String} {acts : List Act} {a : Act}
    (hincr : a.faults.incr = none) (h : Counted clientIP acts) : Counted clientIP (acts ++ [a]) := by
  by_cases hclient : a.clientIP = clientIP
  · subst hclient
    have hcounters := counters_own acts hincr
    cases hmet : (after acts).met a.clientIP a.now with
    | none =>
      -- a new counter; whichever was there is over
      rw [hmet] at hcounters
      refine Or.inr ⟨acts, a, [], _, rfl, hcounters, ⟨rfl, hmet, rfl, rfl⟩, ?_⟩
      intro before' o' mid' hsplit hown hopens
      rcases Runs.eq_snoc_split hsplit with ⟨rfl, -, -⟩ | ⟨rest, -, hbefore⟩
      · exact Or.inl rfl
      · rcases h with ⟨hnobody, -⟩ | ⟨before, o, mid, c, hacts, hc, hbegan, hothers⟩
        · exact absurd hown (hnobody o' (by rw [hbefore]; simp))
        · have hover : Over o a := hbegan.over hc hmet
          rcases hothers before' o' rest hbefore hown hopens with rfl | hearlier
          · have hsame := List.append_cancel_left (hacts.symm.trans hbefore)
            obtain rfl : o = o' := (List.cons.inj hsame).1
            exact Or.inr hover
          · exact Or.inr ⟨hearlier.1, by
              have h₁ := hearlier.2
              have h₂ := hover.2
              simp only [emailVerificationDuration] at h₁ h₂ ⊢
              omega⟩
    | some c =>
      rw [hmet] at hcounters
      have hc := (met_eq_some.mp hmet).1
      rcases h with ⟨-, hnone⟩ | ⟨before, o, mid, c', hacts, hc', hbegan, hothers⟩
      · rw [hnone] at hc
        cases hc
      · obtain rfl : c = c' := Option.some.inj (hc.symm.trans hc')
        refine Or.inr ⟨before, o, mid ++ [a], _, by rw [hacts]; simp, hcounters,
          ⟨hbegan.client, hbegan.opens, ?_, hbegan.deadline⟩, ?_⟩
        · show c.value + 1 = _
          rw [hbegan.value, List.countP_append]
          simp
          omega
        · intro before' o' mid' hsplit hown hopens
          rcases Runs.eq_snoc_split hsplit with ⟨rfl, rfl, -⟩ | ⟨rest, -, hbefore⟩
          · unfold Opens at hopens
            rw [hmet] at hopens
            cases hopens
          · exact hothers before' o' rest hbefore hown hopens
  · have hsame := counters_other acts hincr hclient
    rcases h with ⟨hnobody, hnone⟩ | ⟨before, o, mid, c, hacts, hc, hbegan, hothers⟩
    · refine Or.inl ⟨?_, hsame.trans hnone⟩
      intro b hb
      rcases List.mem_append.mp hb with hb | hb
      · exact hnobody b hb
      · rw [List.mem_singleton.mp hb]
        exact hclient
    · refine Or.inr ⟨before, o, mid ++ [a], c, by rw [hacts]; simp, hsame.trans hc,
        ⟨hbegan.client, hbegan.opens, ?_, hbegan.deadline⟩, ?_⟩
      · rw [hbegan.value, List.countP_append]
        simp [hclient]
      · intro before' o' mid' hsplit hown hopens
        rcases Runs.eq_snoc_split hsplit with ⟨-, rfl, -⟩ | ⟨rest, -, hbefore⟩
        · exact absurd hown hclient
        · exact hothers before' o' rest hbefore hown hopens

theorem counted {acts : List Act} (h : ∀ a ∈ acts, a.faults.incr = none) (clientIP : String) :
    Counted clientIP acts := by
  induction acts using List.reverseRecOn with
  | nil => exact Or.inl ⟨(fun a ha => nomatch ha), rfl⟩
  | append_singleton acts a ih =>
    exact counted_snoc (h a (by simp)) (ih fun b hb => h b (by simp [hb]))

/-! ### One request -/

theorem next_iff {pre : List Act} {a : Act} (hincr : a.faults.incr = none) :
    (respond (after pre) a).1 = .next ↔
      ∀ c, (after pre).met a.clientIP a.now = some c → c.value < emailVerificationMaxRequests := by
  cases hmet : (after pre).met a.clientIP a.now with
  | none => exact ⟨(fun _ c hc => nomatch hc), fun _ => (redis_opens hincr _ _ _ hmet).1⟩
  | some c =>
    refine (redis_counts hincr _ _ _ hmet).1.trans ⟨fun h c' hc' => ?_, fun h => h c rfl⟩
    rw [← Option.some.inj hc']
    exact h

/-- A request whose `INCR` is answered is let through or told that there are too many. -/
theorem answers {pre : List Act} {a : Act} (hincr : a.faults.incr = none) :
    (respond (after pre) a).1 = .next ∨
      ∃ message, (respond (after pre) a).1 = .abort statusTooManyRequests message :=
  redis_answers hincr a.clientIP a.now (after pre)

theorem millisecond_mono {t t' : Int} (h : t ≤ t') : t / millisecond ≤ t' / millisecond :=
  Int.ediv_le_ediv (by decide) h

/-- After a silence the counter's thirty seconds have passed, in milliseconds. -/
theorem silence_over {o a : Act} (h : o.now + emailVerificationDuration * second ≤ a.now) :
    o.now / millisecond + emailVerificationDuration * 1000 ≤ a.now / millisecond := by
  have hsplit : o.now + emailVerificationDuration * second
      = o.now + emailVerificationDuration * 1000 * millisecond := by
    unfold emailVerificationDuration second millisecond
    omega
  have hle := millisecond_mono h
  rw [hsplit, Int.add_mul_ediv_right _ _ (by decide)] at hle
  exact hle

/-- **After a silence**, with every `INCR` answered, a request is let through
exactly when the counters that have seen two requests are gone. -/
theorem next_after_silence {pre : List Act} {a : Act} (hpre : ∀ b ∈ pre, b.faults.incr = none)
    (hincr : a.faults.incr = none) (horder : ∀ b ∈ pre, b.now ≤ a.now) (hsilent : Silent pre a) :
    (respond (after pre) a).1 = .next ↔ ∀ before o mid, pre = before ++ o :: mid →
      o.clientIP = a.clientIP → Opens before o → (∃ b ∈ mid, b.clientIP = a.clientIP) →
        Gone o a := by
  rw [next_iff hincr]
  rcases counted hpre a.clientIP with ⟨hnobody, hnone⟩ | ⟨before, o, mid, c, hsplit, hc, hbegan, hothers⟩
  · constructor
    · intro _ before o mid hsplit hown _ _
      exact absurd hown (hnobody o (by rw [hsplit]; simp))
    · intro _ c hmet
      rw [(met_eq_some.mp hmet).1] at hnone
      cases hnone
  · have ho : o ∈ pre := by
      rw [hsplit]
      simp
    have hlate := silence_over (hsilent o ho hbegan.client)
    constructor
    · intro hnext before' o' mid' hsplit' hown hopens hmore
      rcases hothers before' o' mid' hsplit' hown hopens with rfl | hover
      · -- the counter that is there has seen two
        have hsame := List.append_cancel_left (hsplit.symm.trans hsplit')
        obtain ⟨rfl, rfl⟩ := List.cons.inj hsame
        have htwo : 2 ≤ c.value := by
          have hpos : 0 < mid.countP fun b => b.clientIP == a.clientIP := by
            obtain ⟨b, hb, hclient⟩ := hmore
            exact List.countP_pos_iff.mpr ⟨b, hb, by simp [hclient]⟩
          rw [hbegan.value]
          omega
        have hmet : (after pre).met a.clientIP a.now = none := by
          cases hmet : (after pre).met a.clientIP a.now with
          | none => rfl
          | some c' =>
            obtain rfl : c = c' := Option.some.inj (hc.symm.trans (met_eq_some.mp hmet).1)
            have hlow := hnext c hmet
            simp only [emailVerificationMaxRequests] at hlow
            omega
        have hover : Over o a := hbegan.over hc hmet
        have hless := hover.2
        exact ⟨hover.1, by omega⟩
      · have hmono := millisecond_mono (horder o ho)
        have hless := hover.2
        exact ⟨hover.1, by omega⟩
    · intro hgone c' hmet
      obtain ⟨hc', hlive⟩ := met_eq_some.mp hmet
      obtain rfl : c = c' := Option.some.inj (hc.symm.trans hc')
      by_cases hmore : ∃ b ∈ mid, b.clientIP = a.clientIP
      · obtain ⟨hexpires, hne⟩ := hgone before o mid hsplit hbegan.client hbegan.opens hmore
        have hdeadline := hbegan.deadline
        rw [if_pos hexpires] at hdeadline
        have hle := hlive _ hdeadline
        omega
      · have hzero : mid.countP (fun b => b.clientIP == a.clientIP) = 0 := by
          rw [List.countP_eq_zero]
          intro b hb hclient
          exact hmore ⟨b, hb, by simpa using hclient⟩
        rw [hbegan.value, hzero]
        decide

/-! ### The result -/

theorem lasting_of_survives {acts : List Act} (h : InOrder acts) (hsurvives : Survives acts) :
    Lasting acts := by
  have hanswered : ∀ a ∈ acts, a.faults.incr = none := by
    intro a ha
    obtain ⟨pre, post, hsplit⟩ := List.append_of_mem ha
    cases hincr : a.faults.incr with
    | none => rfl
    | some f =>
      have hpanics := panics_of_failed pre hincr
      rcases (hsurvives pre a post hsplit).1 with hnext | ⟨message, habort⟩
      · rw [hpanics] at hnext
        cases hnext
      · rw [hpanics] at habort
        cases habort
  refine ⟨hanswered, fun pre a post hsplit hsilent => ?_⟩
  have hpre : ∀ b ∈ pre, b.faults.incr = none := fun b hb => hanswered b (by rw [hsplit]; simp [hb])
  exact (next_after_silence hpre (hanswered a (by rw [hsplit]; simp)) (h.before hsplit)
    hsilent).mp ((hsurvives pre a post hsplit).2 hsilent)

theorem survives_of_lasting {acts : List Act} (h : InOrder acts) (hlasting : Lasting acts) :
    Survives acts := by
  intro pre a post hsplit
  have hincr : a.faults.incr = none := hlasting.answered a (by rw [hsplit]; simp)
  have hpre : ∀ b ∈ pre, b.faults.incr = none := fun b hb =>
    hlasting.answered b (by rw [hsplit]; simp [hb])
  refine ⟨answers hincr, fun hsilent => ?_⟩
  exact (next_after_silence hpre hincr (h.before hsplit) hsilent).mpr
    (hlasting.gone pre a post hsplit hsilent)

/-- **A run survives the failures of Redis exactly when it is lasting.** -/
theorem survives_iff {acts : List Act} (h : InOrder acts) : Survives acts ↔ Lasting acts :=
  ⟨lasting_of_survives h, survives_of_lasting h⟩

/-- A command that never reached the server. -/
def timedOut : Outage := ⟨.new "i/o timeout", false⟩

/-- An `INCR` that fails. -/
def incrFails : List Act := [⟨"::1", 0, { incr := some timedOut }⟩]

/-- The `EXPIRE` of the first request fails; the third comes after ninety-nine seconds. -/
def expireFails : List Act :=
  [⟨"::1", 0, { expire := some timedOut }⟩, ⟨"::1", second, {}⟩, ⟨"::1", 100 * second, {}⟩]

theorem survives_expireFails : Survives expireFails ↔ Lasting expireFails :=
  survives_iff (by unfold InOrder; decide)

/-- The one panics, and the other locks the client out. -/
theorem outages_not_survived :
    (InOrder incrFails ∧ ¬ Survives incrFails) ∧ InOrder expireFails ∧ ¬ Survives expireFails := by
  refine ⟨⟨by unfold InOrder; decide, fun h => ?_⟩, by unfold InOrder; decide, fun h => ?_⟩
  · have hfirst := (h [] _ [] rfl).1
    rw [panics_of_failed [] rfl] at hfirst
    rcases hfirst with hnext | ⟨message, habort⟩
    · cases hnext
    · cases habort
  · have hsilent : Silent [⟨"::1", 0, { expire := some timedOut }⟩, ⟨"::1", second, {}⟩]
        ⟨"::1", 100 * second, {}⟩ := by
      unfold Silent
      decide
    have hnext := (h _ _ [] rfl).2 hsilent
    revert hnext
    decide +kernel

end AuthGateway.EmailOutage
