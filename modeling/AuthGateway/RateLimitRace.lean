import Mathlib.Data.List.Nodup
import AuthGateway.Lib.SlidingWindow
import AuthGateway.Lib.Threads
import AuthGateway.Middleware.RateLimit

/-!
# Requests of one client at the same time

Any number of requests of one client under one mark go through
`redisRateLimiter`, their commands interleaved in any order, while on the server
time passes, keys expire and the zone's offset may change: these are the steps
of one more thread.

`Limited` is what the limiter is for: no interval shorter than `duration` holds
more than `maxRequestNum` admissions.  It fails, since the length of the list is
read by one command and the entry is pushed by another (`two_pass_as_one`).  It
holds in every run whose steps are all `Undisturbed`
(`limited_of_undisturbed`): between the look at the list that let a request pass
and its `LPUSH` no other request pushes, no request looks at a list that another
has pushed to and not yet trimmed, and the server does not drop a list that a
request has pushed to and not yet told to stay.
-/

namespace AuthGateway.RateLimitRace

open Common Middleware Prog SlidingWindow

variable {ι : Type}

/-! ### The system -/

/-- What befalls the server. -/
inductive Event
  | pass (d : Nat)
  | rezone (zone : Int)
  | expireDue (key : String)

def Event.op : Event → RedisOp
  | pass d => .pass d
  | rezone zone => .rezone zone
  | expireDue key => .expireDue key

/-- The server's own steps, in order. -/
def world : List Event → RedisM (Option Verdict)
  | [] => return none
  | e :: events => do
    let _ ← rdb e.op
    world events

/-- The limiter of one client and one mark. -/
structure Limiter where
  clientIP : String
  mark : String
  maxRequestNum : Nat
  duration : Int

abbrev Limiter.key (m : Limiter) : String := redisKey m.clientIP m.mark

/-- A request; what the middleware makes of it. -/
def Limiter.request (m : Limiter) : RedisM (Option Verdict) := do
  let verdict ← redisRateLimiter m.clientIP m.maxRequestNum m.duration m.mark
  return some verdict

abbrev System (ι : Type) := Prog.Config RedisOp RedisOp.Ans (Option Verdict) RedisServer (Option ι)

/-- The requests before their first command, and a server that knows nothing. -/
def start (ι : Type) (m : Limiter) (events : List Event) (now zone : Int) : System ι where
  threads
    | none => world events
    | some _ => m.request
  store := { now := now, zone := zone }

variable [DecidableEq ι]

/-! ### What is promised -/

/-- The request has been let through. -/
def Admitted (c : System ι) (sched : List (Option ι)) (i : ι) : Prop :=
  (play redisExec c sched).threads (some i) = ret (some .next)

/-- `stamp` is the time, in milliseconds, that the request gave the list. -/
def Pushed (m : Limiter) (c : System ι) (sched : List (Option ι)) (i : ι) (stamp : Int) : Prop :=
  (some i, RedisOp.lPush m.key stamp) ∈ playLog redisExec c sched

/-- **No interval shorter than `duration` seconds holds more than `maxRequestNum`
admissions**; every admission has its time. -/
structure Limited (m : Limiter) (c : System ι) (sched : List (Option ι)) : Prop where
  timed : ∀ i, Admitted c sched i → ∃ stamp, Pushed m c sched i stamp
  few : ∀ (ids : List ι) (first last : Int), ids.Nodup → last - first < m.duration * 1000 →
    (∀ i ∈ ids, Admitted c sched i ∧ ∃ stamp, Pushed m c sched i stamp ∧ first ≤ stamp ∧
      stamp ≤ last) → ids.length ≤ m.maxRequestNum

/-! ### When it is kept -/

/-- The commands that look at the list. -/
def Looks : RedisOp → Prop
  | .lLen _ | .lIndex _ => True
  | _ => False

/-- No request is between its `LPUSH` and its `LTRIM`. -/
def Trimmed (c : System ι) (sched : List (Option ι)) : Prop :=
  ∀ j key stop k, (play redisExec c sched).threads j ≠ call (.lTrim key stop) k

/-- A step that pushes nothing. -/
def PushesNone (c : System ι) (sched : List (Option ι)) (i : Option ι) : Prop :=
  ∀ e ∈ performed (play redisExec c sched) i, ∀ key stamp, e.2 ≠ .lPush key stamp

/-- The thread has looked at a list that all requests had trimmed, and nothing
has been pushed since. -/
inductive Fresh (c : System ι) (i : Option ι) : List (Option ι) → Prop
  | look {sched : List (Option ι)} {o : RedisOp}
      (h : performed (play redisExec c sched) i = [(i, o)]) (ho : Looks o)
      (htrimmed : Trimmed c sched) : Fresh c i (sched ++ [i])
  | later {sched : List (Option ι)} {j : Option ι} (h : Fresh c i sched)
      (hj : PushesNone c sched j) : Fresh c i (sched ++ [j])

/-- **The command comes when it should**: a push after a look that still holds,
an expiry when every request that pushed is through, and no change of the zone. -/
def Timely (m : Limiter) (c : System ι) (sched : List (Option ι)) (i : Option ι) : RedisOp → Prop
  | .lPush _ _ => Fresh c i sched
  | .expireDue key => key = m.key → (play redisExec c sched).store.Due key →
    ∀ j stamp, Pushed m c sched j stamp →
      ∃ answer, (play redisExec c sched).threads (some j) = ret answer
  | .rezone zone => zone = (play redisExec c sched).store.zone
  | _ => True

def Undisturbed (m : Limiter) (c : System ι) (sched : List (Option ι)) (i : Option ι) : Prop :=
  ∀ o k, (play redisExec c sched).threads i = call o k → Timely m c sched i o

theorem undisturbed_of_performed {m : Limiter} {c : System ι} {sched : List (Option ι)}
    {i : Option ι} {o : RedisOp} (h : performed (play redisExec c sched) i = [(i, o)])
    (ho : Timely m c sched i o) : Undisturbed m c sched i := by
  intro o' k hi
  rw [performed_call hi] at h
  obtain rfl : o' = o := by simpa using h
  exact ho

theorem pushesNone_of_performed {c : System ι} {sched : List (Option ι)}
    {i : Option ι} {o : RedisOp} (h : performed (play redisExec c sched) i = [(i, o)])
    (ho : ∀ key stamp, o ≠ .lPush key stamp) : PushesNone c sched i := by
  intro e he
  rw [h, List.mem_singleton] at he
  rw [he]
  exact ho

omit [DecidableEq ι]

/-! ### What a request knows -/

/-- How far a request is: it may pass by the length of the list (`short`) or by
its oldest entry. -/
inductive Stage
  | begin
  | asked
  | looked (oldest : Int)
  | clear (short : Bool)
  | stamped (short : Bool) (stamp : Int)
  | trimming
  | settling
  | refusing
  | passed
  | refused
  | world

/-- It has pushed, and the key does not yet know how long to stay. -/
def Stage.Pending (l : Stage) : Prop := l = .trimming ∨ l = .settling

/-- Before the first command. -/
def stage : Option ι → Stage
  | none => .world
  | some _ => .begin

theorem not_pending_of_world {st : Stage} (h : st = .world) : ¬ st.Pending := by
  rw [h]
  simp [Stage.Pending]

variable (m : Limiter)

/-- From one stage to the next. -/
inductive Next : Stage → RedisServer → RedisOp → Stage → Prop
  | short {s : RedisServer} (h : (s.list m.key).entries.length < m.maxRequestNum) :
      Next .begin s (.lLen m.key) (.clear true)
  | full {s : RedisServer} (h : ¬ (s.list m.key).entries.length < m.maxRequestNum) :
      Next .begin s (.lLen m.key) .asked
  | gone {s : RedisServer} : Next .asked s (.lIndex m.key) .refused
  | look {s : RedisServer} {oldest : Int}
      (h : (s.list m.key).entries.getLast? = some oldest) :
      Next .asked s (.lIndex m.key) (.looked oldest)
  | early {s : RedisServer} {oldest : Int} : Next (.looked oldest) s .now .refusing
  | late {s : RedisServer} {oldest : Int}
      (h : ¬ elapsed oldest (formatTime s.zone s.now) < m.duration) :
      Next (.looked oldest) s .now (.clear false)
  | stamp {s : RedisServer} {short : Bool} :
      Next (.clear short) s .now (.stamped short (formatTime s.zone s.now))
  | append {s : RedisServer} {stamp : Int} :
      Next (.stamped true stamp) s (.lPush m.key stamp) .settling
  | shift {s : RedisServer} {stamp : Int} :
      Next (.stamped false stamp) s (.lPush m.key stamp) .trimming
  | trim {s : RedisServer} : Next .trimming s (.lTrim m.key (m.maxRequestNum - 1)) .settling
  | settle {s : RedisServer} :
      Next .settling s (.expire m.key rateLimitKeyExpirationDuration) .passed
  | refuse {s : RedisServer} :
      Next .refusing s (.expire m.key rateLimitKeyExpirationDuration) .refused
  | world {s : RedisServer} (e : Event) : Next .world s e.op .world

/-- Where a thread ends with its answer. -/
def Ends : Stage → Option Verdict → Prop
  | .passed, some .next => True
  | .refused, some (.abort _) => True
  | .world, none => True
  | _, _ => False

abbrev Goes (p : RedisM (Option Verdict)) (l : Stage) : Prop :=
  Follows redisExec (Next m) Ends p l

theorem request_goes : Goes m m.request .begin := by
  refine Follows.bind ?_ fun _ _ (h : Ends _ (some _)) => h
  unfold redisRateLimiter rdb
  refine Follows.perform_bind fun s => ?_
  simp only [redisExec]
  by_cases hshort : (s.list m.key).entries.length < m.maxRequestNum
  · refine ⟨.clear true, .short hshort, ?_⟩
    rw [if_pos hshort]
    refine Follows.perform_bind fun s => ⟨_, .stamp, ?_⟩
    refine Follows.perform_bind fun _ => ⟨_, .append, ?_⟩
    exact Follows.perform_bind fun _ => ⟨_, .settle, trivial⟩
  · refine ⟨.asked, .full hshort, ?_⟩
    rw [if_neg hshort]
    refine Follows.perform_bind fun s => ?_
    simp only [redisExec]
    cases hlast : (s.list m.key).entries.getLast? with
    | none => exact ⟨.refused, .gone, trivial⟩
    | some oldest =>
      refine ⟨.looked oldest, .look hlast, ?_⟩
      refine Follows.perform_bind fun s => ?_
      by_cases hearly : elapsed oldest (redisExec .now s).1 < m.duration
      · refine ⟨.refusing, .early, ?_⟩
        rw [if_pos hearly]
        exact Follows.perform_bind fun _ => ⟨_, .refuse, trivial⟩
      · refine ⟨.clear false, .late hearly, ?_⟩
        rw [if_neg hearly]
        refine Follows.perform_bind fun s => ⟨_, .stamp, ?_⟩
        refine Follows.perform_bind fun _ => ⟨_, .shift, ?_⟩
        refine Follows.perform_bind fun _ => ⟨_, .trim, ?_⟩
        exact Follows.perform_bind fun _ => ⟨_, .settle, trivial⟩

theorem world_goes (events : List Event) : Goes m (world events) .world := by
  induction events with
  | nil => exact trivial
  | cons e events ih => exact Follows.perform_bind fun _ => ⟨_, .world e, ih⟩

/-! ### What the server holds -/

/-- The time that a command gives the list. -/
def stampOf : RedisOp → Option Int
  | .lPush key stamp => if key = m.key then some stamp else none
  | _ => none

/-- The times of the admissions, in order. -/
def stamps (log : List (Option ι × RedisOp)) : List Int := log.filterMap fun e => stampOf m e.2

/-- The admissions in an interval are no more than the times in it. -/
theorem length_le_of_pushed {ids : List ι} {first last : Int} {log : List (Option ι × RedisOp)}
    (hnodup : ids.Nodup) (h : ∀ i ∈ ids, ∃ stamp, (some i, RedisOp.lPush m.key stamp) ∈ log ∧
      first ≤ stamp ∧ stamp ≤ last) :
    ids.length ≤ (stamps m log).countP fun t => decide (first ≤ t ∧ t ≤ last) := by
  let within : Option ι × RedisOp → Bool := fun e =>
    ((stampOf m e.2).map fun t => decide (first ≤ t ∧ t ≤ last)).getD false
  have hsub : (ids.map some).Subperm ((log.filter within).map Prod.fst) := by
    apply List.subperm_of_subset (hnodup.map (Option.some_injective _))
    intro x hx
    obtain ⟨i, hi, rfl⟩ := List.mem_map.mp hx
    obtain ⟨stamp, hmem, hin⟩ := h i hi
    refine List.mem_map.mpr ⟨_, List.mem_filter.mpr ⟨hmem, ?_⟩, rfl⟩
    simp [within, stampOf, hin]
  have hle := hsub.length_le
  rw [List.length_map, List.length_map] at hle
  rw [stamps, List.countP_filterMap, List.countP_eq_length_filter]
  exact hle

/-- The window, in milliseconds. -/
abbrev Limiter.window : Int := m.duration * 1000

/-- What the local clock would write. -/
abbrev wall (s : RedisServer) : Int := formatTime s.zone s.now

abbrev entries (s : RedisServer) : List Int := (s.list m.key).entries

/-- **The list holds the newest of the times.**  A list that is too long is being
trimmed, and a list that no request is about to keep is kept long enough. -/
structure Holding (zone : Int) (s : RedisServer) (times : List Int) (l : Option ι → Stage) :
    Prop where
  offset : s.zone = zone
  clock : ∀ t ∈ times, t ≤ wall s
  read : ∀ i short stamp, l i = .stamped short stamp → stamp ≤ wall s
  remembers : Remembers m.maxRequestNum (wall s - m.window) times
    ((entries m s).take m.maxRequestNum).reverse
  trimmed : (entries m s).length ≤ m.maxRequestNum ∨ ∃ i, l i = .trimming
  kept : (∀ i, ¬ (l i).Pending) → ∀ d, (s.list m.key).deadline = some d →
    ∀ t ∈ times, t * millisecond + rateLimitKeyExpirationDuration ≤ d + zone
  spaced : Runs.Always (fun before t => Passes m.maxRequestNum m.window t before) times

section Holding

variable {m} {zone : Int} {s : RedisServer} {times : List Int} {l : Option ι → Stage}

theorem Holding.pass (h : Holding m zone s times l) (d : Nat) :
    Holding m zone { s with now := s.now + d } times l := by
  have hwall : wall s ≤ wall { s with now := s.now + d } := by
    unfold wall formatTime millisecond
    dsimp only
    omega
  refine ⟨h.offset, ?_, ?_, ?_, h.trimmed, h.kept, h.spaced⟩
  · exact fun t ht => le_trans (h.clock t ht) hwall
  · exact fun j short stamp hj => le_trans (h.read j short stamp hj) hwall
  · exact h.remembers.later (Int.sub_le_sub_right hwall _)

/-- **A list that is due is forgotten**: all of it has left every window to come. -/
theorem Holding.expireDue (hduration : m.duration * second ≤ rateLimitKeyExpirationDuration)
    (h : Holding m zone s times l) (hnone : ∀ i, ¬ (l i).Pending) (hdue : s.Due m.key) :
    Holding m zone (s.put m.key {}) times l := by
  obtain ⟨d, hd, hnow⟩ := hdue
  have hentries : entries m (s.put m.key {}) = [] := RedisServer.entries_put _ _ _
  refine ⟨h.offset, h.clock, h.read, ?_, ?_, ?_, h.spaced⟩
  · rw [hentries, List.take_nil, List.reverse_nil]
    apply h.remembers.drop
    intro t ht
    have hkept := h.kept hnone d hd t ht
    have hlate : (t + m.window) * millisecond ≤ s.now + s.zone := by
      rw [← h.offset] at hkept
      unfold second at hduration
      unfold Limiter.window millisecond at *
      omega
    have hwall : t + m.window ≤ wall s := (Int.le_ediv_iff_mul_le (by decide)).mpr hlate
    have hsame : wall (s.put m.key {}) = wall s := rfl
    rw [hsame]
    omega
  · rw [hentries]
    exact Or.inl (Nat.zero_le _)
  · intro _ d' hd'
    exact nomatch RedisServer.deadline_put hd'

theorem Holding.congr (h : Holding m zone s times l) {s' : RedisServer} (hzone : s'.zone = s.zone)
    (hnow : s'.now = s.now) (hlist : s'.list m.key = s.list m.key) :
    Holding m zone s' times l := by
  have hwall : wall s' = wall s := by rw [wall, hzone, hnow]
  have hentries : entries m s' = entries m s := by rw [entries, hlist]
  refine ⟨hzone.trans h.offset, ?_, ?_, ?_, ?_, ?_, h.spaced⟩
  · rw [hwall]
    exact h.clock
  · rw [hwall]
    exact h.read
  · rw [hwall, hentries]
    exact h.remembers
  · rw [hentries]
    exact h.trimmed
  · rw [hlist]
    exact h.kept

/-! ### The commands of a request -/

variable [DecidableEq ι] {i : Option ι} {st : Stage}

theorem trimming_update (h : (entries m s).length ≤ m.maxRequestNum ∨ ∃ j, l j = .trimming)
    (hi : l i ≠ .trimming) :
    (entries m s).length ≤ m.maxRequestNum ∨ ∃ j, Function.update l i st j = .trimming := by
  rcases h with hlen | ⟨j, hj⟩
  · exact Or.inl hlen
  · have hne : j ≠ i := by
      rintro rfl
      exact hi hj
    exact Or.inr ⟨j, by rw [Function.update_of_ne hne]; exact hj⟩

theorem read_update (s' : RedisServer) (h : Holding m zone s times l) (hwall : wall s ≤ wall s')
    (hst : ∀ short stamp, st = .stamped short stamp → stamp ≤ wall s') :
    ∀ j short stamp, Function.update l i st j = .stamped short stamp → stamp ≤ wall s' := by
  intro j short stamp hj
  by_cases hji : j = i
  · subst hji
    rw [Function.update_self] at hj
    exact hst short stamp hj
  · rw [Function.update_of_ne hji] at hj
    exact le_trans (h.read j short stamp hj) hwall

theorem Holding.update (h : Holding m zone s times l) (hi : ¬ (l i).Pending)
    (hst : ∀ short stamp, st = .stamped short stamp → stamp ≤ wall s) :
    Holding m zone s times (Function.update l i st) where
  offset := h.offset
  clock := h.clock
  read := read_update s h (le_refl _) hst
  remembers := h.remembers
  trimmed := trimming_update h.trimmed fun he => hi (Or.inl he)
  kept hnone := by
    refine h.kept fun j => ?_
    by_cases hji : j = i
    · rw [hji]
      exact hi
    · have hj := hnone j
      rwa [Function.update_of_ne hji] at hj
  spaced := h.spaced

/-- **A push that the window allows.** -/
theorem Holding.push (hn : 1 ≤ m.maxRequestNum) (h : Holding m zone s times l) {stamp : Int}
    (hstamp : stamp ≤ wall s) (hlate : ∀ t ∈ times, t ≤ stamp)
    (hpasses : Passes m.maxRequestNum m.window stamp times)
    (hst : st = .trimming ∨ st = .settling ∧ (entries m s).length < m.maxRequestNum) :
    Holding m zone (s.push m.key stamp) (times ++ [stamp]) (Function.update l i st) where
  offset := h.offset
  clock t ht := by
    rcases List.mem_append.mp ht with ht | ht
    · exact h.clock t ht
    · rw [List.mem_singleton.mp ht]
      exact hstamp
  read := by
    refine read_update (s.push m.key stamp) h (le_refl _) ?_
    rintro short stamp' rfl
    rcases hst with hst | ⟨hst, -⟩ <;> exact nomatch hst
  remembers := by
    have hpush := h.remembers.push hn hlate
    rwa [entries, RedisServer.entries_push]
  trimmed := by
    rw [entries, RedisServer.entries_push, List.length_cons]
    rcases hst with rfl | ⟨rfl, hshort⟩
    · exact Or.inr ⟨i, Function.update_self _ _ _⟩
    · exact Or.inl hshort
  kept hnone := by
    refine absurd ?_ (hnone i)
    rw [Function.update_self]
    rcases hst with rfl | ⟨rfl, -⟩
    · exact Or.inl rfl
    · exact Or.inr rfl
  spaced := Runs.always_snoc.mpr ⟨h.spaced, hpasses⟩

theorem Holding.trim (hn : 1 ≤ m.maxRequestNum) (h : Holding m zone s times l) :
    Holding m zone (s.trim m.key (m.maxRequestNum - 1)) times (Function.update l i .settling) where
  offset := h.offset
  clock := h.clock
  read := by
    refine read_update (s.trim m.key _) h (le_refl _) ?_
    intro short stamp hst
    exact nomatch hst
  remembers := by
    rw [entries, RedisServer.entries_trim _ _ hn, List.take_take, min_self]
    exact h.remembers
  trimmed := by
    rw [entries, RedisServer.entries_trim _ _ hn]
    exact Or.inl (List.length_take_le _ _)
  kept hnone := by
    refine absurd ?_ (hnone i)
    rw [Function.update_self]
    exact Or.inr rfl
  spaced := h.spaced

/-- **After an `EXPIRE` the list stays long enough**, whoever gave it. -/
theorem Holding.expire (h : Holding m zone s times l) (hi : l i ≠ .trimming)
    (hst : ∀ short stamp, st ≠ .stamped short stamp) :
    Holding m zone (s.expire m.key rateLimitKeyExpirationDuration) times
      (Function.update l i st) where
  offset := h.offset
  clock := h.clock
  read := by
    refine read_update (s.expire m.key _) h (le_refl _) ?_
    intro short stamp he
    exact absurd he (hst short stamp)
  remembers := by
    rw [entries, RedisServer.entries_expire]
    exact h.remembers
  trimmed := by
    have hsame : entries m (s.expire m.key rateLimitKeyExpirationDuration) = entries m s :=
      RedisServer.entries_expire _ _ _
    rw [hsame]
    exact trimming_update h.trimmed hi
  kept _ d hd t ht := by
    have hclock : t ≤ (s.now + s.zone) / millisecond := h.clock t ht
    have hle : (s.now + s.zone) / millisecond * millisecond ≤ s.now + s.zone :=
      Int.ediv_mul_le _ (by decide)
    rw [RedisServer.deadline_expire hd, ← h.offset]
    unfold millisecond at hclock hle ⊢
    omega
  spaced := h.spaced

end Holding

/-! ### What a request may rely on -/

/-- What a request that is still fresh knows of the list, at its stage: once
it may pass, the window allows it at every time from now on. -/
def Fact (s : RedisServer) (times : List Int) : Stage → Prop
  | .begin | .asked => (entries m s).length ≤ m.maxRequestNum
  | .looked oldest => oldest ≤ wall s ∧ ∀ now, wall s ≤ now → m.window ≤ now - oldest →
    Passes m.maxRequestNum m.window now times
  | .clear short => (∀ now, wall s ≤ now → Passes m.maxRequestNum m.window now times) ∧
    (short = true → (entries m s).length < m.maxRequestNum)
  | .stamped short stamp => Passes m.maxRequestNum m.window stamp times ∧
    (∀ t ∈ times, t ≤ stamp) ∧ (short = true → (entries m s).length < m.maxRequestNum)
  | _ => True

section Fact

variable {m} {s s' : RedisServer} {times : List Int} {zone : Int} {l : Option ι → Stage}

theorem Fact.mono {st : Stage} (h : Fact m s times st) (hwall : wall s ≤ wall s')
    (hlen : (entries m s').length ≤ (entries m s).length) : Fact m s' times st := by
  cases st with
  | begin => exact le_trans hlen h
  | asked => exact le_trans hlen h
  | looked oldest => exact ⟨le_trans h.1 hwall, fun now hnow => h.2 now (le_trans hwall hnow)⟩
  | clear short =>
    exact ⟨fun now hnow => h.1 now (le_trans hwall hnow), fun he => lt_of_le_of_lt hlen (h.2 he)⟩
  | stamped short stamp => exact ⟨h.1, h.2.1, fun he => lt_of_le_of_lt hlen (h.2.2 he)⟩
  | _ => exact trivial

theorem fact_short (h : Holding m zone s times l)
    (hshort : (entries m s).length < m.maxRequestNum) : Fact m s times (.clear true) := by
  refine ⟨fun now hnow => ?_, fun _ => hshort⟩
  apply passes_of_short (h.remembers.later (Int.sub_le_sub_right hnow _))
  simp only [List.length_reverse, List.length_take]
  omega

/-- So does the oldest entry, once it has left the window. -/
theorem fact_look (h : Holding m zone s times l)
    (hlen : (entries m s).length ≤ m.maxRequestNum) {oldest : Int}
    (hlast : (entries m s).getLast? = some oldest) : Fact m s times (.looked oldest) := by
  obtain ⟨newer, hentries⟩ := List.getLast?_eq_some_iff.mp hlast
  have hqueue : ((entries m s).take m.maxRequestNum).reverse = oldest :: newer.reverse := by
    rw [List.take_of_length_le hlen, hentries]
    simp
  have hremembers := h.remembers
  rw [hqueue] at hremembers
  constructor
  · obtain ⟨forgotten, htimes, -⟩ := hremembers.newest
    exact h.clock oldest (by simp [htimes])
  · intro now hnow hlate
    have hlater := hremembers.later (Int.sub_le_sub_right hnow m.window)
    exact (passes_iff hlater).mpr (Or.inr ⟨oldest, newer.reverse, rfl, hlate⟩)

/-- What the elapsed seconds say, in milliseconds. -/
theorem window_le_of_elapsed {oldest now duration : Int} (hle : oldest ≤ now)
    (h : ¬ elapsed oldest now < duration) : duration * 1000 ≤ now - oldest := by
  unfold elapsed at h
  rw [Int.tdiv_eq_ediv_of_nonneg (by omega)] at h
  omega

end Fact

/-! ### Every step -/

section Steps

variable [DecidableEq ι] {m} {c : System ι} {zone : Int} {pre : List (Option ι)}
variable {l : Option ι → Stage} {i : Option ι}

/-- One more step does not make another thread's look fresher. -/
theorem fresh_snoc {j : Option ι} (h : Fresh c j (pre ++ [i])) :
    (j = i ∧ Trimmed c pre ∧ ∃ o, performed (play redisExec c pre) i = [(i, o)] ∧ Looks o) ∨
      Fresh c j pre ∧ PushesNone c pre i := by
  generalize hs : pre ++ [i] = sched at h
  cases h with
  | @look sched' o hperformed ho htrimmed =>
    obtain ⟨rfl, he⟩ := List.append_inj' hs rfl
    obtain rfl : i = j := by simpa using he
    exact Or.inl ⟨rfl, htrimmed, o, hperformed, ho⟩
  | @later sched' x h hx =>
    obtain ⟨rfl, he⟩ := List.append_inj' hs rfl
    obtain rfl : i = x := by simpa using he
    exact Or.inr ⟨h, hx⟩

/-- **The invariant**: what the server holds, who has pushed, and what the fresh
requests know. -/
structure Inv (m : Limiter) (c : System ι) (zone : Int) (pre : List (Option ι))
    (l : Option ι → Stage) : Prop where
  holding : Holding m zone (play redisExec c pre).store (stamps m (playLog redisExec c pre)) l
  world : l none = .world
  pushed : ∀ i, (l i).Pending ∨ l i = .passed →
    ∃ stamp, (i, RedisOp.lPush m.key stamp) ∈ playLog redisExec c pre
  facts : ∀ i, Fresh c i pre →
    Fact m (play redisExec c pre).store (stamps m (playLog redisExec c pre)) (l i)

theorem stamps_snoc {o : RedisOp} {k : o.Ans → RedisM (Option Verdict)}
    (hi : (play redisExec c pre).threads i = call o k) :
    stamps m (playLog redisExec c (pre ++ [i]))
      = stamps m (playLog redisExec c pre) ++ (stampOf m o).toList := by
  rw [playLog_snoc, performed_call hi, stamps, stamps, List.filterMap_append]
  cases h : stampOf m o <;> simp [h]

theorem store_snoc {o : RedisOp} {k : o.Ans → RedisM (Option Verdict)}
    (hi : (play redisExec c pre).threads i = call o k) :
    (play redisExec c (pre ++ [i])).store = (redisExec o (play redisExec c pre).store).2 := by
  rw [play_append, play_cons, play_nil, step_call redisExec hi]

theorem not_ret_of_pending {p : RedisM (Option Verdict)} {st : Stage} (h : Goes m p st)
    (hst : st.Pending) (answer : Option Verdict) : p ≠ ret answer := by
  rintro rfl
  rcases hst with rfl | rfl
  · exact h
  · exact h

theorem calls_of_trimming {p : RedisM (Option Verdict)} (h : Goes m p .trimming) :
    ∃ k, p = call (.lTrim m.key (m.maxRequestNum - 1)) k := by
  cases p with
  | ret answer => exact h.elim
  | call o k =>
    obtain ⟨l', hnext, -⟩ := h {}
    cases hnext with
    | trim => exact ⟨k, rfl⟩

theorem length_le_of_trimmed (hinv : Inv m c zone pre l)
    (hfollows : ∀ j, Goes m ((play redisExec c pre).threads j) (l j)) (h : Trimmed c pre) :
    (entries m (play redisExec c pre).store).length ≤ m.maxRequestNum := by
  rcases hinv.holding.trimmed with hlen | ⟨j, hj⟩
  · exact hlen
  · have hgoes := hfollows j
    rw [hj] at hgoes
    obtain ⟨k, hk⟩ := calls_of_trimming hgoes
    exact absurd hk (h j _ _ k)

theorem fresh_before {o : RedisOp} {k : o.Ans → RedisM (Option Verdict)}
    (hi : (play redisExec c pre).threads i = call o k) (ho : ¬ Looks o)
    (h : Fresh c i (pre ++ [i])) : Fresh c i pre := by
  rcases fresh_snoc h with ⟨-, -, o', hperformed, hlooks⟩ | ⟨h, -⟩
  · rw [performed_call hi] at hperformed
    obtain rfl : o = o' := by simpa using hperformed
    exact absurd hlooks ho
  · exact h

/-- **A command that pushes nothing.** -/
theorem Inv.snoc {o : RedisOp} {k : o.Ans → RedisM (Option Verdict)} {st : Stage} {s' : RedisServer}
    (hinv : Inv m c zone pre l) (hi : (play redisExec c pre).threads i = call o k)
    (hs' : (redisExec o (play redisExec c pre).store).2 = s') (hstamp : stampOf m o = none)
    (hholding : Holding m zone s' (stamps m (playLog redisExec c pre)) (Function.update l i st))
    (hwall : wall (play redisExec c pre).store ≤ wall s')
    (hlen : (entries m s').length ≤ (entries m (play redisExec c pre).store).length)
    (hworld : i = none → st = .world) (hpushed : st.Pending ∨ st = .passed → (l i).Pending)
    (hfact : Fresh c i (pre ++ [i]) → Fact m s' (stamps m (playLog redisExec c pre)) st) :
    Inv m c zone (pre ++ [i]) (Function.update l i st) := by
  have hstamps : stamps m (playLog redisExec c (pre ++ [i]))
      = stamps m (playLog redisExec c pre) := by
    rw [stamps_snoc hi, hstamp]
    simp
  have hstore : (play redisExec c (pre ++ [i])).store = s' := (store_snoc hi).trans hs'
  refine ⟨?_, ?_, ?_, ?_⟩
  · rw [hstore, hstamps]
    exact hholding
  · by_cases hnone : none = i
    · rw [← hnone, Function.update_self]
      exact hworld hnone.symm
    · rw [Function.update_of_ne hnone]
      exact hinv.world
  · intro j hj
    have hold : (l j).Pending ∨ l j = .passed := by
      by_cases hji : j = i
      · subst hji
        rw [Function.update_self] at hj
        exact Or.inl (hpushed hj)
      · rwa [Function.update_of_ne hji] at hj
    obtain ⟨stamp, hmem⟩ := hinv.pushed j hold
    refine ⟨stamp, ?_⟩
    rw [playLog_snoc]
    exact List.mem_append_left _ hmem
  · intro j hj
    rw [hstore, hstamps]
    by_cases hji : j = i
    · subst hji
      rw [Function.update_self]
      exact hfact hj
    · rw [Function.update_of_ne hji]
      rcases fresh_snoc hj with ⟨he, -⟩ | ⟨hfresh, -⟩
      · exact absurd he hji
      · exact (hinv.facts j hfresh).mono hwall hlen

/-- **A push of a request that is still fresh.** -/
theorem Inv.snoc_push (hn : 1 ≤ m.maxRequestNum) {stamp : Int} {short : Bool} {st : Stage}
    {k : (RedisOp.lPush m.key stamp).Ans → RedisM (Option Verdict)}
    (hinv : Inv m c zone pre l)
    (hi : (play redisExec c pre).threads i = call (.lPush m.key stamp) k)
    (hl : l i = .stamped short stamp) (hfresh : Fresh c i pre)
    (hst : st = .trimming ∨ st = .settling ∧ short = true) :
    Inv m c zone (pre ++ [i]) (Function.update l i st) := by
  have hfact := hinv.facts i hfresh
  rw [hl] at hfact
  obtain ⟨hpasses, hlate, hshort⟩ := hfact
  have hstamps : stamps m (playLog redisExec c (pre ++ [i]))
      = stamps m (playLog redisExec c pre) ++ [stamp] := by
    rw [stamps_snoc hi]
    simp [stampOf]
  have hpushes : (i, RedisOp.lPush m.key stamp) ∈ performed (play redisExec c pre) i := by
    rw [performed_call hi]
    exact List.mem_cons_self
  have hsome : none ≠ i := by
    rintro rfl
    rw [hinv.world] at hl
    exact nomatch hl
  refine ⟨?_, ?_, ?_, ?_⟩
  · rw [store_snoc hi, hstamps]
    refine hinv.holding.push hn (hinv.holding.read i short stamp hl) hlate hpasses ?_
    rcases hst with rfl | ⟨rfl, he⟩
    · exact Or.inl rfl
    · exact Or.inr ⟨rfl, hshort he⟩
  · rw [Function.update_of_ne hsome]
    exact hinv.world
  · intro j hj
    rw [playLog_snoc]
    by_cases hji : j = i
    · subst hji
      exact ⟨stamp, List.mem_append_right _ hpushes⟩
    · rw [Function.update_of_ne hji] at hj
      obtain ⟨stamp', hmem⟩ := hinv.pushed j hj
      exact ⟨stamp', List.mem_append_left _ hmem⟩
  · intro j hj
    by_cases hji : j = i
    · subst hji
      rw [Function.update_self]
      rcases hst with rfl | ⟨rfl, -⟩ <;> exact trivial
    · -- no other look is fresh any more
      rcases fresh_snoc hj with ⟨he, -⟩ | ⟨-, hnone⟩
      · exact absurd he hji
      · exact absurd rfl (hnone _ hpushes m.key stamp)

/-- A look at the list or the clock, which leaves the server alone. -/
theorem Inv.snoc_look {o : RedisOp} {k : o.Ans → RedisM (Option Verdict)} {st : Stage}
    (hinv : Inv m c zone pre l) (hi : (play redisExec c pre).threads i = call o k)
    (hsame : ∀ s, (redisExec o s).2 = s) (hstamp : stampOf m o = none)
    (hl : ¬ (l i).Pending) (hi' : l i ≠ .world) (hst : ¬ st.Pending ∧ st ≠ .passed)
    (hread : ∀ short stamp, st = .stamped short stamp → stamp ≤ wall (play redisExec c pre).store)
    (hfact : Fresh c i (pre ++ [i]) →
      Fact m (play redisExec c pre).store (stamps m (playLog redisExec c pre)) st) :
    Inv m c zone (pre ++ [i]) (Function.update l i st) := by
  refine hinv.snoc hi (hsame _) hstamp (hinv.holding.update hl hread) (le_refl _) (le_refl _) ?_ ?_
    hfact
  · rintro rfl
    exact absurd hinv.world hi'
  · rintro (h | h)
    · exact absurd h hst.1
    · exact absurd h hst.2

/-- What befalls the server. -/
theorem Inv.snoc_world (hduration : m.duration * second ≤ rateLimitKeyExpirationDuration) {e : Event}
    {k : e.op.Ans → RedisM (Option Verdict)} (hinv : Inv m c zone pre l)
    (hfollows : ∀ j, Goes m ((play redisExec c pre).threads j) (l j))
    (hi : (play redisExec c pre).threads i = call e.op k) (hl : l i = .world)
    (hundisturbed : Undisturbed m c pre i) :
    Inv m c zone (pre ++ [i]) (Function.update l i .world) := by
  have hcondition := hundisturbed _ _ hi
  have hupdate : Function.update l i .world = l := by rw [← hl, Function.update_eq_self]
  have hstages : (Stage.world.Pending ∨ Stage.world = .passed) → (l i).Pending := by
    rintro ((h | h) | h) <;> exact nomatch h
  cases e with
  | pass d =>
    have hwall : wall (play redisExec c pre).store
        ≤ wall (redisExec (.pass d) (play redisExec c pre).store).2 := by
      simp only [wall, formatTime, millisecond, redisExec]
      omega
    refine hinv.snoc hi rfl rfl ?_ hwall (le_refl _) (fun _ => rfl) hstages fun _ => trivial
    rw [hupdate]
    exact hinv.holding.pass d
  | rezone zone' =>
    have hsame : (redisExec (.rezone zone') (play redisExec c pre).store).2
        = (play redisExec c pre).store := by
      rw [show zone' = (play redisExec c pre).store.zone from hcondition]
      rfl
    refine hinv.snoc hi hsame rfl ?_ (le_refl _) (le_refl _) (fun _ => rfl) hstages fun _ => trivial
    rw [hupdate]
    exact hinv.holding
  | expireDue key =>
    by_cases hdue : (play redisExec c pre).store.Due key
    · have hstore : (redisExec (.expireDue key) (play redisExec c pre).store).2
          = (play redisExec c pre).store.put key {} := if_pos hdue
      by_cases hkey : key = m.key
      · subst hkey
        have hnone : ∀ j, ¬ (l j).Pending := by
          intro j hj
          obtain ⟨stamp, hmem⟩ := hinv.pushed j (Or.inl hj)
          cases j with
          | none => exact not_pending_of_world hinv.world hj
          | some j =>
            obtain ⟨answer, hret⟩ := hcondition rfl hdue j stamp hmem
            exact not_ret_of_pending (hfollows (some j)) hj answer hret
        refine hinv.snoc hi hstore rfl ?_ (le_refl _) ?_ (fun _ => rfl) hstages fun _ => trivial
        · rw [hupdate]
          exact hinv.holding.expireDue hduration hnone hdue
        · rw [entries, RedisServer.entries_put]
          exact Nat.zero_le _
      · have hlist : ((play redisExec c pre).store.put key {}).list m.key
            = (play redisExec c pre).store.list m.key :=
          RedisServer.list_put_of_ne _ _ (Ne.symm hkey)
        refine hinv.snoc hi hstore rfl ?_ (le_refl _) ?_ (fun _ => rfl) hstages fun _ => trivial
        · rw [hupdate]
          exact hinv.holding.congr rfl rfl hlist
        · rw [entries, hlist]
    · have hstore : (redisExec (.expireDue key) (play redisExec c pre).store).2
          = (play redisExec c pre).store := if_neg hdue
      refine hinv.snoc hi hstore rfl ?_ (le_refl _) (le_refl _) (fun _ => rfl) hstages fun _ => trivial
      rw [hupdate]
      exact hinv.holding

/-- **An undisturbed step keeps the invariant.** -/
theorem inv_step (hn : 1 ≤ m.maxRequestNum)
    (hduration : m.duration * second ≤ rateLimitKeyExpirationDuration) {o : RedisOp}
    {k : o.Ans → RedisM (Option Verdict)} {st : Stage}
    (hfollows : ∀ j, Goes m ((play redisExec c pre).threads j) (l j)) (hinv : Inv m c zone pre l)
    (hundisturbed : Undisturbed m c pre i) (hi : (play redisExec c pre).threads i = call o k)
    (hnext : Next m (l i) (play redisExec c pre).store o st) :
    Inv m c zone (pre ++ [i]) (Function.update l i st) := by
  -- a look that is fresh sees a list that is not too long
  have hlen : Fresh c i (pre ++ [i]) → (l i = .begin ∨ l i = .asked) →
      (entries m (play redisExec c pre).store).length ≤ m.maxRequestNum := by
    intro hfresh hl
    rcases fresh_snoc hfresh with ⟨-, htrimmed, -⟩ | ⟨hbefore, -⟩
    · exact length_le_of_trimmed hinv hfollows htrimmed
    · have hfact := hinv.facts i hbefore
      rcases hl with hl | hl <;> rw [hl] at hfact <;> exact hfact
  generalize hl : l i = stage at hnext
  cases hnext with
  | short hshort =>
    refine hinv.snoc_look hi (fun _ => rfl) rfl ?_ ?_ ?_ ?_ fun _ => fact_short hinv.holding hshort
    all_goals simp [hl, Stage.Pending]
  | full hfull =>
    refine hinv.snoc_look hi (fun _ => rfl) rfl ?_ ?_ ?_ ?_ fun h => hlen h (Or.inl hl)
    all_goals simp [hl, Stage.Pending]
  | gone =>
    refine hinv.snoc_look hi (fun _ => rfl) rfl ?_ ?_ ?_ ?_ fun _ => trivial
    all_goals simp [hl, Stage.Pending]
  | look hlast =>
    refine hinv.snoc_look hi (fun _ => rfl) rfl ?_ ?_ ?_ ?_ fun h =>
      fact_look hinv.holding (hlen h (Or.inr hl)) hlast
    all_goals simp [hl, Stage.Pending]
  | early =>
    refine hinv.snoc_look hi (fun _ => rfl) rfl ?_ ?_ ?_ ?_ fun _ => trivial
    all_goals simp [hl, Stage.Pending]
  | @late _ oldest hlate =>
    refine hinv.snoc_look hi (fun _ => rfl) rfl ?_ ?_ ?_ ?_ fun h => ?_
    · simp [hl, Stage.Pending]
    · simp [hl]
    · simp [Stage.Pending]
    · simp
    · have hfact := hinv.facts i (fresh_before hi id h)
      rw [hl] at hfact
      have hwindow := window_le_of_elapsed hfact.1 hlate
      refine ⟨fun now hnow => hfact.2 now hnow ?_, fun he => by cases he⟩
      unfold Limiter.window
      omega
  | stamp =>
    refine hinv.snoc_look hi (fun _ => rfl) rfl ?_ ?_ ?_ ?_ fun h => ?_
    · simp [hl, Stage.Pending]
    · simp [hl]
    · simp [Stage.Pending]
    · rintro short' stamp ⟨rfl, rfl⟩
      exact le_refl _
    · have hfact := hinv.facts i (fresh_before hi id h)
      rw [hl] at hfact
      exact ⟨hfact.1 _ (le_refl _), hinv.holding.clock, hfact.2⟩
  | append => exact hinv.snoc_push hn hi hl (hundisturbed _ _ hi) (Or.inr ⟨rfl, rfl⟩)
  | shift => exact hinv.snoc_push hn hi hl (hundisturbed _ _ hi) (Or.inl rfl)
  | trim =>
    refine hinv.snoc hi rfl rfl (hinv.holding.trim hn) (le_refl _) ?_ ?_ ?_ fun _ => trivial
    · rw [entries]
      simp only [redisExec]
      rw [RedisServer.entries_trim _ _ hn]
      exact List.length_take_le' _ _
    · rintro rfl
      rw [hinv.world] at hl
      cases hl
    · simp [hl, Stage.Pending]
  | settle =>
    refine hinv.snoc hi rfl rfl (hinv.holding.expire ?_ ?_) (le_refl _) ?_ ?_ ?_ fun _ => trivial
    · simp [hl]
    · simp
    · simp [entries, redisExec]
    · rintro rfl
      rw [hinv.world] at hl
      cases hl
    · simp [hl, Stage.Pending]
  | refuse =>
    refine hinv.snoc hi rfl rfl (hinv.holding.expire ?_ ?_) (le_refl _) ?_ ?_ ?_ fun _ => trivial
    · simp [hl]
    · simp
    · simp [entries, redisExec]
    · rintro rfl
      rw [hinv.world] at hl
      cases hl
    · simp [Stage.Pending]
  | world e => exact hinv.snoc_world hduration hfollows hi hl hundisturbed

theorem inv_idle {answer : Option Verdict} (hinv : Inv m c zone pre l)
    (hi : (play redisExec c pre).threads i = ret answer) : Inv m c zone (pre ++ [i]) l := by
  have hsame : play redisExec c (pre ++ [i]) = play redisExec c pre := by
    rw [play_append, play_cons, play_nil, step_ret redisExec hi]
  have hlog : playLog redisExec c (pre ++ [i]) = playLog redisExec c pre := by
    rw [playLog_snoc, performed_ret hi, List.append_nil]
  refine ⟨?_, hinv.world, ?_, ?_⟩
  · rw [hsame, hlog]
    exact hinv.holding
  · rw [hlog]
    exact hinv.pushed
  · intro j hj
    rw [hsame, hlog]
    rcases fresh_snoc hj with ⟨-, -, o, hperformed, -⟩ | ⟨hfresh, -⟩
    · rw [performed_ret hi] at hperformed
      exact nomatch hperformed
    · exact hinv.facts j hfresh

theorem inv_start (events : List Event) (now zone : Int) :
    Inv m (start ι m events now zone) zone [] stage where
  holding :=
    { offset := rfl
      clock := fun t ht => nomatch ht
      read := fun i short stamp h => by cases i <;> exact nomatch h
      remembers := by
        show Remembers _ _ [] ([].take _).reverse
        rw [List.take_nil]
        exact remembers_nil
      trimmed := Or.inl (Nat.zero_le _)
      kept := fun _ d hd => nomatch hd
      spaced := Runs.always_nil }
  world := rfl
  pushed i h := by
    cases i <;> simp [stage, Stage.Pending] at h
  facts i h := by
    generalize hs : ([] : List (Option ι)) = sched at h
    cases h with
    | look => simp at hs
    | later => simp at hs

end Steps

/-- **In every run whose steps are undisturbed the limit is kept.** -/
theorem limited_of_undisturbed {ι : Type} [DecidableEq ι] {m : Limiter}
    (hmax : 1 ≤ m.maxRequestNum)
    (hduration : m.duration * second ≤ rateLimitKeyExpirationDuration) (events : List Event)
    (now zone : Int) {sched : List (Option ι)}
    (h : Runs.Always (Undisturbed m (start ι m events now zone)) sched) :
    Limited m (start ι m events now zone) sched := by
  have hstart : ∀ j, Goes m ((start ι m events now zone).threads j) (stage j) := by
    intro j
    cases j with
    | none => exact world_goes m events
    | some j => exact request_goes m
  obtain ⟨l, hfollows, hinv⟩ := ghost_run_following
    (I := Inv m (start ι m events now zone) zone) hstart (inv_start events now zone)
    (fun pre i l answer hinv hi => inv_idle hinv hi)
    (fun pre i l o k st hfollows _ hinv hundisturbed hi hnext =>
      inv_step hmax hduration hfollows hinv hundisturbed hi hnext) sched h
  constructor
  · intro i hadmitted
    have hends := hfollows (some i)
    rw [hadmitted] at hends
    have hpassed : l (some i) = .passed := by
      generalize l (some i) = st at hends
      cases st <;> first | rfl | exact hends.elim
    exact hinv.pushed (some i) (Or.inr hpassed)
  · intro ids first last hnodup hshort hin
    refine le_trans (length_le_of_pushed m hnodup fun i hi => (hin i hi).2) ?_
    exact countP_interval_le hinv.holding.spaced hshort

/-! ### One request in ten seconds -/

def strict : Limiter := ⟨"::1", "CT", 1, 10⟩

/-- Both look at the list before either pushes. -/
def raced : List (Option Bool) :=
  [some false, some true, some false, some false, some false, some true, some true, some true]

/-- **Two requests pass at the same moment where one may in ten seconds.** -/
theorem two_pass_as_one : ¬ Limited strict (start Bool strict [] 0 0) raced := by
  intro h
  have htwo : ∀ i ∈ [false, true], Admitted (start Bool strict [] 0 0) raced i ∧
      ∃ stamp, Pushed strict (start Bool strict [] 0 0) raced i stamp ∧ 0 ≤ stamp ∧ stamp ≤ 0 := by
    intro i _
    cases i
    · exact ⟨rfl, 0, by unfold Pushed; decide, by decide, by decide⟩
    · exact ⟨rfl, 0, by unfold Pushed; decide, by decide, by decide⟩
  have hfew := h.few [false, true] 0 0 (by decide) (by decide) htwo
  exact absurd hfew (by decide)

/-- The second comes when the first has left the window. -/
def inTurn : List (Option Bool) :=
  [some false, some false, some false, some false, none,
    some true, some true, some true, some true, some true, some true, some true]

theorem inTurn_limited : Limited strict (start Bool strict [.pass 11000000000] 0 0) inTurn := by
  refine limited_of_undisturbed (by decide) (by decide) [.pass 11000000000] 0 0 ?_
  have hfirst : Fresh (start Bool strict [.pass 11000000000] 0 0) (some false)
      ([] ++ [some false] ++ [some false]) := by
    have htrimmed : Trimmed (start Bool strict [.pass 11000000000] 0 0) [] := by
      rintro (_ | i) key stop k h <;> exact nomatch h
    have hlook : Fresh (start Bool strict [.pass 11000000000] 0 0) (some false)
        ([] ++ [some false]) := .look rfl trivial htrimmed
    exact hlook.later (pushesNone_of_performed rfl (by simp))
  have hsecond : Fresh (start Bool strict [.pass 11000000000] 0 0) (some true)
      ([some false, some false, some false, some false, none] ++ [some true] ++ [some true]
        ++ [some true] ++ [some true]) := by
    have htrimmed : Trimmed (start Bool strict [.pass 11000000000] 0 0)
        ([some false, some false, some false, some false, none] ++ [some true]) := by
      rintro (_ | _ | _) key stop k h <;> exact nomatch h
    have hlook : Fresh (start Bool strict [.pass 11000000000] 0 0) (some true)
        ([some false, some false, some false, some false, none] ++ [some true] ++ [some true]) :=
      .look rfl trivial htrimmed
    exact (hlook.later (pushesNone_of_performed rfl (by simp))).later
      (pushesNone_of_performed rfl (by simp))
  show Runs.Always _ ([] ++ [some false] ++ [some false] ++ [some false] ++ [some false] ++ [none]
    ++ [some true] ++ [some true] ++ [some true] ++ [some true] ++ [some true] ++ [some true]
    ++ [some true])
  simp only [Runs.always_snoc]
  refine ⟨⟨⟨⟨⟨⟨⟨⟨⟨⟨⟨⟨Runs.always_nil, ?_⟩, ?_⟩, ?_⟩, ?_⟩, ?_⟩, ?_⟩, ?_⟩, ?_⟩, ?_⟩, ?_⟩, ?_⟩, ?_⟩
  case refine_3 => exact undisturbed_of_performed rfl hfirst
  case refine_10 => exact undisturbed_of_performed rfl hsecond
  all_goals exact undisturbed_of_performed rfl trivial

end AuthGateway.RateLimitRace
