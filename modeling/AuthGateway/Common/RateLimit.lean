import Mathlib.Logic.Function.Basic
import AuthGateway.Common.Constants

/-!
# common/rate-limit.go

`InMemoryRateLimiter`: for each key the clock readings, in seconds, of the
requests it let pass last.  The capacity of a queue is not modelled, so
`maxRequestNum` is a natural number: `make` refuses a negative one.
-/

namespace AuthGateway.Common

/-- The readings of a key, `[old <-- new]`; a queue is made with one and loses
one only for another. -/
structure Queue where
  times : List Int
  nonempty : times ≠ []

namespace Queue

def single (now : Int) : Queue := ⟨[now], List.cons_ne_nil _ _⟩

/-- `(*queue)[0]`. -/
def oldest (q : Queue) : Int := q.times.head q.nonempty

/-- `(*queue)[size-1]`. -/
def newest (q : Queue) : Int := q.times.getLast q.nonempty

/-- `append(*queue, now)`. -/
def append (q : Queue) (now : Int) : Queue := ⟨q.times ++ [now], by simp⟩

/-- `append((*queue)[1:], now)`. -/
def shift (q : Queue) (now : Int) : Queue := ⟨q.times.tail ++ [now], by simp⟩

theorem times_eq (q : Queue) : q.times = q.oldest :: q.times.tail :=
  (List.cons_head_tail q.nonempty).symm

@[simp] theorem times_single (now : Int) : (single now).times = [now] := rfl

@[simp] theorem times_append (q : Queue) (now : Int) :
    (q.append now).times = q.times ++ [now] := rfl

@[simp] theorem times_shift (q : Queue) (now : Int) :
    (q.shift now).times = q.times.tail ++ [now] := rfl

end Queue

structure InMemoryRateLimiter where
  store : String → Option Queue := fun _ => none
  /-- In nanoseconds. -/
  expirationDuration : Int

namespace InMemoryRateLimiter

/-- `l.expirationDuration.Seconds()`, as an integer. -/
def expirationSeconds (l : InMemoryRateLimiter) : Int := l.expirationDuration.tdiv second

def put (l : InMemoryRateLimiter) (key : String) (queue : Queue) : InMemoryRateLimiter :=
  { l with store := Function.update l.store key (some queue) }

/-- One round of `clearExpiredItems`. -/
def clearExpiredItems (l : InMemoryRateLimiter) (now : Int) : InMemoryRateLimiter :=
  { l with store := fun key => (l.store key).filter fun queue =>
      !decide (l.expirationSeconds < unix now - queue.newest) }

/-- `Request`; the unit of `duration` is seconds. -/
def request (l : InMemoryRateLimiter) (key : String) (maxRequestNum : Nat) (duration now : Int) :
    Bool × InMemoryRateLimiter :=
  match l.store key with
  | some queue =>
    if queue.times.length < maxRequestNum then (true, l.put key (queue.append (unix now)))
    else if duration ≤ unix now - queue.oldest then (true, l.put key (queue.shift (unix now)))
    else (false, l)
  | none => (true, l.put key (.single (unix now)))

/-- What the queue of a key holds. -/
def times (l : InMemoryRateLimiter) (key : String) : List Int :=
  ((l.store key).map Queue.times).getD []

theorem times_of_store {l : InMemoryRateLimiter} {key : String} {queue : Queue}
    (h : l.store key = some queue) : l.times key = queue.times := by
  simp [times, h]

theorem times_of_no_store {l : InMemoryRateLimiter} {key : String} (h : l.store key = none) :
    l.times key = [] := by
  simp [times, h]

theorem times_put (l : InMemoryRateLimiter) (key : String) (queue : Queue) :
    (l.put key queue).times key = queue.times := by
  simp [times, put]

theorem times_put_of_ne (l : InMemoryRateLimiter) {key key' : String} (queue : Queue)
    (h : key' ≠ key) : (l.put key queue).times key' = l.times key' := by
  simp [times, put, Function.update_of_ne h]

/-- A request changes the queue of its own key only. -/
theorem times_request_of_ne (l : InMemoryRateLimiter) {key key' : String} (maxRequestNum : Nat)
    (duration now : Int) (h : key' ≠ key) :
    (l.request key maxRequestNum duration now).2.times key' = l.times key' := by
  unfold request
  split
  · split
    · exact times_put_of_ne l _ h
    · split
      · exact times_put_of_ne l _ h
      · rfl
  · exact times_put_of_ne l _ h

@[simp] theorem expirationSeconds_request (l : InMemoryRateLimiter) (key : String)
    (maxRequestNum : Nat) (duration now : Int) :
    (l.request key maxRequestNum duration now).2.expirationSeconds = l.expirationSeconds := by
  unfold request
  split
  · split
    · rfl
    · split <;> rfl
  · rfl

@[simp] theorem expirationSeconds_clearExpiredItems (l : InMemoryRateLimiter) (now : Int) :
    (l.clearExpiredItems now).expirationSeconds = l.expirationSeconds := rfl

/-- A round keeps a queue, or drops it when its newest entry has expired. -/
theorem times_clearExpiredItems (l : InMemoryRateLimiter) (key : String) (now : Int) :
    (l.clearExpiredItems now).times key = l.times key ∨
      (l.clearExpiredItems now).times key = [] ∧
        ∃ newest, (l.times key).getLast? = some newest ∧
          l.expirationSeconds < unix now - newest := by
  cases h : l.store key with
  | none =>
    left
    simp [times, clearExpiredItems, h]
  | some queue =>
    by_cases hexpired : l.expirationSeconds < unix now - queue.newest
    · right
      refine ⟨?_, queue.newest, ?_, hexpired⟩
      · apply times_of_no_store
        simp only [clearExpiredItems, h]
        rw [Option.filter_some, if_neg (by rw [decide_eq_true hexpired]; decide)]
      · rw [times_of_store h]
        exact List.getLast?_eq_some_getLast queue.nonempty
    · left
      have hkept : (l.clearExpiredItems now).store key = some queue := by
        simp only [clearExpiredItems, h]
        rw [Option.filter_some, if_pos (by rw [decide_eq_false hexpired]; decide)]
      rw [times_of_store hkept, times_of_store h]

end InMemoryRateLimiter

end AuthGateway.Common
