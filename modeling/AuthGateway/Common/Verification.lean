import AuthGateway.Lib.GoString
import AuthGateway.Common.Constants
import Mathlib.Logic.Function.Basic

/-!
# common/verification.go

The codes that were sent by e-mail, under their purpose and address.  A code
that was checked stays where it is.
-/

namespace AuthGateway.Common

structure VerificationValue where
  code : String
  time : Int

/-- `verificationMap`, with the keys that are there. -/
structure VerificationMap where
  entries : List (String × VerificationValue) := []

def emailVerificationPurpose : String := "v"
def passwordResetPurpose : String := "r"

def verificationMapMaxSize : Nat := 10
/-- In minutes. -/
def verificationValidMinutes : Int := 10

/-- `GenerateVerificationCode`, from a random UUID. -/
def generateVerificationCode (uuid : String) (length : Nat) : String :=
  if length = 0 then uuid else String.ofList (uuid.toList.take length)

/-- `int(now.Sub(value.time).Seconds()) >= VerificationValidMinutes*60`. -/
def VerificationValue.expired (now : Int) (v : VerificationValue) : Bool :=
  decide (verificationValidMinutes * 60 ≤ (now - v.time).tdiv second)

namespace VerificationMap

def get? (m : VerificationMap) (key : String) : Option VerificationValue := m.entries.lookup key

def delete (m : VerificationMap) (key : String) : VerificationMap :=
  ⟨m.entries.filter fun e => e.1 != key⟩

/-- `removeExpiredPairs`. -/
def removeExpiredPairs (m : VerificationMap) (now : Int) : VerificationMap :=
  ⟨m.entries.filter fun e => !e.2.expired now⟩

/-- `verificationMap[key] = v`. -/
def put (m : VerificationMap) (key : String) (v : VerificationValue) : VerificationMap :=
  ⟨(key, v) :: (m.delete key).entries⟩

/-- `RegisterVerificationCodeWithKey`, whose two readings of the clock may
differ: the code is of the first, `removeExpiredPairs` of the second. -/
def registerAt (m : VerificationMap) (now later : Int) (key code purpose : String) :
    VerificationMap :=
  let m := m.put (purpose ++ key) ⟨code, now⟩
  if verificationMapMaxSize < m.entries.length then m.removeExpiredPairs later else m

/-- `RegisterVerificationCodeWithKey` where the clock does not move on in between. -/
def register (m : VerificationMap) (now : Int) (key code purpose : String) : VerificationMap :=
  m.registerAt now now key code purpose

/-- `VerifyCodeWithKey`. -/
def verify (m : VerificationMap) (now : Int) (key code purpose : String) : Bool :=
  match m.get? (purpose ++ key) with
  | none => false
  | some value => !value.expired now && code == value.code

/-! ### What the functions leave -/

theorem mem_of_get? {m : VerificationMap} {key : String} {v : VerificationValue}
    (h : m.get? key = some v) : (key, v) ∈ m.entries := by
  obtain ⟨l, r, he, -⟩ := List.lookup_eq_some_iff.mp h
  rw [he]
  simp

theorem mem_delete {m : VerificationMap} {key : String} {e : String × VerificationValue} :
    e ∈ (m.delete key).entries ↔ e ∈ m.entries ∧ e.1 ≠ key := by
  simp [delete]

theorem mem_register {m : VerificationMap} {now : Int} {key code purpose : String}
    {e : String × VerificationValue} (h : e ∈ (m.register now key code purpose).entries) :
    e = (purpose ++ key, ⟨code, now⟩) ∨ e ∈ m.entries ∧ e.1 ≠ purpose ++ key := by
  have hmem : e ∈ (purpose ++ key, ⟨code, now⟩) :: (m.delete (purpose ++ key)).entries := by
    unfold register registerAt at h
    dsimp only at h
    split at h
    · exact (List.mem_filter.mp h).1
    · exact h
  rcases List.mem_cons.mp hmem with he | he
  · exact Or.inl he
  · exact Or.inr (mem_delete.mp he)

/-- Entries that are dropped do not hide those that stay. -/
theorem lookup_filter {q : String × VerificationValue → Bool} {key : String}
    {v : VerificationValue} {entries : List (String × VerificationValue)}
    (h : entries.lookup key = some v) (hq : q (key, v) = true) :
    (entries.filter q).lookup key = some v := by
  induction entries with
  | nil => simp at h
  | cons e rest ih =>
    obtain ⟨k, w⟩ := e
    by_cases hk : key = k
    · subst hk
      obtain rfl : w = v := by simpa using h
      simp [hq]
    · have hrest : rest.lookup key = some v := by
        simpa [List.lookup_cons, beq_false_of_ne hk] using h
      rw [List.filter_cons]
      split
      · simpa [List.lookup_cons, beq_false_of_ne hk] using ih hrest
      · exact ih hrest

theorem get?_delete_of_ne {m : VerificationMap} {key key' : String} {v : VerificationValue}
    (h : m.get? key = some v) (hne : key ≠ key') : (m.delete key').get? key = some v :=
  lookup_filter h (by simpa using hne)

/-- A code that was just registered is not expired. -/
theorem get?_register_self (m : VerificationMap) (now : Int) (key code purpose : String) :
    (m.register now key code purpose).get? (purpose ++ key) = some ⟨code, now⟩ := by
  have hfresh : (VerificationValue.mk code now).expired now = false := by
    simp [VerificationValue.expired, verificationValidMinutes]
  have hfirst : ((purpose ++ key, (⟨code, now⟩ : VerificationValue))
      :: (m.delete (purpose ++ key)).entries).lookup (purpose ++ key) = some ⟨code, now⟩ := by
    simp
  unfold register registerAt
  dsimp only
  split
  · exact lookup_filter hfirst (by simp [hfresh])
  · exact hfirst

/-- A registration drops no code of another key that is not expired. -/
theorem get?_register_of_ne {m : VerificationMap} {now : Int} {key code purpose key' : String}
    {v : VerificationValue} (h : m.get? key' = some v) (hne : key' ≠ purpose ++ key)
    (hv : v.expired now = false) : (m.register now key code purpose).get? key' = some v := by
  have hfirst : ((purpose ++ key, (⟨code, now⟩ : VerificationValue))
      :: (m.delete (purpose ++ key)).entries).lookup key' = some v := by
    rw [List.lookup_cons, beq_false_of_ne hne]
    exact get?_delete_of_ne h hne
  unfold register registerAt
  dsimp only
  split
  · exact lookup_filter hfirst (by simp [hv])
  · exact hfirst

/-! ### What is under a key -/

/-- No key has two entries. -/
def Distinct (m : VerificationMap) : Prop := (m.entries.map Prod.fst).Nodup

theorem distinct_filter {m : VerificationMap} (h : m.Distinct)
    (q : String × VerificationValue → Bool) : Distinct ⟨m.entries.filter q⟩ :=
  h.sublist (List.filter_sublist.map Prod.fst)

theorem distinct_delete {m : VerificationMap} (h : m.Distinct) (key : String) :
    (m.delete key).Distinct := distinct_filter h _

theorem distinct_removeExpiredPairs {m : VerificationMap} (h : m.Distinct) (now : Int) :
    (m.removeExpiredPairs now).Distinct := distinct_filter h _

theorem distinct_put {m : VerificationMap} (h : m.Distinct) (key : String) (v : VerificationValue) :
    (m.put key v).Distinct := by
  refine List.nodup_cons.mpr ⟨?_, distinct_delete h key⟩
  simp only [List.mem_map, not_exists, not_and]
  intro e he
  exact (mem_delete.mp he).2

theorem distinct_registerAt {m : VerificationMap} (h : m.Distinct)
    (now later : Int) (key code purpose : String) :
    (m.registerAt now later key code purpose).Distinct := by
  have hput := distinct_put h (purpose ++ key) ⟨code, now⟩
  unfold registerAt
  dsimp only
  split
  · exact distinct_removeExpiredPairs hput later
  · exact hput

/-- With one entry a key, what is under a key is what is there. -/
theorem get?_eq_some {m : VerificationMap} (h : m.Distinct) {key : String}
    {v : VerificationValue} : m.get? key = some v ↔ (key, v) ∈ m.entries := by
  refine ⟨mem_of_get?, ?_⟩
  obtain ⟨entries⟩ := m
  show (key, v) ∈ entries → entries.lookup key = some v
  induction entries with
  | nil => simp
  | cons e entries ih =>
    obtain ⟨k, w⟩ := e
    obtain ⟨hk, hentries⟩ := List.nodup_cons.mp h
    intro hmem
    rcases List.mem_cons.mp hmem with he | hrest
    · obtain ⟨rfl, rfl⟩ := Prod.mk.inj he
      simp
    · have hne : key ≠ k := by
        rintro rfl
        exact hk (List.mem_map.mpr ⟨(key, v), hrest, rfl⟩)
      rw [List.lookup_cons, beq_false_of_ne hne]
      exact ih hentries hrest

theorem get?_delete {m : VerificationMap} (h : m.Distinct) (key : String) :
    (m.delete key).get? = Function.update m.get? key none := by
  funext key'
  apply Option.ext
  intro v
  rw [get?_eq_some (distinct_delete h key), mem_delete]
  by_cases hkey : key' = key
  · simp [hkey]
  · simp [hkey, get?_eq_some h]

theorem get?_put {m : VerificationMap} (h : m.Distinct) (key : String) (v : VerificationValue) :
    (m.put key v).get? = Function.update m.get? key (some v) := by
  funext key'
  apply Option.ext
  intro v'
  rw [get?_eq_some (distinct_put h key v)]
  show (key', v') ∈ (key, v) :: (m.delete key).entries ↔ _
  rw [List.mem_cons, mem_delete]
  by_cases hkey : key' = key
  · subst hkey
    simp [eq_comm]
  · simp [hkey, get?_eq_some h]

theorem get?_removeExpiredPairs {m : VerificationMap} (h : m.Distinct) (now : Int) :
    (m.removeExpiredPairs now).get? = fun key => (m.get? key).filter fun v => !v.expired now := by
  funext key
  apply Option.ext
  intro v
  rw [get?_eq_some (distinct_removeExpiredPairs h now), Option.filter_eq_some_iff, get?_eq_some h]
  simp [removeExpiredPairs]

/-- A check reads what is under its key. -/
theorem verify_eq_any (m : VerificationMap) (now : Int) (key code purpose : String) :
    m.verify now key code purpose
      = (m.get? (purpose ++ key)).any fun v => !v.expired now && code == v.code := by
  unfold verify
  cases m.get? (purpose ++ key) <;> rfl

/-- What is accepted is under its key. -/
theorem mem_of_verify {m : VerificationMap} {now : Int} {key code purpose : String}
    (h : m.verify now key code purpose = true) :
    ∃ time, (purpose ++ key, ⟨code, time⟩) ∈ m.entries := by
  unfold verify at h
  cases hget : m.get? (purpose ++ key) with
  | none => simp [hget] at h
  | some v =>
    simp only [hget, Bool.and_eq_true, beq_iff_eq] at h
    refine ⟨v.time, ?_⟩
    rw [h.2]
    exact mem_of_get? hget

/-- A code that is there and not expired is accepted. -/
theorem verify_of_get? {m : VerificationMap} {now time : Int} {key code purpose : String}
    (h : m.get? (purpose ++ key) = some ⟨code, time⟩)
    (hv : (VerificationValue.mk code time).expired now = false) :
    m.verify now key code purpose = true := by
  unfold verify
  simp [h, hv]

end VerificationMap

/-- What is expired stays so. -/
theorem VerificationValue.expired_mono {v : VerificationValue} {now now' : Int} (h : now ≤ now')
    (hv : v.expired now = true) : v.expired now' = true := by
  simp only [expired, decide_eq_true_eq] at hv ⊢
  have hmono : (now - v.time).tdiv second ≤ (now' - v.time).tdiv second :=
    Int.tdiv_le_tdiv (by decide) (by omega)
  omega

end AuthGateway.Common
