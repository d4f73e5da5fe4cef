import AuthGateway.Common.Verification
import AuthGateway.Lib.Expiry
import Mathlib.Algebra.Order.Ring.Int

/-!
# The codes sent by e-mail, over a run

`RegisterVerificationCodeWithKey`, `VerifyCodeWithKey` and `DeleteKey` one after
the other, with any keys and codes and both purposes.  Keys of both purposes
stand in one map, and a registration that finds it large sweeps it.

What a code is checked against is the **ideal store**, where each purpose and
key has what was registered last: the map is that store less some entries that
have expired (`thinned_store`), and a check turns those down anyway.  So
**a check succeeds exactly when the last registration under its purpose and key
carried the code, is not too old, and was not deleted** (`verify_iff_latest`).
-/

namespace AuthGateway.VerificationStore

open Common VerificationMap

/-! ### Runs -/

inductive Purpose
  | emailVerification
  | passwordReset
deriving DecidableEq

def Purpose.text : Purpose → String
  | .emailVerification => emailVerificationPurpose
  | .passwordReset => passwordResetPurpose

inductive Op
  | register (key code : String) (purpose : Purpose)
  | verify (key code : String) (purpose : Purpose)
  | delete (key : String) (purpose : Purpose)

/-- An operation, and its readings of the clock. -/
structure Act where
  op : Op
  now : Int
  later : Int
  order : now ≤ later

def step (m : VerificationMap) (a : Act) : VerificationMap :=
  match a.op with
  | .register key code purpose => m.registerAt a.now a.later key code purpose.text
  | .verify _ _ _ => m
  | .delete key purpose => m.delete (purpose.text ++ key)

/-- The map after a run. -/
def store (acts : List Act) : VerificationMap := Runs.after step {} acts

/-- The clock does not go back. -/
def InOrder (acts : List Act) : Prop := acts.Pairwise fun a b => a.later ≤ b.now

/-- The operation writes under this purpose and key. -/
def Op.Touches (key : String) (purpose : Purpose) : Op → Prop
  | .register k _ p => k = key ∧ p = purpose
  | .verify _ _ _ => False
  | .delete k p => k = key ∧ p = purpose

instance (key : String) (purpose : Purpose) : DecidablePred (Op.Touches key purpose) := by
  intro op
  cases op <;> unfold Op.Touches <;> infer_instance

/-! ### The key in the map -/

/-- **No two purposes and keys have one key in the map.** -/
theorem text_append_inj {p q : Purpose} {k l : String} :
    p.text ++ k = q.text ++ l ↔ k = l ∧ p = q := by
  constructor
  · intro h
    have hlist : (p.text ++ k).toList = (q.text ++ l).toList := by rw [h]
    rw [String.toList_append, String.toList_append] at hlist
    cases p <;> cases q <;>
      simp [Purpose.text, emailVerificationPurpose, passwordResetPurpose] at hlist ⊢
    · exact String.toList_inj.mp hlist
    · exact String.toList_inj.mp hlist
  · rintro ⟨rfl, rfl⟩
    rfl

/-! ### The ideal store -/

/-- What an operation writes, and under which key of the map. -/
def Act.write (a : Act) : Option (String × Option VerificationValue) :=
  match a.op with
  | .register key code purpose => some (purpose.text ++ key, some ⟨code, a.now⟩)
  | .verify _ _ _ => none
  | .delete key purpose => some (purpose.text ++ key, none)

/-- The writes of a run. -/
def writes (acts : List Act) : List (String × Option VerificationValue) := acts.filterMap Act.write

theorem touches_of_write {a : Act} {w : String × Option VerificationValue} (h : a.write = some w)
    (key : String) (purpose : Purpose) :
    a.op.Touches key purpose ↔ w.1 = purpose.text ++ key := by
  unfold Act.write at h
  cases hop : a.op with
  | register k c p =>
    rw [hop] at h
    obtain rfl := Option.some.inj h
    exact text_append_inj.symm
  | verify k c p =>
    rw [hop] at h
    cases h
  | delete k p =>
    rw [hop] at h
    obtain rfl := Option.some.inj h
    exact text_append_inj.symm

theorem not_touches_of_write {a : Act} (h : a.write = none) (key : String) (purpose : Purpose) :
    ¬ a.op.Touches key purpose := by
  unfold Act.write at h
  cases hop : a.op with
  | register k c p => simp [hop] at h
  | verify k c p => simp [Op.Touches]
  | delete k p => simp [hop] at h

/-- A registration is the only write of an entry. -/
theorem write_eq_entry {a : Act} {key : String} {purpose : Purpose} {v : VerificationValue} :
    a.write = some (purpose.text ++ key, some v)
      ↔ a.op = .register key v.code purpose ∧ a.now = v.time := by
  unfold Act.write
  cases hop : a.op with
  | register k c p =>
    obtain ⟨code, time⟩ := v
    simp [text_append_inj]
    tauto
  | verify k c p => simp
  | delete k p => simp

/-! ### One operation -/

/-- The map holds the ideal store, less what has expired. -/
structure Refines (acts : List Act) (now : Int) : Prop where
  distinct : (store acts).Distinct
  thinned : Expiry.Thinned (fun now v => VerificationValue.expired now v) now
    (Expiry.latest (writes acts)) (store acts).get?

theorem lasting_expired : Expiry.Lasting fun now v => VerificationValue.expired now v :=
  fun _ _ _ hle hv => VerificationValue.expired_mono hle hv

theorem refines_nil (now : Int) : Refines [] now where
  distinct := List.nodup_nil
  thinned := fun _ => Or.inl rfl

theorem store_snoc (acts : List Act) (a : Act) : store (acts ++ [a]) = step (store acts) a := by
  simp [store]

theorem writes_snoc (acts : List Act) (a : Act) :
    writes (acts ++ [a]) = writes acts ++ a.write.toList := by
  unfold writes
  rw [List.filterMap_append]
  cases h : a.write <;> simp [h]

theorem Refines.later {acts : List Act} {now later : Int} (h : Refines acts now)
    (hle : now ≤ later) : Refines acts later :=
  ⟨h.distinct, h.thinned.later lasting_expired hle⟩

/-- **The step**: the writes go to both stores, and the sweep drops what has expired. -/
theorem Refines.snoc {acts : List Act} {a : Act} (h : Refines acts a.now) :
    Refines (acts ++ [a]) a.later := by
  have hlater := h.later a.order
  refine ⟨?_, ?_⟩
  · rw [store_snoc]
    unfold step
    cases a.op with
    | register key code purpose =>
      exact distinct_registerAt h.distinct a.now a.later key code purpose.text
    | verify key code purpose => exact h.distinct
    | delete key purpose => exact distinct_delete h.distinct (purpose.text ++ key)
  · rw [store_snoc, writes_snoc]
    unfold step Act.write
    cases a.op with
    | register key code purpose =>
      have hput := hlater.thinned.update (purpose.text ++ key) (some ⟨code, a.now⟩)
      rw [← get?_put h.distinct] at hput
      dsimp only [Option.toList]
      rw [Expiry.latest_snoc]
      unfold registerAt
      dsimp only
      split
      · rw [get?_removeExpiredPairs (distinct_put h.distinct _ _)]
        exact hput.sweep
      · exact hput
    | verify key code purpose => simpa using hlater.thinned
    | delete key purpose =>
      dsimp only [Option.toList]
      rw [Expiry.latest_snoc, get?_delete h.distinct]
      exact hlater.thinned.update (purpose.text ++ key) none

/-- **Along a run**, the map refines the ideal store. -/
theorem refines_store {acts : List Act} (hacts : InOrder acts) :
    ∀ {now : Int}, (∀ a ∈ acts, a.later ≤ now) → Refines acts now := by
  induction acts using List.reverseRecOn with
  | nil => exact fun _ => refines_nil _
  | append_singleton acts a ih =>
    intro now hnow
    obtain ⟨hbefore, -, hbetween⟩ := List.pairwise_append.mp hacts
    have hrefines : Refines acts a.now := ih hbefore fun b hb => hbetween b hb a (by simp)
    exact hrefines.snoc.later (hnow a (by simp))

/-! ### Checks -/

/-- A check against the ideal store. -/
def idealVerify (acts : List Act) (now : Int) (key code : String) (purpose : Purpose) : Bool :=
  (Expiry.latest (writes acts) (purpose.text ++ key)).any fun v =>
    !v.expired now && code == v.code

theorem Refines.verify {acts : List Act} {now : Int} (h : Refines acts now) (key code : String)
    (purpose : Purpose) :
    (store acts).verify now key code purpose.text = idealVerify acts now key code purpose := by
  rw [verify_eq_any]
  apply h.thinned.read
  intro v hv
  simp [hv]

/-- The ideal check, in terms of the run. -/
theorem idealVerify_iff (acts : List Act) (now : Int) (key code : String) (purpose : Purpose) :
    idealVerify acts now key code purpose = true
      ↔ ∃ before a after, acts = before ++ a :: after ∧ a.op = .register key code purpose ∧
          (now - a.now).tdiv second < verificationValidMinutes * 60 ∧
          ∀ b ∈ after, ¬ b.op.Touches key purpose := by
  unfold idealVerify
  rw [Option.any_eq_true]
  constructor
  · rintro ⟨v, hv, hcheck⟩
    obtain ⟨before, after, hsplit, hafter⟩ := Expiry.latest_eq_some.mp hv
    obtain ⟨acts₁, acts₂, rfl, hbefore, hrest⟩ := List.filterMap_eq_append_iff.mp hsplit
    obtain ⟨idle, a, acts₃, rfl, hidle, ha, rfl⟩ := List.filterMap_eq_cons_iff.mp hrest
    obtain ⟨hop, htime⟩ := write_eq_entry.mp ha
    simp only [VerificationValue.expired, Bool.and_eq_true, Bool.not_eq_true', beq_iff_eq,
      decide_eq_false_iff_not, not_le] at hcheck
    obtain ⟨hfresh, rfl⟩ := hcheck
    refine ⟨acts₁ ++ idle, a, acts₃, by simp, hop, by rw [htime]; exact hfresh, ?_⟩
    intro b hb htouches
    cases hw : b.write with
    | none => exact not_touches_of_write hw key purpose htouches
    | some w =>
      exact hafter w (List.mem_filterMap.mpr ⟨b, hb, hw⟩)
        ((touches_of_write hw key purpose).mp htouches)
  · rintro ⟨before, a, after, rfl, hop, hfresh, hafter⟩
    refine ⟨⟨code, a.now⟩, ?_, ?_⟩
    · apply Expiry.latest_eq_some.mpr
      have hwrite : a.write = some (purpose.text ++ key, some ⟨code, a.now⟩) :=
        write_eq_entry.mpr ⟨hop, rfl⟩
      refine ⟨writes before, writes after, by simp [writes, hwrite], ?_⟩
      intro w hw hkey
      obtain ⟨b, hb, hbw⟩ := List.mem_filterMap.mp hw
      exact hafter b hb ((touches_of_write hbw key purpose).mpr hkey)
    · simp only [VerificationValue.expired, Bool.and_eq_true, Bool.not_eq_true', beq_self_eq_true,
        decide_eq_false_iff_not, not_le, and_true]
      exact hfresh

/-- The ideal check sees the operations under its purpose and key only. -/
theorem idealVerify_filter (acts : List Act) (now : Int) (key code : String) (purpose : Purpose) :
    idealVerify (acts.filter fun a => a.op.Touches key purpose) now key code purpose
      = idealVerify acts now key code purpose := by
  have hwrites : writes (acts.filter fun a => a.op.Touches key purpose)
      = (writes acts).filter fun w => decide (w.1 = purpose.text ++ key) := by
    unfold writes
    induction acts with
    | nil => rfl
    | cons a acts ih =>
      cases hw : a.write with
      | none =>
        rw [List.filter_cons, if_neg (by simpa using not_touches_of_write hw key purpose),
          List.filterMap_cons_none hw]
        exact ih
      | some w =>
        have htouches := touches_of_write hw key purpose
        rw [List.filterMap_cons_some hw, List.filter_cons, List.filter_cons]
        by_cases hkey : w.1 = purpose.text ++ key
        · rw [if_pos (by simpa using htouches.mpr hkey), if_pos (by simpa using hkey),
            List.filterMap_cons_some hw, ih]
        · rw [if_neg (by simpa using fun h => hkey (htouches.mp h)), if_neg (by simpa using hkey), ih]
  unfold idealVerify
  rw [hwrites, Expiry.latest_filter]

/-! ### The result -/

/-- **A check answers for the last registration under its purpose and key**, that
carried the code, is younger than the limit, and was not deleted since.  The
operations under other keys or the other purpose could be left out, and a sweep
put in, without a difference. -/
theorem verify_iff_latest (acts : List Act) (hacts : InOrder acts) (now : Int)
    (hnow : ∀ a ∈ acts, a.later ≤ now) (key code : String) (purpose : Purpose) :
    ((store acts).verify now key code purpose.text = true
      ↔ ∃ before a after, acts = before ++ a :: after ∧ a.op = .register key code purpose ∧
          (now - a.now).tdiv second < verificationValidMinutes * 60 ∧
          ∀ b ∈ after, ¬ b.op.Touches key purpose) ∧
      (store (acts.filter fun a => a.op.Touches key purpose)).verify now key code purpose.text
        = (store acts).verify now key code purpose.text ∧
      ∀ swept ≤ now, ((store acts).removeExpiredPairs swept).verify now key code purpose.text
        = (store acts).verify now key code purpose.text := by
  have hrefines := refines_store hacts hnow
  refine ⟨?_, ?_, ?_⟩
  · rw [hrefines.verify, idealVerify_iff]
  · have hfilter : Refines (acts.filter fun a => a.op.Touches key purpose) now :=
      refines_store (hacts.filter _) fun a ha => hnow a (List.mem_filter.mp ha).1
    rw [hfilter.verify, hrefines.verify, idealVerify_filter]
  · intro swept hswept
    have hsame : Expiry.Thinned (fun now v => VerificationValue.expired now v) swept
        (store acts).get? (store acts).get? := fun _ => Or.inl rfl
    rw [verify_eq_any, verify_eq_any, get?_removeExpiredPairs hrefines.distinct]
    apply (hsame.sweep.later lasting_expired hswept).read
    intro v hv
    simp [hv]

/-! ### A concrete run -/

/-- An operation that takes no time. -/
def Op.at (op : Op) (now : Int) : Act := ⟨op, now, now, le_refl now⟩

/-- Dora's address is confirmed and her password reset; the first code is deleted. -/
def doraCodes : List Act :=
  [(Op.register "dora@x" "111" .emailVerification).at 0,
    (Op.register "dora@x" "222" .passwordReset).at (60 * second),
    (Op.delete "dora@x" .emailVerification).at (120 * second)]

/-- The code of the reset is good for ten minutes from its own registration. -/
theorem doraCodes_reset :
    (store doraCodes).verify (659 * second) "dora@x" "222" Purpose.passwordReset.text = true ∧
      (store doraCodes).verify (660 * second) "dora@x" "222" Purpose.passwordReset.text
        = (store (doraCodes.filter fun a => a.op.Touches "dora@x" .passwordReset)).verify
            (660 * second) "dora@x" "222" Purpose.passwordReset.text := by
  have hacts : InOrder doraCodes := by
    simp [InOrder, doraCodes, Op.at, second]
  constructor
  · apply (verify_iff_latest doraCodes hacts (659 * second) (by simp [doraCodes, Op.at, second])
      "dora@x" "222" .passwordReset).1.mpr
    refine ⟨[(Op.register "dora@x" "111" .emailVerification).at 0],
      (Op.register "dora@x" "222" .passwordReset).at (60 * second),
      [(Op.delete "dora@x" .emailVerification).at (120 * second)], rfl, rfl, by decide, ?_⟩
    simp [Op.at, Op.Touches]
  · exact (verify_iff_latest doraCodes hacts (660 * second) (by simp [doraCodes, Op.at, second])
      "dora@x" "222" .passwordReset).2.1.symm

end AuthGateway.VerificationStore
