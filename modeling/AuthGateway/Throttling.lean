import AuthGateway.Lib.Runs
import AuthGateway.Lib.Throttle
import AuthGateway.Middleware.Auth

/-!
# Throttling of guesses

The four requests that compare a code: the second step of a login, disabling,
new backup codes, and the universal verification.  They come one at a time, in
any order, from any sessions and by any users; reads of the database may fail,
writes succeed.

What a request does about the codes of one user is one of three things
(`Told`): it compares nothing and leaves the record, it compares one wrong code
and counts it, or it compares one right code.  A numeric code that was refused
goes to the second validator too, but is no backup code there
(`not_both_formats`), so nothing is counted twice.  The record is then a
`Meter`, and the bound is that of the meter (`throttled`).
-/

namespace AuthGateway.Throttling

open Common Model Controller Middleware

/-! ### The record of a user -/

def record (db : DB) (u : Int) : Option TwoFA :=
  db.twoFAs.find? fun t => t.live && t.userId == u

theorem record_eq_some {db : DB} {u : Int} {t : TwoFA} :
    record db u = some t ↔ t ∈ db.twoFAs ∧ t.live = true ∧ t.userId = u := find_twoFA_eq_some

/-- Saving a record that was read replaces it, and no other. -/
theorem exec_twoFASave {db : DB} {t t' : TwoFA} (ht : t ∈ db.twoFAs) (hlive : t'.live = true)
    (hid : t'.id = t.id) (huser : t'.userId = t.userId) :
    (exec (.twoFASave t') db).1 = .ok () ∧ record (exec (.twoFASave t') db).2 t.userId = some t' ∧
      (∀ v, v ≠ t.userId → record (exec (.twoFASave t') db).2 v = record db v) := by
  have hclash : ∀ x ∈ db.twoFAs, Row.key x ≠ Row.key t' → Row.clash x t' = false := by
    intro x hx hne
    rw [TwoFA.clash_eq, beq_eq_false_iff_ne]
    intro hsame
    have he : x = t := by
      refine Table.eq_of_clash hx ht ?_
      rw [TwoFA.clash_eq, beq_iff_eq, hsame, huser]
    rw [he] at hne
    exact hne hid.symm
  have hpos : 0 < Row.key t' := by
    rw [TwoFA.key_eq, hid]
    exact Table.key_pos ht
  obtain ⟨table, htable⟩ := Table.put_isSome hclash hpos
  have hexec : exec (.twoFASave t') db = (.ok (), db.setTwoFAs table) := by
    simp only [exec]
    rw [htable]
    rfl
  rw [hexec]
  refine ⟨rfl, ?_, ?_⟩
  · exact record_eq_some.mpr ⟨(Table.mem_put htable).mpr (Or.inl rfl), hlive, huser⟩
  · intro v hv
    apply Option.ext
    intro x
    rw [record_eq_some, record_eq_some]
    have hmem : x ∈ (db.setTwoFAs table).twoFAs ↔ x = t' ∨ x ∈ db.twoFAs ∧ Row.key x ≠ Row.key t' :=
      Table.mem_put htable
    rw [hmem]
    constructor
    · rintro ⟨rfl | ⟨hx, -⟩, hxlive, hxuser⟩
      · exact absurd (hxuser.symm.trans huser) hv
      · exact ⟨hx, hxlive, hxuser⟩
    · rintro ⟨hx, hxlive, hxuser⟩
      refine ⟨Or.inr ⟨hx, ?_⟩, hxlive, hxuser⟩
      intro hkey
      have he : x = t := Table.eq_of_key hx ht (hkey.trans hid)
      rw [he] at hxuser
      exact hv hxuser.symm

/-- The others' records stay. -/
abbrev Spared (u : Int) (db db' : DB) : Prop := ∀ v, v ≠ u → record db' v = record db v

/-! ### What a request does about the codes of a user -/

/-- What came of the comparisons, in order; a validator that answers an error
has not compared anything. -/
def compared (answers : List (Except Err Bool)) : List Bool := answers.filterMap Except.toOption

/-- What happened to the record of the user `u`, by the comparisons made. -/
inductive Told (now u : Int) (db : DB) (comparisons : List Bool) (db' : DB) : Prop
  | silent (h : comparisons = []) (hrecord : record db' u = record db u)
  | missed (t : TwoFA) (ht : record db u = some t) (hfree : t.isLocked now = false)
      (h : comparisons = [false]) (hrecord : record db' u = some (t.failed now))
  | hit (t : TwoFA) (ht : record db u = some t) (hfree : t.isLocked now = false)
      (h : comparisons = [true])
      (hrecord : ∀ t', record db' u = some t' → t'.failedAttempts = 0)

theorem failed_same (now : Int) (t : TwoFA) : (t.failed now).live = t.live ∧
    (t.failed now).id = t.id ∧ (t.failed now).userId = t.userId := by
  unfold TwoFA.failed
  dsimp only
  split <;> exact ⟨rfl, rfl, rfl⟩

/-- A record that was read can be saved. -/
theorem update_steady (t' : TwoFA) {db : DB} {t : TwoFA} (ht : t ∈ db.twoFAs)
    (hlive : t'.live = true) (hid : t'.id = t.id) (huser : t'.userId = t.userId) :
    Steady t'.update (fun _ db' => record db' t.userId = some t' ∧ Spared t.userId db db') db := by
  have hpos : t'.id ≠ 0 := by
    rw [hid]
    exact ne_of_gt (Table.key_pos ht)
  obtain ⟨-, hrecord, hspared⟩ := exec_twoFASave ht hlive hid huser
  unfold TwoFA.update
  rw [if_neg hpos]
  exact Steady.write rfl (Steady.pure ⟨hrecord, hspared⟩)

/-- **A comparison is booked once.** -/
theorem book_steady (ctx : Ctx) {db : DB} {t : TwoFA} (ht : t ∈ db.twoFAs) (hlive : t.live = true)
    (hfree : t.isLocked ctx.now = false) (valid : Bool) :
    Steady (t.book ctx valid) (fun r db' => r.1 = .ok valid ∧
      Told ctx.now t.userId db [valid] db' ∧ Spared t.userId db db') db := by
  have hrecord : record db t.userId = some t := record_eq_some.mpr ⟨ht, hlive, rfl⟩
  cases valid with
  | true =>
    refine (update_steady (t.succeeded ctx.now) ht hlive rfl rfl).bind ?_
    intro err db' h
    refine Steady.pure ⟨rfl, .hit t hrecord hfree rfl ?_, h.2⟩
    intro t' ht'
    rw [h.1] at ht'
    rw [← Option.some.inj ht']
    rfl
  | false =>
    obtain ⟨hfailed, hid, huser⟩ := failed_same ctx.now t
    have hinc : Steady (t.incrementFailedAttempts ctx) (fun _ db' =>
        record db' t.userId = some (t.failed ctx.now) ∧ Spared t.userId db db') db := by
      refine (update_steady _ ht (hfailed.trans hlive) hid huser).bind ?_
      intro err db' h
      exact Steady.pure h
    refine hinc.bind ?_
    intro r db' h
    exact Steady.pure ⟨rfl, .missed t hrecord hfree rfl h.1, h.2⟩

theorem validateTOTP_steady (env : Env) (ctx : Ctx) {db : DB} {t : TwoFA} (ht : t ∈ db.twoFAs)
    (hlive : t.live = true) (code : String) :
    Steady (t.validateTOTPAndUpdateUsage env ctx code) (fun r db' =>
      Told ctx.now t.userId db (compared [r.1]) db' ∧ Spared t.userId db db') db := by
  unfold TwoFA.validateTOTPAndUpdateUsage
  cases hlocked : t.isLocked ctx.now with
  | true => exact Steady.pure ⟨.silent rfl rfl, fun v _ => rfl⟩
  | false =>
    rw [if_neg Bool.false_ne_true]
    refine Prog.Holds.mono (book_steady ctx ht hlive hlocked _) ?_
    rintro ⟨r, t'⟩ db' ⟨rfl, h⟩
    exact h

/-- The statements about a backup code touch no record. -/
theorem validateBackupCode_steady (env : Env) (ctx : Ctx) (u : Int) (code : String) (db : DB) :
    Steady (Model.validateBackupCode env ctx u code) (fun _ db' => db'.twoFAs = db.twoFAs) db := by
  unfold Model.validateBackupCode
  split
  · exact Steady.pure rfl
  · refine Prog.Holds.perform_bind fun r db₁ hmay => ?_
    obtain ⟨rfl, -⟩ := hmay.may.read rfl
    cases r with
    | error e => exact Steady.pure rfl
    | ok codes =>
      dsimp only
      cases matchCode env code codes with
      | none => exact Steady.pure rfl
      | some bc =>
        refine Steady.write rfl ?_
        have hsame : (exec (.codeSave (bc.used ctx.now)) db₁).2.twoFAs = db₁.twoFAs := by
          simp only [exec]
          cases db₁.backupCodes.put (bc.used ctx.now) <;> rfl
        cases (exec (.codeSave (bc.used ctx.now)) db₁).1 <;> exact Steady.pure hsame

theorem record_congr {db db' : DB} (h : db'.twoFAs = db.twoFAs) (u : Int) :
    record db' u = record db u := by
  unfold record
  rw [h]

/-- What is true of a record holds in every database with the same records. -/
theorem Told.congr {now u : Int} {db db₁ db' : DB} {comparisons : List Bool}
    (h : Told now u db₁ comparisons db') (hsame : record db₁ u = record db u) :
    Told now u db comparisons db' := by
  cases h with
  | silent h hrecord => exact .silent h (hrecord.trans hsame)
  | missed t ht hfree h hrecord => exact .missed t (hsame.symm.trans ht) hfree h hrecord
  | hit t ht hfree h hrecord => exact .hit t (hsame.symm.trans ht) hfree h hrecord

theorem validateBackup_steady (env : Env) (ctx : Ctx) {db : DB} {t : TwoFA} (ht : t ∈ db.twoFAs)
    (hlive : t.live = true) (code : String) :
    Steady (t.validateBackupCodeAndUpdateUsage env ctx code) (fun r db' =>
      Told ctx.now t.userId db (compared [r.1]) db' ∧ Spared t.userId db db') db := by
  unfold TwoFA.validateBackupCodeAndUpdateUsage
  cases hlocked : t.isLocked ctx.now with
  | true => exact Steady.pure ⟨.silent rfl rfl, fun v _ => rfl⟩
  | false =>
    refine (validateBackupCode_steady env ctx t.userId code db).bind ?_
    intro r db₁ hsame
    cases r with
    | error e =>
      exact Steady.pure ⟨.silent rfl (record_congr hsame _), fun v _ => record_congr hsame v⟩
    | ok valid =>
      have ht₁ : t ∈ db₁.twoFAs := by
        rw [hsame]
        exact ht
      refine Prog.Holds.mono (book_steady ctx ht₁ hlive hlocked valid) ?_
      rintro ⟨r, t'⟩ db' ⟨rfl, htold, hspared⟩
      refine ⟨htold.congr (record_congr hsame _), ?_⟩
      intro v hv
      rw [hspared v hv, record_congr hsame]

/-- A string that is no backup code is not compared. -/
theorem validateBackup_malformed (env : Env) (ctx : Ctx) (t : TwoFA) {code : String}
    (h : Common.validateBackupCode code = false) (db : DB) :
    Steady (t.validateBackupCodeAndUpdateUsage env ctx code) (fun r db' =>
      compared [r.1] = [] ∧ db' = db) db := by
  unfold TwoFA.validateBackupCodeAndUpdateUsage Model.validateBackupCode
  cases t.isLocked ctx.now with
  | true => exact Steady.pure ⟨rfl, rfl⟩
  | false =>
    rw [h, Bool.not_false, if_pos rfl]
    exact Steady.pure ⟨rfl, rfl⟩

theorem compared_append (l l' : List (Except Err Bool)) :
    compared (l ++ l') = compared l ++ compared l' := List.filterMap_append

theorem tryTOTP_steady (env : Env) (ctx : Ctx) {db : DB} {t : TwoFA} (ht : t ∈ db.twoFAs)
    (hlive : t.live = true) (code : String) :
    Steady (tryTOTP env ctx t code) (fun r db' => Told ctx.now t.userId db (compared r.1) db' ∧
      Spared t.userId db db') db := by
  unfold tryTOTP
  cases validateNumericCode code with
  | error msg => exact Steady.pure ⟨.silent rfl rfl, fun v _ => rfl⟩
  | ok clean =>
    refine (validateTOTP_steady env ctx ht hlive clean).bind ?_
    intro r db' h
    exact Steady.pure h

/-- **The two validators compare a code once.** -/
theorem tryCode_steady (env : Env) (ctx : Ctx) {db : DB} {t : TwoFA} (ht : t ∈ db.twoFAs)
    (hlive : t.live = true) (code : String) :
    Steady (tryCode env ctx t code) (fun answers db' =>
      Told ctx.now t.userId db (compared answers) db' ∧ Spared t.userId db db') db := by
  cases hnum : validateNumericCode code with
  | error msg =>
    -- the backup code alone
    have htotp : tryTOTP env ctx t code = pure ([], t) := by
      unfold tryTOTP
      rw [hnum]
    unfold tryCode
    rw [htotp]
    refine (validateBackup_steady env ctx ht hlive code).bind ?_
    intro r db' h
    exact Steady.pure h
  | ok clean =>
    refine (tryTOTP_steady env ctx ht hlive code).bind ?_
    intro r db₁ h
    dsimp only
    by_cases hok : r.1.any isOk = true
    · rw [if_pos hok]
      exact Steady.pure h
    · rw [if_neg hok]
      refine (validateBackup_malformed env ctx r.2 (not_both_formats hnum) db₁).bind ?_
      intro r' db₂ hr'
      obtain ⟨hnone, rfl⟩ := hr'
      refine Steady.pure ?_
      rw [compared_append, hnone, List.append_nil]
      exact h

/-! ### The handlers -/

/-- What came of the comparisons with the codes of the user `u`. -/
def comparisons (u : Int) (checks : List (Int × Except Err Bool)) : List Bool :=
  compared ((checks.filter fun c => c.1 == u).map Prod.snd)

theorem comparisons_self (u : Int) (answers : List (Except Err Bool)) :
    comparisons u (checksOf u answers) = compared answers := by
  unfold comparisons checksOf
  rw [List.filter_map, List.map_map]
  simp [Function.comp_def]

theorem comparisons_other {u v : Int} (hv : v ≠ u) (answers : List (Except Err Bool)) :
    comparisons v (checksOf u answers) = [] := by
  unfold comparisons checksOf
  rw [List.filter_map]
  simp [Function.comp_def, beq_false_of_ne hv.symm, compared]

/-- What a request tells about every user. -/
def Tells (now : Int) (db : DB) (out : Out) (db' : DB) : Prop :=
  ∀ v, Told now v db (comparisons v out.checks) db'

theorem tells_silent {now : Int} {db : DB} {out : Out} (h : out.checks = []) : Tells now db out db := by
  intro v
  rw [h]
  exact .silent rfl rfl

/-- The comparisons of one user's codes are all that is told. -/
theorem tells_of_told {now u : Int} {db db' : DB} {answers : List (Except Err Bool)} {out : Out}
    (htold : Told now u db (compared answers) db') (hspared : Spared u db db')
    (h : out.checks = checksOf u answers) : Tells now db out db' := by
  intro v
  rw [h]
  by_cases hv : v = u
  · rw [hv, comparisons_self]
    exact htold
  · rw [comparisons_other hv]
    exact .silent rfl (hspared v hv)

/-- After a success the record may go. -/
theorem Told.cleared {now u : Int} {db db₁ db₂ : DB} {answers : List (Except Err Bool)}
    (h : Told now u db (compared answers) db₁) (hok : true ∈ compared answers)
    (hrecord : record db₂ u = record db₁ u ∨ record db₂ u = none) :
    Told now u db (compared answers) db₂ := by
  cases h with
  | silent h _ =>
    rw [h] at hok
    exact nomatch hok
  | missed t _ _ h _ =>
    rw [h] at hok
    exact absurd hok (by decide)
  | hit t ht hfree h hzero =>
    refine .hit t ht hfree h ?_
    intro t' ht'
    rcases hrecord with hsame | hnone
    · rw [hsame] at ht'
      exact hzero t' ht'
    · rw [hnone] at ht'
      exact nomatch ht'

theorem true_mem_compared {answers : List (Except Err Bool)} (h : answers.any isOk = true) :
    true ∈ compared answers := by
  obtain ⟨r, hr, hok⟩ := List.any_eq_true.mp h
  refine List.mem_filterMap.mpr ⟨r, hr, ?_⟩
  cases r with
  | error e => exact absurd hok Bool.false_ne_true
  | ok valid => exact congrArg some hok

/-- The record that a handler asks the validators about. -/
theorem enabledTwoFA_steady (u : Int) (db : DB) :
    Steady (getTwoFAByUserId u) (fun r db' => db' = db ∧ ∀ t, enabledTwoFA r = .ok t →
      t ∈ db.twoFAs ∧ t.live = true ∧ t.userId = u) db := by
  refine Prog.Holds.mono (getTwoFAByUserId_sat u db).steady ?_
  intro r db' h
  refine ⟨h.1, fun t ht => ?_⟩
  exact h.2 t (enabledTwoFA_ok ht).1

theorem verify2FALogin_tells (env : Env) (ctx : Ctx) (s : Sess) (req : Option String) (db : DB) :
    Steady (verify2FALogin env ctx s req) (Tells ctx.now db) db := by
  unfold verify2FALogin
  cases req with
  | none => exact Steady.pure (tells_silent rfl)
  | some code =>
    dsimp only
    cases s.cur.pendingUserId with
    | none => exact Steady.pure (tells_silent rfl)
    | some userId =>
      refine (getUserById_sat userId false db).steady.bind ?_
      rintro r db₁ ⟨rfl, -⟩
      cases r with
      | error e => exact Steady.pure (tells_silent rfl)
      | ok user =>
        refine (enabledTwoFA_steady user.id db₁).bind ?_
        rintro found db₂ ⟨rfl, hfound⟩
        cases hen : enabledTwoFA found with
        | error e => exact Steady.pure (tells_silent rfl)
        | ok t =>
          obtain ⟨ht, hlive, huser⟩ := hfound t hen
          refine (tryCode_steady env ctx ht hlive code).bind ?_
          rintro answers db₃ ⟨htold, hspared⟩
          rw [huser] at htold hspared
          cases verdict answers with
          | error e => exact Steady.pure (tells_of_told htold hspared rfl)
          | ok accepted =>
            cases accepted <;> exact Steady.pure (tells_of_told htold hspared rfl)

/-- Deleting the record of a user spares the others. -/
theorem disableTwoFA_steady (u : Int) (db : DB) :
    Steady (disableTwoFA u) (fun _ db' => Spared u db db' ∧
      (record db' u = record db u ∨ record db' u = none)) db := by
  unfold disableTwoFA
  refine (getTwoFAByUserId_sat u db).steady.bind ?_
  rintro r db₁ ⟨rfl, hr⟩
  cases r with
  | error e => exact Steady.pure ⟨fun v _ => rfl, Or.inl rfl⟩
  | ok found =>
    cases found with
    | none => exact Steady.pure ⟨fun v _ => rfl, Or.inl rfl⟩
    | some t =>
      obtain ⟨ht, hlive, rfl⟩ := hr t rfl
      have hid : t.id ≠ 0 := ne_of_gt (Table.key_pos ht)
      unfold TwoFA.delete
      dsimp only
      rw [if_neg hid]
      refine Steady.write rfl (Steady.pure ?_)
      have hmem : ∀ x, x ∈ (exec (.twoFADelete t) db₁).2.twoFAs ↔ x ∈ db₁.twoFAs ∧ (x.id == t.id) = false :=
        fun x => Table.mem_delete
      refine ⟨?_, Or.inr ?_⟩
      · intro v hv
        apply Option.ext
        intro x
        rw [record_eq_some, record_eq_some, hmem]
        constructor
        · rintro ⟨⟨hx, -⟩, h⟩
          exact ⟨hx, h⟩
        · rintro ⟨hx, hxlive, hxuser⟩
          refine ⟨⟨hx, ?_⟩, hxlive, hxuser⟩
          rw [beq_eq_false_iff_ne]
          intro he
          rw [Table.eq_of_key hx ht he] at hxuser
          exact hv hxuser.symm
      · rw [Option.eq_none_iff_forall_ne_some]
        intro x hx
        obtain ⟨hx, -, hxuser⟩ := record_eq_some.mp hx
        obtain ⟨hx, hne⟩ := (hmem x).mp hx
        rw [beq_eq_false_iff_ne] at hne
        have he : x = t := by
          refine Table.eq_of_clash hx ht ?_
          rw [TwoFA.clash_eq, beq_iff_eq, hxuser]
        rw [he] at hne
        exact hne rfl

theorem disable2FA_tells (env : Env) (ctx : Ctx) (s : Sess) (req : Option String) (db : DB) :
    Steady (disable2FA env ctx s req) (Tells ctx.now db) db := by
  unfold disable2FA
  cases req with
  | none => exact Steady.pure (tells_silent rfl)
  | some code =>
    refine (enabledTwoFA_steady ctx.id db).bind ?_
    rintro found db₁ ⟨rfl, hfound⟩
    cases hen : enabledTwoFA found with
    | error e => exact Steady.pure (tells_silent rfl)
    | ok t =>
      obtain ⟨ht, hlive, huser⟩ := hfound t hen
      refine (tryCode_steady env ctx ht hlive code).bind ?_
      rintro answers db₂ ⟨htold, hspared⟩
      rw [huser] at htold hspared
      dsimp only
      cases hverdict : verdict answers with
      | error e => exact Steady.pure (tells_of_told htold hspared rfl)
      | ok accepted =>
        cases accepted with
        | false => exact Steady.pure (tells_of_told htold hspared rfl)
        | true =>
          have hok := true_mem_compared (any_isOk_of_verdict hverdict)
          refine (disableTwoFA_steady ctx.id db₂).bind ?_
          rintro err db₃ ⟨hspared', hrecord⟩
          have hspared₃ : Spared ctx.id db₁ db₃ := fun v hv =>
            (hspared' v hv).trans (hspared v hv)
          cases err <;> exact Steady.pure (tells_of_told (htold.cleared hok hrecord) hspared₃ rfl)

/-- New backup codes touch no record. -/
theorem createBackupCodes_steady (ctx : Ctx) (u : Int) (codes : List String) (db : DB) :
    Steady (createBackupCodes ctx u codes) (fun _ db' => db'.twoFAs = db.twoFAs) db := by
  unfold createBackupCodes
  cases hashBackupCodes ctx codes with
  | error e => exact Steady.pure rfl
  | ok hashes =>
    refine Steady.write rfl (Steady.pure ?_)
    simp only [exec]
    cases DB.replaceCodes db.backupCodes u hashes ctx.now <;> rfl

theorem regenerateBackupCodes_tells (env : Env) (ctx : Ctx) (s : Sess) (req : Option String)
    (db : DB) : Steady (regenerateBackupCodes env ctx s req) (Tells ctx.now db) db := by
  unfold regenerateBackupCodes
  cases req with
  | none => exact Steady.pure (tells_silent rfl)
  | some code =>
    refine (enabledTwoFA_steady ctx.id db).bind ?_
    rintro found db₁ ⟨rfl, hfound⟩
    cases hen : enabledTwoFA found with
    | error e => exact Steady.pure (tells_silent rfl)
    | ok t =>
      obtain ⟨ht, hlive, huser⟩ := hfound t hen
      dsimp only
      cases validateNumericCode code with
      | error msg => exact Steady.pure (tells_silent rfl)
      | ok clean =>
        refine (validateTOTP_steady env ctx ht hlive clean).bind ?_
        rintro ⟨r, t'⟩ db₂ ⟨htold, hspared⟩
        rw [huser] at htold hspared
        dsimp only at htold ⊢
        cases r with
        | error e => exact Steady.pure (tells_of_told htold hspared rfl)
        | ok accepted =>
          cases accepted with
          | false => exact Steady.pure (tells_of_told htold hspared rfl)
          | true =>
            dsimp only
            cases ctx.backupCodes with
            | error e => exact Steady.pure (tells_of_told htold hspared rfl)
            | ok codes =>
              refine (createBackupCodes_steady ctx ctx.id codes db₂).bind ?_
              intro err db₃ hsame
              have hspared₃ : Spared ctx.id db₁ db₃ := fun v hv =>
                (record_congr hsame v).trans (hspared v hv)
              have hrecord := Or.inl (b := record db₃ ctx.id = none) (record_congr hsame ctx.id)
              cases err <;>
                exact Steady.pure (tells_of_told (htold.cleared List.mem_cons_self hrecord)
                  hspared₃ rfl)

theorem universalVerify_tells (env : Env) (ctx : Ctx) (s : Sess)
    (req : Except Err UniversalVerifyRequest) (db : DB) :
    Steady (universalVerify env ctx s req) (Tells ctx.now db) db := by
  unfold universalVerify
  split
  · exact Steady.pure (tells_silent rfl)
  cases req with
  | error e => exact Steady.pure (tells_silent rfl)
  | ok r =>
    refine (fillUserById_sat ctx.id db).steady.bind ?_
    rintro ⟨err, user⟩ db₁ ⟨rfl, -⟩
    cases err with
    | some e => exact Steady.pure (tells_silent rfl)
    | none =>
      dsimp only
      split
      · exact Steady.pure (tells_silent rfl)
      refine (getTwoFAByUserId_sat ctx.id db₁).steady.bind ?_
      rintro found db₂ ⟨rfl, hfound⟩
      refine (getPasskeyByUserID_sat ctx.id db₂).steady.bind ?_
      rintro passkey db₃ ⟨rfl, -⟩
      split
      · exact Steady.pure (tells_silent rfl)
      unfold verifyMethod
      split
      · split
        · exact Steady.pure (tells_silent rfl)
        split
        · exact Steady.pure (tells_silent rfl)
        have hanswers : Steady (validateTwoFactorAuth env ctx found.toOption.join r.code)
            (fun answers db' => Told ctx.now ctx.id db₃ (compared answers) db' ∧
              Spared ctx.id db₃ db') db₃ := by
          unfold validateTwoFactorAuth
          cases hjoin : found.toOption.join with
          | none => exact Steady.pure ⟨.silent rfl rfl, fun v _ => rfl⟩
          | some t =>
            have hok : found = .ok (some t) := by
              cases found with
              | error e => exact nomatch hjoin
              | ok o => exact congrArg Except.ok hjoin
            obtain ⟨ht, hlive, huser⟩ := hfound t hok
            dsimp only
            split
            · exact Steady.pure ⟨.silent rfl rfl, fun v _ => rfl⟩
            · rw [← huser]
              exact tryCode_steady env ctx ht hlive r.code
        refine hanswers.bind ?_
        rintro answers db₄ ⟨htold, hspared⟩
        split
        · exact Steady.pure (tells_of_told htold hspared rfl)
        · exact Steady.pure (tells_of_told htold hspared (stamp_checks _ _ _ _))
      · split
        · split
          · exact Steady.pure (tells_silent rfl)
          · exact Steady.pure (tells_silent (stamp_checks _ _ _ _))
        · exact Steady.pure (tells_silent rfl)

/-! ### Requests, one at a time -/

inductive Request
  | verify2FALogin (code : Option String)
  | disable2FA (code : Option String)
  | regenerateBackupCodes (code : Option String)
  | universalVerify (req : Except Err UniversalVerifyRequest)

/-- A request: its cookie and its context, and the reads that fail under it. -/
structure Act where
  request : Request
  cookie : Session := {}
  authorization : String := ""
  ctx : Ctx
  outages : Nat → Option Err := fun _ => none

def handle (env : Env) (a : Act) : M Out :=
  let s := Sess.ofCookie a.cookie
  match a.request with
  | .verify2FALogin code => verify2FALogin env a.ctx s code
  | .disable2FA code =>
    behind userAuth s a.authorization a.ctx fun ctx => disable2FA env ctx s code
  | .regenerateBackupCodes code =>
    behind userAuth s a.authorization a.ctx fun ctx => regenerateBackupCodes env ctx s code
  | .universalVerify req =>
    behind userAuth s a.authorization a.ctx fun ctx => universalVerify env ctx s req

/-- A request on a database whose writes succeed. -/
def respond (env : Env) (db : DB) (a : Act) : Out × Store :=
  (handle env a).run (Store.exec DBOp.isRead) ⟨db, a.outages⟩

def step (env : Env) (db : DB) (a : Act) : DB := (respond env db a).2.db

/-- What came of the comparisons with codes of the user `u`. -/
def outcomes (env : Env) (u : Int) (db : DB) (a : Act) : List Bool :=
  comparisons u (respond env db a).1.checks

/-- **What one request does to the record of a user.** -/
theorem told (env : Env) (u : Int) (db : DB) (a : Act) :
    Told a.ctx.now u db (outcomes env u db a) (step env db a) := by
  have hbehind : ∀ handler : Ctx → M Out, (∀ auth : Auth, ∀ db₁,
      Steady (handler (auth.toCtx a.ctx)) (Tells a.ctx.now db₁) db₁) →
      Steady (behind userAuth (Sess.ofCookie a.cookie) a.authorization a.ctx handler)
        (Tells a.ctx.now db) db := by
    intro handler hhandler
    refine ((authHelper_readOnly roleCommonUser _ _).sat db).steady.bind ?_
    rintro r db₁ rfl
    cases r with
    | error reply => exact Steady.pure (tells_silent rfl)
    | ok auth => exact hhandler auth db₁
  have htells : Steady (handle env a) (Tells a.ctx.now db) db := by
    unfold handle
    dsimp only
    cases a.request with
    | verify2FALogin code => exact verify2FALogin_tells env a.ctx _ code db
    | disable2FA code => exact hbehind _ fun auth db₁ => disable2FA_tells env _ _ code db₁
    | regenerateBackupCodes code =>
      exact hbehind _ fun auth db₁ => regenerateBackupCodes_tells env _ _ code db₁
    | universalVerify req => exact hbehind _ fun auth db₁ => universalVerify_tells env _ _ req db₁
  exact Steady.run (s := ⟨db, a.outages⟩) htells u

/-! ### Runs -/

/-- The wrong codes of the user that a run of requests compares. -/
def misses (env : Env) (u : Int) : DB → List Act → Nat
  | _, [] => 0
  | db, a :: acts => (outcomes env u db a).count false + misses env u (step env db a) acts

/-- No request of the run verifies the user. -/
def Unverified (env : Env) (u : Int) : DB → List Act → Prop
  | _, [] => True
  | db, a :: acts => true ∉ outcomes env u db a ∧ Unverified env u (step env db a) acts

instance decidableUnverified (env : Env) (u : Int) :
    (db : DB) → (acts : List Act) → Decidable (Unverified env u db acts)
  | _, [] => instDecidableTrue
  | db, a :: acts =>
    @instDecidableAnd _ _ inferInstance (decidableUnverified env u (step env db a) acts)

/-- The record of a user as a meter of failures. -/
def meter (db : DB) (u : Int) : Meter :=
  match record db u with
  | none => {}
  | some t => ⟨t.failedAttempts, t.lockedUntil⟩

theorem isLocked_iff {now : Int} {t : TwoFA} :
    t.isLocked now = true ↔ ∃ l, t.lockedUntil = some l ∧ now < l := by
  unfold TwoFA.isLocked
  cases t.lockedUntil with
  | none => simp
  | some l => simp

/-- A failure of the record is a failure of its meter. -/
theorem meter_failed (now : Int) (t : TwoFA) :
    (⟨(t.failed now).failedAttempts, (t.failed now).lockedUntil⟩ : Meter)
      = Meter.fail maxFailAttempts (lockoutDuration * second) now
          ⟨t.failedAttempts, t.lockedUntil⟩ := by
  unfold TwoFA.failed Meter.fail
  dsimp only
  by_cases hmax : maxFailAttempts ≤ t.failedAttempts + 1
  · rw [if_pos hmax, if_pos hmax]
  · rw [if_neg hmax, if_neg hmax]

/-- A request that does not verify the user is a tick of the meter. -/
theorem tick_of_told {now u : Int} {db db' : DB} {comparisons : List Bool}
    (h : Told now u db comparisons db') (hno : true ∉ comparisons) :
    Meter.Tick maxFailAttempts (lockoutDuration * second) now (meter db u)
      (comparisons.count false) (meter db' u) := by
  cases h with
  | silent h hrecord =>
    have hsame : meter db' u = meter db u := by
      unfold meter
      rw [hrecord]
    rw [h, hsame]
    exact .idle
  | missed t ht hfree h hrecord =>
    have hbefore : meter db u = ⟨t.failedAttempts, t.lockedUntil⟩ := by
      unfold meter
      rw [ht]
    have hafter : meter db' u = Meter.fail maxFailAttempts (lockoutDuration * second) now
        ⟨t.failedAttempts, t.lockedUntil⟩ := by
      rw [← meter_failed]
      unfold meter
      rw [hrecord]
    rw [h, hbefore, hafter]
    refine .failed ?_
    intro hlocked
    rw [isLocked_iff.mpr hlocked] at hfree
    cases hfree
  | hit t ht hfree h hrecord =>
    rw [h] at hno
    exact absurd List.mem_cons_self hno

/-- A run that does not verify the user is a run of the meter. -/
theorem run_of_unverified {env : Env} {u : Int} {db : DB} {acts : List Act}
    (h : Unverified env u db acts) : ∃ m', Meter.Run maxFailAttempts (lockoutDuration * second)
      (meter db u) (acts.map fun a => a.ctx.now) (misses env u db acts) m' := by
  induction acts generalizing db with
  | nil => exact ⟨_, .nil⟩
  | cons a acts ih =>
    obtain ⟨m', hrun⟩ := ih h.2
    exact ⟨m', .cons (tick_of_told (told env u db a) h.1) hrun⟩

/-- **The wrong codes of a period.** -/
theorem misses_le {env : Env} {u : Int} {db : DB} {acts : List Act} {t₀ : Int} {T : Nat}
    (hperiod : ∀ a ∈ acts, t₀ ≤ a.ctx.now ∧ a.ctx.now ≤ t₀ + T * second)
    (h : Unverified env u db acts) : misses env u db acts ≤ maxFailAttempts + T / lockoutDuration := by
  obtain ⟨m', hrun⟩ := run_of_unverified h
  have htimes : ∀ now ∈ acts.map (fun a => a.ctx.now), t₀ ≤ now ∧ now ≤ t₀ + T * second := by
    intro now hnow
    obtain ⟨a, ha, rfl⟩ := List.mem_map.mp hnow
    exact hperiod a ha
  have hle := Meter.failures_le (show 0 < maxFailAttempts by decide)
    (show (0 : Int) < lockoutDuration * second by decide)
    (show (0 : Int) ≤ T * second from Int.mul_nonneg (Int.natCast_nonneg T) (by decide)) htimes hrun
  have hunits : (T * second : Int) / (lockoutDuration * second) = T / lockoutDuration :=
    Int.mul_ediv_mul_of_pos_left _ _ (show 0 < second by decide)
  rw [hunits] at hle
  omega

theorem count_le_one {now u : Int} {db db' : DB} {comparisons : List Bool}
    (h : Told now u db comparisons db') : comparisons.count false ≤ 1 := by
  cases h with
  | silent h _ => rw [h]; decide
  | missed _ _ _ h _ => rw [h]; decide
  | hit _ _ _ h _ => rw [h]; decide

/-- The counter grows by the wrong codes that were compared, or is cleared. -/
theorem count_grows {now u : Int} {db db' : DB} {comparisons : List Bool}
    (h : Told now u db comparisons db') {t t' : TwoFA} (ht : record db u = some t)
    (ht' : record db' u = some t') :
    t'.failedAttempts ≤ t.failedAttempts + comparisons.count false := by
  cases h with
  | silent h hrecord =>
    rw [hrecord, ht] at ht'
    obtain rfl := Option.some.inj ht'
    exact Nat.le_add_right _ _
  | missed t₁ ht₁ _ h hrecord =>
    obtain rfl := Option.some.inj (ht.symm.trans ht₁)
    obtain rfl := Option.some.inj (hrecord.symm.trans ht')
    have hcount : (t.failed now).failedAttempts = t.failedAttempts + 1 := by
      unfold TwoFA.failed
      dsimp only
      split <;> rfl
    rw [h, hcount]
    exact le_refl _
  | hit _ _ _ _ hzero =>
    rw [hzero t' ht']
    exact Nat.zero_le _

/-- A locked record is left alone. -/
theorem Told.locked {now u : Int} {db db' : DB} {comparisons : List Bool}
    (h : Told now u db comparisons db') {t : TwoFA} (ht : record db u = some t)
    (hlocked : t.isLocked now = true) : comparisons = [] ∧ record db' u = some t := by
  have hfree : ∀ t₁, record db u = some t₁ → ¬ t₁.isLocked now = false := by
    intro t₁ ht₁ hfree
    obtain rfl := Option.some.inj (ht.symm.trans ht₁)
    rw [hlocked] at hfree
    cases hfree
  cases h with
  | silent h hrecord => exact ⟨h, hrecord.trans ht⟩
  | missed t₁ ht₁ h _ _ => exact absurd h (hfree t₁ ht₁)
  | hit t₁ ht₁ h _ _ => exact absurd h (hfree t₁ ht₁)

/-- **Guesses are throttled.**  Whatever has gone before:

* in a period of `T` seconds in which the user is not verified, at most
  `maxFailAttempts + T / lockoutDuration` wrong codes are compared;
* one request compares one wrong code at most, and counts it once at most;
* while the lock of the record lies in the future, nothing is compared and the
  record stays as it is. -/
theorem throttled (env : Env) (u : Int) (db : DB) (before : List Act) :
    (∀ (period : List Act) (t₀ : Int) (T : Nat),
      (∀ a ∈ period, t₀ ≤ a.ctx.now ∧ a.ctx.now ≤ t₀ + T * second) →
      Unverified env u (Runs.after (step env) db before) period →
      misses env u (Runs.after (step env) db before) period
        ≤ maxFailAttempts + T / lockoutDuration) ∧
    ∀ a, (outcomes env u (Runs.after (step env) db before) a).count false ≤ 1 ∧
      (∀ t t', record (Runs.after (step env) db before) u = some t →
        record (Runs.after (step env) db (before ++ [a])) u = some t' →
          t'.failedAttempts ≤ t.failedAttempts
            + (outcomes env u (Runs.after (step env) db before) a).count false) ∧
      ∀ t l, record (Runs.after (step env) db before) u = some t → t.lockedUntil = some l →
        a.ctx.now < l → outcomes env u (Runs.after (step env) db before) a = [] ∧
          record (Runs.after (step env) db (before ++ [a])) u = some t := by
  refine ⟨fun period t₀ T hperiod h => misses_le hperiod h, fun a => ?_⟩
  rw [Runs.after_snoc]
  have htold := told env u (Runs.after (step env) db before) a
  refine ⟨count_le_one htold, fun t t' => count_grows htold, ?_⟩
  intro t l ht hl hlt
  exact htold.locked ht (isLocked_iff.mpr ⟨l, hl, hlt⟩)

/-! ### A guesser -/

/-- Dave, whose second factor is pending in the guesser's session. -/
def daveDB : DB where
  users := Table.single { id := 1, username := "dave", role := 1, status := 1 }
  twoFAs := Table.single { id := 1, userId := 1, secret := "123456", isEnabled := true }
  backupCodes := Table.empty
  passkeys := Table.empty

/-- A wrong code, some seconds after the first. -/
def guess (seconds : Int) : Act where
  request := .verify2FALogin (some "000000")
  cookie := { pendingUserId := some 1 }
  ctx := Ctx.plain (seconds * second)

/-- Seven guesses at once and two more later: six are compared. -/
def guesses : List Act := List.replicate 7 (guess 0) ++ [guess 299, guess 300]

theorem throttled_dave : misses Env.plain 1 daveDB guesses = 6 ∧
    misses Env.plain 1 daveDB guesses ≤ maxFailAttempts + 300 / lockoutDuration := by
  refine ⟨by decide, (throttled Env.plain 1 daveDB []).1 guesses 0 300 ?_ ?_⟩
  · decide
  · decide

end AuthGateway.Throttling
