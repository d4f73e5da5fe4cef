import AuthGateway.Controller.TwoFA
import AuthGateway.Lib.OneTimeCodes
import AuthGateway.Lib.TableCount

/-!
# The ledger of backup codes

Requests that set up two-factor authentication, regenerate backup codes, disable
it and validate codes, one after the other, of any users and on a database that
may fail any statement.  The **history** of a run is what a reader of the
replies and of the `two_fas` table sees: the codes that were shown, the records
that are gone, and the codes that were accepted.

The unused rows of a user are, body by body, as many as the history leaves
(`Balanced`).  So **`ValidateBackupCode` accepts exactly what spells a code of the
user's last generation that is not spent and whose record was not deleted since**
(`accepts_iff_outstanding`).
-/

namespace AuthGateway.BackupCodeLedger

open Common Model Controller OneTimeCodes

/-! ### Requests -/

inductive Request
  | setup2FA (s : Sess) (key : Except Err (String × String))
  | enable2FA (s : Sess) (code : Option String)
  | regenerateBackupCodes (s : Sess) (code : Option String)
  | disableTwoFA (userId : Int)
  | validateBackupCode (userId : Int) (code : String)

/-- A request, the bytes it draws, and the statements that fail under it. -/
structure Act where
  request : Request
  ctx : Ctx
  rand : Nat → Except Err UInt8
  outages : Nat → Option Err := fun _ => none

inductive Answer
  | replied (out : Out)
  | disabled (err : Option Err)
  | validated (r : Except Err Bool)

/-- The context in which codes are generated from the bytes. -/
def Act.drawn (a : Act) : Ctx := { a.ctx with backupCodes := generateBackupCodes a.rand }

def handle (env : Env) (a : Act) : M Answer :=
  match a.request with
  | .setup2FA s key => .replied <$> setup2FA a.drawn s key
  | .enable2FA s code => .replied <$> enable2FA env a.drawn s code
  | .regenerateBackupCodes s code => .replied <$> regenerateBackupCodes env a.drawn s code
  | .disableTwoFA userId => .disabled <$> disableTwoFA userId
  | .validateBackupCode userId code =>
    .validated <$> Model.validateBackupCode env a.drawn userId code

def step (env : Env) (db : DB) (a : Act) : DB := (serve (handle env a) ⟨db, a.outages⟩).2.db

/-- The database after a run. -/
def after (env : Env) (db : DB) (acts : List Act) : DB := Runs.after (step env) db acts

/-! ### The history -/

/-- The codes a reply shows. -/
def shown (reply : Reply) : Option (List String) :=
  match reply with
  | .json _ true _ (some data) =>
    match data.member? "backup_codes" with
    | some (.arr codes) => some (codes.filterMap fun | .str code => some code | _ => none)
    | _ => none
  | _ => none

/-- The users whose record is gone. -/
def gone (db db' : DB) : List Int :=
  (db.twoFAs.rows.filter fun t => db'.twoFAs.rows.all fun t' => t'.id != t.id).map TwoFA.userId

/-- What was shown, to the user `userId`, or accepted. -/
def answered (userId : Int) : Request → Answer → Option (Event Int String)
  | .validateBackupCode userId code, .validated (.ok true) =>
    some (.spent userId (cleanBackupCode code))
  | _, .replied out => (shown out.reply).map fun codes => .issued userId (codes.map bodyOf)
  | _, _ => none

/-- What one request adds to the history. -/
def events (env : Env) (db : DB) (a : Act) : List (Event Int String) :=
  (gone db (step env db a)).map .voided
    ++ (answered a.ctx.id a.request (serve (handle env a) ⟨db, a.outages⟩).1).toList

/-- The history of a run. -/
def history (env : Env) (db : DB) (acts : List Act) : List (Event Int String) :=
  Runs.gather (step env) (events env) db acts

/-! ### The statements -/

theorem mem_gone {db db' : DB} {userId : Int} :
    userId ∈ gone db db' ↔ ∃ t ∈ db.twoFAs, t.userId = userId ∧ ∀ t' ∈ db'.twoFAs, t'.id ≠ t.id := by
  simp only [gone, List.mem_map, List.mem_filter, List.all_eq_true, bne_iff_ne]
  constructor
  · rintro ⟨t, ⟨ht, hgone⟩, huser⟩
    exact ⟨t, ht, huser, hgone⟩
  · rintro ⟨t, ht, huser, hgone⟩
    exact ⟨t, ⟨ht, hgone⟩, huser⟩

/-- The codes are as they were, and no record is gone. -/
structure Calm (db db' : DB) : Prop where
  codes : db'.backupCodes = db.backupCodes
  kept : ∀ t ∈ db.twoFAs, ∃ t' ∈ db'.twoFAs, t'.id = t.id

/-- Both tables are as they were. -/
theorem Calm.of_same {db db' : DB} (hcodes : db'.backupCodes = db.backupCodes)
    (htwoFAs : db'.twoFAs = db.twoFAs) : Calm db db' :=
  ⟨hcodes, fun t ht => ⟨t, by rw [htwoFAs]; exact ht, rfl⟩⟩

theorem Calm.refl (db : DB) : Calm db db := Calm.of_same rfl rfl

theorem Calm.trans {db₁ db₂ db₃ : DB} (h : Calm db₁ db₂) (h' : Calm db₂ db₃) : Calm db₁ db₃ := by
  refine ⟨h'.codes.trans h.codes, fun t ht => ?_⟩
  obtain ⟨t', ht', hid⟩ := h.kept t ht
  obtain ⟨t'', ht'', hid'⟩ := h'.kept t' ht'
  exact ⟨t'', ht'', hid'.trans hid⟩

theorem Calm.not_mem_gone {db db' : DB} (h : Calm db db') (userId : Int) :
    userId ∉ gone db db' := by
  intro hmem
  obtain ⟨t, ht, -, hgone⟩ := mem_gone.mp hmem
  obtain ⟨t', ht', hid⟩ := h.kept t ht
  exact hgone t' ht' hid

/-- The statements that touch no code and delete no record. -/
def calm : DBOp → Bool
  | .codeSave _ | .codesReplace _ _ _ | .twoFADelete _ => false
  | _ => true

theorem exec_calm {o : DBOp} (h : calm o = true) (db : DB) : Calm db (exec o db).2 := by
  cases o with
  | codeSave c => cases h
  | codesReplace u hashes now => cases h
  | twoFADelete t => cases h
  | twoFACreate t =>
    simp only [exec]
    cases hcreate : db.twoFAs.create t with
    | none => exact Calm.refl db
    | some r =>
      obtain ⟨row, twoFAs⟩ := r
      exact ⟨rfl, fun t' ht' => ⟨t', (Table.mem_create hcreate).mpr (Or.inr ht'), rfl⟩⟩
  | twoFASave t =>
    simp only [exec]
    cases hput : db.twoFAs.put t with
    | none => exact Calm.refl db
    | some twoFAs =>
      refine ⟨rfl, fun t' ht' => ?_⟩
      by_cases hid : t'.id = t.id
      · exact ⟨t, (Table.mem_put hput).mpr (Or.inl rfl), hid.symm⟩
      · exact ⟨t', (Table.mem_put hput).mpr (Or.inr ⟨ht', hid⟩), rfl⟩
  | userCreate u =>
    simp only [exec]
    cases db.users.create u.withDefaults <;> exact Calm.of_same rfl rfl
  | userUpdates p f =>
    simp only [exec]
    cases db.users.update (fun u => u.live && p u) f <;> exact Calm.of_same rfl rfl
  | userSave u =>
    simp only [exec]
    cases db.users.put u <;> exact Calm.of_same rfl rfl
  | passkeyUpsert c =>
    simp only [exec]
    cases ((db.passkeys.delete fun x => x.userID == c.userID).create c).map Prod.snd <;>
      exact Calm.of_same rfl rfl
  | _ => exact Calm.of_same rfl rfl

theorem May.calm {o : DBOp} (ho : calm o = true) {db db' : DB} {r : Except Err o.Ans}
    (h : May o db r db') : Calm db db' := by
  rcases h with ⟨-, rfl⟩ | ⟨-, rfl⟩
  · exact exec_calm ho db
  · exact Calm.refl db'

/-- A program of calm statements. -/
theorem calm_sat {α : Type} {p : M α} (h : Prog.Only (fun o => calm o = true) p) (db : DB) :
    Sat p (fun _ db' => Calm db db') db := by
  have hkeep : ∀ o (db₁ : DB) r (db₂ : DB), calm o = true → May o db₁ r db₂ →
      Calm db db₁ → Calm db db₂ := fun _ _ _ _ ho hmay hs => hs.trans (May.calm ho hmay)
  exact h.keeps hkeep (Calm.refl db)

/-! ### What a request does -/

/-- The record is deleted, and the user's codes with it. -/
structure Deleted (t : TwoFA) (db db' : DB) : Prop where
  mem : t ∈ db.twoFAs
  codes : db'.backupCodes = db.backupCodes.delete fun c => c.userId == t.userId
  twoFAs : db'.twoFAs = db.twoFAs.delete fun x => x.id == t.id

/-- Nothing is touched, and only newer records are added. -/
structure Grown (db db' : DB) : Prop where
  codes : db'.backupCodes = db.backupCodes
  kept : ∀ t ∈ db.twoFAs, t ∈ db'.twoFAs
  newer : ∀ t ∈ db'.twoFAs, t ∈ db.twoFAs ∨ db.twoFAs.nextKey ≤ t.id

theorem Grown.calm {db db' : DB} (h : Grown db db') : Calm db db' :=
  ⟨h.codes, fun t ht => ⟨t, h.kept t ht, rfl⟩⟩

/-- The user's codes are dropped, and a record of the user is gone. -/
structure Cleared (userId : Int) (db db' : DB) : Prop where
  codes : db'.backupCodes = db.backupCodes.delete fun c => c.userId == userId
  gone : ∀ v, v ∈ gone db db' ↔ v = userId

/-- A record that was deleted does not come back. -/
theorem Deleted.cleared {t : TwoFA} {db db₁ db₂ : DB} (h : Deleted t db db₁) (h' : Grown db₁ db₂) :
    Cleared t.userId db db₂ := by
  refine ⟨h'.codes.trans h.codes, fun v => ?_⟩
  rw [mem_gone]
  constructor
  · rintro ⟨x, hx, rfl, hgone⟩
    by_cases hid : x.id = t.id
    · rw [Table.eq_of_key hx h.mem hid]
    · have hx₁ : x ∈ db₁.twoFAs := by
        rw [h.twoFAs, Table.mem_delete]
        exact ⟨hx, by simpa using hid⟩
      exact absurd rfl (hgone x (h'.kept x hx₁))
  · rintro rfl
    refine ⟨t, h.mem, rfl, fun t' ht' hid => ?_⟩
    rcases h'.newer t' ht' with ht' | hlater
    · rw [h.twoFAs, Table.mem_delete] at ht'
      simp [hid] at ht'
    · have hlt : t.id < db.twoFAs.nextKey := Table.key_lt_nextKey h.mem
      rw [h.twoFAs] at hlater
      have hsame : (db.twoFAs.delete fun x => x.id == t.id).nextKey = db.twoFAs.nextKey := rfl
      omega

/-- **What a request can do** to the codes and the records of a user, and what the
history says of it. -/
inductive Effect (env : Env) (ctx : Ctx) (userId : Int) (db db' : DB) :
    Option (Event Int String) → Prop
  | calm (hcalm : Calm db db') : Effect env ctx userId db db' none
  | cleared (hcleared : Cleared userId db db') : Effect env ctx userId db db' none
  | issued (codes hashes : List String) (old : Table TwoFABackupCode)
      (hcodes : ctx.backupCodes = .ok codes) (hhashes : hashBackupCodes ctx codes = .ok hashes)
      (hold : old = db.backupCodes ∨ old = db.backupCodes.delete fun c => c.userId == userId)
      (hreplace : DB.replaceCodes old userId hashes ctx.now = some db'.backupCodes)
      (hgone : ∀ v ∈ gone db db', v = userId) :
      Effect env ctx userId db db' (some (.issued userId (codes.map bodyOf)))
  | spent (code : String) (bc : TwoFABackupCode) (hbody : BackupBody (cleanBackupCode code))
      (hmem : bc ∈ db.backupCodes) (hlive : bc.live = true) (huser : bc.userId = userId)
      (hunused : bc.isUsed = false)
      (hcompare : env.bcryptCompare bc.codeHash (normalizeBackupCode code) = true)
      (hput : db.backupCodes.put (bc.used ctx.now) = some db'.backupCodes)
      (htwoFAs : db'.twoFAs = db.twoFAs) :
      Effect env ctx userId db db' (some (.spent userId (cleanBackupCode code)))

theorem getTwoFAByUserId_calm (userId : Int) :
    Prog.Only (fun o => calm o = true) (getTwoFAByUserId userId) :=
  getTwoFAByUserId_only (fun _ => rfl) userId

theorem delete_sat {t : TwoFA} {db : DB} (ht : t ∈ db.twoFAs) :
    Sat t.delete (fun err db' => db' = db ∨ err = none ∧ Deleted t db db') db := by
  unfold TwoFA.delete
  split
  · exact Sat.pure (Or.inl rfl)
  · refine Sat.perform fun r db' h => Sat.pure ?_
    rcases h with ⟨rfl, rfl⟩ | ⟨-, rfl⟩
    · exact Or.inr ⟨rfl, ht, rfl, rfl⟩
    · exact Or.inl rfl

theorem disableTwoFA_sat (userId : Int) (db : DB) :
    Sat (disableTwoFA userId) (fun _ db' => Calm db db' ∨ Cleared userId db db') db := by
  unfold disableTwoFA
  refine (getTwoFAByUserId_sat userId db).bind ?_
  rintro r _ ⟨rfl, hfound⟩
  split
  · exact Sat.pure (Or.inl (Calm.refl _))
  · exact Sat.pure (Or.inl (Calm.refl _))
  · rename_i t
    obtain ⟨ht, -, rfl⟩ := hfound t rfl
    refine Prog.Holds.mono (delete_sat ht) ?_
    rintro err db' (rfl | ⟨-, hdeleted⟩)
    · exact Or.inl (Calm.refl _)
    · exact Or.inr (hdeleted.cleared ⟨rfl, fun _ h => h, fun _ h => Or.inl h⟩)

/-- A record that is created is the newest. -/
theorem create_sat {t : TwoFA} (hid : t.id = 0) (db : DB) :
    Sat t.create (fun _ db' => Grown db db') db := by
  have hsame : Grown db db := ⟨rfl, fun _ h => h, fun _ h => Or.inl h⟩
  unfold TwoFA.create
  refine ((getTwoFAByUserId_readOnly t.userId).sat db).bind ?_
  rintro r _ rfl
  split
  · exact Sat.pure hsame
  · exact Sat.pure hsame
  · refine Sat.perform fun r db₁ h => ?_
    obtain ⟨rfl, -⟩ := h.userFirst
    split
    · exact Sat.pure hsame
    · refine Sat.perform fun r db₂ h => Sat.pure ?_
      rcases h with ⟨-, rfl⟩ | ⟨-, rfl⟩
      · simp only [exec]
        cases hcreate : db₁.twoFAs.create t with
        | none => exact hsame
        | some row =>
          obtain ⟨row, twoFAs⟩ := row
          have hkey : Row.key row = db₁.twoFAs.nextKey := by
            rw [Table.create, if_pos (show Row.key t = 0 from hid)] at hcreate
            exact Table.key_insert hcreate
          refine ⟨rfl, fun t' ht' => (Table.mem_create hcreate).mpr (Or.inr ht'), ?_⟩
          intro t' ht'
          rcases (Table.mem_create hcreate).mp ht' with rfl | ht'
          · exact Or.inr (le_of_eq hkey.symm)
          · exact Or.inl ht'
      · exact hsame

theorem createBackupCodes_sat (ctx : Ctx) (userId : Int) (codes : List String) (db : DB) :
    Sat (createBackupCodes ctx userId codes) (fun err db' => db'.twoFAs = db.twoFAs ∧
      (db' = db ∧ err ≠ none ∨ err = none ∧ ∃ hashes, hashBackupCodes ctx codes = .ok hashes ∧
        DB.replaceCodes db.backupCodes userId hashes ctx.now = some db'.backupCodes)) db := by
  unfold createBackupCodes
  cases hhashes : hashBackupCodes ctx codes with
  | error e => exact Sat.pure ⟨rfl, Or.inl ⟨rfl, by simp⟩⟩
  | ok hashes =>
    refine Sat.perform fun r db' h => Sat.pure ?_
    rcases h with ⟨rfl, rfl⟩ | ⟨⟨e, rfl⟩, rfl⟩
    · simp only [exec]
      cases hreplace : DB.replaceCodes db.backupCodes userId hashes ctx.now with
      | none => exact ⟨rfl, Or.inl ⟨rfl, by simp [DB.written, errorOf]⟩⟩
      | some t => exact ⟨rfl, Or.inr ⟨rfl, hashes, rfl, hreplace⟩⟩
    · exact ⟨rfl, Or.inl ⟨rfl, by simp [errorOf]⟩⟩

theorem shown_codes (status : Nat) (msg : String) (members : List (String × Json))
    (codes : List String)
    (h : (Json.obj members).member? "backup_codes" = some (.arr (codes.map .str))) :
    shown (.json status true msg (some (.obj members))) = some codes := by
  have hall : (codes.map Json.str).filterMap (fun | .str code => some code | _ => none) = codes := by
    rw [List.filterMap_map]
    exact List.filterMap_some
  unfold shown
  simp only [h, hall]

/-- What follows once the codes are drawn: they are stored and shown, or nothing is. -/
theorem issue_effect (env : Env) {ctx : Ctx} {userId : Int} {db db₁ db₂ : DB} {codes : List String}
    {err : Option Err} (hcodes : ctx.backupCodes = .ok codes)
    (hbefore : Calm db db₁ ∨ Cleared userId db db₁) (htwoFAs : db₂.twoFAs = db₁.twoFAs)
    (h : db₂ = db₁ ∧ err ≠ none ∨ err = none ∧ ∃ hashes, hashBackupCodes ctx codes = .ok hashes ∧
      DB.replaceCodes db₁.backupCodes userId hashes ctx.now = some db₂.backupCodes) :
    Effect env ctx userId db db₂
      (if err = none then some (.issued userId (codes.map bodyOf)) else none) := by
  rcases h with ⟨rfl, herr⟩ | ⟨rfl, hashes, hhashes, hreplace⟩
  · rw [if_neg herr]
    rcases hbefore with hcalm | hcleared
    · exact .calm hcalm
    · exact .cleared hcleared
  · rw [if_pos rfl]
    have hgone : gone db db₂ = gone db db₁ := by
      unfold gone
      rw [htwoFAs]
    refine .issued codes hashes db₁.backupCodes hcodes hhashes ?_ hreplace ?_
    · rcases hbefore with hcalm | hcleared
      · exact Or.inl hcalm.codes
      · exact Or.inr hcleared.codes
    · intro v hv
      rw [hgone] at hv
      rcases hbefore with hcalm | hcleared
      · exact absurd hv (hcalm.not_mem_gone v)
      · exact (hcleared.gone v).mp hv

/-- What the user `userId` was shown, if anything. -/
def issue (userId : Int) (out : Out) : Option (Event Int String) :=
  (shown out.reply).map fun codes => .issued userId (codes.map bodyOf)

/-- `Setup2FA` from `GetUserById` on, when no record is in the way. -/
def newTwoFA (ctx : Ctx) (s : Sess) (key : Except Err (String × String)) : M Out := do
  match ← getUserById ctx.id false with
  | .error e => return s.apiError e
  | .ok _ =>
    match key, ctx.backupCodes with
    | .error _, _ => return s.fail "生成2FA密钥失败"
    | .ok _, .error _ => return s.fail "生成备用码失败"
    | .ok (secret, qrCodeData), .ok backupCodes =>
      match ← TwoFA.create { userId := ctx.id, secret := secret, isEnabled := false } with
      | some e => return s.apiError e
      | none =>
        match ← createBackupCodes ctx ctx.id backupCodes with
        | some _ => return s.fail "保存备用码失败"
        | none =>
          return s.answer (.json 200 true
            "2FA设置初始化成功，请使用认证器扫描二维码并输入验证码完成设置"
            (some (.obj [("secret", .str secret), ("qr_code_data", .str qrCodeData),
              ("backup_codes", .arr (backupCodes.map .str))])))

/-- What was done before, and the codes. -/
theorem newTwoFA_effect {env : Env} {ctx : Ctx} {db db₁ : DB}
    (hbefore : ∀ db₂, Grown db₁ db₂ → Calm db db₂ ∨ Cleared ctx.id db db₂) (s : Sess)
    (key : Except Err (String × String)) :
    Sat (newTwoFA ctx s key) (fun out db' => Effect env ctx ctx.id db db' (issue ctx.id out)) db₁ := by
  have hquiet : ∀ db₂, Grown db₁ db₂ → Effect env ctx ctx.id db db₂ none := by
    intro db₂ hgrown
    rcases hbefore db₂ hgrown with hcalm | hcleared
    · exact .calm hcalm
    · exact .cleared hcleared
  have hsame : Grown db₁ db₁ := ⟨rfl, fun _ h => h, fun _ h => Or.inl h⟩
  unfold newTwoFA
  refine (getUserById_sat ctx.id false db₁).bind ?_
  rintro r _ ⟨rfl, -⟩
  cases r with
  | error e => exact Sat.pure (hquiet _ hsame)
  | ok user =>
    dsimp only
    split
    · exact Sat.pure (hquiet _ hsame)
    · exact Sat.pure (hquiet _ hsame)
    · rename_i secret qrCodeData codes hcodes
      refine (create_sat rfl _).bind fun err db₂ hgrown => ?_
      cases err with
      | some e => exact Sat.pure (hquiet db₂ hgrown)
      | none =>
        refine (createBackupCodes_sat ctx ctx.id codes db₂).bind ?_
        rintro err db₃ ⟨htwoFAs, hstored⟩
        have hissue := issue_effect env hcodes (hbefore db₂ hgrown) htwoFAs hstored
        cases err with
        | some e => exact Sat.pure hissue
        | none =>
          refine Sat.pure ?_
          unfold issue
          rw [Sess.answer, shown_codes _ _ _ codes rfl]
          exact hissue

theorem setup2FA_effect (env : Env) (ctx : Ctx) (s : Sess) (key : Except Err (String × String))
    (db : DB) :
    Sat (setup2FA ctx s key) (fun out db' => Effect env ctx ctx.id db db' (issue ctx.id out)) db := by
  unfold setup2FA
  refine (getTwoFAByUserId_sat ctx.id db).bind ?_
  rintro r db₀ ⟨rfl, hfound⟩
  cases r with
  | error e => exact Sat.pure (.calm (Calm.refl _))
  | ok existing =>
    dsimp only
    split
    · exact Sat.pure (.calm (Calm.refl _))
    have hnew : Sat (newTwoFA ctx s key)
        (fun out db' => Effect env ctx ctx.id db₀ db' (issue ctx.id out)) db₀ :=
      newTwoFA_effect (fun _ hgrown => Or.inl hgrown.calm) s key
    cases existing with
    | none => exact hnew
    | some t =>
      obtain ⟨ht, -, huser⟩ := hfound t rfl
      refine (delete_sat ht).bind ?_
      rintro err db₁ (rfl | ⟨rfl, hdeleted⟩)
      · cases err with
        | some e => exact Sat.pure (.calm (Calm.refl _))
        | none => exact hnew
      · refine newTwoFA_effect (fun db₂ hgrown => Or.inr ?_) s key
        rw [← huser]
        exact hdeleted.cleared hgrown

theorem enable2FA_calm (env : Env) (ctx : Ctx) (s : Sess) (code : Option String) (db : DB) :
    Sat (enable2FA env ctx s code) (fun out db' => Calm db db' ∧ shown out.reply = none) db := by
  unfold enable2FA
  cases code with
  | none => exact Sat.pure ⟨Calm.refl db, rfl⟩
  | some code =>
    refine (calm_sat (getTwoFAByUserId_calm ctx.id) db).bind fun r db₁ hcalm => ?_
    split
    · exact Sat.pure ⟨hcalm, rfl⟩
    · exact Sat.pure ⟨hcalm, rfl⟩
    · rename_i t
      split
      · exact Sat.pure ⟨hcalm, rfl⟩
      split
      · exact Sat.pure ⟨hcalm, rfl⟩
      split
      · exact Sat.pure ⟨hcalm, rfl⟩
      have hupdate : Sat t.enable (fun _ db' => Calm db₁ db') db₁ :=
        calm_sat (TwoFA.update_only (fun _ => rfl) _) db₁
      refine hupdate.bind fun err db₂ hcalm' => ?_
      cases err with
      | some e => exact Sat.pure ⟨hcalm.trans hcalm', rfl⟩
      | none => exact Sat.pure ⟨hcalm.trans hcalm', rfl⟩

theorem regenerateBackupCodes_effect (env : Env) (ctx : Ctx) (s : Sess) (code : Option String)
    (db : DB) :
    Sat (regenerateBackupCodes env ctx s code)
      (fun out db' => Effect env ctx ctx.id db db' (issue ctx.id out)) db := by
  unfold regenerateBackupCodes
  cases code with
  | none => exact Sat.pure (.calm (Calm.refl db))
  | some code =>
    refine (calm_sat (getTwoFAByUserId_calm ctx.id) db).bind fun r db₁ hcalm => ?_
    split
    · exact Sat.pure (.calm hcalm)
    · rename_i t _
      split
      · exact Sat.pure (.calm hcalm)
      · rename_i clean _
        have hvalidate := calm_sat (TwoFA.validateTOTP_only (fun _ => rfl) env ctx t clean) db₁
        refine hvalidate.bind ?_
        rintro ⟨r, t'⟩ db₂ hcalm'
        have hboth := hcalm.trans hcalm'
        cases r with
        | error e => exact Sat.pure (.calm hboth)
        | ok valid =>
          cases valid with
          | false => exact Sat.pure (.calm hboth)
          | true =>
            dsimp only
            cases hcodes : ctx.backupCodes with
            | error e => exact Sat.pure (.calm hboth)
            | ok codes =>
              refine (createBackupCodes_sat ctx ctx.id codes db₂).bind ?_
              rintro err db₃ ⟨htwoFAs, hstored⟩
              have hissue := issue_effect env hcodes (Or.inl hboth) htwoFAs hstored
              cases err with
              | some e => exact Sat.pure hissue
              | none =>
                refine Sat.pure ?_
                unfold issue
                rw [Out.withChecks, Sess.answer, shown_codes _ _ _ codes rfl]
                exact hissue

/-- What `ValidateBackupCode` does to the rows. -/
theorem validateBackupCode_effect (env : Env) (ctx : Ctx) (userId : Int) (code : String) (db : DB) :
    Sat (Model.validateBackupCode env ctx userId code) (fun r db' =>
      Effect env ctx userId db db'
        (if r = .ok true then some (.spent userId (cleanBackupCode code)) else none)) db := by
  have hrefused : ∀ {r : Except Err Bool} {db' : DB}, r ≠ .ok true → db' = db →
      Effect env ctx userId db db'
        (if r = .ok true then some (.spent userId (cleanBackupCode code)) else none) := by
    rintro r db' hr rfl
    rw [if_neg hr]
    exact .calm (Calm.refl _)
  unfold Model.validateBackupCode
  split
  · exact Sat.pure (hrefused (by simp) rfl)
  · rename_i hform
    rw [Bool.not_eq_true', Bool.not_eq_false] at hform
    refine Sat.perform fun r db' h => ?_
    obtain ⟨rfl, hr⟩ := h.read rfl
    rcases hr with rfl | ⟨e, rfl⟩
    · simp only [exec]
      cases hmatch : matchCode env code
          (db'.backupCodes.select fun c => c.live && c.userId == userId && !c.isUsed) with
      | none => exact Sat.pure (hrefused (by simp) rfl)
      | some bc =>
        obtain ⟨hselected, hcompare⟩ := matchCode_eq_some hmatch
        have hbc := Table.mem_select.mp hselected
        simp only [Bool.and_eq_true, beq_iff_eq, Bool.not_eq_true'] at hbc
        refine Sat.perform fun r db'' h => ?_
        rcases h with ⟨rfl, rfl⟩ | ⟨⟨e, rfl⟩, rfl⟩
        · have hkey : 0 < Row.key bc := Table.key_pos hbc.1
          have hpos : 0 < Row.key (bc.used ctx.now) := hkey
          obtain ⟨t, hput⟩ := Table.put_isSome (t := db'.backupCodes) (fun _ _ _ => rfl) hpos
          simp only [exec, hput]
          exact Sat.pure (.spent code bc (validateBackupCode_iff.mp hform) hbc.1 hbc.2.1.1 hbc.2.1.2
            hbc.2.2 hcompare hput rfl)
        · exact Sat.pure (hrefused (by simp) rfl)
    · exact Sat.pure (hrefused (by simp) rfl)

/-! ### The rows and the history -/

/-- The hash is correct and has no collisions. -/
def HashesTruly (env : Env) (ctx : Ctx) : Prop :=
  ∀ password hash, ctx.password2Hash password = .ok hash →
    ∀ attempt, env.bcryptCompare hash attempt = true ↔ attempt = password

/-- One password fits the hash. -/
def Sealed (env : Env) (hash : String) : Prop :=
  ∃ password, ∀ attempt, env.bcryptCompare hash attempt = true ↔ attempt = password

/-- A code of the user that is not used, and has this body. -/
def isUnspent (env : Env) (userId : Int) (body : String) (c : TwoFABackupCode) : Bool :=
  c.live && c.userId == userId && !c.isUsed && env.bcryptCompare c.codeHash (displayBackupCode body)

def unspent (env : Env) (codes : Table TwoFABackupCode) (userId : Int) (body : String) : Nat :=
  codes.rows.countP (isUnspent env userId body)

theorem isUnspent_iff {env : Env} {userId : Int} {body : String} {c : TwoFABackupCode} :
    isUnspent env userId body c = true ↔ c.live = true ∧ c.userId = userId ∧ c.isUsed = false ∧
      env.bcryptCompare c.codeHash (displayBackupCode body) = true := by
  simp [isUnspent, and_assoc]

/-- **The unused rows are what the history leaves.** -/
structure Balanced (env : Env) (codes : Table TwoFABackupCode) (h : List (Event Int String)) :
    Prop where
  hashes : ∀ c ∈ codes, Sealed env c.codeHash
  bodies : ∀ userId body, 0 < left h userId body → BackupBody body
  rows : ∀ userId body, BackupBody body → unspent env codes userId body = left h userId body

theorem balanced_nil (env : Env) {codes : Table TwoFABackupCode} (hempty : ∀ c, c ∉ codes) :
    Balanced env codes [] := by
  refine ⟨fun c hc => absurd hc (hempty c), fun userId body h => by simp at h, ?_⟩
  intro userId body _
  show codes.rows.countP _ = 0
  rw [List.countP_eq_zero]
  intro c hc
  exact absurd hc (hempty c)

/-- Codes of a user do not count for another. -/
theorem isUnspent_of_ne {env : Env} {userId : Int} (body : String) {c : TwoFABackupCode}
    (h : c.userId ≠ userId) : isUnspent env userId body c = false := by
  simp [isUnspent, h]

theorem unspent_delete (env : Env) (codes : Table TwoFABackupCode) (userId v : Int)
    (body : String) :
    unspent env (codes.delete fun c => c.userId == userId) v body
      = if v = userId then 0 else unspent env codes v body := by
  unfold unspent
  rw [Table.countP_delete]
  by_cases hv : v = userId
  · rw [if_pos hv, List.countP_eq_zero]
    intro c _
    by_cases hc : c.userId = userId
    · simp [hc]
    · rw [isUnspent_of_ne body (by rw [hv]; exact hc)]
      simp
  · rw [if_neg hv]
    apply List.countP_congr
    intro c _
    by_cases hc : c.userId = userId
    · rw [isUnspent_of_ne body (by rw [hc]; exact Ne.symm hv)]
      simp
    · simp [hc]

/-! ### New codes -/

/-- The new rows, one a hash. -/
theorem created_rows {start : Option (Table TwoFABackupCode)} {userId : Int}
    {hashes : List String} {t : Table TwoFABackupCode}
    (h : hashes.foldl (fun acc h => acc.bind fun t =>
      (t.create { userId := userId, codeHash := h }).map Prod.snd) start = some t) :
    ∃ t₀, start = some t₀ ∧ (∀ c ∈ t, c ∈ t₀ ∨ c.codeHash ∈ hashes) ∧
      ∀ v body env, unspent env t v body = unspent env t₀ v body
        + if v = userId then hashes.countP fun h => env.bcryptCompare h (displayBackupCode body)
          else 0 := by
  induction hashes using List.reverseRecOn generalizing t with
  | nil => exact ⟨t, h, fun c hc => Or.inl hc, by simp⟩
  | append_singleton hashes hash ih =>
    rw [List.foldl_append, List.foldl_cons, List.foldl_nil, Option.bind_eq_some_iff] at h
    obtain ⟨t₁, hbefore, hlast⟩ := h
    obtain ⟨t₀, hstart, hmem, hcount⟩ := ih hbefore
    obtain ⟨⟨row, t'⟩, hcreate, rfl⟩ := Option.map_eq_some_iff.mp hlast
    have hrow : row.live = true ∧ row.userId = userId ∧ row.isUsed = false ∧
        row.codeHash = hash := by
      rcases Table.eq_of_create hcreate with rfl | rfl
      · exact ⟨rfl, rfl, rfl, rfl⟩
      · exact ⟨rfl, rfl, rfl, rfl⟩
    refine ⟨t₀, hstart, ?_, ?_⟩
    · intro c hc
      rcases (Table.mem_create hcreate).mp hc with rfl | hc
      · right
        simp [hrow.2.2.2]
      · rcases hmem c hc with hc | hc
        · exact Or.inl hc
        · right
          simp [hc]
    · intro v body env
      have hnew : unspent env t' v body
          = unspent env t₁ v body + if isUnspent env v body row then 1 else 0 :=
        Table.countP_create hcreate _
      rw [hnew, hcount v body env, List.countP_append, List.countP_singleton]
      obtain ⟨hlive, huser, hunused, hhash⟩ := hrow
      by_cases hv : v = userId
      · simp only [hv, if_true, isUnspent, hlive, huser, hunused, hhash, beq_self_eq_true,
          Bool.not_false, Bool.and_true, Bool.true_and]
        omega
      · rw [isUnspent_of_ne body (by rw [huser]; exact Ne.symm hv)]
        simp [hv]

/-- **A replacement leaves the user the new codes only**, and the others theirs. -/
theorem unspent_replace {old t : Table TwoFABackupCode} {userId now : Int} {hashes : List String}
    (h : DB.replaceCodes old userId hashes now = some t) (env : Env) (v : Int) (body : String) :
    unspent env t v body
      = if v = userId then hashes.countP fun h => env.bcryptCompare h (displayBackupCode body)
        else unspent env old v body := by
  obtain ⟨t₀, hupdate, -, hcount⟩ := created_rows h
  have hdropped : unspent env t₀ v body = if v = userId then 0 else unspent env old v body := by
    unfold unspent
    rw [Table.countP_update hupdate]
    by_cases hv : v = userId
    · rw [if_pos hv, List.countP_eq_zero]
      intro c _ hunspent
      obtain ⟨hlive, huser, -, -⟩ := isUnspent_iff.mp hunspent
      unfold Table.touch at hlive huser
      split at hlive
      · simp [TwoFABackupCode.live] at hlive
      · rename_i hnot
        rw [if_neg hnot] at huser
        simp [hlive, huser, hv] at hnot
    · rw [if_neg hv]
      apply List.countP_congr
      intro c _
      unfold Table.touch
      split
      · rename_i hc
        rw [Bool.and_eq_true, beq_iff_eq] at hc
        have hne : c.userId ≠ v := by
          rw [hc.2]
          exact Ne.symm hv
        simp [isUnspent, hne]
      · rfl
  rw [hcount, hdropped]
  by_cases hv : v = userId
  · simp [hv]
  · simp [hv]

/-- The rows that are there are old or new. -/
theorem sealed_replace {env : Env} {old t : Table TwoFABackupCode} {userId now : Int}
    {hashes : List String} (h : DB.replaceCodes old userId hashes now = some t)
    (hold : ∀ c ∈ old, Sealed env c.codeHash) (hnew : ∀ hash ∈ hashes, Sealed env hash) :
    ∀ c ∈ t, Sealed env c.codeHash := by
  obtain ⟨t₀, hupdate, hmem, -⟩ := created_rows h
  intro c hc
  rcases hmem c hc with hc | hc
  · obtain ⟨x, hx, rfl⟩ := (Table.mem_update hupdate).mp hc
    have hhash : (Table.touch (fun c => c.live && c.userId == userId)
        (fun c => { c with deletedAt := some now }) x).codeHash = x.codeHash := by
      unfold Table.touch
      split <;> rfl
    rw [hhash]
    exact hold x hx
  · exact hnew _ hc

/-- The hashes of codes that are displayed fit the codes, one each. -/
theorem hashes_of_codes {env : Env} {ctx : Ctx} (htruly : HashesTruly env ctx) {codes : List String}
    (hcodes : ∀ code ∈ codes, ∃ body, BackupBody body ∧ code = displayBackupCode body)
    {hashes : List String} (h : hashBackupCodes ctx codes = .ok hashes) :
    (∀ hash ∈ hashes, Sealed env hash) ∧ ∀ body, BackupBody body →
      (hashes.countP fun h => env.bcryptCompare h (displayBackupCode body))
        = (codes.map bodyOf).count body := by
  induction codes generalizing hashes with
  | nil =>
    obtain rfl := Except.ok.inj h
    simp
  | cons code codes ih =>
    rw [hashBackupCodes] at h
    split at h
    · rename_i hash rest hhash hrest
      obtain rfl := Except.ok.inj h
      obtain ⟨hsealed, hcount⟩ := ih (fun c hc => hcodes c (by simp [hc])) hrest
      obtain ⟨body', hbody', rfl⟩ := hcodes code (by simp)
      rw [normalizeBackupCode_display hbody'] at hhash
      have hfits := htruly _ _ hhash
      refine ⟨?_, ?_⟩
      · intro x hx
        rcases List.mem_cons.mp hx with rfl | hx
        · exact ⟨_, hfits⟩
        · exact hsealed x hx
      · intro body hbody
        rw [List.countP_cons, List.map_cons, List.count_cons, hcount body hbody, bodyOf_display hbody']
        by_cases hsame : body = body'
        · simp [hsame, (hfits _).mpr]
        · have hno : env.bcryptCompare hash (displayBackupCode body) = false := by
            rw [Bool.eq_false_iff]
            intro hyes
            exact hsame ((displayBackupCode_inj hbody hbody').mp ((hfits _).mp hyes))
          simp [hno, Ne.symm hsame]
    · cases h
    · cases h

/-! ### One request -/

theorem Balanced.calm {env : Env} {db db' : DB} {h : List (Event Int String)}
    (hb : Balanced env db.backupCodes h) (hcalm : Calm db db') :
    Balanced env db'.backupCodes (h ++ (gone db db').map .voided) := by
  have hleft : ∀ userId body, left (h ++ (gone db db').map .voided) userId body
      = left h userId body := by
    intro userId body
    rw [left_voided, if_neg (hcalm.not_mem_gone userId)]
  rw [hcalm.codes]
  refine ⟨hb.hashes, fun userId body => ?_, fun userId body => ?_⟩
  · rw [hleft]
    exact hb.bodies userId body
  · rw [hleft]
    exact hb.rows userId body

theorem Balanced.cleared {env : Env} {userId : Int} {db db' : DB} {h : List (Event Int String)}
    (hb : Balanced env db.backupCodes h) (hcleared : Cleared userId db db') :
    Balanced env db'.backupCodes (h ++ (gone db db').map .voided) := by
  have hleft : ∀ v body, left (h ++ (gone db db').map .voided) v body
      = if v = userId then 0 else left h v body := by
    intro v body
    rw [left_voided]
    simp only [hcleared.gone v]
  rw [hcleared.codes]
  refine ⟨?_, ?_, ?_⟩
  · intro c hc
    exact hb.hashes c (Table.mem_delete.mp hc).1
  · intro v body hpos
    rw [hleft] at hpos
    split at hpos
    · omega
    · exact hb.bodies v body hpos
  · intro v body hbody
    rw [hleft, unspent_delete, hb.rows v body hbody]

theorem Balanced.issued {env : Env} {ctx : Ctx} {userId : Int} {db db' : DB}
    {h : List (Event Int String)} (hb : Balanced env db.backupCodes h)
    (htruly : HashesTruly env ctx) {codes hashes : List String} {old : Table TwoFABackupCode}
    (hcodes : ∀ code ∈ codes, ∃ body, BackupBody body ∧ code = displayBackupCode body)
    (hhashes : hashBackupCodes ctx codes = .ok hashes)
    (hold : old = db.backupCodes ∨ old = db.backupCodes.delete fun c => c.userId == userId)
    (hreplace : DB.replaceCodes old userId hashes ctx.now = some db'.backupCodes)
    (hgone : ∀ v ∈ gone db db', v = userId) :
    Balanced env db'.backupCodes
      (h ++ (gone db db').map .voided ++ [.issued userId (codes.map bodyOf)]) := by
  have hleft : ∀ v body, left (h ++ (gone db db').map .voided
      ++ [.issued userId (codes.map bodyOf)]) v body
        = if v = userId then (codes.map bodyOf).count body else left h v body := by
    intro v body
    rw [left_snoc, left_voided, Event.count]
    by_cases hv : v = userId
    · rw [if_pos hv.symm, if_pos hv]
    · rw [if_neg (Ne.symm hv), if_neg hv, if_neg fun hmem => hv (hgone v hmem)]
  obtain ⟨hsealed, hcount⟩ := hashes_of_codes htruly hcodes hhashes
  have holdSealed : ∀ c ∈ old, Sealed env c.codeHash := by
    intro c hc
    rcases hold with rfl | rfl
    · exact hb.hashes c hc
    · exact hb.hashes c (Table.mem_delete.mp hc).1
  have hothers : ∀ v body, v ≠ userId → unspent env old v body = unspent env db.backupCodes v body := by
    intro v body hv
    rcases hold with rfl | rfl
    · rfl
    · rw [unspent_delete, if_neg hv]
  refine ⟨sealed_replace hreplace holdSealed hsealed, ?_, ?_⟩
  · intro v body hpos
    rw [hleft] at hpos
    split at hpos
    · obtain ⟨code, hcode, rfl⟩ := List.mem_map.mp (List.count_pos_iff.mp hpos)
      obtain ⟨body, hbody, rfl⟩ := hcodes code hcode
      rw [bodyOf_display hbody]
      exact hbody
    · exact hb.bodies v body hpos
  · intro v body hbody
    rw [hleft, unspent_replace hreplace]
    by_cases hv : v = userId
    · rw [if_pos hv, if_pos hv, hcount body hbody]
    · rw [if_neg hv, if_neg hv, hothers v body hv, hb.rows v body hbody]

/-- A row counts for the body that it was accepted for, and no other. -/
theorem isUnspent_of_compare {env : Env} {c : TwoFABackupCode} {code body : String}
    (hsealed : Sealed env c.codeHash) (hclean : BackupBody (cleanBackupCode code))
    (hcompare : env.bcryptCompare c.codeHash (normalizeBackupCode code) = true)
    (hbody : BackupBody body) :
    env.bcryptCompare c.codeHash (displayBackupCode body) = true ↔ cleanBackupCode code = body := by
  obtain ⟨password, hfits⟩ := hsealed
  rw [normalizeBackupCode_of_clean hclean] at hcompare
  rw [hfits, ← (hfits _).mp hcompare, displayBackupCode_inj hbody hclean]
  exact eq_comm

theorem Balanced.spent {env : Env} {userId now : Int} {db db' : DB} {h : List (Event Int String)}
    (hb : Balanced env db.backupCodes h) {code : String} {bc : TwoFABackupCode}
    (hclean : BackupBody (cleanBackupCode code)) (hmem : bc ∈ db.backupCodes)
    (hlive : bc.live = true) (huser : bc.userId = userId) (hunused : bc.isUsed = false)
    (hcompare : env.bcryptCompare bc.codeHash (normalizeBackupCode code) = true)
    (hput : db.backupCodes.put (bc.used now) = some db'.backupCodes)
    (htwoFAs : db'.twoFAs = db.twoFAs) :
    Balanced env db'.backupCodes
      (h ++ (gone db db').map .voided ++ [.spent userId (cleanBackupCode code)]) := by
  have hgone : ∀ v, v ∉ gone db db' := by
    intro v hv
    obtain ⟨t, ht, -, hno⟩ := mem_gone.mp hv
    rw [htwoFAs] at hno
    exact hno t ht rfl
  have hleft : ∀ v body, left (h ++ (gone db db').map .voided
      ++ [.spent userId (cleanBackupCode code)]) v body
        = if userId = v ∧ cleanBackupCode code = body then left h v body - 1 else left h v body := by
    intro v body
    rw [left_snoc, left_voided, if_neg (hgone v), Event.count]
  refine ⟨?_, ?_, ?_⟩
  · intro c hc
    rcases (Table.mem_put hput).mp hc with rfl | ⟨hc, -⟩
    · exact hb.hashes bc hmem
    · exact hb.hashes c hc
  · intro v body hpos
    rw [hleft] at hpos
    apply hb.bodies v body
    split at hpos <;> omega
  · intro v body hbody
    have hcount := Table.countP_put hput hmem rfl (isUnspent env v body)
    have hused : isUnspent env v body (bc.used now) = false := by
      simp [isUnspent, TwoFABackupCode.used]
    have hbc : isUnspent env v body bc = true ↔ userId = v ∧ cleanBackupCode code = body := by
      rw [isUnspent_iff, isUnspent_of_compare (hb.hashes bc hmem) hclean hcompare hbody]
      simp [hlive, huser, hunused]
    have hrows := hb.rows v body hbody
    unfold unspent at hrows ⊢
    rw [hused, if_neg Bool.false_ne_true] at hcount
    simp only [hbc] at hcount
    rw [hleft]
    split at hcount
    · rw [if_pos ‹_›]
      omega
    · rw [if_neg ‹_›]
      omega

/-- **The step**: what a request does to the rows it does to the history. -/
theorem Balanced.effect {env : Env} {ctx : Ctx} {userId : Int} {db db' : DB}
    {h : List (Event Int String)} {e : Option (Event Int String)}
    (hb : Balanced env db.backupCodes h) (htruly : HashesTruly env ctx)
    (hdrawn : ∀ codes, ctx.backupCodes = .ok codes →
      ∀ code ∈ codes, ∃ body, BackupBody body ∧ code = displayBackupCode body)
    (heffect : Effect env ctx userId db db' e) :
    Balanced env db'.backupCodes (h ++ ((gone db db').map .voided ++ e.toList)) := by
  rw [← List.append_assoc]
  cases heffect with
  | calm hcalm => simpa using hb.calm hcalm
  | cleared hcleared => simpa using hb.cleared hcleared
  | issued codes hashes old hcodes hhashes hold hreplace hgone =>
    exact hb.issued htruly (hdrawn codes hcodes) hhashes hold hreplace hgone
  | spent code bc hbody hmem hlive huser hunused hcompare hput htwoFAs =>
    exact hb.spent hbody hmem hlive huser hunused hcompare hput htwoFAs

theorem handle_effect (env : Env) (a : Act) (db : DB) :
    Sat (handle env a) (fun ans db' =>
      ∃ userId, Effect env a.drawn userId db db' (answered a.ctx.id a.request ans)) db := by
  unfold handle
  cases a.request with
  | setup2FA s key =>
    exact (setup2FA_effect env a.drawn s key db).bind fun out db' h => Sat.pure ⟨a.ctx.id, h⟩
  | enable2FA s code =>
    refine (enable2FA_calm env a.drawn s code db).bind ?_
    rintro out db' ⟨hcalm, hshown⟩
    refine Sat.pure ⟨a.ctx.id, ?_⟩
    rw [answered, hshown]
    exact .calm hcalm
  | regenerateBackupCodes s code =>
    exact (regenerateBackupCodes_effect env a.drawn s code db).bind fun out db' h =>
      Sat.pure ⟨a.ctx.id, h⟩
  | disableTwoFA userId =>
    refine (disableTwoFA_sat userId db).bind ?_
    rintro err db' (hcalm | hcleared)
    · exact Sat.pure ⟨userId, .calm hcalm⟩
    · exact Sat.pure ⟨userId, .cleared hcleared⟩
  | validateBackupCode userId code =>
    refine (validateBackupCode_effect env a.drawn userId code db).bind fun r db' h => ?_
    refine Sat.pure ⟨userId, ?_⟩
    cases r with
    | error e => simpa [answered] using h
    | ok valid =>
      cases valid with
      | false => simpa [answered] using h
      | true => simpa [answered] using h

/-- **Along a run** the rows are what the history leaves. -/
theorem balanced_run {env : Env} {db : DB} (hempty : ∀ c, c ∉ db.backupCodes) (acts : List Act)
    (htruly : ∀ a ∈ acts, HashesTruly env a.ctx) :
    Balanced env (after env db acts).backupCodes (history env db acts) := by
  induction acts using List.reverseRecOn with
  | nil => exact balanced_nil env hempty
  | append_singleton acts a ih =>
    have hbefore := ih fun b hb => htruly b (by simp [hb])
    have hdrawn : ∀ codes, a.drawn.backupCodes = .ok codes →
        ∀ code ∈ codes, ∃ body, BackupBody body ∧ code = displayBackupCode body :=
      fun codes hcodes => generateFrom_ok hcodes
    obtain ⟨userId, heffect⟩ := Sat.serve (s := ⟨after env db acts, a.outages⟩)
      (handle_effect env a (after env db acts))
    have htrulyDrawn : HashesTruly env a.drawn := htruly a (by simp)
    have hstep := hbefore.effect htrulyDrawn hdrawn heffect
    unfold after history at hstep ⊢
    rw [Runs.after_snoc, Runs.gather_snoc]
    exact hstep

/-! ### The result -/

/-- What `ValidateBackupCode` answers on a database of which any statement may fail. -/
def validate (env : Env) (ctx : Ctx) (db : DB) (outages : Nat → Option Err) (userId : Int)
    (code : String) : Except Err Bool :=
  (serve (Model.validateBackupCode env ctx userId code) ⟨db, outages⟩).1

/-- The unused codes of a user. -/
def unusedCodes (db : DB) (userId : Int) : List TwoFABackupCode :=
  db.backupCodes.select fun c => c.live && c.userId == userId && !c.isUsed

theorem Balanced.accepts {env : Env} {db : DB} {h : List (Event Int String)}
    (hb : Balanced env db.backupCodes h) (ctx : Ctx) (outages : Nat → Option Err) (userId : Int)
    (code : String) :
    validate env ctx db outages userId code = .ok true ↔
      outages 0 = none ∧ outages 1 = none ∧ Outstanding h userId (cleanBackupCode code) := by
  unfold validate
  rw [serve_validateBackupCode, validateBackupCode_iff, ← left_pos]
  constructor
  · rintro ⟨hbody, hfirst, hsecond, bc, hmem, hlive, huser, hunused, hcompare⟩
    refine ⟨hfirst, hsecond, ?_⟩
    rw [← hb.rows userId _ hbody]
    apply List.countP_pos_iff.mpr
    rw [normalizeBackupCode_of_clean hbody] at hcompare
    exact ⟨bc, hmem, isUnspent_iff.mpr ⟨hlive, huser, hunused, hcompare⟩⟩
  · rintro ⟨hfirst, hsecond, hleft⟩
    have hbody := hb.bodies userId _ hleft
    rw [← hb.rows userId _ hbody] at hleft
    obtain ⟨bc, hmem, hunspent⟩ := List.countP_pos_iff.mp hleft
    obtain ⟨hlive, huser, hunused, hcompare⟩ := isUnspent_iff.mp hunspent
    rw [← normalizeBackupCode_of_clean hbody] at hcompare
    exact ⟨hbody, hfirst, hsecond, bc, hmem, hlive, huser, hunused, hcompare⟩

/-- The database after `ValidateBackupCode`. -/
def validated (env : Env) (ctx : Ctx) (db : DB) (outages : Nat → Option Err) (userId : Int)
    (code : String) : DB :=
  (serve (Model.validateBackupCode env ctx userId code) ⟨db, outages⟩).2.db

/-- What an accepted code does: a row that it fits is saved as used. -/
theorem spent_of_validate {env : Env} {ctx : Ctx} {db : DB} {outages : Nat → Option Err}
    {userId : Int} {code : String} (h : validate env ctx db outages userId code = .ok true) :
    ∃ bc ∈ db.backupCodes, bc.live = true ∧ bc.userId = userId ∧ bc.isUsed = false ∧
      BackupBody (cleanBackupCode code) ∧
      env.bcryptCompare bc.codeHash (normalizeBackupCode code) = true ∧
      db.backupCodes.put (bc.used ctx.now)
        = some (validated env ctx db outages userId code).backupCodes ∧
      (validated env ctx db outages userId code).twoFAs = db.twoFAs := by
  have heffect := Sat.serve (s := ⟨db, outages⟩) (validateBackupCode_effect env ctx userId code db)
  unfold validate at h
  unfold validated
  rw [h, if_pos rfl] at heffect
  generalize (serve (Model.validateBackupCode env ctx userId code) ⟨db, outages⟩).2.db = db'
    at heffect ⊢
  generalize hevent : some (Event.spent userId (cleanBackupCode code)) = e at heffect
  cases heffect with
  | calm hcalm => cases hevent
  | cleared hcleared => cases hevent
  | issued codes hashes old hcodes hhashes hold hreplace hgone => cases hevent
  | spent code' bc hbody hmem hlive huser hunused hcompare hput htwoFAs =>
    have hclean : cleanBackupCode code = cleanBackupCode code' := by simpa using hevent
    rw [normalizeBackupCode_of_clean hbody, ← hclean] at hcompare
    rw [← hclean] at hbody
    rw [← normalizeBackupCode_of_clean hbody] at hcompare
    exact ⟨bc, hmem, hlive, huser, hunused, hbody, hcompare, hput, htwoFAs⟩

/-- An accepted code uses up one unused row, and no other. -/
theorem validate_consumes {env : Env} {ctx : Ctx} {db : DB} {outages : Nat → Option Err}
    {userId : Int} {code : String} (h : validate env ctx db outages userId code = .ok true) :
    ∃ bc ∈ unusedCodes db userId,
      env.bcryptCompare bc.codeHash (normalizeBackupCode code) = true ∧
      ∀ v c, c ∈ unusedCodes (validated env ctx db outages userId code) v
        ↔ c ∈ unusedCodes db v ∧ c ≠ bc := by
  obtain ⟨bc, hmem, hlive, huser, hunused, -, hcompare, hput, -⟩ := spent_of_validate h
  refine ⟨bc, Table.mem_select.mpr ⟨hmem, by simp [hlive, huser, hunused]⟩, hcompare, ?_⟩
  intro v c
  unfold unusedCodes
  rw [Table.mem_select, Table.mem_select, Table.mem_put hput]
  constructor
  · rintro ⟨rfl | ⟨hc, hne⟩, hunspent⟩
    · simp [TwoFABackupCode.used] at hunspent
    · refine ⟨⟨hc, hunspent⟩, ?_⟩
      rintro rfl
      exact hne rfl
  · rintro ⟨⟨hc, hunspent⟩, hne⟩
    refine ⟨Or.inr ⟨hc, fun hkey => ?_⟩, hunspent⟩
    exact hne (Table.eq_of_key hc hmem hkey)

/-- An accepted code leaves the other ones as good as they were. -/
theorem Balanced.spares {env : Env} {db : DB} {h : List (Event Int String)}
    (hb : Balanced env db.backupCodes h) {ctx : Ctx} {outages : Nat → Option Err} {userId : Int}
    {code : String} (hok : validate env ctx db outages userId code = .ok true) {v : Int}
    {text : String} (hother : v ≠ userId ∨ cleanBackupCode text ≠ cleanBackupCode code) (ctx' : Ctx)
    (outages' : Nat → Option Err) :
    validate env ctx' (validated env ctx db outages userId code) outages' v text = .ok true
      ↔ validate env ctx' db outages' v text = .ok true := by
  obtain ⟨bc, hmem, hlive, huser, hunused, hbody, hcompare, hput, htwoFAs⟩ := spent_of_validate hok
  have hafter := hb.spent hbody hmem hlive huser hunused hcompare hput htwoFAs
  have hgone : ∀ w, w ∉ gone db (validated env ctx db outages userId code) := by
    intro w hw
    obtain ⟨t, ht, -, hno⟩ := mem_gone.mp hw
    rw [htwoFAs] at hno
    exact hno t ht rfl
  have hdiffer : ¬ (userId = v ∧ cleanBackupCode code = cleanBackupCode text) := by
    rintro ⟨rfl, hsame⟩
    rcases hother with hv | htext
    · exact hv rfl
    · exact htext hsame.symm
  rw [hafter.accepts, hb.accepts, ← left_pos, ← left_pos, left_snoc, left_voided, if_neg (hgone v),
    Event.count, if_neg hdiffer]

/-- **A backup code is accepted exactly when it spells an outstanding one**: one of
the user's last generation, not spent, with the record still there.  An accepted
code uses up one row and leaves all others as good as they were, and a code that is
outstanding is accepted in any spelling.  (The two statements of the check have to
be answered.) -/
theorem accepts_iff_outstanding (env : Env) (db : DB) (hempty : ∀ c, c ∉ db.backupCodes)
    (acts : List Act) (htruly : ∀ a ∈ acts, HashesTruly env a.ctx) :
    (∀ ctx outages userId code,
      validate env ctx (after env db acts) outages userId code = .ok true ↔
        outages 0 = none ∧ outages 1 = none ∧
          Outstanding (history env db acts) userId (cleanBackupCode code)) ∧
      (∀ ctx outages userId code,
        validate env ctx (after env db acts) outages userId code = .ok true →
          ∃ bc ∈ unusedCodes (after env db acts) userId,
            env.bcryptCompare bc.codeHash (normalizeBackupCode code) = true ∧
            ∀ v c, c ∈ unusedCodes (validated env ctx (after env db acts) outages userId code) v
              ↔ c ∈ unusedCodes (after env db acts) v ∧ c ≠ bc) ∧
      (∀ ctx outages userId code,
        validate env ctx (after env db acts) outages userId code = .ok true →
          ∀ v text, v ≠ userId ∨ cleanBackupCode text ≠ cleanBackupCode code →
            ∀ ctx' outages', validate env ctx'
                (validated env ctx (after env db acts) outages userId code) outages' v text = .ok true
              ↔ validate env ctx' (after env db acts) outages' v text = .ok true) ∧
      ∀ (rand : Nat → Except Err UInt8) (codes : List String),
        generateBackupCodes rand = .ok codes → ∀ code ∈ codes,
          (bodyOf code).toList.length = 8 ∧ Spells code code ∧
          ∀ text, Spells code text → cleanBackupCode text = bodyOf code ∧
            ∀ ctx userId, Outstanding (history env db acts) userId (bodyOf code) →
              validate env ctx (after env db acts) (fun _ => none) userId text = .ok true := by
  have hb := balanced_run hempty acts htruly
  refine ⟨hb.accepts, fun _ _ _ _ => validate_consumes, ?_, ?_⟩
  · intro ctx outages userId code hok v text hother ctx' outages'
    exact hb.spares hok hother ctx' outages'
  intro rand codes hcodes code hcode
  obtain ⟨body, hbody, rfl⟩ := generateFrom_ok hcodes code hcode
  have hof := bodyOf_display hbody
  refine ⟨by rw [hof]; exact hbody.length, Spells.refl _, fun text htext => ?_⟩
  have hclean := htext.clean (by rw [hof]; exact hbody)
  refine ⟨hclean, fun ctx userId houtstanding => ?_⟩
  apply (hb.accepts ctx _ userId text).mpr
  rw [hclean]
  exact ⟨rfl, rfl, houtstanding⟩

/-! ### A concrete run -/

theorem hashesTruly_plain (now : Int) : HashesTruly Env.plain (Ctx.plain now) := by
  intro password hash h attempt
  obtain rfl : "#" ++ password = hash := Except.ok.inj h
  show ("#" ++ password == "#" ++ attempt) = true ↔ attempt = password
  rw [beq_iff_eq, ← String.toList_inj, String.toList_append, String.toList_append,
    List.append_cancel_left_eq, String.toList_inj]
  exact eq_comm

def mayaDB : DB where
  users := Table.single { id := 1, username := "maya", role := 1, status := 1 }
  twoFAs := Table.empty
  backupCodes := Table.empty
  passkeys := Table.empty

/-- Maya sets up two-factor authentication; the bytes drawn are 0, 1, 2 and so on. -/
def mayaSetup : Act where
  request := .setup2FA (Sess.ofCookie {}) (.ok ("secret", "otpauth"))
  ctx := { Ctx.plain 0 with id := 1 }
  rand n := .ok (UInt8.ofNat n)

/-- She spends the second of her codes. -/
def mayaSpends : Act where
  request := .validateBackupCode 1 "ij-kl-mnop"
  ctx := Ctx.plain 1
  rand n := .ok (UInt8.ofNat n)

theorem mayaHistory : history Env.plain mayaDB [mayaSetup, mayaSpends]
    = [.issued 1 ["ABCDEFGH", "IJKLMNOP", "QRSTUVWX", "YZ012345"], .spent 1 "IJKLMNOP"] := by
  decide +kernel

/-- The third code is still good, in lower case and with the dash elsewhere; the second is not. -/
theorem maya_accepts :
    validate Env.plain (Ctx.plain 2) (after Env.plain mayaDB [mayaSetup, mayaSpends])
        (fun _ => none) 1 "q-rstuvwX" = .ok true ∧
      validate Env.plain (Ctx.plain 2) (after Env.plain mayaDB [mayaSetup, mayaSpends])
        (fun _ => none) 1 "IJKL-MNOP" ≠ .ok true := by
  have hempty : ∀ c, c ∉ mayaDB.backupCodes := fun c hc => nomatch hc
  have htruly : ∀ a ∈ [mayaSetup, mayaSpends], HashesTruly Env.plain a.ctx := by
    intro a ha
    simp only [List.mem_cons, List.not_mem_nil, or_false] at ha
    rcases ha with rfl | rfl
    · exact hashesTruly_plain 0
    · exact hashesTruly_plain 1
  have haccepts := (accepts_iff_outstanding Env.plain mayaDB hempty [mayaSetup, mayaSpends]
    htruly).1 (Ctx.plain 2) (fun _ => none) 1
  constructor
  · apply (haccepts "q-rstuvwX").mpr
    refine ⟨rfl, rfl, ?_⟩
    rw [← left_pos, mayaHistory]
    decide +kernel
  · intro h
    obtain ⟨-, -, houtstanding⟩ := (haccepts "IJKL-MNOP").mp h
    rw [← left_pos, mayaHistory] at houtstanding
    exact absurd houtstanding (by decide +kernel)

end AuthGateway.BackupCodeLedger
