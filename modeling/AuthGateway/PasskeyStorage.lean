import AuthGateway.Model.PasskeyCodec

/-!
# Passkeys survive storage

The text of a row is read back as the credential that it was written from, whatever the
bytes of its id, its key and its AAGUID are (`passkey_survives_storage`).  The look-up by id
asks for exactly the stored text, and a passkey that was upserted is the one it finds
(`upserted_passkey_found`).  Only the empty id is not looked up at all.
-/

namespace AuthGateway.Model

open Common PasskeyCredential

/-! ### The look-up -/

/-- The first live passkey with this text as its credential id. -/
def firstByCredentialID (text : String) : M (Except Err PasskeyCredential) := do
  match ← perform (.passkeyFirst fun c => c.credentialID == text) with
  | .ok c => return .ok c
  | .error _ => return .error errFriendlyPasskeyNotFound

theorem getPasskeyByCredentialBytes_empty :
    getPasskeyByCredentialBytes [] = return .error errFriendlyPasskeyNotFound := rfl

theorem getPasskeyByCredentialBytes_stored {c : Credential} (hid : c.id ≠ []) (userID : Int) :
    getPasskeyByCredentialBytes c.id =
      firstByCredentialID (newPasskeyCredentialFromWebAuthn userID c).credentialID := by
  have hlen : ¬ c.id.length = 0 := fun h => hid (List.length_eq_zero_iff.mp h)
  rw [getPasskeyByCredentialBytes, if_neg hlen]
  rfl

theorem credentialID_unique (t : Table PasskeyCredential) (text : String) :
    ∀ a ∈ t, ∀ b ∈ t, (a.live && a.credentialID == text) = true →
      (b.live && b.credentialID == text) = true → a = b := by
  intro a ha b hb hpa hpb
  rw [Bool.and_eq_true, beq_iff_eq] at hpa hpb
  have hsame : a.credentialID = b.credentialID := by rw [hpa.2, hpb.2]
  apply Table.eq_of_clash ha hb
  simp [PasskeyCredential.clash, hsame]

theorem upsert_stored {c : PasskeyCredential} {db db' : DB}
    (h : (upsertPasskeyCredential c).run exec db = (none, db')) :
    ∃ row t, (db.passkeys.delete fun x => x.userID == c.userID).create c = some (row, t) ∧
      db' = db.setPasskeys t := by
  rw [upsertPasskeyCredential, perform, Prog.perform_bind, Prog.run_call] at h
  simp only [exec] at h
  cases hcreate : (db.passkeys.delete fun x => x.userID == c.userID).create c with
  | none => simp [hcreate, DB.written] at h
  | some stored =>
    obtain ⟨row, t⟩ := stored
    simp only [hcreate, Option.map_some, DB.written, Prog.run_pure, Prod.mk.injEq, true_and] at h
    exact ⟨row, t, rfl, h.symm⟩

/-- **A passkey that was upserted is found by the bytes of its id**, and its row is read back
as the credential that it was made of. -/
theorem upserted_passkey_found {userID : Int} {c : Credential} (hid : c.id ≠ []) {db db' : DB}
    (h : (upsertPasskeyCredential (newPasskeyCredentialFromWebAuthn userID c)).run exec db
      = (none, db')) :
    ∃ row, (getPasskeyByCredentialBytes c.id).run exec db' = (.ok row, db') ∧
      row.userID = userID ∧ row.toWebAuthnCredential = c.normal := by
  obtain ⟨row, t, hcreate, rfl⟩ := upsert_stored h
  have hrow : row.userID = userID ∧ row.live = true ∧
      row.credential = (newPasskeyCredentialFromWebAuthn userID c).credential := by
    rcases Table.eq_of_create hcreate with rfl | rfl
    · exact ⟨rfl, rfl, rfl⟩
    · exact ⟨rfl, rfl, rfl⟩
  obtain ⟨huser, hlive, hcred⟩ := hrow
  have hmem : row ∈ t := (Table.mem_create hcreate).mpr (Or.inl rfl)
  have hfind : t.find? (fun x => x.live &&
      x.credentialID == (newPasskeyCredentialFromWebAuthn userID c).credentialID) = some row := by
    rw [Table.find?_eq_some_of_unique (credentialID_unique t _)]
    refine ⟨hmem, ?_⟩
    rw [hlive, credentialID, hcred]
    simp [credentialID]
  refine ⟨row, ?_, huser, ?_⟩
  · rw [getPasskeyByCredentialBytes_stored hid userID, firstByCredentialID, perform,
      Prog.perform_bind, Prog.run_call]
    simp only [exec, DB.setPasskeys, hfind, found, Prog.run_pure]
  · rw [← toWebAuthnCredential_new userID c, toWebAuthnCredential, toWebAuthnCredential,
      transportList, transportList, hcred]

/-! ### Round trip and look-up together -/

/-- **What is stored is read back**: the credential with an empty list of transports read as
none, different ids under different texts, and every id but the empty one looked up as the
text that it is stored under. -/
theorem passkey_survives_storage (userID : Int) (c : Credential) :
    (newPasskeyCredentialFromWebAuthn userID c).toWebAuthnCredential = c.normal ∧
    (∀ (userID' : Int) (c' : Credential),
      (newPasskeyCredentialFromWebAuthn userID' c').credentialID =
        (newPasskeyCredentialFromWebAuthn userID c).credentialID ↔ c'.id = c.id) ∧
    getPasskeyByCredentialBytes c.id =
      if c.id = [] then return .error errFriendlyPasskeyNotFound
      else firstByCredentialID (newPasskeyCredentialFromWebAuthn userID c).credentialID := by
  refine ⟨toWebAuthnCredential_new userID c, ?_, ?_⟩
  · intro userID' c'
    rw [credentialID_new, credentialID_new]
    exact ⟨Base64.encodeToString_injective, fun h => by rw [h]⟩
  · by_cases hid : c.id = []
    · rw [if_pos hid, hid, getPasskeyByCredentialBytes_empty]
    · rw [if_neg hid, getPasskeyByCredentialBytes_stored hid userID]

/-- A database without rows. -/
def blankDB : DB :=
  { users := Table.empty, twoFAs := Table.empty, backupCodes := Table.empty,
    passkeys := Table.empty }

/-- **The empty id is not looked up**: its text is in the table, and a query for the text finds
the row. -/
theorem empty_id_not_looked_up :
    ∃ db : DB, (upsertPasskeyCredential (newPasskeyCredentialFromWebAuthn 1 {})).run exec blankDB
        = (none, db) ∧
      (getPasskeyByCredentialBytes []).run exec db = (.error errFriendlyPasskeyNotFound, db) ∧
      ∃ row, (firstByCredentialID (newPasskeyCredentialFromWebAuthn 1 {}).credentialID).run exec db
        = (.ok row, db) :=
  ⟨_, rfl, rfl, _, rfl⟩

end AuthGateway.Model
