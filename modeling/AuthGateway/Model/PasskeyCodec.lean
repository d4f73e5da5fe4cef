import AuthGateway.Lib.Base64
import AuthGateway.Lib.GoString
import AuthGateway.Lib.JsonString
import AuthGateway.Model.Passkey

/-!
# The columns of a passkey

A credential of the WebAuthn library has byte strings and a list of transports; the table
`passkey_credentials` keeps text.  Here are the two directions of `model/passkey.go`, and
`GetPasskeyByCredentialID` from the bytes of an id.
-/

namespace AuthGateway.Model

open Common

/-! ### What the library hands over -/

/-- `webauthn.CredentialFlags`. -/
structure CredentialFlags where
  userPresent : Bool := false
  userVerified : Bool := false
  backupEligible : Bool := false
  backupState : Bool := false
deriving DecidableEq, Repr

/-- `webauthn.Authenticator`. -/
structure Authenticator where
  aaguid : List UInt8 := []
  signCount : UInt32 := 0
  cloneWarning : Bool := false
  attachment : String := ""
deriving DecidableEq, Repr

/-- `webauthn.Credential`, as far as a passkey keeps it; no transports at all are `none`. -/
structure Credential where
  id : List UInt8 := []
  publicKey : List UInt8 := []
  attestationType : String := ""
  transport : Option (List String) := none
  flags : CredentialFlags := {}
  authenticator : Authenticator := {}
deriving DecidableEq, Repr

/-- The credential with an empty list of transports read as none. -/
def Credential.normal (c : Credential) : Credential :=
  { c with transport := c.transport.filter fun list => !list.isEmpty }

/-! ### From a row and into a row -/

namespace PasskeyCredential

def transportList (p : PasskeyCredential) : Option (List String) :=
  if GoString.trimSpace p.credential.transports = "" then none
  else JsonString.readStrings p.credential.transports

/-- A list of strings is always marshalled, so the branch of an error is not taken. -/
def setTransports (p : PasskeyCredential) (list : Option (List String)) : PasskeyCredential :=
  { p with credential.transports :=
      match list.getD [] with
      | [] => ""
      | transport :: rest => JsonString.writeStrings (transport :: rest) }

/-- The errors of the decoder are dropped. -/
def toWebAuthnCredential (p : PasskeyCredential) : Credential where
  id := Base64.decodeString p.credential.id
  publicKey := Base64.decodeString p.credential.publicKey
  attestationType := p.credential.attestationType
  transport := p.transportList
  flags :=
    { userPresent := p.credential.userPresent
      userVerified := p.credential.userVerified
      backupEligible := p.credential.backupEligible
      backupState := p.credential.backupState }
  authenticator :=
    { aaguid := Base64.decodeString p.credential.aaguid
      signCount := UInt32.ofNat p.credential.signCount
      cloneWarning := p.credential.cloneWarning
      attachment := p.credential.attachment }

/-- The columns of a credential that both writers set, all but the transports. -/
def columns (credential : Credential) : WebAuthnCredential where
  id := Base64.encodeToString credential.id
  publicKey := Base64.encodeToString credential.publicKey
  attestationType := credential.attestationType
  aaguid := Base64.encodeToString credential.authenticator.aaguid
  signCount := credential.authenticator.signCount.toNat
  cloneWarning := credential.authenticator.cloneWarning
  userPresent := credential.flags.userPresent
  userVerified := credential.flags.userVerified
  backupEligible := credential.flags.backupEligible
  backupState := credential.flags.backupState
  attachment := credential.authenticator.attachment

/-- The passkey of a credential that is not nil. -/
def newPasskeyCredentialFromWebAuthn (userID : Int) (credential : Credential) :
    PasskeyCredential :=
  (ofWebAuthn userID (columns credential)).setTransports credential.transport

/-- The row keeps its id, its owner and its times. -/
def applyValidatedCredential (p : PasskeyCredential) (credential : Credential) :
    PasskeyCredential :=
  { p with credential := columns credential }.setTransports credential.transport

/-! ### The round trip -/

theorem writeStrings_ne_blank (transport : String) (rest : List String) :
    GoString.trimSpace (JsonString.writeStrings (transport :: rest)) ≠ "" := by
  rw [GoString.trimSpace_ne_empty, JsonString.writeStrings, String.toList_ofList]
  exact ⟨'[', List.mem_cons_self, by decide⟩

/-- **The transports are read back as they were set**, an empty list as none. -/
theorem transportList_setTransports (p : PasskeyCredential) (list : Option (List String)) :
    (p.setTransports list).transportList = list.filter fun list => !list.isEmpty := by
  cases list with
  | none => rfl
  | some list =>
    cases list with
    | nil => rfl
    | cons transport rest =>
      rw [transportList, setTransports]
      show (if GoString.trimSpace (JsonString.writeStrings (transport :: rest)) = "" then none
        else JsonString.readStrings (JsonString.writeStrings (transport :: rest))) = _
      rw [if_neg (writeStrings_ne_blank transport rest), JsonString.readStrings_writeStrings]
      rfl

/-- Whatever was in the row, the credential that it was set to is read back. -/
theorem toWebAuthnCredential_set (p : PasskeyCredential) (credential : Credential) :
    (({ p with credential := columns credential } : PasskeyCredential).setTransports
      credential.transport).toWebAuthnCredential = credential.normal := by
  rw [toWebAuthnCredential, transportList_setTransports]
  simp only [setTransports, columns, Base64.decodeString_encodeToString, UInt32.ofNat_toNat,
    Credential.normal]

theorem toWebAuthnCredential_new (userID : Int) (credential : Credential) :
    (newPasskeyCredentialFromWebAuthn userID credential).toWebAuthnCredential =
      credential.normal :=
  toWebAuthnCredential_set { userID := userID } credential

theorem toWebAuthnCredential_apply (p : PasskeyCredential) (credential : Credential) :
    (p.applyValidatedCredential credential).toWebAuthnCredential = credential.normal :=
  toWebAuthnCredential_set p credential

@[simp] theorem credentialID_new (userID : Int) (credential : Credential) :
    (newPasskeyCredentialFromWebAuthn userID credential).credentialID =
      Base64.encodeToString credential.id := rfl

end PasskeyCredential

/-! ### By the bytes of an id -/

/-- `GetPasskeyByCredentialID`. -/
def getPasskeyByCredentialBytes (credentialID : List UInt8) : M (Except Err PasskeyCredential) := do
  if credentialID.length = 0 then return .error errFriendlyPasskeyNotFound
  let credIDStr := Base64.encodeToString credentialID
  match ← perform (.passkeyFirst fun c => c.credentialID == credIDStr) with
  | .ok c => return .ok c
  | .error _ => return .error errFriendlyPasskeyNotFound

/-- The look-up by bytes is the one by their text. -/
theorem getPasskeyByCredentialBytes_eq (credentialID : List UInt8) :
    getPasskeyByCredentialBytes credentialID =
      getPasskeyByCredentialID (Base64.encodeToString credentialID) := by
  rw [getPasskeyByCredentialBytes, getPasskeyByCredentialID]
  by_cases hid : credentialID = []
  · rw [if_pos (List.length_eq_zero_iff.mpr hid), if_pos (Base64.encodeToString_eq_empty.mpr hid)]
  · have hlen : ¬ credentialID.length = 0 := fun h => hid (List.length_eq_zero_iff.mp h)
    have htext : Base64.encodeToString credentialID ≠ "" :=
      fun h => hid (Base64.encodeToString_eq_empty.mp h)
    rw [if_neg hlen]
    exact (if_neg htext).symm

end AuthGateway.Model
