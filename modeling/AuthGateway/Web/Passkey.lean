import AuthGateway.Lib.Base64Digits
import AuthGateway.Lib.JsonTree
import AuthGateway.Web.TwoFAVerification

/-!
# web/src/helpers/passkey.js

The options from the server with their texts as buffers, and the answer of the authenticator
with its buffers as texts.
-/

namespace AuthGateway.Web

/-- What is thrown. -/
inductive JsError
  | invalidCharacterError
  | error (message : String)

/-! ### Base64 of the browser -/

/-- `window.atob`: each byte is a character. -/
def atob (data : String) : Except JsError String :=
  match Base64.forgivingDecode data.toList with
  | some bytes => .ok (String.ofList (bytes.map fun b => Char.ofNat b.toNat))
  | none => .error .invalidCharacterError

/-- `window.btoa`. -/
def btoa (data : String) : Except JsError String :=
  if data.toList.all fun c => c.toNat < 256 then
    .ok (Base64.encodeToString (data.toList.map fun c => UInt8.ofNat c.toNat))
  else .error .invalidCharacterError

/-! ### Buffers and texts -/

/-- The bytes of an `ArrayBuffer`. -/
abbrev ArrayBuffer : Type := List UInt8

/-- `replace` of one character everywhere. -/
def replaceAll (s : String) (c c' : Char) : String :=
  String.ofList (s.toList.map fun x => if x = c then c' else x)

/-- `replace(/=+$/g, '')`. -/
def trimPadding (s : String) : String := String.ofList (s.toList.rdropWhile (· = '='))

/-- A text that is undefined is `none`. -/
def base64UrlToBuffer (base64url : Option String) : Except JsError ArrayBuffer :=
  match base64url with
  | none => .ok []
  | some base64url =>
    if base64url = "" then .ok []
    else
      let padding := String.ofList (List.replicate ((4 - jsLength base64url % 4) % 4) '=')
      let base64 := replaceAll (replaceAll (base64url ++ padding) '-' '+') '_' '/'
      (atob base64).map fun rawData => rawData.toList.map fun c => UInt8.ofNat c.toNat

def bufferToBase64Url (buffer : Option ArrayBuffer) : Except JsError String :=
  match buffer with
  | none => .ok ""
  | some uintArray =>
    let binary := String.ofList (uintArray.map fun b => Char.ofNat b.toNat)
    (btoa binary).map fun base64 =>
      trimPadding (replaceAll (replaceAll base64 '+' '-') '/' '_')

/-! ### What they do with digits -/

/-- The digit of base64url. -/
def urlDigit (n : Nat) : Char :=
  if Base64.digit n = '+' then '-' else if Base64.digit n = '/' then '_' else Base64.digit n

theorem toNat_byte (b : UInt8) : (Char.ofNat b.toNat).toNat = b.toNat := by
  have hall : ∀ n < 256, (Char.ofNat n).toNat = n := by decide +kernel
  exact hall b.toNat b.toNat_lt

theorem map_byte (bytes : List UInt8) :
    (bytes.map fun b => Char.ofNat b.toNat).map (fun c => UInt8.ofNat c.toNat) = bytes := by
  rw [List.map_map]
  refine (List.map_congr_left fun b _ => ?_).trans (List.map_id bytes)
  show UInt8.ofNat (Char.ofNat b.toNat).toNat = b
  rw [toNat_byte, UInt8.ofNat_toNat]

theorem btoa_bytes (bytes : List UInt8) :
    btoa (String.ofList (bytes.map fun b => Char.ofNat b.toNat)) =
      .ok (Base64.encodeToString bytes) := by
  have hall : (bytes.map fun b => Char.ofNat b.toNat).all (fun c => c.toNat < 256) = true := by
    rw [List.all_map, List.all_eq_true]
    intro b _
    show decide ((Char.ofNat b.toNat).toNat < 256) = true
    rw [toNat_byte]
    exact decide_eq_true b.toNat_lt
  rw [btoa, String.toList_ofList, if_pos hall, map_byte]

/-- No digit is taken for another one in either alphabet. -/
theorem urlDigit_spec : ∀ n < 64,
    (if (if urlDigit n = '-' then '+' else urlDigit n) = '_' then '/'
      else if urlDigit n = '-' then '+' else urlDigit n) = Base64.digit n ∧
    (if (if Base64.digit n = '+' then '-' else Base64.digit n) = '/' then '_'
      else if Base64.digit n = '+' then '-' else Base64.digit n) = urlDigit n ∧
    urlDigit n ≠ '+' ∧ urlDigit n ≠ '/' ∧ urlDigit n ≠ '=' ∧ utf16Size (urlDigit n) = 1 := by
  decide +kernel

theorem rdropWhile_padding {l : List Char} (h : ∀ c ∈ l, c ≠ '=') (k : Nat) :
    (l ++ List.replicate k '=').rdropWhile (· = '=') = l := by
  induction k with
  | zero =>
    rw [List.replicate_zero, List.append_nil, List.rdropWhile_eq_self_iff]
    intro hl hlast
    exact h _ (List.getLast_mem hl) (of_decide_eq_true hlast)
  | succ k ih =>
    rw [List.replicate_succ', ← List.append_assoc, List.rdropWhile_concat_pos _ _ _ (by decide), ih]

theorem map_replaced {f : Char → Char} (hf : f '=' = '=') {ns : List Nat} {a b : Nat → Char}
    (h : ∀ n ∈ ns, f (a n) = b n) (k : Nat) :
    (ns.map a ++ List.replicate k '=').map f = ns.map b ++ List.replicate k '=' := by
  have hmap : (ns.map a).map f = ns.map b := by
    rw [List.map_map]
    exact List.map_congr_left h
  rw [List.map_append, List.map_replicate, hf, hmap]

/-- **A buffer becomes its digits.** -/
theorem bufferToBase64Url_eq (bytes : ArrayBuffer) :
    bufferToBase64Url (some bytes) =
      .ok (String.ofList ((Base64.sextets bytes).map urlDigit)) := by
  have hlt := (Base64.canonical_sextets bytes).lt
  have hnone : ∀ c ∈ (Base64.sextets bytes).map urlDigit, c ≠ '=' := by
    intro c hc
    obtain ⟨n, hn, rfl⟩ := List.mem_map.mp hc
    exact (urlDigit_spec n (hlt n hn)).2.2.2.2.1
  have hreplaced : (((Base64.encode bytes).map fun x => if x = '+' then '-' else x).map
      fun x => if x = '/' then '_' else x) =
      (Base64.sextets bytes).map urlDigit ++ Base64.padding (Base64.sextets bytes).length := by
    rw [List.map_map, Base64.encode_eq, Base64.padding]
    exact map_replaced rfl (fun n hn => (urlDigit_spec n (hlt n hn)).2.1) _
  show (btoa (String.ofList (bytes.map fun b => Char.ofNat b.toNat))).map _ = _
  rw [btoa_bytes]
  show Except.ok (trimPadding (replaceAll (replaceAll (Base64.encodeToString bytes) '+' '-')
    '/' '_')) = _
  rw [trimPadding, replaceAll, replaceAll, Base64.encodeToString, String.toList_ofList,
    String.toList_ofList, String.toList_ofList, hreplaced, Base64.padding, rdropWhile_padding hnone]

theorem jsLength_digits {ns : List Nat} (h : ∀ n ∈ ns, n < 64) :
    jsLength (String.ofList (ns.map urlDigit)) = ns.length := by
  rw [jsLength, String.toList_ofList, List.map_map]
  induction ns with
  | nil => rfl
  | cons n ns ih =>
    rw [List.forall_mem_cons] at h
    rw [List.map_cons, List.sum_cons, ih h.2, List.length_cons, Nat.add_comm]
    show ns.length + utf16Size (urlDigit n) = _
    rw [(urlDigit_spec n h.1).2.2.2.2.2]

/-- **Digits become their bytes.** -/
theorem base64UrlToBuffer_eq {ns : List Nat} (h : Base64.Canonical ns) :
    base64UrlToBuffer (some (String.ofList (ns.map urlDigit))) = .ok (Base64.ofSextets ns) := by
  by_cases hempty : ns = []
  · subst hempty
    rfl
  have hne : String.ofList (ns.map urlDigit) ≠ "" := by
    intro heq
    have hlist := congrArg String.toList heq
    rw [String.toList_ofList] at hlist
    exact hempty (List.map_eq_nil_iff.mp hlist)
  have hreplaced : (((ns.map urlDigit ++ Base64.padding ns.length).map
      fun x => if x = '-' then '+' else x).map fun x => if x = '_' then '/' else x) =
      ns.map Base64.digit ++ Base64.padding ns.length := by
    rw [List.map_map, Base64.padding]
    exact map_replaced rfl (fun n hn => (urlDigit_spec n (h.lt n hn)).1) _
  show (if String.ofList (ns.map urlDigit) = "" then Except.ok []
    else (atob (replaceAll (replaceAll (String.ofList (ns.map urlDigit) ++ String.ofList
      (List.replicate ((4 - jsLength (String.ofList (ns.map urlDigit)) % 4) % 4) '=')) '-' '+')
        '_' '/')).map fun rawData => rawData.toList.map fun c => UInt8.ofNat c.toNat) = _
  rw [if_neg hne, jsLength_digits h.lt, replaceAll, replaceAll, String.toList_ofList,
    String.toList_append, String.toList_ofList, String.toList_ofList]
  change (atob (String.ofList (((ns.map urlDigit ++ Base64.padding ns.length).map
    fun x => if x = '-' then '+' else x).map fun x => if x = '_' then '/' else x))).map _ = _
  rw [hreplaced, atob, String.toList_ofList, Base64.forgivingDecode_padded h]
  show Except.ok ((String.ofList ((Base64.ofSextets ns).map fun b => Char.ofNat b.toNat)).toList.map
    fun c => UInt8.ofNat c.toNat) = _
  rw [String.toList_ofList, map_byte]

/-! ### Options from the server -/

/-- A member of `excludeCredentials` or `allowCredentials`; `rest` is what is copied. -/
structure Descriptor (ι : Type) where
  id : ι
  rest : JsonTree

/-- The options are under one of these names. -/
structure Payload (ω : Type) where
  publicKey : Option ω := none
  PublicKey : Option ω := none
  response : Option ω := none
  Response : Option ω := none

def Payload.options {ω : Type} (payload : Payload ω) : Option ω :=
  ((payload.publicKey.or payload.PublicKey).or payload.response).or payload.Response

structure CreationOptions (ι : Type) where
  challenge : ι
  user : Option (Descriptor ι)
  excludeCredentials : Option (List (Descriptor ι))
  attestationFormats : Option (List JsonTree)
  rest : JsonTree

structure RequestOptions (ι : Type) where
  challenge : ι
  allowCredentials : Option (List (Descriptor ι))
  rest : JsonTree

def bufferId (item : Descriptor (Option String)) : Except JsError (Descriptor ArrayBuffer) :=
  (base64UrlToBuffer item.id).map fun id => { id := id, rest := item.rest }

/-- The ids of an array; what is no array stays away. -/
def bufferIds : Option (List (Descriptor (Option String))) →
    Except JsError (Option (List (Descriptor ArrayBuffer)))
  | none => .ok none
  | some items => (items.mapM bufferId).map some

def prepareCredentialCreationOptions (payload : Option (Payload (CreationOptions (Option String)))) :
    Except JsError (CreationOptions ArrayBuffer) :=
  match payload.bind Payload.options with
  | none => .error (.error "无法从服务端响应中解析 Passkey 注册参数")
  | some options => do
    let challenge ← base64UrlToBuffer options.challenge
    let id ← base64UrlToBuffer (options.user.bind Descriptor.id)
    let excludeCredentials ← bufferIds options.excludeCredentials
    let attestationFormats :=
      if options.attestationFormats.any List.isEmpty then none else options.attestationFormats
    let rest := (options.user.map Descriptor.rest).getD (.obj [])
    return { challenge := challenge, user := some { id := id, rest := rest },
             excludeCredentials := excludeCredentials, attestationFormats := attestationFormats,
             rest := options.rest }

def prepareCredentialRequestOptions (payload : Option (Payload (RequestOptions (Option String)))) :
    Except JsError (RequestOptions ArrayBuffer) :=
  match payload.bind Payload.options with
  | none => .error (.error "无法从服务端响应中解析 Passkey 登录参数")
  | some options => do
    let challenge ← base64UrlToBuffer options.challenge
    let allowCredentials ← bufferIds options.allowCredentials
    return { challenge := challenge, allowCredentials := allowCredentials, rest := options.rest }

/-! ### Answers of the authenticator -/

structure AssertionResponse (β : Type) where
  authenticatorData : β
  clientDataJSON : β
  signature : β
  userHandle : Option β

structure AttestationResponse (β : Type) where
  attestationObject : β
  clientDataJSON : β
  transports : Option (List String)

/-- A `PublicKeyCredential`, and the result that is made of it. -/
structure Credential (ρ β : Type) where
  id : String
  rawId : β
  type : String
  authenticatorAttachment : Option String
  response : ρ
  clientExtensionResults : Option JsonTree

def buildRegistrationResult (credential : Option (Credential (AttestationResponse ArrayBuffer)
    ArrayBuffer)) : Except JsError (Option (Credential (AttestationResponse String) String)) :=
  match credential with
  | none => .ok none
  | some credential => do
    let rawId ← bufferToBase64Url (some credential.rawId)
    let attestationObject ← bufferToBase64Url (some credential.response.attestationObject)
    let clientDataJSON ← bufferToBase64Url (some credential.response.clientDataJSON)
    return some { id := credential.id, rawId := rawId, type := credential.type,
                  authenticatorAttachment := credential.authenticatorAttachment,
                  response := { attestationObject := attestationObject,
                                clientDataJSON := clientDataJSON,
                                transports := credential.response.transports },
                  clientExtensionResults := some (credential.clientExtensionResults.getD (.obj [])) }

/-- A handle that is there; otherwise `null`. -/
def userHandleText : Option ArrayBuffer → Except JsError (Option String)
  | none => .ok none
  | some userHandle => (bufferToBase64Url (some userHandle)).map some

def buildAssertionResult (assertion : Option (Credential (AssertionResponse ArrayBuffer)
    ArrayBuffer)) : Except JsError (Option (Credential (AssertionResponse String) String)) :=
  match assertion with
  | none => .ok none
  | some assertion => do
    let rawId ← bufferToBase64Url (some assertion.rawId)
    let authenticatorData ← bufferToBase64Url (some assertion.response.authenticatorData)
    let clientDataJSON ← bufferToBase64Url (some assertion.response.clientDataJSON)
    let signature ← bufferToBase64Url (some assertion.response.signature)
    let userHandle ← userHandleText assertion.response.userHandle
    return some { id := assertion.id, rawId := rawId, type := assertion.type,
                  authenticatorAttachment := assertion.authenticatorAttachment,
                  response := { authenticatorData := authenticatorData,
                                clientDataJSON := clientDataJSON,
                                signature := signature,
                                userHandle := userHandle },
                  clientExtensionResults := some (assertion.clientExtensionResults.getD (.obj [])) }

end AuthGateway.Web
