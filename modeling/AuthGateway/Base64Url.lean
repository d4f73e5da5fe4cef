import AuthGateway.Web.Passkey

/-!
# Buffers survive base64url

The browser turns the texts of the server into buffers and the buffers of the authenticator
into texts.  **The two are inverse to each other**, on all buffers and on all texts without
padding whose last digit has no bits behind the last byte (`inverse`).
-/

namespace AuthGateway.Base64Url

open Web

def urlAlphabet : List Char :=
  "ABCDEFGHIJKLMNOPQRSTUVWXYZabcdefghijklmnopqrstuvwxyz0123456789-_".toList

/-- A text of base64url without padding that stands for whole bytes. -/
structure IsCanonical (t : String) : Prop where
  alphabet : ∀ c ∈ t.toList, c ∈ urlAlphabet
  length : t.toList.length % 4 ≠ 1
  oneByte : t.toList.length % 4 = 2 → ∀ c ∈ t.toList.getLast?, urlAlphabet.idxOf c % 16 = 0
  twoBytes : t.toList.length % 4 = 3 → ∀ c ∈ t.toList.getLast?, urlAlphabet.idxOf c % 4 = 0

theorem urlDigit_idxOf : ∀ c ∈ urlAlphabet,
    urlDigit (urlAlphabet.idxOf c) = c ∧ urlAlphabet.idxOf c < 64 :=
  List.forall_iff_forall_mem.mp (by decide +kernel)

/-- The conditions on a text with this character at its end. -/
theorem isCanonical_of_last {t : String} {c : Char} (hlast : t.toList.getLast? = some c)
    (halphabet : t.toList.Forall (· ∈ urlAlphabet)) (hlength : t.toList.length % 4 ≠ 1)
    (hone : t.toList.length % 4 = 2 → urlAlphabet.idxOf c % 16 = 0)
    (htwo : t.toList.length % 4 = 3 → urlAlphabet.idxOf c % 4 = 0) : IsCanonical t where
  alphabet := List.forall_iff_forall_mem.mp halphabet
  length := hlength
  oneByte := by
    intro h d hd
    rw [hlast] at hd
    obtain rfl := Option.some.inj hd
    exact hone h
  twoBytes := by
    intro h d hd
    rw [hlast] at hd
    obtain rfl := Option.some.inj hd
    exact htwo h

/-- The digits of a text. -/
theorem IsCanonical.exists_digits {t : String} (h : IsCanonical t) :
    ∃ ns, Base64.Canonical ns ∧ String.ofList (ns.map urlDigit) = t := by
  refine ⟨t.toList.map urlAlphabet.idxOf, ?_, ?_⟩
  · apply Base64.canonical_of_last
    · intro n hn
      obtain ⟨c, hc, rfl⟩ := List.mem_map.mp hn
      exact (urlDigit_idxOf c (h.alphabet c hc)).2
    · rw [List.length_map]
      exact h.length
    · intro hlength n hn
      rw [List.length_map] at hlength
      rw [List.getLast?_map, Option.mem_def, Option.map_eq_some_iff] at hn
      obtain ⟨c, hc, rfl⟩ := hn
      exact h.oneByte hlength c hc
    · intro hlength n hn
      rw [List.length_map] at hlength
      rw [List.getLast?_map, Option.mem_def, Option.map_eq_some_iff] at hn
      obtain ⟨c, hc, rfl⟩ := hn
      exact h.twoBytes hlength c hc
  · rw [List.map_map]
    have hdigits : t.toList.map (urlDigit ∘ urlAlphabet.idxOf) = t.toList :=
      (List.map_congr_left fun c hc => (urlDigit_idxOf c (h.alphabet c hc)).1).trans
        (List.map_id _)
    rw [hdigits, String.ofList_toList]

/-! ### Both ways -/

/-- A text and the buffer that it stands for. -/
def Encodes (t : String) (bytes : ArrayBuffer) : Prop :=
  base64UrlToBuffer (some t) = .ok bytes ∧ bufferToBase64Url (some bytes) = .ok t

theorem exists_text (bytes : ArrayBuffer) : ∃ t, Encodes t bytes ∧
    ∀ c ∈ t.toList, c ≠ '+' ∧ c ≠ '/' ∧ c ≠ '=' := by
  have hcanonical := Base64.canonical_sextets bytes
  refine ⟨String.ofList ((Base64.sextets bytes).map urlDigit), ⟨?_, ?_⟩, ?_⟩
  · rw [base64UrlToBuffer_eq hcanonical, Base64.ofSextets_sextets]
  · exact bufferToBase64Url_eq bytes
  · intro c hc
    rw [String.toList_ofList] at hc
    obtain ⟨n, hn, rfl⟩ := List.mem_map.mp hc
    obtain ⟨-, -, hplus, hslash, hpad, -⟩ := urlDigit_spec n (hcanonical.lt n hn)
    exact ⟨hplus, hslash, hpad⟩

theorem exists_buffer {t : String} (h : IsCanonical t) : ∃ bytes, Encodes t bytes := by
  obtain ⟨ns, hns, rfl⟩ := h.exists_digits
  refine ⟨Base64.ofSextets ns, base64UrlToBuffer_eq hns, ?_⟩
  rw [bufferToBase64Url_eq, Base64.sextets_ofSextets ns hns]

/-! ### Ids -/

/-- The ids of the array as texts, and as the buffers for them. -/
def SameIds : Option (List (Descriptor (Option String))) →
    Option (List (Descriptor ArrayBuffer)) → Prop
  | none, none => True
  | some items, some buffers => List.Forall₂
      (fun item buffer => item.rest = buffer.rest ∧ ∃ t, item.id = some t ∧ Encodes t buffer.id)
      items buffers
  | _, _ => False

/-- Every id of the array is canonical. -/
def CanonicalIds (ids : Option (List (Descriptor (Option String)))) : Prop :=
  ∀ items, ids = some items → ∀ item ∈ items, ∃ t, item.id = some t ∧ IsCanonical t

theorem mapM_bufferId {items : List (Descriptor (Option String))}
    (h : ∀ item ∈ items, ∃ t, item.id = some t ∧ IsCanonical t) :
    ∃ buffers, items.mapM bufferId = .ok buffers ∧ SameIds (some items) (some buffers) := by
  induction items with
  | nil => exact ⟨[], rfl, List.Forall₂.nil⟩
  | cons item items ih =>
    rw [List.forall_mem_cons] at h
    obtain ⟨t, hid, ht⟩ := h.1
    obtain ⟨bytes, hbytes⟩ := exists_buffer ht
    obtain ⟨buffers, hbuffers, hsame⟩ := ih h.2
    have hfirst : bufferId item = .ok { id := bytes, rest := item.rest } := by
      rw [bufferId, hid, hbytes.1]
      rfl
    refine ⟨{ id := bytes, rest := item.rest } :: buffers, ?_, ?_⟩
    · rw [List.mapM_cons, hfirst, hbuffers]
      rfl
    · exact List.Forall₂.cons ⟨rfl, t, hid, hbytes⟩ hsame

theorem bufferIds_canonical {ids : Option (List (Descriptor (Option String)))}
    (h : CanonicalIds ids) : ∃ buffers, bufferIds ids = .ok buffers ∧ SameIds ids buffers := by
  cases ids with
  | none => exact ⟨none, rfl, trivial⟩
  | some items =>
    obtain ⟨buffers, hbuffers, hsame⟩ := mapM_bufferId (h items rfl)
    refine ⟨some buffers, ?_, hsame⟩
    rw [bufferIds, hbuffers]
    rfl

/-! ### Challenges and answers -/

theorem request_buffers {payload : Payload (RequestOptions (Option String))}
    {options : RequestOptions (Option String)} (hoptions : payload.options = some options)
    {challenge : String} (hchallenge : options.challenge = some challenge)
    (hcanonical : IsCanonical challenge) (hids : CanonicalIds options.allowCredentials) :
    ∃ publicKey, prepareCredentialRequestOptions (some payload) = .ok publicKey ∧
      Encodes challenge publicKey.challenge ∧
      SameIds options.allowCredentials publicKey.allowCredentials := by
  obtain ⟨bytes, hbytes⟩ := exists_buffer hcanonical
  obtain ⟨buffers, hbuffers, hsame⟩ := bufferIds_canonical hids
  refine ⟨⟨bytes, buffers, options.rest⟩, ?_, hbytes, hsame⟩
  rw [prepareCredentialRequestOptions, Option.bind_some, hoptions]
  simp only [hchallenge, hbytes.1, hbuffers]
  rfl

/-- Each text of the answer stands for the buffer in its place. -/
structure SameAnswer (assertion : Credential (AssertionResponse ArrayBuffer) ArrayBuffer)
    (result : Credential (AssertionResponse String) String) : Prop where
  rawId : Encodes result.rawId assertion.rawId
  authenticatorData :
    Encodes result.response.authenticatorData assertion.response.authenticatorData
  clientDataJSON : Encodes result.response.clientDataJSON assertion.response.clientDataJSON
  signature : Encodes result.response.signature assertion.response.signature
  userHandle : Option.Rel Encodes result.response.userHandle assertion.response.userHandle

theorem exists_userHandle (userHandle : Option ArrayBuffer) :
    ∃ handle, Option.Rel Encodes handle userHandle ∧ userHandleText userHandle = .ok handle := by
  cases userHandle with
  | none => exact ⟨none, Option.Rel.none, rfl⟩
  | some userHandle =>
    obtain ⟨handle, hhandle, -⟩ := exists_text userHandle
    refine ⟨some handle, Option.Rel.some hhandle, ?_⟩
    rw [userHandleText, hhandle.2]
    rfl

theorem assertion_texts (assertion : Credential (AssertionResponse ArrayBuffer) ArrayBuffer) :
    ∃ result, buildAssertionResult (some assertion) = .ok (some result) ∧
      SameAnswer assertion result := by
  obtain ⟨rawId, hrawId, -⟩ := exists_text assertion.rawId
  obtain ⟨data, hdata, -⟩ := exists_text assertion.response.authenticatorData
  obtain ⟨json, hjson, -⟩ := exists_text assertion.response.clientDataJSON
  obtain ⟨signature, hsignature, -⟩ := exists_text assertion.response.signature
  obtain ⟨handle, hhandle, hrun⟩ := exists_userHandle assertion.response.userHandle
  refine ⟨⟨assertion.id, rawId, assertion.type, assertion.authenticatorAttachment,
    ⟨data, json, signature, handle⟩, some (assertion.clientExtensionResults.getD (.obj []))⟩, ?_,
    ⟨hrawId, hdata, hjson, hsignature, hhandle⟩⟩
  rw [buildAssertionResult]
  simp only [hrawId.2, hdata.2, hjson.2, hsignature.2, hrun]
  rfl

/-- **Texts and buffers are inverse to each other**, and so are the challenge, the ids and the
answer that go through them. -/
theorem inverse :
    (∀ b : ArrayBuffer, ∃ t, bufferToBase64Url (some b) = .ok t ∧
      base64UrlToBuffer (some t) = .ok b ∧ ∀ c ∈ t.toList, c ≠ '+' ∧ c ≠ '/' ∧ c ≠ '=') ∧
    (∀ t, IsCanonical t → ∃ b, base64UrlToBuffer (some t) = .ok b ∧
      bufferToBase64Url (some b) = .ok t) ∧
    (∀ (payload : Payload (RequestOptions (Option String)))
      (options : RequestOptions (Option String)), payload.options = some options →
      ∀ challenge, options.challenge = some challenge → IsCanonical challenge →
      CanonicalIds options.allowCredentials →
      ∃ publicKey, prepareCredentialRequestOptions (some payload) = .ok publicKey ∧
        Encodes challenge publicKey.challenge ∧
        SameIds options.allowCredentials publicKey.allowCredentials) ∧
    ∀ assertion : Credential (AssertionResponse ArrayBuffer) ArrayBuffer, ∃ result,
      buildAssertionResult (some assertion) = .ok (some result) ∧ SameAnswer assertion result := by
  refine ⟨?_, ?_, ?_, ?_⟩
  · intro b
    obtain ⟨t, ht, hplain⟩ := exists_text b
    exact ⟨t, ht.2, ht.1, hplain⟩
  · intro t ht
    exact exists_buffer ht
  · intro payload options hoptions challenge hchallenge hcanonical hids
    exact request_buffers hoptions hchallenge hcanonical hids
  · exact assertion_texts

/-- A request with a challenge and an id. -/
def sampleRequest : RequestOptions (Option String) where
  challenge := some "-_8"
  allowCredentials := some [⟨some "AQ", .obj []⟩]
  rest := .obj []

/-- A challenge of two bytes and an id of one go through. -/
theorem challenge_kept :
    (∃ b, base64UrlToBuffer (some "-_8") = .ok b ∧ bufferToBase64Url (some b) = .ok "-_8") ∧
      ∃ publicKey, prepareCredentialRequestOptions
          (some { publicKey := some sampleRequest }) = .ok publicKey ∧
        Encodes "-_8" publicKey.challenge ∧
        SameIds sampleRequest.allowCredentials publicKey.allowCredentials := by
  have hchallenge : IsCanonical "-_8" :=
    isCanonical_of_last rfl (by decide) (by decide) (by decide) (by decide)
  have hid : IsCanonical "AQ" :=
    isCanonical_of_last rfl (by decide) (by decide) (by decide) (by decide)
  refine ⟨inverse.2.1 "-_8" hchallenge,
    inverse.2.2.1 _ sampleRequest rfl "-_8" rfl hchallenge ?_⟩
  intro items hitems item hitem
  obtain rfl := Option.some.inj hitems
  obtain rfl := List.mem_singleton.mp hitem
  exact ⟨"AQ", rfl, hid⟩

end AuthGateway.Base64Url
