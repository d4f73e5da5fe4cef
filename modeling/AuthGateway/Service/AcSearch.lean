import AuthGateway.Lib.GoString
import AuthGateway.Lib.Hex
import AuthGateway.Lib.Memo
import AuthGateway.Lib.Utf8
import Mathlib.Data.List.Sort

/-!
# service/str.go: `AcSearch`

The Aho–Corasick machines are kept in `acCache`, under a hash of the dictionary.
The machine and the key are made from two different preparations of the dictionary:
`readRunes` lowers and trims every word and keeps the blank ones, `acKey` trims,
lowers, drops the blank ones, sorts, and puts a NUL byte in front of every word.

`lower` is `unicode.ToLower`, on one rune, and `build` the package that makes the
machines.  A byte that is not UTF-8 counts as the rune U+FFFD, as `ToLower` and
`[]rune` read it.
-/

namespace AuthGateway.Service

open GoString

/-- `MultiPatternSearch`: the words of the hits in a text, the first hit only or all. -/
abbrev Machine := List Char → Bool → List (List Char)

/-- `Build`, `none` on an error. -/
abbrev Build := List (List Char) → Option Machine

/-- **A machine finds the words it was built from**, in whatever order they were given. -/
def OfWords (build : Build) : Prop :=
  ∀ words words', (∀ w, w ∈ words ↔ w ∈ words') → build words = build words'

/-- `acCache`. -/
abbrev AcCache := Memo.Table String Machine

/-- The arguments of `AcSearch`. -/
structure Search where
  findText : String
  dict : List String
  stopImmediately : Bool

variable (lower : Char → Char) (build : Build)

def readRunes (dict : List String) : List (List Char) :=
  dict.map fun word => (trimSpace (toLower lower word)).toList

/-- `InitAc`. -/
def initAc (dict : List String) : Option Machine := build (readRunes lower dict)

/-! ### The key -/

/-- `hasher.Write` of 64 bit FNV-1a, byte after byte. -/
def fnv64a (bytes : List UInt8) : UInt64 :=
  bytes.foldl (fun hash b => (hash ^^^ b.toUInt64) * 1099511628211) 14695981039346656037

/-- `normalized`, before it is sorted. -/
def normalized (dict : List String) : List String :=
  (dict.map fun w => toLower lower (trimSpace w)).filter fun w => w ≠ ""

/-- `sort.Strings`: the order of the bytes is the order of the runes. -/
def sorted (words : List String) : List String :=
  words.insertionSort fun v w => v.toList ≤ w.toList

/-- What is written to the hasher. -/
def stream (dict : List String) : List UInt8 :=
  (sorted (normalized lower dict)).flatMap fun w => 0 :: w.toList.flatMap String.utf8EncodeChar

def acKey (dict : List String) : String :=
  if dict.isEmpty then ""
  else if (normalized lower dict).isEmpty then ""
  else String.ofList (hex (fnv64a (stream lower dict)).toNat)

/-! ### The cache -/

def getOrBuildAC (cache : AcCache) (dict : List String) : Option Machine × AcCache :=
  if acKey lower dict = "" then (none, cache)
  else match cache (acKey lower dict) with
  | some m => (some m, cache)
  | none =>
    match initAc lower build dict with
    | none => (none, cache)
    | some m =>
      match cache (acKey lower dict) with
      | some cached => (some cached, cache)
      | none => (some m, Function.update cache (acKey lower dict) (some m))

/-- The hits of a machine, as `AcSearch` returns them. -/
def hitsOf (c : Search) : Option Machine → Bool × List String
  | none => (false, [])
  | some m =>
    let hits := m c.findText.toList c.stopImmediately
    if 0 < hits.length then (true, hits.map String.ofList) else (false, [])

def acSearch (cache : AcCache) (c : Search) : (Bool × List String) × AcCache :=
  if c.dict.isEmpty then ((false, []), cache)
  else if c.findText = "" then ((false, []), cache)
  else
    let (m, cache) := getOrBuildAC lower build cache c.dict
    (hitsOf c m, cache)

/-! ### What is hashed

The stream gives the words back, unless a word has a NUL itself.
-/

/-- **Texts with a separator in front of each are told apart**, when none of them has it. -/
theorem flatMap_cons_injective {α : Type} [DecidableEq α] {sep : α} {texts texts' : List (List α)}
    (h : ∀ t ∈ texts, sep ∉ t) (h' : ∀ t ∈ texts', sep ∉ t)
    (heq : (texts.flatMap fun t => sep :: t) = texts'.flatMap fun t => sep :: t) :
    texts = texts' := by
  have hstop : ∀ rest : List (List α),
      (rest.flatMap fun t => sep :: t).takeWhile (fun x => x ≠ sep) = [] := by
    intro rest
    cases rest <;> simp
  have hhead : ∀ (t : List α) (rest : List (List α)), sep ∉ t →
      (t ++ rest.flatMap fun t => sep :: t).takeWhile (fun x => x ≠ sep) = t := by
    intro t rest ht
    rw [List.takeWhile_append_of_pos, hstop, List.append_nil]
    intro x hx
    have hne : x ≠ sep := fun he => ht (he ▸ hx)
    simp [hne]
  induction texts generalizing texts' with
  | nil => cases texts' with
    | nil => rfl
    | cons t rest => simp at heq
  | cons t rest ih =>
    cases texts' with
    | nil => simp at heq
    | cons t' rest' =>
      simp only [List.flatMap_cons, List.cons_append, List.cons.injEq, true_and] at heq
      obtain rfl : t = t' := by
        rw [← hhead t rest (h t (by simp)), heq, hhead t' rest' (h' t' (by simp))]
      rw [ih (fun t ht => h t (by simp [ht])) (fun t ht => h' t (by simp [ht]))
        (List.append_cancel_left heq)]

theorem mem_sorted {words : List String} {w : String} : w ∈ sorted words ↔ w ∈ words :=
  (List.perm_insertionSort _ words).mem_iff

variable {lower} in
/-- **Without NUL the stream determines the words.** -/
theorem sorted_eq_of_stream_eq {d d' : List String}
    (h : ∀ w ∈ normalized lower d, '\x00' ∉ w.toList)
    (h' : ∀ w ∈ normalized lower d', '\x00' ∉ w.toList) (heq : stream lower d = stream lower d') :
    sorted (normalized lower d) = sorted (normalized lower d') := by
  have hchars : ∀ words : List String,
      (words.flatMap fun w => 0 :: w.toList.flatMap String.utf8EncodeChar) =
        ((words.map String.toList).flatMap fun t => '\x00' :: t).flatMap String.utf8EncodeChar := by
    intro words
    have hnul : String.utf8EncodeChar '\x00' = [0] := by decide
    induction words with
    | nil => rfl
    | cons w ws ih => simp [ih, hnul]
  have hplain : ∀ {words : List String}, (∀ w ∈ words, '\x00' ∉ w.toList) →
      ∀ t ∈ (sorted words).map String.toList, '\x00' ∉ t := by
    intro words hwords t ht
    obtain ⟨w, hw, rfl⟩ := List.mem_map.mp ht
    exact hwords w (mem_sorted.mp hw)
  rw [stream, stream, hchars, hchars] at heq
  have htexts := flatMap_cons_injective (hplain h) (hplain h') (Utf8.flatMap_utf8EncodeChar_injective heq)
  exact List.map_injective_iff.mpr (fun v w hvw => String.toList_inj.mp hvw) htexts

/-! ### The two preparations -/

section Preparations

variable {lower} (hspace : ∀ c, isSpace (lower c) = isSpace c)

include hspace

theorem toLower_trimSpace (s : String) :
    toLower lower (trimSpace s) = trimSpace (toLower lower s) := by
  have hcomp : isSpace ∘ lower = isSpace := funext hspace
  simp only [toLower, trimSpace, String.toList_ofList, List.dropWhile_map, hcomp, ← List.map_reverse]

/-- The two preparations have the same words that are not blank. -/
theorem mem_normalized {dict : List String} {w : List Char} :
    String.ofList w ∈ normalized lower dict ↔ w ∈ readRunes lower dict ∧ w ≠ [] := by
  have hword : ∀ {v : String}, v = String.ofList w ↔ v.toList = w := by
    intro v
    rw [← String.toList_inj, String.toList_ofList]
  have hempty : String.ofList w = "" ↔ w = [] := by
    rw [← String.toList_inj, String.toList_ofList, String.toList_empty]
  simp only [normalized, readRunes, List.mem_filter, List.mem_map, toLower_trimSpace hspace, hword,
    decide_eq_true_eq, ne_eq, hempty]

end Preparations

/-! ### The calls that use the cache -/

/-- The call comes to the cache: there is a text, and the dictionary has a word. -/
def Search.Reaches (c : Search) : Prop := c.findText ≠ "" ∧ normalized lower c.dict ≠ []

variable {lower build}

theorem acKey_eq_empty {dict : List String} :
    acKey lower dict = "" ↔ normalized lower dict = [] := by
  rw [acKey]
  cases dict with
  | nil => simp [normalized]
  | cons w ws =>
    have hhex : String.ofList (hex (fnv64a (stream lower (w :: ws))).toNat) ≠ "" := by
      intro h
      have hlist := congrArg String.toList h
      exact hex_ne_nil _ (by simpa using hlist)
    cases hn : normalized lower (w :: ws) with
    | nil => simp
    | cons v vs => simp [hhex]

theorem acKey_eq {dict : List String} (h : normalized lower dict ≠ []) :
    acKey lower dict = String.ofList (hex (fnv64a (stream lower dict)).toNat) := by
  have hdict : dict ≠ [] := by
    intro he
    rw [he] at h
    exact h rfl
  simp [acKey, hdict, h]

/-- **Two keys are the same when the hashes are.** -/
theorem acKey_eq_iff {d d' : List String} (h : normalized lower d ≠ [])
    (h' : normalized lower d' ≠ []) :
    acKey lower d = acKey lower d' ↔ fnv64a (stream lower d) = fnv64a (stream lower d') := by
  rw [acKey_eq h, acKey_eq h']
  constructor
  · intro he
    have hhex : hex (fnv64a (stream lower d)).toNat = hex (fnv64a (stream lower d')).toNat := by
      simpa using congrArg String.toList he
    exact UInt64.toNat.inj (hex_injective hhex)
  · intro he
    rw [he]

theorem getOrBuildAC_eq (cache : AcCache) {dict : List String} (h : normalized lower dict ≠ []) :
    getOrBuildAC lower build cache dict =
      Memo.fetch (acKey lower) (initAc lower build) cache dict := by
  have hkey : acKey lower dict ≠ "" := fun he => h (acKey_eq_empty.mp he)
  rw [getOrBuildAC, if_neg hkey, Memo.fetch]
  cases cache (acKey lower dict) with
  | some m => rfl
  | none => cases initAc lower build dict <;> rfl

/-- A call that reaches the cache is a fetch of its dictionary. -/
theorem acSearch_reaches (cache : AcCache) {c : Search} (h : c.Reaches lower) :
    acSearch lower build cache c =
      (hitsOf c (Memo.fetch (acKey lower) (initAc lower build) cache c.dict).1,
        (Memo.fetch (acKey lower) (initAc lower build) cache c.dict).2) := by
  have hdict : c.dict ≠ [] := by
    intro he
    have hnil := h.2
    rw [he] at hnil
    exact hnil rfl
  simp only [acSearch, List.isEmpty_iff, if_neg hdict, if_neg h.1, getOrBuildAC_eq cache h.2]

theorem acSearch_idle (cache : AcCache) {c : Search} (h : ¬ c.Reaches lower) :
    acSearch lower build cache c = ((false, []), cache) := by
  rw [acSearch]
  by_cases hdict : c.dict = []
  · simp [hdict]
  · by_cases htext : c.findText = ""
    · simp [hdict, htext]
    · have hkey : acKey lower c.dict = "" := by
        apply acKey_eq_empty.mpr
        by_contra hn
        exact h ⟨htext, hn⟩
      simp [hdict, htext, getOrBuildAC, hkey, hitsOf]

end AuthGateway.Service
