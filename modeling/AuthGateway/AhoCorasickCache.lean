import AuthGateway.Lib.Runs
import AuthGateway.Service.AcSearch
import Mathlib.Data.List.Infix

/-!
# The cache of Aho–Corasick machines

A call may be answered by a machine that was built from another dictionary with the
same key.  **The cache shows nowhere exactly when no two of the dictionaries have the
same hash and different words** (`transparent_iff`), the words as `readRunes`
prepares them.

The key drops blank words and separates the others by a NUL byte, so dictionaries
with blank words or with NUL in a word share keys.  For all others two dictionaries
with the same key are a collision of FNV-1a (`separated_of_plain`).
-/

namespace AuthGateway.AhoCorasickCache

open Service GoString

variable (lower : Char → Char) (build : Build)

/-- The cache after the calls, starting from nothing. -/
def cacheAfter (calls : List Search) : AcCache :=
  Runs.after (fun cache c => (acSearch lower build cache c).2) (fun _ => none) calls

/-- Every call is answered as it is with an empty cache. -/
def Transparent (calls : List Search) : Prop :=
  Runs.Always (fun pre c => (acSearch lower build (cacheAfter lower build pre) c).1 =
    (acSearch lower build (fun _ => none) c).1) calls

/-- The machines of the two dictionaries have the same words. -/
def SameWords (d d' : List String) : Prop := ∀ w, w ∈ readRunes lower d ↔ w ∈ readRunes lower d'

/-- **Dictionaries with the same hash have the same words**, the ones without a word
apart, which get no machine. -/
def Separated (dicts : List (List String)) : Prop :=
  ∀ d ∈ dicts, ∀ d' ∈ dicts, normalized lower d ≠ [] → normalized lower d' ≠ [] →
    fnv64a (stream lower d) = fnv64a (stream lower d') → SameWords lower d d'

/-! ### The machines in the cache -/

variable {lower build}

theorem cacheAfter_snoc (pre : List Search) (c : Search) :
    cacheAfter lower build (pre ++ [c]) =
      (acSearch lower build (cacheAfter lower build pre) c).2 := by
  rw [cacheAfter, Runs.after_snoc]
  rfl

theorem filled_cacheAfter {dicts : List (List String)} {calls : List Search}
    (h : ∀ c ∈ calls, c.dict ∈ dicts) :
    Memo.Filled (acKey lower) (initAc lower build) (fun d => d ∈ dicts ∧ normalized lower d ≠ [])
      (cacheAfter lower build calls) := by
  induction calls using List.reverseRecOn with
  | nil => exact Memo.filled_empty
  | append_singleton pre c ih =>
    have hpre := ih fun c' hc' => h c' (by simp [hc'])
    rw [cacheAfter_snoc]
    by_cases hc : c.Reaches lower
    · rw [acSearch_reaches _ hc]
      exact hpre.fetch ⟨h c (by simp), hc.2⟩
    · rw [acSearch_idle _ hc]
      exact hpre

theorem cacheAfter_keeps {pre : List Search} {k : String} {m : Machine}
    (h : cacheAfter lower build pre k = some m) (post : List Search) :
    cacheAfter lower build (pre ++ post) k = some m := by
  induction post using List.reverseRecOn with
  | nil => simpa using h
  | append_singleton post c ih =>
    rw [← List.append_assoc, cacheAfter_snoc]
    by_cases hc : c.Reaches lower
    · rw [acSearch_reaches _ hc]
      exact Memo.fetch_keeps ih
    · rw [acSearch_idle _ hc]
      exact ih

/-- **Every call with a key is answered by one machine**, the one that is in the cache
at the end, when no build fails. -/
theorem answer_eq (htotal : ∀ words, ∃ m, build words = some m) (pre post : List Search)
    {c : Search} (hc : c.Reaches lower) :
    (acSearch lower build (cacheAfter lower build pre) c).1 =
      hitsOf c (cacheAfter lower build (pre ++ c :: post) (acKey lower c.dict)) := by
  have hfetched : ∃ m, (Memo.fetch (acKey lower) (initAc lower build)
      (cacheAfter lower build pre) c.dict).1 = some m := by
    cases ht : cacheAfter lower build pre (acKey lower c.dict) with
    | some m => exact ⟨m, by rw [Memo.fetch_hit ht]⟩
    | none =>
      obtain ⟨m, hm⟩ := htotal (readRunes lower c.dict)
      exact ⟨m, by rw [Memo.fetch_miss ht hm]⟩
  obtain ⟨m, hm⟩ := hfetched
  have hnoted : cacheAfter lower build (pre ++ [c]) (acKey lower c.dict) = some m := by
    rw [cacheAfter_snoc, acSearch_reaches _ hc]
    exact Memo.fetch_noted hm
  have hend := cacheAfter_keeps hnoted post
  rw [List.append_assoc, List.singleton_append] at hend
  rw [acSearch_reaches _ hc, hend, hm]

/-! ### A search that tells the words apart -/

/-- Every word that ends somewhere in the text, position by position. -/
def plainSearch : Build := fun words => some fun text stopImmediately =>
  let hits := text.inits.flatMap fun upTo => upTo.tails.filter fun w => w ∈ words
  if stopImmediately then hits.take 1 else hits

theorem ofWords_plainSearch : OfWords plainSearch := by
  intro words words' h
  simp only [plainSearch, h]

theorem mem_hitsOf {text : String} {words : List (List Char)} {dict : List String} {w : List Char}
    (hw : w <:+ text.toList) :
    String.ofList w ∈ (hitsOf ⟨text, dict, false⟩ (plainSearch words)).2 ↔ w ∈ words := by
  have hmem : ∀ hits : List (List Char),
      String.ofList w ∈ (if 0 < hits.length then (true, hits.map String.ofList)
        else (false, [])).2 ↔ w ∈ hits := by
    intro hits
    cases hits with
    | nil => simp
    | cons v vs => simp [String.ofList_inj]
  rw [plainSearch, hitsOf, hmem]
  simp only [Bool.false_eq_true, if_false, List.mem_flatMap, List.mem_filter, List.mem_tails,
    List.mem_inits, decide_eq_true_eq]
  constructor
  · rintro ⟨upTo, -, -, h⟩
    exact h
  · intro h
    exact ⟨text.toList, List.prefix_rfl, hw, h⟩

/-- **The calls over some dictionaries are answered as with an empty cache, whatever the
texts and the package, exactly when the dictionaries with the same hash have the same
words.** -/
theorem transparent_iff (lower : Char → Char) (dicts : List (List String)) :
    (∀ build, OfWords build → ∀ calls, calls.map Search.dict = dicts →
      Transparent lower build calls) ↔ Separated lower dicts := by
  constructor
  · intro h
    have hone : ∀ d ∈ dicts, ∀ d' ∈ dicts, normalized lower d ≠ [] → normalized lower d' ≠ [] →
        fnv64a (stream lower d) = fnv64a (stream lower d') →
        ∀ w ∈ readRunes lower d, w ∈ readRunes lower d' := by
      intro d hd d' hd' hne hne' hhash w hw
      -- a text that ends with the word, the same in every call
      let text := String.ofList ('x' :: w)
      let call : List String → Search := fun d => ⟨text, d, false⟩
      have hreaches : ∀ e, normalized lower e ≠ [] → (call e).Reaches lower := by
        intro e he
        exact ⟨fun htext => by simpa [call, text] using congrArg String.toList htext, he⟩
      have hdicts : (dicts.map call).map Search.dict = dicts := by
        rw [List.map_map]
        exact List.map_id dicts
      have hrun := h plainSearch ofWords_plainSearch (dicts.map call) hdicts
      have hanswer : ∀ e ∈ dicts, normalized lower e ≠ [] →
          hitsOf (call e) (cacheAfter lower plainSearch (dicts.map call) (acKey lower e)) =
            hitsOf (call e) (plainSearch (readRunes lower e)) := by
        intro e he hene
        obtain ⟨pre, post, hsplit⟩ := List.append_of_mem he
        have hcalls : dicts.map call = pre.map call ++ call e :: post.map call := by
          simp [hsplit]
        have htotal : ∀ words, ∃ m, plainSearch words = some m := fun words => ⟨_, rfl⟩
        have hrun' := answer_eq htotal (pre.map call) (post.map call) (hreaches e hene)
        rw [← hcalls] at hrun'
        have hfresh := hrun (pre.map call) (call e) (post.map call) hcalls
        dsimp only at hfresh
        rw [hrun', acSearch_reaches _ (hreaches e hene)] at hfresh
        exact hfresh
      have hsuffix : w <:+ text.toList := by
        simp only [text, String.toList_ofList]
        exact List.suffix_cons 'x' w
      have hsame : hitsOf (call d) (plainSearch (readRunes lower d)) =
          hitsOf (call d') (plainSearch (readRunes lower d')) := by
        rw [← hanswer d hd hne, ← hanswer d' hd' hne', (acKey_eq_iff hne hne').mpr hhash]
        rfl
      have hhit : String.ofList w ∈ (hitsOf (call d) (plainSearch (readRunes lower d))).2 :=
        (mem_hitsOf hsuffix).mpr hw
      rw [hsame] at hhit
      exact (mem_hitsOf hsuffix).mp hhit
    intro d hd d' hd' hne hne' hhash w
    constructor
    · exact hone d hd d' hd' hne hne' hhash w
    · exact hone d' hd' d hd hne' hne hhash.symm w
  · intro h build hbuild calls hdicts pre c post hcalls
    have hmem : ∀ c' ∈ calls, c'.dict ∈ dicts := by
      intro c' hc'
      rw [← hdicts]
      exact List.mem_map_of_mem hc'
    by_cases hc : c.Reaches lower
    · have hfilled : Memo.Filled (acKey lower) (initAc lower build)
          (fun d => d ∈ dicts ∧ normalized lower d ≠ []) (cacheAfter lower build pre) :=
        filled_cacheAfter fun c' hc' => hmem c' (by simp [hcalls, hc'])
      have hagree : ∀ d, d ∈ dicts ∧ normalized lower d ≠ [] → acKey lower d = acKey lower c.dict →
          initAc lower build d = initAc lower build c.dict := by
        rintro d ⟨hd, hne⟩ hkey
        apply hbuild
        exact h d hd c.dict (hmem c (by simp [hcalls])) hne hc.2 ((acKey_eq_iff hne hc.2).mp hkey)
      rw [acSearch_reaches _ hc, acSearch_reaches _ hc, hfilled.fetch_eq hagree,
        Memo.filled_empty.fetch_eq hagree]
    · rw [acSearch_idle _ hc, acSearch_idle _ hc]

/-- No word of the dictionary is blank or has a NUL. -/
def Plain (lower : Char → Char) (d : List String) : Prop :=
  ([] ∉ readRunes lower d) ∧ ∀ w ∈ normalized lower d, '\x00' ∉ w.toList

/-- **Of plain dictionaries only those whose streams collide are not kept apart.** -/
theorem separated_of_plain {lower : Char → Char} (hspace : ∀ c, isSpace (lower c) = isSpace c)
    {dicts : List (List String)} (hplain : ∀ d ∈ dicts, Plain lower d)
    (hcollision : ∀ d ∈ dicts, ∀ d' ∈ dicts,
      fnv64a (stream lower d) = fnv64a (stream lower d') → stream lower d = stream lower d') :
    Separated lower dicts := by
  have hwords : ∀ d ∈ dicts, ∀ w, w ∈ readRunes lower d ↔
      String.ofList w ∈ sorted (normalized lower d) := by
    intro d hd w
    rw [mem_sorted, mem_normalized hspace]
    constructor
    · intro hw
      exact ⟨hw, fun he => (hplain d hd).1 (he ▸ hw)⟩
    · intro hw
      exact hw.1
  intro d hd d' hd' _ _ hhash w
  have hstream := hcollision d hd d' hd' hhash
  have hsorted := sorted_eq_of_stream_eq (hplain d hd).2 (hplain d' hd').2 hstream
  rw [hwords d hd, hwords d' hd', hsorted]

/-- The dictionary with the one word `a␀b`, and the dictionary with the words `a` and `b`. -/
theorem nul_shares_machine : ¬ ∀ build, OfWords build → ∀ calls,
    Transparent Char.toLower build calls := by
  intro h
  have hrun := h plainSearch ofWords_plainSearch
    [⟨"a", ["a\x00b"], false⟩, ⟨"a", ["a", "b"], false⟩] [⟨"a", ["a\x00b"], false⟩]
    ⟨"a", ["a", "b"], false⟩ [] rfl
  revert hrun
  decide +kernel

end AuthGateway.AhoCorasickCache
