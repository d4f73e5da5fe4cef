import Mathlib.Data.List.TakeDrop
import AuthGateway.ConfigImport
import AuthGateway.Controller.ConsoleMigrate

/-!
# The migration of the console

`MigrateConsoleSetting` writes the new keys, empties the old ones and deletes
them, whatever it could make of their values.  All that it writes is known
before the first write (`writes`), so the table afterwards is a table in closed
form (`migrated`).

Nothing is lost if the old arrays are well formed and no longer than 50 items, if every
question has its answer, and if the URL and the slug come together.  **These are
the tables on which the migration loses nothing** (`losesNothing_iff`); a second
run never changes anything.
-/

namespace AuthGateway.ConsoleMigration

open Common Model Controller Replay

/-! ### What is written -/

/-- A process over a table in order. -/
def inOrder (settings : Settings) (table : OptionTable) : Process :=
  ⟨settings, ⟨table, fun _ => none⟩⟩

def store (writes : List (String × String)) (p : Process) : Process :=
  writes.foldl (fun p w => Model.updateOption w.1 w.2 p) p

def insertAll (writes : List (String × String)) (t : OptionTable) : OptionTable :=
  writes.foldl (fun t w => t.insert w.1 w.2) t

theorem store_append (ws ws' : List (String × String)) (p : Process) :
    store (ws ++ ws') p = store ws' (store ws p) := List.foldl_append

theorem updateOption_inOrder {key : String} (hkey : key ≠ "") (value : String) (s : Settings)
    (t : OptionTable) : Model.updateOption key value (inOrder s t)
      = inOrder (updateOptionMap key value s) (t.insert key value) := by
  obtain ⟨-, htable, hup⟩ := OptionStore.run_up (storeOption key value)
    (s := (inOrder s t).options) fun _ => rfl
  have hstore : ((storeOption key value).run OptionStore.exec (inOrder s t).options).2
      = ⟨t.insert key value, fun _ => none⟩ := by
    generalize ((storeOption key value).run OptionStore.exec (inOrder s t).options).2 = store
      at htable hup
    obtain ⟨table, outages⟩ := store
    obtain rfl : table = _ := htable.trans (run_storeOption hkey value t)
    obtain rfl : outages = fun _ => none := funext hup
    rfl
  unfold Model.updateOption
  rw [hstore]
  rfl

theorem store_inOrder {ws : List (String × String)} (hws : ∀ w ∈ ws, w.1 ≠ "") (s : Settings)
    (t : OptionTable) : ∃ s', (ws = [] → s' = s) ∧
      store ws (inOrder s t) = inOrder s' (insertAll ws t) := by
  induction ws generalizing s t with
  | nil => exact ⟨s, fun _ => rfl, rfl⟩
  | cons w ws ih =>
    obtain ⟨s', -, hs'⟩ := ih (fun w hw => hws w (List.mem_cons_of_mem _ hw))
      (updateOptionMap w.1 w.2 s) (t.insert w.1 w.2)
    refine ⟨s', nofun, ?_⟩
    rw [← updateOption_inOrder (hws w List.mem_cons_self)] at hs'
    exact hs'

/-- The last value that is written to a key counts. -/
theorem lookup_insertAll (ws : List (String × String)) (t : OptionTable) (k : String) :
    (insertAll ws t).lookup k = (ws.reverse.lookup k).or (t.lookup k) := by
  induction ws generalizing t with
  | nil => rfl
  | cons w ws ih =>
    show (insertAll ws (t.insert w.1 w.2)).lookup k = _
    rw [ih, List.reverse_cons, List.lookup_append, Option.or_assoc]
    by_cases hk : k = w.1
    · rw [hk, AList.lookup_insert]
      simp [List.lookup]
    · have hne : (k == w.1) = false := beq_false_of_ne hk
      rw [AList.lookup_insert_ne hk]
      simp [List.lookup, hne]

/-- The keys of `console_setting` that are written. -/
def newKeys : List String :=
  ["console_setting.api_info", "console_setting.announcements", "console_setting.faq",
    "console_setting.uptime_kuma_groups"]

section
variable (lib : GoLibrary)

def apiInfoWrites (v : String) : List (String × String) :=
  if v = "" then []
  else ((unmarshalItems lib v).map fun arr =>
    ("console_setting.api_info", marshalItems (arr.map (List.take 50)))).toList ++ [("ApiInfo", "")]

def announcementsWrites (v : String) : List (String × String) :=
  if v = "" then [] else [("console_setting.announcements", v), ("Announcements", "")]

def faqWrites (v : String) : List (String × String) :=
  if v = "" then []
  else ((unmarshalItems lib v).map fun arr =>
    ("console_setting.faq",
      marshalItems (some ((convertFAQ (arr.getD [])).take 50)))).toList ++ [("FAQ", "")]

def uptimeWrites (url slug : String) : List (String × String) :=
  (if url ≠ "" ∧ slug ≠ "" then
    [("console_setting.uptime_kuma_groups", marshalItems (some [uptimeGroup url slug]))] else [])
  ++ (if url ≠ "" then [("UptimeKumaUrl", "")] else [])
  ++ (if slug ≠ "" then [("UptimeKumaSlug", "")] else [])

/-- Everything that a migration writes, in order. -/
def writes (v : String → String) : List (String × String) :=
  apiInfoWrites lib (v "ApiInfo") ++ announcementsWrites (v "Announcements")
    ++ faqWrites lib (v "FAQ") ++ uptimeWrites (v "UptimeKumaUrl") (v "UptimeKumaSlug")

theorem migrateApiInfo_eq (v : String) (p : Process) :
    migrateApiInfo lib v p = store (apiInfoWrites lib v) p := by
  unfold migrateApiInfo apiInfoWrites
  split
  · rfl
  · cases unmarshalItems lib v <;> rfl

theorem migrateAnnouncements_eq (v : String) (p : Process) :
    migrateAnnouncements v p = store (announcementsWrites v) p := by
  unfold migrateAnnouncements announcementsWrites
  split <;> rfl

theorem migrateFAQ_eq (v : String) (p : Process) :
    migrateFAQ lib v p = store (faqWrites lib v) p := by
  unfold migrateFAQ faqWrites
  split
  · rfl
  · cases unmarshalItems lib v <;> rfl

theorem migrateUptimeKuma_eq (url slug : String) (p : Process) :
    migrateUptimeKuma url slug p = store (uptimeWrites url slug) p := by
  unfold migrateUptimeKuma uptimeWrites
  rw [store_append, store_append]
  split <;> split <;> split <;> rfl

theorem writes_keys (v : String → String) : ∀ w ∈ writes lib v, w.1 ≠ "" := by
  intro w hw
  have hkey : w.1 ∈ newKeys ++ oldKeys := by
    unfold writes apiInfoWrites announcementsWrites faqWrites uptimeWrites at hw
    simp only [List.mem_append] at hw
    rcases hw with ((hw | hw) | hw) | (hw | hw) | hw
    · split at hw
      · exact nomatch hw
      · cases hun : unmarshalItems lib (v "ApiInfo") <;> simp [hun] at hw
        · simp [hw, newKeys, oldKeys]
        · rcases hw with rfl | rfl <;> simp [newKeys, oldKeys]
    · split at hw
      · exact nomatch hw
      · simp at hw
        rcases hw with rfl | rfl <;> simp [newKeys, oldKeys]
    · split at hw
      · exact nomatch hw
      · cases hun : unmarshalItems lib (v "FAQ") <;> simp [hun] at hw
        · simp [hw, newKeys, oldKeys]
        · rcases hw with rfl | rfl <;> simp [newKeys, oldKeys]
    all_goals
      split at hw
      · rw [List.mem_singleton.mp hw]
        simp [newKeys, oldKeys]
      · exact nomatch hw
  have hall : ∀ k ∈ newKeys ++ oldKeys, k ≠ "" := by decide
  exact hall _ hkey

/-! ### The table afterwards -/

/-- `valMap[key]`. -/
def value (t : OptionTable) (key : String) : String := (t.lookup key).getD ""

theorem valMap_entries (t : OptionTable) : valMap t.entries = value t := by
  funext key
  have hread : replay (fun k v (valMap : String → String) => Function.update valMap k v) t.entries
      (fun _ => "") key = ((t.entries.dlookup key).map id).getD "" :=
    replay_read (fun valMap : String → String => valMap key) id
      (fun v m => Function.update_self key v m)
      (fun k' v m hk => Function.update_of_ne (Ne.symm hk) v m) t.nodupKeys _
  rw [Option.map_id] at hread
  exact hread

def eraseAll (keys : List String) (t : OptionTable) : OptionTable :=
  keys.foldl (fun t key => t.erase key) t

theorem lookup_eraseAll (keys : List String) (t : OptionTable) (k : String) :
    (eraseAll keys t).lookup k = if k ∈ keys then none else t.lookup k := by
  induction keys generalizing t with
  | nil => rfl
  | cons key keys ih =>
    show (eraseAll keys (t.erase key)).lookup k = _
    rw [ih]
    by_cases hk : k ∈ keys
    · rw [if_pos hk, if_pos (List.mem_cons_of_mem _ hk)]
    · by_cases hhead : k = key
      · rw [if_neg hk, hhead, if_pos List.mem_cons_self, AList.lookup_erase]
      · have hnot : k ∉ key :: keys := fun h => (List.mem_cons.mp h).elim hhead hk
        rw [if_neg hk, if_neg hnot, AList.lookup_erase_ne hhead]

/-- **The table after a migration.** -/
def migrated (t : OptionTable) : OptionTable :=
  eraseAll oldKeys (insertAll (writes lib (value t)) t)

theorem migrate_inOrder (s : Settings) (t : OptionTable) :
    ∃ s', (writes lib (value t) = [] → s' = s) ∧
      (migrateConsoleSetting lib (inOrder s t)).2
        = initOptionMap (inOrder s' (migrated lib t)) := by
  have hexec : (inOrder s t).options.exec .all = (.ok t.entries, ⟨t, fun _ => none⟩) := rfl
  obtain ⟨s', hsame, hs'⟩ := store_inOrder (writes_keys lib (value t)) s t
  refine ⟨s', hsame, ?_⟩
  unfold migrateConsoleSetting
  rw [performOption, Prog.run_perform]
  dsimp only
  rw [hexec]
  dsimp only
  rw [valMap_entries, migrateApiInfo_eq, migrateAnnouncements_eq, migrateFAQ_eq,
    migrateUptimeKuma_eq, ← store_append, ← store_append, ← store_append, ← List.append_assoc,
    ← List.append_assoc]
  show initOptionMap ⟨(store (writes lib (value t)) (inOrder s t)).settings,
    deleteOptions oldKeys (store (writes lib (value t)) (inOrder s t)).options⟩ = _
  rw [hs']
  rfl

theorem lookup_migrated_old (t : OptionTable) {k : String} (hk : k ∈ oldKeys) :
    (migrated lib t).lookup k = none := by
  rw [migrated, lookup_eraseAll, if_pos hk]

theorem lookup_apiInfoWrites (v : String) {k : String} (hk : k ≠ "ApiInfo") :
    (apiInfoWrites lib v).reverse.lookup k
      = if k = "console_setting.api_info" ∧ v ≠ "" then
          (unmarshalItems lib v).map fun arr => marshalItems (arr.map (List.take 50))
        else none := by
  unfold apiInfoWrites
  by_cases hv : v = ""
  · simp [hv]
  · by_cases hnew : k = "console_setting.api_info" <;> cases unmarshalItems lib v <;>
      simp [hv, hk, hnew, List.lookup_cons, beq_false_of_ne]

theorem lookup_announcementsWrites (v : String) {k : String} (hk : k ≠ "Announcements") :
    (announcementsWrites v).reverse.lookup k
      = if k = "console_setting.announcements" ∧ v ≠ "" then some v else none := by
  unfold announcementsWrites
  by_cases hv : v = ""
  · simp [hv]
  · by_cases hnew : k = "console_setting.announcements" <;>
      simp [hv, hk, hnew, List.lookup_cons, beq_false_of_ne]

theorem lookup_faqWrites (v : String) {k : String} (hk : k ≠ "FAQ") :
    (faqWrites lib v).reverse.lookup k
      = if k = "console_setting.faq" ∧ v ≠ "" then
          (unmarshalItems lib v).map fun arr =>
            marshalItems (some ((convertFAQ (arr.getD [])).take 50))
        else none := by
  unfold faqWrites
  by_cases hv : v = ""
  · simp [hv]
  · by_cases hnew : k = "console_setting.faq" <;> cases unmarshalItems lib v <;>
      simp [hv, hk, hnew, List.lookup_cons, beq_false_of_ne]

theorem lookup_uptimeWrites (url slug : String) {k : String} (hurl : k ≠ "UptimeKumaUrl")
    (hslug : k ≠ "UptimeKumaSlug") : (uptimeWrites url slug).reverse.lookup k
      = if k = "console_setting.uptime_kuma_groups" ∧ url ≠ "" ∧ slug ≠ "" then
          some (marshalItems (some [uptimeGroup url slug]))
        else none := by
  unfold uptimeWrites
  by_cases hu : url = "" <;> by_cases hs : slug = "" <;>
    by_cases hnew : k = "console_setting.uptime_kuma_groups" <;>
      simp [hu, hs, hurl, hslug, hnew, List.lookup_cons, beq_false_of_ne]

theorem lookup_migrated (t : OptionTable) {k : String} (hk : k ∉ oldKeys) :
    (migrated lib t).lookup k
      = (((uptimeWrites (value t "UptimeKumaUrl") (value t "UptimeKumaSlug")).reverse.lookup k).or
        (((faqWrites lib (value t "FAQ")).reverse.lookup k).or
          (((announcementsWrites (value t "Announcements")).reverse.lookup k).or
            ((apiInfoWrites lib (value t "ApiInfo")).reverse.lookup k)))).or (t.lookup k) := by
  rw [migrated, lookup_eraseAll, if_neg hk, lookup_insertAll, writes]
  simp only [List.reverse_append, List.lookup_append]

theorem lookup_migrated_apiInfo (t : OptionTable) :
    (migrated lib t).lookup "console_setting.api_info"
      = (if value t "ApiInfo" ≠ "" then
          (unmarshalItems lib (value t "ApiInfo")).map fun arr =>
            marshalItems (arr.map (List.take 50))
        else none).or (t.lookup "console_setting.api_info") := by
  rw [lookup_migrated lib t (by decide), lookup_uptimeWrites _ _ (by decide) (by decide),
    lookup_faqWrites lib _ (by decide), lookup_announcementsWrites _ (by decide),
    lookup_apiInfoWrites lib _ (by decide)]
  simp

theorem lookup_migrated_announcements (t : OptionTable) :
    (migrated lib t).lookup "console_setting.announcements"
      = (if value t "Announcements" ≠ "" then some (value t "Announcements") else none).or
          (t.lookup "console_setting.announcements") := by
  rw [lookup_migrated lib t (by decide), lookup_uptimeWrites _ _ (by decide) (by decide),
    lookup_faqWrites lib _ (by decide), lookup_announcementsWrites _ (by decide),
    lookup_apiInfoWrites lib _ (by decide)]
  simp

theorem lookup_migrated_faq (t : OptionTable) :
    (migrated lib t).lookup "console_setting.faq"
      = (if value t "FAQ" ≠ "" then
          (unmarshalItems lib (value t "FAQ")).map fun arr =>
            marshalItems (some ((convertFAQ (arr.getD [])).take 50))
        else none).or (t.lookup "console_setting.faq") := by
  rw [lookup_migrated lib t (by decide), lookup_uptimeWrites _ _ (by decide) (by decide),
    lookup_faqWrites lib _ (by decide), lookup_announcementsWrites _ (by decide),
    lookup_apiInfoWrites lib _ (by decide)]
  simp

theorem lookup_migrated_uptime (t : OptionTable) :
    (migrated lib t).lookup "console_setting.uptime_kuma_groups"
      = (if value t "UptimeKumaUrl" ≠ "" ∧ value t "UptimeKumaSlug" ≠ "" then
          some (marshalItems (some [uptimeGroup (value t "UptimeKumaUrl")
            (value t "UptimeKumaSlug")]))
        else none).or (t.lookup "console_setting.uptime_kuma_groups") := by
  rw [lookup_migrated lib t (by decide), lookup_uptimeWrites _ _ (by decide) (by decide),
    lookup_faqWrites lib _ (by decide), lookup_announcementsWrites _ (by decide),
    lookup_apiInfoWrites lib _ (by decide)]
  simp

theorem lookup_migrated_other (t : OptionTable) {k : String} (hold : k ∉ oldKeys)
    (hnew : k ∉ newKeys) : (migrated lib t).lookup k = t.lookup k := by
  simp only [oldKeys, newKeys, List.mem_cons, List.not_mem_nil, or_false, not_or] at hold hnew
  obtain ⟨h₁, h₂, h₃, h₄, h₅⟩ := hold
  obtain ⟨h₆, h₇, h₈, h₉⟩ := hnew
  rw [lookup_migrated lib t (by simp [oldKeys, *]), lookup_uptimeWrites _ _ h₄ h₅,
    lookup_faqWrites lib _ h₃, lookup_announcementsWrites _ h₂, lookup_apiInfoWrites lib _ h₁]
  simp [h₆, h₇, h₈, h₉]

/-! ### What is read back -/

/-- An item that decoding has made, and that stands in an array. -/
structure Decoded (item : ConsoleItem) : Prop where
  plain : item.toTree.Plain lib
  nesting : item.toTree.nesting < JsonTree.maxNestingDepth

variable {lib}

theorem Decoded.consoleItem {item : ConsoleItem} (h : Decoded lib item) :
    consoleItem lib item.toTree = some item := by
  cases item with
  | none => rfl
  | some members =>
    have hfixed : JsonTree.plain lib (.obj members) = some (.obj members) := h.plain.fixed
    rw [JsonTree.plain] at hfixed
    obtain ⟨ms, hms, hobj⟩ := Option.map_eq_some_iff.mp hfixed
    have hsorted : JsonTree.sortMembers ms = members := JsonTree.obj.inj hobj
    show (JsonTree.plainMembers lib members).map (fun ms => some (JsonTree.sortMembers ms)) = _
    rw [hms, Option.map_some, hsorted]

theorem convertAll_map_fixed {α β : Type} {f : α → Option β} {g : β → α} {l : List β}
    (h : ∀ b ∈ l, f (g b) = some b) : convertAll f (l.map g) = some l := by
  induction l with
  | nil => rfl
  | cons b l ih =>
    have hhead := h b List.mem_cons_self
    have htail := ih fun b hb => h b (List.mem_cons_of_mem _ hb)
    rw [List.map_cons, convertAll, hhead, htail]

/-- **An array of decoded items is read back as it was written.** -/
theorem unmarshal_marshal {items : List ConsoleItem} (h : ∀ item ∈ items, Decoded lib item) :
    unmarshalItems lib (marshalItems (some items)) = some (some items) := by
  have hliteral : (JsonTree.arr (items.map ConsoleItem.toTree)).Literal := by
    rw [JsonTree.Literal, JsonTree.literalItems_iff]
    intro t ht
    obtain ⟨item, hitem, rfl⟩ := List.mem_map.mp ht
    exact (h item hitem).plain.literal
  have hnesting : (JsonTree.arr (items.map ConsoleItem.toTree)).nesting
      ≤ JsonTree.maxNestingDepth := by
    have hitems : JsonTree.nestingItems (items.map ConsoleItem.toTree)
        ≤ JsonTree.maxNestingDepth - 1 := by
      rw [JsonTree.nestingItems_le]
      intro t ht
      obtain ⟨item, hitem, rfl⟩ := List.mem_map.mp ht
      have hlt := (h item hitem).nesting
      omega
    have hmax : 1 ≤ JsonTree.maxNestingDepth := by decide
    rw [JsonTree.nesting]
    omega
  unfold marshalItems unmarshalItems
  dsimp only
  rw [JsonTree.document_toText hliteral hnesting]
  dsimp only
  rw [convertAll_map_fixed fun item hitem => (h item hitem).consoleItem]
  rfl

theorem unmarshal_marshal_nil : unmarshalItems lib (marshalItems none) = some none := by
  unfold marshalItems unmarshalItems
  dsimp only
  rw [JsonTree.document_toText (by trivial) (Nat.zero_le _)]

/-- What an array is decoded to. -/
theorem decoded_of_unmarshal (hlib : lib.Lawful) {text : String} {items : List ConsoleItem}
    (h : unmarshalItems lib text = some (some items)) : ∀ item ∈ items, Decoded lib item := by
  unfold unmarshalItems at h
  split at h
  · cases h
  · rename_i trees hdocument
    obtain ⟨items', hitems, he⟩ := Option.map_eq_some_iff.mp h
    obtain rfl := Option.some.inj he
    have hnesting := JsonTree.nesting_of_document hdocument
    rw [JsonTree.nesting] at hnesting
    intro item hitem
    obtain ⟨t, ht, htitem⟩ := convertAll_mem hitems hitem
    have hle := JsonTree.nestingItems_le.mp (le_refl _) t ht
    cases t with
    | null =>
      obtain rfl := Option.some.inj htitem
      exact ⟨⟨rfl, trivial⟩, by decide⟩
    | obj members =>
      obtain ⟨ms, hms, rfl⟩ := Option.map_eq_some_iff.mp htitem
      have hplain : JsonTree.plain lib (.obj members) = some (.obj (JsonTree.sortMembers ms)) := by
        rw [JsonTree.plain, hms, Option.map_some]
      obtain ⟨hplain, hshallow⟩ := JsonTree.plain_plain hlib _ _ hplain
      exact ⟨hplain, by
        show JsonTree.nesting (.obj (JsonTree.sortMembers ms)) < _
        omega⟩
    | bool b => cases htitem
    | num literal => cases htitem
    | str s => cases htitem
    | arr items => cases htitem
  · cases h

/-- The first items of a decoded array are read back. -/
theorem unmarshal_take (hlib : lib.Lawful) {text : String} {arr : Option (List ConsoleItem)}
    (h : unmarshalItems lib text = some arr) (n : Nat) :
    unmarshalItems lib (marshalItems (arr.map (List.take n))) = some (arr.map (List.take n)) := by
  cases arr with
  | none => exact unmarshal_marshal_nil
  | some items =>
    exact unmarshal_marshal fun item hitem =>
      decoded_of_unmarshal hlib h item (List.mem_of_mem_take hitem)

/-! ### Questions and answers -/

/-- Whether an item has a member. -/
def filled (item : ConsoleItem) : Bool := !(item.getD []).isEmpty

/-- **The questions and answers of an array**: those of every item that is not empty. -/
def said (arr : Option (List ConsoleItem)) : List (String × String) :=
  ((arr.getD []).filter filled).map fun item => (item.question, item.answer)

/-- The item of a question and its answer. -/
def asItem (p : String × String) : ConsoleItem :=
  some [("answer", .str p.2), ("question", .str p.1)]

theorem asItem_question (p : String × String) :
    ((asItem p).question, (asItem p).answer) = p := by
  have htexts : (asItem p).text "question" = p.1 ∧ (asItem p).text "answer" = p.2 ∧
      (asItem p).text "title" = "" ∧ (asItem p).text "content" = "" := ⟨rfl, rfl, rfl, rfl⟩
  unfold ConsoleItem.question ConsoleItem.answer
  rw [htexts.1, htexts.2.1, htexts.2.2.1, htexts.2.2.2]
  refine Prod.ext ?_ ?_
  · show (if p.1 = "" then "" else p.1) = p.1
    split <;> simp [*]
  · show (if p.2 = "" then "" else p.2) = p.2
    split <;> simp [*]

theorem decoded_asItem (p : String × String) : Decoded lib (asItem p) := by
  have hsorted : [("answer", JsonTree.str p.2), ("question", JsonTree.str p.1)].Pairwise
      fun a b => a.1 < b.1 := by
    rw [List.pairwise_pair]
    show "answer" < "question"
    decide
  have hsame : JsonTree.sortMembers [("answer", JsonTree.str p.2), ("question", JsonTree.str p.1)]
      = [("answer", JsonTree.str p.2), ("question", JsonTree.str p.1)] :=
    congrArg SortedMap.entries (SortedMap.insertAll_entries ⟨_, hsorted⟩)
  refine ⟨?_, show 1 < JsonTree.maxNestingDepth by decide⟩
  show JsonTree.Plain lib (.obj [("answer", .str p.2), ("question", .str p.1)])
  rw [← hsame]
  refine JsonTree.plain_sortMembers fun m hm => ?_
  simp only [List.mem_cons, List.not_mem_nil, or_false] at hm
  rcases hm with rfl | rfl <;> exact ⟨rfl, trivial⟩

/-- Whether both are there. -/
def complete (p : String × String) : Bool := p.1 != "" && p.2 != ""

/-- An empty item has no question. -/
theorem question_of_empty {item : ConsoleItem} (h : filled item = false) : item.question = "" := by
  cases item with
  | none => rfl
  | some members =>
    cases members with
    | nil => rfl
    | cons m members => cases h

theorem convertFAQ_eq (items : List ConsoleItem) :
    convertFAQ items = ((said (some items)).filter complete).map asItem := by
  induction items with
  | nil => rfl
  | cons item items ih =>
    have hconvert : convertFAQ (item :: items) = (if complete (item.question, item.answer) then
        [asItem (item.question, item.answer)] else []) ++ convertFAQ items := by
      unfold convertFAQ
      rw [List.filterMap_cons]
      by_cases hboth : item.question ≠ "" ∧ item.answer ≠ ""
      · simp [complete, asItem, hboth.1, hboth.2]
      · have hnot : complete (item.question, item.answer) = false := by
          simp only [complete, Bool.and_eq_false_iff, bne_eq_false_iff_eq]
          tauto
        rw [if_neg hboth, hnot]
        rfl
    have hsaid : said (some (item :: items)) = (if filled item then
        [(item.question, item.answer)] else []) ++ said (some items) := by
      unfold said
      rw [Option.getD_some, List.filter_cons]
      split <;> rfl
    rw [hconvert, hsaid, ih, List.filter_append, List.map_append]
    congr 1
    by_cases hfilled : filled item = true
    · rw [if_pos hfilled, List.filter_cons, List.filter_nil]
      split <;> rfl
    · rw [Bool.not_eq_true] at hfilled
      have hnot : complete (item.question, item.answer) = false := by
        rw [complete, question_of_empty hfilled]
        rfl
      rw [hfilled, hnot]
      rfl

/-- What a migrated array says: the questions that have an answer, fifty at most. -/
theorem said_convertFAQ (items : List ConsoleItem) (n : Nat) :
    said (some ((convertFAQ items).take n)) = ((said (some items)).filter complete).take n := by
  rw [convertFAQ_eq, ← List.map_take]
  generalize ((said (some items)).filter complete).take n = ps
  have hfilled : (ps.map asItem).filter filled = ps.map asItem := by
    rw [List.filter_eq_self]
    intro item hitem
    obtain ⟨p, -, rfl⟩ := List.mem_map.mp hitem
    rfl
  unfold said
  rw [Option.getD_some, hfilled, List.map_map]
  exact (List.map_congr_left fun p _ => asItem_question p).trans (List.map_id ps)

end

/-! ### A second reload -/

/-- The settings after `InitOptionMap` over a table in order. -/
def reloaded (rows : List (Σ _ : String, String)) (s : Settings) : Settings :=
  replay updateOptionMap rows (freshOptionMap s)

theorem initOptionMap_inOrder (s : Settings) (t : OptionTable) :
    initOptionMap (inOrder s t) = inOrder (reloaded t.entries s) t := rfl

section
variable {rows : List (Σ _ : String, String)} (hnodup : rows.NodupKeys) (s : Settings)
include hnodup

/-- A setting of its own key has its row's value, or stays; a second reload finds it so. -/
theorem reloaded_get {A : Type} {k : String} (get : Settings → A) (parse : String → A)
    (hself : ∀ v s, get (updateOptionMap k v s) = parse v)
    (hother : ∀ k' v s, k' ≠ k → get (updateOptionMap k' v s) = get s)
    (hfresh : ∀ s, get (freshOptionMap s) = get s) :
    get (reloaded rows (reloaded rows s)) = get (reloaded rows s) ∧
      (rows.dlookup k = none → get (reloaded rows s) = get s) := by
  have hread : ∀ s, get (reloaded rows s) = ((rows.dlookup k).map parse).getD (get s) := by
    intro s
    rw [← hfresh s]
    exact replay_read get parse hself hother hnodup (freshOptionMap s)
  refine ⟨?_, fun hnone => ?_⟩
  · rw [hread (reloaded rows s), hread s]
    cases rows.dlookup k <;> rfl
  · rw [hread s, hnone]
    rfl

theorem reloaded_flag (f : Flag) :
    (reloaded rows (reloaded rows s)).flags f = (reloaded rows s).flags f ∧
      (rows.dlookup f.key = none → (reloaded rows s).flags f = s.flags f) := by
  refine reloaded_get hnodup s (fun s => s.flags f) (fun v => v == "true") ?_ ?_ fun _ => rfl
  · intro v s
    rw [updateOptionMap_flag, if_pos rfl]
  · intro k v s hk
    rw [updateOptionMap_flag, if_neg hk]

theorem reloaded_text (t : Text) :
    (reloaded rows (reloaded rows s)).texts t = (reloaded rows s).texts t ∧
      (rows.dlookup t.key = none → (reloaded rows s).texts t = s.texts t) := by
  refine reloaded_get hnodup s (fun s => s.texts t) id ?_ ?_ fun _ => rfl
  · intro v s
    rw [updateOptionMap_text, if_pos rfl]
    rfl
  · intro k v s hk
    rw [updateOptionMap_text, if_neg hk]

theorem reloaded_number (n : Number) :
    (reloaded rows (reloaded rows s)).numbers n = (reloaded rows s).numbers n ∧
      (rows.dlookup n.key = none → (reloaded rows s).numbers n = s.numbers n) := by
  refine reloaded_get hnodup s (fun s => s.numbers n) (fun v => (GoString.atoi v).1) ?_ ?_
    fun _ => rfl
  · exact fun v s => updateOptionMap_number v s n
  · intro k v s hk
    rw [updateOptionMap_numbers, select]
    cases hkey : (Assigned.ofKey k).bind Assigned.number? with
    | none => rfl
    | some n' =>
      refine Function.update_of_ne ?_ _ _
      rintro rfl
      obtain ⟨a, ha, han⟩ := Option.bind_eq_some_iff.mp hkey
      obtain rfl := Assigned.number?_eq_some han
      exact hk (Assigned.ofKey_eq_some ha)

theorem reloaded_whitelist :
    (reloaded rows (reloaded rows s)).emailDomainWhitelist
        = (reloaded rows s).emailDomainWhitelist ∧
      (rows.dlookup Assigned.emailDomainWhitelist.key = none →
        (reloaded rows s).emailDomainWhitelist = s.emailDomainWhitelist) := by
  refine reloaded_get hnodup s Settings.emailDomainWhitelist (GoString.split ',') ?_ ?_ fun _ => rfl
  · intro v s
    rw [updateOptionMap_emailDomainWhitelist, if_pos rfl]
  · intro k v s hk
    rw [updateOptionMap_emailDomainWhitelist, if_neg hk]

/-- What `InitOptionMap` formats anew under a key that no row has. -/
theorem initialOptions_reloaded {k : String} (hk : rows.dlookup k = none) :
    (initialOptions (reloaded rows s)).lookup k = (initialOptions s).lookup k := by
  have hlookup : ∀ {l l' : List (String × String)},
      List.Forall₂ (fun a b => a.1 = b.1 ∧ (a.1 = k → a.2 = b.2)) l l' →
        l.lookup k = l'.lookup k := by
    intro l l' h
    induction h with
    | nil => rfl
    | @cons a b l l' hab _ ih =>
      obtain ⟨key, value⟩ := a
      obtain ⟨key', value'⟩ := b
      obtain ⟨rfl, hvalue⟩ := hab
      rw [List.lookup_cons, List.lookup_cons, ih]
      by_cases hkey : k = key
      · have hsame : value = value' := hvalue hkey.symm
        rw [hsame]
      · rw [beq_false_of_ne hkey]
  have hflag : ∀ f : Flag, f.key = k → (if (reloaded rows s).flags f then "true" else "false")
      = if s.flags f then "true" else "false" := by
    rintro f rfl
    rw [(reloaded_flag hnodup s f).2 hk]
  have hnumber : ∀ n : Number, n.key = k →
      toString ((reloaded rows s).numbers n) = toString (s.numbers n) := by
    rintro n rfl
    rw [(reloaded_number hnodup s n).2 hk]
  have htext : ∀ t : Text, t.key = k → (reloaded rows s).texts t = s.texts t := by
    rintro t rfl
    exact (reloaded_text hnodup s t).2 hk
  have hwhitelist : "EmailDomainWhitelist" = k →
      ",".intercalate (reloaded rows s).emailDomainWhitelist
        = ",".intercalate s.emailDomainWhitelist := by
    rintro rfl
    rw [(reloaded_whitelist hnodup s).2 hk]
  refine hlookup ?_
  unfold initialOptions
  dsimp only
  repeat' apply List.Forall₂.cons
  all_goals first
    | exact .nil
    | refine ⟨rfl, ?_⟩
      dsimp only
      first
        | exact fun _ => rfl
        | exact hflag _
        | exact hnumber _
        | exact htext .footer
        | exact htext .systemName
        | exact htext .logo
        | exact hwhitelist

/-- **A second reload changes no setting.** -/
theorem reloaded_again : reloaded rows (reloaded rows s) = reloaded rows s := by
  have hkeep : ∀ s : Settings, (reloaded rows s).selfUseModeEnabled = s.selfUseModeEnabled ∧
      (reloaded rows s).demoSiteEnabled = s.demoSiteEnabled ∧
      (reloaded rows s).modules = s.modules := by
    intro s
    refine replay_keeps (P := fun s' : Settings => s'.selfUseModeEnabled = s.selfUseModeEnabled ∧
      s'.demoSiteEnabled = s.demoSiteEnabled ∧ s'.modules = s.modules) rows ?_ ⟨rfl, rfl, rfl⟩
    intro r _ s' hs'
    rw [(updateOptionMap_modes _ _ _).1, (updateOptionMap_modes _ _ _).2, updateOptionMap_modules]
    exact hs'
  ext1
  · funext f
    exact (reloaded_flag hnodup s f).1
  · funext t
    exact (reloaded_text hnodup s t).1
  · funext n
    exact (reloaded_number hnodup s n).1
  · exact (reloaded_whitelist hnodup s).1
  · exact (hkeep _).1
  · exact (hkeep _).2.1
  · exact (hkeep _).2.2
  · funext k
    have hread : ∀ s : Settings, (reloaded rows s).optionMap k
        = ((rows.dlookup k).map some).getD ((initialOptions s).lookup k) := by
      intro s
      refine replay_read (fun s : Settings => s.optionMap k) some ?_ ?_ hnodup (freshOptionMap s)
      · intro v s
        rw [updateOptionMap_optionMap]
        exact Function.update_self k _ _
      · intro k' v s hk
        rw [updateOptionMap_optionMap]
        exact Function.update_of_ne (Ne.symm hk) _ _
    rw [hread, hread]
    cases hrow : rows.dlookup k with
    | some v => rfl
    | none => exact initialOptions_reloaded hnodup s hrow

end

/-! ### What is lost -/

/-- **What becomes of an old value**: the new key has its content and the old key
is gone; a value that has no content of the kind stays where it is. -/
def Moves {C : Type} (content : String → Option C) (old new : String) (t t' : OptionTable) : Prop :=
  if value t old = "" then t'.lookup new = t.lookup new
  else match content (value t old) with
    | some c => t'.lookup old = none ∧ ∃ text, t'.lookup new = some text ∧ content text = some c
    | none => t'.lookup old = some (value t old)

/-- The URL and the slug of every group. -/
def groups (text : String) : Option (List (String × String)) :=
  match JsonTree.document text with
  | some (.arr trees) => convertAll (fun
      | .obj members =>
        match members.lookup "url", members.lookup "slug" with
        | some (.str url), some (.str slug) => some (url, slug)
        | _, _ => none
      | _ => none) trees
  | _ => none

/-- The same for the two keys that become one. -/
def MovesUptime (t t' : OptionTable) : Prop :=
  if value t "UptimeKumaUrl" ≠ "" ∧ value t "UptimeKumaSlug" ≠ "" then
    t'.lookup "UptimeKumaUrl" = none ∧ t'.lookup "UptimeKumaSlug" = none ∧
      ∃ text, t'.lookup "console_setting.uptime_kuma_groups" = some text ∧
        groups text = some [(value t "UptimeKumaUrl", value t "UptimeKumaSlug")]
  else
    t'.lookup "console_setting.uptime_kuma_groups"
        = t.lookup "console_setting.uptime_kuma_groups" ∧
      (value t "UptimeKumaUrl" ≠ "" →
        t'.lookup "UptimeKumaUrl" = some (value t "UptimeKumaUrl")) ∧
      (value t "UptimeKumaSlug" ≠ "" →
        t'.lookup "UptimeKumaSlug" = some (value t "UptimeKumaSlug"))

/-- **The migration from `t` to `t'` loses nothing.** -/
structure LosesNothing (lib : GoLibrary) (t t' : OptionTable) : Prop where
  apiInfo : Moves (unmarshalItems lib) "ApiInfo" "console_setting.api_info" t t'
  announcements : Moves some "Announcements" "console_setting.announcements" t t'
  faq : Moves (fun text => (unmarshalItems lib text).map said) "FAQ" "console_setting.faq" t t'
  uptime : MovesUptime t t'
  others : ∀ k, k ∉ oldKeys → k ∉ newKeys → t'.lookup k = t.lookup k

/-- The old values that the migration can carry over whole. -/
structure Convertible (lib : GoLibrary) (t : OptionTable) : Prop where
  apiInfo : value t "ApiInfo" = "" ∨ ∃ arr, unmarshalItems lib (value t "ApiInfo") = some arr ∧
    (arr.getD []).length ≤ 50
  faq : value t "FAQ" = "" ∨ ∃ arr, unmarshalItems lib (value t "FAQ") = some arr ∧
    (said arr).length ≤ 50 ∧ ∀ p ∈ said arr, complete p = true
  uptime : value t "UptimeKumaUrl" = "" ↔ value t "UptimeKumaSlug" = ""

section
variable {lib : GoLibrary}

section
variable {C : Type} {content : String → Option C} {old new : String} {t : OptionTable}

theorem moves_of_empty (hv : value t old = "")
    (h : (migrated lib t).lookup new = t.lookup new) :
    Moves content old new t (migrated lib t) := by
  unfold Moves
  rw [if_pos hv]
  exact h

/-- A value without content is gone with its key. -/
theorem not_moves (hold : old ∈ oldKeys) (hv : value t old ≠ "")
    (h : content (value t old) = none) : ¬ Moves content old new t (migrated lib t) := by
  unfold Moves
  rw [if_neg hv, h, lookup_migrated_old lib t hold]
  exact nofun

/-- What is stored has to have the content that was there. -/
theorem moves_iff (hold : old ∈ oldKeys) (hv : value t old ≠ "") {c c' : C} {text : String}
    (hc : content (value t old) = some c) (htext : (migrated lib t).lookup new = some text)
    (hc' : content text = some c') : Moves content old new t (migrated lib t) ↔ c' = c := by
  unfold Moves
  rw [if_neg hv, hc, lookup_migrated_old lib t hold, htext]
  dsimp only
  constructor
  · rintro ⟨-, text', he, hread⟩
    obtain rfl := Option.some.inj he
    exact Option.some.inj (hc'.symm.trans hread)
  · rintro rfl
    exact ⟨rfl, text, rfl, hc'⟩

end

theorem moves_apiInfo (hlib : lib.Lawful) (t : OptionTable) :
    Moves (unmarshalItems lib) "ApiInfo" "console_setting.api_info" t (migrated lib t) ↔
      value t "ApiInfo" = "" ∨ ∃ arr, unmarshalItems lib (value t "ApiInfo") = some arr ∧
        (arr.getD []).length ≤ 50 := by
  have hnew := lookup_migrated_apiInfo lib t
  by_cases hv : value t "ApiInfo" = ""
  · rw [if_neg (not_not.mpr hv), Option.none_or] at hnew
    exact ⟨fun _ => Or.inl hv, fun _ => moves_of_empty hv hnew⟩
  rw [if_pos hv] at hnew
  cases harr : unmarshalItems lib (value t "ApiInfo") with
  | none =>
    have hnot : ¬ Moves (unmarshalItems lib) "ApiInfo" "console_setting.api_info" t
        (migrated lib t) := not_moves (by decide) hv harr
    simp [hnot, hv]
  | some arr =>
    rw [harr, Option.map_some, Option.some_or] at hnew
    rw [moves_iff (by decide) hv harr hnew (unmarshal_take hlib harr 50)]
    cases arr with
    | none => simp
    | some items => simp [hv]

theorem moves_announcements (t : OptionTable) :
    Moves some "Announcements" "console_setting.announcements" t (migrated lib t) := by
  have hnew := lookup_migrated_announcements lib t
  by_cases hv : value t "Announcements" = ""
  · rw [if_neg (not_not.mpr hv), Option.none_or] at hnew
    exact moves_of_empty hv hnew
  · rw [if_pos hv, Option.some_or] at hnew
    exact (moves_iff (by decide) hv rfl hnew rfl).mpr rfl

theorem moves_faq (t : OptionTable) :
    Moves (fun text => (unmarshalItems lib text).map said) "FAQ" "console_setting.faq" t
      (migrated lib t) ↔
      value t "FAQ" = "" ∨ ∃ arr, unmarshalItems lib (value t "FAQ") = some arr ∧
        (said arr).length ≤ 50 ∧ ∀ p ∈ said arr, complete p = true := by
  have hnew := lookup_migrated_faq lib t
  by_cases hv : value t "FAQ" = ""
  · rw [if_neg (not_not.mpr hv), Option.none_or] at hnew
    exact ⟨fun _ => Or.inl hv, fun _ => moves_of_empty hv hnew⟩
  rw [if_pos hv] at hnew
  cases harr : unmarshalItems lib (value t "FAQ") with
  | none =>
    have hnone : (unmarshalItems lib (value t "FAQ")).map said = none := by
      rw [harr, Option.map_none]
    have hnot : ¬ Moves (fun text => (unmarshalItems lib text).map said) "FAQ"
        "console_setting.faq" t (migrated lib t) := not_moves (by decide) hv hnone
    simp [hnot, hv]
  | some arr =>
    rw [harr, Option.map_some, Option.some_or] at hnew
    have hdecoded : ∀ item ∈ (convertFAQ (arr.getD [])).take 50, Decoded lib item := by
      intro item hitem
      have hmem := List.mem_of_mem_take hitem
      rw [convertFAQ_eq] at hmem
      obtain ⟨p, -, rfl⟩ := List.mem_map.mp hmem
      exact decoded_asItem p
    have hsaid : said (some (arr.getD [])) = said arr := by
      cases arr <;> rfl
    have hread : (unmarshalItems lib
        (marshalItems (some ((convertFAQ (arr.getD [])).take 50)))).map said
        = some (((said arr).filter complete).take 50) := by
      rw [unmarshal_marshal hdecoded, Option.map_some, said_convertFAQ, hsaid]
    have hold : (unmarshalItems lib (value t "FAQ")).map said = some (said arr) := by
      rw [harr, Option.map_some]
    refine Iff.trans (moves_iff (by decide) hv hold hnew hread) ?_
    constructor
    · intro h
      have hlen := congrArg List.length h
      rw [List.length_take] at hlen
      refine Or.inr ⟨arr, rfl, by omega, fun p hp => ?_⟩
      rw [← h] at hp
      exact (List.mem_filter.mp (List.mem_of_mem_take hp)).2
    · rintro (hempty | ⟨arr', he, hlen, hall⟩)
      · exact absurd hempty hv
      · obtain rfl := Option.some.inj he
        rw [List.filter_eq_self.mpr hall, List.take_of_length_le hlen]

theorem groups_uptimeGroup (url slug : String) :
    groups (marshalItems (some [uptimeGroup url slug])) = some [(url, slug)] := by
  have hliteral : (JsonTree.arr [(uptimeGroup url slug).toTree]).Literal := by
    have hone := JsonTree.literal_itoa 1
    refine ⟨?_, trivial⟩
    show JsonTree.LiteralMembers _
    exact ⟨trivial, trivial, hone, trivial, trivial, trivial⟩
  unfold groups marshalItems
  dsimp only
  rw [List.map_cons, List.map_nil, JsonTree.document_toText hliteral
    (show 2 ≤ JsonTree.maxNestingDepth by decide)]
  rfl

theorem moves_uptime (t : OptionTable) : MovesUptime t (migrated lib t) ↔
    (value t "UptimeKumaUrl" = "" ↔ value t "UptimeKumaSlug" = "") := by
  have hnew := lookup_migrated_uptime lib t
  have hurl := lookup_migrated_old lib t (k := "UptimeKumaUrl") (by decide)
  have hslug := lookup_migrated_old lib t (k := "UptimeKumaSlug") (by decide)
  unfold MovesUptime
  rw [hurl, hslug]
  split
  · rename_i hboth
    rw [if_pos hboth, Option.some_or] at hnew
    rw [hnew]
    simp [hboth.1, hboth.2, groups_uptimeGroup]
  · rename_i hboth
    rw [if_neg hboth, Option.none_or] at hnew
    rw [hnew]
    generalize value t "UptimeKumaUrl" = url at hboth
    generalize value t "UptimeKumaSlug" = slug at hboth
    by_cases hu : url = "" <;> by_cases hs : slug = ""
    · simp [hu, hs]
    · simp [hu, hs]
    · simp [hu, hs]
    · exact absurd ⟨hu, hs⟩ hboth

/-- A table without the old keys is left as it is. -/
theorem migrated_of_gone {t : OptionTable} (h : ∀ k ∈ oldKeys, t.lookup k = none) :
    writes lib (value t) = [] ∧ migrated lib t = t := by
  have hempty : ∀ k ∈ oldKeys, value t k = "" := by
    intro k hk
    rw [value, h k hk]
    rfl
  have hwrites : writes lib (value t) = [] := by
    unfold writes apiInfoWrites announcementsWrites faqWrites uptimeWrites
    simp [hempty "ApiInfo" (by decide), hempty "Announcements" (by decide),
      hempty "FAQ" (by decide), hempty "UptimeKumaUrl" (by decide),
      hempty "UptimeKumaSlug" (by decide)]
  have herase : ∀ keys : List String, (∀ k ∈ keys, t.lookup k = none) → eraseAll keys t = t := by
    intro keys hkeys
    induction keys with
    | nil => rfl
    | cons key keys ih =>
      have hnone := AList.lookup_eq_none.mp (hkeys key List.mem_cons_self)
      have hsame : t.erase key = t := AList.ext (List.kerase_of_notMem_keys hnone)
      show eraseAll keys (t.erase key) = t
      rw [hsame]
      exact ih fun k hk => hkeys k (List.mem_cons_of_mem _ hk)
  refine ⟨hwrites, ?_⟩
  rw [migrated, hwrites]
  exact herase oldKeys h

theorem losesNothing_migrated (hlib : lib.Lawful) (t : OptionTable) :
    LosesNothing lib t (migrated lib t) ↔ Convertible lib t := by
  constructor
  · intro h
    exact ⟨(moves_apiInfo hlib t).mp h.apiInfo, (moves_faq t).mp h.faq,
      (moves_uptime t).mp h.uptime⟩
  · intro h
    exact ⟨(moves_apiInfo hlib t).mpr h.apiInfo, moves_announcements t, (moves_faq t).mpr h.faq,
      (moves_uptime t).mpr h.uptime, fun _ => lookup_migrated_other lib t⟩

/-- **A migration loses nothing exactly when it can carry the old values over
whole, and a second one changes nothing**, neither in the table nor in memory. -/
theorem losesNothing_iff (lib : GoLibrary) (hlib : lib.Lawful) (s : Settings) (t : OptionTable) :
    (LosesNothing lib t (migrateConsoleSetting lib (inOrder s t)).2.options.table ↔
        Convertible lib t) ∧
      (migrateConsoleSetting lib (migrateConsoleSetting lib (inOrder s t)).2).2
        = (migrateConsoleSetting lib (inOrder s t)).2 := by
  obtain ⟨s₁, -, hfirst⟩ := migrate_inOrder lib s t
  rw [hfirst, initOptionMap_inOrder]
  refine ⟨losesNothing_migrated hlib t, ?_⟩
  have hgone : ∀ k ∈ oldKeys, (migrated lib t).lookup k = none :=
    fun _ => lookup_migrated_old lib t
  obtain ⟨hwrites, hsame⟩ : writes lib (value (migrated lib t)) = [] ∧ _ := migrated_of_gone hgone
  obtain ⟨s₂, hs₂, hsecond⟩ := migrate_inOrder lib (reloaded (migrated lib t).entries s₁)
    (migrated lib t)
  obtain rfl := hs₂ hwrites
  rw [hsecond, hsame, initOptionMap_inOrder, reloaded_again (migrated lib t).nodupKeys]

end

/-! ### Two tables -/

/-- One value under every old key. -/
def wholeTable : OptionTable :=
  insertAll [("ApiInfo", "[\x7b\"url\":\"https://api.example.com\"\x7d]"),
    ("Announcements", "hello"), ("FAQ", "[\x7b\"title\":\"why\",\"content\":\"because\"\x7d]"),
    ("UptimeKumaUrl", "https://status.example.com"), ("UptimeKumaSlug", "main")] ∅

/-- All of them are carried over. -/
theorem wholeTable_kept : LosesNothing Setting.spellingLibrary wholeTable
    (migrateConsoleSetting Setting.spellingLibrary
      (inOrder Settings.default wholeTable)).2.options.table := by
  refine (losesNothing_iff Setting.spellingLibrary Setting.spellingLibrary_lawful Settings.default
    wholeTable).1.mpr ⟨Or.inr ?_, Or.inr ?_, by decide +kernel⟩
  · have hshort : (unmarshalItems Setting.spellingLibrary (value wholeTable "ApiInfo")).any
        (fun arr => decide ((arr.getD []).length ≤ 50)) = true := by decide +kernel
    obtain ⟨arr, harr, hlen⟩ := (Option.any_eq_true _ _).mp hshort
    exact ⟨arr, harr, of_decide_eq_true hlen⟩
  · have hshort : (unmarshalItems Setting.spellingLibrary (value wholeTable "FAQ")).any
        (fun arr => decide ((said arr).length ≤ 50) && (said arr).all complete) = true := by
      decide +kernel
    obtain ⟨arr, harr, hboth⟩ := (Option.any_eq_true _ _).mp hshort
    rw [Bool.and_eq_true, List.all_eq_true] at hboth
    exact ⟨arr, harr, of_decide_eq_true hboth.1, hboth.2⟩

/-- A value that is no JSON, and a URL without a slug. -/
def partialTable : OptionTable :=
  insertAll [("ApiInfo", "oops"), ("UptimeKumaUrl", "https://status.example.com")] ∅

/-- **Both are erased.** -/
theorem partialTable_lost :
    (migrateConsoleSetting Setting.spellingLibrary
        (inOrder Settings.default partialTable)).2.options.table.entries = [] ∧
      ¬ LosesNothing Setting.spellingLibrary partialTable
        (migrateConsoleSetting Setting.spellingLibrary
          (inOrder Settings.default partialTable)).2.options.table := by
  have hentries : (migrateConsoleSetting Setting.spellingLibrary
      (inOrder Settings.default partialTable)).2.options.table.entries = [] := by decide +kernel
  refine ⟨hentries, fun h => ?_⟩
  have hurl : value partialTable "UptimeKumaUrl" ≠ "" := by decide +kernel
  have hslug : ¬ value partialTable "UptimeKumaSlug" ≠ "" := by decide +kernel
  have hgone : (migrateConsoleSetting Setting.spellingLibrary
      (inOrder Settings.default partialTable)).2.options.table.lookup "UptimeKumaUrl" = none := by
    decide +kernel
  have hkept := h.uptime
  unfold MovesUptime at hkept
  rw [if_neg fun hboth => hslug hboth.2, hgone] at hkept
  exact nomatch hkept.2.1 hurl

end AuthGateway.ConsoleMigration
