import AuthGateway.Common.RedisObject

/-!
# An object in Redis and back

What `RedisHSetObj` writes of a field is read back by `RedisHGetObj` but in one
case: a pointer to the empty string is written as nil is, and comes back as nil
(`Kept`).  A field that is not exported makes one of the two panic, unless it is a
nil pointer.  And an object without a field to write is not written at all.
**These are all the cases in which an object does not come back**
(`roundTrips_iff`).
-/

namespace AuthGateway.Common

open GoString

/-! ### A field -/

/-- The zero value of its type. -/
def FieldValue.zero : FieldValue → FieldValue
  | basic t _ => basic t t.zero
  | pointer t _ => pointer t none
  | deletedAt _ => deletedAt none

def Field.zero (f : Field) : Field := { f with value := f.value.zero }

/-- The field as it should come back: only a `DeletedAt` is zero. -/
def Field.expected (f : Field) : Field :=
  match f.value with
  | .deletedAt _ => { f with value := .deletedAt none }
  | _ => f

def Field.IsDeletedAt (f : Field) : Prop := ∃ time, f.value = .deletedAt time

/-- **A field that comes back**: one that is exported and no pointer to an empty string,
or a nil pointer, or a `DeletedAt`. -/
def Kept (f : Field) : Prop :=
  match f.value with
  | .basic _ _ => f.exported = true
  | .pointer _ none => True
  | .pointer t (some v) => f.exported = true ∧ (t = .string → t.print v ≠ "")
  | .deletedAt _ => True

theorem atoi_itoa_int64 (n : Int64) : atoi (itoa n.toInt) = (n.toInt, none) :=
  atoi_itoa n.le_toInt n.toInt_lt

/-- Only a string is printed as nothing. -/
theorem print_ne_empty {t : BasicType} (ht : t ≠ .string) (v : t.Val) : t.print v ≠ "" := by
  have hitoa (n : Int64) : itoa n.toInt ≠ "" := by
    intro h
    have hatoi := atoi_itoa_int64 n
    rw [h] at hatoi
    exact nomatch congrArg Prod.snd hatoi
  cases t with
  | string => exact absurd rfl ht
  | int => exact hitoa v
  | int64 => exact hitoa v
  | bool => cases v <;> exact (by decide)

/-- What is printed is parsed. -/
theorem parse_print (name : String) (t : BasicType) (v : t.Val) :
    t.parse name (t.print v) = .ok v := by
  cases t with
  | string => rfl
  | int =>
    show BasicType.parse name (itoa (Int64.toInt v)) .int = .ok v
    unfold BasicType.parse
    simp only [atoi_itoa_int64, Int64.ofInt_toInt]
  | int64 =>
    show BasicType.parse name (itoa (Int64.toInt v)) .int64 = .ok v
    unfold BasicType.parse
    simp only [atoi_itoa_int64, Int64.ofInt_toInt]
  | bool =>
    show BasicType.parse name (formatBool v) .bool = .ok v
    unfold BasicType.parse
    simp only [parseBool_formatBool]

theorem assign_print {f : Field} (h : f.exported = true) (t : BasicType) (v : t.Val) :
    f.assign t (t.print v) = .ok v := by
  unfold Field.assign
  rw [parse_print]
  exact if_pos h

theorem assign_ok_exported {f : Field} {t : BasicType} {value : String} {v : t.Val}
    (h : f.assign t value = .ok v) : f.exported = true := by
  unfold Field.assign at h
  cases hparse : t.parse f.name value with
  | error e =>
    rw [hparse] at h
    exact nomatch h
  | ok v' =>
    rw [hparse] at h
    by_contra hexported
    have hpanic : (if f.exported then Except.ok v' else .error .panicked : Except Failure t.Val)
        = .error .panicked := if_neg hexported
    exact nomatch hpanic.symm.trans h

variable (parseTime : String → Except Err Int)

/-- What is read of what was written of a field. -/
def Field.back (f : Field) : Option String → Except Failure Field
  | none => .ok f.zero
  | some value => f.zero.load parseTime value

theorem text_of_exported {f : Field} (h : f.exported = true) {t : BasicType} {v : t.Val}
    (hvalue : f.value = .basic t v ∨ f.value = .pointer t (some v)) :
    f.text = .ok (some (t.print v)) := by
  unfold Field.text
  obtain hv | hv := hvalue
  · rw [hv]
    exact if_pos (Or.inl h)
  · rw [hv]
    exact if_pos (Or.inl h)

/-- **A field comes back exactly when it is kept.** -/
theorem back_iff (f : Field) :
    (∃ text, f.text = .ok text ∧ f.back parseTime text = .ok f.expected) ↔ Kept f := by
  obtain ⟨name, exported, value⟩ := f
  cases value with
  | deletedAt time => exact ⟨fun _ => trivial, fun _ => ⟨none, rfl, rfl⟩⟩
  | basic t v =>
    constructor
    · rintro ⟨text, htext, hback⟩
      cases text with
      | none =>
        unfold Field.text at htext
        dsimp only at htext
        split at htext <;> exact nomatch htext
      | some value =>
        cases hassign : Field.assign (Field.zero ⟨name, exported, .basic t v⟩) t value with
        | ok v' => exact assign_ok_exported hassign
        | error e =>
          have hload : Field.back parseTime ⟨name, exported, .basic t v⟩ (some value)
              = .error e := by
            show (Field.assign (Field.zero ⟨name, exported, .basic t v⟩) t value).map _ = _
            rw [hassign]
            rfl
          rw [hload] at hback
          exact nomatch hback
    · intro h
      refine ⟨some (t.print v), text_of_exported h (Or.inl rfl), ?_⟩
      have hassign : Field.assign (Field.zero ⟨name, exported, .basic t v⟩) t (t.print v) = .ok v :=
        assign_print h t v
      show (Field.assign (Field.zero ⟨name, exported, .basic t v⟩) t (t.print v)).map _ = _
      rw [hassign]
      rfl
  | pointer t target =>
    cases target with
    | none => exact ⟨fun _ => trivial, fun _ => ⟨some "", rfl, rfl⟩⟩
    | some v =>
      constructor
      · rintro ⟨text, htext, hback⟩
        have hprint : text = some (t.print v) := by
          unfold Field.text at htext
          dsimp only at htext
          split at htext
          · exact (Except.ok.inj htext).symm
          · exact nomatch htext
        subst hprint
        have hne : t.print v ≠ "" := by
          intro hempty
          have hnil : Field.back parseTime ⟨name, exported, .pointer t (some v)⟩
              (some (t.print v)) = .ok ⟨name, exported, .pointer t none⟩ := if_pos hempty
          rw [hnil] at hback
          exact nomatch congrArg Field.value (Except.ok.inj hback)
        refine ⟨?_, fun _ => hne⟩
        by_contra hexported
        have hpanic : Field.back parseTime ⟨name, exported, .pointer t (some v)⟩
            (some (t.print v)) = .error .panicked :=
          (if_neg hne).trans (if_pos ⟨rfl, hexported⟩)
        rw [hpanic] at hback
        exact nomatch hback
      · rintro ⟨hexported, hstring⟩
        have hne : t.print v ≠ "" := by
          by_cases ht : t = .string
          · exact hstring ht
          · exact print_ne_empty ht v
        refine ⟨some (t.print v), text_of_exported hexported (Or.inr rfl), ?_⟩
        have hassign : Field.assign (Field.zero ⟨name, exported, .pointer t (some v)⟩) t (t.print v)
            = .ok v := assign_print hexported t v
        have hload : Field.back parseTime ⟨name, exported, .pointer t (some v)⟩ (some (t.print v))
            = (Field.assign (Field.zero ⟨name, exported, .pointer t (some v)⟩) t (t.print v)).map
                fun v => ⟨name, exported, .pointer t (some v)⟩ :=
          (if_neg hne).trans (if_neg fun h => h.2 hexported)
        rw [hload, hassign]
        rfl

/-! ### An object -/

theorem text_eq_none_iff {f : Field} : f.text = .ok none ↔ f.IsDeletedAt := by
  obtain ⟨name, exported, value⟩ := f
  unfold Field.text Field.IsDeletedAt
  cases value with
  | deletedAt time => exact ⟨fun _ => ⟨time, rfl⟩, fun _ => rfl⟩
  | basic t v =>
    dsimp only
    split <;> simp
  | pointer t target =>
    cases target with
    | none => simp
    | some v =>
      dsimp only
      split <;> simp

/-- **What the map of an object is**, by its first field. -/
theorem objData_cons {f : Field} {fs : List Field} {data : List (String × String)}
    (h : objData (f :: fs) = .ok data) :
    (f.text = .ok none ∧ objData fs = .ok data) ∨
      ∃ value rest, f.text = .ok (some value) ∧ objData fs = .ok rest ∧
        data = (f.name, value) :: rest := by
  unfold objData at h
  cases htext : f.text with
  | error e =>
    rw [htext] at h
    exact nomatch h
  | ok text =>
    rw [htext] at h
    cases text with
    | none => exact Or.inl ⟨rfl, h⟩
    | some value =>
      cases hrest : objData fs with
      | error e =>
        rw [hrest] at h
        exact nomatch h
      | ok rest =>
        rw [hrest] at h
        exact Or.inr ⟨value, rest, rfl, rfl, (Except.ok.inj h).symm⟩

theorem lookup_objData_of_not_mem {fs : List Field} {data : List (String × String)}
    (h : objData fs = .ok data) {name : String} (hname : name ∉ fs.map Field.name) :
    data.lookup name = none := by
  induction fs generalizing data with
  | nil =>
    obtain rfl := Except.ok.inj h
    rfl
  | cons f fs ih =>
    rw [List.map_cons, List.mem_cons, not_or] at hname
    obtain ⟨-, hrest⟩ | ⟨value, rest, -, hrest, rfl⟩ := objData_cons h
    · exact ih hrest hname.2
    · rw [List.lookup_cons, beq_eq_false_iff_ne.mpr hname.1]
      exact ih hrest hname.2

/-- **The map has the text of each field.** -/
theorem lookup_objData {fs : List Field} {data : List (String × String)} (h : objData fs = .ok data)
    (hnodup : (fs.map Field.name).Nodup) {f : Field} (hf : f ∈ fs) :
    f.text = .ok (data.lookup f.name) := by
  induction fs generalizing data with
  | nil => exact nomatch hf
  | cons g fs ih =>
    rw [List.map_cons, List.nodup_cons] at hnodup
    obtain ⟨htext, hrest⟩ | ⟨value, rest, htext, hrest, rfl⟩ := objData_cons h
    · obtain rfl | hmem := List.mem_cons.mp hf
      · rw [lookup_objData_of_not_mem hrest hnodup.1]
        exact htext
      · exact ih hrest hnodup.2 hmem
    · obtain rfl | hmem := List.mem_cons.mp hf
      · rw [List.lookup_cons, beq_self_eq_true]
        exact htext
      · have hne : f.name ≠ g.name := by
          intro heq
          exact hnodup.1 (heq ▸ List.mem_map_of_mem hmem)
        rw [List.lookup_cons, beq_eq_false_iff_ne.mpr hne]
        exact ih hrest hnodup.2 hmem

theorem exists_objData {fs : List Field} (h : ∀ f ∈ fs, ∃ text, f.text = .ok text) :
    ∃ data, objData fs = .ok data := by
  induction fs with
  | nil => exact ⟨[], rfl⟩
  | cons f fs ih =>
    obtain ⟨text, htext⟩ := h f (by simp)
    obtain ⟨rest, hrest⟩ := ih fun g hg => h g (by simp [hg])
    unfold objData
    rw [htext]
    cases text with
    | none => exact ⟨rest, hrest⟩
    | some value => exact ⟨(f.name, value) :: rest, by rw [hrest]; rfl⟩

/-- Nothing is written of an object that has no field but `DeletedAt`. -/
theorem objData_eq_nil_iff {fs : List Field} {data : List (String × String)}
    (h : objData fs = .ok data) : data = [] ↔ ∀ f ∈ fs, f.IsDeletedAt := by
  induction fs generalizing data with
  | nil =>
    obtain rfl := Except.ok.inj h
    simp
  | cons f fs ih =>
    obtain ⟨htext, hrest⟩ | ⟨value, rest, htext, hrest, rfl⟩ := objData_cons h
    · rw [ih hrest]
      simp [text_eq_none_iff.mp htext]
    · have hnot : ¬ f.IsDeletedAt := by
        intro hdeleted
        have hnone := text_eq_none_iff.mpr hdeleted
        rw [htext] at hnone
        exact nomatch Except.ok.inj hnone
      simp [hnot]

theorem loadFields_eq_ok_iff {result : Fields} {fs : List Field} :
    loadFields parseTime result (fs.map Field.zero) = .ok (fs.map Field.expected) ↔
      ∀ f ∈ fs, f.zero.read parseTime result = .ok f.expected := by
  induction fs with
  | nil => simp [loadFields]
  | cons f fs ih =>
    rw [List.map_cons, List.map_cons, loadFields]
    cases hread : f.zero.read parseTime result with
    | error e => simp [hread]
    | ok f' =>
      cases hrest : loadFields parseTime result (fs.map Field.zero) with
      | error e =>
        rw [hrest] at ih
        simp only [reduceCtorEq, false_iff, Except.map] at ih ⊢
        intro hall
        exact ih fun g hg => hall g (by simp [hg])
      | ok rest =>
        rw [hrest] at ih
        simp only [Except.map, Except.ok.injEq, List.cons.injEq, List.mem_cons,
          forall_eq_or_imp, hread]
        rw [← ih, Except.ok.injEq]

theorem zero_name (f : Field) : f.zero.name = f.name := rfl

/-- **The fields of an object that was written come back exactly when they are kept.** -/
theorem load_written_iff {fs : List Field} (hnodup : (fs.map Field.name).Nodup)
    {data : List (String × String)} (hdata : objData fs = .ok data) {before : Fields}
    (hbefore : ∀ f ∈ fs, f.IsDeletedAt → before f.name = none) :
    loadFields parseTime (setFields before data) (fs.map Field.zero)
      = .ok (fs.map Field.expected) ↔ ∀ f ∈ fs, Kept f := by
  rw [loadFields_eq_ok_iff]
  refine forall₂_congr fun f hf => ?_
  have htext := lookup_objData hdata hnodup hf
  have hread : f.zero.read parseTime (setFields before data)
      = f.back parseTime (data.lookup f.name) := by
    unfold Field.read setFields
    rw [zero_name]
    cases hlookup : data.lookup f.name with
    | none =>
      rw [hlookup] at htext
      rw [hbefore f hf (text_eq_none_iff.mp htext)]
      rfl
    | some value => rfl
  rw [hread, ← back_iff parseTime]
  constructor
  · exact fun h => ⟨_, htext, h⟩
  · rintro ⟨text, htext', hback⟩
    rw [htext] at htext'
    rwa [Except.ok.inj htext']

/-! ### On a server that answers -/

theorem fields_hSetObj (s : HashServer) (key : String) (data : List (String × String))
    (expiration : Int) : (serve (.hSetObj key data expiration) s).2.fields key
      = some (setFields ((s.fields key).getD fun _ => none) data) := by
  have hset : (s.hSet key data).hash key
      = some { s.current key with fields := setFields (s.current key).fields data } :=
    HashServer.hash_put_self fun d hd => HashServer.current_live hd
  rw [← HashServer.fields_current]
  show (if 0 < expiration then (s.hSet key data).expire key expiration
    else s.hSet key data).fields key = _
  split
  · next hpos =>
    have hsec : 0 ≤ formatSec expiration := by
      unfold formatSec
      split
      · decide
      · exact Int.tdiv_nonneg hpos.le (by decide)
    unfold HashServer.expire
    rw [hset]
    refine HashServer.fields_eq_some (HashServer.hash_put_self fun d hd => ?_)
    rw [← Option.some.inj hd]
    omega
  · exact HashServer.fields_eq_some hset

/-- An object to read into: each field zero. -/
def Obj.zero (obj : Obj) : Obj where
  fields := obj.fields.map Field.zero
  nodup := by
    have hnames : (obj.fields.map Field.zero).map Field.name = obj.fields.map Field.name := by
      rw [List.map_map]
      rfl
    rw [hnames]
    exact obj.nodup

/-- The object is written, and what is there is read into a zero object. -/
def Obj.comesBack (key : String) (obj : Obj) (expiration : Int) (s : HashServer) : Prop :=
  let written := (obj.redisHSetObj key expiration).run hashExec s
  written.1 = .ok () ∧
    ((obj.zero.redisHGetObj parseTime key).run hashExec written.2).1
      = .ok (obj.fields.map Field.expected)

theorem run_redisHSetObj {s : HashServer} (hup : s.Up) {obj : Obj} {data : List (String × String)}
    (hdata : objData obj.fields = .ok data) (hne : data ≠ []) (key : String) (expiration : Int) :
    (obj.redisHSetObj key expiration).run hashExec s
      = (.ok (), (serve (.hSetObj key data expiration) s).2.called) := by
  obtain ⟨d, ds, rfl⟩ := List.exists_cons_of_ne_nil hne
  unfold Obj.redisHSetObj
  rw [hdata]
  dsimp only
  rw [redisHSetObj, hashPerform, Prog.perform_bind]
  show Prog.run hashExec (Prog.call _ _) s = _
  rw [Prog.run_call, hup.hashExec]
  rfl

theorem run_redisHGetObj {s : HashServer} (hup : s.Up) {key : String} {result : Fields}
    (hfields : s.fields key = some result) (obj : Obj) :
    (obj.redisHGetObj parseTime key).run hashExec s
      = (loadFields parseTime result obj.fields, s.called) := by
  unfold Obj.redisHGetObj Common.redisHGetObj
  dsimp only
  rw [hashPerform, Prog.perform_bind]
  show Prog.run hashExec (Prog.call _ _) s = _
  rw [Prog.run_call, hup.hashExec]
  simp only [serve, hfields]
  rfl

/-- **An object comes back from Redis**, over fields in which no `DeletedAt` is written. -/
theorem comesBack_iff {s : HashServer} (hup : s.Up) {key : String} {obj : Obj} (expiration : Int)
    (hbefore : ∀ f ∈ obj.fields, f.IsDeletedAt → ((s.fields key).getD fun _ => none) f.name = none) :
    obj.comesBack parseTime key expiration s ↔
      (∃ f ∈ obj.fields, ¬ f.IsDeletedAt) ∧ ∀ f ∈ obj.fields, Kept f := by
  unfold Obj.comesBack
  dsimp only
  cases hdata : objData obj.fields with
  | error e =>
    have hwrite : (obj.redisHSetObj key expiration).run hashExec s = (.error e, s) := by
      unfold Obj.redisHSetObj
      rw [hdata]
      rfl
    rw [hwrite]
    constructor
    · exact fun h => nomatch h.1
    · rintro ⟨-, hkept⟩
      have htexts : ∀ f ∈ obj.fields, ∃ text, f.text = .ok text := by
        intro f hf
        obtain ⟨text, htext, -⟩ := (back_iff parseTime f).mpr (hkept f hf)
        exact ⟨text, htext⟩
      obtain ⟨data, hok⟩ := exists_objData htexts
      rw [hdata] at hok
      exact nomatch hok
  | ok data =>
    by_cases hnil : data = []
    · have hall := (objData_eq_nil_iff hdata).mp hnil
      have hwrite : ((obj.redisHSetObj key expiration).run hashExec s).1 ≠ .ok () := by
        unfold Obj.redisHSetObj
        rw [hdata, hnil]
        exact fun h => nomatch h
      constructor
      · exact fun h => absurd h.1 hwrite
      · rintro ⟨⟨f, hf, hnot⟩, -⟩
        exact absurd (hall f hf) hnot
    · have hsome : ∃ f ∈ obj.fields, ¬ f.IsDeletedAt := by
        by_contra hnone
        push Not at hnone
        exact hnil ((objData_eq_nil_iff hdata).mpr hnone)
      have hfields := fields_hSetObj s key data expiration
      have hup' : (serve (.hSetObj key data expiration) s).2.called.Up := hup.serve _
      rw [run_redisHSetObj hup hdata hnil, run_redisHGetObj parseTime hup' hfields obj.zero]
      show (_ ∧ loadFields parseTime _ (obj.fields.map Field.zero) = _) ↔ _
      rw [load_written_iff parseTime obj.nodup hdata hbefore]
      exact ⟨fun h => ⟨hsome, h.2⟩, fun h => ⟨rfl, h.2⟩⟩

/-- **A value into a fresh key and back, and a second one of the same type over it and back.** -/
def RoundTrips (key : String) (first second : Obj) (expiration expiration' : Int)
    (s : HashServer) : Prop :=
  first.comesBack parseTime key expiration s ∧
    second.comesBack parseTime key expiration'
      (((first.zero.redisHGetObj parseTime key).run hashExec
        ((first.redisHSetObj key expiration).run hashExec s).2).2)

theorem isDeletedAt_of_zero {f g : Field} (h : f.zero = g.zero) (hf : f.IsDeletedAt) :
    g.IsDeletedAt := by
  obtain ⟨time, htime⟩ := hf
  have hvalue : f.value.zero = g.value.zero := congrArg Field.value h
  rw [htime] at hvalue
  cases hg : g.value with
  | deletedAt time' => exact ⟨time', hg⟩
  | basic t v =>
    rw [hg] at hvalue
    exact nomatch hvalue
  | pointer t target =>
    rw [hg] at hvalue
    exact nomatch hvalue

/-- A field of one value is a field of the other, as far as its type goes. -/
theorem exists_same_field {first second : Obj} (htype : first.zero = second.zero) {f : Field}
    (hf : f ∈ second.fields) : ∃ g ∈ first.fields, g.zero = f.zero := by
  have hfields : first.fields.map Field.zero = second.fields.map Field.zero :=
    congrArg Obj.fields htype
  have hmem : f.zero ∈ first.fields.map Field.zero := by
    rw [hfields]
    exact List.mem_map_of_mem hf
  obtain ⟨g, hg, heq⟩ := List.mem_map.mp hmem
  exact ⟨g, hg, heq⟩

/-- **When two values come back**: there is a field to write, all but nil pointers are exported,
and no pointer of either is one to the empty string. -/
theorem roundTrips_iff {s : HashServer} (hup : s.Up) {key : String} (hfresh : s.fields key = none)
    {first second : Obj} (htype : first.zero = second.zero) (expiration expiration' : Int) :
    RoundTrips parseTime key first second expiration expiration' s ↔
      (∃ f ∈ first.fields, ¬ f.IsDeletedAt) ∧ (∀ f ∈ first.fields, Kept f) ∧
        ∀ f ∈ second.fields, Kept f := by
  have hbefore : ∀ f ∈ first.fields, f.IsDeletedAt →
      ((s.fields key).getD fun _ => none) f.name = none := by
    intro f _ _
    rw [hfresh]
    rfl
  have hfirst := comesBack_iff parseTime hup expiration hbefore
  have hsecond (h : first.comesBack parseTime key expiration s) :
      second.comesBack parseTime key expiration'
          (((first.zero.redisHGetObj parseTime key).run hashExec
            ((first.redisHSetObj key expiration).run hashExec s).2).2) ↔
        (∃ f ∈ second.fields, ¬ f.IsDeletedAt) ∧ ∀ f ∈ second.fields, Kept f := by
    obtain ⟨⟨f, hf, hnot⟩, hkept⟩ := hfirst.mp h
    have htexts : ∀ g ∈ first.fields, ∃ text, g.text = .ok text := by
      intro g hg
      obtain ⟨text, htext, -⟩ := (back_iff parseTime g).mpr (hkept g hg)
      exact ⟨text, htext⟩
    obtain ⟨data, hdata⟩ := exists_objData htexts
    have hne : data ≠ [] := fun hnil => hnot ((objData_eq_nil_iff hdata).mp hnil f hf)
    have hfields := fields_hSetObj s key data expiration
    have hup' : (serve (.hSetObj key data expiration) s).2.called.Up := hup.serve _
    rw [run_redisHSetObj hup hdata hne, run_redisHGetObj parseTime hup' hfields first.zero]
    have hafter : (HashServer.called (serve (.hSetObj key data expiration) s).2.called).fields key
        = some (setFields ((s.fields key).getD fun _ => none) data) := hfields
    have hup'' : (serve (.hSetObj key data expiration) s).2.called.called.Up := hup'
    refine comesBack_iff parseTime hup'' expiration' fun g hg hdeleted => ?_
    obtain ⟨g', hg', hzero⟩ := exists_same_field htype hg
    have htext := lookup_objData hdata first.nodup hg'
    have hnone : data.lookup g.name = none := by
      have hsame : g'.zero.name = g.zero.name := congrArg Field.name hzero
      rw [zero_name, zero_name] at hsame
      rw [text_eq_none_iff.mpr (isDeletedAt_of_zero hzero.symm hdeleted), hsame] at htext
      exact (Except.ok.inj htext).symm
    rw [hafter, hfresh]
    show (data.lookup g.name).or none = none
    rw [hnone]
    rfl
  unfold RoundTrips
  constructor
  · rintro ⟨h, h'⟩
    obtain ⟨hsome, hkept⟩ := hfirst.mp h
    exact ⟨hsome, hkept, ((hsecond h).mp h').2⟩
  · rintro ⟨⟨f, hf, hnot⟩, hkept, hkept'⟩
    have h := hfirst.mpr ⟨⟨f, hf, hnot⟩, hkept⟩
    obtain ⟨g, hg, hzero⟩ := exists_same_field htype.symm hf
    have hsome : ∃ f ∈ second.fields, ¬ f.IsDeletedAt :=
      ⟨g, hg, fun hdeleted => hnot (isDeletedAt_of_zero hzero hdeleted)⟩
    exact ⟨h, (hsecond h).mpr ⟨hsome, hkept'⟩⟩

/-! ### A pointer to the empty string -/

/-- An object with one field, a pointer to a string. -/
def Obj.ofPointer (target : Option String) : Obj where
  fields := [⟨"Remark", true, .pointer .string target⟩]
  nodup := by simp

/-- Nil, and then a pointer to a text. -/
theorem pointer_round_trip : RoundTrips (fun _ => .error .recordNotFound) "user:1"
    (Obj.ofPointer none) (Obj.ofPointer (some "text")) 0 second {} := by
  have hup : HashServer.Up {} := rfl
  have htype : (Obj.ofPointer none).zero = (Obj.ofPointer (some "text")).zero := rfl
  refine (roundTrips_iff _ hup rfl htype 0 second).mpr ⟨?_, ?_, ?_⟩
  · exact ⟨_, List.mem_singleton.mpr rfl, fun h => nomatch h.choose_spec⟩
  · intro f hf
    obtain rfl := List.mem_singleton.mp hf
    exact trivial
  · intro f hf
    obtain rfl := List.mem_singleton.mp hf
    exact ⟨rfl, fun _ => by decide⟩

/-- **A pointer to the empty string comes back as nil.** -/
theorem empty_target_lost : ¬ RoundTrips (fun _ => .error .recordNotFound) "user:1"
    (Obj.ofPointer (some "")) (Obj.ofPointer (some "")) 0 0 {} := by
  rintro ⟨⟨-, hread⟩, -⟩
  have hvalues := congrArg (Except.map (List.map Field.value)) hread
  exact nomatch hvalues

end AuthGateway.Common
