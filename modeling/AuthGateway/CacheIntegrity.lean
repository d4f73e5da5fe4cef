import AuthGateway.Lib.Threads
import AuthGateway.Model.UserCache

/-!
# The fields of a cached user

The functions of the user cache, side by side on one Redis server, while time
passes.  `updateUserCache` writes all fields of a user in one transaction.  The
functions that write one field ask for the time to live first, and write in a
second transaction.

* `book`: what was written of a user since the last full update.
* `Whole`: what a reader gets is what was written since then, all seven fields.
* `Present`: a transaction that writes one field finds the key.

A key that goes between the two round trips is made again with one field
(`torn_read`).  **A reader gets a whole user in every run in which no key goes
there** (`whole_of_present`).
-/

namespace AuthGateway.CacheIntegrity

open Common Model Prog

/-! ### Requests, side by side -/

inductive Request
  | updateUserCache (user : User)
  | invalidateUserCache (id : Int)
  | cacheGetUserBase (id : Int)
  | cacheIncrUserQuota (id delta : Int)
  | cacheDecrUserQuota (id delta : Int)
  | updateUserStatusCache (id : Int) (status : Bool)
  | updateUserQuotaCache (id quota : Int)
  | updateUserGroupCache (id : Int) (group : String)
  | updateUserNameCache (id : Int) (username : String)
  | updateUserSettingCache (id : Int) (setting : String)
  /-- Time passes, in milliseconds. -/
  | pass (d : Nat)

inductive Reply
  | done (err : Option Err)
  | read (r : Except Err UserBase)

def handle (cfg : CacheConfig) : Request → HashM Reply
  | .updateUserCache user => .done <$> updateUserCache cfg user
  | .invalidateUserCache id => .done <$> invalidateUserCache cfg id
  | .cacheGetUserBase id => .read <$> cacheGetUserBase cfg id
  | .cacheIncrUserQuota id delta => .done <$> cacheIncrUserQuota cfg id delta
  | .cacheDecrUserQuota id delta => .done <$> cacheDecrUserQuota cfg id delta
  | .updateUserStatusCache id status => .done <$> updateUserStatusCache cfg id status
  | .updateUserQuotaCache id quota => .done <$> updateUserQuotaCache cfg id quota
  | .updateUserGroupCache id group => .done <$> updateUserGroupCache cfg id group
  | .updateUserNameCache id username => .done <$> updateUserNameCache cfg id username
  | .updateUserSettingCache id setting => .done <$> updateUserSettingCache cfg id setting
  | .pass d => (fun _ => .done none) <$> hashPerform (.pass d)

variable {ι : Type}

abbrev Requests (ι : Type) : Type := Prog.Config HashOp HashOp.Ans Reply HashServer ι

/-- The requests before their first command, on a server without cached users. -/
def start (cfg : CacheConfig) (requests : ι → Request) (now : Int)
    (outages : Nat → Option Outage) : Requests ι :=
  ⟨fun i => handle cfg (requests i), { now := now, outages := outages }⟩

/-! ### What was written -/

/-- What a command leaves of what was written to a key since it was last written
whole.  Nothing is forgotten when the key goes. -/
def record (key : String) : HashOp → Option Fields → Option Fields
  | .hSetObj k data _, b => if k = key then some (setFields (fun _ => none) data) else b
  | .hSetField k field value _, b =>
    if k = key then b.map fun w => setFields w [(field, value)] else b
  | .hIncrBy k field delta _, b =>
    if k = key then b.map fun w =>
      match incrField w field delta with
      | .error _ => w
      | .ok w' => w'
    else b
  | _, b => b

/-- What a step leaves of it. -/
def entry (key : String) (c : Requests ι) (i : ι) (b : Option Fields) : Option Fields :=
  match c.threads i with
  | ret _ => b
  | call o _ => if c.store.reached o then record key o b else b

section
variable [DecidableEq ι]

/-- What was written to a key, carried through a run. -/
def bookFrom (key : String) : Requests ι → Option Fields → List ι → Option Fields
  | _, b, [] => b
  | c, b, i :: sched => bookFrom key (step hashExec c i) (entry key c i b) sched

/-- What was written of a user since the last full update, if there was one. -/
def book (s₀ : Requests ι) (sched : List ι) (id : Int) : Option Fields :=
  bookFrom (getUserCacheKey id) s₀ none sched

/-- When the thread read the user, the seven fields had been written since the
last full update, and they are what it returns. -/
def ReadWhole (s₀ : Requests ι) (sched : List ι) (i : ι) (id : Int) (cache : UserBase) : Prop :=
  ∃ pre post, sched = pre ++ i :: post ∧
    (∃ k, (play hashExec s₀ pre).threads i = call (.hGetAll (getUserCacheKey id)) k) ∧
    ∃ w, book s₀ pre id = some w ∧ (∀ name ∈ UserBase.names, (w name).isSome) ∧
      UserBase.load w = .ok cache

/-- **Every user that was read was whole.** -/
def Whole (requests : ι → Request) (s₀ : Requests ι) (sched : List ι) : Prop :=
  ∀ i id cache, requests i = .cacheGetUserBase id →
    ((play hashExec s₀ sched).threads i).answer = some (.read (.ok cache)) →
      ReadWhole s₀ sched i id cache

/-! ### When it is -/

/-- A command that writes one field finds the key. -/
def keyThere (s : HashServer) : HashOp → Bool
  | .hSetField key _ _ _ => (s.fields key).isSome
  | .hIncrBy key _ _ _ => (s.fields key).isSome
  | _ => true

/-- **A transaction that writes one field finds the key**: it has neither been
deleted nor expired since the time to live was asked for. -/
def Present (s₀ : Requests ι) (pre : List ι) (i : ι) : Prop :=
  ∀ p ∈ performed (play hashExec s₀ pre) i, (play hashExec s₀ pre).store.reached p.2 = true →
    keyThere (play hashExec s₀ pre).store p.2 = true

instance (s₀ : Requests ι) (pre : List ι) (i : ι) : Decidable (Present s₀ pre i) :=
  inferInstanceAs (Decidable (∀ p ∈ performed (play hashExec s₀ pre) i, _ → _))

end

/-! ### One command -/

/-- The command writes a user whole, or a field of a user. -/
def Tidy : HashOp → Prop
  | .hSetObj _ data _ => ∀ name ∈ UserBase.names, (data.lookup name).isSome
  | .hIncrBy _ field _ _ => field ∈ UserBase.names
  | _ => True

/-- The fields that are there are those that were written. -/
def Agrees (fields b : Option Fields) : Prop :=
  ∀ f, fields = some f → ∃ w, b = some w ∧
    ∀ name ∈ UserBase.names, f name = w name ∧ (w name).isSome

theorem setFields_whole {f g : Fields} {data : List (String × String)} {name : String}
    (h : (data.lookup name).isSome) :
    setFields f data name = setFields g data name ∧ (setFields g data name).isSome := by
  obtain ⟨value, hvalue⟩ := Option.isSome_iff_exists.mp h
  simp [setFields, hvalue]

theorem setFields_single {f g : Fields} {name : String} (field value : String)
    (h : f name = g name ∧ (g name).isSome) :
    setFields f [(field, value)] name = setFields g [(field, value)] name ∧
      (setFields g [(field, value)] name).isSome := by
  cases hlookup : [(field, value)].lookup name with
  | none => simpa [setFields, hlookup] using h
  | some v => simp [setFields, hlookup]

/-- An increment sees one field. -/
theorem incrField_congr {f g : Fields} {field : String} (delta : Int) (h : f field = g field) :
    (∃ e, incrField f field delta = .error e ∧ incrField g field delta = .error e) ∨
      ∃ value, incrField f field delta = .ok (setFields f [(field, value)]) ∧
        incrField g field delta = .ok (setFields g [(field, value)]) := by
  rw [incrField, incrField, h]
  split
  · exact Or.inl ⟨_, rfl, rfl⟩
  · split
    · exact Or.inl ⟨_, rfl, rfl⟩
    · exact Or.inr ⟨_, rfl, rfl⟩

theorem agrees_set {f w : Fields} (field value : String)
    (h : ∀ name ∈ UserBase.names, f name = w name ∧ (w name).isSome) :
    Agrees (some (setFields f [(field, value)])) (some (setFields w [(field, value)])) := by
  intro f' hf'
  obtain rfl := Option.some.inj hf'
  exact ⟨_, rfl, fun name hname => setFields_single field value (h name hname)⟩

/-- **One command keeps what is there and what was written the same.** -/
theorem agrees_effect {o : HashOp} {s : HashServer} {key : String} {b : Option Fields}
    (htidy : Tidy o) (hthere : keyThere s o = true) (h : Agrees (s.fields key) b) :
    Agrees (o.effect key (s.fields key)) (record key o b) := by
  cases o with
  | ttl k => exact h
  | hGetAll k => exact h
  | pass d => exact h
  | del k =>
    simp only [HashOp.effect, record]
    by_cases hkey : k = key
    · rw [if_pos hkey]
      intro f hf
      cases hf
    · rw [if_neg hkey]
      exact h
  | hSetObj k data expiration =>
    simp only [HashOp.effect, record]
    by_cases hkey : k = key
    · rw [if_pos hkey, if_pos hkey]
      intro f hf
      obtain rfl := Option.some.inj hf
      exact ⟨_, rfl, fun name hname => setFields_whole (htidy name hname)⟩
    · rw [if_neg hkey, if_neg hkey]
      exact h
  | hSetField k field value ttl =>
    simp only [HashOp.effect, record]
    by_cases hkey : k = key
    · subst hkey
      obtain ⟨f, hf⟩ := Option.isSome_iff_exists.mp hthere
      obtain ⟨w, rfl, hw⟩ := h f hf
      rw [hf, if_pos rfl, if_pos rfl]
      exact agrees_set field value hw
    · rw [if_neg hkey, if_neg hkey]
      exact h
  | hIncrBy k field delta ttl =>
    simp only [HashOp.effect, record]
    by_cases hkey : k = key
    · subst hkey
      obtain ⟨f, hf⟩ := Option.isSome_iff_exists.mp hthere
      obtain ⟨w, rfl, hw⟩ := h f hf
      rw [hf] at h ⊢
      rw [if_pos rfl, if_pos rfl, Option.getD_some, Option.map_some]
      rcases incrField_congr delta (hw field htidy).1 with ⟨e, hincr, hincr'⟩ | ⟨value, hincr, hincr'⟩
      · rw [hincr, hincr']
        exact h
      · rw [hincr, hincr']
        exact agrees_set field value hw
    · rw [if_neg hkey, if_neg hkey]
      exact h

theorem agrees_hashExec {o : HashOp} {s : HashServer} {key : String} {b : Option Fields}
    (htidy : Tidy o) (hthere : s.reached o = true → keyThere s o = true)
    (h : Agrees (s.fields key) b) :
    Agrees ((hashExec o s).2.fields key) (if s.reached o then record key o b else b) := by
  intro f hf
  have hseen := fields_hashExec o s key hf
  by_cases hreached : s.reached o = true
  · rw [if_pos hreached] at hseen ⊢
    exact agrees_effect htidy (hthere hreached) h f hseen
  · rw [if_neg hreached] at hseen ⊢
    exact h f hseen

/-! ### What a request does -/

/-- A request, and the user that it has read. -/
abbrev Look : Type := Request × Option UserBase

/-- What a request may do next, and what it has read then. -/
inductive Next : Look → HashServer → HashOp → Look → Prop
  | read {id : Int} {s : HashServer} {f : Fields} {cache : UserBase}
      (hseen : s.fields (getUserCacheKey id) = some f) (hload : UserBase.load f = .ok cache) :
      Next (.cacheGetUserBase id, none) s (.hGetAll (getUserCacheKey id))
        (.cacheGetUserBase id, some cache)
  | other {q : Request} {s : HashServer} {o : HashOp} (h : Tidy o) : Next (q, none) s o (q, none)

/-- What is answered was read. -/
def Answers (l : Look) (reply : Reply) : Prop := ∀ cache, reply = .read (.ok cache) → l.2 = some cache

theorem done_goes (q : Request) {p : HashM (Option Err)} (h : Only Tidy p) :
    Follows hashExec Next Answers (Reply.done <$> p) (q, none) := by
  rw [map_eq_pure_bind]
  refine (Follows.of_only h fun s o ho => .other ho).bind ?_
  intro err l _
  apply Follows.pure
  intro cache hcache
  cases hcache

theorem redisHSetField_only (key field value : String) : Only Tidy (redisHSetField key field value) := by
  unfold redisHSetField hashPerform
  refine Only.perform_bind trivial ?_
  intro answer
  cases answer with
  | error e => exact Only.pure
  | ok ttl =>
    dsimp only
    split
    · refine Only.perform_bind trivial ?_
      intro answer
      cases answer with
      | error e => exact Only.pure
      | ok _ => exact Only.pure
    · exact Only.pure

theorem updateUserFieldCache_only (cfg : CacheConfig) (id : Int) (field value : String) :
    Only Tidy (updateUserFieldCache cfg id field value) := by
  unfold updateUserFieldCache
  split
  · exact redisHSetField_only _ _ _
  · exact Only.pure

theorem cacheIncrUserQuota_only (cfg : CacheConfig) (id delta : Int) :
    Only Tidy (cacheIncrUserQuota cfg id delta) := by
  have hquota : "Quota" ∈ UserBase.names := by decide
  unfold cacheIncrUserQuota redisHIncrBy hashPerform
  split
  · refine Only.perform_bind trivial ?_
    intro answer
    cases answer with
    | error e => exact Only.pure
    | ok ttl =>
      dsimp only
      split
      · refine Only.perform_bind hquota ?_
        intro answer
        cases answer with
        | error e => exact Only.pure
        | ok _ => exact Only.pure
      · exact Only.pure
  · exact Only.pure

theorem updateUserCache_only (cfg : CacheConfig) (user : User) :
    Only Tidy (updateUserCache cfg user) := by
  unfold updateUserCache redisHSetObj hashPerform
  split
  · refine Only.perform_bind (UserBase.names_data _) ?_
    intro answer
    cases answer with
    | error e => exact Only.pure
    | ok _ => exact Only.pure
  · exact Only.pure

theorem invalidateUserCache_only (cfg : CacheConfig) (id : Int) :
    Only Tidy (invalidateUserCache cfg id) := by
  unfold invalidateUserCache redisDelKey hashPerform
  split
  · refine Only.perform_bind trivial ?_
    intro answer
    cases answer with
    | error e => exact Only.pure
    | ok _ => exact Only.pure
  · exact Only.pure

/-- The answer of `HGETALL`: an error, or what is seen of the key. -/
theorem answer_hGetAll (s : HashServer) (key : String) :
    (∃ e, (hashExec (.hGetAll key) s).1 = .error e) ∨
      (hashExec (.hGetAll key) s).1 = .ok (s.fields key) := by
  rw [hashExec]
  cases s.outage (.hGetAll key) with
  | none => exact Or.inr rfl
  | some f => exact Or.inl ⟨f.err, rfl⟩

theorem answers_error {l : Look} (e : Err) : Answers l (.read (.error e)) := by
  intro cache hcache
  cases hcache

theorem cacheGetUserBase_goes (cfg : CacheConfig) (id : Int) :
    Follows hashExec Next Answers (Reply.read <$> cacheGetUserBase cfg id)
      (.cacheGetUserBase id, none) := by
  unfold cacheGetUserBase
  split
  · intro s
    have hother : Next (.cacheGetUserBase id, none) s (.hGetAll (getUserCacheKey id))
        (.cacheGetUserBase id, none) := .other trivial
    rcases answer_hGetAll s (getUserCacheKey id) with ⟨e, hanswer⟩ | hanswer
    · refine ⟨_, hother, ?_⟩
      rw [hanswer]
      exact answers_error _
    · rw [hanswer]
      cases hseen : s.fields (getUserCacheKey id) with
      | none => exact ⟨_, hother, answers_error _⟩
      | some f =>
        cases hload : UserBase.load f with
        | error e =>
          refine ⟨_, hother, ?_⟩
          show Answers _ (.read (UserBase.load f))
          rw [hload]
          exact answers_error e
        | ok cache =>
          refine ⟨_, .read hseen hload, ?_⟩
          show Answers _ (.read (UserBase.load f))
          rw [hload]
          intro cache' hcache
          cases hcache
          rfl
  · exact answers_error _

/-- **Every request goes by `Next`.** -/
theorem handle_goes (cfg : CacheConfig) (q : Request) :
    Follows hashExec Next Answers (handle cfg q) (q, none) := by
  cases q with
  | updateUserCache user => exact done_goes _ (updateUserCache_only cfg user)
  | invalidateUserCache id => exact done_goes _ (invalidateUserCache_only cfg id)
  | cacheGetUserBase id => exact cacheGetUserBase_goes cfg id
  | cacheIncrUserQuota id delta => exact done_goes _ (cacheIncrUserQuota_only cfg id delta)
  | cacheDecrUserQuota id delta => exact done_goes _ (cacheIncrUserQuota_only cfg id (-delta))
  | updateUserStatusCache id status => exact done_goes _ (updateUserFieldCache_only cfg id _ _)
  | updateUserQuotaCache id quota => exact done_goes _ (updateUserFieldCache_only cfg id _ _)
  | updateUserGroupCache id group => exact done_goes _ (updateUserFieldCache_only cfg id _ _)
  | updateUserNameCache id username => exact done_goes _ (updateUserFieldCache_only cfg id _ _)
  | updateUserSettingCache id setting => exact done_goes _ (updateUserFieldCache_only cfg id _ _)
  | pass d =>
    intro s
    refine ⟨_, .other trivial, ?_⟩
    intro cache hcache
    cases hcache

/-! ### Runs -/

section Run

variable [DecidableEq ι] {requests : ι → Request} {s₀ : Requests ι} {pre : List ι} {l : ι → Look}
  {i : ι}

theorem bookFrom_snoc (key : String) (c : Requests ι) (b : Option Fields) (sched : List ι) (i : ι) :
    bookFrom key c b (sched ++ [i])
      = entry key (play hashExec c sched) i (bookFrom key c b sched) := by
  induction sched generalizing c b with
  | nil => rfl
  | cons j sched ih => rw [List.cons_append, bookFrom, ih, bookFrom, play_cons]

theorem ReadWhole.snoc {j : ι} {id : Int} {cache : UserBase} (h : ReadWhole s₀ pre j id cache)
    (i : ι) : ReadWhole s₀ (pre ++ [i]) j id cache := by
  obtain ⟨before, since, rfl, hread⟩ := h
  exact ⟨before, since ++ [i], by rw [List.append_assoc, List.cons_append], hread⟩

/-- What a read that agrees with the book returns. -/
theorem load_of_agrees {f : Fields} {b : Option Fields} {cache : UserBase}
    (h : Agrees (some f) b) (hload : UserBase.load f = .ok cache) :
    ∃ w, b = some w ∧ (∀ name ∈ UserBase.names, (w name).isSome) ∧ UserBase.load w = .ok cache := by
  obtain ⟨w, hw, hsame⟩ := h f rfl
  refine ⟨w, hw, fun name hname => (hsame name hname).2, ?_⟩
  rw [← hload]
  exact (UserBase.load_congr fun name hname => (hsame name hname).1).symm

structure Inv (requests : ι → Request) (s₀ : Requests ι) (pre : List ι) (l : ι → Look) : Prop where
  request : ∀ i, (l i).1 = requests i
  whole : ∀ i id cache, requests i = .cacheGetUserBase id → (l i).2 = some cache →
    ReadWhole s₀ pre i id cache
  agrees : ∀ id, Agrees ((play hashExec s₀ pre).store.fields (getUserCacheKey id)) (book s₀ pre id)

theorem inv_idle {answer : Reply} (hinv : Inv requests s₀ pre l)
    (hi : (play hashExec s₀ pre).threads i = ret answer) : Inv requests s₀ (pre ++ [i]) l := by
  refine ⟨hinv.request, ?_, ?_⟩
  · intro j id cache hq hl
    exact (hinv.whole j id cache hq hl).snoc i
  · intro id
    rw [play_append, play_cons, play_nil, step_ret hashExec hi, book, bookFrom_snoc, entry, hi]
    exact hinv.agrees id

theorem next_tidy {l l' : Look} {s : HashServer} {o : HashOp} (h : Next l s o l') : Tidy o := by
  cases h with
  | read hseen hload => exact trivial
  | other htidy => exact htidy

theorem next_request {l l' : Look} {s : HashServer} {o : HashOp} (h : Next l s o l') :
    l'.1 = l.1 := by
  cases h with
  | read hseen hload => rfl
  | other htidy => rfl

theorem inv_step {o : HashOp} {k : o.Ans → HashM Reply} {l' : Look} (hinv : Inv requests s₀ pre l)
    (hpresent : Present s₀ pre i) (hi : (play hashExec s₀ pre).threads i = call o k)
    (hnext : Next (l i) (play hashExec s₀ pre).store o l') :
    Inv requests s₀ (pre ++ [i]) (Function.update l i l') := by
  have hrequest := hinv.request i
  refine ⟨?_, ?_, ?_⟩
  · intro j
    by_cases hj : j = i
    · subst hj
      rw [Function.update_self, next_request hnext, hrequest]
    · rw [Function.update_of_ne hj]
      exact hinv.request j
  · intro j id cache hq hl
    by_cases hj : j = i
    · subst hj
      rw [Function.update_self] at hl
      rw [hq] at hrequest
      generalize hlook : l j = look at hnext hrequest
      cases hnext with
      | @read key s f cache' hseen hload =>
        obtain rfl := Option.some.inj hl
        cases hrequest
        have hagrees := hinv.agrees id
        rw [hseen] at hagrees
        exact ⟨pre, [], rfl, ⟨k, hi⟩, load_of_agrees hagrees hload⟩
      | other htidy => cases hl
    · rw [Function.update_of_ne hj] at hl
      exact (hinv.whole j id cache hq hl).snoc i
  · intro id
    have hthere : (play hashExec s₀ pre).store.reached o = true →
        keyThere (play hashExec s₀ pre).store o = true := by
      intro hreached
      refine hpresent (i, o) ?_ hreached
      rw [performed_call hi]
      exact List.mem_singleton.mpr rfl
    rw [play_append, play_cons, play_nil, step_call hashExec hi, book, bookFrom_snoc, entry, hi]
    exact agrees_hashExec (next_tidy hnext) hthere (hinv.agrees id)

end Run

/-- **A reader gets a whole user** in every run in which a transaction that writes
one field finds the key. -/
theorem whole_of_present {ι : Type} [DecidableEq ι] (cfg : CacheConfig) (requests : ι → Request)
    (now : Int) (outages : Nat → Option Outage) {sched : List ι}
    (h : Runs.Always (Present (start cfg requests now outages)) sched) :
    Whole requests (start cfg requests now outages) sched := by
  have hstart : ∀ i, Follows hashExec Next Answers ((start cfg requests now outages).threads i)
      (requests i, none) := fun i => handle_goes cfg (requests i)
  have hempty : Inv requests (start cfg requests now outages) [] fun i => (requests i, none) := by
    refine ⟨fun _ => rfl, ?_, ?_⟩
    · intro i id cache _ hl
      cases hl
    · intro id f hf
      cases hf
  obtain ⟨l, hfollows, hinv⟩ := ghost_run (I := Inv requests (start cfg requests now outages)) hstart
    hempty (fun pre i l answer hinv hi => inv_idle hinv hi)
    (fun pre i l o k l' hinv hpresent hi hnext => inv_step hinv hpresent hi hnext) sched h
  intro i id cache hq hanswer
  have hlook := hfollows i
  rw [answer_eq_some.mp hanswer] at hlook
  exact hinv.whole i id cache hq (hlook cache rfl)

/-! ### A key that goes -/

/-- A user is cached, gains 5, is dropped from the cache, and is read. -/
def incrDuringInvalidate : Fin 4 → Request
  | 0 => .updateUserCache { id := 1, username := "judy", group := "vip", quota := 10, status := 1 }
  | 1 => .cacheIncrUserQuota 1 5
  | 2 => .invalidateUserCache 1
  | 3 => .cacheGetUserBase 1

/-- The key goes between the two round trips of the increment. -/
def dropped : Requests (Fin 4) := start {} incrDuringInvalidate 0 fun _ => none

/-- **The reader gets a user of one field**, and nothing of the rest. -/
theorem torn_read : ((play hashExec dropped [0, 1, 2, 1, 3]).threads 3).answer
      = some (.read (.ok { quota := 5 })) ∧
    ¬ Whole incrDuringInvalidate dropped [0, 1, 2, 1, 3] := by
  have hread : ((play hashExec dropped [0, 1, 2, 1, 3]).threads 3).answer
      = some (.read (.ok { quota := 5 })) := by rfl
  refine ⟨hread, ?_⟩
  intro h
  obtain ⟨pre, post, hsplit, -, w, hw, -, hload⟩ := h 3 1 { quota := 5 } rfl hread
  have hsplit' : [0, 1, 2, 1] ++ [3] = pre ++ 3 :: post := hsplit
  have hpre : [0, 1, 2, 1] = pre := by
    rcases Runs.eq_snoc_split hsplit' with ⟨hpre, -⟩ | ⟨post', -, hpre⟩
    · exact hpre
    · have hmem : (3 : Fin 4) ∈ [0, 1, 2, 1] := by
        rw [hpre]
        simp
      exact absurd hmem (by decide)
  have hbook : (book dropped [0, 1, 2, 1] 1).map UserBase.load
      = some (.ok { id := 1, username := "judy", group := "vip", quota := 15, status := 1 }) := by
    rfl
  rw [hpre, hw, Option.map_some, hload] at hbook
  cases hbook

/-- The increment first, and then the read. -/
theorem read_in_turn : ((play hashExec dropped [0, 1, 1, 3, 2]).threads 3).answer
      = some (.read (.ok { id := 1, username := "judy", group := "vip", quota := 15, status := 1 })) ∧
    Whole incrDuringInvalidate dropped [0, 1, 1, 3, 2] := by
  refine ⟨by rfl, ?_⟩
  refine whole_of_present {} incrDuringInvalidate 0 (fun _ => none) ?_
  show Runs.Always _ (([] : List (Fin 4)) ++ [0] ++ [1] ++ [1] ++ [3] ++ [2])
  simp only [Runs.always_snoc]
  refine ⟨⟨⟨⟨⟨Runs.always_nil, ?_⟩, ?_⟩, ?_⟩, ?_⟩, ?_⟩
  · decide
  · decide
  · decide
  · decide
  · decide

end AuthGateway.CacheIntegrity
