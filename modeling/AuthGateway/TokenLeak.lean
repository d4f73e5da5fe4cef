import AuthGateway.Controller.UserList
import Mathlib.Data.List.Forall2
import Mathlib.Data.Set.Finite.Basic

/-!
# Access tokens and who may read them

An access token stands for its owner, so an administrator who is not root should
learn nothing about the tokens of users of equal or higher rank.  `SameButTokens`
relates two databases that differ in such tokens only, and `Hidden` says that a
reading request answers the same on both.

`GetUser` compares the ranks.  `GetAllUsers` and `SearchUsers` leave out one
column, the password, of whatever is on the page: **the tokens are hidden exactly
when nobody of equal or higher rank is listed** (`hidden_iff`).
-/

namespace AuthGateway.TokenLeak

open Common Model Controller GoString

/-! ### Two databases that differ in tokens -/

/-- The same account, but for the token, which differs only if the account is of
role `r` or higher. -/
def SameButToken (r : Int) (u u' : User) : Prop :=
  u' = { u with accessToken := u'.accessToken } ∧ (u.role < r → u' = u)

structure SameButTokens (r : Int) (db db' : DB) : Prop where
  users : List.Forall₂ (SameButToken r) db.users.rows db'.users.rows
  nextKey : db'.users.nextKey = db.users.nextKey
  twoFAs : db'.twoFAs = db.twoFAs
  backupCodes : db'.backupCodes = db.backupCodes
  passkeys : db'.passkeys = db.passkeys

/-- A condition that does not look at the token. -/
def TokenBlind (p : User → Bool) : Prop :=
  ∀ (u : User) (token : Option String), p { u with accessToken := token } = p u

theorem SameButToken.blind {r : Int} {u u' : User} (h : SameButToken r u u') {p : User → Bool}
    (hp : TokenBlind p) : p u = p u' := by
  rw [h.1]
  exact (hp u u'.accessToken).symm

/-- What a query selects from the two databases is the same, but for tokens. -/
theorem SameButTokens.select {r : Int} {db db' : DB} (h : SameButTokens r db db')
    {p : User → Bool} (hp : TokenBlind p) :
    List.Forall₂ (SameButToken r) (db.users.select p) (db'.users.select p) := by
  refine List.rel_filter ?_ h.users
  intro u u' hu
  show p u = true ↔ p u' = true
  rw [hu.blind hp]

theorem forall₂_page {R : User → User → Prop} {l l' : List User} (h : List.Forall₂ R l l')
    (limit offset : Int) : List.Forall₂ R (page limit offset l) (page limit offset l') := by
  have hdrop := List.forall₂_drop offset.toNat h
  unfold page
  dsimp only
  split
  · exact hdrop
  · exact List.forall₂_take limit.toNat hdrop

theorem find?_forall₂ {R : User → User → Prop} {p : User → Bool} (hp : ∀ u u', R u u' → p u = p u')
    {l l' : List User} (h : List.Forall₂ R l l') :
    (l.find? p = none ∧ l'.find? p = none) ∨
      ∃ u u', R u u' ∧ l.find? p = some u ∧ l'.find? p = some u' := by
  induction h with
  | nil => exact Or.inl ⟨rfl, rfl⟩
  | @cons a b l l' hR _ ih =>
    have hab := hp a b hR
    cases ha : p a with
    | true =>
      refine Or.inr ⟨a, b, hR, ?_, ?_⟩
      · rw [List.find?_cons, ha]
      · rw [List.find?_cons, ← hab, ha]
    | false =>
      rw [List.find?_cons, List.find?_cons, ← hab, ha]
      exact ih

/-! ### The requests -/

inductive ReadRequest
  | getAllUsers (q : PageQuery)
  | searchUsers (keyword group : String) (q : PageQuery)
  | getUser (idParam : String)

def handle (env : Env) (ctx : Ctx) (s : Sess) : ReadRequest → M Out
  | .getAllUsers q => getAllUsers s q
  | .searchUsers keyword group q => searchUsers env s keyword group q
  | .getUser idParam => getUser ctx s idParam

/-- The response to the request. -/
def response (env : Env) (ctx : Ctx) (s : Sess) (q : ReadRequest) (db : DB) : Reply :=
  ((handle env ctx s q).run exec db).1.reply

/-- The response does not depend on the tokens of users of equal or higher rank. -/
def Hidden (env : Env) (ctx : Ctx) (s : Sess) (q : ReadRequest) (db : DB) : Prop :=
  ∀ db', SameButTokens ctx.role db db' → response env ctx s q db' = response env ctx s q db

/-- The page of a list request. -/
def pageOf (info : PageInfo) (p : User → Bool) (db : DB) : List User :=
  page info.pageSize info.getStartIdx (db.users.select p).reverse

/-- The accounts that a request lists. -/
def listed (env : Env) (db : DB) : ReadRequest → List User
  | .getAllUsers q => pageOf (getPageQuery q) (fun _ => true) db
  | .searchUsers keyword group q => pageOf (getPageQuery q) (searchCondition env keyword group) db
  | .getUser _ => []

/-! ### Lists -/

theorem mem_of_mem_pageOf {info : PageInfo} {p : User → Bool} {db : DB} {u : User}
    (h : u ∈ pageOf info p db) : u ∈ db.users := by
  have hselect : u ∈ (db.users.select p).reverse := by
    unfold pageOf page at h
    dsimp only at h
    split at h
    · exact List.mem_of_mem_drop h
    · exact List.mem_of_mem_drop (List.mem_of_mem_take h)
  exact (Table.mem_select.mp (List.mem_reverse.mp hselect)).1

theorem run_listUsers (s : Sess) (info : PageInfo) (p : User → Bool) (db : DB) :
    ((listUsers s info p).run exec db).1.reply
      = .apiSuccess (info.toJson (db.users.select p).length
        ((pageOf info p db).map User.omitPassword)) := rfl

theorem token_of_toJson {u u' : User} (h : u.omitPassword.toJson = u'.omitPassword.toJson) :
    u.accessToken = u'.accessToken := by
  have hmember : ∀ v : User, (v.omitPassword.toJson).member? "access_token"
      = some (.ofOption .str v.accessToken) := fun v => rfl
  have htoken := congrArg (Json.member? "access_token") h
  rw [hmember, hmember] at htoken
  have hjson := Option.some.inj htoken
  cases ha : u.accessToken with
  | none =>
    cases hb : u'.accessToken with
    | none => rfl
    | some b =>
      rw [ha, hb] at hjson
      exact nomatch hjson
  | some a =>
    cases hb : u'.accessToken with
    | none =>
      rw [ha, hb] at hjson
      exact nomatch hjson
    | some b =>
      rw [ha, hb] at hjson
      exact congrArg some (Json.str.inj hjson)

theorem toJson_of_apiSuccess {info : PageInfo} {n n' : Int} {l l' : List User}
    (h : Reply.apiSuccess (info.toJson n l) = Reply.apiSuccess (info.toJson n' l')) :
    l.map User.toJson = l'.map User.toJson := by
  have hmember : ∀ (n : Int) (l : List User), (info.toJson n l).member? "items"
      = some (.arr (l.map User.toJson)) := fun n l => rfl
  unfold Reply.apiSuccess at h
  injection h with _ _ _ hdata
  have hitems := congrArg (Json.member? "items") (Option.some.inj hdata)
  rw [hmember, hmember] at hitems
  exact Json.arr.inj (Option.some.inj hitems)

theorem exists_related {α β : Type} {R : α → α → Prop} {f : α → β} {l l' : List α}
    (h : List.Forall₂ R l l') (he : l.map f = l'.map f) {a : α} (ha : a ∈ l) :
    ∃ a' ∈ l', R a a' ∧ f a = f a' := by
  induction h with
  | nil => exact nomatch ha
  | @cons b b' l l' hR _ ih =>
    rw [List.map_cons, List.map_cons, List.cons.injEq] at he
    rcases List.mem_cons.mp ha with rfl | ha
    · exact ⟨b', List.mem_cons_self, hR, he.1⟩
    · obtain ⟨a', ha', hRa, hfa⟩ := ih he.2 ha
      exact ⟨a', List.mem_cons_of_mem _ ha', hRa, hfa⟩

theorem searchCondition_blind (env : Env) (keyword group : String) :
    TokenBlind (searchCondition env keyword group) := fun _ _ => rfl

/-- A list of lower ranks only hides the tokens. -/
theorem listUsers_hidden (s : Sess) (info : PageInfo) {p : User → Bool} (hp : TokenBlind p)
    {r : Int} {db db' : DB} (hsame : SameButTokens r db db')
    (hlow : ∀ u ∈ pageOf info p db, u.role < r) :
    ((listUsers s info p).run exec db').1.reply = ((listUsers s info p).run exec db).1.reply := by
  have hselect := hsame.select hp
  have hpage : List.Forall₂ (SameButToken r) (pageOf info p db) (pageOf info p db') :=
    forall₂_page (List.rel_reverse hselect) _ _
  have heq : pageOf info p db' = pageOf info p db := by
    generalize pageOf info p db = l at hpage hlow
    generalize pageOf info p db' = l' at hpage
    induction hpage with
    | nil => rfl
    | cons hR _ ih =>
      rw [hR.2 (hlow _ List.mem_cons_self), ih fun u hu => hlow u (List.mem_cons_of_mem _ hu)]
  rw [run_listUsers, run_listUsers, heq, hselect.length_eq]

/-! ### A change of one token -/

theorem exists_fresh_token (l : List User) : ∃ token : String, ∀ u ∈ l, u.accessToken ≠ some token := by
  have hinf : Infinite String := Infinite.of_injective
    (fun n : Nat => String.ofList (List.replicate n 'a')) (by
      intro m n h
      have hlist := congrArg String.toList h
      simpa using congrArg List.length hlist)
  obtain ⟨token, htoken⟩ := Infinite.exists_notMem_finset
    ((l.filterMap User.accessToken).toFinset)
  refine ⟨token, ?_⟩
  intro u hu he
  refine htoken (List.mem_toFinset.mpr (List.mem_filterMap.mpr ⟨u, hu, he⟩))

theorem exists_other_token (db : DB) (u : User) : ∃ token : Option String, token ≠ u.accessToken ∧
    ∀ x ∈ db.users, (token.isSome && token == x.accessToken) = false := by
  cases htoken : u.accessToken with
  | some t => exact ⟨none, (nomatch ·), fun x _ => rfl⟩
  | none =>
    obtain ⟨t, ht⟩ := exists_fresh_token db.users.rows
    refine ⟨some t, (nomatch ·), ?_⟩
    intro x hx
    have hne := ht x hx
    rw [Option.isSome_some, Bool.true_and, beq_eq_false_iff_ne]
    exact fun he => hne he.symm

theorem clash_setToken {a b : User} {token : Option String} (h : a.clash b = false)
    (hfresh : (token.isSome && token == b.accessToken) = false) :
    User.clash { a with accessToken := token } b = false := by
  unfold User.clash at h ⊢
  rw [Bool.or_eq_false_iff, Bool.or_eq_false_iff] at h ⊢
  exact ⟨⟨h.1.1, hfresh⟩, h.2⟩

/-- The database where one user has another token. -/
theorem exists_other_db {db : DB} {u : User} (hu : u ∈ db.users) {r : Int} (hr : r ≤ u.role) :
    ∃ db', SameButTokens r db db' ∧ ∀ u' ∈ db'.users, u'.id = u.id →
      u'.accessToken ≠ u.accessToken := by
  obtain ⟨token, hne, hfresh⟩ := exists_other_token db u
  have htouch : ∀ x : User, Table.touch (fun x => x.id == u.id)
      (fun x : User => { x with accessToken := token }) x
        = if x.id = u.id then { x with accessToken := token } else x := by
    intro x
    simp [Table.touch]
  obtain ⟨t, ht⟩ : ∃ t, db.users.update (fun x => x.id == u.id)
      (fun x => { x with accessToken := token }) = some t := by
    refine Table.update_isSome (fun _ => rfl) ?_
    intro a ha b hb hkey
    have hclash : a.clash b = false := by
      rcases Table.eq_or_apart ha hb with he | he
      · exact absurd (congrArg User.id he) hkey
      · exact he.2
    rw [htouch, htouch, User.clash_eq]
    by_cases hau : a.id = u.id
    · have hbu : b.id ≠ u.id := fun h => hkey (hau.trans h.symm)
      rw [if_pos hau, if_neg hbu]
      exact clash_setToken hclash (hfresh b hb)
    · rw [if_neg hau]
      by_cases hbu : b.id = u.id
      · rw [if_pos hbu, User.clash_comm]
        exact clash_setToken (by rw [User.clash_comm]; exact hclash) (hfresh a ha)
      · rw [if_neg hbu]
        exact hclash
  refine ⟨db.setUsers t, ⟨?_, Table.nextKey_update ht, rfl, rfl, rfl⟩, ?_⟩
  · show List.Forall₂ _ db.users.rows t.rows
    rw [Table.rows_update ht, List.forall₂_map_right_iff]
    refine List.forall₂_same.mpr ?_
    intro x hx
    rw [htouch]
    by_cases hxu : x.id = u.id
    · have he : x = u := Table.eq_of_key hx hu hxu
      rw [if_pos hxu]
      refine ⟨rfl, ?_⟩
      intro hlt
      rw [he] at hlt
      omega
    · rw [if_neg hxu]
      exact ⟨rfl, fun _ => rfl⟩
  · intro u' hu' hid
    obtain ⟨x, -, rfl⟩ := (Table.mem_update ht).mp hu'
    rw [htouch] at hid ⊢
    by_cases hxu : x.id = u.id
    · rw [if_pos hxu]
      exact hne
    · rw [if_neg hxu] at hid
      exact absurd hid hxu

/-- A list with somebody of equal or higher rank does not hide the tokens. -/
theorem listUsers_not_hidden (s : Sess) (info : PageInfo) {p : User → Bool} (hp : TokenBlind p)
    {r : Int} {db : DB} {u : User} (hu : u ∈ pageOf info p db) (hr : r ≤ u.role) :
    ∃ db', SameButTokens r db db' ∧
      ((listUsers s info p).run exec db').1.reply ≠ ((listUsers s info p).run exec db).1.reply := by
  have hmem : u ∈ db.users := mem_of_mem_pageOf hu
  obtain ⟨db', hsame, htoken⟩ := exists_other_db hmem hr
  refine ⟨db', hsame, ?_⟩
  intro he
  rw [run_listUsers, run_listUsers] at he
  have hlists := toJson_of_apiSuccess he
  rw [List.map_map, List.map_map] at hlists
  have hpage : List.Forall₂ (SameButToken r) (pageOf info p db) (pageOf info p db') :=
    forall₂_page (List.rel_reverse (hsame.select hp)) _ _
  obtain ⟨u', hu', hR, hjson⟩ := exists_related hpage hlists.symm hu
  have hmem' : u' ∈ db'.users := mem_of_mem_pageOf hu'
  have hid : u'.id = u.id := by rw [hR.1]
  exact htoken u' hmem' hid (token_of_toJson hjson).symm

/-! ### One account -/

/-- What `GetUser` answers about the row it finds. -/
def shown (ctx : Ctx) : Option User → Reply
  | none => .failure Err.recordNotFound.error
  | some row =>
    if outranked ctx.role row.role then .failure "无权获取同级或更高等级用户的信息"
    else .apiSuccess row.omitPassword.toJson

theorem run_getUser (ctx : Ctx) (s : Sess) {idParam : String} {id : Int}
    (hatoi : atoi idParam = (id, none)) (hid : id ≠ 0) (db : DB) :
    ((getUser ctx s idParam).run exec db).1.reply
      = shown ctx (db.users.find? (seen false fun u => u.id == id)) := by
  have hread : (getUserById id false).run exec db
      = ((found (db.users.find? (seen false fun u => u.id == id))).map User.omitPassword, db) := by
    unfold getUserById
    rw [if_neg hid, run_perform_bind]
    simp only [exec]
    cases db.users.find? (seen false fun u => u.id == id) <;> rfl
  unfold getUser
  rw [hatoi]
  dsimp only
  rw [Prog.run_bind, hread]
  cases db.users.find? (seen false fun u => u.id == id) with
  | none => rfl
  | some row =>
    have hrole : row.omitPassword.role = row.role := rfl
    simp only [found, Except.map, shown, hrole]
    by_cases hrank : outranked ctx.role row.role = true
    · rw [if_pos hrank, if_pos hrank]
      rfl
    · rw [if_neg hrank, if_neg hrank]
      rfl

/-- `GetUser` shows accounts of lower rank only, so it hides the tokens. -/
theorem getUser_hidden {ctx : Ctx} (hroot : ctx.role ≠ roleRootUser) (s : Sess) (idParam : String)
    {db db' : DB} (hsame : SameButTokens ctx.role db db') :
    ((getUser ctx s idParam).run exec db').1.reply = ((getUser ctx s idParam).run exec db).1.reply := by
  cases hatoi : atoi idParam with
  | mk id err =>
    cases err with
    | some e =>
      unfold getUser
      rw [hatoi]
      rfl
    | none =>
      by_cases hid : id = 0
      · unfold getUser getUserById
        rw [hatoi]
        dsimp only
        rw [if_pos hid]
        rfl
      rw [run_getUser ctx s hatoi hid, run_getUser ctx s hatoi hid]
      have hblind : ∀ u u', SameButToken ctx.role u u' →
          seen false (fun u => u.id == id) u = seen false (fun u => u.id == id) u' :=
        fun u u' hR => hR.blind (p := seen false fun u => u.id == id) fun _ _ => rfl
      unfold Table.find?
      rcases find?_forall₂ hblind hsame.users with ⟨h, h'⟩ | ⟨u, u', hR, h, h'⟩
      · rw [h, h']
      · rw [h, h']
        by_cases hrank : u.role < ctx.role
        · rw [hR.2 hrank]
        · -- both are refused alike
          have hrole : u'.role = u.role := by rw [hR.1]
          have houtranked : outranked ctx.role u.role = true := by
            unfold outranked
            rw [Bool.and_eq_true, decide_eq_true_eq, bne_iff_ne]
            exact ⟨by omega, hroot⟩
          unfold shown
          dsimp only
          rw [hrole, if_pos houtranked, if_pos houtranked]

/-! ### The three requests -/

/-- **The tokens of users of equal or higher rank are hidden exactly when no such
user is listed.** -/
theorem hidden_iff {ctx : Ctx} (hroot : ctx.role ≠ roleRootUser) (env : Env) (s : Sess)
    (q : ReadRequest) (db : DB) :
    Hidden env ctx s q db ↔ ∀ u ∈ listed env db q, u.role < ctx.role := by
  have hall : TokenBlind fun _ => true := fun _ _ => rfl
  constructor
  · intro hhidden u hu
    by_contra hrank
    have hr : ctx.role ≤ u.role := by omega
    cases q with
    | getAllUsers q =>
      obtain ⟨db', hsame, hne⟩ := listUsers_not_hidden s (getPageQuery q) hall hu hr
      exact hne (hhidden db' hsame)
    | searchUsers keyword group q =>
      obtain ⟨db', hsame, hne⟩ := listUsers_not_hidden s (getPageQuery q)
        (searchCondition_blind env keyword group) hu hr
      exact hne (hhidden db' hsame)
    | getUser idParam => exact nomatch hu
  · intro hlow db' hsame
    cases q with
    | getAllUsers q => exact listUsers_hidden s (getPageQuery q) hall hsame hlow
    | searchUsers keyword group q =>
      exact listUsers_hidden s (getPageQuery q) (searchCondition_blind env keyword group) hsame hlow
    | getUser idParam => exact getUser_hidden hroot s idParam hsame

/-! ### An administrator lists the users -/

/-- Root, with an access token. -/
def root : User :=
  { id := 1, username := "root", role := 100, status := 1, accessToken := some "secret" }

/-- Bob, of a lower role than the administrator, with one of his own. -/
def bob : User :=
  { id := 2, username := "bob", role := 1, status := 1, affCode := "b", accessToken := some "own" }

def administrator : Ctx := { Ctx.plain 0 with id := 3, role := 10 }

def twoUsers : DB where
  users := Table.pair root bob (by decide)
  twoFAs := Table.empty
  backupCodes := Table.empty
  passkeys := Table.empty

/-- A search that lists Bob alone hides the token of root. -/
theorem hidden_iff_bob :
    (listed Env.plain twoUsers (.searchUsers "2" "" {})).map User.username = ["bob"] ∧
      Hidden Env.plain administrator (Sess.ofCookie {}) (.searchUsers "2" "" {}) twoUsers :=
  ⟨by decide, (hidden_iff (by decide) Env.plain (Sess.ofCookie {}) _ twoUsers).mpr (by decide)⟩

def rootDB : DB where
  users := Table.single root
  twoFAs := Table.empty
  backupCodes := Table.empty
  passkeys := Table.empty

/-- **`GetAllUsers` shows an administrator of role 10 the token of root.** -/
theorem getAllUsers_shows_root :
    ¬ Hidden Env.plain administrator (Sess.ofCookie {}) (.getAllUsers {}) rootDB := by
  intro hhidden
  have hlisted : root ∈ pageOf (getPageQuery {}) (fun _ => true) rootDB := by decide
  have hrank : (10 : Int) ≤ root.role := by decide
  obtain ⟨db', hsame, hne⟩ := listUsers_not_hidden (Sess.ofCookie {}) (getPageQuery {})
    (p := fun _ => true) (fun _ _ => rfl) hlisted hrank
  exact hne (hhidden db' hsame)

end AuthGateway.TokenLeak
