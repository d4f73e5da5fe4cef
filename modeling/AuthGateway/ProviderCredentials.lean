import AuthGateway.Controller.Option
import AuthGateway.Lib.Runs

/-!
# Providers and their credentials

A provider that is switched on is to have its credential, and the restriction of
e-mail domains a domain: `Backed`.  The handler looks at this when the switch is
turned on, not when the credential is cleared, and it takes a whitelist of one
blank entry for a whitelist.  **Every state of a run is backed exactly when every
step is careful** (`backed_iff`).
-/

namespace AuthGateway.ProviderCredentials

open Common GoString Model Controller Replay

/-! ### The property -/

inductive Provider
  | gitHub
  | linuxDO
  | weChat
  | turnstile
  | telegram

namespace Provider

def flag : Provider → Flag
  | gitHub => .gitHubOAuthEnabled
  | linuxDO => .linuxDOOAuthEnabled
  | weChat => .weChatAuthEnabled
  | turnstile => .turnstileCheckEnabled
  | telegram => .telegramOAuthEnabled

def credential : Provider → Text
  | gitHub => .gitHubClientId
  | linuxDO => .linuxDOClientId
  | weChat => .weChatServerAddress
  | turnstile => .turnstileSiteKey
  | telegram => .telegramBotToken

theorem flag_key_ne (q : Provider) (t : Text) : q.flag.key ≠ t.key := by
  cases q <;> cases t <;> decide

theorem credential_key_ne (q : Provider) (f : Flag) : q.credential.key ≠ f.key := by
  cases q <;> cases f <;> decide

end Provider

/-- Some domain of the list is not blank. -/
def Names (whitelist : List String) : Prop := ∃ domain ∈ whitelist, trimSpace domain ≠ ""

/-- Whoever is switched on has a credential; a restriction names a domain. -/
structure BackedBy (flags : Flag → Bool) (texts : Text → String) (whitelist : List String) :
    Prop where
  provider : ∀ q : Provider, flags q.flag = true → texts q.credential ≠ ""
  restriction : flags .emailDomainRestrictionEnabled = true → Names whitelist

/-- **A provider is never enabled without its credential.** -/
def Backed (p : Process) : Prop :=
  BackedBy p.settings.flags p.settings.texts p.settings.emailDomainWhitelist

/-! ### The system -/

inductive Act
  | updateOption (req : Option OptionUpdateRequest)
  | reload

def step (p : Process) : Act → Process
  | .updateOption req => (Controller.updateOption req p).2
  | .reload => loadOptionsFromDatabase p

/-- The process before it loads the table for the first time. -/
def start (store : OptionStore) : Process := ⟨freshOptionMap Settings.default, store⟩

/-! ### The condition -/

/-- The write of an option leaves no provider that is switched on without a
credential, and no restriction without a domain. -/
structure CarefulWrite (s : Settings) (key value : String) : Prop where
  clear : ∀ q : Provider, key = q.credential.key → value = "" → s.flags q.flag = false
  unlist : key = Assigned.emailDomainWhitelist.key → ¬ Names (split ',' value) →
    s.flags .emailDomainRestrictionEnabled = false
  restrict : key = Flag.emailDomainRestrictionEnabled.key → value = "true" →
    Names s.emailDomainWhitelist

/-- The rows of the table, over what is in memory, are backed. -/
def CarefulRows (s : Settings) (t : OptionTable) : Prop :=
  BackedBy (fun f => ((t.lookup f.key).map (· == "true")).getD (s.flags f))
    (fun x => (t.lookup x.key).getD (s.texts x))
    (((t.lookup Assigned.emailDomainWhitelist.key).map (split ',')).getD s.emailDomainWhitelist)

/-- The step is careful: a write that the handler lets through, or a reload that
reads the table. -/
def Careful (p : Process) : Act → Prop
  | .updateOption req => ∀ option, req = some option →
    checkOption p.settings option.key option.value.print = none →
      CarefulWrite p.settings option.key option.value.print
  | .reload => p.options.outages 0 = none → CarefulRows p.settings p.options.table

/-! ### One step -/

/-- The handler refuses to switch on a provider without a credential. -/
theorem credential_of_checkOption {s : Settings} {q : Provider}
    (h : checkOption s q.flag.key "true" = none) : s.texts q.credential ≠ "" := by
  intro hempty
  cases q <;> simp [checkOption, Provider.flag, Flag.key, Provider.credential] at h hempty <;>
    exact h hempty

theorem backed_write {s : Settings} {key value : String} (hcheck : checkOption s key value = none)
    (h : BackedBy s.flags s.texts s.emailDomainWhitelist) :
    BackedBy (updateOptionMap key value s).flags (updateOptionMap key value s).texts
      (updateOptionMap key value s).emailDomainWhitelist ↔ CarefulWrite s key value := by
  constructor
  · intro h'
    refine ⟨fun q hkey hvalue => ?_, fun hkey hnames => ?_, fun hkey hvalue => ?_⟩
    · have hq := h'.provider q
      rw [updateOptionMap_flag, updateOptionMap_text, if_pos hkey,
        if_neg (by rw [hkey]; exact q.credential_key_ne _)] at hq
      exact Bool.eq_false_iff.mpr fun hon => hq hon hvalue
    · have hr := h'.restriction
      rw [updateOptionMap_flag, updateOptionMap_emailDomainWhitelist, if_pos hkey,
        if_neg (by rw [hkey]; decide)] at hr
      exact Bool.eq_false_iff.mpr fun hon => hnames (hr hon)
    · have hr := h'.restriction
      rw [updateOptionMap_flag, updateOptionMap_emailDomainWhitelist, if_pos hkey,
        if_neg (by rw [hkey]; decide), hvalue] at hr
      exact hr rfl
  · intro hcareful
    refine ⟨fun q => ?_, ?_⟩
    · rw [updateOptionMap_flag, updateOptionMap_text]
      by_cases hflag : key = q.flag.key
      · rw [if_pos hflag, if_neg (by rw [hflag]; exact q.flag_key_ne _)]
        intro hon
        rw [hflag, beq_iff_eq.mp hon] at hcheck
        exact credential_of_checkOption hcheck
      · rw [if_neg hflag]
        by_cases hcredential : key = q.credential.key
        · rw [if_pos hcredential]
          intro hon hvalue
          rw [hcareful.clear q hcredential hvalue] at hon
          exact Bool.false_ne_true hon
        · rw [if_neg hcredential]
          exact h.provider q
    · rw [updateOptionMap_flag, updateOptionMap_emailDomainWhitelist]
      by_cases hflag : key = Flag.emailDomainRestrictionEnabled.key
      · rw [if_pos hflag, if_neg (by rw [hflag]; decide)]
        exact fun hon => hcareful.restrict hflag (beq_iff_eq.mp hon)
      · rw [if_neg hflag]
        by_cases hlist : key = Assigned.emailDomainWhitelist.key
        · rw [if_pos hlist]
          intro hon
          by_contra hnames
          rw [hcareful.unlist hlist hnames] at hon
          exact Bool.false_ne_true hon
        · rw [if_neg hlist]
          exact h.restriction

/-- What the variables are after a reload. -/
theorem backed_replay (s : Settings) (t : OptionTable) :
    BackedBy (replay updateOptionMap t.entries s).flags (replay updateOptionMap t.entries s).texts
      (replay updateOptionMap t.entries s).emailDomainWhitelist ↔ CarefulRows s t := by
  have hflags : (replay updateOptionMap t.entries s).flags
      = fun f => ((t.lookup f.key).map (· == "true")).getD (s.flags f) := by
    funext f
    refine replay_read (fun s : Settings => s.flags f) _ ?_ ?_ t.nodupKeys s
    · intro v s
      rw [updateOptionMap_flag, if_pos rfl]
    · intro k v s hk
      rw [updateOptionMap_flag, if_neg hk]
  have htexts : (replay updateOptionMap t.entries s).texts
      = fun x => (t.lookup x.key).getD (s.texts x) := by
    funext x
    have h : (replay updateOptionMap t.entries s).texts x
        = ((t.entries.dlookup x.key).map id).getD (s.texts x) := by
      refine replay_read (fun s : Settings => s.texts x) id ?_ ?_ t.nodupKeys s
      · intro v s
        rw [updateOptionMap_text, if_pos rfl]
        rfl
      · intro k v s hk
        rw [updateOptionMap_text, if_neg hk]
    rw [Option.map_id, id] at h
    exact h
  have hlist : (replay updateOptionMap t.entries s).emailDomainWhitelist
      = ((t.lookup Assigned.emailDomainWhitelist.key).map (split ',')).getD
          s.emailDomainWhitelist := by
    refine replay_read (fun s : Settings => s.emailDomainWhitelist) _ ?_ ?_ t.nodupKeys s
    · intro v s
      rw [updateOptionMap_emailDomainWhitelist]
      exact if_pos rfl
    · intro k v s hk
      rw [updateOptionMap_emailDomainWhitelist]
      exact if_neg hk
  rw [hflags, htexts, hlist]
  rfl

theorem backed_step {p : Process} (h : Backed p) (a : Act) : Backed (step p a) ↔ Careful p a := by
  cases a with
  | updateOption req =>
    unfold step Careful Controller.updateOption
    cases req with
    | none => exact ⟨fun _ option ho => (by cases ho), fun _ => h⟩
    | some option =>
      dsimp only
      cases hcheck : checkOption p.settings option.key option.value.print with
      | some msg =>
        refine ⟨fun _ o ho hnone => ?_, fun _ => h⟩
        obtain rfl := Option.some.inj ho
        rw [hcheck] at hnone
        cases hnone
      | none =>
        have hwrite := backed_write hcheck h
        refine ⟨fun h' o ho _ => ?_, fun hcareful => ?_⟩
        · obtain rfl := Option.some.inj ho
          exact hwrite.mp h'
        · exact hwrite.mpr (hcareful option rfl hcheck)
  | reload =>
    unfold step Careful loadOptionsFromDatabase
    rw [performOption, Prog.run_perform, OptionStore.exec]
    cases p.options.outages 0 with
    | some e => exact ⟨fun _ hnone => (by cases hnone), fun _ => h⟩
    | none =>
      have hreplay := backed_replay p.settings p.options.table
      exact ⟨fun h' _ => hreplay.mp h', fun hcareful => hreplay.mpr (hcareful rfl)⟩

/-! ### Runs -/

theorem backed_start (store : OptionStore) : Backed (start store) := by
  refine ⟨fun q hon => ?_, fun hon => nomatch hon⟩
  cases q <;> exact nomatch hon

/-- **Every state of a run is backed exactly when every step of it is careful.** -/
theorem backed_iff (store : OptionStore) (acts : List Act) :
    (∀ pre post, acts = pre ++ post → Backed (Runs.after step (start store) pre)) ↔
      Runs.Always (fun pre a => Careful (Runs.after step (start store) pre) a) acts := by
  constructor
  · intro h pre a post he
    have hbefore := h pre (a :: post) he
    have hafter := h (pre ++ [a]) post (by rw [he, List.append_assoc]; rfl)
    rw [Runs.after_snoc] at hafter
    exact (backed_step hbefore a).mp hafter
  · intro h pre post he
    have hpre : Runs.Always (fun pre a => Careful (Runs.after step (start store) pre) a) pre := by
      intro p a q hp
      refine h p a (q ++ post) ?_
      rw [he, hp, List.append_assoc]
      rfl
    refine Runs.run_induction (P := fun acts => Backed (Runs.after step (start store) acts))
      (backed_start store) ?_ pre hpre
    intro acts a _ hbacked hcareful
    rw [Runs.after_snoc]
    exact (backed_step hbacked a).mpr hcareful

/-! ### A bot without a token -/

def put (key value : String) : Act := .updateOption (some ⟨key, .string value⟩)

/-- The token is set, Telegram is switched on, and the token is cleared. -/
def clearedToken : List Act :=
  [put "TelegramBotToken" "secret", put "TelegramOAuthEnabled" "true", put "TelegramBotToken" ""]

/-- **The credential of a provider that is on can be cleared.** -/
theorem telegram_without_token :
    ¬ ∀ pre post, clearedToken = pre ++ post →
      Backed (Runs.after step (start ⟨∅, fun _ => none⟩) pre) := by
  intro h
  have hbacked := h clearedToken [] (List.append_nil _).symm
  exact hbacked.provider .telegram (by decide) (by decide)

end AuthGateway.ProviderCredentials
