import AuthGateway.Lib.Runs
import AuthGateway.ModuleOptions

/-!
# The passkey settings and the server address

`GetPasskeySettings` derives an RPID and the origins from `ServerAddress` where
none are configured, and keeps what it derived in the struct of the
configuration.  So the first call with an address that yields something decides
for the rest of the process.  **A call answers with what the current address
yields exactly when that first address yields the same** (`present_iff`).
-/

namespace AuthGateway.PasskeyAddress

open Common Model Setting GoString ModuleOptions

/-! ### GetPasskeySettings -/

/-- A text of the registered struct. -/
def passkeyText (s : Settings) (key : String) : String :=
  match field? s.modules "passkey" key with
  | some (.string text) => text
  | _ => ""

def setPasskeyText (key value : String) (s : Settings) : Settings :=
  { s with modules := setField s.modules "passkey" key (.string value) }

/-- The RPID of an address; `urlHost` is the host that `url.Parse` finds. -/
def rpidOf (urlHost : String → Option String) (serverAddress : String) : String :=
  let serverAddr := trimSpace serverAddress
  match urlHost serverAddr with
  | some host => if host ≠ "" then host else serverAddr
  | none => serverAddr

/-- `GetPasskeySettings`: the settings afterwards, the struct of which is
returned. -/
def getPasskeySettings (urlHost : String → Option String) (s : Settings) : Settings :=
  let s :=
    if passkeyText s "rp_id" = "" ∧ s.texts .serverAddress ≠ "" then
      setPasskeyText "rp_id" (rpidOf urlHost (s.texts .serverAddress)) s
    else s
  if passkeyText s "origins" = "" ∨ passkeyText s "origins" = "[]" then
    setPasskeyText "origins" (s.texts .serverAddress) s
  else s

/-! ### What is derived -/

/-- The RPID that an address yields where none is configured. -/
def derivedRPID (urlHost : String → Option String) (serverAddress : String) : String :=
  if serverAddress = "" then "" else rpidOf urlHost serverAddress

/-- The struct returned has what the current address yields. -/
def Present (urlHost : String → Option String) (s : Settings) : Prop :=
  passkeyText (getPasskeySettings urlHost s) "rp_id"
      = derivedRPID urlHost (s.texts .serverAddress) ∧
    passkeyText (getPasskeySettings urlHost s) "origins" = s.texts .serverAddress

/-- The struct has its two texts. -/
def Registered (s : Settings) : Prop :=
  (∃ rpid, field? s.modules "passkey" "rp_id" = some (.string rpid)) ∧
    ∃ origins, field? s.modules "passkey" "origins" = some (.string origins)

theorem passkeyText_set {s : Settings} {key : String}
    (h : ∃ text, field? s.modules "passkey" key = some (.string text)) (value k : String) :
    passkeyText (setPasskeyText key value s) k = if k = key then value else passkeyText s k := by
  obtain ⟨text, htext⟩ := h
  unfold passkeyText setPasskeyText
  rw [field?_setField]
  by_cases hk : k = key
  · subst hk
    simp [htext]
  · simp [hk]

theorem Registered.set {s : Settings} (h : Registered s) (key value : String) :
    Registered (setPasskeyText key value s) := by
  obtain ⟨⟨rpid, hrpid⟩, origins, horigins⟩ := h
  refine ⟨?_, ?_⟩
  · unfold setPasskeyText
    rw [field?_setField, hrpid]
    split
    · exact ⟨value, rfl⟩
    · exact ⟨rpid, rfl⟩
  · unfold setPasskeyText
    rw [field?_setField, horigins]
    split
    · exact ⟨value, rfl⟩
    · exact ⟨origins, rfl⟩

/-- An origins text that counts as none. -/
def Unset (origins : String) : Prop := origins = "" ∨ origins = "[]"

instance (origins : String) : Decidable (Unset origins) := inferInstanceAs (Decidable (_ ∨ _))

section Call

variable (urlHost : String → Option String) {s : Settings}

theorem texts_call : (getPasskeySettings urlHost s).texts = s.texts := by
  unfold getPasskeySettings
  dsimp only
  split <;> split <;> rfl

theorem Registered.call (h : Registered s) : Registered (getPasskeySettings urlHost s) := by
  have hlast : ∀ {s' : Settings}, Registered s' →
      Registered (if passkeyText s' "origins" = "" ∨ passkeyText s' "origins" = "[]" then
        setPasskeyText "origins" (s'.texts .serverAddress) s' else s') := by
    intro s' h'
    split
    · exact h'.set _ _
    · exact h'
  unfold getPasskeySettings
  dsimp only
  split
  · exact hlast (h.set _ _)
  · exact hlast h

/-- **What a call leaves**: the text that was there, or what the address yields. -/
theorem rpid_call (h : Registered s) : passkeyText (getPasskeySettings urlHost s) "rp_id"
    = if passkeyText s "rp_id" = "" then derivedRPID urlHost (s.texts .serverAddress)
      else passkeyText s "rp_id" := by
  have hset : ∀ {s : Settings} (_ : Registered s) (value : String),
      passkeyText (setPasskeyText "origins" value s) "rp_id" = passkeyText s "rp_id" := by
    intro s h value
    rw [passkeyText_set h.2, if_neg (by decide)]
  unfold getPasskeySettings derivedRPID
  by_cases hrpid : passkeyText s "rp_id" = ""
  · by_cases haddress : s.texts .serverAddress = ""
    · simp only [hrpid, haddress, true_and, ne_eq, not_true, if_false, if_true]
      split
      · rw [hset h, hrpid]
      · exact hrpid
    · simp only [hrpid, haddress, true_and, ne_eq, not_false_iff, if_true, if_false]
      split
      · rw [hset (h.set _ _), passkeyText_set h.1, if_pos rfl]
      · rw [passkeyText_set h.1, if_pos rfl]
  · simp only [hrpid, false_and, if_false]
    split
    · exact hset h _
    · rfl

theorem origins_call (h : Registered s) : passkeyText (getPasskeySettings urlHost s) "origins"
    = if Unset (passkeyText s "origins") then s.texts .serverAddress
      else passkeyText s "origins" := by
  have hset : ∀ value, passkeyText (setPasskeyText "rp_id" value s) "origins"
      = passkeyText s "origins" := by
    intro value
    rw [passkeyText_set h.1, if_neg (by decide)]
  have hfirst : ∀ {s' : Settings}, Registered s' → s'.texts = s.texts →
      passkeyText s' "origins" = passkeyText s "origins" →
      passkeyText (if passkeyText s' "origins" = "" ∨ passkeyText s' "origins" = "[]" then
        setPasskeyText "origins" (s'.texts .serverAddress) s' else s') "origins"
        = if Unset (passkeyText s "origins") then s.texts .serverAddress
          else passkeyText s "origins" := by
    intro s' h' htexts horigins
    by_cases hunset : Unset (passkeyText s "origins")
    · have hcond : passkeyText s' "origins" = "" ∨ passkeyText s' "origins" = "[]" := by
        rw [horigins]
        exact hunset
      rw [if_pos hcond, if_pos hunset, passkeyText_set h'.2, if_pos rfl, htexts]
    · have hcond : ¬ (passkeyText s' "origins" = "" ∨ passkeyText s' "origins" = "[]") := by
        rw [horigins]
        exact hunset
      rw [if_neg hcond, if_neg hunset, horigins]
  unfold getPasskeySettings
  dsimp only
  split
  · exact hfirst (h.set _ _) rfl (hset _)
  · exact hfirst h rfl rfl

end Call

/-! ### Runs -/

/-- An option that is written, under any key, or a call. -/
inductive Act
  | updateOption (key value : String)
  | getPasskeySettings

def step (urlHost : String → Option String) (s : Settings) : Act → Settings
  | .updateOption key value => updateOptionMap key value s
  | .getPasskeySettings => PasskeyAddress.getPasskeySettings urlHost s

/-- The address after an action. -/
def addressAfter (address : String) : Act → String
  | .updateOption key value => if key = "ServerAddress" then value else address
  | .getPasskeySettings => address

/-- The addresses that the calls of a run find in force, oldest first. -/
def called (address : String) : List Act → List String
  | [] => []
  | .updateOption key value :: acts =>
    called (addressAfter address (.updateOption key value)) acts
  | .getPasskeySettings :: acts => address :: called address acts

/-- The first of the addresses called with that yields an RPID yields the one
that `now` yields, and the first that is set at all is `now`. -/
def Steady (urlHost : String → Option String) (addresses : List String) (now : String) : Prop :=
  (∀ first, addresses.find? (fun a => decide (derivedRPID urlHost a ≠ "")) = some first →
      derivedRPID urlHost first = derivedRPID urlHost now) ∧
    ∀ first, addresses.find? (fun a => decide (¬ Unset a)) = some first → first = now

section Run

variable (urlHost : String → Option String) {s : Settings}

theorem Registered.step (h : Registered s) (a : Act) : Registered (step urlHost s a) := by
  cases a with
  | updateOption key value =>
    unfold Registered PasskeyAddress.step
    rw [updateOptionMap_modules]
    exact h
  | getPasskeySettings => exact h.call urlHost

theorem address_step (s : Settings) (a : Act) :
    (step urlHost s a).texts .serverAddress = addressAfter (s.texts .serverAddress) a := by
  cases a with
  | updateOption key value => exact updateOptionMap_text key value s .serverAddress
  | getPasskeySettings => exact congrFun (texts_call urlHost) _

theorem passkeyText_update (key value k : String) (s : Settings) :
    passkeyText (updateOptionMap key value s) k = passkeyText s k := by
  unfold passkeyText
  rw [updateOptionMap_modules]

/-- **The RPID stays**, or is that of the first address that yields one. -/
theorem rpid_after (acts : List Act) (h : Registered s) :
    passkeyText (Runs.after (step urlHost) s acts) "rp_id"
      = if passkeyText s "rp_id" = "" then
          (((called (s.texts .serverAddress) acts).find?
            fun a => decide (derivedRPID urlHost a ≠ "")).map (derivedRPID urlHost)).getD ""
        else passkeyText s "rp_id" := by
  induction acts generalizing s with
  | nil =>
    by_cases hrpid : passkeyText s "rp_id" = "" <;> simp [called, hrpid]
  | cons a acts ih =>
    have hrest := ih (h.step urlHost a)
    rw [address_step] at hrest
    show passkeyText (Runs.after (step urlHost) (step urlHost s a) acts) "rp_id" = _
    rw [hrest]
    cases a with
    | updateOption key value =>
      have hsame : passkeyText (step urlHost s (.updateOption key value)) "rp_id"
          = passkeyText s "rp_id" := passkeyText_update key value "rp_id" s
      rw [hsame]
      rfl
    | getPasskeySettings =>
      have hcall : passkeyText (step urlHost s .getPasskeySettings) "rp_id" = _ :=
        rpid_call urlHost h
      rw [hcall]
      by_cases hrpid : passkeyText s "rp_id" = ""
      · by_cases hderived : derivedRPID urlHost (s.texts .serverAddress) = ""
        · simp [called, addressAfter, hrpid, hderived]
        · simp [called, hrpid, hderived]
      · simp [hrpid]

/-- Origins that are set stay. -/
theorem origins_kept (acts : List Act) (h : Registered s) (hset : ¬ Unset (passkeyText s "origins")) :
    passkeyText (Runs.after (step urlHost) s acts) "origins" = passkeyText s "origins" := by
  induction acts generalizing s with
  | nil => rfl
  | cons a acts ih =>
    have hsame : passkeyText (step urlHost s a) "origins" = passkeyText s "origins" := by
      cases a with
      | updateOption key value => exact passkeyText_update key value "origins" s
      | getPasskeySettings => exact (origins_call urlHost h).trans (if_neg hset)
    show passkeyText (Runs.after (step urlHost) (step urlHost s a) acts) "origins" = _
    rw [ih (h.step urlHost a) (by rw [hsame]; exact hset), hsame]

/-- **The origins are the first address called with that is set**, or unset. -/
theorem origins_after (acts : List Act) (h : Registered s)
    (hunset : Unset (passkeyText s "origins")) :
    (∀ first, (called (s.texts .serverAddress) acts).find? (fun a => decide (¬ Unset a))
        = some first → passkeyText (Runs.after (step urlHost) s acts) "origins" = first) ∧
      ((called (s.texts .serverAddress) acts).find? (fun a => decide (¬ Unset a)) = none →
        Unset (passkeyText (Runs.after (step urlHost) s acts) "origins")) := by
  induction acts generalizing s with
  | nil => exact ⟨(fun first hfirst => nomatch hfirst), fun _ => hunset⟩
  | cons a acts ih =>
    have hrest := h.step urlHost a
    have haddress := address_step urlHost s a
    cases a with
    | updateOption key value =>
      have hsame : passkeyText (step urlHost s (.updateOption key value)) "origins"
          = passkeyText s "origins" := passkeyText_update key value "origins" s
      have hih := ih hrest (by rw [hsame]; exact hunset)
      rw [haddress] at hih
      exact hih
    | getPasskeySettings =>
      have hcall : passkeyText (step urlHost s .getPasskeySettings) "origins"
          = s.texts .serverAddress := (origins_call urlHost h).trans (if_pos hunset)
      by_cases hset : Unset (s.texts .serverAddress)
      · have hih := ih hrest (by rw [hcall]; exact hset)
        rw [haddress] at hih
        show (∀ first, _ → passkeyText (Runs.after (step urlHost)
          (step urlHost s .getPasskeySettings) acts) "origins" = first) ∧ (_ → Unset (passkeyText
            (Runs.after (step urlHost) (step urlHost s .getPasskeySettings) acts) "origins"))
        simpa [called, hset, addressAfter] using hih
      · have hkept := origins_kept urlHost acts hrest (by rw [hcall]; exact hset)
        rw [hcall] at hkept
        refine ⟨fun first hfirst => ?_, fun hnone => ?_⟩
        · have hfirst' : s.texts .serverAddress = first := by simpa [called, hset] using hfirst
          exact hkept.trans hfirst'
        · simp [called, hset] at hnone

/-- A call at the end of a run. -/
theorem present_of_registered (acts : List Act) (h : Registered s)
    (hrpid : passkeyText s "rp_id" = "") (hunset : Unset (passkeyText s "origins")) :
    Present urlHost (Runs.after (step urlHost) s acts) ↔
      Steady urlHost (called (s.texts .serverAddress) acts)
        (acts.foldl addressAfter (s.texts .serverAddress)) := by
  have hafter : Registered (Runs.after (step urlHost) s acts) ∧
      (Runs.after (step urlHost) s acts).texts .serverAddress
        = acts.foldl addressAfter (s.texts .serverAddress) := by
    clear hrpid hunset
    induction acts generalizing s with
    | nil => exact ⟨h, rfl⟩
    | cons a acts ih =>
      have hih := ih (h.step urlHost a)
      rw [address_step] at hih
      exact hih
  obtain ⟨hregistered, haddress⟩ := hafter
  have hr := rpid_after urlHost acts h
  rw [if_pos hrpid] at hr
  obtain ⟨hfirst, hnone⟩ := origins_after urlHost acts h hunset
  unfold Present Steady
  rw [rpid_call urlHost hregistered, origins_call urlHost hregistered, haddress]
  refine and_congr ?_ ?_
  · rw [hr]
    cases hfind : (called (s.texts .serverAddress) acts).find?
        fun a => decide (derivedRPID urlHost a ≠ "") with
    | none => simp
    | some first =>
      have hderived : derivedRPID urlHost first ≠ "" := by simpa using List.find?_some hfind
      simp [hderived]
  · cases hfind : (called (s.texts .serverAddress) acts).find? fun a => decide (¬ Unset a) with
    | none => simp [hnone hfind]
    | some first =>
      have hset : ¬ Unset first := by simpa using List.find?_some hfind
      simp [hfirst first hfind, hset]

end Run

/-- **When the settings are those of the present**: after every run of updates and
calls since the process started, whatever the table of options held. -/
theorem present_iff (urlHost : String → Option String) (rows : List (Σ _ : String, String))
    (acts : List Act) :
    Present urlHost (Runs.after (step urlHost) (restarted rows) acts) ↔
      Steady urlHost (called ((restarted rows).texts .serverAddress) acts)
        (acts.foldl addressAfter ((restarted rows).texts .serverAddress)) := by
  have hmodules := modules_restarted rows
  refine present_of_registered urlHost acts ⟨⟨"", ?_⟩, "", ?_⟩ ?_ (Or.inl ?_)
  · rw [hmodules]
    rfl
  · rw [hmodules]
    rfl
  · unfold passkeyText
    rw [hmodules]
    rfl
  · unfold passkeyText
    rw [hmodules]
    rfl

/-- `url.Parse` on two addresses. -/
def twoHosts (address : String) : Option String :=
  if address = "http://localhost:3000" then some "localhost:3000"
  else if address = "https://gateway.example" then some "gateway.example"
  else none

/-- A page is loaded before the address is set. -/
def earlyCall : List Act :=
  [.getPasskeySettings, .updateOption "ServerAddress" "https://gateway.example"]

/-- The RPID stays that of the address that was in force then. -/
theorem early_call_stale :
    ¬ Present twoHosts (Runs.after (step twoHosts) (restarted []) earlyCall) := by
  rw [present_of_registered twoHosts earlyCall ⟨⟨"", rfl⟩, "", rfl⟩ rfl (Or.inl rfl)]
  intro h
  have hstale := h.1 "http://localhost:3000" (by decide)
  exact absurd hstale (by decide)

end AuthGateway.PasskeyAddress
