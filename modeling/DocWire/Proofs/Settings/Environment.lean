import DocWire.Proofs.Settings.Precedence

/-!
# What an environment changes

The variables of an environment are put over settings one after another, and only the last of them can
be refused. What the others gave stays in the settings then. Main statement: `applyEnvironment_outcome`.
-/
set_option autoImplicit false

namespace DocWire.Settings

/-- Settings before and after an environment: what a variable gives has taken the place of what was
there, and all else is as it was. -/
structure Overridden (env : Environment) (timeout? : Option Nat) (before after : Settings) : Prop where
  serverUrl : after.serverUrl = (env "NEXUSRPC_URL").getD before.serverUrl
  database : after.database = (env "NEXUSRPC_DATABASE").getD before.database
  timeoutMs : after.timeoutMs = timeout?.getD before.timeoutMs
  logDir : after.logDir = before.logDir
  logLevel : after.logLevel = before.logLevel

variable {env : Environment} {timeout? : Option Nat} {s s' : Settings}

/-- Settings with what the variables give, the time-out having been read. -/
def overridden (s : Settings) (env : Environment) (timeout? : Option Nat) : Settings :=
  { (s.withServerUrl (env "NEXUSRPC_URL")).withDatabase (env "NEXUSRPC_DATABASE") with
    timeoutMs := timeout?.getD s.timeoutMs }

theorem overridden_iff : Overridden env timeout? s s' ↔ s.overridden env timeout? = s' := by
  constructor
  · intro h
    obtain ⟨url, database, timeout, dir, level⟩ := s'
    have hurl : url = _ := h.serverUrl
    have hdatabase : database = _ := h.database
    have htimeout : timeout = _ := h.timeoutMs
    have hdir : dir = _ := h.logDir
    have hlevel : level = _ := h.logLevel
    rw [hurl, hdatabase, htimeout, hdir, hlevel]
    rfl
  · rintro rfl
    exact ⟨rfl, rfl, rfl, rfl, rfl⟩

/-- The time-out decides alone whether there is an error; it is the other two variables that have been
put over the settings by then. -/
theorem applyEnvironment_eq (env : Environment) (s : Settings) :
    s.applyEnvironment env =
      match readTimeout (env "NEXUSRPC_TIMEOUT_MS") with
      | .ok timeout? => (.ok (), s.overridden env timeout?)
      | .error e => (.error e, s.overridden env none) := by
  unfold applyEnvironment readTimeout
  cases env "NEXUSRPC_TIMEOUT_MS" with
  | none => rfl
  | some text =>
    dsimp only
    cases IntegerWidth.unsigned64.read? text with
    | none => rfl
    | some n => rfl

theorem applyEnvironment_eq_ok_iff :
    s.applyEnvironment env = (.ok (), s') ↔
      ∃ timeout?, GivenTimeout (env "NEXUSRPC_TIMEOUT_MS") timeout? ∧ Overridden env timeout? s s' := by
  simp only [applyEnvironment_eq, ← readTimeout_eq_ok_iff, overridden_iff]
  cases readTimeout (env "NEXUSRPC_TIMEOUT_MS") with
  | error e => simp
  | ok timeout? => simp

theorem applyEnvironment_eq_error_iff {e : Failure} :
    s.applyEnvironment env = (.error e, s') ↔
      RefusedTimeout (env "NEXUSRPC_TIMEOUT_MS") e ∧ Overridden env none s s' := by
  simp only [applyEnvironment_eq, ← readTimeout_eq_error_iff, overridden_iff]
  cases readTimeout (env "NEXUSRPC_TIMEOUT_MS") with
  | error e => simp
  | ok timeout? => simp

theorem overridden_self_iff :
    Overridden env none s s ↔
      (∀ url, env "NEXUSRPC_URL" = some url → url = s.serverUrl) ∧
      ∀ database, env "NEXUSRPC_DATABASE" = some database → database = s.database := by
  have hgiven : ∀ (given? : Option String) (present : String),
      present = given?.getD present ↔ ∀ given, given? = some given → given = present := by
    intro given? present
    cases given? with
    | none => simp
    | some given => simp [eq_comm]
  rw [← hgiven, ← hgiven]
  constructor
  · intro h
    exact ⟨h.serverUrl, h.database⟩
  · rintro ⟨hurl, hdatabase⟩
    exact ⟨hurl, hdatabase, rfl, rfl, rfl⟩

/-- An environment whose time-out is unset or spells a number is put over the settings: those whose
variables are set have their values, the others are as they were. Any other time-out is refused with an
error that quotes it. The time-out and the settings for the log are as they were then, but the server's
address and the database have been taken over already: the settings are left as they were exactly if the
environment gives nothing new for these two. -/
theorem applyEnvironment_outcome (env : Environment) (s : Settings) :
    (∀ s', s.applyEnvironment env = (.ok (), s') ↔
      ∃ timeout?, GivenTimeout (env "NEXUSRPC_TIMEOUT_MS") timeout? ∧ Overridden env timeout? s s') ∧
    (∀ e s', s.applyEnvironment env = (.error e, s') ↔
      RefusedTimeout (env "NEXUSRPC_TIMEOUT_MS") e ∧ Overridden env none s s') ∧
    ∀ e, s.applyEnvironment env = (.error e, s) ↔
      RefusedTimeout (env "NEXUSRPC_TIMEOUT_MS") e ∧
      (∀ url, env "NEXUSRPC_URL" = some url → url = s.serverUrl) ∧
      ∀ database, env "NEXUSRPC_DATABASE" = some database → database = s.database := by
  refine ⟨fun s' => applyEnvironment_eq_ok_iff, fun e s' => applyEnvironment_eq_error_iff, fun e => ?_⟩
  rw [applyEnvironment_eq_error_iff, overridden_self_iff]

/-- A refused environment that leaves another address of the server behind. -/
theorem applyEnvironment_refused_changes :
    let env : Environment := fun name =>
      if name = "NEXUSRPC_URL" then some "db.internal:9000"
      else if name = "NEXUSRPC_TIMEOUT_MS" then some "soon"
      else none
    ∃ e s', defaults.applyEnvironment env = (.error e, s') ∧ s'.serverUrl = "db.internal:9000" ∧
      s' ≠ defaults := by
  intro env
  exact ⟨_, _, rfl, rfl, by decide⟩

end DocWire.Settings
