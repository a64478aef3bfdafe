import DocWire.Proofs.Number.Denoted
import DocWire.Proofs.Results
import DocWire.Settings.Basic

/-!
# Where a setting comes from

Files are combined from the first to the last, and each gives only what the files before it did not
give; the result goes over the defaults, and the environment over the result. So every setting comes
from the first place that gives it, and only what comes out is checked. Main statements:
`field_combine` and `resolve_precedence`.
-/
set_option autoImplicit false

namespace DocWire

open Json.Grammar (Digits)

/-! ## Numbers of 64 bits -/

/-- A text spells a number of 64 bits without sign: digits, perhaps after a plus sign. -/
def SpellsUnsigned (text : String) (n : Nat) : Prop :=
  ∃ ds, Digits ds ∧ (text.toList = ds ∨ text.toList = '+' :: ds) ∧ placeValue ds = n ∧ n < 2 ^ 64

namespace IntegerWidth

theorem holds_unsigned64_iff {n : Nat} : unsigned64.Holds (n : Int) ↔ n < 2 ^ 64 := by
  simp only [Holds, least, greatest]
  omega

theorem bind_natural?_eq_some_iff {cs : List Char} {n : Int} :
    (((natural? cs).map Int.ofNat) >>= fun n => if unsigned64.Holds n then some n else none) = some n ↔
      ∃ m : Nat, (Digits cs ∧ placeValue cs = m ∧ m < 2 ^ 64) ∧ n = m := by
  simp only [Option.bind_eq_bind, Option.bind_eq_some_iff, Option.map_eq_some_iff,
    natural?_eq_some_iff, ofDigits_eq_placeValue]
  constructor
  · rintro ⟨_, ⟨m, ⟨hd, hm⟩, rfl⟩, h⟩
    split at h
    · rename_i hh
      cases h
      exact ⟨m, ⟨hd, hm, holds_unsigned64_iff.1 hh⟩, rfl⟩
    · cases h
  · rintro ⟨m, ⟨hd, hm, hlt⟩, rfl⟩
    exact ⟨m, ⟨m, ⟨hd, hm⟩, rfl⟩, if_pos (holds_unsigned64_iff.2 hlt)⟩

theorem read?_unsigned64_eq_some_iff {text : String} {n : Int} :
    unsigned64.read? text = some n ↔ ∃ m : Nat, SpellsUnsigned text m ∧ n = m := by
  unfold read?
  constructor
  · intro h
    dsimp only at h
    split at h
    · rename_i ds ht
      obtain ⟨m, ⟨hd, hm, hlt⟩, rfl⟩ := bind_natural?_eq_some_iff.1 h
      exact ⟨m, ⟨ds, hd, .inr ht, hm, hlt⟩, rfl⟩
    · -- This width has no negative numbers.
      rw [if_neg (by decide)] at h
      cases h
    · obtain ⟨m, ⟨hd, hm, hlt⟩, rfl⟩ := bind_natural?_eq_some_iff.1 h
      exact ⟨m, ⟨text.toList, hd, .inl rfl, hm, hlt⟩, rfl⟩
  · rintro ⟨m, ⟨ds, hd, ht, hm, hlt⟩, rfl⟩
    have hread := bind_natural?_eq_some_iff.2 ⟨m, ⟨hd, hm, hlt⟩, rfl⟩
    rcases ht with ht | ht
    · rw [ht]
      -- Digits start with no sign.
      split
      · exact absurd (hd.2 '+' (List.mem_cons_self ..)) (by decide)
      · exact absurd (hd.2 '-' (List.mem_cons_self ..)) (by decide)
      · exact hread
    · rw [ht]
      exact hread

end IntegerWidth

/-! ## Files -/

namespace FileSettings
variable {α : Type}

theorem field_combine (field : FileSettings → Option α) (he : field empty = none)
    (hc : ∀ file other, field (file.completedBy other) = (field file).or (field other))
    (files : List FileSettings) : field (combine files) = files.findSome? field := by
  -- The files that were combined already go before those that follow.
  suffices hs : ∀ before, field (files.foldl completedBy before) =
      (field before).or (files.findSome? field) by
    rw [combine, hs, he, Option.none_or]
  induction files with
  | nil => exact fun before => Option.or_none.symm
  | cons file rest ih =>
    intro before
    rw [List.foldl_cons, ih, hc, List.findSome?_cons, Option.or_assoc]
    cases field file <;> rfl

end FileSettings

namespace Settings

/-! ## The environment -/

inductive GivenTimeout : Option String → Option Nat → Prop
  | unset : GivenTimeout none none
  | spelled {text : String} {n : Nat} (h : SpellsUnsigned text n) :
      GivenTimeout (some text) (some n)

def readTimeout : Option String → Except Failure (Option Nat)
  | none => .ok none
  | some text =>
    match IntegerWidth.unsigned64.read? text with
    | some n => .ok (some n.toNat)
    | none => .error (.config (.timeoutNotInteger text))

theorem readTimeout_eq_ok_iff {text? : Option String} {timeout? : Option Nat} :
    readTimeout text? = .ok timeout? ↔ GivenTimeout text? timeout? := by
  constructor
  · intro h
    cases text? with
    | none =>
      cases h
      exact .unset
    | some text =>
      rw [readTimeout] at h
      cases hr : IntegerWidth.unsigned64.read? text with
      | none =>
        rw [hr] at h
        cases h
      | some n =>
        rw [hr] at h
        cases h
        obtain ⟨m, hm, rfl⟩ := IntegerWidth.read?_unsigned64_eq_some_iff.1 hr
        exact .spelled hm
  · intro h
    cases h with
    | unset => rfl
    | spelled h =>
      rw [readTimeout, IntegerWidth.read?_unsigned64_eq_some_iff.2 ⟨_, h, rfl⟩]
      rfl

/-- A time-out of the environment that is refused: a text that spells no number of 64 bits. -/
inductive RefusedTimeout : Option String → Failure → Prop
  | mk {text : String} (h : ∀ n, ¬ SpellsUnsigned text n) :
      RefusedTimeout (some text) (.config (.timeoutNotInteger text))

theorem readTimeout_eq_error_iff {text? : Option String} {e : Failure} :
    readTimeout text? = .error e ↔ RefusedTimeout text? e := by
  constructor
  · intro h
    cases text? with
    | none => cases h
    | some text =>
      rw [readTimeout] at h
      cases hr : IntegerWidth.unsigned64.read? text with
      | none =>
        rw [hr] at h
        cases h
        refine .mk fun n hn => ?_
        have hsome := IntegerWidth.read?_unsigned64_eq_some_iff.2 ⟨n, hn, rfl⟩
        rw [hr] at hsome
        cases hsome
      | some n =>
        rw [hr] at h
        cases h
  · rintro ⟨h⟩
    rename_i text
    have hnone : IntegerWidth.unsigned64.read? text = none := by
      rw [Option.eq_none_iff_forall_ne_some]
      intro n hn
      obtain ⟨m, hm, -⟩ := IntegerWidth.read?_unsigned64_eq_some_iff.1 hn
      exact h m hm
    rw [readTimeout, hnone]

/-! ## All places together -/

/-- The settings by the first place that gives each, given the time-out of the environment. -/
def firstGiven (files : List FileSettings) (env : Environment) (timeout? : Option Nat) : Settings where
  serverUrl := ((env "NEXUSRPC_URL").or (files.findSome? (·.serverUrl))).getD "localhost:8081"
  database := ((env "NEXUSRPC_DATABASE").or (files.findSome? (·.database))).getD "default"
  timeoutMs := (timeout?.or (files.findSome? (·.timeoutMs))).getD 30000
  logDir := files.findSome? (·.logDir)
  logLevel := files.findSome? (·.logLevel)

/-- The environment goes over what the files give, and this over the defaults. -/
theorem underEnvironment_eq (files : List FileSettings) (env : Environment) :
    (defaults.withFile (FileSettings.combine files)).underEnvironment env =
      (readTimeout (env "NEXUSRPC_TIMEOUT_MS")).map (firstGiven files env) := by
  have hurl := FileSettings.field_combine (·.serverUrl) rfl (fun _ _ => rfl) files
  have hdatabase := FileSettings.field_combine (·.database) rfl (fun _ _ => rfl) files
  have htimeout := FileSettings.field_combine (·.timeoutMs) rfl (fun _ _ => rfl) files
  have hdir := FileSettings.field_combine (·.logDir) rfl (fun _ _ => rfl) files
  have hlevel := FileSettings.field_combine (·.logLevel) rfl (fun _ _ => rfl) files
  have hfirst (timeout? : Option Nat) : firstGiven files env timeout? =
      let s := ((defaults.withFile (FileSettings.combine files)).withServerUrl
        (env "NEXUSRPC_URL")).withDatabase (env "NEXUSRPC_DATABASE")
      { s with timeoutMs := timeout?.getD s.timeoutMs } := by
    simp only [firstGiven, withFile, withServerUrl, withDatabase, hurl, hdatabase, htimeout, hdir,
      hlevel, Option.getD_or, defaults, Option.or_none]
  unfold underEnvironment applyEnvironment readTimeout
  cases env "NEXUSRPC_TIMEOUT_MS" with
  | none => exact congrArg Except.ok (hfirst none).symm
  | some text =>
    dsimp only
    cases IntegerWidth.unsigned64.read? text with
    | none => rfl
    | some n => exact congrArg Except.ok (hfirst (some n.toNat)).symm

/-- What settings have to be: both names hold more than white space, and the time-out is positive. -/
structure Usable (s : Settings) : Prop where
  serverUrl : isBlank s.serverUrl = false
  database : isBlank s.database = false
  timeoutMs : 0 < s.timeoutMs

theorem validate_eq_ok_iff {s : Settings} {done : Unit} : s.validate = .ok done ↔ s.Usable := by
  have hiff : s.Usable ↔
      isBlank s.serverUrl = false ∧ isBlank s.database = false ∧ 0 < s.timeoutMs :=
    ⟨fun ⟨hu, hd, ht⟩ => ⟨hu, hd, ht⟩, fun ⟨hu, hd, ht⟩ => ⟨hu, hd, ht⟩⟩
  rw [hiff]
  unfold validate
  by_cases hu : isBlank s.serverUrl = true
  · simp [hu]
  by_cases hd : isBlank s.database = true
  · simp [hu, hd]
  by_cases ht : s.timeoutMs = 0
  · simp [hu, hd, ht]
  · simp [hu, hd, ht, Nat.pos_of_ne_zero ht]

/-- All of it: the time-out of the environment is read, the settings are put together, and what comes
out is checked. -/
theorem resolve_eq (files : List FileSettings) (env : Environment) :
    resolve files env = (do
      let timeout? ← readTimeout (env "NEXUSRPC_TIMEOUT_MS")
      (firstGiven files env timeout?).validate
      .ok (firstGiven files env timeout?)) := by
  unfold resolve
  rw [underEnvironment_eq]
  cases readTimeout (env "NEXUSRPC_TIMEOUT_MS") with
  | error e => rfl
  | ok timeout? => rfl

/-- Settings in which each comes from the first place that gives it. -/
structure FromFirst (files : List FileSettings) (env : Environment) (s : Settings) : Prop where
  serverUrl : s.serverUrl =
    ((env "NEXUSRPC_URL").or (files.findSome? (·.serverUrl))).getD "localhost:8081"
  database : s.database =
    ((env "NEXUSRPC_DATABASE").or (files.findSome? (·.database))).getD "default"
  timeoutMs : ∃ timeout?, GivenTimeout (env "NEXUSRPC_TIMEOUT_MS") timeout? ∧
    s.timeoutMs = (timeout?.or (files.findSome? (·.timeoutMs))).getD 30000
  logDir : s.logDir = files.findSome? (·.logDir)
  logLevel : s.logLevel = files.findSome? (·.logLevel)

theorem fromFirst_iff {files : List FileSettings} {env : Environment} {s : Settings} :
    FromFirst files env s ↔
      ∃ timeout?, GivenTimeout (env "NEXUSRPC_TIMEOUT_MS") timeout? ∧ firstGiven files env timeout? = s := by
  constructor
  · rintro ⟨hurl, hdatabase, ⟨timeout?, hg, htimeout⟩, hdir, hlevel⟩
    refine ⟨timeout?, hg, ?_⟩
    rw [firstGiven, ← hurl, ← hdatabase, ← htimeout, ← hdir, ← hlevel]
  · rintro ⟨timeout?, hg, rfl⟩
    exact ⟨rfl, rfl, ⟨timeout?, hg, rfl⟩, rfl, rfl⟩

theorem resolve_eq_ok_iff {files : List FileSettings} {env : Environment} {s : Settings} :
    resolve files env = .ok s ↔ FromFirst files env s ∧ s.Usable := by
  rw [resolve_eq, fromFirst_iff]
  simp only [bind_eq_ok_iff, readTimeout_eq_ok_iff, validate_eq_ok_iff]
  constructor
  · rintro ⟨timeout?, hg, _, hu, h⟩
    cases h
    exact ⟨⟨timeout?, hg, rfl⟩, hu⟩
  · rintro ⟨⟨timeout?, hg, rfl⟩, hu⟩
    exact ⟨timeout?, hg, (), hu, rfl⟩

/-- The environment gives a time-out, or none, when its variable is not set or spells a number. -/
theorem exists_givenTimeout_iff {text? : Option String} :
    (∃ timeout?, GivenTimeout text? timeout?) ↔
      ∀ text, text? = some text → ∃ n, SpellsUnsigned text n := by
  constructor
  · rintro ⟨timeout?, h⟩ text rfl
    cases h with
    | spelled h => exact ⟨_, h⟩
  · intro h
    cases text? with
    | none => exact ⟨none, .unset⟩
    | some text =>
      obtain ⟨n, hn⟩ := h text rfl
      exact ⟨some n, .spelled hn⟩

theorem FromFirst.unique {files : List FileSettings} {env : Environment} {s t : Settings}
    (hs : FromFirst files env s) (ht : FromFirst files env t) : s = t := by
  obtain ⟨timeout?, hg, rfl⟩ := fromFirst_iff.1 hs
  obtain ⟨other?, hg', rfl⟩ := fromFirst_iff.1 ht
  have h := (readTimeout_eq_ok_iff.2 hg).symm.trans (readTimeout_eq_ok_iff.2 hg')
  rw [Except.ok.inj h]

theorem exists_resolve_eq_ok_iff {files : List FileSettings} {env : Environment} :
    (∃ s, resolve files env = .ok s) ↔
      (∀ text, env "NEXUSRPC_TIMEOUT_MS" = some text → ∃ n, SpellsUnsigned text n) ∧
      ∀ s, FromFirst files env s → s.Usable := by
  rw [← exists_givenTimeout_iff]
  constructor
  · rintro ⟨s, h⟩
    obtain ⟨hs, hu⟩ := resolve_eq_ok_iff.1 h
    obtain ⟨timeout?, hg, -⟩ := fromFirst_iff.1 hs
    exact ⟨⟨timeout?, hg⟩, fun t ht => hs.unique ht ▸ hu⟩
  · rintro ⟨⟨timeout?, hg⟩, hu⟩
    have hs : FromFirst files env (firstGiven files env timeout?) :=
      fromFirst_iff.2 ⟨timeout?, hg, rfl⟩
    exact ⟨_, resolve_eq_ok_iff.2 ⟨hs, hu _ hs⟩⟩

/-! ## What was passed over -/

/-- Two lists of files give the same settings first, those aside that the environment gives. -/
structure SameFirst (env : Environment) (files others : List FileSettings) : Prop where
  serverUrl : env "NEXUSRPC_URL" = none →
    files.findSome? (·.serverUrl) = others.findSome? (·.serverUrl)
  database : env "NEXUSRPC_DATABASE" = none →
    files.findSome? (·.database) = others.findSome? (·.database)
  timeoutMs : env "NEXUSRPC_TIMEOUT_MS" = none →
    files.findSome? (·.timeoutMs) = others.findSome? (·.timeoutMs)
  logDir : files.findSome? (·.logDir) = others.findSome? (·.logDir)
  logLevel : files.findSome? (·.logLevel) = others.findSome? (·.logLevel)

theorem or_congr_of_none {α : Type} {value? other? another? : Option α}
    (h : value? = none → other? = another?) : value?.or other? = value?.or another? := by
  cases value? with
  | none => rw [h rfl]
  | some value => rfl

theorem GivenTimeout.eq_none_of_none {text? : Option String} {timeout? : Option Nat}
    (h : GivenTimeout text? timeout?) (hn : timeout? = none) : text? = none := by
  cases h with
  | unset => rfl
  | spelled => cases hn

theorem firstGiven_congr {files others : List FileSettings} {env : Environment}
    (h : SameFirst env files others) {timeout? : Option Nat}
    (hg : GivenTimeout (env "NEXUSRPC_TIMEOUT_MS") timeout?) :
    firstGiven files env timeout? = firstGiven others env timeout? := by
  rw [firstGiven, or_congr_of_none h.serverUrl, or_congr_of_none h.database,
    or_congr_of_none fun hn => h.timeoutMs (hg.eq_none_of_none hn), h.logDir, h.logLevel]
  rfl

/-- The environment counts by its three variables alone. -/
theorem firstGiven_congr_env {files : List FileSettings} {env env' : Environment}
    (hurl : env "NEXUSRPC_URL" = env' "NEXUSRPC_URL")
    (hdatabase : env "NEXUSRPC_DATABASE" = env' "NEXUSRPC_DATABASE") (timeout? : Option Nat) :
    firstGiven files env timeout? = firstGiven files env' timeout? := by
  rw [firstGiven, hurl, hdatabase]
  rfl

theorem resolve_congr {files others : List FileSettings} {env env' : Environment}
    (henv : ∀ name ∈ ["NEXUSRPC_URL", "NEXUSRPC_DATABASE", "NEXUSRPC_TIMEOUT_MS"], env name = env' name)
    (h : SameFirst env files others) : resolve files env = resolve others env' := by
  simp only [List.forall_mem_cons] at henv
  obtain ⟨hurl, hdatabase, htimeout, -⟩ := henv
  rw [resolve_eq, resolve_eq, ← htimeout]
  cases hr : readTimeout (env "NEXUSRPC_TIMEOUT_MS") with
  | error e => rfl
  | ok timeout? =>
    rw [bind_ok, bind_ok, firstGiven_congr h (readTimeout_eq_ok_iff.1 hr),
      firstGiven_congr_env hurl hdatabase]

/-- Every setting has the value of the environment, or else of the first file that gives it, or else
the default. It is these values alone that have to be usable, and the time-out of the environment has
to be a number; whatever was passed over changes neither settings nor error. -/
theorem resolve_precedence (files : List FileSettings) (env : Environment) :
    (∀ s, resolve files env = .ok s ↔ FromFirst files env s ∧ s.Usable) ∧
    ((∃ s, resolve files env = .ok s) ↔
      (∀ text, env "NEXUSRPC_TIMEOUT_MS" = some text → ∃ n, SpellsUnsigned text n) ∧
      ∀ s, FromFirst files env s → s.Usable) ∧
    ∀ others env', SameFirst env files others →
      (∀ name ∈ ["NEXUSRPC_URL", "NEXUSRPC_DATABASE", "NEXUSRPC_TIMEOUT_MS"], env name = env' name) →
      resolve files env = resolve others env' :=
  ⟨fun _ => resolve_eq_ok_iff, exists_resolve_eq_ok_iff, fun _ _ h henv => resolve_congr henv h⟩

/-- A blank name and a time-out of zero in a file after another and under the environment. -/
theorem resolve_precedence_passed_over :
    let first : FileSettings := ⟨some "db.internal:9000", none, none, some "logs", none⟩
    let second : FileSettings := ⟨some " ", some "", some 0, none, some "debug"⟩
    let env : Environment := fun name =>
      if name = "NEXUSRPC_DATABASE" then some "orders"
      else if name = "NEXUSRPC_TIMEOUT_MS" then some "+0250"
      else none
    let s : Settings := ⟨"db.internal:9000", "orders", 250, some "logs", some "debug"⟩
    SpellsUnsigned "+0250" 250 ∧ FromFirst [first, second] env s ∧ s.Usable ∧
      resolve [first, second] env = .ok s ∧
      resolve [first, second] env = resolve [first, ⟨none, none, none, none, some "debug"⟩] env := by
  intro first second env s
  obtain ⟨hok, -, hcongr⟩ := resolve_precedence [first, second] env
  have hspells : SpellsUnsigned "+0250" 250 :=
    ⟨"0250".toList, ⟨by decide, List.all_eq_true.1 (by decide)⟩, .inr (by decide), by decide, by decide⟩
  have hs : FromFirst [first, second] env s :=
    ⟨rfl, rfl, ⟨some 250, .spelled hspells, rfl⟩, rfl, rfl⟩
  have hu : s.Usable := ⟨by decide, by decide, by decide⟩
  refine ⟨hspells, hs, hu, (hok s).2 ⟨hs, hu⟩, hcongr _ _ ⟨fun _ => rfl, ?_, ?_, rfl, rfl⟩ fun _ _ => rfl⟩
  · intro h
    cases h
  · intro h
    cases h

end Settings

end DocWire
