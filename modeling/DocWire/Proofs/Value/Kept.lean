import DocWire.Proofs.Json.Wrapped
import DocWire.Proofs.Number.ReadBack
import DocWire.Proofs.Value.Source

/-!
# What a reader keeps of a value

A reader spells powers of ten its own way and keeps one of several members of one name. Neither
changes what a value stands for: a number keeps the integer or the double that it is read as, and
where no name occurs twice nothing is lost. Taking a wrapped number out does change what a value stands
for. Main statements: `denotes_kept_iff`, `namesDistinct_kept` and `Unwraps.plain_of_denotes`.
-/
set_option autoImplicit false

namespace DocWire

open Json (keptNumber keptPower)

/-! ## Numbers -/

/-- The mark of a power of ten. -/
def IsPowerMark (c : Char) : Prop := c = 'e' ∨ c = 'E'

theorem IsPowerMark.isDigit {c : Char} (h : IsPowerMark c) : isDigit c = false := by
  rcases h with rfl | rfl <;> rfl

theorem keptNumber_mark {c : Char} (h : IsPowerMark c) (cs : List Char) :
    keptNumber (c :: cs) = 'e' :: keptPower cs := by
  rw [keptNumber, if_pos (show c = 'e' ∨ c = 'E' from h)]

theorem keptNumber_cons {c : Char} (h : ¬ IsPowerMark c) (cs : List Char) :
    keptNumber (c :: cs) = c :: keptNumber cs := by
  rw [keptNumber, if_neg (show ¬ (c = 'e' ∨ c = 'E') from h)]

theorem mem_keptNumber {cs : List Char} (h : ∃ c ∈ cs, IsPowerMark c) : 'e' ∈ keptNumber cs := by
  induction cs with
  | nil =>
    obtain ⟨c, hc, -⟩ := h
    cases hc
  | cons c cs ih =>
    by_cases hc : IsPowerMark c
    · rw [keptNumber_mark hc]
      exact List.mem_cons_self
    · rw [keptNumber_cons hc]
      obtain ⟨mark, hm, hmark⟩ := h
      rcases List.mem_cons.1 hm with rfl | hm
      · exact absurd hmark hc
      · exact List.mem_cons_of_mem c (ih ⟨mark, hm, hmark⟩)

/-- A number without a power of ten is kept as it is. -/
theorem keptNumber_of_not_mark {cs : List Char} (h : ¬ ∃ c ∈ cs, IsPowerMark c) :
    keptNumber cs = cs :=
  Json.Grammar.keptNumber_eq_self fun c hc => not_or.1 fun hm => h ⟨c, hc, hm⟩

theorem integer?_keptNumber (cs : List Char) : integer? (keptNumber cs) = integer? cs := by
  by_cases h : ∃ c ∈ cs, IsPowerMark c
  · -- Neither text is an integer, because of the mark in it.
    have hkept : integer? (keptNumber cs) = none :=
      integer?_eq_none_of_mem (mem_keptNumber h) rfl (by decide)
    obtain ⟨c, hc, hm⟩ := h
    have hminus : c ≠ '-' := by rcases hm with rfl | rfl <;> decide
    rw [hkept, integer?_eq_none_of_mem hc hm.isDigit hminus]
  · rw [keptNumber_of_not_mark h]

theorem takeWhile_keptNumber (cs : List Char) :
    (keptNumber cs).takeWhile isDigit = cs.takeWhile isDigit := by
  induction cs with
  | nil => rfl
  | cons c cs ih =>
    by_cases hm : IsPowerMark c
    · rw [keptNumber_mark hm, List.takeWhile_cons_of_neg (by decide),
        List.takeWhile_cons_of_neg (by simp [hm.isDigit])]
    · rw [keptNumber_cons hm, List.takeWhile_cons, List.takeWhile_cons, ih]

theorem dropWhile_keptNumber (cs : List Char) :
    (keptNumber cs).dropWhile isDigit = keptNumber (cs.dropWhile isDigit) := by
  induction cs with
  | nil => rfl
  | cons c cs ih =>
    by_cases hm : IsPowerMark c
    · rw [keptNumber_mark hm, List.dropWhile_cons_of_neg (by decide),
        List.dropWhile_cons_of_neg (by simp [hm.isDigit]), keptNumber_mark hm]
    · rw [keptNumber_cons hm, List.dropWhile_cons, List.dropWhile_cons, ih]
      split
      · rfl
      · rw [keptNumber_cons hm]

namespace Decimal

theorem power?_keptPower (cs : List Char) : power? (keptPower cs) = power? cs := by
  unfold keptPower
  split
  · rfl
  · rfl
  · rename_i hminus hplus
    rw [power?, power?]
    · unfold integer?
      split
      · exact absurd rfl (hminus _)
      · rfl
    · exact hplus

theorem unsigned?_keptNumber (negative : Bool) (cs : List Char) :
    unsigned? negative (keptNumber cs) = unsigned? negative cs := by
  unfold unsigned?
  rw [takeWhile_keptNumber, dropWhile_keptNumber]
  -- The mark stands right behind the whole digits, or behind a point and more digits.
  cases cs.dropWhile isDigit with
  | nil => rfl
  | cons c rest =>
    by_cases hm : c = 'e' ∨ c = 'E'
    · rw [keptNumber_mark hm]
      rcases hm with rfl | rfl <;> simp [power?_keptPower]
    rw [keptNumber_cons hm]
    by_cases hdot : c = '.'
    · subst hdot
      simp only [takeWhile_keptNumber, dropWhile_keptNumber]
      cases rest.dropWhile isDigit with
      | nil => rfl
      | cons c rest =>
        by_cases hm : c = 'e' ∨ c = 'E'
        · rw [keptNumber_mark hm]
          rcases hm with rfl | rfl <;> simp [power?_keptPower]
        · rw [keptNumber_cons hm]
          simp [if_neg hm]
    · simp [hdot, if_neg hm]

theorem ofChars?_keptNumber (cs : List Char) : ofChars? (keptNumber cs) = ofChars? cs := by
  cases cs with
  | nil => rfl
  | cons c rest =>
    by_cases hm : IsPowerMark c
    · have hunsigned := unsigned?_keptNumber false (c :: rest)
      rw [keptNumber_mark hm] at hunsigned ⊢
      rcases hm with rfl | rfl <;> simpa [ofChars?] using hunsigned
    · rw [keptNumber_cons hm]
      have hunsigned := unsigned?_keptNumber false (c :: rest)
      rw [keptNumber_cons hm] at hunsigned
      by_cases hminus : c = '-'
      · subst hminus
        exact unsigned?_keptNumber true rest
      by_cases hplus : c = '+'
      · subst hplus
        exact unsigned?_keptNumber false rest
      · simpa [ofChars?, hminus, hplus] using hunsigned

end Decimal

namespace Binary64

/-- The words for numbers have no letter that marks a power of ten. -/
theorem word?_of_mem_mark {cs : List Char} (h : ∃ c ∈ cs, IsPowerMark c) (negative : Bool) :
    word? negative cs = none := by
  obtain ⟨c, hc, hm⟩ := h
  have hlower : 'e' ∈ cs.map Char.toLower :=
    List.mem_map.2 ⟨c, hc, by rcases hm with rfl | rfl <;> decide⟩
  have hne {word : List Char} (hw : 'e' ∉ word) : cs.map Char.toLower ≠ word :=
    fun he => hw (he ▸ hlower)
  unfold word?
  rw [if_neg (not_or.2 ⟨hne (by decide), hne (by decide)⟩), if_neg (hne (by decide))]

theorem signedWord?_of_mem_mark {cs : List Char} (h : ∃ c ∈ cs, IsPowerMark c) :
    signedWord? cs = none := by
  obtain ⟨c, hc, hm⟩ := h
  unfold signedWord?
  split
  · refine word?_of_mem_mark ⟨c, (List.mem_cons.1 hc).resolve_left ?_, hm⟩ true
    rcases hm with rfl | rfl <;> decide
  · refine word?_of_mem_mark ⟨c, (List.mem_cons.1 hc).resolve_left ?_, hm⟩ false
    rcases hm with rfl | rfl <;> decide
  · exact word?_of_mem_mark ⟨c, hc, hm⟩ false

theorem ofText?_keptNumber (text : String) :
    ofText? (String.ofList (keptNumber text.toList)) = ofText? text := by
  have hword : signedWord? (keptNumber text.toList) = signedWord? text.toList := by
    by_cases h : ∃ c ∈ text.toList, IsPowerMark c
    · rw [signedWord?_of_mem_mark h, signedWord?_of_mem_mark ⟨'e', mem_keptNumber h, .inl rfl⟩]
    · rw [keptNumber_of_not_mark h]
  rw [ofText?, ofText?, String.toList_ofList, Decimal.ofChars?_keptNumber, hword]

end Binary64

/-! ## Values -/

namespace Json

theorem denotes_keptNumber (text : String) (value : Value) :
    (number (String.ofList (keptNumber text.toList))).Denotes value ↔ (number text).Denotes value := by
  rw [← Value.ofNumber_eq_ok_iff, ← Value.ofNumber_eq_ok_iff, Value.ofNumber, Value.ofNumber,
    String.toList_ofList, integer?_keptNumber, Binary64.ofText?_keptNumber]
  split
  · rfl
  · split <;> simp

theorem keys_keptMembers (members : Entries Json) :
    Entries.keys (keptMembers members) = Entries.keys members := by
  induction members with
  | nil => rfl
  | cons member rest ih => rw [keptMembers, Entries.keys_cons, ih, Entries.keys_cons]

theorem get?_keptMembers (name : String) (members : Entries Json) :
    Entries.get? name (keptMembers members) = (Entries.get? name members).map kept := by
  induction members with
  | nil => rfl
  | cons member rest ih =>
    unfold keptMembers Entries.get?
    split
    · rfl
    · exact ih

/-- Nothing is lost of an object in which no name occurs twice. -/
theorem kept_object {members : Entries Json} (hd : Entries.Distinct members) :
    (object members).kept = object (keptMembers members) := by
  have hkept : Entries.Distinct (keptMembers members) := by
    rw [Entries.Distinct, keys_keptMembers]
    exact hd
  rw [kept, Entries.ofList_of_distinct hkept]

theorem kept_eq_string_iff {json : Json} {s : String} : json.kept = string s ↔ json = string s := by
  cases json <;> simp [kept]

theorem keptItems_eq_strings_iff {items : List Json} {names : List String} :
    keptItems items = names.map string ↔ items = names.map string := by
  induction items generalizing names with
  | nil => rfl
  | cons item rest ih =>
    cases names with
    | nil => simp [keptItems]
    | cons name names =>
      rw [keptItems, List.map_cons, List.cons.injEq, List.cons.injEq, kept_eq_string_iff, ih]

mutual
/-- What is kept of a value stands for what the value stands for. -/
theorem denotes_kept_iff (json : Json) (hd : json.NamesDistinct) (value : Value) :
    json.kept.Denotes value ↔ json.Denotes value := by
  match json with
  | .null | .bool _ | .string _ => rfl
  | .number text => exact denotes_keptNumber text value
  | .array items =>
    rw [kept]
    constructor
    · intro h
      cases h with
      | array h => exact .array ((denotesItems_kept_iff items hd _).1 h)
    · intro h
      cases h with
      | array h => exact .array ((denotesItems_kept_iff items hd _).2 h)
  | .object members =>
    rw [kept_object hd.1]
    constructor
    · intro h
      cases h with
      | object h => exact .object ((denotesFields_kept_iff members hd.2 _).1 h)
    · intro h
      cases h with
      | object h => exact .object ((denotesFields_kept_iff members hd.2 _).2 h)

theorem denotesItems_kept_iff (items : List Json) (hd : ItemsDistinct items) (values : List Value) :
    DenotesItems (keptItems items) values ↔ DenotesItems items values := by
  match items with
  | [] => rfl
  | item :: rest =>
    rw [keptItems]
    constructor
    · intro h
      cases h with
      | cons h hr =>
        exact .cons ((denotes_kept_iff item hd.1 _).1 h) ((denotesItems_kept_iff rest hd.2 _).1 hr)
    · intro h
      cases h with
      | cons h hr =>
        exact .cons ((denotes_kept_iff item hd.1 _).2 h) ((denotesItems_kept_iff rest hd.2 _).2 hr)

theorem denotesFields_kept_iff (members : List (String × Json)) (hd : MembersDistinct members)
    (fields : Fields) : DenotesFields (keptMembers members) fields ↔ DenotesFields members fields := by
  match members with
  | [] => rfl
  | (name, member) :: rest =>
    rw [keptMembers]
    constructor
    · intro h
      cases h with
      | cons h hr =>
        exact .cons ((denotes_kept_iff member hd.1 _).1 h) ((denotesFields_kept_iff rest hd.2 _).1 hr)
    · intro h
      cases h with
      | cons h hr =>
        exact .cons ((denotes_kept_iff member hd.1 _).2 h) ((denotesFields_kept_iff rest hd.2 _).2 hr)
end

theorem numbersFit_kept_iff {json : Json} (hd : json.NamesDistinct) :
    json.kept.NumbersFit ↔ json.NumbersFit := by
  rw [← exists_denotes_iff, ← exists_denotes_iff]
  exact exists_congr (denotes_kept_iff json hd)

mutual
/-- What is kept of a value has no object with two members of one name. -/
theorem namesDistinct_kept (json : Json) : json.kept.NamesDistinct := by
  match json with
  | .null | .bool _ | .number _ | .string _ => trivial
  | .array items => exact itemsDistinct_kept items
  | .object members =>
    obtain ⟨hdistinct, hmem⟩ := Entries.ofList_spec (keptMembers members)
    refine ⟨hdistinct, (membersDistinct_iff _).2 fun member hm => ?_⟩
    exact (membersDistinct_iff _).1 (membersDistinct_kept members) member (hmem member hm)

theorem itemsDistinct_kept (items : List Json) : ItemsDistinct (keptItems items) := by
  match items with
  | [] => trivial
  | item :: rest => exact ⟨namesDistinct_kept item, itemsDistinct_kept rest⟩

theorem membersDistinct_kept (members : List (String × Json)) :
    MembersDistinct (keptMembers members) := by
  match members with
  | [] => trivial
  | (_, member) :: rest => exact ⟨namesDistinct_kept member, membersDistinct_kept rest⟩
end

/-! ## Wrapped numbers -/

theorem not_denotes_object (text : String) (fields : Fields) :
    ¬ (number text).Denotes (.object fields) := by
  intro h
  generalize hv : Value.object fields = value at h
  cases h with
  | integer hn =>
    unfold Value.ofInteger Value.ofUnsigned at hv
    split at hv
    · cases hv
    · split at hv <;> cases hv
  | double => cases hv

mutual
/-- A value that stands for the same with its wrappings and without has no wrapping. -/
theorem Unwraps.plain_of_denotes {json plain : Json} (hu : json.Unwraps plain) {value : Value}
    (h : json.Denotes value) (hp : plain.Denotes value) : json.Plain := by
  match json with
  | .null | .bool _ | .number _ | .string _ => trivial
  | .array items =>
    obtain ⟨others, hi, rfl⟩ := hu.of_array
    cases h with
    | array h =>
      cases hp with
      | array hp => exact hi.plain_of_denotes h hp
  | .object members =>
    cases h with
    | object h =>
      rcases hu.of_object with ⟨hw, others, hm, rfl⟩ | ⟨text, -, -, rfl⟩
      · cases hp with
        | object hp => exact ⟨hw, hm.plain_of_denotes h hp⟩
      · exact absurd hp (not_denotes_object text _)

theorem UnwrapsItems.plain_of_denotes {items others : List Json} (hu : UnwrapsItems items others)
    {values : List Value} (h : DenotesItems items values) (hp : DenotesItems others values) :
    ItemsPlain items := by
  match items with
  | [] => trivial
  | item :: rest =>
    obtain ⟨other, others, hi, hr, rfl⟩ := hu.of_cons
    cases h with
    | cons h htail =>
      cases hp with
      | cons hp hptail => exact ⟨hi.plain_of_denotes h hp, hr.plain_of_denotes htail hptail⟩

theorem UnwrapsMembers.plain_of_denotes {members others : List (String × Json)}
    (hu : UnwrapsMembers members others) {fields : List (String × Value)}
    (h : DenotesFields members fields) (hp : DenotesFields others fields) : MembersPlain members := by
  match members with
  | [] => trivial
  | (name, member) :: rest =>
    obtain ⟨other, others, hm, hr, rfl⟩ := hu.of_cons
    cases h with
    | cons h htail =>
      cases hp with
      | cons hp hptail => exact ⟨hm.plain_of_denotes h hp, hr.plain_of_denotes htail hptail⟩
end

end Json

theorem Fields.means_kept_iff {json? : Option Json} (hd : ∀ json ∈ json?, json.NamesDistinct)
    {fields : Fields} : fields.Means (json?.map Json.kept) ↔ fields.Means json? := by
  cases json? with
  | none => rfl
  | some json =>
    have hd := hd json rfl
    cases json with
    | object members =>
      rw [Option.map_some, Json.kept_object hd.1]
      constructor
      · rintro ⟨⟩
        exact .object ((Json.denotesFields_kept_iff members hd.2 _).1 ‹_›)
      · rintro ⟨⟩
        exact .object ((Json.denotesFields_kept_iff members hd.2 _).2 ‹_›)
    | null | bool _ | number _ | string _ | array _ =>
      constructor
      · rintro ⟨⟩
      · rintro ⟨⟩

end DocWire
