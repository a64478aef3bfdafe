import DocWire.Projection.Source
import DocWire.Proofs.Entries
import DocWire.Proofs.Json.Acceptance

/-!
# Which texts are projections

A projection is an object of the two lists, each of them an array of strings. An array of at most two
lists is read as well: the lists stand there by position. No other value is a projection. Main
statement: `parse_exact_shape`.
-/
set_option autoImplicit false

namespace DocWire

/-- What the reader keeps of an object has no name twice. -/
theorem Json.distinct_of_kept {json : Json} {members : List (String × Json)}
    (h : json.kept = .object members) : Entries.Distinct members := by
  cases json with
  | object tree =>
    rw [kept] at h
    cases h
    exact (Entries.ofList_spec (keptMembers tree)).1
  | null | bool _ | number _ | string _ | array _ => cases h

namespace Projection

/-! ## Shapes -/

/-- The list of names that a value is, or the other list where there is no value. -/
inductive Listed (other : List String) : Option Json → List String → Prop
  | left_out : Listed other none other
  | names (list : List String) : Listed other (some (.array (list.map .string))) list

/-- An object of no members but the two lists. -/
inductive Documented : Json → Projection → Prop
  | object {members : List (String × Json)} {p : Projection}
      (hn : ∀ name ∈ Entries.keys members, name = "include" ∨ name = "exclude")
      (hi : Listed [] (Entries.get? "include" members) p.included)
      (he : Listed [] (Entries.get? "exclude" members) p.excluded) : Documented (.object members) p

/-- An array of nothing but the two lists, in the order of the record's fields. -/
inductive Positional : Json → Projection → Prop
  | array {items : List Json} {p : Projection} (hl : items.length ≤ 2)
      (hi : Listed [] items[0]? p.included) (he : Listed [] items[1]? p.excluded) :
      Positional (.array items) p

/-! ## Lists -/

theorem readItems_eq_ok_iff {items : List Json} {list : List String} :
    readItems items = .ok list ↔ items = list.map .string := by
  induction items generalizing list with
  | nil => cases list <;> simp [readItems]
  | cons item rest ih =>
    constructor
    · intro h
      cases item with
      | string s =>
        obtain ⟨others, ho, h⟩ := bind_eq_ok_iff.1 h
        cases h
        rw [List.map_cons, ih.1 ho]
      | null | bool _ | number _ | array _ | object _ => cases h
    · intro h
      cases list with
      | nil => cases h
      | cons s others =>
        rw [List.map_cons, List.cons.injEq] at h
        obtain ⟨rfl, ho⟩ := h
        exact bind_eq_ok_iff.2 ⟨others, ih.2 ho, rfl⟩

theorem readList_eq_ok_iff {json : Json} {list : List String} :
    readList json = .ok list ↔ json = .array (list.map .string) := by
  cases json with
  | array items => rw [Json.array.injEq, ← readItems_eq_ok_iff, readList]
  | null | bool _ | number _ | string _ | object _ => simp [readList]

theorem listed_some_iff {other list : List String} {json : Json} :
    Listed other (some json) list ↔ readList json = .ok list := by
  rw [readList_eq_ok_iff]
  constructor
  · rintro ⟨⟩
    rfl
  · rintro rfl
    exact .names list

theorem listed_none_iff {other list : List String} : Listed other none list ↔ list = other := by
  constructor
  · rintro ⟨⟩
    rfl
  · rintro rfl
    exact .left_out

/-! ## Values -/

/-- Members are read as the two lists, whatever their order. -/
theorem readMembers_eq_ok_iff {members : List (String × Json)} (hd : Entries.Distinct members)
    {p q : Projection} :
    readMembers p members = .ok q ↔
      (∀ name ∈ Entries.keys members, name = "include" ∨ name = "exclude") ∧
      Listed p.included (Entries.get? "include" members) q.included ∧
      Listed p.excluded (Entries.get? "exclude" members) q.excluded := by
  induction members generalizing p with
  | nil =>
    obtain ⟨included, excluded⟩ := p
    obtain ⟨included', excluded'⟩ := q
    simp [readMembers, Entries.get?, listed_none_iff, eq_comm]
  | cons member rest ih =>
    obtain ⟨name, json⟩ := member
    obtain ⟨hfresh, hrest⟩ := Entries.distinct_cons_iff.1 hd
    -- A list that was read is the default for what is left, where its name does not occur again.
    have hgone : Entries.get? name rest = none := (Entries.get?_eq_none_iff name rest).2 hfresh
    by_cases hi : name = "include"
    · subst hi
      simp only [readMembers, if_pos, bind_eq_ok_iff, ih hrest, hgone, listed_none_iff,
        Entries.keys_cons, List.forall_mem_cons, Entries.get?, listed_some_iff]
      constructor
      · rintro ⟨list, hl, hn, rfl, he⟩
        exact ⟨⟨.inl trivial, hn⟩, hl, he⟩
      · rintro ⟨⟨-, hn⟩, hl, he⟩
        exact ⟨q.included, hl, hn, rfl, he⟩
    by_cases he : name = "exclude"
    · subst he
      simp only [readMembers, if_neg hi, if_pos, bind_eq_ok_iff, ih hrest, hgone, listed_none_iff,
        Entries.keys_cons, List.forall_mem_cons, Entries.get?, listed_some_iff]
      constructor
      · rintro ⟨list, hl, hn, hinc, rfl⟩
        exact ⟨⟨.inr trivial, hn⟩, hinc, hl⟩
      · rintro ⟨⟨-, hn⟩, hinc, hl⟩
        exact ⟨q.excluded, hl, hn, hinc, rfl⟩
    · rw [readMembers, if_neg hi, if_neg he]
      constructor
      · rintro ⟨⟩
      · rintro ⟨hn, -⟩
        exact absurd (hn name (List.mem_cons_self ..)) (not_or.2 ⟨hi, he⟩)

/-- An array is read item by item. -/
theorem ofArray_eq_ok_iff {items : List Json} {p : Projection} :
    ofJson (.array items) = .ok p ↔
      items.length ≤ 2 ∧ Listed [] items[0]? p.included ∧ Listed [] items[1]? p.excluded := by
  obtain ⟨included, excluded⟩ := p
  match items with
  | [] => simp [ofJson, listed_none_iff, eq_comm]
  | [first] =>
    have hnone : [first][1]? = none := rfl
    simp only [ofJson, bind_eq_ok_iff, Except.ok.injEq, Projection.mk.injEq, List.getElem?_cons_zero,
      hnone, listed_some_iff, listed_none_iff]
    constructor
    · rintro ⟨list, hl, rfl, rfl⟩
      exact ⟨Nat.le_succ 1, hl, rfl⟩
    · rintro ⟨-, hl, rfl⟩
      exact ⟨included, hl, rfl, rfl⟩
  | [first, second] =>
    simp [ofJson, bind_eq_ok_iff, listed_some_iff]
  | first :: second :: third :: rest =>
    simp [ofJson, bind_eq_ok_iff]

/-- A value is read as a projection if and only if it has one of the two shapes. -/
theorem ofJson_eq_ok_iff {json : Json}
    (hd : ∀ members, json = .object members → Entries.Distinct members) {p : Projection} :
    ofJson json = .ok p ↔ Documented json p ∨ Positional json p := by
  cases json with
  | object members =>
    rw [ofJson, readMembers_eq_ok_iff (hd members rfl)]
    constructor
    · exact fun h => .inl (.object h.1 h.2.1 h.2.2)
    · rintro (h | h)
      · cases h with
        | object hn hi he => exact ⟨hn, hi, he⟩
      · cases h
  | array items =>
    rw [ofArray_eq_ok_iff]
    constructor
    · exact fun h => .inr (.array h.1 h.2.1 h.2.2)
    · rintro (h | h)
      · cases h
      · cases h with
        | array hl hi he => exact ⟨hl, hi, he⟩
  | null | bool _ | number _ | string _ =>
    constructor
    · intro h
      cases h
    · rintro (h | h) <;> cases h

/-! ## Errors -/

theorem kind_of_readItems {items : List Json} {e : Failure} (h : readItems items = .error e) :
    e.kind = .unsupportedFilter := by
  induction items with
  | nil => cases h
  | cons item rest ih =>
    cases item with
    | string s =>
      rcases bind_eq_error_iff.1 h with h | ⟨list, -, ⟨⟩⟩
      exact ih h
    | null | bool _ | number _ | array _ | object _ =>
      cases h
      rfl

theorem kind_of_readList {json : Json} {e : Failure} (h : readList json = .error e) :
    e.kind = .unsupportedFilter := by
  cases json with
  | array items => exact kind_of_readItems h
  | null | bool _ | number _ | string _ | object _ =>
    cases h
    rfl

theorem kind_of_readMembers {members : List (String × Json)} {p : Projection} {e : Failure}
    (h : readMembers p members = .error e) : e.kind = .unsupportedFilter := by
  induction members generalizing p with
  | nil => cases h
  | cons member rest ih =>
    obtain ⟨name, json⟩ := member
    unfold readMembers at h
    split at h
    · rcases bind_eq_error_iff.1 h with h | ⟨list, -, h⟩
      · exact kind_of_readList h
      · exact ih h
    · split at h
      · rcases bind_eq_error_iff.1 h with h | ⟨list, -, h⟩
        · exact kind_of_readList h
        · exact ih h
      · cases h
        rfl

theorem kind_of_ofJson {json : Json} {e : Failure} (h : ofJson json = .error e) :
    e.kind = .unsupportedFilter := by
  unfold ofJson at h
  split at h
  · exact kind_of_readMembers h
  · cases h
  · rcases bind_eq_error_iff.1 h with h | ⟨list, -, ⟨⟩⟩
    exact kind_of_readList h
  · rcases bind_eq_error_iff.1 h with h | ⟨first, -, h⟩
    · exact kind_of_readList h
    · rcases bind_eq_error_iff.1 h with h | ⟨second, -, h⟩
      · exact kind_of_readList h
      · split at h
        · cases h
        · cases h
          rfl
  · cases h
    rfl

/-! ## Texts -/

/-- A text that says something is a projection where what is kept of it has one of the two shapes. -/
theorem parse_eq_of_meaning {text : String} {plain : Json} (h : Json.Says text plain) :
    parse text = ofJson plain.kept := by
  unfold parse
  rw [Json.ofText_eq_kept_iff.2 ⟨plain, h, rfl⟩]
  rfl

theorem parse_of_meaningless {text : String} (h : ¬ ∃ plain, Json.Says text plain) :
    ∃ fault, parse text = .error (.json fault) := by
  obtain ⟨fault, hf⟩ := Json.exists_error_ofText_iff.2 h
  refine ⟨fault, ?_⟩
  unfold parse
  rw [hf]
  rfl

/-- A text is a projection exactly if it says a value that has the documented shape or, undocumented,
gives the lists by position. A value of any other shape is no supported filter, and a text that says
nothing is malformed. A text says the value that it reads as, if this nests within the limit, with every
wrapped number taken out; what is plain is said as it is. -/
theorem parse_exact_shape (text : String) :
    (∀ p, parse text = .ok p ↔ ∃ plain, Json.Says text plain ∧
      (Documented plain.kept p ∨ Positional plain.kept p)) ∧
    ((∃ e, parse text = .error e ∧ e.kind = .unsupportedFilter) ↔
      ∃ plain, Json.Says text plain ∧ ¬ ∃ p, Documented plain.kept p ∨ Positional plain.kept p) ∧
    ((∃ e, parse text = .error e ∧ e.kind = .json) ↔ ¬ ∃ plain, Json.Says text plain) ∧
    (∀ plain, Json.Says text plain ↔
      ∃ json, Json.Reads text json ∧ json.depth ≤ 127 ∧ json.Unwraps plain) ∧
    ∀ json : Json, json.Plain → ∀ plain, json.Unwraps plain ↔ plain = json := by
  refine ⟨?_, ?_, ?_, fun plain => Iff.rfl, fun json h => h.unwraps_iff⟩
  all_goals by_cases h : ∃ plain, Json.Says text plain
  · intro p
    obtain ⟨plain, hs⟩ := h
    rw [hs.exists_iff, parse_eq_of_meaning hs, ofJson_eq_ok_iff fun members => Json.distinct_of_kept]
  · intro p
    obtain ⟨fault, hparse⟩ := parse_of_meaningless h
    refine iff_of_false (by simp [hparse]) ?_
    rintro ⟨plain, hs, -⟩
    exact h ⟨plain, hs⟩
  · obtain ⟨plain, hs⟩ := h
    simp only [hs.exists_iff, parse_eq_of_meaning hs,
      ← ofJson_eq_ok_iff fun members => Json.distinct_of_kept, ← exists_error_iff]
    constructor
    · rintro ⟨e, he, -⟩
      exact ⟨e, he⟩
    · rintro ⟨e, he⟩
      exact ⟨e, he, kind_of_ofJson he⟩
  · obtain ⟨fault, hparse⟩ := parse_of_meaningless h
    refine iff_of_false ?_ ?_
    · rintro ⟨e, he, hk⟩
      cases hparse.symm.trans he
      cases hk
    · rintro ⟨plain, hs, -⟩
      exact h ⟨plain, hs⟩
  · refine iff_of_false ?_ (not_not.2 h)
    obtain ⟨plain, hs⟩ := h
    rintro ⟨e, he, hk⟩
    rw [kind_of_ofJson (parse_eq_of_meaning hs ▸ he)] at hk
    cases hk
  · obtain ⟨fault, hparse⟩ := parse_of_meaningless h
    exact iff_of_true ⟨.json fault, hparse, rfl⟩ h

/-- An array with one list in it is a projection, although no object. -/
theorem parse_accepts_array :
    let text := "[[\"a\"]]"
    parse text = .ok ⟨["a"], []⟩ ∧ ¬ ∃ json p, Json.Reads text json ∧ Documented json.kept p := by
  intro text
  have hlex : (Json.array [.array [.string "a"]]).Lexical := ⟨⟨trivial, trivial⟩, trivial⟩
  have hr : Json.Reads text (.array [.array [.string "a"]]) := (Json.reads_text_iff hlex _).2 rfl
  have hs : Json.Says text (.array [.array [.string "a"]]) := (Json.says_iff_of_reads hr).2
    ⟨by decide, (Json.unwraps_self_iff _).2 ⟨⟨trivial, trivial⟩, trivial⟩⟩
  refine ⟨parse_eq_of_meaning hs, ?_⟩
  rintro ⟨json, p, hj, hp⟩
  obtain rfl := hj.unique hr
  cases hp

end Projection
end DocWire
