import DocWire.Proofs.Number.Denoted
import DocWire.Proofs.Value.Dotted
import DocWire.Proofs.Value.Equality
import DocWire.Proofs.Value.IntegerVariants
import DocWire.Proofs.Value.Integers

/-!
# Routes of integers to the wire

An integer becomes a field value in many ways: from a number that a program holds in some width, by
way of a wide integer, from any decimal spelling of one, or from JSON. The variants that come of it
differ, what is written does not. Main statements: `number_eq_ofInt_iff_denotes`, the written text is the
one literal other than `-0` that denotes the integer; and `integers_reach_wire`.
-/
set_option autoImplicit false

namespace DocWire

/-! ## Literals -/

namespace IntegerLiteral
variable {text : String} (h : IntegerLiteral text)
include h

theorem number : Json.Grammar.Number text.toList := by
  obtain ⟨ds, hd, ht | ht⟩ := h
  · rw [ht]
    exact .plus (magnitude_of_whole hd)
  · rw [ht]
    exact .minus (magnitude_of_whole hd)

theorem exists_denotes : ∃ n, DenotesInteger text.toList n := by
  obtain ⟨ds, hd, ht | ht⟩ := h
  · exact ⟨placeValue ds, by rw [ht]; exact .plus hd.1⟩
  · exact ⟨-placeValue ds, by rw [ht]; exact .minus hd.1⟩

theorem keptNumber_eq : Json.keptNumber text.toList = text.toList := by
  apply Json.Grammar.keptNumber_eq_self
  obtain ⟨ds, hd, ht | ht⟩ := h
  all_goals
    intro c hc
    rw [ht] at hc
  · exact Json.Grammar.ne_mark_of_isDigit (hd.1.2 c hc)
  · rcases List.mem_cons.1 hc with rfl | hc
    · decide
    · exact Json.Grammar.ne_mark_of_isDigit (hd.1.2 c hc)

/-- A literal is read as a number that keeps its text. -/
theorem ofText_eq : Json.ofText text = .ok (.number text) := by
  have hl : (Json.number text).Lexical := h.number
  have hreads := (Json.reads_text_iff hl _).2 rfl
  have htext : (Json.number text).text = text := String.ofList_toList
  rw [htext] at hreads
  rw [Json.ofText_of_reads hreads (.number text) (Nat.zero_le _), Json.kept, h.keptNumber_eq,
    String.ofList_toList]

end IntegerLiteral

/-- An integer is written as the one literal other than `-0` that denotes it. -/
theorem number_eq_ofInt_iff_denotes (text : String) (n : Int) :
    Json.number text = .ofInt n ↔
      IntegerLiteral text ∧ text ≠ "-0" ∧ DenotesInteger text.toList n := by
  have hread : ∀ m, Json.number text = .ofInt m → DenotesInteger text.toList m := fun m hm => by
    rw [(number_eq_ofInt_iff text m).1 hm, ← integer?_eq_some_iff]
    exact integer?_signedDigits m
  constructor
  · intro h
    obtain ⟨hl, hz⟩ := (exists_ofInt_iff text).1 ⟨n, h⟩
    exact ⟨hl, hz, hread n h⟩
  · rintro ⟨hl, hz, hd⟩
    obtain ⟨m, hm⟩ := (exists_ofInt_iff text).2 ⟨hl, hz⟩
    rw [hd.unique (hread m hm)]
    exact hm

/-! ## Variants -/

namespace Value

theorem ofJson_of_denotes {text : String} {n : Int} (h : DenotesInteger text.toList n) :
    ofJson (.number text) = .ok (ofInteger n) := by
  rw [ofJson, ofNumber, integer?_eq_some_iff.2 h]

/-- The variant that source text gives an integer: the signed one where the number fits it, else the
unsigned one, else a wide integer. -/
inductive Narrowest : Int → Value → Prop
  | int (m : Int64) : Narrowest m.toInt (int m)
  | uint (m : UInt64) (h : 2 ^ 63 ≤ m.toNat) : Narrowest m.toNat (uint m)
  | wide (n : Int) (h : n < -2 ^ 63 ∨ 2 ^ 64 ≤ n) : Narrowest n (wide ⟨n⟩)

theorem narrowest_ofInteger (n : Int) : Narrowest n (ofInteger n) := by
  have hn := integer?_ofInteger n
  unfold ofInteger ofUnsigned at hn ⊢
  by_cases hs : IntegerWidth.signed64.Holds n
  · rw [if_pos hs] at hn ⊢
    have hv : (Int64.ofInt n).toInt = n := Option.some.inj hn
    have hint := Narrowest.int (Int64.ofInt n)
    rwa [hv] at hint
  rw [if_neg hs] at hn ⊢
  simp only [IntegerWidth.Holds, IntegerWidth.least, IntegerWidth.greatest] at hs
  by_cases hu : IntegerWidth.unsigned64.Holds n
  · rw [if_pos hu] at hn ⊢
    simp only [IntegerWidth.Holds, IntegerWidth.least, IntegerWidth.greatest] at hu
    have hv : ((UInt64.ofNat n.toNat).toNat : Int) = n := Option.some.inj hn
    have huint := Narrowest.uint (UInt64.ofNat n.toNat) (by omega)
    rwa [hv] at huint
  · rw [if_neg hu]
    simp only [IntegerWidth.Holds, IntegerWidth.least, IntegerWidth.greatest] at hu
    exact .wide n (by omega)

/-- An integer equals values of its own variant and number alone. -/
theorem same_of_integer?_iff {value : Value} {n : Int} (h : value.integer? = some n) (other : Value) :
    value.same other = true ↔ value = other := by
  constructor
  · intro hs
    rcases same_cases hs with he | ⟨x, y, rfl, -⟩ | ⟨items, others, rfl, -⟩ | ⟨fields, others, rfl, -⟩
    · exact he
    all_goals cases h
  · rintro rfl
    cases value with
    | int n => exact beq_self_eq_true n
    | uint n => exact beq_self_eq_true n
    | wide n => exact beq_self_eq_true n
    | _ => cases h

theorem same_ofInteger_iff (n m : Int) : (ofInteger n).same (ofInteger m) = true ↔ n = m := by
  rw [same_of_integer?_iff (integer?_ofInteger n)]
  constructor
  · intro h
    have hm := integer?_ofInteger m
    rw [← h, integer?_ofInteger] at hm
    exact Option.some.inj hm
  · exact congrArg ofInteger

theorem wire_of_integer? {value : Value} {n : Int} (h : value.integer? = some n) (role : WireRole)
    (path : String) : value.wire role path = .ok (.ofInt n) := by
  rw [wire, wireAt_of_integer? h, if_neg (Nat.not_lt_zero _)]

end Value

/-! ## What is written -/

section
variable {value : Value} {n : Int} (h : value.integer? = some n) {name : String} (hn : name ≠ "")
include h hn

theorem Selector.wire_of_integer? (op : Comparison) :
    wire ⟨op, [(name, value)]⟩ = .ok (.object [(name, op.compare (.ofInt n))]) := by
  have hleaves : Fields.leaves [(name, value)] = .ok [(name, value)] :=
    Fields.leaves_singleton hn (Value.notObject_of_integer? h)
  have hwire : wireLeaves op [(name, value)] = .ok [(name, op.compare (.ofInt n))] := by
    rw [wireLeaves, Value.wire_of_integer? h]
    rfl
  unfold wire
  rw [hleaves, bind_ok, hwire]
  rfl

namespace Update

theorem wireGroup_of_integer? (op other : UpdateOperator) :
    (empty.withGroup op [(name, value)]).wireGroup other =
      .ok (if op = other then [(op.keyword, .object [(name, .ofInt n)])] else []) := by
  have hleaves : Fields.leaves [(name, value)] = .ok [(name, value)] :=
    Fields.leaves_singleton hn (Value.notObject_of_integer? h)
  have hwire : wireLeaves op [(name, value)] = .ok [(name, .ofInt n)] := by
    rw [wireLeaves, Value.isNumeric_of_integer? h, Value.wire_of_integer? h, Bool.not_true,
      Bool.and_false, if_neg Bool.false_ne_true]
    rfl
  rw [wireGroup, group_withGroup]
  split
  · rename_i he
    subst he
    have hone : ([(name, value)] : Fields).isEmpty = false := rfl
    rw [hone, if_neg Bool.false_ne_true, hleaves, bind_ok, hwire]
    rfl
  · cases other <;> rfl

theorem wire_of_integer? (op : UpdateOperator) :
    (empty.withGroup op [(name, value)]).wire =
      .ok (.object [(op.keyword, .object [(name, .ofInt n)])]) := by
  have hempty : (empty.withGroup op [(name, value)]).isEmpty = false := by cases op <;> rfl
  have hunset : (empty.withGroup op [(name, value)]).wireUnset = .ok [] := by cases op <;> rfl
  rw [wire, hempty, if_neg Bool.false_ne_true, hunset]
  simp only [wireGroups, wireGroup_of_integer? h hn, bind_ok]
  cases op <;> rfl

end Update
end

namespace Value

/-- A value is sent as an integer: as the value of a selector, as what a field is set to and as an
operand. -/
structure WrittenAs (value : Value) (n : Int) : Prop where
  selector (op : Comparison) (name : String) (hn : name ≠ "") :
    (Filter.selector ⟨op, [(name, value)]⟩).encode =
      .ok (Json.object [(name, op.compare (.ofInt n))]).text
  update (op : UpdateOperator) (name : String) (hn : name ≠ "") :
    (Update.empty.withGroup op [(name, value)]).encode =
      .ok (Json.object [(op.keyword, .object [(name, .ofInt n)])]).text
  widened : value.widened = .wide ⟨n⟩

theorem writtenAs_of_integer? {value : Value} {n : Int} (h : value.integer? = some n) :
    value.WrittenAs n where
  selector op name hn := by
    rw [Filter.encode_eq_wire, Filter.wire, Selector.wire_of_integer? h hn, bind_ok]
  update op name hn := by rw [Update.encode_eq_wire, Update.wire_of_integer? h hn, bind_ok]
  widened := widened_of_integer? h

end Value

/-! ## Routes -/

/-- How an integer becomes a value: from a number that a program holds in a width, from a wide integer
made of such a number or read from a text, or from JSON. -/
inductive IntegerRoute where
  | native (width : IntegerWidth)
  | wide (width : IntegerWidth)
  | wideText (text : String)
  | source (text : String)

namespace IntegerRoute

/-- A route can hold an integer. Wide integers are made of numbers of 64 bits or more. -/
def Carries : IntegerRoute → Int → Prop
  | native width, n => width.Holds n
  | wide width, n => width ≠ .signed32 ∧ width ≠ .unsigned32 ∧ width.Holds n
  | wideText text, n => DenotesInteger text.toList n
  | source text, n => IntegerLiteral text ∧ DenotesInteger text.toList n

/-- The value that a route makes of an integer. -/
def value? : IntegerRoute → Int → Option Value
  | native width, n => some (.ofNative width n)
  | wide _, n => some (.wide ⟨n⟩)
  | wideText text, _ => (WideInteger.ofText? text).map .wide
  | source text, _ => (Json.ofText text).toOption.bind fun json => (Value.ofJson json).toOption

theorem exists_integer?_of_carries (route : IntegerRoute) {n : Int} (h : route.Carries n) :
    ∃ value, route.value? n = some value ∧ value.integer? = some n := by
  cases route with
  | native width => exact ⟨_, rfl, Value.integer?_ofNative width n⟩
  | wide width => exact ⟨_, rfl, rfl⟩
  | wideText text =>
    refine ⟨.wide ⟨n⟩, ?_, rfl⟩
    rw [value?, WideInteger.ofText?, integer?_eq_some_iff.2 h]
    rfl
  | source text =>
    refine ⟨.ofInteger n, ?_, Value.integer?_ofInteger n⟩
    have hvalue : (Value.ofJson (.number text)).toOption = some (.ofInteger n) := by
      rw [Value.ofJson_of_denotes h.2]
      rfl
    rw [value?, h.1.ofText_eq]
    exact hvalue

end IntegerRoute

/-- A JSON literal, however long, becomes the narrowest variant that holds the integer it denotes;
two are equal just when they denote the same one. An integer is written as the one literal other than
`-0` that denotes it. Every route that can hold an integer makes a value that is written so, and it
makes no difference to a filter or an update which variants its integers have. -/
theorem Value.integers_reach_wire :
    (∀ text, IntegerLiteral text → ∃ n value, (∀ m, DenotesInteger text.toList m ↔ m = n) ∧
      Json.ofText text = .ok (.number text) ∧ ofJson (.number text) = .ok value ∧
      Narrowest n value ∧ value.WrittenAs n) ∧
    (∀ text other n m, DenotesInteger text.toList n → DenotesInteger other.toList m →
      ∃ value value', ofJson (.number text) = .ok value ∧ ofJson (.number other) = .ok value' ∧
        (value.same value' = true ↔ n = m)) ∧
    (∀ text n, Json.number text = .ofInt n ↔
      IntegerLiteral text ∧ text ≠ "-0" ∧ DenotesInteger text.toList n) ∧
    (∀ (route : IntegerRoute) n, route.Carries n →
      ∃ value, route.value? n = some value ∧ value.WrittenAs n) ∧
    (∀ filter : Filter, filter.widened.encode = filter.encode) ∧
    ∀ update : Update, update.widened.encode = update.encode := by
  refine ⟨fun text h => ?_, fun text other n m hn hm => ?_, number_eq_ofInt_iff_denotes,
    fun route n h => ?_, Filter.encode_widened, Update.encode_widened⟩
  · obtain ⟨n, hn⟩ := h.exists_denotes
    refine ⟨n, ofInteger n, fun m => ?_, h.ofText_eq, ofJson_of_denotes hn, narrowest_ofInteger n,
      writtenAs_of_integer? (integer?_ofInteger n)⟩
    constructor
    · exact fun hm => hm.unique hn
    · rintro rfl
      exact hn
  · exact ⟨_, _, ofJson_of_denotes hn, ofJson_of_denotes hm, same_ofInteger_iff n m⟩
  · obtain ⟨value, hv, hi⟩ := route.exists_integer?_of_carries h
    exact ⟨value, hv, writtenAs_of_integer? hi⟩

/-- The integer after the greatest signed one of 64 bits, on routes that give it different variants. -/
theorem Value.integers_reach_wire_border :
    ∀ route ∈ [IntegerRoute.native .unsigned64, .native .signed128, .wide .unsigned64,
        .wideText "009223372036854775808", .source "9223372036854775808"],
      route.Carries 9223372036854775808 ∧
        ∃ value, route.value? 9223372036854775808 = some value ∧
          value.WrittenAs 9223372036854775808 := by
  have hwritten : ∀ route : IntegerRoute, route.Carries 9223372036854775808 →
      route.Carries 9223372036854775808 ∧
        ∃ value, route.value? 9223372036854775808 = some value ∧
          value.WrittenAs 9223372036854775808 :=
    fun route h => ⟨h, integers_reach_wire.2.2.2.1 route _ h⟩
  have hunsigned : IntegerWidth.unsigned64.Holds 9223372036854775808 := by decide
  have hsigned : IntegerWidth.signed128.Holds 9223372036854775808 := by decide
  have hplain : DenotesInteger "9223372036854775808".toList 9223372036854775808 :=
    integer?_eq_some_iff.1 (by decide +kernel)
  have hzeros : DenotesInteger "009223372036854775808".toList 9223372036854775808 :=
    integer?_eq_some_iff.1 (by decide +kernel)
  have hliteral : IntegerLiteral "9223372036854775808" :=
    ((exists_ofInt_iff _).1
      ⟨9223372036854775808, (number_eq_ofInt_iff _ _).2 (by decide +kernel)⟩).1
  refine List.forall_mem_cons.2 ⟨hwritten _ hunsigned, ?_⟩
  refine List.forall_mem_cons.2 ⟨hwritten _ hsigned, ?_⟩
  refine List.forall_mem_cons.2 ⟨hwritten _ ⟨by decide, by decide, hunsigned⟩, ?_⟩
  refine List.forall_mem_cons.2 ⟨hwritten _ hzeros, ?_⟩
  exact List.forall_mem_singleton.2 (hwritten _ ⟨hliteral, hplain⟩)

end DocWire
