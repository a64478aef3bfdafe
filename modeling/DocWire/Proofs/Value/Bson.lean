import DocWire.Proofs.Value.Source
import DocWire.Value.Bson

/-!
# Field values that BSON denotes

A BSON value and a JSON value of the same structure (`Bson.Mirrors`) are the same field value. A BSON
value is no field value when something is wrong with one of its parts, and the first such part, a
container before what it holds, is the one that the error is about. Main statements:
`errorOf?_ofBson` and `bson_agrees_with_json`.
-/
set_option autoImplicit false

namespace DocWire
namespace Bson

/-! ## Parts -/

mutual
/-- A value and everything in it, each container before what it holds. -/
def parts : Bson → List Bson
  | array items => array items :: itemParts items
  | document members => document members :: memberParts members
  | b => [b]

def itemParts : List Bson → List Bson
  | [] => []
  | item :: rest => parts item ++ itemParts rest

def memberParts : List (String × Bson) → List Bson
  | [] => []
  | (_, member) :: rest => parts member ++ memberParts rest
end

/-- Kinds of values that JSON has too; doubles, dates and the kinds without a wire form are others. -/
def IsCommon : Bson → Prop
  | double _ => False
  | datetime _ => False
  | unsupported _ => False
  | _ => True

/-- What is wrong with a value in itself: a date lies before the year -262143 or after the year
262142, or a kind has no wire form. -/
inductive Refused : Bson → ValueFault → Prop
  | datetime {millis : Int64}
      (h : millis.toInt < -8334601228800000 ∨ 8210266876799999 < millis.toInt) :
      Refused (.datetime millis) (.instantOutOfRange millis.toInt)
  | unsupported (kind : String) : Refused (.unsupported kind) (.unsupportedKind kind)

example : CivilDate.ofDays ((-8334601228800000 : Int).fdiv 86400000) = ⟨-262143, 1, 1⟩ := by decide

example : CivilDate.ofDays ((8210266876799999 : Int).fdiv 86400000) = ⟨262142, 12, 31⟩ := by decide

/-- What is wrong with a value in itself, if anything. -/
def fault? : Bson → Option ValueFault
  | datetime millis =>
    if millis.toInt < -8334601228800000 ∨ 8210266876799999 < millis.toInt then
      some (.instantOutOfRange millis.toInt)
    else none
  | unsupported kind => some (.unsupportedKind kind)
  | _ => none

theorem fault?_eq_some_iff {b : Bson} {fault : ValueFault} : b.fault? = some fault ↔ b.Refused fault := by
  constructor
  · intro h
    cases b with
    | datetime millis =>
      rw [fault?] at h
      split at h
      · rename_i hm
        cases h
        exact .datetime hm
      · cases h
    | unsupported kind =>
      cases h
      exact .unsupported kind
    | null | bool _ | int32 _ | int64 _ | double _ | string _ | array _ | document _ => cases h
  · intro h
    cases h with
    | datetime h => exact if_pos h
    | unsupported => rfl

theorem fault?_eq_none_iff {b : Bson} : b.fault? = none ↔ ∀ fault, ¬ b.Refused fault := by
  simp only [← fault?_eq_some_iff, Option.eq_none_iff_forall_ne_some, Ne]

/-! ## The same structure -/

mutual
/-- A JSON value of the same structure; an integer of either width is a number that denotes it. -/
inductive Mirrors : Bson → Json → Prop
  | null : Mirrors .null .null
  | bool (b : Bool) : Mirrors (.bool b) (.bool b)
  | int32 {n : Int32} {text : String} (h : DenotesInteger text.toList n.toInt) :
      Mirrors (.int32 n) (.number text)
  | int64 {n : Int64} {text : String} (h : DenotesInteger text.toList n.toInt) :
      Mirrors (.int64 n) (.number text)
  | string (s : String) : Mirrors (.string s) (.string s)
  | array {items : List Bson} {others : List Json} (h : ItemsMirror items others) :
      Mirrors (.array items) (.array others)
  | document {members : List (String × Bson)} {others : Entries Json}
      (h : MembersMirror members others) : Mirrors (.document members) (.object others)

inductive ItemsMirror : List Bson → List Json → Prop
  | nil : ItemsMirror [] []
  | cons {item : Bson} {other : Json} {items : List Bson} {others : List Json}
      (h : Mirrors item other) (hr : ItemsMirror items others) :
      ItemsMirror (item :: items) (other :: others)

/-- Members of the same names in the same order. -/
inductive MembersMirror : List (String × Bson) → List (String × Json) → Prop
  | nil : MembersMirror [] []
  | cons {name : String} {member : Bson} {other : Json} {members : List (String × Bson)}
      {others : List (String × Json)} (h : Mirrors member other) (hr : MembersMirror members others) :
      MembersMirror ((name, member) :: members) ((name, other) :: others)
end

/-- Every integer is denoted by the number that is written for it. -/
theorem denotesInteger_signedDigits (n : Int) :
    DenotesInteger (String.ofList (signedDigits n)).toList n := by
  rw [String.toList_ofList]
  exact integer?_eq_some_iff.1 (integer?_signedDigits n)

mutual
/-- A value has a JSON value of its structure when all of its parts are of kinds that JSON has. -/
theorem exists_mirrors_iff (b : Bson) : (∃ json, b.Mirrors json) ↔ ∀ inner ∈ b.parts, inner.IsCommon := by
  match b with
  | .null => exact iff_of_true ⟨_, .null⟩ (by simp [parts, IsCommon])
  | .bool b => exact iff_of_true ⟨_, .bool b⟩ (by simp [parts, IsCommon])
  | .int32 n => exact iff_of_true ⟨_, .int32 (denotesInteger_signedDigits _)⟩ (by simp [parts, IsCommon])
  | .int64 n => exact iff_of_true ⟨_, .int64 (denotesInteger_signedDigits _)⟩ (by simp [parts, IsCommon])
  | .string s => exact iff_of_true ⟨_, .string s⟩ (by simp [parts, IsCommon])
  | .double _ | .datetime _ | .unsupported _ =>
    refine iff_of_false ?_ (by simp [parts, IsCommon])
    rintro ⟨json, ⟨⟩⟩
  | .array items =>
    rw [parts, List.forall_mem_cons, ← exists_itemsMirror_iff items]
    constructor
    · rintro ⟨json, h⟩
      cases h with
      | array h => exact ⟨trivial, _, h⟩
    · rintro ⟨-, others, h⟩
      exact ⟨_, .array h⟩
  | .document members =>
    rw [parts, List.forall_mem_cons, ← exists_membersMirror_iff members]
    constructor
    · rintro ⟨json, h⟩
      cases h with
      | document h => exact ⟨trivial, _, h⟩
    · rintro ⟨-, others, h⟩
      exact ⟨_, .document h⟩

theorem exists_itemsMirror_iff (items : List Bson) :
    (∃ others, ItemsMirror items others) ↔ ∀ inner ∈ itemParts items, inner.IsCommon := by
  match items with
  | [] => exact iff_of_true ⟨_, .nil⟩ fun inner hi => absurd hi List.not_mem_nil
  | item :: rest =>
    rw [itemParts, List.forall_mem_append, ← exists_mirrors_iff item, ← exists_itemsMirror_iff rest]
    constructor
    · rintro ⟨others, h⟩
      cases h with
      | cons h hr => exact ⟨⟨_, h⟩, _, hr⟩
    · rintro ⟨⟨other, h⟩, others, hr⟩
      exact ⟨_, .cons h hr⟩

theorem exists_membersMirror_iff (members : List (String × Bson)) :
    (∃ others, MembersMirror members others) ↔ ∀ inner ∈ memberParts members, inner.IsCommon := by
  match members with
  | [] => exact iff_of_true ⟨_, .nil⟩ fun inner hi => absurd hi List.not_mem_nil
  | (name, member) :: rest =>
    rw [memberParts, List.forall_mem_append, ← exists_mirrors_iff member,
      ← exists_membersMirror_iff rest]
    constructor
    · rintro ⟨others, h⟩
      cases h with
      | cons h hr => exact ⟨⟨_, h⟩, _, hr⟩
    · rintro ⟨⟨other, h⟩, others, hr⟩
      exact ⟨_, .cons h hr⟩
end

end Bson

/-! ## Values -/

namespace Value

theorem holds_int32 (n : Int32) : IntegerWidth.signed64.Holds n.toInt := by
  have hl := n.le_toInt
  have hu := n.toInt_lt
  constructor
  · show -0x8000000000000000 ≤ n.toInt
    omega
  · show n.toInt ≤ 0x7FFFFFFFFFFFFFFF
    omega

theorem holds_int64 (n : Int64) : IntegerWidth.signed64.Holds n.toInt :=
  ⟨n.le_toInt, Int.le_of_lt_add_one n.toInt_lt⟩

/-- An integer of at most 64 bits is the signed variant, whatever text denotes it. -/
theorem ofNumber_of_denotes {text : String} {n : Int} (h : DenotesInteger text.toList n)
    (hn : IntegerWidth.signed64.Holds n) : ofNumber text = .ok (int (Int64.ofInt n)) := by
  rw [ofNumber, integer?_eq_some_iff.2 h]
  exact congrArg Except.ok (if_pos hn)

mutual
/-- Both conversions make the same of values of the same structure. -/
theorem exists_of_mirrors {b : Bson} {json : Json} (h : b.Mirrors json) :
    ∃ v, ofBson b = .ok v ∧ ofJson json = .ok v := by
  cases h with
  | null | bool _ | string _ => exact ⟨_, rfl, rfl⟩
  | @int32 n _ h => exact ⟨_, rfl, ofNumber_of_denotes h (holds_int32 n)⟩
  | @int64 n _ h =>
    refine ⟨.int n, rfl, ?_⟩
    rw [ofJson, ofNumber_of_denotes h (holds_int64 n), Int64.ofInt_toInt]
  | array h =>
    obtain ⟨values, hb, hj⟩ := exists_of_itemsMirror h
    refine ⟨.array values, ?_, ?_⟩
    · rw [ofBson, hb, bind_ok]
    · rw [ofJson, hj, bind_ok]
  | document h =>
    obtain ⟨values, hb, hj⟩ := exists_of_membersMirror h
    refine ⟨.object (Entries.ofList values), ?_, ?_⟩
    · rw [ofBson, hb, bind_ok]
    · rw [ofJson, hj, bind_ok]

theorem exists_of_itemsMirror {items : List Bson} {others : List Json}
    (h : Bson.ItemsMirror items others) :
    ∃ values, ofBsonItems items = .ok values ∧ ofJsonItems others = .ok values := by
  cases h with
  | nil => exact ⟨_, rfl, rfl⟩
  | cons h hr =>
    obtain ⟨value, hb, hj⟩ := exists_of_mirrors h
    obtain ⟨values, hbs, hjs⟩ := exists_of_itemsMirror hr
    refine ⟨value :: values, ?_, ?_⟩
    · rw [ofBsonItems, hb, bind_ok, hbs, bind_ok]
    · rw [ofJsonItems, hj, bind_ok, hjs, bind_ok]

theorem exists_of_membersMirror {members : List (String × Bson)} {others : List (String × Json)}
    (h : Bson.MembersMirror members others) :
    ∃ values, ofBsonMembers members = .ok values ∧ ofJsonMembers others = .ok values := by
  cases h with
  | nil => exact ⟨_, rfl, rfl⟩
  | @cons name _ _ _ _ h hr =>
    obtain ⟨value, hb, hj⟩ := exists_of_mirrors h
    obtain ⟨values, hbs, hjs⟩ := exists_of_membersMirror hr
    refine ⟨(name, value) :: values, ?_, ?_⟩
    · rw [ofBsonMembers, hb, bind_ok, hbs, bind_ok]
    · rw [ofJsonMembers, hj, bind_ok, hjs, bind_ok]
end

/-! ## Errors -/

theorem ofMillis?_eq_none_iff {millis : Int} :
    Instant.ofMillis? millis = none ↔ millis < -8334601228800000 ∨ 8210266876799999 < millis := by
  unfold Instant.ofMillis?
  split
  · rename_i h
    exact iff_of_false (Option.some_ne_none _) (by omega)
  · rename_i h
    exact iff_of_true rfl (by omega)

theorem errorOf?_ofBson_datetime (millis : Int64) :
    errorOf? (ofBson (.datetime millis)) = (Bson.fault? (.datetime millis)).map Failure.value := by
  have hnone := @ofMillis?_eq_none_iff millis.toInt
  rw [ofBson, Bson.fault?]
  cases ht : Instant.ofMillis? millis.toInt with
  | none =>
    rw [if_pos (hnone.1 ht)]
    rfl
  | some t =>
    rw [if_neg (mt hnone.2 (Option.ne_none_iff_exists'.2 ⟨t, ht⟩))]
    rfl

mutual
/-- The error of a value is that of its first part with which something is wrong. -/
theorem errorOf?_ofBson (b : Bson) :
    errorOf? (ofBson b) = (b.parts.findSome? Bson.fault?).map Failure.value := by
  match b with
  | .null | .bool _ | .int32 _ | .int64 _ | .double _ | .string _ | .unsupported _ => rfl
  | .datetime millis =>
    have hp : (Bson.datetime millis).parts = [.datetime millis] := rfl
    rw [errorOf?_ofBson_datetime, hp, List.findSome?_singleton]
  | .array items =>
    rw [ofBson, errorOf?_bind_ok, errorOf?_ofBsonItems items]
    rfl
  | .document members =>
    rw [ofBson, errorOf?_bind_ok, errorOf?_ofBsonMembers members]
    rfl

theorem errorOf?_ofBsonItems (items : List Bson) :
    errorOf? (ofBsonItems items) = ((Bson.itemParts items).findSome? Bson.fault?).map Failure.value := by
  match items with
  | [] => rfl
  | item :: rest =>
    rw [ofBsonItems, errorOf?_bind_bind_ok, errorOf?_ofBson item, errorOf?_ofBsonItems rest,
      Bson.itemParts, List.findSome?_append, Option.map_or]

theorem errorOf?_ofBsonMembers (members : List (String × Bson)) :
    errorOf? (ofBsonMembers members) =
      ((Bson.memberParts members).findSome? Bson.fault?).map Failure.value := by
  match members with
  | [] => rfl
  | (name, member) :: rest =>
    rw [ofBsonMembers, errorOf?_bind_bind_ok, errorOf?_ofBson member, errorOf?_ofBsonMembers rest,
      Bson.memberParts, List.findSome?_append, Option.map_or]
end

theorem ofBson_eq_error_iff {b : Bson} {e : Failure} :
    ofBson b = .error e ↔ ∃ front inner back fault, b.parts = front ++ inner :: back ∧
      (∀ earlier ∈ front, ∀ fault, ¬ Bson.Refused earlier fault) ∧ Bson.Refused inner fault ∧
      e = .value fault := by
  rw [← errorOf?_eq_some_iff, errorOf?_ofBson]
  simp only [Option.map_eq_some_iff, List.findSome?_eq_some_iff, Bson.fault?_eq_some_iff,
    Bson.fault?_eq_none_iff]
  constructor
  · rintro ⟨fault, ⟨front, inner, back, hp, hi, hf⟩, rfl⟩
    exact ⟨front, inner, back, fault, hp, hf, hi, rfl⟩
  · rintro ⟨front, inner, back, fault, hp, hf, hi, rfl⟩
    exact ⟨fault, ⟨front, inner, back, hp, hi, hf⟩, rfl⟩

theorem exists_ofBson_eq_error_iff {b : Bson} :
    (∃ e, ofBson b = .error e) ↔ ∃ inner ∈ b.parts, ∃ fault, Bson.Refused inner fault := by
  simp only [← errorOf?_eq_some_iff, errorOf?_ofBson, ← Option.isSome_iff_exists, Option.isSome_map,
    List.findSome?_isSome_iff, ← Bson.fault?_eq_some_iff]

/-- BSON values of the kinds that JSON has, nested to any depth, are the same field values as the JSON
values of their structure. Any BSON value fails to be a field value if and only if something is wrong
with a part of it, and its error is about the first such part. -/
theorem bson_agrees_with_json :
    (∀ b : Bson, (∃ json, b.Mirrors json) ↔ ∀ inner ∈ b.parts, inner.IsCommon) ∧
    (∀ {b : Bson} {json : Json}, b.Mirrors json → ∃ v, ofBson b = .ok v ∧ ofJson json = .ok v) ∧
    (∀ b : Bson,
      (∃ e, ofBson b = .error e) ↔ ∃ inner ∈ b.parts, ∃ fault, Bson.Refused inner fault) ∧
    ∀ (b : Bson) (e : Failure),
      ofBson b = .error e ↔ ∃ front inner back fault, b.parts = front ++ inner :: back ∧
        (∀ earlier ∈ front, ∀ fault, ¬ Bson.Refused earlier fault) ∧ Bson.Refused inner fault ∧
        e = .value fault :=
  ⟨Bson.exists_mirrors_iff, exists_of_mirrors, fun _ => exists_ofBson_eq_error_iff,
    fun _ _ => ofBson_eq_error_iff⟩

/-- An array in a document, a document in the array, and integers of both widths. -/
theorem bson_agrees_with_json_nested :
    let b : Bson := .document [("a", .array [.int32 (-7), .document [("n", .null)]]),
      ("b", .int64 9007199254740993), ("c", .string "x")]
    let json : Json := .object [("a", .array [.number "-7", .object [("n", .null)]]),
      ("b", .number "9007199254740993"), ("c", .string "x")]
    b.Mirrors json ∧ ∃ v, ofBson b = .ok v ∧ ofJson json = .ok v := by
  intro b json
  have hseven : DenotesInteger "-7".toList (-7 : Int32).toInt := integer?_eq_some_iff.1 (by decide)
  have hwide : DenotesInteger "9007199254740993".toList (9007199254740993 : Int64).toInt :=
    integer?_eq_some_iff.1 (by decide)
  have h : b.Mirrors json :=
    .document (.cons (.array (.cons (.int32 hseven) (.cons (.document (.cons .null .nil)) .nil)))
      (.cons (.int64 hwide) (.cons (.string "x") .nil)))
  obtain ⟨-, hagrees, -, -⟩ := bson_agrees_with_json
  exact ⟨h, hagrees h⟩

end Value
end DocWire
