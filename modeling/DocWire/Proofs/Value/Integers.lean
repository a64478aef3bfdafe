import DocWire.Proofs.Json.Canonical
import DocWire.Proofs.Number.WideInteger
import DocWire.Proofs.Value.Plain

/-!
# Values whose numbers are integers

An integer literal is the text of an integer, save for `-0`. A JSON value with such numbers alone is
read as a field value that has this very JSON value again, at every width of integers. Main
statements: `exists_ofInt_iff` and `toJson_ofJson`.
-/
set_option autoImplicit false

namespace DocWire

open Json.Grammar (Whole)

/-- A text is an integer literal: one zero, or digits that do not start with one, perhaps after a minus
sign. -/
def IntegerLiteral (text : String) : Prop :=
  ∃ ds, Whole ds ∧ (text.toList = ds ∨ text.toList = '-' :: ds)

theorem number_eq_ofInt_iff (text : String) (n : Int) :
    Json.number text = .ofInt n ↔ text.toList = signedDigits n := by
  rw [Json.ofInt_eq, Json.number.injEq]
  constructor
  · rintro rfl
    exact String.toList_ofList
  · intro h
    rw [← h, String.ofList_toList]

/-- The integer literals other than `-0` are the texts of integers. -/
theorem exists_ofInt_iff (text : String) :
    (∃ n, Json.number text = .ofInt n) ↔ IntegerLiteral text ∧ text ≠ "-0" := by
  simp only [number_eq_ofInt_iff]
  constructor
  · rintro ⟨n, hn⟩
    refine ⟨⟨digits n.natAbs, whole_digits _, ?_⟩, ?_⟩
    · rw [hn, signedDigits]
      split
      · exact .inr rfl
      · exact .inl rfl
    · rintro rfl
      have hread := integer?_signedDigits n
      rw [← hn] at hread
      obtain rfl : 0 = n := Option.some.inj hread
      exact absurd hn (by decide)
  · rintro ⟨⟨ds, hwhole, htext⟩, hne⟩
    have hdigits := digits_ofDigits hwhole
    rcases htext with htext | htext
    · refine ⟨ofDigits ds, ?_⟩
      have hn : ¬ (ofDigits ds : Int) < 0 := Int.not_lt.2 (Int.natCast_nonneg _)
      rw [htext, signedDigits, if_neg hn, Int.natAbs_natCast, hdigits]
    · refine ⟨-(ofDigits ds : Int), ?_⟩
      have hpos : ofDigits ds ≠ 0 := by
        intro hz
        rw [hz] at hdigits
        rw [← hdigits] at htext
        exact hne (String.toList_inj.1 htext)
      have hn : -(ofDigits ds : Int) < 0 := by omega
      rw [htext, signedDigits, if_pos hn, Int.natAbs_neg, Int.natAbs_natCast, hdigits]

/-! ## Whole values -/

namespace Value

mutual
/-- A value of texts of integers is read and written again as it is. -/
theorem exists_value_of_integers (json : Json) (hd : json.NamesDistinct)
    (hn : ∀ text ∈ json.numbers, ∃ n, Json.number text = .ofInt n) :
    ∃ value, ofJson json = .ok value ∧ value.toJson = .ok json := by
  match json with
  | .null => exact ⟨null, rfl, rfl⟩
  | .bool b => exact ⟨bool b, rfl, rfl⟩
  | .string s => exact ⟨string s, rfl, rfl⟩
  | .number text =>
    obtain ⟨n, he⟩ := hn text (List.mem_singleton_self text)
    rw [he]
    exact ⟨ofInteger n, ofJson_ofInt n, toJson_of_integer? (integer?_ofInteger n)⟩
  | .array items =>
    obtain ⟨values, hread, hwrite⟩ := exists_items_of_integers items hd hn
    refine ⟨array values, ?_, ?_⟩
    · rw [ofJson, hread, bind_ok]
    · rw [toJson, hwrite, bind_ok]
  | .object members =>
    obtain ⟨fields, hread, hwrite⟩ := exists_fields_of_integers members hd.2 hn
    -- No name comes twice, so that both insert the fields in the order in which they stand.
    have hdistinct : Entries.Distinct fields := by
      rw [Entries.Distinct, ← keys_of_toJsonFields hwrite]
      exact hd.1
    refine ⟨object fields, ?_, ?_⟩
    · rw [ofJson, hread, bind_ok, Entries.ofList_of_distinct hdistinct]
    · rw [toJson, hwrite, bind_ok, Entries.ofList_of_distinct hd.1]
termination_by structural json

theorem exists_items_of_integers (items : List Json) (hd : Json.ItemsDistinct items)
    (hn : ∀ text ∈ Json.itemNumbers items, ∃ n, Json.number text = .ofInt n) :
    ∃ values, ofJsonItems items = .ok values ∧ toJsonItems values = .ok items := by
  match items with
  | [] => exact ⟨[], rfl, rfl⟩
  | item :: rest =>
    obtain ⟨hitem, hrest⟩ := List.forall_mem_append.1 hn
    obtain ⟨value, hv, hj⟩ := exists_value_of_integers item hd.1 hitem
    obtain ⟨values, hread, hwrite⟩ := exists_items_of_integers rest hd.2 hrest
    refine ⟨value :: values, ?_, ?_⟩
    · rw [ofJsonItems, hv, bind_ok, hread, bind_ok]
    · rw [toJsonItems, hj, bind_ok, hwrite, bind_ok]
termination_by structural items

theorem exists_fields_of_integers (members : List (String × Json)) (hd : Json.MembersDistinct members)
    (hn : ∀ text ∈ Json.memberNumbers members, ∃ n, Json.number text = .ofInt n) :
    ∃ fields, ofJsonMembers members = .ok fields ∧ toJsonFields fields = .ok members := by
  match members with
  | [] => exact ⟨[], rfl, rfl⟩
  | (name, member) :: rest =>
    obtain ⟨hmember, hrest⟩ := List.forall_mem_append.1 hn
    obtain ⟨value, hv, hj⟩ := exists_value_of_integers member hd.1 hmember
    obtain ⟨fields, hread, hwrite⟩ := exists_fields_of_integers rest hd.2 hrest
    refine ⟨(name, value) :: fields, ?_, toJsonFields_cons_eq_ok_iff.2 ⟨member, rest, hj, hwrite, rfl⟩⟩
    rw [ofJsonMembers, hv, bind_ok, hread, bind_ok]
termination_by structural members
end

/-- A JSON value whose numbers are integer literals other than `-0` is read as a field value that has
this very JSON value. -/
theorem toJson_ofJson {json : Json} (hd : json.NamesDistinct)
    (hn : ∀ text ∈ json.numbers, IntegerLiteral text ∧ text ≠ "-0") :
    ∃ value, ofJson json = .ok value ∧ value.toJson = .ok json := by
  have hints : ∀ text ∈ json.numbers, ∃ n, Json.number text = .ofInt n := fun text ht =>
    (exists_ofInt_iff text).2 (hn text ht)
  exact exists_value_of_integers json hd hints

/-- Integers at the borders of both 64-bit ranges, in an array and in an object. -/
theorem toJson_ofJson_borders :
    let json : Json := .object [
      ("b", .array [.number "18446744073709551616", .number "-9223372036854775808"]),
      ("a", .object [("n", .number "9223372036854775808"), ("z", .null)])]
    json.NamesDistinct ∧ (∀ text ∈ json.numbers, IntegerLiteral text ∧ text ≠ "-0") ∧
      ∃ value, ofJson json = .ok value ∧ value.toJson = .ok json := by
  intro json
  have hd : json.NamesDistinct := by
    simp [json, Json.NamesDistinct, Json.MembersDistinct, Json.ItemsDistinct, Entries.Distinct,
      Entries.keys]
  have hspelled : ∀ (text : String) (n : Int), text.toList = signedDigits n →
      IntegerLiteral text ∧ text ≠ "-0" :=
    fun text n h => (exists_ofInt_iff text).1 ⟨n, (number_eq_ofInt_iff text n).2 h⟩
  have hn : ∀ text ∈ json.numbers, IntegerLiteral text ∧ text ≠ "-0" := by
    refine List.forall_mem_cons.2 ⟨hspelled _ 18446744073709551616 (by decide +kernel), ?_⟩
    refine List.forall_mem_cons.2 ⟨hspelled _ (-9223372036854775808) (by decide +kernel), ?_⟩
    exact List.forall_mem_singleton.2 (hspelled _ 9223372036854775808 (by decide +kernel))
  exact ⟨hd, hn, toJson_ofJson hd hn⟩

end Value
end DocWire
