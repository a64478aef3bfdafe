import DocWire.Json.Canonical
import DocWire.Proofs.Json.Acceptance
import DocWire.Proofs.Number.ReadBack

/-!
# Values that are handed over

A value that is handed over keeps its shape, its names and its strings; its numbers may be spelled
anew, but each reads as the same integer or the same double. Main statements: `canonicalNumber_reads`;
`isSome_canonical?_iff`, a value is handed over just when it can be unwrapped;
`canonical?_eq_self_iff`, a plain value stays as it was just when each of its numbers does; and
`canonical?_ofInt`, integers of up to 128 bits stay as they are written.
-/
set_option autoImplicit false

namespace DocWire.Json

mutual
/-- The texts of the numbers in a value, in order. -/
def numbers : Json → List String
  | number text => [text]
  | array items => itemNumbers items
  | object members => memberNumbers members
  | null => []
  | bool _ => []
  | string _ => []

def itemNumbers : List Json → List String
  | [] => []
  | item :: rest => numbers item ++ itemNumbers rest

def memberNumbers : List (String × Json) → List String
  | [] => []
  | (_, value) :: rest => numbers value ++ memberNumbers rest
end

/-! ## One number -/

theorem canonicalDouble_reads (text : String) :
    canonicalDouble text = text ∨
      ∃ x : Binary64, x.isFinite = true ∧ Binary64.ofText? text = some x ∧
        Binary64.ofText? (canonicalDouble text) = some x := by
  unfold canonicalDouble
  cases hx : (Binary64.ofText? text).filter Binary64.isFinite with
  | none => exact .inl rfl
  | some x =>
    obtain ⟨hread, hf⟩ := Option.filter_eq_some_iff.1 hx
    simp only
    split
    · exact .inr ⟨x, hf, hread, Binary64.ofText?_text hf⟩
    · exact .inl rfl

/-- A number that is spelled anew reads as the same integer or as the same double. -/
theorem canonicalNumber_reads (text : String) :
    canonicalNumber text = text ∨
      (∃ n, integer? text.toList = some n ∧ integer? (canonicalNumber text).toList = some n) ∨
      ∃ x : Binary64, x.isFinite = true ∧ Binary64.ofText? text = some x ∧
        Binary64.ofText? (canonicalNumber text) = some x := by
  unfold canonicalNumber
  cases hn : (WideInteger.ofText? text).filter fun n => isHandedOver n.value with
  | none => exact (canonicalDouble_reads text).imp_right .inr
  | some n =>
    obtain ⟨hread, -⟩ := Option.filter_eq_some_iff.1 hn
    obtain ⟨m, hm, rfl⟩ := Option.map_eq_some_iff.1 hread
    have ht : (WideInteger.mk m).text.toList = signedDigits m := String.toList_ofList
    exact .inr (.inl ⟨m, hm, (congrArg DocWire.integer? ht).trans (integer?_signedDigits m)⟩)

/-- An integer of up to 128 bits stays as it is written. -/
theorem canonical?_ofInt {n : Int} (h : isHandedOver n = true) :
    (ofInt n).canonical? = some (ofInt n) := by
  have hread : WideInteger.ofText? (String.ofList (signedDigits n)) = some ⟨n⟩ := by
    rw [WideInteger.ofText?, String.toList_ofList, integer?_signedDigits]
    rfl
  rw [ofInt, toString_eq_signedDigits, canonical?, canonicalNumber, hread, Option.filter_some, if_pos h]
  rfl

/-! ## Whole values -/

/-- Wrapped members are handed over when they are the text of a number and no more. -/
theorem isSome_unwrapped?_iff {members : Entries Json} (h : isWrapped members = true) :
    (unwrapped? members).isSome ↔ ∃ plain, Unwraps (.object members) plain := by
  constructor
  · intro hs
    obtain ⟨json, hj⟩ := Option.isSome_iff_exists.1 hs
    unfold unwrapped? at hj
    split at hj
    · rename_i name text
      obtain ⟨hn, -⟩ := Grammar.exists_of_numberOf? hj
      rw [isWrapped_cons, decide_eq_true_eq] at h
      obtain rfl : name = numberName := h
      exact ⟨.number text, .wrapped hn⟩
    · cases hj
  · rintro ⟨plain, hu⟩
    rcases hu.of_object with ⟨hw, -⟩ | ⟨text, hn, rfl, -⟩
    · rw [hw] at h
      cases h
    · rw [unwrapped?, Grammar.numberOf?_of_number hn]
      rfl

theorem unwrapped?_ne_object (members others : Entries Json) :
    unwrapped? members ≠ some (object others) := by
  intro h
  unfold unwrapped? at h
  split at h
  · cases (Grammar.exists_of_numberOf? h).2
  · cases h

mutual
/-- A value is handed over just when it can be unwrapped. -/
theorem isSome_canonical?_iff (json : Json) :
    json.canonical?.isSome ↔ ∃ plain, json.Unwraps plain := by
  match json with
  | null => exact iff_of_true rfl ⟨_, .null⟩
  | bool b => exact iff_of_true rfl ⟨_, .bool b⟩
  | number text => exact iff_of_true rfl ⟨_, .number text⟩
  | string s => exact iff_of_true rfl ⟨_, .string s⟩
  | array items =>
    rw [canonical?, Option.isSome_map, isSome_canonicalItems?_iff items]
    constructor
    · rintro ⟨others, h⟩
      exact ⟨.array others, .array h⟩
    · rintro ⟨plain, hu⟩
      obtain ⟨others, h, -⟩ := hu.of_array
      exact ⟨others, h⟩
  | object members =>
    rw [canonical?]
    split
    · rename_i hw
      exact isSome_unwrapped?_iff hw
    · rename_i hw
      rw [Option.isSome_map, isSome_canonicalMembers?_iff members]
      constructor
      · rintro ⟨others, h⟩
        exact ⟨.object others, .object (Bool.eq_false_iff.2 hw) h⟩
      · rintro ⟨plain, hu⟩
        rcases hu.of_object with ⟨-, others, h, -⟩ | ⟨text, -, rfl, -⟩
        · exact ⟨others, h⟩
        · exact absurd rfl hw

theorem isSome_canonicalItems?_iff (items : List Json) :
    (canonicalItems? items).isSome ↔ ∃ others, UnwrapsItems items others := by
  match items with
  | [] => exact iff_of_true rfl ⟨[], .nil⟩
  | item :: rest =>
    have hi := isSome_canonical?_iff item
    have hr := isSome_canonicalItems?_iff rest
    rw [Option.isSome_iff_exists] at hi hr
    rw [canonicalItems?, Option.isSome_iff_exists]
    constructor
    · rintro ⟨list, h⟩
      obtain ⟨item', h1, h⟩ := Option.bind_eq_some_iff.1 h
      obtain ⟨rest', h2, -⟩ := Option.bind_eq_some_iff.1 h
      obtain ⟨other, hu⟩ := hi.1 ⟨item', h1⟩
      obtain ⟨others, hus⟩ := hr.1 ⟨rest', h2⟩
      exact ⟨other :: others, .cons hu hus⟩
    · rintro ⟨plain, hu⟩
      obtain ⟨other, others, hu, hus, -⟩ := hu.of_cons
      obtain ⟨item', h1⟩ := hi.2 ⟨other, hu⟩
      obtain ⟨rest', h2⟩ := hr.2 ⟨others, hus⟩
      exact ⟨item' :: rest', by rw [h1, h2]; rfl⟩

theorem isSome_canonicalMembers?_iff (members : List (String × Json)) :
    (canonicalMembers? members).isSome ↔ ∃ others, UnwrapsMembers members others := by
  match members with
  | [] => exact iff_of_true rfl ⟨[], .nil⟩
  | (name, value) :: rest =>
    have hv := isSome_canonical?_iff value
    have hr := isSome_canonicalMembers?_iff rest
    rw [Option.isSome_iff_exists] at hv hr
    rw [canonicalMembers?, Option.isSome_iff_exists]
    constructor
    · rintro ⟨list, h⟩
      obtain ⟨value', h1, h⟩ := Option.bind_eq_some_iff.1 h
      obtain ⟨rest', h2, -⟩ := Option.bind_eq_some_iff.1 h
      obtain ⟨other, hu⟩ := hv.1 ⟨value', h1⟩
      obtain ⟨others, hus⟩ := hr.1 ⟨rest', h2⟩
      exact ⟨(name, other) :: others, .cons hu hus⟩
    · rintro ⟨plain, hu⟩
      obtain ⟨other, others, hu, hus, -⟩ := hu.of_cons
      obtain ⟨value', h1⟩ := hv.2 ⟨other, hu⟩
      obtain ⟨rest', h2⟩ := hr.2 ⟨others, hus⟩
      exact ⟨(name, value') :: rest', by rw [h1, h2]; rfl⟩
end

theorem bind_cons_eq_some_iff {α β : Type} {a? : Option α} {rest? : Option (List β)} {f : α → β}
    {b : β} {rest : List β} :
    (a? >>= fun a => rest? >>= fun rest => some (f a :: rest)) = some (b :: rest) ↔
      a?.map f = some b ∧ rest? = some rest := by
  cases a? <;> cases rest? <;> simp

mutual
/-- A value stays as it was just when it is plain and each of its numbers stays. -/
theorem canonical?_eq_self_iff (json : Json) :
    json.canonical? = some json ↔
      json.Plain ∧ ∀ text ∈ json.numbers, canonicalNumber text = text := by
  match json with
  | null | bool _ | string _ => simp [canonical?, numbers, Plain]
  | number text => simp [canonical?, numbers, Plain]
  | array items =>
    have hi := canonicalItems?_eq_self_iff items
    rw [canonical?, numbers, Plain, ← hi, Option.map_eq_some_iff]
    simp
  | object members =>
    have hm := canonicalMembers?_eq_self_iff members
    rw [canonical?, numbers, Plain]
    split
    · rename_i hw
      rw [hw]
      simp [unwrapped?_ne_object]
    · rename_i hw
      rw [Bool.eq_false_iff.2 hw, eq_self_iff_true, true_and, ← hm, Option.map_eq_some_iff]
      simp

theorem canonicalItems?_eq_self_iff (items : List Json) :
    canonicalItems? items = some items ↔
      ItemsPlain items ∧ ∀ text ∈ itemNumbers items, canonicalNumber text = text := by
  match items with
  | [] => simp [canonicalItems?, itemNumbers, ItemsPlain]
  | item :: rest =>
    have hi := canonical?_eq_self_iff item
    have hr := canonicalItems?_eq_self_iff rest
    rw [canonicalItems?, bind_cons_eq_some_iff, Option.map_id', hi, hr, ItemsPlain, itemNumbers,
      List.forall_mem_append]
    tauto

theorem canonicalMembers?_eq_self_iff (members : List (String × Json)) :
    canonicalMembers? members = some members ↔
      MembersPlain members ∧ ∀ text ∈ memberNumbers members, canonicalNumber text = text := by
  match members with
  | [] => simp [canonicalMembers?, memberNumbers, MembersPlain]
  | (name, value) :: rest =>
    have hv := canonical?_eq_self_iff value
    have hr := canonicalMembers?_eq_self_iff rest
    have hpair : (value.canonical?.map fun other => (name, other)) = some (name, value) ↔
        value.canonical? = some value := by
      rw [Option.map_eq_some_iff]
      simp
    rw [canonicalMembers?, bind_cons_eq_some_iff, hpair, hv, hr, MembersPlain, memberNumbers,
      List.forall_mem_append]
    tauto
end

/-- A member that is handed over keeps its name. -/
theorem get?_canonicalMembers? (name : String) {members others : Entries Json}
    (h : canonicalMembers? members = some others) :
    Entries.get? name others = (Entries.get? name members).bind canonical? := by
  induction members generalizing others with
  | nil =>
    cases h
    rfl
  | cons member rest ih =>
    obtain ⟨name', value⟩ := member
    obtain ⟨other, hv, h⟩ := Option.bind_eq_some_iff.1 h
    obtain ⟨others, hr, h⟩ := Option.bind_eq_some_iff.1 h
    cases h
    rw [Entries.get?, Entries.get?]
    split
    · exact hv.symm
    · exact ih hr

end DocWire.Json
