import DocWire.Proofs.Entries
import DocWire.Proofs.Value.Leaves
import DocWire.Proofs.Value.Written
import Mathlib.Data.List.Forall2

/-!
# Values that are equal

Equality tells values apart as far as they can be told apart on the wire, but for the sign of a zero,
which it ignores and which is sent. Main statements: `Value.same_cases`, what it takes to be equal;
`Fields.parallel_leaves`, equal field maps have equal leaves or none by the same error; and
`Value.parallel_wire`, equal leaves are sent alike just when their zeros have the same sign.
-/
set_option autoImplicit false

namespace DocWire

/-! ## Zeros -/

namespace Binary64

theorem eq_zero_of_isZero {x : Binary64} (h : x.isZero = true) : x = zero x.negative := by
  obtain ⟨bits⟩ := x
  have hlt := bits.toNat_lt
  have hz : bits.toNat % 0x8000000000000000 = 0 := of_decide_eq_true h
  refine congrArg Binary64.mk (UInt64.toNat_inj.1 ?_)
  rw [UInt64.toNat_ofNat', negative]
  by_cases hn : 0x8000000000000000 ≤ bits.toNat
  · simp only [hn, decide_true, if_true]
    omega
  · simp only [hn, decide_false, Bool.false_eq_true, if_false]
    omega

/-- A zero is written with its sign. -/
theorem text_zero_inj {x y : Binary64} (hx : x.isZero = true) (hy : y.isZero = true) :
    x.text = y.text ↔ x.negative = y.negative := by
  have hsign : ∀ a b : Bool, (zero a).text = (zero b).text ↔ a = b := by decide +kernel
  rw [congrArg text (eq_zero_of_isZero hx), congrArg text (eq_zero_of_isZero hy)]
  exact hsign _ _

theorem isFinite_of_isZero {x : Binary64} (h : x.isZero = true) : x.isFinite = true := by
  have hz : x.magnitude = 0 := of_decide_eq_true h
  simp [isFinite, hz, BinaryLayout.double]

end Binary64

/-- Two things are the same just when these signs are, of which there are as many on both sides. -/
structure ToldApart {α : Type} (signs others : List Bool) (a b : α) : Prop where
  length_eq : signs.length = others.length
  eq_iff : a = b ↔ signs = others

namespace ToldApart
variable {α β : Type} {signs others signs' others' : List Bool}

theorem cons {a b : α} {as bs : List α} (h : ToldApart signs others a b)
    (hr : ToldApart signs' others' as bs) :
    ToldApart (signs ++ signs') (others ++ others') (a :: as) (b :: bs) where
  length_eq := by rw [List.length_append, List.length_append, h.length_eq, hr.length_eq]
  eq_iff := by
    rw [List.cons.injEq, h.eq_iff, hr.eq_iff, List.append_eq_append_iff_of_size_eq_left h.length_eq]

theorem map {a b : α} (h : ToldApart signs others a b) {f : α → β} (hf : f a = f b ↔ a = b) :
    ToldApart signs others (f a) (f b) := ⟨h.length_eq, hf.trans h.eq_iff⟩

end ToldApart

namespace Value

/-- The sign of a value that is a zero. -/
def zeroSigns : Value → List Bool
  | .float x => if x.isZero then [x.negative] else []
  | _ => []

/-- Equal values are one value, or zeros, or arrays, or objects with equal fields. -/
theorem same_cases {value other : Value} (h : value.same other = true) :
    value = other ∨
      (∃ x y, value = .float x ∧ other = .float y ∧ x.isZero = true ∧ y.isZero = true) ∨
      (∃ items others, value = .array items ∧ other = .array others) ∨
      ∃ fields others, value = .object fields ∧ other = .object others ∧
        sameFields fields others = true := by
  cases value with
  | null =>
    cases other with
    | null => exact .inl rfl
    | _ => cases h
  | float x =>
    cases other with
    | float y =>
      have hs : x.sameValue y = true := h
      simp only [Binary64.sameValue, Bool.and_eq_true, Bool.or_eq_true, beq_iff_eq] at hs
      rcases hs.2 with hb | ⟨hx, hy⟩
      · exact .inl (congrArg (fun bits => float ⟨bits⟩) hb)
      · exact .inr (.inl ⟨x, y, rfl, rfl, hx, hy⟩)
    | _ => cases h
  | array items =>
    cases other with
    | array others => exact .inr (.inr (.inl ⟨items, others, rfl, rfl⟩))
    | _ => cases h
  | object fields =>
    cases other with
    | object others => exact .inr (.inr (.inr ⟨fields, others, rfl, rfl, h⟩))
    | _ => cases h
  | bool a | int a | uint a | wide a | string a | instant a | uuid a =>
    -- Values of two variants are not equal.
    cases other <;> first | cases h | exact .inl (by rw [eq_of_beq h])

theorem notObject_of_same {value other : Value} (h : value.same other = true)
    (hn : value.NotObject) : other.NotObject := by
  rcases same_cases h with rfl | ⟨x, y, rfl, rfl, -⟩ | ⟨items, others, rfl, rfl⟩ |
    ⟨fields, others, rfl, -⟩
  · exact hn
  · exact fun _ => Value.noConfusion
  · exact fun _ => Value.noConfusion
  · exact absurd rfl (hn fields)

theorem wire_zero {x : Binary64} (h : x.isZero = true) (path : String) :
    (float x).wire .selector path = .ok (.number x.text) := by
  simp [wire, wireAt, Binary64.isFinite_of_isZero h]

/-- Equal values of a leaf are both refused, or they are told apart by the sign of a zero alone. -/
theorem parallel_wire {value other : Value} (h : value.same other = true) (hn : value.NotObject)
    (path : String) :
    Parallel (ToldApart value.zeroSigns other.zeroSigns) (value.wire .selector path)
      (other.wire .selector path) := by
  rcases same_cases h with rfl | ⟨x, y, rfl, rfl, hx, hy⟩ | ⟨items, others, rfl, rfl⟩ |
    ⟨fields, others, rfl, -⟩
  · exact .refl (fun _ => ⟨rfl, by simp⟩) _
  · rw [wire_zero hx, wire_zero hy, zeroSigns, zeroSigns, if_pos hx, if_pos hy]
    refine .ok ⟨rfl, ?_⟩
    rw [Json.number.injEq, List.singleton_inj]
    exact Binary64.text_zero_inj hx hy
  · exact .error _
  · exact absurd rfl (hn fields)

end Value

/-! ## Leaves -/

namespace Fields

/-- Two leaves of one path with equal values. -/
structure SameLeaf (leaf other : String × Value) : Prop where
  path_eq : leaf.1 = other.1
  same : leaf.2.same other.2 = true
  notObject : leaf.2.NotObject

theorem keys_eq_of_sameLeaf {leaves others : Fields} (h : List.Forall₂ SameLeaf leaves others) :
    Entries.keys leaves = Entries.keys others := by
  induction h with
  | nil => rfl
  | cons h _ ih => exact congrArg₂ List.cons h.path_eq ih

theorem parallel_addLeaf {path : String} {value other : Value} {found found' : Fields}
    (hf : List.Forall₂ SameLeaf found found') (h : value.same other = true) (hn : value.NotObject) :
    Parallel (List.Forall₂ SameLeaf) (addLeaf path value found) (addLeaf path other found') := by
  have hc : Entries.contains path found = Entries.contains path found' := by
    rw [Bool.eq_iff_iff, Entries.contains_iff_mem_keys, Entries.contains_iff_mem_keys,
      keys_eq_of_sameLeaf hf]
  unfold addLeaf
  rw [← hc]
  split
  · exact .error _
  · exact .ok (List.rel_append hf (.cons ⟨rfl, h, hn⟩ .nil))

theorem valueLeaves_of_notObject {value : Value} (hn : value.NotObject) (depth : Nat) (path : String)
    (found : Fields) : valueLeaves depth path found value = addLeaf path value found := by
  cases value with
  | object fields => exact absurd rfl (hn fields)
  | _ => rfl

theorem isEmpty_eq_of_sameFields {fields others : Fields} (h : Value.sameFields fields others = true) :
    fields.isEmpty = others.isEmpty := by
  cases fields with
  | nil =>
    cases others with
    | nil => rfl
    | cons _ _ => cases h
  | cons _ _ =>
    cases others with
    | nil => cases h
    | cons _ _ => rfl

/-- A value of its kind beside a leaf is a leaf. -/
theorem parallel_leaf {value other : Value} {found found' : Fields} (hn : value.NotObject)
    (hf : List.Forall₂ SameLeaf found found') (h : value.same other = true) (depth : Nat)
    (path : String) :
    Parallel (List.Forall₂ SameLeaf) (valueLeaves depth path found value)
      (valueLeaves depth path found' other) := by
  rw [valueLeaves_of_notObject hn, valueLeaves_of_notObject (Value.notObject_of_same h hn)]
  exact parallel_addLeaf hf h hn

mutual
theorem parallel_valueLeaves (depth : Nat) (path : String) (found found' : Fields)
    (value other : Value) (hf : List.Forall₂ SameLeaf found found') (h : value.same other = true) :
    Parallel (List.Forall₂ SameLeaf) (valueLeaves depth path found value)
      (valueLeaves depth path found' other) := by
  match value with
  | .object fields =>
    cases other with
    | object others =>
      unfold valueLeaves
      rw [← isEmpty_eq_of_sameFields h]
      split
      · exact .error _
      · split
        · exact .error _
        · exact parallel_fieldLeaves depth (some path) found found' fields others hf h
    | _ => cases h
  | .null | .bool _ | .int _ | .uint _ | .float _ | .wide _ | .string _ | .instant _ | .uuid _
  | .array _ => exact parallel_leaf (fun _ => Value.noConfusion) hf h depth path
termination_by structural value

theorem parallel_fieldLeaves (depth : Nat) (parent? : Option String) (found found' : Fields)
    (fields others : List (String × Value)) (hf : List.Forall₂ SameLeaf found found')
    (h : Value.sameFields fields others = true) :
    Parallel (List.Forall₂ SameLeaf) (fieldLeaves depth parent? found fields)
      (fieldLeaves depth parent? found' others) := by
  match fields with
  | [] =>
    cases others with
    | nil => exact .ok hf
    | cons _ _ => cases h
  | (name, value) :: rest =>
    cases others with
    | nil => cases h
    | cons field rest' =>
      obtain ⟨name', value'⟩ := field
      simp only [Value.sameFields, Bool.and_eq_true, beq_iff_eq] at h
      obtain ⟨⟨rfl, hv⟩, hr⟩ := h
      unfold fieldLeaves
      split
      · exact .error _
      · refine (parallel_valueLeaves (depth + 1) (childPath parent? name) found found' value value'
          hf hv).bind fun middle middle' hm => ?_
        exact parallel_fieldLeaves depth parent? middle middle' rest rest' hm hr
termination_by structural fields
end

/-- Equal field maps have equal leaves, or none by the same error. -/
theorem parallel_leaves {fields others : Fields} (h : fields.same others = true) :
    Parallel (List.Forall₂ SameLeaf) fields.leaves others.leaves :=
  parallel_fieldLeaves 1 none [] [] fields others .nil h

end Fields
end DocWire
