import DocWire.Proofs.Filter.Payload
import DocWire.Proofs.Value.Dotted
import DocWire.Proofs.Value.Equality

/-!
# Texts of filters that are equal

Equal filters are both refused or both written. Their texts differ when a zero has another sign in one
than in the other, and for no other reason. Main statements: `encode_of_same`, and
`zeros_of_two_texts`, two filters that are equal and have two texts.
-/
set_option autoImplicit false

namespace DocWire

/-! ## The signs of zeros -/

/-- The signs of the zeros among leaves, in order. -/
def Fields.zeroSigns (leaves : Fields) : List Bool := leaves.flatMap fun leaf => leaf.2.zeroSigns

/-- The signs of the zeros that a selector compares with, in the order of its leaves. -/
def Selector.zeroSigns (s : Selector) : List Bool := s.fields.dotted.zeroSigns

mutual
/-- The signs of the zeros in a logical filter, in order. -/
def LogicalFilter.zeroSigns : LogicalFilter → List Bool
  | .ofSelectors _ children => children.flatMap Selector.zeroSigns
  | .ofFilters _ children => LogicalFilter.allZeroSigns children

def LogicalFilter.allZeroSigns : List LogicalFilter → List Bool
  | [] => []
  | filter :: rest => LogicalFilter.zeroSigns filter ++ LogicalFilter.allZeroSigns rest
end

/-- The signs of the zeros that a filter compares with, in the order in which they are written. -/
def Filter.zeroSigns : Filter → List Bool
  | .selector s => s.zeroSigns
  | .logical l => l.zeroSigns

/-! ## Selectors -/

theorem Comparison.compare_inj (op : Comparison) {a b : Json} :
    op.compare a = op.compare b ↔ a = b := by
  unfold compare
  cases op.keyword? <;> simp

namespace Selector

theorem parallel_wireLeaves (op : Comparison) {leaves others : Fields}
    (h : List.Forall₂ Fields.SameLeaf leaves others) :
    Parallel (ToldApart leaves.zeroSigns others.zeroSigns) (wireLeaves op leaves)
      (wireLeaves op others) := by
  induction h with
  | nil => exact .ok ⟨rfl, by simp⟩
  | @cons leaf other rest rest' h hr ih =>
    obtain ⟨path, value⟩ := leaf
    obtain ⟨path', value'⟩ := other
    obtain rfl : path = path' := h.path_eq
    refine (Value.parallel_wire h.same h.notObject path).bind fun json json' hj => ?_
    refine ih.bind fun tail tail' ht => .ok ?_
    have hcompare : (path, op.compare json) = (path, op.compare json') ↔ json = json' := by
      rw [Prod.mk.injEq, op.compare_inj]
      exact and_iff_right rfl
    exact (hj.map (f := fun json => (path, op.compare json)) hcompare).cons ht

/-- Equal selectors are both refused, or they are told apart by the signs of zeros alone. -/
theorem parallel_wire {s t : Selector} (h : s.same t = true) :
    Parallel (ToldApart s.zeroSigns t.zeroSigns) s.wire t.wire := by
  obtain ⟨op, fields⟩ := s
  obtain ⟨op', others⟩ := t
  simp only [same, Bool.and_eq_true, beq_iff_eq] at h
  obtain ⟨rfl, hf⟩ := h
  unfold wire
  simp only
  rw [← Fields.isEmpty_eq_of_sameFields hf]
  split
  · exact .error _
  · refine (Fields.parallel_leaves hf).results.bind fun leaves leaves' h => ?_
    obtain ⟨hl, hl', hs⟩ := h
    obtain ⟨-, rfl⟩ := Fields.leaves_eq_ok_iff.1 hl
    obtain ⟨-, rfl⟩ := Fields.leaves_eq_ok_iff.1 hl'
    refine (parallel_wireLeaves op hs).bind fun members members' hm => .ok ?_
    exact hm.map (by rw [Json.object.injEq])

theorem parallel_wireAll {children others : List Selector}
    (h : LogicalFilter.sameSelectors children others = true) :
    Parallel (ToldApart (children.flatMap zeroSigns) (others.flatMap zeroSigns)) (wireAll children)
      (wireAll others) := by
  induction children generalizing others with
  | nil =>
    cases others with
    | nil => exact .ok ⟨rfl, by simp⟩
    | cons _ _ => cases h
  | cons s rest ih =>
    cases others with
    | nil => cases h
    | cons t rest' =>
      simp only [LogicalFilter.sameSelectors, Bool.and_eq_true] at h
      refine (parallel_wire h.1).bind fun item item' hi => ?_
      exact (ih h.2).bind fun tail tail' ht => .ok (hi.cons ht)

theorem isEmpty_eq_of_sameSelectors {children others : List Selector}
    (h : LogicalFilter.sameSelectors children others = true) : children.isEmpty = others.isEmpty := by
  cases children <;> cases others <;> first | rfl | cases h

end Selector

/-! ## Logical filters -/

namespace LogicalFilter

theorem isEmpty_eq_of_sameFilters {children others : List LogicalFilter}
    (h : sameFilters children others = true) : children.isEmpty = others.isEmpty := by
  cases children <;> cases others <;> first | rfl | cases h

mutual
theorem parallel_wireAt (level : Nat) (l m : LogicalFilter) (h : l.same m = true) :
    Parallel (ToldApart l.zeroSigns m.zeroSigns) (wireAt level l) (wireAt level m) := by
  match l with
  | .ofSelectors op children =>
    cases m with
    | ofSelectors op' others =>
      simp only [same, Bool.and_eq_true, beq_iff_eq] at h
      obtain ⟨rfl, hc⟩ := h
      unfold wireAt
      simp only [← Selector.isEmpty_eq_of_sameSelectors hc]
      split
      · exact .error _
      · split
        · exact .error _
        · refine (Selector.parallel_wireAll hc).bind fun items items' hi => .ok ?_
          exact hi.map (f := fun items => Json.object [(op.keyword, .array items)]) (by simp)
    | ofFilters _ _ => cases h
  | .ofFilters op children =>
    cases m with
    | ofSelectors _ _ => cases h
    | ofFilters op' others =>
      simp only [same, Bool.and_eq_true, beq_iff_eq] at h
      obtain ⟨rfl, hc⟩ := h
      unfold wireAt
      simp only [← isEmpty_eq_of_sameFilters hc]
      split
      · exact .error _
      · split
        · exact .error _
        · refine (parallel_wireFilters (level + 1) children others hc).bind fun items items' hi =>
            .ok ?_
          exact hi.map (f := fun items => Json.object [(op.keyword, .array items)]) (by simp)
termination_by structural l

theorem parallel_wireFilters (level : Nat) (children others : List LogicalFilter)
    (h : sameFilters children others = true) :
    Parallel (ToldApart (allZeroSigns children) (allZeroSigns others)) (wireFilters level children)
      (wireFilters level others) := by
  match children with
  | [] =>
    cases others with
    | nil => exact .ok ⟨rfl, by simp⟩
    | cons _ _ => cases h
  | l :: rest =>
    cases others with
    | nil => cases h
    | cons m rest' =>
      simp only [sameFilters, Bool.and_eq_true] at h
      refine (parallel_wireAt level l m h.1).bind fun item item' hi => ?_
      exact (parallel_wireFilters level rest rest' h.2).bind fun tail tail' ht => .ok (hi.cons ht)
termination_by structural children
end

end LogicalFilter

/-! ## Filters -/

namespace Filter

theorem parallel_wire {filter other : Filter} (h : filter.same other = true) :
    Parallel (ToldApart filter.zeroSigns other.zeroSigns) filter.wire other.wire := by
  cases filter with
  | selector s =>
    cases other with
    | selector t => exact Selector.parallel_wire h
    | logical m => cases h
  | logical l =>
    cases other with
    | selector t => cases h
    | logical m => exact LogicalFilter.parallel_wireAt 1 l m h

/-- Wire forms of filters have different texts if they are different. -/
theorem text_inj {filter other : Filter} {json json' : Json} (h : filter.wire = .ok json)
    (h' : other.wire = .ok json') : json.text = json'.text ↔ json = json' := by
  refine ⟨fun htext => ?_, congrArg Json.text⟩
  have hread := Json.reads_text_iff (spells_of_wire h').lexical
  rw [← htext] at hread
  exact (hread json).1 ((Json.reads_text_iff (spells_of_wire h).lexical json).2 rfl)

/-- Equal filters have no text by the same error, or they have texts, which are the same just when the
zeros that the filters compare with have the same signs. -/
theorem encode_of_same {filter other : Filter} (h : filter.same other = true) :
    (∃ e, filter.encode = .error e ∧ other.encode = .error e) ∨
      ∃ text text', filter.encode = .ok text ∧ other.encode = .ok text' ∧
        (text = text' ↔ filter.zeroSigns = other.zeroSigns) := by
  have hp : Parallel (fun text text' => text = text' ↔ filter.zeroSigns = other.zeroSigns)
      filter.encode other.encode := by
    rw [encode_eq_wire, encode_eq_wire]
    refine (parallel_wire h).results.bind fun json json' ⟨hj, hj', ht⟩ => .ok ?_
    exact (text_inj hj hj').trans ht.eq_iff
  exact hp.outcomes

/-- A zero and the negative zero are equal, and they are not written alike. -/
theorem encode_of_same_zeros :
    let filter := Filter.selector (.equals [("x", .float (.zero false))])
    let other := Filter.selector (.equals [("x", .float (.zero true))])
    filter.same other = true ∧
      ((∃ e, filter.encode = .error e ∧ other.encode = .error e) ∨
        ∃ text text', filter.encode = .ok text ∧ other.encode = .ok text' ∧
          (text = text' ↔ filter.zeroSigns = other.zeroSigns)) :=
  ⟨by decide +kernel, encode_of_same (by decide +kernel)⟩

/-- Equal filters do not always have one text. -/
theorem zeros_of_two_texts :
    ¬ ∀ filter other : Filter, filter.same other = true →
      (∃ e e', filter.encode = .error e ∧ other.encode = .error e') ∨
        ∃ text, filter.encode = .ok text ∧ other.encode = .ok text := by
  intro h
  have hzero : (Filter.selector (.equals [("x", .float (.zero false))])).encode =
      .ok "\x7b\"x\":0.0\x7d" := by decide +kernel
  have hminus : (Filter.selector (.equals [("x", .float (.zero true))])).encode =
      .ok "\x7b\"x\":-0.0\x7d" := by decide +kernel
  rcases h _ _ (by decide +kernel : Filter.same (.selector (.equals [("x", .float (.zero false))]))
    (.selector (.equals [("x", .float (.zero true))])) = true) with ⟨e, e', he, -⟩ | ⟨text, ht, ht'⟩
  · cases hzero.symm.trans he
  · have htext := Except.ok.inj ((hzero.symm.trans ht).trans (ht'.symm.trans hminus))
    exact absurd htext (by decide)

end Filter
end DocWire
