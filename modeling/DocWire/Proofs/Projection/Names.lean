import DocWire.Proofs.FirstOccurrences
import DocWire.Proofs.Json.Written
import DocWire.Proofs.Projection.Written
import DocWire.Proofs.Results

/-!
# Which names a projection writes

A projection that has one list, and no empty name in it, is written as that list without repetitions:
every name stands where it occurs first. What is repeated therefore changes nothing on the wire. Main
statement: `encode_firstOccurrences`.
-/
set_option autoImplicit false

namespace DocWire

namespace Projection

/-! ## One list -/

/-- Unless there is an empty one among them, names go to the first occurrences of what stands before. -/
theorem names_spec {front seen : List String} (h : FirstOccurrences front seen) (list : List String) :
    ("" ∈ list ∧ names seen list = .error (.filter .emptyProjectionName)) ∨
      ("" ∉ list ∧ ∃ found, names seen list = .ok found ∧ FirstOccurrences (front ++ list) found) := by
  induction list generalizing front seen with
  | nil =>
    refine .inr ⟨List.not_mem_nil, seen, rfl, ?_⟩
    rwa [List.append_nil]
  | cons name rest ih =>
    by_cases hn : name = ""
    · subst hn
      exact .inl ⟨List.mem_cons_self .., rfl⟩
    · rw [names, if_neg hn]
      rcases ih (h.step name) with ⟨hm, he⟩ | ⟨hm, found, hf, ho⟩
      · exact .inl ⟨List.mem_cons_of_mem name hm, he⟩
      · rw [List.append_assoc] at ho
        exact .inr ⟨List.not_mem_cons_of_ne_of_not_mem (Ne.symm hn) hm, found, hf, ho⟩

theorem names_eq_ok_iff {list found : List String} :
    names [] list = .ok found ↔ "" ∉ list ∧ FirstOccurrences list found := by
  rcases names_spec .nil list with ⟨hm, he⟩ | ⟨hm, other, hf, ho⟩
  · rw [he]
    exact iff_of_false (by simp) fun h => h.1 hm
  · rw [hf, Except.ok.injEq]
    rw [List.nil_append] at ho
    constructor
    · rintro rfl
      exact ⟨hm, ho⟩
    · exact fun h => ho.unique h.2

theorem names_eq_error_iff {list : List String} {e : Failure} :
    names [] list = .error e ↔ "" ∈ list ∧ e = .filter .emptyProjectionName := by
  rcases names_spec .nil list with ⟨hm, he⟩ | ⟨hm, found, hf, -⟩
  · rw [he, Except.error.injEq, eq_comm]
    exact (and_iff_right hm).symm
  · rw [hf]
    exact iff_of_false (by simp) fun h => hm h.1

/-- Lists of the same first occurrences have the same names. -/
theorem names_congr {list other : List String}
    (hf : ∀ found, FirstOccurrences list found ↔ FirstOccurrences other found) :
    names [] list = names [] other := by
  have hm := FirstOccurrences.mem_congr hf
  cases ho : names [] other with
  | ok found =>
    obtain ⟨he, ho⟩ := names_eq_ok_iff.1 ho
    exact names_eq_ok_iff.2 ⟨mt (hm "").1 he, (hf found).2 ho⟩
  | error e =>
    obtain ⟨he, rfl⟩ := names_eq_error_iff.1 ho
    exact names_eq_error_iff.2 ⟨(hm "").2 he, rfl⟩

/-! ## Projections -/

/-- The one list that a projection has: that of the names to return, or that of the names to leave
out. -/
inductive Lists (p : Projection) : Bool → List String → Prop
  | included (hi : p.included ≠ []) (he : p.excluded = []) : Lists p true p.included
  | excluded (hi : p.included = []) (he : p.excluded ≠ []) : Lists p false p.excluded

/-- The wire form that gives every name of a list the same truth value. -/
def flagged (flag : Bool) (list : List String) : Json :=
  .object (list.map fun name => (name, .bool flag))

theorem lexical_flagged (flag : Bool) (list : List String) : (flagged flag list).Lexical := by
  refine (Json.membersLexical_iff _).2 fun member hm => ?_
  obtain ⟨name, -, rfl⟩ := List.mem_map.1 hm
  trivial

theorem wireNames_eq_ok_iff {flag : Bool} {list : List String} {json : Json} :
    wireNames flag list = .ok json ↔
      "" ∉ list ∧ ∃ found, FirstOccurrences list found ∧ json = flagged flag found := by
  unfold wireNames
  simp only [bind_eq_ok_iff, names_eq_ok_iff, Except.ok.injEq]
  constructor
  · rintro ⟨found, ⟨he, hf⟩, rfl⟩
    exact ⟨he, found, hf, rfl⟩
  · rintro ⟨he, found, hf, rfl⟩
    exact ⟨found, ⟨he, hf⟩, rfl⟩

theorem wire_of_lists {p : Projection} {flag : Bool} {list : List String} (h : p.Lists flag list) :
    p.wire = wireNames flag list := by
  obtain ⟨included, excluded⟩ := p
  cases h with
  | included hi he =>
    obtain ⟨name, rest, rfl⟩ := List.exists_cons_of_ne_nil hi
    cases he
    rfl
  | excluded hi he =>
    obtain ⟨name, rest, rfl⟩ := List.exists_cons_of_ne_nil he
    cases hi
    rfl

theorem wire_of_not_lists {p : Projection} (h : ¬ ∃ flag list, p.Lists flag list) :
    ∃ fault, p.wire = .error (.filter fault) := by
  obtain ⟨included, excluded⟩ := p
  match included, excluded with
  | [], [] => exact ⟨_, rfl⟩
  | _ :: _, _ :: _ => exact ⟨_, rfl⟩
  | name :: rest, [] => exact absurd ⟨true, name :: rest, .included (by simp) rfl⟩ h
  | [], name :: rest => exact absurd ⟨false, name :: rest, .excluded rfl (by simp)⟩ h

theorem wire_eq_ok_iff {p : Projection} {json : Json} :
    p.wire = .ok json ↔ ∃ flag list found, p.Lists flag list ∧ "" ∉ list ∧
      FirstOccurrences list found ∧ json = flagged flag found := by
  constructor
  · intro h
    by_cases hl : ∃ flag list, p.Lists flag list
    · obtain ⟨flag, list, hl⟩ := hl
      rw [wire_of_lists hl] at h
      obtain ⟨he, found, hf, hj⟩ := wireNames_eq_ok_iff.1 h
      exact ⟨flag, list, found, hl, he, hf, hj⟩
    · obtain ⟨fault, hw⟩ := wire_of_not_lists hl
      cases hw.symm.trans h
  · rintro ⟨flag, list, found, hl, he, hf, hj⟩
    rw [wire_of_lists hl]
    exact wireNames_eq_ok_iff.2 ⟨he, found, hf, hj⟩

theorem encode_eq_ok_iff {p : Projection} {text : String} :
    p.encode = .ok text ↔ ∃ json, p.wire = .ok json ∧ text = json.text := by
  rw [encode_eq_wire, bind_eq_ok_iff]
  constructor
  · rintro ⟨json, hj, h⟩
    cases h
    exact ⟨json, hj, rfl⟩
  · rintro ⟨json, hj, rfl⟩
    exact ⟨json, hj, rfl⟩

theorem kind_of_wire {p : Projection} {e : Failure} (h : p.wire = .error e) :
    e.kind = .filterEncoding := by
  by_cases hl : ∃ flag list, p.Lists flag list
  · obtain ⟨flag, list, hl⟩ := hl
    rw [wire_of_lists hl] at h
    rcases bind_eq_error_iff.1 h with h | ⟨found, -, h⟩
    · rw [(names_eq_error_iff.1 h).2]
      rfl
    · cases h
  · obtain ⟨fault, hw⟩ := wire_of_not_lists hl
    cases hw.symm.trans h
    rfl

/-- Projections whose lists have the same first occurrences have the same wire form, or fail alike. -/
theorem encode_congr {p q : Projection}
    (hi : ∀ found, FirstOccurrences p.included found ↔ FirstOccurrences q.included found)
    (he : ∀ found, FirstOccurrences p.excluded found ↔ FirstOccurrences q.excluded found) :
    p.encode = q.encode := by
  have hempty : ∀ {list other : List String},
      (∀ found, FirstOccurrences list found ↔ FirstOccurrences other found) →
        list.isEmpty = other.isEmpty := by
    intro list other h
    rw [Bool.eq_iff_iff, List.isEmpty_iff, List.isEmpty_iff, List.eq_nil_iff_forall_not_mem,
      List.eq_nil_iff_forall_not_mem]
    exact forall_congr' fun name => not_congr (FirstOccurrences.mem_congr h name)
  rw [encode_eq_wire, encode_eq_wire]
  unfold wire wireNames
  rw [hempty hi, hempty he, names_congr hi, names_congr he]

/-- A projection is written exactly if it has one list and no empty name in it. Its text is the object
of the first occurrences in this list, with true for names to return and false for names to leave out.
Repetitions change nothing: the text is the same without them, and with the lists written twice. -/
theorem encode_firstOccurrences (p : Projection) :
    ((∃ text, p.encode = .ok text) ↔ ∃ flag list, p.Lists flag list ∧ "" ∉ list) ∧
    (∀ text, p.encode = .ok text → ∃ flag list found, p.Lists flag list ∧
      FirstOccurrences list found ∧ ∀ json, Json.Reads text json ↔ json = flagged flag found) ∧
    (∀ e, p.encode = .error e → e.kind = .filterEncoding) ∧
    (∀ included excluded, FirstOccurrences p.included included →
      FirstOccurrences p.excluded excluded → encode ⟨included, excluded⟩ = p.encode) ∧
    encode ⟨p.included ++ p.included, p.excluded ++ p.excluded⟩ = p.encode := by
  refine ⟨?_, ?_, ?_, ?_, ?_⟩
  · constructor
    · rintro ⟨text, h⟩
      obtain ⟨json, hw, -⟩ := encode_eq_ok_iff.1 h
      obtain ⟨flag, list, found, hl, he, -⟩ := wire_eq_ok_iff.1 hw
      exact ⟨flag, list, hl, he⟩
    · rintro ⟨flag, list, hl, he⟩
      obtain ⟨found, hf⟩ := FirstOccurrences.exists_found list
      exact ⟨_, encode_eq_ok_iff.2 ⟨_, wire_eq_ok_iff.2 ⟨flag, list, found, hl, he, hf, rfl⟩, rfl⟩⟩
  · intro text h
    obtain ⟨json, hw, rfl⟩ := encode_eq_ok_iff.1 h
    obtain ⟨flag, list, found, hl, -, hf, rfl⟩ := wire_eq_ok_iff.1 hw
    exact ⟨flag, list, found, hl, hf, Json.reads_text_iff (lexical_flagged flag found)⟩
  · intro e h
    rw [encode_eq_wire] at h
    rcases bind_eq_error_iff.1 h with h | ⟨json, -, ⟨⟩⟩
    exact kind_of_wire h
  · exact fun included excluded hi he => encode_congr hi.of_found he.of_found
  · exact encode_congr (fun _ => FirstOccurrences.append_self) fun _ => FirstOccurrences.append_self

end Projection
end DocWire
