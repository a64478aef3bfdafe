import DocWire.Proofs.Projection.Names

/-!
# What a projection's payload says

A payload names nothing that the projection does not list. Main statements: `lexical_of_wire` and
`listed_of_wire`.
-/
set_option autoImplicit false

namespace DocWire

/-- The paths that a projection's wire form names, in reading order. -/
def Json.projectionPaths : Json → List String
  | object members => Entries.keys members
  | _ => []

namespace Projection

theorem lexical_of_wire {p : Projection} {json : Json} (h : p.wire = .ok json) : json.Lexical := by
  obtain ⟨flag, -, found, -, -, -, rfl⟩ := wire_eq_ok_iff.1 h
  exact lexical_flagged flag found

/-- The names in a projection's wire form are names that the projection lists. -/
theorem listed_of_wire {p : Projection} {json : Json} (h : p.wire = .ok json) :
    ∀ name ∈ json.projectionPaths, name ∈ p.included ∨ name ∈ p.excluded := by
  obtain ⟨flag, list, found, hl, -, hf, rfl⟩ := wire_eq_ok_iff.1 h
  have hkeys : (flagged flag found).projectionPaths = found := by
    rw [flagged, Json.projectionPaths, Entries.keys, List.map_map]
    exact List.map_id found
  intro name hn
  rw [hkeys, hf.mem_iff] at hn
  cases hl with
  | included => exact .inl hn
  | excluded => exact .inr hn

/-- The text of a projection is a payload that says what the projection's wire form says. -/
theorem payload_of_encode {P : Json → Prop} {p : Projection} {text : String}
    (h : p.encode = .ok text) (hp : ∀ json, p.wire = .ok json → P json) :
    Json.Payload P text.toUTF8 := by
  obtain ⟨json, hj, rfl⟩ := encode_eq_ok_iff.1 h
  exact Json.payload_text (lexical_of_wire hj) (hp json hj)

end Projection
end DocWire
