import DocWire.Proofs.Json.Canonical
import DocWire.Proofs.Value.Kept
import DocWire.Update.Source

/-!
# The source form of updates

Which JSON values are the source of an update, said without the reader (`IsSource`), and which update
one is the source of (`Reads`): every group has the fields of its own member, and the names to remove
are those of `$unset`. The reader goes through the members one after another; as no keyword occurs
twice, each member finds its group as it was at the start. Main statements: `readMember_eq_ok_iff`,
`readMembers_eq_ok_iff` and `parse_exact_grammar`.
-/
set_option autoImplicit false

namespace DocWire

theorem UpdateOperator.ofKeyword?_eq_some_iff {keyword : String} {op : UpdateOperator} :
    ofKeyword? keyword = some op ↔ keyword = op.keyword := by
  constructor
  · intro h
    have hf := List.find?_some h
    exact (of_decide_eq_true hf).symm
  · rintro rfl
    exact op.ofKeyword?_keyword

theorem UpdateOperator.keyword_inj {op other : UpdateOperator} :
    op.keyword = other.keyword ↔ op = other := by
  cases op <;> cases other <;> decide

namespace Update

/-! ## Shapes -/

/-- The names that the `$unset` of an update means: none when it has none. -/
inductive NamesMeant : Option Json → List String → Prop
  | absent : NamesMeant none []
  | array (names : List String) : NamesMeant (some (.array (names.map .string))) names

/-- The values that are the source of an update. -/
inductive IsSource : Json → Prop
  | mk {members : Entries Json}
      (names : ∀ name ∈ Entries.keys members,
        name ∈ ["$set", "$unset", "$increment", "$decrement", "$multiply", "$divide"])
      (unset : ∀ json, Entries.get? "$unset" members = some json →
        ∃ names : List String, json = .array (names.map .string))
      (groups : ∀ name json, name ≠ "$unset" → Entries.get? name members = some json →
        ∃ fields, json = .object fields ∧ Json.MembersFit fields) :
      IsSource (.object members)

/-- The update that a value is the source of. -/
inductive Reads : Json → Update → Prop
  | mk {members : Entries Json} {u : Update}
      (names : ∀ name ∈ Entries.keys members,
        name ∈ ["$set", "$unset", "$increment", "$decrement", "$multiply", "$divide"])
      (set : u.set.Means (Entries.get? "$set" members))
      (unset : NamesMeant (Entries.get? "$unset" members) u.unset)
      (increment : u.increment.Means (Entries.get? "$increment" members))
      (decrement : u.decrement.Means (Entries.get? "$decrement" members))
      (multiply : u.multiply.Means (Entries.get? "$multiply" members))
      (divide : u.divide.Means (Entries.get? "$divide" members)) :
      Reads (.object members) u

theorem mem_keywords_iff {name : String} :
    name ∈ ["$set", "$unset", "$increment", "$decrement", "$multiply", "$divide"] ↔
      name = unsetKeyword ∨ ∃ op : UpdateOperator, name = op.keyword := by
  constructor
  · intro h
    simp only [List.mem_cons, List.not_mem_nil, or_false] at h
    rcases h with rfl | rfl | rfl | rfl | rfl | rfl
    · exact .inr ⟨.set, rfl⟩
    · exact .inl rfl
    · exact .inr ⟨.increment, rfl⟩
    · exact .inr ⟨.decrement, rfl⟩
    · exact .inr ⟨.multiply, rfl⟩
    · exact .inr ⟨.divide, rfl⟩
  · rintro (rfl | ⟨op, rfl⟩)
    · decide
    · cases op <;> decide

/-- The groups of an update, one for each operator, and the names to remove. -/
theorem reads_object_iff {members : Entries Json} {u : Update} :
    Reads (.object members) u ↔
      (∀ name ∈ Entries.keys members, name = unsetKeyword ∨ ∃ op : UpdateOperator, name = op.keyword) ∧
      NamesMeant (Entries.get? unsetKeyword members) u.unset ∧
      ∀ op, (u.group op).Means (Entries.get? op.keyword members) := by
  simp only [← mem_keywords_iff]
  constructor
  · rintro ⟨names, set, unset, increment, decrement, multiply, divide⟩
    refine ⟨names, unset, fun op => ?_⟩
    cases op with
    | set => exact set
    | increment => exact increment
    | decrement => exact decrement
    | multiply => exact multiply
    | divide => exact divide
  · rintro ⟨names, unset, groups⟩
    exact .mk names (groups .set) unset (groups .increment) (groups .decrement) (groups .multiply)
      (groups .divide)

/-- An update is given by its groups and the names to remove. -/
theorem exists_of_groups (groups : UpdateOperator → Fields) (unset : List String) :
    ∃ u : Update, (∀ op, u.group op = groups op) ∧ u.unset = unset := by
  refine ⟨⟨groups .set, unset, groups .increment, groups .decrement, groups .multiply,
    groups .divide⟩, fun op => ?_, rfl⟩
  cases op <;> rfl

theorem eq_of_groups {u v : Update} (hg : ∀ op, u.group op = v.group op) (hu : u.unset = v.unset) :
    u = v := by
  obtain ⟨set, unset, increment, decrement, multiply, divide⟩ := u
  obtain rfl : set = v.set := hg .set
  obtain rfl : increment = v.increment := hg .increment
  obtain rfl : decrement = v.decrement := hg .decrement
  obtain rfl : multiply = v.multiply := hg .multiply
  obtain rfl : divide = v.divide := hg .divide
  obtain rfl : unset = v.unset := hu
  rfl

theorem exists_reads_iff {json : Json} : (∃ u, Reads json u) ↔ IsSource json := by
  constructor
  · rintro ⟨u, h⟩
    cases json with
    | object members =>
      obtain ⟨names, unset, groups⟩ := reads_object_iff.1 h
      refine .mk (fun name hn => mem_keywords_iff.2 (names name hn)) ?_ ?_
      · intro value hv
        rw [show "$unset" = unsetKeyword from rfl] at hv
        rw [hv] at unset
        cases unset with
        | array => exact ⟨_, rfl⟩
      · intro name value hne hv
        have hmem : name ∈ Entries.keys members :=
          Entries.contains_iff_mem_keys.1 (by rw [Entries.contains, hv]; rfl)
        obtain ⟨op, rfl⟩ := (names name hmem).resolve_left hne
        have hgroup := groups op
        rw [hv] at hgroup
        cases hgroup with
        | object hf => exact ⟨_, rfl, (Json.exists_denotesFields_iff _).1 ⟨_, hf⟩⟩
    | null | bool _ | number _ | string _ | array _ => cases h
  · rintro ⟨names, unset, groups⟩
    rename_i members
    have hunset : ∃ list, NamesMeant (Entries.get? unsetKeyword members) list := by
      cases hg : Entries.get? unsetKeyword members with
      | none => exact ⟨[], .absent⟩
      | some value =>
        obtain ⟨list, rfl⟩ := unset value hg
        exact ⟨list, .array list⟩
    have hgroups (op : UpdateOperator) :
        ∃ fields : Fields, fields.Means (Entries.get? op.keyword members) := by
      cases hg : Entries.get? op.keyword members with
      | none => exact ⟨[], .absent⟩
      | some value =>
        obtain ⟨inner, rfl, hf⟩ := groups op.keyword value op.keyword_ne_unset hg
        obtain ⟨fields, hd⟩ := (Json.exists_denotesFields_iff inner).2 hf
        exact ⟨fields, .object hd⟩
    obtain ⟨list, hlist⟩ := hunset
    choose fields hfields using hgroups
    obtain ⟨u, hu, rfl⟩ := exists_of_groups fields list
    exact ⟨u, reads_object_iff.2 ⟨fun name hn => mem_keywords_iff.1 (names name hn), hlist,
      fun op => hu op ▸ hfields op⟩⟩

/-! ## One member -/

theorem readNames_eq_ok_iff {items : List Json} {names : List String} :
    readNames items = .ok names ↔ items = names.map .string := by
  induction items generalizing names with
  | nil => cases names <;> simp [readNames]
  | cons item rest ih =>
    constructor
    · intro h
      cases item with
      | string s =>
        obtain ⟨others, ho, h⟩ := bind_eq_ok_iff.1 h
        cases h
        rw [List.map_cons, ih.1 ho]
      | null | bool _ | number _ | array _ | object _ => cases h
    · intro h
      cases names with
      | nil => cases h
      | cons s others =>
        rw [List.map_cons, List.cons.injEq] at h
        obtain ⟨rfl, ho⟩ := h
        exact bind_eq_ok_iff.2 ⟨others, ih.2 ho, rfl⟩

/-- What a member does: `$unset` adds names to remove, an operator puts fields in its group. -/
theorem readMember_eq_ok_iff {u v : Update} {keyword : String} {json : Json}
    (hd : json.NamesDistinct) :
    u.readMember keyword json = .ok v ↔
      (∃ names : List String, keyword = unsetKeyword ∧ json = .array (names.map .string) ∧
        v = { u with unset := u.unset ++ names }) ∨
      ∃ (op : UpdateOperator) (members : Entries Json) (fields : Fields), keyword = op.keyword ∧
        json = .object members ∧ Json.DenotesFields members fields ∧ v = u.withGroup op fields := by
  unfold readMember
  split
  · rename_i hk
    subst hk
    constructor
    · intro h
      cases json with
      | array items =>
        obtain ⟨names, hn, h⟩ := bind_eq_ok_iff.1 h
        cases h
        exact .inl ⟨names, rfl, by rw [readNames_eq_ok_iff.1 hn], rfl⟩
      | null | bool _ | number _ | string _ | object _ => cases h
    · rintro (⟨names, -, rfl, rfl⟩ | ⟨op, members, fields, hk, -⟩)
      · exact bind_eq_ok_iff.2 ⟨names, readNames_eq_ok_iff.2 rfl, rfl⟩
      · exact absurd hk.symm op.keyword_ne_unset
  · rename_i hk
    constructor
    · intro h
      cases json with
      | object members =>
        obtain ⟨fields, hf, h⟩ := bind_eq_ok_iff.1 h
        split at h
        · rename_i op hop
          cases h
          exact .inr ⟨op, members, fields, UpdateOperator.ofKeyword?_eq_some_iff.1 hop, rfl,
            (Fields.ofJson_eq_ok_iff hd fields).1 hf, rfl⟩
        · cases h
      | null | bool _ | number _ | string _ | array _ => cases h
    · rintro (⟨names, hk', -⟩ | ⟨op, members, fields, rfl, rfl, hf, rfl⟩)
      · exact absurd hk' hk
      · refine bind_eq_ok_iff.2 ⟨fields, (Fields.ofJson_eq_ok_iff hd fields).2 hf, ?_⟩
        rw [op.ofKeyword?_keyword]

/-! ## All members -/

/-- The fields of a group after its member: those of the member, or those before where there is no
member. -/
inductive FieldsAfter (before : Fields) : Option Json → Fields → Prop
  | absent : FieldsAfter before none before
  | object {members : Entries Json} {fields : Fields} (h : Json.DenotesFields members fields) :
      FieldsAfter before (some (.object members)) fields

theorem fieldsAfter_none_iff {before after : Fields} :
    FieldsAfter before none after ↔ after = before := by
  constructor
  · rintro ⟨⟩
    rfl
  · rintro rfl
    exact .absent

theorem fieldsAfter_nil_iff {json? : Option Json} {fields : Fields} :
    FieldsAfter [] json? fields ↔ fields.Means json? := by
  constructor
  · rintro (_ | h)
    · exact .absent
    · exact .object h
  · rintro (_ | h)
    · exact .absent
    · exact .object h

/-- What members with different keywords do to an update, whatever their order. -/
structure Changes (u : Update) (members : Entries Json) (v : Update) : Prop where
  names : ∀ name ∈ Entries.keys members, name = unsetKeyword ∨ ∃ op : UpdateOperator, name = op.keyword
  unset : ∃ names, NamesMeant (Entries.get? unsetKeyword members) names ∧ v.unset = u.unset ++ names
  groups : ∀ op, FieldsAfter (u.group op) (Entries.get? op.keyword members) (v.group op)

theorem changes_nil_iff {u v : Update} : Changes u [] v ↔ u = v := by
  constructor
  · rintro ⟨-, ⟨names, hn, hu⟩, groups⟩
    cases hn with
    | absent =>
      rw [List.append_nil] at hu
      exact eq_of_groups (fun op => (fieldsAfter_none_iff.1 (groups op)).symm) hu.symm
  · rintro rfl
    exact ⟨fun name hn => absurd hn List.not_mem_nil, ⟨[], .absent, (List.append_nil _).symm⟩,
      fun op => .absent⟩

theorem changes_unset_cons_iff {u v : Update} {json : Json} {rest : Entries Json}
    (hfresh : unsetKeyword ∉ Entries.keys rest) :
    Changes u ((unsetKeyword, json) :: rest) v ↔
      ∃ names : List String, json = .array (names.map .string) ∧
        Changes { u with unset := u.unset ++ names } rest v := by
  have hgone : Entries.get? unsetKeyword rest = none := (Entries.get?_eq_none_iff _ rest).2 hfresh
  have hothers (op : UpdateOperator) : Entries.get? op.keyword ((unsetKeyword, json) :: rest) =
      Entries.get? op.keyword rest := by
    rw [Entries.get?, if_neg op.keyword_ne_unset.symm]
  have hgroup (names : List String) (op : UpdateOperator) :
      { u with unset := u.unset ++ names }.group op = u.group op := by
    cases op <;> rfl
  constructor
  · rintro ⟨hn, ⟨names, hm, hu⟩, hg⟩
    rw [Entries.get?, if_pos rfl] at hm
    cases hm with
    | array =>
      refine ⟨names, rfl, fun name h => hn name (List.mem_cons_of_mem _ h), ⟨[], ?_, ?_⟩, fun op => ?_⟩
      · rw [hgone]
        exact .absent
      · rw [hu, List.append_nil]
      · rw [hgroup, ← hothers op]
        exact hg op
  · rintro ⟨names, rfl, hn, ⟨none, hm, hu⟩, hg⟩
    rw [hgone] at hm
    cases hm with
    | absent =>
      refine ⟨List.forall_mem_cons.2 ⟨.inl rfl, hn⟩, ⟨names, ?_, ?_⟩, fun op => ?_⟩
      · rw [Entries.get?, if_pos rfl]
        exact .array names
      · rw [hu, List.append_nil]
      · rw [hothers op, ← hgroup names op]
        exact hg op

theorem changes_group_cons_iff {u v : Update} {op : UpdateOperator} {json : Json} {rest : Entries Json}
    (hfresh : op.keyword ∉ Entries.keys rest) :
    Changes u ((op.keyword, json) :: rest) v ↔
      ∃ (members : Entries Json) (fields : Fields), json = .object members ∧
        Json.DenotesFields members fields ∧ Changes (u.withGroup op fields) rest v := by
  have hgone : Entries.get? op.keyword rest = none := (Entries.get?_eq_none_iff _ rest).2 hfresh
  have hunset : Entries.get? unsetKeyword ((op.keyword, json) :: rest) =
      Entries.get? unsetKeyword rest := by
    rw [Entries.get?, if_neg op.keyword_ne_unset]
  have hself : Entries.get? op.keyword ((op.keyword, json) :: rest) = some json := by
    rw [Entries.get?, if_pos rfl]
  have hothers {other : UpdateOperator} (h : op ≠ other) :
      Entries.get? other.keyword ((op.keyword, json) :: rest) =
        Entries.get? other.keyword rest := by
    rw [Entries.get?, if_neg (mt UpdateOperator.keyword_inj.1 h)]
  have hkept (fields : Fields) : (u.withGroup op fields).unset = u.unset := by
    cases op <;> rfl
  constructor
  · rintro ⟨hn, hu, hg⟩
    have hop := hg op
    rw [hself] at hop
    rw [hunset] at hu
    cases hop with
    | object hf =>
      refine ⟨_, _, rfl, hf, fun name h => hn name (List.mem_cons_of_mem _ h), ?_, fun other => ?_⟩
      · rwa [hkept]
      · rw [group_withGroup]
        split
        · rename_i he
          subst he
          rw [hgone]
          exact .absent
        · rename_i hne
          rw [← hothers hne]
          exact hg other
  · rintro ⟨members, fields, rfl, hf, hn, hu, hg⟩
    rw [hkept] at hu
    refine ⟨List.forall_mem_cons.2 ⟨.inr ⟨op, rfl⟩, hn⟩, by rwa [hunset], fun other => ?_⟩
    have hother := hg other
    rw [group_withGroup] at hother
    split at hother
    · rename_i he
      subst he
      rw [hgone] at hother
      rw [hself, fieldsAfter_none_iff.1 hother]
      exact .object hf
    · rename_i hne
      rwa [hothers hne]

/-- Members are read one after another, and what they do together does not depend on their order. -/
theorem readMembers_eq_ok_iff {members : Entries Json} (hd : (Json.object members).NamesDistinct)
    {u v : Update} : readMembers u members = .ok v ↔ Changes u members v := by
  induction members generalizing u with
  | nil =>
    rw [changes_nil_iff]
    simp [readMembers]
  | cons member rest ih =>
    obtain ⟨keyword, json⟩ := member
    obtain ⟨hfresh, hrest⟩ := Entries.distinct_cons_iff.1 hd.1
    have ih := fun {u : Update} => @ih ⟨hrest, hd.2.2⟩ u
    rw [readMembers, bind_eq_ok_iff]
    simp only [readMember_eq_ok_iff hd.2.1, ih]
    constructor
    · rintro ⟨w, ⟨names, rfl, rfl, rfl⟩ | ⟨op, members, fields, rfl, rfl, hf, rfl⟩, hw⟩
      · exact (changes_unset_cons_iff hfresh).2 ⟨names, rfl, hw⟩
      · exact (changes_group_cons_iff hfresh).2 ⟨members, fields, rfl, hf, hw⟩
    · intro h
      rcases h.names keyword List.mem_cons_self with rfl | ⟨op, rfl⟩
      · obtain ⟨names, rfl, hw⟩ := (changes_unset_cons_iff hfresh).1 h
        exact ⟨_, .inl ⟨names, rfl, rfl, rfl⟩, hw⟩
      · obtain ⟨members, fields, rfl, hf, hw⟩ := (changes_group_cons_iff hfresh).1 h
        exact ⟨_, .inr ⟨op, members, fields, rfl, rfl, hf, rfl⟩, hw⟩

theorem ofJson_eq_ok_iff {json : Json} (hd : json.NamesDistinct) {u : Update} :
    ofJson json = .ok u ↔ Reads json u := by
  cases json with
  | object members =>
    rw [ofJson, readMembers_eq_ok_iff hd, reads_object_iff]
    have hgroup (op : UpdateOperator) : empty.group op = [] := by cases op <;> rfl
    constructor
    · rintro ⟨names, ⟨list, hl, hu⟩, groups⟩
      refine ⟨names, hu ▸ hl, fun op => ?_⟩
      rw [← fieldsAfter_nil_iff, ← hgroup op]
      exact groups op
    · rintro ⟨names, unset, groups⟩
      refine ⟨names, ⟨u.unset, unset, rfl⟩, fun op => ?_⟩
      rw [hgroup op, fieldsAfter_nil_iff]
      exact groups op
  | null | bool _ | number _ | string _ | array _ =>
    constructor
    · intro h
      cases h
    · intro h
      cases h

/-! ## Errors -/

theorem kind_of_readNames {items : List Json} {e : Failure} (h : readNames items = .error e) :
    e.kind = .unsupportedFilter := by
  induction items with
  | nil => cases h
  | cons item rest ih =>
    cases item with
    | string s =>
      rcases bind_eq_error_iff.1 h with h | ⟨list, -, ⟨⟩⟩
      exact ih h
    | null | bool _ | number _ | array _ | object _ =>
      cases h
      rfl

/-- The fields of a member are read before its keyword is looked at, so a number in them may be the
error of a member that has no place in an update. -/
theorem kind_of_readMember {u : Update} {keyword : String} {json : Json} (hd : json.NamesDistinct)
    {e : Failure} (h : u.readMember keyword json = .error e) :
    e.kind = .unsupportedFilter ∨ e.kind = .valueEncoding ∧ ¬ json.NumbersFit := by
  unfold readMember at h
  split at h
  · refine .inl ?_
    cases json with
    | array items =>
      rcases bind_eq_error_iff.1 h with h | ⟨names, -, ⟨⟩⟩
      exact kind_of_readNames h
    | null | bool _ | number _ | string _ | object _ =>
      cases h
      rfl
  · cases json with
    | object members =>
      rcases bind_eq_error_iff.1 h with h | ⟨fields, -, h⟩
      · exact .inr (Fields.kind_of_ofJson hd h)
      · split at h
        · cases h
        · cases h
          exact .inl rfl
    | null | bool _ | number _ | string _ | array _ =>
      cases h
      exact .inl rfl

theorem kind_of_readMembers {u : Update} {members : Entries Json}
    (hd : Json.MembersDistinct members) {e : Failure} (h : readMembers u members = .error e) :
    e.kind = .unsupportedFilter ∨ e.kind = .valueEncoding ∧ ¬ Json.MembersFit members := by
  induction members generalizing u with
  | nil => cases h
  | cons member rest ih =>
    obtain ⟨keyword, json⟩ := member
    rcases bind_eq_error_iff.1 h with h | ⟨v, -, h⟩
    · exact (kind_of_readMember hd.1 h).imp_right fun ⟨hk, hn⟩ => ⟨hk, fun hf => hn hf.1⟩
    · exact (ih hd.2 h).imp_right fun ⟨hk, hn⟩ => ⟨hk, fun hf => hn hf.2⟩

theorem kind_of_ofJson {json : Json} (hd : json.NamesDistinct) {e : Failure}
    (h : ofJson json = .error e) :
    e.kind = .unsupportedFilter ∨ e.kind = .valueEncoding ∧ ¬ json.NumbersFit := by
  cases json with
  | object members => exact kind_of_readMembers hd.2 h
  | null | bool _ | number _ | string _ | array _ =>
    cases h
    exact .inl rfl

/-! ## Texts -/

theorem namesMeant_some_iff {json : Json} {names : List String} :
    NamesMeant (some json) names ↔ json = .array (names.map .string) := by
  constructor
  · rintro ⟨⟩
    rfl
  · rintro rfl
    exact .array names

theorem namesMeant_kept_iff {json? : Option Json} {names : List String} :
    NamesMeant (json?.map Json.kept) names ↔ NamesMeant json? names := by
  cases json? with
  | none => rfl
  | some json =>
    rw [Option.map_some, namesMeant_some_iff, namesMeant_some_iff]
    cases json with
    | array items => rw [Json.kept, Json.array.injEq, Json.array.injEq, Json.keptItems_eq_strings_iff]
    | null | bool _ | number _ | string _ | object _ => simp [Json.kept]

/-- What is kept of a value is the source of the update that the value is the source of. -/
theorem reads_kept_iff {json : Json} (hd : json.NamesDistinct) {u : Update} :
    Reads json.kept u ↔ Reads json u := by
  cases json with
  | object members =>
    have hgroup (op : UpdateOperator) :
        (u.group op).Means ((Entries.get? op.keyword members).map Json.kept) ↔
          (u.group op).Means (Entries.get? op.keyword members) :=
      Fields.means_kept_iff fun json => hd.of_get?
    simp only [Json.kept_object hd.1, reads_object_iff, Json.keys_keptMembers, Json.get?_keptMembers,
      namesMeant_kept_iff, hgroup]
  | null | bool _ | number _ | string _ | array _ =>
    constructor
    · rintro ⟨⟩
    · rintro ⟨⟩

theorem plain_of_namesMeant {json : Json} {names : List String} (h : NamesMeant (some json) names) :
    json.Plain := by
  rw [namesMeant_some_iff.1 h, Json.Plain, Json.itemsPlain_iff]
  exact List.forall_mem_map.2 fun name _ => trivial

theorem plain_of_means {json plain : Json} (hu : json.Unwraps plain) {fields : Fields}
    (h : fields.Means (some json)) (hp : fields.Means (some plain)) : json.Plain := by
  cases h with
  | object h =>
    cases hp with
    | object hp => exact hu.plain_of_denotes (.object h) (.object hp)

/-- The source of an update that is the source of this update without its wrappings, too, has none. -/
theorem plain_of_reads {json plain : Json} (hd : json.NamesDistinct) (hu : json.Unwraps plain)
    {u : Update} (h : Reads json u) (hp : Reads plain u) : json.Plain := by
  cases json with
  | object members =>
    rcases hu.of_object with ⟨hw, others, hm, rfl⟩ | ⟨text, -, -, rfl⟩
    · obtain ⟨names, unset, groups⟩ := reads_object_iff.1 h
      obtain ⟨-, -, groups'⟩ := reads_object_iff.1 hp
      refine ⟨hw, (Json.membersPlain_iff members).2 fun ⟨name, value⟩ hmem => ?_⟩
      have hvalue := (Entries.get?_eq_some_iff hd.1).2 hmem
      obtain ⟨other, hother, hv⟩ := hm.get? hvalue
      rcases names name (List.mem_map_of_mem hmem) with rfl | ⟨op, rfl⟩
      · rw [hvalue] at unset
        exact plain_of_namesMeant unset
      · have hgroup := groups op
        have hgroup' := groups' op
        rw [hvalue] at hgroup
        rw [hother] at hgroup'
        exact plain_of_means hv hgroup hgroup'
    · cases hp
  | null | bool _ | number _ | string _ | array _ => cases h

/-- A text is read as an update when it nests within the limit and what is kept of it, without its
wrappings, is the source of the update. -/
theorem parse_eq_ok_iff {text : String} {json : Json} (hr : Json.Reads text json) {u : Update} :
    parse text = .ok u ↔
      json.depth ≤ Json.maxDepth ∧ ∃ plain, json.Unwraps plain ∧ Reads plain.kept u := by
  unfold parse
  simp only [bind_eq_ok_iff, mapError_eq_ok_iff, Json.ofText_eq_ok_iff hr]
  constructor
  · rintro ⟨kept, ⟨hd, plain, hu, rfl⟩, h⟩
    exact ⟨hd, plain, hu, (ofJson_eq_ok_iff (Json.namesDistinct_kept plain)).1 h⟩
  · rintro ⟨hd, plain, hu, h⟩
    exact ⟨plain.kept, ⟨hd, plain, hu, rfl⟩, (ofJson_eq_ok_iff (Json.namesDistinct_kept plain)).2 h⟩

/-- A value that cannot be unwrapped is refused by the reader. -/
theorem parse_of_not_unwraps {text : String} {json : Json} (hr : Json.Reads text json)
    (h : ¬ ∃ plain, json.Unwraps plain) : ∃ fault, parse text = .error (.json fault) := by
  obtain ⟨fault, hf⟩ := Json.exists_error_ofText_iff.2 fun ⟨plain, hs⟩ =>
    h ⟨plain, ((Json.says_iff_of_reads hr).1 hs).2⟩
  exact ⟨fault, by rw [parse, hf]; rfl⟩

/-- The error of a text that is a value within the limit: the reader's own, where the value cannot be
unwrapped. -/
theorem kind_of_parse {text : String} {json : Json} (hr : Json.Reads text json)
    (hn : json.NamesDistinct) (hd : json.depth ≤ Json.maxDepth) {e : Failure}
    (he : parse text = .error e) :
    (e.kind = .json ∧ ¬ ∃ plain, json.Unwraps plain) ∨
      ∃ plain, json.Unwraps plain ∧
        (e.kind = .unsupportedFilter ∨ e.kind = .valueEncoding ∧ ¬ plain.NumbersFit) := by
  by_cases hplain : ∃ plain, json.Unwraps plain
  · obtain ⟨plain, hu⟩ := hplain
    rw [parse, Json.ofText_of_reads hr hu hd] at he
    refine .inr ⟨plain, hu, ?_⟩
    rw [← Json.numbersFit_kept_iff (hu.namesDistinct hn)]
    exact kind_of_ofJson (Json.namesDistinct_kept plain) he
  · obtain ⟨fault, hf⟩ := parse_of_not_unwraps hr hplain
    cases hf.symm.trans he
    exact .inl ⟨rfl, hplain⟩

/-- A value within the limit on nesting, written as text, is read as an update if and only if it can be
unwrapped and is then the source of one, and as the update that it is the source of. Where it cannot be
unwrapped the error is the reader's. All other values are no supported update, or have a number that is
out of range. A plain value is its own source. -/
theorem parse_exact_grammar {text : String} {json : Json} (hr : Json.Reads text json)
    (hn : json.NamesDistinct) (hd : json.depth ≤ 127) :
    ((∃ u, parse text = .ok u) ↔ ∃ plain, json.Unwraps plain ∧ IsSource plain) ∧
    (∀ u, parse text = .ok u ↔ ∃ plain, json.Unwraps plain ∧ Reads plain u) ∧
    (∀ e, parse text = .error e →
      (e.kind = .json ↔ ¬ ∃ plain, json.Unwraps plain) ∧
      ∀ plain, json.Unwraps plain →
        e.kind = .unsupportedFilter ∨ e.kind = .valueEncoding ∧ ¬ plain.NumbersFit) ∧
    (json.Plain → ∀ plain, json.Unwraps plain ↔ plain = json) := by
  have hmax : json.depth ≤ Json.maxDepth := hd
  have hreads (u : Update) : parse text = .ok u ↔ ∃ plain, json.Unwraps plain ∧ Reads plain u := by
    rw [parse_eq_ok_iff hr, and_iff_right hmax]
    exact exists_congr fun plain => and_congr_right fun hu => reads_kept_iff (hu.namesDistinct hn)
  refine ⟨?_, hreads, ?_, fun h => h.unwraps_iff⟩
  · simp only [hreads, ← exists_reads_iff]
    constructor
    · rintro ⟨u, plain, hu, h⟩
      exact ⟨plain, hu, u, h⟩
    · rintro ⟨plain, hu, u, h⟩
      exact ⟨u, plain, hu, h⟩
  · intro e he
    rcases kind_of_parse hr hn hmax he with ⟨hk, hnone⟩ | ⟨plain, hu, hk⟩
    · exact ⟨iff_of_true hk hnone, fun plain hu => absurd ⟨plain, hu⟩ hnone⟩
    · refine ⟨iff_of_false ?_ (not_not_intro ⟨plain, hu⟩), fun plain' hu' => ?_⟩
      · rcases hk with hk | ⟨hk, -⟩ <;> simp [hk]
      · rwa [hu'.unique hu]

/-- Members in another order than the groups, a nested field and an integer past 64 bits. -/
theorem parse_exact_grammar_groups :
    let json : Json := .object [("$unset", .array [.string "old", .string "x.y"]),
      ("$divide", .object [("n", .object [("m", .number "18446744073709551616")])]),
      ("$set", .object [("b", .array [.null, .number "-7"]), ("a", .string "$set")])]
    let text := "\x7b\"$unset\":[\"old\",\"x.y\"]," ++
      "\"$divide\":\x7b\"n\":\x7b\"m\":18446744073709551616\x7d\x7d," ++
      "\"$set\":\x7b\"b\":[null,-7],\"a\":\"$set\"\x7d\x7d"
    let u : Update :=
      { empty with
        set := [("b", .array [.null, .int (-7)]), ("a", .string "$set")]
        unset := ["old", "x.y"]
        divide := [("n", .object [("m", .wide ⟨18446744073709551616⟩)])] }
    Json.Reads text json ∧ json.NamesDistinct ∧ json.depth ≤ 127 ∧ json.Plain ∧ IsSource json ∧
      parse text = .ok u := by
  intro json text u
  have hlex : json.Lexical := by
    have hwide : Json.Grammar.Number "18446744073709551616".toList :=
      number_signedDigits 18446744073709551616
    have hseven : Json.Grammar.Number "-7".toList := by
      rw [show "-7".toList = signedDigits (-7) by decide]
      exact number_signedDigits (-7)
    exact ⟨⟨trivial, trivial, trivial⟩, ⟨⟨hwide, trivial⟩, trivial⟩,
      ⟨⟨trivial, hseven, trivial⟩, trivial, trivial⟩, trivial⟩
  have htext : json.text = text := by decide +kernel
  have hr : Json.Reads text json := by
    rw [← htext]
    exact (Json.reads_text_iff hlex json).2 rfl
  have hn : json.NamesDistinct := by
    simp [json, Json.NamesDistinct, Json.MembersDistinct, Json.ItemsDistinct, Entries.Distinct]
  have hd : json.depth ≤ 127 := by decide
  have hp : json.Plain := by
    simp [json, Json.Plain, Json.MembersPlain, Json.ItemsPlain, Json.isWrapped, Json.numberName]
  obtain ⟨-, hreads, -⟩ := parse_exact_grammar hr hn hd
  have hu : Reads json u := (ofJson_eq_ok_iff hn).1 rfl
  exact ⟨hr, hn, hd, hp, exists_reads_iff.1 ⟨u, hu⟩,
    (hreads u).2 ⟨json, (Json.unwraps_self_iff json).2 hp, hu⟩⟩

/-- The source of an update that is refused as text: a field has the reserved name. -/
theorem parse_refuses_reserved :
    let json : Json := .object [("$set", .object [(Json.numberName, .number "5")])]
    let text := "\x7b\"$set\":\x7b\"$serde_json::private::Number\":5\x7d\x7d"
    Json.Reads text json ∧ json.NamesDistinct ∧ json.depth ≤ 127 ∧ IsSource json ∧
      ∃ fault, parse text = .error (.json fault) := by
  intro json text
  have hlex : json.Lexical := by
    have hfive : Json.Grammar.Number "5".toList := number_signedDigits 5
    exact ⟨⟨hfive, trivial⟩, trivial⟩
  have hr : Json.Reads text json := by
    rw [← show json.text = text by decide +kernel]
    exact (Json.reads_text_iff hlex json).2 rfl
  have hn : json.NamesDistinct := by
    simp [json, Json.NamesDistinct, Json.MembersDistinct, Entries.Distinct]
  have hsource : IsSource json := exists_reads_iff.1
    ⟨{ empty with set := [(Json.numberName, .int 5)] }, (ofJson_eq_ok_iff hn).1 rfl⟩
  refine ⟨hr, hn, by decide, hsource, parse_of_not_unwraps hr ?_⟩
  rw [← Json.isSome_canonical?_iff]
  decide +kernel

end Update
end DocWire
