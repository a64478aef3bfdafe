import DocWire.Proofs.Json.Canonical
import DocWire.Proofs.Update.Domain
import DocWire.Proofs.Update.Source
import DocWire.Proofs.Value.Received
import DocWire.Update.Source

/-!
# Updates read from their own text

The text of an update is an update's source. It reads as the update in which every group lists its
leaves, and this one has the same text; unless the text holds an object that opens with the name that is
reserved for numbers. Main statement: `parse_encode`.
-/
set_option autoImplicit false

namespace DocWire

namespace Value

theorem isNumeric_received (value : Value) : value.received.isNumeric = value.isNumeric := by
  cases value with
  | int n => exact isNumeric_of_integer? (integer?_ofInteger n.toInt)
  | uint n => exact isNumeric_of_integer? (integer?_ofInteger n.toNat)
  | wide n => exact isNumeric_of_integer? (integer?_ofInteger n.value)
  | _ => rfl

theorem receivedFields_eq_map (fields : Fields) :
    receivedFields fields = fields.map fun field => (field.1, field.2.received) := by
  induction fields with
  | nil => rfl
  | cons field rest ih => rw [receivedFields, ih, List.map_cons]

mutual
theorem fieldsDistinct_dotted (path : String) (value : Value) (h : value.NamesDistinct) :
    FieldsDistinct (value.dotted path) := by
  match value with
  | .object fields => exact fieldsDistinct_fieldsDotted (some path) fields h.2
  | .null | .bool _ | .int _ | .uint _ | .float _ | .wide _ | .string _ | .instant _ | .uuid _
  | .array _ => exact ⟨h, trivial⟩
termination_by structural value

theorem fieldsDistinct_fieldsDotted (parent? : Option String) (fields : List (String × Value))
    (h : FieldsDistinct fields) : FieldsDistinct (fieldsDotted parent? fields) := by
  match fields with
  | [] => trivial
  | (name, value) :: rest =>
    have hv := fieldsDistinct_dotted (childPath parent? name) value h.1
    have hr := fieldsDistinct_fieldsDotted parent? rest h.2
    exact fieldsDistinct_append hv hr
termination_by structural fields
end

end Value

namespace Fields

/-- What is received of a field map that was spelled as leaves. -/
def received (fields : Fields) : Fields := Value.receivedFields fields.dotted

theorem leaves_received {fields leaves : Fields} (h : fields.leaves = .ok leaves) :
    fields.received.leaves = .ok fields.received := by
  obtain ⟨hshape, hdotted⟩ := leaves_eq_ok_iff.1 h
  subst hdotted
  have hflat : Flat fields.received := by
    intro field hf
    rw [received, Value.receivedFields_eq_map] at hf
    obtain ⟨leaf, hl, rfl⟩ := List.mem_map.1 hf
    exact Value.notObject_received (notObject_of_leaves h leaf hl)
  have hnames : ∀ field ∈ fields.received, field.1 ≠ "" := by
    intro field hf
    rw [received, Value.receivedFields_eq_map] at hf
    obtain ⟨leaf, hl, rfl⟩ := List.mem_map.1 hf
    exact path_ne_empty_of_fieldsDotted none fields hshape.named leaf hl
  have hdist : Entries.Distinct fields.received := by
    rw [Entries.Distinct, received, Value.keys_receivedFields]
    exact hshape.distinct
  exact leaves_of_flat hflat hnames hdist

theorem received_eq_nil_iff {fields leaves : Fields} (h : fields.leaves = .ok leaves) :
    fields.received = [] ↔ fields = [] := by
  constructor
  · intro he
    by_contra hne
    have hl := leaves_ne_nil hne h
    obtain ⟨-, hdotted⟩ := leaves_eq_ok_iff.1 h
    rw [received, Value.receivedFields_eq_map, List.map_eq_nil_iff] at he
    exact hl (hdotted.trans he)
  · rintro rfl
    rfl

end Fields

namespace Json

theorem keptMembers_append (members others : List (String × Json)) :
    keptMembers (members ++ others) = keptMembers members ++ keptMembers others := by
  induction members with
  | nil => rfl
  | cons member rest ih => simp [keptMembers, ih]

theorem membersDepth_append (members others : List (String × Json)) :
    membersDepth (members ++ others) = max (membersDepth members) (membersDepth others) := by
  induction members with
  | nil => simp [membersDepth]
  | cons member rest ih => rw [List.cons_append, membersDepth, membersDepth, ih, Nat.max_assoc]

end Json

namespace Update

/-- No map in an update has two fields of one name. -/
def NamesDistinct (u : Update) : Prop := ∀ op, (Value.object (u.group op)).NamesDistinct

theorem NamesDistinct.withGroup {u : Update} (h : u.NamesDistinct) (op : UpdateOperator)
    {fields : Fields} (hf : (Value.object fields).NamesDistinct) :
    (u.withGroup op fields).NamesDistinct := by
  intro other
  rw [group_withGroup]
  split
  · exact hf
  · exact h other

theorem namesDistinct_of_readMember {u v : Update} {keyword : String} {json : Json}
    (hd : u.NamesDistinct) (h : u.readMember keyword json = .ok v) : v.NamesDistinct := by
  unfold readMember at h
  split at h
  · cases json with
    | array items =>
      obtain ⟨names, -, h⟩ := bind_eq_ok_iff.1 h
      cases h
      intro op
      have hop := hd op
      cases op <;> exact hop
    | _ => cases h
  · cases json with
    | object members =>
      obtain ⟨fields, hf, h⟩ := bind_eq_ok_iff.1 h
      unfold Fields.ofJson at hf
      obtain ⟨values, hv, hf⟩ := bind_eq_ok_iff.1 hf
      cases hf
      have hfields :=
        Value.namesDistinct_ofList (Value.fieldsDistinct_of_ofJsonMembers members values hv)
      cases hop : UpdateOperator.ofKeyword? keyword with
      | none =>
        rw [hop] at h
        cases h
      | some op =>
        rw [hop] at h
        cases h
        exact hd.withGroup op hfields
    | _ => cases h

/-- Updates that are read from JSON have distinct names. -/
theorem namesDistinct_of_parse {u : Update} {text : String} (h : parse text = .ok u) :
    u.NamesDistinct := by
  obtain ⟨json, -, h⟩ := bind_eq_ok_iff.1 h
  cases json with
  | object members =>
    suffices hs : ∀ v : Update, v.NamesDistinct → readMembers v members = .ok u → u.NamesDistinct by
      refine hs empty (fun op => ?_) h
      cases op <;> exact ⟨Entries.distinct_nil, trivial⟩
    clear h
    induction members with
    | nil =>
      intro v hv h
      cases h
      exact hv
    | cons member rest ih =>
      intro v hv h
      obtain ⟨w, hw, h⟩ := bind_eq_ok_iff.1 h
      exact ih w (namesDistinct_of_readMember hv hw) h
  | _ => cases h

/-! ## The leaves of a group -/

theorem read_of_wireLeaves {op : UpdateOperator} {leaves : Fields} {members : Entries Json}
    (hd : Value.FieldsDistinct leaves) (h : wireLeaves op leaves = .ok members) :
    Json.keptMembers members = members ∧ Json.membersDepth members ≤ pathDepthLimit + 1 ∧
      Value.ofJsonMembers members = .ok (Value.receivedFields leaves) ∧
      wireLeaves op (Value.receivedFields leaves) = .ok members := by
  induction leaves generalizing members with
  | nil =>
    cases h
    exact ⟨rfl, Nat.zero_le _, rfl, rfl⟩
  | cons leaf rest ih =>
    obtain ⟨path, value⟩ := leaf
    unfold wireLeaves at h
    split at h
    · cases h
    · rename_i hnum
      obtain ⟨json, hj, h⟩ := bind_eq_ok_iff.1 h
      obtain ⟨others, hr, h⟩ := bind_eq_ok_iff.1 h
      cases h
      obtain ⟨hkept, hdepth, hread, hagain⟩ := ih hd.2 hr
      have hkeep := Value.kept_of_wireAt .update path 0 value json hd.1 hj
      have hjdepth := Value.depth_of_wireAt .update path 0 value json hj
      have hof := Value.ofJson_of_wireAt .update path 0 value json hd.1 hj
      have hwire : value.received.wire .update path = .ok json :=
        (Value.wireAt_received .update path 0 value).trans hj
      refine ⟨by rw [Json.keptMembers, hkeep, hkept], ?_, ?_, ?_⟩
      · rw [Json.membersDepth]
        omega
      · rw [Value.ofJsonMembers, hof, bind_ok, hread, bind_ok, Value.receivedFields]
      · rw [Value.receivedFields, wireLeaves, Value.isNumeric_received, if_neg hnum, hwire, bind_ok,
          hagain, bind_ok]

/-! ## Groups -/

/-- Members for some of these keywords, in their order. A reader keeps them, and they do not nest
deep. -/
structure Steady (keywords : List String) (members : Entries Json) : Prop where
  keys : (Entries.keys members).Sublist keywords
  kept : Json.keptMembers members = members
  depth_le : Json.membersDepth members ≤ pathDepthLimit + 2

theorem Steady.nil (keywords : List String) : Steady keywords [] :=
  ⟨List.nil_sublist keywords, rfl, Nat.zero_le _⟩

theorem Steady.append {keywords more : List String} {members others : Entries Json}
    (h : Steady keywords members) (ho : Steady more others) :
    Steady (keywords ++ more) (members ++ others) := by
  refine ⟨?_, ?_, ?_⟩
  · rw [Entries.keys, List.map_append]
    exact h.keys.append ho.keys
  · rw [Json.keptMembers_append, h.kept, ho.kept]
  · rw [Json.membersDepth_append]
    exact Nat.max_le.2 ⟨h.depth_le, ho.depth_le⟩

theorem withGroup_group (u : Update) (op : UpdateOperator) : u.withGroup op (u.group op) = u := by
  cases op <;> rfl

theorem Applicable.read_leaves {u : Update} {op : UpdateOperator} (h : u.Applicable op)
    (hd : u.NamesDistinct) :
    let members := Value.fieldTrees (u.group op).dotted
    Json.keptMembers members = members ∧ Json.membersDepth members ≤ pathDepthLimit + 1 ∧
      Value.ofJsonMembers members = .ok (u.group op).received ∧
      wireLeaves op (u.group op).received = .ok members :=
  read_of_wireLeaves (Value.fieldsDistinct_fieldsDotted none (u.group op) (hd op).2) h.wireLeaves_eq

/-- A group that is read back fills an empty group with what is received. -/
theorem readMembers_groupMember {u v : Update} {op : UpdateOperator} (hd : u.NamesDistinct)
    (h : u.Applicable op) (hv : v.group op = []) (rest : Entries Json) :
    readMembers v (u.groupMember op ++ rest) =
      readMembers (v.withGroup op (u.group op).received) rest := by
  unfold groupMember
  split
  · rename_i he
    have hnil : (u.group op).received = v.group op := by
      rw [List.isEmpty_iff.1 he, hv]
      rfl
    rw [hnil, withGroup_group, List.nil_append]
  · obtain ⟨-, -, hread, -⟩ := h.read_leaves hd
    have hdist : Entries.Distinct (u.group op).received :=
      Fields.distinct_leaves (Fields.leaves_received h.leaves_eq)
    have hof : Fields.ofJson (Value.fieldTrees (u.group op).dotted) = .ok (u.group op).received := by
      rw [Fields.ofJson, hread, bind_ok, Entries.ofList_of_distinct hdist]
    rw [List.singleton_append, readMembers, readMember, if_neg op.keyword_ne_unset]
    rw [hof, bind_ok, op.ofKeyword?_keyword, bind_ok]

theorem steady_groupMember {u : Update} {op : UpdateOperator} (hd : u.NamesDistinct)
    (h : u.Applicable op) : Steady [op.keyword] (u.groupMember op) := by
  unfold groupMember
  split
  · exact .nil _
  · obtain ⟨hkept, hdepth, -, -⟩ := h.read_leaves hd
    have hdist : Entries.Distinct (Value.fieldTrees (u.group op).dotted) := by
      rw [Entries.Distinct, Value.keys_fieldTrees]
      exact h.shaped.distinct
    refine ⟨List.Sublist.refl _, ?_, ?_⟩
    · rw [Json.keptMembers, Json.kept, hkept, Entries.ofList_of_distinct hdist, Json.keptMembers]
    · rw [Json.membersDepth, Json.depth, Json.membersDepth]
      omega

/-! ## All groups -/

theorem readMembers_groupMembers {u v : Update} (hd : u.NamesDistinct) (h : ∀ op, u.Applicable op)
    (ops : List UpdateOperator) (hn : ops.Nodup) (hv : ∀ op ∈ ops, v.group op = [])
    (rest : Entries Json) :
    readMembers v (ops.flatMap u.groupMember ++ rest) =
      readMembers (ops.foldl (fun v op => v.withGroup op (u.group op).received) v) rest := by
  induction ops generalizing v with
  | nil => rfl
  | cons op ops ih =>
    obtain ⟨hfresh, hn⟩ := List.nodup_cons.1 hn
    have hothers : ∀ other ∈ ops, (v.withGroup op (u.group op).received).group other = [] := by
      intro other ho
      have hne : op ≠ other := by
        rintro rfl
        exact hfresh ho
      rw [group_withGroup, if_neg hne]
      exact hv other (List.mem_cons_of_mem op ho)
    rw [List.flatMap_cons, List.append_assoc,
      readMembers_groupMember hd (h op) (hv op List.mem_cons_self), ih hn hothers, List.foldl_cons]

theorem steady_groupMembers {u : Update} (hd : u.NamesDistinct) (h : ∀ op, u.Applicable op)
    (ops : List UpdateOperator) : Steady (ops.map (·.keyword)) (ops.flatMap u.groupMember) := by
  induction ops with
  | nil => exact .nil _
  | cons op ops ih =>
    rw [List.flatMap_cons]
    exact (steady_groupMember hd (h op)).append ih

/-! ## The fields to remove -/

theorem readMembers_unsetMember {u v : Update} (hv : v.unset = []) (rest : Entries Json) :
    readMembers v (u.unsetMember ++ rest) = readMembers { v with unset := u.unset } rest := by
  unfold unsetMember
  split
  · rename_i he
    rw [List.isEmpty_iff.1 he, ← hv, List.nil_append]
  · rw [List.singleton_append, readMembers, readMember, if_pos rfl]
    rw [readNames_eq_ok_iff.2 rfl, bind_ok, bind_ok, hv, List.nil_append]

theorem itemsDepth_strings (names : List String) : Json.itemsDepth (names.map .string) = 0 := by
  induction names with
  | nil => rfl
  | cons name rest ih => rw [List.map_cons, Json.itemsDepth, ih, Json.depth, Nat.max_self]

theorem steady_unsetMember (u : Update) : Steady [unsetKeyword] u.unsetMember := by
  unfold unsetMember
  split
  · exact .nil _
  · refine ⟨List.Sublist.refl _, ?_, ?_⟩
    · rw [Json.keptMembers, Json.kept, Json.keptItems_eq_strings_iff.2 rfl, Json.keptMembers]
    · rw [Json.membersDepth, Json.depth, itemsDepth_strings, Json.membersDepth]
      decide

/-! ## Whole updates -/

/-- The update that is received of an update: every group lists its leaves. -/
def received (u : Update) : Update where
  set := u.set.received
  unset := u.unset
  increment := u.increment.received
  decrement := u.decrement.received
  multiply := u.multiply.received
  divide := u.divide.received

theorem group_received (u : Update) (op : UpdateOperator) :
    u.received.group op = (u.group op).received := by
  cases op <;> rfl

theorem ofJson_wire {u : Update} {json : Json} (hd : u.NamesDistinct) (h : u.wire = .ok json) :
    ofJson json = .ok u.received := by
  obtain ⟨⟨-, -, happ⟩, rfl⟩ := wire_eq_ok_iff.1 h
  -- Each member is for a group of its own, so it finds this group empty.
  have hread : readMembers empty (u.groupMember .set ++ (u.unsetMember ++
      ([.increment, .decrement, .multiply, .divide].flatMap u.groupMember ++ []))) =
      .ok u.received := by
    rw [readMembers_groupMember hd (happ .set) rfl, readMembers_unsetMember rfl,
      readMembers_groupMembers hd happ _ (by decide)]
    · rfl
    · intro op ho
      cases op with
      | set => exact absurd ho (by decide)
      | increment | decrement | multiply | divide => rfl
  rwa [List.append_nil, ← List.append_assoc] at hread

theorem kept_wire {u : Update} {json : Json} (hd : u.NamesDistinct) (h : u.wire = .ok json) :
    json.kept = json ∧ json.depth ≤ Json.maxDepth := by
  obtain ⟨⟨-, -, happ⟩, rfl⟩ := wire_eq_ok_iff.1 h
  have hsteady := ((steady_groupMember hd (happ .set)).append (steady_unsetMember u)).append
    (steady_groupMembers hd happ [.increment, .decrement, .multiply, .divide])
  have hdist : Entries.Distinct u.members := hsteady.keys.nodup (by decide)
  have hkept : Json.keptMembers u.members = u.members := hsteady.kept
  have hdepth : Json.membersDepth u.members ≤ pathDepthLimit + 2 := hsteady.depth_le
  refine ⟨by rw [Json.kept, hkept, Entries.ofList_of_distinct hdist], ?_⟩
  have hlimit : pathDepthLimit + 3 ≤ Json.maxDepth := by decide
  rw [Json.depth]
  omega

theorem leaves_of_wire {u : Update} {json : Json} (h : u.wire = .ok json) (op : UpdateOperator) :
    ∃ leaves, (u.group op).leaves = .ok leaves :=
  ⟨_, ((wire_eq_ok_iff.1 h).1.applicable op).leaves_eq⟩

/-- A group that lists what was received is sent as the group it was received from. -/
theorem applicable_received {u : Update} {op : UpdateOperator} (hd : u.NamesDistinct)
    (h : u.Applicable op) :
    u.received.Applicable op ∧ u.received.groupMember op = u.groupMember op := by
  obtain ⟨-, -, -, hagain⟩ := h.read_leaves hd
  obtain ⟨hshaped, hdotted⟩ := Fields.leaves_eq_ok_iff.1 (Fields.leaves_received h.leaves_eq)
  obtain ⟨htaken, htrees⟩ := wireLeaves_eq_ok_iff.1 hagain
  have hempty : (u.group op).received.isEmpty = (u.group op).isEmpty := by
    rw [Bool.eq_iff_iff, List.isEmpty_iff, List.isEmpty_iff]
    exact Fields.received_eq_nil_iff h.leaves_eq
  unfold groupMember
  constructor
  · refine ⟨?_, ?_⟩ <;> rw [group_received]
    · exact hshaped
    · rwa [← hdotted]
  · rw [group_received, hempty, ← hdotted, ← htrees]

theorem wire_received {u : Update} {json : Json} (hd : u.NamesDistinct) (h : u.wire = .ok json) :
    u.received.wire = .ok json := by
  obtain ⟨⟨hne, hunset, happ⟩, rfl⟩ := wire_eq_ok_iff.1 h
  have hagain := fun op => applicable_received hd (happ op)
  have hmembers : u.received.members = u.members := by
    unfold members
    rw [(hagain .set).2, List.flatMap_congr fun op _ => (hagain op).2]
    rfl
  refine wire_eq_ok_iff.2 ⟨⟨?_, hunset, fun op => (hagain op).1⟩, by rw [hmembers]⟩
  refine hne.imp_right fun ⟨op, ho⟩ => ⟨op, ?_⟩
  rw [group_received]
  exact fun he => ho ((Fields.received_eq_nil_iff (happ op).leaves_eq).1 he)

/-! ## The reserved name -/

/-- Neither a group, spelled as its leaves, nor an object in one of the leaves opens with the reserved
name. -/
def Unreserved (u : Update) : Prop :=
  ∀ op leaves, (u.group op).leaves = .ok leaves → (Json.object (Value.fieldTrees leaves)).Plain

theorem plain_groupMember_iff (u : Update) (op : UpdateOperator) :
    (∀ member ∈ u.groupMember op, member.2.Plain) ↔
      (Json.object (Value.fieldTrees (u.group op).dotted)).Plain := by
  unfold groupMember
  split
  · rename_i he
    rw [List.isEmpty_iff.1 he]
    exact iff_of_true (List.forall_mem_nil _) ⟨rfl, trivial⟩
  · exact List.forall_mem_singleton

theorem plain_unsetMember (u : Update) : ∀ member ∈ u.unsetMember, member.2.Plain := by
  unfold unsetMember
  split
  · exact List.forall_mem_nil _
  · rw [List.forall_mem_singleton]
    exact plain_of_namesMeant (.array u.unset)

theorem isWrapped_members (u : Update) : Json.isWrapped u.members = false := by
  have hne : Json.numberName ∉ u.keywords := by
    simp [keywords, Json.numberName]
  rw [Json.isWrapped, keys_members]
  exact decide_eq_false fun h => hne (List.mem_of_mem_head? h)

theorem plain_wire_iff {u : Update} {json : Json} (h : u.wire = .ok json) :
    json.Plain ↔ u.Unreserved := by
  obtain ⟨⟨-, -, happ⟩, rfl⟩ := wire_eq_ok_iff.1 h
  have hgroups : u.Unreserved ↔ ∀ op, ∀ member ∈ u.groupMember op, member.2.Plain := by
    refine forall_congr' fun op => ?_
    rw [plain_groupMember_iff, (happ op).leaves_eq]
    simp
  rw [Json.Plain, u.isWrapped_members, Json.membersPlain_iff, hgroups, members]
  simp only [List.forall_mem_append, List.forall_mem_flatMap, true_and]
  constructor
  · rintro ⟨⟨hset, -⟩, hothers⟩ op
    cases op with
    | set => exact hset
    | increment | decrement | multiply | divide => exact hothers _ (by simp)
  · exact fun hall => ⟨⟨hall .set, u.plain_unsetMember⟩, fun op _ => hall op⟩

/-- The text of an update in which nothing opens with the reserved name is read as an update: its groups
are the leaves of the groups that were sent, its values are those received, and its text is the same.
The text of any other update is not read as such an update. -/
theorem parse_encode {u : Update} {text : String} (hd : u.NamesDistinct) (h : u.encode = .ok text) :
    (∃ u', parse text = .ok u' ∧ u'.encode = .ok text ∧ u'.unset = u.unset ∧
      ∀ op, ∃ leaves, (u.group op).leaves = .ok leaves ∧
        u'.group op = leaves.map fun leaf => (leaf.1, leaf.2.received)) ↔ u.Unreserved := by
  rw [encode_eq_wire] at h
  obtain ⟨json, hj, h⟩ := bind_eq_ok_iff.1 h
  cases h
  obtain ⟨hkept, hdepth⟩ := kept_wire hd hj
  have hreads := (Json.reads_text_iff (lexical_of_wire hj) json).2 rfl
  have hn : json.NamesDistinct := hkept ▸ Json.namesDistinct_kept json
  have hreceived : Reads json u.received := (ofJson_eq_ok_iff hn).1 (ofJson_wire hd hj)
  have hgroup (op : UpdateOperator) : ∃ leaves, (u.group op).leaves = .ok leaves ∧
      u.received.group op = leaves.map fun leaf => (leaf.1, leaf.2.received) := by
    obtain ⟨leaves, hl⟩ := leaves_of_wire hj op
    obtain ⟨-, hdotted⟩ := Fields.leaves_eq_ok_iff.1 hl
    refine ⟨leaves, hl, ?_⟩
    rw [group_received, Fields.received, ← hdotted, Value.receivedFields_eq_map]
  rw [← plain_wire_iff hj]
  constructor
  · rintro ⟨u', hparse, -, hunset, hgroups⟩
    have heq : u' = u.received := by
      refine eq_of_groups (fun op => ?_) hunset
      obtain ⟨leaves, hl, hleaves⟩ := hgroups op
      obtain ⟨leaves', hl', hleaves'⟩ := hgroup op
      cases hl.symm.trans hl'
      rw [hleaves, hleaves']
    obtain ⟨-, plain, hu, hp⟩ := (parse_eq_ok_iff hreads).1 hparse
    rw [heq, reads_kept_iff (hu.namesDistinct hn)] at hp
    exact plain_of_reads hn hu hreceived hp
  · intro hplain
    have hu := (Json.unwraps_self_iff json).2 hplain
    refine ⟨u.received, (parse_eq_ok_iff hreads).2 ⟨hdepth, json, hu, hkept.symm ▸ hreceived⟩, ?_, rfl,
      hgroup⟩
    rw [encode_eq_wire, wire_received hd hj, bind_ok]

/-- Nested fields, an object inside an array, integers of two variants, an identifier and a float. -/
theorem parse_encode_nested :
    let u : Update :=
      { set := [("a", .object [("b", .uuid ⟨0⟩), ("c\"", .array [.object [("d", .uint 5)]])])],
        unset := ["old"], increment := [("n", .float ⟨0x3FE0000000000000⟩), ("m", .wide ⟨7⟩)],
        decrement := [], multiply := [], divide := [] }
    let text := "\x7b\"$set\":\x7b\"a.b\":\"00000000-0000-0000-0000-000000000000\"," ++
      "\"a.c\\\"\":[\x7b\"d\":5\x7d]\x7d,\"$unset\":[\"old\"]," ++
      "\"$increment\":\x7b\"n\":0.5,\"m\":7\x7d\x7d"
    u.NamesDistinct ∧ u.encode = .ok text ∧ u.Unreserved ∧
      ∃ u', parse text = .ok u' ∧ u'.encode = .ok text ∧ u'.unset = ["old"] ∧
        u'.group .increment = [("n", .float ⟨0x3FE0000000000000⟩), ("m", .int 7)] := by
  intro u text
  have hd : u.NamesDistinct := by
    intro op
    cases op <;> simp [u, group, Value.NamesDistinct, Value.FieldsDistinct, Value.ItemsDistinct,
      Entries.Distinct, Entries.keys]
  have htext : u.encode.toOption = some text := by decide +kernel
  have h : u.encode = .ok text := by
    cases he : u.encode with
    | error e => rw [he] at htext; cases htext
    | ok other => rw [he] at htext; cases htext; rfl
  have hplain : u.Unreserved := by
    intro op leaves hl
    cases op <;> cases hl <;>
      simp [childPath, Value.fieldTrees, Value.itemTrees, Value.tree, Json.Plain, Json.MembersPlain,
        Json.ItemsPlain, Json.isWrapped, Json.numberName, Json.ofInt]
  obtain ⟨u', hparse, hencode, hunset, hgroups⟩ := (parse_encode hd h).2 hplain
  obtain ⟨leaves, hl, hgroup⟩ := hgroups .increment
  cases hl
  exact ⟨hd, h, hplain, u', hparse, hencode, hunset, hgroup⟩

/-- An object in an array has the reserved name for its first field. Its update has a text, which cannot
be read. -/
theorem parse_refuses_encoded :
    let u : Update :=
      { empty with set := [("a", .array [.object [(Json.numberName, .int 5)]])] }
    u.NamesDistinct ∧ ∃ text, u.encode = .ok text ∧ ∃ fault, parse text = .error (.json fault) := by
  intro u
  have hd : u.NamesDistinct := by
    intro op
    cases op <;> simp [u, empty, group, Value.NamesDistinct, Value.FieldsDistinct,
      Value.ItemsDistinct, Entries.Distinct, Entries.keys]
  let tree : Json :=
    .object [("$set", .object [("a", .array [.object [(Json.numberName, .ofInt 5)]])])]
  have hj : u.wire = .ok tree := rfl
  refine ⟨hd, tree.text, by rw [encode_eq_wire, hj, bind_ok], ?_⟩
  refine parse_of_not_unwraps ((Json.reads_text_iff (lexical_of_wire hj) tree).2 rfl) ?_
  rw [← Json.isSome_canonical?_iff]
  decide +kernel

end Update
end DocWire
