import DocWire.Proofs.Client.InjectedFailures
import DocWire.Proofs.Client.Insertions
import DocWire.Proofs.Client.Log
import DocWire.Proofs.Client.Refusals

/-!
# The keys of documents

A recording transport numbers the documents of the insertions that it answers. Main statements:
`nextKey_takeAll`, how far the numbers have come after a run; `returned_of_answered`, what an insertion
of objects returns; and `keysConsecutive_recorded`, the keys of a run and the documents that come back
with them. `insertOne_respells` is an insertion that changes a number of its document.
-/
set_option autoImplicit false

namespace DocWire

/-! ## Keys -/

def keyBytes (field : String) (n : Nat) : ByteArray := (Json.object [(field, .ofInt n)]).bytes

namespace Recording

theorem toNat_numbers {r : Recording} {count : Nat} (h : r.nextKey.toNat + count ≤ 2 ^ 64) :
    (r.numbers count).map UInt64.toNat = List.range' r.nextKey.toNat count := by
  rw [numbers, List.map_map, List.range'_eq_map_range]
  refine List.map_congr_left fun i hi => ?_
  have hi' : i < count := List.mem_range.1 hi
  simp only [Function.comp_apply, UInt64.toNat_add, UInt64.toNat_ofNat']
  omega

end Recording

namespace RecordedMoment

/-- The documents of a turn's insertion, if it makes one and no failure hits it. -/
def accepted (m : RecordedMoment) : List ByteArray :=
  match m.made, m.stateBefore.failure? with
  | [.insert request], none => request.documents
  | _, _ => []

/-- The keys with which the transport answers a turn's insertion. -/
def granted (m : RecordedMoment) : List ByteArray :=
  match m.made with
  | [.insert request] => (Recording.transport.insert request m.stateBefore).1.toOption.getD []
  | _ => []

def Answered (m : RecordedMoment) : Prop := m.made ≠ [] ∧ m.stateBefore.failure? = none

variable {m : RecordedMoment}

theorem Course.keyField_eq (h : m.Course) : m.stateAfter.keyField = m.stateBefore.keyField := by
  cases h with
  | instructed control _ _ state =>
    rw [state]
    cases control <;> rfl
  | quiet _ _ _ _ _ state => rw [state]
  | failed _ _ _ _ _ _ _ _ state =>
    rw [state]
    rfl
  | answered _ sent _ _ _ _ _ state =>
    rw [state]
    cases sent <;> rfl

theorem Course.nextKey_eq (h : m.Course) :
    m.stateAfter.nextKey = m.stateBefore.nextKey + UInt64.ofNat m.accepted.length := by
  unfold accepted
  cases h with
  | instructed control _ made state =>
    rw [state, made]
    cases control <;> exact (UInt64.add_zero _).symm
  | quiet _ _ _ made _ state =>
    rw [state, made]
    exact (UInt64.add_zero _).symm
  | failed _ sent _ _ _ made armed _ state =>
    rw [state, made, armed]
    cases sent <;> exact (UInt64.add_zero _).symm
  | answered _ sent _ _ made ready _ state =>
    rw [state, made, ready]
    cases sent with
    | insert request => rfl
    | _ => exact (UInt64.add_zero _).symm

theorem Course.granted_eq (h : m.Course) :
    m.granted =
      (m.stateBefore.numbers m.accepted.length).map (Recording.keyPayload m.stateBefore.keyField) := by
  unfold accepted granted
  cases h with
  | instructed _ _ made _ | quiet _ _ _ made _ _ =>
    rw [made]
    rfl
  | failed _ sent message _ _ made armed _ _ =>
    rw [made, armed]
    cases sent with
    | insert request =>
      have ha : (Recording.transport.insert request m.stateBefore).1 =
          .error (.transport (.failed message)) :=
        congrArg Prod.fst (Recording.respond_of_failure armed _ _)
      simp only
      rw [ha]
      rfl
    | _ => rfl
  | answered _ sent _ _ made ready _ _ =>
    rw [made, ready]
    cases sent with
    | insert request =>
      simp only
      rw [Recording.insert_of_ready ready]
      rfl
    | _ => rfl

end RecordedMoment

section Lists
universe u
variable {α : Type u} {β γ : Type}

/-- Parts that carry on where those before them have stopped make up one range. -/
theorem flatMap_eq_range' (f : α → List β) (a : α → List γ) (g : Nat → β) (start : Nat) {l : List α}
    (h : ∀ front x back, l = front ++ x :: back →
      f x = (List.range' (start + (front.flatMap a).length) (a x).length).map g) :
    l.flatMap f = (List.range' start (l.flatMap a).length).map g := by
  induction l generalizing start with
  | nil => rfl
  | cons x l ih =>
    have hx := h [] x l rfl
    have hl : l.flatMap f = (List.range' (start + (a x).length) (l.flatMap a).length).map g := by
      refine ih _ fun front x' back hs => ?_
      have hr := h (x :: front) x' back (congrArg (x :: ·) hs)
      rwa [List.flatMap_cons, List.length_append, ← Nat.add_assoc] at hr
    rw [List.flatMap_cons, List.flatMap_cons, List.length_append, ← List.range'_append_1, List.map_append,
      hx, hl]
    rfl

end Lists

namespace Client

theorem nextKey_takeAll (turns : List (Turn Recording.Control)) (client : Client Recording) :
    (takeAll Recording.transport Recording.Control.apply turns client).world.transport.keyField =
        client.world.transport.keyField ∧
      (takeAll Recording.transport Recording.Control.apply turns client).world.transport.nextKey =
        client.world.transport.nextKey +
          UInt64.ofNat ((recorded turns client).flatMap RecordedMoment.accepted).length := by
  induction turns generalizing client with
  | nil => exact ⟨rfl, (UInt64.add_zero _).symm⟩
  | cons turn rest ih =>
    let m : RecordedMoment := client.take Recording.transport Recording.Control.apply turn
    have hc : m.Course := course_take client turn
    obtain ⟨hfield, hnext⟩ := ih m.after
    have hl : takeAll Recording.transport Recording.Control.apply (turn :: rest) client =
        takeAll Recording.transport Recording.Control.apply rest m.after := rfl
    have hr : recorded (turn :: rest) client = m :: recorded rest m.after := rfl
    rw [hl, hr, List.flatMap_cons, List.length_append, UInt64.ofNat_add, ← UInt64.add_assoc]
    exact ⟨hfield.trans hc.keyField_eq, hnext.trans (congrArg (· + _) hc.nextKey_eq)⟩

end Client

/-! ## Documents -/

def Outcome.docs {α : Type} : Outcome α → List α
  | .document doc => [doc]
  | .documents docs => docs
  | _ => []

/-- Objects with consecutive numbers in a field, and all else as it was. -/
def numbered (field : String) (start : Nat) (objects : List (Entries Json)) : List Json :=
  List.zipWith (Json.withNumber field) objects (List.range' start objects.length)

/-- Objects with numbers come back: there are none, or the field can be read as a field and each object
can be unwrapped. -/
def Returnable (field : String) (given : List Json) : Prop :=
  given = [] ∨ field ≠ Json.numberName ∧ ∀ json ∈ given, ∃ plain, json.Unwraps plain

/-- What becomes of objects that get numbers from a start on. -/
structure Returned (field : String) (start : Nat) (objects : List (Entries Json))
    (result : Except Failure (List Json)) : Prop where
  succeeds : (∃ docs, result = .ok docs) ↔ Returnable field (numbered field start objects)
  /-- The objects come back in order, each with its number set and handed over as a whole. -/
  given : ∀ docs, result = .ok docs →
    (numbered field start objects).map Json.canonical? = docs.map some
  numbers : ∀ docs, result = .ok docs → ∀ (i : Nat) (doc : Json), docs[i]? = some doc →
    ∃ members, doc = .object members ∧ Entries.get? field members = some (.ofInt (start + i : Nat))
  /-- Nothing but the numbers is changed just when every object is plain and the numbers in it stay as
  they are spelled. -/
  unchanged : ∀ docs, result = .ok docs → (docs = numbered field start objects ↔
    ∀ json ∈ numbered field start objects,
      json.Plain ∧ ∀ text ∈ json.numbers, Json.canonicalNumber text = text)
  fails : ∀ e, result = .error e → e.kind = .json

theorem getElem?_numbered {field : String} {start i : Nat} {objects : List (Entries Json)}
    {json : Json} (h : (numbered field start objects)[i]? = some json) :
    ∃ members, objects[i]? = some members ∧ json = .withNumber field members (start + i) := by
  rw [numbered, List.getElem?_zipWith] at h
  cases ho : objects[i]? with
  | none =>
    rw [ho] at h
    cases h
  | some members =>
    have hi : i < objects.length := (List.getElem?_eq_some_iff.1 ho).1
    rw [ho, List.getElem?_range' (by simpa using hi)] at h
    simp only [Option.some.injEq, Nat.one_mul] at h
    exact ⟨members, rfl, h.symm⟩

theorem get?_of_canonical_withNumber {field : String} {members : Entries Json} {n : Nat}
    (hn : n < 2 ^ 64) {doc : Json} (h : (Json.withNumber field members n).canonical? = some doc) :
    ∃ others, doc = .object others ∧ Entries.get? field others = some (.ofInt n) := by
  have hinsert : Entries.get? field (Entries.insert field (.ofInt n) members) = some (.ofInt n) :=
    Entries.get?_insert_self field _ members
  have hnumber : Json.isHandedOver n = true := by
    rw [Json.isHandedOver, Bool.and_eq_true, decide_eq_true_eq, decide_eq_true_eq]
    omega
  rw [Json.withNumber, Json.canonical?] at h
  split at h
  · -- A wrapped number has no member but its text.
    generalize Entries.insert field (.ofInt n) members = entries at h hinsert
    unfold Json.unwrapped? at h
    split at h
    · rename_i name text
      rw [Entries.get?] at hinsert
      split at hinsert
      · cases hinsert
      · cases hinsert
    · cases h
  · obtain ⟨others, ho, rfl⟩ := Option.map_eq_some_iff.1 h
    refine ⟨others, rfl, ?_⟩
    rw [Json.get?_canonicalMembers? field ho, hinsert, Option.bind_some, Json.canonical?_ofInt hnumber]

theorem returned_handedOver {field : String} (hne : field ≠ Json.numberName) {start : Nat}
    {objects : List (Entries Json)} (hb : start + objects.length ≤ 2 ^ 64) :
    Returned field start objects ((numbered field start objects).mapM Json.handedOver) := by
  have hgiven : ∀ docs, (numbered field start objects).mapM Json.handedOver = .ok docs →
      (numbered field start objects).map Json.canonical? = docs.map some := by
    intro docs h
    have hmap := congrArg (List.map Except.toOption) (mapM_eq_ok_iff.1 h)
    rw [List.map_map, List.map_map] at hmap
    exact (List.map_congr_left fun json _ => json.toOption_handedOver.symm).trans hmap
  refine ⟨?_, hgiven, ?_, ?_, ?_⟩
  · rw [exists_mapM_eq_ok_iff, Returnable]
    simp only [Json.handedOver_eq_ok_iff, ← Option.isSome_iff_exists, Json.isSome_canonical?_iff]
    constructor
    · intro h
      refine .inr ⟨hne, fun json hj => ?_⟩
      obtain ⟨i, hi⟩ := List.mem_iff_getElem?.1 hj
      exact h i json hi
    · rintro (h | ⟨-, h⟩) i json hi
      · rw [h] at hi
        cases hi
      · exact h json (List.mem_of_getElem? hi)
  · intro docs h i doc hi
    have hmap := congrArg (fun list => list[i]?) (hgiven docs h)
    simp only [List.getElem?_map, hi, Option.map_some] at hmap
    obtain ⟨json, hj, hc⟩ := Option.map_eq_some_iff.1 hmap
    obtain ⟨members, hm, rfl⟩ := getElem?_numbered hj
    have hlt : i < objects.length := (List.getElem?_eq_some_iff.1 hm).1
    exact get?_of_canonical_withNumber (by omega) hc
  · intro docs h
    simp only [← Json.canonical?_eq_self_iff]
    have hmap := hgiven docs h
    constructor
    · rintro rfl
      exact List.map_inj_left.1 hmap
    · intro hself
      rw [List.map_congr_left hself] at hmap
      exact (List.map_injective_iff.2 (Option.some_injective _) hmap).symm
  · intro e h
    obtain ⟨i, json, -, he, -⟩ := mapM_eq_error_iff.1 h
    exact Json.kind_of_handedOver he

theorem returned_nil (field : String) (start : Nat) : Returned field start [] (.ok []) where
  succeeds := iff_of_true ⟨[], rfl⟩ (.inl rfl)
  given := by
    rintro _ ⟨⟩
    rfl
  numbers := by
    rintro _ ⟨⟩ i doc hi
    cases hi
  unchanged := by
    rintro _ ⟨⟩
    exact iff_of_true rfl (List.forall_mem_nil _)
  fails := nofun

theorem returned_reserved (start : Nat) (members : Entries Json) (objects : List (Entries Json))
    (fault : Json.Fault) :
    Returned Json.numberName start (members :: objects) (.error (.json fault)) where
  succeeds := by
    refine iff_of_false nofun ?_
    rintro (h | ⟨h, -⟩)
    · cases h
    · exact h rfl
  given := nofun
  numbers := nofun
  unchanged := nofun
  fails := by
    rintro _ ⟨⟩
    rfl

namespace Client
variable {client : Client Recording} {collection : String} {schemaFields primaryKey : List String}

theorem returned_withKeys (collection : String) (schemaFields primaryKey : List String)
    {field : String} (hf : field ≠ "") (hdot : '.' ∉ field.toList) {r : Recording}
    (hr : r.keyField = field) (objects : List (Entries Json))
    (hb : r.nextKey.toNat + objects.length ≤ 2 ^ 64) :
    Returned field r.nextKey.toNat objects
      (Collection.withKeys (.anyJson collection schemaFields primaryKey) (objects.map .object)
        ((r.numbers objects.length).map (Recording.keyPayload r.keyField))) := by
  unfold Collection.withKeys
  rw [if_pos (by simp), hr]
  by_cases hne : field = Json.numberName
  · subst hne
    cases objects with
    | nil => exact returned_nil _ _
    | cons members objects =>
      obtain ⟨fault, hm⟩ := Collection.mergeAll_reserved collection schemaFields primaryKey members
        objects r.nextKey ({ r with nextKey := r.nextKey + 1 }.numbers objects.length)
      rw [List.length_cons, Recording.numbers_succ, hm]
      exact returned_reserved _ _ _ fault
  · rw [Collection.mergeAll_anyJson hf hdot hne, Recording.toNat_numbers hb, ← numbered]
    exact returned_handedOver hne hb

theorem exists_request?_of_inserts {σ α : Type} (client : Client σ) (type : DocumentType α)
    {operation : Operation α} (h : operation.inserts = true) :
    ∃ built, client.request? type operation = some built := by
  cases operation with
  | insertOne place doc | insertMany place docs => exact ⟨_, rfl⟩
  | _ => cases h

theorem insert_of_inserts {σ α : Type} {client : Client σ} {type : DocumentType α}
    {operation : Operation α} {call : Call} (h : operation.inserts = true)
    (hc : client.call? type operation = some call) :
    ∃ request, call = .insert request ∧ request.documents.length = operation.docs.length := by
  cases operation with
  | insertOne place doc | insertMany place docs =>
    obtain ⟨request, hq, rfl⟩ := sent_iff.1 hc
    exact ⟨request, rfl, Collection.length_of_insertRequest hq⟩
  | _ => cases h

/-- What an insertion of objects returns when its call is answered. -/
theorem returned_of_answered {field : String} (hf : field ≠ "") (hdot : '.' ∉ field.toList)
    (hk : client.world.transport.keyField = field) (hready : client.world.transport.failure? = none)
    {operation : Operation Json} {call : Call}
    (hc : client.call? (.anyJson collection schemaFields primaryKey) operation = some call)
    (hi : operation.inserts = true) {objects : List (Entries Json)}
    (ho : operation.docs = objects.map .object)
    (hb : client.world.transport.nextKey.toNat + objects.length ≤ 2 ^ 64) :
    Returned field client.world.transport.nextKey.toNat objects
      ((client.operate Recording.transport (.anyJson collection schemaFields primaryKey)
        operation).1.map Outcome.docs) := by
  have hw := returned_withKeys collection schemaFields primaryKey hf hdot hk objects hb
  obtain ⟨result, hresult, hconc⟩ := exists_concludes (t := Recording.transport) hc
  rw [hresult]
  cases hconc with
  | insertMany place docs request hl =>
    obtain rfl : docs = objects.map .object := ho
    rw [List.length_map] at hl
    rw [Recording.insert_of_ready hready, hl, bind_ok]
    generalize Collection.withKeys _ _ _ = returned at hw
    cases returned <;> exact hw
  | insertOne place doc request hl =>
    obtain ⟨members, rfl, rfl⟩ : ∃ members, objects = [members] ∧ doc = .object members := by
      cases objects with
      | nil => cases ho
      | cons members rest =>
        obtain ⟨hd, hrest⟩ := List.cons.inj ho
        exact ⟨members, by rw [List.map_eq_nil_iff.1 hrest.symm], hd⟩
    rw [List.map_singleton, List.length_singleton] at hw
    rw [Recording.insert_of_ready hready, hl, bind_ok]
    have hlength : ∀ docs, Collection.withKeys (.anyJson collection schemaFields primaryKey)
        [Json.object members] ((client.world.transport.numbers 1).map
          (Recording.keyPayload client.world.transport.keyField)) = .ok docs → docs.length = 1 :=
      fun docs hd => Collection.length_of_withKeys hd
    generalize Collection.withKeys _ _ _ = returned at hw hlength
    cases returned with
    | error e => exact hw
    | ok docs =>
      obtain ⟨doc, rfl⟩ := List.length_eq_one_iff.1 (hlength docs rfl)
      exact hw
  | _ => cases hi

end Client

namespace RecordedMoment
variable {m : RecordedMoment}

theorem accepted_of_not_answered (h : ¬ m.Answered) : m.accepted = [] := by
  unfold accepted
  unfold Answered at h
  split
  · rename_i request hmade hready
    exact absurd ⟨by rw [hmade]; exact List.cons_ne_nil _ _, hready⟩ h
  · rfl

theorem Course.kept (h : m.Course) (hn : ¬ m.Answered) :
    m.granted = [] ∧ m.accepted = [] ∧ m.stateAfter.nextKey = m.stateBefore.nextKey := by
  have ha := accepted_of_not_answered hn
  refine ⟨?_, ha, ?_⟩
  · rw [h.granted_eq, ha]
    rfl
  · rw [h.nextKey_eq, ha]
    exact UInt64.add_zero _

theorem Course.returned {before after : Client Recording} {collection : String}
    {schemaFields primaryKey : List String} {operation : Operation Json}
    {result : Except Failure (Outcome Json)} {objects : List (Entries Json)} {field : String}
    {start : Nat} (h : m.Course)
    (hm : m = ⟨before, ⟨Json, .anyJson collection schemaFields primaryKey, .operation operation⟩, result,
      after⟩)
    (hi : operation.inserts = true) (ho : operation.docs = objects.map .object)
    (hf : field ≠ "") (hdot : '.' ∉ field.toList) (hk : m.stateBefore.keyField = field)
    (hs : m.stateBefore.nextKey.toNat = start) (hb : start + m.accepted.length ≤ 2 ^ 64) :
    (¬ m.Answered → ∃ e, result = .error e) ∧
      (m.Answered → Returned field start objects (result.map Outcome.docs)) := by
  subst hm
  cases h with
  | instructed _ step _ _ => cases step
  | quiet _ step call made result' _ =>
    cases step
    obtain ⟨e, he⟩ : ∃ e, result = .error e := by
      obtain ⟨built, hbuilt⟩ := Client.exists_request?_of_inserts before
        (.anyJson collection schemaFields primaryKey) hi
      cases built with
      | ok sent => cases call.symm.trans (Client.call?_of_request? hbuilt)
      | error e => exact ⟨e, result'.trans (Client.operate_of_refused Recording.transport hbuilt)⟩
    exact ⟨fun _ => ⟨e, he⟩, fun ha => absurd made ha.1⟩
  | failed _ _ message _ _ _ armed result' _ =>
    refine ⟨fun _ => ⟨_, result'⟩, fun ha => ?_⟩
    cases ha.2.symm.trans armed
  | answered _ sent step call made ready result' _ =>
    cases step
    obtain ⟨request, rfl, hlength⟩ := Client.insert_of_inserts hi call
    rw [ho, List.length_map] at hlength
    have haccepted : objects.length = (accepted ⟨before, ⟨Json,
        .anyJson collection schemaFields primaryKey, .operation operation⟩, result, after⟩).length := by
      unfold accepted
      rw [made, ready]
      exact hlength.symm
    rw [← haccepted, ← hs] at hb
    have hreturned := Client.returned_of_answered hf hdot hk ready call hi ho hb
    rw [show _ = result from result'.symm, hs] at hreturned
    refine ⟨fun hn => absurd ⟨?_, ready⟩ hn, fun _ => hreturned⟩
    rw [made]
    exact List.cons_ne_nil _ _

end RecordedMoment

/-- What becomes of documents in turns that were taken one after another, when the transport numbers
them in a field and starts with 1. -/
structure KeysConsecutive (field : String) (passed : List RecordedMoment) : Prop where
  /-- The documents that are accepted get the numbers 1, 2, 3 and so on. -/
  run : passed.flatMap RecordedMoment.granted =
    (List.range' 1 (passed.flatMap RecordedMoment.accepted).length).map (keyBytes field)
  /-- Those of a turn get the numbers that come after those given out before. -/
  turn : ∀ front m back, passed = front ++ m :: back →
    m.granted = (List.range' (1 + (front.flatMap RecordedMoment.accepted).length)
      m.accepted.length).map (keyBytes field)
  /-- A turn that makes no call, or whose call is hit by a failure, uses up no number. -/
  kept : ∀ m ∈ passed, ¬ m.Answered →
    m.granted = [] ∧ m.accepted = [] ∧ m.stateAfter.nextKey = m.stateBefore.nextKey
  /-- An insertion of objects whose call is not answered fails. Otherwise the objects come back with their
  numbers. -/
  returned : ∀ front m back, passed = front ++ m :: back →
    ∀ before collection schemaFields primaryKey operation result after,
      m = ⟨before, ⟨Json, .anyJson collection schemaFields primaryKey, .operation operation⟩, result,
        after⟩ →
      operation.inserts = true → ∀ objects, operation.docs = objects.map .object →
      let start := 1 + (front.flatMap RecordedMoment.accepted).length
      (¬ m.Answered → ∃ e, result = .error e) ∧
        (m.Answered → Returned field start objects (result.map Outcome.docs))

namespace Client
variable {client : Client Recording} {field : String}

/-- The keys of a run over a recording transport that has given out none before it, and what becomes of
the documents. -/
theorem keysConsecutive_recorded (hf : field ≠ "") (hdot : '.' ∉ field.toList)
    (hk : client.world.transport.keyField = field) (hs : client.world.transport.nextKey = 1)
    (turns : List (Turn Recording.Control))
    (hb : ((recorded turns client).flatMap RecordedMoment.accepted).length < 2 ^ 64 - 1) :
    KeysConsecutive field (recorded turns client) := by
  -- What a turn finds of numbers, and that there are enough of them for its documents.
  have hbefore : ∀ front m back, recorded turns client = front ++ m :: back →
      m.stateBefore.keyField = field ∧
        m.stateBefore.nextKey.toNat = 1 + (front.flatMap RecordedMoment.accepted).length ∧
        1 + (front.flatMap RecordedMoment.accepted).length + m.accepted.length ≤ 2 ^ 64 := by
    intro front m back hsplit
    rw [hsplit, List.flatMap_append, List.flatMap_cons, List.length_append, List.length_append] at hb
    obtain ⟨earlier, turn, later, -, hfront, rfl⟩ := trace_split hsplit
    obtain ⟨hfield, hnext⟩ := nextKey_takeAll earlier client
    refine ⟨hfield.trans hk, ?_, by omega⟩
    rw [hs, ← show front = recorded earlier client from hfront] at hnext
    refine (congrArg UInt64.toNat hnext).trans ?_
    rw [UInt64.toNat_add, UInt64.toNat_ofNat']
    have ho : (1 : UInt64).toNat = 1 := rfl
    omega
  have hturn : ∀ front m back, recorded turns client = front ++ m :: back →
      m.granted = (List.range' (1 + (front.flatMap RecordedMoment.accepted).length)
        m.accepted.length).map (keyBytes field) := by
    intro front m back hsplit
    obtain ⟨hfield, hnext, hroom⟩ := hbefore front m back hsplit
    have hc : m.Course := course_of_mem (hsplit ▸ List.mem_append_right _ List.mem_cons_self)
    rw [hc.granted_eq, hfield, ← hnext, ← Recording.toNat_numbers (hnext ▸ hroom), List.map_map]
    rfl
  refine ⟨flatMap_eq_range' _ _ _ 1 hturn, hturn, ?_, ?_⟩
  · intro m hm hn
    exact (course_of_mem hm).kept hn
  · intro front m back hsplit before collection schemaFields primaryKey operation result after hm hi
      objects ho
    obtain ⟨hfield, hnext, hroom⟩ := hbefore front m back hsplit
    have hc : m.Course := course_of_mem (hsplit ▸ List.mem_append_right _ List.mem_cons_self)
    exact hc.returned hm hi ho hf hdot hfield hnext hroom

/-- Insertions of a document, of none and of two, with one among them that is hit by a failure and one in
a session of another database. -/
def insertingTurns : List (Turn Recording.Control) :=
  let type := DocumentType.anyJson "things" [] ["id"]
  [⟨Json, type, .operation (.insertOne ⟨none, none⟩ (.object [("v", .number "1.5")]))⟩,
    ⟨Json, type, .control (.armFailure "down")⟩,
    ⟨Json, type, .operation (.insertOne ⟨none, none⟩ (.object []))⟩,
    ⟨Json, type, .operation (.insertMany ⟨some "b", none⟩ [])⟩,
    ⟨Json, type, .operation (.start (some "a"))⟩,
    ⟨Json, type, .operation (.insertOne ⟨some "b", some 0⟩ (.object []))⟩,
    ⟨Json, type, .operation (.insertMany ⟨some "a", some 0⟩ [.object [], .object [("id", .null)]])⟩]

theorem keysConsecutive_recorded_inserting :
    let client : Client Recording := ⟨.defaults, ⟨.counting "id", []⟩, [], []⟩
    let passed := recorded insertingTurns client
    "id" ≠ "" ∧ '.' ∉ "id".toList ∧ client.world.transport.keyField = "id" ∧
      client.world.transport.nextKey = 1 ∧
      (passed.flatMap RecordedMoment.accepted).length < 2 ^ 64 - 1 ∧
      passed.map (fun m => m.granted.length) = [1, 0, 0, 0, 0, 0, 2] ∧
      KeysConsecutive "id" passed := by
  intro client passed
  have hb : (passed.flatMap RecordedMoment.accepted).length < 2 ^ 64 - 1 := by decide +kernel
  exact ⟨by decide, by decide, rfl, rfl, hb, by decide +kernel,
    keysConsecutive_recorded (by decide) (by decide) rfl rfl insertingTurns hb⟩

/-- An insertion can change a member that is not the key: its number is spelled anew. -/
theorem insertOne_respells :
    ¬ ∀ (client : Client Recording) (members : Entries Json) (outcome : Outcome Json),
      client.world.transport.keyField = "id" → client.world.transport.nextKey = 1 →
      (client.operate Recording.transport (.anyJson "things" [] ["id"])
        (.insertOne ⟨none, none⟩ (.object members))).1 = .ok outcome →
      outcome.docs = [Json.withNumber "id" members 1] := by
  intro h
  let client : Client Recording := ⟨.defaults, ⟨.counting "id", []⟩, [], []⟩
  let members : Entries Json := [("v", .number "1125899906842625.3")]
  let json : Json := .withNumber "id" members 1
  have hplain : json.Plain :=
    ⟨Json.isWrapped_eq_false (by decide) _ _, trivial, trivial, trivial⟩
  obtain ⟨call, hc⟩ : ∃ call, client.call? (.anyJson "things" [] ["id"])
      (.insertOne ⟨none, none⟩ (.object members)) = some call := ⟨_, rfl⟩
  have hreturned : Returned "id" 1 [members] _ := returned_of_answered (by decide) (by decide)
    (rfl : client.world.transport.keyField = "id") rfl hc rfl
    (rfl : _ = List.map Json.object [members]) (by decide)
  obtain ⟨docs, hdocs⟩ := hreturned.succeeds.2 (.inr ⟨by decide, fun other ho =>
    ⟨json, List.mem_singleton.1 ho ▸ (Json.unwraps_self_iff json).2 hplain⟩⟩)
  have hsame : docs = numbered "id" 1 [members] := by
    obtain ⟨outcome, hr, rfl⟩ := map_eq_ok_iff.1 hdocs
    exact h client members outcome rfl rfl hr
  obtain ⟨-, htexts⟩ := (hreturned.unchanged docs hdocs).1 hsame json List.mem_cons_self
  have hv : "1125899906842625.3" ∈ json.numbers := by decide
  exact absurd (htexts _ hv) (by decide +kernel)

end Client
end DocWire
