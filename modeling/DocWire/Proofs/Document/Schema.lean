import DocWire.Document.Basic

/-!
# Schemas by segments

One path lies within another when it starts with its characters and a dot comes next, if anything does.
That is to compare their segments: `meta.seq` lies within `meta`, and `metadata` does not. A schema so
knows whole segments, and the first path that it does not know is the one that it refuses. Main
statements: `segments_eq_iff`, `isWithin_iff_append` and `checkPaths_by_segments`.
-/
set_option autoImplicit false

namespace DocWire

/-! ## Segments -/

theorem splitDots_eq_splitOn (cs : List Char) : splitDots cs = cs.splitOn '.' := by
  induction cs with
  | nil => rfl
  | cons c rest ih =>
    rw [List.splitOn_cons_eq_if_modifyHead, ← ih]
    by_cases hc : c = '.'
    · simp [splitDots, hc]
    · obtain ⟨segment, others, hs⟩ := List.exists_cons_of_ne_nil (splitDots_ne_nil rest)
      simp [splitDots, hc, hs]

theorem not_mem_of_mem_splitDots {cs segment : List Char} (h : segment ∈ splitDots cs) :
    '.' ∉ segment := by
  induction cs generalizing segment with
  | nil =>
    obtain rfl : segment = [] := by simpa [splitDots] using h
    exact List.not_mem_nil
  | cons c rest ih =>
    obtain ⟨first, others, hs⟩ := List.exists_cons_of_ne_nil (splitDots_ne_nil rest)
    rw [hs] at ih
    by_cases hc : c = '.'
    · rw [splitDots, if_pos hc, hs] at h
      rcases List.mem_cons.1 h with rfl | h
      · exact List.not_mem_nil
      · exact ih h
    · rw [splitDots, if_neg hc, hs] at h
      rcases List.mem_cons.1 h with rfl | h
      · exact List.not_mem_cons_of_ne_of_not_mem (Ne.symm hc) (ih (List.mem_cons_self ..))
      · exact ih (List.mem_cons_of_mem first h)

/-- The segments of a path are the one list of texts without dots that dots join to the path. There is
at least one, and any of them may be empty. -/
theorem segments_eq_iff (path : String) (list : List String) :
    segments path = list ↔
      list ≠ [] ∧ (∀ segment ∈ list, '.' ∉ segment.toList) ∧ ".".intercalate list = path := by
  have hdot : ".".toList = ['.'] := rfl
  have hjoin : ".".intercalate list = path ↔ ['.'].intercalate (list.map String.toList) = path.toList := by
    rw [← String.toList_inj, String.toList_intercalate, hdot]
  have hsegments : segments path = list ↔ path.toList.splitOn '.' = list.map String.toList := by
    rw [segments, ← splitDots_eq_splitOn]
    constructor
    · rintro rfl
      simp
    · intro h
      simp [h]
  rw [hjoin, hsegments]
  constructor
  · intro h
    refine ⟨?_, fun segment hm => ?_, ?_⟩
    · rintro rfl
      exact List.splitOn_ne_nil _ _ h
    · have hs : segment.toList ∈ splitDots path.toList := by
        rw [splitDots_eq_splitOn, h]
        exact List.mem_map_of_mem hm
      exact not_mem_of_mem_splitDots hs
    · rw [← h, List.intercalate_splitOn]
  · rintro ⟨hne, hdots, hp⟩
    rw [← hp]
    apply List.splitOn_intercalate
    · intro segment hm
      obtain ⟨s, hs, rfl⟩ := List.mem_map.1 hm
      exact hdots s hs
    · simpa using hne

theorem withinChars_iff_append (base path : List Char) :
    withinChars base path = true ↔
      ∃ rest, path = base ++ rest ∧ (rest = [] ∨ rest.head? = some '.') := by
  induction base generalizing path with
  | nil => cases path <;> simp [withinChars]
  | cons b base ih =>
    cases path with
    | nil => simp [withinChars]
    | cons c path =>
      rw [withinChars, Bool.and_eq_true, decide_eq_true_eq, ih]
      constructor
      · rintro ⟨rfl, rest, rfl, hr⟩
        exact ⟨rest, rfl, hr⟩
      · rintro ⟨rest, he, hr⟩
        obtain ⟨rfl, rfl⟩ := List.cons.inj he
        exact ⟨rfl, rest, rfl, hr⟩

/-- A path lies within another when it starts with it, and what is left is nothing or starts with a
dot. -/
theorem isWithin_iff_append (base path : String) :
    isWithin base path = true ↔
      ∃ rest, path = base ++ rest ∧ (rest = "" ∨ rest.toList.head? = some '.') := by
  rw [isWithin, withinChars_iff_append]
  constructor
  · rintro ⟨rest, he, hr⟩
    refine ⟨String.ofList rest, ?_, ?_⟩
    · apply String.toList_inj.1
      rw [he, String.toList_append, String.toList_ofList]
    · rw [String.toList_ofList]
      exact hr.imp (by rintro rfl; rfl) id
  · rintro ⟨rest, rfl, hr⟩
    refine ⟨rest.toList, String.toList_append, hr.imp ?_ id⟩
    rintro rfl
    rfl

theorem isWithin_iff_prefix (base path : String) :
    isWithin base path = true ↔ segments base <+: segments path := by
  rw [isWithin_eq_isPrefixOf_segments, List.isPrefixOf_iff_prefix]

/-! ## Covered paths -/

namespace DocumentType
variable {α : Type}

/-- A path is a declared path, lies under one, or has one under it, segment by segment. -/
def Covers (type : DocumentType α) (path : String) : Prop :=
  ∃ declared ∈ type.schemaFields,
    segments declared <+: segments path ∨ segments path <+: segments declared

variable {type : DocumentType α}

theorem knows_iff_covers {path : String} : type.knows path = true ↔ type.Covers path := by
  unfold knows Covers
  simp only [List.any_eq_true, Bool.or_eq_true, isWithin_iff_prefix]

theorem checkPaths_eq_ok_iff {paths : List String} :
    type.checkPaths paths = .ok () ↔ type.schemaFields = [] ∨ ∀ path ∈ paths, type.Covers path := by
  unfold checkPaths
  by_cases hs : type.schemaFields = []
  · simp [hs]
  · rw [if_neg (by simpa using hs)]
    simp only [hs, false_or, ← knows_iff_covers]
    cases hf : paths.find? fun path => !type.knows path with
    | some path =>
      have hn : type.knows path = false := by simpa using List.find?_some hf
      refine ⟨fun h => (by cases h), fun h => ?_⟩
      rw [h path (List.mem_of_find?_eq_some hf)] at hn
      cases hn
    | none => simpa using hf

theorem covers_of_checkPaths (hs : type.schemaFields ≠ []) {paths : List String}
    (h : type.checkPaths paths = .ok ()) : ∀ path ∈ paths, type.Covers path :=
  (checkPaths_eq_ok_iff.1 h).resolve_left hs

/-- The first path of a list that a schema does not cover. -/
def FirstUncovered (type : DocumentType α) (paths : List String) (path : String) : Prop :=
  ∃ front back, paths = front ++ path :: back ∧ (∀ other ∈ front, type.Covers other) ∧
    ¬ type.Covers path

theorem find?_unknown_eq_some_iff {paths : List String} {path : String} :
    paths.find? (fun path => !type.knows path) = some path ↔ type.FirstUncovered paths path := by
  have hunknown : ∀ path, (!type.knows path) = true ↔ ¬ type.Covers path := fun path => by
    rw [← knows_iff_covers, Bool.not_eq_true', Bool.not_eq_true]
  rw [List.find?_eq_some_iff_append, hunknown]
  constructor
  · rintro ⟨hc, front, back, he, hfront⟩
    exact ⟨front, back, he, fun other ho => knows_iff_covers.1 (by simpa using hfront other ho), hc⟩
  · rintro ⟨front, back, he, hfront, hc⟩
    exact ⟨hc, front, back, he, fun other ho => by simpa using knows_iff_covers.2 (hfront other ho)⟩

theorem checkPaths_eq_error_iff {paths : List String} {e : Failure} :
    type.checkPaths paths = .error e ↔
      type.schemaFields ≠ [] ∧ ∃ path, type.FirstUncovered paths path ∧
        e = .filter (.unknownField path type.collection) := by
  simp only [← find?_unknown_eq_some_iff]
  unfold checkPaths
  by_cases hs : type.schemaFields = []
  · simp [hs]
  · rw [if_neg (by simpa using hs)]
    cases paths.find? fun path => !type.knows path with
    | some path => simp [hs, eq_comm]
    | none => simp

end DocumentType

/-- The segments of a path are the texts between its dots, however many of them are empty. One path lies
within another, by its characters, exactly if the segments of the other are its first segments. So a
schema that declares paths accepts a list of paths exactly if every one of them begins with all segments
of a declared path or has the first segments of one; otherwise the error names the first path in the
list that does neither. -/
theorem DocumentType.checkPaths_by_segments :
    (∀ path list, segments path = list ↔
      list ≠ [] ∧ (∀ segment ∈ list, '.' ∉ segment.toList) ∧ ".".intercalate list = path) ∧
    (∀ base path, isWithin base path = true ↔
      ∃ rest, path = base ++ rest ∧ (rest = "" ∨ rest.toList.head? = some '.')) ∧
    (∀ base path, isWithin base path = true ↔ segments base <+: segments path) ∧
    ∀ {α : Type} (type : DocumentType α) (paths : List String),
      (type.checkPaths paths = .ok () ↔
        type.schemaFields = [] ∨ ∀ path ∈ paths, type.Covers path) ∧
      ∀ e, type.checkPaths paths = .error e ↔
        type.schemaFields ≠ [] ∧ ∃ path, type.FirstUncovered paths path ∧
          e = .filter (.unknownField path type.collection) :=
  ⟨segments_eq_iff, isWithin_iff_append, isWithin_iff_prefix,
    fun _ _ => ⟨checkPaths_eq_ok_iff, fun _ => checkPaths_eq_error_iff⟩⟩

/-- Segments at the borders of a path can be empty, and a name that begins with another is another. -/
example : isWithin "meta" "meta." = true ∧ isWithin "" ".meta" = true ∧ isWithin "" "meta" = false ∧
    isWithin "meta" "metadata" = false := by
  decide

end DocWire
