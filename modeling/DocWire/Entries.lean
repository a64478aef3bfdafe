/-!
# Ordered association lists

Named entries in order of first insertion: the members of a JSON object and the fields of a field
map. Inserting under a known name replaces the value in place, so a name never moves and never
occurs twice. Main statements: what an insertion does to `keys` and to `get?`, and that insertion
keeps the names distinct.
-/
set_option autoImplicit false

namespace DocWire

/-- Entries by name, first inserted first. -/
abbrev Entries (α : Type) := List (String × α)

namespace Entries
variable {α : Type}

/-- The value stored under a name: that of the first entry with the name. -/
def get? (name : String) : Entries α → Option α
  | [] => none
  | (k, v) :: rest => if k = name then some v else get? name rest

/-- Stores a value under a name: in place when the name is known, at the end otherwise. -/
def insert (name : String) (value : α) : Entries α → Entries α
  | [] => [(name, value)]
  | (k, v) :: rest => if k = name then (name, value) :: rest else (k, v) :: insert name value rest

/-- Stores a value under a name and hands back the value that it takes the place of. -/
def exchange (name : String) (value : α) : Entries α → Option α × Entries α
  | [] => (none, [(name, value)])
  | (k, v) :: rest =>
    if k = name then (some v, (name, value) :: rest)
    else
      let (old, others) := exchange name value rest
      (old, (k, v) :: others)

/-- The entries left by inserting the pairs of a list one after another. -/
def ofList (pairs : List (String × α)) : Entries α :=
  pairs.foldl (fun entries pair => insert pair.1 pair.2 entries) []

/-- The names, in order. -/
def keys (entries : Entries α) : List String := entries.map Prod.fst

/-- Every name occurs once. -/
def Distinct (entries : Entries α) : Prop := (keys entries).Nodup

def contains (name : String) (entries : Entries α) : Bool := (get? name entries).isSome

/-- Takes a name out. The last entry moves into the gap, the others keep their places. -/
def swapErase (name : String) : Entries α → Option α × Entries α
  | [] => (none, [])
  | (k, v) :: rest =>
    if k = name then
      match rest.getLast? with
      | none => (some v, [])
      | some last => (some v, last :: rest.dropLast)
    else
      let (found, others) := swapErase name rest
      (found, (k, v) :: others)

/-! ## Insertion -/

@[simp] theorem keys_nil : keys ([] : Entries α) = [] := rfl

@[simp] theorem keys_cons (p : String × α) (rest : Entries α) : keys (p :: rest) = p.1 :: keys rest := rfl

theorem get?_eq_none_iff (name : String) (entries : Entries α) :
    get? name entries = none ↔ name ∉ keys entries := by
  induction entries with
  | nil => simp [get?]
  | cons p rest ih =>
    obtain ⟨k, v⟩ := p
    by_cases h : k = name
    · simp [get?, h]
    · simp [get?, h, ih, Ne.symm h]

theorem get?_insert_self (name : String) (value : α) (entries : Entries α) :
    get? name (insert name value entries) = some value := by
  induction entries with
  | nil => simp [insert, get?]
  | cons p rest ih =>
    obtain ⟨k, v⟩ := p
    by_cases h : k = name <;> simp [insert, get?, h, ih]

theorem get?_insert_of_ne (name other : String) (value : α) (entries : Entries α) (h : name ≠ other) :
    get? other (insert name value entries) = get? other entries := by
  induction entries with
  | nil => simp [insert, get?, h]
  | cons p rest ih =>
    obtain ⟨k, v⟩ := p
    by_cases hk : k = name
    · subst hk
      simp [insert, get?, h]
    · simp [insert, get?, hk, ih]

/-- A known name keeps its place, a new one goes to the end. -/
theorem keys_insert (name : String) (value : α) (entries : Entries α) :
    keys (insert name value entries) =
      if name ∈ keys entries then keys entries else keys entries ++ [name] := by
  induction entries with
  | nil => simp [insert, keys]
  | cons p rest ih =>
    obtain ⟨k, v⟩ := p
    by_cases h : k = name
    · simp [insert, h]
    · simp only [insert, h, if_false, keys_cons, ih, List.mem_cons, Ne.symm h, false_or]
      split <;> rfl

theorem distinct_nil : Distinct ([] : Entries α) := List.nodup_nil

theorem Distinct.insert {entries : Entries α} (h : Distinct entries) (name : String) (value : α) :
    Distinct (Entries.insert name value entries) := by
  unfold Distinct at *
  rw [keys_insert]
  split
  · exact h
  · rename_i hn
    refine List.nodup_append.2 ⟨h, by simp, ?_⟩
    intro a ha b hb
    rw [List.mem_singleton] at hb
    rintro rfl
    exact hn (hb ▸ ha)

theorem exchange_eq (name : String) (value : α) (entries : Entries α) :
    exchange name value entries = (get? name entries, insert name value entries) := by
  induction entries with
  | nil => rfl
  | cons p rest ih =>
    obtain ⟨k, v⟩ := p
    by_cases h : k = name
    · simp [exchange, get?, insert, h]
    · simp [exchange, get?, insert, h, ih]

/-- Inserting a name that is not there appends it. -/
theorem insert_of_not_mem (name : String) (value : α) (entries : Entries α) (h : name ∉ keys entries) :
    insert name value entries = entries ++ [(name, value)] := by
  induction entries with
  | nil => rfl
  | cons p rest ih =>
    obtain ⟨k, v⟩ := p
    rw [keys_cons, List.mem_cons, not_or] at h
    simp [insert, Ne.symm h.1, ih h.2]

theorem mem_of_mem_insert {name : String} {value : α} {entries : Entries α} {entry : String × α}
    (h : entry ∈ insert name value entries) : entry = (name, value) ∨ entry ∈ entries := by
  induction entries with
  | nil => exact .inl (List.mem_singleton.1 h)
  | cons p rest ih =>
    obtain ⟨k, v⟩ := p
    unfold insert at h
    split at h
    · exact (List.mem_cons.1 h).imp id (List.mem_cons_of_mem _)
    · rcases List.mem_cons.1 h with rfl | h
      · exact .inr (List.mem_cons_self ..)
      · exact (ih h).imp id (List.mem_cons_of_mem _)

/-- Inserting pairs one after another gives entries of different names, each one of the pairs. -/
theorem ofList_spec (pairs : List (String × α)) :
    Distinct (ofList pairs) ∧ ∀ entry ∈ ofList pairs, entry ∈ pairs := by
  suffices hs : ∀ front : Entries α, Distinct front →
      Distinct (pairs.foldl (fun entries pair => insert pair.1 pair.2 entries) front) ∧
        ∀ entry ∈ pairs.foldl (fun entries pair => insert pair.1 pair.2 entries) front,
          entry ∈ front ∨ entry ∈ pairs by
    obtain ⟨hd, hm⟩ := hs [] distinct_nil
    exact ⟨hd, fun entry he => (hm entry he).resolve_left List.not_mem_nil⟩
  induction pairs with
  | nil => exact fun front hf => ⟨hf, fun entry he => .inl he⟩
  | cons pair rest ih =>
    intro front hf
    obtain ⟨hd, hm⟩ := ih (insert pair.1 pair.2 front) (hf.insert pair.1 pair.2)
    refine ⟨hd, fun entry he => ?_⟩
    rcases hm entry he with he | he
    · rcases mem_of_mem_insert he with rfl | he
      · exact .inr (List.mem_cons_self ..)
      · exact .inl he
    · exact .inr (List.mem_cons_of_mem _ he)

/-- Pairs of different names are inserted as they are. -/
theorem ofList_of_distinct {entries : Entries α} (h : Distinct entries) : ofList entries = entries := by
  suffices hs : ∀ front : Entries α, Distinct (front ++ entries) →
      entries.foldl (fun entries pair => insert pair.1 pair.2 entries) front = front ++ entries by
    exact hs [] h
  clear h
  induction entries with
  | nil => intro front _; simp
  | cons pair rest ih =>
    intro front hd
    have hfresh : pair.1 ∉ keys front := by
      unfold Distinct keys at hd
      rw [List.map_append, List.nodup_append] at hd
      exact fun hm => hd.2.2 _ hm _ (List.mem_cons_self ..) rfl
    rw [List.foldl_cons, insert_of_not_mem pair.1 pair.2 front hfresh,
      ih (front ++ [pair]) (by rwa [List.append_assoc]), List.append_assoc]
    rfl

end Entries
end DocWire
