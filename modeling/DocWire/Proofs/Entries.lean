import DocWire.Entries

/-!
# Entries with different names

Where no name occurs twice, looking a name up finds the one entry that has it, and taking a name out
leaves the other entries, in whatever order. Main statements: `get?_eq_some_iff` and
`Left.swapErase`.
-/
set_option autoImplicit false

namespace DocWire.Entries
variable {α : Type}

theorem mem_keys_of_mem {name : String} {value : α} {entries : Entries α}
    (h : (name, value) ∈ entries) : name ∈ keys entries :=
  List.mem_map.2 ⟨(name, value), h, rfl⟩

theorem contains_iff_mem_keys {name : String} {entries : Entries α} :
    contains name entries = true ↔ name ∈ keys entries := by
  unfold contains
  rw [Option.isSome_iff_ne_none, Ne, get?_eq_none_iff]
  exact Decidable.not_not

theorem distinct_cons_iff {entry : String × α} {rest : Entries α} :
    Distinct (entry :: rest) ↔ entry.1 ∉ keys rest ∧ Distinct rest :=
  List.nodup_cons

theorem get?_eq_some_iff {entries : Entries α} (hd : Distinct entries) {name : String} {value : α} :
    get? name entries = some value ↔ (name, value) ∈ entries := by
  induction entries with
  | nil => simp [get?]
  | cons entry rest ih =>
    obtain ⟨k, v⟩ := entry
    obtain ⟨hk, hr⟩ := distinct_cons_iff.1 hd
    by_cases h : k = name
    · subst h
      have hrest : (k, value) ∉ rest := fun hm => hk (mem_keys_of_mem hm)
      simp [get?, hrest, eq_comm]
    · simp [get?, h, Ne.symm h, ih hr]

/-- Entries in another order have the same values under the same names. -/
theorem get?_of_perm {entries others : Entries α} (h : entries.Perm others) (hd : Distinct others)
    (name : String) : get? name entries = get? name others := by
  have hde : Distinct entries := (h.map Prod.fst).nodup_iff.2 hd
  apply Option.ext
  intro value
  rw [get?_eq_some_iff hde, get?_eq_some_iff hd, h.mem_iff]

/-- A name that is there stands between other entries, and inserting it changes its value alone. -/
theorem exists_split_of_get? {name : String} {value : α} {entries : Entries α}
    (h : get? name entries = some value) :
    ∃ front back, entries = front ++ (name, value) :: back ∧
      ∀ other, insert name other entries = front ++ (name, other) :: back := by
  induction entries with
  | nil => cases h
  | cons entry rest ih =>
    obtain ⟨k, v⟩ := entry
    by_cases hk : k = name
    · subst hk
      have hv : v = value := by simpa [get?] using h
      subst hv
      exact ⟨[], rest, rfl, fun other => by simp [insert]⟩
    · have hr : get? name rest = some value := by simpa [get?, hk] using h
      obtain ⟨front, back, rfl, hinsert⟩ := ih hr
      exact ⟨(k, v) :: front, back, rfl, fun other => by simp [insert, hk, hinsert]⟩

/-- What is left of entries when names have been taken out, in whatever order. -/
structure Left (entries : Entries α) (taken : List String) (rest : Entries α) : Prop where
  distinct : Distinct rest
  mem_iff : ∀ entry, entry ∈ rest ↔ entry ∈ entries ∧ entry.1 ∉ taken

theorem left_self {entries : Entries α} (hd : Distinct entries) : Left entries [] entries :=
  ⟨hd, fun _ => ⟨fun hm => ⟨hm, List.not_mem_nil⟩, fun hm => hm.1⟩⟩

/-- A name that was not taken has the value that it had. -/
theorem Left.get?_eq {entries rest : Entries α} {taken : List String} (h : Left entries taken rest)
    (hd : Distinct entries) {name : String} (hn : name ∉ taken) : get? name rest = get? name entries := by
  apply Option.ext
  intro value
  rw [get?_eq_some_iff h.distinct, get?_eq_some_iff hd, h.mem_iff]
  exact and_iff_left hn

/-- Nothing is left when all names were taken. -/
theorem Left.eq_nil_iff {entries rest : Entries α} {taken : List String}
    (h : Left entries taken rest) : rest = [] ↔ ∀ name ∈ keys entries, name ∈ taken := by
  rw [List.eq_nil_iff_forall_not_mem]
  constructor
  · intro hr name hn
    obtain ⟨entry, he, rfl⟩ := List.mem_map.1 hn
    by_cases ht : entry.1 ∈ taken
    · exact ht
    · exact absurd ((h.mem_iff entry).2 ⟨he, ht⟩) (hr entry)
  · intro hk entry he
    obtain ⟨hm, hn⟩ := (h.mem_iff entry).1 he
    exact hn (hk entry.1 (List.mem_map.2 ⟨entry, hm, rfl⟩))

/-- Taking a name out hands back its value and leaves the entries of other names. -/
theorem swapErase_spec {entries : Entries α} (hd : Distinct entries) (name : String) :
    ∃ rest, swapErase name entries = (get? name entries, rest) ∧ Left entries [name] rest := by
  induction entries with
  | nil => exact ⟨[], rfl, distinct_nil, by simp⟩
  | cons first rest ih =>
    obtain ⟨k, v⟩ := first
    obtain ⟨hk, hr⟩ := distinct_cons_iff.1 hd
    by_cases h : k = name
    · subst h
      -- The gap is filled from the end, so what is left is the rest in another order.
      have hleft : ∃ left, swapErase k ((k, v) :: rest) = (some v, left) ∧ left.Perm rest := by
        unfold swapErase
        rw [if_pos rfl]
        cases hl : rest.getLast? with
        | none => exact ⟨[], rfl, by rw [List.getLast?_eq_none_iff.1 hl]⟩
        | some last =>
          refine ⟨last :: rest.dropLast, rfl, ?_⟩
          obtain ⟨front, rfl⟩ := List.getLast?_eq_some_iff.1 hl
          rw [List.dropLast_concat]
          exact (List.perm_append_singleton last front).symm
      obtain ⟨left, he, hp⟩ := hleft
      refine ⟨left, by rw [he, get?, if_pos rfl], (hp.map Prod.fst).nodup_iff.2 hr, ?_⟩
      intro entry
      rw [hp.mem_iff, List.mem_cons, List.mem_singleton]
      constructor
      · intro hm
        exact ⟨.inr hm, fun hn => hk (List.mem_map.2 ⟨entry, hm, hn⟩)⟩
      · rintro ⟨rfl | hm, hn⟩
        · exact absurd rfl hn
        · exact hm
    · obtain ⟨left, he, hl⟩ := ih hr
      refine ⟨(k, v) :: left, by rw [swapErase, if_neg h, he, get?, if_neg h], ?_, ?_⟩
      · refine distinct_cons_iff.2 ⟨?_, hl.distinct⟩
        intro hk'
        obtain ⟨entry, he', rfl⟩ := List.mem_map.1 hk'
        exact hk (List.mem_map.2 ⟨entry, ((hl.mem_iff entry).1 he').1, rfl⟩)
      · intro entry
        rw [List.mem_cons, List.mem_cons, hl.mem_iff entry]
        constructor
        · rintro (rfl | ⟨hr', hn⟩)
          · exact ⟨.inl rfl, by simpa using h⟩
          · exact ⟨.inr hr', hn⟩
        · rintro ⟨rfl | hr', hn⟩
          · exact .inl rfl
          · exact .inr ⟨hr', hn⟩

theorem Left.swapErase {entries rest : Entries α} {taken : List String} (h : Left entries taken rest)
    (hd : Distinct entries) (name : String) (hn : name ∉ taken) :
    ∃ others, Entries.swapErase name rest = (get? name entries, others) ∧
      Left entries (taken ++ [name]) others := by
  obtain ⟨others, he, ho⟩ := swapErase_spec h.distinct name
  refine ⟨others, by rw [he, h.get?_eq hd hn], ho.distinct, ?_⟩
  intro entry
  rw [ho.mem_iff, h.mem_iff, List.mem_append, not_or, and_assoc]

end DocWire.Entries
