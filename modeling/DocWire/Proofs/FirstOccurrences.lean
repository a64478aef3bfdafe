import Mathlib.Data.List.Basic
import Mathlib.Data.List.Induction

/-!
# First occurrences

The names of a list without repetitions, every name where it occurs first. Each list has one such list,
and it grows by what comes new. Main statements: `FirstOccurrences.unique` and `FirstOccurrences.step`.
-/
set_option autoImplicit false

namespace DocWire

/-- The names of a list, each once, in the order of their first occurrences. -/
structure FirstOccurrences (list found : List String) : Prop where
  mem_iff : ∀ name, name ∈ found ↔ name ∈ list
  ordered : found.Pairwise fun a b => list.idxOf a < list.idxOf b

namespace FirstOccurrences
variable {list found : List String}

theorem nil : FirstOccurrences [] [] := ⟨fun _ => Iff.rfl, .nil⟩

theorem nodup (h : FirstOccurrences list found) : found.Nodup :=
  h.ordered.imp fun {a b} hlt => by
    rintro rfl
    exact Nat.lt_irrefl _ hlt

/-- There are no other first occurrences. -/
theorem unique {other : List String} (h : FirstOccurrences list found)
    (h' : FirstOccurrences list other) : found = other := by
  have hperm : found.Perm other :=
    (List.perm_ext_iff_of_nodup h.nodup h'.nodup).2 fun name =>
      (h.mem_iff name).trans (h'.mem_iff name).symm
  exact hperm.eq_of_pairwise (fun a b _ _ hab hba => absurd hab (Nat.lt_asymm hba)) h.ordered h'.ordered

/-- A further name is another first occurrence, if it has not occurred. -/
theorem step (h : FirstOccurrences list found) (name : String) :
    FirstOccurrences (list ++ [name]) (if found.contains name then found else found ++ [name]) := by
  have hfront : found.Pairwise fun a b => (list ++ [name]).idxOf a < (list ++ [name]).idxOf b := by
    refine h.ordered.imp_of_mem fun ha hb hlt => ?_
    rwa [List.idxOf_append_of_mem ((h.mem_iff _).1 ha), List.idxOf_append_of_mem ((h.mem_iff _).1 hb)]
  by_cases hn : name ∈ found
  · rw [if_pos (List.contains_iff_mem.2 hn)]
    refine ⟨fun other => ?_, hfront⟩
    rw [h.mem_iff, List.mem_append, List.mem_singleton]
    exact ⟨.inl, fun ho => ho.elim id fun he => he ▸ (h.mem_iff name).1 hn⟩
  · rw [if_neg (mt List.contains_iff_mem.1 hn)]
    refine ⟨fun other => by rw [List.mem_append, List.mem_append, h.mem_iff], ?_⟩
    refine List.pairwise_append.2 ⟨hfront, List.pairwise_singleton _ _, fun a ha b hb => ?_⟩
    obtain rfl := List.mem_singleton.1 hb
    rw [List.idxOf_append_of_mem ((h.mem_iff a).1 ha),
      List.idxOf_append_of_notMem (mt (h.mem_iff b).2 hn)]
    exact Nat.lt_add_right _ (List.idxOf_lt_length_of_mem ((h.mem_iff a).1 ha))

theorem exists_found (list : List String) : ∃ found, FirstOccurrences list found := by
  induction list using List.reverseRecOn with
  | nil => exact ⟨[], nil⟩
  | append_singleton front name ih =>
    obtain ⟨found, h⟩ := ih
    exact ⟨_, h.step name⟩

theorem mem_congr {other : List String}
    (h : ∀ found, FirstOccurrences list found ↔ FirstOccurrences other found) (name : String) :
    name ∈ list ↔ name ∈ other := by
  obtain ⟨found, hf⟩ := exists_found list
  exact (hf.mem_iff name).symm.trans (((h found).1 hf).mem_iff name)

/-- A list without repetitions is left as it is. -/
theorem self (h : list.Nodup) : FirstOccurrences list list := by
  refine ⟨fun _ => Iff.rfl, List.pairwise_iff_getElem.2 fun i j hi hj hlt => ?_⟩
  rwa [h.idxOf_getElem, h.idxOf_getElem]

/-- Removing repetitions beforehand leaves the first occurrences. -/
theorem of_found (h : FirstOccurrences list found) (other : List String) :
    FirstOccurrences found other ↔ FirstOccurrences list other := by
  constructor
  · intro ho
    rwa [ho.unique (.self h.nodup)]
  · intro ho
    rw [ho.unique h]
    exact .self h.nodup

/-- A list that stands there a second time adds no first occurrence. -/
theorem append_self : FirstOccurrences (list ++ list) found ↔ FirstOccurrences list found := by
  have hmem : ∀ name, name ∈ list ++ list ↔ name ∈ list := fun name => by
    rw [List.mem_append, or_self]
  constructor
  · intro h
    have hm : ∀ name, name ∈ found ↔ name ∈ list := fun name => (h.mem_iff name).trans (hmem name)
    refine ⟨hm, h.ordered.imp_of_mem fun ha hb hlt => ?_⟩
    rwa [List.idxOf_append_of_mem ((hm _).1 ha), List.idxOf_append_of_mem ((hm _).1 hb)] at hlt
  · intro h
    refine ⟨fun name => (h.mem_iff name).trans (hmem name).symm, h.ordered.imp_of_mem ?_⟩
    intro a b ha hb hlt
    rwa [List.idxOf_append_of_mem ((h.mem_iff _).1 ha), List.idxOf_append_of_mem ((h.mem_iff _).1 hb)]

end FirstOccurrences

end DocWire
