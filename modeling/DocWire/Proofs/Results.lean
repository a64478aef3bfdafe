import DocWire.Failure

/-!
# Results of steps

What it says of two steps in a row, or of a step for each entry of a list, that they succeed, or that
they fail, and two steps side by side.
-/
set_option autoImplicit false

namespace DocWire
variable {ε α β : Type}

theorem bind_ok (a : α) (f : α → Except ε β) : (Except.ok a >>= f) = f a := rfl

theorem bind_error (e : ε) (f : α → Except ε β) : (Except.error e >>= f) = .error e := rfl

theorem bind_eq_ok_iff {x : Except ε α} {f : α → Except ε β} {b : β} :
    (x >>= f) = .ok b ↔ ∃ a, x = .ok a ∧ f a = .ok b := by
  cases x with
  | error e => simp [bind_error]
  | ok a => simp [bind_ok]

theorem bind_eq_error_iff {x : Except ε α} {f : α → Except ε β} {e : ε} :
    (x >>= f) = .error e ↔ x = .error e ∨ ∃ a, x = .ok a ∧ f a = .error e := by
  cases x with
  | error e' => simp [bind_error]
  | ok a => simp [bind_ok]

/-- What a last step makes of a result, when it cannot fail itself. -/
theorem bind_ok_eq_ok_iff {x : Except ε α} {f : α → β} {b : β} :
    (x >>= fun a => .ok (f a)) = .ok b ↔ ∃ a, x = .ok a ∧ b = f a := by
  rw [bind_eq_ok_iff]
  simp only [Except.ok.injEq, eq_comm]

theorem exists_ok_of_isOk {x : Except ε α} (h : x.isOk = true) : ∃ a, x = .ok a := by
  cases x with
  | error e => cases h
  | ok a => exact ⟨a, rfl⟩

theorem exists_error_iff {x : Except ε α} : (∃ e, x = .error e) ↔ ¬ ∃ a, x = .ok a := by
  cases x with
  | error e => simp
  | ok a => simp

/-- The error of a step that failed. -/
def errorOf? : Except ε α → Option ε
  | .error e => some e
  | .ok _ => none

theorem errorOf?_eq_some_iff {x : Except ε α} {e : ε} : errorOf? x = some e ↔ x = .error e := by
  cases x with
  | error e' => simp [errorOf?]
  | ok a => simp [errorOf?]

theorem errorOf?_bind_ok (x : Except ε α) (f : α → β) :
    errorOf? (x >>= fun a => .ok (f a)) = errorOf? x := by
  cases x <;> rfl

/-- Of two steps in a row the first that fails gives the error. -/
theorem errorOf?_bind_bind_ok {γ : Type} (x : Except ε α) (y : Except ε β) (f : α → β → γ) :
    errorOf? (x >>= fun a => y >>= fun b => .ok (f a b)) = (errorOf? x).or (errorOf? y) := by
  cases x with
  | error e => rfl
  | ok a => cases y <;> rfl

theorem map_eq_ok_iff {x : Except ε α} {f : α → β} {b : β} :
    x.map f = .ok b ↔ ∃ a, x = .ok a ∧ f a = b := by
  cases x with
  | error e => simp [Except.map]
  | ok a => simp [Except.map]

theorem map_eq_error_iff {x : Except ε α} {f : α → β} {e : ε} : x.map f = .error e ↔ x = .error e := by
  cases x with
  | error e' => simp [Except.map]
  | ok a => simp [Except.map]

theorem mapError_eq_ok_iff {δ : Type} {x : Except ε α} {f : ε → δ} {a : α} :
    x.mapError f = .ok a ↔ x = .ok a := by
  cases x with
  | error e => exact iff_of_false nofun nofun
  | ok b =>
    constructor
    · intro h
      cases h
      rfl
    · rintro ⟨⟩
      rfl

/-! ## Steps over a list -/

theorem mapM_eq_ok_iff {f : α → Except ε β} {l : List α} {bs : List β} :
    l.mapM f = .ok bs ↔ l.map f = bs.map .ok := by
  induction l generalizing bs with
  | nil => cases bs <;> simp [pure, Except.pure]
  | cons a l ih =>
    rw [List.mapM_cons, bind_eq_ok_iff, List.map_cons]
    constructor
    · rintro ⟨b, hb, h⟩
      obtain ⟨rest, hr, h⟩ := bind_eq_ok_iff.1 h
      cases h
      rw [List.map_cons, hb, ih.1 hr]
    · intro h
      cases bs with
      | nil => cases h
      | cons b rest =>
        obtain ⟨hb, hr⟩ := List.cons.inj h
        exact ⟨b, hb, bind_eq_ok_iff.2 ⟨rest, ih.2 hr, rfl⟩⟩

theorem length_of_mapM {f : α → Except ε β} {l : List α} {bs : List β} (h : l.mapM f = .ok bs) :
    bs.length = l.length := by
  simpa using (congrArg List.length (mapM_eq_ok_iff.1 h)).symm

/-- The result of each step has the place of the step. -/
theorem getElem?_of_mapM {f : α → Except ε β} {l : List α} {bs : List β} (h : l.mapM f = .ok bs)
    {i : Nat} {a : α} (ha : l[i]? = some a) : ∃ b, bs[i]? = some b ∧ f a = .ok b := by
  have hi : (l.map f)[i]? = (bs.map Except.ok)[i]? := by rw [mapM_eq_ok_iff.1 h]
  rw [List.getElem?_map, List.getElem?_map, ha] at hi
  obtain ⟨b, hb, hf⟩ := Option.map_eq_some_iff.1 hi.symm
  exact ⟨b, hb, hf.symm⟩

/-- A list of steps fails by the first step that does. -/
theorem mapM_eq_error_iff {f : α → Except ε β} {l : List α} {e : ε} :
    l.mapM f = .error e ↔ ∃ (i : Nat) (a : α), l[i]? = some a ∧ f a = .error e ∧
      ∀ j < i, ∀ a, l[j]? = some a → ∃ b, f a = .ok b := by
  induction l with
  | nil => simp [pure, Except.pure]
  | cons a l ih =>
    rw [List.mapM_cons, bind_eq_error_iff]
    constructor
    · rintro (h | ⟨b, hb, h⟩)
      · exact ⟨0, a, rfl, h, fun j hj => absurd hj (Nat.not_lt_zero j)⟩
      · rcases bind_eq_error_iff.1 h with h | ⟨rest, -, h⟩
        · obtain ⟨i, a', hi, he, hfront⟩ := ih.1 h
          refine ⟨i + 1, a', hi, he, fun j hj a'' hj' => ?_⟩
          cases j with
          | zero =>
            cases hj'
            exact ⟨b, hb⟩
          | succ j => exact hfront j (Nat.lt_of_succ_lt_succ hj) a'' hj'
        · cases h
    · rintro ⟨i, a', hi, he, hfront⟩
      cases i with
      | zero =>
        cases hi
        exact .inl he
      | succ i =>
        obtain ⟨b, hb⟩ := hfront 0 (Nat.succ_pos i) a rfl
        refine .inr ⟨b, hb, bind_eq_error_iff.2 (.inl (ih.2 ⟨i, a', hi, he, fun j hj a'' hj' => ?_⟩))⟩
        exact hfront (j + 1) (Nat.succ_lt_succ hj) a'' hj'

/-- A list of steps succeeds when all of them do. -/
theorem exists_mapM_eq_ok_iff {f : α → Except ε β} {l : List α} :
    (∃ bs, l.mapM f = .ok bs) ↔ ∀ (i : Nat) (a : α), l[i]? = some a → ∃ b, f a = .ok b := by
  constructor
  · rintro ⟨bs, h⟩ i a ha
    exact (getElem?_of_mapM h ha).imp fun b hb => hb.2
  · intro h
    cases hl : l.mapM f with
    | ok bs => exact ⟨bs, rfl⟩
    | error e =>
      obtain ⟨i, a, ha, hf, -⟩ := mapM_eq_error_iff.1 hl
      exact absurd (h i a ha) (exists_error_iff.1 ⟨e, hf⟩)

/-! ## Two steps side by side -/

/-- Two steps fail by the same error, or both succeed with results that are related. -/
inductive Parallel {γ : Type} (r : α → γ → Prop) : Except ε α → Except ε γ → Prop
  | ok {a : α} {c : γ} (h : r a c) : Parallel r (.ok a) (.ok c)
  | error (e : ε) : Parallel r (.error e) (.error e)

namespace Parallel

theorem refl {r : α → α → Prop} (h : ∀ a, r a a) (x : Except ε α) : Parallel r x x := by
  cases x with
  | error e => exact .error e
  | ok a => exact .ok (h a)

theorem bind {γ δ : Type} {r : α → γ → Prop} {s : β → δ → Prop} {x : Except ε α} {y : Except ε γ}
    {f : α → Except ε β} {g : γ → Except ε δ} (h : Parallel r x y)
    (hf : ∀ a c, r a c → Parallel s (f a) (g c)) : Parallel s (x >>= f) (y >>= g) := by
  cases h with
  | ok h => exact hf _ _ h
  | error e => exact .error e

/-- What is related are the results. -/
theorem results {γ : Type} {r : α → γ → Prop} {x : Except ε α} {y : Except ε γ} (h : Parallel r x y) :
    Parallel (fun a c => x = .ok a ∧ y = .ok c ∧ r a c) x y := by
  cases h with
  | ok h => exact .ok ⟨rfl, rfl, h⟩
  | error e => exact .error e

theorem outcomes {γ : Type} {r : α → γ → Prop} {x : Except ε α} {y : Except ε γ}
    (h : Parallel r x y) :
    (∃ e, x = .error e ∧ y = .error e) ∨ ∃ a c, x = .ok a ∧ y = .ok c ∧ r a c := by
  cases h with
  | ok h => exact .inr ⟨_, _, rfl, rfl, h⟩
  | error e => exact .inl ⟨e, rfl, rfl⟩

end Parallel

end DocWire
