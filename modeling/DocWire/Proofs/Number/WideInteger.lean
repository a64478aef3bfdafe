import Mathlib.Data.List.Induction
import DocWire.Proofs.Number.Denoted
import DocWire.Value.Native

/-!
# One text for each integer

Every text that spells an integer becomes a wide integer, whose text is the one spelling without zeros in
front and without a sign at zero. This text depends on the number alone, so wide integers can be compared
by their texts, wherever they come from. Main statements: `digits_ofDigits`, digits without zeros in front
are those of their number; `map_text_ofText?`, how a text is respelled; and `text_canonical`.
-/
set_option autoImplicit false

namespace DocWire

open Json.Grammar (Digits Whole)

/-! ## Digits -/

theorem toNat_of_isDigit {c : Char} (h : isDigit c = true) : 48 ≤ c.toNat ∧ c.toNat ≤ 57 := by
  simp only [isDigit, Bool.and_eq_true, decide_eq_true_eq, Char.le_def, UInt32.le_iff_toNat_le] at h
  exact h

theorem digitValue_eq (c : Char) : digitValue c = c.toNat - 48 := rfl

theorem digitValue_lt {c : Char} (h : isDigit c = true) : digitValue c < 10 := by
  have hbounds := toNat_of_isDigit h
  rw [digitValue_eq]
  omega

theorem digits_digitValue {c : Char} (h : isDigit c = true) : digits (digitValue c) = [c] := by
  have hbounds := toNat_of_isDigit h
  have hlt := digitValue_lt h
  have hchar : Nat.digitChar (digitValue c) = c := by
    apply Char.toNat_inj.1
    rw [Nat.toNat_digitChar_of_lt_ten hlt, digitValue_eq]
    omega
  rw [digits, Nat.toDigits_of_lt_base hlt, hchar]

theorem ofDigits_concat (cs : List Char) (c : Char) :
    ofDigits (cs ++ [c]) = 10 * ofDigits cs + digitValue c := by
  rw [ofDigits, List.foldl_append]
  rfl

/-- Digits without leading zeros are those of their number. -/
theorem digits_ofDigits {ds : List Char} (h : Whole ds) : digits (ofDigits ds) = ds := by
  -- The last digit is split off, since a number gives its digits in this order.
  induction ds using List.reverseRecOn with
  | nil => exact absurd rfl h.1.1
  | append_singleton front c ih =>
    obtain ⟨⟨-, hdigits⟩, hzero⟩ := h
    have hc : isDigit c = true := hdigits c (List.mem_append_right _ (List.mem_singleton_self c))
    have hlast := digits_digitValue hc
    rw [ofDigits_concat]
    by_cases hfront : front = []
    · subst hfront
      have hnil : 10 * ofDigits [] + digitValue c = digitValue c := Nat.zero_add _
      rw [hnil]
      exact hlast
    have hhead : front.head? ≠ some '0' := by
      intro hz
      have hall := hzero (by rw [List.head?_append, hz]; rfl)
      have hlen := congrArg List.length hall
      have hpos := List.length_pos_iff.2 hfront
      rw [List.length_append, List.length_singleton, List.length_singleton] at hlen
      omega
    have hwhole : Whole front :=
      ⟨⟨hfront, fun d hd => hdigits d (List.mem_append_left _ hd)⟩, fun hz => absurd hz hhead⟩
    have hih := ih hwhole
    have hpos : 0 < ofDigits front := by
      refine Nat.pos_of_ne_zero fun hz => hhead ?_
      rw [← hih, hz]
      rfl
    calc digits (10 * ofDigits front + digitValue c)
      _ = digits (ofDigits front) ++ digits (digitValue c) :=
        (Nat.toDigits_append_toDigits (by decide) hpos (digitValue_lt hc)).symm
      _ = front ++ [c] := by rw [hih, hlast]

/-! ## Zeros in front -/

/-- Digits without the zeros in front, after a sign. Of zeros alone one is left, and no sign. -/
def withoutZeros (sign ds : List Char) : List Char :=
  if ds.dropWhile (· = '0') = [] then ['0'] else sign ++ ds.dropWhile (· = '0')

/-- Zeros in front count for nothing. -/
theorem placeValue_dropWhile (ds : List Char) : placeValue (ds.dropWhile (· = '0')) = placeValue ds := by
  induction ds with
  | nil => rfl
  | cons c ds ih =>
    rw [List.dropWhile_cons]
    split
    · rename_i hc
      obtain rfl := of_decide_eq_true hc
      have hzero : digitValue '0' = 0 := rfl
      rw [ih, placeValue, hzero, Nat.zero_mul, Nat.zero_add]
    · rfl

theorem head_dropWhile_zero (ds : List Char) : (ds.dropWhile (· = '0')).head? ≠ some '0' := by
  intro hz
  have hhead := List.head?_dropWhile_not (· = '0') ds
  rw [hz] at hhead
  cases hhead

/-- The digits of a number are those of any spelling, without the zeros in front. -/
theorem digits_placeValue {ds : List Char} (h : Digits ds) :
    digits (placeValue ds) = withoutZeros [] ds := by
  have hvalue := placeValue_dropWhile ds
  unfold withoutZeros
  split
  · rename_i hnil
    rw [hnil] at hvalue
    rw [← hvalue]
    rfl
  · rename_i hne
    have hwhole : Whole (ds.dropWhile (· = '0')) :=
      ⟨⟨hne, fun c hc => h.2 c ((List.dropWhile_sublist _).subset hc)⟩,
        fun hz => absurd hz (head_dropWhile_zero ds)⟩
    rw [← hvalue, ← ofDigits_eq_placeValue, digits_ofDigits hwhole, List.nil_append]

theorem signedDigits_placeValue {ds : List Char} (h : Digits ds) :
    signedDigits (placeValue ds) = withoutZeros [] ds := by
  have hn : ¬ (placeValue ds : Int) < 0 := Int.not_lt.2 (Int.natCast_nonneg _)
  rw [signedDigits, if_neg hn, Int.natAbs_natCast, digits_placeValue h]

theorem signedDigits_neg_placeValue {ds : List Char} (h : Digits ds) :
    signedDigits (-placeValue ds) = withoutZeros ['-'] ds := by
  have hdigits := digits_placeValue h
  rw [signedDigits, Int.natAbs_neg, Int.natAbs_natCast, hdigits]
  -- The sign goes with the digits: a zero has none.
  by_cases hz : ds.dropWhile (· = '0') = []
  · have hzero : placeValue ds = 0 := by rw [← placeValue_dropWhile, hz, placeValue]
    have hn : ¬ -(placeValue ds : Int) < 0 := by omega
    rw [if_neg hn, withoutZeros, withoutZeros, if_pos hz, if_pos hz]
  · have hpos : placeValue ds ≠ 0 := by
      intro hzero
      rw [hzero, withoutZeros, if_neg hz, List.nil_append] at hdigits
      exact head_dropWhile_zero ds (by rw [← hdigits]; rfl)
    have hn : -(placeValue ds : Int) < 0 := by omega
    rw [if_pos hn, withoutZeros, withoutZeros, if_neg hz, if_neg hz]
    rfl

namespace WideInteger

/-! ## Reading -/

/-- The spelling of an integer without zeros in front, and without a sign at zero, by the characters of
a text that spells it. -/
def respell? (spelling : String) : Option String :=
  match spelling.toList with
  | '-' :: ds =>
    if ds ≠ [] ∧ ds.all isDigit then some (String.ofList (withoutZeros ['-'] ds)) else none
  | ds => if ds ≠ [] ∧ ds.all isDigit then some (String.ofList (withoutZeros [] ds)) else none

theorem ofText?_eq_some_iff {spelling : String} {a : WideInteger} :
    ofText? spelling = some a ↔ DenotesInteger spelling.toList a.value := by
  rw [ofText?, ← integer?_eq_some_iff, Option.map_eq_some_iff]
  constructor
  · rintro ⟨n, hn, rfl⟩
    exact hn
  · intro h
    exact ⟨a.value, h, rfl⟩

theorem exists_ofText?_iff (spelling : String) :
    (∃ a, ofText? spelling = some a) ↔ SpellsInteger spelling := by
  rw [← exists_integer?_iff]
  constructor
  · rintro ⟨a, ha⟩
    exact ⟨a.value, integer?_eq_some_iff.2 (ofText?_eq_some_iff.1 ha)⟩
  · rintro ⟨n, hn⟩
    exact ⟨⟨n⟩, ofText?_eq_some_iff.2 (integer?_eq_some_iff.1 hn)⟩

/-- The text of a wide integer that was read has the characters of the text it was read from, but for
zeros in front and the sign of zero. -/
theorem map_text_ofText? (spelling : String) :
    (ofText? spelling).map text = respell? spelling := by
  unfold respell? ofText?
  split
  · rename_i ds hs
    rw [hs]
    split
    · rename_i hd
      have hdigits : Digits ds := ⟨hd.1, List.all_eq_true.1 hd.2⟩
      rw [integer?_of_minus hdigits]
      simp only [Option.map_some, text, chars, signedDigits_neg_placeValue hdigits]
    · rename_i hd
      rw [integer?, natural?, if_neg hd]
      rfl
  · rename_i hs
    split
    · rename_i hd
      have hdigits : Digits spelling.toList := ⟨hd.1, List.all_eq_true.1 hd.2⟩
      rw [integer?_of_digits hdigits]
      simp only [Option.map_some, text, chars, signedDigits_placeValue hdigits]
    · rename_i hd
      have hnone : integer? spelling.toList = none := by
        unfold integer?
        split
        · rename_i ds hm
          exact absurd hm (hs ds)
        · rw [natural?, if_neg hd]
          rfl
      rw [hnone]
      rfl

/-! ## Canonical texts -/

/-- A zero, or digits without zeros in front, perhaps after a minus sign. -/
def Canonical (spelling : String) : Prop :=
  spelling = "0" ∨ ∃ ds, Digits ds ∧ ds.head? ≠ some '0' ∧
    (spelling.toList = ds ∨ spelling.toList = '-' :: ds)

theorem toList_text (a : WideInteger) : a.text.toList = signedDigits a.value := String.toList_ofList

theorem denotes_text (a : WideInteger) : DenotesInteger a.text.toList a.value := by
  rw [toList_text, ← integer?_eq_some_iff]
  exact integer?_signedDigits a.value

theorem canonical_text (a : WideInteger) : Canonical a.text := by
  by_cases hz : a.value = 0
  · left
    rw [text, chars, hz]
    rfl
  · right
    have habs : a.value.natAbs ≠ 0 := Int.natAbs_ne_zero.2 hz
    refine ⟨digits a.value.natAbs, ⟨digits_ne_nil _, fun c hc => isDigit_of_mem_digits hc⟩,
      head_digits habs, ?_⟩
    rw [toList_text, signedDigits]
    split
    · exact .inr rfl
    · exact .inl rfl

/-- A wide integer is known by its text. -/
theorem text_inj {a b : WideInteger} : a.text = b.text ↔ a = b := by
  constructor
  · intro h
    have ha := denotes_text a
    rw [h] at ha
    have hvalue := ha.unique (denotes_text b)
    cases a
    cases b
    exact congrArg mk hvalue
  · exact congrArg text

theorem head_text_eq_minus_iff (a : WideInteger) : a.text.toList.head? = some '-' ↔ a.value < 0 := by
  rw [toList_text, signedDigits]
  split
  · rename_i hn
    exact iff_of_true rfl hn
  · rename_i hn
    exact iff_of_false (head_digits_ne_minus _) hn

/-- How a wide integer comes about: it is read from a text that denotes an integer, or made of a number
that a program holds in 64 or 128 bits. -/
inductive MadeOf : WideInteger → Int → Prop
  | text {spelling : String} {n : Int} {a : WideInteger} (hd : DenotesInteger spelling.toList n)
      (h : ofText? spelling = some a) : MadeOf a n
  | number (width : IntegerWidth) {n : Int} (hw : width ≠ .signed32 ∧ width ≠ .unsigned32)
      (h : width.Holds n) : MadeOf ⟨n⟩ n

theorem MadeOf.eq_mk {a : WideInteger} {n : Int} (h : MadeOf a n) : a = ⟨n⟩ := by
  cases h with
  | text hd h =>
    cases a
    exact congrArg mk ((ofText?_eq_some_iff.1 h).unique hd)
  | number => rfl

/-- The texts that spell integers, and no others, are read. What is read has a canonical text, which is
made of the characters of the text that was read, denotes the same integer and is read as the same
again. Wherever wide integers come from, their texts are those of the integers they are made of; so they
are equal, and have equal texts, exactly if these integers are equal, and are negative, and have a minus
sign in front, exactly if the integer is below zero. -/
theorem text_canonical :
    (∀ spelling, (∃ a, ofText? spelling = some a) ↔ SpellsInteger spelling) ∧
    (∀ spelling, (ofText? spelling).map text = respell? spelling) ∧
    (∀ spelling a, ofText? spelling = some a → Canonical a.text ∧ ofText? a.text = some a ∧
      ∃ n, (∀ m, DenotesInteger spelling.toList m ↔ m = n) ∧
        ∀ m, DenotesInteger a.text.toList m ↔ m = n) ∧
    (∀ a n, MadeOf a n → a.text = toString n ∧ (a.isNegative = true ↔ n < 0) ∧
      (a.text.toList.head? = some '-' ↔ n < 0)) ∧
    ∀ a b n m, MadeOf a n → MadeOf b m → (a = b ↔ n = m) ∧ (a.text = b.text ↔ n = m) := by
  refine ⟨exists_ofText?_iff, map_text_ofText?, fun spelling a h => ?_, fun a n h => ?_,
    fun a b n m ha hb => ?_⟩
  · have hread := ofText?_eq_some_iff.1 h
    exact ⟨canonical_text a, ofText?_eq_some_iff.2 (denotes_text a), a.value, hread.iff_eq,
      (denotes_text a).iff_eq⟩
  · obtain rfl := h.eq_mk
    exact ⟨(toString_eq_signedDigits n).symm, decide_eq_true_iff, head_text_eq_minus_iff _⟩
  · obtain rfl := ha.eq_mk
    obtain rfl := hb.eq_mk
    rw [text_inj, and_self, mk.injEq]

/-- Seven below zero, read with zeros in front and held in 64 bits, and a zero that was read with a
sign. -/
theorem text_canonical_zeros :
    let a : WideInteger := ⟨-7⟩
    let b : WideInteger := ⟨0⟩
    ofText? "-007" = some a ∧ Canonical a.text ∧ MadeOf a (-7) ∧ a.text = toString (-7 : Int) ∧
      a.isNegative = true ∧ MadeOf b 0 ∧ (b.isNegative = true ↔ (0 : Int) < 0) ∧ a.text ≠ b.text := by
  intro a b
  obtain ⟨-, -, hread, hmade, hequal⟩ := text_canonical
  have ha : ofText? "-007" = some a := by decide +kernel
  have hb : ofText? "-0" = some b := by decide +kernel
  have hseven : MadeOf a (-7) := .number .signed64 (by decide) (by decide)
  have hzero : MadeOf b 0 := .text (ofText?_eq_some_iff.1 hb) hb
  obtain ⟨htext, hnegative, -⟩ := hmade a (-7) hseven
  refine ⟨ha, (hread "-007" a ha).1, hseven, htext, hnegative.2 (by decide), hzero,
    (hmade b 0 hzero).2.1, fun h => ?_⟩
  exact absurd ((hequal a b (-7) 0 hseven hzero).2.1 h) (by decide)

end WideInteger

end DocWire
