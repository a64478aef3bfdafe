import Mathlib.Data.List.DropRight
import DocWire.Json.Reader
import DocWire.Proofs.Json.Wrapped
import DocWire.Proofs.Results

/-!
# The reader reads what the grammar allows

Where the grammar reads a value, the reader does as well, as long as the containers nest within its
limit and wrapped numbers come out of their wrappings. What it hands on is `Json.kept`: powers of ten
have a mark and a sign, and of members of one name the last value stands at the place of the first. Main
statement: `ofText_of_reads`.
-/
set_option autoImplicit false

namespace DocWire.Json

/-- A power of ten behind its mark, with a sign. -/
def keptPower : List Char → List Char
  | '-' :: ds => '-' :: ds
  | '+' :: ds => '+' :: ds
  | ds => '+' :: ds

/-- A number's text as the reader keeps it. -/
def keptNumber : List Char → List Char
  | [] => []
  | c :: cs => if c = 'e' ∨ c = 'E' then 'e' :: keptPower cs else c :: keptNumber cs

mutual
/-- What the reader keeps of a value. -/
def kept : Json → Json
  | null => null
  | bool b => bool b
  | number text => number (String.ofList (keptNumber text.toList))
  | string s => string s
  | array items => array (keptItems items)
  | object members => object (Entries.ofList (keptMembers members))

def keptItems : List Json → List Json
  | [] => []
  | item :: rest => kept item :: keptItems rest

def keptMembers : List (String × Json) → List (String × Json)
  | [] => []
  | (name, value) :: rest => (name, kept value) :: keptMembers rest
end

namespace Grammar

/-! ## Space -/

theorem skipSpace_map (cs : List Char) : skipSpace (cs.map some) = (trim cs).map some := by
  have hgap : (fun c => isSpace (some c)) = isGap := by
    funext c
    simp [isSpace, isGap]
  rw [skipSpace, List.dropWhile_map, trim, ← hgap]
  rfl

theorem trim_trim (cs : List Char) : trim (trim cs) = trim cs := List.dropWhile_idempotent _ _

theorem length_trim_le (cs : List Char) : (trim cs).length ≤ cs.length :=
  (List.dropWhile_sublist _).length_le

/-! ## Numbers -/

/-- What follows does not go on with digits. -/
def DigitsEnd (rest : List Char) : Prop := ∀ c ∈ rest.head?, isDigit c = false

theorem NumberEnds.digitsEnd {rest : List Char} (h : NumberEnds rest) : DigitsEnd rest := by
  intro c hc
  have hn := h c hc
  simp only [isNumberChar, Bool.or_eq_false_iff] at hn
  exact hn.1.1.1.1.1

theorem takeWhile_digits {ds rest : List Char} (h : ∀ c ∈ ds, isDigit c = true)
    (hr : DigitsEnd rest) : (ds ++ rest).takeWhile isDigit = ds := by
  rw [List.takeWhile_append_of_pos h]
  cases rest with
  | nil => simp
  | cons c rest => simp [hr c rfl]

theorem dropWhile_digits {ds rest : List Char} (h : ∀ c ∈ ds, isDigit c = true)
    (hr : DigitsEnd rest) : (ds ++ rest).dropWhile isDigit = rest := by
  rw [List.dropWhile_append_of_pos h]
  cases rest with
  | nil => rfl
  | cons c rest => simp [hr c rfl]

theorem someDigits_map {ds rest : List Char} (h : Digits ds) (hr : DigitsEnd rest) :
    someDigits ((ds ++ rest).map some) = .ok (ds, rest.map some) := by
  have hrun : digitRun ((ds ++ rest).map some) = (ds, rest.map some) := by
    have htake := takeWhile_digits h.2 hr
    have hdrop := dropWhile_digits h.2 hr
    unfold digitRun
    rw [List.takeWhile_map, List.dropWhile_map, List.filterMap_map]
    change (List.filterMap some ((ds ++ rest).takeWhile isDigit),
      ((ds ++ rest).dropWhile isDigit).map some) = _
    rw [htake, hdrop, List.filterMap_some]
  obtain ⟨c, tail, rfl⟩ := List.exists_cons_of_ne_nil h.1
  unfold someDigits
  rw [hrun]

theorem wholePart_map {ds rest : List Char} (h : Whole ds) (hr : DigitsEnd rest) :
    wholePart ((ds ++ rest).map some) = .ok (ds, rest.map some) := by
  unfold wholePart
  rw [someDigits_map h.1 hr, bind_ok]
  simp only
  rw [if_neg]
  rintro ⟨hz, hl⟩
  rw [h.2 hz] at hl
  exact Nat.lt_irrefl _ hl

theorem digitsEnd_cons {c : Char} (cs : List Char) (h : isDigit c = false) : DigitsEnd (c :: cs) := by
  intro d hd
  cases hd
  exact h

theorem digitsEnd_power {cs rest : List Char} (h : Power cs) (hr : NumberEnds rest) :
    DigitsEnd (cs ++ rest) := by
  cases h with
  | none => exact hr.digitsEnd
  | some hm hs hd =>
    refine digitsEnd_cons _ ?_
    rcases hm with rfl | rfl <;> rfl

theorem digitsEnd_point {cs power rest : List Char} (h : Point cs) (he : Power power)
    (hr : NumberEnds rest) : DigitsEnd (cs ++ (power ++ rest)) := by
  cases h with
  | none =>
    rw [List.nil_append]
    exact digitsEnd_power he hr
  | some hd => exact digitsEnd_cons _ rfl

theorem head_power_ne_point {cs rest : List Char} (h : Power cs) (hr : NumberEnds rest)
    (tail : List Char) : cs ++ rest ≠ '.' :: tail := by
  intro he
  cases h with
  | none =>
    rw [List.nil_append] at he
    have hn := hr '.' (by rw [he]; rfl)
    exact absurd hn (by decide)
  | some hm hs hd =>
    obtain ⟨rfl, -⟩ := List.cons.inj he
    exact absurd hm (by decide)

theorem pointPart_map {cs power rest : List Char} (h : Point cs) (he : Power power)
    (hr : NumberEnds rest) :
    pointPart ((cs ++ (power ++ rest)).map some) = .ok (cs, (power ++ rest).map some) := by
  cases h with
  | none =>
    have hne := head_power_ne_point he hr
    rw [List.nil_append]
    generalize power ++ rest = after at hne ⊢
    unfold pointPart
    split
    · rename_i c cs hc
      cases after with
      | nil => cases hc
      | cons d tail =>
        obtain ⟨hd, -⟩ := List.cons.inj hc
        obtain rfl := Option.some.inj hd
        exact absurd rfl (hne tail)
    · rfl
  | @some ds hd =>
    change (someDigits ((ds ++ (power ++ rest)).map some) >>= fun _ => _) = _
    rw [someDigits_map hd (digitsEnd_power he hr), bind_ok]

/-- Digits start with no sign. -/
theorem Digits.exists_cons {ds : List Char} (h : Digits ds) :
    ∃ d tail, ds = d :: tail ∧ d ≠ '+' ∧ d ≠ '-' := by
  obtain ⟨d, tail, rfl⟩ := List.exists_cons_of_ne_nil h.1
  have hdigit := h.2 d (List.mem_cons_self ..)
  refine ⟨d, tail, rfl, ?_, ?_⟩
  all_goals
    rintro rfl
    exact absurd hdigit (by decide)

theorem keptPower_digits {ds : List Char} (h : Digits ds) : keptPower ds = '+' :: ds := by
  obtain ⟨d, tail, rfl, hplus, hminus⟩ := h.exists_cons
  simp [keptPower, hplus, hminus]

theorem powerSign_map {sign ds : List Char} (rest : List Char)
    (hs : sign = [] ∨ sign = ['+'] ∨ sign = ['-']) (hd : Digits ds) :
    ∃ c, powerSign ((sign ++ (ds ++ rest)).map some) = (c, (ds ++ rest).map some) ∧
      keptPower (sign ++ ds) = c :: ds := by
  rcases hs with rfl | rfl | rfl
  · refine ⟨'+', ?_, keptPower_digits hd⟩
    obtain ⟨d, tail, rfl, hplus, hminus⟩ := hd.exists_cons
    simp [powerSign, hplus, hminus]
  · exact ⟨'+', rfl, rfl⟩
  · exact ⟨'-', rfl, rfl⟩

theorem powerPart_map {cs rest : List Char} (h : Power cs) (hr : NumberEnds rest) :
    powerPart ((cs ++ rest).map some) = .ok (keptNumber cs, rest.map some) := by
  cases h with
  | none =>
    cases rest with
    | nil => rfl
    | cons c rest =>
      have hn := hr c rfl
      have hmark : ¬ (c = 'e' ∨ c = 'E') := by
        rintro (rfl | rfl) <;> exact absurd hn (by decide)
      exact if_neg hmark
  | @some mark sign ds hm hs hd =>
    obtain ⟨c, hsign, hkept⟩ := powerSign_map rest hs hd
    have hdigits := someDigits_map hd hr.digitsEnd
    rw [keptNumber, if_pos hm, hkept, List.cons_append, List.append_assoc, List.map_cons]
    simp only [powerPart, if_pos hm, hsign, hdigits, bind_ok]

theorem ne_mark_of_isDigit {c : Char} (h : isDigit c = true) : c ≠ 'e' ∧ c ≠ 'E' := by
  constructor
  all_goals
    rintro rfl
    exact absurd h (by decide)

/-- Up to a power of ten a number is kept as it is. -/
theorem keptNumber_append {ds cs : List Char} (h : ∀ c ∈ ds, c ≠ 'e' ∧ c ≠ 'E') :
    keptNumber (ds ++ cs) = ds ++ keptNumber cs := by
  induction ds with
  | nil => rfl
  | cons c ds ih =>
    have hc := h c (List.mem_cons_self ..)
    have hmark : ¬ (c = 'e' ∨ c = 'E') := not_or.2 hc
    rw [List.cons_append, keptNumber, if_neg hmark,
      ih fun d hd => h d (List.mem_cons_of_mem c hd), List.cons_append]

theorem keptNumber_eq_self {cs : List Char} (h : ∀ c ∈ cs, c ≠ 'e' ∧ c ≠ 'E') :
    keptNumber cs = cs := by
  have hk : keptNumber (cs ++ []) = cs ++ keptNumber [] := keptNumber_append h
  rwa [keptNumber, List.append_nil] at hk

theorem keptNumber_magnitude {whole point power : List Char} (hw : Whole whole) (hp : Point point) :
    keptNumber (whole ++ (point ++ power)) = whole ++ point ++ keptNumber power := by
  have hpoint : ∀ c ∈ point, c ≠ 'e' ∧ c ≠ 'E' := by
    cases hp with
    | none => simp
    | some hd =>
      intro c hc
      rcases List.mem_cons.1 hc with rfl | hc
      · decide
      · exact ne_mark_of_isDigit (hd.2 c hc)
  rw [keptNumber_append fun c hc => ne_mark_of_isDigit (hw.1.2 c hc), keptNumber_append hpoint,
    List.append_assoc]

theorem magnitudeToken_map {cs rest : List Char} (h : Magnitude cs) (hr : NumberEnds rest) :
    magnitudeToken ((cs ++ rest).map some) = .ok (keptNumber cs, rest.map some) := by
  cases h with
  | @mk whole point power hw hp he =>
    rw [keptNumber_magnitude hw hp, List.append_assoc, List.append_assoc]
    unfold magnitudeToken
    rw [wholePart_map hw (digitsEnd_point hp he hr), bind_ok]
    simp only
    rw [pointPart_map hp he hr, bind_ok]
    simp only
    rw [powerPart_map he hr, bind_ok]

/-- A number without its sign starts with a digit. -/
theorem Magnitude.exists_cons {cs : List Char} (h : Magnitude cs) :
    ∃ c tail, cs = c :: tail ∧ isDigit c = true := by
  cases h with
  | @mk whole point power hw hp he =>
    obtain ⟨c, tail, rfl⟩ := List.exists_cons_of_ne_nil hw.1.1
    exact ⟨c, tail ++ (point ++ power), rfl, hw.1.2 c (List.mem_cons_self ..)⟩

theorem numberToken_map {cs rest : List Char} (h : Number cs) (hr : NumberEnds rest) :
    numberToken ((cs ++ rest).map some) = .ok (keptNumber cs, rest.map some) := by
  cases h with
  | plus h =>
    obtain ⟨c, tail, rfl, hc⟩ := h.exists_cons
    have hminus : c ≠ '-' := by
      rintro rfl
      exact absurd hc (by decide)
    rw [← magnitudeToken_map h hr]
    simp [numberToken, hminus]
  | @minus cs h =>
    change (magnitudeToken ((cs ++ rest).map some) >>= fun _ => _) = _
    rw [magnitudeToken_map h hr, bind_ok]
    rfl

/-! ## Strings -/

theorem Body.length_lt {cs s rest : List Char} (h : Body cs s rest) :
    s.length + rest.length < cs.length := by
  induction h with
  | close => simp
  | plain _ _ _ _ ih => simp only [List.length_cons]; omega
  | letter _ _ ih => simp only [List.length_cons]; omega
  | code _ _ _ _ ih => simp only [List.length_cons]; omega
  | pair _ _ _ _ _ ih => simp only [List.length_cons]; omega

theorem escape_letter {l c : Char} (cs : List Char) (h : letterEscape? l = some c) :
    escape ((l :: cs).map some) = .ok (c, cs.map some) := by
  have hu : l ≠ 'u' := by
    rintro rfl
    rw [letterEscape?_u] at h
    cases h
  simp [escape, h]

theorem escape_code {a b c d : Char} {n : Nat} (cs : List Char) (hn : ofHex? [a, b, c, d] = some n)
    (hl : ¬ isLeading n) (ht : ¬ isTrailing n) :
    escape (('u' :: a :: b :: c :: d :: cs).map some) = .ok (Char.ofNat n, cs.map some) := by
  change escapedCode (some a :: some b :: some c :: some d :: cs.map some) = _
  unfold isLeading at hl
  unfold isTrailing at ht
  simp only [escapedCode, codeUnit, hn, bind_ok, if_neg ht, if_neg hl]

theorem escape_pair {a b c d e f g i : Char} {n m : Nat} (cs : List Char)
    (hn : ofHex? [a, b, c, d] = some n) (hl : isLeading n) (hm : ofHex? [e, f, g, i] = some m)
    (ht : isTrailing m) :
    escape (('u' :: a :: b :: c :: d :: '\\' :: 'u' :: e :: f :: g :: i :: cs).map some) =
      .ok (Char.ofNat (0x10000 + (n - 0xD800) * 0x400 + (m - 0xDC00)), cs.map some) := by
  change escapedCode (some a :: some b :: some c :: some d :: some '\\' :: some 'u' :: some e ::
    some f :: some g :: some i :: cs.map some) = _
  unfold isLeading at hl
  unfold isTrailing at ht
  have hfirst : ¬ (0xDC00 ≤ n ∧ n ≤ 0xDFFF) := by omega
  simp only [escapedCode, codeUnit, hn, hm, bind_ok, if_neg hfirst, if_pos hl, if_pos ht]

theorem stringSymbols_map {cs s rest : List Char} (h : Body cs s rest) (steps : Nat)
    (hs : s.length < steps) :
    stringSymbols steps (cs.map some) = .ok (s.map some, rest.map some) := by
  induction h generalizing steps with
  | close =>
    obtain ⟨n, rfl⟩ : ∃ n, steps = n + 1 := ⟨steps - 1, by omega⟩
    rfl
  | @plain c cs s rest hc hq hb h ih =>
    obtain ⟨n, rfl⟩ : ∃ n, steps = n + 1 := ⟨steps - 1, by omega⟩
    have hrest := ih n (by rw [List.length_cons] at hs; omega)
    rw [List.map_cons]
    simp [stringSymbols, hc, hrest, bind_ok]
  | @letter l c cs s rest hl h ih =>
    obtain ⟨n, rfl⟩ : ∃ n, steps = n + 1 := ⟨steps - 1, by omega⟩
    have hrest := ih n (by rw [List.length_cons] at hs; omega)
    change (escape ((l :: cs).map some) >>= fun _ => _) = _
    rw [escape_letter cs hl, bind_ok]
    simp only
    rw [hrest, bind_ok]
    rfl
  | @code a b c d n cs s rest hn hl ht h ih =>
    obtain ⟨k, rfl⟩ : ∃ k, steps = k + 1 := ⟨steps - 1, by omega⟩
    have hrest := ih k (by rw [List.length_cons] at hs; omega)
    change (escape (('u' :: a :: b :: c :: d :: cs).map some) >>= fun _ => _) = _
    rw [escape_code cs hn hl ht, bind_ok]
    simp only
    rw [hrest, bind_ok]
    rfl
  | @pair a b c d e f g i n m cs s rest hn hl hm ht h ih =>
    obtain ⟨k, rfl⟩ : ∃ k, steps = k + 1 := ⟨steps - 1, by omega⟩
    have hrest := ih k (by rw [List.length_cons] at hs; omega)
    change (escape (('u' :: a :: b :: c :: d :: '\\' :: 'u' :: e :: f :: g :: i :: cs).map some) >>=
      fun _ => _) = _
    rw [escape_pair cs hn hl hm ht, bind_ok]
    simp only
    rw [hrest, bind_ok]
    rfl

theorem plain?_map (s : List Char) : plain? (s.map some) = some (String.ofList s) := by
  have hmap : (s.map some).mapM id = some s := by
    induction s with
    | nil => rfl
    | cons c s ih =>
      rw [List.map_cons, List.mapM_cons, ih]
      rfl
  rw [plain?, hmap]
  rfl

theorem stringBody_map {cs s rest : List Char} (h : Body cs s rest) (steps : Nat)
    (hs : s.length < steps) :
    stringBody steps (cs.map some) = .ok (String.ofList s, rest.map some) := by
  unfold stringBody
  rw [stringSymbols_map h steps hs, bind_ok]
  simp only
  rw [plain?_map]

/-! ## Values -/

/-- A value has a first character, and it closes no array. -/
theorem Value.exists_cons {cs rest : List Char} {json : Json} (h : Value cs json rest) :
    ∃ c tail, cs = c :: tail ∧ c ≠ ']' := by
  cases cs with
  | nil =>
    cases h with
    | number h hr hcs =>
      obtain ⟨c, tail, rfl, -⟩ := h.head
      cases hcs
  | cons c tail =>
    refine ⟨c, tail, rfl, ?_⟩
    rintro rfl
    exact h.ne_close (.inl rfl)

mutual
theorem Value.length_lt {cs rest : List Char} {json : Json} (h : Value cs json rest) :
    rest.length < cs.length := by
  cases h with
  | null | yes | no => simp only [List.length_cons]; omega
  | number h hr hcs =>
    obtain ⟨c, tail, rfl, -⟩ := h.head
    rw [hcs]
    simp only [List.cons_append, List.length_cons, List.length_append]
    omega
  | string h =>
    have hb := h.length_lt
    simp only [List.length_cons]
    omega
  | @array cs rest items h =>
    have hi := h.length_lt
    have ht := length_trim_le cs
    simp only [List.length_cons]
    omega
  | @object cs rest members h =>
    have hm := h.length_lt
    have ht := length_trim_le cs
    simp only [List.length_cons]
    omega

theorem Items.length_lt {cs rest : List Char} {items : List Json} (h : Items cs items rest) :
    rest.length < cs.length := by
  cases h with
  | none => exact Nat.lt_succ_self _
  | @some cs mid rest item items h hm =>
    have hv := h.length_lt
    have hi := hm.length_lt
    have ht := length_trim_le mid
    omega

theorem MoreItems.length_lt {cs rest : List Char} {items : List Json}
    (h : MoreItems cs items rest) : rest.length < cs.length := by
  cases h with
  | close => exact Nat.lt_succ_self _
  | @next cs mid rest item items h hm =>
    have hv := h.length_lt
    have hi := hm.length_lt
    have ht := length_trim_le mid
    have hc := length_trim_le cs
    simp only [List.length_cons]
    omega

theorem Members.length_lt {cs rest : List Char} {members : Entries Json}
    (h : Members cs members rest) : rest.length < cs.length := by
  cases h with
  | none => exact Nat.lt_succ_self _
  | @some cs mid rest member members h hm =>
    have hv := h.length_lt
    have hi := hm.length_lt
    have ht := length_trim_le mid
    omega

theorem MoreMembers.length_lt {cs rest : List Char} {members : Entries Json}
    (h : MoreMembers cs members rest) : rest.length < cs.length := by
  cases h with
  | close => exact Nat.lt_succ_self _
  | @next cs mid rest member members h hm =>
    have hv := h.length_lt
    have hi := hm.length_lt
    have ht := length_trim_le mid
    have hc := length_trim_le cs
    simp only [List.length_cons]
    omega

theorem Member.length_lt {cs rest : List Char} {member : String × Json}
    (h : Member cs member rest) : rest.length < cs.length := by
  cases h with
  | @mk cs s mid cs' rest value hn hc hv =>
    have hb := hn.length_lt
    have hl := hv.length_lt
    have ht := length_trim_le cs'
    have hm := length_trim_le mid
    rw [hc] at hm
    simp only [List.length_cons] at hm ⊢
    omega
end

/-- A reader of scalars reads them whatever may still nest. -/
theorem value_of_valueWith {steps depth : Nat} {symbols : List Symbol}
    {result : Except Fault (Json × List Symbol)}
    (h : ∀ array object, valueWith steps array object symbols = result) :
    value steps depth symbols = result := by
  cases depth with
  | zero => exact h _ _
  | succ depth => exact h _ _

theorem valueWith_number {steps : Nat} {text rest : List Char} {symbols : List Symbol}
    (array object : Reader Json) (h : Number text) (hr : NumberEnds rest)
    (hs : skipSpace symbols = (text ++ rest).map some) :
    valueWith steps array object symbols =
      .ok (.number (String.ofList (keptNumber text)), rest.map some) := by
  have htoken := numberToken_map h hr
  obtain ⟨c, tail, rfl, hc⟩ := h.head
  have hsign : some c = some '-' ∨ isDigitSymbol (some c) = true := hc.imp (congrArg some) id
  rw [List.cons_append, List.map_cons] at hs htoken
  -- Neither a digit nor the minus sign is the first sign of another kind of value.
  have hne : ∀ d, ¬ (d = '-' ∨ isDigit d = true) → c ≠ d := by
    rintro d hd rfl
    exact hd hc
  have hread : valueWith steps array object symbols =
      (if some c = some '-' ∨ isDigitSymbol (some c) then
        numberToken (some c :: (tail ++ rest).map some) >>= fun read =>
          .ok (.number (String.ofList read.1), read.2)
      else .error .malformed) := by
    simp [valueWith, hs, hne 'n' (by decide), hne 't' (by decide), hne 'f' (by decide),
      hne '"' (by decide), hne '[' (by decide), hne '\x7b' (by decide)]
  rw [hread, if_pos hsign, htoken, bind_ok]

/-! ## Steps of the loops -/

section
variable {α β : Type} {item : Reader α} {body : Reader α} {value : Reader β} {steps : Nat}
variable {symbols after rest tail : List Symbol} {first : α} {c : Char}

theorem items_eq_itemsFrom (hs : skipSpace symbols = some c :: tail) (hc : c ≠ ']') :
    items item steps symbols = itemsFrom item steps (some c :: tail) := by
  simp [items, hs, hc]

theorem itemsFrom_close (hf : item symbols = .ok (first, after))
    (hs : skipSpace after = some ']' :: rest) :
    itemsFrom item (steps + 1) symbols = .ok ([first], rest) := by
  simp [itemsFrom, hf, hs, bind_ok]

theorem itemsFrom_next {next : List Symbol} {list : List α} (hf : item symbols = .ok (first, after))
    (hs : skipSpace after = some ',' :: next) (hn : skipSpace next = some c :: tail) (hc : c ≠ ']')
    (hr : itemsFrom item steps (some c :: tail) = .ok (list, rest)) :
    itemsFrom item (steps + 1) symbols = .ok (first :: list, rest) := by
  simp [itemsFrom, hf, hs, hn, hc, hr, bind_ok]

theorem members_eq_membersFrom (hs : skipSpace symbols = some c :: tail) (hc : c ≠ '}') :
    members body value steps symbols = membersFrom body value steps (some c :: tail) := by
  simp [members, hs, hc]

theorem membersFrom_close {mid : List Symbol} {second : β}
    (hn : memberName body symbols = .ok (first, mid)) (hv : value mid = .ok (second, after))
    (hs : skipSpace after = some '}' :: rest) :
    membersFrom body value (steps + 1) symbols = .ok ([(first, second)], rest) := by
  simp [membersFrom, hn, hv, hs, bind_ok]

theorem membersFrom_next {mid next : List Symbol} {second : β} {list : List (α × β)}
    (hn : memberName body symbols = .ok (first, mid)) (hv : value mid = .ok (second, after))
    (hs : skipSpace after = some ',' :: next)
    (hr : membersFrom body value steps next = .ok (list, rest)) :
    membersFrom body value (steps + 1) symbols = .ok ((first, second) :: list, rest) := by
  simp [membersFrom, hn, hv, hs, hr, bind_ok]

theorem memberName_eq {mid next : List Symbol} (hq : skipSpace symbols = some '"' :: mid)
    (hb : body mid = .ok (first, after)) (hc : skipSpace after = some ':' :: next) :
    memberName body symbols = .ok (first, next) := by
  simp [memberName, nameQuote, colon, hq, hb, hc, bind_ok]
end

theorem memberName_map {cs s mid after : List Char} (hn : Body cs s mid)
    (hc : trim mid = ':' :: after) (steps : Nat) {symbols : List Symbol}
    (hs : ('"' :: cs).length < steps) (hsym : skipSpace symbols = ('"' :: cs).map some) :
    memberName (stringBody steps) symbols = .ok (String.ofList s, after.map some) := by
  have hl := hn.length_lt
  rw [List.length_cons] at hs
  have hbody := stringBody_map hn steps (by omega)
  have hcolon := skipSpace_map mid
  rw [hc] at hcolon
  exact memberName_eq hsym hbody hcolon

/-! ## Braces -/

theorem numberOf?_of_number {text : String} (h : Number text.toList) :
    numberOf? text = some (.number (String.ofList (keptNumber text.toList))) := by
  have ht := numberToken_map h (show NumberEnds [] by simp [NumberEnds])
  rw [List.append_nil, ← Symbol.ofText] at ht
  rw [numberOf?, ht]
  rfl

/-- A brace opens an object, if the first name is not the reserved one. -/
theorem braced_eq_plainObject {cs text rest : List Char} {list : Entries Json} (value : Reader Json)
    (h : Members text list rest) (ht : trim cs = text) (steps : Nat) (hs : text.length < steps)
    (hw : isWrapped list = false) :
    braced steps value (cs.map some) = plainObject steps value (cs.map some) := by
  have hsym := skipSpace_map cs
  rw [ht] at hsym
  cases h with
  | none =>
    have hname : memberName (stringBody steps) (cs.map some) = .error .malformed := by
      simp [memberName, nameQuote, hsym]
      rfl
    simp only [braced, hname]
  | some h hm =>
    cases h with
    | mk hn hc hv =>
      have hname := memberName_map hn hc steps hs hsym
      rw [isWrapped_cons, decide_eq_false_iff_not] at hw
      simp only [braced, hname, if_neg hw]

/-- A brace opens a number, where one is wrapped. -/
theorem braced_wrapped {cs text rest : List Char} {number : String} (value : Reader Json)
    (h : Members text [(numberName, .string number)] rest) (ht : trim cs = text)
    (hn : Number number.toList) (steps : Nat) (hs : text.length < steps) :
    braced steps value (cs.map some) =
      .ok (.number (String.ofList (keptNumber number.toList)), rest.map some) := by
  have hsym := skipSpace_map cs
  rw [ht] at hsym
  cases h with
  | @some _ mid _ _ _ h hm =>
    have hclose := skipSpace_map mid
    generalize trim mid = last at hm hclose
    cases hm
    generalize hmember : (numberName, Json.string number) = member at h
    cases h with
    | @mk cs s mid' cs' _ json hb hc hv =>
      obtain ⟨hs', rfl⟩ := Prod.mk.inj hmember
      have hname := memberName_map hb hc steps hs hsym
      have hl := hb.length_lt
      have hm' := length_trim_le mid'
      have hcs' := length_trim_le cs'
      rw [hc] at hm'
      rw [List.length_cons] at hs hm'
      have hquote := skipSpace_map cs'
      generalize trim cs' = behind at hv hquote hcs'
      cases hv with
      | @string cs'' s' _ hv =>
        have hl' := hv.length_lt
        rw [List.length_cons] at hcs'
        have hbody := stringBody_map hv steps (by omega)
        rw [← hs'] at hname
        simp [braced, hname, wrappedNumber, hquote, hbody, numberOf?_of_number hn, hclose, bind_ok]

/-! ## Reading by the grammar -/

mutual
theorem value_map {cs rest : List Char} {json : Json} (h : Value cs json rest) (steps depth : Nat)
    {symbols : List Symbol} (hs : cs.length < steps) (hd : json.depth ≤ depth)
    (hsym : skipSpace symbols = cs.map some) :
    ∀ plain, json.Unwraps plain → value steps depth symbols = .ok (plain.kept, rest.map some) := by
  -- The induction is on how the grammar reads the text. What is left of it bounds every loop.
  cases h with
  | null =>
    rintro _ ⟨⟩
    refine value_of_valueWith fun array object => ?_
    simp [valueWith, hsym, word, bind_ok, kept]
  | yes =>
    rintro _ ⟨⟩
    refine value_of_valueWith fun array object => ?_
    simp [valueWith, hsym, word, bind_ok, kept]
  | no =>
    rintro _ ⟨⟩
    refine value_of_valueWith fun array object => ?_
    simp [valueWith, hsym, word, bind_ok, kept]
  | @number cs text rest h hr hcs =>
    rintro _ ⟨⟩
    subst hcs
    rw [kept, String.toList_ofList]
    exact value_of_valueWith fun array object => valueWith_number array object h hr hsym
  | @string cs s rest h =>
    rintro _ ⟨⟩
    have hl := h.length_lt
    have hb := stringBody_map h steps (by rw [List.length_cons] at hs; omega)
    refine value_of_valueWith fun array object => ?_
    simp [valueWith, hsym, hb, bind_ok, kept]
  | @array cs rest list h =>
    rw [Json.depth] at hd
    obtain ⟨d, rfl⟩ : ∃ d, depth = d + 1 := ⟨depth - 1, by omega⟩
    have hlen := length_trim_le cs
    rw [List.length_cons] at hs
    have hi := items_map h rfl steps d (by omega) (by omega)
    have hw : value steps (d + 1) symbols = (items (value steps d) steps (cs.map some) >>= fun read =>
        .ok (.array read.1, read.2)) := by
      simp only [value, valueWith, hsym, List.map_cons]
    intro plain hu
    obtain ⟨others, ho, rfl⟩ := hu.of_array
    rw [hw, hi others ho, bind_ok, kept]
  | @object cs rest list h =>
    rw [Json.depth] at hd
    obtain ⟨d, rfl⟩ : ∃ d, depth = d + 1 := ⟨depth - 1, by omega⟩
    have hlen := length_trim_le cs
    rw [List.length_cons] at hs
    have hm := members_map h rfl steps d (by omega) (by omega)
    have hw : value steps (d + 1) symbols = braced steps (value steps d) (cs.map some) := by
      simp only [value, valueWith, hsym, List.map_cons]
    intro plain hu
    rcases hu.of_object with ⟨hplain, others, ho, rfl⟩ | ⟨number, hn, rfl, rfl⟩
    · have hb := braced_eq_plainObject (value steps d) h rfl steps (by omega) hplain
      rw [hw, hb, plainObject, hm others ho, bind_ok, kept]
    · rw [hw, braced_wrapped (value steps d) h rfl hn steps (by omega), kept]

theorem items_map {cs text rest : List Char} {list : List Json} (h : Items text list rest)
    (ht : trim cs = text) (steps depth : Nat) (hs : text.length < steps)
    (hd : itemsDepth list ≤ depth) :
    ∀ others, UnwrapsItems list others →
      items (value steps depth) steps (cs.map some) = .ok (keptItems others, rest.map some) := by
  have hsym := skipSpace_map cs
  have hback := skipSpace_map (trim cs)
  rw [trim_trim, ht] at hback
  rw [ht] at hsym
  cases h with
  | none =>
    rintro _ ⟨⟩
    simp [items, hsym, keptItems]
  | @some _ mid _ item list h hm =>
    rw [itemsDepth] at hd
    have hlen := h.length_lt
    have htrim := length_trim_le mid
    intro others hu
    obtain ⟨other, others, ho, hr, rfl⟩ := hu.of_cons
    have hfirst := value_map h steps depth hs (by omega) hback other ho
    have hmore := moreItems_map hm steps depth steps (by omega) (by omega) (by omega) rfl hfirst
    obtain ⟨c, tail, rfl, hclose⟩ := h.exists_cons
    rw [items_eq_itemsFrom hsym hclose]
    exact hmore others hr

theorem moreItems_map {cs rest : List Char} {list : List Json} (h : MoreItems cs list rest)
    (steps depth n : Nat) {symbols : List Symbol} {mid : List Char} {first : Json}
    (hs : cs.length < steps) (hn : cs.length ≤ n) (hd : itemsDepth list ≤ depth)
    (hmid : trim mid = cs) (hfirst : value steps depth symbols = .ok (first, mid.map some)) :
    ∀ others, UnwrapsItems list others →
      itemsFrom (value steps depth) n symbols = .ok (first :: keptItems others, rest.map some) := by
  have hsym := skipSpace_map mid
  rw [hmid] at hsym
  cases h with
  | close =>
    rintro _ ⟨⟩
    obtain ⟨n, rfl⟩ : ∃ k, n = k + 1 := ⟨n - 1, by rw [List.length_cons] at hn; omega⟩
    exact itemsFrom_close hfirst hsym
  | @next cs after _ item list h hm =>
    obtain ⟨n, rfl⟩ : ∃ k, n = k + 1 := ⟨n - 1, by rw [List.length_cons] at hn; omega⟩
    rw [itemsDepth] at hd
    rw [List.length_cons] at hs hn
    have hlen := h.length_lt
    have hcs := length_trim_le cs
    have htrim := length_trim_le after
    have hnext := skipSpace_map cs
    have hback := skipSpace_map (trim cs)
    rw [trim_trim] at hback
    intro others hu
    obtain ⟨other, others, ho, hr, rfl⟩ := hu.of_cons
    have hitem := value_map h steps depth (by omega) (by omega) hback other ho
    have hmore := moreItems_map hm steps depth n (by omega) (by omega) (by omega) rfl hitem others hr
    obtain ⟨c, tail, htext, hclose⟩ := h.exists_cons
    rw [htext, List.map_cons] at hmore hnext
    exact itemsFrom_next hfirst hsym hnext hclose hmore

theorem members_map {cs text rest : List Char} {list : Entries Json} (h : Members text list rest)
    (ht : trim cs = text) (steps depth : Nat) (hs : text.length < steps)
    (hd : membersDepth list ≤ depth) :
    ∀ others, UnwrapsMembers list others →
      members (stringBody steps) (value steps depth) steps (cs.map some) =
        .ok (keptMembers others, rest.map some) := by
  have hsym := skipSpace_map cs
  have hback := skipSpace_map (trim cs)
  rw [trim_trim, ht] at hback
  rw [ht] at hsym
  cases h with
  | none =>
    rintro _ ⟨⟩
    simp [members, hsym, keptMembers]
  | @some _ mid _ member list h hm =>
    obtain ⟨name, member⟩ := member
    rw [membersDepth] at hd
    have hlen := h.length_lt
    have htrim := length_trim_le mid
    have hdepth : member.depth ≤ depth := by omega
    intro others hu
    obtain ⟨other, others, ho, hr, rfl⟩ := hu.of_cons
    obtain ⟨after, hname, hvalue⟩ := member_map h steps depth hs hdepth hback other ho
    have hmore := moreMembers_map hm steps depth steps (by omega) (by omega) (by omega) rfl hname
      hvalue
    cases h
    rw [members_eq_membersFrom hsym (by decide)]
    exact hmore others hr

theorem moreMembers_map {cs rest : List Char} {list : Entries Json} (h : MoreMembers cs list rest)
    (steps depth n : Nat) {symbols after : List Symbol} {mid : List Char} {name : String}
    {first : Json} (hs : cs.length < steps) (hn : cs.length ≤ n) (hd : membersDepth list ≤ depth)
    (hmid : trim mid = cs) (hname : memberName (stringBody steps) symbols = .ok (name, after))
    (hfirst : value steps depth after = .ok (first, mid.map some)) :
    ∀ others, UnwrapsMembers list others →
      membersFrom (stringBody steps) (value steps depth) n symbols =
        .ok ((name, first) :: keptMembers others, rest.map some) := by
  have hsym := skipSpace_map mid
  rw [hmid] at hsym
  cases h with
  | close =>
    rintro _ ⟨⟩
    obtain ⟨n, rfl⟩ : ∃ k, n = k + 1 := ⟨n - 1, by rw [List.length_cons] at hn; omega⟩
    exact membersFrom_close hname hfirst hsym
  | @next cs behind _ member list h hm =>
    obtain ⟨n, rfl⟩ : ∃ k, n = k + 1 := ⟨n - 1, by rw [List.length_cons] at hn; omega⟩
    obtain ⟨second, member⟩ := member
    rw [membersDepth] at hd
    rw [List.length_cons] at hs hn
    have hlen := h.length_lt
    have hcs := length_trim_le cs
    have htrim := length_trim_le behind
    have hdepth : member.depth ≤ depth := by omega
    intro others hu
    obtain ⟨other, others, ho, hr, rfl⟩ := hu.of_cons
    obtain ⟨after', hother, hvalue⟩ :=
      member_map h steps depth (by omega) hdepth (skipSpace_map cs) other ho
    have hmore := moreMembers_map hm steps depth n (by omega) (by omega) (by omega) rfl hother
      hvalue
    exact membersFrom_next hname hfirst hsym (hmore others hr)

theorem member_map {cs rest : List Char} {member : String × Json} (h : Member cs member rest)
    (steps depth : Nat) {symbols : List Symbol} (hs : cs.length < steps)
    (hd : member.2.depth ≤ depth) (hsym : skipSpace symbols = cs.map some) :
    ∀ plain, member.2.Unwraps plain →
      ∃ after, memberName (stringBody steps) symbols = .ok (member.1, after) ∧
        value steps depth after = .ok (plain.kept, rest.map some) := by
  cases h with
  | @mk cs s mid cs' _ _ hn hc hv =>
    have hl := hn.length_lt
    have hm := length_trim_le mid
    have ht := length_trim_le cs'
    have hname := memberName_map hn hc steps hs hsym
    rw [hc] at hm
    rw [List.length_cons] at hs hm
    have hvalue := value_map hv steps depth (by omega) hd (skipSpace_map cs')
    exact fun plain hu => ⟨cs'.map some, hname, hvalue plain hu⟩
end

end Grammar

/-- A value of a text is read from it, if it does not nest too deep and can be unwrapped. -/
theorem ofSymbols_of_reads {text : String} {json plain : Json} {depth : Nat} (h : Reads text json)
    (hu : json.Unwraps plain) (hd : json.depth ≤ depth) :
    ofSymbols depth (Symbol.ofText text) = .ok plain.kept := by
  obtain ⟨rest, hv, hrest⟩ := h
  have hlen := Grammar.length_trim_le text.toList
  have hread := Grammar.value_map hv ((Symbol.ofText text).length + 1) depth
    (by rw [Symbol.ofText, List.length_map]; omega) hd (Grammar.skipSpace_map text.toList) plain hu
  have hend : skipSpace (rest.map some) = [] := by
    rw [Grammar.skipSpace_map, hrest]
    rfl
  unfold ofSymbols complete
  rw [← Symbol.ofText] at hread
  rw [hread, bind_ok]
  simp [hend]

theorem ofText_of_reads {text : String} {json plain : Json} (h : Reads text json)
    (hu : json.Unwraps plain) (hd : json.depth ≤ maxDepth) : ofText text = .ok plain.kept :=
  ofSymbols_of_reads h hu hd

theorem symbols_toUTF8 (text : String) : Symbol.ofBytes text.toUTF8 = Symbol.ofText text := by
  have h : String.fromUTF8? text.toUTF8 = some text := by
    simp only [String.fromUTF8?, String.toUTF8_eq_toByteArray, dif_pos text.isValidUTF8]
    rfl
  rw [Symbol.ofBytes, h]

/-- The bytes of a value are read as what the reader keeps of it. -/
theorem ofBytes_bytes {json plain : Json} (hl : json.Lexical) (hu : json.Unwraps plain)
    (hd : json.depth ≤ maxDepth) : ofBytes json.bytes = .ok plain.kept := by
  rw [ofBytes, bytes, symbols_toUTF8]
  exact ofSymbols_of_reads ((reads_text_iff hl json).2 rfl) hu hd

end DocWire.Json
