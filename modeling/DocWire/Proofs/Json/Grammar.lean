import DocWire.Json.Reader

/-!
# The grammar of JSON

JSON as a relation between a text, the value at its front and the text behind it. Members keep
their order and may share a name, numbers keep their text, and containers nest without limit. Space
is passed over after every sign that structures a text. Main statement: `Reads.unique`, a text reads
as one value at most.
-/
set_option autoImplicit false

namespace DocWire.Json
namespace Grammar

/-- The characters between tokens. -/
def isGap (c : Char) : Bool := c = ' ' || c = '\n' || c = '\t' || c = '\r'

/-- A text without the space at its front. -/
def trim (cs : List Char) : List Char := cs.dropWhile isGap

/-! ## Numbers -/

def Digits (cs : List Char) : Prop := cs ≠ [] ∧ ∀ c ∈ cs, isDigit c = true

/-- One zero, or digits that do not start with one. -/
def Whole (cs : List Char) : Prop := Digits cs ∧ (cs.head? = some '0' → cs = ['0'])

inductive Point : List Char → Prop
  | none : Point []
  | some {ds : List Char} (h : Digits ds) : Point ('.' :: ds)

inductive Power : List Char → Prop
  | none : Power []
  | some {mark : Char} {sign ds : List Char} (hm : mark = 'e' ∨ mark = 'E')
      (hs : sign = [] ∨ sign = ['+'] ∨ sign = ['-']) (hd : Digits ds) :
      Power (mark :: (sign ++ ds))

/-- A number without its sign. -/
inductive Magnitude : List Char → Prop
  | mk {whole point power : List Char} (hw : Whole whole) (hp : Point point) (he : Power power) :
      Magnitude (whole ++ (point ++ power))

inductive Number : List Char → Prop
  | plus {cs : List Char} (h : Magnitude cs) : Number cs
  | minus {cs : List Char} (h : Magnitude cs) : Number ('-' :: cs)

/-- The characters of which numbers consist. -/
def isNumberChar (c : Char) : Bool :=
  isDigit c || c = '.' || c = 'e' || c = 'E' || c = '+' || c = '-'

/-- A number extends as far as it can: what follows does not continue it. -/
def NumberEnds (rest : List Char) : Prop := ∀ c ∈ rest.head?, isNumberChar c = false

/-! ## Strings -/

def isLeading (n : Nat) : Prop := 0xD800 ≤ n ∧ n ≤ 0xDBFF

def isTrailing (n : Nat) : Prop := 0xDC00 ≤ n ∧ n ≤ 0xDFFF

/-- The characters of a string, from behind its opening quote. -/
inductive Body : List Char → List Char → List Char → Prop
  | close {rest : List Char} : Body ('"' :: rest) [] rest
  | plain {c : Char} {cs s rest : List Char} (hc : isControl c = false) (hq : c ≠ '"')
      (hb : c ≠ '\\') (h : Body cs s rest) : Body (c :: cs) (c :: s) rest
  | letter {l c : Char} {cs s rest : List Char} (hl : letterEscape? l = some c)
      (h : Body cs s rest) : Body ('\\' :: l :: cs) (c :: s) rest
  | code {a b c d : Char} {n : Nat} {cs s rest : List Char} (hn : ofHex? [a, b, c, d] = some n)
      (hl : ¬ isLeading n) (ht : ¬ isTrailing n) (h : Body cs s rest) :
      Body ('\\' :: 'u' :: a :: b :: c :: d :: cs) (Char.ofNat n :: s) rest
  | pair {a b c d e f g i : Char} {n m : Nat} {cs s rest : List Char}
      (hn : ofHex? [a, b, c, d] = some n) (hl : isLeading n)
      (hm : ofHex? [e, f, g, i] = some m) (ht : isTrailing m) (h : Body cs s rest) :
      Body ('\\' :: 'u' :: a :: b :: c :: d :: '\\' :: 'u' :: e :: f :: g :: i :: cs)
        (Char.ofNat (0x10000 + (n - 0xD800) * 0x400 + (m - 0xDC00)) :: s) rest

/-! ## Values -/

mutual
inductive Value : List Char → Json → List Char → Prop
  | null {rest : List Char} : Value ('n' :: 'u' :: 'l' :: 'l' :: rest) .null rest
  | yes {rest : List Char} : Value ('t' :: 'r' :: 'u' :: 'e' :: rest) (.bool true) rest
  | no {rest : List Char} : Value ('f' :: 'a' :: 'l' :: 's' :: 'e' :: rest) (.bool false) rest
  | number {cs text rest : List Char} (h : Number text) (hr : NumberEnds rest)
      (hcs : cs = text ++ rest) : Value cs (.number (String.ofList text)) rest
  | string {cs s rest : List Char} (h : Body cs s rest) :
      Value ('"' :: cs) (.string (String.ofList s)) rest
  | array {cs rest : List Char} {items : List Json} (h : Items (trim cs) items rest) :
      Value ('[' :: cs) (.array items) rest
  | object {cs rest : List Char} {members : Entries Json} (h : Members (trim cs) members rest) :
      Value ('{' :: cs) (.object members) rest

/-- The items of an array, from behind its bracket. -/
inductive Items : List Char → List Json → List Char → Prop
  | none {rest : List Char} : Items (']' :: rest) [] rest
  | some {cs mid rest : List Char} {item : Json} {items : List Json} (h : Value cs item mid)
      (hm : MoreItems (trim mid) items rest) : Items cs (item :: items) rest

/-- The items of an array, from behind one of them. -/
inductive MoreItems : List Char → List Json → List Char → Prop
  | close {rest : List Char} : MoreItems (']' :: rest) [] rest
  | next {cs mid rest : List Char} {item : Json} {items : List Json} (h : Value (trim cs) item mid)
      (hm : MoreItems (trim mid) items rest) : MoreItems (',' :: cs) (item :: items) rest

/-- The members of an object, from behind its brace. -/
inductive Members : List Char → Entries Json → List Char → Prop
  | none {rest : List Char} : Members ('}' :: rest) [] rest
  | some {cs mid rest : List Char} {member : String × Json} {members : Entries Json}
      (h : Member cs member mid) (hm : MoreMembers (trim mid) members rest) :
      Members cs (member :: members) rest

/-- The members of an object, from behind one of them. -/
inductive MoreMembers : List Char → Entries Json → List Char → Prop
  | close {rest : List Char} : MoreMembers ('}' :: rest) [] rest
  | next {cs mid rest : List Char} {member : String × Json} {members : Entries Json}
      (h : Member (trim cs) member mid) (hm : MoreMembers (trim mid) members rest) :
      MoreMembers (',' :: cs) (member :: members) rest

inductive Member : List Char → String × Json → List Char → Prop
  | mk {cs s mid cs' rest : List Char} {value : Json} (hn : Body cs s mid)
      (hc : trim mid = ':' :: cs') (hv : Value (trim cs') value rest) :
      Member ('"' :: cs) (String.ofList s, value) rest
end

end Grammar

/-- A text is a value, with nothing but space around it. -/
def Reads (text : String) (json : Json) : Prop :=
  ∃ rest, Grammar.Value (Grammar.trim text.toList) json rest ∧ Grammar.trim rest = []

namespace Grammar

/-! ## Uniqueness -/

theorem isNumberChar_of_digits {cs : List Char} (h : Digits cs) : ∀ c ∈ cs, isNumberChar c = true := by
  intro c hc
  simp [isNumberChar, h.2 c hc]

theorem isNumberChar_of_point {cs : List Char} (h : Point cs) : ∀ c ∈ cs, isNumberChar c = true := by
  cases h with
  | none => simp
  | some hd =>
    intro c hc
    rcases List.mem_cons.1 hc with rfl | hc
    · rfl
    · exact isNumberChar_of_digits hd c hc

theorem isNumberChar_of_power {cs : List Char} (h : Power cs) : ∀ c ∈ cs, isNumberChar c = true := by
  cases h with
  | none => simp
  | some hm hs hd =>
    intro c hc
    rcases List.mem_cons.1 hc with rfl | hc
    · rcases hm with rfl | rfl <;> rfl
    · rcases List.mem_append.1 hc with hc | hc
      · rcases hs with rfl | rfl | rfl
        · simp at hc
        · rw [List.mem_singleton] at hc
          subst hc
          rfl
        · rw [List.mem_singleton] at hc
          subst hc
          rfl
      · exact isNumberChar_of_digits hd c hc

theorem Magnitude.isNumberChar {cs : List Char} (h : Magnitude cs) :
    ∀ c ∈ cs, Grammar.isNumberChar c = true := by
  cases h with
  | mk hw hp he =>
    intro c hc
    rcases List.mem_append.1 hc with hc | hc
    · exact isNumberChar_of_digits hw.1 c hc
    · rcases List.mem_append.1 hc with hc | hc
      · exact isNumberChar_of_point hp c hc
      · exact isNumberChar_of_power he c hc

theorem Number.isNumberChar {cs : List Char} (h : Number cs) :
    ∀ c ∈ cs, Grammar.isNumberChar c = true := by
  cases h with
  | plus h => exact h.isNumberChar
  | minus h =>
    intro c hc
    rcases List.mem_cons.1 hc with rfl | hc
    · rfl
    · exact h.isNumberChar c hc

/-- What a number starts with. -/
theorem Number.head {cs : List Char} (h : Number cs) :
    ∃ c tail, cs = c :: tail ∧ (c = '-' ∨ isDigit c = true) := by
  cases h with
  | plus h =>
    cases h with
    | @mk whole point power hw hp he =>
      cases whole with
      | nil => exact absurd rfl hw.1.1
      | cons c tail =>
        exact ⟨c, tail ++ (point ++ power), rfl, .inr (hw.1.2 c (List.mem_cons_self ..))⟩
  | minus h => exact ⟨'-', _, rfl, .inl rfl⟩

theorem takeWhile_append_of_ends {cs rest : List Char} (h : ∀ c ∈ cs, isNumberChar c = true)
    (hr : NumberEnds rest) : (cs ++ rest).takeWhile isNumberChar = cs := by
  rw [List.takeWhile_append_of_pos h]
  cases rest with
  | nil => simp
  | cons c rest => simp [hr c rfl]

theorem Number.unique {cs cs' rest rest' : List Char} (h : Number cs) (hr : NumberEnds rest)
    (h' : Number cs') (hr' : NumberEnds rest') (he : cs ++ rest = cs' ++ rest') :
    cs = cs' ∧ rest = rest' := by
  have hcs : cs = cs' := by
    have h1 := takeWhile_append_of_ends h.isNumberChar hr
    have h2 := takeWhile_append_of_ends h'.isNumberChar hr'
    rw [he] at h1
    exact h1.symm.trans h2
  subst hcs
  exact ⟨rfl, List.append_cancel_left he⟩

theorem letterEscape?_u : letterEscape? 'u' = none := rfl

/-- A leading surrogate is no trailing one, so a code is read as one character or as half of one. -/
theorem Body.unique {cs s s' rest rest' : List Char} (h : Body cs s rest) (h' : Body cs s' rest') :
    s = s' ∧ rest = rest' := by
  induction h generalizing s' rest' with
  | close =>
    cases h' with
    | close => exact ⟨rfl, rfl⟩
    | plain hc hq hb h' => exact absurd rfl hq
  | plain hc hq hb h ih =>
    cases h' with
    | close => exact absurd rfl hq
    | plain hc' hq' hb' h' =>
      obtain ⟨rfl, rfl⟩ := ih h'
      exact ⟨rfl, rfl⟩
    | letter hl h' => exact absurd rfl hb
    | code hn hl ht h' => exact absurd rfl hb
    | pair hn hl hm ht h' => exact absurd rfl hb
  | letter hl h ih =>
    cases h' with
    | plain hc hq hb h' => exact absurd rfl hb
    | letter hl' h' =>
      obtain ⟨rfl, rfl⟩ := ih h'
      rw [hl, Option.some.injEq] at hl'
      exact ⟨by rw [hl'], rfl⟩
    | code hn hl' ht h' => simp [letterEscape?_u] at hl
    | pair hn hl' hm ht h' => simp [letterEscape?_u] at hl
  | code hn hl ht h ih =>
    cases h' with
    | plain hc hq hb h' => exact absurd rfl hb
    | letter hl' h' => simp [letterEscape?_u] at hl'
    | code hn' hl' ht' h' =>
      obtain ⟨rfl, rfl⟩ := ih h'
      rw [hn, Option.some.injEq] at hn'
      exact ⟨by rw [hn'], rfl⟩
    | pair hn' hl' hm ht' h' =>
      rw [hn, Option.some.injEq] at hn'
      exact absurd (hn' ▸ hl') hl
  | pair hn hl hm ht h ih =>
    cases h' with
    | plain hc hq hb h' => exact absurd rfl hb
    | letter hl' h' => simp [letterEscape?_u] at hl'
    | code hn' hl' ht' h' =>
      rw [hn, Option.some.injEq] at hn'
      exact absurd (hn' ▸ hl) hl'
    | pair hn' hl' hm' ht' h' =>
      obtain ⟨rfl, rfl⟩ := ih h'
      rw [hn, Option.some.injEq] at hn'
      rw [hm, Option.some.injEq] at hm'
      exact ⟨by rw [hn', hm'], rfl⟩

/-- The sign of a value that is no number does not start a number. -/
theorem Number.ne_cons {c : Char} {cs text rest : List Char} (h : Number text)
    (hc : c ≠ '-' ∧ isDigit c = false) : c :: cs ≠ text ++ rest := by
  intro he
  obtain ⟨d, tail, rfl, hd⟩ := h.head
  obtain ⟨rfl, -⟩ := List.cons.inj he
  rcases hd with rfl | hd
  · exact hc.1 rfl
  · exact Bool.false_ne_true (hc.2.symm.trans hd)

/-- No value starts with the sign that closes a container. -/
theorem Value.ne_close {c : Char} {cs rest : List Char} {json : Json} (hc : c = ']' ∨ c = '}')
    (h : Value (c :: cs) json rest) : False := by
  generalize ht : c :: cs = text at h
  have hnum : c ≠ '-' ∧ isDigit c = false := by
    rcases hc with rfl | rfl <;> exact ⟨by decide, rfl⟩
  cases h with
  | number h hr hcs => exact h.ne_cons hnum (ht.trans hcs)
  | null | yes | no | string _ | array _ | object _ =>
    obtain ⟨rfl, -⟩ := List.cons.inj ht
    exact absurd hc (by decide)

mutual
theorem Value.unique {cs rest rest' : List Char} {json json' : Json} (h : Value cs json rest)
    (h' : Value cs json' rest') : json = json' ∧ rest = rest' := by
  -- The first character tells the kinds apart, save that a number has no one first character.
  cases h with
  | null =>
    cases h' with
    | null => exact ⟨rfl, rfl⟩
    | number h' hr hcs => exact absurd hcs (h'.ne_cons (by decide))
  | yes =>
    cases h' with
    | yes => exact ⟨rfl, rfl⟩
    | number h' hr hcs => exact absurd hcs (h'.ne_cons (by decide))
  | no =>
    cases h' with
    | no => exact ⟨rfl, rfl⟩
    | number h' hr hcs => exact absurd hcs (h'.ne_cons (by decide))
  | number h hr hcs =>
    cases h' with
    | number h' hr' hcs' =>
      obtain ⟨rfl, rfl⟩ := h.unique hr h' hr' (hcs.symm.trans hcs')
      exact ⟨rfl, rfl⟩
    | null | yes | no | string _ | array _ | object _ =>
      exact absurd hcs (h.ne_cons (by decide))
  | string h =>
    cases h' with
    | string h' =>
      obtain ⟨rfl, rfl⟩ := h.unique h'
      exact ⟨rfl, rfl⟩
    | number h' hr hcs => exact absurd hcs (h'.ne_cons (by decide))
  | array h =>
    cases h' with
    | array h' =>
      obtain ⟨rfl, rfl⟩ := h.unique h'
      exact ⟨rfl, rfl⟩
    | number h' hr hcs => exact absurd hcs (h'.ne_cons (by decide))
  | object h =>
    cases h' with
    | object h' =>
      obtain ⟨rfl, rfl⟩ := h.unique h'
      exact ⟨rfl, rfl⟩
    | number h' hr hcs => exact absurd hcs (h'.ne_cons (by decide))

theorem Items.unique {cs rest rest' : List Char} {items items' : List Json} (h : Items cs items rest)
    (h' : Items cs items' rest') : items = items' ∧ rest = rest' := by
  cases h with
  | none =>
    cases h' with
    | none => exact ⟨rfl, rfl⟩
    | some h' hm' => exact (h'.ne_close (.inl rfl)).elim
  | some h hm =>
    cases h' with
    | none => exact (h.ne_close (.inl rfl)).elim
    | some h' hm' =>
      obtain ⟨rfl, rfl⟩ := h.unique h'
      obtain ⟨rfl, rfl⟩ := hm.unique hm'
      exact ⟨rfl, rfl⟩

theorem MoreItems.unique {cs rest rest' : List Char} {items items' : List Json}
    (h : MoreItems cs items rest) (h' : MoreItems cs items' rest') :
    items = items' ∧ rest = rest' := by
  cases h with
  | close =>
    cases h'
    exact ⟨rfl, rfl⟩
  | next h hm =>
    cases h' with
    | next h' hm' =>
      obtain ⟨rfl, rfl⟩ := h.unique h'
      obtain ⟨rfl, rfl⟩ := hm.unique hm'
      exact ⟨rfl, rfl⟩

theorem Members.unique {cs rest rest' : List Char} {members members' : Entries Json}
    (h : Members cs members rest) (h' : Members cs members' rest') :
    members = members' ∧ rest = rest' := by
  cases h with
  | none =>
    cases h' with
    | none => exact ⟨rfl, rfl⟩
    | some h' hm' => cases h'
  | some h hm =>
    cases h' with
    | none => cases h
    | some h' hm' =>
      obtain ⟨rfl, rfl⟩ := h.unique h'
      obtain ⟨rfl, rfl⟩ := hm.unique hm'
      exact ⟨rfl, rfl⟩

theorem MoreMembers.unique {cs rest rest' : List Char} {members members' : Entries Json}
    (h : MoreMembers cs members rest) (h' : MoreMembers cs members' rest') :
    members = members' ∧ rest = rest' := by
  cases h with
  | close =>
    cases h'
    exact ⟨rfl, rfl⟩
  | next h hm =>
    cases h' with
    | next h' hm' =>
      obtain ⟨rfl, rfl⟩ := h.unique h'
      obtain ⟨rfl, rfl⟩ := hm.unique hm'
      exact ⟨rfl, rfl⟩

theorem Member.unique {cs rest rest' : List Char} {member member' : String × Json}
    (h : Member cs member rest) (h' : Member cs member' rest') :
    member = member' ∧ rest = rest' := by
  cases h with
  | mk hn hc hv =>
    cases h' with
    | mk hn' hc' hv' =>
      obtain ⟨rfl, rfl⟩ := hn.unique hn'
      obtain ⟨-, rfl⟩ := List.cons.inj (hc.symm.trans hc')
      obtain ⟨rfl, rfl⟩ := hv.unique hv'
      exact ⟨rfl, rfl⟩
end

end Grammar

/-- A text reads as one value at most. -/
theorem Reads.unique {text : String} {json json' : Json} (h : Reads text json)
    (h' : Reads text json') : json = json' := by
  obtain ⟨rest, hv, -⟩ := h
  obtain ⟨rest', hv', -⟩ := h'
  exact (hv.unique hv').1

theorem Reads.exists_iff {text : String} {json : Json} (h : Reads text json) (P : Json → Prop) :
    (∃ other, Reads text other ∧ P other) ↔ P json := by
  constructor
  · rintro ⟨other, ho, hp⟩
    rwa [h.unique ho]
  · exact fun hp => ⟨json, h, hp⟩

end DocWire.Json
