import DocWire.Proofs.Json.Reading

/-!
# The grammar allows what the reader reads

Whatever the reader makes of a text is what it keeps of a value that the grammar reads there, without
its wrappings, and the containers of this value nest within the reader's limit. A number stands in the
grammar only where the text does not go on with more of it, which the sign behind a value has to show.
Main statement: `ofText_eq_ok_iff_reads`, the grammar, the wrappings and the limit decide what is read.
-/
set_option autoImplicit false

namespace DocWire.Json
namespace Grammar
variable {cs : List Char} {rest : List Symbol}

/-! ## Numbers -/

theorem digitRun_map (cs : List Char) :
    digitRun (cs.map some) = (cs.takeWhile isDigit, (cs.dropWhile isDigit).map some) := by
  unfold digitRun
  rw [List.takeWhile_map, List.dropWhile_map, List.filterMap_map]
  change (List.filterMap some (cs.takeWhile isDigit), (cs.dropWhile isDigit).map some) = _
  rw [List.filterMap_some]

theorem exists_of_someDigits {ds : List Char} (h : someDigits (cs.map some) = .ok (ds, rest)) :
    ∃ after, cs = ds ++ after ∧ rest = after.map some ∧ Digits ds := by
  unfold someDigits at h
  rw [digitRun_map] at h
  cases ht : cs.takeWhile isDigit with
  | nil =>
    rw [ht] at h
    cases hd : (cs.dropWhile isDigit).map some <;> rw [hd] at h <;> cases h
  | cons c tail =>
    rw [ht] at h
    cases h
    refine ⟨cs.dropWhile isDigit, ?_, rfl, List.cons_ne_nil c tail, fun d hd => ?_⟩
    · rw [← ht, List.takeWhile_append_dropWhile]
    · rw [← ht] at hd
      exact List.mem_takeWhile_imp hd

theorem exists_of_wholePart {ds : List Char} (h : wholePart (cs.map some) = .ok (ds, rest)) :
    ∃ after, cs = ds ++ after ∧ rest = after.map some ∧ Whole ds := by
  obtain ⟨⟨ds', rest'⟩, hd, h⟩ := bind_eq_ok_iff.1 h
  simp only at h
  split at h
  · cases h
  · rename_i hz
    cases h
    obtain ⟨after, hcs, hr, hdigits⟩ := exists_of_someDigits hd
    refine ⟨after, hcs, hr, hdigits, fun hhead => ?_⟩
    obtain ⟨c, tail, rfl⟩ := List.exists_cons_of_ne_nil hdigits.1
    have hlen : ¬ 1 < (c :: tail).length := fun hl => hz ⟨hhead, hl⟩
    obtain rfl : tail = [] := List.length_eq_zero_iff.1 (by rw [List.length_cons] at hlen; omega)
    rw [Option.some.inj hhead]

theorem exists_of_pointPart {part : List Char} (h : pointPart (cs.map some) = .ok (part, rest)) :
    ∃ after, cs = part ++ after ∧ rest = after.map some ∧ Point part := by
  unfold pointPart at h
  split at h
  · rename_i tail heq
    obtain ⟨c, tail, rfl, hc, rfl⟩ := List.map_eq_cons_iff.1 heq
    cases hc
    obtain ⟨⟨ds, rest'⟩, hd, h⟩ := bind_eq_ok_iff.1 h
    cases h
    obtain ⟨after, rfl, hr, hdigits⟩ := exists_of_someDigits hd
    exact ⟨after, rfl, hr, .some hdigits⟩
  · cases h
    exact ⟨cs, rfl, rfl, .none⟩

theorem exists_powerSign (cs : List Char) :
    ∃ c sign after, powerSign (cs.map some) = (c, after.map some) ∧ cs = sign ++ after ∧
      (sign = [] ∨ sign = ['+'] ∨ sign = ['-']) ∧
      ∀ ds, Digits ds → keptPower (sign ++ ds) = c :: ds := by
  unfold powerSign
  split
  · rename_i tail heq
    obtain ⟨c, tail, rfl, hc, rfl⟩ := List.map_eq_cons_iff.1 heq
    cases hc
    exact ⟨'-', ['-'], tail, rfl, rfl, .inr (.inr rfl), fun ds _ => rfl⟩
  · rename_i tail heq
    obtain ⟨c, tail, rfl, hc, rfl⟩ := List.map_eq_cons_iff.1 heq
    cases hc
    exact ⟨'+', ['+'], tail, rfl, rfl, .inr (.inl rfl), fun ds _ => rfl⟩
  · exact ⟨'+', [], cs, rfl, rfl, .inl rfl, fun ds hd => keptPower_digits hd⟩

theorem exists_of_powerPart {token : List Char} (h : powerPart (cs.map some) = .ok (token, rest)) :
    ∃ power after, cs = power ++ after ∧ rest = after.map some ∧ Power power ∧
      token = keptNumber power := by
  cases cs with
  | nil =>
    cases h
    exact ⟨[], [], rfl, rfl, .none, rfl⟩
  | cons c tail =>
    rw [List.map_cons] at h
    unfold powerPart at h
    simp only at h
    split at h
    · rename_i hm
      obtain ⟨c', sign, after, hsign, rfl, hs, hkept⟩ := exists_powerSign tail
      rw [hsign] at h
      obtain ⟨⟨ds, rest'⟩, hd, h⟩ := bind_eq_ok_iff.1 h
      cases h
      obtain ⟨after', rfl, hr, hdigits⟩ := exists_of_someDigits hd
      refine ⟨c :: (sign ++ ds), after', ?_, hr, .some hm hs hdigits, ?_⟩
      · rw [List.cons_append, List.append_assoc]
      · rw [keptNumber, if_pos hm, hkept ds hdigits]
    · cases h
      exact ⟨[], c :: tail, rfl, rfl, .none, rfl⟩

theorem exists_of_magnitudeToken {token : List Char}
    (h : magnitudeToken (cs.map some) = .ok (token, rest)) :
    ∃ text after, cs = text ++ after ∧ rest = after.map some ∧ Magnitude text ∧
      token = keptNumber text := by
  obtain ⟨⟨whole, _⟩, hw, h⟩ := bind_eq_ok_iff.1 h
  obtain ⟨after, rfl, rfl, hwhole⟩ := exists_of_wholePart hw
  obtain ⟨⟨point, _⟩, hp, h⟩ := bind_eq_ok_iff.1 h
  obtain ⟨after, rfl, rfl, hpoint⟩ := exists_of_pointPart hp
  obtain ⟨⟨token, _⟩, he, h⟩ := bind_eq_ok_iff.1 h
  obtain ⟨power, after, rfl, rfl, hpower, rfl⟩ := exists_of_powerPart he
  cases h
  refine ⟨whole ++ (point ++ power), after, ?_, rfl, .mk hwhole hpoint hpower, ?_⟩
  · simp only [List.append_assoc]
  · exact (keptNumber_magnitude hwhole hpoint).symm

theorem exists_of_numberToken {token : List Char} (h : numberToken (cs.map some) = .ok (token, rest)) :
    ∃ text after, cs = text ++ after ∧ rest = after.map some ∧ Number text ∧
      token = keptNumber text := by
  unfold numberToken at h
  split at h
  · rename_i tail heq
    obtain ⟨c, tail, rfl, hc, rfl⟩ := List.map_eq_cons_iff.1 heq
    cases hc
    obtain ⟨⟨token, _⟩, ht, h⟩ := bind_eq_ok_iff.1 h
    obtain ⟨text, after, rfl, rfl, hm, rfl⟩ := exists_of_magnitudeToken ht
    cases h
    exact ⟨'-' :: text, after, rfl, rfl, .minus hm, rfl⟩
  · obtain ⟨text, after, hcs, hr, hm, ht⟩ := exists_of_magnitudeToken h
    exact ⟨text, after, hcs, hr, .plus hm, ht⟩

/-! ## Strings -/

theorem exists_of_word {w : List Char} {u : Unit} (h : word w (cs.map some) = .ok (u, rest)) :
    ∃ after, cs = w ++ after ∧ rest = after.map some := by
  induction w generalizing cs with
  | nil =>
    cases h
    exact ⟨cs, rfl, rfl⟩
  | cons c w ih =>
    cases cs with
    | nil => cases h
    | cons d tail =>
      rw [List.map_cons, word] at h
      split at h
      · rename_i hd
        cases hd
        obtain ⟨after, rfl, hr⟩ := ih h
        exact ⟨after, rfl, hr⟩
      · cases h

theorem exists_of_codeUnit {n : Nat} (h : codeUnit (cs.map some) = .ok (n, rest)) :
    ∃ a b c d after, cs = a :: b :: c :: d :: after ∧ rest = after.map some ∧
      ofHex? [a, b, c, d] = some n := by
  unfold codeUnit at h
  split at h
  · rename_i a b c d tail heq
    obtain ⟨a', tail, rfl, ha, heq⟩ := List.map_eq_cons_iff.1 heq
    obtain ⟨b', tail, rfl, hb, heq⟩ := List.map_eq_cons_iff.1 heq
    obtain ⟨c', tail, rfl, hc, heq⟩ := List.map_eq_cons_iff.1 heq
    obtain ⟨d', tail, rfl, hd, rfl⟩ := List.map_eq_cons_iff.1 heq
    cases ha
    cases hb
    cases hc
    cases hd
    split at h
    · rename_i m hm
      cases h
      exact ⟨_, _, _, _, _, rfl, rfl, hm⟩
    · cases h
  · split at h <;> cases h

/-- What is read of a code stands in a string before whatever the string goes on with. -/
theorem exists_of_escapedCode {c : Char} (h : escapedCode (cs.map some) = .ok (c, rest)) :
    ∃ after, rest = after.map some ∧
      ∀ s last, Body after s last → Body ('\\' :: 'u' :: cs) (c :: s) last := by
  obtain ⟨⟨n, _⟩, hunit, hread⟩ := bind_eq_ok_iff.1 h
  obtain ⟨a, b, d, e, tail, rfl, rfl, hn⟩ := exists_of_codeUnit hunit
  simp only at hread
  split at hread
  · cases hread
  · rename_i ht
    split at hread
    · rename_i hl
      split at hread
      · cases hread
      · cases hread
      · rename_i symbols heq
        obtain ⟨c1, tail, rfl, h1, heq⟩ := List.map_eq_cons_iff.1 heq
        obtain ⟨c2, tail, rfl, h2, rfl⟩ := List.map_eq_cons_iff.1 heq
        cases h1
        cases h2
        obtain ⟨⟨m, _⟩, hunit', hread'⟩ := bind_eq_ok_iff.1 hread
        obtain ⟨f, g, i, j, tail, rfl, rfl, hm⟩ := exists_of_codeUnit hunit'
        simp only at hread'
        split at hread'
        · rename_i htrail
          obtain ⟨rfl, rfl⟩ := Prod.mk.inj (Except.ok.inj hread')
          exact ⟨tail, rfl, fun s last hb => .pair hn hl hm htrail hb⟩
        · cases hread'
      · cases hread
    · rename_i hl
      cases hread
      exact ⟨tail, rfl, fun s last hb => .code hn hl ht hb⟩

theorem exists_of_escape {c : Char} (h : escape (cs.map some) = .ok (c, rest)) :
    ∃ after, rest = after.map some ∧
      ∀ s last, Body after s last → Body ('\\' :: cs) (c :: s) last := by
  unfold escape at h
  split at h
  · cases h
  · rename_i tail heq
    obtain ⟨c', tail, rfl, hc, rfl⟩ := List.map_eq_cons_iff.1 heq
    cases hc
    exact exists_of_escapedCode h
  · rename_i l tail _ heq
    obtain ⟨c', tail, rfl, hc, rfl⟩ := List.map_eq_cons_iff.1 heq
    cases hc
    split at h
    · rename_i d hd
      cases h
      exact ⟨tail, rfl, fun s last hb => .letter hd hb⟩
    · cases h
  · cases h

/-- A string whose symbols are all characters is read as the grammar reads it. -/
theorem exists_of_stringSymbols {steps : Nat} {symbols : List Symbol}
    (h : stringSymbols steps (cs.map some) = .ok (symbols, rest)) :
    ∃ s after, symbols = s.map some ∧ rest = after.map some ∧ Body cs s after := by
  induction steps generalizing cs symbols with
  | zero => cases h
  | succ steps ih =>
    cases cs with
    | nil => cases h
    | cons c cs =>
      rw [List.map_cons] at h
      by_cases hq : c = '"'
      · subst hq
        cases h
        exact ⟨[], cs, rfl, rfl, .close⟩
      by_cases hb : c = '\\'
      · subst hb
        obtain ⟨⟨d, _⟩, he, hread⟩ := bind_eq_ok_iff.1 h
        obtain ⟨after, rfl, hbody⟩ := exists_of_escape he
        obtain ⟨⟨more, _⟩, hm, hread'⟩ := bind_eq_ok_iff.1 hread
        cases hread'
        obtain ⟨s, after, rfl, hr, hs⟩ := ih hm
        exact ⟨d :: s, after, rfl, hr, hbody s after hs⟩
      · have hplain : stringSymbols (steps + 1) (some c :: cs.map some) =
            if isControl c then .error .malformed
            else stringSymbols steps (cs.map some) >>= fun read => .ok (some c :: read.1, read.2) := by
          simp [stringSymbols]
        rw [hplain] at h
        split at h
        · cases h
        · rename_i hc
          obtain ⟨⟨more, _⟩, hm, hread⟩ := bind_eq_ok_iff.1 h
          cases hread
          obtain ⟨s, after, rfl, hr, hs⟩ := ih hm
          exact ⟨c :: s, after, rfl, hr, .plain (Bool.eq_false_iff.2 hc) hq hb hs⟩

theorem exists_of_stringBody {steps : Nat} {text : String}
    (h : stringBody steps (cs.map some) = .ok (text, rest)) :
    ∃ s after, text = String.ofList s ∧ rest = after.map some ∧ Body cs s after := by
  obtain ⟨⟨symbols, _⟩, hs, hread⟩ := bind_eq_ok_iff.1 h
  obtain ⟨s, after, rfl, rfl, hbody⟩ := exists_of_stringSymbols hs
  simp only [plain?_map] at hread
  cases hread
  exact ⟨s, after, rfl, rfl, hbody⟩

/-! ## Values -/

/-- Space ends a number, so a number ends where the text behind the space does not go on with it. -/
theorem NumberEnds.of_trim (h : NumberEnds (trim cs)) : NumberEnds cs := by
  cases cs with
  | nil => exact h
  | cons c tail =>
    by_cases hc : isGap c = true
    · refine numberEnds_cons tail ?_
      simp only [isGap, Bool.or_eq_true, decide_eq_true_eq] at hc
      rcases hc with ((rfl | rfl) | rfl) | rfl <;> rfl
    · rwa [trim_of_not_gap tail (Bool.eq_false_iff.2 hc)] at h

theorem skipSpace_eq_cons {mid : List Char} {c : Char} {tail : List Symbol}
    (h : skipSpace (mid.map some) = some c :: tail) :
    ∃ after, trim mid = c :: after ∧ tail = after.map some := by
  rw [skipSpace_map] at h
  obtain ⟨d, after, hmid, hd, rfl⟩ := List.map_eq_cons_iff.1 h
  cases hd
  exact ⟨after, hmid, rfl⟩

/-- What a reader makes of the front of a text is what it keeps of a value that stands there and nests
within the limit. A number has to end there. -/
def Sound (limit : Nat) (reader : Reader Json) : Prop :=
  ∀ (cs : List Char) (json : Json) (rest : List Symbol), reader (cs.map some) = .ok (json, rest) →
    ∃ tree plain after, rest = after.map some ∧ tree.Unwraps plain ∧ json = plain.kept ∧
      tree.depth ≤ limit ∧ (NumberEnds after → Value (trim cs) tree after)

/-- The same of a reader behind a brace, where an object or a number stands. -/
def SoundBraced (limit : Nat) (reader : Reader Json) : Prop :=
  ∀ (cs : List Char) (json : Json) (rest : List Symbol), reader (cs.map some) = .ok (json, rest) →
    ∃ members plain after, rest = after.map some ∧ (Json.object members).Unwraps plain ∧
      json = plain.kept ∧ (Json.object members).depth ≤ limit ∧ Members (trim cs) members after

section
variable {limit steps : Nat} {item : Reader Json}

theorem exists_of_itemsFrom (hitem : Sound limit item) {list : List Json}
    (h : itemsFrom item steps (cs.map some) = .ok (list, rest)) :
    ∃ first more others mid after, rest = after.map some ∧ UnwrapsItems (first :: more) others ∧
      list = keptItems others ∧ itemsDepth (first :: more) ≤ limit ∧ Value (trim cs) first mid ∧
      MoreItems (trim mid) more after := by
  induction steps generalizing cs list rest with
  | zero => cases h
  | succ steps ih =>
    obtain ⟨⟨json, _⟩, hf, hread⟩ := bind_eq_ok_iff.1 h
    obtain ⟨first, plain, mid, rfl, hu, rfl, hd, hv⟩ := hitem cs json _ hf
    simp only at hread
    split at hread
    · cases hread
    · rename_i heq
      obtain ⟨after, hmid, rfl⟩ := skipSpace_eq_cons heq
      cases hread
      have hends : NumberEnds mid := .of_trim (hmid ▸ numberEnds_cons after rfl)
      refine ⟨first, [], [plain], mid, after, rfl, .cons hu .nil, rfl, ?_, hv hends, hmid ▸ .close⟩
      rw [itemsDepth, itemsDepth]
      omega
    · rename_i heq
      obtain ⟨next, hmid, rfl⟩ := skipSpace_eq_cons heq
      have hends : NumberEnds mid := .of_trim (hmid ▸ numberEnds_cons next rfl)
      split at hread
      · cases hread
      · cases hread
      · rw [skipSpace_map] at hread
        obtain ⟨⟨_, _⟩, hm, hread⟩ := bind_eq_ok_iff.1 hread
        obtain ⟨second, more, others, mid', after, rfl, hus, rfl, hdepth, hsecond, hmore⟩ := ih hm
        cases hread
        rw [trim_trim] at hsecond
        refine ⟨first, second :: more, plain :: others, mid, after, rfl, .cons hu hus, rfl, ?_,
          hv hends, hmid ▸ .next hsecond hmore⟩
        rw [itemsDepth]
        omega
    · cases hread

theorem exists_of_items (hitem : Sound limit item) {list : List Json}
    (h : items item steps (cs.map some) = .ok (list, rest)) :
    ∃ list' others after, rest = after.map some ∧ UnwrapsItems list' others ∧
      list = keptItems others ∧ itemsDepth list' ≤ limit ∧ Items (trim cs) list' after := by
  unfold items at h
  split at h
  · cases h
  · rename_i heq
    obtain ⟨after, hcs, rfl⟩ := skipSpace_eq_cons heq
    cases h
    exact ⟨[], [], after, rfl, .nil, rfl, Nat.zero_le _, hcs ▸ .none⟩
  · rw [skipSpace_map] at h
    obtain ⟨first, more, others, mid, after, hr, hu, hlist, hd, hfirst, hmore⟩ :=
      exists_of_itemsFrom hitem h
    rw [trim_trim] at hfirst
    exact ⟨first :: more, others, after, hr, hu, hlist, hd, .some hfirst hmore⟩

theorem exists_of_memberName {name : String}
    (h : memberName (stringBody steps) (cs.map some) = .ok (name, rest)) :
    ∃ text s mid after, trim cs = '"' :: text ∧ Body text s mid ∧ trim mid = ':' :: after ∧
      name = String.ofList s ∧ rest = after.map some := by
  obtain ⟨_, hquote, hread⟩ := bind_eq_ok_iff.1 h
  unfold nameQuote at hquote
  split at hquote
  · cases hquote
  · rename_i heq
    obtain ⟨text, hcs, rfl⟩ := skipSpace_eq_cons heq
    cases hquote
    obtain ⟨⟨_, _⟩, hbody, hread'⟩ := bind_eq_ok_iff.1 hread
    obtain ⟨s, mid, rfl, rfl, hs⟩ := exists_of_stringBody hbody
    obtain ⟨_, hcolon, hend⟩ := bind_eq_ok_iff.1 hread'
    unfold colon at hcolon
    split at hcolon
    · cases hcolon
    · rename_i heq'
      obtain ⟨after, hmid, rfl⟩ := skipSpace_eq_cons heq'
      cases hcolon
      cases hend
      exact ⟨text, s, mid, after, hcs, hs, hmid, rfl, rfl⟩
    · cases hcolon
  · cases hquote

theorem memberName_trim {body : Reader String} (cs : List Char) :
    memberName body ((trim cs).map some) = memberName body (cs.map some) := by
  have hskip : skipSpace ((trim cs).map some) = skipSpace (cs.map some) := by
    rw [skipSpace_map, skipSpace_map, trim_trim]
  rw [memberName, memberName, nameQuote, nameQuote, hskip]

theorem exists_of_membersFrom (hitem : Sound limit item) {body : Nat} {list : List (String × Json)}
    (h : membersFrom (stringBody body) item steps (cs.map some) = .ok (list, rest)) :
    ∃ first more others mid after, rest = after.map some ∧ UnwrapsMembers (first :: more) others ∧
      list = keptMembers others ∧ membersDepth (first :: more) ≤ limit ∧ Member (trim cs) first mid ∧
      MoreMembers (trim mid) more after ∧
      ∃ behind, memberName (stringBody body) (cs.map some) = .ok (first.1, behind) := by
  induction steps generalizing cs list rest with
  | zero => cases h
  | succ steps ih =>
    obtain ⟨⟨_, _⟩, hname, hvalue⟩ := bind_eq_ok_iff.1 h
    obtain ⟨text, s, _, front, hcs, hs, hfront, rfl, rfl⟩ := exists_of_memberName hname
    obtain ⟨⟨json, _⟩, hf, hread⟩ := bind_eq_ok_iff.1 hvalue
    obtain ⟨first, plain, mid, rfl, hu, rfl, hd, hv⟩ := hitem front json _ hf
    have hmember : NumberEnds mid → Member (trim cs) (String.ofList s, first) mid := by
      intro hends
      rw [hcs]
      exact .mk hs hfront (hv hends)
    simp only at hread
    split at hread
    · cases hread
    · rename_i heq
      obtain ⟨after, hmid, rfl⟩ := skipSpace_eq_cons heq
      cases hread
      have hends : NumberEnds mid := .of_trim (hmid ▸ numberEnds_cons after rfl)
      refine ⟨(String.ofList s, first), [], [(String.ofList s, plain)], mid, after, rfl,
        .cons hu .nil, rfl, ?_, hmember hends, hmid ▸ .close, _, hname⟩
      rw [membersDepth, membersDepth]
      omega
    · rename_i heq
      obtain ⟨next, hmid, rfl⟩ := skipSpace_eq_cons heq
      have hends : NumberEnds mid := .of_trim (hmid ▸ numberEnds_cons next rfl)
      obtain ⟨⟨_, _⟩, hm, hend⟩ := bind_eq_ok_iff.1 hread
      obtain ⟨second, more, others, mid', after, rfl, hus, rfl, hdepth, hsecond, hmore, -⟩ := ih hm
      cases hend
      refine ⟨(String.ofList s, first), second :: more, (String.ofList s, plain) :: others, mid, after,
        rfl, .cons hu hus, rfl, ?_, hmember hends, hmid ▸ .next hsecond hmore, _, hname⟩
      rw [membersDepth]
      omega
    · cases hread

/-- The members of an object, the first of which is the one that the brace is followed by. -/
theorem exists_of_members (hitem : Sound limit item) {body : Nat} {list : List (String × Json)}
    (h : members (stringBody body) item steps (cs.map some) = .ok (list, rest)) :
    ∃ list' others after, rest = after.map some ∧ UnwrapsMembers list' others ∧
      list = keptMembers others ∧ membersDepth list' ≤ limit ∧ Members (trim cs) list' after ∧
      ∀ member ∈ list'.head?, ∃ behind,
        memberName (stringBody body) (cs.map some) = .ok (member.1, behind) := by
  unfold members at h
  split at h
  · cases h
  · rename_i heq
    obtain ⟨after, hcs, rfl⟩ := skipSpace_eq_cons heq
    cases h
    refine ⟨[], [], after, rfl, .nil, rfl, Nat.zero_le _, hcs ▸ .none, fun member hm => ?_⟩
    cases hm
  · rw [skipSpace_map] at h
    obtain ⟨first, more, others, mid, after, hr, hu, hlist, hd, hfirst, hmore, hname⟩ :=
      exists_of_membersFrom hitem h
    rw [trim_trim] at hfirst
    rw [memberName_trim] at hname
    refine ⟨first :: more, others, after, hr, hu, hlist, hd, .some hfirst hmore, fun member hm => ?_⟩
    cases hm
    exact hname

/-! ## Braces -/

theorem exists_of_numberOf? {text : String} {json : Json} (h : numberOf? text = some json) :
    Number text.toList ∧ json = (Json.number text).kept := by
  unfold numberOf? at h
  split at h
  · rename_i token ht
    cases h
    obtain ⟨cs, after, hcs, hr, hn, rfl⟩ := exists_of_numberToken ht
    obtain rfl := List.map_eq_nil_iff.1 hr.symm
    rw [List.append_nil] at hcs
    subst hcs
    exact ⟨hn, rfl⟩
  · cases h

/-- What is read behind the reserved name and the colon is a number in its wrapping. -/
theorem exists_of_wrappedNumber {json : Json}
    (h : wrappedNumber steps (cs.map some) = .ok (json, rest)) :
    ∃ text mid after, rest = after.map some ∧ Number text.toList ∧ json = (Json.number text).kept ∧
      Value (trim cs) (.string text) mid ∧ trim mid = '}' :: after := by
  unfold wrappedNumber at h
  split at h
  · rename_i heq
    obtain ⟨front, hcs, rfl⟩ := skipSpace_eq_cons heq
    obtain ⟨⟨text, _⟩, hs, hread⟩ := bind_eq_ok_iff.1 h
    obtain ⟨s, mid, rfl, rfl, hbody⟩ := exists_of_stringBody hs
    simp only at hread
    split at hread
    · cases hread
    · cases hread
    · rename_i number tail hn hclose
      obtain ⟨after, hmid, rfl⟩ := skipSpace_eq_cons hclose
      obtain ⟨hnumber, rfl⟩ := exists_of_numberOf? hn
      cases hread
      exact ⟨_, mid, after, rfl, hnumber, rfl, hcs ▸ .string hbody, hmid⟩
    · cases hread
  · cases h

theorem exists_of_plainObject (hitem : Sound limit item) {json : Json}
    (h : plainObject steps item (cs.map some) = .ok (json, rest))
    (hplain : ∀ name behind, memberName (stringBody steps) (cs.map some) = .ok (name, behind) →
      name ≠ numberName) :
    ∃ members plain after, rest = after.map some ∧ (Json.object members).Unwraps plain ∧
      json = plain.kept ∧ (Json.object members).depth ≤ limit + 1 ∧ Members (trim cs) members after := by
  obtain ⟨⟨_, _⟩, hm, hread⟩ := bind_eq_ok_iff.1 h
  obtain ⟨list, others, after, rfl, hu, rfl, hd, hlist, hname⟩ := exists_of_members hitem hm
  cases hread
  have hw : isWrapped list = false := by
    cases list with
    | nil => rfl
    | cons member list =>
      obtain ⟨behind, hfirst⟩ := hname member rfl
      rw [isWrapped_cons, decide_eq_false_iff_not]
      exact hplain _ behind hfirst
  exact ⟨list, .object others, after, rfl, .object hw hu, rfl, Nat.succ_le_succ hd, hlist⟩

theorem soundBraced (hitem : Sound limit item) : SoundBraced (limit + 1) (braced steps item) := by
  intro cs json rest h
  unfold braced at h
  split at h
  · rename_i name behind hname
    split at h
    · rename_i hwrapped
      obtain ⟨front, s, mid, after, hcs, hs, hmid, rfl, rfl⟩ := exists_of_memberName hname
      obtain ⟨text, mid', after', rfl, hn, rfl, hv, hclose⟩ := exists_of_wrappedNumber h
      have hmember : Member ('"' :: front) (numberName, .string text) mid' :=
        hwrapped ▸ .mk hs hmid hv
      refine ⟨[(numberName, .string text)], .number text, after', rfl, .wrapped hn, rfl,
        Nat.succ_le_succ (Nat.zero_le limit), ?_⟩
      rw [hcs]
      exact .some hmember (hclose ▸ .close)
    · rename_i hne
      refine exists_of_plainObject hitem h fun name' behind' hname' => ?_
      rw [hname] at hname'
      cases hname'
      exact hne
  · rename_i fault hname
    refine exists_of_plainObject hitem h fun name' behind' hname' => ?_
    rw [hname] at hname'
    cases hname'

end

theorem exists_of_constant {w : List Char} {constant json : Json}
    (h : (word w (cs.map some) >>= fun found => .ok (constant, found.2)) = Except.ok (json, rest)) :
    ∃ after, cs = w ++ after ∧ rest = after.map some ∧ json = constant := by
  obtain ⟨⟨_, _⟩, hw, hread⟩ := bind_eq_ok_iff.1 h
  obtain ⟨after, rfl, rfl⟩ := exists_of_word hw
  cases hread
  exact ⟨after, rfl, rfl, rfl⟩

/-- A reader of values is sound when its readers of containers are. -/
theorem sound_valueWith {limit : Nat} (steps : Nat) {array object : Reader Json}
    (ha : ∀ (cs : List Char) (json : Json) (rest : List Symbol),
      array (cs.map some) = .ok (json, rest) →
        ∃ list plain after, rest = after.map some ∧ (Json.array list).Unwraps plain ∧
          json = plain.kept ∧ (Json.array list).depth ≤ limit ∧ Items (trim cs) list after)
    (ho : SoundBraced limit object) : Sound limit (valueWith steps array object) := by
  intro cs json rest h
  unfold valueWith at h
  split at h
  · cases h
  · rename_i heq
    obtain ⟨tail, hcs, rfl⟩ := skipSpace_eq_cons heq
    obtain ⟨after, rfl, hr, rfl⟩ := exists_of_constant h
    exact ⟨.null, .null, after, hr, .null, rfl, Nat.zero_le _, fun _ => hcs ▸ .null⟩
  · rename_i heq
    obtain ⟨tail, hcs, rfl⟩ := skipSpace_eq_cons heq
    obtain ⟨after, rfl, hr, rfl⟩ := exists_of_constant h
    exact ⟨.bool true, .bool true, after, hr, .bool true, rfl, Nat.zero_le _, fun _ => hcs ▸ .yes⟩
  · rename_i heq
    obtain ⟨tail, hcs, rfl⟩ := skipSpace_eq_cons heq
    obtain ⟨after, rfl, hr, rfl⟩ := exists_of_constant h
    exact ⟨.bool false, .bool false, after, hr, .bool false, rfl, Nat.zero_le _, fun _ => hcs ▸ .no⟩
  · rename_i heq
    obtain ⟨tail, hcs, rfl⟩ := skipSpace_eq_cons heq
    obtain ⟨⟨_, _⟩, hs, hread⟩ := bind_eq_ok_iff.1 h
    obtain ⟨s, after, rfl, rfl, hbody⟩ := exists_of_stringBody hs
    cases hread
    exact ⟨.string (String.ofList s), _, after, rfl, .string _, rfl, Nat.zero_le _, fun _ =>
      hcs ▸ .string hbody⟩
  · rename_i heq
    obtain ⟨tail, hcs, rfl⟩ := skipSpace_eq_cons heq
    obtain ⟨list, plain, after, hr, hu, hjson, hd, hlist⟩ := ha tail json rest h
    exact ⟨.array list, plain, after, hr, hu, hjson, hd, fun _ => hcs ▸ .array hlist⟩
  · rename_i heq
    obtain ⟨tail, hcs, rfl⟩ := skipSpace_eq_cons heq
    obtain ⟨list, plain, after, hr, hu, hjson, hd, hlist⟩ := ho tail json rest h
    exact ⟨.object list, plain, after, hr, hu, hjson, hd, fun _ => hcs ▸ .object hlist⟩
  · rename_i heq
    split at h
    · obtain ⟨⟨token, _⟩, ht, hread⟩ := bind_eq_ok_iff.1 h
      rw [← heq, skipSpace_map] at ht
      obtain ⟨text, after, hcs, rfl, hn, rfl⟩ := exists_of_numberToken ht
      cases hread
      refine ⟨.number (String.ofList text), _, after, rfl, .number _, ?_, Nat.zero_le _, fun hends =>
        .number hn hends hcs⟩
      rw [kept, String.toList_ofList]
    · cases h

theorem sound_value (steps limit : Nat) : Sound limit (value steps limit) := by
  induction limit with
  | zero =>
    refine sound_valueWith steps (fun cs json rest h => ?_) (fun cs json rest h => ?_)
    · cases h
    · cases h
  | succ limit ih =>
    refine sound_valueWith steps (fun cs json rest h => ?_) (soundBraced ih)
    obtain ⟨⟨_, _⟩, hi, hread⟩ := bind_eq_ok_iff.1 h
    obtain ⟨list, others, after, rfl, hu, rfl, hd, hlist⟩ := exists_of_items ih hi
    cases hread
    exact ⟨list, .array others, after, rfl, .array hu, rfl, Nat.succ_le_succ hd, hlist⟩

end Grammar

/-- What is read of a text is what the reader keeps of the value that the text reads as, without its
wrappings. -/
theorem exists_reads_of_ofSymbols {text : String} {limit : Nat} {json : Json}
    (h : ofSymbols limit (Symbol.ofText text) = .ok json) :
    ∃ tree plain, Reads text tree ∧ tree.depth ≤ limit ∧ tree.Unwraps plain ∧ json = plain.kept := by
  obtain ⟨⟨_, _⟩, hv, hend⟩ := bind_eq_ok_iff.1 h
  obtain ⟨tree, plain, after, rfl, hu, rfl, hd, hread⟩ :=
    Grammar.sound_value _ limit text.toList _ _ hv
  simp only [Grammar.skipSpace_map, List.isEmpty_map, List.isEmpty_iff] at hend
  split at hend
  · rename_i hafter
    cases hend
    have hends : Grammar.NumberEnds after := .of_trim (hafter ▸ fun c hc => by cases hc)
    exact ⟨tree, plain, ⟨after, hread hends, hafter⟩, hd, hu, rfl⟩
  · cases hend

/-- What a text says to a reader: the value that it reads as, without the wrappings. -/
def Says (text : String) (plain : Json) : Prop :=
  ∃ tree, Reads text tree ∧ tree.depth ≤ maxDepth ∧ tree.Unwraps plain

theorem Says.unique {text : String} {plain plain' : Json} (h : Says text plain)
    (h' : Says text plain') : plain' = plain := by
  obtain ⟨tree, hr, -, hu⟩ := h
  obtain ⟨tree', hr', -, hu'⟩ := h'
  obtain rfl := hr.unique hr'
  exact hu'.unique hu

theorem Says.exists_iff {text : String} {plain : Json} (h : Says text plain) (P : Json → Prop) :
    (∃ other, Says text other ∧ P other) ↔ P plain := by
  constructor
  · rintro ⟨other, ho, hp⟩
    exact h.unique ho ▸ hp
  · exact fun hp => ⟨plain, h, hp⟩

theorem says_iff_of_reads {text : String} {tree plain : Json} (h : Reads text tree) :
    Says text plain ↔ tree.depth ≤ maxDepth ∧ tree.Unwraps plain := by
  constructor
  · rintro ⟨tree', hr, hd, hu⟩
    obtain rfl := h.unique hr
    exact ⟨hd, hu⟩
  · rintro ⟨hd, hu⟩
    exact ⟨tree, h, hd, hu⟩

/-- A text is read if and only if it says something, and it is read as what it says. -/
theorem ofText_eq_kept_iff {text : String} {json : Json} :
    ofText text = .ok json ↔ ∃ plain, Says text plain ∧ json = plain.kept := by
  constructor
  · intro h
    obtain ⟨tree, plain, hr, hd, hu, rfl⟩ := exists_reads_of_ofSymbols h
    exact ⟨plain, ⟨tree, hr, hd, hu⟩, rfl⟩
  · rintro ⟨plain, ⟨tree, hr, hd, hu⟩, rfl⟩
    exact ofText_of_reads hr hu hd

/-- All other texts are refused. -/
theorem exists_error_ofText_iff {text : String} :
    (∃ fault, ofText text = .error fault) ↔ ¬ ∃ plain, Says text plain := by
  rw [exists_error_iff]
  refine not_congr ⟨?_, ?_⟩
  · rintro ⟨json, h⟩
    obtain ⟨plain, hp, -⟩ := ofText_eq_kept_iff.1 h
    exact ⟨plain, hp⟩
  · rintro ⟨plain, hp⟩
    exact ⟨plain.kept, ofText_eq_kept_iff.2 ⟨plain, hp, rfl⟩⟩

/-- A value of a text is read from it if and only if it does not nest too deep and can be unwrapped. -/
theorem ofText_eq_ok_iff {text : String} {tree : Json} (h : Reads text tree) (json : Json) :
    ofText text = .ok json ↔
      tree.depth ≤ maxDepth ∧ ∃ plain, tree.Unwraps plain ∧ json = plain.kept := by
  simp only [ofText_eq_kept_iff, says_iff_of_reads h, and_assoc, exists_and_left]

end DocWire.Json
