import BundleLink.Proofs.Basic
import BundleLink.Proofs.Json.Grammar

/-!
Strings are read as the grammar has them: a string is spelled character by character, and a character
takes two elements if it is written as a pair of surrogates (`Spell`). What follows a quotation mark
is read exactly if it is the elements of a string that spells something (`stringRest_eq_ok_iff`).
-/

set_option autoImplicit false

namespace BundleLink.Json

variable {cs rest : List Char}

theorem hexUnit_eq_ok {n : Nat} : hexUnit cs = .ok (n, rest) ↔
    ∃ u : HexUnit, u.value = n ∧ cs = u.digits ++ rest := by
  constructor
  · intro hread
    unfold hexUnit at hread
    split at hread
    · rename_i a b c d after
      split at hread
      · rename_i va vb vc vd ha hb hc hd
        cases hread
        refine ⟨⟨[a, b, c, d], rfl, by simp [ha, hb, hc, hd]⟩, ?_, rfl⟩
        simp [HexUnit.value, ha, hb, hc, hd]
      · cases hread
    · split_ifs at hread <;> cases hread
  · rintro ⟨⟨digits, hlength, hhex⟩, rfl, rfl⟩
    obtain ⟨a, b, c, d, rfl⟩ : ∃ a b c d, digits = [a, b, c, d] := by
      match digits, hlength with
      | [a, b, c, d], _ => exact ⟨a, b, c, d, rfl⟩
    simp only [List.mem_cons, List.not_mem_nil, or_false, forall_eq_or_imp, forall_eq,
      Option.isSome_iff_exists] at hhex
    obtain ⟨⟨va, ha⟩, ⟨vb, hb⟩, ⟨vc, hc⟩, ⟨vd, hd⟩⟩ := hhex
    simp [hexUnit, HexUnit.value, ha, hb, hc, hd]

/-- The elements that spell one character: two of them if it takes a pair. -/
inductive Spell : List Element → Char → Prop
  | plain (c : Char) (h : c ≠ '"' ∧ c ≠ '\\' ∧ 0x20 ≤ c.toNat) : Spell [.plain c h] c
  | short (letter c : Char) (h : (letter, c) ∈ shortEscapes) : Spell [.short letter c h] c
  | unit (u : HexUnit) : u.value < 0xD800 ∨ 0xE000 ≤ u.value →
      Spell [.unit u] (Char.ofNat u.value)
  | pair (u low : HexUnit) : 0xD800 ≤ u.value → u.value < 0xDC00 → 0xDC00 ≤ low.value →
      low.value < 0xE000 → Spell [.unit u, .unit low]
        (Char.ofNat (0x10000 + (u.value - 0xD800) * 0x400 + (low.value - 0xDC00)))

theorem Spell.text?_append {es : List Element} {c : Char} (h : Spell es c) (es' : List Element) :
    Element.text? (es ++ es') = (Element.text? es').map (c :: ·) := by
  cases h with
  | plain c h => rfl
  | short letter c h => rfl
  | unit u hu =>
    conv_lhs => unfold Element.text?
    exact if_pos hu
  | pair u low hhigh hhigh' hlow hlow' =>
    simp only [List.cons_append, List.nil_append, Element.text?]
    rw [if_neg (by omega), if_neg (by omega), if_pos ⟨hlow, hlow'⟩]

/-- A string is spelled character by character. -/
inductive SpellAll : List Element → List Char → Prop
  | nil : SpellAll [] []
  | append {es es' : List Element} {c : Char} {s : List Char} :
      Spell es c → SpellAll es' s → SpellAll (es ++ es') (c :: s)

theorem text?_eq_some_iff {es : List Element} {s : List Char} :
    Element.text? es = some s ↔ SpellAll es s := by
  constructor
  · intro hs
    fun_induction Element.text? es generalizing s with
    | case1 =>
      cases hs
      exact .nil
    | case2 c h es ih =>
      obtain ⟨s', hs', rfl⟩ := Option.map_eq_some_iff.mp hs
      exact .append (.plain c h) (ih hs')
    | case3 letter c h es ih =>
      obtain ⟨s', hs', rfl⟩ := Option.map_eq_some_iff.mp hs
      exact .append (.short letter c h) (ih hs')
    | case4 u es hu ih =>
      obtain ⟨s', hs', rfl⟩ := Option.map_eq_some_iff.mp hs
      exact .append (.unit u hu) (ih hs')
    | case5 => cases hs
    | case6 u hu hlow low es hpair ih =>
      obtain ⟨s', hs', rfl⟩ := Option.map_eq_some_iff.mp hs
      exact .append (.pair u low (by omega) (by omega) hpair.1 hpair.2) (ih hs')
    | case7 => cases hs
    | case8 => cases hs
  · intro h
    induction h with
    | nil => rfl
    | append h _ ih => rw [h.text?_append, ih, Option.map_some]

theorem hexUnit_digits (u : HexUnit) (rest : List Char) :
    hexUnit (u.digits ++ rest) = .ok (u.value, rest) :=
  hexUnit_eq_ok.mpr ⟨u, rfl, rfl⟩

/-- An escape is read from its backslash on. -/
theorem escape_of_spell {es : List Element} {c : Char} (h : Spell es c) {front : List Char}
    (hfront : es.flatMap Element.chars = '\\' :: front) (rest : List Char) :
    escape (front ++ rest) = .ok (c, rest) := by
  cases h with
  | plain c h =>
    obtain ⟨rfl, -⟩ : c = '\\' ∧ [] = front := by simpa [Element.chars] using hfront
    exact absurd rfl h.2.1
  | short letter c hmem =>
    obtain rfl : [letter] = front := by simpa [Element.chars] using hfront
    simp only [shortEscapes, List.mem_cons, Prod.mk.injEq, List.not_mem_nil, or_false] at hmem
    rcases hmem with ⟨rfl, rfl⟩ | ⟨rfl, rfl⟩ | ⟨rfl, rfl⟩ | ⟨rfl, rfl⟩ | ⟨rfl, rfl⟩ | ⟨rfl, rfl⟩ |
      ⟨rfl, rfl⟩ | ⟨rfl, rfl⟩ <;> rfl
  | unit u hu =>
    obtain rfl : 'u' :: u.digits = front := by simpa [Element.chars] using hfront
    rw [List.cons_append, escape, unicodeEscape, hexUnit_digits]
    simp only [bind, Except.bind, pure, Except.pure]
    rw [if_neg (by omega), if_pos hu]
  | pair u low hhigh hhigh' hlow hlow' =>
    obtain rfl : 'u' :: (u.digits ++ '\\' :: 'u' :: low.digits) = front := by
      simpa [Element.chars] using hfront
    rw [List.cons_append, List.append_assoc, escape, unicodeEscape, hexUnit_digits]
    simp only [bind, Except.bind, pure, Except.pure, List.cons_append]
    rw [if_neg (by omega), if_neg (by omega), hexUnit_digits]
    simp only
    rw [if_pos ⟨hlow, hlow'⟩]

/-- What is read as an escape spells a character. -/
theorem exists_spell_of_unicodeEscape {c : Char} (hread : unicodeEscape cs = .ok (c, rest)) :
    ∃ es, Spell es c ∧ '\\' :: 'u' :: cs = es.flatMap Element.chars ++ rest := by
  unfold unicodeEscape at hread
  obtain ⟨⟨n, after⟩, hunit, hrest⟩ := bind_eq_ok.mp hread
  obtain ⟨u, rfl, rfl⟩ := hexUnit_eq_ok.mp hunit
  simp only at hrest
  split_ifs at hrest with hlow hplain
  · cases hrest
  · cases hrest
    exact ⟨[.unit u], .unit u hplain, by simp [Element.chars]⟩
  · split at hrest
    · cases hrest
    · cases hrest
    · obtain ⟨⟨m, after⟩, hunit', hpaired⟩ := bind_eq_ok.mp hrest
      obtain ⟨low, rfl, rfl⟩ := hexUnit_eq_ok.mp hunit'
      simp only at hpaired
      split_ifs at hpaired with hpair
      · have hspell := Spell.pair u low (by omega) (by omega) hpair.1 hpair.2
        simp only [pure, Except.pure, Except.ok.injEq, Prod.mk.injEq] at hpaired
        obtain ⟨rfl, rfl⟩ := hpaired
        exact ⟨_, hspell, by simp [Element.chars]⟩
      · cases hpaired
    · cases hrest
    · cases hrest

theorem exists_spell_of_escape {c : Char} (hread : escape cs = .ok (c, rest)) :
    ∃ es, Spell es c ∧ '\\' :: cs = es.flatMap Element.chars ++ rest := by
  have hshort {letter : Char} (hmem : (letter, c) ∈ shortEscapes) :
      ∃ es, Spell es c ∧ '\\' :: letter :: rest = es.flatMap Element.chars ++ rest :=
    ⟨[.short letter c hmem], .short letter c hmem, by simp [Element.chars]⟩
  unfold escape at hread
  split at hread
  case h_10 => exact exists_spell_of_unicodeEscape hread
  all_goals first | (cases hread; exact hshort (by decide)) | cases hread

theorem stringBody_of_spell {es : List Element} {c : Char} (h : Spell es c) {fuel : Nat}
    {s : List Char} (hrest : stringBody fuel cs = .ok (s, rest)) :
    stringBody (fuel + 1) (es.flatMap Element.chars ++ cs) = .ok (c :: s, rest) := by
  have hescape {front : List Char} (hfront : es.flatMap Element.chars = '\\' :: front) :
      stringBody (fuel + 1) (es.flatMap Element.chars ++ cs) = .ok (c :: s, rest) := by
    rw [hfront, List.cons_append, stringBody, escape_of_spell h hfront]
    simp only [hrest, bind, Except.bind, pure, Except.pure]
  cases h with
  | plain c h =>
    simp only [Element.chars, List.flatMap_cons, List.flatMap_nil, List.append_nil,
      List.cons_append, List.nil_append]
    rw [stringBody, if_neg (by omega), hrest]
    · rfl
    · exact h.1
    · exact h.2.1
  | short letter c h => exact hescape rfl
  | unit u h => exact hescape rfl
  | pair u low _ _ _ _ => exact hescape rfl

theorem stringBody_of_spellAll {es : List Element} {s : List Char} (h : SpellAll es s) {fuel : Nat}
    (hfuel : s.length < fuel) :
    stringBody fuel (es.flatMap Element.chars ++ '"' :: rest) = .ok (s, rest) := by
  induction h generalizing fuel with
  | nil =>
    obtain ⟨fuel, rfl⟩ := Nat.exists_eq_add_of_lt hfuel
    simp [stringBody]
  | append h _ ih =>
    cases fuel with
    | zero => simp at hfuel
    | succ fuel =>
      rw [List.flatMap_append, List.append_assoc]
      exact stringBody_of_spell h (ih (by simpa using hfuel))

theorem exists_spellAll {fuel : Nat} {s : List Char} (hread : stringBody fuel cs = .ok (s, rest)) :
    ∃ es, SpellAll es s ∧ cs = es.flatMap Element.chars ++ '"' :: rest := by
  induction fuel generalizing cs s with
  | zero => cases hread
  | succ fuel ih =>
    have hspell {es : List Element} {c : Char} {cs after : List Char} (h : Spell es c)
        (hcs : cs = es.flatMap Element.chars ++ after)
        (hread : (stringBody fuel after >>= fun r ↦ pure (c :: r.1, r.2)) = .ok (s, rest)) :
        ∃ es, SpellAll es s ∧ cs = es.flatMap Element.chars ++ '"' :: rest := by
      obtain ⟨⟨s', rest'⟩, hbody, hs⟩ := bind_eq_ok.mp hread
      cases hs
      obtain ⟨es', hes', rfl⟩ := ih hbody
      exact ⟨es ++ es', .append h hes', by rw [hcs, List.flatMap_append, List.append_assoc]⟩
    unfold stringBody at hread
    split at hread
    · cases hread
    · cases hread
      exact ⟨[], .nil, rfl⟩
    · obtain ⟨⟨c, after⟩, hescape, hbody⟩ := bind_eq_ok.mp hread
      obtain ⟨es, hes, hcs⟩ := exists_spell_of_escape hescape
      exact hspell hes hcs hbody
    · rename_i c after hquote hslash
      split_ifs at hread with hcontrol
      · cases hread
      · have hplain : c ≠ '"' ∧ c ≠ '\\' ∧ 0x20 ≤ c.toNat := by
          refine ⟨?_, ?_, by omega⟩
          · exact fun hc ↦ hquote hc
          · exact fun hc ↦ hslash hc
        exact hspell (.plain c hplain) (by simp [Element.chars]) hread

theorem Spell.length_pos {es : List Element} {c : Char} (h : Spell es c) :
    0 < (es.flatMap Element.chars).length := by
  cases h <;> simp [Element.chars]

theorem length_le_of_spellAll {es : List Element} {s : List Char} (h : SpellAll es s) :
    s.length ≤ (es.flatMap Element.chars).length := by
  induction h with
  | nil => exact Nat.zero_le _
  | append h _ ih =>
    have hpos := h.length_pos
    rw [List.flatMap_append, List.length_append, List.length_cons]
    omega

theorem stringRest_eq_ok_iff {s : String} : stringRest cs = .ok (s, rest) ↔
    ∃ es, Element.text? es = some s.toList ∧ cs = es.flatMap Element.chars ++ '"' :: rest := by
  constructor
  · intro hread
    obtain ⟨⟨chars, after⟩, hbody, hs⟩ := bind_eq_ok.mp hread
    cases hs
    obtain ⟨es, hes, rfl⟩ := exists_spellAll hbody
    exact ⟨es, by rw [text?_eq_some_iff, String.toList_ofList]; exact hes, rfl⟩
  · rintro ⟨es, hes, rfl⟩
    rw [text?_eq_some_iff] at hes
    have hlength := length_le_of_spellAll hes
    have hfuel : s.toList.length < (es.flatMap Element.chars ++ '"' :: rest).length + 1 := by
      rw [List.length_append]
      omega
    rw [stringRest, stringBody_of_spellAll hes hfuel]
    simp [bind, Except.bind, pure, Except.pure]

end BundleLink.Json
