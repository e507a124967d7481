import BundleLink.Proofs.Json.Numeral
import BundleLink.Proofs.Json.RoundTrip
import BundleLink.Proofs.Json.Strings
import Mathlib.Data.List.DropRight

/-!
A document is read exactly if the grammar has it and it has a value (`read_eq_ok_iff`): what is read
is spelled by the characters that were taken (`SpelledWithin`), and whatever a text spells is read
from it, with any blanks where they may stand (`Spells.readAs`).
-/

set_option autoImplicit false

namespace BundleLink.Json

variable {cs rest : List Char}

/-! ### Blanks and names -/

theorem exists_blank (cs : List Char) : ∃ blank, Blank blank ∧ cs = blank ++ skipBlanks cs :=
  ⟨cs.takeWhile isBlank, fun _ ↦ List.mem_takeWhile_imp, List.takeWhile_append_dropWhile.symm⟩

theorem skipBlanks_append {blank : List Char} (hblank : Blank blank) (cs : List Char) :
    skipBlanks (blank ++ cs) = skipBlanks cs :=
  List.dropWhile_append_of_pos hblank

theorem skipBlanks_skipBlanks (cs : List Char) : skipBlanks (skipBlanks cs) = skipBlanks cs :=
  List.dropWhile_idempotent isBlank cs

theorem ident_eq_ok_iff {word : List Char} {v w : Value} :
    ident word v cs = .ok (w, rest) ↔ w = v ∧ cs = word ++ rest := by
  induction word generalizing cs with
  | nil => simp [ident, eq_comm]
  | cons c word ih =>
    cases cs with
    | nil => simp [ident, fault]
    | cons d cs =>
      rw [ident]
      split_ifs with hd
      · simp [ih, hd]
      · simp [fault, hd]

/-! ### Items between commas -/

section

variable {α : Type} (chars : α → List Char)

/-- What follows the first of several items: each of the others after a comma. -/
def following (xs : List α) : List Char :=
  xs.flatMap (',' :: chars ·)

theorem following_nil (rest : List Char) : following chars [] ++ rest = rest :=
  rfl

theorem following_cons (x : α) (xs : List α) (rest : List Char) :
    following chars (x :: xs) ++ rest = ',' :: (chars x ++ (following chars xs ++ rest)) := by
  simp [following]

theorem length_following_cons (x : α) (xs : List α) :
    (following chars (x :: xs)).length = (chars x).length + (following chars xs).length + 1 := by
  simp [following]

theorem intercalate_map_cons (x : α) (xs : List α) :
    [','].intercalate ((x :: xs).map chars) = chars x ++ following chars xs := by
  induction xs generalizing x with
  | nil => simp [List.intercalate, following]
  | cons y xs ih =>
    have hnext := ih y
    simp only [List.intercalate, List.map_cons] at hnext ⊢
    simp [hnext, following]

theorem endsNumber_following (xs : List α) {close : Char}
    (hclose : close.isDigit = false ∧ close ≠ '.' ∧ isExponentMark close = false)
    (rest : List Char) : EndsNumber (following chars xs ++ close :: rest) := by
  cases xs with
  | nil => exact endsNumber_cons hclose rest
  | cons x xs => exact endsNumber_cons (by decide) _

/-- After blanks, a comma and the next. -/
theorem skipBlanks_following_cons {blank : List Char} (hblank : Blank blank) (x : α)
    (xs : List α) (rest : List Char) : skipBlanks (blank ++ (following chars (x :: xs) ++ rest)) =
      ',' :: (chars x ++ (following chars xs ++ rest)) := by
  rw [skipBlanks_append hblank, following_cons, skipBlanks_of_isBlank (by decide)]

end

/-! ### What is read is spelled -/

theorem nextItem_eq_ok {start : List Char} (hread : nextItem cs = .ok start) :
    ∃ after, cs = ',' :: after ∧ start = skipBlanks after := by
  unfold nextItem at hread
  split at hread
  · rename_i after
    split at hread
    · cases hread
    · cases hread
    · cases hread
      exact ⟨after, rfl, rfl⟩
  · cases hread

theorem firstKey_eq_ok {start : List Char} (hread : firstKey cs = .ok start) :
    cs = '"' :: start := by
  unfold firstKey at hread
  split at hread
  · cases hread
    rfl
  · cases hread

theorem nextKey_eq_ok {start : List Char} (hread : nextKey cs = .ok start) :
    ∃ after, cs = ',' :: after ∧ skipBlanks after = '"' :: start := by
  unfold nextKey at hread
  split at hread
  · rename_i after
    split at hread
    · cases hread
    · rename_i hskip
      cases hread
      exact ⟨after, rfl, hskip⟩
    · cases hread
    · cases hread
  · cases hread

theorem colon_eq_ok (hread : colon cs = .ok ((), rest)) : skipBlanks cs = ':' :: rest := by
  unfold colon at hread
  split at hread
  · cases hread
  · cases hread
    assumption
  · cases hread

/-- Items that spell the values `vs`. -/
structure SpellItems (depth : Nat) (is : List Item) (vs : List Value) : Prop where
  spells : ∀ i ∈ is, Spells i.text i.doc
  values : (is.map Item.doc).mapM (Doc.value? depth) = some vs

/-- The value of an entry, as that of an object has it. -/
def keyedValue? (depth : Nat) (m : List Element × Doc) : Option (String × Value) := do
  let s ← Element.text? m.1
  let v ← m.2.value? depth
  return (String.ofList s, v)

structure SpellMembers (depth : Nat) (ms : List Member) (es : List (String × Value)) : Prop where
  spells : ∀ m ∈ ms, Spells m.text m.doc
  values : (ms.map fun m ↦ (m.key, m.doc)).mapM (keyedValue? depth) = some es

theorem spelled_of_ident {word : List Char} {v w : Value} {c : Char} {d : Doc} {depth : Nat}
    (hread : ident word w cs = .ok (v, rest)) (hd : d.value? depth = some w)
    (hspells : Spells (c :: word) d) :
    ∃ text d, c :: cs = text ++ rest ∧ Spells text d ∧ d.value? depth = some v := by
  obtain ⟨rfl, rfl⟩ := ident_eq_ok_iff.mp hread
  exact ⟨c :: word, d, rfl, hspells, hd⟩

theorem spelled_of_number {negative : Bool} {v : Value} {depth : Nat}
    (hread : number negative cs = .ok (v, rest)) :
    ∃ text d, (if negative then ['-'] else []) ++ cs = text ++ rest ∧ Spells text d ∧
      d.value? depth = some v := by
  obtain ⟨n, rfl, rfl, hv⟩ := exists_numeral hread
  exact ⟨n.chars, .number n, by rw [Numeral.chars, List.append_assoc], .number n,
    by rw [Doc.value?, hv]⟩

/-- What is read with so much fuel is spelled. -/
structure SpelledWithin (fuel : Nat) : Prop where
  value : ∀ {depth cs v rest}, Json.value fuel depth cs = .ok (v, rest) →
    ∃ text d, skipBlanks cs = text ++ rest ∧ Spells text d ∧ d.value? depth = some v
  items : ∀ {depth cs vs rest}, Json.items fuel depth false cs = .ok (vs, rest) →
    ∃ blank is, Blank blank ∧ cs = blank ++ following Item.chars is ++ ']' :: rest ∧
      SpellItems depth is vs
  allItems : ∀ {depth cs vs rest}, Json.items fuel depth true cs = .ok (vs, rest) →
    (vs = [] ∧ ∃ blank, Blank blank ∧ cs = blank ++ ']' :: rest) ∨
      ∃ i is, cs = i.chars ++ following Item.chars is ++ ']' :: rest ∧ SpellItems depth (i :: is) vs
  members : ∀ {depth cs es rest}, Json.members fuel depth false cs = .ok (es, rest) →
    ∃ blank ms, Blank blank ∧ cs = blank ++ following Member.chars ms ++ '\x7d' :: rest ∧
      SpellMembers depth ms es
  allMembers : ∀ {depth cs es rest}, Json.members fuel depth true cs = .ok (es, rest) →
    (es = [] ∧ ∃ blank, Blank blank ∧ cs = blank ++ '\x7d' :: rest) ∨
      ∃ m ms, cs = m.chars ++ following Member.chars ms ++ '\x7d' :: rest ∧
        SpellMembers depth (m :: ms) es

namespace SpelledWithin

variable {fuel : Nat} (h : SpelledWithin fuel) {depth : Nat}

include h

theorem array {vs : List Value} (hread : Json.items fuel depth true cs = .ok (vs, rest)) :
    ∃ text d, '[' :: cs = text ++ rest ∧ Spells text d ∧
      d.value? (depth + 1) = some (.array vs) := by
  obtain ⟨rfl, blank, hblank, rfl⟩ | ⟨i, is, rfl, hspelled⟩ := h.allItems hread
  · exact ⟨_, _, by simp, .emptyArray blank hblank, by simp [Doc.value?]⟩
  · refine ⟨_, _, ?_, .array (i :: is) (List.cons_ne_nil i is) hspelled.spells, ?_⟩
    · rw [intercalate_map_cons]
      simp
    · exact congrArg (Option.map _) hspelled.values

theorem object {es : List (String × Value)}
    (hread : Json.members fuel depth true cs = .ok (es, rest)) :
    ∃ text d, '\x7b' :: cs = text ++ rest ∧ Spells text d ∧
      d.value? (depth + 1) = some (.object (Entries.ofList es)) := by
  obtain ⟨rfl, blank, hblank, rfl⟩ | ⟨m, ms, rfl, hspelled⟩ := h.allMembers hread
  · exact ⟨_, _, by simp, .emptyObject blank hblank, by simp [Doc.value?]⟩
  · refine ⟨_, _, ?_, .object (m :: ms) (List.cons_ne_nil m ms) hspelled.spells, ?_⟩
    · rw [intercalate_map_cons]
      simp
    · exact congrArg (Option.map _) hspelled.values

theorem value_succ {v : Value} (hread : Json.value (fuel + 1) depth cs = .ok (v, rest)) :
    ∃ text d, skipBlanks cs = text ++ rest ∧ Spells text d ∧ d.value? depth = some v := by
  rw [Json.value] at hread
  generalize skipBlanks cs = start at hread ⊢
  split at hread
  · cases hread
  · exact spelled_of_ident hread (by rw [Doc.value?]) .null
  · exact spelled_of_ident hread (by rw [Doc.value?]) (.bool true)
  · exact spelled_of_ident hread (by rw [Doc.value?]) (.bool false)
  · exact spelled_of_number hread
  · obtain ⟨⟨s, after⟩, hstring, hv⟩ := bind_eq_ok.mp hread
    cases hv
    obtain ⟨es, hes, rfl⟩ := stringRest_eq_ok_iff.mp hstring
    exact ⟨quotedElements es, .string es, by simp [quotedElements], .string es,
      by simp [Doc.value?, hes]⟩
  · split_ifs at hread with hdepth
    · cases hread
    · obtain ⟨⟨vs, after⟩, hitems, hv⟩ := bind_eq_ok.mp hread
      cases hv
      obtain ⟨depth, rfl⟩ := Nat.exists_eq_succ_of_ne_zero hdepth
      exact h.array hitems
  · split_ifs at hread with hdepth
    · cases hread
    · obtain ⟨⟨es, after⟩, hmembers, hv⟩ := bind_eq_ok.mp hread
      cases hv
      obtain ⟨depth, rfl⟩ := Nat.exists_eq_succ_of_ne_zero hdepth
      exact h.object hmembers
  · split_ifs at hread with hdigit
    · exact spelled_of_number hread
    · cases hread

/-- An item and those after it. -/
theorem item {v : Value} {vs : List Value} {mid : List Char}
    (hvalue : ∃ text d, skipBlanks cs = text ++ mid ∧ Spells text d ∧ d.value? depth = some v)
    (hitems : Json.items fuel depth false mid = .ok (vs, rest)) :
    ∃ i is, cs = i.chars ++ following Item.chars is ++ ']' :: rest ∧
      SpellItems depth (i :: is) (v :: vs) := by
  obtain ⟨text, d, htext, hspells, hv⟩ := hvalue
  obtain ⟨before, hbefore, hcs⟩ := exists_blank cs
  obtain ⟨after, is, hafter, rfl, hspelled⟩ := h.items hitems
  refine ⟨⟨before, text, after, d, hbefore, hafter⟩, is, ?_,
    List.forall_mem_cons.mpr ⟨hspells, hspelled.spells⟩, ?_⟩
  · rw [hcs, htext]
    simp [Item.chars]
  · rw [List.map_cons, mapM_cons_eq_some]
    exact ⟨v, vs, hv, hspelled.values, rfl⟩

theorem items_succ {vs : List Value}
    (hread : Json.items (fuel + 1) depth false cs = .ok (vs, rest)) :
    ∃ blank is, Blank blank ∧ cs = blank ++ following Item.chars is ++ ']' :: rest ∧
      SpellItems depth is vs := by
  obtain ⟨blank, hblank, hcs⟩ := exists_blank cs
  obtain ⟨hskip, rfl⟩ | ⟨start, v, vs, hnext, hvalue, hitems, rfl⟩ := items_succ_eq_ok hread
  · refine ⟨blank, [], hblank, ?_, by simp, by simp⟩
    rw [hcs, hskip]
    simp [following]
  · obtain ⟨after, hcomma, rfl⟩ := nextItem_eq_ok hnext
    have hspells : ∃ text d, skipBlanks after = text ++ v.2 ∧ Spells text d ∧
        d.value? depth = some v.1 := by
      simpa [skipBlanks_skipBlanks] using h.value hvalue
    obtain ⟨i, is, rfl, hspelled⟩ := h.item hspells hitems
    refine ⟨blank, i :: is, hblank, ?_, hspelled⟩
    rw [hcs, hcomma]
    simp [following]

theorem allItems_succ {vs : List Value}
    (hread : Json.items (fuel + 1) depth true cs = .ok (vs, rest)) :
    (vs = [] ∧ ∃ blank, Blank blank ∧ cs = blank ++ ']' :: rest) ∨
      ∃ i is, cs = i.chars ++ following Item.chars is ++ ']' :: rest ∧
        SpellItems depth (i :: is) vs := by
  obtain ⟨hskip, rfl⟩ | ⟨start, v, vs, hstart, hvalue, hitems, rfl⟩ := items_succ_eq_ok hread
  · obtain ⟨blank, hblank, hcs⟩ := exists_blank cs
    exact .inl ⟨rfl, blank, hblank, by rw [hcs, hskip]⟩
  · obtain rfl := Except.ok.inj hstart
    refine .inr (h.item ?_ hitems)
    rw [← skipBlanks_skipBlanks]
    exact h.value hvalue

/-- An entry after the quotation mark before its key, and those after it. -/
theorem entry {key : String × List Char} {between : Unit × List Char} {v : Value × List Char}
    {es : List (String × Value)} {start lead : List Char} (hlead : Blank lead)
    (hkey : stringRest start = .ok key) (hcolon : colon key.2 = .ok between)
    (hvalue : Json.value fuel depth between.2 = .ok v)
    (hmembers : Json.members fuel depth false v.2 = .ok (es, rest)) :
    ∃ m ms, lead ++ '"' :: start = m.chars ++ following Member.chars ms ++ '\x7d' :: rest ∧
      SpellMembers depth (m :: ms) ((key.1, v.1) :: es) := by
  obtain ⟨s, mid⟩ := key
  obtain ⟨text, d, htext, hspells, hv⟩ := h.value hvalue
  obtain ⟨before, hbefore, hbetween⟩ := exists_blank between.2
  obtain ⟨after, ms, hafter, hmid, hspelled⟩ := h.members hmembers
  obtain ⟨elements, hs, rfl⟩ := stringRest_eq_ok_iff.mp hkey
  obtain ⟨gap, hgap, hmid'⟩ := exists_blank mid
  refine ⟨⟨⟨before, text, after, d, hbefore, hafter⟩, lead, elements, gap, hlead, hgap⟩, ms, ?_,
    List.forall_mem_cons.mpr ⟨hspells, hspelled.spells⟩, ?_⟩
  · have hpoint : skipBlanks mid = ':' :: between.2 := colon_eq_ok hcolon
    rw [hmid', hpoint, hbetween, htext, hmid]
    simp [Member.chars, Item.chars, quotedElements]
  · rw [List.map_cons, mapM_cons_eq_some]
    exact ⟨(s, v.1), es, by simp [keyedValue?, hs, hv], hspelled.values, rfl⟩

theorem members_succ {es : List (String × Value)}
    (hread : Json.members (fuel + 1) depth false cs = .ok (es, rest)) :
    ∃ blank ms, Blank blank ∧ cs = blank ++ following Member.chars ms ++ '\x7d' :: rest ∧
      SpellMembers depth ms es := by
  obtain ⟨blank, hblank, hcs⟩ := exists_blank cs
  obtain ⟨hskip, rfl⟩ | ⟨start, key, between, v, es, hnext, hkey, hcolon, hvalue, hmembers, rfl⟩ :=
    members_succ_eq_ok hread
  · refine ⟨blank, [], hblank, ?_, by simp, by simp⟩
    rw [hcs, hskip]
    simp [following]
  · obtain ⟨after, hcomma, hquote⟩ := nextKey_eq_ok hnext
    obtain ⟨lead, hlead, hafter⟩ := exists_blank after
    obtain ⟨m, ms, hm, hspelled⟩ := h.entry hlead hkey hcolon hvalue hmembers
    refine ⟨blank, m :: ms, hblank, ?_, hspelled⟩
    rw [hcs, hcomma, hafter, hquote, hm]
    simp [following]

theorem allMembers_succ {es : List (String × Value)}
    (hread : Json.members (fuel + 1) depth true cs = .ok (es, rest)) :
    (es = [] ∧ ∃ blank, Blank blank ∧ cs = blank ++ '\x7d' :: rest) ∨
      ∃ m ms, cs = m.chars ++ following Member.chars ms ++ '\x7d' :: rest ∧
        SpellMembers depth (m :: ms) es := by
  obtain ⟨blank, hblank, hcs⟩ := exists_blank cs
  obtain ⟨hskip, rfl⟩ | ⟨start, key, between, v, es, hfirst, hkey, hcolon, hvalue, hmembers, rfl⟩ :=
    members_succ_eq_ok hread
  · exact .inl ⟨rfl, blank, hblank, by rw [hcs, hskip]⟩
  · rw [hcs, firstKey_eq_ok hfirst]
    exact .inr (h.entry hblank hkey hcolon hvalue hmembers)

end SpelledWithin

theorem spelledWithin (fuel : Nat) : SpelledWithin fuel := by
  induction fuel with
  | zero =>
    refine ⟨fun hread ↦ ?_, fun hread ↦ ?_, fun hread ↦ ?_, fun hread ↦ ?_, fun hread ↦ ?_⟩
    · rw [value] at hread
      cases hread
    · rw [items] at hread
      cases hread
    · rw [items] at hread
      cases hread
    · rw [members] at hread
      cases hread
    · rw [members] at hread
      cases hread
  | succ fuel ih =>
    exact ⟨ih.value_succ, ih.items_succ, ih.allItems_succ, ih.members_succ, ih.allMembers_succ⟩

/-! ### What is spelled is read -/

theorem Spells.head {text : List Char} {d : Doc} (h : Spells text d) :
    ∃ c cs, text = c :: cs ∧ BeginsValue c := by
  cases h with
  | null => exact ⟨'n', _, rfl, by decide, by decide⟩
  | bool b =>
    cases b with
    | false => exact ⟨'f', _, rfl, by decide, by decide⟩
    | true => exact ⟨'t', _, rfl, by decide, by decide⟩
  | number n =>
    obtain ⟨c, cs, hcs⟩ := List.exists_cons_of_ne_nil n.whole_whole.digits.1
    have hc : c.isDigit = true := n.whole_whole.digits.2 c (hcs ▸ List.mem_cons_self)
    rw [Numeral.chars, Numeral.unsignedChars, hcs]
    cases n.negative with
    | false => exact ⟨c, _, rfl, beginsValue_of_isDigit hc⟩
    | true => exact ⟨'-', _, rfl, by decide, by decide⟩
  | string es => exact ⟨'"', _, rfl, by decide, by decide⟩
  | emptyArray blank => exact ⟨'[', _, rfl, by decide, by decide⟩
  | array items => exact ⟨'[', _, rfl, by decide, by decide⟩
  | emptyObject blank => exact ⟨'\x7b', _, rfl, by decide, by decide⟩
  | object members => exact ⟨'\x7b', _, rfl, by decide, by decide⟩

theorem endsNumber_blank {blank : List Char} (hblank : Blank blank) (hrest : EndsNumber rest) :
    EndsNumber (blank ++ rest) := by
  cases blank with
  | nil => exact hrest
  | cons c blank =>
    have hc := hblank c List.mem_cons_self
    simp only [isBlank, Bool.or_eq_true, decide_eq_true_eq] at hc
    refine endsNumber_cons ?_ _
    rcases hc with ((rfl | rfl) | rfl) | rfl <;> decide

/-- The text is read for the value of the document, if it has one. -/
def ReadAs (text : List Char) (d : Doc) : Prop :=
  ∀ {depth : Nat} {v : Value} {fuel : Nat} {cs rest : List Char}, d.value? depth = some v →
    skipBlanks cs = text ++ rest → EndsNumber rest → 2 * text.length ≤ fuel →
      value fuel depth cs = .ok (v, rest)

section

variable {fuel depth : Nat}

/-- A text that spells something is not taken for blanks. -/
theorem Spells.skipBlanks_text {text : List Char} {d : Doc} (h : Spells text d)
    (rest : List Char) : skipBlanks (text ++ rest) = text ++ rest := by
  obtain ⟨c, cs, rfl, hc⟩ := h.head
  exact skipBlanks_of_isBlank hc.not_blank _

theorem Item.skipBlanks_chars (i : Item) (h : Spells i.text i.doc) (rest : List Char) :
    skipBlanks (i.chars ++ rest) = i.text ++ (i.after ++ rest) := by
  rw [Item.chars, List.append_assoc, List.append_assoc, skipBlanks_append i.before_blank,
    h.skipBlanks_text]

theorem nextItem_chars_append (i : Item) (h : Spells i.text i.doc) (rest : List Char) :
    nextItem (',' :: (i.chars ++ rest)) = .ok (i.text ++ (i.after ++ rest)) := by
  have hskip := i.skipBlanks_chars h rest
  obtain ⟨c, cs, hcs, hc⟩ := h.head
  rw [hcs] at hskip ⊢
  exact nextItem_of_skipBlanks hskip hc.ne_bracket

/-- An item is read, and those after it. -/
theorem item_followed {i : Item} {v : Value} {vs : List Value} {tail : List Char}
    (hread : ReadAs i.text i.doc) (hv : i.doc.value? depth = some v) (h : Spells i.text i.doc)
    (hends : EndsNumber tail) (hfuel : 2 * i.chars.length ≤ fuel)
    (hitems : items fuel depth false (i.after ++ tail) = .ok (vs, rest)) :
    (value fuel depth (i.text ++ (i.after ++ tail)) >>= fun v ↦
      items fuel depth false v.2 >>= fun vs ↦ .ok (v.1 :: vs.1, vs.2)) = .ok (v :: vs, rest) := by
  have hlength : i.text.length ≤ i.chars.length := by
    simp [Item.chars]
    omega
  have hvalue : value fuel depth (i.text ++ (i.after ++ tail)) = .ok (v, i.after ++ tail) :=
    hread hv (h.skipBlanks_text (i.after ++ tail)) (endsNumber_blank i.after_blank hends) (by omega)
  simp only [hvalue, hitems, bind, Except.bind]

theorem items_following {is : List Item} {vs : List Value}
    (hspelled : SpellItems depth is vs) (hread : ∀ i ∈ is, ReadAs i.text i.doc) {blank : List Char}
    (hblank : Blank blank) (hfuel : 2 * (following Item.chars is).length < fuel) :
    items fuel depth false (blank ++ (following Item.chars is ++ ']' :: rest)) =
      .ok (vs, rest) := by
  obtain ⟨fuel, rfl⟩ : ∃ n, fuel = n + 1 := ⟨fuel - 1, by omega⟩
  induction is generalizing fuel vs blank with
  | nil =>
    obtain rfl : vs = [] := by simpa using hspelled.values.symm
    rw [items, skipBlanks_append hblank, following_nil, skipBlanks_of_isBlank (by decide)]
    rfl
  | cons i is ih =>
    obtain ⟨hi, his⟩ := List.forall_mem_cons.mp hspelled.spells
    obtain ⟨hreadi, hreadis⟩ := List.forall_mem_cons.mp hread
    obtain ⟨v, vs', hv, hvs, rfl⟩ := mapM_cons_eq_some.mp hspelled.values
    rw [length_following_cons] at hfuel
    obtain ⟨fuel, rfl⟩ : ∃ n, fuel = n + 1 := ⟨fuel - 1, by omega⟩
    rw [items_cons (skipBlanks_following_cons _ hblank i is _) (by decide), if_neg (by decide),
      nextItem_chars_append i hi]
    exact item_followed hreadi hv hi (endsNumber_following _ is (by decide) rest) (by omega)
      (ih ⟨his, hvs⟩ hreadis i.after_blank fuel (by omega))

theorem items_chars {i : Item} {is : List Item} {vs : List Value}
    (hspelled : SpellItems depth (i :: is) vs) (hread : ∀ j ∈ i :: is, ReadAs j.text j.doc)
    (hfuel : 2 * (i.chars.length + (following Item.chars is).length) < fuel) :
    items fuel depth true (i.chars ++ (following Item.chars is ++ ']' :: rest)) =
      .ok (vs, rest) := by
  obtain ⟨fuel, rfl⟩ : ∃ n, fuel = n + 1 := ⟨fuel - 1, by omega⟩
  obtain ⟨hi, his⟩ := List.forall_mem_cons.mp hspelled.spells
  obtain ⟨hreadi, hreadis⟩ := List.forall_mem_cons.mp hread
  obtain ⟨v, vs', hv, hvs, rfl⟩ := mapM_cons_eq_some.mp hspelled.values
  have hskip := i.skipBlanks_chars hi (following Item.chars is ++ ']' :: rest)
  obtain ⟨c, cs, hcs, hc⟩ := hi.head
  have hpos : 0 < i.chars.length := by
    rw [Item.chars, hcs, List.length_append, List.length_append, List.length_cons]
    omega
  rw [hcs, List.cons_append] at hskip
  rw [items_cons hskip hc.ne_bracket, if_pos rfl, ← List.cons_append, ← hcs]
  exact item_followed hreadi hv hi (endsNumber_following _ is (by decide) rest) (by omega)
    (items_following ⟨his, hvs⟩ hreadis i.after_blank (by omega))

/-- An entry is read after the quotation mark before its key, and those after it. -/
theorem entry_followed {m : Member} {key : List Char} {v : Value} {es : List (String × Value)}
    {tail : List Char} (hread : ReadAs m.text m.doc) (hkey : Element.text? m.key = some key)
    (hv : m.doc.value? depth = some v) (h : Spells m.text m.doc) (hends : EndsNumber tail)
    (hfuel : 2 * m.chars.length ≤ fuel)
    (hmembers : members fuel depth false (m.after ++ tail) = .ok (es, rest)) :
    (stringRest (m.key.flatMap Element.chars ++
        '"' :: (m.gap ++ ':' :: (m.toItem.chars ++ tail))) >>= fun key ↦
      colon key.2 >>= fun between ↦ value fuel depth between.2 >>= fun v ↦
        members fuel depth false v.2 >>= fun es ↦ .ok ((key.1, v.1) :: es.1, es.2)) =
      .ok ((String.ofList key, v) :: es, rest) := by
  have hstring (after : List Char) : stringRest (m.key.flatMap Element.chars ++ '"' :: after) =
      .ok (String.ofList key, after) :=
    stringRest_eq_ok_iff.mpr ⟨m.key, by rw [hkey, String.toList_ofList], rfl⟩
  have hcolon (after : List Char) : colon (m.gap ++ ':' :: after) = .ok ((), after) := by
    rw [colon, skipBlanks_append m.gap_blank, skipBlanks_of_isBlank (by decide)]
    rfl
  have hlength : m.text.length ≤ m.chars.length := by
    simp [Member.chars, Item.chars]
    omega
  have hvalue : value fuel depth (m.toItem.chars ++ tail) = .ok (v, m.after ++ tail) :=
    hread hv (m.toItem.skipBlanks_chars h tail) (endsNumber_blank m.after_blank hends) (by omega)
  simp only [hstring, hcolon, hvalue, hmembers, bind, Except.bind]

theorem Member.skipBlanks_chars (m : Member) (rest : List Char) :
    skipBlanks (m.chars ++ rest) = '"' :: (m.key.flatMap Element.chars ++
      '"' :: (m.gap ++ ':' :: (m.toItem.chars ++ rest))) := by
  have hchars : m.chars ++ rest = m.lead ++ '"' :: (m.key.flatMap Element.chars ++
      '"' :: (m.gap ++ ':' :: (m.toItem.chars ++ rest))) := by
    simp [Member.chars, quotedElements]
  rw [hchars, skipBlanks_append m.lead_blank, skipBlanks_of_isBlank (by decide)]

theorem keyedValue?_eq_some {m : List Element × Doc} {e : String × Value}
    (he : keyedValue? depth m = some e) : ∃ key v, Element.text? m.1 = some key ∧
      m.2.value? depth = some v ∧ e = (String.ofList key, v) := by
  simp only [keyedValue?, Option.bind_eq_bind, Option.bind_eq_some_iff, Option.pure_def,
    Option.some.injEq] at he
  obtain ⟨key, hkey, v, hv, rfl⟩ := he
  exact ⟨key, v, hkey, hv, rfl⟩

theorem members_following {ms : List Member} {es : List (String × Value)}
    (hspelled : SpellMembers depth ms es) (hread : ∀ m ∈ ms, ReadAs m.text m.doc)
    {blank : List Char} (hblank : Blank blank)
    (hfuel : 2 * (following Member.chars ms).length < fuel) :
    members fuel depth false (blank ++ (following Member.chars ms ++ '\x7d' :: rest)) =
      .ok (es, rest) := by
  obtain ⟨fuel, rfl⟩ : ∃ n, fuel = n + 1 := ⟨fuel - 1, by omega⟩
  induction ms generalizing fuel es blank with
  | nil =>
    obtain rfl : es = [] := by simpa using hspelled.values.symm
    rw [members, skipBlanks_append hblank, following_nil, skipBlanks_of_isBlank (by decide)]
    rfl
  | cons m ms ih =>
    obtain ⟨hm, hms⟩ := List.forall_mem_cons.mp hspelled.spells
    obtain ⟨hreadm, hreadms⟩ := List.forall_mem_cons.mp hread
    obtain ⟨e, es', he, hes, rfl⟩ := mapM_cons_eq_some.mp hspelled.values
    obtain ⟨key, v, hkey, hv, rfl⟩ := keyedValue?_eq_some he
    rw [length_following_cons] at hfuel
    obtain ⟨fuel, rfl⟩ : ∃ n, fuel = n + 1 := ⟨fuel - 1, by omega⟩
    rw [members_cons (skipBlanks_following_cons _ hblank m ms _) (by decide), if_neg (by decide),
      nextKey, m.skipBlanks_chars]
    exact entry_followed hreadm hkey hv hm (endsNumber_following _ ms (by decide) rest) (by omega)
      (ih ⟨hms, hes⟩ hreadms m.after_blank fuel (by omega))

theorem members_chars {m : Member} {ms : List Member} {es : List (String × Value)}
    (hspelled : SpellMembers depth (m :: ms) es) (hread : ∀ n ∈ m :: ms, ReadAs n.text n.doc)
    (hfuel : 2 * (m.chars.length + (following Member.chars ms).length) < fuel) :
    members fuel depth true (m.chars ++ (following Member.chars ms ++ '\x7d' :: rest)) =
      .ok (es, rest) := by
  obtain ⟨fuel, rfl⟩ : ∃ n, fuel = n + 1 := ⟨fuel - 1, by omega⟩
  obtain ⟨hm, hms⟩ := List.forall_mem_cons.mp hspelled.spells
  obtain ⟨hreadm, hreadms⟩ := List.forall_mem_cons.mp hread
  obtain ⟨e, es', he, hes, rfl⟩ := mapM_cons_eq_some.mp hspelled.values
  obtain ⟨key, v, hkey, hv, rfl⟩ := keyedValue?_eq_some he
  have hpos : 0 < m.chars.length := by
    rw [Member.chars, List.length_append, List.length_cons]
    omega
  rw [members_cons (m.skipBlanks_chars _) (by decide), if_pos rfl, firstKey]
  exact entry_followed hreadm hkey hv hm (endsNumber_following _ ms (by decide) rest) (by omega)
    (members_following ⟨hms, hes⟩ hreadms m.after_blank (by omega))

end

/-- There is always fuel for one step, since no text is empty. -/
theorem readAs_of_succ {text : List Char} {d : Doc} (h : Spells text d)
    (hread : ∀ {depth v fuel cs rest}, d.value? depth = some v → skipBlanks cs = text ++ rest →
      EndsNumber rest → 2 * text.length ≤ fuel + 1 → value (fuel + 1) depth cs = .ok (v, rest)) :
    ReadAs text d := by
  intro depth v fuel cs rest hv hcs hrest hfuel
  obtain ⟨c, tail, htext, -⟩ := h.head
  obtain ⟨fuel, rfl⟩ : ∃ n, fuel = n + 1 := ⟨fuel - 1, by simp [htext] at hfuel; omega⟩
  exact hread hv hcs hrest hfuel

theorem readAs_number (n : Numeral) : ReadAs n.chars (.number n) := by
  refine readAs_of_succ (.number n) fun {depth v fuel cs rest} hv hcs hrest _ ↦ ?_
  rw [Doc.value?] at hv
  have hnumber := number_unsignedChars n hrest hv
  rw [Numeral.chars, List.append_assoc] at hcs
  cases hsign : n.negative with
  | true =>
    rw [hsign] at hcs hnumber
    rw [value, hcs]
    exact hnumber
  | false =>
    rw [hsign] at hcs hnumber
    obtain ⟨c, ds, hds⟩ := List.exists_cons_of_ne_nil n.whole_whole.digits.1
    have hc : c.isDigit = true := n.whole_whole.digits.2 c (hds ▸ List.mem_cons_self)
    obtain ⟨tail, htail⟩ : ∃ tail, n.unsignedChars ++ rest = c :: tail := by
      rw [Numeral.unsignedChars, hds]
      exact ⟨_, rfl⟩
    rw [htail] at hnumber hcs
    rw [value_of_isDigit hcs hc]
    exact hnumber

theorem readAs_string (es : List Element) : ReadAs (quotedElements es) (.string es) := by
  refine readAs_of_succ (.string es) fun {depth v fuel cs rest} hv hcs _ _ ↦ ?_
  obtain ⟨s, hs, rfl⟩ : ∃ s, Element.text? es = some s ∧ .string (String.ofList s) = v := by
    simpa [Doc.value?] using hv
  have hstring : stringRest (es.flatMap Element.chars ++ '"' :: rest) =
      .ok (String.ofList s, rest) :=
    stringRest_eq_ok_iff.mpr ⟨es, by rw [hs, String.toList_ofList], rfl⟩
  have hchars : quotedElements es ++ rest = '"' :: (es.flatMap Element.chars ++ '"' :: rest) := by
    simp [quotedElements]
  rw [value, hcs, hchars]
  simp only
  rw [hstring]
  rfl

theorem readAs_array {text : List Char} {items : List Doc}
    (h : Spells ('[' :: text ++ [']']) (.array items))
    (hread : ∀ {depth vs fuel rest}, items.mapM (Doc.value? depth) = some vs →
      2 * text.length < fuel → Json.items fuel depth true (text ++ ']' :: rest) = .ok (vs, rest)) :
    ReadAs ('[' :: text ++ [']']) (.array items) := by
  refine readAs_of_succ h fun {depth v fuel cs rest} hv hcs _ hfuel ↦ ?_
  simp only [List.length_append, List.length_cons, List.length_nil] at hfuel
  cases depth with
  | zero => simp [Doc.value?] at hv
  | succ depth =>
    rw [Doc.value?, Option.map_eq_some_iff] at hv
    obtain ⟨vs, hvs, rfl⟩ := hv
    have hchars : '[' :: text ++ [']'] ++ rest = '[' :: (text ++ ']' :: rest) := by simp
    rw [value, hcs, hchars]
    simp only [Nat.add_one_ne_zero, if_false, Nat.add_sub_cancel]
    rw [hread hvs (by omega)]
    rfl

theorem readAs_object {text : List Char} {members : List (List Element × Doc)}
    (h : Spells ('\x7b' :: text ++ ['\x7d']) (.object members))
    (hread : ∀ {depth es fuel rest}, members.mapM (keyedValue? depth) = some es →
      2 * text.length < fuel →
        Json.members fuel depth true (text ++ '\x7d' :: rest) = .ok (es, rest)) :
    ReadAs ('\x7b' :: text ++ ['\x7d']) (.object members) := by
  refine readAs_of_succ h fun {depth v fuel cs rest} hv hcs _ hfuel ↦ ?_
  simp only [List.length_append, List.length_cons, List.length_nil] at hfuel
  cases depth with
  | zero => simp [Doc.value?] at hv
  | succ depth =>
    rw [Doc.value?, Option.map_eq_some_iff] at hv
    obtain ⟨es, hes, rfl⟩ := hv
    have hchars : '\x7b' :: text ++ ['\x7d'] ++ rest = '\x7b' :: (text ++ '\x7d' :: rest) := by
      simp
    rw [value, hcs, hchars]
    simp only [Nat.add_one_ne_zero, if_false, Nat.add_sub_cancel]
    rw [hread hes (by omega)]
    rfl

/-- Whatever a text spells is read from it. -/
theorem Spells.readAs {text : List Char} {d : Doc} (h : Spells text d) : ReadAs text d := by
  induction h with
  | null =>
    refine readAs_of_succ .null fun {depth v fuel cs rest} hv hcs _ _ ↦ ?_
    obtain rfl : .null = v := by simpa [Doc.value?] using hv
    rw [value, hcs]
    exact ident_eq_ok_iff.mpr ⟨rfl, rfl⟩
  | bool b =>
    refine readAs_of_succ (.bool b) fun {depth v fuel cs rest} hv hcs _ _ ↦ ?_
    obtain rfl : .bool b = v := by simpa [Doc.value?] using hv
    rw [value, hcs]
    cases b with
    | false => exact ident_eq_ok_iff.mpr ⟨rfl, rfl⟩
    | true => exact ident_eq_ok_iff.mpr ⟨rfl, rfl⟩
  | number n => exact readAs_number n
  | string es => exact readAs_string es
  | emptyArray blank hblank =>
    refine readAs_array (.emptyArray blank hblank) fun {depth vs fuel rest} hvs hfuel ↦ ?_
    obtain rfl : vs = [] := by simpa using hvs.symm
    obtain ⟨fuel, rfl⟩ : ∃ n, fuel = n + 1 := ⟨fuel - 1, by omega⟩
    rw [items, skipBlanks_append hblank, skipBlanks_of_isBlank (by decide)]
    rfl
  | array items hne h ih =>
    refine readAs_array (.array items hne h) fun {depth vs fuel rest} hvs hfuel ↦ ?_
    obtain ⟨i, is, rfl⟩ := List.exists_cons_of_ne_nil hne
    rw [intercalate_map_cons, List.length_append] at hfuel
    rw [intercalate_map_cons, List.append_assoc]
    exact items_chars ⟨h, hvs⟩ ih hfuel
  | emptyObject blank hblank =>
    refine readAs_object (.emptyObject blank hblank) fun {depth es fuel rest} hes hfuel ↦ ?_
    obtain rfl : es = [] := by simpa using hes.symm
    obtain ⟨fuel, rfl⟩ : ∃ n, fuel = n + 1 := ⟨fuel - 1, by omega⟩
    rw [members, skipBlanks_append hblank, skipBlanks_of_isBlank (by decide)]
    rfl
  | object members hne h ih =>
    refine readAs_object (.object members hne h) fun {depth es fuel rest} hes hfuel ↦ ?_
    obtain ⟨m, ms, rfl⟩ := List.exists_cons_of_ne_nil hne
    rw [intercalate_map_cons, List.length_append] at hfuel
    rw [intercalate_map_cons, List.append_assoc]
    exact members_chars ⟨h, hes⟩ ih hfuel

/-! ### Documents -/

/-- A text spells a document with the value `v`. -/
def Denotes (text : List Char) (v : Value) : Prop :=
  ∃ d, IsDocument text d ∧ d.value? 127 = some v

/-- A document is a value after which only blanks follow. -/
theorem document_eq_ok_iff_value {text : List Char} {v : Value} : document text = .ok v ↔
    ∃ rest, value (2 * text.length + 2) 127 text = .ok (v, rest) ∧ skipBlanks rest = [] := by
  unfold document
  split
  · rename_i f hread
    simp [hread]
  · rename_i w rest hread
    rw [hread]
    split
    · rename_i hrest
      constructor
      · rintro ⟨⟩
        exact ⟨rest, rfl, hrest⟩
      · rintro ⟨_, ⟨⟩, -⟩
        rfl
    · rename_i hrest
      constructor
      · rintro ⟨⟩
      · rintro ⟨_, ⟨⟩, hnil⟩
        exact absurd hnil hrest

theorem document_eq_ok_iff {text : List Char} {v : Value} :
    document text = .ok v ↔ Denotes text v := by
  rw [document_eq_ok_iff_value]
  constructor
  · rintro ⟨rest, hread, hrest⟩
    obtain ⟨body, d, hbody, hspells, hv⟩ := (spelledWithin _).value hread
    obtain ⟨before, hbefore, htext⟩ := exists_blank text
    obtain ⟨after, hafter, hrest'⟩ := exists_blank rest
    rw [hrest, List.append_nil] at hrest'
    refine ⟨d, ⟨⟨before, body, after, d, hbefore, hafter⟩, ?_, rfl, hspells⟩, hv⟩
    rw [htext, hbody, hrest', Item.chars, List.append_assoc]
  · rintro ⟨d, ⟨i, rfl, rfl, hspells⟩, hv⟩
    refine ⟨i.after, hspells.readAs hv ?_ ?_ ?_, ?_⟩
    · have hskip := i.skipBlanks_chars hspells []
      simpa using hskip
    · have hends : EndsNumber (i.after ++ []) := endsNumber_blank i.after_blank (by rintro _ ⟨⟩)
      simpa using hends
    · simp [Item.chars]
      omega
    · have hskip := skipBlanks_append i.after_blank []
      rwa [List.append_nil] at hskip

/-- A text is read exactly if it spells a document that has a value. -/
theorem read_eq_ok_iff {text : String} {v : Value} :
    Value.read text = .ok v ↔ Denotes text.toList v := by
  rw [← document_eq_ok_iff, Value.read]
  cases document text.toList <;> simp [Except.mapError]

end BundleLink.Json
