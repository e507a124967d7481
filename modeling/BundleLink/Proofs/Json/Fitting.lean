import BundleLink.Json.Reader
import BundleLink.Proofs.Basic
import BundleLink.Proofs.Json.Entries
import Mathlib.Algebra.Group.Int.Defs

/-!
The values that a document can hold. Their numbers fit into 64 bits, their containers are nested no
deeper than a reader goes, and no key is repeated (`Fits`). Whatever has been read is such a value,
unless one of its numbers is no whole one (`fits_of_read`).
-/

set_option autoImplicit false

namespace BundleLink.Json

/-- A value all numbers in which are whole and fit into 64 bits. -/
inductive Value.Integral : Value → Prop
  | null : Value.Integral .null
  | bool (b : Bool) : Value.Integral (.bool b)
  | int (n : Int) : Value.Integral (.int n)
  | string (s : String) : Value.Integral (.string s)
  | array (vs : List Value) : (∀ v ∈ vs, v.Integral) → Value.Integral (.array vs)
  | object (es : Entries) : (∀ e ∈ es, e.2.Integral) → Value.Integral (.object es)

/-- A value that can be read inside containers of which so many more may be opened. -/
inductive Value.Fits : Nat → Value → Prop
  | null (depth : Nat) : Value.Fits depth .null
  | bool (depth : Nat) (b : Bool) : Value.Fits depth (.bool b)
  | int (depth : Nat) (n : Int) : -2 ^ 63 ≤ n → n < 2 ^ 64 → Value.Fits depth (.int n)
  | string (depth : Nat) (s : String) : Value.Fits depth (.string s)
  | array (depth : Nat) (vs : List Value) : (∀ v ∈ vs, v.Fits depth) →
      Value.Fits (depth + 1) (.array vs)
  | object (depth : Nat) (es : Entries) : (es.map Prod.fst).Nodup → (∀ e ∈ es, e.2.Fits depth) →
      Value.Fits (depth + 1) (.object es)

/-! ### Numbers -/

theorem fits_of_realResult {negative : Bool} {significand : Nat} {exp : Int} {cs rest : List Char}
    {v : Value} (hread : realResult negative significand exp cs = .ok (v, rest))
    (hv : v.Integral) (depth : Nat) : v.Fits depth := by
  rw [realResult] at hread
  split at hread
  · cases hread
    cases hv
  · cases hread

theorem fits_of_exponentPart {negative : Bool} {significand : Nat} {exp : Int}
    {cs rest : List Char} {v : Value}
    (hread : exponentPart negative significand exp cs = .ok (v, rest)) (hv : v.Integral)
    (depth : Nat) : v.Fits depth := by
  unfold exponentPart at hread
  split at hread
  rename_i down digits _
  cases digits with
  | nil => cases hread
  | cons c digits =>
    by_cases hdigit : c.isDigit
    · simp only [hdigit, Bool.not_true, Bool.false_eq_true, if_false] at hread
      split at hread
      · exact fits_of_realResult hread hv depth
      · split_ifs at hread
        · cases hread
        · cases hread
          cases hv
    · simp [hdigit, fault] at hread

theorem fits_of_fractionPart {negative : Bool} {significand : Nat} {exp : Int}
    {cs rest : List Char} {v : Value}
    (hread : fractionPart negative significand exp cs = .ok (v, rest)) (hv : v.Integral)
    (depth : Nat) : v.Fits depth := by
  rw [fractionPart] at hread
  simp only at hread
  split_ifs at hread
  · cases hread
  · cases hread
  · split at hread
    · split_ifs at hread
      · exact fits_of_exponentPart hread hv depth
      · exact fits_of_realResult hread hv depth
    · exact fits_of_realResult hread hv depth

theorem intake_le {m : Nat} (hm : m ≤ maxUnsigned) (cs : List Char) :
    (intake m cs).1 ≤ maxUnsigned := by
  induction cs generalizing m with
  | nil => exact hm
  | cons c cs ih =>
    rw [intake]
    split_ifs with hnext
    · exact hm
    · exact ih (by omega)

theorem fits_of_wholeResult {negative : Bool} {significand : Nat}
    (hsignificand : significand ≤ maxUnsigned) {cs rest : List Char} {v : Value}
    (hread : wholeResult negative significand cs = .ok (v, rest)) (hv : v.Integral)
    (depth : Nat) : v.Fits depth := by
  rw [maxUnsigned, UInt64.size] at hsignificand
  rw [wholeResult, UInt64.size] at hread
  split_ifs at hread with hsign hrange
  · cases hread
    exact .int depth _ (by omega) (by omega)
  · exact fits_of_realResult hread hv depth
  · cases hread
    exact .int depth _ (by omega) (by omega)

theorem fits_of_number {negative : Bool} {cs rest : List Char} {v : Value}
    (hread : number negative cs = .ok (v, rest)) (hv : v.Integral) (depth : Nat) :
    v.Fits depth := by
  unfold number at hread
  split at hread
  · cases hread
  · rename_i c after
    have hle := intake_le (Nat.zero_le maxUnsigned) ((c :: after).takeWhile Char.isDigit)
    split_ifs at hread
    · cases hread
    · cases hread
    · simp only at hread
      split at hread
      · exact fits_of_fractionPart hread hv depth
      · split at hread
        · split_ifs at hread
          · exact fits_of_exponentPart hread hv depth
          · exact fits_of_wholeResult hle hread hv depth
          · exact fits_of_realResult hread hv depth
        · split_ifs at hread
          · exact fits_of_wholeResult hle hread hv depth
          · exact fits_of_realResult hread hv depth

/-! ### Containers -/

theorem fits_of_ident {word : List Char} {w v : Value} {cs rest : List Char}
    (hread : ident word w cs = .ok (v, rest)) : v = w := by
  induction word generalizing cs with
  | nil =>
    rw [ident] at hread
    cases hread
    rfl
  | cons c word ih =>
    cases cs with
    | nil => cases hread
    | cons d cs =>
      rw [ident] at hread
      split_ifs at hread
      · exact ih hread
      · cases hread

/-- An item is read after what must stand in front of it. -/
theorem items_cons {first : Bool} {cs after : List Char} {c : Char}
    (hcs : skipBlanks cs = c :: after) (hc : c ≠ ']') (fuel depth : Nat) :
    items (fuel + 1) depth first cs =
      (if first then .ok (c :: after) else nextItem (c :: after)) >>= fun start ↦
        value fuel depth start >>= fun v ↦
          items fuel depth false v.2 >>= fun vs ↦ .ok (v.1 :: vs.1, vs.2) := by
  rw [items, hcs]
  split
  · rename_i hnil
    cases hnil
  · rename_i hbracket
    exact absurd (List.cons.inj hbracket).1 hc
  · cases first <;> rfl

/-- An entry is read after what must stand in front of it. -/
theorem members_cons {first : Bool} {cs after : List Char} {c : Char}
    (hcs : skipBlanks cs = c :: after) (hc : c ≠ '\x7d') (fuel depth : Nat) :
    members (fuel + 1) depth first cs =
      (if first then firstKey (c :: after) else nextKey (c :: after)) >>= fun start ↦
        stringRest start >>= fun key ↦ colon key.2 >>= fun between ↦
          value fuel depth between.2 >>= fun v ↦
            members fuel depth false v.2 >>= fun es ↦ .ok ((key.1, v.1) :: es.1, es.2) := by
  rw [members, hcs]
  split
  · rename_i hnil
    cases hnil
  · rename_i hbrace
    exact absurd (List.cons.inj hbrace).1 hc
  · cases first <;> rfl

/-- A list that is read ends at once, or goes on with an item and those after it. -/
theorem items_succ_eq_ok {first : Bool} {fuel depth : Nat} {cs rest : List Char} {vs : List Value}
    (hread : items (fuel + 1) depth first cs = .ok (vs, rest)) :
    (skipBlanks cs = ']' :: rest ∧ vs = []) ∨
      ∃ start v vs', (if first then .ok (skipBlanks cs) else nextItem (skipBlanks cs)) = .ok start ∧
        value fuel depth start = .ok v ∧ items fuel depth false v.2 = .ok (vs', rest) ∧
        vs = v.1 :: vs' := by
  cases hskip : skipBlanks cs with
  | nil =>
    rw [items, hskip] at hread
    cases hread
  | cons c after =>
    by_cases hc : c = ']'
    · rw [items, hskip, hc] at hread
      cases hread
      exact .inl ⟨by rw [hc], rfl⟩
    · rw [items_cons hskip hc] at hread
      obtain ⟨start, hstart, hread⟩ := bind_eq_ok.mp hread
      obtain ⟨v, hvalue, hread⟩ := bind_eq_ok.mp hread
      obtain ⟨vs', hitems, hread⟩ := bind_eq_ok.mp hread
      cases hread
      exact .inr ⟨start, v, vs'.1, hstart, hvalue, hitems, rfl⟩

/-- Entries that are read end at once, or go on with an entry and those after it. -/
theorem members_succ_eq_ok {first : Bool} {fuel depth : Nat} {cs rest : List Char}
    {es : List (String × Value)}
    (hread : members (fuel + 1) depth first cs = .ok (es, rest)) :
    (skipBlanks cs = '\x7d' :: rest ∧ es = []) ∨
      ∃ start key between v es',
        (if first then firstKey (skipBlanks cs) else nextKey (skipBlanks cs)) = .ok start ∧
        stringRest start = .ok key ∧ colon key.2 = .ok between ∧
        value fuel depth between.2 = .ok v ∧ members fuel depth false v.2 = .ok (es', rest) ∧
        es = (key.1, v.1) :: es' := by
  cases hskip : skipBlanks cs with
  | nil =>
    rw [members, hskip] at hread
    cases hread
  | cons c after =>
    by_cases hc : c = '\x7d'
    · rw [members, hskip, hc] at hread
      cases hread
      exact .inl ⟨by rw [hc], rfl⟩
    · rw [members_cons hskip hc] at hread
      obtain ⟨start, hstart, hread⟩ := bind_eq_ok.mp hread
      obtain ⟨key, hkey, hread⟩ := bind_eq_ok.mp hread
      obtain ⟨between, hcolon, hread⟩ := bind_eq_ok.mp hread
      obtain ⟨v, hvalue, hread⟩ := bind_eq_ok.mp hread
      obtain ⟨es', hmembers, hread⟩ := bind_eq_ok.mp hread
      cases hread
      exact .inr ⟨start, key, between, v, es'.1, hstart, hkey, hcolon, hvalue, hmembers, rfl⟩

/-- What is read with so much fuel fits. -/
structure FitsWithin (fuel : Nat) : Prop where
  value : ∀ {depth cs v rest}, value fuel depth cs = .ok (v, rest) → v.Integral → v.Fits depth
  items : ∀ {depth first cs vs rest}, items fuel depth first cs = .ok (vs, rest) →
    ∀ v ∈ vs, v.Integral → v.Fits depth
  members : ∀ {depth first cs es rest}, members fuel depth first cs = .ok (es, rest) →
    ∀ e ∈ es, e.2.Integral → e.2.Fits depth

namespace FitsWithin

variable {fuel : Nat} (h : FitsWithin fuel) {depth : Nat} {cs rest : List Char}

include h

theorem value_succ {v : Value} (hread : Json.value (fuel + 1) depth cs = .ok (v, rest))
    (hv : v.Integral) : v.Fits depth := by
  rw [Json.value] at hread
  split at hread
  · cases hread
  · exact fits_of_ident hread ▸ .null depth
  · exact fits_of_ident hread ▸ .bool depth true
  · exact fits_of_ident hread ▸ .bool depth false
  · exact fits_of_number hread hv depth
  · obtain ⟨⟨s, after⟩, -, hstring⟩ := bind_eq_ok.mp hread
    cases hstring
    exact .string depth s
  · split_ifs at hread with hdepth
    · cases hread
    · obtain ⟨⟨vs, after⟩, hitems, harray⟩ := bind_eq_ok.mp hread
      cases harray
      obtain ⟨depth, rfl⟩ := Nat.exists_eq_succ_of_ne_zero hdepth
      cases hv with
      | array _ hall => exact .array depth vs fun v hmem ↦ h.items hitems v hmem (hall v hmem)
  · split_ifs at hread with hdepth
    · cases hread
    · obtain ⟨⟨es, after⟩, hmembers, hobject⟩ := bind_eq_ok.mp hread
      cases hobject
      obtain ⟨depth, rfl⟩ := Nat.exists_eq_succ_of_ne_zero hdepth
      cases hv with
      | object _ hall =>
        refine .object depth _ (Entries.nodup_ofList es) fun e hmem ↦ ?_
        exact h.members hmembers e (Entries.mem_of_mem_ofList hmem) (hall e hmem)
  · split_ifs at hread
    · exact fits_of_number hread hv depth
    · cases hread

theorem items_succ {first : Bool} {vs : List Value}
    (hread : Json.items (fuel + 1) depth first cs = .ok (vs, rest)) :
    ∀ v ∈ vs, v.Integral → v.Fits depth := by
  obtain ⟨-, rfl⟩ | ⟨start, w, ws, -, hvalue, hitems, rfl⟩ := items_succ_eq_ok hread
  · simp
  · intro v hmem hv
    rcases List.mem_cons.mp hmem with rfl | hmem
    · exact h.value hvalue hv
    · exact h.items hitems v hmem hv

theorem members_succ {first : Bool} {es : List (String × Value)}
    (hread : Json.members (fuel + 1) depth first cs = .ok (es, rest)) :
    ∀ e ∈ es, e.2.Integral → e.2.Fits depth := by
  obtain ⟨-, rfl⟩ | ⟨start, key, between, w, ws, -, -, -, hvalue, hmembers, rfl⟩ :=
    members_succ_eq_ok hread
  · simp
  · intro e hmem he
    rcases List.mem_cons.mp hmem with rfl | hmem
    · exact h.value hvalue he
    · exact h.members hmembers e hmem he

end FitsWithin

theorem fitsWithin (fuel : Nat) : FitsWithin fuel := by
  induction fuel with
  | zero =>
    refine ⟨fun hread ↦ ?_, fun hread ↦ ?_, fun hread ↦ ?_⟩
    · rw [value] at hread
      cases hread
    · rw [items] at hread
      cases hread
    · rw [members] at hread
      cases hread
  | succ fuel ih => exact ⟨ih.value_succ, ih.items_succ, ih.members_succ⟩

/-- What was read from a document can be read from one. -/
theorem fits_of_read {text : String} {v : Value} (hread : Value.read text = .ok v)
    (hv : v.Integral) : v.Fits 127 := by
  rw [Value.read, document] at hread
  cases hvalue : value (2 * text.toList.length + 2) 127 text.toList with
  | error f => simp [hvalue, Except.mapError] at hread
  | ok result =>
    obtain ⟨w, rest⟩ := result
    simp only [hvalue] at hread
    split at hread
    · cases hread
      exact (fitsWithin _).value hvalue hv
    · cases hread

end BundleLink.Json
