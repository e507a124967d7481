import BundleLink.Json.Printer
import BundleLink.Json.Reader
import Mathlib.Data.List.Basic

/-!
Strings and whole numbers read back as they were printed, whatever follows them: every character is
either written as it is or escaped in one of the ways that are read (`stringRest_flatMap`), and
the digits of a number that fits into 64 bits are all taken in (`number_toDigits`).
-/

set_option autoImplicit false

namespace BundleLink.Json

/-! ### Strings -/

theorem hexValue?_hexDigit : ∀ d < 16, hexValue? (hexDigit d) = some d := by
  decide

theorem hexUnit_hexDigit {n : Nat} (hn : n < 0x100) (cs : List Char) :
    hexUnit ('0' :: '0' :: hexDigit (n / 16) :: hexDigit (n % 16) :: cs) = .ok (n, cs) := by
  have hzero : hexValue? '0' = some 0 := by decide
  rw [hexUnit, hzero, hexValue?_hexDigit _ (by omega), hexValue?_hexDigit _ (by omega)]
  simp only [Except.ok.injEq, Prod.mk.injEq, and_true]
  omega

/-- A character is read from what is written for it. -/
theorem stringBody_escapeChar (c : Char) {fuel : Nat} {cs s rest : List Char}
    (hrest : stringBody fuel cs = .ok (s, rest)) :
    stringBody (fuel + 1) (escapeChar c ++ cs) = .ok (c :: s, rest) := by
  have hescape (letter : Char) (hletter : escape (letter :: cs) = .ok (c, cs)) :
      stringBody (fuel + 1) ('\\' :: letter :: cs) = .ok (c :: s, rest) := by
    rw [stringBody, hletter]
    simp only [hrest, bind, Except.bind, pure, Except.pure]
  rw [escapeChar]
  split_ifs with hquote hslash hback hfeed hline hreturn htab hcontrol
  · exact hescape '"' (by rw [hquote]; rfl)
  · exact hescape '\\' (by rw [hslash]; rfl)
  · exact hescape 'b' (by rw [hback]; rfl)
  · exact hescape 'f' (by rw [hfeed]; rfl)
  · exact hescape 'n' (by rw [hline]; rfl)
  · exact hescape 'r' (by rw [hreturn]; rfl)
  · exact hescape 't' (by rw [htab]; rfl)
  · have hunit := hexUnit_hexDigit (n := c.toNat) (by omega) cs
    have hread : escape ('u' :: '0' :: '0' :: hexDigit (c.toNat / 16) ::
        hexDigit (c.toNat % 16) :: cs) = .ok (c, cs) := by
      rw [escape, unicodeEscape, hunit]
      simp only [bind, Except.bind, pure, Except.pure]
      rw [if_neg (by omega), if_pos (by omega), Char.ofNat_toNat]
    rw [List.cons_append, List.cons_append, stringBody]
    simp only [List.cons_append, List.nil_append, hread, hrest, bind, Except.bind, pure,
      Except.pure]
  · rw [List.singleton_append, stringBody, if_neg hcontrol, hrest]
    · rfl
    · exact hquote
    · exact hslash

theorem stringBody_flatMap (s : List Char) {fuel : Nat} (hfuel : s.length < fuel)
    (rest : List Char) :
    stringBody fuel (s.flatMap escapeChar ++ '"' :: rest) = .ok (s, rest) := by
  induction s generalizing fuel with
  | nil =>
    obtain ⟨fuel, rfl⟩ := Nat.exists_eq_add_of_lt hfuel
    simp [stringBody]
  | cons c s ih =>
    cases fuel with
    | zero => simp at hfuel
    | succ fuel =>
      rw [List.flatMap_cons, List.append_assoc]
      exact stringBody_escapeChar c (ih (by simpa using hfuel))

theorem escapeChar_ne_nil (c : Char) : escapeChar c ≠ [] := by
  rw [escapeChar]
  split_ifs <;> simp

theorem length_le_flatMap_escapeChar (s : List Char) :
    s.length ≤ (s.flatMap escapeChar).length := by
  induction s with
  | nil => simp
  | cons c s ih =>
    have hpos := List.length_pos_iff.mpr (escapeChar_ne_nil c)
    rw [List.flatMap_cons, List.length_append, List.length_cons]
    omega

/-- A string is read from what is written for it. -/
theorem stringRest_flatMap (s : String) (rest : List Char) :
    stringRest (s.toList.flatMap escapeChar ++ '"' :: rest) = .ok (s, rest) := by
  have hlength := length_le_flatMap_escapeChar s.toList
  have hfuel : s.toList.length < (s.toList.flatMap escapeChar ++ '"' :: rest).length + 1 := by
    rw [List.length_append, List.length_cons]
    omega
  rw [stringRest, stringBody_flatMap s.toList hfuel]
  simp [bind, Except.bind, pure, Except.pure]

/-! ### Whole numbers -/

theorem intake_append {m k : Nat} {ds : List Char} (hds : intake m ds = (k, []))
    (es : List Char) : intake m (ds ++ es) = intake k es := by
  induction ds generalizing m with
  | nil =>
    rw [intake] at hds
    rw [List.nil_append, (Prod.mk.inj hds).1]
  | cons d ds ih =>
    rw [intake] at hds
    rw [List.cons_append, intake]
    split_ifs at hds ⊢ with hover
    · cases (Prod.mk.inj hds).2
    · exact ih hds

theorem intake_toDigits {n : Nat} (hn : n ≤ maxUnsigned) :
    intake 0 (Nat.toDigits 10 n) = (n, []) := by
  have hdigit (k : Nat) (hk : k < 10) : digit k.digitChar = k :=
    Nat.toNat_digitChar_sub_48_of_lt_ten hk
  induction n using Nat.strongRecOn with
  | ind n ih =>
    rcases Nat.lt_or_ge n 10 with hlt | hge
    · rw [Nat.toDigits_of_lt_base hlt, intake]
      simp only [hdigit n hlt, Nat.zero_mul, Nat.zero_add]
      rw [if_neg (by omega), intake]
    · rw [Nat.toDigits_of_base_le (by omega) hge,
        intake_append (ih (n / 10) (by omega) (by omega)), intake]
      have hnext : n / 10 * 10 + digit (n % 10).digitChar = n := by
        rw [hdigit _ (Nat.mod_lt n (by omega))]
        omega
      simp only [hnext]
      rw [if_neg (by omega), intake]

/-- A number has no idle zero in front. -/
theorem toDigits_eq_cons (n : Nat) : ∃ c ds, Nat.toDigits 10 n = c :: ds ∧ c.isDigit = true ∧
    (∀ d ∈ ds, d.isDigit = true) ∧ (c = '0' → ds = []) := by
  have hdigits {c : Char} {n : Nat} (hc : c ∈ Nat.toDigits 10 n) : c.isDigit = true :=
    Nat.isDigit_of_mem_toDigits (by omega) (by omega) hc
  suffices hhead : ∃ c ds, Nat.toDigits 10 n = c :: ds ∧ (c = '0' → n = 0) by
    obtain ⟨c, ds, heq, hzero⟩ := hhead
    refine ⟨c, ds, heq, hdigits (heq ▸ List.mem_cons_self),
      fun d hd ↦ hdigits (heq ▸ List.mem_cons_of_mem c hd), fun hc ↦ ?_⟩
    rw [hzero hc] at heq
    exact (List.cons.inj heq).2.symm
  induction n using Nat.strongRecOn with
  | ind n ih =>
    rcases Nat.lt_or_ge n 10 with hlt | hge
    · exact ⟨n.digitChar, [], Nat.toDigits_of_lt_base hlt, Nat.digitChar_eq_zero.mp⟩
    · obtain ⟨c, ds, heq, hzero⟩ := ih (n / 10) (by omega)
      refine ⟨c, ds ++ [(n % 10).digitChar], ?_, fun hc ↦ ?_⟩
      · rw [Nat.toDigits_of_base_le (by omega) hge, heq]
        rfl
      · have htenth := hzero hc
        omega

/-- What can follow a number without being read as a part of it. -/
def EndsNumber (rest : List Char) : Prop :=
  ∀ c ∈ rest.head?, c.isDigit = false ∧ c ≠ '.' ∧ isExponentMark c = false

theorem number_toDigits (negative : Bool) {n : Nat} (hn : n ≤ maxUnsigned) {rest : List Char}
    (hrest : EndsNumber rest) :
    number negative (Nat.toDigits 10 n ++ rest) = wholeResult negative n rest := by
  obtain ⟨c, ds, heq, hc, hds, hzero⟩ := toDigits_eq_cons n
  have hall : ∀ d ∈ c :: ds, d.isDigit = true := by
    intro d hd
    rcases List.mem_cons.mp hd with rfl | hd
    · exact hc
    · exact hds d hd
  have hstop : rest.takeWhile Char.isDigit = [] ∧ rest.dropWhile Char.isDigit = rest := by
    cases rest with
    | nil => exact ⟨rfl, rfl⟩
    | cons d rest => simp [(hrest d rfl).1]
  have htake : (c :: (ds ++ rest)).takeWhile Char.isDigit = Nat.toDigits 10 n := by
    rw [← List.cons_append, List.takeWhile_append_of_pos hall, hstop.1, List.append_nil, heq]
  have hdrop : (c :: (ds ++ rest)).dropWhile Char.isDigit = rest := by
    rw [← List.cons_append, List.dropWhile_append_of_pos hall, hstop.2]
  have hlead : ¬(c = '0' ∧ (ds ++ rest).head?.any Char.isDigit = true) := by
    rintro ⟨hc, hnext⟩
    rw [hzero hc, List.nil_append] at hnext
    cases rest with
    | nil => simp at hnext
    | cons d rest => simp [(hrest d rfl).1] at hnext
  rw [heq, List.cons_append, number]
  simp only [hc, Bool.not_true, Bool.false_eq_true, if_false, if_neg hlead, htake, hdrop,
    intake_toDigits hn]
  cases rest with
  | nil => rfl
  | cons d rest =>
    obtain ⟨-, hpoint, hmark⟩ := hrest d rfl
    split
    · rename_i hhead
      exact absurd (List.cons.inj hhead).1 hpoint
    · simp [hmark]

end BundleLink.Json
