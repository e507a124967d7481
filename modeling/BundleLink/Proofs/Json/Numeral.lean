import BundleLink.Proofs.Json.Grammar
import BundleLink.Proofs.Json.Scalar
import Mathlib.Data.List.TakeWhile

/-!
Numbers are read as the grammar has them. What a reader of digits takes is a longest run of them, so
each part of a number ends where the grammar lets it end. A number that is read is a numeral with
the value that was read (`numeral_of_number`), and every numeral with a value is read when nothing
follows that could belong to it (`number_unsignedChars`).
-/

set_option autoImplicit false

namespace BundleLink.Json

/-! ### Runs of digits -/

/-- No digit follows. -/
def EndsDigits (rest : List Char) : Prop :=
  ∀ c ∈ rest.head?, c.isDigit = false

theorem takeWhile_isDigit {ds rest : List Char} (hds : ∀ d ∈ ds, d.isDigit = true)
    (hrest : EndsDigits rest) : (ds ++ rest).takeWhile Char.isDigit = ds := by
  rw [List.takeWhile_append_of_pos hds]
  cases rest with
  | nil => simp
  | cons c rest => simp [hrest c rfl]

theorem dropWhile_isDigit {ds rest : List Char} (hds : ∀ d ∈ ds, d.isDigit = true)
    (hrest : EndsDigits rest) : (ds ++ rest).dropWhile Char.isDigit = rest := by
  rw [List.dropWhile_append_of_pos hds]
  cases rest with
  | nil => rfl
  | cons c rest => simp [hrest c rfl]

theorem endsDigits_dropWhile (cs : List Char) : EndsDigits (cs.dropWhile Char.isDigit) := by
  intro c hc
  have hnot := List.head?_dropWhile_not Char.isDigit cs
  rw [Option.mem_def.mp hc] at hnot
  simpa using hnot

/-- The digits of an exponent are all taken; once it is too large, those that are left are passed.
-/
theorem exponentDigits_append {ds rest : List Char} (hds : ∀ d ∈ ds, d.isDigit = true)
    (hrest : EndsDigits rest) (k : Nat) :
    (∃ e, (exponentDigits k ds).1 = some e ∧ exponentDigits k (ds ++ rest) = (some e, rest)) ∨
      (exponentDigits k ds).1 = none ∧ ∃ left, exponentDigits k (ds ++ rest) = (none, left) ∧
        left.dropWhile Char.isDigit = rest := by
  induction ds generalizing k with
  | nil =>
    refine .inl ⟨k, rfl, ?_⟩
    cases rest with
    | nil => rfl
    | cons c rest => simp [exponentDigits, hrest c rfl]
  | cons d ds ih =>
    obtain ⟨hd, hds⟩ := List.forall_mem_cons.mp hds
    rw [List.cons_append, exponentDigits, exponentDigits, if_pos hd, if_pos hd]
    split_ifs
    · exact .inr ⟨rfl, _, rfl, dropWhile_isDigit hds hrest⟩
    · exact ih hds _

/-! ### Results -/

variable {negative : Bool} {significand : Nat} {exp : Int} {cs rest : List Char} {v : Value}

theorem realResult_eq_ok : realResult negative significand exp cs = .ok (v, rest) ↔
    realValue? negative significand exp = some v ∧ rest = cs := by
  rw [realResult, realValue?]
  cases scaled? significand exp with
  | none => simp [fault]
  | some x => simp [eq_comm]

theorem wholeResult_eq_ok : wholeResult negative significand cs = .ok (v, rest) ↔
    wholeValue? negative significand = some v ∧ rest = cs := by
  rw [wholeResult, wholeValue?]
  split_ifs
  · simp [eq_comm]
  · exact realResult_eq_ok
  · simp [eq_comm]

/-! ### Exponents -/

theorem exponentPart_cons {sign : List Char} (hsign : sign ∈ [[], ['+'], ['-']]) {d : Char}
    (hd : d.isDigit = true) (tail : List Char) :
    exponentPart negative significand exp (sign ++ d :: tail) =
      match exponentDigits 0 (d :: tail) with
      | (some k, rest) =>
        realResult negative significand (if sign = ['-'] then exp - k else exp + k) rest
      | (none, rest) =>
        if significand ≠ 0 ∧ sign ≠ ['-'] then fault .numberOutOfRange rest 0
        else .ok (.real negative .zero, rest.dropWhile Char.isDigit) := by
  have hplus : d ≠ '+' := by
    rintro rfl
    exact absurd hd (by decide)
  have hminus : d ≠ '-' := by
    rintro rfl
    exact absurd hd (by decide)
  simp only [List.mem_cons, List.not_mem_nil, or_false] at hsign
  rcases hsign with rfl | rfl | rfl
  · unfold exponentPart
    split
    rename_i down cs hsplit
    split at hsplit
    · rename_i heq
      exact absurd (List.cons.inj heq).1 hplus
    · rename_i heq
      exact absurd (List.cons.inj heq).1 hminus
    · cases hsplit
      rcases hread : exponentDigits 0 (d :: tail) with ⟨_ | k, left⟩ <;>
      simp [hd, hread]
  · rcases hread : exponentDigits 0 (d :: tail) with ⟨_ | k, left⟩ <;>
    simp [exponentPart, hd, hread]
  · rcases hread : exponentDigits 0 (d :: tail) with ⟨_ | k, left⟩ <;>
    simp [exponentPart, hd, hread]

/-- An exponent is read from its sign on. -/
theorem exponentPart_append (e : Exponent) {after : List Char} (hafter : EndsDigits after) :
    exponentPart negative significand exp (e.sign ++ e.digits ++ after) = .ok (v, rest) ↔
      e.value? negative significand exp = some v ∧ rest = after := by
  obtain ⟨d, ds, hdigits⟩ := List.exists_cons_of_ne_nil e.digits_digits.1
  have hd : d.isDigit = true := e.digits_digits.2 d (hdigits ▸ List.mem_cons_self)
  rw [hdigits, List.append_assoc, List.cons_append, exponentPart_cons e.sign_mem hd,
    ← List.cons_append, ← hdigits, Exponent.value?]
  obtain ⟨k, hk, hread⟩ | ⟨hnone, left, hread, hleft⟩ :=
    exponentDigits_append e.digits_digits.2 hafter 0
  · rw [hread, hk]
    simp [realResult_eq_ok]
  · rw [hread, hnone]
    simp only
    split_ifs
    · simp [fault]
    · simp [hleft, eq_comm]

/-- A sign or none, and a digit. -/
theorem exists_sign_of_exponentPart
    (hread : exponentPart negative significand exp cs = .ok (v, rest)) :
    ∃ sign d tail, sign ∈ [[], ['+'], ['-']] ∧ d.isDigit = true ∧ cs = sign ++ d :: tail := by
  unfold exponentPart at hread
  split at hread
  rename_i down tail hsplit
  obtain ⟨sign, hsign, rfl⟩ : ∃ sign, sign ∈ [[], ['+'], ['-']] ∧ cs = sign ++ tail := by
    split at hsplit <;> cases hsplit
    · exact ⟨['+'], by simp, rfl⟩
    · exact ⟨['-'], by simp, rfl⟩
    · exact ⟨[], by simp, rfl⟩
  cases tail with
  | nil => cases hread
  | cons d tail =>
    by_cases hd : d.isDigit
    · exact ⟨sign, d, tail, hsign, hd, rfl⟩
    · simp [hd, fault] at hread

/-- What is read as an exponent is one. -/
theorem exists_exponent {mark : Char} (hmark : isExponentMark mark = true)
    (hread : exponentPart negative significand exp cs = .ok (v, rest)) :
    ∃ e : Exponent, mark :: cs = e.chars ++ rest ∧ e.value? negative significand exp = some v := by
  obtain ⟨sign, d, tail, hsign, hd, rfl⟩ := exists_sign_of_exponentPart hread
  have hdigits : Digits ((d :: tail).takeWhile Char.isDigit) :=
    ⟨by simp [hd], fun _ ↦ List.mem_takeWhile_imp⟩
  let e : Exponent := ⟨mark, sign, _, hmark, hsign, hdigits⟩
  have hcs : sign ++ d :: tail = e.sign ++ e.digits ++ (d :: tail).dropWhile Char.isDigit := by
    rw [List.append_assoc, List.takeWhile_append_dropWhile]
  rw [hcs] at hread ⊢
  obtain ⟨hvalue, rfl⟩ := (exponentPart_append e (endsDigits_dropWhile _)).mp hread
  exact ⟨e, by simp [Exponent.chars, e], hvalue⟩

/-! ### Numerals -/

/-- What comes after digits: an exponent, or else the result is `plain`. -/
def afterDigits (negative : Bool) (significand : Nat) (exp : Int)
    (plain : Except Fault (Reading Value)) (cs : List Char) : Except Fault (Reading Value) :=
  match cs with
  | c :: after => if isExponentMark c then exponentPart negative significand exp after else plain
  | [] => plain

theorem exists_of_afterDigits {plain : Except Fault (Reading Value)}
    (hread : afterDigits negative significand exp plain cs = .ok (v, rest)) :
    (∃ e : Exponent, cs = e.chars ++ rest ∧ e.value? negative significand exp = some v) ∨
      plain = .ok (v, rest) := by
  unfold afterDigits at hread
  split at hread
  · split_ifs at hread with hmark
    · exact .inl (exists_exponent hmark hread)
    · exact .inr hread
  · exact .inr hread

theorem afterDigits_exponent (e : Exponent) {plain : Except Fault (Reading Value)}
    (hrest : EndsNumber rest) (hv : e.value? negative significand exp = some v) :
    afterDigits negative significand exp plain (e.chars ++ rest) = .ok (v, rest) := by
  have hends : EndsDigits rest := fun c hc ↦ (hrest c hc).1
  rw [Exponent.chars, List.cons_append, List.cons_append, afterDigits, if_pos e.mark_eq]
  exact (exponentPart_append e hends).mpr ⟨hv, rfl⟩

theorem afterDigits_plain {plain : Except Fault (Reading Value)} (hrest : EndsNumber rest) :
    afterDigits negative significand exp plain rest = plain := by
  cases rest with
  | nil => rfl
  | cons c rest => simp [afterDigits, (hrest c rfl).2.2]

/-- Neither a digit nor a point follows where an exponent can stand. -/
theorem ends_exponent (e : Option Exponent) (hrest : EndsNumber rest) :
    ∀ c ∈ ((e.map Exponent.chars).getD [] ++ rest).head?, c.isDigit = false ∧ c ≠ '.' := by
  cases e with
  | none => exact fun c hc ↦ ⟨(hrest c hc).1, (hrest c hc).2.1⟩
  | some e =>
    rintro c ⟨⟩
    have hmark := e.mark_eq
    rw [isExponentMark, Bool.or_eq_true, decide_eq_true_eq, decide_eq_true_eq] at hmark
    rcases hmark with hmark | hmark <;> rw [hmark] <;> decide

theorem fractionPart_eq (hds : Digits (cs.takeWhile Char.isDigit)) :
    fractionPart negative significand exp cs =
      let taken := intake significand (cs.takeWhile Char.isDigit)
      let exp := exp - ((cs.takeWhile Char.isDigit).length - taken.2.length : Nat)
      afterDigits negative taken.1 exp
        (realResult negative taken.1 exp (cs.dropWhile Char.isDigit))
        (cs.dropWhile Char.isDigit) := by
  unfold fractionPart afterDigits
  cases cs.dropWhile Char.isDigit <;> simp only [List.isEmpty_iff, hds.1, if_false]

/-- What is read as a fraction is one. -/
theorem exists_fraction (hread : fractionPart negative significand exp cs = .ok (v, rest)) :
    ∃ ds e, Digits ds ∧ cs = ds ++ (e.map Exponent.chars).getD [] ++ rest ∧
      exponentValue? e negative (intake significand ds).1
        (exp - (ds.length - (intake significand ds).2.length : Nat))
        (realValue? negative (intake significand ds).1
          (exp - (ds.length - (intake significand ds).2.length : Nat))) = some v := by
  have hds : Digits (cs.takeWhile Char.isDigit) := by
    refine ⟨fun hnil ↦ ?_, fun _ ↦ List.mem_takeWhile_imp⟩
    unfold fractionPart at hread
    simp only [hnil, List.isEmpty_nil, if_true] at hread
    split_ifs at hread <;> cases hread
  have hcs : cs = cs.takeWhile Char.isDigit ++ cs.dropWhile Char.isDigit :=
    List.takeWhile_append_dropWhile.symm
  rw [fractionPart_eq hds] at hread
  obtain ⟨e, hchars, hv⟩ | hplain := exists_of_afterDigits hread
  · refine ⟨_, some e, hds, ?_, hv⟩
    rw [List.append_assoc, Option.map_some, Option.getD_some, ← hchars, ← hcs]
  · obtain ⟨hv, rfl⟩ := realResult_eq_ok.mp hplain
    exact ⟨_, none, hds, by simp, hv⟩

theorem fractionPart_append {ds : List Char} (hds : Digits ds) (e : Option Exponent)
    (hrest : EndsNumber rest)
    (hv : exponentValue? e negative (intake significand ds).1
        (exp - (ds.length - (intake significand ds).2.length : Nat))
        (realValue? negative (intake significand ds).1
          (exp - (ds.length - (intake significand ds).2.length : Nat))) = some v) :
    fractionPart negative significand exp (ds ++ (e.map Exponent.chars).getD [] ++ rest) =
      .ok (v, rest) := by
  have hends : EndsDigits ((e.map Exponent.chars).getD [] ++ rest) :=
    fun c hc ↦ (ends_exponent e hrest c hc).1
  have htake := takeWhile_isDigit hds.2 hends
  have hdrop := dropWhile_isDigit hds.2 hends
  rw [List.append_assoc, fractionPart_eq (htake.symm ▸ hds), htake, hdrop]
  cases e with
  | some e => exact afterDigits_exponent e hrest hv
  | none =>
    simp only [Option.map_none, Option.getD_none, List.nil_append]
    rw [afterDigits_plain hrest]
    exact realResult_eq_ok.mpr ⟨hv, rfl⟩

theorem Whole.eq_cons {ds : List Char} (h : Whole ds) {rest : List Char} (hrest : EndsDigits rest) :
    ∃ c after, ds ++ rest = c :: after ∧ c.isDigit = true ∧
      ¬(c = '0' ∧ after.head?.any Char.isDigit = true) := by
  obtain ⟨c, cs, rfl⟩ := List.exists_cons_of_ne_nil h.digits.1
  refine ⟨c, cs ++ rest, rfl, h.digits.2 c List.mem_cons_self, ?_⟩
  rintro ⟨rfl, hnext⟩
  obtain rfl : cs = [] := (List.cons.inj (h.lead rfl)).2
  cases rest with
  | nil => cases hnext
  | cons d rest =>
    have hd : d.isDigit = true := hnext
    simp [hrest d rfl] at hd

theorem endsDigits_point (after : List Char) : EndsDigits ('.' :: after) := by
  rintro _ ⟨⟩
  decide

section

variable {ds : List Char} (h : Whole ds)

include h

/-- What is read after the whole part of a number and a point is a fraction. -/
theorem number_point (after : List Char) : number negative (ds ++ '.' :: after) =
    fractionPart negative (intake 0 ds).1 (intake 0 ds).2.length after := by
  have hends := endsDigits_point after
  have htake := takeWhile_isDigit h.digits.2 hends
  have hdrop := dropWhile_isDigit h.digits.2 hends
  obtain ⟨c, cs, hcs, hc, hzero⟩ := h.eq_cons hends
  rw [hcs] at htake hdrop ⊢
  unfold number
  simp only [hc, Bool.not_true, Bool.false_eq_true, if_false, if_neg hzero, htake, hdrop]

theorem number_whole {after : List Char} (hends : EndsDigits after)
    (hpoint : after.head? ≠ some '.') : number negative (ds ++ after) =
      afterDigits negative (intake 0 ds).1 (intake 0 ds).2.length
        (if (intake 0 ds).2 = [] then wholeResult negative (intake 0 ds).1 after
        else realResult negative (intake 0 ds).1 (intake 0 ds).2.length after) after := by
  have htake := takeWhile_isDigit h.digits.2 hends
  have hdrop := dropWhile_isDigit h.digits.2 hends
  obtain ⟨c, cs, hcs, hc, hzero⟩ := h.eq_cons hends
  rw [hcs] at htake hdrop ⊢
  unfold number
  simp only [hc, Bool.not_true, Bool.false_eq_true, if_false, if_neg hzero, List.isEmpty_iff, htake,
    hdrop]
  split
  · exact absurd rfl hpoint
  · cases after <;> rfl

end

theorem exists_whole (hread : number negative cs = .ok (v, rest)) :
    ∃ ds after, Whole ds ∧ EndsDigits after ∧ cs = ds ++ after := by
  refine ⟨cs.takeWhile Char.isDigit, cs.dropWhile Char.isDigit, ?_, endsDigits_dropWhile cs,
    List.takeWhile_append_dropWhile.symm⟩
  cases cs with
  | nil => cases hread
  | cons c cs =>
    rw [number] at hread
    split_ifs at hread with hc hzero
    · cases hread
    · cases hread
    · have hc : c.isDigit = true := by simpa using hc
      refine ⟨⟨by simp [hc], fun _ ↦ List.mem_takeWhile_imp⟩, fun hlead ↦ ?_⟩
      obtain rfl : c = '0' := by simpa [hc] using hlead
      cases cs with
      | nil => rfl
      | cons d cs =>
        have hd : d.isDigit = false := by simpa using hzero
        simp [hc, hd]

/-- What is read as a number is a numeral. -/
theorem exists_numeral (hread : number negative cs = .ok (v, rest)) :
    ∃ n : Numeral, n.negative = negative ∧ cs = n.unsignedChars ++ rest ∧ n.value? = some v := by
  obtain ⟨ds, after, hwhole, hends, rfl⟩ := exists_whole hread
  by_cases hpoint : after.head? = some '.'
  · obtain ⟨after, rfl⟩ := List.head?_eq_some_iff.mp hpoint
    rw [number_point hwhole] at hread
    obtain ⟨fs, e, hfs, rfl, hv⟩ := exists_fraction hread
    refine ⟨⟨negative, ds, some fs, e, hwhole, ?_⟩, rfl, by simp [Numeral.unsignedChars], hv⟩
    rintro _ ⟨⟩
    exact hfs
  · rw [number_whole hwhole hends hpoint] at hread
    have hnone : ∀ fs ∈ (none : Option (List Char)), Digits fs := by rintro _ ⟨⟩
    obtain ⟨e, rfl, hv⟩ | hplain := exists_of_afterDigits hread
    · exact ⟨⟨negative, ds, none, some e, hwhole, hnone⟩, rfl, by simp [Numeral.unsignedChars], hv⟩
    · have hresult : (if (intake 0 ds).2 = [] then wholeValue? negative (intake 0 ds).1
          else realValue? negative (intake 0 ds).1 (intake 0 ds).2.length) = some v ∧
            rest = after := by
        split_ifs at hplain ⊢
        · exact wholeResult_eq_ok.mp hplain
        · exact realResult_eq_ok.mp hplain
      obtain ⟨hv, rfl⟩ := hresult
      exact ⟨⟨negative, ds, none, none, hwhole, hnone⟩, rfl, by simp [Numeral.unsignedChars], hv⟩

/-- A numeral is read if it has a value and nothing follows that could belong to it. -/
theorem number_unsignedChars (n : Numeral) (hrest : EndsNumber rest) (hv : n.value? = some v) :
    number n.negative (n.unsignedChars ++ rest) = .ok (v, rest) := by
  obtain ⟨negative, ds, fraction, e, hwhole, hfraction⟩ := n
  cases fraction with
  | some fs =>
    have hchars : Numeral.unsignedChars ⟨negative, ds, some fs, e, hwhole, hfraction⟩ ++ rest =
        ds ++ '.' :: (fs ++ (e.map Exponent.chars).getD [] ++ rest) := by
      simp [Numeral.unsignedChars]
    rw [hchars, number_point hwhole]
    exact fractionPart_append (hfraction fs rfl) e hrest hv
  | none =>
    have hchars : Numeral.unsignedChars ⟨negative, ds, none, e, hwhole, hfraction⟩ ++ rest =
        ds ++ ((e.map Exponent.chars).getD [] ++ rest) := by
      simp [Numeral.unsignedChars]
    have hends := ends_exponent e hrest
    rw [hchars, number_whole hwhole (fun c hc ↦ (hends c hc).1) fun hc ↦ (hends '.' hc).2 rfl]
    cases e with
    | some e => exact afterDigits_exponent e hrest hv
    | none =>
      simp only [Option.map_none, Option.getD_none, List.nil_append]
      rw [afterDigits_plain hrest]
      have hplain : (if (intake 0 ds).2 = [] then wholeValue? negative (intake 0 ds).1
        else realValue? negative (intake 0 ds).1 (intake 0 ds).2.length) = some v := hv
      split_ifs at hplain ⊢
      · exact wholeResult_eq_ok.mpr ⟨hplain, rfl⟩
      · exact realResult_eq_ok.mpr ⟨hplain, rfl⟩

end BundleLink.Json
