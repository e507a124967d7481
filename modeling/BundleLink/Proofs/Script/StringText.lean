import BundleLink.Script.Parser.Basic
import BundleLink.Script.Printer.StringText
import Mathlib.Data.List.Basic

/-!
String literals that are printed from their values are read back. What a reader does to the text at
the head of the input is put together from what its parts do (`Reads`). Every escape that is printed
is read as the one character it stands for (`escapeChar_cases`), so the literal of a text is one
token with that text as its value, whatever its characters are and whatever follows it
(`readsString_stringText`).
-/

set_option autoImplicit false

namespace BundleLink.Script

open BundleLink.Text

/-! ### Readers -/

/-- The input after the text `front`, when `rear` is what follows it. -/
def Input.past (s : Input) (front rear : List Char) : Input :=
  { s with rest := rear, pos := s.pos + byteLength front }

theorem byteLength_cons (c : Char) (cs : List Char) :
    byteLength (c :: cs) = c.utf8Size + byteLength cs := by
  have hfold (n : Nat) : cs.foldl (fun n c ↦ n + c.utf8Size) n = n + byteLength cs := by
    induction cs generalizing n with
    | nil => rfl
    | cons c cs ih =>
      rw [byteLength, List.foldl_cons, List.foldl_cons, ih, ih (0 + _), Nat.zero_add, Nat.add_assoc]
  rw [byteLength, List.foldl_cons, hfold, Nat.zero_add]

theorem byteLength_append (cs ds : List Char) :
    byteLength (cs ++ ds) = byteLength cs + byteLength ds := by
  induction cs with
  | nil => simp [byteLength]
  | cons c cs ih => rw [List.cons_append, byteLength_cons, byteLength_cons, ih, Nat.add_assoc]

theorem byteLength_spaces (n : Nat) : byteLength (List.replicate n ' ') = n := by
  induction n with
  | zero => rfl
  | succ n ih =>
    rw [List.replicate_succ, byteLength_cons, ih, Nat.add_comm]
    rfl

theorem takeBytes_append (cs ds : List Char) : takeBytes (cs ++ ds) (byteLength cs) = cs := by
  induction cs with
  | nil => cases ds <;> simp [takeBytes, byteLength]
  | cons c cs ih =>
    have hpos := c.utf8Size_pos
    rw [List.cons_append, takeBytes, byteLength_cons, if_neg (by omega), Nat.add_sub_cancel_left, ih]

theorem Input.past_past (s : Input) (front mid rear : List Char) :
    (s.past front (mid ++ rear)).past mid rear = s.past (front ++ mid) rear := by
  simp [past, byteLength_append, Nat.add_assoc]

namespace Scan

/-- A reader takes the text `front` at the head of the input for `a` when `rear` follows it: it
consumes that text, fails with nothing and records nothing. -/
def Reads {α : Type} (read : Scan α) (front rear : List Char) (a : α) : Prop :=
  ∀ s : Input, s.rest = front ++ rear → read s = .ok a (s.past front rear)

namespace Reads

variable {α β : Type} {front rear : List Char} {b : β}

theorem bind {read : Scan α} {f : α → Scan β} {mid : List Char} {a : α}
    (hread : Reads read front (mid ++ rear) a) (hf : Reads (f a) mid rear b) :
    Reads (read >>= f) (front ++ mid) rear b := by
  intro s hs
  rw [List.append_assoc] at hs
  change EStateM.bind read f s = _
  rw [EStateM.bind, hread s hs]
  simp only
  rw [hf _ rfl, Input.past_past]

theorem pure (a : α) (rear : List Char) : Reads (Pure.pure a) [] rear a := by
  intro s hs
  rw [List.nil_append] at hs
  have hsame : s = s.past [] rear := by
    subst hs
    rfl
  exact congrArg (EStateM.Result.ok a) hsame

theorem skip (front rear : List Char) : Reads (Scan.skip front.length) front rear () := by
  intro s hs
  have hskip : Scan.skip front.length s = .ok () { s with
      rest := s.rest.drop front.length, pos := s.pos + byteLength (s.rest.take front.length) } :=
    rfl
  rw [hskip, hs, List.drop_left, List.take_left]
  rfl

/-- One character is passed over. -/
theorem skip_bind {f : Unit → Scan β} {c : Char} (hf : Reads (f ()) front rear b) :
    Reads (Scan.skip 1 >>= f) (c :: front) rear b :=
  (skip [c] (front ++ rear)).bind hf

/-- What comes next takes nothing more. -/
theorem bind_nil {read : Scan α} {f : α → Scan β} {a : α} (hread : Reads read front rear a)
    (hf : Reads (f a) [] rear b) : Reads (read >>= f) front rear b := by
  have hboth : Reads (read >>= f) (front ++ []) rear b := hread.bind hf
  rwa [List.append_nil] at hboth

theorem bind_pure {read : Scan α} {f : α → β} {a : α} (hread : Reads read front rear a) :
    Reads (do return f (← read)) front rear (f a) := by
  exact hread.bind_nil (.pure (f a) rear)

/-- Where a reader begins may be kept for a diagnostic. -/
theorem position_bind {f : Nat → Scan β} (hf : ∀ lo, Reads (f lo) front rear b) :
    Reads (position >>= f) front rear b :=
  fun s hs ↦ hf s.pos s hs

theorem remaining_bind {f : List Char → Scan β} (hf : Reads (f (front ++ rear)) front rear b) :
    Reads (remaining >>= f) front rear b := by
  intro s hs
  have hread := hf s hs
  rw [← hs] at hread
  exact hread

theorem peek_bind {f : Option Char → Scan β} (hf : Reads (f (front ++ rear).head?) front rear b) :
    Reads (peek? >>= f) front rear b := by
  intro s hs
  have hread := hf s hs
  rw [← hs] at hread
  exact hread

end Reads

/-! ### Escapes -/

/-- As many digits as are asked for are taken, whatever follows them. -/
theorem digitRun_append {radix : Nat} {ds : List Char}
    (hds : ∀ d ∈ ds, d ≠ '_' ∧ (digitValue? radix d).isSome) (rear : List Char) :
    digitRun radix ds.length (ds ++ rear) = ⟨ds, ds.length, false⟩ := by
  induction ds with
  | nil => cases rear <;> rfl
  | cons d ds ih =>
    obtain ⟨⟨hseparator, hdigit⟩, hds⟩ := List.forall_mem_cons.mp hds
    rw [List.cons_append, digitRun, if_neg (by simp), if_neg hseparator, if_pos hdigit]
    simp [ih hds]

theorem reads_digitsUpTo {ds : List Char}
    (hds : ∀ d ∈ ds, d ≠ '_' ∧ (digitValue? 16 d).isSome) (rear : List Char) :
    Reads (digitsUpTo ds.length 16) ds rear ds := by
  unfold digitsUpTo
  refine .position_bind fun lo ↦ .remaining_bind ?_
  rw [digitRun_append hds]
  exact (Reads.skip ds rear).bind_pure

theorem reads_hexExactly {ds : List Char}
    (hds : ∀ d ∈ ds, d ≠ '_' ∧ (digitValue? 16 d).isSome) (rear : List Char) :
    Reads (hexExactly? ds.length) ds rear (some (digitsValue 16 ds)) := by
  have hread := (reads_digitsUpTo hds rear).bind_pure (f := fun read : List Char ↦
    if read.length = ds.length then some (digitsValue 16 read) else none)
  rwa [if_pos rfl] at hread

/-- Two digits after `x`. -/
theorem reads_escape_hex {high low c : Char} (rear : List Char)
    (hds : ∀ d ∈ [high, low], d ≠ '_' ∧ (digitValue? 16 d).isSome)
    (hc : Codes.ofNumber? (digitsValue 16 [high, low]) = some (.scalar c)) :
    Reads (escape false) ['\\', 'x', high, low] rear (some (.scalar c)) := by
  unfold escape
  refine .position_bind fun lo ↦ .skip_bind (.peek_bind (.skip_bind ?_))
  refine (reads_hexExactly hds rear).bind_nil ?_
  rw [Option.bind_some, hc]
  exact .pure _ rear

theorem isDigit_of_octal {d : Char} (hd : digitValue? 8 d ≠ none) : d.isDigit := by
  by_contra hdigit
  have hvalue : digitValue? 8 d = none := by
    rw [digitValue?, if_neg hdigit]
    split_ifs <;> first | rfl | omega
  exact hd hvalue

/-- A zero that no octal digit follows. -/
theorem reads_escape_zero {rear : List Char} (hrear : rear.head?.bind (digitValue? 8) = none) :
    Reads (escape false) ['\\', '0'] rear (some (.scalar '\x00')) := by
  unfold escape
  have hzero : digitValue? 8 '0' = some 0 := rfl
  refine .position_bind fun lo ↦ .skip_bind (.peek_bind ?_)
  simp only [List.cons_append, List.head?_cons, hzero]
  refine .skip_bind (.peek_bind ?_)
  rw [if_pos]
  · exact .pure _ rear
  · refine ⟨trivial, ?_⟩
    change (rear.head?.bind (digitValue? 8)).isNone = true
    rw [hrear]
    rfl

/-- The digits that a control character is printed with. -/
theorem paddedHex_control : ∀ n < 0x20, ∃ high low, paddedHex 2 n = [high, low] ∧
    (∀ d ∈ [high, low], d ≠ '_' ∧ (digitValue? 16 d).isSome) ∧ digitsValue 16 [high, low] = n := by
  have hall : ∀ n < 0x20, (paddedHex 2 n).length = 2 ∧
      (paddedHex 2 n).all (fun d ↦ d ≠ '_' ∧ (digitValue? 16 d).isSome) ∧
      digitsValue 16 (paddedHex 2 n) = n := by decide +kernel
  intro n hn
  obtain ⟨hlength, hdigits, hvalue⟩ := hall n hn
  simp only [List.all_eq_true, decide_eq_true_eq] at hdigits
  obtain ⟨high, low, heq⟩ := List.length_eq_two.mp hlength
  exact ⟨high, low, heq, heq ▸ hdigits, heq ▸ hvalue⟩

/-- The letters that are printed after a backslash, and what they stand for. -/
def letterEscapes : List (Char × Char) :=
  [('b', '\x08'), ('f', '\x0c'), ('n', '\n'), ('r', '\r'), ('v', '\x0b'), ('\\', '\\'),
    ('"', '"'), ('\'', '\'')]

/-- The digits that are printed after `u`, and what they stand for. -/
def unitEscapes : List (List Char × Char) :=
  [("2028".toList, '\u2028'), ("2029".toList, '\u2029'), ("FEFF".toList, '\uFEFF')]

theorem reads_escape_letter {x c : Char} (hx : (x, c) ∈ letterEscapes) (rear : List Char) :
    Reads (escape false) ['\\', x] rear (some (.scalar c)) := by
  unfold escape
  refine .position_bind fun lo ↦ .skip_bind (.peek_bind ?_)
  simp only [letterEscapes, List.mem_cons, Prod.mk.injEq, List.not_mem_nil, or_false] at hx
  rcases hx with ⟨rfl, rfl⟩ | ⟨rfl, rfl⟩ | ⟨rfl, rfl⟩ | ⟨rfl, rfl⟩ | ⟨rfl, rfl⟩ | ⟨rfl, rfl⟩ |
    ⟨rfl, rfl⟩ | ⟨rfl, rfl⟩ <;>
  exact .skip_bind (.pure _ rear)

theorem reads_escape_unit {ds : List Char} {c : Char} (hds : (ds, c) ∈ unitEscapes)
    (rear : List Char) : Reads (escape false) ('\\' :: 'u' :: ds) rear (some (.scalar c)) := by
  simp only [unitEscapes, List.mem_cons, Prod.mk.injEq, List.not_mem_nil, or_false] at hds
  rcases hds with ⟨rfl, rfl⟩ | ⟨rfl, rfl⟩ | ⟨rfl, rfl⟩ <;>
  · rintro ⟨rest, pos, problems, bound⟩ (rfl : rest = _)
    cases rear <;> rfl

theorem ofNumber?_toNat (c : Char) : Codes.ofNumber? c.toNat = some (.scalar c) := by
  have hvalid : c.toNat.isValidChar := c.valid
  rw [Codes.ofNumber?, dif_pos hvalid]
  rfl

end Scan

/-! ### Printed characters -/

/-- A mark that a literal can stand between. -/
def IsQuote (q : Char) : Prop :=
  q = '"' ∨ q = '\''

/-- A character that stands for itself between two marks `q`. -/
def IsPlain (q c : Char) : Prop :=
  c ≠ q ∧ c ≠ '\\' ∧ c ≠ '\n' ∧ c ≠ '\r'

open Scan in
/-- NUL has a longer escape before a digit. -/
theorem escapeChar_zero (q : Char) {next : Option Code} {rear : List Char}
    (hnext : ∀ d, rear.head? = some d → d.isDigit → next = some (.scalar d)) :
    ∃ body, escapeChar q next '\x00' = '\\' :: body ∧
      Reads (escape false) ('\\' :: body) rear (some (.scalar '\x00')) := by
  by_cases hdigit : ∃ d, next = some (.scalar d) ∧ d.isDigit
  · obtain ⟨d, rfl, hd⟩ := hdigit
    have hzeros : ∀ d ∈ ['0', '0'], d ≠ '_' ∧ (digitValue? 16 d).isSome := by
      intro d hd
      obtain rfl : d = '0' := by simpa using hd
      decide
    refine ⟨['x', '0', '0'], ?_, reads_escape_hex rear hzeros rfl⟩
    exact if_pos hd
  · have hrear : rear.head?.bind (digitValue? 8) = none := by
      rw [Option.bind_eq_none_iff]
      intro d hd
      by_contra hvalue
      exact hdigit ⟨d, hnext d hd (isDigit_of_octal hvalue), isDigit_of_octal hvalue⟩
    refine ⟨['0'], ?_, reads_escape_zero hrear⟩
    match next, hdigit with
    | none, _ => rfl
    | some (.half _), _ => rfl
    | some (.scalar d), hdigit => exact if_neg fun hd ↦ hdigit ⟨d, rfl, hd⟩

open Scan in
/-- A mark is escaped between its like only. -/
theorem escapeChar_letter {q x c : Char} (hx : (x, c) ∈ letterEscapes) (hc : IsQuote c → c = q)
    (next : Option Code) : escapeChar q next c = ['\\', x] := by
  simp only [letterEscapes, List.mem_cons, Prod.mk.injEq, List.not_mem_nil, or_false] at hx
  rcases hx with ⟨rfl, rfl⟩ | ⟨rfl, rfl⟩ | ⟨rfl, rfl⟩ | ⟨rfl, rfl⟩ | ⟨rfl, rfl⟩ | ⟨rfl, rfl⟩ |
    ⟨rfl, rfl⟩ | ⟨rfl, rfl⟩
  case inr.inr.inr.inr.inr.inr.inl =>
    obtain rfl := hc (.inl rfl)
    rfl
  case inr.inr.inr.inr.inr.inr.inr =>
    obtain rfl := hc (.inr rfl)
    rfl
  all_goals rfl

open Scan in
theorem escapeChar_unit {q c : Char} (hq : IsQuote q) {ds : List Char}
    (hds : (ds, c) ∈ unitEscapes) (next : Option Code) :
    escapeChar q next c = '\\' :: 'u' :: ds := by
  simp only [unitEscapes, List.mem_cons, Prod.mk.injEq, List.not_mem_nil, or_false] at hds
  rcases hds with ⟨rfl, rfl⟩ | ⟨rfl, rfl⟩ | ⟨rfl, rfl⟩ <;>
  rcases hq with rfl | rfl <;> rfl

open Scan in
/-- What is printed for a character that no letter stands for. -/
theorem escapeChar_of_no_letter {q c : Char} (hq : IsQuote q) (hzero : c ≠ '\x00')
    (hletter : ¬∃ x, (x, c) ∈ letterEscapes ∧ (IsQuote c → c = q)) (next : Option Code) :
    IsPlain q c ∧ escapeChar q next c =
      if c = '\t' then [c] else if c.toNat < 0x20 then '\\' :: 'x' :: paddedHex 2 c.toNat
      else if c = '\u2028' then "\\u2028".toList else if c = '\u2029' then "\\u2029".toList
      else if c = '\uFEFF' then "\\uFEFF".toList else [c] := by
  have hne {x d : Char} (hx : (x, d) ∈ letterEscapes) (hd : ¬IsQuote d) : c ≠ d := by
    rintro rfl
    exact hletter ⟨x, hx, fun h ↦ absurd h hd⟩
  have hquote : c ≠ q := by
    rintro rfl
    rcases hq with rfl | rfl
    · exact hletter ⟨'"', by decide, fun _ ↦ rfl⟩
    · exact hletter ⟨'\'', by decide, fun _ ↦ rfl⟩
  have hb : c ≠ '\x08' := hne (x := 'b') (by decide) (by simp [IsQuote])
  have hf : c ≠ '\x0c' := hne (x := 'f') (by decide) (by simp [IsQuote])
  have hn : c ≠ '\n' := hne (x := 'n') (by decide) (by simp [IsQuote])
  have hr : c ≠ '\r' := hne (x := 'r') (by decide) (by simp [IsQuote])
  have hv : c ≠ '\x0b' := hne (x := 'v') (by decide) (by simp [IsQuote])
  have hslash : c ≠ '\\' := hne (x := '\\') (by decide) (by simp [IsQuote])
  refine ⟨⟨hquote, hslash, hn, hr⟩, ?_⟩
  unfold escapeChar
  rw [if_neg hzero, if_neg hb, if_neg hf, if_neg hn, if_neg hr, if_neg hv, if_neg hslash,
    if_neg hquote]
  rfl

open Scan in
/-- Each character is printed as it is and stands for itself, or as an escape that is read as this
character. A digit may follow the escape only if it was known to follow. -/
theorem escapeChar_cases {q : Char} (hq : IsQuote q) (next : Option Code) (c : Char)
    {rear : List Char} (hnext : ∀ d, rear.head? = some d → d.isDigit → next = some (.scalar d)) :
    escapeChar q next c = [c] ∧ IsPlain q c ∨
      ∃ body, escapeChar q next c = '\\' :: body ∧
        Reads (escape false) ('\\' :: body) rear (some (.scalar c)) := by
  by_cases hzero : c = '\x00'
  · subst hzero
    exact .inr (escapeChar_zero q hnext)
  by_cases hletter : ∃ x, (x, c) ∈ letterEscapes ∧ (IsQuote c → c = q)
  · obtain ⟨x, hx, hc⟩ := hletter
    exact .inr ⟨[x], escapeChar_letter hx hc next, reads_escape_letter hx rear⟩
  by_cases hunit : ∃ ds, (ds, c) ∈ unitEscapes
  · obtain ⟨ds, hds⟩ := hunit
    exact .inr ⟨'u' :: ds, escapeChar_unit hq hds next, reads_escape_unit hds rear⟩
  obtain ⟨hplain, hprinted⟩ := escapeChar_of_no_letter hq hzero hletter next
  by_cases htab : c = '\t'
  · exact .inl ⟨by rw [hprinted, if_pos htab], hplain⟩
  by_cases hcontrol : c.toNat < 0x20
  · obtain ⟨high, low, hpadded, hdigits, hvalue⟩ := paddedHex_control c.toNat hcontrol
    refine .inr ⟨['x', high, low], ?_, reads_escape_hex rear hdigits ?_⟩
    · rw [hprinted, if_neg htab, if_pos hcontrol, hpadded]
    · rw [hvalue, ofNumber?_toNat]
  · have hne {ds : List Char} {d : Char} (hds : (ds, d) ∈ unitEscapes) : c ≠ d := by
      rintro rfl
      exact hunit ⟨ds, hds⟩
    refine .inl ⟨?_, hplain⟩
    rw [hprinted, if_neg htab, if_neg hcontrol, if_neg (hne (.head _)),
      if_neg (hne (.tail _ (.head _))), if_neg (hne (.tail _ (.tail _ (.head _))))]

theorem escapeChar_eq {q : Char} (hq : IsQuote q) (next : Option Code) (c : Char) :
    escapeChar q next c = [c] ∨ ∃ body, escapeChar q next c = '\\' :: body := by
  have hend (d : Char) (hd : ([] : List Char).head? = some d) : d.isDigit →
      next = some (.scalar d) := by
    cases hd
  obtain ⟨hprinted, -⟩ | ⟨body, hprinted, -⟩ := escapeChar_cases hq next c hend
  · exact .inl hprinted
  · exact .inr ⟨body, hprinted⟩

/-- What is printed for the rest of a text begins with a digit only if the rest does. -/
theorem head?_escapeCodes {q : Char} (hq : IsQuote q) (cs rear : List Char) {d : Char}
    (hhead : (escapeCodes q (cs.map .scalar) ++ q :: rear).head? = some d) (hd : d.isDigit) :
    (cs.map Code.scalar).head? = some (.scalar d) := by
  cases cs with
  | nil =>
    obtain rfl : q = d := by simpa [escapeCodes] using hhead
    rcases hq with rfl | rfl <;> exact absurd hd (by decide)
  | cons c cs =>
    rw [List.map_cons, escapeCodes] at hhead
    obtain hprinted | ⟨body, hprinted⟩ := escapeChar_eq hq (cs.map Code.scalar).head? c
    · rw [hprinted] at hhead
      obtain rfl : c = d := by simpa using hhead
      rfl
    · rw [hprinted] at hhead
      obtain rfl : '\\' = d := by simpa using hhead
      exact absurd hd (by decide)

theorem pushRev_scalar (rev : Codes) (c : Char) :
    Codes.pushRev rev (.scalar c) = .scalar c :: rev := by
  unfold Codes.pushRev
  split <;> rfl

theorem length_le_escapeCodes {q : Char} (hq : IsQuote q) (cs : List Char) :
    cs.length ≤ (escapeCodes q (cs.map .scalar)).length := by
  induction cs with
  | nil => exact Nat.zero_le _
  | cons c cs ih =>
    rw [List.map_cons, escapeCodes, List.length_cons, List.length_append]
    obtain hprinted | ⟨body, hprinted⟩ := escapeChar_eq hq (cs.map Code.scalar).head? c
    all_goals
      rw [hprinted, List.length_cons]
      omega

namespace Scan

/-- The body of a literal is read up to its closing mark. `plain` and `rev` are what has been read
before, latest first. -/
theorem reads_stringBody {q : Char} (hq : IsQuote q) (lo : Nat) (cs rear : List Char)
    (rev plain : Codes) {fuel : Nat} (hfuel : cs.length < fuel) :
    Reads (stringBody q lo fuel rev plain) (escapeCodes q (cs.map .scalar) ++ [q]) rear
      ((plain ++ rev).reverse ++ cs.map .scalar) := by
  induction cs generalizing rev plain fuel with
  | nil =>
    obtain ⟨fuel, rfl⟩ : ∃ n, fuel = n + 1 := ⟨fuel - 1, by simp at hfuel; omega⟩
    rw [List.map_nil, List.append_nil]
    unfold stringBody
    refine .peek_bind ?_
    simp only [escapeCodes, List.nil_append, List.cons_append, List.head?_cons, if_true]
    exact .skip_bind (.pure _ rear)
  | cons c cs ih =>
    obtain ⟨fuel, rfl⟩ : ∃ n, fuel = n + 1 := ⟨fuel - 1, by simp at hfuel; omega⟩
    have hfuel : cs.length < fuel := by simpa using hfuel
    have hnext (d : Char) := head?_escapeCodes hq cs rear (d := d)
    rw [List.map_cons, escapeCodes, List.append_assoc]
    unfold stringBody
    refine .peek_bind ?_
    obtain ⟨hprinted, hquote, hslash, hn, hr⟩ | ⟨body, hprinted, hread⟩ :=
      escapeChar_cases hq (cs.map Code.scalar).head? c hnext
    · have hrest := ih rev (.scalar c :: plain) hfuel
      rw [List.cons_append, List.reverse_cons, List.append_assoc, List.singleton_append] at hrest
      rw [hprinted, List.singleton_append, List.cons_append, List.head?_cons]
      simp only [if_neg hquote, if_neg hslash, if_neg (not_or.mpr ⟨hn, hr⟩)]
      exact .skip_bind hrest
    · have hrest := ih (.scalar c :: (plain ++ rev)) [] hfuel
      rw [List.nil_append, List.reverse_cons, List.append_assoc, List.singleton_append] at hrest
      have hslash : '\\' ≠ q := by rcases hq with rfl | rfl <;> decide
      rw [hprinted, List.cons_append, List.cons_append, List.head?_cons]
      simp only [if_neg hslash, if_true]
      rw [← List.cons_append]
      refine Reads.bind (by simpa using hread) ?_
      simp only [pushRev_scalar]
      exact hrest

end Scan

theorem isQuote_chosenQuote (v : Codes) : IsQuote (chosenQuote v) := by
  unfold chosenQuote
  split
  · exact .inr rfl
  · exact .inl rfl

theorem toList_stringText (v : Codes) :
    (stringText v).toList = chosenQuote v :: escapeCodes (chosenQuote v) v ++ [chosenQuote v] := by
  rw [stringText, String.toList_ofList]

namespace Scan

/-- The literal made from a text is one token with this text as its value, and keeps its own text as
it was written. -/
theorem stringLiteral_stringText (v : String) {s : Input} {rear : List Char}
    (hs : s.rest = (stringText (.ofString v)).toList ++ rear) (hbound : s.rest.length ≤ s.bound) :
    stringLiteral (chosenQuote (.ofString v)) s =
      .ok (.string (.ofString v) (stringText (.ofString v)))
        (s.past (stringText (.ofString v)).toList rear) := by
  generalize hq : chosenQuote (.ofString v) = q
  have hquote : IsQuote q := hq ▸ isQuote_chosenQuote _
  have hliteral : (stringText (.ofString v)).toList =
      q :: (escapeCodes q (v.toList.map .scalar) ++ [q]) := by
    rw [toList_stringText, hq]
    rfl
  have hfuel : v.toList.length < s.bound + 1 := by
    have hlength := length_le_escapeCodes hquote v.toList
    rw [hs, hliteral] at hbound
    simp only [List.length_append, List.length_cons] at hbound
    omega
  have hbody : Reads (do
      skip 1
      stringBody q s.pos (s.bound + 1) [] []) (stringText (.ofString v)).toList rear
        (.ofString v) := by
    rw [hliteral]
    exact .skip_bind (reads_stringBody hquote s.pos v.toList rear [] [] hfuel)
  have htext : textFrom s (s.past (stringText (.ofString v)).toList rear) =
      .ok (stringText (.ofString v)) (s.past (stringText (.ofString v)).toList rear) := by
    change EStateM.Result.ok (String.ofList (takeBytes s.rest (s.pos + _ - s.pos))) _ = _
    rw [Nat.add_sub_cancel_left, hs, takeBytes_append, String.ofList_toList]
  have hrun : stringLiteral q s =
      EStateM.bind (skip 1 >>= fun _ ↦ stringBody q s.pos (s.bound + 1) [] [])
        (fun value ↦ EStateM.bind (textFrom s) fun text ↦ pure (.string value text)) s := rfl
  rw [hrun, EStateM.bind, hbody s hs]
  simp only
  rw [EStateM.bind, htext]
  rfl

theorem token_stringText (strict : Bool) (v : String) {s : Input} {rear : List Char}
    (hs : s.rest = (stringText (.ofString v)).toList ++ rear) (hbound : s.rest.length ≤ s.bound) :
    token strict s =
      .ok (.string (.ofString v) (stringText (.ofString v)))
        (s.past (stringText (.ofString v)).toList rear) := by
  rw [← stringLiteral_stringText v hs hbound]
  obtain ⟨rest, hrest⟩ : ∃ rest, s.rest = chosenQuote (.ofString v) :: rest :=
    ⟨_, by rw [hs, toList_stringText, List.cons_append, List.cons_append]⟩
  obtain ⟨text, pos, problems, bound⟩ := s
  obtain rfl : text = _ := hrest
  rcases isQuote_chosenQuote (.ofString v) with hq | hq <;>
  · rw [hq]
    rfl

end Scan

namespace Parser

/-- Wherever the parser stands before the text `literal`, or before blanks and this text, and whatever
comes after it, this text is its next token. It takes the token for a string literal with the given
value and has no complaint. -/
def ReadsString (literal : String) (value : Codes) : Prop :=
  ∀ (n : Nat) (rear : List Char) (c : Context) (s : ParseState),
    s.ahead = none → s.lexer.first = false →
    s.lexer.input.rest = List.replicate n ' ' ++ literal.toList ++ rear →
    s.lexer.input.rest.length ≤ s.lexer.input.bound →
    ∃ t : ParseState,
      t.lexer.input = s.lexer.input.past (List.replicate n ' ' ++ literal.toList) rear ∧
      (do
        bump
        curString?) c s =
          .ok (some ⟨⟨s.lexer.input.pos + n, t.lexer.input.pos⟩, value, literal⟩) t

theorem curString?_of_token {s : ParseState} {value : Codes} {raw : String}
    (h : s.cur.token = .string value raw) (c : Context) :
    curString? c s = .ok (some ⟨s.cur.span, value, raw⟩) s := by
  obtain ⟨source, bound, lexer, ⟨token, span, broken, rest⟩, ahead⟩ := s
  obtain rfl : token = .string value raw := h
  rfl

/-- The parser reads a literal that is one token. -/
theorem readsString_of_token {literal : String} {value : Codes}
    (hquote : ∃ q cs, IsQuote q ∧ literal.toList = q :: cs)
    (htoken : ∀ {s : Input} {rear : List Char}, s.rest = literal.toList ++ rear →
      s.rest.length ≤ s.bound →
      Scan.token true s = .ok (.string value literal) (s.past literal.toList rear)) :
    ReadsString literal value := by
  intro n rear c s hahead hfirst hrest hbound
  obtain ⟨q, cs, hq, hcs⟩ := hquote
  have hchars : literal.toList ++ rear = q :: (cs ++ rear) := by rw [hcs, List.cons_append]
  rw [List.append_assoc] at hrest
  have hlength : (literal.toList ++ rear).length ≤ s.lexer.input.bound := by
    rw [hrest, List.length_append] at hbound
    omega
  have hread : Scan.token true
      (s.lexer.input.past (List.replicate n ' ') (literal.toList ++ rear)) =
      .ok (.string value literal)
        (s.lexer.input.past (List.replicate n ' ' ++ literal.toList) rear) := by
    rw [← Input.past_past]
    exact htoken rfl hlength
  rw [hchars] at hrest hread
  obtain ⟨hinput, hlexeme⟩ := Lexer.next_of_quote hfirst hq hrest hread (by simp)
  let t : ParseState := { s with
    prev := s.cur.span, cur := s.lexer.next.2, lexer := s.lexer.next.1, ahead := none }
  have hbump : bump c s = .ok () t := by
    obtain ⟨source, bound, lexer, cur, ahead, prev, labels, arrowStart, commas⟩ := s
    obtain rfl : ahead = none := hahead
    rfl
  refine ⟨t, hinput, ?_⟩
  change EStateM.bind (bump c) (fun _ ↦ curString? c) s = _
  rw [EStateM.bind, hbump]
  have hcur : t.cur = _ := hlexeme
  simp only
  rw [curString?_of_token (congrArg Lexeme.token hcur), hcur, ← hinput, byteLength_spaces]

/-- Printing a text as a string literal and reading the literal gives the text. -/
theorem readsString_stringText (v : String) :
    ReadsString (stringText (.ofString v)) (.ofString v) :=
  readsString_of_token ⟨_, _, isQuote_chosenQuote _, toList_stringText _⟩
    (Scan.token_stringText true v)

end Parser

end BundleLink.Script
