import BundleLink.Proofs.CommandLine.Grammar
import BundleLink.Proofs.Basic
import Mathlib.Data.List.TakeWhile

/-!
The reader of a command line, step by step. What has been read is known from the arguments spelled
so far, up to the last of them, which may be accepted only later (`Tells`). From there an argument
is taken exactly if it may be given now (`Tells.take_iff`, `Tells.option_some_iff`,
`Tells.place_iff`), and the shape of a word says which argument it brings (`next_eq_cluster`,
`next_eq_long`, `Tells.next_eq_place`).
-/

set_option autoImplicit false

namespace BundleLink.CommandLine

open BundleLink.Text

open Reading (dash equalsSign splitText orHalt)

/-! ### The text that bytes begin with -/

theorem splitText_encode_append (cs : List Char) (bs : Bytes) :
    splitText (encode cs ++ bs) = (cs ++ (splitText bs).1, (splitText bs).2) := by
  have htake : ((pieces (encode cs ++ bs)).takeWhile (·.isSome)).filterMap id =
      cs ++ ((pieces bs).takeWhile (·.isSome)).filterMap id := by
    rw [pieces_encode_append, List.takeWhile_append_of_pos (by simp), List.filterMap_append]
    simp
  simp only [splitText, htake, encode_append]
  rw [List.length_append, List.drop_length_add_append]

/-- The text stands in front of what is left of it. -/
theorem encode_splitText_append (bs : Bytes) :
    encode (splitText bs).1 ++ (splitText bs).2 = bs := by
  have hsome : ∀ ps : List (Option Char), ((ps.takeWhile (·.isSome)).filterMap id).map some =
      ps.takeWhile (·.isSome) := by
    intro ps
    induction ps with
    | nil => rfl
    | cons p ps ih => cases p <;> simp_all
  have hpieces : pieces bs =
      (splitText bs).1.map some ++ (pieces bs).dropWhile (·.isSome) := by
    rw [splitText, hsome, List.takeWhile_append_dropWhile]
  obtain ⟨rest, hbs, -⟩ := exists_encode_append hpieces
  exact List.prefix_iff_eq_append.mp ⟨rest, hbs.symm⟩

theorem head?_splitText_of_head? {bs : Bytes} (hhead : bs.head? = some equalsSign) :
    (splitText bs).1.head? = some '=' := by
  cases bs with
  | nil => cases hhead
  | cons b bs =>
    obtain rfl : b = equalsSign := Option.some.inj hhead
    have hsplit := splitText_encode_append ['='] bs
    have hencode : encode ['='] ++ bs = equalsSign :: bs := rfl
    rw [hencode] at hsplit
    rw [hsplit]
    rfl

/-! ### Numerals -/

theorem le_ofDigitChars (n : Nat) (ds : List Char) : n ≤ Nat.ofDigitChars 10 ds n := by
  induction ds generalizing n with
  | nil => exact Nat.le_refl n
  | cons d ds ih =>
    refine Nat.le_trans ?_ (ih (10 * n + (d.toNat - '0'.toNat)))
    omega

/-- Digits write their number; that it is not too large need only be looked at in the end. -/
theorem digits_eq_ok {n m : Nat} {ds : List Char} :
    digits n ds = .ok m ↔
      (∀ d ∈ ds, d.isDigit) ∧ m = Nat.ofDigitChars 10 ds n ∧ (ds ≠ [] → m ≤ maxJobs) := by
  induction ds generalizing n with
  | nil =>
    rw [digits, Except.ok.injEq]
    simpa [Nat.ofDigitChars] using eq_comm
  | cons d ds ih =>
    have hcons : Nat.ofDigitChars 10 (d :: ds) n =
        Nat.ofDigitChars 10 ds (n * 10 + (d.toNat - '0'.toNat)) := by
      rw [Nat.mul_comm]
      rfl
    have hle := le_ofDigitChars (n * 10 + (d.toNat - '0'.toNat)) ds
    rw [digits, hcons]
    simp only [Bool.not_eq_true', List.forall_mem_cons, ne_eq, List.cons_ne_nil,
      not_false_eq_true, forall_const]
    cases hd : d.isDigit with
    | false => simp
    | true =>
      simp only [Bool.true_eq_false, if_false, true_and]
      split_ifs with hlarge
      · simp only [false_iff, not_and]
        omega
      · rw [ih]
        refine and_congr_right fun _ ↦ and_congr_right fun hm ↦ ⟨fun hsmall ↦ ?_, fun hm' _ ↦ hm'⟩
        cases ds with
        | nil => exact hm ▸ Nat.le_of_not_lt hlarge
        | cons d' ds => exact hsmall (List.cons_ne_nil d' ds)

theorem number_eq_ok {cs : List Char} {n : Nat} : number cs = .ok n ↔ Numeral (encode cs) n := by
  have hdigits : ∀ {ds}, ds ≠ [] → (digits 0 ds = .ok n ↔ (∀ d ∈ ds, d.isDigit) ∧
      n = Nat.ofDigitChars 10 ds 0 ∧ n ≤ maxJobs) := by
    intro ds hds
    rw [digits_eq_ok]
    simp [hds]
  constructor
  · intro hnumber
    unfold number at hnumber
    split at hnumber
    · cases hnumber
    · cases hnumber
    · rename_i cs hcs
      have hne : cs ≠ [] := by
        rintro rfl
        exact hcs rfl
      exact ⟨['+'], cs, Or.inr rfl, hne, ((hdigits hne).mp hnumber).1, rfl,
        ((hdigits hne).mp hnumber).2⟩
    · rename_i hne _ _
      exact ⟨[], cs, Or.inl rfl, hne, ((hdigits hne).mp hnumber).1, rfl,
        ((hdigits hne).mp hnumber).2⟩
  · rintro ⟨sign, ds, hsign, hne, hall, hencode, hn⟩
    obtain rfl := encode_injective hencode
    rcases hsign with rfl | rfl
    · obtain ⟨d, ds, rfl⟩ := List.exists_cons_of_ne_nil hne
      have hplus : d ≠ '+' := by
        rintro rfl
        exact absurd (hall '+' (List.mem_cons_self ..)) (by decide)
      rw [List.nil_append, number]
      · exact (hdigits hne).mpr ⟨hall, hn⟩
      all_goals simp [hplus]
    · rw [List.singleton_append, number]
      · exact (hdigits hne).mpr ⟨hall, hn⟩
      · exact hne

theorem exists_eq_bytesOf_iff {value : Bytes} :
    (∃ s, value = bytesOf s) ↔ ∃ cs, decode? value = some cs := by
  simp only [decode?_eq_some]
  exact ⟨fun ⟨s, hs⟩ ↦ ⟨s.toList, hs⟩,
    fun ⟨cs, hcs⟩ ↦ ⟨String.ofList cs, by rw [hcs, bytesOf, String.toList_ofList]⟩⟩

/-! ### Refusals -/

def Refuses {α : Type} (x : Except Halt α) : Prop :=
  ∃ refusal, x = .error (.refused refusal)

/-- A step that asks for no text: it is refused or goes on. -/
def Decided {α : Type} (x : Except Halt α) : Prop :=
  Refuses x ∨ ∃ a, x = .ok a

section

variable {α β : Type} {x : Except Halt α}

theorem Refuses.bind (hx : Refuses x) (f : α → Except Halt β) : Refuses (x >>= f) := by
  obtain ⟨refusal, rfl⟩ := hx
  exact ⟨refusal, rfl⟩

theorem Decided.bind (hx : Decided x) {f : α → Except Halt β} (hf : ∀ a, Decided (f a)) :
    Decided (x >>= f) := by
  rcases hx with hx | ⟨a, rfl⟩
  · exact Or.inl (hx.bind f)
  · exact hf a

theorem Decided.exists_ok (hx : Decided x) (hnot : ¬Refuses x) : ∃ a, x = .ok a :=
  hx.resolve_left hnot

theorem not_refuses_ok (a : α) : ¬Refuses (.ok a : Except Halt α) := by
  rintro ⟨refusal, ⟨⟩⟩

end

theorem decided_orHalt (p : Reading × Option Fault) : Decided (orHalt p) := by
  obtain ⟨r, _ | fault⟩ := p
  · exact Or.inr ⟨r, rfl⟩
  · exact Or.inl ⟨_, rfl⟩

theorem take_eq {a : Argument} (ha : a.asks? = none) (r : Reading) (value : Option Bytes) :
    r.take a value = orHalt r.settle >>= fun r ↦ orHalt (r.accept a value) := by
  cases a <;> first | rfl | cases ha

theorem take_of_asks {a : Argument} {h : Halt} (ha : a.asks? = some h) (r : Reading)
    (value : Option Bytes) : r.take a value = orHalt r.settle >>= fun _ ↦ .error h := by
  cases a <;> cases ha <;> rfl

theorem decided_take {a : Argument} (ha : a.asks? = none) (r : Reading) (value : Option Bytes) :
    Decided (r.take a value) := by
  rw [take_eq ha]
  exact (decided_orHalt _).bind fun r ↦ decided_orHalt _

theorem decided_option {a : Argument} (ha : a.takesValue) (r : Reading) (value : Option Bytes) :
    Decided (r.option a value) := by
  cases value with
  | none => exact (decided_orHalt _).bind fun r ↦ Or.inr ⟨_, rfl⟩
  | some v => exact decided_take (Argument.asks?_of_takesValue ha) r (some v)

theorem decided_place (r : Reading) (word : Bytes) : Decided (r.place word) := by
  rw [Reading.place]
  split_ifs
  · exact Or.inl ⟨_, rfl⟩
  · exact (decided_orHalt _).bind fun r ↦ Or.inr ⟨_, rfl⟩

/-- Taking an argument settles what is pending. -/
theorem exists_settle_of_take {r : Reading} {a : Argument} {value : Option Bytes}
    (hnot : ¬Refuses (r.take a value)) : ∃ r₁, orHalt r.settle = .ok r₁ :=
  (decided_orHalt _).exists_ok fun h ↦ hnot (h.bind _)

theorem exists_settle_of_option {r : Reading} {a : Argument} {value : Option Bytes}
    (hnot : ¬Refuses (r.option a value)) : ∃ r₁, orHalt r.settle = .ok r₁ := by
  cases value with
  | none => exact (decided_orHalt _).exists_ok fun h ↦ hnot (h.bind _)
  | some v => exact exists_settle_of_take hnot

/-! ### Letters after one dash -/

/-- The value that stands in one word with the letter of its argument. -/
def attached? : Bytes → Option Bytes
  | [] => none
  | b :: bs => if b = equalsSign then some bs else some (b :: bs)

theorem attached?_of_head? {bs : Bytes} (hbs : bs ≠ []) (hhead : bs.head? ≠ some equalsSign) :
    attached? bs = some bs := by
  cases bs with
  | nil => exact absurd rfl hbs
  | cons b bs => exact if_neg fun hb ↦ hhead (by rw [hb, List.head?_cons])

/-- Reads the letters after one dash. -/
def cluster (r : Reading) (bs : Bytes) : Except Halt Reading :=
  r.shorts (splitText bs).1 (splitText bs).2

theorem cluster_nil (r : Reading) : cluster r [] = .ok r :=
  rfl

theorem cluster_option (r : Reading) {a : Argument} {letter : Char}
    (hletter : a.short? = some letter) (htakes : a.takesValue) (bs : Bytes) :
    cluster r (encode [letter] ++ bs) = r.option a (attached? bs) := by
  have hbs := encode_splitText_append bs
  have hhead : bs.head? = some equalsSign → (splitText bs).1.head? = some '=' :=
    head?_splitText_of_head?
  rw [cluster, splitText_encode_append]
  generalize splitText bs = split at hbs hhead
  obtain ⟨cs, rest⟩ := split
  subst hbs
  simp only [List.singleton_append, Reading.shorts, Argument.ofShort?_eq_some.mpr hletter, htakes,
    if_true]
  congr 1
  split
  · rfl
  · rename_i hother
    have hnot : (encode cs ++ rest).head? ≠ some equalsSign := by
      intro heq
      obtain ⟨cs', rfl⟩ : ∃ cs', cs = '=' :: cs' := List.head?_eq_some_iff.mp (hhead heq)
      exact hother cs' rfl
    cases hbs : encode cs ++ rest with
    | nil =>
      obtain ⟨hcs, rfl⟩ := List.append_eq_nil_iff.mp hbs
      obtain rfl : cs = [] := encode_injective hcs
      rfl
    | cons b bs =>
      rw [← hbs, attached?_of_head? (by rw [hbs]; exact List.cons_ne_nil b bs) hnot, if_neg]
      intro hnil
      rw [Bool.and_eq_true, List.isEmpty_iff, List.isEmpty_iff] at hnil
      obtain ⟨rfl, rfl⟩ := hnil
      cases hbs

theorem cluster_flag (r : Reading) {f : Argument} {letter : Char}
    (hletter : f.short? = some letter) (hf : f.takesValue = false) (bs : Bytes) :
    cluster r (encode [letter] ++ bs) = (r.take f none).bind fun r ↦ cluster r bs := by
  rw [cluster, splitText_encode_append]
  simp only [List.singleton_append, Reading.shorts, Argument.ofShort?_eq_some.mpr hletter, hf,
    Bool.false_eq_true, if_false]
  rfl

/-- Only letters of arguments are not refused. -/
theorem exists_letter_of_cluster {r : Reading} {bs : Bytes} (hnot : ¬Refuses (cluster r bs)) :
    bs = [] ∨ ∃ (a : Argument) (letter : Char) (bs' : Bytes), a.short? = some letter ∧
      bs = encode [letter] ++ bs' := by
  have hbs := encode_splitText_append bs
  rw [cluster] at hnot
  generalize splitText bs = split at hbs hnot
  obtain ⟨cs, rest⟩ := split
  subst hbs
  cases cs with
  | nil =>
    cases rest with
    | nil => exact Or.inl rfl
    | cons b rest => exact absurd ⟨_, rfl⟩ hnot
  | cons c cs =>
    cases ha : Argument.ofShort? c with
    | none =>
      simp only [Reading.shorts, ha] at hnot
      exact absurd ⟨_, rfl⟩ hnot
    | some a =>
      refine Or.inr ⟨a, c, encode cs ++ rest, Argument.ofShort?_eq_some.mp ha, ?_⟩
      rw [← List.append_assoc, ← encode_append, List.singleton_append]

/-! ### What has been read -/

/-- What has been read when arguments are accepted and none is pending. -/
def settled (g : List (Argument × Bytes)) : Reading :=
  { given := g, placed := decide (Argument.packageDir ∈ g.map Prod.fst) }

/-- What has been read when arguments are spelled: all are accepted, or the last is pending. -/
inductive Tells (g : List (Argument × Bytes)) : Reading → Prop
  | accepted : Valid g → Tells g (settled g)
  | pending {g' : List (Argument × Bytes)} {a : Argument} {value : Bytes} :
      g = g' ++ [(a, value)] → a.takesValue → Valid g' →
      Tells g { settled g with given := g', pending := some (a, some value) }

variable {g : List (Argument × Bytes)} {r r' : Reading}

theorem orHalt_eq_ok {p : Reading × Option Fault} : orHalt p = .ok r ↔ p = (r, none) := by
  obtain ⟨r', _ | f⟩ := p
  · simp [orHalt]
  · simp [orHalt]

theorem valueFault?_eq_none {a : Argument} (ha : a.takesValue) (value : Bytes) :
    Reading.valueFault? a value = none ↔ a.Fits value := by
  have htext : (if (decode? value).isNone then some Fault.notText else none) = none ↔
      ∃ s, value = bytesOf s := by
    rw [exists_eq_bytesOf_iff]
    simp [Option.ne_none_iff_exists']
  cases a with
  | packageDir => simp [Reading.valueFault?, Argument.Fits]
  | bundleDir | extension | condition | manifest => exact htext
  | jobs =>
    simp only [Reading.valueFault?, Argument.Fits]
    cases hdecode : decode? value with
    | none =>
      refine iff_of_false (Option.some_ne_none _) ?_
      rintro ⟨n, sign, ds, -, -, -, rfl, -⟩
      rw [decode?_encode] at hdecode
      cases hdecode
    | some cs =>
      rw [decode?_eq_some.mp hdecode]
      simp only [← number_eq_ok]
      cases number cs with
      | ok n => simp
      | error p => simp
  | verbose | quiet | help | version => cases ha

theorem accept_eq (r : Reading) {a : Argument} {value : Option Bytes}
    (hvalue : value.isSome = a.takesValue) :
    ∃ fault : Option Fault, (fault = none ↔ a.Fits (value.getD [])) ∧
      r.accept a value = if r.has a then (r.without a, some (.repeated a)) else
        ({ r with given := r.given ++ [(a, value.getD [])] }, fault) := by
  cases value with
  | none =>
    refine ⟨none, iff_of_true rfl ?_, by simp [Reading.accept, ← hvalue]⟩
    cases a <;> first | rfl | cases hvalue
  | some v =>
    exact ⟨Reading.valueFault? a v, valueFault?_eq_none hvalue.symm v,
      by simp [Reading.accept, ← hvalue]⟩

theorem orHalt_accept_iff (hr : Valid r.given) {a : Argument} {value : Option Bytes}
    (hvalue : value.isSome = a.takesValue) :
    orHalt (r.accept a value) = .ok r' ↔ Valid (r.given ++ [(a, value.getD [])]) ∧
      r' = { r with given := r.given ++ [(a, value.getD [])] } := by
  have hhas : r.has a ↔ a ∈ r.given.map Prod.fst := by simp [Reading.has]
  obtain ⟨fault, hfault, haccept⟩ := accept_eq r hvalue
  rw [orHalt_eq_ok, haccept, valid_concat, ← hfault, ← hhas]
  split_ifs with hgiven
  · simp [hgiven]
  · simp [hgiven, hr, and_comm, eq_comm]

theorem Tells.ended_eq (hr : Tells g r) : r.ended = false := by
  cases hr <;> rfl

theorem Tells.placed_iff (hr : Tells g r) : r.placed ↔ Argument.packageDir ∈ g.map Prod.fst := by
  cases hr <;> exact decide_eq_true_iff

theorem Tells.pending_ne (hr : Tells g r) (a : Argument) : r.pending ≠ some (a, none) := by
  cases hr with
  | accepted => rintro ⟨⟩
  | pending => rintro ⟨⟩

/-- What is pending is accepted exactly if the arguments spelled so far are valid. -/
theorem Tells.settle_iff (hr : Tells g r) :
    orHalt r.settle = .ok r' ↔ Valid g ∧ r' = settled g := by
  cases hr with
  | accepted hg =>
    have hsettle : orHalt (settled g).settle = .ok (settled g) := rfl
    rw [hsettle, Except.ok.injEq, eq_comm]
    exact (and_iff_right hg).symm
  | @pending g' a value hlast ha hg' =>
    subst hlast
    have hvalue : (some value).isSome = a.takesValue := ha.symm
    exact orHalt_accept_iff (r := { settled (g' ++ [(a, value)]) with given := g' }) hg' hvalue

/-- What is pending is settled before the reading is changed. -/
theorem Tells.settle_bind_iff (hr : Tells g r) (change : Reading → Reading) :
    (orHalt r.settle >>= fun s ↦ .ok (change s)) = .ok r' ↔ Valid g ∧ r' = change (settled g) := by
  rw [bind_eq_ok]
  simp only [hr.settle_iff]
  constructor
  · rintro ⟨_, ⟨hg, rfl⟩, hr'⟩
    exact ⟨hg, (Except.ok.inj hr').symm⟩
  · rintro ⟨hg, rfl⟩
    exact ⟨_, ⟨hg, rfl⟩, rfl⟩

theorem settled_concat {a : Argument} (ha : a ≠ .packageDir) (value : Bytes) :
    settled (g ++ [(a, value)]) = { settled g with given := g ++ [(a, value)] } := by
  simp [settled, ha.symm]

/-- An argument is taken, with a value if it needs one, exactly if it may be given now. -/
theorem Tells.take_iff (hr : Tells g r) {a : Argument} (ha : a ≠ .packageDir)
    (hasks : a.asks? = none) {value : Option Bytes} (hvalue : value.isSome = a.takesValue) :
    r.take a value = .ok r' ↔ Valid (g ++ [(a, value.getD [])]) ∧
      r' = settled (g ++ [(a, value.getD [])]) := by
  rw [take_eq hasks, bind_eq_ok, settled_concat ha]
  simp only [hr.settle_iff]
  constructor
  · rintro ⟨_, ⟨hg, rfl⟩, haccept⟩
    exact (orHalt_accept_iff hg hvalue).mp haccept
  · rintro ⟨hg, hr'⟩
    exact ⟨_, ⟨hg.left, rfl⟩, (orHalt_accept_iff hg.left hvalue).mpr ⟨hg, hr'⟩⟩

theorem Tells.take_flag_iff (hr : Tells g r) {f : Argument} (hf : f.IsFlag) :
    r.take f none = .ok r' ↔ Valid (g ++ [(f, [])]) ∧ r' = settled (g ++ [(f, [])]) := by
  have hvalue : (none : Option Bytes).isSome = f.takesValue := hf.takesValue_eq.symm
  rcases hf with rfl | rfl <;> exact hr.take_iff (by decide) rfl hvalue

/-- A text is asked for once what is pending is settled. -/
theorem Tells.take_asks (hr : Tells g r) (hg : Valid g) {a : Argument} {h : Halt}
    (ha : a.asks? = some h) (value : Option Bytes) : r.take a value = .error h := by
  rw [take_of_asks ha, hr.settle_iff.mpr ⟨hg, rfl⟩]
  rfl

theorem Tells.valid_of_take (hr : Tells g r) {a : Argument} {value : Option Bytes}
    (hnot : ¬Refuses (r.take a value)) : Valid g := by
  obtain ⟨r₁, hr₁⟩ := exists_settle_of_take hnot
  exact (hr.settle_iff.mp hr₁).1

/-- An argument that still needs its value. -/
def awaiting (g : List (Argument × Bytes)) (a : Argument) : Reading :=
  { settled g with pending := some (a, none) }

theorem Tells.option_some_iff (hr : Tells g r) {a : Argument} (htakes : a.takesValue)
    (ha : a ≠ .packageDir) (value : Bytes) :
    r.option a (some value) = .ok r' ↔
      Valid (g ++ [(a, value)]) ∧ r' = settled (g ++ [(a, value)]) :=
  hr.take_iff ha (Argument.asks?_of_takesValue htakes) htakes.symm

theorem Tells.option_none_iff (hr : Tells g r) (a : Argument) :
    r.option a none = .ok r' ↔ Valid g ∧ r' = awaiting g a :=
  hr.settle_bind_iff fun s ↦ { s with pending := some (a, none) }

/-! ### One more word -/

theorem standing_or (word : Bytes) :
    Standing word ∨ word = [dash, dash] ∨ (∃ b rest, word = dash :: dash :: b :: rest) ∨
      ∃ b rest, b ≠ dash ∧ word = dash :: b :: rest := by
  by_cases hhead : word.head? = some dash
  · obtain ⟨rest, rfl⟩ := List.head?_eq_some_iff.mp hhead
    rcases rest with _ | ⟨b, rest⟩
    · exact Or.inl (Or.inl rfl)
    · by_cases hb : b = dash
      · subst hb
        rcases rest with _ | ⟨b, rest⟩
        · exact Or.inr (Or.inl rfl)
        · exact Or.inr (Or.inr (Or.inl ⟨b, rest, rfl⟩))
      · exact Or.inr (Or.inr (Or.inr ⟨b, rest, hb, rfl⟩))
  · exact Or.inl (Or.inr hhead)

theorem Standing.ne_letters {word : Bytes} (hword : Standing word) (b : UInt8) (rest : Bytes) :
    word ≠ dash :: b :: rest := by
  rintro rfl
  rcases hword with h | h
  · cases h
  · exact h rfl

theorem awaiting_next {word : Bytes} (hword : Standing word) (g : List (Argument × Bytes))
    (a : Argument) : (awaiting g a).next word =
      .ok { settled g with pending := some (a, some word) } := by
  unfold Reading.next
  rw [if_neg (by simp [awaiting, settled]), if_neg (hword.ne_letters _ _)]
  split
  · exact absurd rfl (hword.ne_letters _ _)
  · exact absurd rfl (hword.ne_letters _ _)
  · rfl

theorem Tells.next_eq_place (hr : Tells g r) {word : Bytes} (hword : Standing word) :
    r.next word = r.place word := by
  unfold Reading.next
  rw [hr.ended_eq, if_neg Bool.false_ne_true, if_neg (hword.ne_letters _ _)]
  split
  · exact absurd rfl (hword.ne_letters _ _)
  · exact absurd rfl (hword.ne_letters _ _)
  · split
    · rename_i hpending
      exact absurd hpending (hr.pending_ne _)
    · rfl

theorem next_dashes (hended : r.ended = false) :
    r.next [dash, dash] = .ok { r with ended := true } := by
  unfold Reading.next
  rw [hended, if_neg Bool.false_ne_true, if_pos rfl]

/-- After one dash stand letters. -/
theorem next_eq_cluster (hended : r.ended = false) {b : UInt8} (hb : b ≠ dash) (bs : Bytes) :
    r.next (dash :: b :: bs) = cluster r (b :: bs) := by
  have hne : dash :: b :: bs ≠ [dash, dash] := by simp [hb]
  unfold Reading.next
  rw [hended, if_neg Bool.false_ne_true, if_neg hne]
  split
  · rename_i heq
    exact absurd (List.cons.inj (List.cons.inj heq).2).1 hb
  · rename_i heq
    obtain ⟨rfl, rfl⟩ := List.cons.inj (List.cons.inj heq).2
    rfl
  · rename_i hother
    exact (hother _ _ rfl).elim

/-- After two dashes stands a word, and a value after an equals sign. -/
theorem next_eq_long (hended : r.ended = false) {rest : Bytes} (hrest : rest ≠ []) :
    r.next (dash :: dash :: rest) = r.long (rest.takeWhile (· ≠ equalsSign))
      (if equalsSign ∈ rest then
        some (rest.drop ((rest.takeWhile (· ≠ equalsSign)).length + 1)) else none) := by
  have hne : dash :: dash :: rest ≠ [dash, dash] := by simp [hrest]
  unfold Reading.next
  rw [hended, if_neg Bool.false_ne_true, if_neg hne]
  simp only [List.contains_iff_mem]
  rfl

theorem long_eq (r : Reading) {a : Argument} {word : String} (hword : a.long? = some word)
    (value : Option Bytes) (hvalue : a.takesValue = false → value = none) :
    r.long (bytesOf word) value = if a.takesValue then r.option a value else r.take a none := by
  have hfind : (decode? (bytesOf word)).bind (fun cs ↦ Argument.ofLong? (String.ofList cs)) =
      some a := by
    rw [decode?_bytesOf, Option.bind_some, String.ofList_toList]
    exact Argument.ofLong?_eq_some.mpr hword
  rw [Reading.long, hfind]
  cases htakes : a.takesValue with
  | true => simp [htakes]
  | false => simp [htakes, hvalue htakes]

theorem next_long (hended : r.ended = false) {a : Argument} {word : String}
    (hword : a.long? = some word) : r.next (dash :: dash :: bytesOf word) =
      if a.takesValue then r.option a none else r.take a none := by
  have hnot := Argument.equalsSign_notMem_long hword
  have htake : (bytesOf word).takeWhile (· ≠ equalsSign) = bytesOf word :=
    List.takeWhile_eq_self_iff.mpr fun b hb ↦ decide_eq_true (ne_of_mem_of_not_mem hb hnot)
  rw [next_eq_long hended (Argument.long_ne_nil hword), htake, if_neg hnot,
    long_eq r hword none fun _ ↦ rfl]

theorem next_long_equals (hended : r.ended = false) {a : Argument} {word : String}
    (hword : a.long? = some word) (htakes : a.takesValue) (value : Bytes) :
    r.next (dash :: dash :: (bytesOf word ++ equalsSign :: value)) = r.option a (some value) := by
  have hnot := Argument.equalsSign_notMem_long hword
  have htake : (bytesOf word ++ equalsSign :: value).takeWhile (· ≠ equalsSign) = bytesOf word := by
    rw [List.takeWhile_append_of_pos fun b hb ↦ decide_eq_true (ne_of_mem_of_not_mem hb hnot)]
    simp
  rw [next_eq_long hended (by simp), htake, if_pos (by simp), long_eq r hword _ (by simp [htakes]),
    if_pos htakes]
  simp

/-- A word in its place is a directory, if none has been given. -/
theorem Tells.place_iff (hr : Tells g r) (word : Bytes) :
    r.place word = .ok r' ↔ (Argument.packageDir ∉ g.map Prod.fst ∧ Valid g) ∧
      r' = { settled (g ++ [(.packageDir, word)]) with
        given := g, pending := some (.packageDir, some word) } := by
  have hplaced : { settled (g ++ [(.packageDir, word)]) with
      given := g, pending := some (.packageDir, some word) } =
        { settled g with placed := true, pending := some (.packageDir, some word) } := by
    simp [settled]
  rw [Reading.place, hplaced]
  split_ifs with hgiven
  · simp [hr.placed_iff.mp hgiven]
  · rw [hr.placed_iff] at hgiven
    rw [and_iff_right hgiven]
    exact hr.settle_bind_iff fun s ↦
      { s with pending := some (.packageDir, some word), placed := true }

theorem tells_pending {a : Argument} {value : Bytes} (htakes : a.takesValue)
    (hg : Valid (g ++ [(a, value)])) :
    Tells (g ++ [(a, value)]) { settled (g ++ [(a, value)]) with
      given := g, pending := some (a, some value) } :=
  .pending rfl htakes hg.left

end BundleLink.CommandLine
