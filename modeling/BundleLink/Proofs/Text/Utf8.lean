import BundleLink.Proofs.Basic
import BundleLink.Text.Utf8

/-!
Text survives as bytes and bytes as text: what is encoded is decoded again, character by character
(`decode?_encode`), and what could be decoded is encoded to the same bytes (`encode_of_decode?`). A
byte below 128 in an encoded text is the character of that number (`mem_of_mem_encode`), so cutting
the bytes at such a character cuts the text there.
-/

set_option autoImplicit false

namespace BundleLink.Text

/-! ### One character -/

theorem toNat_ofNat_of_lt {n : Nat} (hn : n < 256) : (UInt8.ofNat n).toNat = n := by
  rw [UInt8.toNat_ofNat']
  omega

theorem ofNat_toNat_val (c : Char) : Char.ofNat c.val.toNat = c :=
  Char.ofNat_toNat c

theorem val_lt (c : Char) :
    c.val.toNat < 0xD800 ∨ 0xDFFF < c.val.toNat ∧ c.val.toNat < 0x110000 :=
  c.valid

/-- The lead bytes of two, three and four bytes, by the bits that they carry. -/
theorem owedBy?_two : ∀ k < 32, 2 ≤ k →
    owedBy? (UInt8.ofNat (k + 0xC0)) = some ⟨0, 0x80, 0xBF, k⟩ := by
  decide

theorem owedBy?_three : ∀ k < 16, owedBy? (UInt8.ofNat (k + 0xE0)) =
    some ⟨1, if k = 0 then 0xA0 else 0x80, if k = 0xD then 0x9F else 0xBF, k⟩ := by
  decide

theorem owedBy?_four : ∀ k < 5, owedBy? (UInt8.ofNat (k + 0xF0)) =
    some ⟨2, if k = 0 then 0x90 else 0x80, if k = 4 then 0x8F else 0xBF, k⟩ := by
  decide

section

variable {low high : UInt8} {n : Nat} (hn : n < 64) (hlow : low.toNat ≤ n + 0x80)
  (hhigh : n + 0x80 ≤ high.toNat) (value : Nat) (bs : Bytes)

include hn hlow hhigh

theorem owed_range : (low ≤ UInt8.ofNat (n + 0x80) ∧ UInt8.ofNat (n + 0x80) ≤ high) ∧
    (UInt8.ofNat (n + 0x80)).toNat - 0x80 = n := by
  have hnat : (UInt8.ofNat (n + 0x80)).toNat = n + 0x80 := toNat_ofNat_of_lt (by omega)
  simp only [UInt8.le_iff_toNat_le, hnat]
  exact ⟨⟨hlow, hhigh⟩, by omega⟩

theorem piecesAfter_last :
    piecesAfter (some ⟨0, low, high, value⟩) (UInt8.ofNat (n + 0x80) :: bs) =
      some (Char.ofNat (value * 64 + n)) :: piecesAfter none bs := by
  obtain ⟨hrange, hvalue⟩ := owed_range hn hlow hhigh
  rw [piecesAfter, if_pos hrange, hvalue]

theorem piecesAfter_next (more : Nat) :
    piecesAfter (some ⟨more + 1, low, high, value⟩) (UInt8.ofNat (n + 0x80) :: bs) =
      piecesAfter (some ⟨more, 0x80, 0xBF, value * 64 + n⟩) bs := by
  obtain ⟨hrange, hvalue⟩ := owed_range hn hlow hhigh
  rw [piecesAfter, if_pos hrange, hvalue]

end

theorem piecesAfter_lead {n : Nat} (hn : 0x80 ≤ n) (hlt : n < 256) {o : Owed}
    (ho : owedBy? (UInt8.ofNat n) = some o) (bs : Bytes) :
    piecesAfter none (UInt8.ofNat n :: bs) = piecesAfter (some o) bs := by
  have hlarge : ¬UInt8.ofNat n < 0x80 := by
    rw [UInt8.lt_iff_toNat_lt, toNat_ofNat_of_lt hlt]
    exact Nat.not_lt.mpr hn
  rw [piecesAfter, if_neg hlarge, ho]

/-- The bounds of a byte that is not the first or second. -/
theorem tail_range (v : Nat) :
    (0x80 : UInt8).toNat ≤ v % 64 + 0x80 ∧ v % 64 + 0x80 ≤ (0xBF : UInt8).toNat := by
  simp only [UInt8.reduceToNat]
  omega

/-- An encoded character is read as that character, whatever follows it. -/
theorem piecesAfter_utf8EncodeChar (c : Char) (bs : Bytes) :
    piecesAfter none (String.utf8EncodeChar c ++ bs) = some c :: piecesAfter none bs := by
  have hc := ofNat_toNat_val c
  have hvalid := val_lt c
  unfold String.utf8EncodeChar
  generalize c.val.toNat = v at hc hvalid
  subst hc
  simp only
  split_ifs with hone htwo hthree
  · have hsmall : UInt8.ofNat v < 0x80 := by
      rw [UInt8.lt_iff_toNat_lt, toNat_ofNat_of_lt (by omega)]
      exact Nat.lt_succ_of_le hone
    rw [List.singleton_append, piecesAfter, if_pos hsmall, toNat_ofNat_of_lt (by omega)]
  · have hlead := owedBy?_two (v / 64 % 32) (by omega) (by omega)
    simp only [List.cons_append, List.nil_append]
    rw [piecesAfter_lead (by omega) (by omega) hlead,
      piecesAfter_last (by omega) (tail_range _).1 (tail_range _).2]
    have hvalue : v / 64 % 32 * 64 + v % 64 = v := by omega
    rw [hvalue]
  · have hlead := owedBy?_three (v / 4096 % 16) (by omega)
    simp only [List.cons_append, List.nil_append]
    rw [piecesAfter_lead (by omega) (by omega) hlead,
      piecesAfter_next (by omega) (by split_ifs <;> simp only [UInt8.reduceToNat] <;> omega)
        (by split_ifs <;> simp only [UInt8.reduceToNat] <;> omega),
      piecesAfter_last (by omega) (tail_range _).1 (tail_range _).2]
    have hvalue : (v / 4096 % 16 * 64 + v / 64 % 64) * 64 + v % 64 = v := by omega
    rw [hvalue]
  · have hlead := owedBy?_four (v / 262144 % 8) (by omega)
    simp only [List.cons_append, List.nil_append]
    rw [piecesAfter_lead (by omega) (by omega) hlead,
      piecesAfter_next (by omega) (by split_ifs <;> simp only [UInt8.reduceToNat] <;> omega)
        (by split_ifs <;> simp only [UInt8.reduceToNat] <;> omega),
      piecesAfter_next (by omega) (tail_range _).1 (tail_range _).2,
      piecesAfter_last (by omega) (tail_range _).1 (tail_range _).2]
    have hvalue : ((v / 262144 % 8 * 64 + v / 4096 % 64) * 64 + v / 64 % 64) * 64 + v % 64 = v := by
      omega
    rw [hvalue]

/-- Longer characters consist of large bytes. -/
theorem eq_of_mem_utf8EncodeChar {c : Char} {b : UInt8} (hb : b ∈ String.utf8EncodeChar c)
    (hsmall : b.toNat < 0x80) : Char.ofNat b.toNat = c := by
  rw [← ofNat_toNat_val c]
  have hvalid := val_lt c
  unfold String.utf8EncodeChar at hb
  generalize c.val.toNat = v at hb hvalid ⊢
  simp only at hb
  split_ifs at hb with hone htwo hthree
  · rw [List.mem_singleton.mp hb, toNat_ofNat_of_lt (by omega)]
  all_goals
    exfalso
    simp only [List.mem_cons, List.not_mem_nil, or_false] at hb
  · rcases hb with rfl | rfl <;> rw [toNat_ofNat_of_lt (by omega)] at hsmall <;> omega
  · rcases hb with rfl | rfl | rfl <;> rw [toNat_ofNat_of_lt (by omega)] at hsmall <;> omega
  · rcases hb with rfl | rfl | rfl | rfl <;> rw [toNat_ofNat_of_lt (by omega)] at hsmall <;> omega

/-! ### Texts -/

theorem encode_append (cs ds : List Char) : encode (cs ++ ds) = encode cs ++ encode ds := by
  simp [encode]

/-- A small byte of an encoded text is one of its characters. -/
theorem mem_of_mem_encode {cs : List Char} {b : UInt8} (hb : b ∈ encode cs)
    (hsmall : b.toNat < 0x80) : Char.ofNat b.toNat ∈ cs := by
  obtain ⟨c, hc, hmem⟩ := List.mem_flatMap.mp hb
  rwa [eq_of_mem_utf8EncodeChar hmem hsmall]

theorem pieces_encode_append (cs : List Char) (bs : Bytes) :
    pieces (encode cs ++ bs) = cs.map some ++ pieces bs := by
  induction cs with
  | nil => rfl
  | cons c cs ih =>
    have hcons : encode (c :: cs) ++ bs = String.utf8EncodeChar c ++ (encode cs ++ bs) := by
      simp [encode]
    rw [hcons, pieces, piecesAfter_utf8EncodeChar]
    exact congrArg (some c :: ·) ih

/-- What is encoded is decoded again. -/
theorem decode?_encode_append (cs : List Char) (bs : Bytes) :
    decode? (encode cs ++ bs) = (decode? bs).map (cs ++ ·) := by
  rw [decode?, decode?, pieces_encode_append]
  induction cs with
  | nil => simp
  | cons c cs ih =>
    rw [List.map_cons, List.cons_append, List.mapM_cons, ih]
    cases (pieces bs).mapM id <;> rfl

@[simp] theorem decode?_encode (cs : List Char) : decode? (encode cs) = some cs := by
  have happend := decode?_encode_append cs []
  rw [List.append_nil] at happend
  rw [happend]
  simp [decode?, pieces, piecesAfter]

theorem encode_injective {cs ds : List Char} (h : encode cs = encode ds) : cs = ds := by
  rw [← Option.some.injEq, ← decode?_encode cs, h, decode?_encode]

@[simp] theorem decode?_bytesOf (s : String) : decode? (bytesOf s) = some s.toList :=
  decode?_encode s.toList

/-! ### Bytes that are text -/

theorem val_ofNat {v : Nat} (hv : v < 0xD800 ∨ 0xDFFF < v ∧ v < 0x110000) :
    (Char.ofNat v).val.toNat = v := by
  have hvalid : v.isValidChar := hv
  rw [Char.ofNat, dif_pos hvalid]
  rfl

theorem utf8EncodeChar_one {v : Nat} (hv : v < 0x80) :
    String.utf8EncodeChar (Char.ofNat v) = [UInt8.ofNat v] := by
  simp only [String.utf8EncodeChar, val_ofNat (v := v) (by omega)]
  rw [if_pos (by omega)]

theorem utf8EncodeChar_two {k m : Nat} (hlow : 2 ≤ k) (hk : k < 32) (hm : m < 64) :
    String.utf8EncodeChar (Char.ofNat (k * 64 + m)) =
      [UInt8.ofNat (k + 0xC0), UInt8.ofNat (m + 0x80)] := by
  simp only [String.utf8EncodeChar, val_ofNat (v := k * 64 + m) (by omega)]
  rw [if_neg (by omega), if_pos (by omega)]
  have hk' : (k * 64 + m) / 64 % 32 = k := by omega
  have hm' : (k * 64 + m) % 64 = m := by omega
  rw [hk', hm']

theorem utf8EncodeChar_three {k m l : Nat} (hk : k < 16) (hm : m < 64) (hl : l < 64)
    (hlow : k = 0 → 32 ≤ m) (hhigh : k = 0xD → m < 32) :
    String.utf8EncodeChar (Char.ofNat ((k * 64 + m) * 64 + l)) =
      [UInt8.ofNat (k + 0xE0), UInt8.ofNat (m + 0x80), UInt8.ofNat (l + 0x80)] := by
  simp only [String.utf8EncodeChar, val_ofNat (v := (k * 64 + m) * 64 + l) (by omega)]
  rw [if_neg (by omega), if_neg (by omega), if_pos (by omega)]
  have hk' : ((k * 64 + m) * 64 + l) / 4096 % 16 = k := by omega
  have hm' : ((k * 64 + m) * 64 + l) / 64 % 64 = m := by omega
  have hl' : ((k * 64 + m) * 64 + l) % 64 = l := by omega
  rw [hk', hm', hl']

theorem utf8EncodeChar_four {k m l j : Nat} (hk : k < 5) (hm : m < 64) (hl : l < 64) (hj : j < 64)
    (hlow : k = 0 → 16 ≤ m) (hhigh : k = 4 → m < 16) :
    String.utf8EncodeChar (Char.ofNat (((k * 64 + m) * 64 + l) * 64 + j)) =
      [UInt8.ofNat (k + 0xF0), UInt8.ofNat (m + 0x80), UInt8.ofNat (l + 0x80),
        UInt8.ofNat (j + 0x80)] := by
  simp only [String.utf8EncodeChar, val_ofNat (v := ((k * 64 + m) * 64 + l) * 64 + j) (by omega)]
  rw [if_neg (by omega), if_neg (by omega), if_neg (by omega)]
  have hk' : (((k * 64 + m) * 64 + l) * 64 + j) / 262144 % 8 = k := by omega
  have hm' : (((k * 64 + m) * 64 + l) * 64 + j) / 4096 % 64 = m := by omega
  have hl' : (((k * 64 + m) * 64 + l) * 64 + j) / 64 % 64 = l := by omega
  have hj' : (((k * 64 + m) * 64 + l) * 64 + j) % 64 = j := by omega
  rw [hk', hm', hl', hj']

/-- A byte that is owed is there and in its bounds, or something is ill formed. -/
theorem piecesAfter_some {o : Owed} {bs : Bytes} {c : Char} {ps : List (Option Char)}
    (hpieces : piecesAfter (some o) bs = some c :: ps) (ho : 0x80 ≤ o.low.toNat) :
    ∃ n bs', bs = UInt8.ofNat (n + 0x80) :: bs' ∧
      o.low.toNat ≤ n + 0x80 ∧ n + 0x80 ≤ o.high.toNat ∧
      match o.more with
      | 0 => c = Char.ofNat (o.value * 64 + n) ∧ piecesAfter none bs' = ps
      | more + 1 =>
        piecesAfter (some ⟨more, 0x80, 0xBF, o.value * 64 + n⟩) bs' = some c :: ps := by
  cases bs with
  | nil => cases hpieces
  | cons b bs' =>
    rw [piecesAfter] at hpieces
    by_cases hrange : o.low ≤ b ∧ b ≤ o.high
    · rw [if_pos hrange] at hpieces
      simp only [UInt8.le_iff_toNat_le] at hrange
      have hb : b = UInt8.ofNat (b.toNat - 0x80 + 0x80) := by
        rw [Nat.sub_add_cancel (Nat.le_trans ho hrange.1), UInt8.ofNat_toNat]
      refine ⟨b.toNat - 0x80, bs', by rw [← hb], by omega, by omega, ?_⟩
      cases hmore : o.more with
      | zero =>
        simp only [hmore, List.cons.injEq, Option.some.injEq] at hpieces
        exact ⟨hpieces.1.symm, hpieces.2⟩
      | succ more => simpa [hmore] using hpieces
    · rw [if_neg hrange] at hpieces
      split_ifs at hpieces
      · cases hpieces
      · split at hpieces
        · cases hpieces
        · cases hpieces

/-- What the lead byte of a longer character is, and what it owes. -/
theorem owedBy?_eq_some {n : Nat} (hn : n < 256) {o : Owed}
    (ho : owedBy? (UInt8.ofNat n) = some o) :
    (∃ k, 2 ≤ k ∧ k < 32 ∧ n = k + 0xC0 ∧ o = ⟨0, 0x80, 0xBF, k⟩) ∨
    (∃ k < 16, n = k + 0xE0 ∧
      o = ⟨1, if k = 0 then 0xA0 else 0x80, if k = 0xD then 0x9F else 0xBF, k⟩) ∨
    ∃ k < 5, n = k + 0xF0 ∧
      o = ⟨2, if k = 0 then 0x90 else 0x80, if k = 4 then 0x8F else 0xBF, k⟩ := by
  have hnone : ∀ n < 256, owedBy? (UInt8.ofNat n) ≠ none →
      (0xC2 ≤ n ∧ n < 0xE0) ∨ (0xE0 ≤ n ∧ n < 0xF0) ∨ (0xF0 ≤ n ∧ n < 0xF5) := by
    decide +kernel
  rcases hnone n hn (by simp [ho]) with ⟨hlow, hhigh⟩ | ⟨hlow, hhigh⟩ | ⟨hlow, hhigh⟩
  · obtain ⟨k, rfl⟩ : ∃ k, n = k + 0xC0 := ⟨n - 0xC0, by omega⟩
    rw [owedBy?_two k (by omega) (by omega), Option.some.injEq] at ho
    exact Or.inl ⟨k, by omega, by omega, rfl, ho.symm⟩
  · obtain ⟨k, rfl⟩ : ∃ k, n = k + 0xE0 := ⟨n - 0xE0, by omega⟩
    rw [owedBy?_three k (by omega), Option.some.injEq] at ho
    exact Or.inr (Or.inl ⟨k, by omega, rfl, ho.symm⟩)
  · obtain ⟨k, rfl⟩ : ∃ k, n = k + 0xF0 := ⟨n - 0xF0, by omega⟩
    rw [owedBy?_four k (by omega), Option.some.injEq] at ho
    exact Or.inr (Or.inr ⟨k, by omega, rfl, ho.symm⟩)

/-- The bytes of a first character that is well formed stand in front. -/
theorem exists_append_of_pieces {bs : Bytes} {c : Char} {ps : List (Option Char)}
    (hpieces : piecesAfter none bs = some c :: ps) :
    ∃ bs', bs = String.utf8EncodeChar c ++ bs' ∧ piecesAfter none bs' = ps := by
  cases bs with
  | nil => cases hpieces
  | cons b bs =>
    have hb : b = UInt8.ofNat b.toNat := UInt8.ofNat_toNat.symm
    have hlt : b.toNat < 256 := b.toNat_lt
    generalize b.toNat = n at hb hlt
    subst hb
    rw [piecesAfter] at hpieces
    by_cases hsmall : UInt8.ofNat n < 0x80
    · have hn : n < 0x80 := by
        rwa [UInt8.lt_iff_toNat_lt, toNat_ofNat_of_lt hlt] at hsmall
      rw [if_pos hsmall, toNat_ofNat_of_lt hlt, List.cons.injEq, Option.some.injEq] at hpieces
      obtain ⟨rfl, hrest⟩ := hpieces
      exact ⟨bs, by rw [utf8EncodeChar_one hn, List.singleton_append], hrest⟩
    · rw [if_neg hsmall] at hpieces
      cases howed : owedBy? (UInt8.ofNat n) with
      | none =>
        simp only [howed] at hpieces
        cases hpieces
      | some o =>
        simp only [howed] at hpieces
        rcases owedBy?_eq_some hlt howed with ⟨k, hk₂, hk, rfl, rfl⟩ | ⟨k, hk, rfl, rfl⟩ |
          ⟨k, hk, rfl, rfl⟩
        · obtain ⟨m, bs₁, rfl, hlow, hhigh, rfl, hdone⟩ :=
            piecesAfter_some hpieces (Nat.le_refl 0x80)
          simp only [UInt8.reduceToNat] at hlow hhigh
          exact ⟨bs₁, by rw [utf8EncodeChar_two hk₂ hk (by omega)]; rfl, hdone⟩
        · obtain ⟨m, bs₁, rfl, hlow, hhigh, hmore⟩ :=
            piecesAfter_some hpieces (by simp only; split_ifs <;> decide)
          obtain ⟨l, bs₂, rfl, hlow₂, hhigh₂, rfl, hdone⟩ :=
            piecesAfter_some hmore (Nat.le_refl 0x80)
          simp only [UInt8.reduceToNat] at hlow hhigh hlow₂ hhigh₂
          have hm : m < 64 ∧ (k = 0 → 32 ≤ m) ∧ (k = 0xD → m < 32) := by
            split_ifs at hlow hhigh <;> simp only [UInt8.reduceToNat] at hlow hhigh <;> omega
          refine ⟨bs₂, ?_, hdone⟩
          rw [utf8EncodeChar_three hk hm.1 (by omega) hm.2.1 hm.2.2]
          rfl
        · obtain ⟨m, bs₁, rfl, hlow, hhigh, hmore⟩ :=
            piecesAfter_some hpieces (by simp only; split_ifs <;> decide)
          obtain ⟨l, bs₂, rfl, hlow₂, hhigh₂, hmore₂⟩ := piecesAfter_some hmore (Nat.le_refl 0x80)
          obtain ⟨j, bs₃, rfl, hlow₃, hhigh₃, rfl, hdone⟩ :=
            piecesAfter_some hmore₂ (Nat.le_refl 0x80)
          simp only [UInt8.reduceToNat] at hlow hhigh hlow₂ hhigh₂ hlow₃ hhigh₃
          have hm : m < 64 ∧ (k = 0 → 16 ≤ m) ∧ (k = 4 → m < 16) := by
            split_ifs at hlow hhigh <;> simp only [UInt8.reduceToNat] at hlow hhigh <;> omega
          refine ⟨bs₃, ?_, hdone⟩
          rw [utf8EncodeChar_four hk hm.1 (by omega) (by omega) hm.2.1 hm.2.2]
          rfl

/-- Characters that are well formed stand in front in their encoding. -/
theorem exists_encode_append {bs : Bytes} {cs : List Char} {ps : List (Option Char)}
    (hpieces : pieces bs = cs.map some ++ ps) :
    ∃ bs', bs = encode cs ++ bs' ∧ pieces bs' = ps := by
  induction cs generalizing bs with
  | nil => exact ⟨bs, rfl, hpieces⟩
  | cons c cs ih =>
    obtain ⟨rest, rfl, hrest⟩ := exists_append_of_pieces hpieces
    obtain ⟨bs', rfl, hbs'⟩ := ih hrest
    exact ⟨bs', (List.append_assoc ..).symm, hbs'⟩

/-- Whatever is there is read as something. -/
theorem piecesAfter_ne_nil : ∀ (owed : Option Owed) (bs : Bytes),
    owed.isSome ∨ bs ≠ [] → piecesAfter owed bs ≠ []
  | none, [], hsome => by simp at hsome
  | some _, [], _ => List.cons_ne_nil _ _
  | none, b :: bs, _ => by
    rw [piecesAfter]
    split_ifs
    · exact List.cons_ne_nil _ _
    · split
      · exact piecesAfter_ne_nil _ bs (Or.inl rfl)
      · exact List.cons_ne_nil _ _
  | some o, b :: bs, _ => by
    rw [piecesAfter]
    split_ifs
    · dsimp only
      split
      · exact List.cons_ne_nil _ _
      · exact piecesAfter_ne_nil _ bs (Or.inl rfl)
    · exact List.cons_ne_nil _ _
    · split <;> exact List.cons_ne_nil _ _

theorem encode_of_pieces {bs : Bytes} {cs : List Char} (hpieces : pieces bs = cs.map some) :
    encode cs = bs := by
  obtain ⟨bs', rfl, hnil⟩ := exists_encode_append (hpieces.trans (List.append_nil _).symm)
  cases bs' with
  | nil => rw [List.append_nil]
  | cons b bs' => exact absurd hnil (piecesAfter_ne_nil none _ (Or.inr (List.cons_ne_nil _ _)))

/-- What could be decoded is encoded to the same bytes. -/
theorem encode_of_decode? {bs : Bytes} {cs : List Char} (hcs : decode? bs = some cs) :
    encode cs = bs :=
  encode_of_pieces (eq_map_some_of_mapM hcs)

theorem decode?_eq_some {bs : Bytes} {cs : List Char} : decode? bs = some cs ↔ bs = encode cs :=
  ⟨fun hcs ↦ (encode_of_decode? hcs).symm, fun hbs ↦ by rw [hbs, decode?_encode]⟩

end BundleLink.Text
