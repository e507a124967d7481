import BundleLink.Proofs.Json.Fitting
import BundleLink.Proofs.Json.Scalar

/-!
What is printed is read again (`read_print`): for every value that fits into a document, however its
containers are nested and whatever its strings hold. Line ends and indentation are skipped, and
nothing that follows a number is taken for a part of it.
-/

set_option autoImplicit false

namespace BundleLink.Json

/-! ### Layout -/

theorem skipBlanks_of_isBlank {c : Char} (hc : isBlank c = false) (cs : List Char) :
    skipBlanks (c :: cs) = c :: cs := by
  simp [skipBlanks, hc]

theorem skipBlanks_newline (level : Nat) {c : Char} (hc : isBlank c = false) (cs : List Char) :
    skipBlanks (newline level ++ c :: cs) = c :: cs := by
  have hblank : ∀ b ∈ newline level, isBlank b = true := by
    intro b hb
    rcases List.mem_cons.mp hb with rfl | hb
    · decide
    · rw [List.eq_of_mem_replicate hb]
      decide
  rw [skipBlanks, List.dropWhile_append_of_pos hblank]
  exact skipBlanks_of_isBlank hc cs

theorem endsNumber_cons {c : Char} (hc : c.isDigit = false ∧ c ≠ '.' ∧ isExponentMark c = false)
    (cs : List Char) : EndsNumber (c :: cs) := by
  rintro _ ⟨⟩
  exact hc

theorem endsNumber_itemChars (level level' : Nat) (vs : List Value) (rest : List Char) :
    EndsNumber (itemChars level vs ++ (newline level' ++ rest)) := by
  cases vs with
  | nil => exact endsNumber_cons (by decide) _
  | cons v vs => exact endsNumber_cons (by decide) _

theorem endsNumber_entryChars (level level' : Nat) (es : Entries) (rest : List Char) :
    EndsNumber (entryChars level es ++ (newline level' ++ rest)) := by
  cases es with
  | nil => exact endsNumber_cons (by decide) _
  | cons e es => exact endsNumber_cons (by decide) _

/-- What the text of a value can begin with. -/
structure BeginsValue (c : Char) : Prop where
  not_blank : isBlank c = false
  ne_bracket : c ≠ ']'

theorem beginsValue_of_isDigit {c : Char} (hc : c.isDigit = true) : BeginsValue c := by
  refine ⟨?_, ?_⟩
  · rw [Bool.eq_false_iff, isBlank]
    intro hblank
    simp only [Bool.or_eq_true, decide_eq_true_eq] at hblank
    rcases hblank with ((rfl | rfl) | rfl) | rfl <;> exact absurd hc (by decide)
  · rintro rfl
    exact absurd hc (by decide)

theorem toList_toString_ofNat (n : Nat) : (toString (Int.ofNat n)).toList = Nat.toDigits 10 n :=
  Nat.toList_repr

theorem toList_toString_negSucc (n : Nat) :
    (toString (Int.negSucc n)).toList = '-' :: Nat.toDigits 10 (n + 1) := by
  have hrepr : toString (Int.negSucc n) = "-" ++ (n + 1).repr := rfl
  rw [hrepr, String.toList_append, Nat.toList_repr]
  rfl

theorem head?_chars {depth : Nat} {v : Value} (hv : v.Fits depth) (level : Nat) :
    ∃ c, (v.chars level).head? = some c ∧ BeginsValue c := by
  cases hv with
  | null => exact ⟨'n', by simp [Value.chars], by decide, by decide⟩
  | bool _ b =>
    cases b with
    | false => exact ⟨'f', by simp [Value.chars], by decide, by decide⟩
    | true => exact ⟨'t', by simp [Value.chars], by decide, by decide⟩
  | int _ n =>
    cases n with
    | ofNat n =>
      obtain ⟨c, ds, heq, hc, -⟩ := toDigits_eq_cons n
      exact ⟨c, by rw [Value.chars, toList_toString_ofNat, heq]; rfl, beginsValue_of_isDigit hc⟩
    | negSucc n =>
      exact ⟨'-', by rw [Value.chars, toList_toString_negSucc]; rfl, by decide, by decide⟩
  | string _ s => exact ⟨'"', by rw [Value.chars, quotedText]; rfl, by decide, by decide⟩
  | array _ vs =>
    cases vs with
    | nil => exact ⟨'[', by simp [Value.chars], by decide, by decide⟩
    | cons v vs => exact ⟨'[', by simp [Value.chars], by decide, by decide⟩
  | object _ es =>
    cases es with
    | nil => exact ⟨'\x7b', by simp [Value.chars], by decide, by decide⟩
    | cons e es => exact ⟨'\x7b', by simp [Value.chars], by decide, by decide⟩

theorem chars_eq_cons {depth : Nat} {v : Value} (hv : v.Fits depth) (level : Nat) :
    ∃ c cs, v.chars level = c :: cs ∧ BeginsValue c := by
  obtain ⟨c, hhead, hc⟩ := head?_chars hv level
  obtain ⟨cs, heq⟩ := List.head?_eq_some_iff.mp hhead
  exact ⟨c, cs, heq, hc⟩

theorem skipBlanks_chars {depth : Nat} {v : Value} (hv : v.Fits depth) (level : Nat)
    (rest : List Char) : skipBlanks (v.chars level ++ rest) = v.chars level ++ rest := by
  obtain ⟨c, cs, heq, hc⟩ := chars_eq_cons hv level
  rw [heq]
  exact skipBlanks_of_isBlank hc.not_blank _

theorem skipBlanks_newline_chars {depth : Nat} {v : Value} (hv : v.Fits depth) (level : Nat)
    (rest : List Char) :
    skipBlanks (newline level ++ (v.chars level ++ rest)) = v.chars level ++ rest := by
  obtain ⟨c, cs, heq, hc⟩ := chars_eq_cons hv level
  rw [heq]
  exact skipBlanks_newline level hc.not_blank _

theorem nextItem_of_skipBlanks {cs after : List Char} {c : Char} (hcs : skipBlanks cs = c :: after)
    (hc : c ≠ ']') : nextItem (',' :: cs) = .ok (c :: after) := by
  rw [nextItem, hcs]
  split
  · rename_i hnil
    cases hnil
  · rename_i hbracket
    exact absurd (List.cons.inj hbracket).1 hc
  · rfl

theorem nextItem_chars {depth : Nat} {v : Value} (hv : v.Fits depth) (level : Nat)
    (rest : List Char) :
    nextItem (',' :: (newline level ++ (v.chars level ++ rest))) = .ok (v.chars level ++ rest) := by
  obtain ⟨c, cs, heq, hc⟩ := chars_eq_cons hv level
  have hskip := skipBlanks_newline_chars hv level rest
  rw [heq] at hskip ⊢
  exact nextItem_of_skipBlanks hskip hc.ne_bracket

theorem nextKey_newline (level : Nat) (after : List Char) :
    nextKey (',' :: (newline level ++ '"' :: after)) = .ok after := by
  rw [nextKey, skipBlanks_newline level (by decide)]
  rfl

theorem colon_cons (after : List Char) : colon (':' :: after) = .ok ((), after) := by
  rw [colon, skipBlanks_of_isBlank (by decide)]
  rfl

/-! ### Scalars -/

section

variable {fuel depth : Nat} {cs rest : List Char}

theorem value_of_isDigit {c : Char} (hcs : skipBlanks cs = c :: rest) (hc : c.isDigit = true) :
    value (fuel + 1) depth cs = number false (c :: rest) := by
  have hne (d : Char) (hd : d.isDigit = false) : c ≠ d := by
    rintro rfl
    rw [hc] at hd
    cases hd
  rw [value, hcs]
  split
  case h_1 heq => cases heq
  case h_9 heq =>
    obtain ⟨rfl, rfl⟩ := List.cons.inj heq
    rw [if_pos hc]
  all_goals
    rename_i heq
    exact absurd (List.cons.inj heq).1 (hne _ (by decide))

/-- A whole number is read from its digits. -/
theorem value_int {n : Int} (hlow : -2 ^ 63 ≤ n) (hhigh : n < 2 ^ 64)
    (hcs : skipBlanks cs = (toString n).toList ++ rest) (hrest : EndsNumber rest) :
    value (fuel + 1) depth cs = .ok (.int n, rest) := by
  cases n with
  | ofNat n =>
    have hn : n ≤ maxUnsigned := by
      rw [maxUnsigned, UInt64.size]
      have : (n : Int) < 2 ^ 64 := hhigh
      omega
    have hnumber := number_toDigits false hn hrest
    obtain ⟨c, ds, heq, hc, -⟩ := toDigits_eq_cons n
    rw [toList_toString_ofNat, heq, List.cons_append] at hcs
    rw [heq, List.cons_append] at hnumber
    rw [value_of_isDigit hcs hc, hnumber]
    rfl
  | negSucc n =>
    have hn : n + 1 ≤ 2 ^ 63 := by omega
    have hnumber := number_toDigits true (n := n + 1) (by rw [maxUnsigned, UInt64.size]; omega) hrest
    rw [toList_toString_negSucc, List.cons_append] at hcs
    rw [value, hcs]
    simp only
    rw [hnumber, wholeResult, UInt64.size, if_neg (by simp), if_neg (by omega)]
    rfl

theorem value_quotedText (s : String) (hcs : skipBlanks cs = quotedText s ++ rest) :
    value (fuel + 1) depth cs = .ok (.string s, rest) := by
  have hquoted : quotedText s ++ rest = '"' :: (s.toList.flatMap escapeChar ++ '"' :: rest) := by
    simp [quotedText]
  rw [value, hcs, hquoted]
  simp only
  rw [stringRest_flatMap]
  rfl

end

/-! ### Containers -/

theorem items_nil {fuel : Nat} (hfuel : 0 < fuel) (depth : Nat) (rest : List Char) :
    items fuel depth true (']' :: rest) = .ok ([], rest) := by
  obtain ⟨fuel, rfl⟩ := Nat.exists_eq_succ_of_ne_zero (Nat.ne_of_gt hfuel)
  rw [items, skipBlanks_of_isBlank (by decide)]
  rfl

theorem members_nil {fuel : Nat} (hfuel : 0 < fuel) (depth : Nat) (rest : List Char) :
    members fuel depth true ('\x7d' :: rest) = .ok ([], rest) := by
  obtain ⟨fuel, rfl⟩ := Nat.exists_eq_succ_of_ne_zero (Nat.ne_of_gt hfuel)
  rw [members, skipBlanks_of_isBlank (by decide)]
  rfl

/-- What was printed is read with so much fuel, whatever blanks are before it. -/
structure ReadsBack (fuel : Nat) : Prop where
  value : ∀ {depth level v cs rest}, Value.Fits depth v →
    skipBlanks cs = v.chars level ++ rest → EndsNumber rest →
      2 * (v.chars level).length ≤ fuel → Json.value fuel depth cs = .ok (v, rest)
  items : ∀ {depth level level' vs rest}, (∀ v ∈ vs, Value.Fits depth v) →
    2 * (itemChars level vs).length < fuel →
      Json.items fuel depth false (itemChars level vs ++ (newline level' ++ ']' :: rest)) =
        .ok (vs, rest)
  allItems : ∀ {depth level level' v vs rest}, (∀ w ∈ v :: vs, Value.Fits depth w) →
    2 * ((v.chars level).length + (itemChars level vs).length) + 1 < fuel →
      Json.items fuel depth true (newline level ++ (v.chars level ++
        (itemChars level vs ++ (newline level' ++ ']' :: rest)))) = .ok (v :: vs, rest)
  members : ∀ {depth level level' es rest}, (∀ e ∈ es, Value.Fits depth e.2) →
    2 * (entryChars level es).length < fuel →
      Json.members fuel depth false (entryChars level es ++ (newline level' ++ '\x7d' :: rest)) =
        .ok (es, rest)
  allMembers : ∀ {depth level level' key v es rest},
    (∀ e ∈ (key, v) :: es, Value.Fits depth e.2) →
      2 * ((v.chars level).length + (entryChars level es).length) + 1 < fuel →
        Json.members fuel depth true (newline level ++ '"' :: (key.toList.flatMap escapeChar ++
          '"' :: ':' :: ' ' :: (v.chars level ++
            (entryChars level es ++ (newline level' ++ '\x7d' :: rest))))) =
          .ok ((key, v) :: es, rest)

namespace ReadsBack

variable {fuel : Nat} (h : ReadsBack fuel) {depth level level' : Nat} {cs rest : List Char}

include h

/-- An item and those after it. -/
theorem item {v : Value} {vs : List Value} (hvs : ∀ w ∈ v :: vs, Value.Fits depth w)
    (hfuel : 2 * ((v.chars level).length + (itemChars level vs).length) < fuel) :
    (Json.value fuel depth (v.chars level ++
        (itemChars level vs ++ (newline level' ++ ']' :: rest))) >>= fun v ↦
      Json.items fuel depth false v.2 >>= fun vs ↦ .ok (v.1 :: vs.1, vs.2)) =
      .ok (v :: vs, rest) := by
  have hv := hvs v List.mem_cons_self
  have hvalue := h.value hv (skipBlanks_chars hv level _)
    (endsNumber_itemChars level level' vs (']' :: rest)) (by omega)
  have hitems : Json.items fuel depth false
      (itemChars level vs ++ (newline level' ++ ']' :: rest)) = .ok (vs, rest) :=
    h.items (fun w hw ↦ hvs w (List.mem_cons_of_mem v hw)) (by omega)
  simp only [bind, Except.bind, hvalue, hitems]

theorem items_succ {vs : List Value} (hvs : ∀ v ∈ vs, Value.Fits depth v)
    (hfuel : 2 * (itemChars level vs).length < fuel + 1) :
    Json.items (fuel + 1) depth false (itemChars level vs ++ (newline level' ++ ']' :: rest)) =
      .ok (vs, rest) := by
  cases vs with
  | nil =>
    rw [itemChars, List.nil_append, Json.items, skipBlanks_newline level' (by decide)]
    rfl
  | cons v vs =>
    rw [itemChars] at hfuel
    simp only [List.length_append, List.length_cons, newline] at hfuel
    have hcs : itemChars level (v :: vs) ++ (newline level' ++ ']' :: rest) =
        ',' :: (newline level ++ (v.chars level ++
          (itemChars level vs ++ (newline level' ++ ']' :: rest)))) := by
      simp [itemChars]
    rw [hcs, items_cons (skipBlanks_of_isBlank (by decide) _) (by decide), if_neg (by decide),
      nextItem_chars (hvs v List.mem_cons_self)]
    exact h.item hvs (by omega)

/-- All items, from the first on. -/
theorem allItems_succ {v : Value} {vs : List Value} (hvs : ∀ w ∈ v :: vs, Value.Fits depth w)
    (hfuel : 2 * ((v.chars level).length + (itemChars level vs).length) + 1 < fuel + 1) :
    Json.items (fuel + 1) depth true (newline level ++ (v.chars level ++
      (itemChars level vs ++ (newline level' ++ ']' :: rest)))) = .ok (v :: vs, rest) := by
  have hv := hvs v List.mem_cons_self
  have hskip := skipBlanks_newline_chars hv level
    (itemChars level vs ++ (newline level' ++ ']' :: rest))
  obtain ⟨c, cs, heq, hc⟩ := chars_eq_cons hv level
  rw [heq, List.cons_append] at hskip
  rw [heq, List.cons_append, items_cons hskip hc.ne_bracket, if_pos rfl, ← List.cons_append, ← heq]
  exact h.item hvs (Nat.succ_lt_succ_iff.mp hfuel)

/-- An entry after its first quotation mark, and those after it. -/
theorem entry {key : String} {v : Value} {es : Entries}
    (hes : ∀ e ∈ (key, v) :: es, Value.Fits depth e.2)
    (hfuel : 2 * ((v.chars level).length + (entryChars level es).length) < fuel) :
    (stringRest (key.toList.flatMap escapeChar ++ '"' :: ':' :: ' ' :: (v.chars level ++
        (entryChars level es ++ (newline level' ++ '\x7d' :: rest)))) >>= fun key ↦
      colon key.2 >>= fun between ↦ Json.value fuel depth between.2 >>= fun v ↦
        Json.members fuel depth false v.2 >>= fun es ↦ .ok ((key.1, v.1) :: es.1, es.2)) =
      .ok ((key, v) :: es, rest) := by
  have hv : Value.Fits depth v := hes (key, v) List.mem_cons_self
  have hskip : skipBlanks (' ' :: (v.chars level ++
      (entryChars level es ++ (newline level' ++ '\x7d' :: rest)))) =
        v.chars level ++ (entryChars level es ++ (newline level' ++ '\x7d' :: rest)) :=
    skipBlanks_chars hv level _
  have hvalue := h.value hv hskip (endsNumber_entryChars level level' es ('\x7d' :: rest))
    (by omega)
  have hmembers : Json.members fuel depth false
      (entryChars level es ++ (newline level' ++ '\x7d' :: rest)) = .ok (es, rest) :=
    h.members (fun e he ↦ hes e (List.mem_cons_of_mem _ he)) (by omega)
  simp only [bind, Except.bind, stringRest_flatMap, colon_cons, hvalue, hmembers]

theorem members_succ {es : Entries} (hes : ∀ e ∈ es, Value.Fits depth e.2)
    (hfuel : 2 * (entryChars level es).length < fuel + 1) :
    Json.members (fuel + 1) depth false
      (entryChars level es ++ (newline level' ++ '\x7d' :: rest)) = .ok (es, rest) := by
  cases es with
  | nil =>
    rw [entryChars, List.nil_append, Json.members, skipBlanks_newline level' (by decide)]
    rfl
  | cons e es =>
    obtain ⟨key, v⟩ := e
    rw [entryChars] at hfuel
    simp only [List.length_append, List.length_cons, newline] at hfuel
    have hcs : entryChars level ((key, v) :: es) ++ (newline level' ++ '\x7d' :: rest) =
        ',' :: (newline level ++ '"' :: (key.toList.flatMap escapeChar ++ '"' :: ':' :: ' ' ::
          (v.chars level ++ (entryChars level es ++ (newline level' ++ '\x7d' :: rest))))) := by
      simp [entryChars, quotedText]
    rw [hcs, members_cons (skipBlanks_of_isBlank (by decide) _) (by decide), if_neg (by decide),
      nextKey_newline]
    exact h.entry hes (by omega)

/-- All entries, from the first on. -/
theorem allMembers_succ {key : String} {v : Value} {es : Entries}
    (hes : ∀ e ∈ (key, v) :: es, Value.Fits depth e.2)
    (hfuel : 2 * ((v.chars level).length + (entryChars level es).length) + 1 < fuel + 1) :
    Json.members (fuel + 1) depth true (newline level ++ '"' :: (key.toList.flatMap escapeChar ++
      '"' :: ':' :: ' ' :: (v.chars level ++
        (entryChars level es ++ (newline level' ++ '\x7d' :: rest))))) =
      .ok ((key, v) :: es, rest) := by
  rw [members_cons (skipBlanks_newline level (by decide) _) (by decide), if_pos rfl]
  exact h.entry hes (Nat.succ_lt_succ_iff.mp hfuel)

theorem value_succ {v : Value} (hv : v.Fits depth) (hcs : skipBlanks cs = v.chars level ++ rest)
    (hrest : EndsNumber rest) (hfuel : 2 * (v.chars level).length ≤ fuel + 1) :
    Json.value (fuel + 1) depth cs = .ok (v, rest) := by
  cases hv with
  | null =>
    rw [Json.value, hcs]
    simp [Value.chars, ident]
  | bool _ b =>
    rw [Json.value, hcs]
    cases b <;> simp [Value.chars, ident]
  | int _ n hlow hhigh => exact value_int hlow hhigh (by rw [hcs, Value.chars]) hrest
  | string _ s => exact value_quotedText s (by rw [hcs, Value.chars])
  | array depth vs hvs =>
    have hopen (after : List Char) (hafter : skipBlanks cs = '[' :: after)
        (hitems : Json.items fuel depth true after = .ok (vs, rest)) :
        Json.value (fuel + 1) (depth + 1) cs = .ok (.array vs, rest) := by
      rw [Json.value, hafter]
      simp [hitems, bind, Except.bind, pure, Except.pure]
    cases vs with
    | nil =>
      have hpos : 0 < fuel := by
        simp [Value.chars] at hfuel
        omega
      exact hopen (']' :: rest) (by simpa [Value.chars] using hcs) (items_nil hpos depth rest)
    | cons v vs =>
      refine hopen _ (by simpa [Value.chars] using hcs) (h.allItems hvs ?_)
      simp only [Value.chars, List.length_append, List.length_cons, newline] at hfuel
      omega
  | object depth es hnodup hes =>
    have hopen (after : List Char) (hafter : skipBlanks cs = '\x7b' :: after)
        (hmembers : Json.members fuel depth true after = .ok (es, rest)) :
        Json.value (fuel + 1) (depth + 1) cs = .ok (.object es, rest) := by
      rw [Json.value, hafter]
      simp [hmembers, Entries.ofList_eq_self hnodup, bind, Except.bind, pure, Except.pure]
    cases es with
    | nil =>
      have hpos : 0 < fuel := by
        simp [Value.chars] at hfuel
        omega
      exact hopen ('\x7d' :: rest) (by simpa [Value.chars] using hcs) (members_nil hpos depth rest)
    | cons e es =>
      obtain ⟨key, v⟩ := e
      refine hopen _ (by simpa [Value.chars, quotedText] using hcs) (h.allMembers hes ?_)
      simp only [Value.chars, List.length_append, List.length_cons, newline] at hfuel
      omega

end ReadsBack

theorem readsBack (fuel : Nat) : ReadsBack fuel := by
  induction fuel with
  | zero =>
    refine ⟨fun hv _ _ hfuel ↦ ?_, fun _ hfuel ↦ ?_, fun _ hfuel ↦ ?_, fun _ hfuel ↦ ?_,
      fun _ hfuel ↦ ?_⟩
    · obtain ⟨c, text, htext, -⟩ := chars_eq_cons hv _
      rw [htext, List.length_cons] at hfuel
      omega
    all_goals exact absurd hfuel (Nat.not_lt_zero _)
  | succ fuel ih =>
    exact ⟨ih.value_succ, ih.items_succ, ih.allItems_succ, ih.members_succ, ih.allMembers_succ⟩

/-- A value that fits into a document is read as it was printed. -/
theorem read_print {v : Value} (hv : v.Fits 127) : Value.read v.print = .ok v := by
  have hskip : skipBlanks (v.chars 0) = v.chars 0 ++ [] := by
    simpa using skipBlanks_chars hv 0 []
  have hvalue := (readsBack (2 * (v.chars 0).length + 2)).value hv hskip (by rintro _ ⟨⟩) (by omega)
  rw [Value.read, Value.print, String.toList_ofList, document, hvalue]
  rfl

end BundleLink.Json
