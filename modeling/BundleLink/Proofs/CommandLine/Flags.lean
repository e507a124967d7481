import BundleLink.Proofs.CommandLine.Requests

/-!
Calls that differ in their flags. Striking the flags from the words of a call (`withoutFlags`)
strikes them from the arguments that the words spell (`Spells.withoutFlags`), so accepted calls that
are the same but for them ask for the same configuration (`config_eq_of_withoutFlags`).
-/

set_option autoImplicit false

namespace BundleLink.CommandLine

open BundleLink.Text

open Reading (dash equalsSign)

/-! ### Striking flags -/

/-- The letters of the flags. -/
def isFlagLetter (b : UInt8) : Bool :=
  b = 0x76 || b = 0x71

/-- A word without its flags, or nothing if it holds nothing else. Only the letters before the first
that is no flag's are struck: what comes after that may be a value. -/
def strike (word : Bytes) : List Bytes :=
  if word = dash :: dash :: bytesOf "verbose" ∨ word = dash :: dash :: bytesOf "quiet" then []
  else
    match word with
    | 0x2D :: b :: rest =>
      let kept := (b :: rest).dropWhile isFlagLetter
      if kept.isEmpty then [] else [dash :: kept]
    | _ => [word]

/-- The words of a call without flags; after two dashes there are none. -/
def withoutFlags : List Bytes → List Bytes
  | [] => []
  | word :: words =>
    if word = [dash, dash] then word :: words else strike word ++ withoutFlags words

example : withoutFlags [bytesOf "-vj", bytesOf "8", bytesOf "--quiet", bytesOf "-q"] =
    [bytesOf "-j", bytesOf "8"] := by
  decide

/-- Given arguments without flags. -/
def nonFlags (g : List (Argument × Bytes)) : List (Argument × Bytes) :=
  g.filter fun x ↦ ¬x.1.IsFlag

theorem nonFlags_append (g g' : List (Argument × Bytes)) :
    nonFlags (g ++ g') = nonFlags g ++ nonFlags g' :=
  List.filter_append ..

theorem nonFlags_flagged {fs : List Argument} (hfs : ∀ f ∈ fs, f.IsFlag) :
    nonFlags (flagged fs) = [] := by
  rw [nonFlags, List.filter_eq_nil_iff]
  rintro ⟨f, value⟩ hf
  obtain ⟨f', hf', heq⟩ := List.mem_map.mp hf
  obtain ⟨rfl, rfl⟩ := Prod.mk.inj heq
  simpa using hfs f' hf'

theorem nonFlags_flagged_concat {fs : List Argument} (hfs : ∀ f ∈ fs, f.IsFlag) {a : Argument}
    (htakes : a.takesValue) (value : Bytes) :
    nonFlags (flagged fs ++ [(a, value)]) = [(a, value)] := by
  have ha : ¬a.IsFlag := by
    intro ha
    rw [ha.takesValue_eq] at htakes
    cases htakes
  rw [nonFlags_append, nonFlags_flagged hfs, List.nil_append]
  simp [nonFlags, ha]

theorem withoutFlags_cons {word : Bytes} (hword : word ≠ [dash, dash]) (words : List Bytes) :
    withoutFlags (word :: words) = strike word ++ withoutFlags words := by
  rw [withoutFlags, if_neg hword]

/-! ### What striking does to the words of the grammar -/

theorem strike_standing {word : Bytes} (hword : Standing word) : strike word = [word] := by
  unfold strike
  rw [if_neg]
  · split
    · exact absurd rfl (hword.ne_letters _ _)
    · rfl
  · rintro (h | h)
    · exact hword.ne_letters _ _ h
    · exact hword.ne_letters _ _ h

theorem strike_flag {f : Argument} {word : String} (hf : f.IsFlag) (hword : f.long? = some word) :
    strike (dash :: dash :: bytesOf word) = [] := by
  rcases hf with rfl | rfl <;> cases hword <;> rfl

theorem isFlagLetter_letters {fs : List Argument} (hfs : ∀ f ∈ fs, f.IsFlag) :
    ∀ b ∈ letters fs, isFlagLetter b := by
  induction fs with
  | nil => exact List.forall_mem_nil _
  | cons f fs ih =>
    obtain ⟨hf, hfs⟩ := List.forall_mem_cons.mp hfs
    obtain ⟨letter, hletter⟩ := hf.exists_short
    rw [letters_cons hletter, List.forall_mem_append]
    obtain ⟨b, hb, hflag⟩ : ∃ b, encode [letter] = [b] ∧ isFlagLetter b = true := by
      rcases hf with rfl | rfl <;> cases hletter <;> exact ⟨_, rfl, rfl⟩
    rw [hb]
    exact ⟨List.forall_mem_singleton.mpr hflag, ih hfs⟩

/-- The letter of an option is no flag's. -/
theorem exists_encode_option {a : Argument} {letter : Char} (htakes : a.takesValue)
    (hletter : a.short? = some letter) :
    ∃ b, encode [letter] = [b] ∧ b ≠ dash ∧ isFlagLetter b = false := by
  cases a <;> cases hletter <;> first | exact ⟨_, rfl, by decide, by decide⟩ | cases htakes

/-- The word of an option begins like that of no flag. -/
theorem exists_bytesOf_option {a : Argument} {word : String} (htakes : a.takesValue)
    (hword : a.long? = some word) : ∃ b bs, bytesOf word = b :: bs ∧ isFlagLetter b = false := by
  cases a <;> cases hword <;> first | exact ⟨_, _, rfl, by decide⟩ | cases htakes

theorem strike_letters {bs : Bytes} (hbs : bs ≠ []) (hdash : bs.head? ≠ some dash) :
    strike (dash :: bs) = if (bs.dropWhile isFlagLetter).isEmpty then []
      else [dash :: bs.dropWhile isFlagLetter] := by
  obtain ⟨b, bs, rfl⟩ := List.exists_cons_of_ne_nil hbs
  have hb : b ≠ dash := by simpa using hdash
  unfold strike
  rw [if_neg]
  · rfl
  · rintro (h | h)
    · exact hb (List.cons.inj (List.cons.inj h).2).1
    · exact hb (List.cons.inj (List.cons.inj h).2).1

theorem head?_letters {fs : List Argument} (hfs : ∀ f ∈ fs, f.IsFlag) :
    (letters fs).head? ≠ some dash := by
  intro hhead
  have hflag := isFlagLetter_letters hfs dash (List.mem_of_mem_head? hhead)
  cases hflag

theorem letters_ne_nil {fs : List Argument} (hfs : ∀ f ∈ fs, f.IsFlag) (hne : fs ≠ []) :
    letters fs ≠ [] := by
  obtain ⟨f, fs, rfl⟩ := List.exists_cons_of_ne_nil hne
  obtain ⟨letter, hletter⟩ := (List.forall_mem_cons.mp hfs).1.exists_short
  obtain ⟨b, hb, -⟩ := Argument.exists_encode_letter hletter
  rw [letters_cons hletter, hb]
  exact List.cons_ne_nil b _

theorem strike_flags {fs : List Argument} (hfs : ∀ f ∈ fs, f.IsFlag) (hne : fs ≠ []) :
    strike (dash :: letters fs) = [] := by
  rw [strike_letters (letters_ne_nil hfs hne) (head?_letters hfs),
    List.dropWhile_eq_nil_iff.mpr (isFlagLetter_letters hfs)]
  rfl

theorem strike_cluster {fs : List Argument} (hfs : ∀ f ∈ fs, f.IsFlag) {a : Argument}
    {letter : Char} (htakes : a.takesValue) (hletter : a.short? = some letter) (bs : Bytes) :
    strike (dash :: (letters fs ++ encode [letter] ++ bs)) = [dash :: (encode [letter] ++ bs)] := by
  obtain ⟨b, hb, hdash, hflag⟩ := exists_encode_option htakes hletter
  rw [hb, List.append_assoc, List.singleton_append]
  have hkept : (letters fs ++ b :: bs).dropWhile isFlagLetter = b :: bs := by
    rw [List.dropWhile_append_of_pos (isFlagLetter_letters hfs), List.dropWhile_cons_of_neg]
    simp [hflag]
  have hhead : (letters fs ++ b :: bs).head? ≠ some dash := by
    rw [List.head?_append]
    cases hletters : (letters fs).head? with
    | none => simpa using hdash
    | some c =>
      have hc := head?_letters hfs
      rwa [hletters] at hc
  rw [strike_letters (by simp) hhead, hkept]
  rfl

theorem strike_long {a : Argument} {word : String} (htakes : a.takesValue)
    (hword : a.long? = some word) (bs : Bytes) :
    strike (dash :: dash :: (bytesOf word ++ bs)) = [dash :: dash :: (bytesOf word ++ bs)] := by
  obtain ⟨b, bs', hb, hflag⟩ := exists_bytesOf_option htakes hword
  rw [hb, List.cons_append]
  unfold strike
  rw [if_neg]
  · rfl
  · rintro (h | h)
    · obtain rfl : b = 0x76 := (List.cons.inj (List.cons.inj (List.cons.inj h).2).2).1
      cases hflag
    · obtain rfl : b = 0x71 := (List.cons.inj (List.cons.inj (List.cons.inj h).2).2).1
      cases hflag

theorem Lead.forall_isFlag {lead : Bytes} {fs : List Argument} {a : Argument}
    (hlead : Lead lead fs a) : ∀ f ∈ fs, f.IsFlag := by
  cases hlead with
  | long => exact List.forall_mem_nil _
  | short hfs => exact hfs

/-- What comes before a value is left but for the flags in it. -/
theorem Lead.exists_strike {lead : Bytes} {fs : List Argument} {a : Argument}
    (hlead : Lead lead fs a) : ∃ lead', Lead lead' [] a ∧ ∀ rest,
      lead ++ rest ≠ [dash, dash] ∧ strike (lead ++ rest) = [lead' ++ rest] := by
  cases hlead with
  | long htakes hword =>
    refine ⟨_, .long htakes hword, fun rest ↦ ⟨?_, strike_long htakes hword rest⟩⟩
    simp [Argument.long_ne_nil hword]
  | @short _ _ letter hfs htakes hletter =>
    refine ⟨_, .short (List.forall_mem_nil _) htakes hletter, fun rest ↦ ⟨?_, ?_⟩⟩
    · obtain ⟨b, hb, hdash, -⟩ := exists_encode_option htakes hletter
      have hmem : b ∈ dash :: (letters fs ++ encode [letter]) ++ rest := by simp [hb]
      intro heq
      rw [heq] at hmem
      exact hdash (by simpa using hmem)
    · exact strike_cluster hfs htakes hletter rest

/-- Striking the flags from words that belong together leaves words that do, or none. -/
theorem Word.exists_strike {tokens : List Bytes} {ps : List (Argument × Bytes)}
    (hword : Word tokens ps) :
    ∃ tokens', (∀ words, withoutFlags (tokens ++ words) = tokens' ++ withoutFlags words) ∧
      (tokens' = [] ∧ nonFlags ps = [] ∨ Word tokens' (nonFlags ps)) := by
  cases hword with
  | @place word hword =>
    refine ⟨[word], fun words ↦ ?_, Or.inr (.place hword)⟩
    rw [List.singleton_append, withoutFlags_cons (hword.ne_letters _ _), strike_standing hword]
  | @flag f word hf hword =>
    refine ⟨[], fun words ↦ ?_, Or.inl ⟨rfl, nonFlags_flagged (List.forall_mem_singleton.mpr hf)⟩⟩
    rw [List.singleton_append, withoutFlags_cons (by simp [Argument.long_ne_nil hword]),
      strike_flag hf hword]
  | @flags fs hne hfs =>
    refine ⟨[], fun words ↦ ?_, Or.inl ⟨rfl, nonFlags_flagged hfs⟩⟩
    have hdashes : dash :: letters fs ≠ [dash, dash] := by
      intro heq
      exact head?_letters hfs (by rw [(List.cons.inj heq).2]; rfl)
    rw [List.singleton_append, withoutFlags_cons hdashes, strike_flags hfs hne]
  | @equals lead fs a value hlead =>
    obtain ⟨lead', hlead', hstrike⟩ := hlead.exists_strike
    rw [nonFlags_flagged_concat hlead.forall_isFlag hlead.takesValue.1]
    refine ⟨_, fun words ↦ ?_, Or.inr (.equals value hlead')⟩
    rw [List.singleton_append, withoutFlags_cons (hstrike _).1, (hstrike _).2]
  | @attached fs a letter value hfs htakes hletter hne hhead =>
    have hlead : Lead _ fs a := .short hfs htakes hletter
    obtain ⟨_, -, hstrike⟩ := hlead.exists_strike
    have hdashes : dash :: (letters fs ++ encode [letter] ++ value) ≠ [dash, dash] :=
      (hstrike value).1
    rw [nonFlags_flagged_concat hfs htakes]
    refine ⟨[dash :: (letters [] ++ encode [letter] ++ value)], fun words ↦ ?_,
      Or.inr (.attached (List.forall_mem_nil _) htakes hletter hne hhead)⟩
    rw [List.singleton_append, withoutFlags_cons hdashes,
      strike_cluster hfs htakes hletter]
    rfl
  | @apart lead fs a value hlead hvalue =>
    obtain ⟨lead', hlead', hstrike⟩ := hlead.exists_strike
    have hdashes := (hstrike []).1
    have hlead'' := (hstrike []).2
    rw [List.append_nil] at hdashes hlead''
    rw [nonFlags_flagged_concat hlead.forall_isFlag hlead.takesValue.1]
    refine ⟨[lead', value], fun words ↦ ?_, Or.inr (.apart hlead' hvalue)⟩
    rw [List.cons_append, List.singleton_append, withoutFlags_cons hdashes, hlead'',
      withoutFlags_cons (hvalue.ne_letters _ _), strike_standing hvalue, List.append_nil]
    rfl

/-- Striking the flags from words strikes them from what the words spell. -/
theorem Spells.withoutFlags {words : List Bytes} {g : List (Argument × Bytes)}
    (hspells : Spells words g) : Spells (withoutFlags words) (nonFlags g) := by
  induction hspells with
  | nil => exact .nil
  | ended words =>
    have hkept : nonFlags (words.map (Argument.packageDir, ·)) =
        words.map (Argument.packageDir, ·) := by
      refine List.filter_eq_self.mpr fun x hx ↦ ?_
      obtain ⟨word, -, rfl⟩ := List.mem_map.mp hx
      exact decide_eq_true (by decide : ¬Argument.packageDir.IsFlag)
    rw [hkept, CommandLine.withoutFlags, if_pos rfl]
    exact .ended words
  | word hword _ ih =>
    obtain ⟨tokens', hstrike, ⟨rfl, hnone⟩ | hword'⟩ := hword.exists_strike
    · rw [hstrike, nonFlags_append, hnone]
      exact ih
    · rw [hstrike, nonFlags_append]
      exact .word hword' ih

/-! ### What flags have no bearing on -/

/-- The arguments that words spell are known from the words. -/
theorem Spells.unique {words : List Bytes} {g g' : List (Argument × Bytes)}
    (hspells : Spells words g) (hg : Valid g) (hspells' : Spells words g') (hg' : Valid g') :
    g = g' := by
  obtain ⟨r, hr, rfl⟩ := reads_iff.mpr ⟨hspells, hg⟩
  obtain ⟨r', hr', rfl⟩ := reads_iff.mpr ⟨hspells', hg'⟩
  rw [Except.ok.inj (hr.symm.trans hr')]

theorem Field.of_nonFlags {α : Type} {g : List (Argument × Bytes)} {a : Argument}
    (ha : ¬a.IsFlag) {read : Bytes → α → Prop} {default x : α}
    (hfield : Field g a read default x) : Field (nonFlags g) a read default x := by
  rcases hfield with ⟨value, hmem, hread⟩ | ⟨hnone, hx⟩
  · exact Or.inl ⟨value, List.mem_filter.mpr ⟨hmem, decide_eq_true ha⟩, hread⟩
  · exact Or.inr ⟨fun hmem ↦ hnone ((List.filter_sublist.map Prod.fst).subset hmem), hx⟩

theorem Configured.nonFlags {g : List (Argument × Bytes)} {c : Config} (hc : Configured g c) :
    Configured (nonFlags g) c :=
  ⟨hc.baseDir.of_nonFlags (by decide), hc.bundleDir.of_nonFlags (by decide),
    hc.extension.of_nonFlags (by decide), hc.condition.of_nonFlags (by decide),
    hc.manifest.of_nonFlags (by decide), hc.jobs.of_nonFlags (by decide)⟩

end BundleLink.CommandLine
