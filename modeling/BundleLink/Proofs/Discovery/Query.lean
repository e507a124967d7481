import BundleLink.Proofs.Config.Accepted
import BundleLink.Proofs.Discovery.Found
import BundleLink.Proofs.Text.Parts

/-!
The query for bundles. The pattern for bundles is cut into parts that each stand for one name, a part
for any depth, one for any name with the extension and, if separators cut the extension, parts that
stand for one name again (`bundleQuery_eq`; for a plain extension `parts_of_bundleQuery`). A rigid
part matches the text it was made from and no other (`matchesName_rigid`).
-/

set_option autoImplicit false

namespace BundleLink

open BundleLink.Text

namespace Glob

/-! ### Rigid parts -/

/-- Characters that patterns give a meaning to outside of brackets. -/
def isSpecial (c : Char) : Bool :=
  c = '?' || c = '*' || c = '[' || c = ']'

/-- The token that an escaped character is read as. -/
def rigidToken (c : Char) : Token :=
  if isSpecial c then .within [.single c] else .char c

/-- The pattern that an escaped text is read as. -/
def rigid (cs : List Char) : Pattern :=
  cs.map rigidToken

/-- The pattern of names that end in a dot and a text. -/
def wild (ext : List Char) : Pattern :=
  .anySequence :: rigid ('.' :: ext)

/-- The parts of a pattern that asks for such names at any depth. -/
def anyDepth (ext : List Char) : List Pattern :=
  [[.recursive], wild ext]

theorem isRecursive_rigid (cs : List Char) : Pattern.isRecursive (rigid cs) = false := by
  rw [Pattern.isRecursive, Bool.eq_false_iff, ne_eq, List.contains_iff_mem, rigid, List.mem_map]
  rintro ⟨c, -, hc⟩
  rw [rigidToken] at hc
  split_ifs at hc

theorem isRecursive_wild (ext : List Char) : Pattern.isRecursive (wild ext) = false := by
  have hrigid := isRecursive_rigid ('.' :: ext)
  simpa [wild, Pattern.isRecursive] using hrigid

theorem matchesName_rigid (cs name : List Char) :
    Pattern.matchesName (rigid cs) name = true ↔ name = cs := by
  induction cs generalizing name with
  | nil => simp [rigid, Pattern.matchesName]
  | cons c cs ih =>
    cases name with
    | nil =>
      have hnever : Pattern.matchesName (rigidToken c :: rigid cs) [] = false := by
        rw [rigidToken]
        split_ifs <;> rfl
      simp only [rigid, List.map_cons] at hnever ⊢
      simp [hnever]
    | cons x name =>
      have hrest := ih name
      simp only [rigid, List.map_cons, rigidToken] at hrest ⊢
      by_cases hc : isSpecial c
      · simp [hc, Pattern.matchesName, Pattern.ClassItem.has, hrest]
      · simp [hc, Pattern.matchesName, hrest]

theorem literal?_rigid (cs : List Char) :
    Pattern.literal? (rigid cs) = if cs.any isSpecial then none else some cs := by
  induction cs with
  | nil => rfl
  | cons c cs ih =>
    rw [rigid, List.map_cons, rigidToken, List.any_cons]
    by_cases hc : isSpecial c
    · simp [hc, Pattern.literal?]
    · rw [rigid] at ih
      by_cases hcs : cs.any isSpecial
      · simp [hc, Pattern.literal?, ih, hcs]
      · simp [hc, Pattern.literal?, ih, hcs]

/-- A rigid part matches a step up or in place only literally. -/
theorem matchedDots_rigid {cs : List Char} (hcs : cs.any isSpecial) :
    matchedDots (rigid cs) = [] := by
  have hname (name : List Char) (hplain : name.any isSpecial = false) :
      Pattern.matchesName (rigid cs) name = false := by
    rw [Bool.eq_false_iff, ne_eq, matchesName_rigid]
    rintro rfl
    rw [hplain] at hcs
    cases hcs
  rw [matchedDots]
  split_ifs
  · rw [dotNames, List.filter_cons, List.filter_cons, hname _ (by decide), hname _ (by decide)]
    rfl
  · rfl

/-! ### Reading patterns -/

theorem escape_append (cs ds : List Char) :
    Pattern.escape (cs ++ ds) = Pattern.escape cs ++ Pattern.escape ds :=
  List.flatMap_append

theorem escape_of_plain {cs : List Char} (hcs : cs.any isSpecial = false) :
    Pattern.escape cs = cs := by
  induction cs with
  | nil => rfl
  | cons c cs ih =>
    rw [List.any_cons, Bool.or_eq_false_iff] at hcs
    have hc := hcs.1
    simp only [isSpecial, Bool.or_eq_false_iff, decide_eq_false_iff_not] at hc
    rw [Pattern.escape, List.flatMap_cons, if_neg (by tauto), ← Pattern.escape, ih hcs.2]
    rfl

theorem tokens_of_ne_star {c : Char} (hc : c ≠ '*') (hany : c ≠ '?') (fuel pos : Nat)
    (prev : Option Char) (done : List Token) (cs : List Char) :
    tokens (fuel + 1) pos prev done (c :: cs) =
      if c = '[' then
        match bracketed? cs with
        | some (t, rest) =>
          tokens fuel (pos + 1 + (cs.length - rest.length)) (some ']') (t :: done) rest
        | none => .error ⟨pos, .range⟩
      else tokens fuel (pos + 1) (some c) (.char c :: done) cs := by
  have hread := tokens.eq_def (fuel + 1) pos prev done (c :: cs)
  simp only [if_neg hc, if_neg hany] at hread
  refine hread.trans ?_
  by_cases hbracket : c = '['
  · subst hbracket
    cases bracketed? cs <;> rfl
  · simp only [if_neg hbracket]

/-- An escaped text is read as the rigid pattern for it, and what follows it is read after that. -/
theorem tokens_escape_append (cs rest : List Char) (fuel pos : Nat) (prev : Option Char)
    (done : List Token) (hfuel : (Pattern.escape cs ++ rest).length < fuel) :
    ∃ fuel' pos' prev', rest.length < fuel' ∧
      tokens fuel pos prev done (Pattern.escape cs ++ rest) =
        tokens fuel' pos' prev' ((rigid cs).reverse ++ done) rest := by
  induction cs generalizing fuel pos prev done with
  | nil => exact ⟨fuel, pos, prev, hfuel, rfl⟩
  | cons c cs ih =>
    rw [Pattern.escape, List.flatMap_cons, ← Pattern.escape, List.append_assoc] at hfuel ⊢
    obtain ⟨fuel, rfl⟩ : ∃ n, fuel = n + 1 := ⟨fuel - 1, by omega⟩
    have hdone : (rigid (c :: cs)).reverse ++ done =
        (rigid cs).reverse ++ (rigidToken c :: done) := by
      rw [rigid, rigid, List.map_cons, List.reverse_cons, List.append_assoc, List.singleton_append]
    rw [hdone]
    by_cases hc : isSpecial c
    · have hescape : c = '?' ∨ c = '*' ∨ c = '[' ∨ c = ']' := by
        simpa [isSpecial, or_assoc] using hc
      rw [if_pos hescape] at hfuel ⊢
      have hbracketed : bracketed? (c :: ']' :: (Pattern.escape cs ++ rest)) =
          some (.within [.single c], Pattern.escape cs ++ rest) := by
        rcases hescape with rfl | rfl | rfl | rfl <;>
          simp [bracketed?, splitClass, classItems]
      simp only [List.cons_append, List.nil_append, List.length_cons] at hfuel ⊢
      rw [tokens_of_ne_star (by decide) (by decide), if_pos rfl, hbracketed, rigidToken, if_pos hc]
      exact ih _ _ _ _ (by omega)
    · have hplain : ¬(c = '?' ∨ c = '*' ∨ c = '[' ∨ c = ']') := by
        simpa [isSpecial, or_assoc] using hc
      rw [if_neg hplain] at hfuel ⊢
      simp only [not_or] at hplain
      simp only [List.cons_append, List.nil_append, List.length_cons] at hfuel ⊢
      rw [tokens_of_ne_star hplain.2.1 hplain.1, if_neg hplain.2.2.1, rigidToken, if_neg hc]
      exact ih _ _ _ _ (by omega)

theorem tokens_escape (cs : List Char) (fuel pos : Nat) (prev : Option Char) (done : List Token)
    (hfuel : (Pattern.escape cs).length < fuel) :
    tokens fuel pos prev done (Pattern.escape cs) = .ok (done.reverse ++ rigid cs) := by
  obtain ⟨fuel', pos', prev', hfuel', htokens⟩ :=
    tokens_escape_append cs [] fuel pos prev done (by rwa [List.append_nil])
  obtain ⟨fuel', rfl⟩ : ∃ n, fuel' = n + 1 := ⟨fuel' - 1, by omega⟩
  rw [List.append_nil] at htokens
  simp [htokens, tokens]

theorem ofChars_escape (cs : List Char) : Pattern.ofChars (Pattern.escape cs) = .ok (rigid cs) :=
  tokens_escape cs _ _ _ [] (Nat.lt_succ_self _)

theorem ofChars_wild {ext : List Char} (hext : ext.any isSpecial = false) :
    Pattern.ofChars ('*' :: '.' :: ext) = .ok (wild ext) := by
  have hplain : ('.' :: ext).any isSpecial = false := by
    rw [List.any_cons, hext]
    rfl
  have hrest := tokens_escape ('.' :: ext) (ext.length + 2) 1 (some '*') [.anySequence]
    (by rw [escape_of_plain hplain, List.length_cons]; omega)
  rw [escape_of_plain hplain] at hrest
  simpa [Pattern.ofChars, tokens, wild] using hrest

/-- A pattern for names below a directory is well formed, whatever the name of the directory. -/
theorem exists_ofChars_underDirectory {ext : List Char} (hext : ext.any isSpecial = false)
    (cs : List Char) : ∃ whole, Pattern.ofChars
      (Pattern.escape cs ++ '/' :: '*' :: '*' :: '/' :: '*' :: '.' :: ext) = .ok whole := by
  have hplain : ('.' :: ext).any isSpecial = false := by
    rw [List.any_cons, hext]
    rfl
  obtain ⟨fuel, pos, prev, hfuel, htokens⟩ := tokens_escape_append cs
    ('/' :: '*' :: '*' :: '/' :: '*' :: '.' :: ext) _ 0 none [] (Nat.lt_succ_self _)
  rw [Pattern.ofChars, htokens]
  simp only [List.length_cons] at hfuel
  obtain ⟨fuel, rfl⟩ : ∃ n, fuel = n + 3 := ⟨fuel - 3, by omega⟩
  rw [tokens_of_ne_star (by decide) (by decide), if_neg (by decide)]
  have hrest (done : List Token) (pos : Nat) (prev : Option Char) :
      ∃ whole, tokens fuel pos prev done ('.' :: ext) = .ok whole := by
    rw [← escape_of_plain hplain]
    exact ⟨_, tokens_escape _ _ _ _ _ (by rw [escape_of_plain hplain, List.length_cons]; omega)⟩
  simp [tokens, hrest]

/-! ### Cutting patterns -/

/-- An escaped text is cut where the text is. -/
theorem partsBetween_escape (cs rest : List Char) :
    partsBetween '/' (Pattern.escape cs ++ '/' :: rest) =
      (partsBetween '/' cs).map Pattern.escape ++ partsBetween '/' rest := by
  induction cs with
  | nil => simp [Pattern.escape, partsBetween]
  | cons c cs ih =>
    rw [Pattern.escape, List.flatMap_cons, ← Pattern.escape, List.append_assoc]
    by_cases hc : c = '/'
    · subst hc
      rw [if_neg (by decide), List.singleton_append, partsBetween, if_pos rfl, ih, partsBetween,
        if_pos rfl]
      rfl
    · cases hparts : partsBetween '/' cs with
      | nil => exact absurd hparts (partsBetween_ne_nil cs)
      | cons part parts =>
        have hfront : '/' ∉
            (if c = '?' ∨ c = '*' ∨ c = '[' ∨ c = ']' then ['[', c, ']'] else [c]) := by
          split_ifs <;> simp [Ne.symm hc]
        rw [hparts, List.map_cons, List.cons_append] at ih
        rw [partsBetween_append_left hfront ih, partsBetween, if_neg hc, hparts]
        simp only [List.map_cons, List.cons_append]
        rw [Pattern.escape, Pattern.escape, List.flatMap_cons]

theorem cutScope_of_ne {c : Char} (hc : c ≠ '/') (cs : List Char) :
    Query.cutScope (c :: cs) = (.ofString ".", c :: cs) := by
  rw [Query.cutScope.eq_def]
  split
  · rename_i heq
    exact absurd (List.cons.inj heq).1 hc
  · rfl

/-- Where the search begins is cut off an escaped text as off the text. -/
theorem cutScope_escape {whole : List Char} (hwhole : whole ≠ []) (rest : List Char) :
    Query.cutScope (Pattern.escape whole ++ rest) =
      ((Query.cutScope whole).1, Pattern.escape (Query.cutScope whole).2 ++ rest) := by
  obtain ⟨c, cs, rfl⟩ := List.exists_cons_of_ne_nil hwhole
  by_cases hc : c = '/'
  · subst hc
    rfl
  · rw [cutScope_of_ne hc, Pattern.escape, List.flatMap_cons]
    split_ifs
    · exact cutScope_of_ne (by decide) _
    · exact cutScope_of_ne hc _

theorem mapM_ofChars_escape (texts : List (List Char)) :
    (texts.map Pattern.escape).mapM Pattern.ofChars = .ok (texts.map rigid) := by
  induction texts with
  | nil => rfl
  | cons cs texts ih =>
    rw [List.map_cons, List.mapM_cons, ofChars_escape, ih]
    rfl

/-! ### Patterns for names below a directory -/

section

variable {ext first : List Char} {rest : List (List Char)}
  (hcut : partsBetween '/' ext = first :: rest)

include hcut

/-- An extension that does not end in a separator ends in a name. -/
theorem getLast?_ne_nil (hext : ext.getLast? ≠ some '/') :
    (('*' :: '.' :: first) :: rest).getLast? ≠ some [] := by
  intro hnil
  obtain ⟨front, hfront⟩ := List.getLast?_eq_some_iff.mp hnil
  cases front with
  | nil => cases hfront
  | cons part front =>
    have hrest : rest = front ++ [[]] := (List.cons.inj hfront).2
    rw [hrest, ← List.cons_append] at hcut
    rcases getLast?_of_partsBetween hcut with rfl | hslash
    · simp [partsBetween] at hcut
    · exact hext hslash

theorem cutAtSlashes_underDirectory (hext : ext.getLast? ≠ some '/') (cs : List Char) :
    cutAtSlashes (Pattern.escape cs ++ '/' :: '*' :: '*' :: '/' :: '*' :: '.' :: ext) =
      (partsBetween '/' cs).map Pattern.escape ++
        ['*', '*'] :: ('*' :: '.' :: first) :: rest := by
  have hname := partsBetween_append_left (by decide : '/' ∉ ['*', '.']) hcut
  have htail : partsBetween '/' ('*' :: '*' :: '/' :: '*' :: '.' :: ext) =
      ['*', '*'] :: ('*' :: '.' :: first) :: rest := by
    rw [show '*' :: '*' :: '/' :: '*' :: '.' :: ext = ['*', '*'] ++ '/' :: (['*', '.'] ++ ext)
      from rfl, partsBetween_append_separator, hname]
    rfl
  have hlast : ((partsBetween '/' cs).map Pattern.escape ++
      ['*', '*'] :: ('*' :: '.' :: first) :: rest).getLast? ≠ some [] := by
    rw [List.getLast?_append_of_ne_nil _ (List.cons_ne_nil _ _), List.getLast?_cons_cons]
    exact getLast?_ne_nil hcut hext
  rw [cutAtSlashes, partsBetween_escape, htail]
  exact if_neg hlast

/-- The parts that such a pattern is cut into are read one by one. -/
theorem mapM_ofChars_underDirectory (hext : ext.any isSpecial = false) (texts : List (List Char)) :
    (texts.map Pattern.escape ++ ['*', '*'] :: ('*' :: '.' :: first) :: rest).mapM
      Pattern.ofChars = .ok (texts.map rigid ++ anyDepth first ++ rest.map rigid) := by
  have hplain (part : List Char) (hpart : part ∈ first :: rest) : part.any isSpecial = false := by
    rw [← hcut] at hpart
    rw [List.any_eq_false] at hext ⊢
    exact fun c hc ↦ hext c (mem_of_mem_partsBetween hpart hc)
  have hescape (part : List Char) (hpart : part ∈ rest) : Pattern.escape part = id part :=
    escape_of_plain (hplain part (List.mem_cons_of_mem _ hpart))
  have hrest : rest.map Pattern.escape = rest :=
    (List.map_congr_left hescape).trans (List.map_id rest)
  have hread := mapM_ofChars_escape rest
  rw [hrest] at hread
  rw [List.mapM_append, mapM_ofChars_escape, List.mapM_cons, List.mapM_cons,
    ofChars_wild (hplain first List.mem_cons_self), hread, List.append_assoc]
  rfl

end

end Glob

/-! ### The pattern for bundles -/

theorem isSpecial_of_isGlobCharacter {cs : List Char} (hcs : cs.any isGlobCharacter = false) :
    cs.any Glob.isSpecial = false := by
  rw [List.any_eq_false] at hcs ⊢
  intro c hc hspecial
  refine hcs c hc ?_
  simp only [Glob.isSpecial, Bool.or_eq_true, decide_eq_true_eq] at hspecial
  rcases hspecial with ((rfl | rfl) | rfl) | rfl <;> decide

/-- The text of the directory that bundles are looked for in. -/
def directoryChars (c : Config) (base : List Char) : List Char :=
  base ++ '/' :: c.bundleDirChars

theorem bundlePattern_eq {c : Config} {pattern : List Char}
    (hpattern : bundlePattern c = .ok pattern) : ∃ base, c.baseText? = some base ∧
      pattern = Glob.Pattern.escape (directoryChars c base) ++
        '/' :: '*' :: '*' :: '/' :: '*' :: '.' :: c.extension.toList := by
  rw [bundlePattern] at hpattern
  cases hbase : c.baseText? with
  | none => simp [hbase] at hpattern
  | some base =>
    have hslash : Glob.Pattern.escape ('/' :: c.bundleDirChars) =
        '/' :: Glob.Pattern.escape c.bundleDirChars := rfl
    simp only [hbase, Except.ok.injEq] at hpattern
    refine ⟨base, rfl, ?_⟩
    rw [← hpattern, directoryChars, Glob.escape_append, hslash]
    simp

/-- Bundles are looked for under one directory, at any depth, with any name before the extension. An
extension that is cut by separators spells further names. -/
theorem bundleQuery_eq {c : Config} (hc : c.Accepted)
    (hext : c.extension.toList.getLast? ≠ some '/') {q : Glob.Query} (hq : bundleQuery c = .ok q) :
    ∃ base first rest, c.baseText? = some base ∧
      partsBetween '/' c.extension.toList = first :: rest ∧
      q.scope = (Glob.Query.cutScope (directoryChars c base)).1 ∧
      q.parts = (partsBetween '/' (Glob.Query.cutScope (directoryChars c base)).2).map Glob.rigid ++
        Glob.anyDepth first ++ rest.map Glob.rigid ∧
      q.directoriesOnly = false := by
  obtain ⟨pattern, hpattern, hchars⟩ := bundleQuery_ok hq
  obtain ⟨hscope, hdirectories, parts, hparts, hqparts⟩ := ofChars_ok hchars
  obtain ⟨base, hbase, rfl⟩ := bundlePattern_eq hpattern
  obtain ⟨first, rest, hcut⟩ := List.exists_cons_of_ne_nil
    (partsBetween_ne_nil c.extension.toList : partsBetween '/' c.extension.toList ≠ [])
  have hwhole : directoryChars c base ≠ [] :=
    List.append_ne_nil_of_right_ne_nil _ (List.cons_ne_nil _ _)
  rw [Glob.cutScope_escape hwhole] at hscope hparts hqparts
  refine ⟨base, first, rest, hbase, hcut, hscope, ?_, ?_⟩
  · rw [Glob.cutAtSlashes_underDirectory hcut hext,
      Glob.mapM_ofChars_underDirectory hcut (isSpecial_of_isGlobCharacter hc.extension_plain),
      Except.ok.injEq] at hparts
    rw [hqparts, ← hparts]
    simp
  · have hlast : (Glob.Pattern.escape (directoryChars c base) ++
        '/' :: '*' :: '*' :: '/' :: '*' :: '.' :: c.extension.toList).getLast? ≠ some '/' := by
      rw [List.getLast?_append_of_ne_nil _ (List.cons_ne_nil _ _)]
      simp only [List.getLast?_cons_cons]
      cases hend : c.extension.toList with
      | nil => simp
      | cons char chars =>
        rw [hend] at hext
        rwa [List.getLast?_cons_cons]
    exact Bool.eq_false_iff.mpr fun hdirectory ↦ hlast (hdirectories.mp hdirectory)

/-- The pattern for bundles is well formed, whatever the base directory is called. -/
theorem exists_bundleQuery {c : Config} (hc : c.Accepted)
    (hext : c.extension.toList.getLast? ≠ some '/') {base : List Char}
    (hbase : c.baseText? = some base) : ∃ q, bundleQuery c = .ok q := by
  obtain ⟨pattern, hpattern⟩ : ∃ pattern, bundlePattern c = .ok pattern :=
    ⟨_, by rw [bundlePattern, hbase]⟩
  obtain ⟨base', -, rfl⟩ := bundlePattern_eq hpattern
  obtain ⟨first, rest, hcut⟩ := List.exists_cons_of_ne_nil
    (partsBetween_ne_nil c.extension.toList : partsBetween '/' c.extension.toList ≠ [])
  have hplain := isSpecial_of_isGlobCharacter hc.extension_plain
  have hwhole : directoryChars c base' ≠ [] :=
    List.append_ne_nil_of_right_ne_nil _ (List.cons_ne_nil _ _)
  obtain ⟨whole, hread⟩ := Glob.exists_ofChars_underDirectory hplain (directoryChars c base')
  have hparts := Glob.mapM_ofChars_underDirectory hcut hplain
    (partsBetween '/' (Glob.Query.cutScope (directoryChars c base')).2)
  rw [← Glob.cutAtSlashes_underDirectory hcut hext] at hparts
  rw [bundleQuery, hpattern]
  simp only [bind, Except.bind, Glob.Query.ofChars, hread, Glob.cutScope_escape hwhole, hparts]
  exact ⟨_, rfl⟩

/-- The parts of the name of the directory that bundles are looked for in. -/
def directoryParts (c : Config) (base : List Char) : List (List Char) :=
  partsBetween '/' (Glob.Query.cutScope (directoryChars c base)).2

/-- Bundles are looked for under one directory, at any depth and with any name before the extension.
-/
theorem bundleQuery_of_notMem {c : Config} (hc : c.Accepted) (hext : '/' ∉ c.extension.toList)
    {q : Glob.Query} (hq : bundleQuery c = .ok q) : ∃ base, c.baseText? = some base ∧
      q.scope = (Glob.Query.cutScope (directoryChars c base)).1 ∧
      q.parts = (directoryParts c base).map Glob.rigid ++ Glob.anyDepth c.extension.toList ∧
      q.directoriesOnly = false := by
  have hlast : c.extension.toList.getLast? ≠ some '/' :=
    fun hslash ↦ hext (List.mem_of_getLast? hslash)
  obtain ⟨base, first, rest, hbase, hcut, hscope, hparts, hfiles⟩ := bundleQuery_eq hc hlast hq
  rw [partsBetween_of_notMem hext, List.cons.injEq] at hcut
  obtain ⟨rfl, rfl⟩ := hcut
  exact ⟨base, hbase, hscope, by rw [hparts, List.map_nil, List.append_nil, directoryParts], hfiles⟩

theorem parts_of_bundleQuery {c : Config} (hc : c.Accepted) (hext : '/' ∉ c.extension.toList)
    {q : Glob.Query} (hq : bundleQuery c = .ok q) :
    ∃ texts : List (List Char), (∀ cs ∈ texts, '/' ∉ cs) ∧
      q.parts = texts.map Glob.rigid ++ Glob.anyDepth c.extension.toList ∧
      q.directoriesOnly = false := by
  obtain ⟨base, -, -, hparts, hfiles⟩ := bundleQuery_of_notMem hc hext hq
  exact ⟨_, fun part hpart ↦ separator_notMem_of_mem_partsBetween hpart, hparts, hfiles⟩

end BundleLink
