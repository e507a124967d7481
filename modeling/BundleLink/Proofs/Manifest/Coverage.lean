import BundleLink.Proofs.Config.Accepted
import BundleLink.Proofs.Manifest.Stability

/-!
Which side effects still count once bundles have been linked. An entry of the list covers a path if
the path matches it with `*` for any run within a segment and `?` for one character
(`Matches`, `Covers`).

A literal entry is listed for the artifact too, so it covers the artifact by its copy. An entry with
wildcards is left as it is. What it covered it still covers under the longer name exactly if it ends
open: its last segment holds a `*`, and what follows the last one matches the end of the longer name
(`matches_append_iff`). So `*.x` goes on to cover and `?.x` and `*/a.x` do not
(`covers_linkedName_of_update`, `not_covers_linkedName_closed`).
-/

set_option autoImplicit false

namespace BundleLink.Manifest

open BundleLink.Json BundleLink.Text

/-! ### Matching -/

/-- A star stands for any run of characters within a segment, a question mark for one character
within a segment, and every other character for itself. -/
inductive Matches : List Char → List Char → Prop
  | nil : Matches [] []
  | run {run pattern path : List Char} : '/' ∉ run → Matches pattern path →
      Matches ('*' :: pattern) (run ++ path)
  | any {c : Char} {pattern path : List Char} : c ≠ '/' → Matches pattern path →
      Matches ('?' :: pattern) (c :: path)
  | char {c : Char} {pattern path : List Char} : c ≠ '*' → c ≠ '?' → Matches pattern path →
      Matches (c :: pattern) (c :: path)

/-- An entry of a list of side effects covers a path. Neither is read with the `./` it begins with.
-/
def Covers (entry path : String) : Prop :=
  Matches (dropDotSlashes entry.toList) (dropDotSlashes path.toList)

/-- No character of a pattern stands for others. -/
def Plain (pattern : List Char) : Prop :=
  '*' ∉ pattern ∧ '?' ∉ pattern

/-- The last segment of a pattern holds a star, and what follows the last star matches the end of
the path. -/
def EndsOpen (pattern path : List Char) : Prop :=
  ∃ before after front rear, pattern = before ++ '*' :: after ∧ '*' ∉ after ∧ '/' ∉ after ∧
    path = front ++ rear ∧ Matches after rear

variable {pattern path : List Char}

theorem plain_cons_iff {c : Char} : Plain (c :: pattern) ↔ c ≠ '*' ∧ c ≠ '?' ∧ Plain pattern := by
  simp only [Plain, List.mem_cons, not_or, ne_eq, eq_comm]
  tauto

theorem matches_self (hplain : Plain pattern) : Matches pattern pattern := by
  induction pattern with
  | nil => exact .nil
  | cons c pattern ih =>
    obtain ⟨hstar, hmark, hrest⟩ := plain_cons_iff.mp hplain
    exact .char hstar hmark (ih hrest)

/-- A pattern without wildcards matches itself only. -/
theorem eq_of_matches (hplain : Plain pattern) (hmatches : Matches pattern path) :
    path = pattern := by
  induction hmatches with
  | nil => rfl
  | run _ _ _ => exact absurd rfl (plain_cons_iff.mp hplain).1
  | any _ _ _ => exact absurd rfl (plain_cons_iff.mp hplain).2.1
  | char _ _ _ ih => rw [ih (plain_cons_iff.mp hplain).2.2]

/-- Only a star changes the length. -/
theorem length_eq_of_matches (hstar : '*' ∉ pattern) (hmatches : Matches pattern path) :
    path.length = pattern.length := by
  induction hmatches with
  | nil => rfl
  | run _ _ _ => exact absurd List.mem_cons_self hstar
  | any _ _ ih => simp [ih (List.not_mem_of_not_mem_cons hstar)]
  | char _ _ _ ih => simp [ih (List.not_mem_of_not_mem_cons hstar)]

/-- No wildcard stands for a separator. -/
theorem count_slash_eq_of_matches (hmatches : Matches pattern path) :
    path.count '/' = pattern.count '/' := by
  induction hmatches with
  | nil => rfl
  | run hrun _ ih => simp [List.count_append, List.count_eq_zero_of_not_mem hrun, ih]
  | any hc _ ih => simp [hc, ih]
  | char _ _ _ ih => simp [List.count_cons, ih]

theorem slash_mem_iff_of_matches (hmatches : Matches pattern path) :
    '/' ∈ path ↔ '/' ∈ pattern := by
  rw [← List.count_pos_iff, ← List.count_pos_iff, count_slash_eq_of_matches hmatches]

theorem Matches.append {pattern' path' : List Char} (hmatches : Matches pattern path)
    (hmatches' : Matches pattern' path') : Matches (pattern ++ pattern') (path ++ path') := by
  induction hmatches with
  | nil => exact hmatches'
  | run hrun _ ih =>
    rw [List.cons_append, List.append_assoc]
    exact .run hrun ih
  | any hc _ ih => exact .any hc ih
  | char hstar hmark _ ih => exact .char hstar hmark ih

/-- A path is cut where the pattern is. -/
theorem exists_of_matches_append {pattern' : List Char}
    (hmatches : Matches (pattern ++ pattern') path) :
    ∃ front rear, path = front ++ rear ∧ Matches pattern front ∧ Matches pattern' rear := by
  induction pattern generalizing path with
  | nil => exact ⟨[], path, rfl, .nil, hmatches⟩
  | cons c pattern ih =>
    rw [List.cons_append] at hmatches
    cases hmatches with
    | run hrun hrest =>
      obtain ⟨front, rear, rfl, hfront, hrear⟩ := ih hrest
      exact ⟨_ ++ front, rear, (List.append_assoc _ _ _).symm, .run hrun hfront, hrear⟩
    | any hc hrest =>
      obtain ⟨front, rear, rfl, hfront, hrear⟩ := ih hrest
      exact ⟨_ :: front, rear, rfl, .any hc hfront, hrear⟩
    | char hstar hmark hrest =>
      obtain ⟨front, rear, rfl, hfront, hrear⟩ := ih hrest
      exact ⟨c :: front, rear, rfl, .char hstar hmark hfront, hrear⟩

/-- A plain front of a pattern matches itself. -/
theorem matches_plain_append {front : List Char} (hplain : Plain front)
    (hmatches : Matches pattern path) : Matches (front ++ pattern) (front ++ path) :=
  (matches_self hplain).append hmatches

/-- A pattern that ends in a plain text matches what ends in it. -/
theorem suffix_of_matches_append {front rear : List Char} (hplain : Plain rear)
    (hmatches : Matches (front ++ rear) path) : rear <:+ path := by
  obtain ⟨front', rear', rfl, -, hrear⟩ := exists_of_matches_append hmatches
  rw [eq_of_matches hplain hrear]
  exact List.suffix_append _ _

/-! ### Longer names -/

/-- The last place of a character in a text. -/
theorem exists_last_of_mem {c : Char} {cs : List Char} (hmem : c ∈ cs) :
    ∃ front rear, cs = front ++ c :: rear ∧ c ∉ rear := by
  obtain ⟨front, rear, heq, hfront⟩ := List.eq_append_cons_of_mem (List.mem_reverse.mpr hmem)
  refine ⟨rear.reverse, front.reverse, ?_, by simpa using hfront⟩
  rw [← List.reverse_reverse cs, heq]
  simp

/-- What stands after the last separator is one thing. -/
theorem rear_eq_of_last {front rear front' rear' : List Char} (hrear : '/' ∉ rear)
    (hrear' : '/' ∉ rear') (heq : front ++ '/' :: rear = front' ++ '/' :: rear') :
    rear = rear' := by
  have hreverse := congrArg List.reverse heq
  rw [List.reverse_append, List.reverse_append, List.reverse_cons, List.reverse_cons,
    List.append_assoc, List.append_assoc] at hreverse
  have htake (front rear : List Char) (hrear : '/' ∉ rear) :
      (rear.reverse ++ (['/'] ++ front.reverse)).takeWhile (· ≠ '/') = rear.reverse := by
    rw [List.takeWhile_append_of_pos (by
      intro c hc
      simpa using ne_of_mem_of_not_mem (List.mem_reverse.mp hc) hrear)]
    simp
  have hsame := congrArg (List.takeWhile (· ≠ '/')) hreverse
  rw [htake front rear hrear, htake front' rear' hrear'] at hsame
  exact List.reverse_injective hsame

/-- What follows the last star of a pattern lies in its last segment if the pattern matches a name
and a longer one. -/
theorem slash_notMem_of_matches_append {before after suffix : List Char}
    (hsuffix : suffix ≠ []) (hslash : '/' ∉ suffix) (hstar : '*' ∉ after)
    (hmatches : Matches (before ++ '*' :: after) path)
    (hmatches' : Matches (before ++ '*' :: after) (path ++ suffix)) : '/' ∉ after := by
  intro hmem
  obtain ⟨inner, last, rfl, hlast⟩ := exists_last_of_mem hmem
  have hcut (q : List Char) (hq : Matches (before ++ '*' :: (inner ++ '/' :: last)) q) :
      ∃ front rear, q = front ++ '/' :: rear ∧ rear.length = last.length ∧ '/' ∉ rear := by
    have hwhole : before ++ '*' :: (inner ++ '/' :: last) =
        (before ++ '*' :: inner) ++ ('/' :: last) := by simp
    rw [hwhole] at hq
    obtain ⟨front, rear, rfl, -, hrear⟩ := exists_of_matches_append hq
    cases hrear with
    | char _ _ hrest =>
      refine ⟨front, _, rfl, length_eq_of_matches ?_ hrest, ?_⟩
      · intro hin
        exact hstar (List.mem_append_right _ (List.mem_cons_of_mem _ hin))
      · rw [slash_mem_iff_of_matches hrest]
        exact hlast
  obtain ⟨front, rear, hpath, hlength, hrear⟩ := hcut path hmatches
  obtain ⟨front', rear', hpath', hlength', hrear'⟩ := hcut (path ++ suffix) hmatches'
  have hlonger : front ++ '/' :: (rear ++ suffix) = front' ++ '/' :: rear' := by
    rw [← hpath', hpath]
    simp
  have hsame : rear ++ suffix = rear' :=
    rear_eq_of_last (by simp [hrear, hslash]) hrear' hlonger
  have hlengths := congrArg List.length hsame
  rw [List.length_append] at hlengths
  exact hsuffix (List.eq_nil_of_length_eq_zero (by omega))

/-- Only a pattern that ends open matches a name and the name with more at its end. -/
theorem endsOpen_of_matches_append {suffix : List Char} (hsuffix : suffix ≠ [])
    (hmatches : Matches pattern path) (hmatches' : Matches pattern (path ++ suffix)) :
    '/' ∉ suffix ∧ EndsOpen pattern (path ++ suffix) := by
  have hslash : '/' ∉ suffix := by
    have hcount := (count_slash_eq_of_matches hmatches').trans
      (count_slash_eq_of_matches hmatches).symm
    rw [List.count_append] at hcount
    exact List.count_eq_zero.mp (by omega)
  refine ⟨hslash, ?_⟩
  have hmem : '*' ∈ pattern := by
    by_contra hnone
    have hlength := (length_eq_of_matches hnone hmatches').trans
      (length_eq_of_matches hnone hmatches).symm
    rw [List.length_append] at hlength
    exact hsuffix (List.eq_nil_of_length_eq_zero (by omega))
  obtain ⟨before, after, rfl, hstar⟩ := exists_last_of_mem hmem
  obtain ⟨front, rear, hpath, -, hrear⟩ := exists_of_matches_append hmatches'
  cases hrear with
  | @run run _ last hrun hlast =>
    refine ⟨before, after, front ++ run, last, rfl, hstar, ?_, ?_, hlast⟩
    · exact slash_notMem_of_matches_append hsuffix hslash hstar hmatches hmatches'
    · rw [hpath, List.append_assoc]
  | char hne _ _ => exact absurd rfl hne

/-- The last star of a pattern that ends open can stand for what is added to a name. -/
theorem matches_append_of_endsOpen {suffix : List Char} (hslash : '/' ∉ suffix)
    (hopen : EndsOpen pattern (path ++ suffix)) (hmatches : Matches pattern path) :
    Matches pattern (path ++ suffix) := by
  obtain ⟨before, after, front, rear, rfl, hstar, hafter, hpath, hrear⟩ := hopen
  obtain ⟨front₀, rear₀, rfl, hbefore, hrear₀⟩ := exists_of_matches_append hmatches
  rw [List.append_assoc]
  refine hbefore.append ?_
  cases hrear₀ with
  | char hne _ _ => exact absurd rfl hne
  | @run run _ last hrun hlast =>
    -- What the star stood for grows by the difference of the two names.
    have hlength : rear.length ≤ (run ++ last ++ suffix).length := by
      have hsame := (length_eq_of_matches hstar hrear).trans
        (length_eq_of_matches hstar hlast).symm
      simp only [List.length_append]
      omega
    have hrears : rear <:+ run ++ last ++ suffix := by
      have hwhole : rear <:+ front₀ ++ (run ++ last ++ suffix) :=
        ⟨front, by rw [← hpath]; simp⟩
      exact List.suffix_of_suffix_length_le hwhole (List.suffix_append _ _) hlength
    obtain ⟨grown, hgrown⟩ := hrears
    rw [← hgrown]
    refine .run ?_ hrear
    have hlast' : '/' ∉ last := by rwa [slash_mem_iff_of_matches hlast]
    have hnone : '/' ∉ grown ++ rear := by
      rw [hgrown]
      simp [hrun, hlast', hslash]
    exact fun hmem ↦ hnone (List.mem_append_left _ hmem)

/-- A pattern that matches a name matches the name with more at its end exactly if it ends open. -/
theorem matches_append_iff {suffix : List Char} (hsuffix : suffix ≠ [])
    (hmatches : Matches pattern path) :
    Matches pattern (path ++ suffix) ↔ '/' ∉ suffix ∧ EndsOpen pattern (path ++ suffix) :=
  ⟨endsOpen_of_matches_append hsuffix hmatches,
    fun ⟨hslash, hopen⟩ ↦ matches_append_of_endsOpen hslash hopen hmatches⟩

/-! ### Names without the `./` they begin with -/

theorem dropDotSlashes_eq_self {cs : List Char} (hcs : ∀ rest, cs ≠ '.' :: '/' :: rest) :
    dropDotSlashes cs = cs := by
  rw [dropDotSlashes.eq_def]
  split
  · rename_i rest
    exact absurd rfl (hcs rest)
  · rfl

theorem dropDotSlashes_append (cs rest : List Char) :
    dropDotSlashes (cs ++ '.' :: 'l' :: rest) = dropDotSlashes cs ++ '.' :: 'l' :: rest := by
  induction cs using dropDotSlashes.induct with
  | case1 cs ih => simpa [dropDotSlashes] using ih
  | case2 cs hcs =>
    rw [dropDotSlashes_eq_self hcs]
    apply dropDotSlashes_eq_self
    intro rest' heq
    rcases cs with _ | ⟨c, _ | ⟨c', cs⟩⟩
    · simp at heq
    · simp at heq
    · simp only [List.cons_append, List.cons.injEq] at heq
      exact hcs cs (by rw [heq.1, heq.2.1])

theorem dropDotSlashes_suffix (cs : List Char) : dropDotSlashes cs <:+ cs := by
  induction cs using dropDotSlashes.induct with
  | case1 cs ih => exact ih.trans ((List.suffix_cons _ _).trans (List.suffix_cons _ _))
  | case2 cs hcs =>
    exact ⟨[], by rw [dropDotSlashes_eq_self hcs, List.nil_append]⟩

/-- The suffix of artifacts never begins within the `./` of a name. -/
theorem suffix_iff_dropDotSlashes (cs rest : List Char) :
    '.' :: 'l' :: rest <:+ cs ↔ '.' :: 'l' :: rest <:+ dropDotSlashes cs := by
  induction cs using dropDotSlashes.induct with
  | case1 cs ih =>
    rw [List.suffix_cons_iff, List.suffix_cons_iff, dropDotSlashes, ← ih]
    simp
  | case2 cs hcs => rw [dropDotSlashes_eq_self hcs]

theorem exists_suffix_eq (c : Config) : ∃ rest, c.suffix.toList = '.' :: 'l' :: rest := by
  refine ⟨"inked.".toList ++ c.extension.toList, ?_⟩
  rw [Config.suffix, String.toList_append]
  rfl

theorem dropDotSlashes_linkedName (c : Config) (p : String) :
    dropDotSlashes (c.linkedName p).toList = dropDotSlashes p.toList ++ c.suffix.toList := by
  obtain ⟨rest, hrest⟩ := exists_suffix_eq c
  rw [Config.linkedName, String.toList_append, hrest, dropDotSlashes_append]

/-- Names that differ in the `./` they begin with carry the suffix alike. -/
theorem endsWith_suffix_congr {c : Config} {p q : String}
    (hsame : dropDotSlashes p.toList = dropDotSlashes q.toList) :
    endsWith c.suffix p = endsWith c.suffix q := by
  obtain ⟨rest, hrest⟩ := exists_suffix_eq c
  rw [Bool.eq_iff_iff, endsWith, endsWith, List.isSuffixOf_iff_suffix, List.isSuffixOf_iff_suffix,
    hrest, suffix_iff_dropDotSlashes, hsame, ← suffix_iff_dropDotSlashes]

theorem plain_suffix {c : Config} (hc : c.Accepted) : Plain c.suffix.toList := by
  have hnone (x : Char) (hx : isGlobCharacter x = true) (hlinked : x ∉ ".linked.".toList) :
      x ∉ c.suffix.toList := by
    rw [Config.suffix, String.toList_append, List.mem_append, not_or]
    exact ⟨hlinked, fun hmem ↦ List.any_eq_false.mp hc.extension_plain x hmem hx⟩
  exact ⟨hnone '*' (by decide) (by decide), hnone '?' (by decide) (by decide)⟩

theorem Plain.dropDotSlashes {cs : List Char} (hplain : Plain cs) :
    Plain (dropDotSlashes cs) :=
  ⟨fun hmem ↦ hplain.1 ((dropDotSlashes_suffix cs).subset hmem),
    fun hmem ↦ hplain.2 ((dropDotSlashes_suffix cs).subset hmem)⟩

/-! ### Updated lists -/

/-- The list of side effects of a manifest, if it has one. -/
def listed? (m : Value) : Option (List Value) :=
  m.entries?.bind sideEffects?

theorem listed?_update {c : Config} {m : Value} {u : ManifestUpdate} (hu : update c m = .ok u)
    {patterns : List Value} (hpatterns : listed? m = some patterns) :
    listed? u.manifest = some (patterns ++ (missingSideEffects c patterns).map .string) := by
  obtain ⟨entries, exports, rfl, -, rfl⟩ := update_eq_ok_iff.mp hu
  obtain ⟨log, heq⟩ := updateEntries_of_some c exports hpatterns
  rw [heq]
  simp [listed?, Value.entries?, sideEffects?, Entries.get?_put]

theorem mem_literals {c : Config} {patterns : List Value} {e : String}
    (he : .string e ∈ patterns) (hplain : Plain e.toList) (hnot : ¬endsWith c.suffix e) :
    e ∈ literals c patterns := by
  rw [literals, List.mem_filter, List.mem_filterMap]
  refine ⟨⟨.string e, he, rfl⟩, ?_⟩
  have hnone : (e.toList.any fun x ↦ x = '*' || x = '?') = false := by
    rw [List.any_eq_false]
    intro x hx
    simp only [Bool.or_eq_true, decide_eq_true_eq, not_or]
    exact ⟨ne_of_mem_of_not_mem hx hplain.1, ne_of_mem_of_not_mem hx hplain.2⟩
  simp [isLiteral, hnone, hnot]

/-- The entry that is listed for an artifact covers it if the literal one covered the bundle. -/
theorem covers_linkedName_of_plain {c : Config} (hc : c.Accepted) {e p : String}
    (hplain : Plain e.toList) (hcovers : Covers e p) :
    Covers (c.linkedName e) (c.linkedName p) := by
  unfold Covers at hcovers ⊢
  rw [dropDotSlashes_linkedName, dropDotSlashes_linkedName,
    eq_of_matches hplain.dropDotSlashes hcovers]
  exact (matches_self hplain.dropDotSlashes).append (matches_self (plain_suffix hc))

/-- A literal entry that covers a bundle has its linked form in the updated list. -/
theorem linkedName_mem_of_plain {c : Config} {patterns : List Value} {e p : String}
    (he : .string e ∈ patterns) (hplain : Plain e.toList) (hcovers : Covers e p)
    (hscope : inScope c p) (hnot : ¬endsWith c.suffix p) :
    .string (c.linkedName e) ∈ patterns ++ (missingSideEffects c patterns).map .string := by
  have hsame : dropDotSlashes p.toList = dropDotSlashes e.toList :=
    eq_of_matches hplain.dropDotSlashes hcovers
  have hliteral : e ∈ literals c patterns := by
    apply mem_literals he hplain
    rwa [endsWith_suffix_congr hsame.symm]
  have hin : inScope c e := by
    unfold inScope at hscope ⊢
    rw [← hsame]
    exact hscope
  by_cases hpresent : c.linkedName e ∈ patterns.filterMap Value.string?
  · obtain ⟨v, hv, heq⟩ := List.mem_filterMap.mp hpresent
    cases v with
    | string s =>
      rw [← Option.some.inj heq]
      exact List.mem_append_left _ hv
    | _ => cases heq
  · apply List.mem_append_right
    apply List.mem_map_of_mem
    rw [missingSideEffects, List.mem_eraseDups, List.mem_filter]
    exact ⟨List.mem_map_of_mem (List.mem_filter.mpr ⟨hliteral, hin⟩), by simpa using hpresent⟩

/-- A pattern after whose last star no more follows than a dot and the extension ends open. -/
theorem endsOpen_of_length_le {c : Config} {e p : String} {before after : List Char}
    (hcovers : Covers e p) (heq : dropDotSlashes e.toList = before ++ '*' :: after)
    (hstar : '*' ∉ after) (hslash : '/' ∉ after)
    (hlength : after.length ≤ ('.' :: c.extension.toList).length)
    (hend : endsWith ("." ++ c.extension) p) :
    EndsOpen (dropDotSlashes e.toList) (dropDotSlashes (c.linkedName p).toList) := by
  unfold Covers at hcovers
  rw [heq] at hcovers ⊢
  obtain ⟨front, rear, hpath, -, hrear⟩ := exists_of_matches_append hcovers
  cases hrear with
  | char hne _ _ => exact absurd rfl hne
  | @run run _ last hrun hlast =>
    have hin : last <:+ p.toList := by
      refine List.IsSuffix.trans ?_ (dropDotSlashes_suffix p.toList)
      rw [hpath, ← List.append_assoc]
      exact List.suffix_append _ _
    have hextension : '.' :: c.extension.toList <:+ p.toList := by
      rw [endsWith, List.isSuffixOf_iff_suffix, String.toList_append] at hend
      exact hend
    have hlast' : last <:+ '.' :: c.extension.toList :=
      List.suffix_of_suffix_length_le hin hextension
        (length_eq_of_matches hstar hlast ▸ hlength)
    have hlinked : '.' :: c.extension.toList <:+ dropDotSlashes (c.linkedName p).toList := by
      rw [dropDotSlashes_linkedName, Config.suffix, String.toList_append]
      refine List.IsSuffix.trans ?_ (List.suffix_append _ _)
      exact ⟨".linked".toList, rfl⟩
    obtain ⟨front', hfront'⟩ := hlast'.trans hlinked
    exact ⟨before, after, front', last, rfl, hstar, hslash, hfront'.symm, hlast⟩

/-- An entry that, if it covers a path, goes on to cover it under the name of its artifact. -/
def GoesOn (c : Config) (entry path : String) : Prop :=
  '/' ∉ c.extension.toList ∧
    EndsOpen (dropDotSlashes entry.toList) (dropDotSlashes (c.linkedName path).toList)

theorem covers_linkedName_iff {c : Config} {e p : String} (hcovers : Covers e p) :
    Covers e (c.linkedName p) ↔ GoesOn c e p := by
  obtain ⟨rest, hrest⟩ := exists_suffix_eq c
  have hslash : '/' ∉ c.suffix.toList ↔ '/' ∉ c.extension.toList := by
    rw [Config.suffix, String.toList_append, List.mem_append, not_or]
    exact and_iff_right (by decide)
  unfold Covers GoesOn
  rw [dropDotSlashes_linkedName, ← hslash]
  exact matches_append_iff (by simp [hrest]) hcovers

/-- After an update some entry covers the artifact if a literal entry covered the bundle, or one
that goes on to cover it. An entry goes on if no more than a dot and the extension follows its last
star. Other entries with wildcards that cover the bundle do not cover the artifact. -/
theorem covers_linkedName_of_update {c : Config} (hc : c.problem? = none) {m : Value}
    {u : ManifestUpdate} (hu : update c m = .ok u) {patterns : List Value}
    (hpatterns : listed? m = some patterns) {p : String} (hscope : inScope c p)
    (hend : endsWith ("." ++ c.extension) p) (hnot : ¬endsWith c.suffix p) :
    (∀ e, .string e ∈ patterns → Covers e p → Plain e.toList ∨ GoesOn c e p →
      ∃ updated e', listed? u.manifest = some updated ∧ .string e' ∈ updated ∧
        Covers e' (c.linkedName p)) ∧
    (∀ e before after, Covers e p → '/' ∉ c.extension.toList →
      dropDotSlashes e.toList = before ++ '*' :: after → '*' ∉ after → '/' ∉ after →
      after.length ≤ ('.' :: c.extension.toList).length → GoesOn c e p) ∧
    ∀ e, Covers e p → (Covers e (c.linkedName p) ↔ GoesOn c e p) := by
  have haccepted := c.accepted_iff.mp hc
  refine ⟨?_, ?_, fun e hcovers ↦ covers_linkedName_iff hcovers⟩
  · intro e he hcovers hkind
    rcases hkind with hplain | hgoes
    · exact ⟨_, c.linkedName e, listed?_update hu hpatterns,
        linkedName_mem_of_plain he hplain hcovers hscope hnot,
        covers_linkedName_of_plain haccepted hplain hcovers⟩
    · exact ⟨_, e, listed?_update hu hpatterns, List.mem_append_left _ he,
        (covers_linkedName_iff hcovers).mpr hgoes⟩
  · intro e before after hcovers hext heq hstar hslash hlength
    exact ⟨hext, endsOpen_of_length_le hcovers heq hstar hslash hlength hend⟩

/-! ### Entries that do not go on -/

def sideEffectConfig : Config where
  bundleDir := "d"
  extension := "x"

/-- The side effects with wildcards cover `d/a.x` and go on to cover its artifact. -/
def openManifest : Value :=
  .object [("exports", .object []), ("sideEffects", .array [.string "./d/*.x"])]

/-- The side effects cover `d/a.x`, and none of them its artifact. -/
def closedManifest : Value :=
  .object [("exports", .object []),
    ("sideEffects", .array [.string "./d/?.x", .string "*/a.x", .string "./d/*a.x"])]

theorem problem?_sideEffectConfig : sideEffectConfig.problem? = none := by rfl

theorem covers_linkedName_star : ∃ u updated e',
    update sideEffectConfig openManifest = .ok u ∧ listed? u.manifest = some updated ∧
      .string e' ∈ updated ∧ Covers e' (sideEffectConfig.linkedName "d/a.x") := by
  have hupdate := update_eq_ok_iff (c := sideEffectConfig).mpr
    ⟨_, _, (rfl : openManifest = _), rfl, rfl⟩
  have hfront : Plain "d/".toList := ⟨by decide, by decide⟩
  have hrun : '/' ∉ ['a'] := by decide
  have hcovers : Covers "./d/*.x" "d/a.x" :=
    matches_plain_append hfront (.run hrun (matches_self ⟨by decide, by decide⟩))
  have hkeeps := covers_linkedName_of_update problem?_sideEffectConfig hupdate rfl
    (p := "d/a.x") (by decide) (by decide) (by decide)
  have hgoes : GoesOn sideEffectConfig "./d/*.x" "d/a.x" :=
    hkeeps.2.1 "./d/*.x" "d/".toList ".x".toList hcovers (by decide) (by decide) (by decide)
      (by decide) (by decide)
  obtain ⟨updated, e', hupdated, he', hcovers'⟩ :=
    hkeeps.1 "./d/*.x" (by simp) hcovers (.inr hgoes)
  exact ⟨_, updated, e', hupdate, hupdated, he', hcovers'⟩

theorem listed?_closedManifest : ∃ u, update sideEffectConfig closedManifest = .ok u ∧
    listed? u.manifest =
      some [.string "./d/?.x", .string "*/a.x", .string "./d/*a.x"] := by
  refine ⟨_, (update_eq_ok_iff (c := sideEffectConfig)).mpr
    ⟨_, _, (rfl : closedManifest = _), rfl, rfl⟩, ?_⟩
  rfl

/-- Entries with wildcards that cover a bundle do not all cover its artifact. -/
theorem not_covers_linkedName_closed : sideEffectConfig.problem? = none ∧
    inScope sideEffectConfig "d/a.x" ∧ endsWith ("." ++ sideEffectConfig.extension) "d/a.x" ∧
    ¬endsWith sideEffectConfig.suffix "d/a.x" ∧
    ∃ u patterns updated, update sideEffectConfig closedManifest = .ok u ∧
      listed? closedManifest = some patterns ∧ listed? u.manifest = some updated ∧
      (∃ e, .string e ∈ patterns ∧ Covers e "d/a.x") ∧
      ∀ e, .string e ∈ updated → ¬Covers e (sideEffectConfig.linkedName "d/a.x") := by
  obtain ⟨u, hupdate, hlisted⟩ := listed?_closedManifest
  refine ⟨problem?_sideEffectConfig, by decide, by decide, by decide, u, _, _, hupdate, rfl,
    hlisted, ⟨"./d/?.x", by simp, ?_⟩, ?_⟩
  · have hfront : Plain "d/".toList := ⟨by decide, by decide⟩
    exact matches_plain_append hfront (.any (by decide) (matches_self ⟨by decide, by decide⟩))
  · intro e he hcovers
    simp only [List.mem_cons, Value.string.injEq, List.not_mem_nil, or_false] at he
    rcases he with rfl | rfl | rfl
    · have hlength := length_eq_of_matches (by decide) hcovers
      revert hlength
      decide
    · have hmatches : Matches (['*'] ++ "/a.x".toList) "d/a.x.linked.x".toList := hcovers
      have hrear := suffix_of_matches_append ⟨by decide, by decide⟩ hmatches
      revert hrear
      decide
    · have hmatches : Matches ("d/*".toList ++ "a.x".toList) "d/a.x.linked.x".toList := hcovers
      have hrear := suffix_of_matches_append ⟨by decide, by decide⟩ hmatches
      revert hrear
      decide

end BundleLink.Manifest
