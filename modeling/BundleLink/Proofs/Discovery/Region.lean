import BundleLink.Proofs.Discovery.Spots
import BundleLink.Proofs.Path.Resolution
import Mathlib.Data.List.TakeWhile

/-!
Where bundles stand. The parts of the query for bundles add the names of the bundle directory, any
number of names of entries, one name with the extension, and what follows in an extension that
separators cut (`names_of_bundle`, `solid_of_mem_discover`). So a bundle stands where its extension
leads from some directory at or below the bundle directory (`exists_way_of_mem_discover`).
-/

set_option autoImplicit false

namespace BundleLink

open BundleLink.Text FileSystem

/-! ### Names of texts -/

/-- The names that a text spells, part by part. -/
def namesOf (texts : List (List Char)) : List Bytes :=
  texts.flatMap fun cs ↦ steps ⟨encode cs⟩

theorem steps_encode_of_notMem {cs : List Char} (hcs : '/' ∉ cs) :
    steps ⟨encode cs⟩ = [encode cs].filter (· ≠ []) := by
  rw [steps, partsBetween_of_notMem (slash_notMem_encode hcs)]

theorem namesOf_eq {texts : List (List Char)} (htexts : ∀ cs ∈ texts, '/' ∉ cs) :
    namesOf texts = (texts.map encode).filter (· ≠ []) := by
  induction texts with
  | nil => rfl
  | cons cs texts ih =>
    have hrest := ih fun cs hcs ↦ htexts cs (List.mem_cons_of_mem _ hcs)
    rw [namesOf, List.flatMap_cons, steps_encode_of_notMem (htexts cs List.mem_cons_self),
      ← namesOf, hrest, List.map_cons, ← List.filter_append]
    rfl

theorem ne_nil_of_mem_namesOf {texts : List (List Char)} {name : Bytes}
    (hname : name ∈ namesOf texts) : name ≠ [] := by
  obtain ⟨cs, -, hcs⟩ := List.mem_flatMap.mp hname
  exact Path.ne_nil_of_mem_steps hcs

theorem steps_encode (cs : List Char) : steps ⟨encode cs⟩ = namesOf (partsBetween '/' cs) := by
  rw [steps, Path.partsBetween_encode,
    namesOf_eq fun part hpart ↦ separator_notMem_of_mem_partsBetween hpart]

theorem exists_eq_concat_of_append {front rear before : List Bytes} {last : Bytes}
    (hlast : front ++ rear = before ++ [last]) (hrear : rear ≠ []) :
    ∃ before', rear = before' ++ [last] := by
  have hends := congrArg List.getLast? hlast
  rw [List.getLast?_append_of_ne_nil _ hrear, List.getLast?_concat] at hends
  exact List.getLast?_eq_some_iff.mp hends

theorem isAbsolute_encode_cons {c : Char} (hc : c ≠ '/') (cs : List Char) :
    (⟨encode (c :: cs)⟩ : Path).isAbsolute = false := by
  have hcons : encode (c :: cs) = String.utf8EncodeChar c ++ encode cs := by simp [encode]
  rw [Bool.eq_false_iff, Path.isAbsolute, ne_eq, decide_eq_true_eq, hcons,
    List.head?_append_of_ne_nil _ String.utf8EncodeChar_ne_nil]
  exact fun hhead ↦ hc (eq_of_mem_utf8EncodeChar (List.mem_of_head? hhead) (by decide)).symm

/-! ### Parts of the query -/

namespace Glob

theorem follows_rigid {cs : List Char} {parts : List Pattern} {names : List Bytes}
    (hnames : Follows (rigid cs :: parts) names) :
    ∃ rest, names = steps ⟨encode cs⟩ ++ rest ∧ Follows parts rest := by
  have hnot := isRecursive_rigid cs
  cases hnames with
  | literal hliteral hrest =>
    rw [literal?_rigid] at hliteral
    split_ifs at hliteral
    obtain rfl := Option.some.inj hliteral
    exact ⟨_, rfl, hrest⟩
  | listed hname htext hmatches hrest =>
    obtain rfl := (matchesName_rigid cs _).mp hmatches
    rw [encode_of_decode? htext, steps_of_isName hname]
    exact ⟨_, rfl, hrest⟩
  | dots hliteral hdots hrest =>
    rw [literal?_rigid] at hliteral
    split_ifs at hliteral with hspecial
    rw [matchedDots_rigid hspecial] at hdots
    exact absurd hdots List.not_mem_nil
  | idle hrecursive => simp [hnot] at hrecursive
  | deeper hrecursive => simp [hnot] at hrecursive

theorem follows_map_rigid {texts : List (List Char)} {parts : List Pattern} {names : List Bytes}
    (hnames : Follows (texts.map rigid ++ parts) names) :
    ∃ rest, names = namesOf texts ++ rest ∧ Follows parts rest := by
  induction texts generalizing names with
  | nil => exact ⟨names, rfl, hnames⟩
  | cons cs texts ih =>
    obtain ⟨rest, rfl, hrest⟩ := follows_rigid hnames
    obtain ⟨rest', rfl, hrest'⟩ := ih hrest
    exact ⟨rest', (List.append_assoc ..).symm, hrest'⟩

/-- A recursive part adds names of entries. -/
theorem follows_recursive {parts : List Pattern} {names : List Bytes}
    (hnames : Follows ([.recursive] :: parts) names) :
    ∃ way rest, names = way ++ rest ∧ (∀ name ∈ way, IsName name) ∧ Follows parts rest := by
  generalize hall : [Token.recursive] :: parts = all at hnames
  induction hnames with
  | nil => cases hall
  | literal hliteral _ _ =>
    rw [← (List.cons.inj hall).1] at hliteral
    cases hliteral
  | listed hname _ _ hrest _ =>
    obtain ⟨-, rfl⟩ := List.cons.inj hall
    exact ⟨[_], _, rfl, by simpa using hname, hrest⟩
  | dots _ hdots _ _ =>
    rw [← (List.cons.inj hall).1] at hdots
    exact absurd hdots List.not_mem_nil
  | idle _ hrest _ =>
    obtain ⟨-, rfl⟩ := List.cons.inj hall
    exact ⟨[], _, rfl, by simp, hrest⟩
  | deeper _ hname _ ih =>
    obtain ⟨way, rest, rfl, hway, hrest⟩ := ih hall
    exact ⟨_ :: way, rest, rfl, by simpa using ⟨hname, hway⟩, hrest⟩

theorem follows_wild {ext : List Char} {parts : List Pattern} {names : List Bytes}
    (hnames : Follows (wild ext :: parts) names) :
    ∃ name rest, names = name :: rest ∧ IsName name ∧ Follows parts rest := by
  have hnot := isRecursive_wild ext
  cases hnames with
  | literal hliteral _ => cases hliteral
  | listed hname _ _ hrest => exact ⟨_, _, rfl, hname, hrest⟩
  | dots _ hdots _ => exact absurd hdots List.not_mem_nil
  | idle hrecursive _ => simp [hnot] at hrecursive
  | deeper hrecursive _ _ => simp [hnot] at hrecursive

/-- The names that lead to a bundle. -/
theorem names_of_bundle {texts rest : List (List Char)} {first : List Char} {names : List Bytes}
    (hnames : Follows (texts.map rigid ++ anyDepth first ++ rest.map rigid) names) :
    ∃ way name, names = namesOf texts ++ (way ++ name :: namesOf rest) ∧
      (∀ n ∈ way, IsName n) ∧ IsName name := by
  rw [List.append_assoc] at hnames
  obtain ⟨after, rfl, hafter⟩ := follows_map_rigid hnames
  obtain ⟨way, after, rfl, hway, hafter⟩ := follows_recursive hafter
  obtain ⟨name, after, rfl, hname, hafter⟩ := follows_wild hafter
  have hlast : Follows (rest.map rigid ++ []) after := by rwa [List.append_nil]
  obtain ⟨after, rfl, hnil⟩ := follows_map_rigid hlast
  cases hnil
  exact ⟨way, name, by rw [List.append_nil], hway, hname⟩

theorem areCut_of_forall {texts : List (List Char)} (htexts : ∀ cs ∈ texts, '/' ∉ cs) :
    AreCut (texts.map rigid) := by
  intro part hpart name hname
  obtain ⟨cs, hcs, rfl⟩ := List.mem_map.mp hpart
  rw [literal?_rigid] at hname
  split_ifs at hname
  exact Option.some.inj hname ▸ htexts cs hcs

theorem areCut_bundleParts {texts rest : List (List Char)} (first : List Char)
    (htexts : ∀ cs ∈ texts, '/' ∉ cs) (hrest : ∀ cs ∈ rest, '/' ∉ cs) :
    AreCut (texts.map rigid ++ anyDepth first ++ rest.map rigid) := by
  intro part hpart name hname
  simp only [List.mem_append, anyDepth, List.mem_pair] at hpart
  rcases hpart with (hpart | rfl | rfl) | hpart
  · exact areCut_of_forall htexts part hpart name hname
  · cases hname
  · cases hname
  · exact areCut_of_forall hrest part hpart name hname

/-- The beginning of a search and the names that are left are what the whole text names. -/
theorem solid_cutScope {whole : List Char} (hwhole : whole ≠ []) :
    (⟨encode whole⟩ : Path).solid = (Query.cutScope whole).1.solid ++
      (namesOf (partsBetween '/' (Query.cutScope whole).2)).filterMap Path.partComponent? := by
  obtain ⟨c, cs, rfl⟩ := List.exists_cons_of_ne_nil hwhole
  by_cases hc : c = '/'
  · subst hc
    have habsolute : (⟨encode ('/' :: cs)⟩ : Path).isAbsolute = true := rfl
    have hroot : (Path.ofString "/").solid = [.root] := by decide
    have hnames : namesOf (partsBetween '/' ('/' :: cs)) = namesOf (partsBetween '/' cs) := by
      rw [partsBetween, if_pos rfl]
      rfl
    rw [Path.solid_eq, habsolute, if_pos rfl, steps_encode, hnames, ← hroot]
    rfl
  · have hhere : (Path.ofString ".").solid = [] := by decide
    rw [cutScope_of_ne hc, hhere, List.nil_append, ← steps_encode]
    exact Path.solid_of_relative (isAbsolute_encode_cons hc cs)

end Glob

/-! ### Bundles -/

/-- A bundle is named by the text of the bundle directory, names of entries, one name with the
extension, and what follows the separators of the extension. -/
theorem solid_of_mem_discover {c : Config} {fs : FileSystem} (h : fs.IsSound)
    (hc : c.Accepted) {bundles : List Path} (hbundles : (discover c fs).1 = .ok bundles) :
    ∃ base, c.baseText? = some base ∧ ∀ b ∈ bundles, ∃ first rest way name,
      partsBetween '/' c.extension.toList = first :: rest ∧ IsName name ∧
      (∀ n ∈ way, IsName n) ∧
      b.solid = (⟨encode (directoryChars c base)⟩ : Path).solid ++
        (way ++ name :: namesOf rest).filterMap Path.partComponent? ∧
      ∀ last, Named b last → ∃ front, name :: namesOf rest = front ++ [last] := by
  obtain ⟨q, hq, -, hmem⟩ := mem_discover hbundles
  obtain ⟨pattern, hpattern, -⟩ := bundleQuery_ok hq
  obtain ⟨base, hbase, -⟩ := bundlePattern_eq hpattern
  refine ⟨base, hbase, fun b hb ↦ ?_⟩
  obtain ⟨base', first, rest, hbase', hcut, hscope, hparts, -⟩ :=
    bundleQuery_eq hc (getLast?_extension_ne_slash h hbundles hb) hq
  obtain rfl : base = base' := Option.some.inj (hbase.symm.trans hbase')
  have hcuts : Glob.AreCut q.parts := by
    rw [hparts]
    refine Glob.areCut_bundleParts first
      (fun cs hcs ↦ separator_notMem_of_mem_partsBetween hcs) fun cs hcs ↦ ?_
    exact separator_notMem_of_mem_partsBetween (hcut ▸ List.mem_cons_of_mem first hcs)
  obtain ⟨names, hnames, hsolid, hlast⟩ :=
    Glob.reached_of_mem_search h hcuts ((hmem b).mp hb).1
  rw [hparts] at hnames
  obtain ⟨way, name, rfl, hway, hname⟩ := Glob.names_of_bundle hnames
  have hwhole : directoryChars c base ≠ [] :=
    List.append_ne_nil_of_right_ne_nil _ (List.cons_ne_nil _ _)
  refine ⟨first, rest, way, name, hcut, hname, hway, ?_, fun last hnamed ↦ ?_⟩
  · rw [hsolid, hscope, List.filterMap_append, Glob.solid_cutScope hwhole, List.append_assoc]
  · obtain ⟨front, hfront⟩ := hlast last hnamed
    rw [← List.append_assoc] at hfront
    exact exists_eq_concat_of_append hfront (List.cons_ne_nil _ _)

/-- A bundle stands where one name with the extension, and what follows the separators of the
extension, lead from some directory at or below the bundle directory. -/
theorem exists_way_of_mem_discover {c : Config} {fs : FileSystem} (h : fs.IsSound)
    (hc : c.Accepted) {bundles : List Path} (hbundles : (discover c fs).1 = .ok bundles) :
    ∃ base, c.baseText? = some base ∧ ∀ b ∈ bundles, ∃ first rest way name,
      partsBetween '/' c.extension.toList = first :: rest ∧ IsName name ∧
      fs.address b = (name :: namesOf rest).foldl step
        (fs.address ⟨encode (directoryChars c base)⟩ ++ way) ∧
      ∀ last, Named b last → ∃ front, name :: namesOf rest = front ++ [last] := by
  obtain ⟨base, hbase, hall⟩ := solid_of_mem_discover h hc hbundles
  refine ⟨base, hbase, fun b hb ↦ ?_⟩
  obtain ⟨first, rest, way, name, hcut, hname, hway, hsolid, hlast⟩ := hall b hb
  have hne : ∀ n ∈ way ++ name :: namesOf rest, n ≠ [] := by
    rw [List.forall_mem_append, List.forall_mem_cons]
    exact ⟨fun n hn ↦ (hway n hn).1, hname.1, fun n ↦ ne_nil_of_mem_namesOf⟩
  refine ⟨first, rest, way, name, hcut, hname, ?_, hlast⟩
  rw [Path.address_of_solid_eq fs hne hsolid, List.foldl_append, foldl_step_of_forall hway]

/-! ### The bundle directory -/

theorem steps_replicate_slash (count : Nat) :
    steps ⟨List.replicate count Path.slash⟩ = [] := by
  induction count with
  | zero => rfl
  | succ count ih =>
    rw [List.replicate_succ, steps, partsBetween, if_pos rfl, List.filter_cons_of_neg (by simp)]
    exact ih

theorem steps_append_slash (bs ds : Bytes) :
    steps ⟨bs ++ Path.slash :: ds⟩ = steps ⟨bs⟩ ++ steps ⟨ds⟩ := by
  rw [steps, partsBetween_append_separator, List.filter_append]
  rfl

theorem steps_encode_append_slash (cs ds : List Char) :
    steps ⟨encode (cs ++ '/' :: ds)⟩ = steps ⟨encode cs⟩ ++ steps ⟨encode ds⟩ := by
  have hslash : encode ('/' :: ds) = Path.slash :: encode ds := rfl
  rw [encode_append, hslash, steps_append_slash]

/-- Separators at the end of a directory make no difference to what is named from there, unless
there is nothing else. -/
theorem solid_append_slash {bs : Bytes} {count : Nat}
    (hne : bs ++ List.replicate count Path.slash ≠ []) (ds : Bytes) :
    (⟨bs ++ Path.slash :: ds⟩ : Path).solid =
      (⟨bs ++ List.replicate count Path.slash⟩ : Path).solid ++
        (steps ⟨ds⟩).filterMap Path.partComponent? := by
  have hsteps : steps ⟨bs ++ List.replicate count Path.slash⟩ = steps ⟨bs⟩ := by
    cases count with
    | zero => rw [List.replicate_zero, List.append_nil]
    | succ count =>
      rw [List.replicate_succ, steps_append_slash, steps_replicate_slash, List.append_nil]
  have habsolute : (⟨bs ++ Path.slash :: ds⟩ : Path).isAbsolute =
      (⟨bs ++ List.replicate count Path.slash⟩ : Path).isAbsolute := by
    cases bs with
    | cons b bs => rfl
    | nil =>
      cases count with
      | zero => exact absurd rfl hne
      | succ count => rfl
  rw [Path.solid_eq, Path.solid_eq, hsteps, habsolute, steps_append_slash, List.filterMap_append,
    List.append_assoc]

theorem dropWhile_isSeparator {cs : List Char}
    (hcs : (cs.dropWhile (· = '/')).head? ≠ some '\\') :
    cs.dropWhile isSeparator = cs.dropWhile (· = '/') := by
  induction cs with
  | nil => rfl
  | cons c cs ih =>
    by_cases hc : c = '/'
    · rw [List.dropWhile_cons_of_pos (by simpa using hc)] at hcs
      rw [List.dropWhile_cons_of_pos (by simp [isSeparator, hc]),
        List.dropWhile_cons_of_pos (by simpa using hc)]
      exact ih hcs
    · rw [List.dropWhile_cons_of_neg (by simpa using hc)] at hcs
      have hback : c ≠ '\\' := fun heq ↦ hcs (congrArg some heq)
      rw [List.dropWhile_cons_of_neg (by simp [isSeparator, hc, hback]),
        List.dropWhile_cons_of_neg (by simpa using hc)]

theorem exists_eq_append_slashes {text : List Char}
    (hend : (text.reverse.dropWhile (· = '/')).head? ≠ some '\\') :
    ∃ count, text = dropTrailingSeparators text ++ List.replicate count '/' := by
  refine ⟨(text.reverse.takeWhile (· = '/')).length, ?_⟩
  have hslashes : text.reverse.takeWhile (· = '/') =
      List.replicate (text.reverse.takeWhile (· = '/')).length '/' := by
    refine List.eq_replicate_iff.mpr ⟨rfl, fun c hc ↦ ?_⟩
    simpa using List.mem_takeWhile_imp hc
  rw [dropTrailingSeparators, dropWhile_isSeparator hend, ← List.reverse_replicate, ← hslashes,
    ← List.reverse_append, List.takeWhile_append_dropWhile, List.reverse_reverse]

/-- The text of the bundle directory names what the bundle directory names from the base directory,
if that is not empty and no backslash is taken for a separator at its end. -/
theorem solid_directoryChars {c : Config} {base : List Char}
    (hbase : c.baseText? = some base) (hne : c.baseDir.bytes ≠ [])
    (hend : ∀ text, decode? c.baseDir.bytes = some text →
      (text.reverse.dropWhile (· = '/')).head? ≠ some '\\') :
    (⟨encode (directoryChars c base)⟩ : Path).solid =
      c.baseDir.solid ++ (steps (.ofString c.bundleDirName)).filterMap Path.partComponent? := by
  obtain ⟨text, htext, rfl⟩ := Option.map_eq_some_iff.mp hbase
  obtain ⟨count, hcount⟩ := exists_eq_append_slashes (hend text htext)
  have hslash (k : Nat) : encode (List.replicate k '/') = List.replicate k Path.slash := by
    induction k with
    | zero => rfl
    | succ k ih =>
      rw [List.replicate_succ, List.replicate_succ, ← ih]
      rfl
  have hbytes : encode (dropTrailingSeparators text) ++ List.replicate count Path.slash =
      c.baseDir.bytes := by
    rw [← hslash, ← encode_append, ← hcount, encode_of_decode? htext]
  have hdirectory : encode (directoryChars c (dropTrailingSeparators text)) =
      encode (dropTrailingSeparators text) ++ Path.slash :: encode c.bundleDirChars := by
    rw [directoryChars, encode_append]
    rfl
  have hname : Path.ofString c.bundleDirName = ⟨encode c.bundleDirChars⟩ := by
    simp [Path.ofString, bytesOf, Config.bundleDirName]
  rw [hdirectory, hname, solid_append_slash (hbytes ▸ hne), hbytes]

/-- The bundle directory leads where its name leads from the base directory, under the same
conditions. -/
theorem address_directoryChars (fs : FileSystem) {c : Config} {base : List Char}
    (hbase : c.baseText? = some base) (hne : c.baseDir.bytes ≠ [])
    (hend : ∀ text, decode? c.baseDir.bytes = some text →
      (text.reverse.dropWhile (· = '/')).head? ≠ some '\\') :
    fs.address ⟨encode (directoryChars c base)⟩ =
      (steps (.ofString c.bundleDirName)).foldl step (fs.address c.baseDir) :=
  Path.address_of_solid_eq fs (fun _ ↦ Path.ne_nil_of_mem_steps) (solid_directoryChars hbase hne hend)

end BundleLink
