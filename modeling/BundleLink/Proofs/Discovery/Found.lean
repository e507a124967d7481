import BundleLink.Discovery
import BundleLink.Proofs.Basic
import BundleLink.Proofs.Text.Utf8
import Mathlib.Data.List.Basic

/-!
What every discovered bundle is: an existing file that carries no linked suffix, met by a search that
could read all the directories it came to (`mem_discover`). Discovery fails only at a directory that
it could not read, once its pattern is well formed (`exists_unread_of_discover`). A pattern that ends
in a separator finds directories only (`exists_spot_of_mem_search`).
-/

set_option autoImplicit false

namespace BundleLink

open BundleLink.Text

/-! ### Patterns that ask for directories -/

namespace Glob

variable {fs : FileSystem}

/-- The spots that a search comes to: paths that it looked up, and entries of directories. -/
inductive Arises (fs : FileSystem) : Spot → Prop
  | path (p : Path) : Arises fs (.ofPath fs p)
  | entry {p : Path} {loc : Address} (name : Bytes) : fs.resolve p = .ok (.directory loc) →
      Arises fs (.ofEntry fs loc p name)

/-- Among the paths that are found only those of directories that the search came to. -/
def OnlyDirectories (fs : FileSystem) (found : List Finding) : Prop :=
  ∀ r, .ok r ∈ found → ∃ s, Arises fs s ∧ s.path = r ∧ s.isDirectory = true

theorem OnlyDirectories.append {found found' : List Finding} (hfound : OnlyDirectories fs found)
    (hfound' : OnlyDirectories fs found') : OnlyDirectories fs (found ++ found') :=
  fun r hr ↦ (List.mem_append.mp hr).elim (hfound r) (hfound' r)

theorem OnlyDirectories.flatMap {α : Type} {l : List α} {f : α → List Finding}
    (hf : ∀ a ∈ l, OnlyDirectories fs (f a)) : OnlyDirectories fs (l.flatMap f) := by
  intro r hr
  obtain ⟨a, ha, hr⟩ := List.mem_flatMap.mp hr
  exact hf a ha r hr

theorem onlyDirectories_nil : OnlyDirectories fs [] :=
  fun _ hr ↦ absurd hr List.not_mem_nil

theorem onlyDirectories_singleton {s : Spot} (hs : Arises fs s) (hdirectory : s.isDirectory = true) :
    OnlyDirectories fs [.ok s.path] := by
  intro r hr
  obtain rfl := Except.ok.inj (List.mem_singleton.mp hr)
  exact ⟨s, hs, rfl, hdirectory⟩

theorem onlyDirectories_wanted {s : Spot} (hs : Arises fs s) :
    OnlyDirectories fs (wanted true s) := by
  rw [wanted, Bool.not_true, Bool.false_or]
  split_ifs with hdirectory
  · exact onlyDirectories_singleton hs hdirectory
  · exact onlyDirectories_nil

variable {closed : List Address}

/-- The entries of a directory are tried if it can be read, and else the failure to read it is all
that is found there. -/
theorem within_cases (fs : FileSystem) (closed : List Address) (s : Spot)
    (found : List Spot → List Finding) : within fs closed s found = [] ∨
    (∃ unread, within fs closed s found = [.error unread]) ∨
    ∃ loc, fs.resolve s.path = .ok (.directory loc) ∧
      within fs closed s found = found ((fs.names loc).map (.ofEntry fs loc s.path)) := by
  rw [within]
  split_ifs
  · rw [contents, FileSystem.openDirectory]
    cases hplace : fs.resolve s.path with
    | error problem => exact .inr (.inl ⟨_, rfl⟩)
    | ok place =>
      cases place with
      | file loc content => exact .inr (.inl ⟨_, rfl⟩)
      | vacant loc => exact .inr (.inl ⟨_, rfl⟩)
      | directory loc =>
        simp only
        by_cases hclosed : loc ∈ closed
        · rw [if_pos hclosed]
          exact .inr (.inl ⟨_, rfl⟩)
        · rw [if_neg hclosed]
          exact .inr (.inr ⟨loc, rfl, rfl⟩)
  · exact .inl rfl

/-- What is found among entries, if that is so for all the entries that arise. -/
theorem onlyDirectories_within {s : Spot} {found : List Spot → List Finding}
    (hfound : ∀ spots, (∀ t ∈ spots, Arises fs t) → OnlyDirectories fs (found spots)) :
    OnlyDirectories fs (within fs closed s found) := by
  rcases within_cases fs closed s found with hwithin | ⟨unread, hwithin⟩ | ⟨loc, hplace, hwithin⟩
  · exact hwithin ▸ onlyDirectories_nil
  · exact hwithin ▸ fun r hr ↦ nomatch List.mem_singleton.mp hr
  · rw [hwithin]
    refine hfound _ fun t ht ↦ ?_
    obtain ⟨name, -, rfl⟩ := List.mem_map.mp ht
    exact .entry name hplace

section

variable {visit : List Pattern → Spot → List Finding}
  (hvisit : ∀ parts s, Arises fs s → OnlyDirectories fs (visit parts s))

include hvisit

theorem onlyDirectories_below (parts : List Pattern) (s : Spot) :
    OnlyDirectories fs (below fs closed true visit parts s) := by
  induction parts generalizing s with
  | nil => exact onlyDirectories_nil
  | cons part rest ih =>
    have honward (next : Path) : OnlyDirectories fs
        (if rest.isEmpty then wanted true (.ofPath fs next)
          else below fs closed true visit rest (.ofPath fs next)) := by
      split_ifs
      · exact onlyDirectories_wanted (.path next)
      · exact ih _
    rw [below]
    cases part.literal? with
    | some name =>
      simp only
      split_ifs
      all_goals first
        | exact onlyDirectories_nil
        | exact onlyDirectories_wanted (.path _)
        | exact ih _
    | none =>
      refine onlyDirectories_within fun spots hspots ↦ ?_
      exact (OnlyDirectories.flatMap fun dots _ ↦ honward _).append
        (OnlyDirectories.flatMap fun t ht ↦ hvisit _ t (hspots t ht))

theorem onlyDirectories_matching (parts : List Pattern) {s : Spot} (hs : Arises fs s) :
    OnlyDirectories fs (matching fs closed true visit parts s) := by
  cases parts with
  | nil => exact onlyDirectories_nil
  | cons part rest =>
    rw [matching]
    cases s.path.fileName?.bind decode? with
    | none => exact onlyDirectories_nil
    | some name =>
      simp only
      split_ifs
      · exact onlyDirectories_wanted hs
      · exact onlyDirectories_below hvisit rest s
      · exact onlyDirectories_nil

theorem onlyDirectories_visitWith (parts : List Pattern) {s : Spot} (hs : Arises fs s) :
    OnlyDirectories fs (visitWith fs closed true visit parts s) := by
  rw [visitWith]
  cases dropIdle parts with
  | nil => exact onlyDirectories_nil
  | cons part rest =>
    simp only
    split_ifs with hrecursive hlast hdirectory
    · exact (onlyDirectories_singleton hs hdirectory).append (onlyDirectories_below hvisit _ s)
    · exact onlyDirectories_nil.append onlyDirectories_nil
    · exact (onlyDirectories_matching hvisit rest hs).append (onlyDirectories_below hvisit _ s)
    · exact (onlyDirectories_matching hvisit rest hs).append onlyDirectories_nil
    · exact onlyDirectories_matching hvisit _ hs

end

theorem onlyDirectories_visit (depth : Nat) (parts : List Pattern) {s : Spot} (hs : Arises fs s) :
    OnlyDirectories fs (visit fs closed true depth parts s) := by
  induction depth generalizing parts s with
  | zero => exact onlyDirectories_nil
  | succ depth ih => exact onlyDirectories_visitWith (fun parts _ hs ↦ ih parts hs) parts hs

theorem exists_spot_of_mem_search {q : Query} (hq : q.directoriesOnly = true) {r : Path}
    (hr : .ok r ∈ search fs closed q) : ∃ s, Arises fs s ∧ s.path = r ∧ s.isDirectory = true := by
  rw [search, hq] at hr
  exact onlyDirectories_below (fun parts _ hs ↦ onlyDirectories_visit _ parts hs) _ _ r hr

end Glob

/-! ### Bundles -/

theorem Config.toList_suffix (c : Config) :
    c.suffix.toList = ".linked.".toList ++ c.extension.toList := by
  rw [suffix, String.toList_append]

theorem slash_notMem_encode {cs : List Char} (hcs : '/' ∉ cs) : Path.slash ∉ encode cs :=
  fun hmem ↦ hcs (mem_of_mem_encode hmem (by decide))

theorem bundlePattern_ok {c : Config} {pattern : List Char}
    (hpattern : bundlePattern c = .ok pattern) :
    ∃ front, pattern = front ++ '.' :: c.extension.toList := by
  rw [bundlePattern] at hpattern
  cases hbase : c.baseText? with
  | none => simp [hbase] at hpattern
  | some base =>
    simp only [hbase, Except.ok.injEq] at hpattern
    refine ⟨Glob.Pattern.escape base ++ ['/'] ++ Glob.Pattern.escape c.bundleDirChars ++
      "/**/*".toList, ?_⟩
    rw [← hpattern]
    simp

theorem bundleQuery_ok {c : Config} {q : Glob.Query} (hq : bundleQuery c = .ok q) :
    ∃ pattern, bundlePattern c = .ok pattern ∧ Glob.Query.ofChars pattern = .ok q := by
  obtain ⟨pattern, hpattern, hq⟩ := bind_eq_ok.mp hq
  refine ⟨pattern, hpattern, ?_⟩
  cases hchars : Glob.Query.ofChars pattern with
  | error flaw => simp [hchars, Except.mapError] at hq
  | ok q' => simpa [hchars, Except.mapError] using hq

theorem ofChars_ok {cs : List Char} {q : Glob.Query} (hq : Glob.Query.ofChars cs = .ok q) :
    q.scope = (Glob.Query.cutScope cs).1 ∧ q.directoriesOnly = (cs.getLast? = some '/') ∧
      ∃ parts, (Glob.cutAtSlashes (Glob.Query.cutScope cs).2).mapM Glob.Pattern.ofChars =
          .ok parts ∧
        q.parts = if (Glob.Query.cutScope cs).2.isEmpty then parts ++ [[]] else parts := by
  obtain ⟨-, -, hq⟩ := bind_eq_ok.mp hq
  obtain ⟨parts, hparts, hq⟩ := bind_eq_ok.mp hq
  obtain rfl := Except.ok.inj hq
  exact ⟨rfl, by simp, parts, hparts, rfl⟩

/-- What discovery does not pass over: bundles, and directories that could not be read. -/
def matters (c : Config) (fs : FileSystem) : Glob.Finding → Bool
  | .ok p => isBundle c fs p
  | .error _ => true

/-- What findings that matter come to, one after the other. -/
def settle : List Glob.Finding → Except Failure (List Path)
  | [] => .ok []
  | .error unread :: _ => .error (.discovery (.unread unread))
  | .ok p :: rest => (settle rest).map (p :: ·)

theorem gather_eq (c : Config) (fs : FileSystem) (found : List Glob.Finding) :
    gather (isBundle c fs) found = settle (found.filter (matters c fs)) := by
  induction found with
  | nil => rfl
  | cons finding rest ih =>
    cases finding with
    | error unread => rw [List.filter_cons_of_pos rfl, gather, settle]
    | ok p =>
      rw [gather, List.filter_cons, matters, ih]
      cases isBundle c fs p <;> rfl

theorem settle_eq_ok_iff {found : List Glob.Finding} {bundles : List Path} :
    settle found = .ok bundles ↔ found = bundles.map .ok := by
  induction found generalizing bundles with
  | nil => cases bundles <;> simp [settle]
  | cons finding rest ih =>
    cases finding with
    | error unread => cases bundles <;> simp [settle]
    | ok p =>
      rw [settle, map_eq_ok]
      simp only [ih]
      cases bundles with
      | nil => simp
      | cons b bundles => simp [and_comm]

/-- Findings come to nothing only by a directory that could not be read. -/
theorem exists_unread_of_settle {found : List Glob.Finding} {e : Failure}
    (he : settle found = .error e) :
    ∃ unread, .error unread ∈ found ∧ e = .discovery (.unread unread) := by
  induction found generalizing e with
  | nil => cases he
  | cons finding rest ih =>
    cases finding with
    | error unread => exact ⟨unread, List.mem_cons_self, (Except.error.inj he).symm⟩
    | ok p =>
      rw [settle] at he
      cases hrest : settle rest with
      | ok bundles => simp [hrest, Except.map] at he
      | error e' =>
        rw [hrest, Except.map, Except.error.injEq] at he
        obtain ⟨unread, hmem, heq⟩ := ih hrest
        exact ⟨unread, List.mem_cons_of_mem _ hmem, he ▸ heq⟩

variable {c : Config} {fs : FileSystem} {closed : List Address}

theorem discover_of_bundleQuery {q : Glob.Query} (hq : bundleQuery c = .ok q) :
    (discover c fs closed).1 =
      (settle ((Glob.search fs closed q).filter (matters c fs))).map Path.sort := by
  rw [discover, hq, ← gather_eq]

/-- Discovery succeeds with the bundles among all that its search found, in order. -/
theorem discover_eq_ok {bundles : List Path} (hbundles : (discover c fs closed).1 = .ok bundles) :
    ∃ q found, bundleQuery c = .ok q ∧ bundles = Path.sort found ∧
      (Glob.search fs closed q).filter (matters c fs) = found.map .ok := by
  cases hq : bundleQuery c with
  | error e => simp [discover, hq] at hbundles
  | ok q =>
    rw [discover_of_bundleQuery hq, map_eq_ok] at hbundles
    obtain ⟨found, hfound, rfl⟩ := hbundles
    exact ⟨q, found, rfl, rfl, settle_eq_ok_iff.mp hfound⟩

/-- Once the pattern is well formed, discovery fails only at a directory that it could not read. -/
theorem exists_unread_of_discover {q : Glob.Query} (hq : bundleQuery c = .ok q) {e : Failure}
    (he : (discover c fs closed).1 = .error e) :
    ∃ unread, .error unread ∈ Glob.search fs closed q ∧ e = .discovery (.unread unread) := by
  rw [discover_of_bundleQuery hq] at he
  cases hfound : settle ((Glob.search fs closed q).filter (matters c fs)) with
  | ok found => simp [hfound, Except.map] at he
  | error e' =>
    rw [hfound, Except.map, Except.error.injEq] at he
    obtain ⟨unread, hmem, heq⟩ := exists_unread_of_settle hfound
    exact ⟨unread, List.mem_of_mem_filter hmem, he ▸ heq⟩

/-- A bundle is an existing file, and no artifact. The search could read all that it came to. -/
theorem mem_discover {bundles : List Path} (hbundles : (discover c fs closed).1 = .ok bundles) :
    ∃ q, bundleQuery c = .ok q ∧ (∀ unread, .error unread ∉ Glob.search fs closed q) ∧
      ∀ b, b ∈ bundles ↔
        .ok b ∈ Glob.search fs closed q ∧ fs.isFile b ∧ isArtifact c b = false := by
  obtain ⟨q, found, hq, rfl, hfound⟩ := discover_eq_ok hbundles
  have hmem (finding : Glob.Finding) : finding ∈ Glob.search fs closed q ∧
      matters c fs finding = true ↔ finding ∈ found.map .ok := by
    rw [← hfound, List.mem_filter]
  refine ⟨q, hq, fun unread hunread ↦ ?_, fun b ↦ ?_⟩
  · obtain ⟨p, -, hp⟩ := List.mem_map.mp ((hmem _).mp ⟨hunread, rfl⟩)
    cases hp
  · have hb := hmem (.ok b)
    rw [List.mem_map_of_injective fun _ _ ↦ Except.ok.inj] at hb
    rw [Path.sort, List.mem_mergeSort, ← hb, matters, isBundle, Bool.and_eq_true,
      Bool.not_eq_true']

theorem isFile_of_mem_discover {bundles : List Path}
    (hbundles : (discover c fs closed).1 = .ok bundles) {b : Path} (hb : b ∈ bundles) :
    fs.isFile b := by
  obtain ⟨q, -, -, hmem⟩ := mem_discover hbundles
  exact ((hmem b).mp hb).2.1

theorem getLast?_extension_of_endsInSlash {c : Config} {b : Path}
    (hslash : FileSystem.endsInSlash (c.linkedPath b)) :
    c.extension.toList.getLast? = some '/' := by
  have hsuffix := c.toList_suffix
  have hbytes : (c.linkedPath b).bytes = b.bytes ++ encode c.suffix.toList := rfl
  simp only [FileSystem.endsInSlash, hbytes, decide_eq_true_eq] at hslash
  rcases List.eq_nil_or_concat c.suffix.toList with hnil | ⟨front, last, hlast⟩
  · rw [hsuffix] at hnil
    simp at hnil
  · rw [hlast, List.concat_eq_append, encode_append, ← List.append_assoc] at hslash
    have hmem : Path.slash ∈ String.utf8EncodeChar last := by
      have hne : String.utf8EncodeChar last ≠ [] := String.utf8EncodeChar_ne_nil
      have hone : encode [last] = String.utf8EncodeChar last := by simp [encode]
      rw [hone, List.getLast?_append_of_ne_nil _ hne] at hslash
      exact List.mem_of_getLast? hslash
    have hchar : '/' = last := eq_of_mem_utf8EncodeChar hmem (by decide)
    have hend : c.suffix.toList.getLast? = some '/' := by
      rw [hlast, ← hchar, List.concat_eq_append, List.getLast?_append]
      rfl
    rw [hsuffix, List.getLast?_append] at hend
    cases hextension : c.extension.toList.getLast? with
    | none => simp [hextension] at hend
    | some char => rwa [hextension, Option.some_or] at hend

end BundleLink
