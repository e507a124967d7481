import BundleLink.Proofs.Discovery.Artifacts

/-!
Where bundles and their artifacts stand. Every discovered bundle is a file of its own
(`nodup_discover`). The suffix is appended to its name, so the artifact stands beside it and is an
artifact by name (`Linkable.address_linkedPath`).
-/

set_option autoImplicit false

namespace BundleLink

open BundleLink.Text FileSystem

/-- A path that can be the path of a bundle, and the name that it ends in. -/
structure Linkable (c : Config) (b : Path) (name : Bytes) : Prop where
  named : Named b name
  text : ∃ text, decode? name = some text
  not_suffixed : ¬Suffixed c name

theorem slash_notMem_bytesOf {s : String} (hs : '/' ∉ s.toList) : Path.slash ∉ bytesOf s :=
  slash_notMem_encode hs

theorem slash_notMem_suffix {c : Config} (hext : '/' ∉ c.extension.toList) :
    '/' ∉ c.suffix.toList := by
  rw [Config.suffix, String.toList_append, List.mem_append, not_or]
  exact ⟨by decide, hext⟩

/-- What begins with the mark of artifacts, after whatever else, is a name, but for separators. -/
theorem isName_append_mark {name : Bytes} (hname : Path.slash ∉ name) {cs : List Char}
    (hcs : '/' ∉ cs) : IsName (name ++ encode (".linked.".toList ++ cs)) := by
  have hslash : Path.slash ∉ encode (".linked.".toList ++ cs) := by
    refine slash_notMem_encode ?_
    rw [List.mem_append, not_or]
    exact ⟨by decide, hcs⟩
  have hdotted : (encode ".linked.".toList).length = 8 := by decide
  have hlength : 8 ≤ (name ++ encode (".linked.".toList ++ cs)).length := by
    rw [encode_append, List.length_append, List.length_append, hdotted]
    omega
  refine ⟨fun hnil ↦ ?_, ?_, fun hdot ↦ ?_, fun hup ↦ ?_⟩
  · rw [hnil] at hlength
    simp at hlength
  · rw [List.mem_append, not_or]
    exact ⟨hname, hslash⟩
  · rw [hdot] at hlength
    simp at hlength
  · rw [hup] at hlength
    simp at hlength

/-- With the suffix appended everything is a name, but for separators. -/
theorem isName_append_suffix {c : Config} (hext : '/' ∉ c.extension.toList) {name : Bytes}
    (hname : Path.slash ∉ name) : IsName (name ++ bytesOf c.suffix) := by
  rw [bytesOf, c.toList_suffix]
  exact isName_append_mark hname hext

namespace Linkable

variable {c : Config} {b : Path} {name : Bytes} (hb : Linkable c b name)

include hb

/-- The name of an artifact carries the suffix. -/
theorem suffixed : Suffixed c (name ++ bytesOf c.suffix) := by
  obtain ⟨text, htext⟩ := hb.text
  refine ⟨text ++ c.suffix.toList, ?_, ?_⟩
  · rw [← encode_of_decode? htext, bytesOf, ← encode_append, decode?_encode]
  · rw [endsWith, List.isSuffixOf_iff_suffix, String.toList_ofList]
    exact List.suffix_append _ _

variable (hext : '/' ∉ c.extension.toList)

include hext

/-- The artifact of a bundle stands beside it. -/
theorem address_linkedPath (fs : FileSystem) :
    fs.address (c.linkedPath b) = (fs.address b).dropLast ++ [name ++ bytesOf c.suffix] := by
  obtain ⟨_, _, hname⟩ := hb.named
  exact hb.named.address_append (isName_append_suffix hext hname.2.1) fs

/-- No artifact is a bundle. -/
theorem address_linkedPath_ne {b' : Path} {name' : Bytes} (hb' : Linkable c b' name')
    (fs : FileSystem) : fs.address (c.linkedPath b) ≠ fs.address b' := by
  rw [hb.address_linkedPath hext, hb'.named.address_eq fs]
  intro heq
  have hlast := List.singleton_inj.mp (List.append_inj' heq rfl).2
  exact hb'.not_suffixed (hlast ▸ hb.suffixed)

/-- Different bundles have different artifacts. -/
theorem address_eq_of_address_linkedPath_eq {b' : Path} {name' : Bytes}
    (hb' : Linkable c b' name') {fs : FileSystem}
    (heq : fs.address (c.linkedPath b) = fs.address (c.linkedPath b')) :
    fs.address b = fs.address b' := by
  rw [hb.address_linkedPath hext, hb'.address_linkedPath hext] at heq
  obtain ⟨hfront, hlast⟩ := List.append_inj' heq rfl
  rw [hb.named.address_eq fs, hb'.named.address_eq fs, hfront,
    List.append_cancel_right (List.singleton_inj.mp hlast)]

end Linkable

section

variable {c : Config} (hc : c.Accepted) (hext : '/' ∉ c.extension.toList) {fs : FileSystem}
  {closed : List Address} {bundles : List Path}
  (hbundles : (discover c fs closed).1 = .ok bundles)

include hc hext hbundles

theorem linkable_of_mem_discover (h : fs.IsSound) {b : Path} (hb : b ∈ bundles) :
    ∃ name, Linkable c b name := by
  obtain ⟨q, hq, -, hmem⟩ := mem_discover hbundles
  obtain ⟨texts, -, hparts, hfiles⟩ := parts_of_bundleQuery hc hext hq
  obtain ⟨hsearch, -, hartifact⟩ := (hmem b).mp hb
  obtain ⟨name, text, hnamed, htext, -⟩ := Glob.found_of_mem_search h hparts hfiles hsearch
  refine ⟨name, hnamed, ⟨text, htext⟩, fun hsuffixed ↦ ?_⟩
  rw [(isArtifact_iff c hnamed).mpr hsuffixed] at hartifact
  cases hartifact

/-- No bundle is discovered twice. -/
theorem nodup_discover (h : fs.IsTree) : (bundles.map fs.address).Nodup := by
  obtain ⟨q, found, hq, rfl, hfound⟩ := discover_eq_ok hbundles
  obtain ⟨texts, -, hparts, hfiles⟩ := parts_of_bundleQuery hc hext hq
  have hpaths : found = Glob.paths ((Glob.search fs closed q).filter (matters c fs)) := by
    rw [hfound, Glob.paths_map_ok]
  have hsub : found.Sublist (Glob.paths (Glob.search fs closed q)) :=
    hpaths ▸ List.filter_sublist.filterMap _
  rw [Path.sort, ((List.mergeSort_perm found _).map fs.address).nodup_iff]
  exact (Glob.nodup_search h closed hparts hfiles).sublist (hsub.map _)

end

end BundleLink
