import BundleLink.Link.Specifier
import BundleLink.Proofs.Discovery.Linked
import BundleLink.Proofs.FileSystem.Links
import Mathlib.Data.List.Induction

/-!
Where a specifier in a module leads: its path is joined to the directory of the module, and steps in
place and up are taken back from it (`Path.resolved`). What is appended to a path that ends in a name
is appended to what it comes to (`Path.tidy_append`), so a specifier with the suffix leads from an
artifact to the artifact of what it led to from the bundle (`Path.resolved_linkedPath`). In a file
system a path leads where it led before (`Path.address_tidy`).
-/

set_option autoImplicit false

namespace BundleLink

open BundleLink.Text FileSystem

namespace Path

/-! ### Steps taken back -/

/-- One more step after others: one in place is none, and one up takes the name before it back. Steps
up at the beginning of a relative path stay. -/
def tidyStep (absolute : Bool) (names : List Bytes) (name : Bytes) : List Bytes :=
  if name = [dot] then names
  else if name = [dot, dot] then
    match names.getLast? with
    | none => if absolute then [] else [name]
    | some last => if last = [dot, dot] then names ++ [name] else names.dropLast
  else names ++ [name]

def tidyNames (absolute : Bool) (names : List Bytes) : List Bytes :=
  names.foldl (tidyStep absolute) []

/-- The path of names, from the root or from no place. -/
def ofNames (absolute : Bool) (names : List Bytes) : Path :=
  names.foldl (fun p name ↦ p.join ⟨name⟩) (if absolute then .ofString "/" else ⟨[]⟩)

/-- A path without steps in place and without names that are taken back. -/
def tidy (p : Path) : Path :=
  ofNames p.isAbsolute (tidyNames p.isAbsolute (steps p))

/-- The path that a specifier in a module stands for. -/
def resolved (p : Path) (specifier : String) : Path :=
  ((parent p).join (.ofString specifier)).tidy

theorem tidyNames_concat (absolute : Bool) (names : List Bytes) {name : Bytes}
    (hname : IsName name) :
    tidyNames absolute (names ++ [name]) = tidyNames absolute names ++ [name] := by
  rw [tidyNames, List.foldl_append, List.foldl_cons, List.foldl_nil, ← tidyNames, tidyStep,
    if_neg hname.2.2.1, if_neg hname.2.2.2]

theorem ofNames_concat (absolute : Bool) (names : List Bytes) (name : Bytes) :
    ofNames absolute (names ++ [name]) = (ofNames absolute names).join ⟨name⟩ := by
  rw [ofNames, List.foldl_append, List.foldl_cons, List.foldl_nil, ← ofNames]

theorem tidy_eq {p : Path} {name : Bytes} (hp : Named p name) :
    p.tidy = (ofNames p.isAbsolute (tidyNames p.isAbsolute (steps p).dropLast)).join ⟨name⟩ := by
  obtain ⟨front, -, hsteps⟩ := hp.steps_eq
  obtain ⟨_, -, hname⟩ := hp
  rw [tidy, hsteps, List.dropLast_concat, tidyNames_concat _ _ hname, ofNames_concat]

/-- What is appended to a path that ends in a name is appended to what it comes to. -/
theorem tidy_append {p : Path} {name : Bytes} (hp : Named p name) {s : String}
    (hlonger : IsName (name ++ bytesOf s)) : (p.append s).tidy = p.tidy.append s := by
  obtain ⟨_, -, hname⟩ := id hp
  have hrelative : ((⟨name⟩ : Path).append s).isAbsolute = (⟨name⟩ : Path).isAbsolute := by
    rw [append, isAbsolute_of_notMem hname.2.1, isAbsolute_of_notMem hlonger.2.1]
  rw [tidy_eq hp, ← join_append _ hrelative, tidy, hp.isAbsolute_append, hp.steps_append,
    steps_of_isName hlonger, tidyNames_concat _ _ hlonger, ofNames_concat]
  rfl

theorem named_tidy {p : Path} {name : Bytes} (hp : Named p name) : Named p.tidy name := by
  obtain ⟨_, -, hname⟩ := id hp
  rw [tidy_eq hp]
  exact named_join _ hname

/-! ### In a file system -/

/-- Names that are taken back make no difference to where steps lead. -/
theorem foldl_tidyStep {absolute : Bool} {start : Address} (hstart : absolute → start = [])
    {before : List Bytes} (hbefore : [dot] ∉ before) (name : Bytes) :
    (tidyStep absolute before name).foldl step start = step (before.foldl step start) name ∧
      [dot] ∉ tidyStep absolute before name := by
  unfold tidyStep
  by_cases hdot : name = [dot]
  · simp [hdot, step, hbefore]
  rw [if_neg hdot]
  by_cases hup : name = [dot, dot]
  · rw [if_pos hup]
    rcases List.eq_nil_or_concat before with rfl | ⟨front, last, rfl⟩
    · cases absolute with
      | true => simp [hstart rfl, step, hup, dot]
      | false => simp [hup, dot]
    · rw [List.concat_eq_append] at hbefore ⊢
      rw [List.getLast?_concat]
      simp only
      have hlast : last ≠ [dot] := fun heq ↦ hbefore (by simp [heq])
      have hfront : [dot] ∉ front := fun hmem ↦ hbefore (List.mem_append_left _ hmem)
      split_ifs with hagain
      · rw [List.foldl_append, List.foldl_cons, List.foldl_nil]
        refine ⟨rfl, ?_⟩
        rw [List.mem_append, not_or]
        exact ⟨hbefore, by simpa using Ne.symm hdot⟩
      · rw [List.dropLast_concat, List.foldl_append, List.foldl_cons, List.foldl_nil]
        refine ⟨?_, hfront⟩
        have hdown (loc : Address) : step loc last = loc ++ [last] := by
          rw [step, if_neg hlast, if_neg hagain]
        have hback (loc : Address) : step loc name = loc.dropLast := by
          rw [step, if_neg hdot, if_pos hup]
        rw [hdown, hback, List.dropLast_concat]
  · rw [if_neg hup, List.foldl_append, List.foldl_cons, List.foldl_nil]
    refine ⟨rfl, ?_⟩
    rw [List.mem_append, not_or]
    exact ⟨hbefore, by simpa using Ne.symm hdot⟩

theorem foldl_tidyNames {absolute : Bool} {start : Address} (hstart : absolute → start = [])
    (names : List Bytes) :
    (tidyNames absolute names).foldl step start = names.foldl step start ∧
      [dot] ∉ tidyNames absolute names := by
  induction names using List.reverseRecOn with
  | nil => exact ⟨rfl, List.not_mem_nil⟩
  | append_singleton names name ih =>
    obtain ⟨hsame, hnone⟩ := ih
    have hnext := foldl_tidyStep hstart hnone name
    rw [hsame] at hnext
    rw [tidyNames, List.foldl_append, List.foldl_append, ← tidyNames]
    exact hnext

theorem tidyStep_subset (absolute : Bool) (names : List Bytes) (name : Bytes) :
    tidyStep absolute names name ⊆ names ++ [name] := by
  unfold tidyStep
  by_cases hdot : name = [dot]
  · rw [if_pos hdot]
    exact List.subset_append_left _ _
  rw [if_neg hdot]
  by_cases hup : name = [dot, dot]
  · rw [if_pos hup]
    cases names.getLast? with
    | none => cases absolute <;> simp
    | some last =>
      simp only
      split_ifs
      · exact List.Subset.refl _
      · exact List.Subset.trans (List.dropLast_subset names) (List.subset_append_left _ _)
  · rw [if_neg hup]
    exact List.Subset.refl _

theorem tidyNames_subset (absolute : Bool) (names : List Bytes) :
    tidyNames absolute names ⊆ names := by
  induction names using List.reverseRecOn with
  | nil => exact List.nil_subset _
  | append_singleton names name ih =>
    rw [tidyNames, List.foldl_append, ← tidyNames]
    refine List.Subset.trans (tidyStep_subset _ _ _) (List.append_subset.mpr ⟨?_, ?_⟩)
    · exact List.Subset.trans ih (List.subset_append_left _ _)
    · exact List.subset_append_right _ _

theorem address_ofNames (fs : FileSystem) (absolute : Bool) {names : List Bytes}
    (hnames : ∀ name ∈ names, name ≠ [] ∧ slash ∉ name) :
    fs.address (ofNames absolute names) =
      names.foldl step (if absolute then [] else fs.current) := by
  induction names using List.reverseRecOn with
  | nil => cases absolute <;> rfl
  | append_singleton names name ih =>
    have hothers := ih fun other hother ↦ hnames other (List.mem_append_left _ hother)
    obtain ⟨hne, hslash⟩ := hnames name (by simp)
    rw [ofNames_concat, address_eq, start, isAbsolute_join _ hslash, steps_join _ hslash,
      if_neg hne, List.foldl_append, List.foldl_append, ← hothers]
    rfl

/-- A path leads where it led. -/
theorem address_tidy (fs : FileSystem) (p : Path) : fs.address p.tidy = fs.address p := by
  rw [tidy, address_ofNames]
  · exact (foldl_tidyNames (fun habsolute ↦ if_pos habsolute) (steps p)).1
  · exact fun name hname ↦ slash_notMem_of_mem_steps (tidyNames_subset _ _ hname)

/-! ### Directories of modules -/

theorem parent_eq (p : Path) : parent p =
    (steps p).dropLast.foldl (fun q name ↦ q.join ⟨name⟩)
      (if p.isAbsolute then .ofString "/" else .ofString ".") := rfl

/-- An artifact lies in the directory of its bundle. -/
theorem parent_append {p : Path} {name : Bytes} (hp : Named p name) {s : String}
    (hlonger : IsName (name ++ bytesOf s)) : parent (p.append s) = parent p := by
  rw [parent_eq, parent_eq, hp.isAbsolute_append, hp.steps_append, steps_of_isName hlonger,
    List.dropLast_concat]

/-! ### Specifiers -/

/-- What a specifier ends in, after its last separator. -/
def lastSegment (specifier : String) : List Char :=
  (partsBetween '/' specifier.toList).getLast?.getD []

/-- A specifier that does not end in a separator or in a step up or in place. -/
def EndsInName (specifier : String) : Prop :=
  lastSegment specifier ∉ [[], ['.'], ['.', '.']]

instance (specifier : String) : Decidable (EndsInName specifier) :=
  inferInstanceAs (Decidable (lastSegment specifier ∉ _))

/-- A text is cut at its separators where its bytes are. -/
theorem partsBetween_encode (cs : List Char) :
    partsBetween slash (encode cs) = (partsBetween '/' cs).map encode := by
  induction cs with
  | nil => rfl
  | cons c cs ih =>
    have hcons : encode (c :: cs) = String.utf8EncodeChar c ++ encode cs := by
      simp [encode]
    rw [hcons]
    by_cases hc : c = '/'
    · have hslash : String.utf8EncodeChar c = [slash] := by
        rw [hc]
        decide
      rw [hslash, List.singleton_append, partsBetween, if_pos rfl, ih, partsBetween, if_pos hc]
      rfl
    · have hnone : slash ∉ String.utf8EncodeChar c :=
        fun hmem ↦ hc (eq_of_mem_utf8EncodeChar hmem (by decide)).symm
      cases hparts : partsBetween '/' cs with
      | nil => exact absurd hparts (partsBetween_ne_nil cs)
      | cons part parts =>
        rw [hparts, List.map_cons] at ih
        rw [partsBetween_append_left hnone ih, partsBetween_cons_of_ne hc hparts, List.map_cons]
        simp [encode]

theorem exists_parts_ofString (s : String) : ∃ front,
    partsBetween slash (ofString s).bytes = front ++ [encode (lastSegment s)] ∧
      slash ∉ encode (lastSegment s) := by
  obtain ⟨front, last, hparts, hlast⟩ := exists_partsBetween '/' s.toList
  have hsegment : lastSegment s = last := by
    rw [lastSegment, hparts, List.getLast?_concat, Option.getD_some]
  refine ⟨front.map encode, ?_, ?_⟩
  · rw [hsegment, ofString, bytesOf, partsBetween_encode, hparts, List.map_append]
    rfl
  · rw [hsegment]
    exact fun hmem ↦ hlast (mem_of_mem_encode hmem (by decide))

theorem endsInName_iff (s : String) : EndsInName s ↔ IsName (encode (lastSegment s)) := by
  obtain ⟨_, -, hslash⟩ := exists_parts_ofString s
  have hencode (cs : List Char) : encode (lastSegment s) = encode cs ↔ lastSegment s = cs :=
    ⟨fun heq ↦ encode_injective heq, fun heq ↦ by rw [heq]⟩
  have hnil := hencode []
  have hdot := hencode ['.']
  have hup := hencode ['.', '.']
  simp only [EndsInName, List.mem_cons, List.not_mem_nil, or_false, not_or, IsName, ne_eq,
    ← hnil, ← hdot, ← hup]
  tauto

theorem ofString_append (s suffix : String) :
    ofString (s ++ suffix) = (ofString s).append suffix := by
  rw [ofString, append, ofString, bytesOf, bytesOf, String.toList_append, encode_append]
  rfl

section

variable {s : String} (hs : Link.isRelative s)

include hs

theorem head?_bytes_of_isRelative : (ofString s).bytes.head? = some dot := by
  have hfirst : s.toList.head? = some '.' := by simpa [Link.isRelative] using hs
  obtain ⟨cs, hcs⟩ := List.head?_eq_some_iff.mp hfirst
  rw [ofString, bytesOf, hcs]
  rfl

theorem isAbsolute_of_isRelative : (ofString s).isAbsolute = false := by
  rw [isAbsolute, head?_bytes_of_isRelative hs]
  decide

theorem join_ofString_append (p : Path) (suffix : String) :
    p.join (ofString (s ++ suffix)) = (p.join (ofString s)).append suffix := by
  have hne : (ofString s).bytes ≠ [] := by
    intro hnil
    have hhead := head?_bytes_of_isRelative hs
    simp [hnil] at hhead
  rw [ofString_append, join_append]
  rw [isAbsolute, isAbsolute, append, List.head?_append_of_ne_nil _ hne]

/-- A joined specifier ends in its last segment. -/
theorem partsBetween_join_ofString (p : Path) : ∃ front,
    partsBetween slash (p.join (ofString s)).bytes = front ++ [encode (lastSegment s)] := by
  obtain ⟨front, hparts, -⟩ := partsBetween_join p (isAbsolute_of_isRelative hs)
  obtain ⟨front', hparts', -⟩ := exists_parts_ofString s
  exact ⟨front ++ front', by rw [hparts, hparts', List.append_assoc]⟩

theorem named_join_ofString (p : Path) (hend : IsName (encode (lastSegment s))) :
    Named (p.join (ofString s)) (encode (lastSegment s)) := by
  obtain ⟨front, hparts⟩ := partsBetween_join_ofString hs p
  exact ⟨front, hparts, hend⟩

/-- A specifier that leads to a file ends in a name. -/
theorem endsInName_of_isFile {fs : FileSystem} (h : fs.IsSound) {p : Path}
    (hfile : fs.isFile (p.join (ofString s))) : EndsInName s := by
  obtain ⟨name, -, ⟨front, hparts, hname⟩, -⟩ := around_of_isFile h hfile
  obtain ⟨front', hparts'⟩ := partsBetween_join_ofString hs p
  rw [hparts] at hparts'
  rw [endsInName_iff, ← List.singleton_inj.mp (List.append_inj' hparts' rfl).2]
  exact hname

end

/-! ### Specifiers with the suffix -/

variable {c : Config}

theorem lastSegment_append (s : String) {suffix : String} (hsuffix : '/' ∉ suffix.toList) :
    lastSegment (s ++ suffix) = lastSegment s ++ suffix.toList := by
  obtain ⟨front, last, hparts, hlast⟩ := exists_partsBetween '/' s.toList
  rw [lastSegment, lastSegment, String.toList_append, partsBetween_append hparts,
    partsBetween_of_notMem, hparts]
  · simp
  · rw [List.mem_append, not_or]
    exact ⟨hlast, hsuffix⟩

variable (hext : '/' ∉ c.extension.toList)

include hext

/-- Where a specifier with the suffix leads, the path ends in the suffix. -/
theorem suffix_resolved (p : Path) {s : String} (hs : Link.isRelative s) :
    bytesOf c.suffix <:+ (resolved p (s ++ c.suffix)).bytes := by
  have hsegment : encode (lastSegment (s ++ c.suffix)) =
      encode (lastSegment s) ++ bytesOf c.suffix := by
    rw [lastSegment_append s (slash_notMem_suffix hext), encode_append]
    rfl
  have hname := isName_append_suffix hext (exists_parts_ofString s).choose_spec.2
  have hnamed := named_join_ofString (Link.isRelative_append hs c.suffix) (parent p)
    (hsegment ▸ hname)
  rw [hsegment] at hnamed
  rw [resolved, tidy_eq hnamed, join, isAbsolute_of_notMem hname.2.1, if_neg Bool.false_ne_true]
  simp only
  rw [← List.append_assoc]
  exact List.suffix_append _ _

/-- From the artifact of a module, the specifier with the suffix leads to the artifact of what the
specifier led to from the module. -/
theorem resolved_linkedPath {p : Path} {name : Bytes} (hp : Named p name) {s : String}
    (hs : Link.isRelative s) (hend : EndsInName s) :
    resolved (c.linkedPath p) (s ++ c.suffix) = c.linkedPath (resolved p s) := by
  obtain ⟨_, -, hname⟩ := id hp
  rw [endsInName_iff] at hend
  have hjoined := named_join_ofString hs (parent p) hend
  rw [resolved, resolved, Config.linkedPath, Config.linkedPath,
    parent_append hp (isName_append_suffix hext hname.2.1), join_ofString_append hs,
    tidy_append hjoined (isName_append_suffix hext hend.2.1)]

/-- A specifier leads from the artifact of a module where it leads from the module. -/
theorem resolved_linkedPath_same {p : Path} {name : Bytes} (hp : Named p name) (s : String) :
    resolved (c.linkedPath p) s = resolved p s := by
  obtain ⟨_, -, hname⟩ := id hp
  rw [resolved, resolved, Config.linkedPath, parent_append hp (isName_append_suffix hext hname.2.1)]

end Path

end BundleLink
