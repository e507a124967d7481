import BundleLink.Proofs.Discovery.Inside

/-!
What stops a search in a tree. It reads the directories around parts with special characters, the one
that the parts lead to and all below that (`Reads`). The search fails if it comes to one of them that
it cannot read (`Blocks`), and only then: every failure is that of such a directory
(`exists_blocks_of_error_mem`), and where there is one some failure is met
(`exists_error_mem_of_blocks`).
-/

set_option autoImplicit false

namespace BundleLink.Glob

open BundleLink.Text FileSystem

/-- The ways to the directories that a search reads on its way to what is below the last of some
parts, and there. -/
def Reads : List (List Char) → List Bytes → Prop
  | [], way => ∀ name ∈ way, IsName name
  | cs :: _, [] => cs.any isSpecial = true
  | cs :: texts, part :: way => part = encode cs ∧ Reads texts way

/-- A directory that a search from a path comes to, has to read and cannot. It comes there by a path
that a system takes, or by a name in a directory that it reads. -/
structure Blocks (fs : FileSystem) (closed : List Address) (p : Path) (texts : List (List Char))
    (way : List Bytes) (unread : Unread) : Prop where
  reads : Reads texts way
  leads : ∃ loc, fs.LeadsTo (spelled p way) loc
  met : Takes (spelled p way) ∨
    ∃ front last, way = front ++ [last] ∧ Reads texts front ∧ Takes (spelled p front)
  path_eq : unread.path = spelled p way
  problem_eq : fs.openDirectory closed unread.path = .error unread.problem

/-! ### Ways -/

theorem Ready.cons {p : Path} {part : Bytes} {parts : List Bytes} (hp : Met p)
    (hslash : Path.slash ∉ part) (hpart : isHere p = true → part ≠ [])
    (hparts : Ready (child p ⟨part⟩) parts) : Ready p (part :: parts) := by
  refine ⟨hp, List.forall_mem_cons.mpr ⟨hslash, hparts.slash⟩, fun hhere ↦ ?_⟩
  by_cases hdot : part = [Path.dot]
  · rw [List.dropWhile_cons_of_pos (by simpa using hdot)]
    refine hparts.first ?_
    rw [child, if_pos hhere, hdot]
    decide
  · rw [List.dropWhile_cons_of_neg (by simpa using hdot)]
    simpa using hpart hhere

theorem Reads.ready {texts : List (List Char)} {way : List Bytes} (hway : Reads texts way) {p : Path}
    (hready : Ready p (texts.map encode)) : Ready p way := by
  induction texts generalizing p way with
  | nil => exact .of_isName hready.met hway
  | cons cs texts ih =>
    cases way with
    | nil => exact ⟨hready.met, by simp, by simp⟩
    | cons part way =>
      obtain ⟨rfl, hway⟩ := hway
      exact .cons hready.met (hready.slash _ List.mem_cons_self) hready.part_ne_nil
        (ih hway hready.tail)

/-- A way ends around a part, or it goes on below all of them. -/
theorem Reads.isPrefix_or {texts : List (List Char)} {way : List Bytes} (hway : Reads texts way) :
    way <+: texts.map encode ∨
      ∃ names, way = texts.map encode ++ names ∧ ∀ name ∈ names, IsName name := by
  induction texts generalizing way with
  | nil => exact .inr ⟨way, rfl, hway⟩
  | cons cs texts ih =>
    cases way with
    | nil => exact .inl List.nil_prefix
    | cons part way =>
      obtain ⟨rfl, hway⟩ := hway
      rcases ih hway with hfront | ⟨names, rfl, hnames⟩
      · exact .inl ((List.prefix_cons_inj _).mpr hfront)
      · exact .inr ⟨names, rfl, hnames⟩

/-- Where no part has special characters a search reads nothing before it is past them all. -/
theorem Reads.exists_names {texts : List (List Char)} {way : List Bytes} (hway : Reads texts way)
    (hplain : ∀ cs ∈ texts, cs.any isSpecial = false) :
    ∃ names, way = texts.map encode ++ names ∧ ∀ name ∈ names, IsName name := by
  induction texts generalizing way with
  | nil => exact ⟨way, rfl, hway⟩
  | cons cs texts ih =>
    obtain ⟨hcs, htexts⟩ := List.forall_mem_cons.mp hplain
    cases way with
    | nil => exact absurd hway (by simp [Reads, hcs])
    | cons part way =>
      obtain ⟨rfl, hway⟩ := hway
      obtain ⟨names, rfl, hnames⟩ := ih hway htexts
      exact ⟨names, rfl, hnames⟩

namespace Blocks

variable {fs : FileSystem} {closed : List Address} {p : Path} {texts : List (List Char)}
  {way : List Bytes} {unread : Unread}

/-- What blocks the way from the next path blocks it from the one before. -/
theorem cons {part : Bytes} {rest : List (List Char)}
    (hb : Blocks fs closed (child p ⟨part⟩) rest way unread)
    (hreads : ∀ way, Reads rest way → Reads texts (part :: way)) :
    Blocks fs closed p texts (part :: way) unread := by
  refine ⟨hreads _ hb.reads, hb.leads, hb.met.imp_right ?_, hb.path_eq, hb.problem_eq⟩
  rintro ⟨front, last, rfl, hfront, htakes⟩
  exact ⟨part :: front, last, rfl, hreads _ hfront, htakes⟩

/-- What blocks the way from a path blocks it from the next, unless it is an entry of the first
directory. -/
theorem tail {part : Bytes} {rest : List (List Char)}
    (hb : Blocks fs closed p texts (part :: way) unread)
    (hreads : ∀ way, Reads texts (part :: way) → Reads rest way) :
    Blocks fs closed (child p ⟨part⟩) rest way unread ∨ way = [] ∧ Reads texts [] := by
  rcases hb.met with htakes | ⟨front, last, hway, hfront, htakes⟩
  · exact .inl ⟨hreads _ hb.reads, hb.leads, .inl htakes, hb.path_eq, hb.problem_eq⟩
  · cases front with
    | nil => exact .inr ⟨(List.cons.inj hway).2, hfront⟩
    | cons first front =>
      obtain ⟨rfl, rfl⟩ := List.cons.inj hway
      exact .inl ⟨hreads _ hb.reads, hb.leads,
        .inr ⟨front, last, rfl, hreads _ hfront, htakes⟩, hb.path_eq, hb.problem_eq⟩

/-- Whatever blocks the way from a path, the path leads to a directory. -/
theorem isDirectory (hb : Blocks fs closed p texts way unread) (h : fs.IsTree)
    (hready : Ready p (texts.map encode)) : fs.isDirectory p = true := by
  have hway := hb.reads.ready hready
  obtain ⟨loc, hleads⟩ := hb.leads
  obtain ⟨between, hbetween, -⟩ :=
    leads_steps_append_iff.mp ((hway.leads_spelled_iff fs loc).mp hleads)
  have htakes : Takes p := by
    rcases hb.met with htakes | ⟨front, last, -, hfront, htakes⟩
    · exact hway.takes htakes
    · exact (hfront.ready hready).takes htakes
  exact (isDirectory_iff_leads h).mpr ⟨htakes, hready.met.bytes_ne_nil, between, hbetween⟩

/-- What cannot be read is closed, or its path is one that no system takes. -/
theorem closed_or_not_takes (hb : Blocks fs closed p texts way unread) (h : fs.IsTree)
    (hready : Ready p (texts.map encode)) :
    fs.address unread.path ∈ closed ∨ ¬Takes unread.path := by
  obtain ⟨loc, hleads⟩ := hb.leads
  have hopen := hb.problem_eq
  rw [← hb.path_eq] at hleads
  have hne : unread.path.bytes ≠ [] := by
    rw [hb.path_eq]
    exact (hb.reads.ready hready).met_spelled.bytes_ne_nil
  rw [openDirectory_of_leads h closed hne hleads] at hopen
  by_cases htakes : Takes unread.path
  · rw [if_pos htakes] at hopen
    split_ifs at hopen with hclosed
    exact .inl (by rwa [hleads.address_eq])
  · exact .inr htakes

/-- A search past parts without special characters is blocked only if their path is taken. -/
theorem takes_spelled (hb : Blocks fs closed p texts way unread)
    (hready : Ready p (texts.map encode)) (hplain : ∀ cs ∈ texts, cs.any isSpecial = false) :
    Takes (spelled p (texts.map encode)) := by
  have hback {way : List Bytes} (hway : Reads texts way) (htakes : Takes (spelled p way)) :
      Takes (spelled p (texts.map encode)) := by
    obtain ⟨names, rfl, hnames⟩ := hway.exists_names hplain
    rw [spelled_append] at htakes
    exact (Ready.of_isName hready.met_spelled hnames).takes htakes
  rcases hb.met with htakes | ⟨front, last, -, hfront, htakes⟩
  · exact hback hb.reads htakes
  · exact hback hfront htakes

/-- The way to what blocks a search is no longer than the parts and the tree. -/
theorem length_le (hb : Blocks fs closed p texts way unread) (h : fs.IsTree) :
    way.length ≤ texts.length + ((fs.entries.countP fun e ↦ e.2.leadsOn) + 1) := by
  rcases hb.reads.isPrefix_or with hfront | ⟨names, rfl, hnames⟩
  · exact Nat.le_trans (List.length_map encode ▸ hfront.length_le) (Nat.le_add_right _ _)
  · obtain ⟨loc, hleads⟩ := hb.leads
    have hdirectory := hleads.directory_right
    rw [← hleads.address_eq, spelled_append, address_spelled fs _ hnames] at hdirectory
    rw [List.length_append, List.length_map]
    exact Nat.add_le_add_left (length_le_countP h hdirectory) _

end Blocks

/-! ### Spots that stop a search -/

/-- What stops a search at a spot: a directory that blocks a way from its path, or the directory at
the spot, even where the search came to it by a path that no system takes. -/
def Stops (fs : FileSystem) (closed : List Address) (s : Spot) (texts : List (List Char))
    (way : List Bytes) (unread : Unread) : Prop :=
  (way = [] ∧ Reads texts [] ∧ .error unread ∈ faults fs closed s) ∨
    Blocks fs closed s.path texts way unread

section

variable {fs : FileSystem} (h : fs.IsTree) {closed : List Address} {s : Spot}
  {texts rest : List (List Char)} {way : List Bytes} {name : Bytes} {unread : Unread}

theorem Stops.reads (hstops : Stops fs closed s texts way unread) : Reads texts way := by
  rcases hstops with ⟨rfl, hhere, -⟩ | hblocks
  · exact hhere
  · exact hblocks.reads

include h

/-- What stops a search where it begins blocks a way from there. -/
theorem blocks_of_stops_ofPath {p : Path} (hstops : Stops fs closed (.ofPath fs p) texts way unread) :
    Blocks fs closed p texts way unread := by
  rcases hstops with ⟨rfl, hhere, hfault⟩ | hblocks
  · obtain ⟨hdirectory, hpath, hopen⟩ := error_mem_faults_iff.mp hfault
    obtain ⟨htakes, -, hleads⟩ := (isDirectory_iff_leads h).mp hdirectory
    exact ⟨hhere, hleads, .inl htakes, hpath, hpath ▸ hopen⟩
  · exact hblocks

/-- What stops a search at an entry blocks the way from the directory around it. -/
theorem blocks_of_stops_entry (hname : name ∈ listing fs closed s) (hhere : Reads texts [])
    (hreads : ∀ way, Reads rest way → Reads texts (name :: way))
    (hstops : Stops fs closed (entry fs s name) rest way unread) :
    Blocks fs closed s.path texts (name :: way) unread := by
  rcases hstops with ⟨rfl, hrest, hfault⟩ | hblocks
  · obtain ⟨hdirectory, hpath, hopen⟩ := error_mem_faults_iff.mp hfault
    obtain ⟨-, loc, hleads⟩ := (fits_entry h hname).leads hdirectory
    obtain ⟨around, -, hplace, -⟩ := exists_entry_of_mem_listing hname
    rw [path_entry] at hpath hleads hopen
    exact ⟨hreads [] hrest, ⟨loc, hleads⟩,
      .inr ⟨[], name, rfl, hhere, (takes_of_resolve h hplace).1⟩, hpath, hpath ▸ hopen⟩
  · rw [path_entry] at hblocks
    exact hblocks.cons hreads

variable (hs : Fits fs s) (hready : Ready s.path (texts.map encode))

include hs hready

theorem error_mem_faults_of_stops (hstops : Stops fs closed s texts [] unread) :
    .error unread ∈ faults fs closed s := by
  rcases hstops with ⟨-, -, hfault⟩ | hblocks
  · exact hfault
  · have hpath : unread.path = s.path := hblocks.path_eq
    exact error_mem_faults_iff.mpr
      ⟨hs.isDirectory (hblocks.isDirectory h hready), hpath, hpath ▸ hblocks.problem_eq⟩

/-- What stops a search behind an entry stops it at the entry, unless the directory around it cannot
be read itself. -/
theorem stops_entry_of_stops (hname : IsName name)
    (hreads : ∀ way, Reads texts (name :: way) → Reads rest way)
    (hstops : Stops fs closed s texts (name :: way) unread) :
    (∃ unread, .error unread ∈ faults fs closed s) ∨
      name ∈ listing fs closed s ∧ Stops fs closed (entry fs s name) rest way unread := by
  have hblocks := hstops.resolve_left fun hhere ↦ List.cons_ne_nil _ _ hhere.1
  have hdirectory := hs.isDirectory (hblocks.isDirectory h hready)
  have hentry : fs.lookup? (fs.address s.path ++ [name]) = some .directory := by
    obtain ⟨loc, hleads⟩ := hblocks.leads
    obtain ⟨between, hbetween, -⟩ := leads_steps_append_iff.mp
      (((hblocks.reads.ready hready).tail.leads_spelled_iff fs loc).mp hleads)
    rw [← address_child fs s.path hname, LeadsTo.address_eq hbetween]
    exact hbetween.directory_right
  refine (mem_listing_or_error h hdirectory hentry).symm.imp_right fun hmem ↦ ⟨hmem, ?_⟩
  rcases hblocks.tail hreads with hblocks | ⟨rfl, -⟩
  · exact .inr (path_entry fs s name ▸ hblocks)
  · have hpath : unread.path = (entry fs s name).path := by
      rw [path_entry]
      exact hblocks.path_eq
    exact .inl ⟨rfl, hreads [] hblocks.reads, error_mem_faults_iff.mpr
      ⟨(isDirectory_entry_iff h hmem).mpr hentry, hpath, hpath ▸ hblocks.problem_eq⟩⟩

end

/-! ### Failures are blocked ways -/

section

variable {fs : FileSystem} (h : fs.IsTree) {closed : List Address}

include h

theorem exists_stops_of_error_mem_inside {ext : List Char} {depth : Nat} {s : Spot} {unread : Unread}
    (hmem : .error unread ∈ inside fs closed ext depth s) :
    ∃ way, Stops fs closed s [] way unread := by
  have hnone : Reads [] [] := fun _ hname ↦ absurd hname List.not_mem_nil
  induction depth generalizing s with
  | zero =>
    rcases error_mem_inside_iff.mp hmem with hfault | ⟨name, -, hmem⟩
    · exact ⟨[], .inl ⟨rfl, hnone, hfault⟩⟩
    · exact absurd hmem List.not_mem_nil
  | succ depth ih =>
    rcases error_mem_inside_iff.mp hmem with hfault | ⟨name, hname, hmem⟩
    · exact ⟨[], .inl ⟨rfl, hnone, hfault⟩⟩
    · obtain ⟨way, hstops⟩ := ih (error_mem_everywhere_succ.mp hmem)
      refine ⟨name :: way, .inr (blocks_of_stops_entry h hname hnone (fun way hway ↦ ?_) hstops)⟩
      exact List.forall_mem_cons.mpr ⟨(mem_listing h hname).1, hway⟩

/-- Whatever a search cannot read stops it. The induction is on the parts that lead on. -/
theorem exists_stops_of_error_mem_below {texts : List (List Char)} {ext : List Char} {depth : Nat}
    {s : Spot} {unread : Unread} (hmem : .error unread ∈
      below fs closed false (visit fs closed false depth) (underDirectory texts ext) s) :
    ∃ way, Stops fs closed s texts way unread := by
  induction texts generalizing depth s with
  | nil =>
    rw [underDirectory, List.map_nil, List.nil_append, below_anyDepth_eq] at hmem
    exact exists_stops_of_error_mem_inside h hmem
  | cons cs texts ih =>
    have hreads (way : List Bytes) (hway : Reads texts way) : Reads (cs :: texts) (encode cs :: way) :=
      ⟨rfl, hway⟩
    by_cases hcs : cs.any isSpecial
    · have hhere : Reads (cs :: texts) [] := hcs
      cases depth with
      | zero =>
        rw [below_special_zero fs closed texts ext hcs] at hmem
        exact ⟨[], .inl ⟨rfl, hhere, hmem⟩⟩
      | succ depth =>
        rw [below_special_succ closed h.isSound hcs, List.mem_append, List.mem_ite_nil_right] at hmem
        rcases hmem with hfault | ⟨hname, hmem⟩
        · exact ⟨[], .inl ⟨rfl, hhere, hfault⟩⟩
        · obtain ⟨way, hstops⟩ := ih hmem
          exact ⟨_, .inr (blocks_of_stops_entry h hname hhere hreads hstops)⟩
    · rw [below_plain fs closed texts ext depth (by simpa using hcs), List.mem_ite_nil_right] at hmem
      -- The next spot is looked up by its path, so what stops the search there blocks it.
      obtain ⟨way, hstops⟩ := ih hmem.2
      exact ⟨_, .inr ((blocks_of_stops_ofPath h hstops).cons hreads)⟩

end

/-! ### Blocked ways are failures -/

section

variable {fs : FileSystem} (h : fs.IsTree) {closed : List Address} (ext : List Char)

include h

theorem exists_error_mem_inside {depth : Nat} {s : Spot} (hs : Fits fs s) (hp : Met s.path)
    {way : List Bytes} (hdepth : way.length ≤ depth) {unread : Unread}
    (hstops : Stops fs closed s [] way unread) :
    ∃ unread, .error unread ∈ inside fs closed ext depth s := by
  induction way generalizing depth s with
  | nil =>
    have hfault := error_mem_faults_of_stops h hs (.of_isName hp (by simp)) hstops
    exact ⟨unread, error_mem_inside_iff.mpr (.inl hfault)⟩
  | cons name way ih =>
    have hreads (way : List Bytes) (hway : Reads [] (name :: way)) : Reads [] way :=
      (List.forall_mem_cons.mp hway).2
    rcases stops_entry_of_stops h hs (.of_isName hp (by simp)) (hstops.reads name List.mem_cons_self)
      hreads hstops with ⟨unread, hfault⟩ | ⟨hname, hnext⟩
    · exact ⟨unread, error_mem_inside_iff.mpr (.inl hfault)⟩
    · obtain ⟨depth, rfl⟩ : ∃ n, depth = n + 1 :=
        Nat.exists_eq_add_one.mpr (Nat.lt_of_lt_of_le (Nat.succ_pos _) hdepth)
      have hmet : Met (entry fs s name).path :=
        path_entry fs s name ▸ hp.child (mem_listing h hname).1.2.1 fun _ ↦ (mem_listing h hname).1.1
      obtain ⟨unread, hmem⟩ := ih (fits_entry h hname) hmet (Nat.le_of_succ_le_succ hdepth) hnext
      exact ⟨unread, error_mem_inside_iff.mpr
        (.inr ⟨name, hname, error_mem_everywhere_succ.mpr hmem⟩)⟩

/-- A search that is deep enough meets a failure if anything stops it, though perhaps not this one. -/
theorem exists_error_mem_below {texts : List (List Char)} {depth : Nat} {s : Spot} (hs : Fits fs s)
    (hready : Ready s.path (texts.map encode)) {way : List Bytes} (hdepth : way.length ≤ depth)
    {unread : Unread} (hstops : Stops fs closed s texts way unread) : ∃ unread, .error unread ∈
      below fs closed false (visit fs closed false depth) (underDirectory texts ext) s := by
  induction texts generalizing depth s way with
  | nil =>
    rw [underDirectory, List.map_nil, List.nil_append, below_anyDepth_eq]
    exact exists_error_mem_inside h ext hs hready.met hdepth hstops
  | cons cs texts ih =>
    cases way with
    | nil =>
      have hcs : cs.any isSpecial = true := hstops.reads
      rw [below_special fs closed texts ext depth hcs]
      exact ⟨unread, List.mem_append_left _ (error_mem_faults_of_stops h hs hready hstops)⟩
    | cons part way =>
      obtain ⟨rfl, hway⟩ := hstops.reads
      by_cases hcs : cs.any isSpecial
      · obtain ⟨depth, rfl⟩ : ∃ n, depth = n + 1 :=
          Nat.exists_eq_add_one.mpr (Nat.lt_of_lt_of_le (Nat.succ_pos _) hdepth)
        have hname := isName_of_special hcs (hready.slash _ List.mem_cons_self)
        rw [below_special_succ closed h.isSound hcs]
        rcases stops_entry_of_stops h hs hready hname (fun _ hway ↦ hway.2) hstops with
          ⟨unread, hfault⟩ | ⟨hmem, hnext⟩
        · exact ⟨unread, List.mem_append_left _ hfault⟩
        · rw [if_pos hmem]
          obtain ⟨unread, hunread⟩ := ih (fits_entry h hmem) (path_entry fs s _ ▸ hready.tail)
            (Nat.le_of_succ_le_succ hdepth) hnext
          exact ⟨unread, List.mem_append_right _ hunread⟩
      · rw [below_plain fs closed texts ext depth (by simpa using hcs)]
        have hblocks := hstops.resolve_left fun hhere ↦ List.cons_ne_nil _ _ hhere.1
        have hnext := (hblocks.tail fun _ hway ↦ hway.2).resolve_right fun hhere ↦ hcs hhere.2
        have hpasses : passes fs cs s = true := by
          rw [passes, exists?, hs.isDirectory (hblocks.isDirectory h hready),
            hnext.isDirectory h hready.tail, Bool.or_true, ite_self]
        rw [if_pos hpasses]
        exact ih (fits_ofPath h _) hready.tail (Nat.le_of_succ_le hdepth) (.inr hnext)

end

/-! ### Searches -/

section

variable {fs : FileSystem} (h : fs.IsTree) {closed : List Address} {q : Query}
  {texts : List (List Char)} {ext : List Char} (hparts : q.parts = underDirectory texts ext)
  (hfiles : q.directoriesOnly = false) {unread : Unread}

include h hparts hfiles

/-- Every failure of a search is that of a directory that blocks it. -/
theorem exists_blocks_of_error_mem (hmem : .error unread ∈ search fs closed q) :
    ∃ way, Blocks fs closed q.scope texts way unread := by
  rw [search, hparts, hfiles] at hmem
  obtain ⟨way, hstops⟩ := exists_stops_of_error_mem_below h hmem
  exact ⟨way, blocks_of_stops_ofPath h hstops⟩

/-- A search that anything blocks fails. -/
theorem exists_error_mem_of_blocks (hready : Ready q.scope (texts.map encode)) {way : List Bytes}
    (hblocks : Blocks fs closed q.scope texts way unread) :
    ∃ unread, .error unread ∈ search fs closed q := by
  have hdepth := Nat.le_trans (hblocks.length_le h) (le_maxDepth fs hparts)
  rw [search, hfiles]
  rw [hparts] at hdepth ⊢
  exact exists_error_mem_below h ext (fits_ofPath h _) hready hdepth (.inr hblocks)

end

end BundleLink.Glob
