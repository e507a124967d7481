import BundleLink.Proofs.Discovery.Spots

/-!
Discovery passes over artifacts. When all that was added to a package are files that carry the
suffix of artifacts (`OnlyArtifacts`), the same bundles are found in the same order, or the search
fails at the same directory (`discover_onlyArtifacts`): nothing is found below a new file, a new file
itself is no bundle, and what could be read before can be read still.
-/

set_option autoImplicit false

namespace BundleLink

open BundleLink.Text FileSystem

/-! ### Artifacts -/

/-- A name that carries the suffix of artifacts. -/
def Suffixed (c : Config) (name : Bytes) : Prop :=
  ∃ text, decode? name = some text ∧ endsWith c.suffix (String.ofList text) = true

theorem isArtifact_iff (c : Config) {p : Path} {name : Bytes} (hp : Named p name) :
    isArtifact c p = true ↔ Suffixed c name := by
  rw [isArtifact, hp.fileName?, Option.bind_some, Suffixed]
  cases decode? name <;> simp

/-! ### Adding artifacts -/

/-- Nothing but files was added, all of them with the suffix of artifacts. -/
structure OnlyArtifacts (c : Config) (fs fs' : FileSystem) : Prop where
  before : fs.IsTree
  after : fs'.IsTree
  grown : Grown fs fs'
  made : ∀ loc name entry, fs.lookup? (loc ++ [name]) = none →
    fs'.lookup? (loc ++ [name]) = some entry → Suffixed c name
  leadsOn : (fs'.entries.countP fun e ↦ e.2.leadsOn) = fs.entries.countP fun e ↦ e.2.leadsOn

/-- What a path leads to that led to nothing before. -/
theorem lookup?_of_made {fs fs' : FileSystem} (g : Grown fs fs') {loc : Address} {entry : Entry}
    (hnone : fs.lookup? loc = none) (hsome : fs'.lookup? loc = some entry) :
    ∃ content, entry = .file content := by
  rcases g.lookup?_none hnone with hnone' | ⟨content, hfile⟩
  · rw [hnone'] at hsome
    cases hsome
  · exact ⟨content, Option.some.inj (hsome.symm.trans hfile)⟩

namespace Glob

/-! ### Below files -/

/-- The bytes of a part that is no step up or in place. -/
theorem plain_name {cs : List Char} (hslash : '/' ∉ cs)
    (hdots : ¬dotNames.contains (String.ofList cs) = true) :
    Path.slash ∉ encode cs ∧ encode cs ≠ [Path.dot] ∧ encode cs ≠ [Path.dot, Path.dot] := by
  have hdot : cs ≠ ['.'] := by
    rintro rfl
    exact hdots (by decide)
  have hup : cs ≠ ['.', '.'] := by
    rintro rfl
    exact hdots (by decide)
  refine ⟨fun hmem ↦ hslash ?_, fun heq ↦ hdot ?_, fun heq ↦ hup ?_⟩
  · exact mem_of_mem_encode hmem (by decide)
  · exact encode_injective (heq.trans (by decide))
  · exact encode_injective (heq.trans (by decide))

/-- Joining nothing to a path asks for a directory. -/
theorem child_nil (p : Path) : (child p ⟨[]⟩).bytes = [] ∨ endsInSlash (child p ⟨[]⟩) = true := by
  rw [child]
  split_ifs with hhere
  · exact Or.inl rfl
  · rcases List.eq_nil_or_concat p.bytes with hnil | ⟨front, last, hlast⟩
    · exact Or.inl (by simp [Path.join, Path.isAbsolute, hnil])
    · refine Or.inr ?_
      by_cases hslash : last = Path.slash
      · simp [Path.join, Path.isAbsolute, hlast, hslash, endsInSlash]
      · simp [Path.join, Path.isAbsolute, hlast, hslash, endsInSlash]

section

variable {fs : FileSystem} (h : fs.IsTree) {p : Path}
  (hp : fs.lookup? (fs.address p) ≠ some .directory)

include h hp

/-- There is nothing below what is no directory. -/
theorem exists?_child {name : Bytes} (hnamed : Named p name) {next : Bytes}
    (hslash : Path.slash ∉ next) (hdot : next ≠ [Path.dot]) (hup : next ≠ [Path.dot, Path.dot]) :
    fs.exists? (child p ⟨next⟩) = false := by
  have hchild : child p ⟨next⟩ = p.join ⟨next⟩ := by
    rw [child, not_isHere hnamed, if_neg Bool.false_ne_true]
  rw [exists?, Bool.or_eq_false_iff, Bool.eq_false_iff, Bool.eq_false_iff]
  by_cases hnext : next = []
  · subst hnext
    have haddress : fs.address (p.join ⟨[]⟩) = fs.address p := by
      rw [address_eq, address_eq, start, start, isAbsolute_join p hslash, steps_join p hslash,
        if_pos rfl, List.append_nil]
    refine ⟨fun hfile ↦ ?_, fun hdirectory ↦ ?_⟩
    · obtain ⟨hends, loc, content, hplace⟩ := (isFile_iff fs _).mp hfile
      rcases child_nil p with hempty | hslash
      · simp [resolve, hempty] at hplace
      · exact absurd hends (by simp [hslash])
    · rw [hchild] at hdirectory
      exact hp (haddress ▸ lookup?_of_isDirectory h hdirectory)
  · rw [hchild]
    have hisName : IsName next := ⟨hnext, hslash, hdot, hup⟩
    have haddress := address_join p fs hisName
    have habove (entry : Entry) (hentry : fs.lookup? (fs.address (p.join ⟨next⟩)) = some entry) :
        False := by
      rw [haddress] at hentry
      have hparent := h.parent _ _ hentry
      rw [List.dropLast_concat] at hparent
      exact hp hparent
    refine ⟨fun hfile ↦ ?_, fun hdirectory ↦ habove _ (lookup?_of_isDirectory h hdirectory)⟩
    obtain ⟨content, hcontent⟩ := lookup?_of_isFile h hfile
    exact habove _ hcontent

end

section

variable {fs : FileSystem} (h : fs.IsTree) {s : Spot} (hs : Fits fs s)
  (hplace : fs.lookup? (fs.address s.path) ≠ some .directory)

include hs hplace

/-- What is no directory is not taken for one. -/
theorem Fits.isDirectory_eq_false : s.isDirectory = false := by
  rw [Bool.eq_false_iff]
  intro hdirectory
  obtain ⟨-, loc, hleads⟩ := hs.leads hdirectory
  rw [hleads.address_eq] at hplace
  exact hplace hleads.directory_right

include h

/-- No pattern leads below what is no directory. -/
theorem below_eq_nil {name : Bytes} (hnamed : Named s.path name) {texts : List (List Char)}
    (htexts : ∀ cs ∈ texts, '/' ∉ cs) (closed : List Address) (ext : List Char) (depth : Nat) :
    below fs closed false (visit fs closed false depth) (underDirectory texts ext) s = [] := by
  have hfile := hs.isDirectory_eq_false hplace
  cases texts with
  | nil =>
    rw [underDirectory, List.map_nil, List.nil_append, below_anyDepth,
      faults_of_not_isDirectory hfile, listing_of_not_isDirectory hfile]
    rfl
  | cons cs texts =>
    by_cases hcs : cs.any isSpecial
    · rw [below_special fs closed texts ext depth hcs, faults_of_not_isDirectory hfile,
        listing_of_not_isDirectory hfile]
      rfl
    · rw [below_plain fs closed texts ext depth (by simpa using hcs), if_neg]
      rw [passes]
      split_ifs with hdots
      · rw [hfile]
        exact Bool.false_ne_true
      · obtain ⟨hslash, hdot, hup⟩ := plain_name (htexts cs List.mem_cons_self) hdots
        rw [exists?_child h hplace hnamed hslash hdot hup]
        exact Bool.false_ne_true

end

/-! ### Below what was there before -/

section

variable {c : Config} {fs fs' : FileSystem} (o : OnlyArtifacts c fs fs')

include o

theorem address_onlyArtifacts (p : Path) : fs'.address p = fs.address p := by
  rw [address, address, o.grown.current]

/-- A path that names no artifact leads to a file if it did before. -/
theorem isBundle_onlyArtifacts {p : Path} {name : Bytes} (hp : Named p name) :
    isBundle c fs' p = isBundle c fs p := by
  have hr := resolve_grown o.before o.after o.grown p
  rw [isBundle, isBundle, isFile, isFile]
  generalize hbefore : fs.resolve p = before at hr ⊢
  generalize fs'.resolve p = after at hr ⊢
  cases hr with
  | directory loc hloc => rfl
  | failed problem => rfl
  | vacant loc hloc hloc' => rfl
  | file loc content content' hloc hloc' => rfl
  | barred loc content hmem hloc hloc' => rfl
  | made loc content hloc hloc' =>
    have haddress : loc = (fs.address p).dropLast ++ [name] := by
      rw [← hp.address_eq fs]
      exact (resolve_ok o.before hbefore).1
    rw [haddress] at hloc hloc'
    have hartifact := (isArtifact_iff c hp).mpr (o.made _ _ _ hloc hloc')
    simp [hartifact]

theorem isDirectory_onlyArtifacts (p : Path) : fs'.isDirectory p = fs.isDirectory p := by
  have hr := resolve_grown o.before o.after o.grown p
  rw [isDirectory, isDirectory]
  generalize fs.resolve p = before at hr ⊢
  generalize fs'.resolve p = after at hr ⊢
  cases hr <;> rfl

theorem ofPath_onlyArtifacts (p : Path) : Spot.ofPath fs' p = Spot.ofPath fs p := by
  rw [Spot.ofPath, Spot.ofPath, isDirectory_onlyArtifacts o]

theorem leads_onlyArtifacts {loc loc' : Address} {names : List Bytes}
    (hleads : Leads fs loc names loc') : Leads fs' loc names loc' := by
  induction hleads with
  | here hloc => exact .here (o.grown.lookup?_directory hloc)
  | onward hloc _ ih => exact .onward (o.grown.lookup?_directory hloc) ih

section

variable (closed : List Address) {s : Spot} (hs : Fits fs s)

include hs

/-- What is taken for a directory is read as before. -/
theorem openDirectory_onlyArtifacts (hdirectory : s.isDirectory = true) :
    fs'.openDirectory closed s.path = fs.openDirectory closed s.path := by
  obtain ⟨hne, loc, hleads⟩ := hs.leads hdirectory
  have hstart : fs'.start s.path = fs.start s.path := by rw [start, start, o.grown.current]
  have hleads' : fs'.LeadsTo s.path loc := by
    rw [LeadsTo, hstart]
    exact leads_onlyArtifacts o hleads
  rw [openDirectory_of_leads o.before closed hne hleads,
    openDirectory_of_leads o.after closed hne hleads']

theorem faults_onlyArtifacts : faults fs' closed s = faults fs closed s := by
  rw [faults, faults, within, within, contents, contents]
  by_cases hdirectory : s.isDirectory = true
  · rw [openDirectory_onlyArtifacts o closed hs hdirectory]
    cases fs.openDirectory closed s.path <;> rfl
  · rw [if_neg hdirectory, if_neg hdirectory]

/-- The names from before, in their order. -/
theorem listing_onlyArtifacts :
    (listing fs' closed s).filter (fun name ↦ (fs.lookup? (fs.address s.path ++ [name])).isSome) =
      listing fs closed s := by
  rw [listing, listing]
  by_cases hdirectory : s.isDirectory = true
  · rw [if_pos hdirectory, if_pos hdirectory, openDirectory_onlyArtifacts o closed hs hdirectory]
    cases hopen : fs.openDirectory closed s.path with
    | error problem => rfl
    | ok loc =>
      obtain rfl := (resolve_ok o.before (openDirectory_eq_ok_iff.mp hopen).1).1
      exact names_grown o.grown _
  · rw [if_neg hdirectory, if_neg hdirectory]
    rfl

end

variable {closed : List Address}

/-- An entry from before is what it was. -/
theorem entry_onlyArtifacts {s : Spot} {name : Bytes} (hmem : name ∈ listing fs closed s)
    (hmem' : name ∈ listing fs' closed s) : entry fs' s name = entry fs s name := by
  refine Spot.ext (by rw [path_entry, path_entry]) (Bool.eq_iff_iff.mpr ?_)
  rw [isDirectory_entry_iff o.before hmem, isDirectory_entry_iff o.after hmem',
    address_onlyArtifacts o]
  refine ⟨fun hdirectory ↦ ?_, o.grown.lookup?_directory⟩
  rcases o.grown.entry (fs.address s.path ++ [name]) with hsame | ⟨-, content, hfile⟩
  · rw [← hsame, hdirectory]
  · rw [hfile] at hdirectory
    cases hdirectory

/-- A name that was not there before is that of an artifact. -/
theorem made_child {s : Spot} {name : Bytes} (hname : IsName name)
    (hmem : name ∈ listing fs' closed s)
    (hnew : fs.lookup? (fs.address s.path ++ [name]) = none) : Suffixed c name ∧
      ∃ content, fs'.lookup? (fs'.address (child s.path ⟨name⟩)) = some (.file content) := by
  obtain ⟨-, entry, hentry⟩ := mem_listing o.after hmem
  rw [address_onlyArtifacts o] at hentry
  obtain ⟨content, rfl⟩ := lookup?_of_made o.grown hnew hentry
  refine ⟨o.made _ _ _ hnew hentry, content, ?_⟩
  rw [address_child fs' s.path hname, address_onlyArtifacts o, hentry]

omit o in
/-- No bundle is found at or below a new file. -/
theorem filter_everywhere_made {s : Spot} (hs : Fits fs' s) {name : Bytes}
    (hnamed : Named s.path name) (hname : Suffixed c name) {content : Bytes}
    (hfile : fs'.lookup? (fs'.address s.path) = some (.file content)) (ext : List Char)
    (depth : Nat) : (everywhere fs' closed ext depth s).filter (matters c fs') = [] := by
  have hartifact := (isArtifact_iff c hnamed).mpr hname
  have hflag := hs.isDirectory_eq_false (by simp [hfile])
  cases depth with
  | zero => rfl
  | succ depth =>
    rw [everywhere, faults_of_not_isDirectory hflag, listing_of_not_isDirectory hflag,
      List.flatMap_nil, List.append_nil, List.append_nil, hit]
    cases s.path.fileName?.bind decode? with
    | none => rfl
    | some text =>
      simp only
      split_ifs
      · simp [matters, isBundle, hartifact]
      · rfl

omit o in
theorem filter_faults (files : FileSystem) (s : Spot) :
    (faults fs closed s).filter (matters c files) = faults fs closed s := by
  refine List.filter_eq_self.mpr fun finding hfinding ↦ ?_
  cases finding with
  | error unread => rfl
  | ok p => exact absurd hfinding (ok_notMem_faults p)

/-- Below the entries of a directory, if below each of those from before. -/
theorem filter_inside_of_everywhere {ext : List Char} {depth : Nat} {s : Spot} (hs : Fits fs s)
    (heverywhere : ∀ name ∈ listing fs closed s,
      (everywhere fs' closed ext depth (entry fs s name)).filter (matters c fs') =
        (everywhere fs closed ext depth (entry fs s name)).filter (matters c fs)) :
    (inside fs' closed ext depth s).filter (matters c fs') =
      (inside fs closed ext depth s).filter (matters c fs) := by
  have hnames := listing_onlyArtifacts o closed hs
  rw [inside, inside, List.filter_append, List.filter_append, faults_onlyArtifacts o closed hs,
    filter_faults, filter_faults]
  congr 1
  rw [List.filter_flatMap, List.filter_flatMap,
    ← flatMap_filter fun name ↦ (fs.lookup? (fs.address s.path ++ [name])).isSome]
  · rw [hnames]
    refine List.flatMap_congr fun name hmem ↦ ?_
    have hmem' := List.mem_of_mem_filter (hnames ▸ hmem)
    rw [entry_onlyArtifacts o hmem hmem']
    exact heverywhere name hmem
  · intro name hmem hnew
    have hname := (mem_listing o.after hmem).1
    obtain ⟨hsuffixed, content, hfile⟩ := made_child o hname hmem (by simpa using hnew)
    rw [← path_entry fs'] at hfile
    exact filter_everywhere_made (fits_entry o.after hmem)
      (path_entry fs' s name ▸ named_child _ hname) hsuffixed hfile ext depth

theorem filter_everywhere {s : Spot} (hs : Fits fs s) {name : Bytes} (hnamed : Named s.path name)
    (ext : List Char) (depth : Nat) :
    (everywhere fs' closed ext depth s).filter (matters c fs') =
      (everywhere fs closed ext depth s).filter (matters c fs) := by
  induction depth generalizing s name with
  | zero => rfl
  | succ depth ih =>
    rw [everywhere, everywhere, ← inside, ← inside, List.filter_append, List.filter_append]
    congr 1
    · refine List.filter_congr fun finding hfinding ↦ ?_
      rw [hit] at hfinding
      cases htext : s.path.fileName?.bind decode? with
      | none => simp [htext] at hfinding
      | some text =>
        simp only [htext, List.mem_ite_nil_right, List.mem_singleton] at hfinding
        rw [hfinding.2]
        exact isBundle_onlyArtifacts o hnamed
    · refine filter_inside_of_everywhere o hs fun next hnext ↦ ?_
      exact ih (fits_entry o.before hnext)
        (path_entry fs s next ▸ named_child _ (mem_listing o.before hnext).1)

/-- A part leads on if it did before or leads to a new file. -/
theorem passes_onlyArtifacts {cs : List Char} (hcs : '/' ∉ cs) (s : Spot) :
    passes fs' cs s = passes fs cs s ∨ passes fs cs s = false ∧ IsName (encode cs) ∧
      ∃ content, fs'.lookup? (fs'.address (child s.path ⟨encode cs⟩)) = some (.file content) := by
  rw [passes, passes]
  split_ifs with hdots
  · exact Or.inl rfl
  have hr := resolve_grown o.before o.after o.grown (child s.path ⟨encode cs⟩)
  rw [exists?, exists?, isDirectory_onlyArtifacts o, isFile, isFile, isDirectory]
  generalize hbefore : fs.resolve (child s.path ⟨encode cs⟩) = before at hr ⊢
  generalize hafter : fs'.resolve (child s.path ⟨encode cs⟩) = after at hr ⊢
  cases hr with
  | directory loc hloc => exact Or.inl rfl
  | failed problem => exact Or.inl rfl
  | vacant loc hloc hloc' => exact Or.inl rfl
  | file loc content content' hloc hloc' => exact Or.inl rfl
  | barred loc content hmem hloc hloc' => exact Or.inl rfl
  | made loc content hloc hloc' =>
    by_cases hslash : endsInSlash (child s.path ⟨encode cs⟩)
    · exact Or.inl (by simp [hslash])
    · obtain ⟨hname, hdot, hup⟩ := plain_name hcs hdots
      have hne : encode cs ≠ [] := by
        intro hnil
        rw [hnil] at hslash hbefore
        rcases child_nil s.path with hempty | hends
        · simp [resolve, hempty] at hbefore
        · exact hslash hends
      exact Or.inr ⟨rfl, ⟨hne, hname, hdot, hup⟩, content, (resolve_ok o.after hafter).2⟩

/-- The search for bundles finds the same ones in the same order, and fails where it did. -/
theorem filter_below {texts : List (List Char)} (htexts : ∀ cs ∈ texts, '/' ∉ cs) (ext : List Char)
    (depth : Nat) {s : Spot} (hs : Fits fs s) :
    (below fs' closed false (visit fs' closed false depth) (underDirectory texts ext) s).filter
        (matters c fs') =
      (below fs closed false (visit fs closed false depth) (underDirectory texts ext) s).filter
        (matters c fs) := by
  induction texts generalizing depth s with
  | nil =>
    rw [underDirectory, List.map_nil, List.nil_append, below_anyDepth_eq, below_anyDepth_eq]
    refine filter_inside_of_everywhere o hs fun name hname ↦ ?_
    exact filter_everywhere o (fits_entry o.before hname)
      (path_entry fs s name ▸ named_child _ (mem_listing o.before hname).1) ext depth
  | cons cs texts ih =>
    have hrest := ih fun cs' hcs' ↦ htexts cs' (List.mem_cons_of_mem cs hcs')
    have hnone (t : Spot) (ht : Fits fs' t) (hpath : t.path = child s.path ⟨encode cs⟩)
        (hname : IsName (encode cs)) (content : Bytes)
        (hfile : fs'.lookup? (fs'.address (child s.path ⟨encode cs⟩)) = some (.file content))
        (depth : Nat) : below fs' closed false (visit fs' closed false depth)
          (underDirectory texts ext) t = [] := by
      rw [← hpath] at hfile
      exact below_eq_nil o.after ht (by simp [hfile]) (hpath ▸ named_child s.path hname)
        (fun cs' hcs' ↦ htexts cs' (List.mem_cons_of_mem cs hcs')) closed ext depth
    by_cases hcs : cs.any isSpecial
    · have hnames := listing_onlyArtifacts o closed hs
      cases depth with
      | zero =>
        rw [below_special_zero fs' closed texts ext hcs, below_special_zero fs closed texts ext hcs,
          faults_onlyArtifacts o closed hs, filter_faults, filter_faults]
      | succ depth =>
        rw [below_special_succ closed o.after.isSound hcs,
          below_special_succ closed o.before.isSound hcs, List.filter_append, List.filter_append,
          faults_onlyArtifacts o closed hs, filter_faults, filter_faults, ← hnames]
        congr 1
        simp only [List.mem_filter]
        by_cases hmem : encode cs ∈ listing fs' closed s
        · by_cases hold : (fs.lookup? (fs.address s.path ++ [encode cs])).isSome
          · have hmem' : encode cs ∈ listing fs closed s :=
              hnames ▸ List.mem_filter.mpr ⟨hmem, hold⟩
            rw [if_pos hmem, if_pos ⟨hmem, hold⟩, entry_onlyArtifacts o hmem' hmem]
            exact hrest depth (fits_entry o.before hmem')
          · have hname := (mem_listing o.after hmem).1
            obtain ⟨-, content, hfile⟩ := made_child o hname hmem (by simpa using hold)
            rw [if_pos hmem, if_neg fun hboth ↦ hold hboth.2,
              hnone (entry fs' s (encode cs)) (fits_entry o.after hmem) (path_entry ..) hname content
                hfile]
            rfl
        · rw [if_neg hmem, if_neg fun hboth ↦ hmem hboth.1]
          rfl
    · have hplain : cs.any isSpecial = false := by simpa using hcs
      rw [below_plain fs' closed texts ext depth hplain, below_plain fs closed texts ext depth hplain]
      rcases passes_onlyArtifacts o (htexts cs List.mem_cons_self) s with
        hsame | ⟨hbefore, hname, content, hfile⟩
      · rw [hsame, ofPath_onlyArtifacts o]
        split_ifs
        · exact hrest depth (fits_ofPath o.before _)
        · rfl
      · have hnext := hnone (.ofPath fs' (child s.path ⟨encode cs⟩)) (fits_ofPath o.after _) rfl
          hname content hfile depth
        rw [hbefore, hnext]
        simp

theorem maxDepth_onlyArtifacts (parts : List Pattern) : maxDepth fs' parts = maxDepth fs parts := by
  rw [maxDepth, maxDepth, o.leadsOn]

theorem filter_search {q : Query} {texts : List (List Char)} (htexts : ∀ cs ∈ texts, '/' ∉ cs)
    {ext : List Char} (hparts : q.parts = underDirectory texts ext)
    (hfiles : q.directoriesOnly = false) :
    (search fs' closed q).filter (matters c fs') = (search fs closed q).filter (matters c fs) := by
  rw [search, search, maxDepth_onlyArtifacts o, ofPath_onlyArtifacts o, hparts, hfiles]
  exact filter_below o htexts ext _ (fits_ofPath o.before q.scope)

end

end Glob

/-- Once artifacts have been added, discovery finds the same bundles in the same order or fails at the
same directory. -/
theorem discover_onlyArtifacts {c : Config} (hc : c.Accepted) (hext : '/' ∉ c.extension.toList)
    {fs fs' : FileSystem} (o : OnlyArtifacts c fs fs') (closed : List Address := []) :
    (discover c fs' closed).1 = (discover c fs closed).1 := by
  cases hq : bundleQuery c with
  | error e => rw [discover, discover, hq]
  | ok q =>
    obtain ⟨texts, htexts, hparts, hfiles⟩ := parts_of_bundleQuery hc hext hq
    rw [discover_of_bundleQuery hq, discover_of_bundleQuery hq,
      Glob.filter_search o htexts hparts hfiles]

end BundleLink
