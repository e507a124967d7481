import BundleLink.Proofs.Discovery.Spots

/-!
What a search finds below a directory of a tree. The rigid parts of a pattern lead where they spell,
or nowhere (`below_underDirectory`). Below that, what has the extension is found along names that are
listed one after the other (`ok_mem_inside_iff_listed`). A search that goes as deep as there are
directories and can read them all misses none of them, so it finds the paths of the files that stand
there, as far as a system takes those paths (`ok_mem_inside_isFile_iff`).
-/

set_option autoImplicit false

namespace BundleLink.Glob

open BundleLink.Text FileSystem

/-! ### Rigid parts -/

section

variable {fs : FileSystem} {closed : List Address} {s : Spot}

/-- A directory that lists anything has been read. -/
theorem faults_of_mem_listing {name : Bytes} (hname : name ∈ listing fs closed s) :
    faults fs closed s = [] := by
  obtain ⟨hdirectory, loc, hopen, -⟩ := mem_listing_iff.mp hname
  rw [faults, within, if_pos hdirectory, contents, hopen]

/-- What stands in a directory is listed unless the directory cannot be read. -/
theorem mem_listing_or_error (h : fs.IsTree) (hs : s.isDirectory = true) {name : Bytes}
    {entry : Entry} (hentry : fs.lookup? (fs.address s.path ++ [name]) = some entry) :
    name ∈ listing fs closed s ∨ ∃ unread, .error unread ∈ faults fs closed s := by
  cases hopen : fs.openDirectory closed s.path with
  | error problem => exact .inr ⟨⟨s.path, problem⟩, error_mem_faults_iff.mpr ⟨hs, rfl, hopen⟩⟩
  | ok loc =>
    obtain rfl := (resolve_ok h (openDirectory_eq_ok_iff.mp hopen).1).1
    exact .inl (mem_listing_iff.mpr ⟨hs, _, hopen, entry, hentry⟩)

end

theorem isName_of_special {cs : List Char} (hcs : cs.any isSpecial)
    (hslash : Path.slash ∉ encode cs) : IsName (encode cs) := by
  refine ⟨fun heq ↦ ?_, hslash, fun heq ↦ ?_, fun heq ↦ ?_⟩
  · obtain rfl : cs = [] := encode_injective (heq.trans (by decide))
    cases hcs
  · obtain rfl : cs = ['.'] := encode_injective (heq.trans (by decide))
    revert hcs
    decide
  · obtain rfl : cs = ['.', '.'] := encode_injective (heq.trans (by decide))
    revert hcs
    decide

/-- The rigid parts of a pattern lead where they spell, or nothing is found: there is no such
directory, or one on the way to it cannot be read. -/
theorem below_underDirectory {fs : FileSystem} (h : fs.IsTree) (closed : List Address)
    {texts : List (List Char)} (ext : List Char) {depth : Nat} (hdepth : texts.length ≤ depth)
    {s : Spot} (hs : Fits fs s) (hready : Ready s.path (texts.map encode)) :
    (∃ depth' s', depth ≤ depth' + texts.length ∧ Fits fs s' ∧
      s'.path = spelled s.path (texts.map encode) ∧
      below fs closed false (visit fs closed false depth) (underDirectory texts ext) s =
        inside fs closed ext depth' s') ∨
    (∀ r, .ok r ∉
      below fs closed false (visit fs closed false depth) (underDirectory texts ext) s) ∧
      (fs.isDirectory (spelled s.path (texts.map encode)) = true → ∃ unread, .error unread ∈
        below fs closed false (visit fs closed false depth) (underDirectory texts ext) s) := by
  induction texts generalizing depth s with
  | nil => exact .inl ⟨depth, s, Nat.le_refl depth, hs, rfl, below_anyDepth_eq ext depth s⟩
  | cons cs texts ih =>
    have hon (hspelled : fs.isDirectory (spelled s.path ((cs :: texts).map encode)) = true) :
        s.isDirectory = true ∧ fs.isDirectory (child s.path ⟨encode cs⟩) = true :=
      ⟨hs.isDirectory (hready.isDirectory h hspelled), hready.tail.isDirectory h hspelled⟩
    -- A part with a special character is looked up in a listing, which costs a level of depth; any
    -- other is joined to the path and only asked whether it is there.
    by_cases hcs : cs.any isSpecial
    · obtain ⟨depth, rfl⟩ : ∃ n, depth = n + 1 :=
        Nat.exists_eq_add_one.mpr (Nat.lt_of_lt_of_le (Nat.succ_pos _) hdepth)
      rw [below_special_succ closed h.isSound hcs]
      by_cases hmem : encode cs ∈ listing fs closed s
      · rw [if_pos hmem, faults_of_mem_listing hmem, List.nil_append]
        have hnext := ih (Nat.le_of_succ_le_succ hdepth) (fits_entry h hmem)
          (path_entry fs s _ ▸ hready.tail)
        rw [path_entry] at hnext
        exact hnext.imp_left fun ⟨depth', s', hle, hrest⟩ ↦
          ⟨depth', s', by rw [List.length_cons]; omega, hrest⟩
      · rw [if_neg hmem, List.append_nil]
        refine .inr ⟨fun r ↦ ok_notMem_faults r, fun hspelled ↦ ?_⟩
        obtain ⟨hdirectory, hchild⟩ := hon hspelled
        have hentry := lookup?_of_isDirectory h hchild
        rw [address_child fs s.path (isName_of_special hcs (hready.slash _ List.mem_cons_self))]
          at hentry
        exact (mem_listing_or_error h hdirectory hentry).resolve_left hmem
    · rw [below_plain fs closed texts ext depth (by simpa using hcs)]
      by_cases hpasses : passes fs cs s
      · rw [if_pos hpasses]
        have hnext := ih (Nat.le_of_succ_le hdepth) (fits_ofPath h _) hready.tail
        exact hnext.imp_left fun ⟨depth', s', hle, hrest⟩ ↦
          ⟨depth', s', by rw [List.length_cons]; omega, hrest⟩
      · rw [if_neg hpasses]
        refine .inr ⟨fun r ↦ List.not_mem_nil, fun hspelled ↦ absurd ?_ hpasses⟩
        obtain ⟨hdirectory, hchild⟩ := hon hspelled
        rw [passes, exists?, hdirectory, hchild, Bool.or_true, ite_self]

/-! ### Entries at any depth -/

/-- Names that are listed one after the other, from the directory at a spot. -/
def Listed (fs : FileSystem) (closed : List Address) : Spot → List Bytes → Prop
  | _, [] => True
  | s, name :: names => name ∈ listing fs closed s ∧ Listed fs closed (entry fs s name) names

section

variable {fs : FileSystem} {closed : List Address} {ext : List Char} {depth : Nat} {s : Spot}

theorem ok_mem_hit_iff {p r : Path} :
    .ok r ∈ hit ext p ↔ r = p ∧ ∃ text, p.fileName?.bind decode? = some text ∧
      Pattern.matchesName (wild ext) text = true := by
  rw [hit]
  cases p.fileName?.bind decode? with
  | none => simp
  | some text => by_cases hmatches : Pattern.matchesName (wild ext) text = true <;> simp [hmatches]

theorem error_notMem_hit (p : Path) (unread : Unread) : .error unread ∉ hit ext p := by
  rw [hit]
  cases p.fileName?.bind decode? with
  | none => exact List.not_mem_nil
  | some text => by_cases hmatches : Pattern.matchesName (wild ext) text = true <;> simp [hmatches]

theorem ok_mem_everywhere_iff {r : Path} : .ok r ∈ everywhere fs closed ext depth s ↔
    ∃ names, names.length < depth ∧ Listed fs closed s names ∧
      .ok r ∈ hit ext (spelled s.path names) := by
  induction depth generalizing s with
  | zero => simp [everywhere]
  | succ depth ih =>
    simp only [ok_mem_everywhere_succ, ok_mem_inside_iff, ih, path_entry]
    constructor
    · rintro (hhit | ⟨name, hname, names, hlength, hlisted, hhit⟩)
      · exact ⟨[], Nat.succ_pos depth, trivial, hhit⟩
      · exact ⟨name :: names, Nat.succ_lt_succ hlength, ⟨hname, hlisted⟩, hhit⟩
    · rintro ⟨names, hlength, hlisted, hhit⟩
      cases names with
      | nil => exact .inl hhit
      | cons name names =>
        exact .inr ⟨name, hlisted.1, names, Nat.lt_of_succ_lt_succ hlength, hlisted.2, hhit⟩

theorem ok_mem_inside_iff_listed {r : Path} : .ok r ∈ inside fs closed ext depth s ↔
    ∃ names, names ≠ [] ∧ names.length ≤ depth ∧ Listed fs closed s names ∧
      .ok r ∈ hit ext (spelled s.path names) := by
  simp only [ok_mem_inside_iff, ok_mem_everywhere_iff, path_entry]
  constructor
  · rintro ⟨name, hname, names, hlength, hlisted, hhit⟩
    exact ⟨name :: names, List.cons_ne_nil _ _, hlength, ⟨hname, hlisted⟩, hhit⟩
  · rintro ⟨names, hne, hlength, hlisted, hhit⟩
    obtain ⟨name, names, rfl⟩ := List.exists_cons_of_ne_nil hne
    exact ⟨name, hlisted.1, names, hlength, hlisted.2, hhit⟩

/-- A failure below a spot is one to read it, or one at or below one of its entries. -/
theorem error_mem_inside_iff {unread : Unread} : .error unread ∈ inside fs closed ext depth s ↔
    .error unread ∈ faults fs closed s ∨ ∃ name ∈ listing fs closed s,
      .error unread ∈ everywhere fs closed ext depth (entry fs s name) := by
  rw [inside, List.mem_append, List.mem_flatMap]

theorem error_mem_everywhere_succ {unread : Unread} :
    .error unread ∈ everywhere fs closed ext (depth + 1) s ↔
      .error unread ∈ inside fs closed ext depth s := by
  rw [everywhere, ← inside, List.mem_append, or_iff_right (error_notMem_hit _ unread)]

end

/-! ### Names with the extension -/

theorem anySuffix_iff (test : List Char → Bool) (cs : List Char) :
    Pattern.anySuffix test cs = true ↔ ∃ rear, rear <:+ cs ∧ test rear = true := by
  induction cs with
  | nil => simp [Pattern.anySuffix, List.suffix_nil]
  | cons c cs ih =>
    rw [Pattern.anySuffix, Bool.or_eq_true, ih]
    simp only [List.suffix_cons_iff, or_and_right, exists_or, exists_eq_left]

/-- The names that end in a dot and the extension. -/
theorem matchesName_wild (ext name : List Char) :
    Pattern.matchesName (wild ext) name = true ↔ '.' :: ext <:+ name := by
  rw [wild, Pattern.matchesName, anySuffix_iff]
  simp only [matchesName_rigid, exists_eq_right]

/-! ### Files below a directory -/

theorem Listed.isName {fs : FileSystem} (h : fs.IsSound) {closed : List Address} {s : Spot}
    {names : List Bytes} (hlisted : Listed fs closed s names) : ∀ name ∈ names, IsName name := by
  induction names generalizing s with
  | nil => simp
  | cons name names ih =>
    exact List.forall_mem_cons.mpr ⟨isName_of_mem_listing h hlisted.1, ih hlisted.2⟩

theorem address_spelled (fs : FileSystem) (p : Path) {names : List Bytes}
    (hnames : ∀ name ∈ names, IsName name) :
    fs.address (spelled p names) = fs.address p ++ names := by
  induction names generalizing p with
  | nil => exact (List.append_nil _).symm
  | cons name names ih =>
    obtain ⟨hname, hrest⟩ := List.forall_mem_cons.mp hnames
    rw [spelled_cons, ih _ hrest, address_child fs p hname, List.append_assoc,
      List.singleton_append]

theorem named_spelled (p : Path) (front : List Bytes) {last : Bytes} (hlast : IsName last) :
    Named (spelled p (front ++ [last])) last := by
  rw [spelled_append]
  exact named_child _ hlast

section

variable {fs : FileSystem} (h : fs.IsTree)

include h

/-- What stands below a directory is listed if its path is taken, and nothing there that cannot be
read. -/
theorem listed_of_lookup? {closed : List Address} {ext : List Char} {depth : Nat} {s : Spot}
    (hs : Fits fs s) (hp : Met s.path) {loc : Address} (hleads : fs.LeadsTo s.path loc)
    {names : List Bytes} (hdepth : names.length ≤ depth) {entry : Entry}
    (hentry : fs.lookup? (loc ++ names) = some entry) (htakes : Takes (spelled s.path names))
    (hread : ∀ unread, .error unread ∉ inside fs closed ext depth s) :
    Listed fs closed s names := by
  induction names generalizing depth s loc with
  | nil => trivial
  | cons name names ih =>
    have hnames (n : Bytes) (hn : n ∈ name :: names) : IsName n :=
      h.is_name _ _ hentry n (List.mem_append_right _ hn)
    have hready := Ready.of_isName hp hnames
    have hdirectory : s.isDirectory = true := hs.isDirectory <|
      (isDirectory_iff_leads h).mpr ⟨hready.takes htakes, hp.bytes_ne_nil, loc, hleads⟩
    have hsplit : loc ++ name :: names = (loc ++ [name]) ++ names := by simp
    rw [hsplit] at hentry
    obtain ⟨first, hfirst⟩ : ∃ entry, fs.lookup? (loc ++ [name]) = some entry := by
      cases names with
      | nil => exact ⟨entry, by rwa [List.append_nil] at hentry⟩
      | cons next rest => exact ⟨_, lookup?_of_below h (List.cons_ne_nil _ _) hentry⟩
    have hmem : name ∈ listing fs closed s := by
      refine (mem_listing_or_error h hdirectory (hleads.address_eq ▸ hfirst)).resolve_right ?_
      exact fun ⟨unread, hunread⟩ ↦ hread unread (error_mem_inside_iff.mpr (.inl hunread))
    refine ⟨hmem, ?_⟩
    cases names with
    | nil => trivial
    | cons next rest =>
      have hchild := leads_child h hleads (lookup?_of_below h (List.cons_ne_nil _ _) hentry)
      obtain ⟨depth, rfl⟩ : ∃ n, depth = n + 1 :=
        Nat.exists_eq_add_one.mpr (Nat.lt_of_lt_of_le (Nat.succ_pos _) hdepth)
      rw [← path_entry fs s] at hchild
      refine ih (fits_entry h hmem) (path_entry fs s name ▸ hready.tail.met) hchild
        (Nat.le_of_succ_le_succ hdepth) hentry ?_ fun unread hunread ↦ ?_
      · rwa [path_entry]
      · exact hread unread (error_mem_inside_iff.mpr
          (.inr ⟨name, hmem, error_mem_everywhere_succ.mpr hunread⟩))

/-- A file below a directory is there for its path, if that is taken. -/
theorem isFile_spelled {p : Path} (hp : Met p) {loc : Address} (hleads : fs.LeadsTo p loc)
    {names : List Bytes} (hne : names ≠ []) {content : Bytes}
    (hfile : fs.lookup? (loc ++ names) = some (.file content)) (htakes : Takes (spelled p names)) :
    fs.isFile (spelled p names) = true := by
  obtain ⟨front, last, rfl⟩ := List.eq_nil_or_concat names |>.resolve_left hne
  rw [List.concat_eq_append] at *
  have hnames (n : Bytes) (hn : n ∈ front ++ [last]) : IsName n :=
    h.is_name _ _ hfile n (List.mem_append_right _ hn)
  obtain ⟨hfront, hlast⟩ := List.forall_mem_append.mp hnames
  have hlast := hlast last (List.mem_singleton_self last)
  have hready := Ready.of_isName hp hfront
  rw [← List.append_assoc] at hfile
  have haround : fs.LeadsTo (spelled p front) (loc ++ front) := by
    have hfilter : front.filter (· ≠ []) = front :=
      List.filter_eq_self.mpr fun n hn ↦ by simpa using (hfront n hn).1
    rw [hready.leads_spelled_iff, hfilter, leads_steps_append_iff]
    exact ⟨loc, hleads, leads_of_lookup? h (lookup?_of_below h (List.cons_ne_nil _ _) hfile)⟩
  refine isFile_of_leads h (named_spelled p front hlast) htakes ?_ hfile
  rw [spelled_append]
  exact hready.met_spelled.leads_dropLast_child hlast haround

end

/-- The files that are found below a spot, if the search goes deep enough and can read all that it
comes to. -/
theorem ok_mem_inside_isFile_iff {fs : FileSystem} (h : fs.IsTree) {closed : List Address}
    {ext : List Char} {depth : Nat}
    (hdepth : (fs.entries.countP fun e ↦ e.2.leadsOn) + 1 ≤ depth) {s : Spot} (hs : Fits fs s)
    (hp : Met s.path) (hread : ∀ unread, .error unread ∉ inside fs closed ext depth s) {r : Path} :
    .ok r ∈ inside fs closed ext depth s ∧ fs.isFile r = true ↔
      ∃ loc names, fs.LeadsTo s.path loc ∧ names ≠ [] ∧
        (∃ content, fs.lookup? (loc ++ names) = some (.file content)) ∧
        (∃ text, names.getLast?.bind decode? = some text ∧ '.' :: ext <:+ text) ∧
        r = spelled s.path names ∧ Takes r := by
  rw [ok_mem_inside_iff_listed]
  constructor
  · rintro ⟨⟨names, hne, -, hlisted, hhit⟩, hfile⟩
    obtain ⟨rfl, text, htext, hmatches⟩ := ok_mem_hit_iff.mp hhit
    have hnames := hlisted.isName h.isSound
    obtain ⟨content, hcontent⟩ := lookup?_of_isFile h hfile
    obtain ⟨-, _, _, hplace⟩ := (isFile_iff fs _).mp hfile
    have hleads : fs.LeadsTo s.path (fs.address s.path) := by
      obtain ⟨name, names, rfl⟩ := List.exists_cons_of_ne_nil hne
      exact leads_of_mem_listing h hlisted.1
    rw [address_spelled fs s.path hnames] at hcontent
    obtain ⟨front, last, rfl⟩ := (List.eq_nil_or_concat names).resolve_left hne
    rw [List.concat_eq_append] at *
    have hlast := hnames last (by simp)
    rw [(named_spelled s.path front hlast).fileName?] at htext
    refine ⟨_, _, hleads, hne, ⟨content, hcontent⟩, ⟨text, ?_, ?_⟩, rfl, ?_⟩
    · rw [List.getLast?_concat]
      exact htext
    · exact (matchesName_wild ext text).mp hmatches
    · exact (takes_of_resolve h hplace).1
  · rintro ⟨loc, names, hleads, hne, ⟨content, hcontent⟩, ⟨text, htext, hsuffix⟩, rfl, htakes⟩
    have hlength : names.length ≤ depth := Nat.le_trans (length_le_countP h hcontent) hdepth
    refine ⟨⟨names, hne, hlength, listed_of_lookup? h hs hp hleads hlength hcontent htakes hread,
      ok_mem_hit_iff.mpr ⟨rfl, text, ?_, ?_⟩⟩, isFile_spelled h hp hleads hne hcontent htakes⟩
    · obtain ⟨front, last, rfl⟩ := (List.eq_nil_or_concat names).resolve_left hne
      rw [List.concat_eq_append] at *
      have hlast : IsName last := h.is_name _ _ hcontent last (by simp)
      rw [(named_spelled s.path front hlast).fileName?]
      rwa [List.getLast?_concat] at htext
    · exact (matchesName_wild ext text).mpr hsuffix

/-! ### Searches -/

/-- A search goes as deep as there are rigid parts, and below them as there are directories. -/
theorem le_maxDepth (fs : FileSystem) {q : Query} {texts : List (List Char)} {ext : List Char}
    (hparts : q.parts = underDirectory texts ext) :
    texts.length + ((fs.entries.countP fun e ↦ e.2.leadsOn) + 1) ≤ maxDepth fs q.parts := by
  have hcount : q.parts.length = texts.length + 2 := by
    rw [hparts, underDirectory, List.length_append, List.length_map]
    rfl
  simp only [maxDepth, hcount, maxLinks, Nat.mul_add, Nat.add_mul]
  omega

/-- The files that a search finds, if it can read all that it comes to. -/
theorem ok_mem_search_isFile_iff {fs : FileSystem} (h : fs.IsTree) {closed : List Address}
    {q : Query} {texts : List (List Char)} {ext : List Char}
    (hparts : q.parts = underDirectory texts ext) (hfiles : q.directoriesOnly = false)
    (hready : Ready q.scope (texts.map encode))
    (hread : ∀ unread, .error unread ∉ search fs closed q) {r : Path} :
    .ok r ∈ search fs closed q ∧ fs.isFile r = true ↔
      ∃ loc names, fs.LeadsTo (spelled q.scope (texts.map encode)) loc ∧ names ≠ [] ∧
        (∃ content, fs.lookup? (loc ++ names) = some (.file content)) ∧
        (∃ text, names.getLast?.bind decode? = some text ∧ '.' :: ext <:+ text) ∧
        r = spelled (spelled q.scope (texts.map encode)) names ∧ Takes r := by
  have hdepth := le_maxDepth fs hparts
  rw [search, hfiles] at hread ⊢
  rw [hparts] at hdepth hread ⊢
  rcases below_underDirectory h closed ext (Nat.le_of_add_right_le hdepth) (fits_ofPath h q.scope)
    hready with ⟨depth, s, hle, hs, hpath, hbelow⟩ | ⟨hnone, hspelled⟩
  · rw [hbelow] at hread ⊢
    have hmet : Met s.path := hpath ▸ hready.met_spelled
    rw [ok_mem_inside_isFile_iff h (by omega) hs hmet hread, hpath]
    rfl
  · refine ⟨fun hfound ↦ absurd hfound.1 (hnone r), ?_⟩
    rintro ⟨loc, names, hleads, -, ⟨content, hcontent⟩, -, rfl, htakes⟩
    have hnames := Ready.of_isName hready.met_spelled fun name hname ↦
      h.is_name _ _ hcontent name (List.mem_append_right loc hname)
    have hdirectory := (isDirectory_iff_leads h).mpr
      ⟨hnames.takes htakes, hready.met_spelled.bytes_ne_nil, loc, hleads⟩
    obtain ⟨unread, hunread⟩ := hspelled hdirectory
    exact absurd hunread (hread unread)

end BundleLink.Glob
