import BundleLink.Proofs.Discovery.Query
import BundleLink.Proofs.FileSystem.Listing
import BundleLink.Proofs.FileSystem.Naming
import Mathlib.Data.List.Nodup

/-!
What a search for bundles finds. A directory yields its entries or the failure to read it
(`within_eq`). The rigid parts of the search lead to one spot at most (`below_rigid`), and below that
paths with the extension are found at any depth (`found_of_mem_search`), each of them once if there
are no symbolic links (`nodup_search`).
-/

set_option autoImplicit false

namespace BundleLink.Glob

open BundleLink.Text FileSystem

/-! ### Entries -/

theorem not_isHere {p : Path} {name : Bytes} (hp : Named p name) : isHere p = false := by
  rw [isHere, decide_eq_false_iff_not]
  intro hhere
  have hfile := hp.fileName?
  rw [Path.fileName?, hhere] at hfile
  cases hfile

theorem named_child (p : Path) {name : Bytes} (hname : IsName name) :
    Named (child p ⟨name⟩) name := by
  rw [child]
  split_ifs
  · exact named_of_isName hname
  · exact named_join p hname

/-- An entry of a directory stands below it. -/
theorem address_child (fs : FileSystem) (p : Path) {name : Bytes} (hname : IsName name) :
    fs.address (child p ⟨name⟩) = fs.address p ++ [name] := by
  rw [child]
  split_ifs with hhere
  · rw [isHere, decide_eq_true_iff] at hhere
    have hrelative : p.isAbsolute = false := by
      rw [Bool.eq_false_iff, ne_eq, isAbsolute_iff, hhere]
      simp
    rw [address_of_isName fs hname, address_eq_foldl, hhere, start, hrelative]
    rfl
  · exact address_join p fs hname

@[simp] theorem path_ofEntry (fs : FileSystem) (loc : Address) (p : Path) (name : Bytes) :
    (Spot.ofEntry fs loc p name).path = child p ⟨name⟩ := by
  rw [Spot.ofEntry]
  split <;> rfl

/-- Where the directory is that a path leads to. -/
def located (fs : FileSystem) (p : Path) : Address :=
  match fs.resolve p with
  | .ok (.directory loc) => loc
  | _ => []

section

variable (fs : FileSystem) (closed : List Address) (s : Spot)

/-- The names that a search reads at a spot; none if no directory stands there, or one that it cannot
read. -/
def listing : List Bytes :=
  if s.isDirectory then
    match fs.openDirectory closed s.path with
    | .ok loc => fs.names loc
    | .error _ => []
  else []

/-- The failure of a search to read the directory at a spot. -/
def faults : List Finding :=
  within fs closed s fun _ ↦ []

/-- The spot of a name that is read at another. -/
def entry (name : Bytes) : Spot :=
  .ofEntry fs (located fs s.path) s.path name

@[simp] theorem path_entry (name : Bytes) : (entry fs s name).path = child s.path ⟨name⟩ :=
  path_ofEntry ..

variable {fs closed s}

theorem within_eq {found : List Spot → List Finding} (hnil : found [] = []) :
    within fs closed s found =
      faults fs closed s ++ found ((listing fs closed s).map (entry fs s)) := by
  rw [faults, within, within, listing, contents]
  by_cases hdirectory : s.isDirectory
  · simp only [if_pos hdirectory]
    cases hopen : fs.openDirectory closed s.path with
    | error problem => simp [hnil]
    | ok loc =>
      have hlocated : located fs s.path = loc := by
        rw [located, (openDirectory_eq_ok_iff.mp hopen).1]
      simp only [List.nil_append, ← hlocated]
      rfl
  · simp [hdirectory, hnil]

theorem faults_of_not_isDirectory (hs : s.isDirectory = false) : faults fs closed s = [] := by
  rw [faults, within, hs, if_neg Bool.false_ne_true]

theorem listing_of_not_isDirectory (hs : s.isDirectory = false) : listing fs closed s = [] := by
  rw [listing, hs, if_neg Bool.false_ne_true]

theorem error_mem_faults_iff {unread : Unread} : .error unread ∈ faults fs closed s ↔
    s.isDirectory = true ∧ unread.path = s.path ∧
      fs.openDirectory closed s.path = .error unread.problem := by
  obtain ⟨p, problem⟩ := unread
  rw [faults, within, contents]
  by_cases hdirectory : s.isDirectory
  · cases hopen : fs.openDirectory closed s.path with
    | ok loc => simp [hdirectory]
    | error problem' => simp [hdirectory, eq_comm (a := problem)]
  · simp [hdirectory]

theorem ok_notMem_faults (r : Path) : .ok r ∉ faults fs closed s := by
  rcases within_cases fs closed s fun _ ↦ [] with hwithin | ⟨unread, hwithin⟩ | ⟨loc, -, hwithin⟩
  · simp [faults, hwithin]
  · simp [faults, hwithin]
  · simp [faults, hwithin]

theorem mem_listing_iff {name : Bytes} : name ∈ listing fs closed s ↔
    s.isDirectory = true ∧ ∃ loc, fs.openDirectory closed s.path = .ok loc ∧
      ∃ entry, fs.lookup? (loc ++ [name]) = some entry := by
  rw [listing]
  by_cases hdirectory : s.isDirectory
  · cases hopen : fs.openDirectory closed s.path with
    | error problem => simp [hdirectory]
    | ok loc => simp [hdirectory, mem_names]
  · simp [hdirectory]

/-- What is listed stands in the directory that the path leads to. -/
theorem exists_entry_of_mem_listing {name : Bytes} (hname : name ∈ listing fs closed s) :
    ∃ loc entry, fs.resolve s.path = .ok (.directory loc) ∧
      fs.lookup? (loc ++ [name]) = some entry := by
  obtain ⟨-, loc, hopen, entry, hentry⟩ := mem_listing_iff.mp hname
  exact ⟨loc, entry, (openDirectory_eq_ok_iff.mp hopen).1, hentry⟩

theorem isName_of_mem_listing (h : fs.IsSound) {name : Bytes}
    (hname : name ∈ listing fs closed s) : IsName name := by
  obtain ⟨loc, entry, -, hentry⟩ := exists_entry_of_mem_listing hname
  exact h.is_name _ _ hentry name (by simp)

theorem mem_listing (h : fs.IsTree) {name : Bytes} (hname : name ∈ listing fs closed s) :
    IsName name ∧ ∃ entry, fs.lookup? (fs.address s.path ++ [name]) = some entry := by
  obtain ⟨loc, entry, hplace, hentry⟩ := exists_entry_of_mem_listing hname
  obtain ⟨rfl, -⟩ := resolve_ok h hplace
  exact ⟨isName_of_mem_listing h.isSound hname, entry, hentry⟩

theorem nodup_listing : (listing fs closed s).Nodup := by
  rw [listing]
  split_ifs
  · cases fs.openDirectory closed s.path <;> simp [nodup_names]
  · exact List.nodup_nil

end

/-- The paths among what a search meets. -/
def paths (found : List Finding) : List Path :=
  found.filterMap Except.toOption

theorem mem_paths {found : List Finding} {r : Path} : r ∈ paths found ↔ .ok r ∈ found := by
  simp only [paths, List.mem_filterMap]
  constructor
  · rintro ⟨finding, hmem, hfinding⟩
    cases finding with
    | error unread => cases hfinding
    | ok p => rwa [← Option.some.inj hfinding]
  · exact fun hr ↦ ⟨_, hr, rfl⟩

theorem paths_append (found found' : List Finding) :
    paths (found ++ found') = paths found ++ paths found' :=
  List.filterMap_append

theorem paths_flatMap {α : Type} (l : List α) (f : α → List Finding) :
    paths (l.flatMap f) = l.flatMap fun a ↦ paths (f a) :=
  List.filterMap_flatMap

theorem paths_map_ok (rs : List Path) : paths (rs.map .ok) = rs := by
  rw [paths, List.filterMap_map]
  exact List.filterMap_some

@[simp] theorem paths_faults (fs : FileSystem) (closed : List Address) (s : Spot) :
    paths (faults fs closed s) = [] :=
  List.eq_nil_iff_forall_not_mem.mpr fun r hr ↦ ok_notMem_faults r (mem_paths.mp hr)

/-! ### Any depth -/

section

variable (fs : FileSystem) (closed : List Address)

/-- The path itself, if its name has the extension. -/
def hit (ext : List Char) (p : Path) : List Finding :=
  match p.fileName?.bind decode? with
  | none => []
  | some name => if Pattern.matchesName (wild ext) name then [.ok p] else []

/-- The paths with the extension at a spot and, at most so deep, below it. -/
def everywhere (ext : List Char) : Nat → Spot → List Finding
  | 0, _ => []
  | depth + 1, s =>
    hit ext s.path ++ (faults fs closed s ++
      (listing fs closed s).flatMap fun name ↦ everywhere ext depth (entry fs s name))

/-- The paths with the extension below a spot. -/
def inside (ext : List Char) (depth : Nat) (s : Spot) : List Finding :=
  faults fs closed s ++
    (listing fs closed s).flatMap fun name ↦ everywhere fs closed ext depth (entry fs s name)

variable {fs closed}

theorem below_anyDepth (ext : List Char) (visit : List Pattern → Spot → List Finding) (s : Spot) :
    below fs closed false visit (anyDepth ext) s = faults fs closed s ++
      (listing fs closed s).flatMap fun name ↦ visit (anyDepth ext) (entry fs s name) := by
  have hliteral : Pattern.literal? [Token.recursive] = none := rfl
  have hdots : matchedDots [Token.recursive] = [] := rfl
  rw [anyDepth, below, hliteral]
  simp only [hdots, List.flatMap_nil, List.nil_append]
  rw [within_eq List.flatMap_nil, List.flatMap_map]

theorem matching_wild (ext : List Char) (visit : List Pattern → Spot → List Finding) (s : Spot) :
    matching fs closed false visit [wild ext] s = hit ext s.path := by
  rw [matching, hit]
  cases s.path.fileName?.bind decode? <;> simp [wanted]

theorem visit_anyDepth (ext : List Char) (depth : Nat) (s : Spot) :
    visit fs closed false depth (anyDepth ext) s = everywhere fs closed ext depth s := by
  induction depth generalizing s with
  | zero => rfl
  | succ depth ih =>
    have hidle : dropIdle (anyDepth ext) = anyDepth ext := by
      simp [anyDepth, dropIdle, isRecursive_wild]
    have hrecursive : Pattern.isRecursive [Token.recursive] = true := rfl
    rw [visit, visitWith, hidle, everywhere]
    simp only [anyDepth, hrecursive, if_true, List.isEmpty_cons, Bool.false_eq_true, if_false,
      matching_wild]
    congr 1
    by_cases hs : s.isDirectory
    · rw [if_pos hs, ← anyDepth, below_anyDepth]
      congr 1
      exact List.flatMap_congr fun name _ ↦ ih _
    · have hs : s.isDirectory = false := by simpa using hs
      rw [hs, if_neg Bool.false_ne_true, faults_of_not_isDirectory hs,
        listing_of_not_isDirectory hs]
      rfl

theorem below_anyDepth_eq (ext : List Char) (depth : Nat) (s : Spot) :
    below fs closed false (visit fs closed false depth) (anyDepth ext) s =
      inside fs closed ext depth s := by
  rw [below_anyDepth, inside]
  congr 1
  exact List.flatMap_congr fun name _ ↦ visit_anyDepth ext depth _

end

/-- A path whose name is text and has the extension. -/
def Found (ext : List Char) (p : Path) : Prop :=
  ∃ name text, Named p name ∧ decode? name = some text ∧
    Pattern.matchesName (wild ext) text = true

theorem found_of_mem_hit {ext : List Char} {p r : Path} {name : Bytes} (hp : Named p name)
    (hr : .ok r ∈ hit ext p) : r = p ∧ Found ext p := by
  rw [hit, hp.fileName?] at hr
  cases htext : decode? name with
  | none => simp [htext] at hr
  | some text =>
    simp only [Option.bind_some, htext] at hr
    split_ifs at hr with hmatches
    · exact ⟨Except.ok.inj (List.mem_singleton.mp hr), name, text, hp, htext, hmatches⟩
    · exact absurd hr List.not_mem_nil

section

variable {fs : FileSystem} {closed : List Address}

/-- What is found below a spot is found at or below one of its entries. -/
theorem ok_mem_inside_iff {ext : List Char} {depth : Nat} {s : Spot} {r : Path} :
    .ok r ∈ inside fs closed ext depth s ↔ ∃ name ∈ listing fs closed s,
      .ok r ∈ everywhere fs closed ext depth (entry fs s name) := by
  rw [inside, List.mem_append, or_iff_right (ok_notMem_faults r), List.mem_flatMap]

theorem ok_mem_everywhere_succ {ext : List Char} {depth : Nat} {s : Spot} {r : Path} :
    .ok r ∈ everywhere fs closed ext (depth + 1) s ↔
      .ok r ∈ hit ext s.path ∨ .ok r ∈ inside fs closed ext depth s := by
  rw [everywhere, ← inside, List.mem_append]

end

section

variable {fs : FileSystem} {closed : List Address} (h : fs.IsSound)

include h

theorem found_of_mem_everywhere {ext : List Char} {depth : Nat} {s : Spot} {r : Path}
    {name : Bytes} (hs : Named s.path name) (hr : .ok r ∈ everywhere fs closed ext depth s) :
    Found ext r := by
  induction depth generalizing s name with
  | zero => exact absurd hr List.not_mem_nil
  | succ depth ih =>
    rcases ok_mem_everywhere_succ.mp hr with hr | hr
    · obtain ⟨rfl, hfound⟩ := found_of_mem_hit hs hr
      exact hfound
    · obtain ⟨next, hnext, hr⟩ := ok_mem_inside_iff.mp hr
      exact ih (path_entry fs s next ▸ named_child _ (isName_of_mem_listing h hnext)) hr

theorem found_of_mem_inside {ext : List Char} {depth : Nat} {s : Spot} {r : Path}
    (hr : .ok r ∈ inside fs closed ext depth s) : Found ext r := by
  obtain ⟨next, hnext, hr⟩ := ok_mem_inside_iff.mp hr
  exact found_of_mem_everywhere h
    (path_entry fs s next ▸ named_child _ (isName_of_mem_listing h hnext)) hr

end

section

variable {fs : FileSystem} {closed : List Address} (h : fs.IsTree)

include h

theorem address_of_mem_everywhere {ext : List Char} {depth : Nat} {s : Spot} {r : Path}
    {name : Bytes} (hs : Named s.path name) (hr : .ok r ∈ everywhere fs closed ext depth s) :
    ∃ names, fs.address r = fs.address s.path ++ names := by
  induction depth generalizing s name with
  | zero => exact absurd hr List.not_mem_nil
  | succ depth ih =>
    rcases ok_mem_everywhere_succ.mp hr with hr | hr
    · obtain ⟨rfl, -⟩ := found_of_mem_hit hs hr
      exact ⟨[], (List.append_nil _).symm⟩
    · obtain ⟨next, hnext, hr⟩ := ok_mem_inside_iff.mp hr
      have hname := (mem_listing h hnext).1
      obtain ⟨names, haddress⟩ := ih (path_entry fs s next ▸ named_child _ hname) hr
      rw [path_entry, address_child fs s.path hname, List.append_assoc] at haddress
      exact ⟨_, haddress⟩

/-- Below different entries of a directory there are different paths. -/
theorem nodup_flatMap_everywhere {ext : List Char} {depth : Nat} {s : Spot}
    (hnodup : ∀ name, IsName name →
      ((paths (everywhere fs closed ext depth (entry fs s name))).map fs.address).Nodup) :
    ((paths (inside fs closed ext depth s)).map fs.address).Nodup := by
  rw [inside, paths_append, paths_faults, List.nil_append, paths_flatMap, List.map_flatMap,
    List.nodup_flatMap]
  refine ⟨fun name hname ↦ hnodup name (mem_listing h hname).1, ?_⟩
  refine nodup_listing.imp_of_mem fun {name name'} hname hname' hne ↦ ?_
  change List.Disjoint _ _
  rw [List.disjoint_left]
  intro loc hloc hloc'
  obtain ⟨r, hr, rfl⟩ := List.mem_map.mp hloc
  obtain ⟨r', hr', heq⟩ := List.mem_map.mp hloc'
  have hisName := (mem_listing h hname).1
  have hisName' := (mem_listing h hname').1
  obtain ⟨names, haddress⟩ := address_of_mem_everywhere h
    (path_entry fs s name ▸ named_child _ hisName) (mem_paths.mp hr)
  obtain ⟨names', haddress'⟩ := address_of_mem_everywhere h
    (path_entry fs s name' ▸ named_child _ hisName') (mem_paths.mp hr')
  rw [path_entry, address_child fs s.path hisName] at haddress
  rw [path_entry, address_child fs s.path hisName', heq, haddress, List.append_assoc,
    List.append_assoc, List.append_cancel_left_eq, List.singleton_append,
    List.singleton_append] at haddress'
  exact hne (List.cons.inj haddress').1

theorem nodup_everywhere {ext : List Char} {depth : Nat} {s : Spot} {name : Bytes}
    (hs : Named s.path name) :
    ((paths (everywhere fs closed ext depth s)).map fs.address).Nodup := by
  induction depth generalizing s name with
  | zero => exact List.nodup_nil
  | succ depth ih =>
    have hinside : ((paths (inside fs closed ext depth s)).map fs.address).Nodup :=
      nodup_flatMap_everywhere h fun next hnext ↦
        ih (path_entry fs s next ▸ named_child _ hnext)
    rw [everywhere, ← inside, paths_append, List.map_append, List.nodup_append']
    refine ⟨?_, hinside, ?_⟩
    · rw [hit]
      cases s.path.fileName?.bind decode? with
      | none => exact List.nodup_nil
      | some text =>
        simp only
        split_ifs <;> simp [paths, Except.toOption]
    · rw [List.disjoint_left]
      intro loc hloc hloc'
      obtain ⟨r, hr, rfl⟩ := List.mem_map.mp hloc
      obtain ⟨r', hr', heq⟩ := List.mem_map.mp hloc'
      obtain ⟨rfl, -⟩ := found_of_mem_hit hs (mem_paths.mp hr)
      obtain ⟨next, hnext, hr'⟩ := ok_mem_inside_iff.mp (mem_paths.mp hr')
      have hname := (mem_listing h hnext).1
      obtain ⟨names, haddress⟩ := address_of_mem_everywhere h
        (path_entry fs s next ▸ named_child _ hname) hr'
      rw [heq, path_entry, address_child fs s.path hname, List.append_assoc,
        List.self_eq_append_right] at haddress
      cases haddress

theorem nodup_inside {ext : List Char} {depth : Nat} {s : Spot} :
    ((paths (inside fs closed ext depth s)).map fs.address).Nodup :=
  nodup_flatMap_everywhere h fun next hname ↦
    nodup_everywhere h (path_entry fs s next ▸ named_child _ hname)

end

/-! ### Rigid parts -/

theorem visit_rigid (fs : FileSystem) (closed : List Address) (cs : List Char)
    {rest : List Pattern} (hrest : rest ≠ []) (depth : Nat) (s : Spot) :
    visit fs closed false (depth + 1) (rigid cs :: rest) s =
      if s.path.fileName?.bind decode? = some cs then
        below fs closed false (visit fs closed false depth) rest s
      else [] := by
  have hidle : dropIdle (rigid cs :: rest) = rigid cs :: rest := by
    cases rest with
    | nil => exact absurd rfl hrest
    | cons next rest => simp [dropIdle, isRecursive_rigid]
  have hempty : rest.isEmpty = false := by simpa using hrest
  rw [visit, visitWith, hidle]
  simp only [isRecursive_rigid, Bool.false_eq_true, if_false, matching, hempty]
  cases s.path.fileName?.bind decode? with
  | none => simp
  | some name =>
    by_cases hname : name = cs
    · simp [hname, (matchesName_rigid cs cs).mpr rfl]
    · have hmatches : Pattern.matchesName (rigid cs) name = false := by
        rwa [Bool.eq_false_iff, ne_eq, matchesName_rigid]
      simp [hmatches, hname]

/-- The parts of a pattern for files under a directory. -/
def underDirectory (texts : List (List Char)) (ext : List Char) : List Pattern :=
  texts.map rigid ++ anyDepth ext

theorem underDirectory_ne_nil (texts : List (List Char)) (ext : List Char) :
    underDirectory texts ext ≠ [] := by
  simp [underDirectory, anyDepth]

/-- Whether the search goes on past a part without special characters. -/
def passes (fs : FileSystem) (cs : List Char) (s : Spot) : Bool :=
  if dotNames.contains (String.ofList cs) then s.isDirectory
  else fs.exists? (child s.path ⟨encode cs⟩)

section

variable (fs : FileSystem) (closed : List Address) {cs : List Char} (texts : List (List Char))
  (ext : List Char) (depth : Nat)

theorem below_plain (hcs : cs.any isSpecial = false) (s : Spot) :
    below fs closed false (visit fs closed false depth) (underDirectory (cs :: texts) ext) s =
      if passes fs cs s then
        below fs closed false (visit fs closed false depth) (underDirectory texts ext)
          (.ofPath fs (child s.path ⟨encode cs⟩))
      else [] := by
  have hempty : (underDirectory texts ext).isEmpty = false := by
    simpa using underDirectory_ne_nil texts ext
  have hpath : Path.ofString (String.ofList cs) = ⟨encode cs⟩ := by
    simp [Path.ofString, bytesOf]
  rw [underDirectory, List.map_cons, List.cons_append, ← underDirectory, below, literal?_rigid, hcs]
  simp only [hpath, hempty, passes, Bool.false_eq_true, if_false]
  rfl

theorem below_special (hcs : cs.any isSpecial) (s : Spot) :
    below fs closed false (visit fs closed false depth) (underDirectory (cs :: texts) ext) s =
      faults fs closed s ++ (listing fs closed s).flatMap fun name ↦
        visit fs closed false depth (underDirectory (cs :: texts) ext) (entry fs s name) := by
  rw [underDirectory, List.map_cons, List.cons_append, ← underDirectory, below, literal?_rigid, hcs,
    if_pos rfl, matchedDots_rigid hcs]
  simp only [List.flatMap_nil, List.nil_append]
  rw [within_eq List.flatMap_nil, List.flatMap_map]

theorem below_special_zero (hcs : cs.any isSpecial) (s : Spot) :
    below fs closed false (visit fs closed false 0) (underDirectory (cs :: texts) ext) s =
      faults fs closed s := by
  rw [below_special fs closed texts ext 0 hcs]
  simp [visit]

theorem visit_underDirectory (cs : List Char) {s : Spot} {name : Bytes} (hs : Named s.path name) :
    visit fs closed false (depth + 1) (underDirectory (cs :: texts) ext) s =
      if name = encode cs then
        below fs closed false (visit fs closed false depth) (underDirectory texts ext) s
      else [] := by
  have hname : s.path.fileName?.bind decode? = some cs ↔ name = encode cs := by
    rw [hs.fileName?, Option.bind_some]
    constructor
    · exact fun hdecode ↦ (encode_of_decode? hdecode).symm
    · rintro rfl
      exact decode?_encode cs
  have hvisit := visit_rigid fs closed cs (underDirectory_ne_nil texts ext) depth s
  simp only [hname] at hvisit
  exact hvisit

end

section

variable {fs : FileSystem} (closed : List Address) (h : fs.IsSound)

include h

/-- A part with special characters leads to the one entry with its name. -/
theorem below_special_succ {cs : List Char} (hcs : cs.any isSpecial) (texts : List (List Char))
    (ext : List Char) (depth : Nat) (s : Spot) :
    below fs closed false (visit fs closed false (depth + 1)) (underDirectory (cs :: texts) ext) s =
      faults fs closed s ++ if encode cs ∈ listing fs closed s then
        below fs closed false (visit fs closed false depth) (underDirectory texts ext)
          (entry fs s (encode cs))
      else [] := by
  rw [below_special fs closed texts ext _ hcs]
  congr 1
  refine (List.flatMap_congr fun name hname ↦ visit_underDirectory fs closed texts ext depth cs
    (path_entry fs s name ▸ named_child _ (isName_of_mem_listing h hname))).trans ?_
  exact flatMap_ite_eq nodup_listing (encode cs) fun name ↦
    below fs closed false (visit fs closed false depth) (underDirectory texts ext) (entry fs s name)

/-- The rigid parts of a pattern lead to one spot or nowhere. -/
theorem below_rigid (texts : List (List Char)) (ext : List Char) (depth : Nat) (s : Spot) :
    paths (below fs closed false (visit fs closed false depth) (underDirectory texts ext) s) = [] ∨
      ∃ depth' s',
        paths (below fs closed false (visit fs closed false depth) (underDirectory texts ext) s) =
          paths (inside fs closed ext depth' s') := by
  induction texts generalizing depth s with
  | nil => exact Or.inr ⟨depth, s, congrArg paths (below_anyDepth_eq ext depth s)⟩
  | cons cs texts ih =>
    by_cases hcs : cs.any isSpecial
    · cases depth with
      | zero => exact Or.inl (by rw [below_special_zero fs closed texts ext hcs, paths_faults])
      | succ depth =>
        rw [below_special_succ closed h hcs, paths_append, paths_faults, List.nil_append]
        split_ifs
        · exact ih depth _
        · exact Or.inl rfl
    · rw [below_plain fs closed texts ext depth (by simpa using hcs)]
      split_ifs
      · exact ih depth _
      · exact Or.inl rfl

variable {closed}

/-- What is found has the extension. -/
theorem found_of_mem_search {texts : List (List Char)} {ext : List Char} {q : Query}
    (hparts : q.parts = underDirectory texts ext) (hfiles : q.directoriesOnly = false) {r : Path}
    (hr : .ok r ∈ search fs closed q) : Found ext r := by
  rw [search, hparts, hfiles, ← mem_paths] at hr
  rcases below_rigid closed h texts ext (maxDepth fs (underDirectory texts ext))
    (.ofPath fs q.scope) with hnone | ⟨depth, s, hinside⟩
  · simp [hnone] at hr
  · rw [hinside] at hr
    exact found_of_mem_inside h (mem_paths.mp hr)

end

/-- In a tree nothing is found twice. -/
theorem nodup_search {fs : FileSystem} (h : fs.IsTree) (closed : List Address)
    {texts : List (List Char)} {ext : List Char} {q : Query}
    (hparts : q.parts = underDirectory texts ext) (hfiles : q.directoriesOnly = false) :
    ((paths (search fs closed q)).map fs.address).Nodup := by
  rw [search, hparts, hfiles]
  rcases below_rigid closed h.isSound texts ext (maxDepth fs (underDirectory texts ext))
    (.ofPath fs q.scope) with hnone | ⟨depth, s, hinside⟩
  · simp [hnone]
  · rw [hinside]
    exact nodup_inside h

end BundleLink.Glob
