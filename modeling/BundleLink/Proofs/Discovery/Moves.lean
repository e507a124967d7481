import BundleLink.Proofs.Discovery.Search
import BundleLink.Proofs.Path.Components

/-!
Where a search leads. Whatever the parts of a pattern are, each of them adds names to the path that
has been reached: those that it spells, one that it matches, or, if it is recursive, any number of
them (`Follows`). Every path that is found names, component by component, what the beginning of the
search names and then these names (`reached_of_mem_search`).
-/

set_option autoImplicit false

namespace BundleLink.Glob

open BundleLink.Text FileSystem

/-! ### Paths of entries -/

section

variable (p : Path)

/-- An entry of a directory is named after it, be it a step up, a step in place or nothing. -/
theorem solid_child {name : Bytes} (hslash : Path.slash ∉ name) :
    (child p ⟨name⟩).solid = p.solid ++ (steps ⟨name⟩).filterMap Path.partComponent? := by
  have hname := isAbsolute_of_notMem hslash
  rw [child, ← Path.solid_of_relative hname]
  split_ifs with hhere
  · rw [isHere, decide_eq_true_iff] at hhere
    have hnone : p.solid = [] := by
      rw [Path.solid, hhere]
      rfl
    rw [hnone, List.nil_append]
  · exact Path.solid_join_of_relative p hname

theorem steps_of_named_child {name last : Bytes} (hslash : Path.slash ∉ name)
    (hlast : Named (child p ⟨name⟩) last) : steps ⟨name⟩ = [last] := by
  have hnamed : Named ⟨name⟩ last := by
    rw [child] at hlast
    split_ifs at hlast
    · exact hlast
    · exact named_of_named_join p (isAbsolute_of_notMem hslash) hlast
  obtain rfl : name = last := hnamed.bytes_eq hslash
  exact steps_of_isName hnamed.isName

end

/-- The steps up and in place are no entries. -/
theorem dots_of_mem_matchedDots {part : Pattern} {p : Path} (hp : p ∈ matchedDots part) :
    Path.slash ∉ p.bytes ∧ ∀ last, ¬Named p last := by
  have hdots : p.bytes = [Path.dot, Path.dot] ∨ p.bytes = [Path.dot] := by
    rw [matchedDots] at hp
    split_ifs at hp
    · obtain ⟨s, hs, rfl⟩ := List.mem_map.mp hp
      rcases List.mem_pair.mp (List.mem_of_mem_filter hs) with rfl | rfl
      · exact .inl (by decide)
      · exact .inr (by decide)
    · exact absurd hp List.not_mem_nil
  have hslash : Path.slash ∉ p.bytes := by
    rcases hdots with heq | heq <;> rw [heq] <;> decide
  refine ⟨hslash, fun last hlast ↦ ?_⟩
  have hname := hlast.isName
  rw [← hlast.bytes_eq hslash] at hname
  exact hdots.elim hname.2.2.2 hname.2.2.1

theorem filterMap_partComponent?_singleton {name : Bytes} (hname : IsName name) :
    [name].filterMap Path.partComponent? = [.name name] := by
  rw [List.filterMap_cons, Path.partComponent?_of_isName hname, List.filterMap_nil]

theorem solid_eq_of_named {p : Path} {name : Bytes} (hp : Named p name) :
    p.solid = p.solid.dropLast ++ [name].filterMap Path.partComponent? := by
  rw [filterMap_partComponent?_singleton hp.isName, ← hp.solid_eq]

theorem exists_eq_concat_of_named {p : Path} {name last : Bytes} (hp : Named p name)
    (hlast : Named p last) : ∃ front, [name] = front ++ [last] :=
  ⟨[], congrArg (fun n ↦ [n]) (Option.some.inj (hp.fileName?.symm.trans hlast.fileName?))⟩

/-! ### Names that parts add -/

/-- The names that a search can add for the parts of a pattern, one part after the other. -/
inductive Follows : List Pattern → List Bytes → Prop
  | nil : Follows [] []
  | literal {part : Pattern} {parts : List Pattern} {name : List Char} {names : List Bytes} :
      part.literal? = some name → Follows parts names →
      Follows (part :: parts) (steps ⟨encode name⟩ ++ names)
  | listed {part : Pattern} {parts : List Pattern} {name : Bytes} {text : List Char}
      {names : List Bytes} : IsName name → decode? name = some text →
      part.matchesName text = true → Follows parts names → Follows (part :: parts) (name :: names)
  | dots {part : Pattern} {parts : List Pattern} {p : Path} {names : List Bytes} :
      part.literal? = none → p ∈ matchedDots part → Follows parts names →
      Follows (part :: parts) (steps p ++ names)
  | idle {part : Pattern} {parts : List Pattern} {names : List Bytes} :
      part.isRecursive = true → Follows parts names → Follows (part :: parts) names
  | deeper {part : Pattern} {parts : List Pattern} {name : Bytes} {names : List Bytes} :
      part.isRecursive = true → IsName name → Follows (part :: parts) names →
      Follows (part :: parts) (name :: names)

theorem exists_dropIdle (parts : List Pattern) : ∃ idle : List Pattern,
    parts = idle ++ dropIdle parts ∧ ∀ part ∈ idle, part.isRecursive = true := by
  induction parts using dropIdle.induct with
  | case1 p q ps hboth ih =>
    obtain ⟨idle, hparts, hidle⟩ := ih
    rw [dropIdle, if_pos hboth]
    rw [Bool.and_eq_true] at hboth
    refine ⟨p :: idle, congrArg (p :: ·) hparts, fun part hpart ↦ ?_⟩
    rcases List.mem_cons.mp hpart with rfl | hpart
    · exact hboth.1
    · exact hidle part hpart
  | case2 p q ps hboth => exact ⟨[], by rw [dropIdle, if_neg hboth]; rfl, by simp⟩
  | case3 ps hps =>
    refine ⟨[], ?_, by simp⟩
    rw [dropIdle.eq_def]
    split
    · exact absurd rfl (hps _ _ _)
    · rfl

theorem follows_of_dropIdle {parts : List Pattern} {names : List Bytes}
    (hnames : Follows (dropIdle parts) names) : Follows parts names := by
  obtain ⟨idle, hparts, hidle⟩ := exists_dropIdle parts
  rw [hparts]
  clear hparts
  induction idle with
  | nil => exact hnames
  | cons part idle ih =>
    exact .idle (hidle part List.mem_cons_self)
      (ih fun part hpart ↦ hidle part (List.mem_cons_of_mem _ hpart))

/-- No part spells a separator. -/
def AreCut (parts : List Pattern) : Prop :=
  ∀ part ∈ parts, ∀ name, part.literal? = some name → '/' ∉ name

theorem AreCut.dropIdle {parts : List Pattern} (hcut : AreCut parts) :
    AreCut (dropIdle parts) := by
  obtain ⟨idle, hparts, -⟩ := exists_dropIdle parts
  rw [hparts] at hcut
  exact fun part hpart ↦ hcut part (List.mem_append_right _ hpart)

/-- A path names what comes before and then names that follow the parts of a pattern, and if it ends
in a name of an entry, so do they. -/
def Reached (parts : List Pattern) (before : List Path.Component) (r : Path) : Prop :=
  ∃ names, Follows parts names ∧ r.solid = before ++ names.filterMap Path.partComponent? ∧
    ∀ last, Named r last → ∃ front, names = front ++ [last]

theorem Reached.mono {parts parts' : List Pattern} {before : List Path.Component} {r : Path}
    (hr : Reached parts before r) (hparts : ∀ names, Follows parts names → Follows parts' names) :
    Reached parts' before r := by
  obtain ⟨names, hnames, hend⟩ := hr
  exact ⟨names, hparts names hnames, hend⟩

theorem Reached.prepend {parts parts' : List Pattern} {before before' : List Path.Component}
    {r : Path} (hr : Reached parts before' r) {first : List Bytes}
    (hfirst : ∀ names, Follows parts names → Follows parts' (first ++ names))
    (hbefore : before' = before ++ first.filterMap Path.partComponent?) :
    Reached parts' before r := by
  obtain ⟨names, hnames, hsolid, hlast⟩ := hr
  refine ⟨first ++ names, hfirst names hnames, ?_, fun last hnamed ↦ ?_⟩
  · rw [hsolid, hbefore, List.filterMap_append, List.append_assoc]
  · obtain ⟨front, rfl⟩ := hlast last hnamed
    exact ⟨first ++ front, (List.append_assoc ..).symm⟩

/-! ### The search -/

section

variable {fs : FileSystem} {closed : List Address} {directoriesOnly : Bool}
  {visit : List Pattern → Spot → List Finding}

theorem eq_of_mem_wanted {s : Spot} {r : Path} (hr : .ok r ∈ wanted directoriesOnly s) :
    r = s.path := by
  rw [wanted] at hr
  split_ifs at hr
  · exact Except.ok.inj (List.mem_singleton.mp hr)
  · exact absurd hr List.not_mem_nil

/-- What is reached past the first part: the spot itself if no part follows, else whatever is found
below it. -/
theorem reached_onward {part : Pattern} {rest : List Pattern} {before : List Path.Component}
    {next : Spot} {r : Path} {first : List Bytes}
    (hfirst : ∀ names, Follows rest names → Follows (part :: rest) (first ++ names))
    (hbefore : next.path.solid = before ++ first.filterMap Path.partComponent?)
    (hlast : ∀ last, Named next.path last → ∃ front, first = front ++ [last])
    (hbelow : .ok r ∈ below fs closed directoriesOnly visit rest next →
      Reached rest next.path.solid r)
    (hr : .ok r ∈ if rest.isEmpty then wanted directoriesOnly next
      else below fs closed directoriesOnly visit rest next) : Reached (part :: rest) before r := by
  split_ifs at hr with hempty
  · obtain rfl := List.isEmpty_iff.mp hempty
    obtain rfl := eq_of_mem_wanted hr
    refine ⟨first, ?_, hbefore, hlast⟩
    simpa using hfirst [] .nil
  · exact (hbelow hr).prepend hfirst hbefore

variable (h : fs.IsSound)
  (hvisit : ∀ parts, AreCut parts → ∀ (s : Spot) name, Named s.path name →
    ∀ r, .ok r ∈ visit parts s → Reached parts s.path.solid.dropLast r)

include h hvisit

theorem reached_of_mem_below {parts : List Pattern} (hcut : AreCut parts) {s : Spot} {r : Path}
    (hr : .ok r ∈ below fs closed directoriesOnly visit parts s) :
    Reached parts s.path.solid r := by
  induction parts generalizing s with
  | nil => exact absurd hr List.not_mem_nil
  | cons part rest ih =>
    have hrest : AreCut rest := fun part hpart ↦ hcut part (List.mem_cons_of_mem _ hpart)
    rw [below] at hr
    cases hliteral : part.literal? with
    | some name =>
      simp only [hliteral] at hr
      have hslash := slash_notMem_encode (hcut part List.mem_cons_self name hliteral)
      have hpath : Path.ofString (String.ofList name) = ⟨encode name⟩ := by
        simp [Path.ofString, bytesOf]
      rw [hpath, List.mem_ite_nil_right] at hr
      exact reached_onward (fun names hnames ↦ .literal hliteral hnames)
        (solid_child s.path hslash)
        (fun last hlast ↦ ⟨[], steps_of_named_child s.path hslash hlast⟩) (ih hrest) hr.2
    | none =>
      simp only [hliteral] at hr
      rcases within_cases fs closed s _ with hwithin | ⟨unread, hwithin⟩ | ⟨loc, hplace, hwithin⟩
      · rw [hwithin] at hr
        exact absurd hr List.not_mem_nil
      · rw [hwithin] at hr
        cases List.mem_singleton.mp hr
      rw [hwithin, List.mem_append, List.flatMap_map, List.mem_flatMap, List.mem_flatMap] at hr
      rcases hr with ⟨dots, hdots, hr⟩ | ⟨name, hname, hr⟩
      · obtain ⟨hslash, hnot⟩ := dots_of_mem_matchedDots hdots
        have hrelative := isAbsolute_of_notMem hslash
        have hsolid : (Spot.ofPath fs (s.path.join dots)).path.solid =
            s.path.solid ++ (steps dots).filterMap Path.partComponent? := by
          rw [← Path.solid_of_relative hrelative]
          exact Path.solid_join_of_relative s.path hrelative
        exact reached_onward (fun names hnames ↦ .dots hliteral hdots hnames) hsolid
          (fun last hlast ↦ absurd (named_of_named_join s.path hrelative hlast) (hnot last))
          (ih hrest) hr
      · obtain ⟨entry, hentry⟩ := (mem_names fs loc name).mp hname
        have hisName : IsName name := h.is_name _ _ hentry name (by simp)
        have hreached := hvisit _ hcut (.ofEntry fs loc s.path name) name
          (path_ofEntry fs loc s.path name ▸ named_child s.path hisName) r hr
        rwa [path_ofEntry, solid_child s.path hisName.2.1, steps_of_isName hisName,
          filterMap_partComponent?_singleton hisName, List.dropLast_concat] at hreached

theorem reached_of_mem_matching {parts : List Pattern} (hcut : AreCut parts) {s : Spot} {r : Path}
    {name : Bytes} (hs : Named s.path name)
    (hr : .ok r ∈ matching fs closed directoriesOnly visit parts s) :
    Reached parts s.path.solid.dropLast r := by
  cases parts with
  | nil => exact absurd hr List.not_mem_nil
  | cons part rest =>
    have hrest : AreCut rest := fun part hpart ↦ hcut part (List.mem_cons_of_mem _ hpart)
    rw [matching, hs.fileName?, Option.bind_some] at hr
    cases htext : decode? name with
    | none => simp [htext] at hr
    | some text =>
      simp only [htext] at hr
      rw [List.mem_ite_nil_right] at hr
      obtain ⟨hmatches, hr⟩ := hr
      exact reached_onward (fun names hnames ↦ .listed hs.isName htext hmatches hnames)
        (solid_eq_of_named hs) (fun last hlast ↦ exists_eq_concat_of_named hs hlast)
        (reached_of_mem_below h hvisit hrest) hr

theorem reached_of_mem_visitWith {parts : List Pattern} (hcut : AreCut parts) {s : Spot} {r : Path}
    {name : Bytes} (hs : Named s.path name)
    (hr : .ok r ∈ visitWith fs closed directoriesOnly visit parts s) :
    Reached parts s.path.solid.dropLast r := by
  rw [visitWith] at hr
  have hdrop := hcut.dropIdle
  cases hparts : dropIdle parts with
  | nil => simp [hparts] at hr
  | cons part rest =>
    rw [hparts] at hdrop
    have hrest : AreCut rest := fun part hpart ↦ hdrop part (List.mem_cons_of_mem _ hpart)
    have hsolid := solid_eq_of_named hs
    have hreached : Reached (part :: rest) s.path.solid.dropLast r := by
      simp only [hparts] at hr
      by_cases hrecursive : part.isRecursive
      · simp only [hrecursive, if_true, List.mem_append] at hr
        rcases hr with hr | hr
        · by_cases hempty : rest.isEmpty
          · obtain rfl := List.isEmpty_iff.mp hempty
            simp only [hempty, if_true] at hr
            rw [List.mem_ite_nil_right] at hr
            obtain rfl := Except.ok.inj (List.mem_singleton.mp hr.2)
            exact ⟨[name], .deeper hrecursive hs.isName (.idle hrecursive .nil), hsolid,
              fun last hlast ↦ exists_eq_concat_of_named hs hlast⟩
          · rw [if_neg hempty] at hr
            exact (reached_of_mem_matching h hvisit hrest hs hr).mono
              fun names hnames ↦ .idle hrecursive hnames
        · rw [List.mem_ite_nil_right] at hr
          exact (reached_of_mem_below h hvisit hdrop hr.2).prepend
            (fun names hnames ↦ .deeper hrecursive hs.isName hnames) hsolid
      · rw [if_neg hrecursive] at hr
        exact reached_of_mem_matching h hvisit hdrop hs hr
    rw [← hparts] at hreached
    exact hreached.mono fun names hnames ↦ follows_of_dropIdle hnames

end

section

variable {fs : FileSystem} {closed : List Address} (h : fs.IsSound)

include h

theorem reached_of_mem_visit (directoriesOnly : Bool) (depth : Nat) {parts : List Pattern}
    (hcut : AreCut parts) {s : Spot} {name : Bytes} (hs : Named s.path name) :
    ∀ r, .ok r ∈ visit fs closed directoriesOnly depth parts s →
      Reached parts s.path.solid.dropLast r := by
  induction depth generalizing parts s name with
  | zero => exact fun r hr ↦ absurd hr List.not_mem_nil
  | succ depth ih =>
    exact fun r hr ↦ reached_of_mem_visitWith h (fun parts hcut s name hs ↦ ih hcut hs) hcut hs hr

/-- Whatever a search finds, it has followed the parts of the pattern there. -/
theorem reached_of_mem_search {q : Query} (hcut : AreCut q.parts) {r : Path}
    (hr : .ok r ∈ search fs closed q) : Reached q.parts q.scope.solid r :=
  reached_of_mem_below h (fun _ hcut _ _ hs ↦ reached_of_mem_visit h _ _ hcut hs) hcut hr

end

end BundleLink.Glob
